import Mathlib.Order.RelClasses
import Adbcpp.Stream.Writing

/-! The device's maximum payload and the messages of a stream. A write is checked
against it, and the messages without a payload are always within it. The OPEN of a
stream carries its service, and is not checked. -/

namespace Adbcpp

open Protocol Dialogue

/-- Every message that was attempted between two states has `P`. -/
def Attempted (P : Frame → Prop) (d d' : Dialogue) : Prop :=
  ∃ new, d'.trace = d.trace ++ new ∧ ∀ f ∈ attempts new, P f

namespace Attempted

variable {P : Frame → Prop} {d d' : Dialogue}

instance : Std.Refl (Attempted P) := ⟨fun _ => ⟨[], (List.append_nil _).symm, by simp⟩⟩

instance : IsTrans Dialogue (Attempted P) where
  trans := by
    rintro d e f ⟨new, hde, hnew⟩ ⟨new', hef, hnew'⟩
    refine ⟨new ++ new', by rw [hef, hde, List.append_assoc], ?_⟩
    rw [attempts_append]
    exact List.forall_mem_append.mpr ⟨hnew, hnew'⟩

theorem send {header : Message} {payload : List Byte} (h : P ⟨header, payload⟩) :
    Prog.Steps (Attempted P) (Dialogue.send header payload) := by
  intro d
  obtain ⟨r, d', new, hrun, hattempt, -, -, htrace⟩ := send_attempt header payload d
  rw [hrun]
  exact ⟨new, htrace, fun f hf => hattempt.attempts f hf ▸ h⟩

theorem receive : Prog.Steps (Attempted P) Dialogue.receive := by
  intro d
  by_cases hopen : d.closed = false
  swap
  · rw [receive_closed (by simpa using hopen)]
    exact refl_of (Attempted P) d
  rw [run_receive hopen]
  split
  next => exact refl_of (Attempted P) d
  next f rest _ => exact ⟨[.received f], rfl, by simp⟩
  next => exact ⟨[], (List.append_nil _).symm, by simp⟩
  next => exact ⟨[], (List.append_nil _).symm, by simp⟩

end Attempted

/-- What a connection has negotiated, as far as the size of a message goes. -/
structure Terms where
  maxData : UInt32
  features : List (List Byte)

def Connection.terms (c : Connection Dialogue) : Terms := ⟨c.maxData, c.features⟩

/-- On a connection with the given terms, the messages that were attempted are within its maximum. -/
def Within (terms : Terms) (c c' : Connection Dialogue) : Prop :=
  c.terms = terms → c'.terms = terms ∧ Attempted (·.header.dataLength ≤ terms.maxData) c.session c'.session

/-- The same of two states that have a connection. -/
def WithinOn {σ : Type} (view : σ → Connection Dialogue) (terms : Terms) : σ → σ → Prop :=
  Order.Preimage view (Within terms)

variable {terms : Terms}

instance : Std.Refl (Within terms) := ⟨fun c h => ⟨h, refl_of (Attempted _) c.session⟩⟩

instance : IsTrans (Connection Dialogue) (Within terms) where
  trans := by
    intro c d e hcd hde hterms
    obtain ⟨hd, hattempted⟩ := hcd hterms
    obtain ⟨he, hattempted'⟩ := hde hd
    exact ⟨he, trans_of (Attempted _) hattempted hattempted'⟩

instance {σ : Type} (view : σ → Connection Dialogue) : Std.Refl (WithinOn view terms) :=
  Order.Preimage.instRefl

instance {σ : Type} (view : σ → Connection Dialogue) : IsTrans σ (WithinOn view terms) :=
  Order.Preimage.instIsTrans

/-! ### Streams -/

namespace StreamOn

variable {α : Type}

theorem onSession_within {p : Action Dialogue α} (h : Prog.Steps (Attempted (·.header.dataLength ≤ terms.maxData)) p) :
    Prog.Steps (WithinOn StreamOn.connection terms)
      (onConnection (Connection.onSession p) : Action (StreamOn Dialogue) α) :=
  fun s hterms => ⟨hterms, h s.connection.session⟩

theorem setStream_within (f : Stream → Stream) (s : StreamOn Dialogue) :
    WithinOn StreamOn.connection terms s (s.setStream f) := refl_of (Within terms) s.connection

/-- A message without a payload is within every maximum. -/
theorem sendEmpty_within (command arg0 arg1 : UInt32) : Prog.Steps (WithinOn StreamOn.connection terms)
    (onConnection (Connection.send (makeEmptyMessage command arg0 arg1) []) : Action (StreamOn Dialogue) Unit) :=
  onSession_within (Attempted.send (UInt32.le_iff_toNat_le.mpr (Nat.zero_le _)))

theorem receive_within : Prog.Steps (WithinOn StreamOn.connection terms)
    (onConnection Connection.receive : Action (StreamOn Dialogue) Frame) :=
  onSession_within Attempted.receive

theorem receiveMore_within : Prog.Steps (WithinOn StreamOn.connection terms)
    (receiveMore : Action (StreamOn Dialogue) Bool) := by
  refine Prog.Steps.loop _ (fun _ => Prog.Steps.bind receive_within fun frame => ?_) ()
  refine Prog.Steps.bind Prog.Steps.get fun s => Prog.Steps.ite (Prog.Steps.pure _) (Prog.Steps.ite ?_ ?_)
  · refine Prog.Steps.bind (Prog.Steps.modify (setStream_within _)) fun _ => ?_
    exact Prog.Steps.bind (sendEmpty_within _ _ _) fun _ => Prog.Steps.pure _
  · refine Prog.Steps.ite (Prog.Steps.pure _) (Prog.Steps.ite ?_ (Prog.Steps.fail _))
    exact Prog.Steps.bind (Prog.Steps.modify (setStream_within _)) fun _ => Prog.Steps.pure _

theorem read_within (size : ℕ) : Prog.Steps (WithinOn StreamOn.connection terms)
    (read size : Action (StreamOn Dialogue) (List Byte)) :=
  read_steps (fun f _ => setStream_within f) receiveMore_within size

theorem readAll_within : Prog.Steps (WithinOn StreamOn.connection terms)
    (readAll : Action (StreamOn Dialogue) (List Byte)) :=
  readAll_steps (fun f _ => setStream_within f) receiveMore_within

theorem closeNow_within (s : StreamOn Dialogue) : WithinOn StreamOn.connection terms s s.closeNow := by
  rw [closeNow]
  split
  · exact refl_of (WithinOn StreamOn.connection terms) s
  · exact sendEmpty_within kClse s.stream.localId s.stream.remoteId (s.setStream _)

theorem makeMessage_dataLength {command arg0 arg1 : UInt32} {payload : List Byte} {m : Message}
    (h : makeMessage command arg0 arg1 payload = .ok m) : m.dataLength.toNat = payload.length := by
  unfold makeMessage Message.dataLengthOf at h
  split at h <;> cases h
  next hle =>
    have hlt : payload.length < 2 ^ 32 := by omega
    exact UInt32.toNat_ofNat_of_lt hlt

/-- A write is checked against the maximum. -/
theorem write_within (data : List Byte) : Prog.Steps (WithinOn StreamOn.connection terms)
    (write data : Action (StreamOn Dialogue) Unit) := by
  intro s hterms
  rw [write, Prog.run_bind_get]
  split
  · exact refl_of (Within terms) s.connection hterms
  next hfits =>
  cases hm : makeMessage kWrte s.stream.localId s.stream.remoteId data with
  | error e => exact refl_of (Within terms) s.connection hterms
  | ok message =>
    have hlength := makeMessage_dataLength hm
    have hle : message.dataLength ≤ terms.maxData := by
      rw [UInt32.le_iff_toNat_le, hlength, ← hterms]
      exact Nat.le_of_not_lt hfits
    exact onSession_within (Attempted.send hle) s hterms

/-- An OPEN is within the maximum where its service and the NUL behind it are. -/
theorem sendOpen_within {s : StreamOn Dialogue} (h : s.stream.service.length + 1 ≤ terms.maxData.toNat) :
    WithinOn StreamOn.connection terms s (sendOpen.run s).2 := by
  have hrest : Prog.Steps (WithinOn StreamOn.connection terms) (do
      let message ← Prog.lift (makeMessage kOpen s.stream.localId
        (if s.connection.delayedAck then kInitialDelayedAckBytes else 0) (s.stream.service ++ [0]))
      onConnection (Connection.send message (s.stream.service ++ [0]))
      awaitOpen : Action (StreamOn Dialogue) Unit) := by
    refine Prog.Steps.bind_run (Prog.Steps.lift _) fun message t t' hlift => ?_
    have hle : message.dataLength ≤ terms.maxData := by
      rw [UInt32.le_iff_toNat_le, makeMessage_dataLength (Prod.mk.inj hlift).1, List.length_append]
      exact h
    refine Prog.Steps.bind (onSession_within (Attempted.send hle)) (fun _ => ?_) t'
    refine Prog.Steps.loop _ (fun _ => Prog.Steps.bind receive_within fun frame => ?_) ()
    refine Prog.Steps.bind Prog.Steps.get fun u => Prog.Steps.ite (Prog.Steps.pure _) ?_
    refine Prog.Steps.ite (Prog.Steps.fail _) ?_
    exact Prog.Steps.bind (Prog.Steps.modify (setStream_within _)) fun _ => Prog.Steps.pure _
  exact hrest s

end StreamOn

open StreamOn

theorem open_within {service : List Byte} (h : service.length + 1 ≤ terms.maxData.toNat) :
    Prog.Steps (Within terms) (Stream.open service) := by
  intro c
  have hsend : WithinOn StreamOn.connection terms ⟨{ service, localId := c.nextLocalId }, c.allocateLocalId.2⟩
      (sendOpen.run ⟨{ service, localId := c.nextLocalId }, c.allocateLocalId.2⟩).2 := sendOpen_within h
  rw [Stream.run_open]
  generalize sendOpen.run (⟨{ service, localId := c.nextLocalId }, c.allocateLocalId.2⟩ :
    StreamOn Dialogue) = r at hsend
  match r with
  | (.ok (), s) => exact hsend
  | (.error e, s) => exact trans_of (WithinOn StreamOn.connection terms) hsend (closeNow_within s)

theorem withStream_within {α : Type} {service : List Byte} (h : service.length + 1 ≤ terms.maxData.toNat)
    {body : Action (StreamOn Dialogue) α} (hbody : Prog.Steps (WithinOn StreamOn.connection terms) body) :
    Prog.Steps (Within terms) (withStream service body) := by
  refine Prog.Steps.bind (open_within h) fun stream c => ?_
  exact trans_of (WithinOn StreamOn.connection terms) (hbody ⟨stream, c⟩) (closeNow_within _)

end Adbcpp
