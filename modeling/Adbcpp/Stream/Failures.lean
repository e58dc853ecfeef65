import Adbcpp.Library.Triple
import Adbcpp.Stream.Writing

/-! How the calls on a stream fail. A write that is larger than the negotiated maximum
is refused by the host itself, with an error of its own. Where the failures of the
session are told from it, no other call fails with that error, and neither does a
write that fits. -/

namespace Adbcpp

open Protocol Dialogue

/-- The refusal of a write by the host. -/
def writeTooLarge : Error :=
  .of .invalidArgument "the write is larger than the negotiated maximum payload"

/-- A failure that is not the refusal of a write. -/
def NotTooLarge (e : Error) : Prop := e ≠ writeTooLarge

instance (e : Error) : Decidable (NotTooLarge e) := inferInstanceAs (Decidable (e ≠ _))

theorem notTooLarge_of_code {e : Error} (h : e.code ≠ .invalidArgument) : NotTooLarge e :=
  fun heq => h (congrArg Error.code heq)

theorem makeMessage_notTooLarge {command arg0 arg1 : UInt32} {payload : List Byte} {e : Error}
    (h : makeMessage command arg0 arg1 payload = .error e) : NotTooLarge e := by
  unfold makeMessage Message.dataLengthOf at h
  split at h <;> cases h
  decide

namespace Dialogue

/-- The failures of the session are told from the refusal of a write. -/
structure Told (d : Dialogue) : Prop where
  arrivals : ∀ e, .fault e ∈ d.inbox → NotTooLarge e
  outcomes : ∀ n e, .failed n e ∈ d.outcomes → NotTooLarge e

theorem Told.record {d : Dialogue} (h : d.Told) (event : Event) : (d.record event).Told :=
  ⟨h.arrivals, h.outcomes⟩

theorem write_keeps : Prog.Maintains Told NotTooLarge write := by
  intro d hd
  rw [run_write]
  split
  next => exact hd
  next rest ho => exact ⟨hd.arrivals, fun n e he => hd.outcomes n e (ho ▸ List.mem_cons_of_mem _ he)⟩
  next n e rest ho =>
    refine ⟨hd.outcomes n e (ho ▸ List.mem_cons_self), hd.arrivals, fun m e' he => ?_⟩
    exact hd.outcomes m e' (ho ▸ List.mem_cons_of_mem _ he)

theorem send_keeps (header : Message) (payload : List Byte) :
    Prog.Maintains Told NotTooLarge (send header payload) := by
  intro d hd
  have hwrite : Prog.Maintains Told NotTooLarge (writeMessage payload) :=
    Prog.Maintains.bind write_keeps fun _ =>
      Prog.Maintains.ite (fun _ => write_keeps) fun _ => Prog.Maintains.pure _
  have hends := hwrite d hd
  rw [run_send]
  split
  · exact ⟨notTooLarge_of_code (by decide), hd⟩
  split
  · exact ⟨by decide, hd⟩
  split
  next d' hrun =>
    rw [hrun] at hends
    exact Told.record hends _
  next e d' hrun =>
    rw [hrun] at hends
    exact ⟨hends.1, hends.2.record _⟩

theorem receive_keeps : Prog.Maintains Told NotTooLarge receive := by
  intro d hd
  have hrest {a : Arrival} {rest : List Arrival} (h : d.inbox = a :: rest) :
      ∀ e, .fault e ∈ rest → NotTooLarge e := fun e he => hd.arrivals e (h ▸ List.mem_cons_of_mem _ he)
  by_cases hopen : d.closed = false
  swap
  · rw [receive_closed (by simpa using hopen)]
    exact ⟨notTooLarge_of_code (by decide), hd⟩
  rw [run_receive hopen]
  split
  next => exact ⟨notTooLarge_of_code (by decide), hd⟩
  next f rest h => exact ⟨hrest h, hd.outcomes⟩
  next e rest h => exact ⟨hd.arrivals e (h ▸ List.mem_cons_self), hrest h, hd.outcomes⟩
  next message rest h => exact ⟨notTooLarge_of_code (by simp), hrest h, hd.outcomes⟩

end Dialogue

/-- The connection is the given one up to its session and its next id, and its failures are told from
the refusal of a write. -/
structure Steady (c c' : Connection Dialogue) : Prop where
  same : c' = { c with session := c'.session, nextLocalId := c'.nextLocalId }
  told : c'.session.Told

namespace Steady

variable {c c' : Connection Dialogue}

theorem refl (h : c.session.Told) : Steady c c := ⟨rfl, h⟩

theorem maxData (h : Steady c c') : c'.maxData = c.maxData := by rw [h.same]

theorem features (h : Steady c c') : c'.features = c.features := by rw [h.same]

theorem withSession (h : Steady c c') {d : Dialogue} (hd : d.Told) : Steady c { c' with session := d } := by
  refine ⟨?_, hd⟩
  rw [h.same]

end Steady

namespace StreamOn

variable {c : Connection Dialogue} {α : Type}

theorem onSession_keeps {p : Action Dialogue α} (h : Prog.Maintains Told NotTooLarge p) :
    Prog.Maintains (fun s => Steady c s.connection) NotTooLarge
      (onConnection (Connection.onSession p) : Action (StreamOn Dialogue) α) := by
  refine Prog.Maintains.zoom (J := Steady c) ?_ (fun _ h => h) fun _ _ _ h => h
  exact Prog.Maintains.zoom h (fun _ h => h.told) fun _ _ hc hd => hc.withSession hd

theorem setStream_keeps (f : Stream → Stream) :
    Prog.Maintains (fun s => Steady c s.connection) NotTooLarge
      (Prog.modify (setStream f) : Action (StreamOn Dialogue) Unit) :=
  Prog.Maintains.modify fun _ h => h

theorem handleFrame_keeps (frame : Frame) :
    Prog.Maintains (fun s => Steady c s.connection) NotTooLarge
      (handleFrame frame : Action (StreamOn Dialogue) (Turn Unit Bool)) := by
  unfold handleFrame
  refine Prog.Maintains.get_bind fun s _ => Prog.Maintains.ite (fun _ => Prog.Maintains.pure _) fun _ => ?_
  refine Prog.Maintains.ite (fun _ => ?_) fun _ =>
    Prog.Maintains.ite (fun _ => Prog.Maintains.pure _) fun _ => ?_
  · refine Prog.Maintains.bind (setStream_keeps _) fun _ => ?_
    exact Prog.Maintains.bind (onSession_keeps (send_keeps _ _)) fun _ => Prog.Maintains.pure _
  · refine Prog.Maintains.ite (fun _ => ?_) fun _ => Prog.Maintains.fail (notTooLarge_of_code (by decide))
    exact Prog.Maintains.bind (setStream_keeps _) fun _ => Prog.Maintains.pure _

theorem receiveMore_keeps : Prog.Maintains (fun s => Steady c s.connection) NotTooLarge
    (receiveMore : Action (StreamOn Dialogue) Bool) :=
  Prog.Maintains.loop _ (fun _ => Prog.Maintains.bind (onSession_keeps receive_keeps) handleFrame_keeps) ()

theorem fillBuffer_keeps : Prog.Maintains (fun s => Steady c s.connection) NotTooLarge
    (fillBuffer : Action (StreamOn Dialogue) Unit) := by
  unfold fillBuffer
  refine Prog.Maintains.get_bind fun s _ => Prog.Maintains.ite (fun _ => ?_) fun _ => Prog.Maintains.pure _
  refine Prog.Maintains.bind receiveMore_keeps fun more => ?_
  exact Prog.Maintains.ite (fun _ => Prog.Maintains.fail (notTooLarge_of_code (by decide))) fun _ =>
    Prog.Maintains.pure _

theorem read_keeps (size : ℕ) : Prog.Maintains (fun s => Steady c s.connection) NotTooLarge
    (read size : Action (StreamOn Dialogue) (List Byte)) := by
  refine Prog.Maintains.loop _ (fun out => ?_) []
  unfold readTurn
  refine Prog.Maintains.ite (fun _ => ?_) fun _ => Prog.Maintains.pure _
  refine Prog.Maintains.bind fillBuffer_keeps fun _ => Prog.Maintains.bind ?_ fun _ => Prog.Maintains.pure _
  unfold takeBuffered
  exact Prog.Maintains.get_bind fun s _ =>
    Prog.Maintains.bind (setStream_keeps _) fun _ => Prog.Maintains.pure _

theorem write_keeps {data : List Byte} (h : data.length ≤ c.maxData.toNat) :
    Prog.Maintains (fun s => Steady c s.connection) NotTooLarge
      (write data : Action (StreamOn Dialogue) Unit) := by
  unfold write
  refine Prog.Maintains.get_bind fun s hs => Prog.Maintains.ite (fun hlarge => ?_) fun _ => ?_
  · rw [hs.maxData] at hlarge
    omega
  · refine Prog.Maintains.bind (Prog.Maintains.lift fun e => makeMessage_notTooLarge) fun message => ?_
    exact onSession_keeps (send_keeps _ _)

/-- A write may be refused. -/
theorem write_steady (data : List Byte) : Prog.Maintains (fun s => Steady c s.connection) (fun _ => True)
    (write data : Action (StreamOn Dialogue) Unit) := by
  unfold write
  refine Prog.Maintains.get_bind fun s _ => Prog.Maintains.ite (fun _ => Prog.Maintains.fail trivial) fun _ => ?_
  refine Prog.Maintains.bind (Prog.Maintains.lift fun _ _ => trivial) fun message => ?_
  exact (onSession_keeps (send_keeps _ _)).mono fun _ _ => trivial

/-- A write that does not fit is refused, and does nothing. -/
theorem write_refused {data : List Byte} {s : StreamOn Dialogue}
    (h : s.connection.maxData.toNat < data.length) :
    (write data).run s = (.error writeTooLarge, s) := by
  rw [write, Prog.run_bind_get, if_pos h]
  rfl

theorem closeNow_steady {s : StreamOn Dialogue} (h : Steady c s.connection) :
    Steady c s.closeNow.connection := by
  rw [closeNow]
  split
  · exact h
  · exact (onSession_keeps (send_keeps _ _)).state (s := s.setStream _) h

theorem sendOpen_keeps : Prog.Maintains (fun s => Steady c s.connection) NotTooLarge
    (sendOpen : Action (StreamOn Dialogue) Unit) := by
  unfold sendOpen
  refine Prog.Maintains.get_bind fun s _ => ?_
  refine Prog.Maintains.bind (Prog.Maintains.lift fun e => makeMessage_notTooLarge) fun message => ?_
  refine Prog.Maintains.bind (onSession_keeps (send_keeps _ _)) fun _ => Prog.Maintains.loop _ (fun _ => ?_) ()
  refine Prog.Maintains.bind (onSession_keeps receive_keeps) fun frame => Prog.Maintains.get_bind fun s _ => ?_
  refine Prog.Maintains.ite (fun _ => Prog.Maintains.pure _) fun _ => ?_
  refine Prog.Maintains.ite (fun _ => Prog.Maintains.fail (notTooLarge_of_code (by decide))) fun _ => ?_
  exact Prog.Maintains.bind (setStream_keeps _) fun _ => Prog.Maintains.pure _

end StreamOn

open StreamOn

variable {c : Connection Dialogue}

/-- Opening a stream fails with the failures of the session, or with those of its answer. -/
theorem open_keeps (service : List Byte) :
    Prog.Maintains (Steady c) NotTooLarge (Stream.open service) := by
  intro c' hc
  have hnew : Steady c c'.allocateLocalId.2 := by
    refine ⟨?_, hc.told⟩
    rw [Connection.allocateLocalId, hc.same]
  have hends := sendOpen_keeps ⟨{ service, localId := c'.nextLocalId }, c'.allocateLocalId.2⟩ hnew
  rw [Stream.run_open]
  split
  next s hrun =>
    rw [hrun] at hends
    exact hends
  next e s hrun =>
    rw [hrun] at hends
    exact ⟨hends.1, closeNow_steady hends.2⟩

theorem withStream_steady {α : Type} (service : List Byte) {body : Action (StreamOn Dialogue) α}
    (h : Prog.Maintains (fun s => Steady c s.connection) (fun _ => True) body) :
    Prog.Maintains (Steady c) (fun _ => True) (withStream service body) := by
  refine Prog.Maintains.bind ((open_keeps service).mono fun _ _ => trivial) fun stream c' hc => ?_
  have hstate := closeNow_steady (h.state (s := ⟨stream, c'⟩) hc)
  show Prog.Ends _ _ ((body.run ⟨stream, c'⟩).1, (body.run ⟨stream, c'⟩).2.closeNow.connection)
  match (body.run ⟨stream, c'⟩).1 with
  | .ok a => exact hstate
  | .error e => exact ⟨trivial, hstate⟩

end Adbcpp
