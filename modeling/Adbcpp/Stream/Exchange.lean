import Adbcpp.Stream.Lockstep
import Adbcpp.Stream.Reading

/-! What reading a stream does on the wire. Every frame that a read consumes goes by
once; a WRTE of the stream is answered with one OKAY before the next frame is
received, and nothing else is sent. -/

namespace Adbcpp

open Protocol Dialogue

/-- A WRTE of the stream `localId`. -/
def IsData (localId : UInt32) (f : Frame) : Prop :=
  f.header.arg1 = localId ∧ f.header.command = kWrte

instance (localId : UInt32) (f : Frame) : Decidable (IsData localId f) :=
  inferInstanceAs (Decidable (_ ∧ _))

/-- What goes by when a read consumes one arrival: the frame, and the answer to a WRTE. -/
def exchange (localId remoteId : UInt32) : Arrival → List Event
  | .frame f => .received f ::
    if IsData localId f then [.sent (StreamOn.acknowledgement localId remoteId)] else []
  | _ => []

namespace StreamOn

/-- The ids of a stream, and its connection apart from the session, stay as they are. -/
structure SameStream {σ : Type} (s s' : StreamOn σ) : Prop where
  service : s'.stream.service = s.stream.service
  localId : s'.stream.localId = s.stream.localId
  remoteId : s'.stream.remoteId = s.stream.remoteId
  connection : s'.connection = { s.connection with session := s'.connection.session }

instance {σ : Type} : Std.Refl (SameStream (σ := σ)) := ⟨fun _ => ⟨rfl, rfl, rfl, rfl⟩⟩

instance {σ : Type} : IsTrans (StreamOn σ) SameStream where
  trans := by
    rintro s t u hst htu
    refine ⟨htu.service.trans hst.service, htu.localId.trans hst.localId,
      htu.remoteId.trans hst.remoteId, ?_⟩
    rw [htu.connection, hst.connection]

/-- An update of the buffer or of the closing of a stream. -/
def KeepsIds (f : Stream → Stream) : Prop :=
  ∀ t, (f t).service = t.service ∧ (f t).localId = t.localId ∧ (f t).remoteId = t.remoteId

/-- An update of the buffer of a stream, and of nothing else. -/
def UpdatesBuffer (f : Stream → Stream) : Prop :=
  ∀ t, f t = { t with incoming := (f t).incoming, incomingOffset := (f t).incomingOffset }

theorem UpdatesBuffer.keepsIds {f : Stream → Stream} (h : UpdatesBuffer f) : KeepsIds f := by
  intro t
  rw [h t]
  exact ⟨rfl, rfl, rfl⟩

theorem setStream_sameStream {σ : Type} {f : Stream → Stream} (h : KeepsIds f) :
    Prog.Steps SameStream (Prog.modify (setStream f) : Action (StreamOn σ) Unit) :=
  Prog.Steps.modify fun _ => ⟨(h _).1, (h _).2.1, (h _).2.2, rfl⟩

theorem onSession_sameStream {σ α : Type} (p : Action σ α) :
    Prog.Steps SameStream (onConnection (Connection.onSession p)) :=
  fun _ => ⟨rfl, rfl, rfl, rfl⟩

theorem receiveMoreTurn_sameStream {σ : Type} [Channel σ] :
    Prog.Steps SameStream (receiveMoreTurn () : Action (StreamOn σ) _) := by
  refine Prog.Steps.bind (onSession_sameStream _) fun f => Prog.Steps.bind Prog.Steps.get fun s => ?_
  refine Prog.Steps.ite (Prog.Steps.pure _) (Prog.Steps.ite ?_ ?_)
  · refine Prog.Steps.bind (setStream_sameStream fun _ => ⟨rfl, rfl, rfl⟩) fun _ => ?_
    exact Prog.Steps.bind (onSession_sameStream _) fun _ => Prog.Steps.pure _
  · refine Prog.Steps.ite (Prog.Steps.pure _) (Prog.Steps.ite ?_ (Prog.Steps.fail _))
    exact Prog.Steps.bind (setStream_sameStream fun _ => ⟨rfl, rfl, rfl⟩)
      fun _ => Prog.Steps.pure _

/-- Some arrivals have been consumed, and what went by is their exchange. -/
def Consumes (s s' : StreamOn Dialogue) : Prop :=
  ∃ consumed, s.connection.session.inbox = consumed ++ s'.connection.session.inbox ∧
    s'.connection.session.trace = s.connection.session.trace ++
      consumed.flatMap (exchange s.stream.localId s.stream.remoteId)

/-- Every coming write is accepted. -/
def AllAccepted (s : StreamOn Dialogue) : Prop :=
  ∀ o ∈ s.connection.session.outcomes, o = .accepted

/-- The stream stays the same, and where every write is accepted the arrivals it consumes
are exchanged one by one. -/
structure Exchanges (s s' : StreamOn Dialogue) : Prop where
  same : SameStream s s'
  accepted : s.AllAccepted → s'.AllAccepted
  consumes : s.AllAccepted → Consumes s s'

theorem Consumes.refl (s : StreamOn Dialogue) : Consumes s s := ⟨[], rfl, by simp⟩

instance : Std.Refl Exchanges := ⟨fun s => ⟨refl_of SameStream s, id, fun _ => .refl s⟩⟩

instance : IsTrans (StreamOn Dialogue) Exchanges where
  trans := by
    rintro s t u ⟨hst, hacc, hcon⟩ ⟨htu, hacc', hcon'⟩
    refine ⟨trans_of SameStream hst htu, hacc' ∘ hacc, fun h => ?_⟩
    obtain ⟨consumed, hin, htr⟩ := hcon h
    obtain ⟨consumed', hin', htr'⟩ := hcon' (hacc h)
    refine ⟨consumed ++ consumed', ?_, ?_⟩
    · rw [hin, hin', List.append_assoc]
    · rw [htr', htr, hst.localId, hst.remoteId, List.flatMap_append, List.append_assoc]

theorem setStream_exchanges {f : Stream → Stream} (h : KeepsIds f) :
    Prog.Steps Exchanges (Prog.modify (setStream f) : Action (StreamOn Dialogue) Unit) :=
  fun s => ⟨setStream_sameStream h s, id, fun _ => .refl s⟩

/-- What a frame makes of the stream, with the frame itself already received. -/
theorem handleFrame_trace {f : Frame} {s : StreamOn Dialogue}
    (hopen : s.connection.session.closed = false) (h : s.AllAccepted) :
    ((handleFrame f).run s).2.AllAccepted ∧
      ((handleFrame f).run s).2.connection.session.inbox = s.connection.session.inbox ∧
      ((handleFrame f).run s).2.connection.session.trace = s.connection.session.trace ++
        if IsData s.stream.localId f then [.sent (acknowledgement s.stream.localId s.stream.remoteId)] else [] := by
  rw [handleFrame, Prog.run_bind_get]
  by_cases hid : f.header.arg1 ≠ s.stream.localId
  · have hdata : ¬ IsData s.stream.localId f := fun hd => hid hd.1
    rw [if_pos hid, if_neg hdata, List.append_nil]
    exact ⟨h, rfl, rfl⟩
  rw [if_neg hid]
  by_cases hwrte : f.header.command = kWrte
  · have hdata : IsData s.stream.localId f := ⟨not_not.mp hid, hwrte⟩
    rw [if_pos hwrte, if_pos hdata, Prog.run_bind_modify]
    obtain ⟨d, hrun, _, hinbox, hout, htrace⟩ := run_acknowledge
      (s := s.setStream fun t => { t with incoming := f.payload, incomingOffset := 0 })
      (accepts_of_all hopen h 1) s.stream.localId s.stream.remoteId
    rw [Prog.run_bind_ok hrun]
    exact ⟨fun o ho => h o (hout.subset ho), hinbox, htrace⟩
  · have hdata : ¬ IsData s.stream.localId f := fun hd => hwrte hd.2
    rw [if_neg hwrte, if_neg hdata, List.append_nil]
    split
    · exact ⟨h, rfl, rfl⟩
    split <;> exact ⟨h, rfl, rfl⟩

theorem receiveMoreTurn_exchanges :
    Prog.Steps Exchanges (receiveMoreTurn () : Action (StreamOn Dialogue) _) := by
  intro s
  have hturn : s.AllAccepted → ((receiveMoreTurn ()).run s).2.AllAccepted ∧
      Consumes s ((receiveMoreTurn ()).run s).2 := by
    intro h
    by_cases hframe : s.connection.session.closed = true ∨
        ∀ f rest, s.connection.session.inbox ≠ .frame f :: rest
    · obtain ⟨e, d, hrun, ⟨hout, htr, lost, hinbox, hlost⟩, -⟩ := run_receive_failed hframe
      have hnone : lost.flatMap (exchange s.stream.localId s.stream.remoteId) = [] := by
        rw [List.flatMap_eq_nil_iff]
        rintro (f | e | message) ha
        · exact absurd ha (hlost f)
        · rfl
        · rfl
      rw [receiveMoreTurn, Prog.run_bind_error hrun]
      refine ⟨fun o ho => h o (hout ▸ ho), lost, hinbox, ?_⟩
      rw [hnone, List.append_nil]
      exact htr
    · simp only [not_or, not_forall, Bool.not_eq_true, ne_eq, not_not] at hframe
      obtain ⟨hopen, f, rest, hd⟩ := hframe
      have hrun : (receiveMoreTurn ()).run s = (handleFrame f).run (s.afterFrame f rest) :=
        Prog.run_bind_ok (run_receive_frame hopen hd)
      obtain ⟨hacc, hinbox, htrace⟩ := handleFrame_trace (f := f) (s := s.afterFrame f rest) hopen h
      rw [hrun]
      refine ⟨hacc, [.frame f], by rw [hinbox, hd]; rfl, ?_⟩
      rw [htrace, List.flatMap_singleton, exchange]
      exact (List.append_cons _ _ _).symm
  exact ⟨receiveMoreTurn_sameStream s, fun h => (hturn h).1, fun h => (hturn h).2⟩

theorem receiveMore_exchanges :
    Prog.Steps Exchanges (receiveMore : Action (StreamOn Dialogue) Bool) :=
  Prog.Steps.loop _ (fun _ => receiveMoreTurn_exchanges) ()

section Steps

variable {σ : Type} [Channel σ] {R : StreamOn σ → StreamOn σ → Prop} [Std.Refl R]
  [IsTrans (StreamOn σ) R]

/-- What receiving a WRTE and using the buffer up do to a stream, a read does to it. -/
theorem read_steps (hset : ∀ f, UpdatesBuffer f → ∀ s : StreamOn σ, R s (s.setStream f))
    (hmore : Prog.Steps R receiveMore) (size : ℕ) : Prog.Steps R (read size) := by
  have hfill : Prog.Steps R fillBuffer := by
    refine Prog.Steps.bind Prog.Steps.get fun s => Prog.Steps.ite ?_ (Prog.Steps.pure _)
    refine Prog.Steps.bind hmore fun more => ?_
    exact Prog.Steps.ite (Prog.Steps.fail _) (Prog.Steps.pure _)
  have htake : ∀ n, Prog.Steps R (takeBuffered n) := by
    intro n
    refine Prog.Steps.bind Prog.Steps.get fun s => ?_
    exact Prog.Steps.bind (Prog.Steps.modify (hset _ fun _ => rfl)) fun _ => Prog.Steps.pure _
  refine Prog.Steps.loop _ (fun out => ?_) []
  refine Prog.Steps.ite (Prog.Steps.bind hfill fun _ => ?_) (Prog.Steps.pure _)
  exact Prog.Steps.bind (htake _) fun _ => Prog.Steps.pure _

theorem readAll_steps (hset : ∀ f, UpdatesBuffer f → ∀ s : StreamOn σ, R s (s.setStream f))
    (hmore : Prog.Steps R receiveMore) : Prog.Steps R readAll := by
  have hempty : Prog.Steps R (Prog.modify (setStream emptyBuffer) : Action (StreamOn σ) Unit) :=
    Prog.Steps.modify (hset _ fun _ => rfl)
  refine Prog.Steps.bind Prog.Steps.get fun s => Prog.Steps.bind hempty fun _ => ?_
  refine Prog.Steps.loop _ (fun output => ?_) _
  refine Prog.Steps.bind hmore fun more => Prog.Steps.ite (Prog.Steps.pure _) ?_
  exact Prog.Steps.bind Prog.Steps.get fun s => Prog.Steps.bind hempty fun _ => Prog.Steps.pure _

end Steps

theorem read_exchanges (size : ℕ) :
    Prog.Steps Exchanges (read size : Action (StreamOn Dialogue) (List Byte)) :=
  read_steps (fun _ h => setStream_exchanges h.keepsIds) receiveMore_exchanges size

theorem readAll_exchanges :
    Prog.Steps Exchanges (readAll : Action (StreamOn Dialogue) (List Byte)) :=
  readAll_steps (fun _ h => setStream_exchanges h.keepsIds) receiveMore_exchanges

end StreamOn

end Adbcpp
