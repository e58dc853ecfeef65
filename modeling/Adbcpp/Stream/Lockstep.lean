import Adbcpp.Stream

/-! The same stream operations over two channels. Where the two channels answer sends
and receives alike, so do the streams over them; the relation between the channels may
depend on the local id of the stream. -/

namespace Adbcpp

variable {σ τ : Type}

namespace StreamOn

/-- The same stream over channels that `R` relates for its local id. -/
def On (R : UInt32 → σ → τ → Prop) (s : StreamOn σ) (t : StreamOn τ) : Prop :=
  t.stream = s.stream ∧ Connection.Over (R s.stream.localId) s.connection t.connection

variable {R : UInt32 → σ → τ → Prop} {α : Type}

theorem onConnection_endsAlike {p : Action (Connection σ) α} {q : Action (Connection τ) α}
    {s : StreamOn σ} {t : StreamOn τ} (hstream : t.stream = s.stream)
    (h : Prog.EndsAlike (Connection.Over (R s.stream.localId)) (p.run s.connection) (q.run t.connection)) :
    Prog.EndsAlike (On R) ((onConnection p).run s) ((onConnection q).run t) :=
  Prog.EndsAlike.zoom h fun _ _ hR => ⟨hstream, hR⟩

theorem onConnection_inStep {p : Action (Connection σ) α} {q : Action (Connection τ) α}
    (h : ∀ localId, Prog.InStep (Connection.Over (R localId)) p q) :
    Prog.InStep (On R) (onConnection p) (onConnection q) :=
  fun _ _ hR => onConnection_endsAlike hR.1 (h _ _ _ hR.2)

theorem setStream_inStep {f : Stream → Stream} (hf : ∀ t, (f t).localId = t.localId) :
    Prog.InStep (On R) (Prog.modify (setStream f) : Action (StreamOn σ) Unit)
      (Prog.modify (setStream f) : Action (StreamOn τ) Unit) := by
  apply Prog.InStep.modify
  rintro s t ⟨hstream, hover⟩
  refine ⟨congrArg f hstream, ?_⟩
  simpa only [setStream, hf] using hover

theorem takeBuffered_inStep (size : ℕ) :
    Prog.InStep (On R) (takeBuffered size) (takeBuffered size) := by
  refine Prog.InStep.get_bind fun s t hR => ?_
  rw [show t.buffered = s.buffered by rw [buffered, buffered, hR.1], hR.1]
  exact Prog.InStep.bind (setStream_inStep fun _ => rfl) fun _ => Prog.InStep.pure _

variable [Channel σ] [Channel τ]

section Reading
variable (hmore : Prog.InStep (On R) (receiveMore (σ := σ)) (receiveMore (σ := τ)))
include hmore

theorem fillBuffer_inStep : Prog.InStep (On R) (fillBuffer (σ := σ)) (fillBuffer (σ := τ)) := by
  refine Prog.InStep.get_bind fun s t hR => ?_
  rw [hR.1]
  refine Prog.InStep.ite Iff.rfl (Prog.InStep.bind hmore fun more => ?_) (Prog.InStep.pure _)
  exact Prog.InStep.ite Iff.rfl (Prog.InStep.fail _) (Prog.InStep.pure _)

theorem read_inStep (size : ℕ) :
    Prog.InStep (On R) (read (σ := σ) size) (read (σ := τ) size) := by
  refine Prog.InStep.loop _ _ (fun out => ?_) []
  unfold readTurn
  refine Prog.InStep.ite Iff.rfl ?_ (Prog.InStep.pure _)
  refine Prog.InStep.bind (fillBuffer_inStep hmore) fun _ => ?_
  exact Prog.InStep.bind (takeBuffered_inStep _) fun _ => Prog.InStep.pure _

theorem readAll_inStep : Prog.InStep (On R) (readAll (σ := σ)) (readAll (σ := τ)) := by
  refine Prog.InStep.get_bind fun s t hR => ?_
  rw [show t.buffered = s.buffered by rw [buffered, buffered, hR.1]]
  refine Prog.InStep.bind (setStream_inStep fun _ => rfl) fun _ => ?_
  refine Prog.InStep.loop _ _ (fun output => ?_) _
  refine Prog.InStep.bind hmore fun more => Prog.InStep.ite Iff.rfl (Prog.InStep.pure _) ?_
  refine Prog.InStep.get_bind fun s t hR => ?_
  rw [hR.1]
  exact Prog.InStep.bind (setStream_inStep fun _ => rfl) fun _ => Prog.InStep.pure _

end Reading

section Sending
variable (hsend : ∀ localId header payload, Prog.InStep (R localId)
  (Channel.send header payload : Action σ Unit) (Channel.send header payload))
include hsend

theorem send_inStep (header : Protocol.Message) (payload : List Byte) :
    Prog.InStep (On R) (onConnection (Connection.send (σ := σ) header payload))
      (onConnection (Connection.send (σ := τ) header payload)) :=
  onConnection_inStep fun localId => Connection.onSession_inStep (hsend localId header payload)

theorem handleFrame_inStep (frame : Frame) :
    Prog.InStep (On R) (handleFrame (σ := σ) frame) (handleFrame (σ := τ) frame) := by
  refine Prog.InStep.get_bind fun s t hR => ?_
  rw [hR.1]
  refine Prog.InStep.ite Iff.rfl (Prog.InStep.pure _) (Prog.InStep.ite Iff.rfl ?_ ?_)
  · refine Prog.InStep.bind (setStream_inStep fun _ => rfl) fun _ => ?_
    exact Prog.InStep.bind (send_inStep hsend _ _) fun _ => Prog.InStep.pure _
  · refine Prog.InStep.ite Iff.rfl (Prog.InStep.pure _) (Prog.InStep.ite Iff.rfl ?_ (Prog.InStep.fail _))
    exact Prog.InStep.bind (setStream_inStep fun _ => rfl) fun _ => Prog.InStep.pure _

end Sending

end StreamOn

end Adbcpp
