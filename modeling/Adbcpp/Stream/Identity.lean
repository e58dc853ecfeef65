import Adbcpp.Stream.Exchange

/-! What a stream keeps for as long as it lives: its local id, and all of its connection but
the session. Opening one takes a local id of the connection, and nothing else. -/

namespace Adbcpp

open Protocol

variable {σ : Type}

namespace StreamOn

/-- The local id of a stream, and its connection apart from the session, stay as they are. -/
structure SameLocal (s s' : StreamOn σ) : Prop where
  localId : s'.stream.localId = s.stream.localId
  connection : s'.connection = { s.connection with session := s'.connection.session }

instance : Std.Refl (SameLocal (σ := σ)) := ⟨fun _ => ⟨rfl, rfl⟩⟩

instance : IsTrans (StreamOn σ) SameLocal where
  trans := by
    intro s t u hst htu
    refine ⟨htu.localId.trans hst.localId, ?_⟩
    rw [htu.connection, hst.connection]

theorem SameStream.sameLocal {s s' : StreamOn σ} (h : SameStream s s') : SameLocal s s' :=
  ⟨h.localId, h.connection⟩

theorem SameLocal.nextLocalId {s s' : StreamOn σ} (h : SameLocal s s') :
    s'.connection.nextLocalId = s.connection.nextLocalId := by
  rw [h.connection]

theorem onSession_sameLocal {α : Type} (p : Action σ α) :
    Prog.Steps SameLocal (onConnection (Connection.onSession p)) := fun _ => ⟨rfl, rfl⟩

theorem setBuffer_sameLocal (f : Stream → Stream) (h : UpdatesBuffer f) (s : StreamOn σ) :
    SameLocal s (s.setStream f) := (setStream_sameStream h.keepsIds s).sameLocal

variable [Channel σ]

theorem receiveMore_sameLocal : Prog.Steps SameLocal (receiveMore : Action (StreamOn σ) Bool) := by
  refine Prog.Steps.loop _ (fun _ => ?_) ()
  exact receiveMoreTurn_sameStream.mono fun _ _ h => h.sameLocal

theorem read_sameLocal (size : ℕ) : Prog.Steps SameLocal (read size : Action (StreamOn σ) (List Byte)) :=
  read_steps setBuffer_sameLocal receiveMore_sameLocal size

theorem readAll_sameLocal : Prog.Steps SameLocal (readAll : Action (StreamOn σ) (List Byte)) :=
  readAll_steps setBuffer_sameLocal receiveMore_sameLocal

theorem write_sameLocal (data : List Byte) :
    Prog.Steps SameLocal (write data : Action (StreamOn σ) Unit) := by
  refine Prog.Steps.bind Prog.Steps.get fun s => ?_
  refine Prog.Steps.ite (Prog.Steps.fail _) ?_
  exact Prog.Steps.bind (Prog.Steps.lift _) fun message => onSession_sameLocal _

theorem closeNow_sameLocal (s : StreamOn σ) : SameLocal s s.closeNow := by
  unfold closeNow
  split
  · exact refl_of SameLocal s
  · exact ⟨rfl, rfl⟩

theorem sendOpen_sameLocal : Prog.Steps SameLocal (sendOpen : Action (StreamOn σ) Unit) := by
  have hturn : ∀ b, Prog.Steps SameLocal (awaitOpenTurn b : Action (StreamOn σ) _) := by
    intro b
    refine Prog.Steps.bind (onSession_sameLocal _) fun f => ?_
    refine Prog.Steps.bind Prog.Steps.get fun s => ?_
    refine Prog.Steps.ite (Prog.Steps.pure _) ?_
    refine Prog.Steps.ite (Prog.Steps.fail _) ?_
    exact Prog.Steps.bind (Prog.Steps.modify fun _ => ⟨rfl, rfl⟩) fun _ => Prog.Steps.pure _
  refine Prog.Steps.bind Prog.Steps.get fun s => ?_
  refine Prog.Steps.bind (Prog.Steps.lift _) fun message => ?_
  refine Prog.Steps.bind (onSession_sameLocal _) fun _ => ?_
  exact Prog.Steps.loop _ hturn ()

end StreamOn

open StreamOn

variable [Channel σ]

/-- A connection apart from its session and its next local id stays as it is. -/
def SameDevice (c c' : Connection σ) : Prop :=
  c' = { c with session := c'.session, nextLocalId := c'.nextLocalId }

omit [Channel σ] in
instance : Std.Refl (SameDevice (σ := σ)) := ⟨fun _ => rfl⟩

omit [Channel σ] in
instance : IsTrans (Connection σ) SameDevice where
  trans := by
    rintro c d e (hcd : d = _) (hde : e = _)
    show e = _
    rw [hde, hcd]

omit [Channel σ] in
theorem SameDevice.maxData {c c' : Connection σ} (h : SameDevice c c') : c'.maxData = c.maxData := by
  rw [SameDevice] at h
  rw [h]

omit [Channel σ] in
theorem SameDevice.features {c c' : Connection σ} (h : SameDevice c c') : c'.features = c.features := by
  rw [SameDevice] at h
  rw [h]

omit [Channel σ] in
theorem StreamOn.SameLocal.sameDevice {s s' : StreamOn σ} (h : SameLocal s s') :
    SameDevice s.connection s'.connection := by
  show s'.connection = _
  rw [h.connection]

/-- Opening a stream takes one local id, which the stream has if it opens. -/
theorem Stream.open_localId (service : List Byte) (c : Connection σ) :
    ((Stream.open service).run c).2 = { c with
      session := ((Stream.open service).run c).2.session, nextLocalId := c.nextLocalId + 1 } ∧
      ∀ stream, ((Stream.open service).run c).1 = .ok stream → stream.localId = c.nextLocalId := by
  have hsame := sendOpen_sameLocal
    (⟨{ service, localId := c.nextLocalId }, c.allocateLocalId.2⟩ : StreamOn σ)
  rw [Stream.run_open]
  split
  next s hrun =>
    rw [hrun] at hsame
    refine ⟨hsame.connection, ?_⟩
    rintro stream ⟨⟩
    exact hsame.localId
  next e s hrun =>
    rw [hrun] at hsame
    refine ⟨(trans_of SameLocal hsame (closeNow_sameLocal s)).connection, ?_⟩
    rintro stream ⟨⟩

theorem Stream.open_sameDevice (service : List Byte) :
    Prog.Steps SameDevice (Stream.open service : Action (Connection σ) Stream) := by
  intro c
  show ((Stream.open service).run c).2 = _
  rw [(Stream.open_localId service c).1]

theorem withStream_sameDevice {α : Type} (service : List Byte) {body : Action (StreamOn σ) α}
    (h : Prog.Steps SameLocal body) : Prog.Steps SameDevice (withStream service body) := by
  refine Prog.Steps.bind (Stream.open_sameDevice service) fun stream c => ?_
  exact (trans_of SameLocal (h ⟨stream, c⟩) (closeNow_sameLocal _)).sameDevice

end Adbcpp
