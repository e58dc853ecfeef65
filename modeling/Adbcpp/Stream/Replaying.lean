import Adbcpp.Handshake
import Adbcpp.Library.Replay
import Adbcpp.Stream

/-! Connections and streams over two channels of which one replays the other. Where every
send and every receive of the one channel is a send and a receive of the other on some
tape, so is the handshake, and so is everything that a stream does. -/

namespace Adbcpp

open Protocol Prog

variable {σ τ T : Type}

/-- The operations of a channel are replayed. -/
structure Channel.Replayed [Channel σ] [Channel τ] [Monoid T] (A : Replay σ τ T) : Prop where
  send : ∀ header payload, A.Replays (Channel.send header payload : Action σ Unit) (Channel.send header payload)
  receive : A.Replays (Channel.receive : Action σ Frame) Channel.receive

namespace Connection

/-- The session is a part of its connection. -/
def part : Part (Connection σ) σ (Connection Unit) where
  view := Connection.session
  put c s := { c with session := s }
  rest c := { c with session := () }
  view_put _ _ := rfl
  rest_put _ _ := rfl
  put_put _ _ _ := rfl

variable [Monoid T]

/-- Connections over sessions that are replayed, with the same known of the device. -/
def replay (A : Replay σ τ T) : Replay (Connection σ) (Connection τ) T := A.within part part

variable {A : Replay σ τ T}

theorem onSession_replays {α : Type} {p : Action σ α} {q : Action τ α} (h : A.Replays p q) :
    (replay A).Replays (onSession p) (onSession q) := Replay.Replays.part h

variable [Channel σ] [Channel τ] (h : Channel.Replayed A)
include h

theorem send_replays (header : Message) (payload : List Byte) :
    (replay A).Replays (send (σ := σ) header payload) (send (σ := τ) header payload) :=
  onSession_replays (h.send header payload)

theorem receive_replays : (replay A).Replays (receive (σ := σ)) (receive (σ := τ)) := onSession_replays h.receive

/-! ### The handshake -/

theorem authorize_replays (publicKey : List Byte) (frame : Frame) :
    (replay A).Replays (authorize (σ := σ) publicKey frame) (authorize (σ := τ) publicKey frame) := by
  unfold authorize sendPublicKey
  refine .ite (.bind (.bind (.modify (fun _ _ => rfl) ?_) fun _ => ?_) fun _ => receive_replays h) (.pure _)
  · intro c d hR
    exact ⟨(replay A).label_one c d, hR.1, congrArg (fun c => { c with requestedAuthorization := true }) hR.2⟩
  · exact .ite (.fail _) (.bind (.lift _) fun _ => send_replays h _ _)

theorem authenticate_replays (publicKey : List Byte) (signer : Option Signer) (frame : Frame) :
    (replay A).Replays (authenticate (σ := σ) publicKey signer frame) (authenticate (σ := τ) publicKey signer frame) := by
  unfold authenticate
  refine .ite ?_ (.pure _)
  cases signer with
  | none => exact authorize_replays h _ _
  | some sign =>
    unfold sendSignature
    refine .bind (.bind (.lift _) fun signature => .bind (.lift _) fun auth => send_replays h _ _) fun _ => ?_
    exact .bind (receive_replays h) fun frame => authorize_replays h _ _

theorem connect_replays (codecs : Codecs) (publicKey : List Byte) (signer : Option Signer)
    (advertiseDelayedAck : Bool) : (replay A).Replays (connect (σ := σ) codecs publicKey signer advertiseDelayedAck)
      (connect (σ := τ) codecs publicKey signer advertiseDelayedAck) := by
  unfold connect announce
  refine .bind (.bind (.lift _) fun length => send_replays h _ _) fun _ => ?_
  refine .bind (receive_replays h) fun first => .bind (authenticate_replays h _ _ _) fun frame => ?_
  refine .ite (.fail _) (.modify (fun _ _ => rfl) ?_)
  intro c d hR
  refine ⟨(replay A).label_one c d, hR.1, ?_⟩
  exact congrArg (fun c => { c with
    deviceVersion := frame.header.arg0
    maxData := frame.header.arg1
    features := parseFeatures frame.payload
    deviceSerial := parseSerial frame.payload
    delayedAck := advertiseDelayedAck && (parseFeatures frame.payload).contains kDelayedAckFeature }) hR.2

end Connection

namespace StreamOn

/-- The connection is what a stream shares with others. -/
def part : Part (StreamOn σ) (Connection σ) Stream where
  view := StreamOn.connection
  put s c := { s with connection := c }
  rest := StreamOn.stream
  view_put _ _ := rfl
  rest_put _ _ := rfl
  put_put _ _ _ := rfl

variable [Monoid T]

/-- The same stream over channels that are replayed. -/
def replay (A : Replay σ τ T) : Replay (StreamOn σ) (StreamOn τ) T := (Connection.replay A).within part part

variable {A : Replay σ τ T}

theorem onConnection_replays {α : Type} {p : Action (Connection σ) α} {q : Action (Connection τ) α}
    (h : (Connection.replay A).Replays p q) : (replay A).Replays (onConnection p) (onConnection q) := Replay.Replays.part h

theorem setStream_replays (f : Stream → Stream) : (replay A).Replays
    (Prog.modify (setStream f) : Action (StreamOn σ) Unit) (Prog.modify (setStream f) : Action (StreamOn τ) Unit) := by
  refine .modify (fun _ _ => rfl) ?_
  intro s t hR
  exact ⟨(replay A).label_one s t, hR.1, congrArg f hR.2⟩

/-- A program that looks at its stream object and at what is known of the device. -/
theorem get_replays {ε α : Type} {f : StreamOn σ → Prog (StreamOn σ) ε α} {g : StreamOn τ → Prog (StreamOn τ) ε α}
    (hg : ∀ t w, g ((replay A).load t w) = g t)
    (h : ∀ s t, s.stream = t.stream → Connection.part.rest s.connection = Connection.part.rest t.connection →
      (replay A).Replays (f s) (g t)) :
    (replay A).Replays ((Prog.get : Prog (StreamOn σ) ε _) >>= f) ((Prog.get : Prog (StreamOn τ) ε _) >>= g) :=
  .get_bind hg fun s t hR => h s t hR.2 hR.1.2

theorem takeBuffered_replays (size : ℕ) : (replay A).Replays (takeBuffered (σ := σ) size) (takeBuffered size) := by
  refine get_replays (fun _ _ => rfl) fun s t hstream _ => ?_
  rw [show s.buffered = t.buffered by rw [buffered, buffered, hstream], hstream]
  exact .bind (setStream_replays _) fun _ => .pure _

variable [Channel σ] [Channel τ] (h : Channel.Replayed A)
include h

theorem send_replays (header : Message) (payload : List Byte) :
    (replay A).Replays (onConnection (Connection.send (σ := σ) header payload))
      (onConnection (Connection.send (σ := τ) header payload)) :=
  onConnection_replays (Connection.send_replays h header payload)

theorem sendOpen_replays : (replay A).Replays (sendOpen (σ := σ)) (sendOpen (σ := τ)) := by
  refine get_replays (fun _ _ => rfl) fun s t hstream hrest => ?_
  rw [hstream, show s.connection.delayedAck = t.connection.delayedAck from congrArg Connection.delayedAck hrest]
  refine .bind (.lift _) fun message => .bind (send_replays h _ _) fun _ => .loop _ _ (fun _ => ?_) ()
  refine .bind (onConnection_replays (Connection.receive_replays h)) fun frame => ?_
  refine get_replays (fun _ _ => rfl) fun s t hstream _ => ?_
  rw [hstream]
  exact .ite (.pure _) (.ite (.fail _) (.bind (setStream_replays _) fun _ => .pure _))

theorem handleFrame_replays (frame : Frame) :
    (replay A).Replays (handleFrame (σ := σ) frame) (handleFrame (σ := τ) frame) := by
  refine get_replays (fun _ _ => rfl) fun s t hstream _ => ?_
  rw [hstream]
  refine .ite (.pure _) (.ite ?_ (.ite (.pure _) (.ite ?_ (.fail _))))
  · exact .bind (setStream_replays _) fun _ => .bind (send_replays h _ _) fun _ => .pure _
  · exact .bind (setStream_replays _) fun _ => .pure _

theorem receiveMore_replays : (replay A).Replays (receiveMore (σ := σ)) (receiveMore (σ := τ)) := by
  refine .loop _ _ (fun _ => ?_) ()
  exact .bind (onConnection_replays (Connection.receive_replays h)) fun frame => handleFrame_replays h frame

theorem read_replays (size : ℕ) : (replay A).Replays (read (σ := σ) size) (read (σ := τ) size) := by
  refine .loop _ _ (fun out => ?_) []
  unfold readTurn fillBuffer
  refine .ite (.bind ?_ fun _ => .bind (takeBuffered_replays _) fun _ => .pure _) (.pure _)
  refine get_replays (fun _ _ => rfl) fun s t hstream _ => ?_
  rw [hstream]
  exact .ite (.bind (receiveMore_replays h) fun more => .ite (.fail _) (.pure _)) (.pure _)

theorem readAll_replays : (replay A).Replays (readAll (σ := σ)) (readAll (σ := τ)) := by
  refine get_replays (fun _ _ => rfl) fun s t hstream _ => ?_
  rw [show s.buffered = t.buffered by rw [buffered, buffered, hstream]]
  refine .bind (setStream_replays _) fun _ => .loop _ _ (fun output => ?_) _
  refine .bind (receiveMore_replays h) fun more => .ite (.pure _) ?_
  refine get_replays (fun _ _ => rfl) fun s t hstream _ => ?_
  rw [hstream]
  exact .bind (setStream_replays _) fun _ => .pure _

theorem write_replays (data : List Byte) : (replay A).Replays (write (σ := σ) data) (write (σ := τ) data) := by
  refine get_replays (fun _ _ => rfl) fun s t hstream hrest => ?_
  rw [hstream, show s.connection.maxData = t.connection.maxData from congrArg Connection.maxData hrest]
  exact .ite (.fail _) (.bind (.lift _) fun message => send_replays h _ _)

end StreamOn

/-! ### Streams that are opened and closed -/

section Closing

variable [Channel σ]

namespace StreamOn

/-- What the destructor of a stream does, as a program. -/
def closing : Action (StreamOn σ) Unit := do
  let s ← Prog.get
  if s.stream.closed then
    pure ()
  else do
    Prog.modify (setStream fun t => { t with closed := true })
    onConnection (Connection.send (makeEmptyMessage kClse s.stream.localId s.stream.remoteId) [])

theorem closeNow_eq (s : StreamOn σ) : s.closeNow = (closing.run s).2 := by
  rw [closeNow, closing, run_bind_get]
  split <;> rfl

/-- What opening a stream does with the stream object, which it destroys if it fails. -/
def opening : Action (StreamOn σ) Stream := do
  match ← Prog.attempt sendOpen with
  | .ok () => do
    let s ← Prog.get
    pure s.stream
  | .error e => do
    let _ ← Prog.attempt closing
    Prog.fail e

end StreamOn

/-- A program on a stream object that is there for this program only. -/
def Connection.withObject {α : Type} (stream : Stream) (p : Action (StreamOn σ) α) : Action (Connection σ) α :=
  Prog.zoom (fun c => ⟨stream, c⟩) (fun _ s => s.connection) p

theorem Stream.open_eq (service : List Byte) : (Stream.open service : Action (Connection σ) Stream) = (do
    let c ← Prog.get
    Prog.modify fun c => c.allocateLocalId.2
    Connection.withObject { service, localId := c.nextLocalId } StreamOn.opening) := by
  apply Prog.ext
  intro c
  rw [Stream.run_open, run_bind_get, run_bind_modify, Connection.withObject, run_zoom, StreamOn.opening]
  rw [run_bind_ok (run_attempt _ _)]
  match StreamOn.sendOpen.run ⟨{ service, localId := c.nextLocalId }, c.allocateLocalId.2⟩ with
  | (.ok (), s) => rfl
  | (.error e, s) =>
    dsimp only
    rw [run_bind_ok (run_attempt _ _), StreamOn.closeNow_eq]
    rfl

theorem withStream_eq_withObject {α : Type} (service : List Byte) (body : Action (StreamOn σ) α) :
    withStream service body = (do
      let stream ← Stream.open service
      Connection.withObject stream (Prog.ensuring StreamOn.closeNow body)) := rfl

end Closing

section Opened

variable [Monoid T] {A : Replay σ τ T}

/-- A program on a given stream of a connection. -/
theorem Connection.withObject_replays {α : Type} {p : Action (StreamOn σ) α} {q : Action (StreamOn τ) α}
    (hp : (StreamOn.replay A).Replays p q) (stream : Stream) :
    (Connection.replay A).Replays (withObject stream p) (withObject stream q) :=
  hp.zoom (fun _ _ hR => ⟨hR, rfl⟩) (fun _ _ _ _ _ hR' => hR'.1) (fun _ _ _ _ _ hstep => hstep) (fun _ _ => rfl)
    fun _ _ _ _ => rfl

variable [Channel σ] [Channel τ] (h : Channel.Replayed A)
include h

theorem StreamOn.closing_replays : (StreamOn.replay A).Replays (closing (σ := σ)) (closing (σ := τ)) := by
  refine get_replays (fun _ _ => rfl) fun s t hstream _ => ?_
  rw [hstream]
  exact .ite (.pure _) (.bind (setStream_replays _) fun _ => send_replays h _ _)

/-- A program on a stream that is destroyed behind it. -/
theorem StreamOn.destroyed_replays {α : Type} {p : Action (StreamOn σ) α} {q : Action (StreamOn τ) α}
    (hp : (StreamOn.replay A).Replays p q) :
    (StreamOn.replay A).Replays (Prog.ensuring closeNow p) (Prog.ensuring closeNow q) :=
  .ensuring hp (closing_replays h) closeNow_eq closeNow_eq

theorem Stream.open_replays (service : List Byte) :
    (Connection.replay A).Replays (Stream.open (σ := σ) service) (Stream.open (σ := τ) service) := by
  rw [Stream.open_eq, Stream.open_eq]
  refine .get_bind (fun _ _ => rfl) fun c d hR => ?_
  rw [show c.nextLocalId = d.nextLocalId from congrArg Connection.nextLocalId hR.2]
  refine .bind (.modify (fun _ _ => rfl) ?_) fun _ => Connection.withObject_replays ?_ _
  · intro c d hR
    exact ⟨(Connection.replay A).label_one c d, hR.1,
      congrArg (fun c => { c with nextLocalId := c.nextLocalId + 1 }) hR.2⟩
  unfold StreamOn.opening
  refine .bind (.attempt (StreamOn.sendOpen_replays h)) fun result => ?_
  cases result with
  | ok a =>
    refine StreamOn.get_replays (fun _ _ => rfl) fun s t hstream _ => ?_
    rw [hstream]
    exact .pure _
  | error e => exact .bind (.attempt (StreamOn.closing_replays h)) fun _ => .fail _

theorem withStream_replays {α : Type} (service : List Byte) {p : Action (StreamOn σ) α} {q : Action (StreamOn τ) α}
    (hp : (StreamOn.replay A).Replays p q) : (Connection.replay A).Replays (withStream service p) (withStream service q) := by
  rw [withStream_eq_withObject, withStream_eq_withObject]
  exact .bind (Stream.open_replays h service) fun stream =>
    Connection.withObject_replays (StreamOn.destroyed_replays h hp) stream

end Opened

end Adbcpp
