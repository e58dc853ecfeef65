import Adbcpp.Connection

/-! A logical stream to a service on the device, multiplexed over a connection. A
stream buffers the rest of the last WRTE it consumed; every WRTE is acknowledged as
it is consumed, and frames for other streams are skipped. -/

namespace Adbcpp

open Protocol

/-- A message with no payload. -/
def makeEmptyMessage (command arg0 arg1 : UInt32) : Message :=
  { command, arg0, arg1, magic := Message.computeMagic command }

/-- A message carrying `payload`. -/
def makeMessage (command arg0 arg1 : UInt32) (payload : List Byte) : Except Error Message := do
  let length ← Message.dataLengthOf payload
  pure { command, arg0, arg1, dataLength := length, dataCheck := Message.computeChecksum payload,
         magic := Message.computeMagic command }

structure Stream where
  service : List Byte
  localId : UInt32
  remoteId : UInt32 := 0
  closed : Bool := false
  incoming : List Byte := []
  incomingOffset : ℕ := 0

/-- A stream together with the connection it was opened on. -/
structure StreamOn (σ : Type) where
  stream : Stream
  connection : Connection σ

namespace StreamOn

variable {σ τ : Type}

def setStream (f : Stream → Stream) (s : StreamOn σ) : StreamOn σ := { s with stream := f s.stream }

/-- An operation on the connection of the stream. -/
def onConnection {α : Type} (p : Action (Connection σ) α) : Action (StreamOn σ) α :=
  Prog.zoom StreamOn.connection (fun s c => { s with connection := c }) p

@[simp] theorem run_onConnection {α : Type} (p : Action (Connection σ) α) (s : StreamOn σ) :
    (onConnection p).run s =
      ((p.run s.connection).1, { s with connection := (p.run s.connection).2 }) := rfl

/-- The buffered bytes that no read has handed out yet. -/
def buffered (s : StreamOn σ) : List Byte := s.stream.incoming.drop s.stream.incomingOffset

def emptyBuffer (s : Stream) : Stream := { s with incoming := [], incomingOffset := 0 }

variable [Channel σ]

/-- How much there is still to read, so that a loop over reads ends. -/
def pending (s : StreamOn σ) : ℕ := Channel.pending s.connection.session

@[simp] theorem setStream_pending (f : Stream → Stream) (s : StreamOn σ) :
    (s.setStream f).pending = s.pending := rfl

/-- Sends CLSE for the stream unless it is closed; a failure is ignored. -/
def closeNow (s : StreamOn σ) : StreamOn σ :=
  if s.stream.closed then s
  else
    let message := makeEmptyMessage kClse s.stream.localId s.stream.remoteId
    ((onConnection (Connection.send message [])).run (s.setStream fun t => { t with closed := true })).2

/-! ### Opening -/

/-- One turn of waiting for the answer to an OPEN. -/
def awaitOpenTurn (_ : Unit) : Action (StreamOn σ) (Turn Unit Unit) := do
  let frame ← onConnection Connection.receive
  let s ← Prog.get
  if frame.header.arg1 ≠ s.stream.localId then
    pure (.again ())
  else if frame.header.command ≠ kOkay then
    Prog.fail (.of .protocol "failed to open the stream")
  else do
    Prog.modify (setStream fun t => { t with remoteId := frame.header.arg0 })
    pure (.done ())

/-- A turn that receives a frame and then asks for another turn leaves less to receive. -/
theorem receive_again {β : Type} {body : Frame → Action (StreamOn σ) (Turn Unit β)}
    (h : ∀ f b s s', (body f).run s = (.ok (.again b), s') → s'.pending ≤ s.pending) :
    Prog.Decreases (fun (_ : Unit) (s : StreamOn σ) => s.pending)
      fun _ => onConnection Connection.receive >>= body := by
  intro _ b s s' hrun
  obtain ⟨f, t, hrecv, hbody⟩ := Prog.bind_eq_ok hrun
  obtain ⟨c, hc, rfl⟩ := Prog.zoom_eq_ok hrecv
  have hlt := Connection.receive_pending hc
  have hle := h f b _ _ hbody
  simp only [pending] at hle ⊢
  omega

theorem awaitOpenTurn_decreases : Prog.Decreases (fun (_ : Unit) (s : StreamOn σ) => s.pending)
    awaitOpenTurn := by
  refine receive_again fun f b s s' h => ?_
  rw [Prog.run_bind_get] at h
  split at h
  · cases h
    exact Nat.le_refl _
  split at h <;> cases h

def awaitOpen : Action (StreamOn σ) Unit := Prog.loop awaitOpenTurn_decreases ()

/-- Sends OPEN with the NUL-terminated service and waits for the device's OKAY. -/
def sendOpen : Action (StreamOn σ) Unit := do
  let s ← Prog.get
  let payload := s.stream.service ++ [0]
  let sendBuffer := if s.connection.delayedAck then kInitialDelayedAckBytes else 0
  let message ← Prog.lift (makeMessage kOpen s.stream.localId sendBuffer payload)
  onConnection (Connection.send message payload)
  awaitOpen

/-! ### Reading -/

/-- What the stream does with one frame while it waits for a WRTE. -/
def handleFrame (frame : Frame) : Action (StreamOn σ) (Turn Unit Bool) := do
  let s ← Prog.get
  if frame.header.arg1 ≠ s.stream.localId then
    pure (.again ())
  else if frame.header.command = kWrte then do
    Prog.modify (setStream fun t => { t with incoming := frame.payload, incomingOffset := 0 })
    onConnection (Connection.send (makeEmptyMessage kOkay s.stream.localId s.stream.remoteId) [])
    pure (.done true)
  else if frame.header.command = kOkay then
    -- The device acknowledges a WRITE of ours.
    pure (.again ())
  else if frame.header.command = kClse then do
    Prog.modify (setStream fun t => { t with closed := true })
    pure (.done false)
  else
    Prog.fail (.of .protocol "unexpected message on the stream")

def receiveMoreTurn (_ : Unit) : Action (StreamOn σ) (Turn Unit Bool) := do
  let frame ← onConnection Connection.receive
  handleFrame frame

theorem receiveMoreTurn_decreases : Prog.Decreases (fun (_ : Unit) (s : StreamOn σ) => s.pending)
    receiveMoreTurn := by
  refine receive_again fun f b s s' h => ?_
  rw [handleFrame, Prog.run_bind_get] at h
  split at h
  · cases h
    exact Nat.le_refl _
  split at h
  · obtain ⟨_, t, -, h⟩ := Prog.bind_eq_ok h
    obtain ⟨_, u, -, h⟩ := Prog.bind_eq_ok h
    cases h
  split at h
  · cases h
    exact Nat.le_refl _
  split at h <;> cases h

/-- Receives one WRTE into the buffer and acknowledges it; false when the device closed its side. -/
def receiveMore : Action (StreamOn σ) Bool := Prog.loop receiveMoreTurn_decreases ()

/-- A turn that ends with a WRTE has put it into the buffer. -/
theorem receiveMoreTurn_true {s s' : StreamOn σ}
    (h : (receiveMoreTurn ()).run s = (.ok (.done true), s')) :
    s'.pending + s'.stream.incoming.length < s.pending ∧ s'.stream.incomingOffset = 0 := by
  obtain ⟨f, t, hrecv, h⟩ := Prog.bind_eq_ok h
  obtain ⟨c, hc, rfl⟩ := Prog.zoom_eq_ok hrecv
  have hlt := Connection.receive_pending hc
  rw [handleFrame, Prog.run_bind_get] at h
  split at h
  · cases h
  split at h
  · rw [Prog.run_bind_modify] at h
    obtain ⟨_, u, hsend, h⟩ := Prog.bind_eq_ok h
    cases h
    obtain ⟨d, hd, rfl⟩ := Prog.zoom_eq_ok hsend
    have hle := Channel.send_pending (makeEmptyMessage kOkay s.stream.localId s.stream.remoteId) [] c.session
    rw [Connection.send] at hd
    obtain ⟨e, he, rfl⟩ := Prog.zoom_eq_ok hd
    refine ⟨?_, rfl⟩
    simp only [setStream] at he
    rw [he] at hle
    dsimp only [pending, setStream] at hle ⊢
    omega
  split at h
  · cases h
  split at h <;> cases h

theorem receiveMore_true {s s' : StreamOn σ} (h : receiveMore.run s = (.ok true, s')) :
    s'.pending + s'.stream.incoming.length < s.pending ∧ s'.stream.incomingOffset = 0 := by
  refine Prog.loop_induct receiveMoreTurn_decreases (P := fun _ s r => ∀ s', r = (.ok true, s') →
    s'.pending + s'.stream.incoming.length < s.pending ∧ s'.stream.incomingOffset = 0)
    ?_ ?_ ?_ () s s' h
  · intro b b' s t r hb ih s' hr
    obtain ⟨hlt, hzero⟩ := ih s' hr
    have hdec := receiveMoreTurn_decreases _ _ _ _ hb
    dsimp only at hdec
    exact ⟨by omega, hzero⟩
  · intro b more s t hb s' hr
    cases hr
    exact receiveMoreTurn_true hb
  · intro b e s t hb s' hr
    cases hr

/-- Copies up to `size` buffered bytes out. -/
def takeBuffered (size : ℕ) : Action (StreamOn σ) (List Byte) := do
  let s ← Prog.get
  let available := s.stream.incoming.length - s.stream.incomingOffset
  let count := min available size
  Prog.modify (setStream fun t => { t with incomingOffset := t.incomingOffset + count })
  pure (s.buffered.take count)

omit [Channel σ] in
theorem run_takeBuffered (size : ℕ) (s : StreamOn σ) :
    (takeBuffered size).run s = (.ok (s.buffered.take size), s.setStream fun t => { t with
      incomingOffset := t.incomingOffset + min s.buffered.length size }) := by
  have hlen : s.buffered.length = s.stream.incoming.length - s.stream.incomingOffset :=
    List.length_drop
  rw [List.take_eq_take_min, Nat.min_comm, hlen]
  rfl

/-- Makes sure that there is a WRTE to take bytes from. -/
def fillBuffer : Action (StreamOn σ) Unit := do
  let s ← Prog.get
  if s.stream.incomingOffset ≥ s.stream.incoming.length then do
    let more ← receiveMore
    if !more then
      Prog.fail (.of .protocol "the device closed the stream")

/-- A buffer with bytes left in it is not filled again; otherwise a WRTE has been received. -/
theorem fillBuffer_ok {s s' : StreamOn σ} (h : fillBuffer.run s = (.ok (), s')) :
    (s' = s ∧ 0 < s.buffered.length) ∨ s'.buffered.length + s'.pending < s.pending := by
  rw [fillBuffer, Prog.run_bind_get] at h
  split at h
  next hge =>
    obtain ⟨more, t, hmore, h⟩ := Prog.bind_eq_ok h
    cases more with
    | false => cases h
    | true =>
      cases h
      obtain ⟨hlt, hzero⟩ := receiveMore_true hmore
      right
      rw [buffered, hzero, List.drop_zero]
      omega
  next hlt =>
    cases h
    refine .inl ⟨rfl, ?_⟩
    rw [buffered, List.length_drop]
    omega

/-- One turn of the loop of `read`, where `out` is what has been read so far. -/
def readTurn (size : ℕ) (out : List Byte) : Action (StreamOn σ) (Turn (List Byte) (List Byte)) :=
  if out.length < size then do
    fillBuffer
    let bytes ← takeBuffered (size - out.length)
    pure (.again (out ++ bytes))
  else
    pure (.done out)

theorem readTurn_decreases (size : ℕ) : Prog.Decreases
    (fun _ (s : StreamOn σ) => s.buffered.length + s.pending) (readTurn size) := by
  intro out out' s s' h
  unfold readTurn at h
  split at h
  next hlt =>
    obtain ⟨_, t, hfill, h⟩ := Prog.bind_eq_ok h
    rw [Prog.run_bind, run_takeBuffered] at h
    cases h
    simp only [setStream_pending, buffered, List.length_drop]
    dsimp only [setStream]
    rcases fillBuffer_ok hfill with ⟨rfl, hpos⟩ | hless
    · rw [buffered, List.length_drop] at hpos
      omega
    · rw [buffered, List.length_drop] at hless
      omega
  next => cases h

/-- Reads exactly `size` bytes. -/
def read (size : ℕ) : Action (StreamOn σ) (List Byte) := Prog.loop (readTurn_decreases size) []

/-- A turn of `read` moves bytes from what there is to read to the output, or ends with all of it. -/
theorem readTurn_ok {size : ℕ} {out : List Byte} {turn : Turn (List Byte) (List Byte)}
    {s s' : StreamOn σ} (hle : out.length ≤ size) (h : (readTurn size out).run s = (.ok turn, s')) :
    (∃ out', turn = .again out' ∧ out'.length ≤ size ∧
      out'.length + (s'.buffered.length + s'.pending) ≤
        out.length + (s.buffered.length + s.pending)) ∨
    (turn = .done out ∧ out.length = size ∧ s' = s) := by
  unfold readTurn at h
  split at h
  next hlt =>
    left
    obtain ⟨_, t, hfill, h⟩ := Prog.bind_eq_ok h
    rw [Prog.run_bind, run_takeBuffered] at h
    cases h
    refine ⟨_, rfl, ?_⟩
    simp only [setStream_pending, buffered, List.length_drop, List.length_append, List.length_take]
    dsimp only [setStream]
    rcases fillBuffer_ok hfill with ⟨rfl, -⟩ | hless
    · omega
    · simp only [buffered, List.length_drop] at hless
      omega
  next hge =>
    right
    cases h
    exact ⟨rfl, by omega, rfl⟩

/-- A turn of `read` that does not end it has something to read. -/
theorem readTurn_lt {size : ℕ} {out : List Byte} {r : Except Error (Turn (List Byte) (List Byte))}
    {s s' : StreamOn σ} (h : (readTurn size out).run s = (r, s')) (hr : ∀ a, r ≠ .ok (.done a)) :
    out.length < size := by
  refine Nat.lt_of_not_le fun hge => ?_
  rw [readTurn, if_neg (Nat.not_lt.mpr hge)] at h
  cases h
  exact hr out rfl

/-- The bytes that a read hands out are gone from what there is to read. -/
theorem read_ok {size : ℕ} {bytes : List Byte} {s s' : StreamOn σ}
    (h : (read size).run s = (.ok bytes, s')) : bytes.length = size ∧
      size + (s'.buffered.length + s'.pending) ≤ s.buffered.length + s.pending := by
  have hloop : ∀ out (s : StreamOn σ), ∀ bytes s', (Prog.loop (readTurn_decreases size) out).run s = (.ok bytes, s') →
      out.length ≤ size → bytes.length = size ∧
        size + (s'.buffered.length + s'.pending) ≤ out.length + (s.buffered.length + s.pending) := by
    intro out s
    refine Prog.loop_induct (readTurn_decreases size) (P := fun out (s : StreamOn σ) r =>
      ∀ bytes s', r = (.ok bytes, s') → out.length ≤ size → bytes.length = size ∧
        size + (s'.buffered.length + s'.pending) ≤ out.length + (s.buffered.length + s.pending))
      ?_ ?_ ?_ out s
    · intro out out' s t r hb ih bytes s' hr hle
      rcases readTurn_ok hle hb with ⟨o, ho, hle', hless⟩ | ⟨ho, -⟩ <;> cases ho
      obtain ⟨hlen, hless'⟩ := ih bytes s' hr hle'
      exact ⟨hlen, by omega⟩
    · intro out a s t hb bytes s' hr hle
      rcases readTurn_ok hle hb with ⟨o, ho, -⟩ | ⟨ho, hlen, rfl⟩ <;> cases ho
      cases hr
      exact ⟨hlen, by omega⟩
    · intro out e s t hb bytes s' hr
      cases hr
  obtain ⟨hlen, hless⟩ := hloop [] s bytes s' h (Nat.zero_le _)
  exact ⟨hlen, by simpa using hless⟩

/-- One turn of the loop of `readAll`, where `output` is what has been read so far. -/
def readAllTurn (output : List Byte) : Action (StreamOn σ) (Turn (List Byte) (List Byte)) := do
  let more ← receiveMore
  if !more then
    pure (.done output)
  else do
    let s ← Prog.get
    Prog.modify (setStream emptyBuffer)
    pure (.again (output ++ s.stream.incoming))

theorem readAllTurn_decreases : Prog.Decreases (fun _ (s : StreamOn σ) => s.pending) readAllTurn := by
  intro output output' s s' h
  obtain ⟨more, t, hmore, h⟩ := Prog.bind_eq_ok h
  cases more with
  | false => cases h
  | true =>
    cases h
    have hlt := (receiveMore_true hmore).1
    simp only [setStream_pending]
    omega

/-- Reads all output until the device closes the stream. -/
def readAll : Action (StreamOn σ) (List Byte) := do
  let s ← Prog.get
  -- An earlier read may have left part of a WRTE behind.
  let output := s.buffered
  Prog.modify (setStream emptyBuffer)
  Prog.loop readAllTurn_decreases output

/-! ### Writing -/

def write (data : List Byte) : Action (StreamOn σ) Unit := do
  let s ← Prog.get
  if data.length > s.connection.maxData.toNat then
    Prog.fail (.of .invalidArgument "the write is larger than the negotiated maximum payload")
  else do
    let message ← Prog.lift (makeMessage kWrte s.stream.localId s.stream.remoteId data)
    onConnection (Connection.send message data)

end StreamOn

variable {σ : Type} [Channel σ]

/-- Opens a stream to `service`. A stream object that fails to open is destroyed. -/
def Stream.open (service : List Byte) : Action (Connection σ) Stream := fun connection =>
  let (localId, connection) := connection.allocateLocalId
  match StreamOn.sendOpen.run ⟨{ service, localId }, connection⟩ with
  | (.ok (), s) => (.ok s.stream, s.connection)
  | (.error e, s) => (.error e, s.closeNow.connection)

theorem Stream.run_open (service : List Byte) (c : Connection σ) : (Stream.open service).run c =
    match StreamOn.sendOpen.run ⟨{ service, localId := c.nextLocalId }, c.allocateLocalId.2⟩ with
    | (.ok (), s) => (.ok s.stream, s.connection)
    | (.error e, s) => (.error e, s.closeNow.connection) := rfl

namespace StreamOn

/-- What waiting for the answer to an OPEN leaves alone. -/
def SameBuffer (s s' : StreamOn σ) : Prop :=
  s'.stream = { s.stream with remoteId := s'.stream.remoteId }

omit [Channel σ] in
instance : Std.Refl (SameBuffer (σ := σ)) := ⟨fun _ => rfl⟩

omit [Channel σ] in
instance : IsTrans (StreamOn σ) SameBuffer where
  trans := by
    rintro s t u (hst : t.stream = _) (htu : u.stream = _)
    show u.stream = _
    rw [htu, hst]

theorem sendOpen_sameBuffer : Prog.Steps SameBuffer (sendOpen : Action (StreamOn σ) Unit) := by
  have hturn : ∀ b, Prog.Steps SameBuffer (awaitOpenTurn b : Action (StreamOn σ) _) := by
    intro b
    refine Prog.Steps.bind (fun _ => rfl) fun f => Prog.Steps.bind Prog.Steps.get fun s => ?_
    refine Prog.Steps.ite (Prog.Steps.pure _) (Prog.Steps.ite (Prog.Steps.fail _) ?_)
    exact Prog.Steps.bind (Prog.Steps.modify fun _ => rfl) fun _ => Prog.Steps.pure _
  refine Prog.Steps.bind Prog.Steps.get fun s => Prog.Steps.bind (Prog.Steps.lift _) fun m => ?_
  exact Prog.Steps.bind (fun _ => rfl) fun _ => Prog.Steps.loop _ hturn ()

end StreamOn

/-- A stream that has just been opened has nothing in its buffer. -/
theorem Stream.open_ok {service : List Byte} {c c' : Connection σ} {stream : Stream}
    (h : (Stream.open service).run c = (.ok stream, c')) :
    StreamOn.sendOpen.run ⟨{ service, localId := c.nextLocalId }, c.allocateLocalId.2⟩ =
        (.ok (), ⟨stream, c'⟩) ∧
      stream = { service, localId := c.nextLocalId, remoteId := stream.remoteId } := by
  rw [Stream.run_open] at h
  have hsame := StreamOn.sendOpen_sameBuffer
    (⟨{ service, localId := c.nextLocalId }, c.allocateLocalId.2⟩ : StreamOn σ)
  split at h
  next s hrun =>
    cases h
    rw [hrun] at hsame
    exact ⟨hrun, hsame⟩
  next => cases h

/-- Runs `body` with a stream to `service` that is destroyed when `body` returns. -/
def withStream {α : Type} (service : List Byte) (body : Action (StreamOn σ) α) :
    Action (Connection σ) α := do
  let stream ← Stream.open service
  fun connection =>
    let (result, s) := body.run ⟨stream, connection⟩
    (result, s.closeNow.connection)

theorem withStream_eq {α : Type} {service : List Byte} {body : Action (StreamOn σ) α}
    {c c' : Connection σ} {stream : Stream} (hopen : (Stream.open service).run c = (.ok stream, c'))
    {r : Except Error α} {s : StreamOn σ} (hbody : body.run ⟨stream, c'⟩ = (r, s)) :
    (withStream service body).run c = (r, s.closeNow.connection) := by
  refine (Prog.run_bind_ok hopen).trans ?_
  show ((body.run ⟨stream, c'⟩).1, (body.run ⟨stream, c'⟩).2.closeNow.connection) = _
  rw [hbody]

end Adbcpp
