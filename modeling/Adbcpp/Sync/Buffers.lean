import Adbcpp.Library.Notes
import Adbcpp.Sync.List

/-! The buffers of the sync service. Most of what is read of a response has a size of its
own, and three things have one that the response gives: the name of an entry, the chunk
of a DATA packet, and the reason of a FAIL. A buffer of that size is allocated first,
and then read into. The services of this module note these buffers, and are the
services of the device without their notes. -/

namespace Adbcpp.Sync

open Protocol

/-- A buffer with a size from the wire. -/
inductive Buffer
  | name (size : ℕ)
  | chunk (size : ℕ)
  | reason (size : ℕ)
  deriving DecidableEq, Repr

/-- A state with the buffers allocated so far. -/
abbrev Allocating (σ : Type) := Noted σ Buffer

namespace Allocating

open Prog (unnoted note)

/-! ### The services -/

section Definitions

variable {σ φ α : Type}

/-- The stream of a transfer, with all of its buffers. -/
def on (m : Allocating (Job σ φ)) : Allocating (StreamOn σ) := ⟨m.state.on, m.notes⟩

def onStream (p : Action (Allocating (StreamOn σ)) α) : Action (Allocating (Job σ φ)) α :=
  Prog.zoom on (fun m s => ⟨{ m.state with on := s.state }, s.notes⟩) p

@[simp] theorem run_onStream (p : Action (Allocating (StreamOn σ)) α) (m : Allocating (Job σ φ)) :
    (onStream p).run m =
      ((p.run m.on).1, ⟨{ m.state with on := (p.run m.on).2.state }, (p.run m.on).2.notes⟩) := rfl

theorem onStream_unnoted_eq {p : Action (StreamOn σ) α} {m : Allocating (Job σ φ)} {r : Except Error α}
    {s : StreamOn σ} (h : p.run m.state.on = (r, s)) :
    (onStream (unnoted p)).run m = (r, ⟨{ m.state with on := s }, m.notes⟩) := by
  have hon : p.run m.on.state = (r, s) := h
  rw [run_onStream, Prog.unnoted_eq hon]
  rfl

variable [Channel σ]

def syncFail : Action (Allocating (StreamOn σ)) α := do
  let length ← unnoted (StreamOn.read 4)
  note (.reason (readU32LE length).toNat)
  let reason ← unnoted (StreamOn.read (readU32LE length).toNat)
  Prog.fail ⟨.device, bytesOf "the sync request failed: " ++ reason⟩

def readStatus : Action (Allocating (StreamOn σ)) Unit := do
  let idBytes ← unnoted (StreamOn.read 4)
  let id := readU32LE idBytes
  if id = kFail then
    syncFail
  else if id ≠ kOkay then
    Prog.fail (.of .protocol "unexpected sync response")
  else do
    let _ ← unnoted (StreamOn.read 4)

def listTurn (v2 : Bool) (entries : List DirEntry) :
    Action (Allocating (StreamOn σ)) (Turn (List DirEntry) (List DirEntry)) := do
  let idBytes ← unnoted (StreamOn.read 4)
  let id := readU32LE idBytes
  if id = kFail then
    syncFail
  else do
    let body ← unnoted (StreamOn.read (bodySize v2))
    if id = kDone then
      pure (.done entries)
    else if id ≠ dentId v2 then
      Prog.fail (.of .protocol "unexpected sync response")
    else
      let nameLength := (readU32LE (body.drop (nameLengthOffset v2))).toNat
      if nameLength > kMaxNameLength then
        Prog.fail (.of .protocol "the entry name is longer than 255 bytes")
      else do
        note (.name nameLength)
        let name ← unnoted (StreamOn.read nameLength)
        if v2 ∧ readU32LE (body.drop kErrorOffset) ≠ 0 then
          pure (.again entries)
        else
          pure (.again (entries ++ [dirEntry v2 body name]))

def receiveTurn (limit : ℕ) (tooLarge : String) (decoder : ChunkDecoder) (state : decoder.State) :
    Action (Allocating (Job σ OutputFile)) (Turn decoder.State Unit) := do
  let idBytes ← onStream (unnoted (StreamOn.read 4))
  let id := readU32LE idBytes
  if id = kFail then
    onStream syncFail
  else do
    let sizeBytes ← onStream (unnoted (StreamOn.read 4))
    let size := (readU32LE sizeBytes).toNat
    if id = kDone then
      pure (.done ())
    else if id ≠ kData then
      Prog.fail (.of .protocol "unexpected sync response")
    else if size > limit then
      Prog.fail (.of .protocol tooLarge)
    else do
      note (.chunk size)
      let chunk ← onStream (unnoted (StreamOn.read size))
      let (result, state) := (decoder.decode chunk).run state
      let decoded ← Prog.lift result
      unnoted (onFile (Prog.modify (OutputFile.write decoded)))
      let job ← unnoted Prog.get
      if job.file.bad then
        Prog.fail (.of .io "failed to write the local file")
      else
        pure (.again state)

end Definitions

/-! ### One response -/

section Turns

variable {σ φ α : Type}

theorem onStream_inStep {p : Action (Allocating (StreamOn σ)) α} {q : Action (StreamOn σ) α}
    (h : Prog.InStep Noted.Shows p q) :
    Prog.InStep Noted.Shows (onStream p : Action (Allocating (Job σ φ)) α) (Sync.onStream q) := by
  rintro m j rfl
  refine Prog.EndsAlike.zoom (h (on m) m.state.on rfl) ?_
  rintro s t rfl
  rfl

variable [Channel σ]

theorem syncFail_inStep : Prog.InStep Noted.Shows (syncFail (σ := σ) (α := α)) Sync.syncFail := by
  apply Prog.InStep.bind (Prog.InStep.unnoted _)
  intro length
  apply Prog.InStep.note_bind
  exact Prog.InStep.bind (Prog.InStep.unnoted _) fun _ => Prog.InStep.fail _

theorem readStatus_inStep : Prog.InStep Noted.Shows (readStatus (σ := σ)) Sync.readStatus := by
  apply Prog.InStep.bind (Prog.InStep.unnoted _)
  intro idBytes
  apply Prog.InStep.ite Iff.rfl syncFail_inStep
  exact Prog.InStep.ite Iff.rfl (Prog.InStep.fail _) (Prog.InStep.bind (Prog.InStep.unnoted _) fun _ => Prog.InStep.pure _)

theorem listTurn_inStep (v2 : Bool) (entries : List DirEntry) :
    Prog.InStep Noted.Shows (listTurn (σ := σ) v2 entries) (Sync.listTurn v2 entries) := by
  apply Prog.InStep.bind (Prog.InStep.unnoted _)
  intro idBytes
  apply Prog.InStep.ite Iff.rfl syncFail_inStep
  apply Prog.InStep.bind (Prog.InStep.unnoted _)
  intro body
  apply Prog.InStep.ite Iff.rfl (Prog.InStep.pure _)
  apply Prog.InStep.ite Iff.rfl (Prog.InStep.fail _)
  apply Prog.InStep.ite Iff.rfl (Prog.InStep.fail _)
  apply Prog.InStep.note_bind
  apply Prog.InStep.bind (Prog.InStep.unnoted _)
  intro name
  exact Prog.InStep.ite Iff.rfl (Prog.InStep.pure _) (Prog.InStep.pure _)

theorem receiveTurn_inStep (limit : ℕ) (tooLarge : String) (decoder : ChunkDecoder) (state : decoder.State) :
    Prog.InStep Noted.Shows (receiveTurn (σ := σ) limit tooLarge decoder state)
      (Sync.receiveTurn limit tooLarge decoder state) := by
  apply Prog.InStep.bind (onStream_inStep (Prog.InStep.unnoted _))
  intro idBytes
  apply Prog.InStep.ite Iff.rfl (onStream_inStep syncFail_inStep)
  apply Prog.InStep.bind (onStream_inStep (Prog.InStep.unnoted _))
  intro sizeBytes
  apply Prog.InStep.ite Iff.rfl (Prog.InStep.pure _)
  apply Prog.InStep.ite Iff.rfl (Prog.InStep.fail _)
  apply Prog.InStep.ite Iff.rfl (Prog.InStep.fail _)
  apply Prog.InStep.note_bind
  apply Prog.InStep.bind (onStream_inStep (Prog.InStep.unnoted _))
  intro chunk
  apply Prog.InStep.bind (Prog.InStep.lift _)
  intro decoded
  apply Prog.InStep.bind (Prog.InStep.unnoted _)
  intro _
  apply Prog.InStep.bind (Prog.InStep.unnoted _)
  intro job
  exact Prog.InStep.ite Iff.rfl (Prog.InStep.fail _) (Prog.InStep.pure _)

end Turns

/-! ### Whole services -/

section Services

variable {σ φ α : Type} [Channel σ]

def withStream (service : List Byte) (body : Action (Allocating (StreamOn σ)) α) :
    Action (Allocating (Connection σ)) α := do
  let stream ← unnoted (Stream.open service)
  fun m =>
    let (result, s) := body.run ⟨⟨stream, m.state⟩, m.notes⟩
    (result, ⟨s.state.closeNow.connection, s.notes⟩)

def onOpened (stream : Stream) (body : Action (Allocating (Job σ φ)) α) :
    Action (Allocating (Host σ φ)) α := fun m =>
  let (result, job) := body.run ⟨⟨⟨stream, m.state.connection⟩, m.state.file⟩, m.notes⟩
  (result, ⟨⟨job.state.on.closeNow.connection, job.state.file⟩, job.notes⟩)

def withSyncStream (body : Action (Allocating (Job σ φ)) α) : Action (Allocating (Host σ φ)) α := do
  let stream ← unnoted (onConnection (Stream.open (bytesOf "sync:")))
  onOpened stream body

theorem listTurn_decreases (v2 : Bool) : Prog.Decreases
    (fun _ (m : Allocating (StreamOn σ)) => m.state.buffered.length + m.state.pending) (listTurn v2) :=
  Prog.InStep.decreases (listTurn_inStep v2) (Sync.listTurn_decreases v2)

def listOn (v2 : Bool) (path : List Byte) : Action (Allocating (StreamOn σ)) (List DirEntry) := do
  unnoted (writePathRequest (if v2 then kListV2 else kListV1) path)
  let entries ← Prog.loop (listTurn_decreases v2) []
  unnoted writeQuit
  pure entries

def list (path : List Byte) : Action (Allocating (Connection σ)) (List DirEntry) :=
  if path.length > kMaxPathLength then
    Prog.fail (.of .invalidArgument "the path is longer than the sync limit of 1024 bytes")
  else do
    let connection ← unnoted Prog.get
    withStream (bytesOf "sync:") (listOn (connection.supportsFeature kLsV2Feature) path)

/-- Everything that a STAT reads has a size of its own. -/
def stat (path : List Byte) : Action (Allocating (Connection σ)) (Option FileStat) := unnoted (Sync.stat path)

theorem receiveTurn_decreases (limit : ℕ) (tooLarge : String) (decoder : ChunkDecoder) :
    Prog.Decreases (fun _ (m : Allocating (Job σ OutputFile)) => m.state.unread)
      (receiveTurn limit tooLarge decoder) :=
  Prog.InStep.decreases (receiveTurn_inStep limit tooLarge decoder) (Sync.receiveTurn_decreases limit tooLarge decoder)

def receiveFile (limit : ℕ) (tooLarge : String) (decoder : ChunkDecoder) :
    Action (Allocating (Job σ OutputFile)) Unit :=
  Prog.ensuring (fun m => ⟨{ m.state with file := m.state.file.close }, m.notes⟩) do
    unnoted (onFile (Prog.modify OutputFile.openTruncated))
    let job ← unnoted Prog.get
    if job.file.bad then
      Prog.fail (.of .io "cannot open the local file for writing")
    else do
      Prog.loop (receiveTurn_decreases limit tooLarge decoder) decoder.initial
      onStream (unnoted writeQuit)

def pullV2 (b : Build) (remotePath : List Byte) (codec : CompressionCodec) :
    Action (Allocating (Host σ OutputFile)) Unit :=
  withSyncStream do
    onStream (unnoted (writeRecvV2 remotePath (syncFlagOf codec)))
    receiveFile (kMaxCompressedChunkSize b) "the sync chunk is larger than the compression bound"
      (.ofCodec b codec)

def pullV1 (remotePath : List Byte) : Action (Allocating (Host σ OutputFile)) Unit :=
  withSyncStream do
    onStream (unnoted (writePathRequest kRecvV1 remotePath))
    receiveFile kMaxChunkSize "the sync chunk is larger than 64 KiB" .plain

def pull (b : Build) (remotePath : List Byte) (compression : SyncCompression) :
    Action (Allocating (Host σ OutputFile)) Unit :=
  if remotePath.length > kMaxPathLength then
    Prog.fail (.of .invalidArgument "the path is longer than the sync limit of 1024 bytes")
  else do
    match ← unnoted (transferForm b compression) with
    | some codec => pullV2 b remotePath codec
    | none => pullV1 remotePath

def sendFile (encode : List Byte → Except Error (List Byte)) : Action (Allocating (Job σ LocalFile)) Unit := do
  let job ← unnoted Prog.get
  if !job.file.input.opens then
    Prog.fail (.of .io "cannot open the local file")
  else do
    -- The packets are as long as the blocks of the local file.
    unnoted (Prog.loop (sendTurn_decreases encode) ())
    let job ← unnoted Prog.get
    if !job.file.input.eof then
      Prog.fail (.of .io "failed to read the local file")
    else do
      onStream (unnoted (StreamOn.write (writeU32LE kDone ++ writeU32LE job.file.mtime.toUInt64.toUInt32)))
      onStream readStatus
      onStream (unnoted writeQuit)

def pushV2 (b : Build) (destination : List Byte) (mode : UInt32) (codec : CompressionCodec) :
    Action (Allocating (Host σ LocalFile)) Unit :=
  withSyncStream do
    onStream (unnoted (writeSendV2 destination mode (syncFlagOf codec)))
    sendFile (compressChunk b codec)

def pushV1 (destination : List Byte) (mode : UInt32) : Action (Allocating (Host σ LocalFile)) Unit :=
  withSyncStream do
    onStream (unnoted (writePathRequest kSendV1 (sendSpec destination mode)))
    sendFile .ok

def push (b : Build) (remotePath : List Byte) (compression : SyncCompression) :
    Action (Allocating (Host σ LocalFile)) Unit := do
  let host ← unnoted Prog.get
  if !host.file.isRegular then
    Prog.fail (.of .invalidArgument "the local file is not a regular file")
  else do
    let existing ← unnoted (onConnection (Sync.stat remotePath))
    let destination := destinationOf remotePath existing host.file
    match ← unnoted (transferForm b compression) with
    | some codec => pushV2 b destination host.file.mode codec
    | none => pushV1 destination host.file.mode

/-! ### Without the buffers -/

theorem withStream_inStep (service : List Byte) {p : Action (Allocating (StreamOn σ)) α}
    {q : Action (StreamOn σ) α} (h : Prog.InStep Noted.Shows p q) :
    Prog.InStep Noted.Shows (withStream service p) (Adbcpp.withStream service q) := by
  apply Prog.InStep.bind (Prog.InStep.unnoted _)
  rintro stream m c rfl
  have hclose : ∀ (s : Allocating (StreamOn σ)) (t : StreamOn σ), s.Shows t →
      Noted.Shows (⟨s.state.closeNow.connection, s.notes⟩ : Allocating (Connection σ)) t.closeNow.connection := by
    rintro s t rfl
    rfl
  exact (h ⟨⟨stream, m.state⟩, m.notes⟩ ⟨stream, m.state⟩ rfl).map hclose

theorem withSyncStream_inStep {p : Action (Allocating (Job σ φ)) α} {q : Action (Job σ φ) α}
    (h : Prog.InStep Noted.Shows p q) : Prog.InStep Noted.Shows (withSyncStream p) (Sync.withSyncStream q) := by
  apply Prog.InStep.bind (Prog.InStep.unnoted _)
  rintro stream m host rfl
  have hclose : ∀ (m : Allocating (Job σ φ)) (j : Job σ φ), m.Shows j →
      Noted.Shows (⟨⟨m.state.on.closeNow.connection, m.state.file⟩, m.notes⟩ : Allocating (Host σ φ))
        ⟨j.on.closeNow.connection, j.file⟩ := by
    rintro m j rfl
    rfl
  exact (h ⟨⟨⟨stream, m.state.connection⟩, m.state.file⟩, m.notes⟩ _ rfl).map hclose

/-- A transfer, whose request has no buffers of that kind. -/
theorem request_inStep (request : Action (StreamOn σ) Unit) {p : Action (Allocating (Job σ φ)) α}
    {q : Action (Job σ φ) α} (h : Prog.InStep Noted.Shows p q) :
    Prog.InStep Noted.Shows (withSyncStream (onStream (unnoted request) >>= fun _ => p))
      (Sync.withSyncStream (Sync.onStream request >>= fun _ => q)) :=
  withSyncStream_inStep (Prog.InStep.bind (onStream_inStep (Prog.InStep.unnoted _)) fun _ => h)

theorem list_inStep (path : List Byte) : Prog.InStep Noted.Shows (list (σ := σ) path) (Sync.list path) := by
  apply Prog.InStep.ite Iff.rfl (Prog.InStep.fail _)
  apply Prog.InStep.bind (Prog.InStep.unnoted _)
  intro connection
  apply withStream_inStep
  apply Prog.InStep.bind (Prog.InStep.unnoted _)
  intro _
  apply Prog.InStep.bind (Prog.InStep.loop _ _ (listTurn_inStep _) _)
  intro entries
  exact Prog.InStep.bind (Prog.InStep.unnoted _) fun _ => Prog.InStep.pure _

theorem receiveFile_inStep (limit : ℕ) (tooLarge : String) (decoder : ChunkDecoder) :
    Prog.InStep Noted.Shows (receiveFile (σ := σ) limit tooLarge decoder) (Sync.receiveFile limit tooLarge decoder) := by
  refine Prog.InStep.ensuring ?_ ?_
  swap
  · rintro m j rfl
    rfl
  apply Prog.InStep.bind (Prog.InStep.unnoted _)
  intro _
  apply Prog.InStep.bind (Prog.InStep.unnoted _)
  intro job
  apply Prog.InStep.ite Iff.rfl (Prog.InStep.fail _)
  apply Prog.InStep.bind (Prog.InStep.loop _ _ (receiveTurn_inStep limit tooLarge decoder) _)
  intro _
  exact onStream_inStep (Prog.InStep.unnoted _)

/-- A pull is the same with and without its buffers. -/
theorem pull_inStep (b : Build) (remotePath : List Byte) (compression : SyncCompression) :
    Prog.InStep Noted.Shows (pull (σ := σ) b remotePath compression) (Sync.pull b remotePath compression) := by
  apply Prog.InStep.ite Iff.rfl (Prog.InStep.fail _)
  apply Prog.InStep.bind (Prog.InStep.unnoted _)
  intro codec
  cases codec with
  | some codec => exact request_inStep _ (receiveFile_inStep _ _ _)
  | none => exact request_inStep _ (receiveFile_inStep _ _ _)

theorem sendFile_inStep (encode : List Byte → Except Error (List Byte)) :
    Prog.InStep Noted.Shows (sendFile (σ := σ) encode) (Sync.sendFile encode) := by
  apply Prog.InStep.bind (Prog.InStep.unnoted _)
  intro job
  apply Prog.InStep.ite Iff.rfl (Prog.InStep.fail _)
  apply Prog.InStep.bind (Prog.InStep.unnoted _)
  intro _
  apply Prog.InStep.bind (Prog.InStep.unnoted _)
  intro job
  apply Prog.InStep.ite Iff.rfl (Prog.InStep.fail _)
  apply Prog.InStep.bind (onStream_inStep (Prog.InStep.unnoted _))
  intro _
  apply Prog.InStep.bind (onStream_inStep readStatus_inStep)
  intro _
  exact onStream_inStep (Prog.InStep.unnoted _)

/-- So is a push. -/
theorem push_inStep (b : Build) (remotePath : List Byte) (compression : SyncCompression) :
    Prog.InStep Noted.Shows (push (σ := σ) b remotePath compression) (Sync.push b remotePath compression) := by
  apply Prog.InStep.bind (Prog.InStep.unnoted _)
  intro host
  apply Prog.InStep.ite Iff.rfl (Prog.InStep.fail _)
  apply Prog.InStep.bind (Prog.InStep.unnoted _)
  intro existing
  apply Prog.InStep.bind (Prog.InStep.unnoted _)
  intro codec
  cases codec with
  | some codec => exact request_inStep _ (sendFile_inStep _)
  | none => exact request_inStep _ (sendFile_inStep _)

end Services

end Allocating

end Adbcpp.Sync
