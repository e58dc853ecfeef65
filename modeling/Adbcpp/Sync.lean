import Adbcpp.Compression
import Adbcpp.LocalFile
import Adbcpp.Stream

/-! The sync service: the requests a host makes on a `sync:` stream, and the
transfers built from them. A transfer has a v1 form and a v2 form, which compresses
the payloads of its DATA packets with a codec that both sides have. -/

namespace Adbcpp.Sync

open Protocol

def kRecvV1 : UInt32 := makeCommand 'R' 'E' 'C' 'V'
def kSendV1 : UInt32 := makeCommand 'S' 'E' 'N' 'D'
def kStatV2 : UInt32 := makeCommand 'S' 'T' 'A' '2'
def kStatV1 : UInt32 := makeCommand 'S' 'T' 'A' 'T'
def kData : UInt32 := makeCommand 'D' 'A' 'T' 'A'
def kDone : UInt32 := makeCommand 'D' 'O' 'N' 'E'
def kOkay : UInt32 := makeCommand 'O' 'K' 'A' 'Y'
def kFail : UInt32 := makeCommand 'F' 'A' 'I' 'L'
def kQuit : UInt32 := makeCommand 'Q' 'U' 'I' 'T'
def kRecvV2 : UInt32 := makeCommand 'R' 'C' 'V' '2'
def kSendV2 : UInt32 := makeCommand 'S' 'N' 'D' '2'

def kSyncFlagBrotli : UInt32 := 1
def kSyncFlagLz4 : UInt32 := 2
def kSyncFlagZstd : UInt32 := 4

def kSendRecvV2Feature : List Byte := bytesOf "sendrecv_v2"
def kSendRecvV2BrotliFeature : List Byte := bytesOf "sendrecv_v2_brotli"
def kSendRecvV2Lz4Feature : List Byte := bytesOf "sendrecv_v2_lz4"
def kSendRecvV2ZstdFeature : List Byte := bytesOf "sendrecv_v2_zstd"
def kStatV2Feature : List Byte := bytesOf "stat_v2"

/-- The longest path the daemon takes. -/
def kMaxPathLength : ℕ := 1024

def kStatV1BodySize : ℕ := 12
def kStatV2BodySize : ℕ := 68

def kErrorOffset : ℕ := 0
def kDentV1ModeOffset : ℕ := 0
def kDentV1SizeOffset : ℕ := 4
def kDentV1MtimeOffset : ℕ := 8
def kDentV2ModeOffset : ℕ := 20
def kDentV2SizeOffset : ℕ := 36
def kDentV2MtimeOffset : ℕ := 52

/-- The size of the blocks in which a file is read, and the cap on a chunk of a v1 transfer. -/
def kMaxChunkSize : ℕ := 64 * 1024

/-- The little-endian double word at the front of `bytes`. -/
def readU64LE (bytes : List Byte) : UInt64 :=
  (readU32LE bytes).toUInt64 ||| ((readU32LE (bytes.drop 4)).toUInt64 <<< 32)

/-! ### Requests and replies -/

/-- An id, the length of what follows, and what follows. -/
def packet (id : UInt32) (body : List Byte) : List Byte :=
  writeU32LE id ++ writeU32LE (UInt32.ofNat body.length) ++ body

section Requests

variable {σ : Type} [Channel σ]

def writePathRequest (id : UInt32) (path : List Byte) : Action (StreamOn σ) Unit :=
  StreamOn.write (packet id path)

/-- What follows a FAIL: the device's reason, unless reading it fails. -/
def syncFail {α : Type} : Action (StreamOn σ) α := do
  let length ← StreamOn.read 4
  let reason ← StreamOn.read (readU32LE length).toNat
  Prog.fail ⟨.device, bytesOf "the sync request failed: " ++ reason⟩

def writeQuit : Action (StreamOn σ) Unit := StreamOn.write (packet kQuit [])

def writeRecvV2 (path : List Byte) (flags : UInt32) : Action (StreamOn σ) Unit :=
  StreamOn.write (packet kRecvV2 path ++ writeU32LE kRecvV2 ++ writeU32LE flags)

def writeSendV2 (path : List Byte) (mode flags : UInt32) : Action (StreamOn σ) Unit :=
  StreamOn.write (packet kSendV2 path ++ writeU32LE kSendV2 ++ writeU32LE mode ++ writeU32LE flags)

/-- The device's answer to a request that it acknowledges with OKAY. -/
def readStatus : Action (StreamOn σ) Unit := do
  let idBytes ← StreamOn.read 4
  let id := readU32LE idBytes
  if id = kFail then
    syncFail
  else if id ≠ kOkay then
    Prog.fail (.of .protocol "unexpected sync response")
  else do
    -- The length of an acknowledgement is zero and is ignored.
    let _ ← StreamOn.read 4

end Requests

/-! ### Codecs -/

/-- How a transfer may be compressed. -/
inductive SyncCompression
  | auto
  | none
  | zstd
  | lz4
  | brotli
  deriving DecidableEq, Repr

/-- The codecs that are built in. -/
structure Build where
  zstd : Option (DecodeLoop.BuiltIn ZstdDecoder.loop) := .none
  lz4 : Option (DecodeLoop.BuiltIn Lz4Decoder.loop) := .none
  brotli : Option (DecodeLoop.BuiltIn BrotliDecoder.loop) := .none

def Build.hasCompression (b : Build) : Bool := b.zstd.isSome || b.lz4.isSome || b.brotli.isSome

def syncFlagOf (codec : CompressionCodec) : UInt32 :=
  if codec = .zstd then kSyncFlagZstd
  else if codec = .lz4 then kSyncFlagLz4
  else kSyncFlagBrotli

/-- The codec to use, or nothing for the v1 forms. -/
def chooseCodec {σ : Type} (b : Build) (c : Connection σ) (compression : SyncCompression) :
    Except Error (Option CompressionCodec) :=
  if compression = .none then .ok .none
  else
    let v2 := c.supportsFeature kSendRecvV2Feature
    let zstd := b.zstd.isSome && v2 && c.supportsFeature kSendRecvV2ZstdFeature
    let lz4 := b.lz4.isSome && v2 && c.supportsFeature kSendRecvV2Lz4Feature
    let brotli := b.brotli.isSome && v2 && c.supportsFeature kSendRecvV2BrotliFeature
    if compression = .zstd ∧ !zstd then
      .error (.of .invalidArgument "zstd compression is not available for this device or build")
    else if compression = .lz4 ∧ !lz4 then
      .error (.of .invalidArgument "lz4 compression is not available for this device or build")
    else if compression = .brotli ∧ !brotli then
      .error (.of .invalidArgument "brotli compression is not available for this device or build")
    else if zstd then .ok (some .zstd)
    else if lz4 then .ok (some .lz4)
    else if brotli then .ok (some .brotli)
    else .ok .none

/-- The library of a codec, where it is built in. -/
def Build.library (b : Build) : CompressionCodec → Option CodecLibrary
  | .zstd => b.zstd.map (·.library)
  | .lz4 => b.lz4.map (·.library)
  | .brotli => b.brotli.map (·.library)

/-- Compresses one DATA chunk with the chosen codec. -/
def compressChunk (b : Build) (codec : CompressionCodec) (input : List Byte) : Except Error (List Byte) :=
  match b.library codec with
  | some L => compressWith L codec input
  | .none => .error (.of .protocol "the sync codec is not built in")

/-- What the DATA packets of a transfer go through on their way to the local file. -/
structure ChunkDecoder where
  State : Type
  initial : State
  decode : List Byte → Action State (List Byte)

namespace ChunkDecoder

/-- The v1 form writes a chunk as it arrives. -/
def plain : ChunkDecoder where
  State := Unit
  initial := ()
  decode chunk := pure chunk

def notBuiltIn : ChunkDecoder where
  State := Unit
  initial := ()
  decode _ := Prog.fail (.of .protocol "the sync codec is not built in")

def ofLoop (D : DecodeLoop) : Option (DecodeLoop.BuiltIn D) → ChunkDecoder
  | some c => { State := Option c.library.State, initial := c.library.create, decode := D.decode c }
  | .none => notBuiltIn

/-- The decoder of a codec, one for the whole transfer. -/
def ofCodec (b : Build) : CompressionCodec → ChunkDecoder
  | .zstd => ofLoop ZstdDecoder.loop b.zstd
  | .lz4 => ofLoop Lz4Decoder.loop b.lz4
  | .brotli => ofLoop BrotliDecoder.loop b.brotli

end ChunkDecoder

/-- The largest bound a built codec puts on the frame of a full chunk. -/
def kMaxCompressedChunkSize (b : Build) : ℕ :=
  max (max (max 0 (b.zstd.elim 0 fun c => c.library.compressBound (.level kCompressionLevel) kMaxChunkSize))
    (b.lz4.elim 0 fun c => c.library.compressBound .unset kMaxChunkSize))
    (b.brotli.elim 0 fun c => c.library.compressBound (.quality kBrotliQuality) kMaxChunkSize)

/-! ### Transfers -/

/-- A transfer on its stream, with its local file. -/
structure Job (σ φ : Type) where
  on : StreamOn σ
  file : φ

/-- A connection, with the local file of a transfer. -/
structure Host (σ φ : Type) where
  connection : Connection σ
  file : φ

section Parts

variable {σ φ α : Type}

def onStream (p : Action (StreamOn σ) α) : Action (Job σ φ) α :=
  Prog.zoom Job.on (fun j s => { j with on := s }) p

def onFile (p : Action φ α) : Action (Job σ φ) α :=
  Prog.zoom Job.file (fun j f => { j with file := f }) p

def onConnection (p : Action (Connection σ) α) : Action (Host σ φ) α :=
  Prog.zoom Host.connection (fun h c => { h with connection := c }) p

@[simp] theorem run_onStream (p : Action (StreamOn σ) α) (j : Job σ φ) :
    (onStream p).run j = ((p.run j.on).1, { j with on := (p.run j.on).2 }) := rfl

@[simp] theorem run_onFile (p : Action φ α) (j : Job σ φ) :
    (onFile p).run j = ((p.run j.file).1, { j with file := (p.run j.file).2 }) := rfl

@[simp] theorem run_onConnection (p : Action (Connection σ) α) (h : Host σ φ) :
    (onConnection p).run h = ((p.run h.connection).1, { h with connection := (p.run h.connection).2 }) := rfl

theorem onStream_eq {p : Action (StreamOn σ) α} {j : Job σ φ} {r : Except Error α} {s : StreamOn σ}
    (h : p.run j.on = (r, s)) : (onStream p).run j = (r, ⟨s, j.file⟩) := by
  rw [run_onStream, h]

variable [Channel σ]

/-- Runs a transfer on a stream that is destroyed when it returns. -/
def onOpened (stream : Stream) (body : Action (Job σ φ) α) : Action (Host σ φ) α := fun h =>
  let (result, job) := body.run ⟨⟨stream, h.connection⟩, h.file⟩
  (result, ⟨job.on.closeNow.connection, job.file⟩)

theorem run_onOpened (stream : Stream) (body : Action (Job σ φ) α) (h : Host σ φ) :
    (onOpened stream body).run h = ((body.run ⟨⟨stream, h.connection⟩, h.file⟩).1,
      ⟨(body.run ⟨⟨stream, h.connection⟩, h.file⟩).2.on.closeNow.connection,
        (body.run ⟨⟨stream, h.connection⟩, h.file⟩).2.file⟩) := rfl

/-- Runs a transfer on a fresh `sync:` stream. -/
def withSyncStream (body : Action (Job σ φ) α) : Action (Host σ φ) α := do
  let stream ← onConnection (Stream.open (bytesOf "sync:"))
  onOpened stream body

theorem withSyncStream_eq {body : Action (Job σ φ) α} {h : Host σ φ} {stream : Stream}
    {c : Connection σ} (hopen : (Stream.open (bytesOf "sync:")).run h.connection = (.ok stream, c))
    {r : Except Error α} {j : Job σ φ} (hbody : body.run ⟨⟨stream, c⟩, h.file⟩ = (r, j)) :
    (withSyncStream body).run h = (r, ⟨j.on.closeNow.connection, j.file⟩) := by
  have hstream : (onConnection (Stream.open (bytesOf "sync:"))).run h =
      (.ok stream, { h with connection := c }) := by
    rw [run_onConnection, hopen]
  rw [withSyncStream, Prog.run_bind_ok hstream, run_onOpened, hbody]

end Parts

/-! ### Pulling -/

section Pull

variable {σ : Type} [Channel σ]

/-- One turn of the loop of a pull: one response of the device, with a cap on a DATA packet. -/
def receiveTurn (limit : ℕ) (tooLarge : String) (decoder : ChunkDecoder) (state : decoder.State) :
    Action (Job σ OutputFile) (Turn decoder.State Unit) := do
  let idBytes ← onStream (StreamOn.read 4)
  let id := readU32LE idBytes
  if id = kFail then
    onStream syncFail
  else do
    let sizeBytes ← onStream (StreamOn.read 4)
    let size := (readU32LE sizeBytes).toNat
    if id = kDone then
      pure (.done ())
    else if id ≠ kData then
      Prog.fail (.of .protocol "unexpected sync response")
    else if size > limit then
      Prog.fail (.of .protocol tooLarge)
    else do
      let chunk ← onStream (StreamOn.read size)
      let (result, state) := (decoder.decode chunk).run state
      let decoded ← Prog.lift result
      onFile (Prog.modify (OutputFile.write decoded))
      let job ← Prog.get
      if job.file.bad then
        Prog.fail (.of .io "failed to write the local file")
      else
        pure (.again state)

/-- What there is to read on the stream of a transfer. -/
def Job.unread {φ : Type} (j : Job σ φ) : ℕ := j.on.buffered.length + j.on.pending

theorem syncFail_ne_ok {α : Type} {a : α} {s s' : StreamOn σ} : syncFail.run s ≠ (.ok a, s') := by
  intro h
  obtain ⟨length, t, -, h⟩ := Prog.bind_eq_ok h
  obtain ⟨reason, u, -, h⟩ := Prog.bind_eq_ok h
  cases h

theorem receiveTurn_decreases (limit : ℕ) (tooLarge : String) (decoder : ChunkDecoder) :
    Prog.Decreases (fun _ (j : Job σ OutputFile) => j.unread) (receiveTurn limit tooLarge decoder) := by
  intro state state' j j' h
  obtain ⟨idBytes, t, hid, h⟩ := Prog.bind_eq_ok h
  obtain ⟨s₁, hs₁, rfl⟩ := Prog.zoom_eq_ok hid
  dsimp only at h
  split at h
  · obtain ⟨s, hs, -⟩ := Prog.zoom_eq_ok h
    exact absurd hs syncFail_ne_ok
  obtain ⟨sizeBytes, u, hsize, h⟩ := Prog.bind_eq_ok h
  obtain ⟨s₂, hs₂, rfl⟩ := Prog.zoom_eq_ok hsize
  dsimp only at h
  split at h
  · cases h
  split at h
  · cases h
  split at h
  · cases h
  obtain ⟨chunk, v, hchunk, h⟩ := Prog.bind_eq_ok h
  obtain ⟨s₃, hs₃, rfl⟩ := Prog.zoom_eq_ok hchunk
  dsimp only at h
  obtain ⟨decoded, w, hlift, h⟩ := Prog.bind_eq_ok h
  rw [Prog.run_lift, Prod.mk.injEq] at hlift
  obtain ⟨-, rfl⟩ := hlift
  obtain ⟨_, x, hwrite, h⟩ := Prog.bind_eq_ok h
  obtain ⟨f, -, rfl⟩ := Prog.zoom_eq_ok hwrite
  rw [Prog.run_bind_get] at h
  split at h
  · cases h
  cases h
  have h₁ := (StreamOn.read_ok hs₁).2
  have h₂ := (StreamOn.read_ok hs₂).2
  have h₃ := (StreamOn.read_ok hs₃).2
  dsimp only [Job.unread] at h₁ h₂ h₃ ⊢
  omega

/-- Receives a file: opens the local one and writes the DATA packets to it, up to DONE. -/
def receiveFile (limit : ℕ) (tooLarge : String) (decoder : ChunkDecoder) :
    Action (Job σ OutputFile) Unit :=
  Prog.ensuring (fun j => { j with file := j.file.close }) do
    onFile (Prog.modify OutputFile.openTruncated)
    let job ← Prog.get
    if job.file.bad then
      Prog.fail (.of .io "cannot open the local file for writing")
    else do
      Prog.loop (receiveTurn_decreases limit tooLarge decoder) decoder.initial
      onStream writeQuit

def pullV2 (b : Build) (remotePath : List Byte) (codec : CompressionCodec) :
    Action (Host σ OutputFile) Unit :=
  withSyncStream do
    onStream (writeRecvV2 remotePath (syncFlagOf codec))
    receiveFile (kMaxCompressedChunkSize b) "the sync chunk is larger than the compression bound"
      (.ofCodec b codec)

/-- The v1 form of a pull. -/
def pullV1 (remotePath : List Byte) : Action (Host σ OutputFile) Unit :=
  withSyncStream do
    onStream (writePathRequest kRecvV1 remotePath)
    receiveFile kMaxChunkSize "the sync chunk is larger than 64 KiB" .plain

/-- The form of a transfer: a codec for the v2 form, or nothing for the v1 form. -/
def transferForm {φ : Type} (b : Build) (compression : SyncCompression) :
    Action (Host σ φ) (Option CompressionCodec) := do
  let host ← Prog.get
  let codec ← Prog.lift (if b.hasCompression then chooseCodec b host.connection compression
    else .ok .none)
  match codec with
  | some codec => pure (some codec)
  | .none =>
    if compression = .zstd ∨ compression = .lz4 ∨ compression = .brotli then
      Prog.fail (.of .invalidArgument "compression is not available for this device or build")
    else
      pure .none

omit [Channel σ] in
/-- Choosing the form of a transfer changes nothing. -/
theorem transferForm_state {φ : Type} (b : Build) (compression : SyncCompression) (h : Host σ φ) :
    ((transferForm b compression).run h).2 = h := by
  have hsteps : Prog.Steps (fun s t : Host σ φ => t = s) (transferForm b compression) := by
    have : Std.Refl (fun s t : Host σ φ => t = s) := ⟨fun _ => rfl⟩
    have : IsTrans (Host σ φ) (fun s t => t = s) := ⟨fun _ _ _ h h' => h'.trans h⟩
    refine Prog.Steps.bind Prog.Steps.get fun host => ?_
    refine Prog.Steps.bind (Prog.Steps.lift _) fun codec => ?_
    cases codec with
    | some codec => exact Prog.Steps.pure _
    | none => exact Prog.Steps.ite (Prog.Steps.fail _) (Prog.Steps.pure _)
  exact hsteps h

def pull (b : Build) (remotePath : List Byte) (compression : SyncCompression) :
    Action (Host σ OutputFile) Unit :=
  if remotePath.length > kMaxPathLength then
    Prog.fail (.of .invalidArgument "the path is longer than the sync limit of 1024 bytes")
  else do
    match ← transferForm b compression with
    | some codec => pullV2 b remotePath codec
    | .none => pullV1 remotePath

end Pull

/-! ### Stat -/

structure FileStat where
  mode : UInt32 := 0
  size : UInt64 := 0
  mtime : Int64 := 0
  deriving DecidableEq, Repr

def FileStat.isDirectory (s : FileStat) : Bool := s.mode &&& 0o170000 == 0o040000

/-- A v2 STAT body, which reports a missing path as an error. -/
def fileStatV2 (body : List Byte) : Option FileStat :=
  if readU32LE (body.drop kErrorOffset) ≠ 0 then .none
  else some { mode := readU32LE (body.drop kDentV2ModeOffset),
              size := readU64LE (body.drop kDentV2SizeOffset),
              mtime := (readU64LE (body.drop kDentV2MtimeOffset)).toInt64 }

/-- A v1 STAT body, which reports a missing path as all zeros. -/
def fileStatV1 (body : List Byte) : Option FileStat :=
  if readU32LE (body.drop kDentV1ModeOffset) = 0 ∧ readU32LE (body.drop kDentV1SizeOffset) = 0 ∧
      readU32LE (body.drop kDentV1MtimeOffset) = 0 then .none
  else some { mode := readU32LE (body.drop kDentV1ModeOffset),
              size := (readU32LE (body.drop kDentV1SizeOffset)).toUInt64,
              mtime := (readU32LE (body.drop kDentV1MtimeOffset)).toUInt64.toInt64 }

section Push

variable {σ : Type} [Channel σ]

/-- The metadata of a path, or nothing where the device has no such path. -/
def stat (path : List Byte) : Action (Connection σ) (Option FileStat) :=
  if path.length > kMaxPathLength then
    Prog.fail (.of .invalidArgument "the path is longer than the sync limit of 1024 bytes")
  else do
    let connection ← Prog.get
    let v2 := connection.supportsFeature kStatV2Feature
    withStream (bytesOf "sync:") do
      writePathRequest (if v2 then kStatV2 else kStatV1) path
      -- The id of the response is read and not looked at.
      let _ ← StreamOn.read 4
      let body ← StreamOn.read (if v2 then kStatV2BodySize else kStatV1BodySize)
      writeQuit
      pure (if v2 then fileStatV2 body else fileStatV1 body)

/-! ### Pushing -/

/-- What the platform reports of the mode of a file: on POSIX what `stat` has found, and on Windows
whether the owner may write it. There is nothing where the call has failed. -/
inductive ModeReport
  | posix (mode : Option UInt32)
  | windows (ownerWrite : Option Bool)
  deriving DecidableEq, Repr

/-- The mode that goes with a file. -/
def localMode : ModeReport → UInt32
  | .posix none => 0o100000 ||| 0o600
  | .posix (some mode) => mode &&& 0o777
  | .windows (some true) => 0o100000 ||| 0o644
  | .windows _ => 0o100000 ||| 0o444

/-- What the platform reports of the times that are asked for, in ticks of its clocks. -/
structure TimeReport where
  /-- When the file was last written, by the file clock; nothing where the call has failed. -/
  written : Option ℤ
  fileNow : ℤ := 0
  systemNow : ℤ := 0
  /-- What a second has of the ticks. -/
  fileSecond : ℤ := 1000000000
  systemSecond : ℤ := 1000000000
  /-- The time of the C library, in seconds. -/
  time : Int64 := 0
  deriving DecidableEq, Repr

/-- The modification time that goes with a file, in seconds. Every time is cut to seconds, towards the
epoch of its clock, before the clocks are compared. -/
def localMtime (report : TimeReport) : Int64 :=
  match report.written with
  | none => report.time
  | some written =>
    let offset := report.systemNow.tdiv report.systemSecond - report.fileNow.tdiv report.fileSecond
    Int64.ofInt (written.tdiv report.fileSecond + offset)

/-- The local file of a push, with what the platform reports of it. -/
structure LocalFile where
  isRegular : Bool := true
  filename : List Byte := []
  modeReport : ModeReport
  timeReport : TimeReport
  input : InputFile

def LocalFile.mode (f : LocalFile) : UInt32 := localMode f.modeReport

def LocalFile.mtime (f : LocalFile) : Int64 := localMtime f.timeReport

/-- One turn of the loop of a push: the next block of the file, encoded as a DATA packet. -/
def sendTurn (encode : List Byte → Except Error (List Byte)) (_ : Unit) :
    Action (Job σ LocalFile) (Turn Unit Unit) := do
  let job ← Prog.get
  if job.file.input.good then do
    let bytes ← onFile (Prog.zoom LocalFile.input (fun f i => { f with input := i })
      (InputFile.read kMaxChunkSize))
    if bytes.length = 0 then
      pure (.done ())
    else do
      let payload ← Prog.lift (encode bytes)
      onStream (StreamOn.write (packet kData payload))
      pure (.again ())
  else
    pure (.done ())

theorem sendTurn_decreases (encode : List Byte → Except Error (List Byte)) : Prog.Decreases
    (fun _ (j : Job σ LocalFile) => j.file.input.remaining.length) (sendTurn encode) := by
  intro _ b j j' h
  rw [sendTurn, Prog.run_bind_get] at h
  split at h
  swap
  · cases h
  obtain ⟨bytes, t, hread, h⟩ := Prog.bind_eq_ok h
  obtain ⟨f, hf, rfl⟩ := Prog.zoom_eq_ok hread
  obtain ⟨i, hi, rfl⟩ := Prog.zoom_eq_ok hf
  have hless := InputFile.read_ok hi
  split at h
  · cases h
  obtain ⟨payload, u, hlift, h⟩ := Prog.bind_eq_ok h
  rw [Prog.run_lift, Prod.mk.injEq] at hlift
  obtain ⟨-, rfl⟩ := hlift
  obtain ⟨_, v, hwrite, h⟩ := Prog.bind_eq_ok h
  obtain ⟨s, -, rfl⟩ := Prog.zoom_eq_ok hwrite
  cases h
  dsimp only
  omega

/-- Sends a file: its blocks as DATA packets, DONE with the modification time, and then the
device's answer is awaited. -/
def sendFile (encode : List Byte → Except Error (List Byte)) : Action (Job σ LocalFile) Unit := do
  let job ← Prog.get
  if !job.file.input.opens then
    Prog.fail (.of .io "cannot open the local file")
  else do
    Prog.loop (sendTurn_decreases encode) ()
    let job ← Prog.get
    if !job.file.input.eof then
      Prog.fail (.of .io "failed to read the local file")
    else do
      onStream (StreamOn.write (writeU32LE kDone ++ writeU32LE job.file.mtime.toUInt64.toUInt32))
      onStream readStatus
      onStream writeQuit

def pushV2 (b : Build) (destination : List Byte) (mode : UInt32) (codec : CompressionCodec) :
    Action (Host σ LocalFile) Unit :=
  withSyncStream do
    onStream (writeSendV2 destination mode (syncFlagOf codec))
    sendFile (compressChunk b codec)

/-- What the v1 form puts in front of the content: the destination and the decimal mode. -/
def sendSpec (destination : List Byte) (mode : UInt32) : List Byte :=
  destination ++ bytesOf "," ++ bytesOf (toString mode.toNat)

/-- The v1 form of a push. -/
def pushV1 (destination : List Byte) (mode : UInt32) : Action (Host σ LocalFile) Unit :=
  withSyncStream do
    onStream (writePathRequest kSendV1 (sendSpec destination mode))
    sendFile .ok

/-- Where a push creates the file: inside `remotePath` when that is a directory. -/
def destinationOf (remotePath : List Byte) (existing : Option FileStat) (file : LocalFile) : List Byte :=
  if existing.any FileStat.isDirectory then remotePath ++ bytesOf "/" ++ file.filename else remotePath

def push (b : Build) (remotePath : List Byte) (compression : SyncCompression) :
    Action (Host σ LocalFile) Unit := do
  let host ← Prog.get
  if !host.file.isRegular then
    Prog.fail (.of .invalidArgument "the local file is not a regular file")
  else do
    let existing ← onConnection (stat remotePath)
    let destination := destinationOf remotePath existing host.file
    match ← transferForm b compression with
    | some codec => pushV2 b destination host.file.mode codec
    | .none => pushV1 destination host.file.mode

end Push

end Adbcpp.Sync
