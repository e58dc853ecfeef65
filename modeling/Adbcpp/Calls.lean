import Mathlib.Data.Set.Insert
import Adbcpp.App
import Adbcpp.Streams
import Adbcpp.Sync.Limit
import Adbcpp.Sync.List

/-! The calls of the library on one connection: the operations on stream objects, the
commands of the shell, and the transfers and requests of the sync service, each with
its own stream. A program makes them in any order. -/

namespace Adbcpp

open Protocol Sync

/-- A call of the library. A transfer is given its local file. -/
inductive LibraryCall (ι : Type)
  | stream (op : Operation ι)
  | run (command : List Byte) (protocol : ShellProtocol)
  | list (path : List Byte)
  | stat (path : List Byte)
  | pull (remotePath : List Byte) (compression : SyncCompression) (file : OutputFile)
  | push (file : LocalFile) (remotePath : List Byte) (compression : SyncCompression)
  | install (apk : LocalFile) (options : List Byte)

/-- A transfer on a connection. -/
def withFile {σ φ α : Type} (file : φ) (p : Action (Host σ φ) α) : Action (Connection σ) α :=
  Prog.zoom (fun c => ⟨c, file⟩) (fun _ host => host.connection) p

namespace Streams

variable {ι σ : Type}

/-- A call on the connection of a program, up to its value. -/
def onConnection {α : Type} (p : Action (Connection σ) α) : Action (Streams ι σ) Unit := do
  let _ ← Prog.zoom Streams.connection (fun s c => { s with connection := c }) p

end Streams

namespace LibraryCall

variable {ι σ : Type} [DecidableEq ι] [Channel σ]

/-- What a call does, up to its value. -/
def perform (b : Build) : LibraryCall ι → Action (Streams ι σ) Unit
  | .stream op => do let _ ← Streams.exec op
  | .run command protocol => Streams.onConnection (Shell.run command protocol)
  | .list path => Streams.onConnection (Sync.list path)
  | .stat path => Streams.onConnection (Sync.stat path)
  | .pull remotePath compression file =>
    Streams.onConnection (withFile file (Sync.pull b remotePath compression))
  | .push file remotePath compression =>
    Streams.onConnection (withFile file (Sync.push b remotePath compression))
  | .install apk options => Streams.onConnection (withFile apk (App.install b options))

/-- Every call of the program has `P` in the state that it meets. -/
def Every (b : Build) (P : LibraryCall ι → Streams ι σ → Prop) : List (LibraryCall ι) → Streams ι σ → Prop
  | [], _ => True
  | call :: calls, s => P call s ∧ Every b P calls ((call.perform b).run s).2

/-- The state after some calls. -/
def after (b : Build) : List (LibraryCall ι) → Streams ι σ → Streams ι σ
  | [], s => s
  | call :: calls, s => after b calls ((call.perform b).run s).2

end LibraryCall

/-! ### What a call has to send -/

/-- The sizes of the payloads of the DATA packets of a file. -/
def dataNeeds (encode : List Byte → Except Error (List Byte)) (content : List Byte) : Set ℕ :=
  { n | ∃ k frame, blockAt content k ≠ [] ∧ encode (blockAt content k) = .ok frame ∧
    n = (packet kData frame).length }

/-- The sizes of the payloads of a sync request: its OPEN, itself and the QUIT behind it. -/
def requestNeeds (request : List Byte) : Set ℕ :=
  {(bytesOf "sync:").length + 1, request.length, (packet kQuit []).length}

/-- The request of a push. -/
def sendRequest (destination : List Byte) (mode : UInt32) : Option CompressionCodec → List Byte
  | none => packet kSendV1 (sendSpec destination mode)
  | some codec => sendV2Request destination mode codec

/-- The request of a pull. -/
def recvRequest (remotePath : List Byte) : Option CompressionCodec → List Byte
  | none => packet kRecvV1 remotePath
  | some codec => packet kRecvV2 remotePath ++ writeU32LE kRecvV2 ++ writeU32LE (syncFlagOf codec)

section Needs

variable {σ : Type}

/-- The form of a transfer on a connection. -/
def formOf (b : Build) (compression : SyncCompression) (c : Connection σ) :
    Except Error (Option CompressionCodec) :=
  ((transferForm b compression).run (⟨c, ()⟩ : Host σ Unit)).1

def pullNeeds (b : Build) (remotePath : List Byte) (compression : SyncCompression) (c : Connection σ) : Set ℕ :=
  if remotePath.length > kMaxPathLength then ∅
  else match formOf b compression c with
    | .error _ => ∅
    | .ok form => requestNeeds (recvRequest remotePath form)

/-- A request for a path, unless the path is longer than the daemon takes. -/
def pathNeeds (id : UInt32) (path : List Byte) : Set ℕ :=
  if path.length > kMaxPathLength then ∅ else requestNeeds (packet id path)

def statNeeds (path : List Byte) (c : Connection σ) : Set ℕ :=
  pathNeeds (if c.supportsFeature kStatV2Feature then kStatV2 else kStatV1) path

def listNeeds (path : List Byte) (c : Connection σ) : Set ℕ :=
  pathNeeds (if c.supportsFeature kLsV2Feature then kListV2 else kListV1) path

def runNeeds (command : List Byte) (protocol : ShellProtocol) (c : Connection σ) : Set ℕ :=
  {(Shell.serviceOf (Shell.usesV2 c protocol) command).length + 1}

variable [Channel σ]

/-- A push asks for the metadata of its path first, and sends the file to where that says. -/
def pushNeeds (b : Build) (file : LocalFile) (remotePath : List Byte) (compression : SyncCompression)
    (c : Connection σ) : Set ℕ :=
  if !file.isRegular then ∅
  else statNeeds remotePath c ∪ match ((stat remotePath).run c).1, formOf b compression c with
    | .ok existing, .ok form =>
      requestNeeds (sendRequest (destinationOf remotePath existing file) file.mode form) ∪
        if file.input.opens then dataNeeds (encodingOf b form) file.input.remaining else ∅
    | _, _ => ∅

def installNeeds (b : Build) (apk : LocalFile) (options : List Byte) (c : Connection σ) : Set ℕ :=
  let remote := App.remoteOf apk.filename
  if !apk.isRegular then ∅
  else if remote.length > kMaxPathLength then runNeeds (App.removeCommand remote) .auto c
  else pushNeeds b apk remote .auto c ∪ runNeeds (App.installCommand options remote) .auto c ∪
    runNeeds (App.removeCommand remote) .auto c

/-- The sizes of the payloads that a call has to send. -/
def LibraryCall.needs {ι : Type} (b : Build) (s : Streams ι σ) : LibraryCall ι → Set ℕ
  | .stream (.open x service) => if (s.objects x).isSome then ∅ else {service.length + 1}
  | .stream (.write x data) => if (s.objects x).isSome then {data.length} else ∅
  | .stream _ => ∅
  | .run command protocol => runNeeds command protocol s.connection
  | .list path => listNeeds path s.connection
  | .stat path => statNeeds path s.connection
  | .pull remotePath compression _ => pullNeeds b remotePath compression s.connection
  | .push file remotePath compression => pushNeeds b file remotePath compression s.connection
  | .install apk options => installNeeds b apk options s.connection

end Needs

end Adbcpp
