import Adbcpp.App
import Adbcpp.Stream.Replaying
import Adbcpp.Sync.List

/-! The commands of the shell, the requests and transfers of the sync service, and the
calls for applications, over two channels of which one replays the other. A local file
is met alike on both sides, as it is no part of the tape. -/

namespace Adbcpp

open Protocol Prog

variable {σ τ T φ : Type} [Monoid T] {A : Replay σ τ T}

/-! ### Commands -/

namespace Shell

variable [Channel σ] [Channel τ] (h : Channel.Replayed A)
include h

theorem run_replays (command : List Byte) (protocol : ShellProtocol) :
    (Connection.replay A).Replays (run (σ := σ) command protocol) (run (σ := τ) command protocol) := by
  refine .get_bind (fun _ _ => rfl) fun c d hR => ?_
  have hfeatures : c.features = d.features := congrArg Connection.features hR.2
  rw [show usesV2 c protocol = usesV2 d protocol by
    rw [usesV2, usesV2, Connection.supportsFeature, Connection.supportsFeature, hfeatures]]
  unfold runV1 runV2
  refine .ite (withStream_replays h _ ?_) (withStream_replays h _ ?_)
  · exact .bind (StreamOn.readAll_replays h) fun raw => .pure _
  · exact .bind (StreamOn.readAll_replays h) fun raw => .pure _

end Shell

namespace Sync

/-! ### Requests -/

section Requests

variable [Channel σ] [Channel τ] (h : Channel.Replayed A)
include h

theorem syncFail_replays {α : Type} :
    (StreamOn.replay A).Replays (syncFail (σ := σ) (α := α)) (syncFail (σ := τ) (α := α)) :=
  .bind (StreamOn.read_replays h _) fun _ => .bind (StreamOn.read_replays h _) fun _ => .fail _

theorem readStatus_replays : (StreamOn.replay A).Replays (readStatus (σ := σ)) (readStatus (σ := τ)) := by
  unfold readStatus
  refine .bind (StreamOn.read_replays h _) fun idBytes => .ite (syncFail_replays h) (.ite (.fail _) ?_)
  exact .bind (StreamOn.read_replays h _) fun _ => .pure _

theorem listTurn_replays (v2 : Bool) (entries : List DirEntry) :
    (StreamOn.replay A).Replays (listTurn (σ := σ) v2 entries) (listTurn (σ := τ) v2 entries) := by
  unfold listTurn
  refine .bind (StreamOn.read_replays h _) fun idBytes => .ite (syncFail_replays h) ?_
  refine .bind (StreamOn.read_replays h _) fun body => .ite (.pure _) (.ite (.fail _) (.ite (.fail _) ?_))
  exact .bind (StreamOn.read_replays h _) fun name => .ite (.pure _) (.pure _)

theorem list_replays (path : List Byte) :
    (Connection.replay A).Replays (list (σ := σ) path) (list (σ := τ) path) := by
  unfold list
  refine .ite (.fail _) (.get_bind (fun _ _ => rfl) fun c d hR => ?_)
  have hfeatures : c.features = d.features := congrArg Connection.features hR.2
  rw [Connection.supportsFeature, Connection.supportsFeature, hfeatures]
  refine withStream_replays h _ ?_
  unfold listOn
  refine .bind (StreamOn.write_replays h _) fun _ => .bind (.loop _ _ (listTurn_replays h _) _) fun entries => ?_
  exact .bind (StreamOn.write_replays h _) fun _ => .pure _

theorem stat_replays (path : List Byte) :
    (Connection.replay A).Replays (stat (σ := σ) path) (stat (σ := τ) path) := by
  unfold stat
  refine .ite (.fail _) (.get_bind (fun _ _ => rfl) fun c d hR => ?_)
  have hfeatures : c.features = d.features := congrArg Connection.features hR.2
  rw [Connection.supportsFeature, Connection.supportsFeature, hfeatures]
  refine withStream_replays h _ (.bind (StreamOn.write_replays h _) fun _ => ?_)
  refine .bind (StreamOn.read_replays h _) fun _ => .bind (StreamOn.read_replays h _) fun body => ?_
  exact .bind (StreamOn.write_replays h _) fun _ => .pure _

end Requests

/-! ### Transfers -/

/-- The stream of a transfer, besides its file. -/
def Job.part : Part (Job σ φ) (StreamOn σ) φ where
  view := Job.on
  put j s := { j with on := s }
  rest := Job.file
  view_put _ _ := rfl
  rest_put _ _ := rfl
  put_put _ _ _ := rfl

/-- The connection of a transfer, besides its file. -/
def Host.part : Part (Host σ φ) (Connection σ) φ where
  view := Host.connection
  put host c := { host with connection := c }
  rest := Host.file
  view_put _ _ := rfl
  rest_put _ _ := rfl
  put_put _ _ _ := rfl

def Job.replay (A : Replay σ τ T) (φ : Type) : Replay (Job σ φ) (Job τ φ) T := (StreamOn.replay A).within part part

def Host.replay (A : Replay σ τ T) (φ : Type) : Replay (Host σ φ) (Host τ φ) T :=
  (Connection.replay A).within part part

theorem onStream_replays {α : Type} {p : Action (StreamOn σ) α} {q : Action (StreamOn τ) α}
    (hp : (StreamOn.replay A).Replays p q) :
    (Job.replay A φ).Replays (onStream p) (onStream q) := Replay.Replays.part hp

theorem onConnection_replays {α : Type} {p : Action (Connection σ) α} {q : Action (Connection τ) α}
    (hp : (Connection.replay A).Replays p q) :
    (Host.replay A φ).Replays (onConnection p) (onConnection q) := Replay.Replays.part hp

/-- A program that looks at its local file, at its stream object and at what is known of the device. -/
theorem Job.get_replays {ε α : Type} {f : Job σ φ → Prog (Job σ φ) ε α} {g : Job τ φ → Prog (Job τ φ) ε α}
    (hg : ∀ k w, g ((Job.replay A φ).load k w) = g k)
    (h : ∀ j k, j.file = k.file → (Job.replay A φ).Replays (f j) (g k)) :
    (Job.replay A φ).Replays ((Prog.get : Prog (Job σ φ) ε _) >>= f) ((Prog.get : Prog (Job τ φ) ε _) >>= g) :=
  .get_bind hg fun j k hR => h j k hR.2

/-- What is done with the local file is done alike on both sides. -/
theorem onFile_replays {α : Type} (p : Action φ α) :
    (Job.replay A φ).Replays (onFile (σ := σ) p) (onFile (σ := τ) p) := by
  refine .of_idle fun j k hR => ?_
  have hfile : j.file = k.file := hR.2
  refine ⟨{ k with file := (p.run k.file).2 }, (Job.replay A φ).label_one j k, ⟨hR.1, ?_⟩, fun more => ?_⟩
  · show (p.run j.file).2 = (p.run k.file).2
    rw [hfile]
  · rw [run_onFile, run_onFile, hfile]
    rfl

/-- The local file is closed behind a transfer. -/
theorem closingFile_replays {α : Type} {close : φ → φ} {p : Action (Job σ φ) α} {q : Action (Job τ φ) α}
    (hp : (Job.replay A φ).Replays p q) :
    (Job.replay A φ).Replays (Prog.ensuring (fun j => { j with file := close j.file }) p)
      (Prog.ensuring (fun j => { j with file := close j.file }) q) :=
  .ensuring hp (c := onFile (Prog.modify close)) (d := onFile (Prog.modify close)) (onFile_replays _)
    (fun _ => rfl) (fun _ => rfl)

theorem transferForm_replays (b : Build) (compression : SyncCompression) : (Host.replay A φ).Replays
    (transferForm (σ := σ) b compression) (transferForm (σ := τ) b compression) := by
  refine .get_bind (fun _ _ => rfl) fun host peer hR => ?_
  have hfeatures : host.connection.features = peer.connection.features :=
    congrArg Connection.features hR.1.2
  have hcodec : chooseCodec b host.connection compression = chooseCodec b peer.connection compression := by
    unfold chooseCodec Connection.supportsFeature
    rw [hfeatures]
  rw [hcodec]
  refine .bind (.lift _) fun codec => ?_
  cases codec with
  | some codec => exact .pure _
  | none => exact .ite (.fail _) (.pure _)

/-- A transfer on a given stream of a connection. -/
def Host.withObject {α : Type} (stream : Stream) (p : Action (Job σ φ) α) : Action (Host σ φ) α :=
  Prog.zoom (fun host => ⟨⟨stream, host.connection⟩, host.file⟩) (fun _ j => ⟨j.on.connection, j.file⟩) p

theorem Host.withObject_replays {α : Type} {p : Action (Job σ φ) α} {q : Action (Job τ φ) α}
    (hp : (Job.replay A φ).Replays p q) (stream : Stream) :
    (Host.replay A φ).Replays (withObject stream p) (withObject stream q) :=
  hp.zoom (fun _ _ hR => ⟨⟨hR.1, rfl⟩, hR.2⟩) (fun _ _ _ _ _ hR' => ⟨hR'.1.1, hR'.2⟩) (fun _ _ _ _ _ hstep => hstep)
    (fun _ _ => rfl) fun _ _ _ _ => rfl

section Transfers

variable [Channel σ] [Channel τ] (h : Channel.Replayed A)
include h

theorem onOpened_replays {α : Type} {p : Action (Job σ φ) α} {q : Action (Job τ φ) α}
    (hp : (Job.replay A φ).Replays p q) (stream : Stream) :
    (Host.replay A φ).Replays (onOpened stream p) (onOpened stream q) := by
  have hdestroyed : (Job.replay A φ).Replays
      (Prog.ensuring (fun j => { j with on := j.on.closeNow }) p)
      (Prog.ensuring (fun k => { k with on := k.on.closeNow }) q) :=
    .ensuring hp (onStream_replays (StreamOn.closing_replays h))
      (fun j => by rw [run_onStream, StreamOn.closeNow_eq]) (fun k => by rw [run_onStream, StreamOn.closeNow_eq])
  exact Host.withObject_replays hdestroyed stream

theorem withSyncStream_replays {α : Type} {p : Action (Job σ φ) α} {q : Action (Job τ φ) α}
    (hp : (Job.replay A φ).Replays p q) :
    (Host.replay A φ).Replays (withSyncStream p) (withSyncStream q) :=
  .bind (onConnection_replays (Stream.open_replays h _)) fun stream => onOpened_replays h hp stream

/-! ### Pulling -/

theorem receiveTurn_replays (limit : ℕ) (tooLarge : String) (decoder : ChunkDecoder) (state : decoder.State) :
    (Job.replay A OutputFile).Replays (receiveTurn (σ := σ) limit tooLarge decoder state)
      (receiveTurn (σ := τ) limit tooLarge decoder state) := by
  unfold receiveTurn
  refine .bind (onStream_replays (StreamOn.read_replays h _)) fun idBytes => ?_
  refine .ite (onStream_replays (syncFail_replays h)) ?_
  refine .bind (onStream_replays (StreamOn.read_replays h _)) fun sizeBytes => ?_
  refine .ite (.pure _) (.ite (.fail _) (.ite (.fail _) ?_))
  refine .bind (onStream_replays (StreamOn.read_replays h _)) fun chunk => ?_
  refine .bind (.lift _) fun decoded => .bind (onFile_replays _) fun _ => ?_
  refine Job.get_replays (fun _ _ => rfl) fun j k hfile => ?_
  rw [hfile]
  exact .ite (.fail _) (.pure _)

theorem receiveFile_replays (limit : ℕ) (tooLarge : String) (decoder : ChunkDecoder) :
    (Job.replay A OutputFile).Replays (receiveFile (σ := σ) limit tooLarge decoder)
      (receiveFile (σ := τ) limit tooLarge decoder) := by
  refine closingFile_replays (.bind (onFile_replays _) fun _ => ?_)
  refine Job.get_replays (fun _ _ => rfl) fun j k hfile => ?_
  rw [hfile]
  refine .ite (.fail _) (.bind (.loop _ _ (receiveTurn_replays h limit tooLarge decoder) _) fun _ => ?_)
  exact onStream_replays (StreamOn.write_replays h _)

theorem pull_replays (b : Build) (remotePath : List Byte) (compression : SyncCompression) :
    (Host.replay A OutputFile).Replays (pull (σ := σ) b remotePath compression)
      (pull (σ := τ) b remotePath compression) := by
  unfold pull
  refine .ite (.fail _) (.bind (transferForm_replays b compression) fun codec => ?_)
  cases codec with
  | some codec =>
    exact withSyncStream_replays h (.bind (onStream_replays (StreamOn.write_replays h _)) fun _ =>
      receiveFile_replays h _ _ _)
  | none =>
    exact withSyncStream_replays h (.bind (onStream_replays (StreamOn.write_replays h _)) fun _ =>
      receiveFile_replays h _ _ _)

/-! ### Pushing -/

theorem sendTurn_replays (encode : List Byte → Except Error (List Byte)) (u : Unit) :
    (Job.replay A LocalFile).Replays (sendTurn (σ := σ) encode u) (sendTurn (σ := τ) encode u) := by
  refine Job.get_replays (fun _ _ => rfl) fun j k hfile => ?_
  rw [hfile]
  refine .ite (.bind (onFile_replays _) fun bytes => .ite (.pure _) ?_) (.pure _)
  exact .bind (.lift _) fun payload => .bind (onStream_replays (StreamOn.write_replays h _)) fun _ => .pure _

theorem sendFile_replays (encode : List Byte → Except Error (List Byte)) :
    (Job.replay A LocalFile).Replays (sendFile (σ := σ) encode) (sendFile (σ := τ) encode) := by
  refine Job.get_replays (fun _ _ => rfl) fun j k hfile => ?_
  rw [hfile]
  refine .ite (.fail _) (.bind (.loop _ _ (sendTurn_replays h encode) _) fun _ => ?_)
  refine Job.get_replays (fun _ _ => rfl) fun j k hfile => ?_
  rw [hfile]
  refine .ite (.fail _) (.bind (onStream_replays (StreamOn.write_replays h _)) fun _ => ?_)
  exact .bind (onStream_replays (readStatus_replays h)) fun _ => onStream_replays (StreamOn.write_replays h _)

theorem push_replays (b : Build) (remotePath : List Byte) (compression : SyncCompression) :
    (Host.replay A LocalFile).Replays (push (σ := σ) b remotePath compression)
      (push (σ := τ) b remotePath compression) := by
  refine .get_bind (fun _ _ => rfl) fun host peer hR => ?_
  rw [show host.file = peer.file from hR.2]
  refine .ite (.fail _) (.bind (onConnection_replays (stat_replays h _)) fun existing => ?_)
  refine .bind (transferForm_replays b compression) fun codec => ?_
  cases codec with
  | some codec =>
    exact withSyncStream_replays h (.bind (onStream_replays (StreamOn.write_replays h _)) fun _ =>
      sendFile_replays h _)
  | none =>
    exact withSyncStream_replays h (.bind (onStream_replays (StreamOn.write_replays h _)) fun _ =>
      sendFile_replays h _)

end Transfers

end Sync

/-! ### Applications -/

namespace App

open Sync

variable [Channel σ] [Channel τ] (h : Channel.Replayed A)
include h

theorem removeQuietly_replays (path : List Byte) :
    (Connection.replay A).Replays (removeQuietly (σ := σ) path) (removeQuietly (σ := τ) path) :=
  .bind (.attempt (Shell.run_replays h _ _)) fun _ => .pure _

theorem install_replays (b : Build) (options : List Byte) :
    (Host.replay A LocalFile).Replays (install (σ := σ) b options) (install (σ := τ) b options) := by
  refine .get_bind (fun _ _ => rfl) fun host peer hR => ?_
  rw [show host.file = peer.file from hR.2]
  refine .ite (.fail _) (.bind (.attempt (push_replays h b _ _)) fun pushed => ?_)
  cases pushed with
  | error e => exact .bind (onConnection_replays (removeQuietly_replays h _)) fun _ => .fail _
  | ok =>
    refine .bind (.attempt (onConnection_replays (Shell.run_replays h _ _))) fun result => ?_
    refine .bind (onConnection_replays (removeQuietly_replays h _)) fun _ => ?_
    cases result with
    | error e => exact .fail _
    | ok result => exact .pure _

theorem uninstall_replays (package : List Byte) (keepData : Bool) :
    (Connection.replay A).Replays (uninstall (σ := σ) package keepData) (uninstall (σ := τ) package keepData) :=
  .bind (Shell.run_replays h _ _) fun _ => .pure _

theorem launch_replays (package : List Byte) :
    (Connection.replay A).Replays (launch (σ := σ) package) (launch (σ := τ) package) := Shell.run_replays h _ _

theorem close_replays (package : List Byte) :
    (Connection.replay A).Replays (close (σ := σ) package) (close (σ := τ) package) :=
  .bind (Shell.run_replays h _ _) fun _ => .pure _

theorem isRunning_replays (package : List Byte) :
    (Connection.replay A).Replays (isRunning (σ := σ) package) (isRunning (σ := τ) package) :=
  .bind (Shell.run_replays h _ _) fun _ => .pure _

end App

end Adbcpp
