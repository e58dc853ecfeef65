import Adbcpp.Calls
import Adbcpp.Handshake
import Adbcpp.Sync.Replaying

/-! Programs that use the library. A client calls it, looks at the answer, and goes on from
that; it holds stream objects by their names, and lends a transfer its local file. What
it does over one channel is what it does over another that replays the first. -/

namespace Adbcpp

open Protocol Prog Sync

namespace Client

/-- A call from whose answer a program can go on. -/
inductive Call (ι : Type)
  | connect (codecs : Codecs) (publicKey : List Byte) (signer : Option Signer) (advertiseDelayedAck : Bool)
  | stream (op : Operation ι)
  | run (command : List Byte) (protocol : ShellProtocol)
  | list (path : List Byte)
  | stat (path : List Byte)
  | pull (remotePath : List Byte) (compression : SyncCompression) (file : OutputFile)
  | push (file : LocalFile) (remotePath : List Byte) (compression : SyncCompression)
  | install (apk : LocalFile) (options : List Byte)
  | uninstall (package : List Byte) (keepData : Bool)
  | launch (package : List Byte)
  | close (package : List Byte)
  | isRunning (package : List Byte)

/-- What a call answers when it succeeds. A transfer hands its file back, however it ends. -/
def Call.Answer {ι : Type} : Call ι → Type
  | .connect .. => Unit
  | .stream _ => List Byte
  | .run .. => CommandResult
  | .list _ => List DirEntry
  | .stat _ => Option FileStat
  | .pull .. => Except Error Unit × OutputFile
  | .push .. => Except Error Unit × LocalFile
  | .install .. => Except Error App.PackageResult × LocalFile
  | .uninstall .. => App.PackageResult
  | .launch _ => CommandResult
  | .close _ => Unit
  | .isRunning _ => Bool

end Client

/-- A program that makes its next call from the answers to the ones before. -/
inductive Client (ι α : Type)
  | done (a : α)
  | call (c : Client.Call ι) (next : Except Error c.Answer → Client ι α)

namespace Client

variable {ι σ τ α : Type}

/-- A transfer with a local file that is handed back behind it. -/
def lending {φ : Type} (file : φ) (p : Action (Host σ φ) α) : Action (Connection σ) (Except Error α × φ) :=
  withFile file do
    let result ← Prog.attempt p
    let host ← Prog.get
    pure (result, host.file)

/-- A call on the connection of a client. -/
def onConnection (p : Action (Connection σ) α) : Action (Streams ι σ) α :=
  Prog.zoom Streams.connection (fun s c => { s with connection := c }) p

section Performing

variable [DecidableEq ι] [Channel σ]

def Call.perform (b : Build) : (c : Call ι) → Action (Streams ι σ) c.Answer
  | .connect codecs publicKey signer advertise =>
    onConnection (Connection.connect codecs publicKey signer advertise)
  | .stream op => Streams.exec op
  | .run command protocol => onConnection (Shell.run command protocol)
  | .list path => onConnection (Sync.list path)
  | .stat path => onConnection (Sync.stat path)
  | .pull remotePath compression file => onConnection (lending file (Sync.pull b remotePath compression))
  | .push file remotePath compression => onConnection (lending file (Sync.push b remotePath compression))
  | .install apk options => onConnection (lending apk (App.install b options))
  | .uninstall package keepData => onConnection (App.uninstall package keepData)
  | .launch package => onConnection (App.launch package)
  | .close package => onConnection (App.close package)
  | .isRunning package => onConnection (App.isRunning package)

/-- A client that has failed calls goes on from them too. -/
def perform (b : Build) : Client ι α → Action (Streams ι σ) α
  | .done a => pure a
  | .call c next => do
    let answer ← Prog.attempt (c.perform b)
    (next answer).perform b

end Performing

/-! ### Replaying a client -/

variable {T : Type} [Monoid T] {A : Replay σ τ T}

/-- The connection of a client, besides its stream objects. -/
def part : Part (Streams ι σ) (Connection σ) (ι → Option Object) where
  view := Streams.connection
  put s c := { s with connection := c }
  rest := Streams.objects
  view_put _ _ := rfl
  rest_put _ _ := rfl
  put_put _ _ _ := rfl

def replay (ι : Type) (A : Replay σ τ T) : Replay (Streams ι σ) (Streams ι τ) T :=
  (Connection.replay A).within part part

theorem onConnection_replays {p : Action (Connection σ) α} {q : Action (Connection τ) α}
    (hp : (Connection.replay A).Replays p q) : (replay ι A).Replays (onConnection p) (onConnection q) :=
  Replay.Replays.part hp

theorem lending_replays {φ : Type} (file : φ) {p : Action (Host σ φ) α} {q : Action (Host τ φ) α}
    (hp : (Host.replay A φ).Replays p q) : (Connection.replay A).Replays (lending file p) (lending file q) := by
  have hboth : (Host.replay A φ).Replays
      (Prog.attempt p >>= fun result => (Prog.get : Action (Host σ φ) _) >>= fun host => pure (result, host.file))
      (Prog.attempt q >>= fun result => (Prog.get : Action (Host τ φ) _) >>= fun host => pure (result, host.file)) := by
    refine .bind (.attempt hp) fun result => .get_bind (fun _ _ => rfl) fun host peer hR => ?_
    rw [show host.file = peer.file from hR.2]
    exact .pure _
  exact hboth.zoom (fun _ _ hR => ⟨hR, rfl⟩) (fun _ _ _ _ _ hR' => hR'.1) (fun _ _ _ _ _ hstep => hstep)
    (fun _ _ => rfl) fun _ _ _ _ => rfl

/-- A program on a stream, with what becomes of the objects behind it. -/
def onObject (stream : Stream) (keep : Stream → ι → Option Object) (p : Action (StreamOn σ) α) :
    Action (Streams ι σ) α :=
  Prog.zoom (fun s => ⟨stream, s.connection⟩) (fun _ on => ⟨on.connection, keep on.stream⟩) p

def setObjects (objects : ι → Option Object) : Action (Streams ι σ) (List Byte) := do
  Prog.modify fun s => { s with objects }
  pure []

/-- An operation where the objects are these, as a program on its stream and its objects. -/
def operate [DecidableEq ι] [Channel σ] (objects : ι → Option Object) : Operation ι → Action (Streams ι σ) (List Byte)
  | .open x service => match objects x with
    | some _ => pure []
    | none => do
      let stream ← onConnection (Stream.open service)
      setObjects (Function.update objects x (some ⟨stream, false⟩))
  | .moveConstruct x y => match objects x, objects y with
    | none, some o =>
      setObjects (Function.update (Function.update objects y (some ⟨o.stream.movedFrom, true⟩)) x (some o))
    | _, _ => pure []
  | .moveAssign x y => match objects x, objects y with
    | some target, some o =>
      if x = y then pure []
      else
        onObject target.stream
          (fun _ => Function.update (Function.update objects y (some ⟨o.stream.movedFrom, true⟩)) x (some o))
          (Prog.attempt StreamOn.closing >>= fun _ => pure [])
    | _, _ => pure []
  | .write x data => use x (StreamOn.write data >>= fun _ => pure [])
  | .read x size => use x (StreamOn.read size)
  | .readAll x => use x StreamOn.readAll
  | .destroy x => match objects x with
    | none => pure []
    | some o => onObject o.stream (fun _ => Function.update objects x none)
        (Prog.attempt StreamOn.closing >>= fun _ => pure [])
where
  use (x : ι) (p : Action (StreamOn σ) (List Byte)) : Action (Streams ι σ) (List Byte) :=
    match objects x with
    | none => pure []
    | some o => onObject o.stream (fun stream => Function.update objects x (some { o with stream })) p

/-- What closing a stream does to its connection, whether it fails or not. -/
theorem run_closing [Channel σ] (s : StreamOn σ) :
    (Prog.attempt StreamOn.closing >>= fun _ => pure [] : Action (StreamOn σ) (List Byte)).run s = (.ok [], s.closeNow) := by
  rw [Prog.run_bind_ok (Prog.run_attempt _ _), StreamOn.closeNow_eq]
  rfl

section Operations

variable [DecidableEq ι]

theorem use_eq (x : ι) (p : Action (StreamOn σ) (List Byte)) (s : Streams ι σ) :
    (Streams.use x p).run s = (operate.use s.objects x p).run s := by
  cases hx : s.objects x with
  | none =>
    simp only [operate.use, hx]
    exact Streams.run_use_none hx p
  | some o =>
    simp only [operate.use, hx]
    exact Streams.run_use hx p

variable [Channel σ]

theorem open_eq (x : ι) (service : List Byte) (s : Streams ι σ) :
    (Streams.exec (.open x service)).run s = (operate s.objects (.open x service)).run s := by
  cases hx : s.objects x with
  | some o =>
    simp only [operate, Streams.exec, Prog.run, hx]
    rfl
  | none =>
    simp only [operate, hx]
    rw [Prog.run_bind, onConnection, Prog.run_zoom]
    simp only [Streams.exec, Prog.run, hx]
    rcases Stream.open service s.connection with ⟨e | stream, c⟩ <;> rfl

theorem moveAssign_eq (x y : ι) (s : Streams ι σ) :
    (Streams.exec (.moveAssign x y)).run s = (operate s.objects (.moveAssign x y)).run s := by
  cases hx : s.objects x with
  | none =>
    simp only [operate, Streams.exec, Prog.run, hx]
    rfl
  | some target =>
    cases hy : s.objects y with
    | none =>
      simp only [operate, Streams.exec, Prog.run, hx, hy]
      rfl
    | some o =>
      simp only [operate, hx, hy]
      by_cases hxy : x = y
      · rw [if_pos hxy]
        simp only [Streams.exec, Prog.run, hx, hy, if_pos hxy]
        rfl
      · rw [if_neg hxy, onObject, Prog.run_zoom, run_closing]
        simp only [Streams.exec, Prog.run, hx, hy, if_neg hxy]
        rfl

theorem destroy_eq (x : ι) (s : Streams ι σ) :
    (Streams.exec (.destroy x)).run s = (operate s.objects (.destroy x)).run s := by
  cases hx : s.objects x with
  | none =>
    simp only [operate, Streams.exec, Prog.run, hx]
    rfl
  | some o =>
    simp only [operate, hx]
    rw [onObject, Prog.run_zoom, run_closing]
    simp only [Streams.exec, Prog.run, hx]
    rfl

theorem exec_eq (op : Operation ι) (s : Streams ι σ) : (Streams.exec op).run s = (operate s.objects op).run s := by
  cases op with
  | «open» x service => exact open_eq x service s
  | moveConstruct x y =>
    cases hx : s.objects x <;> cases hy : s.objects y <;>
      simp only [operate, Streams.exec, Prog.run, hx, hy] <;> rfl
  | moveAssign x y => exact moveAssign_eq x y s
  | write x data => exact use_eq x _ s
  | read x size => exact use_eq x _ s
  | readAll x => exact use_eq x _ s
  | destroy x => exact destroy_eq x s

end Operations

theorem onObject_replays (stream : Stream) (keep : Stream → ι → Option Object) {p : Action (StreamOn σ) α}
    {q : Action (StreamOn τ) α} (hp : (StreamOn.replay A).Replays p q) :
    (replay ι A).Replays (onObject stream keep p) (onObject stream keep q) := by
  refine hp.zoom (fun _ _ hR => ⟨hR.1, rfl⟩) ?_ (fun _ _ _ _ _ hstep => hstep) (fun _ _ => rfl) fun _ _ _ _ => rfl
  intro s t on on' _ hR'
  exact ⟨hR'.1, congrArg keep hR'.2⟩

theorem setObjects_replays (objects : ι → Option Object) :
    (replay ι A).Replays (setObjects (σ := σ) objects) (setObjects (σ := τ) objects) := by
  refine .bind (.modify (fun _ _ => rfl) fun s t hR => ?_) fun _ => .pure _
  exact ⟨(replay ι A).label_one s t, hR.1, rfl⟩

section Replaying

variable [DecidableEq ι] [Channel σ] [Channel τ] (h : Channel.Replayed A)
include h

theorem closing_replays : (StreamOn.replay A).Replays
    (Prog.attempt StreamOn.closing >>= fun _ => pure [] : Action (StreamOn σ) (List Byte))
    (Prog.attempt StreamOn.closing >>= fun _ => pure []) :=
  .bind (.attempt (StreamOn.closing_replays h)) fun _ => .pure _

omit h [Channel σ] [Channel τ] in
theorem use_replays (objects : ι → Option Object) (x : ι) {p : Action (StreamOn σ) (List Byte)}
    {q : Action (StreamOn τ) (List Byte)} (hp : (StreamOn.replay A).Replays p q) :
    (replay ι A).Replays (operate.use objects x p) (operate.use objects x q) := by
  unfold operate.use
  split
  · exact .pure _
  · exact onObject_replays _ _ hp

theorem operate_replays (objects : ι → Option Object) (op : Operation ι) :
    (replay ι A).Replays (operate (σ := σ) objects op) (operate (σ := τ) objects op) := by
  cases op with
  | «open» x service =>
    simp only [operate]
    split
    · exact .pure _
    · exact .bind (onConnection_replays (Stream.open_replays h service)) fun stream => setObjects_replays _
  | moveConstruct x y =>
    simp only [operate]
    split
    · exact setObjects_replays _
    · exact .pure _
  | moveAssign x y =>
    simp only [operate]
    split
    · exact .ite (.pure _) (onObject_replays _ _ (closing_replays h))
    · exact .pure _
  | write x data => exact use_replays objects x (.bind (StreamOn.write_replays h data) fun _ => .pure _)
  | read x size => exact use_replays objects x (StreamOn.read_replays h size)
  | readAll x => exact use_replays objects x (StreamOn.readAll_replays h)
  | destroy x =>
    simp only [operate]
    split
    · exact .pure _
    · exact onObject_replays _ _ (closing_replays h)

theorem exec_replays (op : Operation ι) :
    (replay ι A).Replays (Streams.exec (σ := σ) op) (Streams.exec (σ := τ) op) := by
  refine .of_runs fun s t hR => ⟨_, _, operate_replays h s.objects op, exec_eq op s, fun w => ?_⟩
  rw [exec_eq op, show ((replay ι A).load t w).objects = s.objects from hR.2.symm]

theorem Call.perform_replays (b : Build) (c : Call ι) :
    (replay ι A).Replays (c.perform (σ := σ) b) (c.perform (σ := τ) b) := by
  cases c with
  | connect codecs publicKey signer advertise =>
    exact onConnection_replays (Connection.connect_replays h codecs publicKey signer advertise)
  | stream op => exact exec_replays h op
  | run command protocol => exact onConnection_replays (Shell.run_replays h command protocol)
  | list path => exact onConnection_replays (Sync.list_replays h path)
  | stat path => exact onConnection_replays (Sync.stat_replays h path)
  | pull remotePath compression file =>
    exact onConnection_replays (lending_replays file (Sync.pull_replays h b remotePath compression))
  | push file remotePath compression =>
    exact onConnection_replays (lending_replays file (Sync.push_replays h b remotePath compression))
  | install apk options => exact onConnection_replays (lending_replays apk (App.install_replays h b options))
  | uninstall package keepData => exact onConnection_replays (App.uninstall_replays h package keepData)
  | launch package => exact onConnection_replays (App.launch_replays h package)
  | close package => exact onConnection_replays (App.close_replays h package)
  | isRunning package => exact onConnection_replays (App.isRunning_replays h package)

/-- A client gets the same answers over both channels, call by call. -/
theorem perform_replays (b : Build) (client : Client ι α) :
    (replay ι A).Replays (client.perform (σ := σ) b) (client.perform (σ := τ) b) := by
  induction client with
  | done a => exact .pure a
  | call c next ih => exact .bind (.attempt (c.perform_replays h b)) ih

end Replaying

end Client

end Adbcpp
