import Adbcpp.Client

/-! The calls that bring their own streams. A call to the shell, to the sync service or to the
package manager opens a stream, reads and writes on it, closes it, and perhaps opens the
next one. What holds across all that is done with one stream holds across every such
call. -/

namespace Adbcpp

open Protocol Sync

variable {σ φ α ι : Type} [Channel σ]

/-- What is done on a stream is one of `B`, and what is done with a stream of its own, one of `R`. -/
structure Lifts (B : StreamOn σ → StreamOn σ → Prop) (R : Connection σ → Connection σ → Prop) : Prop where
  read : ∀ size, Prog.Steps B (StreamOn.read size)
  readAll : Prog.Steps B StreamOn.readAll
  write : ∀ data, Prog.Steps B (StreamOn.write data)
  failed : ∀ {service c e c'}, (Stream.open service).run c = (.error e, c') → R c c'
  opened : ∀ {service c stream c' s}, (Stream.open service).run c = (.ok stream, c') → B ⟨stream, c'⟩ s →
    R c s.closeNow.connection

/-- The same of a host, whose local file does not matter. -/
abbrev OnHost (R : Connection σ → Connection σ → Prop) : Host σ φ → Host σ φ → Prop := Order.Preimage Host.connection R

omit [Channel σ] in
/-- Choosing the form of a transfer is nothing to the connection. -/
theorem transferForm_onHost {R : Connection σ → Connection σ → Prop} [Std.Refl R] (b : Build)
    (compression : SyncCompression) : Prog.Steps (OnHost R) (transferForm b compression : Action (Host σ φ) _) := by
  intro host
  rw [transferForm_state]
  exact refl_of (OnHost R) host

namespace Lifts

variable {B : StreamOn σ → StreamOn σ → Prop} {R : Connection σ → Connection σ → Prop} (h : Lifts B R)
include h

theorem withStream {service : List Byte} {body : Action (StreamOn σ) α} (hbody : Prog.Steps B body) :
    Prog.Steps R (Adbcpp.withStream service body) := by
  intro c
  match hopen : (Stream.open service).run c with
  | (.error e, c') =>
    have hfailed : (Adbcpp.withStream service body).run c = (.error e, c') := Prog.run_bind_error hopen
    rw [hfailed]
    exact h.failed hopen
  | (.ok stream, c') =>
    match hrun : body.run ⟨stream, c'⟩ with
    | (r, s) =>
      have hB := hbody ⟨stream, c'⟩
      rw [hrun] at hB
      rw [withStream_eq hopen hrun]
      exact h.opened hopen hB

theorem withSyncStream {body : Action (Job σ φ) α} (hbody : Prog.Steps (Along B) body) :
    Prog.Steps (OnHost R) (Sync.withSyncStream body) := by
  intro host
  rcases hopen : (Stream.open (bytesOf "sync:")).run host.connection with ⟨e | stream, c'⟩
  · have hrun : (onConnection (Stream.open (bytesOf "sync:"))).run host = (.error e, { host with connection := c' }) := by
      rw [run_onConnection, hopen]
    rw [Sync.withSyncStream, Prog.run_bind_error hrun]
    exact h.failed hopen
  · rcases hrun : body.run ⟨⟨stream, c'⟩, host.file⟩ with ⟨r, j⟩
    have hB := hbody ⟨⟨stream, c'⟩, host.file⟩
    rw [hrun] at hB
    rw [withSyncStream_eq hopen hrun]
    exact h.opened hopen hB

variable [Std.Refl B] [IsTrans (StreamOn σ) B] [Std.Refl R] [IsTrans (Connection σ) R]

theorem stat (path : List Byte) : Prog.Steps R (Sync.stat path) := by
  refine Prog.Steps.ite (Prog.Steps.fail _) (Prog.Steps.bind Prog.Steps.get fun c => h.withStream ?_)
  refine Prog.Steps.bind (h.write _) fun _ => Prog.Steps.bind (h.read _) fun _ => ?_
  exact Prog.Steps.bind (h.read _) fun _ => Prog.Steps.bind (h.write _) fun _ => Prog.Steps.pure _

theorem list (path : List Byte) : Prog.Steps R (Sync.list path) := by
  refine Prog.Steps.ite (Prog.Steps.fail _) (Prog.Steps.bind Prog.Steps.get fun c => h.withStream ?_)
  exact listOn_steps h.read (h.write _) (h.write _)

theorem pull (b : Build) (remotePath : List Byte) (compression : SyncCompression) :
    Prog.Steps (OnHost R) (Sync.pull b remotePath compression) := by
  have hfile (limit : ℕ) (tooLarge : String) (decoder : ChunkDecoder) :
      Prog.Steps (Along B) (receiveFile limit tooLarge decoder) := receiveFile_along h.read (h.write _) limit tooLarge decoder
  refine Prog.Steps.ite (Prog.Steps.fail _) (Prog.Steps.bind (transferForm_onHost b compression) fun form => ?_)
  cases form with
  | none => exact h.withSyncStream (Prog.Steps.bind (onStream_along (h.write _)) fun _ => hfile _ _ _)
  | some codec => exact h.withSyncStream (Prog.Steps.bind (onStream_along (h.write _)) fun _ => hfile _ _ _)

theorem push (b : Build) (remotePath : List Byte) (compression : SyncCompression) :
    Prog.Steps (OnHost R) (Sync.push b remotePath compression) := by
  have hfile (encode : List Byte → Except Error (List Byte)) : Prog.Steps (Along B) (sendFile encode) :=
    sendFile_along h.read (h.write _) (fun _ => h.write _) fun _ _ _ _ _ => h.write _
  refine Prog.Steps.bind Prog.Steps.get fun host => Prog.Steps.ite (Prog.Steps.fail _) ?_
  refine Prog.Steps.bind (Prog.Steps.zoom (h.stat remotePath) fun _ _ hR => hR) fun existing => ?_
  refine Prog.Steps.bind (transferForm_onHost b compression) fun form => ?_
  cases form with
  | none => exact h.withSyncStream (Prog.Steps.bind (onStream_along (h.write _)) fun _ => hfile _)
  | some codec => exact h.withSyncStream (Prog.Steps.bind (onStream_along (h.write _)) fun _ => hfile _)

theorem run (command : List Byte) (protocol : ShellProtocol) : Prog.Steps R (Shell.run command protocol) := by
  refine Prog.Steps.bind Prog.Steps.get fun c => Prog.Steps.ite ?_ ?_
  · exact h.withStream (Prog.Steps.bind h.readAll fun _ => Prog.Steps.pure _)
  · exact h.withStream (Prog.Steps.bind h.readAll fun _ => Prog.Steps.pure _)

theorem install (b : Build) (options : List Byte) : Prog.Steps (OnHost R) (App.install b options) := by
  have hremove (path : List Byte) :
      Prog.Steps (OnHost R) (onConnection (App.removeQuietly path) : Action (Host σ LocalFile) Unit) :=
    Prog.Steps.zoom (Prog.Steps.bind (Prog.Steps.attempt (h.run _ _)) fun _ => Prog.Steps.pure _) fun _ _ hR => hR
  refine Prog.Steps.bind Prog.Steps.get fun host => Prog.Steps.ite (Prog.Steps.fail _) ?_
  refine Prog.Steps.bind (Prog.Steps.attempt (h.push b _ _)) fun pushed => ?_
  cases pushed with
  | error e => exact Prog.Steps.bind (hremove _) fun _ => Prog.Steps.fail _
  | ok _ =>
    refine Prog.Steps.bind (Prog.Steps.attempt (Prog.Steps.zoom (h.run _ _) fun _ _ hR => hR)) fun result => ?_
    refine Prog.Steps.bind (hremove _) fun _ => ?_
    cases result with
    | error e => exact Prog.Steps.fail _
    | ok result => exact Prog.Steps.pure _

end Lifts

/-! ### Clients -/

namespace Client

/-- The call brings its own streams. -/
def Call.oneShot : Call ι → Bool
  | .connect .. => false
  | .stream _ => false
  | _ => true

/-- Whatever the answers are, the client makes only calls that bring their own streams. -/
inductive OneShot : Client ι α → Prop
  | done (a : α) : OneShot (.done a)
  | call {c : Call ι} {next : Except Error c.Answer → Client ι α} : c.oneShot = true → (∀ answer, OneShot (next answer)) →
      OneShot (.call c next)

/-- The same of a program, whose stream objects stay as they are. -/
def Aside (R : Connection σ → Connection σ → Prop) (s s' : Streams ι σ) : Prop :=
  s'.objects = s.objects ∧ R s.connection s'.connection

variable {B : StreamOn σ → StreamOn σ → Prop} {R : Connection σ → Connection σ → Prop}

instance [Std.Refl R] : Std.Refl (Aside (ι := ι) R) := ⟨fun s => ⟨rfl, refl_of R s.connection⟩⟩

instance [IsTrans (Connection σ) R] : IsTrans (Streams ι σ) (Aside R) where
  trans _ _ _ h h' := ⟨h'.1.trans h.1, trans_of R h.2 h'.2⟩

omit [Channel σ] in
theorem onConnection_aside {p : Action (Connection σ) α} (hp : Prog.Steps R p) :
    Prog.Steps (Aside R) (onConnection p : Action (Streams ι σ) α) := Prog.Steps.zoom hp fun _ _ hR => ⟨rfl, hR⟩

omit [Channel σ] in
theorem lending_steps [Std.Refl R] [IsTrans (Connection σ) R] (file : φ) {p : Action (Host σ φ) α}
    (hp : Prog.Steps (OnHost R) p) : Prog.Steps R (lending file p) := by
  have hlent := Prog.Steps.bind (Prog.Steps.attempt hp) fun result : Except Error α =>
    Prog.Steps.bind Prog.Steps.get fun host : Host σ φ => Prog.Steps.pure (result, host.file)
  exact fun c => hlent ⟨c, file⟩

variable [DecidableEq ι] [Std.Refl B] [IsTrans (StreamOn σ) B] [Std.Refl R] [IsTrans (Connection σ) R]

theorem Call.perform_aside (h : Lifts B R) (b : Build) {c : Call ι} (hc : c.oneShot = true) :
    Prog.Steps (Aside R) (c.perform (σ := σ) b) := by
  cases c with
  | connect => cases hc
  | stream => cases hc
  | run command protocol => exact onConnection_aside (h.run command protocol)
  | list path => exact onConnection_aside (h.list path)
  | stat path => exact onConnection_aside (h.stat path)
  | pull remotePath compression file => exact onConnection_aside (lending_steps file (h.pull b remotePath compression))
  | push file remotePath compression => exact onConnection_aside (lending_steps file (h.push b remotePath compression))
  | install apk options => exact onConnection_aside (lending_steps apk (h.install b options))
  | uninstall package keepData =>
    exact onConnection_aside (Prog.Steps.bind (h.run _ _) fun _ => Prog.Steps.pure _)
  | launch package => exact onConnection_aside (h.run _ _)
  | close package => exact onConnection_aside (Prog.Steps.bind (h.run _ _) fun _ => Prog.Steps.pure _)
  | isRunning package => exact onConnection_aside (Prog.Steps.bind (h.run _ _) fun _ => Prog.Steps.pure _)

/-- A client of calls that bring their own streams. -/
theorem perform_aside (h : Lifts B R) (b : Build) {client : Client ι α} (hclient : client.OneShot) :
    Prog.Steps (Aside R) (client.perform (σ := σ) b) := by
  induction hclient with
  | done a => exact Prog.Steps.pure a
  | call hc _ ih => exact Prog.Steps.bind (Prog.Steps.attempt (Call.perform_aside h b hc)) ih

end Client

end Adbcpp
