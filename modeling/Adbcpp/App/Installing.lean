import Adbcpp.App.Quoting
import Adbcpp.Sync.Creating

/-! Which file an installation installs. The commands name the path that the APK is meant to be
pushed to, and the push goes there, unless the device says that there is a directory: then it
goes on to a path inside of it. -/

namespace Adbcpp

open Protocol Dialogue StreamOn

namespace App

/-! ### Commands and the paths in them -/

theorem flatMap_quoteCharacter_injective {text text' : List Byte}
    (h : text.flatMap quoteCharacter = text'.flatMap quoteCharacter) : text = text' := by
  induction text generalizing text' with
  | nil =>
    cases text' with
    | nil => rfl
    | cons c text' =>
      rw [List.flatMap_cons, quoteCharacter] at h
      split at h <;> cases h
  | cons c text ih =>
    cases text' with
    | nil =>
      rw [List.flatMap_cons, quoteCharacter] at h
      split at h <;> cases h
    | cons c' text' =>
      rw [List.flatMap_cons, List.flatMap_cons, quoteCharacter, quoteCharacter] at h
      split at h
      next hquote =>
        split at h
        next hquote' =>
          rw [hquote, hquote', ih (List.append_cancel_left h)]
        next hplain => exact absurd (List.cons.inj h).1.symm hplain
      next hplain =>
        split at h
        next hquote' => exact absurd (List.cons.inj h).1 hplain
        next => rw [(List.cons.inj h).1, ih (List.cons.inj h).2]

theorem shellQuote_injective {text text' : List Byte} (h : shellQuote text = shellQuote text') : text = text' := by
  rw [shellQuote_eq, shellQuote_eq] at h
  exact flatMap_quoteCharacter_injective (List.append_cancel_right (List.cons.inj h).2)

theorem length_shellQuote_le (text : List Byte) : (shellQuote text).length ≤ 4 * text.length + 2 := by
  have hbody : (text.flatMap quoteCharacter).length ≤ 4 * text.length := by
    induction text with
    | nil => simp
    | cons c text ih =>
      have hcharacter : (quoteCharacter c).length ≤ 4 := by
        unfold quoteCharacter
        split
        · exact le_refl 4
        · simp
      rw [List.flatMap_cons, List.length_append, List.length_cons]
      omega
  rw [shellQuote_eq, List.length_cons, List.length_append, List.length_singleton]
  omega

/-- The commands of an installation that names the path. -/
inductive Command (options path : List Byte) : List Byte → Prop
  | installs : Command options path (installCommand options path)
  | removes : Command options path (removeCommand path)

/-- A command names one path only. -/
theorem Command.path_unique {options path path' command : List Byte} (h : Command options path command)
    (h' : Command options path' command) : path = path' := by
  cases h with
  | installs =>
    generalize hcommand : installCommand options path = command at h'
    cases h' with
    | installs => exact shellQuote_injective (List.append_cancel_left hcommand)
    | removes => exact absurd (List.cons.inj hcommand).1 (by decide)
  | removes =>
    generalize hcommand : removeCommand path = command at h'
    cases h' with
    | installs => exact absurd (List.cons.inj hcommand).1 (by decide)
    | removes => exact shellQuote_injective (List.append_cancel_left hcommand)

/-- A shell service is told from its command. -/
theorem serviceOf_injective {v2 v2' : Bool} {command command' : List Byte}
    (h : Shell.serviceOf v2 command ++ [0] = Shell.serviceOf v2' command' ++ [0]) : command = command' := by
  have hservice := List.append_cancel_right h
  have hfront : (Shell.serviceOf v2 command).take 6 = (Shell.serviceOf v2' command').take 6 :=
    congrArg (List.take 6) hservice
  have hne : bytesOf "shell," ≠ bytesOf "shell:" := by decide
  cases v2 with
  | true =>
    cases v2' with
    | true => exact List.append_cancel_left hservice
    | false => exact absurd hfront hne
  | false =>
    cases v2' with
    | true => exact absurd hfront.symm hne
    | false => exact List.append_cancel_left hservice

theorem serviceOf_ne_sync (v2 : Bool) (command : List Byte) :
    Shell.serviceOf v2 command ++ [0] ≠ bytesOf "sync:" ++ [0] := by
  intro h
  have hfront := congrArg (List.take 2) h
  cases v2 with
  | true => exact absurd hfront (show bytesOf "sh" ≠ bytesOf "sy" by decide)
  | false => exact absurd hfront (show bytesOf "sh" ≠ bytesOf "sy" by decide)

/-! ### Running a command -/

theorem run_onlyAsks {S : List Byte → Prop} (command : List Byte) (protocol : ShellProtocol)
    (hS : ∀ v2, S (Shell.serviceOf v2 command ++ [0])) :
    Prog.Steps (OnlyAsks Connection.session S) (Shell.run command protocol) := by
  refine Prog.Steps.bind Prog.Steps.get fun c => Prog.Steps.ite ?_ ?_
  · exact withStream_onlyAsks (hS false) (Prog.Steps.bind readAll_onlyAsks fun _ => Prog.Steps.pure _)
  · exact withStream_onlyAsks (hS true) (Prog.Steps.bind readAll_onlyAsks fun _ => Prog.Steps.pure _)

theorem readAll_onlyWrites {P : List Byte → Prop} : Prog.Steps (OnlyWrites StreamOn.session P) readAll :=
  onlyWrites_of_quiet (readAll_steps (fun _ h => setStream_quiet h.keepsIds) receiveMore_quiet)

theorem run_onlyWrites {P : List Byte → Prop} (command : List Byte) (protocol : ShellProtocol) :
    Prog.Steps (OnlyWrites Connection.session P) (Shell.run command protocol) := by
  refine Prog.Steps.bind Prog.Steps.get fun c => Prog.Steps.ite ?_ ?_
  · exact withStream_onlyWrites _ (Prog.Steps.bind readAll_onlyWrites fun _ => Prog.Steps.pure _)
  · exact withStream_onlyWrites _ (Prog.Steps.bind readAll_onlyWrites fun _ => Prog.Steps.pure _)

/-- The event of a command that is asked for. -/
def Runs (command : List Byte) (e : Event) : Prop := ∃ v2, AsksFor (Shell.serviceOf v2 command) e

theorem length_serviceOf_le (v2 : Bool) (command : List Byte) :
    (Shell.serviceOf v2 command).length ≤ 13 + command.length := by
  unfold Shell.serviceOf
  rw [List.length_append]
  cases v2 with
  | true => exact le_refl _
  | false => exact Nat.add_le_add_right (by decide) _

/-- On an open session the service of a command is asked for, unless it is too long for a message; then
the session is still open. -/
theorem run_asks (command : List Byte) (protocol : ShellProtocol) {c : Connection Dialogue}
    (hopen : c.session.closed = false) :
    Happened (Runs command) c.session ((Shell.run command protocol).run c).2.session ∨
      2 ^ 32 ≤ 14 + command.length ∧ ((Shell.run command protocol).run c).2.session.closed = false := by
  have hservice (v2 : Bool) (parse : List Byte → CommandResult) :
      Happened (Runs command) c.session ((withStream (Shell.serviceOf v2 command) do
        let raw ← StreamOn.readAll
        pure (parse raw)).run c).2.session ∨ 2 ^ 32 ≤ 14 + command.length ∧
      ((withStream (Shell.serviceOf v2 command) do
        let raw ← StreamOn.readAll
        pure (parse raw)).run c).2.session.closed = false := by
    by_cases hlt : (Shell.serviceOf v2 command).length + 1 < 2 ^ 32
    · left
      have hread : Prog.Steps (OnlyAsks StreamOn.session fun _ => True) (do
          let raw ← StreamOn.readAll
          pure (parse raw)) := Prog.Steps.bind readAll_onlyAsks fun _ => Prog.Steps.pure _
      exact (withStream_asks hopen hlt hread).mono fun e he => ⟨v2, he⟩
    · right
      have hlength := length_serviceOf_le v2 command
      exact ⟨by omega, withStream_tooLong hopen hlt _⟩
  unfold Shell.run
  rw [Prog.run_bind_get]
  split
  · exact hservice false _
  · exact hservice true _

theorem removeQuietly_onlyAsks {S : List Byte → Prop} (path : List Byte)
    (hS : ∀ v2, S (Shell.serviceOf v2 (removeCommand path) ++ [0])) :
    Prog.Steps (OnlyAsks Connection.session S) (removeQuietly path) :=
  Prog.Steps.bind (Prog.Steps.attempt (run_onlyAsks _ .auto hS)) fun _ => Prog.Steps.pure _

theorem removeQuietly_onlyWrites {P : List Byte → Prop} (path : List Byte) :
    Prog.Steps (OnlyWrites Connection.session P) (removeQuietly path) :=
  Prog.Steps.bind (Prog.Steps.attempt (run_onlyWrites _ .auto)) fun _ => Prog.Steps.pure _

/-! ### Installing -/

open Sync

variable {b : Build} {options : List Byte} {host : Host Dialogue LocalFile}

/-- The event of a command that names the path. -/
def NamesPath (options path : List Byte) (e : Event) : Prop := ∃ command, Command options path command ∧ Runs command e

/-- The path that is named in a command of an installation is the one where its push created the file. -/
def InstallsPushed (b : Build) (options : List Byte) (host : Host Dialogue LocalFile) : Prop :=
  ∀ created named, Happened (CreatesAt created) host.session ((install b options).run host).2.session →
    Happened (NamesPath options named) host.session ((install b options).run host).2.session → named = created

/-- What an installation asks for: the sync service, and its two commands. -/
def Requested (options remote payload : List Byte) : Prop :=
  payload = bytesOf "sync:" ++ [0] ∨
    ∃ v2 command, Command options remote command ∧ payload = Shell.serviceOf v2 command ++ [0]

/-- What goes on behind a push that succeeds: the APK is installed, and removed. -/
theorem install_pushed (options : List Byte) {pushed : Host Dialogue LocalFile}
    (hpush : (push b (remoteOf host.file.filename) .auto).run host = (.ok (), pushed)) :
    ((install b options).run host).2.connection = ((removeQuietly (remoteOf host.file.filename)).run
      ((Shell.run (installCommand options (remoteOf host.file.filename)) .auto).run pushed.connection).2).2 := by
  have hregular : host.file.isRegular = true := by
    obtain ⟨_, _, _, hsends⟩ := exists_sends (congrArg Prod.fst hpush)
    exact hsends.regular
  have hpushed : (Prog.attempt (push b (remoteOf host.file.filename) .auto)).run host = (.ok (.ok ()), pushed) := by
    rw [Prog.run_attempt, hpush]
  rw [install, Prog.run_bind_get, if_neg (by simp [hregular]), Prog.run_bind_ok hpushed]
  dsimp only
  rw [Prog.run_bind, Prog.run_attempt, Sync.run_onConnection]
  generalize (Shell.run (installCommand options (remoteOf host.file.filename)) .auto).run pushed.connection = ran
  obtain ⟨result, c⟩ := ran
  cases result with
  | ok result => rfl
  | error e => rfl

/-- What a push and both commands preserve on the way, the installation preserves. -/
theorem install_along (R : Dialogue → Dialogue → Prop) [IsTrans Dialogue R] {pushed : Host Dialogue LocalFile}
    (hpush : (push b (remoteOf host.file.filename) .auto).run host = (.ok (), pushed))
    (hpushed : R host.session pushed.session)
    (hinstalls : Prog.Steps (fun c c' : Connection Dialogue => R c.session c'.session)
      (Shell.run (installCommand options (remoteOf host.file.filename)) .auto))
    (hremoves : Prog.Steps (fun c c' : Connection Dialogue => R c.session c'.session)
      (removeQuietly (remoteOf host.file.filename))) :
    R host.session ((install b options).run host).2.session := by
  show R host.session ((install b options).run host).2.connection.session
  rw [install_pushed options hpush]
  apply trans_of R hpushed
  apply trans_of R (hinstalls _)
  exact hremoves _

section Pushed

variable {existing : Option FileStat} {existing' : FileStat} {form : Option CompressionCodec}
  {c : Connection Dialogue}

/-- An installation creates no file but where its push does. -/
theorem install_createsOnly (h : Sends b (remoteOf host.file.filename) .auto host existing form c)
    (hpush : ((push b (remoteOf host.file.filename) .auto).run host).1 = .ok ()) :
    OnlyWrites Host.session (CreatesOnly (destinationOf (remoteOf host.file.filename) existing host.file)) host
      ((install b options).run host).2 := by
  have hpushed := h.createsOnly
  exact install_along (WritesOnly _) (Prod.ext hpush rfl) hpushed (run_onlyWrites _ .auto)
    (removeQuietly_onlyWrites _)

/-- It asks for nothing but the sync service and its two commands. -/
theorem install_onlyAsks (h : Sends b (remoteOf host.file.filename) .auto host existing form c)
    (hpush : ((push b (remoteOf host.file.filename) .auto).run host).1 = .ok ()) :
    OnlyAsks Host.session (Requested options (remoteOf host.file.filename)) host
      ((install b options).run host).2 := by
  have hcommand {command : List Byte} (hnames : Command options (remoteOf host.file.filename) command) (v2 : Bool) :
      Requested options (remoteOf host.file.filename) (Shell.serviceOf v2 command ++ [0]) :=
    .inr ⟨v2, command, hnames, rfl⟩
  have hpushed := h.onlyAsks (S := Requested options (remoteOf host.file.filename)) (.inl rfl)
  have hinstalls := run_onlyAsks (installCommand options (remoteOf host.file.filename)) .auto (hcommand .installs)
  have hremoves := removeQuietly_onlyAsks (remoteOf host.file.filename) (hcommand .removes)
  exact install_along (Attempted _) (Prod.ext hpush rfl) hpushed hinstalls hremoves

/-- One of its commands is asked for at least. -/
theorem install_names (h : Sends b (remoteOf host.file.filename) .auto host existing form c)
    (hpush : ((push b (remoteOf host.file.filename) .auto).run host).1 = .ok ()) :
    Happened (NamesPath options (remoteOf host.file.filename)) host.session
      ((install b options).run host).2.session := by
  obtain ⟨-, hopen⟩ := h.creates hpush
  have hpushed := h.onlyAsks (S := fun _ => True) trivial
  have hrun := install_pushed options (Prod.ext hpush rfl)
  show Happened _ host.session ((install b options).run host).2.connection.session
  rw [hrun]
  refine Happened.after ?_ hpushed
  rcases run_asks (installCommand options (remoteOf host.file.filename)) .auto hopen with hasks | ⟨-, hopen'⟩
  · have hrest := removeQuietly_onlyAsks (S := fun _ => True) (remoteOf host.file.filename)
      (fun _ => trivial) ((Shell.run (installCommand options (remoteOf host.file.filename)) .auto).run
        ((push b (remoteOf host.file.filename) .auto).run host).2.connection).2
    exact (hasks.mono fun e he => ⟨_, .installs, he⟩).before hrest
  · -- The command to install is too long for a message. The one to remove is not.
    have hbefore := run_onlyAsks (S := fun _ => True) (installCommand options (remoteOf host.file.filename)) .auto
      (fun _ => trivial) ((push b (remoteOf host.file.filename) .auto).run host).2.connection
    refine Happened.after ?_ hbefore
    rcases run_asks (removeCommand (remoteOf host.file.filename)) .auto hopen' with hasks | ⟨hlong, -⟩
    · exact hasks.mono fun e he => ⟨_, .removes, he⟩
    · have hpath := stat_ok h.answered
      have hquoted := length_shellQuote_le (remoteOf host.file.filename)
      rw [removeCommand, List.length_append, show (bytesOf "rm -f ").length = 6 from rfl] at hlong
      rw [kMaxPathLength] at hpath
      omega

/-- The file is created by the push. -/
theorem install_creates (h : Sends b (remoteOf host.file.filename) .auto host existing form c)
    (hpush : ((push b (remoteOf host.file.filename) .auto).run host).1 = .ok ()) :
    Happened (CreatesAt (destinationOf (remoteOf host.file.filename) existing host.file)) host.session
      ((install b options).run host).2.session := by
  obtain ⟨hcreated, -⟩ := h.creates hpush
  have hrun := install_pushed options (Prod.ext hpush rfl)
  show Happened _ host.session ((install b options).run host).2.connection.session
  rw [hrun]
  apply hcreated.before
  apply trans_of (Attempted _) (run_onlyAsks (S := fun _ => True) _ .auto (fun _ => trivial) _)
  exact removeQuietly_onlyAsks (S := fun _ => True) _ (fun _ => trivial) _

/-- Inside of a directory, the file is not where the commands say. -/
theorem not_installsPushed (h : Sends b (remoteOf host.file.filename) .auto host (some existing') form c)
    (hpush : ((push b (remoteOf host.file.filename) .auto).run host).1 = .ok ())
    (hdirectory : existing'.isDirectory = true) : ¬ InstallsPushed b options host := by
  intro hinstalls
  have hsame := hinstalls _ _ (install_creates h hpush) (install_names h hpush)
  rw [destinationOf, if_pos (by simpa using hdirectory), List.append_assoc] at hsame
  have hlength := congrArg List.length hsame
  rw [List.length_append, List.length_append, show (bytesOf "/").length = 1 from rfl] at hlength
  omega

/-- A path that a command names is the one that the APK was meant for. -/
theorem named_eq (h : Sends b (remoteOf host.file.filename) .auto host existing form c)
    (hpush : ((push b (remoteOf host.file.filename) .auto).run host).1 = .ok ()) {named : List Byte}
    (hnamed : Happened (NamesPath options named) host.session ((install b options).run host).2.session) :
    named = remoteOf host.file.filename := by
  have hopens : ∀ e, NamesPath options named e → ∃ f, (e = .sent f ∨ e = .unsent f) ∧ f.header.command = kOpen ∧
      ∃ v2 command, Command options named command ∧ f.payload = Shell.serviceOf v2 command ++ [0] := by
    rintro e ⟨command, hcommand, v2, f, he, hopen, hpayload⟩
    exact ⟨f, he, hopen, v2, command, hcommand, hpayload⟩
  obtain ⟨f, hrequested, hopen, v2, command, hcommand, hpayload⟩ :=
    hnamed.attempted (install_onlyAsks h hpush) hopens
  rcases hrequested hopen with hsync | ⟨v2', command', hremote, hpayload'⟩
  · rw [hpayload] at hsync
    exact absurd hsync (serviceOf_ne_sync v2 command)
  · rw [hpayload] at hpayload'
    obtain rfl := serviceOf_injective hpayload'
    exact hcommand.path_unique hremote

end Pushed

/-- Where the push succeeds, the commands name its file exactly where the device does not say that the path
is a directory. -/
theorem install_installsPushed_iff (b : Build) (options : List Byte) (host : Host Dialogue LocalFile)
    (hpush : ((push b (remoteOf host.file.filename) .auto).run host).1 = .ok ()) :
    InstallsPushed b options host ↔ ∀ existing,
      ((stat (remoteOf host.file.filename)).run host.connection).1 = .ok (some existing) →
        existing.isDirectory = false := by
  obtain ⟨existing, form, c, h⟩ := exists_sends hpush
  rw [h.answered]
  constructor
  · rintro hinstalls existing' ⟨⟩
    apply Bool.eq_false_of_not_eq_true
    intro hdirectory
    exact not_installsPushed h hpush hdirectory hinstalls
  · intro hfile created named hcreated hnamed
    have hdestination : destinationOf (remoteOf host.file.filename) existing host.file =
        remoteOf host.file.filename := by
      unfold destinationOf
      apply if_neg
      cases existing with
      | none => simp
      | some existing => simp [hfile existing rfl]
    have hcreated' := eq_of_happened hcreated (install_createsOnly h hpush)
    rw [named_eq h hpush hnamed, hcreated', hdestination]

/-- A device that answers the STAT with the mode and takes a file, and the file. -/
def scratchHost (mode : UInt32) : Host Dialogue LocalFile where
  connection := { maxData := 65544,
                  session := { inbox := [.frame ⟨makeEmptyMessage Protocol.kOkay 7 2, []⟩,
                    .frame (deviceWrite 2 (writeU32LE kStatV1 ++ (writeU32LE mode ++ List.replicate 8 0))),
                    .frame ⟨makeEmptyMessage kClse 7 2, []⟩, .frame ⟨makeEmptyMessage Protocol.kOkay 7 3, []⟩,
                    .frame ⟨makeEmptyMessage Protocol.kOkay 7 3, []⟩,
                    .frame (deviceWrite 3 (packet Sync.kOkay []))] } }
  file := localText

/-- There is nothing at the path: the file that is pushed is the one that the commands name. -/
theorem install_installsPushed_iff_missing : InstallsPushed {} [] (scratchHost 0) :=
  (install_installsPushed_iff {} [] (scratchHost 0) rfl).mpr fun existing hstat => by
    cases hstat

/-- There is a directory at the path: the push succeeds, and the commands name the directory. -/
theorem not_install_installsPushed_directory : ¬ ∀ b options (host : Host Dialogue LocalFile),
    ((push b (remoteOf host.file.filename) .auto).run host).1 = .ok () → InstallsPushed b options host := by
  intro h
  have hpush : ((push {} (remoteOf (scratchHost 0o040755).file.filename) .auto).run (scratchHost 0o040755)).1 =
    .ok () := rfl
  have hstat : ((stat (remoteOf (scratchHost 0o040755).file.filename)).run (scratchHost 0o040755).connection).1 =
      .ok (some { mode := 0o040755, size := 0, mtime := 0 }) := rfl
  obtain ⟨existing, form, c, hsends⟩ := exists_sends hpush
  rw [hsends.answered] at hstat
  cases hstat
  exact not_installsPushed hsends hpush rfl (h {} [] (scratchHost 0o040755) hpush)

end App

end Adbcpp
