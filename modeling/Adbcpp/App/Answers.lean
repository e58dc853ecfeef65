import Adbcpp.App
import Adbcpp.Shell.Packets

/-! The answers that calls make of the result of a command. The exit code of a result
is zero until an exit packet says something else, and the v1 service never says
anything, so that zero is an answer of the device in some cases and its silence in
others. -/

namespace Adbcpp

open Protocol

namespace Shell

/-- A command that the device sends `raw` for over the service that the connection selects. -/
theorem run_auto {command raw : List Byte} {c : Connection Dialogue}
    (h : Sends (serviceOf (c.supportsFeature kShellV2Feature) command) raw c) :
    ((run command .auto).run c).1 = .ok (if c.supportsFeature kShellV2Feature then
      describes (packets.items raw) else { output := raw, success := true }) := by
  have huses : usesV2 c .auto = c.supportsFeature kShellV2Feature := by
    simp [usesV2]
  rw [run, Prog.run_bind_get, huses]
  cases hfeature : c.supportsFeature kShellV2Feature with
  | true =>
    rw [hfeature] at h
    exact runV2_result h
  | false =>
    rw [hfeature] at h
    exact runV1_result h

/-- The device has sent a whole exit packet with the status zero. -/
def ExitsZero (raw : List Byte) : Prop :=
  ∃ p ∈ packets.items raw, p.id = kExit ∧ p.data.head? = some 0

/-- The device has sent a whole exit packet with a status in it. -/
def Exits (raw : List Byte) : Prop :=
  ∃ p ∈ packets.items raw, p.id = kExit ∧ p.data ≠ []

theorem status_eq_some {p : Packet} {status : UInt8} :
    p.status = some status ↔ p.id = kExit ∧ p.data.head? = some status := by
  unfold Packet.status
  split
  next h => simp [h]
  next h => simp [h]

theorem exitsZero_iff {raw : List Byte} : ExitsZero raw ↔ 0 ∈ statuses (packets.items raw) := by
  simp only [ExitsZero, statuses, List.mem_filterMap, status_eq_some]

theorem exits_iff {raw : List Byte} : Exits raw ↔ statuses (packets.items raw) ≠ [] := by
  constructor
  · rintro ⟨p, hp, hid, hdata⟩
    obtain ⟨status, rest, hcons⟩ := List.exists_cons_of_ne_nil hdata
    have hstatus : p.status = some status := status_eq_some.mpr ⟨hid, by rw [hcons]; rfl⟩
    exact List.ne_nil_of_mem (List.mem_filterMap.mpr ⟨p, hp, hstatus⟩)
  · intro hsome
    obtain ⟨status, hstatus⟩ := List.exists_mem_of_ne_nil _ hsome
    obtain ⟨p, hp, hsome⟩ := List.mem_filterMap.mp hstatus
    obtain ⟨hid, hhead⟩ := status_eq_some.mp hsome
    exact ⟨p, hp, hid, fun hnil => by simp [hnil] at hhead⟩

/-- The status of a stream that has one is the status of one of its packets. -/
theorem exitCodeOf_mem {ps : List Packet} (h : statuses ps ≠ []) : exitCodeOf ps ∈ statuses ps := by
  rw [exitCodeOf, List.getLast?_eq_getLast_of_ne_nil h, Option.getD_some]
  exact List.getLast_mem h

theorem describes_success (ps : List Packet) : (describes ps).success = true ↔ (describes ps).exitCode = 0 :=
  decide_eq_true_iff

/-- The zero that nobody sent is the code of the streams without a status. -/
theorem success_iff (raw : List Byte) :
    ((describes (packets.items raw)).success = true → ExitsZero raw) ↔ Exits raw := by
  rw [exitsZero_iff, exits_iff]
  constructor
  · intro h hnone
    have hzero : 0 ∈ statuses (packets.items raw) := by
      apply h
      simp [describes, exitCodeOf, hnone]
    rw [hnone] at hzero
    cases hzero
  · intro hsome hsuccess
    have hmem := exitCodeOf_mem hsome
    rwa [show exitCodeOf (packets.items raw) = 0 from (describes_success _).mp hsuccess] at hmem

end Shell

namespace App

open Shell

/-- What a stream prints has the word of the package manager in it. -/
def PrintsSuccess (raw : List Byte) : Prop :=
  bytesOf "Success" <:+: (describes (packets.items raw)).output

theorem packageResult_success (raw : List Byte) :
    (packageResult (describes (packets.items raw))).success = true ↔
      (describes (packets.items raw)).success = true ∧ PrintsSuccess raw := by
  unfold packageResult PrintsSuccess
  rw [describes_success, Bool.and_eq_true, decide_eq_true_iff, decide_eq_true_iff]

/-- A positive answer of a call comes with an exit packet with the status zero. -/
def Earned {α : Type} (yes : α → Bool) (raw : List Byte) (result : Except Error α) : Prop :=
  ∀ a, result = .ok a → yes a = true → ExitsZero raw

theorem earned_ok {α : Type} {yes : α → Bool} {raw : List Byte} {a : α} :
    Earned yes raw (.ok a) ↔ (yes a = true → ExitsZero raw) := by
  constructor
  · exact fun h => h a rfl
  · rintro h b hb
    cases hb
    exact h

theorem earned_package (raw : List Byte) :
    Earned PackageResult.success raw (.ok (packageResult (describes (packets.items raw)))) ↔
      Exits raw ∨ ¬ PrintsSuccess raw := by
  rw [earned_ok, packageResult_success, ← success_iff]
  tauto

/-- The result of a command on a device with the v2 service. -/
theorem run_v2 {command raw : List Byte} {c : Connection Dialogue}
    (hfeature : c.supportsFeature kShellV2Feature = true) (h : Sends (serviceOf true command) raw c) :
    ((Shell.run command .auto).run c).1 = .ok (describes (packets.items raw)) := by
  rw [run_auto (by rwa [hfeature]), if_pos hfeature]

theorem map_result {σ α β : Type} {p : Action σ α} {f : α → β} {s : σ} {a : α} (h : (p.run s).1 = .ok a) :
    ((do let result ← p; pure (f result) : Action σ β).run s).1 = .ok (f a) := by
  have hrun : p.run s = (.ok a, (p.run s).2) := Prod.ext h rfl
  rw [Prog.run_bind_ok hrun]
  rfl

/-- The answer of an installation whose APK has been pushed. -/
theorem install_result {b : Sync.Build} {options raw : List Byte} {host pushed : Sync.Host Dialogue Sync.LocalFile}
    (hregular : host.file.isRegular = true)
    (hpush : (Sync.push b (remoteOf host.file.filename) .auto).run host = (.ok (), pushed))
    (hfeature : pushed.connection.supportsFeature kShellV2Feature = true)
    (h : Sends (serviceOf true (installCommand options (remoteOf host.file.filename))) raw pushed.connection) :
    ((install b options).run host).1 = .ok (packageResult (describes (packets.items raw))) := by
  have hpushed : (Prog.attempt (Sync.push b (remoteOf host.file.filename) .auto)).run host =
      (.ok (.ok ()), pushed) := by
    rw [Prog.run_attempt, hpush]
  have hrun := run_v2 hfeature h
  rw [install, Prog.run_bind_get, if_neg (by simp [hregular]), Prog.run_bind_ok hpushed]
  dsimp only
  rw [Prog.run_bind, Prog.run_attempt, Sync.run_onConnection, hrun]
  rfl

/-- When the positive answers of the calls are earned, for a device that sends `raw` over the v2 service. -/
structure AnswersEarned (raw : List Byte) : Prop where
  run : ∀ {command} {c : Connection Dialogue}, Sends (serviceOf true command) raw c →
    (Earned CommandResult.success raw ((runV2 command).run c).1 ↔ Exits raw)
  launch : ∀ {package} {c : Connection Dialogue}, c.supportsFeature kShellV2Feature = true →
    Sends (serviceOf true (launchCommand package)) raw c →
    (Earned CommandResult.success raw ((App.launch package).run c).1 ↔ Exits raw)
  isRunning : ∀ {package} {c : Connection Dialogue}, c.supportsFeature kShellV2Feature = true →
    Sends (serviceOf true (isRunningCommand package)) raw c →
    (Earned id raw ((App.isRunning package).run c).1 ↔ Exits raw)
  uninstall : ∀ {package keepData} {c : Connection Dialogue}, c.supportsFeature kShellV2Feature = true →
    Sends (serviceOf true (uninstallCommand package keepData)) raw c →
    (Earned PackageResult.success raw ((App.uninstall package keepData).run c).1 ↔
      Exits raw ∨ ¬ PrintsSuccess raw)
  install : ∀ {b options} {host pushed : Sync.Host Dialogue Sync.LocalFile}, host.file.isRegular = true →
    (Sync.push b (remoteOf host.file.filename) .auto).run host = (.ok (), pushed) →
    pushed.connection.supportsFeature kShellV2Feature = true →
    Sends (serviceOf true (installCommand options (remoteOf host.file.filename))) raw pushed.connection →
    (Earned PackageResult.success raw ((App.install b options).run host).1 ↔ Exits raw ∨ ¬ PrintsSuccess raw)

theorem answersEarned (raw : List Byte) : AnswersEarned raw := by
  constructor
  · intro command c h
    rw [runV2_result h, earned_ok, success_iff]
  · intro package c hfeature h
    rw [App.launch, run_v2 hfeature h, earned_ok, success_iff]
  · intro package c hfeature h
    rw [App.isRunning, map_result (run_v2 hfeature h), earned_ok]
    exact success_iff raw
  · intro package keepData c hfeature h
    rw [App.uninstall, map_result (run_v2 hfeature h), earned_package]
  · intro b options host pushed hregular hpush hfeature h
    rw [install_result hregular hpush hfeature h, earned_package]

/-- A process that nobody has seen counts as running when the stream ends early. -/
theorem answersEarned_silence :
    ¬ Earned id [] ((isRunning (bytesOf "app")).run (deviceShell [kShellV2Feature] [])).1 := by
  have hsends : Sends (serviceOf true (isRunningCommand (bytesOf "app"))) [] (deviceShell [kShellV2Feature] []) :=
    deviceShell_sends (by decide) [kShellV2Feature] []
  rw [(answersEarned []).isRunning (by decide) hsends]
  rintro ⟨p, hp, -⟩
  cases hp

/-- A stream that is closed before anything was sent on it makes a command succeed. -/
theorem silence_succeeds : ¬ ∀ raw command (c : Connection Dialogue), Sends (serviceOf true command) raw c →
    Earned CommandResult.success raw ((runV2 command).run c).1 := by
  intro h
  have hsends : Sends (serviceOf true []) [] (deviceShell [kShellV2Feature] []) :=
    deviceShell_sends (by decide) [kShellV2Feature] []
  have hearned := h [] [] _ hsends
  rw [runV2_result hsends] at hearned
  obtain ⟨p, hp, -⟩ := hearned _ rfl rfl
  cases hp

/-! ### Running processes -/

/-- What `pidof` does on the device: it prints the ids and exits with zero, or prints nothing and
exits with another status. -/
inductive Outcome
  | running (pids : List Byte) (printed : pids ≠ [])
  | gone (status : UInt8) (failed : status ≠ 0)

namespace Outcome

def isRunning : Outcome → Bool
  | running _ _ => true
  | gone _ _ => false

def output : Outcome → List Byte
  | running pids _ => pids
  | gone _ _ => []

def status : Outcome → UInt8
  | running _ _ => 0
  | gone status _ => status

theorem status_eq_zero (o : Outcome) : o.status = 0 ↔ o.isRunning = true := by
  cases o with
  | running pids printed => simp [status, isRunning]
  | gone status failed => simp [Outcome.status, isRunning, failed]

/-- The bytes bring the outcome over a shell service: as they are over v1, which has no place for the
status, and in packets over v2. -/
def DeliveredBy (raw : List Byte) (o : Outcome) : Bool → Prop
  | false => raw = o.output
  | true => ∃ ps, raw = packets.join ps ∧ dataOf [kStdout, kStderr] ps = o.output ∧
    (statuses ps).getLast? = some o.status

end Outcome

/-- The answer is right where the service says how the command exited, or where nothing went wrong. -/
theorem isRunning_right_iff {package raw : List Byte} {o : Outcome} {c : Connection Dialogue}
    (h : Sends (serviceOf (c.supportsFeature kShellV2Feature) (isRunningCommand package)) raw c)
    (ho : o.DeliveredBy raw (c.supportsFeature kShellV2Feature)) :
    ((isRunning package).run c).1 = .ok o.isRunning ↔
      c.supportsFeature kShellV2Feature = true ∨ o.isRunning = true := by
  rw [isRunning, map_result (run_auto h)]
  cases hfeature : c.supportsFeature kShellV2Feature with
  | false =>
    cases o.isRunning <;> simp
  | true =>
    rw [hfeature] at ho
    obtain ⟨ps, rfl, -, hstatus⟩ := ho
    have hcode : exitCodeOf ps = o.status := by
      rw [exitCodeOf, hstatus, Option.getD_some]
    have hanswer : (describes ps).success = o.isRunning := by
      rw [Bool.eq_iff_iff, describes_success, ← o.status_eq_zero, ← hcode]
      rfl
    simp [Framing.items_join, hanswer]

/-- A device with the v1 service only, on which the command prints `output`. -/
theorem deviceShell_v1 {package : List Byte} (output : List Byte)
    (h : (serviceOf false (isRunningCommand package)).length + 1 < 2 ^ 32) :
    Sends (serviceOf ((deviceShell [] [output]).supportsFeature kShellV2Feature) (isRunningCommand package))
      output (deviceShell [] [output]) := by
  have hfeature : (deviceShell [] [output]).supportsFeature kShellV2Feature = false := rfl
  have hsends := deviceShell_sends h [] [output]
  rw [hfeature]
  rwa [List.flatten_singleton] at hsends

theorem isRunning_right_v1 :
    ((isRunning (bytesOf "app")).run (deviceShell [] [bytesOf "42"])).1 = .ok true :=
  (isRunning_right_iff (o := .running (bytesOf "42") (by decide))
    (deviceShell_v1 (bytesOf "42") (by decide)) rfl).mpr (.inr rfl)

/-- A process that does not run counts as running over the v1 service. -/
theorem isRunning_wrong_v1 : ¬ ∀ package raw (o : Outcome) (c : Connection Dialogue),
    Sends (serviceOf (c.supportsFeature kShellV2Feature) (isRunningCommand package)) raw c →
    o.DeliveredBy raw (c.supportsFeature kShellV2Feature) →
    ((isRunning package).run c).1 = .ok o.isRunning := by
  intro h
  have hsends := @deviceShell_v1 (bytesOf "app") [] (by decide)
  have hanswer := h (bytesOf "app") [] (.gone 1 (by decide)) (deviceShell [] [[]]) hsends rfl
  rw [isRunning, map_result (run_auto hsends)] at hanswer
  cases hanswer

end App

end Adbcpp
