import Adbcpp.Calls.Episodes
import Adbcpp.Calls.Limits
import Adbcpp.Stream.Services

/-! What a device is asked for. Every call that brings its own streams has some requests, which
its answer and the files that it was given tell, and a program has those of its calls one
after the other. The services of the OPENs that go by are these requests in their order,
all of them where the session stays open. An APK that is a file is asked to be removed
in any case. -/

namespace Adbcpp

open Protocol Dialogue StreamOn
open Sync (Build Host Job Along LocalFile SyncCompression)

/-- What a stream is opened for. -/
inductive ServiceRequest
  | sync
  | shell (command : List Byte) (protocol : ShellProtocol)
  deriving DecidableEq, Repr

/-- The service of a request on a connection. -/
def ServiceRequest.service {σ : Type} (c : Connection σ) : ServiceRequest → List Byte
  | .sync => bytesOf "sync:"
  | .shell command protocol => Shell.serviceOf (Shell.usesV2 c protocol) command

theorem ServiceRequest.service_congr {σ : Type} {c c' : Connection σ} (h : c'.features = c.features)
    (r : ServiceRequest) : r.service c' = r.service c := by
  cases r with
  | sync => rfl
  | shell command protocol => simp only [service, Shell.usesV2, Connection.supportsFeature, h]

/-- The payloads of the OPENs that were attempted. -/
def openings (es : List Event) : List (List Byte) :=
  ((attempts es).filter fun f => f.header.command = kOpen).map Frame.payload

@[simp] theorem openings_nil : openings [] = [] := rfl

@[simp] theorem openings_append (es es' : List Event) : openings (es ++ es') = openings es ++ openings es' := by
  simp [openings]

theorem openings_eq_nil {es : List Event} (h : ∀ f ∈ attempts es, f.header.command ≠ kOpen) : openings es = [] := by
  rw [openings, List.map_eq_nil_iff, List.filter_eq_nil_iff]
  intro f hf
  simpa using h f hf

theorem mem_openings {es : List Event} {e : Event} {f : Frame} (h : e ∈ es) (hf : e = .sent f ∨ e = .unsent f)
    (hcommand : f.header.command = kOpen) : f.payload ∈ openings es := by
  have hattempt : f ∈ attempts es := by
    rw [attempts, List.mem_filterMap]
    rcases hf with rfl | rfl
    · exact ⟨_, h, rfl⟩
    · exact ⟨_, h, rfl⟩
  exact List.mem_map_of_mem (List.mem_filter.mpr ⟨hattempt, by simpa using hcommand⟩)

/-- From the first connection to the second the device was asked for what is requested, in this order. What is
missing of it was too long for a message, or came when the session was closed. -/
structure AskedFor (requests : List ServiceRequest) (c c' : Connection Dialogue) : Prop where
  features : c'.features = c.features
  closed : c.session.closed = true → c'.session.closed = true
  trace : ∃ es, c'.session.trace = c.session.trace ++ es ∧
    (openings es).Sublist (requests.map fun r => r.service c ++ [0]) ∧
    ((∀ r ∈ requests, (r.service c).length + 1 < 2 ^ 32) → c'.session.closed = false →
      openings es = requests.map fun r => r.service c ++ [0])

namespace AskedFor

variable {c d e : Connection Dialogue} {requests more : List ServiceRequest}

theorem refl (c : Connection Dialogue) : AskedFor [] c c := ⟨rfl, id, [], by simp, by simp, by simp⟩

theorem trans (h : AskedFor requests c d) (h' : AskedFor more d e) : AskedFor (requests ++ more) c e := by
  obtain ⟨hfeatures, hclosed, es, htrace, hsublist, hall⟩ := h
  obtain ⟨hfeatures', hclosed', es', htrace', hsublist', hall'⟩ := h'
  have hservice (r : ServiceRequest) : r.service d = r.service c := ServiceRequest.service_congr hfeatures r
  simp only [hservice] at hsublist' hall'
  refine ⟨hfeatures'.trans hfeatures, fun hc => hclosed' (hclosed hc), es ++ es', ?_, ?_, ?_⟩
  · rw [htrace', htrace, List.append_assoc]
  · rw [openings_append, List.map_append]
    exact hsublist.append hsublist'
  · intro hfit hopen
    obtain ⟨hfits, hfits'⟩ := List.forall_mem_append.mp hfit
    have hmiddle : d.session.closed = false := by
      by_contra hd
      rw [hclosed' (by simpa using hd)] at hopen
      cases hopen
    rw [openings_append, List.map_append, hall hfits hmiddle, hall' hfits' hopen]

theorem of_silent {es : List Event} (hfeatures : d.features = c.features)
    (hclosed : c.session.closed = true → d.session.closed = true) (htrace : d.session.trace = c.session.trace ++ es)
    (h : ∀ f ∈ attempts es, f.header.command ≠ kOpen) : AskedFor [] c d := by
  have hnone := openings_eq_nil h
  exact ⟨hfeatures, hclosed, es, htrace, by simp [hnone], fun _ _ => by simp [hnone]⟩

end AskedFor

/-! ### Streams -/

/-- What is said on an open stream asks for nothing. -/
theorem Converses.asked {s s' : StreamOn Dialogue} (h : Converses s s') : AskedFor [] s.connection s'.connection := by
  obtain ⟨hsame, hsession, es, htrace, hcarries, -⟩ := h
  have hfeatures : s'.connection.features = s.connection.features := by
    rw [hsame.connection]
  refine AskedFor.of_silent hfeatures hsession.closed htrace fun f hf => ?_
  rcases (hcarries f hf).1 with hcommand | hcommand
  · rw [hcommand]
    decide
  · rw [hcommand]
    decide

theorem closeNow_asked (s : StreamOn Dialogue) : AskedFor [] s.connection s.closeNow.connection := by
  by_cases hclosed : s.stream.closed = true
  · rw [closeNow_closed hclosed]
    exact .refl _
  · obtain ⟨r, d, new, hclose, hattempt, -, -, hsession, htrace⟩ := closeNow_open (Bool.eq_false_of_not_eq_true hclosed)
    rw [hclose]
    refine AskedFor.of_silent rfl (fun h => hsession.trans h) htrace fun f hf => ?_
    rw [hattempt.attempts f hf]
    exact show kClse ≠ kOpen by decide

/-- An open asks for its service once, whatever becomes of it. -/
theorem Opening.openings {service : List Byte} {c : Connection Dialogue} {fs : List Frame} {r : Except Error Stream}
    {es : List Event} (h : Opening service c fs r es) : (Adbcpp.openings es).Sublist [service ++ [0]] := by
  have hclose {r : Except Error Unit} {es : List Event} (h : Attempt (closeFrame c.nextLocalId 0) r es) :
      Adbcpp.openings es = [] := openings_eq_nil fun f hf => by
    rw [h.attempts f hf]
    exact show kClse ≠ kOpen by decide
  have hreceived (fs : List Frame) : Adbcpp.openings (fs.map .received) = [] := by
    rw [Adbcpp.openings, attempts_map_received]
    rfl
  have hsent (es : List Event) :
      Adbcpp.openings (.sent (openOf service c) :: es) = (service ++ [0]) :: Adbcpp.openings es := rfl
  cases h with
  | unsent hattempt _ hend =>
    rw [openings_append, hclose hend, List.append_nil]
    cases hattempt with
    | sent => exact .refl _
    | unsent => exact .refl _
    | refused => exact List.nil_sublist _
  | unanswered _ hend | refused _ _ _ hend =>
    rw [hsent, openings_append, hreceived, hclose hend]
    exact .refl _
  | accepted =>
    rw [hsent, hreceived]

theorem open_asked (request : ServiceRequest) (c : Connection Dialogue) :
    AskedFor [request] c ((Stream.open (request.service c)).run c).2 := by
  obtain ⟨fs, r, es, d, hrun, hopening, htrace, -, hclosed, -⟩ := open_opening (request.service c) c
  have hsublist := hopening.openings
  rw [hrun]
  refine ⟨rfl, hclosed, es, htrace, hsublist, fun hfit hopen => ?_⟩
  have hstart : c.session.closed = false := by
    by_contra hc
    rw [hclosed (by simpa using hc)] at hopen
    cases hopen
  obtain ⟨new, htrace', e, hmem, f, hf, hcommand, -⟩ := open_asks hstart (hfit request (List.mem_singleton_self _))
  rw [hrun] at htrace'
  obtain rfl : new = es := List.append_cancel_left (htrace'.symm.trans htrace)
  have hasked := mem_openings hmem hf hcommand
  rcases List.sublist_singleton.mp hsublist with hnone | hone
  · rw [hnone] at hasked
    cases hasked
  · exact hone

theorem withStream_asked {α : Type} (request : ServiceRequest) {c : Connection Dialogue}
    {body : Action (StreamOn Dialogue) α} (hbody : Prog.Steps Converses body) :
    AskedFor [request] c ((withStream (request.service c) body).run c).2 := by
  have hasked := open_asked request c
  rcases hopen : (Stream.open (request.service c)).run c with ⟨e | stream, c'⟩
  · rw [hopen] at hasked
    rw [show (withStream (request.service c) body).run c = (.error e, c') from Prog.run_bind_error hopen]
    exact hasked
  · rcases hrun : body.run ⟨stream, c'⟩ with ⟨r, s⟩
    have htalk := (hbody ⟨stream, c'⟩).asked
    rw [hopen] at hasked
    rw [hrun] at htalk
    rw [withStream_eq hopen hrun]
    exact (hasked.trans htalk).trans (closeNow_asked s)

theorem withSyncStream_asked {φ α : Type} (host : Host Dialogue φ) {body : Action (Job Dialogue φ) α}
    (hbody : Prog.Steps (Along Converses) body) :
    AskedFor [.sync] host.connection ((Sync.withSyncStream body).run host).2.connection := by
  have hasked := open_asked .sync host.connection
  rcases hopen : (Stream.open (bytesOf "sync:")).run host.connection with ⟨e | stream, c'⟩
  · have hrun : (Sync.onConnection (Stream.open (bytesOf "sync:"))).run host =
        (.error e, { host with connection := c' }) := by
      rw [Sync.run_onConnection, hopen]
    rw [Sync.withSyncStream, Prog.run_bind_error hrun]
    rw [show (Stream.open (ServiceRequest.service host.connection .sync)).run host.connection = _ from hopen] at hasked
    exact hasked
  · rcases hrun : body.run ⟨⟨stream, c'⟩, host.file⟩ with ⟨r, j⟩
    have htalk := Converses.asked (hbody ⟨⟨stream, c'⟩, host.file⟩)
    rw [show (Stream.open (ServiceRequest.service host.connection .sync)).run host.connection = _ from hopen] at hasked
    rw [hrun] at htalk
    rw [Sync.withSyncStream_eq hopen hrun]
    exact (hasked.trans htalk).trans (closeNow_asked j.on)

/-! ### Calls -/

section Calls

theorem stat_asked (path : List Byte) :
    Prog.Steps (AskedFor (if path.length > Sync.kMaxPathLength then [] else [.sync])) (Sync.stat path) := by
  intro c
  unfold Sync.stat
  split
  next => exact .refl c
  next =>
    refine withStream_asked .sync (Prog.Steps.bind (write_converses _) fun _ => ?_)
    refine Prog.Steps.bind (read_converses _) fun _ => Prog.Steps.bind (read_converses _) fun _ => ?_
    exact Prog.Steps.bind (write_converses _) fun _ => Prog.Steps.pure _

theorem list_asked (path : List Byte) :
    Prog.Steps (AskedFor (if path.length > Sync.kMaxPathLength then [] else [.sync])) (Sync.list path) := by
  intro c
  unfold Sync.list
  split
  next => exact .refl c
  next => exact withStream_asked .sync (Sync.listOn_steps read_converses (write_converses _) (write_converses _))

theorem run_asked (command : List Byte) (protocol : ShellProtocol) :
    Prog.Steps (AskedFor [.shell command protocol]) (Shell.run command protocol) := by
  intro c
  have hservice {v2 : Bool} (h : Shell.usesV2 c protocol = v2) :
      Shell.serviceOf v2 command = (ServiceRequest.shell command protocol).service c := by rw [ServiceRequest.service, h]
  rw [Shell.run, Prog.run_bind_get]
  split
  next h =>
    rw [Shell.runV1, hservice (by simpa using h)]
    exact withStream_asked _ (Prog.Steps.bind readAll_converses fun _ => Prog.Steps.pure _)
  next h =>
    rw [Shell.runV2, hservice (by simpa using h)]
    exact withStream_asked _ (Prog.Steps.bind readAll_converses fun _ => Prog.Steps.pure _)

/-- The request of a removal, whose answer is dropped. -/
theorem removeQuietly_asked (path : List Byte) :
    Prog.Steps (AskedFor [.shell (App.removeCommand path) .auto]) (App.removeQuietly path) :=
  fun c => run_asked (App.removeCommand path) .auto c

/-- What a pull asks for. -/
inductive Pulling : Except Error Unit → List ServiceRequest → Prop
  | refused (e : Error) : Pulling (.error e) []
  | asked (r : Except Error Unit) : Pulling r [.sync]

/-- What a push of the file asks for. -/
inductive Pushing (file : LocalFile) : Except Error Unit → List ServiceRequest → Prop
  | refused (e : Error) : file.isRegular = false → Pushing file (.error e) []
  | failed {e : Error} {n : ℕ} : file.isRegular = true → n ≤ 2 → Pushing file (.error e) (List.replicate n .sync)
  | done : file.isRegular = true → Pushing file (.ok ()) [.sync, .sync]

/-- What an installation of the APK asks for. Behind a push, whatever has become of it, it is removed. -/
inductive Installing (apk : LocalFile) (options : List Byte) :
    Except Error App.PackageResult → List ServiceRequest → Prop
  | refused (e : Error) : apk.isRegular = false → Installing apk options (.error e) []
  | failed {e : Error} {rs : List ServiceRequest} : apk.isRegular = true → Pushing apk (.error e) rs →
      Installing apk options (.error e) (rs ++ [.shell (App.removeCommand (App.remoteOf apk.filename)) .auto])
  | pushed (r : Except Error App.PackageResult) : apk.isRegular = true → Installing apk options r
      [.sync, .sync, .shell (App.installCommand options (App.remoteOf apk.filename)) .auto,
        .shell (App.removeCommand (App.remoteOf apk.filename)) .auto]

/-- The removal comes last, behind what else there is. -/
theorem Installing.removes {apk : LocalFile} {options : List Byte} {r : Except Error App.PackageResult}
    {rs : List ServiceRequest} (h : Installing apk options r rs) (hregular : apk.isRegular = true) :
    ∃ front, rs = front ++ [.shell (App.removeCommand (App.remoteOf apk.filename)) .auto] ∧
      ∀ r ∈ front, r = .sync ∨ r = .shell (App.installCommand options (App.remoteOf apk.filename)) .auto := by
  cases h with
  | refused e hnot =>
    rw [hregular] at hnot
    cases hnot
  | @failed e rs _ hpushing =>
    refine ⟨rs, rfl, fun r hr => ?_⟩
    cases hpushing with
    | refused => cases hr
    | failed => exact .inl (List.eq_of_mem_replicate hr)
  | pushed =>
    refine ⟨[.sync, .sync, _], rfl, fun r hr => ?_⟩
    simpa using hr

theorem pull_asked (b : Build) (remotePath : List Byte) (compression : SyncCompression)
    (host : Host Dialogue OutputFile) :
    ∃ rs, Pulling ((Sync.pull b remotePath compression).run host).1 rs ∧
      AskedFor rs host.connection ((Sync.pull b remotePath compression).run host).2.connection := by
  have hfile (limit : ℕ) (tooLarge : String) (decoder : Sync.ChunkDecoder) :
      Prog.Steps (Along Converses) (Sync.receiveFile limit tooLarge decoder) :=
    Sync.receiveFile_along read_converses (write_converses _) limit tooLarge decoder
  unfold Sync.pull
  split
  next => exact ⟨[], .refused _, .refl _⟩
  have hsame := Sync.transferForm_state b compression host
  rcases hform : (Sync.transferForm b compression).run host with ⟨e | form, host'⟩
  all_goals
    rw [hform] at hsame
    subst hsame
  · rw [Prog.run_bind_error hform]
    exact ⟨[], .refused e, .refl _⟩
  rw [Prog.run_bind_ok hform]
  refine ⟨[.sync], .asked _, ?_⟩
  cases form with
  | none => exact withSyncStream_asked _ (Prog.Steps.bind (Sync.onStream_along (write_converses _)) fun _ => hfile _ _ _)
  | some codec =>
    exact withSyncStream_asked _ (Prog.Steps.bind (Sync.onStream_along (write_converses _)) fun _ => hfile _ _ _)

theorem push_asked (b : Build) (remotePath : List Byte) (compression : SyncCompression)
    (host : Host Dialogue LocalFile) :
    ∃ rs, Pushing host.file ((Sync.push b remotePath compression).run host).1 rs ∧
      AskedFor rs host.connection ((Sync.push b remotePath compression).run host).2.connection := by
  have hfile (encode : List Byte → Except Error (List Byte)) : Prog.Steps (Along Converses) (Sync.sendFile encode) :=
    Sync.sendFile_along read_converses (write_converses _) (fun _ => write_converses _)
      fun _ _ _ _ _ => write_converses _
  rw [Sync.push, Prog.run_bind_get]
  split
  next h => exact ⟨[], .refused _ (by simpa using h), .refl _⟩
  next h =>
  have hregular : host.file.isRegular = true := by simpa using h
  have hstat := stat_asked remotePath host.connection
  rcases hanswer : (Sync.stat remotePath).run host.connection with ⟨r, c⟩
  have hrun : (Sync.onConnection (Sync.stat remotePath)).run host = (r, { host with connection := c }) := by
    rw [Sync.run_onConnection, hanswer]
  rw [hanswer] at hstat
  rcases r with e | existing
  · rw [Prog.run_bind_error hrun]
    split at hstat
    next => exact ⟨[], .failed (n := 0) hregular (by omega), hstat⟩
    next => exact ⟨[.sync], .failed (n := 1) hregular (by omega), hstat⟩
  rw [if_neg (Nat.not_lt.mpr (Sync.stat_ok hanswer))] at hstat
  rw [Prog.run_bind_ok hrun]
  have hsame := Sync.transferForm_state b compression { host with connection := c }
  rcases hform : (Sync.transferForm b compression).run { host with connection := c } with ⟨e | form, host'⟩
  all_goals
    rw [hform] at hsame
    subst hsame
  · rw [Prog.run_bind_error hform]
    exact ⟨[.sync], .failed (n := 1) hregular (by omega), hstat⟩
  rw [Prog.run_bind_ok hform]
  have hends {p : Action (Host Dialogue LocalFile) Unit}
      (hp : AskedFor [.sync] c (p.run { host with connection := c }).2.connection) :
      ∃ rs, Pushing host.file (p.run { host with connection := c }).1 rs ∧
        AskedFor rs host.connection (p.run { host with connection := c }).2.connection := by
    refine ⟨[.sync, .sync], ?_, hstat.trans hp⟩
    cases (p.run { host with connection := c }).1 with
    | error e => exact .failed (n := 2) hregular (le_refl 2)
    | ok u => exact .done hregular
  refine hends ?_
  cases form with
  | none =>
    exact withSyncStream_asked ⟨c, host.file⟩
      (Prog.Steps.bind (Sync.onStream_along (write_converses _)) fun _ => hfile _)
  | some codec =>
    exact withSyncStream_asked ⟨c, host.file⟩
      (Prog.Steps.bind (Sync.onStream_along (write_converses _)) fun _ => hfile _)

theorem install_asked (b : Build) (options : List Byte) (host : Host Dialogue LocalFile) :
    ∃ rs, Installing host.file options ((App.install b options).run host).1 rs ∧
      AskedFor rs host.connection ((App.install b options).run host).2.connection := by
  rw [App.install, Prog.run_bind_get]
  split
  next h => exact ⟨[], .refused _ (by simpa using h), .refl _⟩
  next h =>
  have hregular : host.file.isRegular = true := by simpa using h
  obtain ⟨rs, hpushing, hasked⟩ := push_asked b (App.remoteOf host.file.filename) .auto host
  rcases hpush : (Sync.push b (App.remoteOf host.file.filename) .auto).run host with ⟨r, pushed⟩
  have hattempt : (Prog.attempt (Sync.push b (App.remoteOf host.file.filename) .auto)).run host = (.ok r, pushed) := by
    rw [Prog.run_attempt, hpush]
  rw [hpush] at hpushing hasked
  rw [Prog.run_bind_ok hattempt]
  rcases r with e | u
  · refine ⟨_, .failed hregular hpushing, ?_⟩
    exact hasked.trans (removeQuietly_asked (App.remoteOf host.file.filename) pushed.connection)
  · cases hpushing
    have hran := run_asked (App.installCommand options (App.remoteOf host.file.filename)) .auto pushed.connection
    rw [Prog.run_bind, Prog.run_attempt, Sync.run_onConnection]
    rcases hrun : (Shell.run (App.installCommand options (App.remoteOf host.file.filename)) .auto).run
      pushed.connection with ⟨result, c⟩
    rw [hrun] at hran
    have hboth := (hasked.trans hran).trans (removeQuietly_asked (App.remoteOf host.file.filename) c)
    refine ⟨_, .pushed _ hregular, ?_⟩
    cases result with
    | error e => exact hboth
    | ok result => exact hboth

end Calls

/-! ### Clients -/

namespace Client

variable {ι α : Type}

/-- What a call with an answer asks for. The calls that bring no stream of their own are not spoken of. -/
def Call.Asks : (c : Call ι) → Except Error c.Answer → List ServiceRequest → Prop
  | .connect .., _, _ => False
  | .stream _, _, _ => False
  | .run command protocol, _, rs => rs = [.shell command protocol]
  | .list path, _, rs => rs = if path.length > Sync.kMaxPathLength then [] else [.sync]
  | .stat path, _, rs => rs = if path.length > Sync.kMaxPathLength then [] else [.sync]
  | .pull .., answer, rs => ∃ r file, answer = .ok (r, file) ∧ Pulling r rs
  | .push file .., answer, rs => ∃ r file', answer = .ok (r, file') ∧ Pushing file r rs
  | .install apk options, answer, rs => ∃ r file, answer = .ok (r, file) ∧ Installing apk options r rs
  | .uninstall package keepData, _, rs => rs = [.shell (App.uninstallCommand package keepData) .auto]
  | .launch package, _, rs => rs = [.shell (App.launchCommand package) .auto]
  | .close package, _, rs => rs = [.shell (App.closeCommand package) .auto]
  | .isRunning package, _, rs => rs = [.shell (App.isRunningCommand package) .auto]

/-- What a client asks for on the way to its result, with some answers to its calls. -/
inductive Asks : Client ι α → α → List ServiceRequest → Prop
  | done (a : α) : Asks (.done a) a []
  | call {c : Call ι} {next : Except Error c.Answer → Client ι α} {answer : Except Error c.Answer} {a : α}
      {rs rest : List ServiceRequest} : c.Asks answer rs → Asks (next answer) a rest →
      Asks (.call c next) a (rs ++ rest)

/-- A command whose output is looked at. -/
theorem command_asked {β : Type} (command : List Byte) (f : CommandResult → β) :
    Prog.Steps (AskedFor [.shell command .auto]) (do
      let result ← Shell.run command .auto
      pure (f result)) := by
  intro c
  rw [Prog.state_bind_pure]
  exact run_asked command .auto c

variable [DecidableEq ι]

theorem Call.perform_asked (b : Build) {c : Call ι} (hc : c.oneShot = true) (s : Streams ι Dialogue) :
    ∃ rs, c.Asks ((c.perform b).run s).1 rs ∧ AskedFor rs s.connection ((c.perform b).run s).2.connection := by
  cases c with
  | connect => cases hc
  | stream => cases hc
  | run command protocol => exact ⟨_, rfl, run_asked command protocol s.connection⟩
  | list path => exact ⟨_, rfl, list_asked path s.connection⟩
  | stat path => exact ⟨_, rfl, stat_asked path s.connection⟩
  | pull remotePath compression file =>
    obtain ⟨rs, hpulling, hasked⟩ := pull_asked b remotePath compression ⟨s.connection, file⟩
    exact ⟨rs, ⟨_, _, rfl, hpulling⟩, hasked⟩
  | push file remotePath compression =>
    obtain ⟨rs, hpushing, hasked⟩ := push_asked b remotePath compression ⟨s.connection, file⟩
    exact ⟨rs, ⟨_, _, rfl, hpushing⟩, hasked⟩
  | install apk options =>
    obtain ⟨rs, hinstalling, hasked⟩ := install_asked b options ⟨s.connection, apk⟩
    exact ⟨rs, ⟨_, _, rfl, hinstalling⟩, hasked⟩
  | uninstall package keepData => exact ⟨_, rfl, command_asked _ _ s.connection⟩
  | launch package => exact ⟨_, rfl, run_asked _ .auto s.connection⟩
  | close package => exact ⟨_, rfl, command_asked _ _ s.connection⟩
  | isRunning package => exact ⟨_, rfl, command_asked _ _ s.connection⟩

/-- Whatever a client of such calls makes of the answers, and whatever the device and the transport do: what goes by
asks for what the calls ask for, in their order. -/
theorem perform_asks (b : Build) {client : Client ι α} (hclient : client.OneShot) (s : Streams ι Dialogue) :
    ∃ a requests, ((client.perform b).run s).1 = .ok a ∧ client.Asks a requests ∧
      AskedFor requests s.connection ((client.perform b).run s).2.connection := by
  induction hclient generalizing s with
  | done a => exact ⟨a, [], rfl, .done a, .refl _⟩
  | @call c next hc _ ih =>
    obtain ⟨rs, hasks, hasked⟩ := Call.perform_asked b hc s
    have hattempt : (Prog.attempt (c.perform b)).run s = (.ok ((c.perform b).run s).1, ((c.perform b).run s).2) :=
      Prog.run_attempt _ _
    obtain ⟨a, rest, hrun, hrest, hasked'⟩ := ih ((c.perform b).run s).1 ((c.perform b).run s).2
    rw [perform, Prog.run_bind_ok hattempt]
    exact ⟨a, rs ++ rest, hrun, .call hasks hrest, hasked.trans hasked'⟩

/-- A client that installs the APK. -/
def installing (apk : LocalFile) : Client Empty Unit := .call (.install apk []) fun _ => .done ()

/-- A device that says nothing. -/
def silentDevice : Streams Empty Dialogue where
  connection := { maxData := 4096, session := { inbox := [] } }
  objects := nofun

/-- The push fails, and the APK is removed. -/
theorem perform_asks_installing :
    bytesOf "shell:rm -f '/data/local/tmp/a,b'" ++ [0] ∈
      openings (((installing Sync.localText).perform {}).run silentDevice).2.session.trace := by
  have hclient : (installing Sync.localText).OneShot := .call rfl fun _ => .done ()
  obtain ⟨a, requests, -, hasks, hasked⟩ := perform_asks {} hclient silentDevice
  cases hasks with
  | call hcall hrest =>
  cases hrest
  obtain ⟨r, file, -, hinstalling⟩ := hcall
  obtain ⟨front, rfl, hfront⟩ := hinstalling.removes rfl
  obtain ⟨es, htrace, -, hall⟩ := hasked.trace
  have hfit : ∀ r ∈ front ++ [ServiceRequest.shell (App.removeCommand (App.remoteOf Sync.localText.filename)) .auto],
      (r.service silentDevice.connection).length + 1 < 2 ^ 32 := by
    intro r hr
    rcases List.mem_append.mp hr with hr | hr
    · rcases hfront r hr with rfl | rfl <;> decide
    · rw [List.mem_singleton.mp hr]
      decide
  have hopenings := hall (by simpa using hfit) rfl
  have hlast : bytesOf "shell:rm -f '/data/local/tmp/a,b'" =
      (ServiceRequest.shell (App.removeCommand (App.remoteOf Sync.localText.filename)) .auto).service
        silentDevice.connection := by decide
  have htrace' : (((installing Sync.localText).perform {}).run silentDevice).2.session.trace = es := htrace
  rw [htrace', hopenings, hlast]
  exact List.mem_map_of_mem (List.mem_append_left [] (List.mem_append_right front (List.mem_singleton_self _)))

end Client

end Adbcpp
