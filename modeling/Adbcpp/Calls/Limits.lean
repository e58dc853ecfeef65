import Adbcpp.Calls
import Adbcpp.Stream.Limits

/-! The device's maximum payload over a whole run of library calls. Stream::write is the
only place at which a size is checked, so that every message but an OPEN is within the
maximum, and an OPEN is where its service is. A write that does not fit is refused
before anything is sent; any other call that needs a larger message has sent
something by the time it finds out, or sends that message. -/

namespace Adbcpp

open Protocol Dialogue StreamOn

variable {terms : Terms}

namespace Sync

/-! ### The sync service -/

section Lifting

variable {φ α : Type}

theorem onStream_within {p : Action (StreamOn Dialogue) α}
    (h : Prog.Steps (WithinOn StreamOn.connection terms) p) :
    Prog.Steps (WithinOn (fun j : Job Dialogue φ => j.on.connection) terms) (onStream p) := onStream_along h

theorem onConnection_within {p : Action (Connection Dialogue) α} (h : Prog.Steps (Within terms) p) :
    Prog.Steps (WithinOn (Host.connection (φ := φ)) terms) (onConnection p) :=
  Prog.Steps.zoom h fun _ _ hw => hw

/-- The OPEN of a sync stream is within the maximum. -/
def OpensSync (terms : Terms) : Prop := (bytesOf "sync:").length + 1 ≤ terms.maxData.toNat

theorem withSyncStream_within (hopens : OpensSync terms) {body : Action (Job Dialogue φ) α}
    (h : Prog.Steps (WithinOn (fun j : Job Dialogue φ => j.on.connection) terms) body) :
    Prog.Steps (WithinOn Host.connection terms) (withSyncStream body) := by
  refine Prog.Steps.bind (onConnection_within (open_within hopens)) fun stream host => ?_
  have hbody : Within terms host.connection
      (body.run ⟨⟨stream, host.connection⟩, host.file⟩).2.on.connection :=
    h ⟨⟨stream, host.connection⟩, host.file⟩
  exact trans_of (Within terms) hbody (closeNow_within _)

end Lifting

/-- A call that refuses a path before it does anything opens a sync stream otherwise. -/
theorem stat_within {path : List Byte} (hopens : path.length ≤ kMaxPathLength → OpensSync terms) :
    Prog.Steps (Within terms) (stat path) := by
  unfold stat
  split
  · exact Prog.Steps.fail _
  next hle =>
  refine Prog.Steps.bind Prog.Steps.get fun c => withStream_within (hopens (Nat.le_of_not_lt hle)) ?_
  refine Prog.Steps.bind (write_within _) fun _ => Prog.Steps.bind (read_within _) fun _ => ?_
  exact Prog.Steps.bind (read_within _) fun _ => Prog.Steps.bind (write_within _) fun _ => Prog.Steps.pure _

theorem list_within {path : List Byte} (hopens : path.length ≤ kMaxPathLength → OpensSync terms) :
    Prog.Steps (Within terms) (list path) := by
  unfold list
  split
  · exact Prog.Steps.fail _
  next hle =>
  refine Prog.Steps.bind Prog.Steps.get fun c => withStream_within (hopens (Nat.le_of_not_lt hle)) ?_
  exact listOn_steps read_within (write_within _) (write_within _)

theorem receiveFile_within (capacity : ℕ) (tooLarge : String) (decoder : ChunkDecoder) :
    Prog.Steps (WithinOn (fun j : Job Dialogue OutputFile => j.on.connection) terms)
      (receiveFile capacity tooLarge decoder) :=
  receiveFile_along (R := WithinOn StreamOn.connection terms) read_within (write_within _) _ _ _

theorem sendFile_within (encode : List Byte → Except Error (List Byte)) :
    Prog.Steps (WithinOn (fun j : Job Dialogue LocalFile => j.on.connection) terms) (sendFile encode) :=
  sendFile_along (R := WithinOn StreamOn.connection terms) read_within (write_within _)
    (fun _ => write_within _) fun _ _ _ _ _ => write_within _

theorem pushV1_within (hopens : OpensSync terms) (destination : List Byte) (mode : UInt32) :
    Prog.Steps (WithinOn Host.connection terms) (pushV1 destination mode) :=
  withSyncStream_within hopens
    (Prog.Steps.bind (onStream_within (write_within _)) fun _ => sendFile_within _)

theorem pushV2_within (hopens : OpensSync terms) (b : Build) (destination : List Byte) (mode : UInt32)
    (codec : CompressionCodec) :
    Prog.Steps (WithinOn Host.connection terms) (pushV2 b destination mode codec) :=
  withSyncStream_within hopens
    (Prog.Steps.bind (onStream_within (write_within _)) fun _ => sendFile_within _)

theorem transferForm_within {φ : Type} (b : Build) (compression : SyncCompression) :
    Prog.Steps (WithinOn (Host.connection (φ := φ)) terms) (transferForm b compression) := by
  intro host
  rw [transferForm_state]
  exact refl_of (WithinOn Host.connection terms) host

theorem stat_ok {path : List Byte} {c c' : Connection Dialogue} {existing : Option FileStat}
    (h : (stat path).run c = (.ok existing, c')) : path.length ≤ kMaxPathLength := by
  by_contra hlong
  rw [stat, if_pos (Nat.lt_of_not_le hlong)] at h
  cases h

/-- A push is within the maximum where the OPEN of a sync stream is: it goes on from a STAT. -/
theorem push_within (b : Build) {remotePath : List Byte} (compression : SyncCompression)
    (hopens : remotePath.length ≤ kMaxPathLength → OpensSync terms) :
    Prog.Steps (WithinOn Host.connection terms) (push b remotePath compression) := by
  refine Prog.Steps.bind Prog.Steps.get fun host => Prog.Steps.ite (Prog.Steps.fail _) ?_
  refine Prog.Steps.bind_run (onConnection_within (stat_within hopens)) fun existing h h' hstat => ?_
  obtain ⟨c, hc, -⟩ := Prog.zoom_eq_ok hstat
  have hopen := hopens (stat_ok hc)
  refine Prog.Steps.bind (transferForm_within b compression) (fun form => ?_) h'
  cases form with
  | none => exact pushV1_within hopen _ _
  | some codec => exact pushV2_within hopen b _ _ codec

/-- A push that succeeds has been given a path that the daemon takes. -/
theorem push_ok {b : Build} {remotePath : List Byte} {compression : SyncCompression}
    {host host' : Host Dialogue LocalFile} (h : (push b remotePath compression).run host = (.ok (), host')) :
    remotePath.length ≤ kMaxPathLength := by
  rw [push, Prog.run_bind_get] at h
  split at h
  · cases h
  obtain ⟨existing, t, hstat, -⟩ := Prog.bind_eq_ok h
  obtain ⟨c, hc, -⟩ := Prog.zoom_eq_ok hstat
  exact stat_ok hc

theorem pullV1_within (hopens : OpensSync terms) (remotePath : List Byte) :
    Prog.Steps (WithinOn Host.connection terms) (pullV1 remotePath) :=
  withSyncStream_within hopens
    (Prog.Steps.bind (onStream_within (write_within _)) fun _ => receiveFile_within _ _ _)

theorem pullV2_within (hopens : OpensSync terms) (b : Build) (remotePath : List Byte)
    (codec : CompressionCodec) : Prog.Steps (WithinOn Host.connection terms) (pullV2 b remotePath codec) :=
  withSyncStream_within hopens
    (Prog.Steps.bind (onStream_within (write_within _)) fun _ => receiveFile_within _ _ _)

theorem pull_within (b : Build) {remotePath : List Byte} {compression : SyncCompression}
    {host : Host Dialogue OutputFile} (hopens : remotePath.length ≤ kMaxPathLength →
      ∀ form, formOf b compression host.connection = .ok form → OpensSync terms) :
    WithinOn Host.connection terms host ((pull b remotePath compression).run host).2 := by
  unfold pull
  split
  · exact refl_of (WithinOn Host.connection terms) host
  next hle =>
  have hstate := transferForm_state b compression host
  have hform : ((transferForm b compression).run host).1 = formOf b compression host.connection :=
    transferForm_congr b compression rfl
  rw [Prog.run_bind]
  generalize (transferForm b compression).run host = r at hstate hform ⊢
  match r with
  | (.error e, h) =>
    cases hstate
    exact refl_of (WithinOn Host.connection terms) h
  | (.ok form, h) =>
    cases hstate
    have hopen := hopens (Nat.le_of_not_lt hle) form hform.symm
    cases form with
    | none => exact pullV1_within hopen remotePath h
    | some codec => exact pullV2_within hopen b remotePath codec h

end Sync

/-! ### Commands -/

/-- The OPEN of a command is within the maximum. -/
def RunFits (terms : Terms) (command : List Byte) (protocol : ShellProtocol) : Prop :=
  ∀ c : Connection Dialogue, c.terms = terms → ∀ n ∈ runNeeds command protocol c, n ≤ terms.maxData.toNat

theorem run_within {command : List Byte} {protocol : ShellProtocol} (h : RunFits terms command protocol) :
    Prog.Steps (Within terms) (Shell.run command protocol) := by
  intro c hterms
  have hfits := h c hterms _ rfl
  rw [Shell.run, Prog.run_bind_get]
  have hread {v2 : Bool} {parse : List Byte → CommandResult}
      (hservice : (Shell.serviceOf v2 command).length + 1 ≤ terms.maxData.toNat) :
      Prog.Steps (Within terms) (withStream (Shell.serviceOf v2 command) do
        let raw ← StreamOn.readAll
        pure (parse raw)) :=
    withStream_within hservice (Prog.Steps.bind readAll_within fun _ => Prog.Steps.pure _)
  by_cases hv2 : Shell.usesV2 c protocol = true
  · rw [hv2] at hfits
    rw [if_neg (by simp [hv2])]
    exact hread hfits c hterms
  · rw [Bool.not_eq_true] at hv2
    rw [hv2] at hfits
    rw [if_pos (by simp [hv2])]
    exact hread hfits c hterms

theorem removeQuietly_within {path : List Byte} (h : RunFits terms (App.removeCommand path) .auto) :
    Prog.Steps (Within terms) (App.removeQuietly path) :=
  Prog.Steps.bind (Prog.Steps.attempt (run_within h)) fun _ => Prog.Steps.pure _

open Sync in
theorem install_within (b : Build) {options : List Byte} {host : Host Dialogue LocalFile}
    (hfits : host.file.isRegular = true → RunFits terms (App.removeCommand (App.remoteOf host.file.filename)) .auto ∧
      ((App.remoteOf host.file.filename).length ≤ kMaxPathLength → OpensSync terms ∧
        RunFits terms (App.installCommand options (App.remoteOf host.file.filename)) .auto)) :
    WithinOn Host.connection terms host ((App.install b options).run host).2 := by
  rw [App.install, Prog.run_bind_get]
  split
  · exact refl_of (WithinOn Host.connection terms) host
  next hregular =>
  obtain ⟨hremove, hopens⟩ := hfits (by simpa using hregular)
  have hremove' : Prog.Steps (WithinOn (Host.connection (φ := LocalFile)) terms)
      (onConnection (App.removeQuietly (App.remoteOf host.file.filename))) :=
    onConnection_within (removeQuietly_within hremove)
  refine Prog.Steps.bind_run (Prog.Steps.attempt (push_within b .auto fun h => (hopens h).1))
    (fun pushed h h' hpush => ?_) host
  cases pushed with
  | error e => exact Prog.Steps.bind hremove' (fun _ => Prog.Steps.fail _) h'
  | ok _ =>
    rw [Prog.run_attempt, Prod.mk.injEq] at hpush
    have hok := push_ok (Prod.ext (Except.ok.inj hpush.1) rfl)
    refine Prog.Steps.bind (Prog.Steps.attempt (onConnection_within (run_within (hopens hok).2)))
      (fun result => Prog.Steps.bind hremove' fun _ => ?_) h'
    cases result with
    | error e => exact Prog.Steps.fail _
    | ok result => exact Prog.Steps.pure _

/-! ### Runs -/

namespace Streams

variable {ι : Type}

theorem onConnection_within {α : Type} {p : Action (Connection Dialogue) α} {s : Streams ι Dialogue}
    (h : Within terms s.connection (p.run s.connection).2) :
    WithinOn Streams.connection terms s ((onConnection p).run s).2 := by
  rw [onConnection, Prog.run_bind, Prog.run_zoom]
  match p.run s.connection, h with
  | (.ok a, c), h => exact h
  | (.error e, c), h => exact h

variable [DecidableEq ι]

theorem use_within (x : ι) {p : Action (StreamOn Dialogue) (List Byte)}
    (h : Prog.Steps (WithinOn StreamOn.connection terms) p) :
    Prog.Steps (WithinOn (Streams.connection (ι := ι)) terms) (use x p) := by
  intro s
  cases hx : s.objects x with
  | none =>
    rw [run_use_none hx]
    exact refl_of (WithinOn Streams.connection terms) s
  | some o =>
    rw [run_use hx]
    exact h (s.view o)

/-- An operation on a stream object is within the maximum, and an OPEN is where its service is. -/
theorem exec_within {op : Operation ι} {s : Streams ι Dialogue}
    (h : ∀ x service, op = .open x service → s.objects x = none → service.length + 1 ≤ terms.maxData.toNat) :
    WithinOn Streams.connection terms s ((exec op).run s).2 := by
  have hrefl : WithinOn Streams.connection terms s s := refl_of (WithinOn Streams.connection terms) s
  cases op with
  | «open» x service =>
    cases hx : s.objects x with
    | some o => simpa [exec, Prog.run, hx] using hrefl
    | none =>
      have hopen := open_within (h x service rfl hx) s.connection
      simp only [exec, Prog.run, hx] at hopen ⊢
      match Stream.open service s.connection, hopen with
      | (.ok stream, c), hopen => exact hopen
      | (.error e, c), hopen => exact hopen
  | moveConstruct x y =>
    cases hx : s.objects x with
    | some o => simpa [exec, Prog.run, hx] using hrefl
    | none =>
      cases hy : s.objects y with
      | none => simpa [exec, Prog.run, hx, hy] using hrefl
      | some o =>
        simp only [exec, Prog.run, hx, hy]
        exact hrefl
  | moveAssign x y =>
    cases hx : s.objects x with
    | none => simpa [exec, Prog.run, hx] using hrefl
    | some target =>
      cases hy : s.objects y with
      | none => simpa [exec, Prog.run, hx, hy] using hrefl
      | some o =>
        by_cases hxy : x = y
        · simpa [exec, Prog.run, hx, hy, hxy] using hrefl
        · simp only [exec, Prog.run, hx, hy, if_neg hxy]
          exact closeNow_within (s.view target)
  | write x data =>
    exact use_within x (Prog.Steps.bind (write_within data) fun _ => Prog.Steps.pure _) s
  | read x size => exact use_within x (read_within size) s
  | readAll x => exact use_within x readAll_within s
  | destroy x =>
    cases hx : s.objects x with
    | none => simpa [exec, Prog.run, hx] using hrefl
    | some o =>
      simp only [exec, Prog.run, hx]
      exact closeNow_within (s.view o)

end Streams

namespace LibraryCall

variable {ι : Type} [DecidableEq ι]

open Sync

/-- A call keeps to the maximum of its connection: every message that it attempts is within it, and where
the call has to send more it fails with an invalid argument, before the session is used. -/
def KeepsMaximum (b : Build) (call : LibraryCall ι) (s : Streams ι Dialogue) : Prop :=
  Attempted (·.header.dataLength ≤ s.connection.maxData) s.session ((call.perform b).run s).2.session ∧
    ((∃ n ∈ call.needs b s, s.connection.maxData.toNat < n) → ∃ e, e.code = .invalidArgument ∧
      ((call.perform b).run s).1 = .error e ∧ ((call.perform b).run s).2.session = s.session)

/-- The call is a write, or what it has to send fits. -/
def Fits (b : Build) (call : LibraryCall ι) (s : Streams ι Dialogue) : Prop :=
  (∃ x data, call = .stream (.write x data)) ∨ ∀ n ∈ call.needs b s, n ≤ s.connection.maxData.toNat

theorem runFits_of_needs {command : List Byte} {protocol : ShellProtocol} {c : Connection Dialogue}
    (h : ∀ n ∈ runNeeds command protocol c, n ≤ c.maxData.toNat) : RunFits c.terms command protocol := by
  intro c' hterms
  have hfeatures : c'.features = c.features := congrArg Terms.features hterms
  rwa [runNeeds, Shell.usesV2, Connection.supportsFeature, hfeatures]

theorem opensSync_of_pathNeeds {id : UInt32} {path : List Byte} {c : Connection Dialogue}
    (h : ∀ n ∈ pathNeeds id path, n ≤ c.maxData.toNat) (hle : path.length ≤ kMaxPathLength) :
    OpensSync c.terms := by
  refine h _ ?_
  rw [pathNeeds, if_neg (Nat.not_lt.mpr hle)]
  exact Set.mem_insert _ _

theorem opensSync_of_pushNeeds {b : Build} {file : LocalFile} {path : List Byte}
    {compression : SyncCompression}
    {c : Connection Dialogue} (h : ∀ n ∈ pushNeeds b file path compression c, n ≤ c.maxData.toNat)
    (hregular : file.isRegular = true) (hle : path.length ≤ kMaxPathLength) : OpensSync c.terms := by
  have hstat : ∀ n ∈ statNeeds path c, n ≤ c.maxData.toNat := by
    intro n hn
    refine h n ?_
    rw [pushNeeds, if_neg (by simp [hregular])]
    exact .inl hn
  exact opensSync_of_pathNeeds hstat hle

/-- The files of an installation fit, as far as it gets to them. -/
theorem installFits_of_needs {b : Build} {apk : LocalFile} {options : List Byte} {c : Connection Dialogue}
    (h : ∀ n ∈ installNeeds b apk options c, n ≤ c.maxData.toNat) (hregular : apk.isRegular = true) :
    RunFits c.terms (App.removeCommand (App.remoteOf apk.filename)) .auto ∧
      ((App.remoteOf apk.filename).length ≤ kMaxPathLength → OpensSync c.terms ∧
        RunFits c.terms (App.installCommand options (App.remoteOf apk.filename)) .auto) := by
  rw [installNeeds, if_neg (by simp [hregular])] at h
  by_cases hle : (App.remoteOf apk.filename).length ≤ kMaxPathLength
  · rw [if_neg (Nat.not_lt.mpr hle)] at h
    refine ⟨runFits_of_needs fun n hn => h n (.inr hn), fun _ => ⟨?_, ?_⟩⟩
    · exact opensSync_of_pushNeeds (fun n hn => h n (.inl (.inl hn))) hregular hle
    · exact runFits_of_needs fun n hn => h n (.inl (.inr hn))
  · rw [if_pos (Nat.lt_of_not_le hle)] at h
    exact ⟨runFits_of_needs h, fun hle' => absurd hle' hle⟩

theorem opensSync_of_pullNeeds {b : Build} {path : List Byte} {compression : SyncCompression}
    {c : Connection Dialogue} (h : ∀ n ∈ pullNeeds b path compression c, n ≤ c.maxData.toNat)
    (hle : path.length ≤ kMaxPathLength) {form : Option CompressionCodec}
    (hform : formOf b compression c = .ok form) : OpensSync c.terms := by
  refine h _ ?_
  rw [pullNeeds, if_neg (Nat.not_lt.mpr hle), hform]
  exact Set.mem_insert _ _

/-- A push of a file is within the maximum where what it has to send fits. -/
theorem withFile_push_within {b : Build} {file : LocalFile} {path : List Byte} {compression : SyncCompression}
    {c : Connection Dialogue} (h : ∀ n ∈ pushNeeds b file path compression c, n ≤ c.maxData.toNat) :
    Within c.terms c ((withFile file (Sync.push b path compression)).run c).2 := by
  by_cases hregular : file.isRegular = true
  · exact push_within b compression (opensSync_of_pushNeeds h hregular) ⟨c, file⟩
  · rw [withFile, Prog.run_zoom, Sync.push, Prog.run_bind_get, if_pos (by simpa using hregular)]
    exact refl_of (Within c.terms) c

/-- A call that fits attempts no message beyond the maximum. -/
theorem perform_within {b : Build} {call : LibraryCall ι} {s : Streams ι Dialogue} (h : call.Fits b s) :
    WithinOn Streams.connection s.connection.terms s ((call.perform b).run s).2 := by
  have hneeds (hcall : ∀ op, call ≠ .stream op) : ∀ n ∈ call.needs b s, n ≤ s.connection.maxData.toNat := by
    rcases h with ⟨x, data, rfl⟩ | h
    · exact absurd rfl (hcall _)
    · exact h
  cases call with
  | stream op =>
    have hstate : ((perform b (.stream op)).run s).2 = ((Streams.exec op).run s).2 := by
      rw [perform, Prog.run_bind]
      match (Streams.exec op).run s with
      | (.ok a, t) => rfl
      | (.error e, t) => rfl
    rw [hstate]
    refine Streams.exec_within fun x service hop hx => ?_
    subst hop
    rcases h with ⟨y, data, hcall⟩ | h
    · cases hcall
    · exact h _ (by simp [needs, hx])
  | run command protocol =>
    exact Streams.onConnection_within (run_within (runFits_of_needs (hneeds nofun)) s.connection)
  | list path =>
    exact Streams.onConnection_within (list_within (opensSync_of_pathNeeds (hneeds nofun)) s.connection)
  | stat path =>
    exact Streams.onConnection_within (stat_within (opensSync_of_pathNeeds (hneeds nofun)) s.connection)
  | pull remotePath compression file =>
    have hpull := @pull_within s.connection.terms b remotePath compression ⟨s.connection, file⟩
      fun hle _ hform => opensSync_of_pullNeeds (hneeds nofun) hle hform
    exact Streams.onConnection_within hpull
  | push file remotePath compression =>
    exact Streams.onConnection_within (withFile_push_within (hneeds nofun))
  | install apk options =>
    have hinstall := @install_within s.connection.terms b options ⟨s.connection, apk⟩
      (installFits_of_needs (hneeds nofun))
    exact Streams.onConnection_within hinstall

/-- A write that does not fit is refused before the session is used. -/
theorem perform_write_refused (b : Build) {x : ι} {data : List Byte} {s : Streams ι Dialogue} {o : Object}
    (hx : s.objects x = some o) (hlarge : s.connection.maxData.toNat < data.length) :
    (perform b (.stream (.write x data))).run s = (.error writeTooLarge, s) := by
  have hwrite : (StreamOn.write data).run (s.view o) = (.error writeTooLarge, s.view o) := write_refused hlarge
  have hexec : (Streams.exec (.write x data)).run s = (.error writeTooLarge, s) := by
    rw [Streams.exec, Streams.run_use hx, Prog.run_bind_error hwrite]
    exact congrArg (Prod.mk _) (Streams.set_eq_self hx)
  rw [perform, Prog.run_bind_error hexec]

theorem Fits.keepsMaximum {b : Build} {call : LibraryCall ι} {s : Streams ι Dialogue} (h : call.Fits b s) :
    call.KeepsMaximum b s := by
  refine ⟨(perform_within h rfl).2, ?_⟩
  rintro ⟨n, hn, hlarge⟩
  rcases h with ⟨x, data, rfl⟩ | h
  · cases hx : s.objects x with
    | none => simp [needs, hx] at hn
    | some o =>
      obtain rfl : n = data.length := by simpa [needs, hx] using hn
      rw [perform_write_refused b hx hlarge]
      exact ⟨_, rfl, rfl, rfl⟩
  · exact absurd (h n hn) (Nat.not_le.mpr hlarge)

/-- In every run whose calls fit, or are writes, every call keeps to the negotiated maximum, and so does the
run as a whole. -/
theorem keepsMaximum_of_fits (b : Build) (calls : List (LibraryCall ι)) (s : Streams ι Dialogue)
    (h : Every b (Fits b) calls s) : Every b (KeepsMaximum b) calls s ∧
      Attempted (·.header.dataLength ≤ s.connection.maxData) s.session (after b calls s).session := by
  induction calls generalizing s with
  | nil => exact ⟨trivial, refl_of (Attempted _) s.session⟩
  | cons call calls ih =>
    obtain ⟨hterms, hattempted⟩ := perform_within h.1 rfl
    have hmax : ((call.perform b).run s).2.connection.maxData = s.connection.maxData :=
      congrArg Terms.maxData hterms
    obtain ⟨hevery, hrun⟩ := ih _ h.2
    rw [hmax] at hrun
    exact ⟨⟨h.1.keepsMaximum, hevery⟩, trans_of (Attempted _) hattempted hrun⟩

/-- A device of the oldest payload size, without any stream. -/
def oldStreams : Streams (Fin 1) Dialogue where
  connection := oldDevice

theorem keepsMaximum_of_fits_oldStreams : Every {} (KeepsMaximum {})
    [.stream (.open 0 (bytesOf "shell:")), .run (bytesOf "ls") .auto,
      .stream (.write 0 (List.replicate 5000 0))] oldStreams := by
  have hfits : Every {} (Fits {}) [.stream (.open 0 (bytesOf "shell:")), .run (bytesOf "ls") .auto,
      .stream (.write 0 (List.replicate 5000 0))] oldStreams := by
    refine ⟨.inr ?_, .inr ?_, .inl ⟨0, _, rfl⟩, trivial⟩
    · rintro _ rfl
      decide
    · rintro _ rfl
      decide
  exact (keepsMaximum_of_fits {} _ oldStreams hfits).1

/-- An OPEN that is answered has been sent, however long its service is. -/
theorem open_not_keepsMaximum (b : Build) {x : ι} {service : List Byte} {s : Streams ι Dialogue}
    (hx : s.objects x = none) (hanswered : openTaken service s.connection ≠ [])
    (hlarge : s.connection.maxData.toNat < service.length + 1) :
    ¬ KeepsMaximum b (.stream (.open x service)) s := by
  obtain ⟨fs, r, es, d, hopen, hopening, htrace, -, -, hfs⟩ := open_opening service s.connection
  have hgoes : OpenGoes service s.connection := by
    by_contra hstays
    exact hanswered (if_neg hstays)
  have hsent : openOf service s.connection ∈ attempts es := by
    cases hopening with
    | unsent => exact absurd hfs.symm hanswered
    | unanswered | refused | accepted => exact List.mem_cons_self
  have hsession : ((perform b (.stream (.open x service))).run s).2.session = d := by
    have hexec : ((Streams.exec (.open x service)).run s).2.session = d := by
      simp only [Streams.exec, Prog.run, hx] at hopen ⊢
      rw [hopen]
      cases r <;> rfl
    rw [perform, Prog.run_bind]
    match (Streams.exec (.open x service)).run s, hexec with
    | (.ok a, t), hexec => exact hexec
    | (.error e, t), hexec => exact hexec
  rintro ⟨⟨new, hnew, hwithin⟩, -⟩
  rw [hsession, htrace] at hnew
  obtain rfl : es = new := List.append_cancel_left hnew
  have hle := UInt32.le_iff_toNat_le.mp (hwithin _ hsent)
  have hsized : (openOf service s.connection).header.dataLength.toNat = service.length + 1 := by
    rw [← length_service service]
    exact openOf_sized hgoes.2.1 s.connection
  omega

/-- A service of 4096 bytes makes an OPEN of 4097 bytes. -/
theorem open_exceeds_maximum :
    ¬ Every {} (KeepsMaximum {}) [.stream (.open 0 (List.replicate 4096 97))] oldStreams := by
  have hlength : (List.replicate 4096 (97 : Byte)).length = 4096 := List.length_replicate
  generalize List.replicate 4096 (97 : Byte) = service at hlength ⊢
  have hgoes : OpenGoes service oldStreams.connection :=
    ⟨rfl, by omega, by simp [oldStreams, oldDevice, acceptingDevice]⟩
  refine fun h => open_not_keepsMaximum {} rfl ?_ ?_ h.1
  · rw [openTaken, if_pos hgoes]
    simp [oldStreams, oldDevice, acceptingDevice, awaited]
  · rw [hlength]
    decide

end LibraryCall

end Adbcpp
