import Adbcpp.Calls.Limits
import Adbcpp.Stream.Identity
import Adbcpp.Streams.Effects

/-! The paths of sync requests. The daemon takes a path of 1024 bytes at most. A request that
carries the path of the caller is refused before anything is sent when that path is longer, but a
push goes on to a path of its own making: it puts the local name behind a directory, and the mode
behind the path in the v1 form. -/

namespace Adbcpp

open Protocol Dialogue StreamOn

theorem Dialogue.Attempt.mem {f : Frame} {r : Except Error Unit} {new : List Event} (h : Attempt f r new)
    (hnew : new ≠ []) : .sent f ∈ new ∨ .unsent f ∈ new := by
  cases h with
  | sent => exact .inl (List.mem_singleton_self _)
  | unsent e => exact .inr (List.mem_singleton_self _)
  | refused e => exact absurd rfl hnew

namespace Sync

/-! ### Requests with a path -/

/-- The ids of the requests that carry a path. -/
def pathIds : List UInt32 := [kListV1, kListV2, kStatV1, kStatV2, kRecvV1, kRecvV2, kSendV1, kSendV2]

/-- The length field of a payload that is a request with a path. -/
def pathLength (payload : List Byte) : Option ℕ :=
  if readU32LE payload ∈ pathIds then some (readU32LE (payload.drop 4)).toNat else none

/-- The path of a request is not longer than the daemon takes. -/
def KeepsPathLimit (payload : List Byte) : Prop := ∀ n, pathLength payload = some n → n ≤ kMaxPathLength

theorem pathLength_packet {id : UInt32} {path : List Byte} (hid : id ∈ pathIds) (hlt : path.length < 2 ^ 32)
    (rest : List Byte) : pathLength (packet id path ++ rest) = some path.length := by
  have hdrop : (packet id path ++ rest).drop 4 = writeU32LE (UInt32.ofNat path.length) ++ (path ++ rest) := by
    rw [packet_append]
    rfl
  have hfront : readU32LE (packet id path ++ rest) = id := by
    rw [packet_append, readU32LE_writeU32LE]
  rw [pathLength, hfront, if_pos hid, hdrop, readU32LE_writeU32LE, toNat_length hlt]

theorem keepsPathLimit_other {id : UInt32} (hid : id ∉ pathIds) (rest : List Byte) :
    KeepsPathLimit (writeU32LE id ++ rest) := by
  intro n hn
  rw [pathLength, readU32LE_writeU32LE, if_neg hid] at hn
  cases hn

theorem keepsPathLimit_packet {path : List Byte} (h : path.length ≤ kMaxPathLength) (id : UInt32)
    (rest : List Byte) : KeepsPathLimit (packet id path ++ rest) := by
  by_cases hid : id ∈ pathIds
  · intro n hn
    have hlt : path.length < 2 ^ 32 := Nat.lt_of_le_of_lt h (by decide)
    rw [pathLength_packet hid hlt] at hn
    cases hn
    exact h
  · rw [packet_append]
    exact keepsPathLimit_other hid _

theorem kData_not_mem_pathIds : kData ∉ pathIds := by decide
theorem kDone_not_mem_pathIds : kDone ∉ pathIds := by decide

/-- A request is attempted whose path is within the limit, or nothing is. -/
theorem writeRequest_keepsPathLimit {path : List Byte} (h : path.length ≤ kMaxPathLength) (id : UInt32)
    (rest : List Byte) :
    Prog.Steps (OnlyWrites StreamOn.session KeepsPathLimit) (write (packet id path ++ rest)) :=
  write_onlyWrites fun _ => keepsPathLimit_packet h id rest

theorem writePathRequest_keepsPathLimit {path : List Byte} (h : path.length ≤ kMaxPathLength) (id : UInt32) :
    Prog.Steps (OnlyWrites StreamOn.session KeepsPathLimit) (writePathRequest id path) := by
  have hwrite := writeRequest_keepsPathLimit h id []
  rwa [List.append_nil] at hwrite

theorem writeQuit_keepsPathLimit : Prog.Steps (OnlyWrites StreamOn.session KeepsPathLimit) writeQuit :=
  writePathRequest_keepsPathLimit (Nat.zero_le _) kQuit

theorem sendFile_keepsPathLimit (encode : List Byte → Except Error (List Byte)) :
    Prog.Steps (OnlyWrites Job.session KeepsPathLimit) (sendFile encode) := by
  refine sendFile_along read_onlyWrites writeQuit_keepsPathLimit (fun mtime => ?_) fun _ payload _ _ _ => ?_
  · exact write_onlyWrites fun _ => keepsPathLimit_other kDone_not_mem_pathIds _
  · apply write_onlyWrites
    intro _
    rw [packet, List.append_assoc]
    exact keepsPathLimit_other kData_not_mem_pathIds _

theorem receiveFile_keepsPathLimit (limit : ℕ) (tooLarge : String) (decoder : ChunkDecoder) :
    Prog.Steps (OnlyWrites Job.session KeepsPathLimit) (receiveFile limit tooLarge decoder) :=
  receiveFile_along read_onlyWrites writeQuit_keepsPathLimit limit tooLarge decoder

/-! ### Requests for the path of the caller -/

/-- A call that attempts no request with a path over the limit, and refuses a path that is too long. -/
structure KeepsPaths {α : Type} (tooLong : Prop) (r : Except Error α) (d d' : Dialogue) : Prop where
  written : WritesOnly KeepsPathLimit d d'
  refused : tooLong → ∃ e, r = .error e ∧ e.code = .invalidArgument

/-- A call that refuses a path over the limit before it does anything. -/
theorem keepsPaths_guarded {α σ : Type} (view : σ → Dialogue) {path : List Byte} {p : Action σ α}
    (h : path.length ≤ kMaxPathLength → Prog.Steps (OnlyWrites view KeepsPathLimit) p) (s : σ) :
    KeepsPaths (kMaxPathLength < path.length)
      ((if path.length > kMaxPathLength then Prog.fail (.of .invalidArgument
        "the path is longer than the sync limit of 1024 bytes") else p : Action σ α).run s).1 (view s)
      (view ((if path.length > kMaxPathLength then Prog.fail (.of .invalidArgument
        "the path is longer than the sync limit of 1024 bytes") else p : Action σ α).run s).2) := by
  by_cases hlong : path.length > kMaxPathLength
  · rw [if_pos hlong]
    exact ⟨refl_of (WritesOnly KeepsPathLimit) (view s), fun _ => ⟨_, rfl, rfl⟩⟩
  · rw [if_neg hlong]
    exact ⟨h (Nat.le_of_not_lt hlong) s, fun h => absurd h hlong⟩

theorem list_keepsPaths (path : List Byte) (c : Connection Dialogue) : KeepsPaths
    (kMaxPathLength < path.length) ((list path).run c).1 c.session ((list path).run c).2.session := by
  apply keepsPaths_guarded Connection.session
  intro hle
  refine Prog.Steps.bind Prog.Steps.get fun c => withStream_onlyWrites _ ?_
  exact listOn_steps read_onlyWrites (writePathRequest_keepsPathLimit hle _) writeQuit_keepsPathLimit

theorem stat_keepsPaths (path : List Byte) (c : Connection Dialogue) : KeepsPaths
    (kMaxPathLength < path.length) ((stat path).run c).1 c.session ((stat path).run c).2.session := by
  apply keepsPaths_guarded Connection.session
  intro hle
  refine Prog.Steps.bind Prog.Steps.get fun c => withStream_onlyWrites _ ?_
  refine Prog.Steps.bind (writePathRequest_keepsPathLimit hle _) fun _ => ?_
  refine Prog.Steps.bind (read_onlyWrites _) fun _ => Prog.Steps.bind (read_onlyWrites _) fun _ => ?_
  exact Prog.Steps.bind writeQuit_keepsPathLimit fun _ => Prog.Steps.pure _

theorem pull_keepsPaths (b : Build) (remotePath : List Byte) (compression : SyncCompression)
    (host : Host Dialogue OutputFile) : KeepsPaths (kMaxPathLength < remotePath.length)
      ((pull b remotePath compression).run host).1 host.session
      ((pull b remotePath compression).run host).2.session := by
  apply keepsPaths_guarded Host.session
  intro hle
  refine Prog.Steps.bind (fun h => ?_) fun form => ?_
  · rw [transferForm_state]
    exact refl_of (WritesOnly KeepsPathLimit) h.session
  cases form with
  | none =>
    exact withSyncStream_onlyWrites (Prog.Steps.bind (onStream_onlyWrites
      (writePathRequest_keepsPathLimit hle _)) fun _ => receiveFile_keepsPathLimit _ _ _)
  | some codec =>
    have hwrite := writeRequest_keepsPathLimit hle kRecvV2
      (writeU32LE kRecvV2 ++ writeU32LE (syncFlagOf codec))
    rw [← List.append_assoc] at hwrite
    exact withSyncStream_onlyWrites (Prog.Steps.bind (onStream_onlyWrites hwrite)
      fun _ => receiveFile_keepsPathLimit _ _ _)

/-! ### Requests for a path of the library's making -/

/-- The path that the request of a push carries. -/
def sendPath (destination : List Byte) (mode : UInt32) : Option CompressionCodec → List Byte
  | none => sendSpec destination mode
  | some _ => destination

/-- The id of the request of a push, and what follows its path. -/
theorem exists_sendRequest (destination : List Byte) (mode : UInt32) (form : Option CompressionCodec) :
    ∃ id rest, id ∈ pathIds ∧
      sendRequest destination mode form = packet id (sendPath destination mode form) ++ rest := by
  cases form with
  | none => exact ⟨kSendV1, [], by decide, (List.append_nil _).symm⟩
  | some codec =>
    refine ⟨kSendV2, sendSetup mode (syncFlagOf codec), by decide, ?_⟩
    simp only [sendRequest, sendV2Request, sendPath, sendSetup, List.append_assoc]

/-- The path that a push is about to ask for, and the connection it is about to ask on: the STAT has been
answered, and there is a form for the transfer. -/
structure Sends (b : Build) (remotePath : List Byte) (compression : SyncCompression)
    (host : Host Dialogue LocalFile) (existing : Option FileStat) (form : Option CompressionCodec)
    (c : Connection Dialogue) : Prop where
  regular : host.file.isRegular = true
  answered : (stat remotePath).run host.connection = (.ok existing, c)
  chosen : formOf b compression host.connection = .ok form

/-- What a push sends on a stream of its own. -/
def sendBody (b : Build) (destination : List Byte) (mode : UInt32) (form : Option CompressionCodec) :
    Action (Job Dialogue LocalFile) Unit := do
  onStream (write (sendRequest destination mode form))
  sendFile (encodingOf b form)

variable {b : Build} {remotePath : List Byte} {compression : SyncCompression} {host : Host Dialogue LocalFile}
  {existing : Option FileStat} {form : Option CompressionCodec} {c : Connection Dialogue}

theorem Sends.unique (h : Sends b remotePath compression host existing form c) {existing' : Option FileStat}
    {form' : Option CompressionCodec} {c' : Connection Dialogue}
    (h' : Sends b remotePath compression host existing' form' c') : existing' = existing ∧ form' = form ∧ c' = c := by
  have hstat := h'.answered.symm.trans h.answered
  have hform := h'.chosen.symm.trans h.chosen
  cases hstat
  cases hform
  exact ⟨rfl, rfl, rfl⟩

theorem stat_features (path : List Byte) (c : Connection Dialogue) :
    ((stat path).run c).2.features = c.features ∧ ((stat path).run c).2.maxData = c.maxData := by
  have hsteps : Prog.Steps SameDevice (stat path : Action (Connection Dialogue) (Option FileStat)) := by
    refine Prog.Steps.ite (Prog.Steps.fail _) (Prog.Steps.bind Prog.Steps.get fun c => ?_)
    refine withStream_sameDevice _ (Prog.Steps.bind (write_sameLocal _) fun _ => ?_)
    refine Prog.Steps.bind (read_sameLocal _) fun _ => Prog.Steps.bind (read_sameLocal _) fun _ => ?_
    exact Prog.Steps.bind (write_sameLocal _) fun _ => Prog.Steps.pure _
  have hsame := hsteps c
  exact ⟨hsame.features, hsame.maxData⟩

/-- The form of a push does not depend on the answer to the STAT. -/
theorem transferForm_stat (b : Build) (compression : SyncCompression) {r : Except Error (Option FileStat)}
    (hstat : (stat remotePath).run host.connection = (r, c)) :
    (transferForm b compression).run (⟨c, host.file⟩ : Host Dialogue LocalFile) =
      (formOf b compression host.connection, ⟨c, host.file⟩) := by
  have hsame := (stat_features remotePath host.connection).1
  rw [hstat] at hsame
  exact Prod.ext (transferForm_congr b compression hsame) (transferForm_state b compression _)

/-- A push goes on from its STAT with the request for its destination. -/
theorem Sends.run_push (h : Sends b remotePath compression host existing form c) :
    (push b remotePath compression).run host =
      (withSyncStream (sendBody b (destinationOf remotePath existing host.file) host.file.mode form)).run
        ⟨c, host.file⟩ := by
  have hstat : (onConnection (stat remotePath)).run host = (.ok existing, ⟨c, host.file⟩) := by
    rw [run_onConnection, h.answered]
  have hform := transferForm_stat b compression h.answered
  rw [h.chosen] at hform
  rw [push, Prog.run_bind_get, if_neg (by simp [h.regular]), Prog.run_bind_ok hstat, Prog.run_bind_ok hform]
  cases form with
  | none => rfl
  | some codec => rfl

/-- A push with a path over the limit: its own request, or that for the path of the caller. -/
def PushTooLong (b : Build) (remotePath : List Byte) (compression : SyncCompression)
    (host : Host Dialogue LocalFile) : Prop :=
  kMaxPathLength < remotePath.length ∨ ∃ existing form c, Sends b remotePath compression host existing form c ∧
    kMaxPathLength < (sendPath (destinationOf remotePath existing host.file) host.file.mode form).length

/-- The path of a push is within the limit, or its request cannot be sent: the device takes no payload of
its size, or no stream for it can be opened and that counts as an invalid argument too. -/
def SendFits (b : Build) (remotePath : List Byte) (compression : SyncCompression)
    (host : Host Dialogue LocalFile) : Prop :=
  ∀ existing form c, Sends b remotePath compression host existing form c →
    (sendPath (destinationOf remotePath existing host.file) host.file.mode form).length ≤ kMaxPathLength ∨
      match ((Stream.open (bytesOf "sync:")).run c).1 with
      | .ok _ => host.connection.maxData.toNat <
          (sendRequest (destinationOf remotePath existing host.file) host.file.mode form).length
      | .error e => e.code = .invalidArgument

/-- Without an answer to the STAT or without a form a push ends there, with that error. -/
theorem push_ends {b : Build} {remotePath : List Byte} {compression : SyncCompression}
    {host : Host Dialogue LocalFile} (hsends : ¬ ∃ existing form c, Sends b remotePath compression host existing form c) :
    KeepsPaths (kMaxPathLength < remotePath.length) ((push b remotePath compression).run host).1 host.session
      ((push b remotePath compression).run host).2.session := by
  have hkept := stat_keepsPaths remotePath host.connection
  rw [push, Prog.run_bind_get]
  by_cases hregular : host.file.isRegular = true
  swap
  · rw [if_pos (by simpa using hregular)]
    exact ⟨refl_of (WritesOnly KeepsPathLimit) host.session, fun _ => ⟨_, rfl, rfl⟩⟩
  rw [if_neg (by simp [hregular])]
  cases hstat : (stat remotePath).run host.connection with
  | mk r c =>
    have hrun : (onConnection (stat remotePath)).run host = (r, ⟨c, host.file⟩) := by
      rw [run_onConnection, hstat]
    rw [hstat] at hkept
    cases r with
    | error e =>
      rw [Prog.run_bind_error hrun]
      refine ⟨hkept.written, fun hlong => ?_⟩
      obtain ⟨e', he, hcode⟩ := hkept.refused hlong
      cases he
      exact ⟨e, rfl, hcode⟩
    | ok existing =>
      have hform := transferForm_stat b compression hstat
      cases hchosen : formOf b compression host.connection with
      | ok form => exact absurd ⟨existing, form, c, hregular, hstat, hchosen⟩ hsends
      | error e =>
        rw [hchosen] at hform
        rw [Prog.run_bind_ok hrun, Prog.run_bind_error hform]
        exact ⟨hkept.written, fun hlong => absurd (stat_ok hstat) (Nat.not_le_of_lt hlong)⟩

/-! ### The request of a push -/

/-- A WRTE that was attempted somewhere between two states. -/
theorem not_writesOnly {P : List Byte → Prop} {d e f g : Dialogue} {frame : Frame} {new : List Event}
    (hde : WritesOnly (fun _ => True) d e) (hef : f.trace = e.trace ++ new)
    (hmem : .sent frame ∈ new ∨ .unsent frame ∈ new) (hwrte : frame.header.command = kWrte)
    (hnot : ¬ P frame.payload) (hfg : WritesOnly (fun _ => True) f g) : ¬ WritesOnly P d g := by
  rintro ⟨all, hall, hP⟩
  obtain ⟨before, hbefore, -⟩ := hde
  obtain ⟨behind, hbehind, -⟩ := hfg
  rw [hbehind, hef, hbefore, List.append_assoc, List.append_assoc] at hall
  have hsplit := List.append_cancel_left hall
  apply hnot
  apply hP frame _ hwrte
  rw [← hsplit]
  simp only [List.mem_append]
  rcases hmem with hmem | hmem
  · exact .inl (.inr (.inl hmem))
  · exact .inr (.inr (.inl hmem))

theorem sendBody_onlyWrites {P : List Byte → Prop} {destination : List Byte} {mode : UInt32}
    {form : Option CompressionCodec}
    (hrequest : Prog.Steps (OnlyWrites StreamOn.session P) (write (sendRequest destination mode form)))
    (hfile : Prog.Steps (OnlyWrites Job.session P) (sendFile (encodingOf b form))) :
    Prog.Steps (OnlyWrites Host.session P) (withSyncStream (sendBody b destination mode form)) :=
  withSyncStream_onlyWrites (Prog.Steps.bind (onStream_onlyWrites hrequest) fun _ => hfile)

variable {host' : Host Dialogue LocalFile} {destination : List Byte} {mode : UInt32} {stream : Stream}
  {c' : Connection Dialogue}

/-- A stream that fails to open is all that a push attempts. -/
theorem sendBody_unopened {e : Error}
    (hopen : (Stream.open (bytesOf "sync:")).run host'.connection = (.error e, c')) :
    ((withSyncStream (sendBody b destination mode form)).run host').1 = .error e ∧
      OnlyWrites Host.session KeepsPathLimit host'
        ((withSyncStream (sendBody b destination mode form)).run host').2 := by
  have hwrites := open_onlyWrites (P := KeepsPathLimit) (bytesOf "sync:") host'.connection
  have hrun : (onConnection (Stream.open (bytesOf "sync:"))).run host' = (.error e, { host' with connection := c' }) := by
    rw [run_onConnection, hopen]
  rw [hopen] at hwrites
  rw [withSyncStream, Prog.run_bind_error hrun]
  exact ⟨rfl, hwrites⟩

/-- A request that the device does not take is refused, and nothing of it is attempted. -/
theorem sendBody_refused
    (hopen : (Stream.open (bytesOf "sync:")).run host'.connection = (.ok stream, c'))
    (hlarge : c'.maxData.toNat < (sendRequest destination mode form).length) :
    ((withSyncStream (sendBody b destination mode form)).run host').1 = .error writeTooLarge ∧
      OnlyWrites Host.session KeepsPathLimit host'
        ((withSyncStream (sendBody b destination mode form)).run host').2 := by
  have hwrites := open_onlyWrites (P := KeepsPathLimit) (bytesOf "sync:") host'.connection
  rw [hopen] at hwrites
  have hrefused := write_refused (s := ⟨stream, c'⟩) hlarge
  have hbody : (sendBody b destination mode form).run ⟨⟨stream, c'⟩, host'.file⟩ =
      (.error writeTooLarge, ⟨⟨stream, c'⟩, host'.file⟩) :=
    Prog.run_bind_error (onStream_eq hrefused)
  rw [withSyncStream_eq hopen hbody]
  exact ⟨rfl, trans_of (WritesOnly KeepsPathLimit) hwrites (closeNow_quiet ⟨stream, c'⟩).onlyWrites⟩

/-- A request that the device takes is attempted, whatever becomes of it. -/
theorem sendBody_attempts (d : Dialogue) (hd : WritesOnly (fun _ => True) d host'.session)
    (hopen : (Stream.open (bytesOf "sync:")).run host'.connection = (.ok stream, c'))
    (hfits : (sendRequest destination mode form).length ≤ c'.maxData.toNat) {P : List Byte → Prop}
    (hnot : ¬ P (sendRequest destination mode form)) :
    ¬ WritesOnly P d ((withSyncStream (sendBody b destination mode form)).run host').2.session := by
  have hopened : (⟨stream, c'⟩ : StreamOn Dialogue).Opened := ⟨_, _, hopen⟩
  obtain ⟨r, e, new, hrun, hattempt, hnew, -, -, htrace⟩ :=
    write_attempted (sendRequest destination mode form) ⟨stream, c'⟩
  have hne : new ≠ [] := hnew.mpr ⟨hfits, hopened.drained.2⟩
  have hbefore := open_onlyWrites (P := fun _ => True) (bytesOf "sync:") host'.connection
  rw [hopen] at hbefore
  have hafter : WritesOnly (fun _ => True) e
      ((sendBody b destination mode form).run ⟨⟨stream, c'⟩, host'.file⟩).2.on.session := by
    cases r with
    | error _ =>
      rw [sendBody, Prog.run_bind_error (onStream_eq hrun)]
      exact refl_of (WritesOnly fun _ => True) e
    | ok _ =>
      rw [sendBody, Prog.run_bind_ok (onStream_eq hrun)]
      exact WritesOnly.mono (sendFile_keepsPathLimit (encodingOf b form) _) fun _ _ => trivial
  cases hbody : (sendBody b destination mode form).run ⟨⟨stream, c'⟩, host'.file⟩ with
  | mk q job =>
    have hclose := (closeNow_quiet job.on).onlyWrites (P := fun _ => True)
    rw [hbody] at hafter
    rw [withSyncStream_eq hopen hbody]
    exact not_writesOnly (trans_of (WritesOnly fun _ => True) hd hbefore) htrace (hattempt.mem hne) rfl hnot
      (trans_of (WritesOnly fun _ => True) hafter hclose)

/-- A request whose path is over the limit does not keep it. -/
theorem not_keepsPathLimit_sendRequest {maxData : UInt32}
    (hlong : kMaxPathLength < (sendPath destination mode form).length)
    (hfits : (sendRequest destination mode form).length ≤ maxData.toNat) :
    ¬ KeepsPathLimit (sendRequest destination mode form) := by
  obtain ⟨id, rest, hid, hrequest⟩ := exists_sendRequest destination mode form
  have hlt : (sendPath destination mode form).length < 2 ^ 32 := by
    have hmax := maxData.toNat_lt
    rw [hrequest, List.length_append, length_packet] at hfits
    omega
  intro hkeeps
  rw [hrequest] at hkeeps
  exact absurd (hkeeps _ (pathLength_packet hid hlt rest)) (Nat.not_le_of_lt hlong)

/-- Where a push gets as far as its request, its path is too long exactly where that of the request is. -/
theorem Sends.tooLong_iff (h : Sends b remotePath compression host existing form c) :
    PushTooLong b remotePath compression host ↔ kMaxPathLength <
      (sendPath (destinationOf remotePath existing host.file) host.file.mode form).length := by
  constructor
  · rintro (hlong | ⟨existing', form', c', h', hlong⟩)
    · exact absurd (stat_ok h.answered) (Nat.not_le_of_lt hlong)
    · obtain ⟨rfl, rfl, rfl⟩ := h.unique h'
      exact hlong
  · intro hlong
    exact .inr ⟨existing, form, c, h, hlong⟩

/-- A request for a path over the limit that follows a STAT keeps within it only where it is not sent,
and counts as refused. -/
theorem sendBody_iff {d : Dialogue} {tooLong : Prop} (hd : WritesOnly KeepsPathLimit d host'.session)
    (htooLong : tooLong) (hlong : kMaxPathLength < (sendPath destination mode form).length) :
    KeepsPaths tooLong ((withSyncStream (sendBody b destination mode form)).run host').1 d
        ((withSyncStream (sendBody b destination mode form)).run host').2.session ↔
      match ((Stream.open (bytesOf "sync:")).run host'.connection).1 with
      | .ok _ => host'.connection.maxData.toNat < (sendRequest destination mode form).length
      | .error e => e.code = .invalidArgument := by
  cases hopen : (Stream.open (bytesOf "sync:")).run host'.connection with
  | mk r c' =>
    have hopened := Stream.open_sameDevice (bytesOf "sync:") host'.connection
    rw [hopen] at hopened
    have hmax : c'.maxData = host'.connection.maxData := hopened.maxData
    cases r with
    | error e =>
      obtain ⟨hresult, hwrites⟩ := @sendBody_unopened b form host' destination mode c' e hopen
      dsimp only
      rw [hresult]
      constructor
      · intro hkeeps
        obtain ⟨e', he, hcode⟩ := hkeeps.refused htooLong
        cases he
        exact hcode
      · intro hcode
        exact ⟨trans_of (WritesOnly KeepsPathLimit) hd hwrites, fun _ => ⟨e, rfl, hcode⟩⟩
    | ok stream =>
      dsimp only
      by_cases hlarge : host'.connection.maxData.toNat < (sendRequest destination mode form).length
      · rw [← hmax] at hlarge
        obtain ⟨hresult, hwrites⟩ := sendBody_refused (b := b) hopen hlarge
        rw [hmax] at hlarge
        refine iff_of_true ⟨trans_of (WritesOnly KeepsPathLimit) hd hwrites, fun _ => ?_⟩ hlarge
        exact ⟨writeTooLarge, hresult, rfl⟩
      · have hfits := Nat.le_of_not_lt hlarge
        rw [← hmax] at hfits
        refine iff_of_false (fun hkeeps => ?_) hlarge
        have hattempts := sendBody_attempts (b := b) d (hd.mono fun _ _ => trivial) hopen hfits
          (not_keepsPathLimit_sendRequest hlong hfits)
        exact hattempts hkeeps.written

/-- A push that gets as far as its request. -/
theorem Sends.push_iff (h : Sends b remotePath compression host existing form c) :
    KeepsPaths (PushTooLong b remotePath compression host) ((push b remotePath compression).run host).1
        host.session ((push b remotePath compression).run host).2.session ↔
      (sendPath (destinationOf remotePath existing host.file) host.file.mode form).length ≤ kMaxPathLength ∨
        match ((Stream.open (bytesOf "sync:")).run c).1 with
        | .ok _ => host.connection.maxData.toNat <
            (sendRequest (destinationOf remotePath existing host.file) host.file.mode form).length
        | .error e => e.code = .invalidArgument := by
  have hbefore := (stat_keepsPaths remotePath host.connection).written
  have hmax := (stat_features remotePath host.connection).2
  rw [h.answered] at hbefore hmax
  dsimp only at hbefore hmax
  have htooLong := h.tooLong_iff
  rw [h.run_push]
  generalize destinationOf remotePath existing host.file = destination at htooLong ⊢
  generalize host.file.mode = mode at htooLong ⊢
  by_cases hle : (sendPath destination mode form).length ≤ kMaxPathLength
  · obtain ⟨id, rest, -, hrequest⟩ := exists_sendRequest destination mode form
    have hwrite := writeRequest_keepsPathLimit hle id rest
    rw [← hrequest] at hwrite
    have hwrites := sendBody_onlyWrites (b := b) hwrite (sendFile_keepsPathLimit _) ⟨c, host.file⟩
    refine iff_of_true ⟨trans_of (WritesOnly KeepsPathLimit) hbefore hwrites, fun hlong => ?_⟩ (.inl hle)
    exact absurd hle (Nat.not_le_of_lt (htooLong.mp hlong))
  · have hlong := Nat.lt_of_not_le hle
    have hsent := @sendBody_iff b form ⟨c, host.file⟩ destination mode host.session _ hbefore
      (htooLong.mpr hlong) hlong
    rw [hmax] at hsent
    rw [hsent, or_iff_right hle]

/-- No call attempts a request with a path over the limit, and each refuses one, exactly where a push
either keeps within it or cannot send its request. -/
theorem keepsPaths_iff (b : Build) (path : List Byte) (compression : SyncCompression) :
    (∀ c : Connection Dialogue, KeepsPaths (kMaxPathLength < path.length) ((list path).run c).1 c.session
      ((list path).run c).2.session) ∧
    (∀ c : Connection Dialogue, KeepsPaths (kMaxPathLength < path.length) ((stat path).run c).1 c.session
      ((stat path).run c).2.session) ∧
    (∀ host : Host Dialogue OutputFile, KeepsPaths (kMaxPathLength < path.length)
      ((pull b path compression).run host).1 host.session ((pull b path compression).run host).2.session) ∧
    ∀ host : Host Dialogue LocalFile, KeepsPaths (PushTooLong b path compression host)
        ((push b path compression).run host).1 host.session ((push b path compression).run host).2.session ↔
      SendFits b path compression host := by
  refine ⟨list_keepsPaths path, stat_keepsPaths path, pull_keepsPaths b path compression, fun host => ?_⟩
  by_cases hsends : ∃ existing form c, Sends b path compression host existing form c
  · obtain ⟨existing, form, c, h⟩ := hsends
    rw [h.push_iff]
    constructor
    · intro hfits existing' form' c' h'
      obtain ⟨rfl, rfl, rfl⟩ := h.unique h'
      exact hfits
    · intro hfits
      exact hfits existing form c h
  · have hkept := push_ends hsends
    refine iff_of_true ⟨hkept.written, ?_⟩ ?_
    · rintro (hlong | ⟨existing, form, c, h, -⟩)
      · exact hkept.refused hlong
      · exact absurd ⟨existing, form, c, h⟩ hsends
    · intro existing form c h
      exact absurd ⟨existing, form, c, h⟩ hsends

/-- A request that was sent with a path over the limit. -/
def sentTooLong : Event → Bool
  | .sent f => f.header.command = kWrte && (pathLength f.payload).any (kMaxPathLength < ·)
  | _ => false

theorem not_writesOnly_of_sentTooLong {d d' : Dialogue} (hnil : d.trace = [])
    (hany : d'.trace.any sentTooLong = true) : ¬ WritesOnly KeepsPathLimit d d' := by
  rintro ⟨new, htrace, hnew⟩
  rw [hnil, List.nil_append] at htrace
  rw [htrace] at hany
  obtain ⟨event, hmem, hlong⟩ := List.any_eq_true.mp hany
  cases event with
  | received f => cases hlong
  | unsent f => cases hlong
  | sent f =>
    simp only [sentTooLong, Bool.and_eq_true, decide_eq_true_eq, Option.any_eq_true] at hlong
    obtain ⟨hwrte, n, hn, hover⟩ := hlong
    exact absurd (hnew f (.inl hmem) hwrte n hn) (Nat.not_le_of_lt hover)

/-- A path of 1024 bytes is accepted, and sent with the comma and the mode behind it. -/
theorem not_push_keepsPaths : ¬ KeepsPaths
    (PushTooLong {} (List.replicate 1024 0x61) .none ⟨acceptingDevice, localText⟩)
    ((push {} (List.replicate 1024 0x61) .none).run ⟨acceptingDevice, localText⟩).1 acceptingDevice.session
    ((push {} (List.replicate 1024 0x61) .none).run ⟨acceptingDevice, localText⟩).2.session := by
  intro h
  refine not_writesOnly_of_sentTooLong rfl ?_ h.written
  decide +kernel

end Sync

end Adbcpp
