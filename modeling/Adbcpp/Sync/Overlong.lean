import Adbcpp.Sync.Caps
import Adbcpp.Sync.PushV2

/-! The reason of a FAIL. Its length is taken from the wire as it is, so that a response which
ends in a FAIL with a length over the largest cap makes every service that looks for a
FAIL allocate a buffer of that length. A device can send each such response, and the
responses without one are all that the services keep their caps on. -/

namespace Adbcpp.Sync

open Protocol Dialogue StreamOn Prog

namespace Allocating

/-- A buffer for a reason over the largest cap was allocated. -/
def Exceeds (b : Build) (buffers : List Buffer) : Prop := ∃ size, largestCap b < size ∧ .reason size ∈ buffers

/-- The run has failed, behind a buffer over the largest cap. -/
def Overruns {σ α : Type} (b : Build) (r : Except Error α × Allocating σ) : Prop :=
  (∃ e, r.1 = .error e) ∧ Exceeds b r.2.notes

/-! ### One response -/

section Responses

variable {b : Build} {k limit : ℕ} {α σ φ : Type} {rest source : List Byte}

/-- What fails behind the buffer fails the whole. -/
theorem Overruns.bind {β : Type} {p : Action (Allocating σ) β} {m : Allocating σ} (h : Overruns b (p.run m))
    (f : β → Action (Allocating σ) α) : Overruns b ((p >>= f).run m) := by
  obtain ⟨⟨e, he⟩, hexceeds⟩ := h
  rw [Prog.run_bind_error (Prod.ext he rfl)]
  exact ⟨⟨e, rfl⟩, hexceeds⟩

theorem Overruns.onStream {p : Action (Allocating (StreamOn σ)) α} {m : Allocating (Job σ φ)}
    (h : Overruns b (p.run m.on)) : Overruns b ((onStream p).run m) := h

theorem syncFail_overruns {m : Allocating (StreamOn Dialogue)} (hacc : m.state.Accepts k) {length : UInt32}
    (hsource : m.state.source = writeU32LE length ++ rest) (hover : largestCap b < length.toNat) :
    Overruns b ((syncFail : Action _ α).run m) := by
  obtain ⟨s, hrun, -⟩ := read_word hacc hsource
  rw [syncFail, Prog.run_bind_ok (unnoted_eq hrun), readU32LE_writeU32LE_self, run_bind_note]
  have hmem : Buffer.reason length.toNat ∈ m.notes ++ [.reason length.toNat] := by simp
  match hread : (StreamOn.read length.toNat).run s with
  | (.ok reason, t) =>
    rw [Prog.run_bind_ok (unnoted_eq hread)]
    exact ⟨⟨_, rfl⟩, length.toNat, hover, hmem⟩
  | (.error e, t) =>
    rw [Prog.run_bind_error (unnoted_eq hread)]
    exact ⟨⟨_, rfl⟩, length.toNat, hover, hmem⟩

/-- What a response brings a loop to, which takes it turn by turn. -/
theorem loop_overruns {S β : Type} {turn : β → Action (Allocating σ) (Turn β α)}
    {μ : β → Allocating σ → ℕ} (hdec : Prog.Decreases μ turn) {Takes : S → List Byte → S → Prop} {v : β → S}
    {R : List Byte → Allocating σ → Prop}
    (htakes : ∀ x m response rest s, Takes (v x) response s → R (response ++ rest) m →
      ∃ x' m', (turn x).run m = (.ok (.again x'), m') ∧ v x' = s ∧ R rest m')
    (hfail : ∀ x m length rest, largestCap b < UInt32.toNat length →
      R (writeU32LE kFail ++ (writeU32LE length ++ rest)) m → Overruns b ((turn x).run m))
    {s : S} (h : Overlong Takes (largestCap b) s source) {x : β} (hx : v x = s) {m : Allocating σ}
    (hready : R source m) : Overruns b ((Prog.loop hdec x).run m) := by
  induction h generalizing x m with
  | @fail s length rest hover =>
    obtain ⟨⟨e, he⟩, hexceeds⟩ := hfail x m length rest hover hready
    rw [Prog.loop_error hdec (Prod.ext he rfl)]
    exact ⟨⟨e, rfl⟩, hexceeds⟩
  | @behind s s' response rest htake _ ih =>
    subst hx
    obtain ⟨x', m', hturn, hx', hready'⟩ := htakes x m response rest s' htake hready
    rw [Prog.loop_again hdec hturn]
    exact ih hx' hready'

/-! ### Listings -/

theorem listTurn_entry {v2 : Bool} {s : StreamOn Dialogue} {response : List Byte}
    (htakes : TakesEntry v2 () response ()) (hacc : s.Accepts k) (hsource : s.source = response ++ rest)
    (entries : List DirEntry) : ∃ entries' s', (Sync.listTurn v2 entries).run s = (.ok (.again entries'), s') ∧
      ReadTo k rest s s' := by
  obtain ⟨body, name, hbody, hlen, hshort, rfl⟩ := htakes
  rw [List.append_assoc, List.append_assoc] at hsource
  obtain ⟨t, hid, ht⟩ := read_word hacc hsource
  obtain ⟨u, hrun, hu⟩ := read_readTo ht.accepts ht.source
  obtain ⟨s', hname, hs'⟩ := read_readTo hu.accepts hu.source
  have hfail : dentId v2 ≠ kFail := by cases v2 <;> decide
  have hdone : dentId v2 ≠ kDone := by cases v2 <;> decide
  rw [hbody] at hrun
  rw [Sync.listTurn, Prog.run_bind_ok hid, readU32LE_writeU32LE_self, if_neg hfail, Prog.run_bind_ok hrun,
    if_neg hdone, if_neg (not_not.mpr rfl), hlen, if_neg (Nat.not_lt.mpr hshort), Prog.run_bind_ok hname]
  split
  · exact ⟨entries, s', rfl, (ht.trans hu).trans hs'⟩
  · exact ⟨_, s', rfl, (ht.trans hu).trans hs'⟩

/-- The stream brings the source, and accepts what is written to it. -/
def Ready (k : ℕ) (source : List Byte) (m : Allocating (StreamOn Dialogue)) : Prop :=
  m.state.Accepts k ∧ m.state.source = source

theorem listLoop_overruns {v2 : Bool} (h : Sync.Overlong (TakesEntry v2) (largestCap b) () source)
    {m : Allocating (StreamOn Dialogue)} (hm : Ready k source m) :
    Overruns b ((Prog.loop (listTurn_decreases v2) []).run m) := by
  refine loop_overruns (listTurn_decreases v2) (R := Ready k) ?_ ?_ h (v := fun _ => ()) rfl hm
  · rintro entries m response rest s htakes ⟨hacc, hsource⟩
    obtain ⟨entries', s', hturn, hread⟩ := listTurn_entry htakes hacc hsource entries
    obtain ⟨notes, hrun⟩ := (listTurn_inStep v2 entries).run_ok hturn
    exact ⟨entries', _, hrun, rfl, hread.accepts, hread.source⟩
  · rintro entries m length rest hover ⟨hacc, hsource⟩
    obtain ⟨s, hid, hread⟩ := read_word hacc hsource
    rw [listTurn, Prog.run_bind_ok (unnoted_eq hid), readU32LE_writeU32LE_self, if_pos rfl]
    exact syncFail_overruns hread.accepts hread.source hover

/-! ### Transfers -/

/-- The stream of a pull is ready, and its local file takes what is written to it. -/
def Pulls (k : ℕ) (source : List Byte) (m : Allocating (Job Dialogue OutputFile)) : Prop :=
  Ready k source m.on ∧ m.state.file.Accepting ∧ m.state.file.bad = false

theorem receiveLoop_overruns (tooLarge : String) {decoder : ChunkDecoder}
    (h : Sync.Overlong (TakesChunk limit decoder) (largestCap b) decoder.initial source)
    {m : Allocating (Job Dialogue OutputFile)} (hm : Pulls k source m) :
    Overruns b ((Prog.loop (receiveTurn_decreases limit tooLarge decoder) decoder.initial).run m) := by
  refine loop_overruns (receiveTurn_decreases limit tooLarge decoder) (R := Pulls k) ?_ ?_ h (v := id) rfl hm
  · rintro state m response rest state' ⟨chunk, out, hle, hlt, hdecode, rfl⟩ ⟨⟨hacc, hsource⟩, hfile, hgood⟩
    have hgood' := hfile.write_good hgood out
    obtain ⟨s, hturn, hread⟩ := receiveTurn_data tooLarge hacc hsource hlt hle hdecode hgood'
    obtain ⟨notes, hrun⟩ := (receiveTurn_inStep limit tooLarge decoder state).run_ok hturn
    exact ⟨state', _, hrun, rfl, ⟨hread.accepts, hread.source⟩, hfile.write out, hgood'⟩
  · rintro state m length rest hover ⟨⟨hacc, hsource⟩, -, -⟩
    obtain ⟨s, hid, hread⟩ := read_word hacc hsource
    rw [receiveTurn, Prog.run_bind_ok (onStream_unnoted_eq hid), readU32LE_writeU32LE_self, if_pos rfl]
    exact Overruns.onStream (syncFail_overruns hread.accepts hread.source hover)

theorem receiveFile_overruns (tooLarge : String) {decoder : ChunkDecoder}
    (h : Sync.Overlong (TakesChunk limit decoder) (largestCap b) decoder.initial source)
    {m : Allocating (Job Dialogue OutputFile)} (hm : Ready k source m.on) (hfile : m.state.file.Accepting) :
    Overruns b ((receiveFile limit tooLarge decoder).run m) := by
  have hopened := hfile.openTruncated
  have hpulls : Pulls k source ⟨⟨m.state.on, m.state.file.openTruncated⟩, m.notes⟩ :=
    ⟨hm, hopened.accepting, hopened.good⟩
  have hbody : ∀ p : Action (Allocating (Job Dialogue OutputFile)) Unit,
      (do unnoted (onFile (Prog.modify OutputFile.openTruncated))
          let job ← unnoted Prog.get
          if job.file.bad then Prog.fail (.of .io "cannot open the local file for writing") else p :
        Action (Allocating (Job Dialogue OutputFile)) Unit).run m =
          p.run ⟨⟨m.state.on, m.state.file.openTruncated⟩, m.notes⟩ := by
    intro p
    show ((if m.state.file.openTruncated.bad = true then _ else p : Action (Allocating _) Unit).run _) = _
    rw [if_neg (by simp [hopened.good])]
    rfl
  rw [receiveFile, Prog.run_ensuring, hbody]
  exact (receiveLoop_overruns tooLarge h hpulls).bind fun _ => onStream (unnoted writeQuit)

theorem readStatus_overruns (h : Sync.Overlong TakesNone (largestCap b) () source)
    {m : Allocating (StreamOn Dialogue)} (hm : Ready k source m) : Overruns b (readStatus.run m) := by
  obtain ⟨hacc, hsource⟩ := hm
  cases h with
  | fail rest hover =>
    obtain ⟨s, hid, hread⟩ := read_word hacc hsource
    rw [readStatus, Prog.run_bind_ok (unnoted_eq hid), readU32LE_writeU32LE_self, if_pos rfl]
    exact syncFail_overruns hread.accepts hread.source hover
  | behind htakes => exact htakes.elim

theorem sendFile_overruns (encode : List Byte → Except Error (List Byte))
    (h : Sync.Overlong TakesNone (largestCap b) () source) {m : Allocating (Job Dialogue LocalFile)}
    (hm : Ready (k + 2) source m.on) (hinput : m.state.file.input = { remaining := [] })
    (hmax : 8 ≤ m.state.on.connection.maxData.toNat) : Overruns b ((sendFile encode).run m) := by
  obtain ⟨hacc, hsource⟩ := hm
  have hloop := @sendLoop_end encode m.state.file m.state.on (.inl hinput)
  have hacc' : m.state.on.Accepts (k + writesOf (writeU32LE kDone ++ writeU32LE m.state.file.doneTime)) := hacc
  obtain ⟨s, hwrite, hwrote⟩ := write_wrote hacc' hmax
  have hdone := onStream_unnoted_eq (m := (⟨⟨m.state.on, { m.state.file with input := { remaining := [], eof := true } }⟩,
    m.notes⟩ : Allocating (Job Dialogue LocalFile))) hwrite
  rw [sendFile, run_bind_unnoted_get, if_neg (by rw [hinput]; simp), Prog.run_bind_ok (unnoted_eq hloop),
    run_bind_unnoted_get, if_neg (by simp)]
  refine (congrArg (Overruns b) (Prog.run_bind_ok hdone)).mpr ?_
  have hstatus := readStatus_overruns (m := ⟨s, m.notes⟩) h ⟨hwrote.accepts, hwrote.source.trans hsource⟩
  exact Overruns.bind (Overruns.onStream hstatus) _

end Responses

/-! ### A device for each response -/

/-- A device that answers with these bytes, one by one. -/
def respondingDevice (v2 : Bool) (bytes : List Byte) : Connection Dialogue :=
  { bytewiseDevice bytes with features := if v2 then [kLsV2Feature] else [] }

theorem supportsFeature_responding (v2 : Bool) (bytes : List Byte) :
    (respondingDevice v2 bytes).supportsFeature kLsV2Feature = v2 := by
  cases v2 <;> rfl

/-- What the host has when its stream to the device is open. -/
structure Responding (bytes : List Byte) (stream : Stream) (c : Connection Dialogue) : Prop where
  accepts : ∀ k, (⟨stream, c⟩ : StreamOn Dialogue).Accepts k
  source : (⟨stream, c⟩ : StreamOn Dialogue).source = bytes
  maxData : c.maxData = 4096
  brings : (upcoming stream.localId c.session.inbox).1 = bytes

theorem open_responding (v2 : Bool) (bytes : List Byte) : ∃ stream c,
    (Stream.open (bytesOf "sync:")).run (respondingDevice v2 bytes) = (.ok stream, c) ∧ Responding bytes stream c := by
  have hrun : ∃ c, (Stream.open (bytesOf "sync:")).run (respondingDevice v2 bytes) =
      (.ok { service := bytesOf "sync:", localId := 2, remoteId := 7 }, c) ∧ c.maxData = 4096 ∧
      c.session.outcomes = [] ∧ c.session.inbox = (bytes.map fun byte => deviceWrite 2 [byte]).map .frame :=
    ⟨_, rfl, rfl, rfl, rfl⟩
  obtain ⟨c, hopen, hmax, houtcomes, hinbox⟩ := hrun
  have hopened : (⟨_, c⟩ : StreamOn Dialogue).Opened := ⟨_, _, hopen⟩
  obtain ⟨hdrained, hsession⟩ := hopened.drained
  have hup : (upcoming 2 c.session.inbox).1 = bytes := by
    rw [hinbox, upcoming_bytewise]
  refine ⟨_, c, hopen, ?_, ?_, hmax, hup⟩
  · refine accepts_of_all hsession fun o ho => ?_
    rw [show _ = _ from houtcomes] at ho
    exact absurd ho List.not_mem_nil
  · exact (Prod.mk.inj hdrained.source).1.trans hup

section Services

variable {b : Build} {k : ℕ} {bytes : List Byte} {stream : Stream} {c : Connection Dialogue} {φ : Type}

theorem list_exceeds {v2 : Bool} (h : (Service.list v2).Overlong b bytes) :
    Exceeds b ((list []).run { state := respondingDevice v2 bytes }).2.notes := by
  obtain ⟨stream, c, hopen, hresponding⟩ := open_responding v2 bytes
  have hmax : (packet (if v2 then kListV2 else kListV1) []).length ≤ c.maxData.toNat := by
    rw [hresponding.maxData, length_packet]
    decide
  obtain ⟨s, hwrite, hwrote⟩ := write_wrote (hresponding.accepts (0 + _)) hmax
  have hloop := @listLoop_overruns b 0 bytes v2 h { state := s } ⟨hwrote.accepts, hwrote.source.trans hresponding.source⟩
  have hbody : Overruns b ((listOn v2 []).run { state := ⟨stream, c⟩ }) := by
    rw [listOn, writePathRequest, Prog.run_bind_ok (unnoted_eq hwrite)]
    exact hloop.bind _
  rw [list, if_neg (by decide), run_bind_unnoted_get, supportsFeature_responding, withStream_notes hopen]
  exact hbody.2

/-- A transfer, with its request. -/
theorem request_exceeds {file : φ} {request : List Byte} {body : Action (Allocating (Job Dialogue φ)) Unit}
    (hrequest : request.length ≤ 4096)
    (hbody : ∀ s : StreamOn Dialogue, s.Accepts k → s.source = bytes → s.connection.maxData = 4096 →
      Overruns b (body.run { state := ⟨s, file⟩ })) :
    Exceeds b ((withSyncStream (onStream (unnoted (StreamOn.write request)) >>= fun _ => body)).run
      { state := ⟨respondingDevice false bytes, file⟩ }).2.notes := by
  obtain ⟨stream, c, hopen, hresponding⟩ := open_responding false bytes
  have hmax : request.length ≤ c.maxData.toNat := by
    rw [hresponding.maxData]
    exact hrequest
  obtain ⟨s, hwrite, hwrote⟩ := write_wrote (hresponding.accepts (k + _)) hmax
  have hs := hbody s hwrote.accepts (hwrote.source.trans hresponding.source) (hwrote.maxData.trans hresponding.maxData)
  have hopen' : (Stream.open (bytesOf "sync:")).run (⟨respondingDevice false bytes, file⟩ : Host Dialogue φ).connection =
      (.ok stream, c) := hopen
  rw [withSyncStream_notes hopen', Prog.run_bind_ok (onStream_unnoted_eq hwrite)]
  exact hs.2

/-- A pull of either form. -/
theorem receiving_exceeds {codec : Option CompressionCodec} (h : (Service.pull codec).Overlong b bytes)
    {request : List Byte} (hrequest : request.length ≤ 4096) {tooLarge : String}
    {p : Action (Allocating (Host Dialogue OutputFile)) Unit}
    (hp : p = withSyncStream (onStream (unnoted (StreamOn.write request)) >>= fun _ =>
      receiveFile (Sync.chunkCap b codec) tooLarge (pullDecoder b codec))) :
    Exceeds b (p.run { state := ⟨respondingDevice false bytes, {}⟩ }).2.notes := by
  rw [hp]
  apply request_exceeds hrequest
  intro s hacc hsource _
  exact @receiveFile_overruns b 0 _ _ tooLarge _ h { state := ⟨s, {}⟩ } ⟨hacc, hsource⟩ ⟨rfl, by simp, rfl⟩

/-- A push of either form. -/
theorem sending_exceeds {codec : Option CompressionCodec} (h : (Service.push codec).Overlong b bytes)
    {request : List Byte} (hrequest : request.length ≤ 4096) {encode : List Byte → Except Error (List Byte)}
    {p : Action (Allocating (Host Dialogue LocalFile)) Unit}
    (hp : p = withSyncStream (onStream (unnoted (StreamOn.write request)) >>= fun _ => sendFile encode)) :
    Exceeds b (p.run { state := ⟨respondingDevice false bytes, fileOf []⟩ }).2.notes := by
  rw [hp]
  apply request_exceeds hrequest
  intro s hacc hsource hmax
  refine @sendFile_overruns b 0 _ encode h { state := ⟨s, fileOf []⟩ } ⟨hacc, hsource⟩ rfl ?_
  show 8 ≤ s.connection.maxData.toNat
  rw [hmax]
  decide

end Services

end Allocating

section Caps

variable {b : Build} {service : Service} {bytes : List Byte}

/-- Every response with a FAIL that is too long makes its service allocate more than the largest cap. -/
theorem exists_exceeds (h : service.Overlong b bytes) : ∃ v2 buffers,
    service.Allocates b (Allocating.respondingDevice v2 bytes) buffers ∧ Allocating.Exceeds b buffers := by
  cases service with
  | list v2 =>
    have hallocates := Service.Allocates.list (b := b) [] (Allocating.respondingDevice v2 bytes)
    rw [Allocating.supportsFeature_responding] at hallocates
    exact ⟨v2, _, hallocates, Allocating.list_exceeds h⟩
  | stat => exact h.elim
  | pull codec =>
    cases codec with
    | some codec =>
      have hrequest : (packet kRecvV2 [] ++ writeU32LE kRecvV2 ++ writeU32LE (syncFlagOf codec)).length ≤ 4096 := by
        simp
      have hexceeds := Allocating.receiving_exceeds (p := Allocating.pullV2 b [] codec) h hrequest rfl
      have hallocates := Service.Allocates.pullV2 (b := b) [] codec ⟨Allocating.respondingDevice false bytes, {}⟩
      exact ⟨false, _, hallocates, hexceeds⟩
    | none =>
      have hrequest : (packet kRecvV1 []).length ≤ 4096 := by simp
      have hexceeds := Allocating.receiving_exceeds (p := Allocating.pullV1 []) h hrequest rfl
      have hallocates := Service.Allocates.pullV1 (b := b) [] ⟨Allocating.respondingDevice false bytes, {}⟩
      exact ⟨false, _, hallocates, hexceeds⟩
  | push codec =>
    cases codec with
    | some codec =>
      have hrequest : (sendV2Request [] 0 codec).length ≤ 4096 := by
        simp [length_sendV2Request]
      have hexceeds := Allocating.sending_exceeds (p := Allocating.pushV2 b [] 0 codec) h hrequest rfl
      have hallocates := Service.Allocates.pushV2 (b := b) [] 0 codec ⟨Allocating.respondingDevice false bytes, fileOf []⟩
      exact ⟨false, _, hallocates, hexceeds⟩
    | none =>
      have hrequest : (packet kSendV1 (sendSpec [] 0)).length ≤ 4096 := by decide
      have hexceeds := Allocating.sending_exceeds (p := Allocating.pushV1 [] 0) h hrequest rfl
      have hallocates := Service.Allocates.pushV1 (b := b) [] 0 ⟨Allocating.respondingDevice false bytes, fileOf []⟩
      exact ⟨false, _, hallocates, hexceeds⟩

theorem not_keepsCaps_of_overlong (h : service.Overlong b bytes) : ¬ service.KeepsCaps b bytes := by
  intro hkeeps
  obtain ⟨v2, buffers, hallocates, size, hover, hmem⟩ := exists_exceeds h
  obtain ⟨stream, c, hopen, hresponding⟩ := Allocating.open_responding v2 bytes
  have hle := (hkeeps _ _ _ _ hallocates hopen hresponding.brings).2 _ hmem
  exact absurd hle (Nat.not_le.mpr hover)

/-- The services keep their caps on the responses that have no FAIL with a length over the largest
one behind what they take. -/
theorem keepsCaps_iff (b : Build) (service : Service) (bytes : List Byte) :
    service.KeepsCaps b bytes ↔ ¬ service.Overlong b bytes :=
  ⟨fun hkeeps h => not_keepsCaps_of_overlong h hkeeps, keepsCaps_of_not_overlong⟩

/-- A listing is refused with a reason of four GiB. -/
theorem not_keepsCaps_refused :
    ¬ (Service.list true).KeepsCaps {} (writeU32LE kFail ++ (writeU32LE 0xFFFFFFFF ++ [])) :=
  not_keepsCaps_of_overlong (.fail [] (by decide))

end Caps

end Adbcpp.Sync
