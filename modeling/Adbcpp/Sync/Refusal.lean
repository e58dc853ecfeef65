import Adbcpp.Sync.List
import Adbcpp.Sync.PullV2
import Adbcpp.Sync.PushV2

/-! How a refused request ends. A FAIL carries the device's reason, and an id that the
request does not expect means that the device does not answer as the protocol requires.
Listings, pulls and pushes look at the id of every response before they make anything
of its body. A STAT does not: it reads a body of fixed length and takes it for metadata. -/

namespace Adbcpp.Sync

open Protocol Dialogue StreamOn

/-- A request to the sync service, with what the host has for it. -/
inductive Request
  | list (path : List Byte)
  | stat (path : List Byte)
  | pullV1 (path : List Byte) (file : OutputFile)
  | pullV2 (b : Build) (path : List Byte) (codec : CompressionCodec) (file : OutputFile)
  | pushV1 (destination : List Byte) (mode : UInt32) (file : LocalFile)
  | pushV2 (b : Build) (destination : List Byte) (mode : UInt32) (codec : CompressionCodec)
      (file : LocalFile)

def statId (v2 : Bool) : UInt32 := if v2 then kStatV2 else kStatV1

def statBodySize (v2 : Bool) : ℕ := if v2 then kStatV2BodySize else kStatV1BodySize

namespace Request

/-- How the operation that makes the request on a connection ends. -/
def outcome : Request → Connection Dialogue → Except Error Unit
  | .list path, c => ((Sync.list path).run c).1.map fun _ => ()
  | .stat path, c => ((Sync.stat path).run c).1.map fun _ => ()
  | .pullV1 path file, c => ((Sync.pullV1 path).run ⟨c, file⟩).1
  | .pullV2 b path codec file, c => ((Sync.pullV2 b path codec).run ⟨c, file⟩).1
  | .pushV1 destination mode file, c => ((Sync.pushV1 destination mode).run ⟨c, file⟩).1
  | .pushV2 b destination mode codec file, c => ((Sync.pushV2 b destination mode codec).run ⟨c, file⟩).1

def isStat : Request → Bool
  | .stat _ => true
  | _ => false

/-- The ids that a response to the request may have. -/
def expects (c : Connection Dialogue) : Request → List UInt32
  | .list _ => [dentId (c.supportsFeature kLsV2Feature), kDone]
  | .stat _ => [statId (c.supportsFeature kStatV2Feature)]
  | .pullV1 .. | .pullV2 .. => [kData, kDone]
  | .pushV1 .. | .pushV2 .. => [kOkay]

/-- The request can be made: the device takes messages of its size, and the host has the file. -/
def Ready (c : Connection Dialogue) : Request → Prop
  | .list path => path.length ≤ kMaxPathLength ∧ path.length + 8 ≤ c.maxData.toNat
  | .stat path => path.length ≤ kMaxPathLength ∧ path.length + 8 ≤ c.maxData.toNat
  | .pullV1 path file => path.length + 8 ≤ c.maxData.toNat ∧ file.Accepting
  | .pullV2 _ path _ file => path.length + 16 ≤ c.maxData.toNat ∧ file.Accepting
  | .pushV1 destination mode file => (packet kSendV1 (sendSpec destination mode)).length ≤ c.maxData.toNat ∧
      65544 ≤ c.maxData.toNat ∧ ∃ content, file.input = { remaining := content }
  | .pushV2 b destination _ codec file => destination.length + 20 ≤ c.maxData.toNat ∧
      ∃ content blocks payloads, file.input = { remaining := content } ∧
        Blocks kMaxChunkSize content blocks ∧
        List.Forall₂ (fun block payload => compressChunk b codec block = .ok payload) blocks payloads ∧
        ∀ payload ∈ payloads, (packet kData payload).length ≤ c.maxData.toNat

/-- Complete responses after which the request awaits another one. -/
def Takes (c : Connection Dialogue) : Request → List Byte → Prop
  | .list _, answered => ∃ dents : List (Dent (c.supportsFeature kLsV2Feature)),
      answered = dents.flatMap Dent.bytes
  | .pullV1 .., answered => ∃ chunks : List (List Byte), answered = chunks.flatMap (packet kData) ∧
      ∀ chunk ∈ chunks, chunk.length ≤ kMaxChunkSize
  | .pullV2 b _ codec _, answered => ∃ (chunks : List (List Byte)) (out : List Byte),
      answered = chunks.flatMap (packet kData) ∧
      (∀ chunk ∈ chunks, chunk.length ≤ kMaxCompressedChunkSize b ∧ chunk.length < 2 ^ 32) ∧
      (ChunkDecoder.ofCodec b codec).Decodes chunks (ChunkDecoder.ofCodec b codec).initial out
  | .stat _, answered | .pushV1 .., answered | .pushV2 .., answered => answered = []

/-- A refusal is reported: a FAIL as a device error with its reason, and any other id that the
request does not expect as an error. -/
structure ReportsRefusal (r : Request) (c : Connection Dialogue) (response : List Byte) : Prop where
  fail : ∀ reason rest, reason.length < 2 ^ 32 → response = packet kFail reason ++ rest →
    r.outcome c = .error (rejection reason)
  unexpected : ∀ id rest, id ≠ kFail → id ∉ r.expects c → response = writeU32LE id ++ rest →
    ∃ e, r.outcome c = .error e

end Request

/-! ### Listings -/

section List

variable {k : ℕ} {v2 : Bool} {s : StreamOn Dialogue} {rest : List Byte}

theorem listTurn_fail (entries : List DirEntry) (h : s.Accepts k) {reason : List Byte}
    (hlt : reason.length < 2 ^ 32) (hsource : s.source = packet kFail reason ++ rest) :
    ∃ s', (listTurn v2 entries).run s = (.error (rejection reason), s') := by
  rw [packet_append] at hsource
  obtain ⟨t, hid, ht⟩ := read_word h hsource
  have hreason : Reason t.ending t.source (rejection reason) := by
    rw [ht.source]
    exact .complete rest hlt
  obtain ⟨s', hrun, -⟩ := syncFail_reason ht.accepts hreason
  refine ⟨s', ?_⟩
  rw [listTurn, Prog.run_bind_ok hid, readU32LE_writeU32LE_self, if_pos rfl]
  exact hrun

theorem listTurn_unexpected (entries : List DirEntry) (h : s.Accepts k) {id : UInt32} (hfail : id ≠ kFail)
    (hid : id ∉ [dentId v2, kDone]) (hsource : s.source = writeU32LE id ++ rest) :
    ∃ e s', (listTurn v2 entries).run s = (.error e, s') := by
  rw [List.mem_cons, List.mem_singleton, not_or] at hid
  obtain ⟨t, hrun, ht⟩ := read_word h hsource
  rw [listTurn, Prog.run_bind_ok hrun, readU32LE_writeU32LE_self, if_neg hfail]
  by_cases hshort : t.source.length < bodySize v2
  · obtain ⟨s', hcut, -⟩ := read_cut (bodySize v2) ht.accepts hshort
    exact ⟨_, s', Prog.run_bind_error hcut⟩
  · have hlen : (t.source.take (bodySize v2)).length = bodySize v2 := by
      rw [List.length_take]
      omega
    obtain ⟨s', hbody, -⟩ := read_readTo ht.accepts (List.take_append_drop (bodySize v2) t.source).symm
    rw [hlen] at hbody
    rw [Prog.run_bind_ok hbody, if_neg hid.2, if_pos hid.1]
    exact ⟨_, s', rfl⟩

/-- A turn of the loop that fails behind some entries makes the listing fail. -/
theorem list_error {path : List Byte} {c c' : Connection Dialogue} {stream : Stream} {tail : List Byte}
    (hopen : (Stream.open (bytesOf "sync:")).run c = (.ok stream, c'))
    (hsends : (⟨stream, c'⟩ : StreamOn Dialogue).AllAccepted) (hready : (Request.list path).Ready c')
    (dents : List (Dent (c.supportsFeature kLsV2Feature)))
    (hup : (upcoming stream.localId c'.session.inbox).1 = dents.flatMap Dent.bytes ++ tail) {P : Error → Prop}
    (hturn : ∀ entries (s : StreamOn Dialogue), s.Accepts 0 → s.source = tail →
      ∃ e s', P e ∧ (listTurn (c.supportsFeature kLsV2Feature) entries).run s = (.error e, s')) :
    ∃ e, P e ∧ (Request.list path).outcome c = .error e := by
  obtain ⟨hpath, hmax⟩ := hready
  have hopened : (⟨stream, c'⟩ : StreamOn Dialogue).Opened := ⟨_, c, hopen⟩
  obtain ⟨hdrained, hsession⟩ := hopened.drained
  have hsource := (Prod.mk.inj hdrained.source).1.trans hup
  have hrequest : (packet (if c.supportsFeature kLsV2Feature then kListV2 else kListV1) path).length ≤
      c'.maxData.toNat := by
    rw [length_packet, Nat.add_comm]
    exact hmax
  obtain ⟨t, hwrite, hwrote⟩ := write_wrote (accepts_of_all hsession hsends _) hrequest
  obtain ⟨u, hloop, hread⟩ := listLoop_dents dents [] hwrote.accepts (hwrote.source ▸ hsource)
  obtain ⟨e, s', hP, hrun⟩ := hturn _ u hread.accepts hread.source
  have hlist : (listOn (c.supportsFeature kLsV2Feature) path).run ⟨stream, c'⟩ = (.error e, s') := by
    rw [listOn, writePathRequest, Prog.run_bind_ok hwrite,
      Prog.run_bind_error (hloop.trans (Prog.loop_error _ hrun))]
  refine ⟨e, hP, ?_⟩
  rw [Request.outcome, list, if_neg (Nat.not_lt.mpr hpath), Prog.run_bind_get, withStream_eq hopen hlist]
  rfl

theorem list_reports {path : List Byte} {c c' : Connection Dialogue} {stream : Stream}
    {answered tail : List Byte} (hopen : (Stream.open (bytesOf "sync:")).run c = (.ok stream, c'))
    (hsends : (⟨stream, c'⟩ : StreamOn Dialogue).AllAccepted) (hready : (Request.list path).Ready c')
    (htakes : (Request.list path).Takes c answered)
    (hup : (upcoming stream.localId c'.session.inbox).1 = answered ++ tail) :
    (Request.list path).ReportsRefusal c tail := by
  obtain ⟨dents, rfl⟩ := htakes
  constructor
  · intro reason rest hlt htail
    obtain ⟨e, rfl, hrun⟩ := list_error (P := (· = rejection reason)) hopen hsends hready dents hup
      fun entries s hacc hsource => by
        obtain ⟨s', hturn⟩ := listTurn_fail entries hacc hlt (hsource.trans htail)
        exact ⟨_, s', rfl, hturn⟩
    exact hrun
  · intro id rest hfail hid htail
    obtain ⟨e, -, hrun⟩ := list_error (P := fun _ => True) hopen hsends hready dents hup
      fun entries s hacc hsource => by
        obtain ⟨e, s', hturn⟩ := listTurn_unexpected entries hacc hfail hid (hsource.trans htail)
        exact ⟨e, s', trivial, hturn⟩
    exact ⟨e, hrun⟩

end List

/-! ### Pulls -/

/-- A FAIL and an unexpected id end a transfer with an error. -/
theorem concludes_fail {limit : ℕ} {tooLarge : String} {ending : Ending} {reason : List Byte}
    (hlt : reason.length < 2 ^ 32) (rest : List Byte) :
    Concludes limit tooLarge ending (packet kFail reason ++ rest) (.error (rejection reason)) := by
  rw [packet_append]
  exact .fail (.complete rest hlt)

theorem exists_concludes_unexpected (limit : ℕ) (tooLarge : String) (ending : Ending) {id : UInt32}
    (hfail : id ≠ kFail) (hid : id ∉ [kData, kDone]) (rest : List Byte) :
    ∃ e, Concludes limit tooLarge ending (writeU32LE id ++ rest) (.error e) := by
  rw [List.mem_cons, List.mem_singleton, not_or] at hid
  by_cases hcut : rest.length < 4
  · exact ⟨_, .cut (.size hfail hcut)⟩
  · obtain ⟨size, rest, rfl⟩ := exists_writeU32LE (Nat.le_of_not_lt hcut)
    exact ⟨_, .unknown size rest hfail hid.2 hid.1⟩

/-- A transfer that ends as its response concludes reports a refusal. -/
theorem reports_of_concludes {r : Request} {c : Connection Dialogue} (hexpects : r.expects c = [kData, kDone])
    {limit : ℕ} {tooLarge : String} {ending : Ending} {tail : List Byte}
    (h : ∀ e, Concludes limit tooLarge ending tail (.error e) → r.outcome c = .error e) :
    r.ReportsRefusal c tail := by
  constructor
  · rintro reason rest hlt rfl
    exact h _ (concludes_fail hlt rest)
  · rintro id rest hfail hid rfl
    rw [hexpects] at hid
    obtain ⟨e, he⟩ := exists_concludes_unexpected limit tooLarge ending hfail hid rest
    exact ⟨e, h e he⟩

/-! ### Pushes -/

/-- A push that ends as its status says reports a refusal. -/
theorem reports_of_finishPush {r : Request} {c : Connection Dialogue} (hexpects : r.expects c = [kOkay])
    {k : ℕ} {s : StreamOn Dialogue} (hacc : s.Accepts k) (h : r.outcome c = (finishPush.run s).1) :
    r.ReportsRefusal c s.source := by
  constructor
  · intro reason rest hlt htail
    rw [h, finishPush_fail hacc hlt htail]
  · intro id rest hfail hid htail
    rw [hexpects, List.mem_singleton] at hid
    have hstatus : Status s.ending s.source (.error (.of .protocol "unexpected sync response")) := by
      rw [htail]
      exact .unexpected rest hfail hid
    obtain ⟨s', hrun, -⟩ := readStatus_status hacc hstatus
    rw [h, finishPush, Prog.run_bind_error hrun]
    exact ⟨_, rfl⟩

/-! ### Stat -/

/-- A STAT on a `sync:` stream. -/
def statOn (v2 : Bool) (path : List Byte) : Action (StreamOn Dialogue) (Option FileStat) := do
  writePathRequest (statId v2) path
  let _ ← StreamOn.read 4
  let body ← StreamOn.read (statBodySize v2)
  writeQuit
  pure (if v2 then fileStatV2 body else fileStatV1 body)

theorem run_stat {path : List Byte} (hpath : path.length ≤ kMaxPathLength) (c : Connection Dialogue) :
    (stat path).run c =
      (withStream (bytesOf "sync:") (statOn (c.supportsFeature kStatV2Feature) path)).run c := by
  rw [stat, if_neg (Nat.not_lt.mpr hpath), Prog.run_bind_get]
  rfl

/-- A STAT takes whatever is long enough for metadata, and fails only where the stream ends. -/
theorem statOn_source {v2 : Bool} {path : List Byte} {s : StreamOn Dialogue} (h : s.Accepts 4)
    (hmax : path.length + 8 ≤ s.connection.maxData.toNat) :
    (((statOn v2 path).run s).1.map fun _ => ()) =
      if 4 + statBodySize v2 ≤ s.source.length then .ok () else .error s.ending.error := by
  have hrequest : (packet (statId v2) path).length ≤ s.connection.maxData.toNat := by
    rw [length_packet, Nat.add_comm]
    exact hmax
  have hacc : s.Accepts (2 + writesOf (packet (statId v2) path)) := by
    rw [writesOf_packet]
    exact h
  obtain ⟨t, hwrite, hwrote⟩ := write_wrote hacc hrequest
  rw [← hwrote.source, ← hwrote.ending, statOn, writePathRequest, Prog.run_bind_ok hwrite]
  by_cases hid : t.source.length < 4
  · obtain ⟨u, hrun, -⟩ := read_cut 4 hwrote.accepts hid
    rw [if_neg (by omega), Prog.run_bind_error hrun]
    rfl
  obtain ⟨id, rest, hsplit⟩ := exists_writeU32LE (Nat.le_of_not_lt hid)
  obtain ⟨u, hrun, hread⟩ := read_word hwrote.accepts hsplit
  have hlen : t.source.length = 4 + u.source.length := by
    rw [hsplit, hread.source, List.length_append, length_writeU32LE]
  rw [Prog.run_bind_ok hrun, ← hread.ending]
  by_cases hbody : statBodySize v2 ≤ u.source.length
  swap
  · obtain ⟨v, hrun, -⟩ := read_cut (statBodySize v2) hread.accepts (Nat.lt_of_not_le hbody)
    rw [if_neg (by omega), Prog.run_bind_error hrun]
    rfl
  have hsize : (u.source.take (statBodySize v2)).length = statBodySize v2 := by
    rw [List.length_take]
    omega
  obtain ⟨v, hrun, hread'⟩ :=
    read_readTo hread.accepts (List.take_append_drop (statBodySize v2) u.source).symm
  rw [hsize] at hrun
  have hquit : (packet kQuit []).length ≤ v.connection.maxData.toNat := by
    rw [(hread.trans hread').quiet.same.connection, hwrote.same.connection]
    exact Nat.le_trans (Nat.le_add_left 8 _) hmax
  have hacc' : v.Accepts (0 + writesOf (packet kQuit [])) := by
    rw [writesOf_packet]
    exact hread'.accepts
  obtain ⟨w, hwrite', -⟩ := write_wrote hacc' hquit
  rw [if_pos (by omega), Prog.run_bind_ok hrun, writeQuit, Prog.run_bind_ok hwrite']
  rfl

theorem stat_outcome {path : List Byte} {c c' : Connection Dialogue} {stream : Stream}
    (hopen : (Stream.open (bytesOf "sync:")).run c = (.ok stream, c'))
    (hsends : (⟨stream, c'⟩ : StreamOn Dialogue).AllAccepted) (hready : (Request.stat path).Ready c') :
    (Request.stat path).outcome c =
      if 4 + statBodySize (c.supportsFeature kStatV2Feature) ≤
        (upcoming stream.localId c'.session.inbox).1.length then .ok ()
      else .error (upcoming stream.localId c'.session.inbox).2.error := by
  obtain ⟨hpath, hmax⟩ := hready
  have hopened : (⟨stream, c'⟩ : StreamOn Dialogue).Opened := ⟨_, c, hopen⟩
  obtain ⟨hdrained, hsession⟩ := hopened.drained
  obtain ⟨hsource, hending⟩ := Prod.mk.inj hdrained.source
  have hstat := @statOn_source (c.supportsFeature kStatV2Feature) path _
    (accepts_of_all hsession hsends 4) hmax
  rw [hsource, hending] at hstat
  have hrun := withStream_eq hopen
    (Prod.eta ((statOn (c.supportsFeature kStatV2Feature) path).run ⟨stream, c'⟩)).symm
  rw [Request.outcome, run_stat hpath, hrun]
  exact hstat

/-- The answer to a STAT that it mistakes for metadata, or that is a refusal. -/
def Mistakes (c : Connection Dialogue) (answer : List Byte) : Prop :=
  (∃ reason rest, reason.length < 2 ^ 32 ∧ answer = packet kFail reason ++ rest) ∨
    ∃ id rest, id ≠ kFail ∧ id ≠ statId (c.supportsFeature kStatV2Feature) ∧
      statBodySize (c.supportsFeature kStatV2Feature) ≤ rest.length ∧ answer = writeU32LE id ++ rest

/-- A STAT reports no refusal at all, and an unexpected answer only where the stream cuts it off. -/
theorem stat_reports_iff {path : List Byte} {c c' : Connection Dialogue} {stream : Stream}
    (hopen : (Stream.open (bytesOf "sync:")).run c = (.ok stream, c'))
    (hsends : (⟨stream, c'⟩ : StreamOn Dialogue).AllAccepted) (hready : (Request.stat path).Ready c')
    (hlink : (upcoming stream.localId c'.session.inbox).2.error.code ≠ .device) :
    (Request.stat path).ReportsRefusal c (upcoming stream.localId c'.session.inbox).1 ↔
      ¬ Mistakes c (upcoming stream.localId c'.session.inbox).1 := by
  have hend := stat_outcome hopen hsends hready
  generalize (upcoming stream.localId c'.session.inbox).1 = answer at hend ⊢
  generalize (upcoming stream.localId c'.session.inbox).2 = ending at hend hlink
  constructor
  · rintro h (⟨reason, rest, hlt, hanswer⟩ | ⟨id, rest, hfail, hid, hlen, hanswer⟩)
    · have hfail := h.fail reason rest hlt hanswer
      rw [hend] at hfail
      split at hfail
      · cases hfail
      · rw [Except.error.inj hfail] at hlink
        exact hlink rfl
    · obtain ⟨e, he⟩ := h.unexpected id rest hfail (by rwa [Request.expects, List.mem_singleton]) hanswer
      rw [hend, if_pos (by rw [hanswer, List.length_append, length_writeU32LE]; omega)] at he
      cases he
  · intro h
    constructor
    · intro reason rest hlt hanswer
      exact absurd (.inl ⟨reason, rest, hlt, hanswer⟩) h
    · intro id rest hfail hid hanswer
      rw [Request.expects, List.mem_singleton] at hid
      refine ⟨ending.error, ?_⟩
      rw [hend, if_neg fun hle => h (.inr ⟨id, rest, hfail, hid, ?_, hanswer⟩)]
      rw [hanswer, List.length_append, length_writeU32LE] at hle
      omega

/-! ### Every request -/

section Requests

variable {c c' : Connection Dialogue} {stream : Stream} {answered tail : List Byte}

theorem pullV1_reports {path : List Byte} {file : OutputFile}
    (hopen : (Stream.open (bytesOf "sync:")).run c = (.ok stream, c'))
    (hsends : (⟨stream, c'⟩ : StreamOn Dialogue).AllAccepted) (hready : (Request.pullV1 path file).Ready c')
    (htakes : (Request.pullV1 path file).Takes c answered)
    (hup : (upcoming stream.localId c'.session.inbox).1 = answered ++ tail) :
    (Request.pullV1 path file).ReportsRefusal c tail := by
  obtain ⟨chunks, rfl, hcap⟩ := htakes
  obtain ⟨hmax, hfile⟩ := hready
  have hmax' : (packet kRecvV1 path).length ≤ c'.maxData.toNat := by
    rw [length_packet, Nat.add_comm]
    exact hmax
  have hend : ∀ e, Concludes kMaxChunkSize "the sync chunk is larger than 64 KiB"
      (upcoming stream.localId c'.session.inbox).2 tail (.error e) →
      (Request.pullV1 path file).outcome c = .error e := by
    intro e he
    obtain ⟨host', hrun, -⟩ := @pullV1_concludes ⟨c, file⟩ _ _ _ _ _ _ hopen hsends hmax' hfile hcap hup he
    rw [Request.outcome, hrun]
  exact reports_of_concludes rfl hend

theorem pullV2_reports {b : Build} {path : List Byte} {codec : CompressionCodec} {file : OutputFile}
    (hopen : (Stream.open (bytesOf "sync:")).run c = (.ok stream, c'))
    (hsends : (⟨stream, c'⟩ : StreamOn Dialogue).AllAccepted) (hready : (Request.pullV2 b path codec file).Ready c')
    (htakes : (Request.pullV2 b path codec file).Takes c answered)
    (hup : (upcoming stream.localId c'.session.inbox).1 = answered ++ tail) :
    (Request.pullV2 b path codec file).ReportsRefusal c tail := by
  obtain ⟨chunks, out, rfl, hcap, hdec⟩ := htakes
  obtain ⟨hmax, hfile⟩ := hready
  have hend : ∀ e, Concludes (kMaxCompressedChunkSize b)
      "the sync chunk is larger than the compression bound"
      (upcoming stream.localId c'.session.inbox).2 tail (.error e) →
      (Request.pullV2 b path codec file).outcome c = .error e := by
    intro e he
    obtain ⟨host', hrun, -⟩ := @pullV2_concludes b codec ⟨c, file⟩ _ _ _ _ _ _ _ hopen hsends hmax hfile
      hdec hcap hup he
    rw [Request.outcome, hrun]
  exact reports_of_concludes rfl hend

/-- A push reads nothing before the answer to its packets. -/
theorem pushV1_reports {destination : List Byte} {mode : UInt32} {file : LocalFile}
    (hopen : (Stream.open (bytesOf "sync:")).run c = (.ok stream, c'))
    (hsends : (⟨stream, c'⟩ : StreamOn Dialogue).AllAccepted)
    (hready : (Request.pushV1 destination mode file).Ready c')
    (hup : (upcoming stream.localId c'.session.inbox).1 = tail) :
    (Request.pushV1 destination mode file).ReportsRefusal c tail := by
  have hopened : (⟨stream, c'⟩ : StreamOn Dialogue).Opened := ⟨_, c, hopen⟩
  obtain ⟨hdrained, hsession⟩ := hopened.drained
  have hsource := (Prod.mk.inj hdrained.source).1.trans hup
  obtain ⟨hrequest, hmax, content, hinput⟩ := hready
  obtain ⟨blocks, hblocks, -⟩ := exists_blocks chunkSize_pos content
  obtain ⟨s, hpushed⟩ := @pushV1_sends ⟨c, file⟩ _ _ _ _ _ _ hopen hinput hblocks
    (accepts_of_all hsession hsends _) hmax hrequest
  have hreports := @reports_of_finishPush (.pushV1 destination mode file) c rfl _ _
    hpushed.wrote.accepts hpushed.result
  rwa [hpushed.wrote.source, hsource] at hreports

theorem pushV2_reports {b : Build} {destination : List Byte} {mode : UInt32} {codec : CompressionCodec}
    {file : LocalFile} (hopen : (Stream.open (bytesOf "sync:")).run c = (.ok stream, c'))
    (hsends : (⟨stream, c'⟩ : StreamOn Dialogue).AllAccepted)
    (hready : (Request.pushV2 b destination mode codec file).Ready c')
    (hup : (upcoming stream.localId c'.session.inbox).1 = tail) :
    (Request.pushV2 b destination mode codec file).ReportsRefusal c tail := by
  have hopened : (⟨stream, c'⟩ : StreamOn Dialogue).Opened := ⟨_, c, hopen⟩
  obtain ⟨hdrained, hsession⟩ := hopened.drained
  have hsource := (Prod.mk.inj hdrained.source).1.trans hup
  obtain ⟨hrequest, content, blocks, payloads, hinput, hblocks, hencode, hmax⟩ := hready
  obtain ⟨s, hpushed⟩ := @pushV2_sends 0 b codec ⟨c, file⟩ destination _ mode _ _ _ _ hopen hinput hblocks
    hencode (accepts_of_all hsession hsends _) hmax hrequest
  have hreports := @reports_of_finishPush (.pushV2 b destination mode codec file) c rfl _ _
    hpushed.wrote.accepts hpushed.result
  rwa [hpushed.wrote.source, hsource] at hreports

end Requests

/-- A refusal is reported exactly where the request is not a STAT, or is one whose answer is neither
a FAIL nor a complete body under another id. -/
theorem reportsRefusal_iff (r : Request) {c c' : Connection Dialogue} {stream : Stream}
    {answered tail : List Byte} (hopen : (Stream.open (bytesOf "sync:")).run c = (.ok stream, c'))
    (hsends : (⟨stream, c'⟩ : StreamOn Dialogue).AllAccepted) (hready : r.Ready c')
    (htakes : r.Takes c answered)
    (hlink : (upcoming stream.localId c'.session.inbox).2.error.code ≠ .device)
    (hup : (upcoming stream.localId c'.session.inbox).1 = answered ++ tail) :
    r.ReportsRefusal c tail ↔ r.isStat = false ∨ ¬ Mistakes c tail := by
  cases r with
  | list path =>
    exact iff_of_true (list_reports hopen hsends hready htakes hup) (.inl rfl)
  | stat path =>
    have hnil : answered = [] := htakes
    rw [hnil, List.nil_append] at hup
    rw [← hup, stat_reports_iff hopen hsends hready hlink]
    simp [Request.isStat]
  | pullV1 path file =>
    exact iff_of_true (pullV1_reports hopen hsends hready htakes hup) (.inl rfl)
  | pullV2 b path codec file =>
    exact iff_of_true (pullV2_reports hopen hsends hready htakes hup) (.inl rfl)
  | pushV1 destination mode file =>
    have hnil : answered = [] := htakes
    rw [hnil, List.nil_append] at hup
    exact iff_of_true (pushV1_reports hopen hsends hready hup) (.inl rfl)
  | pushV2 b destination mode codec file =>
    have hnil : answered = [] := htakes
    rw [hnil, List.nil_append] at hup
    exact iff_of_true (pushV2_reports hopen hsends hready hup) (.inl rfl)

/-- A device that refuses the first request, and gives a reason. -/
def refusingDevice : Connection Dialogue where
  maxData := 4096
  session := { inbox := [.frame ⟨makeEmptyMessage Protocol.kOkay 7 2, []⟩,
    .frame (deviceWrite 2 (packet kFail (bytesOf "Permission denied")))] }

def openedRefusing : StreamOn Dialogue where
  stream := { service := bytesOf "sync:", localId := 2, remoteId := 7 }
  connection := ((Stream.open (bytesOf "sync:")).run refusingDevice).2

theorem reportsRefusal_iff_list :
    (Request.list (bytesOf "/data")).ReportsRefusal refusingDevice (packet kFail (bytesOf "Permission denied")) := by
  have hopen : (Stream.open (bytesOf "sync:")).run refusingDevice =
      (.ok openedRefusing.stream, openedRefusing.connection) := rfl
  have hsends : openedRefusing.AllAccepted := fun o ho => absurd ho List.not_mem_nil
  have hready : (Request.list (bytesOf "/data")).Ready openedRefusing.connection := ⟨by decide, by decide⟩
  exact (@reportsRefusal_iff (.list (bytesOf "/data")) _ _ _ [] _ hopen hsends hready ⟨[], rfl⟩
    (by decide) rfl).mpr (.inl rfl)

/-- A STAT makes metadata of the refusal. -/
theorem not_stat_reportsRefusal :
    ((stat (bytesOf "/data")).run refusingDevice).1 = .ok (some ⟨17, 0x6D726550, 0x69737369⟩) ∧
    ¬ (Request.stat (bytesOf "/data")).ReportsRefusal refusingDevice
      (packet kFail (bytesOf "Permission denied")) := by
  have hvalue : ((stat (bytesOf "/data")).run refusingDevice).1 =
      .ok (some ⟨17, 0x6D726550, 0x69737369⟩) := rfl
  refine ⟨hvalue, fun h => ?_⟩
  have hfail := h.fail (bytesOf "Permission denied") [] (by decide) (List.append_nil _).symm
  rw [Request.outcome, hvalue] at hfail
  cases hfail

end Adbcpp.Sync
