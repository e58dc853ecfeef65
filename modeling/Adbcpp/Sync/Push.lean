import Mathlib.Data.List.Forall2
import Adbcpp.Stream.Delivery
import Adbcpp.Sync.Wire

/-! Pushing a file. The file is read block by block, and every block becomes one DATA
packet and one WRTE. What has been written up to the device's answer is the request,
the packets and DONE, and the answer decides what the push returns. -/

namespace Adbcpp.Sync

open Protocol Dialogue StreamOn

/-! ### Blocks -/

/-- How a file of the given content is read: full blocks, and a shorter last one. -/
inductive Blocks (size : ℕ) : List Byte → List (List Byte) → Prop
  | nil : Blocks size [] []
  | last {block : List Byte} : block ≠ [] → block.length < size → Blocks size block [block]
  | full {block rest : List Byte} {blocks : List (List Byte)} : block.length = size →
      Blocks size rest blocks → Blocks size (block ++ rest) (block :: blocks)

namespace Blocks

variable {size : ℕ} {content : List Byte} {blocks : List (List Byte)}

theorem flatten (h : Blocks size content blocks) : blocks.flatten = content := by
  induction h with
  | nil => rfl
  | last _ _ => simp
  | full _ _ ih => rw [List.flatten_cons, ih]

theorem length_le (h : Blocks size content blocks) (hsize : 0 < size) :
    ∀ block ∈ blocks, 1 ≤ block.length ∧ block.length ≤ size := by
  induction h with
  | nil => simp
  | last hne hlt =>
    intro block hmem
    rw [List.mem_singleton.mp hmem]
    have := List.length_pos_of_ne_nil hne
    omega
  | full hlen _ ih =>
    intro block hmem
    rcases List.mem_cons.mp hmem with rfl | hmem
    · omega
    · exact ih block hmem

/-- All blocks but the last are full. -/
theorem dropLast_full (h : Blocks size content blocks) : ∀ block ∈ blocks.dropLast, block.length = size := by
  induction h with
  | nil => simp
  | last _ _ => simp
  | @full b rest blocks hlen _ ih =>
    intro block hmem
    cases blocks with
    | nil => simp at hmem
    | cons c blocks =>
      rw [List.dropLast_cons_cons] at hmem
      rcases List.mem_cons.mp hmem with rfl | hmem
      · exact hlen
      · exact ih block hmem

end Blocks

/-- Every content is read in blocks, as many as its length makes. -/
theorem exists_blocks {size : ℕ} (hsize : 0 < size) (content : List Byte) :
    ∃ blocks, Blocks size content blocks ∧ blocks.length = (content.length + (size - 1)) / size := by
  induction hn : content.length using Nat.strongRecOn generalizing content with
  | ind n ih =>
    by_cases hlt : content.length < size
    · by_cases hnil : content = []
      · subst hnil
        refine ⟨[], .nil, ?_⟩
        rw [← hn, List.length_nil, List.length_nil, Nat.div_eq_of_lt (by omega)]
      · have hpos := List.length_pos_of_ne_nil hnil
        refine ⟨[content], .last hnil hlt, ?_⟩
        rw [← hn, List.length_singleton, show content.length + (size - 1) = content.length - 1 + size by omega,
          Nat.add_div_right _ hsize, Nat.div_eq_of_lt (by omega)]
    · have hlen : (content.take size).length = size := by
        rw [List.length_take]
        omega
      obtain ⟨blocks, hblocks, hcount⟩ := ih (content.drop size).length
        (by rw [List.length_drop]; omega) (content.drop size) rfl
      have hwhole := Blocks.full hlen hblocks
      rw [List.take_append_drop] at hwhole
      refine ⟨_, hwhole, ?_⟩
      rw [List.length_cons, hcount, List.length_drop, ← Nat.add_div_right _ hsize, ← hn]
      congr 1
      omega

theorem chunkSize_pos : 0 < kMaxChunkSize := by decide

/-! ### The loop -/

section Loop

variable {k : ℕ} {encode : List Byte → Except Error (List Byte)} {j : Job Dialogue LocalFile}

/-- Reading the next block of the local file of a push. -/
theorem run_readBlock {block : List Byte} {input : InputFile} {j : Job Dialogue LocalFile}
    (hread : (InputFile.read kMaxChunkSize).run j.file.input = (.ok block, input)) :
    (onFile (Prog.zoom LocalFile.input (fun f i => { f with input := i })
      (InputFile.read kMaxChunkSize))).run j = (.ok block, ⟨j.on, { j.file with input := input }⟩) := by
  rw [run_onFile, Prog.run_zoom, hread]

/-- A block that was read is sent as one DATA packet. -/
theorem sendTurn_block {block payload : List Byte} {input : InputFile} (hgood : j.file.input.good = true)
    (hread : (InputFile.read kMaxChunkSize).run j.file.input = (.ok block, input)) (hne : block ≠ [])
    (hencode : encode block = .ok payload) (hacc : j.on.Accepts (k + 2))
    (hmax : (packet kData payload).length ≤ j.on.connection.maxData.toNat) :
    ∃ s, (sendTurn encode ()).run j = (.ok (.again ()), ⟨s, { j.file with input := input }⟩) ∧
      Wrote k [packet kData payload] j.on s := by
  rw [← writesOf_packet kData payload] at hacc
  obtain ⟨s, hwrite, hwrote⟩ := write_wrote hacc hmax
  have hlen : ¬ block.length = 0 := fun h => hne (List.length_eq_zero_iff.mp h)
  refine ⟨s, ?_, hwrote⟩
  rw [sendTurn, Prog.run_bind_get, if_pos hgood, Prog.run_bind_ok (run_readBlock hread), if_neg hlen,
    hencode]
  exact Prog.run_bind_ok (onStream_eq (j := ⟨j.on, { j.file with input := input }⟩) hwrite)

/-- A file that is at its end, or finds itself there, ends the loop. -/
theorem sendLoop_end {f : LocalFile} (s : StreamOn Dialogue)
    (hinput : f.input = { remaining := [] } ∨ f.input = { remaining := [], eof := true }) :
    (Prog.loop (sendTurn_decreases encode) ()).run (⟨s, f⟩ : Job Dialogue LocalFile) =
      (.ok (), ⟨s, { f with input := { remaining := [], eof := true } }⟩) := by
  refine Prog.loop_done _ ?_
  rw [sendTurn, Prog.run_bind_get]
  rcases hinput with hinput | hinput
  · have hread : (InputFile.read kMaxChunkSize).run f.input =
        (.ok [], { remaining := [], eof := true }) := by
      rw [hinput]
      exact InputFile.read_rest chunkSize_pos
    rw [if_pos (by rw [hinput]; rfl), Prog.run_bind_ok (run_readBlock hread)]
    rfl
  · rw [if_neg (by rw [hinput]; decide), ← hinput]
    rfl

/-- The loop reads the whole file and sends its blocks. The file is then at its end. -/
theorem sendLoop_blocks {content : List Byte} {blocks payloads : List (List Byte)}
    (hblocks : Blocks kMaxChunkSize content blocks)
    (hencode : List.Forall₂ (fun block payload => encode block = .ok payload) blocks payloads)
    {j : Job Dialogue LocalFile} (hinput : j.file.input = { remaining := content })
    (hmax : ∀ payload ∈ payloads, (packet kData payload).length ≤ j.on.connection.maxData.toNat)
    (hacc : j.on.Accepts (k + 2 * payloads.length)) :
    ∃ s, (Prog.loop (sendTurn_decreases encode) ()).run j =
        (.ok (), ⟨s, { j.file with input := { remaining := [], eof := true } }⟩) ∧
      Wrote k (payloads.map (packet kData)) j.on s := by
  induction hblocks generalizing payloads j with
  | nil =>
    cases hencode
    exact ⟨j.on, sendLoop_end j.on (.inl hinput), Wrote.nil hacc⟩
  | @last block hne hlt =>
    cases hencode with
    | @cons _ payload _ _ hblock hnone =>
      cases hnone
      have hread : (InputFile.read kMaxChunkSize).run j.file.input =
          (.ok block, { remaining := [], eof := true }) := by
        rw [hinput]
        exact InputFile.read_rest hlt
      obtain ⟨s, hturn, hwrote⟩ := sendTurn_block (by rw [hinput]; rfl) hread hne hblock hacc
        (hmax payload List.mem_cons_self)
      refine ⟨s, ?_, hwrote⟩
      rw [Prog.loop_again _ hturn]
      exact sendLoop_end s (.inr rfl)
  | @full block rest blocks hlen _ ih =>
    cases hencode with
    | @cons _ payload _ payloads hblock hrest =>
      have hread : (InputFile.read kMaxChunkSize).run j.file.input =
          (.ok block, { remaining := rest }) := by
        rw [hinput]
        exact InputFile.read_full hlen
      have hne : block ≠ [] := List.ne_nil_of_length_pos (hlen ▸ chunkSize_pos)
      have hacc' : j.on.Accepts (k + 2 * payloads.length + 2) := hacc
      obtain ⟨s, hturn, hwrote⟩ := sendTurn_block (by rw [hinput]; rfl) hread hne hblock hacc'
        (hmax payload List.mem_cons_self)
      obtain ⟨t, hloop, hwrote'⟩ := ih hrest
        (j := ⟨s, { j.file with input := { remaining := rest } }⟩) rfl
        (fun p hp => hwrote.maxData ▸ hmax p (List.mem_cons_of_mem _ hp)) hwrote.accepts
      refine ⟨t, ?_, hwrote.trans hwrote'⟩
      rw [Prog.loop_again _ hturn]
      exact hloop

end Loop

/-! ### The answer -/

/-- What a push does once everything is written: it awaits the answer, and sends QUIT. -/
def finishPush : Action (StreamOn Dialogue) Unit := do
  readStatus
  writeQuit

/-- A push succeeds exactly when the answer is a complete OKAY and QUIT can be sent. -/
theorem finishPush_ok_iff {k : ℕ} {s : StreamOn Dialogue} (h : s.Accepts k) :
    (finishPush.run s).1 = .ok () ↔ ∃ length rest s', s.source =
        writeU32LE kOkay ++ (writeU32LE length ++ rest) ∧
      readStatus.run s = (.ok (), s') ∧ (writeQuit.run s').1 = .ok () := by
  obtain ⟨r, hstatus⟩ := exists_status s.ending s.source
  obtain ⟨s', hrun, -, -⟩ := readStatus_status h hstatus
  constructor
  · intro hok
    cases hr : r with
    | error e =>
      rw [hr] at hrun
      rw [finishPush, Prog.run_bind_error hrun] at hok
      cases hok
    | ok rest =>
      rw [hr] at hrun hstatus
      rw [finishPush, Prog.run_bind_ok hrun] at hok
      generalize hsource : s.source = source at hstatus
      cases hstatus with
      | okay length rest => exact ⟨length, rest, s', rfl, hrun, hok⟩
  · rintro ⟨length, rest, t, -, hrun', hquit⟩
    rw [finishPush, Prog.run_bind_ok hrun']
    exact hquit

/-- A complete OKAY ends a push where QUIT can be sent. -/
theorem finishPush_okay {s : StreamOn Dialogue} (h : s.Accepts 2) (hmax : 8 ≤ s.connection.maxData.toNat)
    {length : UInt32} {rest : List Byte} (hsource : s.source = writeU32LE kOkay ++ (writeU32LE length ++ rest)) :
    (finishPush.run s).1 = .ok () := by
  have hstatus : Status s.ending s.source (.ok rest) := by
    rw [hsource]
    exact .okay length rest
  obtain ⟨t, hrun, -, hread⟩ := readStatus_status h hstatus
  have hread' := hread rest rfl
  have hquit : (packet kQuit []).length ≤ t.connection.maxData.toNat := by
    rw [hread'.quiet.same.connection]
    exact hmax
  obtain ⟨u, hwrite, -⟩ := write_wrote (k := 0) (by rw [writesOf_packet]; exact hread'.accepts) hquit
  rw [finishPush, Prog.run_bind_ok hrun, writeQuit, hwrite]

/-- A complete FAIL becomes a device error with the daemon's reason. -/
theorem finishPush_fail {k : ℕ} {s : StreamOn Dialogue} (h : s.Accepts k) {reason rest : List Byte}
    (hlt : reason.length < 2 ^ 32) (hsource : s.source = packet kFail reason ++ rest) :
    (finishPush.run s).1 = .error (rejection reason) := by
  rw [packet_append] at hsource
  have hstatus : Status s.ending s.source (.error (rejection reason)) := by
    rw [hsource]
    exact .fail (.complete rest hlt)
  obtain ⟨s', hrun, -⟩ := readStatus_status h hstatus
  rw [finishPush, Prog.run_bind_error hrun]

/-- After the answer a push sends QUIT if it succeeds, and nothing otherwise. -/
theorem finishPush_farewell (s : StreamOn Dialogue) :
    wrtes s.stream.localId (finishPush.run s).2.connection.session.trace =
      wrtes s.stream.localId s.connection.session.trace ++ farewell (finishPush.run s).1 := by
  have hquiet := readStatus_quiet s
  rw [finishPush, Prog.run_bind]
  generalize readStatus.run s = status at hquiet
  match status with
  | (.error e, t) => exact (hquiet.wrtes _).trans (List.append_nil _).symm
  | (.ok (), t) =>
    have hsent := writeQuit_farewell t
    rw [hquiet.same.localId, hquiet.wrtes] at hsent
    exact hsent

/-! ### The whole push -/

section Whole

variable {k : ℕ} {encode : List Byte → Except Error (List Byte)} {content : List Byte}
  {blocks payloads : List (List Byte)}

/-- The modification time as DONE carries it. -/
def LocalFile.doneTime (f : LocalFile) : UInt32 := f.mtime.toUInt64.toUInt32

/-- Cutting towards zero is at most one above cutting down, and the same from zero on. -/
theorem tdiv_near (x : ℤ) {second : ℤ} (hpos : 0 < second) :
    x / second ≤ x.tdiv second ∧ x.tdiv second ≤ x / second + 1 ∧ (0 ≤ x → x.tdiv second = x / second) := by
  rw [Int.tdiv_eq_ediv, Int.sign_eq_one_of_pos hpos]
  split
  next h => exact ⟨by omega, by omega, fun _ => by omega⟩
  next h => exact ⟨by omega, by omega, fun hx => absurd (.inl hx) h⟩

/-- Where the clocks run alike, the time of a file is at most one second off. -/
theorem localMtime_near {report : TimeReport} {written epoch : ℤ} (hwritten : report.written = some written)
    (hsecond : report.systemSecond = report.fileSecond) (hpos : 0 < report.fileSecond) (hnow : 0 ≤ report.systemNow)
    (hepoch : report.systemNow = report.fileNow + epoch * report.fileSecond) :
    ∃ d, -1 ≤ d ∧ d ≤ 1 ∧
      localMtime report = Int64.ofInt ((written + epoch * report.fileSecond) / report.fileSecond + d) := by
  have hne : report.fileSecond ≠ 0 := hpos.ne'
  obtain ⟨hwfrom, hwto, -⟩ := tdiv_near written hpos
  obtain ⟨hffrom, hfto, -⟩ := tdiv_near report.fileNow hpos
  obtain ⟨-, -, hsystem⟩ := tdiv_near report.systemNow hpos
  have hsystem' : report.systemNow.tdiv report.fileSecond = report.fileNow / report.fileSecond + epoch := by
    rw [hsystem hnow, hepoch, Int.add_mul_ediv_right _ _ hne]
  refine ⟨written.tdiv report.fileSecond - written / report.fileSecond +
    (report.fileNow / report.fileSecond - report.fileNow.tdiv report.fileSecond), by omega, by omega, ?_⟩
  unfold localMtime
  rw [hwritten, Int.add_mul_ediv_right _ _ hne]
  dsimp only
  rw [hsecond, hsystem']
  congr 1
  omega

-- A file clock that counts towards an epoch to come makes the time one second too early.
example : localMtime
    { written := some (-4737664000000000000), fileNow := -4677663999500000000, systemNow := 1760000000500000000 } =
      1699999999 := by decide

/-- The messages of a push: a request, the DATA packets, and DONE. -/
def messages (request : List Byte) (payloads : List (List Byte)) (mtime : UInt32) : List (List Byte) :=
  request :: (payloads.map (packet kData) ++ [writeU32LE kDone ++ writeU32LE mtime])

theorem messages_flatten (request : List Byte) (payloads : List (List Byte)) (mtime : UInt32) :
    (messages request payloads mtime).flatten = request ++ fileBytes payloads mtime := by
  rw [messages, List.flatten_cons, List.flatten_append, fileBytes, List.flatMap_def, List.flatten_singleton]

theorem run_finishPush {φ : Type} (j : Job Dialogue φ) :
    (do onStream readStatus; onStream writeQuit : Action (Job Dialogue φ) Unit).run j =
      ((finishPush.run j.on).1, { j with on := (finishPush.run j.on).2 }) := by
  rw [finishPush, Prog.run_bind, Prog.run_bind, run_onStream]
  match readStatus.run j.on with
  | (.ok (), s) => rfl
  | (.error e, s) => rfl

/-- A file is sent up to its DONE, and the rest is the answer's. -/
theorem sendFile_sends (hblocks : Blocks kMaxChunkSize content blocks)
    (hencode : List.Forall₂ (fun block payload => encode block = .ok payload) blocks payloads)
    {j : Job Dialogue LocalFile} (hinput : j.file.input = { remaining := content })
    (hmax : ∀ payload ∈ payloads, (packet kData payload).length ≤ j.on.connection.maxData.toNat)
    (hdone : 8 ≤ j.on.connection.maxData.toNat)
    (hacc : j.on.Accepts (k + 2 * (payloads.length + 1))) :
    ∃ s file, Wrote k (payloads.map (packet kData) ++ [writeU32LE kDone ++ writeU32LE j.file.doneTime])
        j.on s ∧
      (sendFile encode).run j = ((finishPush.run s).1, ⟨(finishPush.run s).2, file⟩) := by
  have hacc' : j.on.Accepts (k + 2 + 2 * payloads.length) := by
    rw [show k + 2 + 2 * payloads.length = k + 2 * (payloads.length + 1) by omega]
    exact hacc
  obtain ⟨s, hloop, hwrote⟩ := sendLoop_blocks hblocks hencode hinput hmax hacc'
  have hdone' : (writeU32LE kDone ++ writeU32LE j.file.doneTime).length ≤ s.connection.maxData.toNat := by
    rw [hwrote.maxData]
    exact hdone
  have hacc'' : s.Accepts (k + writesOf (writeU32LE kDone ++ writeU32LE j.file.doneTime)) := hwrote.accepts
  obtain ⟨t, hwrite, hwrote'⟩ := write_wrote hacc'' hdone'
  refine ⟨t, { j.file with input := { remaining := [], eof := true } }, hwrote.trans hwrote', ?_⟩
  rw [sendFile, Prog.run_bind_get, if_neg (by rw [hinput]; simp), Prog.run_bind_ok hloop,
    Prog.run_bind_get, if_neg (by simp)]
  exact (Prog.run_bind_ok (onStream_eq hwrite)).trans (run_finishPush _)

/-- What a push has written when it awaits the answer, and how the rest of it goes. -/
structure Pushed (k : ℕ) (pieces : List (List Byte)) (s t : StreamOn Dialogue)
    (r : Except Error Unit × Host Dialogue LocalFile) : Prop where
  wrote : Wrote k pieces s t
  result : r.1 = (finishPush.run t).1
  wrtes : Adbcpp.wrtes s.stream.localId r.2.connection.session.trace =
    Adbcpp.wrtes s.stream.localId s.connection.session.trace ++ pieces ++ farewell r.1

/-- A push on a `sync:` stream that has been opened, with its request. -/
theorem pushOn_sends {host : Host Dialogue LocalFile} {stream : Stream} {c : Connection Dialogue}
    (hopen : (Stream.open (bytesOf "sync:")).run host.connection = (.ok stream, c))
    (hblocks : Blocks kMaxChunkSize content blocks)
    (hencode : List.Forall₂ (fun block payload => encode block = .ok payload) blocks payloads)
    (hinput : host.file.input = { remaining := content }) {request : List Byte} (hne : request ≠ [])
    (hrequest : request.length ≤ c.maxData.toNat)
    (hmax : ∀ payload ∈ payloads, (packet kData payload).length ≤ c.maxData.toNat)
    (hdone : 8 ≤ c.maxData.toNat)
    (hacc : (⟨stream, c⟩ : StreamOn Dialogue).Accepts (k + 2 * (payloads.length + 2))) :
    ∃ t, Pushed k (messages request payloads host.file.doneTime) ⟨stream, c⟩ t
      ((withSyncStream (do onStream (StreamOn.write request); sendFile encode)).run host) := by
  have hacc' : (⟨stream, c⟩ : StreamOn Dialogue).Accepts
      (k + 2 * (payloads.length + 1) + writesOf request) := by
    rw [writesOf, if_neg hne,
      show k + 2 * (payloads.length + 1) + 2 = k + 2 * (payloads.length + 2) by omega]
    exact hacc
  obtain ⟨s, hwrite, hwrote⟩ := write_wrote hacc' hrequest
  obtain ⟨t, file, hwrote', hrest⟩ := sendFile_sends (j := ⟨s, host.file⟩) hblocks hencode hinput
    (fun p hp => hwrote.maxData ▸ hmax p hp) (hwrote.maxData ▸ hdone) hwrote.accepts
  have hall := hwrote.trans hwrote'
  have hbody : (do onStream (StreamOn.write request); sendFile encode :
      Action (Job Dialogue LocalFile) Unit).run ⟨⟨stream, c⟩, host.file⟩ =
      ((finishPush.run t).1, ⟨(finishPush.run t).2, file⟩) :=
    (Prog.run_bind_ok (onStream_eq hwrite)).trans hrest
  rw [withSyncStream_eq hopen hbody]
  refine ⟨t, hall, rfl, ?_⟩
  have hsent := finishPush_farewell t
  rw [hall.stream, hall.wrtes] at hsent
  exact ((closeNow_quiet _).wrtes _).trans hsent

end Whole

/-- What a v1 push of `content` has written when it awaits the answer: the messages `pieces`, with
the DATA packets `packets`. -/
structure WritesFile (destination content : List Byte) (mode mtime : UInt32)
    (pieces packets : List (List Byte)) : Prop where
  bytes : pieces.flatten = sendBytes (sendSpec destination mode) packets mtime
  /-- The bytes can be read as a request, DATA packets and one DONE in this way only. -/
  unique : ∀ spec packets' mtime', spec.length < 2 ^ 32 → Sizable packets' →
    pieces.flatten = sendBytes spec packets' mtime' →
    spec = sendSpec destination mode ∧ packets' = packets ∧ mtime' = mtime
  spec_destination : (splitLastComma (sendSpec destination mode)).1 = destination
  spec_mode : readDecimal (splitLastComma (sendSpec destination mode)).2 = some mode.toNat
  sizes : ∀ p ∈ packets, 1 ≤ p.length ∧ p.length ≤ kMaxChunkSize
  full : ∀ p ∈ packets.dropLast, p.length = kMaxChunkSize
  whole : packets.flatten = content

theorem writesFile_blocks {destination content : List Byte} {mode : UInt32} (mtime : UInt32)
    {blocks : List (List Byte)} (hblocks : Blocks kMaxChunkSize content blocks)
    (hlt : (sendSpec destination mode).length < 2 ^ 32) :
    WritesFile destination content mode mtime
      (messages (packet kSendV1 (sendSpec destination mode)) blocks mtime) blocks := by
  have hsizes := hblocks.length_le chunkSize_pos
  have hsizable : Sizable blocks := by
    intro p hp
    have := (hsizes p hp).2
    rw [kMaxChunkSize] at this
    omega
  have hbytes := messages_flatten (packet kSendV1 (sendSpec destination mode)) blocks mtime
  refine ⟨hbytes, ?_, ?_, ?_, hsizes, hblocks.dropLast_full, hblocks.flatten⟩
  · intro spec packets' mtime' hlt' hs' heq
    exact sendBytes_inj hlt' hlt hs' hsizable (heq.symm.trans hbytes)
  · rw [splitLastComma_sendSpec]
  · rw [splitLastComma_sendSpec]
    exact readDecimal_decimal _

/-- The writes a push makes before the answer: two for each message. -/
def pushWrites (content : List Byte) : ℕ :=
  2 * ((content.length + (kMaxChunkSize - 1)) / kMaxChunkSize + 2)

/-- The v1 form of a push on a `sync:` stream that has been opened. -/
theorem pushV1_sends {host : Host Dialogue LocalFile} {destination content : List Byte} {mode : UInt32}
    {blocks : List (List Byte)} {stream : Stream} {c : Connection Dialogue}
    (hopen : (Stream.open (bytesOf "sync:")).run host.connection = (.ok stream, c))
    (hinput : host.file.input = { remaining := content })
    (hblocks : Blocks kMaxChunkSize content blocks)
    (hsends : (⟨stream, c⟩ : StreamOn Dialogue).Accepts (2 * (blocks.length + 2)))
    (hmax : 65544 ≤ c.maxData.toNat)
    (hrequest : (packet kSendV1 (sendSpec destination mode)).length ≤ c.maxData.toNat) :
    ∃ s, Pushed 0 (messages (packet kSendV1 (sendSpec destination mode)) blocks host.file.doneTime)
      ⟨stream, c⟩ s ((pushV1 destination mode).run host) := by
  have hfits : ∀ payload ∈ blocks, (packet kData payload).length ≤ c.maxData.toNat := by
    intro payload hmem
    have := (hblocks.length_le chunkSize_pos payload hmem).2
    rw [kMaxChunkSize] at this
    rw [length_packet]
    omega
  have hencode : List.Forall₂ (fun block payload => (Except.ok block : Except Error _) = .ok payload)
      blocks blocks := List.forall₂_same.mpr fun _ _ => rfl
  rw [← Nat.zero_add (2 * _)] at hsends
  exact pushOn_sends hopen hblocks hencode hinput (packet_ne_nil _ _) hrequest hfits (by omega) hsends

theorem length_sendSpec_lt {destination : List Byte} {mode : UInt32} {c : Connection Dialogue}
    (hrequest : (packet kSendV1 (sendSpec destination mode)).length ≤ c.maxData.toNat) :
    (sendSpec destination mode).length < 2 ^ 32 := by
  have := c.maxData.toNat_lt
  rw [length_packet] at hrequest
  omega

/-- A push of the v1 form goes on from where its STAT ends. -/
theorem run_push_v1 {b : Build} {host : Host Dialogue LocalFile} {remotePath : List Byte}
    {compression : SyncCompression} {existing : Option FileStat} {c₁ : Connection Dialogue}
    (hregular : host.file.isRegular = true)
    (hstat : (stat remotePath).run host.connection = (.ok existing, c₁))
    (hform : ((transferForm b compression).run (⟨c₁, host.file⟩ : Host Dialogue LocalFile)).1 = .ok none) :
    (push b remotePath compression).run host =
      (pushV1 (destinationOf remotePath existing host.file) host.file.mode).run ⟨c₁, host.file⟩ := by
  have hstat' : (onConnection (stat remotePath)).run host = (.ok existing, ⟨c₁, host.file⟩) := by
    rw [run_onConnection, hstat]
  have hchosen : (transferForm b compression).run (⟨c₁, host.file⟩ : Host Dialogue LocalFile) =
      (.ok none, ⟨c₁, host.file⟩) := Prod.ext hform (transferForm_state b compression _)
  rw [push, Prog.run_bind_get, if_neg (by simp [hregular]), Prog.run_bind_ok hstat',
    Prog.run_bind_ok hchosen]

/-- A v1 push puts exactly the file on the wire, and the device's answer decides its result. -/
theorem push_writes_file (b : Build) {host : Host Dialogue LocalFile} {remotePath content : List Byte}
    {compression : SyncCompression} {existing : Option FileStat} {c₁ c : Connection Dialogue}
    {stream : Stream} (hregular : host.file.isRegular = true)
    (hstat : (stat remotePath).run host.connection = (.ok existing, c₁))
    (hform : ((transferForm b compression).run (⟨c₁, host.file⟩ : Host Dialogue LocalFile)).1 = .ok none)
    (hopen : (Stream.open (bytesOf "sync:")).run c₁ = (.ok stream, c))
    (hinput : host.file.input = { remaining := content })
    (hsends : (⟨stream, c⟩ : StreamOn Dialogue).Accepts (pushWrites content))
    (hmax : 65544 ≤ c.maxData.toNat)
    (hrequest : (packet kSendV1 (sendSpec (destinationOf remotePath existing host.file)
      host.file.mode)).length ≤ c.maxData.toNat) :
    ∃ pieces packets s, WritesFile (destinationOf remotePath existing host.file) content
        host.file.mode host.file.doneTime pieces packets ∧
      Pushed 0 pieces ⟨stream, c⟩ s ((push b remotePath compression).run host) ∧
      (((push b remotePath compression).run host).1 = .ok () ↔ ∃ length rest s',
        (upcoming stream.localId c.session.inbox).1 = writeU32LE kOkay ++ (writeU32LE length ++ rest) ∧
        readStatus.run s = (.ok (), s') ∧ (writeQuit.run s').1 = .ok ()) ∧
      ∀ reason rest, reason.length < 2 ^ 32 →
        (upcoming stream.localId c.session.inbox).1 = packet kFail reason ++ rest →
        ((push b remotePath compression).run host).1 = .error (rejection reason) := by
  obtain ⟨blocks, hblocks, hcount⟩ := exists_blocks chunkSize_pos content
  rw [pushWrites, ← hcount] at hsends
  obtain ⟨s, hpushed⟩ :=
    @pushV1_sends ⟨c₁, host.file⟩ _ _ _ _ _ _ hopen hinput hblocks hsends hmax hrequest
  have hopened : (⟨stream, c⟩ : StreamOn Dialogue).Opened := ⟨_, _, hopen⟩
  have hsource : s.source = (upcoming stream.localId c.session.inbox).1 :=
    hpushed.wrote.source.trans (Prod.mk.inj hopened.drained.1.source).1
  rw [run_push_v1 hregular hstat hform]
  refine ⟨_, blocks, s, writesFile_blocks _ hblocks (length_sendSpec_lt hrequest), hpushed, ?_, ?_⟩
  · rw [← hsource, ← finishPush_ok_iff hpushed.wrote.accepts, ← hpushed.result]
  · intro reason rest hreason hanswer
    exact hpushed.result.trans (finishPush_fail hpushed.wrote.accepts hreason (hsource.trans hanswer))

/-- A device without the path, which accepts a file there. -/
def acceptingDevice : Connection Dialogue where
  maxData := 65544
  session := { inbox := [.frame ⟨makeEmptyMessage Protocol.kOkay 7 2, []⟩,
    .frame (deviceWrite 2 (writeU32LE kStatV1 ++ List.replicate 12 0)),
    .frame ⟨makeEmptyMessage kClse 7 2, []⟩, .frame ⟨makeEmptyMessage Protocol.kOkay 7 3, []⟩,
    .frame ⟨makeEmptyMessage Protocol.kOkay 7 3, []⟩, .frame (deviceWrite 3 (packet kOkay []))] }

def localText : LocalFile where
  filename := bytesOf "a,b"
  modeReport := .posix (some 0o100644)
  timeReport := { written := some 1000000000 }
  input := { remaining := [1, 2, 3] }

/-- The file is one byte larger than a chunk. -/
theorem push_writes_file_twoChunks : ∃ pieces packets s stream c,
    WritesFile (bytesOf "/sdcard/a,b") (List.replicate 65537 0) 0o644 1 pieces packets ∧
      Pushed 0 pieces ⟨stream, c⟩ s ((push {} (bytesOf "/sdcard/a,b") .auto).run
        ⟨acceptingDevice, { localText with input := { remaining := List.replicate 65537 0 } }⟩) := by
  generalize List.replicate 65537 (0 : Byte) = content
  have hstat : (stat (bytesOf "/sdcard/a,b")).run acceptingDevice =
      (.ok none, ((stat (bytesOf "/sdcard/a,b")).run acceptingDevice).2) := rfl
  have hopen : (Stream.open (bytesOf "sync:")).run ((stat (bytesOf "/sdcard/a,b")).run acceptingDevice).2 =
      (.ok { service := bytesOf "sync:", localId := 3, remoteId := 7 },
        ((Stream.open (bytesOf "sync:")).run
          ((stat (bytesOf "/sdcard/a,b")).run acceptingDevice).2).2) := rfl
  have hrequest : (packet kSendV1 (sendSpec (bytesOf "/sdcard/a,b") 0o644)).length ≤ 65544 := by decide
  obtain ⟨pieces, packets, s, hfile, hpushed, -⟩ := @push_writes_file {}
    ⟨acceptingDevice, { localText with input := { remaining := content } }⟩
    (bytesOf "/sdcard/a,b") content .auto none _ _ _ rfl hstat rfl hopen rfl
    (accepts_of_all rfl (fun o ho => absurd ho List.not_mem_nil) _) (by decide) hrequest
  exact ⟨pieces, packets, s, _, _, hfile, hpushed⟩

end Adbcpp.Sync
