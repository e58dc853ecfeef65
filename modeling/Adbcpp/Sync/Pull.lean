import Adbcpp.Stream.Delivery
import Adbcpp.Sync.Replies

/-! Pulling a file. The device's response is a sequence of DATA packets and one end:
DONE, FAIL, something that does not belong there, or the end of the stream at any
point. The local file gets the complete packets, and the end alone decides what the
pull returns. -/

namespace Adbcpp.Sync

open Protocol Dialogue StreamOn

/-! ### The response of the device -/

/-- A response that the stream cuts off: in its id, in its size, or in what follows them. -/
inductive Cut (limit : ℕ) : List Byte → Prop
  | id {part : List Byte} : part.length < 4 → Cut limit part
  | size {id : UInt32} {part : List Byte} : id ≠ kFail → part.length < 4 →
      Cut limit (writeU32LE id ++ part)
  | chunk {size : UInt32} {part : List Byte} : size.toNat ≤ limit → part.length < size.toNat →
      Cut limit (writeU32LE kData ++ (writeU32LE size ++ part))

/-- What ends a transfer after its complete DATA packets, and what a pull returns then. -/
inductive Concludes (limit : ℕ) (tooLarge : String) (ending : Ending) :
    List Byte → Except Error Unit → Prop
  | done (size : UInt32) (rest : List Byte) :
      Concludes limit tooLarge ending (writeU32LE kDone ++ (writeU32LE size ++ rest)) (.ok ())
  | fail {source : List Byte} {e : Error} : Reason ending source e →
      Concludes limit tooLarge ending (writeU32LE kFail ++ source) (.error e)
  | unknown {id : UInt32} (size : UInt32) (rest : List Byte) : id ≠ kFail → id ≠ kDone → id ≠ kData →
      Concludes limit tooLarge ending (writeU32LE id ++ (writeU32LE size ++ rest))
        (.error (.of .protocol "unexpected sync response"))
  | oversized {size : UInt32} (rest : List Byte) : limit < size.toNat →
      Concludes limit tooLarge ending (writeU32LE kData ++ (writeU32LE size ++ rest))
        (.error (.of .protocol tooLarge))
  | cut {source : List Byte} : Cut limit source →
      Concludes limit tooLarge ending source (.error ending.error)

/-! ### The loop -/

/-- The chunks go through the decoder one after the other, and come out as the given bytes. -/
inductive ChunkDecoder.Decodes (D : ChunkDecoder) : List (List Byte) → D.State → List Byte → Prop
  | nil (state : D.State) : Decodes D [] state []
  | cons {chunk out rest : List Byte} {chunks : List (List Byte)} {state state' : D.State} :
      (D.decode chunk).run state = (.ok out, state') → Decodes D chunks state' rest →
      Decodes D (chunk :: chunks) state (out ++ rest)

/-- The chunks go through the decoder one after the other, and each comes out as a block. -/
inductive ChunkDecoder.DecodesTo (D : ChunkDecoder) :
    List (List Byte) → D.State → List (List Byte) → Prop
  | nil (state : D.State) : DecodesTo D [] state []
  | cons {chunk out : List Byte} {chunks blocks : List (List Byte)} {state state' : D.State} :
      (D.decode chunk).run state = (.ok out, state') → DecodesTo D chunks state' blocks →
      DecodesTo D (chunk :: chunks) state (out :: blocks)

theorem ChunkDecoder.DecodesTo.decodes {D : ChunkDecoder} {chunks blocks : List (List Byte)}
    {state : D.State} (h : D.DecodesTo chunks state blocks) : D.Decodes chunks state blocks.flatten := by
  induction h with
  | nil state => exact .nil state
  | cons hchunk _ ih => exact .cons hchunk ih

theorem ChunkDecoder.DecodesTo.unique {D : ChunkDecoder} {chunks blocks blocks' : List (List Byte)}
    {state : D.State} (h : D.DecodesTo chunks state blocks) (h' : D.DecodesTo chunks state blocks') :
    blocks = blocks' := by
  induction h generalizing blocks' with
  | nil state =>
    cases h'
    rfl
  | cons hchunk _ ih =>
    cases h' with
    | cons hchunk' hrest =>
      rw [hchunk] at hchunk'
      cases hchunk'
      rw [ih hrest]

theorem ChunkDecoder.Decodes.exists_to {D : ChunkDecoder} {chunks : List (List Byte)} {state : D.State}
    {out : List Byte} (h : D.Decodes chunks state out) :
    ∃ blocks, D.DecodesTo chunks state blocks ∧ blocks.flatten = out := by
  induction h with
  | nil state => exact ⟨[], .nil state, rfl⟩
  | @cons chunk out rest chunks state state' hchunk _ ih =>
    obtain ⟨blocks, hblocks, rfl⟩ := ih
    exact ⟨out :: blocks, .cons hchunk hblocks, rfl⟩

theorem plain_decodes (chunks : List (List Byte)) :
    ChunkDecoder.plain.Decodes chunks ChunkDecoder.plain.initial chunks.flatten := by
  induction chunks with
  | nil => exact .nil _
  | cons chunk chunks ih => exact .cons rfl ih

section Turns

variable {k limit : ℕ} {tooLarge : String} {decoder : ChunkDecoder} {state : decoder.State}
  {j : Job Dialogue OutputFile}

/-- A complete DATA packet is decoded and written to the local file. -/
theorem receiveTurn_data (tooLarge : String) (hacc : j.on.Accepts k) {chunk rest : List Byte}
    (hsource : j.on.source = packet kData chunk ++ rest)
    (hlen : chunk.length < 2 ^ 32) (hcap : chunk.length ≤ limit) {out : List Byte}
    {state' : decoder.State} (hdec : (decoder.decode chunk).run state = (.ok out, state'))
    (hgood : (j.file.write out).bad = false) :
    ∃ s, (receiveTurn limit tooLarge decoder state).run j = (.ok (.again state'), ⟨s, j.file.write out⟩) ∧
      ReadTo k rest j.on s := by
  rw [packet_append] at hsource
  obtain ⟨s₁, hrun₁, hread₁⟩ := read_word hacc hsource
  obtain ⟨s₂, hrun₂, hread₂⟩ := read_word hread₁.accepts hread₁.source
  obtain ⟨s₃, hrun₃, hread₃⟩ := read_readTo hread₂.accepts hread₂.source
  refine ⟨s₃, ?_, (hread₁.trans hread₂).trans hread₃⟩
  rw [receiveTurn, Prog.run_bind_ok (onStream_eq hrun₁)]
  dsimp only
  rw [readU32LE_writeU32LE_self, if_neg kFail_ne_kData.symm, Prog.run_bind_ok (onStream_eq hrun₂),
    readU32LE_writeU32LE_self, toNat_length hlen, if_neg kDone_ne_kData.symm, if_neg (not_not.mpr rfl),
    if_neg (Nat.not_lt.mpr hcap), Prog.run_bind_ok (onStream_eq hrun₃), hdec]
  show ((if (j.file.write out).bad = true then _ else _ : Action (Job Dialogue OutputFile) _).run _) = _
  rw [if_neg (by simp [hgood])]
  rfl

/-- A response that is cut off ends with what ends the stream. -/
theorem receiveTurn_cut (hacc : j.on.Accepts k) (hcut : Cut limit j.on.source) :
    ∃ s', (receiveTurn limit tooLarge decoder state).run j =
      (.error j.on.ending.error, ⟨s', j.file⟩) ∧ Quiet j.on s' := by
  generalize hsource : j.on.source = source at hcut
  cases hcut with
  | id hshort =>
    obtain ⟨s₁, hrun₁, hquiet⟩ := read_cut 4 hacc (hsource ▸ hshort)
    exact ⟨s₁, Prog.run_bind_error (onStream_eq hrun₁), hquiet⟩
  | @size id part hfail hshort =>
    obtain ⟨s₁, hrun₁, hread₁⟩ := read_word hacc hsource
    obtain ⟨s₂, hrun₂, hquiet⟩ := read_cut 4 hread₁.accepts
      (by rw [hread₁.source]; exact hshort)
    rw [hread₁.ending] at hrun₂
    refine ⟨s₂, ?_, trans_of Quiet hread₁.quiet hquiet⟩
    rw [receiveTurn, Prog.run_bind_ok (onStream_eq hrun₁)]
    dsimp only
    rw [readU32LE_writeU32LE_self, if_neg hfail, Prog.run_bind_error (onStream_eq hrun₂)]
  | @chunk size part hcap hshort =>
    obtain ⟨s₁, hrun₁, hread₁⟩ := read_word hacc hsource
    obtain ⟨s₂, hrun₂, hread₂⟩ := read_word hread₁.accepts hread₁.source
    have hread := hread₁.trans hread₂
    obtain ⟨s₃, hrun₃, hquiet⟩ := read_cut size.toNat hread.accepts
      (by rw [hread.source]; exact hshort)
    rw [hread.ending] at hrun₃
    refine ⟨s₃, ?_, trans_of Quiet hread.quiet hquiet⟩
    rw [receiveTurn, Prog.run_bind_ok (onStream_eq hrun₁)]
    dsimp only
    rw [readU32LE_writeU32LE_self, if_neg kFail_ne_kData.symm, Prog.run_bind_ok (onStream_eq hrun₂),
      readU32LE_writeU32LE_self, if_neg kDone_ne_kData.symm, if_neg (not_not.mpr rfl),
      if_neg (Nat.not_lt.mpr hcap), Prog.run_bind_error (onStream_eq hrun₃)]

/-- The end of a response ends the loop, and leaves the local file as it is. -/
theorem receiveTurn_concludes (state : decoder.State) (hacc : j.on.Accepts k) {r : Except Error Unit}
    (hend : Concludes limit tooLarge j.on.ending j.on.source r) :
    ∃ j', (receiveTurn limit tooLarge decoder state).run j = (r.map .done, j') ∧ j'.file = j.file ∧
      Quiet j.on j'.on ∧ (r = .ok () → j'.on.Accepts k) := by
  generalize hsource : j.on.source = source at hend
  cases hend with
  | done size rest =>
    obtain ⟨s₁, hrun₁, hread₁⟩ := read_word hacc hsource
    obtain ⟨s₂, hrun₂, hread₂⟩ := read_word hread₁.accepts hread₁.source
    have hread := hread₁.trans hread₂
    refine ⟨⟨s₂, j.file⟩, ?_, rfl, hread.quiet, fun _ => hread.accepts⟩
    rw [receiveTurn, Prog.run_bind_ok (onStream_eq hrun₁)]
    dsimp only
    rw [readU32LE_writeU32LE_self, if_neg kFail_ne_kDone.symm, Prog.run_bind_ok (onStream_eq hrun₂),
      if_pos rfl]
    rfl
  | @fail source e he =>
    obtain ⟨s₁, hrun₁, hread₁⟩ := read_word hacc hsource
    rw [← hread₁.source, ← hread₁.ending] at he
    obtain ⟨s₂, hrun₂, hquiet⟩ := syncFail_reason hread₁.accepts he
    refine ⟨⟨s₂, j.file⟩, ?_, rfl, trans_of Quiet hread₁.quiet hquiet, fun h => by cases h⟩
    rw [receiveTurn, Prog.run_bind_ok (onStream_eq hrun₁)]
    dsimp only
    rw [readU32LE_writeU32LE_self, if_pos rfl]
    exact onStream_eq hrun₂
  | @unknown id size rest hfail hdone hdata =>
    obtain ⟨s₁, hrun₁, hread₁⟩ := read_word hacc hsource
    obtain ⟨s₂, hrun₂, hread₂⟩ := read_word hread₁.accepts hread₁.source
    refine ⟨⟨s₂, j.file⟩, ?_, rfl, (hread₁.trans hread₂).quiet, fun h => by cases h⟩
    rw [receiveTurn, Prog.run_bind_ok (onStream_eq hrun₁)]
    dsimp only
    rw [readU32LE_writeU32LE_self, if_neg hfail, Prog.run_bind_ok (onStream_eq hrun₂), if_neg hdone,
      if_pos hdata]
    rfl
  | @oversized size rest hover =>
    obtain ⟨s₁, hrun₁, hread₁⟩ := read_word hacc hsource
    obtain ⟨s₂, hrun₂, hread₂⟩ := read_word hread₁.accepts hread₁.source
    refine ⟨⟨s₂, j.file⟩, ?_, rfl, (hread₁.trans hread₂).quiet, fun h => by cases h⟩
    rw [receiveTurn, Prog.run_bind_ok (onStream_eq hrun₁)]
    dsimp only
    rw [readU32LE_writeU32LE_self, if_neg kFail_ne_kData.symm, Prog.run_bind_ok (onStream_eq hrun₂),
      readU32LE_writeU32LE_self, if_neg kDone_ne_kData.symm, if_neg (not_not.mpr rfl), if_pos hover]
    rfl
  | cut hcut =>
    obtain ⟨s', hrun, hquiet⟩ := receiveTurn_cut hacc (hsource ▸ hcut)
    exact ⟨⟨s', j.file⟩, hrun, rfl, hquiet, fun h => by cases h⟩

/-- The loop writes the decoded chunks to the local file and ends as the response concludes. -/
theorem receiveLoop_concludes {chunks blocks : List (List Byte)}
    (hdec : decoder.DecodesTo chunks state blocks) {j : Job Dialogue OutputFile} (hacc : j.on.Accepts k)
    (hgood : (j.file.writes blocks).bad = false) {tail : List Byte}
    (hsource : j.on.source = chunks.flatMap (packet kData) ++ tail)
    (hcap : ∀ chunk ∈ chunks, chunk.length ≤ limit ∧ chunk.length < 2 ^ 32) {r : Except Error Unit}
    (hend : Concludes limit tooLarge j.on.ending tail r) :
    ∃ j', (Prog.loop (receiveTurn_decreases limit tooLarge decoder) state).run j = (r, j') ∧
      j'.file = j.file.writes blocks ∧ Quiet j.on j'.on ∧ (r = .ok () → j'.on.Accepts k) := by
  induction hdec generalizing j with
  | nil state =>
    rw [List.flatMap_nil, List.nil_append] at hsource
    obtain ⟨j', hturn, hsame, hquiet, hacc'⟩ :=
      receiveTurn_concludes state hacc (hsource ▸ hend)
    refine ⟨j', ?_, hsame, hquiet, hacc'⟩
    cases r with
    | ok u => exact Prog.loop_done _ hturn
    | error e => exact Prog.loop_error _ hturn
  | @cons chunk out chunks blocks state state' hchunk _ ih =>
    rw [List.flatMap_cons, List.append_assoc] at hsource
    rw [OutputFile.writes_cons] at hgood
    obtain ⟨hle, hlt⟩ := hcap chunk List.mem_cons_self
    obtain ⟨s, hturn, hread⟩ := receiveTurn_data tooLarge hacc hsource hlt hle hchunk
      (OutputFile.writes_written hgood).1
    obtain ⟨j', hloop, hfile, hquiet, hacc'⟩ := ih (j := ⟨s, j.file.write out⟩) hread.accepts hgood
      hread.source (fun chunk hmem => hcap chunk (List.mem_cons_of_mem _ hmem)) (hread.ending ▸ hend)
    refine ⟨j', ?_, hfile, trans_of Quiet hread.quiet hquiet, hacc'⟩
    rw [Prog.loop_again _ hturn]
    exact hloop

/-- Receiving a file writes exactly the decoded chunks, and destroys the stream behind them. -/
theorem receiveFile_concludes {chunks blocks : List (List Byte)}
    (hdec : decoder.DecodesTo chunks decoder.initial blocks) {j : Job Dialogue OutputFile}
    (hacc : j.on.Accepts (k + 2)) (hmax : 8 ≤ j.on.connection.maxData.toNat)
    (hgood : (j.file.openTruncated.writes blocks).bad = false)
    {tail : List Byte} (hsource : j.on.source = chunks.flatMap (packet kData) ++ tail)
    (hcap : ∀ chunk ∈ chunks, chunk.length ≤ limit ∧ chunk.length < 2 ^ 32) {r : Except Error Unit}
    (hend : Concludes limit tooLarge j.on.ending tail r) :
    ∃ j', (receiveFile limit tooLarge decoder).run j = (r, j') ∧
      j'.file = (j.file.openTruncated.writes blocks).close ∧
      wrtes j.on.stream.localId j'.on.connection.session.trace =
        wrtes j.on.stream.localId j.on.connection.session.trace ++ farewell r := by
  obtain ⟨j₁, hloop, hwrites, hquiet, hacc₁⟩ := receiveLoop_concludes (j := ⟨j.on, j.file.openTruncated⟩)
    hdec hacc hgood hsource hcap hend
  have hbody : ∀ p : Action (Job Dialogue OutputFile) Unit,
      (do onFile (Prog.modify OutputFile.openTruncated)
          let job ← Prog.get
          if job.file.bad then Prog.fail (.of .io "cannot open the local file for writing") else p :
        Action (Job Dialogue OutputFile) Unit).run j = p.run ⟨j.on, j.file.openTruncated⟩ := by
    intro p
    show ((if j.file.openTruncated.bad = true then _ else p : Action (Job Dialogue OutputFile) _).run _) = _
    rw [if_neg (by simp [(OutputFile.writes_written hgood).1])]
    rfl
  rw [receiveFile, Prog.run_ensuring, hbody]
  cases r with
  | error e =>
    rw [Prog.run_bind_error hloop, ← hwrites]
    exact ⟨_, rfl, rfl, by rw [farewell, List.append_nil]; exact hquiet.wrtes _⟩
  | ok u =>
    have hmax₁ : (packet kQuit []).length ≤ j₁.on.connection.maxData.toNat := by
      rw [hquiet.same.connection]
      exact hmax
    have hacc₂ : j₁.on.Accepts (k + writesOf (packet kQuit [])) := hacc₁ rfl
    obtain ⟨s, hquit, hwrote⟩ := write_wrote hacc₂ hmax₁
    rw [Prog.run_bind_ok hloop, writeQuit, onStream_eq hquit, ← hwrites]
    refine ⟨_, rfl, rfl, ?_⟩
    have hid : j₁.on.stream.localId = j.on.stream.localId := hquiet.same.localId
    have hsent := hwrote.wrtes
    rw [hid, hquiet.wrtes] at hsent
    exact hsent

end Turns

/-- A pull on a `sync:` stream that has been opened, with its request, where no write fails. -/
theorem pullOn_writes {limit : ℕ} {tooLarge : String} {decoder : ChunkDecoder}
    {host : Host Dialogue OutputFile} {stream : Stream} {c : Connection Dialogue}
    {chunks blocks : List (List Byte)} {tail : List Byte} {r : Except Error Unit}
    (hopen : (Stream.open (bytesOf "sync:")).run host.connection = (.ok stream, c))
    (hsends : (⟨stream, c⟩ : StreamOn Dialogue).AllAccepted) {request : List Byte}
    (hrequest : request.length ≤ c.maxData.toNat) (hquit : 8 ≤ c.maxData.toNat)
    (hdec : decoder.DecodesTo chunks decoder.initial blocks)
    (hgood : (host.file.openTruncated.writes blocks).bad = false)
    (hcap : ∀ chunk ∈ chunks, chunk.length ≤ limit ∧ chunk.length < 2 ^ 32)
    (hup : (upcoming stream.localId c.session.inbox).1 = chunks.flatMap (packet kData) ++ tail)
    (hend : Concludes limit tooLarge (upcoming stream.localId c.session.inbox).2 tail r) :
    ∃ host', (withSyncStream (do
          onStream (StreamOn.write request)
          receiveFile limit tooLarge decoder)).run host = (r, host') ∧
      host'.file = (host.file.openTruncated.writes blocks).close ∧
      wrtes stream.localId host'.connection.session.trace =
        wrtes stream.localId c.session.trace ++ request :: farewell r := by
  have hopened : (⟨stream, c⟩ : StreamOn Dialogue).Opened := ⟨_, _, hopen⟩
  obtain ⟨hdrained, hsession⟩ := hopened.drained
  have hstart := Prod.mk.inj hdrained.source
  obtain ⟨s, hwrite, hwrote⟩ := write_wrote (k := 2) (s := ⟨stream, c⟩)
    (accepts_of_all hsession hsends _) hrequest
  have hsource := hwrote.source.trans (hstart.1.trans hup)
  have hending := hwrote.ending.trans hstart.2
  have hquit' : 8 ≤ s.connection.maxData.toNat := by
    rw [hwrote.maxData]
    exact hquit
  obtain ⟨j, hreceive, hfile, hsent⟩ := receiveFile_concludes (k := 0) (j := ⟨s, host.file⟩)
    hdec hwrote.accepts hquit' hgood hsource hcap (hending ▸ hend)
  have hid : s.stream.localId = stream.localId := hwrote.same.localId
  have hbody : (do onStream (StreamOn.write request); receiveFile limit tooLarge decoder :
      Action (Job Dialogue OutputFile) Unit).run ⟨⟨stream, c⟩, host.file⟩ = (r, j) :=
    (Prog.run_bind_ok (onStream_eq hwrite)).trans hreceive
  refine ⟨_, withSyncStream_eq hopen hbody, hfile, ?_⟩
  have hfirst := hwrote.wrtes
  rw [hid] at hsent
  rw [(closeNow_quiet j.on).wrtes, hsent, hfirst, List.append_assoc]
  rfl

/-- Such a pull to a file that takes everything leaves exactly the decoded chunks in it. -/
theorem pullOn_concludes {limit : ℕ} {tooLarge : String} {decoder : ChunkDecoder}
    {host : Host Dialogue OutputFile} {stream : Stream} {c : Connection Dialogue}
    {chunks : List (List Byte)} {out tail : List Byte} {r : Except Error Unit}
    (hopen : (Stream.open (bytesOf "sync:")).run host.connection = (.ok stream, c))
    (hsends : (⟨stream, c⟩ : StreamOn Dialogue).AllAccepted) {request : List Byte}
    (hrequest : request.length ≤ c.maxData.toNat) (hquit : 8 ≤ c.maxData.toNat)
    (hfile : host.file.Accepting) (hdec : decoder.Decodes chunks decoder.initial out)
    (hcap : ∀ chunk ∈ chunks, chunk.length ≤ limit ∧ chunk.length < 2 ^ 32)
    (hup : (upcoming stream.localId c.session.inbox).1 = chunks.flatMap (packet kData) ++ tail)
    (hend : Concludes limit tooLarge (upcoming stream.localId c.session.inbox).2 tail r) :
    ∃ host', (withSyncStream (do
          onStream (StreamOn.write request)
          receiveFile limit tooLarge decoder)).run host = (r, host') ∧
      host'.file.disk = out ∧
      wrtes stream.localId host'.connection.session.trace =
        wrtes stream.localId c.session.trace ++ request :: farewell r := by
  obtain ⟨blocks, hblocks, rfl⟩ := hdec.exists_to
  have hholds := hfile.openTruncated.writes blocks
  obtain ⟨host', hrun, hclosed, hsent⟩ :=
    pullOn_writes hopen hsends hrequest hquit hblocks hholds.good hcap hup hend
  exact ⟨host', hrun, hclosed ▸ hholds.close, hsent⟩

/-- The v1 form of a pull on a `sync:` stream that has been opened. -/
theorem pullV1_concludes {host : Host Dialogue OutputFile} {remotePath : List Byte} {stream : Stream}
    {c : Connection Dialogue} {chunks : List (List Byte)} {tail : List Byte} {r : Except Error Unit}
    (hopen : (Stream.open (bytesOf "sync:")).run host.connection = (.ok stream, c))
    (hsends : (⟨stream, c⟩ : StreamOn Dialogue).AllAccepted)
    (hmax : (packet kRecvV1 remotePath).length ≤ c.maxData.toNat) (hfile : host.file.Accepting)
    (hcap : ∀ chunk ∈ chunks, chunk.length ≤ kMaxChunkSize)
    (hup : (upcoming stream.localId c.session.inbox).1 = chunks.flatMap (packet kData) ++ tail)
    (hend : Concludes kMaxChunkSize "the sync chunk is larger than 64 KiB"
      (upcoming stream.localId c.session.inbox).2 tail r) :
    ∃ host', (pullV1 remotePath).run host = (r, host') ∧ host'.file.disk = chunks.flatten ∧
      wrtes stream.localId host'.connection.session.trace =
        wrtes stream.localId c.session.trace ++ packet kRecvV1 remotePath :: farewell r := by
  have hquit : 8 ≤ c.maxData.toNat := by
    rw [length_packet] at hmax
    exact Nat.le_trans (Nat.le_add_right _ _) hmax
  have hcap' : ∀ chunk ∈ chunks, chunk.length ≤ kMaxChunkSize ∧ chunk.length < 2 ^ 32 := by
    intro chunk hmem
    have := hcap chunk hmem
    rw [kMaxChunkSize] at this ⊢
    omega
  exact pullOn_concludes hopen hsends hmax hquit hfile (plain_decodes chunks) hcap' hup hend

/-- A v1 pull writes exactly what the device sent: whatever the device sends on the stream, and
however it is split into WRTEs, the local file holds the complete DATA packets, and the end of the
response decides the result. -/
theorem pull_concludes (b : Build) {host : Host Dialogue OutputFile} {remotePath : List Byte}
    {compression : SyncCompression} {stream : Stream} {c : Connection Dialogue}
    {chunks : List (List Byte)} {tail : List Byte} {r : Except Error Unit}
    (hpath : remotePath.length ≤ kMaxPathLength)
    (hform : ((transferForm b compression).run host).1 = .ok none)
    (hopen : (Stream.open (bytesOf "sync:")).run host.connection = (.ok stream, c))
    (hsends : (⟨stream, c⟩ : StreamOn Dialogue).AllAccepted)
    (hmax : (packet kRecvV1 remotePath).length ≤ c.maxData.toNat) (hfile : host.file.Accepting)
    (hcap : ∀ chunk ∈ chunks, chunk.length ≤ kMaxChunkSize)
    (hup : (upcoming stream.localId c.session.inbox).1 = chunks.flatMap (packet kData) ++ tail)
    (hend : Concludes kMaxChunkSize "the sync chunk is larger than 64 KiB"
      (upcoming stream.localId c.session.inbox).2 tail r) :
    ∃ host', (pull b remotePath compression).run host = (r, host') ∧
      host'.file.disk = chunks.flatten ∧
      wrtes stream.localId host'.connection.session.trace =
        wrtes stream.localId c.session.trace ++ packet kRecvV1 remotePath :: farewell r := by
  have hchosen : (transferForm b compression).run host = (.ok none, host) :=
    Prod.ext hform (transferForm_state b compression host)
  obtain ⟨host', hrun, hdisk, hsent⟩ := pullV1_concludes hopen hsends hmax hfile hcap hup hend
  refine ⟨host', ?_, hdisk, hsent⟩
  rw [pull, if_neg (Nat.not_lt.mpr hpath), Prog.run_bind_ok hchosen]
  exact hrun

/-- A device that splits its response inside the header and the body of packets, with a frame for
another stream in between. -/
def splittingDevice : Connection Dialogue where
  maxData := 4096
  session := { inbox := [.frame ⟨makeEmptyMessage Protocol.kOkay 7 2, []⟩,
    .frame (deviceWrite 2 ((packet kData [1, 2, 3]).take 6)), .frame ⟨makeEmptyMessage kClse 8 3, []⟩,
    .frame (deviceWrite 2 ((packet kData [1, 2, 3]).drop 6 ++ (packet kData [4]).take 1)),
    .frame (deviceWrite 2 ((packet kData [4]).drop 1 ++ writeU32LE kDone ++ writeU32LE 0)),
    .frame ⟨makeEmptyMessage Protocol.kOkay 7 2, []⟩] }

theorem pull_concludes_splittingDevice :
    ∃ host', (pull {} (bytesOf "/sdcard/a") .auto).run ⟨splittingDevice, {}⟩ = (.ok (), host') ∧
      host'.file.disk = [[1, 2, 3], [4]].flatten ∧
      wrtes 2 host'.connection.session.trace = wrtes 2
        ((Stream.open (bytesOf "sync:")).run splittingDevice).2.session.trace ++
        packet kRecvV1 (bytesOf "/sdcard/a") :: farewell (.ok ()) := by
  have hopen : (Stream.open (bytesOf "sync:")).run splittingDevice =
      (.ok { service := bytesOf "sync:", localId := 2, remoteId := 7 },
        ((Stream.open (bytesOf "sync:")).run splittingDevice).2) := rfl
  have hfile : ({} : OutputFile).Accepting := ⟨rfl, by simp, rfl⟩
  have hup : (upcoming 2 ((Stream.open (bytesOf "sync:")).run splittingDevice).2.session.inbox).1 =
      [[1, 2, 3], [4]].flatMap (packet kData) ++ (writeU32LE kDone ++ (writeU32LE 0 ++ [])) := rfl
  refine @pull_concludes {} ⟨splittingDevice, {}⟩ (bytesOf "/sdcard/a") .auto _ _ [[1, 2, 3], [4]] _ _
    ?_ ?_ hopen ?_ ?_ hfile ?_ hup (.done 0 [])
  · decide
  · rfl
  · exact fun o ho => absurd ho List.not_mem_nil
  · decide
  · decide

end Adbcpp.Sync
