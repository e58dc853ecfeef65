import Adbcpp.Calls
import Adbcpp.Sync.Endings

/-! What a successful pull leaves in the file system. The stream of the local file is looked
at behind every write, but what is still in its buffer at the end is written when it is
destroyed, and nobody learns whether that worked. -/

namespace Adbcpp.Sync

open Protocol Dialogue StreamOn

/-! ### One pull for both forms -/

/-- What the DATA packets of a pull go through, by its form. -/
def decoderOf (b : Build) : Option CompressionCodec → ChunkDecoder
  | some codec => .ofCodec b codec
  | none => .plain

/-- The cap on a DATA packet of a pull, by its form. -/
def limitOf (b : Build) : Option CompressionCodec → ℕ
  | some _ => kMaxCompressedChunkSize b
  | none => kMaxChunkSize

def tooLargeOf : Option CompressionCodec → String
  | some _ => "the sync chunk is larger than the compression bound"
  | none => "the sync chunk is larger than 64 KiB"

/-- What a pull does on a stream of its own. -/
def recvBody (b : Build) (remotePath : List Byte) (form : Option CompressionCodec) :
    Action (Job Dialogue OutputFile) Unit := do
  onStream (StreamOn.write (recvRequest remotePath form))
  receiveFile (limitOf b form) (tooLargeOf form) (decoderOf b form)

variable {b : Build} {form : Option CompressionCodec} {remotePath : List Byte}
  {compression : SyncCompression} {host : Host Dialogue OutputFile} {chunks : List (List Byte)}

theorem run_pull (hpath : remotePath.length ≤ kMaxPathLength)
    (hform : formOf b compression host.connection = .ok form) :
    (pull b remotePath compression).run host = (withSyncStream (recvBody b remotePath form)).run host := by
  have hsame : ((transferForm b compression).run host).1 = formOf b compression host.connection :=
    transferForm_congr b compression rfl
  have hchosen : (transferForm b compression).run host = (.ok form, host) :=
    Prod.ext (hsame.trans hform) (transferForm_state b compression host)
  unfold pull
  rw [if_neg (Nat.not_lt.mpr hpath), Prog.run_bind_ok hchosen]
  cases form <;> rfl

theorem path_of_pull_ok (hpull : ((pull b remotePath compression).run host).1 = .ok ()) :
    remotePath.length ≤ kMaxPathLength := by
  apply Nat.le_of_not_lt
  intro hlong
  unfold pull at hpull
  rw [if_pos hlong] at hpull
  cases hpull

/-- A pull that succeeds has decoded all packets, and closed the file behind what they brought. -/
theorem pull_received (hsizable : Sizable chunks) (hform : formOf b compression host.connection = .ok form)
    (hoffers : Offers host chunks) (hpull : ((pull b remotePath compression).run host).1 = .ok ()) :
    (∀ chunk ∈ chunks, chunk.length ≤ limitOf b form) ∧ ∃ blocks,
      (decoderOf b form).DecodesTo chunks (decoderOf b form).initial blocks ∧
      (host.file.openTruncated.writes blocks).bad = false ∧
      ((pull b remotePath compression).run host).2.file = (host.file.openTruncated.writes blocks).close := by
  have hrun := run_pull (path_of_pull_ok hpull) hform
  rw [hrun] at hpull ⊢
  obtain ⟨stream, c, size, rest, hopen, hup⟩ := hoffers
  obtain ⟨file, ⟨blocks, hreceives, hgood, rfl⟩, hfile⟩ := pullOn_receives hopen hpull
  rw [hup] at hreceives
  obtain ⟨hcap, hdecodes⟩ := receives_chunks hsizable hreceives
  exact ⟨hcap, blocks, hdecodes, hgood, hfile⟩

/-! ### A device for each form -/

/-- The features of a device with which a transfer takes the form, where it is built in. -/
def featuresOf : Option CompressionCodec → List (List Byte)
  | none => []
  | some .zstd => [kSendRecvV2Feature, kSendRecvV2ZstdFeature]
  | some .lz4 => [kSendRecvV2Feature, kSendRecvV2Lz4Feature]
  | some .brotli => [kSendRecvV2Feature, kSendRecvV2BrotliFeature]

/-- A device with the features that sends the packets byte by byte, and the local file. -/
def offeringHost (form : Option CompressionCodec) (chunks : List (List Byte)) (f : OutputFile) :
    Host Dialogue OutputFile :=
  ⟨{ bytewiseDevice (doneResponse chunks) with features := featuresOf form }, f⟩

theorem hasCompression_of_builtIn {codec : CompressionCodec} (h : (b.builtIn codec).isSome) :
    b.hasCompression = true := by
  unfold Build.hasCompression
  cases codec with
  | zstd => simp [show b.zstd.isSome from h]
  | lz4 => simp [show b.lz4.isSome from h]
  | brotli => simp [show b.brotli.isSome from h]

theorem formOf_offeringHost (hbuilt : ∀ codec, form = some codec → (b.builtIn codec).isSome)
    (chunks : List (List Byte)) (f : OutputFile) :
    formOf b .auto (offeringHost form chunks f).connection = .ok form := by
  have hcodec : chooseCodec b (offeringHost form chunks f).connection .auto = .ok form := by
    have hfeatures : (offeringHost form chunks f).connection.features = featuresOf form := rfl
    unfold chooseCodec Connection.supportsFeature
    rw [hfeatures]
    match form, hbuilt with
    | none, _ => simp [featuresOf]
    | some .zstd, hbuilt =>
      have hzstd : b.zstd.isSome := hbuilt .zstd rfl
      simp [featuresOf, hzstd]
    | some .lz4, hbuilt =>
      have hlz4 : b.lz4.isSome := hbuilt .lz4 rfl
      have hother : kSendRecvV2ZstdFeature ∉ [kSendRecvV2Feature, kSendRecvV2Lz4Feature] := by decide
      simp [featuresOf, hlz4, hother]
    | some .brotli, hbuilt =>
      have hbrotli : b.brotli.isSome := hbuilt .brotli rfl
      have hzstd : kSendRecvV2ZstdFeature ∉ [kSendRecvV2Feature, kSendRecvV2BrotliFeature] := by decide
      have hlz4 : kSendRecvV2Lz4Feature ∉ [kSendRecvV2Feature, kSendRecvV2BrotliFeature] := by decide
      simp [featuresOf, hbrotli, hzstd, hlz4]
  have hchosen : (if b.hasCompression then
      chooseCodec b (offeringHost form chunks f).connection .auto else .ok none) = .ok form := by
    rw [hcodec]
    split
    · rfl
    next hnone =>
      cases form with
      | none => rfl
      | some codec => exact absurd (hasCompression_of_builtIn (hbuilt codec rfl)) hnone
  unfold formOf transferForm
  rw [Prog.run_bind_get]
  dsimp only
  rw [hchosen]
  cases form <;> rfl

theorem open_offeringHost (form : Option CompressionCodec) (chunks : List (List Byte)) (f : OutputFile) :
    ∃ c, (Stream.open (bytesOf "sync:")).run (offeringHost form chunks f).connection =
      (.ok { service := bytesOf "sync:", localId := 2, remoteId := 7 }, c) ∧
    c.maxData = 4096 ∧ c.session.outcomes = [] ∧
    (upcoming 2 c.session.inbox) =
      (doneResponse chunks, .failed (.of .protocol "unexpected end of stream")) :=
  ⟨_, rfl, rfl, rfl, upcoming_bytewise _⟩

theorem offeringHost_offers (form : Option CompressionCodec) (chunks : List (List Byte)) (f : OutputFile) :
    Offers (offeringHost form chunks f) chunks := by
  obtain ⟨c, hopen, -, -, hup⟩ := open_offeringHost form chunks f
  refine ⟨_, c, 0, [], hopen, ?_⟩
  rw [hup]
  rfl

/-- A pull from such a device succeeds where its packets are taken and no write fails. -/
theorem pull_offeringHost {f : OutputFile} {blocks : List (List Byte)} (hpath : remotePath.length ≤ kMaxPathLength)
    (hsizable : Sizable chunks)
    (hbuilt : ∀ codec, form = some codec → (b.builtIn codec).isSome)
    (hcap : ∀ chunk ∈ chunks, chunk.length ≤ limitOf b form)
    (hdec : (decoderOf b form).DecodesTo chunks (decoderOf b form).initial blocks)
    (hgood : (f.openTruncated.writes blocks).bad = false) :
    ∃ host, (pull b remotePath .auto).run (offeringHost form chunks f) = (.ok (), host) ∧
      host.file = (f.openTruncated.writes blocks).close := by
  obtain ⟨c, hopen, hmax, houtcomes, hup⟩ := open_offeringHost form chunks f
  have hsends : (⟨{ service := bytesOf "sync:", localId := 2, remoteId := 7 }, c⟩ :
      StreamOn Dialogue).AllAccepted := fun o ho => by
    rw [show _ = _ from houtcomes] at ho
    exact absurd ho List.not_mem_nil
  have hquit : 8 ≤ c.maxData.toNat := by
    rw [hmax]
    decide
  have hrequest : (recvRequest remotePath form).length ≤ c.maxData.toNat := by
    have hlimit : c.maxData.toNat = 4096 := congrArg UInt32.toNat hmax
    rw [kMaxPathLength] at hpath
    cases form with
    | none =>
      rw [recvRequest, length_packet]
      omega
    | some codec =>
      simp only [recvRequest, List.length_append, length_packet, length_writeU32LE]
      omega
  obtain ⟨host, hrun, hfile, -⟩ := pullOn_writes hopen hsends hrequest hquit hdec
    hgood (fun chunk hmem => ⟨hcap chunk hmem, hsizable chunk hmem⟩) (congrArg Prod.fst hup) (.done 0 [])
  refine ⟨host, ?_, hfile⟩
  rw [run_pull hpath (formOf_offeringHost hbuilt chunks f)]
  exact hrun

/-! ### Which pulls store all they receive -/

/-- Every pull of these packets to the file that succeeds leaves all decoded bytes in the file system. -/
def StoresAll (b : Build) (form : Option CompressionCodec) (chunks : List (List Byte)) (f : OutputFile) : Prop :=
  ∀ (host : Host Dialogue OutputFile) (remotePath : List Byte) (compression : SyncCompression),
    host.file = f → formOf b compression host.connection = .ok form → Offers host chunks →
    ((pull b remotePath compression).run host).1 = .ok () → ∃ blocks,
      (decoderOf b form).DecodesTo chunks (decoderOf b form).initial blocks ∧
      ((pull b remotePath compression).run host).2.file.disk = blocks.flatten

/-- A file that was opened and written is complete when it is closed exactly where it is flushed then. -/
theorem close_writes_iff {f : OutputFile} {blocks : List (List Byte)}
    (hgood : (f.openTruncated.writes blocks).bad = false) :
    (f.openTruncated.writes blocks).close.disk = blocks.flatten ↔ (f.openTruncated.writes blocks).Flushes := by
  obtain ⟨hopened, hwritten⟩ := OutputFile.writes_written hgood
  obtain ⟨hopen, hdisk, hbuffered⟩ := OutputFile.openTruncated_good hopened
  have hisOpen : (f.openTruncated.writes blocks).isOpen = true := by
    rw [(OutputFile.writes_closing blocks f.openTruncated).2, hopen]
  have hall : (f.openTruncated.writes blocks).written = blocks.flatten := by
    rw [hwritten, OutputFile.written, hdisk, hbuffered]
    rfl
  rw [← hall]
  exact OutputFile.close_disk_iff hisOpen

/-- Without a codec no packet is decoded. -/
theorem decodesTo_nil {codec : CompressionCodec} (hbuilt : b.builtIn codec = none) {blocks : List (List Byte)}
    (h : (decoderOf b (some codec)).DecodesTo chunks (decoderOf b (some codec)).initial blocks) : blocks = [] := by
  have hdecoder : decoderOf b (some codec) = .notBuiltIn := by
    unfold decoderOf
    dsimp only
    rw [ofCodec_eq, hbuilt]
    rfl
  rw [hdecoder] at h
  cases h with
  | nil state => rfl
  | cons hchunk _ => cases hchunk

/-- A pull that succeeds has stored all it received exactly where a packet is too large for it, a write
to the local file fails and is seen, or the file system takes what is in the buffer at the end. -/
theorem pull_storesAll_iff (hsizable : Sizable chunks) (f : OutputFile) : StoresAll b form chunks f ↔
    (∃ chunk ∈ chunks, limitOf b form < chunk.length) ∨
      ∀ blocks, (decoderOf b form).DecodesTo chunks (decoderOf b form).initial blocks →
        (f.openTruncated.writes blocks).bad = true ∨ (f.openTruncated.writes blocks).Flushes := by
  constructor
  · intro h
    by_cases hcap : ∀ chunk ∈ chunks, chunk.length ≤ limitOf b form
    swap
    · left
      simpa using hcap
    right
    intro blocks hdec
    by_cases hbad : (f.openTruncated.writes blocks).bad = true
    · exact .inl hbad
    right
    have hgood := Bool.eq_false_of_not_eq_true hbad
    by_cases hbuilt : ∀ codec, form = some codec → (b.builtIn codec).isSome
    · obtain ⟨host, hrun, hfile⟩ := @pull_offeringHost b form [] chunks f blocks (Nat.zero_le _) hsizable hbuilt hcap hdec hgood
      have hstores := h (offeringHost form chunks f) [] .auto rfl (formOf_offeringHost hbuilt chunks f)
        (offeringHost_offers form chunks f)
      rw [hrun] at hstores
      obtain ⟨blocks', hdec', hdisk⟩ := hstores rfl
      cases hdec.unique hdec'
      rw [hfile] at hdisk
      exact (close_writes_iff hgood).mp hdisk
    · -- No transfer takes this form, and nothing is ever decoded.
      obtain ⟨codec, hcodec⟩ := not_forall.mp hbuilt
      obtain ⟨rfl, hnone⟩ := Classical.not_imp.mp hcodec
      cases decodesTo_nil (Option.not_isSome_iff_eq_none.mp hnone) hdec
      intro n _
      rw [OutputFile.writes_nil, (OutputFile.openTruncated_good hgood).2.2]
      exact Nat.zero_le n
  · intro hcondition host remotePath compression hfile hform hoffers hpull
    obtain ⟨hcap, blocks, hdec, hgood, hclosed⟩ := pull_received hsizable hform hoffers hpull
    rw [hfile] at hgood hclosed
    refine ⟨blocks, hdec, ?_⟩
    rw [hclosed, close_writes_iff hgood]
    rcases hcondition with ⟨chunk, hmem, hlt⟩ | hcondition
    · exact absurd (hcap chunk hmem) (Nat.not_le_of_lt hlt)
    · rcases hcondition blocks hdec with hbad | hflushes
      · rw [hgood] at hbad
        cases hbad
      · exact hflushes

theorem plain_decodesTo (chunks : List (List Byte)) : ChunkDecoder.plain.DecodesTo chunks () chunks := by
  induction chunks with
  | nil => exact .nil _
  | cons chunk chunks ih => exact .cons rfl ih

/-- A file that takes everything gets three bytes of a v1 pull. -/
theorem pull_storesAll_iff_accepting : StoresAll {} none [[1, 2, 3]] {} :=
  (pull_storesAll_iff (sizable_one (by decide)) {}).mpr <| .inr fun blocks _ => .inr fun n hn => by
    rw [(OutputFile.writes_closing blocks _).1] at hn
    cases hn

/-- The disk is full when the stream is destroyed: the pull succeeds with one byte of three. -/
theorem not_pull_storesAll_full : ¬ StoresAll {} none [[1, 2, 3]] { closing := some 1 } := by
  intro h
  have hdec : (decoderOf {} none).DecodesTo [[1, 2, 3]] (decoderOf {} none).initial [[1, 2, 3]] :=
    plain_decodesTo [[1, 2, 3]]
  have hgood : ((OutputFile.openTruncated { closing := some 1 }).writes [[1, 2, 3]]).bad = false := rfl
  have hnone : ∀ codec, (none : Option CompressionCodec) = some codec →
      ((({} : Build).builtIn codec).isSome : Prop) := nofun
  obtain ⟨host, hrun, hfile⟩ := @pull_offeringHost {} none [] _ _ _ (Nat.zero_le _) (sizable_one (by decide)) hnone (by decide) hdec hgood
  have hstores := h _ [] .auto rfl (formOf_offeringHost hnone [[1, 2, 3]] { closing := some 1 })
    (offeringHost_offers none [[1, 2, 3]] { closing := some 1 })
  rw [hrun] at hstores
  obtain ⟨blocks, hblocks, hdisk⟩ := hstores rfl
  cases hdec.unique hblocks
  rw [hfile] at hdisk
  exact absurd hdisk (by decide)

end Adbcpp.Sync
