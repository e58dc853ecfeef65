import Adbcpp.Compression.Stored
import Adbcpp.Sync.PullV2
import Adbcpp.Sync.Push

/-! Pushing a compressed file. What a push has written can be read as a meaning: the
destination, the mode, the modification time and the content. The v2 form means what
the v1 form means as long as the decoder of the codec starts the next frame after the
end of one, or there is only one. -/

namespace Adbcpp.Sync

open Protocol Dialogue StreamOn

/-! ### What a push says -/

structure Meaning where
  destination : List Byte
  mode : UInt32
  mtime : UInt32
  content : List Byte

/-- The bytes of a v1 push. -/
def SaysV1 (bytes : List Byte) (m : Meaning) : Prop :=
  ∃ spec packets, spec.length < 2 ^ 32 ∧ Sizable packets ∧ bytes = sendBytes spec packets m.mtime ∧
    (splitLastComma spec).1 = m.destination ∧
    readDecimal (splitLastComma spec).2 = some m.mode.toNat ∧ packets.flatten = m.content

/-- The bytes of a v2 push, whose payloads go through one decoder. -/
def SaysV2 (b : Build) (codec : CompressionCodec) (bytes : List Byte) (m : Meaning) : Prop :=
  m.destination.length < 2 ^ 32 ∧ ∃ payloads, Sizable payloads ∧
    bytes = sendV2Bytes m.destination m.mode (syncFlagOf codec) payloads m.mtime ∧
    (ChunkDecoder.ofCodec b codec).Decodes payloads (ChunkDecoder.ofCodec b codec).initial m.content

theorem SaysV1.unique {bytes : List Byte} {m m' : Meaning} (h : SaysV1 bytes m) (h' : SaysV1 bytes m') :
    m = m' := by
  obtain ⟨spec, packets, hlt, hs, rfl, hdestination, hmode, hcontent⟩ := h
  obtain ⟨spec', packets', hlt', hs', hbytes, hdestination', hmode', hcontent'⟩ := h'
  obtain ⟨rfl, rfl, hmtime⟩ := sendBytes_inj hlt hlt' hs hs' hbytes
  have hsame : m.mode = m'.mode :=
    UInt32.toNat_inj.mp (Option.some.inj (hmode.symm.trans hmode'))
  cases m
  cases m'
  simp_all

theorem ChunkDecoder.Decodes.unique {D : ChunkDecoder} {chunks : List (List Byte)} {state : D.State}
    {out out' : List Byte} (h : D.Decodes chunks state out) (h' : D.Decodes chunks state out') :
    out = out' := by
  induction h generalizing out' with
  | nil => cases h'; rfl
  | cons hchunk _ ih =>
    cases h' with
    | cons hchunk' hrest' =>
      rw [hchunk] at hchunk'
      cases hchunk'
      rw [ih hrest']

theorem SaysV2.unique {b : Build} {codec : CompressionCodec} {bytes : List Byte} {m m' : Meaning}
    (h : SaysV2 b codec bytes m) (h' : SaysV2 b codec bytes m') : m = m' := by
  obtain ⟨hlt, payloads, hs, rfl, hcontent⟩ := h
  obtain ⟨hlt', payloads', hs', hbytes, hcontent'⟩ := h'
  obtain ⟨hdestination, hmode, -, rfl, hmtime⟩ := sendV2Bytes_inj hlt hlt' hs hs' hbytes
  have hsame := hcontent.unique hcontent'
  cases m
  cases m'
  simp_all

/-- The bytes of a v2 push and those of a v1 push both say `m`, and nothing else. -/
def Agrees (b : Build) (codec : CompressionCodec) (bytes bytes' : List Byte) (m : Meaning) : Prop :=
  (∀ m', SaysV2 b codec bytes m' ↔ m' = m) ∧ ∀ m', SaysV1 bytes' m' ↔ m' = m

/-- The v1 messages say what is pushed. -/
theorem saysV1_messages {destination content : List Byte} {mode : UInt32} (mtime : UInt32)
    {blocks : List (List Byte)} (hblocks : Blocks kMaxChunkSize content blocks)
    (hlt : (sendSpec destination mode).length < 2 ^ 32) :
    SaysV1 (messages (packet kSendV1 (sendSpec destination mode)) blocks mtime).flatten
      ⟨destination, mode, mtime, content⟩ := by
  have hfile := writesFile_blocks mtime hblocks hlt
  refine ⟨_, blocks, hlt, fun p hp => ?_, hfile.bytes, hfile.spec_destination, hfile.spec_mode, hfile.whole⟩
  have := (hfile.sizes p hp).2
  rw [kMaxChunkSize] at this
  omega

/-- The request of the v2 form: the destination, and the setup packet. -/
def sendV2Request (destination : List Byte) (mode : UInt32) (codec : CompressionCodec) : List Byte :=
  packet kSendV2 destination ++ writeU32LE kSendV2 ++ writeU32LE mode ++ writeU32LE (syncFlagOf codec)

theorem messages_v2 (destination : List Byte) (mode mtime : UInt32) (codec : CompressionCodec)
    (payloads : List (List Byte)) :
    (messages (sendV2Request destination mode codec) payloads mtime).flatten =
      sendV2Bytes destination mode (syncFlagOf codec) payloads mtime := by
  rw [messages_flatten, sendV2Request, sendV2Bytes, sendSetup]
  simp only [List.append_assoc]

/-- The two forms of a push agree exactly where the payloads decode to the content. -/
theorem agrees_decodes {b : Build} {codec : CompressionCodec} {destination content : List Byte}
    {mode : UInt32} (mtime : UInt32) {blocks payloads : List (List Byte)}
    (hblocks : Blocks kMaxChunkSize content blocks)
    (hlt : (sendSpec destination mode).length < 2 ^ 32) (hs : Sizable payloads) :
    Agrees b codec (messages (sendV2Request destination mode codec) payloads mtime).flatten
        (messages (packet kSendV1 (sendSpec destination mode)) blocks mtime).flatten
        ⟨destination, mode, mtime, content⟩ ↔
      (ChunkDecoder.ofCodec b codec).Decodes payloads (ChunkDecoder.ofCodec b codec).initial content := by
  have hlt' : destination.length < 2 ^ 32 := by
    rw [sendSpec, List.length_append, List.length_append] at hlt
    omega
  have hv1 := saysV1_messages mtime hblocks hlt
  rw [messages_v2]
  constructor
  · intro h
    obtain ⟨-, payloads', hs', hbytes, hdec⟩ := (h.1 _).mpr rfl
    obtain ⟨-, -, -, rfl, -⟩ := sendV2Bytes_inj hlt' hlt' hs hs' hbytes
    exact hdec
  · intro hdec
    have hv2 : SaysV2 b codec (sendV2Bytes destination mode (syncFlagOf codec) payloads mtime)
        ⟨destination, mode, mtime, content⟩ := ⟨hlt', payloads, hs, rfl, hdec⟩
    exact ⟨fun m => ⟨fun h => h.unique hv2, fun h => h ▸ hv2⟩,
      fun m => ⟨fun h => h.unique hv1, fun h => h ▸ hv1⟩⟩

/-! ### The whole push -/

theorem length_sendV2Request (destination : List Byte) (mode : UInt32) (codec : CompressionCodec) :
    (sendV2Request destination mode codec).length = destination.length + 20 := by
  simp only [sendV2Request, List.length_append, length_packet, length_writeU32LE]
  omega

/-- The v2 form of a push on a `sync:` stream that has been opened. -/
theorem pushV2_sends {k : ℕ} {b : Build} {codec : CompressionCodec} {host : Host Dialogue LocalFile}
    {destination content : List Byte} {mode : UInt32} {blocks payloads : List (List Byte)}
    {stream : Stream} {c : Connection Dialogue}
    (hopen : (Stream.open (bytesOf "sync:")).run host.connection = (.ok stream, c))
    (hinput : host.file.input = { remaining := content })
    (hblocks : Blocks kMaxChunkSize content blocks)
    (hencode : List.Forall₂ (fun block payload => compressChunk b codec block = .ok payload) blocks payloads)
    (hsends : (⟨stream, c⟩ : StreamOn Dialogue).Accepts (k + 2 * (blocks.length + 2)))
    (hmax : ∀ payload ∈ payloads, (packet kData payload).length ≤ c.maxData.toNat)
    (hrequest : destination.length + 20 ≤ c.maxData.toNat) :
    ∃ s, Pushed k (messages (sendV2Request destination mode codec) payloads host.file.doneTime)
      ⟨stream, c⟩ s ((pushV2 b destination mode codec).run host) := by
  rw [hencode.length_eq] at hsends
  have hlen := length_sendV2Request destination mode codec
  have hne : sendV2Request destination mode codec ≠ [] :=
    List.ne_nil_of_length_pos (by rw [hlen]; omega)
  exact pushOn_sends hopen hblocks hencode hinput hne (by rw [hlen]; exact hrequest) hmax (by omega) hsends

/-- Every payload is a block, encoded. -/
theorem exists_block {encode : List Byte → Except Error (List Byte)} {blocks payloads : List (List Byte)}
    (hencode : List.Forall₂ (fun block payload => encode block = .ok payload) blocks payloads) :
    ∀ payload ∈ payloads, ∃ block ∈ blocks, encode block = .ok payload := by
  induction hencode with
  | nil => simp
  | @cons block payload blocks payloads hblock _ ih =>
    intro p hp
    rcases List.mem_cons.mp hp with rfl | hp
    · exact ⟨block, List.mem_cons_self, hblock⟩
    · obtain ⟨q, hq, hrun⟩ := ih p hp
      exact ⟨q, List.mem_cons_of_mem _ hq, hrun⟩

/-- There is only one block exactly where the file is not larger than a block. -/
theorem length_le_one_iff {content : List Byte} {blocks : List (List Byte)}
    (hcount : blocks.length = (content.length + (kMaxChunkSize - 1)) / kMaxChunkSize) :
    blocks.length ≤ 1 ↔ content.length ≤ 65536 := by
  rw [hcount, kMaxChunkSize]
  omega

theorem compressChunk_eq {b : Build} {codec : CompressionCodec}
    {built : DecodeLoop.BuiltIn codec.decodeLoop} (hbuilt : b.builtIn codec = some built) :
    compressChunk b codec = compressWith built.library codec := by
  funext input
  rw [compressChunk, Build.library_eq, hbuilt]
  rfl

/-- The frames of the blocks of a file decode to the file exactly where the decoder of the codec
starts the next frame, or the file is one block. -/
theorem decodes_blocks_iff {b : Build} {codec : CompressionCodec}
    {built : DecodeLoop.BuiltIn codec.decodeLoop} (hbuilt : b.builtIn codec = some built)
    {restarts : Prop} {ready done : built.library.State → Prop}
    (hframed : Framed built.library (compressWith built.library codec) restarts ready done)
    {content : List Byte} {blocks payloads : List (List Byte)}
    (hblocks : Blocks kMaxChunkSize content blocks)
    (hcount : blocks.length = (content.length + (kMaxChunkSize - 1)) / kMaxChunkSize)
    (hencode : List.Forall₂ (fun block payload => compressChunk b codec block = .ok payload)
      blocks payloads) :
    (ChunkDecoder.ofCodec b codec).Decodes payloads (ChunkDecoder.ofCodec b codec).initial content ↔
      restarts ∨ content.length ≤ 65536 := by
  rw [compressChunk_eq hbuilt] at hencode
  rw [ofCodec_decodes hbuilt, ← length_le_one_iff hcount, ← hblocks.flatten]
  exact hframed.decodesAll_iff codec.decodeLoop_sound codec.decodeLoop_givesUp hencode
    (hblocks.length_le chunkSize_pos)

/-- A file pushed in both forms, of which the v2 form agrees with the v1 form exactly where its
payloads decode to the file. -/
theorem pushes_both {b : Build} {codec : CompressionCodec} {built : DecodeLoop.BuiltIn codec.decodeLoop}
    (hbuilt : b.builtIn codec = some built) {restarts : Prop} {ready done : built.library.State → Prop}
    (hframed : Framed built.library (compressWith built.library codec) restarts ready done)
    {file : LocalFile} {content : List Byte} (hinput : file.input = { remaining := content })
    (destination : List Byte) (mode : UInt32) {conn conn' c c' : Connection Dialogue}
    {stream stream' : Stream}
    (hopen : (Stream.open (bytesOf "sync:")).run conn = (.ok stream, c))
    (hopen' : (Stream.open (bytesOf "sync:")).run conn' = (.ok stream', c'))
    (hsends : (⟨stream, c⟩ : StreamOn Dialogue).Accepts (pushWrites content))
    (hsends' : (⟨stream', c'⟩ : StreamOn Dialogue).Accepts (pushWrites content))
    (hmax : ∀ block payload, block.length ≤ kMaxChunkSize → compressChunk b codec block = .ok payload →
      (packet kData payload).length ≤ c.maxData.toNat)
    (hmax' : 65544 ≤ c'.maxData.toNat) (hrequest : destination.length + 20 ≤ c.maxData.toNat)
    (hrequest' : (packet kSendV1 (sendSpec destination mode)).length ≤ c'.maxData.toNat) :
    ∃ pieces pieces' s s' payloads,
      Pushed 0 pieces ⟨stream, c⟩ s ((pushV2 b destination mode codec).run ⟨conn, file⟩) ∧
      Pushed 0 pieces' ⟨stream', c'⟩ s' ((pushV1 destination mode).run ⟨conn', file⟩) ∧
      (Agrees b codec pieces.flatten pieces'.flatten ⟨destination, mode, file.doneTime, content⟩ ↔
        (ChunkDecoder.ofCodec b codec).Decodes payloads (ChunkDecoder.ofCodec b codec).initial content) ∧
      ((ChunkDecoder.ofCodec b codec).Decodes payloads (ChunkDecoder.ofCodec b codec).initial content ↔
        restarts ∨ content.length ≤ 65536) := by
  obtain ⟨blocks, hblocks, hcount⟩ := exists_blocks chunkSize_pos content
  have hsizes := hblocks.length_le chunkSize_pos
  obtain ⟨payloads, hencode⟩ := hframed.exists_frames hsizes
  rw [← compressChunk_eq hbuilt] at hencode
  rw [pushWrites, ← hcount] at hsends hsends'
  have hfits : ∀ payload ∈ payloads, (packet kData payload).length ≤ c.maxData.toNat := by
    intro payload hmem
    obtain ⟨block, hblock, hrun⟩ := exists_block hencode payload hmem
    exact hmax block payload (hsizes block hblock).2 hrun
  have hsizable : Sizable payloads := by
    intro payload hmem
    have := hfits payload hmem
    rw [length_packet] at this
    have := c.maxData.toNat_lt
    omega
  rw [← Nat.zero_add (2 * _)] at hsends
  obtain ⟨s, hpushed⟩ := @pushV2_sends 0 b codec ⟨conn, file⟩ destination _ mode _ _ _ _ hopen
    hinput hblocks hencode hsends hfits hrequest
  obtain ⟨s', hpushed'⟩ := @pushV1_sends ⟨conn', file⟩ _ _ _ _ _ _ hopen' hinput hblocks hsends' hmax'
    hrequest'
  exact ⟨_, _, s, s', payloads, hpushed, hpushed',
    agrees_decodes file.doneTime hblocks (length_sendSpec_lt hrequest') hsizable,
    decodes_blocks_iff hbuilt hframed hblocks hcount hencode⟩

/-- A compressed push says what the plain one says exactly where the codec is not brotli, whose
decoder is over after one stream, or the file is one chunk. -/
theorem pushV2_agrees_iff {b : Build} {codec : CompressionCodec}
    {built : DecodeLoop.BuiltIn codec.decodeLoop} (hbuilt : b.builtIn codec = some built)
    {ready done : built.library.State → Prop}
    (hframed : Framed built.library (compressWith built.library codec) (codec ≠ .brotli) ready done)
    {file : LocalFile} {content : List Byte} (hinput : file.input = { remaining := content })
    (destination : List Byte) (mode : UInt32) {conn conn' c c' : Connection Dialogue}
    {stream stream' : Stream}
    (hopen : (Stream.open (bytesOf "sync:")).run conn = (.ok stream, c))
    (hopen' : (Stream.open (bytesOf "sync:")).run conn' = (.ok stream', c'))
    (hsends : (⟨stream, c⟩ : StreamOn Dialogue).Accepts (pushWrites content))
    (hsends' : (⟨stream', c'⟩ : StreamOn Dialogue).Accepts (pushWrites content))
    (hmax : ∀ block payload, block.length ≤ kMaxChunkSize → compressChunk b codec block = .ok payload →
      (packet kData payload).length ≤ c.maxData.toNat)
    (hmax' : 65544 ≤ c'.maxData.toNat) (hrequest : destination.length + 20 ≤ c.maxData.toNat)
    (hrequest' : (packet kSendV1 (sendSpec destination mode)).length ≤ c'.maxData.toNat) :
    ∃ pieces pieces' s s',
      Pushed 0 pieces ⟨stream, c⟩ s ((pushV2 b destination mode codec).run ⟨conn, file⟩) ∧
      Pushed 0 pieces' ⟨stream', c'⟩ s' ((pushV1 destination mode).run ⟨conn', file⟩) ∧
      (Agrees b codec pieces.flatten pieces'.flatten ⟨destination, mode, file.doneTime, content⟩ ↔
        codec ≠ .brotli ∨ content.length ≤ 65536) := by
  obtain ⟨pieces, pieces', s, s', payloads, hpushed, hpushed', hagrees, hdecodes⟩ :=
    pushes_both hbuilt hframed hinput destination mode hopen hopen' hsends hsends' hmax hmax'
      hrequest hrequest'
  exact ⟨pieces, pieces', s, s', hpushed, hpushed', hagrees.trans hdecodes⟩

/-! ### A build with stored frames -/

/-- All three codecs store their chunks; the brotli decoder is over after one frame. -/
def storedBuild : Build where
  zstd := some ⟨Stored.library true, Stored.ends (.inl rfl)⟩
  lz4 := some ⟨Stored.library true, Stored.ends (.inl rfl)⟩
  brotli := some ⟨Stored.library false, Stored.brotli_ends⟩

theorem stored_brotli_framed : Framed (Stored.library false)
    (compressWith (Stored.library false) .brotli) (CompressionCodec.brotli ≠ .brotli)
    (· = .header []) (· = Stored.atEnd false) :=
  Stored.framed .brotli (by simp)

theorem compressChunk_stored (codec : CompressionCodec) (block : List Byte) :
    compressChunk storedBuild codec block = .ok (Stored.frameOf block) := by
  cases codec with
  | zstd => exact Stored.compressWith_library true .zstd block
  | lz4 => exact Stored.compressWith_library true .lz4 block
  | brotli => exact Stored.compressWith_library false .brotli block

/-- A device that accepts any file, and large messages. -/
def okayDevice : Connection Dialogue where
  maxData := 0x20000
  session := { inbox := [.frame ⟨makeEmptyMessage Protocol.kOkay 7 2, []⟩,
    .frame ⟨makeEmptyMessage Protocol.kOkay 7 2, []⟩, .frame (deviceWrite 2 (packet kOkay []))] }

def openedOkay : StreamOn Dialogue where
  stream := { service := bytesOf "sync:", localId := 2, remoteId := 7 }
  connection := ((Stream.open (bytesOf "sync:")).run okayDevice).2

theorem open_okayDevice : (Stream.open (bytesOf "sync:")).run okayDevice =
    (.ok openedOkay.stream, openedOkay.connection) := rfl

theorem openedOkay_accepts (k : ℕ) : openedOkay.Accepts k :=
  accepts_of_all rfl (fun _ ho => absurd ho List.not_mem_nil) k

def fileOf (content : List Byte) : LocalFile where
  filename := bytesOf "a"
  modeReport := .windows (some true)
  timeReport := { written := some 1000000000 }
  input := { remaining := content }

theorem stored_fits (codec : CompressionCodec) (block payload : List Byte)
    (hle : block.length ≤ kMaxChunkSize) (hrun : compressChunk storedBuild codec block = .ok payload) :
    (packet kData payload).length ≤ openedOkay.connection.maxData.toNat := by
  rw [compressChunk_stored] at hrun
  cases hrun
  rw [length_packet, Stored.length_frameOf, show openedOkay.connection.maxData.toNat = 131072 from rfl]
  rw [kMaxChunkSize] at hle
  omega

theorem stored_zstd_framed : Framed (Stored.library true)
    (compressWith (Stored.library true) .zstd) (CompressionCodec.zstd ≠ .brotli)
    (· = .header []) (· = Stored.atEnd true) :=
  Stored.framed .zstd (by simp)

/-- A file of one byte more than a chunk arrives through zstd. -/
theorem pushV2_agrees_iff_zstd : ∃ pieces pieces' s s',
    Pushed 0 pieces openedOkay s ((pushV2 storedBuild (bytesOf "/sdcard/a") 0o100644 .zstd).run
      ⟨okayDevice, fileOf (List.replicate 65537 0)⟩) ∧
    Pushed 0 pieces' openedOkay s' ((pushV1 (bytesOf "/sdcard/a") 0o100644).run
      ⟨okayDevice, fileOf (List.replicate 65537 0)⟩) ∧
    Agrees storedBuild .zstd pieces.flatten pieces'.flatten
      ⟨bytesOf "/sdcard/a", 0o100644, 1, List.replicate 65537 0⟩ := by
  generalize List.replicate 65537 (0 : Byte) = content
  obtain ⟨pieces, pieces', s, s', hpushed, hpushed', hagrees⟩ :=
    @pushV2_agrees_iff storedBuild .zstd _ rfl _ _ stored_zstd_framed (fileOf content) content rfl
      (bytesOf "/sdcard/a") 0o100644 _ _ _ _ _ _ open_okayDevice open_okayDevice
      (openedOkay_accepts _) (openedOkay_accepts _) (stored_fits .zstd) (by decide) (by decide) (by decide)
  exact ⟨pieces, pieces', s, s', hpushed, hpushed', hagrees.mpr (.inl (by decide))⟩

/-- A file of one byte more than a chunk does not arrive through brotli. -/
theorem not_pushV2_agrees_twoChunks : ∃ pieces pieces' s s',
    Pushed 0 pieces openedOkay s ((pushV2 storedBuild (bytesOf "/sdcard/a") 0o100644 .brotli).run
      ⟨okayDevice, fileOf (List.replicate 65537 0)⟩) ∧
    Pushed 0 pieces' openedOkay s' ((pushV1 (bytesOf "/sdcard/a") 0o100644).run
      ⟨okayDevice, fileOf (List.replicate 65537 0)⟩) ∧
    ¬ Agrees storedBuild .brotli pieces.flatten pieces'.flatten
      ⟨bytesOf "/sdcard/a", 0o100644, 1, List.replicate 65537 0⟩ := by
  have hlength : (List.replicate 65537 (0 : Byte)).length = 65537 := List.length_replicate
  generalize List.replicate 65537 (0 : Byte) = content at hlength ⊢
  obtain ⟨pieces, pieces', s, s', payloads, hpushed, hpushed', hagrees, hdecodes⟩ :=
    @pushes_both storedBuild .brotli _ rfl _ _ _ stored_brotli_framed (fileOf content) content rfl
      (bytesOf "/sdcard/a") 0o100644 _ _ _ _ _ _ open_okayDevice open_okayDevice
      (openedOkay_accepts _) (openedOkay_accepts _) (stored_fits .brotli) (by decide) (by decide) (by decide)
  refine ⟨pieces, pieces', s, s', hpushed, hpushed', fun h => ?_⟩
  rcases hdecodes.mp (hagrees.mp h) with hne | hle
  · exact hne rfl
  · omega

end Adbcpp.Sync
