import Adbcpp.Compression.Stored
import Adbcpp.Sync.Pull

/-! Pulling a compressed file. The DATA packets go through one decoder for the whole
transfer, so the local file gets what the decoder brings for them. It gets the whole
content exactly where the packets are sure to bring all of it. -/

namespace Adbcpp.Sync

open Protocol Dialogue StreamOn

/-! ### The decoder of a transfer -/

/-- A codec, where it is built in, with the loop of its decoder. -/
def Build.builtIn (b : Build) : (codec : CompressionCodec) → Option (DecodeLoop.BuiltIn codec.decodeLoop)
  | .zstd => b.zstd
  | .lz4 => b.lz4
  | .brotli => b.brotli

theorem Build.library_eq (b : Build) (codec : CompressionCodec) :
    b.library codec = (b.builtIn codec).map (·.library) := by
  cases codec <;> rfl

theorem ofCodec_eq (b : Build) (codec : CompressionCodec) :
    ChunkDecoder.ofCodec b codec = .ofLoop codec.decodeLoop (b.builtIn codec) := by
  cases codec <;> rfl

/-- What the decoder of a transfer brings is what the decodes of its chunks bring. -/
theorem ofLoop_decodes_iff {D : DecodeLoop} (c : DecodeLoop.BuiltIn D) {chunks : List (List Byte)}
    {decoder : (ChunkDecoder.ofLoop D (some c)).State} {out : List Byte} :
    (ChunkDecoder.ofLoop D (some c)).Decodes chunks decoder out ↔
      D.DecodesAll c.library chunks decoder out := by
  constructor
  · intro h
    induction h with
    | nil state => exact .nil
    | @cons chunk out rest chunks state state' hchunk _ ih =>
      have hdec := DecodeLoop.decodes_decode c chunk state
      rw [show (D.decode c chunk).run state = (.ok out, state') from hchunk] at hdec
      exact .cons hdec ih
  · intro h
    induction h with
    | nil => exact .nil _
    | @cons chunk chunks decoder decoder' out rest hchunk _ ih =>
      have hrun : (D.decode c chunk).run decoder = (.ok out, decoder') :=
        (DecodeLoop.decodes_decode c chunk decoder).unique hchunk
      exact .cons hrun ih

/-- A codec that is built in decodes a transfer with its own loop. -/
theorem ofCodec_decodes {b : Build} {codec : CompressionCodec} {c : DecodeLoop.BuiltIn codec.decodeLoop}
    (hbuilt : b.builtIn codec = some c) {chunks : List (List Byte)} {out : List Byte} :
    (ChunkDecoder.ofCodec b codec).Decodes chunks (ChunkDecoder.ofCodec b codec).initial out ↔
      codec.decodeLoop.DecodesAll c.library chunks c.library.create out := by
  rw [ofCodec_eq, hbuilt]
  exact ofLoop_decodes_iff c

/-! ### The local file -/

theorem pullV2_concludes {b : Build} {codec : CompressionCodec}
    {host : Host Dialogue OutputFile} {remotePath : List Byte} {stream : Stream}
    {c : Connection Dialogue} {chunks : List (List Byte)} {out tail : List Byte} {r : Except Error Unit}
    (hopen : (Stream.open (bytesOf "sync:")).run host.connection = (.ok stream, c))
    (hsends : (⟨stream, c⟩ : StreamOn Dialogue).AllAccepted)
    (hmax : remotePath.length + 16 ≤ c.maxData.toNat) (hfile : host.file.Accepting)
    (hdec : (ChunkDecoder.ofCodec b codec).Decodes chunks (ChunkDecoder.ofCodec b codec).initial out)
    (hcap : ∀ chunk ∈ chunks, chunk.length ≤ kMaxCompressedChunkSize b ∧ chunk.length < 2 ^ 32)
    (hup : (upcoming stream.localId c.session.inbox).1 = chunks.flatMap (packet kData) ++ tail)
    (hend : Concludes (kMaxCompressedChunkSize b) "the sync chunk is larger than the compression bound"
      (upcoming stream.localId c.session.inbox).2 tail r) :
    ∃ host', (pullV2 b remotePath codec).run host = (r, host') ∧ host'.file.disk = out := by
  have hrequest : (packet kRecvV2 remotePath ++ writeU32LE kRecvV2 ++
      writeU32LE (syncFlagOf codec)).length ≤ c.maxData.toNat := by
    simp only [List.length_append, length_packet, length_writeU32LE]
    omega
  obtain ⟨host', hrun, hdisk, -⟩ := pullOn_concludes hopen hsends hrequest (by omega) hfile hdec hcap
    hup hend
  exact ⟨host', hrun, hdisk⟩

/-- Where the packets are sure to bring all of the content, a v2 pull writes exactly that. -/
theorem pullV2_complete {b : Build} {codec : CompressionCodec}
    {built : DecodeLoop.BuiltIn codec.decodeLoop} (hbuilt : b.builtIn codec = some built)
    {c : CompressedStream} (hlibrary : Documented built.library c) {chunks : List (List Byte)}
    (hcut : chunks.flatten = c.bytes) (hall : c.guaranteed [] 0 chunks = c.content.length)
    {host : Host Dialogue OutputFile} {remotePath : List Byte} {stream : Stream}
    {conn : Connection Dialogue}
    (hopen : (Stream.open (bytesOf "sync:")).run host.connection = (.ok stream, conn))
    (hsends : (⟨stream, conn⟩ : StreamOn Dialogue).AllAccepted)
    (hmax : remotePath.length + 16 ≤ conn.maxData.toNat) (hfile : host.file.Accepting)
    (hcap : ∀ chunk ∈ chunks, chunk.length ≤ kMaxCompressedChunkSize b ∧ chunk.length < 2 ^ 32)
    {size : UInt32} {rest : List Byte} (hup : (upcoming stream.localId conn.session.inbox).1 =
      chunks.flatMap (packet kData) ++ (writeU32LE kDone ++ (writeU32LE size ++ rest))) :
    ∃ host', (pullV2 b remotePath codec).run host = (.ok (), host') ∧ host'.file.disk = c.content := by
  have hdec := decodesAll_content hlibrary codec.decodeLoop_sound hcut hall
  exact pullV2_concludes hopen hsends hmax hfile ((ofCodec_decodes hbuilt).mpr hdec) hcap hup
    (.done size rest)

/-- Decoding is complete exactly where the chunks are sure to bring all of the content; then so is
the file that a v2 pull writes. -/
theorem decode_complete_iff (codec : CompressionCodec) {c : CompressedStream}
    {chunks : List (List Byte)} (hcut : chunks.flatten = c.bytes) :
    ((∀ L, Documented L c → codec.decodeLoop.DecodesAll L chunks L.create c.content) ↔
      c.guaranteed [] 0 chunks = c.content.length) ∧
    (c.guaranteed [] 0 chunks = c.content.length →
      ∀ (b : Build) (built : DecodeLoop.BuiltIn codec.decodeLoop), b.builtIn codec = some built →
        Documented built.library c →
      ∀ (host : Host Dialogue OutputFile) (remotePath : List Byte) (stream : Stream)
        (conn : Connection Dialogue),
        (Stream.open (bytesOf "sync:")).run host.connection = (.ok stream, conn) →
        (⟨stream, conn⟩ : StreamOn Dialogue).AllAccepted →
        remotePath.length + 16 ≤ conn.maxData.toNat → host.file.Accepting →
        (∀ chunk ∈ chunks, chunk.length ≤ kMaxCompressedChunkSize b ∧ chunk.length < 2 ^ 32) →
      ∀ (size : UInt32) (rest : List Byte), (upcoming stream.localId conn.session.inbox).1 =
        chunks.flatMap (packet kData) ++ (writeU32LE kDone ++ (writeU32LE size ++ rest)) →
        ∃ host', (pullV2 b remotePath codec).run host = (.ok (), host') ∧
          host'.file.disk = c.content) := by
  refine ⟨decodesAll_content_iff codec.decodeLoop_sound hcut, ?_⟩
  intro hall b built hbuilt hlibrary host remotePath stream conn hopen hsends hmax hfile hcap size rest hup
  exact pullV2_complete hbuilt hlibrary hcut hall hopen hsends hmax hfile hcap hup

/-- A build whose brotli stores its chunks. -/
def storedBrotli : Build where
  brotli := some ⟨Stored.library false, Stored.brotli_ends⟩

/-- A device that sends the frame of three bytes in two packets, with an empty one in between. -/
def cuttingDevice : Connection Dialogue where
  maxData := 4096
  session := { inbox := [.frame ⟨makeEmptyMessage Protocol.kOkay 7 2, []⟩,
    .frame (deviceWrite 2 (packet kData [3, 0])), .frame (deviceWrite 2 (packet kData [])),
    .frame (deviceWrite 2 (packet kData [0, 0, 1, 2, 3] ++ writeU32LE kDone ++ writeU32LE 0)),
    .frame ⟨makeEmptyMessage Protocol.kOkay 7 2, []⟩] }

theorem decode_complete_iff_cuttingDevice :
    BrotliDecoder.loop.DecodesAll (Stored.library false) [[3, 0], [], [0, 0, 1, 2, 3]]
      (Stored.library false).create [1, 2, 3] ∧
    ∃ host', (pullV2 storedBrotli (bytesOf "/sdcard/a") .brotli).run ⟨cuttingDevice, {}⟩ = (.ok (), host') ∧
      host'.file.disk = [1, 2, 3] := by
  have hlibrary : Documented (Stored.library false) (Stored.stream [1, 2, 3]) :=
    ⟨_, _, Stored.streaming (by decide) false, rfl, List.nil_prefix, rfl, rfl⟩
  have hopen : (Stream.open (bytesOf "sync:")).run cuttingDevice =
      (.ok { service := bytesOf "sync:", localId := 2, remoteId := 7 },
        ((Stream.open (bytesOf "sync:")).run cuttingDevice).2) := rfl
  have hfile : ({} : OutputFile).Accepting := ⟨rfl, by simp, rfl⟩
  have hall : (Stored.stream [1, 2, 3]).guaranteed [] 0 [[3, 0], [], [0, 0, 1, 2, 3]] =
      (Stored.stream [1, 2, 3]).content.length := by decide
  obtain ⟨hdecodes, hpulls⟩ := @decode_complete_iff .brotli (Stored.stream [1, 2, 3])
    [[3, 0], [], [0, 0, 1, 2, 3]] rfl
  exact ⟨hdecodes.mpr hall _ hlibrary, hpulls hall storedBrotli _ rfl hlibrary _ _ _ _ hopen
    (fun o ho => absurd ho List.not_mem_nil) (by decide) hfile (by decide) 0 [] rfl⟩

/-- A stream of one byte, which decodes to `n` zeros. -/
def zeros (n : ℕ) : CompressedStream where
  bytes := [0x5A]
  unpack fed := if fed = [] then [] else List.replicate n 0
  unpack_nil := rfl
  unpack_prefix := by
    intro fed fed' hpre _
    by_cases hnil : fed = []
    · rw [if_pos hnil]
      exact List.nil_prefix
    · have hnil' : fed' ≠ [] := fun h => hnil (List.prefix_nil.mp (h ▸ hpre))
      simp [hnil, hnil']

theorem zeros_length (n : ℕ) : (zeros n).content.length = n := List.length_replicate

/-- One chunk brings one output buffer of the zeros, and no more. -/
theorem zeros_incomplete {n : ℕ} (hn : kMaxChunkSize < n) {D : DecodeLoop} (hD : D.Sound) :
    ¬ D.DecodesAll (eager (zeros n)) [(zeros n).bytes] (eager (zeros n)).create (zeros n).content := by
  intro hall
  have hin : [] ++ [(zeros n).bytes].flatten <+: (zeros n).bytes := List.prefix_rfl
  obtain ⟨out, hdec, hlen⟩ := eager_decodesAll hD (List.nil_prefix (l := (zeros n).unpack [])) hin
  have hbuffer : (zeros n).guaranteed [] 0 [(zeros n).bytes] =
      min (0 + kMaxChunkSize) (zeros n).content.length := rfl
  rw [List.nil_append, List.length_nil, hbuffer, hdec.unique hall, zeros_length, Nat.zero_add,
    Nat.min_eq_left (Nat.le_of_lt hn)] at hlen
  exact absurd hlen (Nat.ne_of_gt hn)

/-- More zeros than one output buffer takes are not all decoded when they arrive in one chunk. -/
theorem not_decode_complete_zeros :
    Documented (eager (zeros 70000)) (zeros 70000) ∧ ∀ codec : CompressionCodec,
      ¬ codec.decodeLoop.DecodesAll (eager (zeros 70000)) [(zeros 70000).bytes]
        (eager (zeros 70000)).create (zeros 70000).content :=
  ⟨eager_documented (zeros 70000), fun codec => zeros_incomplete (by decide) codec.decodeLoop_sound⟩

end Adbcpp.Sync
