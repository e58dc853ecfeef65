import Adbcpp.Compression.OneStream
import Adbcpp.Stream.Identity
import Adbcpp.Stream.Successes
import Adbcpp.Sync.PullV2
import Adbcpp.Sync.Wire

/-! Where a compressed pull ends. DONE ends it, wherever the decoder is: the pull succeeds
on every sequence of payloads that the decoder can read on, be it complete or not. -/

namespace Adbcpp.Sync

open Protocol Dialogue StreamOn Prog

/-! ### What a pull succeeds on -/

/-- A response with DATA packets that the decoder takes, up to a DONE. -/
inductive Acceptable (limit : ℕ) (decoder : ChunkDecoder) : decoder.State → List Byte → Prop
  | done {state : decoder.State} (size : UInt32) (rest : List Byte) :
      Acceptable limit decoder state (writeU32LE kDone ++ (writeU32LE size ++ rest))
  | data {state state' : decoder.State} {chunk out rest : List Byte} : chunk.length < 2 ^ 32 →
      chunk.length ≤ limit → (decoder.decode chunk).run state = (.ok out, state') →
      Acceptable limit decoder state' rest → Acceptable limit decoder state (packet kData chunk ++ rest)

/-- The same, with the blocks that the decoder brings for the packets. -/
inductive Receives (limit : ℕ) (decoder : ChunkDecoder) :
    decoder.State → List Byte → List (List Byte) → Prop
  | done {state : decoder.State} (size : UInt32) (rest : List Byte) :
      Receives limit decoder state (writeU32LE kDone ++ (writeU32LE size ++ rest)) []
  | data {state state' : decoder.State} {chunk out rest : List Byte} {blocks : List (List Byte)} :
      chunk.length < 2 ^ 32 → chunk.length ≤ limit → (decoder.decode chunk).run state = (.ok out, state') →
      Receives limit decoder state' rest blocks →
      Receives limit decoder state (packet kData chunk ++ rest) (out :: blocks)

theorem Receives.acceptable {limit : ℕ} {decoder : ChunkDecoder} {state : decoder.State} {source : List Byte}
    {blocks : List (List Byte)} (h : Receives limit decoder state source blocks) :
    Acceptable limit decoder state source := by
  induction h with
  | done size rest => exact .done size rest
  | data hlt hle hdec _ ih => exact .data hlt hle hdec ih

theorem Acceptable.exists_receives {limit : ℕ} {decoder : ChunkDecoder} {state : decoder.State}
    {source : List Byte} (h : Acceptable limit decoder state source) :
    ∃ blocks, Receives limit decoder state source blocks := by
  induction h with
  | done size rest => exact ⟨[], .done size rest⟩
  | data hlt hle hdec _ ih =>
    obtain ⟨blocks, hblocks⟩ := ih
    exact ⟨_ :: blocks, .data hlt hle hdec hblocks⟩

/-- The packets that are received from a response with a DONE are those in front of it. -/
theorem receives_chunks {limit : ℕ} {decoder : ChunkDecoder} {state : decoder.State}
    {chunks blocks : List (List Byte)} {tail : List Byte} (hsizable : Sizable chunks)
    (h : Receives limit decoder state (chunks.flatMap (packet kData) ++ (writeU32LE kDone ++ tail)) blocks) :
    (∀ chunk ∈ chunks, chunk.length ≤ limit) ∧ decoder.DecodesTo chunks state blocks := by
  induction chunks generalizing state blocks with
  | nil =>
    rw [List.flatMap_nil, List.nil_append] at h
    generalize hsource : writeU32LE kDone ++ tail = source at h
    cases h with
    | done size rest => exact ⟨by simp, .nil state⟩
    | data hlt hle hdec hrest =>
      rw [packet_append] at hsource
      exact absurd (writeU32LE_append_inj hsource).1 kDone_ne_kData
  | cons chunk chunks ih =>
    rw [List.flatMap_cons, List.append_assoc] at h
    generalize hsource : packet kData chunk ++ _ = source at h
    cases h with
    | done size rest =>
      rw [packet_append] at hsource
      exact absurd (writeU32LE_append_inj hsource).1.symm kDone_ne_kData
    | data hlt hle hdec hrest =>
      obtain ⟨rfl, rfl⟩ := packet_append_inj (hsizable chunk List.mem_cons_self) hlt hsource
      obtain ⟨hcap, hdecodes⟩ := ih (fun c hc => hsizable c (List.mem_cons_of_mem _ hc)) hrest
      exact ⟨List.forall_mem_cons.mpr ⟨hle, hcap⟩, .cons hdec hdecodes⟩

theorem acceptable_chunks {limit : ℕ} {decoder : ChunkDecoder} {state : decoder.State}
    {chunks : List (List Byte)} {tail : List Byte} (hsizable : Sizable chunks)
    (h : Acceptable limit decoder state (chunks.flatMap (packet kData) ++ (writeU32LE kDone ++ tail))) :
    (∀ chunk ∈ chunks, chunk.length ≤ limit) ∧ ∃ out, decoder.Decodes chunks state out := by
  obtain ⟨blocks, hblocks⟩ := h.exists_receives
  obtain ⟨hcap, hdecodes⟩ := receives_chunks hsizable hblocks
  exact ⟨hcap, _, hdecodes.decodes⟩

section Turns

variable {limit : ℕ} {tooLarge : String} {decoder : ChunkDecoder} {source : List Byte} {e : Ending}

/-- What is upcoming on the stream of a transfer, and the local file that it has. -/
def At {φ : Type} (up : List Byte × Ending) (file : φ) (j : Job Dialogue φ) : Prop :=
  Holds up j.on ∧ j.file = file

/-- An operation on the stream leaves the local file as it is. -/
theorem onStream_at {φ α : Type} {p : Action (StreamOn Dialogue) α} {up : List Byte × Ending}
    {Q : α → StreamOn Dialogue → Prop} (h : Triple (Holds up) p Q AnyError) (file : φ) :
    Triple (At up file) (onStream p) (fun a j => Q a j.on ∧ j.file = file) fun _ _ => True :=
  Triple.zoom h (fun _ hj => hj.1) (fun _ _ _ hj hQ => ⟨hQ, hj.2⟩) fun _ _ _ _ _ => trivial

/-- What is known of the local file stays so. -/
theorem onStream_file {φ α : Type} (p : Action (StreamOn Dialogue) α) (F : φ → Prop) :
    Triple (fun j : Job Dialogue φ => F j.file) (onStream p) (fun _ j => F j.file) fun _ _ => True := by
  intro j hj
  rw [run_onStream]
  match p.run j.on with
  | (.ok a, s) => exact hj
  | (.error e, s) => trivial

theorem readWord_at {φ : Type} (file : φ) : Triple (At (source, e) file) (onStream (read 4))
    (fun word j => ∃ rest, source = writeU32LE (readU32LE word) ++ rest ∧ At (rest, e) file j)
    fun _ _ => True := by
  refine (onStream_at (read_holds 4 source e) file).conseq (fun _ h => h) ?_ fun _ _ h => h
  rintro word j ⟨⟨hlen, rest, hsource, hs⟩, hfile⟩
  rw [writeU32LE_readU32LE hlen]
  exact ⟨rest, hsource, hs, hfile⟩

theorem onFile_at {φ : Type} (f : φ → φ) (up : List Byte × Ending) (file : φ) :
    Triple (At up file) (onFile (Prog.modify f)) (fun _ => At up (f file)) fun _ _ => True :=
  fun _ hj => ⟨hj.1, congrArg f hj.2⟩

theorem syncFail_fails {α : Type} : Triple (fun _ => True)
    (syncFail : Action (StreamOn Dialogue) α) (fun _ _ => False) AnyError := by
  intro s _
  match hrun : (syncFail : Action (StreamOn Dialogue) α).run s with
  | (.error _, t) => trivial
  | (.ok turn, t) => exact absurd hrun syncFail_ne_ok

/-- The rest of the source is still to be received, and what it brings from `state` on comes behind
the blocks that the file has already been written. -/
def Awaits (limit : ℕ) (decoder : ChunkDecoder) (f : OutputFile) (source : List Byte) (e : Ending)
    (state : decoder.State) (j : Job Dialogue OutputFile) : Prop :=
  ∃ rest before, ((∀ blocks, Receives limit decoder state rest blocks →
      Receives limit decoder decoder.initial source (before ++ blocks)) ∧ (f.writes before).bad = false) ∧
    At (rest, e) (f.writes before) j

/-- The response has been received, and its blocks are written to the file. -/
def Received (limit : ℕ) (decoder : ChunkDecoder) (f : OutputFile) (source : List Byte)
    (file : OutputFile) : Prop :=
  ∃ blocks, Receives limit decoder decoder.initial source blocks ∧ (f.writes blocks).bad = false ∧
    file = f.writes blocks

/-- A turn of a pull takes a DATA packet that the decoder takes, or a DONE. -/
theorem receiveTurn_awaits (f : OutputFile) (state : decoder.State) :
    Triple (Awaits limit decoder f source e state) (receiveTurn limit tooLarge decoder state)
      (NextTurn (Awaits limit decoder f source e)
        fun _ j => Received limit decoder f source j.file) fun _ _ => True := by
  refine Triple.exists_pre fun rest => Triple.exists_pre fun before => Triple.and_pre fun hbefore => ?_
  obtain ⟨hsource, hgood⟩ := hbefore
  refine Triple.bind (readWord_at _) fun id => ?_
  refine Triple.exists_pre fun rest₁ => Triple.and_pre fun hid => ?_
  refine Triple.ite (fun _ => ?_) fun _ => ?_
  · refine Triple.zoom syncFail_fails (fun _ _ => trivial) (fun _ _ _ _ h => h.elim) ?_
    exact fun _ _ _ _ _ => trivial
  refine Triple.bind (readWord_at _) fun size => ?_
  refine Triple.exists_pre fun rest₂ => Triple.and_pre fun hsize => ?_
  subst hid hsize
  refine Triple.ite (fun hdone => ?_) fun _ => ?_
  · rw [hdone] at hsource
    have hall := hsource [] (.done _ _)
    rw [List.append_nil] at hall
    exact Triple.pure fun j hj => ⟨before, hall, hgood, hj.2⟩
  refine Triple.ite (fun _ => Triple.fail fun _ _ => trivial) fun hdata => ?_
  refine Triple.ite (fun _ => Triple.fail fun _ _ => trivial) fun hle => ?_
  refine Triple.bind (onStream_at (read_holds _ _ _) _) fun chunk => ?_
  rintro j ⟨⟨hlen, rest₃, hchunk, hon⟩, hfile⟩
  have hj : At (rest₃, e) (f.writes before) j := ⟨hon, hfile⟩
  clear hon hfile
  revert j
  subst hchunk
  have hsplit : writeU32LE (readU32LE id) ++ (writeU32LE (readU32LE size) ++ (chunk ++ rest₃)) =
      packet kData chunk ++ rest₃ := by
    rw [packet_append, hlen, UInt32.ofNat_toNat, not_not.mp hdata]
  rw [hsplit] at hsource
  generalize hdecode : (decoder.decode chunk).run state = decoded
  obtain ⟨result, state'⟩ := decoded
  refine Triple.bind (R := fun out j => result = .ok out ∧ At (rest₃, e) (f.writes before) j)
    (Triple.lift (fun _ _ hout hj => ⟨hout, hj⟩) fun _ _ _ _ => trivial) fun out => ?_
  refine Triple.and_pre fun hout => ?_
  refine Triple.bind (onFile_at _ _ _) fun _ => ?_
  refine Triple.get_bind fun job hjob => Triple.ite (fun _ => Triple.fail fun _ _ => trivial) fun hok => ?_
  have hwritten : (f.writes before).write out = f.writes (before ++ [out]) := by
    rw [OutputFile.writes_append]
    rfl
  rw [hwritten] at hjob
  rw [hjob.2, Bool.not_eq_true] at hok
  refine Triple.pure fun j hj => ⟨rest₃, before ++ [out], ⟨fun blocks hrest => ?_, hok⟩, hj ▸ hjob⟩
  have hlt : chunk.length < 2 ^ 32 := by
    rw [hlen]
    exact (readU32LE size).toNat_lt
  rw [List.append_assoc]
  exact hsource _ (.data hlt (hlen ▸ Nat.not_lt.mp hle) (hdecode.trans (by rw [hout])) hrest)

/-- A pull receives nothing but a response that it can decode, and writes all its blocks. -/
theorem receiveFile_receives (f : OutputFile) :
    Triple (At (source, e) f) (receiveFile limit tooLarge decoder) (fun _ j => ∃ file,
      Received limit decoder f.openTruncated source file ∧ j.file = file.close) fun _ _ => True := by
  refine Triple.ensuring ?_
  refine Triple.bind (onFile_at _ _ _) fun _ => ?_
  refine Triple.get_bind fun job hjob => Triple.ite (fun _ => Triple.fail fun _ _ => trivial) fun hok => ?_
  rw [hjob.2, Bool.not_eq_true] at hok
  have hloop := Triple.loop (receiveTurn_decreases limit tooLarge decoder)
    (@receiveTurn_awaits limit tooLarge decoder source e f.openTruncated) decoder.initial
  refine Triple.bind (hloop.conseq ?_ (fun _ _ h => h) fun _ _ h => h) fun _ => ?_
  · exact fun j hj => ⟨source, [], ⟨fun _ => id, hok⟩, hj ▸ hjob⟩
  · refine (onStream_file writeQuit _).conseq (fun _ h => h) ?_ fun _ _ h => h
    exact fun _ j hj => ⟨j.file, hj, rfl⟩

end Turns

/-- A pull on a stream that succeeds has received a response that it can decode, and has closed the
local file behind its blocks. -/
theorem pullOn_receives {limit : ℕ} {tooLarge : String} {decoder : ChunkDecoder}
    {host : Host Dialogue OutputFile} {stream : Stream} {c : Connection Dialogue} {request : List Byte}
    (hopen : (Stream.open (bytesOf "sync:")).run host.connection = (.ok stream, c))
    (hpull : ((withSyncStream (do
      onStream (StreamOn.write request)
      receiveFile limit tooLarge decoder)).run host).1 = .ok ()) :
    ∃ file, Received limit decoder host.file.openTruncated (upcoming stream.localId c.session.inbox).1 file ∧
      ((withSyncStream (do
        onStream (StreamOn.write request)
        receiveFile limit tooLarge decoder)).run host).2.file = file.close := by
  have hopened : (⟨stream, c⟩ : StreamOn Dialogue).Opened := ⟨_, _, hopen⟩
  have hstart : At (upcoming stream.localId c.session.inbox) host.file ⟨⟨stream, c⟩, host.file⟩ :=
    ⟨hopened.drained.1.source, rfl⟩
  have hbody : Triple (At (upcoming stream.localId c.session.inbox) host.file)
      (do onStream (StreamOn.write request)
          receiveFile limit tooLarge decoder) _ _ :=
    Triple.bind (onStream_at (write_holds _) _) fun _ => receiveFile_receives host.file
  have hends := hbody ⟨⟨stream, c⟩, host.file⟩ hstart
  generalize hrun : Prog.run _ _ = q at hends
  obtain ⟨r, j⟩ := q
  rw [withSyncStream_eq hopen hrun] at hpull ⊢
  exact hends.ok hpull

/-- A v2 pull that succeeds has received an acceptable response. -/
theorem pullV2_acceptable {b : Build} {codec : CompressionCodec} {host : Host Dialogue OutputFile}
    {remotePath : List Byte} {stream : Stream} {c : Connection Dialogue}
    (hopen : (Stream.open (bytesOf "sync:")).run host.connection = (.ok stream, c))
    (hpull : ((pullV2 b remotePath codec).run host).1 = .ok ()) :
    Acceptable (kMaxCompressedChunkSize b) (.ofCodec b codec) (ChunkDecoder.ofCodec b codec).initial
      (upcoming stream.localId c.session.inbox).1 := by
  obtain ⟨file, ⟨blocks, hblocks, -⟩, -⟩ := pullOn_receives hopen hpull
  exact hblocks.acceptable

/-! ### The payloads of a pull -/

/-- The device answers a pull with these DATA payloads, and a DONE behind them. -/
def Offers (host : Host Dialogue OutputFile) (chunks : List (List Byte)) : Prop :=
  ∃ (stream : Stream) (c : Connection Dialogue) (size : UInt32) (rest : List Byte),
    (Stream.open (bytesOf "sync:")).run host.connection = (.ok stream, c) ∧
    (upcoming stream.localId c.session.inbox).1 =
      chunks.flatMap (packet kData) ++ (writeU32LE kDone ++ (writeU32LE size ++ rest))

section Payloads

variable {b : Build} {codec : CompressionCodec} {built : DecodeLoop.BuiltIn codec.decodeLoop}
  {G : Delimited Byte} {restarts : Prop} {within : built.library.State → List Byte → Prop}
  {ended : built.library.State → Prop} {chunks : List (List Byte)}

/-- A pull that succeeds has received payloads that the decoder can read on. -/
theorem pullV2_readable (hbuilt : b.builtIn codec = some built)
    (hlibrary : ReportsEnds built.library G restarts within ended) (hsizable : Sizable chunks)
    {host : Host Dialogue OutputFile} {remotePath : List Byte} (hoffers : Offers host chunks)
    (hpull : ((pullV2 b remotePath codec).run host).1 = .ok ()) :
    (∀ chunk ∈ chunks, chunk.length ≤ kMaxCompressedChunkSize b) ∧ G.Readable restarts chunks.flatten := by
  obtain ⟨stream, c, size, rest, hopen, hup⟩ := hoffers
  have haccepted := pullV2_acceptable hopen hpull
  rw [hup] at haccepted
  obtain ⟨hcap, out, hdecodes⟩ := acceptable_chunks hsizable haccepted
  refine ⟨hcap, ?_⟩
  rw [← hlibrary.decodesAll_iff codec.decodeLoop_sound built.ends chunks]
  exact ⟨out, (ofCodec_decodes hbuilt).mp hdecodes⟩

/-- A device that sends its response to a pull byte by byte. -/
def bytewiseDevice (response : List Byte) : Connection Dialogue where
  maxData := 4096
  session := { inbox := .frame ⟨makeEmptyMessage Protocol.kOkay 7 2, []⟩ ::
    (response.map fun byte => deviceWrite 2 [byte]).map .frame }

theorem open_bytewiseDevice (response : List Byte) : ∃ c,
    (Stream.open (bytesOf "sync:")).run (bytewiseDevice response) =
      (.ok { service := bytesOf "sync:", localId := 2, remoteId := 7 }, c) ∧
    c.maxData = 4096 ∧ c.session.outcomes = [] ∧
    c.session.inbox = (response.map fun byte => deviceWrite 2 [byte]).map .frame :=
  ⟨_, rfl, rfl, rfl, rfl⟩

theorem upcoming_bytewise (response : List Byte) :
    upcoming 2 ((response.map fun byte => deviceWrite 2 [byte]).map .frame) =
      (response, .failed (.of .protocol "unexpected end of stream")) := by
  induction response with
  | nil => rfl
  | cons byte response ih =>
    rw [List.map_cons, List.map_cons, upcoming, ih]
    rfl

/-- The response to a pull that ends with a DONE. -/
def doneResponse (chunks : List (List Byte)) : List Byte :=
  chunks.flatMap (packet kData) ++ (writeU32LE kDone ++ (writeU32LE 0 ++ []))

/-- The device that sends the payloads byte by byte, with a local file that can be written. -/
def bytewiseHost (chunks : List (List Byte)) : Host Dialogue OutputFile :=
  ⟨bytewiseDevice (doneResponse chunks), {}⟩

theorem bytewise_offers (chunks : List (List Byte)) : Offers (bytewiseHost chunks) chunks := by
  obtain ⟨c, hopen, -, -, hinbox⟩ := open_bytewiseDevice (doneResponse chunks)
  refine ⟨_, c, 0, [], hopen, ?_⟩
  rw [hinbox, upcoming_bytewise]
  rfl

/-- A pull succeeds on all payloads that the decoder can read on. -/
theorem pullV2_bytewise (hbuilt : b.builtIn codec = some built)
    (hlibrary : ReportsEnds built.library G restarts within ended) (hsizable : Sizable chunks)
    (hcap : ∀ chunk ∈ chunks, chunk.length ≤ kMaxCompressedChunkSize b)
    (hreadable : G.Readable restarts chunks.flatten) (remotePath : List Byte)
    (hpath : remotePath.length ≤ kMaxPathLength) :
    ((pullV2 b remotePath codec).run (bytewiseHost chunks)).1 = .ok () := by
  obtain ⟨c, hopen, hmax, houtcomes, hinbox⟩ := open_bytewiseDevice (doneResponse chunks)
  have hopen' : (Stream.open (bytesOf "sync:")).run (bytewiseHost chunks).connection = _ := hopen
  obtain ⟨out, hall⟩ :=
    (hlibrary.decodesAll_iff codec.decodeLoop_sound built.ends chunks).mpr hreadable
  have hup : (upcoming 2 c.session.inbox).1 = doneResponse chunks := by
    rw [hinbox, upcoming_bytewise]
  have hsends : (⟨{ service := bytesOf "sync:", localId := 2, remoteId := 7 }, c⟩ :
      StreamOn Dialogue).AllAccepted := fun o ho => by
    rw [show _ = _ from houtcomes] at ho
    exact absurd ho List.not_mem_nil
  have hrequest : remotePath.length + 16 ≤ c.maxData.toNat := by
    rw [hmax, show UInt32.toNat 4096 = 4096 from rfl]
    rw [kMaxPathLength] at hpath
    omega
  have hfile : ({} : OutputFile).Accepting := ⟨rfl, by simp, rfl⟩
  obtain ⟨host', hrun, -⟩ := pullV2_concludes hopen' hsends hrequest hfile
    ((ofCodec_decodes hbuilt).mpr hall) (fun chunk hmem => ⟨hcap chunk hmem, hsizable chunk hmem⟩) hup
    (.done 0 [])
  rw [hrun]

end Payloads

/-- A compressed pull succeeds on nothing but complete frames exactly where its payloads are not
ragged: they do not break off inside a frame, and do not go on behind the stream of a brotli decoder.
A payload over the compression bound is refused in any case. -/
theorem pullV2_complete_iff {b : Build} {codec : CompressionCodec}
    {built : DecodeLoop.BuiltIn codec.decodeLoop} (hbuilt : b.builtIn codec = some built)
    {G : Delimited Byte} {within : built.library.State → List Byte → Prop}
    {ended : built.library.State → Prop}
    (hlibrary : ReportsEnds built.library G (codec ≠ .brotli) within ended)
    {chunks : List (List Byte)} (hsizable : Sizable chunks) :
    (∀ (host : Host Dialogue OutputFile) (remotePath : List Byte), Offers host chunks →
      ((pullV2 b remotePath codec).run host).1 = .ok () → G.Complete (codec ≠ .brotli) chunks.flatten) ↔
      (∃ chunk ∈ chunks, kMaxCompressedChunkSize b < chunk.length) ∨
        ¬ G.Ragged (codec ≠ .brotli) chunks.flatten := by
  constructor
  · intro h
    by_cases hcap : ∀ chunk ∈ chunks, chunk.length ≤ kMaxCompressedChunkSize b
    swap
    · left
      simpa using hcap
    refine .inr fun hragged => ?_
    have hpull := pullV2_bytewise hbuilt hlibrary hsizable hcap hragged.readable [] (Nat.zero_le _)
    exact (h _ _ (bytewise_offers chunks) hpull).not_ragged hragged
  · rintro hcondition host remotePath hoffers hpull
    obtain ⟨hcap, hreadable⟩ := pullV2_readable hbuilt hlibrary hsizable hoffers hpull
    rcases hcondition with ⟨chunk, hmem, hlt⟩ | hragged
    · exact absurd (hcap chunk hmem) (Nat.not_le_of_lt hlt)
    · exact hreadable.complete_or_ragged.resolve_right hragged

/-! ### A pull of one byte -/

/-- The brotli stream of the byte `a`. -/
def brotliOfA : List Byte := [0x0B, 0x00, 0x80, 0x61, 0x03]

theorem brotliOfA_ne_nil : brotliOfA ≠ [] := List.cons_ne_nil _ _

/-- A brotli that has only this one stream. -/
def brotliFormat : Delimited Byte := OneStream.format brotliOfA brotliOfA_ne_nil

theorem brotli_gives_up (offset : ℕ) : BrotliDecoder.loop.stalled offset 0 = true := rfl

def brotliBuild : Build where
  brotli := some ⟨OneStream.library brotliOfA [0x61], OneStream.ends brotli_gives_up brotliOfA [0x61]⟩

theorem brotli_reportsEnds : ReportsEnds (OneStream.library brotliOfA [0x61]) brotliFormat
    (CompressionCodec.brotli ≠ .brotli) (OneStream.within brotliOfA) (· = none) :=
  OneStream.reportsEnds brotliOfA_ne_nil [0x61] (not_not.mpr rfl)

/-- The pull of one payload. -/
def pullOfA (payload : List Byte) : Except Error Unit :=
  ((pullV2 brotliBuild (bytesOf "/sdcard/a") .brotli).run (bytewiseHost [payload])).1

theorem sizable_one {payload : List Byte} (hlen : payload.length ≤ 8) : Sizable [payload] := by
  intro chunk hmem
  rw [List.mem_singleton.mp hmem]
  omega

theorem pullOfA_ok {payload : List Byte} (hlen : payload.length ≤ 8)
    (hreadable : brotliFormat.Readable (CompressionCodec.brotli ≠ .brotli) payload) :
    pullOfA payload = .ok () := by
  have hcap : ∀ chunk ∈ [payload], chunk.length ≤ kMaxCompressedChunkSize brotliBuild := by
    intro chunk hmem
    rw [List.mem_singleton.mp hmem]
    exact Nat.le_trans hlen (by decide)
  rw [← List.flatten_singleton (l := payload)] at hreadable
  exact pullV2_bytewise rfl brotli_reportsEnds (sizable_one hlen) hcap hreadable _ (by decide)

theorem brotliOfA_complete : brotliFormat.Complete (CompressionCodec.brotli ≠ .brotli) brotliOfA :=
  Delimited.complete_item ((OneStream.item_iff brotliOfA_ne_nil).mpr rfl)

/-- The stream of the byte is pulled, and is complete. -/
theorem pullV2_complete_iff_a : pullOfA brotliOfA = .ok () ∧
    brotliFormat.Complete (CompressionCodec.brotli ≠ .brotli) [brotliOfA].flatten := by
  have hpull := pullOfA_ok (by decide) brotliOfA_complete.readable
  have hragged : ¬ brotliFormat.Ragged (CompressionCodec.brotli ≠ .brotli) [brotliOfA].flatten :=
    brotliOfA_complete.not_ragged
  have hiff := @pullV2_complete_iff brotliBuild .brotli _ rfl _ _ _ brotli_reportsEnds [brotliOfA]
    (sizable_one (by decide))
  exact ⟨hpull, hiff.mpr (.inr hragged) _ _ (bytewise_offers [brotliOfA]) hpull⟩

theorem cut_ragged : brotliFormat.Ragged (CompressionCodec.brotli ≠ .brotli) (brotliOfA.take 3) := by
  refine .inside ?_ (List.cons_ne_nil _ _) ?_
  · exact (OneStream.beginning_iff brotliOfA_ne_nil).mpr (List.take_prefix 3 brotliOfA)
  · intro hitem
    exact absurd ((OneStream.item_iff brotliOfA_ne_nil).mp hitem) (by decide)

theorem trailing_ragged : brotliFormat.Ragged (CompressionCodec.brotli ≠ .brotli) (brotliOfA ++ [0xFF]) :=
  .trailing (not_not.mpr rfl) ((OneStream.item_iff brotliOfA_ne_nil).mpr rfl) (List.cons_ne_nil _ _)

/-- The first three bytes of the stream are taken for a whole file, and so is the stream with a byte
behind it. -/
theorem not_pullV2_complete_cut :
    (Offers (bytewiseHost [brotliOfA.take 3]) [brotliOfA.take 3] ∧ pullOfA (brotliOfA.take 3) = .ok () ∧
      ¬ brotliFormat.Complete (CompressionCodec.brotli ≠ .brotli) [brotliOfA.take 3].flatten) ∧
    (Offers (bytewiseHost [brotliOfA ++ [0xFF]]) [brotliOfA ++ [0xFF]] ∧
      pullOfA (brotliOfA ++ [0xFF]) = .ok () ∧
      ¬ brotliFormat.Complete (CompressionCodec.brotli ≠ .brotli) [brotliOfA ++ [0xFF]].flatten) := by
  have hcut := pullOfA_ok (by decide) cut_ragged.readable
  have htrailing := pullOfA_ok (by decide) trailing_ragged.readable
  refine ⟨⟨bytewise_offers _, hcut, fun h => h.not_ragged ?_⟩,
    ⟨bytewise_offers _, htrailing, fun h => h.not_ragged ?_⟩⟩
  · exact cut_ragged
  · exact trailing_ragged

end Adbcpp.Sync
