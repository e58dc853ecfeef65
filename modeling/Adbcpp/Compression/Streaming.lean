import Mathlib.Data.List.Basic
import Adbcpp.Compression

/-! Decoding a stream chunk by chunk. A streaming call may take all of its input and
keep decoded bytes back, because its output buffer is full. The loop of a decode
stops once the input is used up, so every chunk lets at least one full buffer out,
and no more than that is guaranteed: what a library keeps back behind the last chunk
is lost. -/

namespace Adbcpp

/-- A complete compressed stream, and what each beginning of it decodes to. -/
structure CompressedStream where
  bytes : List Byte
  unpack : List Byte → List Byte
  unpack_nil : unpack [] = []
  unpack_prefix : ∀ {fed fed' : List Byte}, fed <+: fed' → fed' <+: bytes → unpack fed <+: unpack fed'

namespace CompressedStream

def content (c : CompressedStream) : List Byte := c.unpack c.bytes

/-- How many decoded bytes chunks are sure to bring after `fed`, of which `n` bytes were handed
out: a chunk that is not empty brings a full buffer, or all there is. -/
def guaranteed (c : CompressedStream) : List Byte → ℕ → List (List Byte) → ℕ
  | _, n, [] => n
  | fed, n, chunk :: chunks => c.guaranteed (fed ++ chunk)
      (if chunk = [] then n else min (n + kMaxChunkSize) (c.unpack (fed ++ chunk)).length) chunks

end CompressedStream

/-! ### What the libraries promise -/

/-- A call that was given `input`, with `room` for output, after `fed` had been consumed and
`handed` been handed out. -/
structure CallDocumented {L : CodecLibrary} (c : CompressedStream)
    (rep : L.State → List Byte → List Byte → Prop) (fed handed input : List Byte) (room : ℕ)
    (call : StreamingCall) (s : L.State) : Prop where
  consumed_le : call.consumed ≤ input.length
  produced_le : call.produced.length ≤ room
  rep : rep s (fed ++ input.take call.consumed) (handed ++ call.produced)
  advances : 0 < call.consumed ∨ call.produced ≠ []
  /-- Only a full output buffer makes a call keep decoded bytes back, -/
  flushes : call.produced.length < room →
    handed ++ call.produced = c.unpack (fed ++ input.take call.consumed)
  /-- and its result says so. -/
  reports : call.progress = .needsOutput ↔
    handed ++ call.produced ≠ c.unpack (fed ++ input.take call.consumed)

/-- The streaming calls of a library within a stream, where `rep` relates a state to what the
decoder has consumed and handed out. -/
structure Streaming (L : CodecLibrary) (c : CompressedStream)
    (rep : L.State → List Byte → List Byte → Prop) : Prop where
  handed : ∀ {s fed handed}, rep s fed handed → handed <+: c.unpack fed
  call : ∀ {s fed handed input room}, rep s fed handed → input ≠ [] → fed ++ input <+: c.bytes →
    0 < room → ∃ call s', (L.decompress input room).run s = (.ok call, s') ∧
      CallDocumented c rep fed handed input room call s'

/-- The library can create a decoder, and decodes the stream as its documentation says. -/
def Documented (L : CodecLibrary) (c : CompressedStream) : Prop :=
  ∃ rep s, Streaming L c rep ∧ L.create = some s ∧ rep s [] []

/-- The loop takes a call for one without progress only if it consumed nothing. -/
def DecodeLoop.Sound (D : DecodeLoop) : Prop := ∀ offset consumed, D.stalled offset consumed → consumed = 0

theorem CompressionCodec.decodeLoop_sound (codec : CompressionCodec) : codec.decodeLoop.Sound := by
  intro offset consumed h
  cases codec with
  | zstd =>
    have : offset + consumed = 0 := by simpa [decodeLoop, ZstdDecoder.loop] using h
    omega
  | lz4 => simpa [decodeLoop, Lz4Decoder.loop] using h
  | brotli => simpa [decodeLoop, BrotliDecoder.loop] using h

namespace DecodeLoop

variable {D : DecodeLoop} {L : CodecLibrary} {input : List Byte} {d : Decoding} {s s' : L.State}

/-- A call that made no progress ends the loop; any other call is followed by another turn. -/
theorem turn_call (hlt : d.offset < input.length) {call : StreamingCall}
    (hcall : (L.decompress (input.drop d.offset) kMaxChunkSize).run s = (.ok call, s')) :
    (D.turn L input d).run s = (.ok (if D.stalled d.offset call.consumed = true ∧ call.produced = [] then
      .done (d.output ++ call.produced)
      else .again ⟨d.offset + call.consumed, d.output ++ call.produced⟩), s') := by
  have hrun : (Prog.mapError (fun name => Error.of .protocol (D.failure ++ name))
      (L.decompress (input.drop d.offset) kMaxChunkSize)).run s = (.ok call, s') := by
    rw [Prog.run_mapError, hcall]
    rfl
  rw [turn, if_pos hlt, Prog.run_bind_ok hrun]
  dsimp only
  split <;> rfl

theorem turn_failed (hlt : d.offset < input.length) {name : String}
    (hcall : (L.decompress (input.drop d.offset) kMaxChunkSize).run s = (.error name, s')) :
    (D.turn L input d).run s = (.error (.of .protocol (D.failure ++ name)), s') := by
  have hrun : (Prog.mapError (fun name => Error.of .protocol (D.failure ++ name))
      (L.decompress (input.drop d.offset) kMaxChunkSize)).run s =
        (.error (.of .protocol (D.failure ++ name)), s') := by
    rw [Prog.run_mapError, hcall]
    rfl
  rw [turn, if_pos hlt, Prog.run_bind_error hrun]

/-- A call that advances is followed by another turn. -/
theorem turn_again (hD : D.Sound) (hlt : d.offset < input.length) {call : StreamingCall}
    (hcall : (L.decompress (input.drop d.offset) kMaxChunkSize).run s = (.ok call, s'))
    (hadv : 0 < call.consumed ∨ call.produced ≠ []) : (D.turn L input d).run s =
      (.ok (.again ⟨d.offset + call.consumed, d.output ++ call.produced⟩), s') := by
  have hstall : ¬ (D.stalled d.offset call.consumed = true ∧ call.produced = []) := by
    rintro ⟨hst, hnil⟩
    have := hD _ _ hst
    rcases hadv with hpos | hne
    · omega
    · exact hne hnil
  rw [turn_call hlt hcall, if_neg hstall]

/-- The loop is over once the input is used up. -/
theorem turn_done (hle : input.length ≤ d.offset) :
    (D.turn L input d).run s = (.ok (.done d.output), s) := by
  rw [turn, if_neg (Nat.not_lt.mpr hle)]
  rfl

end DecodeLoop

/-! ### One chunk -/

section Chunk

variable {L : CodecLibrary} {c : CompressedStream} {rep : L.State → List Byte → List Byte → Prop}
  {D : DecodeLoop}

theorem kMaxChunkSize_pos : 0 < kMaxChunkSize := by decide

/-- The invariant of the loop of a decode that was fed `chunk`. -/
structure InChunk (c : CompressedStream) (rep : L.State → List Byte → List Byte → Prop)
    (fed handed chunk : List Byte) (d : Decoding) (s : L.State) : Prop where
  offset_le : d.offset ≤ chunk.length
  rep : rep s (fed ++ chunk.take d.offset) (handed ++ d.output)
  /-- After the first call a full buffer is out, or all there is. -/
  brought : d.offset = 0 ∨ min (handed.length + kMaxChunkSize)
    (c.unpack (fed ++ chunk.take d.offset)).length ≤ (handed ++ d.output).length

/-- What is left of a chunk, and of what it decodes to. -/
def leftOver (c : CompressedStream) (fed handed chunk : List Byte) (d : Decoding) : ℕ :=
  (chunk.length - d.offset) + ((c.unpack (fed ++ chunk)).length - (handed ++ d.output).length)

theorem append_take_drop (fed l : List Byte) (m n : ℕ) :
    fed ++ l.take m ++ (l.drop m).take n = fed ++ l.take (m + n) := by
  rw [List.append_assoc, List.take_add]

/-- A call takes the loop further: its output is appended, and the invariant is kept. -/
theorem InChunk.call (hs : Streaming L c rep) {fed handed chunk : List Byte} {d : Decoding}
    {s' : L.State} (hin : fed ++ chunk <+: c.bytes)
    (hlt : d.offset < chunk.length) {call : StreamingCall}
    (hcall : CallDocumented c rep (fed ++ chunk.take d.offset) (handed ++ d.output)
      (chunk.drop d.offset) kMaxChunkSize call s') :
    InChunk c rep fed handed chunk ⟨d.offset + call.consumed, d.output ++ call.produced⟩ s' ∧
      leftOver c fed handed chunk ⟨d.offset + call.consumed, d.output ++ call.produced⟩ <
        leftOver c fed handed chunk d := by
  have hle : d.offset + call.consumed ≤ chunk.length := by
    have := hcall.consumed_le
    rw [List.length_drop] at this
    omega
  have hrep := hcall.rep
  have hflush := hcall.flushes
  rw [append_take_drop, List.append_assoc] at hrep
  rw [append_take_drop, List.append_assoc] at hflush
  refine ⟨⟨hle, hrep, .inr ?_⟩, ?_⟩
  · by_cases hfull : call.produced.length < kMaxChunkSize
    · rw [hflush hfull]
      exact Nat.min_le_right _ _
    · have := hcall.produced_le
      simp only [List.length_append]
      omega
  · have hpre := (hs.handed hrep).length_le
    have hmono : c.unpack (fed ++ chunk.take (d.offset + call.consumed)) <+: c.unpack (fed ++ chunk) :=
      c.unpack_prefix (by simp [List.take_prefix]) hin
    have hall := hmono.length_le
    have hadv : 0 < call.consumed ∨ 0 < call.produced.length :=
      hcall.advances.imp_right List.length_pos_of_ne_nil
    simp only [leftOver, List.length_append] at hpre ⊢
    omega

/-- A decode of a chunk inside the stream succeeds, and brings a full buffer or all there is. -/
theorem decodes_chunk (hs : Streaming L c rep) (hD : D.Sound) {fed handed chunk : List Byte}
    {s : L.State} (hrep : rep s fed handed) (hin : fed ++ chunk <+: c.bytes) :
    ∃ out s', D.Decodes L chunk (some s) (.ok out, some s') ∧
      rep s' (fed ++ chunk) (handed ++ out) ∧
      (chunk ≠ [] → min (handed.length + kMaxChunkSize) (c.unpack (fed ++ chunk)).length ≤
        (handed ++ out).length) := by
  have hstep : ∀ d t, InChunk c rep fed handed chunk d t →
      Prog.Keeps (InChunk c rep fed handed chunk) (fun d _ => leftOver c fed handed chunk d)
        (fun r => ∃ out s', r = (.ok out, s') ∧ InChunk c rep fed handed chunk ⟨chunk.length, out⟩ s')
        d t ((D.turn L chunk d).run t) := by
    intro d t h
    by_cases hlt : d.offset < chunk.length
    · have hne : chunk.drop d.offset ≠ [] := by
        rw [Ne, List.drop_eq_nil_iff]
        omega
      have hsplit : fed ++ chunk.take d.offset ++ chunk.drop d.offset <+: c.bytes := by
        rwa [List.append_assoc, List.take_append_drop]
      obtain ⟨call, t', hrun, hcall⟩ := hs.call h.rep hne hsplit kMaxChunkSize_pos
      rw [DecodeLoop.turn_again hD hlt hrun hcall.advances]
      exact InChunk.call hs hin hlt hcall
    · have hoff : d.offset = chunk.length := Nat.le_antisymm h.offset_le (Nat.not_lt.mp hlt)
      rw [DecodeLoop.turn_done (Nat.not_lt.mp hlt)]
      exact ⟨d.output, t, rfl, by rw [← hoff]; exact h⟩
  have hstart : InChunk c rep fed handed chunk {} s := by
    refine ⟨Nat.zero_le _, ?_, .inl rfl⟩
    rw [List.take_zero, List.append_nil, List.append_nil]
    exact hrep
  obtain ⟨r, hends, out, s', rfl, h⟩ := Prog.loopEnds_of_keeps hstep hstart
  have hrep' := h.rep
  have hbrought := h.brought
  rw [List.take_length] at hrep' hbrought
  refine ⟨out, s', DecodeLoop.decodes_some.mpr ⟨_, _, hends, rfl⟩, hrep', fun hne => ?_⟩
  exact hbrought.resolve_left fun h0 => hne (List.length_eq_zero_iff.mp h0)

end Chunk

/-! ### All chunks -/

/-- The decodes of chunks inside the stream succeed, and bring what is guaranteed of them. -/
theorem decodesAll_chunks {L : CodecLibrary} {c : CompressedStream}
    {rep : L.State → List Byte → List Byte → Prop} {D : DecodeLoop} (hs : Streaming L c rep)
    (hD : D.Sound) {chunks : List (List Byte)} {fed handed : List Byte} {n : ℕ} {s : L.State}
    (hrep : rep s fed handed) (hin : fed ++ chunks.flatten <+: c.bytes) (hn : n ≤ handed.length) :
    ∃ out, D.DecodesAll L chunks (some s) out ∧ handed ++ out <+: c.unpack (fed ++ chunks.flatten) ∧
      c.guaranteed fed n chunks ≤ (handed ++ out).length := by
  induction chunks generalizing fed handed n s with
  | nil =>
    rw [List.flatten_nil, List.append_nil]
    refine ⟨[], .nil, ?_, ?_⟩
    · rw [List.append_nil]
      exact hs.handed hrep
    · rwa [List.append_nil]
  | cons chunk chunks ih =>
    rw [List.flatten_cons, ← List.append_assoc] at hin ⊢
    obtain ⟨out, s', hdec, hrep', hbrought⟩ :=
      decodes_chunk hs hD hrep ((List.prefix_append _ _).trans hin)
    have hn' : (if chunk = [] then n else
        min (n + kMaxChunkSize) (c.unpack (fed ++ chunk)).length) ≤ (handed ++ out).length := by
      split
      · rw [List.length_append]
        omega
      next hne =>
        have := hbrought hne
        omega
    obtain ⟨rest, hall, hpre, hle⟩ := ih hrep' hin hn'
    rw [List.append_assoc] at hpre hle
    exact ⟨out ++ rest, .cons hdec hall, hpre, hle⟩

/-- Where the chunks are sure to bring all of the content, a documented library decodes them to
the content. -/
theorem decodesAll_content {L : CodecLibrary} {c : CompressedStream} {D : DecodeLoop}
    (hL : Documented L c) (hD : D.Sound) {chunks : List (List Byte)} (hcut : chunks.flatten = c.bytes)
    (hall : c.guaranteed [] 0 chunks = c.content.length) : D.DecodesAll L chunks L.create c.content := by
  obtain ⟨rep, s, hs, hcreate, hrep⟩ := hL
  have hin : [] ++ chunks.flatten <+: c.bytes := hcut ▸ List.prefix_rfl
  obtain ⟨out, hdec, hpre, hle⟩ := decodesAll_chunks hs hD hrep hin (Nat.le_refl _)
  rw [List.nil_append] at hpre hle
  rw [List.nil_append, hcut] at hpre
  rw [hcreate, show c.content = out from ?_]
  · exact hdec
  · exact (hpre.eq_of_length_le (hall ▸ hle)).symm

/-! ### The library that keeps back as much as it may -/

/-- The library that takes all of its input at once, and hands out no more than the room it has. -/
def eager (c : CompressedStream) : CodecLibrary where
  State := List Byte × List Byte
  create := some ([], [])
  decompress input room := fun s =>
    let fed := s.1 ++ input
    let produced := ((c.unpack fed).drop s.2.length).take room
    let progress : Progress := if s.2 ++ produced = c.unpack fed then
      if fed = c.bytes then .frameEnd else .needsInput
    else .needsOutput
    (.ok ⟨input.length, produced, progress⟩, (fed, s.2 ++ produced))
  compressBound _ n := n
  compress _ input _ := .ok input

/-- The state of the eager library is what it has consumed and handed out. -/
def eagerRep (c : CompressedStream) (s : (eager c).State) (fed handed : List Byte) : Prop :=
  s = (fed, handed) ∧ handed <+: c.unpack fed

theorem eager_handed {c : CompressedStream} {fed handed : List Byte} (h : handed <+: c.unpack fed)
    (room : ℕ) : handed ++ ((c.unpack fed).drop handed.length).take room =
      (c.unpack fed).take (handed.length + room) := by
  obtain ⟨rest, hrest⟩ := h
  rw [← hrest, List.drop_left, List.take_length_add_append]

theorem eager_streaming (c : CompressedStream) : Streaming (eager c) c (eagerRep c) where
  handed h := h.2
  call := by
    rintro _ fed handed input room ⟨rfl, hpre⟩ hne hin hroom
    have hpre' : handed <+: c.unpack (fed ++ input) :=
      hpre.trans (c.unpack_prefix (List.prefix_append _ _) hin)
    have hout := eager_handed hpre' room
    refine ⟨_, _, rfl, Nat.le_refl _, ?_, ⟨?_, ?_⟩, .inl (List.length_pos_of_ne_nil hne), ?_, ?_⟩
    · rw [List.length_take]
      exact Nat.min_le_left _ _
    · rw [List.take_length]
    · rw [List.take_length, hout]
      exact List.take_prefix _ _
    · intro hlt
      rw [List.take_length, hout]
      rw [List.length_take, List.length_drop] at hlt
      dsimp only at hlt
      exact List.take_of_length_le (by omega)
    · rw [List.take_length]
      dsimp only
      split
      next heq => simp [heq]; split <;> simp
      next hne' => simp [hne']

theorem eager_documented (c : CompressedStream) : Documented (eager c) c :=
  ⟨eagerRep c, ([], []), eager_streaming c, rfl, rfl, List.nil_prefix⟩

theorem eager_call (c : CompressedStream) (s : (eager c).State) (input : List Byte) (room : ℕ) :
    ∃ call, ((eager c).decompress input room).run s = (.ok call, (s.1 ++ input, s.2 ++ call.produced)) ∧
      call.consumed = input.length ∧
      call.produced = ((c.unpack (s.1 ++ input)).drop s.2.length).take room :=
  ⟨_, rfl, rfl, rfl⟩

theorem eager_decodes {c : CompressedStream} {D : DecodeLoop} (hD : D.Sound)
    {fed handed chunk : List Byte} (hpre : handed <+: c.unpack fed) (hin : fed ++ chunk <+: c.bytes) :
    ∃ out, D.Decodes (eager c) chunk (some (fed, handed)) (.ok out, some (fed ++ chunk, handed ++ out)) ∧
      handed ++ out <+: c.unpack (fed ++ chunk) ∧
      (handed ++ out).length = if chunk = [] then handed.length else
        min (handed.length + kMaxChunkSize) (c.unpack (fed ++ chunk)).length := by
  by_cases hnil : chunk = []
  · subst hnil
    refine ⟨[], DecodeLoop.decodes_some.mpr ⟨_, _, .done rfl, ?_⟩, ?_, ?_⟩
    · simp
    · simpa using hpre
    · simp
  have hpos : 0 < chunk.length := List.length_pos_of_ne_nil hnil
  have hpre' : handed <+: c.unpack (fed ++ chunk) :=
    hpre.trans (c.unpack_prefix (List.prefix_append _ _) hin)
  have hout := eager_handed hpre' kMaxChunkSize
  obtain ⟨call, hrun, hconsumed, hproduced⟩ := eager_call c (fed, handed) chunk kMaxChunkSize
  have hfirst := DecodeLoop.turn_again (L := eager c) (d := {}) hD hpos hrun (.inl (by omega))
  have hlast : (D.turn (eager c) chunk ⟨0 + call.consumed, [] ++ call.produced⟩).run
      (fed ++ chunk, handed ++ call.produced) = (.ok (.done ([] ++ call.produced)), _) :=
    DecodeLoop.turn_done (by dsimp only; omega)
  refine ⟨call.produced,
    DecodeLoop.decodes_some.mpr ⟨_, _, .again hfirst (.done hlast), rfl⟩, ?_, ?_⟩ <;>
    rw [hproduced]
  · rw [hout]
    exact List.take_prefix _ _
  · rw [hout, if_neg hnil, List.length_take]

theorem eager_decodesAll {c : CompressedStream} {D : DecodeLoop} (hD : D.Sound)
    {chunks : List (List Byte)} {fed handed : List Byte} (hpre : handed <+: c.unpack fed)
    (hin : fed ++ chunks.flatten <+: c.bytes) :
    ∃ out, D.DecodesAll (eager c) chunks (some (fed, handed)) out ∧
      (handed ++ out).length = c.guaranteed fed handed.length chunks := by
  induction chunks generalizing fed handed with
  | nil => exact ⟨[], .nil, by rw [List.append_nil]; rfl⟩
  | cons chunk chunks ih =>
    rw [List.flatten_cons, ← List.append_assoc] at hin
    obtain ⟨out, hdec, hpre', hlen⟩ := eager_decodes hD hpre ((List.prefix_append _ _).trans hin)
    obtain ⟨rest, hall, hrest⟩ := ih hpre' hin
    refine ⟨out ++ rest, .cons hdec hall, ?_⟩
    rw [CompressedStream.guaranteed, ← hlen, ← hrest, List.append_assoc]

/-- The results of decode are the whole content, whatever documented library decodes the stream,
exactly where the chunks are sure to bring all of it. -/
theorem decodesAll_content_iff {c : CompressedStream} {D : DecodeLoop} (hD : D.Sound)
    {chunks : List (List Byte)} (hcut : chunks.flatten = c.bytes) :
    (∀ L, Documented L c → D.DecodesAll L chunks L.create c.content) ↔
      c.guaranteed [] 0 chunks = c.content.length := by
  constructor
  · intro h
    have hin : [] ++ chunks.flatten <+: c.bytes := hcut ▸ List.prefix_rfl
    obtain ⟨out, hdec, hlen⟩ := eager_decodesAll hD (List.nil_prefix (l := c.unpack [])) hin
    rw [List.nil_append, List.length_nil] at hlen
    rw [← hlen, (h (eager c) (eager_documented c)).unique hdec]
  · intro hall L hL
    exact decodesAll_content hL hD hcut hall

end Adbcpp
