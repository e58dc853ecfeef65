import Adbcpp.Compression.Frames
import Adbcpp.Protocol.ByteOrder

/-! The smallest codec that meets what the libraries promise: a frame is the length of
its chunk and the chunk itself, and the decoder takes one byte a call. It comes in a
form that starts the next frame after the end of one, and in a form that is over. -/

namespace Adbcpp.Stored

open Protocol

/-- What a decoder awaits: the rest of a length, the rest of a chunk, or nothing any more. -/
inductive State
  | header (part : List Byte)
  | body (left : ℕ)
  | over
  deriving DecidableEq, Repr

/-- Where the end of a frame leads. -/
def atEnd (restarts : Bool) : State := if restarts then .header [] else .over

/-- What a decoder awaits with so many bytes of the chunk left. -/
def awaiting (restarts : Bool) (left : ℕ) : State := if left = 0 then atEnd restarts else .body left

def decompress (restarts : Bool) (input : List Byte) (_ : ℕ) : Prog State String StreamingCall := fun s =>
  match s, input with
  -- A decoder that starts over does not come here.
  | .over, _ => if restarts then (.error "the decoder is over", .over) else (.ok ⟨0, [], .frameEnd⟩, .over)
  | s, [] => (.ok ⟨0, [], .needsInput⟩, s)
  | .header part, x :: _ =>
    (.ok ⟨1, [], .needsInput⟩, if part.length < 3 then .header (part ++ [x])
      else awaiting restarts (readU32LE (part ++ [x])).toNat)
  | .body left, x :: _ =>
    (.ok ⟨1, [x], if left ≤ 1 then .frameEnd else .needsInput⟩, awaiting restarts (left - 1))

/-- A chunk behind its length. -/
def frameOf (chunk : List Byte) : List Byte := writeU32LE (UInt32.ofNat chunk.length) ++ chunk

def library (restarts : Bool) : CodecLibrary where
  State := State
  create := some (.header [])
  decompress := decompress restarts
  compressBound _ n := n + 4
  compress _ input capacity :=
    if input.length + 4 ≤ capacity then .ok (frameOf input) else .error "the buffer is too small"

theorem length_frameOf (chunk : List Byte) : (frameOf chunk).length = chunk.length + 4 := by
  rw [frameOf, List.length_append, length_writeU32LE, Nat.add_comm]

/-- Every codec gives its encoder enough room for the frame. -/
theorem compressWith_library (restarts : Bool) (codec : CompressionCodec) (chunk : List Byte) :
    compressWith (library restarts) codec chunk = .ok (frameOf chunk) := by
  have hroom : ∀ setup, (library restarts).compress setup chunk
      ((library restarts).compressBound setup chunk.length) = .ok (frameOf chunk) :=
    fun _ => if_pos (Nat.le_refl _)
  have hbound : ¬ (library restarts).compressBound (.quality kBrotliQuality) chunk.length = 0 :=
    Nat.succ_ne_zero _
  cases codec with
  | zstd => rw [compressWith, compressZstd, hroom]; rfl
  | lz4 => rw [compressWith, compressLz4, hroom]; rfl
  | brotli => rw [compressWith, compressBrotli, if_neg hbound, hroom]; rfl

/-! ### The decoder -/

section Decoder

variable {restarts : Bool} {chunk fed : List Byte}

/-- The frame of a chunk as a stream. -/
def stream (chunk : List Byte) : CompressedStream where
  bytes := frameOf chunk
  unpack fed := fed.drop 4
  unpack_nil := rfl
  unpack_prefix := by
    rintro fed _ ⟨rest, rfl⟩ -
    rw [List.drop_append]
    exact List.prefix_append _ _

/-- What the decoder awaits after the beginning `fed` of a frame. -/
def after (restarts : Bool) (chunk fed : List Byte) : State :=
  if fed.length < 4 then .header fed else awaiting restarts (chunk.length + 4 - fed.length)

/-- The state of the decoder within the frame of a chunk. -/
def rep (restarts : Bool) (chunk : List Byte) (s : State) (fed handed : List Byte) : Prop :=
  fed <+: frameOf chunk ∧ s = after restarts chunk fed ∧ handed = fed.drop 4

/-- The decoder takes the next byte of a frame. -/
theorem decompress_next (hlt : chunk.length < 2 ^ 32) (restarts : Bool) {x : Byte}
    (hpre : fed ++ [x] <+: frameOf chunk) (rest : List Byte) (room : ℕ) : ∃ produced progress,
    (decompress restarts (x :: rest) room).run (after restarts chunk fed) =
      (.ok ⟨1, produced, progress⟩, after restarts chunk (fed ++ [x])) ∧
    produced.length ≤ 1 ∧ fed.drop 4 ++ produced = (fed ++ [x]).drop 4 ∧ progress ≠ .needsOutput := by
  have hlen := hpre.length_le
  rw [length_frameOf, List.length_append, List.length_singleton] at hlen
  by_cases hheader : fed.length < 4
  · have hnone : (fed ++ [x]).drop 4 = [] := List.drop_eq_nil_of_le (by simp; omega)
    refine ⟨[], .needsInput, ?_, Nat.zero_le _, ?_, by decide⟩
    · rw [after, if_pos hheader, after]
      show (_, if fed.length < 3 then _ else _) = _
      by_cases hthree : fed.length < 3
      · have hpart : (fed ++ [x]).length < 4 := by simp; omega
        rw [if_pos hpart, if_pos hthree]
      · -- The fourth byte completes the length.
        have hfour : (fed ++ [x]).length = 4 := by simp; omega
        have hword : fed ++ [x] = writeU32LE (UInt32.ofNat chunk.length) :=
          (List.prefix_of_prefix_length_le hpre (List.prefix_append _ _) (Nat.le_of_eq hfour)).eq_of_length
            hfour
        rw [if_neg hthree, hfour, hword, readU32LE_writeU32LE_self, UInt32.toNat_ofNat',
          Nat.mod_eq_of_lt hlt]
        simp
    · rw [hnone, List.append_nil, List.drop_eq_nil_of_le (Nat.le_of_lt hheader)]
  · have hdrop : (fed ++ [x]).drop 4 = fed.drop 4 ++ [x] := List.drop_append_of_le_length (by omega)
    have hleft : ¬ chunk.length + 4 - fed.length = 0 := by omega
    have hnext : ¬ (fed ++ [x]).length < 4 := by simp; omega
    have hless : chunk.length + 4 - (fed ++ [x]).length = chunk.length + 4 - fed.length - 1 := by
      simp
      omega
    refine ⟨[x], if chunk.length + 4 - fed.length ≤ 1 then .frameEnd else .needsInput, ?_,
      Nat.le_refl _, hdrop.symm, by split <;> simp⟩
    rw [after, if_neg hheader, awaiting, if_neg hleft, after, if_neg hnext, hless]
    rfl

theorem streaming (hlt : chunk.length < 2 ^ 32) (restarts : Bool) :
    Streaming (library restarts) (stream chunk) (rep restarts chunk) where
  handed := by
    rintro s fed handed ⟨-, -, rfl⟩
    exact List.prefix_rfl
  call := by
    rintro s fed handed input room ⟨-, rfl, rfl⟩ hne hin hroom
    cases input with
    | nil => exact absurd rfl hne
    | cons x rest =>
      have hpre : fed ++ [x] <+: frameOf chunk := by
        refine List.IsPrefix.trans ?_ hin
        rw [← List.singleton_append (l := rest), ← List.append_assoc]
        exact List.prefix_append _ _
      obtain ⟨produced, progress, hrun, hle, hout, hprogress⟩ :=
        decompress_next hlt restarts hpre rest room
      have htake : fed ++ (x :: rest).take 1 = fed ++ [x] := rfl
      refine ⟨_, _, hrun, ⟨by simp, Nat.le_trans hle hroom, ?_, .inl Nat.one_pos, fun _ => ?_, ?_⟩⟩
      · exact ⟨hpre, rfl, hout⟩
      · exact hout
      · exact ⟨fun h => absurd h hprogress, fun h => absurd hout h⟩

/-- The stored frames are frames, for every codec. -/
theorem framed (codec : CompressionCodec) {restarts : Bool} {P : Prop} (hP : P ↔ restarts = true) :
    Framed (library restarts) (compressWith (library restarts) codec) P
      (· = .header []) (· = atEnd restarts) where
  created := ⟨_, rfl, rfl⟩
  frame chunk hne hle := by
    have hlt : chunk.length < 2 ^ 32 := Nat.lt_of_le_of_lt hle (by decide)
    refine ⟨stream chunk, compressWith_library restarts codec chunk, rfl, ?_, rep restarts chunk,
      streaming hlt restarts, ?_, ?_⟩
    · intro hnil
      have := length_frameOf chunk
      rw [show frameOf chunk = [] from hnil, List.length_nil] at this
      omega
    · rintro s rfl
      exact ⟨List.nil_prefix, rfl, rfl⟩
    · rintro s ⟨-, rfl, -⟩
      have hlen : (stream chunk).bytes.length = chunk.length + 4 := length_frameOf chunk
      rw [after, hlen, if_neg (by omega), Nat.sub_self]
      rfl
  starts := by
    rintro hstarts s rfl
    rw [atEnd, hP.mp hstarts]
    rfl
  stops := by
    rintro hstops s input room rfl
    rw [hP, Bool.not_eq_true] at hstops
    subst hstops
    exact ⟨.frameEnd, .over, rfl, rfl⟩

end Decoder

/-! ### The codec built in -/

/-- A call takes one byte, or leaves a decoder that is over as it is. -/
theorem decompress_cases (restarts : Bool) {input : List Byte} (hne : input ≠ []) (room : ℕ) (s : State) :
    (∃ produced progress s', (decompress restarts input room).run s = (.ok ⟨1, produced, progress⟩, s')) ∨
    (restarts = false ∧ ∃ progress, (decompress restarts input room).run s = (.ok ⟨0, [], progress⟩, s)) ∨
    ∃ e, (decompress restarts input room).run s = (.error e, s) := by
  cases input with
  | nil => exact absurd rfl hne
  | cons x rest =>
    cases s with
    | header part => exact .inl ⟨_, _, _, rfl⟩
    | body left => exact .inl ⟨_, _, _, rfl⟩
    | «over» =>
      cases restarts with
      | true => exact .inr (.inr ⟨_, rfl⟩)
      | false => exact .inr (.inl ⟨rfl, _, rfl⟩)

/-- Every loop ends over a decoder that starts over; over the other one a loop ends that gives up
when a call does nothing. -/
theorem ends {restarts : Bool} {D : DecodeLoop}
    (hD : restarts = true ∨ ∀ offset, D.stalled offset 0 = true) (input : List Byte) :
    Prog.AlwaysEnds (D.turn (library restarts) input) := by
  have hstep : ∀ d s, True → Prog.Keeps (fun _ _ => True) (fun d _ => input.length - d.offset)
      (fun _ => True) d s ((D.turn (library restarts) input d).run s) := by
    intro d s _
    by_cases hlt : d.offset < input.length
    swap
    · rw [DecodeLoop.turn_done (Nat.le_of_not_lt hlt)]
      trivial
    have hne : input.drop d.offset ≠ [] := by
      rw [Ne, List.drop_eq_nil_iff]
      omega
    obtain ⟨produced, progress, s', hrun⟩ | ⟨hover, progress, hrun⟩ | ⟨e, hrun⟩ :=
      decompress_cases restarts hne kMaxChunkSize s
    · rw [DecodeLoop.turn_call hlt hrun]
      split
      · trivial
      · exact ⟨trivial, by dsimp only; omega⟩
    · have hstalled := hD.resolve_left (by simp [hover]) d.offset
      rw [DecodeLoop.turn_call hlt hrun, if_pos ⟨hstalled, rfl⟩]
      trivial
    · rw [DecodeLoop.turn_failed hlt hrun]
      trivial
  intro d s
  obtain ⟨r, hr, -⟩ := Prog.loopEnds_of_keeps hstep trivial
  exact ⟨r, hr⟩

/-- The loop of brotli gives up over a decoder that does nothing. -/
theorem brotli_ends (input : List Byte) : Prog.AlwaysEnds (BrotliDecoder.loop.turn (library false) input) :=
  ends (.inr fun _ => rfl) input

end Adbcpp.Stored
