import Adbcpp.Compression.Streaming

/-! Frame after frame. A transfer compresses every chunk as a frame of its own, and
one decoder takes all the frames. Whether that gives back the chunks is a matter of
what the decoder does after the end of a frame: some libraries start the next frame
there, and some are over. -/

namespace Adbcpp

/-- How a library compresses chunks as frames, and what its decoder does with them. A `ready`
decoder awaits a frame, and one that is `done` has come to the end of one. -/
structure Framed (L : CodecLibrary) (encode : List Byte → Except Error (List Byte)) (restarts : Prop)
    (ready done : L.State → Prop) : Prop where
  created : ∃ s, L.create = some s ∧ ready s
  /-- A frame is a stream that decodes to its chunk. -/
  frame : ∀ chunk, chunk ≠ [] → chunk.length ≤ kMaxChunkSize → ∃ c : CompressedStream,
    encode chunk = .ok c.bytes ∧ c.content = chunk ∧ c.bytes ≠ [] ∧
    ∃ rep, Streaming L c rep ∧ (∀ s, ready s → rep s [] []) ∧ ∀ s, rep s c.bytes chunk → done s
  /-- The decoder starts the next frame after the end of one, -/
  starts : restarts → ∀ s, done s → ready s
  /-- or it consumes no further input. -/
  stops : ¬ restarts → ∀ s input room, done s → ∃ progress s',
    (L.decompress input room).run s = (.ok ⟨0, [], progress⟩, s') ∧ done s'

/-- A call at the beginning of a chunk that neither consumes nor produces ends the decode. -/
def DecodeLoop.GivesUp (D : DecodeLoop) : Prop := D.stalled 0 0 = true

theorem CompressionCodec.decodeLoop_givesUp (codec : CompressionCodec) : codec.decodeLoop.GivesUp := by
  cases codec <;> rfl

namespace Framed

variable {L : CodecLibrary} {encode : List Byte → Except Error (List Byte)} {restarts : Prop}
  {ready done : L.State → Prop} {D : DecodeLoop}

/-- Chunks that are not too large have frames. -/
theorem exists_frames (h : Framed L encode restarts ready done) {chunks : List (List Byte)}
    (hchunks : ∀ chunk ∈ chunks, 1 ≤ chunk.length ∧ chunk.length ≤ kMaxChunkSize) :
    ∃ frames, List.Forall₂ (fun chunk frame => encode chunk = .ok frame) chunks frames := by
  induction chunks with
  | nil => exact ⟨[], .nil⟩
  | cons chunk chunks ih =>
    obtain ⟨hpos, hle⟩ := hchunks chunk List.mem_cons_self
    obtain ⟨c, hencode, -⟩ := h.frame chunk (List.ne_nil_of_length_pos hpos) hle
    obtain ⟨frames, hframes⟩ := ih fun c hc => hchunks c (List.mem_cons_of_mem _ hc)
    exact ⟨c.bytes :: frames, .cons hencode hframes⟩

/-- A ready decoder gives back the chunk of a frame. -/
theorem decodes_frame (h : Framed L encode restarts ready done) (hD : D.Sound) {chunk frame : List Byte}
    (hne : chunk ≠ []) (hle : chunk.length ≤ kMaxChunkSize) (hencode : encode chunk = .ok frame)
    {s : L.State} (hs : ready s) :
    ∃ s', D.Decodes L frame (some s) (.ok chunk, some s') ∧ done s' := by
  obtain ⟨c, hbytes, hcontent, hframe, rep, hstreaming, hready, hdone⟩ := h.frame chunk hne hle
  rw [hencode] at hbytes
  cases hbytes
  obtain ⟨out, s', hdec, hrep, hbrought⟩ := decodes_chunk hstreaming hD (hready s hs)
    (List.prefix_rfl : [] ++ c.bytes <+: c.bytes)
  have hpre := hstreaming.handed hrep
  have hlen := hbrought hframe
  rw [List.nil_append, List.nil_append] at hrep hpre
  rw [List.nil_append, List.nil_append, show c.unpack c.bytes = chunk from hcontent, List.length_nil,
    Nat.zero_add, Nat.min_eq_right hle] at hlen
  have hout : out = chunk := (show out <+: chunk from hcontent ▸ hpre).eq_of_length_le hlen
  rw [hout] at hdec hrep
  exact ⟨s', hdec, hdone s' hrep⟩

/-- A decoder that is over makes nothing of what it is still fed. -/
theorem decodes_stopped (h : Framed L encode restarts ready done) (hD : D.GivesUp) (hstops : ¬ restarts)
    (input : List Byte) {s : L.State} (hs : done s) :
    ∃ s', D.Decodes L input (some s) (.ok [], some s') ∧ done s' := by
  by_cases hpos : 0 < input.length
  swap
  · have hend : (D.turn L input {}).run s = (.ok (.done []), s) :=
      DecodeLoop.turn_done (Nat.le_of_not_lt hpos)
    exact ⟨s, DecodeLoop.decodes_some.mpr ⟨_, _, .done hend, rfl⟩, hs⟩
  obtain ⟨progress, s', hcall, hs'⟩ := h.stops hstops s (input.drop 0) kMaxChunkSize hs
  refine ⟨s', DecodeLoop.decodes_some.mpr ⟨_, _, .done ?_, rfl⟩, hs'⟩
  have hstall : D.stalled 0 0 = true := hD
  rw [DecodeLoop.turn_call hpos hcall, if_pos ⟨hstall, rfl⟩]
  rfl

theorem decodesAll_stopped (h : Framed L encode restarts ready done) (hD : D.GivesUp)
    (hstops : ¬ restarts) (frames : List (List Byte)) {s : L.State} (hs : done s) :
    D.DecodesAll L frames (some s) [] := by
  induction frames generalizing s with
  | nil => exact .nil
  | cons frame frames ih =>
    obtain ⟨s', hdec, hs'⟩ := h.decodes_stopped hD hstops frame hs
    exact .cons hdec (ih hs')

theorem decodesAll_restarts (h : Framed L encode restarts ready done) (hD : D.Sound) (hstarts : restarts)
    {chunks frames : List (List Byte)}
    (hencode : List.Forall₂ (fun chunk frame => encode chunk = .ok frame) chunks frames)
    (hchunks : ∀ chunk ∈ chunks, 1 ≤ chunk.length ∧ chunk.length ≤ kMaxChunkSize) {s : L.State}
    (hs : ready s) : D.DecodesAll L frames (some s) chunks.flatten := by
  induction hencode generalizing s with
  | nil => exact .nil
  | @cons chunk frame chunks frames hchunk _ ih =>
    obtain ⟨hpos, hle⟩ := hchunks chunk List.mem_cons_self
    obtain ⟨s', hdec, hs'⟩ := h.decodes_frame hD (List.ne_nil_of_length_pos hpos) hle hchunk hs
    exact .cons hdec (ih (fun c hc => hchunks c (List.mem_cons_of_mem _ hc)) (h.starts hstarts s' hs'))

/-- The frames of some chunks give back the chunks exactly where the decoder starts the next frame,
or there is no next frame. -/
theorem decodesAll_iff (h : Framed L encode restarts ready done) (hD : D.Sound) (hD' : D.GivesUp)
    {chunks frames : List (List Byte)}
    (hencode : List.Forall₂ (fun chunk frame => encode chunk = .ok frame) chunks frames)
    (hchunks : ∀ chunk ∈ chunks, 1 ≤ chunk.length ∧ chunk.length ≤ kMaxChunkSize) :
    D.DecodesAll L frames L.create chunks.flatten ↔ restarts ∨ chunks.length ≤ 1 := by
  obtain ⟨s, hcreate, hs⟩ := h.created
  rw [hcreate]
  by_cases hstarts : restarts
  · exact ⟨fun _ => .inl hstarts, fun _ => h.decodesAll_restarts hD hstarts hencode hchunks hs⟩
  cases hencode with
  | nil => exact ⟨fun _ => .inr (Nat.zero_le _), fun _ => .nil⟩
  | @cons chunk frame chunks frames hchunk hrest =>
    obtain ⟨hpos, hle⟩ := hchunks chunk List.mem_cons_self
    obtain ⟨s', hdec, hs'⟩ := h.decodes_frame hD (List.ne_nil_of_length_pos hpos) hle hchunk hs
    have hfirst : D.DecodesAll L (frame :: frames) (some s) (chunk ++ []) :=
      .cons hdec (h.decodesAll_stopped hD' hstarts frames hs')
    constructor
    · intro hall
      have hsame := hfirst.unique hall
      rw [List.flatten_cons] at hsame
      cases chunks with
      | nil => exact .inr (Nat.le_refl _)
      | cons next chunks =>
        -- The second chunk is not empty, and nothing comes out for it.
        have hnext := (hchunks next (by simp)).1
        have hnil := List.append_cancel_left hsame
        rw [List.flatten_cons] at hnil
        have := congrArg List.length hnil
        rw [List.length_nil, List.length_append] at this
        omega
    · rintro (hstarts' | hone)
      · exact absurd hstarts' hstarts
      · have hnil : chunks = [] := List.eq_nil_of_length_eq_zero (by simpa using hone)
        subst hnil
        exact hfirst

end Framed

end Adbcpp
