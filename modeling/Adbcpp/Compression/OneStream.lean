import Adbcpp.Compression.Endings

/-! A codec that knows one frame only. Its decoder takes what the frame begins with,
hands out the content at the end of the frame, and takes nothing behind that. -/

namespace Adbcpp.OneStream

/-- A decoder holds what it has been fed of the frame, until it is over. -/
def decompress (frame content input : List Byte) (_ : ℕ) : Prog (Option (List Byte)) String StreamingCall :=
  fun s => match s with
  | none => (.ok ⟨0, [], .frameEnd⟩, none)
  | some fed =>
    let left := frame.drop fed.length
    if left <+: input then (.ok ⟨left.length, content, .frameEnd⟩, none)
    else if input <+: left then (.ok ⟨input.length, [], .needsInput⟩, some (fed ++ input))
    else (.error "corrupt input", some fed)

def library (frame content : List Byte) : CodecLibrary where
  State := Option (List Byte)
  create := some (some [])
  decompress := decompress frame content
  compressBound _ n := n + 2 + 4 * (n / 16384) + 4
  compress _ input _ := if input = content then .ok frame else .error "not the content"

variable {frame content fed input : List Byte} {restarts : Prop}

/-- The input brings the end of the frame. -/
theorem run_end {left : List Byte} (hframe : frame = fed ++ left) (hpre : left <+: input) (room : ℕ) :
    (decompress frame content input room).run (some fed) = (.ok ⟨left.length, content, .frameEnd⟩, none) := by
  have hleft : frame.drop fed.length = left := by rw [hframe, List.drop_left]
  show (if frame.drop fed.length <+: input then _ else _) = _
  rw [hleft, if_pos hpre]

/-- The input is used up within the frame. -/
theorem run_inside {left : List Byte} (hframe : frame = fed ++ left) (hend : ¬ left <+: input)
    (hpre : input <+: left) (room : ℕ) : (decompress frame content input room).run (some fed) =
      (.ok ⟨input.length, [], .needsInput⟩, some (fed ++ input)) := by
  have hleft : frame.drop fed.length = left := by rw [hframe, List.drop_left]
  show (if frame.drop fed.length <+: input then _ else _) = _
  rw [hleft, if_neg hend, if_pos hpre]

theorem run_corrupt {left : List Byte} (hframe : frame = fed ++ left) (hend : ¬ left <+: input)
    (hpre : ¬ input <+: left) (room : ℕ) : (decompress frame content input room).run (some fed) =
      (.error "corrupt input", some fed) := by
  have hleft : frame.drop fed.length = left := by rw [hframe, List.drop_left]
  show (if frame.drop fed.length <+: input then _ else _) = _
  rw [hleft, if_neg hend, if_neg hpre]

/-! ### The frame -/

theorem prefixFree (hne : frame ≠ []) : Delimited.PrefixFree {frame} where
  nil_not_mem h := hne (Set.mem_singleton_iff.mp h).symm
  eq_of_prefix _ hf _ hg _ := hf.trans hg.symm

/-- The stream of the one frame. -/
def format (frame : List Byte) (hne : frame ≠ []) : Delimited Byte := .ofSet {frame} (prefixFree hne)

theorem item_iff (hne : frame ≠ []) {f : List Byte} : (format frame hne).Item f ↔ f = frame :=
  Set.mem_singleton_iff

theorem beginning_iff (hne : frame ≠ []) {part : List Byte} :
    (format frame hne).Beginning part ↔ part <+: frame := by
  constructor
  · rintro (rfl | ⟨f, hf, hpre⟩)
    · exact List.nil_prefix
    · rwa [← Set.mem_singleton_iff.mp hf]
  · exact fun hpre => .inr ⟨frame, rfl, hpre⟩

/-- The decoder is within the frame, with some of it to come. -/
def within (frame : List Byte) (s : Option (List Byte)) (part : List Byte) : Prop :=
  s = some part ∧ ∃ left, left ≠ [] ∧ frame = part ++ left

theorem not_readable (hne : frame ≠ []) (hone : ¬ restarts) {part left : List Byte}
    (hframe : frame = part ++ left) (hend : ¬ left <+: input) (hpre : ¬ input <+: left) :
    ¬ (format frame hne).Readable restarts (part ++ input) := by
  intro h
  generalize hbytes : part ++ input = bytes at h
  cases h with
  | beginning hbegin =>
    rw [beginning_iff, hframe, ← hbytes] at hbegin
    exact hpre ((List.prefix_append_right_inj part).mp hbegin)
  | next hmany => exact hone hmany
  | @behind f rest _ hf =>
    rw [item_iff] at hf
    rw [hf, hframe, List.append_assoc] at hbytes
    exact hend ⟨rest, (List.append_cancel_left hbytes).symm⟩

theorem reportsEnds (hne : frame ≠ []) (content : List Byte) (hone : ¬ restarts) :
    ReportsEnds (library frame content) (format frame hne) restarts (within frame) (· = none) where
  created := ⟨some [], rfl, rfl, frame, hne, rfl⟩
  beginning := by
    rintro s part ⟨-, left, -, hframe⟩
    exact (beginning_iff hne).mpr ⟨left, hframe.symm⟩
  call := by
    rintro s part input call s' room ⟨rfl, left, hleft, hframe⟩ hin - hrun
    by_cases hend : left <+: input
    · cases (run_end hframe hend room).symm.trans hrun
      have htake : part ++ input.take left.length = frame := by
        obtain ⟨rest, rfl⟩ := hend
        rw [List.take_left, hframe]
      exact ⟨hend.length_le, .inl (List.length_pos_of_ne_nil hleft), fun h => absurd rfl h,
        fun _ => (item_iff hne).mpr htake, fun _ hmany => absurd hmany hone, fun _ _ => rfl⟩
    by_cases hpre : input <+: left
    · cases (run_inside hframe hend hpre room).symm.trans hrun
      obtain ⟨rest, rfl⟩ := hpre
      refine ⟨Nat.le_refl _, .inl (List.length_pos_of_ne_nil hin), fun _ => ?_, nofun, nofun, nofun⟩
      rw [List.take_length]
      refine ⟨rfl, rest, fun hnil => hend ?_, by rw [hframe, List.append_assoc]⟩
      rw [hnil, List.append_nil]
    · cases (run_corrupt hframe hend hpre room).symm.trans hrun
  fails := by
    rintro s part input name s' room ⟨rfl, left, -, hframe⟩ - - hrun
    by_cases hend : left <+: input
    · cases (run_end hframe hend room).symm.trans hrun
    by_cases hpre : input <+: left
    · cases (run_inside hframe hend hpre room).symm.trans hrun
    · exact not_readable hne hone hframe hend hpre
  idle := by
    rintro s input room rfl
    exact ⟨.frameEnd, none, rfl, rfl⟩

/-! ### The codec built in -/

/-- A call uses input up, ends the decoder, or does nothing because it has ended; or it fails. -/
theorem decompress_cases (frame content : List Byte) (hin : input ≠ []) (room : ℕ) (s : Option (List Byte)) :
    (∃ call fed, (decompress frame content input room).run s = (.ok call, some fed) ∧ 0 < call.consumed) ∨
    (s.isSome ∧ ∃ call, (decompress frame content input room).run s = (.ok call, none)) ∨
    (decompress frame content input room).run s = (.ok ⟨0, [], .frameEnd⟩, none) ∨
    ∃ e, (decompress frame content input room).run s = (.error e, s) := by
  cases s with
  | none => exact .inr (.inr (.inl rfl))
  | some fed =>
    have hrun : (decompress frame content input room).run (some fed) =
        if frame.drop fed.length <+: input then
          (.ok ⟨(frame.drop fed.length).length, content, .frameEnd⟩, none)
        else if input <+: frame.drop fed.length then (.ok ⟨input.length, [], .needsInput⟩, some (fed ++ input))
        else (.error "corrupt input", some fed) := rfl
    rw [hrun]
    split
    · exact .inr (.inl ⟨rfl, _, rfl⟩)
    split
    · exact .inl ⟨_, _, rfl, List.length_pos_of_ne_nil hin⟩
    · exact .inr (.inr (.inr ⟨_, rfl⟩))

/-- How much of an input is still to be read, and whether the decoder may still come to its end. -/
def toRead (input : List Byte) (d : Decoding) (s : Option (List Byte)) : ℕ :=
  2 * (input.length - d.offset) + if s.isSome then 1 else 0

theorem toRead_consumes {d : Decoding} (hlt : d.offset < input.length) {n : ℕ} (hpos : 0 < n) (out : List Byte)
    (s t : Option (List Byte)) : toRead input ⟨d.offset + n, out⟩ t < toRead input d s := by
  unfold toRead
  dsimp only
  split <;> split <;> omega

theorem toRead_ends (d : Decoding) (n : ℕ) (out : List Byte) {s : Option (List Byte)} (hsome : s.isSome) :
    toRead input ⟨d.offset + n, out⟩ none < toRead input d s := by
  unfold toRead
  rw [if_pos hsome, if_neg (by simp)]
  dsimp only
  omega

/-- A loop ends that gives up when a call does nothing. -/
theorem ends {D : DecodeLoop} (hD : ∀ offset, D.stalled offset 0 = true) (frame content input : List Byte) :
    Prog.AlwaysEnds (D.turn (library frame content) input) := by
  have hstep : ∀ d (s : (library frame content).State), True → Prog.Keeps (fun _ _ => True)
      (fun d (s : (library frame content).State) => toRead input d s) (fun _ => True) d s
      ((D.turn (library frame content) input d).run s) := by
    intro d s _
    by_cases hlt : d.offset < input.length
    swap
    · rw [DecodeLoop.turn_done (Nat.le_of_not_lt hlt)]
      trivial
    have hne : input.drop d.offset ≠ [] := by
      rw [Ne, List.drop_eq_nil_iff]
      omega
    obtain ⟨call, fed, hrun, hpos⟩ | ⟨hsome, call, hrun⟩ | hrun | ⟨e, hrun⟩ :=
      decompress_cases frame content hne kMaxChunkSize s
    · rw [DecodeLoop.turn_call hlt hrun]
      split
      · trivial
      · exact ⟨trivial, toRead_consumes hlt hpos _ _ _⟩
    · rw [DecodeLoop.turn_call hlt hrun]
      split
      · trivial
      · exact ⟨trivial, toRead_ends d _ _ hsome⟩
    · rw [DecodeLoop.turn_call hlt hrun, if_pos ⟨hD d.offset, rfl⟩]
      trivial
    · rw [DecodeLoop.turn_failed hlt hrun]
      trivial
  intro d s
  obtain ⟨r, hr, -⟩ := Prog.loopEnds_of_keeps hstep trivial
  exact ⟨r, hr⟩

end Adbcpp.OneStream
