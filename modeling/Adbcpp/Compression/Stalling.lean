import Adbcpp.Compression.Streaming

/-! Calls without progress. A streaming call that consumes and produces nothing needs more
input than its chunk has left, and asking again would ask the same. The three loops
are to end at the first such call. Two of them look at what the call consumed; the one
for zstd looks at the position in the whole chunk, and goes on where something was
consumed before. -/

namespace Adbcpp

/-- The call made no progress. -/
def StreamingCall.Idle (call : StreamingCall) : Prop := call.consumed = 0 ∧ call.produced = []

instance (call : StreamingCall) : Decidable call.Idle := inferInstanceAs (Decidable (_ ∧ _))

theorem StreamingCall.advances_of_not_idle {call : StreamingCall} (h : ¬ call.Idle) :
    0 < call.consumed ∨ call.produced ≠ [] := by
  rw [StreamingCall.Idle, not_and_or] at h
  exact h.imp_left Nat.pos_of_ne_zero

/-- The library with every call noted behind the ones before it. -/
abbrev CodecLibrary.traced (L : CodecLibrary) : CodecLibrary where
  State := L.State × List (Except String StreamingCall)
  create := L.create.map (·, [])
  decompress input room := fun s =>
    let (result, state) := (L.decompress input room).run s.1
    (result, (state, s.2 ++ [result]))
  compressBound := L.compressBound
  compress := L.compress

/-- Every call takes at most what it is given, and there is a bound on what a state still brings for
an input. -/
def CodecLibrary.Bounded (L : CodecLibrary) : Prop :=
  ∃ owed : L.State → List Byte → ℕ, ∀ s input call s',
    (L.decompress input kMaxChunkSize).run s = (.ok call, s') →
      call.consumed ≤ input.length ∧
        call.produced.length + owed s' (input.drop call.consumed) ≤ owed s input

/-- Behind the first consumed byte of a chunk, of which `offset` bytes are consumed and `rest` is left,
the library comes to a call without progress. -/
inductive StallsBehind (L : CodecLibrary) : ℕ → List Byte → L.State → Prop
  | now {offset : ℕ} {rest : List Byte} {s s' : L.State} {call : StreamingCall} : 0 < offset → rest ≠ [] →
      (L.decompress rest kMaxChunkSize).run s = (.ok call, s') → call.Idle → StallsBehind L offset rest s
  | later {offset : ℕ} {rest : List Byte} {s s' : L.State} {call : StreamingCall} : rest ≠ [] →
      (L.decompress rest kMaxChunkSize).run s = (.ok call, s') → ¬ call.Idle →
      StallsBehind L (offset + call.consumed) (rest.drop call.consumed) s' → StallsBehind L offset rest s

/-- No call follows one without progress. -/
def EndsAtIdle (calls : List (Except String StreamingCall)) : Prop :=
  ∀ before call after, calls = before ++ .ok call :: after → call.Idle → after = []

namespace DecodeLoop

variable {D : DecodeLoop} {L : CodecLibrary} {input : List Byte}

/-- The decode of a chunk makes finitely many calls, and none behind a call without progress. -/
def StopsAtIdle (D : DecodeLoop) (L : CodecLibrary) (input : List Byte) (decoder : Option L.State) : Prop :=
  ∃ result decoder', D.Decodes L.traced input (decoder.map (·, [])) (result, decoder') ∧
    ∀ s calls, decoder' = some (s, calls) → EndsAtIdle calls

/-! ### The calls of a loop -/

theorem run_traced {rest : List Byte} {room : ℕ} {s s' : L.State} {r : Except String StreamingCall}
    (h : (L.decompress rest room).run s = (r, s')) (calls : List (Except String StreamingCall)) :
    (L.traced.decompress rest room).run (s, calls) = (r, (s', calls ++ [r])) := by
  show (let (result, state) := (L.decompress rest room).run s; (result, (state, calls ++ [result]))) = _
  rw [h]

/-- Without its calls a traced decode is the decode. -/
theorem turn_traced (D : DecodeLoop) (L : CodecLibrary) (input : List Byte) (d : Decoding) :
    Prog.InStep (fun (t : L.traced.State) (s : L.State) => t.1 = s) (D.turn L.traced input d) (D.turn L input d) := by
  unfold turn
  apply Prog.InStep.ite Iff.rfl ?_ (Prog.InStep.pure _)
  apply Prog.InStep.bind
  · rintro ⟨s, calls⟩ _ rfl
    rw [Prog.run_mapError, Prog.run_mapError]
    cases hcall : (L.decompress (input.drop d.offset) kMaxChunkSize).run s with
    | mk r s' =>
      rw [run_traced hcall]
      cases r with
      | ok call => exact .ok call rfl
      | error name => exact .error _ rfl
  · intro call
    exact Prog.InStep.ite Iff.rfl (Prog.InStep.pure _) (Prog.InStep.pure _)

/-- A turn notes the calls it makes, and makes one while there is input. -/
theorem turn_grows {d : Decoding} {s s' : L.State} {calls calls' : List (Except String StreamingCall)}
    {r : Except Error (Turn Decoding (List Byte))} (h : (D.turn L.traced input d).run (s, calls) = (r, (s', calls'))) :
    ∃ new, calls' = calls ++ new ∧ (d.offset < input.length → new ≠ []) := by
  by_cases hlt : d.offset < input.length
  · cases hcall : (L.decompress (input.drop d.offset) kMaxChunkSize).run s with
    | mk r' t =>
      have htraced := run_traced hcall calls
      cases r' with
      | ok call =>
        rw [turn_call hlt htraced] at h
        cases h
        exact ⟨_, rfl, fun _ => List.cons_ne_nil _ _⟩
      | error name =>
        rw [turn_failed hlt htraced] at h
        cases h
        exact ⟨_, rfl, fun _ => List.cons_ne_nil _ _⟩
  · rw [turn_done (Nat.le_of_not_lt hlt)] at h
    cases h
    exact ⟨[], (List.append_nil _).symm, fun h => absurd h hlt⟩

/-- The calls of a loop that ends are behind the ones before it. -/
theorem ends_grows {d : Decoding} {t : L.traced.State} {r : Except Error (List Byte) × L.traced.State}
    (h : Prog.LoopEnds (D.turn L.traced input) d t r) :
    ∃ new, r.2.2 = t.2 ++ new ∧ (d.offset < input.length → new ≠ []) := by
  induction h with
  | @again d d' t t' r hb _ ih =>
    obtain ⟨new, hnew, hne⟩ := turn_grows hb
    obtain ⟨new', hnew', -⟩ := ih
    refine ⟨new ++ new', ?_, fun hlt => ?_⟩
    · rw [hnew', hnew, List.append_assoc]
    · exact fun hnil => hne hlt (List.append_eq_nil_iff.mp hnil).1
  | done hb => exact turn_grows hb
  | error hb => exact turn_grows hb

/-! ### Loops that end at an idle call -/

/-- No call made so far was idle, and the loop would see the next one that is. -/
structure Busy (D : DecodeLoop) (L : CodecLibrary) (input : List Byte) (d : Decoding) (t : L.traced.State) : Prop where
  progressed : ∀ call, .ok call ∈ t.2 → ¬ call.Idle
  caught : (∀ offset, D.stalled offset 0 = true) ∨ ¬ StallsBehind L d.offset (input.drop d.offset) t.1

theorem endsAtIdle_of_progressed {calls : List (Except String StreamingCall)}
    (h : ∀ call, .ok call ∈ calls → ¬ call.Idle) : EndsAtIdle calls := by
  rintro before call after rfl hidle
  exact absurd hidle (h call (by simp))

/-- Only the last call may be idle. -/
theorem endsAtIdle_concat {calls : List (Except String StreamingCall)} (r : Except String StreamingCall)
    (h : ∀ call, .ok call ∈ calls → ¬ call.Idle) : EndsAtIdle (calls ++ [r]) := by
  intro before call after hcalls hidle
  rcases List.eq_nil_or_concat after with hnil | ⟨after', last, rfl⟩
  · exact hnil
  · rw [List.concat_eq_append, ← List.cons_append, ← List.append_assoc] at hcalls
    obtain ⟨rfl, -⟩ := List.append_inj' hcalls rfl
    exact absurd hidle (h call (by simp))

/-- The loop sees an idle call: it looks at the call alone, or the chunk has not been touched. -/
theorem Busy.stalled {d : Decoding} {s s' : L.State} {calls : List (Except String StreamingCall)}
    (h : Busy D L input d (s, calls)) (hzero : D.stalled 0 0 = true) (hlt : d.offset < input.length)
    {call : StreamingCall} (hcall : (L.decompress (input.drop d.offset) kMaxChunkSize).run s = (.ok call, s'))
    (hidle : call.Idle) : D.stalled d.offset call.consumed = true := by
  rw [hidle.1]
  rcases h.caught with hall | hnot
  · exact hall d.offset
  · by_cases hstart : d.offset = 0
    · rwa [hstart]
    · have hne : input.drop d.offset ≠ [] := List.drop_eq_nil_iff.not.mpr (Nat.not_le.mpr hlt)
      exact absurd (.now (Nat.pos_of_ne_zero hstart) hne hcall hidle) hnot

/-- A call with progress leaves the loop busy. -/
theorem Busy.call {d : Decoding} {s s' : L.State} {calls : List (Except String StreamingCall)}
    (h : Busy D L input d (s, calls)) (hlt : d.offset < input.length) {call : StreamingCall}
    (hcall : (L.decompress (input.drop d.offset) kMaxChunkSize).run s = (.ok call, s')) (hidle : ¬ call.Idle)
    (output : List Byte) : Busy D L input ⟨d.offset + call.consumed, output⟩ (s', calls ++ [.ok call]) := by
  constructor
  · intro call' hmem
    rcases List.mem_append.mp hmem with hmem | hmem
    · exact h.progressed call' hmem
    · cases List.mem_singleton.mp hmem
      exact hidle
  · have hne : input.drop d.offset ≠ [] := List.drop_eq_nil_iff.not.mpr (Nat.not_le.mpr hlt)
    refine h.caught.imp_right fun hnot hstalls => hnot (.later hne hcall hidle ?_)
    rwa [List.drop_drop]

theorem Busy.turn {d : Decoding} {t : L.traced.State} (h : Busy D L input d t) (hD : D.Sound)
    (hzero : D.stalled 0 0 = true) {owed : L.State → List Byte → ℕ}
    (howed : ∀ s rest call s', (L.decompress rest kMaxChunkSize).run s = (.ok call, s') →
      call.consumed ≤ rest.length ∧ call.produced.length + owed s' (rest.drop call.consumed) ≤ owed s rest) :
    Prog.Keeps (Busy D L input) (fun d t => (input.length - d.offset) + owed t.1 (input.drop d.offset))
      (fun r => EndsAtIdle r.2.2) d t ((D.turn L.traced input d).run t) := by
  obtain ⟨s, calls⟩ := t
  by_cases hlt : d.offset < input.length
  swap
  · rw [turn_done (Nat.le_of_not_lt hlt)]
    exact endsAtIdle_of_progressed h.progressed
  cases hcall : (L.decompress (input.drop d.offset) kMaxChunkSize).run s with
  | mk r s' =>
    have htraced := run_traced hcall calls
    cases r with
    | error name =>
      rw [turn_failed hlt htraced]
      exact endsAtIdle_concat _ h.progressed
    | ok call =>
      by_cases hidle : call.Idle
      · rw [turn_call hlt htraced, if_pos ⟨h.stalled hzero hlt hcall hidle, hidle.2⟩]
        exact endsAtIdle_concat _ h.progressed
      · have hadv := StreamingCall.advances_of_not_idle hidle
        have hpos : 0 < call.consumed ∨ 0 < call.produced.length := hadv.imp_right List.length_pos_of_ne_nil
        obtain ⟨hle, howed'⟩ := howed _ _ _ _ hcall
        rw [List.drop_drop] at howed'
        rw [List.length_drop] at hle
        rw [turn_again hD hlt htraced hadv]
        refine ⟨h.call hlt hcall hidle _, ?_⟩
        dsimp only
        omega

/-- A loop that sees every idle call it comes to stops at the first. -/
theorem stops_of_caught (hL : L.Bounded) (hD : D.Sound) (hzero : D.stalled 0 0 = true) {s : L.State}
    (h : (∀ offset, D.stalled offset 0 = true) ∨ ¬ StallsBehind L 0 input s) :
    D.StopsAtIdle L input (some s) := by
  obtain ⟨owed, howed⟩ := hL
  have hstart : Busy D L input {} (s, []) := ⟨by simp, h⟩
  obtain ⟨⟨r, t⟩, hends, hcalls⟩ :=
    Prog.loopEnds_of_keeps (fun d t hbusy => Busy.turn hbusy hD hzero howed) hstart
  refine ⟨r, some t, decodes_some.mpr ⟨r, t, hends, rfl⟩, ?_⟩
  rintro s' calls ⟨⟩
  exact hcalls

/-! ### The loop for zstd -/

theorem zstd_late (offset : ℕ) (hpos : 0 < offset) : ZstdDecoder.loop.stalled offset 0 = false := by
  have hne : offset ≠ 0 := Nat.ne_of_gt hpos
  simpa [ZstdDecoder.loop] using hne

/-- Behind the first consumed byte a loop that looks at the position goes on after an idle call. -/
theorem not_endsAtIdle (hD : D.Sound) (hlate : ∀ offset, 0 < offset → D.stalled offset 0 = false) {offset : ℕ}
    {rest : List Byte} {s : L.State} (h : StallsBehind L offset rest s) {d : Decoding}
    (hoffset : d.offset = offset) (hrest : input.drop d.offset = rest)
    {calls : List (Except String StreamingCall)} {r : Except Error (List Byte) × L.traced.State}
    (hends : Prog.LoopEnds (D.turn L.traced input) d (s, calls) r) : ¬ EndsAtIdle r.2.2 := by
  induction h generalizing d calls with
  | @now offset rest s s' call hpos hne hcall hidle =>
    have hlt : d.offset < input.length := List.length_lt_of_drop_ne_nil (hrest ▸ hne)
    rw [← hrest] at hcall
    have hturn := turn_call (D := D) hlt (run_traced hcall calls)
    rw [hidle.1, hoffset, hlate offset hpos, if_neg (by simp)] at hturn
    obtain ⟨new, hnew, hmore⟩ := ends_grows (hends.of_again hturn)
    intro hcalls
    refine hmore ?_ (hcalls calls call new ?_ hidle)
    · dsimp only
      omega
    · rw [hnew, List.append_assoc]
      rfl
  | @later offset rest s s' call hne hcall hidle _ ih =>
    have hlt : d.offset < input.length := List.length_lt_of_drop_ne_nil (hrest ▸ hne)
    rw [← hrest] at hcall
    have hturn := turn_again hD hlt (run_traced hcall calls) (StreamingCall.advances_of_not_idle hidle)
    refine ih ?_ ?_ (hends.of_again hturn)
    · rw [← hoffset]
    · rw [← hrest, List.drop_drop]

end DecodeLoop

/-- A decode makes finitely many calls and none behind an idle one, unless it is one of zstd and the
library comes to an idle call behind the first consumed byte of the chunk. The traced decode
is the same one. -/
theorem decode_stopsAtIdle_iff (codec : CompressionCodec) {L : CodecLibrary} (hL : L.Bounded)
    (input : List Byte) (decoder : Option L.State) :
    (∀ d, Prog.InStep (fun (t : L.traced.State) (s : L.State) => t.1 = s)
        (codec.decodeLoop.turn L.traced input d) (codec.decodeLoop.turn L input d)) ∧
      (codec.decodeLoop.StopsAtIdle L input decoder ↔
        codec ≠ .zstd ∨ ∀ s, decoder = some s → ¬ StallsBehind L 0 input s) := by
  have hD := codec.decodeLoop_sound
  have hzero : codec.decodeLoop.stalled 0 0 = true := by cases codec <;> rfl
  refine ⟨codec.decodeLoop.turn_traced L input, ?_, ?_⟩
  · rintro ⟨r, decoder', hdecodes, hcalls⟩
    by_cases hcodec : codec = .zstd
    swap
    · exact .inl hcodec
    subst hcodec
    right
    rintro s rfl hstalls
    obtain ⟨a, t, hends, hr⟩ := DecodeLoop.decodes_some.mp hdecodes
    cases hr
    exact DecodeLoop.not_endsAtIdle hD DecodeLoop.zstd_late hstalls rfl rfl hends (hcalls t.1 t.2 rfl)
  · intro h
    cases decoder with
    | none => exact ⟨_, none, ⟨0, rfl⟩, by simp⟩
    | some s =>
      apply DecodeLoop.stops_of_caught hL hD hzero
      rcases h with hcodec | hnot
      · left
        intro offset
        cases codec with
        | zstd => exact absurd rfl hcodec
        | lz4 => rfl
        | brotli => rfl
      · exact .inr (hnot s rfl)

/-- A library that waits for a second byte before it takes one. -/
def waiting : CodecLibrary where
  State := Unit
  create := some ()
  decompress input _ := pure ⟨if 2 ≤ input.length then 1 else 0, [], .needsInput⟩
  compressBound _ size := size
  compress _ input _ := .ok input

theorem waiting_bounded : waiting.Bounded := by
  refine ⟨fun _ _ => 0, ?_⟩
  rintro s input call s' ⟨⟩
  dsimp only
  split
  · exact ⟨by omega, Nat.le_refl _⟩
  · exact ⟨Nat.zero_le _, Nat.le_refl _⟩

theorem decode_stopsAtIdle_iff_lz4 : CompressionCodec.lz4.decodeLoop.StopsAtIdle waiting [0x28, 0xB5] (some ()) :=
  (decode_stopsAtIdle_iff .lz4 waiting_bounded [0x28, 0xB5] (some ())).2.mpr (.inl (by decide))

/-- The loop for zstd asks again for the second byte of a chunk. -/
theorem not_stopsAtIdle_zstd : ¬ CompressionCodec.zstd.decodeLoop.StopsAtIdle waiting [0x28, 0xB5] (some ()) := by
  rintro ⟨r, decoder', hdecodes, hcalls⟩
  obtain ⟨a, t, hends, hr⟩ := DecodeLoop.decodes_some.mp hdecodes
  cases hr
  have hstalls : StallsBehind waiting 0 [0x28, 0xB5] () :=
    .later (by decide) rfl (by decide) (.now (by decide) (by decide) rfl ⟨rfl, rfl⟩)
  exact DecodeLoop.not_endsAtIdle CompressionCodec.zstd.decodeLoop_sound DecodeLoop.zstd_late hstalls rfl rfl hends
    (hcalls t.1 t.2 rfl)

end Adbcpp
