import Adbcpp.Compression.Streaming
import Adbcpp.Library.Delimited

/-! Where the frames of a transfer end. A streaming call tells when the current frame is
over, but the loop of a decode does not ask: a chunk that breaks off inside a frame is
decoded, and so is one that goes on behind the last frame. What a decoder refuses is
what it cannot read on. -/

namespace Adbcpp

/-- A call within a frame that begins with `part`, on some `input`. -/
structure CallReports {L : CodecLibrary} (G : Delimited Byte) (restarts : Prop)
    (within : L.State → List Byte → Prop) (ended : L.State → Prop) (part input : List Byte)
    (call : StreamingCall) (s : L.State) : Prop where
  consumed_le : call.consumed ≤ input.length
  advances : 0 < call.consumed ∨ call.produced ≠ []
  goesOn : call.progress ≠ .frameEnd → within s (part ++ input.take call.consumed)
  ends : call.progress = .frameEnd → G.Item (part ++ input.take call.consumed)
  /-- After the end of a frame the decoder starts the next one, -/
  starts : call.progress = .frameEnd → restarts → within s []
  /-- or it is over. -/
  stops : call.progress = .frameEnd → ¬ restarts → ended s

/-- A library that reports where a frame ends, and fails only on what no frame begins with. A
decoder is `within` a frame of which it has consumed a beginning, or it has `ended`. -/
structure ReportsEnds (L : CodecLibrary) (G : Delimited Byte) (restarts : Prop)
    (within : L.State → List Byte → Prop) (ended : L.State → Prop) : Prop where
  created : ∃ s, L.create = some s ∧ within s []
  beginning : ∀ {s part}, within s part → G.Beginning part
  call : ∀ {s part input call s'} {room : ℕ}, within s part → input ≠ [] → 0 < room →
    (L.decompress input room).run s = (.ok call, s') → CallReports G restarts within ended part input call s'
  fails : ∀ {s part input name s'} {room : ℕ}, within s part → input ≠ [] → 0 < room →
    (L.decompress input room).run s = (.error name, s') → ¬ G.Readable restarts (part ++ input)
  idle : ∀ {s} (input : List Byte) (room : ℕ), ended s → ∃ progress s',
    (L.decompress input room).run s = (.ok ⟨0, [], progress⟩, s') ∧ ended s'

/-- Where a decoder stands that was fed `bytes`: within a frame behind others, or behind the one
frame that it takes. -/
inductive Stands {L : CodecLibrary} (G : Delimited Byte) (restarts : Prop)
    (within : L.State → List Byte → Prop) (ended : L.State → Prop) : List Byte → L.State → Prop
  | within {passed part : List Byte} {s : L.State} : G.Passed restarts passed → within s part →
      Stands G restarts within ended (passed ++ part) s
  | ended {frame rest : List Byte} {s : L.State} : ¬ restarts → G.Item frame → ended s →
      Stands G restarts within ended (frame ++ rest) s

namespace ReportsEnds

variable {L : CodecLibrary} {G : Delimited Byte} {restarts : Prop}
  {within : L.State → List Byte → Prop} {ended : L.State → Prop} {D : DecodeLoop}
  {fed input : List Byte} {s : L.State}

theorem readable (h : ReportsEnds L G restarts within ended)
    (hs : Stands G restarts within ended fed s) : G.Readable restarts fed := by
  cases hs with
  | within hpassed hwithin => exact hpassed.readable_iff.mpr (.beginning (h.beginning hwithin))
  | ended hone hframe => exact .behind hone hframe

/-- A call takes a decoder on by what it consumes. -/
theorem stands_call {passed part : List Byte}
    (hpassed : G.Passed restarts passed) {call : StreamingCall}
    (hcall : CallReports G restarts within ended part input call s) :
    Stands G restarts within ended (passed ++ (part ++ input.take call.consumed)) s := by
  by_cases hprogress : call.progress = .frameEnd
  swap
  · exact .within hpassed (hcall.goesOn hprogress)
  have hitem := hcall.ends hprogress
  by_cases hrestarts : restarts
  · rw [← List.append_nil (passed ++ _)]
    exact .within (hpassed.snoc hrestarts hitem) (hcall.starts hprogress hrestarts)
  · rw [hpassed.eq_nil hrestarts, List.nil_append, ← List.append_nil (part ++ _)]
    exact .ended hrestarts hitem (hcall.stops hprogress hrestarts)

/-- What a decode that was fed `input` after `fed` has come to. -/
def Ended (G : Delimited Byte) (restarts : Prop) (within : L.State → List Byte → Prop)
    (ended : L.State → Prop) (fed input : List Byte) : Except Error (List Byte) × L.State → Prop
  | (.ok _, s) => Stands G restarts within ended (fed ++ input) s
  | (.error _, _) => ¬ G.Readable restarts (fed ++ input)

/-- A turn of the loop keeps track of where the decoder stands, and fails only on what cannot be
read on. -/
theorem turn_carries (h : ReportsEnds L G restarts within ended) (hD : D.Sound) (fed input : List Byte)
    (d : Decoding) (s : L.State) (hs : Stands G restarts within ended (fed ++ input.take d.offset) s) :
    Prog.Carries (fun d => Stands G restarts within ended (fed ++ input.take d.offset))
      (Ended G restarts within ended fed input) ((D.turn L input d).run s) := by
  by_cases hlt : d.offset < input.length
  swap
  · rw [DecodeLoop.turn_done (Nat.not_lt.mp hlt)]
    rw [List.take_of_length_le (Nat.not_lt.mp hlt)] at hs
    exact hs
  have hne : input.drop d.offset ≠ [] := by
    rw [Ne, List.drop_eq_nil_iff]
    omega
  have hsplit : fed ++ input = fed ++ input.take d.offset ++ input.drop d.offset := by
    rw [List.append_assoc, List.take_append_drop]
  generalize hbytes : fed ++ input.take d.offset = bytes at hs hsplit
  cases hs with
  | @within passed part _ hpassed hwithin =>
    cases hcall : (L.decompress (input.drop d.offset) kMaxChunkSize).run s with
    | mk result s' =>
      cases result with
      | ok call =>
        have hreports := h.call hwithin hne kMaxChunkSize_pos hcall
        rw [DecodeLoop.turn_again hD hlt hcall hreports.advances]
        show Stands _ _ _ _ (fed ++ input.take (d.offset + call.consumed)) s'
        rw [← append_take_drop, hbytes, List.append_assoc]
        exact stands_call hpassed hreports
      | error name =>
        rw [DecodeLoop.turn_failed hlt hcall]
        show ¬ G.Readable restarts (fed ++ input)
        rw [hsplit, List.append_assoc, hpassed.readable_iff]
        exact h.fails hwithin hne kMaxChunkSize_pos hcall
  | @ended frame rest _ hone hframe hended =>
    -- The decoder takes nothing any more: the loop gives up, or goes on with the same state.
    obtain ⟨progress, s', hcall, hended'⟩ := h.idle (input.drop d.offset) kMaxChunkSize hended
    rw [DecodeLoop.turn_call hlt hcall]
    split
    · show Stands _ _ _ _ (fed ++ input) s'
      rw [hsplit, List.append_assoc]
      exact .ended hone hframe hended'
    · show Stands _ _ _ _ (fed ++ input.take (d.offset + 0)) s'
      rw [Nat.add_zero, hbytes]
      exact .ended hone hframe hended'

/-- A decode ends behind what it was fed, or fails on what cannot be read on. -/
theorem decodes_ended (h : ReportsEnds L G restarts within ended) (hD : D.Sound)
    (hends : Prog.AlwaysEnds (D.turn L input)) (hs : Stands G restarts within ended fed s) :
    ∃ r, D.Decodes L input (some s) (r.1, some r.2) ∧ Ended G restarts within ended fed input r := by
  obtain ⟨r, hr⟩ := hends {} s
  refine ⟨r, DecodeLoop.decodes_some.mpr ⟨r.1, r.2, hr, rfl⟩, ?_⟩
  refine hr.of_carries (h.turn_carries hD fed input) ?_
  rw [List.take_zero, List.append_nil]
  exact hs

theorem decodesAll_from (h : ReportsEnds L G restarts within ended) (hD : D.Sound)
    (hends : ∀ input, Prog.AlwaysEnds (D.turn L input)) (chunks : List (List Byte))
    (hs : Stands G restarts within ended fed s) :
    (∃ out, D.DecodesAll L chunks (some s) out) ↔ G.Readable restarts (fed ++ chunks.flatten) := by
  induction chunks generalizing fed s with
  | nil =>
    rw [List.flatten_nil, List.append_nil]
    exact ⟨fun _ => h.readable hs, fun _ => ⟨[], .nil⟩⟩
  | cons chunk chunks ih =>
    rw [List.flatten_cons, ← List.append_assoc]
    obtain ⟨⟨result, s'⟩, hdecodes, hended⟩ := h.decodes_ended hD (hends chunk) hs
    cases result with
    | ok out =>
      rw [← ih hended]
      constructor
      · rintro ⟨_, hall⟩
        cases hall with
        | cons hdecodes' hrest =>
          cases hdecodes.unique hdecodes'
          exact ⟨_, hrest⟩
      · rintro ⟨rest, hrest⟩
        exact ⟨out ++ rest, .cons hdecodes hrest⟩
    | error e =>
      constructor
      · rintro ⟨_, hall⟩
        cases hall with
        | cons hdecodes' => cases hdecodes.unique hdecodes'
      · intro hreadable
        exact absurd hreadable.of_append hended

/-- Every decode of the chunks succeeds exactly where they can be read on, whether or not they come
to the end of their frames. -/
theorem decodesAll_iff (h : ReportsEnds L G restarts within ended) (hD : D.Sound)
    (hends : ∀ input, Prog.AlwaysEnds (D.turn L input)) (chunks : List (List Byte)) :
    (∃ out, D.DecodesAll L chunks L.create out) ↔ G.Readable restarts chunks.flatten := by
  obtain ⟨s, hcreate, hs⟩ := h.created
  have hstands : Stands G restarts within ended [] s := .within .nil hs
  rw [hcreate, h.decodesAll_from hD hends chunks hstands, List.nil_append]

end ReportsEnds

end Adbcpp
