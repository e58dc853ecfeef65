import Mathlib.Data.List.Induction
import Adbcpp.Library.Framing
import Adbcpp.Shell
import Adbcpp.Stream.Delivery
import Adbcpp.Stream.Opening

/-! What the packets of a v2 command say. A result is described by the list of the
packets alone: the data of each output in order and the last status. The parser of
the source computes that description from the bytes, whatever is cut off at their
end, and never looks past them. -/

namespace Adbcpp

open Protocol

namespace Shell

/-- A packet of the v2 service, whose length has 32 bits on the wire. -/
structure Packet where
  id : Byte
  data : List Byte
  short : data.length < 2 ^ 32

def Packet.bytes (p : Packet) : List Byte := p.id :: (writeU32LE (UInt32.ofNat p.data.length) ++ p.data)

@[ext] theorem Packet.ext {p q : Packet} (hid : p.id = q.id) (hdata : p.data = q.data) : p = q := by
  cases p
  cases q
  simp_all

theorem toNat_length {data : List Byte} (h : data.length < 2 ^ 32) :
    (UInt32.ofNat data.length).toNat = data.length := by
  rw [UInt32.toNat_ofNat']
  exact Nat.mod_eq_of_lt h

/-! ### Splitting packets off -/

/-- The length in front of the data of the first packet. -/
def lengthOf (raw : List Byte) : ℕ := (readU32LE (raw.drop 1)).toNat

theorem length_take_short (bytes raw : List Byte) : (bytes.take (lengthOf raw)).length < 2 ^ 32 := by
  have hlt := (readU32LE (raw.drop 1)).toNat_lt
  rw [List.length_take, lengthOf]
  omega

def splitPacket : List Byte → Option (Packet × List Byte)
  | [] => none
  | id :: bytes =>
    if 4 + lengthOf (id :: bytes) ≤ bytes.length then
      some (⟨id, (bytes.drop 4).take (lengthOf (id :: bytes)), length_take_short _ _⟩,
        bytes.drop (4 + lengthOf (id :: bytes)))
    else none

theorem lengthOf_bytes (p : Packet) (rest : List Byte) : lengthOf (p.bytes ++ rest) = p.data.length := by
  rw [lengthOf, Packet.bytes, List.cons_append, List.drop_succ_cons, List.drop_zero, List.append_assoc,
    readU32LE_writeU32LE, toNat_length p.short]

theorem splitPacket_bytes (p : Packet) (rest : List Byte) :
    splitPacket (p.bytes ++ rest) = some (p, rest) := by
  have hlen := lengthOf_bytes p rest
  rw [Packet.bytes, List.cons_append] at hlen ⊢
  have hle : 4 + p.data.length ≤ (writeU32LE (UInt32.ofNat p.data.length) ++ p.data ++ rest).length := by
    simp only [List.length_append, length_writeU32LE]
    omega
  have hdata : (writeU32LE (UInt32.ofNat p.data.length) ++ p.data ++ rest).drop 4 = p.data ++ rest := rfl
  simp only [splitPacket, hlen, if_pos hle, ← List.drop_drop, hdata, List.take_left, List.drop_left]

theorem splitPacket_eq {raw rest : List Byte} {p : Packet} (h : splitPacket raw = some (p, rest)) :
    raw = p.bytes ++ rest := by
  cases raw with
  | nil => cases h
  | cons id bytes =>
    rw [splitPacket] at h
    split at h
    next hle =>
      obtain ⟨value, data, rfl⟩ := exists_writeU32LE (show 4 ≤ bytes.length by omega)
      have hvalue : lengthOf (id :: (writeU32LE value ++ data)) = value.toNat := by
        simp [lengthOf]
      have hdrop : (writeU32LE value ++ data).drop 4 = data := rfl
      rw [hvalue, List.length_append, length_writeU32LE] at hle
      simp only [hvalue, ← List.drop_drop, hdrop] at h
      cases h
      have hlen : (data.take value.toNat).length = value.toNat := by
        rw [List.length_take]
        omega
      rw [Packet.bytes, hlen, UInt32.ofNat_toNat, List.cons_append, List.append_assoc, List.take_append_drop]
    next => cases h

/-- The packets of the v2 service, one after the other. -/
def packets : Framing Packet Byte where
  encode := Packet.bytes
  split := splitPacket
  encode_ne_nil _ := List.cons_ne_nil _ _
  split_encode := splitPacket_bytes
  split_eq := splitPacket_eq

/-! ### What packets describe -/

/-- What a packet says of the exit status. -/
def Packet.status (p : Packet) : Option UInt8 := if p.id = kExit then p.data.head? else none

/-- The data of the packets with one of the ids, in the order in which they came. -/
def dataOf (ids : List Byte) (ps : List Packet) : List Byte :=
  (ps.filter fun p => decide (p.id ∈ ids)).flatMap Packet.data

/-- The exit statuses of the packets, in the order in which they came. -/
def statuses (ps : List Packet) : List UInt8 := ps.filterMap Packet.status

/-- The exit status that the last one of the packets gives, or zero when none gives one. -/
def exitCodeOf (ps : List Packet) : UInt8 := (statuses ps).getLast?.getD 0

/-- The result that packets describe. -/
def describes (ps : List Packet) : CommandResult where
  output := dataOf [kStdout, kStderr] ps
  standardOutput := dataOf [kStdout] ps
  errorOutput := dataOf [kStderr] ps
  exitCode := exitCodeOf ps
  success := exitCodeOf ps = 0

theorem dataOf_snoc (ids : List Byte) (ps : List Packet) (p : Packet) :
    dataOf ids (ps ++ [p]) = dataOf ids ps ++ if p.id ∈ ids then p.data else [] := by
  simp only [dataOf, List.filter_append, List.flatMap_append]
  by_cases h : p.id ∈ ids
  · simp [h]
  · simp [h]

theorem exitCodeOf_snoc (ps : List Packet) (p : Packet) :
    exitCodeOf (ps ++ [p]) = p.status.getD (exitCodeOf ps) := by
  simp only [exitCodeOf, statuses, List.filterMap_append]
  cases h : p.status with
  | none => simp [h]
  | some status => simp [h]

/-- What one more packet adds to the description. -/
theorem handlePacket_describes (ps : List Packet) (p : Packet) :
    handlePacket p.id p.data { describes ps with success := false } =
      { describes (ps ++ [p]) with success := false } := by
  simp only [describes, dataOf_snoc, exitCodeOf_snoc, handlePacket, Packet.status]
  split
  next h => simp [h, kStdout, kStderr, kExit]
  next h₁ =>
    split
    next h => simp [h, kStdout, kStderr, kExit]
    next h₂ =>
      split
      next h =>
        cases p.data with
        | nil => simp [h, kStdout, kStderr, kExit]
        | cons status rest => simp [h, kStdout, kStderr, kExit]
      next => simp [h₁, h₂]

/-- The packets handled one after the other, from the empty result on. -/
theorem foldl_handlePacket (ps : List Packet) :
    ps.foldl (fun result p => handlePacket p.id p.data result) {} = { describes ps with success := false } := by
  induction ps using List.reverseRecOn with
  | nil => rfl
  | append_singleton ps p ih => rw [List.foldl_append, ih, List.foldl_cons, List.foldl_nil, handlePacket_describes]

/-! ### The parser -/

theorem splitPacket_short {raw : List Byte} (h : raw.length < kPacketHeaderSize) : splitPacket raw = none := by
  cases raw with
  | nil => rfl
  | cons id bytes =>
    rw [List.length_cons, kPacketHeaderSize] at h
    rw [splitPacket, if_neg (by omega)]

/-- The parser handles the packets from its offset on. -/
theorem parsePackets_items (raw : List Byte) (turns offset : ℕ) (result : CommandResult)
    (h : raw.length ≤ offset + turns) : parsePackets raw turns offset result =
      (packets.items (raw.drop offset)).foldl (fun result p => handlePacket p.id p.data result) result := by
  induction turns generalizing offset result with
  | zero =>
    rw [parsePackets, List.drop_eq_nil_of_le (by omega), Framing.items_nil, List.foldl_nil]
  | succ turns ih =>
    rw [parsePackets]
    split
    next hheader =>
      have hoffset : offset < raw.length := by
        rw [kPacketHeaderSize] at hheader
        omega
      have hcons := List.drop_eq_getElem_cons hoffset
      have hlen : lengthOf (raw[offset] :: raw.drop (offset + 1)) = (readU32LE (raw.drop (offset + 1))).toNat := rfl
      have hsplit : packets.split (raw.drop offset) = splitPacket (raw[offset] :: raw.drop (offset + 1)) :=
        congrArg splitPacket hcons
      rw [splitPacket] at hsplit
      dsimp only
      rw [kPacketHeaderSize] at hheader ⊢
      split
      next hlong =>
        rw [if_neg (by rw [hlen, List.length_drop]; omega)] at hsplit
        rw [packets.items_none hsplit, List.foldl_nil]
      next hshort =>
        rw [if_pos (by rw [hlen, List.length_drop]; omega)] at hsplit
        rw [packets.items_some hsplit, List.foldl_cons, ih _ _ (by omega)]
        have hdata : offset + 1 + 4 = offset + 5 := rfl
        have hnext (n : ℕ) : offset + 1 + (4 + n) = offset + 5 + n := by omega
        simp only [hlen, List.drop_drop, List.get_eq_getElem, hdata, hnext]
    next hheader =>
      have hnone : packets.split (raw.drop offset) = none := by
        apply splitPacket_short
        rw [kPacketHeaderSize] at hheader ⊢
        rw [List.length_drop]
        omega
      rw [packets.items_none hnone, List.foldl_nil]

theorem parseResult_describes (raw : List Byte) : parseResult raw = describes (packets.items raw) := by
  rw [parseResult, parsePackets_items raw raw.length 0 {} (by omega), List.drop_zero, foldl_handlePacket]
  rfl

/-! ### The parser in 64 bits -/

/-- Part of the buffer, where it lies inside. -/
def slice (raw : List Byte) (offset size : ℕ) : Option (List Byte) :=
  if offset + size ≤ raw.length then some ((raw.drop offset).take size) else none

theorem slice_inside {raw : List Byte} {offset size : ℕ} (h : offset + size ≤ raw.length) :
    slice raw offset size = some ((raw.drop offset).take size) := if_pos h

/-- A word is read from its own four bytes only. -/
theorem readU32LE_take {bytes : List Byte} (h : 4 ≤ bytes.length) :
    readU32LE (bytes.take 4) = readU32LE bytes := by
  obtain ⟨value, rest, rfl⟩ := exists_writeU32LE h
  have hfour : (writeU32LE value ++ rest).take 4 = writeU32LE value := rfl
  rw [hfour, readU32LE_writeU32LE_self, readU32LE_writeU32LE]

/-- The parser with its offset a `size_t` and every read of the buffer checked. It has no result when it
reads past the buffer or is not done after so many turns. -/
def parseChecked (raw : List Byte) : ℕ → UInt64 → CommandResult → Option CommandResult
  | 0, _, _ => none
  | turns + 1, offset, result =>
    if offset + 5 ≤ UInt64.ofNat raw.length then do
      let id ← raw[offset.toNat]?
      let word ← slice raw (offset + 1).toNat 4
      let length := readU32LE word
      let offset := offset + 5
      if offset + length.toUInt64 > UInt64.ofNat raw.length then
        some result
      else do
        let data ← slice raw offset.toNat length.toNat
        parseChecked raw turns (offset + length.toUInt64) (handlePacket id data result)
    else
      some result

/-- The parser reads nothing outside a buffer that a vector can hold, and is done in time. -/
theorem parseChecked_eq {raw : List Byte} (hraw : raw.length < 2 ^ 63) (turns : ℕ) (offset : UInt64)
    (result : CommandResult) (hoffset : offset.toNat ≤ raw.length)
    (hturns : raw.length < offset.toNat + turns) :
    parseChecked raw turns offset result = some (parsePackets raw turns offset.toNat result) := by
  induction turns generalizing offset result with
  | zero => omega
  | succ turns ih =>
    have hsize : (UInt64.ofNat raw.length).toNat = raw.length := by
      rw [UInt64.toNat_ofNat']
      omega
    have hone : (offset + 1).toNat = offset.toNat + 1 := by
      rw [UInt64.toNat_add]
      exact Nat.mod_eq_of_lt (by simp; omega)
    have hfive : (offset + 5).toNat = offset.toNat + 5 := by
      rw [UInt64.toNat_add]
      exact Nat.mod_eq_of_lt (by simp; omega)
    simp only [parseChecked, parsePackets, kPacketHeaderSize, UInt64.le_iff_toNat_le, UInt64.lt_iff_toNat_lt,
      gt_iff_lt, hsize, hone, hfive]
    split
    next hheader =>
      have hdrop : 4 ≤ (raw.drop (offset.toNat + 1)).length := by
        rw [List.length_drop]
        omega
      have hword := slice_inside (show offset.toNat + 1 + 4 ≤ raw.length by omega)
      have hid := List.getElem?_eq_getElem (l := raw) (i := offset.toNat) (by omega)
      simp only [hid, hword, Option.bind_eq_bind, Option.bind_some, readU32LE_take hdrop]
      generalize readU32LE (raw.drop (offset.toNat + 1)) = length
      have hlt := length.toNat_lt
      have hsum : (offset + 5 + length.toUInt64).toNat = offset.toNat + 5 + length.toNat := by
        rw [UInt64.toNat_add, hfive, UInt32.toNat_toUInt64]
        exact Nat.mod_eq_of_lt (by omega)
      rw [hsum]
      split
      next => rfl
      next hlong =>
        rw [slice_inside (by omega), Option.bind_some, ih _ _ (by omega) (by omega), hsum]
        rfl
    next => rfl

/-! ### Commands -/

/-- The device accepts the stream to `service` and sends `raw` on it, in WRTEs of any sizes and with frames
for other streams in between, before it closes the stream. No send of the host fails. -/
def Sends (service raw : List Byte) (c : Connection Dialogue) : Prop :=
  ∃ stream c', (Stream.open service).run c = (.ok stream, c') ∧
    (∀ o ∈ c'.session.outcomes, o = .accepted) ∧
    upcoming stream.localId c'.session.inbox = (raw, .closed)

/-- The frames that bring `raw`: none of them ends the stream, and the CLSE comes after them. -/
theorem sends_of_frames {service raw : List Byte} {c c' : Connection Dialogue} {stream : Stream}
    (hopen : (Stream.open service).run c = (.ok stream, c'))
    (hacc : ∀ o ∈ c'.session.outcomes, o = .accepted) {frames : List Frame} {clse : Frame}
    {rest : List Arrival} (hinbox : c'.session.inbox = frames.map .frame ++ .frame clse :: rest)
    (hframes : ∀ f ∈ frames, ¬ Ends stream.localId f)
    (hclse : clse.header.arg1 = stream.localId ∧ clse.header.command = kClse)
    (hraw : (frames.filter (IsData stream.localId ·)).flatMap Frame.payload = raw) :
    Sends service raw c := by
  refine ⟨stream, c', hopen, hacc, ?_⟩
  have hend : upcoming stream.localId (.frame clse :: rest) = ([], .closed) := by
    rw [upcoming, if_neg (not_not.mpr hclse.1), hclse.2]
    rfl
  rw [hinbox, upcoming_frames hframes, hend, hraw, List.append_nil]

/-- A command that reads everything gets what the device sends. -/
theorem Sends.withStream {service raw : List Byte} {c : Connection Dialogue} (h : Sends service raw c)
    {α : Type} (f : List Byte → α) :
    ((withStream service do
      let raw ← StreamOn.readAll
      pure (f raw)).run c).1 = .ok (f raw) := by
  obtain ⟨stream, c', hopen, hacc, hup⟩ := h
  have hopened : StreamOn.Opened ⟨stream, c'⟩ := ⟨service, c, hopen⟩
  obtain ⟨hdrained, hsession⟩ := hopened.drained
  have hsource := Prod.mk.inj (hdrained.source.trans hup)
  have hall := StreamOn.readAll_source (Dialogue.accepts_of_all hsession hacc 0)
  rw [StreamOn.ReadsAll, hsource.2, hsource.1] at hall
  have hread : StreamOn.readAll.run ⟨stream, c'⟩ = (.ok raw, (StreamOn.readAll.run ⟨stream, c'⟩).2) :=
    Prod.ext hall.1 rfl
  have hbody : (StreamOn.readAll >>= fun raw => pure (f raw) : Action (StreamOn Dialogue) α).run ⟨stream, c'⟩ =
      (.ok (f raw), (StreamOn.readAll.run ⟨stream, c'⟩).2) := Prog.run_bind_ok hread
  exact congrArg Prod.fst (withStream_eq hopen hbody)

/-- The v1 service hands the output out as it is. -/
theorem runV1_result {command raw : List Byte} {c : Connection Dialogue}
    (h : Sends (serviceOf false command) raw c) :
    ((runV1 command).run c).1 = .ok { output := raw, success := true } :=
  h.withStream fun raw => ({ output := raw, success := true } : CommandResult)

/-- The v2 service hands out what the packets of the output describe. -/
theorem runV2_result {command raw : List Byte} {c : Connection Dialogue}
    (h : Sends (serviceOf true command) raw c) :
    ((runV2 command).run c).1 = .ok (describes (packets.items raw)) := by
  have hrun := h.withStream parseResult
  rwa [parseResult_describes] at hrun

/-- What holds of a v2 command for which the device sends `raw`. -/
structure Decoded (command raw : List Byte) (c : Connection Dialogue) : Prop where
  /-- Packets give the result that they describe. -/
  packets : ∀ ps, raw = packets.join ps → ((runV2 command).run c).1 = .ok (describes ps)
  /-- Any bytes give the result of the packets at their front. -/
  bytes : ((runV2 command).run c).1 = .ok (describes (Shell.packets.items raw))
  /-- Those packets are the longest list of whole packets that the bytes begin with. -/
  longest : Shell.packets.join (Shell.packets.items raw) <+: raw ∧
    ∀ ps, Shell.packets.join ps <+: raw → ps <+: Shell.packets.items raw
  /-- The parser ends in 64 bits without a read outside its buffer. -/
  inside : raw.length < 2 ^ 63 → parseChecked raw (raw.length + 1) 0 {} =
    some (parsePackets raw raw.length 0 {})

/-- A v2 command decodes whatever the device sends before it closes the stream. -/
theorem runV2_decoded {command raw : List Byte} {c : Connection Dialogue}
    (h : Sends (serviceOf true command) raw c) : Decoded command raw c := by
  constructor
  · intro ps hraw
    rw [runV2_result h, hraw, Framing.items_join]
  · exact runV2_result h
  · obtain ⟨tail, hraw, -⟩ := packets.join_items raw
    exact ⟨⟨tail, hraw.symm⟩, fun ps hps => packets.prefix_items hps⟩
  · intro hraw
    rw [parseChecked_eq hraw (raw.length + 1) 0 {} (Nat.zero_le _) (by simp)]
    exact congrArg some (parsePackets_bound (by simp) (by simp) {})

/-- A device that accepts the stream of the next command and sends the pieces on it. -/
def deviceShell (features : List (List Byte)) (pieces : List (List Byte)) : Connection Dialogue where
  features := features
  session.inbox := .frame ⟨makeEmptyMessage kOkay 7 2, []⟩ ::
    (pieces.map (StreamOn.deviceWrite 2)).map .frame ++ [.frame ⟨makeEmptyMessage kClse 7 2, []⟩]

/-- That device sends the pieces put together, to any command. -/
theorem deviceShell_sends {service : List Byte} (hservice : service.length + 1 < 2 ^ 32)
    (features pieces : List (List Byte)) : Sends service pieces.flatten (deviceShell features pieces) := by
  obtain ⟨stream, c', hopen, hid, hout, hinbox⟩ :=
    open_answered (c := deviceShell features pieces) rfl rfl hservice rfl rfl rfl
  apply sends_of_frames hopen (by simp [hout]) hinbox
  · intro f hf
    obtain ⟨piece, -, rfl⟩ := List.mem_map.mp hf
    exact fun hends => hends.2.1 rfl
  · exact ⟨hid.symm, rfl⟩
  · have hdata : ∀ f ∈ pieces.map (StreamOn.deviceWrite 2), IsData stream.localId f := by
      intro f hf
      obtain ⟨piece, -, rfl⟩ := List.mem_map.mp hf
      exact ⟨hid.symm, rfl⟩
    rw [List.filter_eq_self.mpr (by simpa using hdata), List.flatMap_map]
    exact List.flatMap_id

/-- Two outputs and an exit status, with WRTEs that end inside packets. -/
def greeting : List (List Byte) :=
  [[1, 2, 0, 0, 0, 104], [105, 2, 1, 0, 0], [0, 33, 3, 1, 0, 0, 0, 7]]

theorem runV2_decoded_greeting :
    Decoded [] greeting.flatten (deviceShell [] greeting) ∧ describes (packets.items greeting.flatten) =
      { output := bytesOf "hi!", standardOutput := bytesOf "hi", errorOutput := bytesOf "!", exitCode := 7,
        success := false } :=
  ⟨runV2_decoded (deviceShell_sends (by decide) [] greeting), by decide⟩

end Shell

end Adbcpp
