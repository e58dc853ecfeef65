import Mathlib.Data.List.DropRight
import Adbcpp.Sync.Replies

/-! The bytes of a push. A push is a request, DATA packets and one DONE, and its bytes
can be read as such in one way only. The request of the v1 form carries the mode as
a decimal behind the last comma. -/

namespace Adbcpp.Sync

open Protocol

/-! ### Packets -/

theorem writeU32LE_injective {a b : UInt32} (h : writeU32LE a = writeU32LE b) : a = b := by
  rw [← readU32LE_writeU32LE_self a, h, readU32LE_writeU32LE_self]

theorem writeU32LE_append_inj {a b : UInt32} {rest rest' : List Byte}
    (h : writeU32LE a ++ rest = writeU32LE b ++ rest') : a = b ∧ rest = rest' := by
  obtain ⟨hword, hrest⟩ := List.append_inj h rfl
  exact ⟨writeU32LE_injective hword, hrest⟩

/-- A packet is told from what follows it. -/
theorem packet_append_inj {id : UInt32} {body body' rest rest' : List Byte} (hlt : body.length < 2 ^ 32)
    (hlt' : body'.length < 2 ^ 32) (h : packet id body ++ rest = packet id body' ++ rest') :
    body = body' ∧ rest = rest' := by
  rw [packet_append, packet_append] at h
  obtain ⟨hlength, h⟩ := writeU32LE_append_inj (writeU32LE_append_inj h).2
  have hlen : body.length = body'.length := by
    rw [← toNat_length hlt, hlength, toNat_length hlt']
  exact List.append_inj h hlen

/-- The DATA packets of a file, and the DONE with its modification time. -/
def fileBytes (packets : List (List Byte)) (mtime : UInt32) : List Byte :=
  packets.flatMap (packet kData) ++ (writeU32LE kDone ++ writeU32LE mtime)

/-- The packets are short enough for their sizes to be told. -/
def Sizable (packets : List (List Byte)) : Prop := ∀ p ∈ packets, p.length < 2 ^ 32

theorem fileBytes_inj {packets packets' : List (List Byte)} {mtime mtime' : UInt32}
    (hs : Sizable packets) (hs' : Sizable packets')
    (h : fileBytes packets mtime = fileBytes packets' mtime') : packets = packets' ∧ mtime = mtime' := by
  induction packets generalizing packets' with
  | nil =>
    cases packets' with
    | nil => exact ⟨rfl, writeU32LE_injective (writeU32LE_append_inj h).2⟩
    | cons p packets' =>
      rw [fileBytes, fileBytes, List.flatMap_cons, List.append_assoc, packet_append] at h
      exact absurd (writeU32LE_append_inj h).1 kDone_ne_kData
  | cons p packets ih =>
    cases packets' with
    | nil =>
      rw [fileBytes, fileBytes, List.flatMap_cons, List.append_assoc, packet_append] at h
      exact absurd (writeU32LE_append_inj h).1.symm kDone_ne_kData
    | cons p' packets' =>
      rw [fileBytes, fileBytes, List.flatMap_cons, List.flatMap_cons, List.append_assoc,
        List.append_assoc] at h
      obtain ⟨rfl, hrest⟩ := packet_append_inj (hs p List.mem_cons_self) (hs' p' List.mem_cons_self) h
      obtain ⟨rfl, rfl⟩ := ih (fun q hq => hs q (List.mem_cons_of_mem _ hq))
        (fun q hq => hs' q (List.mem_cons_of_mem _ hq)) hrest
      exact ⟨rfl, rfl⟩

/-- The bytes of a v1 push. -/
def sendBytes (spec : List Byte) (packets : List (List Byte)) (mtime : UInt32) : List Byte :=
  packet kSendV1 spec ++ fileBytes packets mtime

theorem sendBytes_inj {spec spec' : List Byte} {packets packets' : List (List Byte)}
    {mtime mtime' : UInt32} (hlt : spec.length < 2 ^ 32) (hlt' : spec'.length < 2 ^ 32)
    (hs : Sizable packets) (hs' : Sizable packets')
    (h : sendBytes spec packets mtime = sendBytes spec' packets' mtime') :
    spec = spec' ∧ packets = packets' ∧ mtime = mtime' := by
  obtain ⟨rfl, hfile⟩ := packet_append_inj hlt hlt' h
  exact ⟨rfl, fileBytes_inj hs hs' hfile⟩

/-- The setup packet of a v2 push. -/
def sendSetup (mode flags : UInt32) : List Byte :=
  writeU32LE kSendV2 ++ writeU32LE mode ++ writeU32LE flags

/-- The bytes of a v2 push. -/
def sendV2Bytes (destination : List Byte) (mode flags : UInt32) (packets : List (List Byte))
    (mtime : UInt32) : List Byte :=
  packet kSendV2 destination ++ (sendSetup mode flags ++ fileBytes packets mtime)

theorem sendV2Bytes_inj {destination destination' : List Byte} {mode mode' flags flags' : UInt32}
    {packets packets' : List (List Byte)} {mtime mtime' : UInt32}
    (hlt : destination.length < 2 ^ 32) (hlt' : destination'.length < 2 ^ 32) (hs : Sizable packets)
    (hs' : Sizable packets') (h : sendV2Bytes destination mode flags packets mtime =
      sendV2Bytes destination' mode' flags' packets' mtime') :
    destination = destination' ∧ mode = mode' ∧ flags = flags' ∧ packets = packets' ∧
      mtime = mtime' := by
  rw [sendV2Bytes, sendV2Bytes] at h
  obtain ⟨rfl, hsetup⟩ := packet_append_inj hlt hlt' h
  simp only [sendSetup, List.append_assoc] at hsetup
  obtain ⟨rfl, hflags⟩ := writeU32LE_append_inj (writeU32LE_append_inj hsetup).2
  obtain ⟨rfl, hfile⟩ := writeU32LE_append_inj hflags
  exact ⟨rfl, rfl, rfl, fileBytes_inj hs hs' hfile⟩

/-! ### The request of the v1 form -/

/-- The byte of a comma. -/
def comma : Byte := 0x2C

/-- What is in front of the last comma, and what is behind it. -/
def splitLastComma (spec : List Byte) : List Byte × List Byte :=
  ((spec.rdropWhile (· ≠ comma)).dropLast, spec.rtakeWhile (· ≠ comma))

theorem rtakeWhile_append {p : Byte → Bool} {l t : List Byte} {x : Byte} (hx : p x = false)
    (ht : ∀ y ∈ t, p y = true) : (l ++ x :: t).rtakeWhile p = t := by
  have ht' : ∀ y ∈ t.reverse, p y = true := fun y hy => ht y (List.mem_reverse.mp hy)
  rw [List.rtakeWhile, List.reverse_append, List.reverse_cons, List.append_assoc,
    List.takeWhile_append_of_pos ht']
  simp [hx]

theorem rdropWhile_append {p : Byte → Bool} {l t : List Byte} {x : Byte} (hx : p x = false)
    (ht : ∀ y ∈ t, p y = true) : (l ++ x :: t).rdropWhile p = l ++ [x] := by
  have ht' : ∀ y ∈ t.reverse, p y = true := fun y hy => ht y (List.mem_reverse.mp hy)
  rw [List.rdropWhile, List.reverse_append, List.reverse_cons, List.append_assoc,
    List.dropWhile_append_of_pos ht']
  simp [hx]

/-- The decimal that a string of digits denotes. -/
def readDecimal (digits : List Byte) : Option ℕ :=
  digits.foldl (fun value digit => value.bind fun v =>
    if 0x30 ≤ digit.toNat ∧ digit.toNat ≤ 0x39 then some (10 * v + (digit.toNat - 0x30)) else none)
    (some 0)

theorem readDecimal_concat (digits : List Byte) (digit : Byte) : readDecimal (digits ++ [digit]) =
    (readDecimal digits).bind fun v => if 0x30 ≤ digit.toNat ∧ digit.toNat ≤ 0x39 then
      some (10 * v + (digit.toNat - 0x30)) else none := by
  rw [readDecimal, List.foldl_append]
  rfl

theorem toNat_digitChar {d : ℕ} (h : d < 10) : (UInt8.ofNat d.digitChar.toNat).toNat = 0x30 + d := by
  have : ∀ d < 10, (UInt8.ofNat (Nat.digitChar d).toNat).toNat = 0x30 + d := by decide
  exact this d h

/-- The digits of a number, as bytes. -/
def decimal (n : ℕ) : List Byte := bytesOf (toString n)

theorem decimal_eq (n : ℕ) : decimal n = (Nat.toDigits 10 n).map fun c => UInt8.ofNat c.toNat := by
  rw [decimal, bytesOf]
  congr 1
  show (Nat.repr n).toList = _
  simp [Nat.repr]

theorem readDecimal_decimal (n : ℕ) : readDecimal (decimal n) = some n := by
  induction n using Nat.strongRecOn with
  | ind n ih =>
    rw [decimal_eq]
    by_cases hlt : n < 10
    · have hd := toNat_digitChar hlt
      rw [Nat.toDigits_of_lt_base hlt, List.map_singleton, ← List.nil_append [_], readDecimal_concat, hd]
      simp [readDecimal]
      omega
    · have hd := toNat_digitChar (Nat.mod_lt n (by omega : 10 > 0))
      have hdiv := ih (n / 10) (by omega)
      rw [decimal_eq] at hdiv
      rw [Nat.toDigits_of_base_le (by omega) (Nat.le_of_not_lt hlt), List.map_append, List.map_singleton,
        readDecimal_concat, hdiv, hd]
      simp
      omega

theorem comma_not_mem_decimal (n : ℕ) : ∀ y ∈ decimal n, (decide (y ≠ comma)) = true := by
  intro y hy
  rw [decimal_eq, List.mem_map] at hy
  obtain ⟨c, hc, rfl⟩ := hy
  have hdigit := Nat.isDigit_of_mem_toDigits (by omega) (by omega) hc
  have hrange : 48 ≤ c.toNat ∧ c.toNat ≤ 57 := by
    simpa [Char.isDigit, UInt32.le_iff_toNat_le] using hdigit
  have hbyte : (UInt8.ofNat c.toNat).toNat = c.toNat := by
    rw [UInt8.toNat_ofNat']
    omega
  refine decide_eq_true fun heq => ?_
  have hcomma : (UInt8.ofNat c.toNat).toNat = comma.toNat := congrArg UInt8.toNat heq
  rw [hbyte, show comma.toNat = 44 from rfl] at hcomma
  omega

/-- Splitting the request at its last comma gives back the destination and the mode, whatever
commas the destination has. -/
theorem splitLastComma_sendSpec (destination : List Byte) (mode : UInt32) :
    splitLastComma (sendSpec destination mode) = (destination, decimal mode.toNat) := by
  have hspec : sendSpec destination mode = destination ++ comma :: decimal mode.toNat := by
    rw [sendSpec, List.append_assoc]
    rfl
  have hcomma : decide (comma ≠ comma) = false := by decide
  rw [splitLastComma, hspec, rtakeWhile_append hcomma (comma_not_mem_decimal _),
    rdropWhile_append hcomma (comma_not_mem_decimal _), List.dropLast_concat]

end Adbcpp.Sync
