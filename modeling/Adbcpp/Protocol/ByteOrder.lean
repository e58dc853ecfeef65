import Mathlib.Algebra.Order.Ring.Nat
import Mathlib.Tactic.Common

/-! Little-endian words on the wire. Every integer of the protocol, of the sync
service and of shell_v2 goes through these two functions. A word is read from
the front of a byte list, as the source reads it through a pointer. -/

namespace Adbcpp

abbrev Byte := UInt8

namespace Protocol

/-- `value` as four little-endian bytes. -/
def writeU32LE (value : UInt32) : List Byte :=
  [(value &&& 0xFF).toUInt8, ((value >>> 8) &&& 0xFF).toUInt8, ((value >>> 16) &&& 0xFF).toUInt8,
    ((value >>> 24) &&& 0xFF).toUInt8]

/-- The little-endian word at the front of `bytes`. -/
def readU32LE (bytes : List Byte) : UInt32 :=
  (bytes.getD 0 0).toUInt32 ||| ((bytes.getD 1 0).toUInt32 <<< 8) |||
    ((bytes.getD 2 0).toUInt32 <<< 16) ||| ((bytes.getD 3 0).toUInt32 <<< 24)

@[simp] theorem length_writeU32LE (value : UInt32) : (writeU32LE value).length = 4 := rfl

/-- Words below and above a bit position do not carry into each other. -/
private theorem or_shift_eq_add (i : ℕ) {a b : ℕ} (h : a < 2 ^ i) : a ||| b * 2 ^ i = a + b * 2 ^ i := by
  rw [Nat.or_comm, ← Nat.shiftLeft_eq, ← Nat.shiftLeft_add_eq_or_of_lt h, Nat.add_comm]

theorem toNat_readU32LE (a b c d : Byte) (rest : List Byte) :
    (readU32LE (a :: b :: c :: d :: rest)).toNat =
      a.toNat + b.toNat * 2 ^ 8 + c.toNat * 2 ^ 16 + d.toNat * 2 ^ 24 := by
  have ha := a.toNat_lt
  have hb := b.toNat_lt
  have hc := c.toNat_lt
  have hd := d.toNat_lt
  simp only [readU32LE, List.getD_cons_zero, List.getD_cons_succ, UInt32.toNat_or,
    UInt32.toNat_shiftLeft, UInt8.toNat_toUInt32, Nat.shiftLeft_eq]
  rw [show UInt32.toNat 8 % 32 = 8 by rfl, show UInt32.toNat 16 % 32 = 16 by rfl,
    show UInt32.toNat 24 % 32 = 24 by rfl, Nat.mod_eq_of_lt (by omega), Nat.mod_eq_of_lt (by omega),
    Nat.mod_eq_of_lt (by omega)]
  rw [or_shift_eq_add 8 (by omega), or_shift_eq_add 16 (by omega), or_shift_eq_add 24 (by omega)]

theorem toNat_writeU32LE (value : UInt32) :
    (writeU32LE value).map UInt8.toNat =
      [value.toNat % 256, value.toNat / 2 ^ 8 % 256, value.toNat / 2 ^ 16 % 256,
        value.toNat / 2 ^ 24 % 256] := by
  have h : ∀ v : ℕ, v &&& 255 = v % 256 := fun v => Nat.and_two_pow_sub_one_eq_mod v 8
  simp [writeU32LE, h, Nat.shiftRight_eq_div_pow]

/-- Reading back a written word gives it, whatever follows it. -/
@[simp] theorem readU32LE_writeU32LE (value : UInt32) (rest : List Byte) :
    readU32LE (writeU32LE value ++ rest) = value := by
  have hv := value.toNat_lt
  have hw := toNat_writeU32LE value
  apply UInt32.toNat_inj.mp
  simp only [writeU32LE, List.map_cons, List.map_nil, List.cons.injEq, and_true] at hw
  obtain ⟨h0, h1, h2, h3⟩ := hw
  simp only [writeU32LE, List.cons_append, List.nil_append]
  rw [toNat_readU32LE, h0, h1, h2, h3]
  omega

theorem readU32LE_writeU32LE_self (value : UInt32) : readU32LE (writeU32LE value) = value := by
  simpa using readU32LE_writeU32LE value []

/-- Four bytes are those of the word that they read as. -/
theorem writeU32LE_readU32LE {bytes : List Byte} (h : bytes.length = 4) :
    writeU32LE (readU32LE bytes) = bytes := by
  obtain ⟨a, b, c, d, rfl⟩ : ∃ a b c d, bytes = [a, b, c, d] := by
    match bytes, h with
    | [a, b, c, d], _ => exact ⟨a, b, c, d, rfl⟩
  have ha := a.toNat_lt
  have hb := b.toNat_lt
  have hc := c.toNat_lt
  have hd := d.toNat_lt
  apply (List.map_inj_right fun _ _ => UInt8.toNat_inj.mp).mp
  rw [toNat_writeU32LE, toNat_readU32LE]
  simp only [List.map_cons, List.map_nil, List.cons.injEq, and_true]
  omega

/-- A word can be read off the front of four bytes or more. -/
theorem exists_writeU32LE {bytes : List Byte} (h : 4 ≤ bytes.length) :
    ∃ value rest, bytes = writeU32LE value ++ rest :=
  ⟨readU32LE (bytes.take 4), bytes.drop 4, by
    rw [writeU32LE_readU32LE (by rw [List.length_take]; omega), List.take_append_drop]⟩

end Protocol

end Adbcpp
