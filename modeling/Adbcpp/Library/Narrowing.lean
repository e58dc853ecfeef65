import Mathlib.Algebra.Order.Ring.Nat
import Mathlib.Data.Int.ModEq
import Mathlib.Tactic.NormNum

/-! The narrowing of a size to a signed 32-bit integer. Sizes up to the largest such
integer stay what they are; from there to the end of 32 bits they become negative. -/

namespace Narrowing

/-- The signed 32-bit integer that a size is converted to. -/
def asInt (size : ℕ) : ℤ := Int.bmod size (2 ^ 32)

theorem asInt_of_lt {size : ℕ} (h : size < 2 ^ 31) : asInt size = size := by
  rw [show (2 ^ 31 : ℕ) = 2147483648 by norm_num] at h
  unfold asInt
  rw [Int.bmod_def, show ((2 ^ 32 : ℕ) : ℤ) = 4294967296 by norm_num]
  split_ifs <;> omega

theorem asInt_neg {size : ℕ} (h : 2 ^ 31 ≤ size) (hlt : size < 2 ^ 32) : asInt size < 0 := by
  rw [show (2 ^ 31 : ℕ) = 2147483648 by norm_num] at h
  rw [show (2 ^ 32 : ℕ) = 4294967296 by norm_num] at hlt
  unfold asInt
  rw [Int.bmod_def, show ((2 ^ 32 : ℕ) : ℤ) = 4294967296 by norm_num]
  split_ifs <;> omega

end Narrowing
