import Mathlib.Algebra.Ring.Commute
import Mathlib.Tactic.Ring

/-! Newton's iteration for an inverse in a commutative ring. What is missing from an inverse
is squared by each step, so it vanishes where it is nilpotent. In a ring in which a power
of two is zero the iteration inverts everything that is one up to a multiple of two. -/

namespace Newton

variable {R : Type} [CommRing R]

/-- One step towards the inverse of `v`. -/
def step (v x : R) : R := x * (2 - v * x)

theorem one_sub_mul_step (v x : R) : 1 - v * step v x = (1 - v * x) ^ 2 := by
  unfold step
  ring

theorem one_sub_mul_iterate (v x : R) (n : ℕ) : 1 - v * (step v)^[n] x = (1 - v * x) ^ 2 ^ n := by
  induction n with
  | zero => simp
  | succ n ih =>
    rw [Function.iterate_succ_apply', one_sub_mul_step, ih, ← pow_mul, pow_succ]

/-- The iteration is over where what is missing has a power that is zero. -/
theorem mul_iterate_eq_one {v x : R} {n : ℕ} (h : (1 - v * x) ^ 2 ^ n = 0) :
    v * (step v)^[n] x = 1 := by
  have hn := one_sub_mul_iterate v x n
  rw [h] at hn
  exact (sub_eq_zero.mp hn).symm

/-- In a ring in which `2 ^ 2 ^ n` is zero, `n` steps from one invert every `1 + 2 * k`. -/
theorem mul_iterate_of_odd {k : R} {n : ℕ} (h : (2 : R) ^ 2 ^ n = 0) :
    (1 + 2 * k) * (step (1 + 2 * k))^[n] 1 = 1 := by
  apply mul_iterate_eq_one
  rw [show 1 - (1 + 2 * k) * 1 = 2 * (-k) by ring, mul_pow, h, zero_mul]

end Newton
