import Mathlib.Data.List.Infix
import Mathlib.Tactic.Common

/-! Records one after the other in a list. A framing says how a record is written
and how the first record of a list is split off. The records of a list are split
off until what is left does not begin with a whole one, so that a list always has
some, and what is cut off at its end is dropped. -/

/-- Records `π` that are written as lists over `α`, none of them the front of another one. -/
structure Framing (π α : Type) where
  encode : π → List α
  /-- The first record of a list, and what comes after it. -/
  split : List α → Option (π × List α)
  encode_ne_nil : ∀ p, encode p ≠ []
  split_encode : ∀ p rest, split (encode p ++ rest) = some (p, rest)
  split_eq : ∀ {raw p rest}, split raw = some (p, rest) → raw = encode p ++ rest

namespace Framing

variable {π α : Type} (F : Framing π α)

/-- The records of a list with a bound on their number. -/
def itemsFrom : ℕ → List α → List π
  | 0, _ => []
  | n + 1, raw => match F.split raw with
    | none => []
    | some (p, rest) => p :: itemsFrom n rest

/-- The whole records at the front of a list. -/
def items (raw : List α) : List π := F.itemsFrom raw.length raw

/-- The list of some records. -/
def join (ps : List π) : List α := ps.flatMap F.encode

@[simp] theorem join_nil : F.join [] = [] := rfl

@[simp] theorem join_cons (p : π) (ps : List π) : F.join (p :: ps) = F.encode p ++ F.join ps := rfl

theorem length_rest {raw rest : List α} {p : π} (h : F.split raw = some (p, rest)) :
    rest.length < raw.length := by
  have hpos := List.length_pos_of_ne_nil (F.encode_ne_nil p)
  rw [F.split_eq h, List.length_append]
  omega

theorem split_nil : F.split [] = none := by
  cases h : F.split [] with
  | none => rfl
  | some q => exact absurd (F.length_rest h) (Nat.not_lt_zero _)

/-- A bound that covers the list is never reached. -/
theorem itemsFrom_bound (n m : ℕ) (raw : List α) (hn : raw.length ≤ n) (hm : raw.length ≤ m) :
    F.itemsFrom n raw = F.itemsFrom m raw := by
  induction n generalizing m raw with
  | zero =>
    obtain rfl := List.eq_nil_of_length_eq_zero (Nat.le_zero.mp hn)
    cases m with
    | zero => rfl
    | succ m => rw [itemsFrom, itemsFrom, split_nil]
  | succ n ih =>
    cases m with
    | zero =>
      obtain rfl := List.eq_nil_of_length_eq_zero (Nat.le_zero.mp hm)
      rw [itemsFrom, itemsFrom, split_nil]
    | succ m =>
      rw [itemsFrom, itemsFrom]
      cases h : F.split raw with
      | none => rfl
      | some q =>
        have hlt := F.length_rest h
        exact congrArg (q.1 :: ·) (ih m q.2 (by omega) (by omega))

theorem items_none {raw : List α} (h : F.split raw = none) : F.items raw = [] := by
  unfold items
  cases raw.length with
  | zero => rfl
  | succ n => rw [itemsFrom, h]

theorem items_some {raw rest : List α} {p : π} (h : F.split raw = some (p, rest)) :
    F.items raw = p :: F.items rest := by
  have hlt := F.length_rest h
  unfold items
  cases hn : raw.length with
  | zero => omega
  | succ n =>
    simp only [itemsFrom, h]
    exact congrArg (p :: ·) (F.itemsFrom_bound n rest.length rest (by omega) (Nat.le_refl _))

@[simp] theorem items_nil : F.items [] = [] := rfl

/-- Splitting a list of whole records off gives those records. -/
theorem items_join_append (ps : List π) (tail : List α) : F.items (F.join ps ++ tail) = ps ++ F.items tail := by
  induction ps with
  | nil => rfl
  | cons p ps ih => rw [join_cons, List.append_assoc, F.items_some (F.split_encode p _), ih, List.cons_append]

theorem items_join (ps : List π) : F.items (F.join ps) = ps := by
  simpa using F.items_join_append ps []

/-- The records of a list are its front; what is left does not begin with a whole record. -/
theorem join_items (raw : List α) : ∃ tail, raw = F.join (F.items raw) ++ tail ∧ F.split tail = none := by
  induction hn : raw.length using Nat.strongRecOn generalizing raw with
  | ind n ih =>
    cases h : F.split raw with
    | none =>
      rw [F.items_none h]
      exact ⟨raw, rfl, h⟩
    | some q =>
      obtain ⟨p, rest⟩ := q
      obtain ⟨tail, hrest, htail⟩ := ih rest.length (hn ▸ F.length_rest h) rest rfl
      refine ⟨tail, ?_, htail⟩
      rw [F.items_some h, join_cons, List.append_assoc, ← hrest]
      exact F.split_eq h

/-- No other records at the front of a list are more than its own. -/
theorem prefix_items {ps : List π} {raw : List α} (h : F.join ps <+: raw) : ps <+: F.items raw := by
  obtain ⟨tail, rfl⟩ := h
  rw [items_join_append]
  exact List.prefix_append ps (F.items tail)

end Framing
