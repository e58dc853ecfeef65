import Mathlib.Data.List.Basic
import Mathlib.Tactic.Common

/-! Words that are spelled item by item. Every item of a list stands for a piece of the
word, and the relation says which pieces an item may stand for. -/

/-- The word is made of one piece for each item, in order. -/
inductive Spells {α β : Type} (R : α → List β → Prop) : List α → List β → Prop
  | nil : Spells R [] []
  | cons {x xs piece word} (head : R x piece) (tail : Spells R xs word) : Spells R (x :: xs) (piece ++ word)

namespace Spells

variable {α β : Type} {R : α → List β → Prop}

theorem one {x : α} {piece : List β} (h : R x piece) : Spells R [x] piece := by
  have hcons := Spells.cons h .nil
  rwa [List.append_nil] at hcons

theorem append {xs ys : List α} {v w : List β} (hv : Spells R xs v) (hw : Spells R ys w) :
    Spells R (xs ++ ys) (v ++ w) := by
  induction hv with
  | nil => exact hw
  | cons head tail ih =>
    rw [List.append_assoc]
    exact .cons head ih

end Spells
