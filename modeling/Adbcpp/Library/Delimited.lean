import Mathlib.Data.List.Infix
import Mathlib.Data.Set.Insert
import Mathlib.Tactic.Common

/-! Streams of items that show where they end: no item is the beginning of another one.
A reader takes item after item, or only one. It can read a stream on until it comes to
something that no item begins with. A stream that can be read on is complete or ragged:
it breaks off inside an item, or there is more behind the one item that is read. -/

/-- Items over `α`, and what a reader takes for the beginning of one. -/
structure Delimited (α : Type) where
  Item : List α → Prop
  Beginning : List α → Prop
  nil_beginning : Beginning []
  item_ne_nil : ∀ {f}, Item f → f ≠ []
  item_beginning : ∀ {f}, Item f → Beginning f
  beginning_prefix : ∀ {p q}, Beginning (p ++ q) → Beginning p
  /-- Nothing that goes on behind an item is the beginning of one. -/
  item_ends : ∀ {f r}, Item f → Beginning (f ++ r) → r = []

namespace Delimited

variable {α : Type}

/-- No item of the set is empty or the front of another one. -/
structure PrefixFree (items : Set (List α)) : Prop where
  nil_not_mem : [] ∉ items
  eq_of_prefix : ∀ f ∈ items, ∀ g ∈ items, f <+: g → f = g

/-- A front of an item of the set, or nothing yet. -/
def Begins (items : Set (List α)) (p : List α) : Prop := p = [] ∨ ∃ f ∈ items, p <+: f

theorem Begins.of_append {items : Set (List α)} {p q : List α} (h : Begins items (p ++ q)) :
    Begins items p := by
  rcases h with hnil | ⟨f, hf, hpre⟩
  · exact .inl (List.append_eq_nil_iff.mp hnil).1
  · exact .inr ⟨f, hf, (List.prefix_append p q).trans hpre⟩

theorem PrefixFree.ends {items : Set (List α)} (h : PrefixFree items) {f r : List α} (hf : f ∈ items)
    (hbegins : Begins items (f ++ r)) : r = [] := by
  rcases hbegins with hnil | ⟨g, hg, hpre⟩
  · exact (List.append_eq_nil_iff.mp hnil).2
  have hsame := h.eq_of_prefix f hf g hg ((List.prefix_append f r).trans hpre)
  have hle := hpre.length_le
  rw [← hsame, List.length_append] at hle
  exact List.eq_nil_of_length_eq_zero (by omega)

theorem PrefixFree.ne_nil {items : Set (List α)} (h : PrefixFree items) {f : List α} (hf : f ∈ items) :
    f ≠ [] := fun hnil => h.nil_not_mem (hnil ▸ hf)

/-- A prefix-free set of items, where every front of an item is a beginning. -/
def ofSet (items : Set (List α)) (h : PrefixFree items) : Delimited α where
  Item := (· ∈ items)
  Beginning := Begins items
  nil_beginning := .inl rfl
  item_ne_nil := h.ne_nil
  item_beginning hf := .inr ⟨_, hf, List.prefix_rfl⟩
  beginning_prefix := Begins.of_append
  item_ends := h.ends

variable (G : Delimited α)

theorem item_append_inj {f f' r r' : List α} (hf : G.Item f) (hf' : G.Item f')
    (h : f ++ r = f' ++ r') : f = f' ∧ r = r' := by
  have hsame : f = f' := by
    rcases List.append_eq_append_iff.mp h with ⟨a, rfl, -⟩ | ⟨a, rfl, -⟩
    · rw [G.item_ends hf (G.item_beginning hf'), List.append_nil]
    · rw [G.item_ends hf' (G.item_beginning hf), List.append_nil]
  subst hsame
  exact ⟨rfl, List.append_cancel_left h⟩

/-- What a reader has read on into, where it reads `many` items, or only one and nothing of what is
behind it. -/
inductive Readable (many : Prop) : List α → Prop
  | beginning {part : List α} : G.Beginning part → Readable many part
  | next {f rest : List α} : many → G.Item f → Readable many rest → Readable many (f ++ rest)
  | behind {f rest : List α} : ¬ many → G.Item f → Readable many (f ++ rest)

/-- Whole items, as many as are read, and nothing else. -/
inductive Complete (many : Prop) : List α → Prop
  | nil : Complete many []
  | item {f rest : List α} : G.Item f → (rest ≠ [] → many) → Complete many rest →
      Complete many (f ++ rest)

/-- Whole items, and the beginning of one, or more than is read. -/
inductive Ragged (many : Prop) : List α → Prop
  | inside {part : List α} : G.Beginning part → part ≠ [] → ¬ G.Item part → Ragged many part
  | later {f rest : List α} : many → G.Item f → Ragged many rest → Ragged many (f ++ rest)
  | trailing {f rest : List α} : ¬ many → G.Item f → rest ≠ [] → Ragged many (f ++ rest)

/-- Whole items with another one to come behind them. -/
inductive Passed (many : Prop) : List α → Prop
  | nil : Passed many []
  | item {f rest : List α} : many → G.Item f → Passed many rest → Passed many (f ++ rest)

variable {G} {many : Prop} {p q r f : List α}

theorem Passed.eq_nil (h : G.Passed many p) (hmany : ¬ many) : p = [] := by
  cases h with
  | nil => rfl
  | item hmany' => exact absurd hmany' hmany

theorem Passed.snoc (h : G.Passed many p) (hmany : many) (hf : G.Item f) : G.Passed many (p ++ f) := by
  induction h with
  | nil =>
    rw [List.nil_append, ← List.append_nil f]
    exact .item hmany hf .nil
  | item _ hg _ ih =>
    rw [List.append_assoc]
    exact .item hmany hg ih

theorem Readable.rest (h : G.Readable many (f ++ r)) (hmany : many) (hf : G.Item f) :
    G.Readable many r := by
  generalize hq : f ++ r = q at h
  cases h with
  | beginning hbegin =>
    obtain rfl := G.item_ends hf (hq.symm ▸ hbegin)
    exact .beginning G.nil_beginning
  | next _ hg hrest =>
    obtain ⟨-, rfl⟩ := G.item_append_inj hf hg hq
    exact hrest
  | behind hone => exact absurd hmany hone

/-- The items that have been passed make no difference to whether a stream can be read on. -/
theorem Passed.readable_iff (h : G.Passed many p) : G.Readable many (p ++ r) ↔ G.Readable many r := by
  induction h with
  | nil => rw [List.nil_append]
  | item hmany hf _ ih =>
    rw [List.append_assoc]
    exact ⟨fun hread => ih.mp (hread.rest hmany hf), fun hread => .next hmany hf (ih.mpr hread)⟩

/-- What is in front of something that can be read on can be read on. -/
theorem Readable.of_append (h : G.Readable many (p ++ q)) : G.Readable many p := by
  generalize hpq : p ++ q = l at h
  induction h generalizing p with
  | beginning hbegin => exact .beginning (G.beginning_prefix (hpq ▸ hbegin))
  | @next f rest hmany hf _ ih =>
    rcases List.append_eq_append_iff.mp hpq with ⟨a, rfl, -⟩ | ⟨a, rfl, hrest⟩
    · exact .beginning (G.beginning_prefix (G.item_beginning hf))
    · exact .next hmany hf (ih hrest.symm)
  | @behind f rest hone hf =>
    rcases List.append_eq_append_iff.mp hpq with ⟨a, rfl, -⟩ | ⟨a, rfl, -⟩
    · exact .beginning (G.beginning_prefix (G.item_beginning hf))
    · exact .behind hone hf

theorem Complete.readable (h : G.Complete many p) : G.Readable many p := by
  induction h with
  | nil => exact .beginning G.nil_beginning
  | @item f rest hf _ _ ih =>
    by_cases hmany : many
    · exact .next hmany hf ih
    · exact .behind hmany hf

theorem Ragged.readable (h : G.Ragged many p) : G.Readable many p := by
  induction h with
  | inside hbegin => exact .beginning hbegin
  | later hmany hf _ ih => exact .next hmany hf ih
  | trailing hone hf => exact .behind hone hf

theorem complete_item (hf : G.Item f) : G.Complete many f := by
  rw [← List.append_nil f]
  exact .item hf (fun hne => absurd rfl hne) .nil

theorem Readable.complete_or_ragged (h : G.Readable many p) : G.Complete many p ∨ G.Ragged many p := by
  induction h with
  | @beginning part hbegin =>
    by_cases hnil : part = []
    · subst hnil
      exact .inl .nil
    by_cases hitem : G.Item part
    · exact .inl (complete_item hitem)
    · exact .inr (.inside hbegin hnil hitem)
  | next hmany hf _ ih => exact ih.imp (.item hf fun _ => hmany) (.later hmany hf)
  | @behind f rest hone hf =>
    by_cases hnil : rest = []
    · subst hnil
      rw [List.append_nil]
      exact .inl (complete_item hf)
    · exact .inr (.trailing hone hf hnil)

theorem Complete.not_ragged (h : G.Complete many p) : ¬ G.Ragged many p := by
  induction h with
  | nil =>
    intro hragged
    generalize hnil : ([] : List α) = l at hragged
    cases hragged with
    | inside _ hne => exact hne hnil.symm
    | later _ hf => exact G.item_ne_nil hf (List.append_eq_nil_iff.mp hnil.symm).1
    | trailing _ hf => exact G.item_ne_nil hf (List.append_eq_nil_iff.mp hnil.symm).1
  | @item f rest hf hmany _ ih =>
    intro hragged
    generalize hl : f ++ rest = l at hragged
    cases hragged with
    | inside hbegin _ hitem =>
      subst hl
      rw [G.item_ends hf hbegin, List.append_nil] at hitem
      exact hitem hf
    | later _ hg hrest =>
      obtain ⟨-, rfl⟩ := G.item_append_inj hf hg hl
      exact ih hrest
    | trailing hone hg hne =>
      obtain ⟨-, rfl⟩ := G.item_append_inj hf hg hl
      exact hone (hmany hne)

end Delimited
