import Mathlib.Order.Nat
import Mathlib.Data.Nat.Find
import Adbcpp.Library.Prog

/-! Loops that need not end, because nothing known about the body makes a measure
smaller. Such a loop is run for a number of turns, after which it has ended or is
still going; how it ends does not depend on that number. Where a proof finds an
invariant and a measure, the loop ends, and where it always ends it is a program. -/

namespace Prog

variable {σ ε α β : Type}

/-- The loop after at most `n` turns, or nothing while it is still going. -/
def loopUpTo (body : β → Prog σ ε (Turn β α)) : ℕ → β → σ → Option (Except ε α × σ)
  | 0, _, _ => none
  | n + 1, b, s => match (body b).run s with
    | (.ok (.again b'), s') => loopUpTo body n b' s'
    | (.ok (.done a), s') => some (.ok a, s')
    | (.error e, s') => some (.error e, s')

/-- How the loop ends from a local value and a state. -/
inductive LoopEnds (body : β → Prog σ ε (Turn β α)) : β → σ → Except ε α × σ → Prop
  | again {b b' : β} {s s' : σ} {r : Except ε α × σ} : (body b).run s = (.ok (.again b'), s') →
      LoopEnds body b' s' r → LoopEnds body b s r
  | done {b : β} {a : α} {s s' : σ} : (body b).run s = (.ok (.done a), s') →
      LoopEnds body b s (.ok a, s')
  | error {b : β} {e : ε} {s s' : σ} : (body b).run s = (.error e, s') →
      LoopEnds body b s (.error e, s')

variable {body : β → Prog σ ε (Turn β α)}

theorem loopEnds_of_upTo {n : ℕ} {b : β} {s : σ} {r : Except ε α × σ}
    (h : loopUpTo body n b s = some r) : LoopEnds body b s r := by
  induction n generalizing b s with
  | zero => cases h
  | succ n ih =>
    rw [loopUpTo] at h
    split at h
    next b' s' hb => exact .again hb (ih h)
    next a s' hb =>
      cases h
      exact .done hb
    next e s' hb =>
      cases h
      exact .error hb

/-- A loop that ends does so after some number of turns. -/
theorem loopEnds_iff {b : β} {s : σ} {r : Except ε α × σ} :
    LoopEnds body b s r ↔ ∃ n, loopUpTo body n b s = some r := by
  constructor
  · intro h
    induction h with
    | again hb _ ih =>
      obtain ⟨n, hn⟩ := ih
      exact ⟨n + 1, by rw [loopUpTo, hb]; exact hn⟩
    | done hb => exact ⟨1, by rw [loopUpTo, hb]⟩
    | error hb => exact ⟨1, by rw [loopUpTo, hb]⟩
  · rintro ⟨n, hn⟩
    exact loopEnds_of_upTo hn

/-- A loop that goes on ends as its next turns do. -/
theorem LoopEnds.of_again {b b' : β} {s s' : σ} {r : Except ε α × σ} (h : LoopEnds body b s r)
    (hb : (body b).run s = (.ok (.again b'), s')) : LoopEnds body b' s' r := by
  cases h with
  | again hb' hrest =>
    rw [hb] at hb'
    cases hb'
    exact hrest
  | done hb' => rw [hb] at hb'; cases hb'
  | error hb' => rw [hb] at hb'; cases hb'

theorem LoopEnds.of_done {b : β} {a : α} {s s' : σ} {r : Except ε α × σ} (h : LoopEnds body b s r)
    (hb : (body b).run s = (.ok (.done a), s')) : r = (.ok a, s') := by
  cases h with
  | again hb' => rw [hb] at hb'; cases hb'
  | done hb' => rw [hb] at hb'; cases hb'; rfl
  | error hb' => rw [hb] at hb'; cases hb'

theorem LoopEnds.of_error {b : β} {e : ε} {s s' : σ} {r : Except ε α × σ} (h : LoopEnds body b s r)
    (hb : (body b).run s = (.error e, s')) : r = (.error e, s') := by
  cases h with
  | again hb' => rw [hb] at hb'; cases hb'
  | done hb' => rw [hb] at hb'; cases hb'
  | error hb' => rw [hb] at hb'; cases hb'; rfl

/-- A loop ends in one way only. -/
theorem LoopEnds.unique {b : β} {s : σ} {r r' : Except ε α × σ} (h : LoopEnds body b s r)
    (h' : LoopEnds body b s r') : r = r' := by
  induction h with
  | again hb _ ih => exact ih (h'.of_again hb)
  | done hb => exact (h'.of_done hb).symm
  | error hb => exact (h'.of_error hb).symm

/-- What one turn has to do for the rule of the loop: keep the invariant with a smaller
measure, or end in the postcondition. -/
def Keeps (I : β → σ → Prop) (μ : β → σ → ℕ) (Q : Except ε α × σ → Prop) (b : β) (s : σ) :
    Except ε (Turn β α) × σ → Prop
  | (.ok (.again b'), s') => I b' s' ∧ μ b' s' < μ b s
  | (.ok (.done a), s') => Q (.ok a, s')
  | (.error e, s') => Q (.error e, s')

/-- The rule of the loop: an invariant with a measure leads to the postcondition. -/
theorem loopEnds_of_keeps {I : β → σ → Prop} {μ : β → σ → ℕ} {Q : Except ε α × σ → Prop}
    (h : ∀ b s, I b s → Keeps I μ Q b s ((body b).run s)) {b : β} {s : σ} (hI : I b s) :
    ∃ r, LoopEnds body b s r ∧ Q r := by
  induction hn : μ b s using Nat.strongRecOn generalizing b s with
  | ind n ih =>
    have hturn := h b s hI
    match hb : (body b).run s with
    | (.ok (.again b'), s') =>
      rw [hb] at hturn
      obtain ⟨r, hr, hQ⟩ := ih _ (hn ▸ hturn.2) hturn.1 rfl
      exact ⟨r, .again hb hr, hQ⟩
    | (.ok (.done a), s') =>
      rw [hb] at hturn
      exact ⟨_, .done hb, hturn⟩
    | (.error e, s') =>
      rw [hb] at hturn
      exact ⟨_, .error hb, hturn⟩

/-- What one turn has to do in a loop that is known to end: keep the invariant, or end in the
postcondition. -/
def Carries (I : β → σ → Prop) (Q : Except ε α × σ → Prop) : Except ε (Turn β α) × σ → Prop
  | (.ok (.again b'), s') => I b' s'
  | (.ok (.done a), s') => Q (.ok a, s')
  | (.error e, s') => Q (.error e, s')

/-- The rule of a loop that is known to end. -/
theorem LoopEnds.of_carries {I : β → σ → Prop} {Q : Except ε α × σ → Prop}
    (h : ∀ b s, I b s → Carries I Q ((body b).run s)) {b : β} {s : σ} {r : Except ε α × σ}
    (hends : LoopEnds body b s r) (hI : I b s) : Q r := by
  induction hends with
  | again hb _ ih =>
    have hturn := h _ _ hI
    rw [hb] at hturn
    exact ih hturn
  | done hb =>
    have hturn := h _ _ hI
    rw [hb] at hturn
    exact hturn
  | error hb =>
    have hturn := h _ _ hI
    rw [hb] at hturn
    exact hturn

/-! ### Loops that always end -/

/-- The loop ends from every local value in every state. -/
def AlwaysEnds (body : β → Prog σ ε (Turn β α)) : Prop := ∀ b s, ∃ r, LoopEnds body b s r

theorem AlwaysEnds.upTo (h : AlwaysEnds body) (b : β) (s : σ) :
    ∃ n, (loopUpTo body n b s).isSome := by
  obtain ⟨r, hr⟩ := h b s
  obtain ⟨n, hn⟩ := loopEnds_iff.mp hr
  exact ⟨n, by rw [hn]; rfl⟩

/-- A loop that always ends, run for as many turns as it needs. -/
def loopToEnd (h : AlwaysEnds body) (b : β) : Prog σ ε α :=
  fun s => (loopUpTo body (Nat.find (h.upTo b s)) b s).get (Nat.find_spec (h.upTo b s))

theorem loopToEnd_ends (h : AlwaysEnds body) (b : β) (s : σ) :
    LoopEnds body b s ((loopToEnd h b).run s) :=
  loopEnds_of_upTo (Option.some_get (Nat.find_spec (h.upTo b s))).symm

end Prog
