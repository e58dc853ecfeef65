import Mathlib.Order.Defs.Unbundled
import Mathlib.Tactic.Common

/-! Programs over an explicit state that end with a value or with an error. The
state is kept on both ends, as in a language where a failed call does not undo
what it already did. A loop is given by the body of one turn and a measure that
every further turn makes smaller, so that it is total and computes. The rules
below are the ones a proof about such a program uses: how a run splits at a
bind, how a loop unfolds by one turn, what a reflexive and transitive relation
between the first and the last state needs, and when two programs over two
state types run in step. -/

/-- A program over the state `σ` with errors `ε` and values `α`. -/
def Prog (σ ε α : Type) := σ → Except ε α × σ

/-- How one turn of a loop ends: another turn with a new local value, or the end of the loop. -/
inductive Turn (β α : Type)
  | again (b : β)
  | done (a : α)

namespace Prog

variable {σ τ ε α β γ : Type}

def run (p : Prog σ ε α) (s : σ) : Except ε α × σ := p s

theorem ext {p q : Prog σ ε α} (h : ∀ s, p.run s = q.run s) : p = q := funext h

instance : Monad (Prog σ ε) where
  pure a := fun s => (.ok a, s)
  bind p f := fun s => match p s with
    | (.ok a, s') => f a s'
    | (.error e, s') => (.error e, s')

/-- Ends with the error `e`. -/
def fail (e : ε) : Prog σ ε α := fun s => (.error e, s)

def get : Prog σ ε σ := fun s => (.ok s, s)

def modify (f : σ → σ) : Prog σ ε Unit := fun s => (.ok (), f s)

/-- An outcome that is already known. -/
def lift (r : Except ε α) : Prog σ ε α := fun s => (r, s)

/-- The same program with its errors translated. -/
def mapError {ε' : Type} (f : ε → ε') (p : Prog σ ε α) : Prog σ ε' α :=
  fun s => ((p s).1.mapError f, (p s).2)

/-- Does something to the state when the program has ended, whatever it ended with. -/
def ensuring (f : σ → σ) (p : Prog σ ε α) : Prog σ ε α := fun s => ((p s).1, f (p s).2)

/-- Ends with the outcome of a program as a value. -/
def attempt (p : Prog σ ε α) : Prog σ ε (Except ε α) := fun s => (.ok (p s).1, (p s).2)

/-- Runs a program on a part of a larger state. -/
def zoom (view : σ → τ) (put : σ → τ → σ) (p : Prog τ ε α) : Prog σ ε α :=
  fun s => ((p (view s)).1, put s (p (view s)).2)

@[simp] theorem run_pure (a : α) (s : σ) : (pure a : Prog σ ε α).run s = (.ok a, s) := rfl

@[simp] theorem run_fail (e : ε) (s : σ) : (fail e : Prog σ ε α).run s = (.error e, s) := rfl

@[simp] theorem run_get (s : σ) : (get : Prog σ ε σ).run s = (.ok s, s) := rfl

@[simp] theorem run_modify (f : σ → σ) (s : σ) :
    (modify f : Prog σ ε Unit).run s = (.ok (), f s) := rfl

@[simp] theorem run_lift (r : Except ε α) (s : σ) : (lift r : Prog σ ε α).run s = (r, s) := rfl

@[simp] theorem run_zoom (view : σ → τ) (put : σ → τ → σ) (p : Prog τ ε α) (s : σ) :
    (zoom view put p).run s = ((p.run (view s)).1, put s (p.run (view s)).2) := rfl

@[simp] theorem run_mapError {ε' : Type} (f : ε → ε') (p : Prog σ ε α) (s : σ) :
    (mapError f p).run s = ((p.run s).1.mapError f, (p.run s).2) := rfl

@[simp] theorem run_ensuring (f : σ → σ) (p : Prog σ ε α) (s : σ) :
    (ensuring f p).run s = ((p.run s).1, f (p.run s).2) := rfl

@[simp] theorem run_attempt (p : Prog σ ε α) (s : σ) :
    (attempt p).run s = (.ok (p.run s).1, (p.run s).2) := rfl

theorem run_bind (p : Prog σ ε α) (f : α → Prog σ ε β) (s : σ) :
    (p >>= f).run s = match p.run s with
      | (.ok a, s') => (f a).run s'
      | (.error e, s') => (.error e, s') := rfl

theorem run_bind_ok {p : Prog σ ε α} {f : α → Prog σ ε β} {s s' : σ} {a : α}
    (h : p.run s = (.ok a, s')) : (p >>= f).run s = (f a).run s' := by
  rw [run_bind, h]

theorem run_bind_error {p : Prog σ ε α} {f : α → Prog σ ε β} {s s' : σ} {e : ε}
    (h : p.run s = (.error e, s')) : (p >>= f).run s = (.error e, s') := by
  rw [run_bind, h]

@[simp] theorem run_bind_get (f : σ → Prog σ ε β) (s : σ) :
    ((get : Prog σ ε σ) >>= f).run s = (f s).run s := rfl

@[simp] theorem run_bind_modify (g : σ → σ) (f : Unit → Prog σ ε β) (s : σ) :
    ((modify g : Prog σ ε Unit) >>= f).run s = (f ()).run (g s) := rfl

@[simp] theorem run_bind_pure (a : α) (f : α → Prog σ ε β) (s : σ) :
    ((pure a : Prog σ ε α) >>= f).run s = (f a).run s := rfl

@[simp] theorem run_bind_fail (e : ε) (f : α → Prog σ ε β) (s : σ) :
    ((fail e : Prog σ ε α) >>= f).run s = (.error e, s) := rfl

/-- What is made of the value at the end leaves the state alone. -/
theorem state_bind_pure (p : Prog σ ε α) (f : α → β) (s : σ) :
    ((p >>= fun a => pure (f a)).run s).2 = (p.run s).2 := by
  rw [run_bind]
  match p.run s with
  | (.ok a, t) => rfl
  | (.error e, t) => rfl

theorem run_bind_assoc (p : Prog σ ε α) (f : α → Prog σ ε β) (g : β → Prog σ ε γ) (s : σ) :
    (p >>= fun a => f a >>= g).run s = ((p >>= f) >>= g).run s := by
  rw [run_bind, run_bind, run_bind]
  match p.run s with
  | (.ok a, s') => rfl
  | (.error e, s') => rfl

/-- A bind that ends with a value went through a value of its first part. -/
theorem bind_eq_ok {p : Prog σ ε α} {f : α → Prog σ ε β} {s s' : σ} {b : β}
    (h : (p >>= f).run s = (.ok b, s')) :
    ∃ a t, p.run s = (.ok a, t) ∧ (f a).run t = (.ok b, s') := by
  rw [run_bind] at h
  match hp : p.run s with
  | (.ok a, t) => exact ⟨a, t, rfl, by rwa [hp] at h⟩
  | (.error e, t) => rw [hp] at h; cases h

/-- A bind that ends with a failure got it from its first part or from its second. -/
theorem bind_eq_error {p : Prog σ ε α} {f : α → Prog σ ε β} {s s' : σ} {e : ε}
    (h : (p >>= f).run s = (.error e, s')) :
    p.run s = (.error e, s') ∨ ∃ a t, p.run s = (.ok a, t) ∧ (f a).run t = (.error e, s') := by
  rw [run_bind] at h
  match hp : p.run s with
  | (.ok a, t) => exact .inr ⟨a, t, rfl, by rwa [hp] at h⟩
  | (.error e, t) =>
    rw [hp] at h
    cases h
    exact .inl rfl

theorem run_ite (c : Prop) [Decidable c] (p q : Prog σ ε α) (s : σ) :
    (if c then p else q).run s = if c then p.run s else q.run s := by
  split <;> rfl

theorem zoom_eq_ok {view : σ → τ} {put : σ → τ → σ} {p : Prog τ ε α} {s s' : σ} {a : α}
    (h : (zoom view put p).run s = (.ok a, s')) :
    ∃ t, p.run (view s) = (.ok a, t) ∧ s' = put s t := by
  rw [run_zoom, Prod.mk.injEq] at h
  obtain ⟨h1, rfl⟩ := h
  exact ⟨_, Prod.ext h1 rfl, rfl⟩

/-! ### Loops -/

section Loop

variable {μ : β → σ → ℕ} {body : β → Prog σ ε (Turn β α)}

/-- Every turn that asks for another one makes the measure smaller. -/
def Decreases (μ : β → σ → ℕ) (body : β → Prog σ ε (Turn β α)) : Prop :=
  ∀ b b' s s', (body b).run s = (.ok (.again b'), s') → μ b' s' < μ b s

/-- The loop with a bound on its turns that the measure keeps from running out. -/
def loopFrom (h : Decreases μ body) :
    (n : ℕ) → (b : β) → (s : σ) → μ b s < n → Except ε α × σ
  | 0, _, _, hn => absurd hn (Nat.not_lt_zero _)
  | n + 1, b, s, hn => match hb : (body b).run s with
    | (.ok (.again b'), s') => loopFrom h n b' s' (by have := h b b' s s' hb; omega)
    | (.ok (.done a), s') => (.ok a, s')
    | (.error e, s') => (.error e, s')

/-- Repeats `body` from the local value `b` until a turn is done or fails. -/
def loop (h : Decreases μ body) (b : β) : Prog σ ε α :=
  fun s => loopFrom h (μ b s + 1) b s (Nat.lt_succ_self _)

theorem loopFrom_bound (h : Decreases μ body) (n m : ℕ) (b : β) (s : σ)
    (hn : μ b s < n) (hm : μ b s < m) : loopFrom h n b s hn = loopFrom h m b s hm := by
  induction n generalizing m b s with
  | zero => exact absurd hn (Nat.not_lt_zero _)
  | succ n ih =>
    obtain ⟨m, rfl⟩ : ∃ k, m = k + 1 := ⟨m - 1, by omega⟩
    simp only [loopFrom]
    split
    · exact ih _ _ _ _ _
    · rfl
    · rfl

theorem loop_again (h : Decreases μ body) {b b' : β} {s s' : σ}
    (hb : (body b).run s = (.ok (.again b'), s')) : (loop h b).run s = (loop h b').run s' := by
  show loopFrom h (μ b s + 1) b s (Nat.lt_succ_self _) = _
  simp only [loopFrom]
  split <;> rename_i hb' <;> rw [hb, Prod.mk.injEq] at hb' <;> obtain ⟨he, rfl⟩ := hb' <;> cases he
  exact loopFrom_bound h _ _ _ _ _ _

theorem loop_done (h : Decreases μ body) {b : β} {a : α} {s s' : σ}
    (hb : (body b).run s = (.ok (.done a), s')) : (loop h b).run s = (.ok a, s') := by
  show loopFrom h (μ b s + 1) b s (Nat.lt_succ_self _) = _
  simp only [loopFrom]
  split <;> rename_i hb' <;> rw [hb, Prod.mk.injEq] at hb' <;> obtain ⟨he, rfl⟩ := hb' <;> cases he
  rfl

theorem loop_error (h : Decreases μ body) {b : β} {e : ε} {s s' : σ}
    (hb : (body b).run s = (.error e, s')) : (loop h b).run s = (.error e, s') := by
  show loopFrom h (μ b s + 1) b s (Nat.lt_succ_self _) = _
  simp only [loopFrom]
  split <;> rename_i hb' <;> rw [hb, Prod.mk.injEq] at hb' <;> obtain ⟨he, rfl⟩ := hb' <;> cases he
  rfl

/-- A loop is its first turn, then the loop again where that turn asks for it. -/
theorem run_loop (h : Decreases μ body) (b : β) (s : σ) :
    (loop h b).run s = match (body b).run s with
      | (.ok (.again b'), s') => (loop h b').run s'
      | (.ok (.done a), s') => (.ok a, s')
      | (.error e, s') => (.error e, s') := by
  match hb : (body b).run s with
  | (.ok (.again b'), s') => exact loop_again h hb
  | (.ok (.done a), s') => exact loop_done h hb
  | (.error e, s') => exact loop_error h hb

/-- The induction rule of a loop: what every turn passes back from the turn after it,
and every last turn establishes, holds of the whole run. -/
theorem loop_induct (h : Decreases μ body) {P : β → σ → Except ε α × σ → Prop}
    (again : ∀ b b' s s' r, (body b).run s = (.ok (.again b'), s') → P b' s' r → P b s r)
    (done : ∀ b a s s', (body b).run s = (.ok (.done a), s') → P b s (.ok a, s'))
    (error : ∀ b e s s', (body b).run s = (.error e, s') → P b s (.error e, s'))
    (b : β) (s : σ) : P b s ((loop h b).run s) := by
  induction hn : μ b s using Nat.strongRecOn generalizing b s with
  | ind n ih =>
    rw [run_loop]
    split
    next b' s' hb => exact again b b' s s' _ hb (ih _ (hn ▸ h b b' s s' hb) b' s' rfl)
    next a s' hb => exact done b a s s' hb
    next e s' hb => exact error b e s s' hb

end Loop

/-! ### Relations between the first and the last state -/

/-- Every run of `p`, failed or not, leads from its first to its last state along `R`. -/
def Steps (R : σ → σ → Prop) (p : Prog σ ε α) : Prop := ∀ s, R s (p.run s).2

namespace Steps

variable {R : σ → σ → Prop}

theorem modify {f : σ → σ} (h : ∀ s, R s (f s)) : Steps R (modify f : Prog σ ε Unit) := h

theorem ite {c : Prop} [Decidable c] {p q : Prog σ ε α} (hp : Steps R p) (hq : Steps R q) :
    Steps R (if c then p else q) := by
  split <;> assumption

theorem mono {R' : σ → σ → Prop} {p : Prog σ ε α} (hp : Steps R p) (h : ∀ s t, R s t → R' s t) :
    Steps R' p := fun s => h s _ (hp s)

theorem zoom {R' : τ → τ → Prop} {view : σ → τ} {put : σ → τ → σ} {p : Prog τ ε α} (hp : Steps R' p)
    (h : ∀ s t, R' (view s) t → R s (put s t)) : Steps R (zoom view put p) := fun s => h s _ (hp (view s))

theorem attempt {p : Prog σ ε α} (hp : Steps R p) : Steps R (attempt p) := hp

section Refl
variable [Std.Refl R]

theorem pure (a : α) : Steps R (pure a : Prog σ ε α) := fun s => refl_of R s

theorem fail (e : ε) : Steps R (fail e : Prog σ ε α) := fun s => refl_of R s

theorem get : Steps R (get : Prog σ ε σ) := fun s => refl_of R s

theorem lift (r : Except ε α) : Steps R (lift r : Prog σ ε α) := fun s => refl_of R s

end Refl

section Trans
variable [IsTrans σ R]

/-- A bind whose second part may use what the first part ended with. -/
theorem bind_run {p : Prog σ ε α} {f : α → Prog σ ε β} (hp : Steps R p)
    (hf : ∀ a s s', p.run s = (.ok a, s') → R s' ((f a).run s').2) : Steps R (p >>= f) := by
  intro s
  have h := hp s
  rw [run_bind]
  match hs : p.run s with
  | (.ok a, s') => rw [hs] at h; exact trans_of R h (hf a s s' hs)
  | (.error e, s') => rw [hs] at h; exact h

theorem bind {p : Prog σ ε α} {f : α → Prog σ ε β} (hp : Steps R p) (hf : ∀ a, Steps R (f a)) :
    Steps R (p >>= f) := bind_run hp fun a _ s' _ => hf a s'

theorem ensuring {f : σ → σ} {p : Prog σ ε α} (hp : Steps R p) (hf : ∀ s, R s (f s)) :
    Steps R (ensuring f p) := fun s => trans_of R (hp s) (hf _)

theorem loop {μ : β → σ → ℕ} {body : β → Prog σ ε (Turn β α)} (h : Decreases μ body)
    (hb : ∀ b, Steps R (body b)) (b : β) : Steps R (Prog.loop h b) := by
  intro s
  refine loop_induct h (P := fun _ s r => R s r.2) ?_ ?_ ?_ b s
  · intro b b' s s' r hrun hr
    have := hb b s
    rw [hrun] at this
    exact trans_of R this hr
  · intro b a s s' hrun
    have := hb b s
    rwa [hrun] at this
  · intro b e s s' hrun
    have := hb b s
    rwa [hrun] at this

end Trans

end Steps

/-! ### Two programs in step -/

/-- Two runs that end with the same value or the same error, in related states. -/
inductive EndsAlike (R : σ → τ → Prop) : Except ε α × σ → Except ε α × τ → Prop
  | ok (a : α) {s : σ} {t : τ} : R s t → EndsAlike R (.ok a, s) (.ok a, t)
  | error (e : ε) {s : σ} {t : τ} : R s t → EndsAlike R (.error e, s) (.error e, t)

theorem EndsAlike.bind {R : σ → τ → Prop} {p : Prog σ ε α} {q : Prog τ ε α} {f : α → Prog σ ε β}
    {g : α → Prog τ ε β} {s : σ} {t : τ} (hp : EndsAlike R (p.run s) (q.run t))
    (hf : ∀ a s t, R s t → EndsAlike R ((f a).run s) ((g a).run t)) :
    EndsAlike R ((p >>= f).run s) ((q >>= g).run t) := by
  rw [run_bind, run_bind]
  match p.run s, q.run t, hp with
  | _, _, .ok a h => exact hf a _ _ h
  | _, _, .error e h => exact .error e h

/-- What is done to the states at the end keeps the ends alike. -/
theorem EndsAlike.map {R : σ → τ → Prop} {σ' τ' : Type} {R' : σ' → τ' → Prop} {f : σ → σ'} {g : τ → τ'}
    {r : Except ε α × σ} {r' : Except ε α × τ} (h : EndsAlike R r r') (hmap : ∀ s t, R s t → R' (f s) (g t)) :
    EndsAlike R' (r.1, f r.2) (r'.1, g r'.2) := by
  cases h with
  | ok a h => exact .ok a (hmap _ _ h)
  | error e h => exact .error e (hmap _ _ h)

theorem EndsAlike.zoom {R : σ → τ → Prop} {σ' τ' : Type} {R' : σ' → τ' → Prop} {view : σ → σ'}
    {put : σ → σ' → σ} {view' : τ → τ'} {put' : τ → τ' → τ} {p : Prog σ' ε α} {q : Prog τ' ε α} {s : σ} {t : τ}
    (hp : EndsAlike R' (p.run (view s)) (q.run (view' t)))
    (hput : ∀ a b, R' a b → R (put s a) (put' t b)) :
    EndsAlike R ((zoom view put p).run s) ((zoom view' put' q).run t) := hp.map hput

theorem EndsAlike.result {R : σ → τ → Prop} {r : Except ε α × σ} {r' : Except ε α × τ}
    (h : EndsAlike R r r') : r.1 = r'.1 := by
  cases h <;> rfl

theorem EndsAlike.state {R : σ → τ → Prop} {r : Except ε α × σ} {r' : Except ε α × τ}
    (h : EndsAlike R r r') : R r.2 r'.2 := by
  cases h <;> assumption

/-- From related states the two programs end alike. -/
def InStep (R : σ → τ → Prop) (p : Prog σ ε α) (q : Prog τ ε α) : Prop :=
  ∀ s t, R s t → EndsAlike R (p.run s) (q.run t)

namespace InStep

variable {R : σ → τ → Prop}

theorem pure (a : α) : InStep R (pure a : Prog σ ε α) (pure a : Prog τ ε α) :=
  fun _ _ h => .ok a h

theorem fail (e : ε) : InStep R (fail e : Prog σ ε α) (fail e : Prog τ ε α) :=
  fun _ _ h => .error e h

theorem lift (r : Except ε α) : InStep R (lift r : Prog σ ε α) (lift r : Prog τ ε α) := by
  cases r with
  | ok a => exact fun _ _ h => .ok a h
  | error e => exact fun _ _ h => .error e h

theorem modify {f : σ → σ} {g : τ → τ} (h : ∀ s t, R s t → R (f s) (g t)) :
    InStep R (modify f : Prog σ ε Unit) (modify g : Prog τ ε Unit) :=
  fun s t hR => .ok () (h s t hR)

theorem ensuring {f : σ → σ} {g : τ → τ} {p : Prog σ ε α} {q : Prog τ ε α} (hp : InStep R p q)
    (h : ∀ s t, R s t → R (f s) (g t)) : InStep R (ensuring f p) (ensuring g q) :=
  fun s t hR => (hp s t hR).map h

theorem get_bind {f : σ → Prog σ ε α} {g : τ → Prog τ ε α}
    (h : ∀ s t, R s t → InStep R (f s) (g t)) :
    InStep R ((get : Prog σ ε σ) >>= f) ((get : Prog τ ε τ) >>= g) :=
  fun s t hR => h s t hR s t hR

theorem bind {p : Prog σ ε α} {q : Prog τ ε α} {f : α → Prog σ ε β} {g : α → Prog τ ε β}
    (hp : InStep R p q) (hf : ∀ a, InStep R (f a) (g a)) : InStep R (p >>= f) (q >>= g) :=
  fun s t hR => (hp s t hR).bind hf

theorem ite {c d : Prop} [Decidable c] [Decidable d] {p p' : Prog σ ε α} {q q' : Prog τ ε α}
    (hcd : c ↔ d) (hp : InStep R p q) (hq : InStep R p' q') :
    InStep R (if c then p else p') (if d then q else q') := by
  by_cases h : c
  · rwa [if_pos h, if_pos (hcd.mp h)]
  · rwa [if_neg h, if_neg fun h' => h (hcd.mpr h')]

theorem loop {μ : β → σ → ℕ} {ν : β → τ → ℕ} {body : β → Prog σ ε (Turn β α)}
    {body' : β → Prog τ ε (Turn β α)} (h : Decreases μ body) (h' : Decreases ν body')
    (hb : ∀ b, InStep R (body b) (body' b)) (b : β) :
    InStep R (Prog.loop h b) (Prog.loop h' b) := by
  intro s t hR
  refine loop_induct h (P := fun b s r => ∀ t, R s t → EndsAlike R r ((Prog.loop h' b).run t))
    ?_ ?_ ?_ b s t hR
  · intro b b' s s' r hrun ih t hR
    have hturn := hb b s t hR
    rw [hrun] at hturn
    rw [run_loop]
    match (body' b).run t, hturn with
    | _, .ok _ hR' => exact ih _ hR'
  · intro b a s s' hrun t hR
    have hturn := hb b s t hR
    rw [hrun] at hturn
    rw [run_loop]
    match (body' b).run t, hturn with
    | _, .ok _ hR' => exact .ok a hR'
  · intro b e s s' hrun t hR
    have hturn := hb b s t hR
    rw [hrun] at hturn
    rw [run_loop]
    match (body' b).run t, hturn with
    | _, .error _ hR' => exact .error e hR'

end InStep

end Prog
