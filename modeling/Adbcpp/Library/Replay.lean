import Mathlib.Algebra.Group.Basic
import Adbcpp.Library.Prog

/-! Replaying a program on a script. A concrete state takes what it meets from outside; an
abstract one takes it from a tape that says beforehand what will be met. How much of
the tape a program uses up is known only when it has run, so that a replay finds the
tape behind the run: whatever follows on it is left for the programs behind. The label
of a step says what the tape has to do with the states at its ends, on both sides. -/

namespace Prog

/-- How states over the outside world are replayed on states with a tape. -/
structure Replay (σ τ T : Type) [Monoid T] where
  /-- The abstract state with another tape. -/
  load : τ → T → τ
  Rel : σ → τ → Prop
  Label : σ → τ → T → σ → τ → Prop
  label_one : ∀ s t, Label s t 1 s t
  label_mul : ∀ {s s' s'' t t' t'' v w}, Label s t v s' t' → Label s' t' w s'' t'' → Label s t (v * w) s'' t''

namespace Replay

variable {σ τ T ε α β : Type} [Monoid T] {A : Replay σ τ T}

/-- Every run of `p` is the run of `q` on some tape, from related states to related states. -/
def Replays (A : Replay σ τ T) (p : Prog σ ε α) (q : Prog τ ε α) : Prop :=
  ∀ s t, A.Rel s t → ∃ w t', A.Label s t w (p.run s).2 t' ∧ A.Rel (p.run s).2 t' ∧
    ∀ more, q.run (A.load t (w * more)) = ((p.run s).1, A.load t' more)

namespace Replays

/-- A step that uses up nothing of the tape. -/
theorem of_idle {p : Prog σ ε α} {q : Prog τ ε α} (h : ∀ s t, A.Rel s t → ∃ t', A.Label s t 1 (p.run s).2 t' ∧
    A.Rel (p.run s).2 t' ∧ ∀ more, q.run (A.load t more) = ((p.run s).1, A.load t' more)) :
    A.Replays p q := by
  intro s t hR
  obtain ⟨t', hlabel, hR', hrun⟩ := h s t hR
  refine ⟨1, t', hlabel, hR', fun more => ?_⟩
  rw [one_mul, hrun]

/-- Programs that behave, from states that are met, like programs that are replayed. -/
theorem of_runs {p : Prog σ ε α} {q : Prog τ ε α} (h : ∀ s t, A.Rel s t → ∃ p' q', A.Replays p' q' ∧
    p.run s = p'.run s ∧ ∀ w, q.run (A.load t w) = q'.run (A.load t w)) : A.Replays p q := by
  intro s t hR
  obtain ⟨p', q', hreplays, hp, hq⟩ := h s t hR
  obtain ⟨w, t', hlabel, hR', hrun⟩ := hreplays s t hR
  rw [hp]
  refine ⟨w, t', hlabel, hR', fun more => ?_⟩
  rw [hq, hrun]

theorem pure (a : α) : A.Replays (pure a : Prog σ ε α) (pure a : Prog τ ε α) :=
  of_idle fun s t hR => ⟨t, A.label_one s t, hR, fun _ => rfl⟩

theorem fail (e : ε) : A.Replays (fail e : Prog σ ε α) (fail e : Prog τ ε α) :=
  of_idle fun s t hR => ⟨t, A.label_one s t, hR, fun _ => rfl⟩

theorem lift (r : Except ε α) : A.Replays (lift r : Prog σ ε α) (lift r : Prog τ ε α) :=
  of_idle fun s t hR => ⟨t, A.label_one s t, hR, fun _ => rfl⟩

theorem bind {p : Prog σ ε α} {q : Prog τ ε α} {f : α → Prog σ ε β} {g : α → Prog τ ε β}
    (hp : A.Replays p q) (hf : ∀ a, A.Replays (f a) (g a)) : A.Replays (p >>= f) (q >>= g) := by
  intro s t hR
  obtain ⟨w, t', hlabel, hR', hrun⟩ := hp s t hR
  rw [run_bind]
  match hs : p.run s with
  | (.error e, s') =>
    rw [hs] at hlabel hR' hrun
    exact ⟨w, t', hlabel, hR', fun more => run_bind_error (hrun more)⟩
  | (.ok a, s') =>
    rw [hs] at hlabel hR' hrun
    obtain ⟨v, u, hlabel', hR'', hrun'⟩ := hf a s' t' hR'
    refine ⟨w * v, u, A.label_mul hlabel hlabel', hR'', fun more => ?_⟩
    rw [mul_assoc, run_bind_ok (hrun _), hrun']

/-- What is looked at in the states may be no part of the tape. -/
theorem get_bind {f : σ → Prog σ ε α} {g : τ → Prog τ ε α} (hg : ∀ t w, g (A.load t w) = g t)
    (h : ∀ s t, A.Rel s t → A.Replays (f s) (g t)) :
    A.Replays ((get : Prog σ ε σ) >>= f) ((get : Prog τ ε τ) >>= g) := by
  intro s t hR
  obtain ⟨w, t', hlabel, hR', hrun⟩ := h s t hR s t hR
  refine ⟨w, t', hlabel, hR', fun more => ?_⟩
  rw [run_bind_get, hg, hrun]
  rfl

theorem modify {f : σ → σ} {g : τ → τ} (hload : ∀ t w, g (A.load t w) = A.load (g t) w)
    (h : ∀ s t, A.Rel s t → A.Label s t 1 (f s) (g t) ∧ A.Rel (f s) (g t)) :
    A.Replays (modify f : Prog σ ε Unit) (modify g : Prog τ ε Unit) := by
  refine of_idle fun s t hR => ⟨g t, (h s t hR).1, (h s t hR).2, fun more => ?_⟩
  rw [run_modify, hload]
  rfl

theorem ite {c : Prop} [Decidable c] {p p' : Prog σ ε α} {q q' : Prog τ ε α} (hp : A.Replays p q)
    (hq : A.Replays p' q') : A.Replays (if c then p else p') (if c then q else q') := by
  split <;> assumption

/-- What is done at the end is a program of its own, of which only the state is kept. -/
theorem ensuring {ε' γ : Type} {f : σ → σ} {g : τ → τ} {p : Prog σ ε α} {q : Prog τ ε α} {c : Prog σ ε' γ}
    {d : Prog τ ε' γ} (hp : A.Replays p q) (hc : A.Replays c d) (hf : ∀ s, f s = (c.run s).2)
    (hg : ∀ t, g t = (d.run t).2) : A.Replays (ensuring f p) (ensuring g q) := by
  intro s t hR
  obtain ⟨w, t', hlabel, hR', hrun⟩ := hp s t hR
  obtain ⟨v, u, hlabel', hR'', hrun'⟩ := hc _ _ hR'
  refine ⟨w * v, u, ?_, ?_, fun more => ?_⟩
  · rw [run_ensuring, hf]
    exact A.label_mul hlabel hlabel'
  · rw [run_ensuring, hf]
    exact hR''
  · rw [run_ensuring, mul_assoc, hrun, hg, hrun']
    rfl

theorem attempt {p : Prog σ ε α} {q : Prog τ ε α} (hp : A.Replays p q) :
    A.Replays (attempt p) (attempt q) := by
  intro s t hR
  obtain ⟨w, t', hlabel, hR', hrun⟩ := hp s t hR
  refine ⟨w, t', hlabel, hR', fun more => ?_⟩
  rw [run_attempt, hrun]
  rfl

/-- A loop is replayed turn by turn. The two loops may end for different reasons. -/
theorem loop {μ : β → σ → ℕ} {ν : β → τ → ℕ} {body : β → Prog σ ε (Turn β α)}
    {body' : β → Prog τ ε (Turn β α)} (h : Decreases μ body) (h' : Decreases ν body')
    (hb : ∀ b, A.Replays (body b) (body' b)) (b : β) : A.Replays (Prog.loop h b) (Prog.loop h' b) := by
  intro s t hR
  refine loop_induct h (P := fun b s r => ∀ t, A.Rel s t → ∃ w t', A.Label s t w r.2 t' ∧ A.Rel r.2 t' ∧
    ∀ more, (Prog.loop h' b).run (A.load t (w * more)) = (r.1, A.load t' more)) ?_ ?_ ?_ b s t hR
  · intro b b' s s' r hrun ih t hR
    obtain ⟨w, t', hlabel, hR', hturn⟩ := hb b s t hR
    rw [hrun] at hlabel hR' hturn
    obtain ⟨v, u, hlabel', hR'', hrest⟩ := ih t' hR'
    refine ⟨w * v, u, A.label_mul hlabel hlabel', hR'', fun more => ?_⟩
    rw [mul_assoc, loop_again h' (hturn _), hrest]
  · intro b a s s' hrun t hR
    obtain ⟨w, t', hlabel, hR', hturn⟩ := hb b s t hR
    rw [hrun] at hlabel hR' hturn
    exact ⟨w, t', hlabel, hR', fun more => loop_done h' (hturn more)⟩
  · intro b e s s' hrun t hR
    obtain ⟨w, t', hlabel, hR', hturn⟩ := hb b s t hR
    rw [hrun] at hlabel hR' hturn
    exact ⟨w, t', hlabel, hR', fun more => loop_error h' (hturn more)⟩

/-- The run on a tape that holds just what the run uses up. -/
theorem exists_tape {p : Prog σ ε α} {q : Prog τ ε α} (h : A.Replays p q) {s : σ} {t : τ} (hR : A.Rel s t) :
    ∃ w t', A.Label s t w (p.run s).2 t' ∧ A.Rel (p.run s).2 t' ∧
      q.run (A.load t w) = ((p.run s).1, A.load t' 1) := by
  obtain ⟨w, t', hlabel, hR', hrun⟩ := h s t hR
  refine ⟨w, t', hlabel, hR', ?_⟩
  rw [← hrun 1, mul_one]

end Replays

end Replay

/-! ### Parts of a state -/

/-- A part of a state, and what there is besides it. -/
structure Part (σ σ' C : Type) where
  view : σ → σ'
  put : σ → σ' → σ
  rest : σ → C
  view_put : ∀ s x, view (put s x) = x
  rest_put : ∀ s x, rest (put s x) = rest s
  put_put : ∀ s x y, put (put s x) y = put s y

namespace Replay

variable {σ σ' τ τ' C T ε α : Type} [Monoid T]

/-- A program on another state, which is made from the state at its beginning and taken back at its end. -/
theorem Replays.zoom {A : Replay σ τ T} {B : Replay σ' τ' T} {view : σ → σ'} {put : σ → σ' → σ} {view' : τ → τ'}
    {put' : τ → τ' → τ} {p : Prog σ' ε α} {q : Prog τ' ε α} (hp : B.Replays p q)
    (hview : ∀ s t, A.Rel s t → B.Rel (view s) (view' t))
    (hput : ∀ s t s' t', A.Rel s t → B.Rel s' t' → A.Rel (put s s') (put' t t'))
    (hlabel : ∀ s t w s' t', B.Label (view s) (view' t) w s' t' → A.Label s t w (put s s') (put' t t'))
    (hload : ∀ t w, view' (A.load t w) = B.load (view' t) w)
    (hload' : ∀ t t' w w', put' (A.load t w) (B.load t' w') = A.load (put' t t') w') :
    A.Replays (Prog.zoom view put p) (Prog.zoom view' put' q) := by
  intro s t hR
  obtain ⟨w, t', hstep, hR', hrun⟩ := hp (view s) (view' t) (hview s t hR)
  refine ⟨w, put' t t', hlabel s t w _ t' hstep, hput s t _ t' hR hR', fun more => ?_⟩
  rw [run_zoom, hload, hrun, hload']
  rfl

variable {A : Replay σ' τ' T} {P : Part σ σ' C} {Q : Part τ τ' C}

/-- States whose parts are replayed, with the same besides. -/
def within (A : Replay σ' τ' T) (P : Part σ σ' C) (Q : Part τ τ' C) : Replay σ τ T where
  load t w := Q.put t (A.load (Q.view t) w)
  Rel s t := A.Rel (P.view s) (Q.view t) ∧ P.rest s = Q.rest t
  Label s t w s' t' := A.Label (P.view s) (Q.view t) w (P.view s') (Q.view t')
  label_one s t := A.label_one (P.view s) (Q.view t)
  label_mul h h' := A.label_mul h h'

/-- A program on the part. -/
theorem Replays.part {p : Prog σ' ε α} {q : Prog τ' ε α} (h : A.Replays p q) :
    (A.within P Q).Replays (Prog.zoom P.view P.put p) (Prog.zoom Q.view Q.put q) := by
  refine h.zoom (fun s t hR => hR.1) ?_ ?_ ?_ ?_
  · intro s t s' t' hR hR'
    refine ⟨?_, ?_⟩
    · rwa [P.view_put, Q.view_put]
    · rw [P.rest_put, Q.rest_put]
      exact hR.2
  · intro s t w s' t' hstep
    show A.Label (P.view s) (Q.view t) w (P.view (P.put s s')) (Q.view (Q.put t t'))
    rwa [P.view_put, Q.view_put]
  · intro t w
    exact Q.view_put t _
  · intro t t' w w'
    show Q.put (Q.put t _) (A.load t' w') = Q.put (Q.put t t') (A.load (Q.view (Q.put t t')) w')
    rw [Q.put_put, Q.put_put, Q.view_put]

end Replay

end Prog
