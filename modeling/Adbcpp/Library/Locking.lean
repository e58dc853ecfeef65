import Mathlib.Logic.Function.Basic
import Mathlib.Logic.Relation
import Mathlib.Tactic.Common

/-! Threads that share a state under one mutex. A thread has a list of things to do. Some of
them are sections that run while the mutex is held, one access to the shared state after
the other, and the others are steps that can be seen from outside. The steps of all
threads interleave. What can be seen is as if every section were a single step, and
somebody can always go on. -/

namespace Locking

variable {ι σ A Event : Type}

/-- What is done while the mutex is held: accesses to the shared state, each of which decides on what
follows, and in the end what the thread is to do next. -/
inductive Section (σ A : Type)
  | done (todo : List A)
  | access (change : σ → σ) (next : σ → Section σ A)

/-- The section as a single step. -/
def Section.run : Section σ A → σ → σ × List A
  | .done todo, s => (s, todo)
  | .access change next, s => (next s).run (change s)

/-- What a thread does about one thing: a section, or a step that can be seen and what comes of it. That
may depend on all that could be seen until then. -/
inductive Work (ι σ A Event : Type)
  | locked (section_ : Section σ A)
  | visible (event : Event) (todo : List (ι × Event) → List A)

structure State (ι σ A Event : Type) where
  shared : σ
  threads : ι → List A
  /-- What could be seen so far. -/
  trace : List (ι × Event) := []

/-- A state in which the mutex may be held by a thread that is somewhere in a section. -/
structure Held (ι σ A Event : Type) extends State ι σ A Event where
  owner : Option (ι × Section σ A) := none

variable [DecidableEq ι] (meaning : A → Work ι σ A Event)

namespace State

/-- The thread has this to do, before what it had to do anyway. -/
def put (s : State ι σ A Event) (i : ι) (todo : List A) : State ι σ A Event :=
  { s with threads := Function.update s.threads i todo }

@[simp] theorem put_trace (s : State ι σ A Event) (i : ι) (todo : List A) : (s.put i todo).trace = s.trace := rfl

@[simp] theorem put_self (s : State ι σ A Event) (i : ι) (todo : List A) : (s.put i todo).threads i = todo := by
  simp only [put, Function.update_self]

theorem put_of_ne (s : State ι σ A Event) {i j : ι} (h : j ≠ i) (todo : List A) :
    (s.put i todo).threads j = s.threads j := by
  simp only [put, Function.update_of_ne h]

/-- Every section is one step. -/
inductive Step (s : State ι σ A Event) : State ι σ A Event → Prop
  | locked {i : ι} {a : A} {rest : List A} {sec : Section σ A} : s.threads i = a :: rest → meaning a = .locked sec →
      Step s { s.put i ((sec.run s.shared).2 ++ rest) with shared := (sec.run s.shared).1 }
  | visible {i : ι} {a : A} {rest : List A} {todo : List (ι × Event) → List A} {e : Event} :
      s.threads i = a :: rest → meaning a = .visible e todo →
      Step s { s.put i (todo (s.trace ++ [(i, e)]) ++ rest) with trace := s.trace ++ [(i, e)] }

end State

namespace Held

/-- Every access is one step. -/
inductive Step (s : Held ι σ A Event) : Held ι σ A Event → Prop
  | enter {i : ι} {a : A} {rest : List A} {sec : Section σ A} : s.owner = none → s.threads i = a :: rest →
      meaning a = .locked sec → Step s { toState := s.put i rest, owner := some (i, sec) }
  | access {i : ι} {change : σ → σ} {next : σ → Section σ A} : s.owner = some (i, .access change next) →
      Step s { s with shared := change s.shared, owner := some (i, next s.shared) }
  | leave {i : ι} {todo : List A} : s.owner = some (i, .done todo) →
      Step s { toState := s.put i (todo ++ s.threads i), owner := none }
  | visible {i : ι} {a : A} {rest : List A} {todo : List (ι × Event) → List A} {e : Event} :
      (∀ sec, s.owner ≠ some (i, sec)) → s.threads i = a :: rest → meaning a = .visible e todo →
      Step s
        { toState := { s.put i (todo (s.trace ++ [(i, e)]) ++ rest) with trace := s.trace ++ [(i, e)] }
          owner := s.owner }

/-- The state with the section that is under way at its end. -/
def settle (s : Held ι σ A Event) : State ι σ A Event :=
  match s.owner with
  | none => s.toState
  | some (i, sec) =>
    { s.put i ((sec.run s.shared).2 ++ s.threads i) with shared := (sec.run s.shared).1 }

@[simp] theorem settle_trace (s : Held ι σ A Event) : s.settle.trace = s.trace := by
  unfold settle
  split <;> rfl

theorem settle_free {s : Held ι σ A Event} (h : s.owner = none) : s.settle = s.toState := by
  rw [settle, h]

theorem settle_owned {s : Held ι σ A Event} {i : ι} {sec : Section σ A} (h : s.owner = some (i, sec)) :
    s.settle = { s.put i ((sec.run s.shared).2 ++ s.threads i) with shared := (sec.run s.shared).1 } := by
  rw [settle, h]

/-- A step is nothing to the settled state, or one step of it. -/
theorem step_settle {s t : Held ι σ A Event} (h : Step meaning s t) :
    t.settle = s.settle ∨ State.Step meaning s.settle t.settle := by
  cases h with
  | @enter i a rest sec hfree hthread hmeaning =>
    right
    rw [settle_free hfree, settle_owned rfl]
    have hstep : State.Step meaning s.toState _ := .locked hthread hmeaning
    simpa [State.put] using hstep
  | access howner =>
    left
    rw [settle_owned howner, settle_owned rfl]
    rfl
  | leave howner =>
    left
    rw [settle_owned howner, settle_free rfl]
    rfl
  | @visible i a rest todo e hother hthread hmeaning =>
    right
    match howner : s.owner with
    | none =>
      rw [settle_free howner, settle_free rfl]
      exact .visible hthread hmeaning
    | some (j, sec) =>
      have hne : i ≠ j := by
        rintro rfl
        exact hother sec howner
      have hsettled : s.settle.threads i = a :: rest := by
        rw [settle_owned howner]
        exact (s.put_of_ne hne _).trans hthread
      have hstep : State.Step meaning s.settle _ := .visible hsettled hmeaning
      rw [settle_owned howner] at hstep ⊢
      rw [settle_owned rfl]
      simp only [State.put, Function.update_of_ne hne.symm] at hstep ⊢
      rwa [Function.update_comm hne]

theorem run_settle {s t : Held ι σ A Event} (h : Relation.ReflTransGen (Step meaning) s t) :
    Relation.ReflTransGen (State.Step meaning) s.settle t.settle := by
  induction h with
  | refl => exact .refl
  | tail _ hstep ih =>
    rcases step_settle meaning hstep with heq | hnext
    · rwa [heq]
    · exact ih.tail hnext

/-- A section that has been entered gets to its end. -/
theorem run_section (i : ι) (sec : Section σ A) (s : Held ι σ A Event) (h : s.owner = some (i, sec)) :
    Relation.ReflTransGen (Step meaning) s { toState := s.settle, owner := none } := by
  induction sec generalizing s with
  | done todo =>
    rw [settle_owned h]
    exact .single (.leave h)
  | access change next ih =>
    have hnext := ih s.shared { s with shared := change s.shared, owner := some (i, next s.shared) } rfl
    rw [settle_owned rfl] at hnext
    rw [settle_owned h]
    exact .head (.access h) hnext

/-- A step of whole sections is a run of accesses. -/
theorem run_of_step {s t : State ι σ A Event} (h : State.Step meaning s t) :
    Relation.ReflTransGen (Step meaning) { toState := s } { toState := t } := by
  cases h with
  | @locked i a rest sec hthread hmeaning =>
    have henter := Step.enter (s := { toState := s }) rfl hthread hmeaning
    have hrun := run_section meaning i sec { toState := s.put i rest, owner := some (i, sec) } rfl
    rw [settle_owned rfl] at hrun
    simp only [State.put, Function.update_self, Function.update_idem] at hrun
    exact .head henter hrun
  | visible hthread hmeaning => exact .single (.visible (fun _ h => nomatch h) hthread hmeaning)

/-- While nobody holds the mutex, just those states are reached that are reached with whole sections. -/
theorem reaches_iff (s t : State ι σ A Event) :
    Relation.ReflTransGen (Step meaning) { toState := s } { toState := t } ↔
      Relation.ReflTransGen (State.Step meaning) s t := by
  constructor
  · exact fun h => run_settle meaning h
  · intro h
    induction h with
    | refl => exact .refl
    | tail _ hstep ih => exact ih.trans (run_of_step meaning hstep)

/-- Somebody can go on, unless all threads are through. -/
theorem exists_step (s : Held ι σ A Event) (h : s.owner ≠ none ∨ ∃ i, s.threads i ≠ []) : ∃ t, Step meaning s t := by
  match howner : s.owner with
  | some (i, .done todo) => exact ⟨_, .leave howner⟩
  | some (i, .access change next) => exact ⟨_, .access howner⟩
  | none =>
    obtain ⟨i, hi⟩ := h.resolve_left fun hne => hne howner
    obtain ⟨a, rest, hthread⟩ := List.exists_cons_of_ne_nil hi
    cases hmeaning : meaning a with
    | locked sec => exact ⟨_, .enter howner hthread hmeaning⟩
    | visible e todo =>
      refine ⟨_, .visible (fun sec hsec => ?_) hthread hmeaning⟩
      rw [howner] at hsec
      cases hsec

end Held

end Locking
