import Adbcpp.Library.Triple

/-! Programs that take notes. A program over some state runs on the same state with notes
beside it, and leaves the notes alone; a program that takes notes is written like one that
does not, with a note wherever there is something to be said. Without its notes it is
that other program. -/

/-- A state with the notes taken so far. -/
structure Noted (σ ω : Type) where
  state : σ
  notes : List ω := []

/-- Without its notes the one state is the other one. -/
def Noted.Shows {σ ω : Type} (m : Noted σ ω) (s : σ) : Prop := m.state = s

namespace Prog

variable {σ ω ε α β : Type}

/-- The program with notes that it leaves alone. -/
def unnoted (p : Prog σ ε α) : Prog (Noted σ ω) ε α :=
  zoom Noted.state (fun m s => { m with state := s }) p

/-- Takes a note. -/
def note (w : ω) : Prog (Noted σ ω) ε Unit := modify fun m => { m with notes := m.notes ++ [w] }

@[simp] theorem run_unnoted (p : Prog σ ε α) (m : Noted σ ω) :
    (unnoted p).run m = ((p.run m.state).1, { m with state := (p.run m.state).2 }) := rfl

@[simp] theorem run_bind_note (w : ω) (f : Unit → Prog (Noted σ ω) ε α) (m : Noted σ ω) :
    (note w >>= f).run m = (f ()).run { m with notes := m.notes ++ [w] } := rfl

@[simp] theorem run_bind_unnoted_get (f : σ → Prog (Noted σ ω) ε α) (m : Noted σ ω) :
    ((unnoted get : Prog (Noted σ ω) ε σ) >>= f).run m = (f m.state).run m := rfl

theorem unnoted_eq {p : Prog σ ε α} {m : Noted σ ω} {r : Except ε α} {s : σ} (h : p.run m.state = (r, s)) :
    (unnoted p).run m = (r, ⟨s, m.notes⟩) := by
  rw [run_unnoted, h]

/-! ### Without the notes -/

namespace InStep

theorem unnoted (p : Prog σ ε α) : InStep (Noted.Shows (ω := ω)) (unnoted p) p := by
  rintro m s rfl
  rw [run_unnoted]
  match p.run m.state with
  | (.ok a, s) => exact .ok a rfl
  | (.error e, s) => exact .error e rfl

theorem note_bind (w : ω) {p : Prog (Noted σ ω) ε α} {q : Prog σ ε α} (h : InStep Noted.Shows p q) :
    InStep Noted.Shows (note w >>= fun _ => p) q := by
  rintro m s rfl
  exact h _ _ rfl

/-- A loop that takes notes has the measure of the loop without them. -/
theorem decreases {μ : β → σ → ℕ} {body : β → Prog (Noted σ ω) ε (Turn β α)} {body' : β → Prog σ ε (Turn β α)}
    (h : ∀ b, InStep Noted.Shows (body b) (body' b)) (hdec : Decreases μ body') :
    Decreases (fun b m => μ b m.state) body := by
  intro b b' m m' hrun
  have hturn := h b m m.state rfl
  rw [hrun] at hturn
  match hrun' : (body' b).run m.state, hturn with
  | (_, _), .ok _ rfl => exact hdec b b' _ _ hrun'

/-- What the program without notes ends with is what the program with them ends with. -/
theorem run_ok {p : Prog (Noted σ ω) ε α} {q : Prog σ ε α} (h : InStep Noted.Shows p q) {m : Noted σ ω} {a : α}
    {s : σ} (hrun : q.run m.state = (.ok a, s)) : ∃ notes, p.run m = (.ok a, ⟨s, notes⟩) := by
  have hends := h m m.state rfl
  rw [hrun] at hends
  match hrun' : p.run m, hends with
  | (_, ⟨_, notes⟩), .ok _ rfl => exact ⟨notes, rfl⟩

end InStep

/-! ### What is noted -/

namespace Triple

variable {P : σ → Prop} {N : List ω → Prop}

/-- What holds of the notes holds after a program that leaves them alone. -/
theorem unnoted {p : Prog σ ε α} {Q : α → σ → Prop} {E : ε → σ → Prop} (h : Triple P p Q E) :
    Triple (fun m : Noted σ ω => P m.state ∧ N m.notes) (unnoted p) (fun a m => Q a m.state ∧ N m.notes)
      fun e m => E e m.state ∧ N m.notes :=
  Triple.zoom h (fun _ hm => hm.1) (fun _ _ _ hm hQ => ⟨hQ, hm.2⟩) fun _ _ _ hm hE => ⟨hE, hm.2⟩

/-- Looking at the state changes nothing. -/
theorem unnoted_get {P : Noted σ ω → Prop} {E : ε → Noted σ ω → Prop} :
    Triple P (Prog.unnoted Prog.get) (fun _ => P) E := fun _ hm => hm

theorem note {w : ω} {Q : Unit → Noted σ ω → Prop} {E : ε → Noted σ ω → Prop} {P : Noted σ ω → Prop}
    (h : ∀ m, P m → Q () { m with notes := m.notes ++ [w] }) : Triple P (note w) Q E := h

end Triple

end Prog
