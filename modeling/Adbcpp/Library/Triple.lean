import Adbcpp.Library.Prog

/-! Pre- and postconditions of programs that end with a value or with an error. There
is one postcondition for the values and one for the errors, and one rule for each way
to build a program. An invariant is the case in which the state keeps one property,
whatever the program ends with. -/

namespace Prog

variable {σ τ ε α β : Type}

/-- What a run ends with: a value and a state with `Q`, or an error and a state with `E`. -/
def Ends (Q : α → σ → Prop) (E : ε → σ → Prop) : Except ε α × σ → Prop
  | (.ok a, s) => Q a s
  | (.error e, s) => E e s

/-- From every state with `P` the program ends with `Q`, or fails with `E`. -/
def Triple (P : σ → Prop) (p : Prog σ ε α) (Q : α → σ → Prop) (E : ε → σ → Prop) : Prop :=
  ∀ s, P s → Ends Q E (p.run s)

/-- What one turn of a loop ends with: the invariant for another turn, or the postcondition. -/
def NextTurn (I : β → σ → Prop) (Q : α → σ → Prop) : Turn β α → σ → Prop
  | .again b => I b
  | .done a => Q a

theorem Ends.mono {Q Q' : α → σ → Prop} {E E' : ε → σ → Prop} {r : Except ε α × σ} (h : Ends Q E r)
    (hQ : ∀ a s, Q a s → Q' a s) (hE : ∀ e s, E e s → E' e s) : Ends Q' E' r := by
  match r with
  | (.ok a, s) => exact hQ a s h
  | (.error e, s) => exact hE e s h

theorem Ends.ok {Q : α → σ → Prop} {E : ε → σ → Prop} {r : Except ε α × σ} {a : α} (h : Ends Q E r)
    (hr : r.1 = .ok a) : Q a r.2 := by
  match r with
  | (.ok a', s) =>
    cases hr
    exact h
  | (.error e, s) => cases hr

theorem Ends.error {Q : α → σ → Prop} {E : ε → σ → Prop} {r : Except ε α × σ} {e : ε} (h : Ends Q E r)
    (hr : r.1 = .error e) : E e r.2 := by
  match r with
  | (.ok a, s) => cases hr
  | (.error e', s) =>
    cases hr
    exact h

namespace Triple

variable {P P' : σ → Prop} {Q Q' : α → σ → Prop} {E E' : ε → σ → Prop}

/-- The rule of consequence. -/
theorem conseq {p : Prog σ ε α} (h : Triple P p Q E) (hP : ∀ s, P' s → P s)
    (hQ : ∀ a s, Q a s → Q' a s) (hE : ∀ e s, E e s → E' e s) : Triple P' p Q' E' :=
  fun s hs => (h s (hP s hs)).mono hQ hE

theorem exists_pre {ι : Type} {I : ι → σ → Prop} {p : Prog σ ε α} (h : ∀ i, Triple (I i) p Q E) :
    Triple (fun s => ∃ i, I i s) p Q E := fun s ⟨i, hs⟩ => h i s hs

theorem and_pre {A : Prop} {p : Prog σ ε α} (h : A → Triple P p Q E) : Triple (fun s => A ∧ P s) p Q E :=
  fun s ⟨hA, hs⟩ => h hA s hs

theorem pure {a : α} (h : ∀ s, P s → Q a s) : Triple P (pure a) Q E := h

theorem fail {e : ε} (h : ∀ s, P s → E e s) : Triple P (fail e : Prog σ ε α) Q E := h

theorem modify {f : σ → σ} {Q : Unit → σ → Prop} (h : ∀ s, P s → Q () (f s)) :
    Triple P (modify f : Prog σ ε Unit) Q E := h

theorem lift {r : Except ε α} (hok : ∀ a s, r = .ok a → P s → Q a s)
    (herror : ∀ e s, r = .error e → P s → E e s) : Triple P (lift r : Prog σ ε α) Q E := by
  intro s hs
  match r with
  | .ok a => exact hok a s rfl hs
  | .error e => exact herror e s rfl hs

/-- The rule of composition: what the first part ends with is where the second one starts. -/
theorem bind {R : β → σ → Prop} {p : Prog σ ε β} {f : β → Prog σ ε α} (hp : Triple P p R E)
    (hf : ∀ b, Triple (R b) (f b) Q E) : Triple P (p >>= f) Q E := by
  intro s hs
  have h := hp s hs
  rw [run_bind]
  match hrun : p.run s with
  | (.ok b, t) =>
    rw [hrun] at h
    exact hf b t h
  | (.error e, t) =>
    rw [hrun] at h
    exact h

/-- Looking at the state first lets the rest of the program use what is known of it. -/
theorem get_bind {f : σ → Prog σ ε α} (h : ∀ t, P t → Triple (fun s => s = t) (f t) Q E) :
    Triple P (Prog.get >>= f) Q E := fun s hs => h s hs s rfl

theorem ite {c : Prop} [Decidable c] {p q : Prog σ ε α} (hp : c → Triple P p Q E)
    (hq : ¬ c → Triple P q Q E) : Triple P (if c then p else q) Q E := by
  split
  next h => exact hp h
  next h => exact hq h

theorem zoom {view : σ → τ} {put : σ → τ → σ} {p : Prog τ ε α} {I : τ → Prop} {J : α → τ → Prop}
    {F : ε → τ → Prop} (h : Triple I p J F) (hview : ∀ s, P s → I (view s))
    (hQ : ∀ s a t, P s → J a t → Q a (put s t)) (hE : ∀ s e t, P s → F e t → E e (put s t)) :
    Triple P (Prog.zoom view put p) Q E := by
  intro s hs
  have hends := h (view s) (hview s hs)
  rw [run_zoom]
  match hrun : p.run (view s) with
  | (.ok a, t) =>
    rw [hrun] at hends
    exact hQ s a t hs hends
  | (.error e, t) =>
    rw [hrun] at hends
    exact hE s e t hs hends

/-- What a program ends with becomes a value. -/
theorem attempt {p : Prog σ ε α} {F : ε → σ → Prop} (h : Triple P p Q E) :
    Triple P (Prog.attempt p) (fun r s => Ends Q E (r, s)) F := fun s hs => h s hs

/-- What is not about the state holds after every program. -/
theorem const {A : Prop} (p : Prog σ ε α) : Triple (fun _ => A) p (fun _ _ => A) fun _ _ => True := by
  intro s hA
  match p.run s with
  | (.ok a, t) => exact hA
  | (.error e, t) => trivial

/-- Only the state at the end is changed by what is done there. -/
theorem ensuring {f : σ → σ} {p : Prog σ ε α} (h : Triple P p (fun a s => Q a (f s)) (fun e s => E e (f s))) :
    Triple P (Prog.ensuring f p) Q E := by
  intro s hs
  have hends := h s hs
  rw [run_ensuring]
  match hrun : p.run s with
  | (.ok a, t) =>
    rw [hrun] at hends
    exact hends
  | (.error e, t) =>
    rw [hrun] at hends
    exact hends

/-- The rule of a loop: every turn keeps the invariant, and the last one establishes the postcondition. -/
theorem loop {μ : β → σ → ℕ} {body : β → Prog σ ε (Turn β α)} (hdec : Decreases μ body) {I : β → σ → Prop}
    (hbody : ∀ b, Triple (I b) (body b) (NextTurn I Q) E) (b : β) : Triple (I b) (Prog.loop hdec b) Q E := by
  intro s hs
  refine loop_induct hdec (P := fun b s r => I b s → Ends Q E r) ?_ ?_ ?_ b s hs
  · intro b b' s t r hrun ih hs
    have h := hbody b s hs
    rw [hrun] at h
    exact ih h
  · intro b a s t hrun hs
    have h := hbody b s hs
    rwa [hrun] at h
  · intro b e s t hrun hs
    have h := hbody b s hs
    rwa [hrun] at h

end Triple

/-! ### Invariants -/

/-- The program keeps `I`, whatever it ends with, and fails with nothing but `E`. -/
def Maintains (I : σ → Prop) (E : ε → Prop) (p : Prog σ ε α) : Prop :=
  Triple I p (fun _ => I) (fun e s => E e ∧ I s)

namespace Maintains

variable {I : σ → Prop} {E : ε → Prop}

theorem mono {E' : ε → Prop} {p : Prog σ ε α} (h : Maintains I E p) (hE : ∀ e, E e → E' e) :
    Maintains I E' p := h.conseq (fun _ hs => hs) (fun _ _ hs => hs) fun e _ he => ⟨hE e he.1, he.2⟩

/-- The invariant holds at the end of a run, whatever it ends with. -/
theorem state {p : Prog σ ε α} (h : Maintains I E p) {s : σ} (hs : I s) : I (p.run s).2 := by
  have hends := h s hs
  match hrun : p.run s with
  | (.ok a, t) =>
    rw [hrun] at hends
    exact hends
  | (.error e, t) =>
    rw [hrun] at hends
    exact hends.2

theorem pure (a : α) : Maintains I E (pure a : Prog σ ε α) := Triple.pure fun _ h => h

theorem fail {e : ε} (h : E e) : Maintains I E (fail e : Prog σ ε α) := Triple.fail fun _ hs => ⟨h, hs⟩

theorem modify {f : σ → σ} (h : ∀ s, I s → I (f s)) : Maintains I E (modify f : Prog σ ε Unit) :=
  Triple.modify h

theorem lift {r : Except ε α} (h : ∀ e, r = .error e → E e) : Maintains I E (lift r : Prog σ ε α) :=
  Triple.lift (fun _ _ _ hs => hs) fun e _ hr hs => ⟨h e hr, hs⟩

theorem bind {p : Prog σ ε β} {f : β → Prog σ ε α} (hp : Maintains I E p) (hf : ∀ b, Maintains I E (f b)) :
    Maintains I E (p >>= f) := Triple.bind hp hf

theorem get_bind {f : σ → Prog σ ε α} (h : ∀ t, I t → Maintains I E (f t)) : Maintains I E (Prog.get >>= f) :=
  Triple.get_bind fun t ht => (h t ht).conseq (fun _ hs => hs ▸ ht) (fun _ _ h => h) fun _ _ h => h

theorem ite {c : Prop} [Decidable c] {p q : Prog σ ε α} (hp : c → Maintains I E p) (hq : ¬ c → Maintains I E q) :
    Maintains I E (if c then p else q) := Triple.ite hp hq

theorem loop {μ : β → σ → ℕ} {body : β → Prog σ ε (Turn β α)} (hdec : Decreases μ body)
    (hbody : ∀ b, Maintains I E (body b)) (b : β) : Maintains I E (Prog.loop hdec b) := by
  refine Triple.loop hdec (I := fun _ => I) (fun b => (hbody b).conseq (fun _ h => h) ?_ fun _ _ h => h) b
  rintro (b' | a) s h <;> exact h

theorem zoom {view : σ → τ} {put : σ → τ → σ} {p : Prog τ ε α} {J : τ → Prop} (hp : Maintains J E p)
    (hview : ∀ s, I s → J (view s)) (hput : ∀ s t, I s → J t → I (put s t)) :
    Maintains I E (Prog.zoom view put p) := by
  refine Triple.zoom hp hview ?_ ?_
  · exact fun s _ t hs ht => hput s t hs ht
  · exact fun s e t hs ht => ⟨ht.1, hput s t hs ht.2⟩

end Maintains

end Prog
