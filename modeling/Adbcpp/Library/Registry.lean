import Adbcpp.Library.Triple
import Mathlib.Algebra.BigOperators.Group.List.Basic
import Mathlib.Algebra.Order.Group.Multiset
import Mathlib.Data.List.Perm.Basic
import Mathlib.Data.Multiset.Filter
import Mathlib.Data.Multiset.MapFold

/-! Resources that are acquired, used and released. A registry gives out ids and notes what is
held; it marks a misuse when something is used or released that is not held, when a
resource is acquired from one that is not held, and when one is released that another
held one depends on. Who owes what is a multiset of leases, and each operation has its
rule about it. -/

/-- A resource that is held, and the resource that it must not outlive, if any. -/
structure Lease (κ : Type) where
  id : ℕ
  kind : κ
  parent : Option ℕ := none
  deriving DecidableEq, Repr

structure Registry (κ : Type) where
  held : List (Lease κ) := []
  /-- The id of the next resource. -/
  next : ℕ := 0
  misused : Bool := false

namespace Registry

variable {κ ε : Type}

def holds (s : Registry κ) (id : ℕ) : Bool := s.held.any fun l => l.id = id

/-- A resource of this kind, which depends on `parent`. -/
def acquire (kind : κ) (parent : Option ℕ) : Prog (Registry κ) ε ℕ := do
  let s ← Prog.get
  Prog.modify fun s => { s with
    held := ⟨s.next, kind, parent⟩ :: s.held
    next := s.next + 1
    misused := s.misused || parent.any fun p => !s.holds p }
  pure s.next

def use (id : ℕ) : Prog (Registry κ) ε Unit :=
  Prog.modify fun s => { s with misused := s.misused || !s.holds id }

/-- The resources but one. -/
def without (id : ℕ) (s : Registry κ) : List (Lease κ) := s.held.filter fun l => l.id ≠ id

def release (id : ℕ) : Prog (Registry κ) ε Unit :=
  Prog.modify fun s => { s with
    held := s.without id
    misused := s.misused || !s.holds id || (s.without id).any fun l => l.parent = some id }

/-! ### What is owed -/

/-- What these leases depend on is among them. -/
def Tidy (L : Multiset (Lease κ)) : Prop := ∀ l ∈ L, ∀ p, l.parent = some p → ∃ q ∈ L, q.id = p

theorem tidy_zero : Tidy (0 : Multiset (Lease κ)) := fun l h => absurd h (Multiset.notMem_zero l)

theorem Tidy.cons {L : Multiset (Lease κ)} (h : Tidy L) {l : Lease κ}
    (hparent : ∀ p, l.parent = some p → ∃ q ∈ L, q.id = p) : Tidy (l ::ₘ L) := by
  intro q hq p hp
  rcases Multiset.mem_cons.mp hq with rfl | hq
  · obtain ⟨r, hr, hid⟩ := hparent p hp
    exact ⟨r, Multiset.mem_cons_of_mem hr, hid⟩
  · obtain ⟨r, hr, hid⟩ := h q hq p hp
    exact ⟨r, Multiset.mem_cons_of_mem hr, hid⟩

/-- A resource that depends on nothing. -/
theorem Tidy.root {L : Multiset (Lease κ)} (h : Tidy L) (id : ℕ) (kind : κ) : Tidy (⟨id, kind, none⟩ ::ₘ L) :=
  h.cons fun _ hp => (nomatch hp)

/-- A resource that depends on one of the others. -/
theorem Tidy.child {L : Multiset (Lease κ)} (h : Tidy L) {parent : Lease κ} (hparent : parent ∈ L) (id : ℕ) (kind : κ) :
    Tidy (⟨id, kind, some parent.id⟩ ::ₘ L) :=
  h.cons fun _ hp => ⟨parent, hparent, Option.some.inj hp⟩

/-- Just these are held, each under an id of its own, and nothing has been misused. -/
structure Owes (L : Multiset (Lease κ)) (s : Registry κ) : Prop where
  held : (s.held : Multiset (Lease κ)) = L
  proper : s.misused = false
  fresh : ∀ l ∈ L, l.id < s.next
  nodup : (L.map Lease.id).Nodup
  tidy : Tidy L

theorem owes_empty : Owes 0 ({} : Registry κ) :=
  ⟨rfl, rfl, fun l h => absurd h (Multiset.notMem_zero l), Multiset.nodup_zero, tidy_zero⟩

variable {L : Multiset (Lease κ)} {s : Registry κ}

theorem Owes.mem (h : Owes L s) {l : Lease κ} : l ∈ s.held ↔ l ∈ L := by
  rw [← h.held, Multiset.mem_coe]

theorem Owes.holds (h : Owes L s) {l : Lease κ} (hl : l ∈ L) : s.holds l.id = true := by
  rw [Registry.holds, List.any_eq_true]
  exact ⟨l, h.mem.mpr hl, decide_eq_true rfl⟩

/-- Nothing else has the id of a resource that is held. -/
theorem Owes.ne_id {l : Lease κ} (h : Owes (l ::ₘ L) s) {q : Lease κ} (hq : q ∈ L) : q.id ≠ l.id := by
  have hnodup := h.nodup
  rw [Multiset.map_cons, Multiset.nodup_cons] at hnodup
  exact fun heq => hnodup.1 (Multiset.mem_map.mpr ⟨q, hq, heq⟩)

section Rules

variable {α : Type} {Q : α → Registry κ → Prop} {E : ε → Registry κ → Prop}

/-- What is owed is tidy wherever it is owed. -/
theorem tidy_pre {p : Prog (Registry κ) ε α} (h : Tidy L → Prog.Triple (Owes L) p Q E) :
    Prog.Triple (Owes L) p Q E := fun s hs => h hs.tidy s hs

theorem acquire_owes (kind : κ) {parent : Option ℕ} (hparent : ∀ p, parent = some p → ∃ q ∈ L, q.id = p) :
    Prog.Triple (Owes L) (acquire kind parent) (fun id => Owes (⟨id, kind, parent⟩ ::ₘ L)) E := by
  intro s h
  have hproper : (parent.any fun p => !s.holds p) = false := by
    cases parent with
    | none => rfl
    | some p =>
      obtain ⟨q, hq, rfl⟩ := hparent p rfl
      simp [h.holds hq]
  refine ⟨?_, ?_, ?_, ?_, h.tidy.cons hparent⟩
  · show ((⟨s.next, kind, parent⟩ :: s.held : List _) : Multiset (Lease κ)) = _
    rw [← Multiset.cons_coe, h.held]
  · show (s.misused || parent.any fun p => !s.holds p) = false
    rw [h.proper, hproper]
    rfl
  · intro l hl
    rcases Multiset.mem_cons.mp hl with rfl | hl
    · exact Nat.lt_succ_self s.next
    · exact Nat.lt_succ_of_lt (h.fresh l hl)
  · rw [Multiset.map_cons, Multiset.nodup_cons]
    refine ⟨fun hmem => ?_, h.nodup⟩
    obtain ⟨l, hl, hid⟩ := Multiset.mem_map.mp hmem
    exact absurd hid (Nat.ne_of_lt (h.fresh l hl))

/-- A resource that depends on nothing. -/
theorem acquire_root_owes (kind : κ) :
    Prog.Triple (Owes L) (acquire kind none) (fun id => Owes (⟨id, kind, none⟩ ::ₘ L)) E :=
  acquire_owes kind fun _ hp => (nomatch hp)

/-- A resource that depends on one that is held. -/
theorem acquire_child_owes (kind : κ) {parent : Lease κ} (hparent : parent ∈ L) :
    Prog.Triple (Owes L) (acquire kind (some parent.id)) (fun id => Owes (⟨id, kind, some parent.id⟩ ::ₘ L)) E :=
  acquire_owes kind fun _ hp => ⟨parent, hparent, Option.some.inj hp⟩

theorem use_owes {l : Lease κ} (hl : l ∈ L) : Prog.Triple (Owes L) (use l.id) (fun _ => Owes L) E := by
  intro s h
  refine ⟨h.held, ?_, h.fresh, h.nodup, h.tidy⟩
  show (s.misused || !s.holds l.id) = false
  rw [h.proper, h.holds hl]
  rfl

/-- What the others do not depend on can be released. -/
theorem release_owes (l : Lease κ) (hL : Tidy L) :
    Prog.Triple (Owes (l ::ₘ L)) (release l.id) (fun _ => Owes L) E := by
  intro s h
  have hwithout : (s.without l.id : Multiset (Lease κ)) = L := by
    rw [without, ← Multiset.filter_coe, h.held]
    simp only [ne_eq, not_true_eq_false, not_false_eq_true, Multiset.filter_cons_of_neg]
    exact Multiset.filter_eq_self.mpr fun q hq => h.ne_id hq
  have hother : ((s.without l.id).any fun q => q.parent = some l.id) = false := by
    rw [List.any_eq_false]
    intro q hq hparent
    rw [← Multiset.mem_coe, hwithout] at hq
    obtain ⟨r, hr, hid⟩ := hL q hq _ (of_decide_eq_true hparent)
    exact h.ne_id hr hid
  have hnodup := h.nodup
  rw [Multiset.map_cons, Multiset.nodup_cons] at hnodup
  refine ⟨hwithout, ?_, fun q hq => h.fresh q (Multiset.mem_cons_of_mem hq), hnodup.2, hL⟩
  show (s.misused || !s.holds l.id || (s.without l.id).any fun q => q.parent = some l.id) = false
  rw [h.proper, h.holds (Multiset.mem_cons_self l L), hother]
  rfl

/-- What is found out about a value before it is used. -/
theorem known_bind {β : Type} {v : β} {p : Prog (Registry κ) ε β} {f : β → Prog (Registry κ) ε α}
    (hp : Prog.Triple (Owes L) p (fun b s => b = v ∧ Owes L s) E) (hf : Prog.Triple (Owes L) (f v) Q E) :
    Prog.Triple (Owes L) (p >>= f) Q E := by
  refine Prog.Triple.bind hp fun b => Prog.Triple.and_pre fun hb => ?_
  rw [hb]
  exact hf

end Rules

/-! ### Objects -/

section Objects

variable {ω : Type} (leases : ω → Multiset (Lease κ))

/-- What is held through the fields of all of the objects. -/
def owing (objects : List ω) : Multiset (Lease κ) := (objects.map leases).sum

@[simp] theorem owing_cons (x : ω) (objects : List ω) : owing leases (x :: objects) = leases x + owing leases objects := by
  simp only [owing, List.map_cons, List.sum_cons]

theorem owing_perm {objects objects' : List ω} (h : objects.Perm objects') :
    owing leases objects = owing leases objects' := (h.map leases).sum_eq

/-- One of the objects, and the others. -/
theorem owing_erase {objects : List ω} {i : ℕ} {x : ω} (h : objects[i]? = some x) :
    owing leases objects = leases x + owing leases (objects.eraseIdx i) := by
  obtain ⟨hi, rfl⟩ := List.getElem?_eq_some_iff.mp h
  rw [← owing_cons, owing_perm leases (List.getElem_cons_eraseIdx_perm hi)]

theorem owing_set {objects : List ω} {i : ℕ} {x : ω} (h : objects[i]? = some x) (y : ω) :
    owing leases (objects.set i y) = leases y + owing leases (objects.eraseIdx i) := by
  obtain ⟨hi, -⟩ := List.getElem?_eq_some_iff.mp h
  rw [← owing_cons, owing_perm leases (List.set_perm_cons_eraseIdx hi y)]

/-- Every object has all that its own leases depend on. -/
def Rooted : Prop := ∀ x L, Tidy L → Tidy (leases x + L)

theorem owing_tidy (h : Rooted leases) (objects : List ω) : Tidy (owing leases objects) := by
  induction objects with
  | nil => exact tidy_zero
  | cons x rest ih =>
    rw [owing_cons]
    exact h x _ ih

/-- Does something to one of the objects. -/
def change (i : ℕ) (f : ω → Prog (Registry κ) ε ω) (objects : List ω) : Prog (Registry κ) ε (List ω) :=
  match objects[i]? with
  | none => pure objects
  | some x => do
    let y ← f x
    pure (objects.set i y)

/-- Lets go of one of the objects. -/
def drop (i : ℕ) (f : ω → Prog (Registry κ) ε Unit) (objects : List ω) : Prog (Registry κ) ε (List ω) :=
  match objects[i]? with
  | none => pure objects
  | some x => do
    f x
    pure (objects.eraseIdx i)

variable {leases} {E : ε → Registry κ → Prop}

theorem change_owes (hrooted : Rooted leases) {f : ω → Prog (Registry κ) ε ω}
    (hf : ∀ x L, Tidy L → Prog.Triple (Owes (leases x + L)) (f x) (fun y => Owes (leases y + L)) E) (i : ℕ)
    (objects : List ω) :
    Prog.Triple (Owes (owing leases objects)) (change i f objects) (fun left => Owes (owing leases left)) E := by
  rw [change]
  split
  next => exact Prog.Triple.pure fun _ hs => hs
  next x hx =>
    rw [owing_erase leases hx]
    refine Prog.Triple.bind (hf x _ (owing_tidy leases hrooted _)) fun y => Prog.Triple.pure fun _ hs => ?_
    rw [owing_set leases hx]
    exact hs

theorem drop_owes (hrooted : Rooted leases) {f : ω → Prog (Registry κ) ε Unit}
    (hf : ∀ x L, Tidy L → Prog.Triple (Owes (leases x + L)) (f x) (fun _ => Owes L) E) (i : ℕ) (objects : List ω) :
    Prog.Triple (Owes (owing leases objects)) (drop i f objects) (fun left => Owes (owing leases left)) E := by
  rw [drop]
  split
  next => exact Prog.Triple.pure fun _ hs => hs
  next x hx =>
    rw [owing_erase leases hx]
    refine Prog.Triple.bind (hf x _ (owing_tidy leases hrooted _)) fun _ => ?_
    exact Prog.Triple.pure fun _ hs => hs

/-! ### Lives -/

variable {Op Answer : Type} {step : List ω → Op → Prog (Registry κ) ε (Answer × List ω)} {answer : Op → Answer}

/-- Operation after operation on the objects that are there: the answers, and the objects that are left. -/
def life (step : List ω → Op → Prog (Registry κ) ε (Answer × List ω)) :
    List Op → List ω → Prog (Registry κ) ε (List Answer × List ω)
  | [], objects => pure ([], objects)
  | op :: rest, objects => do
    let (a, objects') ← step objects op
    let (answers, left) ← life step rest objects'
    pure (a :: answers, left)

/-- Every operation answers as it should, and then what is owed is what the objects have. -/
def Honest (leases : ω → Multiset (Lease κ)) (step : List ω → Op → Prog (Registry κ) ε (Answer × List ω))
    (answer : Op → Answer) : Prop :=
  ∀ op objects, Prog.Triple (Owes (owing leases objects)) (step objects op)
    (fun a s => a.1 = answer op ∧ Owes (owing leases a.2) s) fun _ _ => False

theorem life_owes (h : Honest leases step answer) (ops : List Op) (objects : List ω) :
    Prog.Triple (Owes (owing leases objects)) (life step ops objects)
      (fun a s => a.1 = ops.map answer ∧ Owes (owing leases a.2) s) fun _ _ => False := by
  induction ops generalizing objects with
  | nil => exact Prog.Triple.pure fun _ hs => ⟨rfl, hs⟩
  | cons op rest ih =>
    refine Prog.Triple.bind (h op objects) fun a => Prog.Triple.and_pre fun hanswer => ?_
    refine Prog.Triple.bind (ih a.2) fun b => Prog.Triple.and_pre fun hanswers => ?_
    exact Prog.Triple.pure fun _ hs => ⟨congrArg₂ List.cons hanswer hanswers, hs⟩

/-- A life that starts with nothing answers as it should, has at the end what its objects have, and has misused
nothing. -/
theorem life_run (h : Honest leases step answer) (ops : List Op) : ∃ objects s,
    (life step ops []).run {} = (.ok (ops.map answer, objects), s) ∧
    (s.held : Multiset (Lease κ)) = owing leases objects ∧ s.misused = false := by
  have hrun := life_owes h ops [] {} owes_empty
  match hend : (life step ops []).run {} with
  | (.error e, s) =>
    rw [hend] at hrun
    exact hrun.elim
  | (.ok (answers, objects), s) =>
    rw [hend] at hrun
    obtain ⟨rfl, howes⟩ := hrun
    exact ⟨objects, s, rfl, howes.held, howes.proper⟩

end Objects

end Registry
