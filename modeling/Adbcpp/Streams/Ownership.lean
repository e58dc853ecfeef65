import Adbcpp.Streams.Effects

/-! Who owns a stream. A stream that has been opened belongs to the object that was opened,
and then to the one it was moved to last; a local id never has two owners. The owner
closes the stream when it ends, unless a read has met the CLSE of the device, so that
every stream is closed exactly once. -/

namespace Adbcpp

open Protocol Dialogue

/-- The CLSEs that were attempted for the local id. -/
def closes (localId : UInt32) (es : List Event) : List Frame :=
  (attempts es).filter fun f => f.header.command = kClse ∧ f.header.arg0 = localId

@[simp] theorem closes_nil (localId : UInt32) : closes localId [] = [] := rfl

theorem closes_append (localId : UInt32) (es es' : List Event) :
    closes localId (es ++ es') = closes localId es ++ closes localId es' := by
  rw [closes, attempts_append, List.filter_append]
  rfl

theorem Transcript.closes {localId remoteId : UInt32} {fs : List Frame} {es : List Event}
    (h : Transcript localId remoteId fs es) (l : UInt32) : Adbcpp.closes l es = [] := by
  refine List.filter_eq_nil_iff.mpr fun g hg => ?_
  have hne : kOkay ≠ kClse := by decide
  simp [h.attempts g hg, StreamOn.acknowledgement, makeEmptyMessage, hne]

/-- A message that is no CLSE of the stream. -/
theorem Dialogue.Attempt.closes_other {f : Frame} {r : Except Error Unit} {es : List Event}
    (h : Attempt f r es) {l : UInt32} (hf : ¬ (f.header.command = kClse ∧ f.header.arg0 = l)) :
    Adbcpp.closes l es = [] := by
  cases h <;> simp_all [Adbcpp.closes]

theorem Dialogue.Attempt.closes_self {l r : UInt32} {q : Except Error Unit} {es : List Event}
    (h : Attempt (closeFrame l r) q es) (hes : es ≠ []) : Adbcpp.closes l es = [closeFrame l r] := by
  cases h with
  | sent => simp [Adbcpp.closes, closeFrame, makeEmptyMessage]
  | unsent e => simp [Adbcpp.closes, closeFrame, makeEmptyMessage]
  | refused e => exact absurd rfl hes

namespace Streams

variable {ι : Type}

theorem Closing.closes_other {stream : Stream} {live : Bool} {es : List Event}
    (h : Closing stream live es) {l : UInt32} (hl : stream.localId = l → stream.closed = true) :
    Adbcpp.closes l es = [] := by
  cases h with
  | silent => rfl
  | attempted hopen hattempt _ =>
    refine hattempt.closes_other fun hf => ?_
    rw [hl hf.2] at hopen
    cases hopen

theorem Closing.closes_self {stream : Stream} {es : List Event} (h : Closing stream true es)
    (hopen : stream.closed = false) :
    Adbcpp.closes stream.localId es = [closeFrame stream.localId stream.remoteId] := by
  cases h with
  | silent hclosed =>
    rw [hclosed] at hopen
    cases hopen
  | attempted _ hattempt hes => exact hattempt.closes_self (hes rfl)

/-- An open that succeeds closes nothing, and one that fails no other stream. -/
theorem opening_closes {service : List Byte} {c : Connection Dialogue} {fs : List Frame}
    {r : Except Error Stream} {es : List Event} (h : Opening service c fs r es) {l : UInt32}
    (hl : (∃ stream, r = .ok stream) ∨ c.nextLocalId ≠ l) : Adbcpp.closes l es = [] := by
  have hcommand : kOpen ≠ kClse := by decide
  have hsent (es : List Event) : Adbcpp.closes l (.sent (openOf service c) :: es) = Adbcpp.closes l es := by
    have hnot : ¬ ((openOf service c).header.command = kClse ∧ (openOf service c).header.arg0 = l) :=
      fun hf => hcommand hf.1
    rw [Adbcpp.closes, attempts_sent, List.filter_cons_of_neg (by simpa using hnot)]
    rfl
  have hreceived (fs : List Frame) : Adbcpp.closes l (fs.map .received) = [] := by
    rw [Adbcpp.closes, attempts_map_received]
    rfl
  have hclose {e : Error} {q : Except Error Unit} {es : List Event} (hr : r = .error e)
      (hattempt : Attempt (closeFrame c.nextLocalId 0) q es) : Adbcpp.closes l es = [] := by
    refine hattempt.closes_other fun hf => hl.elim ?_ fun hne => hne hf.2
    rintro ⟨stream, hok⟩
    cases hr.symm.trans hok
  cases h with
  | unsent hattempt _ hend =>
    rw [closes_append, hattempt.closes_other fun hf => hcommand hf.1, hclose rfl hend]
    rfl
  | unanswered _ hend =>
    rw [hsent, closes_append, hreceived, hclose rfl hend]
    rfl
  | refused _ _ _ hend =>
    rw [hsent, closes_append, hreceived, hclose rfl hend]
    rfl
  | accepted => rw [hsent, hreceived]

/-! ### One owner for each id -/

/-- What keeps two objects from owning one stream. -/
structure Owned (s : Streams ι Dialogue) : Prop where
  known : ∀ x o, s.objects x = some o → o.stream.localId.toNat < s.connection.nextLocalId.toNat
  moved : ∀ x o, s.objects x = some o → o.moved = true → o.stream.closed = true
  unique : ∀ x y o p, s.objects x = some o → s.objects y = some p → o.moved = false →
    p.moved = false → o.stream.localId = p.stream.localId → x = y

end Streams

/-- The object that an operation moves a stream into. -/
def Operation.target {ι : Type} : Operation ι → Option ι
  | .moveConstruct x _ => some x
  | .moveAssign x _ => some x
  | _ => none

/-- How many local ids an operation uses up. -/
def Operation.opens {ι : Type} : Operation ι → ℕ
  | .open _ _ => 1
  | _ => 0

namespace Streams

variable {ι : Type} [DecidableEq ι] {s s' : Streams ι Dialogue} {op : Operation ι} {es : List Event}

/-- Where an object comes from that is there after an operation. -/
inductive Origin (op : Operation ι) (s s' : Streams ι Dialogue) (z : ι) (p : Object) : Prop
  | fresh {service : List Byte} : op = .open z service → p.moved = false →
      p.stream.localId = s.connection.nextLocalId →
      s'.connection.nextLocalId = s.connection.nextLocalId + 1 → Origin op s s' z p
  | inherited {y : ι} {o : Object} : s.objects y = some o → p.stream.localId = o.stream.localId →
      (o.stream.closed = true → p.stream.closed = true) → (o.moved = true → p.moved = true) →
      (p.moved = true → o.moved = true ∨ p.stream.closed = true) →
      (y = z ∨ op.target = some z ∧ ∀ q, s'.objects y = some q → q.moved = true) →
      Origin op s s' z p

omit [DecidableEq ι] in
theorem origin_same {z : ι} {p : Object} (h : s.objects z = some p) : Origin op s s' z p :=
  .inherited h rfl id id .inl (.inl rfl)

/-- What a move leaves in the two objects. -/
theorem origin_move {x y z : ι} {o p : Object} {t : Streams ι Dialogue} (hxy : x ≠ y)
    (hy : s.objects y = some o) (hobjects : t.objects = s.objects) (htarget : op.target = some x)
    (hp : ((t.set y (some ⟨o.stream.movedFrom, true⟩)).set x (some o)).objects z = some p) :
    Origin op s ((t.set y (some ⟨o.stream.movedFrom, true⟩)).set x (some o)) z p := by
  by_cases hzx : z = x
  · subst hzx
    rw [set_same] at hp
    cases hp
    refine .inherited hy rfl id id .inl (.inr ⟨htarget, fun q hq => ?_⟩)
    rw [set_other hxy.symm, set_same] at hq
    cases hq
    rfl
  rw [set_other hzx] at hp
  by_cases hzy : z = y
  · subst hzy
    rw [set_same] at hp
    cases hp
    exact .inherited hy rfl (fun _ => rfl) (fun _ => rfl) (fun _ => .inr rfl) (.inl rfl)
  · rw [set_other hzy, hobjects] at hp
    exact origin_same hp

theorem Effect.origin (h : Effect s op es s') {z : ι} {p : Object} (hp : s'.objects z = some p) :
    Origin op s s' z p := by
  cases h with
  | void => exact origin_same hp
  | @opened x service stream _ d hx hopening =>
    by_cases hzx : z = x
    · subst hzx
      rw [set_same] at hp
      cases hp
      exact .fresh rfl rfl hopening.localId rfl
    · rw [set_other hzx] at hp
      exact origin_same hp
  | refused => exact origin_same hp
  | constructed hx hy =>
    refine origin_move ?_ hy rfl rfl hp
    rintro rfl
    cases hx.symm.trans hy
  | assigned hxy hx hy hclosing => exact origin_move hxy hy rfl rfl hp
  | wrote => exact origin_same hp
  | @took _ x o t _ d hreader hx _ hlocal _ hclosed =>
    by_cases hzx : z = x
    · subst hzx
      rw [set_same] at hp
      cases hp
      exact .inherited hx hlocal (fun h => by rw [hclosed, h, Bool.true_or]) id .inl (.inl rfl)
    · rw [set_other hzx] at hp
      exact origin_same hp
  | @destroyed x o _ d hx hclosing =>
    by_cases hzx : z = x
    · subst hzx
      rw [set_same] at hp
      cases hp
    · rw [set_other hzx] at hp
      exact origin_same hp

theorem toNat_succ {n : UInt32} (h : n.toNat + 1 < 2 ^ 32) : (n + 1).toNat = n.toNat + 1 := by
  rw [UInt32.toNat_add]
  exact Nat.mod_eq_of_lt h

/-- An operation hands out the next local id, or none. -/
theorem Effect.nextLocalId (h : Effect s op es s')
    (hids : s.connection.nextLocalId.toNat + op.opens < 2 ^ 32) :
    s.connection.nextLocalId.toNat ≤ s'.connection.nextLocalId.toNat ∧
      s'.connection.nextLocalId.toNat ≤ s.connection.nextLocalId.toNat + op.opens := by
  cases h with
  | opened | refused =>
    have hnext := toNat_succ hids
    exact ⟨Nat.le_trans (Nat.le_succ _) (Nat.le_of_eq hnext.symm), Nat.le_of_eq hnext⟩
  | void | constructed | assigned | wrote | took | destroyed =>
    exact ⟨Nat.le_refl _, Nat.le_add_right _ _⟩

theorem Owned.step (howned : Owned s) (h : Effect s op es s')
    (hids : s.connection.nextLocalId.toNat + op.opens < 2 ^ 32) : Owned s' := by
  refine ⟨?_, ?_, ?_⟩
  · intro x p hp
    cases h.origin hp with
    | fresh hop _ hid hnext =>
      subst hop
      rw [hid, hnext, toNat_succ hids]
      exact Nat.lt_succ_self _
    | inherited hy hid =>
      rw [hid]
      exact Nat.lt_of_lt_of_le (howned.known _ _ hy) (h.nextLocalId hids).1
  · intro x p hp hmoved
    cases h.origin hp with
    | fresh _ hnot => simp [hnot] at hmoved
    | inherited hy _ hclosed _ hor =>
      rcases hor hmoved with ho | hp
      · exact hclosed (howned.moved _ _ hy ho)
      · exact hp
  · intro x y o p hx hy hox hpy hid
    cases h.origin hx with
    | fresh hopx _ hox' =>
      cases h.origin hy with
      | fresh hopy =>
        cases hopx.symm.trans hopy
        rfl
      | inherited hv hidv =>
        have hlt := howned.known _ _ hv
        rw [← hidv, ← hid, hox'] at hlt
        exact absurd hlt (Nat.lt_irrefl _)
    | @inherited u o' hu hidu _ hmu _ hpu =>
      cases h.origin hy with
      | fresh _ _ hpy' =>
        have hlt := howned.known _ _ hu
        rw [← hidu, hid, hpy'] at hlt
        exact absurd hlt (Nat.lt_irrefl _)
      | @inherited v p' hv hidv _ hmv _ hpv =>
        have huv : u = v := by
          refine howned.unique u v o' p' hu hv ?_ ?_ (hidu.symm.trans (hid.trans hidv))
          · exact Bool.eq_false_iff.mpr fun h => by simp [hmu h] at hox
          · exact Bool.eq_false_iff.mpr fun h => by simp [hmv h] at hpy
        subst huv
        rcases hpu with rfl | ⟨htx, hmx⟩
        · rcases hpv with rfl | ⟨-, hmy⟩
          · rfl
          · simp [hmy o hx] at hox
        · rcases hpv with rfl | ⟨hty, -⟩
          · simp [hmx p hy] at hpy
          · exact Option.some.inj (htx.symm.trans hty)

/-! ### What becomes of one stream -/

variable {l r : UInt32}

/-- A read of the stream meets the CLSE of the device. -/
def Shuts (l : UInt32) (op : Operation ι) (s : Streams ι Dialogue) : Prop :=
  ∃ x o f, op.reader = some x ∧ s.objects x = some o ∧ o.stream.localId = l ∧ f ∈ takes op s ∧ IsClose l f

/-- A stream is only read on an object that it has not been moved from. -/
def ReadsUnmoved (op : Operation ι) (s : Streams ι Dialogue) : Prop :=
  ∀ x o, op.reader = some x → s.objects x = some o → o.moved = false

/-- The object `x` owns the stream, and it is open. -/
def Holds (x : ι) (l r : UInt32) (s : Streams ι Dialogue) : Prop :=
  ∃ o, s.objects x = some o ∧ o.stream.localId = l ∧ o.stream.remoteId = r ∧ o.moved = false ∧
    o.stream.closed = false

/-- No object will close the stream. -/
def Done (l : UInt32) (s : Streams ι Dialogue) : Prop :=
  ∀ x o, s.objects x = some o → o.stream.localId = l → o.stream.closed = true

/-- No object owns the stream. -/
def Gone (l : UInt32) (s : Streams ι Dialogue) : Prop :=
  ∀ x o, s.objects x = some o → o.stream.localId = l → o.moved = true

omit [DecidableEq ι] in
theorem Gone.done (h : Gone l s) (howned : Owned s) : Done l s :=
  fun x o hx hl => howned.moved x o hx (h x o hx hl)

omit [DecidableEq ι] in
theorem Gone.not_shuts (h : Gone l s) (hreads : ReadsUnmoved op s) : ¬ Shuts l op s := by
  rintro ⟨x, o, f, hreader, hx, hl, -⟩
  have hmoved := h x o hx hl
  rw [hreads x o hreader hx] at hmoved
  cases hmoved

theorem wrote_closes {stream : Stream} {data : List Byte} {q : Except Error Unit}
    (h : Attempt (wrteFrame stream.localId stream.remoteId data) q es) : closes l es = [] := by
  have hne : kWrte ≠ kClse := by decide
  exact h.closes_other fun hf => hne hf.1

omit [DecidableEq ι] in
theorem ne_of_lt (hl : l.toNat < s.connection.nextLocalId.toNat) : s.connection.nextLocalId ≠ l := by
  rintro rfl
  exact Nat.lt_irrefl _ hl

theorem Done.step (hdone : Done l s) (hl : l.toNat < s.connection.nextLocalId.toNat)
    (h : Effect s op es s') : Done l s' := by
  intro x p hp hpl
  cases h.origin hp with
  | fresh _ _ hid => exact absurd (hid.symm.trans hpl) (ne_of_lt hl)
  | inherited hy hid hclosed => exact hclosed (hdone _ _ hy (hid.symm.trans hpl))

/-- Nothing closes a stream that no object will close, and that is not just being opened. -/
theorem Done.closes_none (hdone : Done l s) (h : Effect s op es s')
    (hl : s'.connection.nextLocalId = s.connection.nextLocalId ∨ s.connection.nextLocalId ≠ l) :
    closes l es = [] := by
  have hnext : s.connection.nextLocalId + 1 ≠ s.connection.nextLocalId := by simp
  cases h with
  | void => rfl
  | opened _ hopening => exact opening_closes hopening (.inl ⟨_, rfl⟩)
  | refused _ hopening => exact opening_closes hopening (.inr (hl.resolve_left hnext))
  | constructed => rfl
  | assigned _ hx _ hclosing => exact hclosing.closes_other (hdone _ _ hx)
  | wrote _ hattempt => exact wrote_closes hattempt
  | took _ _ htranscript => exact htranscript.closes l
  | destroyed hx hclosing => exact hclosing.closes_other (hdone _ _ hx)

theorem Gone.step (hgone : Gone l s) (hl : l.toNat < s.connection.nextLocalId.toNat)
    (h : Effect s op es s') : Gone l s' := by
  intro x p hp hpl
  cases h.origin hp with
  | fresh _ _ hid =>
    rw [← hpl, hid] at hl
    exact absurd hl (Nat.lt_irrefl _)
  | inherited hy hid _ hmoved => exact hmoved (hgone _ _ hy (hid.symm.trans hpl))

/-- What an operation does to a stream that is owned: it stays owned, its owner closes it, or a read
meets the CLSE of the device. -/
inductive Fate (l r : UInt32) (op : Operation ι) (s s' : Streams ι Dialogue) (es : List Event) : Prop
  | kept {x : ι} : Holds x l r s' → closes l es = [] → ¬ Shuts l op s → Fate l r op s s' es
  | closed : Gone l s' → closes l es = [closeFrame l r] → ¬ Shuts l op s → Fate l r op s s' es
  | shut : Done l s' → closes l es = [] → Shuts l op s → Fate l r op s s' es

omit [DecidableEq ι] in
theorem not_shuts_of_reader (h : op.reader = none) : ¬ Shuts l op s := by
  rintro ⟨x, o, f, hreader, -⟩
  rw [h] at hreader
  cases hreader

omit [DecidableEq ι] in
/-- The owner is the only object with the stream that has not been moved from. -/
theorem Holds.eq (h : Holds (ι := ι) x l r s) (howned : Owned s) {y : ι} {p : Object}
    (hy : s.objects y = some p) (hl : p.stream.localId = l) (hp : p.moved = false) : y = x := by
  obtain ⟨o, hx, hol, -, hmoved, -⟩ := h
  exact howned.unique y x p o hy hx hp hmoved (hl.trans hol.symm)

omit [DecidableEq ι] in
/-- The end of another object leaves the stream alone. -/
theorem Holds.closing_other (h : Holds x l r s) (howned : Owned s) {z : ι} {p : Object}
    (hz : s.objects z = some p) (hzx : z ≠ x) {live : Bool} (hclosing : Closing p.stream live es) :
    closes l es = [] := by
  refine hclosing.closes_other fun hl => ?_
  by_contra hopen
  have hp : p.moved = false := Bool.eq_false_iff.mpr fun hm => hopen (howned.moved z p hz hm)
  exact hzx (h.eq howned hz hl hp)

omit [DecidableEq ι] in
/-- The end of the owner closes the stream. -/
theorem Holds.closing_self (h : Holds x l r s) (hlive : s.session.closed = false) {o : Object}
    (hx : s.objects x = some o) (hclosing : Closing o.stream (!s.session.closed) es) :
    closes l es = [closeFrame l r] := by
  obtain ⟨o', hx', rfl, rfl, -, hopen⟩ := h
  cases hx.symm.trans hx'
  rw [hlive] at hclosing
  exact hclosing.closes_self hopen

/-- A move takes the stream along, or leaves its owner as it is. -/
theorem Holds.move (h : Holds x l r s) {y z : ι} {p : Object} {t : Streams ι Dialogue}
    (hy : s.objects y = some p) (hobjects : t.objects = s.objects) (hzx : y = x ∨ z ≠ x) :
    ∃ x', Holds x' l r ((t.set y (some ⟨p.stream.movedFrom, true⟩)).set z (some p)) := by
  obtain ⟨o, hx, hol, hor, hmoved, hopen⟩ := h
  by_cases hyx : y = x
  · subst hyx
    cases hx.symm.trans hy
    exact ⟨z, p, set_same _ _ _, hol, hor, hmoved, hopen⟩
  · refine ⟨x, o, ?_, hol, hor, hmoved, hopen⟩
    rw [set_other (hzx.resolve_left hyx).symm, set_other (Ne.symm hyx), hobjects]
    exact hx

omit [DecidableEq ι] in
/-- Every other object with the stream has been moved from. -/
theorem Holds.moved_of_ne (h : Holds (ι := ι) x l r s) (howned : Owned s) {y : ι} {p : Object}
    (hy : s.objects y = some p) (hyx : y ≠ x) (hl : p.stream.localId = l) : p.moved = true := by
  by_contra hm
  exact hyx (h.eq howned hy hl (Bool.eq_false_iff.mpr hm))

/-- The owner stays when another object changes. -/
theorem Holds.elsewhere (h : Holds x l r s) {t : Streams ι Dialogue} (hobjects : t.objects = s.objects)
    {z : ι} (hzx : z ≠ x) (o : Option Object) : Holds x l r (t.set z o) := by
  obtain ⟨p, hx, hfacts⟩ := h
  refine ⟨p, ?_, hfacts⟩
  rw [set_other (Ne.symm hzx), hobjects]
  exact hx

omit [DecidableEq ι] in
/-- Once the owner is gone, and the other objects are as they were or have been moved from, nobody
owns the stream. -/
theorem Holds.gone (h : Holds (ι := ι) x l r s) (howned : Owned s) {t : Streams ι Dialogue}
    (hown : ∀ q, t.objects x = some q → q.stream.localId = l → q.moved = true)
    (hothers : ∀ w q, w ≠ x → t.objects w = some q → s.objects w = some q ∨ q.moved = true) : Gone l t := by
  intro w q hw hql
  by_cases hwx : w = x
  · subst hwx
    exact hown q hw hql
  rcases hothers w q hwx hw with hold | hmoved
  · exact h.moved_of_ne howned hold hwx hql
  · exact hmoved

/-- Assigning another stream to the owner closes the stream. -/
theorem Holds.assigned_gone (h : Holds x l r s) (howned : Owned s) {y : ι} {p : Object} (hxy : x ≠ y)
    (hy : s.objects y = some p) (d : Dialogue) :
    Gone l (((s.withSession d).set y (some ⟨p.stream.movedFrom, true⟩)).set x (some p)) := by
  refine h.gone howned ?_ ?_
  · intro q hq hql
    rw [set_same] at hq
    cases hq
    exact h.moved_of_ne howned hy hxy.symm hql
  · intro w q hwx hw
    rw [set_other hwx] at hw
    by_cases hwy : w = y
    · subst hwy
      rw [set_same] at hw
      cases hw
      exact .inr rfl
    · rw [set_other hwy] at hw
      exact .inl hw

theorem Holds.destroyed_gone (h : Holds x l r s) (howned : Owned s) (d : Dialogue) :
    Gone l ((s.withSession d).set x none) := by
  refine h.gone howned ?_ ?_
  · intro q hq
    rw [set_same] at hq
    cases hq
  · intro w q hwx hw
    rw [set_other hwx] at hw
    exact .inl hw

/-- A read of the owner leaves the stream open, or meets the CLSE of the device. -/
theorem Holds.took_self (h : Holds x l r s) (howned : Owned s) {o : Object} (hx : s.objects x = some o)
    (hreader : op.reader = some x) {t : Stream} {d : Dialogue} (hlocal : t.localId = o.stream.localId)
    (hremote : t.remoteId = o.stream.remoteId)
    (hclosed : t.closed = (o.stream.closed || (takes op s).any fun f => IsClose o.stream.localId f))
    (hcloses : closes l es = []) : Fate l r op s ((s.withSession d).set x (some { o with stream := t })) es := by
  have hheld := h
  obtain ⟨o', hx', rfl, hor, hmoved, hopen⟩ := h
  obtain rfl : o = o' := Option.some.inj (hx.symm.trans hx')
  by_cases hclse : ((takes op s).any fun f => IsClose o.stream.localId f) = true
  · refine .shut ?_ hcloses ?_
    · intro w q hw hql
      by_cases hwx : w = x
      · subst hwx
        rw [set_same] at hw
        cases hw
        rw [hclosed, hclse, Bool.or_true]
      · rw [set_other hwx] at hw
        exact howned.moved w q hw (hheld.moved_of_ne howned hw hwx hql)
    · obtain ⟨f, hf, hfc⟩ := List.any_eq_true.mp hclse
      exact ⟨x, o, f, hreader, hx, rfl, hf, of_decide_eq_true hfc⟩
  · refine .kept (x := x) ⟨{ o with stream := t }, set_same _ _ _, hlocal, hremote.trans hor, hmoved, ?_⟩
      hcloses ?_
    · rw [hclosed, hopen, Bool.false_or]
      exact Bool.eq_false_iff.mpr hclse
    · rintro ⟨y, p, f, -, -, -, hf, hfc⟩
      exact hclse (List.any_eq_true.mpr ⟨f, hf, decide_eq_true hfc⟩)

/-- What every operation does to a stream with an owner. -/
theorem Holds.fate (h : Holds x l r s) (howned : Owned s) (hlive : s.session.closed = false)
    (hreads : ReadsUnmoved op s) (he : Effect s op es s') : Fate l r op s s' es := by
  have hheld := h
  obtain ⟨o, hx, hol, -⟩ := h
  have hne : s.connection.nextLocalId ≠ l := by
    rintro rfl
    exact absurd (howned.known x o hx) (by rw [hol]; exact Nat.lt_irrefl _)
  cases he with
  | void hvoid =>
    refine .kept hheld rfl ?_
    rintro ⟨y, p, f, hreader, hy, -⟩
    cases op <;> cases hreader
    · exact nomatch hy.symm.trans hvoid
    · exact nomatch hy.symm.trans hvoid
  | @opened z service stream _ d hz hopening =>
    have hzx : z ≠ x := by
      rintro rfl
      cases hx.symm.trans hz
    exact .kept (hheld.elsewhere rfl hzx _) (opening_closes hopening (.inl ⟨_, rfl⟩)) (not_shuts_of_reader rfl)
  | refused _ hopening => exact .kept hheld (opening_closes hopening (.inr hne)) (not_shuts_of_reader rfl)
  | @constructed z y p hz hy =>
    have hzx : z ≠ x := by
      rintro rfl
      cases hz.symm.trans hx
    obtain ⟨x', hx'⟩ := hheld.move hy rfl (.inr hzx)
    exact .kept hx' rfl (not_shuts_of_reader rfl)
  | @assigned z y target p _ d hzy hz hy hclosing =>
    by_cases hzx : z = x
    · subst hzx
      exact .closed (hheld.assigned_gone howned hzy hy d) (hheld.closing_self hlive hz hclosing)
        (not_shuts_of_reader rfl)
    · obtain ⟨x', hx'⟩ := @Holds.move _ _ _ _ _ _ hheld y z p (s.withSession d) hy rfl (.inr hzx)
      exact .kept hx' (hheld.closing_other howned hz hzx hclosing) (not_shuts_of_reader rfl)
  | wrote _ hattempt => exact .kept hheld (wrote_closes hattempt) (not_shuts_of_reader rfl)
  | @took _ z p t _ d hreader hz htranscript hlocal hremote hclosed =>
    by_cases hzx : z = x
    · subst hzx
      exact hheld.took_self howned hz hreader hlocal hremote hclosed (htranscript.closes l)
    refine .kept (hheld.elsewhere rfl hzx _) (htranscript.closes l) ?_
    rintro ⟨z', p', f, hreader', hz', hl, -⟩
    cases hreader.symm.trans hreader'
    have hm := hheld.moved_of_ne howned hz' hzx hl
    rw [hreads z p' hreader hz'] at hm
    cases hm
  | @destroyed z p _ d hz hclosing =>
    by_cases hzx : z = x
    · subst hzx
      exact .closed (hheld.destroyed_gone howned d) (hheld.closing_self hlive hz hclosing)
        (not_shuts_of_reader rfl)
    · exact .kept (hheld.elsewhere rfl hzx none) (hheld.closing_other howned hz hzx hclosing)
        (not_shuts_of_reader rfl)

/-! ### Whole runs -/

/-- How many local ids some operations use up. -/
def opens (ops : List (Operation ι)) : ℕ := (ops.map Operation.opens).sum

/-- The device accepts the OPEN of a stream. -/
def Accepts (l r : UInt32) (op : Operation ι) (s : Streams ι Dialogue) : Prop :=
  ∃ x service stream c, op = .open x service ∧ s.objects x = none ∧
    (Stream.open service).run s.connection = (.ok stream, c) ∧ stream.localId = l ∧ stream.remoteId = r

theorem Accepts.holds (h : Accepts l r op s) : ∃ x, Holds x l r ((exec op).run s).2 := by
  obtain ⟨x, service, stream, c, rfl, hx, hopen, rfl, rfl⟩ := h
  have hstream := (Stream.open_ok hopen).2
  refine ⟨x, ⟨stream, false⟩, ?_, rfl, rfl, rfl, by rw [hstream]⟩
  simp only [exec, Prog.run, hx] at hopen ⊢
  rw [hopen]
  exact set_same _ _ _

omit [DecidableEq ι] in
theorem Accepts.nextLocalId (h : Accepts l r op s) : l = s.connection.nextLocalId := by
  obtain ⟨x, service, stream, c, rfl, hx, hopen, rfl, rfl⟩ := h
  rw [(Stream.open_ok hopen).2]

omit [DecidableEq ι] in
theorem Accepts.reader (h : Accepts l r op s) : op.reader = none := by
  obtain ⟨x, service, stream, c, rfl, -⟩ := h
  rfl

/-- The open of a stream that the device accepts closes nothing. -/
theorem Accepts.closes_none (h : Accepts l r op s) (howned : Owned s) : closes l (eventsOf op s) = [] := by
  obtain ⟨x, o, hx, hol, -⟩ := h.holds
  have hl := h.nextLocalId
  obtain ⟨y, service, stream, c, rfl, hy, -⟩ := h
  have heffect := (effect (.open y service) s).1
  generalize ((exec (.open y service)).run s).2 = s', eventsOf (.open y service) s = es at hx heffect
  cases heffect with
  | void hvoid => exact absurd hy hvoid
  | opened _ hopening => exact opening_closes hopening (.inl ⟨_, rfl⟩)
  | refused _ _ =>
    -- Nothing has been made, so that the id would be in use already.
    have hlt := howned.known x o hx
    rw [hol, hl] at hlt
    exact absurd hlt (Nat.lt_irrefl _)
  | took hreader => cases hreader

section Runs

variable {ops : List (Operation ι)}

/-- Later streams have later ids. -/
theorem accepted_ge (h : Sometime (Accepts l r) ops s)
    (hids : s.connection.nextLocalId.toNat + opens ops < 2 ^ 32) :
    s.connection.nextLocalId.toNat ≤ l.toNat := by
  induction ops generalizing s with
  | nil => exact h.elim
  | cons op ops ih =>
    rw [opens, List.map_cons, List.sum_cons] at hids
    rcases h with h | h
    · exact Nat.le_of_eq (congrArg UInt32.toNat h.nextLocalId.symm)
    · obtain ⟨hle, hle'⟩ := (effect op s).1.nextLocalId (by omega)
      exact Nat.le_trans hle (ih h (by rw [opens]; omega))

theorem Done.run (hdone : Done l s) (hl : l.toNat < s.connection.nextLocalId.toNat)
    (hids : s.connection.nextLocalId.toNat + opens ops < 2 ^ 32) : closes l (history ops s) = [] := by
  induction ops generalizing s with
  | nil => rfl
  | cons op ops ih =>
    rw [opens, List.map_cons, List.sum_cons] at hids
    have heffect := (effect op s).1
    obtain ⟨hle, hle'⟩ := heffect.nextLocalId (by omega)
    rw [history, closes_append, hdone.closes_none heffect (.inr (ne_of_lt hl)),
      ih (hdone.step hl heffect) (by omega) (by rw [opens]; omega)]
    rfl

theorem Gone.run (hgone : Gone l s) (howned : Owned s) (hl : l.toNat < s.connection.nextLocalId.toNat)
    (hids : s.connection.nextLocalId.toNat + opens ops < 2 ^ 32) (hreads : Always ReadsUnmoved ops s) :
    ¬ Sometime (Shuts l) ops s := by
  induction ops generalizing s with
  | nil => exact id
  | cons op ops ih =>
    rw [opens, List.map_cons, List.sum_cons] at hids
    have heffect := (effect op s).1
    obtain ⟨hle, hle'⟩ := heffect.nextLocalId (by omega)
    rintro (h | h)
    · exact hgone.not_shuts hreads.1 h
    · exact ih (hgone.step hl heffect) (howned.step heffect (by omega)) (by omega)
        (by rw [opens]; omega) hreads.2 h

/-- What a run brings for one stream, once its objects are all destroyed. -/
def ClosedOnce (l r : UInt32) (ops : List (Operation ι)) (s : Streams ι Dialogue) : Prop :=
  (Sometime (Shuts l) ops s → closes l (history ops s) = []) ∧
    (¬ Sometime (Shuts l) ops s → closes l (history ops s) = [closeFrame l r])

theorem ClosedOnce.cons (h : ClosedOnce l r ops ((exec op).run s).2)
    (hcloses : closes l (eventsOf op s) = []) (hnot : ¬ Shuts l op s) : ClosedOnce l r (op :: ops) s := by
  rw [ClosedOnce, history, closes_append, hcloses, List.nil_append, Sometime, or_iff_right hnot]
  exact h

theorem Holds.run {x : ι} (h : Holds x l r s) (howned : Owned s)
    (hids : s.connection.nextLocalId.toNat + opens ops < 2 ^ 32) (hreads : Always ReadsUnmoved ops s)
    (hend : ∀ x, (after ops s).objects x = none) (hlive : (after ops s).session.closed = false) :
    ClosedOnce l r ops s := by
  induction ops generalizing s x with
  | nil =>
    obtain ⟨o, hx, -⟩ := h
    cases hx.symm.trans (hend x)
  | cons op ops ih =>
    have hids' := hids
    rw [opens, List.map_cons, List.sum_cons] at hids
    have heffect := (effect op s).1
    have howned' := howned.step heffect (by omega)
    obtain ⟨hle, hle'⟩ := heffect.nextLocalId (by omega)
    have hopen : s.session.closed = false := by
      by_contra hclosed
      rw [Bool.not_eq_false] at hclosed
      rw [after_closed (op :: ops) hclosed] at hlive
      cases hlive
    have hl : l.toNat < s.connection.nextLocalId.toNat := by
      obtain ⟨o, hx, rfl, -⟩ := h
      exact howned.known x o hx
    cases h.fate howned hopen hreads.1 heffect with
    | kept hx hcloses hnot =>
      exact (ih hx howned' (by rw [opens]; omega) hreads.2 hend hlive).cons hcloses hnot
    | closed hgone hcloses hnot =>
      have hids' : ((exec op).run s).2.connection.nextLocalId.toNat + opens ops < 2 ^ 32 := by
        rw [opens]
        omega
      have hrest := (hgone.done howned').run (by omega) hids'
      have hshut := hgone.run howned' (by omega) hids' hreads.2
      refine ⟨fun h => absurd h (not_or.mpr ⟨hnot, hshut⟩), fun _ => ?_⟩
      rw [history, closes_append, hcloses, hrest]
      rfl
    | shut hdone hcloses hshuts =>
      have hids' : ((exec op).run s).2.connection.nextLocalId.toNat + opens ops < 2 ^ 32 := by
        rw [opens]
        omega
      have hrest := hdone.run (by omega) hids'
      refine ⟨fun _ => ?_, fun h => absurd (.inl hshuts) h⟩
      rw [history, closes_append, hcloses, hrest]
      rfl

theorem accepted_run (h : Sometime (Accepts l r) ops s) (howned : Owned s)
    (hids : s.connection.nextLocalId.toNat + opens ops < 2 ^ 32) (hreads : Always ReadsUnmoved ops s)
    (hend : ∀ x, (after ops s).objects x = none) (hlive : (after ops s).session.closed = false) :
    ClosedOnce l r ops s := by
  induction ops generalizing s with
  | nil => exact h.elim
  | cons op ops ih =>
    rw [opens, List.map_cons, List.sum_cons] at hids
    have heffect := (effect op s).1
    have howned' := howned.step heffect (by omega)
    obtain ⟨hle, hle'⟩ := heffect.nextLocalId (by omega)
    rcases h with h | h
    · obtain ⟨x, hx⟩ := h.holds
      exact (hx.run howned' (by rw [opens]; omega) hreads.2 hend hlive).cons (h.closes_none howned)
        (not_shuts_of_reader h.reader)
    · have hge := accepted_ge h (by rw [opens]; omega)
      have hnone : ∀ x o, s.objects x = some o → o.stream.localId ≠ l := by
        rintro x o hx rfl
        have hlt := howned.known x o hx
        omega
      have hdone : Done l s := fun x o hx hl => absurd hl (hnone x o hx)
      refine (ih h howned' (by rw [opens]; omega) hreads.2 hend hlive).cons (hdone.closes_none heffect ?_) ?_
      · by_contra hne
        obtain ⟨hnext, heq⟩ := not_or.mp hne
        rw [not_not] at heq
        subst heq
        exact hnext (UInt32.toNat_inj.mp (Nat.le_antisymm hge hle))
      · rintro ⟨x, o, f, -, hx, hl, -⟩
        exact hnone x o hx hl

theorem Owned.run (howned : Owned s) (hids : s.connection.nextLocalId.toNat + opens ops < 2 ^ 32) :
    Owned (after ops s) := by
  induction ops generalizing s with
  | nil => exact howned
  | cons op ops ih =>
    rw [opens, List.map_cons, List.sum_cons] at hids
    have heffect := (effect op s).1
    obtain ⟨-, hle⟩ := heffect.nextLocalId (by omega)
    exact ih (howned.step heffect (by omega)) (by rw [opens]; omega)

/-- The end of an object with a closed stream sends nothing. -/
theorem moved_silent {x : ι} {o : Object} (hx : s.objects x = some o) (hclosed : o.stream.closed = true)
    (hop : op = .destroy x ∨ ∃ y, op = .moveAssign x y) : eventsOf op s = [] := by
  have hclosing : ∀ {live es}, Closing o.stream live es → es = [] := by
    intro live es h
    cases h with
    | silent => rfl
    | attempted hopen =>
      rw [hclosed] at hopen
      cases hopen
  have heffect := (effect op s).1
  generalize ((exec op).run s).2 = s', eventsOf op s = es at heffect
  rcases hop with rfl | ⟨y, rfl⟩
  · cases heffect with
    | void => rfl
    | took hreader => cases hreader
    | destroyed hx' hend =>
      cases hx.symm.trans hx'
      exact hclosing hend
  · cases heffect with
    | void => rfl
    | took hreader => cases hreader
    | assigned _ hx' _ hend =>
      cases hx.symm.trans hx'
      exact hclosing hend

/-- Each opened stream is closed exactly once, unless a read has met the CLSE of the device, and an
object that has been moved from sends nothing when it ends. -/
theorem closes_once (hstart : ∀ x, s.objects x = none)
    (hids : s.connection.nextLocalId.toNat + opens ops < 2 ^ 32) (hreads : Always ReadsUnmoved ops s)
    (hend : ∀ x, (after ops s).objects x = none) (hlive : (after ops s).session.closed = false) :
    (∀ l r, Sometime (Accepts l r) ops s →
      (Sometime (Shuts l) ops s → closes l (history ops s) = []) ∧
      (¬ Sometime (Shuts l) ops s → closes l (history ops s) = [closeFrame l r])) ∧
    ∀ before op rest x o, ops = before ++ op :: rest → (after before s).objects x = some o →
      o.moved = true → (op = .destroy x ∨ ∃ y, op = .moveAssign x y) → eventsOf op (after before s) = [] := by
  have howned : Owned s := by
    refine ⟨fun x o hx => ?_, fun x o hx => ?_, fun x y o p hx => ?_⟩ <;> cases (hstart x).symm.trans hx
  refine ⟨fun l r h => accepted_run h howned hids hreads hend hlive, ?_⟩
  rintro before op rest x o rfl hx hmoved hop
  rw [opens, List.map_append, List.sum_append] at hids
  have hids' : s.connection.nextLocalId.toNat + opens before < 2 ^ 32 := by
    rw [opens]
    omega
  have hclosed := (howned.run hids').moved x o hx hmoved
  exact moved_silent hx hclosed hop

end Runs

/-- Two streams are opened; the second is moved onto the first, and is then closed by the device. -/
def reassigning : List (Operation (Fin 3)) :=
  [.open 0 (bytesOf "shell:ls"), .open 1 (bytesOf "shell:id"), .moveConstruct 2 0, .moveAssign 2 2,
    .moveAssign 2 1, .readAll 2, .destroy 0, .destroy 1, .destroy 2]

def twoStreams : Streams (Fin 3) Dialogue where
  connection := { session := { inbox := [.frame ⟨makeEmptyMessage kOkay 7 2, []⟩,
    .frame ⟨makeEmptyMessage kOkay 8 3, []⟩, .frame ⟨makeEmptyMessage kClse 8 3, []⟩] } }

example : closes 2 (history reassigning twoStreams) = [closeFrame 2 7] ∧
    closes 3 (history reassigning twoStreams) = [] := by decide

theorem closes_once_reassigning :
    (∀ l r, Sometime (Accepts l r) reassigning twoStreams →
      (Sometime (Shuts l) reassigning twoStreams → closes l (history reassigning twoStreams) = []) ∧
      (¬ Sometime (Shuts l) reassigning twoStreams →
        closes l (history reassigning twoStreams) = [closeFrame l r])) ∧
    ∀ before op rest x o, reassigning = before ++ op :: rest →
      (after before twoStreams).objects x = some o → o.moved = true →
      (op = .destroy x ∨ ∃ y, op = .moveAssign x y) → eventsOf op (after before twoStreams) = [] := by
  refine closes_once (fun _ => rfl) (by decide) ?_ ?_ rfl
  · refine ⟨nofun, nofun, nofun, nofun, nofun, ?_, nofun, nofun, nofun, trivial⟩
    intro x o hx ho
    cases hx
    cases ho
    rfl
  · intro x
    match x with
    | 0 => rfl
    | 1 => rfl
    | 2 => rfl

end Streams

end Adbcpp
