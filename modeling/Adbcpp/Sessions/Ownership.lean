import Adbcpp.Sessions

/-! Who owns a transport. A transport belongs to the one open session that refers to it, and a
move hands it on. Only its owner calls it, the owner closes it once at most, and from
then on nobody calls it again, because no session that refers to it is open. -/

namespace Adbcpp

open Protocol

variable {τ : Type} [Transport τ]

namespace Logged

/-- Only reads and writes were called from the first state to the second. -/
def Transfers (t t' : Logged τ) : Prop := ∃ new, t'.calls = t.calls ++ new ∧ Call.close ∉ new

omit [Transport τ] in
instance : Std.Refl (Transfers (τ := τ)) := ⟨fun _ => ⟨[], (List.append_nil _).symm, List.not_mem_nil⟩⟩

omit [Transport τ] in
instance : IsTrans (Logged τ) Transfers where
  trans := by
    rintro t t' t'' ⟨new, hnew, hclose⟩ ⟨new', hnew', hclose'⟩
    refine ⟨new ++ new', ?_, ?_⟩
    · rw [hnew', hnew, List.append_assoc]
    · rw [List.mem_append, not_or]
      exact ⟨hclose, hclose'⟩

theorem read_transfers (size : ℕ) : Prog.Steps Transfers (Transport.read size : Action (Logged τ) _) :=
  fun _ => ⟨[.read size], rfl, by simp⟩

theorem write_transfers (data : List Byte) : Prog.Steps Transfers (Transport.write data : Action (Logged τ) Unit) :=
  fun _ => ⟨[.write data], rfl, by simp⟩

@[simp] theorem close_calls (t : Logged τ) : (Transport.close t).calls = t.calls ++ [.close] := rfl

end Logged

/-! ### One session -/

namespace Session

open Logged

/-- What an operation on an open session does: it transfers, and closes the session in the end or not. -/
inductive Uses (s s' : Session (Logged τ)) : Prop
  | kept : Keeps Transfers s s' → Uses s s'
  | closed {u : Session (Logged τ)} : Keeps Transfers s u → s' = u.close → Uses s s'

theorem send_uses (header : Message) (payload : List Byte) (s : Session (Logged τ)) :
    Uses s ((send header payload).run s).2 :=
  .kept (send_keeps write_transfers header payload s)

theorem receivePayload_uses (header : Message) {s u : Session (Logged τ)} (hu : Keeps Transfers s u) :
    Uses s ((receivePayload header).run u).2 := by
  rw [receivePayload]
  split
  · exact .kept hu
  have hread := onTransport_keeps (readExact_steps (read_transfers (τ := τ)) header.dataLength.toNat) u
  cases hrun : (onTransport (readExact header.dataLength.toNat)).run u with
  | mk r v =>
    rw [hrun] at hread
    have hv := trans_of (Keeps Transfers) hu hread
    cases r with
    | error e =>
      rw [Prog.run_bind_error hrun]
      exact .kept hv
    | ok payload =>
      rw [Prog.run_bind_ok hrun]
      split
      · exact .closed hv rfl
      · exact .kept hv

theorem receive_uses (s : Session (Logged τ)) : Uses s (receive.run s).2 := by
  rw [receive, Prog.run_bind_get]
  split
  · exact .kept (refl_of _ s)
  have hread := onTransport_keeps (readExact_steps (read_transfers (τ := τ)) kMessageHeaderSize) s
  cases hrun : (onTransport (readExact kMessageHeaderSize)).run s with
  | mk r u =>
    rw [hrun] at hread
    cases r with
    | error e =>
      rw [Prog.run_bind_error hrun]
      exact .kept hread
    | ok bytes =>
      rw [Prog.run_bind_ok hrun]
      dsimp only
      split
      · exact .closed hread rfl
      split
      · exact .closed hread rfl
      · exact receivePayload_uses _ hread

/-- What is called on the transport of an open session. -/
theorem Uses.calls {s s' : Session (Logged τ)} (h : Uses s s') (hopen : s.closed = false) :
    ∃ new, Call.close ∉ new ∧ s'.transport.calls = s.transport.calls ++ new ++ if s'.closed then [.close] else [] := by
  cases h with
  | kept hkeeps =>
    obtain ⟨⟨new, hnew, hclose⟩, hclosed⟩ := hkeeps
    refine ⟨new, hclose, ?_⟩
    rw [hclosed, hopen, hnew]
    simp
  | @closed u hkeeps heq =>
    obtain ⟨⟨new, hnew, hclose⟩, hclosed⟩ := hkeeps
    refine ⟨new, hclose, ?_⟩
    rw [heq, close, if_neg (by simp [hclosed, hopen]), if_pos rfl, close_calls, hnew]

end Session

/-! ### Programs -/

namespace Sessions

variable {ι κ : Type} [DecidableEq ι] [DecidableEq κ] {s s' : Sessions ι κ (Logged τ)} {op : SessionOperation ι}

/-- The operation makes the session `x` from another one, `y`, or assigns that one to it. -/
def Moves (x y : ι) (s : Sessions ι κ (Logged τ)) : SessionOperation ι → Prop
  | .moveConstruct x' y' => x' = x ∧ y' = y ∧ s.objects x = none ∧ s.objects y ≠ none
  | .moveAssign x' y' => x' = x ∧ y' = y ∧ x ≠ y ∧ s.objects x ≠ none ∧ s.objects y ≠ none
  | _ => False

/-- What an operation of a program does. -/
inductive Effect (s : Sessions ι κ (Logged τ)) (op : SessionOperation ι) : Sessions ι κ (Logged τ) → Prop
  | void : (∀ x y, ¬ Moves x y s op) → Effect s op s
  | moved {x y : ι} {o : SessionObject κ} : Moves x y s op → x ≠ y → s.objects y = some o → Effect s op (s.move x y o)
  | used {x : ι} {o : SessionObject κ} {session : Session (Logged τ)} : op.user = some x →
      s.objects x = some o → o.closed = false → Session.Uses (s.view o) session → Effect s op (s.put x o session)

omit [Transport τ] in
/-- Using a session that is left as it is changes nothing. -/
theorem put_view {x : ι} {o : SessionObject κ} (h : s.objects x = some o) : s.put x o (s.view o) = s := by
  have htransports : Function.update s.transports o.transport (s.transports o.transport) = s.transports :=
    Function.update_eq_self _ _
  have hobjects : Function.update s.objects x (some o) = s.objects := by
    rw [← h, Function.update_eq_self]
  rw [put, view]
  dsimp only
  rw [htransports, hobjects]

omit [DecidableEq ι] [DecidableEq κ] [Transport τ] in
/-- An operation has one source and one target. -/
theorem Moves.unique {x y x' y' : ι} (h : Moves x y s op) (h' : Moves x' y' s op) : x' = x ∧ y' = y := by
  cases op with
  | moveConstruct => exact ⟨h'.1.symm.trans h.1, h'.2.1.symm.trans h.2.1⟩
  | moveAssign => exact ⟨h'.1.symm.trans h.1, h'.2.1.symm.trans h.2.1⟩
  | _ => exact h.elim

omit [DecidableEq ι] [DecidableEq κ] [Transport τ] in
theorem not_moves_of_user {x : ι} (hx : op.user = some x) (y z : ι) : ¬ Moves y z s op := by
  cases op with
  | moveConstruct => cases hx
  | moveAssign => cases hx
  | _ => exact id

theorem use_effect {x : ι} (hx : op.user = some x) {p : Action (Session (Logged τ)) (Option Frame)}
    (hclosed : ∀ session : Session (Logged τ), session.closed = true → (p.run session).2 = session)
    (huses : ∀ session, Session.Uses session (p.run session).2) : Effect s op ((use x p).run s).2 := by
  cases hobject : s.objects x with
  | none =>
    rw [run_use_none hobject]
    exact .void (not_moves_of_user hx)
  | some o =>
    rw [run_use hobject]
    dsimp only
    cases ho : o.closed with
    | true =>
      rw [hclosed (s.view o) ho, put_view hobject]
      exact .void (not_moves_of_user hx)
    | false => exact .used hx hobject ho (huses _)

theorem moveConstruct_effect (x y : ι) (s : Sessions ι κ (Logged τ)) :
    Effect s (.moveConstruct x y) ((exec (.moveConstruct x y)).run s).2 := by
  unfold exec Prog.run
  dsimp only
  split
  next hx hy =>
    refine .moved ⟨rfl, rfl, hx, by simp [hy]⟩ ?_ hy
    rintro rfl
    rw [hx] at hy
    cases hy
  next hnot =>
    refine .void fun x' y' hmoves => ?_
    obtain ⟨rfl, rfl, hx, hy⟩ := hmoves
    obtain ⟨o, ho⟩ := Option.ne_none_iff_exists'.mp hy
    exact hnot o hx ho

theorem moveAssign_effect (x y : ι) (s : Sessions ι κ (Logged τ)) :
    Effect s (.moveAssign x y) ((exec (.moveAssign x y)).run s).2 := by
  unfold exec Prog.run
  dsimp only
  split
  next hx hy =>
    split
    next hxy => exact .void fun x' y' hmoves => hmoves.2.2.1 (hmoves.1.symm.trans (hxy.trans hmoves.2.1))
    next hxy => exact .moved ⟨rfl, rfl, hxy, by simp [hx], by simp [hy]⟩ hxy hy
  next hnot =>
    refine .void fun x' y' hmoves => ?_
    obtain ⟨rfl, rfl, -, hx, hy⟩ := hmoves
    obtain ⟨p, hp⟩ := Option.ne_none_iff_exists'.mp hx
    obtain ⟨o, ho⟩ := Option.ne_none_iff_exists'.mp hy
    exact hnot p o hp ho

theorem exec_effect (op : SessionOperation ι) (s : Sessions ι κ (Logged τ)) : Effect s op ((exec op).run s).2 := by
  cases op with
  | moveConstruct x y => exact moveConstruct_effect x y s
  | moveAssign x y => exact moveAssign_effect x y s
  | close x =>
    apply use_effect rfl
    · intro session h
      exact Session.close_eq_self h
    · intro session
      exact .closed (refl_of _ session) rfl
  | send x header payload =>
    apply use_effect rfl
    · intro session h
      rw [Prog.run_bind_error (Session.send_closed h header payload)]
    · intro session
      rw [Prog.state_bind_pure]
      exact Session.send_uses header payload session
  | receive x =>
    apply use_effect rfl
    · intro session h
      rw [Prog.run_bind_error (Session.receive_closed h)]
    · intro session
      rw [Prog.state_bind_pure]
      exact Session.receive_uses session

/-! ### The owner of a transport -/

/-- Each transport has one session, which is open, and nothing has been called. -/
structure Initial (s : Sessions ι κ (Logged τ)) : Prop where
  fresh : ∀ x o, s.objects x = some o → o.closed = false
  one : ∀ k, ∃! x, ∃ o, s.objects x = some o ∧ o.transport = k
  untouched : ∀ k, (s.transports k).calls = []

omit [DecidableEq ι] [DecidableEq κ] [Transport τ] in
theorem ofTransports_initial (transports : κ → τ) : (ofTransports ι transports).Initial where
  fresh x o hx := by
    cases x with
    | inl k =>
      cases hx
      rfl
    | inr x => cases hx
  one k := by
    refine ⟨.inl k, ⟨_, rfl, rfl⟩, ?_⟩
    rintro (k' | x) ⟨o, hx, hk⟩
    · cases hx
      rw [← hk]
    · cases hx
  untouched _ := rfl

/-- What keeps a transport from being called by two sessions, or once it is closed. -/
structure Owned (s : Sessions ι κ (Logged τ)) : Prop where
  unique : ∀ x y o p, s.objects x = some o → s.objects y = some p → o.closed = false → p.closed = false →
    o.transport = p.transport → x = y
  ended : ∀ x o, s.objects x = some o → Call.close ∈ (s.transports o.transport).calls → o.closed = true
  last : ∀ k before after, (s.transports k).calls = before ++ Call.close :: after → after = []

/-- Some operation of a program has moved the session `y` to another object, and none of those behind it has
moved one to `y`. -/
def MovedFrom (y : ι) (ops : List (SessionOperation ι)) (s : Sessions ι κ (Logged τ)) : Prop :=
  ∃ before op behind, ops = before ++ op :: behind ∧ (∃ x, Moves x y (after before s) op) ∧
    ∀ during op' rest, behind = during ++ op' :: rest → ∀ z, ¬ Moves y z (after (before ++ op :: during) s) op'

/-- What holds behind the operations of a program. At most one open session refers to each transport. The
transport is called by it alone, closed once at most, and not called again. A move gives the other object
what the session had. Closed sessions fail to send and to receive, and so do those that a move has left. -/
structure KeepsOwnership (s : Sessions ι κ (Logged τ)) (ops : List (SessionOperation ι)) : Prop where
  owner : ∀ x y o p, (after ops s).objects x = some o → (after ops s).objects y = some p → o.closed = false →
    p.closed = false → o.transport = p.transport → x = y
  calls : ∀ op k, (((exec op).run (after ops s)).2.transports k).calls ≠ ((after ops s).transports k).calls →
    ∃ x o, op.user = some x ∧ (after ops s).objects x = some o ∧ o.closed = false ∧ o.transport = k
  last : ∀ k before behind, ((after ops s).transports k).calls = before ++ Call.close :: behind → behind = []
  handed : ∀ op x y, Moves x y (after ops s) op →
    ((exec op).run (after ops s)).2.objects x = (after ops s).objects y
  send : ∀ x header payload, (∃ o, (after ops s).objects x = some o ∧ o.closed = true) ∨ MovedFrom x ops s →
    ∃ e, (exec (.send x header payload)).run (after ops s) = (.error e, after ops s) ∧ e.code = .transport
  receive : ∀ x, (∃ o, (after ops s).objects x = some o ∧ o.closed = true) ∨ MovedFrom x ops s →
    ∃ e, (exec (.receive x)).run (after ops s) = (.error e, after ops s) ∧ e.code = .transport

omit [DecidableEq ι] [DecidableEq κ] [Transport τ] in
theorem Initial.owned (h : s.Initial) : s.Owned where
  unique x y o p hx hy _ _ hk := (h.one o.transport).unique ⟨o, hx, rfl⟩ ⟨p, hy, hk.symm⟩
  ended x o _ hclose := by
    rw [h.untouched] at hclose
    cases hclose
  last k before after hcalls := by
    rw [h.untouched] at hcalls
    cases (List.append_eq_nil_iff.mp hcalls.symm).2

omit [DecidableEq κ] [Transport τ] in
/-- The objects behind a move. -/
theorem move_objects {x y z : ι} {o p : SessionObject κ} (h : (s.move x y o).objects z = some p) :
    (z = x ∧ p = o) ∨ (z ≠ x ∧ z = y ∧ p = o.movedFrom) ∨ (z ≠ x ∧ z ≠ y ∧ s.objects z = some p) := by
  rw [move] at h
  dsimp only at h
  by_cases hzx : z = x
  · subst hzx
    rw [Function.update_self] at h
    exact .inl ⟨rfl, (Option.some.inj h).symm⟩
  rw [Function.update_of_ne hzx] at h
  by_cases hzy : z = y
  · subst hzy
    rw [Function.update_self] at h
    exact .inr (.inl ⟨hzx, rfl, (Option.some.inj h).symm⟩)
  · rw [Function.update_of_ne hzy] at h
    exact .inr (.inr ⟨hzx, hzy, h⟩)

omit [DecidableEq κ] [Transport τ] in
/-- A move hands the transport on. -/
theorem Owned.move (h : s.Owned) {x y : ι} {o : SessionObject κ} (hxy : x ≠ y) (hy : s.objects y = some o) :
    (s.move x y o).Owned := by
  refine ⟨?_, ?_, h.last⟩
  · intro z w p q hz hw hp hq hk
    rcases move_objects hz with ⟨rfl, rfl⟩ | ⟨-, -, rfl⟩ | ⟨hzx, hzy, hz'⟩
    · rcases move_objects hw with ⟨rfl, -⟩ | ⟨-, -, rfl⟩ | ⟨-, hwy, hw'⟩
      · rfl
      · cases hq
      · exact absurd (h.unique y w p q hy hw' hp hq hk).symm hwy
    · cases hp
    · rcases move_objects hw with ⟨rfl, rfl⟩ | ⟨-, -, rfl⟩ | ⟨-, -, hw'⟩
      · exact absurd (h.unique z y p q hz' hy hp hq hk) hzy
      · cases hq
      · exact h.unique z w p q hz' hw' hp hq hk
  · intro z p hz hclose
    rcases move_objects hz with ⟨-, rfl⟩ | ⟨-, -, rfl⟩ | ⟨-, -, hz⟩
    · exact h.ended y p hy hclose
    · rfl
    · exact h.ended z p hz hclose

/-- Where calls without a close end with one or not, nothing is behind a close. -/
theorem eq_nil_of_last {calls before after : List Call} {closed : Bool} (hcalls : Call.close ∉ calls)
    (h : calls ++ (if closed then [Call.close] else []) = before ++ Call.close :: after) : after = [] := by
  rcases List.eq_nil_or_concat after with hnil | ⟨after', call, rfl⟩
  · exact hnil
  exfalso
  apply hcalls
  cases closed with
  | false =>
    rw [if_neg (by simp), List.append_nil] at h
    simp [h]
  | true =>
    rw [if_pos rfl, List.concat_eq_append, ← List.cons_append, ← List.append_assoc] at h
    obtain ⟨rfl, -⟩ := List.append_inj' h rfl
    simp

omit [Transport τ] in
/-- The objects behind a use of a session. -/
theorem put_objects {x z : ι} {o p : SessionObject κ} {session : Session (Logged τ)}
    (h : (s.put x o session).objects z = some p) :
    (z = x ∧ p = { o with closed := session.closed }) ∨ (z ≠ x ∧ s.objects z = some p) := by
  rw [put] at h
  dsimp only at h
  by_cases hzx : z = x
  · subst hzx
    rw [Function.update_self] at h
    exact .inl ⟨rfl, (Option.some.inj h).symm⟩
  · rw [Function.update_of_ne hzx] at h
    exact .inr ⟨hzx, h⟩

omit [Transport τ] in
/-- What was open behind a use was open before it, and referred to the same transport. -/
theorem put_open {x z : ι} {o p : SessionObject κ} {session : Session (Logged τ)} (hx : s.objects x = some o)
    (ho : o.closed = false) (hz : (s.put x o session).objects z = some p) (hp : p.closed = false) :
    ∃ p', s.objects z = some p' ∧ p'.closed = false ∧ p'.transport = p.transport := by
  rcases put_objects hz with ⟨rfl, rfl⟩ | ⟨-, hz'⟩
  · exact ⟨o, hx, ho, rfl⟩
  · exact ⟨p, hz', hp, rfl⟩

omit [Transport τ] in
theorem put_transports_self (s : Sessions ι κ (Logged τ)) (x : ι) (o : SessionObject κ) (session : Session (Logged τ)) :
    (s.put x o session).transports o.transport = session.transport := Function.update_self _ _ _

omit [Transport τ] in
/-- The other transports are not touched. -/
theorem put_transports_of_ne {x : ι} {o : SessionObject κ} {session : Session (Logged τ)} {k : κ}
    (h : k ≠ o.transport) : (s.put x o session).transports k = s.transports k := Function.update_of_ne h _ _

/-- What a use calls goes behind the calls so far, of which none is a close. -/
theorem Owned.put_calls (h : s.Owned) {x : ι} {o : SessionObject κ} (hx : s.objects x = some o)
    (ho : o.closed = false) {session : Session (Logged τ)} (huses : Session.Uses (s.view o) session) :
    ∃ calls, Call.close ∉ calls ∧ ((s.put x o session).transports o.transport).calls =
      calls ++ if session.closed then [.close] else [] := by
  obtain ⟨new, hnew, hcalls⟩ := huses.calls ho
  refine ⟨(s.transports o.transport).calls ++ new, ?_, ?_⟩
  · rw [List.mem_append, not_or]
    refine ⟨fun hclose => ?_, hnew⟩
    rw [h.ended x o hx hclose] at ho
    cases ho
  · rw [put_transports_self, hcalls]
    rfl

/-- A use leaves the transport with its owner, or closes it and leaves nobody. -/
theorem Owned.use (h : s.Owned) {x : ι} {o : SessionObject κ} (hx : s.objects x = some o) (ho : o.closed = false)
    {session : Session (Logged τ)} (huses : Session.Uses (s.view o) session) : (s.put x o session).Owned := by
  obtain ⟨calls, hnone, hself⟩ := h.put_calls hx ho huses
  refine ⟨?_, ?_, ?_⟩
  · intro z w p q hz hw hp hq hk
    obtain ⟨p', hz', hp', hpk⟩ := put_open hx ho hz hp
    obtain ⟨q', hw', hq', hqk⟩ := put_open hx ho hw hq
    exact h.unique z w p' q' hz' hw' hp' hq' (hpk.trans (hk.trans hqk.symm))
  · intro z p hz hclose
    by_cases hk : p.transport = o.transport
    · rw [hk, hself, List.mem_append] at hclose
      have hclosed : session.closed = true := by
        rcases hclose with hclose | hclose
        · exact absurd hclose hnone
        · by_contra hopen
          rw [if_neg hopen] at hclose
          cases hclose
      rcases put_objects hz with ⟨rfl, rfl⟩ | ⟨hzx, hz'⟩
      · exact hclosed
      -- Another open object would have been a second owner.
      · by_contra hopen
        exact hzx (h.unique z x p o hz' hx (Bool.eq_false_iff.mpr hopen) ho hk)
    · rw [put_transports_of_ne hk] at hclose
      rcases put_objects hz with ⟨rfl, rfl⟩ | ⟨-, hz'⟩
      · exact absurd rfl hk
      · exact h.ended z p hz' hclose
  · intro k before after hk
    by_cases hko : k = o.transport
    · rw [hko, hself] at hk
      exact eq_nil_of_last hnone hk
    · rw [put_transports_of_ne hko] at hk
      exact h.last k before after hk

theorem Owned.exec (h : s.Owned) (op : SessionOperation ι) : ((exec op).run s).2.Owned := by
  have heffect := exec_effect op s
  generalize ((Sessions.exec op).run s).2 = s' at heffect ⊢
  cases heffect with
  | void => exact h
  | moved _ hxy hy => exact h.move hxy hy
  | used _ hx ho huses => exact h.use hx ho huses

theorem Owned.after (h : s.Owned) (ops : List (SessionOperation ι)) : (after ops s).Owned := by
  induction ops generalizing s with
  | nil => exact h
  | cons op ops ih => exact ih (h.exec op)

/-! ### What a move leaves -/

theorem after_append (ops more : List (SessionOperation ι)) (s : Sessions ι κ (Logged τ)) :
    after (ops ++ more) s = after more (after ops s) := by
  induction ops generalizing s with
  | nil => rfl
  | cons op ops ih => exact ih _

/-- The other object has the session now. -/
theorem exec_handed {x y : ι} (h : Moves x y s op) : ((exec op).run s).2.objects x = s.objects y := by
  have heffect := exec_effect op s
  generalize ((exec op).run s).2 = s' at heffect ⊢
  cases heffect with
  | void hnone => exact absurd h (hnone x y)
  | moved hmoves _ hy =>
    obtain ⟨rfl, rfl⟩ := hmoves.unique h
    rw [hy]
    exact Function.update_self _ _ _
  | used hx => exact absurd h (not_moves_of_user hx x y)

/-- The session that was moved is closed. -/
theorem exec_leaves {x y : ι} (h : Moves x y s op) :
    ∃ o, ((exec op).run s).2.objects y = some o ∧ o.closed = true := by
  have heffect := exec_effect op s
  generalize ((exec op).run s).2 = s' at heffect ⊢
  cases heffect with
  | void hnone => exact absurd h (hnone x y)
  | @moved x' y' o hmoves hne hy =>
    obtain ⟨rfl, rfl⟩ := hmoves.unique h
    refine ⟨o.movedFrom, ?_, rfl⟩
    rw [move]
    dsimp only
    rw [Function.update_of_ne hne.symm, Function.update_self]
  | used hx => exact absurd h (not_moves_of_user hx x y)

/-- A closed session stays so, unless another one is moved to it. -/
theorem exec_closed {y : ι} {o : SessionObject κ} (hy : s.objects y = some o) (ho : o.closed = true)
    (h : ∀ z, ¬ Moves y z s op) : ∃ o, ((exec op).run s).2.objects y = some o ∧ o.closed = true := by
  have heffect := exec_effect op s
  generalize ((exec op).run s).2 = s' at heffect ⊢
  cases heffect with
  | void => exact ⟨o, hy, ho⟩
  | @moved x' y' o' hmoves hne hy' =>
    have hyx : y ≠ x' := by
      rintro rfl
      exact h y' hmoves
    rw [move]
    dsimp only
    rw [Function.update_of_ne hyx]
    by_cases hyy : y = y'
    · subst hyy
      exact ⟨o'.movedFrom, Function.update_self _ _ _, rfl⟩
    · rw [Function.update_of_ne hyy]
      exact ⟨o, hy, ho⟩
  | @used x' o' session _ hx' ho' =>
    have hyx : y ≠ x' := by
      rintro rfl
      rw [hy] at hx'
      cases hx'
      rw [ho] at ho'
      cases ho'
    rw [put]
    dsimp only
    rw [Function.update_of_ne hyx]
    exact ⟨o, hy, ho⟩

theorem after_closed {y : ι} {o : SessionObject κ} (hy : s.objects y = some o) (ho : o.closed = true)
    {ops : List (SessionOperation ι)}
    (h : ∀ during op rest, ops = during ++ op :: rest → ∀ z, ¬ Moves y z (after during s) op) :
    ∃ o, (after ops s).objects y = some o ∧ o.closed = true := by
  induction ops generalizing s o with
  | nil => exact ⟨o, hy, ho⟩
  | cons op ops ih =>
    obtain ⟨o', hy', ho'⟩ := exec_closed hy ho (h [] op ops rfl)
    refine ih hy' ho' fun during op' rest hsplit => ?_
    exact h (op :: during) op' rest (congrArg (op :: ·) hsplit)

/-- A session that has been moved away is closed until another one is moved to it. -/
theorem MovedFrom.closed {y : ι} {ops : List (SessionOperation ι)} (h : MovedFrom y ops s) :
    ∃ o, (after ops s).objects y = some o ∧ o.closed = true := by
  obtain ⟨before, op, behind, rfl, ⟨x, hmoves⟩, hstays⟩ := h
  obtain ⟨o, hy, ho⟩ := exec_leaves hmoves
  rw [after_append]
  refine after_closed hy ho fun during op' rest hsplit => ?_
  have hnone := hstays during op' rest hsplit
  rwa [after_append] at hnone

/-! ### Programs of sessions -/

theorem send_fails {x : ι} {o : SessionObject κ} (hx : s.objects x = some o) (ho : o.closed = true) (header : Message)
    (payload : List Byte) : ∃ e, (exec (.send x header payload)).run s = (.error e, s) ∧ e.code = .transport := by
  have hrun := Session.send_closed (s := s.view o) ho header payload
  refine ⟨.of .transport "the session is closed", ?_, rfl⟩
  rw [exec, run_use hx, Prog.run_bind_error hrun, put_view hx]

theorem receive_fails {x : ι} {o : SessionObject κ} (hx : s.objects x = some o) (ho : o.closed = true) :
    ∃ e, (exec (.receive x)).run s = (.error e, s) ∧ e.code = .transport := by
  have hrun := Session.receive_closed (s := s.view o) ho
  refine ⟨.of .transport "the session is closed", ?_, rfl⟩
  rw [exec, run_use hx, Prog.run_bind_error hrun, put_view hx]

/-- What is called is called by the owner. -/
theorem exec_calls {k : κ} (h : (((exec op).run s).2.transports k).calls ≠ (s.transports k).calls) :
    ∃ x o, op.user = some x ∧ s.objects x = some o ∧ o.closed = false ∧ o.transport = k := by
  have heffect := exec_effect op s
  generalize ((exec op).run s).2 = s' at heffect h
  cases heffect with
  | void => exact absurd rfl h
  | moved => exact absurd rfl h
  | @used x o session hop hx ho =>
    refine ⟨x, o, hop, hx, ho, ?_⟩
    by_contra hne
    exact h (by rw [put_transports_of_ne (Ne.symm hne)])

/-- Whatever a program does with its sessions, a transport is touched by its owner alone. -/
theorem after_keepsOwnership (h : s.Initial) (ops : List (SessionOperation ι)) : KeepsOwnership s ops := by
  have howned := h.owned.after ops
  have hclosed {x : ι} (hx : (∃ o, (after ops s).objects x = some o ∧ o.closed = true) ∨ MovedFrom x ops s) :
      ∃ o, (after ops s).objects x = some o ∧ o.closed = true := hx.elim id MovedFrom.closed
  refine ⟨howned.unique, fun _ _ => exec_calls, howned.last, fun _ _ _ => exec_handed, ?_, ?_⟩
  · intro x header payload hx
    obtain ⟨o, hobject, ho⟩ := hclosed hx
    exact send_fails hobject ho header payload
  · intro x hx
    obtain ⟨o, hobject, ho⟩ := hclosed hx
    exact receive_fails hobject ho

/-- The first transport's session is moved over the second one's, which is open, and to another
object, which is closed; the second transport is left to itself. -/
theorem after_keepsOwnership_moved :
    KeepsOwnership (ofTransports Unit fun _ : Bool => ScriptedTransport.mk [] [] [] [])
      [.moveAssign (.inl true) (.inl false), .moveAssign (.inl true) (.inl true), .moveConstruct (.inr ()) (.inl true),
        .close (.inr ()), .close (.inl true), .receive (.inl false)] :=
  after_keepsOwnership (ofTransports_initial _) _

end Sessions

end Adbcpp
