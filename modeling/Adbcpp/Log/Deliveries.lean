import Adbcpp.Log

/-! What a sink is given. Every message that is delivered was logged by the thread that delivers it,
and its sink was installed by one call together with a level that admits the message: a
sink is never found with the level of another call. No message is delivered twice, and no
empty function is called. -/

namespace Adbcpp.Log

open Locking

variable {ι κ : Type}

/-- One call has installed the sink together with a level that admits this one. -/
def Admitted (trace : List (ι × Event κ)) (sink : κ) (level : LogLevel) : Prop :=
  ∃ j installed, (j, Event.called (.setLogger (some sink) installed)) ∈ trace ∧ level ≤ installed

/-- What is seen after the trace has its reason in it. -/
def Explained (trace : List (ι × Event κ)) : ι × Event κ → Prop
  | (_, .called _) => True
  | (i, .answered level writes) => (i, Event.called (.isLogging level)) ∈ trace ∧
      (writes = true → ∃ sink, Admitted trace sink level)
  | (i, .delivered sink level message) => (i, Event.called (.log level message)) ∈ trace ∧ Admitted trace sink level
  | (_, .badFunctionCall) => False

/-- What a thread has to do has its reason in the trace. -/
def Pending (trace : List (ι × Event κ)) (i : ι) : Todo κ → Prop
  | .call _ => True
  | .critical c => (i, Event.called c) ∈ trace
  | .answer level writes => Explained trace (i, .answered level writes)
  | .deliver copy level message => ∃ sink, copy = some sink ∧ Explained trace (i, .delivered sink level message)

theorem Admitted.append {trace : List (ι × Event κ)} {sink : κ} {level : LogLevel} (h : Admitted trace sink level)
    (more : List (ι × Event κ)) : Admitted (trace ++ more) sink level := by
  obtain ⟨j, installed, hmem, hle⟩ := h
  exact ⟨j, installed, List.mem_append_left more hmem, hle⟩

theorem Explained.append {trace : List (ι × Event κ)} {x : ι × Event κ} (h : Explained trace x)
    (more : List (ι × Event κ)) : Explained (trace ++ more) x := by
  match x with
  | (_, .called _) => trivial
  | (i, .answered level writes) =>
    refine ⟨List.mem_append_left more h.1, fun hwrites => ?_⟩
    obtain ⟨sink, hsink⟩ := h.2 hwrites
    exact ⟨sink, hsink.append more⟩
  | (i, .delivered sink level message) => exact ⟨List.mem_append_left more h.1, h.2.append more⟩
  | (_, .badFunctionCall) => exact h

theorem Pending.append {trace : List (ι × Event κ)} {i : ι} {a : Todo κ} (h : Pending trace i a)
    (more : List (ι × Event κ)) : Pending (trace ++ more) i a := by
  cases a with
  | call c => trivial
  | critical c => exact List.mem_append_left more h
  | answer level writes =>
    have hexplained : Explained trace (i, .answered level writes) := h
    exact hexplained.append more
  | deliver copy level message =>
    obtain ⟨sink, hcopy, hsink⟩ := h
    exact ⟨sink, hcopy, hsink.append more⟩

/-- The logger, what the threads have to do and what was seen all have their reasons. -/
structure Accounted (s : State ι (Logger κ) (Todo κ) (Event κ)) : Prop where
  logger : ∀ sink, s.shared.sink = some sink → ∃ j, (j, Event.called (.setLogger (some sink) s.shared.level)) ∈ s.trace
  threads : ∀ i, ∀ a ∈ s.threads i, Pending s.trace i a
  trace : ∀ pre x post, s.trace = pre ++ x :: post → Explained pre x

theorem start_accounted (program : ι → List (Call κ)) : Accounted (start program) where
  logger _ h := nomatch h
  threads i a ha := by
    obtain ⟨c, -, rfl⟩ := List.mem_map.mp ha
    trivial
  trace pre x post h := by simp [start] at h

/-- A logger that writes a level has a sink that is installed with it. -/
theorem Accounted.writes {s : State ι (Logger κ) (Todo κ) (Event κ)} (h : Accounted s) {level : LogLevel}
    (hwrites : s.shared.writes level = true) : ∃ sink, s.shared.sink = some sink ∧ Admitted s.trace sink level := by
  rw [Logger.writes, Bool.and_eq_true, decide_eq_true_eq] at hwrites
  obtain ⟨sink, hsink⟩ := Option.isSome_iff_exists.mp hwrites.1
  obtain ⟨j, hj⟩ := h.logger sink hsink
  exact ⟨sink, hsink, j, s.shared.level, hj, hwrites.2⟩

/-- What is left to do of a call has its reason. -/
theorem Accounted.after {s : State ι (Logger κ) (Todo κ) (Event κ)} (h : Accounted s) {i : ι} {c : Call κ}
    (hcalled : (i, Event.called c) ∈ s.trace) {a : Todo κ} (ha : a ∈ c.after s.shared) : Pending s.trace i a := by
  cases c with
  | setLogger sink level => simp [Call.after] at ha
  | clearLogger => simp [Call.after] at ha
  | isLogging level =>
    have heq : a = .answer level (s.shared.writes level) := by simpa [Call.after] using ha
    subst heq
    refine ⟨hcalled, fun hwrites => ?_⟩
    obtain ⟨sink, -, hadmitted⟩ := h.writes hwrites
    exact ⟨sink, hadmitted⟩
  | log level message =>
    by_cases hwrites : s.shared.writes level
    · have heq : a = .deliver s.shared.sink level message := by simpa [Call.after, hwrites] using ha
      subst heq
      obtain ⟨sink, hsink, hadmitted⟩ := h.writes hwrites
      exact ⟨sink, hsink, hcalled, hadmitted⟩
    · simp [Call.after, hwrites] at ha

/-- What a call leaves in the logger has its reason. -/
theorem Accounted.effect {s : State ι (Logger κ) (Todo κ) (Event κ)} (h : Accounted s) {i : ι} {c : Call κ}
    (hcalled : (i, Event.called c) ∈ s.trace) {sink : κ} (hsink : (c.effect s.shared).sink = some sink) :
    ∃ j, (j, Event.called (.setLogger (some sink) (c.effect s.shared).level)) ∈ s.trace := by
  cases c with
  | setLogger sink' level =>
    have heq : sink' = some sink := hsink
    exact ⟨i, heq ▸ hcalled⟩
  | clearLogger => cases hsink
  | isLogging level => exact h.logger sink hsink
  | log level message => exact h.logger sink hsink

section Steps

variable [DecidableEq ι] {body : List (ι × Event κ) → List (Call κ)}

/-- A thread gets things to do that have their reasons. -/
theorem pending_put {s : State ι (Logger κ) (Todo κ) (Event κ)} {trace : List (ι × Event κ)}
    (h : ∀ j, ∀ b ∈ s.threads j, Pending trace j b) {i : ι} {todo : List (Todo κ)}
    (hnew : ∀ b ∈ todo, Pending trace i b) : ∀ j, ∀ b ∈ (s.put i todo).threads j, Pending trace j b := by
  intro j b hb
  by_cases hj : j = i
  · subst hj
    rw [State.put_self] at hb
    exact hnew b hb
  · rw [State.put_of_ne s hj] at hb
    exact h j b hb

/-- A section keeps the reasons. -/
theorem section_accounted {s : State ι (Logger κ) (Todo κ) (Event κ)} (h : Accounted s) {i : ι} {c : Call κ}
    {rest : List (Todo κ)} (hthread : s.threads i = .critical c :: rest) :
    Accounted { s.put i (c.after s.shared ++ rest) with shared := c.effect s.shared } := by
  have hcalled : (i, Event.called c) ∈ s.trace := h.threads i (.critical c) (by simp [hthread])
  refine ⟨fun sink hsink => h.effect hcalled hsink, pending_put h.threads fun b hb => ?_, h.trace⟩
  rcases List.mem_append.mp hb with hafter | hrest
  · exact h.after hcalled hafter
  · exact h.threads i b (by simp [hthread, hrest])

/-- A step that can be seen keeps the reasons, where it has one itself. -/
theorem visible_accounted {s : State ι (Logger κ) (Todo κ) (Event κ)} (h : Accounted s) {i : ι} {a : Todo κ}
    {rest todo : List (Todo κ)} {e : Event κ} (hthread : s.threads i = a :: rest) (he : Explained s.trace (i, e))
    (htodo : ∀ b ∈ todo, Pending (s.trace ++ [(i, e)]) i b) :
    Accounted { s.put i (todo ++ rest) with trace := s.trace ++ [(i, e)] } := by
  refine ⟨fun sink hsink => ?_, pending_put (fun j b hb => (h.threads j b hb).append _) fun b hb => ?_, ?_⟩
  · obtain ⟨j, hj⟩ := h.logger sink hsink
    exact ⟨j, List.mem_append_left _ hj⟩
  · rcases List.mem_append.mp hb with hb | hrest
    · exact htodo b hb
    · exact (h.threads i b (by simp [hthread, hrest])).append _
  · intro pre x post hsplit
    change s.trace ++ [(i, e)] = pre ++ x :: post at hsplit
    rcases List.eq_nil_or_concat post with rfl | ⟨post, y, rfl⟩
    · obtain ⟨rfl, hx⟩ := List.append_inj' hsplit rfl
      cases hx
      exact he
    · rw [List.concat_eq_append, ← List.cons_append, ← List.append_assoc] at hsplit
      exact h.trace pre x post (List.append_inj' hsplit rfl).1

/-- One step keeps the reasons. -/
theorem step_accounted {s t : State ι (Logger κ) (Todo κ) (Event κ)} (h : Accounted s)
    (hstep : State.Step (meaning body) s t) : Accounted t := by
  cases hstep with
  | @locked i a rest sec hthread hmeaning =>
    match a with
    | .critical c =>
      cases hmeaning
      rw [section_run]
      exact section_accounted h hthread
    | .deliver none _ _ => cases hmeaning
    | .deliver (some _) _ _ => cases hmeaning
  | @visible i a rest todo e hthread hmeaning =>
    have hpending : Pending s.trace i a := h.threads i a (by simp [hthread])
    match a with
    | .call c =>
      cases hmeaning
      exact visible_accounted h hthread trivial (by simp [Pending])
    | .answer level writes =>
      cases hmeaning
      exact visible_accounted h hthread hpending (by simp [Pending])
    | .deliver none level message =>
      obtain ⟨sink, hcopy, -⟩ := hpending
      cases hcopy
    | .deliver (some sink) level message =>
      obtain ⟨sink', hcopy, hexplained⟩ := hpending
      cases hcopy
      cases hmeaning
      exact visible_accounted h hthread hexplained (by simp [Pending])

theorem run_accounted {s t : State ι (Logger κ) (Todo κ) (Event κ)} (h : Accounted s)
    (hrun : Relation.ReflTransGen (State.Step (meaning body)) s t) : Accounted t := by
  induction hrun with
  | refl => exact h
  | tail _ hstep ih => exact step_accounted ih hstep

end Steps

/-! ### No message twice -/

section Counting

variable [DecidableEq ι]

/-- The thread has still to deliver a message of this kind, or to see whether it is written. -/
def Todo.pends (level : LogLevel) (message : List Byte) : Todo κ → Bool
  | .critical (.log level' message') => level' = level && message' = message
  | .deliver _ level' message' => level' = level && message' = message
  | _ => false

def Event.logs (i : ι) (level : LogLevel) (message : List Byte) : ι × Event κ → Bool
  | (j, .called (.log level' message')) => j = i && (level' = level && message' = message)
  | _ => false

def Event.delivers (i : ι) (level : LogLevel) (message : List Byte) : ι × Event κ → Bool
  | (j, .delivered _ level' message') => j = i && (level' = level && message' = message)
  | _ => false

/-- The messages that a thread has delivered, or is still to deliver, are not more than it has logged. -/
def Within (s : State ι (Logger κ) (Todo κ) (Event κ)) : Prop :=
  ∀ i level message, s.trace.countP (Event.delivers i level message) + (s.threads i).countP (Todo.pends level message) ≤
    s.trace.countP (Event.logs i level message)

theorem start_within (program : ι → List (Call κ)) : Within (start program) := by
  intro i level message
  simp [start, List.countP_map, Function.comp_def, Todo.pends]

/-- A call that has been decided on has no more to deliver than before. -/
theorem countP_after_le (c : Call κ) (s : Logger κ) (level : LogLevel) (message : List Byte) :
    (c.after s).countP (Todo.pends level message) ≤ [Todo.critical c].countP (Todo.pends level message) := by
  cases c with
  | log level' message' =>
    rw [Call.after]
    split <;> simp [Todo.pends, List.countP_cons]
  | _ => simp [Call.after, Todo.pends]

variable {body : List (ι × Event κ) → List (Call κ)}

/-- A step that can be seen delivers what was to be delivered, and is to deliver what has been logged. -/
theorem visible_within {i : ι} {a : Todo κ} {e : Event κ} {todo : List (ι × Event κ) → List (Todo κ)}
    (hmeaning : meaning body a = .visible e todo) (trace : List (ι × Event κ)) (level : LogLevel)
    (message : List Byte) :
    [(i, e)].countP (Event.delivers i level message) + (todo trace).countP (Todo.pends level message) ≤
      [a].countP (Todo.pends level message) + [(i, e)].countP (Event.logs i level message) := by
  match a with
  | .call c =>
    cases hmeaning
    cases c <;> simp [Event.delivers, Event.logs, Todo.pends, List.countP_cons]
  | .critical c => cases hmeaning
  | .answer level' writes =>
    cases hmeaning
    simp [Event.delivers, Todo.pends, List.countP_map, Function.comp_def]
  | .deliver none level' message' =>
    cases hmeaning
    simp [Event.delivers]
  | .deliver (some sink) level' message' =>
    cases hmeaning
    simp [Event.delivers, Todo.pends, List.countP_cons, List.countP_map, Function.comp_def]

theorem step_within {s t : State ι (Logger κ) (Todo κ) (Event κ)} (h : Within s)
    (hstep : State.Step (meaning body) s t) : Within t := by
  intro j level message
  have hbefore := h j level message
  cases hstep with
  | @locked i a rest sec hthread hmeaning =>
    match a with
    | .critical c =>
      cases hmeaning
      by_cases hj : j = i
      · subst hj
        have hafter := countP_after_le c s.shared level message
        simp only [section_run, State.put_self, State.put_trace, List.countP_append]
        rw [hthread, List.countP_cons] at hbefore
        rw [List.countP_singleton] at hafter
        omega
      · simpa only [State.put_of_ne s hj, State.put_trace] using hbefore
    | .deliver none _ _ => cases hmeaning
    | .deliver (some _) _ _ => cases hmeaning
  | @visible i a rest todo e hthread hmeaning =>
    have hcount := visible_within (i := i) hmeaning (s.trace ++ [(i, e)]) level message
    by_cases hj : j = i
    · subst hj
      simp only [State.put_self, List.countP_append]
      rw [hthread, ← List.singleton_append, List.countP_append] at hbefore
      omega
    · have hdelivers : Event.delivers j level message (i, e) = false := by cases e <;> simp [Event.delivers, Ne.symm hj]
      simp only [State.put_of_ne s hj, List.countP_append, List.countP_singleton, hdelivers]
      simp only [Bool.false_eq_true, if_false]
      omega

theorem run_within {s t : State ι (Logger κ) (Todo κ) (Event κ)} (h : Within s)
    (hrun : Relation.ReflTransGen (State.Step (meaning body)) s t) : Within t := by
  induction hrun with
  | refl => exact h
  | tail _ hstep ih => exact step_within ih hstep

/-- Whatever the threads call and whatever the sinks call in turn, at every moment and in every interleaving of the
accesses to the logger: what has been seen has its reason in what was seen before it, and
no thread has delivered a message more often than it has logged it. -/
theorem deliveries (program : ι → List (Call κ)) {s : Held ι (Logger κ) (Todo κ) (Event κ)}
    (hrun : Relation.ReflTransGen (Held.Step (meaning body)) { toState := start program } s) :
    (∀ pre x post, s.trace = pre ++ x :: post → Explained pre x) ∧
    ∀ i level message, s.trace.countP (Event.delivers i level message) ≤ s.trace.countP (Event.logs i level message) := by
  have hsettled := Held.run_settle (meaning body) hrun
  have haccounted := (run_accounted (start_accounted program) hsettled).trace
  rw [Held.settle_trace] at haccounted
  refine ⟨haccounted, fun i level message => ?_⟩
  have hwithin := run_within (start_within program) hsettled i level message
  rw [Held.settle_trace] at hwithin
  omega

end Counting

/-- A thread installs a sink and logs a message, and the sink asks on its first message whether the logger
still writes. -/
theorem deliveries_run :
    Explained [((), Event.called (.setLogger (some ()) .info)), ((), .called (.log .warning [0x21])),
        ((), .delivered () .warning [0x21]), ((), .called (.isLogging .info))]
      ((), .answered .info true) := by
  let body : List (Unit × Event Unit) → List (Call Unit) := fun trace =>
    if trace.length = 3 then [.isLogging .info] else []
  let program : Unit → List (Call Unit) := fun _ => [.setLogger (some ()) .info, .log .warning [0x21]]
  have hstart := Relation.ReflTransGen.refl (r := Held.Step (meaning body)) (a := { toState := start program })
  have hset := hstart.tail (.visible (i := ()) (fun _ h => nomatch h) rfl rfl)
  have hset := (((hset.tail (.enter (i := ()) rfl rfl rfl)).tail (.access rfl)).tail (.access rfl)).tail (.leave rfl)
  have hlog := hset.tail (.visible (i := ()) (fun _ h => nomatch h) rfl rfl)
  have hlog := (hlog.tail (.enter (i := ()) rfl rfl rfl)).tail (.access rfl)
  have hlog := ((hlog.tail (.access rfl)).tail (.access rfl)).tail (.leave rfl)
  have hdelivered := hlog.tail (.visible (i := ()) (fun _ h => nomatch h) rfl rfl)
  have hasked := hdelivered.tail (.visible (i := ()) (fun _ h => nomatch h) rfl rfl)
  have hasked := (((hasked.tail (.enter (i := ()) rfl rfl rfl)).tail (.access rfl)).tail (.access rfl)).tail (.leave rfl)
  have hanswered := hasked.tail (.visible (i := ()) (fun _ h => nomatch h) rfl rfl)
  exact (deliveries program hanswered).1 _ _ [] rfl

end Adbcpp.Log
