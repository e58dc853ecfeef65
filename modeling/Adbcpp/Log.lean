import Adbcpp.Error
import Adbcpp.Library.Locking

/-! The logger of the process. It has a sink and a level, which all threads share under one
mutex. A message is given to a copy of the sink when the mutex has been released, so that a
sink may log again and may even replace itself. A message is delivered only where a sink
has been installed together with a level that admits it, and the logger never blocks. -/

namespace Adbcpp.Log

open Locking

/-- The severity of a message, from the least to the most verbose. -/
inductive LogLevel
  | error
  | warning
  | info
  | debug
  | trace
  deriving DecidableEq, Repr

def LogLevel.value : LogLevel → ℕ
  | .error => 0
  | .warning => 1
  | .info => 2
  | .debug => 3
  | .trace => 4

instance : LE LogLevel := ⟨fun a b => a.value ≤ b.value⟩

instance (a b : LogLevel) : Decidable (a ≤ b) := inferInstanceAs (Decidable (a.value ≤ b.value))

/-- What a program calls. A sink is some `κ`, or an empty function. -/
inductive Call (κ : Type)
  | setLogger (sink : Option κ) (level : LogLevel)
  | clearLogger
  | isLogging (level : LogLevel)
  | log (level : LogLevel) (message : List Byte)
  deriving DecidableEq, Repr

/-- `current_sink` and `current_level`. -/
structure Logger (κ : Type) where
  sink : Option κ := none
  level : LogLevel := .info
  deriving DecidableEq, Repr

/-- What a thread has to do: a call, the section of a call, what `is_logging` returns, and the copy of the
sink that a message is for. -/
inductive Todo (κ : Type)
  | call (c : Call κ)
  | critical (c : Call κ)
  | answer (level : LogLevel) (writes : Bool)
  | deliver (copy : Option κ) (level : LogLevel) (message : List Byte)

/-- What can be seen of a thread. -/
inductive Event (κ : Type)
  | called (c : Call κ)
  | answered (level : LogLevel) (writes : Bool)
  | delivered (sink : κ) (level : LogLevel) (message : List Byte)
  /-- An empty function was called. -/
  | badFunctionCall
  deriving DecidableEq

variable {κ : Type}

/-- What a function does while it holds the mutex. -/
def Call.section : Call κ → Section (Logger κ) (Todo κ)
  | .setLogger sink level => .access (fun s => { s with level }) fun _ => .access (fun s => { s with sink }) fun _ => .done []
  | .clearLogger => .access (fun s => { s with sink := none }) fun _ => .done []
  | .isLogging level => .access id fun s =>
    if s.sink.isNone then .done [.answer level false]
    else .access id fun s => .done [.answer level (decide (level ≤ s.level))]
  | .log level message => .access id fun s =>
    if s.sink.isNone then .done []
    else .access id fun s =>
      if ¬ level ≤ s.level then .done []
      else .access id fun s => .done [.deliver s.sink level message]

variable {ι : Type}

/-- The steps of a thread. `body` is what it calls in turn when a sink has been given a message or
`is_logging` has returned: the last event of the trace, of which all the rest is in front. -/
def meaning (body : List (ι × Event κ) → List (Call κ)) : Todo κ → Work ι (Logger κ) (Todo κ) (Event κ)
  | .call c => .visible (.called c) fun _ => [.critical c]
  | .critical c => .locked c.section
  | .answer level writes => .visible (.answered level writes) fun trace => (body trace).map Todo.call
  | .deliver (some sink) level message =>
    .visible (.delivered sink level message) fun trace => (body trace).map Todo.call
  | .deliver none _ _ => .visible .badFunctionCall fun _ => []

/-- A process at its start, with what each thread is going to call. -/
def start (program : ι → List (Call κ)) : State ι (Logger κ) (Todo κ) (Event κ) where
  shared := {}
  threads i := (program i).map Todo.call

/-! ### Calls as single steps -/

/-- What a call does to the logger. -/
def Call.effect (c : Call κ) (s : Logger κ) : Logger κ :=
  match c with
  | .setLogger sink level => { sink, level }
  | .clearLogger => { s with sink := none }
  | _ => s

/-- The logger writes messages of the level. -/
def Logger.writes (s : Logger κ) (level : LogLevel) : Bool := s.sink.isSome && decide (level ≤ s.level)

/-- What is left to do of a call. -/
def Call.after (c : Call κ) (s : Logger κ) : List (Todo κ) :=
  match c with
  | .setLogger .. => []
  | .clearLogger => []
  | .isLogging level => [.answer level (s.writes level)]
  | .log level message => if s.writes level then [.deliver s.sink level message] else []

/-- A section does what its call does at once. -/
theorem section_run (c : Call κ) (s : Logger κ) : c.section.run s = (c.effect s, c.after s) := by
  cases c with
  | setLogger sink level => rfl
  | clearLogger => rfl
  | isLogging level =>
    obtain ⟨_ | sink, current⟩ := s <;> rfl
  | log level message =>
    obtain ⟨_ | sink, current⟩ := s
    · rfl
    · by_cases hlevel : level ≤ current <;>
        simp [Call.section, Section.run, Call.effect, Call.after, Logger.writes, hlevel]

section Steps

variable [DecidableEq ι] (body : List (ι × Event κ) → List (Call κ))

/-- The process with each call decided at once. -/
inductive Step (s : State ι (Logger κ) (Todo κ) (Event κ)) : State ι (Logger κ) (Todo κ) (Event κ) → Prop
  | called {i : ι} {c : Call κ} {rest : List (Todo κ)} : s.threads i = .call c :: rest →
      Step s { s.put i (.critical c :: rest) with trace := s.trace ++ [(i, .called c)] }
  | decided {i : ι} {c : Call κ} {rest : List (Todo κ)} : s.threads i = .critical c :: rest →
      Step s { s.put i (c.after s.shared ++ rest) with shared := c.effect s.shared }
  | answered {i : ι} {level : LogLevel} {writes : Bool} {rest : List (Todo κ)} :
      s.threads i = .answer level writes :: rest →
      Step s { s.put i ((body (s.trace ++ [(i, .answered level writes)])).map Todo.call ++ rest) with
        trace := s.trace ++ [(i, .answered level writes)] }
  | delivered {i : ι} {sink : κ} {level : LogLevel} {message : List Byte} {rest : List (Todo κ)} :
      s.threads i = .deliver (some sink) level message :: rest →
      Step s { s.put i ((body (s.trace ++ [(i, .delivered sink level message)])).map Todo.call ++ rest) with
        trace := s.trace ++ [(i, .delivered sink level message)] }
  | badFunctionCall {i : ι} {level : LogLevel} {message : List Byte} {rest : List (Todo κ)} :
      s.threads i = .deliver none level message :: rest →
      Step s { s.put i rest with trace := s.trace ++ [(i, .badFunctionCall)] }

theorem step_iff (s t : State ι (Logger κ) (Todo κ) (Event κ)) : State.Step (meaning body) s t ↔ Step body s t := by
  constructor
  · intro h
    cases h with
    | @locked i a rest sec hthread hmeaning =>
      match a with
      | .critical c =>
        cases hmeaning
        rw [section_run]
        exact .decided hthread
      | .deliver none _ _ => cases hmeaning
      | .deliver (some _) _ _ => cases hmeaning
    | @visible i a rest todo e hthread hmeaning =>
      match a with
      | .call c =>
        cases hmeaning
        exact .called hthread
      | .answer level writes =>
        cases hmeaning
        exact .answered hthread
      | .deliver none level message =>
        cases hmeaning
        exact .badFunctionCall hthread
      | .deliver (some sink) level message =>
        cases hmeaning
        exact .delivered hthread
  · intro h
    have hvisible {i : ι} {a : Todo κ} {rest : List (Todo κ)} {todo : List (ι × Event κ) → List (Todo κ)}
        {e : Event κ} (hthread : s.threads i = a :: rest) (ha : meaning body a = .visible e todo) :
        State.Step (meaning body) s
          { s.put i (todo (s.trace ++ [(i, e)]) ++ rest) with trace := s.trace ++ [(i, e)] } :=
      .visible hthread ha
    cases h with
    | called hthread => exact hvisible hthread rfl
    | @decided i c rest hthread =>
      have hstep : State.Step (meaning body) s _ := .locked hthread rfl
      rwa [section_run] at hstep
    | answered hthread => exact hvisible hthread rfl
    | delivered hthread => exact hvisible hthread rfl
    | badFunctionCall hthread => exact hvisible hthread rfl

/-- The threads reach, whatever the interleaving of their accesses to the logger, just what they reach when each call
is decided at once. Where the mutex is held or something is left to do, somebody can go on. -/
theorem logger_serializes (program : ι → List (Call κ)) :
    (∀ t, Relation.ReflTransGen (Held.Step (meaning body)) { toState := start program } { toState := t } ↔
      Relation.ReflTransGen (Step body) (start program) t) ∧
    ∀ s : Held ι (Logger κ) (Todo κ) (Event κ), (s.owner ≠ none ∨ ∃ i, s.threads i ≠ []) →
      ∃ t, Held.Step (meaning body) s t := by
  have hsame : State.Step (ι := ι) (meaning body) = Step body := by
    funext s t
    exact propext (step_iff body s t)
  refine ⟨fun t => ?_, fun s h => Held.exists_step (meaning body) s h⟩
  rw [Held.reaches_iff, hsame]

end Steps

end Adbcpp.Log
