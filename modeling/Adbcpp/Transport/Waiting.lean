import Adbcpp.Library.While
import Adbcpp.Error

/-! The wait over several transports, which asks each of them in turn, and again after a
short sleep, until one is readable or the time is up. What the transports answer and what
the clock shows may change from one moment to the next, so the wait need not end before
the clock reaches the deadline. -/

namespace Adbcpp

/-- How long the wait sleeps between two passes, in milliseconds. -/
def kPollInterval : ℕ := 1

/-- What the steady clock shows at each moment, in nanoseconds. -/
structure SteadyClock where
  shows : ℕ → ℤ
  monotone : ∀ {m n}, m ≤ n → shows m ≤ shows n

/-- What a transport answers to `wait_readable(0)` at each moment. -/
abbrev Readiness := ℕ → Except Error Bool

/-- The answer of a transport that cannot wait. -/
def cannotWait : Readiness := fun _ => .ok false

/-- One pass over the transports: when it began, and what those that were asked answered. -/
structure Pass where
  since : ℕ
  answers : List (Except Error Bool) := []

/-- The moment behind the last question of a pass. -/
def Pass.ended (p : Pass) : ℕ := p.since + p.answers.length

/-- A wait that goes on. Every question to a transport or to the clock takes it to the next moment. -/
structure Waiting where
  clock : SteadyClock
  moment : ℕ := 0
  /-- The milliseconds slept so far. -/
  slept : ℕ := 0
  /-- The passes so far, the latest first. -/
  passes : List Pass := []

namespace Waiting

/-- Begins a pass. -/
def begin (s : Waiting) : Waiting := { s with passes := { since := s.moment } :: s.passes }

@[simp] theorem begin_clock (s : Waiting) : s.begin.clock = s.clock := rfl

@[simp] theorem begin_moment (s : Waiting) : s.begin.moment = s.moment := rfl

/-- Puts an answer down in the latest pass. -/
def note (answer : Except Error Bool) : List Pass → List Pass
  | [] => []
  | p :: earlier => { p with answers := p.answers ++ [answer] } :: earlier

/-- Asks one transport without waiting. -/
def ask (transport : Readiness) : Action Waiting Bool := fun s =>
  (transport s.moment, { s with
    moment := s.moment + 1
    passes := note (transport s.moment) s.passes })

theorem run_ask (transport : Readiness) (s : Waiting) : (ask transport).run s =
    (transport s.moment, { s with
      moment := s.moment + 1
      passes := note (transport s.moment) s.passes }) := rfl

def now : Action Waiting ℤ := fun s =>
  (.ok (s.clock.shows s.moment), { s with moment := s.moment + 1 })

theorem run_now (s : Waiting) :
    now.run s = (.ok (s.clock.shows s.moment), { s with moment := s.moment + 1 }) := rfl

def sleepFor (interval : ℕ) : Action Waiting Unit :=
  Prog.modify fun s => { s with moment := s.moment + 1, slept := s.slept + interval }

/-- Asks the transports from `index` on, up to one that is readable. -/
def askInTurn : ℕ → List Readiness → Action Waiting (Option ℕ)
  | _, [] => pure none
  | index, transport :: rest => do
    let readable ← ask transport
    if readable then pure (some index) else askInTurn (index + 1) rest

/-- One turn of the wait: a pass, and where it finds nothing another one, unless the time is up. -/
def waitTurn (transports : List Readiness) (deadline : ℤ) (_ : Unit) :
    Action Waiting (Turn Unit (Option ℕ)) := do
  Prog.modify begin
  let found ← askInTurn 0 transports
  match found with
  | some index => pure (.done (some index))
  | none => do
    let time ← now
    if time ≥ deadline then
      pure (.done none)
    else do
      sleepFor kPollInterval
      pure (.again ())

/-- When a wait of `timeout` milliseconds is over that begins now. -/
def deadlineOf (timeout : ℤ) (s : Waiting) : ℤ := s.clock.shows s.moment + 1000000 * timeout

/-- The wait for up to `n` passes, or nothing while it is still going. -/
def waitReadable (n : ℕ) (transports : List Readiness) (timeout : ℤ) (s : Waiting) :
    Option (Except Error (Option ℕ) × Waiting) :=
  Prog.loopUpTo (waitTurn transports (deadlineOf timeout s)) n () { s with moment := s.moment + 1 }

/-! ### One pass -/

/-- Every answer of a pass is that of the transport at its index, in the order of the moments. -/
def Genuine (transports : List Readiness) (p : Pass) : Prop :=
  ∀ i a, p.answers[i]? = some a → ∃ t : Readiness, transports[i]? = some t ∧ t (p.since + i) = a

/-- What a pass over `n` transports finds, by its answers; the first one has the given index. -/
def Finds (index n : ℕ) (answers : List (Except Error Bool)) : Except Error (Option ℕ) → Prop
  | .ok none => answers = List.replicate n (.ok false)
  | .ok (some i) => ∃ k < n, i = index + k ∧ answers = List.replicate k (.ok false) ++ [.ok true]
  | .error e => ∃ k < n, answers = List.replicate k (.ok false) ++ [.error e]

/-- A transport that is not readable leaves it to those behind it. -/
theorem Finds.cons {index n : ℕ} {answers : List (Except Error Bool)} {found : Except Error (Option ℕ)}
    (h : Finds (index + 1) n answers found) : Finds index (n + 1) (.ok false :: answers) found := by
  match found, h with
  | .ok none, h =>
    unfold Finds at h ⊢
    rw [h, List.replicate_succ]
  | .ok (some i), ⟨k, hk, hi, h⟩ => exact ⟨k + 1, by omega, by omega, by rw [h]; rfl⟩
  | .error e, ⟨k, hk, h⟩ => exact ⟨k + 1, by omega, by rw [h]; rfl⟩

/-- What asking the transports in turn puts down in the pass that is being made. -/
theorem run_askInTurn (transports : List Readiness) (index : ℕ) {s : Waiting} {p : Pass}
    {earlier : List Pass} (hs : s.passes = p :: earlier) : ∃ found answers t,
    (askInTurn index transports).run s = (found, t) ∧ t.clock = s.clock ∧
    t.moment = s.moment + answers.length ∧ t.passes = { p with answers := p.answers ++ answers } :: earlier ∧
    Genuine transports ⟨s.moment, answers⟩ ∧ Finds index transports.length answers found := by
  induction transports generalizing index s p with
  | nil =>
    refine ⟨.ok none, [], s, rfl, rfl, rfl, ?_, fun i a hi => ?_, rfl⟩
    · rw [List.append_nil, hs]
    · cases hi
  | cons transport rest ih =>
    obtain ⟨answer, hanswer⟩ : ∃ answer, transport s.moment = answer := ⟨_, rfl⟩
    have hask := run_ask transport s
    rw [hanswer, hs] at hask
    have hone : Genuine (transport :: rest) ⟨s.moment, [answer]⟩ := by
      intro i a hi
      cases i with
      | zero =>
        cases hi
        exact ⟨transport, rfl, hanswer⟩
      | succ i => cases hi
    unfold askInTurn
    match answer, hask, hone with
    | .error e, hask, hone =>
      rw [Prog.run_bind_error hask]
      exact ⟨.error e, [.error e], _, rfl, rfl, rfl, rfl, hone, 0, Nat.succ_pos _, rfl⟩
    | .ok true, hask, hone =>
      rw [Prog.run_bind_ok hask]
      exact ⟨.ok (some index), [.ok true], _, rfl, rfl, rfl, rfl, hone, 0, Nat.succ_pos _, rfl, rfl⟩
    | .ok false, hask, hone =>
      rw [Prog.run_bind_ok hask, if_neg nofun]
      obtain ⟨found, answers, t, hrun, hclock, hmoment, hpasses, hgenuine, hfinds⟩ :=
        ih (index + 1) (s := { s with
          moment := s.moment + 1
          passes := { p with answers := p.answers ++ [.ok false] } :: earlier }) rfl
      refine ⟨found, .ok false :: answers, t, hrun, hclock, ?_, ?_, ?_, hfinds.cons⟩
      · rw [hmoment, List.length_cons]
        dsimp only
        omega
      · rw [hpasses, List.append_assoc]
        rfl
      · intro i a hi
        cases i with
        | zero => exact hone 0 a hi
        | succ i =>
          obtain ⟨t, ht, ha⟩ := hgenuine i a hi
          refine ⟨t, ht, ?_⟩
          rw [← ha, Nat.add_assoc, Nat.add_comm 1]

/-! ### The whole wait -/

/-- A pass that found nobody readable and ended before the deadline. -/
structure InVain (transports : List Readiness) (clock : SteadyClock) (deadline : ℤ) (p : Pass) : Prop where
  genuine : Genuine transports p
  answers : p.answers = List.replicate transports.length (.ok false)
  began : clock.shows p.since < deadline
  ended : clock.shows p.ended < deadline

/-- What a wait does: passes in vain that all began before the deadline, and one that ends it. -/
structure Waits (transports : List Readiness) (deadline : ℤ) (s : Waiting)
    (r : Except Error (Option ℕ) × Waiting) : Prop where
  passes : ∃ last earlier, r.2.passes = last :: (earlier ++ s.passes) ∧
    (∀ p ∈ earlier, InVain transports s.clock deadline p) ∧
    Genuine transports last ∧ Finds 0 transports.length last.answers r.1 ∧
    (r.1 = .ok none → deadline ≤ s.clock.shows last.ended)

/-- What one turn does: a pass in vain, or the one that ends the wait. -/
theorem waitTurn_cases (transports : List Readiness) (deadline : ℤ) (s : Waiting) :
    ∃ p s', s'.clock = s.clock ∧ s'.passes = p :: s.passes ∧ Genuine transports p ∧
      ((InVain transports s.clock deadline p ∧ s.moment ≤ p.ended ∧ p.ended < s'.moment ∧
          (waitTurn transports deadline ()).run s = (.ok (.again ()), s')) ∨
        ∃ found, Finds 0 transports.length p.answers found ∧
          (found = .ok none → deadline ≤ s.clock.shows p.ended) ∧
          (waitTurn transports deadline ()).run s = (found.map .done, s')) := by
  obtain ⟨found, answers, t, hrun, hclock, hmoment, hpasses, hgenuine, hfinds⟩ :=
    run_askInTurn transports 0 (s := begin s) rfl
  rw [begin_clock] at hclock
  rw [begin_moment] at hmoment hgenuine
  unfold waitTurn
  rw [Prog.run_bind_modify]
  use ⟨s.moment, answers⟩
  match found, hrun, hfinds with
  | .error e, hrun, hfinds =>
    rw [Prog.run_bind_error hrun]
    exact ⟨t, hclock, hpasses, hgenuine, .inr ⟨.error e, hfinds, nofun, rfl⟩⟩
  | .ok (some index), hrun, hfinds =>
    rw [Prog.run_bind_ok hrun]
    exact ⟨t, hclock, hpasses, hgenuine, .inr ⟨.ok (some index), hfinds, nofun, rfl⟩⟩
  | .ok none, hrun, hfinds =>
    rw [Prog.run_bind_ok hrun]
    dsimp only
    have hshows : t.clock.shows t.moment = s.clock.shows (s.moment + answers.length) := by
      rw [hclock, hmoment]
    rw [Prog.run_bind_ok (run_now t)]
    by_cases hover : t.clock.shows t.moment ≥ deadline
    · rw [if_pos hover]
      rw [hshows] at hover
      exact ⟨{ t with moment := t.moment + 1 }, hclock, hpasses, hgenuine,
        .inr ⟨.ok none, hfinds, fun _ => hover, rfl⟩⟩
    · rw [if_neg hover]
      rw [hshows] at hover
      have hended := Int.lt_of_not_ge hover
      have hbegan := (s.clock.monotone (Nat.le_add_right s.moment answers.length)).trans_lt hended
      refine ⟨{ t with moment := t.moment + 1 + 1, slept := t.slept + kPollInterval }, hclock, hpasses,
        hgenuine, .inl ⟨⟨hgenuine, hfinds, hbegan, hended⟩, ?_, ?_, rfl⟩⟩
      · exact Nat.le_add_right _ _
      · dsimp only [Pass.ended]
        omega

/-- However it ends, a wait has done what it promises. -/
theorem loopEnds_waits {transports : List Readiness} {deadline : ℤ} {s : Waiting}
    {r : Except Error (Option ℕ) × Waiting}
    (h : Prog.LoopEnds (waitTurn transports deadline) () s r) : Waits transports deadline s r := by
  refine Prog.LoopEnds.of_carries (I := fun _ t => t.clock = s.clock ∧ ∃ earlier,
    t.passes = earlier ++ s.passes ∧ ∀ p ∈ earlier, InVain transports s.clock deadline p)
    (Q := Waits transports deadline s) ?_ h ⟨rfl, [], rfl, nofun⟩
  rintro - t ⟨hclock, earlier, hpasses, hvain⟩
  obtain ⟨p, t', hclock', hpasses', hgenuine, ⟨hp, -, -, hrun⟩ | ⟨found, hfinds, hover, hrun⟩⟩ :=
    waitTurn_cases transports deadline t
  · rw [hrun]
    refine ⟨hclock'.trans hclock, p :: earlier, ?_, ?_⟩
    · rw [hpasses', hpasses]
      rfl
    · rw [hclock] at hp
      exact List.forall_mem_cons.mpr ⟨hp, hvain⟩
  · rw [hrun]
    rw [hclock] at hover
    rw [hpasses] at hpasses'
    cases found with
    | ok found => exact ⟨p, earlier, hpasses', hvain, hgenuine, hfinds, hover⟩
    | error e => exact ⟨p, earlier, hpasses', hvain, hgenuine, hfinds, hover⟩

/-- A wait ends once the clock reaches the deadline. -/
theorem exists_loopEnds (transports : List Readiness) {deadline : ℤ} {s : Waiting} {m : ℕ}
    (h : deadline ≤ s.clock.shows m) : ∃ r, Prog.LoopEnds (waitTurn transports deadline) () s r := by
  have hkeeps : ∀ (b : Unit) (t : Waiting), t.clock = s.clock →
      Prog.Keeps (fun _ u => u.clock = s.clock) (fun _ u => m - u.moment) (fun _ => True) b t
        ((waitTurn transports deadline b).run t) := by
    rintro - t hclock
    obtain ⟨p, t', hclock', -, -, ⟨hp, hfrom, hto, hrun⟩ | ⟨found, -, -, hrun⟩⟩ :=
      waitTurn_cases transports deadline t
    · rw [hrun]
      refine ⟨hclock'.trans hclock, ?_⟩
      have hended := hp.ended
      rw [hclock] at hended
      -- The clock had not reached the deadline behind this pass, so the moment it does is still to come.
      have hbefore : p.ended < m := by
        apply Nat.lt_of_not_le
        intro hle
        exact absurd (h.trans (s.clock.monotone hle)) (Int.not_le.mpr hended)
      dsimp only
      omega
    · rw [hrun]
      cases found with
      | ok found => trivial
      | error e => trivial
  obtain ⟨r, hr, -⟩ := Prog.loopEnds_of_keeps hkeeps (b := ()) (s := s) rfl
  exact ⟨r, hr⟩

/-- A transport that always answers no is never returned. -/
theorem Waits.ne_of_not_readable {transports : List Readiness} {deadline : ℤ} {s : Waiting}
    {r : Except Error (Option ℕ) × Waiting} (h : Waits transports deadline s r) {i : ℕ} {t : Readiness}
    (ht : transports[i]? = some t) (hno : ∀ m, t m = .ok false) : r.1 ≠ .ok (some i) := by
  intro hr
  obtain ⟨last, earlier, -, -, hgenuine, hfinds, -⟩ := h.passes
  rw [hr] at hfinds
  obtain ⟨k, -, hi, hanswers⟩ := hfinds
  rw [Nat.zero_add] at hi
  subst hi
  obtain ⟨t', ht', hyes⟩ := hgenuine i (.ok true) (by rw [hanswers]; simp)
  rw [ht] at ht'
  cases ht'
  rw [hno] at hyes
  cases hyes

/-- A wait over any transports, for any time: if it ends it has done what it promises, and it ends where
the clock reaches the deadline. -/
theorem waitReadable_waits (transports : List Readiness) (timeout : ℤ) (s : Waiting) :
    (∀ n r, waitReadable n transports timeout s = some r → Waits transports (deadlineOf timeout s) s r ∧
      ∀ (i : ℕ) (t : Readiness), transports[i]? = some t → (∀ m, t m = .ok false) → r.1 ≠ .ok (some i)) ∧
    (∀ m, deadlineOf timeout s ≤ s.clock.shows m → ∃ n r, waitReadable n transports timeout s = some r) := by
  constructor
  · intro n r h
    have hwaits : Waits transports (deadlineOf timeout s) s r :=
      ⟨(loopEnds_waits (Prog.loopEnds_of_upTo h)).passes⟩
    exact ⟨hwaits, fun i t ht hno => hwaits.ne_of_not_readable ht hno⟩
  · intro m h
    obtain ⟨r, hr⟩ := exists_loopEnds transports (s := { s with moment := s.moment + 1 }) h
    obtain ⟨n, hn⟩ := Prog.loopEnds_iff.mp hr
    exact ⟨n, r, hn⟩

/-- A clock that shows another second at every moment. -/
def tickingClock : SteadyClock where
  shows m := 1000000000 * m
  monotone := by
    intro m n h
    omega

/-- Two transports, of which the one behind a transport that cannot wait becomes readable: the second
pass finds it. -/
theorem waitReadable_waits_second :
    (∃ r, waitReadable 2 [cannotWait, fun m => .ok (decide (3 < m))] 5000 { clock := tickingClock } = some r ∧
      r.1 = .ok (some 1) ∧ r.1 ≠ .ok (some 0)) ∧
    ∃ n r, waitReadable n [cannotWait] (-1) { clock := tickingClock } = some r := by
  constructor
  · refine ⟨_, rfl, rfl, ?_⟩
    exact ((waitReadable_waits [cannotWait, fun m => .ok (decide (3 < m))] 5000 { clock := tickingClock }).1
      2 _ rfl).2 0 cannotWait rfl fun _ => rfl
  · exact (waitReadable_waits [cannotWait] (-1) { clock := tickingClock }).2 0 (by decide)

end Waiting

end Adbcpp
