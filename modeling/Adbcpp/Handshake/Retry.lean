import Adbcpp.Handshake.Conformance
import Mathlib.Data.List.Range

/-! Connecting with retries. Each attempt opens a transport and performs the handshake over
it, after a pause that doubles from attempt to attempt. What is called, slept and destroyed
is noted in the order in which it happens. What `open` and the handshake make of an attempt
may be different each time. -/

namespace Adbcpp

/-- The transport of a slot: the one that was there before the call, or that of an attempt. -/
inductive Origin
  | earlier
  | attempt (k : ℕ)
  deriving DecidableEq, Repr

structure Held (τ : Type) where
  origin : Origin
  transport : τ

/-- A connection with the transport that it borrows. -/
structure Connected (κ : Type) where
  borrows : Origin
  connection : κ

/-- What happens in a call, with the number of the attempt where it matters. -/
inductive Retrying
  | slept (milliseconds : ℤ)
  | opening (k : ℕ)
  | destroyed (transport : Origin)
  | warned (text : List Byte)
  deriving DecidableEq, Repr

/-- A pause, or a call of `open`. -/
def Retrying.paces : Retrying → Bool
  | .slept _ => true
  | .opening _ => true
  | _ => false

/-- What the call is made with: what `open` and the handshake make of each attempt, and how often and
after which pause another one is made. -/
structure Dialing (τ κ : Type) where
  opens : ℕ → Except Error τ
  connect : ℕ → τ → Except Error κ × τ
  attempts : ℕ := 5
  /-- The pause before the second attempt, in milliseconds. -/
  backoff : ℤ := 250

/-- The optional that the caller keeps its transport in, and what has happened to it. -/
structure Slot (τ : Type) where
  transport : Option (Held τ) := none
  events : List Retrying := []

/-- The slot of a caller before the call. -/
def Slot.of {τ : Type} (held : Option τ) : Slot τ where
  transport := held.map fun t => { origin := .earlier, transport := t }

namespace Slot

variable {τ κ α : Type}

def note (event : Retrying) : Action (Slot τ) Unit :=
  Prog.modify fun s => { s with events := s.events ++ [event] }

/-- Destroys the transport that is held, if there is one. -/
def reset (s : Slot τ) : Slot τ where
  transport := none
  events := s.events ++ s.transport.toList.map fun held => .destroyed held.origin

/-- Holds another transport, and hands it out. -/
def emplace (held : Held τ) : Action (Slot τ) (Held τ) := fun s =>
  (.ok held, { s.reset with transport := some held })

theorem run_emplace (held : Held τ) (s : Slot τ) :
    (emplace held).run s = (.ok held, { s.reset with transport := some held }) := rfl

end Slot

namespace Dialing

variable {τ κ : Type} (d : Dialing τ κ)

/-- The text of a failed attempt. -/
def warning (attempt : ℕ) (error : Error) : List Byte :=
  bytesOf ("connect attempt " ++ toString (attempt + 1) ++ " of " ++ toString d.attempts ++ " failed: ") ++
    error.message

/-- The pause before an attempt that is not the first, a bounded doubling. -/
def pauseOf (attempt : ℕ) : ℤ :=
  let shift := min (attempt - 1) 20
  d.backoff * (1 <<< shift : ℕ)

/-- Performs the handshake over the transport that is held. -/
def connectHeld (attempt : ℕ) (held : Held τ) : Action (Slot τ) (Connected κ) := fun s =>
  let r := d.connect attempt held.transport
  (r.1.map fun connection => { borrows := held.origin, connection },
    { s with transport := some { held with transport := r.2 } })

theorem run_connectHeld (attempt : ℕ) (held : Held τ) (s : Slot τ) : (d.connectHeld attempt held).run s =
    ((d.connect attempt held.transport).1.map fun c => { borrows := held.origin, connection := c },
      { s with transport := some { held with transport := (d.connect attempt held.transport).2 } }) := rfl

/-- One attempt behind its pause. A failure is a value here, as the next attempt follows it. -/
def tryOnce (attempt : ℕ) : Action (Slot τ) (Except Error (Connected κ)) := do
  Slot.note (.opening attempt)
  match d.opens attempt with
  | .error e => do
    Slot.note (.warned (d.warning attempt e))
    pure (.error e)
  | .ok opened => do
    let held ← Slot.emplace { origin := .attempt attempt, transport := opened }
    let connected ← Prog.attempt (d.connectHeld attempt held)
    match connected with
    | .error e => do
      Prog.modify Slot.reset
      Slot.note (.warned (d.warning attempt e))
      pure (.error e)
    | .ok connection => pure (.ok connection)

/-- Sleeps before an attempt that is not the first. -/
def pause (attempt : ℕ) : Action (Slot τ) Unit :=
  if attempt > 0 then Slot.note (.slept (d.pauseOf attempt)) else pure ()

/-- The attempts from one on, of which `remaining` are left; `connection` is the last failure. -/
def attemptsFrom : ℕ → ℕ → Error → Action (Slot τ) (Connected κ)
  | 0, _, connection => Prog.fail connection
  | remaining + 1, attempt, _ => do
    d.pause attempt
    let connected ← d.tryOnce attempt
    match connected with
    | .error e => attemptsFrom remaining (attempt + 1) e
    | .ok connection => pure connection

def connectWithRetry : Action (Slot τ) (Connected κ) :=
  d.attemptsFrom d.attempts 0 (.of .transport "the transport was not opened")

/-! ### What the attempts do -/

/-- How an attempt ends. -/
def outcome (k : ℕ) : Except Error κ :=
  match d.opens k with
  | .error e => .error e
  | .ok t => (d.connect k t).1

/-- The attempt makes a transport and loses it. -/
def Drops (k : ℕ) : Prop := (∃ t, d.opens k = .ok t) ∧ ∃ e, d.outcome k = .error e

/-- What one attempt does to the slot. -/
structure Tries (k : ℕ) (s : Slot τ) (r : Except Error (Connected κ)) (s' : Slot τ) : Prop where
  events : ∃ events, s'.events = s.events ++ .opening k :: events ∧ events.filter Retrying.paces = [] ∧
    (d.Drops k → .destroyed (.attempt k) ∈ events)
  ok : ∀ c, d.outcome k = .ok c → r = .ok { borrows := .attempt k, connection := c } ∧
    ∃ t, d.opens k = .ok t ∧ s'.transport = some { origin := .attempt k, transport := (d.connect k t).2 }
  error : ∀ e, d.outcome k = .error e → r = .error e ∧ ∀ held ∈ s'.transport, held ∈ s.transport

/-- An attempt whose `open` fails leaves the slot as it is. -/
theorem tryOnce_unopened {k : ℕ} {e : Error} (hopens : d.opens k = .error e) (s : Slot τ) :
    ∃ r s', (d.tryOnce k).run s = (.ok r, s') ∧ d.Tries k s r s' := by
  have houtcome : d.outcome k = .error e := by
    unfold outcome
    rw [hopens]
  unfold tryOnce
  unfold Slot.note
  rw [Prog.run_bind_modify, hopens]
  refine ⟨_, _, rfl, ⟨[.warned (d.warning k e)], ?_, rfl, ?_⟩, ?_, ?_⟩
  · exact List.append_assoc _ _ _
  · rintro ⟨⟨t, ht⟩, -⟩
    rw [hopens] at ht
    cases ht
  · intro c hc
    rw [houtcome] at hc
    cases hc
  · intro e' he'
    rw [houtcome] at he'
    cases he'
    exact ⟨rfl, fun _ => id⟩

/-- The transport that an attempt opens takes the place of the one before, which is destroyed. -/
theorem tryOnce_opened {k : ℕ} {t : τ} (hopens : d.opens k = .ok t) (s : Slot τ) :
    ∃ r s', (d.tryOnce k).run s = (.ok r, s') ∧ d.Tries k s r s' := by
  have houtcome : d.outcome k = (d.connect k t).1 := by
    unfold outcome
    rw [hopens]
  obtain ⟨old, hold⟩ : ∃ old, (s.transport.toList.map fun held => Retrying.destroyed held.origin) = old := ⟨_, rfl⟩
  have hpaces : old.filter Retrying.paces = [] := by
    rw [← hold, List.filter_eq_nil_iff]
    simp [Retrying.paces]
  unfold tryOnce
  unfold Slot.note
  rw [Prog.run_bind_modify, hopens]
  dsimp only
  rw [Prog.run_bind_ok (Slot.run_emplace _ _), Prog.run_bind_ok (Prog.run_attempt _ _), run_connectHeld, ← houtcome]
  match hconnect : d.outcome k with
  | .error e =>
    refine ⟨_, _, rfl, ⟨old ++ [.destroyed (.attempt k), .warned (d.warning k e)], ?_, ?_, ?_⟩, ?_, ?_⟩
    · dsimp only [Slot.reset]
      rw [hold]
      simp
    · rw [List.filter_append, hpaces]
      rfl
    · intro _
      simp
    · intro c hc
      rw [hconnect] at hc
      cases hc
    · intro e' he'
      rw [hconnect] at he'
      cases he'
      exact ⟨rfl, nofun⟩
  | .ok c =>
    refine ⟨_, _, rfl, ⟨old, ?_, hpaces, ?_⟩, ?_, ?_⟩
    · dsimp only [Slot.reset]
      rw [hold]
      simp
    · rintro ⟨-, e, he⟩
      rw [hconnect] at he
      cases he
    · intro c' hc'
      rw [hconnect] at hc'
      cases hc'
      exact ⟨rfl, t, hopens, rfl⟩
    · intro e he
      rw [hconnect] at he
      cases he

theorem tryOnce_tries (k : ℕ) (s : Slot τ) :
    ∃ r s', (d.tryOnce k).run s = (.ok r, s') ∧ d.Tries k s r s' := by
  match hopens : d.opens k with
  | .error e => exact tryOnce_unopened d hopens s
  | .ok t => exact tryOnce_opened d hopens s

/-- What an attempt is to begin with: a pause, if it is not the first, and its call of `open`. The
pause doubles from the second attempt on until it is `2 ^ 20` times as long. -/
def paceOf (k : ℕ) : List Retrying :=
  (if k > 0 then [.slept (d.backoff * 2 ^ min (k - 1) 20)] else []) ++ [.opening k]

/-- What the attempts from `k` on do, where `n` of them are allowed: all fail but perhaps the last one,
and what each of them made is destroyed before the next `open`. -/
structure Retries (k n : ℕ) (s : Slot τ) (r : Except Error (Connected κ) × Slot τ) (last : ℕ)
    (events : List Retrying) : Prop where
  allowed : k ≤ last ∧ last < k + n
  failed : ∀ j, k ≤ j → j < last → ∃ e, d.outcome j = .error e
  noted : r.2.events = s.events ++ events
  paces : events.filter Retrying.paces = (List.range' k (last + 1 - k)).flatMap d.paceOf
  destroyed : ∀ before j after, events = before ++ .opening j :: after →
    ∀ i, k ≤ i → i < j → d.Drops i → .destroyed (.attempt i) ∈ before
  ok : ∀ c, d.outcome last = .ok c → r.1 = .ok { borrows := .attempt last, connection := c } ∧
    ∃ t, d.opens last = .ok t ∧ r.2.transport = some { origin := .attempt last, transport := (d.connect last t).2 }
  error : ∀ e, d.outcome last = .error e → r.1 = .error e ∧ last + 1 = k + n ∧
    (∀ held ∈ r.2.transport, held ∈ s.transport) ∧ (d.Drops last → .destroyed (.attempt last) ∈ events)

theorem pauseOf_eq (k : ℕ) : d.pauseOf k = d.backoff * 2 ^ min (k - 1) 20 := by
  unfold pauseOf
  dsimp only
  rw [Nat.one_shiftLeft, Int.natCast_pow]
  rfl

theorem run_pause (k : ℕ) (s : Slot τ) : ∃ s', (d.pause k : Action (Slot τ) Unit).run s = (.ok (), s') ∧
    s'.transport = s.transport ∧ s'.events ++ [.opening k] = s.events ++ d.paceOf k := by
  unfold pause paceOf
  rw [pauseOf_eq]
  by_cases hk : k > 0
  · rw [if_pos hk, if_pos hk]
    exact ⟨_, rfl, rfl, List.append_assoc _ _ _⟩
  · rw [if_neg hk, if_neg hk]
    exact ⟨s, rfl, rfl, rfl⟩

/-- An element that is not in the front part of a list stands in the part behind it. -/
theorem exists_of_append_eq_cons {α : Type} {front back before after : List α} {a : α} (h : a ∉ front)
    (heq : front ++ back = before ++ a :: after) :
    ∃ between, before = front ++ between ∧ back = between ++ a :: after := by
  rcases List.append_eq_append_iff.mp heq with ⟨between, rfl, hback⟩ | ⟨between, rfl, hback⟩
  · exact ⟨between, rfl, hback⟩
  · cases between with
    | nil => exact ⟨[], by simp, by simpa using hback.symm⟩
    | cons b between =>
      cases hback
      exact absurd (List.mem_append_right _ List.mem_cons_self) h

theorem filter_paceOf (k : ℕ) : (d.paceOf k).filter Retrying.paces = d.paceOf k := by
  unfold paceOf
  split <;> rfl

/-- Among what one attempt notes there is only its own call of `open`. -/
theorem eq_of_opening_mem {k j : ℕ} {events : List Retrying} (h : events.filter Retrying.paces = [])
    (hmem : .opening j ∈ d.paceOf k ++ events) : j = k := by
  rcases List.mem_append.mp hmem with hpace | hrest
  · unfold paceOf at hpace
    split at hpace <;> simpa using hpace
  · exact absurd rfl (List.filter_eq_nil_iff.mp h _ hrest)

variable {d}

/-- An attempt behind which there is no other. -/
theorem retries_last {k n : ℕ} {s : Slot τ} {r : Except Error (Connected κ) × Slot τ} {events : List Retrying}
    (hnoted : r.2.events = s.events ++ (d.paceOf k ++ events)) (hpaces : events.filter Retrying.paces = [])
    (hok : ∀ c, d.outcome k = .ok c → r.1 = .ok { borrows := .attempt k, connection := c } ∧
      ∃ t, d.opens k = .ok t ∧ r.2.transport = some { origin := .attempt k, transport := (d.connect k t).2 })
    (herror : ∀ e, d.outcome k = .error e → r.1 = .error e ∧ n = 0 ∧
      (∀ held ∈ r.2.transport, held ∈ s.transport) ∧ (d.Drops k → .destroyed (.attempt k) ∈ events)) :
    d.Retries k (n + 1) s r k (d.paceOf k ++ events) := by
  refine ⟨⟨le_rfl, by omega⟩, fun j hj hlt => absurd hlt (Nat.not_lt.mpr hj), hnoted, ?_, ?_, hok, ?_⟩
  · rw [List.filter_append, hpaces, filter_paceOf, Nat.add_sub_cancel_left, List.range'_one,
      List.flatMap_singleton, List.append_nil]
  · intro before j after hsplit i hi hij
    have hmem : .opening j ∈ d.paceOf k ++ events := by
      rw [hsplit]
      simp
    have hj := d.eq_of_opening_mem hpaces hmem
    omega
  · intro e he
    obtain ⟨hr, hn, hheld, hdrops⟩ := herror e he
    exact ⟨hr, by omega, hheld, fun h => List.mem_append_right _ (hdrops h)⟩

/-- A failed attempt in front of those that follow it. -/
theorem Retries.cons {k n last : ℕ} {s s' : Slot τ} {r : Except Error (Connected κ) × Slot τ}
    {events rest : List Retrying} {e : Error} (hfailed : d.outcome k = .error e)
    (hnoted : s'.events = s.events ++ (d.paceOf k ++ events)) (hpaces : events.filter Retrying.paces = [])
    (hheld : ∀ held ∈ s'.transport, held ∈ s.transport)
    (hdrops : d.Drops k → .destroyed (.attempt k) ∈ events) (h : d.Retries (k + 1) n s' r last rest) :
    d.Retries k (n + 1) s r last (d.paceOf k ++ events ++ rest) := by
  obtain ⟨⟨hfrom, hto⟩, hfails, hrest, hrestPaces, hdestroyed, hok, herror⟩ := h
  refine ⟨⟨by omega, by omega⟩, ?_, ?_, ?_, ?_, hok, ?_⟩
  · intro j hj hlt
    by_cases heq : j = k
    · exact ⟨e, heq ▸ hfailed⟩
    · exact hfails j (by omega) hlt
  · rw [hrest, hnoted, List.append_assoc, List.append_assoc]
  · have hcount : last + 1 - k = last + 1 - (k + 1) + 1 := by omega
    rw [List.filter_append, List.filter_append, hpaces, filter_paceOf, hrestPaces, List.append_nil, hcount,
      List.range'_succ, List.flatMap_cons]
  · intro before j after hsplit i hi hij hi'
    have hnew : .opening j ∉ d.paceOf k ++ events := by
      intro hmem
      have hj := d.eq_of_opening_mem hpaces hmem
      omega
    obtain ⟨between, rfl, htail⟩ := exists_of_append_eq_cons hnew hsplit
    by_cases heq : i = k
    · subst heq
      exact List.mem_append_left _ (List.mem_append_right _ (hdrops hi'))
    · exact List.mem_append_right _ (hdestroyed between j after htail i (by omega) hij hi')
  · intro e' he'
    obtain ⟨hr, hn, hslot, hlast⟩ := herror e' he'
    exact ⟨hr, by omega, fun held hmem => hheld held (hslot held hmem),
      fun h => List.mem_append_right _ (hlast h)⟩

/-- The first of some attempts ends the call, or leaves it to the others. -/
theorem attemptsFrom_succ (n k : ℕ) (e : Error) (s : Slot τ) : ∃ s' events,
    s'.events = s.events ++ (d.paceOf k ++ events) ∧ events.filter Retrying.paces = [] ∧
    (d.Drops k → .destroyed (.attempt k) ∈ events) ∧
    ((∃ c, d.outcome k = .ok c ∧
        (∃ t, d.opens k = .ok t ∧
          s'.transport = some { origin := .attempt k, transport := (d.connect k t).2 }) ∧
        (d.attemptsFrom (n + 1) k e).run s = (.ok { borrows := .attempt k, connection := c }, s')) ∨
      ∃ e', d.outcome k = .error e' ∧ (∀ held ∈ s'.transport, held ∈ s.transport) ∧
        (d.attemptsFrom (n + 1) k e).run s = (d.attemptsFrom n (k + 1) e').run s') := by
  obtain ⟨s₁, hpause, hheld, hpace⟩ := d.run_pause k s
  obtain ⟨r, s', hrun, ⟨events, hnoted, hpaces, hdrops⟩, hok, herror⟩ := d.tryOnce_tries k s₁
  refine ⟨s', events, ?_, hpaces, hdrops, ?_⟩
  · rw [hnoted, List.append_cons, hpace, List.append_assoc]
  rw [attemptsFrom, Prog.run_bind_ok hpause, Prog.run_bind_ok hrun]
  match houtcome : d.outcome k with
  | .ok c =>
    obtain ⟨rfl, hslot⟩ := hok c houtcome
    exact .inl ⟨c, rfl, hslot, rfl⟩
  | .error e' =>
    obtain ⟨rfl, hslot⟩ := herror e' houtcome
    exact .inr ⟨e', rfl, hheld ▸ hslot, rfl⟩

/-- An attempt that succeeds is the last one. -/
theorem retries_ok {k n : ℕ} {s s' : Slot τ} {events : List Retrying} {c : κ}
    (hnoted : s'.events = s.events ++ (d.paceOf k ++ events)) (hpaces : events.filter Retrying.paces = [])
    (hc : d.outcome k = .ok c) (hslot : ∃ t, d.opens k = .ok t ∧
      s'.transport = some { origin := .attempt k, transport := (d.connect k t).2 }) :
    d.Retries k (n + 1) s (.ok { borrows := .attempt k, connection := c }, s') k (d.paceOf k ++ events) := by
  apply retries_last hnoted hpaces
  · intro c' hc'
    rw [hc] at hc'
    cases hc'
    exact ⟨rfl, hslot⟩
  · intro e he
    rw [hc] at he
    cases he

/-- Any number of attempts, at least one, from any of them on. -/
theorem attemptsFrom_retries (n k : ℕ) (e : Error) (s : Slot τ) :
    ∃ last events, d.Retries k (n + 1) s ((d.attemptsFrom (n + 1) k e).run s) last events := by
  induction n generalizing k e s with
  | zero =>
    obtain ⟨s', events, hnoted, hpaces, hdrops, ⟨c, hc, hslot, hrun⟩ | ⟨e', he', hslot, hrun⟩⟩ :=
      attemptsFrom_succ (d := d) 0 k e s
    · exact ⟨k, _, hrun ▸ retries_ok hnoted hpaces hc hslot⟩
    · refine ⟨k, d.paceOf k ++ events, ?_⟩
      rw [hrun]
      apply retries_last hnoted hpaces
      · intro c hc
        rw [he'] at hc
        cases hc
      · intro e'' he''
        rw [he'] at he''
        cases he''
        exact ⟨rfl, rfl, hslot, hdrops⟩
  | succ n ih =>
    obtain ⟨s', events, hnoted, hpaces, hdrops, ⟨c, hc, hslot, hrun⟩ | ⟨e', he', hslot, hrun⟩⟩ :=
      attemptsFrom_succ (d := d) (n + 1) k e s
    · exact ⟨k, _, hrun ▸ retries_ok hnoted hpaces hc hslot⟩
    · obtain ⟨last, rest, hrest⟩ := ih (k + 1) e' s'
      refine ⟨last, d.paceOf k ++ events ++ rest, ?_⟩
      rw [hrun]
      exact hrest.cons he' hnoted hpaces hslot hdrops

/-- A call with at least one attempt, whatever the slot held before, is a bounded retry that leaves
nothing behind. -/
theorem connectWithRetry_retries (d : Dialing τ κ) (hattempts : 1 ≤ d.attempts) (held : Option τ) :
    ∃ last events, d.Retries 0 d.attempts (Slot.of held) (d.connectWithRetry.run (Slot.of held)) last events := by
  obtain ⟨n, hn⟩ := Nat.exists_eq_add_of_le' hattempts
  unfold connectWithRetry
  rw [hn]
  exact attemptsFrom_retries n 0 _ (Slot.of held)

end Dialing

/-- Dials transports that `open` makes with the handshake over a new session. -/
def dialingOver {τ : Type} [Transport τ] (opens : ℕ → Except Error τ) (codecs : Codecs)
    (publicKey : List Byte) (signer : Option Signer) (advertiseDelayedAck : Bool) :
    Dialing τ (Connection (Session τ)) where
  opens := opens
  connect _ t :=
    let r := (Connection.connect codecs publicKey signer advertiseDelayedAck).run { session := { transport := t } }
    (r.1.map fun _ => r.2, r.2.session.transport)

/-- A device that stalls the first write behind its first `open`, and trusts the host at the second. -/
def stallingDevice : Dialing ScriptedTransport (Connection (Session ScriptedTransport)) :=
  dialingOver (fun
    | 0 => .ok { arrivals := [], outcomes := [.failed 0 (.of .transport "the write stalled")] }
    | _ => .ok { arrivals := [.ok (cnxnFrame (bytesOf "device::")).bytes] }) {} [] none false

theorem connectWithRetry_retries_stalling : ∃ events,
    stallingDevice.Retries 0 5 (Slot.of none) (stallingDevice.connectWithRetry.run (Slot.of none)) 1 events ∧
      events.filter Retrying.paces = [.opening 0, .slept 250, .opening 1] ∧ .destroyed (.attempt 0) ∈ events := by
  obtain ⟨last, events, h⟩ := stallingDevice.connectWithRetry_retries (by decide) none
  have hfirst : stallingDevice.outcome 0 = .error (.of .transport "the write stalled") := rfl
  obtain ⟨c, hsecond⟩ : ∃ c, stallingDevice.outcome 1 = .ok c := ⟨_, rfl⟩
  have hlast : last = 1 := by
    rcases Nat.lt_trichotomy last 1 with hlt | heq | hgt
    · obtain rfl : last = 0 := by omega
      obtain ⟨-, hall, -⟩ := h.error _ hfirst
      cases hall
    · exact heq
    · obtain ⟨e, he⟩ := h.failed 1 (by omega) hgt
      rw [hsecond] at he
      cases he
  subst hlast
  have hopening : .opening 1 ∈ events := by
    refine List.mem_of_mem_filter (p := Retrying.paces) ?_
    rw [h.paces]
    decide
  obtain ⟨before, behind, hsplit⟩ := List.append_of_mem hopening
  have hdestroyed := h.destroyed before 1 behind hsplit 0 le_rfl Nat.zero_lt_one ⟨⟨_, rfl⟩, _, hfirst⟩
  refine ⟨events, h, h.paces, ?_⟩
  rw [hsplit]
  exact List.mem_append_left _ hdestroyed

end Adbcpp
