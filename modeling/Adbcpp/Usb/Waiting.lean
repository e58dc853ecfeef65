import Adbcpp.Usb.Transport

/-! The wait of a USB transport. It answers from the buffer, or issues one transfer that is
bounded by its time-out. Three kinds of transfer get another answer than the wait
promises: one with a time-out of zero, which libusb does not bound at all, one in which
the device stays silent, which is an error instead of a plain no, and one that fails
after it has moved bytes, which are dropped. -/

namespace Adbcpp.Usb

/-- The device sent nothing until the transfer timed out. -/
def Silent (o : Outcome (List Byte)) : Prop := o.rc = kErrorTimeout ∧ o.moved = []

instance (o : Outcome (List Byte)) : Decidable (Silent o) := inferInstanceAs (Decidable (_ ∧ _))

/-- The transfer brought bytes, or a zero-length packet. -/
def Arrived (o : Outcome (List Byte)) : Prop := o.moved ≠ [] ∨ o.rc = 0

namespace Impl

/-- The unsigned int that a time-out is converted to. -/
def timeoutArgument (timeout : ℤ) : ℕ := (timeout % 2 ^ 32).toNat

/-- The transfer that a wait on an empty buffer meets. -/
def coming (s : Impl) : Outcome (List Byte) := (nextOutcome kReadBufferSize s.arriving).1

/-- What a wait promises. A time-out of zero means no limit to libusb. -/
structure Honours (s : Impl) (timeout : ℤ) (r : Except Error Bool × Impl) : Prop where
  buffered : s.incomingOffset < s.incoming.length → r = (.ok true, s)
  transfer : ¬ s.incomingOffset < s.incoming.length → ∃ a : Attempt,
    r.2.attempts = s.attempts ++ [a] ∧ a.outcome = s.coming ∧
    (a.timeout ≠ 0 ∧ (a.timeout : ℤ) ≤ timeout) ∧
    (r.1 = .ok true ↔ Arrived a.outcome) ∧
    (Silent a.outcome → r.1 = .ok false) ∧
    (∀ e, r.1 = .error e → a.outcome.rc ≠ 0 ∧ ¬ Silent a.outcome)

/-- The time-out bounds the transfer, the device does not stay silent, and no failure moves bytes. -/
def Plain (timeout : ℤ) (o : Outcome (List Byte)) : Prop :=
  ¬ timeout % 2 ^ 32 = 0 ∧ ¬ Silent o ∧ ¬ (o.rc ≠ 0 ∧ o.rc ≠ kErrorTimeout ∧ o.moved ≠ [])

variable {s : Impl} {timeout : ℤ}

theorem run_waitReadable_buffered (h : s.incomingOffset < s.incoming.length) :
    (waitReadable timeout).run s = (.ok true, s) := by
  rw [waitReadable, Prog.run_bind_get, if_pos h]
  rfl

/-- A wait on an empty buffer is one transfer, and its outcome decides. -/
theorem run_waitReadable_empty (h : ¬ s.incomingOffset < s.incoming.length) :
    ∃ r s', (waitReadable timeout).run s = (r, s') ∧
      s'.attempts = s.attempts ++ [⟨timeoutArgument timeout, s.coming⟩] ∧
      ((Accepted s.coming ∧ r = .ok (decide (s.coming.rc = 0 ∨ s.coming.moved ≠ []))) ∨
        (¬ Accepted s.coming ∧ ∃ e, r = .error e)) := by
  let s₁ : Impl := { s with incoming := resize kReadBufferSize s.incoming }
  have hcoming : (nextOutcome s₁.incoming.length s₁.arriving).1 = s.coming := by
    rw [coming, show s₁.incoming.length = kReadBufferSize from length_resize _ _]
  have hrun : (libusbBulkTransfer (timeoutArgument timeout)).run s₁ = (.ok s.coming, { s₁ with
      incoming := s.coming.moved ++ s₁.incoming.drop s.coming.moved.length
      arriving := (nextOutcome s₁.incoming.length s₁.arriving).2
      attempts := s₁.attempts ++ [{ timeout := timeoutArgument timeout, outcome := s.coming }]
      now := s₁.now + s.coming.elapsed }) := by
    rw [← hcoming]
    rfl
  rw [waitReadable, Prog.run_bind_get, if_neg h, Prog.run_bind_modify]
  rw [timeoutArgument] at hrun
  rw [Prog.run_bind_ok hrun]
  by_cases haccepted : Accepted s.coming
  · rw [if_neg (not_not.mpr haccepted)]
    exact ⟨_, _, rfl, rfl, .inl ⟨haccepted, rfl⟩⟩
  · rw [if_pos haccepted]
    exact ⟨_, _, rfl, rfl, .inr ⟨haccepted, _, rfl⟩⟩

theorem timeoutArgument_eq (timeout : ℤ) : (timeoutArgument timeout : ℤ) = timeout % 2 ^ 32 := by
  rw [timeoutArgument]
  omega

theorem arrived_of_accepted {o : Outcome (List Byte)} (h : Accepted o) : Arrived o := by
  rcases h with hrc | ⟨-, hmoved⟩
  · exact .inr hrc
  · exact .inl hmoved

/-- A transfer that is not accepted moved nothing, unless it failed otherwise than by a time-out. -/
theorem not_arrived {o : Outcome (List Byte)} (h : ¬ Accepted o)
    (hplain : ¬ (o.rc ≠ 0 ∧ o.rc ≠ kErrorTimeout ∧ o.moved ≠ [])) : ¬ Arrived o := by
  obtain ⟨hrc, htimeout⟩ := not_or.mp h
  rintro (hmoved | hzero)
  · exact hplain ⟨hrc, fun hto => htimeout ⟨hto, hmoved⟩, hmoved⟩
  · exact hrc hzero

theorem not_accepted_of_silent {o : Outcome (List Byte)} (h : Silent o) : ¬ Accepted o := by
  rintro (hrc | ⟨-, hmoved⟩)
  · rw [h.1] at hrc
    exact absurd hrc (by decide)
  · exact hmoved h.2

theorem plain_of_honours (h : Honours s timeout ((waitReadable timeout).run s))
    (hempty : ¬ s.incomingOffset < s.incoming.length) : Plain timeout s.coming := by
  obtain ⟨r, s', hrun, hattempts, hresult⟩ := @run_waitReadable_empty s timeout hempty
  have harg := timeoutArgument_eq timeout
  rw [hrun] at h
  obtain ⟨a, ha, -, ⟨hbound, -⟩, htrue, hsilent, herror⟩ := h.transfer hempty
  have heq : a = ⟨timeoutArgument timeout, s.coming⟩ := by
    have hlast := ha.symm.trans hattempts
    rw [List.append_cancel_left_eq, List.singleton_inj] at hlast
    exact hlast
  subst heq
  refine ⟨fun hzero => ?_, fun hs => ?_, ?_⟩
  · apply hbound
    dsimp only
    omega
  · rcases hresult with ⟨haccepted, -⟩ | ⟨-, e, rfl⟩
    · exact not_accepted_of_silent hs haccepted
    · exact (herror e rfl).2 hs
  · rintro ⟨hrc, hto, hmoved⟩
    have hok := htrue.mpr (.inl hmoved)
    rcases hresult with ⟨haccepted, -⟩ | ⟨-, e, rfl⟩
    · rcases haccepted with hzero | ⟨htimeout, -⟩
      · exact hrc hzero
      · exact hto htimeout
    · cases hok

theorem honours_of_plain (hnonneg : 0 ≤ timeout) (hempty : ¬ s.incomingOffset < s.incoming.length)
    (h : Plain timeout s.coming) : Honours s timeout ((waitReadable timeout).run s) := by
  obtain ⟨hzero, hsilent, hplain⟩ := h
  obtain ⟨r, s', hrun, hattempts, hresult⟩ := @run_waitReadable_empty s timeout hempty
  have harg := timeoutArgument_eq timeout
  rw [hrun]
  refine ⟨fun h => absurd h hempty, fun _ => ⟨_, hattempts, rfl, ⟨?_, ?_⟩, ?_, ?_, ?_⟩⟩
  · dsimp only
    omega
  · dsimp only
    omega
  · rcases hresult with ⟨haccepted, rfl⟩ | ⟨haccepted, e, rfl⟩
    · refine iff_of_true ?_ (arrived_of_accepted haccepted)
      rw [decide_eq_true (Or.comm.mp (arrived_of_accepted haccepted))]
    · exact iff_of_false nofun (not_arrived haccepted hplain)
  · exact fun hs => absurd hs hsilent
  · intro e he
    rcases hresult with ⟨-, rfl⟩ | ⟨haccepted, -⟩
    · cases he
    · exact ⟨fun hrc => haccepted (.inl hrc), hsilent⟩

/-- A wait keeps its promise exactly where it is answered from the buffer, or its transfer is bounded,
not silent, and drops no bytes. -/
theorem waitReadable_honours_iff (s : Impl) {timeout : ℤ} (hnonneg : 0 ≤ timeout) :
    Honours s timeout ((waitReadable timeout).run s) ↔
      s.incomingOffset < s.incoming.length ∨ Plain timeout s.coming := by
  by_cases hbuffered : s.incomingOffset < s.incoming.length
  · refine iff_of_true ⟨fun _ => run_waitReadable_buffered hbuffered, fun h => absurd hbuffered h⟩ ?_
    exact .inl hbuffered
  · constructor
    · exact fun h => .inr (plain_of_honours h hbuffered)
    · exact fun h => honours_of_plain hnonneg hbuffered (h.resolve_left hbuffered)

/-- A transport whose device answers a wait with two bytes. -/
def talking : Impl where
  arriving := [{ rc := 0, moved := [1, 2], elapsed := 3 }]

theorem waitReadable_honours_iff_talking : Honours talking 50 ((waitReadable 50).run talking) := by
  refine (waitReadable_honours_iff talking (by decide)).mpr (.inr ⟨by decide, ?_, ?_⟩)
  · rintro ⟨hrc, -⟩
    exact absurd hrc (by decide)
  · rintro ⟨hrc, -⟩
    exact hrc rfl

/-- A transport whose device stays silent for a transfer. -/
def silentOnce : Impl where
  arriving := [{ rc := kErrorTimeout, moved := [], elapsed := 50 }]

/-- Silence is an error, and a wait of no time at all is handed to libusb as a wait without limit. -/
theorem not_waitReadable_honours_silent :
    (∃ e, ((waitReadable 50).run silentOnce).1 = .error e) ∧
    ¬ Honours silentOnce 50 ((waitReadable 50).run silentOnce) ∧
    ((waitReadable 0).run talking).2.attempts.map Attempt.timeout = [0] ∧
    ¬ Honours talking 0 ((waitReadable 0).run talking) := by
  have hsilent : Silent silentOnce.coming := ⟨rfl, rfl⟩
  have herror : ∃ e, ((waitReadable 50).run silentOnce).1 = .error e := by
    obtain ⟨r, s', hrun, -, hresult⟩ := @run_waitReadable_empty silentOnce 50 (by decide)
    rw [hrun]
    rcases hresult with ⟨haccepted, -⟩ | ⟨-, e, rfl⟩
    · exact absurd haccepted (not_accepted_of_silent hsilent)
    · exact ⟨e, rfl⟩
  have hunbounded : ((waitReadable 0).run talking).2.attempts.map Attempt.timeout = [0] := by
    obtain ⟨r, s', hrun, hattempts, -⟩ := @run_waitReadable_empty talking 0 (by decide)
    rw [hrun, hattempts]
    rfl
  refine ⟨herror, fun h => ?_, hunbounded, fun h => ?_⟩
  · exact (plain_of_honours h (by decide)).2.1 hsilent
  · exact (plain_of_honours h (by decide)).1 rfl

end Impl

end Adbcpp.Usb
