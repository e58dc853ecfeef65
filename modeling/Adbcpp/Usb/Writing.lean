import Adbcpp.Library.Narrowing
import Adbcpp.Usb.Transport

/-! The writes of a USB transport. A buffer goes out in one bulk transfer, which is tried
again only after it timed out with nothing moved and before the deadline. Whatever else
a transfer ends with ends the write too, so that no byte goes out twice. -/

namespace Adbcpp.Usb

/-- One call of `libusb_bulk_transfer` on the OUT endpoint, and the steady clock when it returns. -/
structure Sending where
  data : List Byte
  length : ℤ
  timeout : ℕ
  outcome : Outcome ℕ
  ended : ℕ
  deriving DecidableEq, Repr

/-- The transfer timed out with nothing moved. -/
def Sending.Futile (a : Sending) : Prop := a.outcome.rc = kErrorTimeout ∧ a.outcome.moved = 0

instance (a : Sending) : Decidable a.Futile := inferInstanceAs (Decidable (_ ∧ _))

/-- The transport with the OUT endpoint of its device. -/
structure Outward where
  impl : Impl
  /-- The outcomes of the coming OUT transfers; after the last one the device is gone. -/
  departing : List (Outcome ℕ) := []
  /-- The OUT transfers so far. -/
  sendings : List Sending := []
  /-- The bytes that the device has received. -/
  delivered : List Byte := []

namespace Outward

/-- The outcome of the next transfer from a buffer of `length` bytes. -/
def nextOutcome (length : ℕ) : List (Outcome ℕ) → Outcome ℕ × List (Outcome ℕ)
  | [] => ({ rc := kErrorNoDevice, moved := 0 }, [])
  | o :: rest => ({ o with moved := min o.moved length }, rest)

/-- One `libusb_bulk_transfer` from the buffer. What it moved has been delivered when it returns. -/
def libusbBulkTransfer (data : List Byte) (length : ℤ) (timeout : ℕ) : Action Outward (Outcome ℕ) := fun s =>
  let o := (nextOutcome length.toNat s.departing).1
  (.ok o, { s with
    impl := { s.impl with now := s.impl.now + o.elapsed }
    departing := (nextOutcome length.toNat s.departing).2
    sendings := s.sendings ++ [⟨data, length, timeout, o, s.impl.now + o.elapsed⟩]
    delivered := s.delivered ++ data.take o.moved })

/-- One turn of the retrying, as on the IN endpoint. -/
def bulkTransferTurn (data : List Byte) (length : ℤ) (deadline : ℕ) (_ : Unit) :
    Action Outward (Turn Unit (Outcome ℕ)) := do
  let s ← Prog.get
  let o ← libusbBulkTransfer data length s.impl.transferTimeoutMs
  let s ← Prog.get
  if o.rc ≠ kErrorTimeout ∨ o.moved > 0 then
    pure (.done o)
  else if s.impl.now ≥ deadline then
    pure (.done o)
  else
    pure (.again ())

/-- What one transfer does. -/
structure Transfers (data : List Byte) (length : ℤ) (s : Outward) (a : Sending) (s' : Outward) : Prop where
  sendings : s'.sendings = s.sendings ++ [a]
  delivered : s'.delivered = s.delivered ++ data.take a.outcome.moved
  buffer : a.data = data ∧ a.length = length
  moved : a.outcome.moved ≤ length.toNat
  ended : a.ended = s'.impl.now

theorem run_libusbBulkTransfer (data : List Byte) (length : ℤ) (timeout : ℕ) (s : Outward) :
    ∃ a s', (libusbBulkTransfer data length timeout).run s = (.ok a.outcome, s') ∧
      Transfers data length s a s' ∧
      (a.outcome.rc = kErrorTimeout → s'.departing.length < s.departing.length) := by
  refine ⟨⟨data, length, timeout, _, _⟩, _, rfl, ⟨rfl, rfl, ⟨rfl, rfl⟩, ?_, rfl⟩, ?_⟩
  · dsimp only
    cases s.departing with
    | nil => exact Nat.zero_le _
    | cons o rest => exact Nat.min_le_right _ _
  · dsimp only
    cases s.departing with
    | nil => exact fun h => absurd (show kErrorNoDevice = kErrorTimeout from h) (by decide)
    | cons o rest => exact fun _ => Nat.lt_succ_self _

/-- What one turn of the retrying does: one transfer, and another turn only where it was futile
and ended before the deadline. -/
theorem bulkTransferTurn_cases (data : List Byte) (length : ℤ) (deadline : ℕ) (s : Outward) :
    ∃ a s' turn, (bulkTransferTurn data length deadline ()).run s = (.ok turn, s') ∧
      Transfers data length s a s' ∧
      (turn = .done a.outcome ∨ (turn = .again () ∧ a.Futile ∧ a.ended < deadline ∧
        s'.departing.length < s.departing.length)) := by
  obtain ⟨a, s', hrun, htransfers, hless⟩ :=
    run_libusbBulkTransfer data length s.impl.transferTimeoutMs s
  rw [bulkTransferTurn, Prog.run_bind_get, Prog.run_bind_ok hrun, Prog.run_bind_get]
  by_cases hdone : a.outcome.rc ≠ kErrorTimeout ∨ a.outcome.moved > 0
  · rw [if_pos hdone]
    exact ⟨a, s', _, rfl, htransfers, .inl rfl⟩
  rw [if_neg hdone]
  obtain ⟨hrc, hmoved⟩ := not_or.mp hdone
  by_cases hlate : s'.impl.now ≥ deadline
  · rw [if_pos hlate]
    exact ⟨a, s', _, rfl, htransfers, .inl rfl⟩
  · rw [if_neg hlate]
    have hfutile : a.Futile := ⟨not_not.mp hrc, Nat.eq_zero_of_not_pos hmoved⟩
    refine ⟨a, s', _, rfl, htransfers, .inr ⟨rfl, hfutile, ?_, hless hfutile.1⟩⟩
    rw [htransfers.ended]
    omega

theorem bulkTransferTurn_decreases (data : List Byte) (length : ℤ) (deadline : ℕ) : Prog.Decreases
    (fun (_ : Unit) (s : Outward) => s.departing.length) (bulkTransferTurn data length deadline) := by
  intro _ b s s' h
  obtain ⟨a, t, turn, hrun, -, hturn⟩ := bulkTransferTurn_cases data length deadline s
  rw [hrun] at h
  cases h
  rcases hturn with hdone | ⟨-, -, -, hless⟩
  · cases hdone
  · exact hless

/-- The bulk transfer of a buffer, retried while it times out having moved nothing. -/
def bulkTransfer (data : List Byte) (length : ℤ) : Action Outward (Outcome ℕ) := do
  let s ← Prog.get
  Prog.loop (bulkTransferTurn_decreases data length (s.impl.now + s.impl.transferBudgetMs)) ()

/-- Fails with the text of a libusb code. -/
def failWith {α : Type} (what : String) (code : ℤ) : Action Outward α := do
  let s ← Prog.get
  Prog.fail (.of .transport (what ++ ": " ++ s.impl.strerror code))

def write (data : List Byte) : Action Outward Unit :=
  if data = [] then
    pure ()
  else do
    let o ← bulkTransfer data (Narrowing.asInt data.length)
    if o.rc ≠ 0 then
      -- Sending the rest behind a part of the message would desynchronize the stream.
      if o.rc = kErrorTimeout ∧ o.moved > 0 then
        Prog.fail (.of .transport "short USB write: the stream is desynchronized")
      else
        failWith "libusb_bulk_transfer (write)" o.rc
    else if o.moved ≠ data.length then
      Prog.fail (.of .transport "short USB write")
    else
      pure ()

/-! ### What the device receives -/

/-- A finished bulk transfer has made some transfers, of which only the last one can have moved anything. -/
structure Finished (data : List Byte) (length : ℤ) (deadline : ℕ) (s : Outward) (o : Outcome ℕ) (s' : Outward) :
    Prop where
  sendings : ∃ earlier a, s'.sendings = s.sendings ++ (earlier ++ [a]) ∧ a.outcome = o ∧
    (∀ b ∈ earlier, b.Futile ∧ b.ended < deadline) ∧
    ∀ b ∈ earlier ++ [a], b.data = data ∧ b.length = length
  delivered : s'.delivered = s.delivered ++ data.take o.moved
  moved : o.moved ≤ length.toNat

theorem bulkTransferLoop_finished (data : List Byte) (length : ℤ) (deadline : ℕ) (s : Outward) :
    ∃ o s', (Prog.loop (bulkTransferTurn_decreases data length deadline) ()).run s = (.ok o, s') ∧
      Finished data length deadline s o s' := by
  refine Prog.loop_induct (bulkTransferTurn_decreases data length deadline)
    (P := fun _ s r => ∃ o s', r = (.ok o, s') ∧ Finished data length deadline s o s') ?_ ?_ ?_ () s
  · intro _ b s t r hb ih
    obtain ⟨a, s', turn, hrun, htransfers, hturn⟩ := bulkTransferTurn_cases data length deadline s
    rw [hrun] at hb
    cases hb
    rcases hturn with hdone | ⟨-, hfutile, hbefore, -⟩
    · cases hdone
    obtain ⟨o, u, rfl, ⟨earlier, c, hsendings, hout, hall, hsame⟩, hdelivered, hmoved⟩ := ih
    refine ⟨o, u, rfl, ⟨a :: earlier, c, ?_, hout, ?_, ?_⟩, ?_, hmoved⟩
    · rw [hsendings, htransfers.sendings, List.append_assoc]
      rfl
    · exact List.forall_mem_cons.mpr ⟨⟨hfutile, hbefore⟩, hall⟩
    · exact List.forall_mem_cons.mpr ⟨htransfers.buffer, hsame⟩
    · rw [hdelivered, htransfers.delivered, hfutile.2, List.take_zero, List.append_nil]
  · intro _ o s t hb
    obtain ⟨a, s', turn, hrun, htransfers, hturn⟩ := bulkTransferTurn_cases data length deadline s
    rw [hrun] at hb
    cases hb
    rcases hturn with hdone | ⟨hagain, -⟩
    · cases hdone
      refine ⟨_, _, rfl, ⟨[], a, htransfers.sendings, rfl, by simp, ?_⟩, htransfers.delivered,
        htransfers.moved⟩
      intro b hb
      rw [List.mem_singleton.mp hb]
      exact htransfers.buffer
    · cases hagain
  · intro _ e s t hb
    obtain ⟨a, s', turn, hrun, -⟩ := bulkTransferTurn_cases data length deadline s
    rw [hrun] at hb
    cases hb

/-- What a write makes the device receive. -/
structure WritesOnce (data : List Byte) (s : Outward) (r : Except Error Unit × Outward) : Prop where
  nothing : data = [] → r = (.ok (), s)
  success : r.1 = .ok () → r.2.delivered = s.delivered ++ data
  failure : ∀ e, r.1 = .error e → ∃ part, part <+: data ∧ r.2.delivered = s.delivered ++ part
  /-- The transfers of the write, each of the whole buffer. -/
  transfers : ∃ sendings, r.2.sendings = s.sendings ++ sendings ∧
    (∀ a ∈ sendings, a.data = data ∧ a.length = data.length) ∧
    (∀ pre a post, sendings = pre ++ a :: post → post ≠ [] →
      a.Futile ∧ a.ended < s.impl.now + s.impl.transferBudgetMs) ∧
    ∀ pre a, sendings = pre ++ [a] → a.outcome.rc = 0 → a.outcome.moved = data.length → r.1 = .ok ()

theorem bulkTransfer_finished (data : List Byte) (length : ℤ) (s : Outward) :
    ∃ o s', (bulkTransfer data length).run s = (.ok o, s') ∧
      Finished data length (s.impl.now + s.impl.transferBudgetMs) s o s' :=
  bulkTransferLoop_finished data length _ s

/-- What the end of a bulk transfer makes of a write. -/
theorem run_write {data : List Byte} (hdata : data ≠ []) (s : Outward) : ∃ o s',
    Finished data (Narrowing.asInt data.length) (s.impl.now + s.impl.transferBudgetMs) s o s' ∧
    ((o.rc = 0 ∧ o.moved = data.length ∧ (write data).run s = (.ok (), s')) ∨
      (¬ (o.rc = 0 ∧ o.moved = data.length) ∧ ∃ e, (write data).run s = (.error e, s'))) := by
  obtain ⟨o, s', hrun, hfinished⟩ := bulkTransfer_finished data (Narrowing.asInt data.length) s
  refine ⟨o, s', hfinished, ?_⟩
  rw [write, if_neg hdata, Prog.run_bind_ok hrun]
  by_cases hrc : o.rc = 0
  swap
  · right
    refine ⟨fun h => hrc h.1, ?_⟩
    rw [if_pos hrc]
    split
    · exact ⟨_, rfl⟩
    · exact ⟨_, rfl⟩
  rw [if_neg (not_not.mpr hrc)]
  by_cases hmoved : o.moved = data.length
  · left
    rw [if_neg (not_not.mpr hmoved)]
    exact ⟨hrc, hmoved, rfl⟩
  · right
    rw [if_pos hmoved]
    exact ⟨fun h => hmoved h.2, _, rfl⟩

/-- All but the last of some transfers. -/
theorem futile_of_post {earlier : List Sending} {c : Sending} {P : Sending → Prop} (h : ∀ b ∈ earlier, P b)
    {pre post : List Sending} {a : Sending} (hsplit : earlier ++ [c] = pre ++ a :: post) (hpost : post ≠ []) :
    P a := by
  refine h a ?_
  obtain ⟨init, last, rfl⟩ := (List.eq_nil_or_concat post).resolve_left hpost
  rw [List.concat_eq_append, ← List.cons_append, ← List.append_assoc] at hsplit
  rw [(List.append_inj' hsplit rfl).1]
  exact List.mem_append_right _ List.mem_cons_self

/-- A write of a buffer below 2^31 bytes makes the device receive it whole, or a part from its start and
an error, and nothing twice. -/
theorem write_writesOnce {data : List Byte} (hlength : data.length < 2 ^ 31) (s : Outward) :
    WritesOnce data s ((write data).run s) := by
  by_cases hdata : data = []
  · have hrun : (write data).run s = (.ok (), s) := by
      rw [write, if_pos hdata]
      rfl
    rw [hrun]
    refine ⟨fun _ => rfl, fun _ => ?_, nofun, [], (List.append_nil _).symm, by simp, by simp, fun _ _ _ _ _ => rfl⟩
    rw [hdata, List.append_nil]
  obtain ⟨o, s', ⟨⟨earlier, c, hsendings, rfl, hfutile, hsame⟩, hdelivered, hmoved⟩, hresult⟩ :=
    run_write hdata s
  rw [Narrowing.asInt_of_lt hlength] at hsame
  refine ⟨fun h => absurd h hdata, fun hok => ?_, fun e herror => ?_, earlier ++ [c], ?_, hsame, ?_, ?_⟩
  · rcases hresult with ⟨-, hall, hrun⟩ | ⟨-, e, hrun⟩
    · rw [hrun, hdelivered, hall, List.take_length]
    · rw [hrun] at hok
      cases hok
  · rcases hresult with ⟨-, -, hrun⟩ | ⟨-, e', hrun⟩
    · rw [hrun] at herror
      cases herror
    · rw [hrun]
      exact ⟨_, List.take_prefix _ _, hdelivered⟩
  · rcases hresult with ⟨-, -, hrun⟩ | ⟨-, e, hrun⟩
    · rw [hrun, hsendings]
    · rw [hrun, hsendings]
  · intro pre a post hsplit hpost
    exact futile_of_post hfutile hsplit hpost
  · intro pre a hsplit hrc hall
    have hlast : c = a := List.singleton_inj.mp (List.append_inj' hsplit rfl).2
    subst hlast
    rcases hresult with ⟨-, -, hrun⟩ | ⟨hnot, -⟩
    · rw [hrun]
    · exact absurd ⟨hrc, hall⟩ hnot

/-- A device that takes a buffer of three bytes after a first transfer that moved nothing. -/
def slowDevice : Outward where
  impl := { arriving := [] }
  departing := [{ rc := kErrorTimeout, moved := 0, elapsed := 5000 }, { rc := 0, moved := 3 }]

theorem write_writesOnce_slow : WritesOnce [1, 2, 3] slowDevice ((write [1, 2, 3]).run slowDevice) ∧
    ((write [1, 2, 3]).run slowDevice).2.delivered = [1, 2, 3] := by
  have honce := @write_writesOnce [1, 2, 3] (by decide) slowDevice
  exact ⟨honce, honce.success rfl⟩

end Outward

end Adbcpp.Usb
