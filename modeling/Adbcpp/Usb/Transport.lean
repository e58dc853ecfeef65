import Adbcpp.Error
import Mathlib.Algebra.Ring.Int.Defs
import Mathlib.Data.Int.Notation

/-! The USB transport: one bulk transfer is read into a buffer, and reads hand out the
buffer. libusb and the device behind it are a script of the outcomes that the coming
transfers will have. A transfer that timed out with nothing moved is retried until
its time budget is spent. -/

namespace Adbcpp.Usb

/-- The buffer for one bulk transfer. -/
def kReadBufferSize : ℕ := 256 * 1024

def kDefaultTransferTimeoutMs : ℕ := 5000

def kDefaultTransferBudgetMs : ℕ := 120000

/-- `LIBUSB_ERROR_TIMEOUT`. -/
def kErrorTimeout : ℤ := -7

/-- `LIBUSB_ERROR_NO_DEVICE`. -/
def kErrorNoDevice : ℤ := -4

/-- How one `libusb_bulk_transfer` ends: its return code, what it moved, and by how much the
steady clock has advanced. -/
structure Outcome (β : Type) where
  rc : ℤ
  moved : β
  elapsed : ℕ := 0
  deriving DecidableEq, Repr

/-- One call of `libusb_bulk_transfer` on the IN endpoint. -/
structure Attempt where
  timeout : ℕ
  outcome : Outcome (List Byte)
  deriving DecidableEq, Repr

structure Impl where
  incoming : List Byte := []
  incomingOffset : ℕ := 0
  transferTimeoutMs : ℕ := kDefaultTransferTimeoutMs
  transferBudgetMs : ℕ := kDefaultTransferBudgetMs
  /-- The outcomes of the coming IN transfers; after the last one the device is gone. -/
  arriving : List (Outcome (List Byte))
  /-- The IN transfers so far. -/
  attempts : List Attempt := []
  /-- The steady clock, in milliseconds. -/
  now : ℕ := 0
  /-- `libusb_strerror`. -/
  strerror : ℤ → String := fun _ => ""

/-- The transport uses the bytes of such a transfer: a success, or a timeout that moved bytes. -/
def Accepted (o : Outcome (List Byte)) : Prop :=
  o.rc = 0 ∨ (o.rc = kErrorTimeout ∧ o.moved ≠ [])

instance (o : Outcome (List Byte)) : Decidable (Accepted o) := inferInstanceAs (Decidable (_ ∨ _))

/-- `std::vector::resize`. -/
def resize (n : ℕ) (bytes : List Byte) : List Byte :=
  bytes.take n ++ List.replicate (n - bytes.length) 0

@[simp] theorem length_resize (n : ℕ) (bytes : List Byte) : (resize n bytes).length = n := by
  rw [resize, List.length_append, List.length_take, List.length_replicate]
  omega

namespace Impl

/-- Fails with the text of a libusb code. -/
def failWith {α : Type} (what : String) (code : ℤ) : Action Impl α := do
  let s ← Prog.get
  Prog.fail (.of .transport (what ++ ": " ++ s.strerror code))

/-- The outcome of the next transfer into a buffer of `length` bytes. -/
def nextOutcome (length : ℕ) :
    List (Outcome (List Byte)) → Outcome (List Byte) × List (Outcome (List Byte))
  | [] => ({ rc := kErrorNoDevice, moved := [] }, [])
  | o :: rest => ({ o with moved := o.moved.take length }, rest)

/-- One `libusb_bulk_transfer` into the buffer. It writes only the bytes it moved. -/
def libusbBulkTransfer (timeout : ℕ) : Action Impl (Outcome (List Byte)) := fun s =>
  let o := (nextOutcome s.incoming.length s.arriving).1
  (.ok o, { s with
    incoming := o.moved ++ s.incoming.drop o.moved.length
    arriving := (nextOutcome s.incoming.length s.arriving).2
    attempts := s.attempts ++ [{ timeout, outcome := o }]
    now := s.now + o.elapsed })

/-- One turn of the retrying: silence is tried again until the deadline. -/
def bulkTransferTurn (deadline : ℕ) (_ : Unit) : Action Impl (Turn Unit (Outcome (List Byte))) := do
  let s ← Prog.get
  let o ← libusbBulkTransfer s.transferTimeoutMs
  let s ← Prog.get
  if o.rc ≠ kErrorTimeout ∨ o.moved ≠ [] then
    pure (.done o)
  else if s.now ≥ deadline then
    pure (.done o)
  else
    pure (.again ())

theorem run_libusbBulkTransfer (timeout : ℕ) (s : Impl) :
    ∃ o s', (libusbBulkTransfer timeout).run s = (.ok o, s') ∧
      s'.incoming = o.moved ++ s.incoming.drop o.moved.length ∧
      s'.incomingOffset = s.incomingOffset ∧ o.moved.length ≤ s.incoming.length ∧
      s'.attempts = s.attempts ++ [{ timeout, outcome := o }] ∧
      (o.rc = kErrorTimeout → s'.arriving.length < s.arriving.length) := by
  refine ⟨_, _, rfl, rfl, rfl, ?_, rfl, ?_⟩
  · cases s.arriving with
    | nil => exact Nat.zero_le _
    | cons o rest =>
      rw [nextOutcome, List.length_take]
      exact Nat.min_le_left _ _
  · cases s.arriving with
    | nil => exact fun h => absurd (show kErrorNoDevice = kErrorTimeout from h) (by decide)
    | cons o rest => exact fun _ => Nat.lt_succ_self _

/-- What one turn of the retrying does: one transfer, and another turn only after silence. -/
theorem bulkTransferTurn_cases (deadline : ℕ) (s : Impl) :
    ∃ o s' turn, (bulkTransferTurn deadline ()).run s = (.ok turn, s') ∧
      s'.incoming = o.moved ++ s.incoming.drop o.moved.length ∧
      s'.incomingOffset = s.incomingOffset ∧ o.moved.length ≤ s.incoming.length ∧
      s'.attempts = s.attempts ++ [{ timeout := s.transferTimeoutMs, outcome := o }] ∧
      (turn = .done o ∨ (turn = .again () ∧ o.rc = kErrorTimeout ∧ o.moved = [] ∧
        s'.arriving.length < s.arriving.length)) := by
  obtain ⟨o, s', hrun, hin, hoff, hlen, hatt, harr⟩ := run_libusbBulkTransfer s.transferTimeoutMs s
  rw [bulkTransferTurn, Prog.run_bind_get, Prog.run_bind_ok hrun, Prog.run_bind_get]
  by_cases hdone : o.rc ≠ kErrorTimeout ∨ o.moved ≠ []
  · rw [if_pos hdone]
    exact ⟨o, s', _, rfl, hin, hoff, hlen, hatt, .inl rfl⟩
  rw [if_neg hdone]
  simp only [not_or, not_not] at hdone
  split
  · exact ⟨o, s', _, rfl, hin, hoff, hlen, hatt, .inl rfl⟩
  · exact ⟨o, s', _, rfl, hin, hoff, hlen, hatt, .inr ⟨rfl, hdone.1, hdone.2, harr hdone.1⟩⟩

theorem bulkTransferTurn_decreases (deadline : ℕ) :
    Prog.Decreases (fun (_ : Unit) (s : Impl) => s.arriving.length) (bulkTransferTurn deadline) := by
  intro _ b s s' h
  obtain ⟨o, t, turn, hrun, -, -, -, -, hturn⟩ := bulkTransferTurn_cases deadline s
  rw [hrun] at h
  cases h
  rcases hturn with hdone | ⟨-, -, -, hlt⟩
  · cases hdone
  · exact hlt

/-- Runs one bulk transfer, retrying while it times out having moved nothing. -/
def bulkTransfer : Action Impl (Outcome (List Byte)) := do
  let s ← Prog.get
  Prog.loop (bulkTransferTurn_decreases (s.now + s.transferBudgetMs)) ()

/-- Copies up to `size` buffered bytes out. -/
def takeIncoming (size : ℕ) : Action Impl (List Byte) := do
  let s ← Prog.get
  let available := s.incoming.length - s.incomingOffset
  let count := min available size
  Prog.modify fun s => { s with incomingOffset := s.incomingOffset + count }
  pure ((s.incoming.drop s.incomingOffset).take count)

def read (size : ℕ) : Action Impl (List Byte) := do
  let s ← Prog.get
  if s.incomingOffset ≥ s.incoming.length then do
    Prog.modify fun s => { s with incoming := resize kReadBufferSize s.incoming }
    let o ← bulkTransfer
    -- A timeout that still delivered bytes is a short read.
    if ¬ Accepted o then
      failWith "libusb_bulk_transfer (read)" o.rc
    else do
      Prog.modify fun s => { s with incoming := resize o.moved.length s.incoming, incomingOffset := 0 }
      if o.moved.length = 0 then
        pure []
      else
        takeIncoming size
  else
    takeIncoming size

/-- The time-out argument is converted to the unsigned int that libusb takes. -/
def waitReadable (timeout : ℤ) : Action Impl Bool := do
  let s ← Prog.get
  if s.incomingOffset < s.incoming.length then
    pure true
  else do
    Prog.modify fun s => { s with incoming := resize kReadBufferSize s.incoming }
    let o ← libusbBulkTransfer (timeout % 2 ^ 32).toNat
    if ¬ Accepted o then do
      Prog.modify fun s => { s with incoming := [], incomingOffset := 0 }
      failWith "libusb_bulk_transfer (wait)" o.rc
    else do
      Prog.modify fun s => { s with incoming := resize o.moved.length s.incoming, incomingOffset := 0 }
      pure (decide (o.rc = 0 ∨ o.moved ≠ []))

end Impl

end Adbcpp.Usb
