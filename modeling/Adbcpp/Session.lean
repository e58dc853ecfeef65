import Adbcpp.Protocol.Message
import Adbcpp.Transport

/-! The framed session over a transport: complete messages instead of bytes. A
header and its payload are two writes and two exact reads. A header that cannot
be right closes the transport and the session, and a closed session reports an
error without touching its transport. -/

namespace Adbcpp

open Protocol

variable {τ : Type}

/-! ### Exact reads -/

section ReadExact

variable [Transport τ]

/-- One turn of the loop of `readExact`, where `out` is what has arrived so far. -/
def readExactTurn (size : ℕ) (out : List Byte) : Action τ (Turn (List Byte) (List Byte)) :=
  if out.length < size then do
    let bytes ← Transport.read (size - out.length)
    if bytes.length = 0 then
      Prog.fail (.of .protocol "unexpected end of stream")
    else
      pure (.again (out ++ bytes))
  else
    pure (.done out)

/-- A turn of `readExact` that asks for another one has read at least one byte. -/
theorem readExactTurn_again {size : ℕ} {out out' : List Byte} {t t' : τ}
    (h : (readExactTurn size out).run t = (.ok (.again out'), t')) :
    ∃ bytes, (Transport.read (size - out.length)).run t = (.ok bytes, t') ∧ bytes.length ≠ 0 ∧
      out.length < size ∧ out' = out ++ bytes := by
  unfold readExactTurn at h
  split at h
  next hlt =>
    obtain ⟨bytes, u, hr, h⟩ := Prog.bind_eq_ok h
    split at h
    · cases h
    next hne =>
      cases h
      exact ⟨bytes, hr, hne, hlt, rfl⟩
  next => cases h

theorem readExactTurn_done {size : ℕ} {out out' : List Byte} {t t' : τ}
    (h : (readExactTurn size out).run t = (.ok (.done out'), t')) :
    size ≤ out.length ∧ out' = out ∧ t' = t := by
  unfold readExactTurn at h
  split at h
  next hlt =>
    obtain ⟨bytes, u, hr, h⟩ := Prog.bind_eq_ok h
    split at h <;> cases h
  next hge =>
    cases h
    exact ⟨by omega, rfl, rfl⟩

theorem readExactTurn_decreases (size : ℕ) : Prog.Decreases
    (fun out (_ : τ) => size - out.length) (readExactTurn size) := by
  intro out out' t t' h
  obtain ⟨bytes, -, hne, hlt, rfl⟩ := readExactTurn_again h
  simp only [List.length_append]
  omega

/-- Reads until `size` bytes have arrived. -/
def readExact (size : ℕ) : Action τ (List Byte) := Prog.loop (readExactTurn_decreases size) []

private theorem readExactLoop_ok (size : ℕ) (out : List Byte) (t : τ) : out.length ≤ size →
    ∀ bytes t', (Prog.loop (readExactTurn_decreases size) out).run t = (.ok bytes, t') →
      bytes.length = size ∧
        Transport.remaining t' + (size - out.length) ≤ Transport.remaining t := by
  refine Prog.loop_induct (readExactTurn_decreases size) (P := fun out t r => out.length ≤ size →
    ∀ bytes t', r = (.ok bytes, t') → bytes.length = size ∧
      Transport.remaining t' + (size - out.length) ≤ Transport.remaining t) ?_ ?_ ?_ out t
  · intro out out' t t' r hb ih hout bytes t'' hr
    obtain ⟨piece, hread, hne, hlt, rfl⟩ := readExactTurn_again hb
    have hle := Transport.read_length hread
    have hrem := Transport.read_remaining hread
    rw [List.length_append] at ih
    obtain ⟨h1, h2⟩ := ih (by omega) bytes t'' hr
    exact ⟨h1, by omega⟩
  · intro out a t t' hb hout bytes t'' hr
    obtain ⟨hge, rfl, rfl⟩ := readExactTurn_done hb
    cases hr
    exact ⟨by omega, by omega⟩
  · intro out e t t' hb hout bytes t'' hr
    cases hr

/-- An exact read hands out exactly `size` bytes, all taken from the transport. -/
theorem readExact_ok {size : ℕ} {bytes : List Byte} {t t' : τ}
    (h : (readExact size).run t = (.ok bytes, t')) :
    bytes.length = size ∧ Transport.remaining t' + size ≤ Transport.remaining t :=
  readExactLoop_ok size [] t (Nat.zero_le _) bytes t' h

end ReadExact

/-! ### The session -/

/-- A session borrows its transport. `closed` is set by a close and by a framing error. -/
structure Session (τ : Type) where
  transport : τ
  closed : Bool := false

namespace Session

/-- An operation on the transport of the session. -/
def onTransport {α : Type} (p : Action τ α) : Action (Session τ) α :=
  Prog.zoom Session.transport (fun s t => { s with transport := t }) p

@[simp] theorem run_onTransport {α : Type} (p : Action τ α) (s : Session τ) :
    (onTransport p).run s = ((p.run s.transport).1, { s with transport := (p.run s.transport).2 }) := rfl

variable [Transport τ]

/-- Closes the transport once and marks the session closed. -/
def close (s : Session τ) : Session τ :=
  if s.closed then s else { transport := Transport.close s.transport, closed := true }

/-- A framing error closes the session as well as being reported. -/
def framingError {α : Type} (message : String) : Action (Session τ) α := do
  Prog.modify close
  Prog.fail (.of .protocol message)

def send (header : Message) (payload : List Byte) : Action (Session τ) Unit := do
  let s ← Prog.get
  if s.closed then
    Prog.fail (.of .transport "the session is closed")
  else if header.dataLength.toNat ≠ payload.length then
    Prog.fail (.of .invalidArgument "the header data_length does not match the payload")
  else do
    onTransport (Transport.write header.encode)
    if payload ≠ [] then
      onTransport (Transport.write payload)

/-- The payload that `header` announces, checked against its `data_check`. -/
def receivePayload (header : Message) : Action (Session τ) Frame :=
  if header.dataLength.toNat = 0 then
    pure ⟨header, []⟩
  else do
    let payload ← onTransport (readExact header.dataLength.toNat)
    -- A current device sends zero, so the checksum counts only where one was set.
    if header.dataCheck ≠ 0 ∧ header.dataCheck ≠ Message.computeChecksum payload then
      framingError "the header payload checksum does not match the payload"
    else
      pure ⟨header, payload⟩

def receive : Action (Session τ) Frame := do
  let s ← Prog.get
  if s.closed then
    Prog.fail (.of .transport "the session is closed")
  else do
    let bytes ← onTransport (readExact kMessageHeaderSize)
    let header := Message.decode bytes
    if header.magic ≠ Message.computeMagic header.command then
      framingError "the header magic does not match its command"
    else if header.dataLength > kMaxData then
      framingError "the header payload length is past the maximum"
    else
      receivePayload header

/-- A closed session fails without touching its transport. -/
theorem send_closed {s : Session τ} (h : s.closed = true) (header : Message) (payload : List Byte) :
    (send header payload).run s = (.error (.of .transport "the session is closed"), s) := by
  rw [send, Prog.run_bind_get, if_pos h]
  rfl

theorem receive_closed {s : Session τ} (h : s.closed = true) :
    receive.run s = (.error (.of .transport "the session is closed"), s) := by
  rw [receive, Prog.run_bind_get, if_pos h]
  rfl

theorem close_eq_self {s : Session τ} (h : s.closed = true) : s.close = s := by
  rw [close, if_pos h]

@[simp] theorem run_framingError {α : Type} (message : String) (s : Session τ) :
    (framingError message : Action (Session τ) α).run s = (.error (.of .protocol message), s.close) := rfl

/-- A relation on transports, seen from the sessions over them. -/
def Along (R : τ → τ → Prop) (s s' : Session τ) : Prop := R s.transport s'.transport

instance {R : τ → τ → Prop} [Std.Refl R] : Std.Refl (Along R) := ⟨fun s => refl_of R s.transport⟩

instance {R : τ → τ → Prop} [IsTrans τ R] : IsTrans (Session τ) (Along R) :=
  ⟨fun _ _ _ h h' => trans_of R h h'⟩

/-- As `Along`, with the session neither opened nor closed. -/
def Keeps (R : τ → τ → Prop) (s s' : Session τ) : Prop :=
  R s.transport s'.transport ∧ s'.closed = s.closed

instance {R : τ → τ → Prop} [Std.Refl R] : Std.Refl (Keeps R) :=
  ⟨fun s => ⟨refl_of R s.transport, rfl⟩⟩

instance {R : τ → τ → Prop} [IsTrans τ R] : IsTrans (Session τ) (Keeps R) :=
  ⟨fun _ _ _ h h' => ⟨trans_of R h.1 h'.1, h'.2.trans h.2⟩⟩

omit [Transport τ] in
theorem onTransport_along {R : τ → τ → Prop} {α : Type} {p : Action τ α} (hp : Prog.Steps R p) :
    Prog.Steps (Along R) (onTransport p) :=
  fun s => hp s.transport

omit [Transport τ] in
theorem onTransport_keeps {R : τ → τ → Prop} {α : Type} {p : Action τ α} (hp : Prog.Steps R p) :
    Prog.Steps (Keeps R) (onTransport p) :=
  fun s => ⟨hp s.transport, rfl⟩

/-- A send does to the transport what its writes do, and leaves the session open or closed. -/
theorem send_keeps {R : τ → τ → Prop} [Std.Refl R] [IsTrans τ R]
    (hw : ∀ data, Prog.Steps R (Transport.write data : Action τ Unit)) (header : Message)
    (payload : List Byte) : Prog.Steps (Keeps R) (send header payload) := by
  refine Prog.Steps.bind Prog.Steps.get fun s => Prog.Steps.ite (Prog.Steps.fail _) ?_
  refine Prog.Steps.ite (Prog.Steps.fail _) (Prog.Steps.bind (onTransport_keeps (hw _)) fun _ => ?_)
  exact Prog.Steps.ite (onTransport_keeps (hw _)) (Prog.Steps.pure _)

theorem close_along {R : τ → τ → Prop} [Std.Refl R] (hc : ∀ t : τ, R t (Transport.close t))
    (s : Session τ) : Along R s s.close := by
  unfold close
  split
  · exact refl_of R s.transport
  · exact hc s.transport

theorem readExact_steps {R : τ → τ → Prop} [Std.Refl R] [IsTrans τ R]
    (hr : ∀ size, Prog.Steps R (Transport.read size : Action τ _)) (size : ℕ) :
    Prog.Steps R (readExact size : Action τ _) := by
  refine Prog.Steps.loop _ (fun out => ?_) []
  unfold readExactTurn
  refine Prog.Steps.ite (Prog.Steps.bind (hr _) fun bytes => ?_) (Prog.Steps.pure _)
  exact Prog.Steps.ite (Prog.Steps.fail _) (Prog.Steps.pure _)

/-- A receive does to the transport what its reads and its one possible close do. -/
theorem receive_along {R : τ → τ → Prop} [Std.Refl R] [IsTrans τ R]
    (hr : ∀ size, Prog.Steps R (Transport.read size : Action τ _))
    (hc : ∀ t : τ, R t (Transport.close t)) :
    Prog.Steps (Along R) (receive : Action (Session τ) Frame) := by
  have hread : ∀ size, Prog.Steps (Along R) (onTransport (readExact size)) :=
    fun size => onTransport_along (readExact_steps hr size)
  have herror : ∀ {α : Type} (message : String),
      Prog.Steps (Along R) (framingError message : Action (Session τ) α) :=
    fun message s => close_along hc s
  unfold receive receivePayload
  refine Prog.Steps.bind Prog.Steps.get fun s => Prog.Steps.ite (Prog.Steps.fail _) ?_
  refine Prog.Steps.bind (hread _) fun bytes => ?_
  refine Prog.Steps.ite (herror _) (Prog.Steps.ite (herror _) ?_)
  refine Prog.Steps.ite (Prog.Steps.pure _) (Prog.Steps.bind (hread _) fun payload => ?_)
  exact Prog.Steps.ite (herror _) (Prog.Steps.pure _)

/-! ### Runs -/

/-- One call on a session. -/
inductive Op
  | send (header : Message) (payload : List Byte)
  | receive
  | close

/-- The session after one call, whatever the call returns. -/
def Op.next (s : Session τ) : Op → Session τ
  | .send header payload => ((Session.send header payload).run s).2
  | .receive => (Session.receive.run s).2
  | .close => s.close

/-- The session after a run of calls. -/
def after (s : Session τ) (ops : List Op) : Session τ := ops.foldl Op.next s

@[simp] theorem after_nil (s : Session τ) : s.after [] = s := rfl

@[simp] theorem after_cons (s : Session τ) (op : Op) (ops : List Op) :
    s.after (op :: ops) = (op.next s).after ops := rfl

theorem after_append (s : Session τ) (ops ops' : List Op) :
    s.after (ops ++ ops') = (s.after ops).after ops' := List.foldl_append

/-- What every call preserves holds after every run. -/
theorem after_induct {I : Session τ → Prop} (step : ∀ s (op : Op), I s → I (op.next s)) {s : Session τ}
    (h : I s) (ops : List Op) : I (s.after ops) := by
  induction ops generalizing s with
  | nil => exact h
  | cons op ops ih => exact ih (step s op h)

theorem close_closed (s : Session τ) : s.close.closed = true := by
  unfold close
  split <;> simp_all

end Session

end Adbcpp
