import Adbcpp.Session.Inbound

/-! What a receive asks for. A metered transport notes every request for bytes, with the
position from which on they are wanted, and every request for memory; without its meter
it is the transport again. A receive asks for the 24 bytes of a header first, and for
its payload only when the header is sound. -/

namespace Adbcpp

open Protocol ScriptedTransport

namespace Protocol.Message

/-- What is checked of a header before its payload is read. -/
def Sound (header : Message) : Prop :=
  header.magic = computeMagic header.command ∧ header.dataLength ≤ kMaxData

instance (header : Message) : Decidable header.Sound := inferInstanceAs (Decidable (_ ∧ _))

/-- Any 24 bytes are a header. -/
theorem exists_encode {bytes : List Byte} (h : bytes.length = kMessageHeaderSize) :
    ∃ header : Message, header.encode = bytes := by
  rw [kMessageHeaderSize] at h
  obtain ⟨command, r₁, rfl⟩ := exists_writeU32LE (show 4 ≤ bytes.length by omega)
  rw [List.length_append, length_writeU32LE] at h
  obtain ⟨arg0, r₂, rfl⟩ := exists_writeU32LE (show 4 ≤ r₁.length by omega)
  rw [List.length_append, length_writeU32LE] at h
  obtain ⟨arg1, r₃, rfl⟩ := exists_writeU32LE (show 4 ≤ r₂.length by omega)
  rw [List.length_append, length_writeU32LE] at h
  obtain ⟨dataLength, r₄, rfl⟩ := exists_writeU32LE (show 4 ≤ r₃.length by omega)
  rw [List.length_append, length_writeU32LE] at h
  obtain ⟨dataCheck, r₅, rfl⟩ := exists_writeU32LE (show 4 ≤ r₄.length by omega)
  rw [List.length_append, length_writeU32LE] at h
  obtain ⟨magic, r₆, rfl⟩ := exists_writeU32LE (show 4 ≤ r₅.length by omega)
  rw [List.length_append, length_writeU32LE] at h
  obtain rfl := List.eq_nil_of_length_eq_zero (show r₆.length = 0 by omega)
  exact ⟨⟨command, arg0, arg1, dataLength, dataCheck, magic⟩, by simp [encode]⟩

theorem encode_prefix_inj {header header' : Message} {stream : List Byte} (h : header.encode <+: stream)
    (h' : header'.encode <+: stream) : header = header' := by
  have heq : header.encode = header'.encode :=
    (List.prefix_of_prefix_length_le h h' (Nat.le_refl _)).eq_of_length rfl
  rw [← decode_encode header, heq, decode_encode]

end Protocol.Message

/-! ### What a receive asks for -/

/-- What is asked for: some bytes from a position on, or memory. -/
inductive Request
  | read (offset size : ℕ)
  | allocate (size : ℕ)
  deriving DecidableEq, Repr

/-- The request is for the header, or for the payload that a sound header announces. -/
def Request.Allowed (stream : List Byte) : Request → Prop
  | .read offset size => offset + size ≤ kMessageHeaderSize ∨ ∃ header : Message,
      header.encode <+: stream ∧ header.Sound ∧
        offset + size ≤ kMessageHeaderSize + header.dataLength.toNat
  | .allocate size => ∃ header : Message,
      header.encode <+: stream ∧ header.Sound ∧ size = header.dataLength.toNat

/-- A transport with the requests made of it. -/
structure Metered (τ : Type) where
  transport : τ
  position : ℕ := 0
  requests : List Request := []

namespace Metered

variable {τ : Type} [Transport τ]

def read (size : ℕ) : Action (Metered τ) (List Byte) := fun m =>
  match (Transport.read size).run m.transport with
  | (.ok bytes, t) => (.ok bytes, ⟨t, m.position + bytes.length, m.requests ++ [.read m.position size]⟩)
  | (.error e, t) => (.error e, ⟨t, m.position, m.requests ++ [.read m.position size]⟩)

def write (data : List Byte) : Action (Metered τ) Unit :=
  Prog.zoom Metered.transport (fun m t => { m with transport := t }) (Transport.write data)

def close (m : Metered τ) : Metered τ := { m with transport := Transport.close m.transport }

theorem run_read (size : ℕ) (m : Metered τ) : (read size).run m =
    match (Transport.read size).run m.transport with
    | (.ok bytes, t) => (.ok bytes, ⟨t, m.position + bytes.length, m.requests ++ [.read m.position size]⟩)
    | (.error e, t) => (.error e, ⟨t, m.position, m.requests ++ [.read m.position size]⟩) := rfl

theorem read_ok {size : ℕ} {m m' : Metered τ} {bytes : List Byte} (h : (read size).run m = (.ok bytes, m')) :
    ∃ t, (Transport.read size).run m.transport = (.ok bytes, t) ∧
      m' = ⟨t, m.position + bytes.length, m.requests ++ [.read m.position size]⟩ := by
  rw [run_read] at h
  split at h
  next bytes' t hread =>
    cases h
    exact ⟨t, hread, rfl⟩
  next => cases h

instance : Transport (Metered τ) where
  read := read
  write := write
  close := close
  remaining m := Transport.remaining m.transport
  read_length h := by
    obtain ⟨t, hread, -⟩ := read_ok h
    exact Transport.read_length hread
  read_remaining h := by
    obtain ⟨t, hread, rfl⟩ := read_ok h
    exact Transport.read_remaining hread
  write_remaining data m := Transport.write_remaining data m.transport

def allocate (size : ℕ) : Action (Metered τ) Unit :=
  Prog.modify fun m => { m with requests := m.requests ++ [.allocate size] }

/-- The receive of a session, which allocates the payload before it is read. -/
def receive : Action (Session (Metered τ)) Frame := do
  let s ← Prog.get
  if s.closed then
    Prog.fail (.of .transport "the session is closed")
  else do
    let bytes ← Session.onTransport (readExact kMessageHeaderSize)
    let header := Message.decode bytes
    if header.magic ≠ Message.computeMagic header.command then
      Session.framingError "the header magic does not match its command"
    else if header.dataLength > kMaxData then
      Session.framingError "the header payload length is past the maximum"
    else do
      Session.onTransport (allocate header.dataLength.toNat)
      Session.receivePayload header

/-! ### Without the meter -/

/-- A session without its meter. -/
def Shows (s : Session (Metered τ)) (s' : Session τ) : Prop := s' = ⟨s.transport.transport, s.closed⟩

theorem read_inStep (size : ℕ) : Prog.InStep (fun (m : Metered τ) t => m.transport = t)
    (Transport.read size) (Transport.read size) := by
  rintro m t rfl
  show Prog.EndsAlike _ ((read size).run m) _
  rw [run_read]
  cases hrun : (Transport.read size).run m.transport with
  | mk r t =>
    cases r with
    | ok bytes => exact .ok bytes rfl
    | error e => exact .error e rfl

theorem readExact_inStep (size : ℕ) : Prog.InStep (fun (m : Metered τ) t => m.transport = t)
    (readExact size) (readExact size) := by
  apply Prog.InStep.loop
  intro out
  apply Prog.InStep.ite Iff.rfl _ (Prog.InStep.pure _)
  apply Prog.InStep.bind (read_inStep _)
  intro bytes
  exact Prog.InStep.ite Iff.rfl (Prog.InStep.fail _) (Prog.InStep.pure _)

omit [Transport τ] in
theorem onTransport_inStep {α : Type} {p : Action (Metered τ) α} {q : Action τ α}
    (h : Prog.InStep (fun (m : Metered τ) t => m.transport = t) p q) :
    Prog.InStep Shows (Session.onTransport p) (Session.onTransport q) := by
  rintro s s' rfl
  have hp := h s.transport s.transport.transport rfl
  rw [Session.run_onTransport, Session.run_onTransport]
  dsimp only
  generalize p.run s.transport = r at hp ⊢
  generalize q.run s.transport.transport = r' at hp ⊢
  cases hp with
  | ok a hR => exact .ok a (by rw [Shows, hR])
  | error e hR => exact .error e (by rw [Shows, hR])

theorem framingError_inStep {α : Type} (message : String) :
    Prog.InStep Shows (Session.framingError message : Action (Session (Metered τ)) α)
      (Session.framingError message) := by
  refine Prog.InStep.bind (Prog.InStep.modify ?_) fun _ => Prog.InStep.fail _
  rintro s s' rfl
  unfold Session.close
  cases hclosed : s.closed with
  | true => simp [Shows, hclosed]
  | false => rfl

theorem receivePayload_inStep (header : Message) : Prog.InStep Shows
    (Session.receivePayload header : Action (Session (Metered τ)) Frame) (Session.receivePayload header) := by
  apply Prog.InStep.ite Iff.rfl (Prog.InStep.pure _)
  apply Prog.InStep.bind (onTransport_inStep (readExact_inStep _))
  intro payload
  exact Prog.InStep.ite Iff.rfl (framingError_inStep _) (Prog.InStep.pure _)

/-- Without its meter the metered receive is the receive of the session. -/
theorem receive_inStep : Prog.InStep Shows (receive (τ := τ)) Session.receive := by
  apply Prog.InStep.get_bind
  rintro s s' rfl
  apply Prog.InStep.ite Iff.rfl (Prog.InStep.fail _)
  apply Prog.InStep.bind (onTransport_inStep (readExact_inStep _))
  intro bytes
  apply Prog.InStep.ite Iff.rfl (framingError_inStep _)
  apply Prog.InStep.ite Iff.rfl (framingError_inStep _)
  rintro s s' rfl
  exact receivePayload_inStep _ _ _ rfl

/-! ### The requests of a receive -/

/-- The requests of an exact read are for its own bytes. -/
structure Asks (size : ℕ) (m : Metered τ) (r : Except Error (List Byte) × Metered τ) : Prop where
  requests : ∃ new, r.2.requests = m.requests ++ new ∧
    ∀ q ∈ new, ∃ offset n, q = .read offset n ∧ offset + n ≤ m.position + size
  position : ∀ bytes, r.1 = .ok bytes → r.2.position = m.position + size

/-- A turn that fails has asked for what was missing, and for nothing else. -/
theorem readExactTurn_error_requests {size : ℕ} {out : List Byte} {e : Error} {m m' : Metered τ}
    (h : (readExactTurn size out).run m = (.error e, m')) :
    m'.requests = m.requests ++ [.read m.position (size - out.length)] := by
  rw [readExactTurn] at h
  split at h
  swap
  · cases h
  have hrun : (Transport.read (size - out.length)).run m = _ := run_read (size - out.length) m
  rw [Prog.run_bind, hrun] at h
  cases hread : (Transport.read (size - out.length)).run m.transport with
  | mk r t =>
    rw [hread] at h
    cases r with
    | error e =>
      cases h
      rfl
    | ok bytes =>
      dsimp only at h
      split at h <;> cases h
      rfl

theorem readExactLoop_asks (size : ℕ) (out : List Byte) (m : Metered τ) : out.length ≤ size →
    Asks (size - out.length) m ((Prog.loop (readExactTurn_decreases size) out).run m) := by
  refine Prog.loop_induct (readExactTurn_decreases size)
    (P := fun out m r => out.length ≤ size → Asks (size - out.length) m r) ?_ ?_ ?_ out m
  · intro out out' m m' r hb ih hout
    obtain ⟨bytes, hread, -, hlt, rfl⟩ := readExactTurn_again hb
    have hle := Transport.read_length hread
    obtain ⟨t, -, rfl⟩ := read_ok hread
    rw [List.length_append] at ih
    obtain ⟨⟨new, hnew, hall⟩, hpos⟩ := ih (by omega)
    dsimp only at hall hpos
    refine ⟨⟨.read m.position (size - out.length) :: new, ?_, ?_⟩, fun bytes' hr => ?_⟩
    · rw [hnew, List.append_assoc]
      rfl
    · intro q hq
      rcases List.mem_cons.mp hq with rfl | hq
      · exact ⟨_, _, rfl, Nat.le_refl _⟩
      · obtain ⟨offset, n, rfl, hle'⟩ := hall q hq
        exact ⟨offset, n, rfl, by omega⟩
    · rw [hpos bytes' hr]
      omega
  · intro out a m m' hb hout
    obtain ⟨hge, rfl, rfl⟩ := readExactTurn_done hb
    refine ⟨⟨[], (List.append_nil _).symm, by simp⟩, fun _ _ => ?_⟩
    dsimp only
    omega
  · intro out e m m' hb hout
    have hone := readExactTurn_error_requests hb
    constructor
    · refine ⟨_, hone, ?_⟩
      intro q hq
      rw [List.mem_singleton.mp hq]
      exact ⟨_, _, rfl, Nat.le_refl _⟩
    · intro bytes' hr
      cases hr

theorem readExact_asks (size : ℕ) (m : Metered τ) : Asks size m ((readExact size).run m) :=
  readExactLoop_asks size [] m (Nat.zero_le _)

end Metered

end Adbcpp
