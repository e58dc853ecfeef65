import Adbcpp.Channel
import Adbcpp.Library.Spelling
import Adbcpp.Session.Metered
import Adbcpp.Session.Outbound

/-! The bytes under the messages. A wire is a transport that says which bytes have gone
over it, in either direction, whatever its calls and their failures were. What one
receive takes off a wire is a message, a part of one, or what it reports as a violation;
what one send puts on it is its message, or the beginning of it. -/

namespace Adbcpp

open Protocol

/-- A transport over which bytes go in order. A write that fails has delivered a prefix of its data. -/
class Wire (τ : Type) extends Transport τ where
  /-- Between two states these bytes have been read and these have been delivered. -/
  Moves : τ → List Byte → List Byte → τ → Prop
  moves_refl : ∀ t, Moves t [] [] t
  moves_trans : ∀ {t t' t'' a b c d}, Moves t a b t' → Moves t' c d t'' → Moves t (a ++ c) (b ++ d) t''
  read_moves : ∀ {size t bytes t'}, (read size).run t = (.ok bytes, t') → Moves t bytes [] t'
  read_fails : ∀ {size t e t'}, (read size).run t = (.error e, t') → Moves t [] [] t'
  write_moves : ∀ {data t t'}, (write data).run t = (.ok (), t') → Moves t [] data t'
  write_fails : ∀ {data t e t'}, (write data).run t = (.error e, t') → ∃ n, Moves t [] (data.take n) t'
  close_moves : ∀ t, Moves t [] [] (close t)

namespace ScriptedTransport

instance : Wire ScriptedTransport where
  Moves t a b t' := content t.arrivals = a ++ content t'.arrivals ∧ t'.delivered = t.delivered ++ b
  moves_refl t := ⟨rfl, (List.append_nil _).symm⟩
  moves_trans h h' := ⟨by rw [h.1, h'.1, List.append_assoc], by rw [h'.2, h.2, List.append_assoc]⟩
  read_moves h := by
    simp only [run_read, Prod.mk.injEq] at h
    obtain ⟨hbytes, rfl⟩ := h
    exact ⟨(takeArrival_ok hbytes).1, (List.append_nil _).symm⟩
  read_fails {size t e t'} h := by
    simp only [run_read, Prod.mk.injEq] at h
    obtain ⟨herror, rfl⟩ := h
    refine ⟨?_, (List.append_nil _).symm⟩
    match ht : t.arrivals with
    | [] => simp [ht, takeArrival] at herror
    | .ok piece :: rest => simp [ht, takeArrival] at herror
    | .error e :: rest => simp [takeArrival]
  write_moves {data t t'} h := by
    have harrivals := write_arrivals data t
    rcases Session.run_write_cases data t with ⟨u, hrun, hdelivered, -⟩ | ⟨u, n, e, rest, hrun, -⟩
    · rw [← run_write, hrun] at harrivals
      rw [hrun] at h
      cases h
      exact ⟨by rw [harrivals]; rfl, hdelivered⟩
    · rw [hrun] at h
      cases h
  write_fails {data t e t'} h := by
    have harrivals := write_arrivals data t
    rcases Session.run_write_cases data t with ⟨u, hrun, -⟩ | ⟨u, n, e, rest, hrun, -, hdelivered⟩
    · rw [hrun] at h
      cases h
    · rw [← run_write, hrun] at harrivals
      rw [hrun] at h
      cases h
      exact ⟨n, by rw [harrivals]; rfl, hdelivered⟩
  close_moves t := ⟨rfl, (List.append_nil _).symm⟩

end ScriptedTransport

/-! ### What a receive takes -/

/-- A part of a message that a receive was willing to read on with. -/
def Cut (bytes : List Byte) : Prop :=
  bytes.length < kMessageHeaderSize ∨ ∃ f : Frame, f.Sized ∧ f.header.Sound ∧ bytes <+: f.bytes ∧ bytes ≠ f.bytes

/-- The bytes of a framing error, with what is reported of it. -/
inductive Misframed : String → List Byte → Prop
  | magic {header : Message} (h : header.magic ≠ Message.computeMagic header.command) :
    Misframed "the header magic does not match its command" header.encode
  | length {header : Message} (magic : header.magic = Message.computeMagic header.command)
    (h : header.dataLength > kMaxData) : Misframed "the header payload length is past the maximum" header.encode
  | checksum {f : Frame} (sized : f.Sized) (sound : f.header.Sound) (nonempty : f.payload ≠ [])
    (h : f.header.dataCheck ≠ 0) (h' : f.header.dataCheck ≠ Message.computeChecksum f.payload) :
    Misframed "the header payload checksum does not match the payload" f.bytes

/-- What one receive meets, as bytes. -/
inductive Arrival.Spelled : Arrival → List Byte → Prop
  | frame {f : Frame} (sized : f.Sized) (valid : f.Valid) : Spelled (.frame f) f.bytes
  | fault {e : Error} {bytes : List Byte} (cut : Cut bytes) : Spelled (.fault e) bytes
  | violation {message : String} {bytes : List Byte} (h : Misframed message bytes) : Spelled (.violation message) bytes

namespace Arrival

/-- What the receive that meets it returns. -/
def result : Arrival → Except Error Frame
  | .frame f => .ok f
  | .fault e => .error e
  | .violation message => .error (.of .protocol message)

def closes : Arrival → Bool
  | .violation _ => true
  | _ => false

/-- What goes on the record of it. -/
def events : Arrival → List Event
  | .frame f => [.received f]
  | _ => []

end Arrival

section Receiving

variable {τ : Type} [Wire τ]

private theorem readExactLoop_moves (size : ℕ) (out : List Byte) (t : τ) : ∃ more,
    Wire.Moves t more [] ((Prog.loop (readExactTurn_decreases size) out).run t).2 ∧
    (∀ bytes, ((Prog.loop (readExactTurn_decreases size) out).run t).1 = .ok bytes → bytes = out ++ more) ∧
    ∀ e, ((Prog.loop (readExactTurn_decreases size) out).run t).1 = .error e → (out ++ more).length < size := by
  refine Prog.loop_induct (readExactTurn_decreases size) (P := fun out t r => ∃ more, Wire.Moves t more [] r.2 ∧
    (∀ bytes, r.1 = .ok bytes → bytes = out ++ more) ∧ ∀ e, r.1 = .error e → (out ++ more).length < size)
    ?_ ?_ ?_ out t
  · intro out out' t t' r hturn ih
    obtain ⟨piece, hread, -, -, rfl⟩ := readExactTurn_again hturn
    obtain ⟨more, hmoves, hok, herror⟩ := ih
    rw [List.append_assoc] at herror
    refine ⟨piece ++ more, Wire.moves_trans (Wire.read_moves hread) hmoves, fun bytes h => ?_, herror⟩
    rw [hok bytes h, List.append_assoc]
  · intro out bytes t t' hturn
    obtain ⟨-, rfl, rfl⟩ := readExactTurn_done hturn
    exact ⟨[], Wire.moves_refl t', fun _ h => by cases h; rw [List.append_nil], fun _ h => nomatch h⟩
  · intro out e t t' hturn
    unfold readExactTurn at hturn
    split at hturn
    swap
    · cases hturn
    next hlt =>
      refine ⟨[], ?_, fun _ h => (nomatch h), fun _ _ => by rwa [List.append_nil]⟩
      rcases Prog.bind_eq_error hturn with hread | ⟨bytes, u, hread, hrest⟩
      · exact Wire.read_fails hread
      · split at hrest
        · cases hrest
          next hnil =>
          rw [List.length_eq_zero_iff] at hnil
          exact hnil ▸ Wire.read_moves hread
        · cases hrest

/-- An exact read takes what it hands out. -/
theorem readExact_moves {size : ℕ} {bytes : List Byte} {t t' : τ} (h : (readExact size).run t = (.ok bytes, t')) :
    Wire.Moves t bytes [] t' := by
  obtain ⟨more, hmoves, hok, -⟩ := readExactLoop_moves size [] t
  rw [readExact] at h
  rw [h] at hmoves hok
  rw [hok bytes rfl]
  exact hmoves

/-- An exact read that fails has taken less than it was to hand out. -/
theorem readExact_fails {size : ℕ} {e : Error} {t t' : τ} (h : (readExact size).run t = (.error e, t')) :
    ∃ bytes, bytes.length < size ∧ Wire.Moves t bytes [] t' := by
  obtain ⟨more, hmoves, -, herror⟩ := readExactLoop_moves size [] t
  rw [readExact] at h
  rw [h] at hmoves herror
  exact ⟨more, herror e rfl, hmoves⟩

namespace Session

/-- A payload that is cut short has its header before it. -/
theorem Cut.payload {header : Message} (hsound : header.Sound) {bytes : List Byte}
    (h : bytes.length < header.dataLength.toNat) : Cut (header.encode ++ bytes) := by
  let f : Frame := ⟨header, bytes ++ List.replicate (header.dataLength.toNat - bytes.length) 0⟩
  have hlength : f.payload.length = header.dataLength.toNat := by
    simp only [f, List.length_append, List.length_replicate]
    omega
  refine .inr ⟨f, hlength.symm, hsound, ⟨_, List.append_assoc _ _ _⟩, fun heq => ?_⟩
  have hpayload : bytes = f.payload := List.append_cancel_left heq
  rw [← hlength, ← hpayload] at h
  exact absurd h (Nat.lt_irrefl _)

/-- A receive that ends so has made an arrival of what it took and of what had been taken before. -/
def Takes (s : Session τ) (before : List Byte) (r : Except Error Frame × Session τ) : Prop :=
  ∃ (arrival : Arrival) (bytes : List Byte), arrival.Spelled (before ++ bytes) ∧
    Wire.Moves s.transport bytes [] r.2.transport ∧ r.1 = arrival.result ∧ r.2.closed = arrival.closes

/-- A receive goes on from what an exact read has taken. -/
theorem Takes.after {s : Session τ} {before bytes : List Byte} {t : τ} {r : Except Error Frame × Session τ}
    (h : Takes { s with transport := t } (before ++ bytes) r) (hmoves : Wire.Moves s.transport bytes [] t) :
    Takes s before r := by
  obtain ⟨arrival, rest, hspelled, hrest, hresult, hcloses⟩ := h
  rw [List.append_assoc] at hspelled
  exact ⟨arrival, bytes ++ rest, hspelled, Wire.moves_trans hmoves hrest, hresult, hcloses⟩

/-- What has been taken is reported as a violation. -/
theorem Takes.framingError {s : Session τ} (hopen : s.closed = false) {message : String} {before : List Byte}
    (h : Misframed message before) :
    Takes s before ((Session.framingError message : Action (Session τ) Frame).run s) := by
  rw [run_framingError]
  have hspelled : (Arrival.violation message).Spelled (before ++ []) := by
    rw [List.append_nil]
    exact .violation h
  have hmoves : Wire.Moves s.transport [] [] s.close.transport := by
    rw [close, if_neg (by simp [hopen])]
    exact Wire.close_moves s.transport
  exact ⟨.violation message, [], hspelled, hmoves, rfl, close_closed s⟩

/-- An exact read that fails ends the receive inside its message. -/
theorem Takes.readExact {s : Session τ} (hopen : s.closed = false) {size : ℕ} {before : List Byte}
    {f : List Byte → Action (Session τ) Frame}
    (hcut : ∀ bytes : List Byte, bytes.length < size → Cut (before ++ bytes))
    (hrest : ∀ bytes (u : Session τ), u.closed = false →
      (Adbcpp.readExact size).run s.transport = (.ok bytes, u.transport) → Takes u (before ++ bytes) ((f bytes).run u)) :
    Takes s before ((onTransport (Adbcpp.readExact size) >>= f).run s) := by
  match hread : (Adbcpp.readExact size).run s.transport with
  | (.error e, t) =>
    have hrun : (onTransport (Adbcpp.readExact size)).run s = (.error e, { s with transport := t }) := by
      rw [run_onTransport, hread]
    obtain ⟨bytes, hshort, hmoves⟩ := readExact_fails hread
    rw [Prog.run_bind_error hrun]
    exact ⟨.fault e, bytes, .fault (hcut bytes hshort), hmoves, rfl, hopen⟩
  | (.ok bytes, t) =>
    have hrun : (onTransport (Adbcpp.readExact size)).run s = (.ok bytes, { s with transport := t }) := by
      rw [run_onTransport, hread]
    rw [Prog.run_bind_ok hrun]
    exact (hrest bytes { s with transport := t } hopen hread).after (readExact_moves hread)

/-- A message that has been read and is sound is a frame. -/
theorem Takes.frame {s : Session τ} (hopen : s.closed = false) {f : Frame} (hsized : f.Sized) (hvalid : f.Valid) :
    Takes s f.bytes (.ok f, s) := by
  have hspelled : (Arrival.frame f).Spelled (f.bytes ++ []) := by
    rw [List.append_nil]
    exact .frame hsized hvalid
  exact ⟨.frame f, [], hspelled, Wire.moves_refl _, rfl, hopen⟩

/-- What comes behind a sound header makes an arrival of it. -/
theorem receivePayload_takes {header : Message} (hsound : header.Sound) {s : Session τ} (hopen : s.closed = false) :
    Takes s header.encode ((receivePayload header).run s) := by
  rw [receivePayload]
  split
  next hzero =>
    have hframe := Takes.frame hopen (f := ⟨header, []⟩) hzero ⟨hsound.1, hsound.2, .inl rfl⟩
    rw [Frame.bytes, Message.frameBytes, List.append_nil] at hframe
    exact hframe
  next hne =>
    refine Takes.readExact hopen (fun bytes => Cut.payload hsound) fun payload u hopen hread => ?_
    have hsized : Frame.Sized ⟨header, payload⟩ := (readExact_ok hread).1.symm
    rw [Prog.run_ite]
    split
    next hbad =>
      have hnonempty : payload ≠ [] := by
        intro hnil
        rw [hnil] at hsized
        exact hne hsized
      have hmisframed := Misframed.checksum hsized hsound hnonempty hbad.1 hbad.2
      exact Takes.framingError hopen hmisframed
    next hgood =>
      have hcheck : header.dataCheck = 0 ∨ header.dataCheck = Message.computeChecksum payload := by
        by_contra hneither
        exact hgood (not_or.mp hneither)
      have hvalid : Frame.Valid ⟨header, payload⟩ := ⟨hsound.1, hsound.2, .inr hcheck⟩
      have hframe := Takes.frame hopen hsized hvalid
      rw [Frame.bytes, Message.frameBytes] at hframe
      exact hframe

/-- What a receive of an open session takes off the wire is an arrival, and that is what it reports. -/
theorem receive_takes {s : Session τ} (hopen : s.closed = false) : Takes s [] (receive.run s) := by
  rw [receive, Prog.run_bind_get, if_neg (by simp [hopen])]
  refine Takes.readExact hopen (fun bytes => Or.inl) fun bytes u hopen hread => ?_
  obtain ⟨header, rfl⟩ := Message.exists_encode (readExact_ok hread).1
  rw [Message.decode_encode]
  by_cases hmagic : header.magic = Message.computeMagic header.command
  swap
  · rw [if_pos hmagic]
    exact Takes.framingError hopen (.magic hmagic)
  by_cases hlength : header.dataLength > kMaxData
  · rw [if_neg (not_not.mpr hmagic), if_pos hlength]
    exact Takes.framingError hopen (.length hmagic hlength)
  rw [if_neg (not_not.mpr hmagic), if_neg hlength]
  exact receivePayload_takes ⟨hmagic, UInt32.not_lt.mp hlength⟩ hopen

end Session

end Receiving

/-! ### What a send puts on -/

/-- What an event has put on the wire. -/
inductive Event.Spelled : Event → List Byte → Prop
  | received {f : Frame} : Spelled (.received f) []
  | sent {f : Frame} (sized : f.Sized) : Spelled (.sent f) f.bytes
  | unsent {f : Frame} {bytes : List Byte} (sized : f.Sized) (h : bytes <+: f.bytes) : Spelled (.unsent f) bytes

end Adbcpp
