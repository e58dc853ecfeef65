import Adbcpp.Session
import Mathlib.Data.List.Induction
import Mathlib.Data.List.Sublists

/-! Outbound synchronisation. A send is torn when its transport fails after a part
of the message has gone out. The peer's bytes stay a prefix of whole messages as
long as every send after a torn one finds the session closed. Nothing in a send
closes the session, so the next sender is free to write into the middle of the
torn message. -/

namespace Adbcpp

open Protocol ScriptedTransport

namespace Session

/-- With these outcomes a send of a message with this payload delivers a part of it and not the rest. -/
def TornBy (payload : List Byte) : List WriteOutcome → Prop
  | .failed n _ :: _ => 0 < n ∧ (n < kMessageHeaderSize ∨ payload ≠ [])
  | .accepted :: .failed n _ :: _ => payload ≠ [] ∧ n < payload.length
  | _ => False

/-- A send that goes through to the transport. -/
def Attempts (s : Session ScriptedTransport) (header : Message) (payload : List Byte) : Prop :=
  s.closed = false ∧ header.dataLength.toNat = payload.length

/-- The call is a send that tears its message. -/
def Op.Torn (s : Session ScriptedTransport) : Op → Prop
  | .send header payload => s.Attempts header payload ∧ TornBy payload s.transport.outcomes
  | _ => False

/-- Every send after a torn one finds the session closed. -/
def ClosedAfterTorn (s : Session ScriptedTransport) (ops : List Op) : Prop :=
  ∀ pre (op : Op) mid header payload post, ops = pre ++ op :: mid ++ .send header payload :: post →
    op.Torn (s.after pre) → (s.after (pre ++ op :: mid)).closed = true

/-- The messages of the sends of a run. -/
def messages (ops : List Op) : List Frame :=
  ops.filterMap fun
    | .send header payload => some ⟨header, payload⟩
    | _ => none

/-- The peer has received a prefix of some of the run's messages, in order. -/
def OutboundInSync (s : Session ScriptedTransport) (ops : List Op) : Prop :=
  ∃ sent : List Frame, sent.Sublist (messages ops) ∧
    (s.after ops).transport.delivered <+: sent.flatMap Frame.bytes

/-- No call after a torn send delivers anything more. -/
def NothingAfterTorn (s : Session ScriptedTransport) (ops : List Op) : Prop :=
  ∀ pre (op : Op) post, ops = pre ++ op :: post → op.Torn (s.after pre) →
    (s.after ops).transport.delivered = (op.next (s.after pre)).transport.delivered

/-- A call that delivers nothing. -/
def SameDelivered (t t' : ScriptedTransport) : Prop := t'.delivered = t.delivered

instance : Std.Refl SameDelivered := ⟨fun _ => rfl⟩

instance : IsTrans ScriptedTransport SameDelivered := ⟨fun _ _ _ h h' => h'.trans h⟩

/-! ### One send -/

/-- How one write ends on a scripted transport. -/
theorem run_write_cases (data : List Byte) (t : ScriptedTransport) :
    (∃ t', (Transport.write data).run t = (.ok (), t') ∧ t'.delivered = t.delivered ++ data ∧
      t'.outcomes = t.outcomes.tail ∧ ∀ n e rest, t.outcomes ≠ .failed n e :: rest) ∨
    (∃ t' n e rest, (Transport.write data).run t = (.error e, t') ∧
      t.outcomes = .failed n e :: rest ∧ t'.delivered = t.delivered ++ data.take n) := by
  rw [run_write]
  unfold Prog.run write
  match h : t.outcomes with
  | [] => simp
  | .accepted :: rest => simp
  | .failed n e :: rest => simp

/-- A send that does not reach the transport changes nothing. -/
theorem send_of_not_attempts {s : Session ScriptedTransport} {header : Message}
    {payload : List Byte} (h : ¬ s.Attempts header payload) :
    ((send header payload).run s).2 = s := by
  rw [send, Prog.run_bind_get]
  by_cases hclosed : s.closed = true
  · rw [if_pos hclosed]
    rfl
  · have hlen : header.dataLength.toNat ≠ payload.length :=
      fun hlen => h ⟨by simpa using hclosed, hlen⟩
    rw [if_neg hclosed, if_pos hlen]
    rfl

/-- A payload whose write failed was taken whole, unless its message is torn. -/
theorem length_le_of_not_tornBy {payload : List Byte} {outcomes rest : List WriteOutcome} {n : ℕ} {e : Error}
    (hp : payload ≠ []) (hheader : ∀ n e rest, outcomes ≠ .failed n e :: rest)
    (hout : outcomes.tail = .failed n e :: rest) (htorn : ¬ TornBy payload outcomes) : payload.length ≤ n := by
  cases outcomes with
  | nil => cases hout
  | cons a as =>
    rw [List.tail_cons] at hout
    cases a with
    | failed m e' => exact absurd rfl (hheader _ _ _)
    | accepted =>
      rw [hout] at htorn
      exact Nat.le_of_not_lt fun hlt => htorn ⟨hp, hlt⟩

/-- A send that reaches the transport delivers its whole message or nothing, unless it is
torn; a torn one delivers a prefix of its message. -/
theorem send_delivered {s : Session ScriptedTransport} {header : Message} {payload : List Byte}
    (h : s.Attempts header payload) :
    ∃ n, ((send header payload).run s).2.transport.delivered =
        s.transport.delivered ++ (header.frameBytes payload).take n ∧
      (¬ TornBy payload s.transport.outcomes →
        n = 0 ∨ (header.frameBytes payload).length ≤ n) := by
  obtain ⟨hopen, hlen⟩ := h
  have hhdr : header.encode.length = kMessageHeaderSize := rfl
  rw [send, Prog.run_bind_get, if_neg (by simp [hopen]), if_neg (not_not.mpr hlen),
    Message.length_frameBytes, Message.frameBytes]
  rcases run_write_cases header.encode s.transport with
    ⟨t, hrun, hdel, hout, hok⟩ | ⟨t, n, e, rest, hrun, hout, hdel⟩
  · have hheader : (onTransport (Transport.write header.encode)).run s =
        (.ok (), { s with transport := t }) := by
      rw [run_onTransport, hrun]
    rw [Prog.run_bind_ok hheader]
    by_cases hp : payload = []
    · refine ⟨header.encode.length, ?_, fun _ => .inr (by simp [hp])⟩
      rw [if_neg (by simp [hp]), hp, List.append_nil, List.take_length]
      exact hdel
    rw [if_pos hp, run_onTransport]
    rcases run_write_cases payload t with
      ⟨u, hrun, hdel', -⟩ | ⟨u, n, e, rest, hrun, hout', hdel'⟩
    · refine ⟨(header.encode ++ payload).length, ?_, fun _ => .inr (by simp)⟩
      simp only [hrun, hdel', hdel, List.take_length, List.append_assoc]
    · refine ⟨header.encode.length + n, ?_, fun htorn => ?_⟩
      · simp only [hrun, hdel', hdel, List.take_length_add_append, List.append_assoc]
      · have hle := length_le_of_not_tornBy hp hok (hout ▸ hout') htorn
        right
        omega
  · have hheader : (onTransport (Transport.write header.encode)).run s =
        (.error e, { s with transport := t }) := by
      rw [run_onTransport, hrun]
    rw [Prog.run_bind_error hheader, hout]
    refine ⟨min n kMessageHeaderSize, ?_, fun htorn => ?_⟩
    · rw [← hhdr, List.take_append_of_le_length (Nat.min_le_right _ _), ← List.take_take,
        List.take_length]
      exact hdel
    · simp only [TornBy, not_and, not_or, Nat.not_lt] at htorn
      by_cases hn : n = 0
      · exact .inl (by omega)
      · obtain ⟨hle, hp⟩ := htorn (by omega)
        rw [not_not.mp hp, List.length_nil]
        right
        omega

/-- Every call except a send that reaches the transport delivers nothing. -/
theorem next_delivered {s : Session ScriptedTransport} {op : Op}
    (h : ∀ header payload, op = .send header payload → ¬ s.Attempts header payload) :
    (op.next s).transport.delivered = s.transport.delivered := by
  cases op with
  | send header payload => rw [Op.next, send_of_not_attempts (h header payload rfl)]
  | receive => exact receive_along (R := SameDelivered) (fun _ _ => rfl) (fun _ => rfl) s
  | close => exact close_along (R := SameDelivered) (fun _ => rfl) s

/-! ### Whole runs -/

/-- Some send of the run is torn. -/
def HasTorn (s : Session ScriptedTransport) (ops : List Op) : Prop :=
  ∃ pre op post, ops = pre ++ op :: post ∧ op.Torn (s.after pre)

theorem HasTorn.snoc {s : Session ScriptedTransport} {ops : List Op} (h : HasTorn s ops) (op : Op) :
    HasTorn s (ops ++ [op]) := by
  obtain ⟨pre, op', post, rfl, htorn⟩ := h
  exact ⟨pre, op', post ++ [op], by simp, htorn⟩

theorem ClosedAfterTorn.init {s : Session ScriptedTransport} {ops ops' : List Op}
    (h : ClosedAfterTorn s (ops ++ ops')) : ClosedAfterTorn s ops := by
  rintro pre op mid header payload post rfl
  exact h pre op mid header payload (post ++ ops') (by simp)

/-- A send that comes after a torn one does not reach the transport. -/
theorem ClosedAfterTorn.not_attempts {s : Session ScriptedTransport} {ops : List Op}
    {header : Message} {payload : List Byte}
    (h : ClosedAfterTorn s (ops ++ [.send header payload])) (htorn : HasTorn s ops) :
    ¬ (s.after ops).Attempts header payload := by
  obtain ⟨pre, op, post, rfl, ht⟩ := htorn
  have hclosed := h pre op post header payload [] (by simp) ht
  rintro ⟨hopen, -⟩
  rw [hclosed] at hopen
  cases hopen

/-- The messages that have gone out whole, and at most a prefix of one more after them. -/
theorem delivered_prefix {s : Session ScriptedTransport} (hfresh : s.transport.delivered = [])
    (ops : List Op) (h : ClosedAfterTorn s ops) :
    ∃ sent : List Frame, sent.Sublist (messages ops) ∧
      (s.after ops).transport.delivered <+: sent.flatMap Frame.bytes ∧
      (¬ HasTorn s ops → (s.after ops).transport.delivered = sent.flatMap Frame.bytes) := by
  induction ops using List.reverseRecOn with
  | nil => exact ⟨[], List.Sublist.refl _, by simp [hfresh], fun _ => by simp [hfresh]⟩
  | append_singleton ops op ih =>
    obtain ⟨sent, hsub, hpre, hall⟩ := ih h.init
    have hmsgs : messages (ops ++ [op]) = messages ops ++ messages [op] := List.filterMap_append
    have hstep : s.after (ops ++ [op]) = op.next (s.after ops) := by rw [after_append]; rfl
    by_cases hatt : ∃ header payload, op = .send header payload ∧
        (s.after ops).Attempts header payload
    · obtain ⟨header, payload, rfl, hatt⟩ := hatt
      have hnone : ¬ HasTorn s ops := fun ht => h.not_attempts ht hatt
      obtain ⟨n, hdel, hwhole⟩ := send_delivered hatt
      have hcons : messages [.send header payload] = [⟨header, payload⟩] := rfl
      rw [hstep, hmsgs, hcons]
      simp only [Op.next, hdel, hall hnone]
      by_cases htorn : TornBy payload (s.after ops).transport.outcomes
      · refine ⟨sent ++ [⟨header, payload⟩], hsub.append (.refl _), ?_, fun hno => ?_⟩
        · rw [List.flatMap_append, List.prefix_append_right_inj]
          simpa [Frame.bytes] using List.take_prefix n _
        · exact absurd ⟨ops, _, [], rfl, hatt, htorn⟩ hno
      · rcases hwhole htorn with rfl | hn
        · refine ⟨sent, hsub.trans (List.sublist_append_left _ _), ?_, fun _ => ?_⟩ <;> simp
        · refine ⟨sent ++ [⟨header, payload⟩], hsub.append (.refl _), ?_, fun _ => ?_⟩ <;>
            simp [List.take_of_length_le hn, Frame.bytes]
    · have hsame : (op.next (s.after ops)).transport.delivered =
          (s.after ops).transport.delivered :=
        next_delivered fun header payload hop hatt' => hatt ⟨header, payload, hop, hatt'⟩
      rw [hstep, hsame, hmsgs]
      exact ⟨sent, hsub.trans (List.sublist_append_left _ _), hpre,
        fun hno => hall fun ht => hno (ht.snoc op)⟩

theorem nothingAfterTorn {s : Session ScriptedTransport} (ops : List Op)
    (h : ClosedAfterTorn s ops) : NothingAfterTorn s ops := by
  rintro pre op post rfl htorn
  induction post using List.reverseRecOn with
  | nil => rw [after_append]; rfl
  | append_singleton post op' ih =>
    have hassoc : pre ++ op :: (post ++ [op']) = (pre ++ op :: post) ++ [op'] := by simp
    rw [hassoc] at h ⊢
    rw [after_append, after_cons, after_nil, ← ih h.init]
    apply next_delivered
    rintro header payload rfl
    exact h.not_attempts ⟨pre, op, post, rfl, htorn⟩

/-- As long as every send after a torn one finds the session closed, the peer has received
a prefix of whole messages, and nothing more once a message is torn. -/
theorem outboundInSync_of_closedAfterTorn (s : Session ScriptedTransport)
    (hfresh : s.transport.delivered = []) (ops : List Op) (h : ClosedAfterTorn s ops) :
    OutboundInSync s ops ∧ NothingAfterTorn s ops := by
  obtain ⟨sent, hsub, hpre, -⟩ := delivered_prefix hfresh ops h
  exact ⟨⟨sent, hsub, hpre⟩, nothingAfterTorn ops h⟩

/-! ### A write that fails between a header and its payload -/

/-- The message of a `Stream::write` of one byte. -/
def oneByteWrite : Frame where
  header := { command := kWrte, arg0 := 2, arg1 := 7, dataLength := 1,
              dataCheck := Message.computeChecksum [65], magic := Message.computeMagic kWrte }
  payload := [65]

/-- The CLSE that the stream's destructor sends. -/
def closeMessage : Message :=
  { command := kClse, arg0 := 2, arg1 := 7, magic := Message.computeMagic kClse }

/-- The header of the first message goes out and its payload does not. -/
def losesPayload : Session ScriptedTransport where
  transport := { arrivals := [], outcomes := [.accepted, .failed 0 (.of .transport "timed out")] }

def writeThenDestroy : List Op :=
  [.send oneByteWrite.header oneByteWrite.payload, .send closeMessage []]

theorem outboundInSync_closed_between : OutboundInSync losesPayload
      [.send oneByteWrite.header oneByteWrite.payload, .close, .send closeMessage []] ∧
    NothingAfterTorn losesPayload
      [.send oneByteWrite.header oneByteWrite.payload, .close, .send closeMessage []] := by
  apply outboundInSync_of_closedAfterTorn losesPayload rfl
  rintro pre op mid header payload post h htorn
  match pre, mid with
  | [], [] => simp at h
  | [], [_] =>
    obtain ⟨rfl, rfl, -⟩ := by simpa using h
    rfl
  | [], _ :: _ :: _ => simp at h
  | [_], _ =>
    obtain ⟨-, rfl, -⟩ := by simpa using h
    exact htorn.elim
  | _ :: _ :: _, _ =>
    have hlen := congrArg List.length h
    simp only [List.length_cons, List.length_append, List.length_nil] at hlen
    omega

/-- The destructor's CLSE goes out where the peer is waiting for the payload. -/
theorem not_outboundInSync_writeThenDestroy :
    losesPayload.transport.delivered = [] ∧ ¬ OutboundInSync losesPayload writeThenDestroy := by
  refine ⟨rfl, ?_⟩
  rintro ⟨sent, hsub, hpre⟩
  have hdel : (losesPayload.after writeThenDestroy).transport.delivered =
      oneByteWrite.header.encode ++ closeMessage.encode := rfl
  have hmsgs : messages writeThenDestroy = [oneByteWrite, ⟨closeMessage, []⟩] := rfl
  rw [hdel] at hpre
  rw [hmsgs, ← List.mem_sublists'] at hsub
  have hnone : ∀ sent ∈ List.sublists' [oneByteWrite, ⟨closeMessage, []⟩],
      ¬ oneByteWrite.header.encode ++ closeMessage.encode <+: sent.flatMap Frame.bytes := by
    decide
  exact hnone sent hsub hpre

end Session

end Adbcpp
