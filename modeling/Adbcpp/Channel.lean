import Adbcpp.Session

/-! What a connection asks of the session below it: whole messages out and in. A
session over any transport is a channel. A dialogue is a channel that is given
message by message: its inbox says what the coming receives meet, its outcomes how
far the coming writes get, and its trace records the messages in the order in
which they went by. -/

namespace Adbcpp

open Protocol

class Channel (σ : Type) where
  send : Message → List Byte → Action σ Unit
  receive : Action σ Frame
  /-- Bounds what can still be received, so that a loop over receives ends. -/
  pending : σ → ℕ
  send_pending : ∀ header payload s, pending ((send header payload).run s).2 ≤ pending s
  receive_pending : ∀ {s f s'}, receive.run s = (.ok f, s') →
    pending s' + f.payload.length < pending s

namespace Session

variable {τ : Type} [Transport τ]

/-- A frame that was received has taken its header and its payload from the transport. -/
theorem receive_remaining {s s' : Session τ} {f : Frame} (h : receive.run s = (.ok f, s')) :
    Transport.remaining s'.transport + f.bytes.length ≤ Transport.remaining s.transport := by
  rw [receive, Prog.run_bind_get] at h
  split at h
  · cases h
  obtain ⟨bytes, r, hread, h⟩ := Prog.bind_eq_ok h
  obtain ⟨t, ht, rfl⟩ := Prog.zoom_eq_ok hread
  obtain ⟨-, hheader⟩ := readExact_ok ht
  dsimp only at h
  split at h
  · cases h
  split at h
  · cases h
  rw [receivePayload] at h
  split at h
  · cases h
    simpa [Frame.bytes] using hheader
  obtain ⟨payload, r, hread, h⟩ := Prog.bind_eq_ok h
  obtain ⟨u, hu, rfl⟩ := Prog.zoom_eq_ok hread
  obtain ⟨hlen, hpayload⟩ := readExact_ok hu
  split at h
  · cases h
  cases h
  simp only [Frame.bytes, Message.length_frameBytes]
  dsimp only at hpayload
  omega

instance : Channel (Session τ) where
  send := send
  receive := receive
  pending s := Transport.remaining s.transport
  send_pending header payload s := (send_keeps
    (R := fun t t' => Transport.remaining t' ≤ Transport.remaining t)
    (fun data t => Transport.write_remaining data t) header payload s).1
  receive_pending h := by
    have hle := receive_remaining h
    simp only [Frame.bytes, Message.length_frameBytes, kMessageHeaderSize] at hle
    omega

end Session

/-! ### Message by message -/

/-- What one receive meets: a frame, a failure that leaves the session open, or a framing
error, which closes it. -/
inductive Arrival
  | frame (f : Frame)
  | fault (error : Error)
  | violation (message : String)
  deriving DecidableEq, Repr

/-- A message that went by. A send that fails on the transport is recorded too. -/
inductive Event
  | received (f : Frame)
  | sent (f : Frame)
  | unsent (f : Frame)
  deriving DecidableEq, Repr

/-- The messages that were attempted, sent or not. -/
def attempts (trace : List Event) : List Frame :=
  trace.filterMap fun
    | .sent f => some f
    | .unsent f => some f
    | .received _ => none

/-- The frames that were consumed. -/
def replies (trace : List Event) : List Frame :=
  trace.filterMap fun
    | .received f => some f
    | _ => none

@[simp] theorem attempts_nil : attempts [] = [] := rfl

@[simp] theorem attempts_sent (f : Frame) (es : List Event) : attempts (.sent f :: es) = f :: attempts es := rfl

@[simp] theorem attempts_unsent (f : Frame) (es : List Event) : attempts (.unsent f :: es) = f :: attempts es := rfl

@[simp] theorem attempts_received (f : Frame) (es : List Event) : attempts (.received f :: es) = attempts es := rfl

@[simp] theorem attempts_append (a b : List Event) : attempts (a ++ b) = attempts a ++ attempts b :=
  List.filterMap_append

@[simp] theorem replies_nil : replies [] = [] := rfl

@[simp] theorem replies_sent (f : Frame) (es : List Event) : replies (.sent f :: es) = replies es := rfl

@[simp] theorem replies_unsent (f : Frame) (es : List Event) : replies (.unsent f :: es) = replies es := rfl

@[simp] theorem replies_received (f : Frame) (es : List Event) : replies (.received f :: es) = f :: replies es := rfl

@[simp] theorem replies_append (a b : List Event) : replies (a ++ b) = replies a ++ replies b :=
  List.filterMap_append

theorem attempts_map_received (fs : List Frame) : attempts (fs.map .received) = [] := by
  induction fs with
  | nil => rfl
  | cons f fs ih => exact ih

theorem replies_map_received (fs : List Frame) : replies (fs.map .received) = fs := by
  induction fs with
  | nil => rfl
  | cons f fs ih => exact congrArg (f :: ·) ih

theorem replies_cons (e : Event) (es : List Event) : replies (e :: es) = replies [e] ++ replies es :=
  replies_append [e] es

theorem attempts_cons (e : Event) (es : List Event) : attempts (e :: es) = attempts [e] ++ attempts es :=
  attempts_append [e] es

structure Dialogue where
  inbox : List Arrival
  /-- How the coming writes end; after the last entry every write is accepted. -/
  outcomes : List WriteOutcome := []
  closed : Bool := false
  trace : List Event := []

namespace Dialogue

def record (event : Event) (d : Dialogue) : Dialogue := { d with trace := d.trace ++ [event] }

/-- One write of the session. -/
def write : Action Dialogue Unit := fun d =>
  match d.outcomes with
  | [] => (.ok (), d)
  | .accepted :: rest => (.ok (), { d with outcomes := rest })
  | .failed _ e :: rest => (.error e, { d with outcomes := rest })

/-- The header is one write, and a payload that is not empty is another. -/
def writeMessage (payload : List Byte) : Action Dialogue Unit := do
  write
  if payload ≠ [] then
    write

def send (header : Message) (payload : List Byte) : Action Dialogue Unit := fun d =>
  if d.closed then
    (.error (.of .transport "the session is closed"), d)
  else if header.dataLength.toNat ≠ payload.length then
    (.error (.of .invalidArgument "the header data_length does not match the payload"), d)
  else
    match (writeMessage payload).run d with
    | (.ok (), d) => (.ok (), d.record (.sent ⟨header, payload⟩))
    | (.error e, d) => (.error e, d.record (.unsent ⟨header, payload⟩))

def receive : Action Dialogue Frame := fun d =>
  if d.closed then
    (.error (.of .transport "the session is closed"), d)
  else
    match d.inbox with
    | [] => (.error (.of .protocol "unexpected end of stream"), d)
    | .frame f :: rest => (.ok f, { d with inbox := rest }.record (.received f))
    | .fault e :: rest => (.error e, { d with inbox := rest })
    | .violation message :: rest =>
      (.error (.of .protocol message), { d with inbox := rest, closed := true })

theorem run_write (d : Dialogue) : write.run d = match d.outcomes with
    | [] => (.ok (), d)
    | .accepted :: rest => (.ok (), { d with outcomes := rest })
    | .failed _ e :: rest => (.error e, { d with outcomes := rest }) := rfl

theorem run_send (header : Message) (payload : List Byte) (d : Dialogue) :
    (send header payload).run d =
      if d.closed then
        (.error (.of .transport "the session is closed"), d)
      else if header.dataLength.toNat ≠ payload.length then
        (.error (.of .invalidArgument "the header data_length does not match the payload"), d)
      else match (writeMessage payload).run d with
        | (.ok (), d) => (.ok (), d.record (.sent ⟨header, payload⟩))
        | (.error e, d) => (.error e, d.record (.unsent ⟨header, payload⟩)) := rfl

/-- The frames of an inbox, each with one more for its header. -/
def weight : List Arrival → ℕ
  | [] => 0
  | .frame f :: rest => f.payload.length + 1 + weight rest
  | _ :: rest => weight rest

/-- What a write leaves alone. -/
def SameInbox (d d' : Dialogue) : Prop :=
  d'.inbox = d.inbox ∧ d'.closed = d.closed ∧ d'.trace = d.trace

instance : Std.Refl SameInbox := ⟨fun _ => ⟨rfl, rfl, rfl⟩⟩

instance : IsTrans Dialogue SameInbox :=
  ⟨fun _ _ _ h h' => ⟨h'.1.trans h.1, h'.2.1.trans h.2.1, h'.2.2.trans h.2.2⟩⟩

theorem writeMessage_sameInbox (payload : List Byte) : Prog.Steps SameInbox (writeMessage payload) := by
  have hwrite : Prog.Steps SameInbox write := by
    intro d
    rw [run_write]
    split <;> exact ⟨rfl, rfl, rfl⟩
  exact Prog.Steps.bind hwrite fun _ => Prog.Steps.ite hwrite (Prog.Steps.pure _)

/-- What a send of `f` that ends with a result has put on the record. -/
inductive Attempt (f : Frame) : Except Error Unit → List Event → Prop
  | sent : Attempt f (.ok ()) [.sent f]
  | unsent (e : Error) : Attempt f (.error e) [.unsent f]
  | refused (e : Error) : Attempt f (.error e) []

theorem Attempt.replies {f : Frame} {r : Except Error Unit} {es : List Event}
    (h : Attempt f r es) : Adbcpp.replies es = [] := by
  cases h <;> rfl

theorem Attempt.attempts {f : Frame} {r : Except Error Unit} {es : List Event}
    (h : Attempt f r es) : ∀ g ∈ Adbcpp.attempts es, g = f := by
  cases h <;> simp

/-- A send records at most its own message, and leaves the inbox and the closing alone. -/
theorem send_attempt (header : Message) (payload : List Byte) (d : Dialogue) :
    ∃ r d' new, (send header payload).run d = (r, d') ∧ Attempt ⟨header, payload⟩ r new ∧
      d'.inbox = d.inbox ∧ d'.closed = d.closed ∧ d'.trace = d.trace ++ new := by
  have hsame := writeMessage_sameInbox payload d
  rw [run_send]
  split
  · exact ⟨_, _, [], rfl, .refused _, rfl, rfl, (List.append_nil _).symm⟩
  split
  · exact ⟨_, _, [], rfl, .refused _, rfl, rfl, (List.append_nil _).symm⟩
  split
  next d' hrun =>
    rw [hrun] at hsame
    exact ⟨_, _, _, rfl, .sent, hsame.1, hsame.2.1, by rw [record, hsame.2.2]⟩
  next e d' hrun =>
    rw [hrun] at hsame
    exact ⟨_, _, _, rfl, .unsent e, hsame.1, hsame.2.1, by rw [record, hsame.2.2]⟩

theorem send_inbox (header : Message) (payload : List Byte) (d : Dialogue) :
    ((send header payload).run d).2.inbox = d.inbox := by
  obtain ⟨r, d', new, hrun, -, hinbox, -⟩ := send_attempt header payload d
  rw [hrun, hinbox]

instance : Channel Dialogue where
  send := send
  receive := receive
  pending d := weight d.inbox
  send_pending header payload d := Nat.le_of_eq (by rw [send_inbox])
  receive_pending {d f d'} h := by
    simp only [receive, Prog.run] at h
    split at h
    · cases h
    split at h <;> cases h
    next rest hd => simp only [hd, record, weight]; omega

@[simp] theorem run_channel_send (header : Message) (payload : List Byte) (d : Dialogue) :
    (Channel.send header payload : Action Dialogue Unit).run d = (send header payload).run d := rfl

@[simp] theorem run_channel_receive (d : Dialogue) :
    (Channel.receive : Action Dialogue Frame).run d = receive.run d := rfl

/-! ### Sends that succeed -/

/-- The session is open, and `k` of the coming writes are accepted besides one for each arrival. -/
def Accepts (k : ℕ) (d : Dialogue) : Prop :=
  d.closed = false ∧ ∀ o ∈ d.outcomes.take (k + d.inbox.length), o = .accepted

theorem Accepts.mono {j k : ℕ} {d : Dialogue} (h : d.Accepts k) (hle : j ≤ k) : d.Accepts j := by
  refine ⟨h.1, fun o ho => h.2 o ?_⟩
  exact (List.take_prefix_take_left (by omega)).subset ho

theorem accepts_of_all {d : Dialogue} (hopen : d.closed = false) (h : ∀ o ∈ d.outcomes, o = .accepted)
    (k : ℕ) : d.Accepts k :=
  ⟨hopen, fun o ho => h o (List.mem_of_mem_take ho)⟩

theorem write_accepts {k : ℕ} {d : Dialogue} (h : d.Accepts (k + 1)) :
    ∃ d', write.run d = (.ok (), d') ∧ d'.Accepts k ∧ d'.outcomes <:+ d.outcomes := by
  have hk := h.mono (Nat.le_succ k)
  obtain ⟨hopen, hall⟩ := h
  rw [run_write]
  match ho : d.outcomes with
  | [] => exact ⟨d, rfl, hk, ho ▸ List.suffix_rfl⟩
  | o :: rest =>
    rw [ho, show k + 1 + d.inbox.length = (k + d.inbox.length) + 1 by omega, List.take_succ_cons] at hall
    obtain rfl := hall o List.mem_cons_self
    exact ⟨_, rfl, ⟨hopen, fun o ho => hall o (List.mem_cons_of_mem _ ho)⟩, List.suffix_cons _ _⟩

/-- How many writes a message with this payload takes. -/
def writesOf (payload : List Byte) : ℕ := if payload = [] then 1 else 2

theorem writeMessage_accepts {k : ℕ} {d : Dialogue} {payload : List Byte}
    (h : d.Accepts (k + writesOf payload)) : ∃ d', (writeMessage payload).run d = (.ok (), d') ∧
      d'.Accepts k ∧ d'.outcomes <:+ d.outcomes := by
  rw [writesOf] at h
  rw [writeMessage]
  by_cases hnil : payload = []
  · rw [if_pos hnil] at h
    obtain ⟨d₁, hrun, hacc, hsuffix⟩ := write_accepts h
    rw [Prog.run_bind_ok hrun, if_neg (not_not.mpr hnil)]
    exact ⟨d₁, rfl, hacc, hsuffix⟩
  · rw [if_neg hnil] at h
    obtain ⟨d₁, hrun, hacc, hsuffix⟩ := write_accepts (k := k + 1) h
    obtain ⟨d₂, hrun', hacc', hsuffix'⟩ := write_accepts hacc
    rw [Prog.run_bind_ok hrun, if_pos hnil]
    exact ⟨d₂, hrun', hacc', hsuffix'.trans hsuffix⟩

/-- A send of a header with its own payload succeeds and is recorded. -/
theorem send_accepts {k : ℕ} {d : Dialogue} {f : Frame} (h : d.Accepts (k + writesOf f.payload))
    (hf : f.Sized) : ∃ d', (send f.header f.payload).run d = (.ok (), d') ∧ d'.Accepts k ∧
      d'.inbox = d.inbox ∧ d'.outcomes <:+ d.outcomes ∧ d'.trace = d.trace ++ [.sent f] := by
  obtain ⟨d₁, hrun, hacc, hsuffix⟩ := writeMessage_accepts h
  have hsame := writeMessage_sameInbox f.payload d
  rw [hrun] at hsame
  refine ⟨d₁.record (.sent f), ?_, hacc, hsame.1, hsuffix, by rw [record, hsame.2.2]⟩
  have hlen : ¬ f.header.dataLength.toNat ≠ f.payload.length := not_not.mpr hf
  rw [run_send, if_neg (by simp [h.1]), if_neg hlen, hrun]

theorem receive_closed {d : Dialogue} (hclosed : d.closed = true) :
    receive.run d = (.error (.of .transport "the session is closed"), d) := by
  simp only [receive, Prog.run, hclosed]
  rfl

theorem run_receive {d : Dialogue} (hopen : d.closed = false) : receive.run d = match d.inbox with
    | [] => (.error (.of .protocol "unexpected end of stream"), d)
    | .frame f :: rest => (.ok f, { d with inbox := rest }.record (.received f))
    | .fault e :: rest => (.error e, { d with inbox := rest })
    | .violation message :: rest =>
      (.error (.of .protocol message), { d with inbox := rest, closed := true }) := by
  simp only [receive, Prog.run, hopen]
  rfl

/-- A receive that succeeds has found the session open and leaves it so. -/
theorem receive_ok {d d' : Dialogue} {f : Frame} (h : receive.run d = (.ok f, d')) :
    d.closed = false ∧ ∃ rest, d.inbox = .frame f :: rest ∧
      d' = { d with inbox := rest, trace := d.trace ++ [.received f] } := by
  by_cases hopen : d.closed = false
  swap
  · rw [Bool.not_eq_false] at hopen
    rw [receive_closed hopen] at h
    cases h
  rw [run_receive hopen] at h
  match hd : d.inbox with
  | .frame f :: rest =>
    rw [hd] at h
    cases h
    exact ⟨hopen, rest, rfl, rfl⟩
  | [] => simp [hd] at h
  | .fault e :: rest => simp [hd] at h
  | .violation message :: rest => simp [hd] at h

end Dialogue

end Adbcpp
