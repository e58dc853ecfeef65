import Adbcpp.Client.Adequacy

/-! What a transport can rely on. A record is kept of the calls that are made on it, which
nobody can tell from the answers. Whatever a client does, the record is one of few shapes:
reads of some bytes, headers, each with its payload behind it, and at the end a close. -/

namespace Adbcpp

open Protocol Prog

/-- A call that was made on a transport. Of a write it is known whether it succeeded. -/
inductive Made
  | read (size : ℕ)
  | write (data : List Byte) (ok : Bool)
  | close
  deriving DecidableEq, Repr

/-- The calls of a session, which is closed or not before them and behind them. -/
inductive Usage : Bool → List Made → Bool → Prop
  | nil (closed : Bool) : Usage closed [] closed
  /-- Some bytes, and no more than the largest payload has. -/
  | read {size : ℕ} {rest : List Made} {closed : Bool} : 0 < size → size ≤ kMaxData.toNat →
      Usage false rest closed → Usage false (.read size :: rest) closed
  /-- A header that did not go out. Its payload is not tried. -/
  | unsent {header : Message} {rest : List Made} {closed : Bool} :
      Usage false rest closed → Usage false (.write header.encode false :: rest) closed
  /-- A header that announces no payload. -/
  | bare {header : Message} {rest : List Made} {closed : Bool} : header.dataLength.toNat = 0 →
      Usage false rest closed → Usage false (.write header.encode true :: rest) closed
  /-- A header, and the payload that it announces. -/
  | message {header : Message} {payload : List Byte} {ok : Bool} {rest : List Made} {closed : Bool} :
      payload ≠ [] → header.dataLength.toNat = payload.length → Usage false rest closed →
      Usage false (.write header.encode true :: .write payload ok :: rest) closed
  /-- Nothing comes behind the close. -/
  | close : Usage false [.close] true

theorem Usage.append {first second third : Bool} {calls more : List Made} (h : Usage first calls second)
    (h' : Usage second more third) : Usage first (calls ++ more) third := by
  induction h with
  | nil => exact h'
  | read hpos hle _ ih => exact .read hpos hle (ih h')
  | unsent _ ih => exact .unsent (ih h')
  | bare hnone _ ih => exact .bare hnone (ih h')
  | message hne hsized _ ih => exact .message hne hsized (ih h')
  | close =>
    cases h'
    exact .close

/-- A transport with a record of its calls. -/
structure Recorded (τ : Type) where
  transport : τ
  calls : List Made := []

namespace Session

variable {τ : Type} [Transport τ] {s : Session τ}

theorem run_receive_open (h : s.closed = false) : receive.run s = (do
    let bytes ← onTransport (readExact kMessageHeaderSize)
    let header := Message.decode bytes
    if header.magic ≠ Message.computeMagic header.command then
      framingError "the header magic does not match its command"
    else if header.dataLength > kMaxData then
      framingError "the header payload length is past the maximum"
    else
      receivePayload header : Action (Session τ) Frame).run s := by
  rw [receive, run_bind_get, if_neg (by simp [h])]

theorem run_send_open (h : s.closed = false) {header : Message} {payload : List Byte} : (send header payload).run s = (
    if header.dataLength.toNat ≠ payload.length then
      Prog.fail (.of .invalidArgument "the header data_length does not match the payload")
    else do
      onTransport (Transport.write header.encode)
      if payload ≠ [] then
        onTransport (Transport.write payload) : Action (Session τ) Unit).run s := by
  rw [send, run_bind_get, if_neg (by simp [h])]

end Session

namespace Recorded

variable {τ α : Type} [Transport τ]

def read (size : ℕ) : Action (Recorded τ) (List Byte) := fun m =>
  let (r, transport) := (Transport.read size).run m.transport
  (r, { transport, calls := m.calls ++ [.read size] })

def write (data : List Byte) : Action (Recorded τ) Unit := fun m =>
  let (r, transport) := (Transport.write data).run m.transport
  (r, { transport, calls := m.calls ++ [.write data r.isOk] })

def close (m : Recorded τ) : Recorded τ := { transport := Transport.close m.transport, calls := m.calls ++ [.close] }

theorem read_plain {size : ℕ} {m m' : Recorded τ} {r : Except Error (List Byte)} (h : (read size).run m = (r, m')) :
    (Transport.read size).run m.transport = (r, m'.transport) := by
  cases h
  rfl

instance : Transport (Recorded τ) where
  read := read
  write := write
  close := close
  remaining m := Transport.remaining m.transport
  read_length h := Transport.read_length (read_plain h)
  read_remaining h := Transport.read_remaining (read_plain h)
  write_remaining data m := Transport.write_remaining data m.transport

/-! ### Reads -/

/-- A transport below its record. Programs with this label only read. -/
def tap : Replay (Recorded τ) τ Unit where
  load t _ := t
  Rel m t := m.transport = t
  Label m _ _ m' _ := ∃ calls, m'.calls = m.calls ++ calls ∧ Usage false calls false
  label_one m _ := ⟨[], (List.append_nil _).symm, .nil false⟩
  label_mul h h' := by
    obtain ⟨calls, hcalls, husage⟩ := h
    obtain ⟨more, hmore, husage'⟩ := h'
    exact ⟨calls ++ more, by rw [hmore, hcalls, List.append_assoc], husage.append husage'⟩

theorem read_tap {size : ℕ} (hpos : 0 < size) (hle : size ≤ kMaxData.toNat) :
    tap.Replays (Transport.read size : Action (Recorded τ) _) (Transport.read size) := by
  refine .of_idle fun m t hR => ?_
  obtain rfl : m.transport = t := hR
  exact ⟨_, ⟨[.read size], rfl, .read hpos hle (.nil false)⟩, rfl, fun _ => rfl⟩

theorem readExact_tap {size : ℕ} (hle : size ≤ kMaxData.toNat) :
    tap.Replays (readExact size : Action (Recorded τ) _) (readExact size) := by
  refine .loop _ _ (fun out => ?_) []
  unfold readExactTurn
  split
  next hlt => exact .bind (read_tap (by omega) (by omega)) fun bytes => .ite (.fail _) (.pure _)
  next => exact .pure _

/-! ### Sessions -/

/-- The session below the record. -/
def plain (s : Session (Recorded τ)) : Session τ := { transport := s.transport.transport, closed := s.closed }

/-- On an open session the programs do the same, the calls on the record are such as they should be, and
the session is still open where they succeed. -/
def Tracks (p : Action (Session (Recorded τ)) α) (q : Action (Session τ) α) : Prop :=
  ∀ s, s.closed = false → ∃ r s' calls, p.run s = (r, s') ∧ q.run (plain s) = (r, plain s') ∧
    s'.transport.calls = s.transport.calls ++ calls ∧ Usage false calls s'.closed ∧ (r.isOk = true → s'.closed = false)

namespace Tracks

omit [Transport τ] in
theorem pure (a : α) : Tracks (τ := τ) (pure a) (pure a) := by
  intro s hopen
  refine ⟨.ok a, s, [], rfl, rfl, (List.append_nil _).symm, ?_, fun _ => hopen⟩
  rw [hopen]
  exact .nil false

omit [Transport τ] in
theorem fail (e : Error) : Tracks (α := α) (τ := τ) (Prog.fail e) (Prog.fail e) := by
  intro s hopen
  refine ⟨.error e, s, [], rfl, rfl, (List.append_nil _).symm, ?_, fun h => by cases h⟩
  rw [hopen]
  exact .nil false

omit [Transport τ] in
theorem bind {β : Type} {p : Action (Session (Recorded τ)) α} {q : Action (Session τ) α}
    {f : α → Action (Session (Recorded τ)) β} {g : α → Action (Session τ) β} (hp : Tracks p q)
    (hf : ∀ a, Tracks (f a) (g a)) : Tracks (p >>= f) (q >>= g) := by
  intro s hopen
  obtain ⟨r, s', calls, hrun, hrun', hcalls, husage, hstays⟩ := hp s hopen
  cases r with
  | error e => exact ⟨.error e, s', calls, run_bind_error hrun, run_bind_error hrun', hcalls, husage, fun h => by cases h⟩
  | ok a =>
    have hopen' := hstays rfl
    obtain ⟨r', s'', more, hnext, hnext', hmore, husage', hstays'⟩ := hf a s' hopen'
    rw [hopen'] at husage
    refine ⟨r', s'', calls ++ more, ?_, ?_, by rw [hmore, hcalls, List.append_assoc], husage.append husage', hstays'⟩
    · rw [run_bind_ok hrun, hnext]
    · rw [run_bind_ok hrun', hnext']

omit [Transport τ] in
theorem ite {c : Prop} [Decidable c] {p p' : Action (Session (Recorded τ)) α} {q q' : Action (Session τ) α}
    (hp : Tracks p q) (hp' : Tracks p' q') : Tracks (if c then p else p') (if c then q else q') := by
  split <;> assumption

omit [Transport τ] in
theorem onTransport {p : Action (Recorded τ) α} {q : Action τ α} (h : tap.Replays p q) :
    Tracks (Session.onTransport p) (Session.onTransport q) := by
  intro s hopen
  obtain ⟨w, t, ⟨calls, hcalls, husage⟩, hR, hrun⟩ := h s.transport s.transport.transport rfl
  obtain rfl : (p.run s.transport).2.transport = t := hR
  refine ⟨(p.run s.transport).1, { s with transport := (p.run s.transport).2 }, calls, rfl, ?_, hcalls, ?_, fun _ => hopen⟩
  · rw [Session.run_onTransport]
    have hplain : q.run s.transport.transport = ((p.run s.transport).1, (p.run s.transport).2.transport) := hrun 1
    show ((q.run s.transport.transport).1, Session.mk (q.run s.transport.transport).2 s.closed) = _
    rw [hplain]
    rfl
  · rw [show _ = false from hopen]
    exact husage

theorem framingError (message : String) :
    Tracks (α := α) (τ := τ) (Session.framingError message) (Session.framingError message) := by
  intro s hopen
  refine ⟨.error (.of .protocol message), s.close, [.close], rfl, ?_, ?_, ?_, fun h => by cases h⟩
  all_goals simp only [Session.run_framingError, Session.close, plain, hopen, Bool.false_eq_true, if_false]
  · rfl
  · rfl
  · exact .close

end Tracks

theorem receivePayload_tracks {header : Message} (hle : header.dataLength ≤ kMaxData) :
    Tracks (τ := τ) (Session.receivePayload header) (Session.receivePayload header) := by
  unfold Session.receivePayload
  refine .ite (.pure _) (.bind (.onTransport (readExact_tap (UInt32.le_iff_toNat_le.mp hle))) fun payload => ?_)
  exact .ite (.framingError _) (.pure _)

/-! ### On the channel -/

/-- A session over a record, and one over the transport below. -/
def recording : Replay (Session (Recorded τ)) (Session τ) Unit where
  load t _ := t
  Rel s t := plain s = t
  Label s _ _ s' _ := ∃ calls, s'.transport.calls = s.transport.calls ++ calls ∧ Usage s.closed calls s'.closed
  label_one s _ := ⟨[], (List.append_nil _).symm, .nil s.closed⟩
  label_mul h h' := by
    obtain ⟨calls, hcalls, husage⟩ := h
    obtain ⟨more, hmore, husage'⟩ := h'
    exact ⟨calls ++ more, by rw [hmore, hcalls, List.append_assoc], husage.append husage'⟩

omit [Transport τ] in
/-- What does nothing on a closed session has only its work on an open one to be looked at. -/
theorem recording_replays {p : Action (Session (Recorded τ)) α} {q : Action (Session τ) α} {e : Error}
    (hclosed : ∀ s, s.closed = true → p.run s = (.error e, s)) (hclosed' : ∀ s, s.closed = true → q.run s = (.error e, s))
    (hopen : ∀ s, s.closed = false → ∃ p' q', p.run s = p'.run s ∧ q.run (plain s) = q'.run (plain s) ∧ Tracks p' q') :
    recording.Replays p q := by
  refine .of_idle fun s t hR => ?_
  obtain rfl : plain s = t := hR
  cases hs : s.closed with
  | true =>
    rw [hclosed s hs]
    exact ⟨plain s, recording.label_one s _, rfl, fun _ => hclosed' _ hs⟩
  | false =>
    obtain ⟨p', q', hp, hq, htracks⟩ := hopen s hs
    obtain ⟨r, s', calls, hrun, hrun', hcalls, husage, -⟩ := htracks s hs
    rw [hp, hrun]
    rw [← hs] at husage
    exact ⟨plain s', ⟨calls, hcalls, husage⟩, rfl, fun _ => hq.trans hrun'⟩

theorem receive_recorded : recording.Replays (Session.receive : Action (Session (Recorded τ)) Frame) Session.receive := by
  refine recording_replays (fun s hs => Session.receive_closed hs) (fun s hs => Session.receive_closed hs) fun s hs => ?_
  refine ⟨_, _, Session.run_receive_open hs, Session.run_receive_open (s := plain s) hs, ?_⟩
  refine .bind (.onTransport (readExact_tap (by decide))) fun bytes => .ite (.framingError _) ?_
  by_cases hlength : (Message.decode bytes).dataLength > kMaxData
  · simp only [if_pos hlength]
    exact .framingError _
  · simp only [if_neg hlength]
    exact receivePayload_tracks (UInt32.not_lt.mp hlength)

/-- One write, on both sides. -/
theorem run_write (data : List Byte) (s : Session (Recorded τ)) : ∃ r s',
    (Session.onTransport (Transport.write data)).run s = (r, s') ∧
    (Session.onTransport (Transport.write data)).run (plain s) = (r, plain s') ∧
    s'.transport.calls = s.transport.calls ++ [.write data r.isOk] ∧ s'.closed = s.closed := ⟨_, _, rfl, rfl, rfl, rfl⟩

/-- The writes of a message. -/
theorem writeMessage_tracks {header : Message} {payload : List Byte} (hsized : header.dataLength.toNat = payload.length) :
    Tracks (τ := τ)
      (do Session.onTransport (Transport.write header.encode)
          if payload ≠ [] then Session.onTransport (Transport.write payload))
      (do Session.onTransport (Transport.write header.encode)
          if payload ≠ [] then Session.onTransport (Transport.write payload)) := by
  intro s hopen
  obtain ⟨r, s', hrun, hrun', hcalls, hclosed⟩ := run_write header.encode s
  have hopen' := hclosed.trans hopen
  cases r with
  | error e =>
    refine ⟨.error e, s', _, run_bind_error hrun, run_bind_error hrun', hcalls, ?_, fun h => by cases h⟩
    rw [hopen']
    exact .unsent (.nil false)
  | ok u =>
    rw [run_bind_ok hrun, run_bind_ok hrun']
    by_cases hnil : payload = []
    · refine ⟨.ok (), s', _, ?_, ?_, hcalls, ?_, fun _ => hopen'⟩
      · rw [if_neg (not_not.mpr hnil)]
        rfl
      · rw [if_neg (not_not.mpr hnil)]
        rfl
      · rw [hopen']
        exact .bare (by rw [hsized, hnil, List.length_nil]) (.nil false)
    · obtain ⟨r', s'', hnext, hnext', hmore, hclosed'⟩ := run_write payload s'
      have hopen'' := hclosed'.trans hopen'
      refine ⟨r', s'', _, ?_, ?_, by rw [hmore, hcalls, List.append_assoc], ?_, fun _ => hopen''⟩
      · rw [if_pos hnil, hnext]
      · rw [if_pos hnil, hnext']
      · rw [hopen'']
        exact .message hnil hsized (.nil false)

theorem send_recorded (header : Message) (payload : List Byte) : recording.Replays
    (Session.send header payload : Action (Session (Recorded τ)) Unit) (Session.send header payload) := by
  refine recording_replays (fun s hs => Session.send_closed hs _ _) (fun s hs => Session.send_closed hs _ _) fun s hs => ?_
  refine ⟨_, _, Session.run_send_open hs, Session.run_send_open (s := plain s) hs, ?_⟩
  by_cases hsized : header.dataLength.toNat = payload.length
  · simp only [if_neg (not_not.mpr hsized)]
    exact writeMessage_tracks hsized
  · simp only [if_pos hsized]
    exact .fail _

theorem recorded : Channel.Replayed (recording (τ := τ)) := ⟨send_recorded, receive_recorded⟩

end Recorded

/-- A record of the calls on a transport is nothing to the answers that a client gets; and whatever the client
does, the calls are such as a transport can rely on. -/
theorem Client.perform_recorded {ι τ α : Type} [DecidableEq ι] [Transport τ] (b : Sync.Build) (client : Client ι α)
    (s : Streams ι (Session τ)) :
    let start : Session (Recorded τ) := {
      transport := { transport := s.connection.session.transport }
      closed := s.connection.session.closed }
    ∃ session : Session (Recorded τ), (client.perform b).run (s.around start) =
        (((client.perform b).run s).1, ((client.perform b).run s).2.around session) ∧
      Recorded.plain session = ((client.perform b).run s).2.connection.session ∧
      Usage s.connection.session.closed session.transport.calls session.closed := by
  intro start
  have hstart : (replay ι (Recorded.recording (τ := τ))).Rel (s.around start) s := ⟨⟨rfl, rfl⟩, rfl⟩
  obtain ⟨w, t, hlabel, hR, hrun⟩ := (perform_replays Recorded.recorded b client).exists_tape hstart
  obtain ⟨calls, hcalls, husage⟩ := hlabel
  have hplain : Recorded.plain ((client.perform b).run (s.around start)).2.connection.session = t.connection.session := hR.1.1
  have hrun' : (client.perform b).run s = (((client.perform b).run (s.around start)).1, t) := hrun
  refine ⟨((client.perform b).run (s.around start)).2.connection.session, ?_, ?_, ?_⟩
  · rw [hrun', eq_around hR]
    rfl
  · rw [hrun', hplain]
  · have hall : ((client.perform b).run (s.around start)).2.connection.session.transport.calls = calls :=
      hcalls.trans (List.nil_append calls)
    rw [hall]
    exact husage

end Adbcpp
