import Adbcpp.Session.Wire
import Adbcpp.Stream.Replaying
import Mathlib.Algebra.FreeMonoid.Basic
import Mathlib.Algebra.Group.Prod

/-! A session is replayed message by message. A dialogue whose inbox and outcomes say what
a session over a wire meets returns what the session returns, whatever calls are made of
them. What they say is there in the bytes: those that were read spell the inbox, and
those that were delivered spell what is on the record. -/

namespace Adbcpp

open Protocol Prog

/-- What a dialogue meets: the coming arrivals, and how the coming writes end. -/
abbrev Tape := FreeMonoid Arrival × FreeMonoid WriteOutcome

namespace Tape

/-- A tape with these arrivals and these outcomes on it. -/
def of (inbox : List Arrival) (outcomes : List WriteOutcome) : Tape :=
  (FreeMonoid.ofList inbox, FreeMonoid.ofList outcomes)

def inbox (w : Tape) : List Arrival := w.1.toList

def outcomes (w : Tape) : List WriteOutcome := w.2.toList

@[simp] theorem inbox_of (as : List Arrival) (os : List WriteOutcome) : (of as os).inbox = as := rfl

@[simp] theorem outcomes_of (as : List Arrival) (os : List WriteOutcome) : (of as os).outcomes = os := rfl

@[simp] theorem inbox_one : (1 : Tape).inbox = [] := rfl

@[simp] theorem outcomes_one : (1 : Tape).outcomes = [] := rfl

@[simp] theorem inbox_mul (v w : Tape) : (v * w).inbox = v.inbox ++ w.inbox := rfl

@[simp] theorem outcomes_mul (v w : Tape) : (v * w).outcomes = v.outcomes ++ w.outcomes := rfl

end Tape

namespace Dialogue

/-- The dialogue that goes on with a tape. -/
def load (d : Dialogue) (w : Tape) : Dialogue := { d with inbox := w.inbox, outcomes := w.outcomes }

/-- What a receive of an open dialogue meets is what it returns. -/
theorem run_receive_load {d : Dialogue} (hopen : d.closed = false) (a : Arrival) (more : Tape) :
    receive.run (d.load (Tape.of [a] [] * more)) =
      (a.result, { d with closed := a.closes, trace := d.trace ++ a.events }.load more) := by
  rw [run_receive (by exact hopen)]
  cases a with
  | frame f => simp [load, record, Arrival.result, Arrival.closes, Arrival.events, hopen]
  | fault e => simp [load, Arrival.result, Arrival.closes, Arrival.events, hopen]
  | violation message => simp [load, Arrival.result, Arrival.closes, Arrival.events]

/-- How a write ends that meets this outcome. -/
def resultOf : WriteOutcome → Except Error Unit
  | .accepted => .ok ()
  | .failed _ e => .error e

theorem run_write_load (d : Dialogue) (o : WriteOutcome) (more : Tape) :
    write.run (d.load (Tape.of [] [o] * more)) = (resultOf o, d.load more) := by
  rw [run_write]
  cases o <;> rfl

end Dialogue

namespace Session

variable {τ : Type} [Wire τ]

/-- A session over a wire, and the dialogue that replays it. -/
def replay : Replay (Session τ) Dialogue Tape where
  load := Dialogue.load
  Rel s d := s.closed = d.closed
  Label s d w s' d' := ∃ taken delivered events, Wire.Moves s.transport taken delivered s'.transport ∧
    Spells Arrival.Spelled w.inbox taken ∧ d'.trace = d.trace ++ events ∧
    Spells Event.Spelled events delivered
  label_one s d := ⟨[], [], [], Wire.moves_refl _, .nil, (List.append_nil _).symm, .nil⟩
  label_mul := by
    rintro s s' s'' d d' d'' v w ⟨taken, delivered, events, hmoves, hinbox, htrace, hevents⟩
      ⟨taken', delivered', events', hmoves', hinbox', htrace', hevents'⟩
    refine ⟨taken ++ taken', delivered ++ delivered', events ++ events', Wire.moves_trans hmoves hmoves', ?_, ?_,
      hevents.append hevents'⟩
    · rw [Tape.inbox_mul]
      exact hinbox.append hinbox'
    · rw [htrace', htrace, List.append_assoc]

@[simp] theorem replay_load (d : Dialogue) (w : Tape) : (replay (τ := τ)).load d w = d.load w := rfl

theorem receive_replays : (replay (τ := τ)).Replays receive Dialogue.receive := by
  intro s d hR
  have hclosed : s.closed = d.closed := hR
  rcases hopen : s.closed with _ | _
  swap
  · rw [hopen] at hclosed
    refine ⟨1, d, ?_, ?_, fun more => ?_⟩
    · rw [receive_closed hopen]
      exact (replay (τ := τ)).label_one s d
    · rw [receive_closed hopen]
      exact hR
    · rw [receive_closed hopen, one_mul]
      exact Dialogue.receive_closed hclosed.symm
  obtain ⟨arrival, bytes, hspelled, hmoves, hresult, hcloses⟩ := receive_takes hopen
  rw [hopen] at hclosed
  rw [List.nil_append] at hspelled
  refine ⟨Tape.of [arrival] [], { d with closed := arrival.closes, trace := d.trace ++ arrival.events },
    ⟨bytes, [], arrival.events, hmoves, .one hspelled, rfl, ?_⟩, hcloses, fun more => ?_⟩
  · cases arrival with
    | frame f => exact .one .received
    | fault e => exact .nil
    | violation message => exact .nil
  · rw [hresult]
    exact Dialogue.run_receive_load hclosed.symm arrival more

/-- What one write does, and how the dialogue makes it. -/
theorem write_load (data : List Byte) (s : Session τ) : ∃ o bytes t,
    (onTransport (Transport.write data)).run s = (Dialogue.resultOf o, { s with transport := t }) ∧
      Wire.Moves s.transport [] bytes t ∧ bytes <+: data ∧ (Dialogue.resultOf o = .ok () → bytes = data) := by
  rw [run_onTransport]
  match h : (Transport.write data).run s.transport with
  | (.ok (), t) => exact ⟨.accepted, data, t, rfl, Wire.write_moves h, List.prefix_rfl, fun _ => rfl⟩
  | (.error e, t) =>
    obtain ⟨n, hmoves⟩ := Wire.write_fails h
    exact ⟨.failed n e, data.take n, t, rfl, hmoves, List.take_prefix _ _, fun hok => nomatch hok⟩

/-- What the writes of a message do, and how the dialogue makes them. -/
theorem writeMessage_load (header : Message) (payload : List Byte) (s : Session τ) : ∃ outcomes bytes r t,
    (do onTransport (Transport.write header.encode); if payload ≠ [] then onTransport (Transport.write payload) :
      Action (Session τ) Unit).run s = (r, { s with transport := t }) ∧
    Wire.Moves s.transport [] bytes t ∧ bytes <+: header.frameBytes payload ∧
    (r = .ok () → bytes = header.frameBytes payload) ∧
    ∀ (d : Dialogue) more, (Dialogue.writeMessage payload).run (d.load (Tape.of [] outcomes * more)) = (r, d.load more) := by
  obtain ⟨o, bytes, t, hrun, hmoves, hprefix, hall⟩ := write_load header.encode s
  unfold Message.frameBytes Dialogue.writeMessage
  cases o with
  | failed n e =>
    rw [Prog.run_bind_error hrun]
    refine ⟨[.failed n e], bytes, _, t, rfl, hmoves, hprefix.trans (List.prefix_append _ _), fun h => (nomatch h), ?_⟩
    exact fun d more => Prog.run_bind_error (Dialogue.run_write_load d _ more)
  | accepted =>
    obtain rfl := hall rfl
    rw [Prog.run_bind_ok hrun]
    by_cases hnil : payload = []
    · subst hnil
      rw [List.append_nil]
      refine ⟨[.accepted], header.encode, .ok (), t, rfl, hmoves, List.prefix_rfl, fun _ => rfl, ?_⟩
      intro d more
      rw [Prog.run_bind_ok (Dialogue.run_write_load d _ more)]
      rfl
    · obtain ⟨o', bytes', t', hrun', hmoves', hprefix', hall'⟩ := write_load payload { s with transport := t }
      rw [if_pos hnil, hrun']
      refine ⟨[.accepted, o'], header.encode ++ bytes', Dialogue.resultOf o', t', rfl,
        Wire.moves_trans hmoves hmoves', (List.prefix_append_right_inj _).mpr hprefix', ?_, ?_⟩
      · intro hok
        rw [hall' hok]
      · intro d more
        rw [if_pos hnil, show Tape.of [] [.accepted, o'] * more = Tape.of [] [.accepted] * (Tape.of [] [o'] * more) from rfl]
        rw [Prog.run_bind_ok (Dialogue.run_write_load d .accepted _), Dialogue.run_write_load]

theorem send_replays (header : Message) (payload : List Byte) :
    (replay (τ := τ)).Replays (send header payload) (Dialogue.send header payload) := by
  intro s d hR
  have hclosed : s.closed = d.closed := hR
  rcases hopen : s.closed with _ | _
  swap
  · rw [hopen] at hclosed
    rw [send_closed hopen]
    refine ⟨1, d, (replay (τ := τ)).label_one s d, hR, fun more => ?_⟩
    rw [Dialogue.run_send, one_mul, if_pos (by exact hclosed.symm)]
  rw [hopen] at hclosed
  have hload : ∀ w, ¬ (d.load w).closed = true := fun w h => absurd (hclosed.trans h) (by decide)
  rw [send, Prog.run_bind_get, if_neg (by simp [hopen])]
  by_cases hsized : header.dataLength.toNat = payload.length
  swap
  · rw [if_pos hsized]
    refine ⟨1, d, (replay (τ := τ)).label_one s d, hR, fun more => ?_⟩
    rw [one_mul, replay_load, Dialogue.run_send, if_neg (hload more), if_pos hsized]
    rfl
  rw [if_neg (not_not.mpr hsized)]
  obtain ⟨outcomes, bytes, r, t, hrun, hmoves, hprefix, hall, hload'⟩ := writeMessage_load header payload s
  rw [hrun]
  let f : Frame := ⟨header, payload⟩
  cases r with
  | ok u =>
    refine ⟨Tape.of [] outcomes, d.record (.sent f), ⟨[], bytes, [.sent f], hmoves, .nil, rfl, .one ?_⟩, hR, ?_⟩
    · rw [hall rfl]
      exact .sent hsized
    · intro more
      rw [replay_load, Dialogue.run_send, if_neg (hload _), if_neg (not_not.mpr hsized), hload']
      rfl
  | error e =>
    refine ⟨Tape.of [] outcomes, d.record (.unsent f), ⟨[], bytes, [.unsent f], hmoves, .nil, rfl, .one ?_⟩, hR, ?_⟩
    · exact .unsent hsized hprefix
    · intro more
      rw [replay_load, Dialogue.run_send, if_neg (hload _), if_neg (not_not.mpr hsized), hload']
      rfl

theorem replayed : Channel.Replayed (replay (τ := τ)) := ⟨send_replays, receive_replays⟩

end Session

end Adbcpp
