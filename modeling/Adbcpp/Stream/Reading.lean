import Adbcpp.Stream

/-! What a stream reads. The source of a stream is the list of bytes that its reads
can still hand out: those left in the buffer, then the payloads of its own WRTEs up
to the frame or the failure that ends it. A read takes its bytes from the front of
the source, however the device has split them over frames and whatever frames for
other streams lie in between. -/

namespace Adbcpp

open Protocol Dialogue

/-- What ends a stream: the device closes it, or a receive fails. -/
inductive Ending
  | closed
  | failed (error : Error)
  deriving DecidableEq, Repr

/-- The error of a read that the ending cuts short. -/
def Ending.error : Ending → Error
  | .closed => .of .protocol "the device closed the stream"
  | .failed e => e

/-- What an inbox still brings to the stream `localId`: the payloads of its WRTEs, and the ending. -/
def upcoming (localId : UInt32) : List Arrival → List Byte × Ending
  | [] => ([], .failed (.of .protocol "unexpected end of stream"))
  | .fault e :: _ => ([], .failed e)
  | .violation message :: _ => ([], .failed (.of .protocol message))
  | .frame f :: rest =>
    if f.header.arg1 ≠ localId then upcoming localId rest
    else if f.header.command = kWrte then
      (f.payload ++ (upcoming localId rest).1, (upcoming localId rest).2)
    else if f.header.command = kOkay then upcoming localId rest
    else if f.header.command = kClse then ([], .closed)
    else ([], .failed (.of .protocol "unexpected message on the stream"))

namespace StreamOn

/-- The session of the connection of the stream. -/
def session (s : StreamOn Dialogue) : Dialogue := s.connection.session

/-- The bytes that reads of the stream can still hand out. -/
def source (s : StreamOn Dialogue) : List Byte :=
  s.buffered ++ (upcoming s.stream.localId s.connection.session.inbox).1

/-- What ends the stream once its source is used up. -/
def ending (s : StreamOn Dialogue) : Ending :=
  (upcoming s.stream.localId s.connection.session.inbox).2

/-- `k` of the coming writes are accepted besides the acknowledgements of what arrives. -/
def Accepts (k : ℕ) (s : StreamOn Dialogue) : Prop := s.connection.session.Accepts k

variable {k : ℕ}

/-! ### Receiving -/

/-- The state after one receive has taken the frame `f`. -/
def afterFrame (f : Frame) (rest : List Arrival) (s : StreamOn Dialogue) : StreamOn Dialogue :=
  { s with connection := { s.connection with session := { s.connection.session with
      inbox := rest, trace := s.connection.session.trace ++ [.received f] } } }

theorem Accepts.afterFrame {s : StreamOn Dialogue} (h : s.Accepts k) {f : Frame} {rest : List Arrival}
    (hd : s.connection.session.inbox = .frame f :: rest) : (s.afterFrame f rest).Accepts (k + 1) := by
  refine ⟨h.1, fun o ho => h.2 o ?_⟩
  have hlen : k + s.connection.session.inbox.length = k + 1 + rest.length := by
    rw [hd, List.length_cons]
    omega
  rw [hlen]
  exact ho

theorem run_receive_frame {s : StreamOn Dialogue} (hopen : s.connection.session.closed = false)
    {f : Frame} {rest : List Arrival} (hd : s.connection.session.inbox = .frame f :: rest) :
    (onConnection Connection.receive).run s = (.ok f, s.afterFrame f rest) := by
  rw [run_onConnection, Connection.receive, Connection.run_onSession, run_channel_receive,
    run_receive hopen, hd]
  rfl

/-- A receive that succeeds has taken the next frame of an open session. -/
theorem receive_inv {s t : StreamOn Dialogue} {f : Frame}
    (h : (onConnection Connection.receive).run s = (.ok f, t)) : s.connection.session.closed = false ∧
      ∃ rest, s.connection.session.inbox = .frame f :: rest ∧ t = s.afterFrame f rest := by
  obtain ⟨c, hc, rfl⟩ := Prog.zoom_eq_ok h
  rw [Connection.receive] at hc
  obtain ⟨d, hd, rfl⟩ := Prog.zoom_eq_ok hc
  obtain ⟨hopen, rest, hinbox, rfl⟩ := receive_ok hd
  exact ⟨hopen, rest, hinbox, rfl⟩

/-- What a failed receive does to the session: an arrival that is no frame may be used up. -/
structure Fails (d d' : Dialogue) : Prop where
  outcomes : d'.outcomes = d.outcomes
  trace : d'.trace = d.trace
  inbox : ∃ lost, d.inbox = lost ++ d'.inbox ∧ ∀ f, Arrival.frame f ∉ lost

/-- A receive that fails is the ending of the stream. -/
theorem run_receive_failed {s : StreamOn Dialogue}
    (hd : s.connection.session.closed = true ∨
      ∀ f rest, s.connection.session.inbox ≠ .frame f :: rest) :
    ∃ e d, (onConnection Connection.receive).run s =
        (.error e, { s with connection := { s.connection with session := d } }) ∧
      Fails s.connection.session d ∧ (s.connection.session.closed = false →
        ∀ localId, upcoming localId s.connection.session.inbox = ([], .failed e)) := by
  rw [run_onConnection, Connection.receive, Connection.run_onSession, run_channel_receive]
  by_cases hopen : s.connection.session.closed = false
  swap
  · rw [Bool.not_eq_false] at hopen
    rw [receive_closed hopen]
    exact ⟨_, _, rfl, ⟨rfl, rfl, [], rfl, by simp⟩, fun h => by simp [hopen] at h⟩
  rw [run_receive hopen]
  have hnone := hd.resolve_left (by simp [hopen])
  cases hinbox : s.connection.session.inbox with
  | nil => exact ⟨_, _, rfl, ⟨rfl, rfl, [], rfl, by simp⟩, fun _ _ => rfl⟩
  | cons a rest =>
    cases a with
    | fault e => exact ⟨_, _, rfl, ⟨rfl, rfl, [.fault e], hinbox, by simp⟩, fun _ _ => rfl⟩
    | violation message =>
      exact ⟨_, _, rfl, ⟨rfl, rfl, [.violation message], hinbox, by simp⟩, fun _ _ => rfl⟩
    | frame f => exact absurd hinbox (hnone f rest)

/-- A message with its own payload is sent and recorded. -/
theorem run_send_accepts {s : StreamOn Dialogue} {f : Frame} (h : s.Accepts (k + writesOf f.payload))
    (hf : f.Sized) :
    ∃ d : Dialogue, (onConnection (Connection.send f.header f.payload)).run s =
        (.ok (), { s with connection := { s.connection with session := d } }) ∧
      d.Accepts k ∧ d.inbox = s.connection.session.inbox ∧
      d.outcomes <:+ s.connection.session.outcomes ∧
      d.trace = s.connection.session.trace ++ [.sent f] := by
  obtain ⟨d, hrun, hacc, hinbox, hout, htrace⟩ := send_accepts h hf
  refine ⟨d, ?_, hacc, hinbox, hout, htrace⟩
  rw [run_onConnection, Connection.send, Connection.run_onSession, run_channel_send, hrun]

/-- The message that acknowledges a WRTE. -/
def acknowledgement (localId remoteId : UInt32) : Frame :=
  ⟨makeEmptyMessage kOkay localId remoteId, []⟩

theorem run_acknowledge {s : StreamOn Dialogue} (h : s.Accepts (k + 1)) (localId remoteId : UInt32) :
    ∃ d : Dialogue,
      (onConnection (Connection.send (makeEmptyMessage kOkay localId remoteId) [])).run s =
        (.ok (), { s with connection := { s.connection with session := d } }) ∧
      d.Accepts k ∧ d.inbox = s.connection.session.inbox ∧
      d.outcomes <:+ s.connection.session.outcomes ∧
      d.trace = s.connection.session.trace ++ [.sent (acknowledgement localId remoteId)] :=
  run_send_accepts (f := acknowledgement localId remoteId) h rfl

/-- A frame that the stream `localId` passes over while it waits for a WRTE. -/
def Skips (localId : UInt32) (f : Frame) : Prop :=
  f.header.arg1 ≠ localId ∨ f.header.command = kOkay

instance (localId : UInt32) (f : Frame) : Decidable (Skips localId f) :=
  inferInstanceAs (Decidable (_ ∨ _))

theorem upcoming_skips {localId : UInt32} {f : Frame} (h : Skips localId f) (rest : List Arrival) :
    upcoming localId (.frame f :: rest) = upcoming localId rest := by
  rw [upcoming]
  rcases h with h | h
  · rw [if_pos h]
  · simp [h, kOkay_ne_kWrte]

theorem handleFrame_skips {f : Frame} {s : StreamOn Dialogue} (h : Skips s.stream.localId f) :
    (handleFrame f).run s = (.ok (.again ()), s) := by
  rw [handleFrame, Prog.run_bind_get]
  rcases h with h | h
  · rw [if_pos h]
    rfl
  · simp [h, kOkay_ne_kWrte]

/-- What `receiveMore` makes of what is upcoming: the next WRTE, the CLSE or the failure. -/
inductive Received (k : ℕ) : List Byte × Ending → Except Error Bool × StreamOn Dialogue → Prop
  | wrte {up : List Byte × Ending} {s' : StreamOn Dialogue} : s'.Accepts k →
      up = (s'.source, s'.ending) → Received k up (.ok true, s')
  | clse {s' : StreamOn Dialogue} : s'.stream.closed = true → Received k ([], .closed) (.ok false, s')
  | failure {s' : StreamOn Dialogue} {e : Error} : Received k ([], .failed e) (.error e, s')

theorem Received.wrte_inv {up : List Byte × Ending} {s' : StreamOn Dialogue}
    (h : Received k up (.ok true, s')) : s'.Accepts k ∧ up = (s'.source, s'.ending) := by
  cases h with
  | wrte hacc hup => exact ⟨hacc, hup⟩

theorem Received.clse_inv {up : List Byte × Ending} {s' : StreamOn Dialogue}
    (h : Received k up (.ok false, s')) : up = ([], .closed) ∧ s'.stream.closed = true := by
  cases h with
  | clse hclosed => exact ⟨rfl, hclosed⟩

theorem Received.failure_inv {up : List Byte × Ending} {s' : StreamOn Dialogue} {e : Error}
    (h : Received k up (.error e, s')) : up = ([], .failed e) := by
  cases h
  rfl

/-- What a frame that is not passed over makes of the stream. -/
theorem handleFrame_received {f : Frame} {s : StreamOn Dialogue} (h : s.Accepts (k + 1))
    (hf : ¬ Skips s.stream.localId f) :
    (∃ more s', (handleFrame f).run s = (.ok (.done more), s') ∧
      Received k (upcoming s.stream.localId (.frame f :: s.connection.session.inbox)) (.ok more, s')) ∨
    (∃ e s', (handleFrame f).run s = (.error e, s') ∧
      Received k (upcoming s.stream.localId (.frame f :: s.connection.session.inbox)) (.error e, s')) := by
  obtain ⟨hid, hokay⟩ := not_or.mp hf
  rw [handleFrame, Prog.run_bind_get, if_neg hid, upcoming, if_neg hid]
  by_cases hwrte : f.header.command = kWrte
  · left
    rw [if_pos hwrte, if_pos hwrte, Prog.run_bind_modify]
    obtain ⟨d, hrun, hacc, hinbox, _, _⟩ := run_acknowledge
      (s := s.setStream fun t => { t with incoming := f.payload, incomingOffset := 0 }) h
      s.stream.localId s.stream.remoteId
    refine ⟨true, _, Prog.run_bind_ok hrun, .wrte hacc ?_⟩
    rw [source, ending, buffered]
    dsimp only
    rw [hinbox]
    rfl
  · rw [if_neg hwrte, if_neg hwrte, if_neg hokay, if_neg hokay]
    by_cases hclse : f.header.command = kClse
    · left
      rw [if_pos hclse, if_pos hclse]
      exact ⟨false, _, rfl, .clse rfl⟩
    · right
      rw [if_neg hclse, if_neg hclse]
      exact ⟨_, _, rfl, .failure⟩

theorem receiveMore_received {s : StreamOn Dialogue} (h : s.Accepts k) :
    Received k (upcoming s.stream.localId s.connection.session.inbox) (receiveMore.run s) := by
  have hfailed : ∀ s : StreamOn Dialogue, s.Accepts k →
      (∀ f rest, s.connection.session.inbox ≠ .frame f :: rest) →
      Received k (upcoming s.stream.localId s.connection.session.inbox) (receiveMore.run s) := by
    intro s h hd
    obtain ⟨e, d, hrun, -, hup⟩ := run_receive_failed (.inr hd)
    rw [receiveMore, Prog.loop_error _ (Prog.run_bind_error hrun), hup h.1]
    exact .failure
  induction hd : s.connection.session.inbox generalizing s with
  | nil =>
    rw [← hd]
    exact hfailed s h (by simp [hd])
  | cons a rest ih =>
    cases a with
    | fault e =>
      rw [← hd]
      exact hfailed s h (by simp [hd])
    | violation message =>
      rw [← hd]
      exact hfailed s h (by simp [hd])
    | frame f =>
      have hturn : (receiveMoreTurn ()).run s = (handleFrame f).run (s.afterFrame f rest) :=
        Prog.run_bind_ok (run_receive_frame h.1 hd)
      have hacc : (s.afterFrame f rest).Accepts (k + 1) := h.afterFrame hd
      by_cases hskip : Skips s.stream.localId f
      · rw [handleFrame_skips (s := s.afterFrame f rest) hskip] at hturn
        rw [receiveMore, Prog.loop_again _ hturn, upcoming_skips hskip]
        exact ih (hacc.mono (Nat.le_succ k)) rfl
      · rcases handleFrame_received hacc hskip with
          ⟨more, s', hrun, hrec⟩ | ⟨e, s', hrun, hrec⟩
        · rw [receiveMore, Prog.loop_done _ (hturn.trans hrun)]
          exact hrec
        · rw [receiveMore, Prog.loop_error _ (hturn.trans hrun)]
          exact hrec

/-! ### Reading -/

/-- Filling the buffer leaves the source as it is, or finds it used up. -/
theorem fillBuffer_source {s : StreamOn Dialogue} (h : s.Accepts k) :
    (∃ s', fillBuffer.run s = (.ok (), s') ∧ s'.Accepts k ∧ s'.source = s.source ∧
      s'.ending = s.ending) ∨
    (s.source = [] ∧ ∃ s', fillBuffer.run s = (.error s.ending.error, s')) := by
  rw [fillBuffer, Prog.run_bind_get]
  by_cases hempty : s.stream.incomingOffset ≥ s.stream.incoming.length
  swap
  · left
    rw [if_neg hempty]
    exact ⟨s, rfl, h, rfl, rfl⟩
  rw [if_pos hempty]
  have hbuf : s.buffered = [] := List.drop_eq_nil_of_le hempty
  have hsource : s.source = (upcoming s.stream.localId s.connection.session.inbox).1 := by
    rw [source, hbuf, List.nil_append]
  rw [hsource, ending]
  have hrec := receiveMore_received h
  generalize hrun : receiveMore.run s = q at hrec
  obtain ⟨r, s'⟩ := q
  cases r with
  | error e =>
    right
    rw [hrec.failure_inv]
    exact ⟨rfl, s', Prog.run_bind_error hrun⟩
  | ok more =>
    cases more with
    | true =>
      obtain ⟨hacc, hup⟩ := hrec.wrte_inv
      left
      rw [hup]
      exact ⟨s', Prog.run_bind_ok hrun, hacc, rfl, rfl⟩
    | false =>
      right
      rw [hrec.clse_inv.1]
      exact ⟨rfl, s', Prog.run_bind_ok hrun⟩

/-- The bytes that are taken out of the buffer are the front of the source. -/
theorem takeBuffered_source (size : ℕ) (s : StreamOn Dialogue) :
    ∃ bytes s', (takeBuffered size).run s = (.ok bytes, s') ∧ s.source = bytes ++ s'.source ∧
      bytes.length ≤ size ∧ s'.ending = s.ending ∧ (s.Accepts k → s'.Accepts k) := by
  refine ⟨_, _, run_takeBuffered size s, ?_, ?_, rfl, id⟩
  · simp only [source, buffered, setStream]
    rw [← List.append_assoc, ← List.drop_drop, List.take_eq_take_min, Nat.min_comm,
      List.take_append_drop]
  · rw [List.length_take]
    exact Nat.min_le_left _ _

/-- What a read that still wants `n` bytes after `out` makes of the source. -/
inductive ReadsOn (k : ℕ) (out : List Byte) (n : ℕ) (s : StreamOn Dialogue) :
    Except Error (List Byte) × StreamOn Dialogue → Prop
  | whole {bytes : List Byte} {s' : StreamOn Dialogue} : s.source = bytes ++ s'.source →
      bytes.length = n → s'.ending = s.ending → s'.Accepts k → ReadsOn k out n s (.ok (out ++ bytes), s')
  | short {s' : StreamOn Dialogue} : s.source.length < n → ReadsOn k out n s (.error s.ending.error, s')

/-- A turn of `read` takes bytes off the front of the source, or finds it used up. -/
theorem readTurn_readsOn {size : ℕ} {out : List Byte} {s : StreamOn Dialogue} (h : s.Accepts k)
    (hlt : out.length < size) :
    (∃ bytes s', (readTurn size out).run s = (.ok (.again (out ++ bytes)), s') ∧
      s.source = bytes ++ s'.source ∧ bytes.length ≤ size - out.length ∧ s'.ending = s.ending ∧
      s'.Accepts k) ∨
    (s.source = [] ∧ ∃ s', (readTurn size out).run s = (.error s.ending.error, s')) := by
  rw [readTurn, if_pos hlt]
  rcases fillBuffer_source h with ⟨t, hfill, hacc, hsource, hending⟩ | ⟨hnil, t, hfill⟩
  · left
    obtain ⟨bytes, s', htake, hsplit, hlen, hend, hacc'⟩ := takeBuffered_source (size - out.length) t
    refine ⟨bytes, s', ?_, hsource ▸ hsplit, hlen, hend.trans hending, hacc' hacc⟩
    rw [Prog.run_bind_ok hfill, Prog.run_bind_ok htake]
    rfl
  · right
    exact ⟨hnil, t, Prog.run_bind_error hfill⟩

theorem readLoop_readsOn (size : ℕ) (out : List Byte) (s : StreamOn Dialogue) :
    s.Accepts k → out.length ≤ size →
      ReadsOn k out (size - out.length) s ((Prog.loop (readTurn_decreases size) out).run s) := by
  refine Prog.loop_induct (readTurn_decreases size) (P := fun out s r => s.Accepts k →
    out.length ≤ size → ReadsOn k out (size - out.length) s r) ?_ ?_ ?_ out s
  · intro out out' s t r hb ih hacc hle
    have hlt := readTurn_lt hb (by simp)
    rcases readTurn_readsOn hacc hlt with ⟨bytes, s', hrun, hsplit, hlen, hend, hacc'⟩ | ⟨-, s', hrun⟩
    · rw [hrun] at hb
      cases hb
      rw [List.length_append] at ih
      cases ih hacc' (by omega) with
      | @whole more s'' hsplit' hmore hend' hacc'' =>
        rw [List.append_assoc]
        refine .whole ?_ ?_ (hend'.trans hend) hacc''
        · rw [hsplit, hsplit', List.append_assoc]
        · rw [List.length_append]
          omega
      | short hshort =>
        rw [hend]
        refine .short ?_
        rw [hsplit, List.length_append]
        omega
    · rw [hrun] at hb
      cases hb
  · intro out a s t hb hacc hle
    rcases readTurn_ok hle hb with ⟨_, hturn, -⟩ | ⟨hturn, hlen, rfl⟩ <;> cases hturn
    have hnone : ReadsOn k out (size - out.length) t (.ok (out ++ []), t) :=
      .whole rfl (by rw [List.length_nil]; omega) rfl hacc
    rwa [List.append_nil] at hnone
  · intro out e s t hb hacc hle
    have hlt := readTurn_lt hb (by simp)
    rcases readTurn_readsOn hacc hlt with ⟨bytes, s', hrun, -⟩ | ⟨hnil, s', hrun⟩
    · rw [hrun] at hb
      cases hb
    · rw [hrun] at hb
      cases hb
      refine .short ?_
      rw [hnil, List.length_nil]
      omega

/-- A read hands out the front of the source where the source is long enough. -/
theorem read_source {s : StreamOn Dialogue} (h : s.Accepts k) {bytes rest : List Byte}
    (hsource : s.source = bytes ++ rest) :
    ∃ s', (read bytes.length).run s = (.ok bytes, s') ∧ s'.source = rest ∧ s'.ending = s.ending ∧
      s'.Accepts k := by
  have hread := readLoop_readsOn bytes.length [] s h (Nat.zero_le _)
  rw [List.length_nil, Nat.sub_zero] at hread
  rw [read]
  match (Prog.loop (readTurn_decreases bytes.length) []).run s, hread with
  | _, @ReadsOn.whole _ _ _ _ bs s' hsplit hlen hend hacc =>
    obtain ⟨rfl, hrest⟩ := List.append_inj (hsource.symm.trans hsplit) hlen.symm
    exact ⟨s', rfl, hrest.symm, hend, hacc⟩
  | _, .short hshort =>
    rw [hsource, List.length_append] at hshort
    omega

/-- A read fails with the ending where the source is too short. -/
theorem read_short {s : StreamOn Dialogue} (h : s.Accepts k) {size : ℕ}
    (hshort : s.source.length < size) : ∃ s', (read size).run s = (.error s.ending.error, s') := by
  have hread := readLoop_readsOn size [] s h (Nat.zero_le _)
  rw [List.length_nil, Nat.sub_zero] at hread
  rw [read]
  match (Prog.loop (readTurn_decreases size) []).run s, hread with
  | _, @ReadsOn.whole _ _ _ _ bs s' hsplit hlen hend hacc =>
    rw [hsplit, List.length_append] at hshort
    omega
  | _, @ReadsOn.short _ _ _ _ s' _ => exact ⟨s', rfl⟩

/-- The buffer of a stream that has handed out everything it received. -/
def Drained (s : StreamOn Dialogue) : Prop := s.stream.incoming = []

theorem Drained.source {s : StreamOn Dialogue} (h : s.Drained) :
    (s.source, s.ending) = upcoming s.stream.localId s.connection.session.inbox := by
  rw [StreamOn.source, buffered, show s.stream.incoming = [] from h, List.drop_nil, List.nil_append]
  rfl

/-- What `readAll` makes of a source: all of it when the device closes the stream, or the failure. -/
def ReadsAll (output : List Byte) (s : StreamOn Dialogue)
    (r : Except Error (List Byte) × StreamOn Dialogue) : Prop :=
  match s.ending with
  | .closed => r.1 = .ok (output ++ s.source) ∧ r.2.stream.closed = true
  | .failed e => r.1 = .error e

/-- One turn of `readAll` takes the next WRTE off the source, or ends with it. -/
theorem readAllTurn_readsAll (output : List Byte) {s : StreamOn Dialogue} (h : s.Accepts k)
    (hd : s.Drained) :
    (∃ bytes s', (readAllTurn output).run s = (.ok (.again (output ++ bytes)), s') ∧
      s.source = bytes ++ s'.source ∧ s'.ending = s.ending ∧ s'.Accepts k ∧ s'.Drained) ∨
    (s.source = [] ∧ s.ending = .closed ∧ ∃ s', (readAllTurn output).run s = (.ok (.done output), s') ∧
      s'.stream.closed = true) ∨
    (∃ e s', s.source = [] ∧ s.ending = .failed e ∧ (readAllTurn output).run s = (.error e, s')) := by
  have hrec := receiveMore_received h
  rw [← hd.source] at hrec
  match hrun : receiveMore.run s with
  | (.ok true, t) =>
    left
    rw [hrun] at hrec
    obtain ⟨hacc, hup⟩ := hrec.wrte_inv
    obtain ⟨hsource, hending⟩ := Prod.mk.inj hup
    have hzero := (receiveMore_true hrun).2
    refine ⟨t.stream.incoming, t.setStream emptyBuffer, Prog.run_bind_ok hrun, ?_, hending.symm, hacc, rfl⟩
    rw [hsource, StreamOn.source, buffered, hzero, List.drop_zero]
    rfl
  | (.ok false, t) =>
    right
    left
    rw [hrun] at hrec
    obtain ⟨hup, hclosed⟩ := hrec.clse_inv
    obtain ⟨hsource, hending⟩ := Prod.mk.inj hup
    exact ⟨hsource, hending, t, Prog.run_bind_ok hrun, hclosed⟩
  | (.error e, t) =>
    right
    right
    rw [hrun] at hrec
    obtain ⟨hsource, hending⟩ := Prod.mk.inj hrec.failure_inv
    exact ⟨e, t, hsource, hending, Prog.run_bind_error hrun⟩

theorem readAllLoop_readsAll (output : List Byte) (s : StreamOn Dialogue) : s.Accepts k → s.Drained →
    ReadsAll output s ((Prog.loop readAllTurn_decreases output).run s) := by
  refine Prog.loop_induct readAllTurn_decreases
    (P := fun output s r => s.Accepts k → s.Drained → ReadsAll output s r) ?_ ?_ ?_ output s
  · intro output output' s t r hb ih hacc hd
    rcases readAllTurn_readsAll output hacc hd with
      ⟨bytes, s', hrun, hsplit, hend, hacc', hd'⟩ | ⟨-, -, s', hrun, -⟩ | ⟨e, s', -, -, hrun⟩ <;>
      rw [hrun] at hb <;> cases hb
    have := ih hacc' hd'
    unfold ReadsAll at this ⊢
    rwa [hend, List.append_assoc, ← hsplit] at this
  · intro output a s t hb hacc hd
    rcases readAllTurn_readsAll output hacc hd with
      ⟨bytes, s', hrun, -⟩ | ⟨hsource, hend, s', hrun, hclosed⟩ | ⟨e, s', -, -, hrun⟩ <;>
      rw [hrun] at hb <;> cases hb
    unfold ReadsAll
    rw [hend, hsource, List.append_nil]
    exact ⟨rfl, hclosed⟩
  · intro output e s t hb hacc hd
    rcases readAllTurn_readsAll output hacc hd with
      ⟨bytes, s', hrun, -⟩ | ⟨-, -, s', hrun, -⟩ | ⟨e', s', -, hend, hrun⟩ <;>
      rw [hrun] at hb <;> cases hb
    unfold ReadsAll
    rw [hend]

/-- `readAll` hands out the whole source when the device closes the stream. -/
theorem readAll_source {s : StreamOn Dialogue} (h : s.Accepts k) : ReadsAll [] s (readAll.run s) := by
  have hloop := readAllLoop_readsAll s.buffered (s.setStream emptyBuffer) h rfl
  rw [readAll, Prog.run_bind_get, Prog.run_bind_modify]
  unfold ReadsAll at hloop ⊢
  exact hloop

/-! ### Runs of reads -/

section Runs
variable {σ : Type} [Channel σ]

/-- What a caller gets from reads of the given sizes and a `readAll` after them, up to the
first that fails. -/
def runReads : List ℕ → StreamOn σ → List (List Byte) × Except Error Unit × StreamOn σ
  | [], s => match readAll.run s with
    | (.ok bytes, s') => ([bytes], .ok (), s')
    | (.error e, s') => ([], .error e, s')
  | size :: sizes, s => match (read size).run s with
    | (.ok bytes, s') => (bytes :: (runReads sizes s').1, (runReads sizes s').2)
    | (.error e, s') => ([], .error e, s')

end Runs

/-- What the same calls hand out of a list of bytes with an ending. -/
def handOut : List ℕ → List Byte → Ending → List (List Byte) × Except Error Unit
  | [], source, .closed => ([source], .ok ())
  | [], _, .failed e => ([], .error e)
  | size :: sizes, source, ending =>
    if size ≤ source.length then
      (source.take size :: (handOut sizes (source.drop size) ending).1,
        (handOut sizes (source.drop size) ending).2)
    else
      ([], .error ending.error)

/-- The pieces are cut off the front of the source, and are all of it when every call succeeds. -/
theorem handOut_prefix (sizes : List ℕ) (source : List Byte) (ending : Ending) :
    (handOut sizes source ending).1.flatten <+: source ∧
      ((handOut sizes source ending).2 = .ok () →
        (handOut sizes source ending).1.flatten = source) := by
  induction sizes generalizing source with
  | nil =>
    cases ending with
    | closed => simp [handOut]
    | failed e => simp [handOut]
  | cons size sizes ih =>
    obtain ⟨hpre, hall⟩ := ih (source.drop size)
    rw [handOut]
    split
    next hle =>
      have hsplit := List.take_append_drop size source
      rw [List.flatten_cons]
      constructor
      · conv_rhs => rw [← hsplit]
        rwa [List.prefix_append_right_inj]
      · intro hok
        rw [hall hok, hsplit]
    next => exact ⟨List.nil_prefix, fun h => by cases h⟩

/-- The reads of a stream hand out its source and see nothing else of the frames. -/
theorem runReads_handOut (sizes : List ℕ) {s : StreamOn Dialogue} (h : s.Accepts k) :
    (runReads sizes s).1 = (handOut sizes s.source s.ending).1 ∧
      (runReads sizes s).2.1 = (handOut sizes s.source s.ending).2 := by
  induction sizes generalizing s with
  | nil =>
    have hall := readAll_source h
    rw [ReadsAll] at hall
    rw [runReads]
    match hrun : readAll.run s, hend : s.ending with
    | (.ok bytes, s'), .closed =>
      rw [hrun, hend] at hall
      cases hall.1
      exact ⟨rfl, rfl⟩
    | (.error e, s'), .closed =>
      rw [hrun, hend] at hall
      cases hall.1
    | (.ok bytes, s'), .failed e =>
      rw [hrun, hend] at hall
      cases hall
    | (.error e', s'), .failed e =>
      rw [hrun, hend] at hall
      cases hall
      exact ⟨rfl, rfl⟩
  | cons size sizes ih =>
    rw [runReads, handOut]
    by_cases hle : size ≤ s.source.length
    · obtain ⟨s', hrun, hsource, hend, hacc⟩ := read_source h (List.take_append_drop size s.source).symm
      rw [List.length_take, Nat.min_eq_left hle] at hrun
      rw [hrun, if_pos hle, ← hsource, ← hend]
      exact ⟨congrArg _ (ih hacc).1, (ih hacc).2⟩
    · obtain ⟨s', hrun⟩ := read_short h (Nat.lt_of_not_le hle)
      rw [hrun, if_neg hle]
      exact ⟨rfl, rfl⟩

end StreamOn

end Adbcpp
