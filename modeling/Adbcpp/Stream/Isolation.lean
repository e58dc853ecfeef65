import Adbcpp.Stream.Exchange

/-! A stream sees only its own frames. Two inboxes that differ in frames for other
streams alone give a stream the same results, and the host sends the same messages. -/

namespace Adbcpp

open Protocol Dialogue

/-- An arrival that is not a frame for another stream. -/
def concerns (localId : UInt32) : Arrival → Bool
  | .frame f => f.header.arg1 = localId
  | _ => true

/-- An inbox without the frames for other streams. -/
def own (localId : UInt32) (inbox : List Arrival) : List Arrival := inbox.filter (concerns localId)

/-- The messages that have been sent. -/
def sentFrames (trace : List Event) : List Frame :=
  trace.filterMap fun
    | .sent f => some f
    | _ => none

/-- The second inbox is the first one without the frames for streams other than `localId`. -/
structure Strips (localId : UInt32) (d d' : Dialogue) : Prop where
  inbox : d'.inbox = own localId d.inbox
  outcomes : d'.outcomes = d.outcomes
  closed : d'.closed = d.closed
  sent : sentFrames d'.trace = sentFrames d.trace

theorem write_strips (localId : UInt32) : Prog.InStep (Strips localId) write write := by
  rintro d d' ⟨hin, hout, hcl, hsent⟩
  rw [run_write, run_write, hout]
  split
  · exact .ok _ ⟨hin, hout, hcl, hsent⟩
  · exact .ok _ ⟨hin, rfl, hcl, hsent⟩
  · exact .error _ ⟨hin, rfl, hcl, hsent⟩

theorem writeMessage_strips (localId : UInt32) (payload : List Byte) :
    Prog.InStep (Strips localId) (writeMessage payload) (writeMessage payload) :=
  Prog.InStep.bind (write_strips localId) fun _ =>
    Prog.InStep.ite Iff.rfl (write_strips localId) (Prog.InStep.pure _)

theorem Strips.record {localId : UInt32} {d d' : Dialogue} (h : Strips localId d d') (event : Event) :
    Strips localId (d.record event) (d'.record event) := by
  refine ⟨h.inbox, h.outcomes, h.closed, ?_⟩
  rw [Dialogue.record, Dialogue.record, sentFrames, sentFrames, List.filterMap_append,
    List.filterMap_append]
  exact congrArg (· ++ _) h.sent

theorem send_strips (localId : UInt32) (header : Message) (payload : List Byte) :
    Prog.InStep (Strips localId) (Dialogue.send header payload) (Dialogue.send header payload) := by
  intro d d' h
  rw [run_send, run_send, h.closed]
  split
  · exact .error _ h
  split
  · exact .error _ h
  match (writeMessage payload).run d, (writeMessage payload).run d',
    writeMessage_strips localId payload d d' h with
  | _, _, .ok () h => exact .ok _ (h.record _)
  | _, _, .error e h => exact .error _ (h.record _)

/-- The next arrival is a frame for a stream other than `localId`. -/
def NextForeign (localId : UInt32) (d : Dialogue) : Prop :=
  d.closed = false ∧ ∃ f rest, d.inbox = .frame f :: rest ∧ f.header.arg1 ≠ localId

/-- Where the next arrival concerns the stream, a receive answers alike. -/
theorem receive_strips {localId : UInt32} {d d' : Dialogue} (h : Strips localId d d')
    (hd : ¬ NextForeign localId d) :
    Prog.EndsAlike (Strips localId) (receive.run d) (receive.run d') := by
  by_cases hopen : d.closed = false
  swap
  · rw [Bool.not_eq_false] at hopen
    rw [receive_closed hopen, receive_closed (h.closed.trans hopen)]
    exact .error _ h
  rw [run_receive hopen, run_receive (h.closed.trans hopen)]
  have hin := h.inbox
  match hinbox : d.inbox with
  | [] =>
    rw [hinbox] at hin
    rw [hin]
    exact .error _ h
  | a :: rest =>
    have ha : concerns localId a = true := by
      cases a with
      | frame f => simpa [concerns] using fun hf => hd ⟨hopen, f, rest, hinbox, hf⟩
      | fault e => rfl
      | violation message => rfl
    rw [hinbox, own, List.filter_cons_of_pos ha] at hin
    rw [hin]
    have hrest : Strips localId { d with inbox := rest } { d' with inbox := own localId rest } :=
      ⟨rfl, h.outcomes, h.closed, h.sent⟩
    cases a with
    | frame f => exact .ok f (hrest.record _)
    | fault e => exact .error e hrest
    | violation message => exact .error _ ⟨rfl, h.outcomes, rfl, h.sent⟩

namespace StreamOn

/-- A frame for another stream is consumed without an answer. -/
theorem receiveMoreTurn_foreign {s t : StreamOn Dialogue} (h : On Strips s t)
    (hnext : NextForeign s.stream.localId s.connection.session) :
    ∃ s', (receiveMoreTurn ()).run s = (.ok (.again ()), s') ∧ On Strips s' t := by
  obtain ⟨hstream, hstrips, hconn⟩ := h
  obtain ⟨hopen, f, rest, hd, hf⟩ := hnext
  refine ⟨s.afterFrame f rest, ?_, hstream, ?_, hconn⟩
  · rw [receiveMoreTurn, Prog.run_bind_ok (run_receive_frame hopen hd)]
    exact handleFrame_skips (s := s.afterFrame f rest) (.inl hf)
  · refine ⟨?_, hstrips.outcomes, hstrips.closed, ?_⟩
    · rw [hstrips.inbox, hd, own, List.filter_cons_of_neg (by simpa [concerns] using hf)]
      rfl
    · rw [hstrips.sent]
      simp [afterFrame, sentFrames]

theorem receiveMoreTurn_own {s t : StreamOn Dialogue} (h : On Strips s t)
    (hnext : ¬ NextForeign s.stream.localId s.connection.session) :
    Prog.EndsAlike (On Strips) ((receiveMoreTurn ()).run s) ((receiveMoreTurn ()).run t) := by
  have hrecv : Prog.EndsAlike (On Strips) ((onConnection Connection.receive).run s)
      ((onConnection Connection.receive).run t) :=
    onConnection_endsAlike h.1 (Connection.onSession_endsAlike h.2.2 (receive_strips h.2.1 hnext))
  rw [receiveMoreTurn]
  exact hrecv.bind fun f => handleFrame_inStep send_strips f

theorem receiveMore_strips :
    Prog.InStep (On Strips) (receiveMore (σ := Dialogue)) (receiveMore (σ := Dialogue)) := by
  intro s t h
  induction hn : s.pending using Nat.strongRecOn generalizing s t with
  | ind n ih =>
    by_cases hnext : NextForeign s.stream.localId s.connection.session
    · obtain ⟨s', hturn, h'⟩ := receiveMoreTurn_foreign h hnext
      rw [receiveMore, Prog.loop_again _ hturn]
      exact ih _ (hn ▸ receiveMoreTurn_decreases _ _ _ _ hturn) s' t h' rfl
    · have hturn := receiveMoreTurn_own h hnext
      rw [receiveMore, Prog.run_loop, Prog.run_loop]
      generalize hs : (receiveMoreTurn ()).run s = r, (receiveMoreTurn ()).run t = r' at hturn
      cases hturn with
      | ok turn h' =>
        cases turn with
        | again _ => exact ih _ (hn ▸ receiveMoreTurn_decreases _ _ _ _ hs) _ _ h' rfl
        | done more => exact .ok more h'
      | error e h' => exact .error e h'

theorem runReads_strips (sizes : List ℕ) {s t : StreamOn Dialogue} (h : On Strips s t) :
    (runReads sizes s).1 = (runReads sizes t).1 ∧
      (runReads sizes s).2.1 = (runReads sizes t).2.1 ∧
      On Strips (runReads sizes s).2.2 (runReads sizes t).2.2 := by
  induction sizes generalizing s t with
  | nil =>
    have hall := readAll_inStep receiveMore_strips s t h
    rw [runReads, runReads]
    generalize readAll.run s = r, readAll.run t = r' at hall
    cases hall with
    | ok bytes h' => exact ⟨rfl, rfl, h'⟩
    | error e h' => exact ⟨rfl, rfl, h'⟩
  | cons size sizes ih =>
    have hread := read_inStep receiveMore_strips size s t h
    rw [runReads, runReads]
    generalize (read size).run s = r, (read size).run t = r' at hread
    cases hread with
    | ok bytes h' =>
      obtain ⟨hpieces, hresult, hafter⟩ := ih h'
      exact ⟨congrArg (bytes :: ·) hpieces, hresult, hafter⟩
    | error e h' => exact ⟨rfl, rfl, h'⟩

/-- The same stream on connections whose inboxes differ in frames for other streams only. -/
structure SameOwn (s t : StreamOn Dialogue) : Prop where
  stream : t.stream = s.stream
  connection : t.connection = { s.connection with session := t.connection.session }
  inbox : own s.stream.localId t.connection.session.inbox =
    own s.stream.localId s.connection.session.inbox
  outcomes : t.connection.session.outcomes = s.connection.session.outcomes
  closed : t.connection.session.closed = s.connection.session.closed
  sent : sentFrames t.connection.session.trace = sentFrames s.connection.session.trace

/-- The stream with the frames for other streams taken out of its inbox. -/
def strip (s : StreamOn Dialogue) : StreamOn Dialogue :=
  { s with connection := { s.connection with session := { s.connection.session with
      inbox := own s.stream.localId s.connection.session.inbox } } }

/-- Frames for other streams change neither the results of reads nor what the host sends. -/
theorem runReads_sameOwn (sizes : List ℕ) {s t : StreamOn Dialogue} (h : SameOwn s t) :
    (runReads sizes t).1 = (runReads sizes s).1 ∧
      (runReads sizes t).2.1 = (runReads sizes s).2.1 ∧
      sentFrames (runReads sizes t).2.2.connection.session.trace =
        sentFrames (runReads sizes s).2.2.connection.session.trace := by
  have hs : On Strips s s.strip := ⟨rfl, ⟨rfl, rfl, rfl, rfl⟩, rfl⟩
  have ht : On Strips t s.strip := by
    refine ⟨h.stream.symm, ⟨?_, h.outcomes.symm, h.closed.symm, h.sent.symm⟩, ?_⟩
    · rw [h.stream]
      exact h.inbox.symm
    · rw [h.connection]
      rfl
  obtain ⟨h1, h2, h3⟩ := runReads_strips sizes hs
  obtain ⟨h1', h2', h3'⟩ := runReads_strips sizes ht
  exact ⟨h1'.trans h1.symm, h2'.trans h2.symm, h3'.2.1.sent.symm.trans h3.2.1.sent⟩

end StreamOn

end Adbcpp
