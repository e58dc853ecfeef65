import Adbcpp.Session.Replaying
import Mathlib.Algebra.Ring.PUnit

/-! A dialogue that is met over a scripted transport. Every arrival that is spelled by some
bytes is scripted as one piece of them, and a fault as the failure of the first read, so
that a session over the script returns what the dialogue returns, call by call. -/

namespace Adbcpp

open Protocol Prog

namespace ScriptedTransport

/-- A piece from which an exact read takes the first bytes. -/
theorem readExact_piece {bytes more : List Byte} {rest : List (Except Error (List Byte))} {t : ScriptedTransport}
    (hne : bytes ≠ []) (h : t.arrivals = .ok (bytes ++ more) :: rest) :
    ∃ t', (readExact bytes.length).run t = (.ok bytes, t') ∧
      t'.arrivals = (if more = [] then rest else .ok more :: rest) ∧ SameWrites t t' := by
  have hpos := List.length_pos_iff.mpr hne
  have htake : takeArrival bytes.length t.arrivals = (.ok bytes, if more = [] then rest else .ok more :: rest) := by
    rw [h, takeArrival, List.take_left, List.drop_left, List.length_append]
    by_cases hmore : more = []
    · simp [hmore]
    · have hlong := List.length_pos_iff.mpr hmore
      rw [if_pos (by omega), if_neg hmore]
  let t' : ScriptedTransport := { t with
    arrivals := if more = [] then rest else .ok more :: rest
    calls := t.calls ++ [.read bytes.length] }
  have hread : (readExactTurn bytes.length []).run t = (.ok (.again bytes), t') := by
    rw [readExactTurn, if_pos (by simpa using hpos), Prog.run_bind, List.length_nil, Nat.sub_zero, run_read, htake]
    dsimp only
    rw [if_neg (by omega)]
    rfl
  refine ⟨t', ?_, rfl, rfl, rfl⟩
  rw [readExact, Prog.loop_again _ hread]
  apply Prog.loop_done
  rw [readExactTurn, if_neg (by omega)]
  rfl

/-- A script whose end has come. -/
theorem readExact_nil {size : ℕ} (hpos : 0 < size) {t : ScriptedTransport} (h : t.arrivals = []) :
    ∃ t', (readExact size).run t = (.error (.of .protocol "unexpected end of stream"), t') ∧ t'.arrivals = [] ∧
      SameWrites t t' := by
  refine ⟨{ t with arrivals := [], calls := t.calls ++ [.read size] }, ?_, rfl, rfl, rfl⟩
  apply Prog.loop_error
  rw [readExactTurn, if_pos (by simpa using hpos), Prog.run_bind, List.length_nil, Nat.sub_zero, run_read, h]
  rfl

/-- A fault that comes before any byte. -/
theorem readExact_error {size : ℕ} (hpos : 0 < size) {e : Error} {rest : List (Except Error (List Byte))}
    {t : ScriptedTransport} (h : t.arrivals = .error e :: rest) :
    ∃ t', (readExact size).run t = (.error e, t') ∧ t'.arrivals = rest ∧ SameWrites t t' := by
  refine ⟨{ t with arrivals := rest, calls := t.calls ++ [.read size] }, ?_, rfl, rfl, rfl⟩
  apply Prog.loop_error
  rw [readExactTurn, if_pos (by simpa using hpos), Prog.run_bind, List.length_nil, Nat.sub_zero, run_read, h]
  rfl

end ScriptedTransport

namespace Session

open ScriptedTransport

variable {s : Session ScriptedTransport}

theorem receive_error (hopen : s.closed = false) {e : Error} {t : ScriptedTransport}
    (h : (readExact kMessageHeaderSize).run s.transport = (.error e, t)) :
    receive.run s = (.error e, { s with transport := t }) := by
  have hrun : (onTransport (readExact kMessageHeaderSize)).run s = (.error e, { s with transport := t }) := by
    rw [run_onTransport, h]
  rw [receive, Prog.run_bind_get, if_neg (by simp [hopen]), Prog.run_bind_error hrun]

/-- A header in a piece with its payload. -/
theorem receive_piece (hopen : s.closed = false) {f : Frame} {rest : List (Except Error (List Byte))}
    (h : s.transport.arrivals = .ok f.bytes :: rest) : ∃ t,
      t.arrivals = (if f.payload = [] then rest else .ok f.payload :: rest) ∧ SameWrites s.transport t ∧
      receive.run s = (if f.header.magic ≠ Message.computeMagic f.header.command then
        framingError "the header magic does not match its command"
      else if f.header.dataLength > kMaxData then
        framingError "the header payload length is past the maximum"
      else receivePayload f.header).run { s with transport := t } := by
  have hne : f.header.encode ≠ [] := List.ne_nil_of_length_pos (by rw [Message.length_encode]; decide)
  obtain ⟨t, hrun, harrivals, hsame⟩ := readExact_piece hne h
  exact ⟨t, harrivals, hsame, run_receive_header hopen hrun⟩

/-- A payload that is a piece of its own. -/
theorem receivePayload_piece {f : Frame} (hsized : f.Sized) {rest : List (Except Error (List Byte))}
    (h : s.transport.arrivals = if f.payload = [] then rest else .ok f.payload :: rest) : ∃ t,
      t.arrivals = rest ∧ SameWrites s.transport t ∧ (receivePayload f.header).run s =
        if f.payload ≠ [] ∧ f.header.dataCheck ≠ 0 ∧ f.header.dataCheck ≠ Message.computeChecksum f.payload then
          (.error (.of .protocol "the header payload checksum does not match the payload"),
            Session.close { s with transport := t })
        else (.ok f, { s with transport := t }) := by
  obtain ⟨header, payload⟩ := f
  have hlength : header.dataLength.toNat = payload.length := hsized
  by_cases hnil : payload = []
  · subst hnil
    refine ⟨s.transport, h, ⟨rfl, rfl⟩, ?_⟩
    rw [receivePayload, if_pos (by simpa using hlength)]
    simp
  · rw [if_neg hnil, ← List.append_nil payload] at h
    obtain ⟨t, hrun, harrivals, hsame⟩ := readExact_piece hnil h
    rw [if_pos rfl] at harrivals
    have hread : (onTransport (readExact header.dataLength.toNat)).run s = (.ok payload, { s with transport := t }) := by
      rw [hlength, run_onTransport, hrun]
    have hne : ¬ header.dataLength.toNat = 0 := by
      rw [hlength, List.length_eq_zero_iff]
      exact hnil
    refine ⟨t, harrivals, hsame, ?_⟩
    rw [receivePayload, if_neg hne, Prog.run_bind_ok hread, Prog.run_ite, run_framingError]
    simp [hnil]

/-- What a script has for an arrival. -/
inductive Scripts : Arrival → Except Error (List Byte) → Prop
  | frame {f : Frame} (sized : f.Sized) (valid : f.Valid) : Scripts (.frame f) (.ok f.bytes)
  | fault {e : Error} : Scripts (.fault e) (.error e)
  | violation {message : String} {bytes : List Byte} (h : Misframed message bytes) :
    Scripts (.violation message) (.ok bytes)

/-- The session is about to meet what the dialogue is about to meet, and has delivered what that has sent. -/
structure Meets (d : Dialogue) (s : Session ScriptedTransport) : Prop where
  closed : s.closed = d.closed
  arrivals : d.closed = false → List.Forall₂ Scripts d.inbox s.transport.arrivals
  outcomes : s.transport.outcomes = d.outcomes
  delivered : Spells Event.Spelled d.trace s.transport.delivered

/-- A dialogue and a session over a script of it, which uses up nothing else. -/
def scripting : Replay Dialogue (Session ScriptedTransport) Unit where
  load s _ := s
  Rel := Meets
  Label _ _ _ _ _ := True
  label_one _ _ := trivial
  label_mul _ _ := trivial

/-- What is left of a script behind a frame that has been received. -/
theorem receive_frame (hopen : s.closed = false) {f : Frame} (hsized : f.Sized) (hvalid : f.Valid)
    {rest : List (Except Error (List Byte))} (h : s.transport.arrivals = .ok f.bytes :: rest) :
    ∃ t, receive.run s = (.ok f, { s with transport := t }) ∧ t.arrivals = rest ∧ SameWrites s.transport t := by
  obtain ⟨t, harrivals, hsame, hrun⟩ := receive_piece hopen h
  obtain ⟨u, hrest, hsame', hpayload⟩ := receivePayload_piece (s := { s with transport := t }) hsized harrivals
  refine ⟨u, ?_, hrest, hsame'.1.trans hsame.1, hsame'.2.trans hsame.2⟩
  rw [hrun, if_neg (not_not.mpr hvalid.magic), if_neg (UInt32.not_lt.mpr hvalid.length), hpayload, if_neg]
  rintro ⟨hne, hset, hbad⟩
  rcases hvalid.check with hcheck | hcheck | hcheck
  · exact hne hcheck
  · exact hset hcheck
  · exact hbad hcheck

/-- Bytes that violate the framing close the session. -/
theorem receive_violation (hopen : s.closed = false) {message : String} {bytes : List Byte}
    (hmisframed : Misframed message bytes) {rest : List (Except Error (List Byte))}
    (h : s.transport.arrivals = .ok bytes :: rest) : ∃ t,
      receive.run s = (.error (.of .protocol message), { s with transport := t, closed := true }) ∧
      SameWrites s.transport t := by
  have hclose : ∀ {t}, SameWrites s.transport t → ∃ u,
      Session.close ({ s with transport := t } : Session ScriptedTransport) = { s with transport := u, closed := true } ∧
      SameWrites s.transport u := by
    intro t hsame
    refine ⟨Transport.close t, ?_, hsame⟩
    rw [close, if_neg (by simp [hopen])]
  have hheader : ∀ {header : Message}, bytes = header.encode → s.transport.arrivals = .ok (Frame.bytes ⟨header, []⟩) :: rest := by
    intro header hbytes
    rw [h, hbytes, Frame.bytes, Message.frameBytes, List.append_nil]
  cases hmisframed with
  | magic hmagic =>
    obtain ⟨t, -, hsame, hrun⟩ := receive_piece hopen (hheader rfl)
    obtain ⟨u, hclosed, hsame'⟩ := hclose hsame
    exact ⟨u, by rw [hrun, if_pos hmagic, run_framingError, hclosed], hsame'⟩
  | length hmagic hlength =>
    obtain ⟨t, -, hsame, hrun⟩ := receive_piece hopen (hheader rfl)
    obtain ⟨u, hclosed, hsame'⟩ := hclose hsame
    exact ⟨u, by rw [hrun, if_neg (not_not.mpr hmagic), if_pos hlength, run_framingError, hclosed], hsame'⟩
  | @checksum f hsized hsound hne hset hbad =>
    obtain ⟨t, harrivals, hsame, hrun⟩ := receive_piece hopen h
    obtain ⟨v, -, hsame', hpayload⟩ := receivePayload_piece (s := { s with transport := t }) hsized harrivals
    obtain ⟨u, hclosed, hsame''⟩ := hclose ⟨hsame'.1.trans hsame.1, hsame'.2.trans hsame.2⟩
    refine ⟨u, ?_, hsame''⟩
    rw [hrun, if_neg (not_not.mpr hsound.1), if_neg (UInt32.not_lt.mpr hsound.2), hpayload,
      if_pos ⟨hne, hset, hbad⟩, hclosed]

theorem receive_scripted : scripting.Replays Dialogue.receive (receive : Action (Session ScriptedTransport) Frame) := by
  refine .of_idle fun d s hR => ?_
  have hmeets : Meets d s := hR
  rcases hopen : d.closed with _ | _
  swap
  · have hclosed := hmeets.closed.trans hopen
    rw [Dialogue.receive_closed hopen]
    exact ⟨s, trivial, hR, fun _ => receive_closed hclosed⟩
  have hopen' : s.closed = false := hmeets.closed.trans hopen
  have harrivals := hmeets.arrivals hopen
  have hpos : 0 < kMessageHeaderSize := by decide
  rw [Dialogue.run_receive hopen]
  match hinbox : d.inbox with
  | [] =>
    rw [hinbox, List.forall₂_nil_left_iff] at harrivals
    obtain ⟨t, hrun, hrest, hsame⟩ := readExact_nil hpos harrivals
    refine ⟨{ s with transport := t }, trivial, ⟨hmeets.closed, fun _ => ?_, hsame.1.trans hmeets.outcomes, ?_⟩,
      fun _ => receive_error hopen' hrun⟩
    · rw [hinbox, hrest]
      exact .nil
    · rw [hsame.2]
      exact hmeets.delivered
  | .frame f :: rest =>
    rw [hinbox, List.forall₂_cons_left_iff] at harrivals
    obtain ⟨_, pieces, hframe, hpieces, harrivals⟩ := harrivals
    cases hframe with
    | frame hsized hvalid =>
      obtain ⟨t, hrun, hrest, hsame⟩ := receive_frame hopen' hsized hvalid harrivals
      refine ⟨{ s with transport := t }, trivial, ⟨hmeets.closed, fun _ => ?_, hsame.1.trans hmeets.outcomes, ?_⟩,
        fun _ => hrun⟩
      · rw [hrest]
        exact hpieces
      · have hrecorded := hmeets.delivered.append (.one (.received (f := f)))
        rw [List.append_nil, ← hsame.2] at hrecorded
        exact hrecorded
  | .fault e :: rest =>
    rw [hinbox, List.forall₂_cons_left_iff] at harrivals
    obtain ⟨_, pieces, hfault, hpieces, harrivals⟩ := harrivals
    cases hfault with
    | fault =>
      obtain ⟨t, hrun, hrest, hsame⟩ := readExact_error hpos harrivals
      refine ⟨{ s with transport := t }, trivial, ⟨hmeets.closed, fun _ => ?_, hsame.1.trans hmeets.outcomes, ?_⟩,
        fun _ => receive_error hopen' hrun⟩
      · rw [hrest]
        exact hpieces
      · rw [hsame.2]
        exact hmeets.delivered
  | .violation message :: rest =>
    rw [hinbox, List.forall₂_cons_left_iff] at harrivals
    obtain ⟨_, pieces, hviolation, hpieces, harrivals⟩ := harrivals
    cases hviolation with
    | violation hmisframed =>
      obtain ⟨t, hrun, hsame⟩ := receive_violation hopen' hmisframed harrivals
      refine ⟨{ s with transport := t, closed := true }, trivial,
        ⟨rfl, fun h => (nomatch h), hsame.1.trans hmeets.outcomes, ?_⟩, fun _ => hrun⟩
      rw [hsame.2]
      exact hmeets.delivered

/-- One write of both, which ends alike and delivers a beginning of its data. -/
theorem write_scripted (data : List Byte) {d : Dialogue} {s : Session ScriptedTransport}
    (h : s.transport.outcomes = d.outcomes) : ∃ r t bytes os,
      (onTransport (Transport.write data)).run s = (r, { s with transport := t }) ∧
      Dialogue.write.run d = (r, { d with outcomes := os }) ∧ t.outcomes = os ∧ t.arrivals = s.transport.arrivals ∧
      t.delivered = s.transport.delivered ++ bytes ∧ bytes <+: data ∧ (r = .ok () → bytes = data) := by
  rw [run_onTransport, run_write, Dialogue.run_write]
  unfold Prog.run ScriptedTransport.write
  rw [h]
  match ho : d.outcomes with
  | [] =>
    have hd : d = { d with outcomes := [] } := by rw [← ho]
    exact ⟨_, _, data, [], rfl, congrArg (Prod.mk _) hd, rfl, rfl, rfl, List.prefix_rfl, fun _ => rfl⟩
  | .accepted :: rest => exact ⟨_, _, data, rest, rfl, rfl, rfl, rfl, rfl, List.prefix_rfl, fun _ => rfl⟩
  | .failed n e :: rest =>
    exact ⟨_, _, data.take n, rest, rfl, rfl, rfl, rfl, rfl, List.take_prefix _ _, fun hok => nomatch hok⟩

/-- The writes of a message. -/
theorem writeMessage_scripted (header : Message) (payload : List Byte) {d : Dialogue} {s : Session ScriptedTransport}
    (h : s.transport.outcomes = d.outcomes) : ∃ r t bytes os,
      (do onTransport (Transport.write header.encode); if payload ≠ [] then onTransport (Transport.write payload) :
        Action (Session ScriptedTransport) Unit).run s = (r, { s with transport := t }) ∧
      (Dialogue.writeMessage payload).run d = (r, { d with outcomes := os }) ∧ t.outcomes = os ∧
      t.arrivals = s.transport.arrivals ∧ t.delivered = s.transport.delivered ++ bytes ∧
      bytes <+: header.frameBytes payload ∧ (r = .ok () → bytes = header.frameBytes payload) := by
  obtain ⟨r, t, bytes, os, hrun, hwrite, houtcomes, harrivals, hdelivered, hprefix, hall⟩ :=
    write_scripted header.encode h
  unfold Message.frameBytes Dialogue.writeMessage
  cases r with
  | error e =>
    rw [Prog.run_bind_error hrun, Prog.run_bind_error hwrite]
    exact ⟨_, t, bytes, os, rfl, rfl, houtcomes, harrivals, hdelivered, hprefix.trans (List.prefix_append _ _),
      fun hok => nomatch hok⟩
  | ok =>
    obtain rfl := hall rfl
    rw [Prog.run_bind_ok hrun, Prog.run_bind_ok hwrite]
    by_cases hnil : payload = []
    · subst hnil
      rw [List.append_nil]
      exact ⟨.ok (), t, header.encode, os, rfl, rfl, houtcomes, harrivals, hdelivered, List.prefix_rfl, fun _ => rfl⟩
    · obtain ⟨r', t', bytes', os', hrun', hwrite', houtcomes', harrivals', hdelivered', hprefix', hall'⟩ :=
        write_scripted payload (d := { d with outcomes := os }) (s := { s with transport := t }) houtcomes
      rw [if_pos hnil, if_pos hnil, hrun', hwrite']
      refine ⟨r', t', header.encode ++ bytes', os', rfl, rfl, houtcomes', harrivals'.trans harrivals, ?_,
        (List.prefix_append_right_inj _).mpr hprefix', fun hok => by rw [hall' hok]⟩
      rw [hdelivered', hdelivered, List.append_assoc]

theorem send_scripted (header : Message) (payload : List Byte) : scripting.Replays (Dialogue.send header payload)
    (send header payload : Action (Session ScriptedTransport) Unit) := by
  refine .of_idle fun d s hR => ?_
  have hmeets : Meets d s := hR
  rw [Dialogue.run_send]
  rcases hopen : d.closed with _ | _
  swap
  · have hclosed := hmeets.closed.trans hopen
    exact ⟨s, trivial, hR, fun _ => send_closed hclosed header payload⟩
  have hopen' : s.closed = false := hmeets.closed.trans hopen
  rw [if_neg (by decide)]
  by_cases hsized : header.dataLength.toNat = payload.length
  swap
  · rw [if_pos hsized]
    refine ⟨s, trivial, hR, fun _ => ?_⟩
    show (send header payload).run s = _
    rw [send, Prog.run_bind_get, if_neg (by simp [hopen']), if_pos hsized]
    rfl
  rw [if_neg (not_not.mpr hsized)]
  obtain ⟨r, t, bytes, os, hrun, hwrites, houtcomes, harrivals, hdelivered, hprefix, hall⟩ :=
    writeMessage_scripted header payload hmeets.outcomes
  have hsend : (send header payload).run s = (r, { s with transport := t }) := by
    rw [send, Prog.run_bind_get, if_neg (by simp [hopen']), if_neg (not_not.mpr hsized), hrun]
  have hinbox : d.closed = false → List.Forall₂ Scripts d.inbox t.arrivals := by
    rw [harrivals]
    exact hmeets.arrivals
  rw [hwrites]
  cases r with
  | ok u =>
    refine ⟨{ s with transport := t }, trivial, ⟨hmeets.closed, hinbox, houtcomes, ?_⟩, fun _ => hsend⟩
    rw [hall rfl] at hdelivered
    have hrecorded := hmeets.delivered.append (.one (.sent (f := ⟨header, payload⟩) hsized))
    rw [Frame.bytes, ← hdelivered] at hrecorded
    exact hrecorded
  | error e =>
    refine ⟨{ s with transport := t }, trivial, ⟨hmeets.closed, hinbox, houtcomes, ?_⟩, fun _ => hsend⟩
    have hrecorded := hmeets.delivered.append (.one (.unsent (f := ⟨header, payload⟩) hsized hprefix))
    rw [← hdelivered] at hrecorded
    exact hrecorded

theorem scripted : Channel.Replayed scripting := ⟨send_scripted, receive_scripted⟩

end Session

end Adbcpp
