import Adbcpp.Stream.Taking

/-! What opening and closing a stream do on the wire. An open sends its OPEN and takes
frames up to the first one for the new stream; one that fails destroys the stream
object, which sends a CLSE. -/

namespace Adbcpp

open Protocol Dialogue StreamOn

def closeFrame (localId remoteId : UInt32) : Frame := ⟨makeEmptyMessage kClse localId remoteId, []⟩

def openFrame (localId window : UInt32) (payload : List Byte) : Frame where
  header := { command := kOpen, arg0 := localId, arg1 := window,
              dataLength := UInt32.ofNat payload.length, dataCheck := Message.computeChecksum payload,
              magic := Message.computeMagic kOpen }
  payload := payload

/-- The frames up to the first one for the stream `localId`. -/
def awaited (localId : UInt32) : List Arrival → List Frame
  | .frame f :: rest => f :: if f.header.arg1 = localId then [] else awaited localId rest
  | _ => []

theorem awaited_passed {localId : UInt32} {passed : List Frame} (h : ∀ f ∈ passed, f.header.arg1 ≠ localId)
    (rest : List Arrival) :
    awaited localId (passed.map .frame ++ rest) = passed ++ awaited localId rest := by
  induction passed with
  | nil => rfl
  | cons f passed ih =>
    rw [List.map_cons, List.cons_append, awaited, if_neg (h f List.mem_cons_self),
      ih fun g hg => h g (List.mem_cons_of_mem f hg)]
    rfl

theorem awaited_found {localId : UInt32} {passed : List Frame} (h : ∀ f ∈ passed, f.header.arg1 ≠ localId)
    {f : Frame} (hid : f.header.arg1 = localId) (rest : List Arrival) :
    awaited localId (passed.map .frame ++ .frame f :: rest) = passed ++ [f] := by
  rw [awaited_passed h, awaited, if_pos hid]

theorem awaited_none {localId : UInt32} {rest : List Arrival} (h : ∀ f rest', rest ≠ .frame f :: rest') :
    awaited localId rest = [] := by
  match rest with
  | [] => rfl
  | .fault e :: rest => rfl
  | .violation message :: rest => rfl
  | .frame f :: rest => exact absurd rfl (h f rest)

namespace Dialogue

/-- On an open session a message with its own payload is attempted. -/
theorem send_attempted {d : Dialogue} {f : Frame} (hopen : d.closed = false) (hf : f.Sized) :
    ∃ r d' new, (send f.header f.payload).run d = (r, d') ∧ Attempt f r new ∧ new ≠ [] ∧
      d'.inbox = d.inbox ∧ d'.closed = d.closed ∧ d'.trace = d.trace ++ new := by
  have hlen : ¬ f.header.dataLength.toNat ≠ f.payload.length := not_not.mpr hf
  have hsame := writeMessage_sameInbox f.payload d
  rw [run_send, if_neg (by simp [hopen]), if_neg hlen]
  match hrun : (writeMessage f.payload).run d with
  | (.ok (), d') =>
    rw [hrun] at hsame
    exact ⟨_, _, [.sent f], rfl, .sent, nofun, hsame.1, hsame.2.1, by rw [record, hsame.2.2]⟩
  | (.error e, d') =>
    rw [hrun] at hsame
    exact ⟨_, _, [.unsent f], rfl, .unsent e, nofun, hsame.1, hsame.2.1, by rw [record, hsame.2.2]⟩

end Dialogue

namespace StreamOn

/-! ### Closing -/

theorem closeNow_closed {s : StreamOn Dialogue} (h : s.stream.closed = true) : s.closeNow = s := by
  rw [closeNow, if_pos h]

/-- A stream that is not closed attempts one CLSE, unless its session is closed. -/
theorem closeNow_open {s : StreamOn Dialogue} (h : s.stream.closed = false) :
    ∃ r d new, s.closeNow = (s.setStream fun t => { t with closed := true }).withSession d ∧
      Attempt (closeFrame s.stream.localId s.stream.remoteId) r new ∧
      (s.session.closed = false → new ≠ []) ∧ d.inbox = s.session.inbox ∧
      d.closed = s.session.closed ∧ d.trace = s.session.trace ++ new := by
  have hclose (r : Except Error Unit) (d : Dialogue)
      (hrun : (send (closeFrame s.stream.localId s.stream.remoteId).header []).run s.session = (r, d)) :
      s.closeNow = (s.setStream fun t => { t with closed := true }).withSession d := by
    have hsend := run_send_session (s := s.setStream fun t => { t with closed := true }) hrun
    rw [closeNow, if_neg (by simp [h])]
    exact congrArg Prod.snd hsend
  by_cases hopen : s.session.closed = false
  · obtain ⟨r, d, new, hrun, hattempt, hnew, hinbox, hclosed, htrace⟩ :=
      send_attempted (f := closeFrame s.stream.localId s.stream.remoteId) hopen rfl
    exact ⟨r, d, new, hclose r d hrun, hattempt, fun _ => hnew, hinbox, hclosed, htrace⟩
  · obtain ⟨r, d, new, hrun, hattempt, hinbox, hclosed, htrace⟩ := send_attempt
      (closeFrame s.stream.localId s.stream.remoteId).header [] s.session
    exact ⟨r, d, new, hclose r d hrun, hattempt, fun h => absurd h hopen, hinbox, hclosed, htrace⟩

/-! ### Waiting for the answer -/

/-- What waiting for the answer to an OPEN does on an open session. -/
inductive Awaits (s : StreamOn Dialogue) : List Frame → Except Error Unit × StreamOn Dialogue → Prop
  | failed {passed : List Frame} {lost rest : List Arrival} {e : Error} {closed : Bool} :
      (∀ f ∈ passed, f.header.arg1 ≠ s.stream.localId) →
      s.session.inbox = passed.map .frame ++ (lost ++ rest) → (∀ f, .frame f ∉ lost) →
      (∀ f rest', lost ++ rest ≠ .frame f :: rest') →
      Awaits s passed
        (.error e, s.withSession { s.session.absorb passed rest with closed := closed })
  | accepted {passed : List Frame} {f : Frame} {rest : List Arrival} :
      (∀ f ∈ passed, f.header.arg1 ≠ s.stream.localId) → f.header.arg1 = s.stream.localId →
      f.header.command = kOkay → s.session.inbox = passed.map .frame ++ .frame f :: rest →
      Awaits s (passed ++ [f]) (.ok (), (s.setStream fun t => { t with remoteId := f.header.arg0 }).withSession
        (s.session.absorb (passed ++ [f]) rest))
  | refused {passed : List Frame} {f : Frame} {rest : List Arrival} {e : Error} :
      (∀ f ∈ passed, f.header.arg1 ≠ s.stream.localId) → f.header.arg1 = s.stream.localId →
      f.header.command ≠ kOkay → s.session.inbox = passed.map .frame ++ .frame f :: rest →
      Awaits s (passed ++ [f]) (.error e, s.withSession (s.session.absorb (passed ++ [f]) rest))

theorem Awaits.pass {s : StreamOn Dialogue} {f : Frame} {rest : List Arrival} {fs : List Frame}
    {r : Except Error Unit × StreamOn Dialogue} (hd : s.session.inbox = .frame f :: rest)
    (hf : f.header.arg1 ≠ s.stream.localId) (h : Awaits (s.afterFrame f rest) fs r) : Awaits s (f :: fs) r := by
  have hpassed : ∀ {passed : List Frame},
      (∀ g ∈ passed, g.header.arg1 ≠ (s.afterFrame f rest).stream.localId) →
      ∀ g ∈ f :: passed, g.header.arg1 ≠ s.stream.localId := by
    intro passed h g hg
    rcases List.mem_cons.mp hg with rfl | hg
    · exact hf
    · exact h g hg
  have habsorb (fs : List Frame) (rest' : List Arrival) :
      (s.afterFrame f rest).session.absorb fs rest' = s.session.absorb (f :: fs) rest' := by
    simp [absorb, session, afterFrame]
  cases h with
  | failed hpass hinbox hlost hnone =>
    rw [habsorb]
    exact .failed (hpassed hpass) (hd.trans (congrArg _ hinbox)) hlost hnone
  | accepted hpass hid hokay hinbox =>
    rw [habsorb]
    exact .accepted (hpassed hpass) hid hokay (hd.trans (congrArg _ hinbox))
  | refused hpass hid hokay hinbox =>
    rw [habsorb]
    exact .refused (hpassed hpass) hid hokay (hd.trans (congrArg _ hinbox))

theorem awaitOpen_awaits {s : StreamOn Dialogue} (hopen : s.session.closed = false) :
    ∃ fs, Awaits s fs (awaitOpen.run s) := by
  have hfailed : ∀ s : StreamOn Dialogue, s.session.closed = false →
      (∀ f rest, s.session.inbox ≠ .frame f :: rest) → Awaits s [] (awaitOpen.run s) := by
    intro s hopen hd
    obtain ⟨e, d, hrun, ⟨hout, htrace, lost, hinbox, hlost⟩, -⟩ := run_receive_failed (.inr hd)
    have hsession : d = { s.session.absorb [] d.inbox with closed := d.closed } := by
      obtain ⟨inbox, outcomes, closed, trace⟩ := d
      simpa [absorb] using ⟨hout, htrace⟩
    have hawaits := @Awaits.failed s [] lost d.inbox e d.closed (by simp) hinbox hlost (hinbox ▸ hd)
    rw [← hsession] at hawaits
    rw [awaitOpen, Prog.loop_error _ (Prog.run_bind_error hrun)]
    exact hawaits
  induction hd : s.session.inbox generalizing s with
  | nil => exact ⟨[], hfailed s hopen (by simp [hd])⟩
  | cons a rest ih =>
    cases a with
    | fault e => exact ⟨[], hfailed s hopen (by simp [hd])⟩
    | violation message => exact ⟨[], hfailed s hopen (by simp [hd])⟩
    | frame f =>
      have hnone : ∀ g ∈ ([] : List Frame), g.header.arg1 ≠ s.stream.localId := by simp
      have hrun := run_receive_frame hopen hd
      by_cases hid : f.header.arg1 = (s.afterFrame f rest).stream.localId
      swap
      · have hturn : (awaitOpenTurn ()).run s = (.ok (.again ()), s.afterFrame f rest) := by
          rw [awaitOpenTurn, Prog.run_bind_ok hrun, Prog.run_bind_get, if_pos hid]
          rfl
        rw [awaitOpen, Prog.loop_again _ hturn]
        obtain ⟨fs, h⟩ := @ih (s.afterFrame f rest) hopen rfl
        exact ⟨f :: fs, h.pass hd hid⟩
      by_cases hokay : f.header.command = kOkay
      · have hturn : (awaitOpenTurn ()).run s = (.ok (.done ()),
            (s.setStream fun t => { t with remoteId := f.header.arg0 }).withSession (s.session.absorb ([] ++ [f]) rest)) := by
          rw [awaitOpenTurn, Prog.run_bind_ok hrun, Prog.run_bind_get, if_neg (not_not.mpr hid),
            if_neg (not_not.mpr hokay)]
          rfl
        rw [awaitOpen, Prog.loop_done _ hturn]
        exact ⟨[f], @Awaits.accepted s [] f rest hnone hid hokay hd⟩
      · have hturn : (awaitOpenTurn ()).run s = (.error (.of .protocol "failed to open the stream"),
            s.withSession (s.session.absorb ([] ++ [f]) rest)) := by
          rw [awaitOpenTurn, Prog.run_bind_ok hrun, Prog.run_bind_get, if_neg (not_not.mpr hid), if_pos hokay]
          rfl
        rw [awaitOpen, Prog.loop_error _ hturn]
        exact ⟨[f], @Awaits.refused s [] f rest _ hnone hid hokay hd⟩

end StreamOn

/-! ### Opening -/

/-- The OPEN of the next stream. -/
def openOf (service : List Byte) (c : Connection Dialogue) : Frame :=
  openFrame c.nextLocalId (if c.delayedAck then kInitialDelayedAckBytes else 0) (service ++ [0])

/-- The OPEN of the next stream goes out whole, header and payload. -/
def OpenGoes (service : List Byte) (c : Connection Dialogue) : Prop :=
  c.session.closed = false ∧ service.length + 1 < 2 ^ 32 ∧ ∀ o ∈ c.session.outcomes.take 2, o = .accepted

instance (service : List Byte) (c : Connection Dialogue) : Decidable (OpenGoes service c) :=
  inferInstanceAs (Decidable (_ ∧ _))

/-- The frames that an open takes. -/
def openTaken (service : List Byte) (c : Connection Dialogue) : List Frame :=
  if OpenGoes service c then awaited c.nextLocalId c.session.inbox else []

/-- How an open goes: what it takes, its result, and what goes by. -/
inductive Opening (service : List Byte) (c : Connection Dialogue) :
    List Frame → Except Error Stream → List Event → Prop
  | unsent {e : Error} {r r' : Except Error Unit} {new es : List Event} :
      Attempt (openOf service c) r new → r ≠ .ok () → Attempt (closeFrame c.nextLocalId 0) r' es →
      Opening service c [] (.error e) (new ++ es)
  | unanswered {fs : List Frame} {e : Error} {r : Except Error Unit} {es : List Event} :
      (∀ f ∈ fs, f.header.arg1 ≠ c.nextLocalId) → Attempt (closeFrame c.nextLocalId 0) r es →
      Opening service c fs (.error e) (.sent (openOf service c) :: (fs.map .received ++ es))
  | refused {passed : List Frame} {f : Frame} {e : Error} {r : Except Error Unit} {es : List Event} :
      (∀ f ∈ passed, f.header.arg1 ≠ c.nextLocalId) → f.header.arg1 = c.nextLocalId →
      f.header.command ≠ kOkay → Attempt (closeFrame c.nextLocalId 0) r es →
      Opening service c (passed ++ [f]) (.error e)
        (.sent (openOf service c) :: ((passed ++ [f]).map .received ++ es))
  | accepted {passed : List Frame} {f : Frame} :
      (∀ f ∈ passed, f.header.arg1 ≠ c.nextLocalId) → f.header.arg1 = c.nextLocalId →
      f.header.command = kOkay → Opening service c (passed ++ [f])
        (.ok { service, localId := c.nextLocalId, remoteId := f.header.arg0 })
        (.sent (openOf service c) :: (passed ++ [f]).map .received)

theorem Opening.localId {service : List Byte} {c : Connection Dialogue} {fs : List Frame} {stream : Stream}
    {es : List Event} (h : Opening service c fs (.ok stream) es) : stream.localId = c.nextLocalId := by
  cases h
  rfl

theorem Opening.replies {service : List Byte} {c : Connection Dialogue} {fs : List Frame}
    {r : Except Error Stream} {es : List Event} (h : Opening service c fs r es) : Adbcpp.replies es = fs := by
  cases h with
  | unsent hattempt _ hend => rw [replies_append, hattempt.replies, hend.replies, List.append_nil]
  | unanswered _ hend =>
    rw [replies_sent, replies_append, replies_map_received, hend.replies, List.append_nil]
  | refused _ _ _ hend =>
    rw [replies_sent, replies_append, replies_map_received, hend.replies, List.append_nil]
  | accepted => rw [replies_sent, replies_map_received]

/-- What an open attempts is its OPEN and the CLSE of its stream object. -/
theorem Opening.attempts {service : List Byte} {c : Connection Dialogue} {fs : List Frame}
    {r : Except Error Stream} {es : List Event} (h : Opening service c fs r es) :
    ∀ g ∈ Adbcpp.attempts es, g = openOf service c ∨ g = closeFrame c.nextLocalId 0 := by
  intro g hg
  cases h with
  | unsent hattempt _ hend =>
    rw [attempts_append] at hg
    exact (List.mem_append.mp hg).imp (hattempt.attempts g) (hend.attempts g)
  | unanswered _ hend | refused _ _ _ hend =>
    rw [attempts_sent, attempts_append, attempts_map_received, List.nil_append] at hg
    exact (List.mem_cons.mp hg).imp id (hend.attempts g)
  | accepted =>
    rw [attempts_sent, attempts_map_received] at hg
    exact .inl (List.mem_singleton.mp hg)

/-- A message with a payload is two writes. -/
theorem writeMessage_two {payload : List Byte} (hnil : payload ≠ []) (d : Dialogue) :
    ((writeMessage payload).run d).1 = .ok () ↔ ∀ o ∈ d.outcomes.take 2, o = .accepted := by
  rw [writeMessage, Prog.run_bind, run_write, if_pos hnil]
  cases hd : d.outcomes with
  | nil => simp [run_write, hd]
  | cons o rest =>
    cases o with
    | failed n e => simp
    | accepted =>
      cases rest with
      | nil => simp [run_write]
      | cons o' rest => cases o' <;> simp [run_write]

/-- The stream object of an open before anything is sent. -/
def nascent (service : List Byte) (c : Connection Dialogue) : StreamOn Dialogue :=
  ⟨{ service, localId := c.nextLocalId }, c.allocateLocalId.2⟩

/-- An open that fails closes its stream object. -/
theorem open_failed {service : List Byte} {c : Connection Dialogue} {e : Error} {d : Dialogue}
    (hrun : sendOpen.run (nascent service c) = (.error e, (nascent service c).withSession d)) :
    ∃ r es d', (Stream.open service).run c =
        (.error e, { c with session := d', nextLocalId := c.nextLocalId + 1 }) ∧
      Attempt (closeFrame c.nextLocalId 0) r es ∧ d'.inbox = d.inbox ∧ d'.closed = d.closed ∧
      d'.trace = d.trace ++ es := by
  obtain ⟨r, d', es, hclose, hattempt, -, hinbox, hclosed, htrace⟩ :=
    closeNow_open (s := (nascent service c).withSession d) rfl
  refine ⟨r, es, d', ?_, hattempt, hinbox, hclosed, htrace⟩
  rw [nascent] at hrun
  rw [Stream.run_open, hrun]
  exact congrArg (fun s : StreamOn Dialogue => (Except.error e, s.connection)) hclose

theorem length_service (service : List Byte) : (service ++ [0]).length = service.length + 1 :=
  List.length_append

theorem openOf_sized {service : List Byte} (h : service.length + 1 < 2 ^ 32) (c : Connection Dialogue) :
    (openOf service c).Sized := by
  rw [Frame.Sized, openOf, openFrame, UInt32.toNat_ofNat', length_service]
  exact Nat.mod_eq_of_lt h

/-- The message of an open is its OPEN. -/
theorem run_sendOpen {service : List Byte} {c : Connection Dialogue} (h : service.length + 1 < 2 ^ 32) :
    sendOpen.run (nascent service c) =
      (onConnection (Connection.send (openOf service c).header (openOf service c).payload) >>= fun _ =>
        awaitOpen).run (nascent service c) := by
  have hmessage : makeMessage kOpen c.nextLocalId (if c.delayedAck then kInitialDelayedAckBytes else 0)
      (service ++ [0]) = .ok (openOf service c).header := by
    rw [makeMessage, Message.dataLengthOf_ok (by rwa [length_service])]
    rfl
  rw [sendOpen, Prog.run_bind_get]
  change (Prog.lift (makeMessage kOpen c.nextLocalId (if c.delayedAck then kInitialDelayedAckBytes else 0)
      (service ++ [0])) >>= _).run (nascent service c) = _
  rw [hmessage]
  rfl

/-- An open whose OPEN goes out waits for the answer. -/
theorem run_sendOpen_goes {service : List Byte} {c : Connection Dialogue} (h : OpenGoes service c) :
    ∃ d, sendOpen.run (nascent service c) = awaitOpen.run ((nascent service c).withSession d) ∧
      d.closed = false ∧ d.inbox = c.session.inbox ∧
      d.trace = c.session.trace ++ [.sent (openOf service c)] := by
  obtain ⟨hopen, hlt, hall⟩ := h
  have hsame := writeMessage_sameInbox (openOf service c).payload c.session
  have hlen : ¬ (openOf service c).header.dataLength.toNat ≠ (openOf service c).payload.length :=
    not_not.mpr (openOf_sized hlt c)
  have hpayload : (openOf service c).payload ≠ [] := by simp [openOf, openFrame]
  have hok := (writeMessage_two hpayload c.session).mpr hall
  match hwrite : (writeMessage (openOf service c).payload).run c.session with
  | (.error e, d) =>
    rw [hwrite] at hok
    cases hok
  | (.ok (), d) =>
    rw [hwrite] at hsame
    have hsend : (send (openOf service c).header (openOf service c).payload).run (nascent service c).session =
        (.ok (), d.record (.sent (openOf service c))) := by
      change (send (openOf service c).header (openOf service c).payload).run c.session = _
      rw [run_send, if_neg (by simp [hopen]), if_neg hlen, hwrite]
    refine ⟨d.record (.sent (openOf service c)), ?_, hsame.2.1.trans hopen, hsame.1, ?_⟩
    · rw [run_sendOpen hlt, Prog.run_bind_ok (run_send_session hsend)]
    · rw [record, hsame.2.2]

theorem run_sendOpen_stays {service : List Byte} {c : Connection Dialogue} (h : ¬ OpenGoes service c) :
    ∃ e r new d, sendOpen.run (nascent service c) = (.error e, (nascent service c).withSession d) ∧
      Attempt (openOf service c) r new ∧ r ≠ .ok () ∧ d.inbox = c.session.inbox ∧
      d.closed = c.session.closed ∧ d.trace = c.session.trace ++ new := by
  by_cases hlt : service.length + 1 < 2 ^ 32
  swap
  · have hmessage : makeMessage kOpen c.nextLocalId (if c.delayedAck then kInitialDelayedAckBytes else 0)
        (service ++ [0]) = .error (.of .invalidArgument "the payload is too large for the ADB header") := by
      rw [makeMessage, Message.dataLengthOf, if_pos (by rw [length_service]; omega)]
      rfl
    refine ⟨.of .invalidArgument "the payload is too large for the ADB header",
      .error (.of .invalidArgument "the payload is too large for the ADB header"), [], c.session, ?_,
      .refused _, by simp, rfl, rfl, (List.append_nil _).symm⟩
    rw [sendOpen, Prog.run_bind_get]
    change (Prog.lift (makeMessage kOpen c.nextLocalId (if c.delayedAck then kInitialDelayedAckBytes else 0)
      (service ++ [0])) >>= _).run (nascent service c) = _
    rw [hmessage]
    rfl
  obtain ⟨r, d, new, hrun, hattempt, hinbox, hclosed, htrace⟩ := send_attempt
    (openOf service c).header (openOf service c).payload c.session
  have hr : r ≠ .ok () := by
    rintro rfl
    refine h ⟨?_, hlt, ?_⟩
    · rw [run_send] at hrun
      split at hrun
      · cases hrun
      · simpa using ‹¬ c.session.closed = true›
    · have hpayload : (openOf service c).payload ≠ [] := by simp [openOf, openFrame]
      rw [← writeMessage_two hpayload]
      rw [run_send] at hrun
      split at hrun
      · cases hrun
      split at hrun
      · cases hrun
      split at hrun
      next hwrite => rw [hwrite]
      next => cases hrun
  cases r with
  | ok => exact absurd rfl hr
  | error e =>
    have hsend := run_send_session (s := nascent service c) hrun
    refine ⟨e, _, new, d, ?_, hattempt, hr, hinbox, hclosed, htrace⟩
    rw [run_sendOpen hlt, Prog.run_bind_error hsend]

/-- An open whose OPEN does not go out takes nothing, and fails. -/
theorem open_stays {service : List Byte} {c : Connection Dialogue} (h : ¬ OpenGoes service c) : ∃ e es d,
    (Stream.open service).run c = (.error e, { c with session := d, nextLocalId := c.nextLocalId + 1 }) ∧
      Opening service c [] (.error e) es ∧ d.inbox = c.session.inbox ∧ d.closed = c.session.closed ∧
      d.trace = c.session.trace ++ es := by
  obtain ⟨e, r, new, d, hrun, hattempt, hr, hinbox, hclosed, htrace⟩ := run_sendOpen_stays h
  obtain ⟨r', es, d', hopen, hclose, hinbox', hclosed', htrace'⟩ := open_failed hrun
  refine ⟨e, new ++ es, d', hopen, .unsent hattempt hr hclose, hinbox'.trans hinbox, hclosed'.trans hclosed, ?_⟩
  rw [htrace', htrace, List.append_assoc]

/-- What an open does, for every device. -/
theorem open_opening (service : List Byte) (c : Connection Dialogue) : ∃ fs r es d,
    (Stream.open service).run c = (r, { c with session := d, nextLocalId := c.nextLocalId + 1 }) ∧
      Opening service c fs r es ∧ d.trace = c.session.trace ++ es ∧
      (∃ lost, c.session.inbox = fs.map .frame ++ (lost ++ d.inbox) ∧ ∀ f, .frame f ∉ lost) ∧
      (c.session.closed = true → d.closed = true) ∧ fs = openTaken service c := by
  by_cases hgoes : OpenGoes service c
  swap
  · obtain ⟨e, es, d, hopen, hopening, hinbox, hclosed, htrace⟩ := open_stays hgoes
    refine ⟨[], _, es, d, hopen, hopening, htrace, ⟨[], hinbox.symm, by simp⟩, fun h => hclosed.trans h, ?_⟩
    rw [openTaken, if_neg hgoes]
  obtain ⟨d, hrun, hopen, hinbox, htrace⟩ := run_sendOpen_goes hgoes
  have htaken : openTaken service c = awaited c.nextLocalId d.inbox := by
    rw [openTaken, if_pos hgoes, hinbox]
  obtain ⟨fs, hawaits⟩ := awaitOpen_awaits (s := (nascent service c).withSession d) hopen
  rw [← hrun] at hawaits
  generalize hq : sendOpen.run (nascent service c) = q at hawaits
  cases hawaits with
  | @failed passed lost rest e closed hpass hin hlost hnone =>
    obtain ⟨r', es, d', hopen', hclose, hinbox', hclosed', htrace'⟩ := open_failed hq
    refine ⟨_, _, _, d', hopen', .unanswered hpass hclose, ?_, ⟨lost, ?_, hlost⟩, ?_, ?_⟩
    · rw [htrace']
      simp [absorb, htrace]
    · rw [← hinbox, hinbox']
      exact hin
    · exact fun h => absurd hgoes.1 (by simp [h])
    · have hnothing := awaited_passed hpass (lost ++ rest)
      rw [awaited_none hnone, List.append_nil] at hnothing
      exact htaken.trans ((congrArg _ hin).trans hnothing) |>.symm
  | @accepted passed f rest hpass hid hokay hin =>
    rw [nascent] at hq
    have hopen' : (Stream.open service).run c =
        (.ok { service, localId := c.nextLocalId, remoteId := f.header.arg0 },
          { c with session := d.absorb (passed ++ [f]) rest, nextLocalId := c.nextLocalId + 1 }) := by
      rw [Stream.run_open, hq]
      rfl
    refine ⟨_, _, _, _, hopen', .accepted hpass hid hokay, ?_, ⟨[], ?_, by simp⟩, ?_, ?_⟩
    · simp [absorb, htrace]
    · rw [← hinbox]
      exact hin.trans (by simp [absorb])
    · exact fun h => absurd hgoes.1 (by simp [h])
    · exact htaken.trans ((congrArg _ hin).trans (awaited_found hpass hid rest)) |>.symm
  | @refused passed f rest e hpass hid hokay hin =>
    obtain ⟨r', es, d', hopen', hclose, hinbox', hclosed', htrace'⟩ := open_failed hq
    refine ⟨_, _, _, d', hopen', .refused hpass hid hokay hclose, ?_, ⟨[], ?_, by simp⟩, ?_, ?_⟩
    · rw [htrace']
      simp [absorb, htrace]
    · rw [← hinbox, hinbox']
      exact hin.trans (by simp [absorb])
    · exact fun h => absurd hgoes.1 (by simp [h])
    · exact htaken.trans ((congrArg _ hin).trans (awaited_found hpass hid rest)) |>.symm

/-- An OKAY for the stream at the front of the inbox ends the wait. -/
theorem awaitOpen_answered {s : StreamOn Dialogue} {f : Frame} {rest : List Arrival}
    (hopen : s.connection.session.closed = false) (hinbox : s.connection.session.inbox = .frame f :: rest)
    (hid : f.header.arg1 = s.stream.localId) (hokay : f.header.command = kOkay) :
    awaitOpen.run s =
      (.ok (), (s.afterFrame f rest).setStream fun t => { t with remoteId := f.header.arg0 }) := by
  have hsame : f.header.arg1 = (s.afterFrame f rest).stream.localId := hid
  have hturn : (awaitOpenTurn ()).run s = (.ok (.done ()),
      (s.afterFrame f rest).setStream fun t => { t with remoteId := f.header.arg0 }) := by
    rw [awaitOpenTurn, Prog.run_bind_ok (run_receive_frame hopen hinbox), Prog.run_bind_get,
      if_neg (not_not.mpr hsame), if_neg (not_not.mpr hokay)]
    rfl
  exact Prog.loop_done _ hturn

/-- A stream whose OPEN goes out and is answered first is open. -/
theorem open_answered {service : List Byte} {c : Connection Dialogue} {f : Frame} {rest : List Arrival}
    (hopen : c.session.closed = false) (hout : c.session.outcomes = [])
    (hservice : service.length + 1 < 2 ^ 32) (hinbox : c.session.inbox = .frame f :: rest)
    (hid : f.header.arg1 = c.nextLocalId) (hokay : f.header.command = kOkay) :
    ∃ stream c', (Stream.open service).run c = (.ok stream, c') ∧ stream.localId = c.nextLocalId ∧
      c'.session.outcomes = [] ∧ c'.session.inbox = rest := by
  have hacc : (nascent service c).Accepts (0 + writesOf (openOf service c).payload) :=
    accepts_of_all hopen (fun o ho => by
      have hnil : o ∈ c.session.outcomes := ho
      rw [hout] at hnil
      cases hnil) _
  obtain ⟨d, hsend, hacc', hinbox', hout', -⟩ := run_send_accepts hacc (openOf_sized hservice c)
  have hnil : d.outcomes = [] := List.eq_nil_of_suffix_nil (hout ▸ hout')
  have hawait := awaitOpen_answered (s := (nascent service c).withSession d) hacc'.1
    (hinbox'.trans hinbox) hid hokay
  have hrun := (run_sendOpen hservice).trans ((Prog.run_bind_ok hsend).trans hawait)
  have hstream := Stream.run_open service c
  rw [nascent] at hrun
  rw [hrun] at hstream
  exact ⟨_, _, hstream, rfl, hnil, rfl⟩

end Adbcpp
