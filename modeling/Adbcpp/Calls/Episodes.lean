import Adbcpp.Calls.Steps
import Adbcpp.Shell.Packets
import Adbcpp.Streams.Effects

/-! What goes by while calls bring their own streams. The streams come one after the other, each
under the next local id: its OPEN goes first, then only messages of that stream, and in
the end one CLSE of it, unless the device has closed the stream itself or the session is
closed by then. A stream that was not opened is closed as well, and nothing is left open
behind a call, however it ends. -/

namespace Adbcpp

open Protocol Dialogue StreamOn
open Sync (Build)

/-- A message of the stream between its OPEN and its CLSE. -/
def Carries (l r : UInt32) (f : Frame) : Prop :=
  (f.header.command = kWrte ∨ f.header.command = kOkay) ∧ f.header.arg0 = l ∧ f.header.arg1 = r

/-- A CLSE of the device for the stream was received. -/
def shutBy (l : UInt32) (es : List Event) : Bool := (replies es).any fun f => IsClose l f

@[simp] theorem shutBy_nil (l : UInt32) : shutBy l [] = false := rfl

theorem shutBy_append (l : UInt32) (es es' : List Event) : shutBy l (es ++ es') = (shutBy l es || shutBy l es') := by
  simp [shutBy, replies_append]

/-! ### The session below -/

/-- A framing error. -/
def Arrival.isViolation : Arrival → Bool
  | .violation _ => true
  | _ => false

/-- The frames among what has arrived. -/
def framesOf (arrivals : List Arrival) : List Frame :=
  arrivals.filterMap fun
    | .frame f => some f
    | _ => none

theorem framesOf_append (a b : List Arrival) : framesOf (a ++ b) = framesOf a ++ framesOf b := List.filterMap_append

/-- From the first state to the second the session takes what comes first in its inbox, and receives the frames of it;
a framing error among it closes the session. Once it is closed nothing is taken and nothing goes by. -/
structure Proceeds (d d' : Dialogue) : Prop where
  takes : ∃ gone es, d.inbox = gone ++ d'.inbox ∧ d'.trace = d.trace ++ es ∧ replies es = framesOf gone ∧
    d'.closed = (d.closed || gone.any Arrival.isViolation)
  still : d.closed = true → d'.inbox = d.inbox ∧ d'.trace = d.trace

namespace Proceeds

variable {d d' : Dialogue}

theorem closed (h : Proceeds d d') (hd : d.closed = true) : d'.closed = true := by
  obtain ⟨gone, es, -, -, -, hclosed⟩ := h.takes
  rw [hclosed, hd, Bool.true_or]

instance : Std.Refl Proceeds := ⟨fun d => ⟨⟨[], [], rfl, by simp, rfl, by simp⟩, fun _ => ⟨rfl, rfl⟩⟩⟩

instance : IsTrans Dialogue Proceeds where
  trans := by
    intro d d' d'' h h'
    obtain ⟨gone, es, hinbox, htrace, hreplies, hclosed⟩ := h.takes
    obtain ⟨gone', es', hinbox', htrace', hreplies', hclosed'⟩ := h'.takes
    refine ⟨⟨gone ++ gone', es ++ es', ?_, ?_, ?_, ?_⟩, fun hd => ?_⟩
    · rw [hinbox, hinbox', List.append_assoc]
    · rw [htrace', htrace, List.append_assoc]
    · rw [replies_append, hreplies, hreplies', framesOf_append]
    · rw [hclosed', hclosed, List.any_append, Bool.or_assoc]
    · obtain ⟨hsame, hstill⟩ := h.still hd
      obtain ⟨hsame', hstill'⟩ := h'.still (h.closed hd)
      exact ⟨hsame'.trans hsame, hstill'.trans hstill⟩

/-- An attempt takes nothing. -/
theorem of_attempt {f : Frame} {r : Except Error Unit} {es : List Event} (hattempt : Attempt f r es)
    (hnone : d.closed = true → es = []) (hinbox : d'.inbox = d.inbox) (hclosed : d'.closed = d.closed)
    (htrace : d'.trace = d.trace ++ es) : Proceeds d d' := by
  refine ⟨⟨[], es, hinbox.symm, htrace, hattempt.replies, by simpa using hclosed⟩, fun hd => ⟨hinbox, ?_⟩⟩
  rw [htrace, hnone hd, List.append_nil]

theorem send (header : Message) (payload : List Byte) : Prog.Steps Proceeds (Dialogue.send header payload) := by
  intro d
  cases hd : d.closed with
  | true =>
    rw [run_send, if_pos hd]
    exact refl_of Proceeds d
  | false =>
    obtain ⟨r, d', es, hrun, hattempt, hinbox, hclosed, htrace⟩ := send_attempt header payload d
    rw [hrun]
    refine of_attempt hattempt (fun h => ?_) hinbox hclosed htrace
    rw [hd] at h
    cases h

theorem receive : Prog.Steps Proceeds Dialogue.receive := by
  intro d
  cases hd : d.closed with
  | true =>
    rw [receive_closed hd]
    exact refl_of Proceeds d
  | false =>
    have hopen {P : Prop} (h : d.closed = true) : P := by
      rw [hd] at h
      cases h
    rw [run_receive hd]
    split
    next => exact refl_of Proceeds d
    next f rest hinbox => exact ⟨⟨[.frame f], [.received f], hinbox, rfl, rfl, (Bool.or_false _).symm⟩, hopen⟩
    next e rest hinbox => exact ⟨⟨[.fault e], [], hinbox, (List.append_nil _).symm, rfl, (Bool.or_false _).symm⟩, hopen⟩
    next message rest hinbox =>
      exact ⟨⟨[.violation message], [], hinbox, (List.append_nil _).symm, rfl, (Bool.or_true _).symm⟩, hopen⟩

end Proceeds

/-! ### Episodes -/

/-- What goes by for one stream until the second connection. A CLSE is attempted for it, unless the device has closed
it or the session is closed by then. -/
inductive Course (c c' : Connection Dialogue) : List Event → Prop
  /-- The stream could not be opened. -/
  | failed {service : List Byte} {fs : List Frame} {e : Error} {es : List Event} : Opening service c fs (.error e) es →
      (c'.session.closed = false → closeFrame c.nextLocalId 0 ∈ attempts es) → Course c c' es
  /-- The device closed it. -/
  | shut {service : List Byte} {fs : List Frame} {stream : Stream} {es talk : List Event} :
      Opening service c fs (.ok stream) es → (∀ f ∈ attempts talk, Carries c.nextLocalId stream.remoteId f) →
      shutBy c.nextLocalId talk = true → Course c c' (es ++ talk)
  /-- The host closed it. -/
  | ended {service : List Byte} {fs : List Frame} {stream : Stream} {es talk close : List Event}
      {r : Except Error Unit} : Opening service c fs (.ok stream) es →
      (∀ f ∈ attempts talk, Carries c.nextLocalId stream.remoteId f) → shutBy c.nextLocalId talk = false →
      Attempt (closeFrame c.nextLocalId stream.remoteId) r close → (c'.session.closed = false → close ≠ []) →
      Course c c' (es ++ (talk ++ close))

/-- One stream, from the connection before its OPEN to the one behind its CLSE. -/
structure Episode (c c' : Connection Dialogue) : Prop where
  connection : c' = { c with session := c'.session, nextLocalId := c.nextLocalId + 1 }
  session : Proceeds c.session c'.session
  course : ∃ es, c'.session.trace = c.session.trace ++ es ∧ Course c c' es

/-- Streams one after the other, each from where the one before it has ended. -/
def Episodes : Connection Dialogue → Connection Dialogue → Prop := Relation.ReflTransGen Episode

instance : Std.Refl Episodes := ⟨fun _ => .refl⟩

instance : IsTrans (Connection Dialogue) Episodes := ⟨fun _ _ _ h h' => h.trans h'⟩

/-! ### On one stream -/

/-- The same of two states that have a session. -/
def ProceedsOn {σ : Type} (view : σ → Dialogue) : σ → σ → Prop := Order.Preimage view Proceeds

instance {σ : Type} (view : σ → Dialogue) : Std.Refl (ProceedsOn view) := Order.Preimage.instRefl

instance {σ : Type} (view : σ → Dialogue) : IsTrans σ (ProceedsOn view) := Order.Preimage.instIsTrans

section ProceedsOn

theorem setStream_proceeds (f : Stream → Stream) (s : StreamOn Dialogue) :
    ProceedsOn StreamOn.session s (s.setStream f) := refl_of Proceeds s.session

theorem send_proceeds (header : Message) (payload : List Byte) : Prog.Steps (ProceedsOn StreamOn.session)
    (onConnection (Connection.send header payload) : Action (StreamOn Dialogue) Unit) :=
  fun s => Proceeds.send header payload s.session

theorem receive_proceeds : Prog.Steps (ProceedsOn StreamOn.session)
    (onConnection Connection.receive : Action (StreamOn Dialogue) Frame) := fun s => Proceeds.receive s.session

theorem receiveMore_proceeds : Prog.Steps (ProceedsOn StreamOn.session)
    (receiveMore : Action (StreamOn Dialogue) Bool) := by
  refine Prog.Steps.loop _ (fun _ => Prog.Steps.bind receive_proceeds fun frame => ?_) ()
  refine Prog.Steps.bind Prog.Steps.get fun s => Prog.Steps.ite (Prog.Steps.pure _) (Prog.Steps.ite ?_ ?_)
  · refine Prog.Steps.bind (Prog.Steps.modify (setStream_proceeds _)) fun _ => ?_
    exact Prog.Steps.bind (send_proceeds _ _) fun _ => Prog.Steps.pure _
  · refine Prog.Steps.ite (Prog.Steps.pure _) (Prog.Steps.ite ?_ (Prog.Steps.fail _))
    exact Prog.Steps.bind (Prog.Steps.modify (setStream_proceeds _)) fun _ => Prog.Steps.pure _

theorem closeNow_proceeds (s : StreamOn Dialogue) : ProceedsOn StreamOn.session s s.closeNow := by
  rw [closeNow]
  split
  · exact refl_of (ProceedsOn StreamOn.session) s
  · exact send_proceeds _ _ (s.setStream _)

theorem sendOpen_proceeds : Prog.Steps (ProceedsOn StreamOn.session) (sendOpen : Action (StreamOn Dialogue) Unit) := by
  refine Prog.Steps.bind Prog.Steps.get fun s => Prog.Steps.bind (Prog.Steps.lift _) fun message => ?_
  refine Prog.Steps.bind (send_proceeds _ _) fun _ => ?_
  refine Prog.Steps.loop _ (fun _ => Prog.Steps.bind receive_proceeds fun frame => ?_) ()
  refine Prog.Steps.bind Prog.Steps.get fun u => Prog.Steps.ite (Prog.Steps.pure _) ?_
  refine Prog.Steps.ite (Prog.Steps.fail _) ?_
  exact Prog.Steps.bind (Prog.Steps.modify (setStream_proceeds _)) fun _ => Prog.Steps.pure _

theorem open_proceeds (service : List Byte) :
    Prog.Steps (ProceedsOn Connection.session) (Stream.open service : Action (Connection Dialogue) Stream) := by
  intro c
  have hsend : ProceedsOn StreamOn.session (nascent service c) (sendOpen.run (nascent service c)).2 :=
    sendOpen_proceeds (nascent service c)
  rw [nascent] at hsend
  rw [Stream.run_open]
  generalize sendOpen.run (⟨{ service, localId := c.nextLocalId }, c.allocateLocalId.2⟩ : StreamOn Dialogue) = q at hsend
  rcases q with ⟨e | u, s⟩
  · exact trans_of (ProceedsOn StreamOn.session) hsend (closeNow_proceeds s)
  · exact hsend

end ProceedsOn

/-- What is done on a stream that is open. -/
structure Converses (s s' : StreamOn Dialogue) : Prop where
  same : SameStream s s'
  session : Proceeds s.session s'.session
  talk : ∃ es, s'.session.trace = s.session.trace ++ es ∧
    (∀ f ∈ attempts es, Carries s.stream.localId s.stream.remoteId f) ∧
    s'.stream.closed = (s.stream.closed || shutBy s.stream.localId es)

instance : Std.Refl Converses where
  refl s := ⟨refl_of SameStream s, refl_of Proceeds s.session, [], by simp, by simp, by simp⟩

instance : IsTrans (StreamOn Dialogue) Converses where
  trans := by
    rintro s t u ⟨hsame, hsession, es, htrace, htalk, hshut⟩ ⟨hsame', hsession', es', htrace', htalk', hshut'⟩
    refine ⟨trans_of SameStream hsame hsame', trans_of Proceeds hsession hsession', es ++ es', ?_, ?_, ?_⟩
    · rw [htrace', htrace, List.append_assoc]
    · intro f hf
      rw [attempts_append] at hf
      rcases List.mem_append.mp hf with hf | hf
      · exact htalk f hf
      · have hcarries := htalk' f hf
        rwa [hsame.localId, hsame.remoteId] at hcarries
    · rw [hshut', hshut, hsame.localId, shutBy_append, Bool.or_assoc]

theorem StreamOn.Takes.converses {fs : List Frame} {s s' : StreamOn Dialogue} (h : Takes fs s s')
    (hsession : ProceedsOn StreamOn.session s s') : Converses s s' := by
  obtain ⟨es, htrace, htranscript⟩ := h.trace
  refine ⟨h.same, hsession, es, htrace, fun f hf => ?_, ?_⟩
  · rw [htranscript.attempts f hf]
    exact ⟨.inr rfl, rfl, rfl⟩
  · rw [h.closed, shutBy, htranscript.replies]

theorem read_converses (size : ℕ) : Prog.Steps Converses (read size) :=
  fun s => (read_takes size s).converses (read_steps (fun f _ => setStream_proceeds f) receiveMore_proceeds size s)

theorem readAll_converses : Prog.Steps Converses readAll :=
  fun s => (readAll_takes s).converses (readAll_steps (fun f _ => setStream_proceeds f) receiveMore_proceeds s)

theorem write_converses (data : List Byte) : Prog.Steps Converses (write data) := by
  intro s
  obtain ⟨r, d, new, hrun, hattempt, hnew, hinbox, hclosed, htrace⟩ := write_attempted data s
  rw [hrun]
  refine ⟨⟨rfl, rfl, rfl, rfl⟩, ?_, new, htrace, fun f hf => ?_, ?_⟩
  · refine Proceeds.of_attempt hattempt (fun hc => ?_) hinbox hclosed htrace
    by_contra hne
    have hopen := (hnew.mp hne).2
    rw [hc] at hopen
    cases hopen
  · rw [hattempt.attempts f hf]
    exact ⟨.inl rfl, rfl, rfl⟩
  · rw [shutBy, hattempt.replies]
    exact (Bool.or_false _).symm

/-! ### With streams of its own -/

/-- An open that fails leaves its stream object as it was. -/
theorem sendOpen_error {service : List Byte} {c : Connection Dialogue} {e : Error} {s : StreamOn Dialogue}
    (h : sendOpen.run (nascent service c) = (.error e, s)) : ∃ d, s = (nascent service c).withSession d := by
  by_cases hgoes : OpenGoes service c
  · obtain ⟨d, hrun, hopen, -, -⟩ := run_sendOpen_goes hgoes
    obtain ⟨fs, hawaits⟩ := awaitOpen_awaits (s := (nascent service c).withSession d) hopen
    rw [← hrun, h] at hawaits
    cases hawaits with
    | failed => exact ⟨_, rfl⟩
    | refused => exact ⟨_, rfl⟩
  · obtain ⟨e', r, new, d, hrun, -⟩ := run_sendOpen_stays hgoes
    cases hrun.symm.trans h
    exact ⟨d, rfl⟩

/-- A CLSE is attempted for a stream that could not be opened, unless the session is closed. -/
theorem open_closes {service : List Byte} {c c' : Connection Dialogue} {e : Error} {es : List Event}
    (h : (Stream.open service).run c = (.error e, c')) (htrace : c'.session.trace = c.session.trace ++ es)
    (hopen : c'.session.closed = false) : closeFrame c.nextLocalId 0 ∈ attempts es := by
  have hsend := sendOpen_proceeds (nascent service c)
  rw [Stream.run_open] at h
  split at h
  next => cases h
  next e' s hrun =>
    cases h
    obtain ⟨d, rfl⟩ := sendOpen_error hrun
    rw [show sendOpen.run (nascent service c) = _ from hrun] at hsend
    obtain ⟨gone, before, -, hbefore, -⟩ := hsend.takes
    obtain ⟨r, d', close, hclose, hattempt, hne, -, hclosed, hbehind⟩ :=
      closeNow_open (s := (nascent service c).withSession d) rfl
    rw [hclose] at htrace hopen
    have hes : es = before ++ close := by
      have hsame : c.session.trace ++ es = c.session.trace ++ (before ++ close) := by
        rw [← htrace, ← List.append_assoc]
        exact hbehind.trans (congrArg (· ++ close) hbefore)
      exact List.append_cancel_left hsame
    have hattempted : closeFrame c.nextLocalId 0 ∈ attempts close := by
      cases hattempt with
      | sent => exact List.mem_singleton_self _
      | unsent => exact List.mem_singleton_self _
      | refused => exact absurd rfl (hne (hclosed.symm.trans hopen))
    rw [hes, attempts_append]
    exact List.mem_append_right _ hattempted

theorem open_episode {service : List Byte} {c c' : Connection Dialogue} {e : Error}
    (h : (Stream.open service).run c = (.error e, c')) : Episode c c' := by
  have hsession := open_proceeds service c
  obtain ⟨fs, r, es, d, hrun, hopening, htrace, -⟩ := open_opening service c
  rw [h] at hsession
  cases hrun.symm.trans h
  exact ⟨rfl, hsession, es, htrace, .failed hopening (open_closes h htrace)⟩

theorem closeNow_episode {service : List Byte} {c c' : Connection Dialogue} {stream : Stream} {s : StreamOn Dialogue}
    (h : (Stream.open service).run c = (.ok stream, c')) (hs : Converses ⟨stream, c'⟩ s) :
    Episode c s.closeNow.connection := by
  have hopened := open_proceeds service c
  obtain ⟨fs, r, es, d, hrun, hopening, htrace, -⟩ := open_opening service c
  rw [h] at hopened
  cases hrun.symm.trans h
  obtain ⟨hsame, htalked, talk, htalk, hcarries, hshut⟩ := hs
  have hid : stream.localId = c.nextLocalId := hopening.localId
  have hnew : stream.closed = false := by
    cases hopening
    rfl
  have htraces : s.session.trace = c.session.trace ++ (es ++ talk) := by
    rw [htalk, ← List.append_assoc]
    exact congrArg (· ++ talk) htrace
  have hshut' : s.stream.closed = shutBy c.nextLocalId talk := by
    rw [hshut]
    simp [hnew, hid]
  have hcarries' : ∀ f ∈ attempts talk, Carries c.nextLocalId stream.remoteId f := by
    rw [← hid]
    exact hcarries
  have hsession : Proceeds c.session s.closeNow.session :=
    trans_of Proceeds (trans_of Proceeds hopened htalked) (closeNow_proceeds s)
  have hconnection : s.connection = { c with session := s.session, nextLocalId := c.nextLocalId + 1 } := hsame.connection
  cases hend : s.stream.closed with
  | true =>
    have hcourse : Course c s.closeNow.connection (es ++ talk) :=
      .shut hopening hcarries' (hshut'.symm.trans hend)
    rw [closeNow_closed hend] at hsession hcourse ⊢
    exact ⟨hconnection, hsession, es ++ talk, htraces, hcourse⟩
  | false =>
    obtain ⟨r, d', close, hclose, hattempt, hne, -, hclosed, hrecord⟩ := closeNow_open hend
    rw [hsame.localId.trans hid, hsame.remoteId] at hattempt
    rw [hclose] at hsession ⊢
    refine ⟨?_, hsession, es ++ (talk ++ close), ?_, ?_⟩
    · exact congrArg (fun c : Connection Dialogue => { c with session := d' }) hconnection
    · show d'.trace = _
      rw [hrecord, htraces]
      simp only [List.append_assoc]
    · exact .ended hopening hcarries' (hshut'.symm.trans hend) hattempt fun hopen => hne (hclosed.symm.trans hopen)

theorem episodes_lifts : Lifts Converses Episodes where
  read := read_converses
  readAll := readAll_converses
  write := write_converses
  failed h := .single (open_episode h)
  opened h hs := .single (closeNow_episode h hs)

/-- Whatever a client of such calls makes of the answers, and whatever the device and the transport do: its streams go
by one after the other, each closed before the next one is opened, and its stream objects
are left alone. -/
theorem Client.perform_episodes {ι α : Type} [DecidableEq ι] (b : Build) {client : Client ι α} (hclient : client.OneShot)
    (s : Streams ι Dialogue) :
    ((client.perform b).run s).2.objects = s.objects ∧
      Episodes s.connection ((client.perform b).run s).2.connection :=
  Client.perform_aside episodes_lifts b hclient s

/-- A client that asks for a process, and starts it where it does not run. -/
def Client.starting (package : List Byte) : Client Empty Unit :=
  .call (.isRunning package) fun
    | .ok true => .done ()
    | _ => .call (.launch package) fun _ => .done ()

theorem Client.perform_episodes_starting :
    let s : Streams Empty Dialogue := { connection := Shell.deviceShell [] [bytesOf "42"], objects := nofun }
    Episodes s.connection (((Client.starting (bytesOf "app")).perform {}).run s).2.connection := by
  intro s
  have hclient : (Client.starting (bytesOf "app")).OneShot := by
    refine .call rfl fun answer => ?_
    match answer with
    | .ok true => exact .done ()
    | .ok false => exact .call rfl fun _ => .done ()
    | .error e => exact .call rfl fun _ => .done ()
  exact (Client.perform_episodes {} hclient s).2

end Adbcpp
