import Adbcpp.Stream.Limits
import Adbcpp.Stream.Opening

/-! The services that are asked for. A stream asks for its service when it is opened, and
nothing else that is done on a stream asks for any. -/

namespace Adbcpp

open Protocol Dialogue

/-- Something with `E` went by between two states. -/
def Happened (E : Event → Prop) (d d' : Dialogue) : Prop :=
  ∃ new, d'.trace = d.trace ++ new ∧ ∃ e ∈ new, E e

namespace Happened

variable {E : Event → Prop} {P : Frame → Prop} {d d' d'' : Dialogue}

theorem after (h : Happened E d' d'') (hbefore : Attempted P d d') : Happened E d d'' := by
  obtain ⟨new, htrace, e, hmem, he⟩ := h
  obtain ⟨before, hd, -⟩ := hbefore
  refine ⟨before ++ new, ?_, e, List.mem_append_right _ hmem, he⟩
  rw [htrace, hd, List.append_assoc]

theorem before (h : Happened E d d') (hafter : Attempted P d' d'') : Happened E d d'' := by
  obtain ⟨new, htrace, e, hmem, he⟩ := h
  obtain ⟨behind, hd, -⟩ := hafter
  refine ⟨new ++ behind, ?_, e, List.mem_append_left _ hmem, he⟩
  rw [hd, htrace, List.append_assoc]

theorem mono {E' : Event → Prop} (h : Happened E d d') (hE : ∀ e, E e → E' e) : Happened E' d d' := by
  obtain ⟨new, htrace, e, hmem, he⟩ := h
  exact ⟨new, htrace, e, hmem, hE e he⟩

/-- What was attempted has what everything attempted has. -/
theorem attempted {Q : Frame → Prop} (h : Happened E d d') (hP : Attempted P d d')
    (hE : ∀ e, E e → ∃ f, (e = .sent f ∨ e = .unsent f) ∧ Q f) : ∃ f, P f ∧ Q f := by
  obtain ⟨new, htrace, e, hmem, he⟩ := h
  obtain ⟨new', htrace', hall⟩ := hP
  obtain rfl : new = new' := List.append_cancel_left (htrace.symm.trans htrace')
  obtain ⟨f, hf, hQ⟩ := hE e he
  refine ⟨f, hall f ?_, hQ⟩
  unfold attempts
  rw [List.mem_filterMap]
  rcases hf with rfl | rfl
  · exact ⟨_, hmem, rfl⟩
  · exact ⟨_, hmem, rfl⟩

end Happened

/-- The OPEN of a service, sent or not. -/
def AsksFor (service : List Byte) (e : Event) : Prop :=
  ∃ f, (e = .sent f ∨ e = .unsent f) ∧ f.header.command = kOpen ∧ f.payload = service ++ [0]

/-- From the first state to the second only services with `S` were asked for on the session. -/
def OnlyAsks {σ : Type} (view : σ → Dialogue) (S : List Byte → Prop) : σ → σ → Prop :=
  Order.Preimage view (Attempted fun f => f.header.command = kOpen → S f.payload)

section OnlyAsks

variable {S : List Byte → Prop}

instance {σ : Type} (view : σ → Dialogue) : Std.Refl (OnlyAsks view S) := Order.Preimage.instRefl

instance {σ : Type} (view : σ → Dialogue) : IsTrans σ (OnlyAsks view S) := Order.Preimage.instIsTrans

/-- Nothing is asked for by messages that are no OPEN. -/
theorem onlyAsks_of_attempts {σ : Type} {view : σ → Dialogue} {s s' : σ} {new : List Event}
    (htrace : (view s').trace = (view s).trace ++ new)
    (h : ∀ f ∈ attempts new, f.header.command ≠ kOpen) : OnlyAsks view S s s' := by
  refine ⟨new, htrace, ?_⟩
  intro f hf hopen
  exact absurd hopen (h f hf)

namespace StreamOn

theorem takes_onlyAsks {fs : List Frame} {s s' : StreamOn Dialogue} (h : Takes fs s s') :
    OnlyAsks StreamOn.session S s s' := by
  obtain ⟨es, htrace, htranscript⟩ := h.trace
  apply onlyAsks_of_attempts htrace
  intro f hf
  rw [htranscript.attempts f hf]
  exact show kOkay ≠ kOpen by decide

theorem read_onlyAsks (size : ℕ) : Prog.Steps (OnlyAsks StreamOn.session S) (read size) :=
  fun s => takes_onlyAsks (read_takes size s)

theorem readAll_onlyAsks : Prog.Steps (OnlyAsks StreamOn.session S) readAll :=
  fun s => takes_onlyAsks (readAll_takes s)

theorem write_onlyAsks (data : List Byte) : Prog.Steps (OnlyAsks StreamOn.session S) (write data) := by
  intro s
  obtain ⟨r, d, new, hrun, hattempt, htrace, -⟩ := write_attempt data s
  rw [hrun]
  apply onlyAsks_of_attempts htrace
  intro f hf
  rw [hattempt.attempts f hf]
  exact show kWrte ≠ kOpen by decide

theorem closeNow_onlyAsks (s : StreamOn Dialogue) : OnlyAsks StreamOn.session S s s.closeNow := by
  by_cases hclosed : s.stream.closed = true
  · rw [closeNow_closed hclosed]
    exact refl_of (OnlyAsks StreamOn.session S) s
  · obtain ⟨r, d, new, hclose, hattempt, -, -, -, htrace⟩ := closeNow_open (Bool.eq_false_of_not_eq_true hclosed)
    rw [hclose]
    apply onlyAsks_of_attempts htrace
    intro f hf
    rw [hattempt.attempts f hf]
    exact show kClse ≠ kOpen by decide

theorem awaitOpen_onlyAsks : Prog.Steps (OnlyAsks StreamOn.session S) awaitOpen := by
  unfold awaitOpen
  refine Prog.Steps.loop _ (fun _ => ?_) ()
  refine Prog.Steps.bind (fun s => ?_) fun f => ?_
  · exact Attempted.receive s.connection.session
  refine Prog.Steps.bind Prog.Steps.get fun s => Prog.Steps.ite (Prog.Steps.pure _) ?_
  refine Prog.Steps.ite (Prog.Steps.fail _) ?_
  exact Prog.Steps.bind (Prog.Steps.modify fun s => refl_of (OnlyAsks StreamOn.session S) s) fun _ =>
    Prog.Steps.pure _

end StreamOn

open StreamOn

/-- An open asks for its service. -/
theorem open_onlyAsks {service : List Byte} (h : S (service ++ [0])) :
    Prog.Steps (OnlyAsks Connection.session S) (Stream.open service) := by
  intro c
  obtain ⟨fs, r, es, d, hrun, hopening, htrace, -⟩ := open_opening service c
  rw [hrun]
  refine ⟨es, htrace, ?_⟩
  intro f hf hopen
  rcases hopening.attempts f hf with rfl | rfl
  · exact h
  · exact absurd hopen (show kClse ≠ kOpen by decide)

theorem withStream_onlyAsks {α : Type} {service : List Byte} (h : S (service ++ [0]))
    {body : Action (StreamOn Dialogue) α} (hbody : Prog.Steps (OnlyAsks StreamOn.session S) body) :
    Prog.Steps (OnlyAsks Connection.session S) (withStream service body) := by
  refine Prog.Steps.bind (open_onlyAsks h) fun stream c => ?_
  exact trans_of (OnlyAsks StreamOn.session S) (hbody ⟨stream, c⟩) (closeNow_onlyAsks _)

/-- On an open session the service is asked for, whatever becomes of the OPEN. -/
theorem open_asks {service : List Byte} {c : Connection Dialogue} (hopen : c.session.closed = false)
    (hlt : service.length + 1 < 2 ^ 32) :
    Happened (AsksFor service) c.session ((Stream.open service).run c).2.session := by
  obtain ⟨r, d, new, hsend, hattempt, hnew, -, -, htrace⟩ := send_attempted hopen (openOf_sized hlt c)
  have hasked : Happened (AsksFor service) c.session d := by
    refine ⟨new, htrace, ?_⟩
    cases hattempt with
    | sent => exact ⟨_, List.mem_singleton_self _, _, .inl rfl, rfl, rfl⟩
    | unsent e => exact ⟨_, List.mem_singleton_self _, _, .inr rfl, rfl, rfl⟩
    | refused e => exact absurd rfl hnew
  have hsent : (onConnection (Connection.send (openOf service c).header (openOf service c).payload)).run
      (nascent service c) = (r, (nascent service c).withSession d) := run_send_session hsend
  have hrun : Happened (AsksFor service) c.session (sendOpen.run (nascent service c)).2.session := by
    rw [run_sendOpen hlt]
    cases r with
    | error e =>
      rw [Prog.run_bind_error hsent]
      exact hasked
    | ok _ =>
      rw [Prog.run_bind_ok hsent]
      have hawait : OnlyAsks StreamOn.session (fun _ => True) _ _ :=
        awaitOpen_onlyAsks ((nascent service c).withSession d)
      exact hasked.before hawait
  rw [Stream.run_open]
  unfold nascent at hrun
  match hopened : sendOpen.run (⟨{ service, localId := c.nextLocalId }, c.allocateLocalId.2⟩ : StreamOn Dialogue) with
  | (.ok (), s) =>
    rw [hopened] at hrun
    exact hrun
  | (.error e, s) =>
    rw [hopened] at hrun
    have hclose : OnlyAsks StreamOn.session (fun _ => True) s s.closeNow := closeNow_onlyAsks s
    exact hrun.before hclose

theorem withStream_asks {α : Type} {service : List Byte} {c : Connection Dialogue}
    (hopen : c.session.closed = false) (hlt : service.length + 1 < 2 ^ 32) {body : Action (StreamOn Dialogue) α}
    (hbody : Prog.Steps (OnlyAsks StreamOn.session fun _ => True) body) :
    Happened (AsksFor service) c.session ((withStream service body).run c).2.session := by
  have hasks := open_asks hopen hlt
  match hrun : (Stream.open service).run c with
  | (.error e, c') =>
    have hfailed : (withStream service body).run c = (.error e, c') := Prog.run_bind_error hrun
    rw [hrun] at hasks
    rw [hfailed]
    exact hasks
  | (.ok stream, c') =>
    rw [hrun] at hasks
    match hrest : body.run ⟨stream, c'⟩ with
    | (r, s) =>
      have hsteps := hbody ⟨stream, c'⟩
      rw [hrest] at hsteps
      rw [withStream_eq hrun hrest]
      exact hasks.before (trans_of (OnlyAsks StreamOn.session fun _ => True) hsteps (closeNow_onlyAsks s))

/-- A service that is too long for a message is not asked for, and leaves the session open. -/
theorem withStream_tooLong {α : Type} {service : List Byte} {c : Connection Dialogue}
    (hopen : c.session.closed = false) (hlong : ¬ service.length + 1 < 2 ^ 32)
    (body : Action (StreamOn Dialogue) α) : ((withStream service body).run c).2.session.closed = false := by
  have hstays : ¬ OpenGoes service c := fun h => hlong h.2.1
  obtain ⟨e, es, d, hrun, -, -, hclosed, -⟩ := open_stays hstays
  have hfailed : (withStream service body).run c =
      (.error e, { c with session := d, nextLocalId := c.nextLocalId + 1 }) := Prog.run_bind_error hrun
  rw [hfailed]
  exact hclosed.trans hopen

end OnlyAsks

end Adbcpp
