import Adbcpp.Stream.Writing
import Adbcpp.Streams

/-! What one operation of a program does: which frames it takes, what goes by, and what
becomes of the stream objects. -/

namespace Adbcpp

open Protocol Dialogue

namespace StreamOn

/-- A write attempts its WRTE exactly where it fits and the session is open. -/
theorem write_attempted (data : List Byte) (s : StreamOn Dialogue) : ∃ r d new,
    (write data).run s = (r, s.withSession d) ∧
      Attempt (wrteFrame s.stream.localId s.stream.remoteId data) r new ∧
      (new ≠ [] ↔ data.length ≤ s.connection.maxData.toNat ∧ s.session.closed = false) ∧
      d.inbox = s.session.inbox ∧ d.closed = s.session.closed ∧ d.trace = s.session.trace ++ new := by
  by_cases hle : data.length ≤ s.connection.maxData.toNat
  swap
  · refine ⟨.error (.of .invalidArgument "the write is larger than the negotiated maximum payload"),
      s.session, [], ?_, .refused _, by simp [hle], rfl, rfl, (List.append_nil _).symm⟩
    rw [write, Prog.run_bind_get, if_pos (Nat.lt_of_not_le hle)]
    rfl
  have hlt : data.length < 2 ^ 32 := Nat.lt_of_le_of_lt hle s.connection.maxData.toNat_lt
  have hmessage : makeMessage kWrte s.stream.localId s.stream.remoteId data =
      .ok (wrteFrame s.stream.localId s.stream.remoteId data).header := by
    rw [makeMessage, Message.dataLengthOf_ok hlt]
    rfl
  have hwrite (r : Except Error Unit) (d : Dialogue)
      (hrun : (send (wrteFrame s.stream.localId s.stream.remoteId data).header data).run s.session = (r, d)) :
      (write data).run s = (r, s.withSession d) := by
    rw [write, Prog.run_bind_get, if_neg (Nat.not_lt.mpr hle), hmessage]
    exact run_send_session hrun
  by_cases hopen : s.session.closed = false
  · obtain ⟨r, d, new, hrun, hattempt, hnew, hinbox, hclosed, htrace⟩ :=
      send_attempted (f := wrteFrame s.stream.localId s.stream.remoteId data) hopen (wrteFrame_sized hlt)
    exact ⟨r, d, new, hwrite r d hrun, hattempt, by simp [hnew, hle, hopen], hinbox, hclosed, htrace⟩
  · have hrun : (send (wrteFrame s.stream.localId s.stream.remoteId data).header data).run s.session =
        (.error (.of .transport "the session is closed"), s.session) := by
      rw [run_send, if_pos (by simpa using hopen)]
    exact ⟨_, s.session, [], hwrite _ _ hrun, .refused _, by simp [hopen], rfl, rfl, (List.append_nil _).symm⟩

end StreamOn

namespace Streams

variable {ι : Type}

def withSession (d : Dialogue) (s : Streams ι Dialogue) : Streams ι Dialogue :=
  { s with connection := { s.connection with session := d } }

/-- The state after the next local id has been handed out. -/
def allocated (s : Streams ι Dialogue) : Streams ι Dialogue :=
  { s with connection := { s.connection with nextLocalId := s.connection.nextLocalId + 1 } }

/-- What the end of a stream object brings: a CLSE, unless its stream is closed. -/
inductive Closing (stream : Stream) (open_ : Bool) : List Event → Prop
  | silent : stream.closed = true → Closing stream open_ []
  | attempted {r : Except Error Unit} {es : List Event} : stream.closed = false →
      Attempt (closeFrame stream.localId stream.remoteId) r es → (open_ = true → es ≠ []) →
      Closing stream open_ es

theorem Closing.replies {stream : Stream} {live : Bool} {es : List Event} (h : Closing stream live es) :
    Adbcpp.replies es = [] := by
  cases h with
  | silent => rfl
  | attempted _ hattempt => exact hattempt.replies

theorem Closing.attempts {stream : Stream} {live : Bool} {es : List Event} (h : Closing stream live es) :
    ∀ g ∈ Adbcpp.attempts es, g = closeFrame stream.localId stream.remoteId := by
  cases h with
  | silent => simp
  | attempted _ hattempt => exact hattempt.attempts

/-- An operation that does nothing. -/
def Void (s : Streams ι Dialogue) : Operation ι → Prop
  | .open x _ => s.objects x ≠ none
  | .moveConstruct x y => s.objects x ≠ none ∨ s.objects y = none
  | .moveAssign x y => x = y ∨ s.objects x = none ∨ s.objects y = none
  | .write x _ => s.objects x = none
  | .read x _ => s.objects x = none
  | .readAll x => s.objects x = none
  | .destroy x => s.objects x = none

/-- What an operation does to the session while the given events go by. -/
structure Moves (op : Operation ι) (s s' : Streams ι Dialogue) (es : List Event) : Prop where
  trace : s'.session.trace = s.session.trace ++ es
  inbox : ∃ lost, s.session.inbox = (takes op s).map .frame ++ (lost ++ s'.session.inbox) ∧
    ∀ f, .frame f ∉ lost
  closed : s.session.closed = true → s'.session.closed = true

/-- An operation that leaves the session alone takes no frame. -/
theorem Moves.nothing {op : Operation ι} {s s' : Streams ι Dialogue} (htakes : takes op s = [])
    (hsession : s'.session = s.session) : Moves op s s' [] := by
  refine ⟨?_, ⟨[], ?_, by simp⟩, ?_⟩
  · rw [hsession, List.append_nil]
  · rw [htakes, hsession]
    rfl
  · rw [hsession]
    exact id

theorem Void.takes {op : Operation ι} {s : Streams ι Dialogue} (h : Void s op) : takes op s = [] := by
  cases op with
  | «open» x service =>
    obtain ⟨o, ho⟩ := Option.ne_none_iff_exists'.mp h
    rw [Streams.takes, ho]
  | read x size => rw [Streams.takes, show s.objects x = none from h]
  | readAll x => rw [Streams.takes, show s.objects x = none from h]
  | moveConstruct x y => rfl
  | moveAssign x y => rfl
  | write x data => rfl
  | destroy x => rfl

section Effects

variable [DecidableEq ι]

/-- What an operation makes of the state while the given events go by. -/
inductive Effect (s : Streams ι Dialogue) : Operation ι → List Event → Streams ι Dialogue → Prop
  | void {op : Operation ι} : Void s op → Effect s op [] s
  | opened {x : ι} {service : List Byte} {stream : Stream} {es : List Event} {d : Dialogue} :
      s.objects x = none → Opening service s.connection (takes (.open x service) s) (.ok stream) es →
      Effect s (.open x service) es ((s.allocated.withSession d).set x (some ⟨stream, false⟩))
  | refused {x : ι} {service : List Byte} {e : Error} {es : List Event} {d : Dialogue} :
      s.objects x = none → Opening service s.connection (takes (.open x service) s) (.error e) es →
      Effect s (.open x service) es (s.allocated.withSession d)
  | constructed {x y : ι} {o : Object} : s.objects x = none → s.objects y = some o →
      Effect s (.moveConstruct x y) [] ((s.set y (some ⟨o.stream.movedFrom, true⟩)).set x (some o))
  | assigned {x y : ι} {target o : Object} {es : List Event} {d : Dialogue} : x ≠ y →
      s.objects x = some target → s.objects y = some o →
      Closing target.stream (!s.session.closed) es → Effect s (.moveAssign x y) es
        (((s.withSession d).set y (some ⟨o.stream.movedFrom, true⟩)).set x (some o))
  | wrote {x : ι} {data : List Byte} {o : Object} {r : Except Error Unit} {es : List Event} {d : Dialogue} :
      s.objects x = some o → Attempt (wrteFrame o.stream.localId o.stream.remoteId data) r es →
      (es ≠ [] ↔ data.length ≤ s.connection.maxData.toNat ∧ s.session.closed = false) →
      Effect s (.write x data) es (s.withSession d)
  | took {op : Operation ι} {x : ι} {o : Object} {t : Stream} {es : List Event} {d : Dialogue} :
      op.reader = some x → s.objects x = some o →
      Transcript o.stream.localId o.stream.remoteId (takes op s) es →
      t.localId = o.stream.localId → t.remoteId = o.stream.remoteId →
      t.closed = (o.stream.closed || (takes op s).any fun f => IsClose o.stream.localId f) →
      Effect s op es ((s.withSession d).set x (some { o with stream := t }))
  | destroyed {x : ι} {o : Object} {es : List Event} {d : Dialogue} : s.objects x = some o →
      Closing o.stream (!s.session.closed) es → Effect s (.destroy x) es ((s.withSession d).set x none)

/-- The frames that go by are those that the operation takes. -/
theorem Effect.replies {s s' : Streams ι Dialogue} {op : Operation ι}
    {es : List Event} (h : Effect s op es s') : Adbcpp.replies es = takes op s := by
  cases h with
  | void hvoid => exact hvoid.takes.symm
  | opened _ hopening | refused _ hopening => exact hopening.replies
  | constructed => rfl
  | assigned _ _ _ hclosing | destroyed _ hclosing => exact hclosing.replies
  | wrote _ hattempt => exact hattempt.replies
  | took _ _ htranscript => exact htranscript.replies

theorem exec_void {op : Operation ι} {s : Streams ι Dialogue} (h : Void s op)
    (hrun : ((exec op).run s).2 = s) :
    ∃ es, Effect s op es ((exec op).run s).2 ∧ Moves op s ((exec op).run s).2 es := by
  rw [hrun]
  exact ⟨[], .void h, .nothing h.takes rfl⟩

omit [DecidableEq ι] in
/-- The end of a stream object. -/
theorem closeNow_closing (s : Streams ι Dialogue) (o : Object) : ∃ es d,
    (s.view o).closeNow.connection = { s.connection with session := d } ∧
      Closing o.stream (!s.session.closed) es ∧ d.inbox = s.session.inbox ∧
      d.closed = s.session.closed ∧ d.trace = s.session.trace ++ es := by
  by_cases hclosed : o.stream.closed = true
  · refine ⟨[], s.session, ?_, .silent hclosed, rfl, rfl, (List.append_nil _).symm⟩
    rw [StreamOn.closeNow_closed (s := s.view o) hclosed]
    rfl
  · rw [Bool.not_eq_true] at hclosed
    obtain ⟨r, d, es, hrun, hattempt, hnew, hinbox, hcl, htrace⟩ :=
      StreamOn.closeNow_open (s := s.view o) hclosed
    refine ⟨es, d, by rw [hrun]; rfl, .attempted hclosed hattempt fun h => hnew ?_, hinbox, hcl, htrace⟩
    change s.session.closed = false
    simpa using h

theorem exec_open (x : ι) (service : List Byte) (s : Streams ι Dialogue) :
    ∃ es, Effect s (.open x service) es ((exec (.open x service)).run s).2 ∧
      Moves (.open x service) s ((exec (.open x service)).run s).2 es := by
  cases hx : s.objects x with
  | some o =>
    refine exec_void (show s.objects x ≠ none by simp [hx]) ?_
    simp [exec, Prog.run, hx]
  | none =>
    obtain ⟨fs, r, es, d, hopen, hopening, htrace, hinbox, hclosed, hfs⟩ := open_opening service s.connection
    have htakes : takes (.open x service) s = fs := by rw [takes, hx, hfs]
    refine ⟨es, ?_⟩
    cases r with
    | ok stream =>
      have hrun : ((exec (.open x service)).run s).2 = (s.allocated.withSession d).set x (some ⟨stream, false⟩) := by
        simp only [exec, Prog.run, hx] at hopen ⊢
        rw [hopen]
        rfl
      rw [hrun]
      exact ⟨.opened hx (htakes.symm ▸ hopening), htrace, by rw [htakes]; exact hinbox, hclosed⟩
    | error e =>
      have hrun : ((exec (.open x service)).run s).2 = s.allocated.withSession d := by
        simp only [exec, Prog.run, hx] at hopen ⊢
        rw [hopen]
        rfl
      rw [hrun]
      exact ⟨.refused hx (htakes.symm ▸ hopening), htrace, by rw [htakes]; exact hinbox, hclosed⟩

theorem exec_moveConstruct (x y : ι) (s : Streams ι Dialogue) :
    ∃ es, Effect s (.moveConstruct x y) es ((exec (.moveConstruct x y)).run s).2 ∧
      Moves (.moveConstruct x y) s ((exec (.moveConstruct x y)).run s).2 es := by
  cases hx : s.objects x with
  | some o =>
    refine exec_void (.inl (by simp [hx])) ?_
    simp [exec, Prog.run, hx]
  | none =>
    cases hy : s.objects y with
    | none =>
      refine exec_void (.inr hy) ?_
      simp [exec, Prog.run, hx, hy]
    | some o =>
      have hrun : ((exec (.moveConstruct x y)).run s).2 =
          (s.set y (some ⟨o.stream.movedFrom, true⟩)).set x (some o) := by
        simp [exec, Prog.run, hx, hy]
      rw [hrun]
      exact ⟨[], .constructed hx hy, .nothing rfl rfl⟩

theorem exec_moveAssign (x y : ι) (s : Streams ι Dialogue) :
    ∃ es, Effect s (.moveAssign x y) es ((exec (.moveAssign x y)).run s).2 ∧
      Moves (.moveAssign x y) s ((exec (.moveAssign x y)).run s).2 es := by
  cases hx : s.objects x with
  | none =>
    refine exec_void (.inr (.inl hx)) ?_
    simp [exec, Prog.run, hx]
  | some target =>
    cases hy : s.objects y with
    | none =>
      refine exec_void (.inr (.inr hy)) ?_
      simp [exec, Prog.run, hx, hy]
    | some o =>
      by_cases hxy : x = y
      · refine exec_void (.inl hxy) ?_
        simp [exec, Prog.run, hy, hxy]
      · obtain ⟨es, d, hclose, hclosing, hinbox, hclosed, htrace⟩ := closeNow_closing s target
        have hrun : ((exec (.moveAssign x y)).run s).2 =
            ((s.withSession d).set y (some ⟨o.stream.movedFrom, true⟩)).set x (some o) := by
          simp only [exec, Prog.run, hx, hy, if_neg hxy, hclose]
          rfl
        rw [hrun]
        refine ⟨es, .assigned hxy hx hy hclosing, htrace, ⟨[], ?_, by simp⟩, fun h => hclosed.trans h⟩
        exact hinbox.symm

theorem exec_destroy (x : ι) (s : Streams ι Dialogue) :
    ∃ es, Effect s (.destroy x) es ((exec (.destroy x)).run s).2 ∧
      Moves (.destroy x) s ((exec (.destroy x)).run s).2 es := by
  cases hx : s.objects x with
  | none =>
    refine exec_void hx ?_
    simp [exec, Prog.run, hx]
  | some o =>
    obtain ⟨es, d, hclose, hclosing, hinbox, hclosed, htrace⟩ := closeNow_closing s o
    have hrun : ((exec (.destroy x)).run s).2 = (s.withSession d).set x none := by
      simp only [exec, Prog.run, hx, hclose]
      rfl
    rw [hrun]
    exact ⟨es, .destroyed hx hclosing, htrace, ⟨[], hinbox.symm, by simp⟩, fun h => hclosed.trans h⟩

theorem exec_write (x : ι) (data : List Byte) (s : Streams ι Dialogue) :
    ∃ es, Effect s (.write x data) es ((exec (.write x data)).run s).2 ∧
      Moves (.write x data) s ((exec (.write x data)).run s).2 es := by
  cases hx : s.objects x with
  | none =>
    refine exec_void hx ?_
    simp [exec, use, Prog.run, hx]
  | some o =>
    obtain ⟨r, d, es, hwrite, hattempt, hiff, hinbox, hclosed, htrace⟩ :=
      StreamOn.write_attempted data (s.view o)
    have hbody : ((StreamOn.write data >>= fun _ => pure ([] : List Byte)).run (s.view o)).2 =
        (s.view o).withSession d := by
      rw [Prog.run_bind, hwrite]
      cases r <;> rfl
    have hrun : ((exec (.write x data)).run s).2 = s.withSession d := by
      rw [exec, run_use hx, hbody]
      exact set_eq_self (s := s.withSession d) hx
    rw [hrun]
    exact ⟨es, .wrote hx hattempt hiff, htrace, ⟨[], hinbox.symm, by simp⟩, fun h => hclosed.trans h⟩

/-- What an operation that reads does, from what its read takes. -/
theorem exec_reader {op : Operation ι} {x : ι} {p : Action (StreamOn Dialogue) (List Byte)}
    {fs : StreamOn Dialogue → List Frame} {s : Streams ι Dialogue} (hreader : op.reader = some x)
    (hop : exec op = use x p) (hvoid : s.objects x = none → Void s op)
    (htakes : ∀ o, s.objects x = some o → takes op s = fs (s.view o))
    (hp : ∀ t, StreamOn.Takes (fs t) t (p.run t).2) (hidle : Prog.Steps StreamOn.Idle p) :
    ∃ es, Effect s op es ((exec op).run s).2 ∧ Moves op s ((exec op).run s).2 es := by
  cases hx : s.objects x with
  | none =>
    refine exec_void (hvoid hx) ?_
    rw [hop, run_use_none hx]
  | some o =>
    have ht := hp (s.view o)
    have hi := hidle (s.view o)
    rw [hop, run_use hx]
    generalize (p.run (s.view o)).2 = t at ht hi ⊢
    obtain ⟨hsame, hinbox, ⟨es, htrace, htranscript⟩, hclosed⟩ := ht
    rw [← htakes o hx] at hinbox htranscript hclosed
    have hconn : { s with connection := t.connection } = s.withSession t.session :=
      congrArg (Streams.mk · s.objects) hsame.connection
    rw [hconn]
    refine ⟨es, .took hreader hx htranscript hsame.localId hsame.remoteId hclosed, htrace, hinbox, fun h => ?_⟩
    exact (congrArg Dialogue.closed (hi.session h).1).trans h

/-- One operation of a program. -/
theorem exec_effect (op : Operation ι) (s : Streams ι Dialogue) :
    ∃ es, Effect s op es ((exec op).run s).2 ∧ Moves op s ((exec op).run s).2 es := by
  cases op with
  | «open» x service => exact exec_open x service s
  | moveConstruct x y => exact exec_moveConstruct x y s
  | moveAssign x y => exact exec_moveAssign x y s
  | write x data => exact exec_write x data s
  | destroy x => exact exec_destroy x s
  | read x size =>
    refine exec_reader  rfl rfl id (fun o ho => ?_)
      (StreamOn.read_takes size) (StreamOn.read_idle size)
    rw [takes, ho]
  | readAll x =>
    refine exec_reader  rfl rfl id (fun o ho => ?_)
      StreamOn.readAll_takes StreamOn.readAll_idle
    rw [takes, ho]

/-- What goes by during an operation. -/
def eventsOf (op : Operation ι) (s : Streams ι Dialogue) : List Event :=
  ((exec op).run s).2.session.trace.drop s.session.trace.length

/-- What goes by during some operations. -/
def history : List (Operation ι) → Streams ι Dialogue → List Event
  | [], _ => []
  | op :: ops, s => eventsOf op s ++ history ops ((exec op).run s).2

theorem effect (op : Operation ι) (s : Streams ι Dialogue) :
    Effect s op (eventsOf op s) ((exec op).run s).2 ∧ Moves op s ((exec op).run s).2 (eventsOf op s) := by
  obtain ⟨es, heffect, hmoves⟩ := exec_effect op s
  have hes : eventsOf op s = es := by rw [eventsOf, hmoves.trace, List.drop_left]
  rw [hes]
  exact ⟨heffect, hmoves⟩

/-- A session that is closed stays so. -/
theorem after_closed (ops : List (Operation ι)) {s : Streams ι Dialogue} (h : s.session.closed = true) :
    (after ops s).session.closed = true := by
  induction ops generalizing s with
  | nil => exact h
  | cons op ops ih => exact ih ((effect op s).2.closed h)

/-- Some operation of the run has `P` in the state that it meets. -/
def Sometime (P : Operation ι → Streams ι Dialogue → Prop) : List (Operation ι) → Streams ι Dialogue → Prop
  | [], _ => False
  | op :: ops, s => P op s ∨ Sometime P ops ((exec op).run s).2

/-- Every operation of the run has `P` in the state that it meets. -/
def Always (P : Operation ι → Streams ι Dialogue → Prop) : List (Operation ι) → Streams ι Dialogue → Prop
  | [], _ => True
  | op :: ops, s => P op s ∧ Always P ops ((exec op).run s).2

/-- Every operation of the run has `P` of what went by before it and of the state that it meets. -/
def Throughout (P : List Event → Operation ι → Streams ι Dialogue → Prop) :
    List Event → List (Operation ι) → Streams ι Dialogue → Prop
  | _, [], _ => True
  | past, op :: ops, s => P past op s ∧ Throughout P (past ++ eventsOf op s) ops ((exec op).run s).2

/-- What every operation keeps, a run keeps. -/
theorem Throughout.keeps {I : List Event → Streams ι Dialogue → Prop}
    {P : List Event → Operation ι → Streams ι Dialogue → Prop}
    (hstep : ∀ {past op s s' es}, I past s → P past op s → Effect s op es s' → Moves op s s' es →
      I (past ++ es) s')
    {past : List Event} {ops : List (Operation ι)} {s : Streams ι Dialogue}
    (hP : Throughout P past ops s) (h : I past s) : I (past ++ history ops s) (after ops s) := by
  induction ops generalizing past s with
  | nil =>
    rw [history, List.append_nil]
    exact h
  | cons op ops ih =>
    rw [history, ← List.append_assoc]
    exact ih hP.2 (hstep h hP.1 (effect op s).1 (effect op s).2)

end Effects

end Streams

end Adbcpp
