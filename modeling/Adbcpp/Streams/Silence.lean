import Adbcpp.Streams.Ownership

/-! When the host is silent. Once the device has closed a stream, nothing more may be sent
for it. A run keeps to this as long as the CLSE of the device is met by a read of the
stream that it closes, and the stream is left alone from then on. -/

namespace Adbcpp

open Protocol Dialogue

/-- What has gone by for a local id: its OPEN, and then the CLSE of the device. -/
inductive Phase
  | unopened
  | opened
  | shut
  deriving DecidableEq

def Phase.step (l : UInt32) : Phase → Event → Phase
  | .unopened, .sent f => if f.header.command = kOpen ∧ f.header.arg0 = l then .opened else .unopened
  | .unopened, .unsent f => if f.header.command = kOpen ∧ f.header.arg0 = l then .opened else .unopened
  | .opened, .received f => if IsClose l f then .shut else .opened
  | phase, _ => phase

def phaseOf (l : UInt32) (past : List Event) : Phase := past.foldl (Phase.step l) .unopened

/-- The device has closed the stream. -/
def Shut (l : UInt32) (past : List Event) : Prop := phaseOf l past = .shut

instance (l : UInt32) (past : List Event) : Decidable (Shut l past) :=
  inferInstanceAs (Decidable (_ = _))

/-- Nothing is attempted for a stream that the device has closed. -/
def Silent : List Event → List Event → Prop
  | _, [] => True
  | past, e :: es => (∀ g ∈ attempts [e], ¬ Shut g.header.arg0 past) ∧ Silent (past ++ [e]) es

instance Silent.decidable : ∀ past es, Decidable (Silent past es)
  | _, [] => inferInstanceAs (Decidable True)
  | past, e :: es =>
    have := Silent.decidable (past ++ [e]) es
    inferInstanceAs (Decidable (_ ∧ _))

theorem silent_append {past a b : List Event} :
    Silent past (a ++ b) ↔ Silent past a ∧ Silent (past ++ a) b := by
  induction a generalizing past with
  | nil => simp [Silent]
  | cons e a ih => simp [Silent, ih, and_assoc]

theorem phaseOf_append (l : UInt32) (past es : List Event) :
    phaseOf l (past ++ es) = es.foldl (Phase.step l) (phaseOf l past) := List.foldl_append

theorem Phase.step_shut {l : UInt32} {phase : Phase} {e : Event} (h : Phase.step l phase e = .shut) :
    phase = .shut ∨ ∃ f ∈ replies [e], IsClose l f := by
  cases phase with
  | shut => exact .inl rfl
  | unopened =>
    cases e with
    | received f => cases h
    | sent f | unsent f =>
      simp only [Phase.step] at h
      split_ifs at h
  | opened =>
    cases e with
    | received f =>
      simp only [Phase.step] at h
      split_ifs at h with hclose
      exact .inr ⟨f, by simp, hclose⟩
    | sent f | unsent f => cases h

theorem Phase.step_unopened {l : UInt32} {phase : Phase} {e : Event} (h : Phase.step l phase e ≠ .unopened) :
    phase ≠ .unopened ∨ ∃ g ∈ attempts [e], g.header.command = kOpen ∧ g.header.arg0 = l := by
  cases phase with
  | shut | opened => exact .inl nofun
  | unopened =>
    cases e with
    | received f => exact absurd rfl h
    | sent f | unsent f =>
      simp only [Phase.step] at h
      split_ifs at h with hopen
      · exact .inr ⟨f, by simp, hopen⟩
      · exact absurd rfl h

/-- It is the CLSE of the device that shuts a stream. -/
theorem Shut.split {l : UInt32} {past es : List Event} (h : Shut l (past ++ es)) :
    Shut l past ∨ ∃ f ∈ replies es, IsClose l f := by
  rw [Shut, phaseOf_append] at h
  rw [Shut]
  generalize phaseOf l past = phase at h ⊢
  induction es generalizing phase with
  | nil => exact .inl h
  | cons e es ih =>
    rw [replies_cons]
    rcases ih _ h with hstep | ⟨f, hf, hclose⟩
    · rcases Phase.step_shut hstep with hphase | ⟨f, hf, hclose⟩
      · exact .inl hphase
      · exact .inr ⟨f, List.mem_append_left _ hf, hclose⟩
    · exact .inr ⟨f, List.mem_append_right _ hf, hclose⟩

/-- It is its OPEN that starts a stream. -/
theorem phaseOf_split {l : UInt32} {past es : List Event} (h : phaseOf l (past ++ es) ≠ .unopened) :
    phaseOf l past ≠ .unopened ∨ ∃ g ∈ attempts es, g.header.command = kOpen ∧ g.header.arg0 = l := by
  rw [phaseOf_append] at h
  generalize phaseOf l past = phase at h ⊢
  induction es generalizing phase with
  | nil => exact .inl h
  | cons e es ih =>
    rw [attempts_cons]
    rcases ih _ h with hstep | ⟨g, hg, hopen⟩
    · rcases Phase.step_unopened hstep with hphase | ⟨g, hg, hopen⟩
      · exact .inl hphase
      · exact .inr ⟨g, List.mem_append_left _ hg, hopen⟩
    · exact .inr ⟨g, List.mem_append_right _ hg, hopen⟩

/-- What is attempted for one stream alone breaks no silence while that stream is not closed. -/
theorem silent_of_own {l : UInt32} {past es : List Event} (hown : ∀ g ∈ attempts es, g.header.arg0 = l)
    (hnot : ¬ Shut l past) (hclose : ∀ f ∈ replies es, ¬ IsClose l f) : Silent past es := by
  induction es generalizing past with
  | nil => trivial
  | cons e es ih =>
    rw [attempts_cons] at hown
    rw [replies_cons] at hclose
    refine ⟨fun g hg => ?_, ih (fun g hg => hown g (List.mem_append_right _ hg)) ?_
      fun f hf => hclose f (List.mem_append_right _ hf)⟩
    · rw [hown g (List.mem_append_left _ hg)]
      exact hnot
    · intro h
      rcases h.split with h | ⟨f, hf, hf'⟩
      · exact hnot h
      · exact hclose f (List.mem_append_left _ hf) hf'

/-! ### What one operation attempts and receives -/

/-- A read of a stream that is not closed, or that brings no data, is silent. -/
theorem Transcript.silent {l r : UInt32} {fs : List Frame} {es past : List Event} (h : Transcript l r fs es)
    (hnot : Shut l past → ∀ f ∈ fs, ¬ IsData l f) : Silent past es := by
  have hnext : ∀ {past : List Event} {f : Frame} {fs : List Frame},
      (Shut l past → ∀ g ∈ f :: fs, ¬ IsData l g) → ¬ IsClose l f →
      Shut l (past ++ [.received f]) → ∀ g ∈ fs, ¬ IsData l g := by
    intro past f fs hnot hclose h
    rcases h.split with h | ⟨g, hg, hg'⟩
    · exact fun g hg => hnot h g (List.mem_cons_of_mem f hg)
    · obtain rfl : g = f := by simpa using hg
      exact absurd hg' hclose
  have hack : ∀ {past : List Event} {f : Frame} {fs : List Frame},
      (Shut l past → ∀ g ∈ f :: fs, ¬ IsData l g) → IsData l f → ¬ Shut l (past ++ [.received f]) := by
    intro past f fs hnot hdata h
    rcases h.split with h | ⟨g, hg, hg'⟩
    · exact hnot h f List.mem_cons_self hdata
    · obtain rfl : g = f := by simpa using hg
      exact hdata.not_isClose hg'
  induction h generalizing past with
  | nil => trivial
  | skip hskip _ ih => exact ⟨by simp, ih (hnext hnot (not_isClose_of_skips hskip))⟩
  | @data f fs es hdata _ ih =>
    refine ⟨by simp, ?_, ih fun h => ?_⟩
    · intro g hg
      obtain rfl : g = StreamOn.acknowledgement l r := by simpa using hg
      exact hack hnot hdata
    · rcases h.split with h | ⟨g, hg, -⟩
      · exact absurd h (hack hnot hdata)
      · simp at hg
  | unanswered hdata =>
    refine ⟨by simp, ?_, trivial⟩
    intro g hg
    obtain rfl : g = StreamOn.acknowledgement l r := by simpa using hg
    exact hack hnot hdata
  | stop _ => exact ⟨by simp, trivial⟩

namespace Streams

variable {ι : Type} [DecidableEq ι] {s s' : Streams ι Dialogue} {op : Operation ι} {past es : List Event}

/-- An OPEN is sent for a new local id alone. -/
theorem Effect.opened_new (h : Effect s op es s') {g : Frame} (hg : g ∈ attempts es)
    (hopen : g.header.command = kOpen) :
    g.header.arg0 = s.connection.nextLocalId ∧ s'.connection.nextLocalId = s.connection.nextLocalId + 1 ∧
      op.opens = 1 := by
  have hclse : kClse ≠ kOpen := by decide
  have hwrte : kWrte ≠ kOpen := by decide
  have hokay : kOkay ≠ kOpen := by decide
  cases h with
  | void | constructed => simp at hg
  | opened _ hopening | refused _ hopening =>
    rcases hopening.attempts g hg with rfl | rfl
    · exact ⟨rfl, rfl, rfl⟩
    · exact absurd hopen hclse
  | assigned _ _ _ hclosing | destroyed _ hclosing =>
    rw [hclosing.attempts g hg] at hopen
    exact absurd hopen hclse
  | wrote _ hattempt =>
    rw [hattempt.attempts g hg] at hopen
    exact absurd hopen hwrte
  | took _ _ htranscript =>
    rw [htranscript.attempts g hg] at hopen
    exact absurd hopen hokay

/-- A read that meets the CLSE of its stream marks the stream closed. -/
theorem Effect.read_closed (h : Effect s op es s') {z : ι} {o p : Object} (hreader : op.reader = some z)
    (hx : s.objects z = some o) (hz : s'.objects z = some p) {f : Frame} (hf : f ∈ takes op s)
    (hclose : IsClose o.stream.localId f) : p.stream.closed = true := by
  cases h with
  | void hvoid =>
    rw [hvoid.takes] at hf
    cases hf
  | opened | refused | constructed | assigned | wrote | destroyed => cases hreader
  | took hreader' hx' _ _ _ hclosed =>
    obtain rfl := Option.some.inj (hreader.symm.trans hreader')
    obtain rfl := Option.some.inj (hx.symm.trans hx')
    rw [set_same] at hz
    cases hz
    have hany : ((takes op s).any fun f => IsClose o.stream.localId f) = true :=
      List.any_eq_true.mpr ⟨f, hf, decide_eq_true hclose⟩
    rw [hclosed, hany, Bool.or_true]

omit [DecidableEq ι] in
theorem target_of_reader {x : ι} (h : op.reader = some x) : op.target = none := by
  cases op <;> first | rfl | cases h

/-! ### Whole runs -/

/-- What keeps an operation from sending anything for a stream that the device has closed. -/
structure Careful (past : List Event) (op : Operation ι) (s : Streams ι Dialogue) : Prop where
  /-- No OPEN is answered with a CLSE. -/
  answered : ∀ x service, op = .open x service → ∀ f ∈ takes op s, ¬ IsClose s.connection.nextLocalId f
  /-- The CLSE of a stream that is open is met by a read of that stream. -/
  met : ∀ f ∈ takes op s, ∀ y o, s.objects y = some o → IsClose o.stream.localId f →
    o.stream.closed = true ∨ op.reader = some y
  /-- A closed stream is not written to, unless the write fails before it sends anything. -/
  unwritten : ∀ x data o, op = .write x data → s.objects x = some o → Shut o.stream.localId past →
    s.connection.maxData.toNat < data.length ∨ s.session.closed = true
  /-- A read of a closed stream meets no data. -/
  unread : ∀ x o, op.reader = some x → s.objects x = some o → Shut o.stream.localId past →
    ∀ f ∈ takes op s, ¬ IsData o.stream.localId f

omit [DecidableEq ι] in
/-- An operation that takes nothing and writes nothing is careful. -/
theorem careful_of_still (htakes : takes op s = []) (hwrite : ∀ x data, op ≠ .write x data) :
    Careful past op s := by
  refine ⟨?_, ?_, fun x data _ h => absurd h (hwrite x data), ?_⟩
  · simp [htakes]
  · simp [htakes]
  · simp [htakes]

/-- What keeps a run silent: objects know that the device has closed their streams, and the ids to
come have not been in use. -/
structure Kept (past : List Event) (s : Streams ι Dialogue) : Prop where
  silent : Silent [] past
  closed : ∀ x o, s.objects x = some o → Shut o.stream.localId past → o.stream.closed = true
  opened : ∀ l, phaseOf l past ≠ .unopened → l.toNat < s.connection.nextLocalId.toNat

omit [DecidableEq ι] in
theorem Kept.not_shut_next (h : Kept past s) : ¬ Shut s.connection.nextLocalId past := by
  intro hshut
  have hne : phaseOf s.connection.nextLocalId past ≠ .unopened := by
    rw [hshut]
    nofun
  exact Nat.lt_irrefl _ (h.opened _ hne)

theorem Kept.silent_step (h : Kept past s) (hcareful : Careful past op s) (he : Effect s op es s') :
    Silent past es := by
  have hreplies := he.replies
  cases he with
  | void | constructed => trivial
  | opened _ hopening | refused _ hopening =>
    refine silent_of_own (l := s.connection.nextLocalId) (fun g hg => ?_) h.not_shut_next ?_
    · rcases hopening.attempts g hg with rfl | rfl <;> rfl
    · rw [hreplies]
      exact hcareful.answered _ _ rfl
  | @assigned _ _ target _ _ _ _ hx _ hclosing | @destroyed _ target _ _ hx hclosing =>
    cases hclosing with
    | silent => trivial
    | attempted hopen hattempt =>
      refine silent_of_own (l := target.stream.localId) (fun g hg => ?_) (fun hshut => ?_) ?_
      · rw [hattempt.attempts g hg]
        rfl
      · rw [h.closed _ _ hx hshut] at hopen
        cases hopen
      · simp [hattempt.replies]
  | @wrote x data o _ _ _ hx hattempt hiff =>
    by_cases hnil : es = []
    · subst hnil
      trivial
    obtain ⟨hfits, hlive⟩ := hiff.mp hnil
    refine silent_of_own (l := o.stream.localId) (fun g hg => ?_) (fun hshut => ?_) ?_
    · rw [hattempt.attempts g hg]
      rfl
    · rcases hcareful.unwritten x data o rfl hx hshut with hlong | hclosed
      · exact absurd hfits (Nat.not_le.mpr hlong)
      · rw [hclosed] at hlive
        cases hlive
    · simp [hattempt.replies]
  | took hreader hx htranscript => exact htranscript.silent (hcareful.unread _ _ hreader hx)

theorem Kept.closed_step (h : Kept past s) (hcareful : Careful past op s) (he : Effect s op es s') {z : ι}
    {p : Object} (hz : s'.objects z = some p) (hshut : Shut p.stream.localId (past ++ es)) :
    p.stream.closed = true := by
  have hreplies := he.replies
  have hsplit := hshut.split
  rw [hreplies] at hsplit
  cases he.origin hz with
  | fresh hop _ hid =>
    rw [hid] at hsplit
    rcases hsplit with hshut | ⟨f, hf, hclose⟩
    · exact absurd hshut h.not_shut_next
    · exact absurd hclose (hcareful.answered _ _ hop f hf)
  | @inherited y o hy hid hclosed _ _ hplace =>
    rw [hid] at hsplit
    rcases hsplit with hshut | ⟨f, hf, hclose⟩
    · exact hclosed (h.closed y o hy hshut)
    rcases hcareful.met f hf y o hy hclose with ho | hreader
    · exact hclosed ho
    -- The read has met the CLSE of its own stream.
    rcases hplace with rfl | ⟨htarget, -⟩
    · exact he.read_closed hreader hy hz hf hclose
    · rw [target_of_reader hreader] at htarget
      cases htarget

theorem Throughout.and_ids {P : List Event → Operation ι → Streams ι Dialogue → Prop}
    {ops : List (Operation ι)} (h : Throughout P past ops s)
    (hids : s.connection.nextLocalId.toNat + opens ops < 2 ^ 32) :
    Throughout (fun past op s => P past op s ∧ s.connection.nextLocalId.toNat + op.opens < 2 ^ 32) past ops s := by
  induction ops generalizing past s with
  | nil => trivial
  | cons op ops ih =>
    rw [opens, List.map_cons, List.sum_cons] at hids
    have hle := ((effect op s).1.nextLocalId (by omega)).2
    exact ⟨⟨h.1, by omega⟩, ih h.2 (by rw [opens]; omega)⟩

theorem Kept.step (h : Kept past s) (hcareful : Careful past op s) (he : Effect s op es s')
    (hids : s.connection.nextLocalId.toNat + op.opens < 2 ^ 32) : Kept (past ++ es) s' := by
  refine ⟨?_, fun z p hz hshut => h.closed_step hcareful he hz hshut, fun l hl => ?_⟩
  · exact silent_append.mpr ⟨h.silent, h.silent_step hcareful he⟩
  · rcases phaseOf_split hl with hl | ⟨g, hg, hcommand, rfl⟩
    · exact Nat.lt_of_lt_of_le (h.opened l hl) (he.nextLocalId hids).1
    · obtain ⟨hid, hnext, hopens⟩ := he.opened_new hg hcommand
      rw [hopens] at hids
      rw [hid, hnext, toNat_succ hids]
      exact Nat.lt_succ_self _

/-- A run that is careful sends nothing for a stream that the device has closed. -/
theorem run_silent {ops : List (Operation ι)} (hstart : ∀ x, s.objects x = none)
    (hids : s.connection.nextLocalId.toNat + opens ops < 2 ^ 32)
    (hcareful : Throughout Careful [] ops s) : Silent [] (history ops s) := by
  have hkept : Kept [] s := by
    refine ⟨trivial, fun x o hx => ?_, fun l hl => absurd rfl hl⟩
    cases (hstart x).symm.trans hx
  exact (hcareful.and_ids hids).keeps (I := Kept) (fun h hP he _ => h.step hP.1 he hP.2) hkept |>.silent

/-- The device refuses the stream. -/
def refusing : Streams (Fin 1) Dialogue where
  connection := { session := { inbox := [.frame ⟨makeEmptyMessage kClse 0 2, []⟩] } }

/-- The stream object that failed to open answers the CLSE with a CLSE. -/
theorem refused_not_silent : ¬ Silent [] (history [.open 0 (bytesOf "shell:ls")] refusing) := by decide

/-- The device accepts the stream, sends a byte, and closes it. -/
def listing : Streams (Fin 1) Dialogue where
  connection := { maxData := 4096, session := { inbox := [.frame ⟨makeEmptyMessage kOkay 7 2, []⟩,
    .frame ⟨{ makeEmptyMessage kWrte 7 2 with dataLength := 1 }, [97]⟩,
    .frame ⟨makeEmptyMessage kClse 7 2, []⟩] } }

def listOnce : List (Operation (Fin 1)) :=
  [.open 0 (bytesOf "shell:ls"), .write 0 [10], .readAll 0, .destroy 0]

theorem run_silent_listing : Silent [] (history listOnce listing) := by
  refine run_silent (fun _ => rfl) (by decide) ⟨⟨?_, ?_, nofun, nofun⟩, ⟨nofun, nofun, ?_, nofun⟩,
    ⟨nofun, ?_, nofun, ?_⟩, careful_of_still rfl nofun, trivial⟩
  · rintro x service ⟨⟩
    decide
  · intro f _ y o hy
    cases hy
  · intro x data o _ hx hshut
    match x with
    | 0 =>
      cases hx
      exact absurd hshut (by decide)
  · intro f _ y o _ _
    exact .inr (congrArg some (Subsingleton.elim _ _))
  · intro x o _ hx hshut
    match x with
    | 0 =>
      cases hx
      exact absurd hshut (by decide)

end Streams

end Adbcpp
