import Adbcpp.Stream.Delivery
import Adbcpp.Streams.Effects

/-! Flow control in both directions. The device paces the host with its OKAYs: a WRTE may
only be sent when the one before it has been acknowledged. With delayed acknowledgements
the host releases the window of the device by the byte counts in its own OKAYs. The code
does neither, so that it is up to the calls and to the frames whether a run keeps to it. -/

namespace Adbcpp

open Protocol Dialogue

/-! ### What the host sends -/

/-- A WRTE of the host for the stream. -/
def IsWrite (l : UInt32) (f : Frame) : Prop := f.header.command = kWrte ∧ f.header.arg0 = l

instance (l : UInt32) (f : Frame) : Decidable (IsWrite l f) := inferInstanceAs (Decidable (_ ∧ _))

/-- An OKAY of the device for the stream. -/
def IsReady (l : UInt32) (f : Frame) : Prop := f.header.arg1 = l ∧ f.header.command = kOkay

instance (l : UInt32) (f : Frame) : Decidable (IsReady l f) := inferInstanceAs (Decidable (_ ∧ _))

/-- How many WRTEs of the stream are in flight after some events, if `n` were before them. -/
def inFlight (l : UInt32) : ℕ → List Event → ℕ
  | n, [] => n
  | n, e :: es => inFlight l
    (n + (attempts [e]).countP (fun g => IsWrite l g) - (replies [e]).countP fun f => IsReady l f) es

/-- A WRTE of the stream is attempted only when none is in flight. -/
def Paced (l : UInt32) : ℕ → List Event → Prop
  | _, [] => True
  | n, e :: es => ((∃ g ∈ attempts [e], IsWrite l g) → n = 0) ∧ Paced l (inFlight l n [e]) es

instance Paced.decidable (l : UInt32) : ∀ n es, Decidable (Paced l n es)
  | _, [] => inferInstanceAs (Decidable True)
  | n, e :: es =>
    have := Paced.decidable l (inFlight l n [e]) es
    inferInstanceAs (Decidable (_ ∧ _))

theorem paced_append {l : UInt32} {n : ℕ} {a b : List Event} :
    Paced l n (a ++ b) ↔ Paced l n a ∧ Paced l (inFlight l n a) b := by
  induction a generalizing n with
  | nil => simp [Paced, inFlight]
  | cons e a ih => simp [Paced, inFlight, ih, and_assoc]

/-- Where no WRTE is attempted the acknowledgements are counted off. -/
theorem paced_of_none {l : UInt32} {es : List Event} (h : ∀ g ∈ attempts es, ¬ IsWrite l g) (n : ℕ) :
    Paced l n es ∧ inFlight l n es = n - (replies es).countP fun f => IsReady l f := by
  induction es generalizing n with
  | nil => exact ⟨trivial, rfl⟩
  | cons e es ih =>
    rw [attempts_cons] at h
    obtain ⟨he, hes⟩ := List.forall_mem_append.mp h
    have hcount : (attempts [e]).countP (fun g => IsWrite l g) = 0 := by
      rw [List.countP_eq_zero]
      simpa using he
    obtain ⟨hpaced, hflight⟩ := ih hes (n - (replies [e]).countP fun f => IsReady l f)
    rw [Paced, inFlight, inFlight, inFlight, hcount, Nat.add_zero]
    refine ⟨⟨?_, hpaced⟩, ?_⟩
    · rintro ⟨g, hg, hwrite⟩
      exact absurd hwrite (he g hg)
    · rw [hflight, replies_cons e es, List.countP_append, Nat.sub_sub]

theorem Dialogue.Attempt.paced {l : UInt32} {f : Frame} {r : Except Error Unit} {es : List Event}
    (h : Attempt f r es) (hes : es ≠ []) (hf : IsWrite l f) (n : ℕ) :
    (Paced l n es ↔ n = 0) ∧ inFlight l n es = n + 1 := by
  cases h with
  | refused => exact absurd rfl hes
  | sent | unsent => simp [Paced, inFlight, hf]

namespace Streams

variable {ι : Type} [DecidableEq ι]

/-- The operation writes to the stream, and the write is sent: it fits, and the session is open. -/
def writesOn (l : UInt32) (op : Operation ι) (s : Streams ι Dialogue) : Bool :=
  match op with
  | .write x data => match s.objects x with
    | none => false
    | some o => o.stream.localId = l ∧ data.length ≤ s.connection.maxData.toNat ∧ s.session.closed = false
  | _ => false

/-- The stream is written to only when the OKAY of the write before has been taken by some call,
where `n` writes are still to be acknowledged at the start. -/
def InTurn (l : UInt32) : ℕ → List (Operation ι) → Streams ι Dialogue → Prop
  | _, [], _ => True
  | n, op :: ops, s => (writesOn l op s = true → n = 0) ∧
    InTurn l (n + (writesOn l op s).toNat - (takes op s).countP fun f => IsReady l f) ops
      ((exec op).run s).2

variable {s s' : Streams ι Dialogue} {op : Operation ι} {es : List Event}

/-- An operation attempts a WRTE of the stream where it writes to it, and no other. -/
theorem Effect.writes (h : Effect s op es s') (l : UInt32) :
    (writesOn l op s = true ∧ ∃ f r, Attempt f r es ∧ es ≠ [] ∧ IsWrite l f) ∨
    (writesOn l op s = false ∧ ∀ g ∈ attempts es, ¬ IsWrite l g) := by
  have hopen : kOpen ≠ kWrte := by decide
  cases h with
  | void hvoid =>
    right
    refine ⟨?_, by simp⟩
    cases op with
    | write x data => rw [writesOn, show s.objects x = none from hvoid]
    | «open» | moveConstruct | moveAssign | read | readAll | destroy => rfl
  | opened _ hopening | refused _ hopening =>
    refine .inr ⟨rfl, fun g hg hwrite => ?_⟩
    rcases hopening.attempts g hg with rfl | rfl
    · exact hopen hwrite.1
    · exact kClse_ne_kWrte hwrite.1
  | constructed => exact .inr ⟨rfl, by simp⟩
  | assigned _ _ _ hclosing | destroyed _ hclosing =>
    refine .inr ⟨rfl, fun g hg hwrite => ?_⟩
    rw [hclosing.attempts g hg] at hwrite
    exact kClse_ne_kWrte hwrite.1
  | took hreader _ htranscript =>
    refine .inr ⟨?_, fun g hg hwrite => ?_⟩
    · cases op <;> first | rfl | cases hreader
    · rw [htranscript.attempts g hg] at hwrite
      exact kOkay_ne_kWrte hwrite.1
  | @wrote x data o r _ _ hx hattempt hiff =>
    rw [writesOn, hx]
    by_cases hwrites : o.stream.localId = l ∧ data.length ≤ s.connection.maxData.toNat ∧
        s.session.closed = false
    · exact .inl ⟨decide_eq_true hwrites, _, r, hattempt, hiff.mpr hwrites.2, rfl, hwrites.1⟩
    · refine .inr ⟨decide_eq_false hwrites, fun g hg hwrite => hwrites ?_⟩
      have hes : es ≠ [] := by
        rintro rfl
        cases hg
      rw [hattempt.attempts g hg] at hwrite
      exact ⟨hwrite.2, hiff.mp hes⟩

omit [DecidableEq ι] in
theorem takes_of_writesOn {l : UInt32} (h : writesOn l op s = true) : takes op s = [] := by
  cases op with
  | write => rfl
  | «open» | moveConstruct | moveAssign | read | readAll | destroy => cases h

/-- A run sends a WRTE of the stream only when the one before it has been acknowledged, if and only if
its writes to the stream are in turn with the OKAYs that its calls take. -/
theorem paced_iff (l : UInt32) (n : ℕ) (ops : List (Operation ι)) (s : Streams ι Dialogue) :
    Paced l n (history ops s) ↔ InTurn l n ops s := by
  induction ops generalizing n s with
  | nil => exact Iff.rfl
  | cons op ops ih =>
    have heffect := (effect op s).1
    rw [history, paced_append, ih, InTurn]
    rcases heffect.writes l with ⟨hwrites, f, r, hattempt, hes, hf⟩ | ⟨hnot, hnone⟩
    · obtain ⟨hpaced, hflight⟩ := hattempt.paced hes hf n
      rw [hpaced, hflight, hwrites, takes_of_writesOn hwrites]
      simp
    · obtain ⟨hpaced, hflight⟩ := paced_of_none hnone n
      rw [hflight, heffect.replies, hnot]
      simp [hpaced]

/-- The device accepts the stream and acknowledges one write. -/
def acknowledging : Streams (Fin 1) Dialogue where
  connection := { maxData := 4096, session := { inbox := [.frame ⟨makeEmptyMessage kOkay 7 2, []⟩,
    .frame ⟨makeEmptyMessage kOkay 7 2, []⟩] } }

/-- The second of two writes in a row does not wait for the OKAY of the first one. -/
theorem writes_not_paced :
    ¬ Paced 2 0 (history [.open 0 (bytesOf "sync:"), .write 0 [1], .write 0 [2]] acknowledging) := by
  decide

end Streams

/-! ### What the host receives -/

/-- An OKAY of the host for the stream. -/
def IsCredit (l : UInt32) (f : Frame) : Prop := f.header.command = kOkay ∧ f.header.arg0 = l

instance (l : UInt32) (f : Frame) : Decidable (IsCredit l f) := inferInstanceAs (Decidable (_ ∧ _))

/-- The byte count that an OKAY carries; one without a payload carries none. -/
def credit (f : Frame) : ℕ := (readU32LE f.payload).toNat

/-- The account of a stream: the bytes of the WRTE that has just arrived for it, the bytes of the WRTEs
that have been consumed and acknowledged, and the sum of the counts in the acknowledgements. -/
structure Ledger where
  last : ℕ := 0
  consumed : ℕ := 0
  credited : ℕ := 0

/-- An OKAY of the host acknowledges the WRTE right before it. -/
def Ledger.attempt (l : UInt32) (a : Ledger) (g : Frame) : Ledger :=
  if IsCredit l g then ⟨0, a.consumed + a.last, a.credited + credit g⟩ else { a with last := 0 }

def Ledger.step (l : UInt32) (a : Ledger) : Event → Ledger
  | .received f => { a with last := if IsData l f then f.payload.length else 0 }
  | .sent g => a.attempt l g
  | .unsent g => a.attempt l g

/-- Whenever a WRTE has been acknowledged, the acknowledged bytes are those that have been consumed. -/
def Balanced (l : UInt32) : Ledger → List Event → Prop
  | _, [] => True
  | a, e :: es => ((∃ g ∈ attempts [e], IsCredit l g) → (a.step l e).credited = (a.step l e).consumed) ∧
    Balanced l (a.step l e) es

instance Balanced.decidable (l : UInt32) : ∀ a es, Decidable (Balanced l a es)
  | _, [] => inferInstanceAs (Decidable True)
  | a, e :: es =>
    have := Balanced.decidable l (a.step l e) es
    inferInstanceAs (Decidable (_ ∧ _))

theorem balanced_append {l : UInt32} {a : Ledger} {es es' : List Event} :
    Balanced l a (es ++ es') ↔ Balanced l a es ∧ Balanced l (es.foldl (Ledger.step l) a) es' := by
  induction es generalizing a with
  | nil => simp [Balanced]
  | cons e es ih => simp [Balanced, ih, and_assoc]

/-- The account of a stream in which what is acknowledged is what has been consumed. -/
def Ledger.Even (a : Ledger) : Prop := a.credited = a.consumed

/-- What acknowledges nothing for the stream leaves its account alone. -/
theorem balanced_of_none {l : UInt32} {es : List Event} (h : ∀ g ∈ attempts es, ¬ IsCredit l g) {a : Ledger}
    (ha : a.Even) : Balanced l a es ∧ (es.foldl (Ledger.step l) a).Even := by
  induction es generalizing a with
  | nil => exact ⟨trivial, ha⟩
  | cons e es ih =>
    rw [attempts_cons] at h
    obtain ⟨he, hes⟩ := List.forall_mem_append.mp h
    have hstep : (a.step l e).Even := by
      cases e with
      | received f => exact ha
      | sent g | unsent g =>
        have hg : ¬ IsCredit l g := he g List.mem_cons_self
        rw [Ledger.step, Ledger.attempt, if_neg hg]
        exact ha
    obtain ⟨hbalanced, heven⟩ := ih hes hstep
    refine ⟨⟨?_, hbalanced⟩, heven⟩
    rintro ⟨g, hg, hcredit⟩
    exact absurd hcredit (he g hg)

theorem isCredit_acknowledgement (l r : UInt32) : IsCredit l (StreamOn.acknowledgement l r) := ⟨rfl, rfl⟩

/-- The acknowledgement of a WRTE evens the account where the WRTE is empty. -/
theorem Ledger.even_acknowledged {l r : UInt32} {f : Frame} (hdata : IsData l f) {a : Ledger} (ha : a.Even) :
    ((a.step l (.received f)).attempt l (StreamOn.acknowledgement l r)).Even ↔ f.payload = [] := by
  have hzero : credit (StreamOn.acknowledgement l r) = 0 := by
    change (readU32LE []).toNat = 0
    decide
  rw [Ledger.attempt, if_pos (isCredit_acknowledgement l r), Ledger.step, if_pos hdata, Ledger.Even, hzero]
  rw [Ledger.Even] at ha
  rw [← List.length_eq_zero_iff]
  dsimp only
  omega

/-- A call keeps the account of its stream even if and only if the WRTEs that it takes are empty. -/
theorem Transcript.balanced {l r : UInt32} {fs : List Frame} {es : List Event} (h : Transcript l r fs es)
    {a : Ledger} (ha : a.Even) : (Balanced l a es ↔ ∀ f ∈ fs, IsData l f → f.payload = []) ∧
      (Balanced l a es → (es.foldl (Ledger.step l) a).Even) := by
  induction h generalizing a with
  | nil => exact ⟨by simp [Balanced], fun _ => ha⟩
  | @skip f fs es hskip _ ih =>
    have hdata : ¬ IsData l f := fun h => h.not_skips hskip
    obtain ⟨hiff, heven⟩ := @ih (a.step l (.received f)) ha
    refine ⟨?_, fun h => heven h.2⟩
    rw [Balanced, hiff, List.forall_mem_cons]
    simp [hdata]
  | @data f fs es hdata _ ih =>
    have hack := Ledger.even_acknowledged (r := r) hdata ha
    have hbalanced : Balanced l a (.received f :: .sent (StreamOn.acknowledgement l r) :: es) ↔
        f.payload = [] ∧
          Balanced l ((a.step l (.received f)).attempt l (StreamOn.acknowledgement l r)) es := by
      rw [← hack]
      simp [Balanced, isCredit_acknowledgement, Ledger.step, Ledger.Even]
    rw [hbalanced, List.forall_mem_cons]
    refine ⟨⟨fun h => ?_, fun h => ?_⟩, fun h => ?_⟩
    · exact ⟨fun _ => h.1, (ih (hack.mpr h.1)).1.mp h.2⟩
    · have hnil := h.1 hdata
      exact ⟨hnil, (ih (hack.mpr hnil)).1.mpr h.2⟩
    · exact (ih (hack.mpr h.1)).2 h.2
  | @unanswered f hdata =>
    have hack := Ledger.even_acknowledged (r := r) hdata ha
    have hbalanced : Balanced l a [.received f, .unsent (StreamOn.acknowledgement l r)] ↔ f.payload = [] := by
      rw [← hack]
      simp [Balanced, isCredit_acknowledgement, Ledger.step, Ledger.Even]
    refine ⟨?_, fun h => hack.mpr (hbalanced.mp h)⟩
    rw [hbalanced, List.forall_mem_singleton]
    simp [hdata]
  | @stop f hstop =>
    have hdata : ¬ IsData l f := hstop.2
    refine ⟨?_, fun _ => ha⟩
    simp [Balanced, hdata]

namespace Streams

variable {ι : Type} [DecidableEq ι] {s s' : Streams ι Dialogue} {op : Operation ι} {es : List Event}

/-- The WRTEs that a call on the stream takes for it are empty. -/
def TakesNoBytes (l : UInt32) (op : Operation ι) (s : Streams ι Dialogue) : Prop :=
  ∀ x o, op.reader = some x → s.objects x = some o → o.stream.localId = l →
    ∀ f ∈ takes op s, IsData l f → f.payload = []

theorem Effect.balanced (h : Effect s op es s') (l : UInt32) {a : Ledger} (ha : a.Even) :
    (Balanced l a es ↔ TakesNoBytes l op s) ∧ (Balanced l a es → (es.foldl (Ledger.step l) a).Even) := by
  have hclse : kClse ≠ kOkay := kClse_ne_kOkay
  have hopen : kOpen ≠ kOkay := by decide
  have hwrte : kWrte ≠ kOkay := by decide
  have hnone (hattempts : ∀ g ∈ attempts es, ¬ IsCredit l g) (htakes : TakesNoBytes l op s) :
      (Balanced l a es ↔ TakesNoBytes l op s) ∧
        (Balanced l a es → (es.foldl (Ledger.step l) a).Even) := by
    obtain ⟨hbalanced, heven⟩ := balanced_of_none hattempts ha
    exact ⟨iff_of_true hbalanced htakes, fun _ => heven⟩
  cases h with
  | void hvoid =>
    refine hnone (by simp) fun x o _ _ _ f hf => ?_
    rw [hvoid.takes] at hf
    cases hf
  | opened _ hopening | refused _ hopening =>
    refine hnone (fun g hg hcredit => ?_) nofun
    rcases hopening.attempts g hg with rfl | rfl
    · exact hopen hcredit.1
    · exact hclse hcredit.1
  | constructed => exact hnone (by simp) nofun
  | assigned _ _ _ hclosing | destroyed _ hclosing =>
    refine hnone (fun g hg hcredit => ?_) nofun
    rw [hclosing.attempts g hg] at hcredit
    exact hclse hcredit.1
  | wrote _ hattempt =>
    refine hnone (fun g hg hcredit => ?_) nofun
    rw [hattempt.attempts g hg] at hcredit
    exact hwrte hcredit.1
  | @took _ x o t _ d hreader hx htranscript =>
    by_cases hl : o.stream.localId = l
    · subst hl
      obtain ⟨hiff, heven⟩ := htranscript.balanced ha
      refine ⟨hiff.trans ⟨fun h y p hy hp _ => h, fun h => h x o hreader hx rfl⟩, heven⟩
    · refine hnone (fun g hg hcredit => ?_) fun y p hy hp hid => ?_
      · rw [htranscript.attempts g hg] at hcredit
        exact hl hcredit.2
      · obtain rfl := Option.some.inj (hreader.symm.trans hy)
        obtain rfl := Option.some.inj (hx.symm.trans hp)
        exact absurd hid hl

/-- The OKAYs of the host carry the bytes that it has consumed at every moment of a run, if and only if
no WRTE that the calls on the stream take for it has any. -/
theorem balanced_iff (l : UInt32) (ops : List (Operation ι)) (s : Streams ι Dialogue) :
    Balanced l {} (history ops s) ↔ Always (TakesNoBytes l) ops s := by
  have hruns : ∀ a : Ledger, a.Even → (Balanced l a (history ops s) ↔ Always (TakesNoBytes l) ops s) := by
    induction ops generalizing s with
    | nil => exact fun _ _ => Iff.rfl
    | cons op ops ih =>
      intro a ha
      obtain ⟨hiff, heven⟩ := (effect op s).1.balanced l ha
      rw [history, balanced_append, Always, ← hiff]
      exact and_congr_right fun h => ih _ _ (heven h)
  exact hruns {} rfl

/-- The device sends one byte on a stream that was opened with a window. -/
def windowed : Streams (Fin 1) Dialogue where
  connection := { maxData := 4096, delayedAck := true, session := { inbox :=
    [.frame ⟨makeEmptyMessage kOkay 7 2, []⟩, .frame (StreamOn.deviceWrite 2 [97])] } }

/-- The byte is acknowledged with an OKAY that carries no count. -/
theorem window_not_released :
    (attempts (history [.open 0 (bytesOf "shell:")] windowed)).map (·.header.arg1) = [kInitialDelayedAckBytes] ∧
      ¬ Balanced 2 {} (history [.open 0 (bytesOf "shell:"), .read 0 1] windowed) := by decide

end Streams

end Adbcpp
