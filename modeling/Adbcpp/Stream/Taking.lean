import Adbcpp.Stream.Exchange

/-! What a call on a stream takes from the inbox, whatever arrives and however the
writes end. A call takes frame after frame until it has the bytes it wants, until the
device closes the stream, or until it fails; which frames these are is read off the
inbox and the outcomes of the coming writes. -/

namespace Adbcpp

open Protocol Dialogue StreamOn

/-- A CLSE of the stream `localId`. -/
def IsClose (localId : UInt32) (f : Frame) : Prop :=
  f.header.arg1 = localId ∧ f.header.command = kClse

instance (localId : UInt32) (f : Frame) : Decidable (IsClose localId f) :=
  inferInstanceAs (Decidable (_ ∧ _))

/-- A frame of the stream that ends a call on it: it is neither passed over nor data. -/
def Stops (localId : UInt32) (f : Frame) : Prop := ¬ Skips localId f ∧ ¬ IsData localId f

theorem IsData.not_skips {localId : UInt32} {f : Frame} (h : IsData localId f) : ¬ Skips localId f := by
  rintro (hid | hokay)
  · exact hid h.1
  · exact kOkay_ne_kWrte (hokay.symm.trans h.2)

theorem IsClose.stops {localId : UInt32} {f : Frame} (h : IsClose localId f) : Stops localId f := by
  refine ⟨?_, fun hdata => kClse_ne_kWrte (h.2.symm.trans hdata.2)⟩
  rintro (hid | hokay)
  · exact hid h.1
  · exact absurd (h.2.symm.trans hokay) (by decide)

theorem not_isClose_of_skips {localId : UInt32} {f : Frame} (h : Skips localId f) : ¬ IsClose localId f :=
  fun hclose => hclose.stops.1 h

theorem any_isClose_skips {localId : UInt32} {skipped : List Frame} (h : ∀ f ∈ skipped, Skips localId f) :
    (skipped.any fun f => IsClose localId f) = false := by
  simpa using fun f hf => not_isClose_of_skips (h f hf)

theorem IsData.not_isClose {localId : UInt32} {f : Frame} (h : IsData localId f) : ¬ IsClose localId f :=
  fun hclose => hclose.stops.2 h

/-- The error of the next write, if it fails. -/
def nextError : List WriteOutcome → Option Error
  | .failed _ e :: _ => some e
  | _ => none

/-- The frames that a call takes which still wants some bytes, or all of them. The call ends with
the first of its acknowledgements that fails. -/
def taken (localId : UInt32) : List Arrival → Option ℕ → List WriteOutcome → List Frame
  | .frame f :: rest, want, outcomes =>
    if want = some 0 then []
    else if Skips localId f then f :: taken localId rest want outcomes
    else if IsData localId f ∧ nextError outcomes = none then
      f :: taken localId rest (want.map (· - f.payload.length)) outcomes.tail
    else [f]
  | _, _, _ => []

/-- What goes by while frames are taken: each WRTE of the stream is answered before the next frame. -/
inductive Transcript (localId remoteId : UInt32) : List Frame → List Event → Prop
  | nil : Transcript localId remoteId [] []
  | skip {f : Frame} {fs : List Frame} {es : List Event} : Skips localId f →
      Transcript localId remoteId fs es → Transcript localId remoteId (f :: fs) (.received f :: es)
  | data {f : Frame} {fs : List Frame} {es : List Event} : IsData localId f →
      Transcript localId remoteId fs es → Transcript localId remoteId (f :: fs)
        (.received f :: .sent (acknowledgement localId remoteId) :: es)
  | unanswered {f : Frame} : IsData localId f → Transcript localId remoteId [f]
      [.received f, .unsent (acknowledgement localId remoteId)]
  | stop {f : Frame} : Stops localId f → Transcript localId remoteId [f] [.received f]

/-- What was attempted while frames were taken acknowledges them. -/
theorem Transcript.attempts {localId remoteId : UInt32} {fs : List Frame} {es : List Event}
    (h : Transcript localId remoteId fs es) :
    ∀ g ∈ Adbcpp.attempts es, g = StreamOn.acknowledgement localId remoteId := by
  induction h with
  | nil => simp
  | skip _ _ ih => simpa using ih
  | data _ _ ih => simpa using ih
  | unanswered _ => simp
  | stop _ => simp

theorem Transcript.replies {l r : UInt32} {fs : List Frame} {es : List Event} (h : Transcript l r fs es) :
    Adbcpp.replies es = fs := by
  induction h with
  | nil => rfl
  | skip _ _ ih => rw [replies_received, ih]
  | data _ _ ih => rw [replies_received, replies_sent, ih]
  | unanswered _ => rfl
  | stop _ => rfl

theorem Transcript.skips {localId remoteId : UInt32} {skipped fs : List Frame} {es : List Event}
    (hskip : ∀ f ∈ skipped, Skips localId f) (h : Transcript localId remoteId fs es) :
    Transcript localId remoteId (skipped ++ fs) (skipped.map .received ++ es) := by
  induction skipped with
  | nil => exact h
  | cons f skipped ih =>
    exact .skip (hskip f List.mem_cons_self) (ih fun g hg => hskip g (List.mem_cons_of_mem f hg))

theorem taken_skips {localId : UInt32} {skipped : List Frame} (hskip : ∀ f ∈ skipped, Skips localId f)
    (rest : List Arrival) {want : Option ℕ} (hwant : want ≠ some 0) (outcomes : List WriteOutcome) :
    taken localId (skipped.map .frame ++ rest) want outcomes =
      skipped ++ taken localId rest want outcomes := by
  induction skipped with
  | nil => rfl
  | cons f skipped ih =>
    rw [List.map_cons, List.cons_append, taken, if_neg hwant, if_pos (hskip f List.mem_cons_self),
      ih fun g hg => hskip g (List.mem_cons_of_mem f hg)]
    rfl

theorem taken_none {localId : UInt32} {rest : List Arrival} (h : ∀ f rest', rest ≠ .frame f :: rest')
    (want : Option ℕ) (outcomes : List WriteOutcome) : taken localId rest want outcomes = [] := by
  match rest with
  | [] => rfl
  | .fault e :: rest => rfl
  | .violation message :: rest => rfl
  | .frame f :: rest => exact absurd rfl (h f rest)

theorem taken_zero (localId : UInt32) (inbox : List Arrival) (outcomes : List WriteOutcome) :
    taken localId inbox (some 0) outcomes = [] := by
  match inbox with
  | [] => rfl
  | .fault e :: rest => rfl
  | .violation message :: rest => rfl
  | .frame f :: rest => rw [taken, if_pos rfl]

namespace Dialogue

/-- The dialogue after some frames have been received. -/
def absorb (frames : List Frame) (rest : List Arrival) (d : Dialogue) : Dialogue :=
  { d with inbox := rest, trace := d.trace ++ frames.map .received }

/-- A message without a payload is one write. -/
theorem run_send_empty {d : Dialogue} {f : Frame} (hopen : d.closed = false) (hf : f.Sized)
    (hnil : f.payload = []) : (send f.header f.payload).run d = match nextError d.outcomes with
      | some e => (.error e, { d with outcomes := d.outcomes.tail }.record (.unsent f))
      | none => (.ok (), { d with outcomes := d.outcomes.tail }.record (.sent f)) := by
  have hlen : ¬ f.header.dataLength.toNat ≠ f.payload.length := not_not.mpr hf
  have hwrite : (writeMessage f.payload).run d = write.run d := by
    rw [writeMessage, if_neg (not_not.mpr hnil), Prog.run_bind]
    generalize write.run d = q
    obtain ⟨r, d'⟩ := q
    cases r <;> rfl
  rw [run_send, if_neg (by simp [hopen]), if_neg hlen, hwrite, run_write]
  cases hout : d.outcomes with
  | nil =>
    obtain ⟨inbox, outcomes, closed, trace⟩ := d
    cases hout
    rfl
  | cons o rest => cases o <;> rfl

end Dialogue

namespace StreamOn

/-- The stream with another state of its session. -/
def withSession (d : Dialogue) (s : StreamOn Dialogue) : StreamOn Dialogue :=
  { s with connection := { s.connection with session := d } }

@[simp] theorem withSession_session (d : Dialogue) (s : StreamOn Dialogue) : (s.withSession d).session = d := rfl

theorem run_send_session {s : StreamOn Dialogue} {header : Message} {payload : List Byte}
    {r : Except Error Unit} {d : Dialogue} (h : (send header payload).run s.session = (r, d)) :
    (onConnection (Connection.send header payload)).run s = (r, s.withSession d) := by
  rw [session] at h
  rw [run_onConnection, Connection.send, Connection.run_onSession, run_channel_send, h]
  rfl

/-- What one `receiveMore` does on an open session: it passes frames over, and then receives none,
or one that it handles. -/
inductive Round (s : StreamOn Dialogue) : List Frame → Except Error Bool × StreamOn Dialogue → Prop
  | failed {skipped : List Frame} {lost rest : List Arrival} {e : Error} {closed : Bool} :
      (∀ f ∈ skipped, Skips s.stream.localId f) →
      s.session.inbox = skipped.map .frame ++ (lost ++ rest) → (∀ f, .frame f ∉ lost) →
      (∀ f rest', lost ++ rest ≠ .frame f :: rest') →
      Round s skipped
        (.error e, s.withSession { s.session.absorb skipped rest with closed := closed })
  | data {skipped : List Frame} {f : Frame} {rest : List Arrival}
      {r : Except Error Unit × Dialogue} :
      (∀ f ∈ skipped, Skips s.stream.localId f) → IsData s.stream.localId f →
      s.session.inbox = skipped.map .frame ++ .frame f :: rest →
      (send (acknowledgement s.stream.localId s.stream.remoteId).header []).run
        (s.session.absorb (skipped ++ [f]) rest) = r →
      Round s (skipped ++ [f]) (r.1.map fun _ => true,
        (s.setStream fun t => { t with incoming := f.payload, incomingOffset := 0 }).withSession r.2)
  | closed {skipped : List Frame} {f : Frame} {rest : List Arrival} :
      (∀ f ∈ skipped, Skips s.stream.localId f) → IsClose s.stream.localId f →
      s.session.inbox = skipped.map .frame ++ .frame f :: rest →
      Round s (skipped ++ [f]) (.ok false,
        (s.setStream fun t => { t with closed := true }).withSession (s.session.absorb (skipped ++ [f]) rest))
  | unexpected {skipped : List Frame} {f : Frame} {rest : List Arrival} {e : Error} :
      (∀ f ∈ skipped, Skips s.stream.localId f) → Stops s.stream.localId f →
      ¬ IsClose s.stream.localId f →
      s.session.inbox = skipped.map .frame ++ .frame f :: rest →
      Round s (skipped ++ [f]) (.error e, s.withSession (s.session.absorb (skipped ++ [f]) rest))

/-- A frame that is passed over comes before the rest of the round. -/
theorem Round.skip {s : StreamOn Dialogue} {f : Frame} {rest : List Arrival} {fs : List Frame}
    {r : Except Error Bool × StreamOn Dialogue} (hd : s.session.inbox = .frame f :: rest)
    (hf : Skips s.stream.localId f) (h : Round (s.afterFrame f rest) fs r) : Round s (f :: fs) r := by
  have hskips : ∀ {skipped : List Frame}, (∀ g ∈ skipped, Skips (s.afterFrame f rest).stream.localId g) →
      ∀ g ∈ f :: skipped, Skips s.stream.localId g := by
    intro skipped h g hg
    rcases List.mem_cons.mp hg with rfl | hg
    · exact hf
    · exact h g hg
  have habsorb (fs : List Frame) (rest' : List Arrival) :
      (s.afterFrame f rest).session.absorb fs rest' = s.session.absorb (f :: fs) rest' := by
    simp [absorb, session, afterFrame]
  cases h with
  | failed hskip hinbox hlost hnone =>
    rw [habsorb]
    exact .failed (hskips hskip) (hd.trans (congrArg _ hinbox)) hlost hnone
  | data hskip hdata hinbox hsend =>
    rw [habsorb] at hsend
    exact .data (hskips hskip) hdata (hd.trans (congrArg _ hinbox)) hsend
  | closed hskip hclose hinbox =>
    rw [habsorb]
    exact .closed (hskips hskip) hclose (hd.trans (congrArg _ hinbox))
  | unexpected hskip hstop hclose hinbox =>
    rw [habsorb]
    exact .unexpected (hskips hskip) hstop hclose (hd.trans (congrArg _ hinbox))

/-- A frame that is not passed over ends the round. -/
theorem handleFrame_round {s : StreamOn Dialogue} {f : Frame} {rest : List Arrival}
    (hd : s.session.inbox = .frame f :: rest) (hf : ¬ Skips s.stream.localId f) :
    (∃ more s', (handleFrame f).run (s.afterFrame f rest) = (.ok (.done more), s') ∧
      Round s [f] (.ok more, s')) ∨
    (∃ e s', (handleFrame f).run (s.afterFrame f rest) = (.error e, s') ∧ Round s [f] (.error e, s')) := by
  obtain ⟨hid, hokay⟩ := not_or.mp hf
  have hnone : ∀ g ∈ ([] : List Frame), Skips s.stream.localId g := by simp
  have hid' : ¬ f.header.arg1 ≠ (s.afterFrame f rest).stream.localId := hid
  rw [handleFrame, Prog.run_bind_get, if_neg hid']
  by_cases hwrte : f.header.command = kWrte
  · rw [if_pos hwrte, Prog.run_bind_modify]
    have hround := @Round.data s [] f rest _ hnone ⟨not_not.mp hid, hwrte⟩ hd rfl
    have hack (r : Except Error Unit) (d : Dialogue)
        (hrun : (send (acknowledgement s.stream.localId s.stream.remoteId).header []).run
          (s.session.absorb ([] ++ [f]) rest) = (r, d)) := run_send_session
      (s := (s.afterFrame f rest).setStream fun t => { t with incoming := f.payload, incomingOffset := 0 }) hrun
    generalize hsend : (send (acknowledgement s.stream.localId s.stream.remoteId).header []).run
      (s.session.absorb ([] ++ [f]) rest) = q at hround
    obtain ⟨r, d⟩ := q
    cases r with
    | ok =>
      left
      exact ⟨true, _, Prog.run_bind_ok (hack _ _ hsend), hround⟩
    | error e =>
      right
      exact ⟨e, _, Prog.run_bind_error (hack _ _ hsend), hround⟩
  · rw [if_neg hwrte, if_neg hokay]
    by_cases hclse : f.header.command = kClse
    · left
      rw [if_pos hclse]
      exact ⟨false, _, rfl, @Round.closed s [] f rest hnone ⟨not_not.mp hid, hclse⟩ hd⟩
    · right
      rw [if_neg hclse]
      exact ⟨_, _, rfl, @Round.unexpected s [] f rest _ hnone ⟨hf, fun h => hwrte h.2⟩ (fun h => hclse h.2) hd⟩

theorem receiveMore_round {s : StreamOn Dialogue} (hopen : s.session.closed = false) :
    ∃ fs, Round s fs (receiveMore.run s) := by
  have hfailed : ∀ s : StreamOn Dialogue, s.session.closed = false →
      (∀ f rest, s.session.inbox ≠ .frame f :: rest) → Round s [] (receiveMore.run s) := by
    intro s hopen hd
    obtain ⟨e, d, hrun, ⟨hout, htrace, lost, hinbox, hlost⟩, -⟩ := run_receive_failed (.inr hd)
    have hsession : d = { s.session.absorb [] d.inbox with closed := d.closed } := by
      obtain ⟨inbox, outcomes, closed, trace⟩ := d
      simpa [absorb] using ⟨hout, htrace⟩
    have hround := @Round.failed s [] lost d.inbox e d.closed (by simp) hinbox hlost (hinbox ▸ hd)
    rw [← hsession] at hround
    rw [receiveMore, Prog.loop_error _ (Prog.run_bind_error hrun)]
    exact hround
  induction hd : s.session.inbox generalizing s with
  | nil => exact ⟨[], hfailed s hopen (by simp [hd])⟩
  | cons a rest ih =>
    cases a with
    | fault e => exact ⟨[], hfailed s hopen (by simp [hd])⟩
    | violation message => exact ⟨[], hfailed s hopen (by simp [hd])⟩
    | frame f =>
      have hturn : (receiveMoreTurn ()).run s = (handleFrame f).run (s.afterFrame f rest) :=
        Prog.run_bind_ok (run_receive_frame hopen hd)
      by_cases hskip : Skips s.stream.localId f
      · rw [handleFrame_skips (s := s.afterFrame f rest) hskip] at hturn
        rw [receiveMore, Prog.loop_again _ hturn]
        obtain ⟨fs, h⟩ := @ih (s.afterFrame f rest) hopen rfl
        exact ⟨f :: fs, h.skip hd hskip⟩
      · rcases handleFrame_round hd hskip with ⟨more, s', hrun, hround⟩ | ⟨e, s', hrun, hround⟩
        · rw [receiveMore, Prog.loop_done _ (hturn.trans hrun)]
          exact ⟨[f], hround⟩
        · rw [receiveMore, Prog.loop_error _ (hturn.trans hrun)]
          exact ⟨[f], hround⟩

/-! ### Whole calls -/

/-- What a call that has taken the frames `fs` has made of the stream. -/
structure Takes (fs : List Frame) (s s' : StreamOn Dialogue) : Prop where
  same : SameStream s s'
  inbox : ∃ lost, s.session.inbox = fs.map .frame ++ (lost ++ s'.session.inbox) ∧ ∀ f, .frame f ∉ lost
  trace : ∃ es, s'.session.trace = s.session.trace ++ es ∧
    Transcript s.stream.localId s.stream.remoteId fs es
  closed : s'.stream.closed = (s.stream.closed || fs.any fun f => IsClose s.stream.localId f)

theorem Takes.nil {s s' : StreamOn Dialogue} (hsame : SameStream s s') (hsession : s'.session = s.session)
    (hclosed : s'.stream.closed = s.stream.closed) : Takes [] s s' := by
  refine ⟨hsame, ⟨[], ?_, by simp⟩, ⟨[], ?_, .nil⟩, ?_⟩
  · rw [hsession]
    rfl
  · rw [hsession, List.append_nil]
  · rw [hclosed, List.any_nil, Bool.or_false]

/-- An update of the buffer before a call makes no difference to what the call takes. -/
theorem Takes.of_same {fs : List Frame} {s t u : StreamOn Dialogue} (hsame : SameStream s t)
    (hsession : t.session = s.session) (hclosed : t.stream.closed = s.stream.closed) (h : Takes fs t u) :
    Takes fs s u := by
  obtain ⟨hsame', hinbox, htrace, hcl⟩ := h
  rw [hsession] at hinbox htrace
  rw [hsame.localId, hsame.remoteId] at htrace
  rw [hclosed, hsame.localId] at hcl
  exact ⟨trans_of SameStream hsame hsame', hinbox, htrace, hcl⟩

/-- The answer to the WRTE of a round. -/
theorem run_answer {s : StreamOn Dialogue} (hopen : s.session.closed = false) (fs : List Frame)
    (rest : List Arrival) :
    (send (acknowledgement s.stream.localId s.stream.remoteId).header []).run (s.session.absorb fs rest) =
      match nextError s.session.outcomes with
      | some e => (.error e, { s.session.absorb fs rest with outcomes := s.session.outcomes.tail }.record
          (.unsent (acknowledgement s.stream.localId s.stream.remoteId)))
      | none => (.ok (), { s.session.absorb fs rest with outcomes := s.session.outcomes.tail }.record
          (.sent (acknowledgement s.stream.localId s.stream.remoteId))) :=
  run_send_empty (d := s.session.absorb fs rest)
    (f := acknowledgement s.stream.localId s.stream.remoteId) hopen rfl rfl

/-- A round that brings no data is the last one of its call. -/
theorem Round.ends {s s' : StreamOn Dialogue} {fs : List Frame} {r : Except Error Bool}
    (h : Round s fs (r, s')) (hopen : s.session.closed = false) (hr : r ≠ .ok true) {want : Option ℕ}
    (hwant : want ≠ some 0) :
    taken s.stream.localId s.session.inbox want s.session.outcomes = fs ∧ Takes fs s s' := by
  cases h with
  | failed hskip hinbox hlost hnone =>
    refine ⟨?_, ⟨rfl, rfl, rfl, rfl⟩, ⟨_, hinbox, hlost⟩, ⟨fs.map .received, rfl, ?_⟩, ?_⟩
    · rw [hinbox, taken_skips hskip _ hwant, taken_none hnone, List.append_nil]
    · have hnil : Transcript s.stream.localId s.stream.remoteId [] [] := .nil
      simpa using Transcript.skips hskip hnil
    · rw [any_isClose_skips hskip, Bool.or_false]
      rfl
  | @data skipped f rest q hskip hdata hinbox hsend =>
    rw [run_answer hopen] at hsend
    cases hnext : nextError s.session.outcomes with
    | none =>
      rw [hnext] at hsend
      subst hsend
      exact absurd rfl hr
    | some e =>
      rw [hnext] at hsend
      subst hsend
      refine ⟨?_, ⟨rfl, rfl, rfl, rfl⟩, ⟨[], ?_, by simp⟩,
        ⟨_, ?_, Transcript.skips hskip (.unanswered hdata)⟩, ?_⟩
      · rw [hinbox, taken_skips hskip _ hwant, taken, if_neg hwant, if_neg hdata.not_skips,
          if_neg (by simp [hnext])]
      · rw [hinbox]
        simp [record, absorb]
      · simp [record, absorb]
      · rw [List.any_append, any_isClose_skips hskip]
        simp [hdata.not_isClose, withSession, setStream]
  | @closed skipped f rest hskip hclose hinbox =>
    refine ⟨?_, ⟨rfl, rfl, rfl, rfl⟩, ⟨[], ?_, by simp⟩,
      ⟨_, ?_, Transcript.skips hskip (.stop hclose.stops)⟩, ?_⟩
    · rw [hinbox, taken_skips hskip _ hwant, taken, if_neg hwant, if_neg hclose.stops.1,
        if_neg fun h => hclose.stops.2 h.1]
    · rw [hinbox]
      simp [absorb]
    · simp [absorb]
    · simp [hclose, withSession, setStream]
  | @unexpected skipped f rest e hskip hstop hclose hinbox =>
    refine ⟨?_, ⟨rfl, rfl, rfl, rfl⟩, ⟨[], ?_, by simp⟩, ⟨_, ?_, Transcript.skips hskip (.stop hstop)⟩, ?_⟩
    · rw [hinbox, taken_skips hskip _ hwant, taken, if_neg hwant, if_neg hstop.1, if_neg fun h => hstop.2 h.1]
    · rw [hinbox]
      simp [absorb]
    · simp [absorb]
    · rw [List.any_append, any_isClose_skips hskip]
      simp [hclose, withSession]

theorem Round.sameStream {s s' : StreamOn Dialogue} {fs : List Frame} {r : Except Error Bool}
    (h : Round s fs (r, s')) : SameStream s s' := by
  cases h <;> exact ⟨rfl, rfl, rfl, rfl⟩

/-- A round that brings data, and what the call takes after it. -/
structure Goes (s : StreamOn Dialogue) (fs : List Frame) (s' : StreamOn Dialogue) : Prop where
  opened : s'.session.closed = false
  stream : ∃ payload, s'.stream = { s.stream with incoming := payload, incomingOffset := 0 } ∧
    ∀ want, want ≠ some 0 → taken s.stream.localId s.session.inbox want s.session.outcomes =
      fs ++ taken s.stream.localId s'.session.inbox (want.map (· - payload.length)) s'.session.outcomes
  takes : ∀ {gs t u}, SameStream s' t → t.session = s'.session → t.stream.closed = s'.stream.closed →
    Takes gs t u → Takes (fs ++ gs) s u

theorem Round.goes {s s' : StreamOn Dialogue} {fs : List Frame} (h : Round s fs (.ok true, s'))
    (hopen : s.session.closed = false) : Goes s fs s' := by
  have hsame₀ := h.sameStream
  generalize hq : ((.ok true, s') : Except Error Bool × StreamOn Dialogue) = q at h
  cases h with
  | failed => cases hq
  | closed => cases hq
  | unexpected => cases hq
  | @data skipped f rest r hskip hdata hinbox hsend =>
    rw [run_answer hopen] at hsend
    cases hnext : nextError s.session.outcomes with
    | some e =>
      rw [hnext] at hsend
      subst hsend
      cases hq
    | none =>
      rw [hnext] at hsend
      subst hsend
      cases hq
      refine ⟨hopen, ⟨f.payload, rfl, ?_⟩, ?_⟩
      · intro want hwant
        rw [hinbox, taken_skips hskip _ hwant, taken, if_neg hwant, if_neg hdata.not_skips,
          if_pos ⟨hdata, hnext⟩, List.append_cons]
        rfl
      · rintro gs t u hsame₁ hsession hclosed ⟨hsame, ⟨lost, hin, hlost⟩, ⟨es, htrace, htranscript⟩, hcl⟩
        rw [hsession] at hin htrace
        have hlocal : t.stream.localId = s.stream.localId := hsame₁.localId
        have hremote : t.stream.remoteId = s.stream.remoteId := hsame₁.remoteId
        rw [hlocal, hremote] at htranscript
        rw [← List.append_cons]
        refine ⟨?_, ⟨lost, ?_, hlost⟩, ⟨_, ?_, Transcript.skips hskip (.data hdata htranscript)⟩, ?_⟩
        · exact trans_of SameStream hsame₀ (trans_of SameStream hsame₁ hsame)
        · have hrest : rest = gs.map .frame ++ (lost ++ u.session.inbox) := hin
          rw [hinbox, hrest]
          simp
        · rw [htrace]
          simp [record, absorb]
        · rw [hcl, hclosed, hlocal]
          simp [any_isClose_skips hskip, hdata.not_isClose, setStream, withSession]

/-! ### Reads -/

/-- The error of a fill is that of its round. -/
theorem fillBuffer_round {s : StreamOn Dialogue} (hopen : s.session.closed = false) :
    (s.buffered ≠ [] ∧ fillBuffer.run s = (.ok (), s)) ∨
    (s.buffered = [] ∧ ∃ fs r s', Round s fs (r, s') ∧
      ((r = .ok true ∧ fillBuffer.run s = (.ok (), s')) ∨ r ≠ .ok true ∧ ∃ e, fillBuffer.run s = (.error e, s'))) := by
  have hempty : s.buffered = [] ↔ s.stream.incomingOffset ≥ s.stream.incoming.length := by
    rw [buffered, List.drop_eq_nil_iff]
  by_cases h : s.stream.incomingOffset ≥ s.stream.incoming.length
  swap
  · refine .inl ⟨fun hnil => h (hempty.mp hnil), ?_⟩
    rw [fillBuffer, Prog.run_bind_get, if_neg h]
    rfl
  refine .inr ⟨hempty.mpr h, ?_⟩
  obtain ⟨fs, hround⟩ := receiveMore_round hopen
  generalize hrun : receiveMore.run s = q at hround
  obtain ⟨r, s'⟩ := q
  refine ⟨fs, r, s', hround, ?_⟩
  rw [fillBuffer, Prog.run_bind_get, if_pos h]
  cases r with
  | error e => exact .inr ⟨by simp, e, Prog.run_bind_error hrun⟩
  | ok more =>
    cases more with
    | true => exact .inl ⟨rfl, Prog.run_bind_ok hrun⟩
    | false => exact .inr ⟨by simp, _, Prog.run_bind_ok hrun⟩

/-- The frames that a read of `size` bytes takes. -/
def readTaken (size : ℕ) (s : StreamOn Dialogue) : List Frame :=
  if s.session.closed then []
  else taken s.stream.localId s.session.inbox (some (size - s.buffered.length)) s.session.outcomes

theorem readTaken_open {s : StreamOn Dialogue} (hopen : s.session.closed = false) (size : ℕ) :
    readTaken size s =
      taken s.stream.localId s.session.inbox (some (size - s.buffered.length)) s.session.outcomes := by
  rw [readTaken, if_neg (by simp [hopen])]

/-- What `takeBuffered` leaves in the buffer. -/
theorem length_buffered_taken (count : ℕ) (s : StreamOn Dialogue) :
    (s.setStream fun t => { t with incomingOffset := t.incomingOffset + min s.buffered.length count }).buffered.length =
      s.buffered.length - count := by
  rw [buffered, buffered, List.length_drop, List.length_drop]
  dsimp only [setStream]
  omega

/-- Handing out what is buffered makes no difference to what a read takes. -/
theorem readTaken_handed {size : ℕ} {out : List Byte} {s : StreamOn Dialogue}
    (hopen : s.session.closed = false) (hle : out.length ≤ size) :
    readTaken (size - (out ++ s.buffered.take (size - out.length)).length)
        (s.setStream fun t => { t with
          incomingOffset := t.incomingOffset + min s.buffered.length (size - out.length) }) =
      readTaken (size - out.length) s := by
  have hwant : size - (out.length + min (size - out.length) s.buffered.length) -
      (s.buffered.length - (size - out.length)) = size - out.length - s.buffered.length := by omega
  rw [@readTaken_open (s.setStream _) hopen, readTaken_open hopen, length_buffered_taken,
    List.length_append, List.length_take, hwant]
  rfl

/-- A turn that has bytes to hand out. -/
theorem readTurn_filled {size : ℕ} {out : List Byte} {s s' : StreamOn Dialogue} (hlt : out.length < size)
    (hfill : fillBuffer.run s = (.ok (), s')) :
    (readTurn size out).run s = (.ok (.again (out ++ s'.buffered.take (size - out.length))),
      s'.setStream fun t => { t with
        incomingOffset := t.incomingOffset + min s'.buffered.length (size - out.length) }) := by
  rw [readTurn, if_pos hlt, Prog.run_bind_ok hfill, Prog.run_bind, run_takeBuffered]
  rfl

/-- A turn goes on to what the rest of the read takes, or fails with the last of its frames. -/
theorem readTurn_takes {size : ℕ} {out : List Byte} {s : StreamOn Dialogue}
    (hopen : s.session.closed = false) (hlt : out.length < size) :
    (∃ out' t, (readTurn size out).run s = (.ok (.again out'), t) ∧ t.session.closed = false ∧
      out'.length ≤ size ∧ ∀ u, Takes (readTaken (size - out'.length) t) t u →
        Takes (readTaken (size - out.length) s) s u) ∨
    (∃ e t, (readTurn size out).run s = (.error e, t) ∧ Takes (readTaken (size - out.length) s) s t) := by
  have hle (bytes : List Byte) : (out ++ bytes.take (size - out.length)).length ≤ size := by
    rw [List.length_append, List.length_take]
    omega
  rcases fillBuffer_round hopen with
    ⟨hbuf, hfill⟩ | ⟨hbuf, fs, r, s', hround, ⟨rfl, hfill⟩ | ⟨hr, e, hfill⟩⟩
  · left
    refine ⟨_, _, readTurn_filled hlt hfill, hopen, hle s.buffered, fun u htakes => ?_⟩
    rw [readTaken_handed hopen hlt.le] at htakes
    exact Takes.of_same (t := s.setStream _) ⟨rfl, rfl, rfl, rfl⟩ rfl rfl htakes
  · left
    obtain ⟨hopen', ⟨payload, hstream, htaken⟩, htakes⟩ := hround.goes hopen
    refine ⟨_, _, readTurn_filled hlt hfill, hopen', hle s'.buffered, fun u hrest => ?_⟩
    have hbuf' : s'.buffered = payload := by
      rw [buffered, hstream]
      rfl
    have hlocal : s'.stream.localId = s.stream.localId := by rw [hstream]
    rw [readTaken_handed hopen' hlt.le, readTaken_open hopen', hbuf', hlocal] at hrest
    rw [readTaken_open hopen, hbuf, List.length_nil, Nat.sub_zero, htaken _ (by simp; omega)]
    exact htakes (t := s'.setStream _) ⟨rfl, rfl, rfl, rfl⟩ rfl rfl hrest
  · right
    have hwant : some (size - out.length - s.buffered.length) ≠ some 0 := by
      simp [hbuf]
      omega
    obtain ⟨htaken, htakes⟩ := hround.ends hopen hr hwant
    refine ⟨e, s', ?_, ?_⟩
    · rw [readTurn, if_pos hlt]
      exact Prog.run_bind_error hfill
    · rwa [readTaken_open hopen, htaken]

theorem readLoop_takes (size : ℕ) (out : List Byte) (s : StreamOn Dialogue) :
    s.session.closed = false → out.length ≤ size →
      Takes (readTaken (size - out.length) s) s ((Prog.loop (readTurn_decreases size) out).run s).2 := by
  refine Prog.loop_induct (readTurn_decreases size) (P := fun out s r => s.session.closed = false →
    out.length ≤ size → Takes (readTaken (size - out.length) s) s r.2) ?_ ?_ ?_ out s
  · intro out out' s t r hb ih hopen hle
    have hlt := readTurn_lt hb (by simp)
    rcases readTurn_takes hopen hlt with ⟨_, _, hrun, hopen', hle', htakes⟩ | ⟨e, t, hrun, -⟩
    · rw [hrun] at hb
      cases hb
      exact htakes _ (ih hopen' hle')
    · rw [hrun] at hb
      cases hb
  · intro out a s t hb hopen hle
    rcases readTurn_ok hle hb with ⟨_, hturn, -⟩ | ⟨hturn, hlen, rfl⟩ <;> cases hturn
    have hwant : size - out.length - t.buffered.length = 0 := by omega
    rw [readTaken, hwant, taken_zero, ite_self]
    exact .nil (refl_of SameStream t) rfl rfl
  · intro out e s t hb hopen hle
    have hlt := readTurn_lt hb (by simp)
    rcases readTurn_takes hopen hlt with ⟨_, _, hrun, -⟩ | ⟨e, t, hrun, htakes⟩
    · rw [hrun] at hb
      cases hb
    · rw [hrun] at hb
      cases hb
      exact htakes

/-- On a closed session a call changes the buffer at most. -/
structure Idle (s s' : StreamOn Dialogue) : Prop where
  same : SameStream s s'
  session : s.session.closed = true → s'.session = s.session ∧ s'.stream.closed = s.stream.closed

instance : Std.Refl Idle := ⟨fun s => ⟨refl_of SameStream s, fun _ => ⟨rfl, rfl⟩⟩⟩

instance : IsTrans (StreamOn Dialogue) Idle where
  trans := by
    intro s t u hst htu
    refine ⟨trans_of SameStream hst.same htu.same, fun h => ?_⟩
    obtain ⟨hsession, hclosed⟩ := hst.session h
    obtain ⟨hsession', hclosed'⟩ := htu.session (hsession ▸ h)
    exact ⟨hsession'.trans hsession, hclosed'.trans hclosed⟩

theorem Idle.takes {s s' : StreamOn Dialogue} (h : Idle s s') (hclosed : s.session.closed = true) :
    Takes [] s s' :=
  .nil h.same (h.session hclosed).1 (h.session hclosed).2

theorem receiveMore_idle : Prog.Steps Idle (receiveMore : Action (StreamOn Dialogue) Bool) := by
  intro s
  refine ⟨Prog.Steps.loop _ (fun _ => receiveMoreTurn_sameStream) () s, fun hclosed => ?_⟩
  have hturn : (receiveMoreTurn ()).run s = (.error (.of .transport "the session is closed"), s) := by
    refine Prog.run_bind_error ?_
    rw [session] at hclosed
    rw [run_onConnection, Connection.receive, Connection.run_onSession, run_channel_receive,
      receive_closed hclosed]
  rw [receiveMore, Prog.loop_error _ hturn]
  exact ⟨rfl, rfl⟩

theorem setStream_idle {f : Stream → Stream} (h : UpdatesBuffer f) (s : StreamOn Dialogue) :
    Idle s (s.setStream f) := by
  have hclosed : (f s.stream).closed = s.stream.closed := by rw [h s.stream]
  exact ⟨setStream_sameStream h.keepsIds s, fun _ => ⟨rfl, hclosed⟩⟩

theorem read_idle (size : ℕ) : Prog.Steps Idle (read size : Action (StreamOn Dialogue) (List Byte)) :=
  read_steps (fun _ => setStream_idle) receiveMore_idle size

theorem readAll_idle : Prog.Steps Idle (readAll : Action (StreamOn Dialogue) (List Byte)) :=
  readAll_steps (fun _ => setStream_idle) receiveMore_idle

/-- What a read takes, whether it succeeds or fails. -/
theorem read_takes (size : ℕ) (s : StreamOn Dialogue) :
    Takes (readTaken size s) s ((read size).run s).2 := by
  cases hclosed : s.session.closed with
  | true =>
    rw [readTaken, if_pos hclosed]
    exact (read_idle size s).takes hclosed
  | false => exact readLoop_takes size [] s hclosed (Nat.zero_le _)

/-- The frames that a `readAll` takes. -/
def readAllTaken (s : StreamOn Dialogue) : List Frame :=
  if s.session.closed then []
  else taken s.stream.localId s.session.inbox none s.session.outcomes

theorem readAllTaken_open {s : StreamOn Dialogue} (hopen : s.session.closed = false) :
    readAllTaken s = taken s.stream.localId s.session.inbox none s.session.outcomes := by
  rw [readAllTaken, if_neg (by simp [hopen])]

theorem readAllLoop_takes (output : List Byte) (s : StreamOn Dialogue) : s.session.closed = false →
    Takes (readAllTaken s) s ((Prog.loop readAllTurn_decreases output).run s).2 := by
  refine Prog.loop_induct readAllTurn_decreases (P := fun _ s r => s.session.closed = false →
    Takes (readAllTaken s) s r.2) ?_ ?_ ?_ output s
  · intro output output' s t r hb ih hopen
    obtain ⟨fs, hround⟩ := receiveMore_round hopen
    obtain ⟨more, u, hmore, hb⟩ := Prog.bind_eq_ok hb
    rw [hmore] at hround
    cases more with
    | false => cases hb
    | true =>
      cases hb
      obtain ⟨hopen', ⟨payload, hstream, htaken⟩, htakes⟩ := hround.goes hopen
      have hrest := ih hopen'
      rw [@readAllTaken_open (u.setStream _) hopen'] at hrest
      have hlocal : u.stream.localId = s.stream.localId := by rw [hstream]
      rw [readAllTaken_open hopen, htaken none nofun, ← hlocal]
      exact htakes (t := u.setStream _) ⟨rfl, rfl, rfl, rfl⟩ rfl rfl hrest
  · intro output a s t hb hopen
    obtain ⟨fs, hround⟩ := receiveMore_round hopen
    obtain ⟨more, u, hmore, hb⟩ := Prog.bind_eq_ok hb
    rw [hmore] at hround
    cases more with
    | true => cases hb
    | false =>
      cases hb
      obtain ⟨htaken, htakes⟩ := hround.ends hopen nofun (show (none : Option ℕ) ≠ some 0 from nofun)
      rwa [readAllTaken_open hopen, htaken]
  · intro output e s t hb hopen
    obtain ⟨fs, hround⟩ := receiveMore_round hopen
    generalize hmore : receiveMore.run s = q at hround
    obtain ⟨r, u⟩ := q
    rw [readAllTurn, Prog.run_bind, hmore] at hb
    match r with
    | .ok true => cases hb
    | .ok false => cases hb
    | .error e =>
      cases hb
      obtain ⟨htaken, htakes⟩ := hround.ends hopen nofun (show (none : Option ℕ) ≠ some 0 from nofun)
      rwa [readAllTaken_open hopen, htaken]

/-- What a `readAll` takes, whether it succeeds or fails. -/
theorem readAll_takes (s : StreamOn Dialogue) : Takes (readAllTaken s) s (readAll.run s).2 := by
  cases hclosed : s.session.closed with
  | true =>
    rw [readAllTaken, if_pos hclosed]
    exact (readAll_idle s).takes hclosed
  | false =>
    have hloop := readAllLoop_takes s.buffered (s.setStream emptyBuffer) hclosed
    rw [readAll, Prog.run_bind_get, Prog.run_bind_modify]
    exact Takes.of_same (t := s.setStream emptyBuffer) ⟨rfl, rfl, rfl, rfl⟩ rfl rfl hloop

end StreamOn

end Adbcpp
