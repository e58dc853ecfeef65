import Adbcpp.Stream.Delivery
import Adbcpp.Stream.Taking

/-! What one call on a stream gets. While frames arrive and the writes are accepted, a read
or a `readAll` gets what the frames that it takes bring to its stream; the frames behind
them make no difference to it. -/

namespace Adbcpp

open Protocol Dialogue

/-- The bytes of the WRTEs of a stream among some frames. -/
def payloads (localId : UInt32) (fs : List Frame) : List Byte :=
  (fs.filter (IsData localId ·)).flatMap Frame.payload

theorem payloads_cons_other {localId : UInt32} {f : Frame} (h : ¬ IsData localId f) (fs : List Frame) :
    payloads localId (f :: fs) = payloads localId fs := by
  rw [payloads, List.filter_cons_of_neg (by simpa using h)]
  rfl

theorem payloads_cons_data {localId : UInt32} {f : Frame} (h : IsData localId f) (fs : List Frame) :
    payloads localId (f :: fs) = f.payload ++ payloads localId fs := by
  rw [payloads, List.filter_cons_of_pos (by simpa using h)]
  rfl

theorem upcoming_data {localId : UInt32} {f : Frame} (h : IsData localId f) (rest : List Arrival) :
    upcoming localId (.frame f :: rest) =
      (f.payload ++ (upcoming localId rest).1, (upcoming localId rest).2) := by
  rw [upcoming, if_neg (not_not.mpr h.1), if_pos h.2]

/-- A frame that ends a stream brings it nothing, whatever comes behind. -/
theorem upcoming_stops {localId : UInt32} {f : Frame} (h : Stops localId f) (rest rest' : List Arrival) :
    upcoming localId (.frame f :: rest) = ([], (upcoming localId (.frame f :: rest')).2) := by
  obtain ⟨hid, hokay⟩ := not_or.mp h.1
  have hwrte : f.header.command ≠ kWrte := fun hw => h.2 ⟨not_not.mp hid, hw⟩
  by_cases hclse : f.header.command = kClse
  · simp only [upcoming, if_neg hid, if_neg hwrte, if_neg hokay, if_pos hclse]
  · simp only [upcoming, if_neg hid, if_neg hwrte, if_neg hokay, if_neg hclse]

theorem not_ends_of_skips {localId : UInt32} {f : Frame} (h : StreamOn.Skips localId f) :
    ¬ Ends localId f := by
  rintro ⟨hid, -, hokay⟩
  exact h.elim (fun h => h hid) hokay

theorem IsData.not_ends {localId : UInt32} {f : Frame} (h : IsData localId f) : ¬ Ends localId f :=
  fun hends => hends.2.1 h.2

/-- What the frames that a call takes bring to its stream: as much as it wants, or all there is. -/
inductive Brings (localId : UInt32) (want : Option ℕ) (frames fs rest : List Frame) : Prop
  | enough {n : ℕ} : want = some n → n ≤ (payloads localId fs).length → (∀ f ∈ fs, ¬ Ends localId f) →
      Brings localId want frames fs rest
  | all : (∀ n, want = some n → (payloads localId fs).length < n) →
      (∀ more, (rest = [] → more = []) → upcoming localId (fs.map .frame ++ more) =
        (payloads localId fs, (upcoming localId (frames.map .frame)).2)) →
      Brings localId want frames fs rest

theorem nextError_accepted {outcomes : List WriteOutcome} (h : ∀ o ∈ outcomes, o = .accepted) :
    nextError outcomes = none := by
  cases outcomes with
  | nil => rfl
  | cons o outcomes =>
    rw [h o List.mem_cons_self]
    rfl

/-- A frame that is passed over brings nothing. -/
theorem Brings.skip {localId : UInt32} {want : Option ℕ} {f : Frame} {frames fs rest : List Frame}
    (hskip : StreamOn.Skips localId f) (h : Brings localId want frames fs rest) :
    Brings localId want (f :: frames) (f :: fs) rest := by
  have hdata : ¬ IsData localId f := fun h => h.not_skips hskip
  cases h with
  | enough hn hle hends =>
    refine .enough hn (by rwa [payloads_cons_other hdata]) ?_
    exact List.forall_mem_cons.mpr ⟨not_ends_of_skips hskip, hends⟩
  | all hlt hup =>
    rw [← payloads_cons_other hdata] at hlt hup
    refine .all hlt fun more hmore => ?_
    rw [List.map_cons, List.cons_append, StreamOn.upcoming_skips hskip, List.map_cons,
      StreamOn.upcoming_skips hskip]
    exact hup more hmore

/-- A WRTE brings its payload, and the frames behind it have that much less to bring. -/
theorem Brings.data {localId : UInt32} {want : Option ℕ} {f : Frame} {frames fs rest : List Frame}
    (hdata : IsData localId f) (h : Brings localId (want.map (· - f.payload.length)) frames fs rest) :
    Brings localId want (f :: frames) (f :: fs) rest := by
  cases h with
  | @enough n hn hle hends =>
    obtain ⟨m, rfl, rfl⟩ := Option.map_eq_some_iff.mp hn
    refine .enough rfl ?_ (List.forall_mem_cons.mpr ⟨hdata.not_ends, hends⟩)
    rw [payloads_cons_data hdata, List.length_append]
    omega
  | all hlt hup =>
    refine .all (fun n hn => ?_) fun more hmore => ?_
    · have hless := hlt (n - f.payload.length) (by rw [hn, Option.map_some])
      rw [payloads_cons_data hdata, List.length_append]
      omega
    · rw [List.map_cons, List.cons_append, upcoming_data hdata, hup more hmore,
        payloads_cons_data hdata, List.map_cons, upcoming_data hdata]

/-- A frame that ends the call brings nothing, and is all that it takes. -/
theorem Brings.stop {localId : UInt32} {want : Option ℕ} {f : Frame} (hstops : Stops localId f)
    (hwant : want ≠ some 0) (frames : List Frame) : Brings localId want (f :: frames) [f] frames := by
  refine .all (fun n hn => ?_) fun more _ => ?_
  · rw [payloads_cons_other hstops.2]
    exact Nat.pos_of_ne_zero fun hzero => hwant (hzero ▸ hn)
  · rw [payloads_cons_other hstops.2]
    exact upcoming_stops hstops more (frames.map .frame)

theorem taken_brings (localId : UInt32) (frames : List Frame) (want : Option ℕ)
    {outcomes : List WriteOutcome} (hout : ∀ o ∈ outcomes, o = .accepted) :
    ∃ rest, frames = taken localId (frames.map .frame) want outcomes ++ rest ∧
      Brings localId want frames (taken localId (frames.map .frame) want outcomes) rest := by
  induction frames generalizing want outcomes with
  | nil =>
    refine ⟨[], rfl, ?_⟩
    by_cases hwant : want = some 0
    · exact .enough hwant (Nat.zero_le _) (by simp [taken])
    · refine .all (fun n hn => ?_) fun more hmore => ?_
      · exact Nat.pos_of_ne_zero fun hzero => hwant (hzero ▸ hn)
      · rw [hmore rfl]
        rfl
  | cons f frames ih =>
    rw [List.map_cons, taken]
    by_cases hwant : want = some 0
    · rw [if_pos hwant]
      exact ⟨f :: frames, rfl, .enough hwant (Nat.zero_le _) (by simp)⟩
    rw [if_neg hwant]
    by_cases hskip : StreamOn.Skips localId f
    · rw [if_pos hskip]
      obtain ⟨rest, hsplit, hbrings⟩ := ih want hout
      exact ⟨rest, congrArg (f :: ·) hsplit, hbrings.skip hskip⟩
    rw [if_neg hskip]
    by_cases hdata : IsData localId f
    · rw [if_pos ⟨hdata, nextError_accepted hout⟩]
      obtain ⟨rest, hsplit, hbrings⟩ := ih (want.map (· - f.payload.length))
        fun o ho => hout o (List.mem_of_mem_tail ho)
      exact ⟨rest, congrArg (f :: ·) hsplit, hbrings.data hdata⟩
    · rw [if_neg fun h => hdata h.1]
      exact ⟨frames, rfl, Brings.stop ⟨hskip, hdata⟩ hwant frames⟩

/-- What calls on a stream get out of its bytes and its ending, up to the first that fails or
reads all. A call wants a number of bytes, or all of them. -/
def serve : List (Option ℕ) → List Byte → Ending → List (Except Error (List Byte))
  | [], _, _ => []
  | some size :: wants, source, ending =>
    if size ≤ source.length then
      .ok (source.take size) :: serve wants (source.drop size) ending
    else
      [.error ending.error]
  | none :: _, source, .closed => [.ok source]
  | none :: _, _, .failed e => [.error e]

/-- The session is open, and only frames are to come. -/
def Dialogue.Calm (d : Dialogue) : Prop := d.closed = false ∧ ∃ frames, d.inbox = List.map .frame frames

namespace StreamOn

/-- An operation that leaves a session calm. -/
def KeepsCalm (s s' : StreamOn Dialogue) : Prop := s.session.Calm → s'.session.Calm

instance : Std.Refl KeepsCalm := ⟨fun _ => id⟩

instance : IsTrans (StreamOn Dialogue) KeepsCalm := ⟨fun _ _ _ h h' => h' ∘ h⟩

theorem onConnection_keepsCalm {α : Type} {p : Action Dialogue α}
    (h : Prog.Steps (fun d d' => d.Calm → d'.Calm) p) :
    Prog.Steps KeepsCalm (onConnection (Connection.onSession p)) :=
  fun s => h s.session

theorem receive_keepsCalm : Prog.Steps KeepsCalm (onConnection Connection.receive) := by
  refine onConnection_keepsCalm fun d hcalm => ?_
  obtain ⟨hopen, frames, hframes⟩ := hcalm
  rw [run_channel_receive, run_receive hopen, hframes]
  cases frames with
  | nil => exact ⟨hopen, [], hframes⟩
  | cons f frames => exact ⟨hopen, frames, rfl⟩

theorem send_keepsCalm (header : Message) (payload : List Byte) :
    Prog.Steps KeepsCalm (onConnection (Connection.send header payload)) := by
  refine onConnection_keepsCalm fun d hcalm => ?_
  obtain ⟨r, d', new, hrun, -, hinbox, hclosed, -⟩ := send_attempt header payload d
  rw [run_channel_send, hrun]
  exact ⟨hclosed.trans hcalm.1, hinbox ▸ hcalm.2⟩

theorem setStream_keepsCalm (f : Stream → Stream) :
    Prog.Steps KeepsCalm (Prog.modify (setStream f) : Action (StreamOn Dialogue) Unit) := fun _ => id

theorem receiveMore_keepsCalm : Prog.Steps KeepsCalm (receiveMore : Action (StreamOn Dialogue) Bool) := by
  refine Prog.Steps.loop _ (fun _ => Prog.Steps.bind receive_keepsCalm fun f => ?_) ()
  refine Prog.Steps.bind Prog.Steps.get fun s => Prog.Steps.ite (Prog.Steps.pure _) (Prog.Steps.ite ?_ ?_)
  · refine Prog.Steps.bind (setStream_keepsCalm _) fun _ => ?_
    exact Prog.Steps.bind (send_keepsCalm _ _) fun _ => Prog.Steps.pure _
  · refine Prog.Steps.ite (Prog.Steps.pure _) (Prog.Steps.ite ?_ (Prog.Steps.fail _))
    exact Prog.Steps.bind (setStream_keepsCalm _) fun _ => Prog.Steps.pure _

/-- What a call on a stream is to the other streams of its connection and to its caller. -/
structure Serves (want : Option ℕ) (call : Action (StreamOn Dialogue) (List Byte))
    (fs : StreamOn Dialogue → List Frame) : Prop where
  takes : ∀ s, Takes (fs s) s (call.run s).2
  exchanges : Prog.Steps Exchanges call
  keepsCalm : Prog.Steps KeepsCalm call
  /-- The caller gets what the frames that are taken bring, whatever frames come behind them. -/
  serve : ∀ s, s.session.Calm → s.AllAccepted → ∀ wants more,
    ((call.run s).2.session.inbox = [] → more = []) →
    Adbcpp.serve (want :: wants)
        (s.buffered ++ (upcoming s.stream.localId ((fs s).map .frame ++ more)).1)
        (upcoming s.stream.localId ((fs s).map .frame ++ more)).2 <+:
      (call.run s).1 :: Adbcpp.serve wants
        ((call.run s).2.buffered ++ (upcoming s.stream.localId more).1)
        (upcoming s.stream.localId more).2

/-- Where only frames arrive, a call leaves those that it does not take. -/
theorem Takes.rest {s s' : StreamOn Dialogue} {fs frames rest : List Frame} (h : Takes fs s s')
    (hframes : s.session.inbox = frames.map .frame) (hsplit : frames = fs ++ rest) :
    s'.session.inbox = rest.map .frame := by
  obtain ⟨lost, hinbox, hlost⟩ := h.inbox
  rw [hframes, hsplit, List.map_append, List.append_cancel_left_eq] at hinbox
  cases lost with
  | nil => exact hinbox.symm
  | cons a lost =>
    cases rest with
    | nil => cases hinbox
    | cons f rest =>
      obtain rfl := (List.cons.inj hinbox).1
      exact absurd List.mem_cons_self (hlost f)

/-- The source of a stream whose frames bring all there is. -/
theorem source_of_all {s : StreamOn Dialogue} {fs rest : List Frame} {ending : Ending}
    (hinbox : s.connection.session.inbox = fs.map .frame ++ rest.map .frame)
    (hup : ∀ more, (rest = [] → more = []) →
      upcoming s.stream.localId (fs.map .frame ++ more) = (payloads s.stream.localId fs, ending)) :
    s.source = s.buffered ++ payloads s.stream.localId fs ∧ s.ending = ending := by
  have hrest := hup (rest.map .frame) fun h => by rw [h, List.map_nil]
  rw [source, StreamOn.ending, hinbox, hrest]
  exact ⟨rfl, rfl⟩

/-- A read of bytes that the frames in front bring leaves what is behind them. -/
theorem read_enough {size : ℕ} {s : StreamOn Dialogue} {fs : List Frame} {rest : List Arrival}
    (haccepts : s.Accepts 0) (hinbox : s.connection.session.inbox = fs.map .frame ++ rest)
    (hends : ∀ f ∈ fs, ¬ Ends s.stream.localId f)
    (hlen : size ≤ (s.buffered ++ payloads s.stream.localId fs).length) :
    ∃ s', (read size).run s = (.ok ((s.buffered ++ payloads s.stream.localId fs).take size), s') ∧
      s'.source = (s.buffered ++ payloads s.stream.localId fs).drop size ++ (upcoming s.stream.localId rest).1 := by
  have hsource : s.source = (s.buffered ++ payloads s.stream.localId fs).take size ++
      ((s.buffered ++ payloads s.stream.localId fs).drop size ++ (upcoming s.stream.localId rest).1) := by
    rw [← List.append_assoc, List.take_append_drop, source, hinbox, upcoming_frames hends, List.append_assoc]
    rfl
  obtain ⟨s', hrun, hsource', -, -⟩ := read_source haccepts hsource
  rw [List.length_take, Nat.min_eq_left hlen] at hrun
  exact ⟨s', hrun, hsource'⟩

theorem read_serves (size : ℕ) : Serves (some size) (read size) (readTaken size) where
  takes := read_takes size
  exchanges := read_exchanges size
  keepsCalm := read_steps (fun f _ => setStream_keepsCalm f) receiveMore_keepsCalm size
  serve := by
    intro s hcalm hacc wants more hmore
    obtain ⟨hopen, frames, hframes⟩ := hcalm
    have hout : ∀ o ∈ s.session.outcomes, o = .accepted := hacc
    obtain ⟨rest, hsplit, hbrings⟩ := taken_brings s.stream.localId frames
      (some (size - s.buffered.length)) hout
    have htakes := read_takes size s
    rw [readTaken_open hopen, hframes] at htakes ⊢
    have hrest := htakes.rest hframes hsplit
    have hlocal := htakes.same.localId
    generalize taken s.stream.localId (frames.map .frame) (some (size - s.buffered.length))
      s.session.outcomes = fs at hsplit hbrings htakes
    have hinbox : s.connection.session.inbox = fs.map .frame ++ rest.map .frame := by
      rw [← List.map_append, ← hsplit]
      exact hframes
    have haccepts : s.Accepts 0 := accepts_of_all hopen hacc 0
    cases hbrings with
    | @enough n hn hle hends =>
      cases hn
      have hlen : size ≤ (s.buffered ++ payloads s.stream.localId fs).length := by
        rw [List.length_append]
        omega
      obtain ⟨s', hrun, hsource'⟩ := read_enough haccepts hinbox hends hlen
      rw [hrun] at hrest hlocal ⊢
      have hbuffered : s'.buffered = (s.buffered ++ payloads s.stream.localId fs).drop size := by
        rw [source, hlocal] at hsource'
        rw [session] at hrest
        rw [hrest] at hsource'
        exact List.append_cancel_right hsource'
      have hup : upcoming s.stream.localId (fs.map .frame ++ more) =
          (payloads s.stream.localId fs ++ (upcoming s.stream.localId more).1,
            (upcoming s.stream.localId more).2) := upcoming_frames hends more
      rw [hup, ← List.append_assoc, Adbcpp.serve, if_pos (by rw [List.length_append]; omega),
        List.take_append_of_le_length hlen, List.drop_append_of_le_length hlen]
      exact hbuffered ▸ List.prefix_rfl
    | all hlt hup =>
      have hless := hlt _ rfl
      have hmore' : rest = [] → more = [] := fun h => hmore (by rw [hrest, h, List.map_nil])
      obtain ⟨hsource, hending⟩ := source_of_all hinbox hup
      have hlen : s.source.length < size := by
        rw [hsource, List.length_append]
        omega
      obtain ⟨s', hrun⟩ := read_short haccepts hlen
      rw [hrun, hup more hmore', ← hsource, ← hending, Adbcpp.serve, if_neg (Nat.not_le.mpr hlen)]
      exact List.prefix_append [_] _

theorem readAll_serves : Serves none readAll readAllTaken where
  takes := readAll_takes
  exchanges := readAll_exchanges
  keepsCalm := readAll_steps (fun f _ => setStream_keepsCalm f) receiveMore_keepsCalm
  serve := by
    intro s hcalm hacc wants more hmore
    obtain ⟨hopen, frames, hframes⟩ := hcalm
    have hout : ∀ o ∈ s.session.outcomes, o = .accepted := hacc
    obtain ⟨rest, hsplit, hbrings⟩ := taken_brings s.stream.localId frames none hout
    have htakes := readAll_takes s
    rw [readAllTaken_open hopen, hframes] at htakes ⊢
    have hrest := htakes.rest hframes hsplit
    generalize taken s.stream.localId (frames.map .frame) none s.session.outcomes = fs
      at hsplit hbrings htakes
    have hinbox : s.connection.session.inbox = fs.map .frame ++ rest.map .frame := by
      rw [← List.map_append, ← hsplit]
      exact hframes
    cases hbrings with
    | enough hn => cases hn
    | all _ hup =>
      have hmore' : rest = [] → more = [] := fun h => hmore (by rw [hrest, h, List.map_nil])
      obtain ⟨hsource, hending⟩ := source_of_all hinbox hup
      have hall : ReadsAll [] s (readAll.run s) := readAll_source (accepts_of_all hopen hacc 0)
      rw [hup more hmore', ← hsource, ← hending]
      rw [ReadsAll] at hall
      cases hend : s.ending with
      | closed =>
        rw [hend] at hall
        rw [hall.1, Adbcpp.serve]
        exact List.prefix_append [_] _
      | failed e =>
        rw [hend] at hall
        rw [hall, Adbcpp.serve]
        exact List.prefix_append [_] _

end StreamOn

end Adbcpp
