import Adbcpp.Stream.Serving
import Adbcpp.Streams.Effects

/-! Several streams that are read at once. They share one inbox, and a frame is gone once a
call has taken it: a call on another stream passes it over. What is left is the inbox
that a stream has to itself, and its caller gets exactly what that inbox brings. -/

namespace Adbcpp

open Protocol Dialogue

/-- How much a call wants: a number of bytes, or all of them. -/
def Operation.want {ι : Type} : Operation ι → Option ℕ
  | .read _ size => some size
  | _ => none

/-- The messages that were attempted for the local id. -/
def answers (localId : UInt32) (es : List Event) : List Frame :=
  (attempts es).filter fun f => f.header.arg0 = localId

theorem answers_append (localId : UInt32) (es es' : List Event) :
    answers localId (es ++ es') = answers localId es ++ answers localId es' := by
  rw [answers, attempts_append, List.filter_append]
  rfl

theorem attempts_exchange (l r : UInt32) (fs : List Frame) :
    attempts ((fs.map .frame).flatMap (exchange l r)) =
      List.replicate (fs.countP fun f => IsData l f) (StreamOn.acknowledgement l r) := by
  induction fs with
  | nil => rfl
  | cons f fs ih =>
    rw [List.map_cons, List.flatMap_cons, attempts_append, ih, exchange, List.countP_cons]
    by_cases hdata : IsData l f
    · simp [hdata, List.replicate_succ]
    · simp [hdata]

theorem answers_exchange_self (l r : UInt32) (fs : List Frame) :
    answers l ((fs.map .frame).flatMap (exchange l r)) =
      List.replicate (fs.countP fun f => IsData l f) (StreamOn.acknowledgement l r) := by
  have hself : (StreamOn.acknowledgement l r).header.arg0 = l := rfl
  rw [answers, attempts_exchange, List.filter_replicate, if_pos (by simpa using hself)]

theorem answers_exchange_other {l l' : UInt32} (h : l' ≠ l) (r : UInt32) (fs : List Frame) :
    answers l ((fs.map .frame).flatMap (exchange l' r)) = [] := by
  have hnot : ¬ (StreamOn.acknowledgement l' r).header.arg0 = l := h
  rw [answers, attempts_exchange, List.filter_replicate, if_neg (by simpa using hnot)]

/-- Frames that lie in front of an inbox make the same of what is upcoming. -/
theorem upcoming_congr {l : UInt32} {rest rest' : List Arrival} (h : upcoming l rest = upcoming l rest')
    (fs : List Frame) : upcoming l (fs.map .frame ++ rest) = upcoming l (fs.map .frame ++ rest') := by
  induction fs with
  | nil => exact h
  | cons f fs ih =>
    rw [List.map_cons, List.cons_append, List.cons_append, upcoming, upcoming, ih]

theorem upcoming_passed {l : UInt32} {fs : List Frame} (h : ∀ f ∈ fs, StreamOn.Skips l f)
    (rest : List Arrival) : upcoming l (fs.map .frame ++ rest) = upcoming l rest := by
  induction fs with
  | nil => rfl
  | cons f fs ih =>
    obtain ⟨hf, hfs⟩ := List.forall_mem_cons.mp h
    rw [List.map_cons, List.cons_append, StreamOn.upcoming_skips hf, ih hfs]

namespace Streams

variable {ι : Type} [DecidableEq ι]

/-- The frames that the calls on the object `x` take. -/
def takenBy (x : ι) : List (Operation ι) → Streams ι Dialogue → List Frame
  | [], _ => []
  | op :: ops, s => (if op.reader = some x then takes op s else []) ++ takenBy x ops ((exec op).run s).2

/-- The frames that the calls on other objects take. -/
def takenElsewhere (x : ι) : List (Operation ι) → Streams ι Dialogue → List Frame
  | [], _ => []
  | op :: ops, s =>
    (if op.reader = some x then [] else takes op s) ++ takenElsewhere x ops ((exec op).run s).2

/-- The inbox without the frames that the calls on other objects take. -/
def kept (x : ι) (ops : List (Operation ι)) (s : Streams ι Dialogue) : List Arrival :=
  (takenBy x ops s).map .frame ++ (after ops s).session.inbox

/-- How much the calls on the object `x` want. -/
def wants (x : ι) (ops : List (Operation ι)) : List (Option ℕ) :=
  (ops.filter fun op => op.reader = some x).map Operation.want

/-- What the calls on the object `x` return. -/
def gets (x : ι) : List (Operation ι) → Streams ι Dialogue → List (Except Error (List Byte))
  | [], _ => []
  | op :: ops, s =>
    if op.reader = some x then ((exec op).run s).1 :: gets x ops ((exec op).run s).2
    else gets x ops ((exec op).run s).2

/-- Streams that share a connection on which frames arrive and writes are accepted. -/
structure Shared (s : Streams ι Dialogue) : Prop where
  calm : s.session.Calm
  accepted : ∀ o ∈ s.session.outcomes, o = .accepted
  distinct : ∀ x y o p, s.objects x = some o → s.objects y = some p →
    o.stream.localId = p.stream.localId → x = y

variable {s : Streams ι Dialogue} {op : Operation ι} {ops : List (Operation ι)} {x : ι} {o : Object}

/-- What a call on the object `x` makes of the streams. -/
structure Called (op : Operation ι) (x : ι) (o : Object) (s s' : Streams ι Dialogue) (t : Stream) : Prop where
  object : s'.objects x = some { o with stream := t }
  others : ∀ y, y ≠ x → s'.objects y = s.objects y
  localId : t.localId = o.stream.localId
  remoteId : t.remoteId = o.stream.remoteId
  shared : Shared s'
  inbox : s.session.inbox = (takes op s).map .frame ++ s'.session.inbox
  events : eventsOf op s =
    ((takes op s).map .frame).flatMap (exchange o.stream.localId o.stream.remoteId)
  serve : ∀ wants more, (s'.session.inbox = [] → more = []) →
    Adbcpp.serve (op.want :: wants)
        ((s.view o).buffered ++ (upcoming o.stream.localId ((takes op s).map .frame ++ more)).1)
        (upcoming o.stream.localId ((takes op s).map .frame ++ more)).2 <+:
      ((exec op).run s).1 :: Adbcpp.serve wants
        ((s'.view { o with stream := t }).buffered ++ (upcoming o.stream.localId more).1)
        (upcoming o.stream.localId more).2

/-- An object keeps its local id to itself when its stream is updated. -/
theorem distinct_set {t : Stream} {c : Connection Dialogue} (hx : s.objects x = some o)
    (ht : t.localId = o.stream.localId)
    (h : ∀ x y o p, s.objects x = some o → s.objects y = some p →
      o.stream.localId = p.stream.localId → x = y) :
    ∀ y z p q, ({ s with connection := c }.set x (some { o with stream := t })).objects y = some p →
      ({ s with connection := c }.set x (some { o with stream := t })).objects z = some q →
      p.stream.localId = q.stream.localId → y = z := by
  have hold : ∀ y p, ({ s with connection := c }.set x (some { o with stream := t })).objects y = some p →
      ∃ p', s.objects y = some p' ∧ p'.stream.localId = p.stream.localId := by
    intro y p hy
    by_cases hyx : y = x
    · subst hyx
      rw [set_same] at hy
      cases hy
      exact ⟨o, hx, ht.symm⟩
    · rw [set_other hyx] at hy
      exact ⟨p, hy, rfl⟩
  intro y z p q hy hz hid
  obtain ⟨p', hy', hp⟩ := hold y p hy
  obtain ⟨q', hz', hq⟩ := hold z q hz
  exact h y z p' q' hy' hz' (hp.trans (hid.trans hq.symm))

theorem Shared.called_of {call : Action (StreamOn Dialogue) (List Byte)}
    {fs : StreamOn Dialogue → List Frame} (h : Shared s) (hx : s.objects x = some o)
    (hexec : exec op = use x call) (htakes : takes op s = fs (s.view o))
    (hserves : StreamOn.Serves op.want call fs) :
    ∃ t, Called op x o s ((exec op).run s).2 t := by
  obtain ⟨hcalm, haccepted, hdistinct⟩ := h
  have htook := hserves.takes (s.view o)
  have hex := hserves.exchanges (s.view o)
  have hkeeps := hserves.keepsCalm (s.view o)
  have hserve := hserves.serve (s.view o) hcalm haccepted
  rw [← htakes] at htook hserve
  have hrun : (exec op).run s = ((call.run (s.view o)).1,
      { s with connection := (call.run (s.view o)).2.connection }.set x
        (some { o with stream := (call.run (s.view o)).2.stream })) := by
    rw [hexec, run_use hx]
  generalize call.run (s.view o) = r at htook hex hkeeps hserve hrun
  obtain ⟨result, t⟩ := r
  have hinbox : s.session.inbox = (takes op s).map .frame ++ t.session.inbox := by
    obtain ⟨lost, hinbox, hlost⟩ := htook.inbox
    obtain ⟨-, frames, hframes⟩ := hcalm
    cases lost with
    | nil => exact hinbox
    | cons a lost =>
      have ha : a ∈ frames.map Arrival.frame := by
        rw [← hframes]
        exact hinbox ▸ List.mem_append_right _ List.mem_cons_self
      obtain ⟨f, -, rfl⟩ := List.mem_map.mp ha
      exact absurd List.mem_cons_self (hlost f)
  obtain ⟨consumed, hconsumed, htrace⟩ := hex.consumes haccepted
  have hall : consumed = (takes op s).map .frame :=
    List.append_cancel_right (hconsumed.symm.trans hinbox)
  have hevents : eventsOf op s =
      ((takes op s).map .frame).flatMap (exchange o.stream.localId o.stream.remoteId) := by
    have hs' : ((exec op).run s).2.session.trace = s.session.trace ++
        consumed.flatMap (exchange o.stream.localId o.stream.remoteId) := by
      rw [hrun]
      exact htrace
    rw [eventsOf, hs', List.drop_left, hall]
  refine ⟨t.stream, ?_⟩
  rw [hrun]
  refine ⟨set_same _ _ _, fun y hy => set_other hy _ _, htook.same.localId, htook.same.remoteId,
    ⟨hkeeps hcalm, hex.accepted haccepted, ?_⟩, hinbox, hevents, ?_⟩
  · exact distinct_set hx htook.same.localId hdistinct
  · rw [hrun]
    exact hserve

/-- The call of an operation that reads. -/
theorem Shared.called (h : Shared s) (hreader : op.reader = some x) (hx : s.objects x = some o) :
    ∃ t, Called op x o s ((exec op).run s).2 t := by
  cases op with
  | read z size =>
    cases hreader
    exact h.called_of hx rfl (by rw [takes, hx]) (StreamOn.read_serves size)
  | readAll z =>
    cases hreader
    exact h.called_of hx rfl (by rw [takes, hx]) StreamOn.readAll_serves
  | «open» | moveConstruct | moveAssign | write | destroy => cases hreader

omit [DecidableEq ι] in
theorem Void.of_reader (hreader : op.reader = some x) (hx : s.objects x = none) : Void s op := by
  cases op with
  | read z size =>
    cases hreader
    exact hx
  | readAll z =>
    cases hreader
    exact hx
  | «open» | moveConstruct | moveAssign | write | destroy => cases hreader

/-- A call on an object that is not there does nothing. -/
theorem exec_none (hreader : op.reader = some x) (hx : s.objects x = none) :
    ((exec op).run s).2 = s ∧ eventsOf op s = [] := by
  have hvoid := Void.of_reader hreader hx
  have hrun : ((exec op).run s).2 = s := by
    cases op with
    | read z size | readAll z =>
      cases hreader
      rw [exec, run_use_none hx]
    | «open» | moveConstruct | moveAssign | write | destroy => cases hreader
  exact ⟨hrun, by rw [eventsOf, hrun, List.drop_length]⟩

/-- What an operation that reads another object does. -/
structure Elsewhere (op : Operation ι) (x : ι) (o : Object) (s s' : Streams ι Dialogue) : Prop where
  object : s'.objects x = some o
  shared : Shared s'
  inbox : s.session.inbox = (takes op s).map .frame ++ s'.session.inbox
  silent : answers o.stream.localId (eventsOf op s) = []

theorem Shared.elsewhere (h : Shared s) {y : ι} (hreader : op.reader = some y) (hyx : y ≠ x)
    (hx : s.objects x = some o) : Elsewhere op x o s ((exec op).run s).2 := by
  cases hy : s.objects y with
  | none =>
    obtain ⟨hrun, hevents⟩ := exec_none hreader hy
    rw [hrun]
    refine ⟨hx, h, ?_, by rw [hevents]; rfl⟩
    rw [(Void.of_reader hreader hy).takes]
    rfl
  | some p =>
    obtain ⟨t, hcalled⟩ := h.called hreader hy
    refine ⟨(hcalled.others x hyx.symm).trans hx, hcalled.shared, hcalled.inbox, ?_⟩
    rw [hcalled.events]
    exact answers_exchange_other (fun hid => hyx (h.distinct y x p o hy hx hid)) _ _

/-! ### Whole runs -/

/-- What the calls on one object among calls on all of them get and answer. -/
structure Delivered (x : ι) (o : Object) (ops : List (Operation ι)) (s : Streams ι Dialogue) : Prop where
  /-- The caller gets exactly what the inbox brings that the other calls leave. -/
  received : serve (wants x ops)
      ((s.view o).buffered ++ (upcoming o.stream.localId (kept x ops s)).1)
      (upcoming o.stream.localId (kept x ops s)).2 <+: gets x ops s
  /-- Each WRTE that is taken from there is acknowledged, and nothing else is. -/
  acknowledged : answers o.stream.localId (history ops s) =
    List.replicate ((takenBy x ops s).countP fun f => IsData o.stream.localId f)
      (StreamOn.acknowledgement o.stream.localId o.stream.remoteId)
  /-- Nothing is lost unless a call on another object takes a frame of the stream. -/
  whole : (∀ f ∈ takenElsewhere x ops s, StreamOn.Skips o.stream.localId f) →
    upcoming o.stream.localId (kept x ops s) = upcoming o.stream.localId s.session.inbox

/-- Nothing can be kept of an inbox that is empty. -/
theorem Shared.kept_nil (h : Shared s) (hreads : ∀ op ∈ ops, op.reader ≠ none) (hnil : s.session.inbox = []) :
    kept x ops s = [] := by
  induction ops generalizing s with
  | nil => exact hnil
  | cons op ops ih =>
    obtain ⟨hop, hops⟩ := List.forall_mem_cons.mp hreads
    obtain ⟨y, hreader⟩ := Option.ne_none_iff_exists'.mp hop
    have hnext : Shared ((exec op).run s).2 ∧
        s.session.inbox = (takes op s).map .frame ++ ((exec op).run s).2.session.inbox := by
      cases hy : s.objects y with
      | none =>
        rw [(exec_none hreader hy).1, (Void.of_reader hreader hy).takes]
        exact ⟨h, rfl⟩
      | some p =>
        obtain ⟨t, hcalled⟩ := h.called hreader hy
        exact ⟨hcalled.shared, hcalled.inbox⟩
    have hempty := List.append_eq_nil_iff.mp (hnext.2.symm.trans hnil)
    have htakes : takes op s = [] := List.map_eq_nil_iff.mp hempty.1
    have hrest := ih hnext.1 hops hempty.2
    rw [kept, takenBy, htakes, ite_self, List.nil_append]
    exact hrest

theorem Delivered.own (hops : ∀ op ∈ ops, op.reader ≠ none) (hreader : op.reader = some x)
    {t : Stream} (hcalled : Called op x o s ((exec op).run s).2 t)
    (hrest : Delivered x { o with stream := t } ops ((exec op).run s).2) : Delivered x o (op :: ops) s := by
  have hkept : kept x (op :: ops) s = (takes op s).map .frame ++ kept x ops ((exec op).run s).2 := by
    rw [kept, takenBy, if_pos hreader, List.map_append, List.append_assoc]
    rfl
  obtain ⟨hreceived, hacknowledged, hwhole⟩ := hrest
  rw [hcalled.localId] at hreceived hacknowledged hwhole
  refine ⟨?_, ?_, fun hskips => ?_⟩
  · have hwants : wants x (op :: ops) = op.want :: wants x ops := by
      rw [wants, List.filter_cons_of_pos (by simpa using hreader)]
      rfl
    rw [hkept, hwants, gets, if_pos hreader]
    refine (hcalled.serve (wants x ops) (kept x ops ((exec op).run s).2) fun hnil => ?_).trans ?_
    · exact hcalled.shared.kept_nil hops hnil
    · exact (List.prefix_cons_inj _).mpr hreceived
  · rw [history, answers_append, hacknowledged, hcalled.events, answers_exchange_self, takenBy,
      if_pos hreader, List.countP_append, hcalled.remoteId, List.replicate_append_replicate]
  · rw [takenElsewhere, if_pos hreader] at hskips
    rw [hkept, hcalled.inbox]
    exact upcoming_congr (hwhole hskips) _

theorem Delivered.other (hreader : op.reader ≠ some x)
    (helse : Elsewhere op x o s ((exec op).run s).2) (hrest : Delivered x o ops ((exec op).run s).2) :
    Delivered x o (op :: ops) s := by
  have hkept : kept x (op :: ops) s = kept x ops ((exec op).run s).2 := by
    rw [kept, takenBy, if_neg hreader]
    rfl
  obtain ⟨hreceived, hacknowledged, hwhole⟩ := hrest
  refine ⟨?_, ?_, fun hskips => ?_⟩
  · have hwants : wants x (op :: ops) = wants x ops := by
      rw [wants, List.filter_cons_of_neg (by simpa using hreader)]
      rfl
    rw [hkept, hwants, gets, if_neg hreader]
    exact hreceived
  · rw [history, answers_append, helse.silent, hacknowledged, takenBy, if_neg hreader]
    rfl
  · rw [takenElsewhere, if_neg hreader] at hskips
    obtain ⟨hpassed, hskips⟩ := List.forall_mem_append.mp hskips
    rw [hkept, hwhole hskips, helse.inbox, upcoming_passed hpassed]

/-- However the calls on several streams and the frames of the device interleave, the caller of each
stream gets exactly what the device sent to it, but for the frames that calls on other streams take. -/
theorem reads_delivered (h : Shared s) (hreads : ∀ op ∈ ops, op.reader ≠ none) (hx : s.objects x = some o) :
    Delivered x o ops s := by
  induction ops generalizing s o with
  | nil => exact ⟨List.nil_prefix, rfl, fun _ => rfl⟩
  | cons op ops ih =>
    obtain ⟨hop, hops⟩ := List.forall_mem_cons.mp hreads
    obtain ⟨y, hreader⟩ := Option.ne_none_iff_exists'.mp hop
    by_cases hyx : y = x
    · subst hyx
      obtain ⟨t, hcalled⟩ := h.called hreader hx
      exact .own hops hreader hcalled (ih hcalled.shared hops hcalled.object)
    · have helse := h.elsewhere hreader hyx hx
      refine .other (fun h => hyx ?_) helse (ih helse.shared hops helse.object)
      exact Option.some.inj (hreader.symm.trans h)

/-- A byte for each of two streams, that of the second one first. -/
def crossing : Streams (Fin 2) Dialogue where
  connection := { session := { inbox := [.frame (StreamOn.deviceWrite 3 [98]), .frame (StreamOn.deviceWrite 2 [97]),
    .frame ⟨makeEmptyMessage kClse 7 2, []⟩, .frame ⟨makeEmptyMessage kClse 7 3, []⟩] } }
  objects x := some { stream := { service := bytesOf "shell:", localId := if x = 0 then 2 else 3, remoteId := 7 } }

/-- The first stream is read before the second one. -/
def crossed : List (Operation (Fin 2)) := [.readAll 0, .readAll 1]

/-- The byte of the second stream is lost. -/
theorem crossed_reads_lose : (upcoming 3 crossing.session.inbox).1 = [98] ∧
    gets 1 crossed crossing = [.ok []] ∧
    ¬ serve (wants 1 crossed) (upcoming 3 crossing.session.inbox).1
      (upcoming 3 crossing.session.inbox).2 <+: gets 1 crossed crossing := by decide

theorem reads_delivered_crossing : ∃ o, crossing.objects 0 = some o ∧ Delivered 0 o crossed crossing := by
  have hshared : Shared crossing := by
    refine ⟨⟨rfl, [_, _, _, _], rfl⟩, by simp [crossing, session], fun x y o p hx hy hid => ?_⟩
    cases hx
    cases hy
    revert x y
    decide
  exact ⟨_, rfl, reads_delivered hshared (by simp [crossed, Operation.reader]) rfl⟩

end Streams

end Adbcpp
