import Adbcpp.Session.Inbound

/-! Inbound synchronisation. The peer sends a list of frames; a position in its
stream is a boundary when it lies between two of them. A session whose reads fail
only at boundaries starts every frame it returns at one. A read that fails inside
a frame leaves the session open in the middle of that frame, and the next receive
can then return a frame the peer never sent. -/

namespace Adbcpp

open Protocol ScriptedTransport

/-- The position in the peer's stream where its `j`-th frame starts. -/
def boundary (frames : List Frame) (j : ℕ) : ℕ := ((frames.take j).flatMap Frame.bytes).length

def IsBoundary (frames : List Frame) (q : ℕ) : Prop := ∃ j, q = boundary frames j

theorem boundary_mono (frames : List Frame) {i j : ℕ} (h : i ≤ j) :
    boundary frames i ≤ boundary frames j := by
  rw [boundary, boundary, ← List.take_append_drop i (frames.take j), List.take_take,
    Nat.min_eq_left h, List.flatMap_append, List.length_append]
  omega

theorem boundary_succ {frames rest : List Frame} {f : Frame} {j : ℕ} (h : frames.drop j = f :: rest) :
    boundary frames (j + 1) = boundary frames j + f.bytes.length := by
  have hj : frames[j]? = some f := by
    rw [← List.head?_drop, h]
    rfl
  rw [boundary, boundary, List.take_add_one, hj, List.flatMap_append, List.length_append]
  simp

/-- No boundary lies inside a frame. -/
theorem not_boundary_inside {frames rest : List Frame} {f : Frame} {j q : ℕ}
    (h : frames.drop j = f :: rest) (hlo : boundary frames j < q)
    (hhi : q < boundary frames j + f.bytes.length) : ¬ IsBoundary frames q := by
  rintro ⟨i, rfl⟩
  rcases Nat.lt_or_ge j i with hij | hij
  · have := boundary_mono frames (show j + 1 ≤ i from hij)
    rw [boundary_succ h] at this
    omega
  · have := boundary_mono frames hij
    omega

namespace Session

/-- The bytes ahead of the session are those of the peer's frames from one of them on. -/
def AtBoundary (frames : List Frame) (s : Session ScriptedTransport) : Prop :=
  ∃ j, content s.transport.arrivals = (frames.drop j).flatMap Frame.bytes

/-- Every frame that a receive returns, after any run of calls, starts at a boundary. -/
def InboundInSync (frames : List Frame) (s : Session ScriptedTransport) : Prop :=
  ∀ ops f s', receive.run (s.after ops) = (.ok f, s') → AtBoundary frames (s.after ops)

/-- The session is closed, or it is at a boundary and so are all faults ahead. -/
def InSync (frames : List Frame) (s : Session ScriptedTransport) : Prop :=
  s.closed = true ∨ ∃ j, content s.transport.arrivals = (frames.drop j).flatMap Frame.bytes ∧
    FaultsAt (IsBoundary frames) (boundary frames j) s.transport.arrivals

/-- A fault at the front ends a receive before it has taken any byte. -/
theorem receive_fault {s : Session ScriptedTransport} (hopen : s.closed = false)
    {a : Except Error (List Byte)} {rest : List (Except Error (List Byte))} (ha : IsFault a)
    (hs : s.transport.arrivals = a :: rest) :
    (receive.run s).2.transport.arrivals = rest ∧ (receive.run s).2.closed = false := by
  obtain ⟨e, hturn⟩ : ∃ e, (readExactTurn kMessageHeaderSize []).run s.transport =
      (.error e, { s.transport with
        arrivals := rest, calls := s.transport.calls ++ [.read kMessageHeaderSize] }) := by
    rw [readExactTurn, if_pos (by decide)]
    cases a with
    | error e =>
      refine ⟨e, Prog.run_bind_error ?_⟩
      rw [run_read, hs]
      rfl
    | ok piece =>
      cases (show piece = [] from ha)
      refine ⟨.of .protocol "unexpected end of stream", ?_⟩
      rw [Prog.run_bind, run_read, hs]
      rfl
  have hrun := Prog.loop_error (readExactTurn_decreases kMessageHeaderSize) hturn
  rw [receive, Prog.run_bind_get, if_neg (by simp [hopen]), Prog.run_bind, run_onTransport,
    readExact, hrun]
  exact ⟨rfl, hopen⟩

/-- Where no fault comes at once, none comes before the end of the frame. -/
theorem smooth_of_no_fault {frames rest : List Frame} {f : Frame} {j : ℕ} (hd : frames.drop j = f :: rest)
    (hpos : 0 < f.bytes.length) {as : List (Except Error (List Byte))} {tail : List Byte}
    (hcon : content as = f.bytes ++ tail) (hfaults : FaultsAt (IsBoundary frames) (boundary frames j) as)
    (hnot : ∀ a as', as = a :: as' → ¬ IsFault a) : Smooth (f.bytes.length + 0) as := by
  cases as with
  | nil =>
    have hlen := congrArg List.length hcon
    rw [content_nil, List.length_nil, List.length_append] at hlen
    omega
  | cons a as =>
    cases a with
    | error e => exact absurd trivial (hnot _ _ rfl)
    | ok piece =>
      have hpiece : piece ≠ [] := hnot _ _ rfl
      have hlong := List.length_pos_iff.mpr hpiece
      have hlen := congrArg List.length hcon
      rw [content_ok, List.length_append, List.length_append] at hlen
      refine smooth_cons_ok (hnot _ _ rfl) (smooth_of_faultsAt hfaults.2 ?_ (by omega))
      intro q hq hlt
      exact not_boundary_inside hd (by omega) (by omega)

/-- One receive keeps the session in sync. -/
theorem receive_inSync {frames : List Frame} (hf : ∀ f ∈ frames, f.Sized)
    {s : Session ScriptedTransport} (h : InSync frames s) : InSync frames (receive.run s).2 := by
  rcases hclosed : s.closed with _ | _
  swap
  · rw [receive_closed hclosed]
    exact .inl hclosed
  obtain ⟨j, hc, hfaults⟩ := h.resolve_left (by simp [hclosed])
  obtain ⟨k, hk, hadv⟩ := receive_advances (P := IsBoundary frames) s
  cases hd : frames.drop j with
  | nil =>
    rw [hd, List.flatMap_nil] at hc
    rw [hc, List.length_nil] at hk
    refine .inr ⟨j, ?_, ?_⟩
    · rw [hd, List.flatMap_nil]
      exact List.eq_nil_of_length_eq_zero (by omega)
    · simpa [show k = 0 by omega] using hadv _ hfaults
  | cons f rest =>
    have hsized : f.Sized := hf f (List.mem_of_mem_drop (hd ▸ List.mem_cons_self))
    have hdrop : frames.drop (j + 1) = rest := by rw [← List.drop_drop, hd]; rfl
    have hlen := f.length_bytes
    simp only [kMessageHeaderSize] at hlen
    have hcon : content s.transport.arrivals = f.bytes ++ rest.flatMap Frame.bytes := by
      rw [hc, hd, List.flatMap_cons]
    -- either the session meets a fault at once, or none before the end of `f`
    by_cases hat : ∃ a as, s.transport.arrivals = a :: as ∧ IsFault a
    · obtain ⟨a, as, has, ha⟩ := hat
      obtain ⟨harr, -⟩ := receive_fault hclosed ha has
      have hsame : content as = content s.transport.arrivals := by
        rw [has]
        cases a with
        | error e => rfl
        | ok piece => rw [show piece = [] from ha]; rfl
      refine .inr ⟨j, by rw [harr, hsame, hc], ?_⟩
      rw [harr, hsame] at hk
      simpa [show k = 0 by omega] using hadv _ hfaults
    · have hsmooth : Smooth (f.bytes.length + 0) s.transport.arrivals :=
        smooth_of_no_fault hd (by omega) hcon hfaults fun a as has ha => hat ⟨a, as, has, ha⟩
      rcases receive_smooth hsized hclosed hsmooth hcon with
        ⟨-, t, hrun, hrest, -⟩ | ⟨-, e, s', hrun, hcl, -⟩
      · refine .inr ⟨j + 1, ?_, ?_⟩
        · rw [hrun, hdrop]
          exact hrest
        · rw [hrun] at hk hadv ⊢
          rw [boundary_succ hd]
          rw [hcon, hrest, List.length_append] at hk
          rw [show f.bytes.length = k by omega]
          exact hadv _ hfaults
      · rw [hrun]
        exact .inl hcl

/-- The arrivals a write leaves alone. -/
def SameArrivals (t t' : ScriptedTransport) : Prop := t'.arrivals = t.arrivals

instance : Std.Refl SameArrivals := ⟨fun _ => rfl⟩

instance : IsTrans ScriptedTransport SameArrivals := ⟨fun _ _ _ h h' => h'.trans h⟩

/-- One call keeps the session in sync. -/
theorem next_inSync {frames : List Frame} (hf : ∀ f ∈ frames, f.Sized)
    (s : Session ScriptedTransport) (op : Op) (h : InSync frames s) : InSync frames (op.next s) := by
  cases op with
  | send header payload =>
    obtain ⟨harr, hcl⟩ := send_keeps (R := SameArrivals) (fun data t => write_arrivals data t)
      header payload s
    simp only [InSync, Op.next, hcl]
    rwa [show (((send header payload).run s).2).transport.arrivals = s.transport.arrivals from harr]
  | receive => exact receive_inSync hf h
  | close => exact .inl (close_closed s)

/-- As long as every failed or empty read falls between two frames of the peer, every
frame that any receive of any run returns starts at a boundary. -/
theorem inboundInSync_of_faultsAt (frames : List Frame) (hf : ∀ f ∈ frames, f.Sized)
    (t : ScriptedTransport) (hc : content t.arrivals = frames.flatMap Frame.bytes)
    (hfaults : FaultsAt (IsBoundary frames) 0 t.arrivals) :
    InboundInSync frames { transport := t } := by
  intro ops f s' hrun
  have hstart : InSync frames { transport := t } := .inr ⟨0, hc, hfaults⟩
  rcases after_induct (next_inSync hf) hstart ops with hcl | ⟨j, hj, -⟩
  · rw [receive_closed hcl] at hrun
    cases hrun
  · exact ⟨j, hj⟩

/-! ### A failure inside a frame -/

/-- A header that is well formed on its own, sent as the payload of `wrapped`. -/
def smuggled : Message :=
  { command := kOkay, arg0 := 9, arg1 := 2, magic := Message.computeMagic kOkay }

def wrapped : Frame where
  header := { command := kWrte, arg0 := 7, arg1 := 2, dataLength := 24,
              magic := Message.computeMagic kWrte }
  payload := smuggled.encode

/-- The header of `wrapped` arrives, the read after it fails once, then the payload arrives. -/
def failsInside : ScriptedTransport where
  arrivals := [.ok wrapped.header.encode, .error (.of .transport "timed out"), .ok smuggled.encode]

theorem inboundInSync_timeout_at_boundary : InboundInSync [wrapped] { transport := {
    arrivals := [.error (.of .transport "timed out"), .ok (wrapped.bytes.take 30),
      .ok (wrapped.bytes.drop 30)] } } :=
  inboundInSync_of_faultsAt [wrapped] (by decide) _ (by decide)
    ⟨⟨0, rfl⟩, fun h => absurd h (by decide), fun h => absurd h (by decide), trivial⟩

/-- The receive that fails inside `wrapped` leaves the session open, and the next one returns
the header inside its payload as a frame. -/
theorem not_inboundInSync_failsInside :
    wrapped.Sized ∧ content failsInside.arrivals = [wrapped].flatMap Frame.bytes ∧
      ¬ InboundInSync [wrapped] { transport := failsInside } := by
  refine ⟨rfl, rfl, fun h => ?_⟩
  have hrun : ∃ s', receive.run (after { transport := failsInside } [.receive]) =
      (.ok ⟨smuggled, []⟩, s') := ⟨_, rfl⟩
  obtain ⟨s', hrun⟩ := hrun
  obtain ⟨j, hj⟩ := h _ _ _ hrun
  have hlen := congrArg List.length hj
  rw [show (content (after { transport := failsInside } [.receive]).transport.arrivals).length = 24
    from rfl] at hlen
  match j with
  | 0 => exact absurd hlen (by decide)
  | j + 1 => simp at hlen

end Session

end Adbcpp
