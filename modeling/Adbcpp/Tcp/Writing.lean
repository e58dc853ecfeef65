import Adbcpp.Error
import Adbcpp.Library.Narrowing
import Mathlib.Data.List.Infix

/-! The writes of a TCP transport. A send may take only a part of what it is given, and the
rest is sent from there on, until all is out, the peer is gone, or silence lasts past the
deadline. The length of a send is narrowed to a signed integer of 32 bits, which is the
length of the rest only below 2 GiB. -/

namespace Adbcpp.Tcp

def kDefaultTransferBudgetMs : ℕ := 120000

/-- How one `send` ends: what it returns, whether a failure was a time-out, the text of the failure, and
by how much the steady clock has advanced. -/
structure Outcome where
  sent : ℤ
  timedOut : Bool := false
  lastSocketError : String := ""
  elapsed : ℕ := 0
  deriving DecidableEq, Repr

/-- One call of `send`: where in the buffer it starts, the length it is given, and what the peer took. -/
structure Send where
  offset : ℕ
  length : ℤ
  accepted : List Byte
  deriving DecidableEq, Repr

structure Impl where
  transferBudgetMs : ℕ := kDefaultTransferBudgetMs
  /-- The outcomes of the coming sends; after the last one the connection is broken. -/
  outcomes : List Outcome
  sends : List Send := []
  /-- The bytes that the peer has accepted. -/
  delivered : List Byte := []
  /-- The steady clock, in milliseconds. -/
  now : ℕ := 0

namespace Impl

/-- The outcome of the next send. It takes no more than its length, and nothing where that is not positive. -/
def nextOutcome (length : ℤ) : List Outcome → Outcome × List Outcome
  | [] => ({ sent := -1 }, [])
  | o :: rest => ({ o with sent := min o.sent (max length 0) }, rest)

/-- One `::send` from a position of the buffer on. -/
def send (data : List Byte) (offset : ℕ) (length : ℤ) : Action Impl Outcome := fun s =>
  let o := (nextOutcome length s.outcomes).1
  let accepted := (data.drop offset).take o.sent.toNat
  (.ok o, { s with
    outcomes := (nextOutcome length s.outcomes).2
    sends := s.sends ++ [⟨offset, length, accepted⟩]
    delivered := s.delivered ++ accepted
    now := s.now + o.elapsed })

/-- One turn of the sending, where `total` bytes are out. -/
def writeTurn (data : List Byte) (deadline : ℕ) (total : ℕ) : Action Impl (Turn ℕ Unit) :=
  if total < data.length then do
    let o ← send data total (Narrowing.asInt (data.length - total))
    if o.sent > 0 then
      pure (.again (total + o.sent.toNat))
    else if o.sent = 0 then
      Prog.fail (.of .transport "the peer closed the connection")
    else do
      let s ← Prog.get
      if !o.timedOut ∨ s.now ≥ deadline then
        Prog.fail (.of .transport ("send: " ++ o.lastSocketError))
      else
        pure (.again total)
  else
    pure (.done ())

/-- What one send does. -/
structure Sends (data : List Byte) (offset : ℕ) (length : ℤ) (s : Impl) (o : Outcome) (s' : Impl) : Prop where
  sends : s'.sends = s.sends ++ [⟨offset, length, (data.drop offset).take o.sent.toNat⟩]
  delivered : s'.delivered = s.delivered ++ (data.drop offset).take o.sent.toNat
  sent : o.sent ≤ max length 0
  outcomes : s'.outcomes = s.outcomes.tail

theorem run_send (data : List Byte) (offset : ℕ) (length : ℤ) (s : Impl) :
    ∃ o s', (send data offset length).run s = (.ok o, s') ∧ Sends data offset length s o s' ∧
      (s.outcomes = [] → o = { sent := -1 }) := by
  refine ⟨_, _, rfl, ⟨rfl, rfl, ?_, ?_⟩, ?_⟩
  · cases s.outcomes with
    | nil =>
      rw [nextOutcome]
      dsimp only
      omega
    | cons o rest => exact Int.min_le_right _ _
  · cases s.outcomes with
    | nil => rfl
    | cons o rest => rfl
  · intro h
    rw [h]
    rfl

/-- What one turn of the sending does: one send, and another turn behind what it took or after silence. -/
theorem writeTurn_cases {data : List Byte} {total : ℕ} (hlt : total < data.length) (deadline : ℕ) (s : Impl) :
    ∃ o s', Sends data total (Narrowing.asInt (data.length - total)) s o s' ∧
      ((o.sent > 0 ∧ s'.outcomes.length < s.outcomes.length ∧
          (writeTurn data deadline total).run s = (.ok (.again (total + o.sent.toNat)), s')) ∨
        (o.sent < 0 ∧ s'.outcomes.length < s.outcomes.length ∧
          (writeTurn data deadline total).run s = (.ok (.again total), s')) ∨
        (o.sent ≤ 0 ∧ ∃ e, (writeTurn data deadline total).run s = (.error e, s'))) := by
  obtain ⟨o, s', hrun, hsends, hgone⟩ := run_send data total (Narrowing.asInt (data.length - total)) s
  refine ⟨o, s', hsends, ?_⟩
  have hless : s.outcomes ≠ [] → s'.outcomes.length < s.outcomes.length := by
    intro hne
    have hpos := List.length_pos_iff.mpr hne
    rw [hsends.outcomes, List.length_tail]
    omega
  rw [writeTurn, if_pos hlt, Prog.run_bind_ok hrun]
  by_cases hpos : o.sent > 0
  · left
    rw [if_pos hpos]
    refine ⟨hpos, hless fun hnil => ?_, rfl⟩
    rw [hgone hnil] at hpos
    exact absurd hpos (by decide)
  rw [if_neg hpos]
  by_cases hzero : o.sent = 0
  · rw [if_pos hzero]
    exact .inr (.inr ⟨by omega, _, rfl⟩)
  rw [if_neg hzero, Prog.run_bind_get]
  by_cases hend : !o.timedOut ∨ s'.now ≥ deadline
  · rw [if_pos hend]
    exact .inr (.inr ⟨by omega, _, rfl⟩)
  · rw [if_neg hend]
    refine .inr (.inl ⟨by omega, hless fun hnil => hend ?_, rfl⟩)
    rw [hgone hnil]
    exact .inl rfl

/-- A turn that goes on has made a send, and used up an outcome. -/
theorem writeTurn_again {data : List Byte} {deadline total total' : ℕ} {s s' : Impl}
    (h : (writeTurn data deadline total).run s = (.ok (.again total'), s')) : total < data.length ∧
      s'.outcomes.length < s.outcomes.length ∧ ∃ o,
        Sends data total (Narrowing.asInt (data.length - total)) s o s' ∧ total' = total + o.sent.toNat := by
  by_cases hlt : total < data.length
  swap
  · rw [writeTurn, if_neg hlt] at h
    cases h
  obtain ⟨o, t, hsends, ⟨hpos, hless, hrun⟩ | ⟨hneg, hless, hrun⟩ | ⟨-, e, hrun⟩⟩ := writeTurn_cases hlt deadline s
  · rw [hrun] at h
    cases h
    exact ⟨hlt, hless, o, hsends, rfl⟩
  · rw [hrun] at h
    cases h
    exact ⟨hlt, hless, o, hsends, by omega⟩
  · rw [hrun] at h
    cases h

/-- The last turn finds that everything is out. -/
theorem writeTurn_done {data : List Byte} {deadline total : ℕ} {a : Unit} {s s' : Impl}
    (h : (writeTurn data deadline total).run s = (.ok (.done a), s')) : data.length ≤ total ∧ s' = s := by
  by_cases hlt : total < data.length
  · obtain ⟨o, t, -, ⟨-, -, hrun⟩ | ⟨-, -, hrun⟩ | ⟨-, e, hrun⟩⟩ := writeTurn_cases hlt deadline s
    all_goals
      rw [hrun] at h
      cases h
  · rw [writeTurn, if_neg hlt] at h
    cases h
    exact ⟨Nat.le_of_not_lt hlt, rfl⟩

/-- A turn that fails has made a send that took nothing. -/
theorem writeTurn_error {data : List Byte} {deadline total : ℕ} {e : Error} {s s' : Impl}
    (h : (writeTurn data deadline total).run s = (.error e, s')) : total < data.length ∧ ∃ o,
      Sends data total (Narrowing.asInt (data.length - total)) s o s' ∧ o.sent ≤ 0 := by
  by_cases hlt : total < data.length
  swap
  · rw [writeTurn, if_neg hlt] at h
    cases h
  obtain ⟨o, t, hsends, ⟨-, -, hrun⟩ | ⟨-, -, hrun⟩ | ⟨hnone, e', hrun⟩⟩ := writeTurn_cases hlt deadline s
  · rw [hrun] at h
    cases h
  · rw [hrun] at h
    cases h
  · rw [hrun] at h
    cases h
    exact ⟨hlt, o, hsends, hnone⟩

theorem writeTurn_decreases (data : List Byte) (deadline : ℕ) :
    Prog.Decreases (fun _ (s : Impl) => s.outcomes.length) (writeTurn data deadline) := by
  intro total total' s s' h
  exact (writeTurn_again h).2.1

def write (data : List Byte) : Action Impl Unit := do
  let s ← Prog.get
  Prog.loop (writeTurn_decreases data (s.now + s.transferBudgetMs)) 0

/-! ### What the peer accepts -/

/-- What the peer took in some sends. -/
def acceptedBytes (sends : List Send) : List Byte := sends.flatMap Send.accepted

@[simp] theorem acceptedBytes_nil : acceptedBytes [] = [] := rfl

@[simp] theorem acceptedBytes_cons (c : Send) (sends : List Send) :
    acceptedBytes (c :: sends) = c.accepted ++ acceptedBytes sends := rfl

/-- Each send starts behind what was accepted, and its length is that of a part of the rest. -/
def ValidFrom (data : List Byte) : ℕ → List Send → Prop
  | _, [] => True
  | total, c :: rest => c.offset = total ∧ (0 < c.length ∧ c.length ≤ (data.length : ℤ) - total) ∧
      ValidFrom data (total + c.accepted.length) rest

/-- A write whose sends have valid lengths, that succeeds exactly where the parts that were accepted are
the buffer, and fails behind a prefix of it. -/
structure WritesAll (data : List Byte) (s : Impl) (r : Except Error Unit × Impl) : Prop where
  sends : ∃ sends, r.2.sends = s.sends ++ sends ∧ ValidFrom data 0 sends ∧
    r.2.delivered = s.delivered ++ acceptedBytes sends ∧
    (r.1 = .ok () ↔ acceptedBytes sends = data) ∧
    ∀ e, r.1 = .error e → acceptedBytes sends <+: data

/-- What the rest of a write does, where `total` bytes are out. -/
structure Rest (data : List Byte) (total : ℕ) (s : Impl) (r : Except Error Unit × Impl) : Prop where
  sends : ∃ sends, r.2.sends = s.sends ++ sends ∧ ValidFrom data total sends ∧
    r.2.delivered = s.delivered ++ acceptedBytes sends ∧
    (r.1 = .ok () ↔ acceptedBytes sends = data.drop total) ∧ acceptedBytes sends <+: data.drop total

theorem Rest.cons {data : List Byte} {total : ℕ} {s s' : Impl} {o : Outcome} {length : ℤ}
    {r : Except Error Unit × Impl} (hsends : Sends data total length s o s')
    (hlength : 0 < length ∧ length ≤ (data.length : ℤ) - total)
    (h : Rest data (total + o.sent.toNat) s' r) : Rest data total s r := by
  obtain ⟨sends, hs, hvalid, hdelivered, hok, hbegins⟩ := h
  obtain ⟨part, hpart⟩ : ∃ part, (data.drop total).take o.sent.toNat = part := ⟨_, rfl⟩
  have hlen : part.length = o.sent.toNat := by
    have hsent := hsends.sent
    rw [← hpart, List.length_take, List.length_drop]
    omega
  have hsplit : data.drop total = part ++ data.drop (total + o.sent.toNat) := by
    rw [← hpart, ← List.drop_drop, List.take_append_drop]
  have hnew := hsends.sends
  have hout := hsends.delivered
  rw [hpart] at hnew hout
  refine ⟨⟨total, length, part⟩ :: sends, ?_, ⟨rfl, hlength, ?_⟩, ?_, ?_, ?_⟩
  · rw [hs, hnew, List.append_assoc]
    rfl
  · rwa [hlen]
  · rw [hdelivered, hout, acceptedBytes_cons, List.append_assoc]
  · rw [hok, acceptedBytes_cons, hsplit, List.append_cancel_left_eq]
  · rw [acceptedBytes_cons, hsplit]
    exact (List.prefix_append_right_inj _).mpr hbegins

/-- The length of every send is that of the rest while the whole buffer is below 2 GiB. -/
theorem length_rest {data : List Byte} (hdata : data.length < 2 ^ 31) {total : ℕ} (hlt : total < data.length) :
    0 < Narrowing.asInt (data.length - total) ∧
      Narrowing.asInt (data.length - total) ≤ (data.length : ℤ) - total := by
  rw [Narrowing.asInt_of_lt (Nat.lt_of_le_of_lt (Nat.sub_le _ _) hdata)]
  omega

theorem writeLoop_rest {data : List Byte} (hdata : data.length < 2 ^ 31) (deadline total : ℕ) (s : Impl) :
    total ≤ data.length →
      Rest data total s ((Prog.loop (writeTurn_decreases data deadline) total).run s) := by
  refine Prog.loop_induct (writeTurn_decreases data deadline)
    (P := fun total s r => total ≤ data.length → Rest data total s r) ?_ ?_ ?_ total s
  · intro total total' s t r hb ih hle
    obtain ⟨hlt, -, o, hsends, rfl⟩ := writeTurn_again hb
    have hlength := length_rest hdata hlt
    apply Rest.cons hsends hlength
    apply ih
    have hsent := hsends.sent
    omega
  · intro total a s t hb hle
    obtain ⟨hge, rfl⟩ := writeTurn_done hb
    have hnil : data.drop total = [] := List.drop_eq_nil_of_le hge
    refine ⟨[], (List.append_nil _).symm, trivial, (List.append_nil _).symm, ?_, List.nil_prefix⟩
    rw [hnil]
    exact iff_of_true rfl rfl
  · intro total e s t hb hle
    obtain ⟨hlt, o, hsends, hnone⟩ := writeTurn_error hb
    apply Rest.cons hsends (length_rest hdata hlt)
    have hsame : total + o.sent.toNat = total := by omega
    refine ⟨[], (List.append_nil _).symm, trivial, (List.append_nil _).symm, ?_, List.nil_prefix⟩
    refine iff_of_false nofun fun hnil => ?_
    have hlen := congrArg List.length hnil
    rw [hsame, acceptedBytes_nil, List.length_nil, List.length_drop] at hlen
    omega

/-- A step that only makes more sends. -/
def Sending (s s' : Impl) : Prop := s.sends <+: s'.sends

instance : Std.Refl Sending := ⟨fun _ => List.prefix_rfl⟩

instance : IsTrans Impl Sending := ⟨fun _ _ _ h h' => h.trans h'⟩

theorem writeTurn_sending (data : List Byte) (deadline total : ℕ) :
    Prog.Steps Sending (writeTurn data deadline total) := by
  unfold writeTurn
  refine Prog.Steps.ite (Prog.Steps.bind (fun s => ⟨_, rfl⟩) ?_) (Prog.Steps.pure _)
  intro o
  refine Prog.Steps.ite (Prog.Steps.pure _) (Prog.Steps.ite (Prog.Steps.fail _) ?_)
  refine Prog.Steps.bind Prog.Steps.get ?_
  intro s
  exact Prog.Steps.ite (Prog.Steps.fail _) (Prog.Steps.pure _)

/-- The first send of a write is given the narrowed length of the whole buffer. -/
theorem first_send {data : List Byte} (hdata : data ≠ []) (s : Impl) : ∃ accepted,
    s.sends ++ [⟨0, Narrowing.asInt data.length, accepted⟩] <+: ((write data).run s).2.sends := by
  have hlt : 0 < data.length := List.length_pos_iff.mpr hdata
  have hloop : ∀ total s', Sending s' ((Prog.loop (writeTurn_decreases data
      (s.now + s.transferBudgetMs)) total).run s').2 := fun total =>
    Prog.Steps.loop _ (writeTurn_sending data _) total
  obtain ⟨o, s', hsends, hturn⟩ := writeTurn_cases hlt (s.now + s.transferBudgetMs) s
  have hfirst := hsends.sends
  rw [Nat.sub_zero] at hfirst
  use (data.drop 0).take o.sent.toNat
  rw [← hfirst, write, Prog.run_bind_get]
  rcases hturn with ⟨-, -, hrun⟩ | ⟨-, -, hrun⟩ | ⟨-, e, hrun⟩
  · rw [Prog.loop_again _ hrun]
    exact hloop _ s'
  · rw [Prog.loop_again _ hrun]
    exact hloop _ s'
  · rw [Prog.loop_error _ hrun]

/-- A write whose lengths are valid is given a buffer whose narrowed length is positive. -/
theorem WritesAll.length_pos {data : List Byte} (hdata : data ≠ []) {s : Impl}
    (h : WritesAll data s ((write data).run s)) : 0 < Narrowing.asInt data.length := by
  obtain ⟨sends, hs, hvalid, -⟩ := h
  obtain ⟨accepted, hfirst⟩ := first_send hdata s
  rw [hs, List.prefix_append_right_inj] at hfirst
  obtain ⟨more, rfl⟩ := hfirst
  rw [List.singleton_append, ValidFrom] at hvalid
  dsimp only at hvalid
  exact hvalid.2.1.1

/-- A write of a buffer that a message can carry is right exactly where the buffer is below 2 GiB. -/
theorem write_writesAll_iff {data : List Byte} (hlt : data.length < 2 ^ 32) (s : Impl) :
    WritesAll data s ((write data).run s) ↔ data.length < 2 ^ 31 := by
  constructor
  · intro h
    apply Nat.lt_of_not_le
    intro hge
    have hne : data ≠ [] := by
      rintro rfl
      exact absurd hge (by norm_num)
    have hneg := Narrowing.asInt_neg hge hlt
    exact absurd (h.length_pos hne) (Int.not_lt.mpr hneg.le)
  · intro hdata
    obtain ⟨sends, hs, hvalid, hdelivered, hok, hbegins⟩ :=
      writeLoop_rest hdata (s.now + s.transferBudgetMs) 0 s (Nat.zero_le _)
    exact ⟨sends, hs, hvalid, hdelivered, hok, fun _ _ => hbegins⟩

/-- A peer that takes two bytes, is silent for a while, and takes the rest. -/
def slowPeer : Impl where
  outcomes := [{ sent := 2 }, { sent := -1, timedOut := true, elapsed := 5000 }, { sent := 9 }]

theorem write_writesAll_iff_slow : WritesAll [1, 2, 3] slowPeer ((write [1, 2, 3]).run slowPeer) :=
  (write_writesAll_iff (by decide) slowPeer).mpr (by decide)

/-- A buffer of 2 GiB is handed to the first send with a negative length. -/
theorem not_write_writesAll_large :
    ¬ WritesAll (List.replicate (2 ^ 31) 0) slowPeer ((write (List.replicate (2 ^ 31) 0)).run slowPeer) := by
  have hlength : (List.replicate (2 ^ 31) (0 : Byte)).length = 2 ^ 31 := List.length_replicate
  have hne : List.replicate (2 ^ 31) (0 : Byte) ≠ [] :=
    List.length_pos_iff.mp (Nat.lt_of_lt_of_le (by norm_num) hlength.ge)
  have hneg := Narrowing.asInt_neg hlength.ge (Nat.lt_of_le_of_lt hlength.le (by norm_num))
  intro h
  exact absurd (h.length_pos hne) (Int.not_lt.mpr hneg.le)

end Impl

end Adbcpp.Tcp
