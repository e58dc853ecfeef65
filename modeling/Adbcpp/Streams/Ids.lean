import Adbcpp.Handshake
import Adbcpp.Stream.Identity
import Adbcpp.Streams

/-! The local ids of a connection. A connection hands them out one after the other, to its
streams and to whoever asks for one, and its counter has 32 bits: the ids are new and
none of them is reserved until the counter wraps around. -/

namespace Adbcpp

open Protocol

variable {σ : Type}

/-! ### What hands out an id -/

section Connect

variable [Channel σ]

/-- The handshake takes no local id. -/
theorem Connection.connect_nextLocalId (codecs : Codecs) (publicKey : List Byte) (signer : Option Signer)
    (advertiseDelayedAck : Bool) (c : Connection σ) :
    ((connect codecs publicKey signer advertiseDelayedAck).run c).2.nextLocalId = c.nextLocalId := by
  let R : Connection σ → Connection σ → Prop := fun c c' => c'.nextLocalId = c.nextLocalId
  have : Std.Refl R := ⟨fun _ => rfl⟩
  have : IsTrans (Connection σ) R := ⟨fun _ _ _ hcd hde => hde.trans hcd⟩
  have hsession {α : Type} (p : Action σ α) : Prog.Steps R (onSession p) := fun _ => rfl
  have hauthorize (frame : Frame) : Prog.Steps R (authorize publicKey frame : Action (Connection σ) Frame) := by
    refine Prog.Steps.ite ?_ (Prog.Steps.pure _)
    refine Prog.Steps.bind ?_ fun _ => hsession _
    refine Prog.Steps.bind (Prog.Steps.modify fun _ => rfl) fun _ => ?_
    refine Prog.Steps.ite (Prog.Steps.fail _) ?_
    exact Prog.Steps.bind (Prog.Steps.lift _) fun _ => hsession _
  have hauthenticate (frame : Frame) :
      Prog.Steps R (authenticate publicKey signer frame : Action (Connection σ) Frame) := by
    refine Prog.Steps.ite ?_ (Prog.Steps.pure _)
    cases signer with
    | none => exact hauthorize frame
    | some sign =>
      refine Prog.Steps.bind ?_ fun _ => Prog.Steps.bind (hsession _) hauthorize
      refine Prog.Steps.bind (Prog.Steps.lift _) fun _ => ?_
      exact Prog.Steps.bind (Prog.Steps.lift _) fun _ => hsession _
  have hconnect : Prog.Steps R (connect codecs publicKey signer advertiseDelayedAck) := by
    refine Prog.Steps.bind (Prog.Steps.bind (Prog.Steps.lift _) fun _ => hsession _) fun _ => ?_
    refine Prog.Steps.bind (hsession _) fun first => ?_
    refine Prog.Steps.bind (hauthenticate first) fun frame => ?_
    exact Prog.Steps.ite (Prog.Steps.fail _) (Prog.Steps.modify fun _ => rfl)
  exact hconnect c

end Connect

namespace Streams

variable {ι : Type}

/-- What a program can do with a connection. -/
inductive Call (ι σ : Type)
  | allocateLocalId
  /-- A send, a receive or a close, which goes to the session alone. -/
  | onSession (p : Action σ Unit)
  | operate (op : Operation ι)

section Ids

variable [DecidableEq ι] [Channel σ]

/-- The state after a call. -/
def call : Call ι σ → Streams ι σ → Streams ι σ
  | .allocateLocalId, s => { s with connection := s.connection.allocateLocalId.2 }
  | .onSession p, s => { s with connection := ((Connection.onSession p).run s.connection).2 }
  | .operate op, s => ((exec op).run s).2

omit [DecidableEq ι] [Channel σ] in
/-- The ids that a call makes the connection hand out. -/
def idsOf : Call ι σ → Streams ι σ → List UInt32
  | .allocateLocalId, s => [s.connection.allocateLocalId.1]
  | .operate (.open x _), s => match s.objects x with
    | none => [s.connection.allocateLocalId.1]
    | some _ => []
  | _, _ => []

/-- The ids that are handed out in a run, in their order. -/
def handedOut : List (Call ι σ) → Streams ι σ → List UInt32
  | [], _ => []
  | c :: cs, s => idsOf c s ++ handedOut cs (call c s)

omit [DecidableEq ι] [Channel σ] in
/-- The id is not reserved, and no stream that is open has it. -/
def Free (id : UInt32) (s : Streams ι σ) : Prop :=
  id ≠ 0 ∧ id ≠ 1 ∧ ∀ x o, s.objects x = some o → o.stream.closed = false → o.stream.localId ≠ id

/-- Every id is free when it is handed out. -/
def HandsOutFree : List (Call ι σ) → Streams ι σ → Prop
  | [], _ => True
  | c :: cs, s => (∀ id ∈ idsOf c s, Free id s) ∧ HandsOutFree cs (call c s)

omit [DecidableEq ι] [Channel σ] in
/-- A call makes the connection hand out its next id, or none. -/
theorem idsOf_eq (c : Call ι σ) (s : Streams ι σ) :
    idsOf c s = [] ∨ idsOf c s = [s.connection.nextLocalId] := by
  cases c with
  | allocateLocalId => exact .inr rfl
  | onSession p => exact .inl rfl
  | operate op =>
    cases op with
    | «open» x service =>
      cases hx : s.objects x with
      | none =>
        right
        simp [idsOf, hx, Connection.allocateLocalId]
      | some o =>
        left
        simp [idsOf, hx]
    | moveConstruct | moveAssign | write | read | readAll | destroy => exact .inl rfl

omit [DecidableEq ι] [Channel σ] in
/-- The counter has gone on by the ids that were handed out, and only they are new to the objects. -/
structure Counts (ids : List UInt32) (s s' : Streams ι σ) : Prop where
  next : s'.connection.nextLocalId = s.connection.nextLocalId + UInt32.ofNat ids.length
  objects : ∀ x p, s'.objects x = some p →
    p.stream.localId ∈ ids ∨ ∃ y o, s.objects y = some o ∧ p.stream.localId = o.stream.localId

omit [DecidableEq ι] [Channel σ] in
theorem counts_same {s s' : Streams ι σ} (hnext : s'.connection.nextLocalId = s.connection.nextLocalId)
    (hobjects : s'.objects = s.objects) : Counts [] s s' := by
  constructor
  · rw [hnext]
    exact (UInt32.add_zero _).symm
  · intro x p hp
    rw [hobjects] at hp
    exact .inr ⟨x, p, hp, rfl⟩

omit [Channel σ] in
/-- An object is put in place whose id is known, or handed out just now. -/
theorem Counts.set {ids : List UInt32} {s s' : Streams ι σ} (h : Counts ids s s') (x : ι) {p : Object}
    (hp : p.stream.localId ∈ ids ∨ ∃ y o, s.objects y = some o ∧ p.stream.localId = o.stream.localId) :
    Counts ids s (s'.set x (some p)) := by
  constructor
  · exact h.next
  · intro z q hq
    by_cases hz : z = x
    · subst hz
      rw [set_same] at hq
      cases hq
      exact hp
    · rw [set_other hz] at hq
      exact h.objects z q hq

omit [Channel σ] in
/-- A move brings no id that was not there. -/
theorem move_counts {s t : Streams ι σ} (h : Counts [] s t) (x : ι) {y : ι} {o : Object}
    (hy : s.objects y = some o) :
    Counts [] s ((t.set y (some ⟨o.stream.movedFrom, true⟩)).set x (some o)) := by
  apply Counts.set
  · apply h.set
    exact .inr ⟨y, o, hy, rfl⟩
  · exact .inr ⟨y, o, hy, rfl⟩

omit [Channel σ] in
theorem use_counts {x : ι} {p : Action (StreamOn σ) (List Byte)} (hp : Prog.Steps StreamOn.SameLocal p)
    (s : Streams ι σ) : Counts [] s ((use x p).run s).2 := by
  cases hx : s.objects x with
  | none =>
    rw [run_use_none hx]
    exact counts_same rfl rfl
  | some o =>
    rw [run_use hx]
    have hsame := hp (s.view o)
    apply Counts.set
    · exact counts_same hsame.nextLocalId rfl
    · exact .inr ⟨x, o, hx, hsame.localId⟩

theorem open_counts (x : ι) (service : List Byte) (s : Streams ι σ) :
    Counts (idsOf (.operate (.open x service)) s) s ((exec (.open x service)).run s).2 := by
  cases hx : s.objects x with
  | some o =>
    simp only [exec, Prog.run, idsOf, hx]
    exact counts_same rfl rfl
  | none =>
    obtain ⟨hnext, hstream⟩ := Stream.open_localId service s.connection
    have hcounts (c : Connection σ) (hc : c.nextLocalId = s.connection.nextLocalId + 1) :
        Counts [s.connection.nextLocalId] s { s with connection := c } :=
      ⟨hc, fun z p hp => .inr ⟨z, p, hp, rfl⟩⟩
    simp only [exec, Prog.run, idsOf, hx, Connection.allocateLocalId] at hnext hstream ⊢
    cases hrun : Stream.open service s.connection with
    | mk r c =>
      rw [hrun] at hnext hstream
      cases r with
      | error e => exact hcounts c (congrArg Connection.nextLocalId hnext)
      | ok stream =>
        apply (hcounts c (congrArg Connection.nextLocalId hnext)).set
        left
        exact List.mem_singleton.mpr (hstream stream rfl)

theorem exec_counts (op : Operation ι) (s : Streams ι σ) :
    Counts (idsOf (.operate op) s) s ((exec op).run s).2 := by
  cases op with
  | «open» x service => exact open_counts x service s
  | moveConstruct x y =>
    simp only [exec, Prog.run, idsOf]
    split
    next o hx hy => exact move_counts (counts_same rfl rfl) x hy
    next => exact counts_same rfl rfl
  | moveAssign x y =>
    simp only [exec, Prog.run, idsOf]
    split
    next target o hx hy =>
      split
      · exact counts_same rfl rfl
      · have hnext := (StreamOn.closeNow_sameLocal (s.view target)).nextLocalId
        exact move_counts (t := { s with connection := (s.view target).closeNow.connection })
          (counts_same hnext rfl) x hy
    next => exact counts_same rfl rfl
  | write x data =>
    apply use_counts
    exact Prog.Steps.bind (StreamOn.write_sameLocal data) fun _ => Prog.Steps.pure _
  | read x size => exact use_counts (StreamOn.read_sameLocal size) s
  | readAll x => exact use_counts StreamOn.readAll_sameLocal s
  | destroy x =>
    simp only [exec, Prog.run, idsOf]
    split
    next => exact counts_same rfl rfl
    next o hx =>
      have hnext := (StreamOn.closeNow_sameLocal (s.view o)).nextLocalId
      constructor
      · show (s.view o).closeNow.connection.nextLocalId = s.connection.nextLocalId + 0
        rw [hnext, UInt32.add_zero]
        rfl
      · intro z p hp
        by_cases hz : z = x
        · subst hz
          rw [set_same] at hp
          cases hp
        · rw [set_other hz] at hp
          exact .inr ⟨z, p, hp, rfl⟩

theorem call_counts (c : Call ι σ) (s : Streams ι σ) : Counts (idsOf c s) s (call c s) := by
  cases c with
  | allocateLocalId => exact ⟨rfl, fun x p hp => .inr ⟨x, p, hp, rfl⟩⟩
  | onSession p => exact counts_same rfl rfl
  | operate op => exact exec_counts op s

/-! ### A whole run -/

omit [DecidableEq ι] [Channel σ] in
/-- The ids below `n` have been handed out, and every object has one of them. The counter is only `n`
up to its 32 bits. -/
structure Numbered (n : ℕ) (s : Streams ι σ) : Prop where
  next : s.connection.nextLocalId = UInt32.ofNat n
  known : ∀ x o, s.objects x = some o → ∃ k < n, o.stream.localId = UInt32.ofNat k

theorem Numbered.call {n : ℕ} {s : Streams ι σ} (h : Numbered n s) (c : Call ι σ) :
    Numbered (n + (idsOf c s).length) (call c s) := by
  have hcounts := call_counts c s
  constructor
  · rw [hcounts.next, h.next, UInt32.ofNat_add]
  · intro x p hp
    rcases hcounts.objects x p hp with hid | ⟨y, o, ho, hid⟩
    · rcases idsOf_eq c s with hnone | hone
      · rw [hnone] at hid
        cases hid
      · rw [hone] at hid ⊢
        exact ⟨n, Nat.lt_succ_self n, (List.mem_singleton.mp hid).trans h.next⟩
    · obtain ⟨k, hk, hok⟩ := h.known y o ho
      exact ⟨k, Nat.lt_add_right _ hk, hid.trans hok⟩

omit [DecidableEq ι] [Channel σ] in
/-- Below the wraparound the next id is free. -/
theorem Numbered.free {n : ℕ} {s : Streams ι σ} (h : Numbered n s) (htwo : 2 ≤ n) (hn : n < 2 ^ 32) :
    Free s.connection.nextLocalId s := by
  have hother : ∀ k < n, UInt32.ofNat k ≠ s.connection.nextLocalId := by
    intro k hk heq
    rw [h.next] at heq
    have hnat := congrArg UInt32.toNat heq
    rw [UInt32.toNat_ofNat_of_lt' (Nat.lt_trans hk hn), UInt32.toNat_ofNat_of_lt' hn] at hnat
    omega
  refine ⟨(hother 0 (by omega)).symm, (hother 1 (by omega)).symm, ?_⟩
  intro x o ho _
  obtain ⟨k, hk, hid⟩ := h.known x o ho
  rw [hid]
  exact hother k hk

theorem Numbered.handsOutFree {n : ℕ} {cs : List (Call ι σ)} {s : Streams ι σ} (h : Numbered n s)
    (htwo : 2 ≤ n) (hn : n + (handedOut cs s).length ≤ 2 ^ 32) : HandsOutFree cs s := by
  induction cs generalizing n s with
  | nil => trivial
  | cons c cs ih =>
    rw [handedOut, List.length_append] at hn
    constructor
    · intro id hid
      rcases idsOf_eq c s with hnone | hone
      · rw [hnone] at hid
        cases hid
      · rw [hone] at hid hn
        rw [List.mem_singleton.mp hid]
        rw [List.length_singleton] at hn
        exact h.free htwo (by omega)
    · exact ih (h.call c) (by omega) (by omega)

/-- The ids of a run follow the counter, with its wraparound. -/
theorem Numbered.mem_handedOut {n k : ℕ} {cs : List (Call ι σ)} {s : Streams ι σ} (h : Numbered n s)
    (hk : k < (handedOut cs s).length) : UInt32.ofNat (n + k) ∈ handedOut cs s := by
  induction cs generalizing n k s with
  | nil => cases hk
  | cons c cs ih =>
    have hcall := h.call c
    rw [handedOut, List.length_append] at hk
    rw [handedOut, List.mem_append]
    rcases idsOf_eq c s with hnone | hone
    · rw [hnone] at hk hcall
      right
      exact ih hcall (by simpa using hk)
    · rw [hone] at hk hcall ⊢
      cases k with
      | zero =>
        left
        rw [h.next]
        exact List.mem_singleton_self _
      | succ k =>
        right
        have hless : k < (handedOut cs (Streams.call c s)).length := by
          rw [List.length_singleton] at hk
          omega
        have hrest := ih hcall hless
        rwa [List.length_singleton, Nat.add_assoc, Nat.add_comm 1 k] at hrest

theorem HandsOutFree.not_reserved {cs : List (Call ι σ)} {s : Streams ι σ} (h : HandsOutFree cs s) :
    0 ∉ handedOut cs s := by
  induction cs generalizing s with
  | nil => exact List.not_mem_nil
  | cons c cs ih =>
    rw [handedOut, List.mem_append]
    rintro (hid | hid)
    · exact (h.1 0 hid).1 rfl
    · exact ih h.2 hid

/-- All of the ids are free exactly up to the wraparound: 0 follows on 2 ^ 32 - 1. -/
theorem Numbered.free_iff_length {cs : List (Call ι σ)} {s : Streams ι σ} (h : Numbered 2 s) :
    HandsOutFree cs s ↔ (handedOut cs s).length ≤ 2 ^ 32 - 2 := by
  constructor
  · intro hfree
    by_contra hlong
    have hzero := h.mem_handedOut (k := 2 ^ 32 - 2) (Nat.lt_of_not_le hlong)
    exact hfree.not_reserved hzero
  · intro hshort
    exact h.handsOutFree (Nat.le_refl 2) (by omega)

omit [DecidableEq ι] in
/-- A connection that has just been made has handed out nothing, and begins with 2. -/
theorem numbered_connected {codecs : Codecs} {publicKey : List Byte} {signer : Option Signer}
    {advertiseDelayedAck : Bool} {session : σ} {c : Connection σ}
    (h : (Connection.connect codecs publicKey signer advertiseDelayedAck).run { session } = (.ok (), c)) :
    Numbered 2 ({ connection := c } : Streams ι σ) := by
  have hnext := Connection.connect_nextLocalId codecs publicKey signer advertiseDelayedAck { session }
  rw [h] at hnext
  constructor
  · exact hnext
  · rintro x o ⟨⟩

/-- The ids that a connection hands out in a run are free as long as they are at most 2 ^ 32 - 2. -/
theorem handsOutFree_iff {codecs : Codecs} {publicKey : List Byte} {signer : Option Signer}
    {advertiseDelayedAck : Bool} {session : σ} {c : Connection σ}
    (h : (Connection.connect codecs publicKey signer advertiseDelayedAck).run { session } = (.ok (), c))
    (cs : List (Call ι σ)) :
    HandsOutFree cs { connection := c } ↔ (handedOut cs { connection := c }).length ≤ 2 ^ 32 - 2 :=
  (numbered_connected h).free_iff_length

end Ids

/-- A device that answers with its own CNXN, and then accepts the stream with the local id 3. -/
def greeting : Dialogue where
  inbox := [.frame ⟨makeEmptyMessage kCnxn kVersion kMaxData, []⟩, .frame ⟨makeEmptyMessage kOkay 9 3, []⟩]

theorem connect_greeting : (Connection.connect {} [] none false).run { session := greeting } =
    (.ok (), ((Connection.connect {} [] none false).run { session := greeting }).2) := rfl

/-- A stream that is opened between two calls for an id. -/
theorem handsOutFree_greeting : HandsOutFree
    [.allocateLocalId, .operate (.open () (bytesOf "shell:")), .allocateLocalId]
    { connection := ((Connection.connect {} [] none false).run { session := greeting }).2 } :=
  (handsOutFree_iff connect_greeting _).mpr (by decide)

theorem handedOut_replicate [DecidableEq ι] [Channel σ] (n : ℕ) (s : Streams ι σ) :
    (handedOut (List.replicate n Call.allocateLocalId) s).length = n := by
  induction n generalizing s with
  | zero => rfl
  | succ n ih =>
    rw [List.replicate_succ, handedOut, List.length_append, ih]
    exact Nat.add_comm 1 n

/-- The last of 2 ^ 32 - 1 ids is 0. -/
theorem not_handsOutFree_replicate : ¬ HandsOutFree
    (List.replicate (2 ^ 32 - 1) (Call.allocateLocalId (ι := Unit)))
    { connection := ((Connection.connect {} [] none false).run { session := greeting }).2 } := by
  intro h
  have hshort := (numbered_connected connect_greeting).free_iff_length.mp h
  rw [handedOut_replicate] at hshort
  exact absurd hshort (by decide)

end Streams

end Adbcpp
