import Adbcpp.Usb.Transport

/-! What the reads of a USB transport deliver. The bytes that accepted transfers moved
are those handed out followed by those still in the buffer, as long as no read fails
while its offset is short of the buffer's full size. A read that does fail there
leaves the buffer at its full size behind a stale offset, and the next read hands out
bytes that the device never sent. -/

namespace Adbcpp.Usb

/-- The bytes that the accepted transfers moved, in order. -/
def acceptedBytes (attempts : List Attempt) : List Byte :=
  attempts.flatMap fun a => if Accepted a.outcome then a.outcome.moved else []

theorem acceptedBytes_append (as bs : List Attempt) :
    acceptedBytes (as ++ bs) = acceptedBytes as ++ acceptedBytes bs := List.flatMap_append

/-- One call of a user. -/
inductive Call
  | read (size : ℕ)
  | waitReadable (timeout : ℤ)
  deriving DecidableEq, Repr

namespace Impl

/-- The bytes a call hands out, and the transport after it, whatever the call returns. -/
def perform (s : Impl) : Call → List Byte × Impl
  | .read size => match (Impl.read size).run s with
    | (.ok bytes, s') => (bytes, s')
    | (.error _, s') => ([], s')
  | .waitReadable timeout => ([], ((Impl.waitReadable timeout).run s).2)

/-- The bytes that all calls of a run hand out, and the transport after them. -/
def performAll (s : Impl) : List Call → List Byte × Impl
  | [] => ([], s)
  | c :: calls =>
    ((s.perform c).1 ++ ((s.perform c).2.performAll calls).1, ((s.perform c).2.performAll calls).2)

/-- The buffered bytes that no read has handed out. -/
def buffered (s : Impl) : List Byte := s.incoming.drop s.incomingOffset

/-- A read that needs a transfer now is refused it. -/
def Refused (s : Impl) : Prop :=
  s.incomingOffset ≥ s.incoming.length ∧
    ∃ o s', bulkTransfer.run { s with incoming := resize kReadBufferSize s.incoming } = (.ok o, s') ∧
      ¬ Accepted o

/-- A call that is not a read refused its transfer short of the end of the full buffer. -/
def Clean (s : Impl) : Call → Prop
  | .read _ => s.Refused → s.incomingOffset = kReadBufferSize
  | .waitReadable _ => True

/-- Every call of the run is clean where it is made. -/
def CleanRun (s : Impl) : List Call → Prop
  | [] => True
  | c :: calls => s.Clean c ∧ (s.perform c).2.CleanRun calls

/-- The accepted bytes are `handed` and then the buffer. -/
structure Accounted (handed : List Byte) (s : Impl) : Prop where
  bytes : acceptedBytes s.attempts = handed ++ s.buffered
  offset : s.incomingOffset ≤ s.incoming.length
  size : s.incoming.length ≤ kReadBufferSize

/-- A transport without transfers and with an empty buffer has handed out nothing. -/
theorem accounted_empty {s : Impl} (hempty : s.incoming = [] ∧ s.incomingOffset = 0) (hfresh : s.attempts = []) :
    Accounted [] s := by
  refine ⟨?_, by rw [hempty.2]; exact Nat.zero_le _, by rw [hempty.1]; exact Nat.zero_le _⟩
  rw [hfresh, buffered, hempty.1, List.drop_nil]
  rfl

/-- What a finished bulk transfer leaves behind. -/
structure Transferred (s : Impl) (o : Outcome (List Byte)) (s' : Impl) : Prop where
  incoming : s'.incoming = o.moved ++ s.incoming.drop o.moved.length
  offset : s'.incomingOffset = s.incomingOffset
  length : o.moved.length ≤ s.incoming.length
  accepted : acceptedBytes s'.attempts =
    acceptedBytes s.attempts ++ if Accepted o then o.moved else []

theorem libusbBulkTransfer_transferred (timeout : ℕ) (s : Impl) :
    ∃ o s', (libusbBulkTransfer timeout).run s = (.ok o, s') ∧ Transferred s o s' := by
  obtain ⟨o, s', hrun, hin, hoff, hlen, hatt, -⟩ := run_libusbBulkTransfer timeout s
  refine ⟨o, s', hrun, hin, hoff, hlen, ?_⟩
  rw [hatt, acceptedBytes_append]
  simp [acceptedBytes]

/-- Silence moves nothing, so a whole bulk transfer is its last attempt. -/
theorem bulkTransfer_transferred (s : Impl) :
    ∃ o s', bulkTransfer.run s = (.ok o, s') ∧ Transferred s o s' := by
  rw [bulkTransfer, Prog.run_bind_get]
  refine Prog.loop_induct (bulkTransferTurn_decreases _)
    (P := fun _ s r => ∃ o s', r = (.ok o, s') ∧ Transferred s o s') ?_ ?_ ?_ () s
  · intro _ b s t r hb ih
    obtain ⟨o, s', turn, hrun, hin, hoff, hlen, hatt, hturn⟩ := bulkTransferTurn_cases _ s
    rw [hrun] at hb
    cases hb
    rcases hturn with hdone | ⟨-, hrc, hmoved, -⟩
    · cases hdone
    obtain ⟨o', u, hr, hin', hoff', hlen', hacc'⟩ := ih
    rw [hmoved, List.nil_append, List.length_nil, List.drop_zero] at hin
    refine ⟨o', u, hr, ?_, hoff'.trans hoff, ?_, ?_⟩
    · rw [hin', hin]
    · rwa [hin] at hlen'
    · have hsilent : ¬ Accepted o := by
        rintro (h | ⟨-, h⟩)
        · rw [hrc] at h
          exact absurd h (by decide)
        · exact h hmoved
      rw [hacc', hatt, acceptedBytes_append]
      simp [acceptedBytes, hsilent]
  · intro _ a s t hb
    obtain ⟨o, s', turn, hrun, hin, hoff, hlen, hatt, hturn⟩ := bulkTransferTurn_cases _ s
    rw [hrun] at hb
    cases hb
    rcases hturn with hdone | ⟨hagain, -⟩
    · cases hdone
      refine ⟨_, _, rfl, hin, hoff, hlen, ?_⟩
      rw [hatt, acceptedBytes_append]
      simp [acceptedBytes]
    · cases hagain
  · intro _ e s t hb
    obtain ⟨o, s', turn, hrun, -⟩ := bulkTransferTurn_cases _ s
    rw [hrun] at hb
    cases hb

/-- Bytes that are copied out of the buffer move from it to those handed out. -/
theorem takeIncoming_accounted {handed : List Byte} {s : Impl} (h : Accounted handed s) (size : ℕ) :
    ∃ bytes s', (takeIncoming size).run s = (.ok bytes, s') ∧ Accounted (handed ++ bytes) s' := by
  have hlen : s.buffered.length = s.incoming.length - s.incomingOffset := List.length_drop
  refine ⟨_, _, rfl, ?_, ?_, h.size⟩
  · rw [show acceptedBytes s.attempts = handed ++ s.buffered from h.bytes]
    simp only [buffered, List.append_assoc]
    rw [← List.drop_drop, List.take_append_drop]
  · have := h.offset
    dsimp only
    omega

/-- An accepted transfer into a buffer that was used up leaves its bytes in the buffer. -/
theorem Transferred.accounted {handed : List Byte} {s s' : Impl} {o : Outcome (List Byte)}
    (ht : Transferred s o s') (hempty : acceptedBytes s.attempts = handed)
    (hsize : s.incoming.length = kReadBufferSize) (ho : Accepted o) :
    Accounted handed { s' with incoming := resize o.moved.length s'.incoming, incomingOffset := 0 } := by
  have hin : resize o.moved.length s'.incoming = o.moved := by
    rw [resize, ht.incoming, List.take_left', List.length_append, Nat.sub_eq_zero_of_le,
      List.replicate_zero, List.append_nil]
    · omega
    · rfl
  refine ⟨?_, Nat.zero_le _, ?_⟩
  · show acceptedBytes s'.attempts = _ ++ List.drop 0 _
    rw [ht.accepted, if_pos ho, hempty, hin, List.drop_zero]
  · show (resize o.moved.length s'.incoming).length ≤ _
    rw [length_resize, ← hsize]
    exact ht.length

theorem read_accounted {handed : List Byte} {s : Impl} (h : Accounted handed s) (size : ℕ)
    (hclean : s.Clean (.read size)) :
    Accounted (handed ++ (s.perform (.read size)).1) (s.perform (.read size)).2 := by
  rw [perform, read, Prog.run_bind_get]
  by_cases hempty : s.incomingOffset ≥ s.incoming.length
  swap
  · obtain ⟨bytes, s', hrun, hacc⟩ := takeIncoming_accounted h size
    rw [if_neg hempty, hrun]
    exact hacc
  have hbytes : acceptedBytes s.attempts = handed := by
    rw [h.bytes, buffered, List.drop_eq_nil_of_le hempty, List.append_nil]
  rw [if_pos hempty, Prog.run_bind_modify]
  obtain ⟨o, t, hrun, ht⟩ :=
    bulkTransfer_transferred { s with incoming := resize kReadBufferSize s.incoming }
  rw [Prog.run_bind_ok hrun]
  by_cases ho : Accepted o
  · have hacc := ht.accounted hbytes (length_resize _ _) ho
    rw [if_neg (not_not.mpr ho), Prog.run_bind_modify]
    by_cases hnone : o.moved.length = 0
    · rw [if_pos hnone]
      simpa using hacc
    · obtain ⟨bytes, s', htake, hacc'⟩ := takeIncoming_accounted hacc size
      rw [if_neg hnone, htake]
      exact hacc'
  · -- the buffer stays at its full size, and the offset is behind all of it
    have hoff : s.incomingOffset = kReadBufferSize := hclean ⟨hempty, o, t, hrun, ho⟩
    have hlen : t.incoming.length = kReadBufferSize := by
      have := ht.length
      rw [length_resize] at this
      rw [ht.incoming, List.length_append, List.length_drop, length_resize]
      omega
    have hoff' : t.incomingOffset = kReadBufferSize := ht.offset.trans hoff
    rw [if_pos ho]
    show Accounted (handed ++ []) t
    refine ⟨?_, by omega, by omega⟩
    rw [ht.accepted, if_neg ho, buffered, List.drop_eq_nil_of_le (by omega)]
    simpa using hbytes

theorem waitReadable_accounted {handed : List Byte} {s : Impl} (h : Accounted handed s) (timeout : ℤ) :
    Accounted handed (s.perform (.waitReadable timeout)).2 := by
  rw [perform, waitReadable, Prog.run_bind_get]
  by_cases hfull : s.incomingOffset < s.incoming.length
  · rw [if_pos hfull]
    exact h
  have hbytes : acceptedBytes s.attempts = handed := by
    rw [h.bytes, buffered, List.drop_eq_nil_of_le (Nat.le_of_not_lt hfull), List.append_nil]
  rw [if_neg hfull, Prog.run_bind_modify]
  obtain ⟨o, t, hrun, ht⟩ := libusbBulkTransfer_transferred (timeout % 2 ^ 32).toNat
    { s with incoming := resize kReadBufferSize s.incoming }
  rw [Prog.run_bind_ok hrun]
  by_cases ho : Accepted o
  · rw [if_neg (not_not.mpr ho)]
    exact ht.accounted hbytes (length_resize _ _) ho
  · rw [if_pos ho]
    refine ⟨?_, Nat.le_refl _, Nat.zero_le _⟩
    show acceptedBytes t.attempts = handed ++ []
    rw [ht.accepted, if_neg ho, List.append_nil, List.append_nil]
    exact hbytes

/-- One clean call keeps the account. -/
theorem perform_accounted {handed : List Byte} {s : Impl} (h : Accounted handed s) (c : Call)
    (hclean : s.Clean c) : Accounted (handed ++ (s.perform c).1) (s.perform c).2 := by
  cases c with
  | read size => exact read_accounted h size hclean
  | waitReadable timeout =>
    rw [show (s.perform (.waitReadable timeout)).1 = [] from rfl, List.append_nil]
    exact waitReadable_accounted h timeout

theorem performAll_pair (s : Impl) (c c' : Call) :
    s.performAll [c, c'] =
      ((s.perform c).1 ++ ((s.perform c).2.perform c').1, ((s.perform c).2.perform c').2) := by
  simp only [performAll, List.append_nil]

theorem performAll_accounted (calls : List Call) {handed : List Byte} {s : Impl}
    (h : Accounted handed s) (hclean : s.CleanRun calls) :
    Accounted (handed ++ (s.performAll calls).1) (s.performAll calls).2 := by
  induction calls generalizing handed s with
  | nil => simpa [performAll] using h
  | cons c calls ih =>
    have hstep := ih (perform_accounted h c hclean.1) hclean.2
    rwa [List.append_assoc] at hstep

/-! ### A transfer that ends at once -/

/-- The transport once a transfer with the outcome `o` has been made. -/
def afterTransfer (s : Impl) (incoming : List Byte) (o : Outcome (List Byte))
    (rest : List (Outcome (List Byte))) : Impl :=
  { s with
    incoming := incoming
    arriving := rest
    attempts := s.attempts ++ [{ timeout := s.transferTimeoutMs, outcome := o }]
    now := s.now + o.elapsed }

/-- A transfer that is not silent is not retried. -/
theorem bulkTransfer_first {s : Impl} {o : Outcome (List Byte)} {rest : List (Outcome (List Byte))}
    (hs : s.arriving = o :: rest) (hdone : o.rc ≠ kErrorTimeout ∨ o.moved ≠ [])
    (hfits : o.moved.length ≤ s.incoming.length) :
    bulkTransfer.run s =
      (.ok o, s.afterTransfer (o.moved ++ s.incoming.drop o.moved.length) o rest) := by
  have hnext : nextOutcome s.incoming.length s.arriving = (o, rest) := by
    rw [hs, nextOutcome, List.take_of_length_le hfits]
  have hcall : (libusbBulkTransfer s.transferTimeoutMs).run s =
      (.ok o, s.afterTransfer (o.moved ++ s.incoming.drop o.moved.length) o rest) := by
    simp only [libusbBulkTransfer, Prog.run, hnext, afterTransfer]
  rw [bulkTransfer, Prog.run_bind_get]
  apply Prog.loop_done
  rw [bulkTransferTurn, Prog.run_bind_get, Prog.run_bind_ok hcall, Prog.run_bind_get, if_pos hdone]
  rfl

section UsedUp
variable {s : Impl} (hused : s.incomingOffset ≥ s.incoming.length) {o : Outcome (List Byte)}
  {rest : List (Outcome (List Byte))} (hs : s.arriving = o :: rest)
  (hdone : o.rc ≠ kErrorTimeout ∨ o.moved ≠ []) (hfits : o.moved.length ≤ kReadBufferSize)

include hs hdone hfits in
theorem bulkTransfer_resized :
    bulkTransfer.run { s with incoming := resize kReadBufferSize s.incoming } =
      (.ok o, s.afterTransfer
        (o.moved ++ (resize kReadBufferSize s.incoming).drop o.moved.length) o rest) :=
  bulkTransfer_first (s := { s with incoming := resize kReadBufferSize s.incoming })
    hs hdone (by rw [length_resize]; exact hfits)

include hused hs hdone hfits

/-- A read that has used up the buffer hands out what the transfer moved. -/
theorem read_accepted (ho : Accepted o) (hsome : o.moved ≠ []) (size : ℕ) :
    s.perform (.read size) = (o.moved.take size,
      { s.afterTransfer o.moved o rest with incomingOffset := min o.moved.length size }) := by
  have hlen : ¬ o.moved.length = 0 := by simpa using hsome
  have hresize : resize o.moved.length
      (o.moved ++ (resize kReadBufferSize s.incoming).drop o.moved.length) = o.moved := by
    rw [resize, List.take_left', Nat.sub_eq_zero_of_le, List.replicate_zero, List.append_nil]
    · rw [List.length_append]
      omega
    · rfl
  rw [perform, read, Prog.run_bind_get, if_pos hused, Prog.run_bind_modify,
    Prog.run_bind_ok (bulkTransfer_resized hs hdone hfits), if_neg (not_not.mpr ho),
    Prog.run_bind_modify, if_neg hlen]
  simp only [afterTransfer, hresize]
  rw [List.take_eq_take_min, Nat.min_comm]
  simp [takeIncoming, Prog.run_bind_get]

/-- A read whose transfer is refused at once leaves a full buffer to the next read. -/
theorem read_refused (ho : ¬ Accepted o) (size : ℕ) :
    s.perform (.read size) = ([], s.afterTransfer
      (o.moved ++ (resize kReadBufferSize s.incoming).drop o.moved.length) o rest) := by
  rw [perform, read, Prog.run_bind_get, if_pos hused, Prog.run_bind_modify,
    Prog.run_bind_ok (bulkTransfer_resized hs hdone hfits), if_pos ho]
  rfl

end UsedUp

/-! ### Clean runs -/

/-- In every clean run on a transport whose buffer is empty, the bytes that the reads hand
out are a prefix of those that the accepted transfers moved, and the rest is in the buffer. -/
theorem performAll_prefix {s : Impl} (hempty : s.incoming = [] ∧ s.incomingOffset = 0)
    (hfresh : s.attempts = []) (calls : List Call) (hclean : s.CleanRun calls) :
    (s.performAll calls).1 <+: acceptedBytes (s.performAll calls).2.attempts ∧
      acceptedBytes (s.performAll calls).2.attempts =
        (s.performAll calls).1 ++ (s.performAll calls).2.buffered := by
  have hend := (performAll_accounted calls (accounted_empty hempty hfresh) hclean).bytes
  rw [List.nil_append] at hend
  exact ⟨hend ▸ List.prefix_append _ _, hend⟩

/-- A transfer that fills the buffer, one that fails, and one of three bytes. -/
def fillsThenFails (full : List Byte) : Impl where
  arriving := [⟨0, full, 0⟩, ⟨-1, [], 0⟩, ⟨0, [1, 2, 3], 0⟩]

section FillsThenFails
variable {full : List Byte} (hfull : full.length = kReadBufferSize)
include hfull

/-- The read of the whole buffer leaves the offset at its end. -/
theorem fillsThenFails_read :
    (fillsThenFails full).perform (.read kReadBufferSize) = (full,
      { (fillsThenFails full).afterTransfer full ⟨0, full, 0⟩ [⟨-1, [], 0⟩, ⟨0, [1, 2, 3], 0⟩] with
        incomingOffset := kReadBufferSize }) := by
  have hsome : full ≠ [] := by
    rintro rfl
    exact absurd hfull (by decide)
  have hread := read_accepted (s := fillsThenFails full) (Nat.le_refl 0) rfl (.inr hsome)
    hfull.le (.inl rfl) hsome kReadBufferSize
  rwa [List.take_of_length_le hfull.le, hfull, Nat.min_self] at hread

/-- The next read is refused its transfer, and the offset stays at the end. -/
theorem fillsThenFails_refused :
    ((fillsThenFails full).perform (.read kReadBufferSize)).2.Refused ∧
      (((fillsThenFails full).perform (.read kReadBufferSize)).2.perform (.read 5)).2.incomingOffset =
        kReadBufferSize := by
  have hnot : ¬ Accepted ⟨-1, [], 0⟩ := by decide
  rw [fillsThenFails_read hfull]
  constructor
  · exact ⟨hfull.le, _, _, bulkTransfer_resized rfl (.inl (by decide)) (Nat.zero_le _), hnot⟩
  · rw [read_refused hfull.le rfl (.inl (by decide)) (Nat.zero_le _) hnot]
    rfl

/-- Each of the three reads meets its condition, the refused one with the offset at the end. -/
theorem fillsThenFails_clean :
    (fillsThenFails full).CleanRun [.read kReadBufferSize, .read 5, .read 2] := by
  refine ⟨?_, fun _ => ?_, fun _ => (fillsThenFails_refused hfull).2, trivial⟩
  · rintro ⟨-, o, t, hrun, hnot⟩
    have hdone : (0 : ℤ) ≠ kErrorTimeout := by decide
    rw [bulkTransfer_resized (s := fillsThenFails full) rfl (.inl hdone) hfull.le] at hrun
    cases hrun
    exact absurd (.inl rfl) hnot
  · rw [fillsThenFails_read hfull]

end FillsThenFails

theorem performAll_prefix_fillsThenFails :
    ∃ s : Impl, (s.perform (.read kReadBufferSize)).2.Refused ∧
      (s.performAll [.read kReadBufferSize, .read 5, .read 2]).1 <+:
        acceptedBytes (s.performAll [.read kReadBufferSize, .read 5, .read 2]).2.attempts ∧
      acceptedBytes (s.performAll [.read kReadBufferSize, .read 5, .read 2]).2.attempts =
        (s.performAll [.read kReadBufferSize, .read 5, .read 2]).1 ++
          (s.performAll [.read kReadBufferSize, .read 5, .read 2]).2.buffered := by
  have hfull : (List.replicate kReadBufferSize (7 : Byte)).length = kReadBufferSize :=
    List.length_replicate
  exact ⟨fillsThenFails (List.replicate kReadBufferSize 7), (fillsThenFails_refused hfull).1,
    performAll_prefix ⟨rfl, rfl⟩ rfl _ (fillsThenFails_clean hfull)⟩

/-! ### A read that fails -/

/-- A read that finds bytes in the buffer makes no transfer. -/
theorem read_buffered {s : Impl} (h : s.incomingOffset < s.incoming.length) (size : ℕ) :
    (s.perform (.read size)).1 = s.buffered.take size ∧
      (s.perform (.read size)).2.attempts = s.attempts := by
  have hlen : s.buffered.length = s.incoming.length - s.incomingOffset := List.length_drop
  rw [perform, read, Prog.run_bind_get, if_neg (Nat.not_le_of_lt h), List.take_eq_take_min,
    Nat.min_comm, hlen]
  exact ⟨rfl, rfl⟩

/-- After a read whose transfer failed at once, the next read hands out zeros. -/
theorem read_refused_invents {s : Impl} (hempty : s.incoming = [] ∧ s.incomingOffset = 0)
    {o : Outcome (List Byte)} {rest : List (Outcome (List Byte))} (hs : s.arriving = o :: rest)
    (hrc : o.rc ≠ kErrorTimeout) (hrefused : o.rc ≠ 0) (hmoved : o.moved = []) (size size' : ℕ) :
    (s.performAll [.read size, .read size']).1 = List.replicate (min size' kReadBufferSize) 0 ∧
      acceptedBytes (s.performAll [.read size, .read size']).2.attempts = acceptedBytes s.attempts := by
  have hnot : ¬ Accepted o := by
    rintro (h | ⟨h, -⟩)
    · exact hrefused h
    · exact hrc h
  have hused : s.incomingOffset ≥ s.incoming.length := by rw [hempty.1]; exact Nat.zero_le _
  have hfirst := read_refused hused hs (.inl hrc) (by rw [hmoved]; exact Nat.zero_le _) hnot size
  rw [hmoved, List.nil_append, List.length_nil, List.drop_zero, hempty.1, resize, List.take_nil,
    List.nil_append, List.length_nil, Nat.sub_zero] at hfirst
  have hatt : acceptedBytes (s.attempts ++ [{ timeout := s.transferTimeoutMs, outcome := o }]) =
      acceptedBytes s.attempts := by
    rw [acceptedBytes_append]
    simp [acceptedBytes, hmoved]
  -- named, so that no step unfolds the whole buffer
  obtain ⟨zeros, hzeros⟩ : ∃ zeros, zeros = List.replicate kReadBufferSize (0 : Byte) := ⟨_, rfl⟩
  have hfull : s.incomingOffset < zeros.length := by
    rw [hempty.2, hzeros, List.length_replicate, kReadBufferSize]
    omega
  rw [← hzeros] at hfirst
  obtain ⟨hbytes, hsame⟩ := read_buffered (s := s.afterTransfer zeros o rest) hfull size'
  rw [performAll_pair, hfirst, List.nil_append]
  constructor
  · rw [hbytes, buffered, afterTransfer]
    simp only [hempty.2, hzeros, List.drop_zero, List.take_replicate]
  · rw [hsame, afterTransfer, hatt]

/-- The first transfer fails and the device then sends two bytes. -/
def failsOnce : Impl where
  arriving := [⟨-1, [], 0⟩, ⟨0, [7, 8], 0⟩]

/-- The second read hands out two zeros that no transfer has moved. -/
theorem not_prefix_failsOnce : ¬ (failsOnce.performAll [.read 2, .read 2]).1 <+:
    acceptedBytes (failsOnce.performAll [.read 2, .read 2]).2.attempts := by
  obtain ⟨hbytes, hattempts⟩ := read_refused_invents (s := failsOnce) ⟨rfl, rfl⟩ rfl (by decide)
    (by decide) rfl 2 2
  rw [hbytes, hattempts]
  decide

end Impl

end Adbcpp.Usb
