import Adbcpp.Session.Wire
import Adbcpp.Usb.Delivery
import Adbcpp.Usb.Writing

/-! Both endpoints of a USB transport at once, as the wire of a session. What its reads have
handed out is kept on record, as a read that fails may leave bytes in the buffer that no
transfer was accepted for. While no read fails, that record and the buffer are just what
the accepted transfers have moved. -/

namespace Adbcpp.Usb

namespace Impl

/-- What a finished transfer has used up of those that are coming: one more where it is accepted. -/
def UsesUp (s : Impl) (o : Outcome (List Byte)) (s' : Impl) : Prop :=
  s'.arriving.length ≤ s.arriving.length ∧ (Accepted o → s'.arriving.length < s.arriving.length)

theorem libusbBulkTransfer_usesUp (timeout : ℕ) {s s' : Impl} {o : Outcome (List Byte)}
    (h : (libusbBulkTransfer timeout).run s = (.ok o, s')) : UsesUp s o s' := by
  cases h
  unfold UsesUp
  dsimp only
  cases s.arriving with
  | nil =>
    refine ⟨Nat.le_refl _, fun haccepted => ?_⟩
    rcases haccepted with hrc | ⟨hrc, -⟩
    · exact absurd (show kErrorNoDevice = 0 from hrc) (by decide)
    · exact absurd (show kErrorNoDevice = kErrorTimeout from hrc) (by decide)
  | cons o rest => exact ⟨Nat.le_succ _, fun _ => Nat.lt_succ_self _⟩

/-- A turn of the retrying makes one transfer, and is done with its outcome or goes on. -/
theorem bulkTransferTurn_usesUp (deadline : ℕ) {s s' : Impl} {turn : Turn Unit (Outcome (List Byte))}
    (h : (bulkTransferTurn deadline ()).run s = (.ok turn, s')) :
    s'.arriving.length ≤ s.arriving.length ∧ ∀ o, turn = .done o → UsesUp s o s' := by
  rw [bulkTransferTurn, Prog.run_bind_get] at h
  obtain ⟨o, t, hrun, h⟩ := Prog.bind_eq_ok h
  have huses := libusbBulkTransfer_usesUp _ hrun
  rw [Prog.run_bind_get] at h
  split at h
  · cases h
    exact ⟨huses.1, fun o ho => by cases ho; exact huses⟩
  split at h
  · cases h
    exact ⟨huses.1, fun o ho => by cases ho; exact huses⟩
  · cases h
    exact ⟨huses.1, fun o ho => by cases ho⟩

theorem bulkTransfer_usesUp {s s' : Impl} {o : Outcome (List Byte)} (h : bulkTransfer.run s = (.ok o, s')) :
    UsesUp s o s' := by
  rw [bulkTransfer, Prog.run_bind_get] at h
  have hloop := Prog.loop_induct (bulkTransferTurn_decreases (s.now + s.transferBudgetMs))
    (P := fun _ s r => ∀ o, r.1 = .ok o → UsesUp s o r.2) ?_ ?_ ?_ () s
  · rw [h] at hloop
    exact hloop o rfl
  · intro _ _ t u r hturn ih o ho
    have hless := (bulkTransferTurn_usesUp _ hturn).1
    obtain ⟨hle, hlt⟩ := ih o ho
    exact ⟨hle.trans hless, fun haccepted => Nat.lt_of_lt_of_le (hlt haccepted) hless⟩
  · intro _ a t u hturn o ho
    cases ho
    exact (bulkTransferTurn_usesUp _ hturn).2 _ rfl
  · intro _ e t u hturn o ho
    cases ho

/-- What the reads may still hand out, as long as none of them fails. -/
def remaining (s : Impl) : ℕ := s.buffered.length + kReadBufferSize * s.arriving.length

theorem takeIncoming_remaining {size : ℕ} {s s' : Impl} {bytes : List Byte}
    (h : (takeIncoming size).run s = (.ok bytes, s')) :
    bytes.length ≤ size ∧ s'.remaining + bytes.length = s.remaining := by
  cases h
  simp only [remaining, buffered, List.length_take, List.length_drop]
  omega

theorem read_remaining {size : ℕ} {s s' : Impl} {bytes : List Byte} (h : (read size).run s = (.ok bytes, s')) :
    bytes.length ≤ size ∧ s'.remaining + bytes.length ≤ s.remaining := by
  rw [read, Prog.run_bind_get] at h
  split at h
  swap
  · obtain ⟨hlength, hremaining⟩ := takeIncoming_remaining h
    exact ⟨hlength, hremaining.le⟩
  rw [Prog.run_bind_modify] at h
  obtain ⟨o, t, htransferred, htransfer⟩ := bulkTransfer_transferred { s with incoming := resize kReadBufferSize s.incoming }
  rw [Prog.run_bind_ok htransferred] at h
  have huses := bulkTransfer_usesUp htransferred
  have hmoved := htransfer.length
  rw [length_resize] at hmoved
  split at h
  · cases h
  next haccepted =>
  have hless := huses.2 (not_not.mp haccepted)
  rw [Prog.run_bind_modify] at h
  -- one of the coming transfers has become what is in the buffer
  have hnext : remaining { t with incoming := resize o.moved.length t.incoming, incomingOffset := 0 } ≤ s.remaining := by
    simp only [remaining, buffered, List.drop_zero, length_resize]
    dsimp only at hless
    have hmul := Nat.mul_le_mul_left kReadBufferSize (Nat.succ_le_of_lt hless)
    rw [Nat.mul_succ] at hmul
    omega
  split at h
  · cases h
    exact ⟨Nat.zero_le _, hnext⟩
  · obtain ⟨hlength, hremaining⟩ := takeIncoming_remaining h
    exact ⟨hlength, hremaining.le.trans hnext⟩

end Impl

/-- What a write makes the device receive is a beginning of its data, and all of them where it succeeds. -/
theorem Outward.write_delivered (data : List Byte) (s : Outward) : ∃ n,
    ((write data).run s).2.delivered = s.delivered ++ data.take n ∧
    (((write data).run s).1 = .ok () → data.take n = data) := by
  by_cases hdata : data = []
  · rw [write, if_pos hdata]
    exact ⟨0, by simp, fun _ => by rw [hdata, List.take_zero]⟩
  · obtain ⟨o, s', hfinished, ⟨-, hall, hrun⟩ | ⟨-, e, hrun⟩⟩ := run_write hdata s
    · rw [hrun]
      exact ⟨o.moved, hfinished.delivered, fun _ => by rw [hall, List.take_length]⟩
    · rw [hrun]
      exact ⟨o.moved, hfinished.delivered, fun h => by cases h⟩

/-- The transport with what its reads have handed out, and how many of them have failed. -/
structure Link where
  out : Outward
  handedOut : List Byte := []
  failedReads : ℕ := 0
  isOpen : Bool := true

namespace Link

def read (size : ℕ) : Action Link (List Byte) := do
  match ← Prog.attempt (Prog.zoom (fun s : Link => s.out.impl)
    (fun s impl => { s with out := { s.out with impl } }) (Impl.read size)) with
  | .ok bytes =>
    Prog.modify fun s => { s with handedOut := s.handedOut ++ bytes }
    pure bytes
  | .error e =>
    Prog.modify fun s => { s with failedReads := s.failedReads + 1 }
    Prog.fail e

def write (data : List Byte) : Action Link Unit :=
  Prog.zoom Link.out (fun s out => { s with out }) (Outward.write data)

def close (s : Link) : Link := { s with isOpen := false }

/-- What a read does to the link: what it hands out goes on the record, or that it has failed. -/
theorem run_read (size : ℕ) (s : Link) : (read size).run s = match (Impl.read size).run s.out.impl with
    | (.ok bytes, impl) => (.ok bytes, { s with out := { s.out with impl }, handedOut := s.handedOut ++ bytes })
    | (.error e, impl) => (.error e, { s with out := { s.out with impl }, failedReads := s.failedReads + 1 }) := by
  rw [read, Prog.run_bind, Prog.run_attempt, Prog.run_zoom]
  match (Impl.read size).run s.out.impl with
  | (.ok bytes, impl) => rfl
  | (.error e, impl) => rfl

theorem read_ok {size : ℕ} {s s' : Link} {bytes : List Byte} (h : (read size).run s = (.ok bytes, s')) :
    ∃ impl, (Impl.read size).run s.out.impl = (.ok bytes, impl) ∧
      s' = { s with out := { s.out with impl }, handedOut := s.handedOut ++ bytes } := by
  rw [run_read] at h
  match hread : (Impl.read size).run s.out.impl with
  | (.ok bytes', impl) =>
    rw [hread] at h
    cases h
    exact ⟨impl, rfl, rfl⟩
  | (.error e, impl) =>
    rw [hread] at h
    cases h

theorem read_error {size : ℕ} {s s' : Link} {e : Error} (h : (read size).run s = (.error e, s')) :
    s'.handedOut = s.handedOut ∧ s'.out.delivered = s.out.delivered ∧ s'.failedReads = s.failedReads + 1 := by
  rw [run_read] at h
  match hread : (Impl.read size).run s.out.impl with
  | (.ok bytes, impl) =>
    rw [hread] at h
    cases h
  | (.error e', impl) =>
    rw [hread] at h
    cases h
    exact ⟨rfl, rfl, rfl⟩

/-- A write does nothing to the IN endpoint but take time. -/
def SameIncoming (s s' : Outward) : Prop := s'.impl = { s.impl with now := s'.impl.now }

instance : Std.Refl SameIncoming := ⟨fun _ => rfl⟩

instance : IsTrans Outward SameIncoming where
  trans s s' s'' h h' := by
    unfold SameIncoming at *
    rw [h', h]

theorem write_sameIncoming (data : List Byte) : Prog.Steps SameIncoming (Outward.write data) := by
  have htransfer : ∀ length timeout, Prog.Steps SameIncoming (Outward.libusbBulkTransfer data length timeout) :=
    fun _ _ _ => rfl
  have hturn : ∀ length deadline u, Prog.Steps SameIncoming (Outward.bulkTransferTurn data length deadline u) := by
    intro length deadline u
    refine Prog.Steps.bind Prog.Steps.get fun s => Prog.Steps.bind (htransfer _ _) fun o => ?_
    refine Prog.Steps.bind Prog.Steps.get fun t => Prog.Steps.ite (Prog.Steps.pure _) ?_
    exact Prog.Steps.ite (Prog.Steps.pure _) (Prog.Steps.pure _)
  have hbulk : ∀ length, Prog.Steps SameIncoming (Outward.bulkTransfer data length) := by
    intro length
    exact Prog.Steps.bind Prog.Steps.get fun s => Prog.Steps.loop _ (hturn _ _) ()
  have hfail : ∀ what code, Prog.Steps SameIncoming (Outward.failWith (α := Unit) what code) := by
    intro what code
    exact Prog.Steps.bind Prog.Steps.get fun s => Prog.Steps.fail _
  unfold Outward.write
  refine Prog.Steps.ite (Prog.Steps.pure _) (Prog.Steps.bind (hbulk _) fun o => ?_)
  refine Prog.Steps.ite (Prog.Steps.ite (Prog.Steps.fail _) (hfail _ _)) ?_
  exact Prog.Steps.ite (Prog.Steps.fail _) (Prog.Steps.pure _)

theorem write_impl (data : List Byte) (s : Outward) :
    ((Outward.write data).run s).2.impl = { s.impl with now := ((Outward.write data).run s).2.impl.now } :=
  write_sameIncoming data s

/-- The link accounts for all that the accepted transfers have moved. -/
def Accounted (s : Link) : Prop := Impl.Accounted s.handedOut s.out.impl

/-- A read that succeeds was not refused a transfer. -/
theorem read_ok_accounted {size : ℕ} {s s' : Link} {bytes : List Byte} (h : (read size).run s = (.ok bytes, s'))
    (haccounted : s.Accounted) : s'.Accounted := by
  obtain ⟨impl, hread, rfl⟩ := read_ok h
  have hclean : s.out.impl.Clean (.read size) := by
    rintro ⟨hused, o, t, hrun, hnot⟩
    rw [Impl.read, Prog.run_bind_get, if_pos hused, Prog.run_bind_modify, Prog.run_bind_ok hrun, if_pos hnot] at hread
    cases hread
  have hperform := Impl.read_accounted haccounted size hclean
  rwa [Impl.perform, hread] at hperform

theorem write_accounted {s : Link} (data : List Byte) (h : s.Accounted) :
    ((write data).run s).2.Accounted := by
  show Impl.Accounted s.handedOut ((Outward.write data).run s.out).2.impl
  rw [write_impl]
  exact ⟨h.bytes, h.offset, h.size⟩

/-- The bytes that have gone over the link between two states. While no read fails it goes on to account
for what the transfers move. -/
structure Moves (s : Link) (taken delivered : List Byte) (s' : Link) : Prop where
  taken : s'.handedOut = s.handedOut ++ taken
  delivered : s'.out.delivered = s.out.delivered ++ delivered
  failed : s.failedReads ≤ s'.failedReads
  accounted : s'.failedReads = s.failedReads → s.Accounted → s'.Accounted

theorem Moves.trans {s s' s'' : Link} {a b c d : List Byte} (h : s.Moves a b s') (h' : s'.Moves c d s'') :
    s.Moves (a ++ c) (b ++ d) s'' where
  taken := by rw [h'.taken, h.taken, List.append_assoc]
  delivered := by rw [h'.delivered, h.delivered, List.append_assoc]
  failed := h.failed.trans h'.failed
  accounted hsame haccounted := by
    have hfirst := h.failed
    have hsecond := h'.failed
    exact h'.accounted (by omega) (h.accounted (by omega) haccounted)

/-- A write moves what it makes the device receive. -/
theorem write_moved {data sent : List Byte} {s : Link} {r : Except Error Unit} {s' : Link}
    (h : (write data).run s = (r, s'))
    (hdelivered : ((Outward.write data).run s.out).2.delivered = s.out.delivered ++ sent) : s.Moves [] sent s' := by
  have haccounted := fun hacc => write_accounted (s := s) data hacc
  rw [h] at haccounted
  rw [write, Prog.run_zoom, Prod.mk.injEq] at h
  obtain ⟨-, rfl⟩ := h
  exact ⟨(List.append_nil _).symm, hdelivered, Nat.le_refl _, fun _ => haccounted⟩

instance : Wire Link where
  read := read
  write := write
  close := close
  remaining s := s.out.impl.remaining
  read_length h := by
    obtain ⟨impl, hread, -⟩ := read_ok h
    exact (Impl.read_remaining hread).1
  read_remaining h := by
    obtain ⟨impl, hread, rfl⟩ := read_ok h
    exact (Impl.read_remaining hread).2
  write_remaining data s := Nat.le_of_eq ((congrArg Impl.remaining (write_impl data s.out)).trans rfl)
  Moves := Moves
  moves_refl s := ⟨(List.append_nil _).symm, (List.append_nil _).symm, Nat.le_refl _, fun _ h => h⟩
  moves_trans := Moves.trans
  read_moves h := by
    have haccounted := read_ok_accounted h
    obtain ⟨impl, hread, rfl⟩ := read_ok h
    exact ⟨rfl, (List.append_nil _).symm, Nat.le_refl _, fun _ => haccounted⟩
  read_fails h := by
    obtain ⟨hhanded, hdelivered, hfailed⟩ := read_error h
    refine ⟨by rw [hhanded, List.append_nil], by rw [hdelivered, List.append_nil], by omega, fun hsame => ?_⟩
    omega
  write_moves {data s s'} h := by
    obtain ⟨n, hdelivered, hall⟩ := Outward.write_delivered data s.out
    obtain ⟨out, hwrite, -⟩ := Prog.zoom_eq_ok h
    rw [hall (by rw [hwrite])] at hdelivered
    exact write_moved h hdelivered
  write_fails {data s e s'} h := by
    obtain ⟨n, hdelivered, -⟩ := Outward.write_delivered data s.out
    exact ⟨n, write_moved h hdelivered⟩
  close_moves s := ⟨(List.append_nil _).symm, (List.append_nil _).symm, Nat.le_refl _, fun _ h => h⟩

end Link

end Adbcpp.Usb
