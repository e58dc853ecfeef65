import Adbcpp.Session.Wire
import Adbcpp.Tcp.Writing

/-! The TCP transport as a whole. A read waits for the first bytes of the socket, whatever
their number, and tries again after silence until its budget is spent; its writes are
those of `Impl.write`. The socket is a script of what the coming receives find. What is
handed out is what the peer has sent, in order and without a gap, and no read waits for
longer than its budget and one more time-out of the socket. -/

namespace Adbcpp.Tcp

/-- What one `recv` finds: bytes, of which none are the end of the stream, or a failure with its text;
and by how much the steady clock has advanced. -/
inductive Receipt
  | bytes (piece : List Byte) (elapsed : ℕ)
  | failed (timedOut : Bool) (lastSocketError : String) (elapsed : ℕ)
  deriving DecidableEq, Repr

namespace Receipt

def elapsed : Receipt → ℕ
  | .bytes _ t => t
  | .failed _ _ t => t

def piece : Receipt → List Byte
  | .bytes piece _ => piece
  | .failed .. => []

/-- A time-out in which nothing came. -/
def silent : Receipt → Bool
  | .failed timedOut _ _ => timedOut
  | .bytes .. => false

end Receipt

/-- The transport: its socket and its receives, besides what its writes need. -/
structure TcpTransport where
  impl : Impl
  /-- The socket is there until it is closed. -/
  isOpen : Bool := true
  /-- What the coming receives find; after the last one the connection is broken. -/
  receipts : List Receipt

namespace TcpTransport

/-- What there is for a buffer of `size` bytes. A piece that does not fit is received in parts. -/
def takeReceipt (size : ℕ) : List Receipt → Receipt × List Receipt
  | [] => (.failed false "" 0, [])
  | .failed timedOut text t :: rest => (.failed timedOut text t, rest)
  | .bytes piece t :: rest =>
    (.bytes (piece.take size) t, if size < piece.length then .bytes (piece.drop size) 0 :: rest else rest)

/-- One `::recv`, which fails on a socket that has been closed and with a length below zero. -/
def recv (size : ℕ) : Action TcpTransport Receipt := fun s =>
  if !s.isOpen then (.ok (.failed false "Bad file descriptor" 0), s)
  else if Narrowing.asInt size < 0 then (.ok (.failed false "Bad address" 0), s)
  else
    let (r, rest) := takeReceipt (Narrowing.asInt size).toNat s.receipts
    (.ok r, { s with receipts := rest, impl := { s.impl with now := s.impl.now + r.elapsed } })

/-- One turn of a read: what came is handed out, and silence is tried again until the deadline. -/
def readTurn (size deadline : ℕ) (_ : Unit) : Action TcpTransport (Turn Unit (List Byte)) := do
  match ← recv size with
  | .bytes piece _ => pure (.done piece)
  | .failed timedOut text _ => do
    let s ← Prog.get
    if !timedOut ∨ s.impl.now ≥ deadline then
      Prog.fail (.of .transport ("recv: " ++ text))
    else
      pure (.again ())

/-- All bytes of some receipts. -/
def content (receipts : List Receipt) : List Byte := receipts.flatMap Receipt.piece

@[simp] theorem content_nil : content [] = [] := rfl

@[simp] theorem content_cons (r : Receipt) (rest : List Receipt) : content (r :: rest) = r.piece ++ content rest := rfl

/-- What one receive does. -/
structure Received (size : ℕ) (s : TcpTransport) (r : Receipt) (s' : TcpTransport) : Prop where
  content : content s.receipts = r.piece ++ content s'.receipts
  length : r.piece.length ≤ size
  delivered : s'.impl.delivered = s.impl.delivered
  now : s'.impl.now = s.impl.now + r.elapsed
  silent : r.silent = true → s'.receipts.length < s.receipts.length
  /-- A time limit of the socket holds for what is ahead as well. -/
  limit : ∀ limit, (∀ q ∈ s.receipts, q.elapsed ≤ limit) → r.elapsed ≤ limit ∧ ∀ q ∈ s'.receipts, q.elapsed ≤ limit

/-- The narrowed length is never more than the length. -/
theorem toNat_asInt_le (size : ℕ) : (Narrowing.asInt size).toNat ≤ size := by
  have hle : Narrowing.asInt size ≤ size := by
    unfold Narrowing.asInt
    rw [Int.bmod_def]
    split_ifs <;> omega
  omega

theorem takeReceipt_received (size : ℕ) (receipts : List Receipt) :
    content receipts = (takeReceipt size receipts).1.piece ++ content (takeReceipt size receipts).2 ∧
    (takeReceipt size receipts).1.piece.length ≤ size ∧
    ((takeReceipt size receipts).1.silent = true → (takeReceipt size receipts).2.length < receipts.length) ∧
    ∀ limit, (∀ q ∈ receipts, q.elapsed ≤ limit) → (takeReceipt size receipts).1.elapsed ≤ limit ∧
      ∀ q ∈ (takeReceipt size receipts).2, q.elapsed ≤ limit := by
  match receipts with
  | [] => exact ⟨rfl, Nat.zero_le _, fun h => (nomatch h), fun _ h => ⟨Nat.zero_le _, h⟩⟩
  | .failed timedOut text t :: rest =>
    exact ⟨rfl, Nat.zero_le _, fun _ => Nat.lt_succ_self _, fun limit h =>
      ⟨h _ List.mem_cons_self, fun q hq => h q (List.mem_cons_of_mem _ hq)⟩⟩
  | .bytes piece t :: rest =>
    refine ⟨?_, by simp [takeReceipt, Receipt.piece], fun h => (nomatch h), fun limit h => ⟨?_, ?_⟩⟩
    · simp only [takeReceipt, content_cons, Receipt.piece]
      split
      · rw [content_cons, Receipt.piece, ← List.append_assoc, List.take_append_drop]
      · rw [List.take_of_length_le (by omega)]
    · exact h (.bytes piece t) List.mem_cons_self
    · intro q hq
      simp only [takeReceipt] at hq
      split at hq
      · rcases List.mem_cons.mp hq with rfl | hq
        · exact Nat.zero_le _
        · exact h q (List.mem_cons_of_mem _ hq)
      · exact h q (List.mem_cons_of_mem _ hq)

/-- A receive that fails without having reached the socket. -/
theorem received_nothing (size : ℕ) (s : TcpTransport) (text : String) : Received size s (.failed false text 0) s where
  content := rfl
  length := Nat.zero_le _
  delivered := rfl
  now := rfl
  silent h := nomatch h
  limit _ h := ⟨Nat.zero_le _, h⟩

theorem recv_received (size : ℕ) (s : TcpTransport) :
    ∃ r s', (recv size).run s = (.ok r, s') ∧ Received size s r s' := by
  by_cases hopen : !s.isOpen
  · refine ⟨.failed false "Bad file descriptor" 0, s, ?_, received_nothing size s _⟩
    simp only [recv, Prog.run, if_pos hopen]
  by_cases hneg : Narrowing.asInt size < 0
  · refine ⟨.failed false "Bad address" 0, s, ?_, received_nothing size s _⟩
    simp only [recv, Prog.run, if_neg hopen, if_pos hneg]
  obtain ⟨hcontent, hlength, hsilent, hlimit⟩ := takeReceipt_received (Narrowing.asInt size).toNat s.receipts
  let taken := takeReceipt (Narrowing.asInt size).toNat s.receipts
  let s' : TcpTransport := { s with
    receipts := taken.2
    impl := { s.impl with now := s.impl.now + taken.1.elapsed } }
  refine ⟨taken.1, s', ?_, hcontent, hlength.trans (toNat_asInt_le size), rfl, rfl, hsilent, hlimit⟩
  simp only [recv, Prog.run, if_neg hopen, if_neg hneg]
  rfl

/-- What one turn of a read does: one receive, whose bytes are handed out, or after silence another turn. -/
theorem readTurn_cases (size deadline : ℕ) (s : TcpTransport) : ∃ r s', Received size s r s' ∧
    ((readTurn size deadline ()).run s = (.ok (.done r.piece), s') ∨
      (r.piece = [] ∧ r.silent = true ∧ s'.impl.now < deadline ∧
        (readTurn size deadline ()).run s = (.ok (.again ()), s')) ∨
      (r.piece = [] ∧ (r.silent = true → deadline ≤ s'.impl.now) ∧
        ∃ e, (readTurn size deadline ()).run s = (.error e, s'))) := by
  obtain ⟨r, s', hrun, hreceived⟩ := recv_received size s
  refine ⟨r, s', hreceived, ?_⟩
  rw [readTurn, Prog.run_bind_ok hrun]
  cases r with
  | bytes piece t => exact .inl rfl
  | failed timedOut text t =>
    dsimp only
    rw [Prog.run_bind_get]
    split
    next hend =>
      refine .inr (.inr ⟨rfl, fun hsilent => ?_, _, rfl⟩)
      have hsilent' : timedOut = true := hsilent
      simpa [hsilent'] using hend
    next hgo =>
      simp only [Bool.not_eq_true', not_or, Bool.not_eq_false, ge_iff_le, not_le] at hgo
      exact .inr (.inl ⟨rfl, hgo.1, hgo.2, rfl⟩)

theorem readTurn_decreases (size deadline : ℕ) :
    Prog.Decreases (fun (_ : Unit) (s : TcpTransport) => s.receipts.length) (readTurn size deadline) := by
  intro _ _ s t h
  obtain ⟨r, s', hreceived, hrun | ⟨-, hsilent, -, hrun⟩ | ⟨-, -, e, hrun⟩⟩ := readTurn_cases size deadline s
  all_goals
    rw [hrun] at h
    cases h
  exact hreceived.silent hsilent

def read (size : ℕ) : Action TcpTransport (List Byte) :=
  if size = 0 then pure []
  else do
    let s ← Prog.get
    Prog.loop (readTurn_decreases size (s.impl.now + s.impl.transferBudgetMs)) ()

/-- Writes all of the data, on a socket that is there. -/
def write (data : List Byte) : Action TcpTransport Unit := do
  let s ← Prog.get
  if !s.isOpen ∧ data ≠ [] then
    Prog.fail (.of .transport "send: Bad file descriptor")
  else
    Prog.zoom TcpTransport.impl (fun s impl => { s with impl }) (Impl.write data)

def close (s : TcpTransport) : TcpTransport := { s with isOpen := false }

/-! ### What goes over the socket -/

/-- What the rest of a read does. -/
structure Reads (size : ℕ) (s : TcpTransport) (r : Except Error (List Byte) × TcpTransport) : Prop where
  ok : ∀ bytes, r.1 = .ok bytes → content s.receipts = bytes ++ content r.2.receipts ∧ bytes.length ≤ size
  error : ∀ e, r.1 = .error e → content s.receipts = content r.2.receipts
  delivered : r.2.impl.delivered = s.impl.delivered

theorem readLoop_reads (size deadline : ℕ) (s : TcpTransport) :
    Reads size s ((Prog.loop (readTurn_decreases size deadline) ()).run s) := by
  refine Prog.loop_induct (readTurn_decreases size deadline) (P := fun _ s r => Reads size s r)
    ?_ ?_ ?_ () s
  · intro _ _ s t r hturn ih
    obtain ⟨q, s', hreceived, hrun | ⟨hnone, -, -, hrun⟩ | ⟨-, -, e, hrun⟩⟩ := readTurn_cases size deadline s
    all_goals
      rw [hrun] at hturn
      cases hturn
    have hcontent := hreceived.content
    rw [hnone, List.nil_append] at hcontent
    refine ⟨fun bytes h => ?_, fun e h => ?_, ih.delivered.trans hreceived.delivered⟩
    · rw [hcontent]
      exact ih.ok bytes h
    · rw [hcontent]
      exact ih.error e h
  · intro _ bytes s t hturn
    obtain ⟨q, s', hreceived, hrun | ⟨-, -, -, hrun⟩ | ⟨-, -, e, hrun⟩⟩ := readTurn_cases size deadline s
    all_goals
      rw [hrun] at hturn
      cases hturn
    refine ⟨fun bytes h => ?_, fun e h => (nomatch h), hreceived.delivered⟩
    cases h
    exact ⟨hreceived.content, hreceived.length⟩
  · intro _ e s t hturn
    obtain ⟨q, s', hreceived, hrun | ⟨-, -, -, hrun⟩ | ⟨hnone, -, e, hrun⟩⟩ := readTurn_cases size deadline s
    all_goals
      rw [hrun] at hturn
      cases hturn
    refine ⟨fun bytes h => (nomatch h), fun e h => ?_, hreceived.delivered⟩
    rw [hreceived.content, hnone, List.nil_append]

theorem read_reads (size : ℕ) (s : TcpTransport) : Reads size s ((read size).run s) := by
  unfold read
  split
  · refine ⟨fun _ h => ?_, fun _ h => (by cases h), rfl⟩
    cases h
    exact ⟨rfl, Nat.zero_le _⟩
  · exact readLoop_reads size _ s

/-- A write delivers its data up to where it fails, which succeeds behind all of them only. -/
theorem writeLoop_delivered (data : List Byte) (deadline total : ℕ) (s : Impl) : ∃ n,
    ((Prog.loop (Impl.writeTurn_decreases data deadline) total).run s).2.delivered =
      s.delivered ++ (data.drop total).take n ∧
    (((Prog.loop (Impl.writeTurn_decreases data deadline) total).run s).1 = .ok () → data.length ≤ total + n) := by
  refine Prog.loop_induct (Impl.writeTurn_decreases data deadline) (P := fun total s r => ∃ n,
    r.2.delivered = s.delivered ++ (data.drop total).take n ∧ (r.1 = .ok () → data.length ≤ total + n))
    ?_ ?_ ?_ total s
  · intro total total' s t r hturn ih
    obtain ⟨-, -, o, hsends, rfl⟩ := Impl.writeTurn_again hturn
    obtain ⟨n, hdelivered, hall⟩ := ih
    refine ⟨o.sent.toNat + n, ?_, fun h => by have := hall h; omega⟩
    rw [hdelivered, hsends.delivered, List.append_assoc, List.take_add, List.drop_drop]
  · intro total a s t hturn
    obtain ⟨hge, rfl⟩ := Impl.writeTurn_done hturn
    exact ⟨0, by simp, fun _ => hge⟩
  · intro total e s t hturn
    obtain ⟨-, o, hsends, -⟩ := Impl.writeTurn_error hturn
    exact ⟨o.sent.toNat, hsends.delivered, fun h => (nomatch h)⟩

theorem write_delivered (data : List Byte) (s : TcpTransport) : ∃ n,
    content ((write data).run s).2.receipts = content s.receipts ∧
    ((write data).run s).2.impl.delivered = s.impl.delivered ++ data.take n ∧
    (((write data).run s).1 = .ok () → data.length ≤ n) := by
  rw [write, Prog.run_bind_get]
  split
  · exact ⟨0, rfl, by simp [Prog.run_fail], fun h => (nomatch h)⟩
  · obtain ⟨n, hdelivered, hall⟩ := writeLoop_delivered data (s.impl.now + s.impl.transferBudgetMs) 0 s.impl
    rw [List.drop_zero] at hdelivered
    refine ⟨n, rfl, hdelivered, fun h => ?_⟩
    have hle := hall h
    omega

theorem write_receipts (data : List Byte) (s : TcpTransport) : ((write data).run s).2.receipts = s.receipts := by
  rw [write, Prog.run_bind_get]
  split <;> rfl

instance : Wire TcpTransport where
  read := read
  write := write
  close := close
  remaining s := (content s.receipts).length
  read_length {size s bytes s'} h := by
    have hreads := read_reads size s
    rw [h] at hreads
    exact (hreads.ok bytes rfl).2
  read_remaining {size s bytes s'} h := by
    have hreads := read_reads size s
    rw [h] at hreads
    have hlength := congrArg List.length (hreads.ok bytes rfl).1
    rw [List.length_append] at hlength
    exact Nat.le_of_eq (by rw [hlength, Nat.add_comm])
  write_remaining data s := Nat.le_of_eq (by rw [write_receipts])
  Moves s a b s' := content s.receipts = a ++ content s'.receipts ∧ s'.impl.delivered = s.impl.delivered ++ b
  moves_refl s := ⟨rfl, (List.append_nil _).symm⟩
  moves_trans h h' := ⟨by rw [h.1, h'.1, List.append_assoc], by rw [h'.2, h.2, List.append_assoc]⟩
  read_moves {size s bytes s'} h := by
    have hreads := read_reads size s
    rw [h] at hreads
    exact ⟨(hreads.ok bytes rfl).1, by rw [hreads.delivered, List.append_nil]⟩
  read_fails {size s e s'} h := by
    have hreads := read_reads size s
    rw [h] at hreads
    exact ⟨hreads.error e rfl, by rw [hreads.delivered, List.append_nil]⟩
  write_moves {data s s'} h := by
    obtain ⟨n, hcontent, hdelivered, hall⟩ := write_delivered data s
    rw [h] at hcontent hdelivered hall
    rw [List.take_of_length_le (hall rfl)] at hdelivered
    exact ⟨hcontent.symm, hdelivered⟩
  write_fails {data s e s'} h := by
    obtain ⟨n, hcontent, hdelivered, -⟩ := write_delivered data s
    rw [h] at hcontent hdelivered
    exact ⟨n, hcontent.symm, hdelivered⟩
  close_moves s := ⟨rfl, (List.append_nil _).symm⟩

/-! ### How long a read waits -/

/-- The rest of a read ends with its last receive, before which the deadline has not come. -/
theorem readLoop_now {size deadline limit : ℕ} (s : TcpTransport) :
    (∀ q ∈ s.receipts, q.elapsed ≤ limit) → s.impl.now ≤ deadline →
      ((Prog.loop (readTurn_decreases size deadline) ()).run s).2.impl.now ≤ deadline + limit := by
  refine Prog.loop_induct (readTurn_decreases size deadline) (P := fun _ s r =>
    (∀ q ∈ s.receipts, q.elapsed ≤ limit) → s.impl.now ≤ deadline → r.2.impl.now ≤ deadline + limit) ?_ ?_ ?_ () s
  · intro _ _ s t r hturn ih hlimit hnow
    obtain ⟨q, s', hreceived, hrun | ⟨-, -, hbefore, hrun⟩ | ⟨-, -, e, hrun⟩⟩ := readTurn_cases size deadline s
    all_goals
      rw [hrun] at hturn
      cases hturn
    exact ih (hreceived.limit limit hlimit).2 (Nat.le_of_lt hbefore)
  · intro _ bytes s t hturn hlimit hnow
    obtain ⟨q, s', hreceived, hrun | ⟨-, -, -, hrun⟩ | ⟨-, -, e, hrun⟩⟩ := readTurn_cases size deadline s
    all_goals
      rw [hrun] at hturn
      cases hturn
    have helapsed := (hreceived.limit limit hlimit).1
    have hlater := hreceived.now
    dsimp only
    omega
  · intro _ e s t hturn hlimit hnow
    obtain ⟨q, s', hreceived, hrun | ⟨-, -, -, hrun⟩ | ⟨-, -, e, hrun⟩⟩ := readTurn_cases size deadline s
    all_goals
      rw [hrun] at hturn
      cases hturn
    have helapsed := (hreceived.limit limit hlimit).1
    have hlater := hreceived.now
    dsimp only
    omega

/-- Where the socket times out after `limit`, no read takes longer than its budget and `limit`. -/
theorem read_now {limit : ℕ} (size : ℕ) {s : TcpTransport} (h : ∀ q ∈ s.receipts, q.elapsed ≤ limit) :
    ((read size).run s).2.impl.now ≤ s.impl.now + s.impl.transferBudgetMs + limit := by
  unfold read
  split
  · show s.impl.now ≤ s.impl.now + s.impl.transferBudgetMs + limit
    omega
  · exact readLoop_now s h (Nat.le_add_right _ _)

/-- A peer that is silent once, and then sends three bytes. -/
def slowPeer : TcpTransport where
  impl := { outcomes := [] }
  receipts := [.failed true "Resource temporarily unavailable" 5000, .bytes [1, 2, 3] 10]

theorem read_now_slowPeer : ((read 2).run slowPeer).2.impl.now ≤ 0 + 120000 + 5000 :=
  read_now 2 (s := slowPeer) (by decide)

/-! ### What a read tolerates -/

/-- Some time-outs, within `time` altogether, and then a piece. -/
structure Patience (time : ℕ) (receipts : List Receipt) (piece : List Byte) : Prop where
  silences : ∃ silences elapsed rest, receipts = silences ++ .bytes piece elapsed :: rest ∧
    (∀ q ∈ silences, q.silent = true) ∧ (silences ≠ [] → (silences.map Receipt.elapsed).sum < time)

theorem Patience.bytes_iff {time elapsed : ℕ} {piece bytes : List Byte} {rest : List Receipt} :
    Patience time (.bytes piece elapsed :: rest) bytes ↔ bytes = piece := by
  constructor
  · rintro ⟨silences, t, rest', h, hsilent, -⟩
    cases silences with
    | nil =>
      cases h
      rfl
    | cons q silences =>
      obtain ⟨rfl, -⟩ := List.cons.inj h
      exact absurd (hsilent _ List.mem_cons_self) (by simp [Receipt.silent])
  · rintro rfl
    exact ⟨[], elapsed, rest, rfl, by simp, fun h => absurd rfl h⟩

/-- A failure that is no time-out is not tolerated, and a time-out is while there is time behind it. -/
theorem Patience.failed_iff {time elapsed : ℕ} {timedOut : Bool} {text : String} {bytes : List Byte}
    {rest : List Receipt} : Patience time (.failed timedOut text elapsed :: rest) bytes ↔
      timedOut = true ∧ elapsed < time ∧ Patience (time - elapsed) rest bytes := by
  constructor
  · rintro ⟨silences, t, rest', h, hsilent, htime⟩
    cases silences with
    | nil => cases h
    | cons q silences =>
      obtain ⟨rfl, hrest⟩ := List.cons.inj h
      have hsum := htime (List.cons_ne_nil _ _)
      simp only [List.map_cons, List.sum_cons, Receipt.elapsed] at hsum
      refine ⟨hsilent _ List.mem_cons_self, by omega, silences, t, rest', hrest, ?_, fun _ => by omega⟩
      exact fun q hq => hsilent q (List.mem_cons_of_mem _ hq)
  · rintro ⟨rfl, hlt, silences, t, rest', rfl, hsilent, htime⟩
    refine ⟨.failed true text elapsed :: silences, t, rest', rfl, ?_, fun _ => ?_⟩
    · simpa [Receipt.silent] using hsilent
    · simp only [List.map_cons, List.sum_cons, Receipt.elapsed]
      rcases silences with _ | ⟨q, silences⟩
      · simpa using hlt
      · have hsum := htime (List.cons_ne_nil _ _)
        omega

theorem not_patience_nil {time : ℕ} {bytes : List Byte} : ¬ Patience time [] bytes := by
  rintro ⟨silences, t, rest, h, -⟩
  simp at h

/-- A receive on an open socket, with a length that is one. -/
theorem run_recv {size : ℕ} (hpos : 0 < size) (hsize : size < 2 ^ 31) {s : TcpTransport} (hopen : s.isOpen = true) :
    (recv size).run s = (.ok (takeReceipt size s.receipts).1, { s with
      receipts := (takeReceipt size s.receipts).2
      impl := { s.impl with now := s.impl.now + (takeReceipt size s.receipts).1.elapsed } }) := by
  have hint := Narrowing.asInt_of_lt hsize
  simp only [recv, Prog.run, hopen, hint, Int.toNat_natCast]
  rw [if_neg (by simp), if_neg (by omega)]

theorem readLoop_ok_iff {size : ℕ} (hpos : 0 < size) (hsize : size < 2 ^ 31) (deadline : ℕ) (bytes : List Byte)
    {s : TcpTransport} (hopen : s.isOpen = true) :
    ((Prog.loop (readTurn_decreases size deadline) ()).run s).1 = .ok bytes ↔
      ∃ piece, Patience (deadline - s.impl.now) s.receipts piece ∧ bytes = piece.take size := by
  induction hreceipts : s.receipts generalizing s with
  | nil =>
    have hturn : (readTurn size deadline ()).run s = (.error (.of .transport "recv: "), { s with
        receipts := [], impl := { s.impl with now := s.impl.now + 0 } }) := by
      rw [readTurn, Prog.run_bind_ok (run_recv hpos hsize hopen), hreceipts]
      rfl
    rw [Prog.loop_error _ hturn]
    refine iff_of_false (fun h => by cases h) ?_
    rintro ⟨piece, h, -⟩
    exact not_patience_nil h
  | cons r rest ih =>
    have hrecv := run_recv hpos hsize hopen
    rw [hreceipts] at hrecv
    cases r with
    | bytes piece t =>
      have hturn : (readTurn size deadline ()).run s = (.ok (.done (piece.take size)), { s with
          receipts := if size < piece.length then .bytes (piece.drop size) 0 :: rest else rest
          impl := { s.impl with now := s.impl.now + t } }) := by
        rw [readTurn, Prog.run_bind_ok hrecv]
        rfl
      rw [Prog.loop_done _ hturn]
      simp only [Patience.bytes_iff, exists_eq_left, Except.ok.injEq]
      exact eq_comm
    | failed timedOut text t =>
      let s' : TcpTransport := { s with receipts := rest, impl := { s.impl with now := s.impl.now + t } }
      have hturn : (readTurn size deadline ()).run s = if !timedOut ∨ s'.impl.now ≥ deadline then
          (.error (.of .transport ("recv: " ++ text)), s') else (.ok (.again ()), s') := by
        rw [readTurn, Prog.run_bind_ok hrecv]
        exact Prog.run_ite _ _ _ s'
      simp only [Patience.failed_iff]
      by_cases hend : !timedOut ∨ s'.impl.now ≥ deadline
      · rw [if_pos hend] at hturn
        rw [Prog.loop_error _ hturn]
        refine iff_of_false (fun h => by cases h) ?_
        rintro ⟨piece, ⟨rfl, hlt, -⟩, -⟩
        have hlate : s.impl.now + t ≥ deadline := by simpa using hend
        omega
      · rw [if_neg hend] at hturn
        have hgo : timedOut = true ∧ s.impl.now + t < deadline := by simpa using hend
        have hlt : t < deadline - s.impl.now := by omega
        rw [Prog.loop_again _ hturn, ih (s := s') hopen rfl, hgo.1, Nat.sub_sub]
        simp only [hlt, true_and]
        rfl

/-- A read hands out bytes exactly where they come before the time-outs have used up its budget, and then
it hands out what comes first, as far as it fits. -/
theorem read_ok_iff {size : ℕ} (hpos : 0 < size) (hsize : size < 2 ^ 31) (bytes : List Byte) {s : TcpTransport}
    (hopen : s.isOpen = true) : ((read size).run s).1 = .ok bytes ↔
      ∃ piece, Patience s.impl.transferBudgetMs s.receipts piece ∧ bytes = piece.take size := by
  rw [read, if_neg (by omega), Prog.run_bind_get, readLoop_ok_iff hpos hsize _ _ hopen, Nat.add_sub_cancel_left]

theorem read_ok_iff_slowPeer : ((read 2).run slowPeer).1 = .ok [1, 2] ↔
    ∃ piece, Patience 120000 slowPeer.receipts piece ∧ [1, 2] = piece.take 2 :=
  read_ok_iff (by decide) (by decide) [1, 2] rfl

end TcpTransport

end Adbcpp.Tcp
