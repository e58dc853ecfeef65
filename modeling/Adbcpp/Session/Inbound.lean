import Adbcpp.Session

/-! What a session reads from a scripted transport. A read is smooth over `n`
bytes when no failed or empty read comes before they have all arrived; an exact
read that is smooth succeeds and takes exactly its bytes, in whatever pieces they
come. A peer that sends a list of frames keeps the session on frame boundaries as
long as every failed or empty read falls between two frames. -/

namespace Adbcpp

open Protocol

namespace ScriptedTransport

/-! ### Smooth arrivals -/

/-- A failed read, or one that ends without a byte. -/
def IsFault : Except Error (List Byte) → Prop
  | .ok piece => piece = []
  | .error _ => True

/-- The next `n` bytes arrive before any failed or empty read. -/
def Smooth : ℕ → List (Except Error (List Byte)) → Prop
  | 0, _ => True
  | _ + 1, [] => False
  | n + 1, .ok piece :: rest => piece ≠ [] ∧ Smooth (n + 1 - piece.length) rest
  | _ + 1, .error _ :: _ => False

@[simp] theorem smooth_zero (as : List (Except Error (List Byte))) : Smooth 0 as := by
  unfold Smooth
  trivial

theorem smooth_cons_ok {n : ℕ} {piece : List Byte} {rest : List (Except Error (List Byte))}
    (hp : piece ≠ []) (h : Smooth (n - piece.length) rest) : Smooth n (.ok piece :: rest) := by
  cases n with
  | zero => exact smooth_zero _
  | succ n => exact ⟨hp, h⟩

/-- Pieces without a fault among them arrive smoothly to their end. -/
theorem smooth_of_pieces {as : List (Except Error (List Byte))} (h : ∀ a ∈ as, ¬ IsFault a) :
    Smooth (content as).length as := by
  induction as with
  | nil => exact smooth_zero _
  | cons a rest ih =>
    have hrest := ih (fun a ha => h a (List.mem_cons_of_mem _ ha))
    cases a with
    | error e => exact absurd trivial (h _ List.mem_cons_self)
    | ok piece =>
      refine smooth_cons_ok (h (.ok piece) List.mem_cons_self) ?_
      rwa [content_ok, List.length_append, Nat.add_sub_cancel_left]

/-- The first read of a smooth arrival hands out bytes and keeps the rest smooth. -/
theorem takeArrival_smooth {n m : ℕ} {as : List (Except Error (List Byte))} (hn : 0 < n)
    (h : Smooth (n + m) as) :
    ∃ bytes, (takeArrival n as).1 = .ok bytes ∧ bytes.length ≠ 0 ∧
      Smooth (n - bytes.length + m) (takeArrival n as).2 := by
  obtain ⟨k, rfl⟩ : ∃ k, n = k + 1 := ⟨n - 1, by omega⟩
  rw [show k + 1 + m = (k + m) + 1 by omega] at h
  match as with
  | [] => exact absurd h id
  | .error e :: rest => exact absurd h id
  | .ok piece :: rest =>
    obtain ⟨hp, hrest⟩ := h
    have hpos := List.length_pos_iff.mpr hp
    refine ⟨piece.take (k + 1), rfl, ?_, ?_⟩
    · rw [List.length_take]
      omega
    · simp only [takeArrival, List.length_take]
      split
      next hlt =>
        refine smooth_cons_ok ?_ ?_
        · intro hnil
          rw [List.drop_eq_nil_iff] at hnil
          omega
        · rw [List.length_drop]
          convert hrest using 1
          omega
      next hge =>
        convert hrest using 1
        omega

/-! ### Exact reads -/

/-- What an operation on the transport leaves alone when it only reads. -/
def SameWrites (t t' : ScriptedTransport) : Prop :=
  t'.outcomes = t.outcomes ∧ t'.delivered = t.delivered

private theorem readExactLoop_smooth {size m : ℕ} {out bs rest : List Byte} {t : ScriptedTransport}
    (hs : Smooth (bs.length + m) t.arrivals) (hc : content t.arrivals = bs ++ rest)
    (hout : out.length + bs.length = size) :
    ∃ t', (Prog.loop (readExactTurn_decreases size) out).run t = (.ok (out ++ bs), t') ∧
      content t'.arrivals = rest ∧ Smooth m t'.arrivals ∧ SameWrites t t' := by
  induction hk : bs.length using Nat.strongRecOn generalizing out bs t with
  | ind k ih =>
    by_cases hlt : out.length < size
    · obtain ⟨bytes, hb, hne, hrest⟩ := takeArrival_smooth (by omega) hs
      obtain ⟨hcb, hle⟩ := takeArrival_ok hb
      -- the piece is a prefix of the bytes still wanted
      obtain ⟨bs, rfl⟩ : bytes <+: bs :=
        List.prefix_of_prefix_length_le ⟨_, (hc.symm.trans hcb).symm⟩ ⟨_, rfl⟩ hle
      rw [hcb, List.append_assoc, List.append_cancel_left_eq] at hc
      rw [List.length_append] at hk hout hrest hb hc
      set t₁ : ScriptedTransport := { t with
        arrivals := (takeArrival (bytes.length + bs.length) t.arrivals).2
        calls := t.calls ++ [.read (bytes.length + bs.length)] } with ht₁
      have hread : (Transport.read (size - out.length) : Action ScriptedTransport _).run t =
          (.ok bytes, t₁) := by
        rw [show size - out.length = bytes.length + bs.length by omega, run_read, hb]
      have hturn : (readExactTurn size out).run t = (.ok (.again (out ++ bytes)), t₁) := by
        rw [readExactTurn, if_pos hlt, Prog.run_bind_ok hread, if_neg hne]
        rfl
      rw [Nat.add_sub_cancel_left] at hrest
      have hout₁ : (out ++ bytes).length + bs.length = size := by
        rw [List.length_append]
        omega
      obtain ⟨t', hrun, hcon, hsm, hsame⟩ := ih bs.length (by omega) (t := t₁) hrest hc hout₁ rfl
      refine ⟨t', ?_, hcon, hsm, hsame⟩
      rw [Prog.loop_again _ hturn, hrun, List.append_assoc]
    · have hnil : bs = [] := List.eq_nil_of_length_eq_zero (by omega)
      subst hnil
      refine ⟨t, ?_, by simpa using hc, by simpa using hs, rfl, rfl⟩
      rw [List.append_nil]
      apply Prog.loop_done
      rw [readExactTurn, if_neg hlt]
      rfl

/-- An exact read over which the arrivals are smooth takes the next bytes of the content. -/
theorem readExact_smooth {bs rest : List Byte} {m : ℕ} {t : ScriptedTransport}
    (hs : Smooth (bs.length + m) t.arrivals) (hc : content t.arrivals = bs ++ rest) :
    ∃ t', (readExact bs.length).run t = (.ok bs, t') ∧ content t'.arrivals = rest ∧
      Smooth m t'.arrivals ∧ SameWrites t t' :=
  readExactLoop_smooth hs hc (by rw [List.length_nil, Nat.zero_add])

end ScriptedTransport

/-! ### Receiving a frame -/

namespace Frame

/-- What `Session::receive` checks of a frame. -/
structure Valid (f : Frame) : Prop where
  magic : f.header.magic = Message.computeMagic f.header.command
  length : f.header.dataLength ≤ kMaxData
  check : f.payload = [] ∨ f.header.dataCheck = 0 ∨
    f.header.dataCheck = Message.computeChecksum f.payload

instance (f : Frame) : Decidable f.Valid :=
  decidable_of_iff (f.header.magic = Message.computeMagic f.header.command ∧
      f.header.dataLength ≤ kMaxData ∧ (f.payload = [] ∨ f.header.dataCheck = 0 ∨
        f.header.dataCheck = Message.computeChecksum f.payload))
    ⟨fun h => ⟨h.1, h.2.1, h.2.2⟩, fun h => ⟨h.magic, h.length, h.check⟩⟩

end Frame

namespace Session

open ScriptedTransport

theorem receivePayload_smooth {f : Frame} (hf : f.Sized) {s : Session ScriptedTransport}
    {rest : List Byte} {m : ℕ} (hs : Smooth (f.payload.length + m) s.transport.arrivals)
    (hc : content s.transport.arrivals = f.payload ++ rest) :
    ∃ t, content t.arrivals = rest ∧ Smooth m t.arrivals ∧ SameWrites s.transport t ∧
      (receivePayload f.header).run s =
        if f.payload ≠ [] ∧ f.header.dataCheck ≠ 0 ∧
            f.header.dataCheck ≠ Message.computeChecksum f.payload then
          (.error (.of .protocol "the header payload checksum does not match the payload"),
            Session.close { s with transport := t })
        else (.ok f, { s with transport := t }) := by
  obtain ⟨header, payload⟩ := f
  simp only [Frame.Sized] at hf hs hc ⊢
  by_cases hp : payload = []
  · subst hp
    refine ⟨s.transport, by simpa using hc, by simpa using hs, ⟨rfl, rfl⟩, ?_⟩
    rw [receivePayload, if_pos (by simpa using hf)]
    simp
  · obtain ⟨t, hrun, hcon, hsm, hsame⟩ := readExact_smooth hs hc
    have hread : (onTransport (readExact header.dataLength.toNat)).run s =
        (.ok payload, { s with transport := t }) := by
      rw [hf, run_onTransport, hrun]
    refine ⟨t, hcon, hsm, hsame, ?_⟩
    have hne : ¬ header.dataLength.toNat = 0 := by
      rw [hf, List.length_eq_zero_iff]
      exact hp
    rw [receivePayload, if_neg hne, Prog.run_bind_ok hread, Prog.run_ite, run_framingError]
    simp [hp]

/-- Once its header has been read, a receive goes by what that says. -/
theorem run_receive_header {s : Session ScriptedTransport} (hopen : s.closed = false) {header : Message}
    {t : ScriptedTransport}
    (hrun : (readExact header.encode.length).run s.transport = (.ok header.encode, t)) :
    receive.run s = (if header.magic ≠ Message.computeMagic header.command then
      framingError "the header magic does not match its command"
    else if header.dataLength > kMaxData then
      framingError "the header payload length is past the maximum"
    else receivePayload header).run { s with transport := t } := by
  have hread : (onTransport (readExact kMessageHeaderSize)).run s =
      (.ok header.encode, { s with transport := t }) := by
    rw [run_onTransport, ← Message.length_encode header, hrun]
  rw [receive, Prog.run_bind_get, if_neg (by simp [hopen]), Prog.run_bind_ok hread, Message.decode_encode]

/-- An open session over smooth arrivals receives the next frame of its peer, or closes
because that frame is not valid. -/
theorem receive_smooth {f : Frame} (hf : f.Sized) {s : Session ScriptedTransport}
    (hopen : s.closed = false) {rest : List Byte} {m : ℕ}
    (hs : Smooth (f.bytes.length + m) s.transport.arrivals)
    (hc : content s.transport.arrivals = f.bytes ++ rest) :
    (f.Valid ∧ ∃ t, receive.run s = (.ok f, { s with transport := t }) ∧ content t.arrivals = rest ∧
      Smooth m t.arrivals ∧ SameWrites s.transport t) ∨
    (¬ f.Valid ∧ ∃ e s', receive.run s = (.error e, s') ∧ s'.closed = true ∧
      e.code = .protocol) := by
  have hhdr : kMessageHeaderSize = f.header.encode.length := rfl
  rw [Frame.length_bytes, hhdr, Nat.add_assoc] at hs
  rw [Frame.bytes, Message.frameBytes, List.append_assoc] at hc
  obtain ⟨t, hrun, hcon, hsm, hsame⟩ := readExact_smooth hs hc
  rw [run_receive_header hopen hrun]
  by_cases hmagic : f.header.magic = Message.computeMagic f.header.command
  swap
  · right
    rw [if_pos hmagic, run_framingError]
    exact ⟨fun hv => hmagic hv.magic, _, _, rfl, close_closed _, rfl⟩
  by_cases hlen : f.header.dataLength > kMaxData
  · right
    rw [if_neg (not_not.mpr hmagic), if_pos hlen, run_framingError]
    exact ⟨fun hv => UInt32.not_lt.mpr hv.length hlen, _, _, rfl, close_closed _, rfl⟩
  rw [if_neg (not_not.mpr hmagic), if_neg hlen]
  obtain ⟨t', hcon', hsm', hsame', hpay⟩ := receivePayload_smooth hf
    (s := { s with transport := t }) hsm hcon
  rw [hpay]
  split
  next hbad =>
    right
    refine ⟨fun hv => ?_, _, _, rfl, close_closed _, rfl⟩
    rcases hv.check with h | h | h
    · exact hbad.1 h
    · exact hbad.2.1 h
    · exact hbad.2.2 h
  next hgood =>
    left
    refine ⟨⟨hmagic, UInt32.not_lt.mp hlen, ?_⟩, t', rfl, hcon', hsm', hsame'.1.trans hsame.1,
      hsame'.2.trans hsame.2⟩
    by_cases hp : f.payload = []
    · exact .inl hp
    · by_cases hz : f.header.dataCheck = 0
      · exact .inr (.inl hz)
      · exact .inr (.inr (not_not.mp fun h => hgood ⟨hp, hz, h⟩))

end Session

/-! ### Staying on frame boundaries -/

namespace ScriptedTransport

/-- Every failed or empty read happens at a position `P` allows, counting the bytes of the
peer's stream from `pos` on. -/
def FaultsAt (P : ℕ → Prop) : ℕ → List (Except Error (List Byte)) → Prop
  | _, [] => True
  | pos, .ok piece :: rest => (piece = [] → P pos) ∧ FaultsAt P (pos + piece.length) rest
  | pos, .error _ :: rest => P pos ∧ FaultsAt P pos rest

variable {P : ℕ → Prop}

/-- No fault can stop a read short of the next allowed position. -/
theorem smooth_of_faultsAt {pos n : ℕ} {as : List (Except Error (List Byte))}
    (h : FaultsAt P pos as) (hP : ∀ q, pos ≤ q → q < pos + n → ¬ P q)
    (hn : n ≤ (content as).length) : Smooth n as := by
  induction as generalizing pos n with
  | nil =>
    rw [content_nil, List.length_nil, Nat.le_zero] at hn
    subst hn
    exact smooth_zero _
  | cons a rest ih =>
    rcases Nat.eq_zero_or_pos n with rfl | hpos
    · exact smooth_zero _
    have hat : ¬ P pos := hP pos (Nat.le_refl _) (by omega)
    cases a with
    | error e => exact absurd h.1 hat
    | ok piece =>
      rw [content_ok, List.length_append] at hn
      refine smooth_cons_ok (fun hp => hat (h.1 hp)) (ih h.2 ?_ (by omega))
      intro q hq hlt
      exact hP q (by omega) (by omega)

/-- From `t` to `t'` some bytes have been read, and the faults ahead are where they were. -/
def Advances (P : ℕ → Prop) (t t' : ScriptedTransport) : Prop :=
  ∃ k, (content t.arrivals).length = k + (content t'.arrivals).length ∧
    ∀ pos, FaultsAt P pos t.arrivals → FaultsAt P (pos + k) t'.arrivals

theorem Advances.of_arrivals {t t' : ScriptedTransport} (h : t'.arrivals = t.arrivals) :
    Advances P t t' := ⟨0, by simp [h], fun pos hf => by simpa [h] using hf⟩

instance : Std.Refl (Advances P) := ⟨fun _ => .of_arrivals rfl⟩

instance : IsTrans ScriptedTransport (Advances P) where
  trans := by
    rintro t₁ t₂ t₃ ⟨k, hk, hf⟩ ⟨l, hl, hg⟩
    exact ⟨k + l, by omega, fun pos h => by rw [← Nat.add_assoc]; exact hg _ (hf pos h)⟩

theorem read_advances (size : ℕ) :
    Prog.Steps (Advances P) (Transport.read size : Action ScriptedTransport _) := by
  intro t
  rw [run_read]
  match ht : t.arrivals with
  | [] => exact ⟨0, by simp [ht, takeArrival], fun pos hf => trivial⟩
  | .error e :: rest =>
    exact ⟨0, by simp [ht, takeArrival], fun pos hf => by rw [ht] at hf; exact hf.2⟩
  | .ok piece :: rest =>
    refine ⟨min size piece.length, ?_, ?_⟩
    · simp only [ht, takeArrival, content_ok, List.length_append]
      split
      · rw [content_ok, List.length_append, List.length_drop]
        omega
      · omega
    · intro pos hf
      rw [ht] at hf
      simp only [takeArrival]
      split
      next hlt =>
        refine ⟨fun hd => ?_, ?_⟩
        · rw [List.drop_eq_nil_iff] at hd
          omega
        · rw [List.length_drop, show pos + min size piece.length + (piece.length - size) =
            pos + piece.length by omega]
          exact hf.2
      next hge =>
        rw [Nat.min_eq_right (by omega)]
        exact hf.2

end ScriptedTransport

namespace Session

open ScriptedTransport

variable {P : ℕ → Prop}

theorem receive_advances :
    Prog.Steps (Along (Advances P)) (receive : Action (Session ScriptedTransport) Frame) :=
  receive_along read_advances fun _ => .of_arrivals rfl

end Session

end Adbcpp
