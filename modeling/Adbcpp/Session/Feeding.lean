import Adbcpp.Session.Wire
import Adbcpp.Stream.Replaying
import Mathlib.Algebra.Ring.PUnit

/-! Sessions over transports that feed the same bytes. However a transport cuts what it hands
out, an exact read of it depends on the bytes alone, and so does a receive. Two sessions over
two such transports go on alike, and the same bytes go over both. -/

namespace Adbcpp

open Protocol Prog ScriptedTransport

/-- What a transport is going to hand out. A read hands out the next of the bytes, in a piece of any
size, and none at all only at their end; a write is taken. -/
structure Feeding (τ : Type) [Wire τ] where
  Feeds : τ → List Byte → Prop
  read : ∀ {size t bytes}, 0 < size → size ≤ kMaxData.toNat → Feeds t bytes → ∃ piece rest t',
    (Transport.read size).run t = (.ok piece, t') ∧ bytes = piece ++ rest ∧ (piece = [] → bytes = []) ∧ Feeds t' rest
  write : ∀ {t bytes} data, Feeds t bytes → ∃ t', (Transport.write data).run t = (.ok (), t') ∧ Feeds t' bytes

namespace Feeding

variable {τ : Type} [Wire τ] (F : Feeding τ)

/-- What an exact read makes of the bytes ahead. -/
def exactly (size : ℕ) (bytes : List Byte) : Except Error (List Byte) :=
  if size ≤ bytes.length then .ok (bytes.take size) else .error (.of .protocol "unexpected end of stream")

/-- The loop of an exact read from what it has already got. -/
theorem readExactLoop_feeds {size : ℕ} (hsize : size ≤ kMaxData.toNat) {out bytes : List Byte} {t : τ}
    (hout : out.length ≤ size) (h : F.Feeds t bytes) : ∃ t',
      (Prog.loop (readExactTurn_decreases size) out).run t = (exactly size (out ++ bytes), t') ∧
      F.Feeds t' (bytes.drop (size - out.length)) ∧ Wire.Moves t (bytes.take (size - out.length)) [] t' := by
  induction hn : size - out.length using Nat.strongRecOn generalizing out bytes t with
  | ind n ih =>
    rcases Nat.lt_or_ge out.length size with hlt | hge
    · obtain ⟨piece, rest, u, hread, rfl, hend, hrest⟩ :=
        F.read (show 0 < size - out.length by omega) (by omega) h
      have hmoves := Wire.read_moves hread
      have hlong := Transport.read_length hread
      by_cases hpiece : piece = []
      · -- the end of the stream comes before the last byte
        obtain rfl : rest = [] := by simpa [hpiece] using hend hpiece
        subst hpiece
        have hturn : (readExactTurn size out).run t = (.error (.of .protocol "unexpected end of stream"), u) := by
          rw [readExactTurn, if_pos hlt, Prog.run_bind_ok hread]
          rfl
        refine ⟨u, ?_, by simpa using hrest, by simpa using hmoves⟩
        rw [Prog.loop_error _ hturn, exactly, if_neg (by simpa using hlt)]
      · have hpos := List.length_pos_iff.mpr hpiece
        have hturn : (readExactTurn size out).run t = (.ok (.again (out ++ piece)), u) := by
          rw [readExactTurn, if_pos hlt, Prog.run_bind_ok hread, if_neg (by omega)]
          rfl
        have hleft : size - (out ++ piece).length = n - piece.length := by
          rw [List.length_append]
          omega
        have hshort : (out ++ piece).length ≤ size := by
          rw [List.length_append]
          omega
        obtain ⟨t', hrun, hfeeds, hmoves'⟩ := ih (n - piece.length) (by omega) hshort hrest hleft
        refine ⟨t', ?_, ?_, ?_⟩
        · rw [Prog.loop_again _ hturn, hrun, List.append_assoc]
        · rwa [List.drop_append, List.drop_eq_nil_of_le (by omega), List.nil_append]
        · rw [List.take_append, List.take_of_length_le (by omega)]
          exact Wire.moves_trans hmoves hmoves'
    · have hturn : (readExactTurn size out).run t = (.ok (.done out), t) := by
        rw [readExactTurn, if_neg (by omega)]
        rfl
      obtain rfl : n = 0 := by omega
      refine ⟨t, ?_, h, Wire.moves_refl t⟩
      rw [Prog.loop_done _ hturn, exactly, if_pos (by simp only [List.length_append]; omega),
        List.take_append_of_le_length hge, List.take_of_length_le hout]

/-- An exact read is told by the bytes ahead. -/
theorem readExact_feeds {size : ℕ} (hsize : size ≤ kMaxData.toNat) {bytes : List Byte} {t : τ} (h : F.Feeds t bytes) :
    ∃ t', (readExact size).run t = (exactly size bytes, t') ∧ F.Feeds t' (bytes.drop size) ∧
      Wire.Moves t (bytes.take size) [] t' :=
  F.readExactLoop_feeds hsize (Nat.zero_le _) h

/-- What a program on an open session does that is fed these bytes: it takes some of them and returns this. -/
def Does {α : Type} (bytes : List Byte) (p : Action (Session τ) α) (s : Session τ) (r : Except Error α) (n : ℕ)
    (closed : Bool) : Prop :=
  ∃ t, p.run s = (r, { transport := t, closed }) ∧ Wire.Moves s.transport (bytes.take n) [] t ∧
    (closed = false → F.Feeds t (bytes.drop n))

/-- What a program does is told by the bytes, whatever transport feeds them. -/
def Told {α : Type} (bytes : List Byte) (p : ∀ {τ : Type} [Wire τ], Action (Session τ) α) : Prop :=
  ∃ (r : Except Error α) (n : ℕ) (closed : Bool), ∀ {τ : Type} [Wire τ] (F : Feeding τ) (s : Session τ),
    s.closed = false → F.Feeds s.transport bytes → F.Does bytes p s r n closed

theorem told_pure {α : Type} (a : α) (bytes : List Byte) : Told bytes (pure a) := by
  refine ⟨.ok a, 0, false, fun F s hopen h => ⟨s.transport, ?_, Wire.moves_refl _, fun _ => h⟩⟩
  rw [← hopen]
  rfl

theorem told_framingError {α : Type} (message : String) (bytes : List Byte) :
    Told (α := α) bytes (Session.framingError message) := by
  refine ⟨.error (.of .protocol message), 0, true, fun F s hopen h => ⟨Transport.close s.transport, ?_, ?_, ?_⟩⟩
  · rw [Session.run_framingError, Session.close, if_neg (by simp [hopen])]
  · exact Wire.close_moves _
  · intro hclosed
    cases hclosed

theorem Told.ite {α : Type} {c : Prop} [Decidable c] {bytes : List Byte} {p q : ∀ {τ : Type} [Wire τ], Action (Session τ) α}
    (hp : Told bytes p) (hq : Told bytes q) : Told bytes (if c then p else q) := by
  split <;> assumption

/-- An exact read, and what is done with its bytes. -/
theorem told_readExact_bind {α : Type} {size : ℕ} (hsize : size ≤ kMaxData.toNat) {bytes : List Byte}
    {f : ∀ {τ : Type} [Wire τ], List Byte → Action (Session τ) α}
    (h : ∀ piece, Told (bytes.drop size) (f piece)) :
    Told bytes (do let piece ← Session.onTransport (readExact size); f piece) := by
  cases hread : exactly size bytes with
  | error e =>
    refine ⟨.error e, size, false, fun F s hopen hfeeds => ?_⟩
    obtain ⟨t, hrun, hrest, hmoves⟩ := F.readExact_feeds hsize hfeeds
    refine ⟨t, ?_, hmoves, fun _ => hrest⟩
    rw [Prog.run_bind_error (by rw [Session.run_onTransport, hrun, hread]), hopen]
  | ok piece =>
    obtain ⟨r, n, closed, hdoes⟩ := h piece
    refine ⟨r, size + n, closed, fun F s hopen hfeeds => ?_⟩
    obtain ⟨t, hrun, hrest, hmoves⟩ := F.readExact_feeds hsize hfeeds
    obtain ⟨u, hrun', hmoves', hrest'⟩ := hdoes F { s with transport := t } hopen hrest
    refine ⟨u, ?_, ?_, fun hclosed => ?_⟩
    · rw [Prog.run_bind_ok (by rw [Session.run_onTransport, hrun, hread]), hrun']
    · rw [List.take_add]
      exact Wire.moves_trans hmoves hmoves'
    · rw [← List.drop_drop]
      exact hrest' hclosed

theorem told_receivePayload {header : Message} (hlength : header.dataLength ≤ kMaxData) (bytes : List Byte) :
    Told bytes (Session.receivePayload header) := by
  unfold Session.receivePayload
  refine .ite (told_pure _ _) (told_readExact_bind (UInt32.le_iff_toNat_le.mp hlength) fun payload => ?_)
  exact .ite (told_framingError _ _) (told_pure _ _)

/-- A receive is told by the bytes ahead: what it returns, how many of them it takes, and whether it
closes the session. -/
theorem told_receive (bytes : List Byte) : Told bytes (do
    let head ← Session.onTransport (readExact kMessageHeaderSize)
    let header := Message.decode head
    if header.magic ≠ Message.computeMagic header.command then
      Session.framingError "the header magic does not match its command"
    else if header.dataLength > kMaxData then
      Session.framingError "the header payload length is past the maximum"
    else
      Session.receivePayload header) := by
  refine told_readExact_bind (by decide) fun head => .ite (told_framingError _ _) ?_
  by_cases hlength : (Message.decode head).dataLength > kMaxData
  · simp only [if_pos hlength]
    exact told_framingError _ _
  · simp only [if_neg hlength]
    exact told_receivePayload (UInt32.not_lt.mp hlength) _

/-- Both writes of a message are taken. -/
theorem writeMessage_feeds (header : Message) (payload : List Byte) {bytes : List Byte} {s : Session τ}
    (h : F.Feeds s.transport bytes) : ∃ t,
      (do Session.onTransport (Transport.write header.encode)
          if payload ≠ [] then Session.onTransport (Transport.write payload) : Action (Session τ) Unit).run s =
        (.ok (), { s with transport := t }) ∧
      Wire.Moves s.transport [] (header.frameBytes payload) t ∧ F.Feeds t bytes := by
  obtain ⟨t, hrun, hfeeds⟩ := F.write header.encode h
  have hwrite : (Session.onTransport (Transport.write header.encode)).run s = (.ok (), { s with transport := t }) := by
    rw [Session.run_onTransport, hrun]
  have hmoves := Wire.write_moves hrun
  rw [Prog.run_bind_ok hwrite, Message.frameBytes]
  by_cases hnil : payload = []
  · rw [if_neg (not_not.mpr hnil), hnil, List.append_nil]
    exact ⟨t, rfl, hmoves, hfeeds⟩
  · obtain ⟨u, hrun', hfeeds'⟩ := F.write payload hfeeds
    rw [if_pos hnil]
    refine ⟨u, ?_, Wire.moves_trans hmoves (Wire.write_moves hrun'), hfeeds'⟩
    rw [Session.run_onTransport, hrun']

end Feeding

/-! ### Scripts without failures -/

namespace ScriptedTransport

/-- Arrivals that are pieces, none of them empty. -/
def Pieces (arrivals : List (Except Error (List Byte))) : Prop := ∀ a ∈ arrivals, ∃ piece, a = .ok piece ∧ piece ≠ []

theorem takeArrival_pieces {size : ℕ} (hpos : 0 < size) {as : List (Except Error (List Byte))} (h : Pieces as) :
    ∃ piece rest, takeArrival size as = (.ok piece, rest) ∧ content as = piece ++ content rest ∧
      (piece = [] → content as = []) ∧ Pieces rest := by
  match as with
  | [] => exact ⟨[], [], rfl, rfl, fun _ => rfl, h⟩
  | .error e :: rest =>
    obtain ⟨_, he, -⟩ := h _ List.mem_cons_self
    cases he
  | .ok piece :: rest =>
    obtain ⟨_, hpiece, hne⟩ := h _ List.mem_cons_self
    cases hpiece
    have hrest : Pieces rest := fun a ha => h a (List.mem_cons_of_mem _ ha)
    refine ⟨piece.take size, _, rfl, (takeArrival_ok rfl).1, fun hnil => ?_, ?_⟩
    · rcases List.take_eq_nil_iff.mp hnil with hsize | hend
      · omega
      · exact absurd hend hne
    · split
      · intro a ha
        rcases List.mem_cons.mp ha with rfl | ha
        · exact ⟨piece.drop size, rfl, by simpa using ‹size < piece.length›⟩
        · exact hrest a ha
      · exact hrest

/-- A script of pieces, whose writes are all accepted, feeds what the pieces hold. -/
def feeding : Feeding ScriptedTransport where
  Feeds t bytes := Pieces t.arrivals ∧ (∀ o ∈ t.outcomes, o = .accepted) ∧ content t.arrivals = bytes
  read {size t bytes} hpos _ h := by
    obtain ⟨hpieces, houtcomes, rfl⟩ := h
    obtain ⟨piece, rest, htake, hcontent, hend, hrest⟩ := takeArrival_pieces hpos hpieces
    have hread := run_read size t
    rw [htake] at hread
    exact ⟨piece, content rest, _, hread, hcontent, hend, hrest, houtcomes, rfl⟩
  write {t bytes} data h := by
    obtain ⟨hpieces, houtcomes, hcontent⟩ := h
    have harrivals := write_arrivals data t
    rcases Session.run_write_cases data t with ⟨u, hrun, -, hrest, -⟩ | ⟨u, n, e, rest, -, hfails, -⟩
    · rw [← run_write, hrun] at harrivals
      refine ⟨u, hrun, ?_, ?_, ?_⟩
      · rwa [harrivals]
      · rw [hrest]
        exact fun o ho => houtcomes o (List.mem_of_mem_tail ho)
      · rwa [harrivals]
    · have hbad := houtcomes (.failed n e) (by simp [hfails])
      cases hbad

end ScriptedTransport

/-! ### Two sessions side by side -/

namespace Session

variable {τ μ : Type} [Wire τ] [Wire μ]

/-- Two sessions that are both closed, or open and fed with the same bytes. The same bytes go over both. -/
def alike (F : Feeding τ) (G : Feeding μ) : Replay (Session τ) (Session μ) Unit where
  load m _ := m
  Rel s m := m.closed = s.closed ∧ (s.closed = false → ∃ bytes, F.Feeds s.transport bytes ∧ G.Feeds m.transport bytes)
  Label s m _ s' m' := ∃ taken delivered, Wire.Moves s.transport taken delivered s'.transport ∧
    Wire.Moves m.transport taken delivered m'.transport
  label_one s m := ⟨[], [], Wire.moves_refl _, Wire.moves_refl _⟩
  label_mul := by
    rintro s s' s'' m m' m'' v w ⟨taken, delivered, hs, hm⟩ ⟨taken', delivered', hs', hm'⟩
    exact ⟨taken ++ taken', delivered ++ delivered', Wire.moves_trans hs hs', Wire.moves_trans hm hm'⟩

variable (F : Feeding τ) (G : Feeding μ)

theorem receive_alike : (alike F G).Replays (receive : Action (Session τ) Frame) receive := by
  refine .of_idle fun s m hR => ?_
  have hclosed : m.closed = s.closed := hR.1
  cases hopen : s.closed with
  | true =>
    rw [receive_closed hopen]
    exact ⟨m, (alike F G).label_one s m, hR, fun _ => receive_closed (hclosed.trans hopen)⟩
  | false =>
    obtain ⟨bytes, hs, hm⟩ := hR.2 hopen
    obtain ⟨r, n, closed, hdoes⟩ := Feeding.told_receive bytes
    obtain ⟨t, hrun, hmoves, hrest⟩ := hdoes F s hopen hs
    obtain ⟨u, hrun', hmoves', hrest'⟩ := hdoes G m (hclosed.trans hopen) hm
    have hreceive : receive.run s = (r, { transport := t, closed }) := by
      rw [receive, Prog.run_bind_get, if_neg (by simp [hopen]), hrun]
    have hreceive' : receive.run m = (r, { transport := u, closed }) := by
      rw [receive, Prog.run_bind_get, if_neg (by simp [hclosed, hopen]), hrun']
    rw [hreceive]
    exact ⟨{ transport := u, closed }, ⟨_, _, hmoves, hmoves'⟩, ⟨rfl, fun h => ⟨_, hrest h, hrest' h⟩⟩,
      fun _ => hreceive'⟩

theorem send_alike (header : Message) (payload : List Byte) :
    (alike F G).Replays (send header payload : Action (Session τ) Unit) (send header payload) := by
  refine .of_idle fun s m hR => ?_
  have hclosed : m.closed = s.closed := hR.1
  cases hopen : s.closed with
  | true =>
    rw [send_closed hopen]
    exact ⟨m, (alike F G).label_one s m, hR, fun _ => send_closed (hclosed.trans hopen) header payload⟩
  | false =>
    obtain ⟨bytes, hs, hm⟩ := hR.2 hopen
    have hnot : ¬ s.closed = true := by simp [hopen]
    have hnot' : ¬ m.closed = true := by simp [hclosed, hopen]
    by_cases hsized : header.dataLength.toNat = payload.length
    · obtain ⟨t, hrun, hmoves, hfeeds⟩ := F.writeMessage_feeds header payload hs
      obtain ⟨u, hrun', hmoves', hfeeds'⟩ := G.writeMessage_feeds header payload hm
      have hsend : (send header payload).run s = (.ok (), { s with transport := t }) := by
        rw [send, Prog.run_bind_get, if_neg hnot, if_neg (not_not.mpr hsized), hrun]
      have hsend' : (send header payload).run m = (.ok (), { m with transport := u }) := by
        rw [send, Prog.run_bind_get, if_neg hnot', if_neg (not_not.mpr hsized), hrun']
      rw [hsend]
      exact ⟨{ m with transport := u }, ⟨_, _, hmoves, hmoves'⟩, ⟨hclosed, fun _ => ⟨bytes, hfeeds, hfeeds'⟩⟩,
        fun _ => hsend'⟩
    · have hsend : (send header payload).run s =
          (.error (.of .invalidArgument "the header data_length does not match the payload"), s) := by
        rw [send, Prog.run_bind_get, if_neg hnot, if_pos hsized]
        rfl
      have hsend' : (send header payload).run m =
          (.error (.of .invalidArgument "the header data_length does not match the payload"), m) := by
        rw [send, Prog.run_bind_get, if_neg hnot', if_pos hsized]
        rfl
      rw [hsend]
      exact ⟨m, (alike F G).label_one s m, hR, fun _ => hsend'⟩

theorem alike_replayed : Channel.Replayed (alike F G) := ⟨send_alike F G, receive_alike F G⟩

end Session

end Adbcpp
