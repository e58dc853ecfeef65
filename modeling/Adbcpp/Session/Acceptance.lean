import Adbcpp.Session.Metered

/-! Which frames a session accepts. A stream that comes without failed reads is judged by
its first bytes alone: the header has to be sound before anything of the payload is
asked for, and a checksum counts where the sender set one and there is something to
sum. A violation closes the session for good. -/

namespace Adbcpp

open Protocol ScriptedTransport

/-! ### Acceptance -/

/-- The sender set no checksum, or it is that of the payload. -/
def Frame.Checked (f : Frame) : Prop :=
  f.header.dataCheck = 0 ∨ f.header.dataCheck = Message.computeChecksum f.payload

/-- The stream starts with a frame that is to be accepted. -/
structure Accepted (stream : List Byte) (f : Frame) : Prop where
  front : f.bytes <+: stream
  sized : f.Sized
  sound : f.header.Sound
  checked : f.Checked

/-- The stream starts with a header that is not sound, or with a frame that fails its checksum. -/
inductive Violates (stream : List Byte) : Prop
  | header (header : Message) : header.encode <+: stream → ¬ header.Sound → Violates stream
  | checksum (f : Frame) : f.bytes <+: stream → f.Sized → f.header.Sound → ¬ f.Checked → Violates stream

/-- The stream starts with a sound header without a payload, but with a checksum. -/
def Uncounted (stream : List Byte) : Prop :=
  ∃ header : Message, header.encode <+: stream ∧ header.Sound ∧ header.dataLength = 0 ∧ header.dataCheck ≠ 0

/-- Only a frame without a payload can come unchecked. -/
theorem Uncounted.of_empty {stream : List Byte} {f : Frame} (hfront : f.bytes <+: stream) (hsized : f.Sized)
    (hsound : f.header.Sound) (hnil : f.payload = []) (hchecked : ¬ f.Checked) : Uncounted stream := by
  obtain ⟨header, payload⟩ := f
  dsimp only at hnil
  subst hnil
  rw [Frame.bytes, Message.frameBytes, List.append_nil] at hfront
  refine ⟨header, hfront, hsound, UInt32.toNat_inj.mp ?_, fun hzero => hchecked (.inl hzero)⟩
  exact hsized

namespace Session

/-- The receive ends with a protocol error. It closes the transport once, behind its reads, and
whatever is called on the session afterwards fails without touching the transport. -/
structure Refuses (s : Session ScriptedTransport) (r : Except Error Frame × Session ScriptedTransport) :
    Prop where
  error : ∃ e, r.1 = .error e ∧ e.code = .protocol
  closes : ∃ reads : List ℕ, r.2.transport.calls = s.transport.calls ++ (reads.map .read ++ [.close])
  closed : r.2.closed = true
  send : ∀ ops header payload, ∃ e, (Session.send header payload).run (r.2.after ops) = (.error e, r.2) ∧
    e.code = .transport
  receive : ∀ ops, ∃ e, Session.receive.run (r.2.after ops) = (.error e, r.2) ∧ e.code = .transport

end Session

/-! ### The receive of a stream without failed reads -/

/-- From `t` to `t'` the transport has only been read. -/
def OnlyReads (t t' : ScriptedTransport) : Prop := ∃ reads : List ℕ, t'.calls = t.calls ++ reads.map .read

instance : Std.Refl OnlyReads := ⟨fun _ => ⟨[], (List.append_nil _).symm⟩⟩

instance : IsTrans ScriptedTransport OnlyReads where
  trans := by
    rintro t u v ⟨reads, hreads⟩ ⟨reads', hreads'⟩
    exact ⟨reads ++ reads', by rw [hreads', hreads, List.map_append, List.append_assoc]⟩

theorem readExact_onlyReads (size : ℕ) :
    Prog.Steps OnlyReads (readExact size : Action ScriptedTransport (List Byte)) := by
  refine Session.readExact_steps (fun n t => ?_) size
  rw [run_read]
  exact ⟨[n], rfl⟩

/-- An exact read over a stream that is too short fails. -/
theorem readExact_short {size : ℕ} {t : ScriptedTransport} (h : (content t.arrivals).length < size) :
    ∃ e t', (readExact size).run t = (.error e, t') := by
  cases hrun : (readExact size).run t with
  | mk r t' =>
    cases r with
    | error e => exact ⟨e, t', rfl⟩
    | ok bytes =>
      have hle := (readExact_ok hrun).2
      change (content t'.arrivals).length + size ≤ (content t.arrivals).length at hle
      omega

namespace Session

/-- On a closed session every call fails and changes nothing. -/
theorem after_closed {s : Session ScriptedTransport} (h : s.closed = true) (ops : List Op) : s.after ops = s := by
  induction ops with
  | nil => rfl
  | cons op ops ih =>
    have hop : op.next s = s := by
      cases op with
      | send header payload => rw [Op.next, send, Prog.run_bind_get, if_pos h, Prog.run_fail]
      | receive => rw [Op.next, receive, Prog.run_bind_get, if_pos h, Prog.run_fail]
      | close => rw [Op.next, close, if_pos h]
    rw [after_cons, hop, ih]

/-- A framing error behind reads refuses the stream. -/
theorem framingError_refuses {s s' : Session ScriptedTransport} (hopen : s'.closed = false)
    (hreads : OnlyReads s.transport s'.transport) (message : String) :
    Refuses s ((framingError message).run s') := by
  have hclosed := close_closed s'
  obtain ⟨reads, hcalls⟩ := hreads
  rw [run_framingError]
  refine ⟨⟨_, rfl, rfl⟩, ⟨reads, ?_⟩, hclosed, fun ops header payload => ?_, fun ops => ?_⟩
  · rw [close, if_neg (by simp [hopen]), ← List.append_assoc, ← hcalls]
    rfl
  · rw [after_closed hclosed, send, Prog.run_bind_get, if_pos hclosed]
    exact ⟨_, rfl, rfl⟩
  · rw [after_closed hclosed, receive, Prog.run_bind_get, if_pos hclosed]
    exact ⟨_, rfl, rfl⟩

variable {s : Session ScriptedTransport}

/-- What a receive does with a header that it has read. -/
theorem receive_header (hopen : s.closed = false) (hpieces : ∀ a ∈ s.transport.arrivals, ¬ IsFault a)
    {header : Message} {rest : List Byte} (hc : content s.transport.arrivals = header.encode ++ rest) :
    ∃ t, content t.arrivals = rest ∧ Smooth rest.length t.arrivals ∧ OnlyReads s.transport t ∧
      receive.run s = (if header.magic ≠ Message.computeMagic header.command then
        framingError "the header magic does not match its command"
      else if header.dataLength > kMaxData then
        framingError "the header payload length is past the maximum"
      else receivePayload header).run { s with transport := t } := by
  have hs := smooth_of_pieces hpieces
  rw [hc, List.length_append] at hs
  obtain ⟨t, hrun, hcon, hsm, -⟩ := readExact_smooth hs hc
  have hreads := readExact_onlyReads header.encode.length s.transport
  rw [hrun] at hreads
  exact ⟨t, hcon, hsm, hreads, run_receive_header hopen hrun⟩

/-- A stream that is shorter than a header brings no frame. -/
theorem receive_short (hopen : s.closed = false)
    (hshort : (content s.transport.arrivals).length < kMessageHeaderSize) :
    ∃ e s', receive.run s = (.error e, s') := by
  obtain ⟨e, t, hrun⟩ := readExact_short hshort
  have hread : (onTransport (readExact kMessageHeaderSize)).run s = (.error e, { s with transport := t }) := by
    rw [run_onTransport, hrun]
  rw [receive, Prog.run_bind_get, if_neg (by simp [hopen]), Prog.run_bind_error hread]
  exact ⟨e, _, rfl⟩

/-- A header that is not sound is refused. -/
theorem receive_unsound (hopen : s.closed = false) (hpieces : ∀ a ∈ s.transport.arrivals, ¬ IsFault a)
    {header : Message} (hfront : header.encode <+: content s.transport.arrivals) (hsound : ¬ header.Sound) :
    Refuses s (receive.run s) := by
  obtain ⟨rest, hrest⟩ := hfront
  obtain ⟨t, -, -, hreads, hrun⟩ := receive_header hopen hpieces hrest.symm
  rw [hrun]
  by_cases hmagic : header.magic = Message.computeMagic header.command
  · have hlen : header.dataLength > kMaxData := UInt32.not_le.mp fun hle => hsound ⟨hmagic, hle⟩
    rw [if_neg (not_not.mpr hmagic), if_pos hlen]
    exact @framingError_refuses s { s with transport := t } hopen hreads _
  · rw [if_pos hmagic]
    exact @framingError_refuses s { s with transport := t } hopen hreads _

/-- A sound header goes on to its payload. -/
theorem receive_sound (hopen : s.closed = false) (hpieces : ∀ a ∈ s.transport.arrivals, ¬ IsFault a)
    {header : Message} (hsound : header.Sound) {rest : List Byte}
    (hc : content s.transport.arrivals = header.encode ++ rest) :
    ∃ t, content t.arrivals = rest ∧ Smooth rest.length t.arrivals ∧ OnlyReads s.transport t ∧
      receive.run s = (receivePayload header).run { s with transport := t } := by
  obtain ⟨t, hcon, hsm, hreads, hrun⟩ := receive_header hopen hpieces hc
  rw [if_neg (not_not.mpr hsound.1), if_neg (UInt32.not_lt.mpr hsound.2)] at hrun
  exact ⟨t, hcon, hsm, hreads, hrun⟩

/-- A stream that ends inside the payload brings no frame. -/
theorem receive_cut (hopen : s.closed = false) (hpieces : ∀ a ∈ s.transport.arrivals, ¬ IsFault a)
    {header : Message} (hsound : header.Sound) {rest : List Byte}
    (hc : content s.transport.arrivals = header.encode ++ rest) (hshort : rest.length < header.dataLength.toNat) :
    ∃ e s', receive.run s = (.error e, s') := by
  obtain ⟨t, hcon, -, -, hrun⟩ := receive_sound hopen hpieces hsound hc
  obtain ⟨e, t', hread⟩ := readExact_short (hcon.symm ▸ hshort)
  have hpayload : (onTransport (readExact header.dataLength.toNat)).run { s with transport := t } =
      (.error e, { s with transport := t' }) := by
    rw [run_onTransport, hread]
  rw [hrun, receivePayload, if_neg (by omega), Prog.run_bind_error hpayload]
  exact ⟨e, _, rfl⟩

/-- A frame with a sound header is received, unless it has a payload that fails its checksum. -/
theorem receive_whole (hopen : s.closed = false) (hpieces : ∀ a ∈ s.transport.arrivals, ¬ IsFault a)
    {f : Frame} (hsized : f.Sized) (hsound : f.header.Sound) (hfront : f.bytes <+: content s.transport.arrivals) :
    (f.payload = [] ∨ f.Checked) ∧ (receive.run s).1 = .ok f ∨
      ¬ (f.payload = [] ∨ f.Checked) ∧ Refuses s (receive.run s) := by
  obtain ⟨header, payload⟩ := f
  obtain ⟨rest, hrest⟩ := hfront
  rw [Frame.bytes, Message.frameBytes, List.append_assoc] at hrest
  obtain ⟨t, hcon, hsm, hreads, hrun⟩ := receive_sound hopen hpieces hsound hrest.symm
  dsimp only [Frame.Sized] at hsized hrun hcon
  rw [hrun, receivePayload]
  by_cases hp : payload = []
  · rw [hp, List.length_nil] at hsized
    rw [if_pos hsized, hp]
    exact .inl ⟨.inl rfl, rfl⟩
  have hne : ¬ header.dataLength.toNat = 0 := by
    rw [hsized, List.length_eq_zero_iff]
    exact hp
  rw [List.length_append] at hsm
  obtain ⟨t', hread, -, -, -⟩ := readExact_smooth hsm hcon
  have hreads' := readExact_onlyReads payload.length t
  rw [hread] at hreads'
  have hpayload : (onTransport (readExact header.dataLength.toNat)).run { s with transport := t } =
      (.ok payload, { s with transport := t' }) := by
    rw [hsized, run_onTransport, hread]
  rw [if_neg hne, Prog.run_bind_ok hpayload]
  by_cases hcheck : header.dataCheck ≠ 0 ∧ header.dataCheck ≠ Message.computeChecksum payload
  · right
    rw [if_pos hcheck]
    refine ⟨?_, @framingError_refuses s { s with transport := t' } hopen (trans_of OnlyReads hreads hreads') _⟩
    rintro (hnil | hzero | hsum)
    · exact hp hnil
    · exact hcheck.1 hzero
    · exact hcheck.2 hsum
  · left
    rw [if_neg hcheck]
    refine ⟨.inr ?_, rfl⟩
    by_cases hzero : header.dataCheck = 0
    · exact .inl hzero
    · exact .inr (not_not.mp fun hsum => hcheck ⟨hzero, hsum⟩)

/-- What a stream without failed reads can start with. -/
theorem stream_cases (stream : List Byte) :
    stream.length < kMessageHeaderSize ∨
    (∃ header : Message, header.encode <+: stream ∧ ¬ header.Sound) ∨
    (∃ header : Message, header.Sound ∧ ∃ rest, stream = header.encode ++ rest ∧
      rest.length < header.dataLength.toNat) ∨
    ∃ f : Frame, f.Sized ∧ f.header.Sound ∧ f.bytes <+: stream := by
  by_cases hshort : stream.length < kMessageHeaderSize
  · exact .inl hshort
  obtain ⟨header, hheader⟩ := Message.exists_encode
    (show (stream.take kMessageHeaderSize).length = kMessageHeaderSize by rw [List.length_take]; omega)
  have hstream : stream = header.encode ++ stream.drop kMessageHeaderSize := by
    rw [hheader, List.take_append_drop]
  by_cases hsound : header.Sound
  swap
  · exact .inr (.inl ⟨header, ⟨_, hstream.symm⟩, hsound⟩)
  by_cases hcut : (stream.drop kMessageHeaderSize).length < header.dataLength.toNat
  · exact .inr (.inr (.inl ⟨header, hsound, _, hstream, hcut⟩))
  refine .inr (.inr (.inr ⟨⟨header, (stream.drop kMessageHeaderSize).take header.dataLength.toNat⟩, ?_, hsound, ?_⟩))
  · rw [Frame.Sized, List.length_take]
    dsimp only
    omega
  · refine ⟨(stream.drop kMessageHeaderSize).drop header.dataLength.toNat, ?_⟩
    rw [Frame.bytes, Message.frameBytes, List.append_assoc, List.take_append_drop, ← hstream]

end Session

namespace Metered

/-- The requests of the first receive over a transport. -/
def requestsOf (t : ScriptedTransport) : List Request :=
  (receive.run { transport := { transport := t } }).2.transport.requests

/-- What an exact read of the metered transport does, where it asked for nothing beyond `limit`. -/
theorem onTransport_readExact (size : ℕ) (s : Session (Metered ScriptedTransport)) :
    ∃ m, (Session.onTransport (readExact size)).run s =
        (((readExact size).run s.transport.transport).1, { s with transport := m }) ∧
      Asks size s.transport (((readExact size).run s.transport.transport).1, m) := by
  have hstep := (readExact_inStep size s.transport _ rfl).result
  have hasks := readExact_asks size s.transport
  rw [Session.run_onTransport, ← hstep]
  exact ⟨_, rfl, hasks⟩

theorem run_framingError_requests {α : Type} (message : String) (s : Session (Metered ScriptedTransport)) :
    ((Session.framingError message : Action _ α).run s).2.transport.requests = s.transport.requests := by
  rw [Session.run_framingError, Session.close]
  split <;> rfl

theorem receivePayload_requests (header : Message) (s : Session (Metered ScriptedTransport)) :
    ∃ new, ((Session.receivePayload header).run s).2.transport.requests = s.transport.requests ++ new ∧
      ∀ q ∈ new, ∃ offset n, q = .read offset n ∧ offset + n ≤ s.transport.position + header.dataLength.toNat := by
  rw [Session.receivePayload]
  split
  · exact ⟨[], (List.append_nil _).symm, by simp⟩
  obtain ⟨m, hrun, ⟨new, hnew, hall⟩, -⟩ := onTransport_readExact header.dataLength.toNat s
  refine ⟨new, ?_, hall⟩
  cases hread : ((readExact header.dataLength.toNat).run s.transport.transport).1 with
  | error e =>
    rw [hread] at hrun
    rw [Prog.run_bind_error hrun, ← hnew]
  | ok payload =>
    rw [hread] at hrun
    rw [Prog.run_bind_ok hrun, ← hnew]
    split
    · exact run_framingError_requests _ _
    · rfl

/-- Behind a sound header, memory and input are asked for up to the length that it declares. -/
theorem payload_allowed {header : Message} {stream : List Byte} {s : Session (Metered ScriptedTransport)}
    (hsound : header.Sound) (hpart : header.encode <+: stream)
    (hposition : s.transport.position = kMessageHeaderSize) (hs : ∀ q ∈ s.transport.requests, q.Allowed stream) :
    ∀ q ∈ ((do
        Session.onTransport (allocate header.dataLength.toNat)
        Session.receivePayload header : Action _ Frame).run s).2.transport.requests, q.Allowed stream := by
  have hallocate : (Session.onTransport (allocate header.dataLength.toNat)).run s = (.ok (), { s with
      transport := { s.transport with
        requests := s.transport.requests ++ [.allocate header.dataLength.toNat] } }) := rfl
  rw [Prog.run_bind_ok hallocate]
  obtain ⟨new, hnew, hall⟩ := receivePayload_requests header { s with
    transport := { s.transport with requests := s.transport.requests ++ [.allocate header.dataLength.toNat] } }
  rw [hnew]
  intro q hq
  rcases List.mem_append.mp hq with hq | hq
  · rcases List.mem_append.mp hq with hq | hq
    · exact hs q hq
    · rw [List.mem_singleton.mp hq]
      exact ⟨header, hpart, hsound, rfl⟩
  · obtain ⟨offset, n, rfl, hle⟩ := hall q hq
    exact .inr ⟨header, hpart, hsound, hposition ▸ hle⟩

/-- Nothing of the payload is asked for, and no memory for it, unless the header is sound. -/
theorem requests_allowed {t : ScriptedTransport} (hpieces : ∀ a ∈ t.arrivals, ¬ IsFault a) :
    ∀ q ∈ requestsOf t, q.Allowed (content t.arrivals) := by
  obtain ⟨m, hrun, ⟨new, hnew, hall⟩, hpos⟩ :=
    onTransport_readExact kMessageHeaderSize { transport := { transport := t } }
  have hheader : ∀ q ∈ new, q.Allowed (content t.arrivals) := by
    intro q hq
    obtain ⟨offset, n, rfl, hle⟩ := hall q hq
    exact .inl (by simpa using hle)
  have hnew' : m.requests = new := hnew
  rw [requestsOf, receive, Prog.run_bind_get, if_neg (by simp)]
  by_cases hshort : (content t.arrivals).length < kMessageHeaderSize
  · obtain ⟨e, t', hread⟩ := readExact_short hshort
    rw [hread] at hrun
    rw [Prog.run_bind_error hrun]
    exact hnew' ▸ hheader
  obtain ⟨header, hfront⟩ := Message.exists_encode
    (show ((content t.arrivals).take kMessageHeaderSize).length = kMessageHeaderSize by
      rw [List.length_take]
      omega)
  have hc : content t.arrivals = header.encode ++ (content t.arrivals).drop kMessageHeaderSize := by
    rw [hfront, List.take_append_drop]
  have hs := smooth_of_pieces hpieces
  rw [hc, List.length_append] at hs
  obtain ⟨t', hread, -⟩ := readExact_smooth hs hc
  rw [Message.length_encode] at hread
  rw [hread] at hrun hpos
  rw [Prog.run_bind_ok hrun, Message.decode_encode]
  dsimp only
  by_cases hmagic : header.magic = Message.computeMagic header.command
  swap
  · rw [if_pos hmagic, run_framingError_requests]
    exact hnew' ▸ hheader
  rw [if_neg (not_not.mpr hmagic)]
  by_cases hlen : header.dataLength > kMaxData
  · rw [if_pos hlen, run_framingError_requests]
    exact hnew' ▸ hheader
  rw [if_neg hlen]
  have hsound : header.Sound := ⟨hmagic, UInt32.not_lt.mp hlen⟩
  have hpart : header.encode <+: content t.arrivals := ⟨_, hc.symm⟩
  have hposition : m.position = kMessageHeaderSize := by
    rw [hpos header.encode rfl]
    exact Nat.zero_add _
  exact payload_allowed hsound hpart hposition (hnew' ▸ hheader)

end Metered

namespace Session

/-- A receive returns the frame that the stream starts with where that is to be accepted and none
elsewhere, refuses what violates the protocol, and asks for a payload only behind a sound header. -/
structure ReceivesExactly (s : Session ScriptedTransport) : Prop where
  returns : ∀ f, (receive.run s).1 = .ok f ↔ Accepted (content s.transport.arrivals) f
  violation : Violates (content s.transport.arrivals) → Refuses s (receive.run s)
  requests : ∀ q ∈ Metered.requestsOf s.transport, q.Allowed (content s.transport.arrivals)

variable {s : Session ScriptedTransport}

theorem empty_sized {header : Message} (h : header.dataLength = 0) : (⟨header, []⟩ : Frame).Sized := by
  rw [Frame.Sized, h]
  rfl

theorem empty_front {header : Message} {stream : List Byte} (h : header.encode <+: stream) :
    (⟨header, []⟩ : Frame).bytes <+: stream := by
  rwa [Frame.bytes, Message.frameBytes, List.append_nil]

theorem returns_of_counted (hopen : s.closed = false) (hpieces : ∀ a ∈ s.transport.arrivals, ¬ IsFault a)
    (hcounted : ¬ Uncounted (content s.transport.arrivals)) (f : Frame) :
    (receive.run s).1 = .ok f ↔ Accepted (content s.transport.arrivals) f := by
  constructor
  · intro hrun
    rcases stream_cases (content s.transport.arrivals) with
      hshort | ⟨header, hfront, hunsound⟩ | ⟨header, hsound, rest, hc, hcut⟩ | ⟨g, hsized, hsound, hfront⟩
    · obtain ⟨e, s', herror⟩ := receive_short hopen hshort
      rw [herror] at hrun
      cases hrun
    · obtain ⟨e, herror, -⟩ := (receive_unsound hopen hpieces hfront hunsound).error
      rw [herror] at hrun
      cases hrun
    · obtain ⟨e, s', herror⟩ := receive_cut hopen hpieces hsound hc hcut
      rw [herror] at hrun
      cases hrun
    · rcases receive_whole hopen hpieces hsized hsound hfront with ⟨hchecked, hok⟩ | ⟨-, hrefuses⟩
      · rw [hok] at hrun
        cases hrun
        refine ⟨hfront, hsized, hsound, ?_⟩
        by_contra hunchecked
        exact hcounted (.of_empty hfront hsized hsound (hchecked.resolve_right hunchecked) hunchecked)
      · obtain ⟨e, herror, -⟩ := hrefuses.error
        rw [herror] at hrun
        cases hrun
  · rintro ⟨hfront, hsized, hsound, hchecked⟩
    rcases receive_whole hopen hpieces hsized hsound hfront with ⟨-, hok⟩ | ⟨hbad, -⟩
    · exact hok
    · exact absurd (.inr hchecked) hbad

theorem refuses_of_counted (hopen : s.closed = false) (hpieces : ∀ a ∈ s.transport.arrivals, ¬ IsFault a)
    (hcounted : ¬ Uncounted (content s.transport.arrivals))
    (h : Violates (content s.transport.arrivals)) : Refuses s (receive.run s) := by
  cases h with
  | header header hfront hunsound => exact receive_unsound hopen hpieces hfront hunsound
  | checksum f hfront hsized hsound hunchecked =>
    rcases receive_whole hopen hpieces hsized hsound hfront with ⟨hchecked, -⟩ | ⟨-, hrefuses⟩
    · have hnil := hchecked.resolve_right hunchecked
      exact absurd (.of_empty hfront hsized hsound hnil hunchecked) hcounted
    · exact hrefuses

/-- A receive accepts exactly what it should, unless the stream starts with a sound header that
has no payload and yet a checksum. The metered receive is the same one. -/
theorem receivesExactly_iff (hopen : s.closed = false)
    (hpieces : ∀ a ∈ s.transport.arrivals, ¬ IsFault a) :
    Prog.InStep Metered.Shows (Metered.receive (τ := ScriptedTransport)) receive ∧
      (s.ReceivesExactly ↔ ¬ Uncounted (content s.transport.arrivals)) := by
  refine ⟨Metered.receive_inStep, ?_, ?_⟩
  · rintro h ⟨header, hfront, hsound, hlength, hcheck⟩
    have hfront' := empty_front hfront
    rcases receive_whole hopen hpieces (empty_sized hlength) hsound hfront' with ⟨-, hok⟩ | ⟨hbad, -⟩
    · rcases ((h.returns _).mp hok).checked with hzero | hsum
      · exact hcheck hzero
      · exact hcheck hsum
    · exact hbad (.inl rfl)
  · intro hcounted
    exact ⟨returns_of_counted hopen hpieces hcounted, refuses_of_counted hopen hpieces hcounted,
      Metered.requests_allowed hpieces⟩

/-- An OKAY of a peer that sets a checksum on everything it sends. -/
def countedOkay : Message where
  command := kOkay
  arg0 := 7
  arg1 := 2
  dataCheck := 1
  magic := Message.computeMagic kOkay

def countingPeer : Session ScriptedTransport where
  transport := { arrivals := [.ok countedOkay.encode] }

/-- The OKAY is received although its checksum is not that of its payload. -/
theorem not_receivesExactly_countedOkay : (receive.run countingPeer).1 = .ok ⟨countedOkay, []⟩ ∧
    Violates (content countingPeer.transport.arrivals) ∧ ¬ ReceivesExactly countingPeer := by
  have hrun : (receive.run countingPeer).1 = .ok ⟨countedOkay, []⟩ := rfl
  have hunchecked : ¬ (⟨countedOkay, []⟩ : Frame).Checked := by
    rintro (hzero | hsum)
    · exact absurd hzero (by decide)
    · exact absurd hsum (by decide)
  refine ⟨hrun, ?_, fun h => hunchecked ((h.returns _).mp hrun).checked⟩
  exact .checksum ⟨countedOkay, []⟩ (empty_front List.prefix_rfl) rfl ⟨rfl, by decide⟩ hunchecked

/-- A payload that comes in two pieces, with its checksum. -/
theorem receivesExactly_iff_pieces : ReceivesExactly { transport := { arrivals :=
    [.ok ({ command := kWrte, dataLength := 2, dataCheck := 3, magic := Message.computeMagic kWrte } :
      Message).encode, .ok [1], .ok [2]] } } := by
  refine (receivesExactly_iff rfl ?_).2.mpr ?_
  · intro a ha
    simp only [List.mem_cons, List.not_mem_nil, or_false] at ha
    rcases ha with rfl | rfl | rfl <;> exact List.cons_ne_nil _ _
  · rintro ⟨header, hfront, -, hlength, -⟩
    have heq := Message.encode_prefix_inj hfront ⟨[1, 2], rfl⟩
    rw [heq] at hlength
    exact absurd hlength (by decide)

end Session

end Adbcpp
