import Adbcpp.Handshake

/-! What a handshake does on the wire, for every device. The host asks up to three times,
with its CNXN, a signature and its public key, and every question but the last has
got its reply before the next is asked. What was sent is read off the replies, and
the connection is made exactly when the last reply is a CNXN. -/

namespace Adbcpp

open Protocol Dialogue

/-! ### The record of a handshake -/

/-- Attempts and replies take turns, and an attempt comes first. -/
def TakesTurns : List Event → Prop
  | [] => True
  | .received _ :: _ => False
  | [.sent _] => True
  | .sent _ :: .received _ :: rest => TakesTurns rest
  | .sent _ :: _ => False
  | [.unsent _] => True
  | .unsent _ :: _ => False

/-- The error of the first write that fails. -/
def firstFailure (outcomes : List WriteOutcome) : Option Error :=
  outcomes.findSome? fun
    | .accepted => none
    | .failed _ e => some e

def cnxnFrame (identity : List Byte) : Frame where
  header := { command := kCnxn, arg0 := kVersion, arg1 := kMaxData,
              dataLength := UInt32.ofNat identity.length,
              dataCheck := Message.computeChecksum identity, magic := Message.computeMagic kCnxn }
  payload := identity

def authFrame (type : UInt32) (payload : List Byte) : Frame where
  header := { command := kAuth, arg0 := type, dataLength := UInt32.ofNat payload.length,
              dataCheck := Message.computeChecksum payload, magic := Message.computeMagic kAuth }
  payload := payload

/-- The signature that the host sends: of the first reply, where that is an AUTH, a signer is there
and succeeds, and a header can tell the length of the signature. -/
def signatures (signer : Option Signer) (replies : List Frame) : List Frame :=
  match signer, replies with
  | some sign, f :: _ =>
    if f.header.command = kAuth then match sign f.payload with
      | .ok signature => if signature.length < 2 ^ 32 then [authFrame kAuthSignature signature] else []
      | .error _ => []
    else []
  | _, _ => []

/-- The reply that decides about the public key: the second with a signer, the first without. -/
def decisive (signer : Option Signer) (replies : List Frame) : Option Frame :=
  if signer.isSome then replies[1]? else replies[0]?

/-- The key that the host offers: where the decisive reply is an AUTH, there is a key, and a header
can tell its length with the NUL. -/
def offers (publicKey : List Byte) (signer : Option Signer) (replies : List Frame) : List Frame :=
  match decisive signer replies with
  | some f =>
    if f.header.command = kAuth ∧ publicKey ≠ [] ∧ publicKey.length + 1 < 2 ^ 32 then
      [authFrame kAuthPublicKey (publicKey ++ [0])]
    else []
  | none => []

/-- No call of the signer fails. -/
def Signs (signer : Option Signer) (replies : List Frame) : Prop :=
  ∀ sign f rest, signer = some sign → replies = f :: rest → f.header.command = kAuth →
    ∃ signature, sign f.payload = .ok signature

/-! ### One question -/

/-- How a question goes: it is not sent, it gets no reply, or it gets one. -/
inductive Asked (m : Frame) (d : Dialogue) : List Event → Except Error Frame → Dialogue → Prop
  | unsent {d' : Dialogue} {e : Error} : firstFailure d.outcomes = some e → d'.inbox = d.inbox →
      Asked m d [.unsent m] (.error e) d'
  | silent {d' : Dialogue} (e : Error) (lost : List Arrival) : d.inbox = lost ++ d'.inbox →
      (∀ f, .frame f ∉ lost) → Asked m d [.sent m] (.error e) d'
  | replied {d' : Dialogue} (f : Frame) : d'.closed = false → firstFailure d'.outcomes = firstFailure d.outcomes →
      d.inbox = .frame f :: d'.inbox → Asked m d [.sent m, .received f] (.ok f) d'

theorem Asked.closed {m g : Frame} {d d' : Dialogue} {new : List Event} (h : Asked m d new (.ok g) d') :
    d'.closed = false := by
  cases h with
  | replied f hopen => exact hopen

/-- What writes make of the failures that are still to come. -/
inductive Written (d : Dialogue) : Except Error Unit × Dialogue → Prop
  | accepted {d' : Dialogue} : firstFailure d'.outcomes = firstFailure d.outcomes → Written d (.ok (), d')
  | failed {d' : Dialogue} {e : Error} : firstFailure d.outcomes = some e → Written d (.error e, d')

theorem write_written (d : Dialogue) : Written d (write.run d) := by
  rw [run_write]
  split
  next => exact .accepted rfl
  next rest hd => exact .accepted (by simp [firstFailure, hd])
  next n e rest hd => exact .failed (by simp [firstFailure, hd])

theorem writeMessage_written (payload : List Byte) (d : Dialogue) : Written d ((writeMessage payload).run d) := by
  have hfirst := write_written d
  rw [writeMessage, Prog.run_bind]
  generalize write.run d = r at hfirst
  cases hfirst with
  | failed he => exact .failed he
  | @accepted d₁ hd₁ =>
    dsimp only
    split
    · have hsecond := write_written d₁
      generalize write.run d₁ = r at hsecond ⊢
      cases hsecond with
      | accepted hd₂ => exact .accepted (hd₂.trans hd₁)
      | failed he => exact .failed (hd₁ ▸ he)
    · exact .accepted hd₁

namespace Connection

variable {c : Connection Dialogue} {m : Frame}

/-- Asks a question and gets its reply. -/
def ask (m : Frame) : Action (Connection Dialogue) Frame := do
  send m.header m.payload
  receive

/-- A message is sent, or the first write that fails ends the attempt. -/
theorem run_send_open (hopen : c.session.closed = false) (hm : m.Sized) :
    (∃ d, (send m.header m.payload).run c = (.ok (), { c with session := d }) ∧ d.closed = false ∧
      d.inbox = c.session.inbox ∧ d.trace = c.session.trace ++ [.sent m] ∧
      firstFailure d.outcomes = firstFailure c.session.outcomes) ∨
    (∃ e d, (send m.header m.payload).run c = (.error e, { c with session := d }) ∧
      d.inbox = c.session.inbox ∧ d.trace = c.session.trace ++ [.unsent m] ∧
      firstFailure c.session.outcomes = some e) := by
  have hlen : ¬ m.header.dataLength.toNat ≠ m.payload.length := not_not.mpr hm
  have hsame := writeMessage_sameInbox m.payload c.session
  have hwritten := writeMessage_written m.payload c.session
  rw [send, run_onSession, run_channel_send, run_send, if_neg (by simp [hopen]), if_neg hlen]
  generalize (writeMessage m.payload).run c.session = r at hsame hwritten ⊢
  obtain ⟨hinbox, hclosed, htrace⟩ := hsame
  cases hwritten with
  | @accepted d hd =>
    left
    exact ⟨d.record (.sent m), rfl, hclosed.trans hopen, hinbox, by rw [record, htrace], hd⟩
  | @failed d e he =>
    right
    exact ⟨e, d.record (.unsent m), rfl, hinbox, by rw [record, htrace], he⟩

theorem run_ask (hopen : c.session.closed = false) (hm : m.Sized) :
    ∃ new r d, (ask m).run c = (r, { c with session := d }) ∧ d.trace = c.session.trace ++ new ∧
      Asked m c.session new r d := by
  rcases run_send_open hopen hm with
    ⟨d, hsend, hopen', hinbox, htrace, hfail⟩ | ⟨e, d, hsend, hinbox, htrace, he⟩
  swap
  · exact ⟨_, _, d, Prog.run_bind_error hsend, htrace, .unsent he hinbox⟩
  have hask : (ask m).run c = (receive : Action (Connection Dialogue) Frame).run { c with session := d } :=
    Prog.run_bind_ok hsend
  rw [hask, receive, run_onSession, run_channel_receive, run_receive hopen']
  cases hd : d.inbox with
  | nil => exact ⟨_, _, d, rfl, htrace, .silent _ [] (by simp [← hinbox, hd]) (by simp)⟩
  | cons a rest =>
    cases a with
    | fault e =>
      exact ⟨_, _, { d with inbox := rest }, rfl, htrace,
        .silent _ [.fault e] (by simp [← hinbox, hd]) (by simp)⟩
    | violation message =>
      exact ⟨_, _, { d with inbox := rest, closed := true }, rfl, htrace,
        .silent _ [.violation message] (by simp [← hinbox, hd]) (by simp)⟩
    | frame f =>
      refine ⟨[.sent m, .received f], .ok f, { d with inbox := rest, trace := d.trace ++ [.received f] },
        rfl, ?_, .replied f hopen' hfail (by simp [← hinbox, hd])⟩
      simp [htrace]

/-! ### The questions of a handshake -/

theorem makeAuth_ok (type : UInt32) {payload : List Byte} (h : payload.length < 2 ^ 32) :
    makeAuth type payload = .ok (authFrame type payload).header := by
  rw [makeAuth, Message.dataLengthOf_ok h]
  rfl

theorem makeAuth_error (type : UInt32) {payload : List Byte} (h : ¬ payload.length < 2 ^ 32) :
    ∃ e, makeAuth type payload = .error e := by
  rw [makeAuth, Message.dataLengthOf, if_pos (by omega)]
  exact ⟨_, rfl⟩

theorem authFrame_sized (type : UInt32) {payload : List Byte} (h : payload.length < 2 ^ 32) :
    (authFrame type payload).Sized := by
  rw [Frame.Sized, authFrame, UInt32.toNat_ofNat']
  exact Nat.mod_eq_of_lt h

theorem identity_lt (codecs : Codecs) (advertise : Bool) : (identity codecs advertise).length < 2 ^ 32 := by
  obtain ⟨zstd, lz4, brotli⟩ := codecs
  cases zstd <;> cases lz4 <;> cases brotli <;> cases advertise <;> decide

/-- The first question is the CNXN. -/
theorem run_announce (codecs : Codecs) (advertise : Bool) (c : Connection Dialogue) :
    (announce (identity codecs advertise) >>= fun _ => receive).run c =
      (ask (cnxnFrame (identity codecs advertise))).run c := by
  rw [announce, Message.dataLengthOf_ok (identity_lt codecs advertise)]
  rfl

/-- What becomes of the reply that decides about the public key. -/
inductive Authorized (publicKey : List Byte) (f : Frame) (c : Connection Dialogue) :
    List Event → Except Error Frame → Connection Dialogue → Prop
  | accepted : f.header.command ≠ kAuth → Authorized publicKey f c [] (.ok f) c
  | keyless {c' : Connection Dialogue} (e : Error) : f.header.command = kAuth →
      ¬ (publicKey ≠ [] ∧ publicKey.length + 1 < 2 ^ 32) → c'.session = c.session →
      Authorized publicKey f c [] (.error e) c'
  | offered {new : List Event} {r : Except Error Frame} {d : Dialogue} : f.header.command = kAuth →
      publicKey ≠ [] → publicKey.length + 1 < 2 ^ 32 →
      Asked (authFrame kAuthPublicKey (publicKey ++ [0])) c.session new r d →
      Authorized publicKey f c new r { c with session := d, requestedAuthorization := true }

theorem run_authorize (publicKey : List Byte) (f : Frame) (hopen : c.session.closed = false) :
    ∃ new r c', (authorize publicKey f).run c = (r, c') ∧
      c'.session.trace = c.session.trace ++ new ∧ Authorized publicKey f c new r c' := by
  rw [authorize]
  by_cases hauth : f.header.command = kAuth
  swap
  · rw [if_neg hauth]
    exact ⟨[], _, c, rfl, (List.append_nil _).symm, .accepted hauth⟩
  rw [if_pos hauth]
  by_cases hkey : publicKey = []
  · obtain ⟨e, hrun⟩ : ∃ e, (sendPublicKey publicKey).run c =
        (.error e, { c with requestedAuthorization := true }) := by
      rw [sendPublicKey, if_pos hkey]
      exact ⟨_, rfl⟩
    exact ⟨[], _, _, Prog.run_bind_error hrun, (List.append_nil _).symm,
      .keyless _ hauth (fun h => h.1 hkey) rfl⟩
  have hlen : (publicKey ++ [0]).length = publicKey.length + 1 := List.length_append
  by_cases hlt : publicKey.length + 1 < 2 ^ 32
  swap
  · obtain ⟨e, he⟩ := @makeAuth_error kAuthPublicKey (publicKey ++ [0]) (by rwa [hlen])
    refine ⟨[], .error e, { c with requestedAuthorization := true }, ?_, (List.append_nil _).symm,
      .keyless e hauth (fun h => hlt h.2) rfl⟩
    rw [sendPublicKey, if_neg hkey]
    dsimp only
    rw [he]
    rfl
  obtain ⟨new, r, d, hrun, htrace, hasked⟩ := @run_ask { c with requestedAuthorization := true }
    (authFrame kAuthPublicKey (publicKey ++ [0])) hopen (authFrame_sized _ (by rwa [hlen]))
  refine ⟨new, r, _, ?_, htrace, .offered hauth hkey hlt hasked⟩
  rw [sendPublicKey, if_neg hkey]
  dsimp only
  rw [makeAuth_ok _ (by rwa [hlen])]
  exact hrun

/-- What becomes of the first reply. -/
inductive Authenticated (publicKey : List Byte) (signer : Option Signer) (f : Frame) (c : Connection Dialogue) :
    List Event → Except Error Frame → Connection Dialogue → Prop
  | accepted : f.header.command ≠ kAuth → Authenticated publicKey signer f c [] (.ok f) c
  | unsigned {new : List Event} {r : Except Error Frame} {c' : Connection Dialogue} :
      f.header.command = kAuth → signer = none → Authorized publicKey f c new r c' →
      Authenticated publicKey signer f c new r c'
  | failed (e : Error) {sign : Signer} : f.header.command = kAuth → signer = some sign →
      (∀ signature, sign f.payload = .ok signature → ¬ signature.length < 2 ^ 32) →
      Authenticated publicKey signer f c [] (.error e) c
  | unanswered {sign : Signer} {signature : List Byte} {new : List Event} {e : Error} {d : Dialogue} :
      f.header.command = kAuth → signer = some sign → sign f.payload = .ok signature →
      signature.length < 2 ^ 32 → Asked (authFrame kAuthSignature signature) c.session new (.error e) d →
      Authenticated publicKey signer f c new (.error e) { c with session := d }
  | signed {sign : Signer} {signature : List Byte} {g : Frame} {new new' : List Event}
      {r : Except Error Frame} {d : Dialogue} {c' : Connection Dialogue} :
      f.header.command = kAuth → signer = some sign → sign f.payload = .ok signature →
      signature.length < 2 ^ 32 → Asked (authFrame kAuthSignature signature) c.session new (.ok g) d →
      Authorized publicKey g { c with session := d } new' r c' →
      Authenticated publicKey signer f c (new ++ new') r c'

theorem run_authenticate (publicKey : List Byte) (signer : Option Signer) (f : Frame)
    (hopen : c.session.closed = false) :
    ∃ new r c', (authenticate publicKey signer f).run c = (r, c') ∧
      c'.session.trace = c.session.trace ++ new ∧ Authenticated publicKey signer f c new r c' := by
  unfold authenticate
  by_cases hauth : f.header.command = kAuth
  swap
  · rw [if_neg hauth]
    exact ⟨[], _, c, rfl, (List.append_nil _).symm, .accepted hauth⟩
  rw [if_pos hauth]
  cases signer with
  | none =>
    obtain ⟨new, r, c', hrun, htrace, h⟩ := run_authorize publicKey f hopen
    exact ⟨new, r, c', hrun, htrace, .unsigned hauth rfl h⟩
  | some sign =>
    dsimp only
    cases hsign : sign f.payload with
    | error e =>
      refine ⟨[], .error e, c, ?_, (List.append_nil _).symm, .failed e hauth rfl (by simp [hsign])⟩
      rw [sendSignature, hsign]
      rfl
    | ok signature =>
      by_cases hlt : signature.length < 2 ^ 32
      swap
      · obtain ⟨e, he⟩ := makeAuth_error kAuthSignature hlt
        refine ⟨[], .error e, c, ?_, (List.append_nil _).symm, .failed e hauth rfl ?_⟩
        · rw [sendSignature, hsign]
          show Prog.run (Prog.lift (makeAuth kAuthSignature signature) >>= _ >>= _) c = _
          rw [he]
          rfl
        · intro signature' h
          cases hsign.symm.trans h
          exact hlt
      obtain ⟨new, r, d, hrun, htrace, hasked⟩ := run_ask hopen (authFrame_sized kAuthSignature hlt)
      have hquestion : (sendSignature sign f.payload >>= fun _ => receive).run c =
          (r, { c with session := d }) := by
        rw [sendSignature, hsign]
        show Prog.run (Prog.lift (makeAuth kAuthSignature signature) >>= _ >>= _) c = _
        rw [makeAuth_ok _ hlt]
        exact hrun
      rw [Prog.run_bind_assoc]
      cases r with
      | error e =>
        exact ⟨new, _, _, Prog.run_bind_error hquestion, htrace, .unanswered hauth rfl hsign hlt hasked⟩
      | ok g =>
        obtain ⟨new', r, c', hrun', htrace', h⟩ :=
          @run_authorize { c with session := d } publicKey g hasked.closed
        refine ⟨new ++ new', r, c', ?_, ?_, .signed hauth rfl hsign hlt hasked h⟩
        · rw [Prog.run_bind_ok hquestion, hrun']
        · rw [htrace', htrace, List.append_assoc]

/-! ### The whole handshake -/

/-- What a handshake that begins with the session `d` does: it ends with the result `r` and the
connection `c'`, and `new` is what went by. -/
structure Conforms (codecs : Codecs) (publicKey : List Byte) (signer : Option Signer) (advertise : Bool)
    (d : Dialogue) (new : List Event) (r : Except Error Unit) (c' : Connection Dialogue) : Prop where
  trace : c'.session.trace = d.trace ++ new
  turns : TakesTurns new
  /-- The CNXN is sent first, then the signature and the key where the replies ask for them. -/
  attempts : Adbcpp.attempts new = cnxnFrame (identity codecs advertise) ::
    (signatures signer (replies new) ++ offers publicKey signer (replies new))
  consumed : ∃ lost, d.inbox = (replies new).map .frame ++ (lost ++ c'.session.inbox) ∧
    ∀ f, .frame f ∉ lost
  atMost : (replies new).length ≤ 3
  /-- After an attempt that the transport fails nothing more goes by, and its error is returned. -/
  unsent : ∀ f, .unsent f ∈ new → new.getLast? = some (.unsent f) ∧
    ∃ e, firstFailure d.outcomes = some e ∧ r = .error e
  /-- The connection is made exactly when the last reply is a CNXN and no call has failed. -/
  connected : r = .ok () ↔ (∃ f, (replies new).getLast? = some f ∧ f.header.command = kCnxn) ∧
    (∀ f, .unsent f ∉ new) ∧ (replies new).length = (Adbcpp.attempts new).length ∧ Signs signer (replies new)
  /-- The connection says what the last reply says, and whether the key was offered. -/
  result : r = .ok () → ∀ f, (replies new).getLast? = some f → c' =
    { session := c'.session, deviceVersion := f.header.arg0, maxData := f.header.arg1,
      features := parseFeatures f.payload, deviceSerial := parseSerial f.payload,
      delayedAck := advertise && (parseFeatures f.payload).contains kDelayedAckFeature,
      requestedAuthorization := decide (offers publicKey signer (replies new) ≠ []) }

/-- The end of a handshake, with the last reply. -/
def finish (advertise : Bool) (frame : Frame) : Action (Connection Dialogue) Unit :=
  if frame.header.command ≠ kCnxn then
    Prog.fail (.of .protocol "unexpected response to the CNXN message")
  else
    Prog.modify (establish advertise frame)

/-- The first question and its reply, or the end without one. -/
theorem run_connect (codecs : Codecs) (publicKey : List Byte) (signer : Option Signer) (advertise : Bool)
    (c : Connection Dialogue) : (connect codecs publicKey signer advertise).run c =
      (ask (cnxnFrame (identity codecs advertise)) >>= fun first =>
        authenticate publicKey signer first >>= finish advertise).run c := by
  rw [connect, Prog.run_bind_assoc, Prog.run_bind, run_announce, Prog.run_bind]
  rfl

/-- What a handshake does up to its last reply. -/
structure Asks (first : Frame) (publicKey : List Byte) (signer : Option Signer) (d : Dialogue)
    (new : List Event) (r : Except Error Frame) (c' : Connection Dialogue) : Prop where
  turns : TakesTurns new
  attempts : Adbcpp.attempts new = first ::
    (signatures signer (replies new) ++ offers publicKey signer (replies new))
  consumed : ∃ lost, d.inbox = (replies new).map .frame ++ (lost ++ c'.session.inbox) ∧
    ∀ f, .frame f ∉ lost
  atMost : (replies new).length ≤ 3
  unsent : ∀ f, .unsent f ∈ new → new.getLast? = some (.unsent f) ∧
    ∃ e, firstFailure d.outcomes = some e ∧ r = .error e
  reached : ∀ f, r = .ok f → (replies new).getLast? = some f ∧ (∀ f, .unsent f ∉ new) ∧
    (replies new).length = (Adbcpp.attempts new).length ∧ Signs signer (replies new)
  stuck : ∀ e, r = .error e → ∀ f, (replies new).getLast? = some f → f.header.command = kAuth
  result : ∀ f, r = .ok f → c' =
    { session := c'.session, requestedAuthorization := decide (offers publicKey signer (replies new) ≠ []) }

/-- A handshake that has not got its first reply. -/
theorem asks_first {first : Frame} {publicKey : List Byte} {signer : Option Signer} {d d' : Dialogue}
    {new : List Event} {e : Error} (h : Asked first d new (.error e) d') :
    Asks first publicKey signer d new (.error e) { session := d' } := by
  have hsigned : signatures signer [] = [] := by cases signer <;> rfl
  have hoffered : offers publicKey signer [] = [] := by cases signer <;> rfl
  cases h with
  | unsent he hinbox =>
    constructor <;> simp [TakesTurns, attempts, replies, hsigned, hoffered, he, hinbox]
  | silent _ lost hinbox hlost =>
    constructor <;> simp [TakesTurns, attempts, replies, hsigned, hoffered]
    exact ⟨lost, hinbox, hlost⟩

/-- A handshake that has just got the reply `g` that decides about the public key. -/
structure Decides (first : Frame) (signer : Option Signer) (d : Dialogue) (before : List Event) (g : Frame)
    (d₁ : Dialogue) : Prop where
  turns : ∀ new, TakesTurns new → TakesTurns (before ++ new)
  attempts : Adbcpp.attempts before = first :: signatures signer (replies before)
  signed : ∀ rest, signatures signer (replies before ++ rest) = signatures signer (replies before)
  signs : ∀ rest, Signs signer (replies before ++ rest)
  decisive : ∀ rest, Adbcpp.decisive signer (replies before ++ rest) = some g
  last : (replies before).getLast? = some g
  answered : (replies before).length = (signatures signer (replies before)).length + 1
  atMost : (replies before).length ≤ 2
  sent : ∀ f, .unsent f ∉ before
  inbox : d.inbox = (replies before).map .frame ++ d₁.inbox
  fails : firstFailure d₁.outcomes = firstFailure d.outcomes

/-- A handshake that has got the reply that decides, up to the last one. -/
theorem asks_decided {first g : Frame} {publicKey : List Byte} {signer : Option Signer} {d d₁ : Dialogue}
    {before new : List Event} {r : Except Error Frame} {c' : Connection Dialogue}
    (hd : Decides first signer d before g d₁) (h : Authorized publicKey g { session := d₁ } new r c') :
    Asks first publicKey signer d (before ++ new) r c' := by
  have hturns := hd.turns [] trivial
  have hsigns := hd.signs []
  have hatMost : (replies before).length ≤ 3 := Nat.le_succ_of_le hd.atMost
  have hoffers (rest : List Frame) : offers publicKey signer (replies before ++ rest) =
      if g.header.command = kAuth ∧ publicKey ≠ [] ∧ publicKey.length + 1 < 2 ^ 32 then
        [authFrame kAuthPublicKey (publicKey ++ [0])] else [] := by
    rw [offers, hd.decisive]
  have hoffers₀ := hoffers []
  rw [List.append_nil] at hturns hsigns hoffers₀
  cases h with
  | accepted hauth =>
    rw [if_neg fun h => hauth h.1] at hoffers₀
    constructor
    case atMost => simpa using hatMost
    all_goals simp [hturns, hsigns, hoffers₀, hauth, hd.attempts, hd.last, hd.sent, hd.inbox, hd.answered]
  | keyless e hauth hkey hsession =>
    rw [if_neg fun h => hkey h.2] at hoffers₀
    constructor <;> simp [hturns, hsigns, hatMost, hoffers₀, hauth, hd.attempts, hd.last, hd.sent, hd.inbox,
      hsession]
  | offered hauth hkey hlt h =>
    have hoffered (rest : List Frame) : offers publicKey signer (replies before ++ rest) =
        [authFrame kAuthPublicKey (publicKey ++ [0])] := by
      rw [hoffers, if_pos ⟨hauth, hkey, hlt⟩]
    rw [if_pos ⟨hauth, hkey, hlt⟩] at hoffers₀
    cases h with
    | unsent he hinbox =>
      constructor
      case turns => exact hd.turns _ trivial
      all_goals simp [hsigns, hatMost, hoffers₀, hauth, hd.attempts, hd.last, hd.sent, hd.inbox, hinbox,
        ← hd.fails, he]
    | silent e lost hinbox hlost =>
      constructor
      case turns => exact hd.turns _ trivial
      all_goals simp [hsigns, hatMost, hoffers₀, hauth, hd.attempts, hd.last, hd.sent, hd.inbox]
      exact ⟨lost, hinbox, hlost⟩
    | replied f hopen hf hinbox =>
      constructor
      case turns => exact hd.turns _ trivial
      case atMost =>
        rw [replies_append, List.length_append]
        exact Nat.succ_le_succ hd.atMost
      all_goals simp [hd.signs, hd.signed, hoffered, hd.attempts, hd.last, hd.sent, hd.inbox]
      case consumed => exact ⟨[], hinbox, by simp⟩
      case reached => exact hd.answered

/-- The one signature that the host sends, where the signer makes one that a header can tell the
length of. -/
theorem signatures_cons {sign : Signer} {f : Frame} {signature : List Byte} (hauth : f.header.command = kAuth)
    (hsign : sign f.payload = .ok signature) (hlt : signature.length < 2 ^ 32) (rest : List Frame) :
    signatures (some sign) (f :: rest) = [authFrame kAuthSignature signature] := by
  rw [signatures, if_pos hauth, hsign]
  exact if_pos hlt

/-- A handshake that has got its first reply, up to the last one. -/
theorem asks_replied {first f : Frame} {publicKey : List Byte} {signer : Option Signer} {d d₁ : Dialogue}
    (hinbox : d.inbox = .frame f :: d₁.inbox) (hfail : firstFailure d₁.outcomes = firstFailure d.outcomes)
    {new : List Event} {r : Except Error Frame} {c' : Connection Dialogue}
    (h : Authenticated publicKey signer f { session := d₁ } new r c') :
    Asks first publicKey signer d (.sent first :: .received f :: new) r c' := by
  cases h with
  | accepted hauth =>
    have hsigned : signatures signer [f] = [] := by cases signer <;> simp [signatures, hauth]
    have hoffered : offers publicKey signer [f] = [] := by
      cases signer <;> simp [offers, decisive, hauth]
    have hsigns : Signs signer [f] := by
      intro sign g rest _ hg ha
      cases hg
      exact absurd ha hauth
    constructor <;> simp [TakesTurns, hsigned, hoffered, hinbox, hsigns]
  | unsigned hauth hnone h =>
    subst hnone
    refine @asks_decided _ _ _ _ _ d₁ [.sent first, .received f] _ _ _ ?_ h
    constructor <;> simp [TakesTurns, signatures, decisive, hinbox, hfail, Signs]
  | failed e hauth hsome hsign =>
    subst hsome
    constructor <;> simp [TakesTurns, signatures, offers, decisive, hinbox, hauth]
    split
    next signature hok => exact if_neg (hsign signature hok)
    next => rfl
  | unanswered hauth hsome hsign hlt h =>
    subst hsome
    have hsigned := signatures_cons hauth hsign hlt
    cases h with
    | unsent he hd =>
      constructor <;> simp [TakesTurns, hsigned, offers, decisive, hinbox, hauth, ← hfail, he, hd]
    | silent e lost hd hlost =>
      constructor <;> simp [TakesTurns, hsigned, offers, decisive, hinbox, hauth]
      exact ⟨lost, hd, hlost⟩
  | @signed sign signature g _ _ _ d₂ _ hauth hsome hsign hlt h h' =>
    subst hsome
    have hsigned := signatures_cons hauth hsign hlt
    cases h with
    | replied _ hopen hf hd =>
      refine @asks_decided _ _ _ _ _ d₂
        [.sent first, .received f, .sent (authFrame kAuthSignature _), .received g] _ _ _ ?_ h'
      constructor
      case fails => exact hf.trans hfail
      all_goals simp [TakesTurns, hsigned, decisive, hinbox, Signs, hauth, hsign]
      exact hd

/-- Whatever the device sends, a handshake asks what the replies call for, and makes a connection of
the last one. -/
theorem connect_conforms (codecs : Codecs) (publicKey : List Byte) (signer : Option Signer)
    (advertise : Bool) {d : Dialogue} (hopen : d.closed = false) :
    ∃ new r c', (connect codecs publicKey signer advertise).run { session := d } = (r, c') ∧
      Conforms codecs publicKey signer advertise d new r c' := by
  suffices h : ∃ new r c₁, (ask (cnxnFrame (identity codecs advertise)) >>= authenticate publicKey signer).run
      { session := d } = (r, c₁) ∧ c₁.session.trace = d.trace ++ new ∧
        Asks (cnxnFrame (identity codecs advertise)) publicKey signer d new r c₁ by
    obtain ⟨new, r, c₁, hrun, htrace, h⟩ := h
    have hconnect : (connect codecs publicKey signer advertise).run { session := d } =
        (ask (cnxnFrame (identity codecs advertise)) >>= authenticate publicKey signer >>= finish advertise).run
          { session := d } := by
      rw [run_connect, Prog.run_bind_assoc]
    cases r with
    | error e =>
      have hlast : ¬ ∃ f, (replies new).getLast? = some f ∧ f.header.command = kCnxn := by
        rintro ⟨f, hf, hcnxn⟩
        exact absurd (hcnxn.symm.trans (h.stuck e rfl f hf)) (by decide)
      refine ⟨new, .error e, c₁, hconnect.trans (Prog.run_bind_error hrun), htrace, h.turns, h.attempts,
        h.consumed, h.atMost, fun f hf => ?_, by simp [hlast], by simp⟩
      obtain ⟨hend, e', he, hr⟩ := h.unsent f hf
      exact ⟨hend, e', he, by rw [Except.error.inj hr]⟩
    | ok f =>
      obtain ⟨hlast, hsent, hanswered, hsigns⟩ := h.reached f rfl
      have hunsent : ∀ g, .unsent g ∈ new → False := hsent
      rw [hconnect, Prog.run_bind_ok hrun, finish]
      by_cases hcnxn : f.header.command = kCnxn
      · rw [if_neg (not_not.mpr hcnxn)]
        refine ⟨new, .ok (), establish advertise f c₁, rfl, htrace, h.turns, h.attempts, h.consumed, h.atMost,
          fun f hf => (hunsent f hf).elim, by simp [hlast, hcnxn, hsent, hanswered, hsigns], ?_⟩
        intro _ g hg
        obtain rfl : f = g := Option.some.inj (hlast.symm.trans hg)
        rw [establish, h.result f rfl]
      · rw [if_pos hcnxn]
        refine ⟨new, _, c₁, rfl, htrace, h.turns, h.attempts, h.consumed, h.atMost,
          fun f hf => (hunsent f hf).elim, by simp [hlast, hcnxn], nofun⟩
  obtain ⟨new, r, d₁, hrun, htrace, hasked⟩ :=
    @run_ask { session := d } (cnxnFrame (identity codecs advertise)) hopen
    (Nat.mod_eq_of_lt (identity_lt codecs advertise))
  cases r with
  | error e => exact ⟨new, .error e, _, Prog.run_bind_error hrun, htrace, asks_first hasked⟩
  | ok f =>
    obtain ⟨new', r, c₁, hrun', htrace', h⟩ :=
      @run_authenticate { session := d₁ } publicKey signer f hasked.closed
    refine ⟨new ++ new', r, c₁, (Prog.run_bind_ok hrun).trans hrun', ?_, ?_⟩
    · rw [htrace', htrace, List.append_assoc]
    · cases hasked with
      | replied _ _ hfail hinbox => exact asks_replied hinbox hfail h

/-- A device that rejects the signature and accepts the key. -/
def pairingDevice : Dialogue where
  inbox := [.frame (authFrame 1 [7]), .frame (authFrame 1 [8]),
    .frame { header := { command := kCnxn, arg0 := kVersion, arg1 := 4096, dataLength := 31 },
             payload := bytesOf "device::0A::features=delayed_ack" }]

/-- The key is offered after the signature, and the connection has what the banner says. -/
example : (fun c' : Connection Dialogue => (c'.maxData, c'.features, c'.deviceSerial, c'.delayedAck,
    c'.requestedAuthorization)) ((connect {} [1, 2] (some fun token => .ok (token ++ token)) true).run
      { session := pairingDevice }).2 = (4096, [kDelayedAckFeature], bytesOf "0A", true, true) := by
  decide

theorem connect_conforms_pairing : ∃ new r c',
    (connect {} [1, 2] (some fun token => .ok (token ++ token)) true).run { session := pairingDevice } = (r, c') ∧
      Conforms {} [1, 2] (some fun token => .ok (token ++ token)) true pairingDevice new r c' :=
  connect_conforms {} [1, 2] (some fun token => .ok (token ++ token)) true rfl

/-- A signature that is too long for a header is not sent. -/
theorem not_connect_sendsSignature : ¬ ∀ (sign : Signer) (d : Dialogue) (new : List Event)
    (r : Except Error Unit) (c' : Connection Dialogue) (f : Frame) (signature : List Byte),
    d.closed = false → (connect {} [] (some sign) false).run { session := d } = (r, c') →
    c'.session.trace = d.trace ++ new → (replies new).head? = some f → f.header.command = kAuth →
    sign f.payload = .ok signature →
    ∃ m ∈ Adbcpp.attempts new, m.header.command = kAuth ∧ m.header.arg0 = kAuthSignature ∧ m.payload = signature := by
  intro h
  have hlong (n : Nat) (hn : ¬ n < 2 ^ 32) : False := by
    let sign : Signer := fun _ => .ok (List.replicate n 0)
    let d : Dialogue := { inbox := [.frame (authFrame 1 [7])] }
    let d₁ : Dialogue := {
      inbox := [],
      trace := [.sent (cnxnFrame (identity {} false)), .received (authFrame 1 [7])] }
    have hask : (ask (cnxnFrame (identity {} false))).run { session := d } =
        (.ok (authFrame 1 [7]), { session := d₁ }) := rfl
    obtain ⟨new, r, c', hrun, htrace, ha⟩ :=
      @run_authenticate { session := d₁ } [] (some sign) (authFrame 1 [7]) rfl
    have hfailed : new = [] ∧ ∃ e, r = .error e := by
      cases ha with
      | accepted hne => exact absurd rfl hne
      | unsigned _ hnone => exact nomatch hnone
      | failed e => exact ⟨rfl, e, rfl⟩
      | unanswered _ hsome hsign hlt =>
        cases hsome
        cases hsign
        exact absurd (by simpa using hlt) hn
      | signed _ hsome hsign hlt =>
        cases hsome
        cases hsign
        exact absurd (by simpa using hlt) hn
    obtain ⟨rfl, e, rfl⟩ := hfailed
    have hconnect : (connect {} [] (some sign) false).run { session := d } = (.error e, c') := by
      rw [run_connect, Prog.run_bind_ok hask, Prog.run_bind_error hrun]
    obtain ⟨m, hm, hauth, -⟩ := h sign d d₁.trace (.error e) c' _ _ rfl hconnect
      (by rw [htrace, List.append_nil]; rfl) rfl rfl rfl
    rw [show Adbcpp.attempts d₁.trace = [cnxnFrame (identity {} false)] from rfl, List.mem_singleton] at hm
    subst hm
    exact absurd hauth (by decide)
  exact hlong (2 ^ 32) (Nat.lt_irrefl _)

end Connection

end Adbcpp
