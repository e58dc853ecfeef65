import Adbcpp.Handshake.Conformance

/-! What the private key signs. The handshake is watched: what it hears, what it has the
signer sign and what it answers with the public key are noted in a log, and without
the log it is the handshake again. It reacts to every AUTH, whatever its type. -/

namespace Adbcpp

open Protocol

/-- A step of a handshake: a frame is received, the signer is called on the payload of one, or the
public key is sent in answer to one. -/
inductive Reaction
  | heard (f : Frame)
  | signed (f : Frame)
  | offered (f : Frame)
  deriving DecidableEq, Repr

/-- A connection with the log of its handshake. -/
structure Watched (σ : Type) where
  connection : Connection σ
  log : List Reaction := []

namespace Watched

variable {σ α : Type} [Channel σ]

def note (reaction : Reaction) : Action (Watched σ) Unit :=
  Prog.modify fun w => { w with log := w.log ++ [reaction] }

def onConnection (p : Action (Connection σ) α) : Action (Watched σ) α :=
  Prog.zoom Watched.connection (fun w c => { w with connection := c }) p

/-! ### The watched handshake -/

def receive : Action (Watched σ) Frame := do
  let frame ← onConnection Connection.receive
  note (.heard frame)
  pure frame

def sendSignature (sign : Signer) (frame : Frame) : Action (Watched σ) Unit := do
  note (.signed frame)
  onConnection (Connection.sendSignature sign frame.payload)

/-- The key is noted where it is sent, behind what may refuse it. -/
def sendPublicKey (publicKey : List Byte) (frame : Frame) : Action (Watched σ) Unit := do
  onConnection (Prog.modify fun c => { c with requestedAuthorization := true })
  if publicKey = [] then
    Prog.fail (.of .crypto "the device rejected the signature and no public key is available to request authorization")
  else do
    let key := publicKey ++ [0]
    let auth ← Prog.lift (makeAuth kAuthPublicKey key)
    note (.offered frame)
    onConnection (Connection.send auth key)

def authorize (publicKey : List Byte) (frame : Frame) : Action (Watched σ) Frame :=
  if frame.header.command = kAuth then do
    sendPublicKey publicKey frame
    receive
  else
    pure frame

def authenticate (publicKey : List Byte) (signer : Option Signer) (frame : Frame) :
    Action (Watched σ) Frame :=
  if frame.header.command = kAuth then
    match signer with
    | some sign => do
      sendSignature sign frame
      let frame ← receive
      authorize publicKey frame
    | none => authorize publicKey frame
  else
    pure frame

def connect (codecs : Codecs) (publicKey : List Byte) (signer : Option Signer)
    (advertiseDelayedAck : Bool) : Action (Watched σ) Unit := do
  onConnection (Connection.announce (identity codecs advertiseDelayedAck))
  let first ← receive
  let frame ← authenticate publicKey signer first
  if frame.header.command ≠ kCnxn then
    Prog.fail (.of .protocol "unexpected response to the CNXN message")
  else
    onConnection (Prog.modify (Connection.establish advertiseDelayedAck frame))

/-! ### Without the log -/

/-- The connection of a watched one. -/
def Shows (w : Watched σ) (c : Connection σ) : Prop := w.connection = c

omit [Channel σ] in
theorem onConnection_inStep (p : Action (Connection σ) α) : Prog.InStep Shows (onConnection p) p := by
  rintro w c rfl
  unfold onConnection
  rw [Prog.run_zoom]
  cases hrun : p.run w.connection with
  | mk r c =>
    cases r with
    | ok a => exact .ok a rfl
    | error e => exact .error e rfl

omit [Channel σ] in
theorem note_inStep (reaction : Reaction) {p : Action (Watched σ) α} {q : Action (Connection σ) α}
    (h : Prog.InStep Shows p q) : Prog.InStep Shows (note reaction >>= fun _ => p) q := by
  rintro w c rfl
  exact h _ _ rfl

theorem run_receive (w : Watched σ) : receive.run w = match Connection.receive.run w.connection with
    | (.ok f, c) => (.ok f, { connection := c, log := w.log ++ [.heard f] })
    | (.error e, c) => (.error e, { w with connection := c }) := by
  unfold receive onConnection
  rw [Prog.run_bind, Prog.run_zoom]
  cases hrun : Connection.receive.run w.connection with
  | mk r c => cases r <;> rfl

theorem receive_inStep : Prog.InStep Shows (receive (σ := σ)) Connection.receive := by
  rintro w c rfl
  rw [run_receive]
  cases hrun : Connection.receive.run w.connection with
  | mk r c =>
    cases r with
    | ok f => exact .ok f rfl
    | error e => exact .error e rfl

theorem sendSignature_inStep (sign : Signer) (frame : Frame) :
    Prog.InStep Shows (sendSignature (σ := σ) sign frame) (Connection.sendSignature sign frame.payload) :=
  note_inStep _ (onConnection_inStep _)

theorem sendPublicKey_inStep (publicKey : List Byte) (frame : Frame) :
    Prog.InStep Shows (sendPublicKey (σ := σ) publicKey frame) (Connection.sendPublicKey publicKey) := by
  apply Prog.InStep.bind (onConnection_inStep _)
  intro _
  apply Prog.InStep.ite Iff.rfl (Prog.InStep.fail _)
  apply Prog.InStep.bind (Prog.InStep.lift _)
  intro auth
  exact note_inStep _ (onConnection_inStep _)

theorem authorize_inStep (publicKey : List Byte) (frame : Frame) :
    Prog.InStep Shows (authorize (σ := σ) publicKey frame) (Connection.authorize publicKey frame) := by
  apply Prog.InStep.ite Iff.rfl _ (Prog.InStep.pure _)
  exact Prog.InStep.bind (sendPublicKey_inStep publicKey frame) fun _ => receive_inStep

theorem authenticate_inStep (publicKey : List Byte) (signer : Option Signer) (frame : Frame) :
    Prog.InStep Shows (authenticate (σ := σ) publicKey signer frame)
      (Connection.authenticate publicKey signer frame) := by
  apply Prog.InStep.ite Iff.rfl _ (Prog.InStep.pure _)
  cases signer with
  | none => exact authorize_inStep publicKey frame
  | some sign =>
    apply Prog.InStep.bind (sendSignature_inStep sign frame)
    intro _
    apply Prog.InStep.bind receive_inStep
    intro frame
    exact authorize_inStep publicKey frame

/-- The watched handshake is the handshake. -/
theorem connect_inStep (codecs : Codecs) (publicKey : List Byte) (signer : Option Signer) (advertise : Bool) :
    Prog.InStep Shows (connect (σ := σ) codecs publicKey signer advertise)
      (Connection.connect codecs publicKey signer advertise) := by
  apply Prog.InStep.bind (onConnection_inStep _)
  intro _
  apply Prog.InStep.bind receive_inStep
  intro first
  apply Prog.InStep.bind (authenticate_inStep publicKey signer first)
  intro frame
  exact Prog.InStep.ite Iff.rfl (Prog.InStep.fail _) (onConnection_inStep _)

/-! ### The log -/

/-- There is a key to offer, and a header can tell its length with the NUL. -/
def Offerable (publicKey : List Byte) : Prop := publicKey ≠ [] ∧ publicKey.length + 1 < 2 ^ 32

/-- How the answer to a frame with the public key goes. -/
inductive Authorizing (publicKey : List Byte) (f : Frame) : List Reaction → Except Error Frame → Prop
  | plain : f.header.command ≠ kAuth → Authorizing publicKey f [] (.ok f)
  | keyless {e : Error} : f.header.command = kAuth → ¬ Offerable publicKey →
      Authorizing publicKey f [] (.error e)
  | unanswered {e : Error} : f.header.command = kAuth → Offerable publicKey →
      Authorizing publicKey f [.offered f] (.error e)
  | answered {g : Frame} : f.header.command = kAuth → Offerable publicKey →
      Authorizing publicKey f [.offered f, .heard g] (.ok g)

/-- How the authentication after the first frame goes. -/
inductive Authenticating (publicKey : List Byte) (signer : Option Signer) (f : Frame) :
    List Reaction → Except Error Frame → Prop
  | plain : f.header.command ≠ kAuth → Authenticating publicKey signer f [] (.ok f)
  | unsigned {e : Error} : f.header.command = kAuth → signer.isSome = true →
      Authenticating publicKey signer f [.signed f] (.error e)
  | signed {g : Frame} {new : List Reaction} {r : Except Error Frame} : f.header.command = kAuth →
      signer.isSome = true → Authorizing publicKey g new r →
      Authenticating publicKey signer f (.signed f :: .heard g :: new) r
  | unable {new : List Reaction} {r : Except Error Frame} : f.header.command = kAuth →
      signer.isSome = false → Authorizing publicKey f new r → Authenticating publicKey signer f new r

/-- How a handshake goes. -/
inductive Connecting (publicKey : List Byte) (signer : Option Signer) :
    List Reaction → Except Error Unit → Prop
  | silent {e : Error} : Connecting publicKey signer [] (.error e)
  | failed {f : Frame} {new : List Reaction} {e : Error} : Authenticating publicKey signer f new (.error e) →
      Connecting publicKey signer (.heard f :: new) (.error e)
  | refused {f g : Frame} {new : List Reaction} {e : Error} : Authenticating publicKey signer f new (.ok g) →
      Connecting publicKey signer (.heard f :: new) (.error e)
  | connected {f g : Frame} {new : List Reaction} : Authenticating publicKey signer f new (.ok g) →
      g.header.command = kCnxn → Connecting publicKey signer (.heard f :: new) (.ok ())

theorem sendPublicKey_keyless {publicKey : List Byte} (h : ¬ Offerable publicKey) (f : Frame) (w : Watched σ) :
    ∃ e w', (sendPublicKey publicKey f).run w = (.error e, w') ∧ w'.log = w.log := by
  unfold sendPublicKey
  by_cases hnil : publicKey = []
  · rw [if_pos hnil]
    exact ⟨_, _, rfl, rfl⟩
  · rw [if_neg hnil]
    have hlong : ¬ (publicKey ++ [0]).length < 2 ^ 32 := by
      intro hlt
      rw [List.length_append] at hlt
      exact h ⟨hnil, hlt⟩
    obtain ⟨e, he⟩ := Connection.makeAuth_error kAuthPublicKey hlong
    dsimp only
    rw [he]
    exact ⟨_, _, rfl, rfl⟩

theorem sendPublicKey_offered {publicKey : List Byte} (h : Offerable publicKey) (f : Frame) (w : Watched σ) :
    ((sendPublicKey publicKey f).run w).2.log = w.log ++ [.offered f] := by
  have hshort : (publicKey ++ [0]).length < 2 ^ 32 := by
    rw [List.length_append]
    exact h.2
  unfold sendPublicKey
  rw [if_neg h.1]
  dsimp only
  rw [Connection.makeAuth_ok kAuthPublicKey hshort]
  rfl

theorem authorize_authorizing (publicKey : List Byte) (f : Frame) (w : Watched σ) :
    ∃ new, ((authorize publicKey f).run w).2.log = w.log ++ new ∧
      Authorizing publicKey f new ((authorize publicKey f).run w).1 := by
  unfold authorize
  by_cases hauth : f.header.command = kAuth
  · rw [if_pos hauth, Prog.run_bind]
    by_cases hkey : Offerable publicKey
    · have hlog := sendPublicKey_offered hkey f w
      cases hrun : (sendPublicKey publicKey f).run w with
      | mk r w' =>
        rw [hrun] at hlog
        cases r with
        | error e => exact ⟨_, hlog, .unanswered hauth hkey⟩
        | ok sent =>
          dsimp only at hlog ⊢
          rw [run_receive]
          cases Connection.receive.run w'.connection with
          | mk r c =>
            cases r with
            | error e => exact ⟨_, hlog, .unanswered hauth hkey⟩
            | ok g =>
              refine ⟨[.offered f, .heard g], ?_, .answered hauth hkey⟩
              simp [hlog]
    · obtain ⟨e, w', hrun, hlog⟩ := sendPublicKey_keyless hkey f w
      rw [hrun]
      exact ⟨[], by rw [List.append_nil, hlog], .keyless hauth hkey⟩
  · rw [if_neg hauth]
    exact ⟨[], (List.append_nil _).symm, .plain hauth⟩

theorem authenticate_authenticating (publicKey : List Byte) (signer : Option Signer) (f : Frame) (w : Watched σ) :
    ∃ new, ((authenticate publicKey signer f).run w).2.log = w.log ++ new ∧
      Authenticating publicKey signer f new ((authenticate publicKey signer f).run w).1 := by
  unfold authenticate
  by_cases hauth : f.header.command = kAuth
  · rw [if_pos hauth]
    cases signer with
    | none =>
      obtain ⟨new, hlog, h⟩ := authorize_authorizing publicKey f w
      exact ⟨new, hlog, .unable hauth rfl h⟩
    | some sign =>
      dsimp only
      have hlog : ((sendSignature sign f).run w).2.log = w.log ++ [.signed f] := rfl
      rw [Prog.run_bind]
      cases hrun : (sendSignature sign f).run w with
      | mk r w' =>
        rw [hrun] at hlog
        cases r with
        | error e => exact ⟨_, hlog, .unsigned hauth rfl⟩
        | ok sent =>
          dsimp only
          rw [Prog.run_bind, run_receive]
          cases Connection.receive.run w'.connection with
          | mk r c =>
            cases r with
            | error e => exact ⟨_, hlog, .unsigned hauth rfl⟩
            | ok g =>
              dsimp only
              obtain ⟨new, hlog', h⟩ := authorize_authorizing publicKey g
                { connection := c, log := w'.log ++ [.heard g] }
              refine ⟨.signed f :: .heard g :: new, ?_, .signed hauth rfl h⟩
              rw [hlog', hlog]
              simp
  · rw [if_neg hauth]
    exact ⟨[], (List.append_nil _).symm, .plain hauth⟩

omit [Channel σ] in
/-- How a handshake ends on the frame that its authentication returns. -/
theorem establish_connecting {publicKey : List Byte} {signer : Option Signer} {f g : Frame}
    {new : List Reaction} {w : Watched σ} (advertise : Bool) (hlog : w.log = .heard f :: new)
    (h : Authenticating publicKey signer f new (.ok g)) {p : Action (Watched σ) Unit}
    (hp : p = if g.header.command ≠ kCnxn then
      Prog.fail (.of .protocol "unexpected response to the CNXN message")
    else
      onConnection (Prog.modify (Connection.establish advertise g))) :
    Connecting publicKey signer (p.run w).2.log (p.run w).1 := by
  subst hp
  by_cases hcnxn : g.header.command = kCnxn
  · rw [if_neg (not_not.mpr hcnxn)]
    have hend : ((onConnection (Prog.modify (Connection.establish advertise g))).run w).2.log = w.log := rfl
    rw [hend, hlog]
    exact .connected h hcnxn
  · rw [if_pos hcnxn]
    have hend : ((Prog.fail (.of .protocol "unexpected response to the CNXN message") :
        Action (Watched σ) Unit).run w).2.log = w.log := rfl
    rw [hend, hlog]
    exact .refused h

theorem connect_connecting (codecs : Codecs) (publicKey : List Byte) (signer : Option Signer)
    (advertise : Bool) (c : Connection σ) :
    Connecting publicKey signer ((connect codecs publicKey signer advertise).run { connection := c }).2.log
      ((connect codecs publicKey signer advertise).run { connection := c }).1 := by
  unfold connect
  rw [Prog.run_bind]
  have hlog : ((onConnection (Connection.announce (identity codecs advertise))).run { connection := c }).2.log =
      ([] : List Reaction) := rfl
  cases hrun : (onConnection (Connection.announce (identity codecs advertise))).run { connection := c } with
  | mk r w =>
    rw [hrun] at hlog
    dsimp only at hlog
    cases r with
    | error e =>
      dsimp only
      rw [hlog]
      exact .silent
    | ok sent =>
      dsimp only
      rw [Prog.run_bind, run_receive]
      cases Connection.receive.run w.connection with
      | mk r c =>
        cases r with
        | error e =>
          dsimp only
          rw [hlog]
          exact .silent
        | ok f =>
          dsimp only
          rw [hlog, List.nil_append, Prog.run_bind]
          obtain ⟨new, hlog', h⟩ := authenticate_authenticating publicKey signer f
            { connection := c, log := [.heard f] }
          cases hrun' : (authenticate publicKey signer f).run { connection := c, log := [.heard f] } with
          | mk r w' =>
            rw [hrun'] at hlog' h
            dsimp only at hlog' h
            cases r with
            | error e =>
              dsimp only
              rw [hlog']
              exact .failed h
            | ok g =>
              dsimp only
              exact establish_connecting advertise hlog' h rfl

/-! ### Tokens -/

/-- The frames of a log, in the order in which they were received. -/
def heard (log : List Reaction) : List Frame :=
  log.filterMap fun
    | .heard f => some f
    | _ => none

/-- An AUTH with a token to sign. -/
def IsToken (f : Frame) : Prop := f.header.command = kAuth ∧ f.header.arg0 = kAuthToken

/-- The signer and the key are for tokens only, and any other AUTH makes the handshake fail. -/
structure ForTokensOnly (log : List Reaction) (r : Except Error Unit) : Prop where
  signed : ∀ f, .signed f ∈ log → IsToken f
  offered : ∀ f, .offered f ∈ log → IsToken f
  others : ∀ f, .heard f ∈ log → f.header.command = kAuth → f.header.arg0 ≠ kAuthToken → ∃ e, r = .error e

/-- The device asks with tokens: the first frame is none but a token if it is an AUTH and there is a
signer, and neither is the frame that the key would be offered for, if there is a key. -/
def AsksWithTokens (publicKey : List Byte) (signer : Option Signer) (frames : List Frame) : Prop :=
  (signer.isSome = true → ∀ f, frames[0]? = some f → f.header.command = kAuth → f.header.arg0 = kAuthToken) ∧
    (Offerable publicKey → ∀ f, decisive signer frames = some f → f.header.command = kAuth →
      f.header.arg0 = kAuthToken)

theorem forTokensOnly_def (log : List Reaction) (r : Except Error Unit) : ForTokensOnly log r ↔
    (∀ f, .signed f ∈ log → IsToken f) ∧ (∀ f, .offered f ∈ log → IsToken f) ∧
      ∀ f, .heard f ∈ log → f.header.command = kAuth → f.header.arg0 ≠ kAuthToken → ∃ e, r = .error e :=
  ⟨fun h => ⟨h.signed, h.offered, h.others⟩, fun h => ⟨h.1, h.2.1, h.2.2⟩⟩

theorem forTokensOnly_iff {publicKey : List Byte} {signer : Option Signer} {log : List Reaction}
    {r : Except Error Unit} (h : Connecting publicKey signer log r) :
    ForTokensOnly log r ↔ AsksWithTokens publicKey signer (heard log) := by
  rw [forTokensOnly_def, AsksWithTokens]
  have hcnxn : kAuth ≠ kCnxn := by decide
  cases h with
  | silent => simp [heard, decisive]
  | failed h =>
    cases h with
    | unsigned hauth hsigner => simp [heard, decisive, IsToken, hauth, hsigner]
    | signed hauth hsigner h =>
      cases h with
      | keyless hauth' hkey => simp [heard, decisive, IsToken, hauth, hsigner, hauth', hkey]
      | unanswered hauth' hkey => simp [heard, decisive, IsToken, hauth, hsigner, hauth', hkey]
    | unable hauth hsigner h =>
      cases h with
      | keyless _ hkey => simp [heard, decisive, IsToken, hauth, hsigner, hkey]
      | unanswered _ hkey => simp [heard, decisive, IsToken, hauth, hsigner, hkey]
  | refused h =>
    cases h with
    | plain hauth => simp [heard, decisive, IsToken, hauth]
    | signed hauth hsigner h =>
      cases h with
      | plain hauth' => simp [heard, decisive, IsToken, hauth, hsigner, hauth']
      | answered hauth' hkey => simp [heard, decisive, IsToken, hauth, hsigner, hauth', hkey]
    | unable hauth hsigner h =>
      cases h with
      | plain hauth' => exact absurd hauth hauth'
      | answered _ hkey => simp [heard, decisive, IsToken, hauth, hsigner, hkey]
  | connected h hg =>
    cases h with
    | plain hauth => simp [heard, decisive, IsToken, hauth]
    | signed hauth hsigner h =>
      cases h with
      | plain hauth' => simp [heard, decisive, IsToken, hauth, hsigner, hauth']
      | answered hauth' hkey =>
        simp [heard, decisive, IsToken, hauth, hsigner, hauth', hkey, hg, hcnxn.symm]
        exact And.intro
    | unable hauth hsigner h =>
      cases h with
      | plain hauth' => exact absurd hauth hauth'
      | answered _ hkey => simp [heard, decisive, IsToken, hauth, hsigner, hkey, hg, hcnxn.symm]

/-- A handshake keeps the signer and the key to tokens exactly when the device asks with tokens. -/
theorem connect_forTokensOnly (codecs : Codecs) (publicKey : List Byte) (signer : Option Signer)
    (advertise : Bool) (c : Connection σ) :
    (Connection.connect codecs publicKey signer advertise).run c =
        (((connect codecs publicKey signer advertise).run { connection := c }).1,
          ((connect codecs publicKey signer advertise).run { connection := c }).2.connection) ∧
      (ForTokensOnly ((connect codecs publicKey signer advertise).run { connection := c }).2.log
          ((connect codecs publicKey signer advertise).run { connection := c }).1 ↔
        AsksWithTokens publicKey signer
          (heard ((connect codecs publicKey signer advertise).run { connection := c }).2.log)) := by
  constructor
  · have hsame := connect_inStep codecs publicKey signer advertise { connection := c } c rfl
    exact Prod.ext hsame.result.symm hsame.state.symm
  · exact forTokensOnly_iff (connect_connecting codecs publicKey signer advertise c)

/-- The payload of an AUTH of another type is signed. -/
theorem not_connect_forTokensOnly : ¬ ∀ (sign : Signer) (d : Dialogue),
    ForTokensOnly ((connect {} [] (some sign) false).run { connection := { session := d } }).2.log
      ((connect {} [] (some sign) false).run { connection := { session := d } }).1 := by
  intro h
  have htokens := h (fun token => .ok token) { inbox := [.frame (authFrame kAuthSignature [7])] }
  have hsigned := htokens.signed (authFrame kAuthSignature [7]) (by decide)
  exact absurd hsigned.2 (by decide)

end Watched

end Adbcpp
