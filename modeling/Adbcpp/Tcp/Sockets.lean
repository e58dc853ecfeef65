import Adbcpp.Tcp.Opening

/-! What the TCP transport holds of the system. The addresses of a host are given back when
opening is over, a socket that does not connect is closed before the next one is made, and
the one that does belongs to the transport until it is closed or destroyed. Over any life
of any transports no socket is used or closed that is not open, and none is left over. -/

namespace Adbcpp.Tcp.Sockets

open Registry

inductive Resource
  | addresses
  | socket
  deriving DecidableEq, Repr

abbrev Held := Multiset (Lease Resource)

def addressesLease (addresses : ℕ) : Lease Resource := ⟨addresses, .addresses, none⟩

def socketLease (socket : ℕ) : Lease Resource := ⟨socket, .socket, none⟩

/-! ### The functions -/

/-- A socket that is connected to the address, if there is one. -/
def tryAddress (address : Address) : Action (Registry Resource) (Option ℕ) :=
  if !address.socket then pure none
  else do
    let socket ← acquire .socket none
    use socket
    if address.connectWithTimeout then pure (some socket)
    else do
      release socket
      pure none

/-- The loop over the addresses: the first one that connects is used. -/
def connectFirst (addresses : ℕ) : List (Address × ℕ) → Action (Registry Resource) (Option (ℕ × ℕ))
  | [] => pure none
  | (address, i) :: rest => do
    use addresses
    match ← tryAddress address with
    | some socket => pure (some (socket, i))
    | none => connectFirst addresses rest

/-- The fields of `TcpTransport::Impl` that are about the socket. -/
structure Impl where
  /-- The socket, or `kInvalidSocket`. -/
  socket : Option ℕ := none
  deriving DecidableEq, Repr

def Impl.destroy (impl : Impl) : Action (Registry Resource) Unit :=
  match impl.socket with
  | none => pure ()
  | some socket => release socket

def Impl.close (impl : Impl) : Action (Registry Resource) Impl :=
  match impl.socket with
  | none => pure impl
  | some socket => do
    release socket
    pure { socket := none }

/-- A read, a write or a change of the time-outs. On `kInvalidSocket` there is nothing that it could touch. -/
def Impl.call (impl : Impl) : Action (Registry Resource) Impl :=
  match impl.socket with
  | none => pure impl
  | some socket => do
    use socket
    pure impl

/-- The end of opening, where the addresses are known. -/
def connect (net : Network) (endpoint : List Byte) (addresses : List Address) :
    Action (Registry Resource) (Impl × Opened) := do
  let found ← acquire .addresses none
  let connected ← connectFirst found addresses.zipIdx
  release found
  match connected with
  | none => Prog.fail (unconnected net endpoint)
  | some (socket, i) => do
    -- `TCP_NODELAY` and both time-outs are set.
    use socket
    pure ({ socket := some socket }, { address := i, endpoint })

def «open» (net : Network) (endpoint : List Byte) : Action (Registry Resource) (Impl × Opened) :=
  match resolve net endpoint with
  | .error e => Prog.fail e
  | .ok addresses => connect net endpoint addresses

/-! ### What they keep -/

/-- What is held through the field of a transport. -/
def Impl.leases (impl : Impl) : Held := impl.socket.elim 0 fun socket => {socketLease socket}

section Keeping

variable {L : Held} {E : Error → Registry Resource → Prop}

theorem leases_closed : Impl.leases { socket := none } + L = L := Multiset.zero_add L

theorem leases_open (socket : ℕ) : Impl.leases { socket := some socket } + L = socketLease socket ::ₘ L :=
  Multiset.singleton_add _ L

theorem leases_rooted : Rooted Impl.leases := by
  rintro ⟨_ | socket⟩ L hL
  · rw [leases_closed]
    exact hL
  · rw [leases_open]
    exact hL.root socket .socket

theorem destroy_owes (impl : Impl) (hL : Tidy L) :
    Prog.Triple (Owes (impl.leases + L)) impl.destroy (fun _ => Owes L) E := by
  obtain ⟨_ | socket⟩ := impl
  · rw [leases_closed]
    exact Prog.Triple.pure fun _ hs => hs
  · rw [leases_open]
    exact release_owes (socketLease socket) hL

theorem close_owes (impl : Impl) (hL : Tidy L) :
    Prog.Triple (Owes (impl.leases + L)) impl.close (fun closed => Owes (closed.leases + L)) E := by
  obtain ⟨_ | socket⟩ := impl
  · exact Prog.Triple.pure fun _ hs => hs
  · rw [leases_open]
    refine Prog.Triple.bind (release_owes (socketLease socket) hL) fun _ => ?_
    exact Prog.Triple.pure fun _ hs => by rwa [leases_closed]

theorem call_owes (impl : Impl) :
    Prog.Triple (Owes (impl.leases + L)) impl.call (fun after => Owes (after.leases + L)) E := by
  obtain ⟨_ | socket⟩ := impl
  · exact Prog.Triple.pure fun _ hs => hs
  · rw [leases_open]
    refine Prog.Triple.bind (use_owes (Multiset.mem_cons_self (socketLease socket) L)) fun _ => ?_
    exact Prog.Triple.pure fun _ hs => by rwa [leases_open]

/-- An address gives a socket just where it takes the connection. -/
theorem tryAddress_owes (address : Address) (hL : Tidy L) :
    Prog.Triple (Owes L) (tryAddress address)
      (fun found s => found.isSome = address.takes ∧ Owes (Impl.leases { socket := found } + L) s) E := by
  unfold tryAddress
  refine Prog.Triple.ite (fun hsocket => ?_) fun hsocket => ?_
  · refine Prog.Triple.pure fun _ hs => ⟨by simp_all [Address.takes], ?_⟩
    rwa [leases_closed]
  · refine Prog.Triple.bind (acquire_root_owes Resource.socket) fun socket => ?_
    refine Prog.Triple.bind (use_owes (l := socketLease socket) (Multiset.mem_cons_self _ L)) fun _ => ?_
    refine Prog.Triple.ite (fun hconnect => ?_) fun hconnect => ?_
    · refine Prog.Triple.pure fun _ hs => ⟨by simp_all [Address.takes], ?_⟩
      rwa [leases_open]
    · refine Prog.Triple.bind (release_owes (socketLease socket) hL) fun _ => ?_
      refine Prog.Triple.pure fun _ hs => ⟨by simp_all [Address.takes], ?_⟩
      rwa [leases_closed]

/-- The loop ends at the first address that takes the connection, with the socket of that one and no other. -/
theorem connectFirst_owes {addresses : ℕ} (haddresses : addressesLease addresses ∈ L) (hL : Tidy L)
    (list : List (Address × ℕ)) :
    Prog.Triple (Owes L) (connectFirst addresses list)
      (fun found s =>
        found.map Prod.snd = (list.find? fun head => head.1.takes).map Prod.snd ∧
          Owes (Impl.leases { socket := found.map Prod.fst } + L) s) E := by
  induction list with
  | nil => exact Prog.Triple.pure fun _ hs => ⟨rfl, by rwa [Option.map_none, leases_closed]⟩
  | cons head rest ih =>
    obtain ⟨address, i⟩ := head
    refine Prog.Triple.bind (use_owes haddresses) fun _ => ?_
    refine Prog.Triple.bind (tryAddress_owes address hL) fun found => Prog.Triple.and_pre fun hfound => ?_
    rw [List.find?_cons]
    dsimp only
    rw [← hfound]
    cases found with
    | some socket => exact Prog.Triple.pure fun _ hs => ⟨rfl, hs⟩
    | none =>
      rw [leases_closed]
      exact ih

theorem connect_owes (net : Network) (endpoint : List Byte) (addresses : List Address) :
    Prog.Triple (Owes L) (connect net endpoint addresses)
      (fun a s => chosen net endpoint addresses = .ok a.2 ∧ Owes (a.1.leases + L) s)
      (fun e s => chosen net endpoint addresses = .error e ∧ Owes L s) := by
  unfold connect
  refine tidy_pre fun hL => ?_
  refine Prog.Triple.bind (acquire_root_owes Resource.addresses) fun found => ?_
  have htidy : Tidy (addressesLease found ::ₘ L) := hL.root found .addresses
  refine Prog.Triple.bind (connectFirst_owes (Multiset.mem_cons_self _ L) htidy addresses.zipIdx) fun connected =>
    Prog.Triple.and_pre fun hfirst => ?_
  rw [Multiset.add_cons]
  refine Prog.Triple.bind (release_owes (addressesLease found) (leases_rooted _ L hL)) fun _ => ?_
  rw [← firstTaking] at hfirst
  cases connected with
  | none =>
    rw [Option.map_none, leases_closed]
    have hnone : firstTaking addresses = none := by simpa using hfirst.symm
    exact Prog.Triple.fail fun _ hs => ⟨by rw [chosen, hnone], hs⟩
  | some made =>
    obtain ⟨socket, i⟩ := made
    rw [Option.map_some, leases_open]
    obtain ⟨address, hsome⟩ : ∃ address, firstTaking addresses = some (address, i) := by
      simpa using hfirst.symm
    refine Prog.Triple.bind (use_owes (Multiset.mem_cons_self (socketLease socket) L)) fun _ => ?_
    refine Prog.Triple.pure fun _ hs => ⟨by rw [chosen, hsome], ?_⟩
    rwa [leases_open]

/-- Opening comes to what `opened` says, and holds afterwards the socket of the transport and nothing more. -/
theorem open_owes (net : Network) (endpoint : List Byte) :
    Prog.Triple (Owes L) («open» net endpoint)
      (fun a s => opened net endpoint = .ok a.2 ∧ Owes (a.1.leases + L) s)
      (fun e s => opened net endpoint = .error e ∧ Owes L s) := by
  unfold «open» opened
  cases resolve net endpoint with
  | error e => exact Prog.Triple.fail fun _ hs => ⟨rfl, hs⟩
  | ok addresses => exact connect_owes net endpoint addresses

end Keeping

/-! ### Lives -/

/-- What a program does next with its transports. The network may be another one at every step. -/
inductive Operation
  | «open» (net : Network) (endpoint : List Byte)
  /-- Reads, writes or changes the time-outs of one of them. -/
  | call (i : ℕ)
  | close (i : ℕ)
  | destroy (i : ℕ)

/-- What the caller is told, which is of interest where a transport is opened. -/
def Operation.answer : Operation → Option (Except Error Opened)
  | .open net endpoint => some (opened net endpoint)
  | _ => none

def Operation.run (transports : List Impl) :
    Operation → Action (Registry Resource) (Option (Except Error Opened) × List Impl)
  | .open net endpoint => do
    match ← Prog.attempt (Sockets.open net endpoint) with
    | .error e => pure (some (.error e), transports)
    | .ok (impl, opened) => pure (some (.ok opened), impl :: transports)
  | .call i => do
    let after ← change i Impl.call transports
    pure (none, after)
  | .close i => do
    let after ← change i Impl.close transports
    pure (none, after)
  | .destroy i => do
    let left ← drop i Impl.destroy transports
    pure (none, left)

/-- What an operation keeps. -/
theorem run_honest : Honest Impl.leases Operation.run Operation.answer := by
  intro op transports
  cases op with
  | «open» net endpoint =>
    refine Prog.Triple.bind (Prog.Triple.attempt (open_owes net endpoint)) fun r => ?_
    cases r with
    | error e => exact Prog.Triple.pure fun _ hs => ⟨congrArg some hs.1.symm, hs.2⟩
    | ok a =>
      refine Prog.Triple.pure fun _ hs => ⟨congrArg some hs.1.symm, ?_⟩
      rw [owing_cons]
      exact hs.2
  | call i =>
    refine Prog.Triple.bind (change_owes leases_rooted (fun impl _ _ => call_owes impl) i transports) fun after => ?_
    exact Prog.Triple.pure fun _ hs => ⟨rfl, hs⟩
  | close i =>
    refine Prog.Triple.bind (change_owes leases_rooted (fun impl _ hL => close_owes impl hL) i transports) fun after => ?_
    exact Prog.Triple.pure fun _ hs => ⟨rfl, hs⟩
  | destroy i =>
    refine Prog.Triple.bind (drop_owes leases_rooted (fun impl _ hL => destroy_owes impl hL) i transports) fun left => ?_
    exact Prog.Triple.pure fun _ hs => ⟨rfl, hs⟩

/-- A program that starts with nothing is connected, where it opens a transport, to the first address that takes
the connection. It has at the end just the sockets of its transports that are not closed,
and has never used or closed one that was not open. -/
theorem life_of_sockets (ops : List Operation) : ∃ transports s,
    (life Operation.run ops []).run {} = (.ok (ops.map Operation.answer, transports), s) ∧
    (s.held : Held) = owing Impl.leases transports ∧ s.misused = false := life_run run_honest ops

end Adbcpp.Tcp.Sockets
