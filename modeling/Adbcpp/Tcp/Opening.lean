import Adbcpp.Library.Registry
import Adbcpp.Tcp.Transport

/-! Opening a TCP transport. The endpoint is a host and a port behind its last colon, and
the host may stand in brackets. The host has some addresses, which are tried in order
until a connection is made, each with a socket of its own. -/

namespace Adbcpp.Tcp

/-! ### Endpoints -/

section Splitting

variable {α : Type} [DecidableEq α]

/-- What stands before the last `c` of a text, and what stands behind it. -/
def splitLast (c : α) : List α → Option (List α × List α)
  | [] => none
  | x :: rest => match splitLast c rest with
    | some (before, behind) => some (x :: before, behind)
    | none => if x = c then some ([], rest) else none

theorem splitLast_eq_none_iff (c : α) (text : List α) : splitLast c text = none ↔ c ∉ text := by
  induction text with
  | nil => simp [splitLast]
  | cons x rest ih =>
    rw [splitLast]
    cases hrest : splitLast c rest with
    | none =>
      have hmem := ih.mp hrest
      by_cases hx : x = c
      · simp [hx]
      · simp [hx, hmem, Ne.symm hx]
    | some parts =>
      rw [hrest] at ih
      have hmem : c ∈ rest := by simpa using ih
      simp [hmem]

theorem splitLast_eq_some_iff (c : α) (text before behind : List α) :
    splitLast c text = some (before, behind) ↔ text = before ++ c :: behind ∧ c ∉ behind := by
  induction text generalizing before with
  | nil => simp [splitLast]
  | cons x rest ih =>
    rw [splitLast]
    cases hrest : splitLast c rest with
    | none =>
      have hmem := (splitLast_eq_none_iff c rest).mp hrest
      cases before with
      | nil =>
        by_cases hx : x = c
        · simp only [hx, if_true, Option.some.injEq, Prod.mk.injEq, true_and, List.nil_append, List.cons.injEq]
          exact ⟨fun h => ⟨h, h ▸ hmem⟩, fun h => h.1⟩
        · simp [hx]
      | cons y before =>
        have hne : rest ≠ before ++ c :: behind := by
          rintro rfl
          exact hmem (by simp)
        by_cases hx : x = c <;> simp [hx, hne]
    | some parts =>
      obtain ⟨before', behind'⟩ := parts
      cases before with
      | nil =>
        have hmem : c ∈ rest := by
          by_contra hmem
          rw [(splitLast_eq_none_iff c rest).mpr hmem] at hrest
          cases hrest
        simp only [Option.some.injEq, Prod.mk.injEq, reduceCtorEq, false_and, List.nil_append, List.cons.injEq,
          false_iff, not_and, not_not, and_imp]
        rintro - rfl
        exact hmem
      | cons y before =>
        have h := ih before
        rw [hrest] at h
        simp only [Option.some.injEq, Prod.mk.injEq, List.cons.injEq, List.cons_append] at h ⊢
        rw [and_assoc, h, and_assoc]

end Splitting

/-- The byte of a colon, and those of the brackets. -/
def colon : Byte := 0x3A
def openBracket : Byte := 0x5B
def closeBracket : Byte := 0x5D

/-- The host as it is looked up: an IPv6 literal stands in brackets. -/
def unbracket (host : List Byte) : List Byte :=
  if host.length ≥ 2 && host.head? = some openBracket && host.getLast? = some closeBracket then
    (host.drop 1).take (host.length - 2)
  else host

def notAPair : Error := .of .invalidArgument "the endpoint is not a host:port pair"

/-- The host and the port of an endpoint. -/
def parseEndpoint (endpoint : List Byte) : Except Error (List Byte × List Byte) :=
  match splitLast colon endpoint with
  | none => .error notAPair
  | some (before, port) =>
    if unbracket before = [] || port = [] then .error notAPair else .ok (unbracket before, port)

/-- A host in brackets. -/
def bracketed (host : List Byte) : List Byte := openBracket :: (host ++ [closeBracket])

theorem unbracket_bracketed (host : List Byte) : unbracket (bracketed host) = host := by
  have hlast : (bracketed host).getLast? = some closeBracket := by
    rw [bracketed, ← List.cons_append, List.getLast?_concat]
  rw [unbracket, hlast]
  simp [bracketed]

/-- What is not in brackets stays as it is. -/
theorem unbracket_eq_self {host : List Byte} (h : ∀ inner, host ≠ bracketed inner) : unbracket host = host := by
  unfold unbracket
  split
  next hcond =>
    simp only [ge_iff_le, Bool.and_eq_true, decide_eq_true_eq] at hcond
    obtain ⟨⟨hlength, hhead⟩, hlast⟩ := hcond
    match host with
    | [] => simp at hlength
    | x :: rest =>
      have hrest : rest ≠ [] := by
        rintro rfl
        simp at hlength
      have hx : x = openBracket := by simpa using hhead
      have hy : rest.getLast hrest = closeBracket := by
        rw [List.getLast?_cons, List.getLast?_eq_some_getLast hrest] at hlast
        exact Option.some.inj hlast
      refine absurd ?_ (h rest.dropLast)
      rw [bracketed, hx, ← hy, List.dropLast_append_getLast]
  next => rfl

/-- An endpoint of a host and a port: the host as it is, or in brackets, which is the one way to write a host
that is in brackets itself. -/
inductive Endpoint (host port : List Byte) : List Byte → Prop
  | plain : (∀ inner, host ≠ bracketed inner) → Endpoint host port (host ++ colon :: port)
  | brackets : Endpoint host port (bracketed host ++ colon :: port)

/-- The endpoint is one of the host and the port, which are both there. -/
structure Names (endpoint host port : List Byte) : Prop where
  written : Endpoint host port endpoint
  host_ne_nil : host ≠ []
  port_ne_nil : port ≠ []
  colon_notMem : colon ∉ port

theorem parseEndpoint_ok_iff (endpoint host port : List Byte) :
    parseEndpoint endpoint = .ok (host, port) ↔ Names endpoint host port := by
  constructor
  · intro h
    unfold parseEndpoint at h
    split at h
    next => cases h
    next before behind hsplit =>
      split at h
      next => cases h
      next hsides =>
        cases h
        obtain ⟨rfl, hport⟩ := (splitLast_eq_some_iff colon endpoint before port).mp hsplit
        simp only [Bool.or_eq_true, decide_eq_true_eq, not_or] at hsides
        refine ⟨?_, hsides.1, hsides.2, hport⟩
        by_cases hbracketed : ∃ inner, before = bracketed inner
        · obtain ⟨inner, rfl⟩ := hbracketed
          rw [unbracket_bracketed]
          exact .brackets
        · have hplain : ∀ inner, before ≠ bracketed inner := fun inner h => hbracketed ⟨inner, h⟩
          rw [unbracket_eq_self hplain]
          exact .plain hplain
  · rintro ⟨hendpoint, hhost, hport, hcolon⟩
    have hread (before : List Byte) (hbefore : unbracket before = host) :
        parseEndpoint (before ++ colon :: port) = .ok (host, port) := by
      have hsplit := (splitLast_eq_some_iff colon _ before port).mpr ⟨rfl, hcolon⟩
      simp [parseEndpoint, hsplit, hbefore, hhost, hport]
    cases hendpoint with
    | plain hplain => exact hread host (unbracket_eq_self hplain)
    | brackets => exact hread (bracketed host) (unbracket_bracketed host)

/-- An endpoint is read as the host and the port that it was written from, and every other text is refused. -/
theorem parseEndpoint_exact (endpoint : List Byte) :
    (∀ host port, parseEndpoint endpoint = .ok (host, port) ↔ Names endpoint host port) ∧
    (parseEndpoint endpoint = .error notAPair ↔ ∀ host port, ¬ Names endpoint host port) := by
  refine ⟨parseEndpoint_ok_iff endpoint, ?_⟩
  have hends : parseEndpoint endpoint = .error notAPair ∨ ∃ names, parseEndpoint endpoint = .ok names := by
    unfold parseEndpoint
    split
    next => exact .inl rfl
    next =>
      split
      next => exact .inl rfl
      next => exact .inr ⟨_, rfl⟩
  constructor
  · intro h host port hnames
    rw [(parseEndpoint_ok_iff endpoint host port).mpr hnames] at h
    cases h
  · intro h
    rcases hends with hrefused | ⟨names, hread⟩
    · exact hrefused
    · exact absurd ((parseEndpoint_ok_iff endpoint names.1 names.2).mp hread) (h names.1 names.2)

/-! ### Addresses -/

/-- How `::connect` on a socket in non-blocking mode ends. -/
inductive Connecting
  | connected
  | inProgress
  | failed
  deriving DecidableEq, Repr

/-- An address of the host, and what the socket calls for it return. -/
structure Address where
  /-- `::socket` gives out a socket. -/
  socket : Bool
  /-- The socket can be put into non-blocking mode. -/
  nonBlocking : Bool
  connect : Connecting
  /-- `::select` finds the socket writable before the time is up. -/
  writable : Bool
  /-- `SO_ERROR` can be read and is zero. -/
  noError : Bool
  /-- The socket can be put back into blocking mode. -/
  restored : Bool
  deriving DecidableEq, Repr

/-- Connects a socket to the address. -/
def Address.connectWithTimeout (address : Address) : Bool :=
  if !address.nonBlocking then false
  else match address.connect with
  | .failed => false
  | .inProgress => if !address.writable then false else if !address.noError then false else address.restored
  | .connected => address.restored

/-- The network: Winsock where there is any, the resolver, and the text of the last error. -/
structure Network where
  ensureSockets : Except String Unit
  getaddrinfo : List Byte → List Byte → Except String (List Address)
  lastSocketError : String

/-- A text as a C function takes it, which ends at the first zero. -/
def cString (text : List Byte) : List Byte := text.takeWhile (· ≠ 0)

/-- What a transport knows of itself when it is opened: the place of the address that it is connected to,
and its endpoint as the caller wrote it. -/
structure Opened where
  address : ℕ
  endpoint : List Byte
  deriving DecidableEq, Repr

/-- A connection can be made to the address. -/
def Address.takes (address : Address) : Bool := address.socket && address.connectWithTimeout

/-- The address that a connection is made to. -/
def firstTaking (addresses : List Address) : Option (Address × ℕ) := addresses.zipIdx.find? fun found => found.1.takes

def unconnected (net : Network) (endpoint : List Byte) : Error :=
  ⟨.transport, bytesOf "could not connect to " ++ endpoint ++ bytesOf ": " ++ bytesOf net.lastSocketError⟩

/-- The first address that takes the connection. -/
def chosen (net : Network) (endpoint : List Byte) (addresses : List Address) : Except Error Opened :=
  match firstTaking addresses with
  | none => .error (unconnected net endpoint)
  | some (_, i) => .ok { address := i, endpoint }

/-- The addresses of the host of an endpoint. -/
def resolve (net : Network) (endpoint : List Byte) : Except Error (List Address) := do
  net.ensureSockets.mapError fun reason => .of .transport ("WSAStartup: " ++ reason)
  let (host, port) ← parseEndpoint endpoint
  (net.getaddrinfo (cString host) (cString port)).mapError fun reason => .of .transport ("getaddrinfo: " ++ reason)

/-- What opening comes to. -/
def opened (net : Network) (endpoint : List Byte) : Except Error Opened := resolve net endpoint >>= chosen net endpoint

end Adbcpp.Tcp
