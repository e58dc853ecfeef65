import Mathlib.Logic.Function.Basic
import Adbcpp.Session

/-! Session objects over several transports. A session borrows its transport, and a program
moves its sessions from object to object, closes them, and sends and receives on
them in any order. The transports log the calls that are made on them. -/

namespace Adbcpp

open Protocol

/-! ### Logged transports -/

/-- A transport with the calls made on it so far. -/
structure Logged (τ : Type) where
  transport : τ
  calls : List Call := []

namespace Logged

variable {τ : Type} [Transport τ]

/-- The transport after one more call. -/
def log (call : Call) (transport : τ) (t : Logged τ) : Logged τ := ⟨transport, t.calls ++ [call]⟩

instance : Transport (Logged τ) where
  read size := fun t =>
    (((Transport.read size).run t.transport).1, t.log (.read size) ((Transport.read size).run t.transport).2)
  write data := fun t =>
    (((Transport.write data).run t.transport).1, t.log (.write data) ((Transport.write data).run t.transport).2)
  close t := t.log .close (Transport.close t.transport)
  remaining t := Transport.remaining t.transport
  read_length h := by
    obtain ⟨hread, -⟩ := Prod.mk.inj h
    exact Transport.read_length (Prod.ext hread rfl)
  read_remaining h := by
    obtain ⟨hread, rfl⟩ := Prod.mk.inj h
    exact Transport.read_remaining (Prod.ext hread rfl)
  write_remaining data t := Transport.write_remaining data t.transport

end Logged

/-! ### Programs -/

/-- An operation of a program, which names its session objects by `ι`. -/
inductive SessionOperation (ι : Type)
  | moveConstruct (x y : ι)
  | moveAssign (x y : ι)
  | close (x : ι)
  | send (x : ι) (header : Message) (payload : List Byte)
  | receive (x : ι)

/-- The object that an operation uses. -/
def SessionOperation.user {ι : Type} : SessionOperation ι → Option ι
  | .close x => some x
  | .send x _ _ => some x
  | .receive x => some x
  | .moveConstruct _ _ => none
  | .moveAssign _ _ => none

structure SessionObject (κ : Type) where
  transport : κ
  closed : Bool := false

/-- What a move leaves behind in the object it moves from. -/
def SessionObject.movedFrom {κ : Type} (o : SessionObject κ) : SessionObject κ := { o with closed := true }

structure Sessions (ι κ τ : Type) where
  transports : κ → τ
  objects : ι → Option (SessionObject κ)

namespace Sessions

/-- A session over each transport, and room for the sessions `ι` that are moved to. -/
def ofTransports {κ τ : Type} (ι : Type) (transports : κ → τ) : Sessions (κ ⊕ ι) κ (Logged τ) where
  transports k := { transport := transports k }
  objects
    | .inl k => some { transport := k }
    | .inr _ => none

variable {ι κ τ : Type} [DecidableEq ι] [DecidableEq κ]

/-- Both objects of a move, from `y` to `x`. -/
def move (x y : ι) (o : SessionObject κ) (s : Sessions ι κ τ) : Sessions ι κ τ :=
  { s with objects := Function.update (Function.update s.objects y (some o.movedFrom)) x (some o) }

/-- The session of an object. -/
def view (s : Sessions ι κ τ) (o : SessionObject κ) : Session τ := ⟨s.transports o.transport, o.closed⟩

/-- The state after the session of the object `x` was used. -/
def put (s : Sessions ι κ τ) (x : ι) (o : SessionObject κ) (session : Session τ) : Sessions ι κ τ where
  transports := Function.update s.transports o.transport session.transport
  objects := Function.update s.objects x (some { o with closed := session.closed })

/-- An operation on the session of an object; there is nothing to do where there is no object. -/
def use (x : ι) (p : Action (Session τ) (Option Frame)) : Action (Sessions ι κ τ) (Option Frame) := fun s =>
  match s.objects x with
  | none => (.ok none, s)
  | some o => ((p.run (s.view o)).1, s.put x o (p.run (s.view o)).2)

theorem run_use_none {x : ι} {s : Sessions ι κ τ} (h : s.objects x = none)
    (p : Action (Session τ) (Option Frame)) : (use x p).run s = (.ok none, s) := by
  simp only [use, Prog.run, h]

theorem run_use {x : ι} {s : Sessions ι κ τ} {o : SessionObject κ} (h : s.objects x = some o)
    (p : Action (Session τ) (Option Frame)) :
    (use x p).run s = ((p.run (s.view o)).1, s.put x o (p.run (s.view o)).2) := by
  simp only [use, Prog.run, h]

variable [Transport τ]

/-- One operation of a program. An operation does nothing that moves from or uses an object that is
not there, or makes one that is there already. -/
def exec : SessionOperation ι → Action (Sessions ι κ τ) (Option Frame)
  | .moveConstruct x y => fun s =>
    match s.objects x, s.objects y with
    | none, some o => (.ok none, s.move x y o)
    | _, _ => (.ok none, s)
  | .moveAssign x y => fun s =>
    match s.objects x, s.objects y with
    -- The old transport of the target is borrowed, and is not closed.
    | some _, some o => if x = y then (.ok none, s) else (.ok none, s.move x y o)
    | _, _ => (.ok none, s)
  | .close x => use x (Prog.modify Session.close >>= fun _ => pure none)
  | .send x header payload => use x (Session.send header payload >>= fun _ => pure none)
  | .receive x => use x (Session.receive >>= fun frame => pure (some frame))

/-- The state after some operations. -/
def after : List (SessionOperation ι) → Sessions ι κ τ → Sessions ι κ τ
  | [], s => s
  | op :: ops, s => after ops ((exec op).run s).2

end Sessions

end Adbcpp
