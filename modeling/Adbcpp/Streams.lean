import Adbcpp.Stream.Opening

/-! Stream objects on one connection. A program opens streams, moves them from object to
object, reads and writes them, and destroys the objects, in any order; all of them
take their frames from the one inbox of the connection. -/

namespace Adbcpp

open Protocol Dialogue

/-- An operation of a program, which names its stream objects by `ι`. -/
inductive Operation (ι : Type)
  | open (x : ι) (service : List Byte)
  | moveConstruct (x y : ι)
  | moveAssign (x y : ι)
  | write (x : ι) (data : List Byte)
  | read (x : ι) (size : ℕ)
  | readAll (x : ι)
  | destroy (x : ι)
  deriving DecidableEq

/-- What a move leaves behind in the object it moves from. -/
def Stream.movedFrom (s : Stream) : Stream := { s with service := [], closed := true, incoming := [] }

/-- A stream object. That its stream has been moved away is known of it, but not to it. -/
structure Object where
  stream : Stream
  moved : Bool := false

structure Streams (ι σ : Type) where
  connection : Connection σ
  objects : ι → Option Object := fun _ => none

namespace Streams

variable {ι σ : Type} [DecidableEq ι]

def set (x : ι) (o : Option Object) (s : Streams ι σ) : Streams ι σ :=
  { s with objects := Function.update s.objects x o }

@[simp] theorem set_connection (x : ι) (o : Option Object) (s : Streams ι σ) :
    (s.set x o).connection = s.connection := rfl

@[simp] theorem set_same (x : ι) (o : Option Object) (s : Streams ι σ) : (s.set x o).objects x = o := by
  simp [set]

theorem set_other {x y : ι} (h : y ≠ x) (o : Option Object) (s : Streams ι σ) :
    (s.set x o).objects y = s.objects y := by
  simp [set, h]

/-- A stream object with the connection. -/
def view (s : Streams ι σ) (o : Object) : StreamOn σ := ⟨o.stream, s.connection⟩

/-- An operation on the stream of an object; there is nothing to do where there is no object. -/
def use (x : ι) (p : Action (StreamOn σ) (List Byte)) : Action (Streams ι σ) (List Byte) := fun s =>
  match s.objects x with
  | none => (.ok [], s)
  | some o =>
    ((p.run (s.view o)).1, { s with connection := (p.run (s.view o)).2.connection }.set x
      (some { o with stream := (p.run (s.view o)).2.stream }))

theorem set_eq_self {x : ι} {o : Option Object} {s : Streams ι σ} (h : s.objects x = o) : s.set x o = s := by
  rw [set, ← h, Function.update_eq_self]

theorem run_use_none {x : ι} {s : Streams ι σ} (h : s.objects x = none)
    (p : Action (StreamOn σ) (List Byte)) : (use x p).run s = (.ok [], s) := by
  simp only [use, Prog.run, h]

theorem run_use {x : ι} {s : Streams ι σ} {o : Object} (h : s.objects x = some o)
    (p : Action (StreamOn σ) (List Byte)) : (use x p).run s =
      ((p.run (s.view o)).1, { s with connection := (p.run (s.view o)).2.connection }.set x
        (some { o with stream := (p.run (s.view o)).2.stream })) := by
  simp only [use, Prog.run, h]

variable [Channel σ]

/-- One operation of a program. An operation does nothing that moves from, uses or destroys an
object that is not there, or makes one that is there already. -/
def exec : Operation ι → Action (Streams ι σ) (List Byte)
  | .open x service => fun s =>
    match s.objects x with
    | some _ => (.ok [], s)
    | none => match (Stream.open service).run s.connection with
      | (.ok stream, c) => (.ok [], { s with connection := c }.set x (some ⟨stream, false⟩))
      | (.error e, c) => (.error e, { s with connection := c })
  | .moveConstruct x y => fun s =>
    match s.objects x, s.objects y with
    | none, some o => (.ok [], (s.set y (some ⟨o.stream.movedFrom, true⟩)).set x (some o))
    | _, _ => (.ok [], s)
  | .moveAssign x y => fun s =>
    match s.objects x, s.objects y with
    | some target, some o =>
      if x = y then (.ok [], s)
      else
        let s := { s with connection := (s.view target).closeNow.connection }
        (.ok [], (s.set y (some ⟨o.stream.movedFrom, true⟩)).set x (some o))
    | _, _ => (.ok [], s)
  | .write x data => use x (StreamOn.write data >>= fun _ => pure [])
  | .read x size => use x (StreamOn.read size)
  | .readAll x => use x StreamOn.readAll
  | .destroy x => fun s =>
    match s.objects x with
    | none => (.ok [], s)
    | some o => (.ok [], { s with connection := (s.view o).closeNow.connection }.set x none)

/-- The state after some operations. -/
def after : List (Operation ι) → Streams ι σ → Streams ι σ
  | [], s => s
  | op :: ops, s => after ops ((exec op).run s).2

end Streams

/-- The object that an operation reads. -/
def Operation.reader {ι : Type} : Operation ι → Option ι
  | .read x _ => some x
  | .readAll x => some x
  | _ => none

namespace Streams

variable {ι : Type} [DecidableEq ι]

def session (s : Streams ι Dialogue) : Dialogue := s.connection.session

/-- The frames that an operation takes from the inbox. -/
def takes (op : Operation ι) (s : Streams ι Dialogue) : List Frame :=
  match op with
  | .open x service => match s.objects x with
    | none => openTaken service s.connection
    | some _ => []
  | .read x size => match s.objects x with
    | none => []
    | some o => StreamOn.readTaken size (s.view o)
  | .readAll x => match s.objects x with
    | none => []
    | some o => StreamOn.readAllTaken (s.view o)
  | _ => []

end Streams

end Adbcpp
