import Adbcpp.Error

/-! The byte channel to a device. A transport is any state with the three
operations of the interface and the promise that a read never hands out more
than the buffer takes. `remaining` bounds the bytes it may still deliver, so that
a loop over its reads ends. The scripted transport below stands for every
schedule: its arrivals are the pieces and the failures successive reads meet, its
write outcomes say how far each write gets, and it records what the peer has
received and which calls were made. -/

namespace Adbcpp

class Transport (τ : Type) where
  /-- Reads up to `size` bytes; no byte at all is the end of the stream. -/
  read : ℕ → Action τ (List Byte)
  write : List Byte → Action τ Unit
  close : τ → τ
  remaining : τ → ℕ
  read_length : ∀ {size t bytes t'}, (read size).run t = (.ok bytes, t') → bytes.length ≤ size
  read_remaining : ∀ {size t bytes t'}, (read size).run t = (.ok bytes, t') →
    remaining t' + bytes.length ≤ remaining t
  write_remaining : ∀ data t, remaining ((write data).run t).2 ≤ remaining t

/-- How one write ends: all of its data delivered, or a failure after a prefix of it. -/
inductive WriteOutcome
  | accepted
  | failed (delivered : ℕ) (error : Error)
  deriving DecidableEq, Repr

/-- One call of the host on a transport. -/
inductive Call
  | read (size : ℕ)
  | write (data : List Byte)
  | close
  deriving DecidableEq, Repr

structure ScriptedTransport where
  /-- What the coming reads meet: a piece of bytes, or the failure of one read. -/
  arrivals : List (Except Error (List Byte))
  /-- How the coming writes end; after the last entry every write is accepted. -/
  outcomes : List WriteOutcome := []
  /-- The bytes the peer has received. -/
  delivered : List Byte := []
  calls : List Call := []

namespace ScriptedTransport

/-- A read takes as much of the next piece as it asked for and leaves the rest of the piece. -/
def takeArrival (size : ℕ) : List (Except Error (List Byte)) →
    Except Error (List Byte) × List (Except Error (List Byte))
  | [] => (.ok [], [])
  | .error e :: rest => (.error e, rest)
  | .ok piece :: rest =>
    (.ok (piece.take size), if size < piece.length then .ok (piece.drop size) :: rest else rest)

def read (size : ℕ) : Action ScriptedTransport (List Byte) := fun t =>
  ((takeArrival size t.arrivals).1,
    { t with arrivals := (takeArrival size t.arrivals).2, calls := t.calls ++ [.read size] })

def write (data : List Byte) : Action ScriptedTransport Unit := fun t =>
  let t := { t with calls := t.calls ++ [Call.write data] }
  match t.outcomes with
  | [] => (.ok (), { t with delivered := t.delivered ++ data })
  | .accepted :: rest => (.ok (), { t with outcomes := rest, delivered := t.delivered ++ data })
  | .failed n e :: rest =>
    (.error e, { t with outcomes := rest, delivered := t.delivered ++ data.take n })

def close (t : ScriptedTransport) : ScriptedTransport := { t with calls := t.calls ++ [.close] }

/-- All bytes of a list of arrivals, without its failures. -/
def content (arrivals : List (Except Error (List Byte))) : List Byte :=
  arrivals.flatMap fun
    | .ok piece => piece
    | .error _ => []

@[simp] theorem content_nil : content [] = [] := rfl

@[simp] theorem content_ok (piece : List Byte) (rest : List (Except Error (List Byte))) :
    content (.ok piece :: rest) = piece ++ content rest := rfl

@[simp] theorem content_error (e : Error) (rest : List (Except Error (List Byte))) :
    content (.error e :: rest) = content rest := rfl

/-- A read that hands out bytes takes them off the front of the content. -/
theorem takeArrival_ok {size : ℕ} {as : List (Except Error (List Byte))} {bytes : List Byte}
    (h : (takeArrival size as).1 = .ok bytes) :
    content as = bytes ++ content (takeArrival size as).2 ∧ bytes.length ≤ size := by
  match as with
  | [] =>
    cases h
    simp [takeArrival]
  | .error e :: rest => cases h
  | .ok piece :: rest =>
    cases h
    simp only [takeArrival, content_ok, List.length_take, Nat.min_le_left, and_true]
    split
    · rw [content_ok, ← List.append_assoc, List.take_append_drop]
    · rw [List.take_of_length_le (by omega)]

theorem write_arrivals (data : List Byte) (t : ScriptedTransport) :
    ((write data).run t).2.arrivals = t.arrivals := by
  simp only [write, Prog.run]
  split <;> rfl

instance : Transport ScriptedTransport where
  read := read
  write := write
  close := close
  remaining t := (content t.arrivals).length
  read_length h := by
    simp only [read, Prog.run, Prod.mk.injEq] at h
    exact (takeArrival_ok h.1).2
  read_remaining h := by
    simp only [read, Prog.run, Prod.mk.injEq] at h
    obtain ⟨h1, rfl⟩ := h
    have hc := congrArg List.length (takeArrival_ok h1).1
    rw [List.length_append] at hc
    dsimp only
    omega
  write_remaining data t := Nat.le_of_eq (by rw [write_arrivals])

@[simp] theorem run_read (size : ℕ) (t : ScriptedTransport) :
    (Transport.read size : Action ScriptedTransport _).run t =
      ((takeArrival size t.arrivals).1, { t with
        arrivals := (takeArrival size t.arrivals).2, calls := t.calls ++ [.read size] }) := rfl

theorem run_write (data : List Byte) (t : ScriptedTransport) :
    (Transport.write data : Action ScriptedTransport Unit).run t = (write data).run t := rfl

end ScriptedTransport

end Adbcpp
