import Adbcpp.Usb.Handles

/-! Programs that use USB transports. They look for devices, list them, open transports, close
them and let go of them, in any order, while devices come and go. Every answer is the
one that the devices of that moment give, and what is held of libusb is at every moment
what the transports that are left have in their fields. -/

namespace Adbcpp.Usb.Handles

open Registry

/-- What a program does next, and libusb and the devices at that moment. -/
inductive Operation
  | isPresent (usb : Libusb) (id : DeviceId)
  | list (usb : Libusb)
  | «open» (usb : Libusb) (id : DeviceId)
  /-- Closes one of its transports. -/
  | close (i : ℕ)
  /-- Destroys one of its transports, as leaving its scope or moving another one into it does. -/
  | destroy (i : ℕ)

inductive Answer
  | presence (r : Except Error Bool)
  | devices (r : Except Error (List DeviceId))
  | opened (r : Except Error UsbTransport.Opened)
  | done

/-- What the devices of the moment say. -/
def Operation.answer : Operation → Answer
  | .isPresent usb id => .presence (UsbTransport.isPresent usb id)
  | .list usb => .devices (UsbTransport.list usb)
  | .open usb id => .opened (UsbTransport.open usb id)
  | .close _ => .done
  | .destroy _ => .done

/-- One operation on the transports that the program has. -/
def Operation.run (transports : List Impl) : Operation → Action (Registry Resource) (Answer × List Impl)
  | .isPresent usb id => do
    let r ← Prog.attempt (Handles.isPresent usb id)
    pure (.presence r, transports)
  | .list usb => do
    let r ← Prog.attempt (Handles.list usb)
    pure (.devices r, transports)
  | .open usb id => do
    match ← Prog.attempt (Handles.open usb id) with
    | .error e => pure (.opened (.error e), transports)
    | .ok (impl, opened) => pure (.opened (.ok opened), impl :: transports)
  | .close i => do
    let after ← change i Impl.close transports
    pure (.done, after)
  | .destroy i => do
    let left ← drop i Impl.destroy transports
    pure (.done, left)

/-- One operation answers as the devices say, and what is held afterwards is what the transports have. -/
theorem run_honest : Honest Impl.leases Operation.run Operation.answer := by
  intro op transports
  cases op with
  | isPresent usb id =>
    refine known_bind (attempt_keeps (isPresent_answers usb id)) ?_
    exact Prog.Triple.pure fun _ hs => ⟨rfl, hs⟩
  | list usb =>
    refine known_bind (attempt_keeps (list_answers usb)) ?_
    exact Prog.Triple.pure fun _ hs => ⟨rfl, hs⟩
  | «open» usb id =>
    refine Prog.Triple.bind (Prog.Triple.attempt (open_opens usb id)) fun r => ?_
    cases r with
    | error e => exact Prog.Triple.pure fun _ hs => ⟨congrArg _ hs.1.symm, hs.2⟩
    | ok a =>
      refine Prog.Triple.pure fun _ hs => ⟨congrArg _ hs.1.symm, ?_⟩
      rw [owing_cons]
      exact hs.2
  | close i =>
    refine Prog.Triple.bind (change_owes leases_rooted (fun impl _ hL => close_owes impl hL) i transports) fun after => ?_
    exact Prog.Triple.pure fun _ hs => ⟨rfl, hs⟩
  | destroy i =>
    refine Prog.Triple.bind (drop_owes leases_rooted (fun impl _ hL => destroy_owes impl hL) i transports) fun left => ?_
    exact Prog.Triple.pure fun _ hs => ⟨rfl, hs⟩

/-- A program that starts with nothing gets the answers of the devices that are there at each moment. It has at the
end just what its transports have in their fields, and has never used, released or built
on what was not held. -/
theorem life_of_transports (ops : List Operation) : ∃ transports s,
    (life Operation.run ops []).run {} = (.ok (ops.map Operation.answer, transports), s) ∧
    (s.held : Held) = owing Impl.leases transports ∧ s.misused = false := life_run run_honest ops

end Adbcpp.Usb.Handles
