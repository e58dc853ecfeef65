import Adbcpp.Library.Registry
import Adbcpp.Usb.Devices

/-! What the USB transport holds of libusb. A context is initialised, the devices are listed,
descriptors are read and a device is opened and claimed, and each of these is given back:
at the end of the call, where it fails, when the transport is closed, or when it is
destroyed. The calls answer what `UsbTransport` answers, and over any life of any
transports nothing is used that is not held, and nothing is left over. -/

namespace Adbcpp.Usb.Handles

/-- What libusb gives out and wants back. -/
inductive Resource
  | context
  | deviceList
  | config
  | handle
  | claim
  deriving DecidableEq, Repr

abbrev Held := Multiset (Lease Resource)

def contextLease (context : ℕ) : Lease Resource := ⟨context, .context, none⟩

/-- `libusb_get_device_list` on a context. -/
def listLease (context list : ℕ) : Lease Resource := ⟨list, .deviceList, some context⟩

def configLease (list config : ℕ) : Lease Resource := ⟨config, .config, some list⟩

/-- `libusb_open` in a context. -/
def handleLease (context handle : ℕ) : Lease Resource := ⟨handle, .handle, some context⟩

def claimLease (handle claim : ℕ) : Lease Resource := ⟨claim, .claim, some handle⟩

open Registry

/-! ### Looking for a device -/

/-- The serial of the device, which is opened to read it. -/
def deviceSerial (context list : ℕ) (device : Device) (descriptor : DeviceDescriptor) :
    Action (Registry Resource) (List Byte) :=
  if descriptor.iSerialNumber = 0 then pure []
  else do
    use list
    match device.handle with
    | .error _ => pure []
    | .ok () => do
      let handle ← acquire .handle (some context)
      use handle
      release handle
      match device.serialString with
      | .error _ => pure []
      | .ok text => pure text

def findDevice (context list : ℕ) (id : DeviceId) : List (Device × ℕ) → Action (Registry Resource) (Option (Device × ℕ))
  | [] => pure none
  | (device, i) :: rest => do
    use list
    match device.descriptor with
    | .error _ => findDevice context list id rest
    | .ok descriptor =>
      if !«matches» descriptor id then findDevice context list id rest
      else if id.serial = [] then pure (some (device, i))
      else do
        let serial ← deviceSerial context list device descriptor
        if serial = id.serial then pure (some (device, i)) else findDevice context list id rest

/-- The ADB interface of a configuration, where it has both endpoints. -/
def searchConfig (config : ConfigDescriptor) : Option AdbInterface :=
  match config.interface.findSome? searchInterface with
  | none => none
  | some found => if found.endpointIn = 0 || found.endpointOut = 0 then none else some found

def findAdbInterface (usb : Libusb) (list : ℕ) (device : Device) :
    Action (Registry Resource) (Option AdbInterface) := do
  use list
  match device.config with
  | .error code => Prog.fail (usb.fail "libusb_get_config_descriptor" code)
  | .ok descriptor => do
    let config ← acquire .config (some list)
    use config
    release config
    pure (searchConfig descriptor)

/-! ### The entry points -/

/-- Whether the device is among those that libusb lists in the context. -/
def isListed (usb : Libusb) (context : ℕ) (id : DeviceId) : Action (Registry Resource) Bool :=
  match usb.deviceList with
  | .error _ => pure false
  | .ok devices => do
    let list ← acquire .deviceList (some context)
    let found ← findDevice context list id devices.zipIdx
    release list
    pure found.isSome

def isPresent (usb : Libusb) (id : DeviceId) : Action (Registry Resource) Bool :=
  match usb.init with
  | .error code => Prog.fail (usb.fail "libusb_init" code)
  | .ok () => do
    let context ← acquire .context none
    let found ← isListed usb context id
    release context
    pure found

/-- What a device is listed as, where it has an ADB interface. -/
def listed (usb : Libusb) (context list : ℕ) (device : Device) : Action (Registry Resource) (Option DeviceId) := do
  use list
  match device.descriptor with
  | .error _ => pure none
  | .ok descriptor => do
    match ← Prog.attempt (findAdbInterface usb list device) with
    | .ok (some _) => do
      let serial ← deviceSerial context list device descriptor
      pure (some { vendorId := descriptor.idVendor, productId := descriptor.idProduct, serial })
    | _ => pure none

/-- The devices one after the other. -/
def listAll (usb : Libusb) (context list : ℕ) : List Device → Action (Registry Resource) (List DeviceId)
  | [] => pure []
  | device :: rest => do
    let found ← listed usb context list device
    let others ← listAll usb context list rest
    pure (found.toList ++ others)

def list (usb : Libusb) : Action (Registry Resource) (List DeviceId) :=
  match usb.init with
  | .error code => Prog.fail (usb.fail "libusb_init" code)
  | .ok () => do
    let context ← acquire .context none
    match usb.deviceList with
    | .error code => do
      release context
      Prog.fail (usb.fail "libusb_get_device_list" code)
    | .ok devices => do
      let list ← acquire .deviceList (some context)
      let found ← listAll usb context list devices
      release list
      release context
      pure found

/-! ### The transport object -/

/-- What `UsbTransport::Impl` has in its fields: nothing, a context, also a handle, or a handle with
its interface claimed. -/
inductive Impl
  | empty
  | initialized (context : ℕ)
  | opened (context handle : ℕ)
  | claimed (context handle claim : ℕ)
  deriving DecidableEq, Repr

/-- The destructor. -/
def Impl.destroy : Impl → Action (Registry Resource) Unit
  | .empty => pure ()
  | .initialized context => release context
  | .opened context handle => do
    release handle
    release context
  | .claimed context handle claim => do
    release claim
    release handle
    release context

/-- Closes the device. The context stays until the object is destroyed. -/
def Impl.close : Impl → Action (Registry Resource) Impl
  | .empty => pure .empty
  | .initialized context => pure (.initialized context)
  | .opened context handle => do
    release handle
    pure (.initialized context)
  | .claimed context handle claim => do
    release claim
    release handle
    pure (.initialized context)

/-- Returns an error, on which the transport object of the function is destroyed. -/
def failWith {α : Type} (impl : Impl) (e : Error) : Action (Registry Resource) α := do
  impl.destroy
  Prog.fail e

/-- The serial that an opened transport knows its device by. -/
def knownSerial (context list : ℕ) (device : Device) : Action (Registry Resource) (List Byte) :=
  match device.descriptor with
  | .error _ => pure []
  | .ok descriptor => deviceSerial context list device descriptor

/-- The end of opening, where the device and its interface have been found. -/
def openFound (usb : Libusb) (context list : ℕ) (device : Device × ℕ) (interface : AdbInterface) :
    Action (Registry Resource) (Impl × UsbTransport.Opened) := do
  use list
  let serial ← knownSerial context list device.1
  use list
  match device.1.handle with
  | .error code => do
    release list
    failWith (.initialized context) (usb.fail "libusb_open" code)
  | .ok () => do
    let handle ← acquire .handle (some context)
    release list
    use handle
    match device.1.claim with
    | .error code => failWith (.opened context handle) (usb.fail "libusb_claim_interface" code)
    | .ok () => do
      let claim ← acquire .claim (some handle)
      -- The halts of both endpoints are cleared.
      use handle
      pure (.claimed context handle claim, { device := device.2, interface, serial })

def «open» (usb : Libusb) (id : DeviceId) : Action (Registry Resource) (Impl × UsbTransport.Opened) :=
  match usb.init with
  | .error code => failWith .empty (usb.fail "libusb_init" code)
  | .ok () => do
    let context ← acquire .context none
    match usb.deviceList with
    | .error code => failWith (.initialized context) (usb.fail "libusb_get_device_list" code)
    | .ok devices => do
      let list ← acquire .deviceList (some context)
      match ← findDevice context list id devices.zipIdx with
      | none => do
        release list
        failWith (.initialized context) (.of .transport "no USB device matching the given id")
      | some found => do
        match ← Prog.attempt (findAdbInterface usb list found.1) with
        | .error e => do
          release list
          failWith (.initialized context) e
        | .ok none => do
          release list
          failWith (.initialized context) (.of .transport "ADB USB interface not found")
        | .ok (some interface) => openFound usb context list found interface

/-! ### What the functions answer and keep -/

section Answers

variable {L : Held} {E : Error → Registry Resource → Prop}

/-- The answer is this one, and what is owed stays owed. -/
abbrev Keeps (L : Held) {α : Type} (v : α) (a : α) (s : Registry Resource) : Prop := a = v ∧ Owes L s

theorem pure_keeps {α : Type} (v : α) :
    Prog.Triple (Owes L) (pure v : Action (Registry Resource) α) (Keeps L v) E :=
  Prog.Triple.pure fun _ hs => ⟨rfl, hs⟩

theorem context_owes : Prog.Triple (Owes L) (acquire .context none) (fun context => Owes (contextLease context ::ₘ L)) E :=
  acquire_root_owes Resource.context

theorem list_owes {context : ℕ} (h : contextLease context ∈ L) :
    Prog.Triple (Owes L) (acquire .deviceList (some context)) (fun list => Owes (listLease context list ::ₘ L)) E :=
  acquire_child_owes .deviceList h

theorem config_owes {context list : ℕ} (h : listLease context list ∈ L) :
    Prog.Triple (Owes L) (acquire .config (some list)) (fun config => Owes (configLease list config ::ₘ L)) E :=
  acquire_child_owes .config h

theorem handle_owes {context : ℕ} (h : contextLease context ∈ L) :
    Prog.Triple (Owes L) (acquire .handle (some context)) (fun handle => Owes (handleLease context handle ::ₘ L)) E :=
  acquire_child_owes .handle h

theorem claim_owes {context handle : ℕ} (h : handleLease context handle ∈ L) :
    Prog.Triple (Owes L) (acquire .claim (some handle)) (fun claim => Owes (claimLease handle claim ::ₘ L)) E :=
  acquire_child_owes .claim h

theorem deviceSerial_keeps {context list : ℕ} (hcontext : contextLease context ∈ L) (hlist : listLease context list ∈ L)
    (device : Device) (descriptor : DeviceDescriptor) :
    Prog.Triple (Owes L) (deviceSerial context list device descriptor)
      (Keeps L (device.deviceSerial descriptor)) E := by
  unfold deviceSerial Device.deviceSerial
  split
  next => exact pure_keeps []
  next =>
    refine Prog.Triple.bind (use_owes hlist) fun _ => ?_
    match device.handle with
    | .error _ => exact pure_keeps []
    | .ok () =>
      refine tidy_pre fun hL => ?_
      refine Prog.Triple.bind (handle_owes hcontext) fun handle => ?_
      refine Prog.Triple.bind (use_owes (l := handleLease context handle) (Multiset.mem_cons_self _ L)) fun _ => ?_
      refine Prog.Triple.bind (release_owes (handleLease context handle) hL) fun _ => ?_
      match device.serialString with
      | .error _ => exact pure_keeps []
      | .ok text => exact pure_keeps text

/-- The device that is found is the first one that the id selects, whatever had to be opened to read the serials. -/
theorem findDevice_keeps {context list : ℕ} (hcontext : contextLease context ∈ L) (hlist : listLease context list ∈ L)
    (id : DeviceId) (devices : List (Device × ℕ)) :
    Prog.Triple (Owes L) (findDevice context list id devices)
      (Keeps L (devices.find? fun (device, _) => device.selectedBy id)) E := by
  induction devices with
  | nil => exact pure_keeps none
  | cons found rest ih =>
    obtain ⟨device, i⟩ := found
    rw [findDevice, List.find?_cons]
    refine Prog.Triple.bind (use_owes hlist) fun _ => ?_
    cases hdescriptor : device.descriptor with
    | error code =>
      have hselected : device.selectedBy id = false := by simp [Device.selectedBy, hdescriptor]
      simpa only [hselected] using ih
    | ok descriptor =>
      dsimp only
      split
      next hmatch =>
        have hselected : device.selectedBy id = false := by simp [Device.selectedBy, hdescriptor, hmatch]
        simpa only [hselected] using ih
      next hmatch =>
        split
        next hserial =>
          have hselected : device.selectedBy id = true := by
            simp [Device.selectedBy, hdescriptor, hserial] at hmatch ⊢
            exact hmatch
          rw [hselected]
          exact pure_keeps _
        next hserial =>
          refine known_bind (deviceSerial_keeps hcontext hlist device descriptor) ?_
          have hselected : device.selectedBy id = decide (device.deviceSerial descriptor = id.serial) := by
            simp [Device.selectedBy, hdescriptor, hserial] at hmatch ⊢
            exact fun _ => hmatch
          split
          next heq =>
            rw [hselected, decide_eq_true heq]
            exact pure_keeps _
          next heq =>
            rw [hselected, decide_eq_false heq]
            exact ih

theorem searchConfig_eq (usb : Libusb) (device : Device) :
    Usb.findAdbInterface usb device =
      (usb.call "libusb_get_config_descriptor" device.config).map searchConfig := by
  unfold Usb.findAdbInterface searchConfig
  cases usb.call "libusb_get_config_descriptor" device.config with
  | error e => rfl
  | ok config =>
    simp only [Except.map, bind, Except.bind]
    cases config.interface.findSome? searchInterface with
    | none => rfl
    | some found =>
      dsimp only
      split <;> rfl

/-- Reading the descriptors ends as `Usb.findAdbInterface` does. -/
theorem findAdbInterface_ends {context list : ℕ} (hlist : listLease context list ∈ L) (usb : Libusb) (device : Device) :
    Prog.Triple (Owes L) (findAdbInterface usb list device)
      (fun found s => Usb.findAdbInterface usb device = .ok found ∧ Owes L s)
      (fun e s => Usb.findAdbInterface usb device = .error e ∧ Owes L s) := by
  rw [searchConfig_eq]
  refine Prog.Triple.bind (use_owes hlist) fun _ => ?_
  cases device.config with
  | error code => exact Prog.Triple.fail fun _ hs => ⟨rfl, hs⟩
  | ok descriptor =>
    refine tidy_pre fun hL => ?_
    refine Prog.Triple.bind (config_owes hlist) fun config => ?_
    refine Prog.Triple.bind (use_owes (l := configLease list config) (Multiset.mem_cons_self _ L)) fun _ => ?_
    refine Prog.Triple.bind (release_owes (configLease list config) hL) fun _ => ?_
    exact Prog.Triple.pure fun _ hs => ⟨rfl, hs⟩

/-- Whether there was a failure is a value like others. -/
theorem attempt_keeps {α : Type} {p : Action (Registry Resource) α} {r : Except Error α}
    (h : Prog.Triple (Owes L) p (fun a s => r = .ok a ∧ Owes L s) (fun e s => r = .error e ∧ Owes L s)) :
    Prog.Triple (Owes L) (Prog.attempt p) (Keeps L r) E := by
  refine (Prog.Triple.attempt (F := E) h).conseq (fun _ hs => hs) ?_ fun _ _ he => he
  rintro (e | a) s hs <;> exact ⟨hs.1.symm, hs.2⟩

theorem listed_keeps {context list : ℕ} (hcontext : contextLease context ∈ L) (hlist : listLease context list ∈ L)
    (usb : Libusb) (device : Device) :
    Prog.Triple (Owes L) (listed usb context list device) (Keeps L (UsbTransport.listed usb device)) E := by
  unfold listed UsbTransport.listed
  refine Prog.Triple.bind (use_owes hlist) fun _ => ?_
  cases device.descriptor with
  | error code => exact pure_keeps none
  | ok descriptor =>
    refine known_bind (attempt_keeps (findAdbInterface_ends hlist usb device)) ?_
    match Usb.findAdbInterface usb device with
    | .error e => exact pure_keeps none
    | .ok none => exact pure_keeps none
    | .ok (some _) =>
      refine known_bind (deviceSerial_keeps hcontext hlist device descriptor) ?_
      exact pure_keeps _

theorem listAll_keeps {context list : ℕ} (hcontext : contextLease context ∈ L) (hlist : listLease context list ∈ L)
    (usb : Libusb) (devices : List Device) :
    Prog.Triple (Owes L) (listAll usb context list devices)
      (Keeps L (devices.filterMap (UsbTransport.listed usb))) E := by
  induction devices with
  | nil => exact pure_keeps []
  | cons device rest ih =>
    refine known_bind (listed_keeps hcontext hlist usb device) ?_
    refine known_bind ih ?_
    rw [List.filterMap_cons]
    cases UsbTransport.listed usb device <;> exact pure_keeps _

/-- A function ends as another one answers, and what is owed stays owed. -/
abbrev Answers {α : Type} (L : Held) (p : Action (Registry Resource) α) (r : Except Error α) : Prop :=
  Prog.Triple (Owes L) p (fun a s => r = .ok a ∧ Owes L s) (fun e s => r = .error e ∧ Owes L s)

theorem isListed_keeps {context : ℕ} (hL : Tidy L) (hcontext : contextLease context ∈ L) (usb : Libusb) (id : DeviceId) :
    Prog.Triple (Owes L) (isListed usb context id)
      (Keeps L (match usb.deviceList with
        | .error _ => false
        | .ok devices => (Usb.findDevice devices id).isSome)) E := by
  unfold isListed
  cases usb.deviceList with
  | error code => exact pure_keeps false
  | ok devices =>
    refine Prog.Triple.bind (list_owes hcontext) fun list => ?_
    have hlist : listLease context list ∈ listLease context list ::ₘ L := Multiset.mem_cons_self _ L
    refine known_bind (findDevice_keeps (Multiset.mem_cons_of_mem hcontext) hlist id devices.zipIdx) ?_
    refine Prog.Triple.bind (release_owes (listLease context list) hL) fun _ => ?_
    exact pure_keeps _

theorem isPresent_answers (usb : Libusb) (id : DeviceId) :
    Answers L (isPresent usb id) (UsbTransport.isPresent usb id) := by
  unfold isPresent UsbTransport.isPresent
  cases usb.init with
  | error code => exact Prog.Triple.fail fun _ hs => ⟨rfl, hs⟩
  | ok _ =>
    refine tidy_pre fun hL => ?_
    refine Prog.Triple.bind context_owes fun context => ?_
    have hcontext : contextLease context ∈ contextLease context ::ₘ L := Multiset.mem_cons_self _ L
    refine known_bind (isListed_keeps (hL.root context .context) hcontext usb id) ?_
    refine Prog.Triple.bind (release_owes (contextLease context) hL) fun _ => ?_
    exact Prog.Triple.pure fun _ hs => ⟨by cases usb.deviceList <;> rfl, hs⟩

theorem list_answers (usb : Libusb) : Answers L (list usb) (UsbTransport.list usb) := by
  unfold list UsbTransport.list
  cases usb.init with
  | error code => exact Prog.Triple.fail fun _ hs => ⟨rfl, hs⟩
  | ok _ =>
    refine tidy_pre fun hL => ?_
    refine Prog.Triple.bind context_owes fun context => ?_
    have hcontext : contextLease context ∈ contextLease context ::ₘ L := Multiset.mem_cons_self _ L
    cases usb.deviceList with
    | error code =>
      refine Prog.Triple.bind (release_owes (contextLease context) hL) fun _ => ?_
      exact Prog.Triple.fail fun _ hs => ⟨rfl, hs⟩
    | ok devices =>
      refine Prog.Triple.bind (list_owes hcontext) fun list => ?_
      have hlist : listLease context list ∈ listLease context list ::ₘ contextLease context ::ₘ L :=
        Multiset.mem_cons_self _ _
      refine known_bind (listAll_keeps (Multiset.mem_cons_of_mem hcontext) hlist usb devices) ?_
      refine Prog.Triple.bind (release_owes (listLease context list) (hL.root context .context)) fun _ => ?_
      refine Prog.Triple.bind (release_owes (contextLease context) hL) fun _ => ?_
      exact Prog.Triple.pure fun _ hs => ⟨rfl, hs⟩

/-! ### What a transport object owes -/

/-- What is held through the fields of the object. -/
def Impl.leases : Impl → Held
  | .empty => 0
  | .initialized context => {contextLease context}
  | .opened context handle => handleLease context handle ::ₘ {contextLease context}
  | .claimed context handle claim => claimLease handle claim ::ₘ handleLease context handle ::ₘ {contextLease context}

theorem leases_empty : Impl.empty.leases + L = L := Multiset.zero_add L

theorem leases_opened (context handle : ℕ) :
    (Impl.opened context handle).leases + L = handleLease context handle ::ₘ contextLease context ::ₘ L := by
  simp only [Impl.leases, Multiset.cons_add, Multiset.singleton_add]

theorem leases_claimed (context handle claim : ℕ) :
    (Impl.claimed context handle claim).leases + L =
      claimLease handle claim ::ₘ handleLease context handle ::ₘ contextLease context ::ₘ L := by
  simp only [Impl.leases, Multiset.cons_add, Multiset.singleton_add]

/-- What depends on a context, and on a handle. -/
theorem tidy_context (hL : Tidy L) (context : ℕ) : Tidy (contextLease context ::ₘ L) := hL.root context .context

theorem tidy_handle (hL : Tidy L) (context handle : ℕ) : Tidy (handleLease context handle ::ₘ contextLease context ::ₘ L) :=
  (tidy_context hL context).child (Multiset.mem_cons_self _ L) handle .handle

/-- An object holds all that its own leases depend on. -/
theorem leases_rooted : Rooted Impl.leases := by
  intro impl L hL
  cases impl with
  | empty =>
    rw [leases_empty]
    exact hL
  | initialized context => exact tidy_context hL context
  | opened context handle =>
    rw [leases_opened]
    exact tidy_handle hL context handle
  | claimed context handle claim =>
    rw [leases_claimed]
    exact (tidy_handle hL context handle).child (Multiset.mem_cons_self _ _) claim .claim

theorem destroy_owes (impl : Impl) (hL : Tidy L) :
    Prog.Triple (Owes (impl.leases + L)) impl.destroy (fun _ => Owes L) E := by
  cases impl with
  | empty =>
    rw [leases_empty]
    exact Prog.Triple.pure fun _ hs => hs
  | initialized context => exact release_owes (contextLease context) hL
  | opened context handle =>
    rw [leases_opened]
    refine Prog.Triple.bind (release_owes (handleLease context handle) (tidy_context hL context)) fun _ => ?_
    exact release_owes (contextLease context) hL
  | claimed context handle claim =>
    rw [leases_claimed]
    refine Prog.Triple.bind (release_owes (claimLease handle claim) (tidy_handle hL context handle)) fun _ => ?_
    refine Prog.Triple.bind (release_owes (handleLease context handle) (tidy_context hL context)) fun _ => ?_
    exact release_owes (contextLease context) hL

/-- A transport that is closed holds its context and nothing more. -/
theorem close_owes (impl : Impl) (hL : Tidy L) :
    Prog.Triple (Owes (impl.leases + L)) impl.close (fun impl' => Owes (impl'.leases + L)) E := by
  cases impl with
  | empty => exact Prog.Triple.pure fun _ hs => hs
  | initialized context => exact Prog.Triple.pure fun _ hs => hs
  | opened context handle =>
    rw [leases_opened]
    refine Prog.Triple.bind (release_owes (handleLease context handle) (tidy_context hL context)) fun _ => ?_
    exact Prog.Triple.pure fun _ hs => hs
  | claimed context handle claim =>
    rw [leases_claimed]
    refine Prog.Triple.bind (release_owes (claimLease handle claim) (tidy_handle hL context handle)) fun _ => ?_
    refine Prog.Triple.bind (release_owes (handleLease context handle) (tidy_context hL context)) fun _ => ?_
    exact Prog.Triple.pure fun _ hs => hs

theorem failWith_owes {α : Type} (impl : Impl) (e : Error) (hL : Tidy L) {Q : α → Registry Resource → Prop} :
    Prog.Triple (Owes (impl.leases + L)) (failWith impl e) Q (fun e' s => e' = e ∧ Owes L s) :=
  Prog.Triple.bind (destroy_owes impl hL) fun _ => Prog.Triple.fail fun _ hs => ⟨rfl, hs⟩

/-! ### Opening -/

/-- What opening ends with: an object that holds what it is to hold, or an error and nothing held. -/
abbrev Opens (L P : Held) (p : Action (Registry Resource) (Impl × UsbTransport.Opened))
    (r : Except Error UsbTransport.Opened) : Prop :=
  Prog.Triple (Owes P) p (fun a s => r = .ok a.2 ∧ Owes (a.1.leases + L) s) (fun e s => r = .error e ∧ Owes L s)

theorem failWith_opens (impl : Impl) (e : Error) (hL : Tidy L) :
    Opens L (impl.leases + L) (failWith impl e) (.error e) :=
  (failWith_owes impl e hL).conseq (fun _ hs => hs) (fun _ _ h => h) fun _ _ h => ⟨congrArg _ h.1.symm, h.2⟩

theorem knownSerial_keeps {context list : ℕ} (hcontext : contextLease context ∈ L) (hlist : listLease context list ∈ L)
    (device : Device) :
    Prog.Triple (Owes L) (knownSerial context list device)
      (Keeps L (match device.descriptor with
        | .ok descriptor => device.deviceSerial descriptor
        | .error _ => [])) E := by
  unfold knownSerial
  cases device.descriptor with
  | error code => exact pure_keeps []
  | ok descriptor => exact deviceSerial_keeps hcontext hlist device descriptor

theorem openFound_opens {context list : ℕ} (hL : Tidy L) (usb : Libusb) (device : Device × ℕ)
    (interface : AdbInterface) :
    Opens L (listLease context list ::ₘ contextLease context ::ₘ L) (openFound usb context list device interface)
      (UsbTransport.openFound usb device interface) := by
  have hcontext : contextLease context ∈ listLease context list ::ₘ contextLease context ::ₘ L := by simp
  have hlist : listLease context list ∈ listLease context list ::ₘ contextLease context ::ₘ L := by simp
  unfold openFound UsbTransport.openFound
  refine Prog.Triple.bind (use_owes hlist) fun _ => ?_
  refine known_bind (knownSerial_keeps hcontext hlist device.1) ?_
  refine Prog.Triple.bind (use_owes hlist) fun _ => ?_
  cases device.1.handle with
  | error code =>
    refine Prog.Triple.bind (release_owes (listLease context list) (tidy_context hL context)) fun _ => ?_
    exact failWith_opens (.initialized context) _ hL
  | ok _ =>
    refine Prog.Triple.bind (handle_owes hcontext) fun handle => ?_
    -- The list goes before the handle that was opened while it was there.
    rw [Multiset.cons_swap]
    refine Prog.Triple.bind (release_owes (listLease context list) (tidy_handle hL context handle)) fun _ => ?_
    have hhandle : handleLease context handle ∈ handleLease context handle ::ₘ contextLease context ::ₘ L := by simp
    refine Prog.Triple.bind (use_owes hhandle) fun _ => ?_
    cases device.1.claim with
    | error code =>
      rw [← leases_opened]
      exact failWith_opens (.opened context handle) _ hL
    | ok _ =>
      refine Prog.Triple.bind (claim_owes hhandle) fun claim => ?_
      refine Prog.Triple.bind (use_owes (Multiset.mem_cons_of_mem hhandle)) fun _ => ?_
      rw [← leases_claimed]
      exact Prog.Triple.pure fun _ hs => ⟨rfl, hs⟩

/-- Opening ends as `UsbTransport.open` answers, and holds afterwards what the object has in its fields. -/
theorem open_opens (usb : Libusb) (id : DeviceId) : Opens L L («open» usb id) (UsbTransport.open usb id) := by
  unfold «open» UsbTransport.open
  refine tidy_pre fun hL => ?_
  cases usb.init with
  | error code =>
    have h := failWith_opens .empty (usb.fail "libusb_init" code) hL
    rw [leases_empty] at h
    exact h
  | ok _ =>
    refine Prog.Triple.bind context_owes fun context => ?_
    cases usb.deviceList with
    | error code => exact failWith_opens (.initialized context) _ hL
    | ok devices =>
      have hcontext : contextLease context ∈ contextLease context ::ₘ L := Multiset.mem_cons_self _ L
      refine Prog.Triple.bind (list_owes hcontext) fun list => ?_
      have hlist : listLease context list ∈ listLease context list ::ₘ contextLease context ::ₘ L := by simp
      have hfail (e : Error) : Opens L (listLease context list ::ₘ contextLease context ::ₘ L)
          (do release list; failWith (.initialized context) e) (.error e) :=
        Prog.Triple.bind (release_owes (listLease context list) (tidy_context hL context)) fun _ =>
          failWith_opens (.initialized context) e hL
      refine known_bind (findDevice_keeps (Multiset.mem_cons_of_mem hcontext) hlist id devices.zipIdx) ?_
      change Opens L _ _ (match Usb.findDevice devices id with
        | none => .error (.of .transport "no USB device matching the given id")
        | some found => _)
      rw [← Usb.findDevice]
      cases Usb.findDevice devices id with
      | none => exact hfail _
      | some found =>
        refine known_bind (attempt_keeps (findAdbInterface_ends hlist usb found.1)) ?_
        dsimp only
        match Usb.findAdbInterface usb found.1 with
        | .error e => exact hfail e
        | .ok none => exact hfail _
        | .ok (some interface) => exact openFound_opens hL usb found interface

end Answers

end Adbcpp.Usb.Handles
