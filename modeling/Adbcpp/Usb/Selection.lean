import Adbcpp.Usb.Devices

/-! Which device the three entry points speak of. Enumeration lists the devices with an ADB
interface, and the other two take the first device that the id selects before anyone
looks for the interface. They agree while that device has one. -/

namespace Adbcpp.Usb

/-! ### First matches -/

/-- The first element with a property that also has a value is the first one with the property, where
that one has a value. -/
theorem findSome?_of_find? {α β : Type} {p : α → Bool} {f : α → Option β} {l : List α} {x : α} {y : β}
    (h : l.find? p = some x) (hf : f x = some y) :
    l.findSome? (fun z => if p z then (f z).map (z, ·) else none) = some (x, y) := by
  induction l with
  | nil => cases h
  | cons z l ih =>
    rw [List.find?_cons] at h
    rw [List.findSome?_cons]
    cases hp : p z with
    | true =>
      rw [hp] at h
      cases h
      rw [if_pos rfl, hf]
      rfl
    | false =>
      rw [hp] at h
      exact ih h

theorem findSome?_of_find?_none {α β : Type} {p : α → Bool} {f : α → Option β} {l : List α}
    (h : l.find? p = none) : l.findSome? (fun z => if p z then (f z).map (z, ·) else none) = none := by
  rw [List.find?_eq_none] at h
  rw [List.findSome?_eq_none_iff]
  intro z hz
  rw [if_neg (h z hz)]

/-! ### The devices that can be opened -/

/-- The ADB interface of a device that has one. -/
def Device.adbInterface (usb : Libusb) (device : Device) : Option AdbInterface :=
  match findAdbInterface usb device with
  | .ok found => found
  | .error _ => none

/-- Both descriptors of the device can be read. -/
def Device.Readable (device : Device) : Prop :=
  (∃ descriptor, device.descriptor = .ok descriptor) ∧ ∃ config, device.config = .ok config

/-- The first device that matches the id and has an ADB interface, with its place in the list. -/
def target (usb : Libusb) (devices : List Device) (id : DeviceId) : Option ((Device × ℕ) × AdbInterface) :=
  devices.zipIdx.findSome? fun found =>
    if found.1.selectedBy id then (found.1.adbInterface usb).map (found, ·) else none

/-- A listed device matches an id. -/
def DeviceId.Matches (id device : DeviceId) : Prop :=
  (id.vendorId = 0 ∨ device.vendorId = id.vendorId) ∧ (id.productId = 0 ∨ device.productId = id.productId) ∧
    (id.serial = [] ∨ device.serial = id.serial)

theorem findAdbInterface_readable (usb : Libusb) {device : Device} (h : device.Readable) :
    ∃ found, findAdbInterface usb device = .ok found := by
  obtain ⟨-, config, hconfig⟩ := h
  unfold findAdbInterface
  rw [hconfig]
  cases hfound : config.interface.findSome? searchInterface with
  | none => exact ⟨none, by simp [Libusb.call, hfound, Except.mapError, bind, Except.bind, pure, Except.pure]⟩
  | some found =>
    simp only [Libusb.call, Except.mapError, bind, Except.bind, hfound]
    split
    · exact ⟨none, rfl⟩
    · exact ⟨some found, rfl⟩

theorem matches_iff (descriptor : DeviceDescriptor) (id : DeviceId) : «matches» descriptor id = true ↔
    (id.vendorId = 0 ∨ descriptor.idVendor = id.vendorId) ∧
      (id.productId = 0 ∨ descriptor.idProduct = id.productId) := by
  unfold «matches»
  by_cases hv : id.vendorId = 0 <;> by_cases hp : id.productId = 0 <;>
    by_cases hv' : descriptor.idVendor = id.vendorId <;>
    by_cases hp' : descriptor.idProduct = id.productId <;> simp [hv, hp, hv', hp']

/-- A device is selected when what it would be listed as matches the id. -/
theorem selectedBy_iff {device : Device} {descriptor : DeviceDescriptor} (id : DeviceId)
    (h : device.descriptor = .ok descriptor) : device.selectedBy id = true ↔
      id.Matches { vendorId := descriptor.idVendor, productId := descriptor.idProduct,
                   serial := device.deviceSerial descriptor } := by
  unfold Device.selectedBy DeviceId.Matches
  rw [h, ← and_assoc, ← matches_iff]
  dsimp only
  cases «matches» descriptor id <;> simp

namespace UsbTransport

/-- The outcome of opening the first device that can be opened. -/
def openTarget (usb : Libusb) (devices : List Device) (id : DeviceId) : Except Error Opened :=
  match target usb devices id with
  | none => .error (.of .transport "no USB device matching the given id")
  | some (found, interface) => openFound usb found interface

/-- The entry points go by the devices that can be opened. -/
structure Agrees (usb : Libusb) (devices : List Device) (id : DeviceId) : Prop where
  opens : UsbTransport.open usb id = openTarget usb devices id
  present : isPresent usb id = .ok true ↔
    ∃ listed, UsbTransport.list usb = .ok listed ∧ ∃ device ∈ listed, id.Matches device

/-- The text of a libusb failure begins with the name of the call. -/
theorem fail_ne (usb : Libusb) {what : String} (code : ℤ) (h : what.toList.head? = some 'l') :
    usb.fail what code ≠ .of .transport "ADB USB interface not found" := by
  intro heq
  have hbytes := congrArg (fun e : Error => e.message.head?) heq
  simp [Libusb.fail, Error.of, bytesOf, h] at hbytes

theorem openFound_ne (usb : Libusb) (found : Device × ℕ) (interface : AdbInterface) :
    openFound usb found interface ≠ .error (.of .transport "ADB USB interface not found") := by
  unfold openFound
  intro heq
  cases hopen : found.1.handle with
  | error code =>
    rw [hopen] at heq
    exact fail_ne usb code (by decide) (Except.error.inj heq)
  | ok handle =>
    rw [hopen] at heq
    cases hclaim : found.1.claim with
    | error code =>
      rw [hclaim] at heq
      exact fail_ne usb code (by decide) (Except.error.inj heq)
    | ok claimed =>
      rw [hclaim] at heq
      cases heq

theorem openTarget_ne (usb : Libusb) (devices : List Device) (id : DeviceId) :
    openTarget usb devices id ≠ .error (.of .transport "ADB USB interface not found") := by
  unfold openTarget
  cases target usb devices id with
  | none =>
    intro heq
    exact absurd (Except.error.inj heq) (by decide)
  | some found => exact openFound_ne usb found.1 found.2

theorem findDevice_some {devices : List Device} {id : DeviceId} {found : Device × ℕ}
    (h : findDevice devices id = some found) : found.1 ∈ devices ∧ found.1.selectedBy id = true := by
  unfold findDevice at h
  have hselected := List.find?_some h
  exact ⟨List.fst_mem_of_mem_zipIdx (List.mem_of_find?_eq_some h), hselected⟩

theorem findDevice_isSome (devices : List Device) (id : DeviceId) :
    (findDevice devices id).isSome = true ↔ ∃ device ∈ devices, device.selectedBy id = true := by
  constructor
  · intro h
    obtain ⟨found, hfound⟩ := Option.isSome_iff_exists.mp h
    exact ⟨found.1, findDevice_some hfound⟩
  · rintro ⟨device, hdevice, hselected⟩
    rw [← List.zipIdx_map_fst 0 devices] at hdevice
    obtain ⟨found, hfound, rfl⟩ := List.mem_map.mp hdevice
    exact List.find?_isSome.mpr ⟨found, hfound, hselected⟩

theorem open_eq {usb : Libusb} {devices : List Device} (hinit : usb.init = .ok ())
    (hlist : usb.deviceList = .ok devices) (hreadable : ∀ device ∈ devices, device.Readable) (id : DeviceId) :
    UsbTransport.open usb id = match findDevice devices id with
      | none => .error (.of .transport "no USB device matching the given id")
      | some found => match found.1.adbInterface usb with
        | none => .error (.of .transport "ADB USB interface not found")
        | some interface => openFound usb found interface := by
  unfold UsbTransport.open
  rw [hinit, hlist]
  simp only [Libusb.call, Except.mapError, bind, Except.bind]
  cases hfind : findDevice devices id with
  | none => rfl
  | some found =>
    obtain ⟨adb, hadb⟩ := findAdbInterface_readable usb (hreadable found.1 (findDevice_some hfind).1)
    have hinterface : found.1.adbInterface usb = adb := by
      unfold Device.adbInterface
      rw [hadb]
    cases adb with
    | none => simp [hadb, hinterface]
    | some interface => simp [hadb, hinterface]

/-- The two sides open the same device exactly when the first device that the id selects has an ADB
interface. -/
theorem opens_iff {usb : Libusb} {devices : List Device} (hinit : usb.init = .ok ())
    (hlist : usb.deviceList = .ok devices) (hreadable : ∀ device ∈ devices, device.Readable) (id : DeviceId) :
    UsbTransport.open usb id = openTarget usb devices id ↔
      ∀ found, findDevice devices id = some found → (found.1.adbInterface usb).isSome = true := by
  rw [open_eq hinit hlist hreadable]
  cases hfind : findDevice devices id with
  | none =>
    rw [openTarget, target, findSome?_of_find?_none hfind]
    simp
  | some found =>
    cases hadb : found.1.adbInterface usb with
    | some interface =>
      rw [openTarget, target, findSome?_of_find? (f := fun found => found.1.adbInterface usb) hfind hadb]
      simp [hadb]
    | none =>
      constructor
      · intro h
        dsimp only at h
        rw [hadb] at h
        exact absurd h.symm (openTarget_ne usb devices id)
      · intro h
        have hsome := h found rfl
        rw [hadb] at hsome
        cases hsome

/-- A device is present when one of those that the id selects is attached, with an ADB interface or not. -/
theorem isPresent_iff {usb : Libusb} {devices : List Device} (hinit : usb.init = .ok ())
    (hlist : usb.deviceList = .ok devices) (id : DeviceId) :
    isPresent usb id = .ok true ↔ ∃ device ∈ devices, device.selectedBy id = true := by
  have hpresent : isPresent usb id = .ok (findDevice devices id).isSome := by
    unfold isPresent
    rw [hinit, hlist]
    rfl
  rw [hpresent, ← findDevice_isSome, Except.ok.injEq]

theorem list_eq {usb : Libusb} {devices : List Device} (hinit : usb.init = .ok ())
    (hlist : usb.deviceList = .ok devices) : UsbTransport.list usb = .ok (devices.filterMap (listed usb)) := by
  unfold UsbTransport.list
  rw [hinit, hlist]
  rfl

/-- A device is listed under the id when it is selected and has an ADB interface. -/
theorem listed_iff {usb : Libusb} {devices : List Device} (hreadable : ∀ device ∈ devices, device.Readable)
    (id : DeviceId) : (∃ found ∈ devices.filterMap (listed usb), id.Matches found) ↔
      ∃ device ∈ devices, device.selectedBy id = true ∧ (device.adbInterface usb).isSome = true := by
  have hlisted (device : Device) (descriptor : DeviceDescriptor) (h : device.descriptor = .ok descriptor) :
      listed usb device = (device.adbInterface usb).map fun _ =>
        { vendorId := descriptor.idVendor, productId := descriptor.idProduct,
          serial := device.deviceSerial descriptor } := by
    unfold listed Device.adbInterface
    rw [h]
    dsimp only
    cases findAdbInterface usb device with
    | error e => rfl
    | ok found => cases found <;> rfl
  constructor
  · rintro ⟨found, hfound, hmatches⟩
    obtain ⟨device, hdevice, hsome⟩ := List.mem_filterMap.mp hfound
    obtain ⟨descriptor, hdescriptor⟩ := (hreadable device hdevice).1
    rw [hlisted device descriptor hdescriptor] at hsome
    obtain ⟨interface, hadb, rfl⟩ := Option.map_eq_some_iff.mp hsome
    exact ⟨device, hdevice, (selectedBy_iff id hdescriptor).mpr hmatches, by rw [hadb]; rfl⟩
  · rintro ⟨device, hdevice, hselected, hadb⟩
    obtain ⟨descriptor, hdescriptor⟩ := (hreadable device hdevice).1
    obtain ⟨interface, hinterface⟩ := Option.isSome_iff_exists.mp hadb
    refine ⟨_, List.mem_filterMap.mpr ⟨device, hdevice, ?_⟩, (selectedBy_iff id hdescriptor).mp hselected⟩
    rw [hlisted device descriptor hdescriptor, hinterface]
    rfl

/-- Enumeration and the other two agree exactly when the first device that the id selects has an ADB
interface, or none is selected. -/
theorem agrees_iff {usb : Libusb} {devices : List Device} (hinit : usb.init = .ok ())
    (hlist : usb.deviceList = .ok devices) (hreadable : ∀ device ∈ devices, device.Readable) (id : DeviceId) :
    Agrees usb devices id ↔
      ∀ found, findDevice devices id = some found → (found.1.adbInterface usb).isSome = true := by
  constructor
  · intro h
    exact (opens_iff hinit hlist hreadable id).mp h.opens
  · intro h
    refine ⟨(opens_iff hinit hlist hreadable id).mpr h, ?_⟩
    have hlisted : (∃ listed, UsbTransport.list usb = .ok listed ∧ ∃ device ∈ listed, id.Matches device) ↔
        ∃ found ∈ devices.filterMap (listed usb), id.Matches found := by
      simp [list_eq hinit hlist]
    rw [isPresent_iff hinit hlist, hlisted, listed_iff hreadable]
    constructor
    · intro hsome
      obtain ⟨found, hfound⟩ := Option.isSome_iff_exists.mp ((findDevice_isSome devices id).mpr hsome)
      obtain ⟨hmem, hselected⟩ := findDevice_some hfound
      exact ⟨found.1, hmem, hselected, h found hfound⟩
    · rintro ⟨device, hdevice, hselected, -⟩
      exact ⟨device, hdevice, hselected⟩

/-- The ADB setting of a phone. -/
def adbSetting : InterfaceDescriptor where
  bInterfaceNumber := 1
  bInterfaceClass := kAdbInterfaceClass
  bInterfaceSubClass := kAdbInterfaceSubClass
  bInterfaceProtocol := kAdbInterfaceProtocol
  endpoint := [⟨0x82, 0x02⟩, ⟨0x01, 0x02⟩]

/-- The setting of a mouse, with one interrupt endpoint. -/
def mouseSetting : InterfaceDescriptor where
  bInterfaceNumber := 0
  bInterfaceClass := 0x03
  bInterfaceSubClass := 0x01
  bInterfaceProtocol := 0x02
  endpoint := [⟨0x81, 0x03⟩]

def phone : Device where
  descriptor := .ok { idVendor := 0x18D1, idProduct := 0x4EE7, iSerialNumber := 3 }
  activeConfig := .ok ⟨[[adbSetting]]⟩
  firstConfig := .error (-5)
  handle := .ok ()
  serialString := .ok (bytesOf "0A")
  claim := .ok ()

def mouse : Device where
  descriptor := .ok { idVendor := 0x046D, idProduct := 0xC077, iSerialNumber := 0 }
  activeConfig := .ok ⟨[[mouseSetting]]⟩
  firstConfig := .error (-5)
  handle := .ok ()
  serialString := .error (-9)
  claim := .ok ()

def attached (devices : List Device) : Libusb where
  init := .ok ()
  deviceList := .ok devices
  strerror _ := ""

theorem phone_readable : phone.Readable := ⟨⟨_, rfl⟩, ⟨_, rfl⟩⟩

theorem mouse_readable : mouse.Readable := ⟨⟨_, rfl⟩, ⟨_, rfl⟩⟩

/-- A phone in front of the mouse is the one that is opened. -/
theorem agrees_phone : Agrees (attached [phone, mouse]) [phone, mouse] {} := by
  apply (agrees_iff rfl rfl (by simp [phone_readable, mouse_readable]) {}).mpr
  intro found hfound
  cases hfound
  decide

/-- Behind a mouse it is not found. -/
theorem not_agrees_mouse : ¬ ∀ (usb : Libusb) (devices : List Device) (id : DeviceId), usb.init = .ok () →
    usb.deviceList = .ok devices → (∀ device ∈ devices, device.Readable) → Agrees usb devices id := by
  intro h
  have hopens := (h (attached [mouse, phone]) [mouse, phone] {} rfl rfl
    (by simp [phone_readable, mouse_readable])).opens
  have herror : UsbTransport.open (attached [mouse, phone]) {} =
      .error (.of .transport "ADB USB interface not found") := rfl
  exact openTarget_ne _ _ _ (hopens.symm.trans herror)

end UsbTransport

end Adbcpp.Usb
