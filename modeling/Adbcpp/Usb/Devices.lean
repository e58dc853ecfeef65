import Adbcpp.Error
import Mathlib.Data.Int.Notation

/-! The USB devices of a host, and which of them is opened. A device is what libusb says
of it: its descriptors, or the codes of the calls that would read them. A device is
matched by its ids and, where one is asked for, by its serial; the ADB interface is
looked for apart from that. -/

namespace Adbcpp.Usb

/-! ### Descriptors -/

structure EndpointDescriptor where
  bEndpointAddress : UInt8
  bmAttributes : UInt8
  deriving DecidableEq, Repr

/-- One alternate setting of an interface. -/
structure InterfaceDescriptor where
  bInterfaceNumber : UInt8
  bInterfaceClass : UInt8
  bInterfaceSubClass : UInt8
  bInterfaceProtocol : UInt8
  endpoint : List EndpointDescriptor
  deriving DecidableEq, Repr

/-- The interfaces of a configuration, each with its alternate settings. -/
structure ConfigDescriptor where
  interface : List (List InterfaceDescriptor)
  deriving DecidableEq, Repr

structure DeviceDescriptor where
  idVendor : UInt16
  idProduct : UInt16
  /-- The index of the serial among the strings of the device, or zero where there is none. -/
  iSerialNumber : UInt8
  deriving DecidableEq, Repr

/-- A device as libusb shows it. A call that fails has its code in place of what it reads. -/
structure Device where
  descriptor : Except ℤ DeviceDescriptor
  activeConfig : Except ℤ ConfigDescriptor
  firstConfig : Except ℤ ConfigDescriptor
  /-- `libusb_open`. -/
  handle : Except ℤ Unit
  serialString : Except ℤ (List Byte)
  /-- `libusb_claim_interface`. -/
  claim : Except ℤ Unit

/-- libusb and the devices that are attached. -/
structure Libusb where
  init : Except ℤ Unit
  deviceList : Except ℤ (List Device)
  strerror : ℤ → String

/-- The error of a libusb code. -/
def Libusb.fail (usb : Libusb) (what : String) (code : ℤ) : Error :=
  .of .transport (what ++ ": " ++ usb.strerror code)

/-- A libusb call with its code as an error. -/
def Libusb.call {α : Type} (usb : Libusb) (what : String) (result : Except ℤ α) : Except Error α :=
  result.mapError (usb.fail what)

/-! ### Matching -/

/-- Which device is meant; a zero or an empty field matches any. -/
structure DeviceId where
  vendorId : UInt16 := 0
  productId : UInt16 := 0
  serial : List Byte := []
  deriving DecidableEq, Repr

/-- The serial of the device, or nothing where it has none or none can be read. -/
def Device.deviceSerial (device : Device) (descriptor : DeviceDescriptor) : List Byte :=
  if descriptor.iSerialNumber = 0 then []
  else match device.handle with
    | .error _ => []
    | .ok () => match device.serialString with
      | .error _ => []
      | .ok text => text

def «matches» (descriptor : DeviceDescriptor) (id : DeviceId) : Bool :=
  if id.vendorId ≠ 0 && descriptor.idVendor ≠ id.vendorId then false
  else if id.productId ≠ 0 && descriptor.idProduct ≠ id.productId then false
  else true

/-- What `find_device` asks of each device in turn. -/
def Device.selectedBy (id : DeviceId) (device : Device) : Bool :=
  match device.descriptor with
  | .error _ => false
  | .ok descriptor =>
    if !«matches» descriptor id then false
    else id.serial = [] || device.deviceSerial descriptor = id.serial

/-- The first device that the id selects, with its place in the list. -/
def findDevice (devices : List Device) (id : DeviceId) : Option (Device × ℕ) :=
  devices.zipIdx.find? fun (device, _) => device.selectedBy id

/-! ### The ADB interface -/

def kAdbInterfaceClass : UInt8 := 0xFF
def kAdbInterfaceSubClass : UInt8 := 0x42
def kAdbInterfaceProtocol : UInt8 := 0x01

/-- `LIBUSB_TRANSFER_TYPE_MASK` and `LIBUSB_TRANSFER_TYPE_BULK`. -/
def kTransferTypeMask : UInt8 := 0x03
def kTransferTypeBulk : UInt8 := 0x02

/-- `LIBUSB_ENDPOINT_DIR_MASK` and `LIBUSB_ENDPOINT_IN`. -/
def kEndpointDirMask : UInt8 := 0x80
def kEndpointIn : UInt8 := 0x80

/-- The ADB interface and the bulk endpoints it exposes. -/
structure AdbInterface where
  number : UInt8
  endpointIn : UInt8 := 0
  endpointOut : UInt8 := 0
  deriving DecidableEq, Repr

def InterfaceDescriptor.isAdb (altsetting : InterfaceDescriptor) : Bool :=
  altsetting.bInterfaceClass = kAdbInterfaceClass && altsetting.bInterfaceSubClass = kAdbInterfaceSubClass &&
    altsetting.bInterfaceProtocol = kAdbInterfaceProtocol

/-- One endpoint of the interface: the last bulk endpoint of each direction stays. -/
def AdbInterface.addEndpoint (found : AdbInterface) (endpoint : EndpointDescriptor) : AdbInterface :=
  if endpoint.bmAttributes &&& kTransferTypeMask ≠ kTransferTypeBulk then found
  else if endpoint.bEndpointAddress &&& kEndpointDirMask = kEndpointIn then
    { found with endpointIn := endpoint.bEndpointAddress }
  else { found with endpointOut := endpoint.bEndpointAddress }

/-- The first ADB setting of an interface. -/
def searchInterface (interface : List InterfaceDescriptor) : Option AdbInterface :=
  (interface.find? InterfaceDescriptor.isAdb).map fun altsetting =>
    altsetting.endpoint.foldl AdbInterface.addEndpoint { number := altsetting.bInterfaceNumber }

/-- The configuration that is active, or the first one. -/
def Device.config (device : Device) : Except ℤ ConfigDescriptor :=
  match device.activeConfig with
  | .ok config => .ok config
  | .error _ => device.firstConfig

/-- The ADB interface of a device, nothing where it has none with both endpoints, or an error where its
descriptors cannot be read. -/
def findAdbInterface (usb : Libusb) (device : Device) : Except Error (Option AdbInterface) := do
  let config ← usb.call "libusb_get_config_descriptor" device.config
  match config.interface.findSome? searchInterface with
  | none => pure none
  | some found =>
    if found.endpointIn = 0 || found.endpointOut = 0 then
      pure none
    else
      pure (some found)

/-! ### The entry points -/

namespace UsbTransport

/-- Whether a device that matches the id is attached. -/
def isPresent (usb : Libusb) (id : DeviceId) : Except Error Bool := do
  usb.call "libusb_init" usb.init
  match usb.deviceList with
  | .error _ => pure false
  | .ok devices => pure (findDevice devices id).isSome

/-- What a device is listed as, where it has an ADB interface. -/
def listed (usb : Libusb) (device : Device) : Option DeviceId :=
  match device.descriptor with
  | .error _ => none
  | .ok descriptor => match findAdbInterface usb device with
    | .ok (some _) => some { vendorId := descriptor.idVendor, productId := descriptor.idProduct,
                             serial := device.deviceSerial descriptor }
    | _ => none

/-- Every attached ADB device. -/
def list (usb : Libusb) : Except Error (List DeviceId) := do
  usb.call "libusb_init" usb.init
  let devices ← usb.call "libusb_get_device_list" usb.deviceList
  pure (devices.filterMap (listed usb))

/-- An opened device: its place in the list, and what is known of it. -/
structure Opened where
  device : ℕ
  interface : AdbInterface
  serial : List Byte
  deriving DecidableEq, Repr

/-- Opens a device whose ADB interface is known, and claims the interface. -/
def openFound (usb : Libusb) (device : Device × ℕ) (interface : AdbInterface) : Except Error Opened := do
  let serial := match device.1.descriptor with
    | .ok descriptor => device.1.deviceSerial descriptor
    | .error _ => []
  usb.call "libusb_open" device.1.handle
  usb.call "libusb_claim_interface" device.1.claim
  pure { device := device.2, interface, serial }

/-- Opens the device that matches the id. -/
def «open» (usb : Libusb) (id : DeviceId) : Except Error Opened := do
  usb.call "libusb_init" usb.init
  let devices ← usb.call "libusb_get_device_list" usb.deviceList
  match findDevice devices id with
  | none => .error (.of .transport "no USB device matching the given id")
  | some found => do
    let adb ← findAdbInterface usb found.1
    match adb with
    | none => .error (.of .transport "ADB USB interface not found")
    | some interface => openFound usb found interface

end UsbTransport

end Adbcpp.Usb
