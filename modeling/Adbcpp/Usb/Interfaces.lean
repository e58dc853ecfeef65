import Mathlib.Data.List.Induction
import Adbcpp.Usb.Devices

/-! The search for the ADB interface of a configuration. It ends at the first setting of the
ADB class and keeps the last bulk endpoint of each direction there. What it finds is
right, but a first ADB setting without usable endpoints hides the ones behind it. -/

namespace Adbcpp.Usb

/-! ### What there is to find -/

def EndpointDescriptor.isBulkIn (endpoint : EndpointDescriptor) : Bool :=
  endpoint.bmAttributes &&& kTransferTypeMask = kTransferTypeBulk &&
    endpoint.bEndpointAddress &&& kEndpointDirMask = kEndpointIn

def EndpointDescriptor.isBulkOut (endpoint : EndpointDescriptor) : Bool :=
  endpoint.bmAttributes &&& kTransferTypeMask = kTransferTypeBulk &&
    endpoint.bEndpointAddress &&& kEndpointDirMask ≠ kEndpointIn

/-- All alternate settings, in the order of the interfaces. -/
def ConfigDescriptor.settings (config : ConfigDescriptor) : List InterfaceDescriptor := config.interface.flatten

namespace InterfaceDescriptor

/-- A setting of the ADB class with a bulk endpoint in each direction. -/
structure Usable (altsetting : InterfaceDescriptor) : Prop where
  adb : altsetting.isAdb = true
  input : ∃ endpoint ∈ altsetting.endpoint, endpoint.isBulkIn = true
  output : ∃ endpoint ∈ altsetting.endpoint, endpoint.isBulkOut = true

/-- The interface is the one of the setting, with two of its endpoints. -/
structure Offers (altsetting : InterfaceDescriptor) (found : AdbInterface) : Prop where
  adb : altsetting.isAdb = true
  number : found.number = altsetting.bInterfaceNumber
  input : ∃ endpoint ∈ altsetting.endpoint, endpoint.isBulkIn = true ∧ endpoint.bEndpointAddress = found.endpointIn
  output : ∃ endpoint ∈ altsetting.endpoint, endpoint.isBulkOut = true ∧ endpoint.bEndpointAddress = found.endpointOut

/-- The last bulk endpoint of the setting for output is not at address zero. -/
def Addressed (altsetting : InterfaceDescriptor) : Prop :=
  ∃ endpoint, altsetting.endpoint.reverse.find? EndpointDescriptor.isBulkOut = some endpoint ∧
    endpoint.bEndpointAddress ≠ 0

end InterfaceDescriptor

/-- The search finds an interface where a setting is usable, and what it finds is one of a setting. -/
structure FindsUsable (usb : Libusb) (device : Device) (config : ConfigDescriptor) : Prop where
  finds : (∃ found, findAdbInterface usb device = .ok (some found)) ↔
    ∃ altsetting ∈ config.settings, altsetting.Usable
  offers : ∀ found, findAdbInterface usb device = .ok (some found) →
    ∃ altsetting ∈ config.settings, altsetting.Offers found

/-! ### What the loops find -/

theorem EndpointDescriptor.address_ne_zero {endpoint : EndpointDescriptor} (h : endpoint.isBulkIn = true) :
    endpoint.bEndpointAddress ≠ 0 := by
  intro hzero
  have hmask : (0 : UInt8) &&& kEndpointDirMask ≠ kEndpointIn := by decide
  rw [isBulkIn, hzero, Bool.and_eq_true, decide_eq_true_eq, decide_eq_true_eq] at h
  exact hmask h.2

/-- The last endpoint of each direction is kept. -/
theorem foldl_addEndpoint (endpoints : List EndpointDescriptor) (found : AdbInterface) :
    endpoints.foldl AdbInterface.addEndpoint found =
      { number := found.number
        endpointIn := ((endpoints.reverse.find? EndpointDescriptor.isBulkIn).map (·.bEndpointAddress)).getD
          found.endpointIn
        endpointOut := ((endpoints.reverse.find? EndpointDescriptor.isBulkOut).map (·.bEndpointAddress)).getD
          found.endpointOut } := by
  induction endpoints using List.reverseRecOn with
  | nil => rfl
  | append_singleton endpoints endpoint ih =>
    rw [List.foldl_append, ih, List.reverse_concat, List.find?_cons, List.find?_cons]
    simp only [List.foldl_cons, List.foldl_nil, AdbInterface.addEndpoint]
    by_cases hbulk : endpoint.bmAttributes &&& kTransferTypeMask = kTransferTypeBulk
    · by_cases hin : endpoint.bEndpointAddress &&& kEndpointDirMask = kEndpointIn
      · simp [EndpointDescriptor.isBulkIn, EndpointDescriptor.isBulkOut, hbulk, hin]
      · simp [EndpointDescriptor.isBulkIn, EndpointDescriptor.isBulkOut, hbulk, hin]
    · simp [EndpointDescriptor.isBulkIn, EndpointDescriptor.isBulkOut, hbulk]

/-- What the search makes of an ADB setting. -/
def InterfaceDescriptor.found (altsetting : InterfaceDescriptor) : AdbInterface :=
  altsetting.endpoint.foldl AdbInterface.addEndpoint { number := altsetting.bInterfaceNumber }

/-- The loops over interfaces and settings are one over all settings. -/
theorem findSome?_searchInterface (config : ConfigDescriptor) :
    config.interface.findSome? searchInterface =
      (config.settings.find? InterfaceDescriptor.isAdb).map InterfaceDescriptor.found := by
  rw [ConfigDescriptor.settings, List.find?_flatten, List.map_findSome?]
  rfl

theorem findAdbInterface_eq_some {usb : Libusb} {device : Device} {config : ConfigDescriptor}
    (hconfig : device.config = .ok config) {found : AdbInterface} :
    findAdbInterface usb device = .ok (some found) ↔
      ∃ altsetting, config.settings.find? InterfaceDescriptor.isAdb = some altsetting ∧
        altsetting.found = found ∧ found.endpointIn ≠ 0 ∧ found.endpointOut ≠ 0 := by
  have hcall : usb.call "libusb_get_config_descriptor" device.config = .ok config := by
    rw [hconfig]
    rfl
  have hsearch : findAdbInterface usb device = (config.interface.findSome? searchInterface).elim (pure none)
      fun found => if found.endpointIn = 0 || found.endpointOut = 0 then pure none else pure (some found) := by
    rw [findAdbInterface, hcall]
    cases hfound : config.interface.findSome? searchInterface <;> simp [bind, Except.bind, hfound]
  rw [hsearch, findSome?_searchInterface]
  cases config.settings.find? InterfaceDescriptor.isAdb with
  | none => simp [pure, Except.pure]
  | some altsetting =>
    simp only [Option.map_some, Option.elim_some, pure, Except.pure]
    split
    next hzero =>
      simp only [Except.ok.injEq, reduceCtorEq, false_iff]
      rintro ⟨_, ⟨⟩, rfl, hin, hout⟩
      simp [hin, hout] at hzero
    next hzero =>
      simp only [Bool.or_eq_true, decide_eq_true_eq, not_or] at hzero
      simp only [Except.ok.injEq, Option.some.injEq, exists_eq_left']
      constructor
      · rintro rfl
        exact ⟨rfl, hzero⟩
      · rintro ⟨rfl, -⟩
        rfl

/-! ### When everything is found -/

namespace InterfaceDescriptor

variable {altsetting : InterfaceDescriptor}

theorem found_endpointIn (altsetting : InterfaceDescriptor) : altsetting.found.endpointIn =
    ((altsetting.endpoint.reverse.find? EndpointDescriptor.isBulkIn).map (·.bEndpointAddress)).getD 0 := by
  rw [found, foldl_addEndpoint]

theorem found_endpointOut (altsetting : InterfaceDescriptor) : altsetting.found.endpointOut =
    ((altsetting.endpoint.reverse.find? EndpointDescriptor.isBulkOut).map (·.bEndpointAddress)).getD 0 := by
  rw [found, foldl_addEndpoint]

theorem found_number (altsetting : InterfaceDescriptor) : altsetting.found.number = altsetting.bInterfaceNumber := by
  rw [found, foldl_addEndpoint]

/-- An address that was found is one of an endpoint of its kind. -/
theorem exists_endpoint {endpoints : List EndpointDescriptor} {kind : EndpointDescriptor → Bool}
    (h : ((endpoints.reverse.find? kind).map (·.bEndpointAddress)).getD 0 ≠ 0) :
    ∃ endpoint ∈ endpoints, kind endpoint = true ∧
      endpoint.bEndpointAddress = ((endpoints.reverse.find? kind).map (·.bEndpointAddress)).getD 0 := by
  cases hfind : endpoints.reverse.find? kind with
  | none =>
    rw [hfind] at h
    exact absurd rfl h
  | some endpoint =>
    exact ⟨endpoint, List.mem_reverse.mp (List.mem_of_find?_eq_some hfind), List.find?_some hfind, rfl⟩

theorem found_offers (hadb : altsetting.isAdb = true) (hin : altsetting.found.endpointIn ≠ 0)
    (hout : altsetting.found.endpointOut ≠ 0) : altsetting.Offers altsetting.found := by
  refine ⟨hadb, found_number altsetting, ?_, ?_⟩
  · rw [found_endpointIn] at hin ⊢
    exact exists_endpoint hin
  · rw [found_endpointOut] at hout ⊢
    exact exists_endpoint hout

theorem Offers.usable {found : AdbInterface} (h : altsetting.Offers found) : altsetting.Usable := by
  obtain ⟨endpoint, hmem, hin, -⟩ := h.input
  obtain ⟨endpoint', hmem', hout, -⟩ := h.output
  exact ⟨h.adb, ⟨endpoint, hmem, hin⟩, ⟨endpoint', hmem', hout⟩⟩

theorem Usable.endpointIn (h : altsetting.Usable) : altsetting.found.endpointIn ≠ 0 := by
  obtain ⟨endpoint, hmem, hin⟩ := h.input
  rw [found_endpointIn]
  cases hfind : altsetting.endpoint.reverse.find? EndpointDescriptor.isBulkIn with
  | none => exact absurd hin (List.find?_eq_none.mp hfind endpoint (List.mem_reverse.mpr hmem))
  | some last => exact EndpointDescriptor.address_ne_zero (List.find?_some hfind)

theorem addressed_iff (altsetting : InterfaceDescriptor) :
    altsetting.Addressed ↔ altsetting.found.endpointOut ≠ 0 := by
  rw [Addressed, found_endpointOut]
  cases altsetting.endpoint.reverse.find? EndpointDescriptor.isBulkOut with
  | none => simp
  | some last => simp

end InterfaceDescriptor

/-- A usable setting is found exactly where none is there, or the first ADB setting is one and its last
output endpoint has an address. -/
theorem findsUsable_iff {usb : Libusb} {device : Device} {config : ConfigDescriptor}
    (hconfig : device.config = .ok config) : FindsUsable usb device config ↔
      (∀ altsetting ∈ config.settings, ¬ altsetting.Usable) ∨
        ∃ altsetting, config.settings.find? InterfaceDescriptor.isAdb = some altsetting ∧
          altsetting.Usable ∧ altsetting.Addressed := by
  have hfound := @findAdbInterface_eq_some usb device config hconfig
  have hoffers : ∀ found, findAdbInterface usb device = .ok (some found) →
      ∃ altsetting ∈ config.settings, altsetting.Offers found := by
    intro found h
    obtain ⟨altsetting, hfind, rfl, hin, hout⟩ := hfound.mp h
    exact ⟨altsetting, List.mem_of_find?_eq_some hfind, InterfaceDescriptor.found_offers (List.find?_some hfind) hin hout⟩
  constructor
  · intro h
    by_cases husable : ∃ altsetting ∈ config.settings, altsetting.Usable
    · obtain ⟨found, hsome⟩ := h.finds.mpr husable
      obtain ⟨altsetting, hfind, rfl, hin, hout⟩ := hfound.mp hsome
      have hadb := List.find?_some hfind
      exact .inr ⟨altsetting, hfind, (InterfaceDescriptor.found_offers hadb hin hout).usable,
        altsetting.addressed_iff.mpr hout⟩
    · exact .inl fun altsetting hmem hsetting => husable ⟨altsetting, hmem, hsetting⟩
  · intro h
    refine ⟨⟨?_, fun husable => ?_⟩, hoffers⟩
    · rintro ⟨found, hsome⟩
      obtain ⟨altsetting, hmem, hoffer⟩ := hoffers found hsome
      exact ⟨altsetting, hmem, hoffer.usable⟩
    · rcases h with hnone | ⟨altsetting, hfind, hsetting, haddressed⟩
      · obtain ⟨altsetting, hmem, hsetting⟩ := husable
        exact absurd hsetting (hnone altsetting hmem)
      · exact ⟨altsetting.found, hfound.mpr ⟨altsetting, hfind, rfl, hsetting.endpointIn,
          altsetting.addressed_iff.mp haddressed⟩⟩

/-- The ADB setting of a phone, with some endpoints. -/
def adbSetting (number : UInt8) (endpoint : List EndpointDescriptor) : InterfaceDescriptor where
  bInterfaceNumber := number
  bInterfaceClass := kAdbInterfaceClass
  bInterfaceSubClass := kAdbInterfaceSubClass
  bInterfaceProtocol := kAdbInterfaceProtocol
  endpoint := endpoint

/-- Two bulk endpoints, one for each direction. -/
def bulkEndpoints : List EndpointDescriptor := [⟨0x81, 0x02⟩, ⟨0x01, 0x02⟩]

/-- A device with a configuration. -/
def configured (config : ConfigDescriptor) : Device where
  descriptor := .ok ⟨0x18D1, 0x4EE7, 0⟩
  activeConfig := .ok config
  firstConfig := .ok config
  handle := .ok ()
  serialString := .error (-1)
  claim := .ok ()

def quietLibusb : Libusb := ⟨.ok (), .ok [], fun _ => ""⟩

theorem findsUsable_iff_first :
    FindsUsable quietLibusb (configured ⟨[[adbSetting 1 bulkEndpoints]]⟩) ⟨[[adbSetting 1 bulkEndpoints]]⟩ := by
  refine (findsUsable_iff rfl).mpr (.inr ⟨adbSetting 1 bulkEndpoints, by decide, ?_, ?_⟩)
  · exact ⟨by decide, ⟨⟨0x81, 0x02⟩, by decide, by decide⟩, ⟨⟨0x01, 0x02⟩, by decide, by decide⟩⟩
  · exact ⟨⟨0x01, 0x02⟩, by decide, by decide⟩

/-- Two ADB interfaces, of which only the second has endpoints. -/
def hiddenConfig : ConfigDescriptor := ⟨[[adbSetting 0 []], [adbSetting 1 bulkEndpoints]]⟩

/-- The usable interface is hidden by the one in front of it. -/
theorem not_findsUsable_hidden : findAdbInterface quietLibusb (configured hiddenConfig) = .ok none ∧
    ¬ FindsUsable quietLibusb (configured hiddenConfig) hiddenConfig := by
  have hnone : findAdbInterface quietLibusb (configured hiddenConfig) = .ok none := rfl
  refine ⟨hnone, fun h => ?_⟩
  have husable : (adbSetting 1 bulkEndpoints).Usable :=
    ⟨by decide, ⟨⟨0x81, 0x02⟩, by decide, by decide⟩, ⟨⟨0x01, 0x02⟩, by decide, by decide⟩⟩
  obtain ⟨found, hfound⟩ := h.finds.mpr ⟨adbSetting 1 bulkEndpoints, by decide, husable⟩
  rw [hnone] at hfound
  cases hfound

end Adbcpp.Usb
