import Adbcpp.Library.Numerals
import Adbcpp.Usb.Devices

/-! The selectors of a device. A text names a device by its serial or by its ids, which are
two hexadecimal numbers of 16 bits. Parsing leaves the numbers to `std::stoul`, which reads
more than runs of digits, and cuts what it returns to 16 bits: every selector is read as
what it says, but some texts that are none are read as well. -/

namespace Adbcpp.Usb

open Numerals

/-- The unsigned long of a platform. -/
structure UnsignedLong where
  bits : ℕ
  wide : 32 ≤ bits

namespace DeviceId

def kSerialPrefix : List Byte := bytesOf "serial:"

/-- The byte of a colon. -/
def colon : Byte := 0x3A

def parse (long : UnsignedLong) (text : List Byte) : Except Error DeviceId :=
  if kSerialPrefix <+: text then
    if text.length = kSerialPrefix.length then
      .error (.of .invalidArgument "serial: needs a serial number")
    else
      .ok { serial := text.drop kSerialPrefix.length }
  else match text.idxOf? colon with
  | none => .error (.of .invalidArgument "expected VID:PID or serial:<serial>")
  | some i =>
    if i = 0 ∨ i + 1 = text.length then
      .error (.of .invalidArgument "expected VID:PID or serial:<serial>")
    else match stoul long.bits (text.take i), stoul long.bits (text.drop (i + 1)) with
    -- Both values are narrowed to 16 bits.
    | some vendor, some product =>
      .ok { vendorId := UInt16.ofNat vendor, productId := UInt16.ofNat product }
    | _, _ => .error (.of .invalidArgument "VID:PID must be hexadecimal")

/-! ### The grammar -/

/-- The text is a run of hexadecimal digits that denotes a number of 16 bits. -/
def Denotes (text : List Byte) (id : UInt16) : Prop := HexRun text id.toNat

/-- The text selects the device. -/
inductive Selector : List Byte → DeviceId → Prop
  | serial {serial : List Byte} : serial ≠ [] → Selector (kSerialPrefix ++ serial) { serial }
  | ids {vendor product : List Byte} {vendorId productId : UInt16} : Denotes vendor vendorId →
      Denotes product productId → Selector (vendor ++ colon :: product) { vendorId, productId }

/-- The text is parsed as what it selects, and refused where it selects nothing. -/
structure ParsesExactly (long : UnsignedLong) (text : List Byte) : Prop where
  accepts : ∀ id, parse long text = .ok id ↔ Selector text id
  refuses : (∀ id, ¬ Selector text id) → ∃ e, parse long text = .error e ∧ e.code = .invalidArgument

/-- Both sides of the first colon begin with a number to `std::stoul`, but they are not both runs of
digits that denote 16 bits. -/
def Lenient (long : UnsignedLong) (text : List Byte) : Prop :=
  ¬ kSerialPrefix <+: text ∧ ∃ vendor product, text = vendor ++ colon :: product ∧ colon ∉ vendor ∧
    (stoul long.bits vendor).isSome ∧ (stoul long.bits product).isSome ∧
    ¬ ∃ vendorId productId, Denotes vendor vendorId ∧ Denotes product productId

/-- The rendering of two ids. -/
def render (vendorId productId : UInt16) : List Byte :=
  hexOf vendorId.toNat ++ colon :: hexOf productId.toNat

variable {long : UnsignedLong} {vendor product text : List Byte}

theorem colon_not_mem {n : ℕ} (h : HexRun text n) : colon ∉ text := by
  intro hmem
  have hcolon := h.digits colon hmem
  revert hcolon
  decide

theorem Denotes.read {id : UInt16} (h : Denotes text id) (long : UnsignedLong) :
    stoul long.bits text = some id.toNat := by
  apply h.stoul_eq
  have hwide : 2 ^ 32 ≤ 2 ^ long.bits := Nat.pow_le_pow_right (by omega) long.wide
  have hid := id.toNat_lt
  omega

/-- A text that selects by ids does not begin as a serial. -/
theorem Denotes.not_serial {id : UInt16} (h : Denotes vendor id) :
    ¬ kSerialPrefix <+: vendor ++ colon :: product := by
  cases vendor with
  | nil => exact absurd rfl h.nonempty
  | cons c rest =>
    intro hpart
    have hserial : kSerialPrefix = 0x73 :: bytesOf "erial:" := by decide
    rw [hserial, List.cons_append, List.cons_prefix_cons] at hpart
    have hdigit := h.digits c List.mem_cons_self
    rw [← hpart.1] at hdigit
    revert hdigit
    decide

/-- The numeral is more than digits, or denotes more than 16 bits. -/
def Strays (w : Numeral) : Prop := w.Adorned ∨ 2 ^ 16 ≤ hexValue w.digits

theorem denotes_iff (w : Numeral) : (∃ id, Denotes w.text id) ↔ ¬ Strays w := by
  simp only [Denotes, Numeral.hexRun_text, Strays, not_or, Nat.not_le]
  constructor
  · rintro ⟨id, hplain, hvalue⟩
    exact ⟨hplain, hvalue ▸ id.toNat_lt⟩
  · rintro ⟨hplain, hlt⟩
    exact ⟨UInt16.ofNat (hexValue w.digits), hplain, (UInt16.toNat_ofNat_of_lt' hlt).symm⟩

/-- The shape of the texts that are read more leniently: two numerals around the first colon, one of
them with a blank, a sign, a `0x` or something behind its digits, or with a value of 17 bits or more. -/
theorem lenient_iff : Lenient long text ↔ ¬ kSerialPrefix <+: text ∧ ∃ vendor product : Numeral,
    text = vendor.text ++ colon :: product.text ∧ colon ∉ vendor.text ∧
      hexValue vendor.digits < 2 ^ long.bits ∧ hexValue product.digits < 2 ^ long.bits ∧
      (Strays vendor ∨ Strays product) := by
  have hnot (v p : Numeral) : (¬ ∃ vendorId productId, Denotes v.text vendorId ∧ Denotes p.text productId) ↔
      Strays v ∨ Strays p := by
    rw [← exists_and_exists_comm, denotes_iff, denotes_iff, ← not_or, not_not]
  constructor
  · rintro ⟨hserial, vendor, product, htext, hcolon, hvendor, hproduct, hstray⟩
    obtain ⟨v, rfl, hv⟩ := (isSome_stoul_iff long.bits vendor).mp hvendor
    obtain ⟨p, rfl, hp⟩ := (isSome_stoul_iff long.bits product).mp hproduct
    exact ⟨hserial, v, p, htext, hcolon, hv, hp, (hnot v p).mp hstray⟩
  · rintro ⟨hserial, v, p, htext, hcolon, hv, hp, hstray⟩
    exact ⟨hserial, v.text, p.text, htext, hcolon, (v.isSome_stoul _).mpr hv, (p.isSome_stoul _).mpr hp,
      (hnot v p).mpr hstray⟩

/-! ### Parsing -/

theorem idxOf?_colon (hcolon : colon ∉ vendor) :
    (vendor ++ colon :: product).idxOf? colon = some vendor.length := by
  induction vendor with
  | nil => rfl
  | cons c rest ih =>
    rw [List.mem_cons, not_or] at hcolon
    rw [List.cons_append, List.idxOf?_cons, ih hcolon.2, if_neg (by simpa using Ne.symm hcolon.1)]
    rfl

theorem parse_serial (hserial : kSerialPrefix <+: text) : parse long text =
    if text.length = kSerialPrefix.length then .error (.of .invalidArgument "serial: needs a serial number")
    else .ok { serial := text.drop kSerialPrefix.length } := by
  rw [parse, if_pos hserial]

theorem parse_ids (hserial : ¬ kSerialPrefix <+: vendor ++ colon :: product) (hcolon : colon ∉ vendor)
    {v p : ℕ} (hv : stoul long.bits vendor = some v) (hp : stoul long.bits product = some p) :
    parse long (vendor ++ colon :: product) =
      .ok { vendorId := UInt16.ofNat v, productId := UInt16.ofNat p } := by
  have hvendor : vendor.length ≠ 0 := by
    intro hnil
    rw [List.eq_nil_of_length_eq_zero hnil, stoul_nil] at hv
    cases hv
  have hproduct : product.length ≠ 0 := by
    intro hnil
    rw [List.eq_nil_of_length_eq_zero hnil, stoul_nil] at hp
    cases hp
  have htake : (vendor ++ colon :: product).take vendor.length = vendor := by simp
  have hdrop : (vendor ++ colon :: product).drop (vendor.length + 1) = product := by simp
  rw [parse, if_neg hserial, idxOf?_colon hcolon]
  dsimp only
  rw [if_neg (by rw [List.length_append, List.length_cons]; omega), htake, hdrop, hv, hp]

theorem parse_unread (hserial : ¬ kSerialPrefix <+: vendor ++ colon :: product) (hcolon : colon ∉ vendor)
    (h : stoul long.bits vendor = none ∨ stoul long.bits product = none) :
    ∃ e, parse long (vendor ++ colon :: product) = .error e ∧ e.code = .invalidArgument := by
  have htake : (vendor ++ colon :: product).take vendor.length = vendor := by simp
  have hdrop : (vendor ++ colon :: product).drop (vendor.length + 1) = product := by simp
  rw [parse, if_neg hserial, idxOf?_colon hcolon]
  dsimp only
  rw [htake, hdrop]
  split
  · exact ⟨_, rfl, rfl⟩
  · rcases h with h | h
    · rw [h]
      exact ⟨_, rfl, rfl⟩
    · rw [h]
      cases stoul long.bits vendor <;> exact ⟨_, rfl, rfl⟩

theorem parse_colonless (hserial : ¬ kSerialPrefix <+: text) (hcolon : colon ∉ text) :
    ∃ e, parse long text = .error e ∧ e.code = .invalidArgument := by
  rw [parse, if_neg hserial, List.idxOf?_eq_none_iff.mpr hcolon]
  exact ⟨_, rfl, rfl⟩

theorem Selector.parse_eq {id : DeviceId} (h : Selector text id) (long : UnsignedLong) :
    parse long text = .ok id := by
  cases h with
  | serial hne =>
    rw [parse_serial (List.prefix_append _ _), if_neg (by simpa using hne), List.drop_left]
  | ids hv hp =>
    rw [parse_ids hv.not_serial (colon_not_mem hv) (hv.read long) (hp.read long), UInt16.ofNat_toNat,
      UInt16.ofNat_toNat]

/-- A text that is parsed as what it selects is not read more leniently. -/
theorem ParsesExactly.not_lenient (h : ParsesExactly long text) : ¬ Lenient long text := by
  rintro ⟨hserial, vendor, product, rfl, hcolon, hv, hp, hnot⟩
  obtain ⟨v, hv⟩ := Option.isSome_iff_exists.mp hv
  obtain ⟨p, hp⟩ := Option.isSome_iff_exists.mp hp
  have hselects := (h.accepts _).mp (parse_ids hserial hcolon hv hp)
  apply hnot
  generalize hid : (⟨UInt16.ofNat v, UInt16.ofNat p, []⟩ : DeviceId) = id at hselects
  generalize htext : vendor ++ colon :: product = text at hselects
  cases hselects with
  | serial hne =>
    rw [htext] at hserial
    exact absurd (List.prefix_append _ _) hserial
  | @ids vendor' product' vendorId productId hv' hp' =>
    have hlength : vendor.length = vendor'.length := by
      rw [← Option.some_inj, ← idxOf?_colon hcolon, htext, idxOf?_colon (colon_not_mem hv')]
    obtain ⟨rfl, htail⟩ := List.append_inj htext hlength
    obtain ⟨-, rfl⟩ := List.cons.inj htail
    exact ⟨vendorId, productId, hv', hp'⟩

theorem exactly_of_selector {id : DeviceId} (h : Selector text id) : ParsesExactly long text := by
  have hparse := h.parse_eq long
  refine ⟨fun id' => ⟨fun hid' => ?_, fun h' => h'.parse_eq long⟩, fun hnone => absurd h (hnone id)⟩
  rw [hparse] at hid'
  cases hid'
  exact h

theorem exactly_of_error {e : Error} (hparse : parse long text = .error e) (hcode : e.code = .invalidArgument) :
    ParsesExactly long text := by
  refine ⟨fun id => ⟨fun hid => ?_, fun h => h.parse_eq long⟩, fun _ => ⟨e, hparse, hcode⟩⟩
  rw [hparse] at hid
  cases hid

theorem exactly_of_not_lenient (h : ¬ Lenient long text) : ParsesExactly long text := by
  by_cases hserial : kSerialPrefix <+: text
  · obtain ⟨serial, rfl⟩ := hserial
    by_cases hnil : serial = []
    · have hparse : parse long (kSerialPrefix ++ serial) = .error (.of .invalidArgument "serial: needs a serial number") := by
        rw [parse_serial (List.prefix_append _ _), if_pos (by simp [hnil])]
      exact exactly_of_error hparse rfl
    · exact exactly_of_selector (.serial hnil)
  by_cases hcolon : colon ∈ text
  · obtain ⟨vendor, product, rfl, hfirst⟩ := List.eq_append_cons_of_mem hcolon
    by_cases hread : (stoul long.bits vendor).isSome ∧ (stoul long.bits product).isSome
    · have hdenotes : ∃ vendorId productId, Denotes vendor vendorId ∧ Denotes product productId := by
        by_contra hnot
        exact h ⟨hserial, vendor, product, rfl, hfirst, hread.1, hread.2, hnot⟩
      obtain ⟨vendorId, productId, hv, hp⟩ := hdenotes
      exact exactly_of_selector (.ids hv hp)
    · have hnone : stoul long.bits vendor = none ∨ stoul long.bits product = none := by
        rwa [not_and_or, Option.not_isSome_iff_eq_none, Option.not_isSome_iff_eq_none] at hread
      obtain ⟨e, hparse, hcode⟩ := parse_unread hserial hfirst hnone
      exact exactly_of_error hparse hcode
  · obtain ⟨e, hparse, hcode⟩ := parse_colonless hserial hcolon
    exact exactly_of_error hparse hcode

/-- A text is parsed as what it selects exactly where `std::stoul` is not more lenient than the
grammar, and the rendering of any two ids is read back. -/
theorem parse_exactly_iff (long : UnsignedLong) :
    (∀ text, ParsesExactly long text ↔ ¬ Lenient long text) ∧
      ∀ vendorId productId, parse long (render vendorId productId) = .ok { vendorId, productId } := by
  refine ⟨fun text => ⟨ParsesExactly.not_lenient, exactly_of_not_lenient⟩, fun vendorId productId => ?_⟩
  have hselects : Selector (render vendorId productId) { vendorId, productId } :=
    .ids (hexRun_hexOf vendorId.toNat) (hexRun_hexOf productId.toNat)
  exact hselects.parse_eq long

/-- The unsigned long of a 64-bit Linux. -/
def lp64 : UnsignedLong := ⟨64, by decide⟩

/-- A negative number selects the device with its complement. -/
theorem not_parsesExactly_negative : parse lp64 (bytesOf "-1:0x10") = .ok { vendorId := 0xFFFF, productId := 0x10 } ∧
    ¬ ParsesExactly lp64 (bytesOf "-1:0x10") := by
  refine ⟨by decide, fun h => h.not_lenient ?_⟩
  refine ⟨by decide, bytesOf "-1", bytesOf "0x10", by decide, by decide, by decide, by decide, ?_⟩
  rintro ⟨vendorId, productId, hvendor, -⟩
  have hminus := hvendor.digits 0x2D (by decide)
  revert hminus
  decide

end DeviceId

end Adbcpp.Usb
