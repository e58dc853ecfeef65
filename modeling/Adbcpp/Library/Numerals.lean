import Mathlib.Algebra.Order.Ring.Nat
import Mathlib.Data.List.TakeWhile
import Mathlib.Tactic.Common

/-! Hexadecimal numerals. A run of digits denotes a number, and every number has such a run.
`std::stoul` in base 16 reads more than runs: blanks, a sign and a `0x` in front of the
digits, and whatever is behind them. It refuses a text without digits and a magnitude
that does not fit an unsigned long. -/

namespace Numerals

/-- The value of a hexadecimal digit. -/
def hexDigit (c : UInt8) : Option ℕ :=
  if 0x30 ≤ c.toNat ∧ c.toNat ≤ 0x39 then some (c.toNat - 0x30)
  else if 0x41 ≤ c.toNat ∧ c.toNat ≤ 0x46 then some (c.toNat - 0x41 + 10)
  else if 0x61 ≤ c.toNat ∧ c.toNat ≤ 0x66 then some (c.toNat - 0x61 + 10)
  else none

def isHexDigit (c : UInt8) : Bool := (hexDigit c).isSome

/-- What digits denote. -/
def hexValue (digits : List UInt8) : ℕ := digits.foldl (fun n c => 16 * n + (hexDigit c).getD 0) 0

/-- The text is a run of hexadecimal digits that denotes `n`. -/
structure HexRun (text : List UInt8) (n : ℕ) : Prop where
  nonempty : text ≠ []
  digits : ∀ c ∈ text, isHexDigit c = true
  value : hexValue text = n

theorem hexValue_concat (digits : List UInt8) (c : UInt8) :
    hexValue (digits ++ [c]) = 16 * hexValue digits + (hexDigit c).getD 0 := by
  rw [hexValue, List.foldl_append]
  rfl

theorem isHexDigit_iff (c : UInt8) : isHexDigit c = true ↔ (0x30 ≤ c.toNat ∧ c.toNat ≤ 0x39) ∨
    (0x41 ≤ c.toNat ∧ c.toNat ≤ 0x46) ∨ (0x61 ≤ c.toNat ∧ c.toNat ≤ 0x66) := by
  unfold isHexDigit hexDigit
  split_ifs with h₁ h₂ h₃
  · simp [h₁]
  · simp [h₂]
  · simp [h₃]
  · simp [h₁, h₂, h₃]

/-! ### Every number has a run -/

/-- The digits of a number, in lower case. -/
def hexOf (n : ℕ) : List UInt8 := (Nat.toDigits 16 n).map fun c => UInt8.ofNat c.toNat

theorem hexDigit_digitChar {d : ℕ} (h : d < 16) : hexDigit (UInt8.ofNat d.digitChar.toNat) = some d := by
  have : ∀ d < 16, hexDigit (UInt8.ofNat (Nat.digitChar d).toNat) = some d := by decide
  exact this d h

theorem hexOf_of_lt {n : ℕ} (h : n < 16) : hexOf n = [UInt8.ofNat n.digitChar.toNat] := by
  rw [hexOf, Nat.toDigits_of_lt_base h]
  rfl

theorem hexOf_of_le {n : ℕ} (h : 16 ≤ n) :
    hexOf n = hexOf (n / 16) ++ [UInt8.ofNat (n % 16).digitChar.toNat] := by
  rw [hexOf, Nat.toDigits_of_base_le (by omega) h, List.map_append]
  rfl

theorem hexRun_hexOf (n : ℕ) : HexRun (hexOf n) n := by
  induction n using Nat.strongRecOn with
  | ind n ih =>
    by_cases hlt : n < 16
    · have hdigit := hexDigit_digitChar hlt
      rw [hexOf_of_lt hlt]
      refine ⟨List.cons_ne_nil _ _, ?_, ?_⟩
      · simp [isHexDigit, hdigit]
      · simp [hexValue, hdigit]
    · have hdigit := hexDigit_digitChar (Nat.mod_lt n (by omega : 16 > 0))
      have hrun := ih (n / 16) (by omega)
      rw [hexOf_of_le (Nat.le_of_not_lt hlt)]
      refine ⟨by simp, ?_, ?_⟩
      · intro c hc
        rcases List.mem_append.mp hc with hc | hc
        · exact hrun.digits c hc
        · simp [List.mem_singleton.mp hc, isHexDigit, hdigit]
      · rw [hexValue_concat, hrun.value, hdigit, Option.getD_some]
        omega

/-! ### What `std::stoul` reads -/

/-- `std::isspace` in the C locale. -/
def isSpace (c : UInt8) : Bool := c.toNat = 0x20 ∨ (0x09 ≤ c.toNat ∧ c.toNat ≤ 0x0D)

/-- A sign, and what is behind it; no sign is a plus. -/
def skipSign : List UInt8 → Bool × List UInt8
  | [] => (false, [])
  | c :: rest =>
    if c.toNat = 0x2D then (true, rest)
    else if c.toNat = 0x2B then (false, rest)
    else (false, c :: rest)

/-- A `0x` counts as one only in front of a digit. -/
def skipRadix : List UInt8 → List UInt8
  | zero :: x :: c :: rest =>
    if zero.toNat = 0x30 ∧ (x.toNat = 0x78 ∨ x.toNat = 0x58) ∧ isHexDigit c then c :: rest
    else zero :: x :: c :: rest
  | text => text

/-- `std::stoul(text, nullptr, 16)` for an unsigned long of `bits` bits, or nothing where it throws. A
minus negates the magnitude in that type. -/
def stoul (bits : ℕ) (text : List UInt8) : Option ℕ :=
  let (negative, text) := skipSign (text.dropWhile isSpace)
  let digits := (skipRadix text).takeWhile isHexDigit
  if digits = [] then none
  else if 2 ^ bits ≤ hexValue digits then none
  else if negative then some ((2 ^ bits - hexValue digits) % 2 ^ bits)
  else some (hexValue digits)

theorem skipRadix_digits {digits : List UInt8} (h : ∀ c ∈ digits, isHexDigit c = true) :
    skipRadix digits = digits := by
  unfold skipRadix
  split
  next zero x c rest =>
    have hx := (isHexDigit_iff x).mp (h x (by simp))
    rw [if_neg (by omega)]
  next => rfl

/-- A run is read as what it denotes where that fits. -/
theorem HexRun.stoul_eq {text : List UInt8} {n bits : ℕ} (h : HexRun text n) (hlt : n < 2 ^ bits) :
    stoul bits text = some n := by
  obtain ⟨hne, hdigits, rfl⟩ := h
  cases text with
  | nil => exact absurd rfl hne
  | cons c rest =>
    have hc := (isHexDigit_iff c).mp (hdigits c List.mem_cons_self)
    have hspace : (c :: rest).dropWhile isSpace = c :: rest :=
      List.dropWhile_cons_of_neg (by simp only [isSpace, decide_eq_true_eq]; omega)
    have hsign : skipSign (c :: rest) = (false, c :: rest) := by
      rw [skipSign, if_neg (by omega), if_neg (by omega)]
    have htake : (c :: rest).takeWhile isHexDigit = c :: rest := List.takeWhile_eq_self_iff.mpr hdigits
    rw [stoul, hspace, hsign]
    dsimp only
    rw [skipRadix_digits hdigits, htake, if_neg (List.cons_ne_nil _ _), if_neg (Nat.not_le_of_lt hlt), if_neg (by simp)]

/-- Nothing is read from an empty text. -/
theorem stoul_nil (bits : ℕ) : stoul bits [] = none := rfl

/-! ### The texts it reads -/

/-- The letter behind the zero of a `0x`. -/
def IsX (c : UInt8) : Prop := c.toNat = 0x78 ∨ c.toNat = 0x58

instance (c : UInt8) : Decidable (IsX c) := inferInstanceAs (Decidable (_ ∨ _))

theorem isHexDigit_space {c : UInt8} (h : isSpace c = true) : isHexDigit c = false := by
  rw [Bool.eq_false_iff, ne_eq, isHexDigit_iff]
  simp only [isSpace, decide_eq_true_eq] at h
  omega

theorem isHexDigit_x {c : UInt8} (h : IsX c) : isHexDigit c = false := by
  rw [Bool.eq_false_iff, ne_eq, isHexDigit_iff]
  rcases h with h | h <;> omega

/-- A text with digits to read, in its parts. -/
structure Numeral where
  blanks : List UInt8
  sign : List UInt8
  radix : List UInt8
  digits : List UInt8
  rest : List UInt8
  blank : ∀ c ∈ blanks, isSpace c = true
  signs : sign = [] ∨ sign = [0x2D] ∨ sign = [0x2B]
  radixes : radix = [] ∨ ∃ x, IsX x ∧ radix = [0x30, x]
  nonempty : digits ≠ []
  hex : ∀ c ∈ digits, isHexDigit c = true
  /-- The digits end where the rest begins. -/
  ends : ∀ c ∈ rest.head?, isHexDigit c = false
  /-- A `0x` in front of a digit is not taken for the digit zero. -/
  whole : radix = [] → ∀ x c more, digits ++ rest = 0x30 :: x :: c :: more → IsX x → isHexDigit c = false

namespace Numeral

def text (w : Numeral) : List UInt8 := w.blanks ++ (w.sign ++ (w.radix ++ (w.digits ++ w.rest)))

/-- Something besides its digits is in the text. -/
def Adorned (w : Numeral) : Prop := w.blanks ≠ [] ∨ w.sign ≠ [] ∨ w.radix ≠ [] ∨ w.rest ≠ []

variable (w : Numeral)

theorem takeWhile_digits : (w.digits ++ w.rest).takeWhile isHexDigit = w.digits := by
  have hrest : w.rest.takeWhile isHexDigit = [] := by
    rw [List.takeWhile_eq_nil_iff]
    intro hpos
    simpa using w.ends _ (List.head?_eq_getElem? .. ▸ List.getElem?_eq_getElem hpos)
  rw [List.takeWhile_append_of_pos w.hex, hrest, List.append_nil]

theorem exists_first : ∃ c more, w.digits = c :: more ∧ isHexDigit c = true := by
  obtain ⟨c, more, hdigits⟩ := List.exists_cons_of_ne_nil w.nonempty
  exact ⟨c, more, hdigits, w.hex c (by rw [hdigits]; exact List.mem_cons_self)⟩

/-- Behind the sign stands a digit: that of a `0x` or the first of the number. -/
theorem exists_digit : ∃ c more, w.radix ++ (w.digits ++ w.rest) = c :: more ∧ isHexDigit c = true := by
  rcases w.radixes with h | ⟨x, -, h⟩
  · obtain ⟨c, more, hdigits, hc⟩ := w.exists_first
    rw [h, hdigits]
    exact ⟨c, more ++ w.rest, rfl, hc⟩
  · rw [h]
    exact ⟨0x30, _, rfl, by decide⟩

theorem skipRadix_eq : skipRadix (w.radix ++ (w.digits ++ w.rest)) = w.digits ++ w.rest := by
  rcases w.radixes with h | ⟨x, hx, h⟩
  · rw [h, List.nil_append]
    unfold skipRadix
    split
    next zero x c more heq =>
      rw [if_neg, heq]
      rintro ⟨hzero, hx, hc⟩
      have hzero : zero = 0x30 := UInt8.toNat_inj.mp hzero
      have hnot := w.whole h x c more (by rw [heq, hzero]) hx
      rw [hnot] at hc
      cases hc
    next => rfl
  · obtain ⟨c, more, hdigits, hc⟩ := w.exists_first
    rw [h, hdigits]
    exact if_pos ⟨rfl, hx, hc⟩

theorem skipSign_eq : (skipSign (w.sign ++ (w.radix ++ (w.digits ++ w.rest)))).2 =
    w.radix ++ (w.digits ++ w.rest) := by
  rcases w.signs with h | h | h
  · obtain ⟨c, more, hdigit, hc⟩ := w.exists_digit
    have hc := (isHexDigit_iff c).mp hc
    rw [h, List.nil_append, hdigit, skipSign, if_neg (by omega), if_neg (by omega)]
  · rw [h]
    rfl
  · rw [h]
    rfl

theorem dropWhile_blanks : w.text.dropWhile isSpace = w.sign ++ (w.radix ++ (w.digits ++ w.rest)) := by
  rw [text, List.dropWhile_append_of_pos w.blank]
  rcases w.signs with h | h | h
  · obtain ⟨c, more, hdigit, hc⟩ := w.exists_digit
    have hc := (isHexDigit_iff c).mp hc
    rw [h, List.nil_append, hdigit]
    exact List.dropWhile_cons_of_neg (by simp only [isSpace, decide_eq_true_eq]; omega)
  · rw [h]
    rfl
  · rw [h]
    rfl

theorem isSome_stoul (bits : ℕ) : (stoul bits w.text).isSome ↔ hexValue w.digits < 2 ^ bits := by
  rw [stoul, w.dropWhile_blanks]
  dsimp only
  rw [w.skipSign_eq, w.skipRadix_eq, w.takeWhile_digits, if_neg w.nonempty]
  by_cases hfits : 2 ^ bits ≤ hexValue w.digits
  · rw [if_pos hfits]
    simpa using hfits
  · rw [if_neg hfits]
    split <;> simpa using hfits

theorem text_plain (h : ¬ w.Adorned) : w.text = w.digits := by
  simp only [Adorned, not_or, not_not] at h
  obtain ⟨hblanks, hsign, hradix, hrest⟩ := h
  rw [text, hblanks, hsign, hradix, hrest, List.append_nil]
  rfl

/-- What is in the text besides its digits has a byte that is none. -/
theorem exists_nonDigit (h : w.Adorned) : ∃ c ∈ w.text, isHexDigit c = false := by
  rcases h with hblanks | hsign | hradix | hrest
  · obtain ⟨c, hc⟩ := List.exists_mem_of_ne_nil _ hblanks
    exact ⟨c, by simp [text, hc], isHexDigit_space (w.blank c hc)⟩
  · rcases w.signs with h | h | h
    · exact absurd h hsign
    · exact ⟨0x2D, by simp [text, h], by decide⟩
    · exact ⟨0x2B, by simp [text, h], by decide⟩
  · rcases w.radixes with h | ⟨x, hx, h⟩
    · exact absurd h hradix
    · exact ⟨x, by simp [text, h], isHexDigit_x hx⟩
  · obtain ⟨c, more, hcons⟩ := List.exists_cons_of_ne_nil hrest
    exact ⟨c, by simp [text, hcons], w.ends c (by rw [hcons]; rfl)⟩

/-- The text is a run of digits exactly where nothing else is in it. -/
theorem hexRun_text (n : ℕ) : HexRun w.text n ↔ ¬ w.Adorned ∧ hexValue w.digits = n := by
  constructor
  · rintro ⟨-, hhex, hvalue⟩
    have hplain : ¬ w.Adorned := by
      intro hadorned
      obtain ⟨c, hc, hnot⟩ := w.exists_nonDigit hadorned
      rw [hhex c hc] at hnot
      cases hnot
    rw [w.text_plain hplain] at hvalue
    exact ⟨hplain, hvalue⟩
  · rintro ⟨hplain, rfl⟩
    rw [w.text_plain hplain]
    exact ⟨w.nonempty, w.hex, rfl⟩

end Numeral

theorem skipSign_split (text : List UInt8) :
    ∃ sign, (sign = [] ∨ sign = [0x2D] ∨ sign = [0x2B]) ∧ sign ++ (skipSign text).2 = text := by
  cases text with
  | nil => exact ⟨[], .inl rfl, rfl⟩
  | cons c rest =>
    rw [skipSign]
    split_ifs with hminus hplus
    · exact ⟨[0x2D], .inr (.inl rfl), congrArg (· :: rest) (UInt8.toNat_inj.mp hminus.symm)⟩
    · exact ⟨[0x2B], .inr (.inr rfl), congrArg (· :: rest) (UInt8.toNat_inj.mp hplus.symm)⟩
    · exact ⟨[], .inl rfl, rfl⟩

theorem skipRadix_split (text : List UInt8) : ∃ radix, (radix = [] ∨ ∃ x, IsX x ∧ radix = [0x30, x]) ∧
    radix ++ skipRadix text = text ∧
    (radix = [] → ∀ x c more, text = 0x30 :: x :: c :: more → IsX x → isHexDigit c = false) := by
  unfold skipRadix
  split
  next zero x c more =>
    split_ifs with h
    · obtain ⟨hzero, hx, -⟩ := h
      have hzero : zero = 0x30 := UInt8.toNat_inj.mp hzero
      rw [hzero]
      exact ⟨[0x30, x], .inr ⟨x, hx, rfl⟩, rfl, fun h => absurd h (List.cons_ne_nil _ _)⟩
    · refine ⟨[], .inl rfl, rfl, fun _ x' c' more' heq hx => ?_⟩
      cases heq
      simpa using fun hc => h ⟨rfl, hx, hc⟩
  next hshort => exact ⟨[], .inl rfl, rfl, fun _ x c more heq _ => absurd heq (hshort _ _ _ _)⟩

/-- `std::stoul` reads the numerals whose digits fit. -/
theorem isSome_stoul_iff (bits : ℕ) (text : List UInt8) :
    (stoul bits text).isSome ↔ ∃ w : Numeral, w.text = text ∧ hexValue w.digits < 2 ^ bits := by
  constructor
  swap
  · rintro ⟨w, rfl, hfits⟩
    exact (w.isSome_stoul bits).mpr hfits
  intro hsome
  obtain ⟨sign, hsigns, hsign⟩ := skipSign_split (text.dropWhile isSpace)
  obtain ⟨radix, hradixes, hradix, hwhole⟩ := skipRadix_split (skipSign (text.dropWhile isSpace)).2
  have hdigits : (skipRadix (skipSign (text.dropWhile isSpace)).2).takeWhile isHexDigit ≠ [] := by
    intro hnone
    simp [stoul, hnone] at hsome
  let w : Numeral :=
    { blanks := text.takeWhile isSpace
      sign := sign
      radix := radix
      digits := (skipRadix (skipSign (text.dropWhile isSpace)).2).takeWhile isHexDigit
      rest := (skipRadix (skipSign (text.dropWhile isSpace)).2).dropWhile isHexDigit
      blank := fun c hc => List.mem_takeWhile_imp hc
      signs := hsigns
      radixes := hradixes
      nonempty := hdigits
      hex := fun c hc => List.mem_takeWhile_imp hc
      ends := by
        intro c hc
        have hhead := List.head?_dropWhile_not isHexDigit (skipRadix (skipSign (text.dropWhile isSpace)).2)
        rw [hc] at hhead
        simpa using hhead
      whole := by
        rintro rfl
        rw [List.takeWhile_append_dropWhile, ← List.nil_append (skipRadix _), hradix]
        exact hwhole rfl }
  have htext : w.text = text := by
    simp only [w, Numeral.text]
    rw [List.takeWhile_append_dropWhile, hradix, hsign, List.takeWhile_append_dropWhile]
  exact ⟨w, htext, (w.isSome_stoul bits).mp (by rw [htext]; exact hsome)⟩

end Numerals
