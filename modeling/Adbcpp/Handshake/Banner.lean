import Mathlib.Data.List.TakeWhile
import Adbcpp.Handshake.Conformance

/-! The banner of a device. It holds properties behind the identity of the device, and
the features that a connection supports are the names in one of them. The host finds
that property by a search for its key with the `=`, which may also be found inside
another property; it goes by the first property with that text in it. -/

namespace Adbcpp

open Protocol

/-! ### The first occurrence of a pattern -/

/-- What stands behind the first occurrence of a pattern. -/
def behind (pattern text : List Byte) : Option (List Byte) := (splitFirst pattern text).map Prod.snd

theorem behind_cons (pattern : List Byte) (b : Byte) (text : List Byte) : behind pattern (b :: text) =
    if pattern <+: b :: text then some ((b :: text).drop pattern.length) else behind pattern text := by
  unfold behind
  rw [splitFirst]
  by_cases h : pattern <+: b :: text
  · rw [if_pos h, if_pos (List.isPrefixOf_iff_prefix.mpr h)]
    rfl
  · rw [if_neg h, if_neg (mt List.isPrefixOf_iff_prefix.mp h), Option.map_map]
    rfl

theorem behind_nil {pattern : List Byte} (h : pattern ≠ []) : behind pattern [] = none := by
  rw [behind, splitFirst, if_neg h]
  rfl

/-- A pattern that is at the front of a text is found there. -/
theorem behind_front (pattern rest : List Byte) (h : pattern ≠ []) :
    behind pattern (pattern ++ rest) = some rest := by
  obtain ⟨b, tail, rfl⟩ := List.exists_cons_of_ne_nil h
  have hfront : b :: tail <+: b :: (tail ++ rest) := List.prefix_append (b :: tail) rest
  have hdrop : (b :: (tail ++ rest)).drop (b :: tail).length = rest := List.drop_left
  rw [List.cons_append, behind_cons, if_pos hfront, hdrop]

/-- The pattern and what stands behind it are the end of the text. -/
theorem split_of_behind {pattern text rest : List Byte} (h : behind pattern text = some rest) :
    ∃ front, text = front ++ pattern ++ rest := by
  induction text with
  | nil =>
    by_cases hnil : pattern = []
    · rw [behind, splitFirst, if_pos hnil] at h
      cases h
      exact ⟨[], by rw [hnil]; rfl⟩
    · rw [behind_nil hnil] at h
      cases h
  | cons b text ih =>
    rw [behind_cons] at h
    split at h
    next hfront =>
      obtain ⟨tail, htail⟩ := hfront
      rw [← htail, List.drop_left] at h
      cases h
      exact ⟨[], htail.symm⟩
    next =>
      obtain ⟨front, rfl⟩ := ih h
      exact ⟨b :: front, rfl⟩

theorem suffix_of_behind {pattern text rest : List Byte} (h : behind pattern text = some rest) :
    rest <:+ text := by
  obtain ⟨front, rfl⟩ := split_of_behind h
  exact List.suffix_append _ _

/-- What is found is in the text. -/
theorem infix_of_behind {pattern text rest : List Byte} (h : behind pattern text = some rest) :
    pattern <:+: text := by
  obtain ⟨front, rfl⟩ := split_of_behind h
  exact List.infix_append _ _ _

/-- What is in the text is found. -/
theorem behind_ne_none {pattern text : List Byte} (h : pattern <:+: text) : behind pattern text ≠ none := by
  induction text with
  | nil =>
    obtain rfl := List.infix_nil.mp h
    rw [behind, splitFirst, if_pos rfl]
    exact Option.some_ne_none _
  | cons b text ih =>
    rw [behind_cons]
    split
    next => exact Option.some_ne_none _
    next hfront =>
      rcases List.infix_cons_iff.mp h with hprefix | hinfix
      · exact absurd hprefix hfront
      · exact ih hinfix

/-- The first occurrence stays the first when the text goes on. -/
theorem behind_append {pattern text rest : List Byte} (hnil : pattern ≠ [])
    (h : behind pattern text = some rest) (more : List Byte) :
    behind pattern (text ++ more) = some (rest ++ more) := by
  induction text with
  | nil =>
    rw [behind_nil hnil] at h
    cases h
  | cons b text ih =>
    have hcons : b :: (text ++ more) = (b :: text) ++ more := rfl
    rw [behind_cons] at h
    rw [List.cons_append, behind_cons, hcons]
    split at h
    next hfront =>
      cases h
      rw [if_pos (hfront.trans (List.prefix_append _ more)), List.drop_append_of_le_length hfront.length_le]
    next hfront =>
      have hlen : pattern.length ≤ (b :: text).length := Nat.le_succ_of_le (infix_of_behind h).length_le
      have hlater : ¬ pattern <+: (b :: text) ++ more := fun hpre =>
        hfront (List.prefix_of_prefix_length_le hpre (List.prefix_append _ more) hlen)
      rw [if_neg hlater, ih h]

/-- A pattern that begins in front of a byte that it does not have also ends there. -/
theorem prefix_of_prefix_append {pattern text more : List Byte} {separator : Byte}
    (hsep : separator ∉ pattern) (h : pattern <+: text ++ separator :: more) : pattern <+: text := by
  induction text generalizing pattern with
  | nil =>
    cases pattern with
    | nil => exact List.prefix_rfl
    | cons b pattern =>
      obtain ⟨rfl, -⟩ := List.cons_prefix_cons.mp h
      exact absurd List.mem_cons_self hsep
  | cons c text ih =>
    cases pattern with
    | nil => exact List.nil_prefix
    | cons b pattern =>
      obtain ⟨rfl, htail⟩ := List.cons_prefix_cons.mp h
      have hsep' : separator ∉ pattern := fun hmem => hsep (List.mem_cons_of_mem b hmem)
      exact List.cons_prefix_cons.mpr ⟨rfl, ih hsep' htail⟩

/-- A search that finds nothing in front of such a byte goes on behind it. -/
theorem behind_separator {pattern text : List Byte} {separator : Byte} (hnil : pattern ≠ [])
    (hsep : separator ∉ pattern) (h : behind pattern text = none) (more : List Byte) :
    behind pattern (text ++ separator :: more) = behind pattern more := by
  induction text with
  | nil =>
    have hfront : ¬ pattern <+: [] ++ separator :: more := fun hpre =>
      hnil (List.prefix_nil.mp (prefix_of_prefix_append hsep hpre))
    rw [List.nil_append] at hfront ⊢
    rw [behind_cons, if_neg hfront]
  | cons b text ih =>
    rw [behind_cons] at h
    split at h
    next => cases h
    next hfront =>
      have hlater : ¬ pattern <+: (b :: text) ++ separator :: more := fun hpre =>
        hfront (prefix_of_prefix_append hsep hpre)
      rw [List.cons_append] at hlater ⊢
      rw [behind_cons, if_neg hlater, ih h]

/-- A search for a pattern with a byte in it that the text does not have finds nothing. -/
theorem behind_none {pattern text : List Byte} {b : Byte} (hb : b ∈ pattern) (h : b ∉ text) :
    behind pattern text = none := by
  induction text with
  | nil => exact behind_nil (List.ne_nil_of_mem hb)
  | cons c text ih =>
    have hfront : ¬ pattern <+: c :: text := fun hpre => h (hpre.subset hb)
    rw [behind_cons, if_neg hfront]
    exact ih fun hmem => h (List.mem_cons_of_mem c hmem)

/-! ### The properties -/

def kSemicolon : Byte := UInt8.ofNat ';'.toNat
def kComma : Byte := UInt8.ofNat ','.toNat
def kEquals : Byte := UInt8.ofNat '='.toNat

/-- One property of a banner. -/
structure Property where
  key : List Byte
  value : List Byte
  key_plain : kEquals ∉ key ∧ kSemicolon ∉ key
  value_plain : kSemicolon ∉ value

def Property.text (p : Property) : List Byte := p.key ++ kEquals :: p.value

/-- Properties with a semicolon between each two of them. -/
def joinProperties : List Property → List Byte
  | [] => []
  | [p] => p.text
  | p :: q :: ps => p.text ++ kSemicolon :: joinProperties (q :: ps)

/-- A banner: the identity of the device, and its properties, of which one lists the features at most. -/
structure Banner where
  identity : List Byte
  identity_plain : kEquals ∉ identity ∧ kSemicolon ∉ identity
  properties : List Property
  features_once : (properties.map Property.key).count (bytesOf "features") ≤ 1

def Banner.text (b : Banner) : List Byte := b.identity ++ bytesOf "::" ++ joinProperties b.properties

theorem Property.text_plain (p : Property) : kSemicolon ∉ p.text := by
  rw [Property.text, List.mem_append, List.mem_cons]
  rintro (hkey | heq | hvalue)
  · exact p.key_plain.2 hkey
  · exact absurd heq (by decide)
  · exact p.value_plain hvalue

/-- The text that the host looks for. -/
def kFeaturesKey : List Byte := bytesOf "features="

/-- What the host takes for the value of the features: what stands behind that text in the first
property that has it. -/
def Banner.found (b : Banner) : Option (List Byte) := b.properties.findSome? fun p => behind kFeaturesKey p.text

/-- A value goes on to the next semicolon. -/
def cutValue (text : List Byte) : List Byte := text.takeWhile (· ≠ kSemicolon)

theorem mem_ne_semicolon {value : List Byte} (h : kSemicolon ∉ value) :
    ∀ b ∈ value, decide (b ≠ kSemicolon) = true :=
  fun _ hb => decide_eq_true fun heq => h (heq ▸ hb)

theorem cutValue_end {value : List Byte} (h : kSemicolon ∉ value) : cutValue value = value := by
  rw [cutValue, ← List.append_nil value, List.takeWhile_append_of_pos (mem_ne_semicolon h)]
  rfl

theorem cutValue_semicolon {value : List Byte} (h : kSemicolon ∉ value) (more : List Byte) :
    cutValue (value ++ kSemicolon :: more) = value := by
  rw [cutValue, List.takeWhile_append_of_pos (mem_ne_semicolon h), List.takeWhile_cons_of_neg (by simp),
    List.append_nil]

theorem parseProperty_eq (banner key : List Byte) :
    parseProperty banner key = ((behind key banner).map cutValue).getD [] := by
  unfold parseProperty behind
  cases splitFirst key banner with
  | none => rfl
  | some found => rfl

/-- A search over properties is a search in each of them. -/
theorem behind_joinProperties (ps : List Property) :
    (behind kFeaturesKey (joinProperties ps)).map cutValue =
      ps.findSome? fun p => behind kFeaturesKey p.text := by
  have hnil : kFeaturesKey ≠ [] := by decide
  have hsep : kSemicolon ∉ kFeaturesKey := by decide
  induction ps with
  | nil => rw [joinProperties, behind_nil hnil, Option.map_none, List.findSome?_nil]
  | cons p ps ih =>
    rw [List.findSome?_cons]
    cases hfound : behind kFeaturesKey p.text with
    | none =>
      cases ps with
      | nil => rw [joinProperties, hfound, Option.map_none, List.findSome?_nil]
      | cons q ps => rw [joinProperties, behind_separator hnil hsep hfound, ih]
    | some value =>
      have hplain : kSemicolon ∉ value := fun hmem => p.text_plain ((suffix_of_behind hfound).subset hmem)
      cases ps with
      | nil => rw [joinProperties, hfound, Option.map_some, cutValue_end hplain]
      | cons q ps => rw [joinProperties, behind_append hnil hfound, Option.map_some, cutValue_semicolon hplain]

/-- The host goes by the first property with the text that it looks for. -/
theorem parseProperty_banner (b : Banner) : parseProperty b.text kFeaturesKey = b.found.getD [] := by
  have hnil : kFeaturesKey ≠ [] := by decide
  have hcolon : (UInt8.ofNat ':'.toNat) ∉ kFeaturesKey := by decide
  have hidentity : behind kFeaturesKey b.identity = none :=
    behind_none (b := kEquals) (by decide) b.identity_plain.1
  have htext : b.text = b.identity ++ UInt8.ofNat ':'.toNat ::
      ([] ++ UInt8.ofNat ':'.toNat :: joinProperties b.properties) := by
    rw [Banner.text, List.append_assoc]
    rfl
  rw [parseProperty_eq, htext, behind_separator hnil hcolon hidentity,
    behind_separator hnil hcolon (behind_nil hnil), behind_joinProperties]
  rfl

/-! ### The features -/

/-- The names in a value, without empty ones. -/
def namesOf (value : List Byte) : List (List Byte) := (value.splitOn kComma).filter (· ≠ [])

theorem mem_namesOf {value name : List Byte} : name ∈ namesOf value ↔ name ∈ value.splitOn kComma ∧ name ≠ [] := by
  simp [namesOf]

/-- Names that are joined with commas are the names of the value. -/
theorem namesOf_join {names : List (List Byte)} (h : ∀ name ∈ names, name ≠ [] ∧ kComma ∉ name) :
    namesOf ([kComma].intercalate names) = names := by
  by_cases hnil : names = []
  · rw [hnil]
    rfl
  · rw [namesOf, List.splitOn_intercalate kComma (fun name hname => (h name hname).2) hnil]
    exact List.filter_eq_self.mpr fun name hname => decide_eq_true (h name hname).1

theorem parseFeatures_banner (b : Banner) : parseFeatures b.text = namesOf (b.found.getD []) := by
  rw [← parseProperty_banner]
  rfl

/-- The name is in the list of the property whose key is exactly `features`. -/
def Banner.Advertises (b : Banner) (name : List Byte) : Prop :=
  name ≠ [] ∧ ∃ p ∈ b.properties, p.key = bytesOf "features" ∧ name ∈ p.value.splitOn kComma

/-- The properties in front of the one of the features; all of them where there is none. -/
def Banner.inFront (b : Banner) : List Property := b.properties.takeWhile fun q => q.key ≠ bytesOf "features"

/-- None of these has the text that the host looks for. -/
def Banner.Clear (b : Banner) : Prop := ∀ q ∈ b.inFront, ¬ kFeaturesKey <:+: q.text

theorem Property.behind_features {p : Property} (h : p.key = bytesOf "features") :
    behind kFeaturesKey p.text = some p.value := by
  have htext : p.text = kFeaturesKey ++ p.value := by
    rw [Property.text, h]
    rfl
  rw [htext, behind_front _ _ (by decide)]

theorem findSome?_behind {ps : List Property} (h : ∀ q ∈ ps, ¬ kFeaturesKey <:+: q.text) :
    ps.findSome? (fun q => behind kFeaturesKey q.text) = none := by
  apply List.findSome?_eq_none_iff.mpr
  intro q hq
  cases hfound : behind kFeaturesKey q.text with
  | none => rfl
  | some value => exact absurd (infix_of_behind hfound) (h q hq)

/-- Where the text is first found in the property of the features, its value is found. -/
theorem found_features {b : Banner} {before after : List Property} {p : Property}
    (hsplit : b.properties = before ++ p :: after) (hkey : p.key = bytesOf "features")
    (hbefore : ∀ q ∈ before, ¬ kFeaturesKey <:+: q.text) : b.found = some p.value := by
  rw [Banner.found, hsplit, List.findSome?_append, findSome?_behind hbefore, List.findSome?_cons,
    Property.behind_features hkey]
  rfl

theorem key_of_mem_inFront {b : Banner} {q : Property} (h : q ∈ b.inFront) : q.key ≠ bytesOf "features" := by
  rw [Banner.inFront] at h
  have hkey := List.mem_takeWhile_imp h
  exact of_decide_eq_true hkey

/-- The property of the features is the first one that is not in front of it. -/
theorem inFront_split (b : Banner) : b.inFront = b.properties ∨
    ∃ p after, b.properties = b.inFront ++ p :: after ∧ p.key = bytesOf "features" := by
  have hsplit : b.inFront ++ b.properties.dropWhile (fun q => q.key ≠ bytesOf "features") = b.properties :=
    List.takeWhile_append_dropWhile
  cases hrest : b.properties.dropWhile fun q => q.key ≠ bytesOf "features" with
  | nil =>
    rw [hrest, List.append_nil] at hsplit
    exact .inl hsplit
  | cons p after =>
    have hhead := List.head?_dropWhile_not (fun q : Property => decide (q.key ≠ bytesOf "features")) b.properties
    rw [hrest] at hsplit hhead
    exact .inr ⟨p, after, hsplit.symm, not_not.mp (of_decide_eq_false hhead)⟩

/-- No other property has its key. -/
theorem features_unique {b : Banner} {before after : List Property} {p q : Property}
    (hsplit : b.properties = before ++ p :: after) (hkey : p.key = bytesOf "features") (hq : q ∈ b.properties)
    (hqkey : q.key = bytesOf "features") : q = p := by
  have honce := b.features_once
  rw [hsplit, List.map_append, List.map_cons, List.count_append, hkey, List.count_cons_self] at honce
  have hnone {ps : List Property} (hcount : (ps.map Property.key).count (bytesOf "features") = 0) : q ∉ ps := by
    intro hmem
    exact List.count_eq_zero.mp hcount (hqkey ▸ List.mem_map_of_mem hmem)
  rw [hsplit, List.mem_append, List.mem_cons] at hq
  rcases hq with hbefore | rfl | hafter
  · exact absurd hbefore (hnone (by omega))
  · rfl
  · exact absurd hafter (hnone (by omega))

/-- The features of a clear banner are those that it advertises. -/
theorem parseFeatures_clear {b : Banner} (h : b.Clear) (name : List Byte) :
    name ∈ parseFeatures b.text ↔ b.Advertises name := by
  rw [parseFeatures_banner, mem_namesOf, Banner.Advertises]
  rcases inFront_split b with hall | ⟨p, after, hsplit, hkey⟩
  · have hnone : b.found = none := findSome?_behind fun q hq => h q (hall ▸ hq)
    rw [hnone]
    constructor
    · rintro ⟨hmem, hne⟩
      exact absurd (List.mem_singleton.mp hmem) hne
    · rintro ⟨-, p, hp, hkey, -⟩
      exact absurd hkey (key_of_mem_inFront (hall ▸ hp))
  · rw [found_features hsplit hkey h]
    constructor
    · rintro ⟨hmem, hne⟩
      exact ⟨hne, p, by simp [hsplit], hkey, hmem⟩
    · rintro ⟨hne, q, hq, hqkey, hmem⟩
      rw [features_unique hsplit hkey hq hqkey] at hmem
      exact ⟨hmem, hne⟩

/-- Those of another banner are the names behind the text in a property in front. -/
theorem parseFeatures_stray {b : Banner} (h : ¬ b.Clear) :
    ∃ q ∈ b.inFront, ∃ front value, q.text = front ++ kFeaturesKey ++ value ∧ parseFeatures b.text = namesOf value := by
  cases hfound : b.inFront.findSome? fun q => behind kFeaturesKey q.text with
  | none =>
    refine absurd (fun q hq hinfix => ?_) h
    have hnone := List.findSome?_eq_none_iff.mp hfound q hq
    exact behind_ne_none hinfix hnone
  | some value =>
    obtain ⟨q, hq, hvalue⟩ := List.exists_of_findSome?_eq_some hfound
    obtain ⟨front, hfront⟩ := split_of_behind hvalue
    refine ⟨q, hq, front, value, hfront, ?_⟩
    have hsplit : b.inFront ++ b.properties.dropWhile (fun q => q.key ≠ bytesOf "features") = b.properties :=
      List.takeWhile_append_dropWhile
    rw [parseFeatures_banner, Banner.found, ← hsplit, List.findSome?_append, hfound]
    rfl

theorem mem_join {names : List (List Byte)} (h : ∀ name ∈ names, kSemicolon ∉ name) :
    kSemicolon ∉ [kComma].intercalate names := by
  induction names with
  | nil => simp
  | cons name names ih =>
    have hname := h name List.mem_cons_self
    have hrest := ih fun other hother => h other (List.mem_cons_of_mem name hother)
    cases names with
    | nil => simpa using hname
    | cons other names =>
      rw [List.intercalate_cons_cons, List.mem_append, List.mem_append, List.mem_singleton]
      rintro ((hmem | heq) | hmem)
      · exact hname hmem
      · exact absurd heq (by decide)
      · exact hrest hmem

/-- The property that lists the names. -/
def featuresProperty (names : List (List Byte)) (h : ∀ name ∈ names, kSemicolon ∉ name) : Property where
  key := bytesOf "features"
  value := [kComma].intercalate names
  key_plain := by decide
  value_plain := mem_join h

/-- A banner of that property lists the names in their order. -/
theorem parseFeatures_names {b : Banner} {names : List (List Byte)} {before after : List Property}
    (hplain : ∀ name ∈ names, kSemicolon ∉ name) (hnames : ∀ name ∈ names, name ≠ [] ∧ kComma ∉ name)
    (hsplit : b.properties = before ++ featuresProperty names hplain :: after)
    (hbefore : ∀ q ∈ before, ¬ kFeaturesKey <:+: q.text) : parseFeatures b.text = names := by
  rw [parseFeatures_banner, found_features hsplit rfl hbefore]
  exact namesOf_join hnames

namespace Connection

/-- The last message that a handshake has received is the CNXN of the device with this banner. -/
def Received (b : Banner) (d : Dialogue) (c : Connection Dialogue) : Prop :=
  ∃ new f, c.session.trace = d.trace ++ new ∧ (replies new).getLast? = some f ∧ f.payload = b.text

/-- The features of a connection are what the parser makes of the banner. -/
theorem connect_features {codecs : Codecs} {publicKey : List Byte} {signer : Option Signer} {advertise : Bool}
    {d : Dialogue} {c : Connection Dialogue} {b : Banner} (hopen : d.closed = false)
    (hrun : (connect codecs publicKey signer advertise).run { session := d } = (.ok (), c))
    (hbanner : Received b d c) : c.features = parseFeatures b.text := by
  obtain ⟨new, f, htrace, hlast, hpayload⟩ := hbanner
  obtain ⟨new', r, c', hrun', hconforms⟩ := connect_conforms codecs publicKey signer advertise hopen
  rw [hrun] at hrun'
  cases hrun'
  obtain rfl : new' = new := List.append_cancel_left (hconforms.trace.symm.trans htrace)
  rw [hconforms.result rfl f hlast, hpayload]

/-- What a connection knows of the features after a handshake with a device of this banner. -/
structure Features (b : Banner) (c : Connection Dialogue) : Prop where
  /-- It supports what a clear banner advertises, for every name. -/
  exactly : b.Clear → ∀ name, c.supportsFeature name = true ↔ b.Advertises name
  /-- Of any other banner, it supports the names behind the text of the key in another property. -/
  stray : ¬ b.Clear → ∃ q ∈ b.inFront, ∃ front value, q.text = front ++ kFeaturesKey ++ value ∧
    ∀ name, c.supportsFeature name = true ↔ name ∈ namesOf value
  /-- Names that are listed in the first property with the text of the key are found in their order. -/
  listed : ∀ {names before after} (hplain : ∀ name ∈ names, kSemicolon ∉ name),
    (∀ name ∈ names, name ≠ [] ∧ kComma ∉ name) →
    b.properties = before ++ featuresProperty names hplain :: after →
    (∀ q ∈ before, ¬ kFeaturesKey <:+: q.text) → c.features = names

theorem connect_supportsFeature {codecs : Codecs} {publicKey : List Byte} {signer : Option Signer}
    {advertise : Bool} {d : Dialogue} {c : Connection Dialogue} {b : Banner} (hopen : d.closed = false)
    (hrun : (connect codecs publicKey signer advertise).run { session := d } = (.ok (), c))
    (hbanner : Received b d c) : Features b c := by
  have hfeatures := connect_features hopen hrun hbanner
  have hsupports (name : List Byte) : c.supportsFeature name = true ↔ name ∈ parseFeatures b.text := by
    rw [supportsFeature, List.contains_iff_mem, hfeatures]
  refine ⟨?_, ?_, ?_⟩
  · intro hclear name
    exact (hsupports name).trans (parseFeatures_clear hclear name)
  · intro hunclear
    obtain ⟨q, hq, front, value, htext, hnames⟩ := parseFeatures_stray hunclear
    exact ⟨q, hq, front, value, htext, hnames ▸ hsupports⟩
  · intro names before after hplain hnames hsplit hbefore
    rw [hfeatures, parseFeatures_names hplain hnames hsplit hbefore]

/-- A device that trusts the host and has this banner. -/
def trustingDevice (b : Banner) : Dialogue where
  inbox := [.frame (cnxnFrame b.text)]

/-- A banner with the features and with another property whose key ends like theirs. -/
def clearBanner : Banner where
  identity := bytesOf "device"
  identity_plain := by decide
  properties := [featuresProperty [bytesOf "cmd", bytesOf "shell_v2"] (by decide),
    ⟨bytesOf "xfeatures", bytesOf "ls_v2", by decide, by decide⟩]
  features_once := by decide

theorem connect_supportsFeature_clear : clearBanner.Clear ∧
    Features clearBanner ((connect {} [] none false).run { session := trustingDevice clearBanner }).2 := by
  have hrun : (connect {} [] none false).run { session := trustingDevice clearBanner } =
    (.ok (), ((connect {} [] none false).run { session := trustingDevice clearBanner }).2) := rfl
  refine ⟨?_, connect_supportsFeature rfl hrun ⟨_, _, rfl, rfl, rfl⟩⟩
  intro q hq
  cases hq

def unclearBanner : Banner where
  identity := bytesOf "device"
  identity_plain := by decide
  properties := [⟨bytesOf "xfeatures", bytesOf "ls_v2", by decide, by decide⟩,
    featuresProperty [bytesOf "cmd", bytesOf "shell_v2"] (by decide)]
  features_once := by decide

/-- The names of the other property are taken for features. -/
theorem not_supportsFeature_advertises : ¬ ∀ (b : Banner) (d : Dialogue) (c : Connection Dialogue),
    d.closed = false → (connect {} [] none false).run { session := d } = (.ok (), c) → Received b d c →
    ∀ name, c.supportsFeature name = true ↔ b.Advertises name := by
  intro h
  have hadvertised := (h unclearBanner (trustingDevice unclearBanner) _ rfl rfl ⟨_, _, rfl, rfl, rfl⟩
    (bytesOf "ls_v2")).mp (by decide)
  obtain ⟨-, p, hp, hkey, hvalue⟩ := hadvertised
  rcases List.mem_cons.mp hp with rfl | hp
  · exact absurd hkey (by decide)
  · obtain rfl := List.mem_singleton.mp hp
    exact absurd hvalue (by decide)

end Connection

end Adbcpp
