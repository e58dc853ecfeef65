import Adbcpp.Library.Newton
import Adbcpp.Error
import Mathlib.Data.Nat.Digits.Defs
import Mathlib.Data.UInt

/-! The public key as ADB sends it: a fixed layout of five little-endian fields in base64.
The bignums and base64 are those of mbedTLS, which may report an error at any time; what
they hand out is exact. -/

namespace Adbcpp.Crypto

open Protocol

def kModulusBytes : ℕ := 256
def kBlobSize : ℕ := 4 + 4 + kModulusBytes + kModulusBytes + 4

/-- The value of some bytes, the lowest first. -/
def fromLittleEndian (bytes : List Byte) : ℕ := Nat.ofDigits 256 (bytes.map UInt8.toNat)

/-! ### The library -/

/-- The operations on bignums that the encoding uses; they hand out nothing where they report an error. -/
structure Mpi (μ : Type) where
  lset : ℕ → Option μ
  shiftL : μ → ℕ → Option μ
  modMpi : μ → μ → Option μ
  writeBinary : μ → ℕ → Option (List Byte)

/-- Where an operation reports no error its result is exact, and a value is written in full. -/
structure Mpi.Exact {μ : Type} (mpi : Mpi μ) (value : μ → ℕ) : Prop where
  lset : ∀ z x, mpi.lset z = some x → value x = z
  shiftL : ∀ x count y, mpi.shiftL x count = some y → value y = value x * 2 ^ count
  modMpi : ∀ x n y, 0 < value n → mpi.modMpi x n = some y → value y = value x % value n
  writeBinary : ∀ x size bytes, mpi.writeBinary x size = some bytes →
    bytes.length = size ∧ fromLittleEndian bytes.reverse = value x

/-- No operation reports an error, other than for a value that does not fit. -/
structure Mpi.Available {μ : Type} (mpi : Mpi μ) (value : μ → ℕ) : Prop where
  lset : ∀ z, (mpi.lset z).isSome
  shiftL : ∀ x count, (mpi.shiftL x count).isSome
  modMpi : ∀ x n, 0 < value n → (mpi.modMpi x n).isSome
  writeBinary : ∀ x size, value x < 256 ^ size → (mpi.writeBinary x size).isSome

/-! ### The encoding -/

/-- The inverse modulo `2 ^ 32` by five steps of Newton's iteration, with the wraparound of 32 bits. -/
def inverseMod2_32 (value : UInt32) : UInt32 := (fun inverse => inverse * (2 - value * inverse))^[5] 1

/-- The bytes that are written over a part of a buffer. -/
def place (buffer : List Byte) (offset : ℕ) (bytes : List Byte) : List Byte :=
  buffer.take offset ++ bytes ++ buffer.drop (offset + bytes.length)

variable {μ : Type} (mpi : Mpi μ)

/-- A bignum as little-endian bytes; mbedTLS writes it the other way round. -/
def toLittleEndian (value : μ) (size : ℕ) : Except Error (List Byte) :=
  match mpi.writeBinary value size with
  | none => .error (.of .crypto "failed to serialize an RSA component")
  | some bigEndian => .ok bigEndian.reverse

/-- `R ^ 2` modulo `n`, where `R` is `2 ^ (8 * kModulusBytes)`. -/
def computeRr (n : μ) : Except Error μ :=
  match (mpi.lset 1).bind fun one => (mpi.shiftL one (8 * kModulusBytes * 2)).bind fun r => mpi.modMpi r n with
  | none => .error (.of .crypto "failed to derive RSA key parameters")
  | some rr => .ok rr

/-- The structure of the public key with the given modulus and exponent. -/
def buildBlob (n e : μ) : Except Error (List Byte) := do
  let rr ← computeRr mpi n
  let blob := List.replicate kBlobSize 0
  let modulus ← toLittleEndian mpi n kModulusBytes
  let blob := place blob 8 modulus
  let rrBytes ← toLittleEndian mpi rr kModulusBytes
  let blob := place blob (8 + kModulusBytes) rrBytes
  let exponent ← toLittleEndian mpi e 4
  let blob := place blob (8 + 2 * kModulusBytes) exponent
  let n0 := readU32LE (blob.drop 8)
  let blob := place blob 0 (writeU32LE (UInt32.ofNat (kModulusBytes / 4)))
  pure (place blob 4 (writeU32LE (0 - inverseMod2_32 n0)))

/-- The public key string of a key, from what mbedTLS exports of it. -/
def encodePublicKey (base64 : List Byte → Option (List Byte)) (exported : Option (μ × μ)) :
    Except Error (List Byte) :=
  match exported with
  | none => .error (.of .crypto "failed to export the RSA key")
  | some (n, e) => do
    let blob ← buildBlob mpi n e
    match base64 blob with
    | none => .error (.of .crypto "failed to encode the public key")
    | some encoded => pure (encoded ++ bytesOf " adbcpp@localhost")

/-! ### The inverse -/

open scoped UInt32.CommRing in
theorem mul_inverseMod2_32 {value : UInt32} (hodd : value.toNat % 2 = 1) :
    value * inverseMod2_32 value = 1 := by
  obtain ⟨k, hk⟩ : ∃ k : UInt32, value = 1 + 2 * k := by
    refine ⟨UInt32.ofNat (value.toNat / 2), ?_⟩
    apply UInt32.toNat_inj.mp
    have hlt := value.toNat_lt
    simp
    omega
  subst hk
  exact Newton.mul_iterate_of_odd (n := 5) rfl

/-! ### Little-endian values -/

theorem fromLittleEndian_lt (bytes : List Byte) : fromLittleEndian bytes < 256 ^ bytes.length := by
  unfold fromLittleEndian
  have hlength : (bytes.map UInt8.toNat).length = bytes.length := List.length_map _
  rw [← hlength]
  apply Nat.ofDigits_lt_base_pow_length (by decide)
  intro digit hmem
  obtain ⟨byte, -, rfl⟩ := List.mem_map.mp hmem
  exact byte.toNat_lt

/-- The word at the front of some bytes is their value modulo `2 ^ 32`. -/
theorem toNat_readU32LE_append {bytes : List Byte} (h : 4 ≤ bytes.length) (rest : List Byte) :
    (readU32LE (bytes ++ rest)).toNat = fromLittleEndian bytes % 2 ^ 32 := by
  match bytes, h with
  | a :: b :: c :: d :: bytes, _ =>
    have ha := a.toNat_lt
    have hb := b.toNat_lt
    have hc := c.toNat_lt
    have hd := d.toNat_lt
    unfold fromLittleEndian
    simp only [List.cons_append, toNat_readU32LE, List.map_cons, Nat.ofDigits_cons]
    omega

/-! ### The layout -/

/-- What is placed over a part of the same length takes its place. -/
theorem place_eq {buffer new : List Byte} {offset : ℕ} (before old after : List Byte)
    (hbuffer : buffer = before ++ (old ++ after)) (hoffset : offset = before.length)
    (h : new.length = old.length) : place buffer offset new = before ++ (new ++ after) := by
  subst hbuffer hoffset
  unfold place
  rw [List.take_left, h, ← List.drop_drop, List.drop_left, List.drop_left, List.append_assoc]

/-- The fields that are placed first, behind the place of the two words. -/
theorem place_fields {modulus rr exponent : List Byte} (hmodulus : modulus.length = kModulusBytes)
    (hrr : rr.length = kModulusBytes) (hexponent : exponent.length = 4) :
    place (place (place (List.replicate kBlobSize 0) 8 modulus) (8 + kModulusBytes) rr)
      (8 + 2 * kModulusBytes) exponent =
      List.replicate 4 0 ++ (List.replicate 4 0 ++ (modulus ++ (rr ++ exponent))) := by
  have hfirst : place (List.replicate kBlobSize 0) 8 modulus =
      List.replicate 8 0 ++ (modulus ++ List.replicate (kModulusBytes + 4) 0) := by
    apply place_eq _ (List.replicate kModulusBytes 0)
    · rw [List.replicate_append_replicate, List.replicate_append_replicate]
      rfl
    · rw [List.length_replicate]
    · rw [List.length_replicate, hmodulus]
  have hsecond : place (List.replicate 8 0 ++ (modulus ++ List.replicate (kModulusBytes + 4) 0))
      (8 + kModulusBytes) rr = (List.replicate 8 0 ++ modulus) ++ (rr ++ List.replicate 4 0) := by
    apply place_eq _ (List.replicate kModulusBytes 0)
    · rw [List.replicate_append_replicate, List.append_assoc]
    · rw [List.length_append, List.length_replicate, hmodulus]
    · rw [List.length_replicate, hrr]
  have hthird : place ((List.replicate 8 0 ++ modulus) ++ (rr ++ List.replicate 4 0))
      (8 + 2 * kModulusBytes) exponent = (List.replicate 8 0 ++ modulus ++ rr) ++ (exponent ++ []) := by
    apply place_eq _ (List.replicate 4 0)
    · rw [List.append_nil, List.append_assoc _ rr]
    · rw [List.length_append, List.length_append, List.length_replicate, hmodulus, hrr]
      omega
    · rw [List.length_replicate, hexponent]
  rw [hfirst, hsecond, hthird, List.append_nil, show List.replicate 8 (0 : Byte) =
    List.replicate 4 0 ++ List.replicate 4 0 from rfl]
  simp only [List.append_assoc]

/-- The two words take their place in front of the fields. -/
theorem place_words (fields : List Byte) (words n0inv : UInt32) :
    place (place (List.replicate 4 0 ++ (List.replicate 4 0 ++ fields)) 0 (writeU32LE words)) 4
      (writeU32LE n0inv) = writeU32LE words ++ (writeU32LE n0inv ++ fields) := by
  have hfirst : place (List.replicate 4 0 ++ (List.replicate 4 0 ++ fields)) 0 (writeU32LE words) =
      [] ++ (writeU32LE words ++ (List.replicate 4 0 ++ fields)) := by
    apply place_eq _ (List.replicate 4 0)
    · rfl
    · rfl
    · rfl
  rw [hfirst]
  apply place_eq _ (List.replicate 4 0)
  · rfl
  · rfl
  · rfl

/-! ### What the structure says -/

/-- The structure as a device reads it. -/
structure RSAPublicKey where
  modulusSizeWords : UInt32
  n0inv : UInt32
  modulus : ℕ
  rr : ℕ
  exponent : UInt32

def RSAPublicKey.decode (blob : List Byte) : RSAPublicKey where
  modulusSizeWords := readU32LE blob
  n0inv := readU32LE (blob.drop 4)
  modulus := fromLittleEndian ((blob.drop 8).take 256)
  rr := fromLittleEndian ((blob.drop 264).take 256)
  exponent := readU32LE (blob.drop 520)

/-- The structure of the key with modulus `n` and exponent `e`. -/
structure Encodes (n e : ℕ) (blob : List Byte) : Prop where
  length : blob.length = 524
  words : (RSAPublicKey.decode blob).modulusSizeWords = 64
  modulus : (RSAPublicKey.decode blob).modulus = n
  rr : (RSAPublicKey.decode blob).rr = (2 ^ 2048) ^ 2 % n
  exponent : (RSAPublicKey.decode blob).exponent.toNat = e
  n0inv : (n % 2 ^ 32) * (RSAPublicKey.decode blob).n0inv.toNat % 2 ^ 32 = 2 ^ 32 - 1

theorem decode_fields {modulus rr exponent : List Byte} (hmodulus : modulus.length = 256)
    (hrr : rr.length = 256) (words n0inv : UInt32) :
    RSAPublicKey.decode (writeU32LE words ++ (writeU32LE n0inv ++ (modulus ++ (rr ++ exponent)))) =
      ⟨words, n0inv, fromLittleEndian modulus, fromLittleEndian rr, readU32LE exponent⟩ := by
  have hwords : (writeU32LE words ++ (writeU32LE n0inv ++ (modulus ++ (rr ++ exponent)))).drop 4 =
      writeU32LE n0inv ++ (modulus ++ (rr ++ exponent)) := rfl
  have hinv : (writeU32LE words ++ (writeU32LE n0inv ++ (modulus ++ (rr ++ exponent)))).drop 8 =
      modulus ++ (rr ++ exponent) := rfl
  have hrest : (modulus ++ (rr ++ exponent)).drop 256 = rr ++ exponent := by
    rw [← hmodulus, List.drop_left]
  unfold RSAPublicKey.decode
  rw [show 264 = 8 + 256 from rfl, show 520 = 8 + 256 + 256 from rfl, ← List.drop_drop, ← List.drop_drop,
    ← List.drop_drop, hwords, hinv, hrest]
  rw [readU32LE_writeU32LE, readU32LE_writeU32LE, ← hmodulus, List.take_left, hmodulus, ← hrr, List.take_left,
    List.drop_left]

open scoped UInt32.CommRing in
/-- The negative of the inverse of the lowest word times that word. -/
theorem n0inv_spec {n : ℕ} (hodd : n % 2 = 1) {n0 : UInt32} (hn0 : n0.toNat = n % 2 ^ 32) :
    (n % 2 ^ 32) * (0 - inverseMod2_32 n0).toNat % 2 ^ 32 = 2 ^ 32 - 1 := by
  have hmul : n0 * inverseMod2_32 n0 = 1 := mul_inverseMod2_32 (by omega)
  have hneg : n0 * (0 - inverseMod2_32 n0) = 0 - 1 := by
    rw [mul_sub, hmul, mul_zero]
  rw [← hn0, ← UInt32.toNat_mul, hneg]
  rfl

/-! ### The encoding of a key -/

section Encoding

variable {mpi : Mpi μ} {value : μ → ℕ}

theorem toLittleEndian_ok (hexact : mpi.Exact value) {x : μ} {size : ℕ} {bytes : List Byte}
    (h : toLittleEndian mpi x size = .ok bytes) : bytes.length = size ∧ fromLittleEndian bytes = value x := by
  unfold toLittleEndian at h
  split at h
  · cases h
  next bigEndian hwrite =>
    cases h
    obtain ⟨hlength, hvalue⟩ := hexact.writeBinary x size bigEndian hwrite
    exact ⟨by rw [List.length_reverse, hlength], hvalue⟩

/-- What is written fits. -/
theorem toLittleEndian_lt (hexact : mpi.Exact value) {x : μ} {size : ℕ} {bytes : List Byte}
    (h : toLittleEndian mpi x size = .ok bytes) : value x < 256 ^ size := by
  obtain ⟨hlength, hvalue⟩ := toLittleEndian_ok hexact h
  rw [← hvalue, ← hlength]
  exact fromLittleEndian_lt bytes

theorem exists_toLittleEndian (havailable : mpi.Available value) {x : μ} {size : ℕ}
    (h : value x < 256 ^ size) : ∃ bytes, toLittleEndian mpi x size = .ok bytes := by
  obtain ⟨bigEndian, hwrite⟩ := Option.isSome_iff_exists.mp (havailable.writeBinary x size h)
  unfold toLittleEndian
  rw [hwrite]
  exact ⟨_, rfl⟩

theorem computeRr_ok (hexact : mpi.Exact value) {n rr : μ} (hn : 0 < value n)
    (h : computeRr mpi n = .ok rr) : value rr = (2 ^ 2048) ^ 2 % value n := by
  unfold computeRr at h
  split at h
  · cases h
  next rr' hrr =>
    cases h
    obtain ⟨one, hone, hrr⟩ := Option.bind_eq_some_iff.mp hrr
    obtain ⟨r, hr, hrr⟩ := Option.bind_eq_some_iff.mp hrr
    rw [hexact.modMpi r n rr hn hrr, hexact.shiftL one _ r hr, hexact.lset 1 one hone, one_mul, ← pow_mul,
      show 8 * kModulusBytes * 2 = 2048 * 2 from rfl]

theorem exists_computeRr (havailable : mpi.Available value) {n : μ} (hn : 0 < value n) :
    ∃ rr, computeRr mpi n = .ok rr := by
  obtain ⟨one, hone⟩ := Option.isSome_iff_exists.mp (havailable.lset 1)
  obtain ⟨r, hr⟩ := Option.isSome_iff_exists.mp (havailable.shiftL one (8 * kModulusBytes * 2))
  obtain ⟨rr, hrr⟩ := Option.isSome_iff_exists.mp (havailable.modMpi r n hn)
  unfold computeRr
  rw [hone, Option.bind_some, hr, Option.bind_some, hrr]
  exact ⟨rr, rfl⟩

/-- The steps of the encoding, and the structure that they lead to. -/
theorem buildBlob_eq {n e rr : μ} {modulus rrBytes exponent : List Byte} (hexact : mpi.Exact value)
    (hrr : computeRr mpi n = .ok rr) (hmodulus : toLittleEndian mpi n kModulusBytes = .ok modulus)
    (hrrBytes : toLittleEndian mpi rr kModulusBytes = .ok rrBytes)
    (hexponent : toLittleEndian mpi e 4 = .ok exponent) :
    buildBlob mpi n e = .ok (writeU32LE 64 ++
      (writeU32LE (0 - inverseMod2_32 (readU32LE (modulus ++ (rrBytes ++ exponent)))) ++
        (modulus ++ (rrBytes ++ exponent)))) := by
  have hfields := place_fields (toLittleEndian_ok hexact hmodulus).1 (toLittleEndian_ok hexact hrrBytes).1
    (toLittleEndian_ok hexact hexponent).1
  unfold buildBlob
  simp only [hrr, hmodulus, hrrBytes, hexponent, bind, Except.bind, pure, Except.pure, hfields]
  rw [place_words]
  rfl

/-- A structure that is built went through every step. -/
theorem buildBlob_ok {n e : μ} {blob : List Byte} (h : buildBlob mpi n e = .ok blob) :
    ∃ rr modulus rrBytes exponent, computeRr mpi n = .ok rr ∧
      toLittleEndian mpi n kModulusBytes = .ok modulus ∧
      toLittleEndian mpi rr kModulusBytes = .ok rrBytes ∧ toLittleEndian mpi e 4 = .ok exponent := by
  unfold buildBlob at h
  match hrr : computeRr mpi n with
  | .error err =>
    rw [hrr] at h
    cases h
  | .ok rr =>
    rw [hrr] at h
    match hmodulus : toLittleEndian mpi n kModulusBytes with
    | .error err =>
      simp only [hmodulus, bind, Except.bind] at h
      cases h
    | .ok modulus =>
      match hrrBytes : toLittleEndian mpi rr kModulusBytes with
      | .error err =>
        simp only [hmodulus, hrrBytes, bind, Except.bind] at h
        cases h
      | .ok rrBytes =>
        match hexponent : toLittleEndian mpi e 4 with
        | .error err =>
          simp only [hmodulus, hrrBytes, hexponent, bind, Except.bind] at h
          cases h
        | .ok exponent => exact ⟨rr, modulus, rrBytes, exponent, rfl, rfl, hrrBytes, rfl⟩

/-- The structure that is built for an odd modulus is the one of the key. -/
theorem buildBlob_encodes (hexact : mpi.Exact value) {n e : μ} (hodd : value n % 2 = 1) {blob : List Byte}
    (h : buildBlob mpi n e = .ok blob) : Encodes (value n) (value e) blob := by
  obtain ⟨rr, modulus, rrBytes, exponent, hrr, hmodulus, hrrBytes, hexponent⟩ := buildBlob_ok h
  have hblob := buildBlob_eq hexact hrr hmodulus hrrBytes hexponent
  rw [h] at hblob
  cases hblob
  obtain ⟨hmodulusLength, hmodulusValue⟩ := toLittleEndian_ok hexact hmodulus
  obtain ⟨hrrLength, hrrValue⟩ := toLittleEndian_ok hexact hrrBytes
  obtain ⟨hexponentLength, hexponentValue⟩ := toLittleEndian_ok hexact hexponent
  have hdecode := @decode_fields modulus rrBytes exponent hmodulusLength hrrLength 64
    (0 - inverseMod2_32 (readU32LE (modulus ++ (rrBytes ++ exponent))))
  have hn0 : (readU32LE (modulus ++ (rrBytes ++ exponent))).toNat = value n % 2 ^ 32 := by
    have hlong : 4 ≤ modulus.length := by
      rw [hmodulusLength]
      decide
    rw [toNat_readU32LE_append hlong, hmodulusValue]
  have hsmall : value e < 2 ^ 32 := toLittleEndian_lt hexact hexponent
  have hexponentWord := toNat_readU32LE_append hexponentLength.ge []
  rw [List.append_nil, hexponentValue, Nat.mod_eq_of_lt hsmall] at hexponentWord
  refine ⟨?_, ?_, ?_, ?_, ?_, ?_⟩
  · simp only [List.length_append, length_writeU32LE, hmodulusLength, hrrLength, hexponentLength]
    rfl
  · rw [hdecode]
  · rw [hdecode]
    exact hmodulusValue
  · rw [hdecode]
    dsimp only
    rw [hrrValue]
    exact computeRr_ok hexact (by omega) hrr
  · rw [hdecode]
    exact hexponentWord
  · rw [hdecode]
    exact n0inv_spec hodd hn0

theorem modulus_range : 256 ^ kModulusBytes = 2 ^ 2048 := by
  rw [show 2048 = 8 * kModulusBytes from rfl, pow_mul, show 2 ^ 8 = 256 from rfl]

/-- A key that does not fit is an error. -/
theorem buildBlob_error (hexact : mpi.Exact value) {n e : μ} (h : 2 ^ 2048 ≤ value n ∨ 2 ^ 32 ≤ value e) :
    ∃ err, buildBlob mpi n e = .error err := by
  match hblob : buildBlob mpi n e with
  | .error err => exact ⟨err, rfl⟩
  | .ok blob =>
    obtain ⟨rr, modulus, rrBytes, exponent, hrr, hmodulus, hrrBytes, hexponent⟩ := buildBlob_ok hblob
    have hn := toLittleEndian_lt hexact hmodulus
    have he : value e < 2 ^ 32 := toLittleEndian_lt hexact hexponent
    rw [modulus_range] at hn
    exact absurd h (not_or.mpr ⟨Nat.not_le.mpr hn, Nat.not_le.mpr he⟩)

theorem exists_buildBlob (hexact : mpi.Exact value) (havailable : mpi.Available value) {n e : μ}
    (hn : 0 < value n) (hlt : value n < 2 ^ 2048) (he : value e < 2 ^ 32) :
    ∃ blob, buildBlob mpi n e = .ok blob := by
  obtain ⟨rr, hrr⟩ := exists_computeRr havailable hn
  have hrrLt : value rr < 2 ^ 2048 := by
    rw [computeRr_ok hexact hn hrr]
    exact (Nat.mod_lt _ hn).trans hlt
  rw [← modulus_range] at hlt hrrLt
  obtain ⟨modulus, hmodulus⟩ := exists_toLittleEndian havailable hlt
  obtain ⟨rrBytes, hrrBytes⟩ := exists_toLittleEndian havailable hrrLt
  obtain ⟨exponent, hexponent⟩ := @exists_toLittleEndian _ _ _ havailable e 4 he
  exact ⟨_, buildBlob_eq hexact hrr hmodulus hrrBytes hexponent⟩

/-- The public key of every odd modulus is right wherever it is made, one that does not fit is an error,
and one that fits is made where mbedTLS does its part. -/
theorem encodePublicKey_encodes (mpi : Mpi μ) (value : μ → ℕ) (hexact : mpi.Exact value)
    (base64 : List Byte → Option (List Byte)) (n e : μ) :
    (∀ key, value n % 2 = 1 → encodePublicKey mpi base64 (some (n, e)) = .ok key → ∃ blob encoded,
      buildBlob mpi n e = .ok blob ∧ base64 blob = some encoded ∧
      key = encoded ++ bytesOf " adbcpp@localhost" ∧ Encodes (value n) (value e) blob) ∧
    (2 ^ 2048 ≤ value n ∨ 2 ^ 32 ≤ value e → ∃ err, encodePublicKey mpi base64 (some (n, e)) = .error err) ∧
    (value n % 2 = 1 → value n < 2 ^ 2048 → value e < 2 ^ 32 → mpi.Available value → (∀ blob, (base64 blob).isSome) →
      ∃ key, encodePublicKey mpi base64 (some (n, e)) = .ok key) := by
  refine ⟨?_, ?_, ?_⟩
  · intro key hodd h
    unfold encodePublicKey at h
    dsimp only at h
    match hblob : buildBlob mpi n e with
    | .error err =>
      rw [hblob] at h
      cases h
    | .ok blob =>
      match hencoded : base64 blob with
      | none =>
        simp only [hblob, hencoded, bind, Except.bind] at h
        cases h
      | some encoded =>
        simp only [hblob, hencoded, bind, Except.bind] at h
        cases h
        exact ⟨blob, encoded, rfl, hencoded, rfl, buildBlob_encodes hexact hodd hblob⟩
  · intro h
    obtain ⟨err, herr⟩ := buildBlob_error hexact h
    unfold encodePublicKey
    dsimp only
    rw [herr]
    exact ⟨err, rfl⟩
  · intro hodd hn he havailable hbase64
    obtain ⟨blob, hblob⟩ := exists_buildBlob hexact havailable (by omega) hn he
    obtain ⟨encoded, hencoded⟩ := Option.isSome_iff_exists.mp (hbase64 blob)
    unfold encodePublicKey
    simp only [hblob, bind, Except.bind, hencoded]
    exact ⟨_, rfl⟩

end Encoding

/-! ### Bignums that are numbers -/

/-- The lowest `size` bytes of a number, the lowest first. -/
def littleEndianOf : ℕ → ℕ → List Byte
  | 0, _ => []
  | size + 1, x => UInt8.ofNat (x % 256) :: littleEndianOf size (x / 256)

theorem length_littleEndianOf (size x : ℕ) : (littleEndianOf size x).length = size := by
  induction size generalizing x with
  | zero => rfl
  | succ size ih => rw [littleEndianOf, List.length_cons, ih]

theorem fromLittleEndian_of {size x : ℕ} (h : x < 256 ^ size) : fromLittleEndian (littleEndianOf size x) = x := by
  induction size generalizing x with
  | zero =>
    rw [pow_zero] at h
    rw [littleEndianOf, Nat.lt_one_iff.mp h]
    rfl
  | succ size ih =>
    have hrest := ih (Nat.div_lt_of_lt_mul (by rwa [← pow_succ']))
    unfold fromLittleEndian at hrest ⊢
    rw [littleEndianOf, List.map_cons, Nat.ofDigits_cons, hrest]
    simp
    omega

def natMpi : Mpi ℕ where
  lset := some
  shiftL x count := some (x * 2 ^ count)
  modMpi x n := if n = 0 then none else some (x % n)
  writeBinary x size := if x < 256 ^ size then some (littleEndianOf size x).reverse else none

theorem natMpi_exact : natMpi.Exact id where
  lset := by
    rintro z x ⟨⟩
    rfl
  shiftL := by
    rintro x count y ⟨⟩
    rfl
  modMpi := by
    intro x n y hn h
    have hne : n ≠ 0 := Nat.ne_of_gt hn
    dsimp only [natMpi] at h
    rw [if_neg hne] at h
    cases h
    rfl
  writeBinary := by
    intro x size bytes h
    dsimp only [natMpi] at h
    split at h
    next hlt =>
      cases h
      rw [List.length_reverse, List.reverse_reverse, length_littleEndianOf]
      exact ⟨rfl, fromLittleEndian_of hlt⟩
    next => cases h

theorem natMpi_available : natMpi.Available id where
  lset _ := rfl
  shiftL _ _ := rfl
  modMpi x n hn := by
    have hne : n ≠ 0 := Nat.ne_of_gt hn
    dsimp only [natMpi]
    rw [if_neg hne]
    rfl
  writeBinary x size h := by
    have hlt : x < 256 ^ size := h
    dsimp only [natMpi]
    rw [if_pos hlt]
    rfl

def base64Digit (n : ℕ) : Byte :=
  (bytesOf "ABCDEFGHIJKLMNOPQRSTUVWXYZabcdefghijklmnopqrstuvwxyz0123456789+/").getD n 0

/-- Base64 with padding: four digits for three bytes. -/
def base64Encode : List Byte → List Byte
  | [] => []
  | [a] =>
    [base64Digit (a.toNat / 4), base64Digit (a.toNat % 4 * 16)] ++ bytesOf "=="
  | [a, b] =>
    [base64Digit (a.toNat / 4), base64Digit (a.toNat % 4 * 16 + b.toNat / 16),
      base64Digit (b.toNat % 16 * 4)] ++ bytesOf "="
  | a :: b :: c :: rest =>
    [base64Digit (a.toNat / 4), base64Digit (a.toNat % 4 * 16 + b.toNat / 16),
      base64Digit (b.toNat % 16 * 4 + c.toNat / 64), base64Digit (c.toNat % 64)] ++ base64Encode rest

/-- An odd modulus of all 2048 bits. -/
def fullModulus : ℕ := 2 ^ 2047 + 2 ^ 1056 + 0x89ABCDEF

/-- A modulus of 64 words with the usual exponent is encoded; an exponent of `2 ^ 32` is an error. -/
theorem encodePublicKey_encodes_fullModulus :
    (∃ key blob, encodePublicKey natMpi (some ∘ base64Encode) (some (fullModulus, 65537)) = .ok key ∧
      Encodes fullModulus 65537 blob) ∧
    ∃ err, encodePublicKey natMpi (some ∘ base64Encode) (some (fullModulus, 2 ^ 32)) = .error err := by
  -- named, so that no step computes the powers
  obtain ⟨n, hn⟩ : ∃ n, n = fullModulus := ⟨_, rfl⟩
  have hodd : n % 2 = 1 := by rw [hn]; decide +kernel
  have hfits : n < 2 ^ 2048 := by rw [hn]; decide +kernel
  rw [← hn]
  obtain ⟨hok, -, havailable⟩ :=
    encodePublicKey_encodes natMpi id natMpi_exact (some ∘ base64Encode) n 65537
  obtain ⟨key, hkey⟩ := havailable hodd hfits (by decide) natMpi_available fun _ => rfl
  obtain ⟨blob, -, -, -, -, hblob⟩ := hok key hodd hkey
  exact ⟨⟨key, blob, hkey, hblob⟩,
    (encodePublicKey_encodes natMpi id natMpi_exact (some ∘ base64Encode) n (2 ^ 32)).2.1 (.inr le_rfl)⟩

end Adbcpp.Crypto
