import Adbcpp.Crypto.PublicKey
import Adbcpp.Library.Triple
import Adbcpp.LocalFile

/-! The key pair that is shared with adb. It is read from `adbkey` where there is one, and
generated and stored otherwise, in two files. A stored private key that was cut short is
read by every later call. -/

namespace Adbcpp.Crypto

/-- What mbedTLS does with a key pair, apart from making one. -/
structure KeyLibrary (κ μ : Type) where
  mpi : Mpi μ
  base64 : List Byte → Option (List Byte)
  /-- The modulus and the exponent. -/
  rsaExport : κ → Option (μ × μ)
  /-- The PEM of a key, up to its NUL. -/
  writeKeyPem : κ → Option (List Byte)
  /-- The key of a PEM, or what went wrong. -/
  parseKeyfile : List Byte → Except ℤ κ

/-- Parsing a complete PEM returns the key written, and parsing a truncated one fails. -/
structure KeyLibrary.Parses {κ μ : Type} (lib : KeyLibrary κ μ) : Prop where
  complete : ∀ pk pem, lib.writeKeyPem pk = some pem → lib.parseKeyfile pem = .ok pk
  truncated : ∀ pk pem part, lib.writeKeyPem pk = some pem → part <+: pem → part ≠ pem →
    ∃ rc, lib.parseKeyfile part = .error rc

/-- What the random numbers of one call lead to. -/
structure Randomness (κ : Type) where
  setsUp : Bool := true
  /-- What seeding the generator returns. -/
  seed : ℤ := 0
  /-- The RSA key that is generated, or what went wrong. -/
  generated : Except ℤ κ

structure Key (κ : Type) where
  pk : κ
  publicKey : List Byte

/-- A file of the key pair: whether it is there, and the stream it is written through. -/
structure KeyFile where
  present : Bool := false
  stream : OutputFile := {}
  deriving DecidableEq, Repr

/-- Where the key pair is stored. -/
structure KeyDirectory where
  /-- The home directory can be located. -/
  home : Bool := true
  /-- It can be checked whether there is a private key. -/
  checks : Bool := true
  /-- The directory can be created. -/
  creates : Bool := true
  privateFile : KeyFile := {}
  publicFile : KeyFile := {}
  deriving DecidableEq, Repr

/-- Opens the file, which creates or truncates it. -/
def KeyFile.openTruncated (f : KeyFile) : KeyFile where
  present := f.present || f.stream.opens
  stream := f.stream.openTruncated

def KeyFile.writes (blocks : List (List Byte)) (f : KeyFile) : KeyFile :=
  { f with stream := f.stream.writes blocks }

def KeyFile.close (f : KeyFile) : KeyFile := { f with stream := f.stream.close }

namespace Key

variable {κ μ : Type} (lib : KeyLibrary κ μ)

/-- The key pair of an RSA key, with its public key string. -/
def ofRsa (pk : κ) : Except Error (Key κ) := do
  let publicKey ← encodePublicKey lib.mpi lib.base64 (lib.rsaExport pk)
  pure { pk, publicKey }

def generate (random : Randomness κ) : Except Error (Key κ) :=
  if !random.setsUp then
    .error (.of .crypto "failed to set up an RSA key")
  else if random.seed ≠ 0 then
    .error (.of .crypto "failed to generate an RSA key")
  else
    match random.generated with
    | .error _ => .error (.of .crypto "failed to generate an RSA key")
    | .ok pk => ofRsa lib pk

/-- Reads the private key that is there. -/
def load (random : Randomness κ) (content : List Byte) : Except Error (Key κ) :=
  match if random.seed = 0 then lib.parseKeyfile content else .error random.seed with
  | .error rc => .error (.of .crypto ("failed to load the ADB private key (" ++ toString rc ++ ")"))
  | .ok pk => ofRsa lib pk

/-- Closes both files, as their destructors do. -/
def closeFiles (d : KeyDirectory) : KeyDirectory :=
  { d with privateFile := d.privateFile.close, publicFile := d.publicFile.close }

/-- Writes the public key file, and ends with the key. -/
def writePublicFile (key : Key κ) : Action KeyDirectory (Key κ) := do
  Prog.modify fun d => { d with publicFile := d.publicFile.openTruncated }
  let d ← Prog.get
  if d.publicFile.stream.bad then
    Prog.fail (.of .io "cannot open the ADB public key for writing")
  else do
    Prog.modify fun d => { d with publicFile := d.publicFile.writes [key.publicKey, bytesOf "\n"] }
    let d ← Prog.get
    if d.publicFile.stream.bad then
      Prog.fail (.of .io "failed to store the ADB public key")
    else
      pure key

/-- Writes the PEM of the private key, and behind it the public key. -/
def writeFiles (key : Key κ) (pem : List Byte) : Action KeyDirectory (Key κ) :=
  Prog.ensuring closeFiles do
    Prog.modify fun d => { d with privateFile := d.privateFile.openTruncated }
    let d ← Prog.get
    if d.privateFile.stream.bad then
      Prog.fail (.of .io "cannot open the ADB private key for writing")
    else do
      Prog.modify fun d => { d with privateFile := d.privateFile.writes [pem] }
      let d ← Prog.get
      if d.privateFile.stream.bad then
        Prog.fail (.of .io "failed to store the ADB private key")
      else
        writePublicFile key

/-- Generates a key pair and stores it. -/
def store (random : Randomness κ) : Action KeyDirectory (Key κ) := do
  let key ← Prog.lift (generate lib random)
  let d ← Prog.get
  if !d.creates then
    Prog.fail (.of .io "cannot create the ADB key directory")
  else
    match lib.writeKeyPem key.pk with
    | none => Prog.fail (.of .crypto "failed to store the ADB private key")
    | some pem => writeFiles key pem

def loadOrGenerate (random : Randomness κ) : Action KeyDirectory (Key κ) := do
  let d ← Prog.get
  if !d.home then
    Prog.fail (.of .io "cannot locate the home directory")
  else if !d.checks then
    Prog.fail (.of .io "cannot check the ADB private key")
  else if d.privateFile.present then
    Prog.lift (load lib random d.privateFile.stream.disk)
  else
    store lib random

/-! ### Storing a key -/

/-- What is left of the private key file once its stream is destroyed. -/
inductive Leaves (pem : List Byte) (f f' : KeyFile) : Prop
  | closed (opens : f.stream.opens = true) (stored : f' = (f.openTruncated.writes [pem]).close)
  | absent (opens : f.stream.opens = false) (present : f'.present = f.present)

theorem writePublicFile_keeps (key : Key κ) (f : KeyFile) :
    Prog.Triple (fun d : KeyDirectory => d.privateFile = f) (writePublicFile key)
      (fun k d => k = key ∧ d.privateFile = f) fun _ d => d.privateFile = f := by
  unfold writePublicFile
  refine Prog.Triple.bind (R := fun _ d => d.privateFile = f) (Prog.Triple.modify fun _ hd => hd) fun _ => ?_
  apply Prog.Triple.get_bind
  intro d hd
  apply Prog.Triple.ite
  · intro _
    apply Prog.Triple.fail
    rintro _ rfl
    exact hd
  intro _
  refine Prog.Triple.bind (R := fun _ d => d.privateFile = f) ?_ fun _ => ?_
  · apply Prog.Triple.modify
    rintro _ rfl
    exact hd
  apply Prog.Triple.get_bind
  intro d' hd'
  apply Prog.Triple.ite
  · intro _
    apply Prog.Triple.fail
    rintro _ rfl
    exact hd'
  · intro _
    apply Prog.Triple.pure
    rintro _ rfl
    exact ⟨rfl, hd'⟩

/-- A key that is handed out has been written to a file that opened. -/
theorem writeFiles_leaves (key : Key κ) (pem : List Byte) (f : KeyFile) :
    Prog.Triple (fun d : KeyDirectory => d.privateFile = f) (writeFiles key pem)
      (fun k d => k = key ∧ f.stream.opens = true ∧ d.privateFile = (f.openTruncated.writes [pem]).close)
      fun _ d => Leaves pem f d.privateFile := by
  have hbad : f.openTruncated.stream.bad = !f.stream.opens := OutputFile.openTruncated_bad f.stream
  unfold writeFiles
  apply Prog.Triple.ensuring
  refine Prog.Triple.bind (R := fun _ d => d.privateFile = f.openTruncated) ?_ fun _ => ?_
  · apply Prog.Triple.modify
    intro d hd
    rw [← hd]
  apply Prog.Triple.get_bind
  intro d hd
  rw [hd, hbad]
  apply Prog.Triple.ite
  · intro hclosed
    apply Prog.Triple.fail
    intro d' hd'
    have hopens : f.stream.opens = false := by simpa using hclosed
    apply Leaves.absent hopens
    show d'.privateFile.present = f.present
    rw [hd', hd]
    simp [KeyFile.openTruncated, hopens]
  intro hopen
  have hopens : f.stream.opens = true := by simpa using hopen
  refine Prog.Triple.bind (R := fun _ d => d.privateFile = f.openTruncated.writes [pem]) ?_ fun _ => ?_
  · apply Prog.Triple.modify
    rintro _ rfl
    rw [hd]
  apply Prog.Triple.get_bind
  intro d' hd'
  have hstored : (closeFiles d').privateFile = (f.openTruncated.writes [pem]).close := congrArg KeyFile.close hd'
  apply Prog.Triple.ite
  · intro _
    apply Prog.Triple.fail
    rintro _ rfl
    exact .closed hopens hstored
  · intro _
    apply (writePublicFile_keeps key (f.openTruncated.writes [pem])).conseq
    · rintro _ rfl
      exact hd'
    · rintro k d ⟨hk, hd⟩
      exact ⟨hk, hopens, congrArg KeyFile.close hd⟩
    · intro e d hd
      exact .closed hopens (congrArg KeyFile.close hd)

/-- A call gets as far as storing the key it generated. -/
structure Reaches (random : Randomness κ) (d : KeyDirectory) (key : Key κ) (pem : List Byte) : Prop where
  home : d.home = true
  checks : d.checks = true
  creates : d.creates = true
  generated : generate lib random = .ok key
  written : lib.writeKeyPem key.pk = some pem

variable {lib} {random : Randomness κ} {d : KeyDirectory}

theorem Reaches.run {key : Key κ} {pem : List Byte} (h : Reaches lib random d key pem)
    (habsent : d.privateFile.present = false) :
    (loadOrGenerate lib random).run d = (writeFiles key pem).run d := by
  unfold loadOrGenerate
  rw [Prog.run_bind_get]
  simp only [h.home, h.checks, habsent, Bool.not_true, Bool.false_eq_true, if_false]
  unfold store
  rw [h.generated, Prog.run_bind_ok (Prog.run_lift _ _), Prog.run_bind_get]
  simp only [h.creates, h.written, Bool.not_true, Bool.false_eq_true, if_false]

/-- A call that does not get there fails, and leaves everything as it was. -/
theorem run_of_not_reaches (habsent : d.privateFile.present = false)
    (h : ∀ key pem, ¬ Reaches lib random d key pem) : ∃ e, (loadOrGenerate lib random).run d = (.error e, d) := by
  unfold loadOrGenerate
  rw [Prog.run_bind_get]
  by_cases hhome : d.home = true
  swap
  · exact ⟨_, by rw [if_pos (by simpa using hhome)]; rfl⟩
  by_cases hchecks : d.checks = true
  swap
  · exact ⟨_, by rw [if_neg (by simp [hhome]), if_pos (by simpa using hchecks)]; rfl⟩
  simp only [hhome, hchecks, habsent, Bool.not_true, Bool.false_eq_true, if_false]
  unfold store
  match hgenerated : generate lib random with
  | .error e => exact ⟨e, rfl⟩
  | .ok key =>
    rw [Prog.run_bind_ok (Prog.run_lift _ _), Prog.run_bind_get]
    by_cases hcreates : d.creates = true
    swap
    · exact ⟨_, by rw [if_pos (by simpa using hcreates)]; rfl⟩
    rw [if_neg (by simp [hcreates])]
    match hwritten : lib.writeKeyPem key.pk with
    | none => exact ⟨_, rfl⟩
    | some pem => exact absurd ⟨hhome, hchecks, hcreates, hgenerated, hwritten⟩ (h key pem)

end Key

end Adbcpp.Crypto
