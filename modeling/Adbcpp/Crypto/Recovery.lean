import Adbcpp.Crypto.KeyStore

/-! What a later call makes of the key pair that an earlier one stored, or failed to store.
The file system works by then, but it has of the private key only what it took before. -/

namespace Adbcpp.Crypto.Key

variable {κ μ : Type} {lib : KeyLibrary κ μ}

/-! ### The later call -/

/-- A file as a later call finds it: with the same content, and on a file system that works. -/
structure Resumes (f f' : KeyFile) : Prop where
  present : f'.present = f.present
  disk : f'.stream.disk = f.stream.disk
  accepting : f'.stream.Accepting

/-- The directory as a later call finds it. -/
structure Repaired (d d' : KeyDirectory) : Prop where
  home : d'.home = true
  checks : d'.checks = true
  creates : d'.creates = true
  privateFile : Resumes d.privateFile d'.privateFile
  publicFile : Resumes d.publicFile d'.publicFile

/-- A key can be generated, and stored. -/
def Works (lib : KeyLibrary κ μ) (random : Randomness κ) : Prop :=
  ∃ key pem, generate lib random = .ok key ∧ lib.writeKeyPem key.pk = some pem

/-- Whatever the earlier call ends with, every later one succeeds, and with the key handed out then. -/
def AllOrNothing (lib : KeyLibrary κ μ) (first : Randomness κ) (d : KeyDirectory) : Prop :=
  ∀ later d', Works lib later → Repaired ((loadOrGenerate lib first).run d).2 d' →
    ∃ key, ((loadOrGenerate lib later).run d').1 = .ok key ∧
      ∀ key₁, ((loadOrGenerate lib first).run d).1 = .ok key₁ → key.publicKey = key₁.publicKey

/-! ### What the later call does -/

variable {random : Randomness κ} {d : KeyDirectory} {key : Key κ} {pem : List Byte}

theorem pk_of_ofRsa {pk : κ} (h : ofRsa lib pk = .ok key) : key.pk = pk := by
  unfold ofRsa at h
  match hencoded : encodePublicKey lib.mpi lib.base64 (lib.rsaExport pk) with
  | .error e =>
    rw [hencoded] at h
    cases h
  | .ok publicKey =>
    rw [hencoded] at h
    cases h
    rfl

/-- A generated key is the one of its RSA key, and the generator was seeded for it. -/
theorem generate_ok (h : generate lib random = .ok key) : random.seed = 0 ∧ ofRsa lib key.pk = .ok key := by
  unfold generate at h
  split at h
  · cases h
  split at h
  · cases h
  next hseed =>
    split at h
    · cases h
    next pk _ =>
      rw [pk_of_ofRsa h]
      exact ⟨Classical.not_not.mp hseed, h⟩

/-- A complete PEM is loaded as the key that was stored. -/
theorem load_complete (hlib : lib.Parses) (hkey : ofRsa lib key.pk = .ok key)
    (hpem : lib.writeKeyPem key.pk = some pem) (hseed : random.seed = 0) : load lib random pem = .ok key := by
  unfold load
  rw [if_pos hseed, hlib.complete key.pk pem hpem]
  exact hkey

/-- One that was cut short is not loaded. -/
theorem load_truncated (hlib : lib.Parses) (random : Randomness κ) {part : List Byte} (hpem : lib.writeKeyPem key.pk = some pem)
    (hpart : part <+: pem) (hne : part ≠ pem) : ∃ e, load lib random part = .error e := by
  unfold load
  split
  · exact ⟨_, rfl⟩
  next pk hparse =>
    obtain ⟨rc, hrc⟩ := hlib.truncated key.pk pem part hpem hpart hne
    rw [hrc] at hparse
    split at hparse <;> cases hparse

theorem run_present (hhome : d.home = true) (hchecks : d.checks = true) (hpresent : d.privateFile.present = true) :
    (loadOrGenerate lib random).run d = (load lib random d.privateFile.stream.disk, d) := by
  unfold loadOrGenerate
  rw [Prog.run_bind_get]
  simp only [hhome, hchecks, hpresent, Bool.not_true, Bool.false_eq_true, if_false, if_true]
  rfl

theorem writePublicFile_succeeds (key : Key κ) :
    Prog.Triple (fun d : KeyDirectory => d.publicFile.stream.Accepting) (writePublicFile key)
      (fun k _ => k = key) fun _ _ => False := by
  unfold writePublicFile
  refine Prog.Triple.bind (R := fun _ d => d.publicFile.stream.Holds []) ?_ fun _ => ?_
  · apply Prog.Triple.modify
    intro d hd
    exact hd.openTruncated
  apply Prog.Triple.get_bind
  intro d hd
  rw [if_neg (by simp [hd.good])]
  refine Prog.Triple.bind (R := fun _ d => d.publicFile.stream.bad = false) ?_ fun _ => ?_
  · apply Prog.Triple.modify
    rintro _ rfl
    exact (hd.writes [key.publicKey, bytesOf "\n"]).good
  apply Prog.Triple.get_bind
  intro d' hd'
  rw [if_neg (by simp [hd'])]
  exact Prog.Triple.pure fun _ _ => rfl

/-- Files that take everything hold the key at the end. -/
theorem writeFiles_succeeds (key : Key κ) (pem : List Byte) :
    Prog.Triple (fun d : KeyDirectory => d.privateFile.stream.Accepting ∧ d.publicFile.stream.Accepting)
      (writeFiles key pem) (fun k _ => k = key) fun _ _ => False := by
  unfold writeFiles
  apply Prog.Triple.ensuring
  refine Prog.Triple.bind
    (R := fun _ d => d.privateFile.stream.Holds [] ∧ d.publicFile.stream.Accepting) ?_ fun _ => ?_
  · apply Prog.Triple.modify
    rintro d ⟨hprivate, hpublic⟩
    exact ⟨hprivate.openTruncated, hpublic⟩
  apply Prog.Triple.get_bind
  rintro d ⟨hprivate, hpublic⟩
  rw [if_neg (by simp [hprivate.good])]
  refine Prog.Triple.bind
    (R := fun _ d => d.privateFile.stream.bad = false ∧ d.publicFile.stream.Accepting) ?_ fun _ => ?_
  · apply Prog.Triple.modify
    rintro _ rfl
    exact ⟨(hprivate.writes [pem]).good, hpublic⟩
  apply Prog.Triple.get_bind
  rintro d' ⟨hgood, hpublic'⟩
  rw [if_neg (by simp [hgood])]
  apply (writePublicFile_succeeds key).conseq
  · rintro _ rfl
    exact hpublic'
  · exact fun _ _ h => h
  · exact fun _ _ h => h

/-- Without a private key, a call on a file system that works generates and stores one. -/
theorem run_absent (hworks : Works lib random) {d d' : KeyDirectory} (h : Repaired d d')
    (habsent : d.privateFile.present = false) : ∃ key, ((loadOrGenerate lib random).run d').1 = .ok key := by
  obtain ⟨key, pem, hgenerated, hwritten⟩ := hworks
  have hreaches : Reaches lib random d' key pem := ⟨h.home, h.checks, h.creates, hgenerated, hwritten⟩
  rw [hreaches.run (h.privateFile.present.trans habsent)]
  have hends := writeFiles_succeeds key pem d' ⟨h.privateFile.accepting, h.publicFile.accepting⟩
  match hrun : (writeFiles key pem).run d' with
  | (.ok k, d₂) => exact ⟨k, rfl⟩
  | (.error e, d₂) =>
    rw [hrun] at hends
    exact hends.elim

/-! ### What the earlier call leaves -/

/-- Of a key that it got to store, the call leaves what the file system took, even where it fails. -/
theorem run_stored (hreaches : Reaches lib random d key pem) (habsent : d.privateFile.present = false)
    (hopens : d.privateFile.stream.opens = true) :
    ((loadOrGenerate lib random).run d).2.privateFile =
      (d.privateFile.openTruncated.writes [pem]).close := by
  have hends := writeFiles_leaves key pem d.privateFile d rfl
  rw [hreaches.run habsent]
  match hrun : (writeFiles key pem).run d with
  | (.ok k, d') =>
    rw [hrun] at hends
    exact hends.2.2
  | (.error e, d') =>
    rw [hrun] at hends
    cases hends with
    | closed _ stored => exact stored
    | absent hclosed _ =>
      rw [hopens] at hclosed
      cases hclosed

/-- What it hands out is what it stored. -/
theorem run_ok (hreaches : Reaches lib random d key pem) (habsent : d.privateFile.present = false)
    {key₁ : Key κ} (h : ((loadOrGenerate lib random).run d).1 = .ok key₁) :
    key₁ = key ∧ d.privateFile.stream.opens = true := by
  rw [hreaches.run habsent] at h
  have hends := (writeFiles_leaves key pem d.privateFile d rfl).ok h
  exact ⟨hends.1, hends.2.1⟩

/-- A file that could not be opened is still missing. -/
theorem run_unopened (hreaches : Reaches lib random d key pem) (habsent : d.privateFile.present = false)
    (hclosed : d.privateFile.stream.opens = false) :
    ((loadOrGenerate lib random).run d).2.privateFile.present = false := by
  have hends := writeFiles_leaves key pem d.privateFile d rfl
  rw [hreaches.run habsent]
  match hrun : (writeFiles key pem).run d with
  | (.ok k, d') =>
    rw [hrun] at hends
    have hopens := hends.2.1
    rw [hclosed] at hopens
    cases hopens
  | (.error e, d') =>
    rw [hrun] at hends
    cases hends with
    | closed hopens _ =>
      rw [hclosed] at hopens
      cases hopens
    | absent _ hpresent => exact hpresent.trans habsent

/-- The directory as it was left, on a file system that has recovered. -/
def repaired (d : KeyDirectory) : KeyDirectory where
  privateFile := { present := d.privateFile.present, stream := { disk := d.privateFile.stream.disk } }
  publicFile := { present := d.publicFile.present, stream := { disk := d.publicFile.stream.disk } }

theorem repaired_repaired (d : KeyDirectory) : Repaired d (repaired d) where
  home := rfl
  checks := rfl
  creates := rfl
  privateFile := ⟨rfl, rfl, rfl, fun _ hmem => absurd hmem List.not_mem_nil, rfl⟩
  publicFile := ⟨rfl, rfl, rfl, fun _ hmem => absurd hmem List.not_mem_nil, rfl⟩

/-- Once a private key is cut short, no later call succeeds. -/
theorem run_cut (hlib : lib.Parses) (hreaches : Reaches lib random d key pem)
    (habsent : d.privateFile.present = false) (hopens : d.privateFile.stream.opens = true)
    (hcut : ¬ (d.privateFile.stream.openTruncated.write pem).Flushes) (later : Randomness κ) {d' : KeyDirectory}
    (h : Repaired ((loadOrGenerate lib random).run d).2 d') :
    ∃ e, ((loadOrGenerate lib later).run d').1 = .error e := by
  obtain ⟨hisOpen, hwritten⟩ := OutputFile.write_openTruncated hopens pem
  have hdisk : d'.privateFile.stream.disk = (d.privateFile.stream.openTruncated.write pem).close.disk := by
    rw [h.privateFile.disk, run_stored hreaches habsent hopens]
    rfl
  have hpresent : d'.privateFile.present = true := by
    rw [h.privateFile.present, run_stored hreaches habsent hopens]
    simp [KeyFile.close, KeyFile.writes, KeyFile.openTruncated, hopens]
  have hpart := OutputFile.close_disk_begins hisOpen
  have hne : (d.privateFile.stream.openTruncated.write pem).close.disk ≠ pem := by
    intro heq
    apply hcut
    apply (OutputFile.close_disk_iff hisOpen).mp
    rw [heq, hwritten]
  rw [hwritten, ← hdisk] at hpart
  rw [← hdisk] at hne
  obtain ⟨e, he⟩ := load_truncated hlib later hreaches.written hpart hne
  rw [run_present h.home h.checks hpresent, he]
  exact ⟨e, rfl⟩

/-- One that is complete is the key of every later call. -/
theorem run_complete (hlib : lib.Parses) (hreaches : Reaches lib random d key pem)
    (habsent : d.privateFile.present = false) (hopens : d.privateFile.stream.opens = true)
    (hflushes : (d.privateFile.stream.openTruncated.write pem).Flushes) {later : Randomness κ}
    (hseed : later.seed = 0) {d' : KeyDirectory} (h : Repaired ((loadOrGenerate lib random).run d).2 d') :
    ((loadOrGenerate lib later).run d').1 = .ok key := by
  obtain ⟨hisOpen, hwritten⟩ := OutputFile.write_openTruncated hopens pem
  have hdisk : d'.privateFile.stream.disk = pem := by
    rw [h.privateFile.disk, run_stored hreaches habsent hopens]
    exact ((OutputFile.close_disk_iff hisOpen).mpr hflushes).trans hwritten
  have hpresent : d'.privateFile.present = true := by
    rw [h.privateFile.present, run_stored hreaches habsent hopens]
    simp [KeyFile.close, KeyFile.writes, KeyFile.openTruncated, hopens]
  rw [run_present h.home h.checks hpresent, hdisk]
  exact load_complete hlib (generate_ok hreaches.generated).2 hreaches.written hseed

/-! ### All or nothing -/

/-- Storing a key is all or nothing exactly where the private key file cannot be opened, or the file
system has its PEM once the stream is destroyed; nothing else that fails leaves anything behind. -/
theorem allOrNothing_iff (hlib : lib.Parses) {first : Randomness κ} (habsent : d.privateFile.present = false) :
    AllOrNothing lib first d ↔ ∀ key pem, Reaches lib first d key pem → d.privateFile.stream.opens = true →
      (d.privateFile.stream.openTruncated.write pem).Flushes := by
  constructor
  · intro h key pem hreaches hopens
    by_contra hcut
    obtain ⟨e, he⟩ := run_cut hlib hreaches habsent hopens hcut first (repaired_repaired _)
    obtain ⟨key', hkey', -⟩ := h first _ ⟨key, pem, hreaches.generated, hreaches.written⟩ (repaired_repaired _)
    rw [he] at hkey'
    cases hkey'
  · intro hcondition later d' hworks hrepaired
    by_cases hreached : ∃ key pem, Reaches lib first d key pem
    swap
    · -- Nothing was stored, and the call said so.
      obtain ⟨e, hrun⟩ := run_of_not_reaches habsent fun key pem h => hreached ⟨key, pem, h⟩
      rw [hrun] at hrepaired
      obtain ⟨key', hkey'⟩ := run_absent hworks hrepaired habsent
      refine ⟨key', hkey', ?_⟩
      intro key₁ hkey₁
      rw [hrun] at hkey₁
      cases hkey₁
    obtain ⟨key, pem, hreaches⟩ := hreached
    by_cases hopens : d.privateFile.stream.opens = true
    · have hflushes := hcondition key pem hreaches hopens
      obtain ⟨_, _, hgenerated, _⟩ := hworks
      have hlater := run_complete hlib hreaches habsent hopens hflushes (generate_ok hgenerated).1 hrepaired
      refine ⟨key, hlater, ?_⟩
      intro key₁ hkey₁
      rw [(run_ok hreaches habsent hkey₁).1]
    · have hclosed := Bool.eq_false_of_not_eq_true hopens
      obtain ⟨key', hkey'⟩ := run_absent hworks hrepaired (run_unopened hreaches habsent hclosed)
      refine ⟨key', hkey', ?_⟩
      intro key₁ hkey₁
      exact absurd (run_ok hreaches habsent hkey₁).2 hopens

/-! ### A small library -/

/-- A PEM of a number: as many letters, and the end of the line. -/
def unaryPem (n : ℕ) : List Byte := List.replicate n 65 ++ [10]

/-- Keys that are a small modulus with the usual exponent. -/
def unaryKeys : KeyLibrary ℕ ℕ where
  mpi := natMpi
  base64 := some ∘ base64Encode
  rsaExport n := some (n, 65537)
  writeKeyPem n := some (unaryPem n)
  parseKeyfile content :=
    if content = unaryPem (content.length - 1) then .ok (content.length - 1) else .error (-15616)

theorem unaryKeys_parses : unaryKeys.Parses where
  complete := by
    rintro n pem ⟨⟩
    simp [unaryKeys, unaryPem]
  truncated := by
    rintro n pem part ⟨⟩ hbegins hne
    refine ⟨-15616, if_neg ?_⟩
    intro hpart
    have hshort : part <+: List.replicate n 65 := (List.prefix_concat_iff.mp hbegins).resolve_left hne
    have hend : (10 : Byte) ∈ part := by
      rw [hpart]
      simp [unaryPem]
    have hletter := List.eq_of_mem_replicate (hshort.subset hend)
    cases hletter

/-- A file system that takes everything, also what stays in the buffer until the end. -/
theorem allOrNothing_iff_accepting : AllOrNothing unaryKeys { generated := .ok 3 } {} :=
  (allOrNothing_iff unaryKeys_parses rfl).mpr fun key pem _ _ n hn => by
    rw [OutputFile.write_closing] at hn
    cases hn

theorem exists_generated : ∃ key, generate unaryKeys { generated := .ok 3 } = .ok key ∧ key.pk = 3 := by
  have hsmall : 3 < 2 ^ 2048 := by
    apply Nat.lt_two_pow_self.trans_le
    apply Nat.pow_le_pow_right Nat.two_pos
    norm_num
  obtain ⟨blob, hblob⟩ := @exists_buildBlob _ natMpi id natMpi_exact natMpi_available 3 65537
    (by decide) hsmall (by decide)
  have hkey : generate unaryKeys { generated := .ok 3 } =
      .ok { pk := 3, publicKey := base64Encode blob ++ bytesOf " adbcpp@localhost" } := by
    have hbuilt : buildBlob unaryKeys.mpi 3 65537 = .ok blob := hblob
    unfold generate ofRsa encodePublicKey
    simp [unaryKeys, bind, Except.bind, pure, Except.pure] at hbuilt ⊢
    simp [hbuilt]
  exact ⟨_, hkey, rfl⟩

/-- The disk is full when the stream is destroyed: the call hands out a key, of which only the first
byte is stored. -/
theorem not_allOrNothing_full :
    ¬ AllOrNothing unaryKeys { generated := .ok 3 } { privateFile := { stream := { closing := some 1 } } } := by
  intro h
  obtain ⟨key, hkey, hpk⟩ := exists_generated
  have hpem : unaryKeys.writeKeyPem key.pk = some [65, 65, 65, 10] := by
    rw [hpk]
    rfl
  have hreaches : Reaches unaryKeys { generated := .ok 3 } { privateFile := { stream := { closing := some 1 } } }
      key [65, 65, 65, 10] := ⟨rfl, rfl, rfl, hkey, hpem⟩
  obtain ⟨e, he⟩ := run_cut unaryKeys_parses hreaches rfl rfl (by decide) { generated := .ok 3 }
    (repaired_repaired _)
  obtain ⟨key', hkey', -⟩ := h { generated := .ok 3 } _ ⟨key, _, hkey, hpem⟩ (repaired_repaired _)
  rw [he] at hkey'
  cases hkey'

end Adbcpp.Crypto.Key
