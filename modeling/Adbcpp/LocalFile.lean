import Adbcpp.Error
import Mathlib.Data.List.TakeDrop

/-! The local file of a transfer, read through an input stream or written through an
output stream. A stream goes bad on its first failure and stays so. An output stream
keeps bytes in a buffer: a write may succeed while its bytes are still there, and
what the file system does with the rest when the stream is destroyed is not
reported to anybody. -/

namespace Adbcpp

/-! ### Reading -/

structure InputFile where
  opens : Bool := true
  /-- The bytes that have not been read yet. -/
  remaining : List Byte
  /-- Reading past the last of these bytes fails instead of finding the end of the file. -/
  breaks : Bool := false
  eof : Bool := false
  bad : Bool := false
  deriving DecidableEq, Repr

namespace InputFile

def good (f : InputFile) : Bool := !f.eof && !f.bad

/-- Reads a block of `size` bytes, or what there is before the end of the file. -/
def read (size : ℕ) : Action InputFile (List Byte) := fun f =>
  if size ≤ f.remaining.length then
    (.ok (f.remaining.take size), { f with remaining := f.remaining.drop size })
  else if f.breaks then
    (.ok [], { f with bad := true })
  else
    (.ok f.remaining, { f with remaining := [], eof := true })

theorem run_read (size : ℕ) (f : InputFile) : (read size).run f =
    if size ≤ f.remaining.length then
      (.ok (f.remaining.take size), { f with remaining := f.remaining.drop size })
    else if f.breaks then
      (.ok [], { f with bad := true })
    else
      (.ok f.remaining, { f with remaining := [], eof := true }) := rfl

/-- A file that still has a full block hands it out. -/
theorem read_full {size : ℕ} {block rest : List Byte} (h : block.length = size) :
    (read size).run { remaining := block ++ rest } = (.ok block, { remaining := rest }) := by
  rw [run_read, if_pos (by simp [h]), ← h, List.take_left, List.drop_left]

/-- A file that has less than a full block hands out the rest, and is at its end. -/
theorem read_rest {size : ℕ} {block : List Byte} (h : block.length < size) :
    (read size).run { remaining := block } = (.ok block, { remaining := [], eof := true }) := by
  rw [run_read, if_neg (by dsimp only; omega)]
  rfl

/-- A read hands out no more than a block. -/
theorem read_le {size : ℕ} {bytes : List Byte} {f f' : InputFile}
    (h : (read size).run f = (.ok bytes, f')) : bytes.length ≤ size := by
  rw [run_read] at h
  split at h
  · cases h
    exact List.length_take_le _ _
  split at h <;> cases h
  · exact Nat.zero_le _
  · omega

/-- A block that was read is gone from what remains. -/
theorem read_ok {size : ℕ} {bytes : List Byte} {f f' : InputFile}
    (h : (read size).run f = (.ok bytes, f')) :
    bytes.length + f'.remaining.length ≤ f.remaining.length := by
  rw [run_read] at h
  split at h
  · cases h
    rw [List.length_take, List.length_drop]
    omega
  split at h <;> cases h
  · exact Nat.le_of_eq (Nat.zero_add _)
  · exact Nat.le_of_eq (Nat.add_zero _)

end InputFile

/-! ### Writing -/

/-- How far a write gets: the bytes stay in the buffer, or the file system takes the first `n` of
those it does not have yet, and may then fail. -/
inductive StoreOutcome
  | kept
  | stored (n : ℕ)
  | failed (n : ℕ)
  deriving DecidableEq, Repr

structure OutputFile where
  opens : Bool := true
  isOpen : Bool := false
  /-- What the file system has. -/
  disk : List Byte := []
  buffered : List Byte := []
  bad : Bool := false
  /-- How the coming writes end; after the last entry they stay in the buffer. -/
  outcomes : List StoreOutcome := []
  /-- How many buffered bytes the file system takes when the stream is destroyed, if not all. -/
  closing : Option ℕ := none
  deriving DecidableEq, Repr

namespace OutputFile

/-- Opens the file, which creates or truncates it. -/
def openTruncated (f : OutputFile) : OutputFile :=
  if f.opens then { f with isOpen := true, disk := [], buffered := [], bad := false }
  else { f with bad := true }

def write (data : List Byte) (f : OutputFile) : OutputFile :=
  if f.bad then f
  else
    let bytes := f.buffered ++ data
    match f.outcomes with
    | [] => { f with buffered := bytes }
    | .kept :: rest => { f with buffered := bytes, outcomes := rest }
    | .stored n :: rest =>
      { f with disk := f.disk ++ bytes.take n, buffered := bytes.drop n, outcomes := rest }
    | .failed n :: rest =>
      { f with disk := f.disk ++ bytes.take n, buffered := bytes.drop n, outcomes := rest, bad := true }

/-- What the destructor of the stream does: the last of the buffer goes to the file system. -/
def close (f : OutputFile) : OutputFile :=
  if f.isOpen then
    let taken := f.closing.getD f.buffered.length
    { f with isOpen := false, disk := f.disk ++ f.buffered.take taken, buffered := [] }
  else f

/-- The bytes written so far, on the disk or not. -/
def written (f : OutputFile) : List Byte := f.disk ++ f.buffered

/-- The file system takes all that is still in the buffer when the stream is destroyed. -/
def Flushes (f : OutputFile) : Prop := ∀ n, f.closing = some n → f.buffered.length ≤ n

instance (f : OutputFile) : Decidable f.Flushes :=
  decidable_of_iff (f.buffered.length ≤ f.closing.getD f.buffered.length) <| by
    unfold Flushes
    cases f.closing <;> simp

/-- Writes some blocks one after the other. -/
def writes (blocks : List (List Byte)) (f : OutputFile) : OutputFile :=
  blocks.foldl (fun g block => g.write block) f

theorem openTruncated_bad (f : OutputFile) : f.openTruncated.bad = !f.opens := by
  unfold openTruncated
  split
  next h => simp [h]
  next h => simp [h]

/-- A file that is good behind its opening is open and empty. -/
theorem openTruncated_good {f : OutputFile} (h : f.openTruncated.bad = false) :
    f.openTruncated.isOpen = true ∧ f.openTruncated.disk = [] ∧ f.openTruncated.buffered = [] := by
  unfold openTruncated at h ⊢
  split
  · exact ⟨rfl, rfl, rfl⟩
  next hclosed =>
    rw [if_neg hclosed] at h
    cases h

@[simp] theorem writes_nil (f : OutputFile) : f.writes [] = f := rfl

@[simp] theorem writes_cons (block : List Byte) (blocks : List (List Byte)) (f : OutputFile) :
    f.writes (block :: blocks) = (f.write block).writes blocks := rfl

theorem writes_append (before after : List (List Byte)) (f : OutputFile) :
    f.writes (before ++ after) = (f.writes before).writes after := List.foldl_append

@[simp] theorem write_closing (data : List Byte) (f : OutputFile) : (f.write data).closing = f.closing := by
  unfold write
  split
  · rfl
  · dsimp only
    split <;> rfl

@[simp] theorem write_isOpen (data : List Byte) (f : OutputFile) : (f.write data).isOpen = f.isOpen := by
  unfold write
  split
  · rfl
  · dsimp only
    split <;> rfl

@[simp] theorem write_opens (data : List Byte) (f : OutputFile) : (f.write data).opens = f.opens := by
  unfold write
  split
  · rfl
  · dsimp only
    split <;> rfl

/-- A write takes the first of the outcomes, if any. -/
theorem write_outcomes (data : List Byte) (f : OutputFile) : ∀ o ∈ (f.write data).outcomes, o ∈ f.outcomes := by
  unfold write
  split
  · exact fun _ h => h
  dsimp only
  split
  · exact fun _ h => h
  next rest hkept => exact fun o h => hkept ▸ List.mem_cons_of_mem _ h
  next n rest hstored => exact fun o h => hstored ▸ List.mem_cons_of_mem _ h
  next n rest hfailed => exact fun o h => hfailed ▸ List.mem_cons_of_mem _ h

/-- A stream that has gone bad takes nothing any more. -/
theorem write_bad {f : OutputFile} (h : f.bad = true) (data : List Byte) : f.write data = f := by
  unfold write
  exact if_pos h

theorem writes_bad {f : OutputFile} (h : f.bad = true) (blocks : List (List Byte)) : f.writes blocks = f := by
  induction blocks with
  | nil => rfl
  | cons block blocks ih => rw [writes_cons, write_bad h, ih]

/-- A write to a stream that is good appends its bytes, wherever they end up. -/
theorem write_written {f : OutputFile} (h : f.bad = false) (data : List Byte) :
    (f.write data).written = f.written ++ data := by
  have hstored : ∀ n, f.disk ++ (f.buffered ++ data).take n ++ (f.buffered ++ data).drop n =
      f.disk ++ f.buffered ++ data := by
    intro n
    rw [List.append_assoc, List.take_append_drop, List.append_assoc]
  unfold write
  rw [if_neg (by simp [h])]
  unfold written
  dsimp only
  split
  · exact (List.append_assoc _ _ _).symm
  · exact (List.append_assoc _ _ _).symm
  · exact hstored _
  · exact hstored _

/-- Blocks that leave a stream good behind them have all been written. -/
theorem writes_written {f : OutputFile} {blocks : List (List Byte)} (h : (f.writes blocks).bad = false) :
    f.bad = false ∧ (f.writes blocks).written = f.written ++ blocks.flatten := by
  have hgood : f.bad = false := by
    by_contra hbad
    rw [writes_bad (Bool.eq_true_of_not_eq_false hbad)] at h
    exact hbad h
  refine ⟨hgood, ?_⟩
  induction blocks generalizing f with
  | nil => simp
  | cons block blocks ih =>
    rw [writes_cons] at h ⊢
    have hnext : (f.write block).bad = false := by
      by_contra hbad
      rw [writes_bad (Bool.eq_true_of_not_eq_false hbad)] at h
      exact hbad h
    rw [ih h hnext, write_written hgood, List.flatten_cons, List.append_assoc]

theorem writes_closing (blocks : List (List Byte)) (f : OutputFile) :
    (f.writes blocks).closing = f.closing ∧ (f.writes blocks).isOpen = f.isOpen := by
  induction blocks generalizing f with
  | nil => exact ⟨rfl, rfl⟩
  | cons block blocks ih =>
    rw [writes_cons, (ih (f.write block)).1, (ih (f.write block)).2, write_closing, write_isOpen]
    exact ⟨rfl, rfl⟩

/-- When an open stream is destroyed, the file system has all that was written exactly where it takes
what is still in the buffer. -/
theorem close_disk_iff {f : OutputFile} (h : f.isOpen = true) : f.close.disk = f.written ↔ f.Flushes := by
  unfold close written Flushes
  rw [if_pos h]
  dsimp only
  rw [List.append_cancel_left_eq, List.take_eq_self_iff]
  cases f.closing <;> simp

/-- What has been written is a beginning of the file, at the least, once the stream is destroyed. -/
theorem close_disk_begins {f : OutputFile} (h : f.isOpen = true) : f.close.disk <+: f.written := by
  unfold close written
  rw [if_pos h]
  apply (List.prefix_append_right_inj _).mpr
  exact List.take_prefix _ _

/-- The first block goes to an empty file, whether writing it fails or not. -/
theorem write_openTruncated {f : OutputFile} (h : f.opens = true) (data : List Byte) :
    (f.openTruncated.write data).isOpen = true ∧ (f.openTruncated.write data).written = data := by
  have hgood : f.openTruncated.bad = false := by rw [openTruncated_bad, h, Bool.not_true]
  obtain ⟨hopen, hdisk, hbuffered⟩ := openTruncated_good hgood
  constructor
  · rw [write_isOpen, hopen]
  · rw [write_written hgood, written, hdisk, hbuffered]
    rfl

/-- The file opens, and no write to it fails. -/
structure Accepting (f : OutputFile) : Prop where
  opens : f.opens = true
  writes : ∀ o ∈ f.outcomes, ∀ n, o ≠ .failed n
  closing : f.closing = none

theorem Accepting.write {f : OutputFile} (h : f.Accepting) (data : List Byte) : (f.write data).Accepting := by
  constructor
  · rw [write_opens]
    exact h.opens
  · intro o hmem
    exact h.writes o (write_outcomes data f o hmem)
  · rw [write_closing]
    exact h.closing

theorem Accepting.write_good {f : OutputFile} (h : f.Accepting) (hgood : f.bad = false) (data : List Byte) :
    (f.write data).bad = false := by
  unfold OutputFile.write
  rw [if_neg (by simp [hgood])]
  dsimp only
  split
  · exact hgood
  · exact hgood
  · exact hgood
  next n rest hfailed => exact absurd rfl (h.writes (.failed n) (hfailed ▸ List.mem_cons_self) n)

/-- A stream to which everything so far has been written. -/
structure Holds (f : OutputFile) (bytes : List Byte) : Prop where
  accepting : f.Accepting
  isOpen : f.isOpen = true
  good : f.bad = false
  written : f.written = bytes

theorem Accepting.openTruncated {f : OutputFile} (h : f.Accepting) : f.openTruncated.Holds [] := by
  rw [OutputFile.openTruncated, if_pos h.opens]
  exact ⟨⟨h.opens, h.writes, h.closing⟩, rfl, rfl, rfl⟩

/-- A write appends its bytes, wherever they end up. -/
theorem Holds.write {f : OutputFile} {bytes : List Byte} (h : f.Holds bytes) (data : List Byte) :
    (f.write data).Holds (bytes ++ data) := by
  obtain ⟨haccepting, hopen, hgood, rfl⟩ := h
  constructor
  · exact haccepting.write data
  · rw [write_isOpen, hopen]
  · exact haccepting.write_good hgood data
  · exact write_written hgood data

theorem Holds.writes {f : OutputFile} {bytes : List Byte} (h : f.Holds bytes) (blocks : List (List Byte)) :
    (f.writes blocks).Holds (bytes ++ blocks.flatten) := by
  induction blocks generalizing f bytes with
  | nil => simpa using h
  | cons block blocks ih =>
    have hrest := ih (h.write block)
    rw [List.append_assoc] at hrest
    exact hrest

/-- When the stream is destroyed, the file system has everything that was written. -/
theorem Holds.close {f : OutputFile} {bytes : List Byte} (h : f.Holds bytes) :
    f.close.disk = bytes := by
  rw [OutputFile.close, if_pos h.isOpen, h.accepting.closing, ← h.written]
  simp [OutputFile.written]

end OutputFile

end Adbcpp
