import Adbcpp.Stream.Delivery
import Adbcpp.Sync.Replies

/-! Listing a directory. The device answers a LIST with one response for each entry
and a DONE behind the last one, which is as long as the body of an entry. The v2 form
reports an entry whose metadata could not be read with an error in place of dropping
it, and the host skips it. A listing takes every byte of its responses off the stream. -/

namespace Adbcpp.Sync

open Protocol Dialogue StreamOn

def kListV1 : UInt32 := makeCommand 'L' 'I' 'S' 'T'
def kListV2 : UInt32 := makeCommand 'L' 'I' 'S' '2'
def kDentV1 : UInt32 := makeCommand 'D' 'E' 'N' 'T'
def kDentV2 : UInt32 := makeCommand 'D' 'N' 'T' '2'

def kLsV2Feature : List Byte := bytesOf "ls_v2"

def kDentV1BodySize : ℕ := 16
def kDentV2BodySize : ℕ := 72
def kDentV1NameLengthOffset : ℕ := 12
def kDentV2NameLengthOffset : ℕ := 68

/-- The longest name of an entry. -/
def kMaxNameLength : ℕ := 255

structure DirEntry where
  name : List Byte
  mode : UInt32
  size : UInt64
  mtime : Int64
  deriving DecidableEq, Repr

/-- The entry that the body of a response and its name describe. -/
def dirEntry (v2 : Bool) (body name : List Byte) : DirEntry :=
  if v2 then
    { name
      mode := readU32LE (body.drop kDentV2ModeOffset)
      size := readU64LE (body.drop kDentV2SizeOffset)
      mtime := (readU64LE (body.drop kDentV2MtimeOffset)).toInt64 }
  else
    { name
      mode := readU32LE (body.drop kDentV1ModeOffset)
      size := (readU32LE (body.drop kDentV1SizeOffset)).toUInt64
      mtime := (readU32LE (body.drop kDentV1MtimeOffset)).toUInt64.toInt64 }

/-- The id of the response for an entry. -/
def dentId (v2 : Bool) : UInt32 := if v2 then kDentV2 else kDentV1

def bodySize (v2 : Bool) : ℕ := if v2 then kDentV2BodySize else kDentV1BodySize

def nameLengthOffset (v2 : Bool) : ℕ := if v2 then kDentV2NameLengthOffset else kDentV1NameLengthOffset

section Definition

variable {σ : Type} [Channel σ]

/-- One turn of the loop of a listing: one response, with the entries so far. -/
def listTurn (v2 : Bool) (entries : List DirEntry) :
    Action (StreamOn σ) (Turn (List DirEntry) (List DirEntry)) := do
  let idBytes ← StreamOn.read 4
  let id := readU32LE idBytes
  if id = kFail then
    syncFail
  else do
    -- DONE has a body like that of an entry.
    let body ← StreamOn.read (bodySize v2)
    if id = kDone then
      pure (.done entries)
    else if id ≠ dentId v2 then
      Prog.fail (.of .protocol "unexpected sync response")
    else
      let nameLength := (readU32LE (body.drop (nameLengthOffset v2))).toNat
      if nameLength > kMaxNameLength then
        Prog.fail (.of .protocol "the entry name is longer than 255 bytes")
      else do
        -- The name follows also where the entry failed.
        let name ← StreamOn.read nameLength
        if v2 ∧ readU32LE (body.drop kErrorOffset) ≠ 0 then
          pure (.again entries)
        else
          pure (.again (entries ++ [dirEntry v2 body name]))

theorem listTurn_decreases (v2 : Bool) : Prog.Decreases
    (fun _ (s : StreamOn σ) => s.buffered.length + s.pending) (listTurn v2) := by
  intro entries entries' s s' h
  obtain ⟨idBytes, t, hid, h⟩ := Prog.bind_eq_ok h
  have hless := (StreamOn.read_ok hid).2
  dsimp only at h
  split at h
  · exact absurd h syncFail_ne_ok
  obtain ⟨body, u, hbody, h⟩ := Prog.bind_eq_ok h
  have hless' := (StreamOn.read_ok hbody).2
  split at h
  · cases h
  split at h
  · cases h
  split at h
  · cases h
  obtain ⟨name, v, hname, h⟩ := Prog.bind_eq_ok h
  have hless'' := (StreamOn.read_ok hname).2
  split at h
  all_goals
    cases h
    dsimp only
    omega

/-- A listing on a `sync:` stream. -/
def listOn (v2 : Bool) (path : List Byte) : Action (StreamOn σ) (List DirEntry) := do
  writePathRequest (if v2 then kListV2 else kListV1) path
  let entries ← Prog.loop (listTurn_decreases v2) []
  writeQuit
  pure entries

/-- A listing writes its request and a QUIT, and reads. -/
theorem listOn_steps {R : StreamOn σ → StreamOn σ → Prop} [Std.Refl R] [IsTrans (StreamOn σ) R] {v2 : Bool}
    {path : List Byte} (hread : ∀ size, Prog.Steps R (read size))
    (hrequest : Prog.Steps R (writePathRequest (if v2 then kListV2 else kListV1) path))
    (hquit : Prog.Steps R writeQuit) : Prog.Steps R (listOn v2 path) := by
  refine Prog.Steps.bind hrequest fun _ => Prog.Steps.bind (Prog.Steps.loop _ (fun entries => ?_) _) fun _ =>
    Prog.Steps.bind hquit fun _ => Prog.Steps.pure _
  refine Prog.Steps.bind (hread 4) fun id => Prog.Steps.ite (syncFail_steps hread) ?_
  refine Prog.Steps.bind (hread _) fun body => Prog.Steps.ite (Prog.Steps.pure _) ?_
  refine Prog.Steps.ite (Prog.Steps.fail _) (Prog.Steps.ite (Prog.Steps.fail _) ?_)
  exact Prog.Steps.bind (hread _) fun name => Prog.Steps.ite (Prog.Steps.pure _) (Prog.Steps.pure _)

/-- The entries of a directory on the device. -/
def list (path : List Byte) : Action (Connection σ) (List DirEntry) :=
  if path.length > kMaxPathLength then
    Prog.fail (.of .invalidArgument "the path is longer than the sync limit of 1024 bytes")
  else do
    let connection ← Prog.get
    withStream (bytesOf "sync:") (listOn (connection.supportsFeature kLsV2Feature) path)

end Definition

/-! ### What the device sends -/

def writeU64LE (value : UInt64) : List Byte :=
  writeU32LE value.toUInt32 ++ writeU32LE (value >>> 32).toUInt32

@[simp] theorem length_writeU64LE (value : UInt64) : (writeU64LE value).length = 8 := rfl

theorem readU64LE_writeU64LE (value : UInt64) (rest : List Byte) :
    readU64LE (writeU64LE value ++ rest) = value := by
  have hdrop : (writeU64LE value ++ rest).drop 4 = writeU32LE (value >>> 32).toUInt32 ++ rest := rfl
  rw [readU64LE, hdrop, writeU64LE, List.append_assoc, readU32LE_writeU32LE, readU32LE_writeU32LE]
  apply UInt64.toNat_inj.mp
  have hlt := value.toNat_lt
  rw [UInt64.toNat_or, UInt64.toNat_shiftLeft, UInt32.toNat_toUInt64, UInt32.toNat_toUInt64,
    UInt64.toNat_toUInt32, UInt64.toNat_toUInt32, UInt64.toNat_shiftRight]
  have h32 : (32 : UInt64).toNat % 64 = 32 := rfl
  have hhigh : value.toNat >>> 32 % 2 ^ 32 = value.toNat / 2 ^ 32 := by
    rw [Nat.shiftRight_eq_div_pow]
    omega
  have hword : (value.toNat / 2 ^ 32) <<< 32 % 2 ^ 64 = (value.toNat / 2 ^ 32) <<< 32 := by
    rw [Nat.shiftLeft_eq]
    omega
  -- The two halves have no bit in common.
  rw [h32, hhigh, hword, Nat.or_comm, ← Nat.shiftLeft_add_eq_or_of_lt (Nat.mod_lt _ (by decide)),
    Nat.shiftLeft_eq]
  omega

/-- A name that the device may send. -/
def Name : Type := { bytes : List Byte // bytes.length ≤ kMaxNameLength }

/-- A directory entry as the device sends it, in one of the two forms. -/
inductive Dent : Bool → Type
  | v1 (mode size mtime : UInt32) (name : Name) : Dent false
  | v2 (error : UInt32) (dev ino : UInt64) (mode nlink uid gid : UInt32) (size : UInt64)
      (atime mtime ctime : Int64) (name : Name) : Dent true

namespace Dent

variable {v2 : Bool}

def name : Dent v2 → Name
  | .v1 _ _ _ name => name
  | .v2 _ _ _ _ _ _ _ _ _ _ _ name => name

/-- The body of the response for an entry. -/
def body : Dent v2 → List Byte
  | .v1 mode size mtime name =>
    writeU32LE mode ++ writeU32LE size ++ writeU32LE mtime ++ writeU32LE (UInt32.ofNat name.1.length)
  | .v2 error dev ino mode nlink uid gid size atime mtime ctime name =>
    writeU32LE error ++ writeU64LE dev ++ writeU64LE ino ++ writeU32LE mode ++ writeU32LE nlink ++
      writeU32LE uid ++ writeU32LE gid ++ writeU64LE size ++ writeU64LE atime.toUInt64 ++
      writeU64LE mtime.toUInt64 ++ writeU64LE ctime.toUInt64 ++ writeU32LE (UInt32.ofNat name.1.length)

/-- The response for an entry. -/
def bytes (d : Dent v2) : List Byte :=
  writeU32LE (dentId v2) ++ (d.body ++ d.name.1)

/-- The entry, unless the device could not read its metadata. -/
def entry : Dent v2 → Option DirEntry
  | .v1 mode size mtime name => some ⟨name.1, mode, size.toUInt64, mtime.toUInt64.toInt64⟩
  | .v2 error _ _ mode _ _ _ size _ mtime _ name =>
    if error = 0 then some ⟨name.1, mode, size, mtime⟩ else none

theorem length_body (d : Dent v2) : d.body.length = bodySize v2 := by
  cases d <;> rfl

theorem readU32LE_nameLength (d : Dent v2) :
    (readU32LE (d.body.drop (nameLengthOffset v2))).toNat = d.name.1.length := by
  have hlt : d.name.1.length < 2 ^ 32 := Nat.lt_of_le_of_lt d.name.2 (by decide)
  rw [← toNat_length hlt]
  cases d with
  | v1 mode size mtime name => exact congrArg _ (readU32LE_writeU32LE_self _)
  | v2 error dev ino mode nlink uid gid size atime mtime ctime name =>
    exact congrArg _ (readU32LE_writeU32LE_self _)

/-- What a listing makes of the response for an entry. -/
theorem dirEntry_body (d : Dent v2) :
    (if v2 ∧ readU32LE (d.body.drop kErrorOffset) ≠ 0 then none else some (dirEntry v2 d.body d.name.1)) =
      d.entry := by
  cases d with
  | v1 mode size mtime name =>
    have hmode : readU32LE ((v1 mode size mtime name).body.drop kDentV1ModeOffset) = mode :=
      readU32LE_writeU32LE mode ((v1 mode size mtime name).body.drop 4)
    have hsize : readU32LE ((v1 mode size mtime name).body.drop kDentV1SizeOffset) = size :=
      readU32LE_writeU32LE size ((v1 mode size mtime name).body.drop 8)
    have hmtime : readU32LE ((v1 mode size mtime name).body.drop kDentV1MtimeOffset) = mtime :=
      readU32LE_writeU32LE mtime ((v1 mode size mtime name).body.drop 12)
    rw [dirEntry, hmode, hsize, hmtime]
    rfl
  | v2 error dev ino mode nlink uid gid size atime mtime ctime name =>
    generalize hd : v2 error dev ino mode nlink uid gid size atime mtime ctime name = d
    have herror : readU32LE (d.body.drop kErrorOffset) = error := by
      subst hd
      exact readU32LE_writeU32LE error _
    have hmode : readU32LE (d.body.drop kDentV2ModeOffset) = mode := by
      subst hd
      exact readU32LE_writeU32LE mode _
    have hsize : readU64LE (d.body.drop kDentV2SizeOffset) = size := by
      subst hd
      exact readU64LE_writeU64LE size _
    have hmtime : readU64LE (d.body.drop kDentV2MtimeOffset) = mtime.toUInt64 := by
      subst hd
      exact readU64LE_writeU64LE mtime.toUInt64 _
    rw [dirEntry, herror, hmode, hsize, hmtime, Int64.toInt64_toUInt64]
    subst hd
    simp [entry, Dent.name]

end Dent

/-! ### The round trip -/

section RoundTrip

variable {k : ℕ} {v2 : Bool} {s : StreamOn Dialogue} {rest : List Byte}

theorem kDone_ne_kFail : kDone ≠ kFail := by decide

/-- One response is taken off the stream whole, and adds its entry. -/
theorem listTurn_dent (d : Dent v2) (entries : List DirEntry) (h : s.Accepts k)
    (hsource : s.source = d.bytes ++ rest) :
    ∃ s', (listTurn v2 entries).run s = (.ok (.again (entries ++ d.entry.toList)), s') ∧
      ReadTo k rest s s' := by
  rw [Dent.bytes, List.append_assoc, List.append_assoc] at hsource
  obtain ⟨t, hid, ht⟩ := read_word h hsource
  obtain ⟨u, hbody, hu⟩ := read_readTo ht.accepts ht.source
  obtain ⟨s', hname, hs'⟩ := read_readTo hu.accepts hu.source
  refine ⟨s', ?_, (ht.trans hu).trans hs'⟩
  rw [d.length_body] at hbody
  have hlen := d.readU32LE_nameLength
  have hshort : ¬ (readU32LE (d.body.drop (nameLengthOffset v2))).toNat > kMaxNameLength := by
    rw [hlen]
    exact Nat.not_lt.mpr d.name.2
  have hfail : dentId v2 ≠ kFail := by cases v2 <;> decide
  have hdone : dentId v2 ≠ kDone := by cases v2 <;> decide
  rw [listTurn, Prog.run_bind_ok hid, readU32LE_writeU32LE_self, if_neg hfail, Prog.run_bind_ok hbody,
    if_neg hdone, if_neg (not_not.mpr rfl), if_neg hshort, hlen, Prog.run_bind_ok hname, ← d.dirEntry_body]
  split <;> simp

/-- DONE ends the listing and is taken off the stream with its body. -/
theorem listTurn_done (entries : List DirEntry) (h : s.Accepts k) {body : List Byte}
    (hbody : body.length = bodySize v2) (hsource : s.source = writeU32LE kDone ++ (body ++ rest)) :
    ∃ s', (listTurn v2 entries).run s = (.ok (.done entries), s') ∧ ReadTo k rest s s' := by
  obtain ⟨t, hid, ht⟩ := read_word h hsource
  obtain ⟨s', hrun, hs'⟩ := read_readTo ht.accepts ht.source
  refine ⟨s', ?_, ht.trans hs'⟩
  rw [hbody] at hrun
  rw [listTurn, Prog.run_bind_ok hid, readU32LE_writeU32LE_self, if_neg kDone_ne_kFail,
    Prog.run_bind_ok hrun, if_pos rfl]
  rfl

/-- A listing as the device sends it: the entries, and a DONE with a body of any bytes. -/
def listingBytes (dents : List (Dent v2)) (body : List Byte) : List Byte :=
  dents.flatMap Dent.bytes ++ (writeU32LE kDone ++ body)

/-- Entries that come first are taken off the stream, and the loop goes on behind them. -/
theorem listLoop_dents (dents : List (Dent v2)) (entries : List DirEntry) (h : s.Accepts k)
    (hsource : s.source = dents.flatMap Dent.bytes ++ rest) :
    ∃ t, (Prog.loop (listTurn_decreases v2) entries).run s =
        (Prog.loop (listTurn_decreases v2) (entries ++ dents.filterMap Dent.entry)).run t ∧
      ReadTo k rest s t := by
  induction dents generalizing entries s with
  | nil =>
    rw [List.filterMap_nil, List.append_nil]
    exact ⟨s, rfl, h, hsource, rfl, refl_of Quiet s⟩
  | cons d dents ih =>
    rw [List.flatMap_cons, List.append_assoc] at hsource
    obtain ⟨t, hturn, ht⟩ := listTurn_dent d entries h hsource
    obtain ⟨u, hrun, hu⟩ := ih (entries ++ d.entry.toList) ht.accepts ht.source
    refine ⟨u, ?_, ht.trans hu⟩
    rw [Prog.loop_again _ hturn, hrun]
    cases hentry : d.entry <;> simp [hentry]

theorem listLoop_listing (dents : List (Dent v2)) (entries : List DirEntry) {body : List Byte}
    (hbody : body.length = bodySize v2) (h : s.Accepts k)
    (hsource : s.source = listingBytes dents body ++ rest) :
    ∃ s', (Prog.loop (listTurn_decreases v2) entries).run s =
        (.ok (entries ++ dents.filterMap Dent.entry), s') ∧ ReadTo k rest s s' := by
  rw [listingBytes, List.append_assoc, List.append_assoc] at hsource
  obtain ⟨t, hrun, ht⟩ := listLoop_dents dents entries h hsource
  obtain ⟨s', hturn, hread⟩ := listTurn_done (entries ++ dents.filterMap Dent.entry) ht.accepts hbody
    ht.source
  exact ⟨s', hrun.trans (Prog.loop_done _ hturn), ht.trans hread⟩

/-- A listing on an open stream returns the entries, and leaves what follows them. -/
theorem listOn_listing {path : List Byte} (h : s.Accepts (k + 4))
    (hmax : (packet (if v2 then kListV2 else kListV1) path).length ≤ s.connection.maxData.toNat)
    (dents : List (Dent v2)) {body : List Byte} (hbody : body.length = bodySize v2)
    (hsource : s.source = listingBytes dents body ++ rest) :
    ∃ s', (listOn v2 path).run s = (.ok (dents.filterMap Dent.entry), s') ∧ s'.source = rest := by
  have hacc : s.Accepts (k + 2 + writesOf (packet (if v2 then kListV2 else kListV1) path)) := by
    rw [writesOf_packet]
    exact h
  obtain ⟨t, hwrite, hwrote⟩ := write_wrote hacc hmax
  obtain ⟨u, hloop, hread⟩ := listLoop_listing dents [] hbody hwrote.accepts (hwrote.source ▸ hsource)
  have hacc' : u.Accepts (k + writesOf (packet kQuit [])) := by
    rw [writesOf_packet]
    exact hread.accepts
  have hquit : (packet kQuit []).length ≤ u.connection.maxData.toNat := by
    rw [hread.quiet.same.connection, hwrote.same.connection]
    rw [length_packet] at hmax ⊢
    exact Nat.le_trans (Nat.le_add_right 8 _) hmax
  obtain ⟨s', hrun, hwrote'⟩ := write_wrote hacc' hquit
  refine ⟨s', ?_, hwrote'.source.trans hread.source⟩
  rw [listOn, writePathRequest, Prog.run_bind_ok hwrite, Prog.run_bind_ok hloop, writeQuit,
    Prog.run_bind_ok hrun]
  rfl

/-- A directory comes back from the device as it was sent: the listing returns the entries that
have no error, in order, and takes all of its bytes off the stream, in whatever frames they come. -/
theorem list_listing {path : List Byte} (hpath : path.length ≤ kMaxPathLength)
    {c c' : Connection Dialogue} {stream : Stream}
    (hopen : (Stream.open (bytesOf "sync:")).run c = (.ok stream, c'))
    (hform : c.supportsFeature kLsV2Feature = v2) (hsends : (⟨stream, c'⟩ : StreamOn Dialogue).Accepts 4)
    (hmax : path.length + 8 ≤ c'.maxData.toNat) (dents : List (Dent v2)) {body : List Byte}
    (hbody : body.length = bodySize v2)
    (hup : (upcoming stream.localId c'.session.inbox).1 = listingBytes dents body ++ rest) :
    ∃ s', (listOn v2 path).run ⟨stream, c'⟩ = (.ok (dents.filterMap Dent.entry), s') ∧
      s'.source = rest ∧
      (list path).run c = (.ok (dents.filterMap Dent.entry), s'.closeNow.connection) := by
  have hdrained : (⟨stream, c'⟩ : StreamOn Dialogue).Drained := (Opened.drained ⟨_, c, hopen⟩).1
  have hsource := (Prod.mk.inj hdrained.source).1.trans hup
  have hrequest : (packet (if v2 then kListV2 else kListV1) path).length ≤ c'.maxData.toNat := by
    rw [length_packet, Nat.add_comm]
    exact hmax
  obtain ⟨s', hrun, hrest⟩ := listOn_listing hsends hrequest dents hbody hsource
  refine ⟨s', hrun, hrest, ?_⟩
  subst hform
  rw [list, if_neg (Nat.not_lt.mpr hpath), Prog.run_bind_get]
  exact withStream_eq hopen hrun

/-- Two entries of a directory, of which the device could not read the second. -/
def twoDents : List (Dent true) :=
  [.v2 0 1 2 0o100644 1 0 0 0x100000005 0 (-1) 0 ⟨[97], by decide⟩,
    .v2 13 0 0 0 0 0 0 0 0 0 0 ⟨[98, 99], by decide⟩]

/-- A device that sends them split inside the second id, with the frame of another stream between. -/
def listingDevice : Connection Dialogue where
  maxData := 4096
  features := [kLsV2Feature]
  session := { inbox := [.frame ⟨makeEmptyMessage Protocol.kOkay 7 2, []⟩,
    .frame (deviceWrite 2 ((listingBytes twoDents (List.replicate 72 255)).take 79)),
    .frame ⟨makeEmptyMessage kClse 8 3, []⟩,
    .frame (deviceWrite 2 ((listingBytes twoDents (List.replicate 72 255)).drop 79))] }

def openedListing : StreamOn Dialogue where
  stream := { service := bytesOf "sync:", localId := 2, remoteId := 7 }
  connection := ((Stream.open (bytesOf "sync:")).run listingDevice).2

set_option maxRecDepth 2000 in
theorem list_listing_twoDents : ∃ s' : StreamOn Dialogue, s'.source = [] ∧
    (list (bytesOf "/sdcard")).run listingDevice =
      (.ok [⟨[97], 0o100644, 0x100000005, -1⟩], s'.closeNow.connection) := by
  have hopen : (Stream.open (bytesOf "sync:")).run listingDevice =
      (.ok openedListing.stream, openedListing.connection) := rfl
  have hsends : openedListing.Accepts 4 := accepts_of_all rfl (fun _ ho => absurd ho List.not_mem_nil) 4
  obtain ⟨s', -, hrest, hrun⟩ := @list_listing true [] (bytesOf "/sdcard") (by decide) _ _ _ hopen rfl
    hsends (by decide) twoDents (List.replicate 72 255) rfl rfl
  exact ⟨s', hrest, hrun⟩

end RoundTrip

end Adbcpp.Sync
