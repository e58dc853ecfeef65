import Adbcpp.Sync.Refusal

/-! The metadata of a path. The device answers a STAT with an id, which is not looked at, and a
body of a fixed size in one of two forms. What is made of it is what the device has
reported, in whatever frames it comes, and nothing of what comes behind it is taken. A
path that is missing is told apart from others by an error in one form, and by zeros in
the other one, where a file that has no mode, size and time is missing as well. -/

namespace Adbcpp.Sync

open Protocol Dialogue StreamOn

/-- What a device reports of a path, in one of the two forms. -/
inductive Report : Bool → Type
  | v1 (mode size mtime : UInt32) : Report false
  | v2 (error : UInt32) (dev ino : UInt64) (mode nlink uid gid : UInt32) (size : UInt64)
      (atime mtime ctime : Int64) : Report true

namespace Report

variable {v2 : Bool}

/-- The body of the response. -/
def body : Report v2 → List Byte
  | .v1 mode size mtime => writeU32LE mode ++ writeU32LE size ++ writeU32LE mtime
  | .v2 error dev ino mode nlink uid gid size atime mtime ctime =>
    writeU32LE error ++ writeU64LE dev ++ writeU64LE ino ++ writeU32LE mode ++ writeU32LE nlink ++
      writeU32LE uid ++ writeU32LE gid ++ writeU64LE size ++ writeU64LE atime.toUInt64 ++
      writeU64LE mtime.toUInt64 ++ writeU64LE ctime.toUInt64

/-- The device has no such path, or says so. -/
def Missing : Report v2 → Prop
  | .v1 mode size mtime => mode = 0 ∧ size = 0 ∧ mtime = 0
  | .v2 error _ _ _ _ _ _ _ _ _ _ => error ≠ 0

instance : DecidablePred (@Missing v2)
  | .v1 mode size mtime => inferInstanceAs (Decidable (mode = 0 ∧ size = 0 ∧ mtime = 0))
  | .v2 error _ _ _ _ _ _ _ _ _ _ => inferInstanceAs (Decidable (error ≠ 0))

/-- What it says of the path where it has it. -/
def metadata : Report v2 → FileStat
  | .v1 mode size mtime => { mode, size := size.toUInt64, mtime := mtime.toUInt64.toInt64 }
  | .v2 _ _ _ mode _ _ _ size _ mtime _ => { mode, size, mtime }

def stat (r : Report v2) : Option FileStat := if r.Missing then none else some r.metadata

theorem length_body (r : Report v2) : r.body.length = statBodySize v2 := by
  cases r <;> rfl

/-- The fields of a body are at their offsets. -/
theorem fileStatV1_body (mode size mtime : UInt32) :
    fileStatV1 (v1 mode size mtime).body = (v1 mode size mtime).stat := by
  have hmode : readU32LE ((v1 mode size mtime).body.drop kDentV1ModeOffset) = mode :=
    readU32LE_writeU32LE mode ((v1 mode size mtime).body.drop 4)
  have hsize : readU32LE ((v1 mode size mtime).body.drop kDentV1SizeOffset) = size :=
    readU32LE_writeU32LE size ((v1 mode size mtime).body.drop 8)
  have hmtime : readU32LE ((v1 mode size mtime).body.drop kDentV1MtimeOffset) = mtime :=
    readU32LE_writeU32LE mtime ((v1 mode size mtime).body.drop 12)
  rw [fileStatV1, hmode, hsize, hmtime]
  rfl

theorem fileStatV2_body (error : UInt32) (dev ino : UInt64) (mode nlink uid gid : UInt32) (size : UInt64)
    (atime mtime ctime : Int64) : fileStatV2 (Report.v2 error dev ino mode nlink uid gid size atime mtime ctime).body =
      (Report.v2 error dev ino mode nlink uid gid size atime mtime ctime).stat := by
  generalize hr : Report.v2 error dev ino mode nlink uid gid size atime mtime ctime = r
  have herror : readU32LE (r.body.drop kErrorOffset) = error := by
    subst hr
    exact readU32LE_writeU32LE error _
  have hmode : readU32LE (r.body.drop kDentV2ModeOffset) = mode := by
    subst hr
    exact readU32LE_writeU32LE mode _
  have hsize : readU64LE (r.body.drop kDentV2SizeOffset) = size := by
    subst hr
    exact readU64LE_writeU64LE size _
  have hmtime : readU64LE (r.body.drop kDentV2MtimeOffset) = mtime.toUInt64 := by
    subst hr
    exact readU64LE_writeU64LE mtime.toUInt64 _
  rw [fileStatV2, herror, hmode, hsize, hmtime, Int64.toInt64_toUInt64]
  subst hr
  rfl

/-- What a STAT makes of a body. -/
theorem fileStat_body (r : Report v2) : (if v2 then fileStatV2 r.body else fileStatV1 r.body) = r.stat := by
  cases r with
  | v1 mode size mtime => exact fileStatV1_body mode size mtime
  | v2 error dev ino mode nlink uid gid size atime mtime ctime =>
    exact fileStatV2_body error dev ino mode nlink uid gid size atime mtime ctime

end Report

variable {v2 : Bool} {rest : List Byte}

/-- A STAT on an open stream makes of the report what it says, and leaves what follows it. -/
theorem statOn_report {path : List Byte} {k : ℕ} {s : StreamOn Dialogue} (h : s.Accepts (k + 4))
    (hmax : path.length + 8 ≤ s.connection.maxData.toNat) (id : UInt32) (r : Report v2)
    (hsource : s.source = writeU32LE id ++ (r.body ++ rest)) :
    ∃ s', (statOn v2 path).run s = (.ok r.stat, s') ∧ s'.source = rest := by
  have hrequest : (packet (statId v2) path).length ≤ s.connection.maxData.toNat := by
    rw [length_packet, Nat.add_comm]
    exact hmax
  have hacc : s.Accepts (k + 2 + writesOf (packet (statId v2) path)) := by
    rw [writesOf_packet]
    exact h
  obtain ⟨t, hwrite, hwrote⟩ := write_wrote hacc hrequest
  obtain ⟨u, hid, hread⟩ := read_word hwrote.accepts (hwrote.source.trans hsource)
  obtain ⟨v, hbody, hread'⟩ := read_readTo hread.accepts hread.source
  rw [r.length_body] at hbody
  have hacc' : v.Accepts (k + writesOf (packet kQuit [])) := by
    rw [writesOf_packet]
    exact hread'.accepts
  have hquit : (packet kQuit []).length ≤ v.connection.maxData.toNat := by
    rw [(hread.trans hread').quiet.same.connection, hwrote.same.connection]
    exact Nat.le_trans (Nat.le_add_left 8 _) hmax
  obtain ⟨s', hrun, hwrote'⟩ := write_wrote hacc' hquit
  refine ⟨s', ?_, hwrote'.source.trans hread'.source⟩
  rw [statOn, writePathRequest, Prog.run_bind_ok hwrite, Prog.run_bind_ok hid, Prog.run_bind_ok hbody, writeQuit,
    Prog.run_bind_ok hrun, r.fileStat_body]
  rfl

/-- A STAT returns what the device has reported of the path, whatever the id of the response and its frames
are, and takes nothing of what comes behind the report. -/
theorem stat_report {path : List Byte} (hpath : path.length ≤ kMaxPathLength) {c c' : Connection Dialogue}
    {stream : Stream} (hopen : (Stream.open (bytesOf "sync:")).run c = (.ok stream, c'))
    (hform : c.supportsFeature kStatV2Feature = v2) (hsends : (⟨stream, c'⟩ : StreamOn Dialogue).Accepts 4)
    (hmax : path.length + 8 ≤ c'.maxData.toNat) (id : UInt32) (r : Report v2)
    (hup : (upcoming stream.localId c'.session.inbox).1 = writeU32LE id ++ (r.body ++ rest)) :
    ∃ s', (statOn v2 path).run ⟨stream, c'⟩ = (.ok r.stat, s') ∧ s'.source = rest ∧
      (stat path).run c = (.ok r.stat, s'.closeNow.connection) := by
  have hdrained : (⟨stream, c'⟩ : StreamOn Dialogue).Drained := (Opened.drained ⟨_, c, hopen⟩).1
  have hsource := (Prod.mk.inj hdrained.source).1.trans hup
  obtain ⟨s', hrun, hrest⟩ := statOn_report (k := 0) hsends hmax id r hsource
  refine ⟨s', hrun, hrest, ?_⟩
  subst hform
  rw [run_stat hpath]
  exact withStream_eq hopen hrun

/-- A file that is newer and larger than the other form could say. -/
def largeFile : Report true := .v2 0 1 2 0o100644 1 0 0 0x100000005 0 0x200000000 0

/-- A device that reports it split inside the size, with the frame of another stream between. -/
def reportingDevice : Connection Dialogue where
  maxData := 4096
  features := [kStatV2Feature]
  session := { inbox := [.frame ⟨makeEmptyMessage Protocol.kOkay 7 2, []⟩,
    .frame (deviceWrite 2 ((writeU32LE kStatV2 ++ largeFile.body).take 42)),
    .frame ⟨makeEmptyMessage kClse 8 3, []⟩,
    .frame (deviceWrite 2 ((writeU32LE kStatV2 ++ largeFile.body).drop 42))] }

def openedReporting : StreamOn Dialogue where
  stream := { service := bytesOf "sync:", localId := 2, remoteId := 7 }
  connection := ((Stream.open (bytesOf "sync:")).run reportingDevice).2

set_option maxRecDepth 2000 in
theorem stat_report_largeFile : ∃ s' : StreamOn Dialogue, s'.source = [] ∧
    (stat (bytesOf "/sdcard/a")).run reportingDevice =
      (.ok (some ⟨0o100644, 0x100000005, 0x200000000⟩), s'.closeNow.connection) := by
  have hopen : (Stream.open (bytesOf "sync:")).run reportingDevice =
      (.ok openedReporting.stream, openedReporting.connection) := rfl
  have hsends : openedReporting.Accepts 4 := accepts_of_all rfl (fun _ ho => absurd ho List.not_mem_nil) 4
  obtain ⟨s', -, hrest, hrun⟩ := @stat_report true [] (bytesOf "/sdcard/a") (by decide) _ _ _ hopen rfl hsends
    (by decide) kStatV2 largeFile rfl
  exact ⟨s', hrest, hrun⟩

end Adbcpp.Sync
