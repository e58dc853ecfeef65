import Adbcpp.Stream.Writing
import Adbcpp.Sync.Steps

/-! What a host makes of the device's answers. An answer is read off the front of the
source of the stream word by word; every byte string the device may send is one of a
few kinds of answer, or is cut off inside one by the end of the stream. -/

namespace Adbcpp

open Protocol Dialogue

namespace StreamOn

variable {k : ℕ} {s t u : StreamOn Dialogue} {rest rest' : List Byte}

/-- A stream from which bytes have been read, so that `rest` is what it can still hand out. -/
structure ReadTo (k : ℕ) (rest : List Byte) (s s' : StreamOn Dialogue) : Prop where
  accepts : s'.Accepts k
  source : s'.source = rest
  ending : s'.ending = s.ending
  quiet : Quiet s s'

theorem ReadTo.trans (h : ReadTo k rest s t) (h' : ReadTo k rest' t u) : ReadTo k rest' s u :=
  ⟨h'.accepts, h'.source, h'.ending.trans h.ending, trans_of Quiet h.quiet h'.quiet⟩

theorem read_readTo (h : s.Accepts k) {bytes : List Byte} (hsource : s.source = bytes ++ rest) :
    ∃ s', (read bytes.length).run s = (.ok bytes, s') ∧ ReadTo k rest s s' := by
  obtain ⟨s', hrun, hrest, hend, hacc⟩ := read_source h hsource
  have hquiet := read_quiet bytes.length s
  rw [hrun] at hquiet
  exact ⟨s', hrun, hacc, hrest, hend, hquiet⟩

/-- A word is read off the front of the source. -/
theorem read_word (h : s.Accepts k) {word : UInt32} (hsource : s.source = writeU32LE word ++ rest) :
    ∃ s', (read 4).run s = (.ok (writeU32LE word), s') ∧ ReadTo k rest s s' :=
  read_readTo h hsource

theorem read_cut (size : ℕ) (h : s.Accepts k) (hshort : s.source.length < size) :
    ∃ s', (read size).run s = (.error s.ending.error, s') ∧ Quiet s s' := by
  obtain ⟨s', hrun⟩ := read_short h hshort
  have hquiet := read_quiet size s
  rw [hrun] at hquiet
  exact ⟨s', hrun, hquiet⟩

end StreamOn

namespace Sync

open StreamOn

variable {k : ℕ} {s : StreamOn Dialogue} {rest : List Byte}

/-- The error that carries the device's reason. -/
def rejection (reason : List Byte) : Error :=
  ⟨.device, bytesOf "the sync request failed: " ++ reason⟩

theorem kFail_ne_kData : kFail ≠ kData := by decide
theorem kFail_ne_kDone : kFail ≠ kDone := by decide
theorem kFail_ne_kOkay : kFail ≠ kOkay := by decide
theorem kDone_ne_kData : kDone ≠ kData := by decide

@[simp] theorem length_packet (id : UInt32) (body : List Byte) :
    (packet id body).length = 8 + body.length := by
  simp only [packet, List.length_append, length_writeU32LE]

theorem packet_ne_nil (id : UInt32) (body : List Byte) : packet id body ≠ [] := by
  intro h
  have := congrArg List.length h
  rw [length_packet, List.length_nil] at this
  omega

theorem writesOf_packet (id : UInt32) (body : List Byte) : writesOf (packet id body) = 2 :=
  if_neg (packet_ne_nil id body)

/-- A packet with what follows it, word by word. -/
theorem packet_append (id : UInt32) (body rest : List Byte) : packet id body ++ rest =
    writeU32LE id ++ (writeU32LE (UInt32.ofNat body.length) ++ (body ++ rest)) := by
  simp only [packet, List.append_assoc]

theorem toNat_length {body : List Byte} (h : body.length < 2 ^ 32) :
    (UInt32.ofNat body.length).toNat = body.length := by
  rw [UInt32.toNat_ofNat']
  exact Nat.mod_eq_of_lt h

/-- What follows a FAIL: a length and a reason, unless the stream ends before they are complete. -/
inductive Reason (ending : Ending) : List Byte → Error → Prop
  | complete {reason : List Byte} (rest : List Byte) : reason.length < 2 ^ 32 →
      Reason ending (writeU32LE (UInt32.ofNat reason.length) ++ (reason ++ rest)) (rejection reason)
  | noLength {part : List Byte} : part.length < 4 → Reason ending part ending.error
  | noReason {length : UInt32} {part : List Byte} : part.length < length.toNat →
      Reason ending (writeU32LE length ++ part) ending.error

theorem exists_reason (ending : Ending) (source : List Byte) : ∃ e, Reason ending source e := by
  by_cases hshort : source.length < 4
  · exact ⟨_, .noLength hshort⟩
  obtain ⟨length, rest, rfl⟩ := exists_writeU32LE (Nat.le_of_not_lt hshort)
  by_cases hcut : rest.length < length.toNat
  · exact ⟨_, .noReason hcut⟩
  have hlen : (rest.take length.toNat).length = length.toNat := by
    rw [List.length_take]
    omega
  have hword : UInt32.ofNat (rest.take length.toNat).length = length := by
    rw [hlen]
    exact UInt32.ofNat_toNat
  have hlt := length.toNat_lt
  have hwhole : Reason ending (writeU32LE (UInt32.ofNat (rest.take length.toNat).length) ++
      (rest.take length.toNat ++ rest.drop length.toNat)) (rejection (rest.take length.toNat)) :=
    .complete _ (by omega)
  rw [hword, List.take_append_drop] at hwhole
  exact ⟨_, hwhole⟩

theorem syncFail_reason {α : Type} (h : s.Accepts k) {e : Error} (hr : Reason s.ending s.source e) :
    ∃ s', (syncFail : Action (StreamOn Dialogue) α).run s = (.error e, s') ∧ Quiet s s' := by
  generalize hsource : s.source = source at hr
  cases hr with
  | @complete reason rest hlen =>
    obtain ⟨t, hrun, hread⟩ := read_word h hsource
    obtain ⟨u, hrun', hread'⟩ := read_readTo hread.accepts hread.source
    rw [syncFail, Prog.run_bind_ok hrun, readU32LE_writeU32LE_self, toNat_length hlen,
      Prog.run_bind_ok hrun']
    exact ⟨u, rfl, trans_of Quiet hread.quiet hread'.quiet⟩
  | noLength hshort =>
    obtain ⟨t, hrun, hquiet⟩ := read_cut 4 h (hsource ▸ hshort)
    exact ⟨t, Prog.run_bind_error hrun, hquiet⟩
  | @noReason length part hshort =>
    obtain ⟨t, hrun, hread⟩ := read_word h hsource
    obtain ⟨u, hrun', hquiet⟩ := read_cut length.toNat hread.accepts
      (by rw [hread.source]; exact hshort)
    rw [hread.ending] at hrun'
    rw [syncFail, Prog.run_bind_ok hrun, readU32LE_writeU32LE_self, Prog.run_bind_error hrun']
    exact ⟨u, rfl, trans_of Quiet hread.quiet hquiet⟩

/-! ### What a host still sends -/

/-- What a transfer sends when it is over: QUIT after a success, and nothing after an error. -/
def farewell : Except Error Unit → List (List Byte)
  | .ok () => [packet kQuit []]
  | .error _ => []

theorem writeQuit_farewell (s : StreamOn Dialogue) :
    wrtes s.stream.localId (writeQuit.run s).2.connection.session.trace =
      wrtes s.stream.localId s.connection.session.trace ++ farewell (writeQuit.run s).1 := by
  have hsent := write_wrtes (packet kQuit []) s
  rw [writeQuit, hsent]
  cases ((write (packet kQuit [])).run s).1 <;> rfl

theorem readStatus_quiet : Prog.Steps Quiet (readStatus : Action (StreamOn Dialogue) Unit) :=
  readStatus_steps read_quiet

/-! ### The answer to a push -/

/-- The answer to a request that the device acknowledges with OKAY. -/
inductive Status (ending : Ending) : List Byte → Except Error (List Byte) → Prop
  | okay (length : UInt32) (rest : List Byte) :
      Status ending (writeU32LE kOkay ++ (writeU32LE length ++ rest)) (.ok rest)
  | fail {source : List Byte} {e : Error} : Reason ending source e →
      Status ending (writeU32LE kFail ++ source) (.error e)
  | unexpected {id : UInt32} (rest : List Byte) : id ≠ kFail → id ≠ kOkay →
      Status ending (writeU32LE id ++ rest) (.error (.of .protocol "unexpected sync response"))
  | noId {part : List Byte} : part.length < 4 → Status ending part (.error ending.error)
  | noLength {part : List Byte} : part.length < 4 →
      Status ending (writeU32LE kOkay ++ part) (.error ending.error)

theorem exists_status (ending : Ending) (source : List Byte) : ∃ r, Status ending source r := by
  by_cases hshort : source.length < 4
  · exact ⟨_, .noId hshort⟩
  obtain ⟨id, rest, rfl⟩ := exists_writeU32LE (Nat.le_of_not_lt hshort)
  by_cases hfail : id = kFail
  · subst hfail
    obtain ⟨e, he⟩ := exists_reason ending rest
    exact ⟨_, .fail he⟩
  by_cases hokay : id = kOkay
  · subst hokay
    by_cases hcut : rest.length < 4
    · exact ⟨_, .noLength hcut⟩
    obtain ⟨length, rest, rfl⟩ := exists_writeU32LE (Nat.le_of_not_lt hcut)
    exact ⟨_, .okay length rest⟩
  · exact ⟨_, .unexpected rest hfail hokay⟩

/-- The device's answer decides what reading the status comes to. -/
theorem readStatus_status (h : s.Accepts k) {r : Except Error (List Byte)}
    (hr : Status s.ending s.source r) :
    ∃ s', readStatus.run s = (r.map fun _ => (), s') ∧ Quiet s s' ∧
      ∀ rest, r = .ok rest → ReadTo k rest s s' := by
  generalize hsource : s.source = source at hr
  cases hr with
  | okay length rest =>
    obtain ⟨t, hrun, hread⟩ := read_word h hsource
    obtain ⟨u, hrun', hread'⟩ := read_word hread.accepts hread.source
    rw [readStatus, Prog.run_bind_ok hrun, readU32LE_writeU32LE_self, if_neg kFail_ne_kOkay.symm,
      if_neg (not_not.mpr rfl), Prog.run_bind_ok hrun']
    refine ⟨u, rfl, (hread.trans hread').quiet, fun rest' hr => ?_⟩
    cases hr
    exact hread.trans hread'
  | @fail source e he =>
    obtain ⟨t, hrun, hread⟩ := read_word h hsource
    rw [← hread.source, ← hread.ending] at he
    obtain ⟨u, hrun', hquiet⟩ := syncFail_reason hread.accepts he
    rw [readStatus, Prog.run_bind_ok hrun, readU32LE_writeU32LE_self, if_pos rfl]
    exact ⟨u, hrun', trans_of Quiet hread.quiet hquiet, fun _ hr => by cases hr⟩
  | @unexpected id rest hfail hokay =>
    obtain ⟨t, hrun, hread⟩ := read_word h hsource
    rw [readStatus, Prog.run_bind_ok hrun, readU32LE_writeU32LE_self, if_neg hfail, if_pos hokay]
    exact ⟨t, rfl, hread.quiet, fun _ hr => by cases hr⟩
  | noId hshort =>
    obtain ⟨t, hrun, hquiet⟩ := read_cut 4 h (hsource ▸ hshort)
    exact ⟨t, Prog.run_bind_error hrun, hquiet, fun _ hr => by cases hr⟩
  | @noLength part hshort =>
    obtain ⟨t, hrun, hread⟩ := read_word h hsource
    obtain ⟨u, hrun', hquiet⟩ := read_cut 4 hread.accepts
      (by rw [hread.source]; exact hshort)
    rw [hread.ending] at hrun'
    rw [readStatus, Prog.run_bind_ok hrun, readU32LE_writeU32LE_self, if_neg kFail_ne_kOkay.symm,
      if_neg (not_not.mpr rfl), Prog.run_bind_error hrun']
    exact ⟨u, rfl, trans_of Quiet hread.quiet hquiet, fun _ hr => by cases hr⟩

end Sync

end Adbcpp
