import Adbcpp.Stream.Services
import Adbcpp.Sync.Paths

/-! Where a push creates its file. The daemon takes the path from the request of the push, in
the v1 form from what is in front of the last comma, and a push that succeeds has sent one
such request. -/

namespace Adbcpp.Sync

open Protocol Dialogue StreamOn

/-! ### The path of a request -/

/-- Where a payload makes the daemon create a file, if it is the request of a push. -/
def createdPath (payload : List Byte) : Option (List Byte) :=
  let path := (payload.drop 8).take (readU32LE (payload.drop 4)).toNat
  if readU32LE payload = kSendV1 then some (splitLastComma path).1
  else if readU32LE payload = kSendV2 then some path
  else none

theorem createdPath_other {id : UInt32} (hv1 : id ≠ kSendV1) (hv2 : id ≠ kSendV2) (rest : List Byte) :
    createdPath (writeU32LE id ++ rest) = none := by
  unfold createdPath
  rw [readU32LE_writeU32LE, if_neg hv1, if_neg hv2]

theorem createdPath_packet {id : UInt32} (hv1 : id ≠ kSendV1) (hv2 : id ≠ kSendV2) (body : List Byte) :
    createdPath (packet id body) = none := by
  unfold packet
  rw [List.append_assoc]
  exact createdPath_other hv1 hv2 _

/-- The request of a push asks for its destination, in both forms. -/
theorem createdPath_sendRequest {destination : List Byte} {mode : UInt32} {form : Option CompressionCodec}
    (hlt : (sendRequest destination mode form).length < 2 ^ 32) :
    createdPath (sendRequest destination mode form) = some destination := by
  have htake (id : UInt32) {path : List Byte} (rest : List Byte) (hpath : path.length < 2 ^ 32) :
      ((packet id path ++ rest).drop 8).take (readU32LE ((packet id path ++ rest).drop 4)).toNat = path := by
    have hlength : (packet id path ++ rest).drop 4 =
        writeU32LE (UInt32.ofNat path.length) ++ (path ++ rest) := by
      rw [packet_append]
      rfl
    have hbody : (packet id path ++ rest).drop 8 = path ++ rest := by
      rw [packet_append]
      rfl
    rw [hlength, hbody, readU32LE_writeU32LE, toNat_length hpath, List.take_left]
  have hid (id : UInt32) (path rest : List Byte) : readU32LE (packet id path ++ rest) = id := by
    rw [packet_append, readU32LE_writeU32LE]
  unfold createdPath
  cases form with
  | none =>
    have hspec : (sendSpec destination mode).length < 2 ^ 32 := by
      rw [sendRequest, length_packet] at hlt
      omega
    have hpath := htake kSendV1 [] hspec
    have hfront := hid kSendV1 (sendSpec destination mode) []
    rw [List.append_nil] at hpath hfront
    rw [sendRequest, hfront, if_pos rfl, hpath, splitLastComma_sendSpec]
  | some codec =>
    have hne : kSendV2 ≠ kSendV1 := by decide
    have hdestination : destination.length < 2 ^ 32 := by
      simp only [sendRequest, sendV2Request, List.length_append, length_packet] at hlt
      omega
    rw [sendRequest, sendV2Request, List.append_assoc, List.append_assoc, hid, if_neg hne, if_pos rfl,
      htake _ _ hdestination]

/-- A payload that makes the daemon create a file there, or none. -/
def CreatesOnly (path payload : List Byte) : Prop := ∀ p, createdPath payload = some p → p = path

theorem createsOnly_none {path payload : List Byte} (h : createdPath payload = none) : CreatesOnly path payload := by
  intro p hp
  rw [h] at hp
  cases hp

/-- The request of a push that makes the daemon create a file at the path. -/
def CreatesAt (path : List Byte) (e : Event) : Prop :=
  ∃ f, e = .sent f ∧ f.header.command = kWrte ∧ createdPath f.payload = some path

/-- A file that was created is where all of them are. -/
theorem eq_of_happened {d d' : Dialogue} {path p : List Byte} (h : Happened (CreatesAt p) d d')
    (honly : WritesOnly (CreatesOnly path) d d') : p = path := by
  obtain ⟨new, htrace, e, hmem, f, rfl, hwrte, hpath⟩ := h
  obtain ⟨new', htrace', hall⟩ := honly
  obtain rfl : new = new' := List.append_cancel_left (htrace.symm.trans htrace')
  exact hall f (.inl hmem) hwrte p hpath

/-! ### What a push creates -/

variable {b : Build} {remotePath : List Byte} {compression : SyncCompression} {host : Host Dialogue LocalFile}
  {existing : Option FileStat} {form : Option CompressionCodec} {c : Connection Dialogue} {path : List Byte}

theorem writePacket_createsOnly {id : UInt32} (hv1 : id ≠ kSendV1) (hv2 : id ≠ kSendV2) (body : List Byte) :
    Prog.Steps (OnlyWrites StreamOn.session (CreatesOnly path)) (write (packet id body)) :=
  write_onlyWrites fun _ => createsOnly_none (createdPath_packet hv1 hv2 body)

theorem sendFile_createsOnly (encode : List Byte → Except Error (List Byte)) :
    Prog.Steps (OnlyWrites Job.session (CreatesOnly path)) (sendFile encode) := by
  apply sendFile_along read_onlyWrites
  · exact writePacket_createsOnly (by decide) (by decide) []
  · intro mtime
    exact write_onlyWrites fun _ => createsOnly_none (createdPath_other (by decide) (by decide) _)
  · intro block payload _ _ _
    exact writePacket_createsOnly (by decide) (by decide) payload

theorem stat_createsOnly (path asked : List Byte) :
    Prog.Steps (OnlyWrites Connection.session (CreatesOnly path)) (stat asked) := by
  apply stat_onlyWrites
  rintro id body (rfl | rfl | rfl)
  · exact createsOnly_none (createdPath_packet (by decide) (by decide) body)
  · exact createsOnly_none (createdPath_packet (by decide) (by decide) body)
  · exact createsOnly_none (createdPath_packet (by decide) (by decide) body)

/-- A push creates no file but at its destination. -/
theorem Sends.createsOnly (h : Sends b remotePath compression host existing form c) :
    OnlyWrites Host.session (CreatesOnly (destinationOf remotePath existing host.file)) host
      ((push b remotePath compression).run host).2 := by
  have hstat := stat_createsOnly (destinationOf remotePath existing host.file) remotePath host.connection
  rw [h.answered] at hstat
  rw [h.run_push]
  refine trans_of (WritesOnly _) hstat (sendBody_onlyWrites ?_ (sendFile_createsOnly _) ⟨c, host.file⟩)
  intro s
  by_cases hfits : (sendRequest (destinationOf remotePath existing host.file) host.file.mode form).length < 2 ^ 32
  · refine write_onlyWrites (fun _ p hp => ?_) s
    rw [createdPath_sendRequest hfits] at hp
    exact (Option.some.inj hp).symm
  · exact write_onlyWrites (fun hlt => absurd hlt hfits) s

/-- A push that succeeds got an answer to its STAT, and found a form. -/
theorem exists_sends (hok : ((push b remotePath compression).run host).1 = .ok ()) :
    ∃ existing form c, Sends b remotePath compression host existing form c := by
  have hrun : (push b remotePath compression).run host = (.ok (), ((push b remotePath compression).run host).2) :=
    Prod.ext hok rfl
  generalize ((push b remotePath compression).run host).2 = host' at hrun
  rw [push, Prog.run_bind_get] at hrun
  split at hrun
  · cases hrun
  next hregular =>
    obtain ⟨existing, t, hstat, hrun⟩ := Prog.bind_eq_ok hrun
    obtain ⟨c, hc, rfl⟩ := Prog.zoom_eq_ok hstat
    obtain ⟨form, t, hform, -⟩ := Prog.bind_eq_ok hrun
    have hchosen := transferForm_stat b compression hc
    have hsame := (Prod.mk.inj (hform.symm.trans hchosen)).1
    exact ⟨existing, form, c, by simpa using hregular, hc, hsame.symm⟩

/-! ### The session behind a push -/

/-- A write that succeeds has found the session open, and sent its WRTE. -/
theorem write_sent {data : List Byte} {s s' : StreamOn Dialogue} (h : (write data).run s = (.ok (), s')) :
    data.length ≤ s.connection.maxData.toNat ∧ s'.session.closed = false ∧ s'.session.trace =
      s.session.trace ++ [.sent (wrteFrame s.stream.localId s.stream.remoteId data)] := by
  obtain ⟨r, d, new, hrun, hattempt, hnew, -, hclosed, htrace⟩ := write_attempted data s
  rw [h] at hrun
  cases hrun
  cases hattempt
  obtain ⟨hle, hopen⟩ := hnew.mp (List.cons_ne_nil _ _)
  exact ⟨hle, hclosed.trans hopen, htrace⟩

theorem closeNow_closed_eq (s : StreamOn Dialogue) : s.closeNow.session.closed = s.session.closed := by
  by_cases hclosed : s.stream.closed = true
  · rw [closeNow_closed hclosed]
  · obtain ⟨r, d, new, hclose, -, -, -, hsame, -⟩ := closeNow_open (Bool.eq_false_of_not_eq_true hclosed)
    rw [hclose]
    exact hsame

/-- A file that was sent leaves the session open: the QUIT behind it was sent. -/
theorem sendFile_open (encode : List Byte → Except Error (List Byte)) :
    Prog.Triple (fun _ => True) (sendFile encode) (fun _ (j : Job Dialogue LocalFile) => j.on.session.closed = false)
      fun _ _ => True := by
  unfold sendFile
  apply Prog.Triple.get_bind
  intro job _
  apply Prog.Triple.ite
  · exact fun _ => Prog.Triple.fail fun _ _ => trivial
  intro _
  refine Prog.Triple.bind (R := fun _ _ => True) (fun s _ => Prog.Triple.const _ s trivial) fun _ => ?_
  apply Prog.Triple.get_bind
  intro job _
  apply Prog.Triple.ite
  · exact fun _ => Prog.Triple.fail fun _ _ => trivial
  intro _
  refine Prog.Triple.bind (R := fun _ _ => True) (fun s _ => Prog.Triple.const _ s trivial) fun _ => ?_
  refine Prog.Triple.bind (R := fun _ _ => True) (fun s _ => Prog.Triple.const _ s trivial) fun _ => ?_
  intro j _
  match hquit : writeQuit.run j.on with
  | (.ok (), s) =>
    rw [onStream_eq hquit]
    exact (write_sent hquit).2.1
  | (.error e, s) =>
    rw [onStream_eq hquit]
    trivial

theorem sendFile_onlyAsks {S : List Byte → Prop} (encode : List Byte → Except Error (List Byte)) :
    Prog.Steps (OnlyAsks Job.session S) (sendFile encode) :=
  sendFile_along read_onlyAsks (write_onlyAsks _) (fun _ => write_onlyAsks _) fun _ _ _ _ _ => write_onlyAsks _

theorem withSyncStream_onlyAsks {α : Type} {S : List Byte → Prop} (hS : S (bytesOf "sync:" ++ [0]))
    {body : Action (Job Dialogue LocalFile) α} (h : Prog.Steps (OnlyAsks Job.session S) body) :
    Prog.Steps (OnlyAsks Host.session S) (withSyncStream body) := by
  refine Prog.Steps.bind (Prog.Steps.zoom (open_onlyAsks hS) fun _ _ hR => hR) fun stream host => ?_
  exact trans_of (OnlyAsks StreamOn.session S) (h ⟨⟨stream, host.connection⟩, host.file⟩) (closeNow_onlyAsks _)

theorem stat_onlyAsks {S : List Byte → Prop} (hS : S (bytesOf "sync:" ++ [0])) (asked : List Byte) :
    Prog.Steps (OnlyAsks Connection.session S) (stat asked) := by
  refine Prog.Steps.ite (Prog.Steps.fail _) (Prog.Steps.bind Prog.Steps.get fun c => ?_)
  refine withStream_onlyAsks hS (Prog.Steps.bind (write_onlyAsks _) fun _ => ?_)
  refine Prog.Steps.bind (read_onlyAsks _) fun _ => Prog.Steps.bind (read_onlyAsks _) fun _ => ?_
  exact Prog.Steps.bind (write_onlyAsks _) fun _ => Prog.Steps.pure _

/-- A push asks for streams of the sync service. -/
theorem Sends.onlyAsks (h : Sends b remotePath compression host existing form c) {S : List Byte → Prop}
    (hS : S (bytesOf "sync:" ++ [0])) :
    OnlyAsks Host.session S host ((push b remotePath compression).run host).2 := by
  have hstat := stat_onlyAsks hS remotePath host.connection
  rw [h.answered] at hstat
  rw [h.run_push]
  refine trans_of (OnlyAsks Connection.session S) hstat (withSyncStream_onlyAsks hS ?_ ⟨c, host.file⟩)
  exact Prog.Steps.bind (onStream_along (write_onlyAsks _)) fun _ => sendFile_onlyAsks _

/-- A push that succeeds has created a file at its destination, and leaves the session open. -/
theorem Sends.creates (h : Sends b remotePath compression host existing form c)
    (hok : ((push b remotePath compression).run host).1 = .ok ()) :
    Happened (CreatesAt (destinationOf remotePath existing host.file)) host.session
        ((push b remotePath compression).run host).2.session ∧
      ((push b remotePath compression).run host).2.session.closed = false := by
  have hstat := stat_onlyAsks (S := fun _ => True) trivial remotePath host.connection
  rw [h.answered] at hstat
  rw [h.run_push] at hok ⊢
  generalize destinationOf remotePath existing host.file = destination at hok ⊢
  obtain ⟨⟨r, c'⟩, hopen⟩ : ∃ q, (Stream.open (bytesOf "sync:")).run c = q := ⟨_, rfl⟩
  cases r with
  | error e =>
    have hrun : (onConnection (Stream.open (bytesOf "sync:"))).run (⟨c, host.file⟩ : Host Dialogue LocalFile) =
        (.error e, ⟨c', host.file⟩) := by
      rw [run_onConnection, hopen]
    rw [withSyncStream, Prog.run_bind_error hrun] at hok
    cases hok
  | ok stream =>
    have hsteps : Prog.Steps (OnlyAsks Connection.session fun _ => True) (Stream.open (bytesOf "sync:")) :=
      open_onlyAsks trivial
    have hopened := hsteps c
    rw [hopen] at hopened
    obtain ⟨⟨q, j⟩, hbody⟩ : ∃ q, (sendBody b destination host.file.mode form).run ⟨⟨stream, c'⟩, host.file⟩ = q :=
      ⟨_, rfl⟩
    rw [withSyncStream_eq (h := ⟨c, host.file⟩) hopen hbody] at hok ⊢
    cases hok
    obtain ⟨_, j₁, hrequest, hfile⟩ := Prog.bind_eq_ok hbody
    obtain ⟨s, hwrite, rfl⟩ := Prog.zoom_eq_ok hrequest
    obtain ⟨hle, -, htrace⟩ := write_sent hwrite
    have hlt : (sendRequest destination host.file.mode form).length < 2 ^ 32 :=
      Nat.lt_of_le_of_lt hle c'.maxData.toNat_lt
    have hcreated : Happened (CreatesAt destination) c'.session s.session :=
      ⟨_, htrace, _, List.mem_singleton_self _, _, rfl, rfl, createdPath_sendRequest hlt⟩
    have hrest := sendFile_onlyAsks (S := fun _ => True) (encodingOf b form) ⟨s, host.file⟩
    have hends := (sendFile_open (encodingOf b form) ⟨s, host.file⟩ trivial).ok (congrArg Prod.fst hfile)
    rw [hfile] at hrest hends
    constructor
    · have hclose := closeNow_onlyAsks (S := fun _ => True) j.on
      have hsent := (hcreated.after hopened).after hstat
      exact (hsent.before hrest).before hclose
    · exact (closeNow_closed_eq j.on).trans hends

end Adbcpp.Sync
