import Adbcpp.Stream.Failures
import Adbcpp.Sync.Sizes

/-! The host's own size check in a push. A DATA packet is one WRTE, so that a block of
the file has to fit into the device's maximum payload together with its eight bytes
of header. Where every block fits, nothing behind the request is refused; the first
block that does not fit ends the push, with the request on the wire. -/

namespace Adbcpp.Sync

open Protocol Dialogue StreamOn

/-! ### Blocks that fit -/

/-- The `k`th block in which a file is read. -/
def blockAt (content : List Byte) (k : ℕ) : List Byte :=
  (content.drop (k * kMaxChunkSize)).take kMaxChunkSize

theorem blockAt_zero (content : List Byte) : blockAt content 0 = content.take kMaxChunkSize := by
  rw [blockAt, Nat.zero_mul, List.drop_zero]

theorem blockAt_drop (content : List Byte) (k : ℕ) :
    blockAt (content.drop kMaxChunkSize) k = blockAt content (k + 1) := by
  rw [blockAt, blockAt, List.drop_drop, Nat.add_mul, Nat.one_mul, Nat.add_comm]

/-- Every DATA packet of the file is within the limit. -/
def PacketsFit (encode : List Byte → Except Error (List Byte)) (limit : ℕ) (content : List Byte) : Prop :=
  ∀ k frame, blockAt content k ≠ [] → encode (blockAt content k) = .ok frame →
    (packet kData frame).length ≤ limit

variable {encode : List Byte → Except Error (List Byte)} {limit : ℕ} {content : List Byte}

theorem PacketsFit.rest (h : PacketsFit encode limit content) :
    PacketsFit encode limit (content.drop kMaxChunkSize) := by
  intro k frame hne hencode
  rw [blockAt_drop] at hne hencode
  exact h (k + 1) frame hne hencode

theorem packetsFit_nil : PacketsFit encode limit [] := by
  intro k frame hne
  simp [blockAt] at hne

/-- In the v1 form the packets fit when the header and the longest block do. -/
theorem packetsFit_v1 (h : 8 + min content.length kMaxChunkSize ≤ limit) :
    PacketsFit .ok limit content := by
  intro k frame _ hencode
  cases hencode
  rw [length_packet, blockAt, List.length_take, List.length_drop]
  omega

/-- The block that a read hands out is the next one, and the other blocks remain. -/
theorem PacketsFit.read (h : PacketsFit encode limit content) {f : InputFile} (hf : f.remaining = content) :
    Prog.Triple (fun g => g = f) (InputFile.read kMaxChunkSize)
      (fun block g => PacketsFit encode limit g.remaining ∧
        ∀ frame, block ≠ [] → encode block = .ok frame → (packet kData frame).length ≤ limit)
      (fun _ _ => False) := by
  rintro _ rfl
  subst hf
  have hfirst := h 0
  rw [blockAt_zero] at hfirst
  rw [InputFile.run_read]
  split
  · exact ⟨h.rest, hfirst⟩
  split
  · exact ⟨h, fun frame hne => absurd rfl hne⟩
  next hlt _ =>
    rw [List.take_of_length_le (by omega)] at hfirst
    exact ⟨packetsFit_nil, hfirst⟩

/-! ### The file behind its request -/

variable {c : Connection Dialogue}

/-- The connection of a push, and the packets that are still to be sent. -/
def Sending (encode : List Byte → Except Error (List Byte)) (c : Connection Dialogue)
    (j : Job Dialogue LocalFile) : Prop :=
  Steady c j.on.connection ∧ PacketsFit encode c.maxData.toNat j.file.input.remaining

theorem onStream_sending {α : Type} {p : Action (StreamOn Dialogue) α}
    (h : Prog.Maintains (fun s => Steady c s.connection) NotTooLarge p) :
    Prog.Maintains (Sending encode c) NotTooLarge (onStream p) :=
  Prog.Maintains.zoom h (fun _ hj => hj.1) fun _ _ hj hs => ⟨hs, hj.2⟩

theorem syncFail_keeps {α : Type} : Prog.Maintains (fun s => Steady c s.connection) NotTooLarge
    (syncFail : Action (StreamOn Dialogue) α) :=
  Prog.Maintains.bind (read_keeps _) fun _ => Prog.Maintains.bind (read_keeps _) fun _ =>
    Prog.Maintains.fail (notTooLarge_of_code (by simp))

theorem readStatus_keeps : Prog.Maintains (fun s => Steady c s.connection) NotTooLarge
    (readStatus : Action (StreamOn Dialogue) Unit) := by
  refine Prog.Maintains.bind (read_keeps _) fun _ => Prog.Maintains.ite (fun _ => syncFail_keeps) fun _ => ?_
  refine Prog.Maintains.ite (fun _ => Prog.Maintains.fail (notTooLarge_of_code (by decide))) fun _ => ?_
  exact Prog.Maintains.bind (read_keeps _) fun _ => Prog.Maintains.pure _

/-- A turn of a push is not refused: the block that it reads fits. -/
theorem sendTurn_sending (hencode : ∀ block e, encode block = .error e → NotTooLarge e) (b : Unit) :
    Prog.Maintains (Sending encode c) NotTooLarge (sendTurn encode b) := by
  unfold sendTurn
  refine Prog.Triple.get_bind fun job hjob => Prog.Triple.ite (fun _ => ?_) fun _ => ?_
  swap
  · exact Prog.Triple.pure fun _ h => h ▸ hjob
  have hread : Prog.Triple (fun j => j = job) (onFile (Prog.zoom LocalFile.input
      (fun f i => { f with input := i }) (InputFile.read kMaxChunkSize)) : Action (Job Dialogue LocalFile) _)
      (fun block j => Sending encode c j ∧ ∀ frame, block ≠ [] → encode block = .ok frame →
        (packet kData frame).length ≤ c.maxData.toNat) (fun e j => NotTooLarge e ∧ Sending encode c j) := by
    intro j hj
    have hends := hjob.2.read rfl job.file.input rfl
    rw [hj, run_onFile, Prog.run_zoom]
    match hrun : (InputFile.read kMaxChunkSize).run job.file.input with
    | (.ok block, input) =>
      rw [hrun] at hends
      exact ⟨⟨hjob.1, hends.1⟩, hends.2⟩
    | (.error e, input) =>
      rw [hrun] at hends
      exact hends.elim
  refine Prog.Triple.bind hread fun block => Prog.Triple.ite (fun _ => ?_) fun hne => ?_
  · exact Prog.Triple.pure fun _ h => h.1
  have hpayload : Prog.Triple (fun j => Sending encode c j ∧ ∀ frame, block ≠ [] → encode block = .ok frame →
      (packet kData frame).length ≤ c.maxData.toNat) (Prog.lift (encode block))
      (fun frame j => Sending encode c j ∧ (packet kData frame).length ≤ c.maxData.toNat)
      (fun e j => NotTooLarge e ∧ Sending encode c j) :=
    Prog.Triple.lift
      (fun frame j hframe hj => ⟨hj.1, hj.2 frame (fun hnil => hne (congrArg List.length hnil)) hframe⟩)
      fun e j he hj => ⟨hencode block e he, hj.1⟩
  refine Prog.Triple.bind hpayload fun frame j hj => ?_
  exact Prog.Maintains.bind (onStream_sending (write_keeps hj.2)) (fun _ => Prog.Maintains.pure _) j hj.1

/-- Behind its request a push is not refused where all of its packets fit. -/
theorem sendFile_sending (hencode : ∀ block e, encode block = .error e → NotTooLarge e)
    (hlimit : 8 ≤ c.maxData.toNat) : Prog.Maintains (Sending encode c) NotTooLarge (sendFile encode) := by
  unfold sendFile
  refine Prog.Maintains.get_bind fun job _ => Prog.Maintains.ite (fun _ => ?_) fun _ => ?_
  · exact Prog.Maintains.fail (notTooLarge_of_code (by decide))
  refine Prog.Maintains.bind (Prog.Maintains.loop _ (sendTurn_sending hencode) ()) fun _ => ?_
  refine Prog.Maintains.get_bind fun job _ => Prog.Maintains.ite (fun _ => ?_) fun _ => ?_
  · exact Prog.Maintains.fail (notTooLarge_of_code (by decide))
  refine Prog.Maintains.bind (onStream_sending (write_keeps hlimit)) fun _ => ?_
  refine Prog.Maintains.bind (onStream_sending readStatus_keeps) fun _ => ?_
  exact onStream_sending (write_keeps hlimit)

theorem encodingOf_notTooLarge (b : Build) (form : Option CompressionCodec) (block : List Byte) (e : Error)
    (h : encodingOf b form block = .error e) : NotTooLarge e := by
  have hcode : ∀ {r : Except String (List Byte)} {f : String → String},
      r.mapError (fun name => Error.of .protocol (f name)) = .error e → NotTooLarge e := by
    intro r f hr
    cases r with
    | ok a => cases hr
    | error name =>
      cases hr
      exact notTooLarge_of_code (by simp)
  cases form with
  | none => cases h
  | some codec =>
    rw [encodingOf, compressChunk] at h
    split at h
    · cases codec <;> exact hcode h
    · cases h
      exact notTooLarge_of_code (by decide)

/-! ### The whole push -/

/-- A payload that is the request of a push. -/
def IsSendRequest (payload : List Byte) : Prop :=
  payload.take 4 = writeU32LE kSendV1 ∨ payload.take 4 = writeU32LE kSendV2

/-- Between the two states the request of a push was sent. -/
def RequestSent (d d' : Dialogue) : Prop :=
  ∃ new f, d'.trace = d.trace ++ new ∧ .sent f ∈ new ∧ f.header.command = kWrte ∧ IsSendRequest f.payload

theorem not_requestSent {host host' : Host Dialogue LocalFile}
    (h : OnlyWrites Host.session (fun payload => ¬ IsSendRequest payload) host host') :
    ¬ RequestSent host.session host'.session := by
  rintro ⟨new, f, htrace, hf, hcommand, hrequest⟩
  obtain ⟨new', htrace', hnew⟩ := h
  obtain rfl : new = new' := List.append_cancel_left (htrace.symm.trans htrace')
  exact hnew f (.inl hf) hcommand hrequest

/-- The DATA packets of a file fit into the device's maximum payload in the form of the push. -/
def FileFits (b : Build) (limit : ℕ) (content : List Byte) : Option CompressionCodec → Prop
  | none => 8 + min content.length kMaxChunkSize ≤ limit
  | some codec => PacketsFit (compressChunk b codec) limit content

theorem FileFits.packetsFit {b : Build} {form : Option CompressionCodec} (h : FileFits b limit content form) :
    PacketsFit (encodingOf b form) limit content := by
  cases form with
  | none => exact packetsFit_v1 h
  | some codec => exact h

/-- A push whose packets fit and that is refused has attempted no WRTE on its stream. -/
theorem sendOn_refused {P : List Byte → Prop} {b : Build} {form : Option CompressionCodec}
    {request : List Byte}
    {host : Host Dialogue LocalFile} (htold : host.session.Told) (hlimit : 8 ≤ host.connection.maxData.toNat)
    (hfits : FileFits b host.connection.maxData.toNat host.file.input.remaining form)
    (hrefused : ((withSyncStream (do onStream (StreamOn.write request); sendFile (encodingOf b form))).run
      host).1 = .error writeTooLarge) :
    OnlyWrites Host.session P host
      ((withSyncStream (do onStream (StreamOn.write request); sendFile (encodingOf b form))).run host).2 := by
  have hopened := open_keeps (bytesOf "sync:") host.connection (Steady.refl htold)
  have hquiet := open_onlyWrites (P := P) (bytesOf "sync:") host.connection
  cases hopen : (Stream.open (bytesOf "sync:")).run host.connection with
  | mk r c =>
  rw [hopen] at hopened hquiet
  cases r with
  | error e =>
    have hrun : (onConnection (Stream.open (bytesOf "sync:"))).run host =
        (.error e, { host with connection := c }) := by
      rw [run_onConnection, hopen]
    rw [withSyncStream, Prog.run_bind_error hrun]
    exact hquiet
  | ok stream =>
    by_cases hfit : request.length ≤ host.connection.maxData.toNat
    · have hbody : Prog.Maintains (Sending (encodingOf b form) host.connection) NotTooLarge
          (do onStream (StreamOn.write request); sendFile (encodingOf b form)) :=
        Prog.Maintains.bind (onStream_sending (write_keeps hfit)) fun _ =>
          sendFile_sending (encodingOf_notTooLarge b form) hlimit
      have hends := hbody ⟨⟨stream, c⟩, host.file⟩ ⟨hopened, hfits.packetsFit⟩
      obtain ⟨⟨r, j⟩, hrun⟩ : ∃ q, (do onStream (StreamOn.write request); sendFile (encodingOf b form) :
          Action (Job Dialogue LocalFile) Unit).run ⟨⟨stream, c⟩, host.file⟩ = q := ⟨_, rfl⟩
      rw [hrun] at hends
      rw [withSyncStream_eq hopen hrun] at hrefused
      exact absurd rfl (hends.error hrefused).1
    · have hwrite : (StreamOn.write request).run ⟨stream, c⟩ = (.error writeTooLarge, ⟨stream, c⟩) := by
        refine write_refused ?_
        rw [hopened.maxData]
        exact Nat.lt_of_not_le hfit
      have hbody : (do onStream (StreamOn.write request); sendFile (encodingOf b form) :
          Action (Job Dialogue LocalFile) Unit).run ⟨⟨stream, c⟩, host.file⟩ =
          (.error writeTooLarge, ⟨⟨stream, c⟩, host.file⟩) := Prog.run_bind_error (onStream_eq hwrite)
      rw [withSyncStream_eq hopen hbody]
      exact trans_of (WritesOnly P) hquiet (closeNow_quiet ⟨stream, c⟩).onlyWrites

/-- Once the request of the push is sent, the push is not refused by the host. -/
def NotAborted (p : Action (Host Dialogue LocalFile) Unit) (host : Host Dialogue LocalFile) : Prop :=
  RequestSent host.session (p.run host).2.session → (p.run host).1 ≠ .error writeTooLarge

theorem pushV1_refused {P : List Byte → Prop} {destination : List Byte} {mode : UInt32}
    {host : Host Dialogue LocalFile} (htold : host.session.Told) (hlimit : 8 ≤ host.connection.maxData.toNat)
    (hfits : FileFits {} host.connection.maxData.toNat host.file.input.remaining none)
    (hrefused : ((pushV1 destination mode).run host).1 = .error writeTooLarge) :
    OnlyWrites Host.session P host ((pushV1 destination mode).run host).2 :=
  @sendOn_refused P {} none _ _ htold hlimit hfits hrefused

theorem pushV2_refused {P : List Byte → Prop} {b : Build} {codec : CompressionCodec} {destination : List Byte}
    {mode : UInt32} {host : Host Dialogue LocalFile} (htold : host.session.Told)
    (hlimit : 8 ≤ host.connection.maxData.toNat)
    (hfits : FileFits b host.connection.maxData.toNat host.file.input.remaining (some codec))
    (hrefused : ((pushV2 b destination mode codec).run host).1 = .error writeTooLarge) :
    OnlyWrites Host.session P host ((pushV2 b destination mode codec).run host).2 :=
  @sendOn_refused P b (some codec) _ _ htold hlimit hfits hrefused

/-- The form of a transfer depends on the features of the device, and on no local file. -/
theorem transferForm_congr {φ ψ : Type} (b : Build) (compression : SyncCompression) {h : Host Dialogue φ}
    {h' : Host Dialogue ψ} (hfeatures : h'.connection.features = h.connection.features) :
    ((transferForm b compression).run h').1 = ((transferForm b compression).run h).1 := by
  have hcodec : chooseCodec b h'.connection compression = chooseCodec b h.connection compression := by
    unfold chooseCodec Connection.supportsFeature
    rw [hfeatures]
  rw [transferForm, transferForm, Prog.run_bind_get, Prog.run_bind_get, hcodec, Prog.run_bind, Prog.run_bind]
  generalize (if b.hasCompression then chooseCodec b h.connection compression else .ok none) = chosen
  cases chosen with
  | error e => rfl
  | ok form =>
    cases form with
    | some codec => rfl
    | none =>
      show ((if _ then _ else _ : Action (Host Dialogue ψ) (Option CompressionCodec)).run h').1 = _
      split <;> rfl

theorem stat_steady {c : Connection Dialogue} (path : List Byte) :
    Prog.Maintains (Steady c) (fun _ => True) (stat path) := by
  refine Prog.Maintains.ite (fun _ => Prog.Maintains.fail trivial) fun _ => Prog.Maintains.get_bind fun c' _ => ?_
  refine withStream_steady _ (Prog.Maintains.bind (write_steady _) fun _ => ?_)
  refine Prog.Maintains.bind ((read_keeps _).mono fun _ _ => trivial) fun _ => ?_
  refine Prog.Maintains.bind ((read_keeps _).mono fun _ _ => trivial) fun _ => ?_
  exact Prog.Maintains.bind (write_steady _) fun _ => Prog.Maintains.pure _

theorem stat_sends_no_request (path : List Byte) :
    Prog.Steps (OnlyWrites Connection.session fun payload => ¬ IsSendRequest payload) (stat path) := by
  refine stat_onlyWrites path ?_
  rintro id body hid
  have hfront : (packet id body).take 4 = writeU32LE id := rfl
  rw [IsSendRequest, hfront]
  rintro (h | h) <;> rcases hid with rfl | rfl | rfl <;> exact absurd (writeU32LE_injective h) (by decide)

theorem push_refused {b : Build} {host : Host Dialogue LocalFile} {remotePath : List Byte}
    {compression : SyncCompression} (htold : host.session.Told) (hlimit : 8 ≤ host.connection.maxData.toNat)
    (hfits : ∀ form, ((transferForm b compression).run host).1 = .ok form →
      FileFits b host.connection.maxData.toNat host.file.input.remaining form)
    (hrefused : ((push b remotePath compression).run host).1 = .error writeTooLarge) :
    OnlyWrites Host.session (fun payload => ¬ IsSendRequest payload) host
      ((push b remotePath compression).run host).2 := by
  have hstat : OnlyWrites Host.session (fun payload => ¬ IsSendRequest payload) host
      ((onConnection (stat remotePath)).run host).2 := stat_sends_no_request remotePath host.connection
  have hsteady : Steady host.connection ((onConnection (stat remotePath)).run host).2.connection :=
    (stat_steady remotePath).state (Steady.refl htold)
  have hfile : ((onConnection (stat remotePath)).run host).2.file = host.file := rfl
  rw [push, Prog.run_bind_get] at hrefused ⊢
  by_cases hregular : (!host.file.isRegular) = true
  · rw [if_pos hregular]
    exact refl_of (OnlyWrites Host.session _) host
  rw [if_neg hregular, Prog.run_bind] at hrefused ⊢
  generalize (onConnection (stat remotePath)).run host = q at hstat hsteady hfile hrefused ⊢
  obtain ⟨r, t⟩ := q
  cases r with
  | error e => exact hstat
  | ok existing =>
    have hsame := transferForm_state b compression t
    have hform : ((transferForm b compression).run t).1 = ((transferForm b compression).run host).1 :=
      transferForm_congr b compression hsteady.features
    have hlimit' : 8 ≤ t.connection.maxData.toNat := hsteady.maxData ▸ hlimit
    have hfits' (form) (h : ((transferForm b compression).run host).1 = .ok form) :
        FileFits b t.connection.maxData.toNat t.file.input.remaining form := by
      rw [hsteady.maxData, hfile]
      exact hfits form h
    dsimp only at hrefused ⊢
    rw [Prog.run_bind] at hrefused ⊢
    generalize (transferForm b compression).run t = q at hsame hform hrefused ⊢
    obtain ⟨r, u⟩ := q
    cases hsame
    cases r with
    | error e => exact hstat
    | ok form =>
      cases form with
      | none =>
        exact trans_of (OnlyWrites Host.session _) hstat
          (pushV1_refused hsteady.told hlimit' (hfits' none hform.symm) hrefused)
      | some codec =>
        exact trans_of (OnlyWrites Host.session _) hstat
          (pushV2_refused hsteady.told hlimit' (hfits' (some codec) hform.symm) hrefused)

/-- The host's own check of the size of a write does not end a push behind its request, where the
DATA packets of the file fit into the device's maximum payload. -/
theorem push_notAborted (b : Build) {host : Host Dialogue LocalFile} (htold : host.session.Told)
    (hlimit : 8 ≤ host.connection.maxData.toNat) :
    (∀ destination mode codec,
      FileFits b host.connection.maxData.toNat host.file.input.remaining (some codec) →
      NotAborted (pushV2 b destination mode codec) host) ∧
    ∀ remotePath compression, (∀ form, ((transferForm b compression).run host).1 = .ok form →
      FileFits b host.connection.maxData.toNat host.file.input.remaining form) →
      NotAborted (push b remotePath compression) host := by
  constructor
  · intro destination mode codec hfits hsent hrefused
    exact not_requestSent (pushV2_refused htold hlimit hfits hrefused) hsent
  · intro remotePath compression hfits hsent hrefused
    exact not_requestSent (push_refused htold hlimit hfits hrefused) hsent

/-- A device of the oldest payload size, otherwise like the accepting one. -/
def oldDevice : Connection Dialogue := { acceptingDevice with maxData := 4096 }

/-- The file is as large as the payload of that device lets a DATA packet be. -/
theorem push_notAborted_limit : NotAborted (push {} (bytesOf "/sdcard/a,b") .auto)
    ⟨oldDevice, { localText with input := { remaining := List.replicate 4088 0 } }⟩ := by
  have hlength : (List.replicate 4088 (0 : Byte)).length = 4088 := List.length_replicate
  generalize List.replicate 4088 (0 : Byte) = content at hlength ⊢
  have htold : oldDevice.session.Told := by constructor <;> simp [oldDevice, acceptingDevice]
  have hlimit : 8 ≤ oldDevice.maxData.toNat := by decide
  refine (@push_notAborted {} ⟨oldDevice, { localText with input := { remaining := content } }⟩ htold
    hlimit).2 _ _ fun form hform => ?_
  cases hform
  show 8 + min content.length kMaxChunkSize ≤ 4096
  rw [hlength]
  decide

/-! ### Blocks that do not fit -/

/-- A file whose first block does not fit is refused at that block. -/
theorem sendFile_refused {frame : List Byte} {j : Job Dialogue LocalFile}
    (hinput : j.file.input = { remaining := content }) (hne : content ≠ [])
    (hencode : encode (content.take kMaxChunkSize) = .ok frame)
    (hlarge : j.on.connection.maxData.toNat < (packet kData frame).length) :
    ∃ file, (sendFile encode).run j = (.error writeTooLarge, ⟨j.on, file⟩) := by
  obtain ⟨input, hread⟩ : ∃ input, (InputFile.read kMaxChunkSize).run j.file.input =
      (.ok (content.take kMaxChunkSize), input) := by
    rw [hinput, InputFile.run_read]
    split
    · exact ⟨_, rfl⟩
    next hlt =>
      rw [if_neg (by simp), List.take_of_length_le (by dsimp only at hlt; omega)]
      exact ⟨_, rfl⟩
  have hblock : ¬ (content.take kMaxChunkSize).length = 0 := by
    have := List.length_pos_of_ne_nil hne
    have := chunkSize_pos
    rw [List.length_take]
    omega
  have hwrite : (onStream (StreamOn.write (packet kData frame))).run ⟨j.on, { j.file with input := input }⟩ =
      (.error writeTooLarge, ⟨j.on, { j.file with input := input }⟩) :=
    onStream_eq (j := ⟨j.on, { j.file with input := input }⟩) (write_refused hlarge)
  have hturn : (sendTurn encode ()).run j = (.error writeTooLarge, ⟨j.on, { j.file with input := input }⟩) := by
    rw [sendTurn, Prog.run_bind_get, if_pos (by rw [hinput]; rfl), Prog.run_bind_ok (run_readBlock hread),
      if_neg hblock, hencode]
    exact (Prog.run_bind_ok (Prog.run_lift _ _)).trans (Prog.run_bind_error hwrite)
  refine ⟨{ j.file with input := input }, ?_⟩
  rw [sendFile, Prog.run_bind_get, if_neg (by rw [hinput]; simp),
    Prog.run_bind_error (Prog.loop_error _ hturn)]

theorem RequestSent.after {d d' d'' : Dialogue} {P : List Byte → Prop} (h : RequestSent d' d'')
    (hbefore : WritesOnly P d d') : RequestSent d d'' := by
  obtain ⟨new, f, htrace, hf, hrequest⟩ := h
  obtain ⟨before, hd, -⟩ := hbefore
  refine ⟨before ++ new, f, ?_, List.mem_append_right _ hf, hrequest⟩
  rw [htrace, hd, List.append_assoc]

/-- A v1 push of a file whose first block does not fit sends its request, and is refused then. -/
theorem pushV1_aborted {host : Host Dialogue LocalFile} {destination : List Byte} {mode : UInt32}
    {stream : Stream} {c : Connection Dialogue}
    (hopen : (Stream.open (bytesOf "sync:")).run host.connection = (.ok stream, c))
    (hinput : host.file.input = { remaining := content }) (hne : content ≠ [])
    (hsends : (⟨stream, c⟩ : StreamOn Dialogue).Accepts 2)
    (hrequest : (packet kSendV1 (sendSpec destination mode)).length ≤ c.maxData.toNat)
    (hlarge : c.maxData.toNat < 8 + min content.length kMaxChunkSize) :
    ¬ NotAborted (pushV1 destination mode) host := by
  have hopened : WritesOnly (fun _ => True) host.session c.session := by
    have hsteps := open_onlyWrites (P := fun _ => True) (bytesOf "sync:") host.connection
    rwa [hopen] at hsteps
  obtain ⟨s, hwrite, hwrote⟩ :=
    @write_wrote 0 (packet kSendV1 (sendSpec destination mode)) ⟨stream, c⟩ hsends hrequest
  have hpacket : s.connection.maxData.toNat < (packet kData (content.take kMaxChunkSize)).length := by
    rw [hwrote.maxData, length_packet, List.length_take, Nat.min_comm]
    exact hlarge
  obtain ⟨file, hfile⟩ := @sendFile_refused .ok content _ ⟨s, host.file⟩ hinput hne rfl hpacket
  have hbody : (do onStream (writePathRequest kSendV1 (sendSpec destination mode)); sendFile .ok :
      Action (Job Dialogue LocalFile) Unit).run ⟨⟨stream, c⟩, host.file⟩ = (.error writeTooLarge, ⟨s, file⟩) :=
    (Prog.run_bind_ok (onStream_eq hwrite)).trans hfile
  obtain ⟨last, hlast, -⟩ := (closeNow_quiet s).silent
  rw [NotAborted, pushV1, withSyncStream_eq hopen hbody]
  have hsent : RequestSent c.session s.closeNow.connection.session := by
    refine ⟨.sent (wrteFrame stream.localId stream.remoteId
      (packet kSendV1 (sendSpec destination mode))) :: last, _, ?_, List.mem_cons_self, rfl, .inl rfl⟩
    rw [hlast, hwrote.trace, List.append_assoc]
    rfl
  exact fun h => h (hsent.after hopened) rfl

/-- A file of 4089 bytes is one byte too long for a device that takes 4096 bytes. -/
theorem push_aborted : ¬ NotAborted (push {} (bytesOf "/sdcard/a,b") .auto)
    ⟨oldDevice, { localText with input := { remaining := List.replicate 4089 0 } }⟩ := by
  have hlength : (List.replicate 4089 (0 : Byte)).length = 4089 := List.length_replicate
  generalize List.replicate 4089 (0 : Byte) = content at hlength ⊢
  obtain ⟨c, hc⟩ : ∃ c, c = ((stat (bytesOf "/sdcard/a,b")).run oldDevice).2 := ⟨_, rfl⟩
  have hstat : (stat (bytesOf "/sdcard/a,b")).run oldDevice = (.ok none, c) := by rw [hc]; rfl
  have hopen : (Stream.open (bytesOf "sync:")).run c =
      (.ok { service := bytesOf "sync:", localId := 3, remoteId := 7 },
      ((Stream.open (bytesOf "sync:")).run ((stat (bytesOf "/sdcard/a,b")).run oldDevice).2).2) := by
    rw [hc]
    rfl
  have haborted : ¬ NotAborted (pushV1 (bytesOf "/sdcard/a,b") localText.mode)
      ⟨c, { localText with input := { remaining := content } }⟩ := by
    refine pushV1_aborted hopen rfl ?_ ?_ (by decide) ?_
    · rintro rfl
      cases hlength
    · exact accepts_of_all rfl (fun o ho => absurd ho List.not_mem_nil) _
    · rw [hlength]
      decide
  have hbefore : WritesOnly (fun payload => ¬ IsSendRequest payload) oldDevice.session c.session := by
    have hsteps := stat_sends_no_request (bytesOf "/sdcard/a,b") oldDevice
    rwa [hstat] at hsteps
  rw [NotAborted, run_push_v1 rfl hstat rfl]
  exact fun h => haborted fun hsent => h (hsent.after hbefore)

end Adbcpp.Sync
