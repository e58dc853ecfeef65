import Mathlib.Order.RelClasses
import Adbcpp.Sync.PushV2

/-! The sizes of the DATA packets of a push. Whatever the device does and however the
sends end, each DATA packet a push attempts holds one chunk of the file, as it is or
as a frame. The 64 KiB limit is on the chunk; a frame is only as long as the codec's
own bound lets it be. -/

namespace Adbcpp

open Protocol Dialogue StreamOn

/-! ### Programs and the messages they attempt -/

/-- From the first state to the second only WRTEs with `P` were attempted on the session. -/
def OnlyWrites {σ : Type} (view : σ → Dialogue) (P : List Byte → Prop) : σ → σ → Prop :=
  Order.Preimage view (WritesOnly P)

section OnlyWrites

variable {P : List Byte → Prop}

instance {σ : Type} (view : σ → Dialogue) : Std.Refl (OnlyWrites view P) := Order.Preimage.instRefl

instance {σ : Type} (view : σ → Dialogue) : IsTrans σ (OnlyWrites view P) := Order.Preimage.instIsTrans

theorem StreamOn.Quiet.onlyWrites {s s' : StreamOn Dialogue} (h : Quiet s s') :
    OnlyWrites StreamOn.session P s s' := h.silent.mono fun _ hfalse => hfalse.elim

theorem onlyWrites_of_quiet {α : Type} {p : Action (StreamOn Dialogue) α} (h : Prog.Steps Quiet p) :
    Prog.Steps (OnlyWrites StreamOn.session P) p := h.mono fun _ _ hquiet => hquiet.onlyWrites

theorem write_onlyWrites {data : List Byte} (hP : data.length < 2 ^ 32 → P data) :
    Prog.Steps (OnlyWrites StreamOn.session P) (write data) := by
  intro s
  obtain ⟨r, d, new, hrun, hattempt, htrace, hle⟩ := write_attempt data s
  rw [hrun]
  refine ⟨new, htrace, ?_⟩
  by_cases hnil : new = []
  · simp [hnil]
  · have hlt := Nat.lt_of_le_of_lt (hle hnil) s.connection.maxData.toNat_lt
    exact hattempt.writesOnly fun _ => hP hlt

theorem makeMessage_command {command arg0 arg1 : UInt32} {payload : List Byte} {m : Message}
    (h : makeMessage command arg0 arg1 payload = .ok m) : m.command = command := by
  unfold makeMessage at h
  cases hlen : Message.dataLengthOf payload with
  | error e => rw [hlen] at h; cases h
  | ok length => rw [hlen] at h; cases h; rfl

theorem kOpen_ne_kWrte : kOpen ≠ kWrte := by decide

theorem sendOpen_onlyWrites : Prog.Steps (OnlyWrites StreamOn.session P) sendOpen := by
  refine Prog.Steps.bind Prog.Steps.get fun s => ?_
  refine Prog.Steps.bind_run (Prog.Steps.lift _) fun message t t' hlift => ?_
  have hcommand := makeMessage_command (Prod.mk.inj hlift).1
  have hsend := send_quiet (by rw [hcommand]; exact kOpen_ne_kWrte) (s.stream.service ++ [0])
  refine Prog.Steps.bind (onlyWrites_of_quiet hsend) (fun _ => ?_) t'
  refine Prog.Steps.loop _ (fun _ => Prog.Steps.bind (onlyWrites_of_quiet receive_quiet) fun f => ?_) ()
  refine Prog.Steps.bind Prog.Steps.get fun u => Prog.Steps.ite (Prog.Steps.pure _) ?_
  refine Prog.Steps.ite (Prog.Steps.fail _) ?_
  exact Prog.Steps.bind (Prog.Steps.modify fun v => refl_of (WritesOnly P) v.session) fun _ =>
    Prog.Steps.pure _

/-- Opening a stream attempts no WRTE. -/
theorem open_onlyWrites (service : List Byte) :
    Prog.Steps (OnlyWrites Connection.session P) (Stream.open service) := by
  intro c
  have hsend := sendOpen_onlyWrites (P := P) ⟨{ service, localId := c.nextLocalId }, c.allocateLocalId.2⟩
  rw [Stream.run_open]
  generalize sendOpen.run (⟨{ service, localId := c.nextLocalId }, c.allocateLocalId.2⟩ :
    StreamOn Dialogue) = r at hsend
  match r with
  | (.ok (), s) => exact hsend
  | (.error e, s) => exact trans_of (WritesOnly P) hsend (closeNow_quiet s).onlyWrites

theorem withStream_onlyWrites {α : Type} (service : List Byte) {body : Action (StreamOn Dialogue) α}
    (h : Prog.Steps (OnlyWrites StreamOn.session P) body) :
    Prog.Steps (OnlyWrites Connection.session P) (withStream service body) := by
  refine Prog.Steps.bind (open_onlyWrites service) fun stream c => ?_
  exact trans_of (WritesOnly P) (h ⟨stream, c⟩) (closeNow_quiet _).onlyWrites

end OnlyWrites

namespace Sync

/-! ### DATA packets -/

/-- The size field of a payload that is a DATA packet. -/
def dataSize (payload : List Byte) : Option ℕ :=
  if payload.take 4 = writeU32LE kData then some (readU32LE (payload.drop 4)).toNat else none

theorem dataSize_other {id : UInt32} (h : id ≠ kData) (rest : List Byte) :
    dataSize (writeU32LE id ++ rest) = none := by
  have hfront : (writeU32LE id ++ rest).take 4 = writeU32LE id := rfl
  rw [dataSize, hfront, if_neg fun hid => h (writeU32LE_injective hid)]

theorem dataSize_packet {body : List Byte} (h : body.length < 2 ^ 32) :
    dataSize (packet kData body) = some body.length := by
  have hfront : (packet kData body).take 4 = writeU32LE kData := rfl
  have hrest : (packet kData body).drop 4 = writeU32LE (UInt32.ofNat body.length) ++ body := rfl
  rw [dataSize, if_pos hfront, hrest, readU32LE_writeU32LE, toNat_length h]

/-- A payload without a DATA packet, or with one that holds a block in the given encoding. -/
def CarriesBlock (encode : List Byte → Except Error (List Byte)) (payload : List Byte) : Prop :=
  ∀ n, dataSize payload = some n → ∃ block frame, 1 ≤ block.length ∧ block.length ≤ kMaxChunkSize ∧
    encode block = .ok frame ∧ payload = packet kData frame ∧ frame.length = n

variable {encode : List Byte → Except Error (List Byte)}

theorem carriesBlock_none {payload : List Byte} (h : dataSize payload = none) :
    CarriesBlock encode payload := by
  intro n hn
  rw [h] at hn
  cases hn

theorem write_carriesBlock {payload : List Byte} (h : dataSize payload = none) :
    Prog.Steps (OnlyWrites StreamOn.session (CarriesBlock encode)) (StreamOn.write payload) :=
  write_onlyWrites fun _ => carriesBlock_none h

theorem kQuit_ne_kData : kQuit ≠ kData := by decide
theorem kSendV1_ne_kData : kSendV1 ≠ kData := by decide
theorem kSendV2_ne_kData : kSendV2 ≠ kData := by decide
theorem kStatV1_ne_kData : kStatV1 ≠ kData := by decide
theorem kStatV2_ne_kData : kStatV2 ≠ kData := by decide

theorem dataSize_request {id : UInt32} (h : id ≠ kData) (path : List Byte) :
    dataSize (packet id path) = none := by
  rw [packet, List.append_assoc]
  exact dataSize_other h _

theorem writeQuit_carriesBlock :
    Prog.Steps (OnlyWrites StreamOn.session (CarriesBlock encode)) writeQuit :=
  write_carriesBlock (dataSize_request kQuit_ne_kData [])

/-! ### The sizes of a push -/

/-- The session of a transfer on its stream. -/
def Job.session {φ : Type} (j : Job Dialogue φ) : Dialogue := j.on.session

def Host.session {φ : Type} (h : Host Dialogue φ) : Dialogue := h.connection.session

section Lifting

variable {P : List Byte → Prop} {φ α : Type}

theorem onStream_onlyWrites {p : Action (StreamOn Dialogue) α}
    (h : Prog.Steps (OnlyWrites StreamOn.session P) p) :
    Prog.Steps (OnlyWrites Job.session P) (onStream p : Action (Job Dialogue φ) α) := onStream_along h

theorem withSyncStream_onlyWrites {body : Action (Job Dialogue φ) α}
    (h : Prog.Steps (OnlyWrites Job.session P) body) :
    Prog.Steps (OnlyWrites Host.session P) (withSyncStream body) := by
  refine Prog.Steps.bind (Prog.Steps.zoom (open_onlyWrites _) fun _ _ hw => hw) fun stream host => ?_
  exact trans_of (WritesOnly P) (h ⟨⟨stream, host.connection⟩, host.file⟩) (closeNow_quiet _).onlyWrites

end Lifting

theorem read_onlyWrites {P : List Byte → Prop} (size : ℕ) :
    Prog.Steps (OnlyWrites StreamOn.session P) (read size) := onlyWrites_of_quiet (read_quiet size)

/-- Each block of a push is sent as a DATA packet of its own. -/
theorem sendFile_carriesBlock :
    Prog.Steps (OnlyWrites Job.session (CarriesBlock encode)) (sendFile encode) := by
  refine sendFile_along read_onlyWrites writeQuit_carriesBlock (fun mtime => ?_)
    fun block frame hpos hle hencode => ?_
  · exact write_carriesBlock (dataSize_other kDone_ne_kData (writeU32LE mtime))
  · refine write_onlyWrites fun hlt n hn => ?_
    have hframe : frame.length < 2 ^ 32 := by
      rw [length_packet] at hlt
      omega
    rw [dataSize_packet hframe] at hn
    exact ⟨block, frame, hpos, hle, hencode, rfl, Option.some.inj hn⟩

/-- Asking for the metadata of a path attempts a STAT and a QUIT, and no other WRTE. -/
theorem stat_onlyWrites {P : List Byte → Prop} (path : List Byte)
    (hP : ∀ id body, id = kStatV1 ∨ id = kStatV2 ∨ id = kQuit → P (packet id body)) :
    Prog.Steps (OnlyWrites Connection.session P) (stat path) := by
  refine Prog.Steps.ite (Prog.Steps.fail _) (Prog.Steps.bind Prog.Steps.get fun c => ?_)
  have hrequest : P (packet (if c.supportsFeature kStatV2Feature then kStatV2 else kStatV1) path) := by
    split
    · exact hP _ _ (.inr (.inl rfl))
    · exact hP _ _ (.inl rfl)
  refine withStream_onlyWrites _ (Prog.Steps.bind (write_onlyWrites fun _ => hrequest) fun _ => ?_)
  refine Prog.Steps.bind (read_onlyWrites _) fun _ => Prog.Steps.bind (read_onlyWrites _) fun _ => ?_
  exact Prog.Steps.bind (write_onlyWrites fun _ => hP _ _ (.inr (.inr rfl))) fun _ => Prog.Steps.pure _

theorem stat_carriesBlock (path : List Byte) :
    Prog.Steps (OnlyWrites Connection.session (CarriesBlock encode)) (stat path) := by
  refine stat_onlyWrites path ?_
  rintro id body (rfl | rfl | rfl)
  · exact carriesBlock_none (dataSize_request kStatV1_ne_kData body)
  · exact carriesBlock_none (dataSize_request kStatV2_ne_kData body)
  · exact carriesBlock_none (dataSize_request kQuit_ne_kData body)

theorem pushV1_carriesBlock (destination : List Byte) (mode : UInt32) :
    Prog.Steps (OnlyWrites Host.session (CarriesBlock .ok)) (pushV1 destination mode) := by
  have hrequest := dataSize_request kSendV1_ne_kData (sendSpec destination mode)
  exact withSyncStream_onlyWrites
    (Prog.Steps.bind (onStream_onlyWrites (write_carriesBlock hrequest)) fun _ => sendFile_carriesBlock)

theorem pushV2_carriesBlock (b : Build) (destination : List Byte) (mode : UInt32) (codec : CompressionCodec) :
    Prog.Steps (OnlyWrites Host.session (CarriesBlock (compressChunk b codec)))
      (pushV2 b destination mode codec) := by
  have hrequest : dataSize (packet kSendV2 destination ++ writeU32LE kSendV2 ++ writeU32LE mode ++
      writeU32LE (syncFlagOf codec)) = none := by
    simp only [packet, List.append_assoc]
    exact dataSize_other kSendV2_ne_kData _
  exact withSyncStream_onlyWrites
    (Prog.Steps.bind (onStream_onlyWrites (write_carriesBlock hrequest)) fun _ => sendFile_carriesBlock)

/-- How the form of a push encodes a block. -/
def encodingOf (b : Build) : Option CompressionCodec → List Byte → Except Error (List Byte)
  | some codec => compressChunk b codec
  | none => .ok

/-- A push that is not to be compressed has the v1 form. -/
theorem transferForm_none {φ : Type} (b : Build) (h : Host Dialogue φ) :
    (transferForm b .none).run h = (.ok none, h) := by
  have hcodec : (if b.hasCompression then chooseCodec b h.connection .none else .ok none) = .ok none := by
    simp [chooseCodec]
  rw [transferForm, Prog.run_bind_get, hcodec]
  rfl

/-- A push keeps to one form, for every compression asked for. -/
theorem push_carriesBlock (b : Build) (remotePath : List Byte) (compression : SyncCompression)
    (host : Host Dialogue LocalFile) : ∃ form, (compression = .none → form = none) ∧
      OnlyWrites Host.session (CarriesBlock (encodingOf b form)) host
        ((push b remotePath compression).run host).2 := by
  rw [push, Prog.run_bind_get]
  split
  · exact ⟨none, fun _ => rfl, refl_of (WritesOnly _) host.session⟩
  have hstat : ∀ form, OnlyWrites Host.session (CarriesBlock (encodingOf b form)) host
      ((onConnection (stat remotePath)).run host).2 :=
    fun _ => stat_carriesBlock remotePath host.connection
  rw [Prog.run_bind]
  generalize (onConnection (stat remotePath)).run host = q at hstat ⊢
  obtain ⟨r, t⟩ := q
  cases r with
  | error e => exact ⟨none, fun _ => rfl, hstat none⟩
  | ok existing =>
    have hsame := transferForm_state b compression t
    have hnone : compression = .none → ((transferForm b compression).run t).1 = .ok none := by
      rintro rfl
      rw [transferForm_none]
    show ∃ form, _ ∧ OnlyWrites _ _ host (Prog.run (transferForm b compression >>= _) t).2
    rw [Prog.run_bind]
    generalize (transferForm b compression).run t = q at hsame hnone ⊢
    obtain ⟨r, u⟩ := q
    cases hsame
    cases r with
    | error e => exact ⟨none, fun _ => rfl, hstat none⟩
    | ok form =>
      cases form with
      | none => exact ⟨none, fun _ => rfl, trans_of (WritesOnly _) (hstat none) (pushV1_carriesBlock _ _ u)⟩
      | some codec =>
        exact ⟨some codec, fun h => Except.ok.inj (hnone h),
          trans_of (WritesOnly _) (hstat (some codec)) (pushV2_carriesBlock b _ _ codec u)⟩

/-! ### The limits on a size -/

/-- The room that a codec's encoder is given for the frame of a chunk. -/
def capacityOf (L : CodecLibrary) (codec : CompressionCodec) (size : ℕ) : ℕ :=
  match codec with
  | .zstd => L.compressBound (.level kCompressionLevel) size
  | .lz4 => L.compressBound .blockIndependent size
  | .brotli =>
    let bound := L.compressBound (.quality kBrotliQuality) size
    if bound = 0 then size + size / 4 + 1024 else bound

/-- What a library promises of a frame: there are bytes in it, and they fit into the buffer. -/
def MakesFrames (L : CodecLibrary) : Prop := ∀ setup input capacity frame,
  L.compress setup input capacity = .ok frame → 1 ≤ frame.length ∧ frame.length ≤ capacity

theorem MakesFrames.compressWith {L : CodecLibrary} (h : MakesFrames L) {codec : CompressionCodec}
    {chunk frame : List Byte} (hrun : compressWith L codec chunk = .ok frame) :
    1 ≤ frame.length ∧ frame.length ≤ capacityOf L codec chunk.length := by
  have hok : ∀ {r : Except String (List Byte)} {f : String → Error},
      r.mapError f = .ok frame → r = .ok frame := by
    intro r f hr
    cases r with
    | ok a => cases hr; rfl
    | error e => cases hr
  cases codec with
  | zstd => exact h _ _ _ _ (hok hrun)
  | lz4 => exact h _ _ _ _ (hok hrun)
  | brotli => exact h _ _ _ _ (hok hrun)

/-- The limit on the size of a DATA packet: 64 KiB in the v1 form, and in the v2 form the room for
the frame of a chunk of at most 64 KiB. -/
def KeepsLimit (b : Build) (form : Option CompressionCodec) (payload : List Byte) : Prop :=
  ∀ n, dataSize payload = some n → match form with
    | none => 1 ≤ n ∧ n ≤ kMaxChunkSize
    | some codec => ∃ L chunk, b.library codec = some L ∧ 1 ≤ chunk.length ∧
        chunk.length ≤ kMaxChunkSize ∧ compressWith L codec chunk = .ok (payload.drop 8) ∧
        1 ≤ n ∧ n ≤ capacityOf L codec chunk.length

theorem CarriesBlock.keepsLimit {b : Build} (hframes : ∀ codec L, b.library codec = some L → MakesFrames L)
    {form : Option CompressionCodec} {payload : List Byte} (h : CarriesBlock (encodingOf b form) payload) :
    KeepsLimit b form payload := by
  intro n hn
  obtain ⟨block, frame, hpos, hle, hencode, rfl, rfl⟩ := h n hn
  cases form with
  | none =>
    cases hencode
    exact ⟨hpos, hle⟩
  | some codec =>
    rw [encodingOf, compressChunk] at hencode
    split at hencode
    next L hL =>
      obtain ⟨hframe, hroom⟩ := (hframes codec L hL).compressWith hencode
      exact ⟨L, block, hL, hpos, hle, hencode, hframe, hroom⟩
    next => cases hencode

/-- The size of every DATA packet that a push attempts to send keeps the limit of its form. -/
theorem push_keepsLimit (b : Build) (hframes : ∀ codec L, b.library codec = some L → MakesFrames L) :
    (∀ destination mode host, OnlyWrites Host.session (KeepsLimit b none) host
      ((pushV1 destination mode).run host).2) ∧
    (∀ destination mode codec host, OnlyWrites Host.session (KeepsLimit b (some codec)) host
      ((pushV2 b destination mode codec).run host).2) ∧
    ∀ remotePath compression host, ∃ form, (compression = .none → form = none) ∧
      OnlyWrites Host.session (KeepsLimit b form) host ((push b remotePath compression).run host).2 := by
  refine ⟨fun destination mode host => ?_, fun destination mode codec host => ?_,
    fun remotePath compression host => ?_⟩
  · exact (pushV1_carriesBlock destination mode host).mono fun _ h => @CarriesBlock.keepsLimit b hframes none _ h
  · exact (pushV2_carriesBlock b destination mode codec host).mono fun _ h =>
      @CarriesBlock.keepsLimit b hframes (some codec) _ h
  · obtain ⟨form, hnone, hwrites⟩ := push_carriesBlock b remotePath compression host
    exact ⟨form, hnone, hwrites.mono fun _ h => h.keepsLimit hframes⟩

theorem stored_makesFrames (codec : CompressionCodec) (L : CodecLibrary)
    (h : storedBuild.library codec = some L) : MakesFrames L := by
  have hstored : ∀ restarts, MakesFrames (Stored.library restarts) := by
    intro restarts setup input capacity frame hrun
    dsimp only [Stored.library] at hrun
    split at hrun <;> cases hrun
    rw [Stored.length_frameOf]
    omega
  cases codec <;> cases h <;> exact hstored _

theorem push_keepsLimit_stored : OnlyWrites Host.session (KeepsLimit storedBuild (some .zstd))
    ⟨okayDevice, fileOf [1, 2, 3]⟩ ((pushV2 storedBuild (bytesOf "/sdcard/a") 0o100644 .zstd).run
      ⟨okayDevice, fileOf [1, 2, 3]⟩).2 :=
  (push_keepsLimit storedBuild stored_makesFrames).2.1 _ _ _ _

/-- What was sent is on the record. -/
theorem sent_of_mem_wrtes {localId : UInt32} {payload : List Byte} {trace : List Event}
    (h : payload ∈ wrtes localId trace) :
    ∃ f, .sent f ∈ trace ∧ f.header.command = kWrte ∧ f.payload = payload := by
  obtain ⟨event, hevent, hpayload⟩ := List.mem_filterMap.mp h
  match event with
  | .sent f =>
    dsimp only at hpayload
    split at hpayload
    next hf => exact ⟨f, hevent, hf.1, Option.some.inj hpayload⟩
    next => cases hpayload
  | .received f => cases hpayload
  | .unsent f => cases hpayload

/-- The frame of a full chunk that does not compress is sent with its whole size. -/
theorem not_push_dataSize_full : ¬ OnlyWrites Host.session
    (fun payload => ∀ n, dataSize payload = some n → 1 ≤ n ∧ n ≤ kMaxChunkSize)
    ⟨okayDevice, fileOf (List.replicate 65536 0)⟩
    ((pushV2 storedBuild (bytesOf "/sdcard/a") 0o100644 .zstd).run
      ⟨okayDevice, fileOf (List.replicate 65536 0)⟩).2 := by
  have hlength : (List.replicate 65536 (0 : Byte)).length = kMaxChunkSize := List.length_replicate
  generalize List.replicate 65536 (0 : Byte) = content at hlength ⊢
  have hblocks : Blocks kMaxChunkSize content [content] := by
    have hfull := Blocks.full hlength Blocks.nil
    rwa [List.append_nil] at hfull
  have hfits : ∀ payload ∈ [Stored.frameOf content],
      (packet kData payload).length ≤ openedOkay.connection.maxData.toNat := by
    intro payload hp
    rw [List.mem_singleton] at hp
    exact stored_fits .zstd content payload (Nat.le_of_eq hlength) (hp ▸ compressChunk_stored .zstd content)
  obtain ⟨s, -, -, hwrtes⟩ := @pushV2_sends 0 storedBuild .zstd ⟨okayDevice, fileOf content⟩
    (bytesOf "/sdcard/a") content 0o100644 [content] [Stored.frameOf content] _ _ open_okayDevice rfl
    hblocks (.cons (compressChunk_stored .zstd content) .nil) (openedOkay_accepts _) hfits (by decide)
  rintro ⟨new, htrace, hnew⟩
  have hmem : packet kData (Stored.frameOf content) ∈ wrtes 2 ((pushV2 storedBuild
      (bytesOf "/sdcard/a") 0o100644 .zstd).run ⟨okayDevice, fileOf content⟩).2.connection.session.trace := by
    rw [show (2 : UInt32) = openedOkay.stream.localId from rfl, hwrtes]
    simp [messages]
  obtain ⟨f, hf, hcommand, hpayload⟩ := sent_of_mem_wrtes hmem
  have hnil : okayDevice.session.trace = [] := rfl
  rw [Host.session, Host.session, hnil, List.nil_append] at htrace
  have hframe : (Stored.frameOf content).length = 65540 := by
    rw [Stored.length_frameOf, hlength, kMaxChunkSize]
  have hsize : dataSize f.payload = some 65540 := by
    rw [hpayload, dataSize_packet (by omega), hframe]
  exact absurd (hnew f (.inl (by rw [← htrace]; exact hf)) hcommand 65540 hsize).2 (by decide)

end Sync

end Adbcpp
