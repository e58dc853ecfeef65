import Adbcpp.Sync.Creating
import Adbcpp.Sync.Storage

/-! A file there and back. A push that succeeds has said the destination, the mode, the time
and the content of its file, in whatever form, and nothing else can be read from what it
wrote. A pull that succeeds stores what it is served. So a file that is pushed and pulled
again is the same, where the device serves what it was told. -/

namespace Adbcpp.Sync

open Protocol Dialogue StreamOn Prog

/-! ### What has been written on a stream -/

/-- The WRTEs of the stream so far. -/
def Written (localId : UInt32) (pieces : List (List Byte)) (s : StreamOn Dialogue) : Prop :=
  s.stream.localId = localId ∧ wrtes localId s.connection.session.trace = pieces

variable {localId : UInt32} {pieces : List (List Byte)}

theorem write_written (data : List Byte) : Triple (Written localId pieces) (write data)
    (fun _ s => data.length < 2 ^ 32 ∧ Written localId (pieces ++ [data]) s) AnyError := by
  rintro s ⟨rfl, hpieces⟩
  have hwrtes := write_wrtes data s
  obtain ⟨r, d, new, hrun, -⟩ := write_attempt data s
  match r with
  | .error e =>
    rw [hrun]
    trivial
  | .ok () =>
    have hlength := (write_sent hrun).1
    rw [hrun] at hwrtes ⊢
    rw [hpieces] at hwrtes
    exact ⟨Nat.lt_of_le_of_lt hlength s.connection.maxData.toNat_lt, rfl, hwrtes⟩

/-- What writes nothing leaves it at that. -/
theorem quiet_written {α : Type} {p : Action (StreamOn Dialogue) α} (h : Prog.Steps Quiet p) :
    Triple (Written localId pieces) p (fun _ => Written localId pieces) AnyError := by
  rintro s ⟨hid, hpieces⟩
  have hquiet := h s
  have hafter : Written localId pieces (p.run s).2 :=
    ⟨hquiet.same.localId.trans hid, (hquiet.wrtes localId).trans hpieces⟩
  match hrun : p.run s with
  | (.error e, t) => trivial
  | (.ok a, t) =>
    rw [hrun] at hafter
    exact hafter

/-- An operation on the stream of a job, which leaves the local file as it is. -/
theorem onStream_both {φ α : Type} {F : φ → Prop} {P : StreamOn Dialogue → Prop} {Q : α → StreamOn Dialogue → Prop}
    {p : Action (StreamOn Dialogue) α} (h : Triple P p Q AnyError) :
    Triple (fun j : Job Dialogue φ => F j.file ∧ P j.on) (onStream p) (fun a j => F j.file ∧ Q a j.on)
      fun _ _ => True :=
  Triple.zoom h (fun _ hj => hj.2) (fun _ _ _ hj hQ => ⟨hj.1, hQ⟩) fun _ _ _ _ _ => trivial

/-! ### The blocks of the file -/

section Blocks

variable {content : List Byte} {mtime : Int64} {encode : List Byte → Except Error (List Byte)}

/-- These blocks have been read of the content: what remains makes the rest of them, or the file is at its end. -/
def HasRead (content : List Byte) (blocks : List (List Byte)) (input : InputFile) : Prop :=
  (input.good = true ∧ ∀ more, Blocks kMaxChunkSize input.remaining more → Blocks kMaxChunkSize content (blocks ++ more)) ∨
    input.eof = true ∧ Blocks kMaxChunkSize content blocks

/-- The blocks have gone out as DATA packets, each encoded. -/
structure Sent (encode : List Byte → Except Error (List Byte)) (mtime : Int64) (localId : UInt32)
    (before blocks payloads : List (List Byte)) (j : Job Dialogue LocalFile) : Prop where
  encoded : List.Forall₂ (fun block payload => encode block = .ok payload) blocks payloads
  sizable : Sizable payloads
  mtime : j.file.mtime = mtime
  written : Written localId (before ++ payloads.map (packet kData)) j.on

/-- Between two turns of the loop of a push. -/
def Uploading (encode : List Byte → Except Error (List Byte)) (content : List Byte) (mtime : Int64) (localId : UInt32)
    (before : List (List Byte)) (j : Job Dialogue LocalFile) : Prop :=
  ∃ blocks payloads, HasRead content blocks j.file.input ∧ Sent encode mtime localId before blocks payloads j

/-- Behind the loop. -/
def Uploaded (encode : List Byte → Except Error (List Byte)) (content : List Byte) (mtime : Int64) (localId : UInt32)
    (before : List (List Byte)) (j : Job Dialogue LocalFile) : Prop :=
  ∃ blocks payloads, (j.file.input.eof = true → Blocks kMaxChunkSize content blocks) ∧
    Sent encode mtime localId before blocks payloads j

/-- A block that was read goes out. -/
theorem sendBlock_uploading (block : List Byte) (blocks payloads : List (List Byte)) :
    Triple (fun j => HasRead content (blocks ++ [block]) j.file.input ∧ Sent encode mtime localId pieces blocks payloads j)
      (do let payload ← Prog.lift (encode block)
          onStream (StreamOn.write (packet kData payload))
          pure (.again ()) : Action (Job Dialogue LocalFile) (Turn Unit Unit))
      (NextTurn (fun _ => Uploading encode content mtime localId pieces)
        fun _ => Uploaded encode content mtime localId pieces) fun _ _ => True := by
  refine Triple.bind (R := fun payload j => encode block = .ok payload ∧
    HasRead content (blocks ++ [block]) j.file.input ∧ Sent encode mtime localId pieces blocks payloads j)
    (Triple.lift (fun _ _ hok hj => ⟨hok, hj⟩) fun _ _ _ _ => trivial) fun payload => ?_
  refine Triple.and_pre fun hencode j hj => ?_
  obtain ⟨hread, hencoded, hsizable, hmtime, hwritten⟩ := hj
  have hwrite := onStream_both (F := fun f => f = j.file)
    (@write_written localId (pieces ++ payloads.map (packet kData)) (packet kData payload)) j ⟨rfl, hwritten⟩
  rw [Prog.run_bind]
  match hrun : (onStream (StreamOn.write (packet kData payload))).run j with
  | (.error e, t) => trivial
  | (.ok (), t) =>
    rw [hrun] at hwrite
    obtain ⟨hfile, hlength, hout⟩ := hwrite
    rw [length_packet] at hlength
    refine ⟨blocks ++ [block], payloads ++ [payload], hfile ▸ hread, ?_, ?_, by rw [hfile, hmtime], ?_⟩
    · exact List.rel_append hencoded (.cons hencode .nil)
    · intro p hp
      rcases List.mem_append.mp hp with hp | hp
      · exact hsizable p hp
      · rw [List.mem_singleton.mp hp]
        omega
    · rw [List.map_append, ← List.append_assoc]
      exact hout

theorem sendTurn_uploading (b : Unit) : Triple (Uploading encode content mtime localId pieces) (sendTurn encode b)
    (NextTurn (fun _ => Uploading encode content mtime localId pieces)
      fun _ => Uploaded encode content mtime localId pieces) fun _ _ => True := by
  rintro j ⟨blocks, payloads, hread, hsent⟩
  rw [sendTurn, Prog.run_bind_get]
  by_cases hgood : j.file.input.good = true
  swap
  · rw [if_neg hgood]
    obtain ⟨hgood', -⟩ | ⟨-, hblocks⟩ := hread
    · exact absurd hgood' hgood
    · exact ⟨blocks, payloads, fun _ => hblocks, hsent⟩
  rw [if_pos hgood]
  have heof : j.file.input.eof = false := by
    have hboth : (!j.file.input.eof && !j.file.input.bad) = true := hgood
    simp at hboth
    exact hboth.1
  have hmore : ∀ more, Blocks kMaxChunkSize j.file.input.remaining more → Blocks kMaxChunkSize content (blocks ++ more) := by
    obtain ⟨-, hmore⟩ | ⟨hend, -⟩ := hread
    · exact hmore
    · rw [heof] at hend
      cases hend
  have hkept : ∀ input, Sent encode mtime localId pieces blocks payloads ⟨j.on, { j.file with input }⟩ :=
    fun input => ⟨hsent.encoded, hsent.sizable, hsent.mtime, hsent.written⟩
  have hrun := InputFile.run_read kMaxChunkSize j.file.input
  by_cases hfull : kMaxChunkSize ≤ j.file.input.remaining.length
  · -- a full block
    rw [if_pos hfull] at hrun
    have hlength : (j.file.input.remaining.take kMaxChunkSize).length = kMaxChunkSize := by
      rw [List.length_take, Nat.min_eq_left hfull]
    rw [Prog.run_bind_ok (run_readBlock hrun), if_neg (by rw [hlength]; decide)]
    refine sendBlock_uploading _ blocks payloads _ ⟨.inl ⟨hgood, fun more hrest => ?_⟩, hkept _⟩
    rw [List.append_assoc]
    refine hmore _ ?_
    have hwhole := Blocks.full hlength hrest
    rwa [List.take_append_drop] at hwhole
  rw [if_neg hfull] at hrun
  by_cases hbreaks : j.file.input.breaks = true
  · rw [if_pos hbreaks] at hrun
    rw [Prog.run_bind_ok (run_readBlock hrun), if_pos List.length_nil]
    refine ⟨blocks, payloads, fun hend => ?_, hkept _⟩
    rw [show _ = _ from heof] at hend
    cases hend
  · rw [if_neg hbreaks] at hrun
    rw [Prog.run_bind_ok (run_readBlock hrun)]
    by_cases hnil : j.file.input.remaining = []
    · rw [if_pos (by rw [hnil]; rfl)]
      refine ⟨blocks, payloads, fun _ => ?_, hkept _⟩
      have hall := hmore [] (by rw [hnil]; exact .nil)
      rwa [List.append_nil] at hall
    · rw [if_neg (by simpa using hnil)]
      exact sendBlock_uploading _ blocks payloads _
        ⟨.inr ⟨rfl, hmore _ (.last hnil (Nat.lt_of_not_le hfull))⟩, hkept _⟩

theorem sendLoop_uploaded : Triple (Uploading encode content mtime localId pieces)
    (Prog.loop (sendTurn_decreases encode) ()) (fun _ => Uploaded encode content mtime localId pieces) fun _ _ => True :=
  Triple.loop (sendTurn_decreases encode) (I := fun _ => Uploading encode content mtime localId pieces) sendTurn_uploading ()

/-- The whole content has gone out in blocks, with DONE and QUIT behind them. -/
def UploadedFile (encode : List Byte → Except Error (List Byte)) (content : List Byte) (mtime : UInt32)
    (localId : UInt32) (before : List (List Byte)) (s : StreamOn Dialogue) : Prop :=
  ∃ blocks payloads, Blocks kMaxChunkSize content blocks ∧
    List.Forall₂ (fun block payload => encode block = .ok payload) blocks payloads ∧ Sizable payloads ∧
    Written localId (before ++ (payloads.map (packet kData) ++ [writeU32LE kDone ++ writeU32LE mtime]) ++
      [packet kQuit []]) s

/-- A file that was sent has gone out in whole. -/
theorem sendFile_uploads {f : LocalFile} (hgood : f.input.good = true) :
    Triple (fun j => j.file = f ∧ Written localId pieces j.on) (sendFile encode)
      (fun _ j => UploadedFile encode f.input.remaining f.doneTime localId pieces j.on) fun _ _ => True := by
  refine Triple.get_bind fun j hj => Triple.ite (fun _ => Triple.fail fun _ _ => trivial) fun _ => ?_
  obtain ⟨rfl, hwritten⟩ := hj
  have hstart : Uploading encode j.file.input.remaining j.file.mtime localId pieces j := by
    refine ⟨[], [], .inl ⟨hgood, fun _ h => h⟩, .nil, by simp [Sizable], rfl, ?_⟩
    rwa [List.map_nil, List.append_nil]
  refine Triple.bind (R := fun _ => Uploaded encode j.file.input.remaining j.file.mtime localId pieces)
    (sendLoop_uploaded.conseq ?_ (fun _ _ h => h) fun _ _ h => h) fun _ => ?_
  · rintro t rfl
    exact hstart
  refine Triple.get_bind fun t ht => Triple.ite (fun _ => Triple.fail fun _ _ => trivial) fun heof => ?_
  obtain ⟨blocks, payloads, hblocks, hsent⟩ := ht
  have hread := hblocks (by simpa using heof)
  rw [hsent.mtime]
  have hnext : ∀ {α : Type} {p : Action (StreamOn Dialogue) α} {P : StreamOn Dialogue → Prop}
      {Q : α → StreamOn Dialogue → Prop}, Triple P p Q AnyError →
      Triple (fun j : Job Dialogue LocalFile => P j.on) (onStream p) (fun a j => Q a j.on) fun _ _ => True :=
    fun h => Triple.zoom h (fun _ hj => hj) (fun _ _ _ _ hQ => hQ) fun _ _ _ _ _ => trivial
  refine Triple.bind ((hnext (write_written _)).conseq (fun u hu => hu ▸ hsent.written) (fun _ _ h => h.2)
    fun _ _ h => h) fun _ => ?_
  refine Triple.bind (hnext (quiet_written readStatus_quiet)) fun _ => ?_
  refine (hnext (write_written _)).conseq (fun _ h => h) (fun _ u hu => ?_) fun _ _ h => h
  refine ⟨blocks, payloads, hread, hsent.encoded, hsent.sizable, ?_⟩
  have hall := hu.2
  rw [List.append_assoc] at hall ⊢
  rw [List.append_assoc] at hall ⊢
  exact hall

end Blocks

/-! ### What a push has said -/

/-- What can be read from the bytes of a push, by its form. -/
def Says (b : Build) : Option CompressionCodec → List Byte → Meaning → Prop
  | none => SaysV1
  | some codec => SaysV2 b codec

/-- A push has asked for its destination in this form, and these are the bytes that it has written on the
stream of the transfer in front of the QUIT. -/
def Uploads (b : Build) (remotePath : List Byte) (compression : SyncCompression) (host : Host Dialogue LocalFile)
    (form : Option CompressionCodec) (destination bytes : List Byte) : Prop :=
  ∃ existing c stream c' pieces, Sends b remotePath compression host existing form c ∧
    destination = destinationOf remotePath existing host.file ∧
    (Stream.open (bytesOf "sync:")).run c = (.ok stream, c') ∧ bytes = pieces.flatten ∧
    wrtes stream.localId ((push b remotePath compression).run host).2.connection.session.trace =
      wrtes stream.localId c'.session.trace ++ pieces ++ [packet kQuit []]

variable {b : Build} {remotePath : List Byte} {compression : SyncCompression} {host : Host Dialogue LocalFile}

/-- A push that succeeds has written its request, the blocks of its file and DONE. -/
theorem push_uploads (hgood : host.file.input.good = true) (hpush : ((push b remotePath compression).run host).1 = .ok ()) :
    ∃ form destination blocks payloads,
      Uploads b remotePath compression host form destination
        (messages (sendRequest destination host.file.mode form) payloads host.file.doneTime).flatten ∧
      (sendRequest destination host.file.mode form).length < 2 ^ 32 ∧
      Blocks kMaxChunkSize host.file.input.remaining blocks ∧
      List.Forall₂ (fun block payload => encodingOf b form block = .ok payload) blocks payloads ∧ Sizable payloads := by
  obtain ⟨existing, form, c, hsends⟩ := exists_sends hpush
  obtain ⟨destination, hdestination⟩ : ∃ d, d = destinationOf remotePath existing host.file := ⟨_, rfl⟩
  have hrun := hsends.run_push
  rw [← hdestination] at hrun
  match hopen : (Stream.open (bytesOf "sync:")).run c with
  | (.error e, c') =>
    have hfailed : ((withSyncStream (sendBody b destination host.file.mode form)).run ⟨c, host.file⟩).1 = .error e :=
      (sendBody_unopened hopen).1
    rw [← hrun, hpush] at hfailed
    cases hfailed
  | (.ok stream, c') =>
    have hbody : Triple (fun j : Job Dialogue LocalFile => j.file = host.file ∧
        Written stream.localId (wrtes stream.localId c'.session.trace) j.on) (sendBody b destination host.file.mode form)
        (fun _ j => (sendRequest destination host.file.mode form).length < 2 ^ 32 ∧
          UploadedFile (encodingOf b form) host.file.input.remaining host.file.doneTime stream.localId
          (wrtes stream.localId c'.session.trace ++ [sendRequest destination host.file.mode form]) j.on)
        fun _ _ => True := by
      refine Triple.bind (onStream_both (F := fun f => f = host.file) (write_written _)) fun _ j hj => ?_
      obtain ⟨hfile, hlength, hwritten⟩ := hj
      exact (sendFile_uploads hgood j ⟨hfile, hwritten⟩).mono (fun _ _ h => ⟨hlength, h⟩) fun _ _ h => h
    have hends := hbody ⟨⟨stream, c'⟩, host.file⟩ ⟨rfl, rfl, rfl⟩
    generalize hran : Prog.run _ _ = q at hends
    obtain ⟨r, j⟩ := q
    rw [withSyncStream_eq (h := ⟨c, host.file⟩) hopen hran] at hrun
    rw [hrun] at hpush
    obtain ⟨hlength, blocks, payloads, hblocks, hencoded, hsizable, -, hwritten⟩ := hends.ok hpush
    refine ⟨form, destination, blocks, payloads, ⟨existing, c, stream, c', _, hsends, hdestination, hopen, rfl, ?_⟩,
      hlength, hblocks, hencoded, hsizable⟩
    rw [hrun]
    show wrtes stream.localId j.on.closeNow.connection.session.trace = _
    rw [(closeNow_quiet j.on).wrtes, hwritten, messages]
    simp

theorem Says.unique {form : Option CompressionCodec} {bytes : List Byte} {m m' : Meaning} (h : Says b form bytes m)
    (h' : Says b form bytes m') : m = m' := by
  cases form with
  | none => exact SaysV1.unique h h'
  | some codec => exact SaysV2.unique h h'

/-- A content has as many blocks as its length makes. -/
theorem Blocks.count {size : ℕ} (hsize : 0 < size) {content : List Byte} {blocks : List (List Byte)}
    (h : Blocks size content blocks) : blocks.length = (content.length + (size - 1)) / size := by
  induction h with
  | nil => rw [List.length_nil, List.length_nil, Nat.div_eq_of_lt (by omega)]
  | @last block hne hlt =>
    have hpos := List.length_pos_of_ne_nil hne
    rw [List.length_singleton, show block.length + (size - 1) = block.length - 1 + size by omega,
      Nat.add_div_right _ hsize, Nat.div_eq_of_lt (by omega)]
  | @full block rest blocks hlen _ ih =>
    rw [List.length_cons, List.length_append, hlen, ih, ← Nat.add_div_right _ hsize]
    congr 1
    omega

/-- Every codec of the build brings frames of its chunks, of which the brotli decoder takes one. -/
def FramesChunks (b : Build) : Prop :=
  ∀ codec (built : DecodeLoop.BuiltIn codec.decodeLoop), b.builtIn codec = some built → ∃ ready done,
    Framed built.library (compressWith built.library codec) (codec ≠ .brotli) ready done

/-- The payloads of a compressed push decode to its content. -/
theorem decodes_payloads (hframes : FramesChunks b) {codec : CompressionCodec} {content : List Byte}
    {blocks payloads : List (List Byte)} (hblocks : Blocks kMaxChunkSize content blocks)
    (hencoded : List.Forall₂ (fun block payload => compressChunk b codec block = .ok payload) blocks payloads)
    (hbrotli : codec = .brotli → content.length ≤ 65536) :
    (ChunkDecoder.ofCodec b codec).Decodes payloads (ChunkDecoder.ofCodec b codec).initial content := by
  cases hbuilt : b.builtIn codec with
  | some built =>
    obtain ⟨ready, done, hframed⟩ := hframes codec built hbuilt
    rw [decodes_blocks_iff hbuilt hframed hblocks (hblocks.count chunkSize_pos) hencoded, or_iff_not_imp_left]
    exact fun hcodec => hbrotli (not_not.mp hcodec)
  | none =>
    -- no block is encoded without the codec, so that the file is empty
    cases hencoded with
    | nil =>
      cases hblocks
      exact .nil _
    | cons hblock _ =>
      rw [compressChunk, Build.library_eq, hbuilt] at hblock
      cases hblock

/-- What a push has written says its destination, its mode, its time and its content. -/
theorem says_messages (hframes : FramesChunks b) {form : Option CompressionCodec} {destination content : List Byte}
    {mode : UInt32} (mtime : UInt32) {blocks payloads : List (List Byte)}
    (hlength : (sendRequest destination mode form).length < 2 ^ 32) (hblocks : Blocks kMaxChunkSize content blocks)
    (hencoded : List.Forall₂ (fun block payload => encodingOf b form block = .ok payload) blocks payloads)
    (hsizable : Sizable payloads) (hbrotli : form = some .brotli → content.length ≤ 65536) :
    Says b form (messages (sendRequest destination mode form) payloads mtime).flatten ⟨destination, mode, mtime, content⟩ := by
  cases form with
  | none =>
    have hsame : List.Forall₂ (· = ·) blocks payloads := hencoded.imp fun _ _ h => Except.ok.inj h
    rw [List.forall₂_eq_eq_eq] at hsame
    subst hsame
    rw [sendRequest, length_packet] at hlength
    exact saysV1_messages mtime hblocks (by omega)
  | some codec =>
    rw [sendRequest, length_sendV2Request] at hlength
    refine ⟨by dsimp only; omega, payloads, hsizable, messages_v2 _ _ _ _ _, ?_⟩
    exact decodes_payloads hframes hblocks hencoded fun hcodec => hbrotli (congrArg some hcodec)

/-! ### And back -/

/-- The device answers a pull with packets that decode to the content, however they are cut, in the form
of the pull, and with a DONE behind them. -/
def Serves (b : Build) (compression : SyncCompression) (host : Host Dialogue OutputFile) (content : List Byte) : Prop :=
  ∃ form chunks, formOf b compression host.connection = .ok form ∧ Sizable chunks ∧ Offers host chunks ∧
    (decoderOf b form).Decodes chunks (decoderOf b form).initial content

/-- A pull that succeeds stores what it is served, where the file system takes everything. -/
theorem pull_served {path content : List Byte} {host : Host Dialogue OutputFile} (hserves : Serves b compression host content)
    (hfile : host.file.Accepting) (hpull : ((pull b path compression).run host).1 = .ok ()) :
    ((pull b path compression).run host).2.file.disk = content := by
  obtain ⟨form, chunks, hform, hsizable, hoffers, hdecodes⟩ := hserves
  obtain ⟨-, blocks, hblocks, hgood, hclosed⟩ := pull_received hsizable hform hoffers hpull
  have hholds := hfile.openTruncated.writes blocks
  rw [hclosed, hholds.close, List.nil_append]
  exact hblocks.decodes.unique hdecodes

/-- A push that succeeds has said its file and nothing else, in whatever form; and a pull of that path from
a device that serves what it was told, with another build, in another form and over another connection,
brings the file back byte for byte. -/
theorem push_pull (hframes : FramesChunks b) (hgood : host.file.input.good = true)
    (hpush : ((push b remotePath compression).run host).1 = .ok ()) :
    ∃ form destination bytes, Uploads b remotePath compression host form destination bytes ∧
      ((form = some .brotli → host.file.input.remaining.length ≤ 65536) →
        (∀ m, Says b form bytes m ↔
          m = ⟨destination, host.file.mode, host.file.doneTime, host.file.input.remaining⟩) ∧
        ∀ (b' : Build) (compression' : SyncCompression) (back : Host Dialogue OutputFile),
          (∀ m, Says b form bytes m → m.destination = destination → Serves b' compression' back m.content) →
          back.file.Accepting → ((pull b' destination compression').run back).1 = .ok () →
          ((pull b' destination compression').run back).2.file.disk = host.file.input.remaining) := by
  obtain ⟨form, destination, blocks, payloads, huploads, hlength, hblocks, hencoded, hsizable⟩ := push_uploads hgood hpush
  refine ⟨form, destination, _, huploads, fun hbrotli => ?_⟩
  have hmeaning := says_messages hframes host.file.doneTime hlength hblocks hencoded hsizable hbrotli
  refine ⟨fun m => ⟨fun hm => hm.unique hmeaning, fun hm => hm ▸ hmeaning⟩, fun b' compression' back hserves hfile hpull => ?_⟩
  exact pull_served (hserves _ hmeaning rfl) hfile hpull

/-- A device like the accepting one that takes zstd, and large messages. -/
def zstdDevice : Connection Dialogue :=
  { acceptingDevice with maxData := 0x20000, features := featuresOf (some .zstd) }

theorem stored_framesChunks : FramesChunks storedBuild := by
  intro codec built hbuilt
  cases codec <;> cases hbuilt <;> exact ⟨_, _, Stored.framed _ (by simp)⟩

/-- A push through zstd of a file of any content succeeds there. -/
theorem push_zstdDevice (content : List Byte) :
    ((push storedBuild (bytesOf "/sdcard/a,b") .auto).run
      ⟨zstdDevice, { localText with input := { remaining := content } }⟩).1 = .ok () := by
  obtain ⟨c, hstat⟩ : ∃ c, (stat (bytesOf "/sdcard/a,b")).run zstdDevice = (.ok none, c) := ⟨_, rfl⟩
  have hsends : Sends storedBuild (bytesOf "/sdcard/a,b") .auto
      ⟨zstdDevice, { localText with input := { remaining := content } }⟩ none (some .zstd) c := ⟨rfl, hstat, rfl⟩
  obtain ⟨stream, c', hopen⟩ : ∃ stream c', (Stream.open (bytesOf "sync:")).run c = (.ok stream, c') := by
    cases hstat
    exact ⟨_, _, rfl⟩
  have hsame : c'.maxData = 0x20000 ∧ c'.session.outcomes = [] ∧ c'.session.closed = false ∧
      (upcoming stream.localId c'.session.inbox).1 = packet kOkay [] := by
    cases hstat
    cases hopen
    exact ⟨rfl, rfl, rfl, rfl⟩
  obtain ⟨hmaxData, houtcomes, hclosed, hanswer⟩ := hsame
  have hmax : c'.maxData.toNat = 131072 := congrArg UInt32.toNat hmaxData
  obtain ⟨blocks, hblocks, -⟩ := exists_blocks chunkSize_pos content
  have hsizes := hblocks.length_le chunkSize_pos
  have hencode : List.Forall₂ (fun block payload => compressChunk storedBuild .zstd block = .ok payload) blocks
      (blocks.map Stored.frameOf) :=
    List.forall₂_map_right_iff.mpr (List.forall₂_same.mpr fun block _ => compressChunk_stored .zstd block)
  have hfits : ∀ payload ∈ blocks.map Stored.frameOf, (packet kData payload).length ≤ c'.maxData.toNat := by
    intro payload hp
    obtain ⟨block, hblock, rfl⟩ := List.mem_map.mp hp
    have hle := (hsizes block hblock).2
    rw [kMaxChunkSize] at hle
    rw [length_packet, Stored.length_frameOf, hmax]
    omega
  have haccepts (k : ℕ) : (⟨stream, c'⟩ : StreamOn Dialogue).Accepts k :=
    accepts_of_all hclosed (fun o ho => by rw [houtcomes] at ho; cases ho) k
  obtain ⟨s, hpushed⟩ := @pushV2_sends 2 storedBuild .zstd
    ⟨c, { localText with input := { remaining := content } }⟩ (bytesOf "/sdcard/a,b") content 0o644 blocks _ stream c'
    hopen rfl hblocks hencode (haccepts _) hfits (by rw [hmax]; decide)
  have hopened : (⟨stream, c'⟩ : StreamOn Dialogue).Opened := ⟨_, _, hopen⟩
  have hsource : s.source = packet kOkay [] :=
    hpushed.wrote.source.trans ((Prod.mk.inj hopened.drained.1.source).1.trans hanswer)
  have hquit : 8 ≤ s.connection.maxData.toNat := by
    rw [hpushed.wrote.maxData, hmax]
    decide
  rw [hsends.run_push]
  exact hpushed.result.trans (@finishPush_okay s hpushed.wrote.accepts hquit 0 [] hsource)

/-- A file of one byte more than a chunk goes through zstd, and comes back in plain packets to another build. -/
theorem push_pull_twoChunks : ∃ bytes,
    (∀ m, Says storedBuild (some .zstd) bytes m ↔ m = ⟨bytesOf "/sdcard/a,b", 0o644, 1, List.replicate 65537 0⟩) ∧
    ∃ back : Host Dialogue OutputFile, ((pull {} (bytesOf "/sdcard/a,b") .auto).run back).1 = .ok () ∧
      ((pull {} (bytesOf "/sdcard/a,b") .auto).run back).2.file.disk = List.replicate 65537 0 := by
  generalize List.replicate 65537 (0 : Byte) = content
  obtain ⟨form, destination, bytes, ⟨existing, c, stream, c', pieces, hsends, hdestination, -⟩, hsaid⟩ :=
    @push_pull storedBuild (bytesOf "/sdcard/a,b") .auto
      ⟨zstdDevice, { localText with input := { remaining := content } }⟩ stored_framesChunks rfl (push_zstdDevice content)
  have hstat : ((stat (bytesOf "/sdcard/a,b")).run zstdDevice).1 = .ok none := rfl
  have hform : formOf storedBuild .auto zstdDevice = .ok (some .zstd) := rfl
  obtain rfl : existing = none := by
    have hanswered := congrArg Prod.fst hsends.answered
    exact Except.ok.inj (hanswered.symm.trans hstat)
  obtain rfl : form = some .zstd := Except.ok.inj (hsends.chosen.symm.trans hform)
  obtain rfl : destination = bytesOf "/sdcard/a,b" := hdestination
  obtain ⟨hmeaning, hpulls⟩ := hsaid (fun h => by cases h)
  obtain ⟨blocks, hblocks, -⟩ := exists_blocks chunkSize_pos content
  have hsizes := hblocks.length_le chunkSize_pos
  have hsizable : Sizable blocks := fun block hblock => by
    have hle := (hsizes block hblock).2
    rw [kMaxChunkSize] at hle
    omega
  have haccepting : (offeringHost none blocks {}).file.Accepting := ⟨rfl, by simp [offeringHost], rfl⟩
  obtain ⟨back, hpull, -⟩ := @pull_offeringHost {} none (bytesOf "/sdcard/a,b") blocks {} blocks (by decide) hsizable
    (fun codec h => by cases h) (fun block hblock => (hsizes block hblock).2) (plain_decodesTo blocks)
    (haccepting.openTruncated.writes blocks).good
  have hok : ((pull {} (bytesOf "/sdcard/a,b") .auto).run (offeringHost none blocks {})).1 = .ok () := by
    rw [hpull]
  refine ⟨bytes, hmeaning, offeringHost none blocks {}, hok, ?_⟩
  refine hpulls {} .auto _ (fun m hm _ => ?_) haccepting hok
  rw [(hmeaning m).mp hm]
  refine ⟨none, blocks, rfl, hsizable, offeringHost_offers _ _ _, ?_⟩
  have hdecodes := (plain_decodesTo blocks).decodes
  rw [hblocks.flatten] at hdecodes
  exact hdecodes

end Adbcpp.Sync
