import Adbcpp.Sync.Buffers
import Adbcpp.Sync.Endings

/-! The caps on the buffers. A name is checked against the longest name and a chunk against
the cap of its form before the buffer is allocated, and the reason of a FAIL is not
checked. The services stay within the caps on every response but those in which a
FAIL with a length over the largest one follows what the service takes. -/

namespace Adbcpp.Sync

open Protocol Dialogue StreamOn Prog

/-! ### Caps -/

def Buffer.size : Buffer → ℕ
  | .name size => size
  | .chunk size => size
  | .reason size => size

/-- The largest cap of the sync service. -/
def largestCap (b : Build) : ℕ := max kMaxChunkSize (kMaxCompressedChunkSize b)

/-- The cap on a buffer, where chunks are capped at `limit`. -/
def Buffer.cap (b : Build) (limit : ℕ) : Buffer → ℕ
  | .name _ => kMaxNameLength
  | .chunk _ => limit
  | .reason _ => largestCap b

def Capped (b : Build) (limit : ℕ) (buffers : List Buffer) : Prop :=
  ∀ buffer ∈ buffers, buffer.size ≤ buffer.cap b limit

/-- A service of the device on one `sync:` stream. A transfer has its codec, or is of the v1 form. -/
inductive Service
  | list (v2 : Bool)
  | stat
  | pull (codec : Option CompressionCodec)
  | push (codec : Option CompressionCodec)

/-- The cap on the chunks of a pull. -/
def chunkCap (b : Build) : Option CompressionCodec → ℕ
  | some _ => kMaxCompressedChunkSize b
  | none => kMaxChunkSize

def Service.chunkCap (b : Build) : Service → ℕ
  | .pull codec => Sync.chunkCap b codec
  | _ => kMaxChunkSize

/-- What a service allocates that opens its stream on a connection, for some path, file and so on. -/
inductive Service.Allocates (b : Build) : Service → Connection Dialogue → List Buffer → Prop
  | list (path : List Byte) (c : Connection Dialogue) : Allocates b (.list (c.supportsFeature kLsV2Feature)) c
      ((Allocating.list path).run { state := c }).2.notes
  | stat (path : List Byte) (c : Connection Dialogue) : Allocates b .stat c
      ((Allocating.stat path).run { state := c }).2.notes
  | pullV1 (path : List Byte) (host : Host Dialogue OutputFile) : Allocates b (.pull none) host.connection
      ((Allocating.pullV1 path).run { state := host }).2.notes
  | pullV2 (path : List Byte) (codec : CompressionCodec) (host : Host Dialogue OutputFile) :
      Allocates b (.pull (some codec)) host.connection
        ((Allocating.pullV2 b path codec).run { state := host }).2.notes
  | pull {codec : Option CompressionCodec} (path : List Byte) (compression : SyncCompression)
      (host : Host Dialogue OutputFile) : ((transferForm b compression).run host).1 = .ok codec →
      Allocates b (.pull codec) host.connection ((Allocating.pull b path compression).run { state := host }).2.notes
  | pushV1 (destination : List Byte) (mode : UInt32) (host : Host Dialogue LocalFile) :
      Allocates b (.push none) host.connection ((Allocating.pushV1 destination mode).run { state := host }).2.notes
  | pushV2 (destination : List Byte) (mode : UInt32) (codec : CompressionCodec) (host : Host Dialogue LocalFile) :
      Allocates b (.push (some codec)) host.connection
        ((Allocating.pushV2 b destination mode codec).run { state := host }).2.notes
  -- A push opens its own stream when the STAT before it is over.
  | push {codec : Option CompressionCodec} {existing : Option FileStat} {c : Connection Dialogue}
      (path : List Byte) (compression : SyncCompression) (host : Host Dialogue LocalFile) :
      (Sync.stat path).run host.connection = (.ok existing, c) →
      ((transferForm b compression).run { host with connection := c }).1 = .ok codec →
      Allocates b (.push codec) c ((Allocating.push b path compression).run { state := host }).2.notes

/-- A response with these bytes makes the service allocate no buffer over its cap, or over the
largest one, whatever else the device does. -/
def Service.KeepsCaps (b : Build) (service : Service) (bytes : List Byte) : Prop :=
  ∀ c buffers stream c', service.Allocates b c buffers →
    (Stream.open (bytesOf "sync:")).run c = (.ok stream, c') → (upcoming stream.localId c'.session.inbox).1 = bytes →
    Capped b (service.chunkCap b) buffers ∧ ∀ buffer ∈ buffers, buffer.size ≤ largestCap b

/-! ### Responses -/

/-- A FAIL with a length over the cap, behind responses that are taken. -/
inductive Overlong {S : Type} (Takes : S → List Byte → S → Prop) (cap : ℕ) : S → List Byte → Prop
  | fail {s : S} {length : UInt32} (rest : List Byte) : cap < length.toNat →
      Overlong Takes cap s (writeU32LE kFail ++ (writeU32LE length ++ rest))
  | behind {s s' : S} {response rest : List Byte} : Takes s response s' → Overlong Takes cap s' rest →
      Overlong Takes cap s (response ++ rest)

/-- A listing takes the response for an entry with a name that is not too long. -/
def TakesEntry (v2 : Bool) (_ : Unit) (response : List Byte) (_ : Unit) : Prop :=
  ∃ body name : List Byte, body.length = bodySize v2 ∧
    (readU32LE (body.drop (nameLengthOffset v2))).toNat = name.length ∧ name.length ≤ kMaxNameLength ∧
    response = writeU32LE (dentId v2) ++ (body ++ name)

/-- A pull takes a DATA packet that is not too long, and that its decoder takes. -/
def TakesChunk (limit : ℕ) (decoder : ChunkDecoder) (state : decoder.State) (response : List Byte)
    (state' : decoder.State) : Prop :=
  ∃ chunk out : List Byte, chunk.length ≤ limit ∧ chunk.length < 2 ^ 32 ∧
    (decoder.decode chunk).run state = (.ok out, state') ∧ response = packet kData chunk

/-- A push takes no response and goes on. -/
def TakesNone (_ : Unit) (_ : List Byte) (_ : Unit) : Prop := False

/-- The decoder of a pull. -/
def pullDecoder (b : Build) : Option CompressionCodec → ChunkDecoder
  | some codec => .ofCodec b codec
  | none => .plain

/-- The response is one of those with a FAIL that is too long. A STAT looks for no FAIL. -/
def Service.Overlong (b : Build) : Service → List Byte → Prop
  | .list v2, bytes => Sync.Overlong (TakesEntry v2) (largestCap b) () bytes
  | .stat, _ => False
  | .pull codec, bytes => Sync.Overlong (TakesChunk (Sync.chunkCap b codec) (pullDecoder b codec)) (largestCap b)
      (pullDecoder b codec).initial bytes
  | .push _, bytes => Sync.Overlong TakesNone (largestCap b) () bytes

/-! ### Within the caps -/

theorem Capped.append {b : Build} {limit : ℕ} {buffers : List Buffer} (h : Capped b limit buffers) {buffer : Buffer}
    (hbuffer : buffer.size ≤ buffer.cap b limit) : Capped b limit (buffers ++ [buffer]) := by
  intro buffer' hmem
  rcases List.mem_append.mp hmem with hmem | hmem
  · exact h buffer' hmem
  · rw [List.mem_singleton.mp hmem]
    exact hbuffer

namespace Allocating

section Within

variable {b : Build} {limit : ℕ} {source : List Byte} {e : Ending} {φ α : Type}

/-- The stream still brings `up`, and no buffer was over its cap. -/
def Within (b : Build) (limit : ℕ) (up : List Byte × Ending) (m : Allocating (StreamOn Dialogue)) : Prop :=
  Holds up m.state ∧ Capped b limit m.notes

/-- No buffer was over its cap. -/
def Kept {σ : Type} (b : Build) (limit : ℕ) (_ : Error) (m : Allocating σ) : Prop := Capped b limit m.notes

/-- What has no such buffers keeps the caps. -/
theorem unnoted_capped {σ : Type} (p : Action σ α) : Triple (fun m : Allocating σ => Capped b limit m.notes)
    (unnoted p) (fun _ m => Capped b limit m.notes) (Kept b limit) := by
  intro m hm
  rw [run_unnoted]
  match p.run m.state with
  | (.ok _, s) => exact hm
  | (.error _, s) => exact hm

theorem unnoted_within {p : Action (StreamOn Dialogue) α} {Q : α → StreamOn Dialogue → Prop}
    {up : List Byte × Ending} (h : Triple (StreamOn.Holds up) p Q AnyError) :
    Triple (Within b limit up) (unnoted p) (fun a m => Q a m.state ∧ Capped b limit m.notes) (Kept b limit) :=
  (Triple.unnoted h).conseq (fun _ hm => hm) (fun _ _ hm => hm) fun _ _ hm => hm.2

/-- A read takes its bytes off the front of the source. -/
theorem read_within (size : ℕ) : Triple (Within b limit (source, e)) (unnoted (StreamOn.read size))
    (fun out m => out.length = size ∧ ∃ rest, source = out ++ rest ∧ Within b limit (rest, e) m) (Kept b limit) := by
  refine (unnoted_within (read_holds size source e)).conseq (fun _ h => h) ?_ fun _ _ h => h
  rintro out m ⟨⟨hlen, rest, hsource, hs⟩, hcapped⟩
  exact ⟨hlen, rest, hsource, hs, hcapped⟩

theorem readWord_within : Triple (Within b limit (source, e)) (unnoted (StreamOn.read 4))
    (fun word m => ∃ rest, source = writeU32LE (readU32LE word) ++ rest ∧ Within b limit (rest, e) m)
    (Kept b limit) := by
  refine (read_within 4).conseq (fun _ h => h) ?_ fun _ _ h => h
  rintro word m ⟨hlen, rest, hsource, hm⟩
  rw [writeU32LE_readU32LE hlen]
  exact ⟨rest, hsource, hm⟩

/-- A buffer is allocated within its cap. -/
theorem note_within {buffer : Buffer} (h : buffer.size ≤ buffer.cap b limit) :
    Triple (Within b limit (source, e)) (note buffer) (fun _ => Within b limit (source, e)) (Kept b limit) :=
  Triple.note fun _ hm => ⟨hm.1, hm.2.append h⟩

theorem syncFail_within {Q : α → Allocating (StreamOn Dialogue) → Prop}
    (h : ∀ length rest, source = writeU32LE length ++ rest → length.toNat ≤ largestCap b) :
    Triple (Within b limit (source, e)) syncFail Q (Kept b limit) := by
  refine Triple.bind readWord_within fun word => Triple.exists_pre fun rest => Triple.and_pre fun hword => ?_
  refine Triple.bind (note_within (h _ rest hword)) fun _ => ?_
  exact Triple.bind (read_within _) fun reason => Triple.fail fun m ⟨_, _, _, hm⟩ => hm.2

/-- A FAIL in front of what is not overlong has a reason within the cap. -/
theorem reason_le {S : Type} {Takes : S → List Byte → S → Prop} {cap : ℕ} {s : S} {rest : List Byte}
    (h : ¬ Sync.Overlong Takes cap s (writeU32LE kFail ++ rest)) (length : UInt32) (rest' : List Byte)
    (hrest : rest = writeU32LE length ++ rest') : length.toNat ≤ cap := by
  by_contra hover
  rw [hrest] at h
  exact h (.fail rest' (Nat.lt_of_not_le hover))

/-! ### Listings -/

/-- The rest of a response that is not overlong. -/
def Rest {S : Type} (Takes : S → List Byte → S → Prop) (b : Build) (limit : ℕ) (e : Ending) (s : S)
    (m : Allocating (StreamOn Dialogue)) : Prop :=
  ∃ rest, ¬ Sync.Overlong Takes (largestCap b) s rest ∧ Within b limit (rest, e) m

theorem listTurn_within (v2 : Bool) (entries : List DirEntry) :
    Triple (Rest (TakesEntry v2) b limit e ()) (listTurn v2 entries)
      (NextTurn (fun _ => Rest (TakesEntry v2) b limit e ()) fun _ m => Capped b limit m.notes) (Kept b limit) := by
  refine Triple.exists_pre fun source => Triple.and_pre fun hsource => ?_
  refine Triple.bind readWord_within fun id => Triple.exists_pre fun rest₁ => Triple.and_pre fun hid => ?_
  subst hid
  refine Triple.ite (fun hfail => ?_) fun _ => ?_
  · rw [hfail] at hsource
    exact syncFail_within (reason_le hsource)
  refine Triple.bind (read_within _) fun body => Triple.and_pre fun hbody => ?_
  refine Triple.exists_pre fun rest₂ => Triple.and_pre fun hrest₁ => ?_
  refine Triple.ite (fun _ => Triple.pure fun _ hm => hm.2) fun _ => ?_
  refine Triple.ite (fun _ => Triple.fail fun _ hm => hm.2) fun hdent => ?_
  refine Triple.ite (fun _ => Triple.fail fun _ hm => hm.2) fun hname => ?_
  refine Triple.bind (note_within (Nat.not_lt.mp hname)) fun _ => ?_
  refine Triple.bind (read_within _) fun name => Triple.and_pre fun hlen => ?_
  refine Triple.exists_pre fun rest₃ => Triple.and_pre fun hrest₂ => ?_
  have htakes : TakesEntry v2 () (writeU32LE (dentId v2) ++ (body ++ name)) () :=
    ⟨body, name, hbody, hlen.symm, hlen ▸ Nat.not_lt.mp hname, rfl⟩
  rw [hrest₁, hrest₂, not_not.mp hdent] at hsource
  have hrest : ¬ Sync.Overlong (TakesEntry v2) (largestCap b) () rest₃ := by
    intro hover
    have hall := Sync.Overlong.behind htakes hover
    rw [List.append_assoc, List.append_assoc] at hall
    exact hsource hall
  exact Triple.ite (fun _ => Triple.pure fun _ hm => ⟨rest₃, hrest, hm⟩) fun _ =>
    Triple.pure fun _ hm => ⟨rest₃, hrest, hm⟩

theorem listOn_within {v2 : Bool} {path : List Byte}
    (h : ¬ Sync.Overlong (TakesEntry v2) (largestCap b) () source) :
    Triple (Within b limit (source, e)) (listOn v2 path) (fun _ m => Capped b limit m.notes) (Kept b limit) := by
  refine Triple.bind (unnoted_within (write_holds _)) fun _ => ?_
  have hloop := Triple.loop (listTurn_decreases v2) (I := fun _ => Rest (TakesEntry v2) b limit e ())
    (listTurn_within v2) []
  refine Triple.bind (hloop.conseq (fun _ hm => ⟨source, h, hm⟩) (fun _ _ hm => hm) fun _ _ hm => hm) fun _ => ?_
  exact Triple.bind (unnoted_capped _) fun _ => Triple.pure fun _ hm => hm

/-! ### Pulls -/

/-- What an operation on the stream of a transfer does is what it does to the stream. -/
theorem onStream_triple {p : Action (Allocating (StreamOn Dialogue)) α} {P : Allocating (StreamOn Dialogue) → Prop}
    {Q : α → Allocating (StreamOn Dialogue) → Prop} {E : Error → Allocating (StreamOn Dialogue) → Prop}
    (h : Triple P p Q E) : Triple (fun m : Allocating (Job Dialogue φ) => P m.on) (onStream p)
      (fun a m => Q a m.on) (fun e m => E e m.on) :=
  Triple.zoom h (fun _ hm => hm) (fun _ _ _ _ hm => hm) fun _ _ _ _ hm => hm

/-- What is done with the local file has no such buffers. -/
theorem onFile_on {P : Allocating (StreamOn Dialogue) → Prop} (f : φ → φ)
    {E : Error → Allocating (Job Dialogue φ) → Prop} :
    Triple (fun m : Allocating (Job Dialogue φ) => P m.on) (unnoted (onFile (Prog.modify f)))
      (fun _ m => P m.on) E := fun _ hm => hm

theorem receiveTurn_within {tooLarge : String} {decoder : ChunkDecoder} (state : decoder.State) :
    Triple (fun m => Rest (TakesChunk limit decoder) b limit e state m.on) (receiveTurn limit tooLarge decoder state)
      (NextTurn (fun state m => Rest (TakesChunk limit decoder) b limit e state m.on)
        fun _ m => Capped b limit m.notes) (Kept b limit) := by
  refine Triple.exists_pre fun source => Triple.and_pre fun hsource => ?_
  refine Triple.bind (onStream_triple readWord_within) fun id => ?_
  refine Triple.exists_pre fun rest₁ => Triple.and_pre fun hid => ?_
  subst hid
  refine Triple.ite (fun hfail => ?_) fun _ => ?_
  · rw [hfail] at hsource
    exact (onStream_triple (Q := fun _ _ => False) (syncFail_within (reason_le hsource))).conseq
      (fun _ hm => hm) (fun _ _ hm => hm.elim) fun _ _ hm => hm
  refine Triple.bind (onStream_triple readWord_within) fun size => ?_
  refine Triple.exists_pre fun rest₂ => Triple.and_pre fun hsize => ?_
  refine Triple.ite (fun _ => Triple.pure fun _ hm => hm.2) fun _ => ?_
  refine Triple.ite (fun _ => Triple.fail fun _ hm => hm.2) fun hdata => ?_
  refine Triple.ite (fun _ => Triple.fail fun _ hm => hm.2) fun hle => ?_
  have hcap : (Buffer.chunk (readU32LE size).toNat).size ≤ (Buffer.chunk (readU32LE size).toNat).cap b limit :=
    Nat.not_lt.mp hle
  refine Triple.bind (R := fun _ m => Within b limit (rest₂, e) m.on)
    (Triple.note fun _ hm => ⟨hm.1, hm.2.append hcap⟩) fun _ => ?_
  refine Triple.bind (onStream_triple (read_within _)) fun chunk => Triple.and_pre fun hlen => ?_
  refine Triple.exists_pre fun rest₃ => Triple.and_pre fun hrest₂ => ?_
  generalize hdecode : (decoder.decode chunk).run state = decoded
  obtain ⟨result, state'⟩ := decoded
  refine Triple.bind (R := fun out m => result = .ok out ∧ Within b limit (rest₃, e) m.on)
    (Triple.lift (fun _ _ hout hm => ⟨hout, hm⟩) fun _ _ _ hm => hm.2) fun out => Triple.and_pre fun hout => ?_
  have hlt : chunk.length < 2 ^ 32 := by
    rw [hlen]
    exact (readU32LE size).toNat_lt
  have htakes : TakesChunk limit decoder state (packet kData chunk) state' :=
    ⟨chunk, out, hlen ▸ Nat.not_lt.mp hle, hlt, hdecode.trans (by rw [hout]), rfl⟩
  rw [hsize, hrest₂, not_not.mp hdata] at hsource
  have hrest : ¬ Sync.Overlong (TakesChunk limit decoder) (largestCap b) state' rest₃ := by
    intro hover
    have hall := Sync.Overlong.behind htakes hover
    rw [packet_append, hlen, UInt32.ofNat_toNat] at hall
    exact hsource hall
  refine Triple.bind (onFile_on _) fun _ => ?_
  refine Triple.bind Triple.unnoted_get fun job => ?_
  exact Triple.ite (fun _ => Triple.fail fun _ hm => hm.2) fun _ => Triple.pure fun _ hm => ⟨rest₃, hrest, hm⟩

theorem receiveFile_within {tooLarge : String} {decoder : ChunkDecoder}
    (h : ¬ Sync.Overlong (TakesChunk limit decoder) (largestCap b) decoder.initial source) :
    Triple (fun m => Within b limit (source, e) m.on) (receiveFile limit tooLarge decoder)
      (fun _ m => Capped b limit m.notes) (Kept b limit) := by
  refine Triple.ensuring ?_
  refine Triple.bind (onFile_on _) fun _ => ?_
  refine Triple.bind Triple.unnoted_get fun job => ?_
  refine Triple.ite (fun _ => Triple.fail fun _ hm => hm.2) fun _ => ?_
  have hloop := Triple.loop (receiveTurn_decreases limit tooLarge decoder)
    (I := fun state m => Rest (TakesChunk limit decoder) b limit e state m.on) receiveTurn_within decoder.initial
  refine Triple.bind (hloop.conseq (fun _ hm => ⟨source, h, hm⟩) (fun _ _ hm => hm) fun _ _ hm => hm) fun _ => ?_
  exact onStream_triple (unnoted_capped _)

/-! ### Pushes -/

/-- The rest of a block is written to the stream, which brings what it brought before. -/
theorem sendTurn_holds {up : List Byte × Ending} {encode : List Byte → Except Error (List Byte)} (u : Unit) :
    Triple (fun j : Job Dialogue LocalFile => Holds up j.on) (sendTurn encode u)
      (NextTurn (fun _ j => Holds up j.on) fun _ j => Holds up j.on) fun _ _ => True := by
  refine Triple.get_bind fun job hjob => Triple.ite (fun _ => ?_) fun _ => Triple.pure fun _ hj => hj ▸ hjob
  refine Triple.bind (R := fun _ j => Holds up j.on) ?_ fun bytes => ?_
  · rintro j rfl
    rw [run_onFile]
    match (Prog.zoom LocalFile.input (fun f i => { f with input := i }) (InputFile.read kMaxChunkSize)).run j.file with
    | (.ok _, _) => exact hjob
    | (.error _, _) => trivial
  refine Triple.ite (fun _ => Triple.pure fun _ hj => hj) fun _ => ?_
  refine Triple.bind (R := fun _ j => Holds up j.on)
    (Triple.lift (fun _ _ _ hj => hj) fun _ _ _ _ => trivial) fun payload => ?_
  refine Triple.bind (R := fun _ j => Holds up j.on) ?_ fun _ => Triple.pure fun j (hj : Holds up j.on) => hj
  exact Triple.zoom (write_holds _) (fun _ hj => hj) (fun _ _ _ _ hj => hj) fun _ _ _ _ _ => trivial

theorem readStatus_within (h : ¬ Sync.Overlong TakesNone (largestCap b) () source) :
    Triple (Within b limit (source, e)) readStatus (fun _ m => Capped b limit m.notes) (Kept b limit) := by
  refine Triple.bind readWord_within fun id => Triple.exists_pre fun rest => Triple.and_pre fun hid => ?_
  refine Triple.ite (fun hfail => ?_) fun _ => ?_
  · rw [hid, hfail] at h
    exact syncFail_within (reason_le h)
  refine Triple.ite (fun _ => Triple.fail fun _ hm => hm.2) fun _ => ?_
  exact Triple.bind readWord_within fun _ => Triple.pure fun m ⟨_, _, hm⟩ => hm.2

theorem sendFile_within {encode : List Byte → Except Error (List Byte)}
    (h : ¬ Sync.Overlong TakesNone (largestCap b) () source) :
    Triple (fun m => Within b limit (source, e) m.on) (sendFile encode)
      (fun _ m => Capped b limit m.notes) (Kept b limit) := by
  refine Triple.bind Triple.unnoted_get fun job => ?_
  refine Triple.ite (fun _ => Triple.fail fun _ hm => hm.2) fun _ => ?_
  have hloop := Triple.unnoted (N := Capped b limit)
    (Triple.loop (sendTurn_decreases encode) (I := fun _ j => Holds (source, e) j.on) sendTurn_holds ())
  refine Triple.bind (hloop.conseq (fun _ hm => hm) (fun _ _ hm => hm) fun _ _ hm => hm.2) fun _ => ?_
  refine Triple.bind Triple.unnoted_get fun job => ?_
  refine Triple.ite (fun _ => Triple.fail fun _ hm => hm.2) fun _ => ?_
  refine Triple.bind (onStream_triple (unnoted_within (write_holds _))) fun _ => ?_
  refine Triple.bind (onStream_triple (readStatus_within h)) fun _ => ?_
  exact onStream_triple (unnoted_capped _)

end Within

/-! ### Services -/

section Services

variable {b : Build} {limit : ℕ} {bytes : List Byte} {stream : Stream} {φ α : Type}

/-- What a service allocates on its stream. -/
theorem withStream_notes {service : List Byte} {c c' : Connection Dialogue}
    (hopen : (Stream.open service).run c = (.ok stream, c')) (body : Action (Allocating (StreamOn Dialogue)) α) :
    ((withStream service body).run { state := c }).2.notes = (body.run { state := ⟨stream, c'⟩ }).2.notes := by
  have hrun : (withStream service body).run { state := c } = _ := Prog.run_bind_ok (unnoted_eq hopen)
  rw [hrun]
  rfl

theorem withSyncStream_notes {host : Host Dialogue φ} {c' : Connection Dialogue}
    (hopen : (Stream.open (bytesOf "sync:")).run host.connection = (.ok stream, c'))
    (body : Action (Allocating (Job Dialogue φ)) α) : ((withSyncStream body).run { state := host }).2.notes =
      (body.run { state := ⟨⟨stream, c'⟩, host.file⟩ }).2.notes := by
  have hstream : (onConnection (Stream.open (bytesOf "sync:"))).run host =
      (.ok stream, { host with connection := c' }) := by
    rw [run_onConnection, hopen]
  rw [withSyncStream, Prog.run_bind_ok (unnoted_eq hstream)]
  rfl

theorem capped_of_triple {σ : Type} {P : Allocating σ → Prop} {p : Action (Allocating σ) α}
    (h : Triple P p (fun _ m => Capped b limit m.notes) (Kept b limit)) {m : Allocating σ} (hm : P m) :
    Capped b limit (p.run m).2.notes := by
  have hends := h m hm
  match hrun : p.run m with
  | (.ok _, m') =>
    rw [hrun] at hends
    exact hends
  | (.error _, m') =>
    rw [hrun] at hends
    exact hends

/-- A stream that has just been opened brings all of the response, and nothing is allocated yet. -/
theorem opened_within {c c' : Connection Dialogue} (hopen : (Stream.open (bytesOf "sync:")).run c = (.ok stream, c'))
    (hup : (upcoming stream.localId c'.session.inbox).1 = bytes) :
    Within b limit (bytes, (upcoming stream.localId c'.session.inbox).2) { state := ⟨stream, c'⟩ } := by
  have hopened : (⟨stream, c'⟩ : StreamOn Dialogue).Opened := ⟨_, _, hopen⟩
  refine ⟨hopened.drained.1.source.trans ?_, by simp [Capped]⟩
  rw [← hup]

/-- A transfer with its request. -/
theorem request_capped {host : Host Dialogue φ} {c' : Connection Dialogue}
    (hopen : (Stream.open (bytesOf "sync:")).run host.connection = (.ok stream, c'))
    (hup : (upcoming stream.localId c'.session.inbox).1 = bytes) (request : List Byte)
    {body : Action (Allocating (Job Dialogue φ)) Unit}
    (hbody : ∀ e, Triple (fun m => Within b limit (bytes, e) m.on) body (fun _ m => Capped b limit m.notes)
      (Kept b limit)) :
    Capped b limit ((withSyncStream (onStream (unnoted (StreamOn.write request)) >>= fun _ => body)).run
      { state := host }).2.notes := by
  have htriple : Triple (fun m => Within b limit (bytes, (upcoming stream.localId c'.session.inbox).2) m.on)
      (onStream (unnoted (StreamOn.write request)) >>= fun _ => body) (fun _ m => Capped b limit m.notes)
      (Kept b limit) :=
    Triple.bind (onStream_triple (unnoted_within (write_holds _))) fun _ => hbody _
  rw [withSyncStream_notes hopen]
  exact capped_of_triple htriple (opened_within hopen hup)

end Services

end Allocating

section Sound

variable {b : Build} {bytes : List Byte} {c c' : Connection Dialogue} {stream : Stream}

theorem Capped.nil (b : Build) (limit : ℕ) : Capped b limit [] := fun _ hmem => absurd hmem List.not_mem_nil

/-- The largest cap is over the caps of all buffers. -/
theorem Capped.le_largest {service : Service} {buffers : List Buffer} (h : Capped b (service.chunkCap b) buffers) :
    ∀ buffer ∈ buffers, buffer.size ≤ largestCap b := by
  have hchunk : service.chunkCap b ≤ largestCap b := by
    unfold Service.chunkCap Sync.chunkCap
    split
    · split
      · exact Nat.le_max_right _ _
      · exact Nat.le_max_left _ _
    · exact Nat.le_max_left _ _
  have hname : kMaxNameLength ≤ kMaxChunkSize := by decide
  intro buffer hmem
  have hle := h buffer hmem
  cases buffer with
  | name size => exact hle.trans (hname.trans (Nat.le_max_left _ _))
  | chunk size => exact hle.trans hchunk
  | reason size => exact hle

theorem list_capped {path : List Byte} (h : ¬ (Service.list (c.supportsFeature kLsV2Feature)).Overlong b bytes)
    (hopen : (Stream.open (bytesOf "sync:")).run c = (.ok stream, c'))
    (hup : (upcoming stream.localId c'.session.inbox).1 = bytes) :
    Capped b kMaxChunkSize ((Allocating.list path).run { state := c }).2.notes := by
  by_cases hpath : path.length > kMaxPathLength
  · rw [Allocating.list, if_pos hpath]
    exact .nil b _
  rw [Allocating.list, if_neg hpath, run_bind_unnoted_get, Allocating.withStream_notes hopen]
  exact Allocating.capped_of_triple (Allocating.listOn_within h) (Allocating.opened_within hopen hup)

/-- A pull of either form. -/
theorem receiving_capped {codec : Option CompressionCodec} (h : ¬ (Service.pull codec).Overlong b bytes)
    {host : Host Dialogue OutputFile} (hopen : (Stream.open (bytesOf "sync:")).run host.connection = (.ok stream, c'))
    (hup : (upcoming stream.localId c'.session.inbox).1 = bytes) (request : List Byte) (tooLarge : String) :
    Capped b (chunkCap b codec) ((Allocating.withSyncStream
      (Allocating.onStream (unnoted (StreamOn.write request)) >>= fun _ =>
        Allocating.receiveFile (chunkCap b codec) tooLarge (pullDecoder b codec))).run { state := host }).2.notes :=
  Allocating.request_capped hopen hup request fun _ => Allocating.receiveFile_within h

theorem pull_capped {codec : Option CompressionCodec} (h : ¬ (Service.pull codec).Overlong b bytes)
    {path : List Byte} {compression : SyncCompression} {host : Host Dialogue OutputFile}
    (hform : ((transferForm b compression).run host).1 = .ok codec)
    (hopen : (Stream.open (bytesOf "sync:")).run host.connection = (.ok stream, c'))
    (hup : (upcoming stream.localId c'.session.inbox).1 = bytes) :
    Capped b (chunkCap b codec) ((Allocating.pull b path compression).run { state := host }).2.notes := by
  rw [Allocating.pull]
  split
  · exact .nil b _
  rw [Prog.run_bind_ok (unnoted_eq (Prod.ext hform (transferForm_state b compression host)))]
  cases codec with
  | some codec => exact receiving_capped h hopen hup _ _
  | none => exact receiving_capped h hopen hup _ _

/-- A push of either form. -/
theorem sending_capped {codec : Option CompressionCodec} (h : ¬ (Service.push codec).Overlong b bytes)
    {host : Host Dialogue LocalFile} (hopen : (Stream.open (bytesOf "sync:")).run host.connection = (.ok stream, c'))
    (hup : (upcoming stream.localId c'.session.inbox).1 = bytes) (request : List Byte)
    (encode : List Byte → Except Error (List Byte)) :
    Capped b kMaxChunkSize ((Allocating.withSyncStream
      (Allocating.onStream (unnoted (StreamOn.write request)) >>= fun _ => Allocating.sendFile encode)).run
        { state := host }).2.notes :=
  Allocating.request_capped hopen hup request fun _ => Allocating.sendFile_within h

theorem push_capped {codec : Option CompressionCodec} (h : ¬ (Service.push codec).Overlong b bytes)
    {path : List Byte} {compression : SyncCompression} {host : Host Dialogue LocalFile}
    {existing : Option FileStat} (hstat : (stat path).run host.connection = (.ok existing, c))
    (hform : ((transferForm b compression).run { host with connection := c }).1 = .ok codec)
    (hopen : (Stream.open (bytesOf "sync:")).run c = (.ok stream, c'))
    (hup : (upcoming stream.localId c'.session.inbox).1 = bytes) :
    Capped b kMaxChunkSize ((Allocating.push b path compression).run { state := host }).2.notes := by
  have hexisting : (onConnection (stat path)).run host = (.ok existing, { host with connection := c }) := by
    rw [run_onConnection, hstat]
  have hform' : (transferForm b compression).run { host with connection := c } =
      (.ok codec, { host with connection := c }) := Prod.ext hform (transferForm_state b compression _)
  rw [Allocating.push, run_bind_unnoted_get]
  split
  · exact .nil b _
  rw [Prog.run_bind_ok (unnoted_eq hexisting)]
  dsimp only
  rw [Prog.run_bind_ok (unnoted_eq hform')]
  have hopen' : (Stream.open (bytesOf "sync:")).run ({ host with connection := c } : Host Dialogue LocalFile).connection =
      (.ok stream, c') := hopen
  cases codec with
  | some codec => exact sending_capped h hopen' hup _ _
  | none => exact sending_capped h hopen' hup _ _

/-- A response without a FAIL that is too long makes no service allocate more than its caps. -/
theorem keepsCaps_of_not_overlong {service : Service} (h : ¬ service.Overlong b bytes) : service.KeepsCaps b bytes := by
  intro c buffers stream c' hallocates hopen hup
  have hcapped : Capped b (service.chunkCap b) buffers := by
    cases hallocates with
    | list path => exact list_capped h hopen hup
    | stat path => exact .nil b _
    | pullV1 path host => exact receiving_capped h hopen hup _ _
    | pullV2 path codec host => exact receiving_capped h hopen hup _ _
    | pull path compression host hform => exact pull_capped h hform hopen hup
    | pushV1 destination mode host => exact sending_capped h hopen hup _ _
    | pushV2 destination mode codec host => exact sending_capped h hopen hup _ _
    | push path compression host hstat hform => exact push_capped h hstat hform hopen hup
  exact ⟨hcapped, hcapped.le_largest⟩

end Sound

end Adbcpp.Sync
