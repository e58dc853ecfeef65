import Adbcpp.Error
import Adbcpp.Library.While

/-! The codecs of a compressed sync transfer. A codec library compresses a chunk
into a complete frame, and decompresses a stream through calls that take some of
the input and fill some of the output buffer. The three decoders call it in a loop
until the chunk they were fed is used up. Nothing here makes the loop end, so a
decode is run for a number of turns. -/

namespace Adbcpp

inductive CompressionCodec
  | zstd
  | lz4
  | brotli
  deriving DecidableEq, Repr

/-! ### The libraries -/

/-- What a streaming call reports: it needs more input or more room for output, or the frame is over. -/
inductive Progress
  | needsInput
  | needsOutput
  | frameEnd
  deriving DecidableEq, Repr

/-- What a streaming call did with its input and its output buffer. -/
structure StreamingCall where
  consumed : ℕ
  produced : List Byte
  progress : Progress
  deriving DecidableEq, Repr

/-- How an encoder is set up. -/
inductive EncoderSetup
  | level (n : ℕ)
  | blockIndependent
  | quality (n : ℕ)
  | unset
  deriving DecidableEq, Repr

/-- A codec library. Its errors are the names it gives them. -/
structure CodecLibrary where
  State : Type
  /-- A streaming decoder, or nothing when it could not be created and set up. -/
  create : Option State
  /-- One streaming call on some input, with a given room for output. -/
  decompress : List Byte → ℕ → Prog State String StreamingCall
  /-- The bound on a frame's size, where zero stands for an overflow. -/
  compressBound : EncoderSetup → ℕ → ℕ
  /-- Compresses the input as one frame into a buffer of a given capacity. -/
  compress : EncoderSetup → List Byte → ℕ → Except String (List Byte)

/-- The size of the output buffer of one call. -/
def kMaxChunkSize : ℕ := 64 * 1024

/-! ### Encoding -/

def kCompressionLevel : ℕ := 1

def kBrotliQuality : ℕ := 1

/-- Compresses one sync chunk as a complete zstd frame. -/
def compressZstd (L : CodecLibrary) (input : List Byte) : Except Error (List Byte) :=
  (L.compress (.level kCompressionLevel) input
      (L.compressBound (.level kCompressionLevel) input.length)).mapError
    fun name => .of .protocol ("zstd compression failed: " ++ name)

/-- Compresses one sync chunk as a complete lz4 frame. -/
def compressLz4 (L : CodecLibrary) (input : List Byte) : Except Error (List Byte) :=
  (L.compress .blockIndependent input (L.compressBound .blockIndependent input.length)).mapError
    fun name => .of .protocol ("lz4 compression failed: " ++ name)

/-- Compresses one sync chunk as a complete brotli stream. -/
def compressBrotli (L : CodecLibrary) (input : List Byte) : Except Error (List Byte) :=
  let bound := L.compressBound (.quality kBrotliQuality) input.length
  let size := if bound = 0 then input.length + input.length / 4 + 1024 else bound
  (L.compress (.quality kBrotliQuality) input size).mapError
    fun _ => .of .protocol "brotli compression failed"

/-- How each codec compresses. -/
def compressWith (L : CodecLibrary) : CompressionCodec → List Byte → Except Error (List Byte)
  | .zstd => compressZstd L
  | .lz4 => compressLz4 L
  | .brotli => compressBrotli L

/-! ### Decoding -/

/-- The loop of a decode: how much of the input is consumed, and the output so far. -/
structure Decoding where
  offset : ℕ := 0
  output : List Byte := []

/-- What the loops of the three decoders do not share: their texts, and when they take a call
that started at an offset and consumed some input for one that consumed nothing. -/
structure DecodeLoop where
  notCreated : String
  failure : String
  stalled : (offset consumed : ℕ) → Bool

namespace DecodeLoop

variable (D : DecodeLoop) (L : CodecLibrary)

def turn (input : List Byte) (d : Decoding) : Action L.State (Turn Decoding (List Byte)) :=
  if d.offset < input.length then do
    let call ← Prog.mapError (fun name => .of .protocol (D.failure ++ name))
      (L.decompress (input.drop d.offset) kMaxChunkSize)
    let output := d.output ++ call.produced
    if D.stalled d.offset call.consumed ∧ call.produced = [] then
      pure (.done output)
    else
      pure (.again ⟨d.offset + call.consumed, output⟩)
  else
    pure (.done d.output)

/-- Feeds the next DATA chunk to a decoder, with at most `turns` turns of its loop. -/
def decodeUpTo (turns : ℕ) (input : List Byte) :
    Option L.State → Option (Except Error (List Byte) × Option L.State)
  | none => some (.error (.of .protocol D.notCreated), none)
  | some state => (Prog.loopUpTo (D.turn L input) turns {} state).map fun r => (r.1, some r.2)

end DecodeLoop

namespace ZstdDecoder

def loop : DecodeLoop where
  notCreated := "the zstd decompression context could not be created"
  failure := "zstd decompression failed: "
  -- The position is that of the whole chunk, not of the call.
  stalled offset consumed := offset + consumed == 0

def decodeUpTo (L : CodecLibrary) := loop.decodeUpTo L

end ZstdDecoder

namespace Lz4Decoder

def loop : DecodeLoop where
  notCreated := "the lz4 decompression context could not be created"
  failure := "lz4 decompression failed: "
  stalled _ consumed := consumed == 0

def decodeUpTo (L : CodecLibrary) := loop.decodeUpTo L

end Lz4Decoder

namespace BrotliDecoder

def loop : DecodeLoop where
  notCreated := "the brotli decompression context could not be created"
  failure := "brotli decompression failed: "
  stalled _ consumed := consumed == 0

def decodeUpTo (L : CodecLibrary) := loop.decodeUpTo L

end BrotliDecoder

/-- The loop of the decoder for a codec. -/
def CompressionCodec.decodeLoop : CompressionCodec → DecodeLoop
  | .zstd => ZstdDecoder.loop
  | .lz4 => Lz4Decoder.loop
  | .brotli => BrotliDecoder.loop

namespace DecodeLoop

variable {D : DecodeLoop} {L : CodecLibrary}

/-- How a decode ends, whatever number of turns that takes. -/
def Decodes (D : DecodeLoop) (L : CodecLibrary) (input : List Byte) (decoder : Option L.State)
    (r : Except Error (List Byte) × Option L.State) : Prop :=
  ∃ turns, D.decodeUpTo L turns input decoder = some r

theorem decodes_some {input : List Byte} {state : L.State}
    {r : Except Error (List Byte) × Option L.State} :
    Decodes D L input (some state) r ↔
      ∃ a s, Prog.LoopEnds (D.turn L input) {} state (a, s) ∧ r = (a, some s) := by
  constructor
  · rintro ⟨turns, h⟩
    obtain ⟨⟨a, s⟩, hrun, rfl⟩ := Option.map_eq_some_iff.mp h
    exact ⟨a, s, Prog.loopEnds_iff.mpr ⟨turns, hrun⟩, rfl⟩
  · rintro ⟨a, s, h, rfl⟩
    obtain ⟨turns, hrun⟩ := Prog.loopEnds_iff.mp h
    exact ⟨turns, by rw [decodeUpTo, hrun]; rfl⟩

theorem Decodes.unique {input : List Byte} {decoder : Option L.State}
    {r r' : Except Error (List Byte) × Option L.State} (h : Decodes D L input decoder r)
    (h' : Decodes D L input decoder r') : r = r' := by
  cases decoder with
  | none =>
    obtain ⟨_, h⟩ := h
    obtain ⟨_, h'⟩ := h'
    exact Option.some.inj (h.symm.trans h')
  | some state =>
    obtain ⟨a, s, hends, rfl⟩ := decodes_some.mp h
    obtain ⟨a', s', hends', rfl⟩ := decodes_some.mp h'
    cases hends.unique hends'
    rfl

/-- Every decode of the chunks succeeds, one decoder for all of them, and their results in
order are the given bytes. -/
inductive DecodesAll (D : DecodeLoop) (L : CodecLibrary) :
    List (List Byte) → Option L.State → List Byte → Prop
  | nil {decoder : Option L.State} : DecodesAll D L [] decoder []
  | cons {chunk : List Byte} {chunks : List (List Byte)} {decoder decoder' : Option L.State}
      {out rest : List Byte} : Decodes D L chunk decoder (.ok out, decoder') →
      DecodesAll D L chunks decoder' rest → DecodesAll D L (chunk :: chunks) decoder (out ++ rest)

theorem DecodesAll.unique {chunks : List (List Byte)} {decoder : Option L.State}
    {out out' : List Byte} (h : DecodesAll D L chunks decoder out)
    (h' : DecodesAll D L chunks decoder out') : out = out' := by
  induction h generalizing out' with
  | nil =>
    cases h'
    rfl
  | cons hchunk _ ih =>
    cases h' with
    | cons hchunk' hrest' =>
      cases hchunk.unique hchunk'
      rw [ih hrest']

/-- A codec that is built in. The loop of its decoder ends on every chunk. -/
structure BuiltIn (D : DecodeLoop) where
  library : CodecLibrary
  ends : ∀ input, Prog.AlwaysEnds (D.turn library input)

/-- Feeds the next DATA chunk to a decoder. -/
def decode (D : DecodeLoop) (b : BuiltIn D) (input : List Byte) :
    Action (Option b.library.State) (List Byte)
  | none => (.error (.of .protocol D.notCreated), none)
  | some state =>
    let (result, state) := (Prog.loopToEnd (b.ends input) {}).run state
    (result, some state)

theorem decodes_decode (b : BuiltIn D) (input : List Byte) (decoder : Option b.library.State) :
    D.Decodes b.library input decoder ((D.decode b input).run decoder) := by
  cases decoder with
  | none => exact ⟨0, rfl⟩
  | some state => exact decodes_some.mpr ⟨_, _, Prog.loopToEnd_ends (b.ends input) {} state, rfl⟩

end DecodeLoop

end Adbcpp
