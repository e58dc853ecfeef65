import Adbcpp.Error
import Adbcpp.Protocol.Commands

/-! The 24-byte message header: six little-endian words. -/

namespace Adbcpp

namespace Protocol

def kMessageHeaderSize : ℕ := 24

structure Message where
  command : UInt32 := 0
  arg0 : UInt32 := 0
  arg1 : UInt32 := 0
  dataLength : UInt32 := 0
  dataCheck : UInt32 := 0
  magic : UInt32 := 0
  deriving DecidableEq, Repr

namespace Message

def computeMagic (command : UInt32) : UInt32 := command ^^^ 0xFFFFFFFF

/-- The sum of the payload bytes, with 32-bit wraparound. -/
def computeChecksum (data : List Byte) : UInt32 :=
  data.foldl (fun sum value => sum + value.toUInt32) 0

/-- The payload size as the 32-bit `data_length`, where it fits. -/
def dataLengthOf (payload : List Byte) : Except Error UInt32 :=
  if payload.length > 0xFFFFFFFF then
    .error (.of .invalidArgument "the payload is too large for the ADB header")
  else
    .ok (UInt32.ofNat payload.length)

def encode (m : Message) : List Byte :=
  writeU32LE m.command ++ writeU32LE m.arg0 ++ writeU32LE m.arg1 ++ writeU32LE m.dataLength ++
    writeU32LE m.dataCheck ++ writeU32LE m.magic

def decode (bytes : List Byte) : Message where
  command := readU32LE bytes
  arg0 := readU32LE (bytes.drop 4)
  arg1 := readU32LE (bytes.drop 8)
  dataLength := readU32LE (bytes.drop 12)
  dataCheck := readU32LE (bytes.drop 16)
  magic := readU32LE (bytes.drop 20)

@[simp] theorem length_encode (m : Message) : m.encode.length = kMessageHeaderSize := rfl

@[simp] theorem decode_encode (m : Message) : decode m.encode = m := by
  have hd : ∀ (v : UInt32) (n : ℕ) (bs : List Byte), (writeU32LE v ++ bs).drop (n + 4) = bs.drop n := by
    intro v n bs
    rw [List.drop_append, List.drop_eq_nil_of_le (by simp), length_writeU32LE]
    simp
  have he : m.encode = writeU32LE m.command ++ (writeU32LE m.arg0 ++ (writeU32LE m.arg1 ++
      (writeU32LE m.dataLength ++ (writeU32LE m.dataCheck ++ (writeU32LE m.magic ++ []))))) := by
    simp [encode]
  rw [decode, he, hd _ 0, hd _ 4, hd _ 8, hd _ 12, hd _ 16, hd _ 0, hd _ 4, hd _ 8, hd _ 12, hd _ 0,
    hd _ 4, hd _ 8, hd _ 0, hd _ 4, hd _ 0]
  simp only [List.drop_zero, readU32LE_writeU32LE]

/-- The header and the payload of a message as its bytes on the wire. -/
def frameBytes (m : Message) (payload : List Byte) : List Byte := m.encode ++ payload

@[simp] theorem length_frameBytes (m : Message) (payload : List Byte) :
    (m.frameBytes payload).length = kMessageHeaderSize + payload.length := by
  simp [frameBytes]

theorem dataLengthOf_ok {payload : List Byte} (h : payload.length < 2 ^ 32) :
    dataLengthOf payload = .ok (UInt32.ofNat payload.length) := by
  rw [dataLengthOf, if_neg (by omega)]

end Message

end Protocol

/-- A complete message: a header and its payload. -/
structure Frame where
  header : Protocol.Message
  payload : List Byte
  deriving DecidableEq, Repr

namespace Frame

/-- The frame as its bytes on the wire. -/
def bytes (f : Frame) : List Byte := f.header.frameBytes f.payload

theorem length_bytes (f : Frame) : f.bytes.length = Protocol.kMessageHeaderSize + f.payload.length :=
  Protocol.Message.length_frameBytes _ _

/-- The header announces its own payload. -/
def Sized (f : Frame) : Prop := f.header.dataLength.toNat = f.payload.length

instance (f : Frame) : Decidable f.Sized := inferInstanceAs (Decidable (_ = _))

end Frame

end Adbcpp
