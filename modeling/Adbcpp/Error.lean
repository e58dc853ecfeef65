import Adbcpp.Library.Prog
import Adbcpp.Protocol.ByteOrder

/-! What went wrong, as an error code and a message. A message is a byte string,
because the reason of a rejected sync request is whatever bytes the device sent. -/

namespace Adbcpp

/-- Who is being reported on: the caller, the link, the device or the host. -/
inductive ErrorCode
  | invalidArgument
  | transport
  | protocol
  | device
  | crypto
  | io
  deriving DecidableEq, Repr

/-- The bytes of a text of the source. -/
def bytesOf (text : String) : List Byte :=
  text.toList.map fun c => UInt8.ofNat c.toNat

structure Error where
  code : ErrorCode
  message : List Byte
  deriving DecidableEq, Repr

/-- An error with a fixed text. -/
def Error.of (code : ErrorCode) (text : String) : Error := ⟨code, bytesOf text⟩

@[simp] theorem Error.of_code (code : ErrorCode) (text : String) : (Error.of code text).code = code := rfl

/-- A program of the library over the state `σ`. -/
abbrev Action (σ α : Type) := Prog σ Error α

end Adbcpp
