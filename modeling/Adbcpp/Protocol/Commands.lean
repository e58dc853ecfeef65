import Adbcpp.Protocol.ByteOrder

/-! The commands and limits of the wire protocol. -/

namespace Adbcpp.Protocol

/-- Four ASCII characters as a command identifier. -/
def makeCommand (a b c d : Char) : UInt32 :=
  UInt32.ofNat a.toNat ||| (UInt32.ofNat b.toNat <<< 8) ||| (UInt32.ofNat c.toNat <<< 16) |||
    (UInt32.ofNat d.toNat <<< 24)

def kCnxn : UInt32 := makeCommand 'C' 'N' 'X' 'N'
def kAuth : UInt32 := makeCommand 'A' 'U' 'T' 'H'
def kOpen : UInt32 := makeCommand 'O' 'P' 'E' 'N'
def kOkay : UInt32 := makeCommand 'O' 'K' 'A' 'Y'
def kClse : UInt32 := makeCommand 'C' 'L' 'S' 'E'
def kWrte : UInt32 := makeCommand 'W' 'R' 'T' 'E'

/-- The protocol version of a CNXN. -/
def kVersion : UInt32 := 0x01000001

/-- The kind of an AUTH with a token to sign. -/
def kAuthToken : UInt32 := 1

/-- The kinds of an AUTH that the host sends. -/
def kAuthSignature : UInt32 := 2
def kAuthPublicKey : UInt32 := 3

/-- The largest payload a header may announce. -/
def kMaxData : UInt32 := 1024 * 1024

/-- The window of an OPEN once delayed acknowledgements are negotiated. -/
def kInitialDelayedAckBytes : UInt32 := 256 * 1024

theorem kOkay_ne_kWrte : kOkay ≠ kWrte := by decide

theorem kClse_ne_kWrte : kClse ≠ kWrte := by decide

theorem kClse_ne_kOkay : kClse ≠ kOkay := by decide

end Adbcpp.Protocol
