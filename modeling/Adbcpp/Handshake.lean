import Adbcpp.Connection

/-! The handshake that makes a connection. The host announces itself with a CNXN. A
device that trusts it answers with its own CNXN; one that does not answers with an
AUTH token, and the host signs it and, if that is not enough, offers its public key.
The banner in the device's CNXN names the features of the device and its serial. -/

namespace Adbcpp

open Protocol

/-! ### The banner of the host -/

/-- The codecs that are built in, as the banner names them. -/
structure Codecs where
  zstd : Bool := false
  lz4 : Bool := false
  brotli : Bool := false
  deriving DecidableEq, Repr

def kSystemIdentity : List Byte := bytesOf "host::features=shell_v2,stat_v2,ls_v2"
def kDelayedAckFeature : List Byte := bytesOf "delayed_ack"
def kSendRecvV2Feature : List Byte := bytesOf ",sendrecv_v2"
def kSendRecvV2ZstdFeature : List Byte := bytesOf ",sendrecv_v2_zstd"
def kSendRecvV2Lz4Feature : List Byte := bytesOf ",sendrecv_v2_lz4"
def kSendRecvV2BrotliFeature : List Byte := bytesOf ",sendrecv_v2_brotli"

/-- What the host announces: the v2 transfers only with a codec, and each codec that is built in. -/
def identity (codecs : Codecs) (advertiseDelayedAck : Bool) : List Byte :=
  kSystemIdentity ++
    (if codecs.zstd || codecs.lz4 || codecs.brotli then
      kSendRecvV2Feature ++ (if codecs.zstd then kSendRecvV2ZstdFeature else []) ++
        (if codecs.lz4 then kSendRecvV2Lz4Feature else []) ++
        (if codecs.brotli then kSendRecvV2BrotliFeature else [])
    else []) ++
    (if advertiseDelayedAck then bytesOf "," ++ kDelayedAckFeature else [])

/-! ### The banner of the device -/

/-- What stands before and behind the first occurrence of a pattern. -/
def splitFirst (pattern : List Byte) : List Byte → Option (List Byte × List Byte)
  | [] => if pattern = [] then some ([], []) else none
  | b :: text =>
    if pattern.isPrefixOf (b :: text) then some ([], (b :: text).drop pattern.length)
    else (splitFirst pattern text).map fun (before, after) => (b :: before, after)

/-- The value of a `key=` property, which ends at the next `;`. -/
def parseProperty (banner key : List Byte) : List Byte :=
  match splitFirst key banner with
  | none => []
  | some (_, value) => value.takeWhile (· ≠ UInt8.ofNat ';'.toNat)

/-- The names in the list of features, without empty ones. -/
def parseFeatures (banner : List Byte) : List (List Byte) :=
  ((parseProperty banner (bytesOf "features=")).splitOn (UInt8.ofNat ','.toNat)).filter (· ≠ [])

/-- The field between the first two `::`. -/
def parseSerial (banner : List Byte) : List Byte :=
  match splitFirst (bytesOf "::") banner with
  | none => []
  | some (_, rest) => match splitFirst (bytesOf "::") rest with
    | none => []
    | some (serial, _) => serial

/-! ### The handshake -/

/-- The header of an AUTH. -/
def makeAuth (type : UInt32) (payload : List Byte) : Except Error Message := do
  let length ← Message.dataLengthOf payload
  pure { command := kAuth, arg0 := type, dataLength := length,
         dataCheck := Message.computeChecksum payload, magic := Message.computeMagic kAuth }

/-- Signs a token, or says why it cannot. -/
abbrev Signer := List Byte → Except Error (List Byte)

namespace Connection

variable {σ : Type} [Channel σ]

/-- Sends the CNXN of the host. -/
def announce (identity : List Byte) : Action (Connection σ) Unit := do
  let length ← Prog.lift (Message.dataLengthOf identity)
  send { command := kCnxn, arg0 := kVersion, arg1 := kMaxData, dataLength := length,
         dataCheck := Message.computeChecksum identity, magic := Message.computeMagic kCnxn } identity

/-- Answers a token with its signature. -/
def sendSignature (sign : Signer) (token : List Byte) : Action (Connection σ) Unit := do
  let signature ← Prog.lift (sign token)
  let auth ← Prog.lift (makeAuth kAuthSignature signature)
  send auth signature

/-- Offers the public key, with a NUL behind it. -/
def sendPublicKey (publicKey : List Byte) : Action (Connection σ) Unit := do
  Prog.modify fun c => { c with requestedAuthorization := true }
  if publicKey = [] then
    Prog.fail (.of .crypto "the device rejected the signature and no public key is available to request authorization")
  else do
    let key := publicKey ++ [0]
    let auth ← Prog.lift (makeAuth kAuthPublicKey key)
    send auth key

/-- Offers the public key where the reply is still an AUTH, and gets the reply to that. -/
def authorize (publicKey : List Byte) (frame : Frame) : Action (Connection σ) Frame :=
  if frame.header.command = kAuth then do
    sendPublicKey publicKey
    receive
  else
    pure frame

/-- Authenticates the host where the first reply asks for it, and gets the last reply. -/
def authenticate (publicKey : List Byte) (signer : Option Signer) (frame : Frame) :
    Action (Connection σ) Frame :=
  if frame.header.command = kAuth then
    match signer with
    | some sign => do
      sendSignature sign frame.payload
      let frame ← receive
      authorize publicKey frame
    | none => authorize publicKey frame
  else
    pure frame

/-- What the CNXN of the device makes of the connection. -/
def establish (advertiseDelayedAck : Bool) (frame : Frame) (c : Connection σ) : Connection σ :=
  { c with
    deviceVersion := frame.header.arg0
    maxData := frame.header.arg1
    features := parseFeatures frame.payload
    deviceSerial := parseSerial frame.payload
    delayedAck := advertiseDelayedAck && (parseFeatures frame.payload).contains kDelayedAckFeature }

/-- Performs the handshake on a connection that has just been made for a session. -/
def connect (codecs : Codecs) (publicKey : List Byte) (signer : Option Signer)
    (advertiseDelayedAck : Bool) : Action (Connection σ) Unit := do
  announce (identity codecs advertiseDelayedAck)
  let first ← receive
  let frame ← authenticate publicKey signer first
  if frame.header.command ≠ kCnxn then
    Prog.fail (.of .protocol "unexpected response to the CNXN message")
  else
    Prog.modify (establish advertiseDelayedAck frame)

end Connection

end Adbcpp
