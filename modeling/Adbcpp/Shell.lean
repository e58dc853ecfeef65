import Adbcpp.Stream

/-! Running a command on the device. The v1 service is a raw stream of the command's
output. The v2 service is a stream of packets, each an id, a length and that many
bytes, with the two outputs apart and the exit status in a packet of its own. -/

namespace Adbcpp

open Protocol

/-- The result of a command. -/
structure CommandResult where
  /-- What the command printed, in the order in which it came. -/
  output : List Byte := []
  standardOutput : List Byte := []
  errorOutput : List Byte := []
  exitCode : UInt8 := 0
  success : Bool := false
  deriving DecidableEq, Repr

/-- Which shell service to open. -/
inductive ShellProtocol
  | auto
  | v2
  | v1
  deriving DecidableEq, Repr

namespace Shell

def kStdout : Byte := 1
def kStderr : Byte := 2
def kExit : Byte := 3

def kShellV2Feature : List Byte := bytesOf "shell_v2"

/-- The size of what stands in front of the data of a packet: the id and the length. -/
def kPacketHeaderSize : ℕ := 5

/-! ### Packets -/

/-- What one packet adds to the result. -/
def handlePacket (id : Byte) (data : List Byte) (result : CommandResult) : CommandResult :=
  if id = kStdout then
    { result with standardOutput := result.standardOutput ++ data, output := result.output ++ data }
  else if id = kStderr then
    { result with errorOutput := result.errorOutput ++ data, output := result.output ++ data }
  else if id = kExit then
    match data with
    | [] => result
    | status :: _ => { result with exitCode := status }
  else result

/-- The packets from an offset on, up to the first one that is not complete. Each turn moves the offset
by a header at least, so that the length of the buffer bounds the turns. -/
def parsePackets (raw : List Byte) : ℕ → ℕ → CommandResult → CommandResult
  | 0, _, result => result
  | turns + 1, offset, result =>
    if h : offset + kPacketHeaderSize ≤ raw.length then
      let id := raw.get ⟨offset, by rw [kPacketHeaderSize] at h; omega⟩
      let length := (readU32LE (raw.drop (offset + 1))).toNat
      let offset := offset + kPacketHeaderSize
      if offset + length > raw.length then result
      else parsePackets raw turns (offset + length)
        (handlePacket id ((raw.drop offset).take length) result)
    else result

/-- A bound on the turns that covers the rest of the buffer is never reached. -/
theorem parsePackets_bound {raw : List Byte} {turns turns' offset : ℕ} (h : raw.length ≤ offset + turns)
    (h' : raw.length ≤ offset + turns') (result : CommandResult) :
    parsePackets raw turns offset result = parsePackets raw turns' offset result := by
  induction turns generalizing turns' offset result with
  | zero =>
    cases turns' with
    | zero => rfl
    | succ turns' =>
      have hend : ¬ offset + kPacketHeaderSize ≤ raw.length := by
        rw [kPacketHeaderSize]
        omega
      rw [parsePackets, parsePackets, dif_neg hend]
  | succ turns ih =>
    cases turns' with
    | zero =>
      have hend : ¬ offset + kPacketHeaderSize ≤ raw.length := by
        rw [kPacketHeaderSize]
        omega
      rw [parsePackets, parsePackets, dif_neg hend]
    | succ turns' =>
      have hpos : 1 ≤ kPacketHeaderSize := by decide
      rw [parsePackets, parsePackets]
      split
      · dsimp only
        split
        · rfl
        · exact ih (by omega) (by omega) _
      · rfl

/-- The result that the packets of a whole stream describe. -/
def parseResult (raw : List Byte) : CommandResult :=
  let result := parsePackets raw raw.length 0 {}
  { result with success := result.exitCode = 0 }

/-! ### Commands -/

/-- Whether a command goes over the v2 service. -/
def usesV2 {σ : Type} (c : Connection σ) (protocol : ShellProtocol) : Bool :=
  protocol = .v2 || (protocol = .auto && c.supportsFeature kShellV2Feature)

/-- The service that runs a command. -/
def serviceOf (v2 : Bool) (command : List Byte) : List Byte :=
  bytesOf (if v2 then "shell,v2,raw:" else "shell:") ++ command

variable {σ : Type} [Channel σ]

/-- Runs a command over the v1 service, which reports no exit code. -/
def runV1 (command : List Byte) : Action (Connection σ) CommandResult :=
  withStream (serviceOf false command) do
    let raw ← StreamOn.readAll
    pure { output := raw, success := true }

/-- Runs a command over the v2 service. -/
def runV2 (command : List Byte) : Action (Connection σ) CommandResult :=
  withStream (serviceOf true command) do
    let raw ← StreamOn.readAll
    pure (parseResult raw)

/-- Runs a shell command on the device. -/
def run (command : List Byte) (protocol : ShellProtocol) : Action (Connection σ) CommandResult := do
  let connection ← Prog.get
  if !usesV2 connection protocol then
    runV1 command
  else
    runV2 command

end Shell

end Adbcpp
