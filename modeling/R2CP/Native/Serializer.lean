import R2CP.Native.Command
import R2CP.Native.Exception

/-!
# Packet serializer

`R2CPSerializer` writes commands into a packet with `push_back`, behind a guard
that compares an offset with the size the vector has so far. The frames of
`serializingOffsetStack` are bytes, unlike the parser's: a `push_back` onto the
stack keeps the offset modulo `2 ^ 8`. The head of the list is the back of the
C++ vector.

A writer gets the vector by reference; here it takes the bytes written so far and
returns the longer ones. What a vector holds after a throw is not kept, because
`serializeCommands` owns its vectors and lets no throw out alive with them.
-/

namespace R2CP

/-- The serializer object. -/
structure R2CPSerializer where
  serializingOffsetStack : List UInt8
  deriving DecidableEq, Repr

namespace R2CPSerializer

/-- A member function of the serializer. -/
abbrev Serializer := StatefulExcept StdException R2CPSerializer

/-- `MINR2CPPACKETSIZE`: magic number and size. -/
def minR2CPPacketSize : UInt32 := 8

/-- `R2CP` in ASCII. -/
def r2cpMagicNumber : UInt32 := 1379025744

/-- A new serializer has no frames. -/
def new : R2CPSerializer := ⟨[]⟩

/-! ## The offset stack -/

/-- `serializingoffsetstack.push_back(offset)`, which keeps the low byte. -/
def pushOffset (offset : UInt32) : Serializer Unit :=
  modify fun s => { s with serializingOffsetStack := offset.toUInt8 :: s.serializingOffsetStack }

/-- `serializingoffsetstack.back()`, widened to 32 bits. -/
def backOffset : Serializer UInt32 := do
  match (← get).serializingOffsetStack with
  | offset :: _ => pure offset.toUInt32
  | [] => throw .undefinedBehavior

/-- `serializingoffsetstack.pop_back()`. -/
def popOffset : Serializer Unit := do
  match (← get).serializingOffsetStack with
  | _ :: stack => modify fun s => { s with serializingOffsetStack := stack }
  | [] => throw .undefinedBehavior

/-- `serializingoffsetstack.clear()`. -/
def clearOffsets : Serializer Unit :=
  modify fun s => { s with serializingOffsetStack := [] }

/-! ## Writers -/

/-- What the writers throw. -/
def noBytesLeft : StdException :=
  .outOfRange (.text "R2CP packet has no more bytes left for writing.")

/-- The four `push_back`s of a word. -/
def pushBackUInt32 (r2cpPacket : List UInt8) (value : UInt32) : List UInt8 :=
  r2cpPacket ++ [((value &&& 4278190080) >>> 24).toUInt8, ((value &&& 16711680) >>> 16).toUInt8,
    ((value &&& 65280) >>> 8).toUInt8, (value &&& 255).toUInt8]

/-- `writeuin32tor2cppacket`. -/
def writeUInt32ToR2CPPacket (r2cpPacket : List UInt8) (value : UInt32) :
    Serializer (List UInt8) := do
  let numberOfBytesInR2CPPacket := UInt32.ofNat r2cpPacket.length
  let offset ← backOffset
  popOffset
  -- the size so far, not the size that the packet is going to have
  if offset + 4 ≤ numberOfBytesInR2CPPacket then
    pushOffset (offset + 4)
    pure (pushBackUInt32 r2cpPacket value)
  else
    pushOffset offset
    throw noBytesLeft

/-- The copy loop, with `rounds` bytes to go and the next one at `i`. -/
def writeBytesLoop (writingBytes : List UInt8) :
    (rounds : Nat) → (i : UInt32) → (r2cpPacket : List UInt8) → Serializer (List UInt8)
  | 0, _, r2cpPacket => pure r2cpPacket
  | rounds + 1, i, r2cpPacket => do
    let b ← vectorAt writingBytes i.toNat
    writeBytesLoop writingBytes rounds (i + 1) (r2cpPacket ++ [b])

/-- `writebytestor2cppacket`. -/
def writeBytesToR2CPPacket (r2cpPacket writingBytes : List UInt8) : Serializer (List UInt8) := do
  let numberOfBytesInR2CPPacket := UInt32.ofNat r2cpPacket.length
  let numberOfWritingBytes := UInt32.ofNat writingBytes.length
  let offset ← backOffset
  popOffset
  if offset + numberOfWritingBytes ≤ numberOfBytesInR2CPPacket then
    -- the bytes go to the end of the vector, wherever the offset stands
    let r2cpPacket ← writeBytesLoop writingBytes numberOfWritingBytes.toNat 0 r2cpPacket
    pushOffset (offset + numberOfWritingBytes)
    pure r2cpPacket
  else
    pushOffset offset
    throw noBytesLeft

/-! ## Sizes -/

/-- `precomputecommandcontentsize`: the count, eight bytes for each parameter, and the data. -/
def precomputeCommandContentSize (commandParameters : List R2CPParameter) : UInt32 :=
  commandParameters.foldl (fun commandContentSize p => commandContentSize + p.getParameterDataSize)
    (4 + UInt32.ofNat commandParameters.length * 8)

/-- What one command adds to the packet size. The parameters are looked at as the
    loop of `serializeCommands` looks at them. -/
def precomputeCommandSize (command : R2CPCommand) : Serializer UInt32 := do
  if command.getNumberOfCommandParameters > 0 then
    if command.getNumberOfCommandParameters = 1 then
      let commandParameter ← vectorAt command.commandParameters 0
      if commandParameter.parameterCode = noParameters then
        -- direct content: the data alone, without count, code and size
        pure commandParameter.getParameterDataSize
      else
        pure (precomputeCommandContentSize command.commandParameters)
    else
      pure (precomputeCommandContentSize command.commandParameters)
  else
    pure 0

/-- The loop of `precomputer2cppacketsize` over the commands that are left. -/
def precomputeLoop : (commands : List R2CPCommand) → (r2cpPacketSize : UInt32) →
    Serializer UInt32
  | [], r2cpPacketSize => pure r2cpPacketSize
  | command :: commands, r2cpPacketSize => do
    let commandSize ← precomputeCommandSize command
    precomputeLoop commands (r2cpPacketSize + commandSize)

/-- `precomputer2cppacketsize`: the count, eight bytes for each command, and the contents. -/
def precomputeR2CPPacketSize (commands : List R2CPCommand) : Serializer UInt32 :=
  precomputeLoop commands (4 + UInt32.ofNat commands.length * 8)

/-- The local variable `r2cppacketsize` of `serializeCommands`. -/
def r2cpPacketSizeOf (commands : List R2CPCommand) : Serializer UInt32 :=
  if UInt32.ofNat commands.length > 0 then precomputeR2CPPacketSize commands else pure 0

/-! ## Commands -/

/-- The loop over the parameters that are left. -/
def serializeParameterLoop : (commandParameters : List R2CPParameter) →
    (commandContent : List UInt8) → Serializer (List UInt8)
  | [], commandContent => pure commandContent
  | p :: commandParameters, commandContent => do
    let commandContent ← writeUInt32ToR2CPPacket commandContent p.parameterCode
    let commandContent ← writeUInt32ToR2CPPacket commandContent p.getParameterDataSize
    let commandContent ← writeBytesToR2CPPacket commandContent p.parameterData
    serializeParameterLoop commandParameters commandContent

/-- The vector starts with as many zeros as the content is going to have, and the
    writers append behind them. -/
def serializeParameterizedCommandContent (commandParameters : List R2CPParameter) :
    Serializer (List UInt8) := do
  let commandContentSize := precomputeCommandContentSize commandParameters
  pushOffset 0
  let commandContent ←
    serializeParameterLoop commandParameters (List.replicate commandContentSize.toNat 0)
  popOffset
  pure commandContent

/-- The record of a command with the given content. -/
def serializeRecord (r2cpPacket : List UInt8) (commandCode : UInt32)
    (commandContent : List UInt8) : Serializer (List UInt8) := do
  let r2cpPacket ← writeUInt32ToR2CPPacket r2cpPacket commandCode
  let r2cpPacket ← writeUInt32ToR2CPPacket r2cpPacket (UInt32.ofNat commandContent.length)
  writeBytesToR2CPPacket r2cpPacket commandContent

/-- One round of the loop over the commands. -/
def serializeCommand (r2cpPacket : List UInt8) (command : R2CPCommand) :
    Serializer (List UInt8) := do
  if command.getNumberOfCommandParameters > 0 then
    if command.getNumberOfCommandParameters = 1 then
      let commandParameter ← vectorAt command.commandParameters 0
      if commandParameter.parameterCode = noParameters then
        serializeRecord r2cpPacket command.commandCode commandParameter.parameterData
      else
        let commandContent ← serializeParameterizedCommandContent command.commandParameters
        serializeRecord r2cpPacket command.commandCode commandContent
    else
      let commandContent ← serializeParameterizedCommandContent command.commandParameters
      serializeRecord r2cpPacket command.commandCode commandContent
  else
    -- no content: code and size only
    let r2cpPacket ← writeUInt32ToR2CPPacket r2cpPacket command.commandCode
    writeUInt32ToR2CPPacket r2cpPacket 0

/-- The loop over the commands that are left. -/
def serializeCommandLoop : (commands : List R2CPCommand) → (r2cpPacket : List UInt8) →
    Serializer (List UInt8)
  | [], r2cpPacket => pure r2cpPacket
  | command :: commands, r2cpPacket => do
    let r2cpPacket ← serializeCommand r2cpPacket command
    serializeCommandLoop commands r2cpPacket

/-- The size word and, if there are commands, their count. -/
def serializeSizes (r2cpPacket : List UInt8) (r2cpPacketSize commandsCount : UInt32) :
    Serializer (List UInt8) := do
  if commandsCount > 0 then
    let r2cpPacket ← writeUInt32ToR2CPPacket r2cpPacket r2cpPacketSize
    writeUInt32ToR2CPPacket r2cpPacket commandsCount
  else
    writeUInt32ToR2CPPacket r2cpPacket 0

/-- The source also adds the packet size to `numberofbytesinr2cppacket`, which nothing
    reads: the packet starts as an empty vector. -/
def serializeCommands (commands : List R2CPCommand) : Serializer (List UInt8) := do
  let commandsCount := UInt32.ofNat commands.length
  pushOffset 0
  let r2cpPacketSize ← r2cpPacketSizeOf commands
  -- the vector is empty here, so the first guard compares 4 with 0
  let r2cpPacket ← writeUInt32ToR2CPPacket [] r2cpMagicNumber
  let r2cpPacket ← serializeSizes r2cpPacket r2cpPacketSize commandsCount
  let r2cpPacket ← serializeCommandLoop commands r2cpPacket
  clearOffsets
  pure r2cpPacket

end R2CPSerializer

end R2CP
