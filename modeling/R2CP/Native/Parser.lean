import R2CP.Native.Logger
import R2CP.Native.Command

/-!
# Packet parser

`R2CPParser` walks over a packet with a stack of 32-bit offsets, one frame for
each byte vector that is being read; the head of `parsingOffsetStack` is the
back of the C++ vector. A packet is walked twice: `validateR2CPPacket` checks
its structure and `parseR2CPPacket` then reads the commands.

Offsets, counts and sizes are `uint32_t` and wrap. A loop of `n` rounds is a
recursion on the rounds left. The readers take the frame off the stack before
they read and put it back after, so a failing `std::vector::at` in between
leaves the stack one frame short.
-/

namespace R2CP

/-- The parser object together with the log it writes to. -/
structure R2CPParser where
  parsingOffsetStack : List UInt32
  log : List LogEntry
  deriving DecidableEq, Repr

namespace R2CPParser

/-- A member function of the parser. -/
abbrev Parser := StatefulExcept StdException R2CPParser

/-- `MINR2CPPACKETSIZE`: magic number and size. -/
def minR2CPPacketSize : UInt32 := 8

/-- `R2CP` in ASCII. -/
def r2cpMagicNumber : UInt32 := 1379025744

/-- `RRCP` in ASCII. -/
def rrcpMagicNumber : UInt32 := 1381122896

/-- A new parser has no frames. -/
def new : R2CPParser := ⟨[], []⟩

/-! ## The offset stack -/

/-- `parsingoffsetstack.push_back(offset)`. -/
def pushOffset (offset : UInt32) : Parser Unit :=
  modify fun s => { s with parsingOffsetStack := offset :: s.parsingOffsetStack }

/-- `parsingoffsetstack.back()`. -/
def backOffset : Parser UInt32 := do
  match (← get).parsingOffsetStack with
  | offset :: _ => pure offset
  | [] => throw .undefinedBehavior

/-- `parsingoffsetstack.pop_back()`. -/
def popOffset : Parser Unit := do
  match (← get).parsingOffsetStack with
  | _ :: stack => modify fun s => { s with parsingOffsetStack := stack }
  | [] => throw .undefinedBehavior

/-- `parsingoffsetstack.clear()`. -/
def clearOffsets : Parser Unit :=
  modify fun s => { s with parsingOffsetStack := [] }

/-! ## Log calls -/

/-- An entry in the log. -/
def writeLog (entry : LogEntry) : Parser Unit :=
  modify fun s => { s with log := s.log ++ [entry] }

/-- `Logger::logerror` with a format. -/
def logError (format : String) (arguments : List LogArgument) : Parser Unit :=
  writeLog (.formatted .error format arguments)

/-- `Logger::logwarning` with a format. -/
def logWarning (format : String) (arguments : List LogArgument) : Parser Unit :=
  writeLog (.formatted .warning format arguments)

/-! ## Readers -/

/-- What the readers throw. -/
def noBytesLeft : StdException :=
  .outOfRange (.text "R2CP packet has no more bytes left to read.")

/-- `readr2cppacketasuint32`: the word at the top offset, if it is in the packet. -/
def readR2CPPacketAsUInt32 (r2cpPacket : List UInt8) : Parser UInt32 := do
  let numberOfBytesInR2CPPacket := UInt32.ofNat r2cpPacket.length
  let offset ← backOffset
  popOffset
  -- a sum that wraps passes this test, and `at` is the one that notices
  if offset + 4 ≤ numberOfBytesInR2CPPacket then
    let b₀ ← vectorAt r2cpPacket offset.toNat
    let b₁ ← vectorAt r2cpPacket (offset + 1).toNat
    let b₂ ← vectorAt r2cpPacket (offset + 2).toNat
    let b₃ ← vectorAt r2cpPacket (offset + 3).toNat
    pushOffset (offset + 4)
    pure (b₀.toUInt32 <<< 24 ||| b₁.toUInt32 <<< 16 ||| b₂.toUInt32 <<< 8 ||| b₃.toUInt32)
  else
    pushOffset offset
    throw noBytesLeft

/-- The copy loop: `rounds` more bytes, the next one at `offset + i`. -/
def readBytesLoop (r2cpPacket : List UInt8) (offset : UInt32) :
    (rounds : Nat) → (i : UInt32) → (readR2CPBytes : List UInt8) → Parser (List UInt8)
  | 0, _, readR2CPBytes => pure readR2CPBytes
  | rounds + 1, i, readR2CPBytes => do
    let b ← vectorAt r2cpPacket (offset + i).toNat
    readBytesLoop r2cpPacket offset rounds (i + 1) (readR2CPBytes ++ [b])

/-- `readbytesfromr2cppacket`: as many bytes from the top offset on. -/
def readBytesFromR2CPPacket (r2cpPacket : List UInt8) (numberOfBytesToRead : UInt32) :
    Parser (List UInt8) := do
  let numberOfBytesInR2CPPacket := UInt32.ofNat r2cpPacket.length
  let offset ← backOffset
  popOffset
  -- the same test as for a word, and it wraps in the same way
  if offset + numberOfBytesToRead ≤ numberOfBytesInR2CPPacket then
    let readR2CPBytes ← readBytesLoop r2cpPacket offset numberOfBytesToRead.toNat 0 []
    pushOffset (offset + numberOfBytesToRead)
    pure readR2CPBytes
  else
    pushOffset offset
    throw noBytesLeft

/-- No bounds check: the next reader finds out. -/
def skipBytesFromR2CPPacket (numberOfBytesToSkip : UInt32) : Parser Unit := do
  let offset ← backOffset
  popOffset
  pushOffset (offset + numberOfBytesToSkip)

/-- `checkifr2cppacketendisreached`: no more and no less than the end. -/
def checkIfR2CPPacketEndIsReached (r2cpPacket : List UInt8) : Parser Bool := do
  let offset ← backOffset
  pure (offset == UInt32.ofNat r2cpPacket.length)

/-! ## Validation -/

/-- The text that both handlers in `validateParameterizedCommandContent` log. -/
def logInvalidParameterizedContent (what : What) : Parser Unit :=
  logError "Error in validating R2CP packet. Content of parameterized command is invalid. %s"
    [.cstring what]

/-- One round of the loop over the parameters. -/
def validateParameter (commandContent : List UInt8) : Parser Bool :=
  tryCatch
    (do
      -- the parameter code: only its four bytes matter here
      skipBytesFromR2CPPacket 4
      let parameterSize ← readR2CPPacketAsUInt32 commandContent
      -- the parameter data: only its bytes matter here
      skipBytesFromR2CPPacket parameterSize
      pure true)
    (StdException.onOutOfRange fun what => do
      logInvalidParameterizedContent what
      pure false)

/-- The loop over the parameters, with `rounds` of them to go. -/
def validateParameterLoop (commandContent : List UInt8) : (rounds : Nat) → Parser Bool
  | 0 => pure true
  | rounds + 1 => do
    let isR2CPPacketValid ← validateParameter commandContent
    if isR2CPPacketValid then validateParameterLoop commandContent rounds else pure false

/-- `parameterscount`, or nothing when it cannot be read and stays unset. -/
def readParametersCount? (commandContent : List UInt8) : Parser (Option UInt32) :=
  tryCatch
    (do
      let parametersCount ← readR2CPPacketAsUInt32 commandContent
      pure (some parametersCount))
    (StdException.onOutOfRange fun what => do
      logInvalidParameterizedContent what
      pure none)

/-- With `parameterscount` unset the loop makes no round, because `isr2cppacketvalid`
    is false whatever the other conjunct of its condition says. -/
def validateParameterizedCommandContent (commandContent : List UInt8) : Parser Bool := do
  pushOffset 0
  let parametersCount? ← readParametersCount? commandContent
  let isR2CPPacketValid ← match parametersCount? with
    | some parametersCount => validateParameterLoop commandContent parametersCount.toNat
    | none => pure false
  -- a wrapped offset can be at the end as well
  let isEndReached ←
    if isR2CPPacketValid then checkIfR2CPPacketEndIsReached commandContent else pure false
  popOffset
  pure isEndReached

/-- `validatecommandcontent`: what the content may be depends on the command code. -/
def validateCommandContent (commandCode : UInt32) (commandContent : List UInt8) : Parser Bool :=
  match R2CPCommandDictionary.getInstance.getCommandContentType commandCode with
  | .parameterizedContent => validateParameterizedCommandContent commandContent
  | .noContent => pure (UInt32.ofNat commandContent.length == 0)
  | .directContent => pure true

/-- The loop over the commands, with `rounds` of them to go. The result is the
    negation of `iscommandcontentvalidationfailed`. -/
def validateCommandLoop (r2cpPacketCommands : List UInt8) : (rounds : Nat) → Parser Bool
  | 0 => pure true
  | rounds + 1 => do
    let commandCode ← readR2CPPacketAsUInt32 r2cpPacketCommands
    let commandSize ← readR2CPPacketAsUInt32 r2cpPacketCommands
    let commandContent ← readBytesFromR2CPPacket r2cpPacketCommands commandSize
    let isCommandContentValid ← validateCommandContent commandCode commandContent
    if isCommandContentValid then validateCommandLoop r2cpPacketCommands rounds else pure false

/-- `validatecommandsfromr2cppacket`: the count, the records, and nothing behind them. -/
def validateCommandsFromR2CPPacket (r2cpPacketCommands : List UInt8) : Parser Bool := do
  pushOffset 0
  let isR2CPPacketValid ← tryCatch
    (do
      let commandsCount ← readR2CPPacketAsUInt32 r2cpPacketCommands
      -- bytes behind the last record make the packet invalid too
      let isValid ← validateCommandLoop r2cpPacketCommands commandsCount.toNat
      if isValid then checkIfR2CPPacketEndIsReached r2cpPacketCommands else pure false)
    (StdException.onOutOfRange fun what => do
      logError ("Error in validating R2CP packet. " ++
        "Command sizes inside R2CP packet go beyond the R2CP packet size. %s") [.cstring what]
      pure false)
  popOffset
  pure isR2CPPacketValid

/-- The checks behind a known magic number: the packet size, and the commands if there
    are any. -/
def validatePacketSize (r2cpPacket : List UInt8) : Parser Bool := do
  let numberOfBytesInR2CPPacket := UInt32.ofNat r2cpPacket.length
  let r2cpPacketSize ← readR2CPPacketAsUInt32 r2cpPacket
  if numberOfBytesInR2CPPacket = minR2CPPacketSize + r2cpPacketSize then
    if r2cpPacketSize = 0 then
      -- the header-only packet is valid without a count word
      pure true
    else
      let r2cpPacketCommands ← readBytesFromR2CPPacket r2cpPacket r2cpPacketSize
      validateCommandsFromR2CPPacket r2cpPacketCommands
  else
    logError ("Error in validating R2CP packet. " ++
      "R2CP packet size (%u) + 8 (bytes containing magic number and R2CP packet isz itself) " ++
      "don't match total number of bytes in R2CP packet. (%u)")
      [.uint32 r2cpPacketSize, .uint32 numberOfBytesInR2CPPacket]
    pure false

/-- The checks between the first `push_back` and the final `clear()`. -/
def validateHeader (r2cpPacket : List UInt8) : Parser Bool := do
  let numberOfBytesInR2CPPacket := UInt32.ofNat r2cpPacket.length
  if minR2CPPacketSize ≤ numberOfBytesInR2CPPacket then
    let magicNumber ← readR2CPPacketAsUInt32 r2cpPacket
    if magicNumber = r2cpMagicNumber ∨ magicNumber = rrcpMagicNumber then
      validatePacketSize r2cpPacket
    else
      logError ("Error in validating R2CP packet. " ++
        "Invalid magic number (%u). " ++
        "Magic number should be either %u or %u.")
        [.uint32 magicNumber, .uint32 r2cpMagicNumber, .uint32 rrcpMagicNumber]
      pure false
  else
    logError ("Error in validating R2CP packet. " ++
      "Packet size is less than minimum valid R2CP packet size (%u)") [.uint32 minR2CPPacketSize]
    pure false

/-- `validater2cppacket`. -/
def validateR2CPPacket (r2cpPacket : List UInt8) : Parser Bool := do
  pushOffset 0
  let isR2CPPacketValid ← validateHeader r2cpPacket
  -- whatever frames are left, also those from before the call
  clearOffsets
  pure isR2CPPacketValid

/-! ## Parsing -/

/-- The loop over the parameters, with `rounds` of them to go. The second component
    is the code that ended the loop early, when `isinvalidparameterparsed` is set. -/
def parseParameterLoop (commandContent : List UInt8) (parameterCodes : Std.TreeSet UInt32) :
    (rounds : Nat) → (parameters : List R2CPParameter) →
      Parser (List R2CPParameter × Option UInt32)
  | 0, parameters => pure (parameters, none)
  | rounds + 1, parameters => do
    let parameterCode ← readR2CPPacketAsUInt32 commandContent
    if parameterCodes.contains parameterCode then
      let parameterSize ← readR2CPPacketAsUInt32 commandContent
      let parameterData ← readBytesFromR2CPPacket commandContent parameterSize
      parseParameterLoop commandContent parameterCodes rounds
        (parameters ++ [⟨parameterCode, parameterData⟩])
    else
      -- size and data of the faulty parameter stay unread
      pure (parameters, some parameterCode)

/-- The text of the exception for a parameter code that the command does not take. -/
def invalidParameterText (parameterCode commandCode : UInt32) : String :=
  "Error while parsing parameterized command content. " ++
    "Parameter code " ++ toString parameterCode.toNat ++
    " is not defined for command code " ++ toString commandCode.toNat ++ "."

/-- `parseparameterizedcommandcontent`: the first foreign parameter code makes the whole content
    invalid. -/
def parseParameterizedCommandContent (commandCode : UInt32) (commandContent : List UInt8) :
    Parser (List R2CPParameter) := do
  pushOffset 0
  let parametersCount ← readR2CPPacketAsUInt32 commandContent
  let commandCodeParameterCodes :=
    R2CPCommandDictionary.getInstance.getCommandParameters commandCode
  let (parameters, invalidParameterParsed) ←
    parseParameterLoop commandContent commandCodeParameterCodes parametersCount.toNat []
  -- the frame goes before the throw, so the caller's offset is the top again
  popOffset
  match invalidParameterParsed with
  | some parameterCode =>
    throw (.invalidArgument (.text (invalidParameterText parameterCode commandCode)))
  | none => pure parameters

/-- The handler around the parameterized content throws a copy of what it caught. -/
def parseCommandContent (commandCode : UInt32) (commandContent : List UInt8) :
    Parser (List R2CPParameter) :=
  match R2CPCommandDictionary.getInstance.getCommandContentType commandCode with
  | .directContent => pure [⟨noParameters, commandContent⟩]
  | .parameterizedContent =>
    tryCatch (parseParameterizedCommandContent commandCode commandContent)
      (StdException.onInvalidArgument fun what => throw (.invalidArgument what))
  | .noContent => pure []

/-- One parsed record: the command, or nothing when its content is discarded. -/
def parseCommand (commandCode : UInt32) (commandContent : List UInt8) :
    Parser (Option R2CPCommand) :=
  tryCatch
    (do
      let parameters ← parseCommandContent commandCode commandContent
      pure (some ⟨commandCode, parameters⟩))
    (StdException.onInvalidArgument fun what => do
      logError ("%s. " ++ "Error parsing command content of command code: %u. " ++
        "Faulty command discarded.") [.cstring what, .uint32 commandCode]
      pure none)

/-- The loop over the commands, with `rounds` of them to go. -/
def parseCommandLoop (r2cpPacket : List UInt8) :
    (rounds : Nat) → (commands : List R2CPCommand) → Parser (List R2CPCommand)
  | 0, commands => pure commands
  | rounds + 1, commands => do
    let commandCode ← readR2CPPacketAsUInt32 r2cpPacket
    let commandSize ← readR2CPPacketAsUInt32 r2cpPacket
    if R2CPCommandDictionary.getInstance.checkIfValidCommand commandCode = false then
      -- skipped, not read: the validator has seen that the bytes are there
      skipBytesFromR2CPPacket commandSize
      logWarning "Invalid command code detected: %u. Faulty command parsing has been skipped."
        [.uint32 commandCode]
      parseCommandLoop r2cpPacket rounds commands
    else
      let commandContent ← readBytesFromR2CPPacket r2cpPacket commandSize
      let parsedCommand ← parseCommand commandCode commandContent
      parseCommandLoop r2cpPacket rounds (commands ++ parsedCommand.toList)

/-- What a packet is answered with that the validator refuses. -/
def parsingFailed : StdException :=
  .invalidArgument (.text "Parsing failed. Invalid R2CP packet.")

/-- `parser2cppacket`: validate, then read. -/
def parseR2CPPacket (r2cpPacket : List UInt8) : Parser (List R2CPCommand) := do
  let isR2CPPacketValid ← validateR2CPPacket r2cpPacket
  if isR2CPPacketValid then
    pushOffset 0
    -- magic number and size were checked; the count word need not be there
    skipBytesFromR2CPPacket minR2CPPacketSize
    let commandsCount ← readR2CPPacketAsUInt32 r2cpPacket
    let commands ← parseCommandLoop r2cpPacket commandsCount.toNat []
    clearOffsets
    pure commands
  else
    throw parsingFailed

end R2CPParser

end R2CP
