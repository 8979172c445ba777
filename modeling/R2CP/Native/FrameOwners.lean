import R2CP.Native.Parser

/-!
# The validator with the owners of its frames

The same functions as in `Native/Parser.lean`, over frames that know the call which
has pushed them. `activation` is one call of a function with a frame of its own: it is
running until it returns or throws. Every `back()` and `pop_back()` is recorded.
-/

namespace R2CP

/-- A frame of `parsingoffsetstack`, and the call that it belongs to. -/
structure Frame where
  owner : Nat
  offset : UInt32
  deriving DecidableEq, Repr

/-- A `back()` or a `pop_back()`: the owner of the frame at the top, if there is a frame,
    and for `back()` the calls that are running. -/
inductive FrameAccess where
  | back (owner? : Option Nat) (running : List Nat)
  | popBack (owner? : Option Nat)
  deriving DecidableEq, Repr

/-- The parser's state with owners, the innermost frame and call first. -/
structure OwnedParser where
  frames : List Frame
  log : List LogEntry
  running : List Nat
  nextActivation : Nat
  accesses : List FrameAccess

/-- Parser functions with owners. -/
abbrev Owned (α : Type) := StatefulExcept StdException OwnedParser α

namespace OwnedParser

/-- The parser's state without owners. -/
def erase (g : OwnedParser) : R2CPParser := ⟨g.frames.map Frame.offset, g.log⟩

/-- A state between calls: all frames are from call 0, which is not running. -/
def beforeCall (s : R2CPParser) : OwnedParser :=
  ⟨s.parsingOffsetStack.map (⟨0, ·⟩), s.log, [], 1, []⟩

/-- The owner of the frame at the top. -/
def topOwner? (g : OwnedParser) : Option Nat := g.frames.head?.map Frame.owner

/-! ## The offset stack -/

/-- `parsingoffsetstack.push_back`. -/
def pushFrame (frame : Frame) : Owned Unit :=
  modify fun g => { g with frames := frame :: g.frames }

/-- `parsingoffsetstack.back()`, recorded with the calls that are running. -/
def backFrame : Owned Frame := do
  modify fun g => { g with accesses := g.accesses ++ [.back g.topOwner? g.running] }
  match (← get).frames with
  | frame :: _ => pure frame
  | [] => throw .undefinedBehavior

/-- `parsingoffsetstack.pop_back()`, recorded. -/
def popFrame : Owned Unit := do
  modify fun g => { g with accesses := g.accesses ++ [.popBack g.topOwner?] }
  match (← get).frames with
  | _ :: frames => modify fun g => { g with frames := frames }
  | [] => throw .undefinedBehavior

/-- `parsingoffsetstack.clear()`, which asks for no frame. -/
def clearFrames : Owned Unit :=
  modify fun g => { g with frames := [] }

/-- A call begins: it gets the next number. -/
def enter (g : OwnedParser) : OwnedParser :=
  { g with running := g.nextActivation :: g.running, nextActivation := g.nextActivation + 1 }

/-- A call ends. -/
def leave (owner : Nat) (g : OwnedParser) : OwnedParser :=
  { g with running := g.running.erase owner }

/-- One call of a function that pushes a frame of its own, until it returns or throws. -/
def activation {α : Type} (body : (owner : Nat) → Owned α) : Owned α :=
  fun g =>
    let (r, g') := StatefulExcept.exec (body g.nextActivation) g.enter
    (r, g'.leave g.nextActivation)

/-- A call runs its body under the next number, and is then over. -/
theorem exec_activation {α : Type} (body : (owner : Nat) → Owned α) (g : OwnedParser) :
    StatefulExcept.exec (activation body) g =
      ((StatefulExcept.exec (body g.nextActivation) g.enter).1,
        (StatefulExcept.exec (body g.nextActivation) g.enter).2.leave g.nextActivation) := rfl

/-- An entry in the log of the parser. -/
def writeLog (entry : LogEntry) : Owned Unit :=
  modify fun g => { g with log := g.log ++ [entry] }

/-- `Logger::logerror` with a format. -/
def logError (format : String) (arguments : List LogArgument) : Owned Unit :=
  writeLog (.formatted .error format arguments)

/-! ## Readers

The frame that a reader pushes is that of the caller, moved on. -/

/-- `readr2cppacketasuint32`. -/
def readR2CPPacketAsUInt32 (r2cpPacket : List UInt8) : Owned UInt32 := do
  let numberOfBytesInR2CPPacket := UInt32.ofNat r2cpPacket.length
  let ⟨owner, offset⟩ ← backFrame
  popFrame
  if offset + 4 ≤ numberOfBytesInR2CPPacket then
    let b₀ ← vectorAt r2cpPacket offset.toNat
    let b₁ ← vectorAt r2cpPacket (offset + 1).toNat
    let b₂ ← vectorAt r2cpPacket (offset + 2).toNat
    let b₃ ← vectorAt r2cpPacket (offset + 3).toNat
    pushFrame ⟨owner, offset + 4⟩
    pure (b₀.toUInt32 <<< 24 ||| b₁.toUInt32 <<< 16 ||| b₂.toUInt32 <<< 8 ||| b₃.toUInt32)
  else
    -- the frame goes back where it was, and then the exception
    pushFrame ⟨owner, offset⟩
    throw R2CPParser.noBytesLeft

/-- The copy loop, which has nothing to do with frames. -/
def readBytesLoop (r2cpPacket : List UInt8) (offset : UInt32) :
    (rounds : Nat) → (i : UInt32) → (readR2CPBytes : List UInt8) → Owned (List UInt8)
  | 0, _, readR2CPBytes => pure readR2CPBytes
  | rounds + 1, i, readR2CPBytes => do
    let b ← vectorAt r2cpPacket (offset + i).toNat
    readBytesLoop r2cpPacket offset rounds (i + 1) (readR2CPBytes ++ [b])

/-- `readbytesfromr2cppacket`. -/
def readBytesFromR2CPPacket (r2cpPacket : List UInt8) (numberOfBytesToRead : UInt32) :
    Owned (List UInt8) := do
  let numberOfBytesInR2CPPacket := UInt32.ofNat r2cpPacket.length
  let ⟨owner, offset⟩ ← backFrame
  popFrame
  if offset + numberOfBytesToRead ≤ numberOfBytesInR2CPPacket then
    let readR2CPBytes ← readBytesLoop r2cpPacket offset numberOfBytesToRead.toNat 0 []
    pushFrame ⟨owner, offset + numberOfBytesToRead⟩
    pure readR2CPBytes
  else
    -- as for a word
    pushFrame ⟨owner, offset⟩
    throw R2CPParser.noBytesLeft

/-- `skipbytesfromr2cppacket`. -/
def skipBytesFromR2CPPacket (numberOfBytesToSkip : UInt32) : Owned Unit := do
  let ⟨owner, offset⟩ ← backFrame
  popFrame
  pushFrame ⟨owner, offset + numberOfBytesToSkip⟩

/-- `checkifr2cppacketendisreached` looks at the top and leaves it there. -/
def checkIfR2CPPacketEndIsReached (r2cpPacket : List UInt8) : Owned Bool := do
  let ⟨_, offset⟩ ← backFrame
  pure (offset == UInt32.ofNat r2cpPacket.length)

/-! ## Validation -/

/-- The text of both handlers. -/
def logInvalidParameterizedContent (what : What) : Owned Unit :=
  logError "Error in validating R2CP packet. Content of parameterized command is invalid. %s"
    [.cstring what]

/-- One round of the loop over the parameters. -/
def validateParameter (commandContent : List UInt8) : Owned Bool :=
  tryCatch
    (do
      skipBytesFromR2CPPacket 4
      let parameterSize ← readR2CPPacketAsUInt32 commandContent
      skipBytesFromR2CPPacket parameterSize
      pure true)
    (StdException.onOutOfRange fun what => do
      logInvalidParameterizedContent what
      pure false)

/-- The loop over the parameters. -/
def validateParameterLoop (commandContent : List UInt8) : (rounds : Nat) → Owned Bool
  | 0 => pure true
  | rounds + 1 => do
    let isR2CPPacketValid ← validateParameter commandContent
    if isR2CPPacketValid then validateParameterLoop commandContent rounds else pure false

/-- `parameterscount`, if it can be read. -/
def readParametersCount? (commandContent : List UInt8) : Owned (Option UInt32) :=
  tryCatch
    (do
      let parametersCount ← readR2CPPacketAsUInt32 commandContent
      pure (some parametersCount))
    (StdException.onOutOfRange fun what => do
      logInvalidParameterizedContent what
      pure none)

/-- `validateparameterizedcommandcontent` between its `push_back` and its `pop_back`. -/
def validateParameters (commandContent : List UInt8) : Owned Bool := do
  match ← readParametersCount? commandContent with
  | some parametersCount =>
    let isR2CPPacketValid ← validateParameterLoop commandContent parametersCount.toNat
    if isR2CPPacketValid then checkIfR2CPPacketEndIsReached commandContent else pure false
  | none => pure false

/-- A call with a frame from its first to its last line. -/
def withFrame (body : Owned Bool) : Owned Bool :=
  activation fun owner => do
    pushFrame ⟨owner, 0⟩
    -- an exception from here leaves the frame on the stack
    let isValid ← body
    popFrame
    pure isValid

/-- `validateparameterizedcommandcontent` has a frame of its own. -/
def validateParameterizedCommandContent (commandContent : List UInt8) : Owned Bool :=
  withFrame (validateParameters commandContent)

/-- `validatecommandcontent`. -/
def validateCommandContent (commandCode : UInt32) (commandContent : List UInt8) : Owned Bool :=
  match R2CPCommandDictionary.getInstance.getCommandContentType commandCode with
  | .parameterizedContent => validateParameterizedCommandContent commandContent
  | .noContent => pure (UInt32.ofNat commandContent.length == 0)
  | .directContent => pure true

/-- The loop over the commands. -/
def validateCommandLoop (r2cpPacketCommands : List UInt8) : (rounds : Nat) → Owned Bool
  | 0 => pure true
  | rounds + 1 => do
    let commandCode ← readR2CPPacketAsUInt32 r2cpPacketCommands
    let commandSize ← readR2CPPacketAsUInt32 r2cpPacketCommands
    let commandContent ← readBytesFromR2CPPacket r2cpPacketCommands commandSize
    let isCommandContentValid ← validateCommandContent commandCode commandContent
    if isCommandContentValid then validateCommandLoop r2cpPacketCommands rounds else pure false

/-- The `try` block of `validatecommandsfromr2cppacket`. -/
def validateCommands (r2cpPacketCommands : List UInt8) : Owned Bool :=
  tryCatch
    (do
      let commandsCount ← readR2CPPacketAsUInt32 r2cpPacketCommands
      let isValid ← validateCommandLoop r2cpPacketCommands commandsCount.toNat
      if isValid then checkIfR2CPPacketEndIsReached r2cpPacketCommands else pure false)
    (StdException.onOutOfRange fun what => do
      logError ("Error in validating R2CP packet. " ++
        "Command sizes inside R2CP packet go beyond the R2CP packet size. %s") [.cstring what]
      pure false)

/-- `validatecommandsfromr2cppacket` has a frame of its own as well. -/
def validateCommandsFromR2CPPacket (r2cpPacketCommands : List UInt8) : Owned Bool :=
  withFrame (validateCommands r2cpPacketCommands)

/-- The checks behind a known magic number. -/
def validatePacketSize (r2cpPacket : List UInt8) : Owned Bool := do
  let numberOfBytesInR2CPPacket := UInt32.ofNat r2cpPacket.length
  let r2cpPacketSize ← readR2CPPacketAsUInt32 r2cpPacket
  if numberOfBytesInR2CPPacket = R2CPParser.minR2CPPacketSize + r2cpPacketSize then
    if r2cpPacketSize = 0 then
      pure true
    else
      let r2cpPacketCommands ← readBytesFromR2CPPacket r2cpPacket r2cpPacketSize
      validateCommandsFromR2CPPacket r2cpPacketCommands
  else
    logError ("Error in validating R2CP packet. " ++
      "R2CP packet size (%u) + 8 (bytes containing magic number and R2CP packet isz itself) " ++
      "don't match total number of bytes in R2CP packet. (%u)")
      [.uint32 r2cpPacketSize, .uint32 numberOfBytesInR2CPPacket]
    pure false

/-- The checks between the first `push_back` and `clear()`. -/
def validateHeader (r2cpPacket : List UInt8) : Owned Bool := do
  let numberOfBytesInR2CPPacket := UInt32.ofNat r2cpPacket.length
  if R2CPParser.minR2CPPacketSize ≤ numberOfBytesInR2CPPacket then
    let magicNumber ← readR2CPPacketAsUInt32 r2cpPacket
    if magicNumber = R2CPParser.r2cpMagicNumber ∨ magicNumber = R2CPParser.rrcpMagicNumber then
      validatePacketSize r2cpPacket
    else
      logError ("Error in validating R2CP packet. " ++
        "Invalid magic number (%u). " ++
        "Magic number should be either %u or %u.")
        [.uint32 magicNumber, .uint32 R2CPParser.r2cpMagicNumber,
          .uint32 R2CPParser.rrcpMagicNumber]
      pure false
  else
    logError ("Error in validating R2CP packet. " ++
      "Packet size is less than minimum valid R2CP packet size (%u)")
      [.uint32 R2CPParser.minR2CPPacketSize]
    pure false

/-- `validater2cppacket`, whose frame goes with all others in `clear()`. -/
def validateR2CPPacket (r2cpPacket : List UInt8) : Owned Bool :=
  activation fun owner => do
    pushFrame ⟨owner, 0⟩
    let isR2CPPacketValid ← validateHeader r2cpPacket
    -- not a `pop_back`: frames of earlier calls go too
    clearFrames
    pure isR2CPPacketValid

end OwnedParser

end R2CP
