import Mathlib

/-!
# Command dictionary

The built-in command and parameter codes and the singleton `R2CPCommandDictionary`:
which command codes are known, which parameter codes each of them takes, and
what kind of content it has. `std::set` and `std::map` are `Std.TreeSet` and
`Std.TreeMap`, ordered by key.
-/

open Std (TreeMap TreeSet)

namespace R2CP

/-! ## Built-in commands -/

def motorPWMEnable : UInt32 := 1
def motorPWMDisable : UInt32 := 2
def motorIdle : UInt32 := 3
def motorDutyCycle : UInt32 := 4
def imageSend : UInt32 := 5
def imageReceive : UInt32 := 6
def robotShutdown : UInt32 := 7
def printMessage : UInt32 := 8
def invalidCommand : UInt32 := 9

/-! ## Built-in parameters -/

def noParameters : UInt32 := 0
def motorRight : UInt32 := 1
def motorLeft : UInt32 := 2
def imageWidth : UInt32 := 3
def imageHeight : UInt32 := 4
def imageChannels : UInt32 := 5
def imageData : UInt32 := 6
def imageBMP : UInt32 := 7
def imagePNG : UInt32 := 8
def imageJPEG : UInt32 := 9
def imageGIF : UInt32 := 10
def invalidParameter : UInt32 := 11

/-- Command content types (command specific): the values 0, 1 and 2. -/
inductive R2CPCommandContentType where
  | noContent
  | directContent
  | parameterizedContent
  deriving DecidableEq, Repr

/-- The members of the singleton that its getters read. -/
structure R2CPCommandDictionary where
  commandsSet : TreeSet UInt32
  commandParametersMap : TreeMap UInt32 (TreeSet UInt32)
  commandContentTypeMap : TreeMap UInt32 R2CPCommandContentType

namespace R2CPCommandDictionary

/-- `commandsset`, in insertion order. -/
def commandsSetInit : TreeSet UInt32 :=
  (∅ : TreeSet UInt32)
    |>.insert motorPWMEnable
    |>.insert motorPWMDisable
    |>.insert motorIdle
    |>.insert motorDutyCycle
    |>.insert imageSend
    |>.insert imageReceive
    |>.insert robotShutdown
    |>.insert printMessage
    |>.insert invalidCommand

/-- `noparametersset`: the one code for no parameter. -/
def noParametersSet : TreeSet UInt32 := (∅ : TreeSet UInt32).insert noParameters

/-- `invalidparametersset`. -/
def invalidParametersSet : TreeSet UInt32 := (∅ : TreeSet UInt32).insert invalidParameter

/-- `motordutycycleparametersset`. The constructor inserts the image parameters here
    as well (not into `imageparametersset`, which stays empty and unused), all of
    them but `imageHeight`. -/
def motorDutyCycleParametersSet : TreeSet UInt32 :=
  (∅ : TreeSet UInt32)
    |>.insert motorRight
    |>.insert motorLeft
    |>.insert imageWidth
    |>.insert imageChannels
    |>.insert imageData
    |>.insert imageBMP
    |>.insert imagePNG
    |>.insert imageJPEG
    |>.insert imageGIF

/-- `getinstance`: the dictionary that the constructor builds. -/
def getInstance : R2CPCommandDictionary where
  commandsSet := commandsSetInit
  commandParametersMap :=
    (∅ : TreeMap UInt32 (TreeSet UInt32))
      |>.insert motorPWMEnable noParametersSet
      |>.insert motorPWMDisable noParametersSet
      |>.insert motorIdle noParametersSet
      |>.insert motorDutyCycle motorDutyCycleParametersSet
      |>.insert imageSend motorDutyCycleParametersSet
      |>.insert imageReceive motorDutyCycleParametersSet
      |>.insert robotShutdown noParametersSet
      |>.insert printMessage noParametersSet
      |>.insert invalidCommand invalidParametersSet
  commandContentTypeMap :=
    (∅ : TreeMap UInt32 R2CPCommandContentType)
      |>.insert motorPWMEnable .noContent
      |>.insert motorPWMDisable .noContent
      |>.insert motorIdle .noContent
      |>.insert motorDutyCycle .parameterizedContent
      |>.insert imageSend .parameterizedContent
      |>.insert imageReceive .parameterizedContent
      |>.insert robotShutdown .noContent
      |>.insert printMessage .directContent
      |>.insert invalidCommand .noContent

/-- `operator[]` value-initialises the entry of a missing key: an empty set. -/
def getCommandParameters (d : R2CPCommandDictionary) (commandCode : UInt32) : TreeSet UInt32 :=
  if d.commandsSet.contains commandCode then
    d.commandParametersMap.getD commandCode ∅
  else
    (∅ : TreeSet UInt32).insert invalidParameter

/-- `operator[]` value-initialises the entry of a missing key: `noContent`, which is 0. -/
def getCommandContentType (d : R2CPCommandDictionary) (commandCode : UInt32) :
    R2CPCommandContentType :=
  if d.commandsSet.contains commandCode then
    d.commandContentTypeMap.getD commandCode .noContent
  else
    .noContent

/-- `checkifvalidcommand`: `INVALIDCOMMAND` is in the set, and is not valid. -/
def checkIfValidCommand (d : R2CPCommandDictionary) (commandCode : UInt32) : Bool :=
  commandCode != invalidCommand && d.commandsSet.contains commandCode

/-! ## What the getters answer -/

/-- The known command codes are 1 to 9. -/
theorem contains_commandsSet (c : UInt32) :
    getInstance.commandsSet.contains c = true ↔ 1 ≤ c.toNat ∧ c.toNat ≤ 9 := by
  simp [getInstance, commandsSetInit, motorPWMEnable, motorPWMDisable, motorIdle,
    motorDutyCycle, imageSend, imageReceive, robotShutdown, printMessage, invalidCommand,
    ← UInt32.toNat_inj]
  -- nine equations on one side, an interval on the other
  omega

end R2CPCommandDictionary

end R2CP
