import R2CP.Native.Parser
import R2CP.Native.Serializer
import R2CP.Native.TransceiverQueue

/-!
# Packet processor

`R2CPPacketProcessor` keeps a registry of robot modules and answers one packet in
each `executeTask`: it pops the packet, hands its commands to the modules that
react to them, evaluates all modules actively and pushes the serialized responses.

A module is known by its address. What the modules do is not part of the
processor, so `RobotModules` is a parameter: they have a state of their own and
answer an evaluation with commands or an exception.
-/

namespace R2CP

open Std (TreeMap TreeSet)

/-- The address of a robot module. -/
abbrev RobotModuleAddress := Nat

/-! ## The registry -/

/-- The registry members of the processor, with the log. -/
structure R2CPPacketProcessor where
  robotModulesMap : TreeMap UInt32 RobotModuleAddress
  robotModulesSet : TreeSet RobotModuleAddress
  log : List LogEntry

namespace R2CPPacketProcessor

/-- A new processor has no modules. -/
def new : R2CPPacketProcessor := ⟨∅, ∅, []⟩

/-- `registerrobotmodule` with a reaction code. -/
def registerReactiveRobotModule (p : R2CPPacketProcessor) (reactCommandCode : UInt32)
    (robotModule : RobotModuleAddress) : R2CPPacketProcessor :=
  if p.robotModulesMap.contains reactCommandCode = false then
    { p with
      robotModulesSet := p.robotModulesSet.insert robotModule
      robotModulesMap := p.robotModulesMap.insert reactCommandCode robotModule }
  else
    { p with
      log := p.log ++ [.formatted .warning ("Robot module not registered. " ++
        "There is already registered robot module to reaction code %u.")
        [.uint32 reactCommandCode]] }

/-- `registerrobotmodule` without a reaction code. -/
def registerRobotModule (p : R2CPPacketProcessor) (robotModule : RobotModuleAddress) :
    R2CPPacketProcessor :=
  { p with robotModulesSet := p.robotModulesSet.insert robotModule }

/-- The loop of `unregisterrobotmodule` over the entries that are left. `erase` invalidates
    the iterator of the loop, which has no defined way on from there. -/
def unregisterRobotModuleLoop (robotModule : RobotModuleAddress) :
    (entries : List (UInt32 × RobotModuleAddress)) →
      StatefulExcept StdException R2CPPacketProcessor Unit
  | [] => pure ()
  | (reactCommandCode, registeredRobotModule) :: entries =>
    if robotModule = registeredRobotModule then do
      modify fun p => { p with robotModulesMap := p.robotModulesMap.erase reactCommandCode }
      -- `it++` on an iterator that `erase` has invalidated
      throw .undefinedBehavior
    else
      unregisterRobotModuleLoop robotModule entries

/-- `unregisterrobotmodule` with a module. -/
def unregisterRobotModule (robotModule : RobotModuleAddress) :
    StatefulExcept StdException R2CPPacketProcessor Unit := do
  unregisterRobotModuleLoop robotModule (← get).robotModulesMap.toList
  modify fun p => { p with robotModulesSet := p.robotModulesSet.erase robotModule }

/-- `unregisterrobotmodule` with a reaction code. -/
def unregisterReactiveRobotModule (p : R2CPPacketProcessor) (reactCommandCode : UInt32) :
    R2CPPacketProcessor :=
  match p.robotModulesMap[reactCommandCode]? with
  | some registeredRobotModule =>
    { p with
      robotModulesMap := p.robotModulesMap.erase reactCommandCode
      robotModulesSet := p.robotModulesSet.erase registeredRobotModule }
  | none =>
    -- `at` throws `std::out_of_range`, which is caught here
    { p with
      log := p.log ++ [.formatted .warning
        "Robot module cannot be unregistered, because it has not even been registered." []] }

/-- `unregisterallrobotmodules`. -/
def unregisterAllRobotModules (p : R2CPPacketProcessor) : R2CPPacketProcessor :=
  { p with robotModulesMap := ∅, robotModulesSet := ∅ }

end R2CPPacketProcessor

/-! ## Robot modules -/

/-- An evaluation of a module. -/
inductive ModuleCall where
  | reactive (robotModule : RobotModuleAddress) (command : R2CPCommand)
  | active (robotModule : RobotModuleAddress)
  deriving DecidableEq, Repr

/-- What the modules, with all their states in a `σ`, answer to an evaluation:
    `evaluatereactive` and `evaluateactive`. -/
structure RobotModules (σ : Type) where
  evaluate : ModuleCall → StatefulExcept StdException σ (List R2CPCommand)

/-! ## One round of the processing thread -/

/-- What a round works on: the singleton queue, the states of the modules, the calls
    made to them, the lists handed to a serializer, and the log. -/
structure ProcessingState (σ : Type) where
  transceiverQueue : R2CPTransceiverQueue
  moduleStates : σ
  moduleCalls : List ModuleCall
  serializedCommands : List (List R2CPCommand)
  log : List LogEntry

namespace R2CPPacketProcessor

variable {σ : Type}

/-- A part of a round. -/
abbrev Processing (σ : Type) := StatefulExcept StdException (ProcessingState σ)

/-- An entry in the log. -/
def writeLog (entry : LogEntry) : Processing σ Unit :=
  modify fun w => { w with log := w.log ++ [entry] }

/-- Use the singleton queue. -/
def onTransceiverQueue {α : Type} (x : R2CPTransceiverQueue.TransceiverQueue α) :
    Processing σ α :=
  StatefulExcept.onPart ProcessingState.transceiverQueue
    (fun t w => { w with transceiverQueue := t }) x

/-- Use a new parser object. It writes to the same log. -/
def onNewParser {α : Type} (x : R2CPParser.Parser α) : Processing σ α :=
  StatefulExcept.onPart (fun _ => R2CPParser.new)
    (fun parser w => { w with log := w.log ++ parser.log }) x

/-- Use a new serializer object. -/
def onNewSerializer {α : Type} (x : R2CPSerializer.Serializer α) : Processing σ α :=
  StatefulExcept.onPart (fun _ => R2CPSerializer.new) (fun _ w => w) x

/-- Serialize responses with a new serializer object. The list that it gets is recorded,
    whatever comes of it. -/
def serializeResponses (responseCommands : List R2CPCommand) : Processing σ (List UInt8) := do
  modify fun w => { w with serializedCommands := w.serializedCommands ++ [responseCommands] }
  onNewSerializer (R2CPSerializer.serializeCommands responseCommands)

/-- Evaluate a module. The call is recorded, whatever comes of it. -/
def callModule (modules : RobotModules σ) (call : ModuleCall) :
    Processing σ (List R2CPCommand) := do
  modify fun w => { w with moduleCalls := w.moduleCalls ++ [call] }
  StatefulExcept.onPart ProcessingState.moduleStates
    (fun s w => { w with moduleStates := s }) (modules.evaluate call)

/-- `responsecommands.insert` behind the test of a 32-bit count. -/
def appendResponses (responseCommands answers : List R2CPCommand) : List R2CPCommand :=
  -- the count is a `uint32_t`: a multiple of `2 ^ 32` answers count as none
  if UInt32.ofNat answers.length > 0 then responseCommands ++ answers else responseCommands

/-- `robotmodulesmap.at(commandcode)`. -/
def robotModuleAt (p : R2CPPacketProcessor) (commandCode : UInt32) :
    Processing σ RobotModuleAddress :=
  match p.robotModulesMap[commandCode]? with
  | some robotModule => pure robotModule
  | none => throw (.outOfRange (.text "map::at"))

/-- One round of the reactive loop. The handler is for `at`, but what a module throws
    comes by here as well. -/
def evaluateReactive (p : R2CPPacketProcessor) (modules : RobotModules σ)
    (command : R2CPCommand) (responseCommands : List R2CPCommand) :
    Processing σ (List R2CPCommand) :=
  tryCatch
    (do
      let robotModule ← p.robotModuleAt command.commandCode
      let reactiveResponseCommands ← callModule modules (.reactive robotModule command)
      pure (appendResponses responseCommands reactiveResponseCommands))
    (StdException.onOutOfRange fun _ => do
      writeLog (.formatted .warning
        "No robot modules assigned to command code %u. Ignoring the command code."
        [.uint32 command.commandCode])
      -- the responses collected so far stay
      pure responseCommands)

/-- The loop over the commands that are left. -/
def reactiveLoop (p : R2CPPacketProcessor) (modules : RobotModules σ) :
    (r2cpCommands responseCommands : List R2CPCommand) → Processing σ (List R2CPCommand)
  | [], responseCommands => pure responseCommands
  | command :: r2cpCommands, responseCommands => do
    let responseCommands ← p.evaluateReactive modules command responseCommands
    p.reactiveLoop modules r2cpCommands responseCommands

/-- The loop over the modules that are left, in the order of the set. -/
def activeLoop (modules : RobotModules σ) :
    (robotModules : List RobotModuleAddress) → (responseCommands : List R2CPCommand) →
      Processing σ (List R2CPCommand)
  | [], responseCommands => pure responseCommands
  | robotModule :: robotModules, responseCommands => do
    let activeResultCommands ← callModule modules (.active robotModule)
    activeLoop modules robotModules (appendResponses responseCommands activeResultCommands)

/-- Serialize and push the responses, if there are any. -/
def respond (responseCommands : List R2CPCommand) : Processing σ Unit :=
  if responseCommands.length > 0 then do
    -- outside of the handler, which is for a full queue
    let responseR2CPPacket ← serializeResponses responseCommands
    tryCatch (onTransceiverQueue (R2CPTransceiverQueue.pushToTransmissionQueue responseR2CPPacket))
      (StdException.onOverflowError fun what => writeLog (.what .warning what))
  else
    pure ()

/-- The inner `try` of `executetask`. -/
def processPacket (p : R2CPPacketProcessor) (modules : RobotModules σ) (r2cpPacket : List UInt8) :
    Processing σ Unit :=
  tryCatch
    (do
      -- `std::out_of_range` from the parser or the serializer has no handler here
      let r2cpCommands ← onNewParser (R2CPParser.parseR2CPPacket r2cpPacket)
      let responseCommands ← p.reactiveLoop modules r2cpCommands []
      let responseCommands ← activeLoop modules p.robotModulesSet.toList responseCommands
      respond responseCommands)
    (StdException.onInvalidArgument fun what => writeLog (.what .warning what))

/-- `executetask`: an empty queue ends the round, and so does what the handlers catch. -/
def executeTask (p : R2CPPacketProcessor) (modules : RobotModules σ) : Processing σ Unit :=
  tryCatch
    (do
      let r2cpPacket ← onTransceiverQueue R2CPTransceiverQueue.popFromReceptionQueue
      p.processPacket modules r2cpPacket)
    (StdException.onUnderflowError fun what => writeLog (.what .info what))

end R2CPPacketProcessor

end R2CP
