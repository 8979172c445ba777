import R2CP.ForStd.Transition
import R2CP.Native.PacketProcessor
import R2CP.Native.WebSocketServer

/-!
# Runtime broker

`R2CPRuntimeBroker::run` starts the threads of the WebSocket server and the one of the
packet processor, waits for the user to quit, and halts both. This is the whole
program as a state machine: what the threads share, and where each thread is.

One step is what a thread does between two points at which others can be let in. The
sections of the transceiver queue are steps of their own, and so are the checks of the
loops and the test for a connection in front of a send. What happens in between is the
thread's alone: parsing, the robot modules, the serializer. A handler of websocketpp and
the closing of the connections are one step each. `processedPackets` records what the
processing thread has popped, as `moduleCalls` and `wsServerCalls` record the calls.

## Key results

- `Moves`: what a step of the program can be, with the sections of the queues worked out
- `moves_of_step`: every step is one of these, and only a program that goes on takes it
-/

namespace R2CP

open StatefulExcept (exec)

/-! ## `executetask` in two pieces -/

namespace R2CPPacketProcessor

variable {σ : Type}

/-- The inner `try` of `executetask` up to the push: the response packet, if there is one. -/
def prepareResponse (p : R2CPPacketProcessor) (modules : RobotModules σ)
    (r2cpPacket : List UInt8) : Processing σ (Option (List UInt8)) :=
  tryCatch
    (do
      let r2cpCommands ← onNewParser (R2CPParser.parseR2CPPacket r2cpPacket)
      let responseCommands ← p.reactiveLoop modules r2cpCommands []
      let responseCommands ← activeLoop modules p.robotModulesSet.toList responseCommands
      if responseCommands.length > 0 then do
        let responseR2CPPacket ← serializeResponses responseCommands
        pure (some responseR2CPPacket)
      else
        pure none)
    (StdException.onInvalidArgument fun what => do
      writeLog (.what .warning what)
      pure none)

/-- `executetask` from the popped packet on to the push. -/
def finishTask (p : R2CPPacketProcessor) (modules : RobotModules σ) (r2cpPacket : List UInt8) :
    Processing σ (Option (List UInt8)) :=
  tryCatch (p.prepareResponse modules r2cpPacket)
    (StdException.onUnderflowError fun what => do
      writeLog (.what .info what)
      pure none)

end R2CPPacketProcessor

/-! ## Where the threads are -/

/-- The thread that is in `run`. -/
inductive MainThread where
  | waitingForInput
  | joiningProcessor
  | joiningTransmission
  | joiningReception
  | returned
  | threw
  deriving DecidableEq, Repr

/-- The thread of `receiver2cppackettask`, in which websocketpp calls the handlers. -/
inductive ReceptionThread where
  | listening
  | pushing (r2cpPacket : List UInt8) (newQueueSize : UInt32)
  | exited
  deriving DecidableEq, Repr

/-- The thread of `runthread`. -/
inductive ProcessingThread where
  | looping
  | executing
  | popping (r2cpPacketsCount : UInt32)
  | processing (r2cpPacket : List UInt8)
  | responding (responseR2CPPacket : List UInt8)
  | pushing (responseR2CPPacket : List UInt8) (newQueueSize : UInt32)
  | exited
  deriving DecidableEq, Repr

/-- The thread of `transmitr2cppackettask`. It tests for a connection at `sending` and
    looks at the handle of the operator later, at `connected`. -/
inductive TransmissionThread where
  | looping
  | executing
  | popping (r2cpPacketsCount : UInt32)
  | sending (r2cpPacket : List UInt8)
  | connected (r2cpPacket : List UInt8)
  | exited
  | threw
  deriving DecidableEq, Repr

/-- How a call of websocketpp ends. -/
inductive WSServerOutcome where
  | returns
  | throws
  deriving DecidableEq, Repr

/-- Both components, the threads, and the states of the robot modules. The program has
    terminated when an exception has left the function of a thread. -/
structure R2CPRuntimeBroker (η σ : Type) where
  robotServer : R2CPWebSocketServer η
  packetProcessor : R2CPPacketProcessor
  moduleStates : σ
  moduleCalls : List ModuleCall
  serializedCommands : List (List R2CPCommand)
  processedPackets : List (List UInt8)
  isServerRunning : Bool
  isProcessorRunning : Bool
  mainThread : MainThread
  receptionThread : ReceptionThread
  processingThread : ProcessingThread
  transmissionThread : TransmissionThread
  hasTerminated : Bool

/-- What websocketpp has for the reception thread. -/
inductive ReceptionEvent (η : Type) where
  | onOpen (hdl : η)
  | onClose (hdl : η)
  | onMessage (hdl : η) (r2cpPacketBase64 : List UInt8)
  | returns
  deriving DecidableEq, Repr

/-- One step of one thread. The reception thread goes on with a message by itself. -/
inductive BrokerEvent (η : Type) where
  | main (wsServer : WSServerOutcome)
  | reception (event : ReceptionEvent η)
  | finishMessage
  | processing
  | transmission (wsServer : WSServerOutcome)
  deriving DecidableEq, Repr

namespace R2CPRuntimeBroker

variable {η σ : Type}

/-- The threads have been started, and the user has not quit. -/
def started (packetProcessor : R2CPPacketProcessor) (moduleStates : σ) :
    R2CPRuntimeBroker η σ where
  robotServer := R2CPWebSocketServer.new R2CPTransceiverQueue.new
  packetProcessor := packetProcessor
  moduleStates := moduleStates
  moduleCalls := []
  serializedCommands := []
  processedPackets := []
  isServerRunning := true
  isProcessorRunning := true
  mainThread := .waitingForInput
  receptionThread := .listening
  processingThread := .looping
  transmissionThread := .looping
  hasTerminated := false

/-- The queue that both components use. -/
def transceiverQueue (b : R2CPRuntimeBroker η σ) : R2CPTransceiverQueue :=
  b.robotServer.transceiverQueue

/-- Replace the queue of a side. -/
def setQueue (b : R2CPRuntimeBroker η σ) (side : Side) (q : PacketQueue) :
    R2CPRuntimeBroker η σ :=
  { b with robotServer :=
      { b.robotServer with transceiverQueue := b.transceiverQueue.setQueue q side } }

/-- An entry in the log. -/
def writeLog (b : R2CPRuntimeBroker η σ) (entry : LogEntry) : R2CPRuntimeBroker η σ :=
  { b with robotServer := { b.robotServer with log := b.robotServer.log ++ [entry] } }

/-! A thread goes to another point. -/

def withMain (b : R2CPRuntimeBroker η σ) (mainThread : MainThread) : R2CPRuntimeBroker η σ :=
  { b with mainThread }

def withReception (b : R2CPRuntimeBroker η σ) (receptionThread : ReceptionThread) :
    R2CPRuntimeBroker η σ :=
  { b with receptionThread }

def withProcessing (b : R2CPRuntimeBroker η σ) (processingThread : ProcessingThread) :
    R2CPRuntimeBroker η σ :=
  { b with processingThread }

def withTransmission (b : R2CPRuntimeBroker η σ) (transmissionThread : TransmissionThread) :
    R2CPRuntimeBroker η σ :=
  { b with transmissionThread }

/-- An exception has left the function of a thread. -/
def terminated (b : R2CPRuntimeBroker η σ) : R2CPRuntimeBroker η σ :=
  { b with hasTerminated := true }

/-- `isrunning` of the processor. -/
def haltProcessor (b : R2CPRuntimeBroker η σ) : R2CPRuntimeBroker η σ :=
  { b with isProcessorRunning := false }

/-- `isrunning` of the server. -/
def haltServer (b : R2CPRuntimeBroker η σ) : R2CPRuntimeBroker η σ :=
  { b with isServerRunning := false }

/-- A packet is in the hands of the processing thread. -/
def recordPacket (b : R2CPRuntimeBroker η σ) (r2cpPacket : List UInt8) : R2CPRuntimeBroker η σ :=
  { b with processedPackets := b.processedPackets ++ [r2cpPacket] }

/-- Let the server do something. -/
def onServer (b : R2CPRuntimeBroker η σ) (x : R2CPWebSocketServer.WebSocketServer η Unit) :
    R2CPRuntimeBroker η σ :=
  { b with robotServer := (exec x b.robotServer).2 }

/-- The end of `receiver2cppackettask`. -/
def exitReception (b : R2CPRuntimeBroker η σ) : R2CPRuntimeBroker η σ :=
  (b.writeLog (.formatted .info "Exiting R2CP packet reception thread." [])).withReception .exited

/-- Send a response to the operator. -/
def sendPacket (b : R2CPRuntimeBroker η σ) (r2cpPacket : List UInt8) : R2CPRuntimeBroker η σ :=
  b.onServer (R2CPWebSocketServer.callWSServer
    (.send b.robotServer.operatorConnectionHandle (Base64.base64Encode r2cpPacket)))

/-- What the processing thread works on. -/
def processingState (b : R2CPRuntimeBroker η σ) : ProcessingState σ :=
  ⟨b.transceiverQueue, b.moduleStates, b.moduleCalls, b.serializedCommands, b.robotServer.log⟩

/-- What the processing thread has worked on. -/
def setProcessingState (b : R2CPRuntimeBroker η σ) (w : ProcessingState σ) :
    R2CPRuntimeBroker η σ :=
  { b with
    robotServer := { b.robotServer with transceiverQueue := w.transceiverQueue, log := w.log }
    moduleStates := w.moduleStates
    moduleCalls := w.moduleCalls
    serializedCommands := w.serializedCommands }

/-- The loop for "q" is over, and then `halt` of the processor and of the server. An
    exception of websocketpp leaves `halt` and `run`. -/
def mainStep (b : R2CPRuntimeBroker η σ) (wsServer : WSServerOutcome) :
    Option (R2CPRuntimeBroker η σ) :=
  match b.mainThread with
  | .waitingForInput =>
    some (b.haltProcessor.withMain .joiningProcessor)
  | .joiningProcessor =>
    match b.processingThread with
    | .exited => some (b.haltServer.withMain .joiningTransmission)
    | _ => none
  | .joiningTransmission =>
    match b.transmissionThread, wsServer with
    | .exited, .returns =>
      some ((b.onServer R2CPWebSocketServer.closeWSServerConnections).withMain .joiningReception)
    | .exited, .throws => some (b.withMain .threw)
    | _, _ => none
  | .joiningReception =>
    match b.receptionThread with
    | .exited => some (b.withMain .returned)
    | _ => none
  | .returned => none
  | .threw => none

/-- websocketpp calls a handler, or its `run` is over, however that ends. -/
def receptionStep (b : R2CPRuntimeBroker η σ) (event : ReceptionEvent η) :
    Option (R2CPRuntimeBroker η σ) :=
  match b.receptionThread with
  | .listening =>
    match event with
    | .onOpen hdl => some (b.onServer (R2CPWebSocketServer.onOpen hdl))
    | .onClose hdl => some (b.onServer (R2CPWebSocketServer.onClose hdl))
    | .onMessage _ r2cpPacketBase64 =>
      let r2cpPacket := Base64.base64Decode r2cpPacketBase64
      let newQueueSize := b.transceiverQueue.receptionQueue.queueSize +
        UInt32.ofNat r2cpPacket.length
      some (b.withReception (.pushing r2cpPacket newQueueSize))
    | .returns => some b.exitReception
  | _ => none

/-- The second half of `pushtoreceptionqueue`, with the handler in `onmessage`. -/
def finishMessageStep (b : R2CPRuntimeBroker η σ) : Option (R2CPRuntimeBroker η σ) :=
  match b.receptionThread with
  | .pushing r2cpPacket newQueueSize =>
    match exec (PacketQueue.finishPush .reception r2cpPacket newQueueSize)
      b.transceiverQueue.receptionQueue with
    | (.ok _, q) => some ((b.setQueue .reception q).withReception .listening)
    | (.error (.overflowError what), _) =>
      some ((b.writeLog (.what .warning what)).withReception .listening)
    | (.error _, _) =>
      -- `receiver2cppackettask` catches the rest, and ends
      some (b.writeLog (.formatted .error
        "Unknown exception occured during R2CP WebSocket server setup." [])).exitReception
  | _ => none

/-- One step in the loop of `runthread`. -/
def processingStep (modules : RobotModules σ) (b : R2CPRuntimeBroker η σ) :
    Option (R2CPRuntimeBroker η σ) :=
  match b.processingThread with
  | .looping =>
    if b.isProcessorRunning then
      some (b.withProcessing .executing)
    else
      some ((b.writeLog (.formatted .info "Exiting packet processing thread." [])).withProcessing
        .exited)
  | .executing =>
    let r2cpPacketsCount := UInt32.ofNat b.transceiverQueue.receptionQueue.packets.length
    some (b.withProcessing (.popping r2cpPacketsCount))
  | .popping r2cpPacketsCount =>
    match exec (PacketQueue.finishPop .reception r2cpPacketsCount)
      b.transceiverQueue.receptionQueue with
    | (.ok r2cpPacket, q) =>
      some (((b.setQueue .reception q).recordPacket r2cpPacket).withProcessing
        (.processing r2cpPacket))
    | (.error (.underflowError what), _) =>
      some ((b.writeLog (.what .info what)).withProcessing .looping)
    | (.error _, _) => some b.terminated
  | .processing r2cpPacket =>
    match exec (b.packetProcessor.finishTask modules r2cpPacket) b.processingState with
    | (.ok none, w) => some ((b.setProcessingState w).withProcessing .looping)
    | (.ok (some responseR2CPPacket), w) =>
      some ((b.setProcessingState w).withProcessing (.responding responseR2CPPacket))
    | (.error _, w) => some (b.setProcessingState w).terminated
  | .responding responseR2CPPacket =>
    let newQueueSize := b.transceiverQueue.transmissionQueue.queueSize +
      UInt32.ofNat responseR2CPPacket.length
    some (b.withProcessing (.pushing responseR2CPPacket newQueueSize))
  | .pushing responseR2CPPacket newQueueSize =>
    match exec (PacketQueue.finishPush .transmission responseR2CPPacket newQueueSize)
      b.transceiverQueue.transmissionQueue with
    | (.ok _, q) => some ((b.setQueue .transmission q).withProcessing .looping)
    | (.error (.overflowError what), _) =>
      some ((b.writeLog (.what .warning what)).withProcessing .looping)
    | (.error _, _) => some b.terminated
  | .exited => none

/-- One step in the loop of `transmitr2cppackettask`. -/
def transmissionStep (b : R2CPRuntimeBroker η σ) (wsServer : WSServerOutcome) :
    Option (R2CPRuntimeBroker η σ) :=
  match b.transmissionThread with
  | .looping =>
    if b.isServerRunning then
      some (b.withTransmission .executing)
    else
      some ((b.writeLog (.formatted .info
        "Exiting R2CP packet transmission thread." [])).withTransmission .exited)
  | .executing =>
    let r2cpPacketsCount := UInt32.ofNat b.transceiverQueue.transmissionQueue.packets.length
    some (b.withTransmission (.popping r2cpPacketsCount))
  | .popping r2cpPacketsCount =>
    match exec (PacketQueue.finishPop .transmission r2cpPacketsCount)
      b.transceiverQueue.transmissionQueue with
    | (.ok r2cpPacket, q) =>
      some ((b.setQueue .transmission q).withTransmission (.sending r2cpPacket))
    | (.error (.underflowError what), _) =>
      some ((b.writeLog (.what .info what)).withTransmission .looping)
    | (.error _, _) => some b.terminated
  | .sending r2cpPacket =>
    if b.robotServer.hasConnection then
      some (b.withTransmission (.connected r2cpPacket))
    else
      some (b.withTransmission .looping)
  | .connected r2cpPacket =>
    -- the handlers may have changed the connection since the test
    match wsServer with
    | .returns => some ((b.sendPacket r2cpPacket).withTransmission .looping)
    | .throws => some ((b.sendPacket r2cpPacket).withTransmission .threw).terminated
  | .exited => none
  | .threw => none

/-- Any thread can take the next step, as long as the program has not terminated. -/
def step (modules : RobotModules σ) (b : R2CPRuntimeBroker η σ) (e : BrokerEvent η) :
    Option (R2CPRuntimeBroker η σ) :=
  if b.hasTerminated then none
  else
    match e with
    | .main wsServer => b.mainStep wsServer
    | .reception event => b.receptionStep event
    | .finishMessage => b.finishMessageStep
    | .processing => b.processingStep modules
    | .transmission wsServer => b.transmissionStep wsServer

/-! ## What a step can be -/

/-- The steps, with the sections of the queues worked out. -/
inductive Moves (modules : RobotModules σ) (b : R2CPRuntimeBroker η σ) :
    BrokerEvent η → R2CPRuntimeBroker η σ → Prop
  | quit (wsServer : WSServerOutcome) (hmain : b.mainThread = .waitingForInput) :
    Moves modules b (.main wsServer) (b.haltProcessor.withMain .joiningProcessor)
  | joinProcessor (wsServer : WSServerOutcome) (hmain : b.mainThread = .joiningProcessor)
    (hexited : b.processingThread = .exited) :
    Moves modules b (.main wsServer) (b.haltServer.withMain .joiningTransmission)
  | closeConnections (hmain : b.mainThread = .joiningTransmission)
    (hexited : b.transmissionThread = .exited) :
    Moves modules b (.main .returns)
      ((b.onServer R2CPWebSocketServer.closeWSServerConnections).withMain .joiningReception)
  | closeThrows (hmain : b.mainThread = .joiningTransmission)
    (hexited : b.transmissionThread = .exited) :
    Moves modules b (.main .throws) (b.withMain .threw)
  | joinReception (wsServer : WSServerOutcome) (hmain : b.mainThread = .joiningReception)
    (hexited : b.receptionThread = .exited) :
    Moves modules b (.main wsServer) (b.withMain .returned)
  | onOpen (hdl : η) (hreception : b.receptionThread = .listening) :
    Moves modules b (.reception (.onOpen hdl)) (b.onServer (R2CPWebSocketServer.onOpen hdl))
  | onClose (hdl : η) (hreception : b.receptionThread = .listening) :
    Moves modules b (.reception (.onClose hdl)) (b.onServer (R2CPWebSocketServer.onClose hdl))
  | onMessage (hdl : η) (r2cpPacketBase64 : List UInt8)
    (hreception : b.receptionThread = .listening) :
    Moves modules b (.reception (.onMessage hdl r2cpPacketBase64))
      (b.withReception (.pushing (Base64.base64Decode r2cpPacketBase64)
        (b.transceiverQueue.receptionQueue.queueSize +
          UInt32.ofNat (Base64.base64Decode r2cpPacketBase64).length)))
  | stopReceiving (hreception : b.receptionThread = .listening) :
    Moves modules b (.reception .returns) b.exitReception
  | acceptMessage (r2cpPacket : List UInt8) (newQueueSize : UInt32)
    (hreception : b.receptionThread = .pushing r2cpPacket newQueueSize)
    (hfits : newQueueSize ≤ b.transceiverQueue.receptionQueue.maxQueueSize) :
    Moves modules b .finishMessage
      ((b.setQueue .reception (b.transceiverQueue.receptionQueue.append r2cpPacket)).withReception
        .listening)
  | rejectMessage (r2cpPacket : List UInt8) (newQueueSize : UInt32) (entry : LogEntry)
    (hreception : b.receptionThread = .pushing r2cpPacket newQueueSize)
    (hfull : ¬ newQueueSize ≤ b.transceiverQueue.receptionQueue.maxQueueSize) :
    Moves modules b .finishMessage ((b.writeLog entry).withReception .listening)
  | startTask (hprocessing : b.processingThread = .looping)
    (hrunning : b.isProcessorRunning = true) :
    Moves modules b .processing (b.withProcessing .executing)
  | exitProcessing (entry : LogEntry) (hprocessing : b.processingThread = .looping)
    (hhalted : b.isProcessorRunning = false) :
    Moves modules b .processing ((b.writeLog entry).withProcessing .exited)
  | countReceived (hprocessing : b.processingThread = .executing) :
    Moves modules b .processing (b.withProcessing
      (.popping (UInt32.ofNat b.transceiverQueue.receptionQueue.packets.length)))
  | popReceived (r2cpPacketsCount : UInt32) (r2cpPacket : List UInt8) (packets : List (List UInt8))
    (hprocessing : b.processingThread = .popping r2cpPacketsCount)
    (hcount : r2cpPacketsCount > 0)
    (hpackets : b.transceiverQueue.receptionQueue.packets = r2cpPacket :: packets) :
    Moves modules b .processing
      (((b.setQueue .reception
        (b.transceiverQueue.receptionQueue.eraseFirst r2cpPacket)).recordPacket
          r2cpPacket).withProcessing (.processing r2cpPacket))
  | missReceived (r2cpPacketsCount : UInt32)
    (hprocessing : b.processingThread = .popping r2cpPacketsCount)
    (hcount : r2cpPacketsCount > 0)
    (hpackets : b.transceiverQueue.receptionQueue.packets = []) :
    Moves modules b .processing b.terminated
  | nothingReceived (r2cpPacketsCount : UInt32) (entry : LogEntry)
    (hprocessing : b.processingThread = .popping r2cpPacketsCount)
    (hcount : ¬ r2cpPacketsCount > 0) :
    Moves modules b .processing ((b.writeLog entry).withProcessing .looping)
  | finishTask (r2cpPacket : List UInt8) (w : ProcessingState σ)
    (hprocessing : b.processingThread = .processing r2cpPacket)
    (hexec : exec (b.packetProcessor.finishTask modules r2cpPacket) b.processingState =
      (.ok none, w)) :
    Moves modules b .processing ((b.setProcessingState w).withProcessing .looping)
  | respond (r2cpPacket responseR2CPPacket : List UInt8) (w : ProcessingState σ)
    (hprocessing : b.processingThread = .processing r2cpPacket)
    (hexec : exec (b.packetProcessor.finishTask modules r2cpPacket) b.processingState =
      (.ok (some responseR2CPPacket), w)) :
    Moves modules b .processing
      ((b.setProcessingState w).withProcessing (.responding responseR2CPPacket))
  | taskThrows (r2cpPacket : List UInt8) (e : StdException) (w : ProcessingState σ)
    (hprocessing : b.processingThread = .processing r2cpPacket)
    (hexec : exec (b.packetProcessor.finishTask modules r2cpPacket) b.processingState =
      (.error e, w)) :
    Moves modules b .processing (b.setProcessingState w).terminated
  | readQueueSize (responseR2CPPacket : List UInt8)
    (hprocessing : b.processingThread = .responding responseR2CPPacket) :
    Moves modules b .processing (b.withProcessing (.pushing responseR2CPPacket
      (b.transceiverQueue.transmissionQueue.queueSize + UInt32.ofNat responseR2CPPacket.length)))
  | pushResponse (responseR2CPPacket : List UInt8) (newQueueSize : UInt32)
    (hprocessing : b.processingThread = .pushing responseR2CPPacket newQueueSize)
    (hfits : newQueueSize ≤ b.transceiverQueue.transmissionQueue.maxQueueSize) :
    Moves modules b .processing
      ((b.setQueue .transmission
        (b.transceiverQueue.transmissionQueue.append responseR2CPPacket)).withProcessing .looping)
  | dropResponse (responseR2CPPacket : List UInt8) (newQueueSize : UInt32) (entry : LogEntry)
    (hprocessing : b.processingThread = .pushing responseR2CPPacket newQueueSize)
    (hfull : ¬ newQueueSize ≤ b.transceiverQueue.transmissionQueue.maxQueueSize) :
    Moves modules b .processing ((b.writeLog entry).withProcessing .looping)
  | startTransmit (wsServer : WSServerOutcome) (htransmission : b.transmissionThread = .looping)
    (hrunning : b.isServerRunning = true) :
    Moves modules b (.transmission wsServer) (b.withTransmission .executing)
  | exitTransmission (wsServer : WSServerOutcome) (entry : LogEntry)
    (htransmission : b.transmissionThread = .looping) (hhalted : b.isServerRunning = false) :
    Moves modules b (.transmission wsServer) ((b.writeLog entry).withTransmission .exited)
  | countResponses (wsServer : WSServerOutcome)
    (htransmission : b.transmissionThread = .executing) :
    Moves modules b (.transmission wsServer) (b.withTransmission
      (.popping (UInt32.ofNat b.transceiverQueue.transmissionQueue.packets.length)))
  | popResponse (wsServer : WSServerOutcome) (r2cpPacketsCount : UInt32) (r2cpPacket : List UInt8)
    (packets : List (List UInt8)) (htransmission : b.transmissionThread = .popping r2cpPacketsCount)
    (hcount : r2cpPacketsCount > 0)
    (hpackets : b.transceiverQueue.transmissionQueue.packets = r2cpPacket :: packets) :
    Moves modules b (.transmission wsServer)
      ((b.setQueue .transmission
        (b.transceiverQueue.transmissionQueue.eraseFirst r2cpPacket)).withTransmission
          (.sending r2cpPacket))
  | missResponse (wsServer : WSServerOutcome) (r2cpPacketsCount : UInt32)
    (htransmission : b.transmissionThread = .popping r2cpPacketsCount)
    (hcount : r2cpPacketsCount > 0)
    (hpackets : b.transceiverQueue.transmissionQueue.packets = []) :
    Moves modules b (.transmission wsServer) b.terminated
  | noResponse (wsServer : WSServerOutcome) (r2cpPacketsCount : UInt32) (entry : LogEntry)
    (htransmission : b.transmissionThread = .popping r2cpPacketsCount)
    (hcount : ¬ r2cpPacketsCount > 0) :
    Moves modules b (.transmission wsServer) ((b.writeLog entry).withTransmission .looping)
  | seeConnection (wsServer : WSServerOutcome) (r2cpPacket : List UInt8)
    (htransmission : b.transmissionThread = .sending r2cpPacket)
    (hconnected : b.robotServer.hasConnection = true) :
    Moves modules b (.transmission wsServer) (b.withTransmission (.connected r2cpPacket))
  | send (r2cpPacket : List UInt8)
    (htransmission : b.transmissionThread = .connected r2cpPacket) :
    Moves modules b (.transmission .returns) ((b.sendPacket r2cpPacket).withTransmission .looping)
  | sendThrows (r2cpPacket : List UInt8)
    (htransmission : b.transmissionThread = .connected r2cpPacket) :
    Moves modules b (.transmission .throws)
      ((b.sendPacket r2cpPacket).withTransmission .threw).terminated
  | dropUnsent (wsServer : WSServerOutcome) (r2cpPacket : List UInt8)
    (htransmission : b.transmissionThread = .sending r2cpPacket)
    (hunconnected : b.robotServer.hasConnection = false) :
    Moves modules b (.transmission wsServer) (b.withTransmission .looping)

section Inversion

variable {modules : RobotModules σ} {b b' : R2CPRuntimeBroker η σ}

/-- The steps of `run` behind the loop for input. -/
theorem moves_of_mainStep {wsServer : WSServerOutcome} (h : b.mainStep wsServer = some b') :
    Moves modules b (.main wsServer) b' := by
  unfold mainStep at h
  cases hmain : b.mainThread with
  | waitingForInput =>
    rw [hmain] at h
    obtain rfl := Option.some.inj h
    exact .quit wsServer hmain
  | joiningProcessor =>
    rw [hmain] at h
    -- `join` returns only when the thread has exited
    cases hexited : b.processingThread <;> simp only [hexited, reduceCtorEq] at h
    obtain rfl := Option.some.inj h
    exact .joinProcessor wsServer hmain hexited
  | joiningTransmission =>
    rw [hmain] at h
    cases hexited : b.transmissionThread <;> simp only [hexited, reduceCtorEq] at h
    -- closing the connections can throw, out of `halt` and `run`
    cases wsServer with
    | returns =>
      obtain rfl := Option.some.inj h
      exact .closeConnections hmain hexited
    | throws =>
      obtain rfl := Option.some.inj h
      exact .closeThrows hmain hexited
  | joiningReception =>
    rw [hmain] at h
    cases hexited : b.receptionThread <;> simp only [hexited, reduceCtorEq] at h
    obtain rfl := Option.some.inj h
    exact .joinReception wsServer hmain hexited
  | returned =>
    rw [hmain] at h
    cases h
  | threw =>
    rw [hmain] at h
    cases h

/-- What websocketpp has for a listening thread. -/
theorem moves_of_receptionStep {event : ReceptionEvent η}
    (h : b.receptionStep event = some b') : Moves modules b (.reception event) b' := by
  unfold receptionStep at h
  -- in the middle of a message no other handler is called
  cases hreception : b.receptionThread <;> simp only [hreception, reduceCtorEq] at h
  cases event with
  | onOpen hdl =>
    obtain rfl := Option.some.inj h
    exact .onOpen hdl hreception
  | onClose hdl =>
    obtain rfl := Option.some.inj h
    exact .onClose hdl hreception
  | onMessage hdl r2cpPacketBase64 =>
    obtain rfl := Option.some.inj h
    exact .onMessage hdl r2cpPacketBase64 hreception
  | returns =>
    obtain rfl := Option.some.inj h
    exact .stopReceiving hreception

/-- A received packet goes into the queue, or there is no room for it. -/
theorem moves_of_finishMessageStep (h : b.finishMessageStep = some b') :
    Moves modules b .finishMessage b' := by
  unfold finishMessageStep at h
  cases hreception : b.receptionThread <;> simp only [hreception, reduceCtorEq] at h
  rename_i r2cpPacket newQueueSize
  rw [PacketQueue.exec_finishPush] at h
  by_cases hfits : newQueueSize ≤ b.transceiverQueue.receptionQueue.maxQueueSize
  · rw [if_pos hfits] at h
    obtain rfl := Option.some.inj h
    exact .acceptMessage r2cpPacket newQueueSize hreception hfits
  · rw [if_neg hfits] at h
    obtain rfl := Option.some.inj h
    exact .rejectMessage r2cpPacket newQueueSize _ hreception hfits

/-! The processing thread, at one point after the other. -/

/-- At the head of its loop the thread starts a task, or exits. -/
private theorem moves_of_processingLoop (hprocessing : b.processingThread = .looping)
    (h : b.processingStep modules = some b') : Moves modules b .processing b' := by
  unfold processingStep at h
  simp only [hprocessing] at h
  split at h
  · rename_i hrunning
    obtain rfl := Option.some.inj h
    exact .startTask hprocessing hrunning
  · rename_i hhalted
    obtain rfl := Option.some.inj h
    exact .exitProcessing _ hprocessing (Bool.eq_false_of_not_eq_true hhalted)

/-- Behind the count the first packet is popped, if it is still there. -/
private theorem moves_of_processingPop {r2cpPacketsCount : UInt32}
    (hprocessing : b.processingThread = .popping r2cpPacketsCount)
    (h : b.processingStep modules = some b') : Moves modules b .processing b' := by
  unfold processingStep at h
  simp only [hprocessing] at h
  rw [PacketQueue.exec_finishPop] at h
  by_cases hcount : r2cpPacketsCount > 0
  · rw [if_pos hcount] at h
    cases hpackets : b.transceiverQueue.receptionQueue.packets with
    | nil =>
      rw [hpackets] at h
      obtain rfl := Option.some.inj h
      exact .missReceived r2cpPacketsCount hprocessing hcount hpackets
    | cons r2cpPacket packets =>
      rw [hpackets] at h
      obtain rfl := Option.some.inj h
      exact .popReceived r2cpPacketsCount r2cpPacket packets hprocessing hcount hpackets
  · rw [if_neg hcount] at h
    obtain rfl := Option.some.inj h
    exact .nothingReceived r2cpPacketsCount _ hprocessing hcount

/-- With a packet the task is finished, and there is a response, none, or an exception. -/
private theorem moves_of_processingTask {r2cpPacket : List UInt8}
    (hprocessing : b.processingThread = .processing r2cpPacket)
    (h : b.processingStep modules = some b') : Moves modules b .processing b' := by
  unfold processingStep at h
  simp only [hprocessing] at h
  rcases hexec : exec (b.packetProcessor.finishTask modules r2cpPacket) b.processingState
    with ⟨(e | response), w⟩
  · rw [hexec] at h
    obtain rfl := Option.some.inj h
    exact .taskThrows r2cpPacket e w hprocessing hexec
  rw [hexec] at h
  cases response with
  | none =>
    obtain rfl := Option.some.inj h
    exact .finishTask r2cpPacket w hprocessing hexec
  | some responseR2CPPacket =>
    obtain rfl := Option.some.inj h
    exact .respond r2cpPacket responseR2CPPacket w hprocessing hexec

/-- A response goes into the queue, or there is no room for it. -/
private theorem moves_of_processingPush {responseR2CPPacket : List UInt8} {newQueueSize : UInt32}
    (hprocessing : b.processingThread = .pushing responseR2CPPacket newQueueSize)
    (h : b.processingStep modules = some b') : Moves modules b .processing b' := by
  unfold processingStep at h
  simp only [hprocessing] at h
  rw [PacketQueue.exec_finishPush] at h
  by_cases hfits : newQueueSize ≤ b.transceiverQueue.transmissionQueue.maxQueueSize
  · rw [if_pos hfits] at h
    obtain rfl := Option.some.inj h
    exact .pushResponse responseR2CPPacket newQueueSize hprocessing hfits
  · rw [if_neg hfits] at h
    obtain rfl := Option.some.inj h
    exact .dropResponse responseR2CPPacket newQueueSize _ hprocessing hfits

/-- The steps of the processing thread. -/
theorem moves_of_processingStep (h : b.processingStep modules = some b') :
    Moves modules b .processing b' := by
  cases hprocessing : b.processingThread with
  | looping => exact moves_of_processingLoop hprocessing h
  | executing =>
    simp only [processingStep, hprocessing] at h
    obtain rfl := Option.some.inj h
    exact .countReceived hprocessing
  | popping r2cpPacketsCount => exact moves_of_processingPop hprocessing h
  | processing r2cpPacket => exact moves_of_processingTask hprocessing h
  | responding responseR2CPPacket =>
    simp only [processingStep, hprocessing] at h
    obtain rfl := Option.some.inj h
    exact .readQueueSize responseR2CPPacket hprocessing
  | pushing responseR2CPPacket newQueueSize => exact moves_of_processingPush hprocessing h
  | exited =>
    -- an exited thread takes no step
    simp only [processingStep, hprocessing, reduceCtorEq] at h

/-! The transmission thread likewise. -/

/-- At the head of its loop the thread starts a round, or exits. -/
private theorem moves_of_transmissionLoop {wsServer : WSServerOutcome}
    (htransmission : b.transmissionThread = .looping)
    (h : b.transmissionStep wsServer = some b') : Moves modules b (.transmission wsServer) b' := by
  unfold transmissionStep at h
  simp only [htransmission] at h
  split at h
  · rename_i hrunning
    obtain rfl := Option.some.inj h
    exact .startTransmit wsServer htransmission hrunning
  · rename_i hhalted
    obtain rfl := Option.some.inj h
    exact .exitTransmission wsServer _ htransmission (Bool.eq_false_of_not_eq_true hhalted)

/-- Behind the count the first response is popped, if it is still there. -/
private theorem moves_of_transmissionPop {wsServer : WSServerOutcome} {r2cpPacketsCount : UInt32}
    (htransmission : b.transmissionThread = .popping r2cpPacketsCount)
    (h : b.transmissionStep wsServer = some b') : Moves modules b (.transmission wsServer) b' := by
  unfold transmissionStep at h
  simp only [htransmission] at h
  rw [PacketQueue.exec_finishPop] at h
  by_cases hcount : r2cpPacketsCount > 0
  · rw [if_pos hcount] at h
    cases hpackets : b.transceiverQueue.transmissionQueue.packets with
    | nil =>
      rw [hpackets] at h
      obtain rfl := Option.some.inj h
      exact .missResponse wsServer r2cpPacketsCount htransmission hcount hpackets
    | cons r2cpPacket packets =>
      rw [hpackets] at h
      obtain rfl := Option.some.inj h
      exact .popResponse wsServer r2cpPacketsCount r2cpPacket packets htransmission hcount
        hpackets
  · rw [if_neg hcount] at h
    obtain rfl := Option.some.inj h
    exact .noResponse wsServer r2cpPacketsCount _ htransmission hcount

/-- With a response the thread looks for a connection, and drops the response without one. -/
private theorem moves_of_transmissionTest {wsServer : WSServerOutcome} {r2cpPacket : List UInt8}
    (htransmission : b.transmissionThread = .sending r2cpPacket)
    (h : b.transmissionStep wsServer = some b') : Moves modules b (.transmission wsServer) b' := by
  unfold transmissionStep at h
  simp only [htransmission] at h
  split at h
  · rename_i hconnected
    obtain rfl := Option.some.inj h
    exact .seeConnection wsServer r2cpPacket htransmission hconnected
  · rename_i hunconnected
    obtain rfl := Option.some.inj h
    exact .dropUnsent wsServer r2cpPacket htransmission
      (Bool.eq_false_of_not_eq_true hunconnected)

/-- The steps of the transmission thread. -/
theorem moves_of_transmissionStep {wsServer : WSServerOutcome}
    (h : b.transmissionStep wsServer = some b') :
    Moves modules b (.transmission wsServer) b' := by
  cases htransmission : b.transmissionThread with
  | looping => exact moves_of_transmissionLoop htransmission h
  | executing =>
    simp only [transmissionStep, htransmission] at h
    obtain rfl := Option.some.inj h
    exact .countResponses wsServer htransmission
  | popping r2cpPacketsCount => exact moves_of_transmissionPop htransmission h
  | sending r2cpPacket => exact moves_of_transmissionTest htransmission h
  | connected r2cpPacket =>
    simp only [transmissionStep, htransmission] at h
    -- how the send ends is up to websocketpp
    cases wsServer with
    | returns =>
      obtain rfl := Option.some.inj h
      exact .send r2cpPacket htransmission
    | throws =>
      obtain rfl := Option.some.inj h
      exact .sendThrows r2cpPacket htransmission
  | exited =>
    simp only [transmissionStep, htransmission, reduceCtorEq] at h
  | threw =>
    simp only [transmissionStep, htransmission, reduceCtorEq] at h

/-- Every step is one of them, and only a program that goes on takes it. -/
theorem moves_of_step {e : BrokerEvent η} (h : step modules b e = some b') :
    b.hasTerminated = false ∧ Moves modules b e b' := by
  unfold step at h
  split at h
  · cases h
  · rename_i hgoes
    refine ⟨Bool.eq_false_of_not_eq_true hgoes, ?_⟩
    cases e with
    | main wsServer => exact moves_of_mainStep h
    | reception event => exact moves_of_receptionStep h
    | finishMessage => exact moves_of_finishMessageStep h
    | processing => exact moves_of_processingStep h
    | transmission wsServer => exact moves_of_transmissionStep h

end Inversion

end R2CPRuntimeBroker

end R2CP
