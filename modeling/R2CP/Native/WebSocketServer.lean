import R2CP.Native.Base64
import R2CP.Native.Logger
import R2CP.Native.TransceiverQueue

/-!
# WebSocket server

The connection handlers of `R2CPWebSocketServer` and the tasks that use what they
keep: whether an operator is connected, and the handle of that connection. The
websocketpp library calls the handlers with a connection handle, an `η` here, and
is called back through `wsserver`; those calls are recorded in order.

`transmitR2CPPacket` is one round of the loop in `transmitr2cppackettask`.
-/

namespace R2CP

/-- The close codes that the server uses. -/
inductive CloseStatus where
  | goingAway
  | tryAgainLater
  deriving DecidableEq, Repr

/-- What the server asks websocketpp to do. No handle is the empty one. -/
inductive WSServerCall (η : Type) where
  | close (hdl : Option η) (status : CloseStatus) (reason : String)
  | send (hdl : Option η) (payload : List UInt8)
  deriving DecidableEq, Repr

/-- The connection members, with the singleton queue, the calls and the log. -/
structure R2CPWebSocketServer (η : Type) where
  hasConnection : Bool
  operatorConnectionHandle : Option η
  transceiverQueue : R2CPTransceiverQueue
  wsServerCalls : List (WSServerCall η)
  log : List LogEntry
  deriving DecidableEq, Repr

namespace R2CPWebSocketServer

variable {η : Type}

/-- A member function of the server. -/
abbrev WebSocketServer (η : Type) := StatefulExcept StdException (R2CPWebSocketServer η)

/-- A new server has no connection; the queue is what the singleton holds. -/
def new (transceiverQueue : R2CPTransceiverQueue) : R2CPWebSocketServer η :=
  ⟨false, none, transceiverQueue, [], []⟩

/-- Ask websocketpp for something. -/
def callWSServer (call : WSServerCall η) : WebSocketServer η Unit :=
  modify fun s => { s with wsServerCalls := s.wsServerCalls ++ [call] }

/-- An entry in the log. -/
def writeLog (entry : LogEntry) : WebSocketServer η Unit :=
  modify fun s => { s with log := s.log ++ [entry] }

/-- Use the singleton queue. -/
def onTransceiverQueue {α : Type} (x : R2CPTransceiverQueue.TransceiverQueue α) :
    WebSocketServer η α :=
  StatefulExcept.onPart R2CPWebSocketServer.transceiverQueue
    (fun t s => { s with transceiverQueue := t }) x

/-- A second operator is turned away. -/
def onOpen (hdl : η) : WebSocketServer η Unit := do
  if (← get).hasConnection then
    -- websocketpp calls `onClose` for this handle later on
    callWSServer (.close (some hdl) .tryAgainLater "Other operator already connected!")
  else
    modify fun s => { s with operatorConnectionHandle := some hdl, hasConnection := true }

/-- The handle is not looked at. -/
def onClose (_hdl : η) : WebSocketServer η Unit := do
  modify fun s => { s with hasConnection := false }
  writeLog (.formatted .info "Operator has closed connection." [])

/-- A received message is decoded and queued, or dropped when the queue is full. -/
def onMessage (r2cpPacketBase64 : List UInt8) : WebSocketServer η Unit :=
  let r2cpPacket := Base64.base64Decode r2cpPacketBase64
  tryCatch (onTransceiverQueue (R2CPTransceiverQueue.pushToReceptionQueue r2cpPacket))
    (StdException.onOverflowError fun what => writeLog (.what .warning what))

/-- A round of `transmitr2cppackettask`. -/
def transmitR2CPPacket : WebSocketServer η Unit :=
  tryCatch
    (do
      let r2cpPacket ← onTransceiverQueue R2CPTransceiverQueue.popFromTransmissionQueue
      let r2cpPacketBase64 := Base64.base64Encode r2cpPacket
      let s ← get
      -- without a connection the popped packet is dropped
      if s.hasConnection then
        callWSServer (.send s.operatorConnectionHandle r2cpPacketBase64)
      else
        pure ())
    (StdException.onUnderflowError fun what => writeLog (.what .info what))

/-- `closewsserverconnections`, when the server is halted. -/
def closeWSServerConnections : WebSocketServer η Unit := do
  let s ← get
  if s.hasConnection then
    callWSServer (.close s.operatorConnectionHandle .goingAway "Goodbye!")
    modify fun s => { s with hasConnection := false }
  else
    pure ()

end R2CPWebSocketServer

end R2CP
