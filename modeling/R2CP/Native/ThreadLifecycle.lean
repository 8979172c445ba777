import R2CP.ForStd.ExceptState

/-!
# Thread lifecycle

The `std::thread*` members of `R2CPPacketProcessor` and `R2CPWebSocketServer`, and
the member functions that start, join and delete what they point to. The work of
the threads is modelled elsewhere; a `join` that never returns is a run that is
looked at up to there.

Every join, delete and assignment is recorded with what the pointer was before it,
also when it has no defined meaning. A call that meets one of those ends there.
-/

namespace R2CP

/-- What a thread pointer is. A pointer that was never assigned is compared with
    `nullptr` all the same, and `isNull` is what that says. -/
inductive ThreadPointer where
  | indeterminate (isNull : Bool)
  | null
  | started
  | joined
  deriving DecidableEq, Repr

/-- What is done to a thread pointer, with what the pointer was. -/
inductive ThreadAccess where
  | join (pointer : ThreadPointer)
  | delete (pointer : ThreadPointer)
  | overwrite (pointer : ThreadPointer)
  deriving DecidableEq, Repr

/-- How a call can end early. `systemError` is thrown by the `join` of a thread that was
    joined, `wsServerError` by websocketpp; the program goes on after neither of
    the other two. -/
inductive ThreadError where
  | systemError
  | wsServerError
  | terminate
  | undefinedBehavior
  deriving DecidableEq, Repr

/-- A thread pointer with the accesses to it so far. -/
structure ThreadMember where
  pointer : ThreadPointer
  accesses : List ThreadAccess
  deriving DecidableEq, Repr

namespace ThreadMember

/-- A computation on a thread pointer. -/
abbrev ThreadOperation := StatefulExcept ThreadError ThreadMember

/-- A member that no constructor assigns. -/
def unassigned (isNull : Bool) : ThreadMember := ⟨.indeterminate isNull, []⟩

/-- The comparison with `nullptr`. -/
def isNotNull : ThreadOperation Bool := do
  match (← get).pointer with
  | .indeterminate isNull => pure !isNull
  | .null => pure false
  | .started => pure true
  | .joined => pure true

/-- Assign a new value to the pointer. -/
def assign (pointer : ThreadPointer) : ThreadOperation Unit :=
  modify fun t => ⟨pointer, t.accesses ++ [.overwrite t.pointer]⟩

/-- Assign a new `std::thread`. -/
def start : ThreadOperation Unit := assign .started

/-- `join` waits for the thread and marks it as joined. -/
def join : ThreadOperation Unit := do
  let pointer := (← get).pointer
  modify fun t => { t with accesses := t.accesses ++ [.join pointer] }
  match pointer with
  | .started => modify fun t => { t with pointer := .joined }
  | .joined => throw .systemError
  | .indeterminate _ => throw .undefinedBehavior
  | .null => throw .undefinedBehavior

/-- `delete`, which leaves the pointer as it is. -/
def delete : ThreadOperation Unit := do
  let pointer := (← get).pointer
  modify fun t => { t with accesses := t.accesses ++ [.delete pointer] }
  match pointer with
  | .started => throw .terminate
  | .joined => pure ()
  | .indeterminate _ => throw .undefinedBehavior
  | .null => pure ()

end ThreadMember

/-- The calls after construction. `ω` is what else a `halt` meets, and destruction with
    it, since both destructors call `halt`. -/
inductive LifecycleCall (ω : Type) where
  | run
  | halt (w : ω)
  | waitUntilFinished
  | destruct (w : ω)
  deriving DecidableEq, Repr

/-- The two constructors that both classes have. -/
inductive Constructor where
  | default
  | withPollTimeout (pollTimeoutInMilliseconds : UInt32)
  deriving DecidableEq, Repr

namespace Constructor

/-- What the default constructors take. -/
def defaultPollTimeoutInMilliseconds : UInt32 := 10

/-- The value of `polltimeoutinmilliseconds`. -/
def pollTimeoutInMilliseconds : Constructor → UInt32
  | .default => defaultPollTimeoutInMilliseconds
  | .withPollTimeout pollTimeoutInMilliseconds => pollTimeoutInMilliseconds

end Constructor

/-! ## Packet processor -/

/-- The members of `R2CPPacketProcessor` that are about its thread. -/
structure PacketProcessorThread where
  isRunning : Bool
  pollTimeoutInMilliseconds : UInt32
  packetProcessorThread : ThreadMember
  deriving DecidableEq, Repr

namespace PacketProcessorThread

/-- A member function of the processor. -/
abbrev Call := StatefulExcept ThreadError PacketProcessorThread

/-- Neither constructor assigns the thread pointer. -/
def new (constructor : Constructor) (isNull : Bool) : PacketProcessorThread :=
  ⟨false, constructor.pollTimeoutInMilliseconds, .unassigned isNull⟩

/-- `isrunning = …`, which the thread looks at. -/
def setRunning (isRunning : Bool) : Call Unit :=
  modify fun p => { p with isRunning }

/-- Do something to the thread pointer. -/
def onThread {α : Type} (x : ThreadMember.ThreadOperation α) : Call α :=
  StatefulExcept.onPart packetProcessorThread (fun t p => { p with packetProcessorThread := t }) x

/-- `R2CPPacketProcessor::run`. -/
def run : Call Unit := do
  setRunning true
  onThread ThreadMember.start

/-- `waituntilfinished`, without a test of the pointer. -/
def waitUntilFinished : Call Unit :=
  onThread ThreadMember.join

/-- `R2CPPacketProcessor::halt`. -/
def halt : Call Unit := do
  setRunning false
  if ← onThread ThreadMember.isNotNull then
    waitUntilFinished
    onThread ThreadMember.delete
    onThread (ThreadMember.assign .null)
  else
    pure ()

/-- The destructor clears the registry after `halt`. -/
def destruct : Call Unit := halt

/-- The state that a call leaves. -/
def step (p : PacketProcessorThread) : LifecycleCall Unit → Option PacketProcessorThread
  | .run => some (StatefulExcept.exec run p).2
  | .halt _ => some (StatefulExcept.exec halt p).2
  | .waitUntilFinished => some (StatefulExcept.exec waitUntilFinished p).2
  | .destruct _ => some (StatefulExcept.exec destruct p).2

end PacketProcessorThread

/-! ## WebSocket server -/

/-- How `stop_listening` and `closewsserverconnections` end: websocketpp throws when it
    was not listening, for one. -/
inductive WSServerClosing where
  | returns
  | throws
  deriving DecidableEq, Repr

/-- The members of `R2CPWebSocketServer` that are about its threads. -/
structure WebSocketServerThreads where
  isRunning : Bool
  pollTimeoutInMilliseconds : UInt32
  receptionThread : ThreadMember
  transmissionThread : ThreadMember
  deriving DecidableEq, Repr

namespace WebSocketServerThreads

/-- A member function of the server. -/
abbrev Call := StatefulExcept ThreadError WebSocketServerThreads

/-- Neither constructor assigns the thread pointers. -/
def new (constructor : Constructor) (isReceptionNull isTransmissionNull : Bool) :
    WebSocketServerThreads :=
  ⟨false, constructor.pollTimeoutInMilliseconds, .unassigned isReceptionNull,
    .unassigned isTransmissionNull⟩

/-- `isrunning = …`, which the transmission thread looks at. -/
def setRunning (isRunning : Bool) : Call Unit :=
  modify fun s => { s with isRunning }

/-- Do something to the pointer of the reception thread, -/
def onReceptionThread {α : Type} (x : ThreadMember.ThreadOperation α) : Call α :=
  StatefulExcept.onPart receptionThread (fun t s => { s with receptionThread := t }) x

/-- or to that of the transmission thread. -/
def onTransmissionThread {α : Type} (x : ThreadMember.ThreadOperation α) : Call α :=
  StatefulExcept.onPart transmissionThread (fun t s => { s with transmissionThread := t }) x

/-- `R2CPWebSocketServer::run`. -/
def run : Call Unit := do
  setRunning true
  onReceptionThread ThreadMember.start
  onTransmissionThread ThreadMember.start

/-- `waituntilfinished` of both threads. -/
def waitUntilFinished : Call Unit := do
  onReceptionThread ThreadMember.join
  onTransmissionThread ThreadMember.join

/-- `stop_listening` and `closewsserverconnections`. -/
def closeWSServer : WSServerClosing → Call Unit
  | .returns => pure ()
  | .throws => throw .wsServerError

/-- The first half of `halt`, -/
def haltTransmissionThread : Call Unit := do
  if ← onTransmissionThread ThreadMember.isNotNull then
    onTransmissionThread ThreadMember.join
    onTransmissionThread ThreadMember.delete
    onTransmissionThread (ThreadMember.assign .null)
  else
    pure ()

/-- and the second one, in which websocketpp can throw. -/
def haltReceptionThread (closing : WSServerClosing) : Call Unit := do
  if ← onReceptionThread ThreadMember.isNotNull then
    closeWSServer closing
    onReceptionThread ThreadMember.join
    onReceptionThread ThreadMember.delete
    onReceptionThread (ThreadMember.assign .null)
  else
    pure ()

/-- `R2CPWebSocketServer::halt`. -/
def halt (closing : WSServerClosing) : Call Unit := do
  setRunning false
  haltTransmissionThread
  haltReceptionThread closing

/-- The destructor. -/
def destruct (closing : WSServerClosing) : Call Unit := halt closing

/-- The state that a call leaves. -/
def step (s : WebSocketServerThreads) :
    LifecycleCall WSServerClosing → Option WebSocketServerThreads
  | .run => some (StatefulExcept.exec run s).2
  | .halt closing => some (StatefulExcept.exec (halt closing) s).2
  | .waitUntilFinished => some (StatefulExcept.exec waitUntilFinished s).2
  | .destruct closing => some (StatefulExcept.exec (destruct closing) s).2

end WebSocketServerThreads

/-! ## Runtime broker -/

/-- The threads of the members of `R2CPRuntimeBroker`. -/
structure RuntimeBrokerThreads where
  robotServer : WebSocketServerThreads
  packetProcessor : PacketProcessorThread
  deriving DecidableEq, Repr

namespace RuntimeBrokerThreads

/-- A member function of the broker. -/
abbrev Call := StatefulExcept ThreadError RuntimeBrokerThreads

/-- The two constructors of `R2CPRuntimeBroker`. -/
inductive Constructor where
  | default
  | withPollTimeouts (robotServerPollTimeoutInMilliseconds : UInt32)
    (packetProcessorPollTimeoutInMilliseconds : UInt32)
  deriving DecidableEq, Repr

/-- The constructors of the members that a constructor calls. -/
def Constructor.ofRobotServer : Constructor → R2CP.Constructor
  | .default => .default
  | .withPollTimeouts robotServerPollTimeoutInMilliseconds _ =>
    .withPollTimeout robotServerPollTimeoutInMilliseconds

/-- Likewise for the packet processor. -/
def Constructor.ofPacketProcessor : Constructor → R2CP.Constructor
  | .default => .default
  | .withPollTimeouts _ packetProcessorPollTimeoutInMilliseconds =>
    .withPollTimeout packetProcessorPollTimeoutInMilliseconds

/-- A broker without runs. What its pointers happen to be is up to the memory. -/
def new (constructor : Constructor)
    (isReceptionNull isTransmissionNull isProcessorNull : Bool) : RuntimeBrokerThreads where
  robotServer := .new constructor.ofRobotServer isReceptionNull isTransmissionNull
  packetProcessor := .new constructor.ofPacketProcessor isProcessorNull

/-- Call a member function of the server, -/
def onRobotServer {α : Type} (x : WebSocketServerThreads.Call α) : Call α :=
  StatefulExcept.onPart robotServer (fun s b => { b with robotServer := s }) x

/-- or one of the processor. -/
def onPacketProcessor {α : Type} (x : PacketProcessorThread.Call α) : Call α :=
  StatefulExcept.onPart packetProcessor (fun p b => { b with packetProcessor := p }) x

/-- Between the calls the user types until there is a `q`. -/
def run (closing : WSServerClosing) : Call Unit := do
  onRobotServer WebSocketServerThreads.run
  onPacketProcessor PacketProcessorThread.run
  onPacketProcessor PacketProcessorThread.halt
  onRobotServer (WebSocketServerThreads.halt closing)

/-- The destructor, and the destructors of the members, the last declared one first. What
    is thrown ends the program. -/
def destruct (closing memberClosing : WSServerClosing) : Call Unit := do
  onPacketProcessor PacketProcessorThread.halt
  onRobotServer (WebSocketServerThreads.halt closing)
  onPacketProcessor PacketProcessorThread.destruct
  onRobotServer (WebSocketServerThreads.destruct memberClosing)

end RuntimeBrokerThreads

/-- The calls after construction. The server is halted once by a `run`, and twice by
    the destruction. -/
inductive RuntimeBrokerCall where
  | run (closing : WSServerClosing)
  | destruct (closing memberClosing : WSServerClosing)
  deriving DecidableEq, Repr

namespace RuntimeBrokerThreads

/-- The state that a call leaves. -/
def step (b : RuntimeBrokerThreads) : RuntimeBrokerCall → Option RuntimeBrokerThreads
  | .run closing => some (StatefulExcept.exec (run closing) b).2
  | .destruct closing memberClosing =>
    some (StatefulExcept.exec (destruct closing memberClosing) b).2

end RuntimeBrokerThreads

end R2CP
