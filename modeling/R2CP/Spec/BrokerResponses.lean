import R2CP.ForStd.Transition
import R2CP.Spec.BrokerSilence

/-!
# Responses of other code

The transceiver queue is a singleton, so robot modules and whatever else is in the program
can push responses past the packet processor. `SharedBroker` is the broker with such code
around it. A response that the queue accepts is handled once and in its turn. It is lost if
there is no connection when the transmission thread tests for one. Otherwise it is sent,
whole, to the operator whose handle the server has when it is sent, and this can be another
one by then.

## Key results

- `responseChange_of_sharedStep`: what any step does to the responses
- `everyState_served`: which responses were handled and sent, in every state of every run
-/

namespace R2CP

open StatefulExcept (exec Keeps)
open Transition (EveryState)

/-! ## Other code -/

/-- A step of the broker's own threads, or the last section of a `pushtotransmissionqueue`
    that other code has called, with the size that it has computed before. -/
inductive SharedEvent (η : Type) where
  | broker (e : BrokerEvent η)
  | push (responseR2CPPacket : List UInt8) (newQueueSize : UInt32)
  deriving DecidableEq, Repr

/-- A response that the transmission thread is done with: whether it has seen a connection
    for it, and the handle that the server had at the end. -/
structure HandledResponse (η : Type) where
  responseR2CPPacket : List UInt8
  sawConnection : Bool
  operatorConnectionHandle : Option η
  deriving DecidableEq, Repr

/-- The broker, with a record of the responses. -/
structure SharedBroker (η σ : Type) where
  broker : R2CPRuntimeBroker η σ
  acceptedResponses : List (List UInt8)
  handledResponses : List (HandledResponse η)

/-- What is asked of websocketpp for a response. -/
def HandledResponse.payload {η : Type} (r : HandledResponse η) :
    Option (Option η × List UInt8) :=
  if r.sawConnection then
    some (r.operatorConnectionHandle, Base64.base64Encode r.responseR2CPPacket)
  else
    none

/-- The response that the transmission thread has popped and is not done with. -/
def TransmissionThread.inHand : TransmissionThread → List (List UInt8)
  | .looping => []
  | .executing => []
  | .popping _ => []
  | .sending r2cpPacket => [r2cpPacket]
  | .connected r2cpPacket => [r2cpPacket]
  | .exited => []
  | .threw => []

/-- It has one response in its hands at a time. -/
private theorem TransmissionThread.length_inHand_le (transmissionThread : TransmissionThread) :
    transmissionThread.inHand.length ≤ 1 := by
  cases transmissionThread <;> simp [inHand]

namespace R2CPRuntimeBroker

variable {η σ : Type}

/-- Other code gets the exception, if there is one. -/
def pushStep (b : R2CPRuntimeBroker η σ) (responseR2CPPacket : List UInt8)
    (newQueueSize : UInt32) : Option (R2CPRuntimeBroker η σ) :=
  if b.hasTerminated then none
  else
    match exec (PacketQueue.finishPush .transmission responseR2CPPacket newQueueSize)
      b.transceiverQueue.transmissionQueue with
    | (.ok _, q) => some (b.setQueue .transmission q)
    | (.error _, _) => some b

/-- The responses that a step gets into the queue. -/
def acceptedBy (b : R2CPRuntimeBroker η σ) : SharedEvent η → List (List UInt8)
  | .broker _ => []
  | .push responseR2CPPacket newQueueSize =>
    if newQueueSize ≤ b.transceiverQueue.transmissionQueue.maxQueueSize then
      [responseR2CPPacket]
    else
      []

/-- A response that is done with now, with the handle that the server has. -/
def handledResponse (b : R2CPRuntimeBroker η σ) (r2cpPacket : List UInt8)
    (sawConnection : Bool) : HandledResponse η :=
  ⟨r2cpPacket, sawConnection, b.robotServer.operatorConnectionHandle⟩

/-- The response that a step of the transmission thread is the last one for. -/
def handledByTransmission (b : R2CPRuntimeBroker η σ) : List (HandledResponse η) :=
  match b.transmissionThread with
  | .sending r2cpPacket =>
    if b.robotServer.hasConnection then [] else [b.handledResponse r2cpPacket false]
  | .connected r2cpPacket => [b.handledResponse r2cpPacket true]
  | _ => []

/-- The responses that a step is the last one for. -/
def handledBy (b : R2CPRuntimeBroker η σ) : SharedEvent η → List (HandledResponse η)
  | .broker (.main _) => []
  | .broker (.reception _) => []
  | .broker .finishMessage => []
  | .broker .processing => []
  | .broker (.transmission _) => b.handledByTransmission
  | .push _ _ => []

/-- A step of the broker or of other code. -/
def sharedStep (modules : RobotModules σ) (b : R2CPRuntimeBroker η σ) :
    SharedEvent η → Option (R2CPRuntimeBroker η σ)
  | .broker e => step modules b e
  | .push responseR2CPPacket newQueueSize => b.pushStep responseR2CPPacket newQueueSize

/-! ## What a step does to the responses -/

/-- The packets in the transmission queue. -/
abbrev queuedResponses (b : R2CPRuntimeBroker η σ) : List (List UInt8) :=
  b.transceiverQueue.transmissionQueue.packets

/-- A step leaves the responses where they are, or one of them goes on: into the queue,
    to the transmission thread, or out. -/
inductive ResponseChange (b : R2CPRuntimeBroker η σ) (e : SharedEvent η)
    (b' : R2CPRuntimeBroker η σ) : Prop
  | same (haccepted : b.acceptedBy e = []) (hhandled : b.handledBy e = [])
    (hqueued : b'.queuedResponses = b.queuedResponses)
    (hinHand : b'.transmissionThread.inHand = b.transmissionThread.inHand)
    (hsent : b'.robotServer.sentPayloads = b.robotServer.sentPayloads)
  | pushes (responseR2CPPacket : List UInt8) (haccepted : b.acceptedBy e = [responseR2CPPacket])
    (hhandled : b.handledBy e = [])
    (hqueued : b'.queuedResponses = b.queuedResponses ++ [responseR2CPPacket])
    (hinHand : b'.transmissionThread.inHand = b.transmissionThread.inHand)
    (hsent : b'.robotServer.sentPayloads = b.robotServer.sentPayloads)
  | pops (responseR2CPPacket : List UInt8) (haccepted : b.acceptedBy e = [])
    (hhandled : b.handledBy e = [])
    (hqueued : b.queuedResponses = responseR2CPPacket :: b'.queuedResponses)
    (hbefore : b.transmissionThread.inHand = [])
    (hinHand : b'.transmissionThread.inHand = [responseR2CPPacket])
    (hsent : b'.robotServer.sentPayloads = b.robotServer.sentPayloads)
  | handles (r : HandledResponse η) (haccepted : b.acceptedBy e = [])
    (hhandled : b.handledBy e = [r]) (hqueued : b'.queuedResponses = b.queuedResponses)
    (hbefore : b.transmissionThread.inHand = [r.responseR2CPPacket])
    (hinHand : b'.transmissionThread.inHand = [])
    (hsent : b'.robotServer.sentPayloads = b.robotServer.sentPayloads ++ r.payload.toList)

variable {modules : RobotModules σ} {b b' : R2CPRuntimeBroker η σ}

/-- The handlers of the server leave the responses where they are. -/
private theorem responseChange_onServer {e : SharedEvent η} (haccepted : b.acceptedBy e = [])
    (hhandled : b.handledBy e = []) {x : R2CPWebSocketServer.WebSocketServer η Unit}
    (hx : Keeps (R2CPWebSocketServer.HasSent b.robotServer.sentPayloads b.transceiverQueue) x)
    (hserver : b'.robotServer = (b.onServer x).robotServer)
    (hthread : b'.transmissionThread = b.transmissionThread) : ResponseChange b e b' := by
  have hkept := hx b.robotServer ⟨rfl, rfl⟩
  apply ResponseChange.same haccepted hhandled
  · show b'.robotServer.transceiverQueue.transmissionQueue.packets = _
    rw [hserver, show (b.onServer x).robotServer.transceiverQueue = b.transceiverQueue from
      hkept.transceiverQueue]
  · rw [hthread]
  · rw [hserver]
    exact hkept.sentPayloads

/-- A task of the processing thread does too. -/
private theorem responseChange_setProcessingState {r2cpPacket : List UInt8}
    {r : Except StdException (Option (List UInt8))} {w : ProcessingState σ}
    (hexec : exec (b.packetProcessor.finishTask modules r2cpPacket) b.processingState = (r, w))
    (hserver : b'.robotServer = (b.setProcessingState w).robotServer)
    (hthread : b'.transmissionThread = b.transmissionThread) :
    ResponseChange b (.broker .processing) b' := by
  have hkept := R2CPPacketProcessor.keeps_finishTask b.packetProcessor modules r2cpPacket
    b.processingState rfl
  rw [hexec] at hkept
  apply ResponseChange.same rfl rfl
  · show b'.robotServer.transceiverQueue.transmissionQueue.packets = _
    rw [hserver, show (b.setProcessingState w).robotServer.transceiverQueue = b.transceiverQueue
      from hkept]
  · rw [hthread]
  · rw [hserver]
    rfl

/-- A send is the last request to websocketpp, whether it throws or not. -/
private theorem sentPayloads_sendPacket (b : R2CPRuntimeBroker η σ) (r2cpPacket : List UInt8) :
    (b.sendPacket r2cpPacket).robotServer.sentPayloads =
      b.robotServer.sentPayloads ++ (b.handledResponse r2cpPacket true).payload.toList := by
  simp [sendPacket, onServer, R2CPWebSocketServer.callWSServer, R2CPWebSocketServer.sentPayloads,
    handledResponse, HandledResponse.payload]

/-- The transmission thread sends its response and is done with it. -/
private theorem responseChange_sends {wsServer : WSServerOutcome} {r2cpPacket : List UInt8}
    (hpc : b.transmissionThread = .connected r2cpPacket)
    (hqueued : b'.queuedResponses = b.queuedResponses)
    (hdone : b'.transmissionThread.inHand = [])
    (hsent : b'.robotServer.sentPayloads = (b.sendPacket r2cpPacket).robotServer.sentPayloads) :
    ResponseChange b (.broker (.transmission wsServer)) b' := by
  have hinHand : b.transmissionThread.inHand = [r2cpPacket] := by rw [hpc]; rfl
  have hhandled : b.handledBy (.broker (.transmission wsServer)) =
      [b.handledResponse r2cpPacket true] := by
    rw [handledBy, handledByTransmission, hpc]
  exact .handles _ rfl hhandled hqueued hinHand hdone (hsent.trans (sentPayloads_sendPacket b _))

/-- The transmission thread comes to its point with nothing in its hands. -/
private theorem handledByTransmission_eq_nil (h : b.transmissionThread.inHand = []) :
    b.handledByTransmission = [] := by
  unfold handledByTransmission
  cases hpc : b.transmissionThread with
  | sending r2cpPacket =>
    rw [hpc] at h
    cases h
  | connected r2cpPacket =>
    rw [hpc] at h
    cases h
  | _ => rfl

/-- Every step of the broker, by what it does to the responses. -/
private theorem responseChange_of_moves (h : HasNoResponse b.processingThread) {e : BrokerEvent η}
    (hmoves : Moves modules b e b') : ResponseChange b (.broker e) b' := by
  cases hmoves with
  -- what does not touch the transmission queue
  | quit | joinProcessor | closeThrows | joinReception => exact .same rfl rfl rfl rfl rfl
  | onMessage | stopReceiving | acceptMessage | rejectMessage => exact .same rfl rfl rfl rfl rfl
  | startTask | exitProcessing | countReceived | popReceived | missReceived | nothingReceived =>
    exact .same rfl rfl rfl rfl rfl
  | closeConnections =>
    exact responseChange_onServer rfl rfl R2CPWebSocketServer.keeps_closeWSServerConnections rfl rfl
  | onOpen hdl =>
    exact responseChange_onServer rfl rfl (R2CPWebSocketServer.keeps_onOpen hdl) rfl rfl
  | onClose hdl =>
    exact responseChange_onServer rfl rfl (R2CPWebSocketServer.keeps_onClose hdl) rfl rfl
  -- a task comes to its push later, or never
  | finishTask r2cpPacket w _ hexec => exact responseChange_setProcessingState hexec rfl rfl
  | respond r2cpPacket responseR2CPPacket w _ hexec =>
    exact responseChange_setProcessingState hexec rfl rfl
  | taskThrows r2cpPacket e w _ hexec => exact responseChange_setProcessingState hexec rfl rfl
  | readQueueSize => exact .same rfl rfl rfl rfl rfl
  | pushResponse responseR2CPPacket newQueueSize hpc
  | dropResponse responseR2CPPacket newQueueSize entry hpc =>
    -- the processing thread never comes here
    rw [hpc] at h
    exact h.elim
  -- the transmission thread without a response
  | missResponse wsServer r2cpPacketsCount hpc =>
    have hinHand : b.transmissionThread.inHand = [] := by rw [hpc]; rfl
    exact .same rfl (handledByTransmission_eq_nil hinHand) rfl rfl rfl
  | startTransmit wsServer hpc | exitTransmission wsServer entry hpc
  | countResponses wsServer hpc | noResponse wsServer r2cpPacketsCount entry hpc =>
    have hinHand : b.transmissionThread.inHand = [] := by rw [hpc]; rfl
    exact .same rfl (handledByTransmission_eq_nil hinHand) rfl (by rw [hinHand]; rfl) rfl
  -- it takes the first one
  | popResponse wsServer r2cpPacketsCount r2cpPacket packets hpc hcount hpackets =>
    have hinHand : b.transmissionThread.inHand = [] := by rw [hpc]; rfl
    have hqueued : b.queuedResponses =
        r2cpPacket :: b.transceiverQueue.transmissionQueue.packets.tail := by
      show b.transceiverQueue.transmissionQueue.packets = _
      rw [hpackets, List.tail_cons]
    exact .pops r2cpPacket rfl (handledByTransmission_eq_nil hinHand) hqueued hinHand rfl rfl
  | seeConnection wsServer r2cpPacket hpc hconnected =>
    -- the response stays in its hands
    have hhandled : b.handledByTransmission = [] := by
      rw [handledByTransmission, hpc]
      exact if_pos hconnected
    exact .same rfl hhandled rfl (by rw [hpc]; rfl) rfl
  -- it sends it, or drops it
  | send r2cpPacket hpc => exact responseChange_sends hpc rfl rfl rfl
  | sendThrows r2cpPacket hpc => exact responseChange_sends hpc rfl rfl rfl
  | dropUnsent wsServer r2cpPacket hpc hunconnected =>
    -- done with as well, but websocketpp is not asked for anything
    have hinHand : b.transmissionThread.inHand = [r2cpPacket] := by rw [hpc]; rfl
    have hhandled : b.handledByTransmission = [b.handledResponse r2cpPacket false] := by
      rw [handledByTransmission, hpc]
      exact if_neg (Bool.eq_false_iff.mp hunconnected)
    exact .handles _ rfl hhandled rfl hinHand rfl (List.append_nil _).symm

/-- A push of other code queues its packet, or changes nothing. -/
private theorem pushStep_cases {responseR2CPPacket : List UInt8} {newQueueSize : UInt32}
    (h : b.pushStep responseR2CPPacket newQueueSize = some b') :
    (newQueueSize ≤ b.transceiverQueue.transmissionQueue.maxQueueSize ∧
      b' = b.setQueue .transmission
        (b.transceiverQueue.transmissionQueue.append responseR2CPPacket)) ∨
    (¬ newQueueSize ≤ b.transceiverQueue.transmissionQueue.maxQueueSize ∧ b' = b) := by
  unfold pushStep at h
  split at h
  · cases h
  · rw [PacketQueue.exec_finishPush] at h
    by_cases hfits : newQueueSize ≤ b.transceiverQueue.transmissionQueue.maxQueueSize
    · rw [if_pos hfits] at h
      exact .inl ⟨hfits, (Option.some.inj h).symm⟩
    · rw [if_neg hfits] at h
      exact .inr ⟨hfits, (Option.some.inj h).symm⟩

/-- Every step, with what it keeps of the processing thread. -/
theorem responseChange_of_sharedStep (h : HasNoResponse b.processingThread) {e : SharedEvent η}
    (hstep : sharedStep modules b e = some b') :
    HasNoResponse b'.processingThread ∧ ResponseChange b e b' := by
  cases e with
  | broker e =>
    have hmoves := (moves_of_step hstep).2
    exact ⟨hasNoResponse_of_moves h hmoves, responseChange_of_moves h hmoves⟩
  | push responseR2CPPacket newQueueSize =>
    rcases pushStep_cases hstep with ⟨hfits, rfl⟩ | ⟨hfull, rfl⟩
    · exact ⟨h, .pushes responseR2CPPacket (if_pos hfits) rfl rfl rfl rfl⟩
    · exact ⟨h, .same (if_neg hfull) rfl rfl rfl rfl⟩

end R2CPRuntimeBroker

/-! ## Runs -/

namespace SharedBroker

open R2CPRuntimeBroker (HasNoResponse ResponseChange)

variable {η σ : Type}

/-- The broker after its start, when nothing has been pushed. -/
def started (packetProcessor : R2CPPacketProcessor) (moduleStates : σ) : SharedBroker η σ :=
  ⟨.started packetProcessor moduleStates, [], []⟩

/-- A step, with what it does to the responses. -/
def step (modules : RobotModules σ) (o : SharedBroker η σ) (e : SharedEvent η) :
    Option (SharedBroker η σ) :=
  (R2CPRuntimeBroker.sharedStep modules o.broker e).map fun b =>
    ⟨b, o.acceptedResponses ++ o.broker.acceptedBy e, o.handledResponses ++ o.broker.handledBy e⟩

/-- The accepted responses are those that were handled, then the one in the hands of the
    transmission thread, if there is one, then those in the queue; and what was sent was
    sent for the handled ones for which there was a connection. -/
structure Served (o : SharedBroker η σ) : Prop where
  accepted : o.acceptedResponses = o.handledResponses.map HandledResponse.responseR2CPPacket ++
    o.broker.transmissionThread.inHand ++ o.broker.queuedResponses
  atMostOne : o.broker.transmissionThread.inHand.length ≤ 1
  sent : o.broker.robotServer.sentPayloads = o.handledResponses.filterMap HandledResponse.payload

/-- What the steps keep. -/
structure ServedInv (o : SharedBroker η σ) : Prop where
  processing : HasNoResponse o.broker.processingThread
  served : Served o

/-- There are no responses at the start. -/
private theorem servedInv_started (packetProcessor : R2CPPacketProcessor) (moduleStates : σ) :
    ServedInv (started packetProcessor moduleStates : SharedBroker η σ) :=
  ⟨trivial, rfl, Nat.zero_le _, rfl⟩

/-- A step moves a response on or leaves all where they are. -/
private theorem servedInv_step {modules : RobotModules σ} {o o' : SharedBroker η σ}
    {e : SharedEvent η} (h : ServedInv o) (hstep : step modules o e = some o') :
    ServedInv o' := by
  obtain ⟨b, hshared, rfl⟩ := Option.map_eq_some_iff.mp hstep
  obtain ⟨hprocessing, hchange⟩ :=
    R2CPRuntimeBroker.responseChange_of_sharedStep h.processing hshared
  refine ⟨hprocessing, ?_, b.transmissionThread.length_inHand_le, ?_⟩
  · show o.acceptedResponses ++ o.broker.acceptedBy e =
      (o.handledResponses ++ o.broker.handledBy e).map HandledResponse.responseR2CPPacket ++
        b.transmissionThread.inHand ++ b.queuedResponses
    rw [h.served.accepted]
    -- one place more or less on both sides
    cases hchange with
    | same haccepted hhandled hqueued hinHand =>
      rw [haccepted, hhandled, hqueued, hinHand, List.append_nil, List.append_nil]
    | pushes responseR2CPPacket haccepted hhandled hqueued hinHand =>
      rw [haccepted, hhandled, hqueued, hinHand, List.append_nil, List.append_assoc]
    | pops responseR2CPPacket haccepted hhandled hqueued hbefore hinHand =>
      rw [haccepted, hhandled, hinHand, hbefore, hqueued]
      simp only [List.append_nil, List.append_assoc, List.singleton_append]
    | handles r haccepted hhandled hqueued hbefore hinHand =>
      rw [haccepted, hhandled, hqueued, hbefore, hinHand]
      simp only [List.append_nil, List.map_append, List.map_singleton]
  · show b.robotServer.sentPayloads =
      (o.handledResponses ++ o.broker.handledBy e).filterMap HandledResponse.payload
    rw [List.filterMap_append, ← h.served.sent]
    cases hchange with
    | same _ hhandled _ _ hsent => rw [hhandled, hsent, List.filterMap_nil, List.append_nil]
    | pushes _ _ hhandled _ _ hsent =>
      rw [hhandled, hsent, List.filterMap_nil, List.append_nil]
    | pops _ _ hhandled _ _ _ hsent => rw [hhandled, hsent, List.filterMap_nil, List.append_nil]
    | handles r _ hhandled _ _ _ hsent =>
      rw [hhandled, hsent]
      cases hpayload : r.payload <;> simp [hpayload]

/-- In every state of every run, with other code that pushes whenever it likes and whatever
    size it has read, the responses that the queue accepted are handled once and in their
    turn, up to the one in the hands of the transmission thread and those still queued. -/
theorem everyState_served (modules : RobotModules σ) (packetProcessor : R2CPPacketProcessor)
    (moduleStates : σ) (es : List (SharedEvent η)) :
    EveryState (step modules) Served (started packetProcessor moduleStates) es := by
  have hstep : ∀ (o : SharedBroker η σ) e o', ServedInv o → True → step modules o e = some o' →
      ServedInv o' :=
    fun o e o' h _ hstep => servedInv_step h hstep
  exact Transition.everyState_of_invariant hstep (fun _ h => h.served)
    (servedInv_started packetProcessor moduleStates) fun _ _ => trivial

/-- A response for which the thread has seen operator 1, sent to operator 2. -/
def redirectedResponse : List (SharedEvent Nat) :=
  [.broker (.reception (.onOpen 1)), .push [82] 1, .broker (.transmission .returns),
    .broker (.transmission .returns), .broker (.transmission .returns),
    .broker (.transmission .returns), .broker (.reception (.onClose 1)),
    .broker (.reception (.onOpen 2)), .broker (.transmission .returns)]

/-- The handle is read behind the test for a connection. -/
example : (Transition.run (step ⟨fun _ => pure []⟩) (started .new ()) redirectedResponse).map
    (·.handledResponses) = some [⟨[82], true, some 2⟩] := rfl

end SharedBroker

end R2CP
