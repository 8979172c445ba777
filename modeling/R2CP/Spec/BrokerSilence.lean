import R2CP.Native.RuntimeBroker
import R2CP.Spec.ProcessingFrame

/-!
# The robot never answers

Every response goes through the serializer, which throws on every list of commands. So
in no run of the program, with any robot modules, is a packet queued for an operator or
sent to one.

## Key results

- `everyState_silent`: no state of any run has anything to send
- `silent_of_moves`: the invariant, step by step
- `finishTask_noResponse`: a task never has a response
-/

namespace R2CP

open StatefulExcept (exec Meets Keeps)

namespace R2CPPacketProcessor

variable {σ : Type}

/-! ## Processing touches no queue -/

/-- The queues of a processing state. -/
abbrev HasQueue (t : R2CPTransceiverQueue) (w : ProcessingState σ) : Prop :=
  w.transceiverQueue = t

section Queues

variable {t : R2CPTransceiverQueue} (p : R2CPPacketProcessor) (modules : RobotModules σ)

/-- The response packet to commands, if there are any. -/
def responsePacket (responseCommands : List R2CPCommand) : Processing σ (Option (List UInt8)) :=
  if responseCommands.length > 0 then do
    let responseR2CPPacket ← serializeResponses responseCommands
    pure (some responseR2CPPacket)
  else
    pure none

/-- The inner `try` collects the responses and serializes them. -/
theorem prepareResponse_eq (r2cpPacket : List UInt8) :
    p.prepareResponse modules r2cpPacket =
      tryCatch (p.collectResponses modules r2cpPacket >>= responsePacket)
        (StdException.onInvalidArgument fun what => do
          writeLog (.what .warning what)
          pure none) := by
  simp only [prepareResponse, collectResponses, bind_assoc]
  rfl

/-- The serializer has a vector of its own. -/
private theorem keeps_serializeResponses (responses : List R2CPCommand) :
    Keeps (HasQueue (σ := σ) t) (serializeResponses responses) := by
  apply Keeps.bind
  · exact Keeps.modify fun _ h => h
  · exact fun _ => Keeps.onPart fun _ _ h => h

/-- The response packet is not queued here. -/
private theorem keeps_responsePacket (responses : List R2CPCommand) :
    Keeps (HasQueue (σ := σ) t) (responsePacket responses) := by
  apply Keeps.ite
  · exact (keeps_serializeResponses responses).bind fun _ => .pure _
  · exact .pure _

/-- A handler that writes a log entry leaves the queues alone. -/
private theorem keeps_handler (entry : LogEntry) :
    Keeps (HasQueue t)
      (do
        writeLog entry
        pure none : Processing σ (Option (List UInt8))) := by
  apply Keeps.bind
  · exact Keeps.modify fun _ h => h
  · exact fun _ => .pure _

/-- A task leaves the queues as it has found them behind its packet. -/
theorem keeps_finishTask (r2cpPacket : List UInt8) :
    Keeps (HasQueue t) (p.finishTask modules r2cpPacket) := by
  have hcollect : Keeps (HasQueue t) (p.collectResponses modules r2cpPacket) := fun w hw =>
    (keeps_collectResponses p modules r2cpPacket w ⟨hw, rfl⟩).transceiverQueue
  unfold finishTask
  rw [prepareResponse_eq]
  apply Keeps.tryCatch
  · apply Keeps.tryCatch
    · exact hcollect.bind fun responses => keeps_responsePacket responses
    · exact meets_onInvalidArgument (fun _ => keeps_handler _) fun _ _ h => h
  · exact meets_onUnderflowError (fun _ => keeps_handler _) fun _ _ h => h

/-! ## Processing has no response -/

/-- There is no response packet. -/
def NoResponse (r : Except StdException (Option (List UInt8))) (_w : ProcessingState σ) : Prop :=
  ∀ responseR2CPPacket, r ≠ .ok (some responseR2CPPacket)

/-- A task that returns nothing has no response. -/
private theorem noResponse_none (w : ProcessingState σ) : NoResponse (.ok none) w := by
  intro packet h
  cases h

/-- Nor has one that throws. -/
private theorem noResponse_error (e : StdException) (w : ProcessingState σ) :
    NoResponse (.error e) w := by
  intro packet h
  cases h

/-- Responses never get past the serializer, and without responses there is no packet. -/
private theorem responsePacket_noResponse (responses : List R2CPCommand) :
    Meets (fun _ => True) (responsePacket (σ := σ) responses) NoResponse := by
  intro w _
  unfold responsePacket
  split
  · have hthrows : (exec (serializeResponses responses) w).1 =
        .error R2CPSerializer.noBytesLeft := (serializeResponses_throws responses).outcome rfl
    rcases StatefulExcept.exec_bind_cases
      (serializeResponses responses : Processing σ (List UInt8))
      (fun packet => pure (some packet)) w with ⟨e, w', -, hbind⟩ | ⟨packet, w', hexec, -⟩
    · rw [hbind]
      exact noResponse_error e w'
    · rw [hexec] at hthrows
      cases hthrows
  · exact noResponse_none w

/-- A handler that writes a log entry leads to no response. -/
private theorem noResponse_handler (entry : LogEntry) :
    Meets (fun _ => True)
      (do
        writeLog entry
        pure none : Processing σ (Option (List UInt8)))
      NoResponse :=
  fun w _ => noResponse_none { w with log := w.log ++ [entry] }

/-- The serializer throws before there is a response. -/
private theorem prepareResponse_noResponse (r2cpPacket : List UInt8) :
    Meets (fun _ => True) (p.prepareResponse modules r2cpPacket) NoResponse := by
  have hcollect : Meets (fun _ => True) (p.collectResponses modules r2cpPacket)
      (fun _ _ => True) := fun _ _ => trivial
  have hbody : Meets (fun _ => True) (p.collectResponses modules r2cpPacket >>= responsePacket)
      NoResponse :=
    hcollect.bind (fun responses => responsePacket_noResponse responses) fun e w _ =>
      noResponse_error e w
  rw [prepareResponse_eq]
  refine hbody.tryCatch ?_ ?_
  · intro e w _
    exact meets_onInvalidArgument (fun _ => noResponse_handler _)
      (fun e w _ => noResponse_error e w) e w trivial
  · exact fun _ _ h => h

/-- So no task has one. -/
private theorem finishTask_noResponse (r2cpPacket : List UInt8) :
    Meets (fun _ => True) (p.finishTask modules r2cpPacket) NoResponse := by
  refine (prepareResponse_noResponse p modules r2cpPacket).tryCatch ?_ ?_
  · intro e w _
    exact meets_onUnderflowError (fun _ => noResponse_handler _)
      (fun e w _ => noResponse_error e w) e w trivial
  · exact fun _ _ h => h

end Queues

end R2CPPacketProcessor

/-! ## The handlers send nothing -/

namespace R2CPWebSocketServer

variable {η : Type} {sent : List (Option η × List UInt8)} {t : R2CPTransceiverQueue}

/-- What websocketpp was asked to send, each payload with its receiver. -/
def sentPayloads (s : R2CPWebSocketServer η) : List (Option η × List UInt8) :=
  s.wsServerCalls.filterMap fun
    | .send hdl payload => some (hdl, payload)
    | .close _ _ _ => none

/-- What was sent so far, and the queues. -/
structure HasSent (sent : List (Option η × List UInt8)) (t : R2CPTransceiverQueue)
    (s : R2CPWebSocketServer η) : Prop where
  transceiverQueue : s.transceiverQueue = t
  sentPayloads : s.sentPayloads = sent

/-- A closed connection is nothing sent. -/
theorem HasSent.close {s : R2CPWebSocketServer η} (h : HasSent sent t s) (hdl : Option η)
    (status : CloseStatus) (reason : String) :
    HasSent sent t { s with wsServerCalls := s.wsServerCalls ++ [.close hdl status reason] } where
  transceiverQueue := h.transceiverQueue
  sentPayloads := by
    rw [← h.sentPayloads]
    simp [R2CPWebSocketServer.sentPayloads]

/-- `onopen` sends nothing and leaves the queues alone. -/
theorem keeps_onOpen (hdl : η) : Keeps (HasSent sent t) (onOpen hdl) := by
  apply Keeps.bind
  · exact fun _ h => h
  · intro s
    apply Keeps.ite
    · exact Keeps.modify fun _ h => h.close _ _ _
    · exact Keeps.modify fun _ h => ⟨h.transceiverQueue, h.sentPayloads⟩

/-- So does `onclose`. -/
theorem keeps_onClose (hdl : η) : Keeps (HasSent sent t) (onClose hdl) := by
  apply Keeps.bind
  · exact Keeps.modify fun _ h => ⟨h.transceiverQueue, h.sentPayloads⟩
  · exact fun _ => Keeps.modify fun _ h => ⟨h.transceiverQueue, h.sentPayloads⟩

/-- So does the closing of the connections. -/
theorem keeps_closeWSServerConnections :
    Keeps (HasSent sent t) (closeWSServerConnections : WebSocketServer η Unit) := by
  apply Keeps.bind
  · exact fun _ h => h
  · intro s
    apply Keeps.ite
    · apply Keeps.bind
      · exact Keeps.modify fun _ h => h.close _ _ _
      · exact fun _ => Keeps.modify fun _ h => ⟨h.transceiverQueue, h.sentPayloads⟩
    · exact .pure _

end R2CPWebSocketServer

/-! ## Runs of the program -/

namespace R2CPRuntimeBroker

open R2CPWebSocketServer (HasSent)
open Transition (EveryState)

variable {η σ : Type} {modules : RobotModules σ} {b b' : R2CPRuntimeBroker η σ}

/-- The processing thread has no response in its hands. -/
def HasNoResponse : ProcessingThread → Prop
  | .responding _ => False
  | .pushing _ _ => False
  | _ => True

/-- The transmission thread has none either, and has not counted any. -/
def SendsNothing : TransmissionThread → Prop
  | .popping r2cpPacketsCount => r2cpPacketsCount = 0
  | .sending _ => False
  | .connected _ => False
  | .threw => False
  | _ => True

/-- There is no response anywhere: not with the processing thread, not in the queue, not
    with the transmission thread, and websocketpp was never asked to send one. -/
structure Silent (b : R2CPRuntimeBroker η σ) : Prop where
  processing : HasNoResponse b.processingThread
  queued : b.transceiverQueue.transmissionQueue.packets = []
  transmission : SendsNothing b.transmissionThread
  sent : b.robotServer.sentPayloads = []

/-- When `run` starts, nothing is sent or queued to be sent. -/
theorem silent_started (packetProcessor : R2CPPacketProcessor) (moduleStates : σ) :
    Silent (started packetProcessor moduleStates : R2CPRuntimeBroker η σ) where
  processing := trivial
  queued := rfl
  transmission := trivial
  sent := rfl

/-- A step of the server keeps the silence. -/
theorem Silent.onServer (h : Silent b) {x : R2CPWebSocketServer.WebSocketServer η Unit}
    (hx : Keeps (HasSent [] b.transceiverQueue) x) : Silent (b.onServer x) := by
  have hkept := hx b.robotServer ⟨rfl, h.sent⟩
  refine ⟨h.processing, ?_, h.transmission, hkept.sentPayloads⟩
  show (exec x b.robotServer).2.transceiverQueue.transmissionQueue.packets = []
  rw [hkept.transceiverQueue]
  exact h.queued

/-- A task ends without a response and leaves the queues alone. -/
theorem Silent.setProcessingState (h : Silent b) {r2cpPacket : List UInt8}
    {r : Except StdException (Option (List UInt8))} {w : ProcessingState σ}
    (hexec : exec (b.packetProcessor.finishTask modules r2cpPacket) b.processingState = (r, w)) :
    Silent (b.setProcessingState w) := by
  have hkept := R2CPPacketProcessor.keeps_finishTask b.packetProcessor modules r2cpPacket
    b.processingState rfl
  rw [hexec] at hkept
  refine ⟨h.processing, ?_, h.transmission, h.sent⟩
  show w.transceiverQueue.transmissionQueue.packets = []
  rw [show w.transceiverQueue = b.transceiverQueue from hkept]
  exact h.queued

/-- A task has no response, so the processing thread never has one in its hands. -/
theorem hasNoResponse_of_moves (h : HasNoResponse b.processingThread) {e : BrokerEvent η}
    (hmoves : Moves modules b e b') : HasNoResponse b'.processingThread := by
  cases hmoves with
  | startTask | exitProcessing | countReceived | popReceived | nothingReceived => trivial
  | finishTask => trivial
  | respond r2cpPacket responseR2CPPacket w _ hexec =>
    have hnone := R2CPPacketProcessor.finishTask_noResponse b.packetProcessor modules r2cpPacket
      b.processingState trivial
    rw [hexec] at hnone
    exact absurd rfl (hnone responseR2CPPacket)
  | readQueueSize responseR2CPPacket hpc =>
    rw [hpc] at h
    exact h.elim
  | pushResponse | dropResponse => trivial
  | quit | joinProcessor | closeConnections | closeThrows | joinReception => exact h
  | onOpen | onClose | onMessage | stopReceiving | acceptMessage | rejectMessage => exact h
  | missReceived | taskThrows => exact h
  | startTransmit | exitTransmission | countResponses | popResponse | missResponse => exact h
  | noResponse | seeConnection | send | sendThrows | dropUnsent => exact h

/-- Every step keeps the silence. -/
theorem silent_of_moves (h : Silent b) {e : BrokerEvent η} (hmoves : Moves modules b e b') :
    Silent b' := by
  have hprocessing := hasNoResponse_of_moves h.processing hmoves
  have hbefore := h.processing
  have htransmission := h.transmission
  cases hmoves with
  -- the server sends nothing by itself
  | closeConnections =>
    have hclosed := h.onServer R2CPWebSocketServer.keeps_closeWSServerConnections
    exact ⟨hclosed.processing, hclosed.queued, hclosed.transmission, hclosed.sent⟩
  | onOpen hdl => exact h.onServer (R2CPWebSocketServer.keeps_onOpen hdl)
  | onClose hdl => exact h.onServer (R2CPWebSocketServer.keeps_onClose hdl)
  | quit | joinProcessor | closeThrows | joinReception =>
    exact ⟨hprocessing, h.queued, h.transmission, h.sent⟩
  | onMessage | stopReceiving | acceptMessage | rejectMessage =>
    exact ⟨hprocessing, h.queued, h.transmission, h.sent⟩
  | startTask | exitProcessing | countReceived | popReceived | missReceived | nothingReceived =>
    exact ⟨hprocessing, h.queued, h.transmission, h.sent⟩
  -- a task has no response
  | finishTask r2cpPacket w _ hexec =>
    have hdone := h.setProcessingState hexec
    exact ⟨hprocessing, hdone.queued, hdone.transmission, hdone.sent⟩
  | taskThrows r2cpPacket e w _ hexec =>
    have hdone := h.setProcessingState hexec
    exact ⟨hprocessing, hdone.queued, hdone.transmission, hdone.sent⟩
  | respond | readQueueSize => exact hprocessing.elim
  | pushResponse responseR2CPPacket newQueueSize hpc
  | dropResponse responseR2CPPacket newQueueSize entry hpc =>
    rw [hpc] at hbefore
    exact hbefore.elim
  -- the transmission thread finds an empty queue
  | startTransmit => exact ⟨hprocessing, h.queued, trivial, h.sent⟩
  | exitTransmission => exact ⟨hprocessing, h.queued, trivial, h.sent⟩
  | countResponses =>
    refine ⟨hprocessing, h.queued, ?_, h.sent⟩
    show UInt32.ofNat b.transceiverQueue.transmissionQueue.packets.length = 0
    rw [h.queued]
    rfl
  | popResponse wsServer r2cpPacketsCount r2cpPacket packets _ _ hpackets =>
    rw [h.queued] at hpackets
    cases hpackets
  | missResponse wsServer r2cpPacketsCount hpc hcount =>
    -- a count of the empty queue
    rw [hpc] at htransmission
    exact absurd htransmission (UInt32.pos_iff_ne_zero.mp hcount)
  | noResponse => exact ⟨hprocessing, h.queued, trivial, h.sent⟩
  -- so it never has a packet in its hands
  | seeConnection _ r2cpPacket hpc | send r2cpPacket hpc | sendThrows r2cpPacket hpc
  | dropUnsent _ r2cpPacket hpc =>
    rw [hpc] at htransmission
    exact htransmission.elim

/-- The silence at the end of a run. -/
theorem silent_of_run {packetProcessor : R2CPPacketProcessor} {moduleStates : σ}
    {es : List (BrokerEvent η)}
    (hrun : Transition.run (step modules) (started packetProcessor moduleStates) es = some b) :
    Silent b := by
  have hstep : ∀ (b : R2CPRuntimeBroker η σ) e b', Silent b → step modules b e = some b' →
      Silent b' := fun b e b' h hstep => silent_of_moves h (moves_of_step hstep).2
  exact Transition.run_invariant hstep (silent_started packetProcessor moduleStates) hrun

/-- In no state of any run, with any registry and any robot modules, is there a response
    in the transmission queue or was one sent to an operator. -/
theorem everyState_silent (modules : RobotModules σ) (packetProcessor : R2CPPacketProcessor)
    (moduleStates : σ) (es : List (BrokerEvent η)) :
    EveryState (step modules)
      (fun b => b.transceiverQueue.transmissionQueue.packets = [] ∧
        ∀ call ∈ b.robotServer.wsServerCalls, ∀ hdl payload, call ≠ .send hdl payload)
      (started packetProcessor moduleStates) es := by
  have hstep : ∀ (b : R2CPRuntimeBroker η σ) e b', Silent b → True → step modules b e = some b' →
      Silent b' :=
    fun b e b' h _ hstep => silent_of_moves h (moves_of_step hstep).2
  refine Transition.everyState_of_invariant hstep (fun b h => ⟨h.queued, ?_⟩)
    (silent_started packetProcessor moduleStates) fun _ _ => trivial
  rintro call hcall hdl payload rfl
  have hnone := List.filterMap_eq_nil_iff.mp h.sent _ hcall
  cases hnone

end R2CPRuntimeBroker

end R2CP
