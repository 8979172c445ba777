import R2CP.Spec.BrokerRound

/-!
# One call after the other

The handlers and tasks of the components are functions: `onOpen`, `onClose`, `onMessage`,
`executeTask`, and a round of `transmitR2CPPacket`. The threads of the program perform them
in sections. Here the functions are called one after the other, each from its start to its
end, and the program has a run that does the same: the sections of a thread that nothing
interrupts make up its function.

## Key results

- `exec_onMessage`, `exec_transmitR2CPPacket`: what the functions of the server do, in full
- `callStep_simulates`: some steps of the program do what a call does
- `exists_run_of_calls`: so the program has a run for every sequence of calls
-/

namespace R2CP

open StatefulExcept (exec Returns)

/-! ## The functions of the server -/

namespace R2CPWebSocketServer

variable {η : Type} (s : R2CPWebSocketServer η)

/-- The server with another queue on a side. -/
def setQueue (side : Side) (q : PacketQueue) : R2CPWebSocketServer η :=
  { s with transceiverQueue := s.transceiverQueue.setQueue q side }

/-- The server with another entry in the log. -/
def withEntry (entry : LogEntry) : R2CPWebSocketServer η :=
  { s with log := s.log ++ [entry] }

/-- The server with another call to websocketpp. -/
def withCall (call : WSServerCall η) : R2CPWebSocketServer η :=
  { s with wsServerCalls := s.wsServerCalls ++ [call] }

/-- What `onMessage` leaves: the packet in the queue, or the entry of the handler. -/
def afterMessage (r2cpPacketBase64 : List UInt8) : R2CPWebSocketServer η :=
  let r2cpPacket := Base64.base64Decode r2cpPacketBase64
  if s.transceiverQueue.HasRoom .reception r2cpPacket then
    s.setQueue .reception (s.transceiverQueue.receptionQueue.append r2cpPacket)
  else
    s.withEntry (.what .warning (.text "Out of memory in reception queue."))

/-- `onMessage` never throws, and queues the packet if there is room for it. -/
theorem exec_onMessage (r2cpPacketBase64 : List UInt8) :
    exec (onMessage r2cpPacketBase64) s = (.ok (), s.afterMessage r2cpPacketBase64) := by
  rw [onMessage, StatefulExcept.exec_tryCatch, onTransceiverQueue, StatefulExcept.exec_onPart,
    afterMessage]
  by_cases hroom : s.transceiverQueue.HasRoom .reception (Base64.base64Decode r2cpPacketBase64)
  · have hpush : exec (R2CPTransceiverQueue.pushToReceptionQueue
        (Base64.base64Decode r2cpPacketBase64)) s.transceiverQueue = _ :=
      R2CPTransceiverQueue.exec_pushTo_of_hasRoom .reception hroom
    simp only [hpush, if_pos hroom]
    rfl
  · have hpush : exec (R2CPTransceiverQueue.pushToReceptionQueue
        (Base64.base64Decode r2cpPacketBase64)) s.transceiverQueue = _ :=
      R2CPTransceiverQueue.exec_pushTo_of_not_hasRoom .reception hroom
    simp only [hpush, if_neg hroom]
    rfl

/-- A round without a response leaves an entry in the log. -/
theorem exec_transmitR2CPPacket_underflow {s : R2CPWebSocketServer η}
    (h : UInt32.ofNat s.transceiverQueue.transmissionQueue.packets.length = 0) :
    exec transmitR2CPPacket s =
      (.ok (), s.withEntry
        (.what .info (.text "Transmission queue has no R2CP packets to pop."))) := by
  have hpop : exec R2CPTransceiverQueue.popFromTransmissionQueue s.transceiverQueue = _ :=
    R2CPTransceiverQueue.exec_popFrom_underflow .transmission h
  rw [transmitR2CPPacket, StatefulExcept.exec_tryCatch, StatefulExcept.exec_bind,
    onTransceiverQueue, StatefulExcept.exec_onPart, hpop]
  rfl

/-- What becomes of a popped response: it is sent if there is a connection. -/
def sendOrDrop (r2cpPacket : List UInt8) : R2CPWebSocketServer η :=
  if s.hasConnection then
    s.withCall (.send s.operatorConnectionHandle (Base64.base64Encode r2cpPacket))
  else
    s

/-- A round with a response pops it, and sends it or drops it. -/
theorem exec_transmitR2CPPacket_cons {s : R2CPWebSocketServer η} {r2cpPacket : List UInt8}
    {packets : List (List UInt8)}
    (hcount : UInt32.ofNat s.transceiverQueue.transmissionQueue.packets.length ≠ 0)
    (h : s.transceiverQueue.transmissionQueue.packets = r2cpPacket :: packets) :
    exec transmitR2CPPacket s =
      (.ok (), (s.setQueue .transmission
        (s.transceiverQueue.transmissionQueue.eraseFirst r2cpPacket)).sendOrDrop r2cpPacket) := by
  have hpop : exec R2CPTransceiverQueue.popFromTransmissionQueue s.transceiverQueue = _ :=
    R2CPTransceiverQueue.exec_popFrom_cons .transmission hcount h
  rw [transmitR2CPPacket, StatefulExcept.exec_tryCatch, StatefulExcept.exec_bind,
    onTransceiverQueue, StatefulExcept.exec_onPart, hpop]
  simp only [StatefulExcept.exec_bind, StatefulExcept.exec_get]
  obtain ⟨hasConnection, _, _, _, _⟩ := s
  cases hasConnection <;> rfl

/-- An accepted or refused operator is no exception. -/
private theorem returns_onOpen (hdl : η) : Returns (onOpen hdl) := by
  intro s
  rw [onOpen]
  simp only [StatefulExcept.exec_bind, StatefulExcept.exec_get]
  cases s.hasConnection with
  | true => exact ⟨(), _, rfl⟩
  | false => exact ⟨(), _, rfl⟩

/-- Neither is one that has left, -/
private theorem returns_onClose (hdl : η) : Returns (onClose hdl) :=
  fun _ => ⟨(), _, rfl⟩

/-- nor a message. -/
private theorem returns_onMessage (r2cpPacketBase64 : List UInt8) :
    Returns (onMessage (η := η) r2cpPacketBase64) :=
  fun s => ⟨(), _, exec_onMessage s r2cpPacketBase64⟩

/-- A round of the transmission task never throws. -/
private theorem returns_transmitR2CPPacket : Returns (transmitR2CPPacket (η := η)) := by
  intro s
  by_cases hcount : UInt32.ofNat s.transceiverQueue.transmissionQueue.packets.length = 0
  · exact ⟨(), _, exec_transmitR2CPPacket_underflow hcount⟩
  cases hpackets : s.transceiverQueue.transmissionQueue.packets with
  | nil =>
    -- the length of no packets is zero
    rw [hpackets] at hcount
    exact absurd rfl hcount
  | cons r2cpPacket packets => exact ⟨(), _, exec_transmitR2CPPacket_cons hcount hpackets⟩

end R2CPWebSocketServer

/-! ## The program as calls -/

/-- A function of the components, from its start to its end. -/
inductive ComponentCall (η : Type) where
  | onOpen (hdl : η)
  | onClose (hdl : η)
  | onMessage (hdl : η) (r2cpPacketBase64 : List UInt8)
  | executeTask
  | transmitR2CPPacket
  deriving DecidableEq, Repr

namespace R2CPRuntimeBroker

variable {η σ : Type}

/-- A call to a handler or to a round of the transmission task. None of them throws. -/
def callServer (b : R2CPRuntimeBroker η σ) (x : R2CPWebSocketServer.WebSocketServer η Unit) :
    R2CPRuntimeBroker η σ :=
  match exec x b.robotServer with
  | (.ok _, s) => { b with robotServer := s }
  | (.error _, s) => { b with robotServer := s }.terminated

/-- A call to `executetask`. -/
def callProcessor (modules : RobotModules σ) (b : R2CPRuntimeBroker η σ) :
    R2CPRuntimeBroker η σ :=
  match exec (b.packetProcessor.executeTask modules) b.processingState with
  | (.ok _, w) => b.setProcessingState w
  | (.error _, w) => (b.setProcessingState w).terminated

/-- One call, as long as the program has not terminated. -/
def callStep (modules : RobotModules σ) (b : R2CPRuntimeBroker η σ) (call : ComponentCall η) :
    Option (R2CPRuntimeBroker η σ) :=
  if b.hasTerminated then none
  else
    match call with
    | .onOpen hdl => some (b.callServer (R2CPWebSocketServer.onOpen hdl))
    | .onClose hdl => some (b.callServer (R2CPWebSocketServer.onClose hdl))
    | .onMessage _ r2cpPacketBase64 =>
      some (b.callServer (R2CPWebSocketServer.onMessage r2cpPacketBase64))
    | .executeTask => some (b.callProcessor modules)
    | .transmitR2CPPacket => some (b.callServer R2CPWebSocketServer.transmitR2CPPacket)

/-- What websocketpp has called, in a call -/
def handlerCalled : ComponentCall η → List (ReceptionEvent η)
  | .onOpen hdl => [.onOpen hdl]
  | .onClose hdl => [.onClose hdl]
  | .onMessage hdl r2cpPacketBase64 => [.onMessage hdl r2cpPacketBase64]
  | .executeTask => []
  | .transmitR2CPPacket => []

/-- and in a step of a thread. -/
def receptionEvent : BrokerEvent η → List (ReceptionEvent η)
  | .reception event => [event]
  | .main _ => []
  | .finishMessage => []
  | .processing => []
  | .transmission _ => []

/-- Every thread is where its loop begins, and nobody has quit. -/
structure AtLoops (b : R2CPRuntimeBroker η σ) : Prop where
  isServerRunning : b.isServerRunning = true
  isProcessorRunning : b.isProcessorRunning = true
  reception : b.receptionThread = .listening
  processing : b.processingThread = .looping
  transmission : b.transmissionThread = .looping

/-- The program `b` has come to where the calls have come to. The packets that it has
    recorded, and the point at which an exception has left the processing thread, are its
    own. -/
structure ComesTo (s b : R2CPRuntimeBroker η σ) : Prop where
  same : b = { s with
    processedPackets := b.processedPackets
    processingThread := b.processingThread }
  atLoops : b.hasTerminated = false → b.AtLoops

/-! ## What the calls are in the program -/

section Steps

variable {modules : RobotModules σ} {b s : R2CPRuntimeBroker η σ}

/-- A function that returns has changed the server. -/
private theorem callServer_of_returns {x : R2CPWebSocketServer.WebSocketServer η Unit}
    (hx : Returns x) :
    b.callServer x = { b with robotServer := (exec x b.robotServer).2 } := by
  obtain ⟨u, server, hexec⟩ := hx b.robotServer
  rw [callServer, hexec]

/-- The loops are where they are, whatever the server does. -/
private theorem AtLoops.withServer (hat : b.AtLoops) (server : R2CPWebSocketServer η) :
    AtLoops { b with robotServer := server } :=
  ⟨hat.isServerRunning, hat.isProcessorRunning, hat.reception, hat.processing,
    hat.transmission⟩

/-- A program in the reception loop is one that has come there. -/
private theorem withReception_listening (hat : b.AtLoops) : b.withReception .listening = b := by
  rw [← hat.reception]
  rfl

/-- Likewise for the transmission loop. -/
private theorem withTransmission_looping (hat : b.AtLoops) :
    b.withTransmission .looping = b := by
  rw [← hat.transmission]
  rfl

/-- As long as the program goes on, a thread takes its step. -/
private theorem step_eq (hgoes : b.hasTerminated = false) (e : BrokerEvent η) :
    step modules b e = match e with
      | .main wsServer => b.mainStep wsServer
      | .reception event => b.receptionStep event
      | .finishMessage => b.finishMessageStep
      | .processing => b.processingStep modules
      | .transmission wsServer => b.transmissionStep wsServer :=
  if_neg (Bool.eq_false_iff.mp hgoes)

/-- There is room for the packet. -/
private theorem finishMessageStep_queues {r2cpPacket : List UInt8} {newQueueSize : UInt32}
    (hpc : b.receptionThread = .pushing r2cpPacket newQueueSize)
    (hfits : newQueueSize ≤ b.transceiverQueue.receptionQueue.maxQueueSize) :
    b.finishMessageStep = some ((b.setQueue .reception
      (b.transceiverQueue.receptionQueue.append r2cpPacket)).withReception .listening) := by
  unfold finishMessageStep
  rw [hpc]
  dsimp only
  rw [PacketQueue.exec_finishPush, if_pos hfits]

/-- There is no room for it. -/
private theorem finishMessageStep_drops {r2cpPacket : List UInt8} {newQueueSize : UInt32}
    (hpc : b.receptionThread = .pushing r2cpPacket newQueueSize)
    (hfull : ¬newQueueSize ≤ b.transceiverQueue.receptionQueue.maxQueueSize) :
    b.finishMessageStep = some ((b.writeLog (.what .warning
      (.text "Out of memory in reception queue."))).withReception .listening) := by
  unfold finishMessageStep
  rw [hpc]
  dsimp only
  rw [PacketQueue.exec_finishPush, if_neg hfull]
  rfl

/-- The two sections of a message make up `onMessage`. -/
private theorem run_onMessage (hgoes : b.hasTerminated = false) (hat : b.AtLoops) (hdl : η)
    (r2cpPacketBase64 : List UInt8) :
    Transition.run (step modules) b
        [.reception (.onMessage hdl r2cpPacketBase64), .finishMessage] =
      some { b with robotServer := b.robotServer.afterMessage r2cpPacketBase64 } := by
  set r2cpPacket := Base64.base64Decode r2cpPacketBase64
  set newQueueSize := b.transceiverQueue.receptionQueue.queueSize +
    UInt32.ofNat r2cpPacket.length with hsize
  set c := b.withReception (.pushing r2cpPacket newQueueSize) with hc
  have hread : step modules b (.reception (.onMessage hdl r2cpPacketBase64)) = some c := by
    rw [step_eq hgoes]
    dsimp only
    rw [receptionStep, hat.reception]
  have hfinish : step modules c .finishMessage = c.finishMessageStep := step_eq (b := c) hgoes _
  simp only [Transition.run, hread, hfinish, Option.bind_some]
  by_cases hroom : b.robotServer.transceiverQueue.HasRoom .reception r2cpPacket
  · -- the packet is appended
    rw [R2CPWebSocketServer.afterMessage, if_pos hroom,
      finishMessageStep_queues (b := c) rfl hroom]
    exact congrArg some (withReception_listening (hat.withServer _))
  · -- or the handler logs that there is no room
    rw [R2CPWebSocketServer.afterMessage, if_neg hroom,
      finishMessageStep_drops (b := c) rfl hroom]
    exact congrArg some (withReception_listening (hat.withServer _))

/-- A response is popped. -/
private theorem transmissionStep_pops {wsServer : WSServerOutcome} {count : UInt32}
    {r2cpPacket : List UInt8} {packets : List (List UInt8)}
    (hpc : b.transmissionThread = .popping count) (hcount : count ≠ 0)
    (hpackets : b.transceiverQueue.transmissionQueue.packets = r2cpPacket :: packets) :
    b.transmissionStep wsServer = some ((b.setQueue .transmission
      (b.transceiverQueue.transmissionQueue.eraseFirst r2cpPacket)).withTransmission
        (.sending r2cpPacket)) := by
  unfold transmissionStep
  rw [hpc]
  dsimp only
  rw [PacketQueue.exec_finishPop, if_pos (UInt32.pos_iff_ne_zero.mpr hcount), hpackets]

/-- The steps from one loop of the transmission thread to the next make up a round. -/
private theorem exists_run_transmit (hgoes : b.hasTerminated = false) (hat : b.AtLoops) :
    ∃ rounds, Transition.run (step modules) b (List.replicate rounds (.transmission .returns)) =
      some { b with
        robotServer := (exec R2CPWebSocketServer.transmitR2CPPacket b.robotServer).2 } := by
  set count := UInt32.ofNat b.transceiverQueue.transmissionQueue.packets.length with hcount
  have hstart : step modules b (.transmission .returns) =
      some (b.withTransmission .executing) := by
    rw [step_eq hgoes]
    dsimp only
    rw [transmissionStep, hat.transmission]
    simp only [hat.isServerRunning, if_true]
  have hcounted : step modules (b.withTransmission .executing) (.transmission .returns) =
      some (b.withTransmission (.popping count)) :=
    step_eq (b := b.withTransmission .executing) hgoes _
  by_cases hzero : count = 0
  · -- nothing is popped
    have hmiss : step modules (b.withTransmission (.popping count)) (.transmission .returns) =
        some ((b.writeLog (.what .info
          (.text "Transmission queue has no R2CP packets to pop."))).withTransmission
            .looping) := by
      rw [step_eq (b := b.withTransmission (.popping count)) hgoes, hzero]
      rfl
    refine ⟨3, ?_⟩
    simp only [List.replicate, Transition.run, hstart, hcounted, hmiss, Option.bind_some]
    rw [R2CPWebSocketServer.exec_transmitR2CPPacket_underflow hzero]
    exact congrArg some (withTransmission_looping (hat.withServer _))
  · -- the first response is popped
    obtain ⟨r2cpPacket, packets, hpackets⟩ : ∃ r2cpPacket packets,
        b.transceiverQueue.transmissionQueue.packets = r2cpPacket :: packets := by
      refine List.exists_cons_of_ne_nil fun hnil => ?_
      rw [hnil] at hcount
      exact hzero hcount
    set popped := b.setQueue .transmission
      (b.transceiverQueue.transmissionQueue.eraseFirst r2cpPacket) with hpopped
    have hpop : step modules (b.withTransmission (.popping count)) (.transmission .returns) =
        some (popped.withTransmission (.sending r2cpPacket)) := by
      rw [step_eq (b := b.withTransmission (.popping count)) hgoes]
      exact transmissionStep_pops (b := b.withTransmission (.popping count)) rfl hzero hpackets
    have hsending : step modules (popped.withTransmission (.sending r2cpPacket))
        (.transmission .returns) =
          if b.robotServer.hasConnection then
            some (popped.withTransmission (.connected r2cpPacket))
          else
            some (popped.withTransmission .looping) :=
      step_eq (b := popped.withTransmission (.sending r2cpPacket)) hgoes _
    have hserver : b.robotServer.setQueue .transmission
        (b.transceiverQueue.transmissionQueue.eraseFirst r2cpPacket) = popped.robotServer := rfl
    have htransmit : exec R2CPWebSocketServer.transmitR2CPPacket b.robotServer =
        (.ok (), popped.robotServer.sendOrDrop r2cpPacket) :=
      hserver ▸ R2CPWebSocketServer.exec_transmitR2CPPacket_cons hzero hpackets
    by_cases hconnected : b.robotServer.hasConnection = true
    · -- it is sent
      have hsend : step modules (popped.withTransmission (.connected r2cpPacket))
          (.transmission .returns) =
            some ((popped.sendPacket r2cpPacket).withTransmission .looping) :=
        step_eq (b := popped.withTransmission (.connected r2cpPacket)) hgoes _
      have hsent : popped.robotServer.sendOrDrop r2cpPacket =
          (popped.sendPacket r2cpPacket).robotServer := if_pos hconnected
      refine ⟨5, ?_⟩
      simp only [List.replicate, Transition.run, hstart, hcounted, hpop, hsending,
        if_pos hconnected, hsend, Option.bind_some]
      rw [htransmit, hsent]
      exact congrArg some (withTransmission_looping (hat.withServer _))
    · -- it is dropped
      have hdropped : popped.robotServer.sendOrDrop r2cpPacket = popped.robotServer :=
        if_neg hconnected
      refine ⟨4, ?_⟩
      simp only [List.replicate, Transition.run, hstart, hcounted, hpop, hsending,
        if_neg hconnected, Option.bind_some]
      rw [htransmit, hdropped]
      exact congrArg some (withTransmission_looping (hat.withServer _))

/-! ## The simulation -/

/-- When a function of the server returns, the program comes to where the call comes to. -/
private theorem ComesTo.callServer (hc : ComesTo s b) (hgoes : b.hasTerminated = false)
    {x : R2CPWebSocketServer.WebSocketServer η Unit} (hx : Returns x) :
    ComesTo (s.callServer x) { b with robotServer := (exec x b.robotServer).2 } := by
  have hserver : b.robotServer = s.robotServer := by rw [hc.same]
  rw [callServer_of_returns hx, hserver]
  refine ⟨?_, fun _ => (hc.atLoops hgoes).withServer _⟩
  conv_lhs => rw [hc.same]

/-- When a round of the processing thread ends, it comes to where `executetask` comes to. -/
private theorem ComesTo.callProcessor (hc : ComesTo s b) (hgoes : b.hasTerminated = false)
    {b' : R2CPRuntimeBroker η σ}
    (hends : RoundEnds b (exec (b.packetProcessor.executeTask modules) b.processingState).1
      (exec (b.packetProcessor.executeTask modules) b.processingState).2 b') :
    ComesTo (s.callProcessor modules) b' := by
  have hat := hc.atLoops hgoes
  have hgoes' : s.hasTerminated = false := by rw [← hgoes, hc.same]
  have hprocessor : b.packetProcessor = s.packetProcessor := by rw [hc.same]
  have hstate : b.processingState = s.processingState := by rw [hc.same]; rfl
  have hset : ∀ w, b.setProcessingState w = { s.setProcessingState w with
      processedPackets := b.processedPackets
      processingThread := b.processingThread } := by
    intro w
    conv_lhs => rw [hc.same]
    rfl
  rw [hprocessor, hstate] at hends
  constructor
  · -- what `executetask` has changed is the same, and an exception terminates both
    rw [hends.changes, R2CPRuntimeBroker.callProcessor]
    rcases hexec : exec (s.packetProcessor.executeTask modules) s.processingState with ⟨e | u, w⟩
    · rw [hexec] at hends
      have hthrew : b'.hasTerminated = true := by
        refine Bool.eq_true_of_not_eq_false fun hgoes => ?_
        exact absurd (hends.goesOn.mp hgoes) (fun h => nomatch h)
      rw [hthrew, hset]
      rfl
    · rw [hexec] at hends
      have hreturned : b'.hasTerminated = s.hasTerminated :=
        (hends.goesOn.mpr rfl).trans hgoes'.symm
      rw [hreturned, hset]
      rfl
  · intro hgoes''
    have hloops := hends.loops hgoes''
    rw [hends.changes] at hloops ⊢
    exact ⟨hat.isServerRunning, hat.isProcessorRunning, hat.reception, hloops, hat.transmission⟩

/-- Steps of the other threads are no handlers. -/
private theorem events_replicate (steps : Nat) {e : BrokerEvent η} (he : receptionEvent e = []) :
    (List.replicate steps e).flatMap receptionEvent = [] := by
  refine List.flatMap_eq_nil_iff.mpr fun e' he' => ?_
  rw [List.eq_of_mem_replicate he', he]

end Steps

/-- What a call does, some steps of the program do. -/
theorem callStep_simulates (modules : RobotModules σ) :
    Transition.Simulates (callStep (η := η) modules) (step modules) handlerCalled receptionEvent
      ComesTo := by
  intro s call s' b hc hcall
  unfold callStep at hcall
  split at hcall
  · cases hcall
  rename_i hgoes
  have hgoes : b.hasTerminated = false := by
    rw [hc.same]
    exact Bool.eq_false_of_not_eq_true hgoes
  have hat := hc.atLoops hgoes
  -- one function is one step, two, or a round of its thread
  cases call with
  | onOpen hdl =>
    obtain rfl := Option.some.inj hcall
    have hstep : step modules b (.reception (.onOpen hdl)) =
        some (b.onServer (R2CPWebSocketServer.onOpen hdl)) := by
      rw [step_eq hgoes]
      dsimp only
      rw [receptionStep, hat.reception]
    refine ⟨[.reception (.onOpen hdl)], _, ?_, rfl,
      hc.callServer hgoes (R2CPWebSocketServer.returns_onOpen hdl)⟩
    simp only [Transition.run, hstep, Option.bind_some]
    rfl
  | onClose hdl =>
    obtain rfl := Option.some.inj hcall
    have hstep : step modules b (.reception (.onClose hdl)) =
        some (b.onServer (R2CPWebSocketServer.onClose hdl)) := by
      rw [step_eq hgoes]
      dsimp only
      rw [receptionStep, hat.reception]
    refine ⟨[.reception (.onClose hdl)], _, ?_, rfl,
      hc.callServer hgoes (R2CPWebSocketServer.returns_onClose hdl)⟩
    simp only [Transition.run, hstep, Option.bind_some]
    rfl
  | onMessage hdl r2cpPacketBase64 =>
    obtain rfl := Option.some.inj hcall
    refine ⟨[.reception (.onMessage hdl r2cpPacketBase64), .finishMessage], _, ?_, rfl,
      hc.callServer hgoes (R2CPWebSocketServer.returns_onMessage r2cpPacketBase64)⟩
    rw [run_onMessage hgoes hat, R2CPWebSocketServer.exec_onMessage]
  | executeTask =>
    obtain rfl := Option.some.inj hcall
    obtain ⟨steps, b', hrun, hends⟩ :=
      exists_roundEnds modules hgoes hat.processing hat.isProcessorRunning
    exact ⟨List.replicate steps .processing, b', hrun, events_replicate steps rfl,
      hc.callProcessor hgoes hends⟩
  | transmitR2CPPacket =>
    obtain rfl := Option.some.inj hcall
    obtain ⟨steps, hrun⟩ : ∃ steps, Transition.run (step modules) b
        (List.replicate steps (.transmission .returns)) = some _ :=
      exists_run_transmit hgoes hat
    exact ⟨List.replicate steps (.transmission .returns), _, hrun, events_replicate steps rfl,
      hc.callServer hgoes R2CPWebSocketServer.returns_transmitR2CPPacket⟩

/-- Every sequence of calls, each from its start to its end, is what the threads of the
    program can do. websocketpp calls the same handlers. -/
theorem exists_run_of_calls (modules : RobotModules σ) {b s : R2CPRuntimeBroker η σ}
    (hat : b.AtLoops) {calls : List (ComponentCall η)}
    (hcalls : Transition.run (callStep modules) b calls = some s) :
    ∃ events b', Transition.run (step modules) b events = some b' ∧
      events.flatMap receptionEvent = calls.flatMap handlerCalled ∧ ComesTo s b' :=
  (callStep_simulates modules).exists_run ⟨rfl, fun _ => hat⟩ hcalls

/-- When the threads have been started, they are where their loops begin. -/
private theorem atLoops_started (packetProcessor : R2CPPacketProcessor) (moduleStates : σ) :
    AtLoops (started packetProcessor moduleStates : R2CPRuntimeBroker η σ) :=
  ⟨rfl, rfl, rfl, rfl, rfl⟩

/-- An operator connects and sends the packet without commands, which is processed. -/
def oneMessageCalls : List (ComponentCall Nat) :=
  [.onOpen 0, .onMessage 0 (Base64.base64Encode emptyCommandList), .executeTask,
    .transmitR2CPPacket]

/-- The program goes on to the end of them. -/
private theorem oneMessageCalls_isSome : (Transition.run (callStep quietModules)
    (started oneModule ()) oneMessageCalls).isSome = true := by
  decide +kernel

/-- The calls and the run that does the same, for one message. -/
theorem oneMessageCalls_run :
    ∃ events b', Transition.run (step quietModules) (started oneModule ()) events = some b' ∧
      events.flatMap receptionEvent = oneMessageCalls.flatMap handlerCalled ∧
      ComesTo ((Transition.run (callStep quietModules)
        (started oneModule ()) oneMessageCalls).get oneMessageCalls_isSome) b' :=
  exists_run_of_calls quietModules (atLoops_started oneModule ())
    (Option.some_get oneMessageCalls_isSome).symm

end R2CPRuntimeBroker

end R2CP
