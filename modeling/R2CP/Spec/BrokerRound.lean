import R2CP.Spec.BrokerSilence

/-!
# A round of the processing thread

The program interleaves the sections of `executetask` with those of other threads. When
no other thread comes in between, the sections make up the `executeTask` of the packet
processor: same queue, same module states, same calls, same log, same outcome.

The push of a response comes behind the handlers of `executetask` in the sections. That
is all the same, since it never throws out of its own handler (`returns_pushResponse`).

## Key results

- `executeTask_popped_eq`: behind the pop, `executeTask` is `finishTask` and a push
- `exists_roundEnds`, `exists_round`: some steps of the thread alone do what `executeTask` does
-/

namespace R2CP

open StatefulExcept (exec Returns)

namespace R2CPPacketProcessor

variable {σ : Type} (p : R2CPPacketProcessor) (modules : RobotModules σ)

/-! ## `executetask` and its two pieces -/

/-- What `executetask` does with a response packet. -/
def pushResponse : Option (List UInt8) → Processing σ Unit
  | some responseR2CPPacket =>
    tryCatch (onTransceiverQueue (R2CPTransceiverQueue.pushToTransmissionQueue responseR2CPPacket))
      (StdException.onOverflowError fun what => writeLog (.what .warning what))
  | none => pure ()

/-- What is logged when a response does not fit. -/
private def noRoomEntry : LogEntry :=
  .what .warning (.text "Out of memory in transmission queue.")

/-- A response that fits is queued. -/
private theorem exec_pushResponse_of_hasRoom {responseR2CPPacket : List UInt8}
    {w : ProcessingState σ} (h : w.transceiverQueue.HasRoom .transmission responseR2CPPacket) :
    exec (pushResponse (some responseR2CPPacket)) w =
      (.ok (), { w with
        transceiverQueue := w.transceiverQueue.setQueue
          (w.transceiverQueue.transmissionQueue.append responseR2CPPacket) .transmission }) := by
  have hpush : exec (R2CPTransceiverQueue.pushToTransmissionQueue responseR2CPPacket)
      w.transceiverQueue = _ :=
    R2CPTransceiverQueue.exec_pushTo_of_hasRoom .transmission h
  rw [pushResponse, StatefulExcept.exec_tryCatch, onTransceiverQueue,
    StatefulExcept.exec_onPart, hpush]
  rfl

/-- For one that does not fit there is an entry in the log, from the handler. -/
private theorem exec_pushResponse_of_not_hasRoom {responseR2CPPacket : List UInt8}
    {w : ProcessingState σ} (h : ¬w.transceiverQueue.HasRoom .transmission responseR2CPPacket) :
    exec (pushResponse (some responseR2CPPacket)) w =
      (.ok (), { w with log := w.log ++ [noRoomEntry] }) := by
  have hpush : exec (R2CPTransceiverQueue.pushToTransmissionQueue responseR2CPPacket)
      w.transceiverQueue = _ :=
    R2CPTransceiverQueue.exec_pushTo_of_not_hasRoom .transmission h
  rw [pushResponse, StatefulExcept.exec_tryCatch, onTransceiverQueue,
    StatefulExcept.exec_onPart, hpush]
  rfl

/-- So a push never throws. -/
theorem returns_pushResponse (response : Option (List UInt8)) :
    Returns (pushResponse (σ := σ) response) := by
  intro w
  cases response with
  | none => exact ⟨(), w, rfl⟩
  | some responseR2CPPacket =>
    by_cases h : w.transceiverQueue.HasRoom .transmission responseR2CPPacket
    · exact ⟨(), _, exec_pushResponse_of_hasRoom h⟩
    · exact ⟨(), _, exec_pushResponse_of_not_hasRoom h⟩

/-- `respond` serializes and then pushes. -/
private theorem respond_eq (responses : List R2CPCommand) :
    respond (σ := σ) responses = responsePacket responses >>= pushResponse := by
  unfold respond responsePacket
  split
  · rw [bind_assoc]
    rfl
  · rfl

/-- The handler for `std::invalid_argument`, with nothing to push behind it. -/
private theorem onInvalidArgument_eq (e : StdException) :
    StdException.onInvalidArgument (fun what => writeLog (σ := σ) (.what .warning what)) e =
      StdException.onInvalidArgument (fun what => do
        writeLog (.what .warning what)
        pure none) e >>= pushResponse := by
  cases e with
  | invalidArgument what => rfl
  | _ => exact (StatefulExcept.throw_bind _ _).symm

/-- The handler for `std::underflow_error` likewise. -/
private theorem onUnderflowError_eq (e : StdException) :
    StdException.onUnderflowError (fun what => writeLog (σ := σ) (.what .info what)) e =
      StdException.onUnderflowError (fun what => do
        writeLog (.what .info what)
        pure none) e >>= pushResponse := by
  cases e with
  | underflowError what => rfl
  | _ => exact (StatefulExcept.throw_bind _ _).symm

/-- The push can follow the inner `try`, -/
private theorem processPacket_eq_prepareResponse (r2cpPacket : List UInt8) :
    p.processPacket modules r2cpPacket =
      p.prepareResponse modules r2cpPacket >>= pushResponse := by
  have hbody : p.collectResponses modules r2cpPacket >>= respond =
      (p.collectResponses modules r2cpPacket >>= responsePacket) >>= pushResponse := by
    rw [bind_assoc, funext respond_eq]
  rw [processPacket_eq, prepareResponse_eq, hbody]
  exact StatefulExcept.tryCatch_bind_of_returns returns_pushResponse onInvalidArgument_eq

/-- and the outer one as well. -/
private theorem tryCatch_processPacket_eq (r2cpPacket : List UInt8) :
    tryCatch (p.processPacket modules r2cpPacket)
        (StdException.onUnderflowError fun what => writeLog (.what .info what)) =
      p.finishTask modules r2cpPacket >>= pushResponse := by
  rw [processPacket_eq_prepareResponse]
  exact StatefulExcept.tryCatch_bind_of_returns returns_pushResponse onUnderflowError_eq

/-- What is logged when there is no packet. -/
def noPacketEntry : LogEntry :=
  .what .info (.text "Reception queue has no R2CP packets to pop.")

/-- Without a packet there is an entry in the log, and that is all. -/
private theorem executeTask_underflow_eq {w : ProcessingState σ}
    (h : UInt32.ofNat w.transceiverQueue.receptionQueue.packets.length = 0) :
    exec (p.executeTask modules) w = (.ok (), { w with log := w.log ++ [noPacketEntry] }) := by
  have hpop : exec (onTransceiverQueue R2CPTransceiverQueue.popFromReceptionQueue) w =
      (.error Side.reception.underflowError, w) := by
    have hunderflow : exec R2CPTransceiverQueue.popFromReceptionQueue w.transceiverQueue = _ :=
      R2CPTransceiverQueue.exec_popFrom_underflow .reception h
    rw [onTransceiverQueue, StatefulExcept.exec_onPart, hunderflow]
  rw [executeTask, StatefulExcept.exec_tryCatch, StatefulExcept.exec_bind, hpop]
  rfl

/-- From the packet on, `executetask` is its two pieces. -/
theorem executeTask_popped_eq {w : ProcessingState σ} {t : R2CPTransceiverQueue}
    {r2cpPacket : List UInt8}
    (hpop : exec R2CPTransceiverQueue.popFromReceptionQueue w.transceiverQueue =
      (.ok r2cpPacket, t)) :
    exec (p.executeTask modules) w =
      exec (p.finishTask modules r2cpPacket >>= pushResponse)
        { w with transceiverQueue := t } := by
  have hpopped : exec (onTransceiverQueue R2CPTransceiverQueue.popFromReceptionQueue) w =
      (.ok r2cpPacket, { w with transceiverQueue := t }) := by
    rw [onTransceiverQueue, StatefulExcept.exec_onPart, hpop]
  rw [← tryCatch_processPacket_eq, executeTask, StatefulExcept.exec_tryCatch,
    StatefulExcept.exec_bind, hpopped, StatefulExcept.exec_tryCatch]

end R2CPPacketProcessor

/-! ## Without other threads in between -/

namespace R2CPRuntimeBroker

variable {η σ : Type} {b : R2CPRuntimeBroker η σ}

/-- As long as the program goes on, the processing thread takes its step. -/
theorem step_processing (modules : RobotModules σ) (hgoes : b.hasTerminated = false) :
    step modules b .processing = b.processingStep modules :=
  if_neg (Bool.eq_false_iff.mp hgoes)

/-- A packet is popped. -/
private theorem processingStep_popping {modules : RobotModules σ} {r2cpPacketsCount : UInt32}
    {r2cpPacket : List UInt8} {q : PacketQueue}
    (hpc : b.processingThread = .popping r2cpPacketsCount)
    (hexec : exec (PacketQueue.finishPop .reception r2cpPacketsCount)
      b.transceiverQueue.receptionQueue = (.ok r2cpPacket, q)) :
    b.processingStep modules = some (((b.setQueue .reception q).recordPacket
      r2cpPacket).withProcessing (.processing r2cpPacket)) := by
  unfold processingStep
  rw [hpc]
  dsimp only
  rw [hexec]

/-- A task ends without a response. -/
private theorem processingStep_finishes {modules : RobotModules σ} {r2cpPacket : List UInt8}
    {w : ProcessingState σ} (hpc : b.processingThread = .processing r2cpPacket)
    (hexec : exec (b.packetProcessor.finishTask modules r2cpPacket) b.processingState =
      (.ok none, w)) :
    b.processingStep modules = some ((b.setProcessingState w).withProcessing .looping) := by
  unfold processingStep
  rw [hpc]
  dsimp only
  rw [hexec]

/-- A task ends with a response, which is to be pushed. -/
private theorem processingStep_responds {modules : RobotModules σ}
    {r2cpPacket responseR2CPPacket : List UInt8} {w : ProcessingState σ}
    (hpc : b.processingThread = .processing r2cpPacket)
    (hexec : exec (b.packetProcessor.finishTask modules r2cpPacket) b.processingState =
      (.ok (some responseR2CPPacket), w)) :
    b.processingStep modules =
      some ((b.setProcessingState w).withProcessing (.responding responseR2CPPacket)) := by
  unfold processingStep
  rw [hpc]
  dsimp only
  rw [hexec]

/-- An exception leaves the task. -/
private theorem processingStep_throws {modules : RobotModules σ} {r2cpPacket : List UInt8}
    {e : StdException} {w : ProcessingState σ}
    (hpc : b.processingThread = .processing r2cpPacket)
    (hexec : exec (b.packetProcessor.finishTask modules r2cpPacket) b.processingState =
      (.error e, w)) :
    b.processingStep modules = some (b.setProcessingState w).terminated := by
  unfold processingStep
  rw [hpc]
  dsimp only
  rw [hexec]

/-- There is room for the response. -/
private theorem processingStep_pushes (modules : RobotModules σ) {responseR2CPPacket : List UInt8}
    {newQueueSize : UInt32} (hpc : b.processingThread = .pushing responseR2CPPacket newQueueSize)
    (hfits : newQueueSize ≤ b.transceiverQueue.transmissionQueue.maxQueueSize) :
    b.processingStep modules = some ((b.setQueue .transmission
      (b.transceiverQueue.transmissionQueue.append responseR2CPPacket)).withProcessing
        .looping) := by
  unfold processingStep
  rw [hpc]
  dsimp only
  rw [PacketQueue.exec_finishPush, if_pos hfits]

/-- There is no room for it. -/
private theorem processingStep_drops (modules : RobotModules σ) {responseR2CPPacket : List UInt8}
    {newQueueSize : UInt32} (hpc : b.processingThread = .pushing responseR2CPPacket newQueueSize)
    (hfull : ¬newQueueSize ≤ b.transceiverQueue.transmissionQueue.maxQueueSize) :
    b.processingStep modules = some ((b.writeLog (.what .warning
      (.text "Out of memory in transmission queue."))).withProcessing .looping) := by
  unfold processingStep
  rw [hpc]
  dsimp only
  rw [PacketQueue.exec_finishPush, if_neg hfull]
  rfl

/-- Where the round leads to: apart from the processing thread and the packets that it has
    popped, only `executetask` has changed the program. -/
structure RoundEnds (b : R2CPRuntimeBroker η σ) (outcome : Except StdException Unit)
    (w : ProcessingState σ) (b' : R2CPRuntimeBroker η σ) : Prop where
  changes : b' = { b.setProcessingState w with
    processedPackets := b'.processedPackets
    processingThread := b'.processingThread
    hasTerminated := b'.hasTerminated }
  goesOn : b'.hasTerminated = false ↔ outcome = .ok ()
  loops : b'.hasTerminated = false → b'.processingThread = .looping

/-- The two sections of a push do what `pushResponse` does. -/
private theorem exists_pushSteps (modules : RobotModules σ) {responseR2CPPacket : List UInt8}
    (hgoes : b.hasTerminated = false) (hpc : b.processingThread = .responding responseR2CPPacket) :
    ∃ b', Transition.run (step modules) b [.processing, .processing] = some b' ∧
      RoundEnds b (.ok ())
        (exec (R2CPPacketProcessor.pushResponse (some responseR2CPPacket))
          b.processingState).2 b' := by
  set newQueueSize := b.transceiverQueue.transmissionQueue.queueSize +
    UInt32.ofNat responseR2CPPacket.length with hsize
  set c := b.withProcessing (.pushing responseR2CPPacket newQueueSize) with hc
  have hread : step modules b .processing = some c := by
    rw [step_processing modules hgoes, processingStep, hpc]
  have hsecond : step modules c .processing = c.processingStep modules :=
    step_processing (b := c) modules hgoes
  simp only [Transition.run, hread, hsecond, Option.bind_some]
  by_cases hfits : newQueueSize ≤ b.transceiverQueue.transmissionQueue.maxQueueSize
  · -- the packet is appended
    rw [processingStep_pushes (b := c) modules rfl hfits,
      R2CPPacketProcessor.exec_pushResponse_of_hasRoom (w := b.processingState) hfits]
    exact ⟨_, rfl, rfl, iff_of_true hgoes rfl, fun _ => rfl⟩
  · -- or the handler logs that there is no room
    rw [processingStep_drops (b := c) modules rfl hfits,
      R2CPPacketProcessor.exec_pushResponse_of_not_hasRoom (w := b.processingState) hfits]
    exact ⟨_, rfl, rfl, iff_of_true hgoes rfl, fun _ => rfl⟩

/-- The last steps of a round that has popped a packet finish the task and push what comes
    of it. -/
private theorem exists_lastSteps (modules : RobotModules σ) {r2cpPacket : List UInt8}
    (hgoes : b.hasTerminated = false) (hpc : b.processingThread = .processing r2cpPacket) :
    ∃ steps b', Transition.run (step modules) b (List.replicate steps .processing) = some b' ∧
      RoundEnds b
        (exec (b.packetProcessor.finishTask modules r2cpPacket >>=
          R2CPPacketProcessor.pushResponse) b.processingState).1
        (exec (b.packetProcessor.finishTask modules r2cpPacket >>=
          R2CPPacketProcessor.pushResponse) b.processingState).2 b' := by
  rw [StatefulExcept.exec_bind]
  rcases hexec : exec (b.packetProcessor.finishTask modules r2cpPacket) b.processingState
    with ⟨e | response, w⟩
  · -- the program terminates
    refine ⟨1, (b.setProcessingState w).terminated, ?_, rfl, ?_, ?_⟩
    · simp only [List.replicate, Transition.run, step_processing modules hgoes,
        processingStep_throws hpc hexec, Option.bind_some]
    · refine iff_of_false (Ne.symm Bool.false_ne_true) ?_
      intro herror
      cases herror
    · intro hgoes'
      cases hgoes'
  cases response with
  | none =>
    refine ⟨1, (b.setProcessingState w).withProcessing .looping, ?_, rfl,
      iff_of_true hgoes rfl, fun _ => rfl⟩
    simp only [List.replicate, Transition.run, step_processing modules hgoes,
      processingStep_finishes hpc hexec, Option.bind_some]
  | some responseR2CPPacket =>
    -- two more steps push the response
    obtain ⟨b', hrun, hends⟩ := exists_pushSteps
      (b := (b.setProcessingState w).withProcessing (.responding responseR2CPPacket))
      modules hgoes rfl
    refine ⟨3, b', ?_, ?_⟩
    · refine Option.bind_eq_some_iff.mpr ⟨_, ?_, hrun⟩
      rw [step_processing modules hgoes]
      exact processingStep_responds hpc hexec
    · obtain ⟨u, w', hpush⟩ :=
        R2CPPacketProcessor.returns_pushResponse (some responseR2CPPacket) w
      have hstate : ((b.setProcessingState w).withProcessing
        (.responding responseR2CPPacket)).processingState = w := rfl
      rw [hstate, hpush] at hends
      simp only [hpush]
      exact ⟨hends.changes, hends.goesOn, hends.loops⟩

/-- A round in which no other thread takes a step ends as `executeTask` does. -/
theorem exists_roundEnds (modules : RobotModules σ) (hgoes : b.hasTerminated = false)
    (hpc : b.processingThread = .looping) (hrunning : b.isProcessorRunning = true) :
    ∃ steps b', Transition.run (step modules) b (List.replicate steps .processing) = some b' ∧
      RoundEnds b (exec (b.packetProcessor.executeTask modules) b.processingState).1
        (exec (b.packetProcessor.executeTask modules) b.processingState).2 b' := by
  have hstart : step modules b .processing = some (b.withProcessing .executing) := by
    rw [step_processing modules hgoes, processingStep, hpc]
    simp only [hrunning, if_true]
  set count := UInt32.ofNat b.transceiverQueue.receptionQueue.packets.length with hcount
  have hcounted : step modules (b.withProcessing .executing) .processing =
      some (b.withProcessing (.popping count)) :=
    step_processing (b := b.withProcessing .executing) modules hgoes
  by_cases hzero : count = 0
  · -- nothing is popped
    have hmiss : step modules (b.withProcessing (.popping count)) .processing =
        some ((b.writeLog R2CPPacketProcessor.noPacketEntry).withProcessing .looping) := by
      rw [step_processing (b := b.withProcessing (.popping count)) modules hgoes, hzero]
      rfl
    refine ⟨3, (b.writeLog R2CPPacketProcessor.noPacketEntry).withProcessing .looping, ?_, ?_⟩
    · simp only [List.replicate, Transition.run, hstart, hcounted, hmiss, Option.bind_some]
    · rw [R2CPPacketProcessor.executeTask_underflow_eq b.packetProcessor modules hzero]
      exact ⟨rfl, iff_of_true hgoes rfl, fun _ => rfl⟩
  · -- the first packet is popped, and the task is finished
    obtain ⟨r2cpPacket, packets, hpackets⟩ : ∃ r2cpPacket packets,
        b.transceiverQueue.receptionQueue.packets = r2cpPacket :: packets := by
      cases hpackets : b.transceiverQueue.receptionQueue.packets with
      | nil =>
        rw [hpackets] at hcount
        exact absurd hcount hzero
      | cons r2cpPacket packets => exact ⟨r2cpPacket, packets, rfl⟩
    set popped : R2CPRuntimeBroker η σ := ((b.setQueue .reception
      (b.transceiverQueue.receptionQueue.eraseFirst r2cpPacket)).recordPacket
        r2cpPacket).withProcessing (.processing r2cpPacket) with hpopped
    have hsection : exec (PacketQueue.finishPop .reception count)
        b.transceiverQueue.receptionQueue =
          (.ok r2cpPacket, b.transceiverQueue.receptionQueue.eraseFirst r2cpPacket) := by
      rw [PacketQueue.exec_finishPop, if_pos (UInt32.pos_iff_ne_zero.mpr hzero), hpackets]
    have hpop : step modules (b.withProcessing (.popping count)) .processing = some popped := by
      rw [step_processing (b := b.withProcessing (.popping count)) modules hgoes]
      exact processingStep_popping (b := b.withProcessing (.popping count)) rfl hsection
    obtain ⟨steps, b', hlast, hends⟩ := exists_lastSteps (b := popped) modules hgoes rfl
    refine ⟨steps + 3, b', ?_, ?_⟩
    · simp only [List.replicate, Transition.run, hstart, hcounted, hpop, hlast,
        Option.bind_some]
    · have hwhole : exec R2CPTransceiverQueue.popFromReceptionQueue
          b.processingState.transceiverQueue = (.ok r2cpPacket, _) :=
        R2CPTransceiverQueue.exec_popFrom_cons .reception hzero hpackets
      rw [R2CPPacketProcessor.executeTask_popped_eq b.packetProcessor modules hwhole]
      exact ⟨hends.changes, hends.goesOn, hends.loops⟩

/-- A round in which no other thread takes a step does what `executeTask` does. -/
theorem exists_round (modules : RobotModules σ) (hgoes : b.hasTerminated = false)
    (hpc : b.processingThread = .looping) (hrunning : b.isProcessorRunning = true) :
    ∃ steps b', Transition.run (step modules) b (List.replicate steps .processing) = some b' ∧
      RoundEnds b (exec (b.packetProcessor.executeTask modules) b.processingState).1
        (exec (b.packetProcessor.executeTask modules) b.processingState).2 b' :=
  exists_roundEnds modules hgoes hpc hrunning

/-- Robot modules without answers. -/
def quietModules : RobotModules Unit := ⟨fun _ => pure []⟩

/-- A registry with one module, which is evaluated actively. -/
def oneModule : R2CPPacketProcessor := R2CPPacketProcessor.new.registerRobotModule 7

/-- The packet without commands. -/
def emptyCommandList : List UInt8 := [82, 50, 67, 80, 0, 0, 0, 4, 0, 0, 0, 0]

/-- The packet is queued. -/
def onePacket : R2CPRuntimeBroker Unit Unit :=
  (started oneModule ()).setQueue .reception
    (R2CPTransceiverQueue.new.receptionQueue.append emptyCommandList)

theorem onePacket_round : ∃ steps b',
    Transition.run (step quietModules) onePacket (List.replicate steps .processing) = some b' ∧
      RoundEnds onePacket (exec (oneModule.executeTask quietModules) onePacket.processingState).1
        (exec (oneModule.executeTask quietModules) onePacket.processingState).2 b' :=
  exists_round quietModules rfl rfl rfl

end R2CPRuntimeBroker

end R2CP
