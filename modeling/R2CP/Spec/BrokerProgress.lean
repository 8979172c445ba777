import R2CP.Spec.BrokerShutdown

/-!
# No packet waits forever

While the user has not quit, four steps of the processing thread are enough for each
queued packet, whatever the other threads do in between and whatever the robot modules
answer. The count of the queue is a 32-bit number, so there must be less than `2 ^ 32`
messages: otherwise the thread can take a full queue for an empty one.

## Key results

- `processed_of_run`: enough steps of the processing thread take up every queued packet
- `Progressing.stepsToCount_lt`: the ranking, by which each step of the thread counts
-/

namespace R2CP.R2CPRuntimeBroker

variable {η σ : Type} {modules : RobotModules σ} {b b' : R2CPRuntimeBroker η σ}

/-! ## Packets on their way -/

/-- A task does not touch the queues: the pop is before it and the push behind it. -/
private theorem transceiverQueue_of_finishTask {r2cpPacket : List UInt8}
    {r : Except StdException (Option (List UInt8))} {w : ProcessingState σ}
    (hexec : StatefulExcept.exec (b.packetProcessor.finishTask modules r2cpPacket)
      b.processingState = (r, w)) : w.transceiverQueue = b.transceiverQueue := by
  have hkept := R2CPPacketProcessor.keeps_finishTask b.packetProcessor modules r2cpPacket
    b.processingState rfl
  rw [hexec] at hkept
  exact hkept

/-- What a step can do with packets: leave them, queue the one that was received, or pop the
    first one. -/
private theorem packets_of_moves (h : Silent b) {e : BrokerEvent η}
    (hmoves : Moves modules b e b') :
    (b'.processedPackets = b.processedPackets ∧
      b'.transceiverQueue.receptionQueue.packets = b.transceiverQueue.receptionQueue.packets ∧
      (arriving b'.receptionThread).length ≤
        (arriving b.receptionThread).length + (messageOf e).toList.length) ∨
    (∃ r2cpPacket, arriving b.receptionThread = [r2cpPacket] ∧ arriving b'.receptionThread = [] ∧
      b'.processedPackets = b.processedPackets ∧
      b'.transceiverQueue.receptionQueue.packets =
        b.transceiverQueue.receptionQueue.packets ++ [r2cpPacket]) ∨
    (∃ r2cpPacket, b'.receptionThread = b.receptionThread ∧
      b'.processedPackets = b.processedPackets ++ [r2cpPacket] ∧
      b.transceiverQueue.receptionQueue.packets =
        r2cpPacket :: b'.transceiverQueue.receptionQueue.packets) := by
  cases hmoves with
  -- the steps of the server leave the queues alone
  | closeConnections =>
    have hsame := h.sameWork_onServer R2CPWebSocketServer.keeps_closeWSServerConnections
    exact .inl ⟨rfl, congrArg PacketQueue.packets hsame.receptionQueue, Nat.le_add_right _ _⟩
  | onOpen hdl =>
    have hsame := h.sameWork_onServer (R2CPWebSocketServer.keeps_onOpen hdl)
    exact .inl ⟨rfl, congrArg PacketQueue.packets hsame.receptionQueue, Nat.le_add_right _ _⟩
  | onClose hdl =>
    have hsame := h.sameWork_onServer (R2CPWebSocketServer.keeps_onClose hdl)
    exact .inl ⟨rfl, congrArg PacketQueue.packets hsame.receptionQueue, Nat.le_add_right _ _⟩
  | onMessage hdl r2cpPacketBase64 => exact .inl ⟨rfl, rfl, Nat.le_add_left _ _⟩
  -- one packet is queued, or one is taken
  | acceptMessage r2cpPacket newQueueSize hpc =>
    exact .inr (.inl ⟨r2cpPacket, by rw [hpc]; rfl, rfl, rfl, rfl⟩)
  | rejectMessage | stopReceiving => exact .inl ⟨rfl, rfl, Nat.zero_le _⟩
  | popReceived _ r2cpPacket packets _ _ hpackets =>
    refine .inr (.inr ⟨r2cpPacket, rfl, rfl, ?_⟩)
    show _ = r2cpPacket :: b.transceiverQueue.receptionQueue.packets.tail
    rw [hpackets, List.tail_cons]
  -- a task works on the packet that was taken before
  | finishTask _ w _ hexec | respond _ _ w _ hexec | taskThrows _ _ w _ hexec =>
    have hqueue := congrArg R2CPTransceiverQueue.receptionQueue
      (transceiverQueue_of_finishTask hexec)
    exact .inl ⟨rfl, congrArg PacketQueue.packets hqueue, Nat.le_add_right _ _⟩
  | _ => exact .inl ⟨rfl, rfl, Nat.le_add_right _ _⟩

/-- The packets that were popped and those that are queued. -/
def acceptedPackets (b : R2CPRuntimeBroker η σ) : List (List UInt8) :=
  b.processedPackets ++ b.transceiverQueue.receptionQueue.packets

/-- Packets are accepted after all others, and processed after all others. -/
private theorem packets_prefix_of_moves (h : Silent b) {e : BrokerEvent η}
    (hmoves : Moves modules b e b') :
    b.acceptedPackets <+: b'.acceptedPackets ∧ b.processedPackets <+: b'.processedPackets := by
  unfold acceptedPackets
  rcases packets_of_moves h hmoves with ⟨hprocessed, hqueue, -⟩ |
    ⟨r2cpPacket, -, -, hprocessed, hqueue⟩ | ⟨r2cpPacket, -, hprocessed, hqueue⟩
  · rw [hprocessed, hqueue]
    exact ⟨List.prefix_refl _, List.prefix_refl _⟩
  · rw [hprocessed, hqueue, ← List.append_assoc]
    exact ⟨List.prefix_append _ _, List.prefix_refl _⟩
  · rw [hprocessed, hqueue, List.append_assoc, List.singleton_append]
    exact ⟨List.prefix_refl _, List.prefix_append _ _⟩

/-- There are no more packets than there were messages. -/
def Bounded (past : List (BrokerEvent η)) (b : R2CPRuntimeBroker η σ) : Prop :=
  b.acceptedPackets.length + (arriving b.receptionThread).length ≤ (messagesOf past).length

/-- A step with a message adds at most one packet. -/
private theorem Bounded.of_moves {past : List (BrokerEvent η)} (hbound : Bounded past b)
    (h : Silent b)
    {e : BrokerEvent η} (hmoves : Moves modules b e b') : Bounded (past ++ [e]) b' := by
  simp only [Bounded, acceptedPackets, messagesOf_concat, List.length_append] at hbound ⊢
  rcases packets_of_moves h hmoves with ⟨hprocessed, hqueue, hle⟩ |
    ⟨r2cpPacket, hold, hnew, hprocessed, hqueue⟩ | ⟨r2cpPacket, hreception, hprocessed, hqueue⟩
  · rw [hprocessed, hqueue]
    omega
  · rw [hold, List.length_singleton] at hbound
    rw [hprocessed, hqueue, hnew, List.length_append, List.length_singleton, List.length_nil]
    omega
  · rw [hqueue, List.length_cons] at hbound
    rw [hprocessed, hreception, List.length_append, List.length_singleton]
    omega

/-! ## The steps of the processing thread -/

/-- The steps before the processing thread counts packets again, or pops one. -/
def stepsToCount : ProcessingThread → Nat
  | .popping r2cpPacketsCount => if r2cpPacketsCount = 0 then 3 else 0
  | .executing => 1
  | .looping => 2
  | .processing _ => 3
  | .responding _ => 3
  | .pushing _ _ => 3
  | .exited => 3

/-- No point of the loop is more than three steps away from the count. -/
private theorem stepsToCount_le (processingThread : ProcessingThread) :
    stepsToCount processingThread ≤ 3 := by
  cases processingThread with
  | popping r2cpPacketsCount =>
    simp only [stepsToCount]
    split <;> omega
  | _ => simp [stepsToCount]

/-- The processing thread has ended only if the user has quit. -/
def EndsHalted (b : R2CPRuntimeBroker η σ) : Prop :=
  b.processingThread = .exited → b.isProcessorRunning = false

/-- The thread leaves its loop only after the halt. -/
private theorem endsHalted_of_moves (h : EndsHalted b) {e : BrokerEvent η}
    (hmoves : Moves modules b e b') :
    EndsHalted b' := by
  intro hexited
  cases hmoves with
  | quit => rfl
  | exitProcessing _ _ hhalted => exact hhalted
  | startTask | countReceived | popReceived | nothingReceived => cases hexited
  | finishTask | respond | readQueueSize | pushResponse | dropResponse => cases hexited
  | _ => exact h hexited

/-- What the bound rests on. -/
structure Progressing (past : List (BrokerEvent η)) (b : R2CPRuntimeBroker η σ) : Prop where
  silent : Silent b
  halting : Halting b
  endsHalted : EndsHalted b
  bounded : Bounded past b

/-- When `run` starts, nothing is queued. -/
private theorem progressing_started (packetProcessor : R2CPPacketProcessor) (moduleStates : σ) :
    Progressing ([] : List (BrokerEvent η)) (started packetProcessor moduleStates) where
  silent := silent_started packetProcessor moduleStates
  halting := halting_started packetProcessor moduleStates
  endsHalted h := by cases h
  bounded := le_rfl

/-- What each step preserves. -/
theorem Progressing.of_step {past : List (BrokerEvent η)} (h : Progressing past b)
    {e : BrokerEvent η} (hstep : step modules b e = some b') : Progressing (past ++ [e]) b' := by
  have hmoves := (moves_of_step hstep).2
  exact ⟨silent_of_moves h.silent hmoves, halting_of_moves h.halting hmoves,
    endsHalted_of_moves h.endsHalted hmoves, h.bounded.of_moves h.silent hmoves⟩

/-- A step of the processing thread pops a packet or comes closer to it, as long as there is
    one. -/
private theorem Progressing.stepsToCount_lt {past : List (BrokerEvent η)} (h : Progressing past b)
    (hcount : (messagesOf past).length < 2 ^ 32)
    (hqueued : b.transceiverQueue.receptionQueue.packets ≠ [])
    (hrunning : b.isProcessorRunning = true) (hgoes : b'.hasTerminated = false)
    (hmoves : Moves modules b .processing b') :
    4 * b.processedPackets.length + stepsToCount b'.processingThread <
      4 * b'.processedPackets.length + stepsToCount b.processingThread := by
  have hprocessing := h.silent.processing
  have hsilent := silent_of_moves h.silent hmoves
  cases hmoves with
  -- each point of the loop is one step nearer to the count than the one before
  | startTask hpc =>
    rw [hpc]
    show 4 * b.processedPackets.length + 1 < 4 * b.processedPackets.length + 2
    omega
  | exitProcessing _ _ hhalted =>
    rw [hhalted] at hrunning
    cases hrunning
  | countReceived hpc =>
    -- the 32-bit count is not 0
    have hpos := List.length_pos_of_ne_nil hqueued
    have hbound := h.bounded
    simp only [Bounded, acceptedPackets, List.length_append] at hbound
    have hne : UInt32.ofNat b.transceiverQueue.receptionQueue.packets.length ≠ 0 := by
      intro hzero
      have hnat := congrArg UInt32.toNat hzero
      rw [UInt32.toNat_ofNat_length (by omega)] at hnat
      exact hpos.ne' hnat
    rw [hpc]
    simp only [withProcessing, stepsToCount, if_neg hne]
    omega
  -- a packet is worth four steps, and at most three lead back to the count
  | popReceived _ r2cpPacket _ hpc =>
    show 4 * b.processedPackets.length + 3 < 4 * (b.processedPackets ++ [r2cpPacket]).length + _
    rw [List.length_append, List.length_singleton]
    omega
  | missReceived | taskThrows => cases hgoes
  | nothingReceived r2cpPacketsCount _ hpc hzero =>
    have hzero' : r2cpPacketsCount = 0 := by
      by_contra hne
      exact hzero (UInt32.pos_iff_ne_zero.mpr hne)
    rw [hpc, hzero']
    show 4 * b.processedPackets.length + 2 < 4 * b.processedPackets.length + 3
    omega
  | finishTask _ _ hpc =>
    rw [hpc]
    show 4 * b.processedPackets.length + 2 < 4 * b.processedPackets.length + 3
    omega
  -- there are no responses
  | respond => exact hsilent.processing.elim
  | readQueueSize _ hpc | pushResponse _ _ hpc | dropResponse _ _ _ hpc =>
    rw [hpc] at hprocessing
    exact hprocessing.elim

/-! ## Runs -/

/-- What every run preserves. -/
private theorem progressing_of_run {packetProcessor : R2CPPacketProcessor} {moduleStates : σ}
    {es : List (BrokerEvent η)}
    (hrun : Transition.run (step modules) (started packetProcessor moduleStates) es = some b) :
    Progressing es b := by
  have hstep : ∀ past (b : R2CPRuntimeBroker η σ) e b', Progressing past b →
      step modules b e = some b' → Progressing (past ++ [e]) b' :=
    fun _ _ _ _ h hstep => h.of_step hstep
  exact Transition.run_induction hstep (progressing_started packetProcessor moduleStates) hrun

/-- How far the processing thread has come from `b` on: its steps have popped all packets
    that were accepted in `b`, or each has counted. -/
structure Advanced (es : List (BrokerEvent η)) (b : R2CPRuntimeBroker η σ)
    (past : List (BrokerEvent η)) (c : R2CPRuntimeBroker η σ) : Prop where
  progressing : Progressing (es ++ past) c
  accepted : b.acceptedPackets <+: c.acceptedPackets
  steps : (messagesOf (es ++ past)).length < 2 ^ 32 → c.mainThread = .waitingForInput →
    c.hasTerminated = false → b.acceptedPackets.length ≤ c.processedPackets.length ∨
      4 * b.processedPackets.length + stepsToCount c.processingThread +
          past.countP isProcessing ≤
        4 * c.processedPackets.length + stepsToCount b.processingThread

/-- One step of the continuation: of the processing thread, or of another. -/
theorem Advanced.of_step {es past : List (BrokerEvent η)} {c c' : R2CPRuntimeBroker η σ}
    (h : Advanced es b past c) {e : BrokerEvent η} (hstep : step modules c e = some c') :
    Advanced es b (past ++ [e]) c' := by
  obtain ⟨hgoes, hmoves⟩ := moves_of_step hstep
  obtain ⟨haccepted, hprocessed⟩ := packets_prefix_of_moves h.progressing.silent hmoves
  refine ⟨?_, h.accepted.trans haccepted, ?_⟩
  · rw [← List.append_assoc]
    exact h.progressing.of_step hstep
  intro hcount hwaits' hgoes'
  rw [← List.append_assoc, messagesOf_concat, List.length_append] at hcount
  have hcount' : (messagesOf (es ++ past)).length < 2 ^ 32 := by omega
  have hwaits : c.mainThread = .waitingForInput := by
    have hle := haltsDone_le_of_moves hmoves
    rw [hwaits'] at hle
    cases hmain : c.mainThread with
    | waitingForInput => rfl
    | _ => simp [hmain, haltsDone] at hle
  have hlength := hprocessed.length_le
  rcases h.steps hcount' hwaits hgoes with hall | hsteps
  · exact .inl (hall.trans hlength)
  by_cases hall : b.acceptedPackets.length ≤ c'.processedPackets.length
  · exact .inl hall
  right
  rw [List.countP_append, List.countP_singleton]
  cases he : isProcessing e with
  | false =>
    obtain ⟨hpc, hpackets, -, -⟩ := processing_eq_of_moves hmoves he
    rw [hpc, hpackets]
    simpa using hsteps
  | true =>
    obtain rfl : e = .processing := by
      cases e with
      | processing => rfl
      | _ => cases he
    -- something is still queued, or all packets were popped before
    have hqueued : c.transceiverQueue.receptionQueue.packets ≠ [] := by
      intro hnil
      have hle := h.accepted.length_le
      rw [acceptedPackets, acceptedPackets, hnil, List.append_nil] at hle
      exact hall (hle.trans hlength)
    have hrunning : c.isProcessorRunning = true := by
      cases hflag : c.isProcessorRunning with
      | true => rfl
      | false =>
        have hdone := h.progressing.halting.processorFlag.mp hflag
        rw [hwaits] at hdone
        cases hdone
    have hlt := h.progressing.stepsToCount_lt hcount' hqueued hrunning hgoes' hmoves
    simp only [if_true]
    omega

/-- While the user waits, four steps of the processing thread for each queued packet are
    enough for it to pop them all, in order, in every run of fewer than `2 ^ 32` messages
    that the program survives. -/
theorem processed_of_run {packetProcessor : R2CPPacketProcessor} {moduleStates : σ}
    {es es' : List (BrokerEvent η)}
    (hrun : Transition.run (step modules) (started packetProcessor moduleStates) es = some b)
    (hrest : Transition.run (step modules) b es' = some b')
    (hcount : (messagesOf (es ++ es')).length < 2 ^ 32)
    (hwaits : b'.mainThread = .waitingForInput) (hgoes : b'.hasTerminated = false)
    (hsteps : 4 * b.transceiverQueue.receptionQueue.packets.length ≤
      es'.countP isProcessing) :
    b.processedPackets ++ b.transceiverQueue.receptionQueue.packets <+: b'.processedPackets := by
  have hstart : Advanced es b [] b := by
    refine ⟨?_, List.prefix_refl _, fun _ _ _ => .inr le_rfl⟩
    rw [List.append_nil]
    exact progressing_of_run hrun
  have hstep : ∀ past (c : R2CPRuntimeBroker η σ) e c', Advanced es b past c →
      step modules c e = some c' → Advanced es b (past ++ [e]) c' :=
    fun _ _ _ _ h hstep => h.of_step hstep
  have hadvanced := Transition.run_induction hstep hstart hrest
  have hlength : b.acceptedPackets.length ≤ b'.processedPackets.length := by
    rcases hadvanced.steps hcount hwaits hgoes with hall | hle
    · exact hall
    · have hmost := stepsToCount_le b.processingThread
      rw [acceptedPackets, List.length_append]
      rw [List.nil_append] at hle
      omega
  exact List.prefix_of_prefix_length_le hadvanced.accepted (List.prefix_append _ _) hlength

/-- One message, and then four steps. -/
theorem oneMessage_processed : ∃ b b' : R2CPRuntimeBroker Unit Unit,
    Transition.run (step quietModules) (started oneModule ()) oneMessage = some b ∧
    Transition.run (step quietModules) b
      [.processing, .processing, .processing, .processing] = some b' ∧
    b.transceiverQueue.receptionQueue.packets = [emptyCommandList] ∧
    b.processedPackets ++ b.transceiverQueue.receptionQueue.packets <+: b'.processedPackets := by
  have hruns : ∃ b b' : R2CPRuntimeBroker Unit Unit,
      Transition.run (step quietModules) (started oneModule ()) oneMessage = some b ∧
      b.transceiverQueue.receptionQueue.packets = [emptyCommandList] ∧
      Transition.run (step quietModules) b
        [.processing, .processing, .processing, .processing] = some b' ∧
      b'.mainThread = .waitingForInput ∧ b'.hasTerminated = false :=
    ⟨_, _, rfl, rfl, rfl, rfl, rfl⟩
  obtain ⟨b, b', hrun, hqueued, hrest, hwaits, hgoes⟩ := hruns
  have hcount : (messagesOf (oneMessage ++
      [.processing, .processing, .processing, .processing])).length < 2 ^ 32 := by decide
  exact ⟨b, b', hrun, hrest, hqueued, processed_of_run hrun hrest hcount hwaits hgoes
    (by rw [hqueued]; decide)⟩

end R2CP.R2CPRuntimeBroker
