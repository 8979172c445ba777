import R2CP.Spec.BrokerRelay

/-!
# Quitting

The user quits while the other threads are anywhere: the processing thread in a task, the
reception thread in a handler. `packetprocessor.halt` waits for the one,
`robotserver.halt` for the others. The processing thread has a few steps left then and
takes at most one packet more. Once it is joined no robot module is called again, and
when `run` returns nothing is left that could take a step. Every state that is not
there yet is a few steps away from it.

## Key results

- `quitting_of_run`: after the quit, six steps of the processing thread and one packet are left
- `joined_of_run`: after the join, nothing of what the modules are asked changes
- `exists_end_of_run`: every reachable state is at most fifteen steps away from an end
-/

namespace R2CP.R2CPRuntimeBroker

open StatefulExcept (exec)

variable {η σ : Type} {modules : RobotModules σ} {b b' : R2CPRuntimeBroker η σ}

/-! ## What an event leaves alone -/

/-- A step of the processing thread. -/
def isProcessing : BrokerEvent η → Bool
  | .processing => true
  | _ => false

/-- Only the processing thread calls robot modules, takes packets and changes where the
    processing thread is. -/
theorem processing_eq_of_moves {e : BrokerEvent η} (hmoves : Moves modules b e b')
    (he : isProcessing e = false) :
    b'.processingThread = b.processingThread ∧ b'.processedPackets = b.processedPackets ∧
      b'.moduleCalls = b.moduleCalls ∧ b'.moduleStates = b.moduleStates := by
  cases hmoves with
  | quit | joinProcessor | closeConnections => exact ⟨rfl, rfl, rfl, rfl⟩
  | closeThrows | joinReception => exact ⟨rfl, rfl, rfl, rfl⟩
  | onOpen | onClose | onMessage | stopReceiving => exact ⟨rfl, rfl, rfl, rfl⟩
  | acceptMessage | rejectMessage => exact ⟨rfl, rfl, rfl, rfl⟩
  | startTransmit | exitTransmission | countResponses | popResponse => exact ⟨rfl, rfl, rfl, rfl⟩
  | missResponse | noResponse | seeConnection => exact ⟨rfl, rfl, rfl, rfl⟩
  | send | sendThrows | dropUnsent => exact ⟨rfl, rfl, rfl, rfl⟩
  | _ => cases he

/-! ## How far `run` has come -/

/-- How many halts of `run` are over. An exception of websocketpp leaves the third one. -/
def haltsDone : MainThread → Nat
  | .waitingForInput => 0
  | .joiningProcessor => 1
  | .joiningTransmission => 2
  | .joiningReception => 3
  | .threw => 3
  | .returned => 4

/-- A flag is cleared when `run` gets to its halt, and a thread that was joined has ended. -/
structure Halted (done : Nat) (b : R2CPRuntimeBroker η σ) : Prop where
  processorFlag : b.isProcessorRunning = false ↔ 1 ≤ done
  serverFlag : b.isServerRunning = false ↔ 2 ≤ done
  processing : 2 ≤ done → b.processingThread = .exited
  transmission : 3 ≤ done → b.transmissionThread = .exited
  reception : 4 ≤ done → b.receptionThread = .exited

/-- The flags and the threads are where `run` has them. -/
abbrev Halting (b : R2CPRuntimeBroker η σ) : Prop := Halted (haltsDone b.mainThread) b

/-- When `run` starts, nothing is halted. -/
theorem halting_started (packetProcessor : R2CPPacketProcessor) (moduleStates : σ) :
    Halting (started packetProcessor moduleStates : R2CPRuntimeBroker η σ) := by
  show Halted 0 _
  constructor
  · exact iff_of_false (Ne.symm Bool.false_ne_true) (by omega)
  · exact iff_of_false (Ne.symm Bool.false_ne_true) (by omega)
  all_goals omega

/-- A step of another thread than the one in `run`. Only one that has not ended moves. -/
theorem Halted.frame {done : Nat} (h : Halted done b)
    (hprocessor : b'.isProcessorRunning = b.isProcessorRunning)
    (hserver : b'.isServerRunning = b.isServerRunning)
    (hprocessing : b'.processingThread = b.processingThread ∨ b.processingThread ≠ .exited)
    (htransmission : b'.transmissionThread = b.transmissionThread ∨
      b.transmissionThread ≠ .exited)
    (hreception : b'.receptionThread = b.receptionThread ∨ b.receptionThread ≠ .exited) :
    Halted done b' := by
  constructor
  · rw [hprocessor]
    exact h.processorFlag
  · rw [hserver]
    exact h.serverFlag
  · -- a thread that was joined had left its loop and takes no step
    intro hdone
    rcases hprocessing with heq | hne
    · rw [heq]
      exact h.processing hdone
    · exact absurd (h.processing hdone) hne
  · intro hdone
    rcases htransmission with heq | hne
    · rw [heq]
      exact h.transmission hdone
    · exact absurd (h.transmission hdone) hne
  · intro hdone
    rcases hreception with heq | hne
    · rw [heq]
      exact h.reception hdone
    · exact absurd (h.reception hdone) hne

/-- What each step preserves: a halt is done only when its thread has ended. -/
theorem halting_of_moves (h : Halting b) {e : BrokerEvent η} (hmoves : Moves modules b e b') :
    Halting b' := by
  cases hmoves with
  -- each step of the main thread does one halt more
  | quit wsServer hmain =>
    have hbefore : Halted 0 b := by rwa [Halting, hmain] at h
    show Halted 1 _
    refine ⟨iff_of_true rfl le_rfl, hbefore.serverFlag.trans (by omega), ?_, ?_, ?_⟩
    all_goals omega
  | joinProcessor wsServer hmain hexited =>
    have hbefore : Halted 1 b := by rwa [Halting, hmain] at h
    show Halted 2 _
    refine ⟨hbefore.processorFlag.trans (by omega), iff_of_true rfl le_rfl, fun _ => hexited,
      ?_, ?_⟩
    all_goals omega
  | closeConnections hmain hexited | closeThrows hmain hexited =>
    have hbefore : Halted 2 b := by rwa [Halting, hmain] at h
    show Halted 3 _
    exact ⟨hbefore.processorFlag.trans (by omega), hbefore.serverFlag.trans (by omega),
      fun _ => hbefore.processing le_rfl, fun _ => hexited, by omega⟩
  | joinReception wsServer hmain hexited =>
    have hbefore : Halted 3 b := by rwa [Halting, hmain] at h
    show Halted 4 _
    exact ⟨hbefore.processorFlag.trans (by omega), hbefore.serverFlag.trans (by omega),
      fun _ => hbefore.processing (by omega), fun _ => hbefore.transmission le_rfl,
      fun _ => hexited⟩
  -- the other threads change no flag, and one that moves had not left its loop
  | onOpen hdl =>
    exact h.frame rfl rfl (.inl rfl) (.inl rfl) (.inl rfl)
  | onClose hdl =>
    exact h.frame rfl rfl (.inl rfl) (.inl rfl) (.inl rfl)
  | onMessage _ _ hpc | stopReceiving hpc =>
    exact h.frame rfl rfl (.inl rfl) (.inl rfl) (.inr (by simp [hpc]))
  | acceptMessage _ _ hpc | rejectMessage _ _ _ hpc =>
    exact h.frame rfl rfl (.inl rfl) (.inl rfl) (.inr (by simp [hpc]))
  | startTask hpc | exitProcessing _ hpc | countReceived hpc | popReceived _ _ _ hpc =>
    exact h.frame rfl rfl (.inr (by simp [hpc])) (.inl rfl) (.inl rfl)
  | missReceived | taskThrows =>
    exact h.frame rfl rfl (.inl rfl) (.inl rfl) (.inl rfl)
  | nothingReceived _ _ hpc | finishTask _ _ hpc | respond _ _ _ hpc | readQueueSize _ hpc =>
    exact h.frame rfl rfl (.inr (by simp [hpc])) (.inl rfl) (.inl rfl)
  | pushResponse _ _ hpc | dropResponse _ _ _ hpc =>
    exact h.frame rfl rfl (.inr (by simp [hpc])) (.inl rfl) (.inl rfl)
  | startTransmit _ hpc | exitTransmission _ _ hpc | countResponses _ hpc =>
    exact h.frame rfl rfl (.inl rfl) (.inr (by simp [hpc])) (.inl rfl)
  | popResponse _ _ _ _ hpc | noResponse _ _ _ hpc | seeConnection _ _ hpc =>
    exact h.frame rfl rfl (.inl rfl) (.inr (by simp [hpc])) (.inl rfl)
  | send _ hpc | sendThrows _ hpc | dropUnsent _ _ hpc =>
    exact h.frame rfl rfl (.inl rfl) (.inr (by simp [hpc])) (.inl rfl)
  | missResponse =>
    exact h.frame rfl rfl (.inl rfl) (.inl rfl) (.inl rfl)

/-- No halt is undone. -/
theorem haltsDone_le_of_moves {e : BrokerEvent η} (hmoves : Moves modules b e b') :
    haltsDone b.mainThread ≤ haltsDone b'.mainThread := by
  cases hmoves with
  | quit _ hmain | joinProcessor _ hmain | closeConnections hmain | closeThrows hmain =>
    rw [hmain]
    exact Nat.le_succ _
  | joinReception _ hmain =>
    rw [hmain]
    exact Nat.le_succ _
  | _ => exact le_rfl

/-- What every run preserves. -/
private theorem halting_of_run {packetProcessor : R2CPPacketProcessor} {moduleStates : σ}
    {es : List (BrokerEvent η)}
    (hrun : Transition.run (step modules) (started packetProcessor moduleStates) es = some b) :
    Halting b := by
  have hstep : ∀ (b : R2CPRuntimeBroker η σ) e b', Halting b → step modules b e = some b' →
      Halting b' := fun b e b' h hstep => halting_of_moves h (moves_of_step hstep).2
  exact Transition.run_invariant hstep (halting_started packetProcessor moduleStates) hrun

/-! ## The processing thread after the user has quit -/

/-- The longest way to the end of the processing thread, through one more task. -/
def processingStepsLeft : ProcessingThread → Nat
  | .executing => 6
  | .popping _ => 5
  | .processing _ => 4
  | .responding _ => 3
  | .pushing _ _ => 2
  | .looping => 1
  | .exited => 0

/-- How many packets it can still take on this way. -/
def packetsLeft : ProcessingThread → Nat
  | .executing => 1
  | .popping _ => 1
  | _ => 0

/-- With the flag cleared, each step of the processing thread is one on this way. -/
private theorem processingStepsLeft_lt_of_moves (hmoves : Moves modules b .processing b')
    (hhalted : b.isProcessorRunning = false) :
    (b'.hasTerminated = true ∧ 0 < processingStepsLeft b.processingThread) ∨
      processingStepsLeft b'.processingThread < processingStepsLeft b.processingThread := by
  cases hmoves with
  | startTask hpc hrunning =>
    rw [hhalted] at hrunning
    cases hrunning
  | missReceived _ hpc | taskThrows _ _ _ hpc =>
    left
    rw [hpc]
    exact ⟨rfl, by simp [processingStepsLeft]⟩
  | exitProcessing _ hpc | countReceived hpc | popReceived _ _ _ hpc | nothingReceived _ _ hpc =>
    right
    rw [hpc]
    simp [withProcessing, processingStepsLeft]
  | finishTask _ _ hpc | respond _ _ _ hpc | readQueueSize _ hpc =>
    right
    rw [hpc]
    simp [withProcessing, processingStepsLeft]
  | pushResponse _ _ hpc | dropResponse _ _ _ hpc =>
    right
    rw [hpc]
    simp [withProcessing, processingStepsLeft]

/-- After the halt, the thread takes at most the packets that it has counted. -/
private theorem length_processedPackets_le_of_moves {e : BrokerEvent η}
    (hmoves : Moves modules b e b')
    (hhalted : b.isProcessorRunning = false) :
    b'.processedPackets.length + packetsLeft b'.processingThread ≤
      b.processedPackets.length + packetsLeft b.processingThread := by
  cases he : isProcessing e with
  | false =>
    obtain ⟨hpc, hprocessed, -, -⟩ := processing_eq_of_moves hmoves he
    rw [hpc, hprocessed]
  | true =>
    cases hmoves with
    -- the loop is not entered again
    | startTask hpc hrunning =>
      rw [hhalted] at hrunning
      cases hrunning
    -- the packet that was left is taken
    | popReceived _ r2cpPacket _ hpc =>
      show (b.processedPackets ++ [r2cpPacket]).length + 0 ≤ _
      rw [hpc, List.length_append]
      exact le_rfl
    | missReceived | taskThrows => exact le_rfl
    | exitProcessing _ hpc | countReceived hpc | nothingReceived _ _ hpc =>
      rw [hpc]
      exact Nat.add_le_add_left (by simp [withProcessing, packetsLeft]) _
    | finishTask _ _ hpc | respond _ _ _ hpc | readQueueSize _ hpc =>
      rw [hpc]
      exact le_rfl
    | pushResponse _ _ hpc | dropResponse _ _ _ hpc =>
      rw [hpc]
      exact le_rfl
    | _ => cases he

/-- A thread that has not ended can always go on. -/
private theorem exists_processingStep (modules : RobotModules σ) (b : R2CPRuntimeBroker η σ)
    (hgoes : b.hasTerminated = false) (hpc : b.processingThread ≠ .exited) :
    ∃ b', step modules b .processing = some b' := by
  show ∃ b', (if b.hasTerminated then none else b.processingStep modules) = some b'
  rw [hgoes]
  unfold processingStep
  -- at every point but the last, the function goes on or ends the program
  cases hthread : b.processingThread with
  | looping =>
    cases b.isProcessorRunning with
    | true => exact ⟨_, rfl⟩
    | false => exact ⟨_, rfl⟩
  | executing => exact ⟨_, rfl⟩
  | popping r2cpPacketsCount =>
    dsimp only
    rcases exec (PacketQueue.finishPop .reception r2cpPacketsCount)
      b.transceiverQueue.receptionQueue with ⟨(e | r2cpPacket), q⟩
    · cases e <;> exact ⟨_, rfl⟩
    · exact ⟨_, rfl⟩
  | processing r2cpPacket =>
    dsimp only
    rcases exec (b.packetProcessor.finishTask modules r2cpPacket) b.processingState
      with ⟨(e | response), w⟩
    · exact ⟨_, rfl⟩
    · cases response <;> exact ⟨_, rfl⟩
  | responding responseR2CPPacket => exact ⟨_, rfl⟩
  | pushing responseR2CPPacket newQueueSize =>
    dsimp only
    rcases exec (PacketQueue.finishPush .transmission responseR2CPPacket newQueueSize)
      b.transceiverQueue.transmissionQueue with ⟨(e | u), q⟩
    · cases e <;> exact ⟨_, rfl⟩
    · exact ⟨_, rfl⟩
  | exited => exact absurd hthread hpc

/-- The user has quit, and whatever is in the hands of the threads stays as it was wired. -/
structure Quitting (b : R2CPRuntimeBroker η σ) : Prop where
  halting : Halting b
  quit : 1 ≤ haltsDone b.mainThread

/-- The user stays where the quit was. -/
theorem Quitting.of_step (h : Quitting b) {e : BrokerEvent η} (hstep : step modules b e = some b') :
    Quitting b' := by
  obtain ⟨-, hmoves⟩ := moves_of_step hstep
  exact ⟨halting_of_moves h.halting hmoves, h.quit.trans (haltsDone_le_of_moves hmoves)⟩

/-- Who has quit has begun with the halts. -/
private theorem one_le_haltsDone {mainThread : MainThread} (h : mainThread ≠ .waitingForInput) :
    1 ≤ haltsDone mainThread := by
  cases mainThread with
  | waitingForInput => exact absurd rfl h
  | _ => simp [haltsDone]

/-- What is left for the processing thread, which a terminated program has nothing of. -/
def workLeft (b : R2CPRuntimeBroker η σ) : Nat :=
  if b.hasTerminated then 0 else processingStepsLeft b.processingThread

/-- A step of the processing thread uses up work, and none adds any. -/
private theorem Quitting.workLeft_le (h : Quitting b) {e : BrokerEvent η}
    (hstep : step modules b e = some b') :
    workLeft b' + (if isProcessing e then 1 else 0) ≤ workLeft b := by
  obtain ⟨hgoes, hmoves⟩ := moves_of_step hstep
  have hhalted := h.halting.processorFlag.mpr h.quit
  have hbefore : workLeft b = processingStepsLeft b.processingThread := by
    simp only [workLeft, hgoes, Bool.false_eq_true, if_false]
  -- an end of the program leaves no work at all
  have hafter : workLeft b' ≤ processingStepsLeft b'.processingThread := by
    unfold workLeft
    split
    · exact Nat.zero_le _
    · exact le_rfl
  rw [hbefore]
  cases he : isProcessing e with
  -- another thread does not move this one
  | false =>
    rw [← (processing_eq_of_moves hmoves he).1]
    exact hafter
  | true =>
    obtain rfl : e = .processing := by
      cases e with
      | processing => rfl
      | _ => cases he
    rcases processingStepsLeft_lt_of_moves hmoves hhalted with ⟨hterminated, hpos⟩ | hlt
    · simp only [workLeft, hterminated, if_true]
      omega
    · simp only [if_true]
      omega

/-- The processing thread has at most six steps left. -/
private theorem Quitting.countP_isProcessing_le (h : Quitting b) {es' : List (BrokerEvent η)}
    (hrest : Transition.run (step modules) b es' = some b') : es'.countP isProcessing ≤ 6 := by
  have hstep : ∀ (b : R2CPRuntimeBroker η σ) e b', Quitting b → step modules b e = some b' →
      Quitting b' ∧ workLeft b' + (if isProcessing e then 1 else 0) ≤ workLeft b :=
    fun b e b' h hstep => ⟨h.of_step hstep, h.workLeft_le hstep⟩
  refine (Transition.countP_le_of_rank hstep h hrest).trans ?_
  -- a task with a response is the longest way to the end
  unfold workLeft
  split
  · omega
  · cases b.processingThread <;> simp [processingStepsLeft]

/-- It takes at most one packet more. -/
private theorem Quitting.length_processedPackets_le (h : Quitting b) {es' : List (BrokerEvent η)}
    (hrest : Transition.run (step modules) b es' = some b') :
    b'.processedPackets.length ≤ b.processedPackets.length + 1 := by
  -- the packets that were taken, and those that it still can take
  have hstep : ∀ (c : R2CPRuntimeBroker η σ) e c',
      (Quitting c ∧ c.processedPackets.length + packetsLeft c.processingThread ≤
        b.processedPackets.length + packetsLeft b.processingThread) →
      step modules c e = some c' →
      Quitting c' ∧ c'.processedPackets.length + packetsLeft c'.processingThread ≤
        b.processedPackets.length + packetsLeft b.processingThread := by
    rintro c e c' ⟨hc, hle⟩ hstep
    have hmoves := (moves_of_step hstep).2
    exact ⟨hc.of_step hstep, (length_processedPackets_le_of_moves hmoves
      (hc.halting.processorFlag.mpr hc.quit)).trans hle⟩
  have hpackets := (Transition.run_invariant hstep ⟨h, le_rfl⟩ hrest).2
  have hleft : packetsLeft b.processingThread ≤ 1 := by
    cases b.processingThread <;> simp [packetsLeft]
  omega

/-- After the user has quit, the processing thread takes at most six steps and one more
    packet, and nothing keeps it from its next step, in any run. -/
theorem quitting_of_run {packetProcessor : R2CPPacketProcessor} {moduleStates : σ}
    {es es' : List (BrokerEvent η)}
    (hrun : Transition.run (step modules) (started packetProcessor moduleStates) es = some b)
    (hquit : b.mainThread ≠ .waitingForInput)
    (hrest : Transition.run (step modules) b es' = some b') :
    es'.countP isProcessing ≤ 6 ∧
      b'.processedPackets.length ≤ b.processedPackets.length + 1 ∧
      (b'.processingThread = .exited ∨ b'.hasTerminated = true ∨
        ∃ b'', step modules b' .processing = some b'') := by
  have hstart : Quitting b := ⟨halting_of_run hrun, one_le_haltsDone hquit⟩
  refine ⟨?_, ?_, ?_⟩
  · exact hstart.countP_isProcessing_le hrest
  · exact hstart.length_processedPackets_le hrest
  · by_cases hexited : b'.processingThread = .exited
    · exact .inl hexited
    · right
      cases hterminated : b'.hasTerminated with
      | true => exact .inl rfl
      | false => exact .inr (exists_processingStep modules b' hterminated hexited)

/-- The user quits while a task is being started. -/
def quitDuringTask : List (BrokerEvent Unit) := [.processing, .main .returns]

/-- The user quits while a packet is in the works. -/
theorem quitDuringTask_quitting : ∃ b b' : R2CPRuntimeBroker Unit Unit,
    Transition.run (step quietModules) (started oneModule ()) quitDuringTask = some b ∧
    Transition.run (step quietModules) b [.processing, .processing, .processing] = some b' ∧
    [.processing, .processing, .processing].countP (isProcessing : BrokerEvent Unit → Bool) ≤ 6 ∧
    b'.processedPackets.length ≤ b.processedPackets.length + 1 ∧
    (b'.processingThread = .exited ∨ b'.hasTerminated = true ∨
      ∃ b'', step quietModules b' .processing = some b'') := by
  have hruns : ∃ b b' : R2CPRuntimeBroker Unit Unit,
      Transition.run (step quietModules) (started oneModule ()) quitDuringTask = some b ∧
      b.mainThread = .joiningProcessor ∧ Transition.run (step quietModules) b
        [.processing, .processing, .processing] = some b' := ⟨_, _, rfl, rfl, rfl⟩
  obtain ⟨b, b', hrun, hmain, hrest⟩ := hruns
  exact ⟨b, b', hrun, hrest, quitting_of_run hrun (by rw [hmain]; decide) hrest⟩

/-! ## After the joins -/

/-- The processing thread has been joined. -/
structure Joined (b : R2CPRuntimeBroker η σ) : Prop where
  halting : Halting b
  joined : 2 ≤ haltsDone b.mainThread

/-- A joined thread stays joined. -/
theorem Joined.of_step (h : Joined b) {e : BrokerEvent η} (hstep : step modules b e = some b') :
    Joined b' := by
  obtain ⟨-, hmoves⟩ := moves_of_step hstep
  exact ⟨halting_of_moves h.halting hmoves, h.joined.trans (haltsDone_le_of_moves hmoves)⟩

/-- The thread that was joined takes no step. -/
private theorem Joined.isProcessing_eq_false (h : Joined b) {e : BrokerEvent η}
    (hmoves : Moves modules b e b') : isProcessing e = false := by
  have hexited := h.halting.processing h.joined
  cases hmoves with
  | startTask hpc | exitProcessing _ hpc | countReceived hpc | popReceived _ _ _ hpc =>
    rw [hexited] at hpc
    cases hpc
  | missReceived _ hpc | nothingReceived _ _ hpc | finishTask _ _ hpc | respond _ _ _ hpc =>
    rw [hexited] at hpc
    cases hpc
  | taskThrows _ _ _ hpc | readQueueSize _ hpc | pushResponse _ _ hpc | dropResponse _ _ _ hpc =>
    rw [hexited] at hpc
    cases hpc
  | _ => rfl

/-- When `run` has returned, no thread is left that could take a step. -/
theorem Halting.step_eq_none (h : Halting b) (hmain : b.mainThread = .returned)
    (e : BrokerEvent η) : step modules b e = none := by
  have hdone : Halted 4 b := by rwa [Halting, hmain] at h
  have hprocessing := hdone.processing (by omega)
  have htransmission := hdone.transmission (by omega)
  have hreception := hdone.reception (by omega)
  unfold step
  split
  · rfl
  · cases e with
    | main wsServer => simp only [mainStep, hmain]
    | reception event => simp only [receptionStep, hreception]
    | finishMessage => simp only [finishMessageStep, hreception]
    | processing => simp only [processingStep, hprocessing]
    | transmission wsServer => simp only [transmissionStep, htransmission]

/-- Once `packetprocessor.halt` has returned, no robot module is called again, whatever is
    still received, and no packet is taken. When `run` has returned, nothing happens. -/
theorem joined_of_run {packetProcessor : R2CPPacketProcessor} {moduleStates : σ}
    {es es' : List (BrokerEvent η)}
    (hrun : Transition.run (step modules) (started packetProcessor moduleStates) es = some b)
    (hjoined : 2 ≤ haltsDone b.mainThread)
    (hrest : Transition.run (step modules) b es' = some b') :
    b'.moduleCalls = b.moduleCalls ∧ b'.moduleStates = b.moduleStates ∧
      b'.processedPackets = b.processedPackets ∧
      (b'.mainThread = .returned → ∀ e, step modules b' e = none) := by
  have hstep : ∀ (c : R2CPRuntimeBroker η σ) e c',
      (Joined c ∧ c.moduleCalls = b.moduleCalls ∧ c.moduleStates = b.moduleStates ∧
        c.processedPackets = b.processedPackets) →
      step modules c e = some c' →
      Joined c' ∧ c'.moduleCalls = b.moduleCalls ∧ c'.moduleStates = b.moduleStates ∧
        c'.processedPackets = b.processedPackets := by
    rintro c e c' ⟨hc, hcalls, hstates, hpackets⟩ hstep
    have hmoves := (moves_of_step hstep).2
    obtain ⟨-, hpackets', hcalls', hstates'⟩ :=
      processing_eq_of_moves hmoves (hc.isProcessing_eq_false hmoves)
    exact ⟨hc.of_step hstep, hcalls'.trans hcalls, hstates'.trans hstates,
      hpackets'.trans hpackets⟩
  obtain ⟨hb', hcalls, hstates, hpackets⟩ :=
    Transition.run_invariant hstep ⟨⟨halting_of_run hrun, hjoined⟩, rfl, rfl, rfl⟩ hrest
  exact ⟨hcalls, hstates, hpackets, hb'.halting.step_eq_none⟩

/-- The user quits at once, and the processing thread is joined. -/
def joinedAtOnce : List (BrokerEvent Unit) := [.main .returns, .processing, .main .returns]

/-- A message that is received behind the join stays in the queue. -/
theorem messageAfterJoin_joined : ∃ b b' : R2CPRuntimeBroker Unit Unit,
    Transition.run (step quietModules) (started oneModule ()) joinedAtOnce = some b ∧
    Transition.run (step quietModules) b oneMessage = some b' ∧
    b'.transceiverQueue.receptionQueue.packets = [emptyCommandList] ∧
    b'.moduleCalls = b.moduleCalls ∧ b'.moduleStates = b.moduleStates ∧
    b'.processedPackets = b.processedPackets ∧
    (b'.mainThread = .returned → ∀ e, step quietModules b' e = none) := by
  have hruns : ∃ b b' : R2CPRuntimeBroker Unit Unit,
      Transition.run (step quietModules) (started oneModule ()) joinedAtOnce = some b ∧
      b.mainThread = .joiningTransmission ∧
      Transition.run (step quietModules) b oneMessage = some b' ∧
      b'.transceiverQueue.receptionQueue.packets = [emptyCommandList] :=
    ⟨_, _, rfl, rfl, rfl, rfl⟩
  obtain ⟨b, b', hrun, hmain, hrest, hqueued⟩ := hruns
  exact ⟨b, b', hrun, hrest, hqueued, joined_of_run hrun (by rw [hmain]; decide) hrest⟩

/-! ## The way to the end -/

/-- The way to the end of the transmission thread, which finds no response on it. -/
def transmissionStepsLeft : TransmissionThread → Nat
  | .executing => 3
  | .popping _ => 2
  | .looping => 1
  | .sending _ => 0
  | .connected _ => 0
  | .exited => 0
  | .threw => 0

/-- The longest way to the end of the reception thread, if websocketpp's `run` returns. -/
def receptionStepsLeft : ReceptionThread → Nat
  | .pushing _ _ => 2
  | .listening => 1
  | .exited => 0

/-- The steps to the end of `run`, thread by thread. -/
def distance (b : R2CPRuntimeBroker η σ) : Nat :=
  if b.hasTerminated then 0
  else
    4 - haltsDone b.mainThread + processingStepsLeft b.processingThread +
      transmissionStepsLeft b.transmissionThread + receptionStepsLeft b.receptionThread

/-- No state is further away from the end than this. -/
private theorem distance_le (b : R2CPRuntimeBroker η σ) : distance b ≤ 15 := by
  have hprocessing : processingStepsLeft b.processingThread ≤ 6 := by
    cases b.processingThread <;> simp [processingStepsLeft]
  have htransmission : transmissionStepsLeft b.transmissionThread ≤ 3 := by
    cases b.transmissionThread <;> simp [transmissionStepsLeft]
  have hreception : receptionStepsLeft b.receptionThread ≤ 2 := by
    cases b.receptionThread <;> simp [receptionStepsLeft]
  unfold distance
  split <;> omega

/-- What a step of the processing thread leaves alone. -/
private theorem others_eq_of_processing (hmoves : Moves modules b .processing b') :
    b'.mainThread = b.mainThread ∧ b'.transmissionThread = b.transmissionThread ∧
      b'.receptionThread = b.receptionThread := by
  cases hmoves <;> exact ⟨rfl, rfl, rfl⟩

/-- What a step of the transmission thread leaves alone. -/
private theorem others_eq_of_transmission {wsServer : WSServerOutcome}
    (hmoves : Moves modules b (.transmission wsServer) b') :
    b'.mainThread = b.mainThread ∧ b'.processingThread = b.processingThread ∧
      b'.receptionThread = b.receptionThread := by
  cases hmoves <;> exact ⟨rfl, rfl, rfl⟩

/-- With the flag cleared and nothing to send, each step of the transmission thread is one
    on the way. -/
private theorem transmissionStepsLeft_lt_of_moves {wsServer : WSServerOutcome}
    (hmoves : Moves modules b (.transmission wsServer) b') (hsilent : Silent b)
    (hhalted : b.isServerRunning = false) :
    b'.hasTerminated = true ∨
      transmissionStepsLeft b'.transmissionThread < transmissionStepsLeft b.transmissionThread := by
  have hsends := hsilent.transmission
  cases hmoves with
  | startTransmit _ hpc hrunning =>
    rw [hhalted] at hrunning
    cases hrunning
  | missResponse | sendThrows => exact .inl rfl
  | popResponse _ _ _ _ _ _ hpackets =>
    rw [hsilent.queued] at hpackets
    cases hpackets
  | exitTransmission _ _ hpc | countResponses _ hpc | noResponse _ _ _ hpc =>
    right
    rw [hpc]
    simp [withTransmission, transmissionStepsLeft]
  | seeConnection _ _ hpc | send _ hpc | dropUnsent _ _ hpc =>
    -- the thread has never come so far
    rw [hpc] at hsends
    exact hsends.elim

/-- A thread that has not ended can always go on, whatever websocketpp does. -/
private theorem exists_transmissionStep (modules : RobotModules σ) (b : R2CPRuntimeBroker η σ)
    (wsServer : WSServerOutcome) (hgoes : b.hasTerminated = false)
    (hpc : b.transmissionThread ≠ .exited) (hthrew : b.transmissionThread ≠ .threw) :
    ∃ b', step modules b (.transmission wsServer) = some b' := by
  show ∃ b', (if b.hasTerminated then none else b.transmissionStep wsServer) = some b'
  rw [hgoes]
  unfold transmissionStep
  -- as in the processing thread
  cases hthread : b.transmissionThread with
  | looping =>
    cases b.isServerRunning with
    | true => exact ⟨_, rfl⟩
    | false => exact ⟨_, rfl⟩
  | executing => exact ⟨_, rfl⟩
  | popping r2cpPacketsCount =>
    dsimp only
    rcases exec (PacketQueue.finishPop .transmission r2cpPacketsCount)
      b.transceiverQueue.transmissionQueue with ⟨(e | r2cpPacket), q⟩
    · cases e <;> exact ⟨_, rfl⟩
    · exact ⟨_, rfl⟩
  | sending r2cpPacket =>
    cases b.robotServer.hasConnection with
    | true => exact ⟨_, rfl⟩
    | false => exact ⟨_, rfl⟩
  | connected r2cpPacket => cases wsServer <;> exact ⟨_, rfl⟩
  | exited => exact absurd hthread hpc
  | threw => exact absurd hthread hthrew

/-- Before the end, a step comes closer if it terminates the program or shortens a way. -/
private theorem distance_lt (hgoes : b.hasTerminated = false) (hmain : b.mainThread ≠ .returned)
    (h : b'.hasTerminated = true ∨
      4 - haltsDone b'.mainThread + processingStepsLeft b'.processingThread +
          transmissionStepsLeft b'.transmissionThread + receptionStepsLeft b'.receptionThread <
        4 - haltsDone b.mainThread + processingStepsLeft b.processingThread +
          transmissionStepsLeft b.transmissionThread + receptionStepsLeft b.receptionThread) :
    distance b' < distance b := by
  have hdone : haltsDone b.mainThread ≤ 3 := by
    cases hthread : b.mainThread with
    | returned => exact absurd hthread hmain
    | _ => simp [haltsDone]
  unfold distance
  rw [if_neg (Bool.eq_false_iff.mp hgoes)]
  split
  · omega
  · rename_i hgoes'
    rcases h with hterminated | hlt
    · exact absurd hterminated hgoes'
    · exact hlt

/-- The program has terminated, or `run` has returned. -/
def Over (b : R2CPRuntimeBroker η σ) : Prop := b.hasTerminated = true ∨ b.mainThread = .returned

/-- websocketpp has not thrown in `run`. -/
structure CanHalt (b : R2CPRuntimeBroker η σ) : Prop where
  halting : Halting b
  silent : Silent b
  hasNotThrown : b.mainThread ≠ .threw

/-- The main thread takes its steps while the program runs. -/
theorem step_main (modules : RobotModules σ) (hgoes : b.hasTerminated = false)
    (wsServer : WSServerOutcome) : step modules b (.main wsServer) = b.mainStep wsServer :=
  if_neg (Bool.eq_false_iff.mp hgoes)

/-- The packet in the hands of the reception thread is queued or dropped. -/
private theorem exists_finishMessageStep (modules : RobotModules σ)
    (hgoes : b.hasTerminated = false)
    {r2cpPacket : List UInt8} {newQueueSize : UInt32}
    (hpc : b.receptionThread = .pushing r2cpPacket newQueueSize) :
    ∃ b', step modules b .finishMessage = some b' ∧ b'.receptionThread = .listening ∧
      b'.mainThread = b.mainThread ∧ b'.processingThread = b.processingThread ∧
      b'.transmissionThread = b.transmissionThread := by
  show ∃ b', (if b.hasTerminated then none else b.finishMessageStep) = some b' ∧ _
  rw [if_neg (Bool.eq_false_iff.mp hgoes)]
  unfold finishMessageStep
  rw [hpc]
  dsimp only
  rw [PacketQueue.exec_finishPush]
  by_cases hfits : newQueueSize ≤ b.transceiverQueue.receptionQueue.maxQueueSize
  · rw [if_pos hfits]
    exact ⟨_, rfl, rfl, rfl, rfl, rfl⟩
  · rw [if_neg hfits]
    exact ⟨_, rfl, rfl, rfl, rfl, rfl⟩

/-- What can come closer to the end, and how: the step comes before the end, its state can
    still be halted, and it terminates the program or shortens a way. -/
theorem CanHalt.closer (h : CanHalt b) (hover : ¬Over b) {e : BrokerEvent η}
    (hstep : step modules b e = some b') (hthrew : b'.mainThread ≠ .threw)
    (hless : b'.hasTerminated = true ∨
      4 - haltsDone b'.mainThread + processingStepsLeft b'.processingThread +
          transmissionStepsLeft b'.transmissionThread + receptionStepsLeft b'.receptionThread <
        4 - haltsDone b.mainThread + processingStepsLeft b.processingThread +
          transmissionStepsLeft b.transmissionThread + receptionStepsLeft b.receptionThread) :
    ∃ e b', step modules b e = some b' ∧ CanHalt b' ∧ distance b' < distance b := by
  obtain ⟨hgoes, hmoves⟩ := moves_of_step hstep
  exact ⟨e, b', hstep, ⟨halting_of_moves h.halting hmoves, silent_of_moves h.silent hmoves, hthrew⟩,
    distance_lt hgoes (fun hmain => hover (.inr hmain)) hless⟩

/-- The main thread waits for the processing thread, which ends. -/
private theorem CanHalt.closer_joiningProcessor (modules : RobotModules σ) (h : CanHalt b)
    (hover : ¬Over b) (hgoes : b.hasTerminated = false)
    (hmain : b.mainThread = .joiningProcessor) :
    ∃ e b', step modules b e = some b' ∧ CanHalt b' ∧ distance b' < distance b := by
  by_cases hexited : b.processingThread = .exited
  · have hstep : step modules b (.main .returns) =
        some (b.haltServer.withMain .joiningTransmission) := by
      rw [step_main modules hgoes]
      simp only [mainStep, hmain, hexited]
    apply h.closer hover hstep (by simp [withMain])
    right
    simp [withMain, haltServer, haltsDone, hmain]
  · obtain ⟨b', hstep⟩ := exists_processingStep modules b hgoes hexited
    have hmoves := (moves_of_step hstep).2
    obtain ⟨hsame, htransmission, hreception⟩ := others_eq_of_processing hmoves
    have hhalted : b.isProcessorRunning = false :=
      h.halting.processorFlag.mpr (by rw [hmain]; decide)
    apply h.closer hover hstep (by rw [hsame, hmain]; decide)
    rw [hsame, htransmission, hreception]
    rcases processingStepsLeft_lt_of_moves hmoves hhalted with ⟨hterminated, -⟩ | hlt
    · exact .inl hterminated
    · right
      omega

/-- Then it waits for the transmission thread. -/
private theorem CanHalt.closer_joiningTransmission (modules : RobotModules σ) (h : CanHalt b)
    (hover : ¬Over b) (hgoes : b.hasTerminated = false)
    (hmain : b.mainThread = .joiningTransmission) :
    ∃ e b', step modules b e = some b' ∧ CanHalt b' ∧ distance b' < distance b := by
  by_cases hexited : b.transmissionThread = .exited
  · -- the thread has ended, and the connections are closed
    have hstep : step modules b (.main .returns) = some ((b.onServer
        R2CPWebSocketServer.closeWSServerConnections).withMain .joiningReception) := by
      rw [step_main modules hgoes]
      simp only [mainStep, hmain, hexited]
    apply h.closer hover hstep (by simp [withMain])
    right
    simp [withMain, onServer, haltsDone, hmain]
  · -- it has not, and then it goes on: nothing was sent on which websocketpp could throw
    have hthread : b.transmissionThread ≠ .threw := by
      intro hthrew
      have hsends := h.silent.transmission
      rw [hthrew] at hsends
      exact hsends
    obtain ⟨b', hstep⟩ := exists_transmissionStep modules b .returns hgoes hexited hthread
    have hmoves := (moves_of_step hstep).2
    obtain ⟨hsame, hprocessing, hreception⟩ := others_eq_of_transmission hmoves
    have hhalted : b.isServerRunning = false :=
      h.halting.serverFlag.mpr (by rw [hmain]; decide)
    apply h.closer hover hstep (by rw [hsame, hmain]; decide)
    rw [hsame, hprocessing, hreception]
    rcases transmissionStepsLeft_lt_of_moves hmoves h.silent hhalted with hterminated | hlt
    · exact .inl hterminated
    · right
      omega

/-- At last it waits for the reception thread, and websocketpp stops listening. -/
private theorem CanHalt.closer_joiningReception (modules : RobotModules σ) (h : CanHalt b)
    (hover : ¬Over b) (hgoes : b.hasTerminated = false)
    (hmain : b.mainThread = .joiningReception) :
    ∃ e b', step modules b e = some b' ∧ CanHalt b' ∧ distance b' < distance b := by
  cases hreception : b.receptionThread with
  -- the last join
  | exited =>
    have hstep : step modules b (.main .returns) = some (b.withMain .returned) := by
      rw [step_main modules hgoes]
      simp only [mainStep, hmain, hreception]
    apply h.closer hover hstep (by simp [withMain])
    right
    simp [withMain, haltsDone, hmain]
  -- websocketpp returns once the connections are closed
  | listening =>
    have hstep : step modules b (.reception .returns) = some b.exitReception := by
      show (if b.hasTerminated then none else b.receptionStep .returns) = _
      rw [if_neg (Bool.eq_false_iff.mp hgoes)]
      simp only [receptionStep, hreception]
    apply h.closer hover hstep h.hasNotThrown
    right
    simp [exitReception, withReception, writeLog, receptionStepsLeft, hreception]
  -- the handler ends first
  | pushing r2cpPacket newQueueSize =>
    obtain ⟨b', hstep, hlistening, hsame, hprocessing, htransmission⟩ :=
      exists_finishMessageStep modules hgoes hreception
    apply h.closer hover hstep (by rw [hsame, hmain]; decide)
    right
    rw [hsame, hprocessing, htransmission, hlistening, hreception]
    simp only [receptionStepsLeft]
    omega

/-- Some thread can always come closer to the end. -/
private theorem CanHalt.exists_step_closer (modules : RobotModules σ) (h : CanHalt b)
    (hover : ¬Over b) :
    ∃ e b', step modules b e = some b' ∧ CanHalt b' ∧ distance b' < distance b := by
  have hgoes : b.hasTerminated = false := Bool.eq_false_of_not_eq_true fun h => hover (.inl h)
  -- which thread that is depends on the one that the main thread waits for
  cases hmain : b.mainThread with
  | waitingForInput =>
    have hstep : step modules b (.main .returns) =
        some (b.haltProcessor.withMain .joiningProcessor) := by
      rw [step_main modules hgoes]
      simp only [mainStep, hmain]
    apply h.closer hover hstep (by simp [withMain])
    right
    simp [withMain, haltProcessor, haltsDone, hmain]
  | joiningProcessor => exact h.closer_joiningProcessor modules hover hgoes hmain
  | joiningTransmission => exact h.closer_joiningTransmission modules hover hgoes hmain
  | joiningReception => exact h.closer_joiningReception modules hover hgoes hmain
  | returned => exact absurd (.inr hmain) hover
  | threw => exact absurd hmain h.hasNotThrown

/-- The program cannot get stuck. From every state of every run in which websocketpp did not
    throw in `run`, at most fifteen steps lead to the end. -/
theorem exists_end_of_run {packetProcessor : R2CPPacketProcessor} {moduleStates : σ}
    {es : List (BrokerEvent η)}
    (hrun : Transition.run (step modules) (started packetProcessor moduleStates) es = some b)
    (hmain : b.mainThread ≠ .threw) :
    ∃ es' b', Transition.run (step modules) b es' = some b' ∧
      (b'.hasTerminated = true ∨ b'.mainThread = .returned) ∧ es'.length ≤ 15 := by
  have hnext : ∀ b : R2CPRuntimeBroker η σ, CanHalt b → ¬Over b →
      ∃ e b', step modules b e = some b' ∧ CanHalt b' ∧ distance b' < distance b :=
    fun b h hover => h.exists_step_closer modules hover
  obtain ⟨es', b', hrest, hover, hlength⟩ :=
    Transition.exists_run_of_rank hnext ⟨halting_of_run hrun, silent_of_run hrun, hmain⟩
  exact ⟨es', b', hrest, hover, hlength.trans (distance_le b)⟩

/-- From there, fifteen steps are enough. -/
theorem quitDuringTask_ends : ∃ b : R2CPRuntimeBroker Unit Unit,
    Transition.run (step quietModules) (started oneModule ()) quitDuringTask = some b ∧
    ∃ es' b', Transition.run (step quietModules) b es' = some b' ∧
      (b'.hasTerminated = true ∨ b'.mainThread = .returned) ∧ es'.length ≤ 15 := by
  have hrun : ∃ b : R2CPRuntimeBroker Unit Unit,
      Transition.run (step quietModules) (started oneModule ()) quitDuringTask = some b ∧
      b.mainThread = .joiningProcessor := ⟨_, rfl, rfl⟩
  obtain ⟨b, hrun, hmain⟩ := hrun
  exact ⟨b, hrun, exists_end_of_run hrun (by rw [hmain]; decide)⟩

end R2CP.R2CPRuntimeBroker
