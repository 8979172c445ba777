import R2CP.Spec.BrokerRound
import R2CP.Spec.QueueInterleaving

/-!
# From messages to robot modules

What the program is for: the packets that operators send are taken one after the other,
and each leads to the calls of its commands. `Relays` says how far a run has come with
the messages it has got. `relays_of_run` proves it of every run, whatever the threads
do in between, for robot modules that throw at most `std::out_of_range`, and that in
reactions.

The program does not survive every packet. `SafePacket` is what it survives, and an
unsafe one is the last that any run takes up.

## Key results

- `relays_of_run`: every run relays the messages that it has received
- `relayInv_of_run`: the invariant behind it, with what each step needs
- `stopsAt_fatal`: nothing after a fatal packet reaches a module
- `RelayInv.frame`, `RelayInv.settle`, `EndsTask.relays`: the steps that move no packet, queue
  one, and end a task
-/

namespace R2CP

open StatefulExcept (exec Yields)

namespace R2CPPacketProcessor

open R2CPParser (visible PacketAccepted)
open Spec

variable {σ : Type}

/-! ## What a packet leads to -/

/-- The calls that a packet leads to. One that the parser throws on leads to none. -/
def packetCalls (p : R2CPPacketProcessor) (r2cpPacket : List UInt8) : List ModuleCall :=
  match (exec (R2CPParser.parseR2CPPacket r2cpPacket) R2CPParser.new).1 with
  | .ok commands => p.dispatch commands
  | .error _ => []

/-- The processing thread survives the packet: it is declared invalid, or the modules have
    no answer to its calls. -/
def SafePacket (p : R2CPPacketProcessor) (modules : RobotModules σ) (s : σ)
    (r2cpPacket : List UInt8) : Prop :=
  match (exec (R2CPParser.parseR2CPPacket r2cpPacket) R2CPParser.new).1 with
  | .ok commands => (collect modules s (p.dispatch commands)).1 = []
  | .error e => ∃ what, e = .invalidArgument what

/-- The states of the modules after the calls of packets. -/
def statesAfter (p : R2CPPacketProcessor) (modules : RobotModules σ) (s : σ)
    (r2cpPackets : List (List UInt8)) : σ :=
  (collect modules s (r2cpPackets.flatMap p.packetCalls)).2

/-- The processing thread survives the packets, one after the other. -/
def SafePackets (p : R2CPPacketProcessor) (modules : RobotModules σ) (s : σ)
    (r2cpPackets : List (List UInt8)) : Prop :=
  ∀ before r2cpPacket, before ++ [r2cpPacket] <+: r2cpPackets →
    p.SafePacket modules (p.statesAfter modules s before) r2cpPacket

/-- No evaluation ends a round, except for reactions that throw `std::out_of_range`. -/
def OnlyReactionsThrow (modules : RobotModules σ) : Prop :=
  ∀ call s, GoesOn modules s call

variable {p : R2CPPacketProcessor} {modules : RobotModules σ} {s : σ}

/-- Before the first packet there is nothing to survive. -/
private theorem safePackets_nil : p.SafePackets modules s [] := by
  intro before r2cpPacket h
  have hlen := h.length_le
  simp at hlen

/-- Packets are survived one after the other. -/
private theorem safePackets_concat_iff {r2cpPackets : List (List UInt8)} {r2cpPacket : List UInt8} :
    p.SafePackets modules s (r2cpPackets ++ [r2cpPacket]) ↔
      p.SafePackets modules s r2cpPackets ∧
        p.SafePacket modules (p.statesAfter modules s r2cpPackets) r2cpPacket := by
  constructor
  · intro h
    exact ⟨fun before x hx => h before x (hx.trans (List.prefix_append _ _)),
      h r2cpPackets r2cpPacket (List.prefix_refl _)⟩
  · rintro ⟨hbefore, hlast⟩ before x hx
    rcases List.prefix_concat_iff.mp hx with heq | hx
    · obtain ⟨rfl, hpacket⟩ := List.append_inj' heq rfl
      obtain rfl := List.singleton_injective hpacket
      exact hlast
    · exact hbefore before x hx

/-- The packets before are survived as well. -/
private theorem SafePackets.of_isPrefixOf {packets packets' : List (List UInt8)}
    (h : p.SafePackets modules s packets') (hle : packets <+: packets') :
    p.SafePackets modules s packets :=
  fun before x hx => h before x (hx.trans hle)

/-- The states after one packet more. -/
private theorem statesAfter_concat (p : R2CPPacketProcessor) (modules : RobotModules σ) (s : σ)
    (r2cpPackets : List (List UInt8)) (r2cpPacket : List UInt8) :
    p.statesAfter modules s (r2cpPackets ++ [r2cpPacket]) =
      (collect modules (p.statesAfter modules s r2cpPackets) (p.packetCalls r2cpPacket)).2 := by
  simp only [statesAfter, List.flatMap_append, List.flatMap_singleton, collect_append]

/-- Such modules end no round early, whatever they are asked. -/
theorem OnlyReactionsThrow.allCalls (h : OnlyReactionsThrow modules) (s : σ)
    (calls : List ModuleCall) : AllCalls (GoesOn modules) modules s calls := by
  induction calls generalizing s with
  | nil => trivial
  | cons call calls ih => exact ⟨h call s, ih _⟩

/-! ## Tasks -/

section Tasks

variable {t : R2CPTransceiverQueue} {calls : List ModuleCall} {head : List UInt8}

/-- The parser returns commands, or throws one of two exceptions. -/
private theorem parseR2CPPacket_cases (head : List UInt8) :
    (∃ commands, (exec (R2CPParser.parseR2CPPacket head) R2CPParser.new).1 = .ok commands) ∨
    (∃ what, (exec (R2CPParser.parseR2CPPacket head) R2CPParser.new).1 =
      .error (.invalidArgument what)) ∨
    ∃ what, (exec (R2CPParser.parseR2CPPacket head) R2CPParser.new).1 =
      .error (.outOfRange what) := by
  by_cases hacc : PacketAccepted (visible head)
  swap
  · exact .inr (.inl ⟨_, (R2CPParser.parseR2CPPacket_rejected hacc []).outcome rfl⟩)
  by_cases hempty : IsEmptyPacket (visible head)
  · exact .inr (.inr ⟨_, (R2CPParser.parseR2CPPacket_empty hempty []).outcome rfl⟩)
  by_cases hover : R2CPParser.OverrunsInside (visible head)
  · obtain ⟨what, s', hthrow⟩ := R2CPParser.parseR2CPPacket_overruns hover []
    exact .inr (.inr ⟨what, hthrow.outcome rfl⟩)
  · obtain ⟨commands, hcommands⟩ := R2CPParser.exists_commandsOf hacc hempty hover
    exact .inl ⟨commands, parseR2CPPacket_of_commandsOf hcommands⟩

/-- What the inner handler lets pass, the outer one does as well. -/
private theorem finishTask_throws {what : What} {v : R2CPTransceiverQueue × σ × List ModuleCall}
    (h : Yields worldOf (p.collectResponses modules head >>= responsePacket) (t, s, calls)
      (.error (.outOfRange what)) v) :
    Yields worldOf (p.finishTask modules head) (t, s, calls) (.error (.outOfRange what)) v := by
  unfold finishTask
  rw [prepareResponse_eq]
  exact Yields.tryCatch_error (Yields.tryCatch_error h (.throw _)) (.throw _)

/-- The serializer throws on any responses, so a task with responses throws. -/
private theorem responsePacket_throws {responses : List R2CPCommand} (h : responses ≠ []) :
    Yields (worldOf (σ := σ)) (responsePacket responses) (t, s, calls)
      (.error R2CPSerializer.noBytesLeft) (t, s, calls) := by
  unfold responsePacket
  rw [if_pos (List.length_pos_of_ne_nil h)]
  exact (serializeResponses_throws responses).bind_error

/-- A task makes the calls of its packet, and it returns exactly if the packet is safe. -/
private theorem finishTask_yields (hmodules : OnlyReactionsThrow modules) (p : R2CPPacketProcessor)
    (t : R2CPTransceiverQueue) (s : σ) (calls : List ModuleCall) (head : List UInt8) :
    ∃ r, Yields worldOf (p.finishTask modules head) (t, s, calls) r
        (t, (collect modules s (p.packetCalls head)).2, calls ++ p.packetCalls head) ∧
      ((∃ response, r = .ok response) ↔ p.SafePacket modules s head) := by
  unfold packetCalls SafePacket
  rcases parseR2CPPacket_cases head with ⟨commands, hparse⟩ | ⟨what, hparse⟩ | ⟨what, hparse⟩
  · -- the modules are called, and what they answer decides
    have hcollect : Yields worldOf (p.collectResponses modules head) (t, s, calls) _ _ :=
      collectResponses_yields hparse (hmodules.allCalls s (p.dispatch commands))
    simp only [hparse]
    by_cases hquiet : (collect modules s (p.dispatch commands)).1 = []
    · refine ⟨.ok none, ?_, iff_of_true ⟨none, rfl⟩ hquiet⟩
      rw [hquiet] at hcollect
      unfold finishTask
      rw [prepareResponse_eq]
      exact Yields.tryCatch_ok (Yields.tryCatch_ok (hcollect.bind (.pure none)))
    · -- there are responses, and the serializer throws
      refine ⟨.error R2CPSerializer.noBytesLeft, ?_, iff_of_false ?_ hquiet⟩
      · exact finishTask_throws (hcollect.bind (responsePacket_throws hquiet))
      · rintro ⟨response, hr⟩
        cases hr
  · -- the handler for `std::invalid_argument` ends the task
    have hthrow : Yields worldOf (onNewParser (R2CPParser.parseR2CPPacket head)) (t, s, calls)
        (.error (.invalidArgument what)) (t, s, calls) := onNewParser_yields hparse
    simp only [hparse, collect, List.append_nil]
    refine ⟨.ok none, ?_, iff_of_true ⟨none, rfl⟩ ⟨what, rfl⟩⟩
    unfold finishTask
    rw [prepareResponse_eq]
    exact Yields.tryCatch_ok (Yields.tryCatch_error (hthrow.bind_error.bind_error)
      ((writeLog_yields _).bind (.pure none)))
  · -- neither handler catches `std::out_of_range`
    have hthrow : Yields worldOf (onNewParser (R2CPParser.parseR2CPPacket head)) (t, s, calls)
        (.error (.outOfRange what)) (t, s, calls) := onNewParser_yields hparse
    simp only [hparse, collect, List.append_nil]
    refine ⟨.error (.outOfRange what), finishTask_throws hthrow.bind_error.bind_error,
      iff_of_false ?_ ?_⟩
    · rintro ⟨response, hr⟩
      cases hr
    · rintro ⟨what', hwhat⟩
      cases hwhat

end Tasks

/-! ## What no modules survive -/

/-- The parser throws `std::out_of_range` on the packet, although it is valid. -/
def Fatal (r2cpPacket : List UInt8) : Prop :=
  IsEmptyPacket (visible r2cpPacket) ∨ R2CPParser.OverrunsInside (visible r2cpPacket)

/-- A fatal packet is one on which the parser throws what nobody expects. -/
theorem Fatal.outOfRange {r2cpPacket : List UInt8} (h : Fatal r2cpPacket) :
    ∃ what, (exec (R2CPParser.parseR2CPPacket r2cpPacket) R2CPParser.new).1 =
      .error (.outOfRange what) := by
  rcases h with hempty | hover
  · exact ⟨_, (R2CPParser.parseR2CPPacket_empty hempty []).outcome rfl⟩
  · obtain ⟨what, s', hthrow⟩ := R2CPParser.parseR2CPPacket_overruns hover []
    exact ⟨what, hthrow.outcome rfl⟩

/-- No modules help against it. -/
private theorem Fatal.not_safePacket {r2cpPacket : List UInt8} (h : Fatal r2cpPacket) :
    ¬p.SafePacket modules s r2cpPacket := by
  obtain ⟨what, hparse⟩ := h.outOfRange
  unfold SafePacket
  rw [hparse]
  rintro ⟨what', hwhat⟩
  cases hwhat

/-- It leads to no call. -/
private theorem Fatal.packetCalls_eq_nil {r2cpPacket : List UInt8} (h : Fatal r2cpPacket)
    (p : R2CPPacketProcessor) : p.packetCalls r2cpPacket = [] := by
  obtain ⟨what, hparse⟩ := h.outOfRange
  unfold packetCalls
  rw [hparse]

end R2CPPacketProcessor

/-! ## Runs of the program -/

namespace R2CPRuntimeBroker

open R2CPPacketProcessor (Fatal collect OnlyReactionsThrow finishTask_yields safePackets_nil
  safePackets_concat_iff statesAfter_concat)

variable {η σ : Type} {modules : RobotModules σ} {b b' : R2CPRuntimeBroker η σ}
  {p : R2CPPacketProcessor} {s : σ} {past : List (BrokerEvent η)}

/-- The packet in a received message. -/
def messageOf : BrokerEvent η → Option (List UInt8)
  | .reception (.onMessage _ r2cpPacketBase64) => some (Base64.base64Decode r2cpPacketBase64)
  | _ => none

/-- The packets in the messages that were received, in order. -/
def messagesOf (es : List (BrokerEvent η)) : List (List UInt8) := es.filterMap messageOf

/-- The packet that the reception thread is about to queue. -/
def arriving : ReceptionThread → List (List UInt8)
  | .pushing r2cpPacket _ => [r2cpPacket]
  | _ => []

/-- The packet that the processing thread works on. -/
def inHand : ProcessingThread → List (List UInt8)
  | .processing r2cpPacket => [r2cpPacket]
  | _ => []

/-- The packets that were popped, that are queued, and that are about to be. -/
def takenPackets (b : R2CPRuntimeBroker η σ) : List (List UInt8) :=
  b.processedPackets ++ b.transceiverQueue.receptionQueue.packets ++ arriving b.receptionThread

/-- The packets that the processing thread is done with. -/
def finishedPackets (b : R2CPRuntimeBroker η σ) : List (List UInt8) :=
  match b.processingThread, b.hasTerminated with
  | .processing _, false => b.processedPackets.dropLast
  | _, _ => b.processedPackets

/-- How far the program has come with the packets in `messages`, from the module states
    `s`: it takes them in order, all of them if they fit the queue together, makes the
    calls of those that are done and no others, and goes on exactly as long as these are
    safe. After one that is not, it takes up no other. -/
structure Relays (p : R2CPPacketProcessor) (modules : RobotModules σ) (s : σ)
    (messages : List (List UInt8)) (b : R2CPRuntimeBroker η σ) : Prop where
  inOrder : b.takenPackets.Sublist messages
  complete : (messages.map List.length).sum ≤ R2CPTransceiverQueue.defaultMaxQueueSize.toNat →
    b.takenPackets = messages
  calls : b.moduleCalls = b.finishedPackets.flatMap p.packetCalls
  states : b.moduleStates = p.statesAfter modules s b.finishedPackets
  goesOn : b.hasTerminated = false ↔ p.SafePackets modules s b.finishedPackets
  unsafeLast : p.SafePackets modules s b.finishedPackets.dropLast

/-! ## What the program is done with -/

/-- A thread without a packet in its hands is done with all that it popped. -/
theorem finishedPackets_of_inHand_eq_nil (h : inHand b.processingThread = []) :
    b.finishedPackets = b.processedPackets := by
  unfold finishedPackets
  cases hpc : b.processingThread with
  | processing r2cpPacket =>
    rw [hpc] at h
    cases h
  | _ => rfl

/-- While it works on a packet, this is the last one that was popped. -/
private theorem finishedPackets_of_processing {r2cpPacket : List UInt8}
    (h : b.processingThread = .processing r2cpPacket) (hgoes : b.hasTerminated = false) :
    b.finishedPackets = b.processedPackets.dropLast := by
  simp only [finishedPackets, h, hgoes]

/-- A program that has ended is done with all packets that were popped. -/
private theorem finishedPackets_terminated (h : b.hasTerminated = true) :
    b.finishedPackets = b.processedPackets := by
  unfold finishedPackets
  rw [h]
  cases b.processingThread <;> rfl

/-- At most one message comes with an event. -/
theorem messagesOf_concat (past : List (BrokerEvent η)) (e : BrokerEvent η) :
    messagesOf (past ++ [e]) = messagesOf past ++ (messageOf e).toList := by
  simp only [messagesOf, List.filterMap_append]
  cases h : messageOf e <;> simp [h]

/-- Most events come without one. -/
private theorem messagesOf_concat_of_none (past : List (BrokerEvent η)) {e : BrokerEvent η}
    (he : messageOf e = none) : messagesOf (past ++ [e]) = messagesOf past := by
  rw [messagesOf_concat, he, Option.toList_none, List.append_nil]

/-! ## The invariant -/

/-- `Relays`, with what the steps need for it: who reads the counter and the count, and
    what the processing thread has in its hands. -/
structure RelayInv (p : R2CPPacketProcessor) (modules : RobotModules σ) (s : σ)
    (past : List (BrokerEvent η)) (b : R2CPRuntimeBroker η σ) : Prop where
  registry : b.packetProcessor = p
  silent : Silent b
  max : b.transceiverQueue.receptionQueue.maxQueueSize = R2CPTransceiverQueue.defaultMaxQueueSize
  holds (r2cpPacket : List UInt8) : b.processingThread = .processing r2cpPacket →
    ∃ before, b.processedPackets = before ++ [r2cpPacket]
  counted (r2cpPacketsCount : UInt32) : b.processingThread = .popping r2cpPacketsCount →
    r2cpPacketsCount.toNat ≤ b.transceiverQueue.receptionQueue.packets.length
  fits : ((messagesOf past).map List.length).sum ≤
      R2CPTransceiverQueue.defaultMaxQueueSize.toNat →
    b.transceiverQueue.receptionQueue.Exact ∧ ∀ r2cpPacket newQueueSize,
      b.receptionThread = .pushing r2cpPacket newQueueSize →
      newQueueSize ≤ R2CPTransceiverQueue.defaultMaxQueueSize
  relays : Relays p modules s (messagesOf past) b

/-- When `run` starts, there is nothing to relay. -/
private theorem relayInv_started (p : R2CPPacketProcessor) (modules : RobotModules σ) (s : σ) :
    RelayInv p modules s ([] : List (BrokerEvent η)) (started p s) where
  registry := rfl
  silent := silent_started p s
  max := rfl
  holds _ h := by cases h
  counted _ h := by cases h
  fits _ := ⟨⟨rfl, Nat.zero_le _⟩, fun _ _ h => by cases h⟩
  relays := ⟨List.Sublist.slnil, fun _ => rfl, rfl, rfl, iff_of_true rfl safePackets_nil,
    safePackets_nil⟩

/-- The packets, the queue that they wait in, and what they have led to are the same. -/
structure SameWork (b b' : R2CPRuntimeBroker η σ) : Prop where
  packetProcessor : b'.packetProcessor = b.packetProcessor
  receptionQueue : b'.transceiverQueue.receptionQueue = b.transceiverQueue.receptionQueue
  processedPackets : b'.processedPackets = b.processedPackets
  moduleCalls : b'.moduleCalls = b.moduleCalls
  moduleStates : b'.moduleStates = b.moduleStates
  hasTerminated : b'.hasTerminated = b.hasTerminated

/-- How far the program has come depends on the packets and what they have led to. -/
private theorem Relays.of_eq {messages : List (List UInt8)} (h : Relays p modules s messages b)
    (htaken : b'.takenPackets = b.takenPackets)
    (hfinished : b'.finishedPackets = b.finishedPackets)
    (hcalls : b'.moduleCalls = b.moduleCalls) (hstates : b'.moduleStates = b.moduleStates)
    (hterminated : b'.hasTerminated = b.hasTerminated) : Relays p modules s messages b' := by
  constructor
  · rw [htaken]
    exact h.inOrder
  · rw [htaken]
    exact h.complete
  · rw [hcalls, hfinished]
    exact h.calls
  · rw [hstates, hfinished]
    exact h.states
  · rw [hterminated, hfinished]
    exact h.goesOn
  · rw [hfinished]
    exact h.unsafeLast

/-- A step that neither receives a message nor moves a packet. -/
theorem RelayInv.frame (h : RelayInv p modules s past b) {e : BrokerEvent η}
    (he : messageOf e = none) (hsilent : Silent b') (hsame : SameWork b b')
    (hreception : b'.receptionThread = b.receptionThread ∨
      arriving b.receptionThread = [] ∧ arriving b'.receptionThread = [])
    (hprocessing : b'.processingThread = b.processingThread ∨
      inHand b.processingThread = [] ∧ inHand b'.processingThread = [] ∧
      ∀ r2cpPacketsCount, b'.processingThread = .popping r2cpPacketsCount →
        r2cpPacketsCount.toNat ≤ b.transceiverQueue.receptionQueue.packets.length) :
    RelayInv p modules s (past ++ [e]) b' := by
  have hmessages := messagesOf_concat_of_none past he
  have htaken : b'.takenPackets = b.takenPackets := by
    unfold takenPackets
    rw [hsame.processedPackets, hsame.receptionQueue]
    rcases hreception with heq | ⟨hold, hnew⟩
    · rw [heq]
    · rw [hold, hnew]
  have hfinished : b'.finishedPackets = b.finishedPackets := by
    rcases hprocessing with heq | ⟨hold, hnew, -⟩
    · unfold finishedPackets
      rw [heq, hsame.hasTerminated, hsame.processedPackets]
    · rw [finishedPackets_of_inHand_eq_nil hold, finishedPackets_of_inHand_eq_nil hnew,
        hsame.processedPackets]
  constructor
  · rw [hsame.packetProcessor, h.registry]
  · exact hsilent
  · rw [hsame.receptionQueue, h.max]
  · -- whoever holds a packet now held it before
    intro r2cpPacket hpc
    rcases hprocessing with heq | ⟨-, hnew, -⟩
    · rw [hsame.processedPackets]
      exact h.holds r2cpPacket (heq ▸ hpc)
    · rw [hpc] at hnew
      cases hnew
  · -- a count is that of before, or it was read in this step
    intro r2cpPacketsCount hpc
    rw [hsame.receptionQueue]
    rcases hprocessing with heq | ⟨-, -, hcount⟩
    · exact h.counted r2cpPacketsCount (heq ▸ hpc)
    · exact hcount r2cpPacketsCount hpc
  · -- no packet has arrived that could be too much
    rw [hmessages, hsame.receptionQueue]
    intro hsum
    refine ⟨(h.fits hsum).1, fun r2cpPacket newQueueSize hpc => ?_⟩
    rcases hreception with heq | ⟨-, hnew⟩
    · exact (h.fits hsum).2 r2cpPacket newQueueSize (heq ▸ hpc)
    · rw [hpc] at hnew
      cases hnew
  · rw [hmessages]
    exact h.relays.of_eq htaken hfinished hsame.moduleCalls hsame.moduleStates hsame.hasTerminated

/-! ## The steps that move a packet -/

/-- A message has been received. -/
private theorem RelayInv.arrive (h : RelayInv p modules s past b) (hdl : η)
    (r2cpPacketBase64 : List UInt8) (hreception : b.receptionThread = .listening) :
    RelayInv p modules s (past ++ [.reception (.onMessage hdl r2cpPacketBase64)])
      (b.withReception (.pushing (Base64.base64Decode r2cpPacketBase64)
        (b.transceiverQueue.receptionQueue.queueSize +
          UInt32.ofNat (Base64.base64Decode r2cpPacketBase64).length))) := by
  set r2cpPacket := Base64.base64Decode r2cpPacketBase64 with hpacket
  have hmessages : messagesOf (past ++ [.reception (.onMessage hdl r2cpPacketBase64)]) =
      messagesOf past ++ [r2cpPacket] := messagesOf_concat past _
  have hbefore : b.takenPackets =
      b.processedPackets ++ b.transceiverQueue.receptionQueue.packets := by
    simp only [takenPackets, hreception, arriving, List.append_nil]
  -- nothing was about to be queued, since the thread was listening
  have hinOrder := h.relays.inOrder
  have hcomplete := h.relays.complete
  rw [hbefore] at hinOrder hcomplete
  refine ⟨h.registry, ⟨h.silent.processing, h.silent.queued, h.silent.transmission, h.silent.sent⟩,
    h.max, h.holds, h.counted, ?_, ?_⟩
  · rw [hmessages, List.map_append, List.sum_append]
    intro hsum
    obtain ⟨hexact, -⟩ := h.fits (by omega)
    refine ⟨hexact, ?_⟩
    intro packet newQueueSize hpushing
    obtain ⟨rfl, rfl⟩ := ReceptionThread.pushing.inj hpushing
    -- the packets of the messages so far are popped or queued, so the sum does not wrap
    have htotal := congrArg (fun packets => (packets.map List.length).sum) (hcomplete (by omega))
    simp only [List.map_append, List.sum_append] at htotal
    have hcounts : b.transceiverQueue.receptionQueue.queueSize.toNat =
        (b.transceiverQueue.receptionQueue.packets.map List.length).sum := hexact.counts
    have hlength : ([r2cpPacket].map List.length).sum = r2cpPacket.length := by simp
    have hmax := R2CPTransceiverQueue.defaultMaxQueueSize.toNat_lt
    rw [UInt32.le_iff_toNat_le, hexact.toNat_add (by omega), ← hexact.counts]
    omega
  · rw [hmessages]
    refine ⟨hinOrder.append (List.Sublist.refl _), ?_, h.relays.calls, h.relays.states,
      h.relays.goesOn, h.relays.unsafeLast⟩
    rw [List.map_append, List.sum_append]
    intro hsum
    exact congrArg (· ++ [r2cpPacket]) (hcomplete (by omega))

/-- A step of the reception thread alone that is done with the packet it was about to
    queue: `packets` are queued afterwards. -/
private theorem RelayInv.settle (h : RelayInv p modules s past b) {r2cpPacket : List UInt8}
    {newQueueSize : UInt32} (hreception : b.receptionThread = .pushing r2cpPacket newQueueSize)
    {q : PacketQueue} (hmax : q.maxQueueSize = b.transceiverQueue.receptionQueue.maxQueueSize)
    (hlength : b.transceiverQueue.receptionQueue.packets.length ≤ q.packets.length)
    (hpackets : q.packets.Sublist (b.transceiverQueue.receptionQueue.packets ++ [r2cpPacket]))
    (hfits : ((messagesOf past).map List.length).sum ≤
        R2CPTransceiverQueue.defaultMaxQueueSize.toNat →
      q.Exact ∧ q.packets = b.transceiverQueue.receptionQueue.packets ++ [r2cpPacket]) :
    RelayInv p modules s (past ++ [.finishMessage])
      ((b.setQueue .reception q).withReception .listening) := by
  have hmessages : messagesOf (past ++ [(.finishMessage : BrokerEvent η)]) = messagesOf past :=
    messagesOf_concat_of_none past rfl
  have hbefore : b.takenPackets =
      b.processedPackets ++ (b.transceiverQueue.receptionQueue.packets ++ [r2cpPacket]) := by
    simp only [takenPackets, hreception, arriving, List.append_assoc]
  have hafter : takenPackets ((b.setQueue .reception q).withReception .listening) =
      b.processedPackets ++ q.packets := List.append_nil _
  -- the packet counts as taken before the step, and is queued or gone after it
  have hinOrder := h.relays.inOrder
  have hcomplete := h.relays.complete
  rw [hbefore] at hinOrder hcomplete
  refine ⟨h.registry, ⟨h.silent.processing, h.silent.queued, h.silent.transmission, h.silent.sent⟩,
    hmax.trans h.max, h.holds, ?_, ?_, ?_⟩
  · intro r2cpPacketsCount hpc
    exact (h.counted r2cpPacketsCount hpc).trans hlength
  · -- the packet is the last one taken, and the last message
    rw [hmessages]
    intro hsum
    refine ⟨(hfits hsum).1, ?_⟩
    intro packet newQueueSize hpc
    cases hpc
  · rw [hmessages]
    refine ⟨?_, ?_, h.relays.calls, h.relays.states, h.relays.goesOn, h.relays.unsafeLast⟩
    · rw [hafter]
      exact ((List.Sublist.refl _).append hpackets).trans hinOrder
    · rw [hafter]
      intro hsum
      rw [(hfits hsum).2, hcomplete hsum]

/-- The packet is queued. -/
private theorem RelayInv.accept (h : RelayInv p modules s past b) {r2cpPacket : List UInt8}
    {newQueueSize : UInt32} (hreception : b.receptionThread = .pushing r2cpPacket newQueueSize) :
    RelayInv p modules s (past ++ [.finishMessage])
      ((b.setQueue .reception
        (b.transceiverQueue.receptionQueue.append r2cpPacket)).withReception .listening) := by
  refine h.settle hreception rfl ?_ (List.Sublist.refl _) ?_
  · exact ((List.prefix_append _ _).length_le :
      _ ≤ (b.transceiverQueue.receptionQueue.packets ++ [r2cpPacket]).length)
  · intro hsum
    obtain ⟨hexact, -⟩ := h.fits hsum
    refine ⟨hexact.append ?_, rfl⟩
    -- all of it is packets of messages, which fit together
    have htotal := congrArg (fun packets => (packets.map List.length).sum)
      (h.relays.complete hsum)
    simp only [takenPackets, hreception, arriving, List.map_append, List.sum_append,
      List.map_cons, List.map_nil, List.sum_cons, List.sum_nil, Nat.add_zero] at htotal
    have hcounts : b.transceiverQueue.receptionQueue.queueSize.toNat =
        (b.transceiverQueue.receptionQueue.packets.map List.length).sum := hexact.counts
    rw [h.max]
    omega

/-- The packet is dropped, which does not happen to packets that fit together. -/
theorem RelayInv.reject (h : RelayInv p modules s past b) {r2cpPacket : List UInt8}
    {newQueueSize : UInt32} (hreception : b.receptionThread = .pushing r2cpPacket newQueueSize)
    (hfull : ¬newQueueSize ≤ b.transceiverQueue.receptionQueue.maxQueueSize)
    (entry : LogEntry) :
    RelayInv p modules s (past ++ [.finishMessage])
      ((b.writeLog entry).withReception .listening) := by
  have hsettled := h.settle hreception (q := b.transceiverQueue.receptionQueue) rfl le_rfl
    (List.sublist_append_left _ _) (fun hsum => by
      rw [h.max] at hfull
      exact absurd ((h.fits hsum).2 _ _ hreception) hfull)
  exact ⟨hsettled.registry, ⟨hsettled.silent.processing, hsettled.silent.queued,
    hsettled.silent.transmission, hsettled.silent.sent⟩, hsettled.max, hsettled.holds,
    hsettled.counted, hsettled.fits, hsettled.relays.inOrder, hsettled.relays.complete,
    hsettled.relays.calls, hsettled.relays.states, hsettled.relays.goesOn,
    hsettled.relays.unsafeLast⟩

/-- The processing thread takes the first packet. -/
theorem RelayInv.pop (h : RelayInv p modules s past b) {r2cpPacketsCount : UInt32}
    {r2cpPacket : List UInt8} {packets : List (List UInt8)}
    (hprocessing : b.processingThread = .popping r2cpPacketsCount)
    (hpackets : b.transceiverQueue.receptionQueue.packets = r2cpPacket :: packets)
    (hgoes : b.hasTerminated = false) :
    RelayInv p modules s (past ++ [.processing])
      (((b.setQueue .reception
        (b.transceiverQueue.receptionQueue.eraseFirst r2cpPacket)).recordPacket
          r2cpPacket).withProcessing (.processing r2cpPacket)) := by
  set b' := ((b.setQueue .reception
    (b.transceiverQueue.receptionQueue.eraseFirst r2cpPacket)).recordPacket
      r2cpPacket).withProcessing (.processing r2cpPacket) with hb'
  have hmessages : messagesOf (past ++ [(.processing : BrokerEvent η)]) = messagesOf past :=
    messagesOf_concat_of_none past rfl
  have hrest : (b.transceiverQueue.receptionQueue.eraseFirst r2cpPacket).packets = packets :=
    congrArg List.tail hpackets
  -- the packet moves from the queue into the hands of the thread
  have htaken : b'.takenPackets = b.takenPackets := by
    show b.processedPackets ++ [r2cpPacket] ++
      (b.transceiverQueue.receptionQueue.eraseFirst r2cpPacket).packets ++
        arriving b.receptionThread = _
    simp only [takenPackets, hrest, hpackets, List.append_assoc, List.singleton_append]
  -- it is not done yet, so the packets that are done are the same
  have hfinished : b'.finishedPackets = b.finishedPackets := by
    rw [finishedPackets_of_inHand_eq_nil (b := b) (by rw [hprocessing]; rfl),
      finishedPackets_of_processing (b := b') rfl hgoes]
    exact List.dropLast_concat
  constructor
  · exact h.registry
  · exact ⟨trivial, h.silent.queued, h.silent.transmission, h.silent.sent⟩
  · exact h.max
  · intro packet hpc
    obtain rfl := ProcessingThread.processing.inj hpc
    exact ⟨b.processedPackets, rfl⟩
  · intro count hpc
    cases hpc
  · rw [hmessages]
    intro hsum
    obtain ⟨hexact, harriving⟩ := h.fits hsum
    exact ⟨hexact.eraseFirst hpackets, harriving⟩
  · rw [hmessages]
    exact h.relays.of_eq htaken hfinished rfl rfl rfl

/-- What a task leaves, and whether it returns. -/
private theorem finishTask_leaves (hmodules : OnlyReactionsThrow modules) {r2cpPacket : List UInt8}
    {r : Except StdException (Option (List UInt8))} {w : ProcessingState σ}
    (hexec : exec (b.packetProcessor.finishTask modules r2cpPacket) b.processingState = (r, w)) :
    w.transceiverQueue = b.transceiverQueue ∧
      w.moduleCalls = b.moduleCalls ++ b.packetProcessor.packetCalls r2cpPacket ∧
      w.moduleStates =
        (collect modules b.moduleStates (b.packetProcessor.packetCalls r2cpPacket)).2 ∧
      ((∃ response, r = .ok response) ↔
        b.packetProcessor.SafePacket modules b.moduleStates r2cpPacket) := by
  obtain ⟨r', hyields, hreturns⟩ := finishTask_yields hmodules b.packetProcessor
    b.transceiverQueue b.moduleStates b.moduleCalls r2cpPacket
  obtain ⟨w', hexec', hworld⟩ := hyields b.processingState rfl
  rw [hexec] at hexec'
  obtain ⟨rfl, rfl⟩ := Prod.mk.inj hexec'
  obtain ⟨hqueue, hw⟩ := Prod.mk.inj hworld
  obtain ⟨hstates, hcalls⟩ := Prod.mk.inj hw
  exact ⟨hqueue, hcalls, hstates, hreturns⟩

/-- The end of a task: the calls of its packet have been made, and the program goes on
    exactly if the packet was safe. The packets are where they were. -/
structure EndsTask (modules : RobotModules σ) (r2cpPacket : List UInt8)
    (b b' : R2CPRuntimeBroker η σ) : Prop where
  packetProcessor : b'.packetProcessor = b.packetProcessor
  receptionQueue : b'.transceiverQueue.receptionQueue = b.transceiverQueue.receptionQueue
  receptionThread : b'.receptionThread = b.receptionThread
  processedPackets : b'.processedPackets = b.processedPackets
  moduleCalls : b'.moduleCalls = b.moduleCalls ++ b.packetProcessor.packetCalls r2cpPacket
  moduleStates : b'.moduleStates =
    (collect modules b.moduleStates (b.packetProcessor.packetCalls r2cpPacket)).2
  goesOn : b'.hasTerminated = false ↔
    b.packetProcessor.SafePacket modules b.moduleStates r2cpPacket
  processingThread : b'.processingThread = .looping ∨
    b'.hasTerminated = true ∧ b'.processingThread = .processing r2cpPacket

/-- A task that returns sends the thread back to its loop. -/
private theorem endsTask_of_returns (hmodules : OnlyReactionsThrow modules)
    (hgoes : b.hasTerminated = false) {r2cpPacket : List UInt8}
    {response : Option (List UInt8)} {w : ProcessingState σ}
    (hexec : exec (b.packetProcessor.finishTask modules r2cpPacket) b.processingState =
      (.ok response, w)) :
    EndsTask modules r2cpPacket b ((b.setProcessingState w).withProcessing .looping) := by
  obtain ⟨hqueue, hcalls, hstates, hreturns⟩ := finishTask_leaves hmodules hexec
  exact ⟨rfl, congrArg _ hqueue, rfl, rfl, hcalls, hstates,
    iff_of_true hgoes (hreturns.mp ⟨response, rfl⟩), .inl rfl⟩

/-- A task that throws ends the program where the thread stands. -/
private theorem endsTask_of_throws (hmodules : OnlyReactionsThrow modules)
    {r2cpPacket : List UInt8} (hprocessing : b.processingThread = .processing r2cpPacket)
    {e : StdException} {w : ProcessingState σ}
    (hexec : exec (b.packetProcessor.finishTask modules r2cpPacket) b.processingState =
      (.error e, w)) :
    EndsTask modules r2cpPacket b (b.setProcessingState w).terminated := by
  obtain ⟨hqueue, hcalls, hstates, hreturns⟩ := finishTask_leaves hmodules hexec
  refine ⟨rfl, congrArg _ hqueue, rfl, rfl, hcalls, hstates,
    iff_of_false (Ne.symm Bool.false_ne_true) ?_, .inr ⟨rfl, hprocessing⟩⟩
  intro hsafe
  obtain ⟨response, hok⟩ := hreturns.mpr hsafe
  cases hok

/-- After the task, the thread is done with all packets that were popped. -/
private theorem EndsTask.finishedPackets {r2cpPacket : List UInt8}
    (h : EndsTask modules r2cpPacket b b') : b'.finishedPackets = b.processedPackets := by
  rw [← h.processedPackets]
  rcases h.processingThread with hpc | ⟨hterminated, -⟩
  · apply finishedPackets_of_inHand_eq_nil
    rw [hpc]
    rfl
  · exact finishedPackets_terminated hterminated

/-- One more packet is done. -/
private theorem EndsTask.relays {r2cpPacket : List UInt8}
    (htask : EndsTask modules r2cpPacket b b') (hregistry : b.packetProcessor = p)
    {messages before : List (List UInt8)} (hprocessed : b.processedPackets = before ++ [r2cpPacket])
    (hprocessing : b.processingThread = .processing r2cpPacket) (hgoes : b.hasTerminated = false)
    (h : Relays p modules s messages b) : Relays p modules s messages b' := by
  subst hregistry
  -- until now the packets before it were done, and they were safe
  have hbefore : b.finishedPackets = before := by
    rw [finishedPackets_of_processing hprocessing hgoes, hprocessed, List.dropLast_concat]
  have hsafe := h.goesOn.mp hgoes
  have hcalls := h.calls
  have hstates := h.states
  rw [hbefore] at hsafe hcalls hstates
  have hfinished : b'.finishedPackets = before ++ [r2cpPacket] :=
    htask.finishedPackets.trans hprocessed
  have htaken : b'.takenPackets = b.takenPackets := by
    unfold takenPackets
    rw [htask.processedPackets, htask.receptionQueue, htask.receptionThread]
  constructor
  · rw [htaken]
    exact h.inOrder
  · rw [htaken]
    exact h.complete
  · -- the calls are those of the packets before, and of this one
    rw [htask.moduleCalls, hfinished, hcalls, List.flatMap_append, List.flatMap_singleton]
  · rw [htask.moduleStates, hfinished, statesAfter_concat, ← hstates]
  · rw [htask.goesOn, hfinished, safePackets_concat_iff, ← hstates]
    exact (and_iff_right hsafe).symm
  · rw [hfinished, List.dropLast_concat]
    exact hsafe

/-- The processing thread is done with a packet: it goes on, or it has terminated the
    program. -/
private theorem RelayInv.finish (h : RelayInv p modules s past b)
    (hgoes : b.hasTerminated = false) {r2cpPacket : List UInt8}
    (hprocessing : b.processingThread = .processing r2cpPacket)
    (hsilent : Silent b') (htask : EndsTask modules r2cpPacket b b') :
    RelayInv p modules s (past ++ [.processing]) b' := by
  have hmessages : messagesOf (past ++ [(.processing : BrokerEvent η)]) = messagesOf past :=
    messagesOf_concat_of_none past rfl
  obtain ⟨before, hprocessed⟩ := h.holds r2cpPacket hprocessing
  constructor
  · exact htask.packetProcessor.trans h.registry
  · exact hsilent
  · rw [htask.receptionQueue]
    exact h.max
  · -- a program that has ended still holds the packet
    intro packet hpc
    rcases htask.processingThread with hlooping | ⟨-, hholds⟩
    · rw [hlooping] at hpc
      cases hpc
    · obtain rfl := ProcessingThread.processing.inj (hholds.symm.trans hpc)
      exact ⟨before, htask.processedPackets.trans hprocessed⟩
  · intro count hpc
    rcases htask.processingThread with hlooping | ⟨-, hholds⟩
    · rw [hlooping] at hpc
      cases hpc
    · rw [hholds] at hpc
      cases hpc
  · rw [hmessages, htask.receptionQueue, htask.receptionThread]
    exact h.fits
  · rw [hmessages]
    exact htask.relays h.registry hprocessed hprocessing hgoes h.relays

/-! ## All steps -/

/-- What a step of the server leaves alone. -/
theorem Silent.sameWork_onServer (h : Silent b)
    {x : R2CPWebSocketServer.WebSocketServer η Unit}
    (hx : StatefulExcept.Keeps (R2CPWebSocketServer.HasSent [] b.transceiverQueue) x) :
    SameWork b (b.onServer x) :=
  ⟨rfl, congrArg R2CPTransceiverQueue.receptionQueue
    (hx b.robotServer ⟨rfl, h.sent⟩).transceiverQueue, rfl, rfl, rfl, rfl⟩

/-- A step of the server while no packet is sent: the packets are where they were. -/
private theorem RelayInv.onServer (h : RelayInv p modules s past b) {e : BrokerEvent η}
    (he : messageOf e = none) {x : R2CPWebSocketServer.WebSocketServer η Unit}
    (hx : StatefulExcept.Keeps (R2CPWebSocketServer.HasSent [] b.transceiverQueue) x)
    (hsilent : Silent (b.onServer x)) :
    RelayInv p modules s (past ++ [e]) (b.onServer x) :=
  h.frame he hsilent (h.silent.sameWork_onServer hx) (.inl rfl) (.inl rfl)

/-- A step of the processing thread that neither starts nor ends with a packet in its
    hands, and does not count. -/
private theorem RelayInv.withProcessing (h : RelayInv p modules s past b)
    (hsilent : Silent b') (hsame : SameWork b b')
    (hreception : b'.receptionThread = b.receptionThread)
    (hold : inHand b.processingThread = []) (hnew : inHand b'.processingThread = [])
    (hcount : ∀ r2cpPacketsCount, b'.processingThread ≠ .popping r2cpPacketsCount) :
    RelayInv p modules s (past ++ [.processing]) b' :=
  h.frame rfl hsilent hsame (.inl hreception)
    (.inr ⟨hold, hnew, fun count hpc => absurd hpc (hcount count)⟩)

/-- What each step preserves. The cases are those of `Moves`: the threads one by one. -/
private theorem relayInv_of_moves (h : RelayInv p modules s past b)
    (hmodules : OnlyReactionsThrow modules)
    {e : BrokerEvent η} (hgoes : b.hasTerminated = false) (hmoves : Moves modules b e b') :
    RelayInv p modules s (past ++ [e]) b' := by
  have hsilent := silent_of_moves h.silent hmoves
  have hprocessing := h.silent.processing
  have htransmission := h.silent.transmission
  cases hmoves with
  -- the main thread does not touch packets
  | quit | joinProcessor | closeThrows | joinReception =>
    exact h.frame rfl hsilent ⟨rfl, rfl, rfl, rfl, rfl, rfl⟩ (.inl rfl) (.inl rfl)
  | closeConnections =>
    -- here the server's flag changes as well, so this is not a step of the server alone
    have hsame := h.silent.sameWork_onServer R2CPWebSocketServer.keeps_closeWSServerConnections
    exact h.frame rfl hsilent ⟨rfl, hsame.receptionQueue, rfl, rfl, rfl, rfl⟩ (.inl rfl) (.inl rfl)
  -- the reception thread: of its steps, those of a message move a packet
  | onOpen hdl => exact h.onServer rfl (R2CPWebSocketServer.keeps_onOpen hdl) hsilent
  | onClose hdl => exact h.onServer rfl (R2CPWebSocketServer.keeps_onClose hdl) hsilent
  | onMessage hdl r2cpPacketBase64 hpc => exact h.arrive hdl r2cpPacketBase64 hpc
  | stopReceiving hpc =>
    exact h.frame rfl hsilent ⟨rfl, rfl, rfl, rfl, rfl, rfl⟩ (.inr ⟨by rw [hpc]; rfl, rfl⟩)
      (.inl rfl)
  | acceptMessage r2cpPacket newQueueSize hpc => exact h.accept hpc
  | rejectMessage r2cpPacket newQueueSize entry hpc hfull => exact h.reject hpc hfull entry
  -- the processing thread: it counts, pops and works on the packet that it popped
  | startTask hpc | exitProcessing entry hpc | nothingReceived count entry hpc =>
    refine h.withProcessing hsilent ⟨rfl, rfl, rfl, rfl, rfl, rfl⟩ rfl (by rw [hpc]; rfl) rfl ?_
    intro count hcount
    cases hcount
  | countReceived hpc =>
    refine h.frame rfl hsilent ⟨rfl, rfl, rfl, rfl, rfl, rfl⟩ (.inl rfl)
      (.inr ⟨by rw [hpc]; rfl, rfl, ?_⟩)
    intro count hcount
    obtain rfl := ProcessingThread.popping.inj hcount
    exact UInt32.toNat_ofNat'.trans_le (Nat.mod_le _ _)
  | popReceived count r2cpPacket packets hpc _ hpackets => exact h.pop hpc hpackets hgoes
  | missReceived count hpc hcount hpackets =>
    -- nobody else takes packets, so what was counted is there
    have hle := h.counted count hpc
    rw [hpackets] at hle
    exact absurd (UInt32.lt_iff_toNat_lt.mp hcount) (Nat.not_lt.mpr hle)
  | finishTask r2cpPacket w hpc hexec =>
    exact h.finish hgoes hpc hsilent (endsTask_of_returns hmodules hgoes hexec)
  | taskThrows r2cpPacket e w hpc hexec =>
    exact h.finish hgoes hpc hsilent (endsTask_of_throws hmodules hpc hexec)
  -- there are no responses
  | respond | readQueueSize => exact hsilent.processing.elim
  | pushResponse responseR2CPPacket newQueueSize hpc
  | dropResponse responseR2CPPacket newQueueSize entry hpc =>
    rw [hpc] at hprocessing
    exact hprocessing.elim
  -- the transmission thread looks for a response and never finds one
  | startTransmit | exitTransmission | countResponses | noResponse =>
    exact h.frame rfl hsilent ⟨rfl, rfl, rfl, rfl, rfl, rfl⟩ (.inl rfl) (.inl rfl)
  | popResponse wsServer count r2cpPacket packets _ _ hpackets =>
    rw [h.silent.queued] at hpackets
    cases hpackets
  | missResponse wsServer count hpc hcount =>
    rw [hpc] at htransmission
    exact absurd htransmission (UInt32.pos_iff_ne_zero.mp hcount)
  | seeConnection wsServer r2cpPacket hpc | send r2cpPacket hpc | sendThrows r2cpPacket hpc
  | dropUnsent wsServer r2cpPacket hpc =>
    rw [hpc] at htransmission
    exact htransmission.elim

/-- What every run preserves. -/
theorem relayInv_of_run (hmodules : OnlyReactionsThrow modules) (p : R2CPPacketProcessor) (s : σ)
    {es : List (BrokerEvent η)} (hrun : Transition.run (step modules) (started p s) es = some b) :
    RelayInv p modules s es b := by
  have hstep : ∀ past (b : R2CPRuntimeBroker η σ) e b', RelayInv p modules s past b →
      step modules b e = some b' → RelayInv p modules s (past ++ [e]) b' := by
    intro past b e b' h hstep
    obtain ⟨hgoes, hmoves⟩ := moves_of_step hstep
    exact relayInv_of_moves h hmodules hgoes hmoves
  exact Transition.run_induction hstep (relayInv_started p modules s) hrun

/-- Every run, with any registry and any robot modules of which at most reactions throw,
    and then `std::out_of_range`, relays the messages that it has received. -/
theorem relays_of_run (hmodules : OnlyReactionsThrow modules) (p : R2CPPacketProcessor) (s : σ)
    {es : List (BrokerEvent η)} (hrun : Transition.run (step modules) (started p s) es = some b) :
    Relays p modules s (messagesOf es) b := by
  exact (relayInv_of_run hmodules p s hrun).relays

/-! ## The last packet -/

/-- Only packets that were popped can be done. -/
theorem finishedPackets_isPrefixOf (b : R2CPRuntimeBroker η σ) :
    b.finishedPackets <+: b.processedPackets := by
  unfold finishedPackets
  split
  · exact List.dropLast_prefix _
  · exact List.prefix_refl _

/-- All packets but the last one that was popped are safe. -/
private theorem Relays.safe_dropLast {messages : List (List UInt8)}
    (h : Relays p modules s messages b) :
    p.SafePackets modules s b.processedPackets.dropLast := by
  cases hterminated : b.hasTerminated with
  | false =>
    apply (h.goesOn.mp hterminated).of_isPrefixOf
    unfold finishedPackets
    split
    · exact List.prefix_refl _
    · exact List.dropLast_prefix _
  | true =>
    rw [← finishedPackets_terminated hterminated]
    exact h.unsafeLast

/-- Nothing is popped after an unsafe packet. -/
private theorem Relays.eq_nil_of_not_safe {messages : List (List UInt8)}
    (h : Relays p modules s messages b) {before after : List (List UInt8)}
    {r2cpPacket : List UInt8} (hprocessed : b.processedPackets = before ++ [r2cpPacket] ++ after)
    (hfails : ¬p.SafePacket modules (p.statesAfter modules s before) r2cpPacket) : after = [] := by
  by_contra hafter
  refine hfails (h.safe_dropLast before r2cpPacket ?_)
  rw [hprocessed, List.dropLast_append_of_ne_nil hafter]
  exact List.prefix_append _ _

/-- A fatal packet is the last one that any run takes up, with robot modules of which at
    most reactions throw, and then `std::out_of_range`: if the messages fit together, then
    whatever is received after it reaches no module. -/
theorem stopsAt_fatal (hmodules : OnlyReactionsThrow modules) (p : R2CPPacketProcessor) (s : σ)
    {es : List (BrokerEvent η)} (hrun : Transition.run (step modules) (started p s) es = some b)
    {before after : List (List UInt8)} {r2cpPacket : List UInt8}
    (hmessages : messagesOf es = before ++ [r2cpPacket] ++ after) (hfatal : Fatal r2cpPacket)
    (hfits : ((messagesOf es).map List.length).sum ≤
      R2CPTransceiverQueue.defaultMaxQueueSize.toNat) :
    b.processedPackets <+: before ++ [r2cpPacket] ∧
      b.moduleCalls <+: before.flatMap p.packetCalls := by
  have hrelays := (relayInv_of_run hmodules p s hrun).relays
  -- packets that fit together are taken in the order of the messages
  have hpopped : b.processedPackets <+: before ++ [r2cpPacket] ++ after := by
    rw [← hmessages, ← hrelays.complete hfits]
    unfold takenPackets
    rw [List.append_assoc]
    exact List.prefix_append _ _
  -- so what was popped ends with the fatal packet, or before it
  have hprocessed : b.processedPackets <+: before ++ [r2cpPacket] := by
    rcases List.prefix_or_prefix_of_prefix hpopped (List.prefix_append _ after)
      with hle | ⟨rest, hrest⟩
    · exact hle
    · rw [← hrest, hrelays.eq_nil_of_not_safe hrest.symm hfatal.not_safePacket, List.append_nil]
  refine ⟨hprocessed, ?_⟩
  have hcalls := ((finishedPackets_isPrefixOf b).trans hprocessed).flatMap p.packetCalls
  rw [← hrelays.calls, List.flatMap_append, List.flatMap_singleton, hfatal.packetCalls_eq_nil p,
    List.append_nil] at hcalls
  exact hcalls

/-- Modules that answer nothing throw nothing. -/
theorem onlyReactionsThrow_quietModules : OnlyReactionsThrow quietModules :=
  fun _ _ => .inl ⟨[], rfl⟩

/-- A message is received, and its packet is queued. -/
def oneMessage : List (BrokerEvent Unit) :=
  [.reception (.onMessage () (Base64.base64Encode emptyCommandList)), .finishMessage]

/-- A packet is received and processed. -/
def relayedPacket : List (BrokerEvent Unit) :=
  oneMessage ++ [.processing, .processing, .processing, .processing]

/-- The packet of the message has led to its call. -/
theorem relayedPacket_relays : ∃ b,
    Transition.run (step quietModules) (started oneModule ()) relayedPacket = some b ∧
    b.moduleCalls = [.active 7] ∧
    Relays oneModule quietModules () (messagesOf relayedPacket) b := by
  have hrun : ∃ b, Transition.run (step quietModules) (started oneModule ()) relayedPacket =
      some b ∧ b.moduleCalls = [.active 7] := ⟨_, rfl, rfl⟩
  obtain ⟨b, hrun, hcalls⟩ := hrun
  exact ⟨b, hrun, hcalls, relays_of_run onlyReactionsThrow_quietModules oneModule () hrun⟩

/-- Magic number and size 0, and then the packet without commands. -/
def fatalFirst : List (BrokerEvent Unit) :=
  [.reception (.onMessage () (Base64.base64Encode [82, 50, 67, 80, 0, 0, 0, 0])), .finishMessage,
    .reception (.onMessage () (Base64.base64Encode emptyCommandList)), .finishMessage,
    .processing, .processing, .processing, .processing]

/-- Of the two packets, only the fatal one is taken up. -/
theorem fatalFirst_stops : ∃ b,
    Transition.run (step quietModules) (started oneModule ()) fatalFirst = some b ∧
    b.processedPackets <+: [[82, 50, 67, 80, 0, 0, 0, 0]] ∧ b.moduleCalls <+: [] := by
  have hrun : ∃ b, Transition.run (step quietModules) (started oneModule ()) fatalFirst =
      some b := ⟨_, rfl⟩
  obtain ⟨b, hrun⟩ := hrun
  have hmessages : messagesOf fatalFirst =
      [] ++ [[82, 50, 67, 80, 0, 0, 0, 0]] ++ [emptyCommandList] := by decide
  have hfatal : Fatal [82, 50, 67, 80, 0, 0, 0, 0] :=
    .inl ⟨R2CPParser.r2cpMagicNumber, .inl rfl, by decide⟩
  exact ⟨b, hrun, stopsAt_fatal onlyReactionsThrow_quietModules oneModule () hrun hmessages hfatal
    (by decide)⟩

end R2CPRuntimeBroker

end R2CP
