import R2CP.Spec.ProcessingFrame

/-!
# Dispatch of a packet's commands

A round should evaluate each reacting module once for each of its commands, in packet
order, then every module of the set once, and hand all answers to the serializer; a
reaction that throws `std::out_of_range` should cost its own answer only. `Dispatches`
says so of `executeTask` itself: of the calls and of the lists that it records.

## Key results

- `dispatches_iff`: a round dispatches fully exactly for modules that throw nothing else
  and give no answer that is so long that its 32-bit count is 0
- `hugeAnswer_not_dispatches`: an answer of `2 ^ 32` commands is lost
-/

namespace R2CP.R2CPPacketProcessor

open StatefulExcept (exec Yields Keeps)

variable {σ : Type}

/-! ## All answers -/

/-- What the modules answer to calls one after the other. A call that throws adds nothing. -/
def gather (modules : RobotModules σ) : σ → List ModuleCall → List R2CPCommand
  | _, [] => []
  | s, call :: calls =>
    (answer modules s call).1 ++ gather modules (answer modules s call).2 calls

/-- The 32-bit count of an answer shows whether there is one. -/
def Counted (modules : RobotModules σ) (s : σ) (call : ModuleCall) : Prop :=
  (answer modules s call).1.length % 2 ^ 32 = 0 → (answer modules s call).1 = []

/-- Answers are lost if their 32-bit count is 0. -/
private theorem appendResponses_nil_eq_iff (answers : List R2CPCommand) :
    appendResponses [] answers = answers ↔ (answers.length % 2 ^ 32 = 0 → answers = []) := by
  have hzero := ofNat_eq_zero_iff answers.length
  unfold appendResponses
  by_cases hcount : answers.length % 2 ^ 32 = 0
  · rw [hzero.mpr hcount, if_neg (by decide)]
    simp only [hcount, true_imp_iff, eq_comm]
  · rw [if_pos (UInt32.pos_iff_ne_zero.mpr (mt hzero.mp hcount)), List.nil_append]
    simp only [hcount, false_imp_iff]

/-- None is added. -/
private theorem length_appendResponses_le (answers : List R2CPCommand) :
    (appendResponses [] answers).length ≤ answers.length := by
  unfold appendResponses
  split <;> simp

/-- What is collected is not more than what was answered. -/
private theorem length_collect_le (modules : RobotModules σ) (s : σ) (calls : List ModuleCall) :
    (collect modules s calls).1.length ≤ (gather modules s calls).length := by
  induction calls generalizing s with
  | nil => exact Nat.le_refl _
  | cons call calls ih =>
    have hfirst := length_appendResponses_le (answer modules s call).1
    have hrest := ih (answer modules s call).2
    simp only [collect, gather, List.length_append]
    omega

/-- All answers are collected exactly if all are counted. -/
private theorem collect_eq_gather_iff (modules : RobotModules σ) (s : σ) (calls : List ModuleCall) :
    (collect modules s calls).1 = gather modules s calls ↔
      AllCalls (Counted modules) modules s calls := by
  induction calls generalizing s with
  | nil => simp [collect, gather, AllCalls]
  | cons call calls ih =>
    simp only [collect, gather, AllCalls, Counted, ← appendResponses_nil_eq_iff, ← ih]
    constructor
    · intro h
      -- nothing gets longer, so nothing got lost
      have hlen := congrArg List.length h
      simp only [List.length_append] at hlen
      have hfirst := length_appendResponses_le (answer modules s call).1
      have hrest := length_collect_le modules (answer modules s call).2 calls
      exact List.append_inj h (by omega)
    · rintro ⟨hfirst, hrest⟩
      rw [hfirst, hrest]

/-- Two properties of all calls. -/
private theorem allCalls_and (P Q : σ → ModuleCall → Prop) (modules : RobotModules σ) (s : σ)
    (calls : List ModuleCall) :
    AllCalls (fun s call => P s call ∧ Q s call) modules s calls ↔
      AllCalls P modules s calls ∧ AllCalls Q modules s calls := by
  induction calls generalizing s with
  | nil => simp [AllCalls]
  | cons call calls ih =>
    simp only [AllCalls, ih]
    tauto

/-! ## Rounds that end early -/

section Loops

variable {modules : RobotModules σ} {p : R2CPPacketProcessor} {t : R2CPTransceiverQueue} {s : σ}
  {calls : List ModuleCall}

/-- The handler in the loop is for `std::out_of_range` only. -/
private theorem evaluateReactive_throws (command : R2CPCommand) (responses : List R2CPCommand)
    (h : ¬AllCalls (GoesOn modules) modules s (p.dispatchReactive [command])) :
    ∃ e v, Yields worldOf (p.evaluateReactive modules command responses) (t, s, calls)
      (.error e) v := by
  unfold evaluateReactive robotModuleAt
  unfold dispatchReactive at h
  cases hm : p.robotModulesMap[command.commandCode]? with
  | none =>
    simp only [List.filterMap_cons, hm, Option.map_none, List.filterMap_nil, AllCalls,
      not_true_eq_false] at h
  | some robotModule =>
    simp only [List.filterMap_cons, hm, Option.map_some, List.filterMap_nil, AllCalls,
      and_true] at h
    have hcall := callModule_runs modules t s calls (.reactive robotModule command)
    cases hr : (exec (modules.evaluate (.reactive robotModule command)) s).1 with
    | ok answers => exact (h (.inl ⟨answers, hr⟩)).elim
    | error e =>
      rw [hr] at hcall
      have hbody := Yields.bind (f := fun robotModule => do
          let reactiveResponseCommands ← callModule modules (.reactive robotModule command)
          pure (appendResponses responses reactiveResponseCommands))
        (.pure robotModule) hcall.bind_error
      rcases StdException.onOutOfRange_cases e with ⟨what, rfl⟩ | hpasses
      · exact (h (.inr ⟨robotModule, command, what, rfl, hr⟩)).elim
      · exact ⟨e, _, hbody.tryCatch_error (by rw [hpasses]; exact .throw e)⟩

/-- An exception that the loop does not expect leaves it. -/
private theorem reactiveLoop_throws (commands responses : List R2CPCommand)
    (h : ¬AllCalls (GoesOn modules) modules s (p.dispatchReactive commands)) :
    ∃ e v, Yields worldOf (p.reactiveLoop modules commands responses) (t, s, calls)
      (.error e) v := by
  induction commands generalizing s calls responses with
  | nil => exact (h trivial).elim
  | cons command commands ih =>
    rw [dispatchReactive_cons, allCalls_append] at h
    by_cases hfirst : AllCalls (GoesOn modules) modules s (p.dispatchReactive [command])
    · -- the round goes on after the first command
      obtain ⟨e, v, hrest⟩ := ih _ fun hrest => h ⟨hfirst, hrest⟩
      exact ⟨e, v, (evaluateReactive_yields command responses hfirst).bind hrest⟩
    · obtain ⟨e, v, hthrow⟩ := evaluateReactive_throws command responses hfirst
      exact ⟨e, v, hthrow.bind_error⟩

/-- The active loop has no handler at all. -/
private theorem activeLoop_throws (robotModules : List RobotModuleAddress)
    (responses : List R2CPCommand)
    (h : ¬AllCalls (GoesOn modules) modules s (robotModules.map .active)) :
    ∃ e v, Yields worldOf (activeLoop modules robotModules responses) (t, s, calls)
      (.error e) v := by
  induction robotModules generalizing s calls responses with
  | nil => exact (h trivial).elim
  | cons robotModule robotModules ih =>
    have hcall := callModule_runs modules t s calls (.active robotModule)
    cases hr : (exec (modules.evaluate (.active robotModule)) s).1 with
    | error e =>
      rw [hr] at hcall
      exact ⟨e, _, hcall.bind_error⟩
    | ok answers =>
      rw [hr] at hcall
      obtain ⟨e, v, hrest⟩ := ih _ fun hrest => h ⟨.inl ⟨answers, hr⟩, hrest⟩
      exact ⟨e, v, hcall.bind hrest⟩

/-- And so it leaves both loops. -/
private theorem collectResponses_throws {head : List UInt8} {commands : List R2CPCommand}
    (hparse : (exec (R2CPParser.parseR2CPPacket head) R2CPParser.new).1 = .ok commands)
    (h : ¬AllCalls (GoesOn modules) modules s (p.dispatch commands)) :
    ∃ e v, Yields worldOf (p.collectResponses modules head) (t, s, calls) (.error e) v := by
  rw [dispatch, allCalls_append] at h
  by_cases hreactive : AllCalls (GoesOn modules) modules s (p.dispatchReactive commands)
  · obtain ⟨e, v, hactive⟩ := activeLoop_throws p.robotModulesSet.toList _
      fun hactive => h ⟨hreactive, hactive⟩
    exact ⟨e, v, (onNewParser_yields hparse).bind
      ((reactiveLoop_yields commands [] hreactive).bind hactive)⟩
  · obtain ⟨e, v, hthrow⟩ := reactiveLoop_throws commands [] hreactive
    exact ⟨e, v, (onNewParser_yields hparse).bind hthrow.bind_error⟩

end Loops

/-! ## Complete rounds -/

/-- The responses with which a round from `w` comes to `respond`, if it comes that far.
    `respond` hands them to the serializer if there are any. -/
def responsesOf (p : R2CPPacketProcessor) (modules : RobotModules σ) (w : ProcessingState σ) :
    Option (List R2CPCommand) :=
  match exec (onTransceiverQueue R2CPTransceiverQueue.popFromReceptionQueue >>=
      p.collectResponses modules) w with
  | (.ok responses, _) => some responses
  | (.error _, _) => none

/-- A round pops a packet, collects the responses to it and responds. -/
private theorem executeTask_eq (p : R2CPPacketProcessor) (modules : RobotModules σ) :
    p.executeTask modules =
      tryCatch
        (do
          let r2cpPacket ← onTransceiverQueue R2CPTransceiverQueue.popFromReceptionQueue
          tryCatch (p.collectResponses modules r2cpPacket >>= respond)
            (StdException.onInvalidArgument fun what => writeLog (.what .warning what)))
        (StdException.onUnderflowError fun what => writeLog (.what .info what)) := by
  simp only [executeTask, processPacket_eq]

/-- A round from `w` on a packet with `commands`: it evaluates each reacting module for
    each of its commands and then each module of the set once, it comes to respond with
    what they have answered, and this is what it hands to the serializer, if it is
    anything. -/
structure Dispatches (p : R2CPPacketProcessor) (modules : RobotModules σ) (w : ProcessingState σ)
    (commands : List R2CPCommand) : Prop where
  /-- What `responsesOf` looks at is the round up to its responses. -/
  responds : p.executeTask modules =
    tryCatch
      (do
        let r2cpPacket ← onTransceiverQueue R2CPTransceiverQueue.popFromReceptionQueue
        tryCatch (p.collectResponses modules r2cpPacket >>= respond)
          (StdException.onInvalidArgument fun what => writeLog (.what .warning what)))
      (StdException.onUnderflowError fun what => writeLog (.what .info what))
  calls : (exec (p.executeTask modules) w).2.moduleCalls =
    w.moduleCalls ++ p.dispatchReactive commands ++ p.robotModulesSet.toList.map .active
  activeOnce : p.robotModulesSet.toList.Nodup ∧
    ∀ robotModule, robotModule ∈ p.robotModulesSet.toList ↔ robotModule ∈ p.robotModulesSet
  responses : p.responsesOf modules w =
    some (gather modules w.moduleStates (p.dispatch commands))
  serialized : (exec (p.executeTask modules) w).2.serializedCommands =
    w.serializedCommands ++
      handedToSerializer (gather modules w.moduleStates (p.dispatch commands))

/-- The round goes on after each of its calls, and each answer is counted. -/
def DispatchesFully (p : R2CPPacketProcessor) (modules : RobotModules σ) (s : σ)
    (commands : List R2CPCommand) : Prop :=
  AllCalls (fun s call => GoesOn modules s call ∧ Counted modules s call) modules s
    (p.dispatch commands)

/-- The set has each module once. -/
private theorem nodup_robotModulesSet (p : R2CPPacketProcessor) :
    p.robotModulesSet.toList.Nodup := by
  refine p.robotModulesSet.distinct_toList.imp fun hne heq => ?_
  rw [heq] at hne
  exact hne Std.ReflCmp.compare_self

section

variable {p : R2CPPacketProcessor} {modules : RobotModules σ} {w : ProcessingState σ}
  {head : List UInt8} {commands : List R2CPCommand} {t' : R2CPTransceiverQueue}

/-- The loops return what they have collected. -/
private theorem responsesOf_eq_some {responses : List R2CPCommand}
    {v : R2CPTransceiverQueue × σ × List ModuleCall}
    (hpop : exec R2CPTransceiverQueue.popFromReceptionQueue w.transceiverQueue = (.ok head, t'))
    (h : Yields worldOf (p.collectResponses modules head) (t', w.moduleStates, w.moduleCalls)
      (.ok responses) v) : p.responsesOf modules w = some responses := by
  obtain ⟨w', hexec, -⟩ := (onTransceiverQueue_yields hpop).bind h w rfl
  rw [responsesOf, hexec]

/-- Or they end without responses. -/
private theorem responsesOf_eq_none {e : StdException}
    {v : R2CPTransceiverQueue × σ × List ModuleCall}
    (hpop : exec R2CPTransceiverQueue.popFromReceptionQueue w.transceiverQueue = (.ok head, t'))
    (h : Yields worldOf (p.collectResponses modules head) (t', w.moduleStates, w.moduleCalls)
      (.error e) v) : p.responsesOf modules w = none := by
  obtain ⟨w', hexec, -⟩ := (onTransceiverQueue_yields hpop).bind h w rfl
  rw [responsesOf, hexec]

/-- The calls of a round, whether it ends with the serializer's exception or without. -/
private theorem executeTask_moduleCalls
    (hpop : exec R2CPTransceiverQueue.popFromReceptionQueue w.transceiverQueue = (.ok head, t'))
    (hparse : (exec (R2CPParser.parseR2CPPacket head) R2CPParser.new).1 = .ok commands)
    (h : AllCalls (GoesOn modules) modules w.moduleStates (p.dispatch commands)) :
    (exec (p.executeTask modules) w).2.moduleCalls = w.moduleCalls ++ p.dispatch commands := by
  have hpop' : Yields worldOf (onTransceiverQueue R2CPTransceiverQueue.popFromReceptionQueue)
      (w.transceiverQueue, w.moduleStates, w.moduleCalls) (.ok head) _ :=
    onTransceiverQueue_yields hpop
  by_cases hquiet : (collect modules w.moduleStates (p.dispatch commands)).1 = []
  · have hround := executeTask_ok hpop' (processPacket_quiet hparse h hquiet)
    exact congrArg (·.2.2) (hround.final (s := w) rfl)
  · have hround := executeTask_outOfRange hpop' (processPacket_answered hparse h hquiet)
    exact congrArg (·.2.2) (hround.final (s := w) rfl)

/-- What a round hands to the serializer are the responses that it has collected. -/
private theorem serialized_of_responsesOf {responses : List R2CPCommand}
    (h : p.responsesOf modules w = some responses) :
    (exec (p.executeTask modules) w).2.serializedCommands =
      w.serializedCommands ++ handedToSerializer responses := by
  -- neither the pop nor the calls of modules touch the record
  have hkept : Keeps (HasSerialized w.serializedCommands)
      (onTransceiverQueue R2CPTransceiverQueue.popFromReceptionQueue >>=
        p.collectResponses modules) := by
    refine Keeps.bind (Keeps.onPart fun _ _ hw => hw) fun r2cpPacket v hv => ?_
    exact (keeps_collectResponses p modules r2cpPacket v ⟨rfl, hv⟩).serializedCommands
  have hbefore := hkept w rfl
  unfold responsesOf at h
  rw [StatefulExcept.exec_bind] at h hbefore
  -- after the loops only the response and the two handlers are left
  rw [executeTask_eq, StatefulExcept.exec_tryCatch, StatefulExcept.exec_bind]
  rcases hpop : exec (onTransceiverQueue R2CPTransceiverQueue.popFromReceptionQueue) w
    with ⟨e | r2cpPacket, v⟩
  · rw [hpop] at h
    cases h
  rw [hpop] at h hbefore
  simp only at h hbefore ⊢
  rw [StatefulExcept.exec_tryCatch, StatefulExcept.exec_bind]
  rcases hcollect : exec (p.collectResponses modules r2cpPacket) v with ⟨e | collected, v'⟩
  · rw [hcollect] at h
    cases h
  rw [hcollect] at h hbefore
  obtain rfl := Option.some.inj h
  simp only at hbefore ⊢
  have hresponded := serialized_of_respond w.serializedCommands collected v' hbefore
  -- the handlers write log entries at most
  rcases hrespond : exec (respond collected) v' with ⟨e | u, v''⟩
  · rw [hrespond] at hresponded
    cases e <;> exact hresponded
  · rw [hrespond] at hresponded
    exact hresponded

/-- A round that dispatches has done so in its loops. -/
private theorem dispatchesFully_of_dispatches
    (hpop : exec R2CPTransceiverQueue.popFromReceptionQueue w.transceiverQueue = (.ok head, t'))
    (hparse : (exec (R2CPParser.parseR2CPPacket head) R2CPParser.new).1 = .ok commands)
    (h : p.Dispatches modules w commands) :
    p.DispatchesFully modules w.moduleStates commands := by
  have hresponses := h.responses
  rw [DispatchesFully, allCalls_and]
  by_cases hgoes : AllCalls (GoesOn modules) modules w.moduleStates (p.dispatch commands)
  · rw [responsesOf_eq_some hpop (collectResponses_yields hparse hgoes),
      Option.some.injEq, collect_eq_gather_iff] at hresponses
    exact ⟨hgoes, hresponses⟩
  · -- an exception that ends the round leaves no responses
    obtain ⟨e, v, hthrow⟩ := collectResponses_throws hparse hgoes
    rw [responsesOf_eq_none hpop hthrow] at hresponses
    cases hresponses

/-- What the loops have collected is what the serializer gets. -/
private theorem dispatches_of_dispatchesFully
    (hpop : exec R2CPTransceiverQueue.popFromReceptionQueue w.transceiverQueue = (.ok head, t'))
    (hparse : (exec (R2CPParser.parseR2CPPacket head) R2CPParser.new).1 = .ok commands)
    (h : p.DispatchesFully modules w.moduleStates commands) :
    p.Dispatches modules w commands := by
  rw [DispatchesFully, allCalls_and] at h
  obtain ⟨hgoes, hcounted⟩ := h
  have hresponses : p.responsesOf modules w =
      some (gather modules w.moduleStates (p.dispatch commands)) := by
    rw [responsesOf_eq_some hpop (collectResponses_yields hparse hgoes),
      (collect_eq_gather_iff _ _ _).mpr hcounted]
  refine ⟨executeTask_eq p modules, ?_,
    ⟨p.nodup_robotModulesSet, fun _ => Std.TreeSet.mem_toList⟩, hresponses,
    serialized_of_responsesOf hresponses⟩
  rw [executeTask_moduleCalls hpop hparse hgoes, dispatch, List.append_assoc]

end

/-- A round dispatches a packet's commands completely exactly for modules with which it
    goes on after each call and which give no answer that is counted as 0. -/
theorem dispatches_iff (p : R2CPPacketProcessor) (modules : RobotModules σ)
    (w : ProcessingState σ) {head : List UInt8} {commands : List R2CPCommand}
    (hpop : (exec R2CPTransceiverQueue.popFromReceptionQueue w.transceiverQueue).1 = .ok head)
    (hparse : (exec (R2CPParser.parseR2CPPacket head) R2CPParser.new).1 = .ok commands) :
    p.Dispatches modules w commands ↔ p.DispatchesFully modules w.moduleStates commands := by
  have hpop' : exec R2CPTransceiverQueue.popFromReceptionQueue w.transceiverQueue =
      (.ok head, (exec R2CPTransceiverQueue.popFromReceptionQueue w.transceiverQueue).2) := by
    rw [← hpop]
  exact ⟨dispatchesFully_of_dispatches hpop' hparse, dispatches_of_dispatchesFully hpop' hparse⟩

/-- The packet is popped. -/
private theorem pop_motorIdlePacket :
    exec R2CPTransceiverQueue.popFromReceptionQueue (received motorIdlePacket).transceiverQueue =
      (.ok motorIdlePacket, popHead (received motorIdlePacket).transceiverQueue motorIdlePacket) :=
  R2CPTransceiverQueue.exec_popFrom_cons .reception (by decide +kernel) rfl

/-- One module that answers with one command. -/
theorem oneAnswer_dispatches_iff :
    (new.registerRobotModule 1).Dispatches (answering [⟨motorIdle, []⟩])
        (received motorIdlePacket) [⟨motorIdle, []⟩] ↔
      (new.registerRobotModule 1).DispatchesFully (answering [⟨motorIdle, []⟩]) ()
        [⟨motorIdle, []⟩] :=
  dispatches_iff _ _ (received motorIdlePacket) (congrArg Prod.fst pop_motorIdlePacket)
    (by decide +kernel)

/-- An answer of `2 ^ 32` commands is counted as 0 and is lost. -/
theorem hugeAnswer_not_dispatches :
    ¬(new.registerRobotModule 1).Dispatches (answering (List.replicate (2 ^ 32) ⟨motorIdle, []⟩))
      (received motorIdlePacket) [⟨motorIdle, []⟩] := by
  intro h
  have hfull := dispatchesFully_of_dispatches pop_motorIdlePacket (by decide +kernel) h
  have hdispatch : (new.registerRobotModule 1).dispatch [⟨motorIdle, []⟩] = [.active 1] := by
    decide +kernel
  rw [DispatchesFully, hdispatch] at hfull
  have hcounted (answers : List R2CPCommand)
      (h : AllCalls (fun s call => GoesOn (answering answers) s call ∧
        Counted (answering answers) s call) (answering answers) () [.active 1]) :
      answers.length % 2 ^ 32 = 0 → answers = [] := h.1.2
  have hempty := hcounted _ hfull (by rw [List.length_replicate, Nat.mod_self])
  have hlen := congrArg List.length hempty
  rw [List.length_replicate, List.length_nil] at hlen
  exact absurd hlen (by decide)

end R2CP.R2CPPacketProcessor
