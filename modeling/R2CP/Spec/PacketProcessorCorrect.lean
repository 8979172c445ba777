import R2CP.Native.PacketProcessor
import R2CP.Spec.ParserCorrect
import R2CP.Spec.SerializerCorrect

/-!
# One round of the packet processor

`dispatch` are the calls that the commands of a packet lead to, and `collect` is what
the modules answer to them; the two loops of a round make exactly these calls and
collect these answers. `Survives` is what a round should do in every state, and
`executeTask_survives_iff` says in which states it does: `std::out_of_range` from the
parser and from the serializer passes all handlers.

The lemmas on the round are stated for `worldOf`, which leaves the log and the record of
the serialized lists out.

## Key results

- `executeTask_survives_iff`: exactly in which states a round does what it should
- `collectResponses_yields`: the two loops of a round make the calls of `dispatch`
-/

namespace R2CP.R2CPPacketProcessor

open StatefulExcept (exec Yields)
open R2CPParser (visible PacketAccepted OverrunsInside CommandsOf)
open Spec

variable {σ : Type}

/-! ## Calls and answers -/

/-- The modules answer to every evaluation, in every state. -/
def ReturnsNormally (modules : RobotModules σ) : Prop :=
  ∀ call s, ∃ answers, (exec (modules.evaluate call) s).1 = .ok answers

/-- The calls that commands lead to: each reacting module, in packet order. -/
def dispatchReactive (p : R2CPPacketProcessor) (commands : List R2CPCommand) : List ModuleCall :=
  commands.filterMap fun c => p.robotModulesMap[c.commandCode]?.map (.reactive · c)

/-- The calls of a round: the reactive ones, and then every module of the set. -/
def dispatch (p : R2CPPacketProcessor) (commands : List R2CPCommand) : List ModuleCall :=
  p.dispatchReactive commands ++ p.robotModulesSet.toList.map .active

/-- What the modules answer to a call, and the state they are then in. -/
def answer (modules : RobotModules σ) (s : σ) (call : ModuleCall) : List R2CPCommand × σ :=
  match exec (modules.evaluate call) s with
  | (.ok answers, s') => (answers, s')
  | (.error _, s') => ([], s')

/-- A module that returns has answered. -/
private theorem answer_fst {modules : RobotModules σ} {s : σ} {call : ModuleCall}
    {answers : List R2CPCommand} (h : (exec (modules.evaluate call) s).1 = .ok answers) :
    (answer modules s call).1 = answers := by
  unfold answer
  cases hexec : exec (modules.evaluate call) s with
  | mk r s' =>
    rw [hexec] at h
    cases h
    rfl

/-- One that throws has answered nothing. -/
private theorem answer_fst_of_error {modules : RobotModules σ} {s : σ} {call : ModuleCall}
    {e : StdException} (h : (exec (modules.evaluate call) s).1 = .error e) :
    (answer modules s call).1 = [] := by
  unfold answer
  cases hexec : exec (modules.evaluate call) s with
  | mk r s' =>
    rw [hexec] at h
    cases h
    rfl

/-- Both ways it may have changed its state. -/
private theorem answer_snd (modules : RobotModules σ) (s : σ) (call : ModuleCall) :
    (answer modules s call).2 = (exec (modules.evaluate call) s).2 := by
  unfold answer
  cases hexec : exec (modules.evaluate call) s with
  | mk r s' => cases r <;> rfl

/-- What the modules answer to calls one after the other, as far as the 32-bit count of
    an answer shows that there is one. -/
def collect (modules : RobotModules σ) : σ → List ModuleCall → List R2CPCommand × σ
  | s, [] => ([], s)
  | s, call :: calls =>
    let answered := answer modules s call
    let rest := collect modules answered.2 calls
    (appendResponses [] answered.1 ++ rest.1, rest.2)

/-- Answers are put behind the responses so far. -/
private theorem appendResponses_eq (responses answers : List R2CPCommand) :
    appendResponses responses answers = responses ++ appendResponses [] answers := by
  unfold appendResponses
  split
  · rw [List.nil_append]
  · rw [List.append_nil]

/-- Calls, and then more calls in the state that they have left. -/
theorem collect_append (modules : RobotModules σ) (s : σ) (calls calls' : List ModuleCall) :
    collect modules s (calls ++ calls') =
      ((collect modules s calls).1 ++ (collect modules (collect modules s calls).2 calls').1,
        (collect modules (collect modules s calls).2 calls').2) := by
  induction calls generalizing s with
  | nil => rfl
  | cons call calls ih =>
    simp only [List.cons_append, collect, ih, List.append_assoc]

/-- Every call finds the modules in a state with `P`, one call after the other. -/
def AllCalls (P : σ → ModuleCall → Prop) (modules : RobotModules σ) : σ → List ModuleCall → Prop
  | _, [] => True
  | s, call :: calls => P s call ∧ AllCalls P modules (answer modules s call).2 calls

/-- What holds of all calls holds of the first ones, and of the others after them. -/
theorem allCalls_append (P : σ → ModuleCall → Prop) (modules : RobotModules σ) (s : σ)
    (calls calls' : List ModuleCall) :
    AllCalls P modules s (calls ++ calls') ↔
      AllCalls P modules s calls ∧ AllCalls P modules (collect modules s calls).2 calls' := by
  induction calls generalizing s with
  | nil => simp [AllCalls, collect]
  | cons call calls ih => simp [AllCalls, collect, ih, and_assoc]

/-- The round goes on after a call: it is answered, or it is a reaction that throws
    `std::out_of_range`, for which there is a handler. -/
def GoesOn (modules : RobotModules σ) (s : σ) (call : ModuleCall) : Prop :=
  (∃ answers, (exec (modules.evaluate call) s).1 = .ok answers) ∨
  ∃ robotModule command what, call = .reactive robotModule command ∧
    (exec (modules.evaluate call) s).1 = .error (.outOfRange what)

/-- Modules that never throw end no round. -/
theorem ReturnsNormally.allCalls {modules : RobotModules σ} (h : ReturnsNormally modules) (s : σ)
    (calls : List ModuleCall) : AllCalls (GoesOn modules) modules s calls := by
  induction calls generalizing s with
  | nil => trivial
  | cons call calls ih => exact ⟨.inl (h call s), ih _⟩

/-! ## The loops of a round -/

/-- What a round works on, without the log and the record of the serialized lists. -/
def worldOf (w : ProcessingState σ) : R2CPTransceiverQueue × σ × List ModuleCall :=
  (w.transceiverQueue, w.moduleStates, w.moduleCalls)

section Loops

variable {modules : RobotModules σ} {p : R2CPPacketProcessor} {t : R2CPTransceiverQueue} {s : σ}
  {calls : List ModuleCall}

/-- The log is not part of the world. -/
theorem writeLog_yields (entry : LogEntry) :
    Yields (worldOf (σ := σ)) (writeLog entry) (t, s, calls) (.ok ()) (t, s, calls) :=
  fun _ hw => ⟨_, rfl, hw⟩

/-- A new parser object does what it does, and leaves only log entries. -/
theorem onNewParser_yields {α : Type} {x : R2CPParser.Parser α} {r : Except StdException α}
    (h : (exec x R2CPParser.new).1 = r) :
    Yields (worldOf (σ := σ)) (onNewParser x) (t, s, calls) r (t, s, calls) :=
  Yields.onPart fun _ hw => ⟨h, hw⟩

/-- A serializer has nothing of it either. -/
private theorem onNewSerializer_yields {α : Type} {x : R2CPSerializer.Serializer α}
    {r : Except StdException α} (h : (exec x R2CPSerializer.new).1 = r) :
    Yields (worldOf (σ := σ)) (onNewSerializer x) (t, s, calls) r (t, s, calls) :=
  Yields.onPart fun _ hw => ⟨h, hw⟩

/-- A module does what it does, and the call is recorded first. -/
theorem callModule_runs (modules : RobotModules σ) (t : R2CPTransceiverQueue) (s : σ)
    (calls : List ModuleCall) (call : ModuleCall) :
    Yields worldOf (callModule modules call) (t, s, calls) (exec (modules.evaluate call) s).1
      (t, (answer modules s call).2, calls ++ [call]) := by
  have hrecord : Yields worldOf
      (modify fun w => { w with moduleCalls := w.moduleCalls ++ [call] } : Processing σ Unit)
      (t, s, calls) (.ok ()) (t, s, calls ++ [call]) := by
    intro w hw
    simp only [worldOf, Prod.mk.injEq] at hw
    obtain ⟨rfl, rfl, rfl⟩ := hw
    exact ⟨_, rfl, rfl⟩
  apply hrecord.bind
  apply Yields.onPart
  intro w hw
  simp only [worldOf, Prod.mk.injEq] at hw
  obtain ⟨rfl, rfl, hcalls⟩ := hw
  simp only [worldOf, hcalls, answer_snd, and_self]

/-- One command of a packet: its module, if there is one, reacts. -/
theorem evaluateReactive_yields (command : R2CPCommand) (responses : List R2CPCommand)
    (h : AllCalls (GoesOn modules) modules s (p.dispatchReactive [command])) :
    Yields worldOf (p.evaluateReactive modules command responses) (t, s, calls)
      (.ok (responses ++ (collect modules s (p.dispatchReactive [command])).1))
      (t, (collect modules s (p.dispatchReactive [command])).2,
        calls ++ p.dispatchReactive [command]) := by
  unfold evaluateReactive robotModuleAt
  unfold dispatchReactive at h ⊢
  cases hm : p.robotModulesMap[command.commandCode]? with
  | none =>
    -- `at` throws, and the handler goes on with the responses there are
    simp only [List.filterMap_cons, hm, Option.map_none, List.filterMap_nil, collect,
      List.append_nil]
    exact Yields.tryCatch_error (Yields.bind_error (.throw _))
      ((writeLog_yields _).bind (.pure responses))
  | some robotModule =>
    simp only [List.filterMap_cons, hm, Option.map_some, List.filterMap_nil, collect,
      List.append_nil] at h ⊢
    have hcall := callModule_runs modules t s calls (.reactive robotModule command)
    rcases h.1 with ⟨answers, hanswers⟩ | ⟨_, _, what, -, hthrows⟩
    · -- one call, whose answer is appended
      rw [hanswers] at hcall
      rw [answer_fst hanswers, ← appendResponses_eq]
      exact Yields.tryCatch_ok (Yields.bind (.pure robotModule) (hcall.bind (.pure _)))
    · -- the same handler takes what the module throws
      rw [hthrows] at hcall
      rw [answer_fst_of_error hthrows, show appendResponses [] [] = [] from rfl, List.append_nil]
      exact Yields.tryCatch_error (Yields.bind (.pure robotModule) hcall.bind_error)
        ((writeLog_yields _).bind (.pure responses))

/-- The reactions, command by command. -/
theorem dispatchReactive_cons (p : R2CPPacketProcessor) (command : R2CPCommand)
    (commands : List R2CPCommand) :
    p.dispatchReactive (command :: commands) =
      p.dispatchReactive [command] ++ p.dispatchReactive commands := by
  rw [dispatchReactive, ← List.singleton_append, List.filterMap_append]
  rfl

/-- The reactive loop makes the calls of the commands and collects the answers. -/
theorem reactiveLoop_yields (commands responses : List R2CPCommand)
    (h : AllCalls (GoesOn modules) modules s (p.dispatchReactive commands)) :
    Yields worldOf (p.reactiveLoop modules commands responses) (t, s, calls)
      (.ok (responses ++ (collect modules s (p.dispatchReactive commands)).1))
      (t, (collect modules s (p.dispatchReactive commands)).2,
        calls ++ p.dispatchReactive commands) := by
  -- on the commands; every call leaves the modules in the state for the next one
  induction commands generalizing s calls responses with
  | nil =>
    simp only [dispatchReactive, List.filterMap_nil, collect, List.append_nil]
    exact .pure responses
  | cons command commands ih =>
    rw [dispatchReactive_cons, allCalls_append] at h
    rw [dispatchReactive_cons, collect_append, ← List.append_assoc, ← List.append_assoc]
    exact (evaluateReactive_yields command responses h.1).bind (ih _ h.2)

/-- The active loop evaluates the modules and collects the answers. -/
private theorem activeLoop_yields (robotModules : List RobotModuleAddress)
    (responses : List R2CPCommand)
    (h : AllCalls (GoesOn modules) modules s (robotModules.map .active)) :
    Yields worldOf (activeLoop modules robotModules responses) (t, s, calls)
      (.ok (responses ++ (collect modules s (robotModules.map .active)).1))
      (t, (collect modules s (robotModules.map .active)).2,
        calls ++ robotModules.map .active) := by
  induction robotModules generalizing s calls responses with
  | nil =>
    simp only [List.map_nil, collect, List.append_nil]
    exact .pure responses
  | cons robotModule robotModules ih =>
    obtain ⟨hfirst, hrest⟩ := h
    have hcall := callModule_runs modules t s calls (.active robotModule)
    obtain ⟨answers, hanswers⟩ : ∃ answers,
        (exec (modules.evaluate (.active robotModule)) s).1 = .ok answers := by
      rcases hfirst with hok | ⟨_, _, _, hreactive, -⟩
      · exact hok
      · cases hreactive
    rw [hanswers] at hcall
    rw [List.map_cons, collect, ← List.append_assoc, answer_fst hanswers, ← appendResponses_eq,
      show ModuleCall.active robotModule :: robotModules.map .active =
        [.active robotModule] ++ robotModules.map .active from rfl, ← List.append_assoc]
    exact hcall.bind (ih _ hrest)

/-- The serializer throws on every list, behind the record of it. -/
theorem serializeResponses_throws (responses : List R2CPCommand) :
    Yields (worldOf (σ := σ)) (serializeResponses responses) (t, s, calls)
      (.error R2CPSerializer.noBytesLeft) (t, s, calls) := by
  have hrecord : Yields worldOf
      (modify fun w => { w with serializedCommands := w.serializedCommands ++ [responses] } :
        Processing σ Unit)
      (t, s, calls) (.ok ()) (t, s, calls) := fun _ hw => ⟨_, rfl, hw⟩
  exact hrecord.bind (onNewSerializer_yields
    ((R2CPSerializer.serializeCommands_throws responses []).outcome rfl))

/-- Responses never get past the serializer. -/
private theorem respond_throws {responses : List R2CPCommand} (h : responses ≠ []) :
    Yields (worldOf (σ := σ)) (respond responses) (t, s, calls)
      (.error R2CPSerializer.noBytesLeft) (t, s, calls) := by
  unfold respond
  rw [if_pos (List.length_pos_of_ne_nil h)]
  exact (serializeResponses_throws responses).bind_error

end Loops

/-! ## Rounds -/

section Rounds

variable {modules : RobotModules σ} {p : R2CPPacketProcessor} {t t' : R2CPTransceiverQueue}
  {s : σ} {calls : List ModuleCall} {head : List UInt8}

/-- A call on the queue changes only the queue. -/
theorem onTransceiverQueue_yields {α : Type} {x : R2CPTransceiverQueue.TransceiverQueue α}
    {r : Except StdException α} (h : exec x t = (r, t')) :
    Yields (worldOf (σ := σ)) (onTransceiverQueue x) (t, s, calls) r (t', s, calls) := by
  apply Yields.onPart
  intro w hw
  simp only [worldOf, Prod.mk.injEq] at hw
  obtain ⟨rfl, rfl, rfl⟩ := hw
  rw [h]
  exact ⟨rfl, rfl⟩

/-- A packet that is rejected is logged by the handler, and no module is called. -/
private theorem processPacket_rejected (h : ¬ PacketAccepted (visible head)) :
    Yields worldOf (p.processPacket modules head) (t, s, calls) (.ok ()) (t, s, calls) := by
  have hparse : Yields worldOf (onNewParser (R2CPParser.parseR2CPPacket head)) (t, s, calls) _ _ :=
    onNewParser_yields ((R2CPParser.parseR2CPPacket_rejected h []).outcome rfl)
  exact Yields.tryCatch_error hparse.bind_error (writeLog_yields _)

/-- `std::out_of_range` from the parser passes the handler for `std::invalid_argument`. -/
private theorem processPacket_throws {what : What}
    (h : (exec (R2CPParser.parseR2CPPacket head) R2CPParser.new).1 = .error (.outOfRange what)) :
    Yields worldOf (p.processPacket modules head) (t, s, calls) (.error (.outOfRange what))
      (t, s, calls) :=
  Yields.tryCatch_error (onNewParser_yields h).bind_error (.throw _)

/-- A round between the pop and the serialization: what comes of it are the responses. -/
def collectResponses (p : R2CPPacketProcessor) (modules : RobotModules σ)
    (r2cpPacket : List UInt8) : Processing σ (List R2CPCommand) := do
  let r2cpCommands ← onNewParser (R2CPParser.parseR2CPPacket r2cpPacket)
  let responseCommands ← p.reactiveLoop modules r2cpCommands []
  activeLoop modules p.robotModulesSet.toList responseCommands

/-- The parser and the modules first, then the response, and one handler around both. -/
theorem processPacket_eq (p : R2CPPacketProcessor) (modules : RobotModules σ)
    (r2cpPacket : List UInt8) :
    p.processPacket modules r2cpPacket =
      tryCatch (p.collectResponses modules r2cpPacket >>= respond)
        (StdException.onInvalidArgument fun what => writeLog (.what .warning what)) := by
  simp only [processPacket, collectResponses, bind_assoc]

/-- On a packet with commands both loops make their calls, unless one ends the round. -/
theorem collectResponses_yields {commands : List R2CPCommand}
    (hparse : (exec (R2CPParser.parseR2CPPacket head) R2CPParser.new).1 = .ok commands)
    (h : AllCalls (GoesOn modules) modules s (p.dispatch commands)) :
    Yields worldOf (p.collectResponses modules head) (t, s, calls)
      (.ok (collect modules s (p.dispatch commands)).1)
      (t, (collect modules s (p.dispatch commands)).2, calls ++ p.dispatch commands) := by
  rw [dispatch, allCalls_append] at h
  rw [dispatch, collect_append, ← List.append_assoc]
  exact (onNewParser_yields hparse).bind
    ((reactiveLoop_yields commands [] h.1).bind (activeLoop_yields _ _ h.2))

/-- A new parser returns the commands of the packet. -/
theorem parseR2CPPacket_of_commandsOf {commands : List R2CPCommand}
    (h : CommandsOf (visible head) commands) :
    (exec (R2CPParser.parseR2CPPacket head) R2CPParser.new).1 = .ok commands :=
  (R2CPParser.parseR2CPPacket_parsed h []).outcome rfl

/-- Without an answer from the modules, a packet is processed. -/
theorem processPacket_quiet {commands : List R2CPCommand}
    (hparse : (exec (R2CPParser.parseR2CPPacket head) R2CPParser.new).1 = .ok commands)
    (h : AllCalls (GoesOn modules) modules s (p.dispatch commands))
    (hquiet : (collect modules s (p.dispatch commands)).1 = []) :
    Yields worldOf (p.processPacket modules head) (t, s, calls) (.ok ())
      (t, (collect modules s (p.dispatch commands)).2, calls ++ p.dispatch commands) := by
  have hcollect : Yields worldOf (p.collectResponses modules head) (t, s, calls) _ _ :=
    collectResponses_yields hparse h
  rw [hquiet] at hcollect
  rw [processPacket_eq]
  exact Yields.tryCatch_ok (hcollect.bind (.pure ()))

/-- With an answer, the serializer's `std::out_of_range` passes the handler as well. -/
theorem processPacket_answered {commands : List R2CPCommand}
    (hparse : (exec (R2CPParser.parseR2CPPacket head) R2CPParser.new).1 = .ok commands)
    (h : AllCalls (GoesOn modules) modules s (p.dispatch commands))
    (hanswers : (collect modules s (p.dispatch commands)).1 ≠ []) :
    Yields worldOf (p.processPacket modules head) (t, s, calls)
      (.error R2CPSerializer.noBytesLeft)
      (t, (collect modules s (p.dispatch commands)).2, calls ++ p.dispatch commands) := by
  have hcollect : Yields worldOf (p.collectResponses modules head) (t, s, calls) _ _ :=
    collectResponses_yields hparse h
  rw [processPacket_eq]
  -- the handler is for `std::invalid_argument`
  exact Yields.tryCatch_error (hcollect.bind (respond_throws hanswers)) (.throw _)

/-- Without a packet the task returns. -/
private theorem executeTask_underflow (h : UInt32.ofNat t.receptionQueue.packets.length = 0) :
    Yields worldOf (p.executeTask modules) (t, s, calls) (.ok ()) (t, s, calls) := by
  have hpop : Yields worldOf (onTransceiverQueue R2CPTransceiverQueue.popFromReceptionQueue)
      (t, s, calls) _ _ :=
    onTransceiverQueue_yields (R2CPTransceiverQueue.exec_popFrom_underflow .reception h)
  exact Yields.tryCatch_error hpop.bind_error (writeLog_yields _)

/-- The queues after the head is popped. -/
def popHead (t : R2CPTransceiverQueue) (head : List UInt8) : R2CPTransceiverQueue :=
  { t with receptionQueue := t.receptionQueue.eraseFirst head }

section Popped

variable {rest : List (List UInt8)} {v : R2CPTransceiverQueue × σ × List ModuleCall}

/-- With one, its head is popped. -/
private theorem popHead_yields (hcount : UInt32.ofNat t.receptionQueue.packets.length ≠ 0)
    (hhead : t.receptionQueue.packets = head :: rest) :
    Yields (worldOf (σ := σ)) (onTransceiverQueue R2CPTransceiverQueue.popFromReceptionQueue)
      (t, s, calls) (.ok head) (popHead t head, s, calls) :=
  onTransceiverQueue_yields (R2CPTransceiverQueue.exec_popFrom_cons .reception hcount hhead)

/-- A round ends as the processing of the popped packet does: normally, -/
theorem executeTask_ok
    (hpop : Yields (worldOf (σ := σ))
      (onTransceiverQueue R2CPTransceiverQueue.popFromReceptionQueue)
      (t, s, calls) (.ok head) (t', s, calls))
    (h : Yields worldOf (p.processPacket modules head) (t', s, calls) (.ok ()) v) :
    Yields worldOf (p.executeTask modules) (t, s, calls) (.ok ()) v :=
  Yields.tryCatch_ok (hpop.bind h)

/-- or with `std::out_of_range`, which passes the handler for `std::underflow_error`. -/
theorem executeTask_outOfRange {what : What}
    (hpop : Yields (worldOf (σ := σ))
      (onTransceiverQueue R2CPTransceiverQueue.popFromReceptionQueue)
      (t, s, calls) (.ok head) (t', s, calls))
    (h : Yields worldOf (p.processPacket modules head) (t', s, calls)
      (.error (.outOfRange what)) v) :
    Yields worldOf (p.executeTask modules) (t, s, calls) (.error (.outOfRange what)) v := by
  -- the handler throws on what is no `std::underflow_error`
  exact Yields.tryCatch_error (hpop.bind h) (.throw _)

end Popped

end Rounds

/-! ## Surviving a round -/

/-- What becomes of the transmission queue `q` when the modules have answered with
    `responses`: one packet more if there are responses that fit, and none otherwise. -/
def Answered (responses : List R2CPCommand) (q q' : PacketQueue) : Prop :=
  (responses = [] → q' = q) ∧
  (responses ≠ [] → ∃ r2cpPacket,
    (exec (R2CPSerializer.serializeCommands responses) R2CPSerializer.new).1 = .ok r2cpPacket ∧
    (q.queueSize.toNat + r2cpPacket.length ≤ q.maxQueueSize.toNat → q' = q.append r2cpPacket) ∧
    (¬ q.queueSize.toNat + r2cpPacket.length ≤ q.maxQueueSize.toNat → q' = q))

/-- What a round should do from `w`, ending in `w'` with outcome `r`: no exception
    escapes, exactly the head of the reception queue is removed, an invalid packet reaches
    neither the modules nor the transmission queue, and a valid one is answered. -/
structure SurvivesWith (p : R2CPPacketProcessor) (modules : RobotModules σ)
    (w : ProcessingState σ) (r : Except StdException Unit) (w' : ProcessingState σ) : Prop where
  returns : r = .ok ()
  pops : w'.transceiverQueue.receptionQueue.packets =
    w.transceiverQueue.receptionQueue.packets.tail
  invalid (head : List UInt8) :
    w.transceiverQueue.receptionQueue.packets.head? = some head →
    (exec (R2CPParser.validateR2CPPacket head) R2CPParser.new).1 = .ok false →
    w'.moduleCalls = w.moduleCalls ∧
      w'.transceiverQueue.transmissionQueue = w.transceiverQueue.transmissionQueue
  valid (head : List UInt8) (commands : List R2CPCommand) :
    w.transceiverQueue.receptionQueue.packets.head? = some head →
    (exec (R2CPParser.validateR2CPPacket head) R2CPParser.new).1 = .ok true →
    (exec (R2CPParser.parseR2CPPacket head) R2CPParser.new).1 = .ok commands →
    Answered (collect modules w.moduleStates (p.dispatch commands)).1
      w.transceiverQueue.transmissionQueue w'.transceiverQueue.transmissionQueue

/-- A round does from `w` what it should. -/
def Survives (p : R2CPPacketProcessor) (modules : RobotModules σ) (w : ProcessingState σ) : Prop :=
  p.SurvivesWith modules w (exec (p.executeTask modules) w).1 (exec (p.executeTask modules) w).2

/-- There is nothing to pop, or the 32-bit count shows that there is and the head is
    rejected by the validator, or has commands to which no module answers. -/
def SafeRound (p : R2CPPacketProcessor) (modules : RobotModules σ) (w : ProcessingState σ) : Prop :=
  w.transceiverQueue.receptionQueue.packets = [] ∨
  w.transceiverQueue.receptionQueue.packets.length % 2 ^ 32 ≠ 0 ∧
    ∀ head, w.transceiverQueue.receptionQueue.packets.head? = some head →
      PacketAccepted (visible head) →
      ¬ IsEmptyPacket (visible head) ∧ ¬ OverrunsInside (visible head) ∧
      ∀ commands, CommandsOf (visible head) commands →
        (collect modules w.moduleStates (p.dispatch commands)).1 = []

/-- The count is 0 if the 32-bit number has wrapped. -/
theorem ofNat_eq_zero_iff (n : Nat) : UInt32.ofNat n = 0 ↔ n % 2 ^ 32 = 0 := by
  rw [← UInt32.toNat_inj, UInt32.toNat_ofNat']
  rfl

section Survival

variable {modules : RobotModules σ} {p : R2CPPacketProcessor} {w : ProcessingState σ}
  {r : Except StdException Unit} {v : R2CPTransceiverQueue × σ × List ModuleCall}

/-- What a round leaves, read off its view. -/
private theorem survives_iff_of_yields
    (h : Yields worldOf (p.executeTask modules)
      (w.transceiverQueue, w.moduleStates, w.moduleCalls) r v) :
    p.Survives modules w ↔ p.SurvivesWith modules w r ⟨v.1, v.2.1, v.2.2, [], []⟩ := by
  have hr := h.outcome (s := w) rfl
  have hv : worldOf (exec (p.executeTask modules) w).2 = v := h.final rfl
  rw [Survives, hr, ← hv]
  exact ⟨fun hs => ⟨hs.returns, hs.pops, hs.invalid, hs.valid⟩,
    fun hs => ⟨hs.returns, hs.pops, hs.invalid, hs.valid⟩⟩

/-- A round that throws does not survive. -/
private theorem not_survives_of_throws {e : StdException}
    (h : Yields worldOf (p.executeTask modules)
      (w.transceiverQueue, w.moduleStates, w.moduleCalls) (.error e) v) :
    ¬ p.Survives modules w := by
  rw [survives_iff_of_yields h]
  exact fun hs => nomatch hs.returns

variable {head : List UInt8} {rest : List (List UInt8)}

/-- From the empty reception queue a round survives. -/
private theorem survives_of_empty (h : w.transceiverQueue.receptionQueue.packets = []) :
    p.Survives modules w := by
  rw [survives_iff_of_yields (executeTask_underflow (by rw [h]; rfl))]
  refine ⟨rfl, ?_, ?_, ?_⟩
  · rw [h]
    rfl
  · intro head hhead
    rw [h] at hhead
    exact nomatch hhead
  · intro head commands hhead
    rw [h] at hhead
    exact nomatch hhead

/-- A count that wraps to 0 leaves the head where it is. -/
private theorem not_survives_of_wrapped (hhead : w.transceiverQueue.receptionQueue.packets = head ::
    rest)
    (hcount : w.transceiverQueue.receptionQueue.packets.length % 2 ^ 32 = 0) :
    ¬ p.Survives modules w := by
  rw [survives_iff_of_yields (executeTask_underflow ((ofNat_eq_zero_iff _).mpr hcount))]
  intro hs
  -- nothing is removed, but the tail is shorter
  have hpops := congrArg List.length hs.pops
  simp only [hhead, List.tail_cons, List.length_cons] at hpops
  omega

/-- A rejected packet does no harm. -/
private theorem survives_of_rejected 
    (hcount : w.transceiverQueue.receptionQueue.packets.length % 2 ^ 32 ≠ 0)
    (hhead : w.transceiverQueue.receptionQueue.packets = head :: rest)
    (h : ¬ PacketAccepted (visible head)) : p.Survives modules w := by
  have hvalid := (R2CPParser.validateR2CPPacket_rejects h []).outcome (s := R2CPParser.new) rfl
  rw [survives_iff_of_yields (executeTask_ok
    (popHead_yields (mt (ofNat_eq_zero_iff _).mp hcount) hhead) (processPacket_rejected h))]
  -- the clause for a valid head does not apply
  refine ⟨rfl, rfl, fun _ _ _ => ⟨rfl, rfl⟩, fun head' commands hhead' htrue => ?_⟩
  rw [hhead, List.head?_cons, Option.some.injEq] at hhead'
  rw [← hhead', hvalid] at htrue
  exact nomatch htrue

/-- Where the parser throws `std::out_of_range`, so does the round. -/
private theorem not_survives_of_parser_throws
    (hcount : w.transceiverQueue.receptionQueue.packets.length % 2 ^ 32 ≠ 0)
    (hhead : w.transceiverQueue.receptionQueue.packets = head :: rest) {what : What}
    (h : (exec (R2CPParser.parseR2CPPacket head) R2CPParser.new).1 = .error (.outOfRange what)) :
    ¬ p.Survives modules w :=
  not_survives_of_throws (executeTask_outOfRange
    (popHead_yields (mt (ofNat_eq_zero_iff _).mp hcount) hhead) (processPacket_throws h))

/-- On a packet with commands a round survives exactly when no module answers. -/
private theorem survives_iff_quiet (hmodules : ReturnsNormally modules)
    (hcount : w.transceiverQueue.receptionQueue.packets.length % 2 ^ 32 ≠ 0)
    (hhead : w.transceiverQueue.receptionQueue.packets = head :: rest)
    {commands : List R2CPCommand} (hcommands : CommandsOf (visible head) commands) :
    p.Survives modules w ↔
      (collect modules w.moduleStates (p.dispatch commands)).1 = [] := by
  have hparse := parseR2CPPacket_of_commandsOf hcommands
  have hvalid := (R2CPParser.validateR2CPPacket_accepts hcommands.accepted []).outcome
    (s := R2CPParser.new) rfl
  have hpop : Yields worldOf (onTransceiverQueue R2CPTransceiverQueue.popFromReceptionQueue)
      (w.transceiverQueue, w.moduleStates, w.moduleCalls) (.ok head) _ :=
    popHead_yields (mt (ofNat_eq_zero_iff _).mp hcount) hhead
  by_cases hquiet : (collect modules w.moduleStates (p.dispatch commands)).1 = []
  · rw [survives_iff_of_yields (executeTask_ok hpop
      (processPacket_quiet hparse (hmodules.allCalls _ _) hquiet))]
    refine ⟨fun _ => hquiet, fun _ => ⟨rfl, rfl, ?_, ?_⟩⟩
    · -- the head is not rejected
      intro head' hhead' hfalse
      rw [hhead, List.head?_cons, Option.some.injEq] at hhead'
      rw [← hhead', hvalid] at hfalse
      exact nomatch hfalse
    · -- the parser returns these commands, and nothing was answered to them
      intro head' commands' hhead' _ hcommands'
      rw [hhead, List.head?_cons, Option.some.injEq] at hhead'
      rw [← hhead', hparse, Except.ok.injEq] at hcommands'
      rw [← hcommands', hquiet]
      exact ⟨fun _ => rfl, fun hne => absurd rfl hne⟩
  · -- a response makes the serializer throw
    have hno : ¬ p.Survives modules w := not_survives_of_throws
      (executeTask_outOfRange hpop (processPacket_answered hparse (hmodules.allCalls _ _) hquiet))
    exact ⟨fun hs => absurd hs hno, fun h => absurd h hquiet⟩

end Survival

/-- For modules that answer to every evaluation, a round survives exactly from these
    states: the reception queue is empty, or shows that it is not, and its head is
    rejected or has commands to which no module answers. -/
theorem executeTask_survives_iff {modules : RobotModules σ} (hmodules : ReturnsNormally modules)
    (p : R2CPPacketProcessor) (w : ProcessingState σ) :
    p.Survives modules w ↔ p.SafeRound modules w := by
  unfold SafeRound
  cases hpackets : w.transceiverQueue.receptionQueue.packets with
  | nil => exact ⟨fun _ => .inl rfl, fun _ => survives_of_empty hpackets⟩
  | cons head rest =>
    simp only [List.head?_cons, Option.some.injEq, forall_eq', reduceCtorEq, false_or]
    rw [← hpackets]
    -- what the head is decides: the count, the verdict, and how it parses
    by_cases hcount : w.transceiverQueue.receptionQueue.packets.length % 2 ^ 32 = 0
    · exact ⟨fun hs => absurd hs (not_survives_of_wrapped hpackets hcount),
        fun hs => absurd hcount hs.1⟩
    by_cases hacc : PacketAccepted (visible head)
    swap
    · exact ⟨fun _ => ⟨hcount, fun h => absurd h hacc⟩,
        fun _ => survives_of_rejected hcount hpackets hacc⟩
    -- the packet without commands, and the content that overruns: the parser throws
    by_cases hempty : IsEmptyPacket (visible head)
    · have hthrow := (R2CPParser.parseR2CPPacket_empty hempty []).outcome (s := R2CPParser.new) rfl
      exact ⟨fun hs => absurd hs (not_survives_of_parser_throws hcount hpackets hthrow),
        fun hs => absurd hempty (hs.2 hacc).1⟩
    by_cases hover : OverrunsInside (visible head)
    · obtain ⟨what, s', hthrow⟩ := R2CPParser.parseR2CPPacket_overruns hover []
      have hthrow := hthrow.outcome (s := R2CPParser.new) rfl
      exact ⟨fun hs => absurd hs (not_survives_of_parser_throws hcount hpackets hthrow),
        fun hs => absurd hover (hs.2 hacc).2.1⟩
    -- otherwise it returns commands, and the answers to them decide
    constructor
    · exact fun hs => ⟨hcount, fun _ => ⟨hempty, hover, fun commands hcommands =>
        (survives_iff_quiet hmodules hcount hpackets hcommands).mp hs⟩⟩
    · intro hs
      obtain ⟨commands, hcommands⟩ := R2CPParser.exists_commandsOf hacc hempty hover
      exact (survives_iff_quiet hmodules hcount hpackets hcommands).mpr
        ((hs.2 hacc).2.2 commands hcommands)

/-- Modules that always answer with these commands. -/
def answering (answers : List R2CPCommand) : RobotModules Unit := ⟨fun _ => pure answers⟩

/-- New queues with one packet received. -/
def received (r2cpPacket : List UInt8) : ProcessingState Unit where
  transceiverQueue := { R2CPTransceiverQueue.new with
    receptionQueue := R2CPTransceiverQueue.new.receptionQueue.append r2cpPacket }
  moduleStates := ()
  moduleCalls := []
  serializedCommands := []
  log := []

/-- The packet with the one command `motorIdle`. -/
def motorIdlePacket : List UInt8 :=
  [0x52, 0x32, 0x43, 0x50, 0, 0, 0, 12, 0, 0, 0, 1, 0, 0, 0, 3, 0, 0, 0, 0]

/-- Both sides, for one packet and modules without answers. -/
theorem motorIdlePacket_survives_iff :
    (new.registerRobotModule 1).Survives (answering []) (received motorIdlePacket) ↔
      (new.registerRobotModule 1).SafeRound (answering []) (received motorIdlePacket) :=
  executeTask_survives_iff (fun _ _ => ⟨[], rfl⟩) _ _

/-- A header-only packet makes the exception of a reader of the parser escape, and an
    answer to an ordinary packet that of a writer of the serializer. -/
theorem executeTask_escapes :
    ((exec (new.executeTask (answering [])) (received [0x52, 0x32, 0x43, 0x50, 0, 0, 0, 0])).1 =
        .error R2CPParser.noBytesLeft ∧
      ¬ new.Survives (answering []) (received [0x52, 0x32, 0x43, 0x50, 0, 0, 0, 0])) ∧
    ((exec ((new.registerRobotModule 1).executeTask (answering [⟨motorIdle, []⟩]))
        (received motorIdlePacket)).1 = .error R2CPSerializer.noBytesLeft ∧
      ¬ (new.registerRobotModule 1).Survives (answering [⟨motorIdle, []⟩])
        (received motorIdlePacket)) := by
  have hempty : (exec (new.executeTask (answering []))
      (received [0x52, 0x32, 0x43, 0x50, 0, 0, 0, 0])).1 = .error R2CPParser.noBytesLeft := by
    decide +kernel
  have hanswer : (exec ((new.registerRobotModule 1).executeTask (answering [⟨motorIdle, []⟩]))
      (received motorIdlePacket)).1 = .error R2CPSerializer.noBytesLeft := by
    decide +kernel
  refine ⟨⟨hempty, fun hs => ?_⟩, ⟨hanswer, fun hs => ?_⟩⟩
  · have hreturns := hs.returns
    rw [hempty] at hreturns
    exact nomatch hreturns
  · have hreturns := hs.returns
    rw [hanswer] at hreturns
    exact nomatch hreturns

end R2CP.R2CPPacketProcessor
