import R2CP.Spec.ParserFailures
import R2CP.Spec.SerializerCorrect

/-!
# Objects that are used again

A call can leave frames on the offset stack of its object, and one that throws may
also have lost one. The next call does not notice. The validator answers from the
packet alone and clears the stack, so the parser starts on the empty stack whatever
was there; from then on only the stack decides what happens. The serializer writes
above what it finds.

`outcomes_eq_fresh` is about any calls on one parser and any on one serializer.

## Key results

- `outcomes_eq_fresh`: each call on a used object does what it does on a new one
- `resets_perform`: no call reads what an earlier one has left
-/

namespace R2CP

open StatefulExcept (exec Yields Determined Resets outcomes outcomes_eq_map)

/-- `at` does not look at the state. -/
private theorem determined_vectorAt {σ ν α : Type} (view : σ → ν) (xs : List α) (i : Nat) :
    Determined view (vectorAt xs i : StatefulExcept StdException σ α) := by
  unfold vectorAt
  split
  · exact .pure _
  · exact .throw _

/-- A handler for `std::invalid_argument` rethrows what it does not catch. -/
private theorem determined_onInvalidArgument {σ ν α : Type} {view : σ → ν}
    {handler : What → StatefulExcept StdException σ α}
    (h : ∀ what, Determined view (handler what)) (e : StdException) :
    Determined view (StdException.onInvalidArgument handler e) := by
  cases e with
  | invalidArgument what => exact h what
  | outOfRange what => exact .throw _
  | overflowError what => exact .throw _
  | underflowError what => exact .throw _
  | undefinedBehavior => exact .throw _

namespace R2CPParser

open Spec

/-! ## Only the stack decides -/

/-- `push_back` depends on the stack alone. -/
private theorem determined_pushOffset (o : UInt32) : Determined parsingOffsetStack (pushOffset o) :=
  fun _ => ⟨_, _, pushOffset_yields⟩

/-- After `clear`, nothing of what was there is left. -/
private theorem determined_clearOffsets : Determined parsingOffsetStack clearOffsets :=
  fun _ => ⟨_, _, clearOffsets_yields⟩

/-- The log is written, never read. -/
private theorem determined_writeLog (entry : LogEntry) :
    Determined parsingOffsetStack (writeLog entry) :=
  fun _ => ⟨_, _, writeLog_yields entry⟩

/-- On an empty stack there is nothing to return, from any state. -/
private theorem backOffset_yields_nil :
    Yields parsingOffsetStack backOffset [] (.error .undefinedBehavior) [] := by
  intro p hp
  refine ⟨p, ?_, hp⟩
  simp only [backOffset, StatefulExcept.exec_bind, StatefulExcept.exec_get, hp]
  rfl

/-- `pop_back()` of an empty stack. -/
private theorem popOffset_yields_nil :
    Yields parsingOffsetStack popOffset [] (.error .undefinedBehavior) [] := by
  intro p hp
  refine ⟨p, ?_, hp⟩
  simp only [popOffset, StatefulExcept.exec_bind, StatefulExcept.exec_get, hp]
  rfl

/-- `back()` reads the stack. -/
private theorem determined_backOffset : Determined parsingOffsetStack backOffset := by
  intro s
  cases s with
  | nil => exact ⟨_, _, backOffset_yields_nil⟩
  | cons o s => exact ⟨_, _, backOffset_yields⟩

/-- `pop_back()` changes it. -/
private theorem determined_popOffset : Determined parsingOffsetStack popOffset := by
  intro s
  cases s with
  | nil => exact ⟨_, _, popOffset_yields_nil⟩
  | cons o s => exact ⟨_, _, popOffset_yields⟩

/-! ## The readers -/

/-- The readers take their offset from the stack, and the bytes from their argument. -/
private theorem determined_readR2CPPacketAsUInt32 (b : List UInt8) :
    Determined parsingOffsetStack (readR2CPPacketAsUInt32 b) := by
  refine determined_backOffset.bind fun o => determined_popOffset.bind fun _ => .ite ?_ ?_
  · refine (determined_vectorAt _ b _).bind fun b₀ => ?_
    refine (determined_vectorAt _ b _).bind fun b₁ => ?_
    refine (determined_vectorAt _ b _).bind fun b₂ => ?_
    refine (determined_vectorAt _ b _).bind fun b₃ => ?_
    exact (determined_pushOffset _).bind fun _ => .pure _
  · exact (determined_pushOffset _).bind fun _ => .throw _

/-- The loop has the offset as an argument as well. -/
private theorem determined_readBytesLoop (b : List UInt8) (o : UInt32) (rounds : Nat) (i : UInt32)
    (acc : List UInt8) : Determined parsingOffsetStack (readBytesLoop b o rounds i acc) := by
  induction rounds generalizing i acc with
  | zero => exact .pure acc
  | succ rounds ih => exact (determined_vectorAt _ b _).bind fun x => ih (i + 1) (acc ++ [x])

private theorem determined_readBytesFromR2CPPacket (b : List UInt8) (n : UInt32) :
    Determined parsingOffsetStack (readBytesFromR2CPPacket b n) := by
  refine determined_backOffset.bind fun o => determined_popOffset.bind fun _ => .ite ?_ ?_
  · refine (determined_readBytesLoop b o _ 0 []).bind fun bytes => ?_
    exact (determined_pushOffset _).bind fun _ => .pure bytes
  · exact (determined_pushOffset _).bind fun _ => .throw _

private theorem determined_skipBytesFromR2CPPacket (n : UInt32) :
    Determined parsingOffsetStack (skipBytesFromR2CPPacket n) :=
  determined_backOffset.bind fun _ => determined_popOffset.bind fun _ => determined_pushOffset _

/-! ## The parser -/

/-- The functions of the parser call readers, and keep what they have read in variables. -/
private theorem determined_parseParameterLoop (c : List UInt8) (codes : Std.TreeSet UInt32)
    (rounds : Nat) (parameters : List R2CPParameter) :
    Determined parsingOffsetStack (parseParameterLoop c codes rounds parameters) := by
  induction rounds generalizing parameters with
  | zero => exact .pure _
  | succ rounds ih =>
    refine (determined_readR2CPPacketAsUInt32 c).bind fun code => .ite ?_ (.pure _)
    refine (determined_readR2CPPacketAsUInt32 c).bind fun size => ?_
    exact (determined_readBytesFromR2CPPacket c size).bind fun data => ih _

private theorem determined_parseParameterizedCommandContent (code : UInt32) (c : List UInt8) :
    Determined parsingOffsetStack (parseParameterizedCommandContent code c) := by
  refine (determined_pushOffset 0).bind fun _ => ?_
  refine (determined_readR2CPPacketAsUInt32 c).bind fun count => ?_
  refine (determined_parseParameterLoop c _ _ []).bind fun result => ?_
  obtain ⟨parameters, invalidParameterParsed⟩ := result
  refine determined_popOffset.bind fun _ => ?_
  cases invalidParameterParsed with
  | none => exact .pure parameters
  | some parameterCode => exact .throw _

private theorem determined_parseCommandContent (code : UInt32) (c : List UInt8) :
    Determined parsingOffsetStack (parseCommandContent code c) := by
  unfold parseCommandContent
  cases R2CPCommandDictionary.getInstance.getCommandContentType code with
  | directContent => exact .pure _
  | noContent => exact .pure _
  | parameterizedContent =>
    exact (determined_parseParameterizedCommandContent code c).tryCatch
      (determined_onInvalidArgument fun what => .throw _)

private theorem determined_parseCommand (code : UInt32) (c : List UInt8) :
    Determined parsingOffsetStack (parseCommand code c) := by
  refine .tryCatch ?_ (determined_onInvalidArgument fun what => ?_)
  · exact (determined_parseCommandContent code c).bind fun parameters => .pure _
  · exact (determined_writeLog _).bind fun _ => .pure none

private theorem determined_parseCommandLoop (b : List UInt8) (rounds : Nat)
    (commands : List R2CPCommand) :
    Determined parsingOffsetStack (parseCommandLoop b rounds commands) := by
  induction rounds generalizing commands with
  | zero => exact .pure commands
  | succ rounds ih =>
    refine (determined_readR2CPPacketAsUInt32 b).bind fun code => ?_
    refine (determined_readR2CPPacketAsUInt32 b).bind fun size => .ite ?_ ?_
    · refine (determined_skipBytesFromR2CPPacket size).bind fun _ => ?_
      exact (determined_writeLog _).bind fun _ => ih commands
    · refine (determined_readBytesFromR2CPPacket b size).bind fun content => ?_
      exact (determined_parseCommand code content).bind fun parsed => ih _

/-- The answer comes from the packet alone, and the stack is cleared. -/
private theorem resets_validateR2CPPacket (b : List UInt8) :
    Resets parsingOffsetStack (validateR2CPPacket b) := by
  obtain ⟨isValid, hy, hiff⟩ := validateR2CPPacket_decides b []
  refine ⟨.ok isValid, [], fun s => ?_⟩
  obtain ⟨isValid', hy', hiff'⟩ := validateR2CPPacket_decides b s
  have heq : isValid' = isValid := Bool.eq_iff_iff.mpr (hiff'.trans hiff.symm)
  rwa [heq] at hy'

/-- So the parser starts on an empty stack. -/
private theorem resets_parseR2CPPacket (b : List UInt8) :
    Resets parsingOffsetStack (parseR2CPPacket b) := by
  refine (resets_validateR2CPPacket b).bind fun isValid => .ite ?_ (.throw _)
  refine (determined_pushOffset 0).bind fun _ => ?_
  refine (determined_skipBytesFromR2CPPacket _).bind fun _ => ?_
  refine (determined_readR2CPPacketAsUInt32 b).bind fun count => ?_
  refine (determined_parseCommandLoop b _ []).bind fun commands => ?_
  exact determined_clearOffsets.bind fun _ => .pure commands

/-- The parser returns, or throws one of two exceptions. -/
private theorem parseR2CPPacket_defined (b : List UInt8) (s : R2CPParser) :
    (exec (parseR2CPPacket b) s).1 ≠ .error .undefinedBehavior := by
  by_cases hacc : PacketAccepted (visible b)
  · by_cases hempty : IsEmptyPacket (visible b)
    · rw [(parseR2CPPacket_empty hempty _).outcome rfl]
      simp [noBytesLeft]
    · by_cases hover : OverrunsInside (visible b)
      · obtain ⟨what, s', hthrow⟩ := parseR2CPPacket_overruns hover s.parsingOffsetStack
        rw [hthrow.outcome rfl]
        simp
      · obtain ⟨commands, hcommands⟩ := exists_commandsOf hacc hempty hover
        rw [(parseR2CPPacket_parsed hcommands _).outcome rfl]
        simp
  · rw [(parseR2CPPacket_rejected hacc _).outcome rfl]
    simp [parsingFailed]

/-! ## Calls -/

/-- A call of one of the two public functions. -/
inductive Call where
  | parse (r2cpPacket : List UInt8)
  | validate (r2cpPacket : List UInt8)
  deriving DecidableEq, Repr

/-- What a call returns. -/
inductive Returned where
  | commands (commands : List R2CPCommand)
  | isValid (isR2CPPacketValid : Bool)
  deriving DecidableEq, Repr

/-- What a call on a parser does. -/
def perform : Call → Parser Returned
  | .parse r2cpPacket => do
    let commands ← parseR2CPPacket r2cpPacket
    pure (.commands commands)
  | .validate r2cpPacket => do
    let isR2CPPacketValid ← validateR2CPPacket r2cpPacket
    pure (.isValid isR2CPPacketValid)

/-- Each call starts on an empty stack, or clears it at its end. -/
private theorem resets_perform (call : Call) : Resets parsingOffsetStack (perform call) := by
  cases call with
  | parse b => exact (resets_parseR2CPPacket b).bind fun commands => .pure _
  | validate b => exact (resets_validateR2CPPacket b).bind fun isValid => .pure _

/-- No call accesses an empty stack. -/
private theorem perform_defined (call : Call) (s : R2CPParser) :
    (exec (perform call) s).1 ≠ .error .undefinedBehavior := by
  cases call with
  | parse b =>
    have hdefined := parseR2CPPacket_defined b s
    rcases StatefulExcept.exec_bind_cases (parseR2CPPacket b)
        (fun commands => pure (Returned.commands commands)) s with
      ⟨e, s', hexec, hbind⟩ | ⟨commands, s', hexec, hbind⟩
    · rw [hexec] at hdefined
      rw [perform, hbind]
      exact fun h => hdefined (by cases h; rfl)
    · rw [perform, hbind]
      simp
  | validate b =>
    obtain ⟨isValid, hy, -⟩ := validateR2CPPacket_decides b s.parsingOffsetStack
    rw [perform, (hy.bind (.pure (Returned.isValid isValid))).outcome rfl]
    simp

end R2CPParser

/-! ## Both objects -/

/-- Whatever was done with the object before, a call has the outcome that it has on a new
    one, and it is a defined one. -/
theorem outcomes_eq_fresh :
    (∀ (p : R2CPParser) (calls : List R2CPParser.Call),
      outcomes R2CPParser.perform p calls =
          calls.map (fun call => (exec (R2CPParser.perform call) R2CPParser.new).1) ∧
        .error .undefinedBehavior ∉ outcomes R2CPParser.perform p calls) ∧
    ∀ (s : R2CPSerializer) (calls : List (List R2CPCommand)),
      outcomes R2CPSerializer.serializeCommands s calls =
          calls.map (fun commands =>
            (exec (R2CPSerializer.serializeCommands commands) R2CPSerializer.new).1) ∧
        .error .undefinedBehavior ∉ outcomes R2CPSerializer.serializeCommands s calls := by
  constructor
  · intro p calls
    -- the stack that earlier calls have left does not change an outcome
    have hfresh := outcomes_eq_map R2CPParser.perform
      (fun call s => (R2CPParser.resets_perform call).outcome_eq s R2CPParser.new) p calls
    refine ⟨hfresh, ?_⟩
    rw [hfresh, List.mem_map]
    rintro ⟨call, -, hundefined⟩
    exact R2CPParser.perform_defined call R2CPParser.new hundefined
  · intro s calls
    -- the first write throws, from every state
    have hthrows : ∀ commands s, (exec (R2CPSerializer.serializeCommands commands) s).1 =
        .error R2CPSerializer.noBytesLeft := fun commands s =>
      (R2CPSerializer.serializeCommands_throws commands s.serializingOffsetStack).outcome rfl
    have hfresh := outcomes_eq_map R2CPSerializer.serializeCommands
      (f := fun commands =>
        (exec (R2CPSerializer.serializeCommands commands) R2CPSerializer.new).1)
      (fun commands s => (hthrows commands s).trans (hthrows commands _).symm) s calls
    refine ⟨hfresh, ?_⟩
    rw [hfresh, List.mem_map]
    rintro ⟨commands, -, hundefined⟩
    rw [hthrows] at hundefined
    simp [R2CPSerializer.noBytesLeft] at hundefined

end R2CP
