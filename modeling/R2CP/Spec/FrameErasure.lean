import R2CP.Native.FrameOwners

/-!
# The validator without the owners

`Refines x y` says that `x` with owners does what `y` does without, and that `x` finds
a frame on the stack at every access, as long as it does not end with undefined
behavior. No handler catches that, so the outcome tells.

## Key results

- `refines_validateR2CPPacket`: the validator with owners does what the validator does
- `Refines.bind`, `Refines.tryCatch`, `Refines.activation`: how refinements compose
-/

namespace R2CP

open StatefulExcept (exec)
open R2CPParser (Parser)

/-- There is a frame to read or to remove. -/
def FrameAccess.HasFrame : FrameAccess → Prop
  | .back owner? _ => owner?.isSome = true
  | .popBack owner? => owner?.isSome = true

namespace OwnedParser

/-- The owners that a call starts with are forgotten again. -/
@[simp] theorem erase_beforeCall (s : R2CPParser) : (beforeCall s).erase = s := by
  simp [erase, beforeCall, List.map_map, Function.comp_def]

/-- No access was to an empty stack. -/
def AlwaysFrame (g : OwnedParser) : Prop := ∀ access ∈ g.accesses, access.HasFrame

/-- With owners and without, the outcome and the state are the same; unless the outcome is
    undefined behavior, there were frames at all accesses. -/
def Refines {α : Type} (x : Owned α) (y : Parser α) : Prop :=
  ∀ g, ∃ r g', exec x g = (r, g') ∧ exec y g.erase = (r, g'.erase) ∧
    (r ≠ .error .undefinedBehavior → g.AlwaysFrame → g'.AlwaysFrame)

namespace Refines

variable {α β : Type}

/-- Returning is the same with owners and without. -/
theorem pure (a : α) : Refines (pure a) (pure a) :=
  fun g => ⟨_, g, rfl, rfl, fun _ h => h⟩

/-- And so is throwing. -/
theorem throw (e : StdException) : Refines (throw e : Owned α) (throw e) :=
  fun g => ⟨_, g, rfl, rfl, fun _ h => h⟩

/-- One computation after the other. -/
theorem bind {x : Owned α} {y : Parser α} {f : α → Owned β} {f' : α → Parser β}
    (hx : Refines x y) (hf : ∀ a, Refines (f a) (f' a)) : Refines (x >>= f) (y >>= f') := by
  intro g
  obtain ⟨r, g₁, hx', hy', hframes⟩ := hx g
  rw [StatefulExcept.exec_bind, StatefulExcept.exec_bind, hx', hy']
  cases r with
  -- the exception ends both
  | error e => exact ⟨_, g₁, rfl, rfl, by simpa using hframes⟩
  | ok a =>
    obtain ⟨r, g₂, hf₂, hf₂', hframes₂⟩ := hf a g₁
    exact ⟨r, g₂, hf₂, hf₂', fun hr hg => hframes₂ hr (hframes (by simp) hg)⟩

/-- A handler does not see undefined behavior. -/
theorem tryCatch {x : Owned α} {y : Parser α} {handler : What → Owned α}
    {handler' : What → Parser α} (hx : Refines x y)
    (hh : ∀ what, Refines (handler what) (handler' what)) :
    Refines (tryCatch x (StdException.onOutOfRange handler))
      (tryCatch y (StdException.onOutOfRange handler')) := by
  intro g
  obtain ⟨r, g₁, hx', hy', hframes⟩ := hx g
  rw [StatefulExcept.exec_tryCatch, StatefulExcept.exec_tryCatch, hx', hy']
  cases r with
  | ok a => exact ⟨_, g₁, rfl, rfl, hframes⟩
  | error e =>
    -- a `std::out_of_range` is caught in both, and nothing else in either
    rcases StdException.onOutOfRange_cases e with ⟨what, rfl⟩ | hpasses
    · obtain ⟨r, g₂, hh₂, hh₂', hframes₂⟩ := hh what g₁
      exact ⟨r, g₂, hh₂, hh₂', fun hr hg => hframes₂ hr (hframes (by simp) hg)⟩
    · show ∃ r g', exec (StdException.onOutOfRange handler e) g₁ = (r, g') ∧
        exec (StdException.onOutOfRange handler' e) g₁.erase = (r, g'.erase) ∧ _
      rw [hpasses, hpasses]
      exact ⟨_, g₁, rfl, rfl, hframes⟩

/-- Both branches, under the same condition. -/
theorem ite {p : Prop} [Decidable p] {x x' : Owned α} {y y' : Parser α} (hx : Refines x y)
    (hx' : Refines x' y') : Refines (if p then x else x') (if p then y else y') := by
  split
  · exact hx
  · exact hx'

/-- Who runs is forgotten. -/
theorem activation {body : Nat → Owned α} {y : Parser α} (h : ∀ owner, Refines (body owner) y) :
    Refines (activation body) y := by
  intro g
  obtain ⟨r, g', hx, hy, hframes⟩ := h g.nextActivation g.enter
  exact ⟨r, g'.leave g.nextActivation, by rw [exec_activation, hx], hy, hframes⟩

end Refines

/-! ## The offset stack -/

/-- The offset of the frame is what `push_back` puts on the stack. -/
private theorem refines_pushFrame (owner : Nat) (offset : UInt32) :
    Refines (pushFrame ⟨owner, offset⟩) (R2CPParser.pushOffset offset) :=
  fun g => ⟨_, { g with frames := ⟨owner, offset⟩ :: g.frames }, rfl, rfl, fun _ h => h⟩

/-- `clear` removes all of them. -/
private theorem refines_clearFrames : Refines clearFrames R2CPParser.clearOffsets :=
  fun g => ⟨_, { g with frames := [] }, rfl, rfl, fun _ h => h⟩

/-- The log is the same. -/
private theorem refines_writeLog (entry : LogEntry) :
    Refines (writeLog entry) (R2CPParser.writeLog entry) :=
  fun g => ⟨_, { g with log := g.log ++ [entry] }, rfl, rfl, fun _ h => h⟩

/-- One access more. -/
theorem AlwaysFrame.append {g : OwnedParser} (h : g.AlwaysFrame) {access : FrameAccess}
    (haccess : access.HasFrame) : ∀ a ∈ g.accesses ++ [access], a.HasFrame :=
  List.forall_mem_append.mpr ⟨h, by simpa using haccess⟩

/-- `pop_back()` of an empty stack is undefined behavior, and otherwise there is a frame. -/
private theorem refines_popFrame : Refines popFrame R2CPParser.popOffset := by
  intro g
  obtain ⟨frames, log, running, nextActivation, accesses⟩ := g
  cases frames with
  -- undefined behavior promises nothing about the accesses
  | nil => exact ⟨_, _, rfl, rfl, fun hr => absurd rfl hr⟩
  | cons frame frames => exact ⟨_, _, rfl, rfl, fun _ h => h.append rfl⟩

/-- So is `back()`, and its frame is what the rest goes on with. -/
private theorem refines_backFrame {α : Type} {f : Frame → Owned α} {f' : UInt32 → Parser α}
    (hf : ∀ frame, Refines (f frame) (f' frame.offset)) :
    Refines (backFrame >>= f) (R2CPParser.backOffset >>= f') := by
  intro g
  obtain ⟨frames, log, running, nextActivation, accesses⟩ := g
  rw [StatefulExcept.exec_bind, StatefulExcept.exec_bind]
  cases frames with
  | nil => exact ⟨_, _, rfl, rfl, fun hr => absurd rfl hr⟩
  | cons frame frames =>
    obtain ⟨r, g', hr, hr', hframes⟩ := hf frame
      ⟨frame :: frames, log, running, nextActivation,
        accesses ++ [.back (some frame.owner) running]⟩
    exact ⟨r, g', hr, hr', fun hne hg => hframes hne (hg.append rfl)⟩

/-- `at()` does not look at the stack. -/
private theorem refines_vectorAt (b : List UInt8) (i : Nat) :
    Refines (vectorAt b i) (vectorAt b i : Parser UInt8) := by
  unfold vectorAt
  cases b[i]? with
  | none => exact .throw _
  | some x => exact .pure x

/-! ## Readers -/

/-- Four bytes from the offset of the top frame. -/
private theorem refines_readR2CPPacketAsUInt32 (b : List UInt8) :
    Refines (readR2CPPacketAsUInt32 b) (R2CPParser.readR2CPPacketAsUInt32 b) := by
  refine refines_backFrame fun frame => ?_
  obtain ⟨owner, offset⟩ := frame
  refine .bind refines_popFrame fun _ => .ite ?_ ?_
  · refine .bind (refines_vectorAt b _) fun _ => .bind (refines_vectorAt b _) fun _ => ?_
    refine .bind (refines_vectorAt b _) fun _ => .bind (refines_vectorAt b _) fun _ => ?_
    exact .bind (refines_pushFrame owner _) fun _ => .pure _
  · exact .bind (refines_pushFrame owner _) fun _ => .throw _

/-- Bytes one by one, from an offset that is not on the stack. -/
private theorem refines_readBytesLoop (b : List UInt8) (o : UInt32) (rounds : Nat) (i : UInt32)
    (acc : List UInt8) :
    Refines (readBytesLoop b o rounds i acc) (R2CPParser.readBytesLoop b o rounds i acc) := by
  induction rounds generalizing i acc with
  | zero => exact .pure acc
  | succ rounds ih => exact .bind (refines_vectorAt b _) fun x => ih (i + 1) (acc ++ [x])

/-- And the frame that is put back behind them. -/
private theorem refines_readBytesFromR2CPPacket (b : List UInt8) (n : UInt32) :
    Refines (readBytesFromR2CPPacket b n) (R2CPParser.readBytesFromR2CPPacket b n) := by
  refine refines_backFrame fun frame => ?_
  obtain ⟨owner, offset⟩ := frame
  refine .bind refines_popFrame fun _ => .ite ?_ ?_
  · exact .bind (refines_readBytesLoop b offset _ 0 []) fun _ =>
      .bind (refines_pushFrame owner _) fun _ => .pure _
  · exact .bind (refines_pushFrame owner _) fun _ => .throw _

/-- A frame goes and a frame comes. -/
private theorem refines_skipBytesFromR2CPPacket (n : UInt32) :
    Refines (skipBytesFromR2CPPacket n) (R2CPParser.skipBytesFromR2CPPacket n) := by
  refine refines_backFrame fun frame => ?_
  obtain ⟨owner, offset⟩ := frame
  exact .bind refines_popFrame fun _ => refines_pushFrame owner _

/-- The frame stays. -/
private theorem refines_checkIfR2CPPacketEndIsReached (b : List UInt8) :
    Refines (checkIfR2CPPacketEndIsReached b) (R2CPParser.checkIfR2CPPacketEndIsReached b) :=
  refines_backFrame fun _ => .pure _

/-! ## Validation -/

/-- The same entry. -/
private theorem refines_logInvalidParameterizedContent (what : What) :
    Refines (logInvalidParameterizedContent what)
      (R2CPParser.logInvalidParameterizedContent what) :=
  refines_writeLog _

/-- Two skips and a size, in a handler. -/
private theorem refines_validateParameter (c : List UInt8) :
    Refines (validateParameter c) (R2CPParser.validateParameter c) := by
  refine .tryCatch ?_ fun what =>
    .bind (refines_logInvalidParameterizedContent what) fun _ => .pure _
  refine .bind (refines_skipBytesFromR2CPPacket 4) fun _ => ?_
  refine .bind (refines_readR2CPPacketAsUInt32 c) fun size => ?_
  exact .bind (refines_skipBytesFromR2CPPacket size) fun _ => .pure true

/-- Parameter by parameter. -/
private theorem refines_validateParameterLoop (c : List UInt8) (rounds : Nat) :
    Refines (validateParameterLoop c rounds) (R2CPParser.validateParameterLoop c rounds) := by
  induction rounds with
  | zero => exact .pure true
  | succ rounds ih => exact .bind (refines_validateParameter c) fun _ => .ite ih (.pure false)

/-- The count, in a handler of its own. -/
private theorem refines_readParametersCount? (c : List UInt8) :
    Refines (readParametersCount? c) (R2CPParser.readParametersCount? c) := by
  refine .tryCatch ?_ fun what =>
    .bind (refines_logInvalidParameterizedContent what) fun _ => .pure _
  exact .bind (refines_readR2CPPacketAsUInt32 c) fun count => .pure (some count)

/-- A frame from the first line of a function to its last. -/
private theorem refines_withFrame {body : Owned Bool} {y : Parser Bool} (h : Refines body y) :
    Refines (withFrame body)
      (do
        R2CPParser.pushOffset 0
        let isValid ← y
        R2CPParser.popOffset
        pure isValid) :=
  .activation fun owner => .bind (refines_pushFrame owner 0) fun _ => .bind h fun isValid =>
    .bind refines_popFrame fun _ => .pure isValid

/-- Between the frame's `push_back` and its `pop_back`. -/
theorem validateParameterizedCommandContent_eq (c : List UInt8) :
    R2CPParser.validateParameterizedCommandContent c =
      (do
        R2CPParser.pushOffset 0
        let isValid ← (do
          match ← R2CPParser.readParametersCount? c with
          | some parametersCount =>
            let isValid ← R2CPParser.validateParameterLoop c parametersCount.toNat
            if isValid then R2CPParser.checkIfR2CPPacketEndIsReached c else pure false
          | none => pure false)
        R2CPParser.popOffset
        pure isValid) := by
  unfold R2CPParser.validateParameterizedCommandContent
  simp only [bind_assoc]
  refine bind_congr fun _ => bind_congr fun count? => ?_
  cases count? with
  | none => simp
  | some count =>
    simp only [bind_assoc]
    refine bind_congr fun isValid => ?_
    cases isValid <;> simp

/-- With a frame of its own. -/
private theorem refines_validateParameterizedCommandContent (c : List UInt8) :
    Refines (validateParameterizedCommandContent c)
      (R2CPParser.validateParameterizedCommandContent c) := by
  rw [validateParameterizedCommandContent_eq]
  refine refines_withFrame (.bind (refines_readParametersCount? c) fun count? => ?_)
  cases count? with
  | none => exact .pure false
  | some count =>
    exact .bind (refines_validateParameterLoop c count.toNat) fun _ =>
      .ite (refines_checkIfR2CPPacketEndIsReached c) (.pure false)

/-- By the content type of the code. -/
private theorem refines_validateCommandContent (code : UInt32) (c : List UInt8) :
    Refines (validateCommandContent code c) (R2CPParser.validateCommandContent code c) := by
  unfold validateCommandContent R2CPParser.validateCommandContent
  cases R2CPCommandDictionary.getInstance.getCommandContentType code with
  | parameterizedContent => exact refines_validateParameterizedCommandContent c
  | noContent => exact .pure _
  | directContent => exact .pure true

/-- Command by command. -/
private theorem refines_validateCommandLoop (b : List UInt8) (rounds : Nat) :
    Refines (validateCommandLoop b rounds) (R2CPParser.validateCommandLoop b rounds) := by
  induction rounds with
  | zero => exact .pure true
  | succ rounds ih =>
    refine .bind (refines_readR2CPPacketAsUInt32 b) fun code => ?_
    refine .bind (refines_readR2CPPacketAsUInt32 b) fun size => ?_
    refine .bind (refines_readBytesFromR2CPPacket b size) fun content => ?_
    exact .bind (refines_validateCommandContent code content) fun _ => .ite ih (.pure false)

/-- With a frame of its own, and a handler inside. -/
private theorem refines_validateCommandsFromR2CPPacket (b : List UInt8) :
    Refines (validateCommandsFromR2CPPacket b) (R2CPParser.validateCommandsFromR2CPPacket b) := by
  refine refines_withFrame (.tryCatch ?_ fun what =>
    .bind (refines_writeLog _) fun _ => .pure false)
  refine .bind (refines_readR2CPPacketAsUInt32 b) fun count => ?_
  refine .bind (refines_validateCommandLoop b count.toNat) fun _ => ?_
  exact .ite (refines_checkIfR2CPPacketEndIsReached b) (.pure false)

/-- The packet without commands, or the commands. -/
private theorem refines_validatePacketSize (b : List UInt8) :
    Refines (validatePacketSize b) (R2CPParser.validatePacketSize b) := by
  refine .bind (refines_readR2CPPacketAsUInt32 b) fun size => .ite (.ite (.pure true) ?_) ?_
  · exact .bind (refines_readBytesFromR2CPPacket b size) fun commands =>
      refines_validateCommandsFromR2CPPacket commands
  · exact .bind (refines_writeLog _) fun _ => .pure false

/-- The owners change nothing. -/
theorem refines_validateR2CPPacket (b : List UInt8) :
    Refines (validateR2CPPacket b) (R2CPParser.validateR2CPPacket b) := by
  refine .activation fun owner => .bind (refines_pushFrame owner 0) fun _ => .bind ?_ fun isValid =>
    .bind refines_clearFrames fun _ => .pure isValid
  refine .ite (.bind (refines_readR2CPPacketAsUInt32 b) fun magic => .ite ?_ ?_) ?_
  · exact refines_validatePacketSize b
  · exact .bind (refines_writeLog _) fun _ => .pure false
  · exact .bind (refines_writeLog _) fun _ => .pure false

end OwnedParser

end R2CP
