import R2CP.Native.Command
import R2CP.Native.Exception

/-!
# Deep copies

`R2CPParameter::getparameterdatadeepcopy` and `R2CPCommand::getcommandparametersdeepcopy`
build a vector by reserving room in it and then assigning to its positions.
`GrowingVector` keeps the two numbers of a `std::vector` apart: `reserve` raises the
capacity and leaves the size, and `operator[]` has a meaning below the size only.

The member functions run on the object that is copied, so it is part of the state.
Every assignment is recorded with the size that the vector had.
-/

namespace R2CP

/-- A `std::vector` with its capacity. -/
structure GrowingVector (α : Type) where
  elements : List α
  capacity : Nat
  fits : elements.length ≤ capacity

namespace GrowingVector

variable {α : Type}

/-- A new vector. -/
def empty : GrowingVector α := ⟨[], 0, Nat.le_refl 0⟩

/-- How many elements there are, whatever the capacity is. -/
def size (v : GrowingVector α) : Nat := v.elements.length

/-- `reserve` gives room, and no elements. -/
def reserve (v : GrowingVector α) (n : Nat) : GrowingVector α :=
  ⟨v.elements, max v.capacity n, Nat.le_trans v.fits (Nat.le_max_left _ _)⟩

/-- The vector with another element at a position that it has. -/
def set (v : GrowingVector α) (i : Nat) (x : α) : GrowingVector α :=
  ⟨v.elements.set i x, v.capacity, by rw [List.length_set]; exact v.fits⟩

/-- A new vector has no elements, -/
@[simp] theorem size_empty : (empty : GrowingVector α).size = 0 := rfl

/-- and `reserve` does not change that. -/
@[simp] theorem size_reserve (v : GrowingVector α) (n : Nat) : (v.reserve n).size = v.size := rfl

end GrowingVector

/-- An assignment through `operator[]`, with the size at that time. -/
structure VectorAssignment where
  index : Nat
  size : Nat
  deriving DecidableEq, Repr

/-- The object that is being copied, and the assignments so far. -/
structure Copying (ω : Type) where
  original : ω
  assignments : List VectorAssignment
  deriving DecidableEq, Repr

/-- A member function of an `ω` that makes a copy. -/
abbrev DeepCopy (ω : Type) := StatefulExcept StdException (Copying ω)

/-- `v[i] = x`. No check is made, and past the end it has no meaning. -/
def assignAt {ω α : Type} (v : GrowingVector α) (i : Nat) (x : α) :
    DeepCopy ω (GrowingVector α) := do
  modify fun s => { s with assignments := s.assignments ++ [⟨i, v.size⟩] }
  -- `operator[]` makes no check, and behind the elements there is nothing to refer to
  if i < v.size then pure (v.set i x) else throw .undefinedBehavior

/-! ## Parameters -/

namespace R2CPParameter

/-- The loop over the bytes, with `rounds` of them to go and the next one at `i`. -/
def deepCopyLoop : (rounds : Nat) → (i : UInt32) → (parameterDataDeepCopy : GrowingVector UInt8) →
    DeepCopy R2CPParameter (GrowingVector UInt8)
  | 0, _, parameterDataDeepCopy => pure parameterDataDeepCopy
  | rounds + 1, i, parameterDataDeepCopy => do
    let b ← vectorAt (← get).original.parameterData i.toNat
    let parameterDataDeepCopy ← assignAt parameterDataDeepCopy i.toNat b
    deepCopyLoop rounds (i + 1) parameterDataDeepCopy

/-- `getparameterdatadeepcopy`. The size that it reserves is the 32-bit one. -/
def getParameterDataDeepCopy : DeepCopy R2CPParameter (List UInt8) := do
  let parameterDataSize := (← get).original.getParameterDataSize
  let parameterDataDeepCopy := GrowingVector.empty.reserve parameterDataSize.toNat
  let parameterDataDeepCopy ← deepCopyLoop parameterDataSize.toNat 0 parameterDataDeepCopy
  pure parameterDataDeepCopy.elements

end R2CPParameter

/-! ## Commands -/

namespace R2CPCommand

/-- Run a member function on the parameter at `i`, which `commandParameter` refers to. -/
def onParameter {α : Type} (i : Nat) (commandParameter : R2CPParameter)
    (x : DeepCopy R2CPParameter α) : DeepCopy R2CPCommand α :=
  StatefulExcept.onPart
    (fun s => ⟨s.original.commandParameters.getD i commandParameter, s.assignments⟩)
    (fun t s => ⟨{ s.original with
        commandParameters := s.original.commandParameters.set i t.original }, t.assignments⟩) x

/-- The loop over the parameters, with `rounds` of them to go and the next one at `i`. -/
def deepCopyLoop : (rounds : Nat) → (i : UInt32) →
    (commandParametersDeepCopy : GrowingVector R2CPParameter) →
    DeepCopy R2CPCommand (GrowingVector R2CPParameter)
  | 0, _, commandParametersDeepCopy => pure commandParametersDeepCopy
  | rounds + 1, i, commandParametersDeepCopy => do
    let commandParameter ← vectorAt (← get).original.commandParameters i.toNat
    let parameterData ←
      onParameter i.toNat commandParameter R2CPParameter.getParameterDataDeepCopy
    let commandParametersDeepCopy ← assignAt commandParametersDeepCopy i.toNat
      ⟨commandParameter.parameterCode, parameterData⟩
    deepCopyLoop rounds (i + 1) commandParametersDeepCopy

/-- `getcommandparametersdeepcopy`, likewise. -/
def getCommandParametersDeepCopy : DeepCopy R2CPCommand (List R2CPParameter) := do
  let commandParametersCount := (← get).original.getNumberOfCommandParameters
  let commandParametersDeepCopy := GrowingVector.empty.reserve commandParametersCount.toNat
  let commandParametersDeepCopy ←
    deepCopyLoop commandParametersCount.toNat 0 commandParametersDeepCopy
  pure commandParametersDeepCopy.elements

end R2CPCommand

end R2CP
