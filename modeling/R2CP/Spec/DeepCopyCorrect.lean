import R2CP.Native.DeepCopy

/-!
# What the deep copies are worth

A vector that was only reserved has no position to assign to, so the first assignment
of either function is past the end: `deepCopies_iff` leaves the copies of nothing. The
counts are 32-bit numbers, and where they wrap to 0 no assignment is made, but the
copy is empty all the same.

## Key results

- `deepCopies_iff`: exactly which parameters and commands are copied
-/

namespace R2CP

open StatefulExcept (exec)

/-! ## Assignments -/

/-- An assignment is recorded with the size of the vector that it was made to. -/
theorem exec_assignAt {ω α : Type} (v : GrowingVector α) (i : Nat) (x : α) (s : Copying ω) :
    exec (assignAt v i x) s =
      (if i < v.size then .ok (v.set i x) else .error .undefinedBehavior,
        { s with assignments := s.assignments ++ [⟨i, v.size⟩] }) := by
  rw [assignAt, StatefulExcept.exec_bind, StatefulExcept.exec_modify]
  by_cases h : i < v.size
  · simp only [if_pos h, StatefulExcept.exec_pure]
  · simp only [if_neg h]
    rfl

/-- A vector that was reserved only has size 0, whatever its capacity. -/
theorem exec_assignAt_reserved {ω α : Type} (n i : Nat) (x : α) (s : Copying ω) :
    exec (assignAt (GrowingVector.empty.reserve n) i x) s =
      (.error .undefinedBehavior, { s with assignments := s.assignments ++ [⟨i, 0⟩] }) := by
  rw [exec_assignAt, GrowingVector.size_reserve, GrowingVector.size_empty,
    if_neg (Nat.not_lt_zero i)]

/-! ## Parameters -/

namespace R2CPParameter

/-- The copy of the data, as a loop over its size. -/
theorem exec_getParameterDataDeepCopy (s : Copying R2CPParameter) :
    exec getParameterDataDeepCopy s =
      exec (do
        let v ← deepCopyLoop s.original.getParameterDataSize.toNat 0
          (GrowingVector.empty.reserve s.original.getParameterDataSize.toNat)
        pure v.elements) s := by
  rw [getParameterDataDeepCopy, StatefulExcept.exec_bind, StatefulExcept.exec_get]

/-- A count of 0 copies nothing. -/
theorem exec_getParameterDataDeepCopy_zero {s : Copying R2CPParameter}
    (h : s.original.getParameterDataSize = 0) :
    exec getParameterDataDeepCopy s = (.ok [], s) := by
  rw [exec_getParameterDataDeepCopy, h]
  rfl

/-- Any other count begins with an assignment past the end. -/
theorem exec_getParameterDataDeepCopy_pos {s : Copying R2CPParameter}
    (h : s.original.getParameterDataSize ≠ 0) :
    exec getParameterDataDeepCopy s =
      (.error .undefinedBehavior, { s with assignments := s.assignments ++ [⟨0, 0⟩] }) := by
  obtain ⟨⟨code, data⟩, assignments⟩ := s
  cases data with
  | nil => exact absurd rfl h
  | cons b data =>
    have hcount : (R2CPParameter.mk code (b :: data)).getParameterDataSize.toNat ≠ 0 :=
      fun hzero => h (UInt32.toNat_inj.mp hzero)
    obtain ⟨rounds, hrounds⟩ := Nat.exists_eq_succ_of_ne_zero hcount
    -- the byte is there, but the position for it is not
    have hat : (vectorAt (b :: data) 0 : DeepCopy R2CPParameter UInt8) = pure b :=
      vectorAt_of_lt rfl
    rw [exec_getParameterDataDeepCopy, hrounds, StatefulExcept.exec_bind, deepCopyLoop,
      StatefulExcept.exec_bind, StatefulExcept.exec_get]
    simp only [UInt32.toNat_zero, hat, StatefulExcept.exec_bind, StatefulExcept.exec_pure,
      exec_assignAt_reserved]

end R2CPParameter

/-! ## Commands -/

namespace R2CPCommand

/-- The copy of the parameters, as a loop over their number. -/
theorem exec_getCommandParametersDeepCopy (s : Copying R2CPCommand) :
    exec getCommandParametersDeepCopy s =
      exec (do
        let v ← deepCopyLoop s.original.getNumberOfCommandParameters.toNat 0
          (GrowingVector.empty.reserve s.original.getNumberOfCommandParameters.toNat)
        pure v.elements) s := by
  rw [getCommandParametersDeepCopy, StatefulExcept.exec_bind, StatefulExcept.exec_get]

/-- Without parameters there is no assignment. -/
theorem exec_getCommandParametersDeepCopy_zero {s : Copying R2CPCommand}
    (h : s.original.getNumberOfCommandParameters = 0) :
    exec getCommandParametersDeepCopy s = (.ok [], s) := by
  rw [exec_getCommandParametersDeepCopy, h]
  rfl

/-- The first assignment past the end is that of a byte or, if the first parameter has
    none, that of the parameter itself. -/
theorem exec_getCommandParametersDeepCopy_pos {s : Copying R2CPCommand}
    (h : s.original.getNumberOfCommandParameters ≠ 0) :
    exec getCommandParametersDeepCopy s =
      (.error .undefinedBehavior, { s with assignments := s.assignments ++ [⟨0, 0⟩] }) := by
  obtain ⟨⟨code, ps⟩, assignments⟩ := s
  cases ps with
  | nil => exact absurd rfl h
  | cons p ps =>
    have hcount : (R2CPCommand.mk code (p :: ps)).getNumberOfCommandParameters.toNat ≠ 0 :=
      fun hzero => h (UInt32.toNat_inj.mp hzero)
    obtain ⟨rounds, hrounds⟩ := Nat.exists_eq_succ_of_ne_zero hcount
    have hat : (vectorAt (p :: ps) 0 : DeepCopy R2CPCommand R2CPParameter) = pure p :=
      vectorAt_of_lt rfl
    have hpart : exec (onParameter 0 p R2CPParameter.getParameterDataDeepCopy)
        ⟨⟨code, p :: ps⟩, assignments⟩ =
          ((exec R2CPParameter.getParameterDataDeepCopy ⟨p, assignments⟩).1,
            ⟨⟨code,
                (exec R2CPParameter.getParameterDataDeepCopy ⟨p, assignments⟩).2.original :: ps⟩,
              (exec R2CPParameter.getParameterDataDeepCopy ⟨p, assignments⟩).2.assignments⟩) := rfl
    rw [exec_getCommandParametersDeepCopy, hrounds, StatefulExcept.exec_bind, deepCopyLoop,
      StatefulExcept.exec_bind, StatefulExcept.exec_get]
    simp only [UInt32.toNat_zero, hat, StatefulExcept.exec_bind, StatefulExcept.exec_pure, hpart]
    by_cases hp : p.getParameterDataSize = 0
    · rw [R2CPParameter.exec_getParameterDataDeepCopy_zero hp]
      simp only [exec_assignAt_reserved]
    · rw [R2CPParameter.exec_getParameterDataDeepCopy_pos hp]

end R2CPCommand

/-! ## Copies -/

/-- The member function returns `copy`. On the way it assigns below the size only, and it
    leaves the object as it was. -/
def CopiesTo {ω α : Type} (x : DeepCopy ω α) (original : ω) (copy : α) : Prop :=
  ∃ s, exec x ⟨original, []⟩ = (.ok copy, s) ∧ (∀ a ∈ s.assignments, a.index < a.size) ∧
    s.original = original

/-- The data is copied exactly if there is none. -/
private theorem copiesTo_parameterData_iff (p : R2CPParameter) :
    CopiesTo R2CPParameter.getParameterDataDeepCopy p p.parameterData ↔ p.parameterData = [] := by
  constructor
  · intro hcopies
    obtain ⟨s, hexec, -, -⟩ := hcopies
    by_cases h : p.getParameterDataSize = 0
    · rw [R2CPParameter.exec_getParameterDataDeepCopy_zero h] at hexec
      simp only [Prod.mk.injEq, Except.ok.injEq] at hexec
      exact hexec.1.symm
    · rw [R2CPParameter.exec_getParameterDataDeepCopy_pos h] at hexec
      cases hexec
  · intro hnil
    have h : p.getParameterDataSize = 0 := by rw [R2CPParameter.getParameterDataSize, hnil]; rfl
    refine ⟨⟨p, []⟩, ?_, by simp, rfl⟩
    rw [R2CPParameter.exec_getParameterDataDeepCopy_zero h, hnil]

/-- And so are the parameters. -/
private theorem copiesTo_commandParameters_iff (c : R2CPCommand) :
    CopiesTo R2CPCommand.getCommandParametersDeepCopy c c.commandParameters ↔
      c.commandParameters = [] := by
  constructor
  · intro hcopies
    obtain ⟨s, hexec, -, -⟩ := hcopies
    by_cases h : c.getNumberOfCommandParameters = 0
    · rw [R2CPCommand.exec_getCommandParametersDeepCopy_zero h] at hexec
      simp only [Prod.mk.injEq, Except.ok.injEq] at hexec
      exact hexec.1.symm
    · rw [R2CPCommand.exec_getCommandParametersDeepCopy_pos h] at hexec
      cases hexec
  · intro hnil
    have h : c.getNumberOfCommandParameters = 0 := by
      rw [R2CPCommand.getNumberOfCommandParameters, hnil]
      rfl
    refine ⟨⟨c, []⟩, ?_, by simp, rfl⟩
    rw [R2CPCommand.exec_getCommandParametersDeepCopy_zero h, hnil]

/-- Deep copies are copies exactly of data without bytes and of commands without
    parameters. -/
theorem deepCopies_iff (p : R2CPParameter) (c : R2CPCommand) :
    (CopiesTo R2CPParameter.getParameterDataDeepCopy p p.parameterData ↔ p.parameterData = []) ∧
      (CopiesTo R2CPCommand.getCommandParametersDeepCopy c c.commandParameters ↔
        c.commandParameters = []) :=
  ⟨copiesTo_parameterData_iff p, copiesTo_commandParameters_iff c⟩

/-- One byte, and one parameter without bytes: both are assigned to position 0 of a vector
    of size 0. -/
theorem deepCopies_past_end :
    (exec R2CPParameter.getParameterDataDeepCopy ⟨⟨6, [42]⟩, []⟩ =
        (.error .undefinedBehavior, ⟨⟨6, [42]⟩, [⟨0, 0⟩]⟩) ∧
      ¬ CopiesTo R2CPParameter.getParameterDataDeepCopy ⟨6, [42]⟩ [42]) ∧
    exec R2CPCommand.getCommandParametersDeepCopy ⟨⟨2, [⟨6, []⟩]⟩, []⟩ =
        (.error .undefinedBehavior, ⟨⟨2, [⟨6, []⟩]⟩, [⟨0, 0⟩]⟩) ∧
      ¬ CopiesTo R2CPCommand.getCommandParametersDeepCopy ⟨2, [⟨6, []⟩]⟩ [⟨6, []⟩] := by
  refine ⟨⟨?_, fun hcopies => ?_⟩, ?_, fun hcopies => ?_⟩
  · exact R2CPParameter.exec_getParameterDataDeepCopy_pos (by decide)
  · have hnil := (copiesTo_parameterData_iff ⟨6, [42]⟩).mp hcopies
    cases hnil
  · exact R2CPCommand.exec_getCommandParametersDeepCopy_pos (by decide)
  · have hnil := (copiesTo_commandParameters_iff ⟨2, [⟨6, []⟩]⟩).mp hcopies
    cases hnil

end R2CP
