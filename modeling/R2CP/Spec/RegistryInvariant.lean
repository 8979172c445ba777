import R2CP.ForStd.Transition
import R2CP.Native.PacketProcessor

/-!
# The two containers of the registry

Every module that a reaction code maps to should be in the set of modules as well,
so that it is also evaluated actively. Unregistering a code takes its module out of
the set, whether or not another code still maps to it; `everyStep_registered_iff`
says that this is the only way to lose the invariant.

Unregistering a module is taken by its effect here, `withoutRobotModule`: all of the
module's entries go. `exec_unregisterRobotModule` is the case in which the loop of the
source has an effect that is defined, and `unregistersExactly_iff` says that it is the
only one: every entry of the module leaves the loop with an iterator that is gone.

## Key results

- `everyStep_registered_iff`: exactly which calls keep the invariant
- `unregistersExactly_iff`: exactly when the loop of `unregisterrobotmodule` has a defined
  effect
-/

namespace R2CP

open Transition (EveryStep)

/-- A call to the registry. -/
inductive RegistryEvent where
  | registerReactive (reactCommandCode : UInt32) (robotModule : RobotModuleAddress)
  | register (robotModule : RobotModuleAddress)
  | unregister (robotModule : RobotModuleAddress)
  | unregisterReactive (reactCommandCode : UInt32)
  | unregisterAll
  deriving DecidableEq, Repr

namespace R2CPPacketProcessor

/-- The registry without a module and its entries. -/
def withoutRobotModule (p : R2CPPacketProcessor) (robotModule : RobotModuleAddress) :
    R2CPPacketProcessor :=
  { p with
    robotModulesMap := p.robotModulesMap.filter fun _ registered => registered != robotModule
    robotModulesSet := p.robotModulesSet.erase robotModule }

/-- The calls one after the other; each is always possible. -/
def registryStep (p : R2CPPacketProcessor) : RegistryEvent → Option R2CPPacketProcessor
  | .registerReactive reactCommandCode robotModule =>
    some (p.registerReactiveRobotModule reactCommandCode robotModule)
  | .register robotModule => some (p.registerRobotModule robotModule)
  | .unregister robotModule => some (p.withoutRobotModule robotModule)
  | .unregisterReactive reactCommandCode => some (p.unregisterReactiveRobotModule reactCommandCode)
  | .unregisterAll => some p.unregisterAllRobotModules

/-- Every module that a reaction code maps to is in the set of modules. -/
def Registered (p : R2CPPacketProcessor) : Prop :=
  ∀ (reactCommandCode : UInt32) (robotModule : RobotModuleAddress),
    p.robotModulesMap[reactCommandCode]? = some robotModule →
    p.robotModulesSet.contains robotModule = true

/-- A code is unregistered only if no other code maps to its module. -/
def LastCodeOfModule (p : R2CPPacketProcessor) : RegistryEvent → Prop
  | .unregisterReactive reactCommandCode =>
    ∀ robotModule, p.robotModulesMap[reactCommandCode]? = some robotModule →
      ∀ otherCode : UInt32, otherCode ≠ reactCommandCode →
        p.robotModulesMap[otherCode]? ≠ some robotModule
  | _ => True

variable {p p' : R2CPPacketProcessor} {e : RegistryEvent}

/-- The other modules stay in the set. -/
private theorem contains_erase_of_ne {modules : Std.TreeSet RobotModuleAddress}
    {robotModule m : RobotModuleAddress} (h : m ≠ robotModule) :
    (modules.erase robotModule).contains m = modules.contains m := by
  have hne : compare robotModule m ≠ .eq := by
    rw [Ne, Std.LawfulEqCmp.compare_eq_iff_eq]
    exact Ne.symm h
  rw [Std.TreeSet.contains_erase, bne_iff_ne.mpr hne, Bool.true_and]

/-- Without entries there is nothing to be registered. -/
private theorem registered_of_empty (h : p.robotModulesMap = ∅) : p.Registered := by
  intro code m hm
  rw [h] at hm
  simp at hm

/-- A module that reacts is put in the set as well. -/
private theorem registered_registerReactive (h : p.Registered) (reactCommandCode : UInt32)
    (robotModule : RobotModuleAddress) :
    (p.registerReactiveRobotModule reactCommandCode robotModule).Registered := by
  unfold registerReactiveRobotModule
  split
  · intro code m hm
    rw [Std.TreeMap.getElem?_insert] at hm
    rw [Std.TreeSet.contains_insert]
    split at hm
    · -- the new entry
      cases hm
      simp
    · rw [h code m hm, Bool.or_true]
  · -- the code is taken, and only the log changes
    exact h

/-- One more module in the set does no harm. -/
private theorem registered_register (h : p.Registered) (robotModule : RobotModuleAddress) :
    (p.registerRobotModule robotModule).Registered := by
  intro code m hm
  show (p.robotModulesSet.insert robotModule).contains m = true
  rw [Std.TreeSet.contains_insert, h code m hm, Bool.or_true]

/-- The entries that are left are those of other modules. -/
private theorem getElem?_withoutRobotModule (p : R2CPPacketProcessor)
    (robotModule : RobotModuleAddress)
    (code : UInt32) :
    (p.withoutRobotModule robotModule).robotModulesMap[code]? =
      p.robotModulesMap[code]?.filter (· != robotModule) := by
  show (p.robotModulesMap.filter fun _ registered => registered != robotModule)[code]? = _
  rw [Std.TreeMap.getElem?_filter']

/-- The entries of the module go with it. -/
private theorem registered_withoutRobotModule (h : p.Registered)
    (robotModule : RobotModuleAddress) :
    (p.withoutRobotModule robotModule).Registered := by
  intro code m hm
  rw [getElem?_withoutRobotModule, Option.filter_eq_some_iff] at hm
  obtain ⟨hm, hne⟩ := hm
  show (p.robotModulesSet.erase robotModule).contains m = true
  rw [contains_erase_of_ne (by simpa using hne), h code m hm]

/-- Unregistering a code keeps the invariant exactly when its module has no other code. -/
private theorem registered_unregisterReactive_iff (h : p.Registered) (reactCommandCode : UInt32) :
    (p.unregisterReactiveRobotModule reactCommandCode).Registered ↔
      p.LastCodeOfModule (.unregisterReactive reactCommandCode) := by
  simp only [unregisterReactiveRobotModule, LastCodeOfModule]
  cases hcode : p.robotModulesMap[reactCommandCode]? with
  | none =>
    -- nothing is unregistered, and there is no module to speak of
    exact ⟨fun _ _ hm => (nomatch hm), fun _ => h⟩
  | some registered =>
    simp only [Option.some.injEq]
    constructor
    · -- another code of the module would still map to it
      rintro hafter m rfl other hne hother
      have hset : (p.robotModulesSet.erase registered).contains registered = true := by
        apply hafter other registered
        show (p.robotModulesMap.erase reactCommandCode)[other]? = some registered
        rw [Std.TreeMap.getElem?_erase, if_neg]
        · exact hother
        · rw [Std.LawfulEqCmp.compare_eq_iff_eq]
          exact Ne.symm hne
      rw [Std.TreeSet.contains_erase] at hset
      simp at hset
    · -- the entries that are left are those of other modules
      intro hlast code m hm
      change (p.robotModulesMap.erase reactCommandCode)[code]? = some m at hm
      show (p.robotModulesSet.erase registered).contains m = true
      rw [Std.TreeMap.getElem?_erase] at hm
      split at hm
      · exact nomatch hm
      · rename_i hne
        rw [Std.LawfulEqCmp.compare_eq_iff_eq] at hne
        have hm' : m ≠ registered := by
          rintro rfl
          exact hlast m rfl code (Ne.symm hne) hm
        rw [contains_erase_of_ne hm', h code m hm]

/-- From a state with the invariant, a call keeps it exactly when it does not unregister
    a code whose module has another one. -/
private theorem registered_step_iff (h : p.Registered) (hstep : registryStep p e = some p') :
    p'.Registered ↔ p.LastCodeOfModule e := by
  cases e with
  | registerReactive reactCommandCode robotModule =>
    obtain rfl := Option.some.inj hstep
    exact ⟨fun _ => trivial, fun _ => registered_registerReactive h _ _⟩
  | register robotModule =>
    obtain rfl := Option.some.inj hstep
    exact ⟨fun _ => trivial, fun _ => registered_register h _⟩
  | unregister robotModule =>
    obtain rfl := Option.some.inj hstep
    exact ⟨fun _ => trivial, fun _ => registered_withoutRobotModule h _⟩
  | unregisterReactive reactCommandCode =>
    obtain rfl := Option.some.inj hstep
    exact registered_unregisterReactive_iff h _
  | unregisterAll =>
    obtain rfl := Option.some.inj hstep
    exact ⟨fun _ => trivial, fun _ => registered_of_empty rfl⟩

/-- Along every run from the empty registry, the invariant holds in all states reached
    exactly when codes are unregistered only as the last code of their module. -/
theorem everyStep_registered_iff (es : List RegistryEvent) :
    EveryStep registryStep (fun _ _ p' => p'.Registered) new es ↔
      EveryStep registryStep (fun p e _ => p.LastCodeOfModule e) new es := by
  have hiff : ∀ p e p', Registered p → True → registryStep p e = some p' →
      (p'.Registered ↔ p.LastCodeOfModule e) :=
    fun p e p' hp _ hstep => registered_step_iff hp hstep
  have hkeep : ∀ p e p', Registered p → True → registryStep p e = some p' →
      p.LastCodeOfModule e → p'.Registered :=
    fun p e p' hp _ hstep => (registered_step_iff hp hstep).mpr
  exact Transition.everyStep_iff_of_invariant hiff hkeep (registered_of_empty rfl)
    (fun _ _ => trivial)

/-- A module reacts to two codes, and the first is unregistered. -/
def firstCodeUnregistered : List RegistryEvent :=
  [.registerReactive motorIdle 1, .registerReactive printMessage 1, .unregisterReactive motorIdle]

/-- The second code still maps to the module, which is no longer in the set. -/
theorem firstCodeUnregistered_not_registered :
    ((Transition.run registryStep new firstCodeUnregistered).map fun p =>
        (p.robotModulesMap[printMessage]?, p.robotModulesSet.contains 1)) =
      some (some 1, false) ∧
    ¬ EveryStep registryStep (fun _ _ p' => p'.Registered) new firstCodeUnregistered := by
  refine ⟨by decide +kernel, fun h => ?_⟩
  obtain ⟨-, h⟩ := h _ rfl
  obtain ⟨-, h⟩ := h _ rfl
  obtain ⟨hregistered, -⟩ := h _ rfl
  have hcontains := hregistered printMessage 1 (by decide +kernel)
  revert hcontains
  decide +kernel

/-! ## Unregistering a module -/

/-- The loop passes over entries of other modules. -/
theorem exec_unregisterRobotModuleLoop (robotModule : RobotModuleAddress)
    {entries : List (UInt32 × RobotModuleAddress)}
    (h : ∀ entry ∈ entries, entry.2 ≠ robotModule) (p : R2CPPacketProcessor) :
    StatefulExcept.exec (unregisterRobotModuleLoop robotModule entries) p = (.ok (), p) := by
  induction entries with
  | nil => rfl
  | cons entry entries ih =>
    obtain ⟨code, registered⟩ := entry
    have hne : robotModule ≠ registered := Ne.symm (h (code, registered) (by simp))
    rw [unregisterRobotModuleLoop, if_neg hne]
    exact ih (fun entry hentry => h entry (by simp [hentry]))

/-- For a module without a reaction code, the source does what `withoutRobotModule` says:
    the module goes from the set, and the map stays as it is. -/
theorem exec_unregisterRobotModule {robotModule : RobotModuleAddress}
    (h : ∀ code : UInt32, p.robotModulesMap[code]? ≠ some robotModule) :
    ∃ p', StatefulExcept.exec (unregisterRobotModule robotModule) p = (.ok (), p') ∧
      p'.robotModulesSet = (p.withoutRobotModule robotModule).robotModulesSet ∧
      ∀ code : UInt32, p'.robotModulesMap[code]? =
        (p.withoutRobotModule robotModule).robotModulesMap[code]? := by
  have hentries : ∀ entry ∈ p.robotModulesMap.toList, entry.2 ≠ robotModule := by
    rintro ⟨code, registered⟩ hentry rfl
    exact h code (Std.TreeMap.mem_toList_iff_getElem?_eq_some.mp hentry)
  refine ⟨{ p with robotModulesSet := p.robotModulesSet.erase robotModule }, ?_, rfl, ?_⟩
  · rw [unregisterRobotModule, StatefulExcept.exec_bind, StatefulExcept.exec_get]
    simp only
    rw [StatefulExcept.exec_bind, exec_unregisterRobotModuleLoop robotModule hentries]
    rfl
  · intro code
    rw [getElem?_withoutRobotModule]
    cases hcode : p.robotModulesMap[code]? with
    | none => rfl
    | some registered =>
      have hne : registered ≠ robotModule := fun heq => h code (by rw [hcode, heq])
      rw [Option.filter_some, if_pos (by simpa using hne)]

/-- The loop does not come past an entry of the module: it erases it, and its iterator is
    not one that can be incremented any more. -/
theorem exec_unregisterRobotModuleLoop_undefined {robotModule : RobotModuleAddress}
    {entries : List (UInt32 × RobotModuleAddress)}
    (h : ∃ entry ∈ entries, entry.2 = robotModule) (p : R2CPPacketProcessor) :
    (StatefulExcept.exec (unregisterRobotModuleLoop robotModule entries) p).1 =
      .error .undefinedBehavior := by
  induction entries with
  | nil => simp at h
  | cons entry entries ih =>
    obtain ⟨code, registered⟩ := entry
    rw [unregisterRobotModuleLoop]
    by_cases heq : robotModule = registered
    · rw [if_pos heq]
      rfl
    · rw [if_neg heq]
      apply ih
      obtain ⟨entry, hentry, hvalue⟩ := h
      cases List.mem_cons.mp hentry with
      | inl hhead =>
        rw [hhead] at hvalue
        exact absurd hvalue.symm heq
      | inr htail => exact ⟨entry, htail, hvalue⟩

/-- Unregistering the module ends normally, with its entries gone from the map, the
    module gone from the set, and all else as it was. -/
def UnregistersExactly (p : R2CPPacketProcessor) (robotModule : RobotModuleAddress) : Prop :=
  ∃ p', StatefulExcept.exec (unregisterRobotModule robotModule) p = (.ok (), p') ∧
    (∀ (code : UInt32) (registered : RobotModuleAddress),
      p'.robotModulesMap[code]? = some registered ↔
        p.robotModulesMap[code]? = some registered ∧ registered ≠ robotModule) ∧
    ∀ other : RobotModuleAddress, p'.robotModulesSet.contains other = true ↔
      p.robotModulesSet.contains other = true ∧ other ≠ robotModule

/-- The set loses this module only. -/
private theorem contains_withoutRobotModule (p : R2CPPacketProcessor)
    (robotModule other : RobotModuleAddress) :
    (p.withoutRobotModule robotModule).robotModulesSet.contains other = true ↔
      p.robotModulesSet.contains other = true ∧ other ≠ robotModule := by
  show (p.robotModulesSet.erase robotModule).contains other = true ↔ _
  by_cases heq : other = robotModule
  · rw [heq, Std.TreeSet.contains_erase]
    simp
  · rw [contains_erase_of_ne heq]
    simp [heq]

/-- Unregistering a module is exact for the modules that no reaction code maps to, and
    for no others. -/
theorem unregistersExactly_iff (p : R2CPPacketProcessor) (robotModule : RobotModuleAddress) :
    p.UnregistersExactly robotModule ↔
      ∀ code : UInt32, p.robotModulesMap[code]? ≠ some robotModule := by
  constructor
  · rintro ⟨p', hexec, -⟩ code hcode
    have hentry : ∃ entry ∈ p.robotModulesMap.toList, entry.2 = robotModule :=
      ⟨(code, robotModule), Std.TreeMap.mem_toList_iff_getElem?_eq_some.mpr hcode, rfl⟩
    have hloop := exec_unregisterRobotModuleLoop_undefined hentry p
    rw [unregisterRobotModule, StatefulExcept.exec_bind, StatefulExcept.exec_get] at hexec
    simp only [StatefulExcept.exec_bind] at hexec
    cases hrun : StatefulExcept.exec
        (unregisterRobotModuleLoop robotModule p.robotModulesMap.toList) p with
    | mk r p₁ =>
      rw [hrun] at hloop hexec
      cases hloop
      cases hexec
  · intro h
    obtain ⟨p', hexec, hset, hmap⟩ := exec_unregisterRobotModule h
    refine ⟨p', hexec, ?_, ?_⟩
    · intro code registered
      rw [hmap, getElem?_withoutRobotModule, Option.filter_eq_some_iff]
      simp
    · intro other
      rw [hset, contains_withoutRobotModule]

/-- A module with one entry. -/
theorem registeredModule_not_unregistersExactly :
    ¬(new.registerReactiveRobotModule motorIdle 1).UnregistersExactly 1 := by
  rintro ⟨p', hexec, -⟩
  have hundefined : (StatefulExcept.exec (unregisterRobotModule 1)
      (new.registerReactiveRobotModule motorIdle 1)).1 = .error .undefinedBehavior := by
    rfl
  rw [hexec] at hundefined
  cases hundefined

end R2CPPacketProcessor

end R2CP
