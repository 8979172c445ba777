import R2CP.ForStd.Transition
import R2CP.Spec.ValidatorCorrect

/-!
# Progress of the validator's parameter loop

A round of the loop in `validateParameterizedCommandContent` should take the offset
over one parameter, so that the rounds are bounded by the content and not by the
count that the content announces. The skip over the data has no bounds check, so a
round makes this progress exactly when the size that it reads fits what is left.

## Key results

- `loopProgresses_iff_sizesFit`: all rounds make progress exactly when all sizes fit
- `loopMakesRounds`: the loop of the source makes the rounds that this is about
- `standingContent_not_progresses`: twelve bytes that keep the loop busy for all its count
-/

namespace R2CP.R2CPParser

open StatefulExcept (exec Yields)
open Transition (EveryStep)

/-! ## Rounds -/

/-- One round that does not end the loop. -/
def parameterRound (c : List UInt8) (s : R2CPParser) (_ : Unit) : Option R2CPParser :=
  match exec (validateParameter c) s with
  | (.ok true, s') => some s'
  | _ => none

/-- How often the body of the loop runs, with at most `rounds` times to go. -/
def bodyRuns (c : List UInt8) : (rounds : Nat) → R2CPParser → Nat
  | 0, _ => 0
  | rounds + 1, s =>
    match parameterRound c s () with
    | some s' => 1 + bodyRuns c rounds s'
    | none => 1

/-- What the function does before the loop. -/
def enterParameterLoop (c : List UInt8) : Parser (Option UInt32) := do
  pushOffset 0
  readParametersCount? c

/-- What it does from there on: the loop, if there is a count for it, and the test of the
    end. -/
def leaveParameterLoop (c : List UInt8) (parametersCount? : Option UInt32) : Parser Bool := do
  let isR2CPPacketValid ← match parametersCount? with
    | some parametersCount => validateParameterLoop c parametersCount.toNat
    | none => pure false
  let isEndReached ←
    if isR2CPPacketValid then checkIfR2CPPacketEndIsReached c else pure false
  popOffset
  pure isEndReached

/-- The loop of the source, with `rounds` of them to go, makes the rounds of
    `parameterRound`: it says yes when all of them are made, and no when one ends it. -/
def LoopMakesRounds (c : List UInt8) (rounds : Nat) (s : R2CPParser) : Prop :=
  (∃ s', Transition.run (parameterRound c) s (List.replicate rounds ()) = some s' ∧
    exec (validateParameterLoop c rounds) s = (.ok true, s')) ∨
  (Transition.run (parameterRound c) s (List.replicate rounds ()) = none ∧
    (exec (validateParameterLoop c rounds) s).1 = .ok false)

/-- The round took the top offset exactly over code, size and data of a parameter, and no
    further than the content goes. -/
def TakesParameter (c : List UInt8) (s s' : R2CPParser) : Prop :=
  ∃ o o' size stack, s.parsingOffsetStack = o :: stack ∧ s'.parsingOffsetStack = o' :: stack ∧
    c.readUInt32BE? (o + 4).toNat = some size ∧
    o'.toNat = o.toNat + 8 + size.toNat ∧ o'.toNat ≤ c.length

/-- The size that the next round reads, if it can read one, is no more than what is left. -/
def NextSizeFits (c : List UInt8) (s : R2CPParser) : Prop :=
  ∀ o stack size, s.parsingOffsetStack = o :: stack →
    c.readUInt32BE? (o + 4).toNat = some size → o.toNat + 8 + size.toNat ≤ c.length

section

variable {c : List UInt8} {s s' : R2CPParser} {o : UInt32} {stack : List UInt32}

/-- What a round can do: read a size and add up modulo `2 ^ 32`, or end the loop. -/
private theorem parameterRound_cases (hlt : c.length < 2 ^ 32)
    (hs : s.parsingOffsetStack = o :: stack) :
    (∃ size s', c.readUInt32BE? (o + 4).toNat = some size ∧ parameterRound c s () = some s' ∧
      s'.parsingOffsetStack = (o + 4 + 4 + size) :: stack) ∨
    (c.readUInt32BE? (o + 4).toNat = none ∧ parameterRound c s () = none) := by
  cases validateParameter_cases hlt o stack with
  | inl hround =>
    obtain ⟨size, hsize, hround⟩ := hround
    obtain ⟨s', hexec, hs'⟩ := hround s hs
    exact .inl ⟨size, s', hsize, by simp only [parameterRound, hexec], hs'⟩
  | inr hround =>
    obtain ⟨hnone, stack', hround, -⟩ := hround
    obtain ⟨s', hexec, -⟩ := hround s hs
    exact .inr ⟨hnone, by simp only [parameterRound, hexec]⟩

/-- The loop of the source makes these rounds, from every state with a frame for it. -/
theorem loopMakesRounds (hlt : c.length < 2 ^ 32) (rounds : Nat)
    (hs : s.parsingOffsetStack = o :: stack) : LoopMakesRounds c rounds s := by
  unfold LoopMakesRounds
  -- on the rounds; each that does not end the loop leaves the frame on top
  induction rounds generalizing s o with
  | zero => exact .inl ⟨s, rfl, rfl⟩
  | succ rounds ih =>
    cases validateParameter_cases hlt o stack with
    | inl hround =>
      obtain ⟨size, -, hround⟩ := hround
      obtain ⟨s', hexec, hs'⟩ := hround s hs
      have hstep : parameterRound c s () = some s' := by
        simp only [parameterRound, hexec]
      simp only [validateParameterLoop, StatefulExcept.exec_bind, hexec, List.replicate_succ,
        Transition.run, hstep, Option.bind_some, if_true]
      exact ih hs'
    | inr hround =>
      obtain ⟨-, stack', hround, -⟩ := hround
      obtain ⟨s', hexec, -⟩ := hround s hs
      have hstep : parameterRound c s () = none := by
        simp only [parameterRound, hexec]
      simp only [validateParameterLoop, StatefulExcept.exec_bind, hexec, List.replicate_succ,
        Transition.run, hstep, Option.bind_none]
      exact .inr ⟨trivial, rfl⟩

/-- A round is exact when the size that it reads fits, and only then. -/
private theorem takesParameter_iff (hlt : c.length < 2 ^ 32)
    (hs : s.parsingOffsetStack = o :: stack)
    (hround : parameterRound c s () = some s') : TakesParameter c s s' ↔ NextSizeFits c s := by
  cases parameterRound_cases hlt hs with
  | inr hends => rw [hends.2] at hround; cases hround
  | inl hcontinues =>
    obtain ⟨size, s'', hsize, hround', hs'⟩ := hcontinues
    rw [hround'] at hround
    cases hround
    -- the offset after the round, in 32 bits
    have hsum : (o + 4 + 4 + size).toNat = (o.toNat + 8 + size.toNat) % 2 ^ 32 := by
      have h4 : (4 : UInt32).toNat = 4 := rfl
      rw [UInt32.toNat_add, UInt32.toNat_add, UInt32.toNat_add, h4]
      omega
    constructor
    · rintro ⟨o₁, o₁', size₁, stack₁, hs₁, hs₁', hsize₁, hexact, hle⟩ o₂ stack₂ size₂ hs₂ hsize₂
      rw [hs] at hs₁ hs₂
      cases hs₁
      cases hs₂
      rw [hsize₁] at hsize₂
      cases hsize₂
      omega
    · intro hfits
      have hle := hfits o stack size hs hsize
      refine ⟨o, _, size, stack, hs, hs', hsize, ?_, ?_⟩
      · rw [hsum]
        exact Nat.mod_eq_of_lt (by omega)
      · rw [hsum, Nat.mod_eq_of_lt (by omega)]
        exact hle

/-- Rounds that take parameters are at least eight bytes apart. -/
private theorem bodyRuns_le (rounds : Nat) (hs : s.parsingOffsetStack = o :: stack)
    (h : EveryStep (parameterRound c) (fun s _ s' => TakesParameter c s s') s
      (List.replicate rounds ())) :
    bodyRuns c rounds s ≤ (c.length - o.toNat) / 8 + 1 := by
  induction rounds generalizing s o stack with
  | zero => exact Nat.zero_le _
  | succ rounds ih =>
    rw [bodyRuns]
    cases hround : parameterRound c s () with
    | none => simp
    | some s' =>
      obtain ⟨⟨o₁, o', size, stack₁, hs₁, hs', -, hexact, hle⟩, hrest⟩ := h s' hround
      rw [hs] at hs₁
      cases hs₁
      have := ih hs' hrest
      simp only
      omega

end

/-! ## The whole loop -/

/-- From where the loop begins: the source makes these rounds, each that does not end the
    loop takes a parameter, and there are no more of them than parameters can fit. -/
structure RoundsProgress (c : List UInt8) (rounds : Nat) (s : R2CPParser) : Prop where
  loop : LoopMakesRounds c rounds s
  takes : EveryStep (parameterRound c) (fun s _ s' => TakesParameter c s s') s
    (List.replicate rounds ())
  bounded : bodyRuns c rounds s ≤ c.length / 8 + 1

/-- The function enters its loop with a count, or without one, and from every count on all
    rounds make progress. -/
structure LoopProgresses (c : List UInt8) (s : R2CPParser) : Prop where
  function : validateParameterizedCommandContent c =
    enterParameterLoop c >>= leaveParameterLoop c
  rounds (count : UInt32) (s₀ : R2CPParser)
    (henter : exec (enterParameterLoop c) s = (.ok (some count), s₀)) :
    RoundsProgress c count.toNat s₀

/-- Every size that the loop reads is no more than what is left. -/
def SizesFit (c : List UInt8) (s : R2CPParser) : Prop :=
  ∀ count s₀, exec (enterParameterLoop c) s = (.ok (some count), s₀) →
    EveryStep (parameterRound c) (fun s _ _ => NextSizeFits c s) s₀
      (List.replicate count.toNat ())

/-- The loop begins behind the count. -/
private theorem parsingOffsetStack_of_enterParameterLoop {c : List UInt8} (hlt : c.length < 2 ^ 32)
    {s s₀ : R2CPParser} {count : UInt32}
    (h : exec (enterParameterLoop c) s = (.ok (some count), s₀)) :
    s₀.parsingOffsetStack = 4 :: s.parsingOffsetStack := by
  cases readParametersCount?_cases hlt s.parsingOffsetStack with
  | inl hread =>
    obtain ⟨count', -, hread⟩ := hread
    have henter : Yields parsingOffsetStack (enterParameterLoop c) s.parsingOffsetStack
        (.ok (some count')) (4 :: s.parsingOffsetStack) := pushOffset_yields.bind hread
    have hfinal := henter.final rfl
    rw [h] at hfinal
    exact hfinal
  | inr hread =>
    obtain ⟨-, stack', hread, -⟩ := hread
    have henter : Yields parsingOffsetStack (enterParameterLoop c) s.parsingOffsetStack
        (.ok none) stack' := pushOffset_yields.bind hread
    have houtcome := henter.outcome rfl
    rw [h] at houtcome
    cases houtcome

/-- What the function does before its loop, and then the rest. -/
theorem validateParameterizedCommandContent_eq (c : List UInt8) :
    validateParameterizedCommandContent c =
      enterParameterLoop c >>= leaveParameterLoop c := by
  simp only [validateParameterizedCommandContent, enterParameterLoop, bind_assoc]
  rfl

/-- The loop makes progress on a content exactly when every size that it reads fits. -/
theorem loopProgresses_iff_sizesFit {c : List UInt8} (hlt : c.length < 2 ^ 32) (s : R2CPParser) :
    LoopProgresses c s ↔ SizesFit c s := by
  -- all rounds start with a frame of the loop on top
  let Inv : R2CPParser → Prop := fun s => ∃ o stack, s.parsingOffsetStack = o :: stack
  have hiff : ∀ s e s', Inv s → True → parameterRound c s e = some s' →
      (TakesParameter c s s' ↔ NextSizeFits c s) := by
    rintro s ⟨⟩ s' ⟨o, stack, hs⟩ - hround
    exact takesParameter_iff hlt hs hround
  have hkeep : ∀ s e s', Inv s → True → parameterRound c s e = some s' →
      NextSizeFits c s → Inv s' := by
    rintro s ⟨⟩ s' ⟨o, stack, hs⟩ - hround hfits
    obtain ⟨-, o', -, stack', -, hs', -⟩ := (takesParameter_iff hlt hs hround).mpr hfits
    exact ⟨o', stack', hs'⟩
  constructor
  · intro h count s₀ henter
    have hs₀ := parsingOffsetStack_of_enterParameterLoop hlt henter
    exact (Transition.everyStep_iff_of_invariant hiff hkeep ⟨_, _, hs₀⟩ (fun _ _ => trivial)).mp
      (h.rounds count s₀ henter).takes
  · intro h
    refine ⟨validateParameterizedCommandContent_eq c, fun count s₀ henter => ?_⟩
    have hs₀ := parsingOffsetStack_of_enterParameterLoop hlt henter
    have hprogress := (Transition.everyStep_iff_of_invariant hiff hkeep ⟨_, _, hs₀⟩
      (fun _ _ => trivial)).mpr (h count s₀ henter)
    have hruns := bodyRuns_le count.toNat hs₀ hprogress
    exact ⟨loopMakesRounds hlt count.toNat hs₀, hprogress, by omega⟩

/-- Two parameters without data. -/
theorem twoEmptyParameters_progresses_iff :
    LoopProgresses [0, 0, 0, 2, 0, 0, 0, 1, 0, 0, 0, 0, 0, 0, 0, 2, 0, 0, 0, 0] new ↔
      SizesFit [0, 0, 0, 2, 0, 0, 0, 1, 0, 0, 0, 0, 0, 0, 0, 2, 0, 0, 0, 0] new :=
  loopProgresses_iff_sizesFit (by decide) new

/-- The count `2 ^ 32 - 1`, and a parameter of the size `2 ^ 32 - 8`. -/
def standingContent : List UInt8 := [0xFF, 0xFF, 0xFF, 0xFF, 0, 0, 0, 1, 0xFF, 0xFF, 0xFF, 0xF8]

/-- Every round ends with the offset with which it began. -/
private theorem bodyRuns_standingContent (rounds : Nat) {s : R2CPParser} {stack : List UInt32}
    (hs : s.parsingOffsetStack = 4 :: stack) : bodyRuns standingContent rounds s = rounds := by
  induction rounds generalizing s with
  | zero => rfl
  | succ rounds ih =>
    cases parameterRound_cases (c := standingContent) (by decide) hs with
    | inl hcontinues =>
      obtain ⟨size, s', hsize, hround, hs'⟩ := hcontinues
      have hsize' : standingContent.readUInt32BE? ((4 : UInt32) + 4).toNat = some 4294967288 := by
        decide
      rw [hsize'] at hsize
      cases hsize
      rw [bodyRuns, hround]
      simp only
      rw [ih hs']
      omega
    | inr hends =>
      exact absurd hends.1 (by decide)

/-- The offset stands still, and the body runs as often as the count says. -/
theorem standingContent_not_progresses :
    (∀ s, s.parsingOffsetStack = [4] →
      bodyRuns standingContent 4294967295 s = 4294967295) ∧
    ¬LoopProgresses standingContent new := by
  refine ⟨fun s hs => bodyRuns_standingContent _ hs, fun h => ?_⟩
  have hruns := (h.rounds 4294967295 ⟨[4], []⟩ (by rfl)).bounded
  rw [show (4294967295 : UInt32).toNat = 4294967295 from rfl,
    bodyRuns_standingContent 4294967295 rfl] at hruns
  revert hruns
  decide

end R2CP.R2CPParser
