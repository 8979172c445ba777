import Mathlib

/-!
# Runs of a partial step function

`step s e = some s'` says that event `e` is possible in state `s` and leads to
`s'`. `run` performs a list of events; `EveryState` and `EveryStep` state a
property of all states, or of all steps, along such a run up to the first
impossible event.

The rules are the ones a state machine's proofs need: an invariant kept by the
allowed events holds along every run of allowed events, with what it implies of
states and of steps, and a step property that an invariant makes equivalent to a
condition on the state before the step holds along a run exactly when the
condition does. A rank bounds how often events happen that lower it, and how long a
run has to be to a goal that some event always comes closer to. What a system
simulates step by step, it simulates over whole runs.

## Key results

- `everyState_of_invariant`, `everyStep_of_invariant`, `run_invariant`: what an invariant
  implies along a run
- `everyStep_iff_of_invariant`: a step property that an invariant makes equivalent to a
  condition
- `countP_le_of_rank`, `exists_run_of_rank`: what a rank bounds
- `Simulates.exists_run`: a simulation of steps is one of runs
-/

namespace Transition

variable {σ ε : Type} (step : σ → ε → Option σ)

/-- Perform the events in order. -/
def run : σ → List ε → Option σ
  | s, [] => some s
  | s, e :: es => (step s e).bind (run · es)

/-- `P` holds of the first state and of every state after one of the events. -/
def EveryState (P : σ → Prop) : σ → List ε → Prop
  | s, [] => P s
  | s, e :: es => P s ∧ ∀ s', step s e = some s' → EveryState P s' es

/-- `Q` holds of every step, given as state before, event and state after. -/
def EveryStep (Q : σ → ε → σ → Prop) : σ → List ε → Prop
  | _, [] => True
  | s, e :: es => ∀ s', step s e = some s' → Q s e s' ∧ EveryStep Q s' es

variable {step}

/-- An event that has one step. -/
theorem everyStep_cons {Q : σ → ε → σ → Prop} {s s' : σ} {e : ε} {es : List ε}
    (h : step s e = some s') :
    EveryStep step Q s (e :: es) ↔ Q s e s' ∧ EveryStep step Q s' es := by
  constructor
  · exact fun hall => hall s' h
  · rintro hall s'' h'
    obtain rfl := Option.some.inj (h.symm.trans h')
    exact hall

/-- An invariant kept by the allowed events holds in every state of a run of
    allowed events, and so does what it implies. -/
theorem everyState_of_invariant {Inv P : σ → Prop} {allowed : ε → Prop}
    (hstep : ∀ s e s', Inv s → allowed e → step s e = some s' → Inv s')
    (himp : ∀ s, Inv s → P s) {s : σ} (hs : Inv s) {es : List ε}
    (hes : ∀ e ∈ es, allowed e) : EveryState step P s es := by
  induction es generalizing s with
  | nil => exact himp s hs
  | cons e es ih =>
    refine ⟨himp s hs, fun s' hs' => ?_⟩
    exact ih (hstep s e s' hs (hes e (by simp)) hs') (fun e' he' => hes e' (by simp [he']))

/-- What the invariant implies for the allowed steps holds of every step of a run of
    allowed events. -/
theorem everyStep_of_invariant {Inv : σ → Prop} {Q : σ → ε → σ → Prop} {allowed : ε → Prop}
    (hstep : ∀ s e s', Inv s → allowed e → step s e = some s' → Inv s')
    (hq : ∀ s e s', Inv s → allowed e → step s e = some s' → Q s e s') {s : σ} (hs : Inv s)
    {es : List ε} (hes : ∀ e ∈ es, allowed e) : EveryStep step Q s es := by
  induction es generalizing s with
  | nil => trivial
  | cons e es ih =>
    intro s' hs'
    -- the first step, and the run behind it
    have he := hes e (by simp)
    exact ⟨hq s e s' hs he hs', ih (hstep s e s' hs he hs') (fun e' he' => hes e' (by simp [he']))⟩

/-- What holds of the first state and no events, and goes from the events so far to those
    and one more, holds of a run. -/
theorem run_induction {P : List ε → σ → Prop}
    (hstep : ∀ past s e s', P past s → step s e = some s' → P (past ++ [e]) s')
    {past : List ε} {s s' : σ} (hs : P past s) {es : List ε} (hrun : run step s es = some s') :
    P (past ++ es) s' := by
  induction es generalizing past s with
  | nil =>
    obtain rfl := Option.some.inj hrun
    rw [List.append_nil]
    exact hs
  | cons e es ih =>
    obtain ⟨s₁, hs₁, hrun⟩ := Option.bind_eq_some_iff.mp hrun
    have hrest := ih (hstep past s e s₁ hs hs₁) hrun
    rwa [List.append_assoc] at hrest

/-- What every step keeps, a run keeps. -/
theorem run_invariant {Inv : σ → Prop} (hstep : ∀ s e s', Inv s → step s e = some s' → Inv s')
    {s s' : σ} (hs : Inv s) {es : List ε} (hrun : run step s es = some s') : Inv s' := by
  induction es generalizing s with
  | nil =>
    obtain rfl := Option.some.inj hrun
    exact hs
  | cons e es ih =>
    obtain ⟨s₁, hs₁, hrest⟩ := Option.bind_eq_some_iff.mp hrun
    exact ih (hstep s e s₁ hs hs₁) hrest

/-- Under an invariant that `Cond` keeps, a step property equivalent to `Cond`
    holds of all steps of a run exactly when `Cond` does. -/
theorem everyStep_iff_of_invariant {Inv : σ → Prop} {Q : σ → ε → σ → Prop}
    {Cond : σ → ε → Prop} {allowed : ε → Prop}
    (hiff : ∀ s e s', Inv s → allowed e → step s e = some s' → (Q s e s' ↔ Cond s e))
    (hkeep : ∀ s e s', Inv s → allowed e → step s e = some s' → Cond s e → Inv s')
    {s : σ} (hs : Inv s) {es : List ε} (hes : ∀ e ∈ es, allowed e) :
    EveryStep step Q s es ↔ EveryStep step (fun s e _ => Cond s e) s es := by
  induction es generalizing s with
  | nil => exact Iff.rfl
  | cons e es ih =>
    have he := hes e (by simp)
    have hrest : ∀ e' ∈ es, allowed e' := fun e' he' => hes e' (by simp [he'])
    constructor
    · intro h s' hs'
      obtain ⟨hq, htail⟩ := h s' hs'
      -- the condition is what keeps the invariant for the rest
      have hc := (hiff s e s' hs he hs').mp hq
      exact ⟨hc, (ih (hkeep s e s' hs he hs' hc) hrest).mp htail⟩
    · intro h s' hs'
      obtain ⟨hc, htail⟩ := h s' hs'
      exact ⟨(hiff s e s' hs he hs').mpr hc,
        (ih (hkeep s e s' hs he hs' hc) hrest).mpr htail⟩

/-- If every event keeps the rank, and the ones in `paid` lower it, then there are no more
    of these in a run than the rank of the first state. -/
theorem countP_le_of_rank {Inv : σ → Prop} {rank : σ → Nat} {paid : ε → Bool}
    (hstep : ∀ s e s', Inv s → step s e = some s' →
      Inv s' ∧ rank s' + (if paid e then 1 else 0) ≤ rank s)
    {s s' : σ} (hs : Inv s) {es : List ε} (hrun : run step s es = some s') :
    es.countP paid ≤ rank s := by
  induction es generalizing s with
  | nil => exact Nat.zero_le _
  | cons e es ih =>
    obtain ⟨s₁, hs₁, hrest⟩ := Option.bind_eq_some_iff.mp hrun
    obtain ⟨hinv, hle⟩ := hstep s e s₁ hs hs₁
    have htail := ih hinv hrest
    rw [List.countP_cons]
    omega

/-- If from every state outside the goal some event lowers the rank, then the goal is no
    more events away than the rank. -/
theorem exists_run_of_rank {Inv goal : σ → Prop} {rank : σ → Nat}
    (hnext : ∀ s, Inv s → ¬goal s → ∃ e s', step s e = some s' ∧ Inv s' ∧ rank s' < rank s)
    {s : σ} (hs : Inv s) :
    ∃ es s', run step s es = some s' ∧ goal s' ∧ es.length ≤ rank s := by
  induction hrank : rank s using Nat.strong_induction_on generalizing s with
  | _ n ih =>
    -- the induction is on the rank: there already, or one event closer
    by_cases hgoal : goal s
    · exact ⟨[], s, rfl, hgoal, Nat.zero_le _⟩
    · obtain ⟨e, s₁, hs₁, hinv, hlt⟩ := hnext s hs hgoal
      obtain ⟨es, s', hrun, hs', hlen⟩ := ih (rank s₁) (hrank ▸ hlt) hinv rfl
      refine ⟨e :: es, s', ?_, hs', ?_⟩
      · exact Option.bind_eq_some_iff.mpr ⟨s₁, hs₁, hrun⟩
      · rw [List.length_cons]
        omega

/-! ## Simulation -/

/-- A run can be cut anywhere. -/
theorem run_append {s s₁ s' : σ} {es es' : List ε} (h : run step s es = some s₁)
    (h' : run step s₁ es' = some s') : run step s (es ++ es') = some s' := by
  induction es generalizing s with
  | nil =>
    obtain rfl := Option.some.inj h
    exact h'
  | cons e es ih =>
    obtain ⟨s₂, hs₂, hrest⟩ := Option.bind_eq_some_iff.mp h
    exact Option.bind_eq_some_iff.mpr ⟨s₂, hs₂, ih hrest⟩

/-- Every step of one system is matched by a run of another, from related states to related
    states. What is observed of the events is the same. -/
def Simulates {τ ε' ω : Type} (step : σ → ε → Option σ) (step' : τ → ε' → Option τ)
    (observed : ε → List ω) (observed' : ε' → List ω) (R : σ → τ → Prop) : Prop :=
  ∀ s e s' t, R s t → step s e = some s' →
    ∃ es t', run step' t es = some t' ∧ es.flatMap observed' = observed e ∧ R s' t'

/-- Then every run is matched, by the runs of its steps one after the other. -/
theorem Simulates.exists_run {τ ε' ω : Type} {step' : τ → ε' → Option τ}
    {observed : ε → List ω} {observed' : ε' → List ω} {R : σ → τ → Prop}
    (hsim : Simulates step step' observed observed' R) {s s' : σ} {t : τ} (ht : R s t)
    {es : List ε} (hrun : run step s es = some s') :
    ∃ es' t', run step' t es' = some t' ∧ es'.flatMap observed' = es.flatMap observed ∧
      R s' t' := by
  induction es generalizing s t with
  | nil =>
    obtain rfl := Option.some.inj hrun
    exact ⟨[], t, rfl, rfl, ht⟩
  | cons e es ih =>
    obtain ⟨s₁, hs₁, hrest⟩ := Option.bind_eq_some_iff.mp hrun
    obtain ⟨es₁, t₁, hrun₁, hobserved₁, ht₁⟩ := hsim s e s₁ t ht hs₁
    obtain ⟨es₂, t', hrun₂, hobserved₂, ht'⟩ := ih ht₁ hrest
    refine ⟨es₁ ++ es₂, t', run_append hrun₁ hrun₂, ?_, ht'⟩
    rw [List.flatMap_append, List.flatMap_cons, hobserved₁, hobserved₂]

end Transition
