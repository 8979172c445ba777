import R2CP.ForStd.Transition

/-!
# Linearizability

What an object does when its operations run alone is `apply`: the result of an
operation and the state it leaves. Threads that use the object at the same time
call an operation and later get a result, and other threads can call and get theirs
in between; a history is the order of all these calls and returns.

A history is linearizable if every operation takes effect at one moment between its
call and its return (`Linearizes`). An `Atomic` object does so by construction: it
is called, performs an operation in a step of its own, and returns the result. A
system is linearizable if each of its steps can be followed by steps of an atomic
object with the same calls and returns (`exists_atomicRun`, `AtomicRun.linearizes`).

## Key results

- `AtomicRun.linearizes`: an atomic object is linearizable by construction
- `exists_atomicRun`: a system whose steps an atomic object can follow is as well
-/

namespace Linearizability

variable {α ι κ ρ : Type}

/-! ## Histories -/

/-- What is seen of an object: thread `i` calls an operation, or gets its result. -/
inductive Action (ι κ ρ : Type) where
  | call (i : ι) (op : κ)
  | ret (i : ι) (result : ρ)
  deriving DecidableEq, Repr

/-- An operation that has taken effect. -/
structure Effect (ι κ ρ : Type) where
  thread : ι
  op : κ
  result : ρ
  deriving DecidableEq, Repr

/-- The effects one after the other from `a` lead to `a'`, with these results. -/
def Legal (apply : α → κ → ρ × α) : α → List (Effect ι κ ρ) → α → Prop
  | a, [], a' => a = a'
  | a, e :: effects, a' => (apply a e.op).1 = e.result ∧ Legal apply (apply a e.op).2 effects a'

section Projections

variable [DecidableEq ι]

/-- The operations that thread `i` has called. -/
def calls (i : ι) (history : List (Action ι κ ρ)) : List κ :=
  history.filterMap fun
    | .call j op => if j = i then some op else none
    | .ret _ _ => none

/-- The results that thread `i` has got. -/
def returns (i : ι) (history : List (Action ι κ ρ)) : List ρ :=
  history.filterMap fun
    | .call _ _ => none
    | .ret j result => if j = i then some result else none

/-- The operations of thread `i` that have taken effect. -/
def ops (i : ι) (effects : List (Effect ι κ ρ)) : List κ :=
  (effects.filter (·.thread = i)).map Effect.op

/-- The results of the operations of thread `i` that have taken effect. -/
def results (i : ι) (effects : List (Effect ι κ ρ)) : List ρ :=
  (effects.filter (·.thread = i)).map Effect.result

/-! One more call, result or effect. -/

/-- A call is one more call of its thread. -/
@[simp] theorem calls_concat_call (i j : ι) (op : κ) (history : List (Action ι κ ρ)) :
    calls i (history ++ [.call j op]) = calls i history ++ if j = i then [op] else [] := by
  by_cases h : j = i <;> simp [calls, h]

/-- A return is no call. -/
@[simp] theorem calls_concat_ret (i j : ι) (result : ρ) (history : List (Action ι κ ρ)) :
    calls i (history ++ [.ret j result]) = calls i history := by
  simp [calls]

/-- A call returns nothing. -/
@[simp] theorem returns_concat_call (i j : ι) (op : κ) (history : List (Action ι κ ρ)) :
    returns i (history ++ [.call j op]) = returns i history := by
  simp [returns]

/-- A return is one more result of its thread. -/
@[simp] theorem returns_concat_ret (i j : ι) (result : ρ) (history : List (Action ι κ ρ)) :
    returns i (history ++ [.ret j result]) =
      returns i history ++ if j = i then [result] else [] := by
  by_cases h : j = i <;> simp [returns, h]

/-- An effect is one more operation of its thread, -/
@[simp] theorem ops_concat (i : ι) (e : Effect ι κ ρ) (effects : List (Effect ι κ ρ)) :
    ops i (effects ++ [e]) = ops i effects ++ if e.thread = i then [e.op] else [] := by
  by_cases h : e.thread = i <;> simp [ops, h]

/-- and one more result. -/
@[simp] theorem results_concat (i : ι) (e : Effect ι κ ρ) (effects : List (Effect ι κ ρ)) :
    results i (effects ++ [e]) = results i effects ++ if e.thread = i then [e.result] else [] := by
  by_cases h : e.thread = i <;> simp [results, h]

/-- The history from `a` is that of these effects one after the other, in an order that
    fits it: at every moment, what has returned has taken effect, with the result that it
    has returned, and what has taken effect has been called. -/
structure Linearizes (apply : α → κ → ρ × α) (a : α) (history : List (Action ι κ ρ))
    (effects : List (Effect ι κ ρ)) (a' : α) : Prop where
  legal : Legal apply a effects a'
  timely (past : List (Action ι κ ρ)) : past <+: history → ∃ done, done <+: effects ∧
    ∀ i, returns i past <+: results i done ∧ ops i done <+: calls i past

end Projections

/-- What an operation does to the last state is one more legal effect. -/
theorem legal_concat {apply : α → κ → ρ × α} {a a' : α} {effects : List (Effect ι κ ρ)}
    (h : Legal apply a effects a') (i : ι) (op : κ) :
    Legal apply a (effects ++ [⟨i, op, (apply a' op).1⟩]) (apply a' op).2 := by
  induction effects generalizing a with
  | nil =>
    obtain rfl := h
    exact ⟨rfl, rfl⟩
  | cons e effects ih => exact ⟨h.1, ih h.2⟩

/-! ## Atomic objects -/

/-- Where a thread is with an atomic object. -/
inductive Status (κ ρ : Type) where
  | idle
  | called (op : κ)
  | performed (result : ρ)

namespace Status

/-- The operation that has not taken effect yet. -/
def waiting : Status κ ρ → List κ
  | .idle => []
  | .called op => [op]
  | .performed _ => []

/-- The result that has not been returned yet. -/
def owed : Status κ ρ → List ρ
  | .idle => []
  | .called _ => []
  | .performed result => [result]

end Status

/-- An object whose operations take effect in one step. -/
structure Atomic (α ι κ ρ : Type) where
  state : α
  status : ι → Status κ ρ

variable [DecidableEq ι]

/-- `AtomicRun apply x history effects y`: the atomic object `x` can become `y`, seen as
    `history` from the outside and with these effects, in the order they are taken. -/
inductive AtomicRun (apply : α → κ → ρ × α) (x : Atomic α ι κ ρ) :
    List (Action ι κ ρ) → List (Effect ι κ ρ) → Atomic α ι κ ρ → Prop
  | refl : AtomicRun apply x [] [] x
  | call {history : List (Action ι κ ρ)} {effects : List (Effect ι κ ρ)} {y : Atomic α ι κ ρ}
    (h : AtomicRun apply x history effects y) (i : ι) (op : κ) (hidle : y.status i = .idle) :
    AtomicRun apply x (history ++ [.call i op]) effects
      ⟨y.state, Function.update y.status i (.called op)⟩
  | perform {history : List (Action ι κ ρ)} {effects : List (Effect ι κ ρ)} {y : Atomic α ι κ ρ}
    (h : AtomicRun apply x history effects y) (i : ι) (op : κ) (hcalled : y.status i = .called op) :
    AtomicRun apply x history (effects ++ [⟨i, op, (apply y.state op).1⟩])
      ⟨(apply y.state op).2, Function.update y.status i (.performed (apply y.state op).1)⟩
  | ret {history : List (Action ι κ ρ)} {effects : List (Effect ι κ ρ)} {y : Atomic α ι κ ρ}
    (h : AtomicRun apply x history effects y) (i : ι) (result : ρ)
    (hperformed : y.status i = .performed result) :
    AtomicRun apply x (history ++ [.ret i result]) effects
      ⟨y.state, Function.update y.status i .idle⟩

namespace AtomicRun

variable {apply : α → κ → ρ × α} {x y z : Atomic α ι κ ρ} {history history' : List (Action ι κ ρ)}
  {effects effects' : List (Effect ι κ ρ)}

/-- Runs can be put together. -/
theorem trans (h : AtomicRun apply x history effects y)
    (h' : AtomicRun apply y history' effects' z) :
    AtomicRun apply x (history ++ history') (effects ++ effects') z := by
  induction h' with
  | refl => simpa only [List.append_nil] using h
  | call _ i op hidle ih =>
    rw [← List.append_assoc]
    exact ih.call i op hidle
  | perform _ i op hcalled ih =>
    rw [← List.append_assoc]
    exact ih.perform i op hcalled
  | ret _ i result hperformed ih =>
    rw [← List.append_assoc]
    exact ih.ret i result hperformed

/-- The effects of a run are what the object does when its operations run alone. -/
theorem legal (h : AtomicRun apply x history effects y) :
    Legal apply x.state effects y.state := by
  induction h with
  | refl => rfl
  | call _ _ _ _ ih => exact ih
  | perform _ i op _ ih => exact legal_concat ih i op
  | ret _ _ _ _ ih => exact ih

/-- A thread's calls are its effects and the call that waits for its own; the results of
    the effects are what it has got and the one it has yet to get. -/
theorem accounts (h : AtomicRun apply x history effects y) (hidle : ∀ i, x.status i = .idle)
    (i : ι) : calls i history = ops i effects ++ (y.status i).waiting ∧
      results i effects = returns i history ++ (y.status i).owed := by
  induction h with
  | refl => simp [calls, returns, ops, results, hidle, Status.waiting, Status.owed]
  | @call history effects y _ j op hj ih =>
    obtain ⟨hcalls, hresults⟩ := ih
    by_cases hij : j = i
    · -- the thread itself: what it waited for is called now
      -- its operation takes effect, and its result is owed
      -- and here the result is returned
      subst hij
      rw [hj, Status.waiting, List.append_nil] at hcalls
      rw [hj] at hresults
      simp [hcalls, hresults, Status.waiting, Status.owed]
    · simp [hcalls, hresults, hij, Function.update_of_ne (Ne.symm hij)]
  | @perform history effects y _ j op hj ih =>
    obtain ⟨hcalls, hresults⟩ := ih
    by_cases hij : j = i
    · subst hij
      rw [hj] at hcalls
      rw [hj, Status.owed, List.append_nil] at hresults
      simp [hcalls, hresults, Status.waiting, Status.owed]
    · simp [hcalls, hresults, hij, Function.update_of_ne (Ne.symm hij)]
  | @ret history effects y _ j result hj ih =>
    obtain ⟨hcalls, hresults⟩ := ih
    by_cases hij : j = i
    · subst hij
      rw [hj] at hcalls hresults
      simp [hcalls, hresults, Status.waiting, Status.owed]
    · simp [hcalls, hresults, hij, Function.update_of_ne (Ne.symm hij)]

/-- Now, what has returned has taken effect, and what has taken effect has been called. -/
theorem timely_now (h : AtomicRun apply x history effects y) (hidle : ∀ i, x.status i = .idle)
    (i : ι) : returns i history <+: results i effects ∧ ops i effects <+: calls i history := by
  obtain ⟨hcalls, hresults⟩ := h.accounts hidle i
  rw [hcalls, hresults]
  exact ⟨List.prefix_append _ _, List.prefix_append _ _⟩

/-- It was so at every moment before. -/
theorem timely (h : AtomicRun apply x history effects y) (hidle : ∀ i, x.status i = .idle)
    (past : List (Action ι κ ρ)) (hpast : past <+: history) : ∃ done, done <+: effects ∧
      ∀ i, returns i past <+: results i done ∧ ops i done <+: calls i past := by
  induction h with
  | refl =>
    obtain rfl := List.prefix_nil.mp hpast
    exact ⟨[], List.prefix_refl _, fun _ => ⟨List.prefix_refl _, List.prefix_refl _⟩⟩
  | call h i op hi ih =>
    -- the moment is now, or it was before the call
    rcases List.prefix_concat_iff.mp hpast with rfl | hpast
    · exact ⟨_, List.prefix_refl _, (h.call i op hi).timely_now hidle⟩
    · exact ih hpast
  | perform h i op hi ih =>
    -- nothing is seen of an effect, so the moment was before
    obtain ⟨done, hdone, htimely⟩ := ih hpast
    exact ⟨done, hdone.trans (List.prefix_append _ _), htimely⟩
  | ret h i result hi ih =>
    rcases List.prefix_concat_iff.mp hpast with rfl | hpast
    · exact ⟨_, List.prefix_refl _, (h.ret i result hi).timely_now hidle⟩
    · exact ih hpast

/-- The effects of an atomic object linearize what is seen of it. -/
theorem linearizes (h : AtomicRun apply x history effects y) (hidle : ∀ i, x.status i = .idle) :
    Linearizes apply x.state history effects y.state :=
  ⟨h.legal, h.timely hidle⟩

end AtomicRun

/-! ## Simulation -/

section Simulation

variable {σ ε : Type} (step : σ → ε → Option σ) (actions : σ → ε → σ → List (Action ι κ ρ))

/-- What is seen along a run, up to the first impossible event. -/
def history : σ → List ε → List (Action ι κ ρ)
  | _, [] => []
  | s, e :: es =>
    match step s e with
    | some s' => actions s e s' ++ history s' es
    | none => []

variable {step actions} {apply : α → κ → ρ × α}

/-- If each step of the allowed events between states with `P` is followed by an atomic
    object, then so is a run of such steps. -/
theorem exists_atomicRun {R : σ → Atomic α ι κ ρ → Prop} {P : σ → Prop} {allowed : ε → Prop}
    (hstep : ∀ s x e s', R s x → P s → allowed e → step s e = some s' →
      ∃ effects y, AtomicRun apply x (actions s e s') effects y ∧ R s' y)
    {s s' : σ} {x : Atomic α ι κ ρ} (hR : R s x) {es : List ε}
    (hrun : Transition.run step s es = some s') (hes : ∀ e ∈ es, allowed e)
    (hP : Transition.EveryState step P s es) :
    ∃ effects y, AtomicRun apply x (history step actions s es) effects y ∧ R s' y := by
  induction es generalizing s x with
  | nil =>
    obtain rfl := Option.some.inj hrun
    exact ⟨[], x, .refl, hR⟩
  | cons e es ih =>
    obtain ⟨s₁, hs₁, hrun⟩ := Option.bind_eq_some_iff.mp hrun
    -- the atomic object follows the first step, and from there the rest
    obtain ⟨effects₁, x₁, hx₁, hR₁⟩ := hstep s x e s₁ hR hP.1 (hes e (by simp)) hs₁
    obtain ⟨effects, y, hy, hR'⟩ := ih hR₁ hrun (fun e' he' => hes e' (by simp [he']))
      (hP.2 s₁ hs₁)
    refine ⟨effects₁ ++ effects, y, ?_, hR'⟩
    simp only [history, hs₁]
    exact hx₁.trans hy

end Simulation

end Linearizability
