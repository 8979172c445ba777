import Mathlib

/-!
# Computations that throw and keep their state

`StatefulExcept ε σ α` is a computation on a state `σ` that either returns an
`α` or throws an `ε`. The state is what a throw leaves behind: whatever was
written before the throw stays written, as member variables do when a C++
exception unwinds the stack.

`exec` runs a computation, and `onPart` runs one on a part of a larger state.
`Yields view x v r v'` is the rule-based form the proofs use: from every state
whose `view` is `v`, the computation `x` ends with outcome `r` in a state whose
view is `v'`. The part of the state that `view` forgets (a log, say) influences
neither, and needs no bookkeeping.

`Determined` and `Resets` compare two runs: from equal views, or from any, they end
alike. `outcomes` runs one computation after the other on one state.

`Meets pre x post` is a triple whose postcondition is about the outcome as well, and
`Keeps I x` is the one for an invariant. They are for computations that are not known
in full, where `Yields` asks for too much. `tryCatch_bind_of_returns` moves what never
throws out of a `try`.

## Key results

- `Yields.bind`, `Yields.tryCatch_error` and the other rules: symbolic execution up to a view
- `Determined`, `Resets.outcome_eq`: when two runs have the same outcome
- `Meets.bind`, `Meets.tryCatch`, `Keeps.bind`: pre- and postconditions, and invariants
- `tryCatch_bind_of_returns`: what never throws can be moved out of a `try`
-/

/-- A computation on a state `σ` that can throw an `ε`. The state survives a throw. -/
abbrev StatefulExcept (ε σ α : Type) := ExceptT ε (StateM σ) α

namespace StatefulExcept

variable {ε σ ν α β : Type}

/-- Run a computation: its outcome, and the state it leaves. -/
def exec (x : StatefulExcept ε σ α) (s : σ) : Except ε α × σ := x.run.run s

/-- `pure` returns and leaves the state alone. -/
@[simp] theorem exec_pure (a : α) (s : σ) :
    exec (pure a : StatefulExcept ε σ α) s = (.ok a, s) := rfl

/-- `get` returns the state. -/
@[simp] theorem exec_get (s : σ) : exec (get : StatefulExcept ε σ σ) s = (.ok s, s) := rfl

/-- `modify` changes it. -/
@[simp] theorem exec_modify (f : σ → σ) (s : σ) :
    exec (modify f : StatefulExcept ε σ Unit) s = (.ok (), f s) := rfl

/-- A sequence goes on with what its first part returns, and ends with what it throws. -/
theorem exec_bind (x : StatefulExcept ε σ α) (f : α → StatefulExcept ε σ β) (s : σ) :
    exec (x >>= f) s =
      match exec x s with
      | (.ok a, s') => exec (f a) s'
      | (.error e, s') => (.error e, s') := by
  change (ExceptT.bind x f).run.run s = _
  simp only [exec, ExceptT.bind, ExceptT.run, ExceptT.mk, StateT.run, bind, StateT.bind]
  rcases (x s) with ⟨r, s'⟩
  cases r <;> rfl

/-- A handler is entered with what the body throws, in the state that the throw leaves. -/
theorem exec_tryCatch (x : StatefulExcept ε σ α) (h : ε → StatefulExcept ε σ α) (s : σ) :
    exec (tryCatch x h) s =
      match exec x s with
      | (.ok a, s') => (.ok a, s')
      | (.error e, s') => exec (h e) s' := by
  change (ExceptT.tryCatch x h).run.run s = _
  simp only [exec, ExceptT.tryCatch, ExceptT.run, ExceptT.mk, StateT.run, bind, StateT.bind]
  rcases (x s) with ⟨r, s'⟩
  cases r <;> rfl

/-- A sequence ends with what its first part throws, or goes on from the state that the
    first part leaves. -/
theorem exec_bind_cases (x : StatefulExcept ε σ α) (f : α → StatefulExcept ε σ β) (s : σ) :
    (∃ e s', exec x s = (.error e, s') ∧ exec (x >>= f) s = (.error e, s')) ∨
      ∃ a s', exec x s = (.ok a, s') ∧ exec (x >>= f) s = exec (f a) s' := by
  rw [exec_bind]
  rcases exec x s with ⟨r, s'⟩
  cases r with
  | error e => exact .inl ⟨e, s', rfl, rfl⟩
  | ok a => exact .inr ⟨a, s', rfl, rfl⟩

/-- A handler is not entered, or it runs from the state that the throw leaves. -/
theorem exec_tryCatch_cases (x : StatefulExcept ε σ α) (h : ε → StatefulExcept ε σ α) (s : σ) :
    (∃ e s', exec x s = (.error e, s') ∧ exec (tryCatch x h) s = exec (h e) s') ∨
      ∃ a s', exec x s = (.ok a, s') ∧ exec (tryCatch x h) s = (.ok a, s') := by
  rw [exec_tryCatch]
  rcases exec x s with ⟨r, s'⟩
  cases r with
  | error e => exact .inl ⟨e, s', rfl, rfl⟩
  | ok a => exact .inr ⟨a, s', rfl, rfl⟩

/-! ## Computations on a part of the state -/

/-- Run a computation on one part of a larger state. -/
def onPart {τ : Type} (part : τ → σ) (put : σ → τ → τ) (x : StatefulExcept ε σ α) :
    StatefulExcept ε τ α :=
  fun t => let (r, s) := exec x (part t); (r, put s t)

/-- What happens to the part is put back, also behind a throw. -/
theorem exec_onPart {τ : Type} (part : τ → σ) (put : σ → τ → τ) (x : StatefulExcept ε σ α)
    (t : τ) :
    exec (onPart part put x) t = ((exec x (part t)).1, put (exec x (part t)).2 t) := rfl

/-- From every state seen as `v`, `x` ends with outcome `r` in a state seen as `v'`. -/
def Yields (view : σ → ν) (x : StatefulExcept ε σ α) (v : ν) (r : Except ε α) (v' : ν) : Prop :=
  ∀ s, view s = v → ∃ s', exec x s = (r, s') ∧ view s' = v'

namespace Yields

variable {view : σ → ν} {v v₁ v₂ : ν}

/-- `pure` yields its value and keeps the view. -/
theorem pure (a : α) : Yields (ε := ε) view (pure a) v (.ok a) v :=
  fun s hs => ⟨s, rfl, hs⟩

/-- `throw` yields its exception and keeps the view. -/
theorem throw (e : ε) : Yields (α := α) view (throw e) v (.error e) v :=
  fun s hs => ⟨s, rfl, hs⟩

/-- A normal step is followed by the rest of the program. -/
theorem bind {x : StatefulExcept ε σ α} {f : α → StatefulExcept ε σ β} {a : α}
    {r : Except ε β} (hx : Yields view x v (.ok a) v₁) (hf : Yields view (f a) v₁ r v₂) :
    Yields view (x >>= f) v r v₂ := by
  intro s hs
  obtain ⟨s₁, he₁, hv₁⟩ := hx s hs
  obtain ⟨s₂, he₂, hv₂⟩ := hf s₁ hv₁
  exact ⟨s₂, by rw [exec_bind, he₁]; exact he₂, hv₂⟩

/-- A throwing step abandons the rest of the program. -/
theorem bind_error {x : StatefulExcept ε σ α} {f : α → StatefulExcept ε σ β} {e : ε}
    (hx : Yields view x v (.error e) v₁) : Yields view (x >>= f) v (.error e) v₁ := by
  intro s hs
  obtain ⟨s₁, he₁, hv₁⟩ := hx s hs
  exact ⟨s₁, by rw [exec_bind, he₁], hv₁⟩

/-- A handler is not entered when the body returns. -/
theorem tryCatch_ok {x : StatefulExcept ε σ α} {h : ε → StatefulExcept ε σ α} {a : α}
    (hx : Yields view x v (.ok a) v₁) : Yields view (tryCatch x h) v (.ok a) v₁ := by
  intro s hs
  obtain ⟨s₁, he₁, hv₁⟩ := hx s hs
  exact ⟨s₁, by rw [exec_tryCatch, he₁], hv₁⟩

/-- A handler runs from the state the throw left behind. -/
theorem tryCatch_error {x : StatefulExcept ε σ α} {h : ε → StatefulExcept ε σ α} {e : ε}
    {r : Except ε α} (hx : Yields view x v (.error e) v₁) (hh : Yields view (h e) v₁ r v₂) :
    Yields view (tryCatch x h) v r v₂ := by
  intro s hs
  obtain ⟨s₁, he₁, hv₁⟩ := hx s hs
  obtain ⟨s₂, he₂, hv₂⟩ := hh s₁ hv₁
  exact ⟨s₂, by rw [exec_tryCatch, he₁]; exact he₂, hv₂⟩

/-- A computation on a part, by what it does to the part of every state with the view. -/
theorem onPart {τ : Type} {view : τ → ν} {part : τ → σ} {put : σ → τ → τ}
    {x : StatefulExcept ε σ α} {r : Except ε α}
    (h : ∀ t, view t = v → (exec x (part t)).1 = r ∧ view (put (exec x (part t)).2 t) = v₁) :
    Yields view (onPart part put x) v r v₁ := by
  intro t ht
  obtain ⟨hr, hv⟩ := h t ht
  exact ⟨_, by rw [exec_onPart, hr], hv⟩

/-- The outcome at a concrete state. -/
theorem outcome {x : StatefulExcept ε σ α} {r : Except ε α} (h : Yields view x v r v₁)
    {s : σ} (hs : view s = v) : (exec x s).1 = r := by
  obtain ⟨s', he, _⟩ := h s hs
  rw [he]

/-- The view a concrete run leaves. -/
theorem final {x : StatefulExcept ε σ α} {r : Except ε α} (h : Yields view x v r v₁)
    {s : σ} (hs : view s = v) : view (exec x s).2 = v₁ := by
  obtain ⟨s', he, hv⟩ := h s hs
  rw [he]; exact hv

/-- A computation has one outcome from a view that some state has. -/
theorem unique {x : StatefulExcept ε σ α} {r₁ r₂ : Except ε α} (h₁ : Yields view x v r₁ v₁)
    (h₂ : Yields view x v r₂ v₂) {s : σ} (hs : view s = v) : r₁ = r₂ := by
  rw [← h₁.outcome hs, ← h₂.outcome hs]

end Yields

/-! ## Two runs -/

/-- Two runs from states that look alike have the same outcome, and leave states that look
    alike. -/
def Determined (view : σ → ν) (x : StatefulExcept ε σ α) : Prop :=
  ∀ v, ∃ r v', Yields view x v r v'

namespace Determined

variable {view : σ → ν}

/-- A value is one outcome, -/
theorem pure (a : α) : Determined view (pure a : StatefulExcept ε σ α) :=
  fun v => ⟨.ok a, v, .pure a⟩

/-- and so is an exception. -/
theorem throw (e : ε) : Determined view (throw e : StatefulExcept ε σ α) :=
  fun v => ⟨.error e, v, .throw e⟩

/-- Sequences of determined parts are determined, -/
theorem bind {x : StatefulExcept ε σ α} {f : α → StatefulExcept ε σ β}
    (hx : Determined view x) (hf : ∀ a, Determined view (f a)) : Determined view (x >>= f) := by
  intro v
  obtain ⟨r, v₁, hx⟩ := hx v
  cases r with
  | error e => exact ⟨.error e, v₁, hx.bind_error⟩
  | ok a =>
    obtain ⟨r, v₂, hf⟩ := hf a v₁
    exact ⟨r, v₂, hx.bind hf⟩

/-- and so are handled ones -/
theorem tryCatch {x : StatefulExcept ε σ α} {h : ε → StatefulExcept ε σ α}
    (hx : Determined view x) (hh : ∀ e, Determined view (h e)) :
    Determined view (tryCatch x h) := by
  intro v
  obtain ⟨r, v₁, hx⟩ := hx v
  cases r with
  | ok a => exact ⟨.ok a, v₁, hx.tryCatch_ok⟩
  | error e =>
    obtain ⟨r, v₂, hh⟩ := hh e v₁
    exact ⟨r, v₂, hx.tryCatch_error hh⟩

/-- and choices that the state has no part in. -/
theorem ite {p : Prop} [Decidable p] {x y : StatefulExcept ε σ α} (hx : Determined view x)
    (hy : Determined view y) : Determined view (if p then x else y) := by
  split
  · exact hx
  · exact hy

end Determined

/-- Two runs from any two states have the same outcome, and leave states that look alike. -/
def Resets (view : σ → ν) (x : StatefulExcept ε σ α) : Prop :=
  ∃ r v', ∀ v, Yields view x v r v'

namespace Resets

variable {view : σ → ν}

/-- Behind a step that resets, only what the view decides can follow. -/
theorem bind {x : StatefulExcept ε σ α} {f : α → StatefulExcept ε σ β}
    (hx : Resets view x) (hf : ∀ a, Determined view (f a)) : Resets view (x >>= f) := by
  obtain ⟨r, v₁, hx⟩ := hx
  cases r with
  | error e => exact ⟨.error e, v₁, fun v => (hx v).bind_error⟩
  | ok a =>
    obtain ⟨r, v₂, hf⟩ := hf a v₁
    exact ⟨r, v₂, fun v => (hx v).bind hf⟩

/-- Such a run has one outcome, wherever it starts. -/
theorem outcome_eq {x : StatefulExcept ε σ α} (hx : Resets view x) (s s' : σ) :
    (exec x s).1 = (exec x s').1 := by
  obtain ⟨r, v', hx⟩ := hx
  rw [(hx (view s)).outcome rfl, (hx (view s')).outcome rfl]

end Resets

/-! ## One computation after the other -/

section Outcomes

variable {ι : Type} (call : ι → StatefulExcept ε σ α)

/-- The outcomes of calls on one state. The calls after one that throws are made as well. -/
def outcomes : σ → List ι → List (Except ε α)
  | _, [] => []
  | s, c :: calls => (exec (call c) s).1 :: outcomes (exec (call c) s).2 calls

/-- Calls whose outcomes no state influences do not influence each other. -/
theorem outcomes_eq_map {f : ι → Except ε α} (h : ∀ c s, (exec (call c) s).1 = f c) (s : σ)
    (calls : List ι) : outcomes call s calls = calls.map f := by
  induction calls generalizing s with
  | nil => rfl
  | cons c calls ih => rw [outcomes, List.map_cons, h, ih]

end Outcomes

/-! ## Pre- and postconditions -/

/-- From every state with `pre`, `x` ends with an outcome and in a state that `post`
    allows. -/
def Meets (pre : σ → Prop) (x : StatefulExcept ε σ α) (post : Except ε α → σ → Prop) : Prop :=
  ∀ s, pre s → post (exec x s).1 (exec x s).2

namespace Meets

variable {pre : σ → Prop} {post : Except ε α → σ → Prop} {post' : Except ε β → σ → Prop}

/-- `pure` meets what holds of its value. -/
theorem pure {a : α} (h : ∀ s, pre s → post (.ok a) s) :
    Meets pre (pure a : StatefulExcept ε σ α) post := h

/-- `throw` meets what holds of its exception. -/
theorem throw {e : ε} (h : ∀ s, pre s → post (.error e) s) :
    Meets pre (throw e : StatefulExcept ε σ α) post := h

/-- What the first part allows must let the rest start, or be allowed as an exception. -/
theorem bind {x : StatefulExcept ε σ α} {f : α → StatefulExcept ε σ β} (hx : Meets pre x post)
    (hf : ∀ a, Meets (post (.ok a)) (f a) post')
    (hthrow : ∀ e s, post (.error e) s → post' (.error e) s) : Meets pre (x >>= f) post' := by
  intro s hs
  have hpost := hx s hs
  rcases exec_bind_cases x f s with ⟨e, s', hexec, hbind⟩ | ⟨a, s', hexec, hbind⟩
  · rw [hexec] at hpost
    rw [hbind]
    exact hthrow e s' hpost
  · rw [hexec] at hpost
    rw [hbind]
    exact hf a s' hpost

/-- What the body allows must let the handler start, or be allowed as a result. -/
theorem tryCatch {mid : Except ε α → σ → Prop} {x : StatefulExcept ε σ α}
    {h : ε → StatefulExcept ε σ α} (hx : Meets pre x mid)
    (hh : ∀ e, Meets (mid (.error e)) (h e) post) (hok : ∀ a s, mid (.ok a) s → post (.ok a) s) :
    Meets pre (tryCatch x h) post := by
  intro s hs
  have hpost := hx s hs
  rcases exec_tryCatch_cases x h s with ⟨e, s', hexec, hcatch⟩ | ⟨a, s', hexec, hcatch⟩
  · rw [hexec] at hpost
    rw [hcatch]
    exact hh e s' hpost
  · rw [hexec] at hpost
    rw [hcatch]
    exact hok a s' hpost

end Meets

/-- `x` leaves states with `I` in states with `I`, whatever comes of it. -/
abbrev Keeps (I : σ → Prop) (x : StatefulExcept ε σ α) : Prop := Meets I x fun _ s => I s

namespace Keeps

variable {I : σ → Prop}

/-- Returning keeps everything, -/
theorem pure (a : α) : Keeps I (pure a : StatefulExcept ε σ α) := Meets.pure fun _ hs => hs

/-- and so does throwing. -/
theorem throw (e : ε) : Keeps I (throw e : StatefulExcept ε σ α) := Meets.throw fun _ hs => hs

/-- A change keeps what it keeps of the state. -/
theorem modify {f : σ → σ} (h : ∀ s, I s → I (f s)) :
    Keeps I (modify f : StatefulExcept ε σ Unit) := h

/-- Sequences, -/
theorem bind {x : StatefulExcept ε σ α} {f : α → StatefulExcept ε σ β} (hx : Keeps I x)
    (hf : ∀ a, Keeps I (f a)) : Keeps I (x >>= f) :=
  Meets.bind hx hf fun _ _ hs => hs

/-- handled computations -/
theorem tryCatch {x : StatefulExcept ε σ α} {h : ε → StatefulExcept ε σ α} (hx : Keeps I x)
    (hh : ∀ e, Keeps I (h e)) : Keeps I (tryCatch x h) :=
  Meets.tryCatch hx hh fun _ _ hs => hs

/-- and choices keep what their parts keep. -/
theorem ite {p : Prop} [Decidable p] {x y : StatefulExcept ε σ α} (hx : Keeps I x)
    (hy : Keeps I y) : Keeps I (if p then x else y) := by
  split
  · exact hx
  · exact hy

/-- A computation on a part keeps what does not depend on that part. -/
theorem onPart {τ : Type} {I : τ → Prop} {part : τ → σ} {put : σ → τ → τ}
    {x : StatefulExcept ε σ α} (h : ∀ s t, I t → I (put s t)) : Keeps I (onPart part put x) :=
  fun t ht => h _ t ht

end Keeps

/-! ## Moving the end of a `try` behind it -/

/-- Computations with the same runs are the same. -/
theorem eq_of_exec {x y : StatefulExcept ε σ α} (h : ∀ s, exec x s = exec y s) : x = y :=
  funext h

/-- Nothing comes behind a throw. -/
theorem throw_bind (e : ε) (f : α → StatefulExcept ε σ β) :
    (throw e >>= f : StatefulExcept ε σ β) = throw e := rfl

/-- `x` never throws. -/
def Returns (x : StatefulExcept ε σ α) : Prop := ∀ s, ∃ a s', exec x s = (.ok a, s')

/-- The last part of a `try` can follow it instead, if it never throws and the handlers are
    followed by it as well. -/
theorem tryCatch_bind_of_returns {x : StatefulExcept ε σ α} {k : α → StatefulExcept ε σ β}
    {h : ε → StatefulExcept ε σ β} {h' : ε → StatefulExcept ε σ α} (hk : ∀ a, Returns (k a))
    (hh : ∀ e, h e = h' e >>= k) : tryCatch (x >>= k) h = tryCatch x h' >>= k := by
  apply eq_of_exec
  intro s
  rw [exec_tryCatch, exec_bind, exec_bind, exec_tryCatch]
  rcases exec x s with ⟨e | a, s'⟩
  · -- the handler is entered on both sides
    simp only [hh, exec_bind]
  · obtain ⟨c, s'', hexec⟩ := hk a s'
    simp only [hexec]

end StatefulExcept
