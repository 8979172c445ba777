import Mathlib

/-!
# List lemmas for the standard library

Generic lemmas about lists that are related element by element, and about the elements of
a list that have a property.

## Key results

- `exists_first_not`: the first element that does not satisfy a property
- `exists_forall₂`, `sublistForall₂_reduceOption`: elementwise choices and partial results
-/

namespace List

/-- A list that does not satisfy `P` throughout has a first element that does not. -/
theorem exists_first_not {α : Type} {P : α → Prop} {xs : List α} (h : ¬ ∀ x ∈ xs, P x) :
    ∃ before x after, xs = before ++ x :: after ∧ (∀ y ∈ before, P y) ∧ ¬ P x := by
  induction xs with
  | nil => exact absurd (by simp) h
  | cons x xs ih =>
    -- either the head is the one, or it is further on
    by_cases hx : P x
    · have hxs : ¬ ∀ y ∈ xs, P y := fun hxs => h (by simpa using ⟨hx, hxs⟩)
      obtain ⟨before, y, after, rfl, hbefore, hy⟩ := ih hxs
      exact ⟨x :: before, y, after, rfl, by simpa using ⟨hx, hbefore⟩, hy⟩
    · exact ⟨[], x, xs, rfl, by simp, hx⟩

/-- Elementwise choices make a related list. -/
theorem exists_forall₂ {α β : Type} {R : α → β → Prop} {xs : List α}
    (h : ∀ x ∈ xs, ∃ y, R x y) : ∃ ys, Forall₂ R xs ys := by
  induction xs with
  | nil => exact ⟨[], .nil⟩
  | cons x xs ih =>
    obtain ⟨y, hy⟩ := h x (by simp)
    obtain ⟨ys, hys⟩ := ih (fun z hz => h z (by simp [hz]))
    exact ⟨y :: ys, .cons hy hys⟩

/-- Every element of the second list is related to one of the first. -/
theorem Forall₂.exists_of_mem_right {α β : Type} {R : α → β → Prop} {xs : List α} {ys : List β}
    (h : Forall₂ R xs ys) {y : β} (hy : y ∈ ys) : ∃ x ∈ xs, R x y := by
  induction h with
  | nil => cases hy
  | @cons x y' xs ys hxy _ ih =>
    cases hy with
    | head => exact ⟨x, by simp, hxy⟩
    | tail _ hy =>
      obtain ⟨x', hx', hR⟩ := ih hy
      exact ⟨x', by simp [hx'], hR⟩

/-- The results that are there belong, in order, to some of the elements. -/
theorem sublistForall₂_reduceOption {α β : Type} {R : α → Option β → Prop} {xs : List α}
    {ys : List (Option β)} (h : Forall₂ R xs ys) :
    SublistForall₂ (fun y x => R x (some y)) ys.reduceOption xs := by
  induction h with
  | nil => exact .nil
  | @cons x y xs ys hxy _ ih =>
    cases y with
    | none =>
      rw [reduceOption_cons_of_none]
      exact .cons_right ih
    | some y =>
      rw [reduceOption_cons_of_some]
      exact .cons hxy ih

/-- All but the last: the first one too if others follow. -/
theorem forall_mem_dropLast_cons {α : Type} {P : α → Prop} {x : α} {xs : List α} :
    (∀ y ∈ (x :: xs).dropLast, P y) ↔ (xs ≠ [] → P x) ∧ ∀ y ∈ xs.dropLast, P y := by
  cases xs with
  | nil => simp
  | cons x' xs => rw [dropLast_cons_cons, forall_mem_cons, forall_prop_of_true (cons_ne_nil _ _)]

end List
