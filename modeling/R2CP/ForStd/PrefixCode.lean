import Mathlib

/-!
# Prefix codes

A set of words is prefix-free if none of its words goes on to another one. Whoever reads
such words from a stream knows where each of them ends, so the set is uniquely
decodable.

## Key results

- `Set.PrefixFree.append_inj`: the first word of a stream is determined
- `Set.PrefixFree.uniquelyDecodable`: so is every word of it
-/

namespace Set

variable {α : Type}

/-- No word begins another one. -/
def PrefixFree (S : Set (List α)) : Prop :=
  ∀ w ∈ S, ∀ w' ∈ S, w <+: w' → w = w'

/-- The first word of a stream is determined, and with it the rest. -/
theorem PrefixFree.append_inj {S : Set (List α)} (h : S.PrefixFree) {w w' xs xs' : List α}
    (hw : w ∈ S) (hw' : w' ∈ S) (heq : w ++ xs = w' ++ xs') : w = w' ∧ xs = xs' := by
  have hsame : w = w' := by
    -- of two beginnings of one stream, one begins the other
    rcases List.prefix_or_prefix_of_prefix ⟨xs, heq⟩ ⟨xs', rfl⟩ with hle | hle
    · exact h w hw w' hw' hle
    · exact (h w' hw' w hw hle).symm
  subst hsame
  exact ⟨rfl, List.append_cancel_left heq⟩

/-- A prefix-free set without the empty word is uniquely decodable: word by word, the first one is
    determined and the rest is a shorter stream. -/
theorem PrefixFree.uniquelyDecodable {S : Set (List α)} (h : S.PrefixFree) (hnil : [] ∉ S) :
    InformationTheory.UniquelyDecodable S := by
  intro ws
  induction ws with
  | nil =>
    intro ws' _ hws' heq
    cases ws' with
    | nil => rfl
    | cons w' ws' =>
      -- an empty stream has no word in it
      rw [List.flatten_nil, List.flatten_cons] at heq
      have hempty := (List.append_eq_nil_iff.mp heq.symm).1
      exact absurd (hempty ▸ hws' w' List.mem_cons_self) hnil
  | cons w ws ih =>
    intro ws' hws hws' heq
    cases ws' with
    | nil =>
      rw [List.flatten_nil, List.flatten_cons] at heq
      have hempty := (List.append_eq_nil_iff.mp heq).1
      exact absurd (hempty ▸ hws w List.mem_cons_self) hnil
    | cons w' ws' =>
      rw [List.flatten_cons, List.flatten_cons] at heq
      obtain ⟨rfl, hrest⟩ := h.append_inj (hws w List.mem_cons_self) (hws' w' List.mem_cons_self)
        heq
      rw [ih ws' (fun x hx => hws x (List.mem_cons_of_mem _ hx))
        (fun x hx => hws' x (List.mem_cons_of_mem _ hx)) hrest]

end Set
