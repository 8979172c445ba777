import R2CP.ForStd.ExceptState

/-!
# Standard exceptions

The exceptions that the sources throw and catch, with their texts. Handlers in
the sources name one class each, and none of the four derives from another, so
a handler is entered for its own constructor only.
-/

namespace R2CP

/-- The text of an exception: one written in the sources, or the library's own
    text for a failed range check of `std::vector::at`, which names the index
    and the size. -/
inductive What where
  | text (s : String)
  | rangeCheck (index size : Nat)
  deriving DecidableEq, Repr

/-- What can end a computation early. `undefinedBehavior` is not an exception: it
    marks an operation with no defined meaning, such as `back()` on an empty
    vector, and no handler catches it. -/
inductive StdException where
  | invalidArgument (what : What)
  | outOfRange (what : What)
  | overflowError (what : What)
  | underflowError (what : What)
  | undefinedBehavior
  deriving DecidableEq, Repr

namespace StdException

variable {σ α : Type}

/-- `catch(std::invalid_argument &e)`. -/
def onInvalidArgument (handler : What → StatefulExcept StdException σ α) :
    StdException → StatefulExcept StdException σ α
  | .invalidArgument what => handler what
  | e => throw e

/-- `catch(std::out_of_range &e)`. -/
def onOutOfRange (handler : What → StatefulExcept StdException σ α) :
    StdException → StatefulExcept StdException σ α
  | .outOfRange what => handler what
  | e => throw e

/-- `catch(std::overflow_error &e)`. -/
def onOverflowError (handler : What → StatefulExcept StdException σ α) :
    StdException → StatefulExcept StdException σ α
  | .overflowError what => handler what
  | e => throw e

/-- `catch(std::underflow_error &e)`. -/
def onUnderflowError (handler : What → StatefulExcept StdException σ α) :
    StdException → StatefulExcept StdException σ α
  | .underflowError what => handler what
  | e => throw e

/-- What `catch(std::out_of_range &e)` does not catch goes on. -/
theorem onOutOfRange_cases (e : StdException) :
    (∃ what, e = .outOfRange what) ∨
      ∀ {σ α : Type} (handler : What → StatefulExcept StdException σ α),
        onOutOfRange handler e = throw e := by
  cases e with
  | outOfRange what => exact .inl ⟨what, rfl⟩
  | invalidArgument what => exact .inr fun _ => rfl
  | overflowError what => exact .inr fun _ => rfl
  | underflowError what => exact .inr fun _ => rfl
  | undefinedBehavior => exact .inr fun _ => rfl

end StdException

/-- `std::vector::at`. -/
def vectorAt {σ α : Type} (xs : List α) (i : Nat) : StatefulExcept StdException σ α :=
  match xs[i]? with
  | some x => pure x
  | none => throw (.outOfRange (.rangeCheck i xs.length))

/-- A position that the vector has gives its element, -/
theorem vectorAt_of_lt {σ α : Type} {xs : List α} {i : Nat} {x : α} (h : xs[i]? = some x) :
    (vectorAt xs i : StatefulExcept StdException σ α) = pure x := by
  simp only [vectorAt, h]

/-- and any other one an exception with the index and the size. -/
theorem vectorAt_of_le {σ α : Type} {xs : List α} {i : Nat} (h : xs.length ≤ i) :
    (vectorAt xs i : StatefulExcept StdException σ α) =
      throw (.outOfRange (.rangeCheck i xs.length)) := by
  simp only [vectorAt, List.getElem?_eq_none h]

end R2CP
