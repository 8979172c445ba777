import R2CP.Spec.ParserCursor

/-!
# Entries that a computation logs

`Logging` keeps track of the entries of a computation, and of what it can throw into
a handler that logs it. For a computation without entries `Logging.withLog` takes what
it does to the stack over to `stackAndLog`, the stack together with the log.

## Key results

- `Logging.withLog`: what a computation does to the stack, it does to the stack and the log
- `logging_readR2CPPacketAsUInt32` and the others: the readers log nothing
-/

namespace R2CP.R2CPParser

open StatefulExcept (exec Yields)
open R2CPCommandDictionary (getInstance)

/-! ## Entries of a computation -/

/-- All entries that `x` logs satisfy `P`, and all exceptions that it throws satisfy `E`. -/
def Logging {α : Type} (P : LogEntry → Prop) (E : StdException → Prop) (x : Parser α) : Prop :=
  ∀ s, (∃ logged, (exec x s).2.log = s.log ++ logged ∧ ∀ entry ∈ logged, P entry) ∧
    ∀ e, (exec x s).1 = .error e → E e

namespace Logging

variable {α β : Type} {P : LogEntry → Prop} {E E' : StdException → Prop}

/-- Returning logs nothing, -/
theorem pure (a : α) : Logging P E (pure a) := by
  intro s
  refine ⟨⟨[], (List.append_nil _).symm, by simp⟩, fun e he => ?_⟩
  cases he

/-- throwing what is allowed logs nothing either, -/
theorem throw {e : StdException} (he : E e) : Logging P E (throw e : Parser α) := by
  intro s
  refine ⟨⟨[], (List.append_nil _).symm, by simp⟩, fun e' he' => ?_⟩
  cases he'
  exact he

/-- An update of the stack. -/
theorem modify (f : List UInt32 → List UInt32) :
    Logging P E (modify fun s => { s with parsingOffsetStack := f s.parsingOffsetStack }) := by
  intro s
  refine ⟨⟨[], (List.append_nil _).symm, by simp⟩, fun e he => ?_⟩
  cases he

/-- and nor does looking at the state. -/
theorem get : Logging P E (get : Parser R2CPParser) := by
  intro s
  refine ⟨⟨[], (List.append_nil _).symm, by simp⟩, fun e he => ?_⟩
  cases he

/-- An allowed entry may be logged. -/
theorem writeLog {entry : LogEntry} (h : P entry) : Logging P E (writeLog entry) := by
  intro s
  refine ⟨⟨[entry], rfl, by simpa using h⟩, fun e he => ?_⟩
  cases he

/-- Entries behind entries. -/
private theorem logged_trans {log₀ log₁ log₂ : List LogEntry}
    (h : ∃ logged, log₁ = log₀ ++ logged ∧ ∀ entry ∈ logged, P entry)
    (h' : ∃ logged, log₂ = log₁ ++ logged ∧ ∀ entry ∈ logged, P entry) :
    ∃ logged, log₂ = log₀ ++ logged ∧ ∀ entry ∈ logged, P entry := by
  obtain ⟨logged, rfl, hP⟩ := h
  obtain ⟨logged', rfl, hP'⟩ := h'
  exact ⟨logged ++ logged', List.append_assoc _ _ _, List.forall_mem_append.mpr ⟨hP, hP'⟩⟩

/-- One computation after the other. -/
theorem bind {x : Parser α} {f : α → Parser β} (hx : Logging P E x)
    (hf : ∀ a, Logging P E (f a)) : Logging P E (x >>= f) := by
  intro s
  obtain ⟨hlogged, hE⟩ := hx s
  rcases StatefulExcept.exec_bind_cases x f s with ⟨e, s', hexec, hbind⟩ | ⟨a, s', hexec, hbind⟩
  · rw [hexec] at hlogged hE
    rw [hbind]
    refine ⟨hlogged, fun e' he' => ?_⟩
    cases he'
    exact hE e rfl
  · rw [hexec] at hlogged
    rw [hbind]
    obtain ⟨hlogged', hE'⟩ := hf a s'
    exact ⟨logged_trans hlogged hlogged', hE'⟩

/-- A handler is entered with what the body throws. -/
theorem tryCatch {x : Parser α} {handler : StdException → Parser α} (hx : Logging P E x)
    (hh : ∀ e, E e → Logging P E' (handler e)) : Logging P E' (tryCatch x handler) := by
  intro s
  obtain ⟨hlogged, hE⟩ := hx s
  rcases StatefulExcept.exec_tryCatch_cases x handler s with
    ⟨e, s', hexec, hcatch⟩ | ⟨a, s', hexec, hcatch⟩
  · rw [hexec] at hlogged hE
    rw [hcatch]
    obtain ⟨hlogged', hE'⟩ := hh e (hE e rfl) s'
    exact ⟨logged_trans hlogged hlogged', hE'⟩
  · rw [hexec] at hlogged
    rw [hcatch]
    refine ⟨hlogged, fun e he => ?_⟩
    cases he

/-- Less can be said about the exceptions. -/
theorem anyError {x : Parser α} (hx : Logging P E x) : Logging P (fun _ => True) x :=
  fun s => ⟨(hx s).1, fun _ _ => trivial⟩

/-- A choice logs what its branches log. -/
theorem ite {p : Prop} [Decidable p] {x y : Parser α} (hx : Logging P E x) (hy : Logging P E y) :
    Logging P E (if p then x else y) := by
  split
  · exact hx
  · exact hy

end Logging

/-! ## The readers -/

/-- What a reader throws. -/
def ReaderError (e : StdException) : Prop :=
  e = noBytesLeft ∨ (∃ i n, e = .outOfRange (.rangeCheck i n)) ∨ e = .undefinedBehavior

section Readers

variable {P : LogEntry → Prop}

/-- The stack operations -/
theorem logging_pushOffset (o : UInt32) : Logging P ReaderError (pushOffset o) :=
  .modify (o :: ·)

/-- log nothing, -/
private theorem logging_backOffset : Logging P ReaderError backOffset := by
  refine .bind .get fun s => ?_
  cases s.parsingOffsetStack with
  | nil => exact .throw (.inr (.inr rfl))
  | cons o stack => exact .pure o

/-- each of them -/
theorem logging_popOffset : Logging P ReaderError popOffset := by
  refine .bind .get fun s => ?_
  cases s.parsingOffsetStack with
  | nil => exact .throw (.inr (.inr rfl))
  | cons o stack => exact .modify fun _ => stack

/-- on its own, -/
theorem logging_clearOffsets : Logging P ReaderError clearOffsets :=
  .modify fun _ => []

/-- and `at` does not either. -/
private theorem logging_vectorAt (b : List UInt8) (i : Nat) :
    Logging P ReaderError (vectorAt b i : Parser UInt8) := by
  unfold vectorAt
  cases b[i]? with
  | none => exact .throw (.inr (.inl ⟨i, b.length, rfl⟩))
  | some x => exact .pure x

/-- Nor does reading a word, -/
theorem logging_readR2CPPacketAsUInt32 (b : List UInt8) :
    Logging P ReaderError (readR2CPPacketAsUInt32 b) := by
  refine .bind logging_backOffset fun o => .bind logging_popOffset fun _ => .ite ?_ ?_
  · refine .bind (logging_vectorAt b _) fun _ => .bind (logging_vectorAt b _) fun _ => ?_
    refine .bind (logging_vectorAt b _) fun _ => .bind (logging_vectorAt b _) fun _ => ?_
    exact .bind (logging_pushOffset _) fun _ => .pure _
  · exact .bind (logging_pushOffset o) fun _ => .throw (.inl rfl)

/-- copying bytes -/
private theorem logging_readBytesLoop (b : List UInt8) (o : UInt32) (rounds : Nat) (i : UInt32)
    (acc : List UInt8) : Logging P ReaderError (readBytesLoop b o rounds i acc) := by
  induction rounds generalizing i acc with
  | zero => exact .pure acc
  | succ rounds ih => exact .bind (logging_vectorAt b _) fun x => ih (i + 1) (acc ++ [x])

/-- or reading them. -/
theorem logging_readBytesFromR2CPPacket (b : List UInt8) (n : UInt32) :
    Logging P ReaderError (readBytesFromR2CPPacket b n) := by
  refine .bind logging_backOffset fun o => .bind logging_popOffset fun _ => .ite ?_ ?_
  · exact .bind (logging_readBytesLoop b o _ 0 []) fun _ =>
      .bind (logging_pushOffset _) fun _ => .pure _
  · exact .bind (logging_pushOffset o) fun _ => .throw (.inl rfl)

/-- A skip logs nothing, -/
theorem logging_skipBytesFromR2CPPacket (n : UInt32) :
    Logging P ReaderError (skipBytesFromR2CPPacket n) :=
  .bind logging_backOffset fun _ => .bind logging_popOffset fun _ => logging_pushOffset _

/-- and neither does the test for the end. -/
theorem logging_checkIfR2CPPacketEndIsReached (b : List UInt8) :
    Logging P ReaderError (checkIfR2CPPacketEndIsReached b) :=
  .bind logging_backOffset fun _ => .pure _

end Readers

/-! ## Computations without entries -/

/-- Nothing is logged. -/
def Silent {α : Type} (x : Parser α) : Prop := Logging (fun _ => False) (fun _ => True) x

/-- The loop over the parameters is silent, -/
private theorem silent_parseParameterLoop (c : List UInt8) (codes : Std.TreeSet UInt32)
    (rounds : Nat)
    (parameters : List R2CPParameter) :
    Silent (parseParameterLoop c codes rounds parameters) := by
  induction rounds generalizing parameters with
  | zero => exact .pure _
  | succ rounds ih =>
    refine .bind (logging_readR2CPPacketAsUInt32 c).anyError fun code => .ite ?_ (.pure _)
    refine .bind (logging_readR2CPPacketAsUInt32 c).anyError fun size => ?_
    exact .bind (logging_readBytesFromR2CPPacket c size).anyError fun data => ih _

/-- so a parameterized content is parsed silently: -/
theorem silent_parseParameterizedCommandContent (code : UInt32) (c : List UInt8) :
    Silent (parseParameterizedCommandContent code c) := by
  refine .bind (logging_pushOffset 0).anyError fun _ => ?_
  refine .bind (logging_readR2CPPacketAsUInt32 c).anyError fun count => ?_
  refine .bind (silent_parseParameterLoop c _ count.toNat []) fun parsed => ?_
  obtain ⟨parameters, invalidParameterParsed⟩ := parsed
  refine .bind logging_popOffset.anyError fun _ => ?_
  cases invalidParameterParsed with
  | some parameterCode => exact .throw trivial
  | none => exact .pure parameters

/-- a foreign code is thrown, and logged further out. -/
theorem silent_parseCommandContent (code : UInt32) (c : List UInt8) :
    Silent (parseCommandContent code c) := by
  unfold parseCommandContent
  cases getInstance.getCommandContentType code with
  | directContent => exact .pure _
  | noContent => exact .pure _
  | parameterizedContent =>
    refine .tryCatch (silent_parseParameterizedCommandContent code c) fun e _ => ?_
    -- caught or not, an exception is thrown
    cases e <;> exact .throw trivial

/-! ## The stack together with the log -/

/-- All of the parser's state. -/
def stackAndLog (s : R2CPParser) : List UInt32 × List LogEntry := (s.parsingOffsetStack, s.log)

section

variable {α : Type} {x : Parser α} {v v' : List UInt32} {r : Except StdException α}

/-- What logs nothing leaves every log as it is. -/
theorem Logging.withLog {E : StdException → Prop} (hx : Logging (fun _ => False) E x)
    (h : Yields parsingOffsetStack x v r v') (log : List LogEntry) :
    Yields stackAndLog x (v, log) r (v', log) := by
  intro s hs
  obtain ⟨hstack, hlog⟩ := Prod.mk.inj hs
  obtain ⟨s', he, hv⟩ := h s hstack
  obtain ⟨logged, hlogged, hnone⟩ := (hx s).1
  obtain rfl := List.eq_nil_iff_forall_not_mem.mpr hnone
  rw [he, List.append_nil] at hlogged
  exact ⟨s', he, Prod.ext hv (hlogged.trans hlog)⟩

/-- Only `writeLog` adds an entry. -/
theorem writeLog_withLog (entry : LogEntry) (log : List LogEntry) :
    Yields stackAndLog (writeLog entry) (v, log) (.ok ()) (v, log ++ [entry]) := by
  intro s hs
  obtain ⟨hstack, hlog⟩ := Prod.mk.inj hs
  exact ⟨_, rfl, Prod.ext hstack (congrArg (· ++ [entry]) hlog)⟩

/-- From every log there is one log to end with. -/
theorem exists_withLog (h : Yields parsingOffsetStack x v r v') (log : List LogEntry) :
    ∃ log', Yields stackAndLog x (v, log) r (v', log') := by
  obtain ⟨s', he, hv⟩ := h ⟨v, log⟩ rfl
  refine ⟨s'.log, fun s hs => ?_⟩
  obtain ⟨stack, log⟩ := s
  cases hs
  exact ⟨s', he, Prod.ext hv rfl⟩

/-- Whatever the log does, the stack is the same. -/
theorem yields_of_withLog (h : ∀ log, ∃ log', Yields stackAndLog x (v, log) r (v', log')) :
    Yields parsingOffsetStack x v r v' := by
  intro s hs
  obtain ⟨log', hy⟩ := h s.log
  obtain ⟨s', he, hv⟩ := hy s (Prod.ext hs rfl)
  exact ⟨s', he, congrArg Prod.fst hv⟩

end

end R2CP.R2CPParser
