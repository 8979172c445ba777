import R2CP.Spec.ParserEntries

/-!
# Exactness of the readers

A reader should return its bytes exactly when they are there, and change nothing but
the top of the offset stack; otherwise it should throw and change nothing at all. The
first half holds at every offset. The second half is lost where the offset and the
number of bytes wrap to a position inside the vector: the guard lets the read begin,
and `at` throws while the frame is off the stack. `readers_exact_iff` says that this is
the only case.

## Key results

- `readers_exact_iff`: exactly when each reader does what it should
-/

namespace R2CP.R2CPParser

open StatefulExcept (exec Yields)

/-! ## What a reader should do -/

/-- At offset `o`, with `s` below it on the stack, `x` reads `n` bytes: it returns exactly
    when they are there, then with these bytes and the offset moved on, and otherwise it
    throws `std::out_of_range` and leaves the state as it was. -/
structure ReadsExactly {α : Type} (x : Parser α) (bytesOf : α → List UInt8) (b : List UInt8)
    (o n : UInt32) (s : List UInt32) (log : List LogEntry) : Prop where
  returns : (∃ a, (exec x ⟨o :: s, log⟩).1 = .ok a) ↔ o.toNat + n.toNat ≤ b.length
  returned (a : α) : (exec x ⟨o :: s, log⟩).1 = .ok a →
    bytesOf a = (b.drop o.toNat).take n.toNat ∧
      (exec x ⟨o :: s, log⟩).2 = ⟨(o + n) :: s, log⟩ ∧ (o + n).toNat = o.toNat + n.toNat
  thrown : b.length < o.toNat + n.toNat →
    ∃ what, exec x ⟨o :: s, log⟩ = (.error (.outOfRange what), ⟨o :: s, log⟩)

/-- The sum of the offset and the number of bytes wraps to a position inside the vector,
    or to its end. -/
def WrapsInto (b : List UInt8) (o n : UInt32) : Prop :=
  2 ^ 32 ≤ o.toNat + n.toNat ∧ o.toNat + n.toNat - 2 ^ 32 ≤ b.length

/-! ## What a reader does -/

/-- The three ends of a read of `n` bytes. -/
structure Reader {α : Type} (x : Parser α) (bytesOf : α → List UInt8) (b : List UInt8)
    (n : UInt32) : Prop where
  silent : Silent x
  reads {o : UInt32} {data rest : List UInt8} (s : List UInt32)
    (h : StandsBefore b o (data ++ rest))
    (hn : data.length = n.toNat) :
    ∃ a, Yields parsingOffsetStack x (o :: s) (.ok a) ((o + n) :: s) ∧ bytesOf a = data
  guarded {o : UInt32} (s : List UInt32) (hguard : ¬ o + n ≤ UInt32.ofNat b.length) :
    Yields parsingOffsetStack x (o :: s) (.error noBytesLeft) (o :: s)
  wrapped {o : UInt32} (s : List UInt32) (h : Short b o n)
    (hguard : o + n ≤ UInt32.ofNat b.length) :
    ∃ what, Yields parsingOffsetStack x (o :: s) (.error (.outOfRange what)) s

/-- The bytes as they are. -/
private theorem reader_readBytesFromR2CPPacket {b : List UInt8} (hlt : b.length < 2 ^ 32)
    (n : UInt32) :
    Reader (readBytesFromR2CPPacket b n) id b n where
  silent := (logging_readBytesFromR2CPPacket b n).anyError
  reads _ h hn := ⟨_, readBytesFromR2CPPacket_yields h hn, rfl⟩
  guarded _ hguard := readBytesFromR2CPPacket_guarded hguard
  wrapped _ h hguard := readBytesFromR2CPPacket_wrapped h hguard hlt

/-- Four bytes, as a number. -/
private theorem reader_readR2CPPacketAsUInt32 {b : List UInt8} (hlt : b.length < 2 ^ 32) :
    Reader (readR2CPPacketAsUInt32 b) UInt32.toBytesBE b 4 where
  silent := (logging_readR2CPPacketAsUInt32 b).anyError
  reads {o data rest} s h hn := by
    -- four bytes are those of a word
    have h4 : 4 ≤ data.length := by
      rw [hn]
      decide
    obtain ⟨v, more, rfl⟩ := UInt32.exists_toBytesBE_append h4
    obtain rfl : more = [] := by
      rw [List.length_append, UInt32.length_toBytesBE] at hn
      apply List.eq_nil_of_length_eq_zero
      rw [show (4 : UInt32).toNat = 4 from rfl] at hn
      omega
    rw [List.append_nil] at h ⊢
    exact ⟨v, readR2CPPacketAsUInt32_yields h, rfl⟩
  guarded _ hguard := readR2CPPacketAsUInt32_guarded hguard
  wrapped _ h hguard := readR2CPPacketAsUInt32_wrapped h hguard hlt

section

variable {α : Type} {x : Parser α} {bytesOf : α → List UInt8} {b : List UInt8} {o n : UInt32}

/-- What a computation without entries does to the stack is all that it does. -/
theorem Silent.exec_eq {v v' : List UInt32} {r : Except StdException α} (hx : Silent x)
    (h : Yields parsingOffsetStack x v r v') (log : List LogEntry) :
    exec x ⟨v, log⟩ = (r, ⟨v', log⟩) := by
  obtain ⟨s', hexec, hstate⟩ := hx.withLog h log ⟨v, log⟩ rfl
  obtain ⟨stack, log'⟩ := s'
  cases hstate
  exact hexec

/-- The guard compares the sum modulo `2 ^ 32`. -/
theorem guard_iff (hlt : b.length < 2 ^ 32) :
    o + n ≤ UInt32.ofNat b.length ↔ (o.toNat + n.toNat) % 2 ^ 32 ≤ b.length := by
  rw [UInt32.le_iff_toNat_le, UInt32.toNat_add, UInt32.toNat_ofNat_length hlt]

/-- Bytes that are there. -/
private theorem exists_standsBefore (hlt : b.length < 2 ^ 32) (h : o.toNat + n.toNat ≤ b.length) :
    ∃ rest, StandsBefore b o ((b.drop o.toNat).take n.toNat ++ rest) ∧
      ((b.drop o.toNat).take n.toNat).length = n.toNat := by
  refine ⟨(b.drop o.toNat).drop n.toNat, ⟨?_, ?_⟩, ?_⟩
  · rw [visible_of_lt hlt]
    omega
  · rw [visible_of_lt hlt, List.take_append_drop]
  · rw [List.length_take, List.length_drop]
    omega

/-- With all bytes there, a reader is exact. -/
private theorem Reader.exact_of_le (hx : Reader x bytesOf b n) (hlt : b.length < 2 ^ 32)
    (h : o.toNat + n.toNat ≤ b.length) (s : List UInt32) (log : List LogEntry) :
    ReadsExactly x bytesOf b o n s log := by
  obtain ⟨rest, hat, hlen⟩ := exists_standsBefore hlt h
  obtain ⟨a, hy, hbytes⟩ := hx.reads s hat hlen
  have hexec := hx.silent.exec_eq hy log
  constructor
  · rw [hexec]
    exact ⟨fun _ => h, fun _ => ⟨a, rfl⟩⟩
  · intro a' ha'
    rw [hexec] at ha' ⊢
    cases ha'
    exact ⟨hbytes, rfl, hat.toNat_add hlen⟩
  · intro hshort
    omega

/-- A reader that throws with its frame back is exact. -/
private theorem Reader.exact_of_guarded (hx : Reader x bytesOf b n)
    (hguard : ¬ o + n ≤ UInt32.ofNat b.length) (h : b.length < o.toNat + n.toNat)
    (s : List UInt32) (log : List LogEntry) : ReadsExactly x bytesOf b o n s log := by
  have hexec := hx.silent.exec_eq (hx.guarded s hguard) log
  constructor
  · rw [hexec]
    constructor
    · rintro ⟨a, ha⟩
      cases ha
    · intro hle
      omega
  · intro a ha
    rw [hexec] at ha
    cases ha
  · intro _
    exact ⟨_, hexec⟩

/-- A reader whose sum wraps into the vector loses its frame. -/
private theorem Reader.not_exact_of_wrapsInto (hx : Reader x bytesOf b n) (hlt : b.length < 2 ^ 32)
    (h : WrapsInto b o n) (s : List UInt32) (log : List LogEntry) :
    ¬ReadsExactly x bytesOf b o n s log := by
  obtain ⟨hwraps, hinto⟩ := h
  have ho := o.toNat_lt
  have hn := n.toNat_lt
  have hshort : Short b o n := by
    unfold Short
    omega
  have hguard : o + n ≤ UInt32.ofNat b.length := by
    rw [guard_iff hlt]
    omega
  obtain ⟨what, hy⟩ := hx.wrapped s hshort hguard
  have hexec := hx.silent.exec_eq hy log
  intro hexact
  obtain ⟨what', hthrown⟩ := hexact.thrown hshort
  rw [hexec] at hthrown
  -- one stack would be its own tail
  have hstack := congrArg (fun end' => end'.2.parsingOffsetStack.length) hthrown
  simp only [List.length_cons] at hstack
  omega

/-- A reader is exact exactly where its sum does not wrap into the vector. -/
private theorem Reader.exact_iff (hx : Reader x bytesOf b n) (hlt : b.length < 2 ^ 32)
    (s : List UInt32) (log : List LogEntry) :
    ReadsExactly x bytesOf b o n s log ↔ ¬WrapsInto b o n := by
  constructor
  · intro hexact hwraps
    exact hx.not_exact_of_wrapsInto hlt hwraps s log hexact
  · intro hno
    by_cases hle : o.toNat + n.toNat ≤ b.length
    · exact hx.exact_of_le hlt hle s log
    · apply hx.exact_of_guarded ?_ (by omega)
      have ho := o.toNat_lt
      have hn := n.toNat_lt
      rw [guard_iff hlt]
      unfold WrapsInto at hno
      omega

end

/-! ## Both readers -/

/-- The two readers are exact, for every vector, stack and number of bytes, exactly at the
    offsets from which the bytes do not wrap into the vector. -/
theorem readers_exact_iff {b : List UInt8} (hlt : b.length < 2 ^ 32) (o n : UInt32)
    (s : List UInt32) (log : List LogEntry) :
    (ReadsExactly (readBytesFromR2CPPacket b n) id b o n s log ↔ ¬WrapsInto b o n) ∧
      (ReadsExactly (readR2CPPacketAsUInt32 b) UInt32.toBytesBE b o 4 s log ↔
        ¬WrapsInto b o 4) := by
  constructor
  · exact (reader_readBytesFromR2CPPacket hlt n).exact_iff hlt s log
  · exact (reader_readR2CPPacketAsUInt32 hlt).exact_iff hlt s log

/-- A content of two parameters, the first with a size that moves the validator to the
    offset `2 ^ 32 - 8`. -/
def farContent : List UInt8 := [0, 0, 0, 2, 0, 0, 0, 1, 0xff, 0xff, 0xff, 0xec]

/-- Both readers, on a vector that is shorter than what they should read. -/
theorem farContent_exact_iff :
    (ReadsExactly (readBytesFromR2CPPacket farContent 8) id farContent 4 8 [] [] ↔
        ¬WrapsInto farContent 4 8) ∧
      (ReadsExactly (readR2CPPacketAsUInt32 farContent) UInt32.toBytesBE farContent 4 4 [] [] ↔
        ¬WrapsInto farContent 4 4) :=
  readers_exact_iff (by decide) 4 8 [] []

/-- Behind the code of the second parameter the size is read at `2 ^ 32 - 4`, and the
    frame is lost. -/
theorem farContent_not_exact :
    exec (readR2CPPacketAsUInt32 farContent) ⟨[0xfffffffc, 8], []⟩ =
      (.error (.outOfRange (.rangeCheck 0xfffffffc 12)), ⟨[8], []⟩) ∧
    ¬ReadsExactly (readR2CPPacketAsUInt32 farContent) UInt32.toBytesBE farContent 0xfffffffc 4
      [8] [] := by
  constructor
  · rfl
  · apply (reader_readR2CPPacketAsUInt32 (by decide)).not_exact_of_wrapsInto (by decide)
    constructor <;> decide

end R2CP.R2CPParser
