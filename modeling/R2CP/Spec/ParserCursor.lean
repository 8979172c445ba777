import R2CP.ForStd.Tlv
import R2CP.Native.Parser

/-!
# What the readers of the parser do

The readers move the offset on top of `parsingOffsetStack`. `StandsBefore b o rest`
says that offset `o` stands before the bytes `rest` of `b`; a reader that finds
its bytes there returns them and moves on, and one that does not throws
`std::out_of_range`.

The 32-bit length test is exact: a sum that wraps passes the guard of a reader,
but then `std::vector::at` throws, after the frame was taken off the stack. So a
failing reader leaves the stack as it was or one frame shorter, and nothing else.

The readers see a vector through its 32-bit length; `visible b` is the part of
`b` that they can reach, which is all of `b` below `2 ^ 32` bytes.

## Key results

- `readR2CPPacketAsUInt32_yields`, `readBytesFromR2CPPacket_yields`: readers that find their
  bytes
- `StandsBefore.readsEntry`: the three reads of an entry
- `readR2CPPacketAsUInt32_throws`, `readBytesFromR2CPPacket_throws`: readers that do not
-/

namespace R2CP.R2CPParser

open StatefulExcept (Yields)

/-! ## The offset stack and the log -/

section Primitives

variable {o : UInt32} {s : List UInt32}

/-- A push puts a frame on the stack, -/
theorem pushOffset_yields :
    Yields parsingOffsetStack (pushOffset o) s (.ok ()) (o :: s) :=
  fun p hp => ⟨_, rfl, by rw [← hp]⟩

/-- `back()` looks at the one on top, -/
theorem backOffset_yields :
    Yields parsingOffsetStack backOffset (o :: s) (.ok o) (o :: s) := by
  intro p hp
  refine ⟨p, ?_, hp⟩
  simp only [backOffset, StatefulExcept.exec_bind, StatefulExcept.exec_get, hp,
    StatefulExcept.exec_pure]

/-- a pop takes it away, -/
theorem popOffset_yields :
    Yields parsingOffsetStack popOffset (o :: s) (.ok ()) s := by
  intro p hp
  refine ⟨{ p with parsingOffsetStack := s }, ?_, rfl⟩
  simp only [popOffset, StatefulExcept.exec_bind, StatefulExcept.exec_get, hp,
    StatefulExcept.exec_modify]

/-- and `clear()` takes all of them. -/
theorem clearOffsets_yields : Yields parsingOffsetStack clearOffsets s (.ok ()) [] :=
  fun _ _ => ⟨_, rfl, rfl⟩

/-- An entry in the log is nothing to the stack. -/
theorem writeLog_yields (entry : LogEntry) :
    Yields parsingOffsetStack (writeLog entry) s (.ok ()) s :=
  fun _ hs => ⟨_, rfl, hs⟩

/-- A skip adds to the top offset, modulo `2 ^ 32`. -/
theorem skipBytesFromR2CPPacket_yields (n : UInt32) :
    Yields parsingOffsetStack (skipBytesFromR2CPPacket n) (o :: s) (.ok ()) ((o + n) :: s) :=
  backOffset_yields.bind (popOffset_yields.bind pushOffset_yields)

/-- The test for the end is of the offset alone. -/
theorem checkIfR2CPPacketEndIsReached_yields (b : List UInt8) :
    Yields parsingOffsetStack (checkIfR2CPPacketEndIsReached b) (o :: s)
      (.ok (o == UInt32.ofNat b.length)) (o :: s) :=
  backOffset_yields.bind (.pure _)

end Primitives

/-! ## Positions -/

/-- The bytes that 32-bit lengths let the readers reach. -/
def visible (b : List UInt8) : List UInt8 := b.take (b.length % 2 ^ 32)

/-- Below `2 ^ 32` bytes nothing is hidden. -/
theorem visible_of_lt {b : List UInt8} (h : b.length < 2 ^ 32) : visible b = b := by
  rw [visible, Nat.mod_eq_of_lt h, List.take_length]

/-- The length goes modulo `2 ^ 32`, -/
private theorem length_visible (b : List UInt8) : (visible b).length = b.length % 2 ^ 32 := by
  rw [visible, List.length_take]
  exact Nat.min_eq_left (Nat.mod_le _ _)

/-- so it fits a word, -/
theorem length_visible_lt (b : List UInt8) : (visible b).length < 2 ^ 32 := by
  rw [length_visible]
  exact Nat.mod_lt _ (by decide)

/-- and it is what the readers compare with. -/
theorem toNat_ofNat_length_visible (b : List UInt8) :
    (UInt32.ofNat b.length).toNat = (visible b).length := by
  rw [UInt32.toNat_ofNat', length_visible]

/-- Offset `o` stands before the bytes `rest` of `b`. -/
def StandsBefore (b : List UInt8) (o : UInt32) (rest : List UInt8) : Prop :=
  o.toNat ≤ (visible b).length ∧ (visible b).drop o.toNat = rest

namespace StandsBefore

variable {b rest data : List UInt8} {o : UInt32}

/-- Offset 0 stands before everything. -/
theorem start (b : List UInt8) : StandsBefore b 0 (visible b) := ⟨Nat.zero_le _, rfl⟩

/-- A whole vector below `2 ^ 32` bytes stands behind offset 0. -/
theorem start_of_lt (hlt : b.length < 2 ^ 32) (hb : b = rest) : StandsBefore b 0 rest := by
  -- all of `b` is visible
  have := start b
  rw [visible_of_lt hlt] at this
  rwa [← hb]

/-- Bytes before the offset and bytes behind it are all there are. -/
theorem length_eq (h : StandsBefore b o rest) :
    o.toNat + rest.length = (visible b).length := by
  obtain ⟨hle, rfl⟩ := h
  rw [List.length_drop]
  omega

/-- Moving over bytes that are there neither wraps nor leaves the vector. -/
theorem toNat_add (h : StandsBefore b o (data ++ rest)) {n : UInt32}
    (hn : data.length = n.toNat) : (o + n).toNat = o.toNat + n.toNat := by
  have hlen := h.length_eq
  have hlt := length_visible_lt b
  rw [List.length_append] at hlen
  rw [UInt32.toNat_add]
  -- the sum is at most the visible length
  exact Nat.mod_eq_of_lt (by omega)

/-- Behind bytes that were read stands the rest. -/
theorem advance (h : StandsBefore b o (data ++ rest)) {n : UInt32}
    (hn : data.length = n.toNat) : StandsBefore b (o + n) rest := by
  have hlen := h.length_eq
  rw [List.length_append] at hlen
  refine ⟨by rw [h.toNat_add hn]; omega, ?_⟩
  rw [h.toNat_add hn, ← List.drop_drop, h.2, ← hn, List.drop_left]

/-- The guard of the readers passes for bytes that are there. -/
theorem guard (h : StandsBefore b o (data ++ rest)) {n : UInt32}
    (hn : data.length = n.toNat) : o + n ≤ UInt32.ofNat b.length := by
  have hlen := h.length_eq
  rw [List.length_append] at hlen
  rw [UInt32.le_iff_toNat_le, h.toNat_add hn, toNat_ofNat_length_visible]
  omega

/-- The bytes behind the offset are those of the vector, further on. -/
private theorem getElem?_eq (h : StandsBefore b o rest) {i : Nat} {x : UInt8}
    (hx : rest[i]? = some x) :
    b[o.toNat + i]? = some x := by
  have hi : i < rest.length := by
    by_contra hge
    rw [List.getElem?_eq_none (by omega)] at hx
    exact nomatch hx
  have hlen := h.length_eq
  -- the byte is at `o + i` in the visible part, and so in the vector
  rw [← h.2, List.getElem?_drop, visible, List.getElem?_take] at hx
  rw [length_visible] at hlen
  rwa [if_pos (by omega)] at hx

/-- `at` finds the byte `i` positions further on. -/
private theorem vectorAt_eq (h : StandsBefore b o rest) {i : UInt32} {x : UInt8}
    (hx : rest[i.toNat]? = some x) : (vectorAt b (o + i).toNat : Parser UInt8) = pure x := by
  have hi : i.toNat < rest.length := by
    by_contra hge
    rw [List.getElem?_eq_none (by omega)] at hx
    exact nomatch hx
  have hlen := h.length_eq
  have hlt := length_visible_lt b
  -- the index does not wrap, because the byte is there
  have hadd : (o + i).toNat = o.toNat + i.toNat := by
    rw [UInt32.toNat_add]
    exact Nat.mod_eq_of_lt (by omega)
  exact vectorAt_of_lt (by rw [hadd]; exact h.getElem?_eq hx)

end StandsBefore

/-! ## Readers that find their bytes -/

section Success

variable {b rest data : List UInt8} {o : UInt32} {s : List UInt32}

/-- A word that stands at the offset is read. -/
theorem readR2CPPacketAsUInt32_yields {v : UInt32} (h : StandsBefore b o (v.toBytesBE ++ rest)) :
    Yields parsingOffsetStack (readR2CPPacketAsUInt32 b) (o :: s) (.ok v) ((o + 4) :: s) := by
  refine backOffset_yields.bind (popOffset_yields.bind ?_)
  have h0 : (vectorAt b o.toNat : Parser UInt8) = pure (v >>> 24).toUInt8 :=
    vectorAt_of_lt (h.getElem?_eq (i := 0) rfl)
  -- the guard passes, and the four reads are `pure`
  rw [if_pos (h.guard (n := 4) rfl), h0, h.vectorAt_eq (i := 1) rfl, h.vectorAt_eq (i := 2) rfl,
    h.vectorAt_eq (i := 3) rfl]
  have hv := UInt32.ofBytesBE_toBytesBE v
  rw [UInt32.ofBytesBE] at hv
  refine Yields.bind (.pure _) (Yields.bind (.pure _) (Yields.bind (.pure _)
    (Yields.bind (.pure _) (pushOffset_yields.bind ?_))))
  rw [hv]
  exact .pure v

/-- After `i` bytes of `data` are copied, the loop copies the others. -/
private theorem readBytesLoop_yields (h : StandsBefore b o (data ++ rest)) (acc todo : List UInt8)
    (i : UInt32) (hi : i.toNat = acc.length) (hdata : data = acc ++ todo) :
    Yields parsingOffsetStack (readBytesLoop b o todo.length i acc) s (.ok data) s := by
  -- on the bytes to go; `acc` holds those that were copied, and `i` counts them
  induction todo generalizing acc i with
  | nil =>
    rw [List.append_nil] at hdata
    rw [hdata]
    exact .pure acc
  | cons x todo ih =>
    have hx : (data ++ rest)[i.toNat]? = some x := by
      rw [hdata, hi, List.append_assoc, List.getElem?_append_right (Nat.le_refl _)]
      simp
    have hlen := h.length_eq
    have hlt := length_visible_lt b
    simp only [hdata, List.length_append, List.length_cons] at hlen
    have hi' : (i + 1).toNat = (acc ++ [x]).length := by
      rw [UInt32.toNat_add, List.length_append, hi]
      exact Nat.mod_eq_of_lt (by simp; omega)
    rw [List.length_cons]
    -- one round: `x` is copied, and the loop goes on with one byte more in `acc`
    show Yields _ (vectorAt b (o + i).toNat >>= _) _ _ _
    rw [h.vectorAt_eq hx]
    exact Yields.bind (.pure x) (ih (acc ++ [x]) (i + 1) hi' (by simp [hdata]))

/-- Bytes that stand at the offset are read. -/
theorem readBytesFromR2CPPacket_yields (h : StandsBefore b o (data ++ rest)) {n : UInt32}
    (hn : data.length = n.toNat) :
    Yields parsingOffsetStack (readBytesFromR2CPPacket b n) (o :: s) (.ok data)
      ((o + n) :: s) := by
  refine backOffset_yields.bind (popOffset_yields.bind ?_)
  rw [if_pos (h.guard hn), ← hn]
  exact (readBytesLoop_yields h [] data 0 rfl rfl).bind (pushOffset_yields.bind (.pure data))

/-- The three reads of an entry: its code, its size and its bytes. `rest` comes next. -/
structure ReadsEntry (b : List UInt8) (o : UInt32) (t : Tlv) (rest : List UInt8) : Prop where
  tag (s : List UInt32) : Yields parsingOffsetStack (readR2CPPacketAsUInt32 b) (o :: s)
    (.ok t.tag) ((o + 4) :: s)
  size (s : List UInt32) : Yields parsingOffsetStack (readR2CPPacketAsUInt32 b) ((o + 4) :: s)
    (.ok (UInt32.ofNat t.value.length)) ((o + 4 + 4) :: s)
  value (s : List UInt32) : Yields parsingOffsetStack
    (readBytesFromR2CPPacket b (UInt32.ofNat t.value.length)) ((o + 4 + 4) :: s)
    (.ok t.value) ((o + 4 + 4 + UInt32.ofNat t.value.length) :: s)
  next : StandsBefore b (o + 4 + 4 + UInt32.ofNat t.value.length) rest

/-- Tag, size and value of an entry, one reader each. -/
theorem StandsBefore.readsEntry {t : Tlv} (h : StandsBefore b o (t.encode ++ rest))
    (ht : t.Sized) : ReadsEntry b o t rest := by
  have hvalue : t.value.length = (UInt32.ofNat t.value.length).toNat :=
    (UInt32.toNat_ofNat_length ht).symm
  simp only [Tlv.encode, List.append_assoc] at h
  have h1 := h.advance (n := 4) rfl
  have h2 := h1.advance (n := 4) rfl
  constructor
  · exact fun s => readR2CPPacketAsUInt32_yields h
  · exact fun s => readR2CPPacketAsUInt32_yields h1
  · exact fun s => readBytesFromR2CPPacket_yields h2 hvalue
  · exact h2.advance hvalue

end Success

/-! ## Readers that do not -/

section Failure

variable {b : List UInt8} {o : UInt32} {s : List UInt32}

/-- A throw of `std::out_of_range` that leaves the stack `o :: s` as it was, or
    without its top frame. -/
def ThrowsOutOfRange {α : Type} (x : Parser α) (o : UInt32) (s : List UInt32) : Prop :=
  ∃ what s', Yields parsingOffsetStack x (o :: s) (.error (.outOfRange what)) s' ∧
    (s' = o :: s ∨ s' = s)

/-- Fewer than `n` bytes are left at offset `o`, without wrapping. -/
def Short (b : List UInt8) (o n : UInt32) : Prop := b.length < o.toNat + n.toNat

/-- When the guard fails, nothing was taken off the stack for good. -/
private theorem refused_yields {α : Type} {n : UInt32} (x : Parser α)
    (h : ¬ o + n ≤ UInt32.ofNat b.length) :
    Yields parsingOffsetStack
      (if o + n ≤ UInt32.ofNat b.length then x else do pushOffset o; throw noBytesLeft)
      s (.error noBytesLeft) (o :: s) := by
  rw [if_neg h]
  exact pushOffset_yields.bind (.throw _)

/-- A short read passes the guard only by wrapping, and then reaches the end of the
    vector before the sum does. -/
private theorem Short.exists_missing {n : UInt32} (h : Short b o n)
    (hguard : o + n ≤ UInt32.ofNat b.length) (hlt : b.length < 2 ^ 32) :
    ∃ k < n.toNat, b.length ≤ o.toNat + k ∧ o.toNat + k < 2 ^ 32 := by
  have ho := o.toNat_lt
  have hn := n.toNat_lt
  rw [UInt32.le_iff_toNat_le, UInt32.toNat_add, UInt32.toNat_ofNat_length hlt] at hguard
  unfold Short at h
  -- the first missing byte is the one at the length of `b`
  exact ⟨b.length - o.toNat, by omega, by omega, by omega⟩

/-- `at` returns a byte of the vector or throws. -/
private theorem vectorAt_cases (b : List UInt8) (i : Nat) :
    (∃ x, i < b.length ∧ (vectorAt b i : Parser UInt8) = pure x) ∨
      ∃ what, (vectorAt b i : Parser UInt8) = throw (.outOfRange what) := by
  by_cases hi : i < b.length
  · exact .inl ⟨b[i], hi, vectorAt_of_lt (List.getElem?_eq_getElem hi)⟩
  · exact .inr ⟨_, vectorAt_of_le (by omega)⟩

/-- The copy loop throws at the first byte past the end of the vector, if there is one
    within its rounds. -/
private theorem readBytesLoop_throws {k rounds : Nat} (hk : k < rounds) {i : UInt32}
    (hend : b.length ≤ o.toNat + (i.toNat + k)) (hsum : o.toNat + (i.toNat + k) < 2 ^ 32)
    (acc : List UInt8) :
    ∃ what, Yields parsingOffsetStack (readBytesLoop b o rounds i acc) s
      (.error (.outOfRange what)) s := by
  -- on the rounds; `k` counts those before the missing byte
  induction rounds generalizing i acc k with
  | zero => omega
  | succ rounds ih =>
    simp only [readBytesLoop]
    rcases vectorAt_cases b (o + i).toNat with ⟨x, hx, hret⟩ | ⟨what, hthrow⟩
    · -- the byte was there, so the missing one is further on
      rw [hret]
      rw [UInt32.toNat_add, Nat.mod_eq_of_lt (by omega)] at hx
      have hi : (i + 1).toNat = i.toNat + 1 := by
        rw [UInt32.toNat_add]
        exact Nat.mod_eq_of_lt (by simp; omega)
      obtain ⟨what, hrest⟩ := ih (k := k - 1) (i := i + 1) (by omega) (by omega) (by omega)
        (acc ++ [x])
      exact ⟨what, Yields.bind (.pure x) hrest⟩
    · exact ⟨what, by rw [hthrow]; exact Yields.bind_error (.throw _)⟩

/-- A guard that fails puts the frame back. -/
theorem readBytesFromR2CPPacket_guarded {n : UInt32} (hguard : ¬ o + n ≤ UInt32.ofNat b.length) :
    Yields parsingOffsetStack (readBytesFromR2CPPacket b n) (o :: s) (.error noBytesLeft)
      (o :: s) :=
  backOffset_yields.bind (popOffset_yields.bind (refused_yields _ hguard))

/-- A guard that is passed by wrapping lets `at` throw with the frame still off the stack. -/
theorem readBytesFromR2CPPacket_wrapped {n : UInt32} (h : Short b o n)
    (hguard : o + n ≤ UInt32.ofNat b.length) (hlt : b.length < 2 ^ 32) :
    ∃ what, Yields parsingOffsetStack (readBytesFromR2CPPacket b n) (o :: s)
      (.error (.outOfRange what)) s := by
  obtain ⟨k, hk, hend, hsum⟩ := h.exists_missing hguard hlt
  have hzero : (0 : UInt32).toNat = 0 := rfl
  obtain ⟨what, hloop⟩ : ∃ what, Yields parsingOffsetStack
      (readBytesLoop b o n.toNat 0 []) s (.error (.outOfRange what)) s :=
    readBytesLoop_throws hk (by omega) (by omega) []
  refine ⟨what, backOffset_yields.bind (popOffset_yields.bind ?_)⟩
  rw [if_pos hguard]
  exact hloop.bind_error

/-- Too few bytes end in `std::out_of_range`, from the guard or from `at`. -/
theorem readBytesFromR2CPPacket_throws {n : UInt32} (h : Short b o n)
    (hlt : b.length < 2 ^ 32) : ThrowsOutOfRange (readBytesFromR2CPPacket b n) o s := by
  by_cases hguard : o + n ≤ UInt32.ofNat b.length
  · obtain ⟨what, hthrow⟩ := readBytesFromR2CPPacket_wrapped (s := s) h hguard hlt
    exact ⟨what, s, hthrow, .inr rfl⟩
  · exact ⟨_, _, readBytesFromR2CPPacket_guarded hguard, .inl rfl⟩

/-- The guard of a word puts the frame back. -/
theorem readR2CPPacketAsUInt32_guarded (hguard : ¬ o + 4 ≤ UInt32.ofNat b.length) :
    Yields parsingOffsetStack (readR2CPPacketAsUInt32 b) (o :: s) (.error noBytesLeft)
      (o :: s) :=
  backOffset_yields.bind (popOffset_yields.bind (refused_yields _ hguard))

/-- Behind a guard that wrapped, one of the four `at` throws, and the frame is gone. -/
theorem readR2CPPacketAsUInt32_wrapped (h : Short b o 4)
    (hguard : o + 4 ≤ UInt32.ofNat b.length) (hlt : b.length < 2 ^ 32) :
    ∃ what, Yields parsingOffsetStack (readR2CPPacketAsUInt32 b) (o :: s)
      (.error (.outOfRange what)) s := by
  suffices hs : ∃ what, Yields parsingOffsetStack (do
      let b₀ ← vectorAt b o.toNat
      let b₁ ← vectorAt b (o + 1).toNat
      let b₂ ← vectorAt b (o + 2).toNat
      let b₃ ← vectorAt b (o + 3).toNat
      pushOffset (o + 4)
      pure (b₀.toUInt32 <<< 24 ||| b₁.toUInt32 <<< 16 ||| b₂.toUInt32 <<< 8 ||| b₃.toUInt32))
      s (.error (.outOfRange what)) s by
    obtain ⟨what, hs⟩ := hs
    refine ⟨what, backOffset_yields.bind (popOffset_yields.bind ?_)⟩
    rw [if_pos hguard]
    exact hs
  -- past the first missing byte the reads after it do not matter
  rcases vectorAt_cases b o.toNat with ⟨x₀, h₀, e₀⟩ | ⟨what, e₀⟩
  swap
  · exact ⟨what, by rw [e₀]; exact Yields.bind_error (.throw _)⟩
  rcases vectorAt_cases b (o + 1).toNat with ⟨x₁, h₁, e₁⟩ | ⟨what, e₁⟩
  swap
  · exact ⟨what, by rw [e₀, e₁]; exact Yields.bind (.pure _) (Yields.bind_error (.throw _))⟩
  rcases vectorAt_cases b (o + 2).toNat with ⟨x₂, h₂, e₂⟩ | ⟨what, e₂⟩
  swap
  · refine ⟨what, ?_⟩
    rw [e₀, e₁, e₂]
    exact Yields.bind (.pure _) (Yields.bind (.pure _) (Yields.bind_error (.throw _)))
  rcases vectorAt_cases b (o + 3).toNat with ⟨x₃, h₃, e₃⟩ | ⟨what, e₃⟩
  swap
  · refine ⟨what, ?_⟩
    rw [e₀, e₁, e₂, e₃]
    exact Yields.bind (.pure _) (Yields.bind (.pure _) (Yields.bind (.pure _)
      (Yields.bind_error (.throw _))))
  -- four bytes found one after the other are not short
  have ho := o.toNat_lt
  have c₁ : (1 : UInt32).toNat = 1 := rfl
  have c₂ : (2 : UInt32).toNat = 2 := rfl
  have c₃ : (3 : UInt32).toNat = 3 := rfl
  have c₄ : (4 : UInt32).toNat = 4 := rfl
  rw [UInt32.toNat_add] at h₁ h₂ h₃
  unfold Short at h
  omega

/-- One of the two happens when the word is not all there. -/
theorem readR2CPPacketAsUInt32_throws (h : Short b o 4) (hlt : b.length < 2 ^ 32) :
    ThrowsOutOfRange (readR2CPPacketAsUInt32 b) o s := by
  by_cases hguard : o + 4 ≤ UInt32.ofNat b.length
  · obtain ⟨what, hthrow⟩ := readR2CPPacketAsUInt32_wrapped (s := s) h hguard hlt
    exact ⟨what, s, hthrow, .inr rfl⟩
  · exact ⟨_, _, readR2CPPacketAsUInt32_guarded hguard, .inl rfl⟩

/-- The guard alone refuses a read whose sum does not wrap, for vectors of any length. -/
theorem readR2CPPacketAsUInt32_refused (h : (visible b).length < o.toNat + 4)
    (hsum : o.toNat + 4 < 2 ^ 32) :
    Yields parsingOffsetStack (readR2CPPacketAsUInt32 b) (o :: s) (.error noBytesLeft)
      (o :: s) := by
  apply readR2CPPacketAsUInt32_guarded
  rw [UInt32.le_iff_toNat_le, UInt32.toNat_add, toNat_ofNat_length_visible]
  have h4 : (4 : UInt32).toNat = 4 := rfl
  rw [h4, Nat.mod_eq_of_lt hsum]
  omega

end Failure

end R2CP.R2CPParser
