import Mathlib

/-!
# Big-endian 32-bit words in byte lists

`UInt32.toBytesBE` and `UInt32.ofBytesBE` convert between a word and its four
bytes, most significant first, and are inverse to each other.
`List.readUInt32BE?` reads a word at a byte position with exact bounds.

## Key results

- `UInt32.ofBytesBE_toBytesBE`, `UInt32.toBytesBE_ofBytesBE`: the two conversions are inverse
- `UInt32.toBytesBE_append_inj`: a word at the start of a byte list is determined
- `List.readUInt32BE?_eq_none_iff`: a read fails exactly when fewer than four bytes are left
-/

namespace UInt32

/-- The four bytes of a word, most significant first. -/
def toBytesBE (v : UInt32) : List UInt8 :=
  [(v >>> 24).toUInt8, (v >>> 16).toUInt8, (v >>> 8).toUInt8, v.toUInt8]

/-- The word whose bytes, most significant first, are `b₀ b₁ b₂ b₃`. -/
def ofBytesBE (b₀ b₁ b₂ b₃ : UInt8) : UInt32 :=
  b₀.toUInt32 <<< 24 ||| b₁.toUInt32 <<< 16 ||| b₂.toUInt32 <<< 8 ||| b₃.toUInt32

/-- A word has four bytes. -/
@[simp] theorem length_toBytesBE (v : UInt32) : v.toBytesBE.length = 4 := rfl

/-- The four shifted bytes do not overlap, so their union is the positional sum. -/
theorem toNat_ofBytesBE (b₀ b₁ b₂ b₃ : UInt8) :
    (ofBytesBE b₀ b₁ b₂ b₃).toNat =
      b₀.toNat * 2 ^ 24 + b₁.toNat * 2 ^ 16 + b₂.toNat * 2 ^ 8 + b₃.toNat := by
  have h0 := b₀.toNat_lt
  have h1 := b₁.toNat_lt
  have h2 := b₂.toNat_lt
  have h3 := b₃.toNat_lt
  have e24 : (24 : UInt32).toNat % 32 = 24 := rfl
  have e16 : (16 : UInt32).toNat % 32 = 16 := rfl
  have e8 : (8 : UInt32).toNat % 32 = 8 := rfl
  simp only [ofBytesBE, UInt32.toNat_or, UInt32.toNat_shiftLeft, UInt8.toNat_toUInt32]
  rw [e24, e16, e8]
  simp only [Nat.shiftLeft_eq]
  -- no shift pushes bits out of the word
  rw [Nat.mod_eq_of_lt (by omega), Nat.mod_eq_of_lt (by omega), Nat.mod_eq_of_lt (by omega)]
  -- from the low byte upwards, each `|||` meets a shifted word that is zero there
  rw [Nat.or_assoc, Nat.or_assoc,
    ← Nat.shiftLeft_eq b₂.toNat, ← Nat.shiftLeft_add_eq_or_of_lt h3,
    ← Nat.shiftLeft_eq b₁.toNat,
    ← Nat.shiftLeft_add_eq_or_of_lt (by rw [Nat.shiftLeft_eq]; omega),
    ← Nat.shiftLeft_eq b₀.toNat,
    ← Nat.shiftLeft_add_eq_or_of_lt (by simp only [Nat.shiftLeft_eq]; omega)]
  simp only [Nat.shiftLeft_eq]
  omega

/-- Reassembling the bytes of a word gives the word. -/
theorem ofBytesBE_toBytesBE (v : UInt32) :
    ofBytesBE (v >>> 24).toUInt8 (v >>> 16).toUInt8 (v >>> 8).toUInt8 v.toUInt8 = v := by
  apply UInt32.toNat_inj.mp
  rw [toNat_ofBytesBE]
  have := v.toNat_lt
  simp only [UInt32.toNat_toUInt8, UInt32.toNat_shiftRight, Nat.shiftRight_eq_div_pow]
  simp
  omega

/-- Splitting a reassembled word gives its bytes. -/
theorem toBytesBE_ofBytesBE (b₀ b₁ b₂ b₃ : UInt8) :
    (ofBytesBE b₀ b₁ b₂ b₃).toBytesBE = [b₀, b₁, b₂, b₃] := by
  have h0 := b₀.toNat_lt
  have h1 := b₁.toNat_lt
  have h2 := b₂.toNat_lt
  have h3 := b₃.toNat_lt
  simp only [toBytesBE, List.cons.injEq, ← UInt8.toNat_inj, UInt32.toNat_toUInt8,
    UInt32.toNat_shiftRight, toNat_ofBytesBE, Nat.shiftRight_eq_div_pow]
  simp
  omega

/-- Different words have different bytes. -/
theorem toBytesBE_injective {v w : UInt32} (h : v.toBytesBE = w.toBytesBE) : v = w := by
  have hv := ofBytesBE_toBytesBE v
  have hw := ofBytesBE_toBytesBE w
  simp only [toBytesBE, List.cons.injEq] at h
  rw [← hv, ← hw, h.1, h.2.1, h.2.2.1, h.2.2.2.1]

/-- Two byte lists that start with a word agree on the word and on the rest. -/
theorem toBytesBE_append_inj {v w : UInt32} {xs ys : List UInt8}
    (h : v.toBytesBE ++ xs = w.toBytesBE ++ ys) : v = w ∧ xs = ys := by
  obtain ⟨hv, hr⟩ := List.append_inj h rfl
  exact ⟨toBytesBE_injective hv, hr⟩

/-- Four bytes are some word's bytes. -/
theorem exists_toBytesBE_append {bs : List UInt8} (h : 4 ≤ bs.length) :
    ∃ (v : UInt32) (rest : List UInt8), bs = v.toBytesBE ++ rest := by
  match bs, h with
  | b₀ :: b₁ :: b₂ :: b₃ :: rest, _ =>
    -- the word is the one that its bytes make up
    exact ⟨ofBytesBE b₀ b₁ b₂ b₃, rest, by rw [toBytesBE_ofBytesBE]; rfl⟩

/-- Eight bytes are those of two words. -/
theorem exists_toBytesBE_append₂ {bs : List UInt8} (h : 8 ≤ bs.length) :
    ∃ (v w : UInt32) (rest : List UInt8), bs = v.toBytesBE ++ (w.toBytesBE ++ rest) := by
  have h4 : 4 ≤ bs.length := by omega
  obtain ⟨v, tail, rfl⟩ := exists_toBytesBE_append h4
  have htail : 4 ≤ tail.length := by
    rw [List.length_append, length_toBytesBE] at h
    omega
  obtain ⟨w, rest, rfl⟩ := exists_toBytesBE_append htail
  exact ⟨v, w, rest, rfl⟩

/-- A length that fits a word survives the conversion. -/
theorem toNat_ofNat_length {α : Type} {xs : List α} (h : xs.length < 2 ^ 32) :
    (UInt32.ofNat xs.length).toNat = xs.length := by
  simp only [UInt32.toNat_ofNat']
  exact Nat.mod_eq_of_lt h

end UInt32

namespace List

/-- The big-endian word at byte position `o`, if all four bytes are there. -/
def readUInt32BE? (bs : List UInt8) (o : Nat) : Option UInt32 :=
  match bs.drop o with
  | b₀ :: b₁ :: b₂ :: b₃ :: _ => some (UInt32.ofBytesBE b₀ b₁ b₂ b₃)
  | _ => none

/-- Where a word's bytes are, the read finds the word. -/
theorem readUInt32BE?_of_drop {bs rest : List UInt8} {o : Nat} {v : UInt32}
    (h : bs.drop o = v.toBytesBE ++ rest) : bs.readUInt32BE? o = some v := by
  simp only [readUInt32BE?, h, UInt32.toBytesBE, cons_append, nil_append,
    UInt32.ofBytesBE_toBytesBE]

/-- What a read finds is there in bytes. -/
theorem drop_of_readUInt32BE? {bs : List UInt8} {o : Nat} {v : UInt32}
    (h : bs.readUInt32BE? o = some v) : ∃ rest, bs.drop o = v.toBytesBE ++ rest := by
  unfold readUInt32BE? at h
  split at h
  · rename_i b₀ b₁ b₂ b₃ rest hdrop
    cases h
    exact ⟨rest, by rw [hdrop, UInt32.toBytesBE_ofBytesBE]; rfl⟩
  · exact nomatch h

/-- A read fails for lack of bytes, and for no other reason. -/
theorem readUInt32BE?_eq_none_iff {bs : List UInt8} {o : Nat} :
    bs.readUInt32BE? o = none ↔ bs.length < o + 4 := by
  constructor
  · intro h
    -- four bytes would be a word, and the read would find it
    by_contra hlen
    have h4 : 4 ≤ (bs.drop o).length := by rw [length_drop]; omega
    obtain ⟨v, rest, hdrop⟩ := UInt32.exists_toBytesBE_append h4
    rw [readUInt32BE?_of_drop hdrop] at h
    exact nomatch h
  · intro h
    cases hr : bs.readUInt32BE? o with
    | none => rfl
    | some v =>
      -- a word that was found has four bytes, more than there are
      obtain ⟨rest, hdrop⟩ := drop_of_readUInt32BE? hr
      have := congrArg length hdrop
      simp only [length_drop, length_append, UInt32.length_toBytesBE] at this
      omega

end List
