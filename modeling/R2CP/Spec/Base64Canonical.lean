import R2CP.Spec.Base64Bits

/-!
# Canonical texts

A canonical text consists of characters of the alphabet and at most two `=` signs
that complete the last group of four, and the bits of the last character that do not
belong to a byte are zero. The encoder writes canonical texts only, and it writes all of
them: a canonical text is what the encoder makes of its bytes. On texts that an `int`
can count, encoding and decoding are inverse bijections (`base64_canonical`).

## Key results

- `base64_canonical`: encoding and decoding are inverse bijections on canonical texts
-/

namespace R2CP.Base64

/-- `s` is canonical with these characters and `pad` signs behind them. -/
structure Canonical (s chars : List UInt8) (pad : Nat) : Prop where
  text_eq : s = chars ++ List.replicate pad 61
  alphabet : ∀ char ∈ chars, char ∈ base64Chars
  pad_le : pad ≤ 2
  groups : (chars.length + pad) % 4 = 0
  /-- Every sign stands for two bits of the last character. -/
  unused : ∀ char ∈ chars.getLast?, base64Chars.idxOf char % 2 ^ (2 * pad) = 0

/-- A canonical Base64 text. -/
def IsCanonical (s : List UInt8) : Prop := ∃ chars pad, Canonical s chars pad

/-! ## Texts are canonical -/

/-- The characters of a full group. -/
theorem Canonical.group {s chars : List UInt8} {pad : Nat} (h : Canonical s chars pad)
    {a b c d : UInt8} (hgroup : ∀ char ∈ [a, b, c, d], char ∈ base64Chars) :
    Canonical ([a, b, c, d] ++ s) ([a, b, c, d] ++ chars) pad := by
  constructor
  · rw [h.text_eq, List.append_assoc]
  · intro char hchar
    rcases List.mem_append.mp hchar with hchar | hchar
    · exact hgroup char hchar
    · exact h.alphabet char hchar
  · exact h.pad_le
  · -- four characters more do not change the length modulo four
    have := h.groups
    simp only [List.length_append, List.length_cons, List.length_nil]
    omega
  · intro char hchar
    cases chars with
    | nil =>
      -- the group is the last one, and then there is no sign
      obtain rfl : pad = 0 := by
        have hpad := h.pad_le
        have hgroups := h.groups
        rw [List.length_nil] at hgroups
        omega
      exact Nat.mod_one _
    | cons char' chars =>
      rw [List.getLast?_append_of_ne_nil _ (by simp)] at hchar
      exact h.unused char hchar

/-- One byte is written with two characters, the second one for two bits of the byte. -/
private theorem canonical_text_one (a : UInt8) : ∃ chars, Canonical (text [a]) chars 2 := by
  have hindices := toNat_charArray4 a 0 0
  obtain ⟨i₀, i₁, i₂, i₃, hi, ⟨h₀, h₁, -, -⟩, -⟩ := charArray4_split a 0 0
  have hchars : text [a] = [base64Char i₀, base64Char i₁] ++ [61, 61] := by
    simp only [text, encodeRest, hi]
    rfl
  rw [hi] at hindices
  simp only [List.map_cons, List.map_nil, List.cons.injEq, groupOfBytes, UInt8.toNat_zero]
    at hindices
  refine ⟨[base64Char i₀, base64Char i₁], hchars, ?_, by simp, by simp, ?_⟩
  · simpa using ⟨base64Char_mem h₀, base64Char_mem h₁⟩
  · intro char hchar
    obtain rfl : base64Char i₁ = char := by simpa using hchar
    show base64Chars.idxOf (base64Char i₁) % 2 ^ 4 = 0
    rw [idxOf_base64Char h₁, hindices.2.1]
    omega

/-- Two bytes are written with three characters, the third one for four bits of the second
    byte. -/
private theorem canonical_text_two (a b : UInt8) : ∃ chars, Canonical (text [a, b]) chars 1 := by
  have hindices := toNat_charArray4 a b 0
  obtain ⟨i₀, i₁, i₂, i₃, hi, ⟨h₀, h₁, h₂, -⟩, -⟩ := charArray4_split a b 0
  have hchars : text [a, b] = [base64Char i₀, base64Char i₁, base64Char i₂] ++ [61] := by
    simp only [text, encodeRest, hi]
    rfl
  rw [hi] at hindices
  simp only [List.map_cons, List.map_nil, List.cons.injEq, groupOfBytes, UInt8.toNat_zero]
    at hindices
  refine ⟨[base64Char i₀, base64Char i₁, base64Char i₂], hchars, ?_, by simp, by simp, ?_⟩
  · simpa using ⟨base64Char_mem h₀, base64Char_mem h₁, base64Char_mem h₂⟩
  · intro char hchar
    obtain rfl : base64Char i₂ = char := by simpa using hchar
    show base64Chars.idxOf (base64Char i₂) % 2 ^ 2 = 0
    rw [idxOf_base64Char h₂, hindices.2.2.1]
    omega

/-- The text of a byte vector has as many signs as bytes are missing in its last group. -/
theorem canonical_text (buf : List UInt8) :
    ∃ chars, Canonical (text buf) chars ((3 - buf.length % 3) % 3) := by
  fun_induction text buf with
  | case1 => exact ⟨[], rfl, by simp, by simp, by simp, by simp⟩
  | case2 a => exact canonical_text_one a
  | case3 a b => exact canonical_text_two a b
  | case4 a b c buf ih =>
    obtain ⟨chars, hcanonical⟩ := ih
    obtain ⟨i₀, i₁, i₂, i₃, hi, ⟨h₀, h₁, h₂, h₃⟩, -⟩ := charArray4_split a b c
    have hgroup : ∀ char ∈ [i₀, i₁, i₂, i₃].map base64Char, char ∈ base64Chars := by
      simpa using ⟨base64Char_mem h₀, base64Char_mem h₁, base64Char_mem h₂, base64Char_mem h₃⟩
    have hpad : (3 - (a :: b :: c :: buf).length % 3) % 3 = (3 - buf.length % 3) % 3 := by
      simp only [List.length_cons]
      omega
    rw [hi, hpad]
    exact ⟨_, hcanonical.group hgroup⟩

/-! ## Canonical texts are texts -/

/-- Indices make up bytes that they are cut out of again. -/
private theorem charArray3_join {i₀ i₁ i₂ i₃ : UInt8} (h₀ : i₀ < 64) (h₁ : i₁ < 64) (h₂ : i₂ < 64)
    (h₃ : i₃ < 64) :
    ∃ x y z, charArray3 i₀ i₁ i₂ i₃ = [x, y, z] ∧ charArray4 x y z = [i₀, i₁, i₂, i₃] ∧
      y.toNat = groupOfIndices i₀ i₁ i₂ i₃ / 2 ^ 8 % 2 ^ 8 ∧
      z.toNat = groupOfIndices i₀ i₁ i₂ i₃ % 2 ^ 8 := by
  obtain ⟨x, y, z, hxyz⟩ : ∃ x y z, charArray3 i₀ i₁ i₂ i₃ = [x, y, z] := ⟨_, _, _, rfl⟩
  have hbytes := toNat_charArray3 h₀ h₁ h₂ h₃
  rw [hxyz] at hbytes
  simp only [List.map_cons, List.map_nil, List.cons.injEq, and_true] at hbytes
  obtain ⟨hx, hy, hz⟩ := hbytes
  refine ⟨x, y, z, hxyz, ?_, hy, hz⟩
  rw [UInt8.lt_iff_toNat_lt] at h₀ h₁ h₂ h₃
  simp only [UInt8.reduceToNat] at h₀ h₁ h₂ h₃
  have hinj : Function.Injective (List.map UInt8.toNat) :=
    List.map_injective_iff.mpr fun x y => UInt8.toNat_inj.mp
  apply hinj
  rw [toNat_charArray4]
  simp only [groupOfBytes, groupOfIndices, hx, hy, hz, List.map_cons, List.map_nil,
    List.cons.injEq, and_true]
  omega

/-- Two characters whose last four bits are zero. -/
private theorem text_decoded_two {a b : UInt8} (ha : a ∈ base64Chars) (hb : b ∈ base64Chars)
    (hunused : base64Chars.idxOf b % 2 ^ 4 = 0) : text (decoded [a, b]) = [a, b, 61, 61] := by
  obtain ⟨x, y, z, hxyz, hindices, hy, hz⟩ := charArray3_join (base64Find_lt ha)
    (base64Find_lt hb) (by decide : (0 : UInt8) < 64) (by decide : (0 : UInt8) < 64)
  rw [← toNat_base64Find hb] at hunused
  simp only [groupOfIndices, UInt8.toNat_zero] at hy hz
  -- all the bits are in the first byte
  obtain rfl : y = 0 := UInt8.toNat_inj.mp (by rw [hy, UInt8.toNat_zero]; omega)
  obtain rfl : z = 0 := UInt8.toNat_inj.mp (by rw [hz, UInt8.toNat_zero]; omega)
  have hdecoded : decoded [a, b] = [x] := by
    rw [decoded, decodeRest, charArray3_take_one _ _ _ _ 0 0, hxyz]
    rfl
  rw [hdecoded, text, encodeRest, hindices]
  simp only [List.take_succ_cons, List.take_zero, List.map_cons, List.map_nil,
    base64Char_base64Find ha, base64Char_base64Find hb]
  rfl

/-- Three characters whose last two bits are zero. -/
private theorem text_decoded_three {a b c : UInt8} (ha : a ∈ base64Chars) (hb : b ∈ base64Chars)
    (hc : c ∈ base64Chars) (hunused : base64Chars.idxOf c % 2 ^ 2 = 0) :
    text (decoded [a, b, c]) = [a, b, c, 61] := by
  obtain ⟨x, y, z, hxyz, hindices, -, hz⟩ := charArray3_join (base64Find_lt ha)
    (base64Find_lt hb) (base64Find_lt hc) (by decide : (0 : UInt8) < 64)
  rw [← toNat_base64Find hc] at hunused
  simp only [groupOfIndices, UInt8.toNat_zero] at hz
  -- all the bits are in the first two bytes
  obtain rfl : z = 0 := UInt8.toNat_inj.mp (by rw [hz, UInt8.toNat_zero]; omega)
  have hdecoded : decoded [a, b, c] = [x, y] := by
    rw [decoded, decodeRest, charArray3_take_two _ _ _ _ 0, hxyz]
    rfl
  rw [hdecoded, text, encodeRest, hindices]
  simp only [List.take_succ_cons, List.take_zero, List.map_cons, List.map_nil,
    base64Char_base64Find ha, base64Char_base64Find hb, base64Char_base64Find hc]
  rfl

/-- A full group. -/
private theorem text_decoded_group {a b c d : UInt8}
    (hgroup : ∀ char ∈ [a, b, c, d], char ∈ base64Chars)
    (chars : List UInt8) :
    text (decoded (a :: b :: c :: d :: chars)) = [a, b, c, d] ++ text (decoded chars) := by
  have ha := hgroup a (by simp)
  have hb := hgroup b (by simp)
  have hc := hgroup c (by simp)
  have hd := hgroup d (by simp)
  obtain ⟨x, y, z, hxyz, hindices, -, -⟩ := charArray3_join (base64Find_lt ha)
    (base64Find_lt hb) (base64Find_lt hc) (base64Find_lt hd)
  have htext : text ([x, y, z] ++ decoded chars) =
      (charArray4 x y z).map base64Char ++ text (decoded chars) := rfl
  rw [decoded, hxyz, htext, hindices]
  simp only [List.map_cons, List.map_nil, base64Char_base64Find ha, base64Char_base64Find hb,
    base64Char_base64Find hc, base64Char_base64Find hd]

/-- A canonical text is the text of what its characters decode to. -/
private theorem Canonical.text_decoded {s chars : List UInt8} {pad : Nat}
    (h : Canonical s chars pad) :
    text (decoded chars) = s := by
  obtain ⟨rfl, halphabet, hpad, hgroups, hunused⟩ := h
  fun_induction decoded chars with
  -- without characters there is no sign either
  | case1 =>
    obtain rfl : pad = 0 := by
      rw [List.length_nil] at hgroups
      omega
    rfl
  -- one character cannot be completed to a group by at most two signs
  | case2 a =>
    simp only [List.length_cons, List.length_nil] at hgroups
    omega
  -- the last group of two or three characters decides the number of signs
  | case3 a b =>
    obtain rfl : pad = 2 := by
      simp only [List.length_cons, List.length_nil] at hgroups
      omega
    exact text_decoded_two (halphabet a (by simp)) (halphabet b (by simp)) (hunused b (by simp))
  | case4 a b c =>
    obtain rfl : pad = 1 := by
      simp only [List.length_cons, List.length_nil] at hgroups
      omega
    exact text_decoded_three (halphabet a (by simp)) (halphabet b (by simp))
      (halphabet c (by simp)) (hunused c (by simp))
  | case5 a b c d chars ih =>
    obtain ⟨hgroup, hothers⟩ : (∀ char ∈ [a, b, c, d], char ∈ base64Chars) ∧
        ∀ char ∈ chars, char ∈ base64Chars := List.forall_mem_append.mp halphabet
    -- a full group passes the condition on the last character on to the rest
    have hlast : ∀ char ∈ chars.getLast?, base64Chars.idxOf char % 2 ^ (2 * pad) = 0 := by
      intro char hchar
      apply hunused char
      have happend : a :: b :: c :: d :: chars = [a, b, c, d] ++ chars := rfl
      rw [happend, List.getLast?_append, Option.mem_def.mp hchar]
      rfl
    have htext := text_decoded_group hgroup chars
    have hrest : (chars.length + pad) % 4 = 0 := by
      simp only [List.length_cons] at hgroups
      omega
    rw [ih hothers hrest hlast] at htext
    exact htext

/-- The prefix that the decoder reads is the one of the characters. -/
theorem Canonical.alphabetPrefix_eq {s chars : List UInt8} {pad : Nat}
    (h : Canonical s chars pad) : alphabetPrefix s = chars := by
  have hpad : (List.replicate pad (61 : UInt8)).takeWhile (· ∈ base64Chars) = [] := by
    cases pad with
    | zero => rfl
    | succ pad => rfl
  rw [alphabetPrefix, h.text_eq, List.takeWhile_append_of_pos (by simpa using h.alphabet), hpad,
    List.append_nil]

/-- A canonical text is the text of its bytes. -/
private theorem text_base64Decode {s : List UInt8} (hcanonical : IsCanonical s) :
    text (base64Decode s) = s := by
  obtain ⟨chars, pad, h⟩ := hcanonical
  rw [base64Decode_eq_decoded, h.alphabetPrefix_eq, h.text_decoded]

/-- Four characters for every group of bytes begun. -/
private theorem length_base64Decode {s : List UInt8} (hcanonical : IsCanonical s) :
    4 * (((base64Decode s).length + 2) / 3) = s.length := by
  rw [← length_text, text_base64Decode hcanonical]

/-- A canonical text comes back when it is decoded and encoded. -/
private theorem base64Encode_base64Decode {s : List UInt8} (hcanonical : IsCanonical s)
    (hlen : s.length < 2 ^ 31) : base64Encode (base64Decode s) = s := by
  have hbytes := length_base64Decode hcanonical
  rw [base64Encode_eq_text (by omega), text_base64Decode hcanonical]

/-! ## Bijections -/

/-- The byte vectors whose texts an `int` can count. -/
def encodable : Set (List UInt8) := {buf | 4 * ((buf.length + 2) / 3) < 2 ^ 31}

/-- The canonical texts that an `int` can count. -/
def canonicalTexts : Set (List UInt8) := {s | IsCanonical s ∧ s.length < 2 ^ 31}

/-- What the encoder writes is canonical. -/
private theorem mapsTo_base64Encode : Set.MapsTo base64Encode encodable canonicalTexts := by
  intro buf hbuf
  have hlen : 4 * ((buf.length + 2) / 3) < 2 ^ 31 := hbuf
  obtain ⟨chars, hcanonical⟩ := canonical_text buf
  rw [base64Encode_eq_text (by omega)]
  exact ⟨⟨chars, _, hcanonical⟩, by rw [length_text]; exact hlen⟩

/-- A canonical text stands for bytes that an `int` can count. -/
private theorem mapsTo_base64Decode : Set.MapsTo base64Decode canonicalTexts encodable := by
  intro s hs
  obtain ⟨hcanonical, hlen⟩ := hs
  show 4 * (((base64Decode s).length + 2) / 3) < 2 ^ 31
  rw [length_base64Decode hcanonical]
  exact hlen

/-- Each function undoes the other. -/
private theorem invOn_base64 : Set.InvOn base64Decode base64Encode encodable canonicalTexts := by
  constructor
  · intro buf hbuf
    have hlen : 4 * ((buf.length + 2) / 3) < 2 ^ 31 := hbuf
    rw [base64Encode_eq_text (by omega), base64Decode_text]
  · intro s hs
    exact base64Encode_base64Decode hs.1 hs.2

/-- The encoder writes canonical texts, of the length and with the padding that belong to
    the number of bytes; a canonical text is what the encoder makes of its bytes; and the
    two functions are inverse bijections. -/
theorem base64_canonical :
    (∀ buf : List UInt8, buf.length < 2 ^ 31 →
      (base64Encode buf).length = 4 * ((buf.length + 2) / 3) ∧
        ∃ chars, Canonical (base64Encode buf) chars ((3 - buf.length % 3) % 3)) ∧
    (∀ s, IsCanonical s → s.length < 2 ^ 31 → base64Encode (base64Decode s) = s) ∧
    Set.InvOn base64Decode base64Encode encodable canonicalTexts ∧
    Set.BijOn base64Encode encodable canonicalTexts ∧
    Set.BijOn base64Decode canonicalTexts encodable := by
  refine ⟨fun buf hlen => ?_, fun s hcanonical hlen => ?_, invOn_base64, ?_, ?_⟩
  · rw [base64Encode_eq_text (by omega)]
    exact ⟨length_text buf, canonical_text buf⟩
  · exact base64Encode_base64Decode hcanonical hlen
  · exact invOn_base64.bijOn mapsTo_base64Encode mapsTo_base64Decode
  · exact invOn_base64.symm.bijOn mapsTo_base64Decode mapsTo_base64Encode

/-- One byte, and its text. -/
theorem base64_canonical_oneByte :
    ((base64Encode [0x4d]).length = 4 ∧ ∃ chars, Canonical (base64Encode [0x4d]) chars 2) ∧
      base64Encode (base64Decode (ascii "TQ==")) = ascii "TQ==" := by
  obtain ⟨hencode, hdecode, -, -, -⟩ := base64_canonical
  refine ⟨hencode [0x4d] (by decide), hdecode (ascii "TQ==") ?_ (by decide +kernel)⟩
  refine ⟨ascii "TQ", 2, by decide +kernel, by decide +kernel, by decide, by decide +kernel, ?_⟩
  intro char hchar
  obtain rfl : 81 = char := by simpa [ascii] using hchar
  decide +kernel

end R2CP.Base64
