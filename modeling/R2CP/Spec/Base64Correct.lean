import R2CP.Native.WebSocketServer

/-!
# Base64 correctness

A byte vector goes over the connection as its Base64 text. `text` states what
that text is: the characters of the groups of three bytes, and those of a shorter
last group with its padding. The encoder writes the text, and the decoder gets the
bytes back from it.

The masks and shifts of both directions are digits: three bytes are a number of 24
bits in base `2 ^ 8`, and `charArray4` has its digits in base `2 ^ 6`.

## Key results

- `base64Decode_base64Encode`: the decoder gets the bytes back from their text
- `base64Encode_eq_text`: the encoder writes the text
-/

namespace R2CP.Base64

/-! ## The alphabet -/

/-- The alphabet has 64 characters. -/
private theorem length_base64Chars : base64Chars.length = 64 := by decide +kernel

/-- None of them occurs twice. -/
private theorem nodup_base64Chars : base64Chars.Nodup := by decide +kernel

/-- `is_base64` is membership in the alphabet. -/
theorem isBase64_iff (char : UInt8) : isBase64 char = true ↔ char ∈ base64Chars := by
  have hmem : ∀ c : UInt8, isBase64 c = true → c ∈ base64Chars := by decide +kernel
  have hbase : base64Chars.all isBase64 = true := by decide +kernel
  exact ⟨hmem char, List.all_eq_true.mp hbase char⟩

section Indices

variable {i : UInt8}

/-- `base64Char` reads the alphabet where it is defined. -/
private theorem getElem?_base64Chars (h : i < 64) :
    base64Chars[i.toNat]? = some (base64Char i) := by
  have hlt : i.toNat < base64Chars.length := by
    rw [length_base64Chars]
    exact h
  rw [base64Char, List.getD_eq_getElem?_getD, List.getElem?_eq_getElem hlt, Option.getD_some]

/-- Each index has its character. -/
theorem base64Char_mem (h : i < 64) : base64Char i ∈ base64Chars :=
  List.mem_of_getElem? (getElem?_base64Chars h)

/-- The index of the character of an index is that index. -/
theorem idxOf_base64Char (h : i < 64) : base64Chars.idxOf (base64Char i) = i.toNat := by
  obtain ⟨hlt, hchar⟩ := List.getElem?_eq_some_iff.mp (getElem?_base64Chars h)
  rw [← hchar, nodup_base64Chars.idxOf_getElem]

end Indices

section Characters

variable {char : UInt8}

/-- A character of the alphabet has an index below 64. -/
private theorem idxOf_lt (h : char ∈ base64Chars) : base64Chars.idxOf char < 64 := by
  rw [← length_base64Chars]
  exact List.idxOf_lt_length_of_mem h

/-- An index fits into a byte. -/
theorem toNat_base64Find (h : char ∈ base64Chars) :
    (base64Find char).toNat = base64Chars.idxOf char := by
  have hlt := idxOf_lt h
  rw [List.idxOf_eq_getD_idxOf?] at hlt ⊢
  cases hfind : base64Chars.idxOf? char with
  | none => exact absurd h (List.idxOf?_eq_none_iff.mp hfind)
  | some i =>
    rw [hfind, Option.getD_some] at hlt
    rw [base64Find, hfind, Option.getD_some, Nat.toUInt8, UInt8.toNat_ofNat']
    exact Nat.mod_eq_of_lt (by omega)

/-- `find` returns such an index for it. -/
theorem base64Find_lt (h : char ∈ base64Chars) : base64Find char < 64 := by
  rw [UInt8.lt_iff_toNat_lt, toNat_base64Find h]
  exact idxOf_lt h

/-- And the character comes back from what `find` returns. -/
theorem base64Char_base64Find (h : char ∈ base64Chars) : base64Char (base64Find char) = char := by
  rw [base64Char, toNat_base64Find h, List.getD_eq_getElem?_getD, List.getElem?_idxOf h,
    Option.getD_some]

end Characters

/-- An index is found again. -/
private theorem base64Find_base64Char (i : UInt8) (h : i < 64) : base64Find (base64Char i) = i := by
  apply UInt8.toNat_inj.mp
  rw [toNat_base64Find (base64Char_mem h), idxOf_base64Char h]

/-- What an index is written as does not stop the decoder. -/
private theorem isBase64_base64Char (i : UInt8) (h : i < 64) : isBase64 (base64Char i) = true :=
  (isBase64_iff _).mpr (base64Char_mem h)

/-! ## Masks -/

/-- The masks of both functions are digits, on the values that a byte can have. -/
private theorem and_masks : ∀ x < 256,
    x &&& 3 = x % 4 ∧ x &&& 15 = x % 16 ∧ x &&& 48 = x % 64 / 16 * 16 ∧
    x &&& 60 = x % 64 / 4 * 4 ∧ x &&& 63 = x % 64 ∧ x &&& 192 = x / 64 * 64 ∧
    x &&& 240 = x / 16 * 16 ∧ x &&& 252 = x / 4 * 4 := by
  decide +kernel

/-- A mask with a block of ones cuts the digits out that the block covers. -/
private theorem toNat_and_masks (x : UInt8) :
    (x &&& 0x03).toNat = x.toNat % 4 ∧ (x &&& 0x0f).toNat = x.toNat % 16 ∧
    (x &&& 0x30).toNat = x.toNat % 64 / 16 * 16 ∧ (x &&& 0x3c).toNat = x.toNat % 64 / 4 * 4 ∧
    (x &&& 0x3f).toNat = x.toNat % 64 ∧ (x &&& 0xc0).toNat = x.toNat / 64 * 64 ∧
    (x &&& 0xf0).toNat = x.toNat / 16 * 16 ∧ (x &&& 0xfc).toNat = x.toNat / 4 * 4 := by
  simp only [UInt8.toNat_and, UInt8.reduceToNat]
  exact and_masks x.toNat x.toNat_lt

/-! ## Groups -/

/-- The number of 24 bits of three bytes. -/
def groupOfBytes (a b c : UInt8) : Nat := a.toNat * 2 ^ 16 + b.toNat * 2 ^ 8 + c.toNat

/-- The number of 24 bits of four indices. -/
def groupOfIndices (a b c d : UInt8) : Nat :=
  a.toNat * 2 ^ 18 + b.toNat * 2 ^ 12 + c.toNat * 2 ^ 6 + d.toNat

/-- The indices of a group are its digits in base `2 ^ 6`. -/
theorem toNat_charArray4 (a b c : UInt8) :
    (charArray4 a b c).map UInt8.toNat =
      [groupOfBytes a b c / 2 ^ 18, groupOfBytes a b c / 2 ^ 12 % 2 ^ 6,
        groupOfBytes a b c / 2 ^ 6 % 2 ^ 6, groupOfBytes a b c % 2 ^ 6] := by
  have ha := a.toNat_lt
  have hb := b.toNat_lt
  have hc := c.toNat_lt
  simp only [charArray4, groupOfBytes, List.map_cons, List.map_nil, UInt8.toNat_add,
    UInt8.toNat_shiftRight, UInt8.toNat_shiftLeft, UInt8.reduceToNat, toNat_and_masks,
    Nat.shiftRight_eq_div_pow, Nat.shiftLeft_eq, Nat.reduceMod, Nat.reducePow, List.cons.injEq,
    and_true]
  omega

/-- The bytes of a group are its digits in base `2 ^ 8`. -/
theorem toNat_charArray3 {a b c d : UInt8} (ha : a < 64) (hb : b < 64) (hc : c < 64)
    (hd : d < 64) :
    (charArray3 a b c d).map UInt8.toNat =
      [groupOfIndices a b c d / 2 ^ 16, groupOfIndices a b c d / 2 ^ 8 % 2 ^ 8,
        groupOfIndices a b c d % 2 ^ 8] := by
  rw [UInt8.lt_iff_toNat_lt] at ha hb hc hd
  simp only [UInt8.reduceToNat] at ha hb hc hd
  simp only [charArray3, groupOfIndices, List.map_cons, List.map_nil, UInt8.toNat_add,
    UInt8.toNat_shiftRight, UInt8.toNat_shiftLeft, UInt8.reduceToNat, toNat_and_masks,
    Nat.shiftRight_eq_div_pow, Nat.shiftLeft_eq, Nat.reduceMod,
    Nat.reducePow, List.cons.injEq, and_true]
  omega

/-- The first byte of a group is in its first two indices, -/
theorem charArray3_take_one (a b c d c' d' : UInt8) :
    (charArray3 a b c d).take 1 = (charArray3 a b c' d').take 1 := rfl

/-- and the first two bytes are in its first three. -/
theorem charArray3_take_two (a b c d d' : UInt8) :
    (charArray3 a b c d).take 2 = (charArray3 a b c d').take 2 := rfl

/-- A group of bytes is cut into indices that make up the same bytes. -/
theorem charArray4_split (a b c : UInt8) :
    ∃ i₀ i₁ i₂ i₃, charArray4 a b c = [i₀, i₁, i₂, i₃] ∧
      (i₀ < 64 ∧ i₁ < 64 ∧ i₂ < 64 ∧ i₃ < 64) ∧ charArray3 i₀ i₁ i₂ i₃ = [a, b, c] := by
  have h := toNat_charArray4 a b c
  obtain ⟨i₀, i₁, i₂, i₃, hi⟩ : ∃ i₀ i₁ i₂ i₃, charArray4 a b c = [i₀, i₁, i₂, i₃] :=
    ⟨_, _, _, _, rfl⟩
  have ha := a.toNat_lt
  have hb := b.toNat_lt
  have hc := c.toNat_lt
  rw [hi] at h
  simp only [List.map_cons, List.map_nil, List.cons.injEq, and_true, groupOfBytes] at h
  obtain ⟨h₀, h₁, h₂, h₃⟩ := h
  -- the digits in base 64 are below 64
  have hlt : i₀ < 64 ∧ i₁ < 64 ∧ i₂ < 64 ∧ i₃ < 64 := by
    simp only [UInt8.lt_iff_toNat_lt, UInt8.reduceToNat]
    omega
  refine ⟨i₀, i₁, i₂, i₃, hi, hlt, ?_⟩
  have h3 := toNat_charArray3 hlt.1 hlt.2.1 hlt.2.2.1 hlt.2.2.2
  have hinj : Function.Injective (List.map UInt8.toNat) :=
    List.map_injective_iff.mpr fun x y => UInt8.toNat_inj.mp
  -- both sides are the digits of one number of 24 bits
  apply hinj
  rw [h3]
  simp only [groupOfIndices, h₀, h₁, h₂, h₃, List.map_cons, List.map_nil, List.cons.injEq,
    and_true]
  omega

/-! ## The text of a byte vector -/

/-- The Base64 text of a byte vector of any length. -/
def text : List UInt8 → List UInt8
  | [] => []
  | [a] => encodeRest [a]
  | [a, b] => encodeRest [a, b]
  | a :: b :: c :: buf => (charArray4 a b c).map base64Char ++ text buf

/-- Four characters for every group begun. -/
theorem length_text (buf : List UInt8) : (text buf).length = 4 * ((buf.length + 2) / 3) := by
  fun_induction text buf with
  | case1 => rfl
  | case2 a => simp [encodeRest, charArray4, ascii]
  | case3 a b => simp [encodeRest, charArray4, ascii]
  | case4 a b c buf ih =>
    simp only [charArray4, List.length_append, List.length_map, List.length_cons,
      List.length_nil, ih]
    omega

/-- The encoder's loop and its tail write the text behind what is there. -/
private theorem encodeLoop_text (buf ret : List UInt8) :
    (encodeLoop buf [] ret).2 ++ encodeRest (encodeLoop buf [] ret).1 = ret ++ text buf := by
  fun_induction text buf generalizing ret with
  | case1 => rfl
  | case2 a => rfl
  | case3 a b => rfl
  | case4 a b c buf ih =>
    have hloop : encodeLoop (a :: b :: c :: buf) [] ret =
        encodeLoop buf [] (ret ++ (charArray4 a b c).map base64Char) := rfl
    rw [hloop, ih, List.append_assoc]

/-- The encoder writes the text of every byte vector whose length it can count. -/
theorem base64Encode_eq_text {buf : List UInt8} (h : buf.length < 2 ^ 32) :
    base64Encode buf = text buf := by
  have htake : buf.take (buf.length % 2 ^ 32) = buf := by
    rw [Nat.mod_eq_of_lt h, List.take_length]
  show (encodeLoop (buf.take (buf.length % 2 ^ 32)) [] []).2 ++
    encodeRest (encodeLoop (buf.take (buf.length % 2 ^ 32)) [] []).1 = text buf
  rw [htake, encodeLoop_text, List.nil_append]

/-! ## Reading the text -/

/-- A character that does not fill its group is collected. -/
private theorem decodeLoop_collect {char : UInt8} {charArray4 : List UInt8}
    (hchar : isBase64 char = true)
    (hlen : charArray4.length < 3) (encodedString ret : List UInt8) :
    decodeLoop (char :: encodedString) charArray4 ret =
      decodeLoop encodedString (charArray4 ++ [char]) ret := by
  have hpad : char ≠ 61 := by
    rintro rfl
    simp [isBase64, isAlnum] at hchar
  rw [decodeLoop, if_pos ⟨hpad, hchar⟩]
  cases charArray4 with
  | nil => rfl
  | cons a charArray4 =>
    cases charArray4 with
    | nil => rfl
    | cons b charArray4 =>
      cases charArray4 with
      | nil => rfl
      | cons c charArray4 =>
        simp only [List.length_cons] at hlen
        omega

/-- So are up to three characters one after the other. -/
theorem decodeLoop_collects {chars : List UInt8} (hchars : ∀ char ∈ chars, isBase64 char = true)
    (charArray4 encodedString ret : List UInt8) (hlen : charArray4.length + chars.length ≤ 3) :
    decodeLoop (chars ++ encodedString) charArray4 ret =
      decodeLoop encodedString (charArray4 ++ chars) ret := by
  induction chars generalizing charArray4 with
  | nil => rw [List.nil_append, List.append_nil]
  | cons char chars ih =>
    rw [List.length_cons] at hlen
    rw [List.cons_append, decodeLoop_collect (hchars char (by simp)) (by omega),
      ih (fun c hc => hchars c (by simp [hc])) _ (by simp; omega), List.append_assoc]
    rfl

/-- Indices are written as such characters. -/
private theorem isBase64_map_base64Char {indices : List UInt8} (hindices : ∀ i ∈ indices, i < 64) :
    ∀ char ∈ indices.map base64Char, isBase64 char = true := by
  intro char hchar
  obtain ⟨i, hi, rfl⟩ := List.mem_map.mp hchar
  exact isBase64_base64Char i (hindices i hi)

/-- The fourth character of a group has the group written. -/
theorem decodeLoop_group {d : UInt8} (hd : isBase64 d = true) (a b c : UInt8)
    (encodedString ret : List UInt8) :
    decodeLoop (d :: encodedString) [a, b, c] ret =
      decodeLoop encodedString []
        (ret ++ charArray3 (base64Find a) (base64Find b) (base64Find c) (base64Find d)) := by
  have hpad : d ≠ 61 := by
    rintro rfl
    simp [isBase64, isAlnum] at hd
  rw [decodeLoop, if_pos ⟨hpad, hd⟩]
  rfl

/-- The padding stops the decoder. -/
private theorem decodeLoop_pad (encodedString charArray4 ret : List UInt8) :
    decodeLoop (61 :: encodedString) charArray4 ret = (charArray4, ret) := by
  rw [decodeLoop, if_neg (by simp)]

/-- The decoder's loop and its tail get the bytes back from the text. -/
private theorem decodeLoop_text (buf ret : List UInt8) :
    (decodeLoop (text buf) [] ret).2 ++ decodeRest (decodeLoop (text buf) [] ret).1 =
      ret ++ buf := by
  fun_induction text buf generalizing ret with
  | case1 => rfl
  -- a rest of one byte has two characters, and of two bytes three
  | case2 a =>
    obtain ⟨i₀, i₁, i₂, i₃, hi, ⟨h₀, h₁, -, -⟩, hbytes⟩ := charArray4_split a 0 0
    have htext : encodeRest [a] = [i₀, i₁].map base64Char ++ [61, 61] := by
      simp only [encodeRest, hi]
      rfl
    have hbyte : (charArray3 i₀ i₁ (base64Find 0) (base64Find 0)).take 1 = [a] := by
      rw [charArray3_take_one i₀ i₁ _ _ i₂ i₃, hbytes]
      rfl
    rw [htext, decodeLoop_collects
      (isBase64_map_base64Char (by simp [h₀, h₁])) [] _ ret (by simp), decodeLoop_pad]
    simp only [List.map_cons, List.map_nil, List.nil_append, decodeRest,
      base64Find_base64Char _ h₀, base64Find_base64Char _ h₁, hbyte]
  | case3 a b =>
    obtain ⟨i₀, i₁, i₂, i₃, hi, ⟨h₀, h₁, h₂, -⟩, hbytes⟩ := charArray4_split a b 0
    have htext : encodeRest [a, b] = [i₀, i₁, i₂].map base64Char ++ [61] := by
      simp only [encodeRest, hi]
      rfl
    have hbyte : (charArray3 i₀ i₁ i₂ (base64Find 0)).take 2 = [a, b] := by
      rw [charArray3_take_two i₀ i₁ i₂ _ i₃, hbytes]
      rfl
    rw [htext, decodeLoop_collects
      (isBase64_map_base64Char (by simp [h₀, h₁, h₂])) [] _ ret (by simp), decodeLoop_pad]
    simp only [List.map_cons, List.map_nil, List.nil_append, decodeRest,
      base64Find_base64Char _ h₀, base64Find_base64Char _ h₁, base64Find_base64Char _ h₂, hbyte]
  -- a group of three bytes, and then the rest of the text
  | case4 a b c buf ih =>
    obtain ⟨i₀, i₁, i₂, i₃, hi, ⟨h₀, h₁, h₂, h₃⟩, hbytes⟩ := charArray4_split a b c
    have htext : (charArray4 a b c).map base64Char ++ text buf =
        [i₀, i₁, i₂].map base64Char ++ (base64Char i₃ :: text buf) := by
      rw [hi]
      rfl
    rw [htext, decodeLoop_collects
      (isBase64_map_base64Char (by simp [h₀, h₁, h₂])) [] _ ret (by simp)]
    -- the fourth character completes the group
    simp only [List.map_cons, List.map_nil, List.nil_append]
    rw [decodeLoop_group (isBase64_base64Char _ h₃), base64Find_base64Char _ h₀,
      base64Find_base64Char _ h₁, base64Find_base64Char _ h₂, base64Find_base64Char _ h₃, hbytes,
      ih, List.append_assoc]
    rfl

/-- What the decoder makes of a text. -/
theorem base64Decode_text (buf : List UInt8) : base64Decode (text buf) = buf :=
  decodeLoop_text buf []

/-- Decoding what was encoded gives the bytes back, whenever their text is one that the
    decoder can count. -/
theorem base64Decode_base64Encode {buf : List UInt8} (h : (text buf).length < 2 ^ 31) :
    base64Decode (base64Encode buf) = buf := by
  have hlen : buf.length < 2 ^ 32 := by
    rw [length_text] at h
    omega
  rw [base64Encode_eq_text hlen, base64Decode_text]

/-- One byte over a full group. -/
theorem base64Decode_base64Encode_four :
    base64Decode (base64Encode [0x4d, 0x61, 0x6e, 0xff]) = [0x4d, 0x61, 0x6e, 0xff] :=
  base64Decode_base64Encode (by decide +kernel)

end R2CP.Base64
