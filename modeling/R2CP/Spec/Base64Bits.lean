import R2CP.ForStd.Bits
import R2CP.Spec.Base64Correct

/-!
# The bits of a Base64 text

A character of the alphabet stands for the six bits of its index, and the decoder
packs the bits of the characters into bytes until it meets a character that is not in
the alphabet. Bits that do not fill a byte are dropped. `base64Decode_eq_iff` says
so for any text, whether or not an encoder wrote it.

`decoded` states what the loop computes from the characters, group by group. Within a
group the bits of the bytes are those of the indices, because both are the digits of
one number of 24 bits.

## Key results

- `base64Decode_eq_iff`: the bytes that the decoder returns, by the bits of the characters
-/

namespace R2CP.Base64

/-! ## The prefix that is read -/

/-- The characters up to the first one that is not in the alphabet. -/
def alphabetPrefix (s : List UInt8) : List UInt8 := s.takeWhile (· ∈ base64Chars)

/-- The prefix consists of characters of the alphabet. -/
private theorem mem_alphabetPrefix {s : List UInt8} :
    ∀ char ∈ alphabetPrefix s, char ∈ base64Chars := by
  intro char hchar
  exact of_decide_eq_true
    (List.mem_takeWhile_imp (p := fun c => decide (c ∈ base64Chars)) hchar)

/-! ## What the loop computes -/

/-- The bytes of characters of the alphabet, group by group. -/
def decoded : List UInt8 → List UInt8
  | [] => []
  | [a] => decodeRest [a]
  | [a, b] => decodeRest [a, b]
  | [a, b, c] => decodeRest [a, b, c]
  | a :: b :: c :: d :: chars =>
    charArray3 (base64Find a) (base64Find b) (base64Find c) (base64Find d) ++ decoded chars

/-- Where the text ends or leaves the alphabet, the loop ends. -/
private theorem decodeLoop_stops {rest : List UInt8}
    (hrest : ∀ char ∈ rest.head?, char ∉ base64Chars)
    (charArray4 ret : List UInt8) : decodeLoop rest charArray4 ret = (charArray4, ret) := by
  cases rest with
  | nil => rfl
  | cons char rest =>
    have hchar : ¬ isBase64 char = true := by
      rw [isBase64_iff]
      exact hrest char (by simp)
    rw [decodeLoop, if_neg fun h => hchar h.2]

/-- An unfinished group is left over. -/
private theorem decodeLoop_rest {chars rest : List UInt8}
    (hchars : ∀ char ∈ chars, char ∈ base64Chars)
    (hrest : ∀ char ∈ rest.head?, char ∉ base64Chars) (hlen : chars.length ≤ 3)
    (ret : List UInt8) : decodeLoop (chars ++ rest) [] ret = (chars, ret) := by
  have hbase : ∀ char ∈ chars, isBase64 char = true := fun char h =>
    (isBase64_iff char).mpr (hchars char h)
  rw [decodeLoop_collects hbase [] rest ret (by simpa using hlen), List.nil_append,
    decodeLoop_stops hrest]

/-- The loop and its tail compute the bytes of the characters, and the rest is not looked
    at. -/
private theorem decodeLoop_decoded {chars rest : List UInt8}
    (hchars : ∀ char ∈ chars, char ∈ base64Chars)
    (hrest : ∀ char ∈ rest.head?, char ∉ base64Chars) (ret : List UInt8) :
    (decodeLoop (chars ++ rest) [] ret).2 ++ decodeRest (decodeLoop (chars ++ rest) [] ret).1 =
      ret ++ decoded chars := by
  fun_induction decoded chars generalizing ret with
  | case1 =>
    rw [decodeLoop_rest hchars hrest (by simp)]
    rfl
  | case2 a => rw [decodeLoop_rest hchars hrest (by simp)]
  | case3 a b => rw [decodeLoop_rest hchars hrest (by simp)]
  | case4 a b c => rw [decodeLoop_rest hchars hrest (by simp)]
  | case5 a b c d chars ih =>
    obtain ⟨hthree, hothers⟩ : (∀ char ∈ [a, b, c], char ∈ base64Chars) ∧
        ∀ char ∈ d :: chars, char ∈ base64Chars := List.forall_mem_append.mp hchars
    have hbase : ∀ char ∈ [a, b, c], isBase64 char = true := fun char h =>
      (isBase64_iff char).mpr (hthree char h)
    have hd : isBase64 d = true := (isBase64_iff d).mpr (hothers d (by simp))
    have hsplit : a :: b :: c :: d :: chars ++ rest = [a, b, c] ++ (d :: (chars ++ rest)) := rfl
    -- three characters are collected, and the fourth one has the group written
    rw [hsplit, decodeLoop_collects hbase [] _ ret (by simp), List.nil_append,
      decodeLoop_group hd, ih (fun char h => hothers char (by simp [h])), List.append_assoc]

/-- The decoder computes the bytes of the longest prefix of characters of the alphabet. -/
theorem base64Decode_eq_decoded (s : List UInt8) : base64Decode s = decoded (alphabetPrefix s) := by
  have hsplit : alphabetPrefix s ++ s.dropWhile (· ∈ base64Chars) = s :=
    List.takeWhile_append_dropWhile
  have hrest : ∀ char ∈ (s.dropWhile (· ∈ base64Chars)).head?, char ∉ base64Chars := by
    intro char hchar hmem
    have hnot := List.head?_dropWhile_not (fun c => decide (c ∈ base64Chars)) s
    rw [Option.mem_def.mp hchar] at hnot
    simp [hmem] at hnot
  have h := decodeLoop_decoded (mem_alphabetPrefix (s := s)) hrest []
  rw [hsplit] at h
  exact h

/-! ## Bits -/

/-- The bits of a byte. -/
def byteBits (b : UInt8) : List Bool := Nat.bitsBE 8 b.toNat

/-- The bits of an index. -/
def sixBits (i : UInt8) : List Bool := Nat.bitsBE 6 i.toNat

/-- The six bits that a character of the alphabet stands for. -/
def indexBits (char : UInt8) : List Bool := Nat.bitsBE 6 (base64Chars.idxOf char)

/-- A byte has eight bits. -/
private theorem length_byteBits (b : UInt8) : (byteBits b).length = 8 := Nat.length_bitsBE _ _

/-- An index has six bits. -/
private theorem length_sixBits (i : UInt8) : (sixBits i).length = 6 := Nat.length_bitsBE _ _

/-- So has the index of a character. -/
private theorem length_indexBits (char : UInt8) :
    (indexBits char).length = 6 := Nat.length_bitsBE _ _

/-- A byte is determined by its bits. -/
private theorem byteBits_injective : Function.Injective byteBits := by
  intro a b h
  exact UInt8.toNat_inj.mp (Nat.bitsBE_inj a.toNat_lt b.toNat_lt h)

/-- Three bytes have the bits of their number. -/
private theorem flatMap_byteBits (a b c : UInt8) :
    [a, b, c].flatMap byteBits = Nat.bitsBE 24 (groupOfBytes a b c) := by
  have hlt : ∀ d ∈ [c.toNat, b.toNat, a.toNat], d < 2 ^ 8 := by
    simpa using ⟨c.toNat_lt, b.toNat_lt, a.toNat_lt⟩
  have hdigits := Nat.flatMap_bitsBE_digits 8 hlt
  have hgroup : Nat.ofDigits (2 ^ 8) [c.toNat, b.toNat, a.toNat] = groupOfBytes a b c := by
    simp only [Nat.ofDigits_cons, Nat.ofDigits_nil, groupOfBytes]
    omega
  rw [hgroup] at hdigits
  exact hdigits

/-- So have four indices. -/
private theorem flatMap_indices {a b c d : UInt8} (ha : a < 64) (hb : b < 64) (hc : c < 64)
    (hd : d < 64) :
    [a, b, c, d].flatMap sixBits =
      Nat.bitsBE 24 (groupOfIndices a b c d) := by
  rw [UInt8.lt_iff_toNat_lt] at ha hb hc hd
  have hlt : ∀ i ∈ [d.toNat, c.toNat, b.toNat, a.toNat], i < 2 ^ 6 := by
    simpa using ⟨hd, hc, hb, ha⟩
  have hdigits := Nat.flatMap_bitsBE_digits 6 hlt
  have hgroup : Nat.ofDigits (2 ^ 6) [d.toNat, c.toNat, b.toNat, a.toNat] =
      groupOfIndices a b c d := by
    simp only [Nat.ofDigits_cons, Nat.ofDigits_nil, groupOfIndices]
    omega
  rw [hgroup] at hdigits
  exact hdigits

/-- The three bytes of four indices have the same bits. -/
private theorem flatMap_charArray3 {a b c d : UInt8} (ha : a < 64) (hb : b < 64) (hc : c < 64)
    (hd : d < 64) :
    (charArray3 a b c d).flatMap byteBits =
      [a, b, c, d].flatMap sixBits := by
  obtain ⟨x, y, z, hxyz⟩ : ∃ x y z, charArray3 a b c d = [x, y, z] := ⟨_, _, _, rfl⟩
  have hbytes := toNat_charArray3 ha hb hc hd
  rw [hxyz] at hbytes
  simp only [List.map_cons, List.map_nil, List.cons.injEq, and_true] at hbytes
  obtain ⟨hx, hy, hz⟩ := hbytes
  have hgroup : groupOfBytes x y z = groupOfIndices a b c d := by
    rw [groupOfBytes, hx, hy, hz]
    omega
  rw [flatMap_indices ha hb hc hd, hxyz, flatMap_byteBits, hgroup]

/-- The bits of the characters are those of the looked up indices. -/
private theorem flatMap_indexBits {chars : List UInt8}
    (hchars : ∀ char ∈ chars, char ∈ base64Chars) :
    chars.flatMap indexBits =
      (chars.map base64Find).flatMap sixBits := by
  rw [List.flatMap_map]
  apply List.flatMap_congr
  intro char hchar
  rw [indexBits, sixBits, toNat_base64Find (hchars char hchar)]

/-- The first `n` bytes of a group have the first bits of its indices, and indices behind
    these bits do not matter. -/
private theorem flatMap_charArray3_take {a b c d : UInt8} (indices others : List UInt8) {n : Nat}
    (hsplit : [a, b, c, d] = indices ++ others) (hlt : ∀ i ∈ [a, b, c, d], i < 64)
    (hn : 8 * n ≤ 6 * indices.length) :
    ((charArray3 a b c d).take n).flatMap byteBits =
      (indices.flatMap sixBits).take (8 * n) := by
  have hlen : (indices.flatMap sixBits).length = 6 * indices.length :=
    List.length_flatMap_block length_sixBits indices
  rw [List.flatMap_take_block length_byteBits, flatMap_charArray3 (hlt a (by simp))
    (hlt b (by simp)) (hlt c (by simp)) (hlt d (by simp)), hsplit, List.flatMap_append,
    List.take_append_of_le_length (by rw [hlen]; exact hn)]

/-- The bytes of an unfinished group have the bits that fill them. What is looked up for the
    positions without a character comes later in the group, so a 0 may stand there. -/
private theorem flatMap_decodeRest {chars : List UInt8}
    (hchars : ∀ char ∈ chars, char ∈ base64Chars)
    (hlen : chars.length ≤ 3) :
    (decodeRest chars).flatMap byteBits =
      (chars.flatMap indexBits).take (8 * (6 * chars.length / 8)) := by
  rw [flatMap_indexBits hchars]
  have hlt : ∀ char ∈ chars, base64Find char < 64 := fun char h => base64Find_lt (hchars char h)
  rcases chars with _ | ⟨a, _ | ⟨b, _ | ⟨c, _ | ⟨d, chars⟩⟩⟩⟩
  · rfl
  · simp [decodeRest]
  · have hzero : decodeRest [a, b] = (charArray3 (base64Find a) (base64Find b) 0 0).take 1 :=
      charArray3_take_one _ _ _ _ 0 0
    rw [hzero, flatMap_charArray3_take [base64Find a, base64Find b] [0, 0] rfl (by simpa using hlt)
      (by simp)]
    simp
  · have hzero : decodeRest [a, b, c] =
        (charArray3 (base64Find a) (base64Find b) (base64Find c) 0).take 2 :=
      charArray3_take_two _ _ _ _ 0
    rw [hzero, flatMap_charArray3_take [base64Find a, base64Find b, base64Find c] [0] rfl
      (by simpa using hlt) (by simp)]
    simp
  · simp only [List.length_cons] at hlen
    omega

/-- The bytes of any characters of the alphabet have the bits that fill them. -/
private theorem flatMap_decoded {chars : List UInt8} (hchars : ∀ char ∈ chars, char ∈ base64Chars) :
    (decoded chars).flatMap byteBits =
      (chars.flatMap indexBits).take (8 * (6 * chars.length / 8)) := by
  fun_induction decoded chars with
  | case1 => rfl
  | case2 a => exact flatMap_decodeRest hchars (by simp)
  | case3 a b => exact flatMap_decodeRest hchars (by simp)
  | case4 a b c => exact flatMap_decodeRest hchars (by simp)
  | case5 a b c d chars ih =>
    obtain ⟨hgroup, hothers⟩ : (∀ char ∈ [a, b, c, d], char ∈ base64Chars) ∧
        ∀ char ∈ chars, char ∈ base64Chars := List.forall_mem_append.mp hchars
    have hbits := flatMap_charArray3 (base64Find_lt (hgroup a (by simp)))
      (base64Find_lt (hgroup b (by simp))) (base64Find_lt (hgroup c (by simp)))
      (base64Find_lt (hgroup d (by simp)))
    have hsplit : a :: b :: c :: d :: chars = [a, b, c, d] ++ chars := rfl
    have hlen : 8 * (6 * (a :: b :: c :: d :: chars).length / 8) =
        ([a, b, c, d].flatMap indexBits).length + 8 * (6 * chars.length / 8) := by
      rw [List.length_flatMap_block length_indexBits]
      simp only [List.length_cons, List.length_nil]
      omega
    rw [List.flatMap_append, hbits, ih hothers, hlen, hsplit,
      List.flatMap_append, List.take_length_add_append, flatMap_indexBits hgroup]
    rfl

/-! ## The decoder -/

/-- The decoder gives the bytes whose bits are those of the characters before the first one
    outside the alphabet, without those that do not fill a byte. -/
theorem base64Decode_eq_iff (s : List UInt8) :
    (base64Decode s).length = 6 * (alphabetPrefix s).length / 8 ∧
      ∀ bytes, base64Decode s = bytes ↔
        bytes.flatMap byteBits =
          ((alphabetPrefix s).flatMap indexBits).take
            (8 * (6 * (alphabetPrefix s).length / 8)) := by
  have hbits : (base64Decode s).flatMap byteBits =
      ((alphabetPrefix s).flatMap indexBits).take (8 * (6 * (alphabetPrefix s).length / 8)) := by
    rw [base64Decode_eq_decoded]
    exact flatMap_decoded mem_alphabetPrefix
  constructor
  · have hlen := congrArg List.length hbits
    rw [List.length_flatMap_block length_byteBits, List.length_take,
      List.length_flatMap_block length_indexBits] at hlen
    omega
  · intro bytes
    constructor
    · rintro rfl
      exact hbits
    · intro h
      exact List.flatMap_block_inj (by decide) length_byteBits byteBits_injective
        (hbits.trans h.symm)

end R2CP.Base64
