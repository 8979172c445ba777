import R2CP.Spec.Base64Canonical

/-!
# Joined texts

A text without padding can be followed by another one: the decoder reads both, and they are
what the encoder writes for the bytes of both. A text with padding is the last one that is
read. What is behind it in the same message is lost without a word
(`base64Decode_flatten`).

## Key results

- `base64Decode_flatten`: what the decoder reads of texts that follow each other
- `base64Encode_append_iff`: exactly when the texts of two vectors join
-/

namespace R2CP.Base64

/-- Full groups are read one after the other. -/
private theorem decoded_append {chars chars' : List UInt8} (h : 4 ∣ chars.length) :
    decoded (chars ++ chars') = decoded chars ++ decoded chars' := by
  fun_induction decoded chars with
  | case1 => rfl
  | case2 a | case3 a b | case4 a b c =>
    simp only [List.length_cons, List.length_nil] at h
    omega
  | case5 a b c d chars ih =>
    have hrest : 4 ∣ chars.length := by
      simp only [List.length_cons] at h
      omega
    rw [List.append_assoc, ← ih hrest]
    rfl

/-- So are full groups of bytes written. -/
private theorem text_append {a b : List UInt8} (h : 3 ∣ a.length) :
    text (a ++ b) = text a ++ text b := by
  fun_induction text a with
  | case1 => rfl
  | case2 x | case3 x y =>
    simp only [List.length_cons, List.length_nil] at h
    omega
  | case4 x y z buf ih =>
    have hrest : 3 ∣ buf.length := by
      simp only [List.length_cons] at h
      omega
    rw [List.append_assoc, ← ih hrest]
    rfl

/-- The decoder goes on behind a text exactly if the text has no padding. -/
private theorem base64Decode_text_append (buf s : List UInt8) :
    base64Decode (text buf ++ s) = buf ++ if 3 ∣ buf.length then base64Decode s else [] := by
  obtain ⟨chars, hcanonical⟩ := canonical_text buf
  have hchars : ∀ char ∈ chars, decide (char ∈ base64Chars) = true := by
    simpa using hcanonical.alphabet
  -- the characters in front of the padding stand for the bytes
  have hbuf : decoded chars = buf := by
    rw [← hcanonical.alphabetPrefix_eq, ← base64Decode_eq_decoded, base64Decode_text]
  have hgroups := hcanonical.groups
  have htext := hcanonical.text_eq
  rw [base64Decode_eq_decoded, alphabetPrefix, htext, List.append_assoc,
    List.takeWhile_append_of_pos hchars]
  by_cases h : 3 ∣ buf.length
  · have hpad : (3 - buf.length % 3) % 3 = 0 := by omega
    rw [hpad] at hgroups ⊢
    rw [if_pos h, List.replicate_zero, List.nil_append, base64Decode_eq_decoded,
      decoded_append (Nat.dvd_of_mod_eq_zero (by simpa using hgroups)), hbuf, alphabetPrefix]
  · -- the first sign is where the decoder stops
    obtain ⟨pad, hpad⟩ : ∃ pad, (3 - buf.length % 3) % 3 = pad + 1 :=
      Nat.exists_eq_succ_of_ne_zero (by omega)
    have hstop : (List.replicate (pad + 1) 61 ++ s).takeWhile (· ∈ base64Chars) = [] := rfl
    rw [hpad, hstop, if_neg h, List.append_nil, List.append_nil, hbuf]

/-- What is read of texts that follow each other: those up to the first one with padding. -/
def readable : List (List UInt8) → List (List UInt8)
  | [] => []
  | buf :: bufs => if 3 ∣ buf.length then buf :: readable bufs else [buf]

/-- The same for the texts that the encoder writes. -/
private theorem base64Decode_flatten_text (bufs : List (List UInt8)) :
    base64Decode (bufs.map text).flatten = (readable bufs).flatten := by
  induction bufs with
  | nil => rfl
  | cons buf bufs ih =>
    rw [List.map_cons, List.flatten_cons, base64Decode_text_append, ih, readable]
    split
    · rw [List.flatten_cons]
    · rw [List.flatten_singleton, List.append_nil]

/-- Of texts in one message, whose characters an `int` can count, the decoder gives the bytes
    of those up to the first one with padding. -/
theorem base64Decode_flatten {bufs : List (List UInt8)}
    (h : (bufs.map text).flatten.length < 2 ^ 31) :
    base64Decode (bufs.map base64Encode).flatten = (readable bufs).flatten := by
  have htexts : bufs.map base64Encode = bufs.map text := by
    apply List.map_congr_left
    intro buf hbuf
    apply base64Encode_eq_text
    have hle := List.Sublist.length_le
      (List.sublist_flatten_of_mem (List.mem_map_of_mem (f := text) hbuf))
    rw [length_text] at hle
    omega
  rw [htexts, base64Decode_flatten_text]

/-- The second text ends with a sign, and the third is lost. -/
theorem base64Decode_flatten_three :
    base64Decode ([[0x4d, 0x61, 0x6e], [0x4d, 0x61], [0x4d]].map base64Encode).flatten =
      (readable [[0x4d, 0x61, 0x6e], [0x4d, 0x61], [0x4d]]).flatten :=
  base64Decode_flatten (by decide +kernel)

/-- The texts of two byte vectors one after the other are the text of both exactly if the
    first one has no padding or the second one is empty. -/
theorem base64Encode_append_iff {a b : List UInt8} (h : (a ++ b).length < 2 ^ 32) :
    base64Encode (a ++ b) = base64Encode a ++ base64Encode b ↔ 3 ∣ a.length ∨ b = [] := by
  rw [List.length_append] at h
  rw [base64Encode_eq_text (by rw [List.length_append]; exact h),
    base64Encode_eq_text (by omega), base64Encode_eq_text (by omega)]
  constructor
  · intro htext
    by_contra hnot
    rw [not_or] at hnot
    -- of the joined texts the decoder reads the first one only
    have hdecoded := congrArg base64Decode htext
    rw [base64Decode_text, base64Decode_text_append, if_neg hnot.1, List.append_nil] at hdecoded
    exact hnot.2 (List.append_right_eq_self.mp hdecoded)
  · rintro (hgroups | rfl)
    · exact text_append hgroups
    · rw [List.append_nil, text, List.append_nil]

/-- A full group and one byte. -/
theorem base64Encode_append_group :
    base64Encode ([0x4d, 0x61, 0x6e] ++ [0x4d]) =
        base64Encode [0x4d, 0x61, 0x6e] ++ base64Encode [0x4d] ↔
      3 ∣ [(0x4d : UInt8), 0x61, 0x6e].length ∨ [(0x4d : UInt8)] = [] :=
  base64Encode_append_iff (by decide)

end R2CP.Base64
