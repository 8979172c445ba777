import Mathlib

/-!
# Base64

`Base64::base64_encode` and `Base64::base64_decode` as the loops that they are:
bytes are collected three at a time and written as four characters of the
alphabet, and characters four at a time and written as three bytes. A
`std::string` is the list of its bytes.
-/

namespace R2CP.Base64

/-- The bytes of an ASCII text. -/
def ascii (text : String) : List UInt8 := text.toList.map fun c => c.toNat.toUInt8

/-- `base64_chars`, with the standard alphabet. -/
def base64Chars : List UInt8 :=
  ascii "ABCDEFGHIJKLMNOPQRSTUVWXYZabcdefghijklmnopqrstuvwxyz0123456789+/"

/-- The character of a 6-bit index. -/
def base64Char (i : UInt8) : UInt8 := base64Chars.getD i.toNat 0

/-- `char_array_4` of three collected bytes: their 24 bits in four portions. -/
def charArray4 (a b c : UInt8) : List UInt8 :=
  [(a &&& 0xfc) >>> 2,
    ((a &&& 0x03) <<< 4) + ((b &&& 0xf0) >>> 4),
    ((b &&& 0x0f) <<< 2) + ((c &&& 0xc0) >>> 6),
    c &&& 0x3f]

/-- The loop over the bytes that are left, with the bytes of an unfinished group in
    `charArray3`, in order. A full group is written and a new one begins. -/
def encodeLoop : (buf charArray3 ret : List UInt8) → List UInt8 × List UInt8
  | [], charArray3, ret => (charArray3, ret)
  | byte :: buf, charArray3, ret =>
    match charArray3 ++ [byte] with
    -- `i == 3`: four characters are written
    | [a, b, c] => encodeLoop buf [] (ret ++ (charArray4 a b c).map base64Char)
    | charArray3 => encodeLoop buf charArray3 ret

/-- The characters of an unfinished group of one or two bytes, filled up with zeros and
    then with `=`; nothing if there is none. -/
def encodeRest : (charArray3 : List UInt8) → List UInt8
  | [a] => ((charArray4 a 0 0).take 2).map base64Char ++ ascii "=="
  | [a, b] => ((charArray4 a b 0).take 3).map base64Char ++ ascii "="
  | _ => []

/-- The loop runs `unsigned bufLen` times, so it sees the length modulo `2 ^ 32`. -/
def base64Encode (buf : List UInt8) : List UInt8 :=
  let (charArray3, ret) := encodeLoop (buf.take (buf.length % 2 ^ 32)) [] []
  ret ++ encodeRest charArray3

/-! ## Decoding -/

/-- `isalnum` of the C locale. -/
def isAlnum (c : UInt8) : Bool :=
  (48 ≤ c && c ≤ 57) || (65 ≤ c && c ≤ 90) || (97 ≤ c && c ≤ 122)

/-- `is_base64`: a letter, a digit, `+` or `/`. -/
def isBase64 (c : UInt8) : Bool := isAlnum c || c == 43 || c == 47

/-- `base64_chars.find` put into a byte. A character that is not found gives `npos`,
    of which the byte 255 is left. -/
def base64Find (c : UInt8) : UInt8 :=
  match base64Chars.idxOf? c with
  | some i => i.toUInt8
  | none => 255

/-- `char_array_3` of four looked up characters: the bytes that their indices make up. -/
def charArray3 (a b c d : UInt8) : List UInt8 :=
  [(a <<< 2) + ((b &&& 0x30) >>> 4),
    ((b &&& 0x0f) <<< 4) + ((c &&& 0x3c) >>> 2),
    ((c &&& 0x03) <<< 6) + d]

/-- The loop over the characters that are left, with those of an unfinished group in
    `charArray4`, in order. It stops at the first character outside the alphabet. -/
def decodeLoop : (encodedString charArray4 ret : List UInt8) → List UInt8 × List UInt8
  | [], charArray4, ret => (charArray4, ret)
  | char :: encodedString, charArray4, ret =>
    if char ≠ 61 ∧ isBase64 char then
      match charArray4 ++ [char] with
      -- `i == 4`: three bytes are written
      | [a, b, c, d] =>
        decodeLoop encodedString []
          (ret ++ charArray3 (base64Find a) (base64Find b) (base64Find c) (base64Find d))
      | charArray4 => decodeLoop encodedString charArray4 ret
    else
      -- `=` or a foreign character ends the text, whatever is behind it
      (charArray4, ret)

/-- The bytes of an unfinished group of one, two or three characters: one less than
    there are characters. The zeros that fill the group up are looked up as well. -/
def decodeRest : (charArray4 : List UInt8) → List UInt8
  | [a] => (charArray3 (base64Find a) (base64Find 0) (base64Find 0) (base64Find 0)).take 0
  | [a, b] => (charArray3 (base64Find a) (base64Find b) (base64Find 0) (base64Find 0)).take 1
  | [a, b, c] => (charArray3 (base64Find a) (base64Find b) (base64Find c) (base64Find 0)).take 2
  | _ => []

/-- The characters are counted in an `int`, so this is the code for the texts that an
    `int` can count, those of fewer than `2 ^ 31` characters. -/
def base64Decode (encodedString : List UInt8) : List UInt8 :=
  let (charArray4, ret) := decodeLoop encodedString [] []
  ret ++ decodeRest charArray4

/-- The three residues of the length modulo 3. -/
example : [[0x4d], [0x4d, 0x61], [0x4d, 0x61, 0x6e]].map base64Encode =
    ["TQ==", "TWE=", "TWFu"].map ascii := by
  decide +kernel

/-- One character alone holds no byte, and the padding is not needed. -/
example : ["T", "TW", "TWE=x", "TWFuTQ"].map (fun s => base64Decode (ascii s)) =
    [[], [0x4d], [0x4d, 0x61], [0x4d, 0x61, 0x6e, 0x4d]] := by
  decide +kernel

end R2CP.Base64
