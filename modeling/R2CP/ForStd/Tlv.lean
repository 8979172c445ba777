import R2CP.ForStd.BigEndian

/-!
# Tag-length-value sequences

A `Tlv` is a 32-bit tag with a byte string. On the wire it is the big-endian
tag, the big-endian byte count and the bytes; a counted sequence is the number
of entries followed by the entries.

`Tlv.head_cases` says what a byte string can start with: a whole entry, too few
bytes for the two words, or an entry whose size goes past the end.
`Tlv.exists_split` cuts any byte string after its longest run of at most `k`
whole entries, and `Tlv.encodeAll_append_inj` says that the cut is unique.

## Key results

- `Tlv.encodeAll_append_inj`, `Tlv.encodeCounted_inj`: what the bytes of a sequence determine
- `Tlv.head_cases`: the three ways in which a byte string can start
- `Tlv.exists_split`: every byte string is whole entries and a rest that is none
-/

/-- A 32-bit tag with a byte string. -/
structure Tlv where
  tag : UInt32
  value : List UInt8
  deriving DecidableEq, Repr

namespace Tlv

/-- The size word can hold the length of the value. -/
def Sized (t : Tlv) : Prop := t.value.length < 2 ^ 32

instance : DecidablePred Sized := fun t => inferInstanceAs (Decidable (t.value.length < 2 ^ 32))

/-- Tag, size and value on the wire. -/
def encode (t : Tlv) : List UInt8 :=
  t.tag.toBytesBE ++ (UInt32.ofNat t.value.length).toBytesBE ++ t.value

/-- Consecutive entries. -/
def encodeAll (ts : List Tlv) : List UInt8 := ts.flatMap encode

/-- The number of entries followed by the entries. -/
def encodeCounted (ts : List Tlv) : List UInt8 :=
  (UInt32.ofNat ts.length).toBytesBE ++ encodeAll ts

/-- Four bytes for the tag, four for the size, and the value. -/
@[simp] theorem length_encode (t : Tlv) : t.encode.length = 8 + t.value.length := by
  simp only [encode, List.length_append, UInt32.length_toBytesBE]

/-- No entries are no bytes. -/
@[simp] theorem encodeAll_nil : encodeAll [] = [] := rfl

/-- The first entry comes first. -/
@[simp] theorem encodeAll_cons (t : Tlv) (ts : List Tlv) :
    encodeAll (t :: ts) = t.encode ++ encodeAll ts := rfl

/-- Sequences are put together byte by byte. -/
@[simp] theorem encodeAll_append (ts us : List Tlv) :
    encodeAll (ts ++ us) = encodeAll ts ++ encodeAll us := List.flatMap_append

/-- Eight bytes for each entry, and the values. -/
theorem length_encodeAll (ts : List Tlv) :
    (encodeAll ts).length = 8 * ts.length + (ts.map (·.value.length)).sum := by
  induction ts with
  | nil => rfl
  | cons t ts ih =>
    simp only [encodeAll_cons, List.length_append, length_encode, ih, List.length_cons,
      List.map_cons, List.sum_cons]
    omega

/-- The count takes four bytes more. -/
theorem length_encodeCounted (ts : List Tlv) :
    (encodeCounted ts).length = 4 + 8 * ts.length + (ts.map (·.value.length)).sum := by
  simp only [encodeCounted, List.length_append, UInt32.length_toBytesBE, length_encodeAll]
  omega

/-- An entry is no longer than a sequence that contains it. -/
theorem length_encode_le_of_mem {t : Tlv} {ts : List Tlv} (h : t ∈ ts) :
    t.encode.length ≤ (encodeAll ts).length := by
  obtain ⟨before, after, rfl⟩ := List.append_of_mem h
  simp only [encodeAll_append, encodeAll_cons, List.length_append]
  omega

/-- Entries of a sequence shorter than `2 ^ 32` are all sized. -/
theorem sized_of_length_encodeAll {ts : List Tlv} (h : (encodeAll ts).length < 2 ^ 32) :
    ∀ t ∈ ts, t.Sized := by
  intro t ht
  have := length_encode_le_of_mem ht
  rw [length_encode] at this
  show t.value.length < 2 ^ 32
  omega

/-- There are fewer entries than bytes. -/
theorem length_lt_of_length_encodeAll {ts : List Tlv} (h : (encodeAll ts).length < 2 ^ 32) :
    ts.length < 2 ^ 32 := by
  rw [length_encodeAll] at h
  omega

/-- The entries of a counted sequence are shorter than the sequence. -/
theorem length_encodeAll_lt {ts : List Tlv} {n : Nat} (h : (encodeCounted ts).length < n) :
    (encodeAll ts).length < n := by
  rw [encodeCounted, List.length_append] at h
  omega

/-! ## Reading entries back -/

/-- A byte string that starts with a whole entry determines the entry. -/
theorem encode_append_inj {t u : Tlv} (ht : t.Sized) (hu : u.Sized) {xs ys : List UInt8}
    (h : t.encode ++ xs = u.encode ++ ys) : t = u ∧ xs = ys := by
  simp only [encode, List.append_assoc] at h
  obtain ⟨htag, h⟩ := UInt32.toBytesBE_append_inj h
  obtain ⟨hlen, h⟩ := UInt32.toBytesBE_append_inj h
  have hlen' : t.value.length = u.value.length := by
    have := congrArg UInt32.toNat hlen
    rwa [UInt32.toNat_ofNat_length ht, UInt32.toNat_ofNat_length hu] at this
  -- the sizes agree, so both values are cut at one place
  obtain ⟨hval, hrest⟩ := List.append_inj h hlen'
  cases t
  cases u
  simp_all

/-- Equally many leading entries are the same entries. -/
theorem encodeAll_append_inj {ts us : List Tlv} (ht : ∀ t ∈ ts, t.Sized)
    (hu : ∀ u ∈ us, u.Sized) (hlen : ts.length = us.length) {xs ys : List UInt8}
    (h : encodeAll ts ++ xs = encodeAll us ++ ys) : ts = us ∧ xs = ys := by
  induction ts generalizing us with
  | nil =>
    cases us with
    | nil => exact ⟨rfl, h⟩
    | cons u us => simp at hlen
  | cons t ts ih =>
    cases us with
    | nil => simp at hlen
    | cons u us =>
      simp only [encodeAll_cons, List.append_assoc] at h
      obtain ⟨htu, hrest⟩ := encode_append_inj (ht t (by simp)) (hu u (by simp)) h
      obtain ⟨hts, hxy⟩ := ih (fun a ha => ht a (by simp [ha])) (fun a ha => hu a (by simp [ha]))
        (by simpa using hlen) hrest
      exact ⟨by rw [htu, hts], hxy⟩

/-- A counted sequence shorter than `2 ^ 32` determines its entries. -/
theorem encodeCounted_inj {ts us : List Tlv} (hlt : (encodeCounted ts).length < 2 ^ 32)
    (h : encodeCounted ts = encodeCounted us) : ts = us := by
  have hts := length_encodeAll_lt hlt
  have hus := length_encodeAll_lt (h ▸ hlt)
  obtain ⟨hcount, hentries⟩ := UInt32.toBytesBE_append_inj h
  -- the counts fit their words, so they are the lengths
  have hlen : ts.length = us.length := by
    have := congrArg UInt32.toNat hcount
    rwa [UInt32.toNat_ofNat_length (length_lt_of_length_encodeAll hts),
      UInt32.toNat_ofNat_length (length_lt_of_length_encodeAll hus)] at this
  have hall : encodeAll ts ++ [] = encodeAll us ++ [] := by
    rw [List.append_nil, List.append_nil, hentries]
  exact (encodeAll_append_inj (sized_of_length_encodeAll hts) (sized_of_length_encodeAll hus)
    hlen hall).1

/-- What a byte string can start with: a whole entry, too few bytes for tag and
    size, or an entry whose size goes past the end. -/
theorem head_cases (bs : List UInt8) :
    (∃ (t : Tlv) (rest : List UInt8), t.Sized ∧ bs = t.encode ++ rest) ∨ bs.length < 8 ∨
      ∃ (tag size : UInt32) (rest : List UInt8),
        bs = tag.toBytesBE ++ size.toBytesBE ++ rest ∧ rest.length < size.toNat := by
  by_cases h8 : bs.length < 8
  · exact .inr (.inl h8)
  obtain ⟨tag, size, rest, rfl⟩ := UInt32.exists_toBytesBE_append₂ (Nat.le_of_not_lt h8)
  by_cases hsize : rest.length < size.toNat
  · exact .inr (.inr ⟨tag, size, rest, by rw [List.append_assoc], hsize⟩)
  -- the value is the first `size` bytes behind the two words
  refine .inl ⟨⟨tag, rest.take size.toNat⟩, rest.drop size.toNat, ?_, ?_⟩
  · have := size.toNat_lt
    show (rest.take size.toNat).length < 2 ^ 32
    rw [List.length_take]
    omega
  · have hl : (rest.take size.toNat).length = size.toNat := List.length_take_of_le (by omega)
    simp only [encode, hl, UInt32.ofNat_toNat, List.append_assoc, List.take_append_drop]

/-- Cut a byte string after its leading whole entries, at most `k` of them. -/
theorem exists_split (k : Nat) (bs : List UInt8) :
    ∃ ts rest, bs = encodeAll ts ++ rest ∧ (∀ t ∈ ts, t.Sized) ∧
      (ts.length = k ∨ ts.length < k ∧
        (rest.length < 8 ∨ ∃ (tag size : UInt32) (more : List UInt8),
          rest = tag.toBytesBE ++ size.toBytesBE ++ more ∧ more.length < size.toNat)) := by
  induction k generalizing bs with
  | zero => exact ⟨[], bs, rfl, by simp, .inl rfl⟩
  | succ k ih =>
    rcases head_cases bs with ⟨t, rest, ht, rfl⟩ | hstuck
    · -- a whole entry: go on behind it, with one entry less to go
      obtain ⟨ts, rest', rfl, hts, hend⟩ := ih rest
      refine ⟨t :: ts, rest', by simp, ?_, ?_⟩
      · intro u hu
        rcases List.mem_cons.mp hu with rfl | hu
        · exact ht
        · exact hts u hu
      · simpa using hend
    · -- no whole entry: the run ends here
      exact ⟨[], bs, rfl, by simp, .inr ⟨by simp, hstuck⟩⟩

end Tlv
