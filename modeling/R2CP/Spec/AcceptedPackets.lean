import R2CP.ForStd.List
import R2CP.Spec.PacketGrammar
import R2CP.Spec.ParserCursor

/-!
# Accepted packets and the documented grammar

The validator takes the sizes of the parameters as they come and adds them to a
32-bit offset. `walkedSizes` is that walk on its own. What it accepts is the
documented format exactly when the sizes, added up without wrapping, stay below
`2 ^ 32`: `exists_of_walkedSizes` rebuilds the entries of such a content, and
`walkedSizes_encodeCounted` says that entries are always walked over exactly.

`PacketAccepted` are the packets of the documented framing whose contents pass
that walk, and `WrapsOntoEnd` are those among them in which a walk wrapped.

## Key results

- `sizesWalk_encodeAll`, `walkedSizes_encodeCounted`: entries are walked over exactly
- `exists_of_walkedSizes`: a walk that does not wrap was over entries
- `travelled_eq_length`: over entries, the offset travels the length of the content
-/

namespace R2CP.R2CPParser

open Spec

/-! ## The walk over the sizes of the parameters -/

/-- The sizes that the loop over `rounds` parameters reads from offset `o` on, and
    the offset it ends with; nothing if one of them cannot be read. -/
def sizesWalk (c : List UInt8) : (rounds : Nat) → (o : UInt32) → Option (List UInt32 × UInt32)
  | 0, o => some ([], o)
  | rounds + 1, o =>
    match c.readUInt32BE? (o + 4).toNat with
    | none => none
    | some size =>
      (sizesWalk c rounds (o + 4 + 4 + size)).map fun walked => (size :: walked.1, walked.2)

/-- The parameter sizes of a content whose walk ends, modulo `2 ^ 32`, at its end. -/
def walkedSizes (c : List UInt8) : Option (List UInt32) :=
  match c.readUInt32BE? 0 with
  | none => none
  | some count =>
    match sizesWalk c count.toNat 4 with
    | none => none
    | some (sizes, o) => if o = UInt32.ofNat c.length then some sizes else none

/-- The validator has no objection to the content of a record. -/
def ContentAccepted (t : Tlv) : Prop :=
  match contentType t.tag with
  | .noContent => t.value = []
  | .directContent => True
  | .parameterizedContent => (walkedSizes t.value).isSome = true

instance (t : Tlv) : Decidable (ContentAccepted t) :=
  match h : contentType t.tag with
  | .noContent => decidable_of_iff (t.value = []) (by simp only [ContentAccepted, h])
  | .directContent => isTrue (by simp only [ContentAccepted, h])
  | .parameterizedContent =>
    decidable_of_iff ((walkedSizes t.value).isSome = true) (by simp only [ContentAccepted, h])

/-- The validator has no objection to what follows the header. -/
def PayloadAccepted (b : List UInt8) : Prop :=
  ∃ ts, b = Tlv.encodeCounted ts ∧ ∀ t ∈ ts, ContentAccepted t

/-- The packets that the validator accepts. -/
def PacketAccepted (b : List UInt8) : Prop :=
  ∃ magicNumber payload, IsMagicNumber magicNumber ∧ b = encodePacket magicNumber payload ∧
    (payload = [] ∨ PayloadAccepted payload)

/-- What the offset adds up to without wrapping: the count, a code and a size for each
    parameter, and the sizes themselves. -/
def travelled (sizes : List UInt32) : Nat :=
  4 + 8 * sizes.length + (sizes.map UInt32.toNat).sum

/-- A packet that the validator accepts although, in some parameterized content, the
    offset passes `2 ^ 32` and comes back onto the end. -/
def WrapsOntoEnd (b : List UInt8) : Prop :=
  ∃ magicNumber ts, IsMagicNumber magicNumber ∧
    b = encodePacket magicNumber (Tlv.encodeCounted ts) ∧ (∀ t ∈ ts, ContentAccepted t) ∧
    ∃ t ∈ ts, contentType t.tag = .parameterizedContent ∧
      ∃ sizes, walkedSizes t.value = some sizes ∧ 2 ^ 32 ≤ travelled sizes

/-! ## The walk over entries -/

/-- The walk ends where the sizes say, modulo `2 ^ 32`. -/
private theorem sizesWalk_end {c : List UInt8} {k : Nat} {o o' : UInt32} {sizes : List UInt32}
    (h : sizesWalk c k o = some (sizes, o')) :
    sizes.length = k ∧
      o'.toNat = (o.toNat + 8 * k + (sizes.map UInt32.toNat).sum) % 2 ^ 32 := by
  induction k generalizing o sizes with
  | zero =>
    simp only [sizesWalk, Option.some.injEq, Prod.mk.injEq] at h
    obtain ⟨rfl, rfl⟩ := h
    constructor
    · rfl
    · rw [List.map_nil, List.sum_nil, Nat.mul_zero, Nat.add_zero, Nat.add_zero,
        Nat.mod_eq_of_lt o.toNat_lt]
  | succ k ih =>
    simp only [sizesWalk] at h
    cases hr : c.readUInt32BE? (o + 4).toNat with
    | none => rw [hr] at h; exact nomatch h
    | some size =>
      rw [hr] at h
      obtain ⟨⟨sizes', e⟩, hwalk, heq⟩ := Option.map_eq_some_iff.mp h
      simp only [Prod.mk.injEq] at heq
      obtain ⟨rfl, rfl⟩ := heq
      -- the rest of the walk starts behind code, size and data
      obtain ⟨hlen, hend⟩ := ih hwalk
      have h4 : (4 : UInt32).toNat = 4 := rfl
      constructor
      · rw [List.length_cons, hlen]
      · -- adding modulo `2 ^ 32` step by step is adding once
        rw [hend, UInt32.toNat_add, UInt32.toNat_add, UInt32.toNat_add, h4, List.map_cons,
          List.sum_cons]
        omega

/-- Over whole entries the walk goes exactly. -/
theorem sizesWalk_encodeAll {c rest : List UInt8} {ts : List Tlv} (hts : ∀ t ∈ ts, t.Sized)
    {o : UInt32} (h : StandsBefore c o (Tlv.encodeAll ts ++ rest)) (hlt : c.length < 2 ^ 32)
    (k : Nat) :
    ∃ o', StandsBefore c o' rest ∧
      sizesWalk c (ts.length + k) o = (sizesWalk c k o').map fun walked =>
        (ts.map (UInt32.ofNat ·.value.length) ++ walked.1, walked.2) := by
  induction ts generalizing o with
  | nil =>
    refine ⟨o, h, ?_⟩
    simp
  | cons t ts ih =>
    -- behind code, size and data of `t` stand the other entries
    have hn : t.value.length = (UInt32.ofNat t.value.length).toNat :=
      (UInt32.toNat_ofNat_length (hts t (by simp))).symm
    simp only [Tlv.encodeAll_cons, Tlv.encode, List.append_assoc] at h
    have h1 := h.advance (n := 4) rfl
    obtain ⟨o', ho', hwalk⟩ := ih (fun u hu => hts u (by simp [hu]))
      ((h1.advance (n := 4) rfl).advance hn)
    refine ⟨o', ho', ?_⟩
    have hread : c.readUInt32BE? (o + 4).toNat = some (UInt32.ofNat t.value.length) := by
      -- the size word is what stands behind the code
      have hdrop := h1.2
      rw [visible_of_lt hlt] at hdrop
      exact List.readUInt32BE?_of_drop hdrop
    rw [List.length_cons, Nat.add_right_comm]
    simp only [sizesWalk, hread, hwalk, Option.map_map]
    rfl

/-- A walk that does not wrap and ends at the end has walked over entries. -/
private theorem exists_of_sizesWalk {c : List UInt8} {k : Nat} {o o' : UInt32} {sizes : List UInt32}
    (h : sizesWalk c k o = some (sizes, o')) (hend : o'.toNat = c.length)
    (hsum : o.toNat + 8 * k + (sizes.map UInt32.toNat).sum < 2 ^ 32) :
    ∃ ts, ts.length = k ∧ c.drop o.toNat = Tlv.encodeAll ts := by
  induction k generalizing o sizes with
  | zero =>
    simp only [sizesWalk, Option.some.injEq, Prod.mk.injEq] at h
    obtain ⟨rfl, rfl⟩ := h
    exact ⟨[], rfl, List.drop_eq_nil_of_le (by omega)⟩
  | succ k ih =>
    obtain ⟨-, hfinal⟩ := sizesWalk_end h
    simp only [sizesWalk] at h
    cases hr : c.readUInt32BE? (o + 4).toNat with
    | none => rw [hr] at h; exact nomatch h
    | some size =>
      rw [hr] at h
      obtain ⟨⟨sizes', e⟩, hwalk, heq⟩ := Option.map_eq_some_iff.mp h
      simp only [Prod.mk.injEq] at heq
      obtain ⟨rfl, rfl⟩ := heq
      rw [List.map_cons, List.sum_cons] at hsum hfinal
      have h4 : (4 : UInt32).toNat = 4 := rfl
      -- no sum on the way wraps, since the last one does not
      have ho4 : (o + 4).toNat = o.toNat + 4 := by
        rw [UInt32.toNat_add, h4]
        omega
      have hnext : (o + 4 + 4 + size).toNat = o.toNat + 8 + size.toNat := by
        rw [UInt32.toNat_add, UInt32.toNat_add, ho4, h4]
        omega
      obtain ⟨ts, hlen, hts⟩ := ih hwalk (by omega)
      -- the bytes from `o` on: code, size, data, and the entries that follow
      obtain ⟨more, hmore⟩ := List.drop_of_readUInt32BE? hr
      rw [ho4] at hmore
      have hrest : 4 ≤ (c.drop o.toNat).length := by rw [List.length_drop]; omega
      obtain ⟨tag, tail, htag⟩ := UInt32.exists_toBytesBE_append hrest
      have htail : tail = size.toBytesBE ++ more := by
        rw [← hmore, ← List.drop_drop, htag]
        rfl
      -- behind the data of this entry the others start
      have hdata : more.drop size.toNat = Tlv.encodeAll ts := by
        rw [← hts, hnext, Nat.add_assoc, ← List.drop_drop, htag, htail]
        simp only [UInt32.toBytesBE, List.cons_append, List.nil_append]
        rw [show 8 + size.toNat = size.toNat + 8 by omega]
        rfl
      -- the walk ends at the end, so the data is all there
      have hle : size.toNat ≤ more.length := by
        have := congrArg List.length hmore
        rw [List.length_drop, List.length_append, UInt32.length_toBytesBE] at this
        omega
      -- so the entry is there, and the others behind it
      refine ⟨⟨tag, more.take size.toNat⟩ :: ts, by rw [List.length_cons, hlen], ?_⟩
      rw [htag, htail, Tlv.encodeAll_cons, Tlv.encode, List.length_take_of_le hle,
        UInt32.ofNat_toNat, ← hdata, List.append_assoc, List.append_assoc,
        List.take_append_drop]

/-! ## Contents -/

/-- The walk over a counted sequence reads the sizes of its entries. -/
theorem walkedSizes_encodeCounted {ts : List Tlv} (hlt : (Tlv.encodeCounted ts).length < 2 ^ 32) :
    walkedSizes (Tlv.encodeCounted ts) = some (ts.map (UInt32.ofNat ·.value.length)) := by
  have hlen := Tlv.length_encodeAll_lt hlt
  have hcount := UInt32.toNat_ofNat_length (Tlv.length_lt_of_length_encodeAll hlen)
  have h0 : StandsBefore (Tlv.encodeCounted ts) 0
      ((UInt32.ofNat ts.length).toBytesBE ++ (Tlv.encodeAll ts ++ [])) :=
    StandsBefore.start_of_lt hlt (by rw [List.append_nil]; rfl)
  obtain ⟨o', ho', hwalk⟩ := sizesWalk_encodeAll (Tlv.sized_of_length_encodeAll hlen)
    (h0.advance (n := 4) rfl) hlt 0
  -- nothing is left behind the last entry
  have hend : o' = UInt32.ofNat (Tlv.encodeCounted ts).length := by
    apply UInt32.toNat_inj.mp
    have := ho'.length_eq
    rw [toNat_ofNat_length_visible]
    simpa using this
  have hread : (Tlv.encodeCounted ts).readUInt32BE? 0 = some (UInt32.ofNat ts.length) :=
    List.readUInt32BE?_of_drop rfl
  rw [Nat.add_zero, show (0 : UInt32) + 4 = 4 from rfl] at hwalk
  simp only [walkedSizes, hread, hcount, hwalk, sizesWalk, Option.map_some, if_pos hend,
    List.append_nil]

/-- The walk behind an accepted content, from the first parameter on. -/
theorem sizesWalk_of_walkedSizes {c : List UInt8} {sizes : List UInt32}
    (h : walkedSizes c = some sizes) :
    ∃ (count : UInt32) (body : List UInt8), c = count.toBytesBE ++ body ∧
      sizesWalk c count.toNat 4 = some (sizes, UInt32.ofNat c.length) := by
  unfold walkedSizes at h
  cases hr : c.readUInt32BE? 0 with
  | none => rw [hr] at h; exact nomatch h
  | some count =>
    obtain ⟨body, hbody⟩ := List.drop_of_readUInt32BE? hr
    rw [hr] at h
    -- the content is accepted if the walk ends, and at the end
    cases hwalk : sizesWalk c count.toNat 4 with
    | none => simp only [hwalk] at h; exact nomatch h
    | some walked =>
      simp only [hwalk] at h
      split at h
      · rename_i hend
        cases h
        refine ⟨count, body, by rwa [List.drop_zero] at hbody, ?_⟩
        rw [hwalk, ← hend]
      · exact nomatch h

/-- A content that is walked over without wrapping consists of a count and entries. -/
theorem exists_of_walkedSizes {c : List UInt8} (hlt : c.length < 2 ^ 32) {sizes : List UInt32}
    (h : walkedSizes c = some sizes) (hsum : travelled sizes < 2 ^ 32) :
    ∃ ts, c = Tlv.encodeCounted ts := by
  obtain ⟨count, body, hc, hwalk⟩ := sizesWalk_of_walkedSizes h
  have hlen := (sizesWalk_end hwalk).1
  have h4 : (4 : UInt32).toNat = 4 := rfl
  unfold travelled at hsum
  -- the offset starts at 4, behind the count
  obtain ⟨ts, hts, hdrop⟩ := exists_of_sizesWalk hwalk
    (UInt32.toNat_ofNat_length hlt) (by rw [h4]; omega)
  refine ⟨ts, ?_⟩
  have hbody : body = Tlv.encodeAll ts := by
    rw [← hdrop, hc]
    rfl
  rw [hc, hbody, Tlv.encodeCounted, hts, UInt32.ofNat_toNat]

/-- Over entries nothing wraps: the sizes add up to the length of the content. -/
theorem travelled_eq_length {ts : List Tlv} (hlt : (Tlv.encodeCounted ts).length < 2 ^ 32) :
    travelled (ts.map (UInt32.ofNat ·.value.length)) = (Tlv.encodeCounted ts).length := by
  have hlen := Tlv.length_encodeAll_lt hlt
  have hsized := Tlv.sized_of_length_encodeAll hlen
  -- both are 4 bytes, 8 for each entry and the sizes
  rw [travelled, Tlv.length_encodeCounted, List.length_map, List.map_map]
  congr 2
  apply List.map_congr_left
  intro t ht
  exact UInt32.toNat_ofNat_length (hsized t ht)

end R2CP.R2CPParser
