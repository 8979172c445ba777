import R2CP.Spec.ValidatorCorrect

/-!
# When acceptance means the documented grammar

The validator skips over the data of a parameter without a look at the end of the
content, so the offset can pass `2 ^ 32` and come back onto the end. Those packets
are `WrapsOntoEnd`; they are outside the grammar, and they are the only accepted
ones that are.

## Key results

- `validateR2CPPacket_sound_iff`: acceptance means the grammar for all packets but these
-/

namespace R2CP.R2CPParser

open StatefulExcept (exec)
open Spec

/-- A record that is accepted without wrapping is a record of the grammar. -/
private theorem exists_record {t : Tlv} (ht : t.Sized) (hacc : ContentAccepted t)
    (hexact : contentType t.tag = .parameterizedContent →
      ∀ sizes, walkedSizes t.value = some sizes → travelled sizes < 2 ^ 32) :
    ∃ r : Record, r.toTlv = t := by
  unfold ContentAccepted at hacc
  -- by the kind of content that the code asks for
  cases hkind : contentType t.tag with
  | noContent =>
    rw [hkind] at hacc
    refine ⟨⟨t.tag, .none, hkind.symm⟩, ?_⟩
    rw [Record.toTlv, Content.encode, ← show t.value = [] from hacc]
  | directContent => exact ⟨⟨t.tag, .direct t.value, hkind.symm⟩, rfl⟩
  | parameterizedContent =>
    rw [hkind] at hacc
    obtain ⟨sizes, hsizes⟩ := Option.isSome_iff_exists.mp hacc
    -- a walk that does not wrap was over parameters
    obtain ⟨ts, hts⟩ := exists_of_walkedSizes ht hsizes (hexact hkind sizes hsizes)
    obtain ⟨ps, rfl⟩ := R2CPParameter.exists_map_toTlv ts
    refine ⟨⟨t.tag, .parameters ps, hkind.symm⟩, ?_⟩
    rw [Record.toTlv, Content.encode, ← hts]

/-- An accepted packet without a wrapped walk is in the grammar. -/
private theorem inGrammar_of_accepted {b : List UInt8} (hlt : b.length < 2 ^ 32)
    (h : PacketAccepted b)
    (hno : ¬ WrapsOntoEnd b) : InGrammar b := by
  obtain ⟨magicNumber, payload, hm, hb, hpayload⟩ := h
  have hplt : payload.length < 2 ^ 32 := by
    rw [hb, length_encodePacket] at hlt
    omega
  have hsize := UInt32.toNat_ofNat_length hplt
  refine ⟨magicNumber, UInt32.ofNat payload.length, payload, hm, hb, ?_, ?_⟩
  · -- `8 + X = |b|`
    rw [hb, length_encodePacket, hsize]
  rcases hpayload with rfl | ⟨ts, rfl, hts⟩
  · exact .inl rfl
  right
  have hlen := Tlv.length_encodeAll_lt hplt
  have hsized := Tlv.sized_of_length_encodeAll hlen
  have hrecord : ∀ t ∈ ts, ∃ r : Record, r.toTlv = t := by
    intro t ht
    refine exists_record (hsized t ht) (hts t ht) fun hkind sizes hsizes => ?_
    by_contra hge
    exact hno ⟨magicNumber, ts, hm, hb, hts, t, ht, hkind, sizes, hsizes, by omega⟩
  -- so the entries are those of a list of records
  have hmem : ts ∈ Set.range (List.map Record.toTlv) := by
    rw [Set.range_list_map]
    exact hrecord
  obtain ⟨records, rfl⟩ := hmem
  have hcount := UInt32.toNat_ofNat_length (Tlv.length_lt_of_length_encodeAll hlen)
  refine ⟨UInt32.ofNat (records.map Record.toTlv).length, records, rfl, ?_, ?_⟩
  · rw [hcount, List.length_map]
  · -- `4 + 8N + ΣS = X`
    rw [hcount, hsize, List.length_map]
    exact (length_payload records).symm

/-- A wrapped walk is not over parameters that add up. -/
private theorem not_inGrammar_of_wraps {b : List UInt8} (hlt : b.length < 2 ^ 32)
    (h : WrapsOntoEnd b) :
    ¬ InGrammar b := by
  obtain ⟨magicNumber, ts, -, hb, -, t, ht, hkind, sizes, hsizes, hge⟩ := h
  intro hgrammar
  obtain ⟨magicNumber', size, payload, -, hb', hsize, hpayload⟩ := hgrammar
  have hplt : (Tlv.encodeCounted ts).length < 2 ^ 32 := by
    rw [hb, length_encodePacket] at hlt
    omega
  have hlen := Tlv.length_encodeAll_lt hplt
  have hcount := UInt32.toNat_ofNat_length (Tlv.length_lt_of_length_encodeAll hlen)
  -- both descriptions agree on what follows the header
  have heq := hb.symm.trans hb'
  rw [encodePacket, List.append_assoc, List.append_assoc] at heq
  obtain ⟨-, heq⟩ := UInt32.toBytesBE_append_inj heq
  obtain ⟨-, rfl⟩ := UInt32.toBytesBE_append_inj heq
  rcases hpayload with hzero | ⟨count, records, hrecords, hcount', hsum⟩
  · -- there is a count word at least, so the size is not 0
    rw [hzero, hb, length_encodePacket, Tlv.encodeCounted, List.length_append,
      UInt32.length_toBytesBE] at hsize
    have : (0 : UInt32).toNat = 0 := rfl
    omega
  -- and on the records, so the content in question consists of whole parameters
  obtain ⟨rfl, hall⟩ := UInt32.toBytesBE_append_inj hrecords
  have hlen' : (Tlv.encodeAll (records.map Record.toTlv)).length < 2 ^ 32 := hall ▸ hlen
  have hts : ts = records.map Record.toTlv :=
    (Tlv.encodeAll_append_inj (Tlv.sized_of_length_encodeAll hlen)
      (Tlv.sized_of_length_encodeAll hlen') (by rw [List.length_map, ← hcount', hcount])
      (congrArg (· ++ []) hall)).1
  rw [hts] at ht
  obtain ⟨r, hr, rfl⟩ := List.mem_map.mp ht
  have hconforms := r.conforms
  have hvalue : r.content.encode.length < 2 ^ 32 := Tlv.sized_of_length_encodeAll hlen' _ ht
  rw [show contentType r.code = .parameterizedContent from hkind] at hconforms
  rw [show r.toTlv.value = r.content.encode from rfl] at hsizes
  cases hcontent : r.content with
  | none => rw [hcontent] at hconforms; cases hconforms
  | direct data => rw [hcontent] at hconforms; cases hconforms
  | parameters ps =>
    -- the walk over whole parameters adds up to the length of the content
    rw [hcontent, Content.encode] at hvalue hsizes
    have htravel := travelled_eq_length hvalue
    rw [walkedSizes_encodeCounted hvalue, Option.some.injEq] at hsizes
    rw [hsizes] at htravel
    omega

/-- The validator is sound exactly where no walk wraps: what it accepts is then in the
    grammar, and a packet with a wrapped walk is accepted although it is not. -/
theorem validateR2CPPacket_sound_iff {b : List UInt8} (hlt : b.length < 2 ^ 32) (s : R2CPParser) :
    ((exec (validateR2CPPacket b) s).1 = .ok true → InGrammar b) ↔ ¬ WrapsOntoEnd b := by
  obtain ⟨r, hy, hiff⟩ := validateR2CPPacket_decides b s.parsingOffsetStack
  rw [visible_of_lt hlt] at hiff
  rw [hy.outcome rfl]
  constructor
  · intro hsound hwraps
    apply not_inGrammar_of_wraps hlt hwraps
    apply hsound
    obtain ⟨magicNumber, ts, hm, hb, hts, -⟩ := hwraps
    rw [hiff.mpr ⟨magicNumber, _, hm, hb, .inr ⟨ts, rfl, hts⟩⟩]
  · intro hno hok
    cases hok
    exact inGrammar_of_accepted hlt (hiff.mp rfl) hno

/-- A `motorDutyCycle` record that announces two parameters in 12 bytes of content. The
    second word is the size of the parameter at offset 0, and the third, `2 ^ 32 - 12`,
    is the size of the one at offset 4 and brings the offset back to 0. -/
def wrappedSizesPacket : List UInt8 :=
  [0x52, 0x32, 0x43, 0x50, 0, 0, 0, 24, 0, 0, 0, 1, 0, 0, 0, 4, 0, 0, 0, 12,
    0, 0, 0, 2, 0, 0, 0, 4, 0xFF, 0xFF, 0xFF, 0xF4]

theorem wrappedSizesPacket_sound_iff :
    ((exec (validateR2CPPacket wrappedSizesPacket) new).1 = .ok true →
      InGrammar wrappedSizesPacket) ↔ ¬ WrapsOntoEnd wrappedSizesPacket :=
  validateR2CPPacket_sound_iff (by decide) new

/-- Its sizes add up to more than `2 ^ 32`, and the offset comes back onto the end. -/
private theorem wrapsOntoEnd_wrappedSizesPacket : WrapsOntoEnd wrappedSizesPacket :=
  ⟨r2cpMagicNumber, [⟨motorDutyCycle, [0, 0, 0, 2, 0, 0, 0, 4, 0xFF, 0xFF, 0xFF, 0xF4]⟩],
    .inl rfl, by decide +kernel, by decide +kernel, _, List.mem_singleton_self _, by decide +kernel,
    [0xFFFFFFF4, 4], by decide +kernel, by decide⟩

theorem validateR2CPPacket_unsound :
    wrappedSizesPacket.length < 2 ^ 32 ∧
      ¬ ((exec (validateR2CPPacket wrappedSizesPacket) new).1 = .ok true →
        InGrammar wrappedSizesPacket) := by
  refine ⟨by decide, fun hsound => ?_⟩
  apply not_inGrammar_of_wraps (by decide) wrapsOntoEnd_wrappedSizesPacket
  exact hsound (by decide +kernel)

end R2CP.R2CPParser
