import R2CP.Spec.SerializerCorrect

/-!
# What the serializer makes of parameters

The content of a parameterized command is documented as the count, and code, size and
data of each parameter. The serializer sizes its vector for all of that, with zeros,
and then appends: the zeros stay in front (`Extends`), no count is written, and for
no parameters but the empty list is the result the documented one.

## Key results

- `not_serializesParameters`: only the empty list has the documented content
-/

namespace R2CP.R2CPSerializer

open StatefulExcept (exec Yields)
open Spec

/-! ## Sizes -/

/-- The loop adds the data sizes modulo `2 ^ 32`. -/
private theorem toNat_foldl_getParameterDataSize (ps : List R2CPParameter) (size : UInt32) :
    (ps.foldl (fun size p => size + p.getParameterDataSize) size).toNat =
      (size.toNat + (ps.map (·.parameterData.length)).sum) % 2 ^ 32 := by
  induction ps generalizing size with
  | nil =>
    rw [List.foldl_nil, List.map_nil, List.sum_nil, Nat.add_zero, Nat.mod_eq_of_lt size.toNat_lt]
  | cons p ps ih =>
    rw [List.foldl_cons, ih, List.map_cons, List.sum_cons, R2CPParameter.getParameterDataSize,
      UInt32.toNat_add, UInt32.toNat_ofNat']
    omega

/-- The precomputed size is the documented one modulo `2 ^ 32`. -/
theorem toNat_precomputeCommandContentSize (ps : List R2CPParameter) :
    (precomputeCommandContentSize ps).toNat = (Content.parameters ps).size % 2 ^ 32 := by
  rw [precomputeCommandContentSize, toNat_foldl_getParameterDataSize, UInt32.toNat_add,
    UInt32.toNat_mul, UInt32.toNat_ofNat']
  show ((4 + ps.length % 2 ^ 32 * 8 % 2 ^ 32) % 2 ^ 32 + _) % 2 ^ 32 = _
  simp only [Content.size]
  omega

/-! ## Appending -/

/-- What `x` returns, if it returns, begins with `xs`. -/
def Extends (xs : List UInt8) (x : Serializer (List UInt8)) : Prop :=
  ∀ s r, (exec x s).1 = .ok r → xs <+: r

namespace Extends

variable {α : Type} {xs : List UInt8}

/-- A result that begins with the bytes. -/
theorem pure {r : List UInt8} (h : xs <+: r) : Extends xs (pure r) := by
  intro s r' hr
  cases hr
  exact h

/-- After an exception there is no result. -/
theorem throw (e : StdException) : Extends xs (throw e) := by
  intro s r hr
  cases hr

/-- It is enough that the rest of the program extends `xs`. -/
theorem bind {x : Serializer α} {f : α → Serializer (List UInt8)} (hf : ∀ a, Extends xs (f a)) :
    Extends xs (x >>= f) := by
  intro s r hr
  rcases StatefulExcept.exec_bind_cases x f s with ⟨e, s', -, hbind⟩ | ⟨a, s', -, hbind⟩
  · rw [hbind] at hr
    cases hr
  · rw [hbind] at hr
    exact hf a s' r hr

/-- One extension after the other. -/
theorem trans {x : Serializer (List UInt8)} {f : List UInt8 → Serializer (List UInt8)}
    (hx : Extends xs x) (hf : ∀ ys, Extends ys (f ys)) : Extends xs (x >>= f) := by
  intro s r hr
  rcases StatefulExcept.exec_bind_cases x f s with ⟨e, s', -, hbind⟩ | ⟨ys, s', hexec, hbind⟩
  · rw [hbind] at hr
    cases hr
  · rw [hbind] at hr
    have hys := hx s ys (by rw [hexec])
    exact hys.trans (hf ys s' r hr)

end Extends

/-- A number is put behind the bytes. -/
private theorem extends_writeUInt32ToR2CPPacket (r2cpPacket : List UInt8) (value : UInt32) :
    Extends r2cpPacket (writeUInt32ToR2CPPacket r2cpPacket value) := by
  refine .bind fun offset => .bind fun _ => ?_
  split
  · exact .bind fun _ => .pure (List.prefix_append r2cpPacket _)
  · exact .bind fun _ => .throw _

/-- And so is each byte of a vector. -/
private theorem extends_writeBytesLoop (writingBytes : List UInt8) (rounds : Nat) (i : UInt32)
    (r2cpPacket : List UInt8) :
    Extends r2cpPacket (writeBytesLoop writingBytes rounds i r2cpPacket) := by
  induction rounds generalizing i r2cpPacket with
  | zero => exact .pure (List.prefix_refl r2cpPacket)
  | succ rounds ih =>
    refine .bind fun b => ?_
    intro s r hr
    exact (List.prefix_append r2cpPacket [b]).trans (ih (i + 1) _ s r hr)

/-- Both with their guard, which only throws. -/
private theorem extends_writeBytesToR2CPPacket (r2cpPacket writingBytes : List UInt8) :
    Extends r2cpPacket (writeBytesToR2CPPacket r2cpPacket writingBytes) := by
  refine .bind fun offset => .bind fun _ => ?_
  split
  · refine .trans (extends_writeBytesLoop writingBytes _ 0 r2cpPacket) fun ys => ?_
    exact .bind fun _ => .pure (List.prefix_refl ys)
  · exact .bind fun _ => .throw _

/-- Code, size and data of each parameter. -/
private theorem extends_serializeParameterLoop (ps : List R2CPParameter)
    (commandContent : List UInt8) :
    Extends commandContent (serializeParameterLoop ps commandContent) := by
  induction ps generalizing commandContent with
  | nil => exact .pure (List.prefix_refl commandContent)
  | cons p ps ih =>
    refine .trans (extends_writeUInt32ToR2CPPacket commandContent p.parameterCode) fun ys => ?_
    refine .trans (extends_writeUInt32ToR2CPPacket ys p.getParameterDataSize) fun zs => ?_
    exact .trans (extends_writeBytesToR2CPPacket zs p.parameterData) ih

/-- The zeros that the vector starts with are never written over. -/
private theorem extends_serializeParameterizedCommandContent (ps : List R2CPParameter) :
    Extends (List.replicate (precomputeCommandContentSize ps).toNat 0)
      (serializeParameterizedCommandContent ps) := by
  refine .bind fun _ => ?_
  refine .trans (extends_serializeParameterLoop ps _) fun ys => ?_
  exact .bind fun _ => .pure (List.prefix_refl ys)

/-! ## The documented layout -/

/-- The parameters come out in the documented layout, which has the precomputed size, and
    the parser reads them back for every command that takes them. -/
def SerializesParameters (ps : List R2CPParameter) (s : R2CPSerializer) : Prop :=
  ∃ commandContent, (exec (serializeParameterizedCommandContent ps) s).1 = .ok commandContent ∧
    commandContent = (Content.parameters ps).encode ∧
    commandContent.length = (precomputeCommandContentSize ps).toNat ∧
    commandContent.length = 4 + 8 * ps.length + (ps.map (·.parameterData.length)).sum ∧
    ∀ (commandCode : UInt32) (p : R2CPParser),
      (∀ q ∈ ps, IsParameterOf commandCode q.parameterCode) →
      (exec (R2CPParser.parseParameterizedCommandContent commandCode commandContent) p).1 = .ok ps

/-- A count word that is all zeros counts nothing. -/
private theorem toBytesBE_ne_replicate {v : UInt32} (h : v ≠ 0) :
    v.toBytesBE ≠ List.replicate 4 0 := by
  intro hzeros
  exact h (UInt32.toBytesBE_injective hzeros)

/-- The documented layout does not begin with zeros, because its count is not zero. -/
private theorem not_replicate_prefix_encode {ps : List R2CPParameter} (hne : ps ≠ [])
    (hlen : ps.length < 2 ^ 32) {n : Nat} (hn : 4 ≤ n) :
    ¬List.replicate n 0 <+: (Content.parameters ps).encode := by
  intro hprefix
  have hcount : UInt32.ofNat (ps.map R2CPParameter.toTlv).length ≠ 0 := by
    intro hzero
    have hnat := congrArg UInt32.toNat hzero
    rw [UInt32.toNat_ofNat_length (by rw [List.length_map]; exact hlen), List.length_map] at hnat
    exact hne (List.length_eq_zero_iff.mp hnat)
  apply toBytesBE_ne_replicate hcount
  obtain ⟨rest, hrest⟩ := hprefix
  have htake := congrArg (List.take 4) hrest
  rw [List.take_append_of_le_length (by rw [List.length_replicate]; exact hn),
    List.take_replicate, Nat.min_eq_left hn] at htake
  simp only [Content.encode, Tlv.encodeCounted] at htake
  rw [List.take_append_of_le_length (by simp)] at htake
  exact htake.symm

/-- No list of parameters but the empty one comes out as documented. -/
theorem not_serializesParameters {ps : List R2CPParameter} (hne : ps ≠ [])
    (hsize : (Content.parameters ps).size < 2 ^ 32) (s : R2CPSerializer) :
    ¬SerializesParameters ps s := by
  rintro ⟨commandContent, hreturns, hlayout, -, -, -⟩
  have hprefix := extends_serializeParameterizedCommandContent ps s commandContent hreturns
  rw [hlayout, toNat_precomputeCommandContentSize, Nat.mod_eq_of_lt hsize] at hprefix
  simp only [Content.size] at hsize hprefix
  exact not_replicate_prefix_encode hne (by omega) (by omega) hprefix

/-- One byte of data. -/
def oneParameter : List R2CPParameter := [⟨motorRight, [0x40]⟩]

/-- For a single parameter. -/
theorem oneParameter_not_serialized : ¬SerializesParameters oneParameter new :=
  not_serializesParameters (by simp [oneParameter]) (by decide) new

/-- What comes out for it: the zeros of its 13 bytes, and no count. -/
theorem oneParameter_zeros_first :
    (exec (serializeParameterizedCommandContent oneParameter) new).1 =
      .ok (List.replicate 13 0 ++ [0, 0, 0, 1, 0, 0, 0, 1, 0x40]) ∧
    (Content.parameters oneParameter).encode = [0, 0, 0, 1, 0, 0, 0, 1, 0, 0, 0, 1, 0x40] ∧
    ¬SerializesParameters oneParameter new := by
  have hreturned : (exec (serializeParameterizedCommandContent oneParameter) new).1 =
      .ok (List.replicate 13 0 ++ [0, 0, 0, 1, 0, 0, 0, 1, 0x40]) := by
    rfl
  refine ⟨hreturned, by decide, ?_⟩
  rintro ⟨commandContent, hreturns, hlayout, -⟩
  rw [hreturned] at hreturns
  cases hreturns
  revert hlayout
  decide

end R2CP.R2CPSerializer
