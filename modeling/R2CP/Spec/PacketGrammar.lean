import R2CP.ForStd.Tlv
import R2CP.Native.Parser

/-!
# The documented packet format

The format of `Architecture/R2CPArchitecture.drawio`, in its own terms: a packet
is a magic number, the packet size `X` and either nothing or a count `N` and `N`
records; a record is a command code with its content; the content of a command
is nothing, raw data, or a count `M` and `M` parameters. The size theorems of the
document are `Content.length_encode` (`S = 4 + 8M + ΣL`) and `length_payload`
(`X = 4 + 8N + ΣS`).

Which kind of content a record has is decided by the dictionary, and a `Record`
carries the proof that its content is of that kind.

## Key results

- `Content.length_encode`, `length_payload`: the size theorems of the document
- `encodePacket_inj`: a packet determines its magic number and what follows the header
- `InGrammar`, `GrammarPacket`: the format as a property of bytes, and as a type of packets
-/

namespace R2CP

open R2CPCommandDictionary (getInstance)

/-- A parameter on the wire. -/
def R2CPParameter.toTlv (p : R2CPParameter) : Tlv := ⟨p.parameterCode, p.parameterData⟩

/-- Entries are parameters on the wire, whatever they are. -/
theorem R2CPParameter.exists_map_toTlv (ts : List Tlv) :
    ∃ ps : List R2CPParameter, ps.map R2CPParameter.toTlv = ts :=
  List.map_surjective_iff.mpr (fun t => ⟨⟨t.tag, t.value⟩, rfl⟩) ts

namespace Spec

/-- The kind of content the dictionary gives a command code; unknown codes have none. -/
def contentType (code : UInt32) : R2CPCommandContentType :=
  getInstance.getCommandContentType code

/-- `p` is a parameter code of command `code`. -/
def IsParameterOf (code p : UInt32) : Prop :=
  (getInstance.getCommandParameters code).contains p = true

instance (code p : UInt32) : Decidable (IsParameterOf code p) :=
  inferInstanceAs (Decidable (_ = true))

/-- The code of a command that modules can get: known, and not `invalidCommand`. -/
def IsCommandCode (code : UInt32) : Prop := getInstance.checkIfValidCommand code = true

instance (code : UInt32) : Decidable (IsCommandCode code) :=
  inferInstanceAs (Decidable (_ = true))

/-- Only commands have content. -/
theorem isCommandCode_of_contentType {code : UInt32} (h : contentType code ≠ .noContent) :
    IsCommandCode code := by
  unfold contentType R2CPCommandDictionary.getCommandContentType at h
  split at h
  · rename_i hknown
    -- `invalidCommand` is known, but it has no content
    have hne : code ≠ invalidCommand := by
      rintro rfl
      exact h (by decide +kernel)
    show (code != invalidCommand && _) = true
    rw [Bool.and_eq_true, bne_iff_ne]
    exact ⟨hne, hknown⟩
  · exact absurd rfl h

/-- `R2CP` or `RRCP`. -/
def IsMagicNumber (m : UInt32) : Prop :=
  m = R2CPParser.r2cpMagicNumber ∨ m = R2CPParser.rrcpMagicNumber

instance (m : UInt32) : Decidable (IsMagicNumber m) :=
  inferInstanceAs (Decidable (_ ∨ _))

/-! ## Contents and records -/

/-- The content of a command. -/
inductive Content where
  | none
  | direct (data : List UInt8)
  | parameters (ps : List R2CPParameter)
  deriving DecidableEq, Repr

namespace Content

/-- The content type that a content belongs to. -/
def kind : Content → R2CPCommandContentType
  | .none => .noContent
  | .direct _ => .directContent
  | .parameters _ => .parameterizedContent

/-- The documented size `S` of a content. -/
def size : Content → Nat
  | .none => 0
  | .direct data => data.length
  | .parameters ps => 4 + 8 * ps.length + (ps.map (·.parameterData.length)).sum

/-- A content on the wire. -/
def encode : Content → List UInt8
  | .none => []
  | .direct data => data
  | .parameters ps => Tlv.encodeCounted (ps.map R2CPParameter.toTlv)

/-- `S = 4 + 8M + ΣL`, and the other two kinds. -/
theorem length_encode (c : Content) : c.encode.length = c.size := by
  cases c with
  | none => rfl
  | direct data => rfl
  | parameters ps =>
    simp only [encode, size, Tlv.length_encodeCounted, List.length_map, List.map_map]
    rfl

end Content

/-- A command code with a content of the kind its dictionary entry asks for. -/
structure Record where
  code : UInt32
  content : Content
  conforms : content.kind = contentType code

namespace Record

/-- A record on the wire. -/
def toTlv (r : Record) : Tlv := ⟨r.code, r.content.encode⟩

/-- What the operator gets for a record: nothing for a code that is unknown or
    `invalidCommand`, nothing if a parameter code does not belong to the command,
    and the command otherwise. -/
def command? (r : Record) : Option R2CPCommand :=
  if IsCommandCode r.code then
    match r.content with
    | .none => some ⟨r.code, []⟩
    | .direct data => some ⟨r.code, [⟨noParameters, data⟩]⟩
    | .parameters ps =>
      if ∀ p ∈ ps, IsParameterOf r.code p.parameterCode then some ⟨r.code, ps⟩ else none
  else none

end Record

/-! ## Packets -/

/-- Magic number, packet size and what the size counts. -/
def encodePacket (magicNumber : UInt32) (payload : List UInt8) : List UInt8 :=
  magicNumber.toBytesBE ++ (UInt32.ofNat payload.length).toBytesBE ++ payload

/-- The header takes eight bytes. -/
@[simp] theorem length_encodePacket (magicNumber : UInt32) (payload : List UInt8) :
    (encodePacket magicNumber payload).length = 8 + payload.length := by
  simp only [encodePacket, List.length_append, UInt32.length_toBytesBE]

/-- A packet determines its magic number and its payload. -/
theorem encodePacket_inj {m m' : UInt32} {payload payload' : List UInt8}
    (h : encodePacket m payload = encodePacket m' payload') : m = m' ∧ payload = payload' := by
  simp only [encodePacket, List.append_assoc] at h
  obtain ⟨hm, h⟩ := UInt32.toBytesBE_append_inj h
  exact ⟨hm, (UInt32.toBytesBE_append_inj h).2⟩

/-- Count and records: everything after the header. -/
def encodeRecords (records : List Record) : List UInt8 :=
  Tlv.encodeCounted (records.map Record.toTlv)

/-- The documented packet size `X` of a packet with these records. -/
def payloadSize (records : List Record) : Nat :=
  4 + 8 * records.length + (records.map (·.content.size)).sum

/-- `X = 4 + 8N + ΣS`. -/
theorem length_payload (records : List Record) :
    (encodeRecords records).length = payloadSize records := by
  simp only [encodeRecords, payloadSize, Tlv.length_encodeCounted, List.length_map, List.map_map]
  congr 2
  apply List.map_congr_left
  intro r _
  exact r.content.length_encode

/-- A packet of the documented format with its count word present. -/
structure GrammarPacket where
  magicNumber : UInt32
  isMagicNumber : IsMagicNumber magicNumber
  records : List Record
  fits : 8 + payloadSize records < 2 ^ 32

namespace GrammarPacket

/-- The bytes of a packet. -/
def encode (p : GrammarPacket) : List UInt8 := encodePacket p.magicNumber (encodeRecords p.records)

/-- A packet is as long as its size word says. -/
theorem length_encode (p : GrammarPacket) : p.encode.length = 8 + payloadSize p.records := by
  rw [encode, length_encodePacket, length_payload]

/-- And the size word can say it. -/
theorem length_encode_lt (p : GrammarPacket) : p.encode.length < 2 ^ 32 := by
  rw [p.length_encode]
  exact p.fits

/-- A packet still fits when one of its records is taken out. -/
theorem fits_without (p : GrammarPacket) {before after : List Record} {r : Record}
    (h : p.records = before ++ r :: after) : 8 + payloadSize (before ++ after) < 2 ^ 32 := by
  have hfits := p.fits
  rw [h] at hfits
  simp only [payloadSize, List.length_append, List.length_cons, List.map_append, List.map_cons,
    List.sum_append, List.sum_cons] at hfits ⊢
  omega

end GrammarPacket

/-- The header-only packet: magic number and size 0. -/
def IsEmptyPacket (b : List UInt8) : Prop :=
  ∃ magicNumber, IsMagicNumber magicNumber ∧ b = encodePacket magicNumber []

/-- The documented grammar, with exact arithmetic: a magic number, the size `X` with
    `8 + X = |b|`, and either nothing or a count `N` with `N` records of
    `4 + 8N + ΣS = X` bytes. -/
def InGrammar (b : List UInt8) : Prop :=
  ∃ (magicNumber size : UInt32) (payload : List UInt8),
    IsMagicNumber magicNumber ∧
    b = magicNumber.toBytesBE ++ size.toBytesBE ++ payload ∧
    8 + size.toNat = b.length ∧
    (size = 0 ∨ ∃ (count : UInt32) (records : List Record),
      payload = count.toBytesBE ++ Tlv.encodeAll (records.map Record.toTlv) ∧
      count.toNat = records.length ∧
      4 + 8 * count.toNat + (records.map (·.content.size)).sum = size.toNat)

/-! ## Commands -/

/-- The parameters of a command fit the content type of its code. -/
def ConformsToDictionary (c : R2CPCommand) : Prop :=
  match contentType c.commandCode with
  | .noContent => c.commandParameters = []
  | .directContent => ∃ data, c.commandParameters = [⟨noParameters, data⟩]
  | .parameterizedContent => ∀ p ∈ c.commandParameters, IsParameterOf c.commandCode p.parameterCode

/-- The content bytes that a command stands for. -/
def encodeCommandContent (c : R2CPCommand) : List UInt8 :=
  match contentType c.commandCode with
  | .noContent => []
  | .directContent => c.commandParameters.flatMap (·.parameterData)
  | .parameterizedContent => Tlv.encodeCounted (c.commandParameters.map R2CPParameter.toTlv)

end Spec

end R2CP
