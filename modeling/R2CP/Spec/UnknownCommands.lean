import R2CP.Spec.ParserFaithful

/-!
# Records of unknown commands

The parser has a branch for a command code that it does not know: it skips the
content and goes on. The validator comes first, however, and gives an unknown code
the content type `noContent`, so only records without content get that far.

## Key results

- `skipsRecord_iff_empty`: a record of an unknown command is skipped only without content
-/

namespace R2CP

open StatefulExcept (exec)
open Spec
open R2CPCommandDictionary (getInstance)

/-- An unknown code is given no content. -/
private theorem contentType_of_unknown {code : UInt32}
    (h : getInstance.commandsSet.contains code = false) :
    contentType code = .noContent := by
  rw [contentType, R2CPCommandDictionary.getCommandContentType, h]
  rfl

/-- An unknown code is not one that modules can get. -/
private theorem not_isCommandCode_of_unknown {code : UInt32}
    (h : getInstance.commandsSet.contains code = false) : ¬IsCommandCode code := by
  rw [IsCommandCode, R2CPCommandDictionary.checkIfValidCommand, h, Bool.and_false]
  decide

namespace Spec.GrammarPacket

/-- The packet with one more record at position `k` and its sizes adjusted. -/
def insertRecord (p : GrammarPacket) (k : Nat) (t : Tlv) : List UInt8 :=
  encodePacket p.magicNumber (Tlv.encodeCounted
    ((p.records.take k).map Record.toTlv ++ t :: (p.records.drop k).map Record.toTlv))

/-- If the validator accepts the packet, it accepts the content of the new record. -/
private theorem contentAccepted_of_insertRecord {p : GrammarPacket} {k : Nat} {t : Tlv}
    (hlt : (p.insertRecord k t).length < 2 ^ 32)
    (h : R2CPParser.PacketAccepted (p.insertRecord k t)) : R2CPParser.ContentAccepted t := by
  obtain ⟨magicNumber, payload, -, hb, hpayload⟩ := h
  obtain ⟨-, rfl⟩ := encodePacket_inj hb
  rw [insertRecord, length_encodePacket] at hlt
  cases hpayload with
  | inl hempty =>
    have hlen := congrArg List.length hempty
    rw [Tlv.length_encodeCounted, List.length_nil] at hlen
    omega
  | inr haccepted =>
    obtain ⟨ts, hts, hacc⟩ := haccepted
    rw [← Tlv.encodeCounted_inj (by omega) hts] at hacc
    exact hacc t (by simp)

/-- A record without content keeps a packet in the grammar. -/
private theorem exists_insertRecord_empty (p : GrammarPacket) (k : Nat) {code : UInt32}
    (hkind : contentType code = .noContent) (hlt : (p.insertRecord k ⟨code, []⟩).length < 2 ^ 32) :
    ∃ p' : GrammarPacket, p'.encode = p.insertRecord k ⟨code, []⟩ ∧
      p'.records = p.records.take k ++ ⟨code, .none, hkind.symm⟩ :: p.records.drop k := by
  let r : Record := ⟨code, .none, hkind.symm⟩
  have hbytes : encodePacket p.magicNumber
      (encodeRecords (p.records.take k ++ r :: p.records.drop k)) =
        p.insertRecord k ⟨code, []⟩ := by
    rw [encodeRecords, List.map_append, List.map_cons]
    rfl
  rw [← hbytes, length_encodePacket, length_payload] at hlt
  exact ⟨⟨p.magicNumber, p.isMagicNumber, _, hlt⟩, hbytes, rfl⟩

end Spec.GrammarPacket

namespace R2CPParser

/-- A new record does not change what the parser makes of the packet. -/
def SkipsRecord (p : GrammarPacket) (k : Nat) (t : Tlv) (s : R2CPParser) : Prop :=
  ∃ commands, (exec (parseR2CPPacket (p.insertRecord k t)) s).1 = .ok commands ∧
    (exec (parseR2CPPacket p.encode) s).1 = .ok commands

/-- A record of an unknown command is skipped exactly when it has no content. -/
theorem skipsRecord_iff_empty (p : GrammarPacket) (k : Nat) {code : UInt32}
    (hunknown : getInstance.commandsSet.contains code = false) (content : List UInt8)
    (hlt : (p.insertRecord k ⟨code, content⟩).length < 2 ^ 32) (s : R2CPParser) :
    SkipsRecord p k ⟨code, content⟩ s ↔ content = [] := by
  have hkind := contentType_of_unknown hunknown
  constructor
  · rintro ⟨commands, hparsed, -⟩
    -- the packet parsed, so the validator has seen no content
    by_cases hacc : PacketAccepted (visible (p.insertRecord k ⟨code, content⟩))
    · rw [visible_of_lt hlt] at hacc
      have haccepted := p.contentAccepted_of_insertRecord hlt hacc
      simp only [ContentAccepted, hkind] at haccepted
      exact haccepted
    · -- a packet that is not accepted makes the parser throw
      rw [(parseR2CPPacket_rejected hacc s.parsingOffsetStack).outcome rfl] at hparsed
      cases hparsed
  · rintro rfl
    -- without content it is a packet of the format, with one record more that is no command
    obtain ⟨p', hbytes, hrecords⟩ := p.exists_insertRecord_empty k hkind hlt
    refine ⟨p.records.filterMap Record.command?, ?_, parseR2CPPacket_encode p s⟩
    have hnone : Record.command? ⟨code, .none, hkind.symm⟩ = none := by
      rw [Record.command?, if_neg (not_isCommandCode_of_unknown hunknown)]
    rw [← hbytes, parseR2CPPacket_encode, hrecords, List.filterMap_append,
      List.filterMap_cons_none hnone, ← List.filterMap_append, List.take_append_drop]

/-- The code 10 is unknown. -/
theorem emptyRecord_skipped_iff :
    SkipsRecord threeRecords 1 ⟨10, []⟩ new ↔ ([] : List UInt8) = [] :=
  skipsRecord_iff_empty threeRecords 1 (by decide +kernel) [] (by decide +kernel) new

/-- With one byte of content, the same record makes the parser throw. -/
theorem unknownRecord_not_skipped :
    getInstance.commandsSet.contains 10 = false ∧
    (threeRecords.insertRecord 1 ⟨10, [0]⟩).length < 2 ^ 32 ∧
    (exec (parseR2CPPacket (threeRecords.insertRecord 1 ⟨10, [0]⟩)) new).1 =
      .error parsingFailed ∧
    ¬SkipsRecord threeRecords 1 ⟨10, [0]⟩ new := by
  have hthrows : (exec (parseR2CPPacket (threeRecords.insertRecord 1 ⟨10, [0]⟩)) new).1 =
      .error parsingFailed := by
    decide +kernel
  refine ⟨by decide +kernel, by decide +kernel, hthrows, ?_⟩
  rintro ⟨commands, hparsed, -⟩
  rw [hthrows] at hparsed
  cases hparsed

end R2CPParser

end R2CP
