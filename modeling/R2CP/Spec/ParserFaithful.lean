import R2CP.Spec.ParserCorrect

/-!
# What is returned is what was sent

On packets of the documented format the parser returns the commands of the
records in order, without those records that are none (`parseR2CPPacket_grammar`).
On any bytes at all, what it returns are records of the packet, byte by byte
(`parseR2CPPacket_faithful`): a record with a wrapped size never gets that far.

## Key results

- `parseR2CPPacket_grammar`: a packet of the format parses to the commands of its records
- `parseR2CPPacket_faithful`: what the parser returns stands in the packet, in this order
-/

namespace R2CP.R2CPParser

open StatefulExcept (exec)
open Spec

/-! ## Packets of the grammar -/

/-- The validator has no objection to a record of the grammar. -/
theorem Record.accepted (r : Record) (hlt : r.content.encode.length < 2 ^ 32) :
    ContentAccepted r.toTlv := by
  have hkind : contentType r.toTlv.tag = r.content.kind := r.conforms.symm
  have hvalue : r.toTlv.value = r.content.encode := rfl
  unfold ContentAccepted
  rw [hkind, hvalue]
  cases hcontent : r.content with
  | none => rfl
  | direct data => trivial
  | parameters ps =>
    rw [hcontent] at hlt
    simp only [Content.kind, Content.encode]
    rw [walkedSizes_encodeCounted hlt, Option.isSome_some]

/-- The parser makes of a record what the format says. -/
theorem Record.parses (r : Record) (hlt : r.content.encode.length < 2 ^ 32) :
    Parses r.toTlv r.command? := by
  have hkind : contentType r.code = r.content.kind := r.conforms.symm
  unfold Record.command?
  by_cases hcode : IsCommandCode r.code
  swap
  · rw [if_neg hcode]
    exact .inl hcode
  rw [if_pos hcode]
  -- by the content, which is of the kind that the code asks for
  cases hcontent : r.content with
  | none =>
    rw [hcontent] at hkind
    -- the parameters fit the code, and make up the content
    refine ⟨hcode, rfl, ?_, ?_⟩
    · simp only [ConformsToDictionary, hkind, Content.kind]
    · simp only [encodeCommandContent, hkind, Content.kind, Record.toTlv, hcontent, Content.encode]
  | direct data =>
    rw [hcontent] at hkind
    refine ⟨hcode, rfl, ?_, ?_⟩
    · simp only [ConformsToDictionary, hkind, Content.kind]
      exact ⟨data, rfl⟩
    · simp only [encodeCommandContent, hkind, Content.kind, Record.toTlv, hcontent, Content.encode,
        List.flatMap_cons, List.flatMap_nil, List.append_nil]
  | parameters ps =>
    rw [hcontent] at hkind
    simp only
    by_cases hps : ∀ p ∈ ps, IsParameterOf r.code p.parameterCode
    · -- all parameters in order
      rw [if_pos hps]
      refine ⟨hcode, rfl, ?_, ?_⟩
      · simp only [ConformsToDictionary, hkind, Content.kind]
        exact hps
      · simp only [encodeCommandContent, hkind, Content.kind, Record.toTlv, hcontent,
          Content.encode]
    · -- the parser meets the first one that is not of the command
      rw [if_neg hps]
      rw [hcontent, Content.encode] at hlt
      have hlen := Tlv.length_encodeAll_lt hlt
      have hcount := UInt32.toNat_ofNat_length (Tlv.length_lt_of_length_encodeAll hlen)
      have hvalue : r.toTlv.value = (UInt32.ofNat (ps.map R2CPParameter.toTlv).length).toBytesBE ++
          Tlv.encodeAll (ps.map R2CPParameter.toTlv) ++ [] := by
        rw [Record.toTlv, hcontent, List.append_nil]
        rfl
      rw [List.length_map] at hcount hvalue
      exact .inr ⟨hkind, MeetsForeign.of_not_forall hvalue (by rw [hcount]) hps⟩

/-- Parsing a packet of the grammar gives the commands of its records. -/
theorem parseR2CPPacket_encode (p : GrammarPacket) (s : R2CPParser) :
    (exec (parseR2CPPacket p.encode) s).1 = .ok (p.records.filterMap Record.command?) := by
  have hb : visible p.encode =
      encodePacket p.magicNumber (Tlv.encodeCounted (p.records.map Record.toTlv)) :=
    visible_of_lt p.length_encode_lt
  -- a packet that fits has contents that fit
  have hlen : ∀ r ∈ p.records, r.content.encode.length < 2 ^ 32 := by
    intro r hr
    have : r.content.encode.length + 8 < 2 ^ 32 :=
      (standsBefore_records hb).2.2 r.toTlv (List.mem_map_of_mem hr)
    omega
  have hacc : ∀ t ∈ p.records.map Record.toTlv, ContentAccepted t := by
    intro t ht
    obtain ⟨r, hr, rfl⟩ := List.mem_map.mp ht
    exact Record.accepted r (hlen r hr)
  -- each record has its result, so the packet has these commands
  have hparses : List.Forall₂ Parses (p.records.map Record.toTlv)
      (p.records.map Record.command?) := by
    rw [List.forall₂_map_left_iff, List.forall₂_map_right_iff, List.forall₂_same]
    exact fun r hr => Record.parses r (hlen r hr)
  have hcommands : (p.records.map Record.command?).reduceOption =
      p.records.filterMap Record.command? := by
    rw [List.reduceOption, List.filterMap_map]
    rfl
  rw [← hcommands]
  exact (parseR2CPPacket_parsed ⟨_, _, _, p.isMagicNumber, hb, hacc, hparses, rfl⟩
    s.parsingOffsetStack).outcome rfl

/-- A packet without one of its records. -/
def GrammarPacket.without (p : GrammarPacket) {before after : List Record} {r : Record}
    (h : p.records = before ++ r :: after) : GrammarPacket where
  magicNumber := p.magicNumber
  isMagicNumber := p.isMagicNumber
  records := before ++ after
  fits := p.fits_without h

/-- A packet of the grammar parses to the commands of its records in order, and a
    record that is none is as good as absent: what stands before and after it gives
    the same commands, and the packet without it the same outcome. -/
theorem parseR2CPPacket_grammar (p : GrammarPacket) (s : R2CPParser) :
    (exec (parseR2CPPacket p.encode) s).1 = .ok (p.records.filterMap Record.command?) ∧
      ∀ before r after, (h : p.records = before ++ r :: after) → r.command? = none →
        (exec (parseR2CPPacket p.encode) s).1 =
          .ok (before.filterMap Record.command? ++ after.filterMap Record.command?) ∧
        (exec (parseR2CPPacket p.encode) s).1 =
          (exec (parseR2CPPacket (GrammarPacket.without p h).encode) s).1 := by
  refine ⟨parseR2CPPacket_encode p s, fun before r after h hnone => ?_⟩
  -- the record in the middle contributes nothing
  have hsplit : p.records.filterMap Record.command? =
      before.filterMap Record.command? ++ after.filterMap Record.command? := by
    rw [h, List.filterMap_append, List.filterMap_cons_none hnone]
  refine ⟨by rw [parseR2CPPacket_encode, hsplit], ?_⟩
  rw [parseR2CPPacket_encode, parseR2CPPacket_encode, hsplit]
  exact congrArg _ List.filterMap_append.symm

/-- A command without content, one with a parameter that it does not take, and one
    with raw data. -/
def threeRecords : GrammarPacket where
  magicNumber := r2cpMagicNumber
  isMagicNumber := .inl rfl
  records :=
    [⟨motorIdle, .none, by decide +kernel⟩,
      ⟨motorDutyCycle, .parameters [⟨motorRight, [50]⟩, ⟨invalidParameter, []⟩], by decide +kernel⟩,
      ⟨printMessage, .direct [72, 105], by decide +kernel⟩]
  fits := by decide +kernel

/-- Three records, of which one is no command. -/
theorem parseR2CPPacket_threeRecords :
    (exec (parseR2CPPacket threeRecords.encode) new).1 =
      .ok [⟨motorIdle, []⟩, ⟨printMessage, [⟨noParameters, [72, 105]⟩]⟩] := by
  have hdropped := ((parseR2CPPacket_grammar threeRecords new).2 [_] _ [_] rfl
    (by decide +kernel)).1
  rw [hdropped]
  decide +kernel

/-! ## Any bytes -/

/-- What is returned for any bytes: the packet consists of whole records, and each
    command is one of them, in order, with the content bytes that it stands for. -/
theorem parseR2CPPacket_faithful {b : List UInt8} (hlt : b.length < 2 ^ 32) {s : R2CPParser}
    {commands : List R2CPCommand} (h : (exec (parseR2CPPacket b) s).1 = .ok commands) :
    ∃ (magicNumber : UInt32) (ts : List Tlv), IsMagicNumber magicNumber ∧
      b = encodePacket magicNumber (Tlv.encodeCounted ts) ∧
      ts.length < 2 ^ 32 ∧ (∀ t ∈ ts, t.Sized) ∧
      List.SublistForall₂ (fun command t => IsCommandCode command.commandCode ∧
        command.commandCode = t.tag ∧ ConformsToDictionary command ∧
        encodeCommandContent command = t.value) commands ts := by
  have hb := visible_of_lt hlt
  -- the three kinds of packets on which the parser throws are out
  by_cases hacc : PacketAccepted (visible b)
  swap
  · rw [(parseR2CPPacket_rejected hacc s.parsingOffsetStack).outcome rfl] at h
    exact nomatch h
  by_cases hempty : IsEmptyPacket (visible b)
  · rw [(parseR2CPPacket_empty hempty s.parsingOffsetStack).outcome rfl] at h
    exact nomatch h
  by_cases hover : OverrunsInside (visible b)
  · obtain ⟨what, s', hthrow⟩ := parseR2CPPacket_overruns hover s.parsingOffsetStack
    rw [hthrow.outcome rfl] at h
    exact nomatch h
  obtain ⟨commands', hcommands⟩ := exists_commandsOf hacc hempty hover
  rw [(parseR2CPPacket_parsed hcommands s.parsingOffsetStack).outcome rfl] at h
  cases h
  -- what was returned are the results of the records, without those that were dropped
  obtain ⟨magicNumber, ts, rs, hm, hts, -, hrs, rfl⟩ := hcommands
  obtain ⟨-, hcount, hlen⟩ := standsBefore_records hts
  refine ⟨magicNumber, ts, hm, hb ▸ hts, ?_, ?_, ?_⟩
  · rw [← hcount]
    exact UInt32.toNat_lt _
  · intro t ht
    have := hlen t ht
    show t.value.length < 2 ^ 32
    omega
  · obtain ⟨l, hl, hsub⟩ := List.sublistForall₂_iff.mp (List.sublistForall₂_reduceOption hrs)
    refine List.sublistForall₂_iff.mpr ⟨l, hl.imp ?_, hsub⟩
    intro command t hkept
    obtain ⟨hcode, htag, hconforms, hvalue⟩ := hkept
    exact ⟨htag ▸ hcode, htag, hconforms, hvalue⟩

/-- What they are in the packet. -/
theorem parseR2CPPacket_faithful_threeRecords :
    ∃ (magicNumber : UInt32) (ts : List Tlv), IsMagicNumber magicNumber ∧
      threeRecords.encode = encodePacket magicNumber (Tlv.encodeCounted ts) ∧
      ts.length < 2 ^ 32 ∧ (∀ t ∈ ts, t.Sized) ∧
      List.SublistForall₂ (fun command t => IsCommandCode command.commandCode ∧
        command.commandCode = t.tag ∧ ConformsToDictionary command ∧
        encodeCommandContent command = t.value)
        [⟨motorIdle, []⟩, ⟨printMessage, [⟨noParameters, [72, 105]⟩]⟩] ts :=
  parseR2CPPacket_faithful (s := new) (by decide +kernel) (by decide +kernel)

end R2CP.R2CPParser
