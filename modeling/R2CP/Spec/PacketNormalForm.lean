import R2CP.ForStd.PrefixCode
import R2CP.Spec.ParserFaithful

/-!
# Packets and their commands

The parser forgets the magic number, records that are no commands and those with a
parameter that is not theirs. What is left has a packet of its own: `normalForm` writes
the commands in the documented format. The parser returns them for it
(`parseR2CPPacket_normalForm`), and no packet with these commands is shorter. So the
lists of commands that it can return are those with a normal form
(`returnable_iff`), and packets put together parse to their commands put together
(`parseR2CPPacket_merge`).

Accepted packets are a prefix code: a stream of them has one way to be cut into packets
(`uniquelyDecodable_accepted`).

## Key results

- `parseR2CPPacket_normalForm`: the commands that come out of a packet have a normal form, and
  come out of it
- `returnable_iff`: the lists of commands that the parser can return
- `parseR2CPPacket_merge`: packets put together
- `uniquelyDecodable_accepted`: streams of packets, by `prefixFree_acceptedPackets`
-/

namespace R2CP

/-- A command on the wire. -/
def R2CPCommand.toTlv (c : R2CPCommand) : Tlv := ⟨c.commandCode, Spec.encodeCommandContent c⟩

namespace R2CPParser

open StatefulExcept (exec)
open Spec

/-! ## Streams -/

/-- The packets that the validator accepts. -/
def acceptedPackets : Set (List UInt8) :=
  {b | b.length < 2 ^ 32 ∧ (exec (validateR2CPPacket b) new).1 = .ok true}

/-- An accepted packet is one that the parser takes as it is. -/
private theorem packetAccepted_of_mem {b : List UInt8} (h : b ∈ acceptedPackets) :
    PacketAccepted b := by
  obtain ⟨hlt, hvalid⟩ := h
  obtain ⟨r, hy, hiff⟩ := validateR2CPPacket_decides b []
  rw [visible_of_lt hlt] at hiff
  rw [hy.outcome rfl] at hvalid
  exact hiff.mp (Except.ok.inj hvalid)

/-- The size in the header says where an accepted packet ends. -/
private theorem prefixFree_acceptedPackets : acceptedPackets.PrefixFree := by
  rintro b hb b' hb' ⟨rest, hwhole⟩
  obtain ⟨m, payload, -, hpacket, -⟩ := packetAccepted_of_mem hb
  obtain ⟨m', payload', -, hpacket', -⟩ := packetAccepted_of_mem hb'
  have hlt := hb.1
  have hlt' := hb'.1
  rw [hpacket, length_encodePacket] at hlt
  rw [hpacket', length_encodePacket] at hlt'
  have hrest := hwhole
  rw [hpacket, hpacket', encodePacket, encodePacket] at hrest
  simp only [List.append_assoc] at hrest
  obtain ⟨-, hsizes⟩ := UInt32.toBytesBE_append_inj hrest
  obtain ⟨hsize, hpayload⟩ := UInt32.toBytesBE_append_inj hsizes
  -- equal sizes, so nothing is left for the rest
  have hlength := congrArg UInt32.toNat hsize
  rw [UInt32.toNat_ofNat_length (by omega), UInt32.toNat_ofNat_length (by omega)] at hlength
  have hlengths := congrArg List.length hpayload
  rw [List.length_append] at hlengths
  have hnil : rest = [] := List.length_eq_zero_iff.mp (by omega)
  rw [← hwhole, hnil, List.append_nil]

/-- No accepted packet begins another one, so a stream of accepted packets has one way to
    be cut into packets. -/
theorem uniquelyDecodable_accepted :
    acceptedPackets.PrefixFree ∧ InformationTheory.UniquelyDecodable acceptedPackets := by
  refine ⟨prefixFree_acceptedPackets, prefixFree_acceptedPackets.uniquelyDecodable ?_⟩
  intro hnil
  obtain ⟨m, payload, -, hpacket, -⟩ := packetAccepted_of_mem hnil
  have hlength := congrArg List.length hpacket
  rw [length_encodePacket, List.length_nil] at hlength
  omega

/-! ## The commands of a packet -/

/-- What a packet returned commands for. -/
private theorem commandsOf_of_parse {b : List UInt8} {s : R2CPParser} {commands : List R2CPCommand}
    (h : (exec (parseR2CPPacket b) s).1 = .ok commands) : CommandsOf (visible b) commands := by
  by_cases hacc : PacketAccepted (visible b)
  swap
  · rw [(parseR2CPPacket_rejected hacc s.parsingOffsetStack).outcome rfl] at h
    cases h
  by_cases hempty : IsEmptyPacket (visible b)
  · rw [(parseR2CPPacket_empty hempty s.parsingOffsetStack).outcome rfl] at h
    cases h
  by_cases hover : OverrunsInside (visible b)
  · obtain ⟨what, s', hthrow⟩ := parseR2CPPacket_overruns hover s.parsingOffsetStack
    rw [hthrow.outcome rfl] at h
    cases h
  obtain ⟨commands', hcommands⟩ := exists_commandsOf hacc hempty hover
  rw [(parseR2CPPacket_parsed hcommands s.parsingOffsetStack).outcome rfl] at h
  cases h
  exact hcommands

/-- A command that the parser can return. -/
def Returnable (c : R2CPCommand) : Prop := IsCommandCode c.commandCode ∧ ConformsToDictionary c

/-- A command that the parser can return is kept when it reads it. -/
theorem Returnable.kept {c : R2CPCommand} (h : Returnable c) : Kept c.toTlv c :=
  ⟨h.1, rfl, h.2, rfl⟩

/-- The record of a command has a content that the validator accepts. -/
private theorem contentAccepted_toTlv {c : R2CPCommand}
    (hlt : (encodeCommandContent c).length < 2 ^ 32) : ContentAccepted c.toTlv := by
  have hvalue : c.toTlv.value = encodeCommandContent c := rfl
  unfold encodeCommandContent at hlt hvalue
  unfold ContentAccepted
  rw [show c.toTlv.tag = c.commandCode from rfl, hvalue]
  cases hkind : contentType c.commandCode with
  | noContent => rfl
  | directContent => trivial
  | parameterizedContent =>
    rw [hkind] at hlt
    simp only [walkedSizes_encodeCounted hlt, Option.isSome_some]

/-- A record that is a command is the one that the command is written as. -/
private theorem Kept.eq_toTlv {t : Tlv} {c : R2CPCommand} (h : Kept t c) : t = c.toTlv := by
  obtain ⟨-, htag, -, hvalue⟩ := h
  cases t
  simp only [R2CPCommand.toTlv, htag, hvalue]

/-- And what it keeps can be returned. -/
theorem Kept.returnable {t : Tlv} {c : R2CPCommand} (h : Kept t c) : Returnable c :=
  ⟨h.2.1 ▸ h.1, h.2.2.1⟩

/-! ## Normal forms -/

/-- The commands in the documented format. -/
def normalForm (magicNumber : UInt32) (commands : List R2CPCommand) : List UInt8 :=
  encodePacket magicNumber (Tlv.encodeCounted (commands.map R2CPCommand.toTlv))

/-- The parser can return each of the commands, and their packet has less than `2 ^ 32`
    bytes. -/
structure HasNormalForm (commands : List R2CPCommand) : Prop where
  returnable : ∀ c ∈ commands, Returnable c
  fits : 12 + 8 * commands.length +
    (commands.map fun c => (encodeCommandContent c).length).sum < 2 ^ 32

/-- Twelve bytes, eight for each command, and the contents. -/
theorem length_normalForm (magicNumber : UInt32) (commands : List R2CPCommand) :
    (normalForm magicNumber commands).length = 12 + 8 * commands.length +
      (commands.map fun c => (encodeCommandContent c).length).sum := by
  have hvalues : (commands.map R2CPCommand.toTlv).map (fun t : Tlv => t.value.length) =
      commands.map fun c => (encodeCommandContent c).length := by
    rw [List.map_map]
    rfl
  rw [normalForm, length_encodePacket, Tlv.length_encodeCounted, hvalues, List.length_map]
  omega

/-- The commands of the packet are those that it was written for. -/
private theorem HasNormalForm.commandsOf {commands : List R2CPCommand} (h : HasNormalForm commands)
    {magicNumber : UInt32} (hm : IsMagicNumber magicNumber) :
    CommandsOf (normalForm magicNumber commands) commands := by
  refine ⟨magicNumber, _, commands.map some, hm, rfl, ?_, ?_, ?_⟩
  · intro t ht
    obtain ⟨c, hc, rfl⟩ := List.mem_map.mp ht
    have hfits := h.fits
    have hle := List.le_sum_of_mem (List.mem_map_of_mem (f := fun c =>
      (encodeCommandContent c).length) hc)
    exact contentAccepted_toTlv (by omega)
  · rw [List.forall₂_map_left_iff, List.forall₂_map_right_iff, List.forall₂_same]
    exact fun c hc => (h.returnable c hc).kept
  · simp [List.reduceOption]

/-- The parser returns the commands for their normal form. -/
theorem HasNormalForm.parse {commands : List R2CPCommand} (h : HasNormalForm commands)
    {magicNumber : UInt32} (hm : IsMagicNumber magicNumber) (s : R2CPParser) :
    (exec (parseR2CPPacket (normalForm magicNumber commands)) s).1 = .ok commands := by
  have hcommands := h.commandsOf hm
  rw [← visible_of_lt (b := normalForm magicNumber commands)
    (by rw [length_normalForm]; exact h.fits)] at hcommands
  exact (parseR2CPPacket_parsed hcommands s.parsingOffsetStack).outcome rfl

/-- Only records that are dropped make other packets longer. -/
private theorem length_encodeAll_reduceOption {ts : List Tlv} {rs : List (Option R2CPCommand)}
    (h : List.Forall₂ Parses ts rs) :
    (Tlv.encodeAll (rs.reduceOption.map R2CPCommand.toTlv)).length ≤ (Tlv.encodeAll ts).length ∧
      ((Tlv.encodeAll (rs.reduceOption.map R2CPCommand.toTlv)).length =
        (Tlv.encodeAll ts).length → ts = rs.reduceOption.map R2CPCommand.toTlv) := by
  induction h with
  | nil => simp
  | @cons t r ts rs hparses _ ih =>
    obtain ⟨hle, heq⟩ := ih
    cases r with
    | none =>
      rw [List.reduceOption_cons_of_none, Tlv.encodeAll_cons, List.length_append,
        Tlv.length_encode]
      constructor
      · omega
      · intro hsame
        omega
    | some c =>
      rw [Kept.eq_toTlv hparses, List.reduceOption_cons_of_some, List.map_cons,
        Tlv.encodeAll_cons, Tlv.encodeAll_cons, List.length_append, List.length_append]
      constructor
      · omega
      · intro hsame
        rw [← heq (by omega)]

/-- The commands of a packet have a normal form that is no longer than the packet, and is
    the packet if it is as long. -/
theorem CommandsOf.normalForm {b : List UInt8} {commands : List R2CPCommand}
    (h : CommandsOf b commands) (hlt : b.length < 2 ^ 32) :
    HasNormalForm commands ∧ ∃ magicNumber, IsMagicNumber magicNumber ∧
      magicNumber.toBytesBE <+: b ∧ (normalForm magicNumber commands).length ≤ b.length ∧
      ((normalForm magicNumber commands).length = b.length →
        b = normalForm magicNumber commands) := by
  obtain ⟨m, ts, rs, hm, rfl, -, hrs, rfl⟩ := h
  obtain ⟨hle, heq⟩ := length_encodeAll_reduceOption hrs
  have hlength : ∀ us : List Tlv, (encodePacket m (Tlv.encodeCounted us)).length =
      12 + (Tlv.encodeAll us).length := by
    intro us
    rw [length_encodePacket, Tlv.encodeCounted, List.length_append, UInt32.length_toBytesBE]
    omega
  have hnormal := hlength (rs.reduceOption.map R2CPCommand.toTlv)
  have hpacket := hlength ts
  -- the records that are kept are among those of the packet, so theirs is not longer
  refine ⟨⟨?_, ?_⟩, m, hm, ?_, ?_, ?_⟩
  · intro c hc
    obtain ⟨t, -, hkept⟩ := hrs.exists_of_mem_right (List.reduceOption_mem_iff.mp hc)
    exact Kept.returnable hkept
  · rw [← length_normalForm m]
    show (encodePacket m _).length < 2 ^ 32
    omega
  · rw [encodePacket, List.append_assoc]
    exact List.prefix_append _ _
  · show (encodePacket m _).length ≤ _
    omega
  · intro hsame
    have hsame' : (encodePacket m (Tlv.encodeCounted
        (rs.reduceOption.map R2CPCommand.toTlv))).length =
        (encodePacket m (Tlv.encodeCounted ts)).length := hsame
    -- nothing was left out, so the records are the same
    rw [R2CPParser.normalForm, ← heq (by omega)]

/-- The lists of commands that the parser can return are those with a normal form. -/
theorem returnable_iff (commands : List R2CPCommand) (s : R2CPParser) :
    (∃ b, b.length < 2 ^ 32 ∧ (exec (parseR2CPPacket b) s).1 = .ok commands) ↔
      HasNormalForm commands := by
  constructor
  · rintro ⟨b, hlt, hparse⟩
    have hcommands := commandsOf_of_parse hparse
    rw [visible_of_lt hlt] at hcommands
    exact (hcommands.normalForm hlt).1
  · intro h
    refine ⟨normalForm r2cpMagicNumber commands, ?_, h.parse (.inl rfl) s⟩
    rw [length_normalForm]
    exact h.fits

/-- Of the packets with the same magic number for which the parser returns the same
    commands, the normal form is the shortest one, and the only one of its length. -/
theorem parseR2CPPacket_normalForm {b : List UInt8} {s : R2CPParser}
    {commands : List R2CPCommand} (h : (exec (parseR2CPPacket b) s).1 = .ok commands) :
    ∃ magicNumber, IsMagicNumber magicNumber ∧ magicNumber.toBytesBE <+: b ∧
      (∀ s', (exec (parseR2CPPacket (normalForm magicNumber commands)) s').1 = .ok commands) ∧
      (normalForm magicNumber commands).length ≤ b.length ∧
      ((normalForm magicNumber commands).length = b.length →
        b = normalForm magicNumber commands) := by
  -- the parser sees no more of a packet than 32 bits can count
  have hvisible : visible b <+: b := List.take_prefix _ _
  have hlt := length_visible_lt b
  have hlength := hvisible.length_le
  obtain ⟨hnormal, m, hm, hprefix, hle, heq⟩ := (commandsOf_of_parse h).normalForm hlt
  refine ⟨m, hm, hprefix.trans hvisible, hnormal.parse hm, hle.trans hlength, ?_⟩
  intro hsame
  -- a normal form as long as the packet leaves nothing of it unseen
  have hall : visible b = b := hvisible.eq_of_length (by omega)
  rw [← heq (by omega), hall]

/-- The packet with a record that is dropped is longer than its normal form. -/
theorem parseR2CPPacket_normalForm_threeRecords :
    ∃ magicNumber, IsMagicNumber magicNumber ∧
      magicNumber.toBytesBE <+: threeRecords.encode ∧
      (∀ s', (exec (parseR2CPPacket (normalForm magicNumber
        [⟨motorIdle, []⟩, ⟨printMessage, [⟨noParameters, [72, 105]⟩]⟩])) s').1 =
          .ok [⟨motorIdle, []⟩, ⟨printMessage, [⟨noParameters, [72, 105]⟩]⟩]) ∧
      (normalForm magicNumber
        [⟨motorIdle, []⟩, ⟨printMessage, [⟨noParameters, [72, 105]⟩]⟩]).length ≤
          threeRecords.encode.length ∧
      ((normalForm magicNumber
        [⟨motorIdle, []⟩, ⟨printMessage, [⟨noParameters, [72, 105]⟩]⟩]).length =
          threeRecords.encode.length →
        threeRecords.encode = normalForm magicNumber
          [⟨motorIdle, []⟩, ⟨printMessage, [⟨noParameters, [72, 105]⟩]⟩]) :=
  parseR2CPPacket_normalForm (s := new) (by decide +kernel)

/-- A packet that fits has its records for its commands. -/
private theorem forall₂_parses_of_parse {m : UInt32} {ts : List Tlv}
    (hfits : 12 + (Tlv.encodeAll ts).length < 2 ^ 32) {s : R2CPParser}
    {commands : List R2CPCommand}
    (h : (exec (parseR2CPPacket (encodePacket m (Tlv.encodeCounted ts))) s).1 = .ok commands) :
    (∀ t ∈ ts, ContentAccepted t) ∧
      ∃ rs, List.Forall₂ Parses ts rs ∧ commands = rs.reduceOption := by
  have hlength : (Tlv.encodeCounted ts).length = 4 + (Tlv.encodeAll ts).length := by
    rw [Tlv.encodeCounted, List.length_append, UInt32.length_toBytesBE]
  have hcommands := commandsOf_of_parse h
  rw [visible_of_lt (by rw [length_encodePacket]; omega)] at hcommands
  obtain ⟨m', ts', rs, -, hpacket, hacc, hrs, hreduce⟩ := hcommands
  obtain ⟨-, hpayload⟩ := encodePacket_inj hpacket
  obtain rfl := Tlv.encodeCounted_inj (by omega) hpayload
  exact ⟨hacc, rs, hrs, hreduce⟩

/-- The records of two packets in one packet give the commands of both. -/
theorem parseR2CPPacket_merge {m m' m'' : UInt32} {ts ts' : List Tlv}
    (hm : IsMagicNumber m'') (hfits : 12 + (Tlv.encodeAll (ts ++ ts')).length < 2 ^ 32)
    {s s' : R2CPParser} {commands commands' : List R2CPCommand}
    (h : (exec (parseR2CPPacket (encodePacket m (Tlv.encodeCounted ts))) s).1 = .ok commands)
    (h' : (exec (parseR2CPPacket (encodePacket m' (Tlv.encodeCounted ts'))) s').1 =
      .ok commands') (s'' : R2CPParser) :
    (exec (parseR2CPPacket (encodePacket m'' (Tlv.encodeCounted (ts ++ ts')))) s'').1 =
      .ok (commands ++ commands') := by
  rw [Tlv.encodeAll_append, List.length_append] at hfits
  obtain ⟨hacc, rs, hrs, rfl⟩ := forall₂_parses_of_parse (by omega) h
  obtain ⟨hacc', rs', hrs', rfl⟩ := forall₂_parses_of_parse (by omega) h'
  have hlength : (encodePacket m'' (Tlv.encodeCounted (ts ++ ts'))).length < 2 ^ 32 := by
    rw [length_encodePacket, Tlv.encodeCounted, List.length_append, UInt32.length_toBytesBE,
      Tlv.encodeAll_append, List.length_append]
    omega
  -- each record leads to what it led to before, and the results are put together
  have hmerged : CommandsOf (encodePacket m'' (Tlv.encodeCounted (ts ++ ts')))
      (rs.reduceOption ++ rs'.reduceOption) := by
    refine ⟨m'', ts ++ ts', rs ++ rs', hm, rfl, ?_, ?_, ?_⟩
    · intro t ht
      rcases List.mem_append.mp ht with hfirst | hsecond
      · exact hacc t hfirst
      · exact hacc' t hsecond
    · exact List.rel_append hrs hrs'
    · exact (List.reduceOption_append rs rs').symm
  rw [← visible_of_lt hlength] at hmerged
  exact (parseR2CPPacket_parsed hmerged s''.parsingOffsetStack).outcome rfl

/-- Two packets of one record each. -/
theorem parseR2CPPacket_merge_records :
    (exec (parseR2CPPacket (encodePacket rrcpMagicNumber
        (Tlv.encodeCounted ([⟨motorIdle, []⟩] ++ [⟨printMessage, [72, 105]⟩])))) new).1 =
      .ok ([⟨motorIdle, []⟩] ++ [⟨printMessage, [⟨noParameters, [72, 105]⟩]⟩]) := by
  have hfirst : (exec (parseR2CPPacket (encodePacket r2cpMagicNumber
      (Tlv.encodeCounted [⟨motorIdle, []⟩]))) new).1 = .ok [⟨motorIdle, []⟩] := by
    decide +kernel
  have hsecond : (exec (parseR2CPPacket (encodePacket r2cpMagicNumber
      (Tlv.encodeCounted [⟨printMessage, [72, 105]⟩]))) new).1 =
        .ok [⟨printMessage, [⟨noParameters, [72, 105]⟩]⟩] := by
    decide +kernel
  exact parseR2CPPacket_merge (.inr rfl) (by decide) hfirst hsecond new

end R2CPParser

end R2CP
