import R2CP.Native.Serializer
import R2CP.Spec.ParserFaithful

/-!
# What the serializer returns

Nothing: the packet starts as an empty vector, and the guard of the first writer
finds no room for the magic number in it. `serializeCommands_throws` holds for
every list of commands and every state of the serializer, so no list makes the
round trip through serializer and parser.

The lists that the parser can return are `Returnable`; each has a packet of the
documented format that parses to it (`exists_packet_of_returnable`), so what is
missing is the serializer's side.

## Key results

- `serializeCommands_throws`: the serializer throws on every list, in every state
- `not_roundTrips`: so no list makes the round trip
- `exists_packet_of_returnable`: although each has a packet that parses to it
-/

namespace R2CP.R2CPSerializer

open StatefulExcept (exec Yields)
open Spec

/-! ## The offset stack -/

section Primitives

variable {o : UInt8} {s : List UInt8}

/-- An offset is cut to a byte on its way to the stack. -/
theorem pushOffset_yields (offset : UInt32) :
    Yields serializingOffsetStack (pushOffset offset) s (.ok ()) (offset.toUInt8 :: s) :=
  fun p hp => ⟨_, rfl, by rw [← hp]⟩

/-- And it is read as a number again. -/
theorem backOffset_yields :
    Yields serializingOffsetStack backOffset (o :: s) (.ok o.toUInt32) (o :: s) := by
  intro p hp
  refine ⟨p, ?_, hp⟩
  simp only [backOffset, StatefulExcept.exec_bind, StatefulExcept.exec_get, hp,
    StatefulExcept.exec_pure]

/-- `pop_back` takes the offset at the top. -/
theorem popOffset_yields :
    Yields serializingOffsetStack popOffset (o :: s) (.ok ()) s := by
  intro p hp
  refine ⟨{ p with serializingOffsetStack := s }, ?_, rfl⟩
  simp only [popOffset, StatefulExcept.exec_bind, StatefulExcept.exec_get, hp,
    StatefulExcept.exec_modify]

/-- A word does not fit into a vector that is shorter than the offset behind it. -/
theorem writeUInt32ToR2CPPacket_refused {r2cpPacket : List UInt8} (value : UInt32)
    (h : ¬ o.toUInt32 + 4 ≤ UInt32.ofNat r2cpPacket.length) :
    Yields serializingOffsetStack (writeUInt32ToR2CPPacket r2cpPacket value) (o :: s)
      (.error noBytesLeft) (o :: s) := by
  refine backOffset_yields.bind (popOffset_yields.bind ?_)
  rw [if_neg h]
  have hpush := pushOffset_yields (s := s) o.toUInt32
  rw [UInt8.toUInt8_toUInt32] at hpush
  exact hpush.bind (.throw _)

end Primitives

/-! ## Sizes -/

/-- A command that counts its parameters as one has a first parameter. -/
private theorem precomputeCommandSize_yields (command : R2CPCommand) (s : List UInt8) :
    ∃ size, Yields serializingOffsetStack (precomputeCommandSize command) s (.ok size) s := by
  unfold precomputeCommandSize
  split
  · split
    · -- a count of 1 modulo `2 ^ 32` is not that of an empty list
      rename_i hone
      cases hps : command.commandParameters with
      | nil =>
        rw [R2CPCommand.getNumberOfCommandParameters, hps] at hone
        exact nomatch hone
      | cons p ps =>
        have hat : (vectorAt (p :: ps) 0 : Serializer R2CPParameter) = pure p :=
          vectorAt_of_lt rfl
        rw [hat]
        by_cases hcode : p.parameterCode = noParameters
        · refine ⟨p.getParameterDataSize, Yields.bind (.pure p) ?_⟩
          rw [if_pos hcode]
          exact .pure _
        · refine ⟨precomputeCommandContentSize (p :: ps), Yields.bind (.pure p) ?_⟩
          rw [if_neg hcode]
          exact .pure _
    · exact ⟨_, .pure _⟩
  · exact ⟨_, .pure _⟩

/-- The precomputation returns, and it does not touch the stack. -/
private theorem precomputeLoop_yields (commands : List R2CPCommand) (size : UInt32)
    (s : List UInt8) :
    ∃ r2cpPacketSize, Yields serializingOffsetStack (precomputeLoop commands size) s
      (.ok r2cpPacketSize) s := by
  induction commands generalizing size with
  | nil => exact ⟨size, .pure size⟩
  | cons command commands ih =>
    obtain ⟨n, hn⟩ := precomputeCommandSize_yields command s
    obtain ⟨r2cpPacketSize, hloop⟩ := ih (size + n)
    exact ⟨r2cpPacketSize, hn.bind hloop⟩

/-- With or without commands. -/
private theorem r2cpPacketSizeOf_yields (commands : List R2CPCommand) (s : List UInt8) :
    ∃ size, Yields serializingOffsetStack (r2cpPacketSizeOf commands) s (.ok size) s := by
  unfold r2cpPacketSizeOf
  split
  · exact precomputeLoop_yields commands _ s
  · exact ⟨0, .pure 0⟩

/-! ## The serializer -/

/-- The serializer throws at its first write, for every list and from every state. -/
theorem serializeCommands_throws (commands : List R2CPCommand) (s : List UInt8) :
    Yields serializingOffsetStack (serializeCommands commands) s (.error noBytesLeft) (0 :: s) := by
  obtain ⟨size, hsize⟩ := r2cpPacketSizeOf_yields commands (0 :: s)
  -- offset 0 + 4 against the size 0 of the new vector
  have hwrite : Yields serializingOffsetStack (writeUInt32ToR2CPPacket [] r2cpMagicNumber) (0 :: s)
      (.error noBytesLeft) (0 :: s) :=
    writeUInt32ToR2CPPacket_refused r2cpMagicNumber (by decide)
  exact (pushOffset_yields 0).bind (hsize.bind hwrite.bind_error)

/-- So it returns no packet. -/
private theorem serializeCommands_ne_ok (commands : List R2CPCommand) (s : R2CPSerializer)
    (r2cpPacket : List UInt8) : (exec (serializeCommands commands) s).1 ≠ .ok r2cpPacket := by
  rw [(serializeCommands_throws commands s.serializingOffsetStack).outcome rfl]
  simp

/-! ## Round trips -/

/-- The commands that the parser can return. -/
def Returnable (commands : List R2CPCommand) : Prop :=
  ∀ c ∈ commands, IsCommandCode c.commandCode ∧ ConformsToDictionary c

/-- The documented size of a packet with these commands; without commands there is only
    the header. -/
def packetSize : List R2CPCommand → Nat
  | [] => 8
  | c :: commands => 12 + 8 * (c :: commands).length +
      ((c :: commands).map fun c => (encodeCommandContent c).length).sum

/-- Serializing and parsing gives the commands back: the serializer returns a packet that
    is valid and parses to them. -/
def RoundTrips (commands : List R2CPCommand) (s : R2CPSerializer) (p : R2CPParser) : Prop :=
  ∃ r2cpPacket, (exec (serializeCommands commands) s).1 = .ok r2cpPacket ∧
    (exec (R2CPParser.validateR2CPPacket r2cpPacket) p).1 = .ok true ∧
    (exec (R2CPParser.parseR2CPPacket r2cpPacket) p).1 = .ok commands

/-- No list of commands makes the round trip. -/
theorem not_roundTrips (commands : List R2CPCommand) (s : R2CPSerializer) (p : R2CPParser) :
    ¬ RoundTrips commands s p := by
  intro htrip
  obtain ⟨r2cpPacket, hreturns, -, -⟩ := htrip
  exact serializeCommands_ne_ok commands s r2cpPacket hreturns

/-- One command without parameters, 20 bytes in the documented format. -/
theorem motorIdle_not_roundTrips :
    Returnable [⟨motorIdle, []⟩] ∧ packetSize [⟨motorIdle, []⟩] < 2 ^ 32 - 8 ∧
      ¬ RoundTrips [⟨motorIdle, []⟩] new R2CPParser.new := by
  refine ⟨?_, by decide +kernel, ?_⟩
  · intro c hc
    rw [List.mem_singleton.mp hc]
    exact ⟨by decide +kernel, rfl⟩
  · intro htrip
    obtain ⟨r2cpPacket, hreturns, -, -⟩ := htrip
    exact serializeCommands_ne_ok _ _ r2cpPacket hreturns

/-- A command that the parser can return is the command of a record. -/
private theorem exists_record_of_command {c : R2CPCommand} (hcode : IsCommandCode c.commandCode)
    (hconforms : ConformsToDictionary c) :
    ∃ r : Record, r.command? = some c ∧ r.content.encode = encodeCommandContent c := by
  obtain ⟨code, ps⟩ := c
  unfold ConformsToDictionary at hconforms
  unfold encodeCommandContent
  -- the kind of content decides which record it is
  cases hkind : contentType code with
  | noContent =>
    rw [hkind] at hconforms
    obtain rfl : ps = [] := hconforms
    refine ⟨⟨code, .none, hkind.symm⟩, ?_, ?_⟩
    · rw [Record.command?, if_pos hcode]
    · simp only [Content.encode]
  | directContent =>
    rw [hkind] at hconforms
    obtain ⟨data, rfl⟩ : ∃ data, ps = [⟨noParameters, data⟩] := hconforms
    refine ⟨⟨code, .direct data, hkind.symm⟩, ?_, ?_⟩
    · rw [Record.command?, if_pos hcode]
    · simp only [Content.encode, List.flatMap_cons, List.flatMap_nil, List.append_nil]
  | parameterizedContent =>
    rw [hkind] at hconforms
    refine ⟨⟨code, .parameters ps, hkind.symm⟩, ?_, ?_⟩
    · rw [Record.command?, if_pos hcode]
      exact if_pos hconforms
    · simp only [Content.encode]

/-- The commands have records with their contents, in the same order. -/
private theorem exists_records_of_returnable {commands : List R2CPCommand}
    (h : Returnable commands) :
    ∃ records : List Record, records.filterMap Record.command? = commands ∧
      records.map (·.content.encode) = commands.map encodeCommandContent := by
  induction commands with
  | nil => exact ⟨[], rfl, rfl⟩
  | cons c commands ih =>
    obtain ⟨hcode, hconforms⟩ := h c (by simp)
    obtain ⟨r, hr, hcontent⟩ := exists_record_of_command hcode hconforms
    obtain ⟨records, hrecords, hcontents⟩ := ih (fun d hd => h d (by simp [hd]))
    refine ⟨r :: records, ?_, ?_⟩
    · rw [List.filterMap_cons_some hr, hrecords]
    · rw [List.map_cons, List.map_cons, hcontent, hcontents]

/-- Commands that the parser can return have a packet of the documented size that parses
    to them. -/
theorem exists_packet_of_returnable {commands : List R2CPCommand} (hne : commands ≠ [])
    (h : Returnable commands) (hfits : packetSize commands < 2 ^ 32) :
    ∃ p : GrammarPacket, p.encode.length = packetSize commands ∧
      ∀ s, (exec (R2CPParser.parseR2CPPacket p.encode) s).1 = .ok commands := by
  obtain ⟨records, hrecords, hcontents⟩ := exists_records_of_returnable h
  -- record by record the same contents, so the same sizes
  have hsize : 8 + payloadSize records = packetSize commands := by
    have hlen := congrArg List.length hcontents
    have hsum := congrArg (fun contents => (contents.map List.length).sum) hcontents
    simp only [List.length_map, List.map_map] at hlen hsum
    have hsizes : records.map (·.content.size) =
        records.map (List.length ∘ fun r => r.content.encode) := by
      apply List.map_congr_left
      intro r _
      exact r.content.length_encode.symm
    cases commands with
    | nil => exact absurd rfl hne
    | cons c commands =>
      rw [packetSize, payloadSize, hsizes, hsum, hlen]
      simp only [Function.comp_def]
      omega
  refine ⟨⟨R2CPParser.r2cpMagicNumber, .inl rfl, records, by omega⟩, ?_, fun s => ?_⟩
  · rw [GrammarPacket.length_encode, hsize]
  · rw [R2CPParser.parseR2CPPacket_encode, hrecords]

end R2CP.R2CPSerializer
