import R2CP.ForStd.List
import R2CP.Spec.ParserEntries
import R2CP.Spec.ValidatorCorrect

/-!
# What the parser returns

The second walk reads what the validator skipped. In a parameterized content it
stops early at the first parameter code that does not belong to the command
(`MeetsForeign`, the record is discarded), and it throws at a parameter of the
command whose size goes past the end (`Overruns`, the validator's wrapped skip).

`Parses t r` is the contract of one record: what the loop over the commands makes
of it. `parses_or_stuck` says that an accepted record either has such a result or
overruns, and `parseR2CPPacket_parsed` puts the records of a packet together.

## Key results

- `parses_or_stuck`: an accepted record has a result, or its parameters overrun
- `parseCommandLoop_reports`: what the loop over the commands collects and logs
- `parseR2CPPacket_parsed`, `parseR2CPPacket_empty`, `parseR2CPPacket_overruns`: the three ends
  of the parsing of an accepted packet
-/

namespace R2CP.R2CPParser

open StatefulExcept (Yields)
open Spec
open R2CPCommandDictionary (getInstance)

/-! ## Shapes of a parameterized content -/

/-- The content announces one more parameter after whole ones of the command, and
    `tail` stands where it should be. -/
def ReachesEntry (code : UInt32) (c tail : List UInt8) : Prop :=
  ∃ (count : UInt32) (ps : List R2CPParameter),
    c = count.toBytesBE ++ Tlv.encodeAll (ps.map R2CPParameter.toTlv) ++ tail ∧
    ps.length < count.toNat ∧ ∀ p ∈ ps, IsParameterOf code p.parameterCode

/-- The walk over the parameters comes to a code that the command does not take. -/
def MeetsForeign (code : UInt32) (c : List UInt8) : Prop :=
  ∃ (p : UInt32) (rest : List UInt8),
    ReachesEntry code c (p.toBytesBE ++ rest) ∧ ¬ IsParameterOf code p

/-- The walk over the parameters comes to a parameter of the command with fewer bytes
    left than its size. -/
def Overruns (code : UInt32) (c : List UInt8) : Prop :=
  ∃ (p size : UInt32) (rest : List UInt8),
    ReachesEntry code c (p.toBytesBE ++ size.toBytesBE ++ rest) ∧ IsParameterOf code p ∧
    rest.length < size.toNat

/-- Among whole parameters, one that the command does not take is met. -/
theorem MeetsForeign.of_not_forall {code count : UInt32} {c rest : List UInt8}
    {ps : List R2CPParameter}
    (hc : c = count.toBytesBE ++ Tlv.encodeAll (ps.map R2CPParameter.toTlv) ++ rest)
    (hle : ps.length ≤ count.toNat) (h : ¬ ∀ p ∈ ps, IsParameterOf code p.parameterCode) :
    MeetsForeign code c := by
  obtain ⟨before, p, after, rfl, hbefore, hforeign⟩ := List.exists_first_not h
  refine ⟨p.parameterCode, (UInt32.ofNat p.parameterData.length).toBytesBE ++
    (p.parameterData ++ (Tlv.encodeAll (after.map R2CPParameter.toTlv) ++ rest)),
    ⟨count, before, ?_, ?_, hbefore⟩, hforeign⟩
  · rw [hc]
    simp only [List.map_append, List.map_cons, Tlv.encodeAll_append, Tlv.encodeAll_cons,
      Tlv.encode, R2CPParameter.toTlv, List.append_assoc]
  · rw [List.length_append, List.length_cons] at hle
    omega

/-! ## The loop over the parameters -/

section Parameters

variable {c rest : List UInt8} {code o : UInt32}

/-- Whole parameters of the command are read, one round each. -/
private theorem parseParameterLoop_allowed {ps : List R2CPParameter}
    (hps : ∀ p ∈ ps, IsParameterOf code p.parameterCode ∧ p.toTlv.Sized)
    (h : StandsBefore c o (Tlv.encodeAll (ps.map R2CPParameter.toTlv) ++ rest))
    (acc : List R2CPParameter) (k : Nat) :
    ∃ o', StandsBefore c o' rest ∧ ∀ s r s',
      Yields parsingOffsetStack
        (parseParameterLoop c (getInstance.getCommandParameters code) k (acc ++ ps))
        (o' :: s) r s' →
      Yields parsingOffsetStack
        (parseParameterLoop c (getInstance.getCommandParameters code) (ps.length + k) acc)
        (o :: s) r s' := by
  -- on the parameters that are there; `acc` holds those that were read before
  induction ps generalizing o acc with
  | nil =>
    refine ⟨o, h, fun s r s' hrest => ?_⟩
    rw [List.length_nil, Nat.zero_add]
    rwa [List.append_nil] at hrest
  | cons p ps ih =>
    obtain ⟨hallowed, hsized⟩ := hps p (by simp)
    rw [List.map_cons, Tlv.encodeAll_cons, List.append_assoc] at h
    have hentry := h.readsEntry hsized
    obtain ⟨o', ho', hloop⟩ := ih (fun q hq => hps q (by simp [hq])) hentry.next (acc ++ [p])
    refine ⟨o', ho', fun s r s' hrest => ?_⟩
    rw [List.length_cons, Nat.add_right_comm]
    -- one round: the code, which the command takes, then the size and the data
    apply (hentry.tag s).bind
    rw [if_pos (show (getInstance.getCommandParameters code).contains p.toTlv.tag = true
      from hallowed)]
    apply (hentry.size s).bind
    apply (hentry.value s).bind
    apply hloop
    rwa [List.append_assoc]

/-- The part of the walk before the entry that `ReachesEntry` speaks of. -/
theorem ReachesEntry.walk {tail : List UInt8} (h : ReachesEntry code c tail)
    (hlt : c.length < 2 ^ 32) :
    ∃ (count : UInt32) (ps : List R2CPParameter) (k : Nat) (o : UInt32),
      StandsBefore c o tail ∧
      (∀ s, Yields parsingOffsetStack (readR2CPPacketAsUInt32 c) (0 :: s) (.ok count) (4 :: s)) ∧
      ∀ s r s',
        Yields parsingOffsetStack
          (parseParameterLoop c (getInstance.getCommandParameters code) (k + 1) ps)
          (o :: s) r s' →
        Yields parsingOffsetStack
          (parseParameterLoop c (getInstance.getCommandParameters code) count.toNat [])
          (4 :: s) r s' := by
  obtain ⟨count, ps, hc, hfew, hps⟩ := h
  have hlen : (Tlv.encodeAll (ps.map R2CPParameter.toTlv)).length < 2 ^ 32 := by
    rw [hc, List.length_append, List.length_append] at hlt
    omega
  have hsized := Tlv.sized_of_length_encodeAll hlen
  have h0 : StandsBefore c 0
      (count.toBytesBE ++ (Tlv.encodeAll (ps.map R2CPParameter.toTlv) ++ tail)) :=
    StandsBefore.start_of_lt hlt (by rw [hc, List.append_assoc])
  -- one round is left for the entry, and `k` are left after it
  obtain ⟨o, ho, hloop⟩ := parseParameterLoop_allowed
    (fun p hp => ⟨hps p hp, hsized _ (List.mem_map_of_mem hp)⟩) (h0.advance (n := 4) rfl) []
    (count.toNat - ps.length - 1 + 1)
  refine ⟨count, ps, count.toNat - ps.length - 1, o, ho,
    fun s => readR2CPPacketAsUInt32_yields h0, fun s r s' hrest => ?_⟩
  have := hloop s r s' hrest
  rwa [show ps.length + (count.toNat - ps.length - 1 + 1) = count.toNat by omega] at this

/-! ## Parameterized contents -/

/-- A content whose parameters all belong to the command gives them. -/
private theorem parseParameterizedCommandContent_kept {ps : List R2CPParameter}
    (hlt : (Tlv.encodeCounted (ps.map R2CPParameter.toTlv)).length < 2 ^ 32)
    (hps : ∀ p ∈ ps, IsParameterOf code p.parameterCode) (s : List UInt32) :
    Yields parsingOffsetStack
      (parseParameterizedCommandContent code (Tlv.encodeCounted (ps.map R2CPParameter.toTlv)))
      s (.ok ps) s := by
  have hlen := Tlv.length_encodeAll_lt hlt
  have hsized := Tlv.sized_of_length_encodeAll hlen
  have hcount := UInt32.toNat_ofNat_length (Tlv.length_lt_of_length_encodeAll hlen)
  rw [List.length_map] at hcount
  have h0 : StandsBefore (Tlv.encodeCounted (ps.map R2CPParameter.toTlv)) 0
      ((UInt32.ofNat ps.length).toBytesBE ++
        (Tlv.encodeAll (ps.map R2CPParameter.toTlv) ++ [])) :=
    StandsBefore.start_of_lt hlt (by rw [List.append_nil, Tlv.encodeCounted, List.length_map])
  -- no round is left behind the last parameter
  obtain ⟨o', -, hloop⟩ := parseParameterLoop_allowed
    (fun p hp => ⟨hps p hp, hsized _ (List.mem_map_of_mem hp)⟩) (h0.advance (n := 4) rfl) [] 0
  have hwalk := hloop s (.ok (ps, none)) _ (Yields.pure _)
  rw [Nat.add_zero, ← hcount] at hwalk
  exact pushOffset_yields.bind ((readR2CPPacketAsUInt32_yields h0).bind
    (hwalk.bind (popOffset_yields.bind (.pure ps))))

/-- The first code that the command does not take is named in the exception. -/
private theorem parseParameterizedCommandContent_foreignCode {p : UInt32} {rest : List UInt8}
    (hreach : ReachesEntry code c (p.toBytesBE ++ rest)) (hforeign : ¬ IsParameterOf code p)
    (hlt : c.length < 2 ^ 32) (s : List UInt32) :
    Yields parsingOffsetStack (parseParameterizedCommandContent code c) s
      (.error (.invalidArgument (.text (invalidParameterText p code)))) s := by
  obtain ⟨count, ps, k, o, ho, hcount, hloop⟩ := hreach.walk hlt
  have hstop : Yields parsingOffsetStack
      (parseParameterLoop c (getInstance.getCommandParameters code) (k + 1) ps)
      (o :: s) (.ok (ps, some p)) ((o + 4) :: s) := by
    -- the code ends the loop, and size and data stay unread
    apply (readR2CPPacketAsUInt32_yields ho).bind
    rw [if_neg (show ¬ _ = true from hforeign)]
    exact .pure _
  exact pushOffset_yields.bind ((hcount s).bind
    ((hloop _ _ _ hstop).bind (popOffset_yields.bind (.throw _))))

/-- A parameter that runs past the end is read up to its data, which is not there. -/
private theorem parseParameterizedCommandContent_overruns (h : Overruns code c)
    (hlt : c.length < 2 ^ 32) (s : List UInt32) :
    ∃ what s', Yields parsingOffsetStack (parseParameterizedCommandContent code c) s
      (.error (.outOfRange what)) s' := by
  obtain ⟨p, size, rest, hreach, hallowed, hover⟩ := h
  obtain ⟨count, ps, k, o, ho, hcount, hloop⟩ := hreach.walk hlt
  rw [List.append_assoc] at ho
  have h1 := ho.advance (n := 4) rfl
  have h2 := h1.advance (n := 4) rfl
  obtain ⟨what, s', hthrow, -⟩ := readBytesFromR2CPPacket_throws (s := s) (h2.short hlt hover) hlt
  have hstop : Yields parsingOffsetStack
      (parseParameterLoop c (getInstance.getCommandParameters code) (k + 1) ps)
      (o :: s) (.error (.outOfRange what)) s' := by
    -- code and size are read, and the data is not all there
    apply (readR2CPPacketAsUInt32_yields ho).bind
    rw [if_pos (show _ = true from hallowed)]
    exact (readR2CPPacketAsUInt32_yields h1).bind hthrow.bind_error
  exact ⟨what, s', pushOffset_yields.bind ((hcount s).bind (hloop _ _ _ hstop).bind_error)⟩

/-- In an accepted content the walk over the sizes has read the size of the entry. -/
private theorem ReachesEntry.eight_le {tail : List UInt8} (h : ReachesEntry code c tail)
    (hlt : c.length + 8 < 2 ^ 32) (hwalk : (walkedSizes c).isSome = true) : 8 ≤ tail.length := by
  obtain ⟨sizes, hsizes⟩ := Option.isSome_iff_exists.mp hwalk
  obtain ⟨count', body, hc', hsteps⟩ := sizesWalk_of_walkedSizes hsizes
  obtain ⟨count, ps, hc, hfew, -⟩ := h
  -- both walks have read the same count
  rw [List.append_assoc] at hc
  obtain ⟨rfl, -⟩ := UInt32.toBytesBE_append_inj (hc'.symm.trans hc)
  have hlen : (Tlv.encodeAll (ps.map R2CPParameter.toTlv)).length < 2 ^ 32 := by
    have := congrArg List.length hc
    rw [List.length_append, List.length_append] at this
    omega
  have h0 := (StandsBefore.start_of_lt (by omega) hc).advance (n := 4) rfl
  obtain ⟨o, ho, hentries⟩ := sizesWalk_encodeAll (Tlv.sized_of_length_encodeAll hlen) h0
    (by omega) (count'.toNat - ps.length - 1 + 1)
  rw [List.length_map,
    show ps.length + (count'.toNat - ps.length - 1 + 1) = count'.toNat by omega,
    show (0 : UInt32) + 4 = 4 from rfl, hsteps] at hentries
  -- so the size behind the next code was read, which is 8 bytes further on
  have hsize : c.readUInt32BE? (o + 4).toNat ≠ none := by
    intro hnone
    rw [sizesWalk, hnone] at hentries
    cases hentries
  rw [Ne, List.readUInt32BE?_eq_none_iff] at hsize
  have hat := ho.length_eq
  rw [visible_of_lt (by omega)] at hat
  have h4 : (4 : UInt32).toNat = 4 := rfl
  rw [UInt32.toNat_add, h4, Nat.mod_eq_of_lt (by omega)] at hsize
  omega

/-- What the validator accepts has one of the three shapes. -/
private theorem parameterized_cases (code : UInt32) {c : List UInt8} (hlt : c.length + 8 < 2 ^ 32)
    (hwalk : (walkedSizes c).isSome = true) :
    (∃ ps : List R2CPParameter, c = Tlv.encodeCounted (ps.map R2CPParameter.toTlv) ∧
      ∀ p ∈ ps, IsParameterOf code p.parameterCode) ∨
    MeetsForeign code c ∨ Overruns code c := by
  obtain ⟨sizes, hsizes⟩ := Option.isSome_iff_exists.mp hwalk
  obtain ⟨count, body, hc, hsteps⟩ := sizesWalk_of_walkedSizes hsizes
  -- the whole parameters behind the count, as many as it says or as there are
  obtain ⟨ts, rest, rfl, hsized, hend⟩ := Tlv.exists_split count.toNat body
  obtain ⟨ps, rfl⟩ := R2CPParameter.exists_map_toTlv ts
  rw [List.length_map] at hend
  by_cases hall : ∀ p ∈ ps, IsParameterOf code p.parameterCode
  swap
  · have hle : ps.length ≤ count.toNat := hend.elim (fun h => by omega) (fun h => by omega)
    exact .inr (.inl (MeetsForeign.of_not_forall (by rw [hc, List.append_assoc]) hle hall))
  rcases hend with hcount | ⟨hfew, hstuck⟩
  · -- all parameters are there, so the walk over the sizes ends where they end
    have h0 := (StandsBefore.start_of_lt (by omega) hc).advance (n := 4) rfl
    obtain ⟨o, ho, hentries⟩ := sizesWalk_encodeAll hsized h0 (by omega) 0
    rw [List.length_map, Nat.add_zero, hcount, show (0 : UInt32) + 4 = 4 from rfl,
      hsteps] at hentries
    simp only [sizesWalk, Option.map_some, Option.some.injEq, Prod.mk.injEq] at hentries
    have hat := ho.length_eq
    rw [← hentries.2, toNat_ofNat_length_visible] at hat
    have hrest : rest = [] := List.eq_nil_of_length_eq_zero (by omega)
    refine .inl ⟨ps, ?_, hall⟩
    rw [hc, hrest, List.append_nil, Tlv.encodeCounted, List.length_map, hcount, UInt32.ofNat_toNat]
  · -- a parameter is missing: its code and size are there, its data is not
    have hreach : ReachesEntry code c rest :=
      ⟨count, ps, by rw [hc, List.append_assoc], hfew, hall⟩
    rcases hstuck with hshort | ⟨p, size, more, rfl, hmore⟩
    · -- the validator has read the size of the missing parameter
      have := hreach.eight_le hlt hwalk
      omega
    · by_cases hp : IsParameterOf code p
      · exact .inr (.inr ⟨p, size, more, hreach, hp, hmore⟩)
      · rw [List.append_assoc] at hreach
        exact .inr (.inl ⟨p, _, hreach, hp⟩)

end Parameters

/-! ## Records -/

/-- The record is a command: code, content type and content bytes agree. -/
def Kept (t : Tlv) (command : R2CPCommand) : Prop :=
  IsCommandCode t.tag ∧ command.commandCode = t.tag ∧ ConformsToDictionary command ∧
    encodeCommandContent command = t.value

/-- The record has no code of a command, or a parameter that its command does not take. -/
def Dropped (t : Tlv) : Prop :=
  ¬ IsCommandCode t.tag ∨
    contentType t.tag = .parameterizedContent ∧ MeetsForeign t.tag t.value

/-- What becomes of a record in the list of commands. -/
def Parses (t : Tlv) : Option R2CPCommand → Prop
  | some command => Kept t command
  | none => Dropped t

/-- The record ends the parsing of the whole packet. -/
def Stuck (t : Tlv) : Prop :=
  contentType t.tag = .parameterizedContent ∧ Overruns t.tag t.value

/-- An accepted record has a result, unless it overruns. -/
theorem parses_or_stuck {t : Tlv} (hacc : ContentAccepted t) (hlt : t.value.length + 8 < 2 ^ 32) :
    (∃ r, Parses t r) ∨ Stuck t := by
  by_cases hcode : IsCommandCode t.tag
  swap
  · exact .inl ⟨none, .inl hcode⟩
  unfold ContentAccepted at hacc
  -- by the kind of content that the command has
  cases hkind : contentType t.tag with
  | noContent =>
    rw [hkind] at hacc
    refine .inl ⟨some ⟨t.tag, []⟩, hcode, rfl, ?_, ?_⟩
    · simp only [ConformsToDictionary, hkind]
    · simp only [encodeCommandContent, hkind]
      exact hacc.symm
  | directContent =>
    refine .inl ⟨some ⟨t.tag, [⟨noParameters, t.value⟩]⟩, hcode, rfl, ?_, ?_⟩
    · simp only [ConformsToDictionary, hkind]
      exact ⟨t.value, rfl⟩
    · simp only [encodeCommandContent, hkind, List.flatMap_cons, List.flatMap_nil, List.append_nil]
  | parameterizedContent =>
    rw [hkind] at hacc
    -- one of the three shapes: kept, discarded, or stuck
    rcases parameterized_cases t.tag hlt hacc with ⟨ps, hc, hps⟩ | hforeign | hover
    · refine .inl ⟨some ⟨t.tag, ps⟩, hcode, rfl, ?_, ?_⟩
      · simp only [ConformsToDictionary, hkind]
        exact hps
      · simp only [encodeCommandContent, hkind]
        exact hc.symm
    · exact .inl ⟨none, .inr ⟨hkind, hforeign⟩⟩
    · exact .inr ⟨hkind, hover⟩

/-- The parser makes the parameters of a command out of its content. -/
private theorem parseCommandContent_kept {t : Tlv} {command : R2CPCommand} (h : Kept t command)
    (ht : t.Sized) (s : List UInt32) :
    Yields parsingOffsetStack (parseCommandContent t.tag t.value) s
      (.ok command.commandParameters) s := by
  obtain ⟨-, hcode, hconforms, hvalue⟩ := h
  obtain ⟨code, ps⟩ := command
  obtain rfl : code = t.tag := hcode
  have hkind' : contentType t.tag = getInstance.getCommandContentType t.tag := rfl
  unfold parseCommandContent
  unfold ConformsToDictionary at hconforms
  unfold encodeCommandContent at hvalue
  cases hkind : contentType t.tag with
  | noContent =>
    rw [← hkind', hkind]
    rw [hkind] at hconforms
    obtain rfl : ps = [] := hconforms
    exact .pure _
  | directContent =>
    rw [← hkind', hkind]
    rw [hkind] at hconforms hvalue
    -- direct content is one parameter without a code of its own
    obtain ⟨data, hps⟩ : ∃ data, ps = [⟨noParameters, data⟩] := hconforms
    rw [hps] at hvalue ⊢
    simp only [List.flatMap_cons, List.flatMap_nil, List.append_nil] at hvalue
    rw [hvalue]
    exact .pure _
  | parameterizedContent =>
    rw [← hkind', hkind]
    rw [hkind] at hconforms hvalue
    -- the content is the parameters in bytes, so reading them back gives them
    have hlt : (Tlv.encodeCounted (ps.map R2CPParameter.toTlv)).length < 2 ^ 32 := by
      rw [show Tlv.encodeCounted (ps.map R2CPParameter.toTlv) = t.value from hvalue]
      exact ht
    have hkept := parseParameterizedCommandContent_kept hlt hconforms s
    rw [show Tlv.encodeCounted (ps.map R2CPParameter.toTlv) = t.value from hvalue] at hkept
    exact Yields.tryCatch_ok hkept

/-- A record that is a command gives the command, and nothing is logged. -/
private theorem parseCommand_kept {t : Tlv} {command : R2CPCommand} (h : Kept t command)
    (ht : t.Sized) (s : List UInt32) (log : List LogEntry) :
    Yields stackAndLog (parseCommand t.tag t.value) (s, log) (.ok (some command)) (s, log) := by
  have hcontent := (silent_parseCommandContent _ _).withLog (parseCommandContent_kept h ht s) log
  obtain ⟨-, hcode, -, -⟩ := h
  obtain ⟨code, ps⟩ := command
  obtain rfl : code = t.tag := hcode
  exact Yields.tryCatch_ok (hcontent.bind (.pure _))

/-! ## What is logged for a record -/

/-- For a code that is not one of a command. -/
def invalidCommandEntry (commandCode : UInt32) : LogEntry :=
  .formatted .warning
    "Invalid command code detected: %u. Faulty command parsing has been skipped."
    [.uint32 commandCode]

/-- For a parameter code that its command does not take. -/
def discardedCommandEntry (parameterCode commandCode : UInt32) : LogEntry :=
  .formatted .error
    ("%s. " ++ "Error parsing command content of command code: %u. " ++
      "Faulty command discarded.")
    [.cstring (.text (invalidParameterText parameterCode commandCode)), .uint32 commandCode]

/-- What becomes of a record, and what is logged for it. -/
inductive Reports (t : Tlv) : Option R2CPCommand → List LogEntry → Prop where
  | unknown (hcode : ¬ IsCommandCode t.tag) : Reports t none [invalidCommandEntry t.tag]
  | discarded {p : UInt32} {rest : List UInt8} (hkind : contentType t.tag = .parameterizedContent)
      (hreach : ReachesEntry t.tag t.value (p.toBytesBE ++ rest))
      (hforeign : ¬ IsParameterOf t.tag p) : Reports t none [discardedCommandEntry p t.tag]
  | kept {command : R2CPCommand} (h : Kept t command) : Reports t (some command) []

/-- Each result comes with its entries. -/
theorem Parses.exists_reports {t : Tlv} {r : Option R2CPCommand} (h : Parses t r) :
    ∃ entries, Reports t r entries := by
  cases r with
  | some command => exact ⟨_, .kept h⟩
  | none =>
    rcases h with hcode | ⟨hkind, p, rest, hreach, hforeign⟩
    · exact ⟨_, .unknown hcode⟩
    · exact ⟨_, .discarded hkind hreach hforeign⟩

/-- So do the results of a whole packet. -/
theorem exists_forall₂_reports {ts : List Tlv} {rs : List (Option R2CPCommand)}
    (h : List.Forall₂ Parses ts rs) :
    ∃ reports : List (Option R2CPCommand × List LogEntry),
      List.Forall₂ (fun t r => Reports t r.1 r.2) ts reports ∧ reports.map Prod.fst = rs := by
  induction h with
  | nil => exact ⟨[], .nil, rfl⟩
  | @cons t r ts rs ht _ ih =>
    obtain ⟨entries, hreports⟩ := ht.exists_reports
    obtain ⟨reports, hall, hfst⟩ := ih
    exact ⟨(r, entries) :: reports, .cons hreports hall, by rw [List.map_cons, hfst]⟩

/-- The exception for a foreign parameter code is caught, logged, and the record is discarded. -/
private theorem parseCommand_discarded {t : Tlv} {p : UInt32} {rest : List UInt8}
    (hkind : contentType t.tag = .parameterizedContent)
    (hreach : ReachesEntry t.tag t.value (p.toBytesBE ++ rest)) (hforeign : ¬ IsParameterOf t.tag p)
    (ht : t.Sized) (s : List UInt32) (log : List LogEntry) :
    Yields stackAndLog (parseCommand t.tag t.value) (s, log) (.ok none)
      (s, log ++ [discardedCommandEntry p t.tag]) := by
  have hthrow := (silent_parseParameterizedCommandContent _ _).withLog
    (parseParameterizedCommandContent_foreignCode hreach hforeign ht s) log
  have hcontent : Yields stackAndLog (parseCommandContent t.tag t.value) (s, log)
      (.error (.invalidArgument (.text (invalidParameterText p t.tag)))) (s, log) := by
    unfold parseCommandContent
    rw [show getInstance.getCommandContentType t.tag = .parameterizedContent from hkind]
    exact Yields.tryCatch_error hthrow (.throw _)
  exact Yields.tryCatch_error hcontent.bind_error ((writeLog_withLog _ log).bind (.pure none))

/-- `std::out_of_range` passes both handlers for `std::invalid_argument`. -/
private theorem parseCommand_stuck {t : Tlv} (h : Stuck t) (ht : t.Sized) (s : List UInt32) :
    ∃ what s', ∀ log, Yields stackAndLog (parseCommand t.tag t.value) (s, log)
      (.error (.outOfRange what)) (s', log) := by
  obtain ⟨hkind, hover⟩ := h
  obtain ⟨what, s', hthrow⟩ := parseParameterizedCommandContent_overruns hover ht s
  refine ⟨what, s', fun log => ?_⟩
  have hcontent : Yields stackAndLog (parseCommandContent t.tag t.value) (s, log)
      (.error (.outOfRange what)) (s', log) := by
    unfold parseCommandContent
    rw [show getInstance.getCommandContentType t.tag = .parameterizedContent from hkind]
    exact Yields.tryCatch_error
      ((silent_parseParameterizedCommandContent _ _).withLog hthrow log) (.throw _)
  exact Yields.tryCatch_error hcontent.bind_error (.throw _)

/-! ## The loop over the commands -/

section Commands

variable {b rest : List UInt8} {o : UInt32}

/-- One round reads one record, whatever becomes of it, and goes on behind it. -/
private theorem parseCommandLoop_round {t : Tlv} {r : Option R2CPCommand} {entries : List LogEntry}
    (h : Reports t r entries) (ht : t.Sized) (hat : StandsBefore b o (t.encode ++ rest)) :
    ∃ o', StandsBefore b o' rest ∧ ∀ acc k s log r' v',
      Yields stackAndLog (parseCommandLoop b k (acc ++ r.toList)) (o' :: s, log ++ entries) r' v' →
      Yields stackAndLog (parseCommandLoop b (k + 1) acc) (o :: s, log) r' v' := by
  have hentry := hat.readsEntry ht
  refine ⟨_, hentry.next, fun acc k s log r' v' hrest => ?_⟩
  apply ((logging_readR2CPPacketAsUInt32 b).withLog (hentry.tag s) log).bind
  apply ((logging_readR2CPPacketAsUInt32 b).withLog (hentry.size s) log).bind
  have hvalue := (logging_readBytesFromR2CPPacket b _).withLog (hentry.value s) log
  cases h with
  | unknown hcode =>
    -- not a command: its content is skipped
    rw [Option.toList_none, List.append_nil] at hrest
    rw [if_pos (Bool.eq_false_iff.mpr hcode)]
    exact ((logging_skipBytesFromR2CPPacket _).withLog (skipBytesFromR2CPPacket_yields _) log).bind
      ((writeLog_withLog _ log).bind hrest)
  | discarded hkind hreach hforeign =>
    -- a discarded record leaves the offset behind its content, like any other
    have hcode : IsCommandCode t.tag := isCommandCode_of_contentType (by rw [hkind]; exact nofun)
    rw [if_neg (fun hno => Bool.eq_false_iff.mp hno hcode)]
    exact hvalue.bind ((parseCommand_discarded hkind hreach hforeign ht _ log).bind hrest)
  | kept hkept =>
    rw [List.append_nil] at hrest
    rw [if_neg (fun hno => Bool.eq_false_iff.mp hno hkept.1)]
    exact hvalue.bind ((parseCommand_kept hkept ht _ log).bind hrest)

/-- The rounds over records with reports collect the results that are there, and the
    entries. -/
theorem parseCommandLoop_reports {ts : List Tlv} {rs : List (Option R2CPCommand × List LogEntry)}
    (h : List.Forall₂ (fun t r => Reports t r.1 r.2) ts rs) (hts : ∀ t ∈ ts, t.Sized)
    (hat : StandsBefore b o (Tlv.encodeAll ts ++ rest)) (acc : List R2CPCommand) (k : Nat) :
    ∃ o', StandsBefore b o' rest ∧ ∀ s log r' v',
      Yields stackAndLog (parseCommandLoop b k (acc ++ (rs.map Prod.fst).reduceOption))
        (o' :: s, log ++ rs.flatMap Prod.snd) r' v' →
      Yields stackAndLog (parseCommandLoop b (ts.length + k) acc) (o :: s, log) r' v' := by
  induction h generalizing o acc with
  | nil =>
    refine ⟨o, hat, fun s log r' v' hrest => ?_⟩
    rw [List.length_nil, Nat.zero_add]
    simpa using hrest
  | @cons t r ts rs ht _ ih =>
    rw [Tlv.encodeAll_cons, List.append_assoc] at hat
    obtain ⟨o₁, ho₁, hround⟩ := parseCommandLoop_round ht (hts t (by simp)) hat
    obtain ⟨o₂, ho₂, hloop⟩ := ih (fun u hu => hts u (by simp [hu])) ho₁ (acc ++ r.1.toList)
    refine ⟨o₂, ho₂, fun s log r' v' hrest => ?_⟩
    rw [List.length_cons, Nat.add_right_comm]
    apply hround
    apply hloop
    obtain ⟨result, entries⟩ := r
    rw [List.map_cons, List.flatMap_cons] at hrest
    -- the result and the entries of this record come before those of the others
    cases result with
    | none =>
      rw [List.reduceOption_cons_of_none] at hrest
      rwa [Option.toList_none, List.append_nil, List.append_assoc]
    | some command =>
      rw [List.reduceOption_cons_of_some] at hrest
      rwa [Option.toList_some, List.append_assoc, List.append_assoc]

/-- The same for the stack alone. -/
private theorem parseCommandLoop_parses {ts : List Tlv} {rs : List (Option R2CPCommand)}
    (h : List.Forall₂ Parses ts rs) (hts : ∀ t ∈ ts, t.Sized)
    (hat : StandsBefore b o (Tlv.encodeAll ts ++ rest)) (acc : List R2CPCommand) (k : Nat) :
    ∃ o', StandsBefore b o' rest ∧ ∀ s r' s',
      Yields parsingOffsetStack (parseCommandLoop b k (acc ++ rs.reduceOption)) (o' :: s) r' s' →
      Yields parsingOffsetStack (parseCommandLoop b (ts.length + k) acc) (o :: s) r' s' := by
  obtain ⟨reports, hreports, rfl⟩ := exists_forall₂_reports h
  obtain ⟨o', ho', hloop⟩ := parseCommandLoop_reports hreports hts hat acc k
  refine ⟨o', ho', fun s r' s' hrest => yields_of_withLog fun log => ?_⟩
  obtain ⟨log', hrest'⟩ := exists_withLog hrest (log ++ reports.flatMap Prod.snd)
  exact ⟨log', hloop s log r' _ hrest'⟩

/-- A record that overruns ends the loop, wherever it is. -/
theorem parseCommandLoop_stuck {t : Tlv} (h : Stuck t) (ht : t.Sized)
    (hat : StandsBefore b o (t.encode ++ rest)) (acc : List R2CPCommand) (k : Nat)
    (s : List UInt32) :
    ∃ what s', ∀ log, Yields stackAndLog (parseCommandLoop b (k + 1) acc) (o :: s, log)
      (.error (.outOfRange what)) (s', log) := by
  have hentry := hat.readsEntry ht
  -- only a command has content that could overrun
  have hcode : IsCommandCode t.tag := isCommandCode_of_contentType (by rw [h.1]; exact nofun)
  obtain ⟨what, s', hthrow⟩ := parseCommand_stuck h ht
    ((o + 4 + 4 + UInt32.ofNat t.value.length) :: s)
  refine ⟨what, s', fun log => ?_⟩
  apply ((logging_readR2CPPacketAsUInt32 b).withLog (hentry.tag s) log).bind
  apply ((logging_readR2CPPacketAsUInt32 b).withLog (hentry.size s) log).bind
  rw [if_neg (fun hno => Bool.eq_false_iff.mp hno hcode)]
  exact ((logging_readBytesFromR2CPPacket b _).withLog (hentry.value s) log).bind
    (hthrow log).bind_error

end Commands

/-! ## Packets -/

/-- An accepted packet in which the parsing of some record runs past the end of its
    content. -/
def OverrunsInside (b : List UInt8) : Prop :=
  ∃ magicNumber ts, IsMagicNumber magicNumber ∧
    b = encodePacket magicNumber (Tlv.encodeCounted ts) ∧ (∀ t ∈ ts, ContentAccepted t) ∧
    ∃ t ∈ ts, Stuck t

/-- The commands of an accepted packet: the results that are there, in the order of the
    records. -/
def CommandsOf (b : List UInt8) (commands : List R2CPCommand) : Prop :=
  ∃ magicNumber ts rs, IsMagicNumber magicNumber ∧
    b = encodePacket magicNumber (Tlv.encodeCounted ts) ∧ (∀ t ∈ ts, ContentAccepted t) ∧
    List.Forall₂ Parses ts rs ∧ commands = rs.reduceOption

/-- A packet with commands is one that the validator accepts. -/
theorem CommandsOf.accepted {b : List UInt8} {commands : List R2CPCommand}
    (h : CommandsOf b commands) : PacketAccepted b := by
  obtain ⟨magicNumber, ts, rs, hm, hb, hacc, -, -⟩ := h
  exact ⟨magicNumber, _, hm, hb, .inr ⟨ts, rfl, hacc⟩⟩

section Packets

variable {b : List UInt8}

/-- The validator says yes to what is accepted, -/
theorem validateR2CPPacket_accepts (h : PacketAccepted (visible b)) (s : List UInt32) :
    Yields parsingOffsetStack (validateR2CPPacket b) s (.ok true) [] := by
  obtain ⟨r, hy, hiff⟩ := validateR2CPPacket_decides b s
  rwa [hiff.mpr h] at hy

/-- and no to anything else. -/
theorem validateR2CPPacket_rejects (h : ¬ PacketAccepted (visible b)) (s : List UInt32) :
    Yields parsingOffsetStack (validateR2CPPacket b) s (.ok false) [] := by
  obtain ⟨r, hy, hiff⟩ := validateR2CPPacket_decides b s
  rwa [Bool.eq_false_iff.mpr (fun hr => h (hiff.mp hr))] at hy

/-- Then the parser throws without reading. -/
theorem parseR2CPPacket_rejected (h : ¬ PacketAccepted (visible b)) (s : List UInt32) :
    Yields parsingOffsetStack (parseR2CPPacket b) s (.error parsingFailed) [] :=
  (validateR2CPPacket_rejects h s).bind (.throw _)

/-- A header without a count word is accepted. -/
theorem packetAccepted_of_isEmptyPacket {b : List UInt8} (h : IsEmptyPacket b) :
    PacketAccepted b := by
  obtain ⟨magicNumber, hm, hb⟩ := h
  exact ⟨magicNumber, [], hm, hb, .inl rfl⟩

/-- The header-only packet has no count word to read. -/
theorem readCountWord_refused (h : IsEmptyPacket (visible b)) :
    Yields parsingOffsetStack (readR2CPPacketAsUInt32 b) [8] (.error noBytesLeft) [8] := by
  have hlen : (visible b).length = 8 := by
    obtain ⟨magicNumber, -, hb⟩ := h
    rw [hb, length_encodePacket, List.length_nil]
  exact readR2CPPacketAsUInt32_refused (by rw [hlen]; decide) (by decide)

/-- So it is accepted, and the parser throws. -/
theorem parseR2CPPacket_empty (h : IsEmptyPacket (visible b)) (s : List UInt32) :
    Yields parsingOffsetStack (parseR2CPPacket b) s (.error noBytesLeft) [8] :=
  (validateR2CPPacket_accepts (packetAccepted_of_isEmptyPacket h) s).bind (pushOffset_yields.bind
    ((skipBytesFromR2CPPacket_yields minR2CPPacketSize).bind (readCountWord_refused h).bind_error))

/-- Where the loop over the commands starts. -/
theorem standsBefore_records {magicNumber : UInt32} {ts : List Tlv}
    (hb : visible b = encodePacket magicNumber (Tlv.encodeCounted ts)) :
    StandsBefore b 8 ((UInt32.ofNat ts.length).toBytesBE ++ (Tlv.encodeAll ts ++ [])) ∧
      (UInt32.ofNat ts.length).toNat = ts.length ∧
      ∀ t ∈ ts, t.value.length + 8 < 2 ^ 32 := by
  have hlt := length_visible_lt b
  have hlen : (Tlv.encodeAll ts).length + 12 < 2 ^ 32 := by
    rw [hb, length_encodePacket, Tlv.encodeCounted, List.length_append,
      UInt32.length_toBytesBE] at hlt
    omega
  refine ⟨?_, UInt32.toNat_ofNat_length (Tlv.length_lt_of_length_encodeAll (by omega)), ?_⟩
  · have h0 := StandsBefore.start b
    rw [hb, encodePacket, List.append_assoc] at h0
    have h8 := (h0.advance (n := 4) rfl).advance (n := 4) rfl
    rwa [Tlv.encodeCounted, ← List.append_nil (Tlv.encodeAll ts)] at h8
  · intro t ht
    have := Tlv.length_encode_le_of_mem ht
    rw [Tlv.length_encode] at this
    omega

/-- A packet with commands parses to them. -/
theorem parseR2CPPacket_parsed {commands : List R2CPCommand} (h : CommandsOf (visible b) commands)
    (s : List UInt32) :
    Yields parsingOffsetStack (parseR2CPPacket b) s (.ok commands) [] := by
  have haccepted := validateR2CPPacket_accepts h.accepted s
  obtain ⟨magicNumber, ts, rs, hm, hb, hacc, hrs, rfl⟩ := h
  obtain ⟨hat, hcount, hlen⟩ := standsBefore_records hb
  have hsized : ∀ t ∈ ts, t.Sized := by
    intro t ht
    have := hlen t ht
    show t.value.length < 2 ^ 32
    omega
  -- no round is left behind the last record
  obtain ⟨o', -, hloop⟩ := parseCommandLoop_parses hrs hsized (hat.advance (n := 4) rfl) [] 0
  have hwalk := hloop [] _ _ (Yields.pure _)
  rw [Nat.add_zero, ← hcount, List.nil_append] at hwalk
  exact haccepted.bind
    (pushOffset_yields.bind ((skipBytesFromR2CPPacket_yields minR2CPPacketSize).bind
      ((readR2CPPacketAsUInt32_yields hat).bind
        (hwalk.bind (clearOffsets_yields.bind (.pure _))))))

/-- Records that are accepted and not stuck have results. -/
theorem exists_parses {ts : List Tlv} (hacc : ∀ t ∈ ts, ContentAccepted t)
    (hlen : ∀ t ∈ ts, t.value.length + 8 < 2 ^ 32) (hno : ∀ t ∈ ts, ¬ Stuck t) :
    ∃ rs, List.Forall₂ Parses ts rs :=
  List.exists_forall₂ fun t ht =>
    (parses_or_stuck (hacc t ht) (hlen t ht)).resolve_right (hno t ht)

/-- The first record that overruns ends the parsing with `std::out_of_range`. -/
theorem parseR2CPPacket_overruns (h : OverrunsInside (visible b)) (s : List UInt32) :
    ∃ what s', Yields parsingOffsetStack (parseR2CPPacket b) s (.error (.outOfRange what)) s' := by
  obtain ⟨magicNumber, ts, hm, hb, hacc, hstuck⟩ := h
  obtain ⟨hat, hcount, hlen⟩ := standsBefore_records hb
  -- up to the first record that overruns all have results
  obtain ⟨before, t, after, rfl, hbefore, ht⟩ :=
    List.exists_first_not (P := fun t => ¬ Stuck t) (fun hno => by
      obtain ⟨t, ht, hs⟩ := hstuck
      exact hno t ht hs)
  have hsized : ∀ u ∈ before ++ t :: after, u.Sized := by
    intro u hu
    have := hlen u hu
    show u.value.length < 2 ^ 32
    omega
  obtain ⟨rs, hrs⟩ := exists_parses (fun u hu => hacc u (by simp [hu]))
    (fun u hu => hlen u (by simp [hu])) hbefore
  have hat' := hat.advance (n := 4) rfl
  rw [Tlv.encodeAll_append, Tlv.encodeAll_cons, List.append_assoc, List.append_assoc] at hat'
  obtain ⟨o', ho', hloop⟩ := parseCommandLoop_parses hrs (fun u hu => hsized u (by simp [hu])) hat'
    [] (after.length + 1)
  -- and there the loop throws, with the rounds for the records behind it still to go
  obtain ⟨what, s', hthrow⟩ := parseCommandLoop_stuck (not_not.mp ht) (hsized t (by simp)) ho'
    ([] ++ rs.reduceOption) after.length []
  have hwalk := hloop [] _ _ (yields_of_withLog fun log => ⟨log, hthrow log⟩)
  rw [show before.length + (after.length + 1) = (before ++ t :: after).length by
    rw [List.length_append, List.length_cons], ← hcount] at hwalk
  exact ⟨what, s', (validateR2CPPacket_accepts ⟨_, _, hm, hb, .inr ⟨_, rfl, hacc⟩⟩ s).bind
    (pushOffset_yields.bind ((skipBytesFromR2CPPacket_yields minR2CPPacketSize).bind
      ((readR2CPPacketAsUInt32_yields hat).bind hwalk.bind_error)))⟩

/-- What is accepted, has a count word and does not overrun has commands. -/
theorem exists_commandsOf (hacc : PacketAccepted (visible b)) (hne : ¬ IsEmptyPacket (visible b))
    (hno : ¬ OverrunsInside (visible b)) : ∃ commands, CommandsOf (visible b) commands := by
  obtain ⟨magicNumber, payload, hm, hb, hpayload⟩ := hacc
  rcases hpayload with rfl | ⟨ts, rfl, hts⟩
  · exact absurd ⟨magicNumber, hm, hb⟩ hne
  -- a record without a result would be one that overruns
  obtain ⟨-, -, hlen⟩ := standsBefore_records hb
  obtain ⟨rs, hrs⟩ := exists_parses hts hlen
    (fun t ht hs => hno ⟨magicNumber, ts, hm, hb, hts, t, ht, hs⟩)
  exact ⟨_, magicNumber, ts, rs, hm, hb, hts, hrs, rfl⟩

end Packets

end R2CP.R2CPParser
