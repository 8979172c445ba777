import R2CP.Spec.LogFormat
import R2CP.Spec.ParserCorrect

/-!
# What the parser logs

Every entry is formatted into a buffer that has room for its numbers and for the
texts of the readers. The one text that is made up of fields of the packet itself is
that of a discarded command: it names the parameter code and the command code.
`fits_discardedCommandEntry_iff` counts its digits, and `logsFit_iff` says for which
packets everything fits.

## Key results

- `logsFit_iff`: for which packets every entry fits its buffer
- `fits_discardedCommandEntry_iff`: for which two codes the entry of a discarded command fits
-/

namespace R2CP.R2CPParser

open StatefulExcept (exec Yields)
open Spec
open R2CPCommandDictionary (getInstance)

/-! ## Entries that fit -/

/-- Numbers print no more than ten digits each, and `sizeof` counts four bytes. -/
private theorem numbers_printedLength_argumentsSize {arguments : List LogArgument}
    (hnumbers : ∀ argument ∈ arguments, ∃ v, argument = .uint32 v) :
    (arguments.map LogArgument.printedLength).sum ≤ 10 * arguments.length ∧
      argumentsSize arguments = 4 * arguments.length := by
  induction arguments with
  | nil => exact ⟨Nat.zero_le _, rfl⟩
  | cons argument arguments ih =>
    obtain ⟨hprinted, hsize⟩ := ih fun a ha => hnumbers a (by simp [ha])
    obtain ⟨v, rfl⟩ := hnumbers argument (by simp)
    have h10 := LogArgument.printedLength_uint32_le v
    have h4 : (LogArgument.uint32 v).size.toNat = 4 := rfl
    rw [argumentsSize] at hsize ⊢
    simp only [List.map_cons, List.sum_cons, List.length_cons, h4]
    omega

/-- A format with `n` conversions and `len` characters. -/
def FormatHas (format : String) (n len : Nat) : Prop :=
  conversions format.toList = n ∧ format.toList.length = len

/-- A format that is a literal, by its characters, -/
private theorem formatHas_literal {cs : List Char} {n len : Nat} (hn : conversions cs = n)
    (hlen : cs.length = len) : FormatHas (String.ofList cs) n len := by
  rw [FormatHas, String.toList_ofList]
  exact ⟨hn, hlen⟩

/-- or one of two literals, -/
private theorem formatHas_append {cs ds : List Char} {n len : Nat} (hn : conversions (cs ++ ds) = n)
    (hlen : (cs ++ ds).length = len) : FormatHas (String.ofList cs ++ String.ofList ds) n len := by
  rw [← String.ofList_append]
  exact formatHas_literal hn hlen

/-- or of three. -/
private theorem formatHas_append₃ {cs ds es : List Char} {n len : Nat}
    (hn : conversions (cs ++ ds ++ es) = n) (hlen : (cs ++ ds ++ es).length = len) :
    FormatHas (String.ofList cs ++ String.ofList ds ++ String.ofList es) n len := by
  rw [← String.ofList_append, ← String.ofList_append]
  exact formatHas_literal hn hlen

/-- An entry with `n` numbers only fits. -/
private theorem fits_numbers {format : String} {arguments : List LogArgument}
    (severity : LogSeverity)
    (n len : Nat) (hformat : FormatHas format n len) (hcount : arguments.length = n)
    (hnumbers : ∀ argument ∈ arguments, ∃ v, argument = .uint32 v)
    (hlen : 0 < len ∧ len + n < 2 ^ 16) : (LogEntry.formatted severity format arguments).Fits := by
  obtain ⟨hprinted, hsize⟩ := numbers_printedLength_argumentsSize hnumbers
  obtain ⟨hconversions, hlength⟩ := hformat
  apply PrintsWithin.fitsBuffer
  · rw [PrintsWithin, hsize]
    omega
  · rw [hcount]
    exact hconversions
  · rw [hsize]
    omega

/-- The text of an exception that a reader throws. -/
def ReaderText (what : What) : Prop :=
  what = .text "R2CP packet has no more bytes left to read." ∨ ∃ i n, what = .rangeCheck i n

/-- An entry with the text of a reader's exception fits. -/
private theorem fits_readerText {format : String} {what : What} (severity : LogSeverity) (len : Nat)
    (hformat : FormatHas format 1 len) (hlen : 32 ≤ len ∧ len < 2 ^ 16) (hwhat : ReaderText what) :
    (LogEntry.formatted severity format [.cstring what]).Fits := by
  obtain ⟨hconversions, hlength⟩ := hformat
  have hsize : argumentsSize [.cstring what] = 8 := rfl
  have hprinted : (LogArgument.cstring what).printedLength ≤ 43 := by
    cases hwhat with
    | inl htext =>
      rw [htext]
      show "R2CP packet has no more bytes left to read.".toList.length ≤ 43
      rw [String.toList_ofList]
      exact Nat.le_refl _
    | inr hlibrary =>
      obtain ⟨i, n, hlibrary⟩ := hlibrary
      rw [hlibrary]
      exact Nat.zero_le _
  apply PrintsWithin.fitsBuffer
  · rw [PrintsWithin, hsize]
    simp only [List.map_cons, List.map_nil, List.sum_cons, List.sum_nil, List.length_cons,
      List.length_nil]
    omega
  · exact hconversions
  · rw [hsize]
    omega

/-- A handler for `std::out_of_range` gets the text of a reader's exception. -/
private theorem logging_onOutOfRange {α : Type} {P : LogEntry → Prop} {handler : What → Parser α}
    (h : ∀ what, ReaderText what → Logging P ReaderError (handler what)) :
    ∀ e, ReaderError e → Logging P ReaderError (StdException.onOutOfRange handler e) := by
  intro e he
  rcases he with rfl | ⟨i, n, rfl⟩ | rfl
  · exact h _ (.inl rfl)
  · exact h _ (.inr ⟨i, n, rfl⟩)
  · exact .throw (.inr (.inr rfl))

/-! ## The validator -/

/-- The text of a reader, behind a text of the validator. -/
private theorem logging_logInvalidParameterizedContent {what : What} (h : ReaderText what) :
    Logging LogEntry.Fits ReaderError (logInvalidParameterizedContent what) :=
  .writeLog (fits_readerText .error 80 (formatHas_literal rfl rfl) (by decide) h)

/-- Its handler logs what a reader threw. -/
private theorem logging_validateParameter (c : List UInt8) :
    Logging LogEntry.Fits ReaderError (validateParameter c) := by
  refine .tryCatch (E := ReaderError) ?_ (logging_onOutOfRange fun what hwhat => ?_)
  · refine .bind (logging_skipBytesFromR2CPPacket 4) fun _ => ?_
    refine .bind (logging_readR2CPPacketAsUInt32 c) fun size => ?_
    exact .bind (logging_skipBytesFromR2CPPacket size) fun _ => .pure true
  · exact .bind (logging_logInvalidParameterizedContent hwhat) fun _ => .pure false

/-- The loop adds nothing to it. -/
private theorem logging_validateParameterLoop (c : List UInt8) (rounds : Nat) :
    Logging LogEntry.Fits ReaderError (validateParameterLoop c rounds) := by
  induction rounds with
  | zero => exact .pure true
  | succ rounds ih => exact .bind (logging_validateParameter c) fun _ => .ite ih (.pure false)

/-- The count has a handler of its own. -/
private theorem logging_readParametersCount? (c : List UInt8) :
    Logging LogEntry.Fits ReaderError (readParametersCount? c) := by
  refine .tryCatch (E := ReaderError) ?_ (logging_onOutOfRange fun what hwhat => ?_)
  · exact .bind (logging_readR2CPPacketAsUInt32 c) fun count => .pure (some count)
  · exact .bind (logging_logInvalidParameterizedContent hwhat) fun _ => .pure none

/-- The end of the content is not logged. -/
private theorem logging_validateParameterizedCommandContent (c : List UInt8) :
    Logging LogEntry.Fits ReaderError (validateParameterizedCommandContent c) := by
  refine .bind (logging_pushOffset 0) fun _ => ?_
  refine .bind (logging_readParametersCount? c) fun count? => ?_
  have hend (isEndReached : Bool) : Logging LogEntry.Fits ReaderError
      (do popOffset; pure isEndReached) :=
    .bind logging_popOffset fun _ => .pure isEndReached
  have hvalid (isValid : Bool) : Logging LogEntry.Fits ReaderError
      (if isValid then do
        let isEndReached ← checkIfR2CPPacketEndIsReached c
        popOffset
        pure isEndReached
      else do
        let isEndReached ← pure false
        popOffset
        pure isEndReached) :=
    .ite (.bind (logging_checkIfR2CPPacketEndIsReached c) hend) (.bind (.pure false) hend)
  cases count? with
  | some count => exact .bind (logging_validateParameterLoop c count.toNat) hvalid
  | none => exact .bind (.pure false) hvalid

/-- Only parameterized content is looked at. -/
private theorem logging_validateCommandContent (code : UInt32) (c : List UInt8) :
    Logging LogEntry.Fits ReaderError (validateCommandContent code c) := by
  unfold validateCommandContent
  cases getInstance.getCommandContentType code with
  | parameterizedContent => exact logging_validateParameterizedCommandContent c
  | noContent => exact .pure _
  | directContent => exact .pure true

/-- Here the readers are not caught. -/
private theorem logging_validateCommandLoop (b : List UInt8) (rounds : Nat) :
    Logging LogEntry.Fits ReaderError (validateCommandLoop b rounds) := by
  induction rounds with
  | zero => exact .pure true
  | succ rounds ih =>
    refine .bind (logging_readR2CPPacketAsUInt32 b) fun code => ?_
    refine .bind (logging_readR2CPPacketAsUInt32 b) fun size => ?_
    refine .bind (logging_readBytesFromR2CPPacket b size) fun content => ?_
    exact .bind (logging_validateCommandContent code content) fun _ => .ite ih (.pure false)

/-- But here they are. -/
private theorem logging_validateCommandsFromR2CPPacket (b : List UInt8) :
    Logging LogEntry.Fits ReaderError (validateCommandsFromR2CPPacket b) := by
  refine .bind (logging_pushOffset 0) fun _ => .bind ?_ fun isValid =>
    .bind logging_popOffset fun _ => .pure isValid
  refine .tryCatch (E := ReaderError) ?_ (logging_onOutOfRange fun what hwhat => ?_)
  · refine .bind (logging_readR2CPPacketAsUInt32 b) fun count => ?_
    refine .bind (logging_validateCommandLoop b count.toNat) fun _ => ?_
    exact .ite (logging_checkIfR2CPPacketEndIsReached b) (.pure false)
  · exact .bind
      (.writeLog (fits_readerText .error 100 (formatHas_append rfl rfl) (by decide) hwhat))
      fun _ => .pure false

/-- A size that does not match is logged as two numbers. -/
private theorem logging_validatePacketSize (b : List UInt8) :
    Logging LogEntry.Fits ReaderError (validatePacketSize b) := by
  refine .bind (logging_readR2CPPacketAsUInt32 b) fun size => .ite (.ite (.pure true) ?_) ?_
  · exact .bind (logging_readBytesFromR2CPPacket b size) fun commands =>
      logging_validateCommandsFromR2CPPacket commands
  · exact .bind (.writeLog (fits_numbers .error 2 172 (formatHas_append₃ rfl rfl) rfl (by simp)
      (by decide))) fun _ => .pure false

/-- Everything that the validator logs fits. -/
private theorem logging_validateR2CPPacket (b : List UInt8) :
    Logging LogEntry.Fits ReaderError (validateR2CPPacket b) := by
  refine .bind (logging_pushOffset 0) fun _ => .bind ?_ fun isValid =>
    .bind logging_clearOffsets fun _ => .pure isValid
  refine .ite (.bind (logging_readR2CPPacketAsUInt32 b) fun magic => .ite ?_ ?_) ?_
  · exact logging_validatePacketSize b
  · exact .bind (.writeLog (fits_numbers .error 3 99 (formatHas_append₃ rfl rfl) rfl (by simp)
      (by decide))) fun _ => .pure false
  · exact .bind (.writeLog (fits_numbers .error 1 93 (formatHas_append rfl rfl) rfl (by simp)
      (by decide))) fun _ => .pure false

/-! ## The entries of records -/

/-- One code has room. -/
private theorem fits_invalidCommandEntry (code : UInt32) : (invalidCommandEntry code).Fits :=
  fits_numbers .warning 1 75 (formatHas_literal rfl rfl) rfl (by simp) (by decide)

/-- The characters of a number are its digits. -/
private theorem length_toList_toString (v : UInt32) :
    (toString v.toNat).toList.length = (Nat.toDigits 10 v.toNat).length := by
  rw [Nat.toString_eq_ofList_toDigits, String.toList_ofList]

/-- The codes of commands have one digit. -/
private theorem length_toDigits_of_isCommandCode {code : UInt32} (hcode : IsCommandCode code) :
    (Nat.toDigits 10 code.toNat).length = 1 := by
  simp only [IsCommandCode, R2CPCommandDictionary.checkIfValidCommand, Bool.and_eq_true] at hcode
  have hle := (R2CPCommandDictionary.contains_commandsSet code).mp hcode.2
  have hpos := Nat.length_toDigits_pos (b := 10) (n := code.toNat)
  have h1 := (Nat.length_toDigits_le_iff (b := 10) (k := 1) (n := code.toNat) (by decide)
    (by decide)).mpr (by omega)
  omega

/-- The text is as long as the digits of both codes and 100 other characters. -/
private theorem length_invalidParameterText (p : UInt32) {code : UInt32}
    (hcode : IsCommandCode code) :
    (invalidParameterText p code).toList.length = (Nat.toDigits 10 p.toNat).length + 101 := by
  have hliterals : "Error while parsing parameterized command content. ".toList.length +
      "Parameter code ".toList.length + " is not defined for command code ".toList.length +
      ".".toList.length = 100 := by
    rw [String.toList_ofList, String.toList_ofList, String.toList_ofList, String.toList_ofList]
    rfl
  unfold invalidParameterText
  rw [String.toList_append, String.toList_append, String.toList_append, String.toList_append,
    String.toList_append, List.length_append, List.length_append, List.length_append,
    List.length_append, List.length_append, length_toList_toString, length_toList_toString,
    length_toDigits_of_isCommandCode hcode]
  omega

/-- The entry for a discarded command fits as long as the parameter code has no more than
    five digits. -/
theorem fits_discardedCommandEntry_iff (p : UInt32) {code : UInt32} (hcode : IsCommandCode code) :
    (discardedCommandEntry p code).Fits ↔ p.toNat < 100000 := by
  have hdigits := Nat.length_toDigits_le_iff (b := 10) (k := 5) (n := p.toNat) (by decide)
    (by decide)
  obtain ⟨hconversions, hlength⟩ : FormatHas ("%s. " ++
      "Error parsing command content of command code: %u. " ++
      "Faulty command discarded.") 2 80 := formatHas_append₃ rfl rfl
  have htext : (LogArgument.cstring (.text (invalidParameterText p code))).printedLength =
      (Nat.toDigits 10 p.toNat).length + 101 := length_invalidParameterText p hcode
  have hcode' : (LogArgument.uint32 code).printedLength = 1 := by
    rw [← length_toDigits_of_isCommandCode hcode, ← length_toList_toString]
    rfl
  have hsize : argumentsSize [.cstring (.text (invalidParameterText p code)), .uint32 code] = 12 :=
    rfl
  show FitsBuffer _ _ ↔ _
  rw [fitsBuffer_iff hconversions (by simp [LogArgument.print?])
    (by rw [hlength, hsize]; decide), PrintsWithin, hlength, hsize]
  simp only [List.map_cons, List.map_nil, List.sum_cons, List.sum_nil, List.length_cons,
    List.length_nil, htext, hcode']
  omega

/-! ## Packets -/

/-- Everything that `parseR2CPPacket` logs from state `s` on fits. -/
def LogsFit (b : List UInt8) (s : R2CPParser) : Prop :=
  ∃ logged, (exec (parseR2CPPacket b) s).2.log = s.log ++ logged ∧ ∀ entry ∈ logged, entry.Fits

/-- An accepted packet has a record of a parameterized command that is walked to a
    parameter code with more than five digits, which the command does not take. No record
    before it ends the parsing. -/
def DiscardsLargeCode (b : List UInt8) : Prop :=
  ∃ magicNumber before t after p rest, IsMagicNumber magicNumber ∧
    b = encodePacket magicNumber (Tlv.encodeCounted (before ++ t :: after)) ∧
    (∀ u ∈ before ++ t :: after, ContentAccepted u) ∧ (∀ u ∈ before, ¬Stuck u) ∧
    contentType t.tag = .parameterizedContent ∧
    ReachesEntry t.tag t.value (p.toBytesBE ++ rest) ∧ ¬IsParameterOf t.tag p ∧
    100000 ≤ p.toNat

/-- The entries of a record fit, unless they name a large parameter code. -/
private theorem Reports.fits_or_large {t : Tlv} {r : Option R2CPCommand} {entries : List LogEntry}
    (h : Reports t r entries) :
    (∀ entry ∈ entries, entry.Fits) ∨
    contentType t.tag = .parameterizedContent ∧ ∃ p rest,
      ReachesEntry t.tag t.value (p.toBytesBE ++ rest) ∧ ¬IsParameterOf t.tag p ∧
      100000 ≤ p.toNat := by
  cases h with
  | unknown hcode =>
    left
    simpa using fits_invalidCommandEntry t.tag
  | @discarded p rest hkind hreach hforeign =>
    have hcode : IsCommandCode t.tag := isCommandCode_of_contentType (by rw [hkind]; exact nofun)
    by_cases hlarge : 100000 ≤ p.toNat
    · exact .inr ⟨hkind, p, rest, hreach, hforeign, hlarge⟩
    · left
      simpa using (fits_discardedCommandEntry_iff p hcode).mpr (by omega)
  | kept hkept =>
    left
    simp

/-- Up to the first record that ends the parsing. -/
private theorem exists_stuck_split (ts : List Tlv) :
    ∃ before after, ts = before ++ after ∧ (∀ t ∈ before, ¬Stuck t) ∧
      ∀ t ∈ after.head?, Stuck t := by
  by_cases hall : ∀ t ∈ ts, ¬Stuck t
  · exact ⟨ts, [], (List.append_nil ts).symm, hall, by simp⟩
  · obtain ⟨before, t, after, hts, hbefore, ht⟩ := List.exists_first_not hall
    exact ⟨before, t :: after, hts, hbefore, by simpa using ht⟩

section

variable {b : List UInt8}

/-- What the validator logs fits, whatever it decides. -/
private theorem validateR2CPPacket_withLog {r : Bool} {v : List UInt32}
    (h : ∀ s, Yields parsingOffsetStack (validateR2CPPacket b) s (.ok r) v) (s : R2CPParser) :
    ∃ logged, (∀ entry ∈ logged, entry.Fits) ∧
      Yields stackAndLog (validateR2CPPacket b) (stackAndLog s) (.ok r) (v, s.log ++ logged) := by
  obtain ⟨log', hy⟩ := exists_withLog (h s.parsingOffsetStack) s.log
  obtain ⟨logged, hlog, hfits⟩ := (logging_validateR2CPPacket b s).1
  refine ⟨logged, hfits, ?_⟩
  rw [← hlog, show (exec (validateR2CPPacket b) s).2.log = log' from
    congrArg Prod.snd (hy.final rfl)]
  exact hy

/-- A rejected packet is not parsed, so no command of it is logged. -/
private theorem logsFit_of_rejected (h : ¬PacketAccepted (visible b)) (s : R2CPParser) :
    LogsFit b s := by
  obtain ⟨logged, hfits, hy⟩ := validateR2CPPacket_withLog (validateR2CPPacket_rejects h) s
  have hparse : Yields stackAndLog (parseR2CPPacket b) (stackAndLog s) (.error parsingFailed)
      ([], s.log ++ logged) :=
    hy.bind (.throw _)
  exact ⟨logged, congrArg Prod.snd (hparse.final rfl), hfits⟩

/-- An accepted packet is parsed from its count word on. -/
private theorem parseR2CPPacket_accepted (h : PacketAccepted (visible b)) (s : R2CPParser) :
    ∃ logged, (∀ entry ∈ logged, entry.Fits) ∧ ∀ r v,
      Yields stackAndLog
        (do
          let commandsCount ← readR2CPPacketAsUInt32 b
          let commands ← parseCommandLoop b commandsCount.toNat []
          clearOffsets
          pure commands)
        ([8], s.log ++ logged) r v →
      Yields stackAndLog (parseR2CPPacket b) (stackAndLog s) r v := by
  obtain ⟨logged, hfits, hy⟩ := validateR2CPPacket_withLog (validateR2CPPacket_accepts h) s
  refine ⟨logged, hfits, fun r v hrest => hy.bind ?_⟩
  apply ((logging_pushOffset 0).withLog pushOffset_yields _).bind
  exact ((logging_skipBytesFromR2CPPacket minR2CPPacketSize).withLog
    (skipBytesFromR2CPPacket_yields _) _).bind hrest

/-- Nor is there one in the packet without commands. -/
private theorem logsFit_of_isEmptyPacket (h : IsEmptyPacket (visible b)) (s : R2CPParser) :
    LogsFit b s := by
  obtain ⟨logged, hfits, hparse⟩ := parseR2CPPacket_accepted (packetAccepted_of_isEmptyPacket h) s
  have hread := (logging_readR2CPPacketAsUInt32 b).withLog (readCountWord_refused h)
    (s.log ++ logged)
  exact ⟨logged, congrArg Prod.snd ((hparse _ _ hread.bind_error).final rfl), hfits⟩

/-- The parser logs entries of the validator, which fit, and then those of the records, up
    to the first that ends the parsing. -/
private theorem log_parseR2CPPacket {magicNumber : UInt32} {before after : List Tlv}
    {rs : List (Option R2CPCommand × List LogEntry)} (hm : IsMagicNumber magicNumber)
    (hb : visible b = encodePacket magicNumber (Tlv.encodeCounted (before ++ after)))
    (hacc : ∀ t ∈ before ++ after, ContentAccepted t)
    (hrs : List.Forall₂ (fun t r => Reports t r.1 r.2) before rs)
    (hafter : ∀ t ∈ after.head?, Stuck t) (s : R2CPParser) :
    ∃ logged, (∀ entry ∈ logged, entry.Fits) ∧
      (exec (parseR2CPPacket b) s).2.log = s.log ++ (logged ++ rs.flatMap Prod.snd) := by
  obtain ⟨logged, hfits, hparse⟩ :=
    parseR2CPPacket_accepted ⟨magicNumber, _, hm, hb, .inr ⟨_, rfl, hacc⟩⟩ s
  obtain ⟨hat, hcount, hlen⟩ := standsBefore_records hb
  have hsized : ∀ t ∈ before ++ after, t.Sized := by
    intro t ht
    have := hlen t ht
    show t.value.length < 2 ^ 32
    omega
  have hat' := hat.advance (n := 4) rfl
  rw [Tlv.encodeAll_append, List.append_assoc] at hat'
  obtain ⟨o, ho, hloop⟩ := parseCommandLoop_reports hrs (fun t ht => hsized t (by simp [ht])) hat'
    [] after.length
  -- what the loop does behind `before` is not logged
  have hrest : ∃ r v, Yields stackAndLog
      (parseCommandLoop b after.length ([] ++ (rs.map Prod.fst).reduceOption))
      ([o], s.log ++ logged ++ rs.flatMap Prod.snd) r
      (v, s.log ++ logged ++ rs.flatMap Prod.snd) := by
    cases after with
    | nil => exact ⟨_, _, .pure _⟩
    | cons t after =>
      rw [Tlv.encodeAll_cons, List.append_assoc] at ho
      obtain ⟨what, s', hthrow⟩ := parseCommandLoop_stuck (hafter t (by simp))
        (hsized t (by simp)) ho ([] ++ (rs.map Prod.fst).reduceOption) after.length []
      exact ⟨_, _, hthrow _⟩
  obtain ⟨r, v, hrest⟩ := hrest
  -- the loop logs what its records report
  have hwalk := hloop [] (s.log ++ logged) r _ hrest
  rw [← List.length_append, ← hcount] at hwalk
  have hread := (logging_readR2CPPacketAsUInt32 b).withLog
    (readR2CPPacketAsUInt32_yields hat (s := [])) (s.log ++ logged)
  refine ⟨logged, hfits, ?_⟩
  rw [← List.append_assoc]
  cases r with
  -- `clear` and the return log nothing
  | ok commands =>
    have hclear := (logging_clearOffsets (P := fun _ => False)).withLog
      (clearOffsets_yields (s := v)) (s.log ++ logged ++ rs.flatMap Prod.snd)
    exact congrArg Prod.snd
      ((hparse _ _ (hread.bind (hwalk.bind (hclear.bind (.pure _))))).final rfl)
  | error e => exact congrArg Prod.snd ((hparse _ _ (hread.bind hwalk.bind_error)).final rfl)

/-- All entries fit exactly when those of the records do. -/
private theorem logsFit_iff_entries {magicNumber : UInt32} {before after : List Tlv}
    {rs : List (Option R2CPCommand × List LogEntry)} (hm : IsMagicNumber magicNumber)
    (hb : visible b = encodePacket magicNumber (Tlv.encodeCounted (before ++ after)))
    (hacc : ∀ t ∈ before ++ after, ContentAccepted t)
    (hrs : List.Forall₂ (fun t r => Reports t r.1 r.2) before rs)
    (hafter : ∀ t ∈ after.head?, Stuck t) (s : R2CPParser) :
    LogsFit b s ↔ ∀ entry ∈ rs.flatMap Prod.snd, entry.Fits := by
  obtain ⟨logged, hfits, hfinal⟩ := log_parseR2CPPacket hm hb hacc hrs hafter s
  constructor
  · rintro ⟨all, hall, hfit⟩
    rw [hfinal, List.append_cancel_left_eq] at hall
    intro entry hentry
    exact hfit entry (hall ▸ List.mem_append_right _ hentry)
  · intro hentries
    refine ⟨_, hfinal, fun entry hentry => ?_⟩
    cases List.mem_append.mp hentry with
    | inl hvalidator => exact hfits entry hvalidator
    | inr hrecord => exact hentries entry hrecord

end

/-- Records that are accepted and do not end the parsing have reports. -/
theorem exists_reports {ts : List Tlv} (hacc : ∀ t ∈ ts, ContentAccepted t)
    (hlen : ∀ t ∈ ts, t.value.length + 8 < 2 ^ 32) (hno : ∀ t ∈ ts, ¬Stuck t) :
    ∃ rs : List (Option R2CPCommand × List LogEntry),
      List.Forall₂ (fun t r => Reports t r.1 r.2) ts rs := by
  obtain ⟨results, hresults⟩ := exists_parses hacc hlen hno
  obtain ⟨rs, hrs, -⟩ := exists_forall₂_reports hresults
  exact ⟨rs, hrs⟩

/-- A large code that is discarded is among the entries. -/
private theorem not_logsFit_of_discardsLargeCode {b : List UInt8}
    (h : DiscardsLargeCode (visible b))
    (s : R2CPParser) : ¬LogsFit b s := by
  obtain ⟨magicNumber, before, t, after, p, rest, hm, hb, hacc, hbefore, hkind, hreach, hforeign,
    hlarge⟩ := h
  obtain ⟨-, -, hlen⟩ := standsBefore_records hb
  -- the parsing goes on behind `t`, up to the first record that ends it
  obtain ⟨after₁, after₂, rfl, hafter, hstuck⟩ := exists_stuck_split after
  obtain ⟨rs, hrs⟩ := exists_reports (fun u hu => hacc u (by simp [hu]))
    (fun u hu => hlen u (by simp [hu])) hbefore
  obtain ⟨rs', hrs'⟩ := exists_reports (fun u hu => hacc u (by simp [hu]))
    (fun u hu => hlen u (by simp [hu])) hafter
  have hall := List.rel_append hrs (List.Forall₂.cons (b := (none, [_]))
    (Reports.discarded hkind hreach hforeign) hrs')
  rw [← List.cons_append, ← List.append_assoc] at hb hacc
  rw [logsFit_iff_entries hm hb hacc hall hstuck]
  intro hfits
  have hcode : IsCommandCode t.tag := isCommandCode_of_contentType (by rw [hkind]; exact nofun)
  have hsmall := (fits_discardedCommandEntry_iff p hcode).mp (hfits _ (by simp))
  omega

/-- Without one, the entries of all records fit. -/
private theorem logsFit_of_not_discardsLargeCode {b : List UInt8}
    (hacc : PacketAccepted (visible b))
    (h : ¬DiscardsLargeCode (visible b)) (s : R2CPParser) : LogsFit b s := by
  obtain ⟨magicNumber, payload, hm, hb, hpayload⟩ := hacc
  rcases hpayload with rfl | ⟨ts, rfl, hts⟩
  · exact logsFit_of_isEmptyPacket ⟨magicNumber, hm, hb⟩ s
  obtain ⟨-, -, hlen⟩ := standsBefore_records hb
  obtain ⟨before, after, rfl, hbefore, hafter⟩ := exists_stuck_split ts
  obtain ⟨rs, hrs⟩ := exists_reports (fun u hu => hts u (by simp [hu]))
    (fun u hu => hlen u (by simp [hu])) hbefore
  rw [logsFit_iff_entries hm hb hts hrs hafter]
  intro entry hentry
  obtain ⟨r, hr, hmem⟩ := List.mem_flatMap.mp hentry
  obtain ⟨t, ht, hreports⟩ := hrs.exists_of_mem_right hr
  cases hreports.fits_or_large with
  | inl hfits => exact hfits entry hmem
  | inr hlarge =>
    obtain ⟨hkind, p, rest, hreach, hforeign, hlarge⟩ := hlarge
    obtain ⟨before₁, before₂, rfl⟩ := List.append_of_mem ht
    rw [List.append_assoc, List.cons_append] at hb hts
    exact (h ⟨magicNumber, before₁, t, before₂ ++ after, p, rest, hm, hb, hts,
      fun u hu => hbefore u (by simp [hu]), hkind, hreach, hforeign, hlarge⟩).elim

/-- Everything that the parser logs fits, exactly for the packets in which no large
    parameter code is discarded. -/
theorem logsFit_iff (b : List UInt8) (s : R2CPParser) :
    LogsFit b s ↔ ¬DiscardsLargeCode (visible b) := by
  constructor
  · intro hfits hlarge
    exact not_logsFit_of_discardsLargeCode hlarge s hfits
  · intro hno
    by_cases hacc : PacketAccepted (visible b)
    · exact logsFit_of_not_discardsLargeCode hacc hno s
    · exact logsFit_of_rejected hacc s

/-- One `MOTORDUTYCYCLE` record with one empty parameter of code 100000. -/
def largeCodePacket : List UInt8 :=
  encodePacket r2cpMagicNumber (Tlv.encodeCounted
    [⟨motorDutyCycle, Tlv.encodeCounted [⟨100000, []⟩]⟩])

/-- Its entry takes 185 characters of a buffer of 184. -/
theorem largeCodePacket_not_logsFit : ¬LogsFit largeCodePacket new := by
  have hlog : (exec (parseR2CPPacket largeCodePacket) new).2.log =
      [discardedCommandEntry 100000 motorDutyCycle] := by
    decide +kernel
  rintro ⟨logged, hlogged, hfits⟩
  rw [hlog] at hlogged
  have hentry := hfits (discardedCommandEntry 100000 motorDutyCycle)
    (by rw [← show [_] = logged from hlogged]; simp)
  rw [fits_discardedCommandEntry_iff 100000 (by decide +kernel)] at hentry
  exact absurd hentry (by decide)

end R2CP.R2CPParser
