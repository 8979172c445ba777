import R2CP.Native.LoggerObject

/-!
# What the file loggers are given

A file logger is added and removed while the rest of the program logs. Its stream is given
the entries that pass its severity while it is there, all of them and in order: no entry is
left out, given twice or given to a stream that is closed. What the file then has is not
the logger's alone: it depends on the other file loggers of that name.

Texts that are streamed come out as one entry at each newline, and nothing else that is
called in between gets into it.

## Key results

- `delivered_of_calls`: what each file logger is given, for every sequence of calls
- `streamed_of_calls`: what a newline writes, for every sequence of calls
-/

namespace R2CP.Logger

/-! ## Entries -/

/-- The entry that a call writes, with its severity. -/
def entryOf (l : Logger) : ClockReading × LoggerCall → Option (String × UInt8)
  | (clock, .log message severity) => some (entryString clock message severity, severity)
  | (clock, .logStream message) =>
    if message = "\n" then
      some (entryString clock l.messageToLog l.stdoutLogSeverity, l.stdoutLogSeverity)
    else
      none
  | (clock, .removeFileLoggerAt index) =>
    if UInt32.ofNat l.fileLoggers.length > 0 then
      if index < UInt32.ofNat l.fileLoggers.length then
        none
      else
        some (entryString clock (formatText
          "File logger not removed, specified index (%u) out of range [0, %u>."
          [.uint32 index, .uint32 (UInt32.ofNat l.fileLoggers.length)]) LogSeverityType.warning,
          LogSeverityType.warning)
    else
      some (entryString clock
        (formatText "Nothing to remove, no file loggers have been created..." [])
        LogSeverityType.warning, LogSeverityType.warning)
  | (_, .addFileLogger _ _) => none
  | (_, .clearFileLoggers) => none
  | (_, .setStdoutLogSeverity _) => none

/-- The entries of calls, in order. -/
def entriesOf (l : Logger) : List (ClockReading × LoggerCall) → List (String × UInt8)
  | [] => []
  | e :: es => (entryOf l e).toList ++ entriesOf (l.call e) es

/-- The lines of the entries that pass a severity. -/
def passing (logSeverity : UInt8) (entries : List (String × UInt8)) : List String :=
  (entries.filter fun entry => Passes logSeverity entry.2).map Prod.fst

/-- The calls, and then more calls. -/
private theorem callAll_append (l : Logger) (es es' : List (ClockReading × LoggerCall)) :
    l.callAll (es ++ es') = (l.callAll es).callAll es' := by
  simp [callAll]

/-- One call more. -/
private theorem callAll_concat (l : Logger) (es : List (ClockReading × LoggerCall))
    (e : ClockReading × LoggerCall) : l.callAll (es ++ [e]) = (l.callAll es).call e := by
  simp [callAll]

/-- It makes at most one entry more. -/
private theorem entriesOf_concat (l : Logger) (es : List (ClockReading × LoggerCall))
    (e : ClockReading × LoggerCall) :
    entriesOf l (es ++ [e]) = entriesOf l es ++ (entryOf (l.callAll es) e).toList := by
  induction es generalizing l with
  | nil => simp [entriesOf, callAll]
  | cons e' es ih => simp [entriesOf, ih, callAll]

/-- Entries pass one by one. -/
private theorem passing_append (logSeverity : UInt8) (entries entries' : List (String × UInt8)) :
    passing logSeverity (entries ++ entries') =
      passing logSeverity entries ++ passing logSeverity entries' := by
  simp [passing]

/-! ## File loggers -/

/-- A file logger after entries. -/
def record (entries : List (String × UInt8)) (f : FileLogger) : FileLogger :=
  { f with fileLog := f.fileLog ++ passing f.fileLogSeverity entries }

/-- No entry is recorded. -/
@[simp] theorem record_nil (f : FileLogger) : record [] f = f := by
  simp [record, passing]

/-- And so in all file loggers. -/
@[simp] theorem map_record_nil (fileLoggers : List FileLogger) :
    fileLoggers.map (record []) = fileLoggers := by
  simp [funext record_nil]

/-- A line that does not pass is not recorded. -/
private theorem log_eq_record (f : FileLogger) (message : String) (severity : UInt8) :
    f.log message severity = record [(message, severity)] f := by
  by_cases h : Passes f.fileLogSeverity severity
  · simp [FileLogger.log, record, passing, h]
  · simp [FileLogger.log, record, passing, h]

/-- A log entry goes to every file logger that is there. -/
private theorem fileLoggers_log (l : Logger) (clock : ClockReading) (message : String)
    (severity : UInt8) :
    (l.log clock message severity).fileLoggers =
      l.fileLoggers.map (record [(entryString clock message severity, severity)]) := by
  simp [log, log_eq_record]

/-- A call of `addfilelogger`. -/
def addsFileLogger : ClockReading × LoggerCall → Bool
  | (_, .addFileLogger _ _) => true
  | _ => false

/-- A call can add a file logger, delete some, or give an entry to all of them. -/
inductive FileLoggersChange (l : Logger) (e : ClockReading × LoggerCall) : Prop
  | adds (clock : ClockReading) (fileName : String) (severity : UInt8)
    (hcall : e = (clock, .addFileLogger fileName severity))
  | closes (kept gone : List FileLogger) (hcall : addsFileLogger e = false)
    (hentry : entryOf l e = none) (hperm : l.fileLoggers.Perm (kept ++ gone))
    (hkept : (l.call e).fileLoggers = kept)
    (hclosed : (l.call e).deletedLoggers = l.deletedLoggers ++ gone)
  | writes (hcall : addsFileLogger e = false)
    (hkept : (l.call e).fileLoggers = l.fileLoggers.map (record (entryOf l e).toList))
    (hclosed : (l.call e).deletedLoggers = l.deletedLoggers)

/-- Nothing but the file logger at the index goes. -/
private theorem fileLoggers_perm_eraseIdx (fileLoggers : List FileLogger) (index : Nat) :
    fileLoggers.Perm (fileLoggers.eraseIdx index ++ fileLoggers[index]?.toList) := by
  by_cases h : index < fileLoggers.length
  · rw [List.getElem?_eq_getElem h, Option.toList_some]
    exact (List.getElem_cons_eraseIdx_perm h).symm.trans
      (List.perm_append_singleton _ _).symm
  · have hlen : fileLoggers.length ≤ index := by omega
    simp [List.eraseIdx_of_length_le hlen, List.getElem?_eq_none hlen]

/-- Every call does one of the three. -/
private theorem fileLoggersChange (l : Logger) (e : ClockReading × LoggerCall) :
    FileLoggersChange l e := by
  obtain ⟨clock, c⟩ := e
  cases c with
  | log message severity =>
    exact .writes rfl (fileLoggers_log l clock message severity) rfl
  | logStream message =>
    -- the newline writes, and other texts only wait
    by_cases h : message = "\n"
    · apply FileLoggersChange.writes rfl
      · simp [call, logStream, entryOf, h, fileLoggers_log]
      · simp [call, logStream, h, log]
    · apply FileLoggersChange.writes rfl
      · simp [call, logStream, entryOf, h]
      · simp [call, logStream, h]
  | addFileLogger fileName severity => exact .adds clock fileName severity rfl
  | removeFileLoggerAt index =>
    -- a removal that cannot be made is logged instead
    by_cases hcount : UInt32.ofNat l.fileLoggers.length > 0
    · by_cases hindex : index < UInt32.ofNat l.fileLoggers.length
      · apply FileLoggersChange.closes (l.fileLoggers.eraseIdx index.toNat)
          l.fileLoggers[index.toNat]?.toList rfl
        · simp [entryOf, hcount, hindex]
        · exact fileLoggers_perm_eraseIdx _ _
        · simp [call, removeFileLoggerAt, hcount, hindex, closeFileLogger]
        · simp [call, removeFileLoggerAt, hcount, hindex, closeFileLogger]
      · apply FileLoggersChange.writes rfl
        · simp [call, removeFileLoggerAt, entryOf, hcount, hindex, fileLoggers_log]
        · simp [call, removeFileLoggerAt, hcount, hindex, log]
    · apply FileLoggersChange.writes rfl
      · simp [call, removeFileLoggerAt, entryOf, hcount, fileLoggers_log]
      · simp [call, removeFileLoggerAt, hcount, log]
  | clearFileLoggers =>
    apply FileLoggersChange.closes [] l.fileLoggers rfl rfl
    · exact List.Perm.refl _
    · rfl
    · rfl
  | setStdoutLogSeverity severity =>
    apply FileLoggersChange.writes rfl
    · simp [call, setStdoutLogSeverity, entryOf]
    · rfl

/-- The count is that of the file loggers ever added. -/
private theorem fileLoggersCount_call (l : Logger) (e : ClockReading × LoggerCall) :
    (l.call e).fileLoggersCount =
      l.fileLoggersCount + if addsFileLogger e then 1 else 0 := by
  obtain ⟨clock, c⟩ := e
  cases c with
  | log message severity => rfl
  | logStream message =>
    by_cases h : message = "\n"
    · simp [call, logStream, h, log, addsFileLogger]
    · simp [call, logStream, h, addsFileLogger]
  | addFileLogger fileName severity => rfl
  | removeFileLoggerAt index =>
    by_cases hcount : UInt32.ofNat l.fileLoggers.length > 0
    · by_cases hindex : index < UInt32.ofNat l.fileLoggers.length
      · simp [call, removeFileLoggerAt, hcount, hindex, closeFileLogger, addsFileLogger]
      · simp [call, removeFileLoggerAt, hcount, hindex, log, addsFileLogger]
    · simp [call, removeFileLoggerAt, hcount, log, addsFileLogger]
  | clearFileLoggers => rfl
  | setStdoutLogSeverity severity => rfl

/-! ## All calls -/

/-- The call that adds the file logger. -/
def additionOf (clock : ClockReading) (f : FileLogger) : ClockReading × LoggerCall :=
  (clock, .addFileLogger f.fileLogName f.fileLogSeverity)

/-- The file logger comes from the call after `before`, and its stream was given what passed
    of the entries of `during`. -/
structure Records (before : List (ClockReading × LoggerCall)) (clock : ClockReading)
    (during : List (ClockReading × LoggerCall)) (f : FileLogger) : Prop where
  number : f.number = before.countP addsFileLogger
  fileLog : f.fileLog = passing f.fileLogSeverity
    (entriesOf (new.callAll (before ++ [additionOf clock f])) during)

/-- What there is after calls: every file logger that was added is there or deleted, one
    that is there was given all entries since then, and one that was deleted those up to the
    call that deleted it. -/
structure Delivered (es : List (ClockReading × LoggerCall)) : Prop where
  numbers : (((new.callAll es).fileLoggers ++ (new.callAll es).deletedLoggers).map
    FileLogger.number).Perm (List.range (es.countP addsFileLogger))
  opened : ∀ f ∈ (new.callAll es).fileLoggers, ∃ before clock during,
    es = before ++ [additionOf clock f] ++ during ∧ Records before clock during f
  closed : ∀ f ∈ (new.callAll es).deletedLoggers, ∃ before clock during e after,
    es = before ++ [additionOf clock f] ++ during ++ [e] ++ after ∧
    Records before clock during f ∧
    f ∈ (new.callAll (before ++ [additionOf clock f] ++ during)).fileLoggers ∧
    f ∉ (new.callAll (before ++ [additionOf clock f] ++ during ++ [e])).fileLoggers

/-- From the start, over all calls. -/
private theorem fileLoggersCount_callAll (es : List (ClockReading × LoggerCall)) :
    (new.callAll es).fileLoggersCount = es.countP addsFileLogger := by
  induction es using List.reverseRecOn with
  | nil => rfl
  | append_singleton es e ih =>
    simp [callAll_concat, fileLoggersCount_call, ih, List.countP_append, List.countP_singleton]

/-- A file logger stays and is given the entry of one more call, if there is one. -/
private theorem Records.concat {before during : List (ClockReading × LoggerCall)}
    {clock : ClockReading}
    {f : FileLogger} (h : Records before clock during f) (e : ClockReading × LoggerCall) :
    Records before clock (during ++ [e]) (record (entryOf
      (new.callAll (before ++ [additionOf clock f] ++ during)) e).toList f) := by
  constructor
  · exact h.number
  · show f.fileLog ++ _ = passing f.fileLogSeverity
      (entriesOf (new.callAll (before ++ [additionOf clock f])) (during ++ [e]))
    rw [entriesOf_concat, passing_append, ← h.fileLog, ← callAll_append]

/-- One more call does not change what was deleted. -/
private theorem Delivered.closed_concat {es : List (ClockReading × LoggerCall)} (h : Delivered es)
    (e : ClockReading × LoggerCall) {f : FileLogger} (hf : f ∈ (new.callAll es).deletedLoggers) :
    ∃ before clock during e' after,
      es ++ [e] = before ++ [additionOf clock f] ++ during ++ [e'] ++ after ∧
      Records before clock during f ∧
      f ∈ (new.callAll (before ++ [additionOf clock f] ++ during)).fileLoggers ∧
      f ∉ (new.callAll (before ++ [additionOf clock f] ++ during ++ [e'])).fileLoggers := by
  obtain ⟨before, clock, during, e', after, hes, hrest⟩ := h.closed f hf
  exact ⟨before, clock, during, e', after ++ [e], by rw [hes, List.append_assoc], hrest⟩

/-- Before the first call there is no file logger. -/
private theorem delivered_nil : Delivered [] := by
  constructor
  · exact List.Perm.refl _
  · intro f hf
    cases hf
  · intro f hf
    cases hf

/-- A file logger is added. -/
theorem Delivered.adds {es : List (ClockReading × LoggerCall)} (h : Delivered es)
    (clock : ClockReading) (fileName : String) (severity : UInt8) :
    Delivered (es ++ [(clock, .addFileLogger fileName severity)]) := by
  have hcount := fileLoggersCount_callAll es
  have hopened : (new.callAll (es ++ [(clock, .addFileLogger fileName severity)])).fileLoggers =
      (new.callAll es).fileLoggers ++
        [⟨(new.callAll es).fileLoggersCount, fileName, severity, []⟩] := by
    rw [callAll_concat]
    rfl
  have hclosed : (new.callAll (es ++ [(clock, .addFileLogger fileName severity)])).deletedLoggers =
      (new.callAll es).deletedLoggers := by
    rw [callAll_concat]
    rfl
  constructor
  · -- the new number is the count so far
    rw [hopened, hclosed, hcount, List.countP_append, List.countP_singleton]
    simp only [addsFileLogger, if_true, List.range_succ, List.map_append, List.append_assoc]
    have hnumbers := h.numbers
    rw [List.map_append] at hnumbers
    refine List.Perm.trans ?_ (hnumbers.append_right _)
    rw [List.append_assoc]
    exact List.perm_append_comm.append_left _
  · -- an open one was there before, or it is the one that was added
    intro f hf
    rw [hopened, List.mem_append, List.mem_singleton] at hf
    rcases hf with hold | rfl
    · obtain ⟨before, clock', during, hes, hrecords⟩ := h.opened f hold
      have hafter := hrecords.concat (clock, .addFileLogger fileName severity)
      simp only [entryOf, Option.toList_none, record_nil] at hafter
      exact ⟨before, clock', during ++ [(clock, .addFileLogger fileName severity)],
        by simp [hes], hafter⟩
    · exact ⟨es, clock, [], by simp [additionOf], hcount, by simp [entriesOf, passing]⟩
  · intro f hf
    rw [hclosed] at hf
    exact h.closed_concat _ hf

/-- Some file loggers are deleted, and the others go on. -/
theorem Delivered.closes {es : List (ClockReading × LoggerCall)} (h : Delivered es)
    {e : ClockReading × LoggerCall} (hcall : addsFileLogger e = false)
    (hentry : entryOf (new.callAll es) e = none) {kept gone : List FileLogger}
    (hperm : (new.callAll es).fileLoggers.Perm (kept ++ gone))
    (hkept : (new.callAll (es ++ [e])).fileLoggers = kept)
    (hclosed : (new.callAll (es ++ [e])).deletedLoggers = (new.callAll es).deletedLoggers ++ gone) :
    Delivered (es ++ [e]) := by
  have hnumbers := h.numbers
  constructor
  · -- the loggers only move, so the numbers are the same
    rw [hkept, hclosed, List.countP_append, List.countP_singleton, hcall]
    refine List.Perm.trans (List.Perm.map _ ?_) hnumbers
    have hmoved : (kept ++ ((new.callAll es).deletedLoggers ++ gone)).Perm
        (kept ++ (gone ++ (new.callAll es).deletedLoggers)) := List.perm_append_comm.append_left _
    rw [← List.append_assoc kept gone] at hmoved
    exact hmoved.trans (hperm.symm.append_right _)
  · intro f hf
    rw [hkept] at hf
    -- one that is kept has got no entry
    obtain ⟨before, clock, during, rfl, hrecords⟩ :=
      h.opened f (hperm.mem_iff.mpr (List.mem_append_left _ hf))
    have hafter := hrecords.concat e
    rw [hentry, Option.toList_none, record_nil] at hafter
    exact ⟨before, clock, during ++ [e], by simp, hafter⟩
  · intro f hf
    rw [hclosed, List.mem_append] at hf
    rcases hf with hold | hgone
    · exact h.closed_concat e hold
    · -- one that has gone has got all entries until now
      have hopen := hperm.mem_iff.mpr (List.mem_append_right kept hgone)
      obtain ⟨before, clock, during, rfl, hrecords⟩ := h.opened f hopen
      refine ⟨before, clock, during, e, [], by simp, hrecords, hopen, ?_⟩
      -- no other file logger has its number
      have hnodup := hnumbers.nodup_iff.mpr List.nodup_range
      rw [List.map_append] at hnodup
      have hopened := (hperm.map FileLogger.number).nodup_iff.mp hnodup.of_append_left
      rw [List.map_append] at hopened
      rw [hkept]
      intro hf
      exact List.disjoint_of_nodup_append hopened (List.mem_map_of_mem hf)
        (List.mem_map_of_mem hgone)

/-- An entry is given, or none, and all file loggers stay. -/
theorem Delivered.writes {es : List (ClockReading × LoggerCall)} (h : Delivered es)
    {e : ClockReading × LoggerCall} (hcall : addsFileLogger e = false)
    (hkept : (new.callAll (es ++ [e])).fileLoggers =
      (new.callAll es).fileLoggers.map (record (entryOf (new.callAll es) e).toList))
    (hclosed : (new.callAll (es ++ [e])).deletedLoggers = (new.callAll es).deletedLoggers) :
    Delivered (es ++ [e]) := by
  constructor
  · rw [hkept, hclosed, List.countP_append, List.countP_singleton, hcall]
    have hsame : FileLogger.number ∘ record (entryOf (new.callAll es) e).toList =
        FileLogger.number := rfl
    rw [List.map_append, List.map_map, hsame, ← List.map_append]
    exact h.numbers
  · intro f hf
    rw [hkept, List.mem_map] at hf
    obtain ⟨g, hg, rfl⟩ := hf
    obtain ⟨before, clock, during, rfl, hrecords⟩ := h.opened g hg
    exact ⟨before, clock, during ++ [e], by simp [additionOf, record], hrecords.concat e⟩
  · intro f hf
    rw [hclosed] at hf
    exact h.closed_concat e hf

/-- Every file logger gets what it should, after all calls from the start. -/
theorem delivered_of_calls (es : List (ClockReading × LoggerCall)) : Delivered es := by
  induction es using List.reverseRecOn with
  | nil => exact delivered_nil
  | append_singleton es e ih =>
    cases fileLoggersChange (new.callAll es) e with
    | adds clock fileName severity hcall =>
      subst hcall
      exact ih.adds clock fileName severity
    | closes kept gone hcall hentry hperm hkept hclosed =>
      rw [← callAll_concat] at hkept hclosed
      exact ih.closes hcall hentry hperm hkept hclosed
    | writes hcall hkept hclosed =>
      rw [← callAll_concat] at hkept hclosed
      exact ih.writes hcall hkept hclosed

/-! ## Streaming -/

/-- The texts that `operator<<` got. -/
def streamedTexts (es : List (ClockReading × LoggerCall)) : List String :=
  es.filterMap fun
    | (_, .logStream message) => some message
    | _ => none

/-- The texts since the last newline, in one. -/
def pendingText (es : List (ClockReading × LoggerCall)) : String :=
  String.join ((streamedTexts es).rtakeWhile fun message => decide (message ≠ "\n"))

/-- The severity that was set last. -/
def stdoutSeverityAfter (es : List (ClockReading × LoggerCall)) : UInt8 :=
  ((es.filterMap fun
    | (_, .setStdoutLogSeverity severity) => some severity
    | _ => none).getLast?).getD LogSeverityType.debug

/-- Only `operator<<` changes what is collected. -/
private theorem messageToLog_call (l : Logger) (clock : ClockReading) (c : LoggerCall) :
    (l.call (clock, c)).messageToLog =
      match c with
      | .logStream message => if message = "\n" then "" else l.messageToLog ++ message
      | _ => l.messageToLog := by
  cases c with
  | logStream message =>
    by_cases h : message = "\n"
    · simp [call, logStream, h]
    · simp [call, logStream, h]
  | removeFileLoggerAt index =>
    by_cases hcount : UInt32.ofNat l.fileLoggers.length > 0
    · by_cases hindex : index < UInt32.ofNat l.fileLoggers.length
      · simp [call, removeFileLoggerAt, hcount, hindex, closeFileLogger]
      · simp [call, removeFileLoggerAt, hcount, hindex, log]
    · simp [call, removeFileLoggerAt, hcount, log]
  | _ => rfl

/-- Only one of the calls sets the severity. -/
private theorem stdoutLogSeverity_call (l : Logger) (clock : ClockReading) (c : LoggerCall) :
    (l.call (clock, c)).stdoutLogSeverity =
      match c with
      | .setStdoutLogSeverity severity => severity
      | _ => l.stdoutLogSeverity := by
  cases c with
  | logStream message =>
    by_cases h : message = "\n"
    · simp [call, logStream, h, log]
    · simp [call, logStream, h]
  | removeFileLoggerAt index =>
    by_cases hcount : UInt32.ofNat l.fileLoggers.length > 0
    · by_cases hindex : index < UInt32.ofNat l.fileLoggers.length
      · simp [call, removeFileLoggerAt, hcount, hindex, closeFileLogger]
      · simp [call, removeFileLoggerAt, hcount, hindex, log]
    · simp [call, removeFileLoggerAt, hcount, log]
  | _ => rfl

/-- What was streamed since the last newline waits for the next one. -/
private theorem messageToLog_callAll (es : List (ClockReading × LoggerCall)) :
    (new.callAll es).messageToLog = pendingText es := by
  induction es using List.reverseRecOn with
  | nil => rfl
  | append_singleton es e ih =>
    obtain ⟨clock, c⟩ := e
    rw [callAll_concat, messageToLog_call, ih]
    cases c with
    | logStream message =>
      by_cases h : message = "\n"
      · simp [pendingText, streamedTexts, h, String.join]
      · simp [pendingText, streamedTexts, h]
    | _ => simp [pendingText, streamedTexts]

/-- The severity is the one that was set last. -/
private theorem stdoutLogSeverity_callAll (es : List (ClockReading × LoggerCall)) :
    (new.callAll es).stdoutLogSeverity = stdoutSeverityAfter es := by
  induction es using List.reverseRecOn with
  | nil => rfl
  | append_singleton es e ih =>
    obtain ⟨clock, c⟩ := e
    rw [callAll_concat, stdoutLogSeverity_call, ih]
    cases c <;> simp [stdoutSeverityAfter]

/-- The line that a newline writes after calls. -/
def streamedLine (es : List (ClockReading × LoggerCall)) (clock : ClockReading) : String :=
  entryString clock (pendingText es) (stdoutSeverityAfter es)

/-- A newline writes the texts since the last one as one entry, whatever else was called in
    between, with the severity of the standard output. Without such a severity the entry is
    lost, for all files as well. -/
theorem streamed_of_calls (es : List (ClockReading × LoggerCall)) (clock : ClockReading) :
    (new.callAll (es ++ [(clock, .logStream "\n")])).messageToLog = "" ∧
    (new.callAll (es ++ [(clock, .logStream "\n")])).fileLoggers =
      (new.callAll es).fileLoggers.map
        (record [(streamedLine es clock, stdoutSeverityAfter es)]) ∧
    (new.callAll (es ++ [(clock, .logStream "\n")])).standardOutput =
      (new.callAll es).standardOutput ++
        (if stdoutSeverityAfter es > LogSeverityType.none then [streamedLine es clock] else []) ∧
    (stdoutSeverityAfter es = LogSeverityType.none →
      (new.callAll (es ++ [(clock, .logStream "\n")])).fileLoggers =
        (new.callAll es).fileLoggers) := by
  have hline : entryString clock (new.callAll es).messageToLog
      (new.callAll es).stdoutLogSeverity = streamedLine es clock := by
    rw [messageToLog_callAll, stdoutLogSeverity_callAll, streamedLine]
  have hfiles : (new.callAll (es ++ [(clock, .logStream "\n")])).fileLoggers =
      (new.callAll es).fileLoggers.map
        (record [(streamedLine es clock, stdoutSeverityAfter es)]) := by
    rw [← hline, ← stdoutLogSeverity_callAll, ← fileLoggers_log, callAll_concat]
    rfl
  refine ⟨?_, hfiles, ?_, ?_⟩
  · rw [callAll_concat]
    rfl
  · rw [← hline, ← stdoutLogSeverity_callAll, callAll_concat]
    -- a severity is never below itself
    by_cases h : (new.callAll es).stdoutLogSeverity > LogSeverityType.none
    · simp [call, logStream, log, Passes, h]
    · simp [call, logStream, log, Passes, h]
  · intro hnone
    rw [hfiles, hnone]
    have hlost : ∀ f, record [(streamedLine es clock, LogSeverityType.none)] f = f := by
      intro f
      simp [record, passing, Passes]
    simp [funext hlost]

end R2CP.Logger
