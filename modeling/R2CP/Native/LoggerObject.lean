import R2CP.Native.Logger

/-!
# The logger

`Logger` is a singleton with a severity for the standard output and any number of file
loggers, each with a severity of its own. `operator<<` collects texts until one of them
is a newline.

The standard output and the stream of a file logger are the lines that the logger hands to
them. What becomes of these lines is up to the file system and is not modelled: a file that
is opened a second time is emptied (`std::ios::out`), file loggers of one name write over
each other, and a file may not open at all. `number` says which `new FileLogger` a file
logger comes from: the sources know them by their addresses. File loggers that are deleted
stay in `deletedLoggers`, as they were. What the system clock shows is an argument of
the calls that write an entry.
-/

namespace R2CP

namespace LogSeverityType

/-- No severity, or an entry for nobody. -/
def none : UInt8 := 0
def debug : UInt8 := 1
def info : UInt8 := 2
def warning : UInt8 := 3
def error : UInt8 := 4
def fatal : UInt8 := 5

end LogSeverityType

/-- `gettimestring` reads the clock twice: the first reading goes through `strftime`, the
    second one is a number of milliseconds. -/
structure ClockReading where
  timeFormatString : String
  milliseconds : Nat
  deriving DecidableEq, Repr

/-- `Logger::FileLogger`. `fileLog` is its output stream, as the lines that it was given. -/
structure FileLogger where
  number : Nat
  fileLogName : String
  fileLogSeverity : UInt8
  fileLog : List String
  deriving DecidableEq, Repr

/-- The members of the singleton, with what they have been given to write. -/
structure Logger where
  stdoutLogSeverity : UInt8
  fileLoggers : List FileLogger
  /-- The static variable of `logstream`. -/
  messageToLog : String
  standardOutput : List String
  deletedLoggers : List FileLogger
  /-- How many file loggers have been created. -/
  fileLoggersCount : Nat
  deriving DecidableEq, Repr

/-- The test in front of the standard output and of a file. -/
def Passes (logSeverity severity : UInt8) : Prop :=
  severity > LogSeverityType.none ∧ logSeverity > LogSeverityType.none ∧ severity ≥ logSeverity

instance (logSeverity severity : UInt8) : Decidable (Passes logSeverity severity) :=
  inferInstanceAs (Decidable (_ ∧ _ ∧ _))

/-- `FileLogger::log`. A line that passes is handed to the stream. -/
def FileLogger.log (f : FileLogger) (message : String) (severity : UInt8) : FileLogger :=
  if Passes f.fileLogSeverity severity then
    { f with fileLog := f.fileLog ++ [message] }
  else
    f

namespace Logger

/-- A new logger writes to the standard output only. -/
def new : Logger where
  stdoutLogSeverity := LogSeverityType.debug
  fileLoggers := []
  messageToLog := ""
  standardOutput := []
  deletedLoggers := []
  fileLoggersCount := 0

/-- `gettimestring`: the milliseconds have three digits. -/
def getTimeString (clock : ClockReading) : String :=
  let millisecondsCount := clock.milliseconds % 1000
  clock.timeFormatString ++ "." ++
    (if millisecondsCount < 10 then "00" else if millisecondsCount < 100 then "0" else "") ++
    toString millisecondsCount

/-- `getlogseveritystring`. -/
def getLogSeverityString (severity : UInt8) : String :=
  if severity = LogSeverityType.debug then "[ DEBUG ]"
  else if severity = LogSeverityType.info then "[ INFO  ]"
  else if severity = LogSeverityType.warning then "[WARNING]"
  else if severity = LogSeverityType.error then "[ ERROR ]"
  else if severity = LogSeverityType.fatal then "[ FATAL ]"
  else "[ NONE  ]"

/-- A line of the log. -/
def entryString (clock : ClockReading) (message : String) (severity : UInt8) : String :=
  getTimeString clock ++ " " ++ getLogSeverityString severity ++ " " ++ message

/-- `Logger::log`: the entry goes to the standard output and to each file logger. -/
def log (l : Logger) (clock : ClockReading) (message : String) (severity : UInt8) : Logger :=
  let entry := entryString clock message severity
  { l with
    standardOutput :=
      if Passes l.stdoutLogSeverity severity then l.standardOutput ++ [entry]
      else l.standardOutput
    fileLoggers := l.fileLoggers.map (·.log entry severity) }

/-- The formatting overload of `logwarning`. -/
def formatText (format : String) (arguments : List LogArgument) : String :=
  String.ofList ((sprintf? format.toList arguments).getD [])

/-- `addfilelogger`: a new one comes last, with a new stream. -/
def addFileLogger (l : Logger) (fileName : String) (severity : UInt8) : Logger :=
  { l with
    fileLoggers := l.fileLoggers ++ [⟨l.fileLoggersCount, fileName, severity, []⟩]
    fileLoggersCount := l.fileLoggersCount + 1 }

/-- The file logger is deleted, which closes its stream. -/
def closeFileLogger (l : Logger) (index : Nat) : Logger :=
  { l with
    fileLoggers := l.fileLoggers.eraseIdx index
    deletedLoggers := l.deletedLoggers ++ l.fileLoggers[index]?.toList }

/-- `removefileloggerat`. Both warnings are entries like any other. -/
def removeFileLoggerAt (l : Logger) (clock : ClockReading) (index : UInt32) : Logger :=
  let fileLoggersCount := UInt32.ofNat l.fileLoggers.length
  if fileLoggersCount > 0 then
    if index < fileLoggersCount then
      l.closeFileLogger index.toNat
    else
      l.log clock (formatText
        "File logger not removed, specified index (%u) out of range [0, %u>."
        [.uint32 index, .uint32 fileLoggersCount]) LogSeverityType.warning
  else
    l.log clock (formatText "Nothing to remove, no file loggers have been created..." [])
      LogSeverityType.warning

/-- `clearfileloggers` deletes all of them. -/
def clearFileLoggers (l : Logger) : Logger :=
  { l with
    fileLoggers := []
    deletedLoggers := l.deletedLoggers ++ l.fileLoggers }

/-- `setstdoutlogseverity`. -/
def setStdoutLogSeverity (l : Logger) (severity : UInt8) : Logger :=
  { l with stdoutLogSeverity := severity }

/-- `logstream`, with a text that `operator<<` has made of its argument. -/
def logStream (l : Logger) (clock : ClockReading) (message : String) : Logger :=
  if message = "\n" then
    -- the text is taken, also when the entry passes nowhere
    { l.log clock l.messageToLog l.stdoutLogSeverity with messageToLog := "" }
  else
    { l with messageToLog := l.messageToLog ++ message }

end Logger

/-- A call of the logger. `logdebug`, `loginfo` and the others are `log` with their
    severities, and the formatting overloads are with what they have formatted. -/
inductive LoggerCall where
  | log (message : String) (severity : UInt8)
  | logStream (message : String)
  | addFileLogger (fileName : String) (severity : UInt8)
  | removeFileLoggerAt (index : UInt32)
  | clearFileLoggers
  | setStdoutLogSeverity (severity : UInt8)
  deriving DecidableEq, Repr

namespace Logger

/-- Make a call, while the clock shows a time. -/
def call (l : Logger) (e : ClockReading × LoggerCall) : Logger :=
  match e with
  | (clock, .log message severity) => l.log clock message severity
  | (clock, .logStream message) => l.logStream clock message
  | (_, .addFileLogger fileName severity) => l.addFileLogger fileName severity
  | (clock, .removeFileLoggerAt index) => l.removeFileLoggerAt clock index
  | (_, .clearFileLoggers) => l.clearFileLoggers
  | (_, .setStdoutLogSeverity severity) => l.setStdoutLogSeverity severity

/-- Make the calls in order. -/
def callAll (l : Logger) (es : List (ClockReading × LoggerCall)) : Logger := es.foldl call l

end Logger

end R2CP
