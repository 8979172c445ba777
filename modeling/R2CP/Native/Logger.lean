import R2CP.Native.Exception

/-!
# Log entries

What the sources hand to `Logger`: the severity, the format string and the
arguments of each call, in call order. Logging has no effect on the callers.
-/

namespace R2CP

/-- The severities that the modelled functions log with. -/
inductive LogSeverity where
  | info
  | warning
  | error
  deriving DecidableEq, Repr

/-- An argument of a formatting overload: `%u` or `%s`. -/
inductive LogArgument where
  | uint32 (v : UInt32)
  | cstring (what : What)
  deriving DecidableEq, Repr

/-- A call of `Logger`. `formatted` is the formatting overload, `message` the one
    that takes a finished `std::string`, and `what` the formatting overload with
    the text of an exception as its format. -/
inductive LogEntry where
  | formatted (severity : LogSeverity) (format : String) (arguments : List LogArgument)
  | message (severity : LogSeverity) (text : String)
  | what (severity : LogSeverity) (what : What)
  deriving DecidableEq, Repr

/-! ## Formatting -/

/-- `sizeof` of an argument, with pointers of 8 bytes. -/
def LogArgument.size : LogArgument → UInt32
  | .uint32 _ => 4
  | .cstring _ => 8

/-- What `sprintf` writes for an argument: the decimal digits for `%u`, the whole string
    for `%s`. The library's own text is not in the sources, so there is nothing for it. -/
def LogArgument.print? : LogArgument → Option (List Char)
  | .uint32 v => some (toString v.toNat).toList
  | .cstring (.text s) => some s.toList
  | .cstring (.rangeCheck _ _) => none

/-- The characters that `sprintf` writes before the terminating NUL. The formats have the
    conversions `%u` and `%s` only, and each takes the next argument. -/
def sprintf? : (format : List Char) → (arguments : List LogArgument) → Option (List Char)
  | '%' :: _ :: format, argument :: arguments => do
    let text ← argument.print?
    let rest ← sprintf? format arguments
    pure (text ++ rest)
  | c :: format, arguments => do
    let rest ← sprintf? format arguments
    pure (c :: rest)
  | [], _ => some []

/-- `buffersize` in `convertformattostring`. -/
def bufferSize (format : List Char) (arguments : List LogArgument) : UInt32 :=
  let formatSize := UInt32.ofNat format.length
  let bufferSize := formatSize + (arguments.map LogArgument.size).sum
  bufferSize * 2

/-- The characters that `sprintf` writes into the buffer of `convertformattostring`, with
    the terminating NUL, are no more than the buffer has. -/
def FitsBuffer (format : List Char) (arguments : List LogArgument) : Prop :=
  ∀ text, sprintf? format arguments = some text →
    text.length + 1 ≤ (bufferSize format arguments).toNat

/-- The entry is not formatted, or it is and fits its buffer. -/
def LogEntry.Fits : LogEntry → Prop
  | .formatted _ format arguments => FitsBuffer format.toList arguments
  | .message _ _ => True
  | .what _ (.text format) => FitsBuffer format.toList []
  | .what _ (.rangeCheck _ _) => True

/-- One conversion in the middle of a format. -/
example : sprintf? "a %u b".toList [.uint32 42] = some "a 42 b".toList := by
  decide +kernel

end R2CP
