/-!
# Diagnostics

Every part of the library reports what it does as log entries; nothing is printed here.

* `LogEntry.event`: a message with fields.
* `LogEntry.span`: the opening of a stretch of work, with its name and fields.
-/

namespace TokenFeedback

inductive Severity where
  | trace | debug | info | warn | error
  deriving Repr, DecidableEq

def Severity.name : Severity → String
  | .trace => "TRACE"
  | .debug => "DEBUG"
  | .info => "INFO"
  | .warn => "WARN"
  | .error => "ERROR"

/-- The value of a field. -/
inductive LogValue where
  | text (s : String)
  | count (n : Nat)
  deriving Repr, DecidableEq

abbrev LogFields := List (String × LogValue)

inductive LogEntry where
  | event (severity : Severity) (message : String) (fields : LogFields)
  | span (severity : Severity) (name : String) (fields : LogFields)
  deriving Repr, DecidableEq

end TokenFeedback
