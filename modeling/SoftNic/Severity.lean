/-! # Severities

How important a log line is.  A log kept at some severity shows every line
that is at least as important.
-/
namespace SoftNic

/-- The importance of a log line, greatest first. -/
inductive Severity
  | error
  | warn
  | info
  | debug
  | trace
  deriving DecidableEq, Repr

namespace Severity

/-- The word that a log line begins with. -/
def word : Severity → String
  | error => "ERROR"
  | warn => "WARN"
  | info => "INFO"
  | debug => "DEBUG"
  | trace => "TRACE"

/-- The distance from the greatest importance. -/
def rank : Severity → Nat
  | error => 0
  | warn => 1
  | info => 2
  | debug => 3
  | trace => 4

/-- Whether a log kept at a severity shows a line of another. -/
def shows (limit line : Severity) : Bool :=
  line.rank ≤ limit.rank

end Severity
end SoftNic
