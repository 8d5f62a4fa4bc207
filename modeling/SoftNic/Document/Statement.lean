import SoftNic.Document.Integer
import SoftNic.Document.Quoted
import SoftNic.Document.Tree

/-! # Statements

A line of a document is cut at its comment, trimmed, and then read on its own
as one statement: nothing, the header of a table, or an assignment.  A number
sign begins a comment unless it stands inside quotes; whether it does is told
by a four-state scan from the beginning of the line.
-/
namespace SoftNic
namespace Document

open Text

/-- Where a scan stands with respect to quotes. -/
inductive Quoting
  /-- Outside of quotes. -/
  | outside
  /-- Between single quotes. -/
  | literal
  /-- Between double quotes. -/
  | basic
  /-- Between double quotes, directly behind a backslash. -/
  | basicEscape
  deriving DecidableEq, Repr

namespace Quoting

/-- Where the scan stands after one more character. -/
def next : Quoting → Char → Quoting
  | outside, '"' => basic
  | outside, '\'' => literal
  | outside, _ => outside
  | literal, '\'' => outside
  | literal, _ => literal
  | basic, '\\' => basicEscape
  | basic, '"' => outside
  | basic, _ => basic
  | basicEscape, _ => basic

end Quoting

/-- The part of a line in front of its comment, from a point where the scan
stands as given. -/
def uncommentFrom : Quoting → List Char → List Char
  | _, [] => []
  | q, c :: cs =>
    if q = .outside ∧ c = '#' then [] else c :: uncommentFrom (q.next c) cs

/-- The part of a line in front of its comment. -/
def uncomment (line : List Char) : List Char :=
  uncommentFrom .outside line

/-- What one line says. -/
inductive Statement
  | blank
  /-- The following assignments are about the table at this path. -/
  | header (path : List String)
  | assignment (key : String) (value : Scalar)
  deriving DecidableEq, Repr

/-- The characters of a bare key: ASCII letters and digits, underscore and
dash. -/
def isKeyChar (c : Char) : Bool :=
  c.isAlphanum || c == '_' || c == '-'

/-- Read a key, bare or quoted. -/
def readKey (line : Nat) (text : List Char) : Except ConfigError String :=
  if startsQuoted text then readQuoted line text
  else if text = [] then .error (.malformed line .emptyKey)
  else if text.all isKeyChar then .ok (String.ofList text)
  else .error (.malformed line .badKeyCharacter)

/-- Read keys one after the other; the first bad one decides. -/
def readKeys (line : Nat) : List (List Char) → Except ConfigError (List String)
  | [] => .ok []
  | text :: texts =>
    match readKey line (trim text) with
    | .error e => .error e
    | .ok key =>
      match readKeys line texts with
      | .error e => .error e
      | .ok keys => .ok (key :: keys)

/-- Read the path of a table header.  Every dot separates two keys, inside
quotes too. -/
def readPath (line : Nat) (text : List Char) : Except ConfigError (List String) :=
  readKeys line (pieces '.' text)

/-- Whether a value that begins so is an integer literal. -/
def startsInteger : List Char → Bool
  | c :: _ => c.isDigit || c == '-' || c == '+'
  | [] => false

/-- Make a refusal out of a configuration error. -/
def refuse {α : Type} : Except ConfigError α → Except ConfigFailure α
  | .ok a => .ok a
  | .error e => .error (.refused e)

section Answers

variable {ε α β : Type} {x : Except ε α} {f : α → β}

theorem map_eq_ok_iff {b : β} : x.map f = .ok b ↔ ∃ a, x = .ok a ∧ f a = b := by
  cases x <;> simp [Except.map]

theorem map_eq_error_iff {e : ε} : x.map f = .error e ↔ x = .error e := by
  cases x <;> simp [Except.map]

theorem refuse_eq_ok_iff {x : Except ConfigError α} {a : α} : refuse x = .ok a ↔ x = .ok a := by
  cases x <;> simp [refuse]

theorem refuse_ne_fault {x : Except ConfigError α} {f : Fault} :
    refuse x ≠ .error (.fault f) := by
  cases x <;> simp [refuse]

end Answers

/-- Read a value. -/
def readValue (line : Nat) (text : List Char) : Except ConfigFailure Scalar :=
  if text = [] then .error (.refused (.malformed line .missingValue))
  else if text = "true".toList then .ok (.boolean true)
  else if text = "false".toList then .ok (.boolean false)
  else if startsQuoted text then (refuse (readQuoted line text)).map .text
  else if startsInteger text then (readInteger text).map .integer
  else .error (.refused (.malformed line .unsupportedValue))

/-- Read a line that is trimmed and free of comments. -/
def readStatement (line : Nat) (text : List Char) : Except ConfigFailure Statement :=
  match text with
  | [] => .ok .blank
  | '[' :: rest =>
    if rest.getLast? = some ']' then (refuse (readPath line rest.dropLast)).map .header
    else .error (.refused (.malformed line .unterminatedHeader))
  | _ =>
    match cut? '=' text with
    | none => .error (.refused (.malformed line .noAssignment))
    | some (left, right) =>
      match readKey line (trim left) with
      | .error e => .error (.refused e)
      | .ok key => (readValue line (trim right)).map (.assignment key)

/-- The statement that a raw line makes. -/
def Statement.ofLine (line : Nat) (raw : List Char) : Except ConfigFailure Statement :=
  readStatement line (trim (uncomment raw))

example : uncomment "a = 'b # c' # d".toList = "a = 'b # c' ".toList := by decide

example : Statement.ofLine 1 " [ a . b ] # x".toList = .ok (.header ["a", "b"]) := by cbv

end Document
end SoftNic
