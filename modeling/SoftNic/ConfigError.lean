import SoftNic.Fault

/-! # Why a configuration is refused

Each constructor is a cause.  The wording of a cause is in one place,
`ConfigError.message`, so that no other module spells an error text.  Text
supplied by a caller in its own words is possible for the two open-ended
causes through their `custom` constructor.
-/
namespace SoftNic

/-- What is wrong with the form of a line. -/
inductive Malformation
  | unterminatedHeader
  | noAssignment
  | emptyKey
  | badKeyCharacter
  | missingValue
  | unsupportedValue
  | unterminatedString
  | textAfterString
  | custom (text : String)
  deriving DecidableEq, Repr

namespace Malformation

/-- The wording of a malformation. -/
def message : Malformation → String
  | unterminatedHeader => "unterminated table header"
  | noAssignment => "expected \x60key = value\x60"
  | emptyKey => "empty key"
  | badKeyCharacter => "invalid character in key"
  | missingValue => "missing value"
  | unsupportedValue => "unsupported value"
  | unterminatedString => "unterminated string"
  | textAfterString => "trailing characters after string"
  | custom text => text

end Malformation

/-- What is wrong with the value of a setting. -/
inductive ValueDefect
  | belowMinimum (key : String) (least : Nat)
  | empty (key : String)
  | notText (key : String)
  | notSize (key : String)
  | tooLong (key text : String)
  | custom (text : String)
  deriving DecidableEq, Repr

namespace ValueDefect

/-- The wording of a value defect. -/
def message : ValueDefect → String
  | belowMinimum key least => s!"{key} must be at least {least}"
  | empty key => key ++ " must not be empty"
  | notText key => key ++ " must be a string"
  | notSize key => key ++ " must be a non-negative integer"
  | tooLong key text => key ++ " too long: " ++ text
  | custom text => text

end ValueDefect

/-- Why a configuration text, tree or value is refused. -/
inductive ConfigError
  /-- A line, counted from one, does not have the form of any statement. -/
  | malformed (line : Nat) (why : Malformation)
  | invalidValue (why : ValueDefect)
  | missingKey (key : String)
  /-- A table path runs into a value that is not a table. -/
  | invalidTablePath (path : List String)
  | invalidNumber (text : String)
  | invalidString (text : String)
  | invalidMac (text : String)
  | duplicateKey (key : String)
  deriving DecidableEq, Repr

namespace ConfigError

/-- The wording of a configuration error. -/
def message : ConfigError → String
  | malformed line why => s!"line {line}: " ++ why.message
  | invalidValue why => "invalid value: " ++ why.message
  | missingKey key => "missing key: " ++ key
  | invalidTablePath path => "invalid table path: " ++ ".".intercalate path
  | invalidNumber text => "invalid number: " ++ text
  | invalidString text => "invalid string: " ++ text
  | invalidMac text => "invalid MAC address: " ++ text
  | duplicateKey key => "duplicate key: " ++ key

end ConfigError

/-- How reading a configuration fails: it is refused, or a fault stops it. -/
inductive ConfigFailure
  | refused (error : ConfigError)
  | fault (fault : Fault)
  deriving DecidableEq, Repr

end SoftNic
