import SoftNic.ConfigError
import SoftNic.Text.Hex

/-! # Integer literals

An integer literal may be broken up by single underscores, which carry no
meaning.  What is left is an optional sign and a *signed numeral*: decimal
digits, or `0x` and hexadecimal digits, where the numeral may begin with a sign
of its own and must denote a 64-bit integer.  A leading minus negates the
numeral and does not go together with `0x`.  The least 64-bit integer has no
opposite, so a minus in front of it is a fault and not a refusal.
-/
namespace SoftNic
namespace Document

open Text

/-- The least signed 64-bit integer. -/
def leastWord : Int := -9223372036854775808

/-- The greatest signed 64-bit integer. -/
def greatestWord : Int := 9223372036854775807

/-- Whether a number is a signed 64-bit integer. -/
def fitsWord (n : Int) : Bool :=
  leastWord ≤ n && n ≤ greatestWord

/-- The value of a digit in a radix of at most sixteen. -/
def digit? (radix : Nat) (c : Char) : Option Nat :=
  (hexValue? c).filter (· < radix)

/-- Continue a row of digits that has denoted `n` so far. -/
def digitsFrom? (radix : Nat) : Nat → List Char → Option Nat
  | n, [] => some n
  | n, c :: cs =>
    match digit? radix c with
    | some d => digitsFrom? radix (radix * n + d) cs
    | none => none

/-- The value of a row of digits, of which there must be one. -/
def natural? (radix : Nat) : List Char → Option Nat
  | [] => none
  | cs => digitsFrom? radix 0 cs

/-- The value of a row of digits with at most one sign in front. -/
def signed? (radix : Nat) : List Char → Option Int
  | '-' :: cs => (natural? radix cs).map fun n => -(n : Int)
  | '+' :: cs => (natural? radix cs).map fun n => (n : Int)
  | cs => (natural? radix cs).map fun n => (n : Int)

/-- The value of a signed numeral, if it is a 64-bit integer. -/
def word? (radix : Nat) (cs : List Char) : Option Int :=
  (signed? radix cs).filter fitsWord

/-- Whether two underscores stand side by side. -/
def hasDoubleUnderscore : List Char → Bool
  | '_' :: '_' :: _ => true
  | _ :: cs => hasDoubleUnderscore cs
  | [] => false

/-- Whether the underscores of a literal are out of place: at either end or
side by side. -/
def misplacedUnderscore (cs : List Char) : Bool :=
  cs.head? == some '_' || cs.getLast? == some '_' || hasDoubleUnderscore cs

/-- The sign in front of a literal and what follows it.  The first part says
whether the sign is a minus. -/
def leadingSign : List Char → Bool × List Char
  | '-' :: cs => (true, cs)
  | '+' :: cs => (false, cs)
  | cs => (false, cs)

/-- The numeral behind the leading sign, which may be hexadecimal unless that
sign is a minus. -/
def numeral? (negative : Bool) : List Char → Option Int
  | '0' :: 'x' :: cs => if negative then none else word? 16 cs
  | cs => word? 10 cs

/-- Read an integer literal. -/
def readInteger (cs : List Char) : Except ConfigFailure Int :=
  let invalid : Except ConfigFailure Int :=
    .error (.refused (.invalidNumber (String.ofList cs)))
  if misplacedUnderscore cs then invalid
  else
    let (negative, rest) := leadingSign (cs.filter (· != '_'))
    match numeral? negative rest with
    | none => invalid
    | some n =>
      if !negative then .ok n
      else if n = leastWord then .error (.fault .negationOverflow)
      else .ok (-n)

example : leastWord = -2 ^ 63 ∧ greatestWord = 2 ^ 63 - 1 := by decide

example : readInteger "1_0".toList = .ok 10 := rfl

example : readInteger "--5".toList = .ok 5 := rfl

example : readInteger "0x-5".toList = .ok (-5) := rfl

example : readInteger "-0x5".toList = .error (.refused (.invalidNumber "-0x5")) := rfl

end Document
end SoftNic
