import SoftNic.ConfigError
import SoftNic.Text.Blank

/-! # Quoted strings

A string between double quotes is *basic*: a backslash in it begins one of
five escapes.  A string between single quotes is *literal*: every character up
to the next single quote stands for itself.
-/
namespace SoftNic
namespace Document

open Text

/-- The character that an escape stands for, given the character behind the
backslash. -/
def escaped? : Char → Option Char
  | 'n' => some '\n'
  | 't' => some '\t'
  | 'r' => some '\r'
  | '\\' => some '\\'
  | '"' => some '"'
  | _ => none

/-- What a scan for the closing quote found. -/
inductive QuoteScan
  /-- The characters of the string and the text behind the closing quote. -/
  | closed (content rest : List Char)
  /-- The text ended first. -/
  | unclosed
  /-- A backslash that begins no escape. -/
  | badEscape
  deriving DecidableEq, Repr

namespace QuoteScan

/-- Put a character in front of the content. -/
def push (c : Char) : QuoteScan → QuoteScan
  | closed content rest => closed (c :: content) rest
  | unclosed => unclosed
  | badEscape => badEscape

end QuoteScan

/-- Scan the inside of a basic string. -/
def scanBasic : List Char → QuoteScan
  | [] => .unclosed
  | '"' :: cs => .closed [] cs
  | ['\\'] => .unclosed
  | '\\' :: e :: cs =>
    match escaped? e with
    | some c => (scanBasic cs).push c
    | none => .badEscape
  | c :: cs => (scanBasic cs).push c

/-- Scan the inside of a literal string. -/
def scanLiteral : List Char → QuoteScan
  | [] => .unclosed
  | '\'' :: cs => .closed [] cs
  | c :: cs => (scanLiteral cs).push c

/-- Whether a text begins with a quote. -/
def startsQuoted : List Char → Bool
  | '"' :: _ => true
  | '\'' :: _ => true
  | _ => false

/-- Read a text that is nothing but one quoted string; blanks may follow
it. -/
def readQuoted (line : Nat) (text : List Char) : Except ConfigError String :=
  let scan :=
    match text with
    | '"' :: cs => scanBasic cs
    | '\'' :: cs => scanLiteral cs
    | _ => .unclosed
  match scan with
  | .badEscape => .error (.invalidString (String.ofList text))
  | .unclosed => .error (.malformed line .unterminatedString)
  | .closed content rest =>
    if trim rest = [] then .ok (String.ofList content)
    else .error (.malformed line .textAfterString)

end Document
end SoftNic
