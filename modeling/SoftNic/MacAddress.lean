import SoftNic.ConfigError
import SoftNic.Text.Hex
import SoftNic.Text.Lines

/-! # Hardware addresses

A hardware address is six octets.  It is read from six groups of two
hexadecimal digits with single colons between them and nothing else, in either
letter case.  Two written forms are in use: capital digits with colons, which
reads back, and small digits with dashes.

An address that a device may carry is *usable*: not a group address (the
lowest bit of the first octet is clear) and not all zero.
-/
namespace SoftNic

open Text

/-- Six octets, in transmission order. -/
structure MacAddress where
  octets : List UInt8
  length_octets : octets.length = 6 := by rfl
  deriving DecidableEq, Repr

namespace MacAddress

/-- The address with the given octets, if there are six. -/
def ofOctets? (octets : List UInt8) : Option MacAddress :=
  if h : octets.length = 6 then some ⟨octets, h⟩ else none

theorem ofOctets?_eq_some_iff {octets : List UInt8} {a : MacAddress} :
    ofOctets? octets = some a ↔ octets = a.octets := by
  constructor
  · intro h
    unfold ofOctets? at h
    split at h
    · obtain rfl := Option.some.inj h
      rfl
    · simp at h
  · rintro rfl
    simp [ofOctets?, a.length_octets]

/-- The all-zero address. -/
def zero : MacAddress := ⟨[0, 0, 0, 0, 0, 0], rfl⟩

instance : Inhabited MacAddress := ⟨zero⟩

/-- Read an address from six pairs of digits separated by colons. -/
def ofText? (text : String) : Option MacAddress :=
  ((pieces ':' text.toList).mapM octet?).bind ofOctets?

/-- Read an address; a text that is none is refused and named in the
refusal. -/
def parse (text : String) : Except ConfigError MacAddress :=
  match ofText? text with
  | some a => .ok a
  | none => .error (.invalidMac text)

/-- An address as pairs of digits with a separator between them. -/
def spell (k : DigitCase) (sep : Char) (a : MacAddress) : String :=
  String.ofList (List.intercalate [sep] (a.octets.map (hexOctet k)))

/-- The written form with capital digits and colons. -/
def toText (a : MacAddress) : String :=
  a.spell .upper ':'

/-- The written form with small digits and dashes. -/
def toDashedText (a : MacAddress) : String :=
  a.spell .lower '-'

/-- Whether an address names a group of interfaces: the lowest bit of its
first octet is set.  The broadcast address is one of these. -/
def isGroup (a : MacAddress) : Bool :=
  a.octets.head?.any fun b => b &&& 1 != 0

/-- Whether a device may carry an address. -/
def isUsable (a : MacAddress) : Bool :=
  !a.isGroup && a != zero

end MacAddress
end SoftNic
