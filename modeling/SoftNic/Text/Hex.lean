/-! # Hexadecimal digits

Reading and writing of octets and of sixteen-bit words in hexadecimal.  Both
letter cases are read; which case is written is the caller's choice.
-/
namespace SoftNic
namespace Text

/-- The case of the digits above nine. -/
inductive DigitCase
  | lower
  | upper
  deriving DecidableEq, Repr

/-- The digit that stands for a value below sixteen. -/
def hexDigit (k : DigitCase) (n : Nat) : Char :=
  match k with
  | .lower => n.digitChar
  | .upper => n.digitChar.toUpper

/-- The value of a hexadecimal digit in either case. -/
def hexValue? (c : Char) : Option Nat :=
  if '0' ≤ c ∧ c ≤ '9' then some (c.toNat - 48)
  else if 'a' ≤ c ∧ c ≤ 'f' then some (c.toNat - 87)
  else if 'A' ≤ c ∧ c ≤ 'F' then some (c.toNat - 55)
  else none

/-- An octet as two digits. -/
def hexOctet (k : DigitCase) (b : UInt8) : List Char :=
  [hexDigit k (b.toNat / 16), hexDigit k (b.toNat % 16)]

/-- A sixteen-bit word as four digits. -/
def hexWord (k : DigitCase) (w : UInt16) : List Char :=
  hexOctet k (w >>> 8).toUInt8 ++ hexOctet k w.toUInt8

/-- The octet that exactly two digits stand for. -/
def octet? : List Char → Option UInt8
  | [h, l] =>
    match hexValue? h, hexValue? l with
    | some h, some l => some (UInt8.ofNat (16 * h + l))
    | _, _ => none
  | _ => none

/-- A byte string as digits, two to an octet and nothing between them. -/
def hexBytes (k : DigitCase) (bs : List UInt8) : List Char :=
  bs.flatMap (hexOctet k)

/-- The byte string that a row of digit pairs stands for. -/
def bytes? : List Char → Option (List UInt8)
  | [] => some []
  | h :: l :: cs =>
    match octet? [h, l], bytes? cs with
    | some b, some bs => some (b :: bs)
    | _, _ => none
  | [_] => none

theorem hexValue?_hexDigit (k : DigitCase) {n : Nat} (h : n < 16) :
    hexValue? (hexDigit k n) = some n := by
  have all : ∀ k : DigitCase, ∀ n : Fin 16, hexValue? (hexDigit k n.val) = some n.val := by
    intro k; cases k <;> decide
  exact all k ⟨n, h⟩

theorem hexValue?_lt {c : Char} {n : Nat} (h : hexValue? c = some n) : n < 16 := by
  simp only [hexValue?] at h
  have le_toNat {a b : Char} (hab : a ≤ b) : a.toNat ≤ b.toNat := hab
  split at h
  · next hc => have := le_toNat hc.2; simp at h this; omega
  · split at h
    · next hc => have := le_toNat hc.2; simp at h this; omega
    · split at h
      · next hc => have := le_toNat hc.2; simp at h this; omega
      · simp at h

/-- An octet reads back from either of its two spellings. -/
theorem octet?_hexOctet (k : DigitCase) (b : UInt8) : octet? (hexOctet k b) = some b := by
  have hb : b.toNat < 256 := b.toNat_lt
  have hh : b.toNat / 16 < 16 := by omega
  have hl : b.toNat % 16 < 16 := by omega
  have whole : 16 * (b.toNat / 16) + b.toNat % 16 = b.toNat := by omega
  simp only [hexOctet, octet?, hexValue?_hexDigit k hh, hexValue?_hexDigit k hl, whole,
    UInt8.ofNat_toNat]

/-- A byte string reads back from its digits. -/
theorem bytes?_hexBytes (k : DigitCase) (bs : List UInt8) : bytes? (hexBytes k bs) = some bs := by
  induction bs with
  | nil => rfl
  | cons b bs ih =>
    have hb := octet?_hexOctet k b
    rw [hexBytes] at ih
    simp only [hexOctet] at hb ih
    simp only [hexBytes, List.flatMap_cons, hexOctet, List.cons_append, List.nil_append,
      bytes?, hb, ih]

example : hexWord .upper 0x08fe = "08FE".toList := by decide

end Text
end SoftNic
