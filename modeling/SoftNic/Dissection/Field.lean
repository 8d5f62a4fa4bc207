/-! # Fields of a byte string

A header field is a span of bytes at a fixed distance from the beginning of
the header, most significant byte first.  A span that is not wholly inside the
byte string has no value; so a reader made of these functions looks only at
bytes that are there.
-/
namespace SoftNic
namespace Dissection

/-- The bytes of a span, if all of them are there. -/
def span? (bs : List UInt8) (start count : Nat) : Option (List UInt8) :=
  if start + count ≤ bs.length then some ((bs.drop start).take count) else none

/-- The number that a span denotes, most significant byte first. -/
def bigEndian (bs : List UInt8) : Nat :=
  bs.foldl (fun n b => 256 * n + b.toNat) 0

/-- The byte at a position. -/
def byte? (bs : List UInt8) (start : Nat) : Option UInt8 :=
  (span? bs start 1).map fun s => UInt8.ofNat (bigEndian s)

/-- The two-byte field at a position. -/
def word? (bs : List UInt8) (start : Nat) : Option UInt16 :=
  (span? bs start 2).map fun s => UInt16.ofNat (bigEndian s)

/-- The four-byte field at a position. -/
def long? (bs : List UInt8) (start : Nat) : Option UInt32 :=
  (span? bs start 4).map fun s => UInt32.ofNat (bigEndian s)

variable {bs s : List UInt8} {start count : Nat}

theorem span?_eq_some_iff :
    span? bs start count = some s ↔
      start + count ≤ bs.length ∧ s = (bs.drop start).take count := by
  unfold span?
  split
  · next h => simp [h, eq_comm]
  · next h => simp [h]

/-- A span survives when more bytes follow. -/
theorem span?_append (h : span? bs start count = some s) (more : List UInt8) :
    span? (bs ++ more) start count = some s := by
  obtain ⟨hle, rfl⟩ := span?_eq_some_iff.mp h
  rw [span?_eq_some_iff, List.length_append, List.drop_append_of_le_length (by omega),
    List.take_append_of_le_length (by rw [List.length_drop]; omega)]
  exact ⟨by omega, rfl⟩

end Dissection
end SoftNic
