/-! # Frames

A frame is the byte string that crosses the wire, beginning with its Ethernet
header.
-/
namespace SoftNic

/-- The bytes of one Ethernet frame. -/
structure Frame where
  bytes : List UInt8
  deriving DecidableEq, Repr, Inhabited

namespace Frame

/-- The number of bytes. -/
def length (f : Frame) : Nat :=
  f.bytes.length

/-- Whether there are no bytes at all. -/
def isEmpty (f : Frame) : Bool :=
  f.length == 0

/-- A frame of zeros, to be filled in place. -/
def zeroed (n : Nat) : Frame :=
  ⟨List.replicate n 0⟩

/-- Overwrite one byte.  A position past the end changes nothing. -/
def write (f : Frame) (position : Nat) (byte : UInt8) : Frame :=
  ⟨f.bytes.set position byte⟩

@[simp] theorem length_zeroed (n : Nat) : (zeroed n).length = n := by
  simp [zeroed, length]

@[simp] theorem length_write (f : Frame) (position : Nat) (byte : UInt8) :
    (f.write position byte).length = f.length := by
  simp [write, length]

end Frame
end SoftNic
