import SoftNic.Frame

/-! # Refusals

The device answers a request that it cannot serve with a reason.  When the
request carried a frame, the frame goes back to its owner together with the
reason: a `Rejection`.
-/
namespace SoftNic

/-- Why the device refuses a request. -/
inductive Refusal
  /-- The ring that the frame was for is full. -/
  | ringFull
  /-- The hardware is not ready. -/
  | notReady
  /-- The frame is longer than the interface sends. -/
  | frameTooLong (length : Nat)
  /-- The address is a group address or all zero. -/
  | addressNotAvailable
  deriving DecidableEq, Repr, Inhabited

namespace Refusal

/-- The wording of a refusal. -/
def message : Refusal → String
  | ringFull => "ring full, packet dropped"
  | notReady => "device not ready"
  | frameTooLong n => s!"frame too long: {n} bytes"
  | addressNotAvailable => "address not available"

/-- The name of the kind of a refusal. -/
def kind : Refusal → String
  | ringFull => "Dropped"
  | notReady => "NotReady"
  | frameTooLong _ => "FrameTooLong"
  | addressNotAvailable => "AddressNotAvailable"

/-- The kind of a refusal together with what it carries. -/
def describe : Refusal → String
  | frameTooLong n => s!"FrameTooLong({n})"
  | r => r.kind

end Refusal

/-- A frame that the device refused, handed back with the reason. -/
structure Rejection where
  reason : Refusal
  frame : Frame
  deriving DecidableEq, Repr, Inhabited

namespace Rejection

/-- A rejection reads as its reason. -/
def message (r : Rejection) : String :=
  r.reason.message

/-- A rejection shows its reason and hides the frame. -/
def describe (r : Rejection) : String :=
  "Rejected \x7b error: " ++ r.reason.describe ++ ", .. \x7d"

end Rejection
end SoftNic
