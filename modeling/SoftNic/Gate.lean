/-! # The readiness gate

The gate of a network card says how far the hardware is in its life and
whether its interrupt line is armed.
-/
namespace SoftNic

/-- The life of the hardware. -/
inductive Phase
  /-- The rings are not live. -/
  | uninitialized
  /-- The rings are live and every operation is permitted. -/
  | ready
  /-- Queued frames may still be taken out and nothing new comes in. -/
  | shuttingDown
  deriving DecidableEq, Repr, Inhabited

namespace Phase

/-- The name under which reports show a phase. -/
def name : Phase → String
  | uninitialized => "Uninitialized"
  | ready => "Ready"
  | shuttingDown => "ShuttingDown"

/-- Whether queued frames may be taken out of the rings. -/
def canDrain (p : Phase) : Bool :=
  p != uninitialized

end Phase

/-- The phase of the hardware and the state of its interrupt line. -/
structure Gate where
  phase : Phase := .uninitialized
  /-- Whether an arriving frame interrupts. -/
  armed : Bool := false
  deriving DecidableEq, Repr, Inhabited

namespace Gate

/-- Whether the hardware is ready. -/
def isReady (g : Gate) : Bool :=
  g.phase == .ready

/-- Let arriving frames interrupt. -/
def arm (g : Gate) : Gate :=
  { g with armed := true }

/-- Keep arriving frames from interrupting. -/
def disarm (g : Gate) : Gate :=
  { g with armed := false }

end Gate
end SoftNic
