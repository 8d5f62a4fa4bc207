/-! # Interface statistics

Every interface, network card and wire end keeps the same eight 64-bit
counters.  They wrap around at the top.
-/
namespace SoftNic

/-- Eight wrapping 64-bit counters. -/
structure Counters where
  txPackets : UInt64 := 0
  txBytes : UInt64 := 0
  txDropped : UInt64 := 0
  txErrors : UInt64 := 0
  rxPackets : UInt64 := 0
  rxBytes : UInt64 := 0
  rxDropped : UInt64 := 0
  rxErrors : UInt64 := 0
  deriving DecidableEq, Repr, Inhabited

namespace Counters

/-- All counters at zero. -/
def zero : Counters := {}

/-- A frame of the given length was sent. -/
def sent (c : Counters) (length : Nat) : Counters :=
  { c with txPackets := c.txPackets + 1, txBytes := c.txBytes + UInt64.ofNat length }

/-- A frame of the given length was received. -/
def received (c : Counters) (length : Nat) : Counters :=
  { c with rxPackets := c.rxPackets + 1, rxBytes := c.rxBytes + UInt64.ofNat length }

/-- A frame to be sent was refused. -/
def sendDropped (c : Counters) : Counters :=
  { c with txDropped := c.txDropped + 1 }

/-- An arriving frame was refused. -/
def receiveDropped (c : Counters) : Counters :=
  { c with rxDropped := c.rxDropped + 1 }

/-- A frame to be sent was unfit to be sent. -/
def sendFailed (c : Counters) : Counters :=
  { c with txErrors := c.txErrors + 1 }

/-- A reception was announced and did not happen. -/
def receiveFailed (c : Counters) : Counters :=
  { c with rxErrors := c.rxErrors + 1 }

/-- The counters in the order in which reports list them: four for sending,
then four for receiving. -/
def toList (c : Counters) : List UInt64 :=
  [c.txPackets, c.txBytes, c.txDropped, c.txErrors,
   c.rxPackets, c.rxBytes, c.rxDropped, c.rxErrors]

end Counters
end SoftNic
