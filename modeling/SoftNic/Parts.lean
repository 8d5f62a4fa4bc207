import SoftNic.Counters
import SoftNic.Fault
import SoftNic.Frame
import SoftNic.Gate
import SoftNic.Ring
import SoftNic.Settings
import SoftNic.Signal
import SoftNic.Store

/-! # The parts of a bench

A bench is a number of simulated network cards together with what is connected
to them on either side.  Each part is a plain record; where one part refers to
another it holds the other's handle.
-/
namespace SoftNic

/-- The two directions in which a card moves frames, from the driver's point
of view. -/
inductive Direction
  | transmit
  | receive
  deriving DecidableEq

namespace Direction

/-- The short name that messages use. -/
def word : Direction → String
  | transmit => "tx"
  | receive => "rx"

end Direction

/-- Decides when polled reception runs.  A context that is asked for a pass
raises its request signal and waits until somebody runs the pass. -/
structure PollContext where
  phase : PollPhase := .disabled
  /-- Raised each time a pass is asked for. -/
  request : Handle Signal
  deriving DecidableEq

instance : Inhabited PollContext := ⟨{ request := ⟨0⟩ }⟩

namespace PollContext

/-- Whether a pass has been requested and has not begun. -/
def isScheduled (c : PollContext) : Bool :=
  c.phase == .scheduled

/-- The text under which a context shows itself. -/
def describe (c : PollContext) : String :=
  "Napi \x7b state: " ++ c.phase.name ++ " \x7d"

end PollContext

/-- One thing that an interrupt handler does. -/
inductive HandlerAction
  /-- Raise a signal. -/
  | raise (signal : Handle Signal)
  /-- Arm the interrupt line of the card that interrupts. -/
  | arm
  /-- Disarm the interrupt line of the card that interrupts. -/
  | disarm
  /-- Ask a context for a pass. -/
  | schedule (context : Handle PollContext)
  deriving DecidableEq

/-- A simulated network card: two rings of frames behind a gate.  The driver
puts frames into the transmit ring and takes them from the receive ring; the
wire does the opposite. -/
structure Nic where
  gate : Gate := {}
  tx : Ring Frame
  rx : Ring Frame
  /-- What happens, in order, when an arriving frame interrupts. -/
  handler : Option (List HandlerAction) := none
  /-- Raised each time a frame was put into the transmit ring. -/
  hook : Option (Handle Signal) := none
  counters : Counters := {}

namespace Nic

/-- A card with rings of the given sizes.  The transmit ring is made first. -/
def ofSizes (tx rx : Nat) : Except Fault Nic :=
  match Ring.ofCapacity tx with
  | .error f => .error f
  | .ok tx =>
    match Ring.ofCapacity rx with
    | .error f => .error f
    | .ok rx => .ok { tx, rx }

theorem ofSizes_eq_ok_iff {tx rx : Nat} {x : Nic} :
    ofSizes tx rx = .ok x ↔ ∃ t r, Ring.ofCapacity tx = .ok t ∧ Ring.ofCapacity rx = .ok r ∧
      x = { tx := t, rx := r } := by
  unfold ofSizes
  constructor
  · intro h
    split at h
    · cases h
    · next t ht =>
      split at h
      · cases h
      · next r hr => exact ⟨t, r, ht, hr, (Except.ok.inj h).symm⟩
  · rintro ⟨t, r, ht, hr, rfl⟩
    rw [ht, hr]

instance : Inhabited Nic := ⟨{ tx := default, rx := default }⟩

/-- The ring of a direction. -/
def ring (n : Nic) : Direction → Ring Frame
  | .transmit => n.tx
  | .receive => n.rx

/-- The card with another ring for a direction. -/
def setRing (n : Nic) : Direction → Ring Frame → Nic
  | .transmit, r => { n with tx := r }
  | .receive, r => { n with rx := r }

/-- Count a frame that was put into the ring of a direction. -/
def countAccepted (n : Nic) (d : Direction) (length : Nat) : Nic :=
  match d with
  | .transmit => { n with counters := n.counters.sent length }
  | .receive => { n with counters := n.counters.received length }

/-- Count a frame that was refused. -/
def countRefused (n : Nic) (d : Direction) : Nic :=
  match d with
  | .transmit => { n with counters := n.counters.sendDropped }
  | .receive => { n with counters := n.counters.receiveDropped }

/-- A new card is uninitialized and masked, its rings are empty and nothing is
installed. -/
theorem new_of_ofSizes {tx rx : Nat} {x : Nic} (h : ofSizes tx rx = .ok x) :
    x.gate = {} ∧ x.handler = none ∧ x.hook = none ∧ ∀ d, (x.ring d).toList = [] := by
  obtain ⟨t, r, ht, hr, rfl⟩ := ofSizes_eq_ok_iff.mp h
  refine ⟨rfl, rfl, rfl, fun d => ?_⟩
  cases d
  · exact Ring.toList_of_ofCapacity ht
  · exact Ring.toList_of_ofCapacity hr

@[simp] theorem ring_setRing_self (n : Nic) (d : Direction) (r : Ring Frame) :
    (n.setRing d r).ring d = r := by
  cases d <;> rfl

theorem ring_setRing_of_ne (n : Nic) {d e : Direction} (h : e ≠ d) (r : Ring Frame) :
    (n.setRing d r).ring e = n.ring e := by
  cases d <;> cases e <;> first | rfl | exact absurd rfl h

end Nic

/-- A network interface: the driver of one card. -/
structure Device where
  name : InterfaceName
  address : MacAddress
  nic : Handle Nic
  context : Handle PollContext
  /-- The most frames that one pass handles. -/
  weight : Nat
  counters : Counters := {}
  deriving DecidableEq

instance : Inhabited Device :=
  ⟨{ name := default, address := default, nic := ⟨0⟩, context := ⟨0⟩, weight := 0 }⟩

/-- What is at the other end of a card's cable.  Its counters are kept from
its own point of view: it sends what the card receives. -/
structure Peer where
  nic : Handle Nic
  /-- Raised each time the card has something for the wire. -/
  signal : Handle Signal
  counters : Counters := {}
  deriving DecidableEq

instance : Inhabited Peer := ⟨{ nic := ⟨0⟩, signal := ⟨0⟩ }⟩

/-- A device that is driven from a run loop.  Received frames wait in a
backlog until they are asked for. -/
structure Endpoint where
  device : Handle Device
  /-- Oldest frame first. -/
  backlog : List Frame := []
  /-- The request signal of the device's poll context. -/
  request : Handle Signal
  deriving DecidableEq

instance : Inhabited Endpoint := ⟨{ device := ⟨0⟩, request := ⟨0⟩ }⟩

/-- The frames that were left in the rings of a card when it was torn
down. -/
structure Leftovers where
  tx : List Frame
  rx : List Frame
  deriving DecidableEq

namespace Leftovers

/-- The number of frames. -/
def length (l : Leftovers) : Nat :=
  l.tx.length + l.rx.length

/-- Whether there are no frames. -/
def isEmpty (l : Leftovers) : Bool :=
  l.tx.isEmpty && l.rx.isEmpty

end Leftovers

/-- The outcome of one poll pass. -/
structure Pass where
  /-- How many frames were handed over. -/
  handled : Nat
  /-- Whether the ring was seen empty before the budget was used up. -/
  complete : Bool
  deriving DecidableEq

end SoftNic
