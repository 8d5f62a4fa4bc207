import SoftNic.Dissection.Summary
import SoftNic.Parts
import SoftNic.Refusal

/-! # Events

Everything of note that happens on a bench is an event.  Some events have a
line in the log, with a severity; the others have none and serve to read the
history of a run off its journal: which frames entered and left a ring, when a
handler ran, when a pass was asked for, begun or withdrawn.
-/
namespace SoftNic

/-- What happens at a card. -/
inductive NicEvent
  | setupIgnored
  | setupReleased (frames : Nat)
  | teardownWhileReady
  | teardownReturned (tx rx : Nat)
  | handlerReplaced
  | alreadyReady
  | initReleased (frames : Nat)
  | becameReady
  | shuttingDown
  | ringFull (direction : Direction) (length : Nat)
  | interruptRaised
  /-- A frame entered a ring. -/
  | accepted (direction : Direction) (frame : Frame)
  /-- Frames left a ring, in this order. -/
  | departed (direction : Direction) (frames : List Frame)
  /-- The interrupt line was armed by the driver. -/
  | rearmed
  /-- The installed handler ran, and did these things. -/
  | notified (actions : List HandlerAction)
  deriving DecidableEq

/-- What happens at a poll context. -/
inductive PollEvent
  | enableIgnored (phase : PollPhase)
  | pollIgnored
  | pollUnrequested (phase : PollPhase)
  | passDone (handled budget : Nat) (complete : Bool)
  /-- A pass was asked for. -/
  | requested
  /-- A pass began. -/
  | passBegan
  /-- The context was disabled while a pass was pending. -/
  | withdrawn
  deriving DecidableEq

/-- What happens at a device. -/
inductive DeviceEvent
  | opened
  | closed
  | released (frames : Nat)
  | addressSet (address : MacAddress)
  | frameTooLong (length limit : Nat)
  | polled
  /-- A frame passed by, on its way in the direction of that name. -/
  | frameSeen (direction : String) (frame : Frame)
  deriving DecidableEq

/-- What happens at the far end of a cable. -/
inductive PeerEvent
  | transmitRefused (reason : Refusal)
  | foundNothing
  deriving DecidableEq

/-- What happens between a network stack and its link driver. -/
inductive LinkEvent
  | sendFailed (length : Nat) (reason : Refusal)
  | receiveFailed (reason : Refusal)
  deriving DecidableEq

/-- What happens on a bench. -/
inductive Event
  | settings (notice : Settings.Notice)
  | nic (nic : Handle Nic) (event : NicEvent)
  | poll (context : Handle PollContext) (event : PollEvent)
  | device (name : String) (event : DeviceEvent)
  | peer (peer : Handle Peer) (event : PeerEvent)
  | link (event : LinkEvent)
  /-- A signal was raised. -/
  | raised (signal : Handle Signal)
  deriving DecidableEq

/-- A line of the log. -/
structure LogLine where
  severity : Severity
  message : String
  deriving DecidableEq

namespace LogLine

/-- A line with its severity in front. -/
def toText (l : LogLine) : String :=
  l.severity.word ++ " " ++ l.message

end LogLine

namespace NicEvent

/-- The line of an event at a card. -/
def line? : NicEvent → Option LogLine
  | setupIgnored => some ⟨.warn, "vnic: setup while ready ignored"⟩
  | setupReleased n => some ⟨.warn, s!"vnic: setup released {n} stale buffers"⟩
  | teardownWhileReady => some ⟨.error, "vnic: teardown while ready, shutting down first"⟩
  | teardownReturned tx rx => some ⟨.warn, s!"vnic: teardown returned {tx} tx / {rx} rx buffers"⟩
  | handlerReplaced => some ⟨.debug, "vnic: replaced interrupt handler"⟩
  | alreadyReady => some ⟨.debug, "vnic: already ready"⟩
  | initReleased n => some ⟨.warn, s!"vnic: init released {n} stale buffers"⟩
  | becameReady => some ⟨.info, "vnic: hardware ready"⟩
  | shuttingDown => some ⟨.info, "vnic: hardware shutting down"⟩
  | ringFull d n => some ⟨.warn, s!"vnic: {d.word} ring full, dropping {n} byte packet"⟩
  | interruptRaised => some ⟨.trace, "vnic: rx interrupt raised"⟩
  | accepted .. | departed .. | rearmed | notified .. => none

end NicEvent

namespace PollEvent

/-- The line of an event at a poll context. -/
def line? : PollEvent → Option LogLine
  | enableIgnored phase => some ⟨.debug, "napi: enable in state " ++ phase.name⟩
  | pollIgnored => some ⟨.debug, "napi: poll after disable ignored"⟩
  | pollUnrequested phase =>
    some ⟨.error, "napi: poll without a pending schedule (state " ++ phase.name ++ ")"⟩
  | passDone k budget complete =>
    some ⟨.trace, s!"napi: poll done {k} of {budget}, complete={complete}"⟩
  | requested | passBegan | withdrawn => none

end PollEvent

namespace DeviceEvent

/-- What an event at a device says after the name of the device. -/
def severityAndText : DeviceEvent → Severity × String
  | opened => (.info, "open")
  | closed => (.info, "close")
  | released n => (.debug, s!"released {n} queued buffers")
  | addressSet a => (.info, "set_mac " ++ a.toDashedText)
  | frameTooLong n limit => (.warn, s!"tx frame of {n} bytes exceeds {limit}")
  | polled => (.trace, "poll")
  | frameSeen direction f => (.debug, direction ++ " " ++ (Summary.ofBytes f.bytes).toText)

/-- The line of an event at the device of that name. -/
def line (name : String) (e : DeviceEvent) : LogLine :=
  let (severity, text) := e.severityAndText
  ⟨severity, name ++ ": " ++ text⟩

end DeviceEvent

namespace PeerEvent

/-- The line of an event at the far end of a cable. -/
def line : PeerEvent → LogLine
  | transmitRefused reason => ⟨.debug, "peer: transmit refused: " ++ reason.message⟩
  | foundNothing => ⟨.debug, "peer: poll found no buffers"⟩

end PeerEvent

namespace LinkEvent

/-- The line of an event between a stack and its link driver. -/
def line : LinkEvent → LogLine
  | sendFailed n reason => ⟨.debug, s!"stack: tx of {n} bytes failed: " ++ reason.message⟩
  | receiveFailed reason => ⟨.debug, "stack: receive failed: " ++ reason.message⟩

end LinkEvent

namespace Event

/-- The line of an event, if it has one. -/
def line? : Event → Option LogLine
  | settings n => some ⟨n.severity, n.message⟩
  | nic _ e => e.line?
  | poll _ e => e.line?
  | device name e => some (e.line name)
  | peer _ e => some e.line
  | link e => some e.line
  | raised _ => none

/-- The lines that a log kept at the given severity shows of a row of events,
in the order of the events. -/
def log (limit : Severity) (events : List Event) : List LogLine :=
  (events.filterMap line?).filter fun l => limit.shows l.severity

end Event
end SoftNic
