import SoftNic.Event
import SoftNic.Link

/-! # Reports

What a session tells after each command: the reply, the state of every named
object, and the events since the command began.
-/
namespace SoftNic
namespace Session

/-- What is shown of a device. -/
structure DeviceInfo where
  name : String
  address : MacAddress
  weight : Nat
  up : Bool

/-- The reply to a command. -/
inductive Reply
  /-- There is nothing to tell. -/
  | nothing
  | ok
  | flag (b : Bool)
  | text (s : String)
  | frame (f : Option Frame)
  | leftovers (l : Leftovers)
  | settings (s : Settings)
  | device (i : DeviceInfo)
  | endpoint (i : DeviceInfo)
  /-- A transfer to the wire, with the frames if they were kept. -/
  | drained (count : Nat) (frames : Option (List Frame))
  /-- A poll pass, with the frames handed over. -/
  | pass (p : Pass) (frames : List Frame)
  | link (o : LinkOutcome)
  | capabilities (c : Capabilities)
  | refused (r : Refusal)
  | rejected (r : Rejection)
  | configError (e : ConfigError)
  | fault (f : Fault)
  /-- No object of the right kind has that name. -/
  | unknown (name : String)

/-- What is shown of a named object. -/
inductive View
  | nic (n : Nic)
  /-- How often a handler or hook was called. -/
  | calls (s : Signal)
  | context (phase : PollPhase) (request : Signal)
  | peer (c : Counters)
  | device (i : DeviceInfo) (phase : PollPhase) (request : Signal) (c : Counters)
  | endpoint (i : DeviceInfo) (phase : PollPhase) (backlog : Nat) (c : Counters)

/-- What a session tells after one command. -/
structure Step where
  reply : Reply
  /-- Every named object. -/
  views : List (String × View)
  /-- Oldest event first. -/
  events : List Event
  /-- For a transfer that ran commands inside, what they told: a row of steps
  for each frame that had commands. -/
  nested : Option (List (List Step))

end Session
end SoftNic
