import SoftNic.Bench.Endpoint
import SoftNic.Bench.Wire
import SoftNic.Session.Report

/-! # Sessions

A session is a bench together with names for some of its parts.  There is one
space of names.  Giving a name away again drops the object that had it, and a
peer that is dropped lets go of its card.
-/
namespace SoftNic

/-- What a name stands for. -/
inductive Session.Object
  | nic (n : Handle Nic)
  | handler (calls : Handle Signal)
  | hook (calls : Handle Signal)
  | context (c : Handle PollContext)
  | peer (p : Handle Peer)
  | device (d : Handle Device)
  | endpoint (e : Handle Endpoint)
  deriving DecidableEq

/-- A bench with names for some of its parts. -/
structure Session where
  bench : Bench := {}
  names : List (String × Session.Object) := []

namespace Session

/-- The object of that name. -/
def find? (s : Session) (name : String) : Option Object :=
  (s.names.find? fun e => e.1 == name).map (·.2)

/-- Drop the object of that name, if there is one. -/
def drop (s : Session) (name : String) : Session :=
  let names := s.names.filter fun e => e.1 != name
  match s.find? name with
  | some (.peer p) => ⟨s.bench.detachPeer p, names⟩
  | _ => ⟨s.bench, names⟩

/-- Give a name to an object.  The one that had the name before is dropped. -/
def name (s : Session) (name : String) (o : Object) : Session :=
  let s := s.drop name
  { s with names := (name, o) :: s.names }

/-- The card of that name. -/
def nic? (s : Session) (name : String) : Option (Handle Nic) :=
  match s.find? name with
  | some (.nic n) => some n
  | _ => none

/-- The hook of that name. -/
def hook? (s : Session) (name : String) : Option (Handle Signal) :=
  match s.find? name with
  | some (.hook h) => some h
  | _ => none

/-- The poll context of that name; a device's or an endpoint's name stands for
its context. -/
def context? (s : Session) (name : String) : Option (Handle PollContext) :=
  match s.find? name with
  | some (.context c) => some c
  | some (.device d) => some (s.bench.device d).context
  | some (.endpoint e) => some (s.bench.device (s.bench.endpoint e).device).context
  | _ => none

/-- The peer of that name. -/
def peer? (s : Session) (name : String) : Option (Handle Peer) :=
  match s.find? name with
  | some (.peer p) => some p
  | _ => none

/-- The device of that name. -/
def device? (s : Session) (name : String) : Option (Handle Device) :=
  match s.find? name with
  | some (.device d) => some d
  | _ => none

/-- The endpoint of that name. -/
def endpoint? (s : Session) (name : String) : Option (Handle Endpoint) :=
  match s.find? name with
  | some (.endpoint e) => some e
  | _ => none

/-- What is to be told of a device. -/
def deviceInfo (b : Bench) (d : Handle Device) : DeviceInfo :=
  let x := b.device d
  ⟨x.name.text, x.address, x.weight, b.isUp d⟩

/-- What is shown of an object. -/
def view (b : Bench) : Object → View
  | .nic n => .nic (b.nic n)
  | .handler s => .calls (b.signal s)
  | .hook s => .calls (b.signal s)
  | .context c => .context (b.context c).phase (b.signal (b.context c).request)
  | .peer p => .peer (b.peer p).counters
  | .device d =>
    let c := b.context (b.device d).context
    .device (deviceInfo b d) c.phase (b.signal c.request) (b.device d).counters
  | .endpoint e =>
    let d := (b.endpoint e).device
    .endpoint (deviceInfo b d) (b.context (b.device d).context).phase
      (b.endpoint e).backlog.length (b.device d).counters

/-- What is shown of every named object. -/
def views (s : Session) : List (String × View) :=
  s.names.map fun e => (e.1, view s.bench e.2)

end Session
end SoftNic
