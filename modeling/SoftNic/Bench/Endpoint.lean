import SoftNic.Bench.Interface
import SoftNic.Link

/-! # Endpoints

An endpoint is a device driven from a run loop.  Received frames land in a
backlog.  Each turn of the loop runs at most one poll pass, and only when one
was asked for; asking for a frame takes a turn when the backlog is empty.
-/
namespace SoftNic
namespace Bench

/-- Put an endpoint on the bench that drives the given card. -/
def addEndpoint (b : Bench) (s : Settings) (n : Handle Nic) : Handle Endpoint × Bench :=
  let (request, b) := b.addSignal (.flag false)
  let (device, b) := b.addDevice s n request
  let (h, endpoints) := b.endpoints.add { device, request }
  (h, { b with endpoints })

/-- Make an endpoint that drives a card of the bench, if its settings keep the
limits. -/
def newEndpoint (b : Bench) (s : Settings) (n : Handle Nic) :
    Except ConfigError (Handle Endpoint × Bench) :=
  match s.checked with
  | .error e => .error e
  | .ok s => .ok (b.addEndpoint s n)

/-- Bring an endpoint up. -/
def openEndpoint (b : Bench) (e : Handle Endpoint) : Bench :=
  b.openDevice (b.endpoint e).device

/-- Bring an endpoint down.  Its backlog is released and a request that is
still pending is dropped. -/
def closeEndpoint (b : Bench) (e : Handle Endpoint) : Bench × Except Fault Unit :=
  match b.closeDevice (b.endpoint e).device with
  | (b, .error f) => (b, .error f)
  | (b, .ok ()) =>
    let b := b.modifyEndpoint e fun x => { x with backlog := [] }
    ((b.takeSignal (b.endpoint e).request).1, .ok ())

/-- Put a frame behind the backlog of an endpoint. -/
def enqueueBacklog (e : Handle Endpoint) : Sink Unit := fun f (b, g) =>
  (b.modifyEndpoint e fun x => { x with backlog := x.backlog ++ [f] }, g)

/-- One turn of the run loop. -/
def turnEndpoint (b : Bench) (e : Handle Endpoint) : Bench × Except Fault Unit :=
  let (b, asked) := b.takeSignal (b.endpoint e).request
  if asked then
    match pollDevice (b.endpoint e).device (enqueueBacklog e) (b, ()) with
    | ((b, ()), .ok _) => (b, .ok ())
    | ((b, ()), .error f) => (b, .error f)
  else (b, .ok ())

/-- Send a frame. -/
def sendEndpoint (b : Bench) (e : Handle Endpoint) (f : Frame) : Bench × Except Refusal Unit :=
  b.send (b.endpoint e).device f

/-- Take the oldest frame of the backlog. -/
def popBacklog (b : Bench) (e : Handle Endpoint) : Bench × Option Frame :=
  match (b.endpoint e).backlog with
  | [] => (b, none)
  | f :: rest => (b.modifyEndpoint e fun x => { x with backlog := rest }, some f)

/-- The next received frame, if there is one. -/
def receiveEndpoint (b : Bench) (e : Handle Endpoint) : Bench × Except Fault (Option Frame) :=
  let (b, turn) := if (b.endpoint e).backlog.isEmpty then b.turnEndpoint e else (b, .ok ())
  match turn with
  | .error f => (b, .error f)
  | .ok () =>
    let (b, f) := b.popBacklog e
    (b, .ok f)

/-- An endpoint as a link driver. -/
def endpointLink (e : Handle Endpoint) : LinkDriver Bench where
  send := fun b f => b.sendEndpoint e f
  receive := fun b =>
    match b.receiveEndpoint e with
    | (b, .ok f) => (b, .ok (.ok f))
    | (b, .error f) => (b, .error f)
  isUp := fun b => b.isUp (b.endpoint e).device
  note := fun b event => b.record (.link event)

end Bench

/-- What a device offers to a stack: frames up to its limit, one at a time. -/
def Device.capabilities : Capabilities :=
  ⟨Device.frameLimit, some 1, true⟩

end SoftNic
