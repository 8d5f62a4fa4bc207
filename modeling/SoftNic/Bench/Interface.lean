import SoftNic.Bench.Transfer

/-! # Devices

A device drives one card as a network interface.  Opening it installs a
handler that masks interrupts and asks for a poll pass, then brings the card
up; closing it undoes all of that and releases whatever is queued.  The device
keeps counters of its own, from its stack's point of view.
-/
namespace SoftNic

namespace Device

/-- The longest frame that a device sends: 1500 bytes behind an Ethernet
header. -/
def frameLimit : Nat := 1514

/-- What a device has its card do when a frame arrives. -/
def handler (d : Device) : List HandlerAction :=
  [.disarm, .schedule d.context]

end Device

namespace Bench

variable {γ : Type}

/-- Put a device on the bench that drives the given card and asks for passes
through the given signal. -/
def addDevice (b : Bench) (s : Settings) (n : Handle Nic) (request : Handle Signal) :
    Handle Device × Bench :=
  let (context, b) := b.addContext request
  let (h, devices) := b.devices.add
    { name := s.name, address := s.address, nic := n, context, weight := s.weight }
  (h, { b with devices })

/-- Make a device that drives a card of the bench, if its settings keep the
limits. -/
def newDevice (b : Bench) (s : Settings) (n : Handle Nic) (request : Handle Signal) :
    Except ConfigError (Handle Device × Bench) :=
  match s.checked with
  | .error e => .error e
  | .ok s => .ok (b.addDevice s n request)

/-- Put a card on the bench, sized by settings, if they keep the limits. -/
def buildNic (b : Bench) (s : Settings) : Except ConfigFailure (Handle Nic × Bench) :=
  match s.checked with
  | .error e => .error (.refused e)
  | .ok s =>
    match Nic.ofSizes s.txRing s.rxRing with
    | .error f => .error (.fault f)
    | .ok x => .ok (b.addNic x)

/-- Make a device with a card of its own, sized by its settings. -/
def buildDevice (b : Bench) (s : Settings) (request : Handle Signal) :
    Except ConfigFailure (Handle Device × Bench) :=
  match s.checked with
  | .error e => .error (.refused e)
  | .ok s =>
    match Nic.ofSizes s.txRing s.rxRing with
    | .error f => .error (.fault f)
    | .ok x =>
      let (n, b) := b.addNic x
      match b.newDevice s n request with
      | .error e => .error (.refused e)
      | .ok made => .ok made

/-- Write down an event at a device. -/
def recordDevice (b : Bench) (d : Handle Device) (e : DeviceEvent) : Bench :=
  b.record (.device (b.device d).name.text e)

/-- Change the counters of a device. -/
def countDevice (b : Bench) (d : Handle Device) (f : Counters → Counters) : Bench :=
  b.modifyDevice d fun x => { x with counters := f x.counters }

/-- Whether a device is up: its card is ready. -/
def isUp (b : Bench) (d : Handle Device) : Bool :=
  (b.nic (b.device d).nic).gate.isReady

/-- Bring a device up. -/
def openDevice (b : Bench) (d : Handle Device) : Bench :=
  let x := b.device d
  let b := b.recordDevice d .opened
  let b := b.setUp x.nic
  let b := b.enableContext x.context
  let b := b.installHandler x.nic x.handler
  b.bringUp x.nic

/-- Bring a device down and release every frame that is still queued. -/
def closeDevice (b : Bench) (d : Handle Device) : Bench × Except Fault Unit :=
  let x := b.device d
  let b := b.recordDevice d .closed
  let b := b.shutDown x.nic
  let b := b.removeHandler x.nic
  match b.disableContext x.context with
  | (b, .error f) => (b, .error f)
  | (b, .ok ()) =>
    let (b, left) := b.tearDown x.nic
    let b := b.recordIf (!left.isEmpty) (.device x.name.text (.released left.length))
    (b.countDevice d fun _ => Counters.zero, .ok ())

/-- Change the address of a device.  An address that is not usable is
refused. -/
def setAddress (b : Bench) (d : Handle Device) (a : MacAddress) : Bench × Except Refusal Unit :=
  if a.isUsable then
    let b := b.recordDevice d (.addressSet a)
    (b.modifyDevice d fun x => { x with address := a }, .ok ())
  else (b, .error .addressNotAvailable)

/-- Send a frame.  One that is too long never reaches the card. -/
def send (b : Bench) (d : Handle Device) (f : Frame) : Bench × Except Refusal Unit :=
  let b := b.recordDevice d (.frameSeen Direction.transmit.word f)
  if f.length > Device.frameLimit then
    let b := b.recordDevice d (.frameTooLong f.length Device.frameLimit)
    (b.countDevice d Counters.sendFailed, .error (.frameTooLong f.length))
  else
    match b.transmit (b.device d).nic f with
    | (b, .ok ()) => (b.countDevice d (·.sent f.length), .ok ())
    | (b, .error r) => (b.countDevice d Counters.sendDropped, .error r.reason)

/-- A sink that shows each frame to the device before it passes it on. -/
def counting (d : Handle Device) (sink : Sink γ) : Sink γ := fun f (b, g) =>
  let b := b.recordDevice d (.frameSeen Direction.receive.word f)
  sink f (b.countDevice d (·.received f.length), g)

/-- Run a poll pass of a device, which hands at most its weight of received
frames to the stack. -/
def pollDevice (d : Handle Device) (sink : Sink γ) :
    Bench × γ → (Bench × γ) × Except Fault Pass
  | (b, g) =>
    let x := b.device d
    poll x.context x.nic x.weight (counting d sink) (b.recordDevice d .polled, g)

/-- One step of a run loop: if the device has asked for a pass since the last
look, run one.  The answer is that of the pass, if there was one. -/
def serve (d : Handle Device) (sink : Sink γ) :
    Bench × γ → (Bench × γ) × Option (Except Fault Pass)
  | (b, g) =>
    let (b, asked) := b.takeSignal (b.context (b.device d).context).request
    if asked then
      let (s, pass) := pollDevice d sink (b, g)
      (s, some pass)
    else ((b, g), none)

end Bench
end SoftNic
