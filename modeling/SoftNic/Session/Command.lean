import SoftNic.Parts

/-! # Commands

A session works on a bench through names.  An `Action` is one thing done to
one named object; a `Command` is an action or a transfer.  A transfer may say
what is to be done inside it: its list `each` holds, for the first frame, the
second and so on, the commands that are run while that frame is handed over.
-/
namespace SoftNic
namespace Session

/-- The settings that replace standard ones. -/
structure Overrides where
  name : Option InterfaceName := none
  address : Option MacAddress := none
  txRing : Option Nat := none
  rxRing : Option Nat := none
  weight : Option Nat := none

/-- Where settings come from. -/
inductive SettingsSource
  /-- A document, which is read and checked. -/
  | document (text : String)
  /-- The standard settings with some of them replaced and none checked. -/
  | overrides (o : Overrides)

namespace SettingsSource

/-- The settings of a source. -/
def resolve : SettingsSource → List Settings.Notice × Except ConfigFailure Settings
  | document text => Settings.ofText text
  | overrides o =>
    let s := Settings.standard
    ([], .ok
      { name := o.name.getD s.name
        address := o.address.getD s.address
        txRing := o.txRing.getD s.txRing
        rxRing := o.rxRing.getD s.rxRing
        weight := o.weight.getD s.weight })

/-- Check the settings of a source against the limits. -/
def validate (source : SettingsSource) : List Settings.Notice × Except ConfigFailure Unit :=
  let (notices, result) := source.resolve
  (notices, result.bind fun s => Document.refuse s.validate)

end SettingsSource

/-- What a handler does, with names for the contexts. -/
inductive NamedAction
  | arm
  | disarm
  | schedule (context : String)

/-- What is done to a card. -/
inductive NicAction
  | setUp
  | bringUp
  | shutDown
  | tearDown
  | rearm
  | mask
  | removeHandler
  | clearHook
  | setHook (hook : String)
  | clearHookIf (hook : String)
  | installHandler (handler : String) (actions : List NamedAction)
  | transmit (f : Frame)
  | deliver (f : Frame)
  | receive

/-- What is done to a poll context. -/
inductive ContextAction
  | enable
  | disable
  | schedule
  | describe

/-- What is done to a peer. -/
inductive PeerAction
  | transmit (f : Frame)
  | takePending
  | cardPhase
  | loopback (budget : Nat) (other : String)
  | drop

/-- What is done to a device. -/
inductive DeviceAction
  | info
  | up
  | down
  | send (f : Frame)
  | setAddress (a : MacAddress)

/-- What is done to an endpoint. -/
inductive EndpointAction
  | up
  | down
  | deviceUp
  | deviceDown
  | send (f : Frame)
  | receive
  | turn
  | info
  | setAddress (a : MacAddress)
  /-- Wrap the endpoint anew as a link; nothing of it changes. -/
  | rewrap
  /-- Receive as a link does, and answer with the given frame. -/
  | linkReceive (answer : Option Frame)
  /-- Ask to transmit as a link does, and send the given frame. -/
  | linkTransmit (f : Option Frame)
  | capabilities

/-- One thing done to one named object. -/
inductive Action
  | newNic (name : String) (tx rx : Nat)
  | newNicFrom (name : String) (source : SettingsSource)
  | newHook (name : String)
  | newContext (name : String) (request : Signal)
  | newPeer (name nic : String)
  | newDevice (name nic : String) (source : SettingsSource) (request : Signal)
  | newEndpoint (name nic : String) (source : SettingsSource)
  | readSettings (source : SettingsSource)
  | takeRequest (name : String)
  | nic (name : String) (a : NicAction)
  | context (name : String) (a : ContextAction)
  | peer (name : String) (a : PeerAction)
  | device (name : String) (a : DeviceAction)
  | endpoint (name : String) (a : EndpointAction)

/-- Which ring a transfer empties. -/
inductive Source
  /-- A card's transmit ring, on behalf of nobody. -/
  | card (nic : String) (budget : Nat)
  /-- A card's transmit ring, on behalf of a peer. -/
  | peer (peer : String) (budget : Nat)
  /-- A card's receive ring, under a poll context. -/
  | context (context nic : String) (budget : Nat)
  /-- The receive ring of a device's card, under the device's context. -/
  | device (device : String)

/-- One command of a session. -/
inductive Command
  | action (a : Action)
  /-- A transfer.  With `ifAsked` it runs only if its request signal was
  raised, and takes that first. -/
  | transfer (source : Source) (ifAsked : Bool) (each : Option (List (List Command)))

end Session
end SoftNic
