import SoftNic.Event

/-! # The bench

The bench holds every part and the journal of everything that has happened,
newest event first.  All of the library's operations are functions from a
bench to a bench, so a run is determined by the operations alone.
-/
namespace SoftNic

/-- Network cards, what is connected to them, and what has happened. -/
structure Bench where
  nics : Store Nic := {}
  contexts : Store PollContext := {}
  signals : Store Signal := {}
  devices : Store Device := {}
  peers : Store Peer := {}
  endpoints : Store Endpoint := {}
  /-- Newest event first. -/
  journal : List Event := []
  deriving Inhabited

namespace Bench

/-! ### Parts -/

/-- The card under a handle. -/
def nic (b : Bench) (n : Handle Nic) : Nic := b.nics.get n

/-- The poll context under a handle. -/
def context (b : Bench) (c : Handle PollContext) : PollContext := b.contexts.get c

/-- The signal under a handle. -/
def signal (b : Bench) (s : Handle Signal) : Signal := b.signals.get s

/-- The device under a handle. -/
def device (b : Bench) (d : Handle Device) : Device := b.devices.get d

/-- The far end under a handle. -/
def peer (b : Bench) (p : Handle Peer) : Peer := b.peers.get p

/-- The endpoint under a handle. -/
def endpoint (b : Bench) (e : Handle Endpoint) : Endpoint := b.endpoints.get e

/-- Change a card. -/
def modifyNic (b : Bench) (n : Handle Nic) (f : Nic → Nic) : Bench :=
  { b with nics := b.nics.modify n f }

/-- Change a poll context. -/
def modifyContext (b : Bench) (c : Handle PollContext) (f : PollContext → PollContext) : Bench :=
  { b with contexts := b.contexts.modify c f }

/-- Change a signal. -/
def modifySignal (b : Bench) (s : Handle Signal) (f : Signal → Signal) : Bench :=
  { b with signals := b.signals.modify s f }

/-- Change a device. -/
def modifyDevice (b : Bench) (d : Handle Device) (f : Device → Device) : Bench :=
  { b with devices := b.devices.modify d f }

/-- Change a far end. -/
def modifyPeer (b : Bench) (p : Handle Peer) (f : Peer → Peer) : Bench :=
  { b with peers := b.peers.modify p f }

/-- Change an endpoint. -/
def modifyEndpoint (b : Bench) (e : Handle Endpoint) (f : Endpoint → Endpoint) : Bench :=
  { b with endpoints := b.endpoints.modify e f }

/-! ### New parts -/

/-- Put a card on the bench. -/
def addNic (b : Bench) (n : Nic) : Handle Nic × Bench :=
  let (h, nics) := b.nics.add n
  (h, { b with nics })

/-- Put a signal on the bench. -/
def addSignal (b : Bench) (s : Signal) : Handle Signal × Bench :=
  let (h, signals) := b.signals.add s
  (h, { b with signals })

/-- Put a disabled poll context on the bench that raises the given signal. -/
def addContext (b : Bench) (request : Handle Signal) : Handle PollContext × Bench :=
  let (h, contexts) := b.contexts.add { request }
  (h, { b with contexts })

/-! ### The journal -/

/-- Write an event down. -/
def record (b : Bench) (e : Event) : Bench :=
  { b with journal := e :: b.journal }

/-- Write an event down if the condition holds. -/
def recordIf (b : Bench) (p : Bool) (e : Event) : Bench :=
  if p then b.record e else b

/-- The events since the journal had the given length, oldest first. -/
def eventsSince (b : Bench) (length : Nat) : List Event :=
  (b.journal.take (b.journal.length - length)).reverse

@[simp] theorem nic_record (b : Bench) (e : Event) (n : Handle Nic) :
    (b.record e).nic n = b.nic n := rfl

@[simp] theorem context_record (b : Bench) (e : Event) (c : Handle PollContext) :
    (b.record e).context c = b.context c := rfl

@[simp] theorem signal_record (b : Bench) (e : Event) (s : Handle Signal) :
    (b.record e).signal s = b.signal s := rfl

@[simp] theorem nic_modifyNic_self (b : Bench) (n : Handle Nic) (f : Nic → Nic) :
    (b.modifyNic n f).nic n = f (b.nic n) := by
  simp [modifyNic, nic]

theorem nic_modifyNic_of_ne (b : Bench) {n m : Handle Nic} (h : m ≠ n) (f : Nic → Nic) :
    (b.modifyNic n f).nic m = b.nic m :=
  b.nics.get_modify_of_ne h f

theorem nic_of_addNic {b b' : Bench} {x : Nic} {n : Handle Nic} (h : b.addNic x = (n, b')) :
    b'.nic n = x := by
  obtain ⟨rfl, rfl⟩ := Prod.mk.inj h
  exact b.nics.get_add_self x

@[simp] theorem context_modifyContext_self (b : Bench) (c : Handle PollContext)
    (f : PollContext → PollContext) : (b.modifyContext c f).context c = f (b.context c) := by
  simp [modifyContext, context]

@[simp] theorem signal_modifySignal_self (b : Bench) (s : Handle Signal) (f : Signal → Signal) :
    (b.modifySignal s f).signal s = f (b.signal s) := by
  simp [modifySignal, signal]

theorem signal_modifySignal_of_ne (b : Bench) {s t : Handle Signal} (h : t ≠ s)
    (f : Signal → Signal) : (b.modifySignal s f).signal t = b.signal t :=
  b.signals.get_modify_of_ne h f

end Bench
end SoftNic
