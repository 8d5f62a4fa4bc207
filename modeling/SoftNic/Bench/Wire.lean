import SoftNic.Bench.Transfer

/-! # The far end of a cable

A peer stands at the other end of a card's cable.  It sends frames to the card
and collects what the card has for it.  While it is attached, the card's hook
is a signal of its own; it leaves the hook alone when another has taken its
place.
-/
namespace SoftNic
namespace Bench

variable {γ : Type}

/-- Attach a new peer to a card. -/
def attachPeer (b : Bench) (n : Handle Nic) : Handle Peer × Bench :=
  let (signal, b) := b.addSignal (.flag false)
  let b := b.setHook n signal
  let (h, peers) := b.peers.add { nic := n, signal }
  (h, { b with peers })

/-- Detach a peer from its card. -/
def detachPeer (b : Bench) (p : Handle Peer) : Bench :=
  b.clearHookIf (b.peer p).nic (b.peer p).signal

/-- Change the counters of a peer. -/
def countPeer (b : Bench) (p : Handle Peer) (f : Counters → Counters) : Bench :=
  b.modifyPeer p fun x => { x with counters := f x.counters }

/-- A peer sends a frame to its card. -/
def peerTransmit (b : Bench) (p : Handle Peer) (f : Frame) : Bench × Except Refusal Unit :=
  match b.deliver (b.peer p).nic f with
  | (b, .ok ()) => (b.countPeer p (·.sent f.length), .ok ())
  | (b, .error r) =>
    let b := b.countPeer p Counters.sendDropped
    (b.record (.peer p (.transmitRefused r.reason)), .error r.reason)

/-- A wire that counts each frame for the peer before it carries it on. -/
def collecting (p : Handle Peer) (wire : Sink γ) : Sink γ := fun f (b, g) =>
  wire f (b.countPeer p (·.received f.length), g)

/-- A peer collects at most the given number of frames.  Finding none counts
as a failed reception: somebody had signalled that there were some. -/
def pollPeer (p : Handle Peer) (budget : Nat) (wire : Sink γ) (s : Bench × γ) :
    (Bench × γ) × Nat :=
  let ((b, g), k) := drain (s.1.peer p).nic budget (collecting p wire) s
  let b :=
    if k = 0 ∧ 0 < budget then
      (b.record (.peer p .foundNothing)).countPeer p Counters.receiveFailed
    else b
  ((b, g), k)

/-- A wire that has a peer send every frame to its card.  What the card
refuses is lost. -/
def loopback (p : Handle Peer) : Sink γ := fun f (b, g) =>
  ((b.peerTransmit p f).1, g)

end Bench
end SoftNic
