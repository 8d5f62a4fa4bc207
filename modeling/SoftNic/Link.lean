import SoftNic.Event

/-! # Link drivers

A link driver is what a network stack needs of an interface: send a frame,
receive one if there is one, and tell whether the link is up.  `LinkDriver`
says how these act on the driver's state.

The stack works with tokens.  A transmit token lets it send one frame, which
it fills in place: it names a length, is given that many zeros and returns the
frame to be sent.  Asking to transmit yields a token only while the link is up.
Receiving yields the frame received together with a transmit token, for the
answer.  A failure to send has nowhere to go and is only noted.
-/
namespace SoftNic

/-- What a network stack needs of an interface with states in `σ`. -/
structure LinkDriver (σ : Type) where
  send : σ → Frame → σ × Except Refusal Unit
  receive : σ → σ × Except Fault (Except Refusal (Option Frame))
  isUp : σ → Bool
  /-- Write down an event. -/
  note : σ → LinkEvent → σ

/-- What a link can do. -/
structure Capabilities where
  /-- Bytes of the longest frame. -/
  maxFrame : Nat
  /-- Frames that may be under way at once. -/
  burst : Option Nat
  ethernet : Bool
  deriving DecidableEq, Repr

/-- The right to send one frame. -/
inductive TransmitToken
  | token
  deriving DecidableEq, Repr

/-- What one use of a link came to. -/
inductive LinkOutcome
  /-- No token was to be had. -/
  | nothing
  /-- A frame was received.  If it was answered, `blank` is what the frame of
  the answer held before it was filled. -/
  | received (f : Frame) (blank : Option Frame)
  /-- A transmit token was had and not used. -/
  | unused
  /-- A frame was sent; `blank` is what it held before it was filled. -/
  | sent (blank : Frame)
  | fault (f : Fault)
  deriving DecidableEq

namespace LinkDriver

variable {σ α : Type} (d : LinkDriver σ)

/-- Ask to transmit. -/
def transmit? (s : σ) : Option TransmitToken :=
  if d.isUp s then some .token else none

/-- Ask for a received frame.  It comes with a transmit token. -/
def receive? (s : σ) : σ × Except Fault (Option (Frame × TransmitToken)) :=
  match d.receive s with
  | (s, .error f) => (s, .error f)
  | (s, .ok (.error r)) => (d.note s (.receiveFailed r), .ok none)
  | (s, .ok (.ok none)) => (s, .ok none)
  | (s, .ok (.ok (some f))) => (s, .ok (some (f, .token)))

/-- Use up a transmit token: fill a frame of the given length and send it.
The caller gets whatever the filling yields besides the frame. -/
def consume (_ : TransmitToken) (s : σ) (length : Nat) (fill : Frame → α × Frame) : σ × α :=
  let (a, f) := fill (Frame.zeroed length)
  match d.send s f with
  | (s, .ok ()) => (s, a)
  | (s, .error r) => (d.note s (.sendFailed length r), a)

/-- Use up a transmit token to send a frame of one's own.  The second part is
what the frame to be filled held before. -/
def sendBy (t : TransmitToken) (s : σ) (f : Frame) : σ × Frame :=
  d.consume t s f.length fun blank => (blank, f)

/-- Ask for a received frame and, if there is one, send the answer that is
given by the token that comes with it. -/
def receiveAnswering (s : σ) (answer : Option Frame) : σ × LinkOutcome :=
  match d.receive? s, answer with
  | (s, .error f), _ => (s, .fault f)
  | (s, .ok none), _ => (s, .nothing)
  | (s, .ok (some (f, _))), none => (s, .received f none)
  | (s, .ok (some (f, t))), some a =>
    let (s, blank) := d.sendBy t s a
    (s, .received f (some blank))

/-- Ask to transmit and, if that is granted, send the frame that is given. -/
def transmitting (s : σ) (f : Option Frame) : σ × LinkOutcome :=
  match d.transmit? s, f with
  | none, _ => (s, .nothing)
  | some _, none => (s, .unused)
  | some t, some f =>
    let (s, blank) := d.sendBy t s f
    (s, .sent blank)

/-- No token is to be had exactly while the link is down. -/
theorem transmit?_eq_none_iff {s : σ} : d.transmit? s = none ↔ d.isUp s = false := by
  simp [transmit?]

/-- A frame to be filled holds zeros, whatever becomes of it. -/
@[simp] theorem sendBy_snd (t : TransmitToken) (s : σ) (f : Frame) :
    (d.sendBy t s f).2 = Frame.zeroed f.length := by
  unfold sendBy consume
  dsimp only
  split <;> rfl

end LinkDriver
end SoftNic
