import SoftNic.Bench.Request

/-! # The hardware

What the driver and the wire do with a card.  The gate decides: frames come
into a ring only while the card is ready, and leave it unless the card is
uninitialized.  An accepted frame for the wire raises the card's hook.  An
accepted frame from the wire interrupts: the installed handler runs at once if
the interrupt line is armed.  Arming the line while received frames wait
interrupts too, so that they are not forgotten.

A refused frame goes back to its owner and changes nothing but a counter.
-/
namespace SoftNic
namespace Bench

/-! ### Interrupts -/

/-- Do one of the things that a handler does. -/
def act (n : Handle Nic) (b : Bench) : HandlerAction → Bench
  | .raise s => b.raise s
  | .arm => b.modifyNic n fun x => { x with gate := x.gate.arm }
  | .disarm => b.modifyNic n fun x => { x with gate := x.gate.disarm }
  | .schedule c => (b.schedule c).1

/-- Interrupt: if the line is armed and a handler is installed, the handler
runs.  The answer says whether it ran. -/
def interrupt (b : Bench) (n : Handle Nic) : Bench × Bool :=
  if (b.nic n).gate.armed then
    match (b.nic n).handler with
    | some actions => (actions.foldl (act n) (b.record (.nic n (.notified actions))), true)
    | none => (b, false)
  else (b, false)

/-- Install a handler in the place of the one that is there. -/
def installHandler (b : Bench) (n : Handle Nic) (actions : List HandlerAction) : Bench :=
  (b.modifyNic n fun x => { x with handler := some actions }).recordIf
    (b.nic n).handler.isSome (.nic n .handlerReplaced)

/-- Remove the handler. -/
def removeHandler (b : Bench) (n : Handle Nic) : Bench :=
  b.modifyNic n fun x => { x with handler := none }

/-- Arm the interrupt line.  If the card is ready and received frames wait,
this interrupts. -/
def rearm (b : Bench) (n : Handle Nic) : Bench :=
  let b := (b.modifyNic n fun x => { x with gate := x.gate.arm }).record (.nic n .rearmed)
  if (b.nic n).gate.isReady && !(b.nic n).rx.isEmpty then (b.interrupt n).1 else b

/-- Disarm the interrupt line. -/
def mask (b : Bench) (n : Handle Nic) : Bench :=
  b.modifyNic n fun x => { x with gate := x.gate.disarm }

/-! ### The hook -/

/-- Install a signal as the hook of a card. -/
def setHook (b : Bench) (n : Handle Nic) (s : Handle Signal) : Bench :=
  b.modifyNic n fun x => { x with hook := some s }

/-- Remove the hook. -/
def clearHook (b : Bench) (n : Handle Nic) : Bench :=
  b.modifyNic n fun x => { x with hook := none }

/-- Remove the hook if it is the given signal. -/
def clearHookIf (b : Bench) (n : Handle Nic) (s : Handle Signal) : Bench :=
  if (b.nic n).hook = some s then b.clearHook n else b

/-- Raise the hook, if there is one. -/
def raiseHook (b : Bench) (n : Handle Nic) : Bench :=
  match (b.nic n).hook with
  | some s => b.raise s
  | none => b

/-! ### The life of a card -/

/-- Release every frame in the rings and rewind them.  The answer says how
many were released. -/
def releaseRings (b : Bench) (n : Handle Nic) : Bench × Nat :=
  let x := b.nic n
  let (t, tx) := x.tx.reset
  let (r, rx) := x.rx.reset
  let b := b.modifyNic n fun x => { x with tx, rx }
  let b := b.record (.nic n (.departed .transmit x.tx.toList))
  let b := b.record (.nic n (.departed .receive x.rx.toList))
  (b, t + r)

/-- Empty the rings before a card is brought up.  A card that is ready keeps
its rings. -/
def setUp (b : Bench) (n : Handle Nic) : Bench :=
  if (b.nic n).gate.isReady then b.record (.nic n .setupIgnored)
  else
    let (b, released) := b.releaseRings n
    b.recordIf (0 < released) (.nic n (.setupReleased released))

/-- Make a card ready, with empty rings and an armed interrupt line.  A card
that is ready already is left as it is. -/
def bringUp (b : Bench) (n : Handle Nic) : Bench :=
  if (b.nic n).gate.isReady then b.record (.nic n .alreadyReady)
  else
    let (b, released) := b.releaseRings n
    let b := b.recordIf (0 < released) (.nic n (.initReleased released))
    let b := b.modifyNic n fun x => { x with gate := ⟨.ready, true⟩ }
    b.record (.nic n .becameReady)

/-- Disarm the interrupt line and accept no more frames.  Queued frames can
still be taken. -/
def shutDown (b : Bench) (n : Handle Nic) : Bench :=
  let b := b.mask n
  if (b.nic n).gate.isReady then
    let b := b.modifyNic n fun x => { x with gate := { x.gate with phase := .shuttingDown } }
    b.record (.nic n .shuttingDown)
  else b

/-- Take all frames out of the rings and make the card uninitialized.  A card
that is still ready is shut down first. -/
def tearDown (b : Bench) (n : Handle Nic) : Bench × Leftovers :=
  let b :=
    if (b.nic n).gate.isReady then (b.record (.nic n .teardownWhileReady)).shutDown n else b
  let left : Leftovers := ⟨(b.nic n).tx.drainAll.1, (b.nic n).rx.drainAll.1⟩
  let (b, _) := b.releaseRings n
  let b := b.modifyNic n fun x => { x with gate := { x.gate with phase := .uninitialized } }
  let b := b.recordIf (!left.isEmpty) (.nic n (.teardownReturned left.tx.length left.rx.length))
  (b, left)

/-! ### Frames in and out -/

/-- Put a frame into a ring, or refuse it. -/
def accept (b : Bench) (n : Handle Nic) (d : Direction) (f : Frame) :
    Bench × Except Rejection Unit :=
  let x := b.nic n
  if !x.gate.isReady then
    (b.modifyNic n fun x => x.countRefused d, .error ⟨.notReady, f⟩)
  else
    match (x.ring d).enqueue? f with
    | none =>
      ((b.modifyNic n fun x => x.countRefused d).record (.nic n (.ringFull d f.length)),
        .error ⟨.ringFull, f⟩)
    | some r =>
      ((b.modifyNic n fun x => (x.setRing d r).countAccepted d f.length).record
        (.nic n (.accepted d f)), .ok ())

/-- Take the oldest frame out of a ring. -/
def take (b : Bench) (n : Handle Nic) (d : Direction) : Bench × Option Frame :=
  let x := b.nic n
  if x.gate.phase.canDrain then
    match (x.ring d).dequeue? with
    | none => (b, none)
    | some (f, r) =>
      ((b.modifyNic n fun x => x.setRing d r).record (.nic n (.departed d [f])), some f)
  else (b, none)

/-- The driver hands a frame over to be sent. -/
def transmit (b : Bench) (n : Handle Nic) (f : Frame) : Bench × Except Rejection Unit :=
  match b.accept n .transmit f with
  | (b, .error r) => (b, .error r)
  | (b, .ok ()) => (b.raiseHook n, .ok ())

/-- The wire delivers a frame. -/
def deliver (b : Bench) (n : Handle Nic) (f : Frame) : Bench × Except Rejection Unit :=
  match b.accept n .receive f with
  | (b, .error r) => (b, .error r)
  | (b, .ok ()) =>
    let (b, ran) := b.interrupt n
    (b.recordIf ran (.nic n .interruptRaised), .ok ())

end Bench
end SoftNic
