import SoftNic.Bench.Basic

/-! # Requests

Signals are raised and taken; poll contexts are enabled, asked for a pass and
disabled.  A context asks for a pass by raising its request signal, once for
each time it becomes scheduled: a context that is scheduled already, or whose
pass is running, is not asked again.
-/
namespace SoftNic
namespace Bench

/-- Raise a signal. -/
def raise (b : Bench) (s : Handle Signal) : Bench :=
  (b.modifySignal s Signal.raise).record (.raised s)

/-- Take what a signal remembers.  The answer says whether that was
anything. -/
def takeSignal (b : Bench) (s : Handle Signal) : Bench × Bool :=
  (b.modifySignal s Signal.clear, (b.signal s).isPending)

/-- Put a context into a phase. -/
def setPhase (b : Bench) (c : Handle PollContext) (phase : PollPhase) : Bench :=
  b.modifyContext c fun x => { x with phase }

/-- Let a context wait for a pass, and ask for it. -/
def request (b : Bench) (c : Handle PollContext) : Bench :=
  let b := (b.setPhase c .scheduled).record (.poll c .requested)
  b.raise (b.context c).request

/-- Ask a context for a pass.  Only an idle context takes the request; the
answer says whether it did. -/
def schedule (b : Bench) (c : Handle PollContext) : Bench × Bool :=
  match (b.context c).phase with
  | .idle => (b.request c, true)
  | _ => (b, false)

/-- Let a context take requests.  Only a disabled one is changed. -/
def enableContext (b : Bench) (c : Handle PollContext) : Bench :=
  match (b.context c).phase with
  | .disabled => b.setPhase c .idle
  | phase => b.record (.poll c (.enableIgnored phase))

/-- Let a context take no more requests; a pending one is withdrawn.  A
context whose pass is running would have to wait for itself, since nothing
else runs. -/
def disableContext (b : Bench) (c : Handle PollContext) : Bench × Except Fault Unit :=
  match (b.context c).phase with
  | .draining => (b, .error .waitsForItself)
  | .scheduled => ((b.setPhase c .disabled).record (.poll c .withdrawn), .ok ())
  | _ => (b.setPhase c .disabled, .ok ())

end Bench
end SoftNic
