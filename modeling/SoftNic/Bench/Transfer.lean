import SoftNic.Bench.Hardware

/-! # Transfers

A transfer takes frames out of a ring one by one and hands each to a sink
before the next is taken, until none is left or the budget is used up.  The
sink may do anything to the bench, to the same card too: whatever it puts into
the ring is seen by the transfer, and only the budget bounds it.

A poll pass is a transfer of received frames under a poll context.  A pass
that stays below its budget has seen the ring empty: it is complete, and the
interrupt line is armed again.  Otherwise the context stays scheduled and asks
for the next pass.
-/
namespace SoftNic

/-- Takes a frame, given the bench and what the sink itself carries along. -/
abbrev Sink (γ : Type) := Frame → Bench × γ → Bench × γ

namespace Bench

variable {γ : Type}

/-- Hand over at most the given number of frames.  The second part of the
answer says how many were handed over. -/
def pump (next : Bench → Bench × Option Frame) (sink : Sink γ) :
    Nat → Bench × γ → (Bench × γ) × Nat
  | 0, s => (s, 0)
  | budget + 1, (b, g) =>
    match next b with
    | (b, none) => ((b, g), 0)
    | (b, some f) =>
      let (s, k) := pump next sink budget (sink f (b, g))
      (s, k + 1)

/-- The wire collects at most the given number of frames to be sent. -/
def drain (n : Handle Nic) (budget : Nat) (sink : Sink γ) (s : Bench × γ) :
    (Bench × γ) × Nat :=
  pump (·.take n .transmit) sink budget s

/-- A pass begins. -/
def startPass (b : Bench) (c : Handle PollContext) : Bench :=
  (b.setPhase c .draining).record (.poll c .passBegan)

/-- A pass ends that handed over a number of frames within a budget. -/
def endPass (b : Bench) (c : Handle PollContext) (n : Handle Nic) (handled budget : Nat) : Bench :=
  let b := if handled < budget then (b.setPhase c .idle).rearm n else b.request c
  b.record (.poll c (.passDone handled budget (decide (handled < budget))))

/-- Run a poll pass.  A context that was disabled after it had asked for the
pass serves the stale request with an empty, complete one; any other context
that is not scheduled must not be polled. -/
def poll (c : Handle PollContext) (n : Handle Nic) (budget : Nat) (sink : Sink γ) :
    Bench × γ → (Bench × γ) × Except Fault Pass
  | (b, g) =>
    match (b.context c).phase with
    | .scheduled =>
      let ((b, g), k) := pump (·.take n .receive) sink budget (b.startPass c, g)
      ((b.endPass c n k budget, g), .ok ⟨k, decide (k < budget)⟩)
    | .disabled => ((b.record (.poll c .pollIgnored), g), .ok ⟨0, true⟩)
    | phase =>
      ((b.record (.poll c (.pollUnrequested phase)), g), .error (.pollUnrequested phase))

/-- A transfer hands over no more than its budget. -/
theorem pump_le (next : Bench → Bench × Option Frame) (sink : Sink γ) (budget : Nat)
    (s : Bench × γ) : (pump next sink budget s).2 ≤ budget := by
  induction budget generalizing s with
  | zero => simp [pump]
  | succ budget ih =>
    obtain ⟨b, g⟩ := s
    rw [pump]
    split
    · simp
    · exact Nat.succ_le_succ (ih _)

end Bench
end SoftNic
