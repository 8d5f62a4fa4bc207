/-! # Faults

A fault is a broken obligation, of the caller or of the library to itself.  It
is not a refusal: a refusal is an answer of the device that leaves the caller
free to try again, while a fault abandons the operation at the place where it
is found.  What was changed before that place stays changed.

The faults that name a slot or an index are assertions of the library about its
own rings; that none of them can be reached is a matter of proof.

The phases of a poll context are declared here because a fault names the phase
in which it was found.
-/
namespace SoftNic

/-- The phase of a poll context. -/
inductive PollPhase
  /-- Requests are not accepted. -/
  | disabled
  /-- No pass is wanted. -/
  | idle
  /-- A pass has been requested and has not begun. -/
  | scheduled
  /-- A pass is running. -/
  | draining
  deriving DecidableEq, Repr, Inhabited

namespace PollPhase

/-- The name under which reports and messages show a phase. -/
def name : PollPhase → String
  | disabled => "Disabled"
  | idle => "Idle"
  | scheduled => "Scheduled"
  | draining => "Draining"

end PollPhase

/-- An obligation that was broken. -/
inductive Fault
  /-- A ring was asked for with fewer than two slots, so it could never hold
  anything. -/
  | ringTooSmall (slots : Nat)
  /-- A ring was asked for with more slots than any row can have. -/
  | ringTooLarge
  /-- A sum of indices is no machine word. -/
  | sumOverflow
  /-- A difference of indices would be negative. -/
  | differenceOverflow
  /-- An index was to wrap at the end of a row without slots. -/
  | wrapsNowhere
  /-- An index lies past the end of its row. -/
  | slotOutOfBounds (slots index : Nat)
  /-- The slot that the next item goes to holds one already. -/
  | slotTaken (index : Nat)
  /-- The slot that the oldest item comes from holds none. -/
  | slotVacant (index : Nat)
  /-- A pass was begun on a context for which none is pending. -/
  | pollUnrequested (phase : PollPhase)
  /-- The least 64-bit integer has no 64-bit opposite. -/
  | negationOverflow
  /-- A context was told, from inside its own pass, to wait until that pass
  is over. -/
  | waitsForItself
  deriving DecidableEq, Repr

namespace Fault

/-- The wording of a fault. -/
def message : Fault → String
  | ringTooSmall n => s!"descriptor ring needs at least 2 slots, got {n}"
  | ringTooLarge => "capacity overflow"
  | sumOverflow => "attempt to add with overflow"
  | differenceOverflow => "attempt to subtract with overflow"
  | wrapsNowhere => "attempt to calculate the remainder with a divisor of zero"
  | slotOutOfBounds n i => s!"index out of bounds: the len is {n} but the index is {i}"
  | slotTaken i => s!"free slot {i} still holds a buffer"
  | slotVacant i => s!"live slot {i} is empty"
  | pollUnrequested phase => "napi poll in state " ++ phase.name
  | negationOverflow => "attempt to negate with overflow"
  | waitsForItself => "poll context disabled from inside its own pass"

/-- The answer of a computation that cannot end in a fault. -/
def avoided {α : Type} (x : Except Fault α) (h : ∃ a, x = .ok a) : α :=
  match x, h with
  | .ok a, _ => a
  | .error _, h => False.elim (h.elim fun _ h => nomatch h)

theorem avoided_eq_iff {α : Type} {x : Except Fault α} {h : ∃ a, x = .ok a} {a : α} :
    avoided x h = a ↔ x = .ok a := by
  obtain ⟨b, rfl⟩ := h
  constructor
  · rintro rfl
    rfl
  · intro h
    exact Except.ok.inj h

end Fault
end SoftNic
