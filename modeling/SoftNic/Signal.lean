/-! # Signals

A signal remembers that something was asked for until somebody takes the
request.  A flag remembers only that there was a request, a tally also how
often.
-/
namespace SoftNic

/-- A remembered request. -/
inductive Signal
  | flag (pending : Bool)
  | tally (count : Nat)
  deriving DecidableEq, Repr

namespace Signal

instance : Inhabited Signal := ⟨flag false⟩

/-- Ask once more. -/
def raise : Signal → Signal
  | flag _ => flag true
  | tally n => tally (n + 1)

/-- Whether a request is waiting to be taken. -/
def isPending : Signal → Bool
  | flag pending => pending
  | tally n => 0 < n

/-- The signal after its requests have been taken. -/
def clear : Signal → Signal
  | flag _ => flag false
  | tally _ => tally 0

@[simp] theorem isPending_raise (s : Signal) : s.raise.isPending = true := by
  cases s <;> simp [raise, isPending]

@[simp] theorem isPending_clear (s : Signal) : s.clear.isPending = false := by
  cases s <;> simp [clear, isPending]

end Signal
end SoftNic
