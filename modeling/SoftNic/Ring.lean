import SoftNic.Ring.Holds

/-! # Rings

A ring is a bounded first-in first-out queue: a row of slots together with the
fact that the row carries some queue.  No ring with a gap or a stale item can
be built, so none of its operations can end in a fault, and a ring of `n` slots
holds at most `n - 1` items.

`Ring.toList` is the queue, oldest item first.  Each operation runs on the row
and has one equation in terms of the queue.
-/
namespace SoftNic

/-- A bounded queue in a circular row of slots. -/
structure Ring (α : Type) extends Row α where
  queued : ∃ q, toRow.Holds q

namespace Ring

variable {α : Type}

/-- The queue, oldest item first. -/
def toList (r : Ring α) : List α :=
  r.toRow.toList

/-- The number of slots, the free one included. -/
def capacity (r : Ring α) : Nat :=
  r.toRow.capacity

/-- Whether nothing is queued. -/
def isEmpty (r : Ring α) : Bool :=
  r.toRow.isEmpty

theorem holds (r : Ring α) : r.toRow.Holds r.toList := by
  obtain ⟨q, h⟩ := r.queued
  rwa [toList, h.toList_eq]

theorem two_le_capacity (r : Ring α) : 2 ≤ r.capacity := r.holds.two_le

theorem capacity_le_limit (r : Ring α) : r.capacity ≤ Row.limit := r.holds.le_limit

theorem length_toList_lt (r : Ring α) : r.toList.length < r.capacity := r.holds.room

theorem isEmpty_iff (r : Ring α) : r.isEmpty = true ↔ r.toList = [] := r.holds.isEmpty_iff

/-- Whether only the reserved slot is free. -/
def isFull (r : Ring α) : Bool :=
  Fault.avoided r.toRow.isFull ⟨_, r.holds.isFull_eq⟩

theorem isFull_iff (r : Ring α) : r.isFull = true ↔ r.toList.length + 1 = r.capacity := by
  rw [isFull, Fault.avoided_eq_iff.mpr r.holds.isFull_eq, decide_eq_true_iff, capacity]

/-- How many items are queued. -/
def count (r : Ring α) : Nat :=
  Fault.avoided r.toRow.count ⟨_, r.holds.count_eq⟩

@[simp] theorem count_eq (r : Ring α) : r.count = r.toList.length :=
  Fault.avoided_eq_iff.mpr r.holds.count_eq

/-! ### New rings -/

/-- A ring with all of its slots vacant. -/
def vacant (n : Nat) (hn : 2 ≤ n) (hl : n ≤ Row.limit) : Ring α :=
  ⟨Row.vacant n, [], Row.Holds.fresh hn hl⟩

instance : Inhabited (Ring α) := ⟨vacant 2 (Nat.le_refl 2) (by decide)⟩

@[simp] theorem toList_vacant (n : Nat) (hn : 2 ≤ n) (hl : n ≤ Row.limit) :
    (vacant n hn hl : Ring α).toList = [] :=
  (Row.Holds.fresh hn hl).toList_eq

@[simp] theorem capacity_vacant (n : Nat) (hn : 2 ≤ n) (hl : n ≤ Row.limit) :
    (vacant n hn hl : Ring α).capacity = n :=
  Row.capacity_vacant n

/-- A vacant ring of the given size, if it is large enough to hold anything and
no larger than a row can be. -/
def ofCapacity (n : Nat) : Except Fault (Ring α) :=
  match h : Row.ofCapacity n with
  | .error f => .error f
  | .ok row => .ok ⟨row, [], Row.Holds.of_ofCapacity h⟩

theorem ofCapacity_eq_ok_iff {n : Nat} {r : Ring α} :
    ofCapacity n = .ok r ↔ ∃ (hn : 2 ≤ n) (hl : n ≤ Row.limit), r = vacant n hn hl := by
  unfold ofCapacity
  split
  · next f h =>
    refine ⟨fun he => (nomatch he), ?_⟩
    rintro ⟨hn, hl, -⟩
    rw [Row.ofCapacity_eq_ok_iff.mpr ⟨hn, hl, rfl⟩] at h
    cases h
  · next row h =>
    obtain ⟨hn, hl, rfl⟩ := Row.ofCapacity_eq_ok_iff.mp h
    constructor
    · intro he
      exact ⟨hn, hl, (Except.ok.inj he).symm⟩
    · rintro ⟨-, -, rfl⟩
      rfl

theorem toList_of_ofCapacity {n : Nat} {r : Ring α} (h : ofCapacity n = .ok r) :
    r.toList = [] := by
  obtain ⟨hn, hl, rfl⟩ := ofCapacity_eq_ok_iff.mp h
  exact toList_vacant n hn hl

/-! ### Items in and out -/

/-- Append an item.  A full ring refuses it and is left as it is. -/
def enqueue? (r : Ring α) (a : α) : Option (Ring α) :=
  match h : Fault.avoided (r.toRow.enqueue a) (r.holds.enqueue_ok a) with
  | (none, row) => some ⟨row, _, (r.holds.of_enqueue_none (Fault.avoided_eq_iff.mp h)).2.1⟩
  | (some _, _) => none

theorem enqueue?_eq_none_iff {r : Ring α} {a : α} :
    r.enqueue? a = none ↔ r.toList.length + 1 = r.capacity := by
  unfold enqueue?
  split
  · next row h =>
    refine ⟨fun hn => (nomatch hn), fun hf => ?_⟩
    exact absurd hf (r.holds.of_enqueue_none (Fault.avoided_eq_iff.mp h)).1
  · next b row h =>
    exact ⟨fun _ => r.holds.of_enqueue_some (Fault.avoided_eq_iff.mp h), fun _ => rfl⟩

theorem toList_of_enqueue? {r r' : Ring α} {a : α} (h : r.enqueue? a = some r') :
    r'.toList = r.toList ++ [a] := by
  unfold enqueue? at h
  split at h
  · next row hrow =>
    rw [← Option.some.inj h]
    exact (r.holds.of_enqueue_none (Fault.avoided_eq_iff.mp hrow)).2.1.toList_eq
  · cases h

theorem capacity_of_enqueue? {r r' : Ring α} {a : α} (h : r.enqueue? a = some r') :
    r'.capacity = r.capacity := by
  unfold enqueue? at h
  split at h
  · next row hrow =>
    rw [← Option.some.inj h]
    exact (r.holds.of_enqueue_none (Fault.avoided_eq_iff.mp hrow)).2.2
  · cases h

/-- Take the oldest item and vacate its slot. -/
def dequeue? (r : Ring α) : Option (α × Ring α) :=
  match h : Fault.avoided r.toRow.dequeue r.holds.dequeue_ok with
  | (none, _) => none
  | (some a, row) =>
    some (a, ⟨row, _, (r.holds.of_dequeue_some (Fault.avoided_eq_iff.mp h)).2.1⟩)

theorem dequeue?_eq_none_iff {r : Ring α} : r.dequeue? = none ↔ r.toList = [] := by
  unfold dequeue?
  split
  · next row h => exact ⟨fun _ => r.holds.of_dequeue_none (Fault.avoided_eq_iff.mp h), fun _ => rfl⟩
  · next a row h =>
    refine ⟨fun hn => (nomatch hn), fun he => ?_⟩
    have hq := (r.holds.of_dequeue_some (Fault.avoided_eq_iff.mp h)).1
    rw [he] at hq
    cases hq

theorem toList_of_dequeue? {r r' : Ring α} {a : α} (h : r.dequeue? = some (a, r')) :
    r.toList = a :: r'.toList := by
  unfold dequeue? at h
  split at h
  · cases h
  · next b row hrow =>
    obtain ⟨rfl, rfl⟩ := Prod.mk.inj (Option.some.inj h)
    obtain ⟨hq, hh, -⟩ := r.holds.of_dequeue_some (Fault.avoided_eq_iff.mp hrow)
    exact hq.trans (congrArg (b :: ·) hh.toList_eq.symm)

theorem capacity_of_dequeue? {r r' : Ring α} {a : α} (h : r.dequeue? = some (a, r')) :
    r'.capacity = r.capacity := by
  unfold dequeue? at h
  split at h
  · cases h
  · next b row hrow =>
    obtain ⟨-, rfl⟩ := Prod.mk.inj (Option.some.inj h)
    exact (r.holds.of_dequeue_some (Fault.avoided_eq_iff.mp hrow)).2.2

/-! ### Emptying a ring -/

/-- Take every item, oldest first.  The indices stay where the last item left
them. -/
def drainAll (r : Ring α) : List α × Ring α :=
  match h : Fault.avoided r.toRow.drainAll r.holds.drainAll_ok with
  | (as, row) => (as, ⟨row, [], (r.holds.of_drainAll (Fault.avoided_eq_iff.mp h)).2.1⟩)

@[simp] theorem drainAll_fst (r : Ring α) : r.drainAll.1 = r.toList := by
  unfold drainAll
  split
  next as row h => exact (r.holds.of_drainAll (Fault.avoided_eq_iff.mp h)).1

@[simp] theorem toList_drainAll (r : Ring α) : r.drainAll.2.toList = [] := by
  unfold drainAll
  split
  next as row h => exact (r.holds.of_drainAll (Fault.avoided_eq_iff.mp h)).2.1.toList_eq

@[simp] theorem capacity_drainAll (r : Ring α) : r.drainAll.2.capacity = r.capacity := by
  unfold drainAll
  split
  next as row h => exact (r.holds.of_drainAll (Fault.avoided_eq_iff.mp h)).2.2

/-- Release every item and rewind both indices.  The first part of the answer
says how many were released. -/
def reset (r : Ring α) : Nat × Ring α :=
  match h : Fault.avoided r.toRow.reset ⟨_, r.holds.reset_eq⟩ with
  | (n, row) => (n, ⟨row, [], r.holds.of_reset (Fault.avoided_eq_iff.mp h)⟩)

theorem reset_eq (r : Ring α) :
    r.reset = (r.toList.length, vacant r.capacity r.two_le_capacity r.capacity_le_limit) := by
  unfold reset
  split
  next n row h =>
    rw [Fault.avoided_eq_iff, r.holds.reset_eq] at h
    cases h
    rfl

@[simp] theorem reset_fst (r : Ring α) : r.reset.1 = r.toList.length := by
  rw [reset_eq]

@[simp] theorem toList_reset (r : Ring α) : r.reset.2.toList = [] := by
  rw [reset_eq, toList_vacant]

@[simp] theorem capacity_reset (r : Ring α) : r.reset.2.capacity = r.capacity := by
  rw [reset_eq, capacity_vacant]

/-- A ring is rewound the first time it is reset. -/
theorem reset_reset (r : Ring α) : r.reset.2.reset.2 = r.reset.2 := by
  have h : ∀ (r : Ring α) (n : Nat) (hn : 2 ≤ n) (hl : n ≤ Row.limit), r.capacity = n →
      r.reset.2 = vacant n hn hl := by
    rintro r _ hn hl rfl
    rw [reset_eq]
  rw [h r.reset.2 r.capacity r.two_le_capacity r.capacity_le_limit r.capacity_reset,
    h r r.capacity r.two_le_capacity r.capacity_le_limit rfl]

/-- The text under which a ring shows its indices. -/
def describe (r : Ring α) : String :=
  s!"DescRing \x7b capacity: {r.capacity}, producer: {r.producer}, "
    ++ s!"consumer: {r.consumer}, count: {r.count} \x7d"

end Ring
end SoftNic
