import SoftNic.Ring

/-! # A row of slots is a bounded queue

A client that makes a row of `n` slots and then appends, takes, drains and
resets, in any order and as often as it likes, cannot tell the row from a plain
list that holds at most `n - 1` items.  This module says what the list does
(`BoundedQueue.serve`), what the row does (`Row.serve`), and proves that the
replies are the same for every list of requests, that no request ends in a
fault, and that after each of them the slots are laid out as `Row.Shows` says.

One request preserves `Row.Holds` (`Row.Holds.serve`); a run is an induction on
the list of requests (`Row.Holds.serveAll`).
-/
namespace SoftNic

/-- What a client asks of a queue. -/
inductive QueueRequest (α : Type)
  | enqueue (a : α)
  | dequeue
  | drainAll
  | reset
  deriving DecidableEq

/-- What a client is told. -/
inductive QueueReply (α : Type)
  | stored
  /-- The item comes back: there was no room. -/
  | refused (a : α)
  | handed (a : Option α)
  | drained (as : List α)
  | released (n : Nat)
  deriving DecidableEq

variable {α : Type}

/-! ## The queue as a list -/

namespace BoundedQueue

/-- One request to a list that has room for a number of items, oldest first. -/
def serve (room : Nat) : QueueRequest α → List α → QueueReply α × List α
  | .enqueue a, q => if q.length < room then (.stored, q ++ [a]) else (.refused a, q)
  | .dequeue, q => (.handed q.head?, q.tail)
  | .drainAll, q => (.drained q, [])
  | .reset, q => (.released q.length, [])

/-- Requests one after the other. -/
def serveAll (room : Nat) : List (QueueRequest α) → List α → List (QueueReply α) × List α
  | [], q => ([], q)
  | op :: ops, q =>
    let (reply, q) := serve room op q
    let (replies, q) := serveAll room ops q
    (reply :: replies, q)

end BoundedQueue

/-! ## The queue in a row -/

namespace Row

/-- One request to a row. -/
def serve : QueueRequest α → Row α → Except Fault (QueueReply α × Row α)
  | .enqueue a, r => do
    match ← r.enqueue a with
    | (none, r) => return (.stored, r)
    | (some a, r) => return (.refused a, r)
  | .dequeue, r => do
    let (a, r) ← r.dequeue
    return (.handed a, r)
  | .drainAll, r => do
    let (as, r) ← r.drainAll
    return (.drained as, r)
  | .reset, r => do
    let (n, r) ← r.reset
    return (.released n, r)

/-- Requests one after the other, until one ends in a fault. -/
def serveAll : List (QueueRequest α) → Row α → Except Fault (List (QueueReply α) × Row α)
  | [], r => return ([], r)
  | op :: ops, r => do
    let (reply, r) ← serve op r
    let (replies, r) ← serveAll ops r
    return (reply :: replies, r)

/-- The slots from one index up to another, around the end of the row when the
second is not behind the first. -/
def InSpan (first last i : Nat) : Prop :=
  if first ≤ last then first ≤ i ∧ i < last else first ≤ i ∨ i < last

/-- **What can be seen of a row of `n` slots that carries the queue `q`.** -/
structure Shows (n : Nat) (r : Row α) (q : List α) : Prop where
  capacity_eq : r.capacity = n
  producer_lt : r.producer < n
  consumer_lt : r.consumer < n
  /-- Exactly the slots from the consumer up to the producer hold an item. -/
  occupied_iff : ∀ i, i < n →
    ((∃ a, r.slots[i]? = some (some a)) ↔ InSpan r.consumer r.producer i)
  vacant_of_not : ∀ i, i < n → ¬ InSpan r.consumer r.producer i → r.slots[i]? = some none
  /-- Read from the consumer on, they are the queue. -/
  slot_eq : ∀ i (h : i < q.length), r.slots[(r.consumer + i) % n]? = some (some q[i])
  length_le : q.length ≤ n - 1
  count_eq : r.count = .ok q.length
  isEmpty_iff : r.isEmpty = true ↔ q = []
  isFull_eq : r.isFull = .ok (decide (q.length = n - 1))
  /-- A full row hands an item back and stays as it is. -/
  refuses : q.length = n - 1 → ∀ a, r.enqueue a = .ok (some a, r)
  /-- A reset leaves the row as it was made. -/
  reset_eq : ∃ fresh, ofCapacity n = .ok fresh ∧ r.reset = .ok (q.length, fresh)

namespace Holds

variable {r : Row α} {q : List α}

/-- A slot lies between consumer and producer exactly when its distance from
the consumer is below the length of the queue. -/
theorem inSpan_iff (h : r.Holds q) {i : Nat} (hi : i < r.capacity) :
    InSpan r.consumer r.producer i ↔
      (if r.consumer ≤ i then i - r.consumer else i + r.capacity - r.consumer) < q.length := by
  have hc := h.consumer_lt
  have hr := h.room
  have hp := h.producer_eq
  rw [wrap_eq hc (Nat.le_of_lt hr)] at hp
  unfold InSpan
  by_cases hw : r.consumer + q.length < r.capacity
  · rw [if_pos hw] at hp
    rw [hp, if_pos (Nat.le_add_right _ _)]
    split <;> omega
  · rw [if_neg hw] at hp
    rw [hp, if_neg (by omega)]
    split <;> omega

theorem shows (h : r.Holds q) : Shows r.capacity r q where
  capacity_eq := rfl
  producer_lt := h.producer_lt
  consumer_lt := h.consumer_lt
  occupied_iff := by
    intro i hi
    rw [h.inSpan_iff hi, h.slot_eq_offset hi]
    constructor
    · rintro ⟨a, ha⟩
      exact (List.getElem?_eq_some_iff.mp (Option.some.inj ha)).1
    · intro hlt
      exact ⟨_, congrArg some (List.getElem?_eq_getElem hlt)⟩
  vacant_of_not := by
    intro i hi hn
    rw [h.inSpan_iff hi] at hn
    rw [h.slot_eq_offset hi, List.getElem?_eq_none (Nat.le_of_not_lt hn)]
  slot_eq := by
    intro i hi
    rw [h.slot_eq i (Nat.lt_trans hi h.room), List.getElem?_eq_getElem hi]
  length_le := Nat.le_sub_one_of_lt h.room
  count_eq := h.count_eq
  isEmpty_iff := h.isEmpty_iff
  isFull_eq := by
    have hiff : q.length + 1 = r.capacity ↔ q.length = r.capacity - 1 := by
      have := h.two_le
      omega
    rw [h.isFull_eq, decide_eq_decide.mpr hiff]
  refuses := by
    intro hf a
    exact h.enqueue_of_full (by have := h.two_le; omega) a
  reset_eq := ⟨vacant r.capacity, ofCapacity_eq_ok_iff.mpr ⟨h.two_le, h.le_limit, rfl⟩, h.reset_eq⟩

/-! ## Steps and runs -/

/-- One request: the row replies as the list does and carries the list on. -/
theorem serve (h : r.Holds q) (op : QueueRequest α) :
    ∃ r', Row.serve op r = .ok ((BoundedQueue.serve (r.capacity - 1) op q).1, r') ∧
      r'.Holds (BoundedQueue.serve (r.capacity - 1) op q).2 ∧ r'.capacity = r.capacity := by
  cases op with
  | enqueue a =>
    have hr := h.room
    by_cases hf : q.length + 1 = r.capacity
    · refine ⟨r, ?_, ?_, rfl⟩
      · simp [Row.serve, h.enqueue_of_full hf, BoundedQueue.serve, ← hf, bind, Except.bind, pure,
          Except.pure]
      · simpa [BoundedQueue.serve, ← hf] using h
    · obtain ⟨r', he, hq, hc⟩ := h.enqueue_of_room hf a
      have hlt : q.length < r.capacity - 1 := by omega
      refine ⟨r', ?_, ?_, hc⟩
      · simp [Row.serve, he, BoundedQueue.serve, hlt, bind, Except.bind, pure, Except.pure]
      · simpa [BoundedQueue.serve, hlt] using hq
  | dequeue =>
    cases q with
    | nil =>
      refine ⟨r, ?_, h, rfl⟩
      simp [Row.serve, h.dequeue_nil, BoundedQueue.serve, bind, Except.bind, pure, Except.pure]
    | cons a q =>
      obtain ⟨r', hd, hq, hc⟩ := h.dequeue_cons
      refine ⟨r', ?_, hq, hc⟩
      simp [Row.serve, hd, BoundedQueue.serve, bind, Except.bind, pure, Except.pure]
  | drainAll =>
    obtain ⟨r', hd, hq, hc⟩ := h.drainAll_eq
    refine ⟨r', ?_, hq, hc⟩
    simp [Row.serve, hd, BoundedQueue.serve, bind, Except.bind, pure, Except.pure]
  | reset =>
    refine ⟨vacant r.capacity, ?_, fresh h.two_le h.le_limit, capacity_vacant _⟩
    simp [Row.serve, h.reset_eq, BoundedQueue.serve, bind, Except.bind, pure, Except.pure]

/-- A list of requests. -/
theorem serveAll (h : r.Holds q) (ops : List (QueueRequest α)) :
    ∃ r', Row.serveAll ops r = .ok ((BoundedQueue.serveAll (r.capacity - 1) ops q).1, r') ∧
      r'.Holds (BoundedQueue.serveAll (r.capacity - 1) ops q).2 ∧ r'.capacity = r.capacity := by
  induction ops generalizing r q with
  | nil => exact ⟨r, rfl, h, rfl⟩
  | cons op ops ih =>
    obtain ⟨r₁, hs, h₁, hc₁⟩ := h.serve op
    obtain ⟨r₂, hr, h₂, hc₂⟩ := ih h₁
    rw [hc₁] at hr h₂
    refine ⟨r₂, ?_, h₂, hc₂.trans hc₁⟩
    simp only [Row.serveAll, hs, hr, bind, Except.bind, pure, Except.pure, BoundedQueue.serveAll]

end Holds

/-- **A row of `n` slots is a queue of at most `n - 1` items.**  From a new row,
every list of requests runs without a fault, gets the replies of the list, and
leaves a row that shows the list. -/
theorem serveAll_refines {n : Nat} (hn : 2 ≤ n) (hl : n ≤ limit) (ops : List (QueueRequest α)) :
    ∃ new r, ofCapacity n = .ok new ∧
      serveAll ops new = .ok ((BoundedQueue.serveAll (n - 1) ops []).1, r) ∧
      Shows n r (BoundedQueue.serveAll (n - 1) ops []).2 := by
  obtain ⟨r, hr, hq, hc⟩ := (Holds.fresh (α := α) hn hl).serveAll ops
  rw [capacity_vacant] at hr hq hc
  refine ⟨vacant n, r, ofCapacity_eq_ok_iff.mpr ⟨hn, hl, rfl⟩, hr, ?_⟩
  have hs := hq.shows
  rwa [hc] at hs

/-- Three slots, filled twice around the end, refused, drained and reset. -/
theorem serveAll_refines_three :
    2 ≤ 3 ∧ 3 ≤ limit ∧ ∃ new r, ofCapacity 3 = .ok new ∧
      serveAll [.enqueue 7, .enqueue 8, .enqueue 9, .dequeue, .enqueue 9, .drainAll, .enqueue 5,
          .reset, .dequeue, .enqueue 6] new
        = .ok ([.stored, .stored, .refused 9, .handed (some 7), .stored, .drained [8, 9], .stored,
            .released 1, .handed none, .stored], r) ∧
      Shows 3 r [6] :=
  ⟨by decide, by decide, serveAll_refines (by decide) (by decide) _⟩

end Row
end SoftNic
