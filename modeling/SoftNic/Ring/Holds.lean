import SoftNic.Ring.Row

/-! # Rows that carry a queue

`Row.Holds q` says which slots of a row carry the queue `q`.  A row that holds
some queue has in-range indices and no gap or stale item, and every operation
on it ends without a fault: `isFull_eq`, `count_eq`, `enqueue_of_room`,
`enqueue_of_full`, `dequeue_nil`, `dequeue_cons`, `drainAll_eq` and `reset_eq`
are the equations in terms of the queue.
-/
namespace SoftNic
namespace Row

variable {α : Type}

/-- The slots and indices of a row carry the queue `q`. -/
structure Holds (r : Row α) (q : List α) : Prop where
  two_le : 2 ≤ r.capacity
  le_limit : r.capacity ≤ limit
  room : q.length < r.capacity
  consumer_lt : r.consumer < r.capacity
  producer_eq : r.producer = (r.consumer + q.length) % r.capacity
  slot_eq : ∀ i, i < r.capacity → r.slots[(r.consumer + i) % r.capacity]? = some q[i]?

/-- An index that ran past the end by less than a full turn comes back by
exactly one turn. -/
theorem wrap_eq {n c i : Nat} (hc : c < n) (hi : i ≤ n) :
    (c + i) % n = if c + i < n then c + i else c + i - n := by
  split
  · next h => exact Nat.mod_eq_of_lt h
  · next h => rw [Nat.mod_eq_sub_mod (by omega), Nat.mod_eq_of_lt (by omega)]

@[simp] theorem capacity_vacant (n : Nat) : (vacant n : Row α).capacity = n :=
  Array.size_replicate ..

theorem ofCapacity_eq_ok_iff {n : Nat} {r : Row α} :
    ofCapacity n = .ok r ↔ 2 ≤ n ∧ n ≤ limit ∧ r = vacant n := by
  unfold ofCapacity
  split
  · next h => exact ⟨fun he => (nomatch he), fun ⟨hn, _⟩ => absurd hn (Nat.not_le.mpr h)⟩
  · next hn =>
    split
    · next h => exact ⟨fun he => (nomatch he), fun ⟨_, hl, _⟩ => absurd hl (Nat.not_le.mpr h)⟩
    · next hl =>
      refine ⟨fun he => ⟨Nat.le_of_not_lt hn, Nat.le_of_not_lt hl, ?_⟩, fun he => ?_⟩
      · exact (Except.ok.inj he).symm
      · rw [he.2.2]

/-- A list read by index, past its end too, is the list. -/
theorem filterMap_getElem?_range (l : List α) {n : Nat} (hn : l.length ≤ n) :
    (List.range n).filterMap (fun i => l[i]?) = l := by
  induction l generalizing n with
  | nil => simp
  | cons a l ih =>
    obtain ⟨m, rfl⟩ : ∃ m, n = m + 1 := ⟨n - 1, by simp at hn; omega⟩
    rw [List.range_succ_eq_map, List.filterMap_cons, List.filterMap_map]
    have := ih (n := m) (by simpa using hn)
    simpa [Function.comp_def] using this

namespace Holds

variable {r : Row α} {q : List α} {a : α}

theorem producer_lt (h : r.Holds q) : r.producer < r.capacity := by
  rw [h.producer_eq]
  exact Nat.mod_lt _ (by have := h.two_le; omega)

/-! ### Indices -/

/-- The next index is a word, and wraps at the end of the row. -/
theorem advance_eq (h : r.Holds q) {index : Nat} (hi : index < r.capacity) :
    r.advance index = .ok ((index + 1) % r.capacity) := by
  have hl := h.le_limit
  have h2 := h.two_le
  have hw : index + 1 < Index.words := by unfold limit at hl; omega
  have h0 : r.capacity ≠ 0 := by omega
  simp [advance, Index.add, Index.wrap, hw, h0, bind, Except.bind]

theorem isEmpty_iff (h : r.Holds q) : r.isEmpty = true ↔ q = [] := by
  have hw := wrap_eq h.consumer_lt (Nat.le_of_lt h.room)
  have := h.consumer_lt
  have := h.room
  rw [isEmpty, beq_iff_eq, h.producer_eq, hw, ← List.length_eq_zero_iff]
  split <;> omega

theorem isFull_eq (h : r.Holds q) : r.isFull = .ok (decide (q.length + 1 = r.capacity)) := by
  have hw := wrap_eq h.consumer_lt (Nat.le_of_lt h.room)
  have hp := wrap_eq h.producer_lt (i := 1) (by have := h.two_le; omega)
  have hc := h.consumer_lt
  have hr := h.room
  have h2 := h.two_le
  have hiff : (r.producer + 1) % r.capacity = r.consumer ↔ q.length + 1 = r.capacity := by
    rw [hp, h.producer_eq, hw]
    split <;> split <;> omega
  simp only [isFull, h.advance_eq h.producer_lt, bind, Except.bind, pure, Except.pure]
  exact congrArg Except.ok (Bool.eq_iff_iff.mpr (by rw [beq_iff_eq, decide_eq_true_iff, hiff]))

/-- Counting neither overflows nor goes below zero. -/
theorem count_eq (h : r.Holds q) : r.count = .ok q.length := by
  have hw := wrap_eq h.consumer_lt (Nat.le_of_lt h.room)
  have hc := h.consumer_lt
  have hr := h.room
  have hl := h.le_limit
  have hp := h.producer_lt
  have hsum : r.producer + r.capacity < Index.words := by
    unfold limit at hl
    omega
  have hle : r.consumer ≤ r.producer + r.capacity := by omega
  have h0 : r.capacity ≠ 0 := by omega
  simp only [count, Index.add, Index.sub, Index.wrap, hsum, hle, h0, if_true, if_false, bind,
    Except.bind]
  refine congrArg Except.ok ?_
  rw [h.producer_eq, hw]
  -- the remainder takes away the capacity exactly when the queue does not wrap
  split
  · rw [show r.consumer + q.length + r.capacity - r.consumer = q.length + r.capacity by omega,
      Nat.add_mod_right, Nat.mod_eq_of_lt hr]
  · rw [show r.consumer + q.length - r.capacity + r.capacity - r.consumer = q.length by omega,
      Nat.mod_eq_of_lt hr]

/-! ### Slots -/

/-- The slots, read from the consumer, are the queue. -/
theorem toList_eq (h : r.Holds q) : r.toList = q := by
  have hs : ∀ i ∈ List.range r.capacity,
      (r.slots[(r.consumer + i) % r.capacity]?).join = q[i]? := by
    intro i hi
    rw [h.slot_eq i (List.mem_range.mp hi)]
    rfl
  calc r.toList
      = ((List.range r.capacity).map fun i =>
          (r.slots[(r.consumer + i) % r.capacity]?).join).filterMap id := by
        rw [List.filterMap_map]; rfl
    _ = ((List.range r.capacity).map fun i => q[i]?).filterMap id := by
        rw [List.map_congr_left hs]
    _ = (List.range r.capacity).filterMap fun i => q[i]? := by
        rw [List.filterMap_map]; rfl
    _ = q := filterMap_getElem?_range q (Nat.le_of_lt h.room)

/-- The queue is determined by the row. -/
theorem unique {q' : List α} (h : r.Holds q) (h' : r.Holds q') : q = q' :=
  h.toList_eq.symm.trans h'.toList_eq

/-- The slot that the next item goes to is vacant. -/
theorem producer_slot (h : r.Holds q) : r.slots[r.producer]? = some none := by
  have := h.slot_eq q.length h.room
  rwa [← h.producer_eq, List.getElem?_eq_none (Nat.le_refl _)] at this

/-- Every slot is some slot counted from the consumer. -/
theorem slot_eq_offset (h : r.Holds q) {i : Nat} (hi : i < r.capacity) :
    r.slots[i]? = some q[if r.consumer ≤ i then i - r.consumer
      else i + r.capacity - r.consumer]? := by
  have hc := h.consumer_lt
  split
  · next hle =>
    have hs := h.slot_eq (i - r.consumer) (by omega)
    rwa [show r.consumer + (i - r.consumer) = i by omega, Nat.mod_eq_of_lt hi] at hs
  · next hle =>
    have hs := h.slot_eq (i + r.capacity - r.consumer) (by omega)
    rwa [show r.consumer + (i + r.capacity - r.consumer) = i + r.capacity by omega,
      Nat.add_mod_right, Nat.mod_eq_of_lt hi] at hs

/-- The consumer's slot holds the oldest item. -/
theorem consumer_slot (h : r.Holds q) : r.slots[r.consumer]? = some q.head? := by
  have := h.slot_eq 0 (by have := h.two_le; omega)
  rwa [Nat.add_zero, Nat.mod_eq_of_lt h.consumer_lt, ← List.head?_eq_getElem?] at this

/-- A row that holds nothing, with both indices at the start, is the vacant
row of its size. -/
theorem eq_vacant (h : r.Holds []) (hp : r.producer = 0) (hc : r.consumer = 0) :
    r = vacant r.capacity := by
  have hslots : r.slots = Array.replicate r.capacity none := by
    refine Array.ext_getElem? fun i => ?_
    by_cases hi : i < r.capacity
    · have := h.slot_eq i hi
      rw [hc, Nat.zero_add, Nat.mod_eq_of_lt hi] at this
      simp [this, hi]
    · rw [Array.getElem?_eq_none (Nat.le_of_not_lt hi),
        Array.getElem?_eq_none (by simpa using Nat.le_of_not_lt hi)]
  calc r = ⟨r.slots, r.producer, r.consumer⟩ := rfl
    _ = vacant r.capacity := by rw [hslots, hp, hc]; rfl

/-! ### Changing a row -/

/-- All slots of a fresh row are vacant. -/
theorem fresh {n : Nat} (hn : 2 ≤ n) (hl : n ≤ limit) : (vacant n : Row α).Holds [] where
  two_le := by rwa [capacity_vacant]
  le_limit := by rwa [capacity_vacant]
  room := by rw [capacity_vacant]; exact Nat.lt_of_lt_of_le Nat.zero_lt_two hn
  consumer_lt := by rw [capacity_vacant]; exact Nat.lt_of_lt_of_le Nat.zero_lt_two hn
  producer_eq := (Nat.zero_mod _).symm
  slot_eq := fun i hi => by
    rw [capacity_vacant] at hi ⊢
    change (Array.replicate n none)[(0 + i) % n]? = some none
    rw [Nat.zero_add, Nat.mod_eq_of_lt hi]
    simp [hi]

theorem of_ofCapacity {n : Nat} (h : Row.ofCapacity n = .ok r) : r.Holds [] := by
  obtain ⟨hn, hl, rfl⟩ := ofCapacity_eq_ok_iff.mp h
  exact fresh hn hl

/-- Filling the producer's slot appends to the queue. -/
theorem push (h : r.Holds q) (hroom : q.length + 1 < r.capacity) (a : α) :
    Holds ⟨r.slots.setIfInBounds r.producer (some a), (r.producer + 1) % r.capacity, r.consumer⟩
      (q ++ [a]) where
  two_le := by simpa [capacity] using h.two_le
  le_limit := by simpa [capacity] using h.le_limit
  room := by simpa [capacity] using hroom
  consumer_lt := by simpa [capacity] using h.consumer_lt
  producer_eq := by
    simp only [capacity, Array.size_setIfInBounds, List.length_append, List.length_singleton]
    rw [h.producer_eq, capacity, Nat.mod_add_mod, Nat.add_assoc]
  slot_eq := fun i hi => by
    rw [show capacity ⟨r.slots.setIfInBounds r.producer (some a), (r.producer + 1) % r.capacity,
      r.consumer⟩ = r.capacity by simp [capacity]] at hi ⊢
    have hw := wrap_eq h.consumer_lt (Nat.le_of_lt hi)
    have hq := wrap_eq h.consumer_lt (Nat.le_of_lt h.room)
    have hc := h.consumer_lt
    have hp := h.producer_lt
    have hpe := h.producer_eq
    rw [hq] at hpe
    rw [Array.getElem?_setIfInBounds]
    -- the slot that was filled is the one at the end of the queue
    by_cases hiq : i = q.length
    · subst hiq
      rw [if_pos (by rw [hpe, hq]), if_pos (show r.producer < r.slots.size from hp)]
      simp
    · rw [if_neg (by rw [hpe, hw]; split <;> split <;> omega), h.slot_eq i hi]
      by_cases hlt : i < q.length
      · rw [List.getElem?_append_left hlt]
      · rw [List.getElem?_eq_none (by omega), List.getElem?_eq_none (by simp; omega)]

/-- Vacating the consumer's slot drops the oldest item. -/
theorem pop (h : r.Holds (a :: q)) :
    Holds ⟨r.slots.setIfInBounds r.consumer none, r.producer, (r.consumer + 1) % r.capacity⟩
      q where
  two_le := by simpa [capacity] using h.two_le
  le_limit := by simpa [capacity] using h.le_limit
  room := by have := h.room; simp [capacity] at this ⊢; omega
  consumer_lt := by
    simp only [capacity, Array.size_setIfInBounds]
    exact Nat.mod_lt _ (by have := h.two_le; unfold capacity at this; omega)
  producer_eq := by
    simp only [capacity, Array.size_setIfInBounds]
    rw [h.producer_eq, capacity, Nat.mod_add_mod, List.length_cons,
      show r.consumer + 1 + q.length = r.consumer + (q.length + 1) by omega]
  slot_eq := fun i hi => by
    rw [show capacity ⟨r.slots.setIfInBounds r.consumer none, r.producer,
      (r.consumer + 1) % r.capacity⟩ = r.capacity by simp [capacity]] at hi ⊢
    have hc := h.consumer_lt
    have hr := h.room
    rw [List.length_cons] at hr
    rw [Nat.mod_add_mod, show r.consumer + 1 + i = r.consumer + (i + 1) by omega,
      Array.getElem?_setIfInBounds]
    have hw := wrap_eq h.consumer_lt (i := i + 1) (by omega)
    -- the slot that was vacated is now the last one counted from the consumer
    by_cases hlast : i + 1 = r.capacity
    · rw [if_pos (by rw [hw]; split <;> omega), if_pos (show r.consumer < r.slots.size from hc),
        List.getElem?_eq_none (by omega)]
    · rw [if_neg (by rw [hw]; split <;> omega), h.slot_eq (i + 1) (by omega),
        List.getElem?_cons_succ]

/-- A row that holds nothing holds nothing after its indices were rewound. -/
theorem rewind (h : r.Holds []) : Holds { r with producer := 0, consumer := 0 } ([] : List α) where
  two_le := h.two_le
  le_limit := h.le_limit
  room := h.room
  consumer_lt := Nat.lt_of_lt_of_le Nat.zero_lt_two h.two_le
  producer_eq := by simp
  slot_eq := fun i hi => by
    change i < r.capacity at hi
    change r.slots[(0 + i) % r.capacity]? = some none
    rw [Nat.zero_add, Nat.mod_eq_of_lt hi, h.slot_eq_offset hi]
    rfl

/-! ### Items in and out -/

theorem enqueue_of_full (h : r.Holds q) (hf : q.length + 1 = r.capacity) (a : α) :
    r.enqueue a = .ok (some a, r) := by
  simp [enqueue, h.isFull_eq, hf, bind, Except.bind, pure, Except.pure]

theorem enqueue_of_room (h : r.Holds q) (hf : q.length + 1 ≠ r.capacity) (a : α) :
    ∃ r', r.enqueue a = .ok (none, r') ∧ r'.Holds (q ++ [a]) ∧ r'.capacity = r.capacity := by
  have hroom : q.length + 1 < r.capacity := Nat.lt_of_le_of_ne h.room hf
  refine ⟨_, ?_, h.push hroom a, by simp [capacity]⟩
  simp [enqueue, h.isFull_eq, hf, h.producer_slot, h.advance_eq h.producer_lt, bind, Except.bind,
    pure, Except.pure]

theorem enqueue_ok (h : r.Holds q) (a : α) : ∃ out, r.enqueue a = .ok out := by
  by_cases hf : q.length + 1 = r.capacity
  · exact ⟨_, h.enqueue_of_full hf a⟩
  · obtain ⟨r', he, -⟩ := h.enqueue_of_room hf a
    exact ⟨_, he⟩

/-- An item that is handed back was refused by a full row. -/
theorem of_enqueue_some (h : r.Holds q) {r' : Row α} {b : α}
    (he : r.enqueue a = .ok (some b, r')) : q.length + 1 = r.capacity := by
  refine Decidable.byContradiction fun hf => ?_
  obtain ⟨r₁, h₁, -⟩ := h.enqueue_of_room hf a
  rw [h₁] at he
  cases he

/-- An item that is not handed back has joined the queue. -/
theorem of_enqueue_none (h : r.Holds q) {r' : Row α} (he : r.enqueue a = .ok (none, r')) :
    q.length + 1 ≠ r.capacity ∧ r'.Holds (q ++ [a]) ∧ r'.capacity = r.capacity := by
  by_cases hf : q.length + 1 = r.capacity
  · rw [h.enqueue_of_full hf] at he
    cases he
  · obtain ⟨r₁, h₁, hq, hc⟩ := h.enqueue_of_room hf a
    rw [h₁] at he
    cases he
    exact ⟨hf, hq, hc⟩

theorem dequeue_nil (h : r.Holds []) : r.dequeue = .ok (none, r) := by
  simp [dequeue, h.isEmpty_iff.mpr rfl, pure, Except.pure]

theorem dequeue_cons (h : r.Holds (a :: q)) :
    ∃ r', r.dequeue = .ok (some a, r') ∧ r'.Holds q ∧ r'.capacity = r.capacity := by
  have hne : r.isEmpty = false := by
    rw [Bool.eq_false_iff, Ne, h.isEmpty_iff]
    exact List.cons_ne_nil a q
  refine ⟨_, ?_, h.pop, by simp [capacity]⟩
  simp [dequeue, hne, h.consumer_slot, h.advance_eq h.consumer_lt, bind, Except.bind, pure,
    Except.pure]

theorem dequeue_ok (h : r.Holds q) : ∃ out, r.dequeue = .ok out := by
  cases q with
  | nil => exact ⟨_, h.dequeue_nil⟩
  | cons a q =>
    obtain ⟨r', hd, -⟩ := h.dequeue_cons
    exact ⟨_, hd⟩

/-- Nothing is handed out only when nothing is queued. -/
theorem of_dequeue_none (h : r.Holds q) {r' : Row α} (hd : r.dequeue = .ok (none, r')) :
    q = [] := by
  cases q with
  | nil => rfl
  | cons a q =>
    obtain ⟨r₁, h₁, -⟩ := h.dequeue_cons
    rw [h₁] at hd
    cases hd

/-- What is handed out is the oldest item. -/
theorem of_dequeue_some (h : r.Holds q) {r' : Row α} (hd : r.dequeue = .ok (some a, r')) :
    q = a :: q.tail ∧ r'.Holds q.tail ∧ r'.capacity = r.capacity := by
  cases q with
  | nil =>
    rw [h.dequeue_nil] at hd
    cases hd
  | cons b q =>
    obtain ⟨r₁, h₁, hq, hc⟩ := h.dequeue_cons
    rw [h₁] at hd
    cases hd
    exact ⟨rfl, hq, hc⟩

/-! ### Emptying a row -/

/-- Draining ends, and hands out the queue. -/
theorem drainAll_eq (h : r.Holds q) :
    ∃ r', r.drainAll = .ok (q, r') ∧ r'.Holds [] ∧ r'.capacity = r.capacity := by
  induction q generalizing r with
  | nil =>
    refine ⟨r, ?_, h, rfl⟩
    rw [drainAll]
    split
    · next f hd => rw [h.dequeue_nil] at hd; cases hd
    · next r' hd =>
      rw [h.dequeue_nil] at hd
      cases hd
      rfl
    · next a r' hd => rw [h.dequeue_nil] at hd; cases hd
  | cons a q ih =>
    obtain ⟨r₁, hd, h₁, hc₁⟩ := h.dequeue_cons
    obtain ⟨r₂, hr, h₂, hc₂⟩ := ih h₁
    refine ⟨r₂, ?_, h₂, hc₂.trans hc₁⟩
    rw [drainAll]
    split
    · next f hd' => rw [hd] at hd'; cases hd'
    · next r' hd' => rw [hd] at hd'; cases hd'
    · next b r' hd' =>
      rw [hd] at hd'
      cases hd'
      simp [hr, bind, Except.bind, pure, Except.pure]

theorem drainAll_ok (h : r.Holds q) : ∃ out, r.drainAll = .ok out := by
  obtain ⟨r', hd, -⟩ := h.drainAll_eq
  exact ⟨_, hd⟩

theorem of_drainAll (h : r.Holds q) {as : List α} {r' : Row α} (hd : r.drainAll = .ok (as, r')) :
    as = q ∧ r'.Holds [] ∧ r'.capacity = r.capacity := by
  obtain ⟨r₁, h₁, hr, hc⟩ := h.drainAll_eq
  rw [h₁] at hd
  cases hd
  exact ⟨rfl, hr, hc⟩

/-- Resetting releases the whole queue and leaves the row as it was made. -/
theorem reset_eq (h : r.Holds q) : r.reset = .ok (q.length, vacant r.capacity) := by
  obtain ⟨r', hd, h', hc⟩ := h.drainAll_eq
  have hv := h'.rewind.eq_vacant rfl rfl
  rw [show capacity { r' with producer := 0, consumer := 0 } = r.capacity from hc] at hv
  simp only [reset, hd, bind, Except.bind, pure, Except.pure]
  rw [hv]

theorem of_reset (h : r.Holds q) {n : Nat} {r' : Row α} (hr : r.reset = .ok (n, r')) :
    r'.Holds [] := by
  rw [h.reset_eq] at hr
  cases hr
  exact fresh h.two_le h.le_limit

end Holds
end Row
end SoftNic
