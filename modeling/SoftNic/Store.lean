/-! # Stores

A store keeps the parts of one kind under handles.  A new part gets a handle
that no other part of the store has or had; parts are never removed, so a
handle that was given out stays good.  Looking up a handle that was never
given out yields the kind's default part.
-/
namespace SoftNic

/-- The name of a part of kind `α` in its store. -/
@[ext] structure Handle (α : Type) where
  index : Nat

instance {α : Type} : DecidableEq (Handle α) := fun a b =>
  decidable_of_iff (a.index = b.index) ⟨Handle.ext, congrArg Handle.index⟩

/-- Parts of one kind under handles. -/
structure Store (α : Type) where
  /-- The index of the next new part. -/
  next : Nat := 0
  cells : List (Nat × α) := []

namespace Store

variable {α : Type}

/-- The part at an index, if there is one. -/
def find? (index : Nat) : List (Nat × α) → Option α
  | [] => none
  | (i, a) :: rest => if i = index then some a else find? index rest

/-- Put a part at an index, in the place of the one that is there. -/
def place (index : Nat) (a : α) : List (Nat × α) → List (Nat × α)
  | [] => [(index, a)]
  | (i, b) :: rest => if i = index then (index, a) :: rest else (i, b) :: place index a rest

/-- The part under a handle. -/
def get [Inhabited α] (s : Store α) (h : Handle α) : α :=
  (find? h.index s.cells).getD default

/-- Replace the part under a handle. -/
def set (s : Store α) (h : Handle α) (a : α) : Store α :=
  { s with cells := place h.index a s.cells }

/-- Change the part under a handle. -/
def modify [Inhabited α] (s : Store α) (h : Handle α) (f : α → α) : Store α :=
  s.set h (f (s.get h))

/-- Store a new part. -/
def add (s : Store α) (a : α) : Handle α × Store α :=
  (⟨s.next⟩, { next := s.next + 1, cells := place s.next a s.cells })

theorem find?_place_self (index : Nat) (a : α) (cells : List (Nat × α)) :
    find? index (place index a cells) = some a := by
  induction cells with
  | nil => simp [place, find?]
  | cons c rest ih =>
    rw [place]
    split <;> simp_all [find?]

theorem find?_place_of_ne {index other : Nat} (h : other ≠ index) (a : α)
    (cells : List (Nat × α)) : find? other (place index a cells) = find? other cells := by
  induction cells with
  | nil => simp [place, find?, h.symm]
  | cons c rest ih =>
    obtain ⟨i, b⟩ := c
    rw [place]
    split
    · next hi => subst hi; simp [find?, h.symm]
    · simp only [find?, ih]

theorem place_place (index : Nat) (a b : α) (cells : List (Nat × α)) :
    place index b (place index a cells) = place index b cells := by
  induction cells with
  | nil => simp [place]
  | cons c rest ih =>
    obtain ⟨i, x⟩ := c
    by_cases hi : i = index
    · simp [place, hi]
    · simp [place, hi, ih]

/-- Only what was put there last counts. -/
@[simp] theorem set_set (s : Store α) (h : Handle α) (a b : α) :
    (s.set h a).set h b = s.set h b := by
  simp [set, place_place]

@[simp] theorem get_set_self [Inhabited α] (s : Store α) (h : Handle α) (a : α) :
    (s.set h a).get h = a := by
  simp [get, set, find?_place_self]

theorem get_set_of_ne [Inhabited α] (s : Store α) {h k : Handle α} (hne : k ≠ h) (a : α) :
    (s.set h a).get k = s.get k := by
  have : k.index ≠ h.index := fun he => hne (Handle.ext he)
  simp [get, set, find?_place_of_ne this]

@[simp] theorem get_modify_self [Inhabited α] (s : Store α) (h : Handle α) (f : α → α) :
    (s.modify h f).get h = f (s.get h) := by
  simp [modify]

theorem get_modify_of_ne [Inhabited α] (s : Store α) {h k : Handle α} (hne : k ≠ h)
    (f : α → α) : (s.modify h f).get k = s.get k :=
  s.get_set_of_ne hne _

@[simp] theorem next_set (s : Store α) (h : Handle α) (a : α) : (s.set h a).next = s.next := rfl

@[simp] theorem get_add_self [Inhabited α] (s : Store α) (a : α) :
    (s.add a).2.get (s.add a).1 = a := by
  simp [get, add, find?_place_self]

theorem get_add_of_ne [Inhabited α] (s : Store α) (a : α) {k : Handle α}
    (hne : k ≠ (s.add a).1) : (s.add a).2.get k = s.get k := by
  have : k.index ≠ s.next := fun he => hne (Handle.ext he)
  simp [get, add, find?_place_of_ne this]

end Store
end SoftNic
