import SoftNic.Text.Lines

/-! # Configuration trees

A document denotes a tree: scalars at the leaves and tables of named children
above them.  The children of a table are kept in ascending order of their
keys, code point by code point, with one entry to a key; `Tree.put` keeps them
so.  The order in which a table was filled is therefore not part of it.
-/
namespace SoftNic

/-- A value that is not a table. -/
inductive Scalar
  | text (s : String)
  | integer (n : Int)
  | boolean (b : Bool)
  deriving DecidableEq, Repr

/-- A scalar, or a table of named subtrees. -/
inductive Tree
  | scalar (v : Scalar)
  | table (entries : List (String × Tree))
  deriving Repr

namespace Tree

/-- The children of a table in ascending order of their keys. -/
abbrev Entries := List (String × Tree)

instance : Inhabited Tree := ⟨table []⟩

/-- The child of that name. -/
def get? (key : String) : Entries → Option Tree
  | [] => none
  | (k, t) :: rest => if k = key then some t else get? key rest

/-- Give a name to a child.  A child that had the name before is replaced. -/
def put (key : String) (child : Tree) : Entries → Entries
  | [] => [(key, child)]
  | (k, t) :: rest =>
    if key = k then (key, child) :: rest
    else if key < k then (key, child) :: (k, t) :: rest
    else (k, t) :: put key child rest

/-- The table with the given children; of several children of one name the
last stays. -/
def ofEntries (entries : Entries) : Tree :=
  table (entries.foldl (fun es e => put e.1 e.2 es) [])

/-- A direct child of a table; a scalar has none. -/
def child? (key : String) : Tree → Option Tree
  | scalar _ => none
  | table entries => get? key entries

/-- The subtree reached by naming one child after the other. -/
def descend? : List String → Tree → Option Tree
  | [], t => some t
  | key :: keys, t => (t.child? key).bind (descend? keys)

/-- The subtree at a dotted path.  Every dot separates two names. -/
def at? (path : String) (t : Tree) : Option Tree :=
  t.descend? ((Text.pieces '.' path.toList).map String.ofList)

@[simp] theorem get?_put_self (key : String) (child : Tree) (es : Entries) :
    get? key (put key child es) = some child := by
  induction es with
  | nil => simp [put, get?]
  | cons e rest ih =>
    obtain ⟨k, t⟩ := e
    by_cases hk : key = k
    · simp [put, get?, hk]
    · by_cases hl : key < k
      · simp [put, get?, hk, hl]
      · simp [put, get?, hk, hl, Ne.symm hk, ih]

theorem get?_put_of_ne {key other : String} (h : other ≠ key) (child : Tree) (es : Entries) :
    get? other (put key child es) = get? other es := by
  induction es with
  | nil => simp [put, get?, h.symm]
  | cons e rest ih =>
    obtain ⟨k, t⟩ := e
    by_cases hk : key = k
    · subst hk
      simp [put, get?, h.symm]
    · by_cases hl : key < k
      · simp [put, get?, hk, hl, h.symm]
      · simp only [put, if_neg hk, if_neg hl, get?, ih]

end Tree
end SoftNic
