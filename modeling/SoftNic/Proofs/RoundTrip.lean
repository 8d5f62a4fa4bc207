import Mathlib.Data.List.Nodup
import SoftNic.Proofs.Denotation
import SoftNic.Proofs.Printing

/-! # Trees in print

A tree of tables is written down table by table: the scalars of the root, and then for every
table below it a header with its path and its scalars (`printTree`).  The tables can be
written in any order.  Reading gives the tree back (`read_printTree`).

The proof does not follow the reader.  The assignments and headers that were written are the
scalars and tables of the tree (`holds_statementsOf`), they agree with each other because
paths in a tree are unique (`consistent_statementsOf`), and a document denotes the one
ordered tree that holds what it says.
-/
namespace SoftNic
namespace Tree

variable {t u : Tree} {es sub : Entries} {path p q keys : List String} {key : String} {v : Scalar}

/-! ## Subtrees -/

/-- The subtree that is reached by naming one child after the other. -/
inductive Subtree : List String → Tree → Tree → Prop
  | here (t : Tree) : Subtree [] t t
  | child {key : String} {keys : List String} {c t : Tree} {es : Entries} (hm : (key, c) ∈ es)
    (h : Subtree keys c t) : Subtree (key :: keys) (table es) t

theorem descend?_cons_eq_some_iff : t.descend? (key :: keys) = some u ↔
    ∃ es c, t = table es ∧ get? key es = some c ∧ c.descend? keys = some u := by
  cases t with
  | scalar v => simp [descend?, child?]
  | table es => simp [descend?, child?, Option.bind_eq_some_iff]

/-- In an ordered tree a path leads to one subtree at most, which is the one reached. -/
theorem descend?_eq_some_iff (h : Ordered t) : t.descend? keys = some u ↔ Subtree keys t u := by
  induction keys generalizing t with
  | nil =>
    constructor
    · intro hu
      cases hu
      exact .here _
    · intro hs
      cases hs
      rfl
  | cons key keys ih =>
    rw [descend?_cons_eq_some_iff]
    constructor
    · rintro ⟨es, c, rfl, hk, hu⟩
      exact .child (get?_mem hk) ((ih (h.child hk)).mp hu)
    · intro hs
      cases hs with
      | @child _ _ c _ es hm hs =>
        have hk := h.ascending.get?_of_mem hm
        exact ⟨es, c, rfl, hk, (ih (h.child hk)).mpr hs⟩

theorem Ordered.descend? (h : Ordered t) (hu : t.descend? keys = some u) : Ordered u := by
  induction keys generalizing t with
  | nil =>
    cases hu
    exact h
  | cons key keys ih =>
    obtain ⟨es, c, rfl, hk, hu⟩ := descend?_cons_eq_some_iff.mp hu
    exact ih (h.child hk) hu

/-- A dotted path of keys without dots names one child after the other. -/
theorem at?_intercalate (hn : keys ≠ []) (hd : ∀ k ∈ keys, '.' ∉ k.toList) (t : Tree) :
    t.at? (".".intercalate keys) = t.descend? keys := by
  have hp : ∀ p ∈ keys.map String.toList, '.' ∉ p := by
    intro p hp
    obtain ⟨k, hk, rfl⟩ := List.mem_map.mp hp
    exact hd k hk
  have hs : ".".toList = ['.'] := rfl
  rw [at?, String.toList_intercalate, hs, Text.pieces_intercalate (by simpa using hn) hp]
  simp [Function.comp_def, String.ofList_toList]

/-- Nothing is reached beyond a scalar. -/
theorem descend?_append_of_scalar (h : t.descend? p = some (scalar v)) (hq : q ≠ []) :
    t.descend? (p ++ q) = none := by
  rw [descend?_append, h]
  cases q with
  | nil => exact absurd rfl hq
  | cons k q => rfl

/-! ## Tables and scalars -/

mutual

/-- The tables in a tree with their paths, outer tables first. -/
def tables (path : List String) : Tree → List (List String × Entries)
  | scalar _ => []
  | table es => (path, es) :: tablesBelow path es

/-- The tables below a table, one child after the other. -/
def tablesBelow (path : List String) : Entries → List (List String × Entries)
  | [] => []
  | (key, t) :: rest => tables (path ++ [key]) t ++ tablesBelow path rest

end

/-- The scalars among the children of a table. -/
def scalars (es : Entries) : List (String × Scalar) :=
  es.filterMap fun e =>
    match e.2 with
    | scalar v => some (e.1, v)
    | table _ => none

/-- The scalars of some tables at their full paths. -/
def leaves (tbs : List (List String × Entries)) : List Assignment :=
  tbs.flatMap fun tb => (scalars tb.2).map fun e => (tb.1 ++ [e.1], e.2)

theorem mem_scalars_iff : (key, v) ∈ scalars es ↔ (key, scalar v) ∈ es := by
  rw [scalars, List.mem_filterMap]
  constructor
  · rintro ⟨⟨k, t⟩, hm, he⟩
    cases t with
    | scalar w =>
      cases he
      exact hm
    | table sub => cases he
  · intro hm
    exact ⟨_, hm, rfl⟩

theorem mem_leaves_iff {tbs : List (List String × Entries)} : (p, v) ∈ leaves tbs ↔
    ∃ q sub key, (q, sub) ∈ tbs ∧ (key, scalar v) ∈ sub ∧ p = q ++ [key] := by
  simp only [leaves, List.mem_flatMap, List.mem_map]
  constructor
  · rintro ⟨⟨q, sub⟩, hm, ⟨k, w⟩, hs, he⟩
    cases he
    exact ⟨q, sub, k, hm, mem_scalars_iff.mp hs, rfl⟩
  · rintro ⟨q, sub, key, hm, hs, rfl⟩
    exact ⟨(q, sub), hm, (key, v), mem_scalars_iff.mpr hs, rfl⟩

theorem tablesBelow_eq_flatMap (path : List String) (es : Entries) :
    tablesBelow path es = es.flatMap fun e => e.2.tables (path ++ [e.1]) := by
  induction es with
  | nil => rfl
  | cons e rest ih =>
    rw [tablesBelow, ih]
    rfl

/-- The tables that are listed are those that are reached. -/
theorem mem_tables_iff (h : Ordered t) : (q, sub) ∈ t.tables path ↔
    ∃ p, q = path ++ p ∧ t.descend? p = some (table sub) := by
  induction h generalizing path with
  | leaf v =>
    constructor
    · nofun
    · rintro ⟨p, -, hp⟩
      cases p <;> cases hp
  | @branch es ha hs ih =>
    rw [tables, List.mem_cons, tablesBelow_eq_flatMap, List.mem_flatMap]
    constructor
    · rintro (heq | ⟨e, hm, he⟩)
      · cases heq
        exact ⟨[], (List.append_nil q).symm, rfl⟩
      · obtain ⟨p, rfl, hp⟩ := (ih e hm).mp he
        exact ⟨e.1 :: p, by simp, descend?_cons_eq_some_iff.mpr
          ⟨es, e.2, rfl, ha.get?_of_mem hm, hp⟩⟩
    · rintro ⟨p, rfl, hp⟩
      cases p with
      | nil =>
        cases hp
        exact Or.inl (by rw [List.append_nil])
      | cons key p =>
        obtain ⟨es, c, ⟨⟩, hk, hp⟩ := descend?_cons_eq_some_iff.mp hp
        have hm := get?_mem hk
        exact Or.inr ⟨(key, c), hm, (ih _ hm).mpr ⟨p, by simp, hp⟩⟩

/-- No two tables have the same path. -/
theorem nodup_tables (h : Ordered t) (path : List String) :
    ((t.tables path).map Prod.fst).Nodup := by
  induction h generalizing path with
  | leaf v => exact List.nodup_nil
  | @branch es ha hs ih =>
    have hpath : ∀ e ∈ es, ∀ q ∈ (e.2.tables (path ++ [e.1])).map Prod.fst,
        ∃ p, q = path ++ e.1 :: p := by
      intro e he q hq
      obtain ⟨⟨q, sub⟩, hm, rfl⟩ := List.mem_map.mp hq
      obtain ⟨p, hp, -⟩ := (mem_tables_iff (hs e he)).mp hm
      exact ⟨p, by simpa using hp⟩
    rw [tables, List.map_cons, tablesBelow_eq_flatMap, List.map_flatMap, List.nodup_cons,
      List.nodup_flatMap]
    refine ⟨?_, fun e he => ih e he _, ?_⟩
    · intro hm
      obtain ⟨e, he, hm⟩ := List.mem_flatMap.mp hm
      obtain ⟨p, hp⟩ := hpath e he path hm
      simp at hp
    · refine ha.imp_of_mem fun {a b} hma hmb hlt q hqa hqb => ?_
      obtain ⟨p, rfl⟩ := hpath a hma q hqa
      obtain ⟨p', hp'⟩ := hpath b hmb _ hqb
      have hab : a.1 = b.1 := (List.cons.inj (List.append_cancel_left hp')).1
      exact String.lt_irrefl b.1 (hab ▸ hlt)

theorem Ascending.nodup_scalars (h : Ascending es) :
    ((scalars es).map Prod.fst).Nodup := by
  have hp : (scalars es).Pairwise fun a b => a.1 < b.1 := by
    refine h.filterMap _ ?_
    rintro ⟨k, t⟩ ⟨l, u⟩ hlt a ha b hb
    cases t <;> cases ha
    cases u <;> cases hb
    exact hlt
  refine List.pairwise_map.mpr (hp.imp fun {a b} hlt heq => ?_)
  exact String.lt_irrefl b.1 (heq ▸ hlt)

/-- No two scalars have the same path. -/
theorem nodup_leaves {tbs : List (List String × Entries)} (hn : (tbs.map Prod.fst).Nodup)
    (ha : ∀ tb ∈ tbs, Ascending tb.2) : ((leaves tbs).map Prod.fst).Nodup := by
  rw [leaves, List.map_flatMap, List.nodup_flatMap]
  constructor
  · intro tb hm
    have hs := (ha tb hm).nodup_scalars
    simp only [List.map_map]
    rw [show (Prod.fst ∘ fun e : String × Scalar => (tb.1 ++ [e.1], e.2)) =
      (fun k => tb.1 ++ [k]) ∘ Prod.fst from rfl, ← List.map_map]
    exact hs.map fun a b hab => by simpa using hab
  · refine (List.pairwise_map.mp hn).imp fun {a b} hne q hqa hqb => ?_
    simp only [List.map_map, List.mem_map, Function.comp_apply] at hqa hqb
    obtain ⟨e, -, rfl⟩ := hqa
    obtain ⟨f, -, hf⟩ := hqb
    exact hne (List.append_inj_left' hf rfl).symm

/-! ## Trees that can be printed -/

/-- An ordered tree with bare keys and values that can be printed. -/
inductive Printable : Tree → Prop
  | leaf {v : Scalar} (h : v.Printable) : Printable (scalar v)
  | branch {es : Entries} (ha : Ascending es) (hk : ∀ e ∈ es, Document.IsBareKey e.1)
    (hs : ∀ e ∈ es, Printable e.2) : Printable (table es)

theorem Printable.ordered (h : Printable t) : Ordered t := by
  induction h with
  | @leaf v _ => exact .leaf v
  | branch ha _ _ ih => exact .branch ha ih

/-- Subtrees of such a tree can be printed too, and the keys on the way are bare. -/
theorem Printable.descend? (h : Printable t) (hu : t.descend? keys = some u) :
    (∀ k ∈ keys, Document.IsBareKey k) ∧ Printable u := by
  induction keys generalizing t with
  | nil =>
    cases hu
    exact ⟨nofun, h⟩
  | cons key keys ih =>
    obtain ⟨es, c, rfl, hk, hu⟩ := descend?_cons_eq_some_iff.mp hu
    cases h with
    | branch _ hb hs =>
      obtain ⟨hks, hp⟩ := ih (hs _ (get?_mem hk)) hu
      exact ⟨List.forall_mem_cons.mpr ⟨hb _ (get?_mem hk), hks⟩, hp⟩

end Tree

namespace Document

open Text SoftNic.Tree

/-! ## Printing -/

variable {es sub : Entries} {order : List (List String × Entries)} {s : Statement}

/-- The assignments of the scalars of a table. -/
def scalarStatements (es : Entries) : List Statement :=
  (scalars es).map fun e => .assignment e.1 e.2

/-- A table below the root: its header and its scalars. -/
def tableStatements (tb : List String × Entries) : List Statement :=
  .header tb.1 :: scalarStatements tb.2

/-- The statements of a tree: the scalars of the root, then the tables in the order given. -/
def statementsOf (es : Entries) (order : List (List String × Entries)) : List Statement :=
  scalarStatements es ++ order.flatMap tableStatements

/-- A tree in print. -/
def printTree (es : Entries) (order : List (List String × Entries)) : String :=
  printAll (statementsOf es order)

/-! ### What was written -/

theorem assignments_scalarStatements (here : List String) (es : Entries) :
    assignments here (scalarStatements es) =
      (scalars es).map fun e => (here ++ [e.1], e.2) := by
  rw [scalarStatements]
  induction scalars es with
  | nil => rfl
  | cons e rest ih => exact congrArg _ ih

theorem headers_scalarStatements (es : Entries) : headers (scalarStatements es) = [] := by
  rw [scalarStatements]
  induction scalars es with
  | nil => rfl
  | cons e rest ih => exact ih

/-- The assignments that were written are the scalars of the tables. -/
theorem assignments_statementsOf (es : Entries) (order : List (List String × Entries)) :
    assignments [] (statementsOf es order) = leaves (([], es) :: order) := by
  have hsec : ∀ sec ∈ order.map tableStatements, ∃ path rest, sec = .header path :: rest := by
    intro sec hm
    obtain ⟨tb, -, rfl⟩ := List.mem_map.mp hm
    exact ⟨tb.1, _, rfl⟩
  rw [statementsOf, assignments_append, assignments_scalarStatements, List.flatMap,
    assignments_sections hsec, leaves, List.flatMap_cons, List.flatMap_map]
  congr 1
  refine List.flatMap_congr fun tb _ => ?_
  exact assignments_scalarStatements tb.1 tb.2

/-- The headers that were written are the paths of the tables below the root. -/
theorem headers_statementsOf (es : Entries) (order : List (List String × Entries)) :
    headers (statementsOf es order) = order.map Prod.fst := by
  have htable : ∀ tb, headers (tableStatements tb) = [tb.1] := fun tb =>
    congrArg _ (headers_scalarStatements tb.2)
  rw [statementsOf, headers, List.flatMap_append, ← headers, headers_scalarStatements,
    List.nil_append, List.flatMap_assoc]
  induction order with
  | nil => rfl
  | cons tb order ih =>
    rw [List.flatMap_cons, ih]
    exact congrArg (· ++ _) (htable tb)

section

variable (h : (table es).Ordered) (ho : order.Perm (tablesBelow [] es))
include h ho

/-- The tables that are written are those of the tree. -/
theorem mem_written_iff {q : List String} :
    (q, sub) ∈ ([], es) :: order ↔ (table es).descend? q = some (table sub) := by
  have hp : (([], es) :: order).Perm ((table es).tables []) := ho.cons _
  rw [hp.mem_iff, mem_tables_iff h]
  simp

theorem leaf_iff {p : List String} {v : Scalar} :
    (p, v) ∈ leaves (([], es) :: order) ↔ (table es).descend? p = some (scalar v) := by
  rw [mem_leaves_iff]
  constructor
  · rintro ⟨q, sub, key, hq, hm, rfl⟩
    have hsub := (mem_written_iff h ho).mp hq
    rw [descend?_append, hsub]
    exact descend?_cons_eq_some_iff.mpr
      ⟨sub, _, rfl, (h.descend? hsub).ascending.get?_of_mem hm, rfl⟩
  · intro hp
    rcases List.eq_nil_or_concat p with rfl | ⟨q, key, rfl⟩
    · cases hp
    · rw [List.concat_eq_append, descend?_append] at hp
      obtain ⟨u, hu, hkey⟩ := Option.bind_eq_some_iff.mp hp
      obtain ⟨sub, c, rfl, hk, hc⟩ := descend?_cons_eq_some_iff.mp hkey
      cases hc
      exact ⟨q, sub, key, (mem_written_iff h ho).mpr hu, get?_mem hk, List.concat_eq_append⟩

theorem header_iff {q : List String} (hq : q ≠ []) :
    q ∈ order.map Prod.fst ↔ ∃ sub, (table es).descend? q = some (table sub) := by
  simp only [← mem_written_iff h ho, List.mem_map, List.mem_cons]
  constructor
  · rintro ⟨⟨q, sub⟩, hm, rfl⟩
    exact ⟨sub, Or.inr hm⟩
  · rintro ⟨sub, heq | hm⟩
    · cases heq
      exact absurd rfl hq
    · exact ⟨(q, sub), hm, rfl⟩

theorem header_ne_nil {q : List String} (hq : q ∈ order.map Prod.fst) : q ≠ [] := by
  obtain ⟨⟨q, sub⟩, hm, rfl⟩ := List.mem_map.mp hq
  have hn := nodup_tables h []
  rw [tables, List.map_cons, List.nodup_cons] at hn
  rintro rfl
  exact hn.1 (List.mem_map.mpr ⟨_, ho.mem_iff.mp hm, rfl⟩)

/-- **A tree holds what was written of it.** -/
theorem holds_statementsOf : (table es).Holds (assignments [] (statementsOf es order))
    (headers (statementsOf es order)) where
  ordered := h
  scalar_iff p v := by
    rw [assignments_statementsOf, leaf_iff h ho, node?_eq_scalar_iff]
  table_iff p := by
    rw [headers_statementsOf, node?_eq_table_iff]
    constructor
    · intro hp
      by_cases hn : p = []
      · exact Or.inl hn
      · exact Or.inr ⟨p, (header_iff h ho hn).mpr hp, List.prefix_refl p⟩
    · rintro (rfl | ⟨q, hq, r, rfl⟩)
      · exact ⟨es, rfl⟩
      · obtain ⟨sub, hsub⟩ := (header_iff h ho (header_ne_nil h ho hq)).mp hq
        rw [descend?_append] at hsub
        obtain ⟨u, hu, hr⟩ := Option.bind_eq_some_iff.mp hsub
        cases u with
        | table es' => exact ⟨es', hu⟩
        | scalar v =>
          -- Below a scalar there is no table.
          cases r <;> cases hr

/-- **What was written of a tree agrees.** -/
theorem consistent_statementsOf : Consistent (assignments [] (statementsOf es order))
    (headers (statementsOf es order)) where
  nodup := by
    rw [assignments_statementsOf]
    have hp : (([], es) :: order).Perm ((table es).tables []) := ho.cons _
    refine nodup_leaves ((hp.map Prod.fst).nodup_iff.mpr (nodup_tables h [])) ?_
    rintro ⟨q, sub⟩ hm
    exact (h.descend? ((mem_written_iff h ho).mp hm)).ascending
  clear := by
    rw [assignments_statementsOf, headers_statementsOf]
    rintro ⟨p, v⟩ ha q hq ⟨r, rfl⟩
    have hp := (leaf_iff h ho).mp ha
    obtain ⟨sub, hsub⟩ := (header_iff h ho (header_ne_nil h ho hq)).mp hq
    by_cases hr : r = []
    · rw [hr, List.append_nil, hp] at hsub
      cases hsub
    · rw [descend?_append_of_scalar hp hr] at hsub
      cases hsub

end

/-! ### The round trip -/

theorem printable_scalarStatements (h : (table es).Printable) (hs : s ∈ scalarStatements es) :
    s.Printable := by
  obtain ⟨⟨k, v⟩, hm, rfl⟩ := List.mem_map.mp hs
  have hm := mem_scalars_iff.mp hm
  cases h with
  | branch _ hk hs =>
    have hv := hs _ hm
    cases hv with
    | leaf hv => exact ⟨hk _ hm, hv⟩

theorem printable_statementsOf (h : (table es).Printable) (ho : order.Perm (tablesBelow [] es))
    (hs : s ∈ statementsOf es order) : s.Printable := by
  rcases List.mem_append.mp hs with hs | hs
  · exact printable_scalarStatements h hs
  · obtain ⟨⟨q, sub⟩, hm, hs⟩ := List.mem_flatMap.mp hs
    have hsub := (mem_written_iff h.ordered ho).mp (List.mem_cons_of_mem _ hm)
    obtain ⟨hk, hp⟩ := h.descend? hsub
    rcases List.mem_cons.mp hs with rfl | hs
    · exact ⟨header_ne_nil h.ordered ho (List.mem_map.mpr ⟨_, hm, rfl⟩), hk⟩
    · exact printable_scalarStatements hp hs

/-- **Reading undoes printing.** A tree of tables that is printed, with the tables below the
root in any order, is read back as it was.  A dotted path of bare keys leads to the subtree
that is reached by naming one child after the other, if there is one. -/
theorem read_printTree (h : (table es).Printable) (ho : order.Perm (tablesBelow [] es)) :
    read (printTree es order) = .ok (table es) ∧
    ∀ keys, keys ≠ [] → (∀ k ∈ keys, IsBareKey k) → ∀ t,
      (table es).at? (".".intercalate keys) = some t ↔ Subtree keys (table es) t := by
  constructor
  · exact read_eq_ok_iff.mpr ⟨statementsOf es order,
      spells_printAll fun s => printable_statementsOf h ho,
      consistent_statementsOf h.ordered ho, holds_statementsOf h.ordered ho⟩
  · intro keys hn hk t
    rw [at?_intercalate hn fun k hm => (hk k hm).not_mem (by decide),
      descend?_eq_some_iff h.ordered]

/-- A table with quotes, a number sign and a line feed in a string, and with an empty table
two levels down. -/
def nested : Entries :=
  [("k", scalar (.text "#\"\n")), ("n", scalar (.integer (-5))), ("t", table [("u", table [])])]

theorem printable_nested : (table nested).Printable := by
  have hkey : ∀ k ∈ ["k", "n", "t", "u"], IsBareKey k := fun k hk =>
    ⟨by revert k; decide, List.all_eq_true.mp (by revert k; decide)⟩
  have hu : (table [("u", table [])]).Printable :=
    .branch (List.pairwise_singleton _ _) (by simpa using hkey "u" (by decide))
      (by simpa using .branch List.Pairwise.nil nofun nofun)
  refine .branch (by unfold Ascending nested; decide) ?_ ?_
  · intro e he
    exact hkey e.1 (by revert e; decide)
  · simp only [nested, List.mem_cons, List.not_mem_nil, or_false, forall_eq_or_imp, forall_eq]
    exact ⟨.leaf trivial, .leaf ⟨by decide, by decide⟩, hu⟩

theorem read_printTree_nested :
    read "k = \"#\\\"\\n\"\nn = -5\n[t.u]\n[t]\n" = .ok (table nested) ∧
    (table nested).at? "t.u" = some (table []) := by
  have ho : [(["t", "u"], []), (["t"], [("u", table [])])].Perm (tablesBelow [] nested) :=
    List.Perm.swap _ _ _
  have h := read_printTree printable_nested ho
  have hkeys : ∀ k ∈ ["t", "u"], IsBareKey k := fun k hk =>
    ⟨by revert k; decide, List.all_eq_true.mp (by revert k; decide)⟩
  refine ⟨h.1, (h.2 ["t", "u"] (by decide) hkeys _).mpr ?_⟩
  have ht : ("t", table [("u", table [])]) ∈ nested := by simp [nested]
  exact .child ht (.child List.mem_cons_self (.here _))

end Document
end SoftNic
