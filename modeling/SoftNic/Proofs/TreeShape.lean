import SoftNic.Document.Reading

/-! # What stands where in a tree

A tree is known by what stands at its paths: nothing, a scalar, or a table with whatever
children (`Tree.node?`).  That is enough if the children of every table are in ascending
order of their keys, as reading keeps them: two such trees with the same at every path are
the same tree (`Tree.Ordered.ext`).

Everything that reading does to a tree is a change to one table of it (`updateAt`).  What
the change leaves at each path is said once (`updateAt_spec`), and so is when it can be made
at all (`exists_updateAt`).
-/
namespace SoftNic

/-- What stands at a path of a tree. -/
inductive Node
  | scalar (v : Scalar)
  | table
  deriving DecidableEq, Repr

namespace Tree

variable {key k : String} {path p q : List String} {t u c : Tree} {es fs : Entries} {v : Scalar}

/-- What a tree is at its root. -/
def node : Tree → Node
  | scalar v => .scalar v
  | table _ => .table

/-- What stands at a path of a tree, if anything does. -/
def node? (path : List String) (t : Tree) : Option Node :=
  (t.descend? path).map node

theorem descend?_append (p q : List String) (t : Tree) :
    t.descend? (p ++ q) = (t.descend? p).bind (descend? q) := by
  induction p generalizing t with
  | nil => rfl
  | cons key p ih =>
    rw [List.cons_append, descend?, descend?, Option.bind_assoc]
    exact congrArg _ (funext ih)

/-- Nothing stands below nothing. -/
theorem node?_append_eq_none (h : t.node? p = none) (q : List String) :
    t.node? (p ++ q) = none := by
  rw [node?, Option.map_eq_none_iff] at h ⊢
  rw [descend?_append, h]
  rfl

@[simp] theorem node?_nil (t : Tree) : t.node? [] = some t.node := rfl

theorem node?_table_cons (key : String) (path : List String) (es : Entries) :
    (table es).node? (key :: path) = (get? key es).bind (node? path) := by
  rw [node?, descend?, child?, Option.map_bind]
  rfl

@[simp] theorem node?_scalar_cons (key : String) (path : List String) (v : Scalar) :
    (scalar v).node? (key :: path) = none := rfl

@[simp] theorem node?_empty_cons (key : String) (path : List String) :
    (table []).node? (key :: path) = none := rfl

theorem node_eq_table_iff : t.node = .table ↔ ∃ es, t = table es := by
  cases t <;> simp [node]

theorem node_eq_scalar_iff : t.node = .scalar v ↔ t = scalar v := by
  cases t <;> simp [node]

theorem node?_eq_scalar_iff : t.node? path = some (.scalar v) ↔
    t.descend? path = some (scalar v) := by
  simp [node?, node_eq_scalar_iff]

theorem node?_eq_table_iff : t.node? path = some .table ↔
    ∃ es, t.descend? path = some (table es) := by
  simp only [node?, Option.map_eq_some_iff, node_eq_table_iff]
  constructor
  · rintro ⟨_, hd, es, rfl⟩
    exact ⟨es, hd⟩
  · rintro ⟨es, hd⟩
    exact ⟨_, hd, es, rfl⟩

/-! ## Ascending entries -/

/-- The keys of entries ascend. -/
def Ascending (es : Entries) : Prop :=
  es.Pairwise fun a b => a.1 < b.1

theorem get?_mem (h : get? key es = some t) : (key, t) ∈ es := by
  induction es with
  | nil => cases h
  | cons e rest ih =>
    obtain ⟨k, u⟩ := e
    rw [get?] at h
    split at h
    · next hk =>
      cases h
      exact hk ▸ List.mem_cons_self
    · exact List.mem_cons_of_mem _ (ih h)

/-- A key below all others names none of the entries. -/
theorem get?_of_lt (h : ∀ e ∈ es, key < e.1) : get? key es = none := by
  induction es with
  | nil => rfl
  | cons e rest ih =>
    obtain ⟨k, u⟩ := e
    have hk : k ≠ key := by
      rintro rfl
      exact String.lt_irrefl k (h _ List.mem_cons_self)
    rw [get?, if_neg hk]
    exact ih fun e he => h e (List.mem_cons_of_mem _ he)

theorem Ascending.get?_tail (h : Ascending ((k, t) :: es)) : get? k es = none :=
  get?_of_lt (List.pairwise_cons.mp h).1

theorem Ascending.get?_of_mem (h : Ascending es) (hm : (key, t) ∈ es) :
    get? key es = some t := by
  induction es with
  | nil => cases hm
  | cons e rest ih =>
    obtain ⟨k, u⟩ := e
    obtain ⟨hlt, hr⟩ := List.pairwise_cons.mp h
    rcases List.mem_cons.mp hm with he | hm
    · cases he
      rw [get?, if_pos rfl]
    · have hk : k ≠ key := by
        rintro rfl
        exact String.lt_irrefl k (hlt _ hm)
      rw [get?, if_neg hk, ih hr hm]

/-- **Ascending entries are known by what they name.** -/
theorem Ascending.ext (he : Ascending es) (hf : Ascending fs)
    (h : ∀ key, get? key es = get? key fs) : es = fs := by
  induction es generalizing fs with
  | nil =>
    cases fs with
    | nil => rfl
    | cons f fs => simpa [get?] using h f.1
  | cons e es ih =>
    cases fs with
    | nil => simpa [get?] using h e.1
    | cons f fs =>
      obtain ⟨k, t⟩ := e
      obtain ⟨l, u⟩ := f
      obtain ⟨hle, hes⟩ := List.pairwise_cons.mp he
      obtain ⟨hlf, hfs⟩ := List.pairwise_cons.mp hf
      -- Each of the first keys is named on the other side, so neither is below the other.
      have hkl : k = l := by
        have hk : (k, t) ∈ (l, u) :: fs := get?_mem (by rw [← h, get?, if_pos rfl])
        have hl : (l, u) ∈ (k, t) :: es := get?_mem (by rw [h, get?, if_pos rfl])
        rcases List.mem_cons.mp hk with hk | hk
        · cases hk
          rfl
        · rcases List.mem_cons.mp hl with hl | hl
          · cases hl
            rfl
          · exact absurd (hle _ hl) (String.lt_asymm (hlf _ hk))
      subst hkl
      have htu : t = u := by simpa [get?] using h k
      subst htu
      congr 1
      refine ih hes hfs fun key => ?_
      by_cases hk : k = key
      · subst hk
        rw [he.get?_tail, hf.get?_tail]
      · simpa [get?, hk] using h key

theorem mem_put {e : String × Tree} (h : e ∈ put key c es) : e = (key, c) ∨ e ∈ es := by
  induction es with
  | nil => exact Or.inl (List.mem_singleton.mp h)
  | cons f rest ih =>
    obtain ⟨k, t⟩ := f
    rw [put] at h
    split at h
    · exact (List.mem_cons.mp h).imp_right (List.mem_cons_of_mem _)
    · split at h
      · exact List.mem_cons.mp h
      · rcases List.mem_cons.mp h with h | h
        · exact Or.inr (h ▸ List.mem_cons_self)
        · exact (ih h).imp_right (List.mem_cons_of_mem _)

theorem Ascending.put (h : Ascending es) (key : String) (child : Tree) :
    Ascending (put key child es) := by
  induction es with
  | nil => exact List.pairwise_singleton _ _
  | cons e rest ih =>
    obtain ⟨k, t⟩ := e
    obtain ⟨hlt, hr⟩ := List.pairwise_cons.mp h
    rw [Tree.put]
    split
    · next hk =>
      subst hk
      exact List.pairwise_cons.mpr ⟨hlt, hr⟩
    · next hk =>
      split
      · next hl =>
        refine List.pairwise_cons.mpr ⟨fun e he => ?_, h⟩
        rcases List.mem_cons.mp he with rfl | he
        · exact hl
        · exact String.lt_trans hl (hlt e he)
      · next hl =>
        have hkk : k < key := String.not_le.mp fun hle =>
          hk (String.le_antisymm (String.not_lt.mp hl) hle).symm
        refine List.pairwise_cons.mpr ⟨fun e he => ?_, ih hr⟩
        rcases mem_put he with rfl | he
        · exact hkk
        · exact hlt e he

/-! ## Ordered trees -/

/-- The keys of every table in a tree ascend. -/
inductive Ordered : Tree → Prop
  | leaf (v : Scalar) : Ordered (scalar v)
  | branch {es : Entries} (ha : Ascending es) (hs : ∀ e ∈ es, Ordered e.2) : Ordered (table es)

theorem Ordered.ascending (h : Ordered (table es)) : Ascending es := by
  cases h with
  | branch ha _ => exact ha

theorem Ordered.child (h : Ordered (table es)) (hk : get? key es = some t) : Ordered t := by
  cases h with
  | branch _ hs => exact hs _ (get?_mem hk)

theorem ordered_empty : Ordered (table []) :=
  .branch List.Pairwise.nil nofun

theorem Ordered.put (h : Ordered (table es)) (hc : Ordered c) (key : String) :
    Ordered (table (put key c es)) := by
  cases h with
  | branch ha hs =>
    refine .branch (Ascending.put ha key c) fun e he => ?_
    rcases mem_put he with rfl | he
    · exact hc
    · exact hs e he

/-- **Ordered trees are known by what stands at their paths.** -/
theorem Ordered.ext (ht : Ordered t) (hu : Ordered u) (h : ∀ p, t.node? p = u.node? p) : t = u := by
  induction ht generalizing u with
  | leaf v =>
    have hn : Node.scalar v = u.node := Option.some.inj (h [])
    exact (node_eq_scalar_iff.mp hn.symm).symm
  | @branch es ha hs ih =>
    have hn : Node.table = u.node := Option.some.inj (h [])
    obtain ⟨fs, rfl⟩ := node_eq_table_iff.mp hn.symm
    congr 1
    refine ha.ext hu.ascending fun key => ?_
    have hkey : ∀ p, (get? key es).bind (node? p) = (get? key fs).bind (node? p) := fun p => by
      rw [← node?_table_cons, ← node?_table_cons, h]
    -- The two children of one name stand for the same, so the induction makes them equal.
    cases he : get? key es with
    | none =>
      cases hf : get? key fs with
      | none => rfl
      | some b => simpa [he, hf] using hkey []
    | some a =>
      cases hf : get? key fs with
      | none => simpa [he, hf] using hkey []
      | some b =>
        simp only [he, hf, Option.bind_some] at hkey
        exact congrArg some (ih _ (get?_mem he) (hu.child hf) hkey)

/-! ## Changing one table -/

/-- The children of the table at a path, or none if no table is there. -/
def entriesAt : List String → Entries → Entries
  | [], es => es
  | key :: path, es =>
    match get? key es with
    | some (table sub) => entriesAt path sub
    | _ => []

/-- The children that a change of the table at a path finds under the first key. -/
def within (key : String) (es : Entries) : Option Entries :=
  match get? key es with
  | some (scalar _) => none
  | some (table sub) => some sub
  | none => some []

theorem entriesAt_nil (path : List String) : entriesAt path [] = [] := by
  cases path <;> rfl

theorem entriesAt_cons_of_within {sub : Entries} (h : within key es = some sub)
    (path : List String) : entriesAt (key :: path) es = entriesAt path sub := by
  unfold within at h
  rw [entriesAt]
  split at h
  · cases h
  · next hk =>
    cases h
    rw [hk]
  · next hk =>
    cases h
    rw [hk]
    exact (entriesAt_nil path).symm

/-- Below the first key stands what stands under it; of the missing table nothing but itself
would be new. -/
theorem node?_cons_of_within {sub : Entries} (h : within key es = some sub) (hp : p ≠ []) :
    (table es).node? (key :: p) = (table sub).node? p := by
  unfold within at h
  rw [node?_table_cons]
  split at h
  · cases h
  · next hk =>
    cases h
    rw [hk]
    rfl
  · next hk =>
    cases h
    rw [hk]
    cases p with
    | nil => exact absurd rfl hp
    | cons l p => rfl

theorem within_eq_none_iff : within key es = none ↔
    ∃ v, (table es).node? [key] = some (.scalar v) := by
  rw [node?_table_cons]
  unfold within
  split
  · next hk => simp [hk, node]
  · next hk => simp [hk, node]
  · next hk => simp [hk]

theorem Ordered.within {sub : Entries} (h : Ordered (table es))
    (hb : within key es = some sub) : Ordered (table sub) := by
  unfold Tree.within at hb
  split at hb
  · cases hb
  · next hk =>
    cases hb
    exact h.child hk
  · cases hb
    exact ordered_empty

/-- What stands where after one child was put in place. -/
theorem node?_put_self (key : String) (child : Tree) (es : Entries) (p : List String) :
    (table (put key child es)).node? (key :: p) = child.node? p := by
  rw [node?_table_cons, get?_put_self]
  rfl

theorem node?_put_of_ne (h : k ≠ key) (child : Tree) (es : Entries) (p : List String) :
    (table (put key child es)).node? (k :: p) = (table es).node? (k :: p) := by
  rw [node?_table_cons, node?_table_cons, get?_put_of_ne h]

/-- No scalar stands on the way to a path, nor at it. -/
def Clear (path : List String) (es : Entries) : Prop :=
  ∀ p, p <+: path → ∀ v, (table es).node? p ≠ some (.scalar v)

theorem clear_nil (es : Entries) : Clear [] es := by
  intro p hp v
  rw [List.prefix_nil.mp hp]
  nofun

theorem clear_cons_iff : Clear (key :: path) es ↔ ∃ sub, within key es = some sub ∧ Clear path sub := by
  constructor
  · intro h
    cases hb : within key es with
    | none =>
      obtain ⟨v, hv⟩ := within_eq_none_iff.mp hb
      exact absurd hv (h [key] (List.prefix_cons_inj key |>.mpr List.nil_prefix) v)
    | some sub =>
      refine ⟨sub, rfl, fun p hp v => ?_⟩
      by_cases hn : p = []
      · subst hn
        nofun
      · rw [← node?_cons_of_within hb hn]
        exact h (key :: p) ((List.prefix_cons_inj key).mpr hp) v
  · rintro ⟨sub, hb, h⟩ p hp v
    rcases List.prefix_cons_iff.mp hp with rfl | ⟨q, rfl, hq⟩
    · nofun
    · by_cases hn : q = []
      · subst hn
        intro hv
        rw [within_eq_none_iff.mpr ⟨v, hv⟩] at hb
        cases hb
      · rw [node?_cons_of_within hb hn]
        exact h q hq v

end Tree

namespace Document

open SoftNic.Tree

variable {blocked : ConfigError} {change : Entries → Except ConfigError Entries}
  {key : String} {path : List String} {es es' : Entries}

theorem updateAt_cons (key : String) (path : List String) (es : Entries) :
    updateAt blocked change (key :: path) es =
      match within key es with
      | none => .error blocked
      | some sub => (updateAt blocked change path sub).map fun sub => put key (table sub) es := by
  unfold within
  rw [updateAt]
  cases get? key es with
  | none => rfl
  | some t => cases t <;> rfl

theorem updateAt_cons_eq_ok_iff : updateAt blocked change (key :: path) es = .ok es' ↔
    ∃ sub sub', within key es = some sub ∧ updateAt blocked change path sub = .ok sub' ∧
      es' = put key (table sub') es := by
  rw [updateAt_cons]
  cases within key es with
  | none => simp
  | some sub => simp only [map_eq_ok_iff, Option.some.injEq, exists_and_left, exists_eq_left',
      eq_comm (a := es')]

/-- What a change of the table at a path leaves. -/
structure Changed (path : List String) (es sub es' : Entries) : Prop where
  clear : Clear path es
  inside : ∀ p, (table es').node? (path ++ p) = (table sub).node? p
  outside : ∀ p, ¬ path <+: p → ¬ p <+: path → (table es').node? p = (table es).node? p
  onTheWay : ∀ p, p <+: path → (table es').node? p = some .table

/-- **A change is made to the table at its path**, with the tables on the way to it, and to
nothing else. -/
theorem updateAt_spec (h : updateAt blocked change path es = .ok es') :
    ∃ sub, change (entriesAt path es) = .ok sub ∧ Changed path es sub es' := by
  induction path generalizing es es' with
  | nil =>
    refine ⟨es', h, clear_nil es, fun p => rfl, fun p hp => absurd List.nil_prefix hp, ?_⟩
    intro p hp
    rw [List.prefix_nil.mp hp]
    rfl
  | cons key path ih =>
    obtain ⟨under, under', hb, hu, rfl⟩ := updateAt_cons_eq_ok_iff.mp h
    obtain ⟨sub, hc, hch⟩ := ih hu
    refine ⟨sub, ?_, clear_cons_iff.mpr ⟨under, hb, hch.clear⟩, fun p => ?_, fun p hp hq => ?_,
      fun p hp => ?_⟩
    · rw [entriesAt_cons_of_within hb, hc]
    · rw [List.cons_append, node?_put_self]
      exact hch.inside p
    · cases p with
      | nil => exact absurd List.nil_prefix hq
      | cons k p =>
        by_cases hk : k = key
        · subst hk
          rw [List.prefix_cons_inj] at hp hq
          rw [node?_put_self, hch.outside p hp hq, node?_cons_of_within hb]
          rintro rfl
          exact hq List.nil_prefix
        · exact node?_put_of_ne hk _ _ _
    · rcases List.prefix_cons_iff.mp hp with rfl | ⟨q, rfl, hq⟩
      · rfl
      · rw [node?_put_self]
        exact hch.onTheWay q hq

/-- A change can be made if no scalar is in its way. -/
theorem exists_updateAt (blocked : ConfigError) {sub : Entries} (hp : Clear path es)
    (hc : change (entriesAt path es) = .ok sub) :
    ∃ es', updateAt blocked change path es = .ok es' := by
  induction path generalizing es with
  | nil => exact ⟨sub, hc⟩
  | cons key path ih =>
    obtain ⟨under, hb, hclear⟩ := clear_cons_iff.mp hp
    rw [entriesAt_cons_of_within hb] at hc
    obtain ⟨under', hu⟩ := ih hclear hc
    exact ⟨_, updateAt_cons_eq_ok_iff.mpr ⟨under, under', hb, hu, rfl⟩⟩

/-- A change is refused because a scalar is in its way, or else as the change of its table
is. -/
theorem updateAt_error {e : ConfigError} (h : updateAt blocked change path es = .error e) :
    e = blocked ∧ ¬ Clear path es ∨ change (entriesAt path es) = .error e ∧ Clear path es := by
  induction path generalizing es with
  | nil => exact Or.inr ⟨h, clear_nil es⟩
  | cons key path ih =>
    rw [updateAt_cons] at h
    rw [clear_cons_iff]
    cases hb : within key es with
    | none =>
      rw [hb] at h
      cases h
      exact Or.inl ⟨rfl, fun ⟨_, hs, _⟩ => nomatch hs⟩
    | some sub =>
      rw [hb] at h
      rw [entriesAt_cons_of_within hb]
      rcases ih (map_eq_error_iff.mp h) with ⟨rfl, hn⟩ | ⟨hc, hclear⟩
      · refine Or.inl ⟨rfl, ?_⟩
        rintro ⟨_, hs, hclear⟩
        cases hs
        exact hn hclear
      · exact Or.inr ⟨hc, sub, rfl, hclear⟩

theorem ordered_updateAt (ho : Ordered (table es))
    (hc : ∀ fs fs', Ordered (table fs) → change fs = .ok fs' → Ordered (table fs'))
    (h : updateAt blocked change path es = .ok es') : Ordered (table es') := by
  induction path generalizing es es' with
  | nil => exact hc es es' ho h
  | cons key path ih =>
    obtain ⟨under, under', hb, hu, rfl⟩ := updateAt_cons_eq_ok_iff.mp h
    exact ho.put (ih (ho.within hb) hu) key

/-- What stands below a table that a change finds, or would find if it were there. -/
theorem node?_entriesAt {p : List String} (h : Clear path es) (hp : p ≠ []) :
    (table (entriesAt path es)).node? p = (table es).node? (path ++ p) := by
  induction path generalizing es with
  | nil => rfl
  | cons key path ih =>
    obtain ⟨under, hb, hclear⟩ := clear_cons_iff.mp h
    rw [entriesAt_cons_of_within hb, ih hclear, List.cons_append, node?_cons_of_within hb]
    simp [hp]

/-- A change that leaves its table as it is adds the tables that are missing. -/
theorem Changed.node?_same (h : Changed path es (entriesAt path es) es') (p : List String) :
    (table es').node? p = if p <+: path then some .table else (table es).node? p := by
  split
  · next hp => exact h.onTheWay p hp
  · next hp =>
    by_cases hq : path <+: p
    · obtain ⟨q, rfl⟩ := hq
      have hn : q ≠ [] := by
        rintro rfl
        exact hp (by simp)
      rw [h.inside, node?_entriesAt h.clear hn]
    · exact h.outside p hq hp

/-- A change that gives its table one more scalar adds that scalar too. -/
theorem Changed.node?_put {v : Scalar}
    (h : Changed path es (put key (.scalar v) (entriesAt path es)) es')
    (hfree : (table es).node? (path ++ [key]) = none) (p : List String) :
    (table es').node? p = if p = path ++ [key] then some (.scalar v)
      else if p <+: path then some .table else (table es).node? p := by
  by_cases hq : path <+: p
  · obtain ⟨q, rfl⟩ := hq
    rw [h.inside]
    simp only [List.append_cancel_left_eq]
    cases q with
    | nil => simp [node]
    | cons k q =>
      have hw : ¬ path ++ k :: q <+: path := fun hp => by
        have := hp.length_le
        rw [List.length_append, List.length_cons] at this
        omega
      rw [if_neg hw]
      by_cases hk : k = key
      · subst hk
        rw [node?_put_self]
        cases q with
        | nil => exact (if_pos rfl).symm
        | cons l q =>
          have hbelow := node?_append_eq_none hfree (l :: q)
          rw [List.append_assoc] at hbelow
          simpa using hbelow.symm
      · rw [node?_put_of_ne hk, node?_entriesAt h.clear (List.cons_ne_nil k q)]
        simp [hk]
  · have hp : p ≠ path ++ [key] := by
      rintro rfl
      exact hq (List.prefix_append path [key])
    rw [if_neg hp]
    split
    · next hw => exact h.onTheWay p hw
    · next hw => exact h.outside p hq hw

end Document
end SoftNic
