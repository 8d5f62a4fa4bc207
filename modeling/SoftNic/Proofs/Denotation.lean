import SoftNic.Proofs.Spelling
import SoftNic.Proofs.TreeShape

/-! # What a document denotes

Reading is a walk over lines with a table that is open.  What a document denotes does not
look like that at all: it has assignments, each at its full path (`assignments`), and
headers, and nothing else counts.  They agree with each other if no path is assigned twice
and none is assigned that a header needs as a table (`Consistent`).  A document is read if
and only if its lines are spelled and its assignments and headers agree, and then the tree
has a scalar for every assignment, a table for every path on the way to a header, and no
more (`Tree.Holds`, `read_denotes`).

The invariant is that after every line the draft holds what the lines so far say
(`Draft.Shows`).  One statement keeps it and succeeds just when what it adds agrees with
what there is (`Draft.Shows.apply`, `Draft.Shows.exists_apply_iff`).
-/
namespace SoftNic

/-- A value at its full path. -/
abbrev Assignment := List String × Scalar

/-- A tree has a scalar for every assignment, a table for every path on the way to a header,
and nothing else. -/
structure Tree.Holds (t : Tree) (as : List Assignment) (hs : List (List String)) : Prop where
  ordered : t.Ordered
  scalar_iff : ∀ p v, t.node? p = some (.scalar v) ↔ (p, v) ∈ as
  table_iff : ∀ p, t.node? p = some .table ↔ p = [] ∨ ∃ h ∈ hs, p <+: h

/-- There is one such tree at most. -/
theorem Tree.Holds.unique {t u : Tree} {as : List Assignment} {hs : List (List String)}
    (ht : t.Holds as hs) (hu : u.Holds as hs) : t = u := by
  refine ht.ordered.ext hu.ordered fun p => Option.ext fun n => ?_
  cases n with
  | scalar v => rw [ht.scalar_iff, hu.scalar_iff]
  | table => rw [ht.table_iff, hu.table_iff]

/-- Nothing stands at a path that is not assigned and not on the way to a header. -/
theorem Tree.Holds.free_iff {t : Tree} {as : List Assignment} {hs : List (List String)}
    {p : List String} (ht : t.Holds as hs) (hp : p ≠ []) :
    t.node? p = none ↔ (∀ v, (p, v) ∉ as) ∧ ∀ h ∈ hs, ¬ p <+: h := by
  rw [Option.eq_none_iff_forall_ne_some]
  constructor
  · intro hn
    refine ⟨fun v hv => hn _ ((ht.scalar_iff p v).mpr hv), fun h hm hpre => ?_⟩
    exact hn _ ((ht.table_iff p).mpr (Or.inr ⟨h, hm, hpre⟩))
  · rintro ⟨ha, hh⟩ n hn
    cases n with
    | scalar v => exact ha v ((ht.scalar_iff p v).mp hn)
    | table =>
      rcases (ht.table_iff p).mp hn with hnil | ⟨h, hm, hpre⟩
      · exact hp hnil
      · exact hh h hm hpre

/-- The order of the assignments and of the headers does not matter. -/
theorem Tree.Holds.congr {t : Tree} {as as' : List Assignment} {hs hs' : List (List String)}
    (h : t.Holds as hs) (ha : as.Perm as') (hh : hs.Perm hs') : t.Holds as' hs' where
  ordered := h.ordered
  scalar_iff p v := (h.scalar_iff p v).trans ha.mem_iff
  table_iff p := by
    rw [h.table_iff]
    simp only [hh.mem_iff]

namespace Document

open Text SoftNic.Tree

/-! ## Statements -/

namespace Statement

/-- The path of the table that is open behind a statement. -/
def leads (here : List String) : Statement → List String
  | header path => path
  | _ => here

/-- What a statement assigns. -/
def assigned (here : List String) : Statement → List Assignment
  | assignment key v => [(here ++ [key], v)]
  | _ => []

/-- The tables that a statement opens. -/
def opened : Statement → List (List String)
  | header path => [path]
  | _ => []

end Statement

/-- The assignments of statements, the first of which stands where the given table is
open. -/
def assignments : List String → List Statement → List Assignment
  | _, [] => []
  | here, s :: ss => s.assigned here ++ assignments (s.leads here) ss

/-- The paths of the headers among statements. -/
def headers (ss : List Statement) : List (List String) :=
  ss.flatMap Statement.opened

/-- No path is assigned twice, and none is assigned that stands on the way to a header. -/
structure Consistent (as : List Assignment) (hs : List (List String)) : Prop where
  nodup : (as.map Prod.fst).Nodup
  clear : ∀ a ∈ as, ∀ h ∈ hs, ¬ a.1 <+: h

section

variable {as as' : List Assignment} {hs hs' : List (List String)} {here path p : List String}
  {key : String} {v : Scalar} {s : Statement} {ss : List Statement} {d d' : Draft}

theorem consistent_nil : Consistent [] [] := ⟨List.nodup_nil, nofun⟩

theorem Consistent.of_append (h : Consistent (as ++ as') (hs ++ hs')) : Consistent as hs where
  nodup := by
    have := h.nodup
    rw [List.map_append] at this
    exact (List.nodup_append.mp this).1
  clear a ha b hb := h.clear a (List.mem_append_left _ ha) b (List.mem_append_left _ hb)

theorem Consistent.congr (h : Consistent as hs) (ha : as.Perm as') (hh : hs.Perm hs') :
    Consistent as' hs' where
  nodup := (ha.map Prod.fst).nodup_iff.mp h.nodup
  clear a hm b hb := h.clear a (ha.mem_iff.mpr hm) b (hh.mem_iff.mpr hb)

theorem Consistent.header_iff (h : Consistent as hs) :
    Consistent as (hs ++ [path]) ↔ ∀ a ∈ as, ¬ a.1 <+: path := by
  constructor
  · intro h' a ha
    exact h'.clear a ha path (List.mem_append_right _ List.mem_cons_self)
  · intro h'
    refine ⟨h.nodup, fun a ha b hb => ?_⟩
    rcases List.mem_append.mp hb with hb | hb
    · exact h.clear a ha b hb
    · rw [List.mem_singleton.mp hb]
      exact h' a ha

theorem Consistent.assignment_iff (h : Consistent as hs) :
    Consistent (as ++ [(p, v)]) hs ↔ (∀ w, (p, w) ∉ as) ∧ ∀ b ∈ hs, ¬ p <+: b := by
  constructor
  · intro h'
    have hn := h'.nodup
    rw [List.map_append, List.nodup_append] at hn
    refine ⟨fun w hw => ?_, h'.clear (p, v) (List.mem_append_right _ List.mem_cons_self)⟩
    exact hn.2.2 p (List.mem_map.mpr ⟨(p, w), hw, rfl⟩) p List.mem_cons_self rfl
  · rintro ⟨hp, hb⟩
    refine ⟨?_, fun a ha b hb' => ?_⟩
    · rw [List.map_append, List.nodup_append]
      refine ⟨h.nodup, by simp, ?_⟩
      rintro q hq r hr rfl
      obtain ⟨⟨q, w⟩, hm, rfl⟩ := List.mem_map.mp hq
      cases List.mem_singleton.mp hr
      exact hp w hm
    · rcases List.mem_append.mp ha with ha | ha
      · exact h.clear a ha b hb'
      · rw [List.mem_singleton.mp ha]
        exact hb b hb'

/-! ## Drafts -/

/-- The change that an assignment makes to its table. -/
def insertNew (key : String) (v : Scalar) (es : Entries) : Except ConfigError Entries :=
  match get? key es with
  | some _ => .error (.duplicateKey key)
  | none => .ok (put key (.scalar v) es)

theorem insertNew_eq_ok_iff {es es' : Entries} :
    insertNew key v es = .ok es' ↔ get? key es = none ∧ es' = put key (.scalar v) es := by
  unfold insertNew
  cases get? key es <;> simp [eq_comm]

theorem Draft.assign_eq (d : Draft) (key : String) (v : Scalar) :
    d.assign key v = (updateAt (.invalidTablePath d.current) (insertNew key v) d.current
      d.entries).map fun es => { d with entries := es } := rfl

theorem get?_eq_none_iff {es : Entries} : get? key es = none ↔ (table es).node? [key] = none := by
  rw [node?_table_cons]
  cases get? key es <;> simp

/-- A draft holds what has been read: these assignments and headers, with this table
open. -/
structure Draft.Shows (d : Draft) (as : List Assignment) (hs : List (List String))
    (here : List String) : Prop where
  holds : (table d.entries).Holds as hs
  consistent : Consistent as hs
  current : d.current = here
  /-- The open table is the root or was opened by a header. -/
  opened : here = [] ∨ here ∈ hs

namespace Draft.Shows

theorem start : Draft.Shows {} [] [] [] where
  holds := by
    refine ⟨ordered_empty, fun p v => ?_, fun p => ?_⟩ <;> cases p <;> simp [node]
  consistent := consistent_nil
  current := rfl
  opened := Or.inl rfl

theorem clear_iff (h : d.Shows as hs here) : Clear path d.entries ↔ ∀ a ∈ as, ¬ a.1 <+: path := by
  constructor
  · rintro hc ⟨p, v⟩ ha hp
    exact hc p hp v ((h.holds.scalar_iff p v).mpr ha)
  · intro hc p hp v hv
    exact hc (p, v) ((h.holds.scalar_iff p v).mp hv) hp

/-- Nothing that was assigned stands on the way to the open table. -/
theorem clear_current (h : d.Shows as hs here) : Clear here d.entries := by
  rcases h.opened with rfl | hm
  · exact clear_nil _
  · exact h.clear_iff.mpr fun a ha => h.consistent.clear a ha here hm

theorem table_of_prefix (h : d.Shows as hs here) (hp : p <+: here) :
    p = [] ∨ ∃ b ∈ hs, p <+: b := by
  rcases h.opened with rfl | hm
  · exact Or.inl (List.prefix_nil.mp hp)
  · exact Or.inr ⟨here, hm, hp⟩

/-! ### Headers -/

theorem exists_openTable_iff (h : d.Shows as hs here) :
    (∃ d', d.openTable path = .ok d') ↔ Consistent as (hs ++ [path]) := by
  rw [h.consistent.header_iff, ← h.clear_iff]
  constructor
  · rintro ⟨d', hd⟩
    obtain ⟨es, he, -⟩ := map_eq_ok_iff.mp hd
    obtain ⟨sub, -, hch⟩ := updateAt_spec he
    exact hch.clear
  · intro hc
    obtain ⟨es, he⟩ := exists_updateAt (.invalidTablePath path) hc rfl
    exact ⟨⟨es, path⟩, map_eq_ok_iff.mpr ⟨es, he, rfl⟩⟩

/-- Opening a table adds the tables on the way to it. -/
theorem openTable (h : d.Shows as hs here) (hd : d.openTable path = .ok d') :
    d'.Shows as (hs ++ [path]) path := by
  have hcons := h.exists_openTable_iff.mp ⟨d', hd⟩
  obtain ⟨es, he, rfl⟩ := map_eq_ok_iff.mp hd
  obtain ⟨sub, hsub, hch⟩ := updateAt_spec he
  cases hsub
  refine ⟨⟨ordered_updateAt h.holds.ordered ?_ he, fun p v => ?_, fun p => ?_⟩, hcons, rfl, ?_⟩
  · rintro fs fs' hf ⟨⟩
    exact hf
  · rw [hch.node?_same, ← h.holds.scalar_iff]
    split
    · next hp => simp [hch.clear p hp v]
    · rfl
  · rw [hch.node?_same]
    split
    · next hp => simp [hp]
    · next hp => simp [h.holds.table_iff, or_and_right, exists_or, hp]
  · exact Or.inr (List.mem_append_right _ List.mem_cons_self)

/-! ### Assignments -/

theorem exists_assign_iff (h : d.Shows as hs here) :
    (∃ d', d.assign key v = .ok d') ↔ Consistent (as ++ [(here ++ [key], v)]) hs := by
  have hne : here ++ [key] ≠ [] := List.append_ne_nil_of_right_ne_nil here (List.cons_ne_nil key [])
  rw [h.consistent.assignment_iff, ← h.holds.free_iff hne,
    ← node?_entriesAt h.clear_current (List.cons_ne_nil key []), ← get?_eq_none_iff]
  constructor
  · rintro ⟨d', hd⟩
    obtain ⟨es, he, -⟩ := map_eq_ok_iff.mp hd
    obtain ⟨sub, hsub, -⟩ := updateAt_spec he
    rw [h.current] at hsub
    exact (insertNew_eq_ok_iff.mp hsub).1
  · intro hn
    obtain ⟨es, he⟩ := exists_updateAt (.invalidTablePath here) h.clear_current
      (insertNew_eq_ok_iff.mpr ⟨hn, rfl⟩)
    rw [assign_eq, h.current]
    exact ⟨_, map_eq_ok_iff.mpr ⟨es, he, rfl⟩⟩

/-- An assignment adds its scalar. -/
theorem assign (h : d.Shows as hs here) (hd : d.assign key v = .ok d') :
    d'.Shows (as ++ [(here ++ [key], v)]) hs here := by
  have hcons := h.exists_assign_iff.mp ⟨d', hd⟩
  rw [assign_eq, h.current] at hd
  obtain ⟨es, he, rfl⟩ := map_eq_ok_iff.mp hd
  obtain ⟨sub, hsub, hch⟩ := updateAt_spec he
  obtain ⟨hfree, rfl⟩ := insertNew_eq_ok_iff.mp hsub
  rw [get?_eq_none_iff, node?_entriesAt hch.clear (List.cons_ne_nil key [])] at hfree
  -- The tables on the way to the open one are there already.
  have hnode : ∀ p, (table es).node? p =
      if p = here ++ [key] then some (.scalar v) else (table d.entries).node? p := by
    intro p
    rw [hch.node?_put hfree]
    split
    · rfl
    · split
      · next hp => exact ((h.holds.table_iff p).mpr (h.table_of_prefix hp)).symm
      · rfl
  refine ⟨⟨ordered_updateAt h.holds.ordered ?_ he, fun p w => ?_, fun p => ?_⟩, hcons, rfl,
    h.opened⟩
  · intro fs fs' hf hi
    obtain ⟨-, rfl⟩ := insertNew_eq_ok_iff.mp hi
    exact hf.put (.leaf v) key
  · rw [hnode, List.mem_append, ← h.holds.scalar_iff]
    split
    · next hp => simp [hp, hfree, eq_comm]
    · next hp => simp [hp]
  · rw [hnode, ← h.holds.table_iff]
    split
    · next hp => simp [hp, hfree]
    · rfl

/-! ### Statements -/

/-- **A statement is carried out just when what it adds agrees with what there is.** -/
theorem exists_apply_iff (h : d.Shows as hs here) (s : Statement) :
    (∃ d', d.apply s = .ok d') ↔ Consistent (as ++ s.assigned here) (hs ++ s.opened) := by
  cases s with
  | blank => simpa [Draft.apply, Statement.assigned, Statement.opened] using h.consistent
  | header path =>
    simpa [Draft.apply, Statement.assigned, Statement.opened] using h.exists_openTable_iff
  | assignment key v =>
    simpa [Draft.apply, Statement.assigned, Statement.opened] using h.exists_assign_iff

/-- **After a statement the draft holds what it says too.** -/
theorem apply (h : d.Shows as hs here) (hd : d.apply s = .ok d') :
    d'.Shows (as ++ s.assigned here) (hs ++ s.opened) (s.leads here) := by
  cases s with
  | blank =>
    cases hd
    simpa [Statement.assigned, Statement.opened, Statement.leads] using h
  | header path =>
    simpa [Statement.assigned, Statement.opened, Statement.leads] using h.openTable hd
  | assignment key v =>
    simpa [Statement.assigned, Statement.opened, Statement.leads] using h.assign hd

end Draft.Shows

/-! ## Lines -/

variable {n : Nat} {raws : List (List Char)}

theorem readLines_cons_eq_ok_iff {raw : List Char} : readLines n d (raw :: raws) = .ok d' ↔
    ∃ s d₁, Spells raw s ∧ d.apply s = .ok d₁ ∧ readLines (n + 1) d₁ raws = .ok d' := by
  rw [readLines]
  constructor
  · intro h
    split at h
    · cases h
    · next s hs =>
      split at h
      · cases h
      · next d₁ hd => exact ⟨s, d₁, ofLine_eq_ok_iff.mp hs, hd, h⟩
  · rintro ⟨s, d₁, hs, hd, h⟩
    rw [ofLine_eq_ok_iff.mpr hs]
    simp only [hd, h]

/-- **Lines are read just when they are spelled and what they add agrees** with what is
there. -/
theorem Draft.Shows.exists_readLines_iff (h : d.Shows as hs here) :
    (∃ d', readLines n d raws = .ok d') ↔ ∃ ss, List.Forall₂ Spells raws ss ∧
      Consistent (as ++ assignments here ss) (hs ++ headers ss) := by
  induction raws generalizing n d as hs here with
  | nil => simpa [readLines, assignments, headers] using h.consistent
  | cons raw raws ih =>
    constructor
    · rintro ⟨d', hd⟩
      obtain ⟨s, d₁, hsp, ha, hr⟩ := readLines_cons_eq_ok_iff.mp hd
      obtain ⟨ss, hss, hc⟩ := (ih (h.apply ha)).mp ⟨d', hr⟩
      refine ⟨s :: ss, .cons hsp hss, ?_⟩
      simpa [assignments, headers] using hc
    · rintro ⟨all, hall, hc⟩
      obtain ⟨s, ss, hsp, hss, rfl⟩ := List.forall₂_cons_left_iff.mp hall
      have hc' : Consistent ((as ++ s.assigned here) ++ assignments (s.leads here) ss)
          ((hs ++ s.opened) ++ headers ss) := by
        simpa [assignments, headers] using hc
      obtain ⟨d₁, ha⟩ := (h.exists_apply_iff s).mpr hc'.of_append
      obtain ⟨d', hr⟩ := (ih (n := n + 1) (h.apply ha)).mpr ⟨ss, hss, hc'⟩
      exact ⟨d', readLines_cons_eq_ok_iff.mpr ⟨s, d₁, hsp, ha, hr⟩⟩

/-- **After lines the draft holds what they say too.** -/
theorem Draft.Shows.readLines (h : d.Shows as hs here) (hd : readLines n d raws = .ok d')
    (hss : List.Forall₂ Spells raws ss) :
    (table d'.entries).Holds (as ++ assignments here ss) (hs ++ headers ss) := by
  induction hss generalizing n d as hs here with
  | nil =>
    cases hd
    simpa [assignments, headers] using h.holds
  | @cons raw s raws ss hsp hss ih =>
    obtain ⟨s', d₁, hsp', ha, hr⟩ := readLines_cons_eq_ok_iff.mp hd
    obtain rfl : s' = s := hsp'.unique hsp
    simpa [assignments, headers] using ih (h.apply ha) hr

/-! ## Sections -/

/-- Lines of which the first begins with a bracket, so that it can only be a header. -/
def IsSection (raws : List (List Char)) : Prop :=
  ∃ raw rest cs, raws = raw :: rest ∧ trim (uncomment raw) = '[' :: cs

/-- The statement that a line spells, if it spells one. -/
def said (raw : List Char) : Statement :=
  match Statement.ofLine 0 raw with
  | .ok s => s
  | .error _ => .blank

theorem Spells.said_eq {raw : List Char} (h : Spells raw s) : said raw = s := by
  rw [said, ofLine_eq_ok_iff.mpr h]

theorem forall₂_spells_iff :
    List.Forall₂ Spells raws ss ↔ (∀ raw ∈ raws, Spells raw (said raw)) ∧ ss = raws.map said := by
  constructor
  · intro h
    induction h with
    | nil => exact ⟨nofun, rfl⟩
    | cons hsp _ ih =>
      cases hsp.said_eq
      exact ⟨List.forall_mem_cons.mpr ⟨hsp, ih.1⟩, congrArg _ ih.2⟩
  · rintro ⟨h, rfl⟩
    rw [List.forall₂_map_right_iff]
    exact List.forall₂_same.mpr h

theorem assignments_append (here : List String) (ss ss' : List Statement) :
    assignments here (ss ++ ss') =
      assignments here ss ++ assignments (ss.foldl Statement.leads here) ss' := by
  induction ss generalizing here with
  | nil => rfl
  | cons s ss ih =>
    rw [List.cons_append, assignments, assignments, ih, List.append_assoc]
    rfl

/-- Behind a header it does not matter which table was open. -/
theorem assignments_sections {secs : List (List Statement)}
    (h : ∀ sec ∈ secs, ∃ path rest, sec = .header path :: rest) (here : List String) :
    assignments here secs.flatten = secs.flatMap (assignments []) := by
  induction secs generalizing here with
  | nil => rfl
  | cons sec secs ih =>
    obtain ⟨path, rest, rfl⟩ := h _ List.mem_cons_self
    rw [List.flatten_cons, List.flatMap_cons, assignments_append,
      ih fun sec hm => h sec (List.mem_cons_of_mem _ hm)]
    rfl

theorem IsSection.statements (h : IsSection raws) (hsp : ∀ raw ∈ raws, Spells raw (said raw)) :
    ∃ path rest, raws.map said = .header path :: rest := by
  obtain ⟨raw, rest, cs, rfl, hb⟩ := h
  have hraw := hsp raw List.mem_cons_self
  rw [Spells, hb] at hraw
  obtain ⟨path, hpath⟩ := hraw.of_bracket
  exact ⟨path, rest.map said, by rw [List.map_cons, hpath]⟩

/-- The sections of a document can be put in another order: its assignments and headers
stay what they are. -/
theorem sections_perm {pre : List (List Char)} {secs secs' : List (List (List Char))}
    (hsec : ∀ sec ∈ secs, IsSection sec) (hp : secs.Perm secs')
    (h : List.Forall₂ Spells (pre ++ secs.flatten) ss) :
    ∃ ss', List.Forall₂ Spells (pre ++ secs'.flatten) ss' ∧
      (assignments [] ss).Perm (assignments [] ss') ∧ (headers ss).Perm (headers ss') := by
  obtain ⟨hsp, rfl⟩ := forall₂_spells_iff.mp h
  have hlines : (pre ++ secs.flatten).Perm (pre ++ secs'.flatten) := hp.flatten.append_left pre
  refine ⟨_, forall₂_spells_iff.mpr ⟨fun raw hm => hsp raw (hlines.mem_iff.mpr hm), rfl⟩, ?_, ?_⟩
  · have hst : ∀ sec ∈ secs.map (List.map said), ∃ path rest, sec = .header path :: rest := by
      intro st hst
      obtain ⟨sec, hm, rfl⟩ := List.mem_map.mp hst
      refine (hsec sec hm).statements fun raw hraw => hsp raw ?_
      exact List.mem_append_right _ (List.mem_flatten.mpr ⟨sec, hm, hraw⟩)
    have hp' := hp.map (List.map said)
    rw [List.map_append, List.map_append, List.map_flatten, List.map_flatten, assignments_append,
      assignments_append, assignments_sections hst,
      assignments_sections fun sec hm => hst sec (hp'.mem_iff.mpr hm)]
    exact (hp'.flatMap_right _).append_left _
  · exact (hlines.map said).flatMap_right _

/-! ## Documents -/

variable {text : String} {t : Tree}

theorem exists_read_iff : (∃ t, read text = .ok t) ↔ ∃ ss,
    List.Forall₂ Spells (lines text.toList) ss ∧
      Consistent (assignments [] ss) (headers ss) := by
  have h : (∃ d', readLines 1 {} (lines text.toList) = .ok d') ↔ _ :=
    Draft.Shows.start.exists_readLines_iff
  simp only [List.nil_append] at h
  rw [← h]
  constructor
  · rintro ⟨t, ht⟩
    obtain ⟨d, hd, -⟩ := map_eq_ok_iff.mp ht
    exact ⟨d, hd⟩
  · rintro ⟨d, hd⟩
    exact ⟨_, map_eq_ok_iff.mpr ⟨d, hd, rfl⟩⟩

theorem holds_of_read (ht : read text = .ok t) (h : List.Forall₂ Spells (lines text.toList) ss) :
    t.Holds (assignments [] ss) (headers ss) := by
  obtain ⟨d, hd, rfl⟩ := map_eq_ok_iff.mp ht
  simpa using Draft.Shows.start.readLines hd h

theorem read_eq_ok_iff : read text = .ok t ↔ ∃ ss, List.Forall₂ Spells (lines text.toList) ss ∧
    Consistent (assignments [] ss) (headers ss) ∧ t.Holds (assignments [] ss) (headers ss) := by
  constructor
  · intro ht
    obtain ⟨ss, hss, hc⟩ := exists_read_iff.mp ⟨t, ht⟩
    exact ⟨ss, hss, hc, holds_of_read ht hss⟩
  · rintro ⟨ss, hss, hc, hh⟩
    obtain ⟨u, hu⟩ := exists_read_iff.mpr ⟨ss, hss, hc⟩
    rw [hu, (holds_of_read hu hss).unique hh]

theorem read_of_perm {other : String} {pre : List (List Char)}
    {secs secs' : List (List (List Char))} (hl : lines text.toList = pre ++ secs.flatten)
    (hl' : lines other.toList = pre ++ secs'.flatten) (hsec : ∀ sec ∈ secs, IsSection sec)
    (hp : secs.Perm secs') (ht : read text = .ok t) : read other = .ok t := by
  obtain ⟨ss, hss, hc, hh⟩ := read_eq_ok_iff.mp ht
  rw [hl] at hss
  obtain ⟨ss', hss', ha, hb⟩ := sections_perm hsec hp hss
  rw [← hl'] at hss'
  exact read_eq_ok_iff.mpr ⟨ss', hss', hc.congr ha hb, hh.congr ha hb⟩

/-- **A document denotes exactly its assignments.** It is read if and only if every line
spells a statement and the assignments and headers agree.  The tree then has a scalar for
every assignment, the root and the tables on the way to the headers, and nothing else.  The
sections of the document, below the lines in front of them, can stand in any order. -/
theorem read_denotes (text : String) :
    ((∃ t, read text = .ok t) ↔ ∃ ss, List.Forall₂ Spells (lines text.toList) ss ∧
      Consistent (assignments [] ss) (headers ss)) ∧
    (∀ t ss, read text = .ok t → List.Forall₂ Spells (lines text.toList) ss →
      t.Holds (assignments [] ss) (headers ss)) ∧
    ∀ (other : String) (pre : List (List Char)) (secs secs' : List (List (List Char))),
      lines text.toList = pre ++ secs.flatten → lines other.toList = pre ++ secs'.flatten →
      (∀ sec ∈ secs, IsSection sec) → secs.Perm secs' →
      ∀ t, read text = .ok t ↔ read other = .ok t := by
  refine ⟨exists_read_iff, fun t ss => holds_of_read, ?_⟩
  intro other pre secs secs' hl hl' hsec hp t
  constructor
  · exact read_of_perm hl hl' hsec hp
  · exact read_of_perm hl' hl (fun sec hm => hsec sec (hp.mem_iff.mpr hm)) hp.symm

end

/-- Two sections that change places. -/
theorem read_denotes_swapped : ∃ t, read "k = 1\n[b]\nx = 'y'\n[a.c]\n" = .ok t ∧
    read "k = 1\n[a.c]\n[b]\nx = 'y'\n" = .ok t := by
  obtain ⟨t, ht⟩ : ∃ t, read "k = 1\n[b]\nx = 'y'\n[a.c]\n" = .ok t := ⟨_, by rfl⟩
  have hswap := (read_denotes "k = 1\n[b]\nx = 'y'\n[a.c]\n").2.2
    "k = 1\n[a.c]\n[b]\nx = 'y'\n" ["k = 1".toList]
    [["[b]".toList, "x = 'y'".toList], ["[a.c]".toList]]
    [["[a.c]".toList], ["[b]".toList, "x = 'y'".toList]] (by decide) (by decide)
  have hsec : ∀ sec ∈ [["[b]".toList, "x = 'y'".toList], ["[a.c]".toList]], IsSection sec := by
    intro sec hm
    simp only [List.mem_cons, List.not_mem_nil, or_false] at hm
    rcases hm with rfl | rfl
    · exact ⟨_, _, "b]".toList, rfl, by decide⟩
    · exact ⟨_, _, "a.c]".toList, rfl, by decide⟩
  exact ⟨t, ht, (hswap hsec (List.Perm.swap _ _ _) t).mp ht⟩

end Document
end SoftNic
