/-! # Lines and pieces

A text is cut into lines at line feeds.  One carriage return directly before
the line feed belongs to the line end; any other carriage return is an
ordinary character.  A text that ends in a line feed has no further line after
it, so the empty text has no line at all.

A line is cut into pieces at a separator character, keeping empty pieces.
-/
namespace SoftNic
namespace Text

/-- The lines of a text, without their line ends. -/
def lines : List Char → List (List Char)
  | [] => []
  | '\n' :: cs => [] :: lines cs
  | '\r' :: '\n' :: cs => [] :: lines cs
  | c :: cs =>
    match lines cs with
    | [] => [[c]]
    | l :: ls => (c :: l) :: ls

/-- The pieces between the occurrences of a separator.  There is always one
piece more than there are separators. -/
def pieces (sep : Char) : List Char → List (List Char)
  | [] => [[]]
  | c :: cs =>
    if c = sep then [] :: pieces sep cs
    else
      match pieces sep cs with
      | [] => [[c]]
      | p :: ps => (c :: p) :: ps

/-- The text before the first occurrence of a separator and the text after
it, if the separator occurs. -/
def cut? (sep : Char) : List Char → Option (List Char × List Char)
  | [] => none
  | c :: cs =>
    if c = sep then some ([], cs)
    else (cut? sep cs).map fun p => (c :: p.1, p.2)

theorem pieces_ne_nil (sep : Char) (cs : List Char) : pieces sep cs ≠ [] := by
  cases cs with
  | nil => simp [pieces]
  | cons c cs =>
    rw [pieces]
    split
    · simp
    · split <;> simp

/-- A cut loses nothing but the separator. -/
theorem eq_append_of_cut? {sep : Char} {cs l r : List Char} (h : cut? sep cs = some (l, r)) :
    cs = l ++ sep :: r := by
  induction cs generalizing l with
  | nil => simp [cut?] at h
  | cons c cs ih =>
    rw [cut?] at h
    split at h
    · next hc => simp_all
    · obtain ⟨p, hp, he⟩ := Option.map_eq_some_iff.mp h
      simp only [Prod.mk.injEq] at he
      obtain ⟨rfl, rfl⟩ := he
      simp [ih hp]

variable {sep : Char} {cs : List Char}

theorem cut?_append {l : List Char} (h : sep ∉ l) (r : List Char) :
    cut? sep (l ++ sep :: r) = some (l, r) := by
  induction l with
  | nil => simp [cut?]
  | cons c l ih =>
    obtain ⟨hc, hl⟩ := not_or.mp (mt List.mem_cons.mpr h)
    rw [List.cons_append, cut?, if_neg (Ne.symm hc), ih hl]
    rfl

/-- A text is cut at the first of its separators. -/
theorem not_mem_of_cut? {l r : List Char} (h : cut? sep cs = some (l, r)) : sep ∉ l := by
  induction cs generalizing l with
  | nil => cases h
  | cons c cs ih =>
    rw [cut?] at h
    split at h
    · cases h
      exact List.not_mem_nil
    · next hc =>
      obtain ⟨p, hp, he⟩ := Option.map_eq_some_iff.mp h
      cases he
      rw [List.mem_cons, not_or]
      exact ⟨Ne.symm hc, ih hp⟩

theorem cut?_eq_some_iff {l r : List Char} :
    cut? sep cs = some (l, r) ↔ cs = l ++ sep :: r ∧ sep ∉ l := by
  refine ⟨fun h => ⟨eq_append_of_cut? h, not_mem_of_cut? h⟩, ?_⟩
  rintro ⟨rfl, h⟩
  exact cut?_append h r

theorem pieces_cons_self (sep : Char) (cs : List Char) :
    pieces sep (sep :: cs) = [] :: pieces sep cs := by
  rw [pieces, if_pos rfl]

theorem pieces_cons_of_ne {c : Char} (h : c ≠ sep) {p : List Char} {ps : List (List Char)}
    (hp : pieces sep cs = p :: ps) : pieces sep (c :: cs) = (c :: p) :: ps := by
  rw [pieces, if_neg h, hp]

/-- A text without separators is one piece. -/
theorem pieces_of_not_mem (h : sep ∉ cs) : pieces sep cs = [cs] := by
  induction cs with
  | nil => rfl
  | cons c cs ih =>
    obtain ⟨hc, hcs⟩ := not_or.mp (mt List.mem_cons.mpr h)
    exact pieces_cons_of_ne (Ne.symm hc) (ih hcs)

theorem pieces_append {p : List Char} (h : sep ∉ p) (cs : List Char) :
    pieces sep (p ++ sep :: cs) = p :: pieces sep cs := by
  induction p with
  | nil => exact pieces_cons_self sep cs
  | cons c p ih =>
    obtain ⟨hc, hp⟩ := not_or.mp (mt List.mem_cons.mpr h)
    exact pieces_cons_of_ne (Ne.symm hc) (ih hp)

/-- Pieces without separators can be joined and come apart again. -/
theorem pieces_intercalate {ps : List (List Char)} (hn : ps ≠ []) (h : ∀ p ∈ ps, sep ∉ p) :
    pieces sep ([sep].intercalate ps) = ps := by
  induction ps with
  | nil => exact absurd rfl hn
  | cons p ps ih =>
    cases ps with
    | nil =>
      rw [List.intercalate_singleton]
      exact pieces_of_not_mem (h p List.mem_cons_self)
    | cons q ps =>
      rw [List.intercalate_cons_cons, List.append_assoc, List.singleton_append,
        pieces_append (h p List.mem_cons_self),
        ih (List.cons_ne_nil q ps) fun r hr => h r (List.mem_cons_of_mem p hr)]

theorem intercalate_pieces (sep : Char) (cs : List Char) :
    [sep].intercalate (pieces sep cs) = cs := by
  induction cs with
  | nil => rfl
  | cons c cs ih =>
    obtain ⟨p, ps, hp⟩ := List.exists_cons_of_ne_nil (pieces_ne_nil sep cs)
    rw [hp] at ih
    by_cases hc : c = sep
    · subst hc
      rw [pieces_cons_self, hp, List.intercalate_cons_cons, ih]
      rfl
    · rw [pieces_cons_of_ne hc hp]
      cases ps with
      | nil =>
        rw [List.intercalate_singleton] at ih ⊢
        rw [ih]
      | cons q ps =>
        rw [List.intercalate_cons_cons] at ih ⊢
        rw [← ih]
        rfl

theorem not_mem_of_mem_pieces {p : List Char} (h : p ∈ pieces sep cs) : sep ∉ p := by
  induction cs generalizing p with
  | nil =>
    rw [List.mem_singleton.mp h]
    exact List.not_mem_nil
  | cons c cs ih =>
    obtain ⟨q, qs, hq⟩ := List.exists_cons_of_ne_nil (pieces_ne_nil sep cs)
    rw [hq] at ih
    by_cases hc : c = sep
    · subst hc
      rw [pieces_cons_self, hq] at h
      rcases List.mem_cons.mp h with rfl | h
      · exact List.not_mem_nil
      · exact ih h
    · rw [pieces_cons_of_ne hc hq] at h
      rcases List.mem_cons.mp h with rfl | h
      · rw [List.mem_cons, not_or]
        exact ⟨Ne.symm hc, ih List.mem_cons_self⟩
      · exact ih (List.mem_cons_of_mem q h)

/-! ### Lines that are written -/

/-- A text that can stand on one line and comes back from it whole. -/
structure OneLine (l : List Char) : Prop where
  feed : '\n' ∉ l
  /-- It does not end in what would be taken for a part of the line end. -/
  last : l.getLast? ≠ some '\r'

theorem lines_cons {c : Char} (hc : c ≠ '\n') {l : List Char} {ls : List (List Char)}
    (hr : c = '\r' → cs.head? ≠ some '\n') (h : lines cs = l :: ls) :
    lines (c :: cs) = (c :: l) :: ls := by
  rw [lines, h]
  · exact hc
  · intro ds hr' hd
    subst hd
    exact hr hr' rfl

theorem OneLine.lines_append {l : List Char} (h : OneLine l) (cs : List Char) :
    lines (l ++ '\n' :: cs) = l :: lines cs := by
  induction l with
  | nil => rfl
  | cons c l ih =>
    obtain ⟨hc, hl⟩ := not_or.mp (mt List.mem_cons.mpr h.feed)
    refine lines_cons (Ne.symm hc) ?_ (ih ⟨hl, ?_⟩)
    · rintro rfl hd
      cases l with
      | nil => exact h.last rfl
      | cons d l => cases hd; exact hl List.mem_cons_self
    · cases l with
      | nil => nofun
      | cons d l =>
        intro hlast
        exact h.last ((List.getLast?_cons_of_ne_nil (List.cons_ne_nil d l)).trans hlast)

/-- Lines that are written one after the other are read as written. -/
theorem lines_flatMap {ls : List (List Char)} (h : ∀ l ∈ ls, OneLine l) :
    lines (ls.flatMap (· ++ ['\n'])) = ls := by
  induction ls with
  | nil => rfl
  | cons l ls ih =>
    rw [List.flatMap_cons, List.append_assoc, List.singleton_append,
      (h l List.mem_cons_self).lines_append, ih fun m hm => h m (List.mem_cons_of_mem l hm)]

example : lines "a\r\nb\rc\n\n".toList = ["a".toList, "b\rc".toList, []] := by decide

example : pieces '.' "a..b".toList = ["a".toList, [], "b".toList] := by decide

end Text
end SoftNic
