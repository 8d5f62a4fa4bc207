/-! # Blank characters

The characters that a reader of configuration text skips at the two ends of a
line: exactly those with the Unicode property `White_Space`.  The table is
short and closed, so membership is a disjunction of ranges.  Zero-width
characters and the information separators do not have the property and are
therefore kept.
-/
namespace SoftNic
namespace Text

/-- The characters with the Unicode property `White_Space`, as closed ranges
of code points in ascending order. -/
def blankRanges : List (Nat × Nat) :=
  [(0x0009, 0x000D), (0x0020, 0x0020), (0x0085, 0x0085), (0x00A0, 0x00A0),
   (0x1680, 0x1680), (0x2000, 0x200A), (0x2028, 0x2029), (0x202F, 0x202F),
   (0x205F, 0x205F), (0x3000, 0x3000)]

/-- Whether a character has the property `White_Space`. -/
def isBlank (c : Char) : Bool :=
  blankRanges.any fun r => r.1 ≤ c.toNat && c.toNat ≤ r.2

/-- Drop the blanks in front of a text. -/
def trimLeft (cs : List Char) : List Char :=
  cs.dropWhile isBlank

/-- Drop the blanks behind a text. -/
def trimRight (cs : List Char) : List Char :=
  (cs.reverse.dropWhile isBlank).reverse

/-- Drop the blanks at both ends of a text. -/
def trim (cs : List Char) : List Char :=
  trimRight (trimLeft cs)

theorem trimLeft_nil : trimLeft [] = [] := rfl

theorem trimLeft_cons_of_blank {c : Char} (h : isBlank c = true) (cs : List Char) :
    trimLeft (c :: cs) = trimLeft cs := by
  simp [trimLeft, h]

theorem trimLeft_cons_of_not_blank {c : Char} (h : isBlank c = false) (cs : List Char) :
    trimLeft (c :: cs) = c :: cs := by
  simp [trimLeft, h]

/-- Neither end of a text is blank. -/
structure Trimmed (cs : List Char) : Prop where
  head : ∀ c ∈ cs.head?, isBlank c = false
  last : ∀ c ∈ cs.getLast?, isBlank c = false

theorem trimLeft_eq_self {cs : List Char} (h : ∀ c ∈ cs.head?, isBlank c = false) :
    trimLeft cs = cs := by
  cases cs with
  | nil => rfl
  | cons c cs => exact trimLeft_cons_of_not_blank (h c rfl) cs

theorem head?_trimLeft (cs : List Char) : ∀ c ∈ (trimLeft cs).head?, isBlank c = false := by
  intro c hc
  have h := List.head?_dropWhile_not isBlank cs
  rw [← trimLeft, Option.mem_def.mp hc] at h
  exact h

/-- No character but a blank is dropped. -/
theorem mem_trimLeft {cs : List Char} {c : Char} (hc : c ∈ cs) (hb : isBlank c = false) :
    c ∈ trimLeft cs := by
  induction cs with
  | nil => cases hc
  | cons d cs ih =>
    cases hd : isBlank d with
    | false =>
      rw [trimLeft_cons_of_not_blank hd]
      exact hc
    | true =>
      rw [trimLeft_cons_of_blank hd]
      rcases List.mem_cons.mp hc with rfl | hc
      · cases hb.symm.trans hd
      · exact ih hc

theorem trimRight_eq (cs : List Char) : trimRight cs = (trimLeft cs.reverse).reverse := rfl

theorem mem_trim {cs : List Char} {c : Char} (hc : c ∈ cs) (hb : isBlank c = false) :
    c ∈ trim cs := by
  rw [trim, trimRight_eq, List.mem_reverse]
  exact mem_trimLeft (List.mem_reverse.mpr (mem_trimLeft hc hb)) hb

/-- Dropping the blanks behind a text does not change how it begins. -/
theorem head?_trimRight {cs : List Char} {c : Char} (h : c ∈ (trimRight cs).head?) :
    c ∈ cs.head? := by
  obtain ⟨t, ht⟩ := List.dropWhile_suffix isBlank (l := cs.reverse)
  have hcs : cs = trimRight cs ++ t.reverse := by
    rw [trimRight, ← List.reverse_append, ht, List.reverse_reverse]
  rw [hcs]
  cases htr : trimRight cs with
  | nil => rw [htr] at h; cases h
  | cons d ds => rw [htr] at h; exact h

theorem trim_cons_of_blank {c : Char} (h : isBlank c = true) (cs : List Char) :
    trim (c :: cs) = trim cs := by
  rw [trim, trimLeft_cons_of_blank h, trim]

theorem trimmed_trim (cs : List Char) : Trimmed (trim cs) where
  head c hc := head?_trimLeft cs c (head?_trimRight hc)
  last c hc := by
    rw [trim, trimRight_eq, List.getLast?_reverse] at hc
    exact head?_trimLeft _ c hc

namespace Trimmed

/-- There is nothing to drop. -/
theorem trim_eq {cs : List Char} (h : Trimmed cs) : trim cs = cs := by
  have hl : trimLeft cs.reverse = cs.reverse := trimLeft_eq_self fun c hc =>
    h.last c (by rwa [List.head?_reverse] at hc)
  rw [trim, trimLeft_eq_self h.head, trimRight_eq, hl, List.reverse_reverse]

/-- What stands between two such texts is kept. -/
theorem append {cs es : List Char} (hc : Trimmed cs) (he : Trimmed es) (hcn : cs ≠ [])
    (hen : es ≠ []) (ds : List Char) : Trimmed (cs ++ ds ++ es) where
  head c h := hc.head c (by
    rw [List.append_assoc, List.head?_append, List.head?_eq_some_head hcn] at h
    rwa [List.head?_eq_some_head hcn])
  last c h := he.last c (by
    rw [List.getLast?_append, List.getLast?_eq_some_getLast hen] at h
    rwa [List.getLast?_eq_some_getLast hen])

/-- One blank behind such a text is dropped. -/
theorem trim_concat {cs : List Char} (h : Trimmed cs) (hn : cs ≠ []) {c : Char}
    (hc : isBlank c = true) : trim (cs ++ [c]) = cs := by
  have hl : trimLeft (cs ++ [c]) = cs ++ [c] := trimLeft_eq_self fun d hd => by
    rw [List.head?_append, List.head?_eq_some_head hn] at hd
    exact h.head d (by rwa [List.head?_eq_some_head hn])
  rw [trim, hl, trimRight_eq, List.reverse_concat, trimLeft_cons_of_blank hc, ← trimRight_eq]
  have ht := h.trim_eq
  rwa [trim, trimLeft_eq_self h.head] at ht

/-- Such a text does not end with blanks. -/
theorem eq_nil_of_trim (cs : List Char) {rest : List Char} (h : Trimmed (cs ++ rest))
    (hr : trim rest = []) : rest = [] := by
  cases hx : rest.getLast? with
  | none => exact List.getLast?_eq_none_iff.mp hx
  | some c =>
    have hc : c ∈ rest := List.mem_of_getLast? hx
    have hb := h.last c (by rw [List.getLast?_append, hx]; rfl)
    have hm := mem_trim hc hb
    rw [hr] at hm
    cases hm

end Trimmed

/-- Every character that core calls white space is blank; the property holds
of more. -/
theorem isBlank_of_isWhitespace {c : Char} (h : c.isWhitespace = true) :
    isBlank c = true := by
  simp only [Char.isWhitespace, Bool.or_eq_true, decide_eq_true_eq] at h
  rcases h with ((h | h) | h) | h <;> subst h <;> decide

example : isBlank '\u00a0' = true ∧ isBlank '\u3000' = true := by decide

example : isBlank '\u200b' = false ∧ isBlank '\u001c' = false ∧ isBlank '\ufeff' = false := by
  decide

end Text
end SoftNic
