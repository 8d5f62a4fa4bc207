import SoftNic.Proofs.Spelling

/-! # Statements in print

A statement can be written down: a header with its keys between dots, an assignment with
its key, an equals sign and its value (`Statement.print`).  Strings are written as basic
strings; the five characters that have an escape are escaped and all others stand for
themselves, whatever they mean elsewhere in a document.  Integers are written in decimal.

What is written is one line and spells the statement (`Statement.Printable.oneLine`,
`Statement.Printable.spells`), if its keys can be bare and its integers have an opposite.
The number sign, the equals sign, brackets and blanks inside a string do no harm because
each scan that looks for them knows where the string ends or has passed it.
-/
namespace SoftNic

namespace Scalar

/-- A character inside a basic string. -/
def escape : Char → List Char
  | '\\' => ['\\', '\\']
  | '"' => ['\\', '"']
  | '\n' => ['\\', 'n']
  | '\t' => ['\\', 't']
  | '\r' => ['\\', 'r']
  | c => [c]

/-- A value in print. -/
def print : Scalar → List Char
  | text s => '"' :: (s.toList.flatMap escape ++ ['"'])
  | integer (.ofNat n) => Nat.toDigits 10 n
  | integer (.negSucc n) => '-' :: Nat.toDigits 10 (n + 1)
  | boolean true => "true".toList
  | boolean false => "false".toList

/-- A value that can be printed: every string, every boolean, and the 64-bit integers that
have an opposite. -/
def Printable : Scalar → Prop
  | integer n => Document.leastWord < n ∧ n ≤ Document.greatestWord
  | _ => True

end Scalar

namespace Document

open Text

/-- A key that can stand without quotes. -/
structure IsBareKey (k : String) : Prop where
  ne_nil : k.toList ≠ []
  chars : ∀ c ∈ k.toList, isKeyChar c = true

namespace Statement

/-- A statement in print. -/
def print : Statement → List Char
  | blank => []
  | header path => '[' :: (['.'].intercalate (path.map String.toList) ++ [']'])
  | assignment key v => key.toList ++ ' ' :: '=' :: ' ' :: v.print

/-- A statement with bare keys and a value that can be printed. -/
def Printable : Statement → Prop
  | blank => True
  | header path => path ≠ [] ∧ ∀ k ∈ path, IsBareKey k
  | assignment key v => IsBareKey key ∧ v.Printable

end Statement

variable {c d : Char} {cs ds : List Char} {k : String} {v : Scalar} {s : Statement}

/-! ## Visible characters -/

/-- A visible character of ASCII is not blank. -/
theorem isBlank_of_visible (hl : 0x21 ≤ c.toNat) (hu : c.toNat ≤ 0x7E) : isBlank c = false := by
  simp [isBlank, blankRanges]
  omega

theorem letter_cases (h : c.isAlpha = true) :
    ('A'.val ≤ c.val ∧ c.val ≤ 'Z'.val) ∨ ('a'.val ≤ c.val ∧ c.val ≤ 'z'.val) :=
  (Bool.or_eq_true_iff.mp h).imp of_decide_eq_true fun hl =>
    (Bool.and_eq_true_iff.mp hl).imp of_decide_eq_true of_decide_eq_true

theorem isKeyChar_visible (h : isKeyChar c = true) : 0x21 ≤ c.toNat ∧ c.toNat ≤ 0x7E := by
  have hv : c.toNat = c.val.toNat := rfl
  simp only [isKeyChar, Char.isAlphanum, Char.isDigit, Bool.or_eq_true, Bool.and_eq_true,
    decide_eq_true_eq, beq_iff_eq] at h
  rcases h with ((hl | hd) | rfl) | rfl
  · have hc := letter_cases hl
    simp only [UInt32.le_iff_toNat_le, Char.reduceVal, UInt32.reduceToNat] at hc
    omega
  · simp only [ge_iff_le, UInt32.le_iff_toNat_le, Char.reduceVal, UInt32.reduceToNat] at hd
    omega
  · decide
  · decide

theorem isKeyChar_ne (h : isKeyChar c = true) (hd : isKeyChar d = false) : c ≠ d := by
  rintro rfl
  rw [h] at hd
  cases hd

/-- Digits can stand in keys. -/
theorem isKeyChar_of_isDigit (h : c.isDigit = true) : isKeyChar c = true := by
  simp [isKeyChar, Char.isAlphanum, h]

theorem isKeyChar_of_digit? {n : Nat} (h : digit? 10 c = some n) : isKeyChar c = true :=
  isKeyChar_of_isDigit (isDigit_of_digit? h)

theorem trimmed_of_keyChars (h : ∀ c ∈ cs, isKeyChar c = true) : Trimmed cs := by
  have hb : ∀ c ∈ cs, isBlank c = false := fun c hc =>
    isBlank_of_visible (isKeyChar_visible (h c hc)).1 (isKeyChar_visible (h c hc)).2
  exact ⟨fun c hc => hb c (List.mem_of_mem_head? hc), fun c hc => hb c (List.mem_of_getLast? hc)⟩

theorem trimmed_cons_concat (hc : isBlank c = false) (hd : isBlank d = false) (cs : List Char) :
    Trimmed (c :: (cs ++ [d])) where
  head := by simpa using hc
  last := by
    rw [← List.cons_append, List.getLast?_concat]
    simpa using hd

/-! ## Digits -/

theorem digit?_digitChar {n : Nat} (h : n < 10) : digit? 10 n.digitChar = some n := by
  revert n
  decide

/-- Decimal digits denote the number that they were made of. -/
theorem digits_toDigits (n : Nat) : Digits 10 (Nat.toDigits 10 n) n := by
  induction n using Nat.strongRecOn with
  | ind n ih =>
    by_cases hn : n < 10
    · rw [Nat.toDigits_of_lt_base hn]
      exact .one (digit?_digitChar hn)
    · rw [Nat.toDigits_of_base_le (by decide) (Nat.le_of_not_lt hn)]
      have hd : digit? 10 (n % 10).digitChar = some (n % 10) := digit?_digitChar (by omega)
      have hmore := Digits.more (ih (n / 10) (by omega)) hd
      rwa [Nat.div_add_mod] at hmore

theorem isKeyChar_of_mem_toDigits {n : Nat} (h : c ∈ Nat.toDigits 10 n) : isKeyChar c = true := by
  obtain ⟨d, hd⟩ := (digits_toDigits n).digit_of_mem h
  exact isKeyChar_of_digit? hd

theorem misplacedUnderscore_of_not_mem (h : '_' ∉ cs) : misplacedUnderscore cs = false := by
  have hd : hasDoubleUnderscore cs = false := by
    induction cs with
    | nil => rfl
    | cons c cs ih =>
      obtain ⟨hc, hcs⟩ := not_or.mp (mt List.mem_cons.mpr h)
      rw [hasDoubleUnderscore]
      · exact ih hcs
      · rintro ds rfl -
        exact hc rfl
  have hf : cs.head? ≠ some '_' := fun hf => h (List.mem_of_mem_head? hf)
  have hl : cs.getLast? ≠ some '_' := fun hl => h (List.mem_of_getLast? hl)
  simp [misplacedUnderscore, hd, hf, hl]

/-- Without underscores an integer is its literal. -/
theorem integerText_of_literal {n : Int} (h : Literal cs n) (hu : '_' ∉ cs) :
    IntegerText cs n := by
  refine ⟨misplacedUnderscore_of_not_mem hu, ?_⟩
  rw [List.filter_eq_self.mpr]
  · exact h
  · intro c hc
    rw [bne_iff_ne]
    rintro rfl
    exact hu hc

theorem underscore_not_mem_toDigits (n : Nat) : '_' ∉ Nat.toDigits 10 n := by
  intro h
  obtain ⟨d, hd⟩ := (digits_toDigits n).digit_of_mem h
  cases hd

/-! ## Values -/

theorem basic_escape (cs : List Char) : Basic (cs.flatMap Scalar.escape) cs := by
  induction cs with
  | nil => exact .nil
  | cons c cs ih =>
    rw [List.flatMap_cons]
    unfold Scalar.escape
    split
    · exact .escape rfl ih
    · exact .escape rfl ih
    · exact .escape rfl ih
    · exact .escape rfl ih
    · exact .escape rfl ih
    · next hb hq _ _ _ => exact .plain hq hb ih

theorem quoted_print (s : String) : Quoted (Scalar.text s).print s := by
  have h := Quoted.basic (basic_escape s.toList)
  rwa [String.ofList_toList] at h

theorem fitsWord_iff {n : Int} : fitsWord n = true ↔ leastWord ≤ n ∧ n ≤ greatestWord := by
  rw [fitsWord, Bool.and_eq_true, decide_eq_true_eq, decide_eq_true_eq]

/-- **A value in print is a value.** -/
theorem valueText_print (h : v.Printable) : ValueText v.print v := by
  cases v with
  | text s => exact .text (quoted_print s)
  | boolean b =>
    cases b with
    | true => exact .yes
    | false => exact .no
  | integer n =>
    obtain ⟨hl, hu⟩ := h
    rw [leastWord] at hl
    rw [greatestWord] at hu
    cases n with
    | ofNat n =>
      have hfit : fitsWord (n : Int) = true :=
        fitsWord_iff.mpr ⟨by rw [leastWord]; omega, hu⟩
      exact .integer (integerText_of_literal (.unsigned (digits_toDigits n) hfit)
        (underscore_not_mem_toDigits n))
    | negSucc n =>
      have hfit : fitsWord ((n + 1 : Nat) : Int) = true :=
        fitsWord_iff.mpr ⟨by rw [leastWord]; omega, by rw [greatestWord]; omega⟩
      have hne : ((n + 1 : Nat) : Int) ≠ leastWord := by
        rw [leastWord]
        omega
      have hw : Word 10 (Nat.toDigits 10 (n + 1)) ((n + 1 : Nat) : Int) :=
        ⟨.plain (digits_toDigits (n + 1)), hfit⟩
      refine .integer (integerText_of_literal (.negative hw hne) ?_)
      intro hm
      rcases List.mem_cons.mp hm with hm | hm
      · cases hm
      · exact underscore_not_mem_toDigits _ hm

/-! ## Lines -/

/-- A text that can be put in front of any other without hiding or being hidden by a
comment. -/
def Kept (cs : List Char) : Prop :=
  ∀ rest, uncomment (cs ++ rest) = cs ++ uncomment rest

theorem Kept.append (hc : Kept cs) (hd : Kept ds) : Kept (cs ++ ds) := by
  intro rest
  rw [List.append_assoc, hc, hd, List.append_assoc]

/-- Nothing of such a text is taken for a comment. -/
theorem Kept.uncomment_eq (h : Kept cs) : uncomment cs = cs := by
  have hn := h []
  rwa [List.append_nil, show uncomment [] = [] from rfl, List.append_nil] at hn

/-- A character that neither opens quotes nor begins a comment. -/
def isInert (c : Char) : Bool :=
  c != '"' && c != '\'' && c != '#'

theorem kept_of_inert (h : ∀ c ∈ cs, isInert c = true) : Kept cs := by
  intro rest
  induction cs with
  | nil => rfl
  | cons c cs ih =>
    obtain ⟨⟨hd, hs⟩, hn⟩ : ((c ≠ '"' ∧ c ≠ '\'') ∧ c ≠ '#') := by
      simpa [isInert] using h c List.mem_cons_self
    have hnext : Quoting.next .outside c = .outside := by
      unfold Quoting.next
      split <;> simp_all
    rw [List.cons_append, uncomment, uncommentFrom, if_neg (fun hc => hn hc.2), hnext]
    exact congrArg _ (ih fun d hd => h d (List.mem_cons_of_mem c hd))

/-- Between double quotes nothing is taken for a comment. -/
theorem Basic.uncommentFrom_append (h : Basic cs ds) (rest : List Char) :
    uncommentFrom .basic (cs ++ rest) = cs ++ uncommentFrom .basic rest := by
  induction h with
  | nil => rfl
  | @plain c cs ds hq hb _ ih =>
    have hnext : Quoting.next .basic c = .basic := by
      unfold Quoting.next
      split <;> simp_all
    rw [List.cons_append, uncommentFrom, if_neg (fun hc => nomatch hc.1), hnext, ih]
    rfl
  | @escape e c cs ds _ _ ih =>
    rw [List.cons_append, List.cons_append, uncommentFrom, if_neg (fun hc => nomatch hc.1),
      uncommentFrom, if_neg (fun hc => nomatch hc.1)]
    exact congrArg _ (congrArg _ ih)

theorem kept_basic (h : Basic cs ds) : Kept ('"' :: (cs ++ ['"'])) := by
  intro rest
  rw [List.cons_append, List.append_assoc, uncomment, uncommentFrom, if_neg (by decide)]
  refine congrArg _ ?_
  rw [Quoting.next, h.uncommentFrom_append]
  simp only [List.append_eq, List.append_assoc]
  rfl

theorem isInert_of_isKeyChar (h : isKeyChar c = true) : isInert c = true := by
  have hd : c ≠ '"' := isKeyChar_ne h (by decide)
  have hs : c ≠ '\'' := isKeyChar_ne h (by decide)
  have hn : c ≠ '#' := isKeyChar_ne h (by decide)
  simp [isInert, hd, hs, hn]

theorem kept_print (v : Scalar) : Kept v.print := by
  cases v with
  | text s => exact kept_basic (basic_escape s.toList)
  | boolean b => cases b <;> exact kept_of_inert (List.all_eq_true.mp rfl)
  | integer n =>
    cases n with
    | ofNat n =>
      exact kept_of_inert fun c hc => isInert_of_isKeyChar (isKeyChar_of_mem_toDigits hc)
    | negSucc n =>
      refine kept_of_inert fun c hc => ?_
      rcases List.mem_cons.mp hc with rfl | hc
      · rfl
      · exact isInert_of_isKeyChar (isKeyChar_of_mem_toDigits hc)

theorem print_ne_nil (v : Scalar) : v.print ≠ [] := by
  cases v with
  | text s => exact List.cons_ne_nil _ _
  | boolean b => cases b <;> decide
  | integer n =>
    cases n with
    | ofNat n => exact (digits_toDigits n).ne_nil
    | negSucc n => exact List.cons_ne_nil _ _

theorem trimmed_print (v : Scalar) : Trimmed v.print := by
  cases v with
  | text s => exact trimmed_cons_concat (by decide) (by decide) _
  | boolean b => cases b <;> exact trimmed_of_keyChars (List.all_eq_true.mp rfl)
  | integer n =>
    cases n with
    | ofNat n => exact trimmed_of_keyChars fun c => isKeyChar_of_mem_toDigits
    | negSucc n =>
      refine trimmed_of_keyChars fun c hc => ?_
      rcases List.mem_cons.mp hc with rfl | hc
      · rfl
      · exact isKeyChar_of_mem_toDigits hc

/-- A character that has no part in the end of a line. -/
def isInline (c : Char) : Bool :=
  c != '\n' && c != '\r'

theorem isInline_of_isKeyChar (h : isKeyChar c = true) : isInline c = true := by
  have hn : c ≠ '\n' := isKeyChar_ne h (by decide)
  have hr : c ≠ '\r' := isKeyChar_ne h (by decide)
  simp [isInline, hn, hr]

theorem oneLine_of_inline (h : ∀ c ∈ cs, isInline c = true) : OneLine cs where
  feed hm := by simpa [isInline] using h _ hm
  last hl := by simpa [isInline] using h _ (List.mem_of_getLast? hl)

/-- Line feeds and carriage returns are among the characters that have an escape. -/
theorem isInline_of_mem_escape (h : d ∈ Scalar.escape c) : isInline d = true := by
  unfold Scalar.escape at h
  split at h
  · exact List.all_eq_true.mp rfl d h
  · exact List.all_eq_true.mp rfl d h
  · exact List.all_eq_true.mp rfl d h
  · exact List.all_eq_true.mp rfl d h
  · exact List.all_eq_true.mp rfl d h
  · next hn _ hr =>
    have hne : c ≠ '\n' ∧ c ≠ '\r' := ⟨hn, hr⟩
    rw [List.mem_singleton.mp h]
    simpa [isInline] using hne

theorem isInline_of_mem_print (h : c ∈ v.print) : isInline c = true := by
  cases v with
  | text s =>
    rcases List.mem_cons.mp h with rfl | h
    · rfl
    · rcases List.mem_append.mp h with h | h
      · obtain ⟨d, -, hd⟩ := List.mem_flatMap.mp h
        exact isInline_of_mem_escape hd
      · rw [List.mem_singleton.mp h]
        rfl
  | boolean b => cases b <;> exact List.all_eq_true.mp rfl c h
  | integer n =>
    cases n with
    | ofNat n => exact isInline_of_isKeyChar (isKeyChar_of_mem_toDigits h)
    | negSucc n =>
      rcases List.mem_cons.mp h with rfl | h
      · rfl
      · exact isInline_of_isKeyChar (isKeyChar_of_mem_toDigits h)

/-! ## Statements -/

theorem IsBareKey.keyText (h : IsBareKey k) : KeyText (trim k.toList) k := by
  have hk := KeyText.bare h.ne_nil h.chars
  rwa [String.ofList_toList, ← (trimmed_of_keyChars h.chars).trim_eq] at hk

theorem IsBareKey.not_mem (h : IsBareKey k) (hd : isKeyChar d = false) : d ∉ k.toList :=
  fun hm => isKeyChar_ne (h.chars d hm) hd rfl

/-- The characters of a joined text are those of its parts and of the joint. -/
theorem mem_intercalate {parts : List (List Char)} (h : c ∈ [d].intercalate parts) :
    c = d ∨ ∃ part ∈ parts, c ∈ part := by
  induction parts with
  | nil => cases h
  | cons p ps ih =>
    cases ps with
    | nil =>
      rw [List.intercalate_singleton] at h
      exact Or.inr ⟨p, List.mem_cons_self, h⟩
    | cons q ps =>
      rw [List.intercalate_cons_cons, List.append_assoc] at h
      rcases List.mem_append.mp h with h | h
      · exact Or.inr ⟨p, List.mem_cons_self, h⟩
      · rcases List.mem_cons.mp h with rfl | h
        · exact Or.inl rfl
        · exact (ih h).imp_right fun ⟨r, hr, hc⟩ => ⟨r, List.mem_cons_of_mem p hr, hc⟩

/-- A header in print is made of brackets, dots and keys. -/
theorem mem_print_header {path : List String} (hp : ∀ k ∈ path, IsBareKey k)
    (h : c ∈ (Statement.header path).print) :
    c = '[' ∨ c = ']' ∨ c = '.' ∨ isKeyChar c = true := by
  rcases List.mem_cons.mp h with rfl | h
  · exact Or.inl rfl
  · rcases List.mem_append.mp h with h | h
    · rcases mem_intercalate h with rfl | ⟨part, hm, hc⟩
      · exact Or.inr (Or.inr (Or.inl rfl))
      · obtain ⟨k, hk, rfl⟩ := List.mem_map.mp hm
        exact Or.inr (Or.inr (Or.inr ((hp k hk).chars c hc)))
    · exact Or.inr (Or.inl (List.mem_singleton.mp h))

theorem statementText_header {path : List String} (hn : path ≠ []) (hp : ∀ k ∈ path, IsBareKey k) :
    StatementText (Statement.header path).print (.header path) := by
  refine .header (by simpa using hn) ?_ ?_
  · intro part hm
    obtain ⟨k, hk, rfl⟩ := List.mem_map.mp hm
    exact (hp k hk).not_mem (by decide)
  · rw [List.forall₂_map_left_iff, List.forall₂_same]
    exact fun k hk => (hp k hk).keyText

theorem statementText_assignment (hk : IsBareKey k) (hv : v.Printable) :
    StatementText (Statement.assignment k v).print (.assignment k v) := by
  have htrim : Trimmed k.toList := trimmed_of_keyChars hk.chars
  have hl : trim (k.toList ++ [' ']) = trim k.toList := by
    rw [htrim.trim_concat hk.ne_nil (by decide), htrim.trim_eq]
  have hr : trim (' ' :: v.print) = v.print := by
    rw [trim_cons_of_blank (by decide), (trimmed_print v).trim_eq]
  have he : '=' ∉ k.toList ++ [' '] := by
    intro hm
    rcases List.mem_append.mp hm with hm | hm
    · exact hk.not_mem (by decide) hm
    · cases List.mem_singleton.mp hm
  have h : StatementText (k.toList ++ [' '] ++ '=' :: ' ' :: v.print) (.assignment k v) :=
    .assignment he (by rw [hl]; exact hk.keyText) (by rw [hr]; exact valueText_print hv)
  rwa [List.append_assoc] at h

namespace Statement.Printable

/-- **A statement in print is one line.** -/
theorem oneLine (h : s.Printable) : OneLine s.print := by
  refine oneLine_of_inline fun c hc => ?_
  cases s with
  | blank => cases hc
  | header path =>
    rcases mem_print_header h.2 hc with rfl | rfl | rfl | hc
    · rfl
    · rfl
    · rfl
    · exact isInline_of_isKeyChar hc
  | assignment key v =>
    rcases List.mem_append.mp hc with hc | hc
    · exact isInline_of_isKeyChar (h.1.chars c hc)
    · simp only [List.mem_cons] at hc
      rcases hc with rfl | rfl | rfl | hc
      · rfl
      · rfl
      · rfl
      · exact isInline_of_mem_print hc

theorem statementText (h : s.Printable) : StatementText s.print s := by
  cases s with
  | blank => exact .blank
  | header path => exact statementText_header h.1 h.2
  | assignment key v => exact statementText_assignment h.1 h.2

/-- No part of a statement in print is taken for a comment. -/
theorem kept (h : s.Printable) : Kept s.print := by
  cases s with
  | blank => exact kept_of_inert nofun
  | header path =>
    refine kept_of_inert fun c hc => ?_
    rcases mem_print_header h.2 hc with rfl | rfl | rfl | hc
    · rfl
    · rfl
    · rfl
    · exact isInert_of_isKeyChar hc
  | assignment key v =>
    have hkey : Kept key.toList := kept_of_inert fun c hc => isInert_of_isKeyChar (h.1.chars c hc)
    have hmid : Kept [' ', '=', ' '] := kept_of_inert (List.all_eq_true.mp rfl)
    have hline := (hkey.append hmid).append (kept_print v)
    rwa [List.append_assoc] at hline

theorem trimmed (h : s.Printable) : Trimmed s.print := by
  cases s with
  | blank => exact ⟨nofun, nofun⟩
  | header path => exact trimmed_cons_concat (by decide) (by decide) _
  | assignment key v =>
    have hkey : Trimmed key.toList := trimmed_of_keyChars h.1.chars
    have hline := hkey.append (trimmed_print v) h.1.ne_nil (print_ne_nil v) [' ', '=', ' ']
    rwa [List.append_assoc] at hline

/-- **A statement in print spells the statement.** -/
theorem spells (h : s.Printable) : Spells s.print s := by
  rw [Spells, h.kept.uncomment_eq, h.trimmed.trim_eq]
  exact h.statementText

end Statement.Printable

/-! ## Documents -/

/-- Statements in print, each on a line of its own. -/
def printAll (ss : List Statement) : String :=
  String.ofList ((ss.map Statement.print).flatMap (· ++ ['\n']))

/-- **The lines of printed statements spell the statements.** -/
theorem spells_printAll {ss : List Statement} (h : ∀ s ∈ ss, s.Printable) :
    List.Forall₂ Spells (lines (printAll ss).toList) ss := by
  have hlines : ∀ l ∈ ss.map Statement.print, OneLine l := by
    intro l hl
    obtain ⟨s, hs, rfl⟩ := List.mem_map.mp hl
    exact (h s hs).oneLine
  rw [printAll, String.toList_ofList, lines_flatMap hlines, List.forall₂_map_left_iff,
    List.forall₂_same]
  exact fun s hs => (h s hs).spells

end Document
end SoftNic
