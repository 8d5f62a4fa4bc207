import Mathlib.Data.List.TakeWhile
import SoftNic.Proofs.Denotation
import SoftNic.Proofs.Printing

/-! # Layout

A line is read by two scans that know nothing of each other: one cuts it at its comment, the
other takes the strings out of what is left.  They agree on where every string ends.  A text
that is made of whole strings and of characters that are neither quotes nor number signs
(`Strung`) loses nothing to the first scan, whatever stands behind it; and everything that
spells a statement is such a text (`StatementText.strung`).  So a line spells a statement if
and only if it is the text of the statement between blanks, with or without a comment behind
it (`spells_iff_dressed`).

What may be done to the layout of a document is said line by line (`Relaid`): blanks and a
comment around what stands there, another line end, further lines that say nothing.
**`read_relaid`: a document that is read is read to the same tree in every layout**, and the
number signs that end its lines are those outside of its strings.
-/
namespace SoftNic
namespace Document

open Text

variable {c : Char} {cs ds pre post raw body : List Char} {s : Statement}

/-! ## Blanks -/

/-- There is nothing to see. -/
def IsBlankText (cs : List Char) : Prop :=
  ∀ c ∈ cs, isBlank c = true

instance (cs : List Char) : Decidable (IsBlankText cs) :=
  List.decidableBAll (isBlank · = true) cs

theorem isBlankText_nil : IsBlankText [] := nofun

theorem trimLeft_blank_append (h : IsBlankText pre) (cs : List Char) :
    trimLeft (pre ++ cs) = trimLeft cs := by
  induction pre with
  | nil => rfl
  | cons c pre ih =>
    rw [List.cons_append, trimLeft_cons_of_blank (h c List.mem_cons_self),
      ih fun d hd => h d (List.mem_cons_of_mem c hd)]

theorem trim_blank_append (h : IsBlankText pre) (cs : List Char) :
    trim (pre ++ cs) = trim cs := by
  rw [trim, trimLeft_blank_append h, trim]

theorem trimRight_append_blank (cs : List Char) (h : IsBlankText post) :
    trimRight (cs ++ post) = trimRight cs := by
  rw [trimRight_eq, List.reverse_append,
    trimLeft_blank_append fun c hc => h c (List.mem_reverse.mp hc), trimRight_eq]

/-- A text is what is left of it when it is trimmed, between blanks. -/
theorem exists_trim (cs : List Char) :
    ∃ pre post, cs = pre ++ trim cs ++ post ∧ IsBlankText pre ∧ IsBlankText post := by
  obtain ⟨post, hpost⟩ : ∃ post, trimLeft cs = trim cs ++ post.reverse ∧ IsBlankText post := by
    refine ⟨(trimLeft cs).reverse.takeWhile isBlank, ?_, fun c => List.mem_takeWhile_imp⟩
    rw [trim, trimRight, ← List.reverse_append, List.takeWhile_append_dropWhile,
      List.reverse_reverse]
  refine ⟨cs.takeWhile isBlank, post.reverse, ?_, fun c => List.mem_takeWhile_imp, ?_⟩
  · rw [List.append_assoc, ← hpost.1, trimLeft, List.takeWhile_append_dropWhile]
  · exact fun c hc => hpost.2 c (List.mem_reverse.mp hc)

/-- Blanks behind a text do not show. -/
theorem trim_append_blank (cs : List Char) (h : IsBlankText post) :
    trim (cs ++ post) = trim cs := by
  cases ht : trimLeft cs with
  | nil =>
    have hpost : trimLeft post = [] := List.dropWhile_eq_nil_iff.mpr h
    rw [trim, trim, trimLeft, List.dropWhile_append, ← trimLeft, ht]
    exact congrArg trimRight hpost
  | cons d ds =>
    rw [trim, trim, trimLeft, List.dropWhile_append, ← trimLeft, ht]
    exact trimRight_append_blank (d :: ds) h

/-- Blanks open no quotes and begin no comment. -/
theorem isInert_of_isBlank (h : isBlank c = true) : isInert c = true := by
  have hne : ∀ d, isBlank d = false → c ≠ d := by
    rintro d hd rfl
    cases h.symm.trans hd
  simp [isInert, hne '"' (by decide), hne '\'' (by decide), hne '#' (by decide)]

/-! ## Strings and other characters -/

/-- A text of whole strings and, between them, characters that are neither quotes nor number
signs. -/
inductive Strung : List Char → Prop
  | nil : Strung []
  | plain {c : Char} {cs : List Char} (hc : isInert c = true) (h : Strung cs) : Strung (c :: cs)
  | quoted {q cs : List Char} {content : String} (hq : Quoted q content) (h : Strung cs) :
    Strung (q ++ cs)

/-- Between single quotes nothing is taken for a comment. -/
theorem uncommentFrom_literal_append (h : '\'' ∉ cs) (rest : List Char) :
    uncommentFrom .literal (cs ++ rest) = cs ++ uncommentFrom .literal rest := by
  induction cs with
  | nil => rfl
  | cons c cs ih =>
    obtain ⟨hc, hcs⟩ := not_or.mp (mt List.mem_cons.mpr h)
    have hnext : Quoting.next .literal c = .literal := by
      unfold Quoting.next
      split <;> simp_all
    rw [List.cons_append, uncommentFrom, if_neg (by simp), hnext, ih hcs]
    rfl

/-- A string is kept whole. -/
theorem Quoted.kept {content : String} (h : Quoted cs content) : Kept cs := by
  cases h with
  | basic h => exact kept_basic h
  | @literal cs h =>
    intro rest
    rw [List.cons_append, List.append_assoc, uncomment, uncommentFrom, if_neg (by decide)]
    refine congrArg _ ?_
    rw [Quoting.next, uncommentFrom_literal_append h]
    exact (List.append_assoc cs ['\''] (uncomment rest)).symm

theorem strung_of_inert (h : ∀ c ∈ cs, isInert c = true) : Strung cs := by
  induction cs with
  | nil => exact .nil
  | cons c cs ih =>
    exact .plain (h c List.mem_cons_self) (ih fun d hd => h d (List.mem_cons_of_mem c hd))

theorem strung_of_blank (h : IsBlankText cs) : Strung cs :=
  strung_of_inert fun c hc => isInert_of_isBlank (h c hc)

theorem Quoted.strung {content : String} (h : Quoted cs content) : Strung cs := by
  have hs := Strung.quoted h .nil
  rwa [List.append_nil] at hs

namespace Strung

theorem append (hc : Strung cs) (hd : Strung ds) : Strung (cs ++ ds) := by
  induction hc with
  | nil => exact hd
  | plain hi _ ih => exact .plain hi ih
  | quoted hq _ ih =>
    rw [List.append_assoc]
    exact .quoted hq ih

/-- **Nothing of such a text is taken for a comment**, whatever stands behind it. -/
theorem kept (h : Strung cs) : Kept cs := by
  induction h with
  | nil => exact kept_of_inert nofun
  | @plain c cs hc _ ih =>
    have hone : Kept [c] := kept_of_inert fun d hd => List.mem_singleton.mp hd ▸ hc
    exact hone.append ih
  | quoted hq _ ih => exact hq.kept.append ih

/-- A number sign behind such a text begins a comment. -/
theorem uncomment_append_remark (h : Strung cs) (rest : List Char) :
    uncomment (cs ++ '#' :: rest) = cs := by
  rw [h.kept, show uncomment ('#' :: rest) = [] from rfl, List.append_nil]

/-- What is trimmed off is blank. -/
theorem of_trim (h : Strung (trim cs)) : Strung cs := by
  obtain ⟨pre, post, hcs, hpre, hpost⟩ := exists_trim cs
  rw [hcs]
  exact ((strung_of_blank hpre).append h).append (strung_of_blank hpost)

theorem intercalate {parts : List (List Char)} (hc : isInert c = true)
    (h : ∀ part ∈ parts, Strung part) : Strung ([c].intercalate parts) := by
  induction parts with
  | nil => exact .nil
  | cons part parts ih =>
    have hpart := h part List.mem_cons_self
    have hparts := ih fun p hp => h p (List.mem_cons_of_mem part hp)
    cases parts with
    | nil =>
      rw [List.intercalate_singleton]
      exact hpart
    | cons next parts =>
      rw [List.intercalate_cons_cons, List.append_assoc]
      exact hpart.append (.plain hc hparts)

end Strung

/-! ### What statements are made of -/

theorem KeyText.strung {key : String} (h : KeyText cs key) : Strung cs := by
  cases h with
  | bare _ hk => exact strung_of_inert fun c hc => isInert_of_isKeyChar (hk c hc)
  | quoted hq => exact hq.strung

/-- A digit of any radix is neither a quote nor a number sign. -/
theorem isInert_of_digit? {radix d : Nat} (h : digit? radix c = some d) : isInert c = true := by
  obtain ⟨hv, -⟩ := Option.filter_eq_some_iff.mp h
  have hne : ∀ e, hexValue? e = none → c ≠ e := by
    rintro e he rfl
    cases hv.symm.trans he
  simp [isInert, hne '"' (by decide), hne '\'' (by decide), hne '#' (by decide)]

theorem Digits.isInert_of_mem {radix n : Nat} (h : Digits radix cs n) (hc : c ∈ cs) :
    isInert c = true := by
  obtain ⟨d, hd⟩ := h.digit_of_mem hc
  exact isInert_of_digit? hd

theorem Numeral.isInert_of_mem {radix : Nat} {n : Int} (h : Numeral radix cs n) :
    ∀ c ∈ cs, isInert c = true := by
  cases h with
  | plain h => exact fun c => h.isInert_of_mem
  | plus h | minus h => exact List.forall_mem_cons.mpr ⟨rfl, fun c => h.isInert_of_mem⟩

theorem Literal.isInert_of_mem {n : Int} (h : Literal cs n) : ∀ c ∈ cs, isInert c = true := by
  cases h with
  | unsigned h => exact fun c => h.isInert_of_mem
  | positive h | negative h => exact List.forall_mem_cons.mpr ⟨rfl, h.numeral.isInert_of_mem⟩
  | hex h =>
    exact List.forall_mem_cons.mpr ⟨rfl, List.forall_mem_cons.mpr ⟨rfl, h.numeral.isInert_of_mem⟩⟩
  | positiveHex h =>
    exact List.forall_mem_cons.mpr ⟨rfl, List.forall_mem_cons.mpr ⟨rfl,
      List.forall_mem_cons.mpr ⟨rfl, h.numeral.isInert_of_mem⟩⟩⟩

/-- Underscores do not matter. -/
theorem IntegerText.strung {n : Int} (h : IntegerText cs n) : Strung cs := by
  refine strung_of_inert fun c hc => ?_
  by_cases hu : c = '_'
  · rw [hu]
    rfl
  · exact h.literal.isInert_of_mem c (List.mem_filter.mpr ⟨hc, bne_iff_ne.mpr hu⟩)

theorem ValueText.strung {v : Scalar} (h : ValueText cs v) : Strung cs := by
  cases h with
  | yes | no => exact strung_of_inert (List.all_eq_true.mp rfl)
  | text h => exact h.strung
  | integer h => exact h.strung

theorem strung_of_keys {parts : List (List Char)} {path : List String}
    (h : List.Forall₂ (fun part key => KeyText (trim part) key) parts path) :
    ∀ part ∈ parts, Strung part := by
  induction h with
  | nil => exact nofun
  | cons hk _ ih => exact List.forall_mem_cons.mpr ⟨hk.strung.of_trim, ih⟩

/-- **The text of a statement is made of whole strings and other characters.** -/
theorem StatementText.strung (h : StatementText cs s) : Strung cs := by
  cases h with
  | blank => exact .nil
  | header _ _ hk =>
    have hparts := Strung.intercalate (c := '.') rfl (strung_of_keys hk)
    exact .plain rfl (hparts.append (.plain rfl .nil))
  | assignment _ hk hv => exact hk.strung.of_trim.append (.plain rfl hv.strung.of_trim)

/-! ## Lines -/

/-- A text between blanks, with or without a comment behind it. -/
inductive Dressed (body : List Char) : List Char → Prop
  | bare {pre post : List Char} (hpre : IsBlankText pre) (hpost : IsBlankText post) :
    Dressed body (pre ++ body ++ post)
  | remarked {pre post : List Char} (hpre : IsBlankText pre) (hpost : IsBlankText post)
    (remark : List Char) : Dressed body (pre ++ body ++ post ++ '#' :: remark)

/-- A line is what stands in front of its comment, and the comment. -/
theorem eq_uncommentFrom (q : Quoting) (cs : List Char) :
    cs = uncommentFrom q cs ∨ ∃ remark, cs = uncommentFrom q cs ++ '#' :: remark := by
  induction cs generalizing q with
  | nil => exact Or.inl rfl
  | cons c cs ih =>
    rw [uncommentFrom]
    split
    · next hc => exact Or.inr ⟨cs, by rw [hc.2, List.nil_append]⟩
    · rcases ih (q.next c) with h | ⟨remark, h⟩
      · exact Or.inl (congrArg _ h)
      · exact Or.inr ⟨remark, congrArg _ h⟩

theorem eq_uncomment (raw : List Char) :
    raw = uncomment raw ∨ ∃ remark, raw = uncomment raw ++ '#' :: remark :=
  eq_uncommentFrom .outside raw

namespace Dressed

variable {line : List Char}

/-- What is put behind a text comes to nothing but blanks. -/
theorem exists_eq (h : Dressed raw line) :
    ∃ pre more, line = pre ++ raw ++ more ∧ IsBlankText pre ∧ IsBlankText (uncomment more) := by
  cases h with
  | @bare pre post hpre hpost =>
    refine ⟨pre, post, rfl, hpre, ?_⟩
    rwa [(strung_of_blank hpost).kept.uncomment_eq]
  | @remarked pre post hpre hpost remark =>
    refine ⟨pre, post ++ '#' :: remark, by simp, hpre, ?_⟩
    rwa [(strung_of_blank hpost).uncomment_append_remark]

/-- Nothing that is put around a line shows, if no quote is open at the end of the line. -/
theorem trim_uncomment (h : Dressed raw line) (hs : Strung (uncomment raw)) :
    trim (uncomment line) = trim (uncomment raw) := by
  obtain ⟨pre, more, rfl, hpre, hmore⟩ := h.exists_eq
  have hfront : Strung (pre ++ uncomment raw) := (strung_of_blank hpre).append hs
  rcases eq_uncomment raw with hraw | ⟨remark, hraw⟩
  · have hline : uncomment (pre ++ raw ++ more) = pre ++ uncomment raw ++ uncomment more := by
      rw [← hfront.kept, ← hraw]
    rw [hline, trim_append_blank _ hmore, trim_blank_append hpre]
  · have hline : uncomment (pre ++ raw ++ more) = pre ++ uncomment raw := by
      have h := hfront.uncomment_append_remark (remark ++ more)
      rwa [← List.cons_append, ← List.append_assoc, List.append_assoc pre, ← hraw] at h
    rw [hline, trim_blank_append hpre]

/-- **A line says what it said**, whatever is put around it. -/
theorem spells (h : Dressed raw line) (hs : Spells raw s) : Spells line s := by
  rw [Spells, h.trim_uncomment hs.strung.of_trim]
  exact hs

end Dressed

/-- A line is what is read of it, between blanks and in front of its comment. -/
theorem dressed_trim_uncomment (raw : List Char) : Dressed (trim (uncomment raw)) raw := by
  obtain ⟨pre, post, htrim, hpre, hpost⟩ := exists_trim (uncomment raw)
  have hraw := eq_uncomment raw
  generalize uncomment raw = front at htrim hraw ⊢
  rcases hraw with rfl | ⟨remark, rfl⟩
  · have hd : Dressed (trim raw) _ := .bare hpre hpost
    rwa [← htrim] at hd
  · have hd : Dressed (trim front) _ := .remarked hpre hpost remark
    rwa [← htrim] at hd

/-- **A line spells a statement if and only if it is the text of the statement between blanks,
with or without a comment behind it.** -/
theorem spells_iff_dressed :
    Spells raw s ↔ ∃ body, StatementText body s ∧ Trimmed body ∧ Dressed body raw := by
  constructor
  · intro h
    exact ⟨_, h, trimmed_trim _, dressed_trim_uncomment raw⟩
  · rintro ⟨body, hs, ht, hd⟩
    refine hd.spells ?_
    rw [Spells, hs.strung.kept.uncomment_eq, ht.trim_eq]
    exact hs

/-- A blank behind a line is kept, or it goes with the comment. -/
theorem uncommentFrom_concat_blank (hc : isBlank c = true) (q : Quoting) (cs : List Char) :
    uncommentFrom q (cs ++ [c]) = uncommentFrom q cs ∨
      uncommentFrom q (cs ++ [c]) = uncommentFrom q cs ++ [c] := by
  induction cs generalizing q with
  | nil =>
    have hne : c ≠ '#' := by
      rintro rfl
      cases hc
    exact Or.inr (by simp [uncommentFrom, hne])
  | cons d cs ih =>
    rw [List.cons_append, uncommentFrom, uncommentFrom]
    split
    · exact Or.inl rfl
    · exact (ih (q.next d)).imp (congrArg _) (congrArg _)

/-- A blank behind a line never shows, not even if a quote is open there. -/
theorem spells_concat_blank_iff (hc : isBlank c = true) : Spells (raw ++ [c]) s ↔ Spells raw s := by
  have htrim : trim (uncomment (raw ++ [c])) = trim (uncomment raw) := by
    rcases uncommentFrom_concat_blank hc .outside raw with h | h
    · exact congrArg trim h
    · exact (congrArg trim h).trans
        (trim_append_blank _ fun d hd => List.mem_singleton.mp hd ▸ hc)
  rw [Spells, htrim, Spells]

theorem spells_nil : Spells [] .blank := .blank

/-! ## The ends of lines -/

/-- A line end. -/
inductive LineEnd : List Char → Prop
  | feed : LineEnd ['\n']
  | returned : LineEnd ['\r', '\n']

variable {l e : List Char}

theorem lines_append_returned (hl : '\n' ∉ l) (cs : List Char) :
    lines (l ++ '\r' :: '\n' :: cs) = l :: lines cs := by
  induction l with
  | nil => rfl
  | cons c l ih =>
    obtain ⟨hc, hm⟩ := not_or.mp (mt List.mem_cons.mpr hl)
    refine lines_cons (Ne.symm hc) (fun _ => ?_) (ih hm)
    cases l with
    | nil => simp
    | cons d l => simpa using (List.ne_of_not_mem_cons hm).symm

/-- What stands on a line is one line in front of any end; only a carriage return at its end
can be taken for a part of the end. -/
theorem lines_append_end (hl : '\n' ∉ l) (he : LineEnd e) (cs : List Char) :
    lines (l ++ e ++ cs) = l :: lines cs ∨
      ∃ m, l = m ++ ['\r'] ∧ lines (l ++ e ++ cs) = m :: lines cs := by
  cases he with
  | feed =>
    by_cases hlast : l.getLast? = some '\r'
    · obtain ⟨m, rfl⟩ := List.getLast?_eq_some_iff.mp hlast
      refine Or.inr ⟨m, rfl, ?_⟩
      have hm := lines_append_returned (fun h => hl (List.mem_append_left _ h)) cs (l := m)
      simpa using hm
    · have h := OneLine.lines_append ⟨hl, hlast⟩ cs
      exact Or.inl (by simpa using h)
  | returned =>
    have h := lines_append_returned hl cs
    exact Or.inl (by simpa using h)

theorem lines_singleton (hc : c ≠ '\n') : lines [c] = [[c]] := by
  rw [lines]
  · rfl
  · exact hc
  · simp

theorem lines_of_not_mem (hn : l ≠ []) (hl : '\n' ∉ l) : lines l = [l] := by
  induction l with
  | nil => exact absurd rfl hn
  | cons c l ih =>
    obtain ⟨hc, hm⟩ := not_or.mp (mt List.mem_cons.mpr hl)
    cases l with
    | nil => exact lines_singleton (Ne.symm hc)
    | cons d l =>
      refine lines_cons (Ne.symm hc) (fun _ => ?_) (ih (List.cons_ne_nil d l) hm)
      simpa using (List.ne_of_not_mem_cons hm).symm

/-! ## Drafts -/

variable {d d' : Draft} {n : Nat} {raws : List (List Char)}

/-- The number of a line matters to refusals only. -/
theorem readLines_renumber (h : readLines n d raws = .ok d') (m : Nat) :
    readLines m d raws = .ok d' := by
  induction raws generalizing n m d with
  | nil => exact h
  | cons raw raws ih =>
    obtain ⟨s, d₁, hs, ha, hr⟩ := readLines_cons_eq_ok_iff.mp h
    exact readLines_cons_eq_ok_iff.mpr ⟨s, d₁, hs, ha, ih hr (m + 1)⟩

/-- A text takes one draft to another. -/
def Leads (cs : List Char) (d d' : Draft) : Prop :=
  readLines 1 d (lines cs) = .ok d'

theorem leads_nil_iff : Leads [] d d' ↔ d = d' := by
  rw [Leads, show lines [] = [] from rfl, readLines, Except.ok.injEq]

theorem leads_line_iff (hl : '\n' ∉ l) (he : LineEnd e) : Leads (l ++ e ++ cs) d d' ↔
    ∃ s d₁, Spells l s ∧ d.apply s = .ok d₁ ∧ Leads cs d₁ d' := by
  have hcons : ∀ m, (∀ s, Spells m s ↔ Spells l s) →
      (readLines 1 d (m :: lines cs) = .ok d' ↔
        ∃ s d₁, Spells l s ∧ d.apply s = .ok d₁ ∧ Leads cs d₁ d') := by
    intro m hm
    rw [readLines_cons_eq_ok_iff]
    constructor
    · rintro ⟨s, d₁, hs, ha, hr⟩
      exact ⟨s, d₁, (hm s).mp hs, ha, readLines_renumber hr 1⟩
    · rintro ⟨s, d₁, hs, ha, hr⟩
      exact ⟨s, d₁, (hm s).mpr hs, ha, readLines_renumber hr 2⟩
  rw [Leads]
  rcases lines_append_end hl he cs with h | ⟨m, rfl, h⟩
  · rw [h]
    exact hcons l fun s => Iff.rfl
  · rw [h]
    exact hcons m fun s => (spells_concat_blank_iff (by decide)).symm

theorem leads_last_iff (hl : '\n' ∉ l) : Leads l d d' ↔ ∃ s, Spells l s ∧ d.apply s = .ok d' := by
  by_cases hn : l = []
  · subst hn
    rw [leads_nil_iff]
    constructor
    · rintro rfl
      exact ⟨.blank, spells_nil, rfl⟩
    · rintro ⟨s, hs, ha⟩
      obtain rfl := hs.unique spells_nil
      cases ha
      rfl
  · rw [Leads, lines_of_not_mem hn hl, readLines_cons_eq_ok_iff]
    constructor
    · rintro ⟨s, d₁, hs, ha, hr⟩
      cases hr
      exact ⟨s, hs, ha⟩
    · rintro ⟨s, hs, ha⟩
      exact ⟨s, d', hs, ha, rfl⟩

/-! ## Documents -/

/-- The first text in another layout: its lines stand between further blanks and may be
followed by comments, they end as they like, and between them stand lines that say nothing. -/
inductive Relaid : List Char → List Char → Prop
  | last {l l' : List Char} (h : Dressed l l') (hl : '\n' ∉ l) (hl' : '\n' ∉ l') : Relaid l l'
  | line {l l' e e' cs ds : List Char} (h : Dressed l l') (hl : '\n' ∉ l) (hl' : '\n' ∉ l')
    (he : LineEnd e) (he' : LineEnd e') (hs : Relaid cs ds) :
    Relaid (l ++ e ++ cs) (l' ++ e' ++ ds)
  | inserted {l e cs ds : List Char} (h : Dressed [] l) (hl : '\n' ∉ l) (he : LineEnd e)
    (hs : Relaid cs ds) : Relaid cs (l ++ e ++ ds)
  /-- The last line is given an end, so that lines can follow it. -/
  | ended {l l' e ds : List Char} (h : Dressed l l') (hl : '\n' ∉ l) (hl' : '\n' ∉ l')
    (he : LineEnd e) (hs : Relaid [] ds) : Relaid l (l' ++ e ++ ds)

/-- A text in another layout takes drafts where it took them. -/
theorem Relaid.leads (h : Relaid cs ds) (hd : Leads cs d d') : Leads ds d d' := by
  induction h generalizing d with
  | last h hl hl' =>
    obtain ⟨s, hs, ha⟩ := (leads_last_iff hl).mp hd
    exact (leads_last_iff hl').mpr ⟨s, h.spells hs, ha⟩
  | line h hl hl' he he' _ ih =>
    obtain ⟨s, d₁, hs, ha, hr⟩ := (leads_line_iff hl he).mp hd
    exact (leads_line_iff hl' he').mpr ⟨s, d₁, h.spells hs, ha, ih hr⟩
  | inserted h hl he _ ih =>
    exact (leads_line_iff hl he).mpr ⟨.blank, d, h.spells spells_nil, rfl, ih hd⟩
  | ended h hl hl' he _ ih =>
    obtain ⟨s, hs, ha⟩ := (leads_last_iff hl).mp hd
    exact (leads_line_iff hl' he).mpr ⟨s, d', h.spells hs, ha, ih (leads_nil_iff.mpr rfl)⟩

variable {text : String} {t : Tree}

theorem read_eq_ok_iff_leads :
    read text = .ok t ↔ ∃ d, Leads text.toList {} d ∧ .table d.entries = t :=
  map_eq_ok_iff

theorem spells_of_readLines (h : readLines n d raws = .ok d') :
    ∀ raw ∈ raws, ∃ s, Spells raw s := by
  induction raws generalizing n d with
  | nil => exact nofun
  | cons raw raws ih =>
    obtain ⟨s, d₁, hs, -, hr⟩ := readLines_cons_eq_ok_iff.mp h
    exact List.forall_mem_cons.mpr ⟨⟨s, hs⟩, ih hr⟩

/-- **A document that is read is read to the same tree in every layout.**  Each of its lines is
the text of a statement between blanks, with or without a comment behind it; the text of a
statement is made of whole strings and of characters that are neither quotes nor number signs.
In any line whatsoever, a string behind such a text is kept whole, and a number sign behind it
begins the comment. -/
theorem read_relaid (ht : read text = .ok t) :
    (∀ other : String, Relaid text.toList other.toList → read other = .ok t) ∧
    (∀ raw ∈ lines text.toList, ∃ s body, (∀ line, Statement.ofLine line raw = .ok s) ∧
      StatementText body s ∧ Strung body ∧ Dressed body raw) ∧
    (∀ front q content rest, Strung front → Quoted q content →
      uncomment (front ++ q ++ rest) = front ++ q ++ uncomment rest) ∧
    ∀ front rest, Strung front → uncomment (front ++ '#' :: rest) = front := by
  obtain ⟨d, hd, he⟩ := read_eq_ok_iff_leads.mp ht
  refine ⟨?_, ?_, ?_, ?_⟩
  · intro other hr
    exact read_eq_ok_iff_leads.mpr ⟨d, hr.leads hd, he⟩
  · intro raw hraw
    obtain ⟨s, hs⟩ := spells_of_readLines hd raw hraw
    obtain ⟨body, hb, -, hdress⟩ := spells_iff_dressed.mp hs
    exact ⟨s, body, fun _ => ofLine_eq_ok_iff.mpr hs, hb, hb.strung, hdress⟩
  · intro front q content rest hf hq
    exact (hf.append hq.strung).kept rest
  · intro front rest hf
    exact hf.uncomment_append_remark rest

/-- A document in two layouts, with number signs and quotes on both sides of its strings. -/
theorem read_relaid_remarked : ∃ t, read "a = \"\\\"#\"\n['b#']\nc = 1" = .ok t ∧
    read "# it's\r\n a = \"\\\"#\"\t#\"\r\n\u3000['b#'] # ' #\n\nc = 1 #\n \n" = .ok t := by
  obtain ⟨t, ht⟩ : ∃ t, read "a = \"\\\"#\"\n['b#']\nc = 1" = .ok t := ⟨_, by rfl⟩
  have htop : Dressed [] "# it's".toList :=
    .remarked isBlankText_nil isBlankText_nil " it's".toList
  have ha : Dressed "a = \"\\\"#\"".toList " a = \"\\\"#\"\t#\"".toList :=
    @Dressed.remarked _ [' '] ['\t'] (by decide) (by decide) ['"']
  have hb : Dressed "['b#']".toList "\u3000['b#'] # ' #".toList :=
    @Dressed.remarked _ ['\u3000'] [' '] (by decide) (by decide) " ' #".toList
  have hc : Dressed "c = 1".toList "c = 1 #".toList :=
    @Dressed.remarked _ [] [' '] isBlankText_nil (by decide) []
  have hend : Relaid [] " \n".toList :=
    .inserted (@Dressed.bare [] [' '] [] (by decide) isBlankText_nil) (by decide) .feed
      (.last (@Dressed.bare [] [] [] isBlankText_nil isBlankText_nil) (by decide) (by decide))
  have hr : Relaid "a = \"\\\"#\"\n['b#']\nc = 1".toList
      "# it's\r\n a = \"\\\"#\"\t#\"\r\n\u3000['b#'] # ' #\n\nc = 1 #\n \n".toList :=
    .inserted htop (by decide) .returned
      (.line ha (by decide) (by decide) .feed .returned
        (.line hb (by decide) (by decide) .feed .feed
          (.inserted (@Dressed.bare [] [] [] isBlankText_nil isBlankText_nil) (by decide) .feed
            (.ended hc (by decide) (by decide) .feed hend))))
  exact ⟨t, ht, (read_relaid ht).1 _ hr⟩

end Document
end SoftNic
