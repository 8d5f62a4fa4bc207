import SoftNic.Proofs.Denotation
import SoftNic.Settings

/-! # The one fault of reading

Reading a document ends in a tree or in a refusal, with one exception.  A minus in front of
an integer negates it, and the integer may have a minus of its own; two of them in front of
the digits of `2 ^ 63` ask for the opposite of the least 64-bit integer, which there is
none.  A text breaks the reader if and only if it has a line that assigns such a literal,
behind lines that are read (`Breaks`, `read_faults_exactly`).

The reader also cuts texts at byte offsets: a line at its comment and a literal behind its
sign.  Both cuts fall between two characters (`commentFrom?_eq_some`, `isValid_sign`).
-/
namespace SoftNic
namespace Document

open Text

variable {cs text : List Char} {f : Fault} {line n : Nat} {raw : List Char}
  {raws : List (List Char)} {d : Draft}

/-! ## Literals -/

/-- A literal in which a minus stands in front of the least 64-bit integer: two signs, and
digits that denote its magnitude. -/
structure NegatesLeast (cs : List Char) : Prop where
  underscores : misplacedUnderscore cs = false
  literal : ∃ ds, cs.filter (· != '_') = '-' :: '-' :: ds ∧ Digits 10 ds leastWord.natAbs

/-- The least 64-bit integer is written with a minus of its own. -/
theorem word_leastWord_iff :
    Word 10 cs leastWord ↔ ∃ ds, cs = '-' :: ds ∧ Digits 10 ds leastWord.natAbs := by
  constructor
  · rintro ⟨hn, -⟩
    generalize hl : leastWord = m at hn
    rw [leastWord] at hl
    cases hn with
    | plain => omega
    | plus => omega
    | @minus ds n hd =>
      obtain rfl : n = leastWord.natAbs := by
        rw [leastWord]
        omega
      exact ⟨ds, rfl, hd⟩
  · rintro ⟨ds, rfl, hd⟩
    exact ⟨.minus hd, by decide⟩

theorem readInteger_fault_iff :
    readInteger cs = .error (.fault f) ↔ f = .negationOverflow ∧ NegatesLeast cs := by
  rw [readInteger_eq_fault_iff]
  refine and_congr_right fun _ => ?_
  constructor
  · rintro ⟨hu, ds, hf, hw⟩
    obtain ⟨es, rfl, hd⟩ := word_leastWord_iff.mp hw
    exact ⟨hu, es, hf, hd⟩
  · rintro ⟨hu, ds, hf, hd⟩
    exact ⟨hu, '-' :: ds, hf, word_leastWord_iff.mpr ⟨ds, rfl, hd⟩⟩

theorem NegatesLeast.startsInteger (h : NegatesLeast cs) : startsInteger cs = true := by
  obtain ⟨hu, ds, hf, -⟩ := h
  cases cs with
  | nil => cases hf
  | cons c cs =>
    rw [filter_cons_of_placed hu] at hf
    obtain ⟨rfl, -⟩ := List.cons.inj hf
    rfl

/-! ## Statements -/

theorem readValue_fault_iff :
    readValue line text = .error (.fault f) ↔ f = .negationOverflow ∧ NegatesLeast text := by
  rw [← readInteger_fault_iff]
  by_cases hi : startsInteger text = true
  · rw [readValue_of_startsInteger hi, map_eq_error_iff]
  · have hn : readInteger text ≠ .error (.fault f) := fun h =>
      hi (readInteger_fault_iff.mp h).2.startsInteger
    refine iff_of_false (fun h => ?_) hn
    by_cases hq : startsQuoted text = true
    · rw [readValue_of_startsQuoted hq, map_eq_error_iff] at h
      exact refuse_ne_fault h
    · rw [readValue, if_neg hq, if_neg hi] at h
      split at h
      · cases h
      · split at h
        · cases h
        · split at h <;> cases h

/-- A line that assigns the opposite of the least 64-bit integer to a key. -/
def AssignsNegatedLeast (raw : List Char) : Prop :=
  ∃ left right key, trim (uncomment raw) = left ++ '=' :: right ∧ '=' ∉ left ∧
    KeyText (trim left) key ∧ NegatesLeast (trim right)

theorem ofLine_fault_iff :
    Statement.ofLine line raw = .error (.fault f) ↔ f = .negationOverflow ∧ AssignsNegatedLeast raw := by
  unfold Statement.ofLine AssignsNegatedLeast
  generalize trim (uncomment raw) = text
  constructor
  · intro h
    unfold readStatement at h
    split at h
    · cases h
    · split at h
      · exact absurd (map_eq_error_iff.mp h) refuse_ne_fault
      · cases h
    · split at h
      · cases h
      · next left right hc =>
        obtain ⟨rfl, he⟩ := cut?_eq_some_iff.mp hc
        split at h
        · cases h
        · next key hk =>
          obtain ⟨rfl, hn⟩ := readValue_fault_iff.mp (map_eq_error_iff.mp h)
          exact ⟨rfl, left, right, key, rfl, he,
            (readKey_eq_ok_iff (trimmed_trim left)).mp hk, hn⟩
  · rintro ⟨rfl, left, right, key, rfl, he, hk, hn⟩
    rw [readStatement_of_cut hk.no_bracket (cut?_append he right),
      (readKey_eq_ok_iff (trimmed_trim left)).mpr hk]
    exact map_eq_error_iff.mpr (readValue_fault_iff.mpr ⟨rfl, hn⟩)

/-! ## Lines -/

theorem readLines_cons_fault_iff : readLines n d (raw :: raws) = .error (.fault f) ↔
    Statement.ofLine n raw = .error (.fault f) ∨
    ∃ s d', Spells raw s ∧ d.apply s = .ok d' ∧ readLines (n + 1) d' raws = .error (.fault f) := by
  rw [readLines]
  constructor
  · intro h
    split at h
    · next e he =>
      cases h
      exact Or.inl he
    · next s hs =>
      split at h
      · cases h
      · next d' hd => exact Or.inr ⟨s, d', ofLine_eq_ok_iff.mp hs, hd, h⟩
  · rintro (h | ⟨s, d', hs, hd, h⟩)
    · rw [h]
    · rw [ofLine_eq_ok_iff.mpr hs]
      simp only [hd, h]

/-- The first line with such a literal ends the reading of the lines, if those in
front of it are read. -/
theorem readLines_fault_iff : readLines n d raws = .error (.fault f) ↔ f = .negationOverflow ∧
    ∃ pre raw post, raws = pre ++ raw :: post ∧ (∃ d', readLines n d pre = .ok d') ∧
      AssignsNegatedLeast raw := by
  induction raws generalizing n d with
  | nil =>
    constructor
    · nofun
    · rintro ⟨-, pre, raw, post, h, -⟩
      cases pre <;> cases h
  | cons raw raws ih =>
    rw [readLines_cons_fault_iff, ofLine_fault_iff]
    constructor
    · rintro (⟨rfl, hn⟩ | ⟨s, d', hs, hd, h⟩)
      · exact ⟨rfl, [], raw, raws, rfl, ⟨d, rfl⟩, hn⟩
      · obtain ⟨rfl, pre, bad, post, rfl, ⟨d'', hpre⟩, hn⟩ := ih.mp h
        exact ⟨rfl, raw :: pre, bad, post, rfl,
          ⟨d'', readLines_cons_eq_ok_iff.mpr ⟨s, d', hs, hd, hpre⟩⟩, hn⟩
    · rintro ⟨rfl, pre, bad, post, heq, ⟨d'', hpre⟩, hn⟩
      cases pre with
      | nil =>
        cases heq
        exact Or.inl ⟨rfl, hn⟩
      | cons first pre =>
        cases heq
        obtain ⟨s, d', hs, hd, hr⟩ := readLines_cons_eq_ok_iff.mp hpre
        exact Or.inr ⟨s, d', hs, hd, ih.mpr ⟨rfl, pre, bad, post, rfl, ⟨d'', hr⟩, hn⟩⟩

/-- A text with a line that assigns the opposite of the least 64-bit integer, behind lines
that spell statements and agree with each other. -/
def Breaks (text : String) : Prop :=
  ∃ pre raw post ss, lines text.toList = pre ++ raw :: post ∧ List.Forall₂ Spells pre ss ∧
    Consistent (assignments [] ss) (headers ss) ∧ AssignsNegatedLeast raw

theorem read_fault_iff {text : String} :
    read text = .error (.fault f) ↔ f = .negationOverflow ∧ Breaks text := by
  rw [read, map_eq_error_iff, readLines_fault_iff]
  refine and_congr_right fun _ => ?_
  simp only [Draft.Shows.start.exists_readLines_iff, List.nil_append]
  constructor
  · rintro ⟨pre, raw, post, hl, ⟨ss, hss, hc⟩, hn⟩
    exact ⟨pre, raw, post, ss, hl, hss, hc, hn⟩
  · rintro ⟨pre, raw, post, ss, hl, hss, hc, hn⟩
    exact ⟨pre, raw, post, hl, ⟨ss, hss, hc⟩, hn⟩

/-- Reading settings has no fault of its own. -/
theorem ofText_fault_iff {text : String} :
    (Settings.ofText text).2 = .error (.fault f) ↔ f = .negationOverflow ∧ Breaks text := by
  rw [← read_fault_iff, Settings.ofText]
  cases read text with
  | error e => simp
  | ok t => simp [refuse_ne_fault]

/-! ## Cuts at byte offsets -/

/-- The byte at which the comment of a line begins, by a scan from the given byte on. -/
def commentFrom? : Quoting → Nat → List Char → Option Nat
  | _, _, [] => none
  | q, n, c :: cs =>
    if q = .outside ∧ c = '#' then some n else commentFrom? (q.next c) (n + c.utf8Size) cs

theorem utf8ByteSize_cons (c : Char) (cs : List Char) :
    (String.ofList (c :: cs)).utf8ByteSize = c.utf8Size + (String.ofList cs).utf8ByteSize := by
  rw [← List.singleton_append, String.ofList_append, String.utf8ByteSize_append,
    ← String.singleton_eq_ofList, String.utf8ByteSize_singleton]

/-- A comment begins behind the bytes of what is in front of it. -/
theorem commentFrom?_eq_some {q : Quoting} {m : Nat} (h : commentFrom? q n cs = some m) :
    (∃ back, cs = uncommentFrom q cs ++ back) ∧
      m = n + (String.ofList (uncommentFrom q cs)).utf8ByteSize := by
  induction cs generalizing q n with
  | nil => cases h
  | cons c cs ih =>
    rw [commentFrom?] at h
    split at h
    · next hc =>
      cases h
      rw [uncommentFrom, if_pos hc]
      exact ⟨⟨c :: cs, rfl⟩, rfl⟩
    · next hc =>
      obtain ⟨⟨back, hb⟩, hm⟩ := ih h
      rw [uncommentFrom, if_neg hc, utf8ByteSize_cons]
      refine ⟨⟨back, ?_⟩, by omega⟩
      rw [List.cons_append, ← hb]

/-- The bytes of the front of a text end between two characters. -/
theorem isValid_front (front back : List Char) :
    String.Pos.Raw.IsValid (String.ofList (front ++ back))
      ⟨(String.ofList front).utf8ByteSize⟩ :=
  String.Pos.Raw.isValid_iff_exists_append.mpr
    ⟨String.ofList front, String.ofList back, String.ofList_append, rfl⟩

/-- The sign in front of a literal is one byte. -/
theorem isValid_sign (h : (leadingSign cs).2 ≠ cs) :
    String.Pos.Raw.IsValid (String.ofList cs) ⟨1⟩ ∧ cs.tail = (leadingSign cs).2 := by
  rcases leadingSign_cases cs with ⟨ds, rfl, hs⟩ | ⟨ds, rfl, hs⟩ | ⟨-, -, hs⟩
  · rw [hs]
    exact ⟨isValid_front ['-'] ds, rfl⟩
  · rw [hs]
    exact ⟨isValid_front ['+'] ds, rfl⟩
  · rw [hs] at h
    exact absurd rfl h

/-! ## All texts -/

/-- **Reading has exactly one fault.** A text that does not assign the opposite of the least
64-bit integer ends in a tree or in a refusal, and so does reading settings from it; one
that does ends in that fault.  A comment is cut off, and a sign taken off a literal, at an
offset between two characters. -/
theorem read_faults_exactly (text : String) :
    (∀ f, read text = .error (.fault f) ↔ f = .negationOverflow ∧ Breaks text) ∧
    (∀ f, (Settings.ofText text).2 = .error (.fault f) ↔ f = .negationOverflow ∧ Breaks text) ∧
    (¬ Breaks text →
      ((∃ t, read text = .ok t) ∨ ∃ e, read text = .error (.refused e)) ∧
      ((∃ s, (Settings.ofText text).2 = .ok s) ∨
        ∃ e, (Settings.ofText text).2 = .error (.refused e))) ∧
    (∀ raw ∈ lines text.toList, ∀ n, commentFrom? .outside 0 raw = some n →
      String.Pos.Raw.IsValid (String.ofList raw) ⟨n⟩ ∧
        n = (String.ofList (uncomment raw)).utf8ByteSize ∧ uncomment raw <+: raw) ∧
    ∀ literal : List Char, (leadingSign literal).2 ≠ literal →
      String.Pos.Raw.IsValid (String.ofList literal) ⟨1⟩ ∧
        literal.tail = (leadingSign literal).2 := by
  refine ⟨fun _ => read_fault_iff, fun _ => ofText_fault_iff, fun hb => ⟨?_, ?_⟩, ?_, ?_⟩
  · cases hr : read text with
    | ok t => exact Or.inl ⟨t, rfl⟩
    | error e =>
      cases e with
      | refused e => exact Or.inr ⟨e, rfl⟩
      | fault f => exact absurd (read_fault_iff.mp hr).2 hb
  · cases hr : (Settings.ofText text).2 with
    | ok s => exact Or.inl ⟨s, rfl⟩
    | error e =>
      cases e with
      | refused e => exact Or.inr ⟨e, rfl⟩
      | fault f => exact absurd (ofText_fault_iff.mp hr).2 hb
  · intro raw _ n hn
    obtain ⟨⟨back, hback⟩, hm⟩ := commentFrom?_eq_some hn
    rw [Nat.zero_add] at hm
    refine ⟨?_, hm, ⟨back, hback.symm⟩⟩
    have hv : String.Pos.Raw.IsValid (String.ofList (uncomment raw ++ back)) ⟨n⟩ :=
      hm ▸ isValid_front _ _
    rwa [uncomment, ← hback] at hv
  · exact fun literal => isValid_sign

theorem breaks_negatedLeast : Breaks "n = --9223372036854775808" :=
  (((read_faults_exactly "n = --9223372036854775808").1 .negationOverflow).mp rfl).2

/-- The literal of two signs and the magnitude of the least 64-bit integer, alone in a
text. -/
theorem read_negatedLeast :
    read "n = --9223372036854775808" = .error (.fault .negationOverflow) ∧
    ¬ ∀ text, (∃ t, read text = .ok t) ∨ ∃ e, read text = .error (.refused e) := by
  have hr : read "n = --9223372036854775808" = .error (.fault .negationOverflow) := rfl
  refine ⟨hr, fun h => ?_⟩
  rcases h "n = --9223372036854775808" with ⟨t, ht⟩ | ⟨e, he⟩
  · rw [hr] at ht
    cases ht
  · rw [hr] at he
    cases he

end Document
end SoftNic
