import SoftNic.Proofs.Printing
import SoftNic.Proofs.ReadingFault

/-! # The grammar of integers

The documented integers are few: decimal digits behind at most one sign, or `0x` and
hexadecimal digits behind nothing or a plus, broken up by single underscores that stand
between two digits, with a value of 64 bits (`Documented`).  The reader takes off one sign and
reads what is left as a number with a sign of its own, and it drops the underscores before it
looks at anything else.  So it differs from the grammar in two ways.

It reads more: a second sign, an underscore behind a sign or inside `0x`.  It reads less: the
magnitude of the least 64-bit integer is no 64-bit integer itself, so that one integer is
refused.  **`integers_read`: the reader follows the grammar on all texts that have a sign in
front at most and underscores between digits only**, but for the least integer; all documented
integers are such texts.  What it reads besides has a sign or an underscore out of place.
-/
namespace SoftNic
namespace Document

open Text

variable {c : Char} {cs : List Char} {n : Int} {line : Nat}

/-! ## The documented integers -/

/-- A digit of some radix. -/
def IsDigitChar (c : Char) : Prop :=
  (hexValue? c).isSome

/-- Every underscore stands between two digits. -/
def Separated (cs : List Char) : Prop :=
  ∀ front back, cs = front ++ '_' :: back →
    (∃ c ∈ front.getLast?, IsDigitChar c) ∧ ∃ c ∈ back.head?, IsDigitChar c

/-- An integer without underscores, and its value. -/
inductive PlainInteger : List Char → Int → Prop
  | decimal {cs : List Char} {n : Nat} (h : Digits 10 cs n) : PlainInteger cs n
  | positive {cs : List Char} {n : Nat} (h : Digits 10 cs n) : PlainInteger ('+' :: cs) n
  | negative {cs : List Char} {n : Nat} (h : Digits 10 cs n) : PlainInteger ('-' :: cs) (-n)
  | hex {cs : List Char} {n : Nat} (h : Digits 16 cs n) : PlainInteger ('0' :: 'x' :: cs) n
  | positiveHex {cs : List Char} {n : Nat} (h : Digits 16 cs n) :
    PlainInteger ('+' :: '0' :: 'x' :: cs) n

/-- A documented integer, and its value. -/
structure Documented (cs : List Char) (n : Int) : Prop where
  separated : Separated cs
  plain : PlainInteger (cs.filter (· != '_')) n
  fits : fitsWord n = true

/-- A text in which no sign and no underscore is out of place. -/
structure Orderly (cs : List Char) : Prop where
  separated : Separated cs
  plus : '+' ∉ cs.tail
  minus : '-' ∉ cs.tail

/-! ## Underscores -/

theorem not_isDigitChar_underscore : ¬ IsDigitChar '_' :=
  Bool.eq_false_iff.mp rfl

theorem exists_of_hasDoubleUnderscore (h : hasDoubleUnderscore cs = true) :
    ∃ front back, cs = front ++ '_' :: '_' :: back := by
  fun_induction hasDoubleUnderscore cs with
  | case1 back => exact ⟨[], back, rfl⟩
  | case2 c cs _ ih =>
    obtain ⟨front, back, rfl⟩ := ih h
    exact ⟨c :: front, back, rfl⟩
  | case3 => cases h

/-- Between digits no underscore is misplaced. -/
theorem Separated.misplacedUnderscore_eq (h : Separated cs) : misplacedUnderscore cs = false := by
  have hhead : cs.head? ≠ some '_' := by
    intro hh
    obtain ⟨back, rfl⟩ := List.head?_eq_some_iff.mp hh
    obtain ⟨⟨c, hc, -⟩, -⟩ := h [] back rfl
    cases hc
  have hlast : cs.getLast? ≠ some '_' := by
    intro hl
    obtain ⟨front, rfl⟩ := List.getLast?_eq_some_iff.mp hl
    obtain ⟨-, c, hc, -⟩ := h front [] rfl
    cases hc
  have hdouble : hasDoubleUnderscore cs ≠ true := by
    intro hd
    obtain ⟨front, back, rfl⟩ := exists_of_hasDoubleUnderscore hd
    obtain ⟨-, c, hc, hdigit⟩ := h front ('_' :: back) rfl
    cases hc
    exact not_isDigitChar_underscore hdigit
  simp [misplacedUnderscore, hhead, hlast, hdouble]

theorem separated_of_not_mem (h : '_' ∉ cs) : Separated cs := by
  rintro front back rfl
  exact absurd (List.mem_append_right front List.mem_cons_self) h

/-- Underscores in their places do not move a character to the front. -/
theorem mem_tail_filter_iff (h : misplacedUnderscore cs = false) (hc : c ≠ '_') :
    c ∈ (cs.filter (· != '_')).tail ↔ c ∈ cs.tail := by
  cases cs with
  | nil => rfl
  | cons d cs =>
    rw [filter_cons_of_placed h, List.tail_cons, List.tail_cons, List.mem_filter]
    exact and_iff_left (bne_iff_ne.mpr hc)

/-! ## Signs -/

/-- No digit is a sign. -/
theorem Digits.no_sign {radix m : Nat} (h : Digits radix cs m) : '+' ∉ cs ∧ '-' ∉ cs := by
  constructor
  · intro hm
    obtain ⟨d, hd⟩ := h.digit_of_mem hm
    cases hd
  · intro hm
    obtain ⟨d, hd⟩ := h.digit_of_mem hm
    cases hd

/-- A sign stands in front. -/
theorem PlainInteger.no_sign (h : PlainInteger cs n) : '+' ∉ cs.tail ∧ '-' ∉ cs.tail := by
  cases h with
  | decimal h =>
    exact ⟨fun hm => h.no_sign.1 (List.mem_of_mem_tail hm),
      fun hm => h.no_sign.2 (List.mem_of_mem_tail hm)⟩
  | positive h | negative h => exact h.no_sign
  | hex h => simp [h.no_sign]
  | positiveHex h => simp [h.no_sign]

/-- A numeral without a sign is a row of digits. -/
theorem Word.digits {radix : Nat} (h : Word radix cs n) (hp : '+' ∉ cs) (hm : '-' ∉ cs) :
    ∃ m : Nat, n = m ∧ Digits radix cs m := by
  obtain ⟨hn, -⟩ := h
  cases hn with
  | plain h => exact ⟨_, rfl, h⟩
  | plus h => exact absurd List.mem_cons_self hp
  | minus h => exact absurd List.mem_cons_self hm

theorem natural_ne_leastWord (m : Nat) : (m : Int) ≠ leastWord := by
  rw [leastWord]
  omega

/-- A number and its opposite fit together, but for the least integer. -/
theorem fitsWord_neg_iff (m : Nat) :
    fitsWord (-(m : Int)) = true ∧ -(m : Int) ≠ leastWord ↔ fitsWord m = true := by
  rw [fitsWord_iff, fitsWord_iff, leastWord, greatestWord]
  omega

/-- Where no second sign stands, a literal is a plain integer. -/
theorem Literal.plain (h : Literal cs n) (hp : '+' ∉ cs.tail) (hm : '-' ∉ cs.tail) :
    PlainInteger cs n ∧ fitsWord n = true ∧ n ≠ leastWord := by
  cases h with
  | unsigned hd hf => exact ⟨.decimal hd, hf, natural_ne_leastWord _⟩
  | positive hw =>
    obtain ⟨m, rfl, hd⟩ := hw.digits hp hm
    exact ⟨.positive hd, hw.fits, natural_ne_leastWord m⟩
  | negative hw =>
    obtain ⟨m, rfl, hd⟩ := hw.digits hp hm
    exact ⟨.negative hd, (fitsWord_neg_iff m).mpr hw.fits⟩
  | hex hw =>
    obtain ⟨m, rfl, hd⟩ :=
      hw.digits (List.not_mem_of_not_mem_cons hp) (List.not_mem_of_not_mem_cons hm)
    exact ⟨.hex hd, hw.fits, natural_ne_leastWord m⟩
  | positiveHex hw =>
    obtain ⟨m, rfl, hd⟩ :=
      hw.digits (List.not_mem_of_not_mem_cons (List.not_mem_of_not_mem_cons hp))
        (List.not_mem_of_not_mem_cons (List.not_mem_of_not_mem_cons hm))
    exact ⟨.positiveHex hd, hw.fits, natural_ne_leastWord m⟩

/-- A plain integer of 64 bits is a literal unless it is the least. -/
theorem PlainInteger.literal (h : PlainInteger cs n) (hf : fitsWord n = true)
    (hn : n ≠ leastWord) : Literal cs n := by
  cases h with
  | decimal h => exact .unsigned h hf
  | positive h => exact .positive ⟨.plain h, hf⟩
  | @negative cs m h =>
    have hfit : fitsWord m = true := (fitsWord_neg_iff m).mp ⟨hf, hn⟩
    exact .negative ⟨.plain h, hfit⟩ (natural_ne_leastWord m)
  | hex h => exact .hex ⟨.plain h, hf⟩
  | positiveHex h => exact .positiveHex ⟨.plain h, hf⟩

/-- A literal denotes a 64-bit integer, whatever signs it has. -/
theorem Literal.fits (h : Literal cs n) : fitsWord n = true := by
  cases h with
  | unsigned _ hf => exact hf
  | positive hw | hex hw | positiveHex hw => exact hw.fits
  | @negative cs m hw hn =>
    obtain ⟨hl, hu⟩ := fitsWord_iff.mp hw.fits
    rw [leastWord] at hl hn
    rw [greatestWord] at hu
    rw [fitsWord_iff, leastWord, greatestWord]
    omega

theorem PlainInteger.startsInteger (h : PlainInteger cs n) : startsInteger cs = true := by
  cases h with
  | @decimal cs m h =>
    obtain ⟨c, ds, rfl⟩ := List.exists_cons_of_ne_nil h.ne_nil
    obtain ⟨d, hd⟩ := h.digit_of_mem List.mem_cons_self
    simp [Document.startsInteger, isDigit_of_digit? hd]
  | positive | negative | hex | positiveHex => rfl

/-! ## Texts in order -/

/-- A documented integer is in order. -/
theorem Documented.orderly (h : Documented cs n) : Orderly cs := by
  have hu := h.separated.misplacedUnderscore_eq
  obtain ⟨hp, hm⟩ := h.plain.no_sign
  exact ⟨h.separated, fun hc => hp ((mem_tail_filter_iff hu (by decide)).mpr hc),
    fun hc => hm ((mem_tail_filter_iff hu (by decide)).mpr hc)⟩

/-- A documented integer begins with a digit or a sign. -/
theorem Documented.startsInteger (h : Documented cs n) : startsInteger cs = true := by
  have hs := h.plain.startsInteger
  cases cs with
  | nil => exact hs
  | cons c cs =>
    rw [filter_cons_of_placed h.separated.misplacedUnderscore_eq] at hs
    exact hs

/-- **On texts in order the literals are the documented integers**, without the least. -/
theorem Orderly.integerText_iff (h : Orderly cs) :
    IntegerText cs n ↔ Documented cs n ∧ n ≠ leastWord := by
  have hu := h.separated.misplacedUnderscore_eq
  constructor
  · intro hi
    obtain ⟨hplain, hf, hn⟩ := hi.literal.plain
      (fun hc => h.plus ((mem_tail_filter_iff hu (by decide)).mp hc))
      (fun hc => h.minus ((mem_tail_filter_iff hu (by decide)).mp hc))
    exact ⟨⟨h.separated, hplain, hf⟩, hn⟩
  · rintro ⟨hd, hn⟩
    exact ⟨hu, hd.plain.literal hd.fits hn⟩

/-- An integer is refused with its text, or it is the one fault. -/
theorem readInteger_error {e : ConfigFailure} (h : readInteger cs = .error e) :
    e = .refused (.invalidNumber (String.ofList cs)) ∨ ∃ f, e = .fault f := by
  rw [readInteger_eq] at h
  split at h
  · cases h
    exact Or.inl rfl
  · unfold applySign at h
    split at h
    · cases h
      exact Or.inl rfl
    · split at h
      · cases h
      · split at h
        · cases h
          exact Or.inr ⟨_, rfl⟩
        · cases h

/-- Two signs are not in order. -/
theorem NegatesLeast.not_orderly (h : NegatesLeast cs) : ¬ Orderly cs := by
  intro ho
  obtain ⟨ds, hf, -⟩ := h.literal
  have hm : '-' ∈ (cs.filter (· != '_')).tail := by
    rw [hf]
    exact List.mem_cons_self
  exact ho.minus ((mem_tail_filter_iff h.underscores (by decide)).mp hm)

theorem readValue_integer_iff (hs : startsInteger cs = true) {v : Scalar} :
    readValue line cs = .ok v ↔ ∃ n, IntegerText cs n ∧ .integer n = v := by
  rw [readValue_of_startsInteger hs, map_eq_ok_iff]
  simp only [readInteger_eq_ok_iff]

theorem readValue_integer_error (hs : startsInteger cs = true) {e : ConfigFailure}
    (h : readValue line cs = .error e) :
    e = .refused (.invalidNumber (String.ofList cs)) ∨
      e = .fault .negationOverflow ∧ NegatesLeast cs := by
  rw [readValue_of_startsInteger hs, map_eq_error_iff] at h
  rcases readInteger_error h with he | ⟨f, rfl⟩
  · exact Or.inl he
  · obtain ⟨rfl, hn⟩ := readInteger_fault_iff.mp h
    exact Or.inr ⟨rfl, hn⟩

/-! ## Integers in print -/

/-- Every integer has a decimal text. -/
theorem plainInteger_print (n : Int) : PlainInteger (Scalar.integer n).print n := by
  cases n with
  | ofNat n => exact .decimal (digits_toDigits n)
  | negSucc n => exact .negative (digits_toDigits (n + 1))

/-! ## The reader and the grammar -/

/-- **The reader follows the grammar where no sign and no underscore is out of place.**  Every
documented integer is such a text.  Such a text with a digit or a sign in front is read just
when it is a documented integer other than the least 64-bit integer, as the value that it has
by the grammar, and else it is refused as an invalid number that carries the text.  Any other
text with a digit or a sign in front is a literal and read as the 64-bit integer that it
denotes, or it is refused in that way, or it is the one fault.  Every 64-bit integer but the
least, in decimal and with underscores between its digits or without, is read back. -/
theorem integers_read (line : Nat) :
    (∀ cs n, Documented cs n → startsInteger cs = true ∧ Orderly cs) ∧
    (∀ cs, startsInteger cs = true → Orderly cs →
      (∀ v, readValue line cs = .ok v ↔
        ∃ n, Documented cs n ∧ n ≠ leastWord ∧ .integer n = v) ∧
      ((∀ n, Documented cs n → n = leastWord) →
        readValue line cs = .error (.refused (.invalidNumber (String.ofList cs))))) ∧
    (∀ cs, startsInteger cs = true →
      (∃ n, readValue line cs = .ok (.integer n) ∧ IntegerText cs n ∧ fitsWord n = true) ∨
      readValue line cs = .error (.refused (.invalidNumber (String.ofList cs))) ∨
      readValue line cs = .error (.fault .negationOverflow) ∧ NegatesLeast cs) ∧
    ∀ n cs, fitsWord n = true → n ≠ leastWord → Separated cs →
      cs.filter (· != '_') = (Scalar.integer n).print → readValue line cs = .ok (.integer n) := by
  refine ⟨fun cs n h => ⟨h.startsInteger, h.orderly⟩, ?_, ?_, ?_⟩
  · intro cs hs ho
    have hok : ∀ v, readValue line cs = .ok v ↔
        ∃ n, Documented cs n ∧ n ≠ leastWord ∧ .integer n = v := by
      intro v
      simp only [readValue_integer_iff hs, ho.integerText_iff, and_assoc]
    refine ⟨hok, fun hleast => ?_⟩
    cases hr : readValue line cs with
    | ok v =>
      obtain ⟨n, hd, hn, -⟩ := (hok v).mp hr
      exact absurd (hleast n hd) hn
    | error e =>
      rcases readValue_integer_error hs hr with rfl | ⟨-, hf⟩
      · rfl
      · exact absurd ho hf.not_orderly
  · intro cs hs
    cases hr : readValue line cs with
    | ok v =>
      obtain ⟨n, hi, rfl⟩ := (readValue_integer_iff hs).mp hr
      exact Or.inl ⟨n, rfl, hi, hi.literal.fits⟩
    | error e =>
      rcases readValue_integer_error hs hr with rfl | ⟨rfl, hf⟩
      · exact Or.inr (Or.inl rfl)
      · exact Or.inr (Or.inr ⟨rfl, hf⟩)
  · intro n cs hf hn hsep hprint
    have hd : Documented cs n := ⟨hsep, hprint ▸ plainInteger_print n, hf⟩
    exact (readValue_integer_iff hd.startsInteger).mpr
      ⟨n, hd.orderly.integerText_iff.mpr ⟨hd, hn⟩, rfl⟩

/-- Minus ten with an underscore, and a minus alone. -/
theorem integers_read_separated :
    readValue 1 "-1_0".toList = .ok (.integer (-10)) ∧
    (∀ n, ¬ Documented "-".toList n) ∧
    readValue 1 "-".toList = .error (.refused (.invalidNumber "-")) := by
  have hsep : Separated "-1_0".toList := by
    intro front back h
    match front with
    | [] => cases h
    | [c] => cases h
    | [c, d] =>
      cases h
      exact ⟨⟨'1', rfl, rfl⟩, '0', rfl, rfl⟩
    | [c, d, e] => cases h
    | c :: d :: e :: f :: front => cases front <;> cases h
  have hnone : ∀ n, ¬ Documented "-".toList n := by
    intro n hd
    have hplain : PlainInteger ['-'] n := hd.plain
    cases hplain with
    | decimal h => exact h.no_sign.2 List.mem_cons_self
    | negative h => exact h.ne_nil rfl
  refine ⟨(integers_read 1).2.2.2 (-10) _ (by decide) (by decide) hsep (by decide), hnone, ?_⟩
  exact ((integers_read 1).2.1 "-".toList rfl
    ⟨separated_of_not_mem (by decide), by decide, by decide⟩).2 fun n hd => absurd hd (hnone n)

/-- The least integer is documented and refused; two signs are not documented and read. -/
theorem documented_least_refused :
    Documented "-9223372036854775808".toList leastWord ∧
    readValue 1 "-9223372036854775808".toList =
      .error (.refused (.invalidNumber "-9223372036854775808")) ∧
    read "n = -9223372036854775808" =
      .error (.refused (.invalidNumber "-9223372036854775808")) ∧
    (∀ n, ¬ Documented "--5".toList n) ∧ readValue 1 "--5".toList = .ok (.integer 5) ∧
    ¬ ∀ cs n, readValue 1 cs = .ok (.integer n) ↔ Documented cs n := by
  have hleast : Documented "-9223372036854775808".toList leastWord :=
    ⟨separated_of_not_mem (by decide), .negative (natural?_eq_some_iff.mp rfl), by decide⟩
  have hrefused : readValue 1 "-9223372036854775808".toList =
      .error (.refused (.invalidNumber "-9223372036854775808")) := rfl
  refine ⟨hleast, hrefused, rfl, fun n hd => hd.orderly.minus (by decide), rfl, fun h => ?_⟩
  have hread := (h _ _).mpr hleast
  rw [hrefused] at hread
  cases hread

end Document
end SoftNic
