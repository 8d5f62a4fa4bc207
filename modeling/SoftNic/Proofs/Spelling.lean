import Mathlib.Data.List.Forall2
import Mathlib.Data.List.Induction
import SoftNic.Document.Reading

/-! # How statements are spelled

The readers of keys, values and statements are scanners: each says what it does with a
text, and none says which texts there are.  Here the texts are given by rules, one for
each way of writing a thing (`Quoted`, `Digits`, `Numeral`, `Literal`, `KeyText`,
`ValueText`, `StatementText`), and each reader is shown to accept what its rules derive and
nothing else.  A line, less its comment and the blanks at its ends, is read as a statement
if and only if it is a spelling of it (`ofLine_eq_ok_iff`).

The rules never look at the line number, which only a refusal shows.
-/
namespace SoftNic
namespace Document

open Text

variable {cs rest content text : List Char} {s key : String} {line : Nat}

/-! ## Quoted strings -/

/-- The inside of a basic string, and the characters that it stands for. -/
inductive Basic : List Char → List Char → Prop
  | nil : Basic [] []
  | plain {c : Char} {cs content : List Char} (hq : c ≠ '"') (hb : c ≠ '\\')
    (h : Basic cs content) : Basic (c :: cs) (c :: content)
  | escape {e c : Char} {cs content : List Char} (he : escaped? e = some c)
    (h : Basic cs content) : Basic ('\\' :: e :: cs) (c :: content)

/-- A quoted string with its quotes, and the string that it stands for. -/
inductive Quoted : List Char → String → Prop
  | basic {cs content : List Char} (h : Basic cs content) :
    Quoted ('"' :: (cs ++ ['"'])) (String.ofList content)
  | literal {cs : List Char} (h : '\'' ∉ cs) : Quoted ('\'' :: (cs ++ ['\''])) (String.ofList cs)

namespace QuoteScan

/-- What a scan that found the closing quote has found behind its first character. -/
theorem push_eq_closed_iff {c : Char} {q : QuoteScan} :
    q.push c = .closed content rest ↔ ∃ content', content = c :: content' ∧
      q = .closed content' rest := by
  cases q <;> simp [push, eq_comm]

end QuoteScan

theorem scanBasic_plain {c : Char} (hq : c ≠ '"') (hb : c ≠ '\\') (cs : List Char) :
    scanBasic (c :: cs) = (scanBasic cs).push c := by
  rw [scanBasic]
  · exact hq
  · rintro rfl -
    exact hb rfl
  · rintro e ds rfl -
    exact hb rfl

theorem scanBasic_escape {e c : Char} (he : escaped? e = some c) (cs : List Char) :
    scanBasic ('\\' :: e :: cs) = (scanBasic cs).push c := by
  rw [scanBasic, he]

theorem Basic.scan (h : Basic cs content) (rest : List Char) :
    scanBasic (cs ++ '"' :: rest) = .closed content rest := by
  induction h with
  | nil => rfl
  | plain hq hb _ ih =>
    rw [List.cons_append, scanBasic_plain hq hb, ih]
    rfl
  | escape he _ ih =>
    rw [List.cons_append, List.cons_append, scanBasic_escape he, ih]
    rfl

/-- The scan of a basic string stops at the quote that closes it. -/
theorem scanBasic_eq_closed_iff : scanBasic text = .closed content rest ↔
    ∃ cs, Basic cs content ∧ text = cs ++ '"' :: rest := by
  constructor
  · intro h
    fun_induction scanBasic text generalizing content with
    | case1 => cases h
    | case2 cs =>
      cases h
      exact ⟨[], .nil, rfl⟩
    | case3 => cases h
    | case4 e cs c he ih =>
      obtain ⟨content', rfl, hc⟩ := QuoteScan.push_eq_closed_iff.mp h
      obtain ⟨cs', hb, rfl⟩ := ih hc
      exact ⟨'\\' :: e :: cs', .escape he hb, rfl⟩
    | case5 => cases h
    | case6 c cs hq hone hb ih =>
      obtain ⟨content', rfl, hc⟩ := QuoteScan.push_eq_closed_iff.mp h
      obtain ⟨cs', hb', rfl⟩ := ih hc
      refine ⟨c :: cs', .plain hq ?_ hb', rfl⟩
      rintro rfl
      cases cs' with
      | nil => exact hb _ _ rfl rfl
      | cons d ds => exact hb _ _ rfl rfl
  · rintro ⟨cs, h, rfl⟩
    exact h.scan rest

theorem scanLiteral_plain {c : Char} (hc : c ≠ '\'') (cs : List Char) :
    scanLiteral (c :: cs) = (scanLiteral cs).push c := by
  rw [scanLiteral]
  exact hc

theorem scanLiteral_append (h : '\'' ∉ cs) (rest : List Char) :
    scanLiteral (cs ++ '\'' :: rest) = .closed cs rest := by
  induction cs with
  | nil => rfl
  | cons c cs ih =>
    obtain ⟨hc, hcs⟩ := not_or.mp (mt List.mem_cons.mpr h)
    rw [List.cons_append, scanLiteral_plain (Ne.symm hc), ih hcs]
    rfl

/-- The scan of a literal string stops at the next single quote. -/
theorem scanLiteral_eq_closed_iff : scanLiteral text = .closed content rest ↔
    '\'' ∉ content ∧ text = content ++ '\'' :: rest := by
  constructor
  · intro h
    fun_induction scanLiteral text generalizing content with
    | case1 => cases h
    | case2 cs =>
      cases h
      exact ⟨List.not_mem_nil, rfl⟩
    | case3 c cs hc ih =>
      obtain ⟨content', rfl, hs⟩ := QuoteScan.push_eq_closed_iff.mp h
      obtain ⟨hn, rfl⟩ := ih hs
      refine ⟨?_, rfl⟩
      rw [List.mem_cons, not_or]
      exact ⟨Ne.symm hc, hn⟩
  · rintro ⟨h, rfl⟩
    exact scanLiteral_append h rest

/-- **Quoted strings are read as they are spelled.** -/
theorem readQuoted_eq_ok_iff (ht : Trimmed text) : readQuoted line text = .ok s ↔ Quoted text s := by
  constructor
  · intro h
    unfold readQuoted at h
    dsimp only at h
    split at h
    · cases h
    · cases h
    · next content rest hs =>
      split at h
      · next hr =>
        cases h
        split at hs
        · next cs =>
          obtain ⟨body, hb, rfl⟩ := scanBasic_eq_closed_iff.mp hs
          obtain rfl : rest = [] := Trimmed.eq_nil_of_trim ('"' :: (body ++ ['"']))
            (by simpa using ht) hr
          exact .basic hb
        · next cs =>
          obtain ⟨hb, rfl⟩ := scanLiteral_eq_closed_iff.mp hs
          obtain rfl : rest = [] := Trimmed.eq_nil_of_trim ('\'' :: (content ++ ['\'']))
            (by simpa using ht) hr
          exact .literal hb
        · cases hs
      · cases h
  · intro h
    cases h with
    | basic hb =>
      simp only [readQuoted, hb.scan]
      rfl
    | literal hb =>
      simp only [readQuoted, scanLiteral_append hb]
      rfl

/-! ## Integers -/

/-- A row of digits, and the number that it denotes in a radix. -/
inductive Digits (radix : Nat) : List Char → Nat → Prop
  | one {c : Char} {d : Nat} (hc : digit? radix c = some d) : Digits radix [c] d
  | more {c : Char} {d n : Nat} {cs : List Char} (h : Digits radix cs n)
    (hc : digit? radix c = some d) : Digits radix (cs ++ [c]) (radix * n + d)

/-- A row of digits with at most one sign in front. -/
inductive Numeral (radix : Nat) : List Char → Int → Prop
  | plain {cs : List Char} {n : Nat} (h : Digits radix cs n) : Numeral radix cs n
  | plus {cs : List Char} {n : Nat} (h : Digits radix cs n) : Numeral radix ('+' :: cs) n
  | minus {cs : List Char} {n : Nat} (h : Digits radix cs n) : Numeral radix ('-' :: cs) (-n)

/-- A signed numeral that is a 64-bit integer. -/
structure Word (radix : Nat) (cs : List Char) (n : Int) : Prop where
  numeral : Numeral radix cs n
  fits : fitsWord n = true

/-- An integer literal without underscores, and its value.  The sign of a literal stands in
front of that of its numeral. -/
inductive Literal : List Char → Int → Prop
  | unsigned {cs : List Char} {n : Nat} (h : Digits 10 cs n) (hn : fitsWord n = true) : Literal cs n
  | positive {cs : List Char} {n : Int} (h : Word 10 cs n) : Literal ('+' :: cs) n
  | negative {cs : List Char} {n : Int} (h : Word 10 cs n) (hn : n ≠ leastWord) :
    Literal ('-' :: cs) (-n)
  | hex {cs : List Char} {n : Int} (h : Word 16 cs n) : Literal ('0' :: 'x' :: cs) n
  | positiveHex {cs : List Char} {n : Int} (h : Word 16 cs n) : Literal ('+' :: '0' :: 'x' :: cs) n

/-- An integer literal, and its value. -/
structure IntegerText (cs : List Char) (n : Int) : Prop where
  underscores : misplacedUnderscore cs = false
  literal : Literal (cs.filter (· != '_')) n

section Digits

variable {radix m n : Nat} {c : Char}

theorem digitsFrom?_append (m : Nat) (cs ds : List Char) :
    digitsFrom? radix m (cs ++ ds) = (digitsFrom? radix m cs).bind (digitsFrom? radix · ds) := by
  induction cs generalizing m with
  | nil => rfl
  | cons c cs ih =>
    rw [List.cons_append, digitsFrom?, digitsFrom?]
    cases digit? radix c with
    | none => rfl
    | some d => exact ih _

theorem natural?_of_ne_nil (h : cs ≠ []) : natural? radix cs = digitsFrom? radix 0 cs := by
  unfold natural?
  split
  · exact absurd rfl h
  · rfl

theorem natural?_concat (h : cs ≠ []) (c : Char) :
    natural? radix (cs ++ [c]) =
      (natural? radix cs).bind fun n => (digit? radix c).map (radix * n + ·) := by
  rw [natural?_of_ne_nil h, natural?_of_ne_nil (by simp), digitsFrom?_append]
  congr 1
  funext n
  rw [digitsFrom?]
  cases digit? radix c <;> rfl

theorem natural?_singleton (radix : Nat) (c : Char) : natural? radix [c] = digit? radix c := by
  rw [natural?_of_ne_nil (by simp), digitsFrom?]
  cases digit? radix c <;> simp [digitsFrom?]

theorem Digits.ne_nil (h : Digits radix cs n) : cs ≠ [] := by
  cases h <;> simp

theorem natural?_eq_some_iff : natural? radix cs = some n ↔ Digits radix cs n := by
  constructor
  · intro h
    induction cs using List.reverseRecOn generalizing n with
    | nil => cases h
    | append_singleton cs c ih =>
      by_cases hcs : cs = []
      · subst hcs
        rw [List.nil_append, natural?_singleton] at h
        exact .one h
      · rw [natural?_concat hcs] at h
        obtain ⟨m, hm, h⟩ := Option.bind_eq_some_iff.mp h
        obtain ⟨d, hd, rfl⟩ := Option.map_eq_some_iff.mp h
        exact .more (ih hm) hd
  · intro h
    induction h with
    | one hc => rw [natural?_singleton, hc]
    | more h hc ih => rw [natural?_concat h.ne_nil, ih, hc]; rfl

/-- Every character of a row of digits is a digit. -/
theorem Digits.digit_of_mem (h : Digits radix cs n) (hc : c ∈ cs) : ∃ d, digit? radix c = some d := by
  induction h with
  | one hd => exact ⟨_, List.mem_singleton.mp hc ▸ hd⟩
  | more _ hd ih =>
    rcases List.mem_append.mp hc with hc | hc
    · exact ih hc
    · exact ⟨_, List.mem_singleton.mp hc ▸ hd⟩

/-- A row of digits does not begin with a character that is none. -/
theorem not_digits_cons (hc : digit? radix c = none) (cs : List Char) (n : Nat) :
    ¬ Digits radix (c :: cs) n := by
  intro h
  obtain ⟨d, hd⟩ := h.digit_of_mem List.mem_cons_self
  rw [hc] at hd
  cases hd

end Digits

section Signs

variable {radix : Nat} {n : Int}

/-- The numeral of a row of digits, to which its sign does something. -/
theorem map_natural?_eq_some_iff {f : Int → Int} :
    (do let m ← natural? radix cs; pure (m : Int)).map f = some n ↔
      ∃ m : Nat, Digits radix cs m ∧ f m = n := by
  cases h : natural? radix cs with
  | none => simp [← natural?_eq_some_iff, h]
  | some m => simp [← natural?_eq_some_iff, h]

theorem signed?_eq_some_iff : signed? radix cs = some n ↔ Numeral radix cs n := by
  constructor
  · intro h
    unfold signed? at h
    split at h
    · obtain ⟨m, hm, rfl⟩ := map_natural?_eq_some_iff.mp h
      exact .minus hm
    · obtain ⟨m, hm, rfl⟩ := map_natural?_eq_some_iff.mp h
      exact .plus hm
    · obtain ⟨m, hm, rfl⟩ := map_natural?_eq_some_iff.mp h
      exact .plain hm
  · intro h
    cases h with
    | minus h => exact map_natural?_eq_some_iff.mpr ⟨_, h, rfl⟩
    | plus h => exact map_natural?_eq_some_iff.mpr ⟨_, h, rfl⟩
    | plain h =>
      unfold signed?
      split
      · exact absurd h (not_digits_cons rfl _ _)
      · exact absurd h (not_digits_cons rfl _ _)
      · exact map_natural?_eq_some_iff.mpr ⟨_, h, rfl⟩

theorem word?_eq_some_iff : word? radix cs = some n ↔ Word radix cs n := by
  rw [word?, Option.filter_eq_some_iff, signed?_eq_some_iff]
  exact ⟨fun h => ⟨h.1, h.2⟩, fun h => ⟨h.numeral, h.fits⟩⟩

end Signs

section Literals

variable {n : Int}

theorem numeral?_hex (negative : Bool) (cs : List Char) :
    numeral? negative ('0' :: 'x' :: cs) = if negative then none else word? 16 cs := rfl

theorem numeral?_of_not_hex (negative : Bool) (h : ∀ ds, cs ≠ '0' :: 'x' :: ds) :
    numeral? negative cs = word? 10 cs := by
  unfold numeral?
  split
  · exact absurd rfl (h _)
  · rfl

/-- The x of a hexadecimal numeral is no decimal digit. -/
theorem Numeral.ne_hex (h : Numeral 10 cs n) (ds : List Char) : cs ≠ '0' :: 'x' :: ds := by
  rintro rfl
  cases h with
  | plain h =>
    obtain ⟨d, hd⟩ := h.digit_of_mem (c := 'x') (by simp)
    cases hd

/-- What a literal without underscores is read as, before it is negated. -/
theorem numeral?_eq_some_iff {negative : Bool} : numeral? negative cs = some n ↔
    Word 10 cs n ∨ negative = false ∧ ∃ ds, cs = '0' :: 'x' :: ds ∧ Word 16 ds n := by
  by_cases hx : ∃ ds, cs = '0' :: 'x' :: ds
  · obtain ⟨ds, rfl⟩ := hx
    have hd : ¬ Word 10 ('0' :: 'x' :: ds) n := fun h => h.numeral.ne_hex ds rfl
    rw [numeral?_hex]
    cases negative with
    | true => simp [hd]
    | false => simp [hd, word?_eq_some_iff]
  · rw [numeral?_of_not_hex negative fun ds hds => hx ⟨ds, hds⟩, word?_eq_some_iff]
    refine ⟨Or.inl, fun h => h.resolve_right ?_⟩
    rintro ⟨-, ds, hds, -⟩
    exact hx ⟨ds, hds⟩

/-- Where the sign in front of a literal can stand. -/
theorem leadingSign_cases (cs : List Char) :
    (∃ ds, cs = '-' :: ds ∧ leadingSign cs = (true, ds)) ∨
    (∃ ds, cs = '+' :: ds ∧ leadingSign cs = (false, ds)) ∨
    (∀ ds, cs ≠ '-' :: ds) ∧ (∀ ds, cs ≠ '+' :: ds) ∧ leadingSign cs = (false, cs) := by
  unfold leadingSign
  split
  · exact Or.inl ⟨_, rfl, rfl⟩
  · exact Or.inr (Or.inl ⟨_, rfl, rfl⟩)
  · next hm hp => exact Or.inr (Or.inr ⟨hm, hp, rfl⟩)

/-- What the sign and the numeral of a literal come to. -/
def applySign (negative : Bool) (invalid : Except ConfigFailure Int) :
    Option Int → Except ConfigFailure Int
  | none => invalid
  | some n =>
    if !negative then .ok n
    else if n = leastWord then .error (.fault .negationOverflow)
    else .ok (-n)

theorem applySign_eq_ok_iff {negative : Bool} {e : ConfigFailure} {m? : Option Int} :
    applySign negative (.error e) m? = .ok n ↔ ∃ m, m? = some m ∧
      (negative = false ∧ n = m ∨ negative = true ∧ m ≠ leastWord ∧ n = -m) := by
  cases m? with
  | none => simp [applySign]
  | some m =>
    by_cases hm : m = leastWord <;> cases negative <;> simp [applySign, hm, eq_comm]

theorem applySign_eq_fault_iff {negative : Bool} {e : ConfigError} {m? : Option Int} {f : Fault} :
    applySign negative (.error (.refused e)) m? = .error (.fault f) ↔
      f = .negationOverflow ∧ negative = true ∧ m? = some leastWord := by
  cases m? with
  | none => simp [applySign]
  | some m =>
    by_cases hm : m = leastWord <;> cases negative <;> simp [applySign, hm, eq_comm]

/-- A literal is read in three steps: its underscores, its sign, its numeral. -/
theorem readInteger_eq (cs : List Char) :
    readInteger cs =
      if misplacedUnderscore cs then .error (.refused (.invalidNumber (String.ofList cs)))
      else applySign (leadingSign (cs.filter (· != '_'))).1
        (.error (.refused (.invalidNumber (String.ofList cs))))
        (numeral? (leadingSign (cs.filter (· != '_'))).1 (leadingSign (cs.filter (· != '_'))).2) := by
  unfold readInteger applySign
  rfl

theorem applySign_true_iff {invalid : ConfigFailure} {ds : List Char} :
    applySign true (.error invalid) (numeral? true ds) = .ok n ↔ Literal ('-' :: ds) n := by
  simp only [applySign_eq_ok_iff, numeral?_eq_some_iff, Bool.true_eq_false, false_and, or_false,
    true_and, false_or]
  constructor
  · rintro ⟨m, hw, hm, rfl⟩
    exact .negative hw hm
  · intro h
    cases h with
    | negative hw hm => exact ⟨_, hw, hm, rfl⟩
    | unsigned hd => exact absurd hd (not_digits_cons rfl _ _)

theorem applySign_false_iff {invalid : ConfigFailure} {ds : List Char} :
    applySign false (.error invalid) (numeral? false ds) = .ok n ↔
      Word 10 ds n ∨ ∃ es, ds = '0' :: 'x' :: es ∧ Word 16 es n := by
  simp [applySign_eq_ok_iff, numeral?_eq_some_iff]

theorem literal_plus_iff {ds : List Char} : Literal ('+' :: ds) n ↔
    Word 10 ds n ∨ ∃ es, ds = '0' :: 'x' :: es ∧ Word 16 es n := by
  constructor
  · intro h
    cases h with
    | positive hw => exact Or.inl hw
    | positiveHex hw => exact Or.inr ⟨_, rfl, hw⟩
    | unsigned hd => exact absurd hd (not_digits_cons rfl _ _)
  · rintro (hw | ⟨es, rfl, hw⟩)
    · exact .positive hw
    · exact .positiveHex hw

/-- Without a sign in front, a decimal numeral has none of its own either. -/
theorem literal_iff_of_no_sign {ds : List Char} (hm : ∀ es, ds ≠ '-' :: es)
    (hp : ∀ es, ds ≠ '+' :: es) : Literal ds n ↔
      Word 10 ds n ∨ ∃ es, ds = '0' :: 'x' :: es ∧ Word 16 es n := by
  constructor
  · intro h
    cases h with
    | unsigned hd hf => exact Or.inl ⟨.plain hd, hf⟩
    | hex hw => exact Or.inr ⟨_, rfl, hw⟩
    | positive | positiveHex => exact absurd rfl (hp _)
    | negative => exact absurd rfl (hm _)
  · rintro (⟨hd, hf⟩ | ⟨es, rfl, hw⟩)
    · cases hd with
      | plain hd => exact .unsigned hd hf
      | plus => exact absurd rfl (hp _)
      | minus => exact absurd rfl (hm _)
    · exact .hex hw

/-- **Integers are read as they are spelled.** -/
theorem readInteger_eq_ok_iff : readInteger cs = .ok n ↔ IntegerText cs n := by
  rw [readInteger_eq]
  split
  · next hm =>
    refine ⟨nofun, fun h => ?_⟩
    rw [h.underscores] at hm
    cases hm
  · next hm =>
    have hlit : IntegerText cs n ↔ Literal (cs.filter (· != '_')) n :=
      ⟨fun h => h.literal, fun h => ⟨Bool.eq_false_iff.mpr hm, h⟩⟩
    rw [hlit]
    generalize cs.filter (· != '_') = ds
    rcases leadingSign_cases ds with ⟨es, rfl, hs⟩ | ⟨es, rfl, hs⟩ | ⟨hminus, hplus, hs⟩
    · rw [hs, applySign_true_iff]
    · rw [hs, applySign_false_iff, literal_plus_iff]
    · rw [hs, applySign_false_iff, literal_iff_of_no_sign hminus hplus]

/-- The only literal that is a fault: a minus in front of a numeral that is the least 64-bit
integer. -/
theorem readInteger_eq_fault_iff {f : Fault} : readInteger cs = .error (.fault f) ↔
    f = .negationOverflow ∧ misplacedUnderscore cs = false ∧
      ∃ ds, cs.filter (· != '_') = '-' :: ds ∧ Word 10 ds leastWord := by
  rw [readInteger_eq]
  split
  · next hm => simp [hm]
  · next hm =>
    rw [applySign_eq_fault_iff, Bool.eq_false_iff.mpr hm]
    refine and_congr_right fun _ => ?_
    generalize cs.filter (· != '_') = ds
    rcases leadingSign_cases ds with ⟨es, rfl, hs⟩ | ⟨es, rfl, hs⟩ | ⟨hminus, hplus, hs⟩
    · rw [hs, numeral?_eq_some_iff]
      simp
    · rw [hs]
      simp
    · rw [hs]
      simp [hminus]

end Literals

/-! ## Keys -/

/-- A key, bare or quoted. -/
inductive KeyText : List Char → String → Prop
  | bare {cs : List Char} (hn : cs ≠ []) (h : ∀ c ∈ cs, isKeyChar c = true) :
    KeyText cs (String.ofList cs)
  | quoted {cs : List Char} {s : String} (h : Quoted cs s) : KeyText cs s

theorem Quoted.startsQuoted (h : Quoted text s) : startsQuoted text = true := by
  cases h <;> rfl

/-- A text begins with no quote if it begins with some other character. -/
theorem startsQuoted_cons {c : Char} (hd : c ≠ '"') (hs : c ≠ '\'') (cs : List Char) :
    startsQuoted (c :: cs) = false := by
  unfold startsQuoted
  split
  · next h => exact absurd (List.cons.inj h).1 hd
  · next h => exact absurd (List.cons.inj h).1 hs
  · rfl

theorem not_startsQuoted_of_bare (h : ∀ c ∈ cs, isKeyChar c = true) : startsQuoted cs = false := by
  cases cs with
  | nil => rfl
  | cons c cs =>
    have hc := h c List.mem_cons_self
    refine startsQuoted_cons ?_ ?_ cs
    · rintro rfl
      cases hc
    · rintro rfl
      cases hc

/-- **Keys are read as they are spelled.** -/
theorem readKey_eq_ok_iff (ht : Trimmed text) : readKey line text = .ok key ↔ KeyText text key := by
  constructor
  · intro h
    unfold readKey at h
    split at h
    · exact .quoted ((readQuoted_eq_ok_iff ht).mp h)
    · split at h
      · cases h
      · next hn =>
        split at h
        · next ha =>
          cases h
          exact .bare hn (List.all_eq_true.mp ha)
        · cases h
  · intro h
    cases h with
    | quoted h =>
      rw [readKey, if_pos h.startsQuoted]
      exact (readQuoted_eq_ok_iff ht).mpr h
    | bare hn h =>
      have hq : ¬ startsQuoted text = true := by simp [not_startsQuoted_of_bare h]
      rw [readKey, if_neg hq, if_neg hn, if_pos (List.all_eq_true.mpr h)]

theorem readKeys_eq_ok_iff {parts : List (List Char)} {path : List String} :
    readKeys line parts = .ok path ↔
      List.Forall₂ (fun part key => KeyText (trim part) key) parts path := by
  induction parts generalizing path with
  | nil => simp [readKeys, eq_comm]
  | cons part parts ih =>
    rw [readKeys, List.forall₂_cons_left_iff]
    constructor
    · intro h
      split at h
      · cases h
      · next key hk =>
        split at h
        · cases h
        · next keys hks =>
          cases h
          exact ⟨key, keys, (readKey_eq_ok_iff (trimmed_trim part)).mp hk, ih.mp hks, rfl⟩
    · rintro ⟨key, keys, hk, hks, rfl⟩
      rw [(readKey_eq_ok_iff (trimmed_trim part)).mpr hk, ih.mpr hks]

/-! ## Values -/

/-- A value. -/
inductive ValueText : List Char → Scalar → Prop
  | yes : ValueText "true".toList (.boolean true)
  | no : ValueText "false".toList (.boolean false)
  | text {cs : List Char} {s : String} (h : Quoted cs s) : ValueText cs (.text s)
  | integer {cs : List Char} {n : Int} (h : IntegerText cs n) : ValueText cs (.integer n)

theorem isDigit_of_digit? {c : Char} {d : Nat} (h : digit? 10 c = some d) : c.isDigit = true := by
  obtain ⟨hv, hd⟩ := Option.filter_eq_some_iff.mp h
  have le_toNat {a b : Char} (hab : a ≤ b) : a.toNat ≤ b.toNat := hab
  simp only [decide_eq_true_eq] at hd
  unfold hexValue? at hv
  split at hv
  · next hc =>
    simp only [Char.isDigit, Bool.and_eq_true, decide_eq_true_eq]
    exact hc
  -- A letter stands for ten at least.
  · split at hv
    · next hc =>
      have := le_toNat hc.1
      cases hv
      simp at this
      omega
    · split at hv
      · next hc =>
        have := le_toNat hc.1
        cases hv
        simp at this
        omega
      · cases hv

theorem Literal.startsInteger {c : Char} {n : Int} (h : Literal (c :: cs) n) :
    c.isDigit || c == '-' || c == '+' := by
  cases h with
  | unsigned hd =>
    obtain ⟨d, hd⟩ := hd.digit_of_mem List.mem_cons_self
    simp [isDigit_of_digit? hd]
  | positive | negative | hex | positiveHex => rfl

theorem Literal.ne_nil {n : Int} (h : Literal cs n) : cs ≠ [] := by
  cases h with
  | unsigned hd => exact hd.ne_nil
  | positive | negative | hex | positiveHex => exact List.cons_ne_nil _ _

/-- No underscore stands in front where they are all in place. -/
theorem filter_cons_of_placed {c : Char} (h : misplacedUnderscore (c :: cs) = false) :
    (c :: cs).filter (· != '_') = c :: cs.filter (· != '_') := by
  have hc : c ≠ '_' := by
    rintro rfl
    cases h
  exact List.filter_cons_of_pos (by simpa using hc)

/-- An integer begins with a digit or a sign, which the underscores in it do not hide. -/
theorem IntegerText.startsInteger {n : Int} (h : IntegerText text n) :
    startsInteger text = true := by
  obtain ⟨hu, hl⟩ := h
  cases text with
  | nil => exact absurd rfl hl.ne_nil
  | cons c cs =>
    rw [filter_cons_of_placed hu] at hl
    exact hl.startsInteger

theorem not_startsQuoted_of_startsInteger (h : startsInteger text = true) :
    startsQuoted text = false := by
  cases text with
  | nil => rfl
  | cons c cs =>
    refine startsQuoted_cons ?_ ?_ cs
    · rintro rfl
      cases h
    · rintro rfl
      cases h

/-- A text that begins with a quote, a digit or a sign is none of the words. -/
theorem no_word (h : startsQuoted text = true ∨ startsInteger text = true) :
    text ≠ [] ∧ text ≠ "true".toList ∧ text ≠ "false".toList := by
  refine ⟨?_, ?_, ?_⟩ <;> rintro rfl <;> exact absurd h (by decide)

theorem readValue_of_startsQuoted (h : startsQuoted text = true) :
    readValue line text = (refuse (readQuoted line text)).map .text := by
  obtain ⟨hn, ht, hf⟩ := no_word (Or.inl h)
  rw [readValue, if_neg hn, if_neg ht, if_neg hf, if_pos h]

theorem readValue_of_startsInteger (h : startsInteger text = true) :
    readValue line text = (readInteger text).map .integer := by
  obtain ⟨hn, ht, hf⟩ := no_word (Or.inr h)
  have hq : ¬ startsQuoted text = true := by simp [not_startsQuoted_of_startsInteger h]
  rw [readValue, if_neg hn, if_neg ht, if_neg hf, if_neg hq, if_pos h]

/-- **Values are read as they are spelled.** -/
theorem readValue_eq_ok_iff {v : Scalar} (ht : Trimmed text) :
    readValue line text = .ok v ↔ ValueText text v := by
  constructor
  · intro h
    by_cases hq : startsQuoted text = true
    · rw [readValue_of_startsQuoted hq, map_eq_ok_iff] at h
      obtain ⟨s, hs, rfl⟩ := h
      exact .text ((readQuoted_eq_ok_iff ht).mp (refuse_eq_ok_iff.mp hs))
    · by_cases hi : startsInteger text = true
      · rw [readValue_of_startsInteger hi, map_eq_ok_iff] at h
        obtain ⟨n, hn, rfl⟩ := h
        exact .integer (readInteger_eq_ok_iff.mp hn)
      · rw [readValue, if_neg hq, if_neg hi] at h
        split at h
        · cases h
        · split at h
          · next htrue =>
            cases h
            exact htrue ▸ .yes
          · split at h
            · next hfalse =>
              cases h
              exact hfalse ▸ .no
            · cases h
  · intro h
    cases h with
    | yes => rfl
    | no => rfl
    | text h =>
      rw [readValue_of_startsQuoted h.startsQuoted, (readQuoted_eq_ok_iff ht).mpr h]
      rfl
    | integer h =>
      rw [readValue_of_startsInteger h.startsInteger, readInteger_eq_ok_iff.mpr h]
      rfl

/-! ## Statements -/

/-- A statement on a line that is trimmed and free of comments. -/
inductive StatementText : List Char → Statement → Prop
  | blank : StatementText [] .blank
  /-- The parts between the dots of a header are its keys. -/
  | header {parts : List (List Char)} {path : List String} (hn : parts ≠ [])
    (hd : ∀ part ∈ parts, '.' ∉ part)
    (h : List.Forall₂ (fun part key => KeyText (trim part) key) parts path) :
    StatementText ('[' :: (['.'].intercalate parts ++ [']'])) (.header path)
  /-- The first equals sign of an assignment stands behind its key. -/
  | assignment {left right : List Char} {key : String} {v : Scalar} (he : '=' ∉ left)
    (hk : KeyText (trim left) key) (hv : ValueText (trim right) v) :
    StatementText (left ++ '=' :: right) (.assignment key v)

/-- A line says a statement, whatever comment follows. -/
def Spells (raw : List Char) (s : Statement) : Prop :=
  StatementText (trim (uncomment raw)) s

theorem readPath_eq_ok_iff {path : List String} : readPath line text = .ok path ↔
    ∃ parts, parts ≠ [] ∧ (∀ part ∈ parts, '.' ∉ part) ∧ text = ['.'].intercalate parts ∧
      List.Forall₂ (fun part key => KeyText (trim part) key) parts path := by
  rw [readPath, readKeys_eq_ok_iff]
  constructor
  · intro h
    exact ⟨_, pieces_ne_nil '.' text, fun _ => not_mem_of_mem_pieces,
      (intercalate_pieces '.' text).symm, h⟩
  · rintro ⟨parts, hn, hd, rfl, h⟩
    rwa [pieces_intercalate hn hd]

/-- No key begins with a bracket. -/
theorem KeyText.head_ne (h : KeyText ('[' :: cs) key) : False := by
  cases h with
  | bare _ h => exact absurd (h '[' List.mem_cons_self) (by decide)
  | quoted h => cases h

/-- What begins with a bracket does so when it is trimmed. -/
theorem trim_bracket (cs : List Char) : ∃ ds, trim ('[' :: cs) = '[' :: ds := by
  have hm : '[' ∈ trim ('[' :: cs) := mem_trim List.mem_cons_self (by decide)
  cases h : trim ('[' :: cs) with
  | nil => rw [h] at hm; cases hm
  | cons d ds =>
    have hd : d ∈ (trimLeft ('[' :: cs)).head? := head?_trimRight (by rw [← trim, h]; rfl)
    rw [trimLeft_cons_of_not_blank (by decide)] at hd
    cases hd
    exact ⟨ds, rfl⟩

/-- An assignment does not begin with a bracket, for then its key would. -/
theorem KeyText.no_bracket {left right : List Char} (h : KeyText (trim left) key) :
    ∀ ds, left ++ '=' :: right ≠ '[' :: ds := by
  intro ds hds
  cases left with
  | nil => cases hds
  | cons c cs =>
    cases hds
    obtain ⟨es, hes⟩ := trim_bracket cs
    rw [hes] at h
    exact h.head_ne

/-- What begins with a bracket is a header. -/
theorem StatementText.of_bracket {s : Statement} (h : StatementText ('[' :: cs) s) :
    ∃ path, s = .header path := by
  generalize ht : '[' :: cs = text at h
  cases h with
  | blank => cases ht
  | @header parts path => exact ⟨path, rfl⟩
  | assignment he hk hv => exact absurd ht.symm (hk.no_bracket cs)

/-- The reader of an assignment, at its equals sign. -/
theorem readStatement_of_cut {left right : List Char} (hb : ∀ ds, text ≠ '[' :: ds)
    (hc : cut? '=' text = some (left, right)) :
    readStatement line text =
      match readKey line (trim left) with
      | .error e => .error (.refused e)
      | .ok key => (readValue line (trim right)).map (.assignment key) := by
  unfold readStatement
  split
  · cases hc
  · exact absurd rfl (hb _)
  · rewrite [hc]
    rfl

/-- **Statements are read as they are spelled.** -/
theorem readStatement_eq_ok_iff {s : Statement} :
    readStatement line text = .ok s ↔ StatementText text s := by
  constructor
  · intro h
    unfold readStatement at h
    split at h
    · cases h
      exact .blank
    · next rest =>
      split at h
      · next hlast =>
        obtain ⟨path, hp, rfl⟩ := map_eq_ok_iff.mp h
        obtain ⟨parts, hn, hd, hj, hk⟩ := readPath_eq_ok_iff.mp (refuse_eq_ok_iff.mp hp)
        have hrest : rest = ['.'].intercalate parts ++ [']'] := by
          rw [← hj]
          exact (List.dropLast_append_getLast? _ hlast).symm
        rw [hrest]
        exact .header hn hd hk
      · cases h
    · split at h
      · cases h
      · next left right hc =>
        obtain ⟨rfl, he⟩ := cut?_eq_some_iff.mp hc
        split at h
        · cases h
        · next key hk =>
          obtain ⟨v, hv, rfl⟩ := map_eq_ok_iff.mp h
          exact .assignment he ((readKey_eq_ok_iff (trimmed_trim left)).mp hk)
            ((readValue_eq_ok_iff (trimmed_trim right)).mp hv)
  · intro h
    cases h with
    | blank => rfl
    | @header parts path hn hd hk =>
      have hp : readPath line (['.'].intercalate parts) = .ok path :=
        readPath_eq_ok_iff.mpr ⟨parts, hn, hd, rfl, hk⟩
      rw [readStatement, if_pos (by simp), List.dropLast_concat, hp]
      rfl
    | @assignment left right key v he hk hv =>
      rw [readStatement_of_cut hk.no_bracket (cut?_append he right),
        (readKey_eq_ok_iff (trimmed_trim left)).mpr hk]
      simp only
      rw [(readValue_eq_ok_iff (trimmed_trim right)).mpr hv]
      rfl

/-- **A line is read as a statement if and only if it spells it.** -/
theorem ofLine_eq_ok_iff {raw : List Char} {s : Statement} :
    Statement.ofLine line raw = .ok s ↔ Spells raw s :=
  readStatement_eq_ok_iff

/-- A line spells one statement at most. -/
theorem Spells.unique {raw : List Char} {s t : Statement} (hs : Spells raw s)
    (ht : Spells raw t) : s = t := by
  have hread : Statement.ofLine 0 raw = .ok s := ofLine_eq_ok_iff.mpr hs
  rw [ofLine_eq_ok_iff.mpr ht] at hread
  exact (Except.ok.inj hread).symm

end Document
end SoftNic
