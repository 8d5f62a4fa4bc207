import Mathlib.Data.List.Forall2
import SoftNic.MacAddress

/-! # The texts of hardware addresses

A text spells an address if it is six pairs of digits with single colons between them, and
the pairs stand for the octets of the address (`MacAddress.Spelled`).  What a digit stands
for is its place in one of two rows, which may be mixed within a pair (`Text.StandsFor`).

The reader cuts at colons before it looks at any digit, so it has to be shown that no group
of an accepted text holds a colon and that six groups come out of six.  **`read_spelled`:
an address is read from a text if and only if the text spells it; any other text is refused
and named in the refusal.**  The capital written form, which frame summaries show, is one
of the spellings, and every spelling is that form but for the case of its digits.
-/
namespace SoftNic

namespace Text

variable {c : Char} {n : Nat} {cs : List Char} {b : UInt8} {k : DigitCase}

/-! ## Digits and pairs of digits -/

/-- A digit stands for its place in the row of small or in the row of capital digits. -/
def StandsFor (c : Char) (n : Nat) : Prop :=
  "0123456789abcdef".toList[n]? = some c ∨ "0123456789ABCDEF".toList[n]? = some c

instance : Decidable (StandsFor c n) :=
  inferInstanceAs (Decidable (_ ∨ _))

/-- Two digits, and the octet that they stand for. -/
inductive Pair : List Char → UInt8 → Prop
  | digits {h l : Char} {m n : Nat} (hh : StandsFor h m) (hl : StandsFor l n) :
    Pair [h, l] (UInt8.ofNat (16 * m + n))

theorem StandsFor.lt (h : StandsFor c n) : n < 16 := by
  rcases h with h | h
  · exact (List.getElem?_eq_some_iff.mp h).1
  · exact (List.getElem?_eq_some_iff.mp h).1

/-- What holds of the digits in both rows holds of every digit. -/
theorem StandsFor.of_rows (p : Char → Nat → Prop) (h : StandsFor c n)
    (lower : ∀ i : Fin 16, p "0123456789abcdef".toList[i] i)
    (upper : ∀ i : Fin 16, p "0123456789ABCDEF".toList[i] i) : p c n := by
  rcases h with h | h
  · obtain ⟨hn, rfl⟩ := List.getElem?_eq_some_iff.mp h
    exact lower ⟨n, hn⟩
  · obtain ⟨hn, rfl⟩ := List.getElem?_eq_some_iff.mp h
    exact upper ⟨n, hn⟩

/-- No digit is beyond the small ones. -/
theorem le_of_hexValue? (h : hexValue? c = some n) : c ≤ 'f' := by
  unfold hexValue? at h
  split_ifs at h with decimal small capital
  · exact Char.le_trans decimal.2 (by decide)
  · exact small.2
  · exact Char.le_trans capital.2 (by decide)

theorem hexValue?_eq_some_iff : hexValue? c = some n ↔ StandsFor c n := by
  constructor
  · intro h
    -- The reader compares with the ends of three ranges, so its digits are below a bound,
    -- and below it they can be gone through.
    have all : ∀ i : Fin 128, ∀ m ∈ hexValue? (Char.ofNat i), StandsFor (Char.ofNat i) m := by
      decide +kernel
    have hlt : c.toNat < 128 := Nat.lt_of_le_of_lt (le_of_hexValue? h) (by decide)
    have hc := all ⟨c.toNat, hlt⟩
    rw [Char.ofNat_toNat] at hc
    exact hc n h
  · intro h
    exact h.of_rows (fun c n => hexValue? c = some n) (by decide) (by decide)

theorem octet?_eq_some_iff : octet? cs = some b ↔ Pair cs b := by
  constructor
  · intro h
    unfold octet? at h
    split at h
    · split at h
      · next hm hn =>
        obtain rfl := Option.some.inj h
        exact .digits (hexValue?_eq_some_iff.mp hm) (hexValue?_eq_some_iff.mp hn)
      · simp at h
    · simp at h
  · intro h
    obtain ⟨hm, hn⟩ := h
    simp only [octet?, hexValue?_eq_some_iff.mpr hm, hexValue?_eq_some_iff.mpr hn]

/-- No digit is a colon. -/
theorem Pair.colon_not_mem (h : Pair cs b) : ':' ∉ cs := by
  obtain ⟨hm, hn⟩ := h
  have ne_colon {c : Char} {n : Nat} (hc : StandsFor c n) : ':' ≠ c :=
    hc.of_rows (fun c _ => ':' ≠ c) (by decide) (by decide)
  simp [ne_colon hm, ne_colon hn]

theorem pair_hexOctet (k : DigitCase) (b : UInt8) : Pair (hexOctet k b) b :=
  octet?_eq_some_iff.mp (octet?_hexOctet k b)

/-- A digit in capitals is the capital digit of its value. -/
theorem StandsFor.toUpper_eq (h : StandsFor c n) : c.toUpper = hexDigit .upper n :=
  h.of_rows (fun c n => c.toUpper = hexDigit .upper n) (by decide) (by decide)

/-- A pair in capitals is the capital spelling of its octet. -/
theorem Pair.map_toUpper (h : Pair cs b) : cs.map Char.toUpper = hexOctet .upper b := by
  obtain ⟨hm, hn⟩ := h
  have hm' := hm.lt
  have hn' := hn.lt
  rename_i h l m n
  have whole : (UInt8.ofNat (16 * m + n)).toNat = 16 * m + n := by
    rw [UInt8.toNat_ofNat_of_lt']
    show 16 * m + n < 256
    omega
  have high : (16 * m + n) / 16 = m := by omega
  have low : (16 * m + n) % 16 = n := by omega
  simp only [hexOctet, whole, high, low, List.map_cons, List.map_nil, hm.toUpper_eq,
    hn.toUpper_eq]

end Text

namespace MacAddress

open Text

variable {text : String} {a : MacAddress} {groups : List (List Char)} {octets : List UInt8}

/-! ## Groups of an address -/

/-- A text is six pairs of digits with colons between them, one pair for each octet of an
address. -/
def Spelled (text : String) (a : MacAddress) : Prop :=
  ∃ groups : List (List Char), groups.length = 6 ∧ List.Forall₂ Pair groups a.octets ∧
    text.toList = [':'].intercalate groups

theorem mapM_octet?_eq_some_iff :
    groups.mapM octet? = some octets ↔ List.Forall₂ Pair groups octets := by
  induction groups generalizing octets with
  | nil => simp [eq_comm]
  | cons g groups ih =>
    rw [List.forall₂_cons_left_iff, List.mapM_cons]
    simp only [Option.bind_eq_bind, Option.bind_eq_some_iff, Option.pure_def,
      Option.some.injEq, octet?_eq_some_iff, ih]
    constructor
    · rintro ⟨b, hb, bs, hbs, rfl⟩
      exact ⟨b, bs, hb, hbs, rfl⟩
    · rintro ⟨b, bs, hb, hbs, rfl⟩
      exact ⟨b, hb, bs, hbs, rfl⟩

/-- Groups of digits can be joined by colons and come apart again. -/
theorem pieces_groups (hl : groups.length = 6) (h : List.Forall₂ Pair groups octets) :
    pieces ':' ([':'].intercalate groups) = groups := by
  have no_colon : ∀ g ∈ groups, ':' ∉ g :=
    ((List.forall₂_and_left _ _).mp (h.imp fun g b hb => ⟨hb.colon_not_mem, hb⟩)).1
  apply pieces_intercalate ?_ no_colon
  rintro rfl
  simp at hl

theorem ofText?_eq_some_iff : ofText? text = some a ↔ Spelled text a := by
  unfold ofText?
  rw [Option.bind_eq_some_iff]
  constructor
  · rintro ⟨octets, hm, ha⟩
    obtain rfl := ofOctets?_eq_some_iff.mp ha
    have hp := mapM_octet?_eq_some_iff.mp hm
    exact ⟨_, hp.length_eq.trans a.length_octets, hp, (intercalate_pieces ':' _).symm⟩
  · rintro ⟨groups, hl, hp, ht⟩
    refine ⟨a.octets, ?_, ofOctets?_eq_some_iff.mpr rfl⟩
    rw [ht, pieces_groups hl hp]
    exact mapM_octet?_eq_some_iff.mpr hp

theorem parse_eq_ok_iff : parse text = .ok a ↔ Spelled text a := by
  rw [← ofText?_eq_some_iff, parse]
  split
  · next b hb => simp [hb]
  · next hn => simp [hn]

/-- What is no address is refused and named. -/
theorem parse_of_not_spelled (h : ∀ a, ¬ Spelled text a) :
    parse text = .error (.invalidMac text) := by
  cases ha : ofText? text with
  | some a => exact absurd (ofText?_eq_some_iff.mp ha) (h a)
  | none => simp [parse, ha]

/-! ## Written forms -/

theorem toList_toText (a : MacAddress) :
    a.toText.toList = [':'].intercalate (a.octets.map (hexOctet .upper)) := by
  simp [toText, spell]

/-- The written form is a spelling. -/
theorem spelled_toText (a : MacAddress) : Spelled a.toText a := by
  refine ⟨a.octets.map (hexOctet .upper), ?_, ?_, toList_toText a⟩
  · rw [List.length_map, a.length_octets]
  · rw [List.forall₂_map_left_iff, List.forall₂_same]
    intro b _
    exact pair_hexOctet .upper b

theorem map_intercalate (f : Char → Char) (sep : List Char) (groups : List (List Char)) :
    (sep.intercalate groups).map f = (sep.map f).intercalate (groups.map (List.map f)) := by
  induction groups with
  | nil => rfl
  | cons g groups ih =>
    cases groups with
    | nil => simp
    | cons g' groups =>
      rw [List.intercalate_cons_cons, List.map_append, List.map_append, ih]
      simp

/-- Groups in capitals are the capital spellings of their octets. -/
theorem map_map_toUpper (h : List.Forall₂ Pair groups octets) :
    groups.map (List.map Char.toUpper) = octets.map (hexOctet .upper) := by
  induction h with
  | nil => rfl
  | cons hb _ ih => rw [List.map_cons, List.map_cons, hb.map_toUpper, ih]

/-- A spelling in capitals is the written form. -/
theorem Spelled.toText_eq (h : Spelled text a) : a.toText = text.toUpper := by
  obtain ⟨groups, -, hp, ht⟩ := h
  apply String.toList_inj.mp
  rw [toList_toText, String.toUpper, String.toList_map, ht, map_intercalate, map_map_toUpper hp]
  rfl

/-- **An address is read from exactly the texts that spell it.**  Other texts are refused
under their own name; the written form reads back; and what was read is written as the text
in capitals. -/
theorem read_spelled :
    (∀ text a, parse text = .ok a ↔ Spelled text a) ∧
      (∀ text, (∀ a, ¬ Spelled text a) → parse text = .error (.invalidMac text)) ∧
      (∀ a, parse a.toText = .ok a) ∧
      ∀ text a, parse text = .ok a → a.toText = text.toUpper := by
  refine ⟨fun _ _ => parse_eq_ok_iff, fun _ => parse_of_not_spelled, ?_, ?_⟩
  · intro a
    exact parse_eq_ok_iff.mpr (spelled_toText a)
  · intro text a h
    exact (parse_eq_ok_iff.mp h).toText_eq

end MacAddress
end SoftNic
