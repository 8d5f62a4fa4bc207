import Mathlib.Logic.ExistsUnique
import SoftNic.Proofs.TreeShape
import SoftNic.Settings

/-! # Which trees give settings

Settings are read from a table entry by entry, in the order of the keys, and the limits are
checked behind the last entry.  What comes out is said here without the loop.  An entry of a
known name holds a value of its setting or it is a misfit (`Key.Holds`, `Key.Misfit`),
whatever the other entries are; settings are taken from a table if they have the value of
every entry that is there and keep the standard for every one that is not
(`Settings.Taken`); and the limits are kept (`Settings.WithinLimits`) or a first one is broken
(`Settings.FirstBroken`).

Since the names of the entries ascend, no later entry is about the same setting again, so
every entry is found in the settings that come out (`Settings.absorb_eq_ok_iff`), and the
entry that ends the reading is the misfit of the least name (`Settings.absorb_eq_error_iff`).
**`Settings.ofTree_accepts_exactly`: what every tree gives.**
-/
namespace SoftNic
namespace Settings

open SoftNic.Tree

/-! ## Single settings -/

namespace Key

/-- What a setting is set to. -/
def Value : Key → Type
  | name => InterfaceName
  | address => MacAddress
  | _ => Nat

/-- An entry holds a value of its setting. -/
def Holds : (key : Key) → Tree → key.Value → Prop
  | name, t, x => t = .scalar (.text (InterfaceName.text x))
  | address, t, a => ∃ text, t = .scalar (.text text) ∧ MacAddress.parse text = .ok a
  | txRing, t, n => t = .scalar (.integer (Int.ofNat n))
  | rxRing, t, n => t = .scalar (.integer (Int.ofNat n))
  | weight, t, n => t = .scalar (.integer (Int.ofNat n))

/-- An entry has the type and the form of its setting: a name is a text of at most sixteen
bytes, an address a text that can be read as one, and the others are integers that are not
negative. -/
def Fits (key : Key) (t : Tree) : Prop :=
  match key with
  | name => ∃ text, t = .scalar (.text text) ∧ text.utf8ByteSize ≤ 16
  | address => ∃ text a, t = .scalar (.text text) ∧ MacAddress.parse text = .ok a
  | _ => ∃ n : Nat, t = .scalar (.integer n)

/-- An entry does not fit, and this is how it is refused. -/
inductive Misfit : Key → Tree → ConfigError → Prop
  | notText {key : Key} {t : Tree} (hk : key = .name ∨ key = .address)
    (h : ∀ text, t ≠ .scalar (.text text)) : Misfit key t (.invalidValue (.notText key.text))
  | tooLong {text : String} (h : 16 < text.utf8ByteSize) :
    Misfit .name (.scalar (.text text)) (.invalidValue (.tooLong "name" text))
  | notAddress {text : String} (h : MacAddress.ofText? text = none) :
    Misfit .address (.scalar (.text text)) (.invalidMac text)
  | notSize {key : Key} {t : Tree} (hk : key ≠ .name ∧ key ≠ .address)
    (h : ∀ n : Nat, t ≠ .scalar (.integer n)) : Misfit key t (.invalidValue (.notSize key.text))

/-- Read the value that an entry holds. -/
def read : (key : Key) → Tree → Except ConfigError key.Value
  | name => nameOf .name
  | address => addressOf .address
  | txRing => sizeOf .txRing
  | rxRing => sizeOf .rxRing
  | weight => sizeOf .weight

variable {key : Key} {t : Tree} {e : ConfigError} {x : key.Value} {s : String}

/-! ### Names of settings -/

theorem ofText?_text (key : Key) : ofText? key.text = some key := by
  cases key <;> decide

theorem ofText?_eq_some_iff : ofText? s = some key ↔ s = key.text := by
  constructor
  · intro h
    rw [ofText?] at h
    have hk := List.find?_some h
    exact (beq_iff_eq.mp hk).symm
  · rintro rfl
    exact ofText?_text key

theorem ne_text_of_ofText? (h : ofText? s = none) (key : Key) : s ≠ key.text := by
  rintro rfl
  rw [ofText?_text] at h
  cases h

theorem text_injective {key other : Key} (h : key.text = other.text) : key = other :=
  Option.some.inj ((ofText?_text key).symm.trans (h ▸ ofText?_text other))

/-! ### Values -/

/-- Every entry holds a value or is a misfit. -/
theorem holds_or_misfit (key : Key) (t : Tree) : (∃ x, key.Holds t x) ∨ ∃ e, key.Misfit t e := by
  cases key with
  | name =>
    by_cases ht : ∃ text, t = .scalar (.text text)
    · obtain ⟨text, rfl⟩ := ht
      by_cases hl : text.utf8ByteSize ≤ 16
      · exact Or.inl ⟨⟨text, hl⟩, rfl⟩
      · exact Or.inr ⟨_, .tooLong (Nat.lt_of_not_le hl)⟩
    · exact Or.inr ⟨_, .notText (Or.inl rfl) fun text h => ht ⟨text, h⟩⟩
  | address =>
    by_cases ht : ∃ text, t = .scalar (.text text)
    · obtain ⟨text, rfl⟩ := ht
      cases ha : MacAddress.ofText? text with
      | some a => exact Or.inl ⟨a, text, rfl, by rw [MacAddress.parse, ha]⟩
      | none => exact Or.inr ⟨_, .notAddress ha⟩
    · exact Or.inr ⟨_, .notText (Or.inr rfl) fun text h => ht ⟨text, h⟩⟩
  | txRing | rxRing | weight =>
    by_cases ht : ∃ n : Nat, t = .scalar (.integer n)
    · obtain ⟨n, rfl⟩ := ht
      exact Or.inl ⟨n, rfl⟩
    · exact Or.inr ⟨_, .notSize (by decide) fun n h => ht ⟨n, h⟩⟩

theorem Holds.read_eq (h : key.Holds t x) : key.read t = .ok x := by
  cases key with
  | name =>
    obtain ⟨text, hl⟩ := x
    cases h
    simp only [read, nameOf, textOf, InterfaceName.ofText?, dif_pos hl]
    rfl
  | address =>
    obtain ⟨text, rfl, ha⟩ := h
    exact ha
  | txRing | rxRing | weight =>
    cases h
    rfl

theorem textOf_eq_error (h : ∀ text, t ≠ .scalar (.text text)) :
    textOf key t = .error (.invalidValue (.notText key.text)) := by
  unfold textOf
  split
  · exact absurd rfl (h _)
  · rfl

theorem sizeOf_eq_error (h : ∀ n : Nat, t ≠ .scalar (.integer n)) :
    sizeOf key t = .error (.invalidValue (.notSize key.text)) := by
  unfold sizeOf
  split
  · exact absurd rfl (h _)
  · rfl

theorem Misfit.read_eq (h : key.Misfit t e) : key.read t = .error e := by
  cases h with
  | notText hk h =>
    rcases hk with rfl | rfl
    · simp only [read, nameOf, textOf_eq_error h]
      rfl
    · simp only [read, addressOf, textOf_eq_error h]
      rfl
  | tooLong h =>
    simp only [read, nameOf, textOf, InterfaceName.ofText?, dif_neg (Nat.not_le.mpr h)]
    rfl
  | notAddress h =>
    simp only [read, addressOf, textOf, MacAddress.parse, h]
    rfl
  | notSize hk h =>
    cases key with
    | name => exact absurd rfl hk.1
    | address => exact absurd rfl hk.2
    | txRing | rxRing | weight => exact sizeOf_eq_error h

/-- An entry that fits holds a value. -/
theorem fits_iff : key.Fits t ↔ ∃ x, key.Holds t x := by
  cases key with
  | name =>
    constructor
    · rintro ⟨text, rfl, hl⟩
      exact ⟨⟨text, hl⟩, rfl⟩
    · rintro ⟨x, hx⟩
      exact ⟨_, hx, InterfaceName.utf8ByteSize_le x⟩
  | address =>
    constructor
    · rintro ⟨text, a, rfl, ha⟩
      exact ⟨a, text, rfl, ha⟩
    · rintro ⟨a, text, rfl, ha⟩
      exact ⟨text, a, rfl, ha⟩
  | txRing | rxRing | weight => exact Iff.rfl

theorem Misfit.not_fits (h : key.Misfit t e) : ¬ key.Fits t := by
  intro hf
  obtain ⟨x, hx⟩ := fits_iff.mp hf
  cases h.read_eq.symm.trans hx.read_eq

end Key

/-! ## Reading entries -/

variable {s base : Settings} {key other : Key} {t : Tree} {es rest : Entries} {e : ConfigError}
  {name : String}

/-- What is set at one point. -/
def get (s : Settings) : (key : Key) → key.Value
  | .name => s.name
  | .address => s.address
  | .txRing => s.txRing
  | .rxRing => s.rxRing
  | .weight => s.weight

/-- Set one point. -/
def set (s : Settings) : (key : Key) → key.Value → Settings
  | .name, x => { s with name := x }
  | .address, x => { s with address := x }
  | .txRing, x => { s with txRing := x }
  | .rxRing, x => { s with rxRing := x }
  | .weight, x => { s with weight := x }

@[simp] theorem get_set_self (s : Settings) (key : Key) (x : key.Value) :
    (s.set key x).get key = x := by
  cases key <;> rfl

theorem get_set_of_ne (s : Settings) (h : other ≠ key) (x : key.Value) :
    (s.set key x).get other = s.get other := by
  cases key <;> cases other <;> first | rfl | exact absurd rfl h

/-- Settings are what they are at every point. -/
theorem ext_get {u : Settings} (h : ∀ key, s.get key = u.get key) : s = u := by
  obtain ⟨name, address, txRing, rxRing, weight⟩ := s
  obtain ⟨name', address', txRing', rxRing', weight'⟩ := u
  obtain rfl : name = name' := h .name
  obtain rfl : address = address' := h .address
  obtain rfl : txRing = txRing' := h .txRing
  obtain rfl : rxRing = rxRing' := h .rxRing
  obtain rfl : weight = weight' := h .weight
  rfl

/-- An entry sets its own point. -/
theorem update_eq (s : Settings) (key : Key) (t : Tree) :
    s.update key t = (key.read t).map (s.set key) := by
  cases key <;> rfl

theorem get?_cons_self (name : String) (t : Tree) (rest : Entries) :
    get? name ((name, t) :: rest) = some t :=
  if_pos rfl

theorem get?_cons_of_ne (h : other ≠ key) (t : Tree) (rest : Entries) :
    get? other.text ((key.text, t) :: rest) = get? other.text rest :=
  if_neg fun he => h (Key.text_injective he).symm

theorem get?_cons_unknown (h : Key.ofText? name = none) (t : Tree) (rest : Entries) (key : Key) :
    get? key.text ((name, t) :: rest) = get? key.text rest :=
  if_neg (Key.ne_text_of_ofText? h key)

/-- What is there is not what is missing. -/
theorem ne_of_get? (hu : get? other.text es = some t) (hn : get? key.text es = none) :
    other ≠ key := by
  rintro rfl
  rw [hn] at hu
  cases hu

theorem absorb_cons_unknown (h : Key.ofText? name = none) (s : Settings) (t : Tree)
    (rest : Entries) : (absorb s ((name, t) :: rest)).2 = (absorb s rest).2 := by
  rw [absorb, h]

theorem absorb_cons_of_holds {x : key.Value} (h : key.Holds t x) (s : Settings) (rest : Entries) :
    (absorb s ((key.text, t) :: rest)).2 = (absorb (s.set key x) rest).2 := by
  rw [absorb, Key.ofText?_text]
  simp only [update_eq, h.read_eq]
  rfl

theorem absorb_cons_of_misfit (h : key.Misfit t e) (s : Settings) (rest : Entries) :
    (absorb s ((key.text, t) :: rest)).2 = .error e := by
  rw [absorb, Key.ofText?_text]
  simp only [update_eq, h.read_eq]
  rfl

/-! ### What is taken from entries -/

/-- Settings have the value of every entry that is there, and are as before where there is
none. -/
structure Taken (base : Settings) (es : Entries) (s : Settings) : Prop where
  present : ∀ (key : Key) (t : Tree), get? key.text es = some t → key.Holds t (s.get key)
  absent : ∀ key : Key, get? key.text es = none → s.get key = base.get key

theorem taken_nil_iff : Taken base [] s ↔ s = base :=
  ⟨fun h => ext_get fun key => h.absent key rfl, fun h => h ▸ ⟨nofun, fun _ _ => rfl⟩⟩

theorem taken_cons_unknown_iff (h : Key.ofText? name = none) :
    Taken base ((name, t) :: rest) s ↔ Taken base rest s := by
  have hget := get?_cons_unknown h t rest
  constructor
  · intro ht
    exact ⟨fun key u hu => ht.present key u ((hget key).trans hu),
      fun key hn => ht.absent key ((hget key).trans hn)⟩
  · intro ht
    exact ⟨fun key u hu => ht.present key u ((hget key).symm.trans hu),
      fun key hn => ht.absent key ((hget key).symm.trans hn)⟩

/-- The value of an entry stays what it is if no other entry has the name. -/
theorem taken_cons_iff (hn : get? key.text rest = none) :
    Taken base ((key.text, t) :: rest) s ↔
      ∃ x, key.Holds t x ∧ Taken (base.set key x) rest s := by
  constructor
  · intro h
    refine ⟨s.get key, h.present key t (get?_cons_self _ _ _), fun other u hu => ?_,
      fun other hu => ?_⟩
    · exact h.present other u ((get?_cons_of_ne (ne_of_get? hu hn) t rest).trans hu)
    · by_cases ho : other = key
      · subst ho
        rw [get_set_self]
      · rw [get_set_of_ne _ ho]
        exact h.absent other ((get?_cons_of_ne ho t rest).trans hu)
  · rintro ⟨x, hx, h⟩
    refine ⟨fun other u hu => ?_, fun other hu => ?_⟩
    · by_cases ho : other = key
      · subst ho
        rw [get?_cons_self] at hu
        cases hu
        rw [h.absent other hn, get_set_self]
        exact hx
      · exact h.present other u ((get?_cons_of_ne ho t rest).symm.trans hu)
    · have ho : other ≠ key := (ne_of_get? (get?_cons_self key.text t rest) hu).symm
      rw [h.absent other ((get?_cons_of_ne ho t rest).symm.trans hu), get_set_of_ne _ ho]

/-- **Reading entries gives the settings that are taken from them.** -/
theorem absorb_eq_ok_iff (ha : Ascending es) : (absorb base es).2 = .ok s ↔ Taken base es s := by
  induction es generalizing base with
  | nil => rw [taken_nil_iff, absorb, Except.ok.injEq, eq_comm]
  | cons entry rest ih =>
    obtain ⟨name, t⟩ := entry
    have hrest : Ascending rest := (List.pairwise_cons.mp ha).2
    cases hk : Key.ofText? name with
    | none => rw [absorb_cons_unknown hk, taken_cons_unknown_iff hk, ih hrest]
    | some key =>
      obtain rfl := Key.ofText?_eq_some_iff.mp hk
      rw [taken_cons_iff ha.get?_tail]
      rcases key.holds_or_misfit t with ⟨x, hx⟩ | ⟨e, he⟩
      · rw [absorb_cons_of_holds hx, ih hrest]
        constructor
        · exact fun h => ⟨x, hx, h⟩
        · rintro ⟨y, hy, h⟩
          rw [Except.ok.inj (hx.read_eq.symm.trans hy.read_eq)]
          exact h
      · rw [absorb_cons_of_misfit he]
        refine ⟨nofun, ?_⟩
        rintro ⟨y, hy, -⟩
        cases he.read_eq.symm.trans hy.read_eq

/-! ### The first misfit -/

/-- The entry of the least name among those that do not fit is refused so. -/
def FirstMisfit (es : Entries) (e : ConfigError) : Prop :=
  ∃ (key : Key) (t : Tree), get? key.text es = some t ∧ key.Misfit t e ∧
    ∀ (other : Key) (u : Tree), other.text < key.text → get? other.text es = some u → other.Fits u

theorem firstMisfit_cons_unknown_iff (h : Key.ofText? name = none) :
    FirstMisfit ((name, t) :: rest) e ↔ FirstMisfit rest e := by
  simp only [FirstMisfit, get?_cons_unknown h]

/-- An entry whose name is below all others is the first that can be a misfit. -/
theorem firstMisfit_cons_iff (ha : Ascending ((key.text, t) :: rest)) :
    FirstMisfit ((key.text, t) :: rest) e ↔
      key.Misfit t e ∨ key.Fits t ∧ FirstMisfit rest e := by
  have hlt : ∀ {other : Key} {u}, get? other.text rest = some u → key.text < other.text :=
    fun hu => (List.pairwise_cons.mp ha).1 _ (get?_mem hu)
  constructor
  · rintro ⟨k, u, hu, hm, hfirst⟩
    by_cases hk : k = key
    · subst hk
      rw [get?_cons_self] at hu
      cases hu
      exact Or.inl hm
    · rw [get?_cons_of_ne hk] at hu
      refine Or.inr ⟨hfirst key t (hlt hu) (get?_cons_self _ _ _), k, u, hu, hm, ?_⟩
      intro other v ho hv
      have hne : other ≠ key := ne_of_get? hv ha.get?_tail
      exact hfirst other v ho ((get?_cons_of_ne hne t rest).trans hv)
  · rintro (hm | ⟨hf, k, u, hu, hm, hfirst⟩)
    · refine ⟨key, t, get?_cons_self _ _ _, hm, fun other v ho hv => ?_⟩
      have hne : other ≠ key := by
        rintro rfl
        exact String.lt_irrefl _ ho
      rw [get?_cons_of_ne hne] at hv
      exact absurd (String.lt_trans ho (hlt hv)) (String.lt_irrefl _)
    · have hk : k ≠ key := ne_of_get? hu ha.get?_tail
      refine ⟨k, u, (get?_cons_of_ne hk t rest).trans hu, hm, fun other v ho hv => ?_⟩
      by_cases hne : other = key
      · subst hne
        rw [get?_cons_self] at hv
        cases hv
        exact hf
      · exact hfirst other v ho ((get?_cons_of_ne hne t rest).symm.trans hv)

/-- **Reading ends at the first misfit**, whatever was set before. -/
theorem absorb_eq_error_iff (ha : Ascending es) (base : Settings) :
    (absorb base es).2 = .error e ↔ FirstMisfit es e := by
  induction es generalizing base with
  | nil => exact ⟨nofun, fun ⟨_, _, h, _⟩ => nomatch h⟩
  | cons entry rest ih =>
    obtain ⟨name, t⟩ := entry
    have hrest : Ascending rest := (List.pairwise_cons.mp ha).2
    cases hk : Key.ofText? name with
    | none => rw [absorb_cons_unknown hk, firstMisfit_cons_unknown_iff hk, ih hrest]
    | some key =>
      obtain rfl := Key.ofText?_eq_some_iff.mp hk
      rw [firstMisfit_cons_iff ha]
      rcases key.holds_or_misfit t with ⟨x, hx⟩ | ⟨e', he⟩
      · have hf : key.Fits t := Key.fits_iff.mpr ⟨x, hx⟩
        rw [absorb_cons_of_holds hx, ih hrest]
        exact ⟨fun h => Or.inr ⟨hf, h⟩, fun h =>
          h.elim (fun hm => absurd hf hm.not_fits) And.right⟩
      · have hf : ¬ key.Fits t := he.not_fits
        rw [absorb_cons_of_misfit he, Except.error.injEq]
        constructor
        · rintro rfl
          exact Or.inl he
        · rintro (hm | h)
          · exact Except.error.inj (he.read_eq.symm.trans hm.read_eq)
          · exact absurd h.1 hf

/-! ## Limits -/

/-- The limits of settings. -/
structure WithinLimits (s : Settings) : Prop where
  txRing : 2 ≤ s.txRing
  rxRing : 2 ≤ s.rxRing
  weight : 1 ≤ s.weight
  name : s.name.text ≠ ""

/-- The first limit that is broken, in the order in which they are checked. -/
inductive FirstBroken (s : Settings) : ConfigError → Prop
  | txRing (h : s.txRing < 2) : FirstBroken s (.invalidValue (.belowMinimum "tx_ring_size" 2))
  | rxRing (ht : 2 ≤ s.txRing) (h : s.rxRing < 2) :
    FirstBroken s (.invalidValue (.belowMinimum "rx_ring_size" 2))
  | weight (ht : 2 ≤ s.txRing) (hr : 2 ≤ s.rxRing) (h : s.weight < 1) :
    FirstBroken s (.invalidValue (.belowMinimum "napi_weight" 1))
  | name (ht : 2 ≤ s.txRing) (hr : 2 ≤ s.rxRing) (hw : 1 ≤ s.weight) (h : s.name.text = "") :
    FirstBroken s (.invalidValue (.empty "name"))

theorem WithinLimits.validate_eq (h : s.WithinLimits) : s.validate = .ok () := by
  have hw : s.weight ≠ 0 := Nat.one_le_iff_ne_zero.mp h.weight
  rw [validate, if_neg (Nat.not_lt.mpr h.txRing), if_neg (Nat.not_lt.mpr h.rxRing), if_neg hw,
    if_neg h.name]

theorem FirstBroken.validate_eq (h : FirstBroken s e) : s.validate = .error e := by
  cases h with
  | txRing h => rw [validate, if_pos h]; rfl
  | rxRing ht h => rw [validate, if_neg (Nat.not_lt.mpr ht), if_pos h]; rfl
  | weight ht hr h =>
    rw [validate, if_neg (Nat.not_lt.mpr ht), if_neg (Nat.not_lt.mpr hr),
      if_pos (Nat.lt_one_iff.mp h)]
    rfl
  | name ht hr hw h =>
    rw [validate, if_neg (Nat.not_lt.mpr ht), if_neg (Nat.not_lt.mpr hr),
      if_neg (Nat.one_le_iff_ne_zero.mp hw), if_pos h]
    rfl

/-- Either all limits are kept or one of them is the first that is broken. -/
theorem withinLimits_or_firstBroken (s : Settings) : s.WithinLimits ∨ ∃ e, FirstBroken s e := by
  by_cases ht : 2 ≤ s.txRing
  · by_cases hr : 2 ≤ s.rxRing
    · by_cases hw : 1 ≤ s.weight
      · by_cases hn : s.name.text = ""
        · exact Or.inr ⟨_, .name ht hr hw hn⟩
        · exact Or.inl ⟨ht, hr, hw, hn⟩
      · exact Or.inr ⟨_, .weight ht hr (Nat.lt_of_not_le hw)⟩
    · exact Or.inr ⟨_, .rxRing ht (Nat.lt_of_not_le hr)⟩
  · exact Or.inr ⟨_, .txRing (Nat.lt_of_not_le ht)⟩

theorem validate_eq_ok_iff : s.validate = .ok () ↔ s.WithinLimits := by
  refine ⟨fun h => ?_, WithinLimits.validate_eq⟩
  rcases s.withinLimits_or_firstBroken with hw | ⟨e, he⟩
  · exact hw
  · cases h.symm.trans he.validate_eq

theorem validate_eq_error_iff : s.validate = .error e ↔ FirstBroken s e := by
  refine ⟨fun h => ?_, FirstBroken.validate_eq⟩
  rcases s.withinLimits_or_firstBroken with hw | ⟨e', he⟩
  · cases h.symm.trans hw.validate_eq
  · cases h.symm.trans he.validate_eq
    exact he

/-! ## Trees -/

variable {root : Tree}

/-- Settings can be taken from entries if every entry that is there fits, and then they are
settled. -/
theorem exists_taken_iff (ha : Ascending es) : (∃ s, Taken base es s) ↔
    ∀ (key : Key) (t : Tree), get? key.text es = some t → key.Fits t := by
  constructor
  · rintro ⟨s, hs⟩ key t ht
    exact Key.fits_iff.mpr ⟨_, hs.present key t ht⟩
  · intro hf
    cases hr : (absorb base es).2 with
    | ok s => exact ⟨s, (absorb_eq_ok_iff ha).mp hr⟩
    | error e =>
      obtain ⟨key, t, ht, hm, -⟩ := (absorb_eq_error_iff ha base).mp hr
      exact absurd (hf key t ht) hm.not_fits

theorem Taken.unique (ha : Ascending es) {u : Settings} (hs : Taken base es s)
    (hu : Taken base es u) : s = u :=
  Except.ok.inj (((absorb_eq_ok_iff ha).mpr hs).symm.trans ((absorb_eq_ok_iff ha).mpr hu))

theorem ascending_of_child (ho : root.Ordered) (h : root.child? name = some (.table es)) :
    Ascending es := by
  cases root with
  | scalar v => cases h
  | table fs => exact (ho.child h).ascending

theorem ofTree_of_table (h : root.child? "vnic" = some (.table es)) :
    (ofTree root).2 = (absorb standard es).2.bind checked := by
  rw [ofTree, h]

theorem ofTree_eq_ok_iff (ho : root.Ordered) (h : root.child? "vnic" = some (.table es)) :
    (ofTree root).2 = .ok s ↔ Taken standard es s ∧ s.WithinLimits := by
  have ha := ascending_of_child ho h
  rw [ofTree_of_table h, ← absorb_eq_ok_iff ha]
  cases (absorb standard es).2 with
  | error e => exact ⟨nofun, fun h => nomatch h.1⟩
  | ok u =>
    show u.checked = .ok s ↔ _
    rw [checked_eq_ok_iff, validate_eq_ok_iff, Except.ok.injEq]
    constructor
    · rintro ⟨hu, rfl⟩
      exact ⟨rfl, hu⟩
    · rintro ⟨rfl, hu⟩
      exact ⟨hu, rfl⟩

theorem ofTree_eq_error_iff (ho : root.Ordered) (h : root.child? "vnic" = some (.table es)) :
    (ofTree root).2 = .error e ↔
      FirstMisfit es e ∨ ∃ s, Taken standard es s ∧ FirstBroken s e := by
  have ha := ascending_of_child ho h
  simp only [ofTree_of_table h, ← absorb_eq_ok_iff ha, ← absorb_eq_error_iff ha standard]
  cases (absorb standard es).2 with
  | error e' =>
    refine ⟨Or.inl, fun h => h.elim id ?_⟩
    rintro ⟨s, hs, -⟩
    cases hs
  | ok u =>
    show u.checked = .error e ↔ _
    rw [checked, Document.map_eq_error_iff, validate_eq_error_iff]
    constructor
    · exact fun hu => Or.inr ⟨u, rfl, hu⟩
    · rintro (hu | ⟨s, hs, hb⟩)
      · cases hu
      · cases hs
        exact hb

/-- **What every tree gives.**  Without a child `vnic` it is the standard settings, and with
one that is no table a refusal.  From a table nothing but the five entries counts.  Settings
can be taken from them if each that is there has the type and the form of its setting, and
then in one way: every entry that is there gives its value, and what is not there keeps the
standard.  Those settings are the result if they keep the limits, and there is no other.  A
refusal is that of the first entry, in the order of the names, that does not fit, or if all
fit that of the first limit that is broken: size of the transmit ring, size of the receive
ring, weight, name. -/
theorem ofTree_accepts_exactly (ho : root.Ordered) :
    (root.child? "vnic" = none → (ofTree root).2 = .ok standard) ∧
    (∀ v, root.child? "vnic" = some (.scalar v) →
      (ofTree root).2 = .error (.invalidTablePath ["vnic"])) ∧
    ∀ es, root.child? "vnic" = some (.table es) →
      (∀ other fs, Tree.Ordered other → other.child? "vnic" = some (.table fs) →
        (∀ key : Key, get? key.text fs = get? key.text es) → (ofTree other).2 = (ofTree root).2) ∧
      ((∃! s, Taken standard es s) ↔
        ∀ (key : Key) (t : Tree), get? key.text es = some t → key.Fits t) ∧
      (∀ s, (ofTree root).2 = .ok s ↔ Taken standard es s ∧ s.WithinLimits) ∧
      ∀ e, (ofTree root).2 = .error e ↔
        FirstMisfit es e ∨ ∃ s, Taken standard es s ∧ FirstBroken s e := by
  refine ⟨fun h => by rw [ofTree, h], fun v h => by rw [ofTree, h], fun es h => ⟨?_, ?_, ?_, ?_⟩⟩
  · intro other fs hother hfs hget
    have htaken : ∀ s, Taken standard fs s ↔ Taken standard es s := fun s =>
      ⟨fun hs => ⟨fun key t ht => hs.present key t ((hget key).trans ht),
          fun key hn => hs.absent key ((hget key).trans hn)⟩,
        fun hs => ⟨fun key t ht => hs.present key t ((hget key).symm.trans ht),
          fun key hn => hs.absent key ((hget key).symm.trans hn)⟩⟩
    cases hr : (ofTree root).2 with
    | ok s => rwa [ofTree_eq_ok_iff hother hfs, htaken, ← ofTree_eq_ok_iff ho h]
    | error e =>
      have hfirst : FirstMisfit fs e ↔ FirstMisfit es e := by simp only [FirstMisfit, hget]
      rw [ofTree_eq_error_iff hother hfs, hfirst]
      simp only [htaken]
      rwa [← ofTree_eq_error_iff ho h]
  · have ha := ascending_of_child ho h
    rw [← exists_taken_iff ha]
    exact ⟨ExistsUnique.exists, fun ⟨s, hs⟩ => ⟨s, hs, fun _ hu => hu.unique ha hs⟩⟩
  · exact fun s => ofTree_eq_ok_iff ho h
  · exact fun e => ofTree_eq_error_iff ho h

/-- A truth value where a size should be, behind a weight that breaks its limit. -/
theorem ofTree_accepts_exactly_notSize :
    (ofTree (table [("vnic", table [("napi_weight", .scalar (.integer 0)), ("other", table []),
      ("tx_ring_size", .scalar (.boolean true))])])).2 =
        .error (.invalidValue (.notSize "tx_ring_size")) := by
  have hvnic : Ordered (table [("napi_weight", .scalar (.integer 0)), ("other", table []),
      ("tx_ring_size", .scalar (.boolean true))]) :=
    .branch (by unfold Ascending; decide) (by simp [Ordered.leaf, ordered_empty])
  have ho : Ordered (table [("vnic", _)]) := ordered_empty.put hvnic "vnic"
  refine (((ofTree_accepts_exactly ho).2.2 _ rfl).2.2.2 _).mpr (Or.inl ?_)
  refine ⟨.txRing, _, rfl, .notSize (by decide) nofun, ?_⟩
  intro other u hlt hu
  cases other with
  | name | address | rxRing => cases hu
  | txRing => exact absurd hlt (String.lt_irrefl _)
  | weight =>
    cases hu
    exact ⟨0, rfl⟩

end Settings
end SoftNic
