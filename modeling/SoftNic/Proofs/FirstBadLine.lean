import SoftNic.Proofs.Denotation

/-! # The first bad line

The lines of a document are read one after the other, and a line that fails ends the reading.
So a failure is about one line: the lines in front of it are read, and those behind it are
not even looked at.  The number that a refusal carries is the number of the line that is
being read (`ConfigError.Names`): every reader passes it on, and the draft, which knows no
numbers, never refuses by one.

A line of a text is found in the text again behind as many line feeds as there are lines in
front of it (`exists_front`), whatever those lines say and however they end.
**`read_fails_at_line`: the failure of a document is that of its first bad line.**
-/
namespace SoftNic

/-- If the refusal names a line at all, it is this one. -/
def ConfigError.Names (n : Nat) (e : ConfigError) : Prop :=
  ∀ line why, e = .malformed line why → line = n

theorem ConfigError.Names.malformed (n : Nat) (why : Malformation) :
    (ConfigError.malformed n why).Names n := by
  rintro line why' h
  cases h
  rfl

namespace Document

open Text

variable {n i : Nat} {cs text raw : List Char} {e : ConfigError}

/-! ## What the readers refuse -/

section Readers

theorem readQuoted_names (h : readQuoted n text = .error e) :
    e.Names n := by
  unfold readQuoted at h
  dsimp only at h
  split at h
  · cases h
    nofun
  · cases h
    exact .malformed n _
  · split at h
    · cases h
    · cases h
      exact .malformed n _

theorem readKey_names (h : readKey n text = .error e) : e.Names n := by
  unfold readKey at h
  split at h
  · exact readQuoted_names h
  · split at h
    · cases h
      exact .malformed n _
    · split at h
      · cases h
      · cases h
        exact .malformed n _

theorem readKeys_names {texts : List (List Char)} (h : readKeys n texts = .error e) :
    e.Names n := by
  induction texts with
  | nil => cases h
  | cons text texts ih =>
    rw [readKeys] at h
    split at h
    · next hk =>
      cases h
      exact readKey_names hk
    · split at h
      · next hks =>
        cases h
        exact ih hks
      · cases h

theorem refuse_eq_refused_iff {α : Type} {x : Except ConfigError α} :
    refuse x = .error (.refused e) ↔ x = .error e := by
  cases x <;> simp [refuse]

/-- A number is refused by its text. -/
theorem readInteger_names (h : readInteger cs = .error (.refused e)) : e.Names n := by
  rw [readInteger_eq] at h
  unfold applySign at h
  split at h
  · cases h
    nofun
  · split at h
    · cases h
      nofun
    · split at h
      · cases h
      · split at h <;> cases h

theorem readValue_names (h : readValue n text = .error (.refused e)) : e.Names n := by
  unfold readValue at h
  split at h
  · cases h
    exact .malformed n _
  split at h
  · cases h
  split at h
  · cases h
  split at h
  · exact readQuoted_names (refuse_eq_refused_iff.mp (map_eq_error_iff.mp h))
  split at h
  · exact readInteger_names (map_eq_error_iff.mp h)
  · cases h
    exact .malformed n _

/-- **A line that is refused by number is refused by its own.** -/
theorem ofLine_names (h : Statement.ofLine n raw = .error (.refused e)) : e.Names n := by
  unfold Statement.ofLine readStatement at h
  split at h
  · cases h
  · split at h
    · exact readKeys_names (refuse_eq_refused_iff.mp (map_eq_error_iff.mp h))
    · cases h
      exact .malformed n _
  · split at h
    · cases h
      exact .malformed n _
    · split at h
      · next hk =>
        cases h
        exact readKey_names hk
      · exact readValue_names (map_eq_error_iff.mp h)

end Readers

/-! ## What the draft refuses -/

theorem apply_names {d : Draft} {s : Statement} (h : d.apply s = .error e) : e.Names n := by
  cases s with
  | blank => cases h
  | header path =>
    rcases updateAt_error (map_eq_error_iff.mp h) with ⟨rfl, -⟩ | ⟨hf, -⟩
    · nofun
    · cases hf
  | assignment key v =>
    rcases updateAt_error (map_eq_error_iff.mp h) with ⟨rfl, -⟩ | ⟨hf, -⟩
    · nofun
    · split at hf
      · cases hf
        nofun
      · cases hf

/-! ## Lines -/

variable {d d' : Draft} {raws pre post : List (List Char)} {f : ConfigFailure}

theorem readLines_append (n : Nat) (d : Draft) (pre post : List (List Char)) :
    readLines n d (pre ++ post) =
      (readLines n d pre).bind fun d' => readLines (n + pre.length) d' post := by
  induction pre generalizing n d with
  | nil => rfl
  | cons raw pre ih =>
    rw [List.cons_append, readLines, readLines]
    split
    · rfl
    · split
      · rfl
      · rw [ih, List.length_cons, Nat.add_assoc, Nat.add_comm 1]

/-- Behind lines that are read, reading goes on from where they lead. -/
theorem readLines_behind (h : readLines n d pre = .ok d') (post : List (List Char)) :
    readLines n d (pre ++ post) = readLines (n + pre.length) d' post := by
  rw [readLines_append, h]
  rfl

/-- No line behind a failure is looked at. -/
theorem readLines_masked (h : readLines n d pre = .error f) (post : List (List Char)) :
    readLines n d (pre ++ post) = .error f := by
  rw [readLines_append, h]
  rfl

theorem readLine_names (h : readLines n d [raw] = .error (.refused e)) : e.Names n := by
  rw [readLines] at h
  split at h
  · next hl =>
    cases h
    exact ofLine_names hl
  · split at h
    · next ha =>
      cases h
      exact apply_names ha
    · cases h

/-- **Lines that fail do so at one of them**: those in front of it are read, and it fails in
the draft that they lead to. -/
theorem exists_bad_line (h : readLines n d raws = .error f) :
    ∃ pre raw post d', raws = pre ++ raw :: post ∧ readLines n d pre = .ok d' ∧
      readLines (n + pre.length) d' [raw] = .error f := by
  induction raws generalizing n d with
  | nil => cases h
  | cons raw raws ih =>
    cases hraw : readLines n d [raw] with
    | error f' =>
      have hf := readLines_masked hraw raws
      rw [List.singleton_append, h] at hf
      cases hf
      exact ⟨[], raw, raws, d, rfl, rfl, hraw⟩
    | ok d₁ =>
      have hrest := readLines_behind hraw raws
      rw [List.singleton_append, h] at hrest
      obtain ⟨pre, bad, post, d', rfl, hpre, hbad⟩ := ih hrest.symm
      refine ⟨raw :: pre, bad, post, d', rfl, ?_, ?_⟩
      · have hfront := readLines_behind hraw pre
        rw [List.singleton_append] at hfront
        exact hfront.trans hpre
      · rw [List.length_cons, Nat.add_comm pre.length, ← Nat.add_assoc]
        exact hbad

/-! ## Texts -/

/-- A text of whole lines, as many as it has line feeds. -/
structure WholeLines (front : List Char) (i : Nat) : Prop where
  feeds : front.count '\n' = i
  ended : front = [] ∨ front.getLast? = some '\n'

theorem WholeLines.nil : WholeLines [] 0 := ⟨rfl, Or.inl rfl⟩

theorem WholeLines.cons_feed {front : List Char} (h : WholeLines front i) :
    WholeLines ('\n' :: front) (i + 1) := by
  refine ⟨by rw [List.count_cons_self, h.feeds], Or.inr ?_⟩
  rcases h.ended with rfl | hlast
  · rfl
  · rw [List.getLast?_cons, hlast]
    rfl

theorem WholeLines.cons {front : List Char} {c : Char} (h : WholeLines front (i + 1))
    (hc : c ≠ '\n') : WholeLines (c :: front) (i + 1) := by
  refine ⟨by rw [List.count_cons_of_ne hc, h.feeds], Or.inr ?_⟩
  rcases h.ended with rfl | hlast
  · cases h.feeds
  · rw [List.getLast?_cons, hlast]
    rfl

/-- **Line `i` of a text, counted from zero, begins behind its first `i` line feeds.**  The
lines are counted whatever they say, and whether or not a carriage return belongs to their
ends. -/
theorem exists_front (h : i < (lines cs).length) : ∃ front back, cs = front ++ back ∧
    WholeLines front i ∧ lines front = (lines cs).take i ∧ lines back = (lines cs).drop i := by
  cases i with
  | zero => exact ⟨[], cs, rfl, .nil, rfl, rfl⟩
  | succ i =>
    fun_induction lines cs generalizing i with
    | case1 => cases h
    | case2 cs ih =>
      cases i with
      | zero => exact ⟨['\n'], cs, rfl, WholeLines.nil.cons_feed, rfl, rfl⟩
      | succ i =>
        obtain ⟨front, back, rfl, hw, hf, hb⟩ := ih i (Nat.lt_of_succ_lt_succ h)
        exact ⟨'\n' :: front, back, rfl, hw.cons_feed, congrArg _ hf, hb⟩
    | case3 cs ih =>
      have hr : ∀ {front j}, WholeLines front j → WholeLines ('\r' :: '\n' :: front) (j + 1) :=
        fun hw => hw.cons_feed.cons (by decide)
      cases i with
      | zero => exact ⟨['\r', '\n'], cs, rfl, hr .nil, rfl, rfl⟩
      | succ i =>
        obtain ⟨front, back, rfl, hw, hf, hb⟩ := ih i (Nat.lt_of_succ_lt_succ h)
        exact ⟨'\r' :: '\n' :: front, back, rfl, hr hw, congrArg _ hf, hb⟩
    | case4 c cs hn hr hl ih => exact absurd h (by simp)
    | case5 c cs hn hr l ls hl ih =>
      rw [hl] at ih
      obtain ⟨front, back, rfl, hw, hf, hb⟩ := ih i h
      rw [List.take_succ_cons] at hf
      refine ⟨c :: front, back, rfl, hw.cons hn, ?_, hb⟩
      refine lines_cons hn (fun hc hd => ?_) hf
      obtain ⟨rest, rfl⟩ := List.head?_eq_some_iff.mp hd
      exact hr _ hc rfl

/-- **A document that fails does so at its first bad line.**  There is a line, the `k`-th of
the text counted from one, in front of which the lines alone are read, and every text with
the same first `k` lines fails in the same way whatever follows.  If it is refused by the
number of a line, that number is `k`.  In the text the line stands behind `k - 1` line
feeds: lines that are blank or a comment count, and so do those that end in a carriage
return and a line feed. -/
theorem read_fails_at_line {text : String} (h : read text = .error f) :
    ∃ k, 0 < k ∧ k ≤ (lines text.toList).length ∧
      (∃ front back : String, text = front ++ back ∧ WholeLines front.toList (k - 1) ∧
        lines front.toList = (lines text.toList).take (k - 1) ∧
        lines back.toList = (lines text.toList).drop (k - 1)) ∧
      (∀ front : String, lines front.toList = (lines text.toList).take (k - 1) →
        ∃ t, read front = .ok t) ∧
      (∀ other : String, (lines other.toList).take k = (lines text.toList).take k →
        read other = .error f) ∧
      ∀ line why, f = .refused (.malformed line why) → line = k := by
  obtain ⟨pre, raw, post, d, hl, hpre, hraw⟩ := exists_bad_line (map_eq_error_iff.mp h)
  have htake : (lines text.toList).take pre.length = pre := by
    rw [hl, List.take_left]
  have hbad : readLines 1 {} (pre ++ [raw]) = .error f := (readLines_behind hpre [raw]).trans hraw
  refine ⟨pre.length + 1, Nat.succ_pos _, ?_, ?_, ?_, ?_, ?_⟩
  · rw [hl, List.length_append, List.length_cons]
    omega
  · have hlt : pre.length < (lines text.toList).length := by simp [hl]
    obtain ⟨front, back, ht, hw, hf, hb⟩ := exists_front hlt
    refine ⟨String.ofList front, String.ofList back, ?_, ?_, ?_, ?_⟩
    · rw [← String.ofList_append, ← ht, String.ofList_toList]
    · rwa [String.toList_ofList]
    · rwa [String.toList_ofList]
    · rwa [String.toList_ofList]
  · intro front hfront
    rw [Nat.add_sub_cancel, htake] at hfront
    exact ⟨_, map_eq_ok_iff.mpr ⟨d, hfront ▸ hpre, rfl⟩⟩
  · intro other hother
    have hfirst : (lines text.toList).take (pre.length + 1) = pre ++ [raw] := by
      rw [hl, List.take_length_add_append]
      rfl
    rw [hfirst] at hother
    rw [read, map_eq_error_iff, ← List.take_append_drop (pre.length + 1) (lines other.toList),
      hother]
    exact readLines_masked hbad _
  · rintro line why rfl
    rw [Nat.add_comm]
    exact readLine_names hraw line why rfl

/-- The fourth line of a text is bad, behind a comment, an empty line and an assignment, of
which the first two end in a carriage return; so is its last line, which is never seen. -/
theorem read_fails_at_fourth_line :
    read "# a\r\n\r\nb = 1\njust text\n]" = .error (.refused (.malformed 4 .noAssignment)) ∧
    read "# a\n\nb = 1\r\njust text" = .error (.refused (.malformed 4 .noAssignment)) := by
  have h : read "# a\r\n\r\nb = 1\njust text\n]" =
      .error (.refused (.malformed 4 .noAssignment)) := rfl
  obtain ⟨k, -, -, -, -, hsame, hline⟩ := read_fails_at_line h
  obtain rfl := hline 4 .noAssignment rfl
  exact ⟨h, hsame "# a\n\nb = 1\r\njust text" (by decide)⟩

end Document
end SoftNic
