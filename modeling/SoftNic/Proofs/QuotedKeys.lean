import SoftNic.Proofs.FirstBadLine
import SoftNic.Proofs.Layout

/-! # Quoted keys

A key can stand between double quotes, where every character has an escape or stands for
itself.  So any string at all could be the name of a value or of a table: it is written as a
basic string (`quoteKey`), and a line `q = v` (`quotedAssignment`) or `[q.q]`
(`quotedHeader`) says the rest.

The comment of a line is cut off by a scan that knows about quotes.  The two cuts behind it
do not: an assignment is cut at its first equals sign and a header at its dots, wherever they
stand.  A cut inside of the quotes leaves a string in front that is not closed
(`exists_cut_key`).  **`quoted_keys_read`: a quoted key without an equals sign names just the
value that is assigned, quoted keys without dots name just the table that is opened, and any
other key is refused as a string that is not terminated.**
-/
namespace SoftNic
namespace Document

open Text SoftNic.Tree

variable {c sep : Char} {cs content part : List Char} {k : String} {ks : List String}
  {v : Scalar} {n : Nat}

/-- A key between double quotes. -/
def quoteKey (k : String) : List Char :=
  (Scalar.text k).print

/-- An assignment to a quoted key. -/
def quotedAssignment (k : String) (value : List Char) : List Char :=
  quoteKey k ++ ' ' :: '=' :: ' ' :: value

/-- A header of quoted keys. -/
def quotedHeader (ks : List String) : List Char :=
  '[' :: (['.'].intercalate (ks.map quoteKey) ++ [']'])

/-! ## Separators inside of quotes -/

/-- The characters at which lines are cut. -/
def IsSeparator (c : Char) : Prop :=
  c = '=' ∨ c = '.'

theorem mem_escape_iff (hs : IsSeparator sep) : sep ∈ Scalar.escape c ↔ sep = c := by
  unfold Scalar.escape
  rcases hs with rfl | rfl <;> split <;> simp_all

/-- A separator stands in a quoted key if it does in the key. -/
theorem mem_quoteKey_iff (hs : IsSeparator sep) : sep ∈ quoteKey k ↔ sep ∈ k.toList := by
  have hq : sep ≠ '"' := by rcases hs with rfl | rfl <;> decide
  simp [quoteKey, Scalar.print, mem_escape_iff hs, hq]

/-- What stands behind the quote of a string that breaks off is not closed. -/
theorem Basic.scan_unclosed (h : Basic cs content) (hp : part <+: cs) :
    scanBasic part = .unclosed := by
  induction h generalizing part with
  | nil =>
    rw [List.prefix_nil.mp hp]
    rfl
  | plain hq hb _ ih =>
    rcases List.prefix_cons_iff.mp hp with rfl | ⟨front, rfl, hfront⟩
    · rfl
    · rw [scanBasic_plain hq hb, ih hfront]
      rfl
  | escape he _ ih =>
    rcases List.prefix_cons_iff.mp hp with rfl | ⟨behind, rfl, hbehind⟩
    · rfl
    · rcases List.prefix_cons_iff.mp hbehind with rfl | ⟨front, rfl, hfront⟩
      · rfl
      · rw [scanBasic_escape he, ih hfront]
        rfl

/-- Blanks are dropped behind a text that begins with a quote, and not in front. -/
theorem trim_quote (cs : List Char) : ∃ part, part <+: cs ∧ trim ('"' :: cs) = '"' :: part := by
  obtain ⟨pre, post, hcs, hpre, -⟩ := exists_trim ('"' :: cs)
  have hmem : '"' ∈ trim ('"' :: cs) := mem_trim List.mem_cons_self (by decide)
  cases pre with
  | cons c pre =>
    have hc : '"' = c := (List.cons.inj hcs).1
    exact absurd (hpre c List.mem_cons_self) (by rw [← hc]; decide)
  | nil =>
    generalize trim ('"' :: cs) = kept at hcs hmem
    cases kept with
    | nil => cases hmem
    | cons c part =>
      cases hcs
      exact ⟨part, List.prefix_append part post, rfl⟩

/-- **A cut inside of a quoted key leaves a string that is not terminated.** -/
theorem exists_cut_key (hs : IsSeparator sep) (hk : sep ∈ k.toList) :
    ∃ front back, quoteKey k = front ++ sep :: back ∧ sep ∉ front ∧
      ∀ line, readKey line (trim front) = .error (.malformed line .unterminatedString) := by
  have hq : sep ≠ '"' := by rcases hs with rfl | rfl <;> decide
  have hesc : sep ∈ k.toList.flatMap Scalar.escape :=
    List.mem_flatMap.mpr ⟨sep, hk, (mem_escape_iff hs).mpr rfl⟩
  obtain ⟨front, back, heq, hfront⟩ := List.eq_append_cons_of_mem hesc
  refine ⟨'"' :: front, back ++ ['"'], ?_, ?_, fun line => ?_⟩
  · rw [quoteKey, Scalar.print, heq, List.append_assoc]
    rfl
  · rw [List.mem_cons, not_or]
    exact ⟨hq, hfront⟩
  · obtain ⟨part, hpart, htrim⟩ := trim_quote front
    have hp : part <+: k.toList.flatMap Scalar.escape :=
      heq ▸ hpart.trans (List.prefix_append front (sep :: back))
    have hscan : scanBasic part = .unclosed := (basic_escape k.toList).scan_unclosed hp
    rw [htrim, readKey, if_pos (by rfl), readQuoted]
    simp only [hscan]

theorem trimmed_quoteKey (k : String) : Trimmed (quoteKey k) :=
  trimmed_cons_concat (by decide) (by decide) _

theorem quoteKey_ne_nil (k : String) : quoteKey k ≠ [] :=
  List.cons_ne_nil _ _

theorem readKey_quoteKey (line : Nat) (k : String) : readKey line (quoteKey k) = .ok k :=
  (readKey_eq_ok_iff (trimmed_quoteKey k)).mpr (.quoted (quoted_print k))

/-! ## Lines with quoted keys -/

variable {raw body value : List Char}

/-- A line is read without the blanks and the comment that are put around it. -/
theorem Dressed.ofLine_eq (h : Dressed body raw) (hs : Strung body) (n : Nat) :
    Statement.ofLine n raw = readStatement n (trim body) := by
  have hbody : uncomment body = body := hs.kept.uncomment_eq
  rw [Statement.ofLine, h.trim_uncomment (hbody.symm ▸ hs), hbody]

/-! ### Assignments -/

theorem strung_quotedAssignment (hv : ValueText (trim value) v) :
    Strung (quotedAssignment k value) :=
  (quoted_print k).strung.append (.plain rfl (.plain rfl (.plain rfl hv.strung.of_trim)))

/-- Nothing but blanks behind the value is dropped. -/
theorem trim_quotedAssignment (k : String) (hn : trim value ≠ []) :
    ∃ pre, IsBlankText pre ∧
      trim (quotedAssignment k value) = quoteKey k ++ ' ' :: '=' :: (pre ++ trim value) := by
  obtain ⟨pre, post, hvalue, hpre, hpost⟩ := exists_trim value
  refine ⟨' ' :: pre, List.forall_mem_cons.mpr ⟨rfl, hpre⟩, ?_⟩
  have hsplit : quotedAssignment k value =
      quoteKey k ++ ' ' :: '=' :: ' ' :: pre ++ trim value ++ post := by
    rw [quotedAssignment, List.append_assoc, List.append_assoc, List.cons_append,
      List.cons_append, List.cons_append, ← List.append_assoc pre, ← hvalue]
  have htrimmed := (trimmed_quoteKey k).append (trimmed_trim value) (quoteKey_ne_nil k) hn
    (' ' :: '=' :: ' ' :: pre)
  rw [hsplit, trim_append_blank _ hpost, htrimmed.trim_eq, List.append_assoc]
  rfl

theorem quoteKey_no_bracket (k : String) (rest ds : List Char) : quoteKey k ++ rest ≠ '[' :: ds :=
  fun h => nomatch List.head_eq_of_cons_eq h

/-- A quoted key is assigned to if it holds no equals sign. -/
theorem ofLine_quotedAssignment (h : Dressed (quotedAssignment k value) raw)
    (hv : ValueText (trim value) v) (n : Nat) : Statement.ofLine n raw =
      if '=' ∈ k.toList then .error (.refused (.malformed n .unterminatedString))
      else .ok (.assignment k v) := by
  have hread : readValue n (trim value) = .ok v := (readValue_eq_ok_iff (trimmed_trim value)).mpr hv
  have hne : trim value ≠ [] := by
    intro hn
    rw [hn] at hread
    cases hread
  obtain ⟨pre, hpre, htrim⟩ := trim_quotedAssignment k hne
  have hs : IsSeparator '=' := Or.inl rfl
  rw [h.ofLine_eq (strung_quotedAssignment hv), htrim]
  split
  · next hk =>
    obtain ⟨front, back, hq, hfront, hbad⟩ := exists_cut_key hs hk
    rw [readStatement_of_cut (quoteKey_no_bracket k _)
      (by rw [hq, List.append_assoc]; exact cut?_append hfront _), hbad]
  · next hk =>
    have hleft : '=' ∉ quoteKey k ++ [' '] := by
      rw [List.mem_append, mem_quoteKey_iff hs]
      simp [hk]
    have hcut := cut?_append hleft (pre ++ trim value)
    rw [List.append_assoc, List.singleton_append] at hcut
    rw [readStatement_of_cut (quoteKey_no_bracket k _) hcut,
      (trimmed_quoteKey k).trim_concat (quoteKey_ne_nil k) (by decide), readKey_quoteKey,
      trim_blank_append hpre, (trimmed_trim value).trim_eq]
    simp only [hread]
    rfl

/-! ### Headers -/

theorem strung_quotedHeader (ks : List String) : Strung (quotedHeader ks) := by
  refine .plain rfl (Strung.append (.intercalate rfl fun part hpart => ?_) (.plain rfl .nil))
  obtain ⟨k, -, rfl⟩ := List.mem_map.mp hpart
  exact (quoted_print k).strung

/-- A key with a dot in it is the first one that fails. -/
theorem readPath_of_dot (hk : '.' ∈ k.toList) (rest : List Char) :
    readPath n (quoteKey k ++ rest) = .error (.malformed n .unterminatedString) := by
  obtain ⟨front, back, hq, hfront, hbad⟩ := exists_cut_key (Or.inr rfl) hk
  rw [readPath, hq, List.append_assoc, List.cons_append, pieces_append hfront, readKeys, hbad]

/-- Quoted keys are read as a path if none of them holds a dot. -/
theorem readPath_quotedKeys (hn : ks ≠ []) : readPath n (['.'].intercalate (ks.map quoteKey)) =
    if ∃ k ∈ ks, '.' ∈ k.toList then .error (.malformed n .unterminatedString) else .ok ks := by
  split
  · next hdot =>
    induction ks with
    | nil => exact absurd rfl hn
    | cons k ks ih =>
      cases ks with
      | nil =>
        have hk : '.' ∈ k.toList := by simpa using hdot
        rw [List.map_singleton, List.intercalate_singleton, ← List.append_nil (quoteKey k)]
        exact readPath_of_dot hk []
      | cons l ks =>
        rw [List.map_cons, List.map_cons, List.intercalate_cons_cons, List.append_assoc,
          List.singleton_append]
        by_cases hk : '.' ∈ k.toList
        · exact readPath_of_dot hk _
        · have hrest : ∃ k ∈ l :: ks, '.' ∈ k.toList := by
            obtain ⟨m, hm, hdotm⟩ := hdot
            rcases List.mem_cons.mp hm with rfl | hm
            · exact absurd hdotm hk
            · exact ⟨m, hm, hdotm⟩
          have ih := ih (List.cons_ne_nil l ks) hrest
          rw [List.map_cons, readPath] at ih
          rw [readPath, pieces_append (mt (mem_quoteKey_iff (Or.inr rfl)).mp hk), readKeys,
            (trimmed_quoteKey k).trim_eq, readKey_quoteKey, ih]
  · next hdot =>
    refine readPath_eq_ok_iff.mpr ⟨ks.map quoteKey, by simpa using hn, ?_, rfl, ?_⟩
    · intro part hpart
      obtain ⟨k, hk, rfl⟩ := List.mem_map.mp hpart
      rw [mem_quoteKey_iff (Or.inr rfl)]
      exact fun hd => hdot ⟨k, hk, hd⟩
    · rw [List.forall₂_map_left_iff]
      refine List.forall₂_same.mpr fun k _ => ?_
      rw [(trimmed_quoteKey k).trim_eq]
      exact .quoted (quoted_print k)

/-- The table at a path of quoted keys is opened if none of them holds a dot. -/
theorem ofLine_quotedHeader (h : Dressed (quotedHeader ks) raw) (hn : ks ≠ []) (n : Nat) :
    Statement.ofLine n raw =
      if ∃ k ∈ ks, '.' ∈ k.toList then .error (.refused (.malformed n .unterminatedString))
      else .ok (.header ks) := by
  have htrimmed : Trimmed (quotedHeader ks) := trimmed_cons_concat (by decide) (by decide) _
  rw [h.ofLine_eq (strung_quotedHeader ks), htrimmed.trim_eq, quotedHeader, readStatement,
    if_pos (by simp), List.dropLast_concat, readPath_quotedKeys hn]
  split <;> rfl

/-! ## What the lines do -/

variable {d d' : Draft}

/-- The open table has one more value, and nothing else is different. -/
structure Draft.Gains (d : Draft) (k : String) (v : Scalar) (d' : Draft) : Prop where
  current : d'.current = d.current
  node? : ∀ p, (table d'.entries).node? p =
    if p = d.current ++ [k] then some (.scalar v) else (table d.entries).node? p

/-- The table at a path is open and there, with those on the way to it, and nothing else is
different. -/
structure Draft.Opens (d : Draft) (path : List String) (d' : Draft) : Prop where
  current : d'.current = path
  node? : ∀ p, (table d'.entries).node? p =
    if p <+: path then some .table else (table d.entries).node? p

/-- A draft that reading can lead to. -/
def Draft.Reached (d : Draft) : Prop :=
  ∃ as hs, d.Shows as hs d.current

theorem Draft.Reached.apply {s : Statement} (h : d.Reached) (ha : d.apply s = .ok d') :
    d'.Reached := by
  obtain ⟨as, hs, hd⟩ := h
  have hd' := hd.apply ha
  exact ⟨_, _, hd'.current ▸ hd'⟩

theorem Draft.Reached.readLines {raws : List (List Char)} (h : d.Reached)
    (hr : readLines n d raws = .ok d') : d'.Reached := by
  induction raws generalizing n d with
  | nil =>
    cases hr
    exact h
  | cons raw raws ih =>
    obtain ⟨s, d₁, -, ha, hr⟩ := readLines_cons_eq_ok_iff.mp hr
    exact ih (h.apply ha) hr

/-- An assignment gives the open table its value, if nothing has the name yet. -/
theorem Draft.Reached.assign (h : d.Reached) (k : String) (v : Scalar) :
    ((table d.entries).node? (d.current ++ [k]) = none ∧ ∃ d', d.assign k v = .ok d' ∧
      d.Gains k v d') ∨
    (table d.entries).node? (d.current ++ [k]) ≠ none ∧
      d.assign k v = .error (.duplicateKey k) := by
  obtain ⟨as, hs, hd⟩ := h
  have hfree : ∀ {es}, Clear d.current es →
      (get? k (entriesAt d.current es) = none ↔
        (table es).node? (d.current ++ [k]) = none) := fun hc => by
    rw [get?_eq_none_iff, node?_entriesAt hc (List.cons_ne_nil k [])]
  rw [assign_eq]
  cases hu : updateAt (.invalidTablePath d.current) (insertNew k v) d.current d.entries with
  | error e =>
    rcases updateAt_error hu with ⟨-, hn⟩ | ⟨hi, hc⟩
    · exact absurd hd.clear_current hn
    · refine Or.inr ⟨fun hnone => ?_, ?_⟩
      · rw [insertNew, (hfree hc).mpr hnone] at hi
        cases hi
      · unfold insertNew at hi
        split at hi
        · cases hi
          rfl
        · cases hi
  | ok es =>
    obtain ⟨sub, hi, hch⟩ := updateAt_spec hu
    obtain ⟨hget, rfl⟩ := insertNew_eq_ok_iff.mp hi
    have hnone := (hfree hch.clear).mp hget
    refine Or.inl ⟨hnone, _, rfl, rfl, fun p => ?_⟩
    -- The tables on the way to the open one are there already.
    rw [hch.node?_put hnone]
    split
    · rfl
    · split
      · next hp => exact ((hd.holds.table_iff p).mpr (hd.table_of_prefix hp)).symm
      · rfl

/-- A header opens its table, if no value is in the way. -/
theorem Draft.openTable_cases (d : Draft) (path : List String) :
    (Clear path d.entries ∧ ∃ d', d.openTable path = .ok d' ∧ d.Opens path d') ∨
    ¬ Clear path d.entries ∧ d.openTable path = .error (.invalidTablePath path) := by
  rw [openTable]
  cases hu : updateAt (.invalidTablePath path) .ok path d.entries with
  | error e =>
    rcases updateAt_error hu with ⟨rfl, hn⟩ | ⟨hi, -⟩
    · exact Or.inr ⟨hn, rfl⟩
    · cases hi
  | ok es =>
    obtain ⟨sub, hsub, hch⟩ := updateAt_spec hu
    cases hsub
    exact Or.inl ⟨hch.clear, _, rfl, rfl, hch.node?_same⟩

theorem readLines_cons_of_ok {s : Statement} (hs : Statement.ofLine n raw = .ok s)
    (raws : List (List Char)) : readLines n d (raw :: raws) =
      match d.apply s with
      | .error e => .error (.refused e)
      | .ok d' => readLines (n + 1) d' raws := by
  cases ha : d.apply s <;> simp only [readLines, hs, ha]

theorem readLines_cons_of_error {f : ConfigFailure} (hf : Statement.ofLine n raw = .error f)
    (raws : List (List Char)) : readLines n d (raw :: raws) = .error f := by
  rw [readLines, hf]

/-- **A quoted key names what it says, unless the line is cut inside of its quotes.**  Take any
document, and a line of it in front of which everything is read.  If the line assigns a value
to a quoted key without an equals sign, then the open table gains just this value under just
this key, or the key is refused because the table has it already.  If it is a header of
quoted keys without dots, then just the table at this path is opened, or the path is refused
because a value is in its way.  Reading goes on with the next line.  With an equals sign in
the key, or a dot in one of the keys, the line is always refused, as a string that is not
terminated. -/
theorem quoted_keys_read {text : String} {pre post : List (List Char)}
    (hl : lines text.toList = pre ++ raw :: post) (hd : readLines 1 {} pre = .ok d) :
    (∀ k value v, Dressed (quotedAssignment k value) raw → ValueText (trim value) v →
      ('=' ∈ k.toList →
        read text = .error (.refused (.malformed (pre.length + 1) .unterminatedString))) ∧
      ('=' ∉ k.toList →
        ((table d.entries).node? (d.current ++ [k]) = none → ∃ d', d.Gains k v d' ∧
          read text = (readLines (pre.length + 2) d' post).map fun d => .table d.entries) ∧
        ((table d.entries).node? (d.current ++ [k]) ≠ none →
          read text = .error (.refused (.duplicateKey k))))) ∧
    ∀ ks, ks ≠ [] → Dressed (quotedHeader ks) raw →
      ((∃ k ∈ ks, '.' ∈ k.toList) →
        read text = .error (.refused (.malformed (pre.length + 1) .unterminatedString))) ∧
      ((∀ k ∈ ks, '.' ∉ k.toList) →
        (Clear ks d.entries → ∃ d', d.Opens ks d' ∧
          read text = (readLines (pre.length + 2) d' post).map fun d => .table d.entries) ∧
        (¬ Clear ks d.entries → read text = .error (.refused (.invalidTablePath ks)))) := by
  have hreached : d.Reached := Draft.Reached.readLines ⟨[], [], Draft.Shows.start⟩ hd
  have hread : read text = (readLines (pre.length + 1) d (raw :: post)).map fun d =>
      .table d.entries := by
    rw [read, hl, readLines_behind hd, Nat.add_comm]
  rw [hread]
  refine ⟨fun k value v hdress hv => ⟨fun hk => ?_, fun hk => ?_⟩,
    fun ks hn hdress => ⟨fun hk => ?_, fun hk => ?_⟩⟩
  · have hline := ofLine_quotedAssignment hdress hv (pre.length + 1)
    rw [if_pos hk] at hline
    rw [readLines_cons_of_error hline]
    rfl
  · have hline := ofLine_quotedAssignment hdress hv (pre.length + 1)
    rw [if_neg hk] at hline
    rw [readLines_cons_of_ok hline, Draft.apply]
    rcases hreached.assign k v with ⟨hfree, d', ha, hgains⟩ | ⟨htaken, ha⟩
    · rw [ha]
      exact ⟨fun _ => ⟨d', hgains, rfl⟩, fun hn => absurd hfree hn⟩
    · rw [ha]
      exact ⟨fun hn => absurd hn htaken, fun _ => rfl⟩
  · have hline := ofLine_quotedHeader hdress hn (pre.length + 1)
    rw [if_pos hk] at hline
    rw [readLines_cons_of_error hline]
    rfl
  · have hline := ofLine_quotedHeader hdress hn (pre.length + 1)
    rw [if_neg (by simpa using hk)] at hline
    rw [readLines_cons_of_ok hline, Draft.apply]
    rcases d.openTable_cases ks with ⟨hclear, d', ha, hopens⟩ | ⟨hblocked, ha⟩
    · rw [ha]
      exact ⟨fun _ => ⟨d', hopens, rfl⟩, fun hn => absurd hclear hn⟩
    · rw [ha]
      exact ⟨fun hn => absurd hn hblocked, fun _ => rfl⟩

/-- A key with brackets, a dot and a number sign, which the table has already. -/
theorem quoted_keys_read_taken :
    read "\"[a.b] #\" = 1\n\"[a.b] #\" = 2 #" = .error (.refused (.duplicateKey "[a.b] #")) := by
  have hd : readLines 1 {} ["\"[a.b] #\" = 1".toList] =
      .ok ⟨[("[a.b] #", .scalar (.integer 1))], []⟩ := rfl
  have hl : lines "\"[a.b] #\" = 1\n\"[a.b] #\" = 2 #".toList =
      ["\"[a.b] #\" = 1".toList] ++ "\"[a.b] #\" = 2 #".toList :: [] := by decide
  have hdress : Dressed (quotedAssignment "[a.b] #" "2".toList) "\"[a.b] #\" = 2 #".toList :=
    @Dressed.remarked _ [] [' '] isBlankText_nil (by decide) []
  have hv : ValueText (trim "2".toList) (.integer 2) :=
    (readValue_eq_ok_iff (trimmed_trim _)).mp (show readValue 0 _ = _ from rfl)
  exact (((quoted_keys_read hl hd).1 "[a.b] #" _ _ hdress hv).2 (by decide)).2 nofun

/-- An equals sign inside of quotes, and a dot. -/
theorem separators_in_quotes :
    read "\"a=b\" = 1" = .error (.refused (.malformed 1 .unterminatedString)) ∧
    read "[\"a.b\"]" = .error (.refused (.malformed 1 .unterminatedString)) ∧
    (¬ ∀ k, ∃ t, read (String.ofList (quotedAssignment k "1".toList)) = .ok t) ∧
    ¬ ∀ ks, ks ≠ [] → ∃ t, read (String.ofList (quotedHeader ks)) = .ok t := by
  have hkey : read "\"a=b\" = 1" = .error (.refused (.malformed 1 .unterminatedString)) := rfl
  have hpath : read "[\"a.b\"]" = .error (.refused (.malformed 1 .unterminatedString)) := rfl
  refine ⟨hkey, hpath, fun h => ?_, fun h => ?_⟩
  · obtain ⟨t, ht⟩ := h "a=b"
    rw [show String.ofList (quotedAssignment "a=b" "1".toList) = "\"a=b\" = 1" from rfl, hkey] at ht
    cases ht
  · obtain ⟨t, ht⟩ := h ["a.b"] (by decide)
    rw [show String.ofList (quotedHeader ["a.b"]) = "[\"a.b\"]" from rfl, hpath] at ht
    cases ht

end Document
end SoftNic
