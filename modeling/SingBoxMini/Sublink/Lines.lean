import SingBoxMini.Sublink.Input

/-!
# Sublink — Lines

Whether two subscriptions can be put together line by line: whether the nodes of two lines are those
of the first and those of the second.

Before it looks at lines the parser tries all of the text as Base64, without its blanks, so two
lines in Base64 can be taken for one.  `parse_append_iff` says when this does harm:

* if the first line is padded, or its last character stands for less than six bits, the two together
  are no Base64 of a URI: `glued_decoded` shows that what is shifted by two or four bits has two
  bytes in a row that start characters;
* else the texts they stand for are put together without a line break, so a URI at the end of the
  first is lost unless the second starts with a blank line.
-/

namespace SingBoxMini.Sublink
open Bytes Text Base64

variable {codec : Codec} {a b : List Char} {na nb : List Node}

/-! ### One line -/

variable {input decoded : List Char}

theorem decode_of_decodedSubscription (h : decodedSubscription input = some decoded) :
    contains "://".toList input = false ∧
      ∃ e, Engine.decode e (input.filter (!isWhitespace ·)) = some (utf8 decoded) := by
  rw [decodedSubscription] at h
  split_ifs at h with huri
  obtain ⟨bytes, hbytes, htext⟩ := Option.bind_eq_some_iff.mp (Option.filter_eq_some_iff.mp h).1
  obtain ⟨e, -, he⟩ := List.exists_of_findSome?_eq_some hbytes
  exact ⟨by simpa using huri, e, by rw [he, ofUtf8_eq_some_iff.mp htext]⟩

/-- Blanks around a subscription make no difference. -/
theorem decodedSubscription_trim (input : List Char) :
    decodedSubscription (trim input) = decodedSubscription input := by
  have huri : contains "://".toList (trim input) = contains "://".toList input := by
    rw [Bool.eq_iff_iff, contains_iff, contains_iff]
    exact infix_trim_iff (visible_of_all (by decide))
  rw [decodedSubscription, decodedSubscription, huri, decodeBase64, decodeBase64, filter_trim]

/-- A comment is no Base64. -/
theorem not_skipped_of_decoded {line : List Char} (h : decodedSubscription line = some decoded) :
    ¬ Skipped line := by
  obtain ⟨-, e, he⟩ := decode_of_decodedSubscription h
  rintro (rfl | hhead)
  · have hle := Engine.length_le_of_decode he
    have hnil : utf8 decoded = utf8 [] := by
      rw [utf8_nil]
      exact List.eq_nil_of_length_eq_zero (Nat.le_zero.mp hle)
    have huri := contains_of_decodedSubscription h
    rw [utf8_inj hnil] at huri
    cases huri
  · obtain ⟨rest, rfl⟩ := List.head?_eq_some_iff.mp hhead
    rcases Engine.symbol_of_decode he (c := '#') (by simp; decide) with heq | ⟨v, hv⟩
    · exact absurd heq (by decide)
    · cases hsafe : e.urlSafe <;> rw [hsafe] at hv <;> cases hv

/-- **A subscription of one line is read as that line.** -/
theorem readsLine_of_parseInput (ha : '\n' ∉ a) (h : parseInput codec a = .ok na) :
    ReadsLine codec (Reads codec maxNesting) (trim a) na := by
  obtain ⟨hblank, -, ⟨hsize, hreads⟩, -⟩ := parseInput_ok_iff.mp h
  cases hdecoded : decodedSubscription (trim a) with
  | some decoded =>
      rw [hdecoded] at hreads
      have huri := contains_of_decodedSubscription hdecoded
      have hno := (decode_of_decodedSubscription hdecoded).1
      refine .nested (not_skipped_of_decoded hdecoded) (not_remote hno) hno ⟨hsize, ?_⟩
      rw [hdecoded]
      -- a text of URIs is read the same one level deeper
      have htext : Reads codec (1 + 1) decoded na := hreads
      show Reads codec (0 + 1) decoded na
      rw [reads_decoded (by omega) huri] at htext ⊢
      exact htext
  | none =>
      rw [hdecoded, ← readsLines_filter_iff, filter_map_trim_lines_of_single ?_ ?_, trim_trim,
        readsLines_singleton_iff] at hreads
      · exact hreads
      · exact fun hmem => ha (mem_trim hmem)
      · rwa [trim_trim]

/-- A line that is no URI is read as the text it stands for. -/
theorem decoded_of_readsLine (ha : '\n' ∉ a) (hne : na ≠ [])
    (h : ReadsLine codec (Reads codec maxNesting) (trim a) na)
    (huri : contains "://".toList a = false) :
    ∃ da, decodedSubscription a = some da ∧
      ReadsLines codec (fun _ _ => False) ((da.splitOn '\n').map trim) na := by
  have hno : contains "://".toList (trim a) = false := by
    rw [Bool.eq_false_iff] at huri ⊢
    rwa [Ne, contains_iff, infix_trim_iff (visible_of_all (by decide)), ← contains_iff]
  cases h with
  | skipped => exact absurd rfl hne
  | uri _ _ hyes =>
      rw [hno] at hyes
      cases hyes
  | nested hskipped _ _ hreads =>
      obtain ⟨-, hreads⟩ := hreads
      rw [decodedSubscription_trim] at hreads
      cases hdecoded : decodedSubscription a with
      | some da =>
          rw [hdecoded] at hreads
          have htext : Reads codec (0 + 1) da na := hreads
          rw [reads_decoded (by omega) (contains_of_decodedSubscription hdecoded)] at htext
          exact ⟨da, rfl, htext.2⟩
      | none =>
          -- it would be one level deeper, and is no URI there either
          have hline : '\n' ∉ trim a := fun hmem => ha (mem_trim hmem)
          have hblank : trim (trim a) ≠ [] := by
            rw [trim_trim]
            exact fun hnil => hskipped (.inl hnil)
          rw [hdecoded, ← readsLines_filter_iff, filter_map_trim_lines_of_single hline hblank,
            trim_trim, readsLines_singleton_iff] at hreads
          cases hreads with
          | skipped => exact absurd rfl hne
          | uri _ _ hyes =>
              rw [hno] at hyes
              cases hyes
          | nested _ _ _ hdeep =>
              exact absurd hdeep (not_reads_line le_rfl (trim_trim a) hline hskipped hno)

/-! ### Two lines in Base64 -/

/-- A bit that is set, before bits that are not. -/
theorem testBit_of_getElem? {bytes : List UInt8} {rest : List Bool} {i : Nat}
    (hzero : ∀ b ∈ rest, b = false) (h : (bytesBits bytes ++ rest)[i]? = some true) :
    ∃ b, bytes[i / 8]? = some b ∧ b.toNat.testBit (7 - i % 8) = true := by
  rcases Nat.lt_or_ge i (bytesBits bytes).length with hi | hi
  · rw [List.getElem?_append_left hi, getElem?_bytesBits] at h
    exact Option.map_eq_some_iff.mp h
  · rw [List.getElem?_append_right hi] at h
    exact absurd (hzero true (List.mem_of_getElem? h)) (by decide)

/-- A byte that starts with two ones. -/
theorem le_of_testBit {b : UInt8} (h₇ : b.toNat.testBit 7 = true) (h₆ : b.toNat.testBit 6 = true) :
    0xC0 ≤ b := by
  rw [Nat.testBit_eq_decide_div_mod_eq, decide_eq_true_eq] at h₇ h₆
  rw [UInt8.le_iff_toNat_le]
  have hb : b.toNat < 256 := b.toNat_lt
  exact (by omega : 192 ≤ b.toNat)

/-- **`://` shifted by two or four bits** has two bytes in a row that start with two ones. -/
theorem exists_of_shifted {bytes bytes₁ before after : List UInt8} {rest rest' : List Bool}
    {n : Nat}
    (hn : n = 2 ∨ n = 4) (hzero : ∀ b ∈ rest, b = false)
    (h : bytesBits bytes ++ rest = bytesBits bytes₁ ++ (List.replicate n false ++
      (bytesBits (before ++ 0x3A :: 0x2F :: 0x2F :: after) ++ rest'))) :
    ∃ j x y, bytes[j]? = some x ∧ bytes[j + 1]? = some y ∧ 0xC0 ≤ x ∧ 0xC0 ≤ y := by
  -- the bits of the three bytes, where they are now
  have hbit : ∀ m < 24, (bytesBits bytes ++ rest)[8 * (bytes₁.length + before.length) + n + m]? =
      [0x3A, 0x2F, 0x2F][m / 8]?.map fun b : UInt8 => b.toNat.testBit (7 - m % 8) := by
    intro m hm
    rw [h, List.getElem?_append_right (by simp; omega), List.getElem?_append_right (by simp; omega),
      List.getElem?_append_left (by simp; omega), getElem?_bytesBits]
    have hindex : 8 * (bytes₁.length + before.length) + n + m - (bytesBits bytes₁).length -
        (List.replicate n false).length = 8 * before.length + m := by
      simp
      omega
    rw [hindex, Nat.mul_add_div (by decide), Nat.mul_add_mod,
      List.getElem?_append_right (by omega), Nat.add_sub_cancel_left]
    congr 1
    have hdiv : m / 8 < 3 := by omega
    interval_cases m / 8 <;> rfl
  have htrue : ∀ t ∈ [0, 1, 8, 9], ∃ b,
      bytes[bytes₁.length + before.length + 2 + t / 8]? = some b ∧
        b.toNat.testBit (7 - t % 8) = true := by
    intro t ht
    have hset : (bytesBits bytes ++ rest)[8 * (bytes₁.length + before.length + 2) + t]? =
        some true := by
      have hm := hbit (16 - n + t) (by simp at ht; omega)
      rw [show 8 * (bytes₁.length + before.length) + n + (16 - n + t) =
        8 * (bytes₁.length + before.length + 2) + t by omega] at hm
      rw [hm]
      simp only [List.mem_cons, List.not_mem_nil, or_false] at ht
      rcases hn with rfl | rfl <;> rcases ht with rfl | rfl | rfl | rfl <;> decide
    obtain ⟨b, hb, hbit⟩ := testBit_of_getElem? hzero hset
    rw [Nat.mul_add_div (by decide)] at hb
    rw [Nat.mul_add_mod] at hbit
    exact ⟨b, hb, hbit⟩
  obtain ⟨x, hx, hx₇⟩ := htrue 0 (by decide)
  obtain ⟨x', hx', hx₆⟩ := htrue 1 (by decide)
  obtain ⟨y, hy, hy₇⟩ := htrue 8 (by decide)
  obtain ⟨y', hy', hy₆⟩ := htrue 9 (by decide)
  cases Option.some.inj (hx.symm.trans hx')
  cases Option.some.inj (hy.symm.trans hy')
  exact ⟨_, x, y, hx, hy, le_of_testBit hx₇ hx₆, le_of_testBit hy₇ hy₆⟩

/-- **Two subscriptions taken for one**: the texts they stand for are put together. -/
theorem glued_decoded {da db d : List Char} (ha : decodedSubscription a = some da)
    (hb : decodedSubscription b = some db)
    (h : decodedSubscription (a ++ '\n' :: b) = some d) : d = da ++ db := by
  obtain ⟨-, e₁, he₁⟩ := decode_of_decodedSubscription ha
  obtain ⟨-, e₂, he₂⟩ := decode_of_decodedSubscription hb
  obtain ⟨-, e, he⟩ := decode_of_decodedSubscription h
  obtain ⟨before, after, hdb⟩ := contains_iff.mp (contains_of_decodedSubscription hb)
  have hbytes : utf8 db = utf8 before ++ 0x3A :: 0x2F :: 0x2F :: utf8 after := by
    rw [← hdb, utf8_append, utf8_append, List.append_assoc]
    rfl
  rw [List.filter_append, List.filter_cons_of_neg (by decide)] at he
  obtain ⟨n, rest, rest', hn, hrest, hzero, hrest', hbits⟩ :=
    Engine.decode_append he₁ he₂ (by simp [hbytes]) he
  rcases hn with rfl | hn
  · have heq : utf8 d = utf8 (da ++ db) := by
      rw [utf8_append]
      have hbits' : bytesBits (utf8 d) ++ rest = bytesBits (utf8 da ++ utf8 db) ++ rest' := by
        rw [hbits, bytesBits_append, List.append_assoc]
        rfl
      exact eq_of_bytesBits_append hbits' (by omega) (by omega)
    exact utf8_inj heq
  · rw [hbytes] at hbits
    obtain ⟨j, x, y, hx, hy, hx', hy'⟩ := exists_of_shifted hn hzero hbits
    exact absurd (utf8_getElem? hx hy hx') (UInt8.not_lt.mpr hy')

/-! ### Two lines -/

theorem contains_append_iff :
    contains "://".toList (a ++ '\n' :: b) = true ↔
      contains "://".toList a = true ∨ contains "://".toList b = true := by
  rw [contains_iff, contains_iff, contains_iff]
  exact infix_append_cons_iff (by decide)

/-- The lines of two lines. -/
theorem filter_lines_append (ha : '\n' ∉ a) (hb : '\n' ∉ b) (hta : trim a ≠ [])
    (htb : trim b ≠ []) :
    ((lines (trim (a ++ '\n' :: b))).map trim).filter (· ≠ []) = [trim a, trim b] := by
  have ha' : '\n' ∉ a.dropWhile isWhitespace := fun h => ha ((List.dropWhile_sublist _).mem h)
  have hb' : '\n' ∉ b.rdropWhile isWhitespace := fun h => hb ((List.rdropWhile_prefix _ _).mem h)
  rw [filter_map_trim_lines, trim_append_newline hta htb,
    List.splitOn_append_cons_self_of_not_mem ha', List.splitOn_eq_singleton hb']
  simp [trim_dropWhile, trim_rdropWhile, hta, htb]

/-- The start of two lines is that of the first. -/
theorem not_otherFormat_append (hta : trim a ≠ []) (htb : trim b ≠ [])
    (h : ¬ OtherFormat (trim a)) : ¬ OtherFormat (trim (a ++ '\n' :: b)) := by
  -- a blank comes right after the first line
  obtain ⟨c, rest, hc, hstart⟩ : ∃ c rest, isWhitespace c = true ∧
      trim (a ++ '\n' :: b) = trim a ++ c :: rest := by
    have hparts : trim a ++ (a.dropWhile isWhitespace).rtakeWhile isWhitespace =
        a.dropWhile isWhitespace := List.rdropWhile_append_rtakeWhile
    rw [trim_append_newline hta htb, ← hparts, List.append_assoc]
    cases hblank : (a.dropWhile isWhitespace).rtakeWhile isWhitespace with
    | nil => exact ⟨'\n', _, by decide, rfl⟩
    | cons c rest =>
        have hmem : c ∈ (a.dropWhile isWhitespace).rtakeWhile isWhitespace := by simp [hblank]
        exact ⟨c, _, List.mem_rtakeWhile_imp hmem, rfl⟩
  have hstarts : ∀ pattern : List Char, (∀ d ∈ pattern, isWhitespace d = false) →
      pattern.isPrefixOf (toAsciiLowercase (trim (a ++ '\n' :: b))) = true →
      pattern.isPrefixOf (toAsciiLowercase (trim a)) = true := by
    intro pattern hpattern hprefix
    rw [List.isPrefixOf_iff_prefix] at hprefix ⊢
    rw [hstart, toAsciiLowercase, List.map_append, List.map_cons, toLower_of_isWhitespace hc]
      at hprefix
    refine prefix_of_prefix_append_cons (fun hmem => ?_) hprefix
    rw [hpattern c hmem] at hc
    cases hc
  rintro (hhead | hproxies | hproxy)
  · obtain ⟨d, t, ht⟩ := List.exists_cons_of_ne_nil hta
    rw [hstart, ht] at hhead
    exact h (.inl (by rw [ht]; exact hhead))
  · exact h (.inr (.inl (hstarts _ (visible_of_all (by decide)) hproxies)))
  · exact h (.inr (.inr (hstarts _ (visible_of_all (by decide)) hproxy)))

/-- The last line of a text. -/
def lastLine (text : List Char) : List Char := trim ((text.splitOn '\n').getLastD [])

/-- The first line of a text. -/
def firstLine (text : List Char) : List Char := trim ((text.splitOn '\n').headD [])

/-- **Two texts in a row have their lines**: the line that goes across is blank on one side, or a
comment on both. -/
def Separate (da db : List Char) : Prop :=
  lastLine da = [] ∨ firstLine db = [] ∨
    ((lastLine da).head? = some '#' ∧ (firstLine db).head? = some '#')

/-- What a line across two texts is read as. -/
theorem readsLine_append_iff {l f : List Char} {nl nf : List Node}
    (hl : ReadsLine codec (fun _ _ => False) (trim l) nl)
    (hf : ReadsLine codec (fun _ _ => False) (trim f) nf) :
    ReadsLine codec (fun _ _ => False) (trim (l ++ f)) (nl ++ nf) ↔
      trim l = [] ∨ trim f = [] ∨ ((trim l).head? = some '#' ∧ (trim f).head? = some '#') := by
  by_cases hblank : trim l = []
  · rw [trim_append_left hblank]
    have hnl : nl = [] := (hblank ▸ hl).unique (.skipped (.inl rfl))
    exact iff_of_true (by simpa [hnl] using hf) (.inl hblank)
  by_cases hblank' : trim f = []
  · rw [trim_append_right hblank']
    have hnf : nf = [] := (hblank' ▸ hf).unique (.skipped (.inl rfl))
    exact iff_of_true (by simpa [hnf] using hl) (.inr (.inl hblank'))
  -- both are there, so the line across is longer than the first and starts as it does
  obtain ⟨t, ht, hlong⟩ : ∃ t, trim (l ++ f) = trim l ++ t ∧ t ≠ [] := by
    have hparts : trim l ++ (l.dropWhile isWhitespace).rtakeWhile isWhitespace =
        l.dropWhile isWhitespace := List.rdropWhile_append_rtakeWhile
    rw [trim_append hblank hblank', ← hparts, List.append_assoc]
    refine ⟨_, rfl, fun hnil => hblank' ?_⟩
    rw [← trim_rdropWhile, (List.append_eq_nil_iff.mp hnil).2]
    rfl
  have hhead : (trim (l ++ f)).head? = (trim l).head? := by
    obtain ⟨c, t', ht'⟩ := List.exists_cons_of_ne_nil hblank
    rw [ht, ht']
    rfl
  simp only [hblank, hblank', false_or]
  constructor
  · intro h
    cases hl with
    | nested _ _ _ hfalse => exact hfalse.elim
    | uri hnot _ huri hnode =>
        -- a node keeps its line, which is longer now
        have horiginal := h.original _ (List.mem_append_left _ List.mem_cons_self)
        rw [parseNode_original hnode, ht, List.self_eq_append_right] at horiginal
        exact absurd horiginal hlong
    | skipped hskipped =>
        have hcomment : (trim l).head? = some '#' := hskipped.resolve_left hblank
        refine ⟨hcomment, ?_⟩
        have hnf : nf = [] := h.unique (.skipped (.inr (hhead.trans hcomment)))
        cases hf with
        | skipped hskipped' => exact hskipped'.resolve_left hblank'
        | uri => cases hnf
        | nested _ _ _ hfalse => exact hfalse.elim
  · rintro ⟨hcomment, hcomment'⟩
    have hnl : nl = [] := hl.unique (.skipped (.inr hcomment))
    have hnf : nf = [] := hf.unique (.skipped (.inr hcomment'))
    rw [hnl, hnf]
    exact .skipped (.inr (hhead.trans hcomment))

/-- What two texts in a row are read as. -/
theorem readsLines_append_separate_iff {da db : List Char}
    (hda : ReadsLines codec (fun _ _ => False) ((da.splitOn '\n').map trim) na)
    (hdb : ReadsLines codec (fun _ _ => False) ((db.splitOn '\n').map trim) nb) :
    ReadsLines codec (fun _ _ => False) (((da ++ db).splitOn '\n').map trim) (na ++ nb) ↔
      Separate da db := by
  obtain ⟨init, last, first, rest, hinit, hrest, hacross⟩ := splitOn_append '\n' da db
  have hseparate : Separate da db ↔ trim last = [] ∨ trim first = [] ∨
      ((trim last).head? = some '#' ∧ (trim first).head? = some '#') := by
    rw [Separate, lastLine, firstLine, hinit, hrest, List.getLastD_concat, List.headD_cons]
  rw [hinit, List.map_append, List.map_singleton, readsLines_append_iff] at hda
  obtain ⟨ni, nl, hi, hl, rfl⟩ := hda
  rw [hrest, List.map_cons, ← List.singleton_append, readsLines_append_iff] at hdb
  obtain ⟨nf, nr, hf, hr, rfl⟩ := hdb
  rw [readsLines_singleton_iff] at hl hf
  rw [hseparate, ← readsLine_append_iff hl hf, hacross, List.map_append, List.map_cons,
    ← List.singleton_append (l := rest.map trim), readsLines_append_iff]
  constructor
  · rintro ⟨ni', ns, hi', hns, heq⟩
    obtain ⟨ng, nr', hg, hr', rfl⟩ := readsLines_append_iff.mp hns
    rw [hi'.unique hi, hr'.unique hr] at heq
    rw [List.append_assoc, ← List.append_assoc nl, List.append_cancel_left_eq,
      List.append_cancel_right_eq] at heq
    rw [heq]
    exact readsLines_singleton_iff.mp hg
  · intro hg
    refine ⟨ni, _, hi, readsLines_append_iff.mpr
      ⟨nl ++ nf, nr, readsLines_singleton_iff.mpr hg, hr, rfl⟩, ?_⟩
    simp only [List.append_assoc]

/-- **When the nodes of two lines are those of the first and those of the second.** -/
theorem parse_append_iff (ha : '\n' ∉ a) (hb : '\n' ∉ b) (hna : parseInput codec a = .ok na)
    (hnb : parseInput codec b = .ok nb)
    (hsize : (utf8 (trim (a ++ '\n' :: b))).length ≤ maxInputBytes)
    (hcount : na.length + nb.length ≤ maxNodes) :
    parseInput codec (a ++ '\n' :: b) = .ok (na ++ nb) ↔
      ∀ da db, decodedSubscription a = some da → decodedSubscription b = some db →
        decodedSubscription (a ++ '\n' :: b) ≠ none → Separate da db := by
  obtain ⟨hta, hformat, -, hne, -⟩ := parseInput_ok_iff.mp hna
  obtain ⟨htb, -, -, hne', -⟩ := parseInput_ok_iff.mp hnb
  have hla := readsLine_of_parseInput ha hna
  have hlb := readsLine_of_parseInput hb hnb
  have hblank : trim (a ++ '\n' :: b) ≠ [] := by
    rw [trim_append_newline hta htb]
    simp
  have hall : parseInput codec (a ++ '\n' :: b) = .ok (na ++ nb) ↔
      Reads codec (maxNesting + 1) (trim (a ++ '\n' :: b)) (na ++ nb) := by
    rw [parseInput_ok_iff]
    exact ⟨fun h => h.2.2.1, fun h => ⟨hblank, not_otherFormat_append hta htb hformat, h,
      by simp [hne], by simpa using hcount⟩⟩
  rw [hall, Reads, decodedSubscription_trim, and_iff_right hsize]
  cases hdecoded : decodedSubscription (a ++ '\n' :: b) with
  | none =>
      refine iff_of_true ?_ (by simp)
      simp only
      rw [← readsLines_filter_iff, filter_lines_append ha hb hta htb]
      exact .cons hla (readsLines_singleton_iff.mpr hlb)
  | some d =>
      have hnot : ¬ contains "://".toList (a ++ '\n' :: b) = true :=
        Bool.eq_false_iff.mp (decode_of_decodedSubscription hdecoded).1
      rw [contains_append_iff, not_or, Bool.not_eq_true, Bool.not_eq_true] at hnot
      obtain ⟨da, hda, hna'⟩ := decoded_of_readsLine ha hne hla hnot.1
      obtain ⟨db, hdb, hnb'⟩ := decoded_of_readsLine hb hne' hlb hnot.2
      have hd := glued_decoded hda hdb hdecoded
      have huri := contains_of_decodedSubscription hdecoded
      have hfits : (utf8 d).length ≤ maxInputBytes := by
        obtain ⟨-, e, he⟩ := decode_of_decodedSubscription hdecoded
        have hle := Engine.length_le_of_decode he
        rw [← filter_trim] at hle
        have hfilter := List.length_filter_le (!isWhitespace ·) (trim (a ++ '\n' :: b))
        have hutf8 := length_le_length_utf8 (trim (a ++ '\n' :: b))
        omega
      show Reads codec (1 + 1) d (na ++ nb) ↔ _
      rw [reads_decoded le_rfl huri, and_iff_right hfits, hd,
        readsLines_append_separate_iff hna' hnb']
      constructor
      · intro hseparate da' db' hda' hdb' _
        cases Option.some.inj (hda.symm.trans hda')
        cases Option.some.inj (hdb.symm.trans hdb')
        exact hseparate
      · intro hseparate
        exact hseparate da db hda hdb (by simp)

/-! ### Two subscriptions of one node -/

/-- The node of a VLESS URI without a port. -/
def sampleNode (uri host path : String) : Node :=
  urlNode .vless uri.toList
    ⟨"vless".toList, "u".toList, none, some host.toList, none, path.toList, none, none⟩ host.toList

theorem decodedSubscription_of_decode {text : List Char}
    (hinput : contains "://".toList input = false) (hbytes : decodeBase64 input = some (utf8 text))
    (htext : contains "://".toList text = true) : decodedSubscription input = some text := by
  rw [decodedSubscription, hinput, if_neg (by decide), hbytes, Option.bind_some, ofUtf8_utf8,
    Option.filter_some, if_pos htext]

/-- A subscription in Base64. -/
theorem parseInput_of_decoded {ns : List Node} (hblank : trim input ≠ [])
    (hformat : ¬ OtherFormat (trim input)) (hsize : (utf8 (trim input)).length ≤ maxInputBytes)
    (hdecoded : decodedSubscription input = some decoded)
    (hsize' : (utf8 decoded).length ≤ maxInputBytes)
    (hlines : ReadsLines codec (fun _ _ => False) ((decoded.splitOn '\n').map trim) ns)
    (hne : ns ≠ []) (hcount : ns.length ≤ maxNodes) : parseInput codec input = .ok ns := by
  refine parseInput_ok_iff.mpr ⟨hblank, hformat, ⟨hsize, ?_⟩, hne, hcount⟩
  rw [decodedSubscription_trim, hdecoded]
  exact (reads_decoded (le_refl 1) (contains_of_decodedSubscription hdecoded)).mpr ⟨hsize', hlines⟩

/-- A URI with a line break behind it, in Base64. -/
theorem parseInput_line : parseInput urlCodec "dmxlc3M6Ly91QGgK".toList =
    .ok [sampleNode "vless://u@h" "h" ""] := by
  have hdecoded : decodedSubscription "dmxlc3M6Ly91QGgK".toList = some "vless://u@h\n".toList :=
    decodedSubscription_of_decode (by decide) (by decide) (by decide)
  have huri : ReadsLine urlCodec (fun _ _ => False) "vless://u@h".toList
      [sampleNode "vless://u@h" "h" ""] := .uri (by decide) (by decide) (by decide) rfl
  exact parseInput_of_decoded (by decide) (by decide) (by decide) hdecoded (by decide)
    (.cons huri (.cons (.skipped (.inl rfl)) .nil)) (by simp) (by simp [maxNodes])

/-- Two such lines: they are taken for one, but the line break keeps the URIs apart. -/
theorem parse_append_lines :
    parseInput urlCodec ("dmxlc3M6Ly91QGgK".toList ++ '\n' :: "dmxlc3M6Ly91QGgK".toList) =
      .ok ([sampleNode "vless://u@h" "h" ""] ++ [sampleNode "vless://u@h" "h" ""]) := by
  have hdecoded : decodedSubscription "dmxlc3M6Ly91QGgK".toList = some "vless://u@h\n".toList :=
    decodedSubscription_of_decode (by decide) (by decide) (by decide)
  refine (parse_append_iff (by decide) (by decide) parseInput_line parseInput_line (by decide)
    (by decide)).mpr fun da db hda hdb _ => ?_
  cases Option.some.inj (hda.symm.trans hdecoded)
  exact .inl (by decide)

/-- **Two subscriptions taken for one.**  A URI in Base64, without a line break and of a length that
needs no padding, twice: there is one node, whose URI is both in a row. -/
theorem lines_glued :
    parseInput urlCodec "dmxlc3M6Ly91QGhv".toList = .ok [sampleNode "vless://u@ho" "ho" ""] ∧
    parseInput urlCodec ("dmxlc3M6Ly91QGhv".toList ++ '\n' :: "dmxlc3M6Ly91QGhv".toList) =
      .ok [sampleNode "vless://u@hovless://u@ho" "hovless" "//u@ho"] ∧
    [sampleNode "vless://u@hovless://u@ho" "hovless" "//u@ho"] ≠
      [sampleNode "vless://u@ho" "ho" ""] ++ [sampleNode "vless://u@ho" "ho" ""] := by
  refine ⟨?_, ?_, by simp⟩
  · have hdecoded : decodedSubscription "dmxlc3M6Ly91QGhv".toList = some "vless://u@ho".toList :=
      decodedSubscription_of_decode (by decide) (by decide) (by decide)
    exact parseInput_of_decoded (by decide) (by decide) (by decide) hdecoded (by decide)
      (readsLines_singleton_iff.mpr (.uri (by decide) (by decide) (by decide) rfl)) (by simp)
      (by simp [maxNodes])
  · have hdecoded : decodedSubscription
        ("dmxlc3M6Ly91QGhv".toList ++ '\n' :: "dmxlc3M6Ly91QGhv".toList) =
          some "vless://u@hovless://u@ho".toList :=
      decodedSubscription_of_decode (by decide) (by decide) (by decide)
    exact parseInput_of_decoded (by decide) (by decide) (by decide) hdecoded (by decide)
      (readsLines_singleton_iff.mpr (.uri (by decide) (by decide) (by decide) rfl)) (by simp)
      (by simp [maxNodes])

end SingBoxMini.Sublink
