import Mathlib.Data.List.DropRight
import Mathlib.Tactic.IntervalCases

/-!
# Support — Text

The functions of Rust's `char` and `str` the program uses, on lists of characters where they look
inside a string, and the errors of `anyhow` with `ensure!`.
-/

/-- An `anyhow::Error`: its texts, the outermost context first. -/
abbrev AnyhowError := List String

/-- `ensure!` -/
def ensure (p : Prop) [Decidable p] (message : String) : Except AnyhowError Unit :=
  if p then .ok () else .error [message]

theorem ensure_ok_iff {p : Prop} [Decidable p] {message : String} :
    ensure p message = .ok () ↔ p := by
  unfold ensure
  by_cases h : p <;> simp [h]

/-- A sequence of checks passes if each does. -/
theorem checks_ok_iff {ε : Type} {x y : Except ε Unit} :
    (x >>= fun _ => y) = .ok () ↔ x = .ok () ∧ y = .ok () := by
  cases x <;> simp [bind, Except.bind]

/-- A computation succeeds if its parts do. -/
theorem bind_ok_iff {ε α β : Type} {x : Except ε α} {f : α → Except ε β} {b : β} :
    (x >>= f) = .ok b ↔ ∃ a, x = .ok a ∧ f a = .ok b := by
  cases x <;> simp [bind, Except.bind]

theorem bind_of_ok {ε α β : Type} {x : Except ε α} {a : α} (h : x = .ok a) (f : α → Except ε β) :
    (x >>= f) = f a := by
  rw [h]
  rfl

/-- `ok_or_else` with an error of a text. -/
def okOr {α : Type} (x : Option α) (message : String) : Except AnyhowError α :=
  x.elim (.error [message]) .ok

theorem okOr_ok_iff {α : Type} {x : Option α} {message : String} {a : α} :
    okOr x message = .ok a ↔ x = some a := by
  cases x <;> simp [okOr]

/-- `context`: an error of another library becomes the cause of a message. -/
def context {α : Type} (message : String) (x : Except String α) : Except AnyhowError α :=
  x.mapError fun error => [message, error]

theorem mapError_ok_iff {ε ε' α : Type} {f : ε → ε'} {x : Except ε α} {a : α} :
    x.mapError f = .ok a ↔ x = .ok a := by
  cases x <;> simp [Except.mapError]

theorem context_ok_iff {α : Type} {message : String} {x : Except String α} {a : α} :
    context message x = .ok a ↔ x = .ok a := mapError_ok_iff

namespace Text

/-- `char::is_control`: the general category `Cc`. -/
def isControl (c : Char) : Bool := c.val ≤ 0x1F || (0x7F ≤ c.val && c.val ≤ 0x9F)

/-- `char::is_whitespace`: the property `White_Space`. -/
def isWhitespace (c : Char) : Bool :=
  (0x09 ≤ c.val && c.val ≤ 0x0D) || c.val == 0x20 || c.val == 0x85 || c.val == 0xA0 ||
    c.val == 0x1680 || (0x2000 ≤ c.val && c.val ≤ 0x200A) || c.val == 0x2028 || c.val == 0x2029 ||
    c.val == 0x202F || c.val == 0x205F || c.val == 0x3000

variable {s pattern before after t line sep : List Char} {c : Char} {parts : List (List Char)}

theorem visible_of_all (h : s.all (!isWhitespace ·) = true) :
    ∀ c ∈ s, isWhitespace c = false := by
  intro c hc
  simpa using List.all_eq_true.mp h c hc

/-- `str::trim` -/
def trim (s : List Char) : List Char :=
  ((s.dropWhile isWhitespace).reverse.dropWhile isWhitespace).reverse

/-- `str::trim_end_matches` with a character. -/
def trimEndMatches (c : Char) (s : List Char) : List Char :=
  (s.reverse.dropWhile (· = c)).reverse

/-- `str::trim_start_matches` with a character. -/
def trimStartMatches (c : Char) (s : List Char) : List Char := s.dropWhile (· = c)

/-- `str::split_once`: around the first occurrence of the pattern. -/
def splitOnce (pattern : List Char) : List Char → Option (List Char × List Char)
  | [] => if pattern = [] then some ([], []) else none
  | c :: rest =>
    if pattern.isPrefixOf (c :: rest) then some ([], (c :: rest).drop pattern.length)
    else (splitOnce pattern rest).map fun (before, after) => (c :: before, after)

/-- `str::rsplit_once` with a character: around its last occurrence. -/
def rsplitOnce (c : Char) (s : List Char) : Option (List Char × List Char) :=
  (splitOnce [c] s.reverse).map fun (after, before) => (before.reverse, after.reverse)

/-- `str::contains` -/
def contains (pattern s : List Char) : Bool := (splitOnce pattern s).isSome

/-- `str::strip_prefix` -/
def stripStart (start s : List Char) : Option (List Char) :=
  if start.isPrefixOf s then some (s.drop start.length) else none

theorem stripStart_append (start s : List Char) : stripStart start (start ++ s) = some s := by
  rw [stripStart, if_pos (List.isPrefixOf_iff_prefix.mpr (List.prefix_append _ _)), List.drop_left]

/-- `str::replace` with a character for the pattern. -/
def replace (c : Char) (new s : List Char) : List Char :=
  s.flatMap fun d => if d = c then new else [d]

theorem replace_cons_self (c : Char) (new s : List Char) :
    replace c new (c :: s) = new ++ replace c new s := by
  rw [replace, List.flatMap_cons, if_pos rfl, replace]

theorem replace_cons_of_ne {d : Char} (h : d ≠ c) (new s : List Char) :
    replace c new (d :: s) = d :: replace c new s := by
  rw [replace, List.flatMap_cons, if_neg h, List.singleton_append, replace]

/-- A character of the new text is from the old one or has been put in. -/
theorem of_mem_replace {d : Char} {new : List Char} (h : d ∈ replace c new s) :
    d ∈ s ∨ d ∈ new := by
  obtain ⟨e, he, hd⟩ := List.mem_flatMap.mp h
  split_ifs at hd with hc
  · exact .inr hd
  · exact .inl (List.mem_singleton.mp hd ▸ he)

/-- `str::to_ascii_lowercase` -/
def toAsciiLowercase (s : List Char) : List Char := s.map Char.toLower

/-- `str::eq_ignore_ascii_case` -/
def eqIgnoreAsciiCase (s t : List Char) : Bool := toAsciiLowercase s == toAsciiLowercase t

/-- A line without the carriage return before its end. -/
def stripReturn (line : List Char) : List Char :=
  if line.getLast? = some '\r' then line.dropLast else line

/-- `str::lines` -/
def lines (s : List Char) : List (List Char) :=
  let parts := s.splitOn '\n'
  parts.dropLast.map stripReturn ++ if parts.getLastD [] = [] then [] else [parts.getLastD []]

/-- The digits of an unsigned number below the bound, one by one. -/
def parseDigits (bound value : Nat) : List Char → Except String Nat
  | [] => .ok value
  | c :: rest =>
    if c.isDigit then
      let value := value * 10 + (c.toNat - '0'.toNat)
      if value < bound then parseDigits bound value rest
      else .error "number too large to fit in target type"
    else .error "invalid digit found in string"

/-- `str::parse`, for an unsigned number below the bound. -/
def parseUnsigned (bound : Nat) : List Char → Except String Nat
  | [] => .error "cannot parse integer from empty string"
  | ['+'] => .error "invalid digit found in string"
  | '+' :: digits => parseDigits bound 0 digits
  | digits => parseDigits bound 0 digits

/-- `str::parse::<u16>` -/
def parseU16 : List Char → Except String Nat := parseUnsigned (2 ^ 16)

/-- `str::parse::<u64>` -/
def parseU64 : List Char → Except String Nat := parseUnsigned (2 ^ 64)

/-- Where two lists around a separator can be the same list. -/
theorem append_cons_eq_iff {α : Type} {c : α} {n p m q : List α} :
    n ++ c :: p = m ++ c :: q ↔ (n = m ∧ p = q) ∨ (∃ x, n = m ++ c :: x ∧ q = x ++ c :: p) ∨
      ∃ x, m = n ++ c :: x ∧ p = x ++ c :: q := by
  constructor
  · intro h
    rcases List.append_eq_append_iff.mp h with ⟨x, hm, hp⟩ | ⟨x, hn, hq⟩
    · cases x with
      | nil =>
          obtain ⟨-, rfl⟩ := List.cons.inj hp
          exact .inl ⟨by simpa using hm.symm, rfl⟩
      | cons d x =>
          obtain ⟨rfl, rfl⟩ := List.cons.inj hp
          exact .inr (.inr ⟨x, hm, rfl⟩)
    · cases x with
      | nil =>
          obtain ⟨-, rfl⟩ := List.cons.inj hq
          exact .inl ⟨by simpa using hn, rfl⟩
      | cons d x =>
          obtain ⟨rfl, rfl⟩ := List.cons.inj hq
          exact .inr (.inl ⟨x, hn, rfl⟩)
  · rintro (⟨rfl, rfl⟩ | ⟨x, rfl, rfl⟩ | ⟨x, rfl, rfl⟩) <;> simp

/-! ### Searching -/

/-- Where `split_once` splits. -/
theorem splitOnce_eq_some (h : splitOnce pattern s = some (before, after)) :
    s = before ++ pattern ++ after := by
  induction s generalizing before with
  | nil =>
      rw [splitOnce] at h
      split_ifs at h with hpattern
      cases h
      rw [hpattern]
      rfl
  | cons c s ih =>
      rw [splitOnce] at h
      split_ifs at h with hstart
      · cases h
        obtain ⟨t, ht⟩ := List.isPrefixOf_iff_prefix.mp hstart
        rw [← ht, List.drop_left, List.nil_append]
      · obtain ⟨⟨before', after'⟩, hsplit, hpair⟩ := Option.map_eq_some_iff.mp h
        cases hpair
        rw [ih hsplit]
        rfl

/-- A pattern is found where its first character is. -/
theorem splitOnce_append (hc : c ∉ s) (pattern t : List Char) :
    splitOnce (c :: pattern) (s ++ (c :: pattern) ++ t) = some (s, t) := by
  induction s with
  | nil =>
      rw [List.nil_append, List.cons_append, splitOnce, if_pos (by simp)]
      simp
  | cons d s ih =>
      have hd : ¬ (c :: pattern).isPrefixOf (d :: (s ++ (c :: pattern) ++ t)) = true := by
        rw [List.isPrefixOf_iff_prefix, List.cons_prefix_cons]
        rintro ⟨rfl, -⟩
        exact hc List.mem_cons_self
      rw [List.cons_append, List.cons_append, splitOnce, if_neg hd,
        ih fun h => hc (List.mem_cons_of_mem _ h)]
      rfl

theorem splitOnce_eq_none (h : c ∉ s) : splitOnce [c] s = none := by
  cases hs : splitOnce [c] s with
  | none => rfl
  | some parts =>
      have hparts := splitOnce_eq_some hs
      rw [hparts] at h
      simp at h

/-- A character is found at its first occurrence. -/
theorem not_mem_of_splitOnce (h : splitOnce [c] s = some (before, after)) : c ∉ before := by
  induction s generalizing before with
  | nil => cases h
  | cons d s ih =>
      rw [splitOnce] at h
      split_ifs at h with hstart
      · cases h
        exact List.not_mem_nil
      · obtain ⟨⟨before', after'⟩, hsplit, hpair⟩ := Option.map_eq_some_iff.mp h
        cases hpair
        rw [List.mem_cons, not_or]
        refine ⟨fun hcd => hstart ?_, ih hsplit⟩
        simp [hcd]

theorem rsplitOnce_append (s : List Char) (h : c ∉ t) :
    rsplitOnce c (s ++ c :: t) = some (s, t) := by
  have hreverse : (s ++ c :: t).reverse = t.reverse ++ [c] ++ s.reverse := by simp
  rw [rsplitOnce, hreverse, splitOnce_append (by simpa using h) []]
  simp

/-- Where `rsplit_once` splits. -/
theorem rsplitOnce_eq_some (h : rsplitOnce c s = some (before, after)) :
    s = before ++ c :: after := by
  obtain ⟨⟨after', before'⟩, hsplit, hpair⟩ := Option.map_eq_some_iff.mp h
  cases hpair
  have hs := congrArg List.reverse (splitOnce_eq_some hsplit)
  rw [List.reverse_reverse] at hs
  rw [hs]
  simp

theorem rsplitOnce_eq_none (h : c ∉ s) : rsplitOnce c s = none := by
  rw [rsplitOnce, splitOnce_eq_none (by simpa using h), Option.map_none]

/-- A text contains its infixes. -/
theorem contains_iff : contains pattern s = true ↔ pattern <:+: s := by
  induction s with
  | nil =>
      rw [contains, splitOnce, List.infix_nil]
      split_ifs with h <;> simp [h]
  | cons c s ih =>
      rw [contains, splitOnce, List.infix_cons_iff, ← List.isPrefixOf_iff_prefix, ← ih, contains]
      split_ifs with h <;> simp [h]

/-- A pattern is not across a character it does not have. -/
theorem infix_append_cons_iff (hc : c ∉ pattern) :
    pattern <:+: s ++ c :: t ↔ pattern <:+: s ∨ pattern <:+: t := by
  constructor
  · rintro ⟨before, after, h⟩
    rw [List.append_assoc] at h
    rcases List.append_eq_append_iff.mp h with ⟨x, rfl, hx⟩ | ⟨x, rfl, hx⟩
    · -- it starts in the first part, and ends there
      rcases List.append_eq_append_iff.mp hx with ⟨y, rfl, -⟩ | ⟨y, rfl, hy⟩
      · exact .inl ⟨before, y, by simp⟩
      · cases y with
        | nil => exact .inl ⟨before, [], by simp⟩
        | cons d y =>
            obtain ⟨rfl, -⟩ := List.cons.inj hy
            exact absurd (by simp) hc
    · cases x with
      | nil =>
          cases pattern with
          | nil => exact .inl List.nil_infix
          | cons d pattern =>
              obtain ⟨rfl, -⟩ := List.cons.inj hx
              exact absurd List.mem_cons_self hc
      | cons d x =>
          obtain ⟨-, rfl⟩ := List.cons.inj hx
          exact .inr ⟨x, after, by simp⟩
  · rintro (h | h)
    · exact h.trans ⟨[], c :: t, by simp⟩
    · exact h.trans ⟨s ++ [c], [], by simp⟩

/-- A pattern at the start is not across a character it does not have. -/
theorem prefix_of_prefix_append_cons (hc : c ∉ pattern) (h : pattern <+: s ++ c :: t) :
    pattern <+: s := by
  obtain ⟨after, h⟩ := h
  rcases List.append_eq_append_iff.mp h with ⟨x, rfl, -⟩ | ⟨x, rfl, hx⟩
  · exact ⟨x, rfl⟩
  · cases x with
    | nil => exact ⟨[], by simp⟩
    | cons d x =>
        obtain ⟨rfl, -⟩ := List.cons.inj hx
        exact absurd (by simp) hc

/-- Blanks around a text hide nothing of it. -/
theorem infix_trim_iff (hpattern : ∀ c ∈ pattern, isWhitespace c = false) :
    pattern <:+: trim s ↔ pattern <:+: s := by
  have hdrop : ∀ (pattern s : List Char), (∀ c ∈ pattern, isWhitespace c = false) →
      (pattern <:+: s.dropWhile isWhitespace ↔ pattern <:+: s) := by
    intro pattern s hpattern
    induction s with
    | nil => rfl
    | cons c s ih =>
        by_cases hc : isWhitespace c
        · rw [List.dropWhile_cons_of_pos hc, ih]
          have hnot : c ∉ pattern := fun hmem => by simp [hpattern c hmem] at hc
          have hcons := infix_append_cons_iff (s := []) (t := s) hnot
          rw [List.nil_append] at hcons
          rw [hcons, or_iff_right_of_imp]
          intro hnil
          rw [List.infix_nil.mp hnil]
          exact List.nil_infix
        · rw [List.dropWhile_cons_of_neg hc]
  rw [trim, ← List.reverse_infix, List.reverse_reverse,
    hdrop _ _ (fun c hc => hpattern c (List.mem_reverse.mp hc)), List.reverse_infix,
    hdrop _ _ hpattern]

/-! ### Letters and digits -/

theorem isUpper_iff : c.isUpper = true ↔ 65 ≤ c.val.toNat ∧ c.val.toNat ≤ 90 := by
  show decide (65 ≤ c.val ∧ c.val ≤ 90) = true ↔ _
  rw [decide_eq_true_eq]
  exact and_congr UInt32.le_iff_toNat_le UInt32.le_iff_toNat_le

theorem isLower_iff : c.isLower = true ↔ 97 ≤ c.val.toNat ∧ c.val.toNat ≤ 122 := by
  show (decide (97 ≤ c.val) && decide (c.val ≤ 122)) = true ↔ _
  rw [Bool.and_eq_true, decide_eq_true_eq, decide_eq_true_eq]
  exact and_congr UInt32.le_iff_toNat_le UInt32.le_iff_toNat_le

theorem isDigit_iff : c.isDigit = true ↔ 48 ≤ c.val.toNat ∧ c.val.toNat ≤ 57 := by
  show (decide (48 ≤ c.val) && decide (c.val ≤ 57)) = true ↔ _
  rw [Bool.and_eq_true, decide_eq_true_eq, decide_eq_true_eq]
  exact and_congr UInt32.le_iff_toNat_le UInt32.le_iff_toNat_le

theorem isAlphanum_iff :
    c.isAlphanum = true ↔ c.isUpper = true ∨ c.isLower = true ∨ c.isDigit = true := by
  show ((c.isUpper || c.isLower) || c.isDigit) = true ↔ _
  rw [Bool.or_eq_true, Bool.or_eq_true, or_assoc]

theorem toLower_of_not_isUpper (h : ¬ c.isUpper = true) : c.toLower = c := by
  refine dif_neg fun hupper => h (isUpper_iff.mpr ?_)
  exact ⟨UInt32.le_iff_toNat_le.mp hupper.1, UInt32.le_iff_toNat_le.mp hupper.2⟩

theorem toLower_of_isWhitespace (h : isWhitespace c = true) : c.toLower = c := by
  refine toLower_of_not_isUpper fun hupper => ?_
  have hbounds := isUpper_iff.mp hupper
  simp only [isWhitespace, Bool.or_eq_true, Bool.and_eq_true, decide_eq_true_eq, beq_iff_eq] at h
  simp only [UInt32.le_iff_toNat_le, ← UInt32.toNat_inj, UInt32.reduceToNat] at h
  omega

/-! ### Blanks and lines -/

theorem trim_eq (s : List Char) : trim s = (s.dropWhile isWhitespace).rdropWhile isWhitespace := rfl

/-- Without the blanks around it a text is the same without its other blanks. -/
theorem filter_trim (s : List Char) :
    (trim s).filter (!isWhitespace ·) = s.filter (!isWhitespace ·) := by
  have hdrop : ∀ s : List Char,
      (s.dropWhile isWhitespace).filter (!isWhitespace ·) = s.filter (!isWhitespace ·) := by
    intro s
    induction s with
    | nil => rfl
    | cons c s ih =>
        by_cases hc : isWhitespace c
        · rw [List.dropWhile_cons_of_pos hc, ih, List.filter_cons_of_neg (by simpa using hc)]
        · rw [List.dropWhile_cons_of_neg hc]
  rw [trim, List.filter_reverse, hdrop, List.filter_reverse, List.reverse_reverse, hdrop]

/-- A character that is no blank stays. -/
theorem mem_trim_of_mem (hc : isWhitespace c = false) (h : c ∈ s) :
    c ∈ trim s := by
  have hmem : c ∈ (trim s).filter (!isWhitespace ·) := by
    rw [filter_trim]
    exact List.mem_filter.mpr ⟨h, by rw [hc]; rfl⟩
  exact (List.mem_filter.mp hmem).1

/-- A text of blanks only. -/
theorem trim_eq_nil_iff : trim s = [] ↔ ∀ c ∈ s, isWhitespace c = true := by
  rw [trim_eq, List.rdropWhile_eq_nil_iff]
  constructor
  · intro h
    by_contra hnot
    have hne : s.dropWhile isWhitespace ≠ [] := by
      rwa [Ne, List.dropWhile_eq_nil_iff]
    have hhead := List.head_dropWhile_not isWhitespace hne
    rw [h _ (List.head_mem hne)] at hhead
    cases hhead
  · intro h c hc
    exact h c ((List.dropWhile_sublist _).mem hc)

/-- Blanks in front. -/
theorem trim_append_left (h : trim s = []) : trim (s ++ t) = trim t := by
  rw [trim_eq, trim_eq, List.dropWhile_append_of_pos (trim_eq_nil_iff.mp h)]

/-- Blanks behind. -/
theorem trim_append_right (h : trim t = []) : trim (s ++ t) = trim s := by
  by_cases hs : trim s = []
  · rw [trim_append_left hs, h, hs]
  · have hne : s.dropWhile isWhitespace ≠ [] := by
      rwa [Ne, List.dropWhile_eq_nil_iff, ← trim_eq_nil_iff]
    rw [trim_eq, trim_eq, List.dropWhile_append, if_neg (by simpa using hne), List.rdropWhile,
      List.reverse_append, List.dropWhile_append_of_pos]
    · rfl
    · exact fun c hc => trim_eq_nil_iff.mp h c (List.mem_reverse.mp hc)

/-- Two texts that are not blank. -/
theorem trim_append (hs : trim s ≠ []) (ht : trim t ≠ []) :
    trim (s ++ t) = s.dropWhile isWhitespace ++ t.rdropWhile isWhitespace := by
  have hne : s.dropWhile isWhitespace ≠ [] := by
    rwa [Ne, List.dropWhile_eq_nil_iff, ← trim_eq_nil_iff]
  have hne' : t.reverse.dropWhile isWhitespace ≠ [] := by
    rw [Ne, List.dropWhile_eq_nil_iff]
    exact fun h => ht (trim_eq_nil_iff.mpr fun c hc => h c (List.mem_reverse.mpr hc))
  rw [trim_eq, List.dropWhile_append, if_neg (by simpa using hne), List.rdropWhile,
    List.reverse_append, List.dropWhile_append, if_neg (by simpa using hne'), List.reverse_append,
    List.reverse_reverse, List.rdropWhile]

/-- A text without the blanks around it has none around it. -/
theorem trim_trim (s : List Char) : trim (trim s) = trim s := by
  by_cases hs : trim s = []
  · rw [hs]
    rfl
  · -- the first character is the one the blanks in front end at
    obtain ⟨c, t, ht⟩ := List.exists_cons_of_ne_nil hs
    obtain ⟨w, hw⟩ : trim s <+: s.dropWhile isWhitespace := List.rdropWhile_prefix _ _
    rw [ht, List.cons_append] at hw
    have hc : isWhitespace c = false := by
      have hhead := List.head_dropWhile_not isWhitespace (l := s) (by simp [← hw])
      simpa only [← hw, List.head_cons] using hhead
    have hdrop : (trim s).dropWhile isWhitespace = trim s := by
      rw [ht, List.dropWhile_cons_of_neg (by simp [hc])]
    rw [trim_eq (trim s), hdrop, trim_eq s, List.rdropWhile_idempotent]

/-- A text without blanks around it. -/
theorem trim_eq_self_iff :
    trim s = s ↔ s.dropWhile isWhitespace = s ∧ s.rdropWhile isWhitespace = s := by
  constructor
  · intro h
    have hdrop : s.dropWhile isWhitespace = s := by
      have hlength : (trim s).length ≤ (s.dropWhile isWhitespace).length :=
        (List.rdropWhile_prefix isWhitespace _).length_le
      rw [h] at hlength
      exact (List.dropWhile_suffix isWhitespace).eq_of_length_le hlength
    rw [trim_eq, hdrop] at h
    exact ⟨hdrop, h⟩
  · rintro ⟨hdrop, hrdrop⟩
    rw [trim_eq, hdrop, hrdrop]

/-- A text without blanks. -/
theorem trim_of_visible (h : ∀ c ∈ s, isWhitespace c = false) : trim s = s := by
  rw [trim_eq_self_iff]
  constructor
  · cases s with
    | nil => rfl
    | cons c s => exact List.dropWhile_cons_of_neg (by simp [h c List.mem_cons_self])
  · rw [List.rdropWhile_eq_self_iff]
    intro hne
    simp [h _ (List.getLast_mem hne)]

theorem trim_dropWhile (s : List Char) : trim (s.dropWhile isWhitespace) = trim s := by
  rw [trim_eq, trim_eq, List.dropWhile_idempotent]

theorem trim_rdropWhile (s : List Char) : trim (s.rdropWhile isWhitespace) = trim s := by
  have hblank : trim (s.rtakeWhile isWhitespace) = [] :=
    trim_eq_nil_iff.mpr fun c hc => List.mem_rtakeWhile_imp hc
  have hparts : s.rdropWhile isWhitespace ++ s.rtakeWhile isWhitespace = s :=
    List.rdropWhile_append_rtakeWhile
  conv_rhs => rw [← hparts, trim_append_right hblank]

/-- Two lines without the blanks around them. -/
theorem trim_append_newline (hs : trim s ≠ []) (ht : trim t ≠ []) :
    trim (s ++ '\n' :: t) = s.dropWhile isWhitespace ++ '\n' :: t.rdropWhile isWhitespace := by
  have ht' : trim ('\n' :: t) ≠ [] := by
    rwa [← List.singleton_append, trim_append_left (by decide)]
  have hne : t.reverse.dropWhile isWhitespace ≠ [] := by
    rw [Ne, List.dropWhile_eq_nil_iff]
    exact fun h => ht (trim_eq_nil_iff.mpr fun c hc => h c (List.mem_reverse.mpr hc))
  rw [trim_append hs ht', List.rdropWhile, List.reverse_cons, List.dropWhile_append,
    if_neg (by simpa using hne), List.reverse_append]
  rfl

theorem trim_stripReturn (line : List Char) : trim (stripReturn line) = trim line := by
  rw [stripReturn]
  split_ifs with h
  · obtain ⟨init, rfl⟩ := List.getLast?_eq_some_iff.mp h
    rw [List.dropLast_concat, trim_append_right (by decide)]
  · rfl

/-- **Lines without the blanks around them** are the parts between line feeds, but for empty
ones. -/
theorem filter_map_trim_lines (s : List Char) :
    ((lines s).map trim).filter (· ≠ []) = ((s.splitOn '\n').map trim).filter (· ≠ []) := by
  obtain ⟨init, last, hparts⟩ : ∃ init last, s.splitOn '\n' = init ++ [last] :=
    ⟨_, _, (List.dropLast_concat_getLast (List.splitOn_ne_nil _ s)).symm⟩
  have hinit : (init.map stripReturn).map trim = init.map trim := by
    rw [List.map_map]
    exact List.map_congr_left fun line _ => trim_stripReturn line
  have hlast : ((if last = [] then [] else [last]).map trim).filter (· ≠ []) =
      [trim last].filter (· ≠ []) := by
    split_ifs with h
    · rw [h]
      rfl
    · rfl
  rw [lines, hparts, List.dropLast_concat, List.getLastD_concat, List.map_append,
    List.filter_append, hinit, hlast, List.map_append, List.filter_append, List.map_singleton]

/-- A part has none of the characters the text was split at. -/
theorem not_mem_of_mem_splitOn {part : List Char} (h : part ∈ s.splitOn c) :
    c ∉ part := by
  induction s generalizing part with
  | nil =>
      rw [List.splitOn_nil, List.mem_singleton] at h
      simp [h]
  | cons d s ih =>
      rw [List.splitOn_cons_eq_if_modifyHead] at h
      split_ifs at h with hd
      · rcases List.mem_cons.mp h with rfl | h
        · exact List.not_mem_nil
        · exact ih h
      · obtain ⟨first, rest, hs⟩ := List.exists_cons_of_ne_nil (List.splitOn_ne_nil c s)
        rw [hs, List.modifyHead_cons] at h
        rcases List.mem_cons.mp h with rfl | h
        · rw [List.mem_cons, not_or]
          exact ⟨fun heq => hd (by simp [heq]), ih (by simp [hs])⟩
        · exact ih (by simp [hs, h])

/-- A text of one line. -/
theorem filter_map_trim_lines_of_single (h : '\n' ∉ s) (hs : trim s ≠ []) :
    ((lines s).map trim).filter (· ≠ []) = [trim s] := by
  rw [filter_map_trim_lines, List.splitOn_eq_singleton h, List.map_singleton]
  simp [hs]

theorem mem_trim (h : c ∈ trim s) : c ∈ s := by
  rw [trim, List.mem_reverse] at h
  have hmem := (List.dropWhile_sublist _).mem h
  exact (List.dropWhile_sublist _).mem (List.mem_reverse.mp hmem)

/-- Texts in a row: the last part of the first and the first of the second become one. -/
theorem splitOn_append (c : Char) (s t : List Char) :
    ∃ init last first rest, s.splitOn c = init ++ [last] ∧ t.splitOn c = first :: rest ∧
      (s ++ t).splitOn c = init ++ (last ++ first) :: rest := by
  obtain ⟨first, rest, ht⟩ := List.exists_cons_of_ne_nil (List.splitOn_ne_nil c t)
  induction s with
  | nil => exact ⟨[], [], first, rest, by simp, ht, by simp [ht]⟩
  | cons d s ih =>
      obtain ⟨init, last, first', rest', hs, ht', hst⟩ := ih
      rw [ht] at ht'
      cases ht'
      by_cases hd : d = c
      · refine ⟨[] :: init, last, first, rest, ?_, ht, ?_⟩
        · rw [List.splitOn_cons_eq_if_modifyHead, if_pos (by simpa using hd), hs, List.cons_append]
        · rw [List.cons_append, List.splitOn_cons_eq_if_modifyHead, if_pos (by simpa using hd), hst,
            List.cons_append]
      · rw [List.cons_append, List.splitOn_cons_eq_if_modifyHead,
          List.splitOn_cons_eq_if_modifyHead, if_neg (by simpa using hd),
          if_neg (by simpa using hd), hs, hst]
        cases init with
        | nil => exact ⟨[], d :: last, first, rest, rfl, ht, rfl⟩
        | cons line init => exact ⟨(d :: line) :: init, last, first, rest, rfl, ht, rfl⟩

/-- Texts with the separator between them. -/
theorem splitOn_append_cons (c : Char) (s t : List Char) :
    (s ++ c :: t).splitOn c = s.splitOn c ++ t.splitOn c := by
  obtain ⟨init, last, first, rest, hs, ht, hst⟩ := splitOn_append c s (c :: t)
  rw [List.splitOn_cons_eq_if_modifyHead, if_pos (by simp)] at ht
  cases ht
  rw [hst, hs, List.append_nil, List.append_assoc, List.singleton_append]

theorem stripReturn_of_not_mem (h : '\r' ∉ line) : stripReturn line = line :=
  if_neg fun hlast => h (List.mem_of_getLast? hlast)

theorem mem_intercalate (h : line ∈ parts) (hc : c ∈ line) : c ∈ sep.intercalate parts := by
  induction parts with
  | nil => cases h
  | cons first parts ih =>
      cases parts with
      | nil =>
          rw [List.mem_singleton.mp h] at hc
          rwa [List.intercalate_singleton]
      | cons second parts =>
          rw [List.intercalate_cons_cons, List.mem_append, List.mem_append]
          rcases List.mem_cons.mp h with rfl | h
          · exact .inl (.inl hc)
          · exact .inr (ih h)

theorem of_mem_intercalate (h : c ∈ sep.intercalate parts) :
    c ∈ sep ∨ ∃ part ∈ parts, c ∈ part := by
  induction parts with
  | nil => cases h
  | cons first parts ih =>
      cases parts with
      | nil =>
          rw [List.intercalate_singleton] at h
          exact .inr ⟨first, List.mem_cons_self, h⟩
      | cons second parts =>
          rw [List.intercalate_cons_cons, List.mem_append, List.mem_append] at h
          rcases h with (hfirst | hsep) | hrest
          · exact .inr ⟨first, List.mem_cons_self, hfirst⟩
          · exact .inl hsep
          · refine (ih hrest).imp id ?_
            rintro ⟨part, hpart, hc⟩
            exact ⟨part, List.mem_cons_of_mem first hpart, hc⟩

theorem length_intercalate_singleton (c : Char) (parts : List (List Char)) :
    ([c].intercalate parts).length = (parts.map List.length).sum + (parts.length - 1) := by
  induction parts with
  | nil => rfl
  | cons first parts ih =>
      cases parts with
      | nil => simp
      | cons second parts =>
          simp only [List.intercalate_cons_cons, List.length_append, ih, List.map_cons,
            List.sum_cons, List.length_cons, List.length_nil]
          omega

/-- **Parts with a separator between them**, read character by character: a reader that is between
two parts comes behind the next one, where it may end, and with the separator between two again. -/
theorem foldlM_intercalate {σ β γ : Type} {step : σ → Char → Option σ} {finish : σ → Option γ}
    {write : β → List Char} {between : List β → σ} {result : List β → γ}
    (hfinish : ∀ xs, finish (between xs) = some (result xs))
    (hpart : ∀ xs x, ∃ s, (write x).foldlM step (between xs) = some s ∧
      finish s = some (result (xs ++ [x])) ∧ sep.foldlM step s = some (between (xs ++ [x])))
    (ys xs : List β) :
    ((sep.intercalate (ys.map write)).foldlM step (between xs)).bind finish =
      some (result (xs ++ ys)) := by
  induction ys generalizing xs with
  | nil =>
      rw [List.append_nil]
      exact hfinish xs
  | cons y ys ih =>
      obtain ⟨s, hs, hend, hsep⟩ := hpart xs y
      cases ys with
      | nil => rw [List.map_singleton, List.intercalate_singleton, hs, Option.bind_some, hend]
      | cons z ys =>
          rw [List.map_cons, List.map_cons, List.intercalate_cons_cons, List.foldlM_append,
            List.foldlM_append, hs, Option.bind_eq_bind, Option.bind_some, hsep]
          refine (ih (xs ++ [y])).trans ?_
          rw [List.append_assoc, List.singleton_append]

/-- The characters of a part are characters of the text. -/
theorem mem_of_mem_splitOn {sep : Char} {part : List Char} (h : part ∈ s.splitOn sep)
    (hc : c ∈ part) : c ∈ s := by
  have hmem : c ∈ [sep].intercalate (s.splitOn sep) := mem_intercalate h hc
  rwa [List.intercalate_splitOn] at hmem

theorem intercalate_concat_nil (c : Char) (h : parts ≠ []) :
    [c].intercalate (parts ++ [[]]) = [c].intercalate parts ++ [c] := by
  induction parts with
  | nil => exact absurd rfl h
  | cons first parts ih =>
      cases parts with
      | nil => simp [List.intercalate_cons_cons]
      | cons second parts =>
          rw [List.cons_append, List.cons_append, List.intercalate_cons_cons,
            List.intercalate_cons_cons, ← List.cons_append, ih (List.cons_ne_nil _ _),
            List.append_assoc _ _ [c]]

/-- The lines of a text put together again, up to line feeds at the end. -/
theorem trimEndMatches_intercalate_lines (h : '\r' ∉ s) :
    trimEndMatches '\n' (['\n'].intercalate (lines s)) = trimEndMatches '\n' s := by
  obtain ⟨init, last, hparts⟩ : ∃ init last, s.splitOn '\n' = init ++ [last] :=
    ⟨_, _, (List.dropLast_concat_getLast (List.splitOn_ne_nil _ s)).symm⟩
  have hs : ['\n'].intercalate (init ++ [last]) = s := by
    rw [← hparts, List.intercalate_splitOn]
  have hreturn : init.map stripReturn = init := by
    refine (List.map_congr_left fun line hline => ?_).trans (List.map_id init)
    exact stripReturn_of_not_mem fun hc =>
      h (hs ▸ mem_intercalate (List.mem_append_left [last] hline) hc)
  rw [lines, hparts, List.dropLast_concat, List.getLastD_concat, hreturn]
  split_ifs with hlast
  · rw [List.append_nil, ← hs, hlast]
    by_cases hinit : init = []
    · rw [hinit]
      rfl
    · rw [intercalate_concat_nil '\n' hinit]
      simp [trimEndMatches]
  · rw [hs]

/-- A line is a part between line feeds, or less. -/
theorem exists_of_mem_lines (h : line ∈ lines s) :
    ∃ part ∈ s.splitOn '\n', line ⊆ part := by
  obtain ⟨init, last, hparts⟩ : ∃ init last, s.splitOn '\n' = init ++ [last] :=
    ⟨_, _, (List.dropLast_concat_getLast (List.splitOn_ne_nil _ s)).symm⟩
  rw [lines, hparts, List.dropLast_concat, List.getLastD_concat, List.mem_append, List.mem_map] at h
  rcases h with ⟨part, hpart, rfl⟩ | h
  · refine ⟨part, by simp [hparts, hpart], ?_⟩
    rw [stripReturn]
    split_ifs
    · exact (List.dropLast_sublist part).subset
    · exact List.Subset.refl _
  · split_ifs at h
    · cases h
    · rw [List.mem_singleton] at h
      exact ⟨last, by simp [hparts], h ▸ List.Subset.refl _⟩

theorem newline_not_mem_line (h : line ∈ lines s) : '\n' ∉ line := by
  obtain ⟨part, hpart, hsubset⟩ := exists_of_mem_lines h
  exact fun hmem => not_mem_of_mem_splitOn hpart (hsubset hmem)

theorem mem_of_mem_line (h : line ∈ lines s) (hc : c ∈ line) :
    c ∈ s := by
  obtain ⟨part, hpart, hsubset⟩ := exists_of_mem_lines h
  exact mem_of_mem_splitOn hpart (hsubset hc)

/-- The lines at the start of a text. -/
theorem splitOn_unlines_append {ls : List (List Char)} (h : ∀ line ∈ ls, '\n' ∉ line)
    (rest : List Char) :
    (ls.flatMap (· ++ ['\n']) ++ rest).splitOn '\n' = ls ++ rest.splitOn '\n' := by
  induction ls with
  | nil => rfl
  | cons line ls ih =>
      rw [List.forall_mem_cons] at h
      have hline : ∀ c ∈ line, (c == '\n') = false := by
        intro c hc
        rw [beq_eq_false_iff_ne]
        exact fun heq => h.1 (heq ▸ hc)
      rw [List.flatMap_cons, List.append_assoc, List.append_assoc, List.singleton_append,
        List.splitOn, List.splitOnP_append_cons_of_forall_mem hline _ (by simp)]
      exact congrArg _ (ih h.2)

/-! ### Hexadecimal -/

/-- The bytes formatted with `{:02x}`, one after the other. -/
def hex (bytes : List UInt8) : List Char :=
  bytes.flatMap fun b => [Nat.digitChar (b.toNat / 16), Nat.digitChar (b.toNat % 16)]

/-- The value of a hexadecimal digit of either case. -/
def hexValue (c : Char) : Option Nat :=
  if c.isDigit then some (c.toNat - '0'.toNat)
  else if 'a' ≤ c ∧ c ≤ 'f' then some (c.toNat - 'a'.toNat + 10)
  else if 'A' ≤ c ∧ c ≤ 'F' then some (c.toNat - 'A'.toNat + 10)
  else none

/-- The bytes a text of hexadecimal digits stands for. -/
def unhex : List Char → Option (List UInt8)
  | [] => some []
  | [_] => none
  | c :: d :: rest => do
    let high ← hexValue c
    let low ← hexValue d
    let bytes ← unhex rest
    pure (.ofNat (high * 16 + low) :: bytes)

theorem hexValue_digitChar {n : Nat} (h : n < 16) : hexValue (Nat.digitChar n) = some n := by
  interval_cases n <;> rfl

theorem digitChar_ne_dash {n : Nat} (h : n < 16) : Nat.digitChar n ≠ '-' := by
  interval_cases n <;> decide

/-- **What is written in hexadecimal is read back.** -/
theorem unhex_hex (bytes : List UInt8) : unhex (hex bytes) = some bytes := by
  induction bytes with
  | nil => rfl
  | cons b bytes ih =>
      have hhigh : b.toNat / 16 < 16 := by have := b.toNat_lt; omega
      have hbyte : b.toNat / 16 * 16 + b.toNat % 16 = b.toNat := by omega
      change (do
        let high ← hexValue (Nat.digitChar (b.toNat / 16))
        let low ← hexValue (Nat.digitChar (b.toNat % 16))
        let bytes ← unhex (hex bytes)
        pure (UInt8.ofNat (high * 16 + low) :: bytes)) = _
      rw [hexValue_digitChar hhigh, hexValue_digitChar (Nat.mod_lt _ (by decide)), ih]
      change some (UInt8.ofNat (b.toNat / 16 * 16 + b.toNat % 16) :: bytes) = _
      rw [hbyte, UInt8.ofNat_toNat]

theorem mem_hex {bytes : List UInt8} (h : c ∈ hex bytes) :
    ∃ n < 16, c = Nat.digitChar n := by
  obtain ⟨b, -, hb⟩ := List.mem_flatMap.mp h
  have hhigh : b.toNat / 16 < 16 := by have := b.toNat_lt; omega
  rcases List.mem_pair.mp hb with hb | hb
  · exact ⟨_, hhigh, hb⟩
  · exact ⟨_, Nat.mod_lt _ (by decide), hb⟩

theorem dash_not_mem_hex (bytes : List UInt8) : '-' ∉ hex bytes := by
  intro h
  obtain ⟨n, hn, heq⟩ := mem_hex h
  exact digitChar_ne_dash hn heq.symm

theorem hex_append (bytes bytes' : List UInt8) : hex (bytes ++ bytes') = hex bytes ++ hex bytes' :=
  List.flatMap_append

end Text
