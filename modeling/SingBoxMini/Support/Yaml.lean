import SingBoxMini.Support.Text

/-!
# Support — Yaml

A reader of YAML in block style: mappings and sequences by their indentation, with plain scalars,
single-quoted scalars and literal blocks `|-`.  A document is read line by line; `State` is what has
been read and the block that is open.

* `readQuoted_double`: a text whose quotes are doubled is read back.
* `literal_says`, `not_literal_says`: lines that are written as a literal block are read back if and
  only if the first line that is not empty does not start with a blank.
-/

namespace Yaml
open Text

/-- What a document says, with the indentation it says it at. -/
inductive Entry where
  /-- A mapping that is an item of a sequence. -/
  | element (indent : Nat)
  /-- A scalar that is an item of a sequence. -/
  | item (indent : Nat) (value : List Char)
  /-- A key whose value is on the lines below. -/
  | header (indent : Nat) (key : List Char)
  /-- A key and a scalar. -/
  | field (indent : Nat) (key value : List Char)
deriving DecidableEq, Repr

/-! ### Scalars -/

/-- A single-quoted scalar after its first quote: it ends at a quote that is not doubled, and
nothing follows it. -/
def readQuoted : List Char → Option (List Char)
  | [] => none
  | '\'' :: '\'' :: rest => (readQuoted rest).map ('\'' :: ·)
  | '\'' :: rest => if rest = [] then some [] else none
  | c :: rest => (readQuoted rest).map (c :: ·)

/-- A scalar on one line. -/
def readScalar : List Char → Option (List Char)
  | '\'' :: rest => readQuoted rest
  | plain => some plain

/-- A text with its quotes doubled. -/
def double (s : List Char) : List Char := s.flatMap fun c => if c = '\'' then ['\'', '\''] else [c]

theorem readQuoted_cons {c : Char} (hc : c ≠ '\'') (s : List Char) :
    readQuoted (c :: s) = (readQuoted s).map (c :: ·) := by
  rw [readQuoted]
  · exact fun rest h => absurd h hc
  · exact hc

/-- **A quoted text is read back.** -/
theorem readQuoted_double (s : List Char) : readQuoted (double s ++ ['\'']) = some s := by
  induction s with
  | nil => rfl
  | cons c s ih =>
      by_cases hc : c = '\''
      · have hcons : double (c :: s) = '\'' :: '\'' :: double s := by simp [double, hc]
        rw [hcons, List.cons_append, List.cons_append, readQuoted, ih, hc]
        rfl
      · have hcons : double (c :: s) = c :: double s := by simp [double, hc]
        rw [hcons, List.cons_append, readQuoted_cons hc, ih]
        rfl

/-! ### Lines -/

/-- The blanks a line starts with. -/
def indentOf (line : List Char) : Nat := (line.takeWhile (· = ' ')).length

/-- A line without text. -/
def blank (line : List Char) : Bool := line.all (· = ' ')

/-- A literal block: where its key is, and the lines it has. -/
structure Block where
  indent : Nat
  key : List Char
  raw : List (List Char)
deriving DecidableEq, Repr

/-- A key and its value. -/
def readField (indent : Nat) (line : List Char) : Option (List Entry × Option Block) := do
  let (key, after) ← splitOnce [':'] line
  if after = [] then return ([.header indent key], none)
  else if after = " |-".toList then return ([], some ⟨indent, key, []⟩)
  else do
    let value ← (stripStart [' '] after).bind readScalar
    return ([.field indent key value], none)

/-- A line outside of a block. -/
def readLine (line : List Char) : Option (List Entry × Option Block) :=
  let indent := indentOf line
  let rest := line.drop indent
  if rest = [] then some ([], none)
  else
    match stripStart "- ".toList rest with
    | some inner =>
      if inner.head? = some '\'' ∨ ':' ∉ inner then
        (readScalar inner).map fun value => ([.item indent value], none)
      else (readField (indent + 2) inner).map fun (entries, block) =>
        (.element indent :: entries, block)
    | none => readField indent rest

/-! ### Blocks -/

/-- **The text of a block.**  Its first line that is not blank gives the indentation, and no blank
line before it has more.  Line breaks at the end are dropped. -/
def blockValue (raw : List (List Char)) : Option (List Char) :=
  match raw.find? (!blank ·) with
  | none => some []
  | some first =>
    if (raw.takeWhile blank).all (·.length ≤ indentOf first) then
      some (trimEndMatches '\n' (['\n'].intercalate (raw.map (·.drop (indentOf first)))))
    else none

/-- A line belongs to a block if it is blank, or deeper than the key and at least as deep as the
first line that is not blank. -/
def Block.accepts (block : Block) (line : List Char) : Bool :=
  blank line || (block.indent < indentOf line &&
    ((block.raw.find? (!blank ·)).all fun first => indentOf first ≤ indentOf line))

/-- A line with blanks before it. -/
def pad (n : Nat) (line : List Char) : List Char := List.replicate n ' ' ++ line

theorem blank_pad (n : Nat) (line : List Char) : blank (pad n line) = blank line := by
  simp [blank, pad]

theorem indentOf_pad (n : Nat) (line : List Char) :
    indentOf (pad n line) = n + indentOf line := by
  simp [indentOf, pad]

theorem drop_pad (n : Nat) (line : List Char) : (pad n line).drop n = line := by
  simp [pad]

/-! ### What lines say -/

/-- A key that is written as it is. -/
def IsKey (key : List Char) : Prop :=
  ':' ∉ key ∧ key ≠ [] ∧ key.head? ∉ [some ' ', some '-', some '\'']

instance (key : List Char) : Decidable (IsKey key) := inferInstanceAs (Decidable (_ ∧ _))

section Lines
variable {n : Nat} {key s value : List Char}

theorem readField_append (hkey : IsKey key) (after : List Char) :
    readField n (key ++ ':' :: after) =
      if after = [] then some ([.header n key], none)
      else if after = " |-".toList then some ([], some ⟨n, key, []⟩)
      else ((stripStart [' '] after).bind readScalar).map fun value =>
        ([.field n key value], none) := by
  have hsplit : splitOnce [':'] (key ++ ':' :: after) = some (key, after) := by
    have happend := splitOnce_append hkey.1 [] after
    rwa [List.append_assoc] at happend
  rw [readField, hsplit]
  simp only [Option.bind_eq_bind, Option.bind_some]
  cases (stripStart [' '] after).bind readScalar <;> rfl

theorem readField_scalar (hkey : IsKey key) (hs : s ≠ "|-".toList)
    (hvalue : readScalar s = some value) :
    readField n (key ++ ": ".toList ++ s) = some ([.field n key value], none) := by
  have hline : key ++ ": ".toList ++ s = key ++ ':' :: ([' '] ++ s) := by simp
  rw [hline, readField_append hkey, if_neg (by simp), if_neg (by simpa using hs),
    stripStart_append, Option.bind_some, hvalue]
  rfl

/-- A line that starts with a key. -/
theorem readLine_key (hkey : IsKey key) (rest : List Char) :
    readLine (pad n (key ++ rest)) = readField n (key ++ rest) := by
  obtain ⟨hcolon, hnil, hhead⟩ := hkey
  obtain ⟨c, key, rfl⟩ := List.exists_cons_of_ne_nil hnil
  simp only [List.head?_cons, List.mem_cons, Option.some.injEq, List.not_mem_nil, or_false,
    not_or] at hhead
  have hindent : indentOf (pad n (c :: key ++ rest)) = n := by
    rw [indentOf_pad]
    simp [indentOf, hhead.1]
  have hdash : stripStart "- ".toList (c :: key ++ rest) = none := by
    simp [stripStart, List.isPrefixOf, Ne.symm hhead.2.1]
  rw [readLine, hindent, drop_pad]
  simp only [hdash]
  exact if_neg (by simp)

/-- A key and a scalar. -/
theorem readLine_scalar (hkey : IsKey key) (hs : s ≠ "|-".toList)
    (hvalue : readScalar s = some value) :
    readLine (pad n (key ++ ": ".toList ++ s)) = some ([.field n key value], none) := by
  rw [List.append_assoc, readLine_key hkey, ← List.append_assoc, readField_scalar hkey hs hvalue]

/-- A key whose value is a literal block. -/
theorem readLine_block (hkey : IsKey key) :
    readLine (pad n (key ++ ": |-".toList)) = some ([], some ⟨n, key, []⟩) := by
  rw [readLine_key hkey]
  exact readField_append hkey " |-".toList

theorem readLine_dash (n : Nat) (inner : List Char) :
    readLine (pad n ("- ".toList ++ inner)) =
      if inner.head? = some '\'' ∨ ':' ∉ inner then
        (readScalar inner).map fun value => ([.item n value], none)
      else (readField (n + 2) inner).map fun (entries, block) =>
        (.element n :: entries, block) := by
  have hindent : indentOf (pad n ("- ".toList ++ inner)) = n := by
    rw [indentOf_pad]
    simp [indentOf]
  rw [readLine, hindent, drop_pad]
  simp only [stripStart_append]
  exact if_neg (by simp)

/-- A scalar in a sequence. -/
theorem readLine_item (hs : s.head? = some '\'' ∨ ':' ∉ s) (hvalue : readScalar s = some value) :
    readLine (pad n ("- ".toList ++ s)) = some ([.item n value], none) := by
  rw [readLine_dash, if_pos hs, hvalue]
  rfl

/-- A mapping in a sequence, with its first key. -/
theorem readLine_element (hkey : IsKey key) (hs : s ≠ "|-".toList)
    (hvalue : readScalar s = some value) :
    readLine (pad n ("- ".toList ++ (key ++ ": ".toList ++ s))) =
      some ([.element n, .field (n + 2) key value], none) := by
  have hquote : ¬ ((key ++ ": ".toList ++ s).head? = some '\'' ∨
      ':' ∉ key ++ ": ".toList ++ s) := by
    obtain ⟨-, hnil, hhead⟩ := hkey
    obtain ⟨c, key, rfl⟩ := List.exists_cons_of_ne_nil hnil
    simp_all
  rw [readLine_dash, if_neg hquote, readField_scalar hkey hs hvalue]
  rfl

end Lines

/-! ### Documents -/

/-- What has been read, and the block that is open. -/
structure State where
  entries : List Entry
  block : Option Block
deriving DecidableEq, Repr

/-- The end of a block. -/
def State.close (s : State) : Option State :=
  match s.block with
  | none => some s
  | some block => (blockValue block.raw).map fun value =>
    ⟨s.entries ++ [.field block.indent block.key value], none⟩

/-- A line when no block is open. -/
def State.openLine (line : List Char) (s : State) : Option State :=
  (readLine line).map fun (entries, block) => ⟨s.entries ++ entries, block⟩

/-- A line. -/
def State.step (s : State) (line : List Char) : Option State :=
  match s.block with
  | none => s.openLine line
  | some block =>
    if block.accepts line then some ⟨s.entries, some { block with raw := block.raw ++ [line] }⟩
    else s.close.bind (State.openLine line)

/-- **What a document says.** -/
def read (text : List Char) : Option (List Entry) := do
  let s ← (text.splitOnP fun c => c = '\n' ∨ c = '\r').foldlM State.step ⟨[], none⟩
  let s ← s.close
  return s.entries

/-! ### Runs -/

/-- A line without a line break. -/
def Single (line : List Char) : Prop := '\n' ∉ line ∧ '\r' ∉ line

instance (line : List Char) : Decidable (Single line) := inferInstanceAs (Decidable (_ ∧ _))

theorem Single.append {line rest : List Char} (h : Single line) (h' : Single rest) :
    Single (line ++ rest) := by
  simp only [Single, List.mem_append, not_or]
  exact ⟨⟨h.1, h'.1⟩, ⟨h.2, h'.2⟩⟩

/-- **Lines that say something**, whatever was before. -/
structure Says (ls : List (List Char)) (entries : List Entry) : Prop where
  run : ∀ before, ls.foldlM State.step ⟨before, none⟩ = some ⟨before ++ entries, none⟩
  single : ∀ line ∈ ls, Single line

section Runs
variable {ls ls' : List (List Char)} {es es' : List Entry} {line : List Char} {s s' : State}

theorem Says.nil : Says [] [] where
  run before := by
    rw [List.append_nil]
    rfl
  single := by simp

theorem Says.append (h : Says ls es) (h' : Says ls' es') : Says (ls ++ ls') (es ++ es') where
  run before := by
    rw [List.foldlM_append, h.run before, Option.bind_eq_bind, Option.bind_some, h'.run _,
      List.append_assoc]
  single := List.forall_mem_append.mpr ⟨h.single, h'.single⟩

theorem Says.of_line (h : readLine line = some (es, none)) (hline : Single line) :
    Says [line] es where
  run before := by
    rw [List.foldlM_cons, State.step, State.openLine, h]
    rfl
  single := by simpa using hline

theorem Says.ite {p : Prop} [Decidable p] (h : p → Says ls es) (h' : ¬ p → Says ls' es') :
    Says (if p then ls else ls') (if p then es else es') := by
  split_ifs with hp
  · exact h hp
  · exact h' hp

/-- Lines that each say one thing. -/
theorem Says.map {α : Type} {l : List α} {f : α → List Char} {g : α → Entry}
    (h : ∀ a ∈ l, Says [f a] [g a]) : Says (l.map f) (l.map g) := by
  induction l with
  | nil => exact .nil
  | cons a l ih =>
      rw [List.forall_mem_cons] at h
      exact h.1.append (ih h.2)

/-- A step keeps what was read. -/
theorem openLine_extends (h : s.openLine line = some s') : s.entries <+: s'.entries := by
  rw [State.openLine] at h
  obtain ⟨⟨entries, block⟩, -, rfl⟩ := Option.map_eq_some_iff.mp h
  exact List.prefix_append _ _

theorem close_extends (h : s.close = some s') : s.entries <+: s'.entries := by
  rw [State.close] at h
  split at h
  · cases h
    exact List.prefix_rfl
  · obtain ⟨value, -, rfl⟩ := Option.map_eq_some_iff.mp h
    exact List.prefix_append _ _

theorem step_extends (h : s.step line = some s') : s.entries <+: s'.entries := by
  rw [State.step] at h
  split at h
  · exact openLine_extends h
  · split_ifs at h with haccepts
    · cases h
      exact List.prefix_rfl
    · obtain ⟨s₁, hclose, hopen⟩ := Option.bind_eq_some_iff.mp h
      exact (close_extends hclose).trans (openLine_extends hopen)

/-- **A run keeps what was read.** -/
theorem run_extends (h : ls.foldlM State.step s = some s') : s.entries <+: s'.entries := by
  induction ls generalizing s with
  | nil =>
      cases h
      exact List.prefix_rfl
  | cons line ls ih =>
      rw [List.foldlM_cons] at h
      obtain ⟨s₁, hstep, hrun⟩ := Option.bind_eq_some_iff.mp h
      exact (step_extends hstep).trans (ih hrun)

/-- An open block is closed in the end, by a line that is not deeper than its key. -/
theorem exists_blockValue {before : List Entry} {block : Block} {last : List Char}
    (hblank : blank last = false) (hdepth : indentOf last ≤ block.indent)
    (h : (ls ++ [last]).foldlM State.step ⟨before, some block⟩ = some s) :
    ∃ extra value, blockValue (block.raw ++ extra) = some value ∧
      before ++ [.field block.indent block.key value] <+: s.entries := by
  -- a line that is not accepted closes the block, and the rest of the run keeps its text
  have hclosed : ∀ {line : List Char} {rest : List (List Char)} {block : Block},
      block.accepts line = false →
      (line :: rest).foldlM State.step ⟨before, some block⟩ = some s →
      ∃ value, blockValue block.raw = some value ∧
        before ++ [.field block.indent block.key value] <+: s.entries := by
    intro line rest block hline hrun
    rw [List.foldlM_cons] at hrun
    obtain ⟨s₁, hstep, hrest⟩ := Option.bind_eq_some_iff.mp hrun
    rw [State.step] at hstep
    simp only [hline, Bool.false_eq_true, if_false] at hstep
    obtain ⟨s₂, hclose, hopen⟩ := Option.bind_eq_some_iff.mp hstep
    obtain ⟨value, hvalue, rfl⟩ := Option.map_eq_some_iff.mp hclose
    exact ⟨value, hvalue, (openLine_extends hopen).trans (run_extends hrest)⟩
  induction ls generalizing block with
  | nil =>
      obtain ⟨value, hvalue, hentries⟩ := hclosed (by
        simp [Block.accepts, hblank, Nat.not_lt.mpr hdepth]) h
      exact ⟨[], value, by rwa [List.append_nil], hentries⟩
  | cons line ls ih =>
      cases hline : block.accepts line with
      | false =>
          obtain ⟨value, hvalue, hentries⟩ := hclosed hline h
          exact ⟨[], value, by rwa [List.append_nil], hentries⟩
      | true =>
          have hstep : State.step ⟨before, some block⟩ line =
              some ⟨before, some { block with raw := block.raw ++ [line] }⟩ := by
            simp only [State.step, hline, if_true]
          rw [List.cons_append, List.foldlM_cons, hstep] at h
          have hdepth' : indentOf last ≤
              ({ block with raw := block.raw ++ [line] } : Block).indent := hdepth
          obtain ⟨extra, value, hvalue, hentries⟩ := ih hdepth' h
          exact ⟨line :: extra, value, by simpa using hvalue, hentries⟩

end Runs

/-! ### Texts -/

section Texts
variable {ls : List (List Char)} {es : List Entry}

/-- The lines of a text. -/
theorem splitOnP_unlines (h : ∀ line ∈ ls, Single line) :
    (ls.flatMap (· ++ ['\n'])).splitOnP (fun c => c = '\n' ∨ c = '\r') = ls ++ [[]] := by
  induction ls with
  | nil => rfl
  | cons line ls ih =>
      rw [List.forall_mem_cons] at h
      have hline : ∀ c ∈ line, decide (c = '\n' ∨ c = '\r') = false := by
        intro c hc
        rw [decide_eq_false_iff_not, not_or]
        exact ⟨fun heq => h.1.1 (heq ▸ hc), fun heq => h.1.2 (heq ▸ hc)⟩
      rw [List.flatMap_cons, List.append_assoc, List.singleton_append,
        List.splitOnP_append_cons_of_forall_mem hline _ (by simp), ih h.2, List.cons_append]

/-- The end of a text says nothing. -/
theorem read_unlines (h : ∀ line ∈ ls, Single line) :
    read (ls.flatMap (· ++ ['\n'])) = some es ↔
      ∃ s, (ls ++ [[]]).foldlM State.step ⟨[], none⟩ = some s ∧
        s.close.map State.entries = some es := by
  rw [read, splitOnP_unlines h]
  simp only [Option.bind_eq_bind, Option.bind_eq_some_iff, Option.map_eq_some_iff]
  simp

theorem Says.read_unlines (h : Says ls es) : read (ls.flatMap (· ++ ['\n'])) = some es := by
  have hend : Says (ls ++ [[]]) (es ++ []) := h.append (.of_line rfl (by decide))
  refine (Yaml.read_unlines h.single).mpr ⟨_, hend.run [], ?_⟩
  simp [State.close]

end Texts

/-! ### Literal blocks -/

/-- **The first line that is not empty does not start with a blank.** -/
def Flush (ls : List (List Char)) : Prop := (ls.find? (· ≠ [])).bind List.head? ≠ some ' '

instance (ls : List (List Char)) : Decidable (Flush ls) := inferInstanceAs (Decidable (_ ≠ _))

section Literal
variable {n e : Nat} {c : Char} {t : List Char} {ls more : List (List Char)}

theorem find?_replicate_nil (e : Nat) (p : List Char → Bool) (hp : p [] = false) :
    (List.replicate e ([] : List Char)).find? p = none := by
  rw [List.find?_eq_none]
  intro line hline
  rw [List.eq_of_mem_replicate hline, hp]
  exact Bool.false_ne_true

/-- Lines are empty up to the first that is not. -/
theorem lines_cases (ls : List (List Char)) :
    (∃ e, ls = List.replicate e []) ∨
      ∃ e c t more, ls = List.replicate e [] ++ (c :: t) :: more := by
  induction ls with
  | nil => exact .inl ⟨0, rfl⟩
  | cons line ls ih =>
      cases line with
      | cons c t => exact .inr ⟨0, c, t, ls, rfl⟩
      | nil =>
          rcases ih with ⟨e, rfl⟩ | ⟨e, c, t, more, rfl⟩
          · exact .inl ⟨e + 1, rfl⟩
          · exact .inr ⟨e + 1, c, t, more, rfl⟩

theorem flush_replicate (e : Nat) : Flush (List.replicate e []) := by
  rw [Flush, find?_replicate_nil e _ (by simp)]
  simp

theorem flush_append_iff : Flush (List.replicate e [] ++ (c :: t) :: more) ↔ c ≠ ' ' := by
  rw [Flush, List.find?_append, find?_replicate_nil e _ (by simp)]
  simp

theorem drop_indentOf (line : List Char) :
    line.drop (indentOf line) = line.dropWhile (· = ' ') := by
  induction line with
  | nil => rfl
  | cons c line ih =>
      by_cases hc : c = ' '
      · simpa [indentOf, hc] using ih
      · simp [indentOf, hc]

/-! The text of lines, and its line breaks at the end. -/

theorem intercalate_replicate (e : Nat) (line : List Char) (more : List (List Char)) :
    ∃ tail, ['\n'].intercalate (List.replicate e [] ++ line :: more) =
      List.replicate e '\n' ++ (line ++ tail) ∧ tail.head? ≠ some ' ' := by
  induction e with
  | zero =>
      cases more with
      | nil => exact ⟨[], by simp, by simp⟩
      | cons next more =>
          exact ⟨'\n' :: ['\n'].intercalate (next :: more), by simp [List.intercalate_cons_cons],
            by simp⟩
  | succ e ih =>
      obtain ⟨tail, htail, hhead⟩ := ih
      obtain ⟨first, rest, hrest⟩ : ∃ first rest,
          List.replicate e [] ++ line :: more = first :: rest :=
        List.exists_cons_of_ne_nil (by simp)
      refine ⟨tail, ?_, hhead⟩
      rw [List.replicate_succ, List.cons_append, hrest, List.intercalate_cons_cons, ← hrest, htail]
      rfl

theorem intercalate_replicate_nil (e : Nat) :
    trimEndMatches '\n' (['\n'].intercalate (List.replicate e [])) = [] := by
  have hbreaks : ∀ e, ['\n'].intercalate (List.replicate (e + 1) []) = List.replicate e '\n' := by
    intro e
    induction e with
    | zero => rfl
    | succ e ih =>
        rw [List.replicate_succ, List.replicate_succ, List.intercalate_cons_cons,
          ← List.replicate_succ, ih]
        rfl
  cases e with
  | zero => rfl
  | succ e => simp [hbreaks, trimEndMatches]

theorem trimEndMatches_append_cons {c d : Char} (hd : d ≠ c) (s t : List Char) :
    trimEndMatches c (s ++ d :: t) = s ++ d :: trimEndMatches c t := by
  have hreverse : (s ++ d :: t).reverse = t.reverse ++ d :: s.reverse := by simp
  rw [trimEndMatches, trimEndMatches, hreverse, List.dropWhile_append]
  split_ifs with hnil
  · rw [List.isEmpty_iff.mp hnil, List.dropWhile_cons_of_neg (by simpa using hd)]
    simp
  · simp

theorem getElem?_of_isPrefix {s t : List Char} (h : s <+: t) {i : Nat} {c : Char}
    (hc : s[i]? = some c) : t[i]? = some c := by
  obtain ⟨rest, rfl⟩ := h
  rw [List.getElem?_append_left (List.getElem?_eq_some_iff.mp hc).1, hc]

theorem trimEndMatches_isPrefix (c : Char) (s : List Char) : trimEndMatches c s <+: s := by
  rw [trimEndMatches, ← List.reverse_suffix, List.reverse_reverse]
  exact List.dropWhile_suffix _

/-! The indentation a block is read with. -/

theorem blank_pad_nil (n : Nat) : blank (pad n []) = true := by
  rw [blank_pad]
  rfl

theorem find?_replicate_pad (e n : Nat) :
    (List.replicate e (pad n [])).find? (!blank ·) = none := by
  rw [List.find?_eq_none]
  intro line hline
  rw [List.eq_of_mem_replicate hline, blank_pad_nil]
  exact Bool.false_ne_true

theorem map_pad (n e : Nat) (line : List Char) (more : List (List Char)) :
    (List.replicate e [] ++ line :: more).map (pad n) =
      List.replicate e (pad n []) ++ pad n line :: more.map (pad n) := by
  rw [List.map_append, List.map_replicate, List.map_cons]

theorem takeWhile_replicate_pad (e n : Nat) (raw : List (List Char)) :
    (List.replicate e (pad n []) ++ raw).takeWhile blank =
      List.replicate e (pad n []) ++ raw.takeWhile blank := by
  rw [List.takeWhile_append_of_pos]
  intro line hline
  rw [List.eq_of_mem_replicate hline, blank_pad_nil]

/-- If the lines are flush, the indentation they were written with is found. -/
theorem indentOf_first (hflush : Flush ls) {first : List Char}
    (hfirst : (ls.map (pad n)).find? (!blank ·) = some first) :
    indentOf first = n ∧ ((ls.map (pad n)).takeWhile blank).all (·.length ≤ n) = true := by
  rcases lines_cases ls with ⟨e, rfl⟩ | ⟨e, c, t, more, rfl⟩
  · rw [List.map_replicate, find?_replicate_pad] at hfirst
    cases hfirst
  · have hc := flush_append_iff.mp hflush
    have hblank : blank (pad n (c :: t)) = false := by
      rw [blank_pad]
      simp [blank, hc]
    rw [map_pad, List.find?_append, find?_replicate_pad, Option.none_or,
      List.find?_cons_of_pos (by simp [hblank])] at hfirst
    cases hfirst
    rw [indentOf_pad, map_pad, takeWhile_replicate_pad,
      List.takeWhile_cons_of_neg (by simp [hblank])]
    exact ⟨by simp [indentOf, hc], by simp [pad]⟩

/-- **The text of flush lines.** -/
theorem blockValue_pad (hflush : Flush ls) :
    blockValue (ls.map (pad n)) = some (trimEndMatches '\n' (['\n'].intercalate ls)) := by
  rw [blockValue]
  split
  · next hfirst =>
      rcases lines_cases ls with ⟨e, rfl⟩ | ⟨e, c, t, more, rfl⟩
      · rw [intercalate_replicate_nil]
      · -- the first line that is not empty is not blank
        have hblank := List.find?_eq_none.mp hfirst (pad n (c :: t)) (by simp)
        rw [blank_pad] at hblank
        simp [blank, flush_append_iff.mp hflush] at hblank
  · next first hfirst =>
      obtain ⟨hindent, hlengths⟩ := indentOf_first hflush hfirst
      rw [hindent, if_pos hlengths, List.map_map]
      have hdrop : ((fun line => List.drop n line) ∘ pad n) = id := funext (drop_pad n)
      rw [hdrop, List.map_id]

/-- **The text of lines that are not flush**: a blank is lost. -/
theorem blockValue_not_flush {extra : List (List Char)} {value : List Char}
    (h : blockValue ((List.replicate e [] ++ [' ' :: t]).map (pad n) ++ extra) = some value) :
    value[e]? ≠ some ' ' := by
  rw [map_pad, List.map_nil, List.append_assoc, List.singleton_append, blockValue] at h
  split at h
  · cases h
    simp
  · next first hfirst =>
      split_ifs at h with hlengths
      cases h
      generalize hk : indentOf first = k at hlengths
      have hlengths' := List.all_eq_true.mp hlengths
      rw [takeWhile_replicate_pad] at hlengths'
      have hempty : (List.replicate e (pad n [])).map (·.drop k) = List.replicate e [] := by
        rw [List.map_replicate]
        cases e with
        | zero => rfl
        | succ e =>
            have hlength := of_decide_eq_true (hlengths' (pad n []) (by simp))
            rw [List.drop_eq_nil_of_le hlength]
      -- the line is dropped if it is blank, and else it is the first
      have hhead : ((pad n (' ' :: t)).drop k).head? ≠ some ' ' := by
        cases hblank : blank (pad n (' ' :: t)) with
        | true =>
            have hlength := of_decide_eq_true (hlengths' (pad n (' ' :: t)) (by
              rw [List.takeWhile_cons_of_pos hblank]
              simp))
            rw [List.drop_eq_nil_of_le hlength]
            simp
        | false =>
            rw [List.find?_append, find?_replicate_pad, Option.none_or,
              List.find?_cons_of_pos (by simp [hblank])] at hfirst
            rw [← hk, ← Option.some.inj hfirst, drop_indentOf]
            intro hspace
            have hnot := List.head?_dropWhile_not (· = ' ') (pad n (' ' :: t))
            rw [hspace] at hnot
            simp at hnot
      obtain ⟨tail, htail, htailhead⟩ :=
        intercalate_replicate e ((pad n (' ' :: t)).drop k) (extra.map (·.drop k))
      intro hvalue
      rw [List.map_append, hempty, List.map_cons, htail] at hvalue
      have hget := getElem?_of_isPrefix (trimEndMatches_isPrefix '\n' _) hvalue
      rw [List.getElem?_append_right (by simp), List.length_replicate, Nat.sub_self,
        ← List.head?_eq_getElem?, List.head?_append] at hget
      cases hline : ((pad n (' ' :: t)).drop k).head? with
      | none => exact htailhead (by rwa [hline] at hget)
      | some c => exact hhead (by rw [hline] at hget ⊢; exact hget)

theorem getElem?_of_not_flush (e : Nat) (t : List Char) (more : List (List Char)) :
    (trimEndMatches '\n' (['\n'].intercalate (List.replicate e [] ++ (' ' :: t) :: more)))[e]? =
      some ' ' := by
  obtain ⟨tail, htail, -⟩ := intercalate_replicate e (' ' :: t) more
  rw [htail, List.cons_append, trimEndMatches_append_cons (by decide)]
  simp

/-! Runs. -/

/-- Lines that a block accepts. -/
theorem run_accepts {before : List Entry} {block : Block} {lines : List (List Char)}
    (h : ∀ pre line post, lines = pre ++ line :: post →
      ({ block with raw := block.raw ++ pre } : Block).accepts line = true) :
    lines.foldlM State.step ⟨before, some block⟩ =
      some ⟨before, some { block with raw := block.raw ++ lines }⟩ := by
  induction lines generalizing block with
  | nil => simp
  | cons line lines ih =>
      have hline : block.accepts line = true := by simpa using h [] line lines rfl
      have hstep : State.step ⟨before, some block⟩ line =
          some ⟨before, some { block with raw := block.raw ++ [line] }⟩ := by
        simp only [State.step, hline, if_true]
      rw [List.foldlM_cons, hstep, Option.bind_eq_bind, Option.bind_some, ih]
      · simp
      · intro pre line' post hlines
        simpa using h (line :: pre) line' post (by rw [hlines, List.cons_append])

variable {indent : Nat} {key header last : List Char} {es : List Entry}

theorem step_header (hheader : readLine header = some ([], some ⟨indent, key, []⟩))
    (before : List Entry) :
    State.step ⟨before, none⟩ header = some ⟨before, some ⟨indent, key, []⟩⟩ := by
  rw [State.step, State.openLine, hheader]
  simp

/-- A block accepts a line that is deep enough, if its lines so far are flush. -/
theorem accepts_pad (hdepth : indent < n) {pre : List (List Char)} {line : List Char}
    (hpre : ∀ first, (pre.map (pad n)).find? (!blank ·) = some first →
      indentOf first ≤ indentOf (pad n line)) :
    Block.accepts ⟨indent, key, pre.map (pad n)⟩ (pad n line) = true := by
  have hlt : indent < indentOf (pad n line) := by
    rw [indentOf_pad]
    omega
  rw [Block.accepts, decide_eq_true hlt, Bool.true_and, Bool.or_eq_true]
  right
  rw [Option.all_eq_true]
  exact fun first hfirst => decide_eq_true (hpre first hfirst)

/-- **Flush lines are read back.** -/
theorem literal_says (hflush : Flush ls) (hdepth : indent < n)
    (hheader : readLine header = some ([], some ⟨indent, key, []⟩))
    (hlast : readLine last = some (es, none)) (hblank : blank last = false)
    (hend : indentOf last ≤ indent)
    (hsingle : ∀ line ∈ header :: ls.map (pad n) ++ [last], Single line) :
    Says (header :: ls.map (pad n) ++ [last])
      (.field indent key (trimEndMatches '\n' (['\n'].intercalate ls)) :: es) := by
  refine ⟨fun before => ?_, hsingle⟩
  have hrun : (ls.map (pad n)).foldlM State.step ⟨before, some ⟨indent, key, []⟩⟩ =
      some ⟨before, some ⟨indent, key, ls.map (pad n)⟩⟩ := by
    rw [run_accepts]
    · rfl
    · intro pre line post hlines
      obtain ⟨pre', rest, rfl, rfl, hrest⟩ := List.map_eq_append_iff.mp hlines
      obtain ⟨line', post', rfl, rfl, -⟩ := List.map_eq_cons_iff.mp hrest
      refine accepts_pad hdepth fun first hfirst => ?_
      have hall : ((pre' ++ line' :: post').map (pad n)).find? (!blank ·) = some first := by
        rw [List.map_append, List.find?_append, hfirst]
        rfl
      rw [(indentOf_first hflush hall).1, indentOf_pad]
      exact Nat.le_add_right _ _
  have hclose : State.step ⟨before, some ⟨indent, key, ls.map (pad n)⟩⟩ last =
      some ⟨before ++ [.field indent key (trimEndMatches '\n' (['\n'].intercalate ls))] ++ es,
        none⟩ := by
    have hrejects : Block.accepts ⟨indent, key, ls.map (pad n)⟩ last = false := by
      simp [Block.accepts, hblank, Nat.not_lt.mpr hend]
    simp only [State.step, hrejects, Bool.false_eq_true, if_false, State.close,
      blockValue_pad hflush, Option.map_some, Option.bind_some, State.openLine, hlast]
  rw [List.cons_append, List.foldlM_cons, step_header hheader, Option.bind_eq_bind,
    Option.bind_some, List.foldlM_append, hrun, Option.bind_eq_bind, Option.bind_some,
    List.foldlM_cons, hclose]
  simp

/-- **Lines that are not flush are read as something else.** -/
theorem not_literal_says (hflush : ¬ Flush ls) (hdepth : indent < n)
    (hheader : readLine header = some ([], some ⟨indent, key, []⟩)) (hblank : blank last = false)
    (hend : indentOf last ≤ indent) {before : List Entry} {s : State}
    (h : (header :: ls.map (pad n) ++ [last]).foldlM State.step ⟨before, none⟩ = some s) :
    ∃ value, value ≠ trimEndMatches '\n' (['\n'].intercalate ls) ∧
      before ++ [.field indent key value] <+: s.entries := by
  rcases lines_cases ls with ⟨e, rfl⟩ | ⟨e, c, t, more, rfl⟩
  · exact absurd (flush_replicate e) hflush
  · have hc : c = ' ' := not_not.mp fun hne => hflush (flush_append_iff.mpr hne)
    subst hc
    have hrun : ((List.replicate e [] ++ [' ' :: t]).map (pad n)).foldlM State.step
        ⟨before, some ⟨indent, key, []⟩⟩ =
        some ⟨before, some ⟨indent, key, (List.replicate e [] ++ [' ' :: t]).map (pad n)⟩⟩ := by
      rw [run_accepts]
      · rfl
      · intro pre line post hlines
        obtain ⟨pre', rest, hsplit, rfl, hrest⟩ := List.map_eq_append_iff.mp hlines
        obtain ⟨line', post', rfl, rfl, -⟩ := List.map_eq_cons_iff.mp hrest
        refine accepts_pad hdepth fun first hfirst => ?_
        -- what comes before is empty
        have hpre : pre' <+: List.replicate e [] := by
          rcases List.prefix_concat_iff.mp ⟨_, hsplit.symm⟩ with rfl | hpre
          · simp at hsplit
          · exact hpre
        have hempty : pre' = List.replicate pre'.length [] :=
          List.eq_replicate_of_mem fun line hline => List.eq_of_mem_replicate (hpre.subset hline)
        rw [hempty, List.map_replicate, find?_replicate_pad] at hfirst
        cases hfirst
    have hlines : (List.replicate e [] ++ (' ' :: t) :: more).map (pad n) =
        (List.replicate e [] ++ [' ' :: t]).map (pad n) ++ more.map (pad n) := by
      simp
    rw [List.cons_append, List.foldlM_cons, step_header hheader, Option.bind_eq_bind,
      Option.bind_some, hlines, List.append_assoc, List.foldlM_append, hrun, Option.bind_eq_bind,
      Option.bind_some] at h
    obtain ⟨extra, value, hvalue, hentries⟩ := exists_blockValue hblank hend h
    refine ⟨value, ?_, hentries⟩
    rintro rfl
    exact blockValue_not_flush hvalue (getElem?_of_not_flush e t more)

end Literal

end Yaml
