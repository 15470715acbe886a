import SingBoxMini.Support.Bytes
import SingBoxMini.Support.Text

/-!
# Support — Systemd

How systemd reads a command line of a unit: items with quotes and escapes, then the specifiers `%`
of each item, then its variables `$`.

Not in this model: the escapes of a code (`\x41`), the prefixes of a path, several commands in one
line, quotes in the value of a variable, a carriage return as the end of a line of the unit, and the
names of executables that are refused.

* `launch_eq_iff`: items are started as they are, whatever the specifiers and the variables stand
  for, exactly if each is `Literal`.
-/

namespace Systemd
open Bytes

/-! ### Items -/

/-- What a backslash and a letter stand for. -/
def escape? (c : Char) : Option Char :=
  if c = 'a' then some '\x07'
  else if c = 'b' then some '\x08'
  else if c = 'f' then some '\x0c'
  else if c = 'n' then some '\n'
  else if c = 'r' then some '\r'
  else if c = 't' then some '\t'
  else if c = 'v' then some '\x0b'
  else if c = 's' then some ' '
  else if c = '\\' ∨ c = '"' ∨ c = '\'' then some c
  else none

/-- The items that have ended, the one that has begun, if any, the quote it is in, if any, and
whether a backslash is in front of the next character. -/
structure Splitter where
  items : List (List Char) := []
  item : Option (List Char) := none
  quote : Option Char := none
  escaped : Bool := false

namespace Splitter

/-- A character of an item. -/
def push (s : Splitter) (c : Char) : Splitter := { s with item := some (s.item.getD [] ++ [c]) }

/-- The item ends. -/
def delimit (s : Splitter) : Splitter :=
  { s with items := s.items ++ s.item.toList, item := none }

/-- One character. -/
def step (s : Splitter) (c : Char) : Option Splitter :=
  if s.escaped then (escape? c).map fun d => { s.push d with escaped := false }
  else if c = '\\' then some { s with escaped := true }
  else
    match s.quote with
    | some q => some (if c = q then { s with quote := none } else s.push c)
    | none =>
      if c ∈ [' ', '\t', '\n', '\r'] then some s.delimit
      else if c = '\'' ∨ c = '"' then some { s with item := some (s.item.getD []), quote := some c }
      else some (s.push c)

/-- A text, character by character. -/
def run (s : Splitter) (text : List Char) : Option Splitter := text.foldlM step s

theorem run_cons (s : Splitter) (c : Char) (text : List Char) :
    s.run (c :: text) = (s.step c).bind (·.run text) := rfl

/-- The items at the end of a text, where no quote is open. -/
def finish (s : Splitter) : Option (List (List Char)) :=
  if s.quote = none ∧ s.escaped = false then some s.delimit.items else none

/-- In double quotes a character is itself, but for the quote and the backslash. -/
theorem step_quoted {c : Char} (hquote : c ≠ '"') (hescape : c ≠ '\\')
    (items : List (List Char)) (item : List Char) :
    step ⟨items, some item, some '"', false⟩ c =
      some ⟨items, some (item ++ [c]), some '"', false⟩ := by
  simp [step, hquote, hescape, push]

end Splitter

/-- The items of a command line. -/
def split (text : List Char) : Option (List (List Char)) :=
  (Splitter.run {} text).bind Splitter.finish

/-! ### Specifiers -/

/-- The specifiers of an item replaced; `percent` is whether a `%` is in front of the text.  A
letter or a digit that is no specifier is an error, and any other character leaves the `%` as it
is. -/
def printf (specifier : Char → Option (List Char)) : Bool → List Char → Option (List Char)
  | false, [] => some []
  | true, [] => some ['%']
  | false, c :: s =>
    if c = '%' then printf specifier true s else (printf specifier false s).map (c :: ·)
  | true, c :: s =>
    if c = '%' then (printf specifier false s).map ('%' :: ·)
    else if c.isAlphanum then
      (specifier c).bind fun value => (printf specifier false s).map (value ++ ·)
    else (printf specifier false s).map ('%' :: c :: ·)

/-- Each `%` is the last character, or before one that is neither `%` nor a letter or digit. -/
inductive NoSpecifier : List Char → Prop where
  | nil : NoSpecifier []
  | char {c : Char} {s : List Char} : c ≠ '%' → NoSpecifier s → NoSpecifier (c :: s)
  | last : NoSpecifier ['%']
  | percent {c : Char} {s : List Char} : c ≠ '%' → c.isAlphanum = false → NoSpecifier s →
      NoSpecifier ('%' :: c :: s)

theorem printf_of_noSpecifier {s : List Char} (h : NoSpecifier s)
    (specifier : Char → Option (List Char)) : printf specifier false s = some s := by
  induction h with
  | nil => rfl
  | char hc _ ih => rw [printf, if_neg hc, ih]; rfl
  | last => rfl
  | percent hc halpha _ ih =>
      rw [printf, if_pos rfl, printf, if_neg hc, if_neg (by simp [halpha]), ih]
      rfl

/-- The text that `printf` has in front. -/
def pending (percent : Bool) : List Char := if percent then ['%'] else []

/-- **Without specifiers** nothing gets longer, and what stays as long has none. -/
theorem printf_bare (percent : Bool) (s : List Char) :
    ∀ t, printf (fun _ => none) percent s = some t →
      t.length ≤ (pending percent ++ s).length ∧
        (t.length = (pending percent ++ s).length →
          t = pending percent ++ s ∧ NoSpecifier (pending percent ++ s)) := by
  induction s generalizing percent with
  | nil =>
      intro t ht
      cases percent with
      | false =>
          cases ht
          exact ⟨Nat.le_refl _, fun _ => ⟨rfl, .nil⟩⟩
      | true =>
          cases ht
          exact ⟨Nat.le_refl _, fun _ => ⟨rfl, .last⟩⟩
  | cons c s ih =>
      intro t ht
      cases percent with
      | false =>
          rw [printf] at ht
          split_ifs at ht with hc
          · subst hc
            exact ih true t ht
          · obtain ⟨u, hu, rfl⟩ := Option.map_eq_some_iff.mp ht
            obtain ⟨hle, hkept⟩ := ih false u hu
            refine ⟨Nat.succ_le_succ hle, fun hlength => ?_⟩
            obtain ⟨rfl, hnone⟩ := hkept (Nat.succ.inj hlength)
            exact ⟨rfl, .char hc hnone⟩
      | true =>
          rw [printf] at ht
          split_ifs at ht with hc halpha
          · -- `%%` gives one character for two, so the text is shorter
            obtain ⟨u, hu, rfl⟩ := Option.map_eq_some_iff.mp ht
            have hle : u.length ≤ s.length := (ih false u hu).1
            refine ⟨?_, fun hlength => ?_⟩
            · simp only [pending, if_true, List.length_append, List.length_cons, List.length_nil]
              omega
            · simp only [pending, if_true, List.length_append, List.length_cons,
                List.length_nil] at hlength
              omega
          · cases ht
          · obtain ⟨u, hu, rfl⟩ := Option.map_eq_some_iff.mp ht
            obtain ⟨hle, hkept⟩ := ih false u hu
            refine ⟨Nat.succ_le_succ (Nat.succ_le_succ hle), fun hlength => ?_⟩
            obtain ⟨rfl, hnone⟩ := hkept (Nat.succ.inj (Nat.succ.inj hlength))
            exact ⟨rfl, .percent hc (by simpa using halpha) hnone⟩

/-! ### Variables -/

/-- What has been read in front of the text: nothing, a `$`, or `${` and a name. -/
inductive EnvMode where
  | word
  | dollar
  | braced (name : List Char)

/-- The text of it. -/
def EnvMode.text : EnvMode → List Char
  | .word => []
  | .dollar => ['$']
  | .braced name => '$' :: '\x7b' :: name

/-- The variables in a word replaced.  A name that does not end or has a colon is left as it is. -/
def replaceEnv (env : List Char → Option (List Char)) : EnvMode → List Char → List Char
  | mode, [] => mode.text
  | .word, c :: s =>
    if c = '$' then replaceEnv env .dollar s else c :: replaceEnv env .word s
  | .dollar, c :: s =>
    if c = '\x7b' then replaceEnv env (.braced []) s
    else if c = '$' then '$' :: replaceEnv env .word s
    else '$' :: c :: replaceEnv env .word s
  | .braced name, c :: s =>
    if c = '\x7d' then (env name).getD [] ++ replaceEnv env .word s
    else if c = ':' then '$' :: '\x7b' :: (name ++ ':' :: replaceEnv env .word s)
    else replaceEnv env (.braced (name ++ [c])) s

/-- No `$` is before another one, or begins a variable in braces. -/
inductive NoVariable : List Char → Prop where
  | nil : NoVariable []
  | char {c : Char} {s : List Char} : c ≠ '$' → NoVariable s → NoVariable (c :: s)
  | last : NoVariable ['$']
  | dollar {c : Char} {s : List Char} : c ≠ '$' → c ≠ '\x7b' → NoVariable s →
      NoVariable ('$' :: c :: s)
  | unclosed {name : List Char} : '\x7d' ∉ name → ':' ∉ name →
      NoVariable ('$' :: '\x7b' :: name)
  | colon {name s : List Char} : '\x7d' ∉ name → ':' ∉ name → NoVariable s →
      NoVariable ('$' :: '\x7b' :: (name ++ ':' :: s))

/-- A stretch of a name. -/
theorem replaceEnv_braced (env : List Char → Option (List Char)) {name : List Char}
    (hbrace : '\x7d' ∉ name) (hcolon : ':' ∉ name) (start s : List Char) :
    replaceEnv env (.braced start) (name ++ s) =
      replaceEnv env (.braced (start ++ name)) s := by
  induction name generalizing start with
  | nil => rw [List.nil_append, List.append_nil]
  | cons c name ih =>
      rw [List.mem_cons, not_or] at hbrace hcolon
      rw [List.cons_append, replaceEnv, if_neg (Ne.symm hbrace.1), if_neg (Ne.symm hcolon.1),
        ih hbrace.2 hcolon.2, List.append_assoc, List.singleton_append]

theorem replaceEnv_of_noVariable {s : List Char} (h : NoVariable s)
    (env : List Char → Option (List Char)) : replaceEnv env .word s = s := by
  induction h with
  | nil => rfl
  | char hc _ ih => rw [replaceEnv, if_neg hc, ih]
  | last => rfl
  | dollar hdollar hbrace _ ih =>
      rw [replaceEnv, if_pos rfl, replaceEnv, if_neg hbrace, if_neg hdollar, ih]
  | @unclosed name hbrace hcolon =>
      have hname := replaceEnv_braced env hbrace hcolon [] []
      rw [List.append_nil, List.nil_append] at hname
      rw [replaceEnv, if_pos rfl, replaceEnv, if_pos rfl, hname]
      rfl
  | colon hbrace hcolon _ ih =>
      rw [replaceEnv, if_pos rfl, replaceEnv, if_pos rfl, replaceEnv_braced env hbrace hcolon,
        List.nil_append, replaceEnv, if_neg (by decide), if_pos rfl, ih]

/-- What is in front has not ended. -/
def EnvMode.Open : EnvMode → Prop
  | .braced name => '\x7d' ∉ name ∧ ':' ∉ name
  | _ => True

/-- **Without variables** nothing gets longer, and what stays as long has none. -/
theorem replaceEnv_bare (mode : EnvMode) (hopen : mode.Open) (s : List Char) :
    (replaceEnv (fun _ => none) mode s).length ≤ (mode.text ++ s).length ∧
      ((replaceEnv (fun _ => none) mode s).length = (mode.text ++ s).length →
        NoVariable (mode.text ++ s)) := by
  induction s generalizing mode with
  | nil =>
      rw [List.append_nil]
      cases mode with
      | word => exact ⟨Nat.le_refl _, fun _ => .nil⟩
      | dollar => exact ⟨Nat.le_refl _, fun _ => .last⟩
      | braced name => exact ⟨Nat.le_refl _, fun _ => .unclosed hopen.1 hopen.2⟩
  | cons c s ih =>
      have hword := ih .word trivial
      cases mode with
      | word =>
          rw [replaceEnv]
          split_ifs with hc
          · subst hc
            exact ih .dollar trivial
          · refine ⟨Nat.succ_le_succ hword.1, fun hlength => ?_⟩
            exact .char hc (hword.2 (Nat.succ.inj hlength))
      | dollar =>
          rw [replaceEnv]
          split_ifs with hbrace hdollar
          · subst hbrace
            exact ih (.braced []) ⟨List.not_mem_nil, List.not_mem_nil⟩
          · -- `$$` gives one character for two, as `%%` does
            have hle : (replaceEnv (fun _ => none) .word s).length ≤ s.length := hword.1
            simp only [EnvMode.text, List.length_append, List.length_cons, List.length_nil]
            omega
          · refine ⟨Nat.succ_le_succ (Nat.succ_le_succ hword.1), fun hlength => ?_⟩
            exact .dollar hdollar hbrace (hword.2 (Nat.succ.inj (Nat.succ.inj hlength)))
      | braced name =>
          have hle : (replaceEnv (fun _ => none) .word s).length ≤ s.length := hword.1
          rw [replaceEnv]
          split_ifs with hbrace hcolon
          · -- a variable that ends is replaced by nothing
            simp only [EnvMode.text, Option.getD_none, List.nil_append, List.cons_append,
              List.length_append, List.length_cons]
            omega
          · subst hcolon
            simp only [EnvMode.text, List.cons_append, List.length_append, List.length_cons]
            refine ⟨by omega, fun hlength => ?_⟩
            exact .colon hopen.1 hopen.2 (hword.2 (by change _ = s.length; omega))
          · have hnext := ih (.braced (name ++ [c])) ?_
            · simpa [EnvMode.text] using hnext
            · simpa [EnvMode.Open, Ne.symm hbrace, Ne.symm hcolon] using hopen

/-- A word that is `$` and a name. -/
def isVariable (word : List Char) : Bool :=
  word.head? = some '$' && word.tail.head? ≠ some '\x7b' && word.tail.head? ≠ some '$'

/-- The words a word stands for: the parts of a variable's value between blanks, if the word is one,
and itself with its variables replaced, if not. -/
def expand (env : List Char → Option (List Char)) (word : List Char) : List (List Char) :=
  if isVariable word then
    (((env word.tail).getD []).splitOnP (· ∈ [' ', '\t', '\n', '\r'])).filter (· ≠ [])
  else [replaceEnv env .word word]

/-! ### Commands -/

/-- What a machine gives for the specifiers and the variables. -/
structure Manager where
  specifier : Char → Option (List Char)
  environment : List Char → Option (List Char)

/-- A program that is started: its file and its argument vector. -/
structure Command where
  path : List UInt8
  argv : List (List UInt8)
deriving DecidableEq

/-- What items are started as: the file is the first of them, after its specifiers. -/
def launch (manager : Manager) (items : List (List Char)) : Option Command :=
  (items.mapM (printf manager.specifier false)).bind fun items =>
    items.head?.map fun path =>
      { path := utf8 path, argv := (items.flatMap (expand manager.environment)).map utf8 }

/-- What a command line is started as. -/
def start (manager : Manager) (text : List Char) : Option Command :=
  (split text).bind (launch manager)

/-- An item that stands for itself. -/
structure Literal (item : List Char) : Prop where
  specifier : NoSpecifier item
  braces : NoVariable item
  word : isVariable item = false

theorem expand_of_literal {item : List Char} (h : Literal item)
    (env : List Char → Option (List Char)) : expand env item = [item] := by
  rw [expand, if_neg (by simp [h.word]), replaceEnv_of_noVariable h.braces]

/-- A machine without specifiers and variables. -/
def bare : Manager := ⟨fun _ => none, fun _ => none⟩

theorem expand_bare (word : List Char) :
    expand bare.environment word =
      if isVariable word then [] else [replaceEnv bare.environment .word word] := by
  rw [expand]
  rfl

theorem length_flatMap_expand_bare_le (words : List (List Char)) :
    (words.flatMap (expand bare.environment)).length ≤ words.length := by
  induction words with
  | nil => exact Nat.le_refl _
  | cons word words ih =>
      rw [List.flatMap_cons, List.length_append, expand_bare, List.length_cons]
      split_ifs <;> simp only [List.length_nil, List.length_singleton] <;> omega

/-- What that machine gives back is literal. -/
theorem literal_of_bare {item printed : List Char}
    (hprintf : printf bare.specifier false item = some printed)
    (hexpand : expand bare.environment printed = [item]) : Literal item := by
  rw [expand_bare] at hexpand
  split_ifs at hexpand with hword
  obtain ⟨hle, hkept⟩ := printf_bare false item printed hprintf
  obtain ⟨hle', hkept'⟩ := replaceEnv_bare .word trivial printed
  have hlength : (replaceEnv bare.environment .word printed).length = item.length := by
    rw [List.singleton_inj.mp hexpand]
  change printed.length ≤ item.length at hle
  change (replaceEnv bare.environment .word printed).length ≤ printed.length at hle'
  obtain ⟨rfl, hspecifier⟩ := hkept (show printed.length = item.length by omega)
  exact ⟨hspecifier, hkept' hlength, by simpa using hword⟩

theorem length_of_mapM {α β : Type} {f : α → Option β} {l : List α} {l' : List β}
    (h : l.mapM f = some l') : l'.length = l.length := by
  induction l generalizing l' with
  | nil =>
      cases h
      rfl
  | cons a l ih =>
      rw [List.mapM_cons] at h
      obtain ⟨b, -, hrest⟩ := Option.bind_eq_some_iff.mp h
      obtain ⟨bs, hbs, hcons⟩ := Option.bind_eq_some_iff.mp hrest
      cases hcons
      rw [List.length_cons, ih hbs, List.length_cons]

/-- **What that machine starts as it is** has only literal items. -/
theorem literal_of_launch_bare {items printed : List (List Char)}
    (hprintf : items.mapM (printf bare.specifier false) = some printed)
    (hexpand : printed.flatMap (expand bare.environment) = items) :
    ∀ item ∈ items, Literal item := by
  induction items generalizing printed with
  | nil => simp
  | cons item items ih =>
      rw [List.mapM_cons] at hprintf
      obtain ⟨word, hword, hrest⟩ := Option.bind_eq_some_iff.mp hprintf
      obtain ⟨words, hwords, hcons⟩ := Option.bind_eq_some_iff.mp hrest
      cases hcons
      -- each word becomes at most one, so each has to become one for there to be enough of them
      have hle := length_flatMap_expand_bare_le words
      rw [length_of_mapM hwords] at hle
      have hone := expand_bare word
      rw [List.flatMap_cons] at hexpand
      split_ifs at hone with hvariable
      · rw [hone, List.nil_append] at hexpand
        rw [hexpand, List.length_cons] at hle
        omega
      · rw [hone, List.singleton_append] at hexpand
        obtain ⟨hitem, hitems⟩ := List.cons.inj hexpand
        rw [hitem] at hone
        rw [List.forall_mem_cons]
        exact ⟨literal_of_bare hword hone, ih hwords hitems⟩

theorem mapM_printf_of_literal {items : List (List Char)} (h : ∀ item ∈ items, Literal item)
    (specifier : Char → Option (List Char)) :
    items.mapM (printf specifier false) = some items := by
  induction items with
  | nil => rfl
  | cons item items ih =>
      rw [List.forall_mem_cons] at h
      rw [List.mapM_cons, printf_of_noSpecifier h.1.specifier, ih h.2]
      rfl

/-- **When items are started as they are**, whatever the specifiers and the variables stand for. -/
theorem launch_eq_iff (path : List Char) (arguments : List (List Char)) :
    (∀ manager, launch manager (path :: arguments) =
      some ⟨utf8 path, (path :: arguments).map utf8⟩) ↔
      ∀ item ∈ path :: arguments, Literal item := by
  constructor
  · intro h
    obtain ⟨printed, hprintf, hhead⟩ := Option.bind_eq_some_iff.mp (h bare)
    obtain ⟨first, -, hcommand⟩ := Option.map_eq_some_iff.mp hhead
    have hargv := (Command.mk.inj hcommand).2
    exact literal_of_launch_bare hprintf
      (List.map_injective_iff.mpr (fun _ _ => utf8_inj) hargv)
  · intro h manager
    have hexpand : (path :: arguments).flatMap (expand manager.environment) =
        path :: arguments := by
      have hmap := List.map_congr_left (l := path :: arguments)
        fun item hitem => expand_of_literal (h item hitem) manager.environment
      rw [List.flatMap_def, hmap, ← List.flatMap_def, List.flatMap_singleton']
    rw [launch, mapM_printf_of_literal h, Option.bind_some, List.head?_cons, Option.map_some,
      hexpand]

end Systemd
