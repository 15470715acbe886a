import SingBoxMini.Support.Text

/-!
# Support — Shell

The part of the POSIX shell language that settings are written in: words with quotes, comments,
assignments, `export`, and functions, whose bodies are kept as lines of words.

A script is read character by character into lines of tokens, and the lines are executed one after
the other.  What is outside of this part (an expansion, a pattern, another operator or command) is
not read as anything, so a script with a result has none of it.  A text has no NUL, as no file of a
script and no argument has.

* `Reads.append`: the lines of texts behind each other.
* `Spells.append`, `spells_letters`: a stretch of a word behind another one, and one of letters
  without a meaning of their own.
* `exec_settings`: what lines do that are assignments.
-/

namespace Shell

/-! ### Tokens -/

/-- A character of a word, with whether it is quoted. -/
structure Letter where
  quoted : Bool
  char : Char
deriving DecidableEq

/-- A word or a parenthesis. -/
inductive Token where
  | word (letters : List Letter)
  | openParen
  | closeParen
deriving DecidableEq

/-- Letters outside of quotes. -/
def unquoted (s : List Char) : List Letter := s.map (⟨false, ·⟩)

/-- Letters in quotes. -/
def quoted (s : List Char) : List Letter := s.map (⟨true, ·⟩)

/-- Quote removal. -/
def value (letters : List Letter) : List Char := letters.map (·.char)

@[simp] theorem value_quoted (s : List Char) : value (quoted s) = s := by
  rw [value, quoted, List.map_map]
  exact List.map_id s

@[simp] theorem value_unquoted (s : List Char) : value (unquoted s) = s := by
  rw [value, unquoted, List.map_map]
  exact List.map_id s

/-- What the next character is read by. -/
inductive Mode where
  | plain
  | escaped
  | single
  | double
  | doubleEscaped
  | comment
deriving DecidableEq

/-- The lexer: the lines that have ended, the tokens of the next one, and the word it is in, if it
is in one. -/
structure Lexer where
  lines : List (List Token) := []
  line : List Token := []
  word : Option (List Letter) := none
  mode : Mode := .plain
deriving DecidableEq

namespace Lexer

/-- The word ends. -/
def delimit (l : Lexer) : Lexer :=
  { l with line := l.line ++ (l.word.map Token.word).toList, word := none }

/-- The word ends before a token. -/
def emit (l : Lexer) (token : Token) : Lexer :=
  { l.delimit with line := l.delimit.line ++ [token] }

/-- The line ends. -/
def newline (l : Lexer) : Lexer :=
  { lines := l.lines ++ [l.delimit.line] }

/-- A letter of a word. -/
def push (l : Lexer) (quoted : Bool) (c : Char) : Lexer :=
  { l with word := some (l.word.getD [] ++ [⟨quoted, c⟩]) }

/-- A quote begins a word, even one without letters. -/
def enter (l : Lexer) (mode : Mode) : Lexer :=
  { l with word := some (l.word.getD []), mode }

/-- A character that stands outside of quotes for an expansion, a pattern or an operator. -/
def isSpecial (c : Char) : Bool :=
  c ∈ ['$', '\x60', '&', ';', '|', '<', '>', '*', '?', '[', '~']

/-- A character outside of quotes. -/
def plainStep (l : Lexer) (c : Char) : Option Lexer :=
  if c = ' ' ∨ c = '\t' then some l.delimit
  else if c = '\n' then some l.newline
  else if c = '(' then some (l.emit .openParen)
  else if c = ')' then some (l.emit .closeParen)
  else if c = '\'' then some (l.enter .single)
  else if c = '"' then some (l.enter .double)
  else if c = '\\' then some { l with mode := .escaped }
  else if c = '#' ∧ l.word = none then some { l with mode := .comment }
  -- expansions, patterns and operators are not in this model
  else if isSpecial c then none
  else some (l.push false c)

/-- One character. -/
def step (l : Lexer) (c : Char) : Option Lexer :=
  match l.mode with
  | .plain => l.plainStep c
  | .escaped =>
    -- a line goes on behind an escaped line end
    some { (if c = '\n' then l else l.push true c) with mode := .plain }
  | .single => some (if c = '\'' then { l with mode := .plain } else l.push true c)
  | .double =>
    if c = '"' then some { l with mode := .plain }
    else if c = '\\' then some { l with mode := .doubleEscaped }
    else if c = '$' ∨ c = '\x60' then none
    else some (l.push true c)
  | .doubleEscaped =>
    if c = '\n' then some { l with mode := .double }
    else if c ∈ ['$', '\x60', '"', '\\'] then some { l.push true c with mode := .double }
    -- before any other character the backslash is a letter too
    else some { (l.push true '\\').push true c with mode := .double }
  | .comment => some (if c = '\n' then l.newline else l)

/-- A text. -/
def run (l : Lexer) (text : List Char) : Option Lexer := text.foldlM step l

/-- The lines at the end of a text, where no quote is open. -/
def finish (l : Lexer) : Option (List (List Token)) :=
  if l.mode = .plain ∨ l.mode = .comment then some (l.lines ++ [l.delimit.line]) else none

theorem run_cons (l : Lexer) (c : Char) (text : List Char) :
    l.run (c :: text) = (l.step c).bind (·.run text) := rfl

theorem run_append (l : Lexer) (text more : List Char) :
    l.run (text ++ more) = (l.run text).bind (·.run more) := List.foldlM_append

/-! ### Lines behind other lines -/

/-- A lexer behind lines that have ended. -/
def behind (lines : List (List Token)) (l : Lexer) : Lexer := { l with lines := lines ++ l.lines }

theorem newline_behind (lines : List (List Token)) (l : Lexer) :
    (l.behind lines).newline = l.newline.behind lines := by
  simp [newline, behind, delimit]

theorem plainStep_behind (lines : List (List Token)) (l : Lexer) (c : Char) :
    (l.behind lines).plainStep c = (l.plainStep c).map (behind lines) := by
  simp only [plainStep, newline_behind, apply_ite (Option.map (behind lines)), Option.map_some,
    Option.map_none]
  rfl

/-- The lines that have ended are only added to. -/
theorem step_behind (lines : List (List Token)) (l : Lexer) (c : Char) :
    (l.behind lines).step c = (l.step c).map (behind lines) := by
  obtain ⟨ended, line, word, mode⟩ := l
  cases mode with
  | plain => exact plainStep_behind lines ⟨ended, line, word, .plain⟩ c
  | escaped =>
      simp only [step, behind, push]
      split_ifs <;> rfl
  | single =>
      simp only [step, behind, push]
      split_ifs <;> rfl
  | double =>
      simp only [step, behind, push]
      split_ifs <;> rfl
  | doubleEscaped =>
      simp only [step, behind, push]
      split_ifs <;> rfl
  | comment =>
      have hnewline := newline_behind lines ⟨ended, line, word, .comment⟩
      simp only [step, behind] at hnewline ⊢
      split_ifs
      · rw [hnewline]
        rfl
      · rfl

theorem run_behind (lines : List (List Token)) (l : Lexer) (text : List Char) :
    (l.behind lines).run text = (l.run text).map (behind lines) := by
  induction text generalizing l with
  | nil => rfl
  | cons c text ih =>
      rw [run_cons, run_cons, step_behind]
      cases l.step c with
      | none => rfl
      | some next => exact ih next

/-! ### Stretches of a word -/

/-- Letters without a meaning of their own. -/
def isLetter (c : Char) : Bool :=
  !isSpecial c && c ∉ [' ', '\t', '\n', '(', ')', '\'', '"', '\\', '#']

theorem step_letter {c : Char} (h : isLetter c = true) (l : Lexer) (hmode : l.mode = .plain) :
    l.step c = some (l.push false c) := by
  simp only [isLetter, Bool.and_eq_true, Bool.not_eq_true', decide_eq_true_eq, List.mem_cons,
    List.not_mem_nil, or_false, not_or] at h
  obtain ⟨hspecial, hspace, htab, hline, hopen, hclose, hquote, hdouble, hescape, hhash⟩ := h
  simp [step, plainStep, *]

/-- A text is a stretch of a word, with these letters. -/
def Spells (text : List Char) (letters : List Letter) : Prop :=
  ∀ lines line word, run ⟨lines, line, word, .plain⟩ text =
    some ⟨lines, line, some (word.getD [] ++ letters), .plain⟩

theorem Spells.append {text more : List Char} {letters letters' : List Letter}
    (h : Spells text letters) (h' : Spells more letters') :
    Spells (text ++ more) (letters ++ letters') := by
  intro lines line word
  rw [run_append, h, Option.bind_some, h', Option.getD_some, List.append_assoc]

theorem spells_letters {s : List Char} (h : s.all isLetter = true) (hne : s ≠ []) :
    Spells s (unquoted s) := by
  intro lines line word
  induction s generalizing word with
  | nil => exact absurd rfl hne
  | cons c s ih =>
      rw [List.all_cons, Bool.and_eq_true] at h
      rw [run_cons, step_letter h.1 _ rfl, Option.bind_some]
      cases s with
      | nil => rfl
      | cons d s =>
          refine (ih h.2 (List.cons_ne_nil d s) _).trans ?_
          simp [unquoted]

/-- In single quotes every character but the quote is itself. -/
theorem step_single {c : Char} (h : c ≠ '\'') (lines : List (List Token)) (line : List Token)
    (letters : List Letter) :
    step ⟨lines, line, some letters, .single⟩ c =
      some ⟨lines, line, some (letters ++ [⟨true, c⟩]), .single⟩ := by
  simp [step, h, push]

end Lexer

/-! ### Texts of whole lines -/

/-- A text is read as these lines, each with its end. -/
def Reads (text : List Char) (lines : List (List Token)) : Prop :=
  Lexer.run {} text = some { lines }

instance (text : List Char) (lines : List (List Token)) : Decidable (Reads text lines) :=
  inferInstanceAs (Decidable (_ = _))

theorem Reads.nil : Reads [] [] := rfl

variable {text : List Char} {lines : List (List Token)}

/-- **Lines behind lines.** -/
theorem Reads.append {more : List Char} {lines' : List (List Token)} (h : Reads text lines)
    (h' : Reads more lines') : Reads (text ++ more) (lines ++ lines') := by
  have hbehind := Lexer.run_behind lines {} more
  rw [Lexer.behind, List.append_nil] at hbehind
  rw [Reads] at h h' ⊢
  rw [Lexer.run_append, h, Option.bind_some, hbehind, h']
  rfl

/-- A word on a line. -/
theorem Lexer.Spells.reads {letters : List Letter} (h : Spells text letters) :
    Reads (text ++ "\n".toList) [[.word letters]] := by
  rw [Reads, run_append, h]
  rfl

/-- The lines of a text, with the one it ends in. -/
def lex (text : List Char) : Option (List (List Token)) := (Lexer.run {} text).bind Lexer.finish

theorem lex_of_reads (h : Reads text lines) :
    lex text = some (lines ++ [[]]) := by
  rw [lex, h]
  rfl

/-! ### Words -/

/-- The text of a word. -/
def Token.text? : Token → Option (List Char)
  | .word letters => some (value letters)
  | _ => none

/-- The words of a text that is one command, as `eval` reads it. -/
def words (text : List Char) : Option (List (List Char)) :=
  (lex text).bind fun lines =>
    match lines with
    | [line] => line.mapM Token.text?
    | _ => none

/-- A word alone. -/
theorem words_of_spells {letters : List Letter} (h : Lexer.Spells text letters) :
    words text = some [value letters] := by
  rw [words, lex, h]
  rfl

theorem mapM_text?_quoted (texts : List (List Char)) :
    (texts.map fun s => Token.word (quoted s)).mapM Token.text? = some texts := by
  induction texts with
  | nil => rfl
  | cons s texts ih =>
      rw [List.map_cons, List.mapM_cons, ih, Token.text?, value_quoted]
      rfl

/-- **Quoted words with blanks between them.** -/
theorem words_intercalate {quote : List Char → List Char}
    (h : ∀ s, Lexer.Spells (quote s) (quoted s)) (texts : List (List Char)) :
    words (" ".toList.intercalate (texts.map quote)) = some texts := by
  have hfinish : ∀ xs : List (List Char),
      Lexer.finish ⟨[], xs.map fun s => .word (quoted s), none, .plain⟩ =
        some [xs.map fun s => .word (quoted s)] := by
    intro xs
    simp [Lexer.finish, Lexer.delimit]
  have hword : ∀ (xs : List (List Char)) (s : List Char), ∃ l,
      (quote s).foldlM Lexer.step ⟨[], xs.map fun s => .word (quoted s), none, .plain⟩ = some l ∧
      l.finish = some [(xs ++ [s]).map fun s => .word (quoted s)] ∧
      " ".toList.foldlM Lexer.step l =
        some ⟨[], (xs ++ [s]).map fun s => .word (quoted s), none, .plain⟩ := by
    intro xs s
    -- behind a word the text may end, or a blank puts the word on the line
    refine ⟨_, h s _ _ _, ?_, ?_⟩
    · simp [Lexer.finish, Lexer.delimit]
    · change some _ = some _
      simp [Lexer.delimit]
  have hlex : lex (" ".toList.intercalate (texts.map quote)) =
      some [texts.map fun s => .word (quoted s)] :=
    Text.foldlM_intercalate hfinish hword texts []
  rw [words, hlex]
  exact mapM_text?_quoted texts

/-! ### Commands -/

/-- The characters of names. -/
def isNameChar (c : Char) : Bool := c.isAlphanum || c = '_'

/-- The name of a variable or of a function. -/
def isName (name : List Char) : Bool :=
  name.all isNameChar && name.head?.any (!·.isDigit)

/-- A word with a name and `=` in front is an assignment. -/
def assignment? (letters : List Letter) : Option (List Char × List Char) :=
  let name := value (letters.takeWhile fun letter => !letter.quoted && isNameChar letter.char)
  match letters.drop name.length with
  | ⟨false, '='⟩ :: rest => if isName name then some (name, value rest) else none
  | _ => none

/-- The assignment a token is. -/
def Token.assignment? : Token → Option (List Char × List Char)
  | .word letters => Shell.assignment? letters
  | _ => none

/-- What has been set, the latest first, and the function whose body is being read. -/
structure State where
  vars : List (List Char × List Char) := []
  exported : List (List Char) := []
  functions : List (List Char × List (List (List Char))) := []
  reading : Option (List Char × List (List (List Char))) := none
deriving DecidableEq

namespace State

/-- The value of a variable. -/
def get (s : State) (name : List Char) : Option (List Char) := s.vars.lookup name

/-- Variables are set. -/
def assign (s : State) (assigned : List (List Char × List Char)) : State :=
  { s with vars := assigned.reverse ++ s.vars }

/-- A line outside of a body. -/
def command (s : State) : List Token → Option State
  | [] => some s
  | [.word name, .openParen, .closeParen, .word brace] =>
    if isName (value name) ∧ name = unquoted (value name) ∧ brace = unquoted ['\x7b'] then
      some { s with reading := some (value name, []) }
    else none
  | .word first :: rest =>
    if first = unquoted "export".toList then
      (rest.mapM Token.assignment?).map fun assigned =>
        { s.assign assigned with exported := s.exported ++ assigned.map Prod.fst }
    else ((.word first :: rest).mapM Token.assignment?).map s.assign
  | _ => none

/-- One line. -/
def exec (s : State) (line : List Token) : Option State :=
  match s.reading with
  | none => s.command line
  | some (name, body) =>
    if line = [.word (unquoted ['\x7d'])] then
      some { s with functions := (name, body) :: s.functions, reading := none }
    else (line.mapM Token.text?).map fun words =>
      { s with reading := some (name, body ++ [words]) }

end State

/-- A script. -/
def run (text : List Char) : Option State :=
  (lex text).bind fun lines =>
    (lines.foldlM State.exec {}).bind fun s => if s.reading.isNone then some s else none

/-- A script of whole lines. -/
theorem run_of_reads (h : Reads text lines) {s : State}
    (hexec : lines.foldlM State.exec {} = some s) (hreading : s.reading = none) :
    run text = some s := by
  have hlast : s.exec [] = some s := by
    rw [State.exec, hreading]
    rfl
  rw [run, lex_of_reads h, Option.bind_some, List.foldlM_append, hexec]
  simp [hlast, hreading]

/-- A name, `=` and letters. -/
def setting (name : List Char) (letters : List Letter) : Token :=
  .word (unquoted name ++ ⟨false, '='⟩ :: letters)

theorem assignment?_setting {name : List Char} (h : isName name = true) (letters : List Letter) :
    (setting name letters).assignment? = some (name, value letters) := by
  have hchars : ∀ letter ∈ unquoted name,
      (!letter.quoted && isNameChar letter.char) = true := by
    intro letter hletter
    obtain ⟨c, hc, rfl⟩ := List.mem_map.mp hletter
    rw [isName, Bool.and_eq_true, List.all_eq_true] at h
    simpa using h.1 c hc
  have hname : (unquoted name ++ ⟨false, '='⟩ :: letters).takeWhile
      (fun letter => !letter.quoted && isNameChar letter.char) = unquoted name := by
    rw [List.takeWhile_append_of_pos hchars, List.takeWhile_cons_of_neg (by decide),
      List.append_nil]
  have hlength : name.length = (unquoted name).length := by simp [unquoted]
  rw [setting, Token.assignment?, assignment?]
  simp only [hname, value_unquoted]
  rw [hlength, List.drop_left]
  exact if_pos h

/-- **What an assignment does.** -/
theorem exec_setting {name : List Char} (h : isName name = true) (letters : List Letter)
    (vars : List (List Char × List Char)) (exported : List (List Char))
    (functions : List (List Char × List (List (List Char)))) :
    State.exec ⟨vars, exported, functions, none⟩ [setting name letters] =
      some ⟨(name, value letters) :: vars, exported, functions, none⟩ := by
  have hassignment := assignment?_setting h letters
  have hfirst : unquoted name ++ ⟨false, '='⟩ :: letters ≠ unquoted "export".toList := by
    intro heq
    have hexport : assignment? (unquoted "export".toList) = none := by decide
    rw [setting, heq, Token.assignment?, hexport] at hassignment
    cases hassignment
  rw [setting] at hassignment ⊢
  simp only [State.exec, State.command]
  rw [if_neg hfirst, List.mapM_cons, hassignment]
  rfl

/-- Assignments, line by line. -/
theorem exec_settings (exported : List (List Char))
    (functions : List (List Char × List (List (List Char)))) :
    ∀ (settings : List (List Char × List Letter)) (vars : List (List Char × List Char)),
      (∀ e ∈ settings, isName e.1 = true) →
      (settings.map fun e => [setting e.1 e.2]).foldlM State.exec
          ⟨vars, exported, functions, none⟩ =
        some ⟨(settings.map fun e => (e.1, value e.2)).reverse ++ vars, exported, functions,
          none⟩ := by
  intro settings
  induction settings with
  | nil => intro vars _; rfl
  | cons e settings ih =>
      intro vars h
      rw [List.forall_mem_cons] at h
      rw [List.map_cons, List.foldlM_cons, exec_setting h.1]
      refine (ih ((e.1, value e.2) :: vars) h.2).trans ?_
      simp

end Shell
