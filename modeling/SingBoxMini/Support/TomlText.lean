import SingBoxMini.Support.Text

/-!
# Support — TomlText

Documents of TOML 1.0 with one key or header a line, whose strings are basic strings without
escapes and whose integers have no sign.

* `readText_textLine`, `readNumber_numberLine`: a key is read back.
* `documentLines_document`: so are the lines of a document.
* `readPairs_document`: so is an array of tables with two texts each.
-/

namespace TomlText

/-- The text stands in a basic string as it is. -/
def plain (text : List Char) : Bool := text.all fun c => !Text.isControl c && c ≠ '"' && c ≠ '\\'

/-- `key = "value"` -/
def textLine (key : String) (value : List Char) : List Char :=
  key.toList ++ " = \"".toList ++ (value ++ ['"'])

/-- The value of such a line. -/
def readText (key : String) (line : List Char) : Option (List Char) :=
  ((Text.stripStart (key.toList ++ " = \"".toList) line).filter (·.getLast? = some '"')).map
    List.dropLast

@[simp] theorem readText_textLine (key : String) (value : List Char) :
    readText key (textLine key value) = some value := by
  rw [readText, textLine, Text.stripStart_append]
  simp

theorem newline_not_mem_of_plain {value : List Char} (h : plain value = true) : '\n' ∉ value :=
  fun hmem => absurd (List.all_eq_true.mp h _ hmem) (by decide)

theorem newline_not_mem_textLine {key : String} {value : List Char} (hkey : '\n' ∉ key.toList)
    (h : plain value = true) : '\n' ∉ textLine key value := by
  simp [textLine, hkey, newline_not_mem_of_plain h]

/-- `key = number` -/
def numberLine (key : String) (n : Nat) : List Char :=
  key.toList ++ " = ".toList ++ Nat.toDigits 10 n

/-- The number of such a line. -/
def readNumber (key : String) (line : List Char) : Option Nat :=
  ((Text.stripStart (key.toList ++ " = ".toList) line).filter (·.all Char.isDigit)).map
    (Nat.ofDigitChars 10 · 0)

theorem readNumber_numberLine (key : String) (n : Nat) :
    readNumber key (numberLine key n) = some n := by
  have hdigits : (Nat.toDigits 10 n).all Char.isDigit = true :=
    List.all_eq_true.mpr fun c hc => Nat.isDigit_of_mem_toDigits (by decide) (by decide) hc
  rw [readNumber, numberLine, Text.stripStart_append, Option.filter_some, if_pos hdigits,
    Option.map_some, Nat.ofDigitChars_ten_toDigits]

theorem newline_not_mem_numberLine {key : String} (hkey : '\n' ∉ key.toList) (n : Nat) :
    '\n' ∉ numberLine key n := by
  have hdigits : '\n' ∉ Nat.toDigits 10 n := fun hmem =>
    absurd (Nat.isDigit_of_mem_toDigits (by decide) (by decide) hmem) (by decide)
  simp [numberLine, hkey, hdigits]

theorem numberLine_ne_nil (key : String) (n : Nat) : numberLine key n ≠ [] := by
  simp [numberLine]

/-- The text of the lines. -/
def document (lines : List (List Char)) : List Char := lines.flatMap (· ++ ['\n'])

/-- The lines of a text. -/
def documentLines (text : List Char) : List (List Char) := (text.splitOn '\n').dropLast

theorem documentLines_document {lines : List (List Char)} (h : ∀ line ∈ lines, '\n' ∉ line) :
    documentLines (document lines) = lines := by
  have hsplit := Text.splitOn_unlines_append h []
  rw [List.append_nil] at hsplit
  rw [documentLines, document, hsplit]
  exact List.dropLast_concat

/-! ### Tables with two texts -/

section

variable (header key key' : String)

/-- The lines of an array of tables with two texts. -/
def pairLines (pairs : List (List Char × List Char)) : List (List Char) :=
  pairs.flatMap fun pair => [header.toList, textLine key pair.1, textLine key' pair.2]

/-- The texts of such lines. -/
def readPairs : List (List Char) → Option (List (List Char × List Char))
  | [] => some []
  | line :: text :: text' :: rest => do
    guard (line = header.toList)
    some ((← readText key text, ← readText key' text') :: (← readPairs rest))
  | _ => none

theorem readPairs_pairLines (pairs : List (List Char × List Char)) :
    readPairs header key key' (pairLines header key key' pairs) = some pairs := by
  induction pairs with
  | nil => rfl
  | cons pair pairs ih =>
      rw [pairLines] at ih ⊢
      simp [readPairs, ih]

end

/-- **An array of tables is read back** if its texts need no escapes. -/
theorem readPairs_document {header key key' : String} {pairs : List (List Char × List Char)}
    (hheader : '\n' ∉ header.toList) (hkey : '\n' ∉ key.toList) (hkey' : '\n' ∉ key'.toList)
    (h : pairs.all (fun pair => plain pair.1 && plain pair.2) = true) :
    readPairs header key key' (documentLines (document (pairLines header key key' pairs))) =
      some pairs := by
  have hlines : ∀ line ∈ pairLines header key key' pairs, '\n' ∉ line := by
    intro line hline
    obtain ⟨pair, hpair, hline⟩ := List.mem_flatMap.mp hline
    have hplain := Bool.and_eq_true_iff.mp (List.all_eq_true.mp h pair hpair)
    simp only [List.mem_cons, List.not_mem_nil, or_false] at hline
    rcases hline with rfl | rfl | rfl
    · exact hheader
    · exact newline_not_mem_textLine hkey hplain.1
    · exact newline_not_mem_textLine hkey' hplain.2
  rw [documentLines_document hlines, readPairs_pairLines]

end TomlText
