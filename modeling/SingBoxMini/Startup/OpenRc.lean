import SingBoxMini.Support.Bytes
import SingBoxMini.Support.Shell

/-!
# Startup — OpenRc

The service script of OpenRC (`render_openrc` and `shell_quote` in `src/startup.rs`).

Paths are bytes, of which `Path::display` makes a text.

* `spells_shellQuote`: a quoted text is one stretch of a word.
* `run_renderOpenrc`: the script sets its variables to the texts it was made of, whatever is in
  them, exports one of them and defines a function, and does nothing else.
* `openrc_starts_arguments`: `command_args` is evaluated to the arguments.
-/

namespace SingBoxMini.Startup
open Bytes Text Shell

/-- `shell_quote` -/
def shellQuote (value : List Char) : List Char :=
  "'".toList ++ replace '\'' "'\\''".toList value ++ "'".toList

/-- A line of the script that sets a variable to a quoted text. -/
def settingLine (name : String) (value : List Char) : List Char :=
  name.toList ++ "=".toList ++ shellQuote value ++ "\n".toList

/-- `render_openrc` -/
def renderOpenrc (executable workingDirectory : List UInt8) (user group : List Char)
    (arguments : List (List Char)) (logFile : Option (List UInt8)) : List Char :=
  let commandArguments := " ".toList.intercalate (arguments.map shellQuote)
  let logging := logFile.elim [] fun path =>
    settingLine "output_log" (display path) ++ settingLine "error_log" (display path)
  "#!/sbin/openrc-run\n\n".toList ++
  "description=\"Rust Hysteria 2 server and management UI\"\n".toList ++
  "export RUST_LOG=sing_box_ser_mini=info\n".toList ++
  settingLine "command" (display executable) ++
  settingLine "command_args" commandArguments ++
  settingLine "command_user" (user ++ ":".toList ++ group) ++
  settingLine "directory" (display workingDirectory) ++
  "supervisor=\"supervise-daemon\"\n".toList ++
  "respawn_delay=5\n".toList ++
  "respawn_max=0\n\n".toList ++
  logging ++
  "depend() \x7b\n    need net\n    after firewall\n\x7d\n".toList

/-! ### Quoted texts -/

/-- **A quoted text** is one stretch of a word, with nothing left to expand in it. -/
theorem spells_shellQuote (s : List Char) : Lexer.Spells (shellQuote s) (quoted s) := by
  intro lines line word
  have hinside : ∀ letters, Lexer.run ⟨lines, line, some letters, .single⟩
      (replace '\'' "'\\''".toList s ++ "'".toList) =
        some ⟨lines, line, some (letters ++ quoted s), .plain⟩ := by
    induction s with
    | nil =>
        intro letters
        rw [quoted, List.map_nil, List.append_nil]
        rfl
    | cons c s ih =>
        intro letters
        by_cases hc : c = '\''
        · -- out of the quotes, an escaped quote, and into quotes again
          subst hc
          rw [replace_cons_self]
          refine (ih (letters ++ [⟨true, '\''⟩])).trans ?_
          simp [quoted]
        · rw [replace_cons_of_ne hc, List.cons_append, Lexer.run_cons, Lexer.step_single hc,
            Option.bind_some, ih]
          simp [quoted]
  exact hinside _

theorem reads_settingLine (name : String)
    (h : (name.toList ++ "=".toList).all Lexer.isLetter = true) (s : List Char) :
    Reads (settingLine name s) [[setting name.toList (quoted s)]] := by
  have hspells := (Lexer.spells_letters h (by simp)).append (spells_shellQuote s)
  have hletters : unquoted (name.toList ++ "=".toList) ++ quoted s =
      unquoted name.toList ++ ⟨false, '='⟩ :: quoted s := by simp [unquoted]
  rw [hletters] at hspells
  exact hspells.reads

/-! ### The script -/

/-- The variables the script sets, the latest first. -/
def openrcVars (executable workingDirectory : List UInt8) (user group : List Char)
    (arguments : List (List Char)) (logFile : Option (List UInt8)) :
    List (List Char × List Char) :=
  (logFile.elim [] fun path =>
    [("error_log".toList, display path), ("output_log".toList, display path)]) ++
  [("respawn_max".toList, "0".toList), ("respawn_delay".toList, "5".toList),
    ("supervisor".toList, "supervise-daemon".toList),
    ("directory".toList, display workingDirectory),
    ("command_user".toList, user ++ ":".toList ++ group),
    ("command_args".toList, " ".toList.intercalate (arguments.map shellQuote)),
    ("command".toList, display executable),
    ("RUST_LOG".toList, "sing_box_ser_mini=info".toList),
    ("description".toList, "Rust Hysteria 2 server and management UI".toList)]

/-- The lines of the script before the first quoted text. -/
def headLines : List (List Token) :=
  [[], [],
    [setting "description".toList (quoted "Rust Hysteria 2 server and management UI".toList)],
    [.word (unquoted "export".toList),
      setting "RUST_LOG".toList (unquoted "sing_box_ser_mini=info".toList)]]

/-- The assignments behind them. -/
def openrcSettings (executable workingDirectory : List UInt8) (user group : List Char)
    (arguments : List (List Char)) : List (List Char × List Letter) :=
  [("command".toList, quoted (display executable)),
    ("command_args".toList, quoted (" ".toList.intercalate (arguments.map shellQuote))),
    ("command_user".toList, quoted (user ++ ":".toList ++ group)),
    ("directory".toList, quoted (display workingDirectory)),
    ("supervisor".toList, quoted "supervise-daemon".toList),
    ("respawn_delay".toList, unquoted "5".toList), ("respawn_max".toList, unquoted "0".toList)]

/-- The assignments of the logging. -/
def logSettings (logFile : Option (List UInt8)) : List (List Char × List Letter) :=
  logFile.elim [] fun path =>
    [("output_log".toList, quoted (display path)), ("error_log".toList, quoted (display path))]

/-- The lines of `depend`. -/
def dependLines : List (List Token) :=
  [[.word (unquoted "depend".toList), .openParen, .closeParen, .word (unquoted ['\x7b'])],
    [.word (unquoted "need".toList), .word (unquoted "net".toList)],
    [.word (unquoted "after".toList), .word (unquoted "firewall".toList)],
    [.word (unquoted ['\x7d'])]]

theorem reads_head :
    Reads ("#!/sbin/openrc-run\n\n".toList ++
      "description=\"Rust Hysteria 2 server and management UI\"\n".toList ++
      "export RUST_LOG=sing_box_ser_mini=info\n".toList) headLines := by
  decide +kernel

theorem reads_depend :
    Reads "depend() \x7b\n    need net\n    after firewall\n\x7d\n".toList dependLines := by
  decide +kernel

theorem reads_renderOpenrc (executable workingDirectory : List UInt8) (user group : List Char)
    (arguments : List (List Char)) (logFile : Option (List UInt8)) :
    Reads (renderOpenrc executable workingDirectory user group arguments logFile)
      (headLines ++
        ((openrcSettings executable workingDirectory user group arguments).map fun e =>
          [setting e.1 e.2]) ++ [[]] ++
        ((logSettings logFile).map fun e => [setting e.1 e.2]) ++ dependLines) := by
  have hsupervisor : Reads "supervisor=\"supervise-daemon\"\n".toList
      [[setting "supervisor".toList (quoted "supervise-daemon".toList)]] := by decide +kernel
  have hdelay : Reads "respawn_delay=5\n".toList
      [[setting "respawn_delay".toList (unquoted "5".toList)]] := by decide +kernel
  have hmax : Reads "respawn_max=0\n\n".toList
      [[setting "respawn_max".toList (unquoted "0".toList)], []] := by decide +kernel
  have h := reads_head.append (reads_settingLine "command" (by decide +kernel) (display executable))
  have h := h.append (reads_settingLine "command_args" (by decide +kernel)
    (" ".toList.intercalate (arguments.map shellQuote)))
  have h := h.append (reads_settingLine "command_user" (by decide +kernel)
    (user ++ ":".toList ++ group))
  have h := h.append (reads_settingLine "directory" (by decide +kernel) (display workingDirectory))
  have h := ((h.append hsupervisor).append hdelay).append hmax
  cases logFile with
  | none => exact (h.append .nil).append reads_depend
  | some path =>
      have hlogging := (reads_settingLine "output_log" (by decide +kernel) (display path)).append
        (reads_settingLine "error_log" (by decide +kernel) (display path))
      exact (h.append hlogging).append reads_depend

/-- **What the script does**: it sets its variables to the texts it was made of, whatever is in
them, exports one of them and defines `depend`. -/
theorem run_renderOpenrc (executable workingDirectory : List UInt8) (user group : List Char)
    (arguments : List (List Char)) (logFile : Option (List UInt8)) :
    Shell.run (renderOpenrc executable workingDirectory user group arguments logFile) =
      some {
        vars := openrcVars executable workingDirectory user group arguments logFile
        exported := ["RUST_LOG".toList]
        functions := [("depend".toList,
          [["need".toList, "net".toList], ["after".toList, "firewall".toList]])] } := by
  have hhead : headLines.foldlM State.exec {} = some {
      vars := [("RUST_LOG".toList, "sing_box_ser_mini=info".toList),
        ("description".toList, "Rust Hysteria 2 server and management UI".toList)]
      exported := ["RUST_LOG".toList] } := by
    decide +kernel
  have hdepend : ∀ vars exported, dependLines.foldlM State.exec ⟨vars, exported, [], none⟩ =
      some ⟨vars, exported, [("depend".toList,
        [["need".toList, "net".toList], ["after".toList, "firewall".toList]])], none⟩ :=
    fun vars exported => rfl
  have hnames : ∀ e ∈ openrcSettings executable workingDirectory user group arguments,
      isName e.1 = true := by
    have hall : ∀ name ∈ ["command".toList, "command_args".toList, "command_user".toList,
      "directory".toList, "supervisor".toList, "respawn_delay".toList, "respawn_max".toList],
        isName name = true := by decide +kernel
    exact fun e he => hall e.1 (List.mem_map_of_mem (f := Prod.fst) he)
  have hlogging : ∀ e ∈ logSettings logFile, isName e.1 = true := by
    have hall : ∀ name ∈ ["output_log".toList, "error_log".toList], isName name = true := by
      decide +kernel
    cases logFile with
    | none => simp [logSettings]
    | some path => exact fun e he => hall e.1 (List.mem_map_of_mem (f := Prod.fst) he)
  have hblank : ∀ vars exported, [[]].foldlM State.exec ⟨vars, exported, [], none⟩ =
    some ⟨vars, exported, [], none⟩ := fun vars exported => rfl
  refine run_of_reads (reads_renderOpenrc executable workingDirectory user group arguments logFile)
    ?_ rfl
  simp only [List.foldlM_append, Option.bind_eq_bind, Option.bind_some, hhead,
    exec_settings _ _ _ _ hnames, exec_settings _ _ _ _ hlogging, hblank, hdepend]
  cases logFile <;> simp [openrcSettings, logSettings, openrcVars]

/-- **The arguments the service is started with.**  For every list of arguments, whatever else the
script is made of: the script sets `command_args` to a text that `eval` reads as these arguments,
and a text that is quoted once is one word. -/
theorem openrc_starts_arguments (executable workingDirectory : List UInt8)
    (user group : List Char) (arguments : List (List Char)) (logFile : Option (List UInt8)) :
    (∃ shell commandArgs,
      Shell.run (renderOpenrc executable workingDirectory user group arguments logFile) =
        some shell ∧
      shell.get "command_args".toList = some commandArgs ∧
      words commandArgs = some arguments) ∧
    ∀ s, words (shellQuote s) = some [s] := by
  refine ⟨⟨_, _, run_renderOpenrc executable workingDirectory user group arguments logFile, ?_,
    words_intercalate spells_shellQuote arguments⟩, fun s => ?_⟩
  · cases logFile <;> rfl
  · rw [words_of_spells (spells_shellQuote s), value_quoted]

end SingBoxMini.Startup
