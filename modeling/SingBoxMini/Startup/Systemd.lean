import SingBoxMini.Support.Systemd

/-!
# Startup — Systemd

The unit of systemd (`render_systemd`, `systemd_quote` and `systemd_value` in `src/startup.rs`).

* `split_execCommand`: the quotes and the escapes give the items back.
* `systemd_starts_command_iff`: so do the specifiers and the variables exactly if the path is UTF-8
  and no item has any, for the quotes do not keep systemd from replacing them.
* `start_execCommand`: it is enough that there are no percent and no dollar signs.
-/

namespace SingBoxMini.Startup
open Bytes Text Systemd

/-- `systemd_quote` -/
def systemdQuote (value : List Char) : List Char :=
  "\"".toList ++ replace '"' "\\\"".toList (replace '\\' "\\\\".toList value) ++ "\"".toList

/-- `systemd_value` -/
def systemdValue (value : List Char) : List Char :=
  replace '\t' "\\t".toList (replace ' ' "\\x20".toList (replace '\\' "\\\\".toList value))

/-- The `command` of `render_systemd`. -/
def execCommand (executable : List UInt8) (arguments : List (List Char)) : List Char :=
  " ".toList.intercalate ((display executable :: arguments).map systemdQuote)

/-- The lines of `render_systemd` before `ExecStart`. -/
def unitHead (workingDirectory : List UInt8) (user : List Char) : List Char :=
  "[Unit]\n".toList ++
  "Description=Rust Hysteria 2 server and management UI\n".toList ++
  "After=network-online.target\n".toList ++
  "Wants=network-online.target\n\n".toList ++
  "[Service]\n".toList ++
  "Type=simple\n".toList ++
  "User=".toList ++ systemdValue user ++ "\n".toList ++
  "WorkingDirectory=".toList ++ systemdValue (display workingDirectory) ++ "\n".toList ++
  "Environment=RUST_LOG=sing_box_ser_mini=info\n".toList

/-- The lines behind it. -/
def unitTail : List Char :=
  "Restart=on-failure\n".toList ++
  "RestartSec=5s\n".toList ++
  "NoNewPrivileges=true\n\n".toList ++
  "[Install]\n".toList ++
  "WantedBy=multi-user.target\n".toList

/-- `render_systemd` -/
def renderSystemd (executable workingDirectory : List UInt8) (user : List Char)
    (arguments : List (List Char)) : List Char :=
  unitHead workingDirectory user ++
  "ExecStart=".toList ++ execCommand executable arguments ++ "\n".toList ++
  unitTail

/-! ### Quoted items -/

/-- **A quoted text** is one stretch of an item. -/
theorem run_systemdQuote (s : List Char) (items : List (List Char)) (item : Option (List Char)) :
    Splitter.run ⟨items, item, none, false⟩ (systemdQuote s) =
      some ⟨items, some (item.getD [] ++ s), none, false⟩ := by
  have hinside : ∀ start, Splitter.run ⟨items, some start, some '"', false⟩
      (replace '"' "\\\"".toList (replace '\\' "\\\\".toList s) ++ "\"".toList) =
        some ⟨items, some (start ++ s), none, false⟩ := by
    induction s with
    | nil => intro start; rw [List.append_nil]; rfl
    | cons c s ih =>
        intro start
        -- the quotes are escaped after the backslashes, so no backslash is escaped twice
        by_cases hescape : c = '\\'
        · subst hescape
          rw [replace_cons_self]
          refine (ih (start ++ ['\\'])).trans ?_
          simp
        · rw [replace_cons_of_ne hescape]
          by_cases hquote : c = '"'
          · subst hquote
            rw [replace_cons_self]
            refine (ih (start ++ ['"'])).trans ?_
            simp
          · rw [replace_cons_of_ne hquote, List.cons_append, Splitter.run_cons,
              Splitter.step_quoted hquote hescape, Option.bind_some, ih]
            simp
  exact hinside _

/-- **The items are given back** by the quotes and the escapes. -/
theorem split_execCommand (executable : List UInt8) (arguments : List (List Char)) :
    split (execCommand executable arguments) = some (display executable :: arguments) := by
  have hfinish : ∀ xs : List (List Char), Splitter.finish ⟨xs, none, none, false⟩ = some xs := by
    intro xs
    simp [Splitter.finish, Splitter.delimit]
  exact foldlM_intercalate hfinish
    (fun xs s => ⟨_, run_systemdQuote s xs none, rfl, rfl⟩) (display executable :: arguments) []

theorem newline_not_mem_systemdQuote {s : List Char} (h : '\n' ∉ s) : '\n' ∉ systemdQuote s := by
  intro hmem
  rw [systemdQuote, List.mem_append, List.mem_append] at hmem
  rcases hmem with (hmem | hmem) | hmem
  · exact absurd hmem (by decide +kernel)
  -- the escapes put in backslashes and quotes only
  · rcases of_mem_replace hmem with hmem | hmem
    · rcases of_mem_replace hmem with hmem | hmem
      · exact h hmem
      · exact absurd hmem (by decide +kernel)
    · exact absurd hmem (by decide +kernel)
  · exact absurd hmem (by decide +kernel)

/-- **The value is one line** if no item has a line feed. -/
theorem newline_not_mem_execCommand {executable : List UInt8} {arguments : List (List Char)}
    (h : ∀ item ∈ display executable :: arguments, '\n' ∉ item) :
    '\n' ∉ execCommand executable arguments := by
  intro hmem
  rcases of_mem_intercalate hmem with hsep | ⟨part, hpart, hmem⟩
  · exact absurd hsep (by decide +kernel)
  · obtain ⟨item, hitem, rfl⟩ := List.mem_map.mp hpart
    exact newline_not_mem_systemdQuote (h item hitem) hmem

/-- `ExecStart` is at the start of a line. -/
theorem getLast?_unitHead (workingDirectory : List UInt8) (user : List Char) :
    (unitHead workingDirectory user).getLast? = some '\n' := by
  have hlast : ∀ (s t : List Char), t.getLast? = some '\n' → (s ++ t).getLast? = some '\n' := by
    intro s t h
    rw [List.getLast?_append, h]
    rfl
  exact hlast _ _ (by decide +kernel)

/-- **When systemd starts the same command.**  The unit sets `ExecStart` at the start of a line, to
a value that is the rest of the line if no item has a line feed.  This value is started as the
executable with the arguments, whatever the specifiers and the variables stand for, exactly if the
path is UTF-8 and every item is literal. -/
theorem systemd_starts_command_iff (executable workingDirectory : List UInt8) (user : List Char)
    (arguments : List (List Char)) :
    ∃ before after value, renderSystemd executable workingDirectory user arguments =
        before ++ "ExecStart=".toList ++ value ++ "\n".toList ++ after ∧
      before.getLast? = some '\n' ∧
      value = execCommand executable arguments ∧
      ((∀ item ∈ display executable :: arguments, '\n' ∉ item) → '\n' ∉ value) ∧
      ((∀ manager, start manager value = some ⟨executable, executable :: arguments.map utf8⟩) ↔
        ∃ path, utf8 path = executable ∧ ∀ item ∈ path :: arguments, Literal item) := by
  refine ⟨_, _, _, rfl, getLast?_unitHead workingDirectory user, rfl,
    newline_not_mem_execCommand, ?_⟩
  simp only [start, split_execCommand, Option.bind_some]
  constructor
  · intro h
    -- the path that is started is a text, so the executable is the text it is displayed as
    obtain ⟨printed, -, hhead⟩ := Option.bind_eq_some_iff.mp (h bare)
    obtain ⟨path, -, hcommand⟩ := Option.map_eq_some_iff.mp hhead
    obtain rfl : utf8 path = executable := (Command.mk.inj hcommand).1
    rw [display, ofUtf8Lossy_utf8] at h
    exact ⟨path, rfl, (launch_eq_iff path arguments).mp h⟩
  · rintro ⟨path, rfl, hliteral⟩ manager
    rw [display, ofUtf8Lossy_utf8]
    exact (launch_eq_iff path arguments).mpr hliteral manager

/-- **A doubled percent sign is halved**, on every machine. -/
theorem doubled_percent_halved :
    (∀ manager, start manager (execCommand (utf8 "/opt/server".toList)
        ["--config".toList, "/srv/50%%".toList]) =
      some ⟨utf8 "/opt/server".toList,
        ["/opt/server".toList, "--config".toList, "/srv/50%".toList].map utf8⟩) ∧
    (["/opt/server".toList, "--config".toList, "/srv/50%".toList].map utf8 ≠
      ["/opt/server".toList, "--config".toList, "/srv/50%%".toList].map utf8) := by
  constructor
  · intro manager
    rw [start, split_execCommand, display, ofUtf8Lossy_utf8]
    rfl
  · decide +kernel

end SingBoxMini.Startup
