import SingBoxMini.Sublink.Render
import SingBoxMini.Sublink.Rewrite

/-!
# Sublink — SurgeLines

The section `[Proxy]` of a Surge profile, read line by line: a line is cut at its first `=` into a
name and the rest, and the rest at commas.

`surge_value` takes commas and line breaks out of the values, so there is one line for each node and
its fields are those that were written.  It leaves `=` in a name, and then the name ends early:
`surge_proxies_iff`.
-/

namespace SingBoxMini.Sublink
open Bytes Text

/-! ### Reading -/

/-- A line of the section, without the blanks around its parts. -/
structure SurgeEntry where
  name : List Char
  kind : List Char
  server : List Char
  port : List Char
  settings : List (List Char × List Char)
deriving DecidableEq, Repr

/-- A setting: a key and a value. -/
def readSetting (field : List Char) : Option (List Char × List Char) :=
  (splitOnce ['='] field).map fun parts => (trim parts.1, trim parts.2)

/-- A line: a name, a type, a server, a port and settings. -/
def readSurgeProxy (line : List Char) : Option SurgeEntry := do
  let parts ← splitOnce ['='] line
  match parts.2.splitOn ',' with
  | kind :: server :: port :: settings =>
    return ⟨trim parts.1, trim kind, trim server, trim port, ← settings.mapM readSetting⟩
  | _ => none

/-- The lines that start a section. -/
def surgeHeaders : List (List Char) :=
  ["[General]", "[Proxy]", "[Proxy Group]", "[Rule]"].map String.toList

/-- The lines of the section `[Proxy]` that are not empty. -/
def proxySection (profile : List Char) : List (List Char) :=
  ((((profile.splitOn '\n').dropWhile (· ≠ "[Proxy]".toList)).drop 1).takeWhile
    fun line => surgeHeaders.all (line ≠ ·)).filter (· ≠ [])

/-- **What the line of a node is to say.** -/
def surgeSettings (node : Node) : List (String × List Char) :=
  (match node.kind with
    | .shadowsocks => [("encrypt-method", node.method), ("password", node.password)]
    | .vmess | .vless => [("username", node.uuid)]
    | _ => [("password", node.password)]) ++
  (if node.tls then [("tls", "true".toList)] else []) ++
  (if node.sni = [] then [] else [("sni", node.sni)])

/-- What the line of a node is read as. -/
def surgeEntry (node : Node) : SurgeEntry where
  name := trim (surgeValue node.name)
  kind := node.kind.short.toList
  server := trim (surgeValue node.server)
  port := Nat.toDigits 10 node.port
  settings := (surgeSettings node).map fun setting =>
    (setting.1.toList, trim (surgeValue setting.2))

/-! ### Sanitised values -/

theorem not_mem_surgeValue {c : Char} (hc : c ∈ ['\r', '\n', ',']) (value : List Char) :
    c ∉ surgeValue value := by
  rw [surgeValue, List.mem_map]
  rintro ⟨d, -, hd⟩
  split_ifs at hd with hmem
  · rw [← hd] at hc
    revert hc
    decide
  · exact hmem (hd ▸ hc)

theorem equals_mem_surgeValue_iff {value : List Char} : '=' ∈ surgeValue value ↔ '=' ∈ value := by
  rw [surgeValue, List.mem_map]
  constructor
  · rintro ⟨c, hc, heq⟩
    split_ifs at heq with hmem
    · exact absurd heq (by decide)
    · exact heq ▸ hc
  · exact fun h => ⟨'=', h, if_neg (by decide)⟩

/-! ### The line of a node -/

variable {node : Node}

/-- The fields after the name. -/
def surgeFields (node : Node) : List (List Char) :=
  (' ' :: node.kind.short.toList) :: surgeValue node.server :: Nat.toDigits 10 node.port ::
    (surgeSettings node).map fun setting => setting.1.toList ++ '=' :: surgeValue setting.2

theorem intercalate_cons_eq (c : Char) (first : List Char) (rest : List (List Char)) :
    [c].intercalate (first :: rest) = first ++ rest.flatMap (c :: ·) := by
  induction rest generalizing first with
  | nil => simp
  | cons next rest ih => rw [List.intercalate_cons_cons, ih, List.flatMap_cons]; simp

theorem append_fields (a b c d e f g : List Char) :
    a ++ [' ', '=', ' '] ++ b ++ [','] ++ c ++ [','] ++ d ++ e ++ f ++ g =
      a ++ [' '] ++ ['='] ++ (' ' :: b ++ (',' :: c ++ (',' :: d ++ (e ++ f ++ g)))) := by
  simp

theorem flatMap_surgeSettings (node : Node) :
    ((surgeSettings node).map fun setting =>
        setting.1.toList ++ '=' :: surgeValue setting.2).flatMap (',' :: ·) =
      (match node.kind with
        | .shadowsocks => ",encrypt-method=".toList ++ surgeValue node.method ++
            ",password=".toList ++ surgeValue node.password
        | .vmess | .vless => ",username=".toList ++ surgeValue node.uuid
        | _ => ",password=".toList ++ surgeValue node.password) ++
      (if node.tls then ",tls=true".toList else []) ++
      (if node.sni = [] then [] else ",sni=".toList ++ surgeValue node.sni) := by
  rw [surgeSettings, List.map_append, List.map_append, List.flatMap_append, List.flatMap_append]
  congr 1
  · congr 1
    · cases node.kind <;> simp
    · split_ifs <;> simp [surgeValue]
  · split_ifs <;> simp

/-- **A line is a name and fields.** -/
theorem surgeProxy_eq (node : Node) :
    surgeProxy node =
      surgeValue node.name ++ [' '] ++ ['='] ++ [','].intercalate (surgeFields node) := by
  rw [surgeFields, intercalate_cons_eq, List.flatMap_cons, List.flatMap_cons,
    flatMap_surgeSettings]
  exact append_fields _ _ _ _ _ _ _

/-- A key that is written as it is. -/
structure PlainKey (key : String) : Prop where
  comma : ',' ∉ key.toList
  newline : '\n' ∉ key.toList
  equals : '=' ∉ key.toList
  trim : trim key.toList = key.toList

theorem surgeSettings_keys (node : Node) : ∀ setting ∈ surgeSettings node, PlainKey setting.1 := by
  have hmethod : PlainKey "encrypt-method" := ⟨by decide, by decide, by decide, by decide⟩
  have hpassword : PlainKey "password" := ⟨by decide, by decide, by decide, by decide⟩
  have husername : PlainKey "username" := ⟨by decide, by decide, by decide, by decide⟩
  have htls : PlainKey "tls" := ⟨by decide, by decide, by decide, by decide⟩
  have hsni : PlainKey "sni" := ⟨by decide, by decide, by decide, by decide⟩
  rw [surgeSettings, List.forall_mem_append, List.forall_mem_append]
  refine ⟨⟨?_, fun setting hsetting => ?_⟩, fun setting hsetting => ?_⟩
  · cases node.kind <;> simp [hmethod, hpassword, husername]
  · rwa [mem_ite_singleton hsetting]
  · rwa [mem_ite_nil hsetting]

/-- A character that no field has. -/
theorem not_mem_surgeFields {c : Char} (hkind : c ∉ ' ' :: node.kind.short.toList)
    (hvalue : c ∈ ['\r', '\n', ',']) (hdigit : c.isDigit = false)
    (hkeys : ∀ setting ∈ surgeSettings node, c ∉ setting.1.toList) :
    ∀ field ∈ surgeFields node, c ∉ field := by
  rw [surgeFields]
  simp only [List.forall_mem_cons, List.forall_mem_map]
  refine ⟨hkind, not_mem_surgeValue hvalue _, Url.not_mem_digits hdigit _, ?_⟩
  intro setting hsetting
  rw [List.mem_append, List.mem_cons, not_or, not_or]
  refine ⟨hkeys setting hsetting, ?_, not_mem_surgeValue hvalue _⟩
  rintro rfl
  revert hvalue
  decide

theorem comma_not_mem_surgeFields (node : Node) : ∀ field ∈ surgeFields node, ',' ∉ field :=
  not_mem_surgeFields (by cases node.kind <;> decide) (by decide) (by decide)
    fun setting hsetting => (surgeSettings_keys node setting hsetting).comma

theorem newline_not_mem_surgeFields (node : Node) : ∀ field ∈ surgeFields node, '\n' ∉ field :=
  not_mem_surgeFields (by cases node.kind <;> decide) (by decide) (by decide)
    fun setting hsetting => (surgeSettings_keys node setting hsetting).newline

theorem splitOn_surgeFields (node : Node) :
    ([','].intercalate (surgeFields node)).splitOn ',' = surgeFields node :=
  List.splitOn_intercalate ',' (comma_not_mem_surgeFields node) (List.cons_ne_nil _ _)

theorem mapM_map_some {α β γ : Type} {l : List α} {f : α → β} {g : β → Option γ} {h : α → γ}
    (hg : ∀ a ∈ l, g (f a) = some (h a)) : (l.map f).mapM g = some (l.map h) := by
  induction l with
  | nil => rfl
  | cons a l ih =>
      rw [List.forall_mem_cons] at hg
      rw [List.map_cons, List.mapM_cons, hg.1, ih hg.2]
      rfl

theorem readSettings_surgeFields (node : Node) :
    ((surgeSettings node).map fun setting =>
        setting.1.toList ++ '=' :: surgeValue setting.2).mapM readSetting =
      some (surgeEntry node).settings := by
  refine mapM_map_some fun setting hsetting => ?_
  have hkey := surgeSettings_keys node setting hsetting
  have hsplit : splitOnce ['='] (setting.1.toList ++ '=' :: surgeValue setting.2) =
      some (setting.1.toList, surgeValue setting.2) := by
    have happend := splitOnce_append hkey.equals [] (surgeValue setting.2)
    rwa [List.append_assoc] at happend
  rw [readSetting, hsplit, Option.map_some, hkey.trim]

theorem trim_digits (n : Nat) : trim (Nat.toDigits 10 n) = Nat.toDigits 10 n := by
  refine trim_of_visible fun c hc => ?_
  have hdigit := Nat.isDigit_of_mem_toDigits (by decide) (by decide) hc
  exact visible_of_printable (Url.printable_of_isAlphanum (isAlphanum_iff.mpr (.inr (.inr hdigit))))

/-- **The line of a node is read back**, if its name has no `=`. -/
theorem readSurgeProxy_eq (h : '=' ∉ node.name) :
    readSurgeProxy (surgeProxy node) = some (surgeEntry node) := by
  have hname : '=' ∉ surgeValue node.name ++ [' '] := by
    rw [List.mem_append, equals_mem_surgeValue_iff, not_or]
    exact ⟨h, by decide⟩
  have hkind : trim (' ' :: node.kind.short.toList) = node.kind.short.toList := by
    cases node.kind <;> decide
  have htrim : trim (surgeValue node.name ++ [' ']) = trim (surgeValue node.name) :=
    trim_append_right (by decide)
  rw [readSurgeProxy, surgeProxy_eq, splitOnce_append hname [], Option.bind_eq_bind,
    Option.bind_some, splitOn_surgeFields]
  simp only [surgeFields, readSettings_surgeFields, htrim, hkind, trim_digits]
  rfl

/-- **A name with `=` is not read back.** -/
theorem not_readSurgeProxy (h : '=' ∈ node.name) :
    readSurgeProxy (surgeProxy node) ≠ some (surgeEntry node) := by
  intro hread
  rw [readSurgeProxy] at hread
  obtain ⟨⟨before, after⟩, hsplit, hentry⟩ := Option.bind_eq_some_iff.mp hread
  have hname : trim before = trim (surgeValue node.name) := by
    simp only at hentry
    split at hentry
    · obtain ⟨settings, -, hentry⟩ := Option.bind_eq_some_iff.mp hentry
      exact congrArg SurgeEntry.name (Option.some.inj hentry)
    · cases hentry
  have hmem : '=' ∈ trim (surgeValue node.name) :=
    mem_trim_of_mem (by decide) (equals_mem_surgeValue_iff.mpr h)
  exact not_mem_of_splitOnce hsplit (mem_trim (hname ▸ hmem))

/-! ### The section -/

theorem equals_mem_surgeProxy (node : Node) : '=' ∈ surgeProxy node := by
  rw [surgeProxy_eq]
  simp

theorem newline_not_mem_surgeProxy (node : Node) : '\n' ∉ surgeProxy node := by
  obtain ⟨first, rest, hfields⟩ : ∃ first rest, surgeFields node = first :: rest := ⟨_, _, rfl⟩
  have hnewline := newline_not_mem_surgeFields node
  rw [hfields, List.forall_mem_cons] at hnewline
  rw [surgeProxy_eq, hfields, intercalate_cons_eq]
  simp only [List.mem_append, List.mem_flatMap, not_or]
  refine ⟨⟨⟨not_mem_surgeValue (by decide) _, by decide⟩, by decide⟩, hnewline.1, ?_⟩
  rintro ⟨field, hfield, hmem⟩
  rcases List.mem_cons.mp hmem with hcomma | hmem
  · exact absurd hcomma (by decide)
  · exact hnewline.2 field hfield hmem

theorem surgeProxy_ne_headers (node : Node) : surgeHeaders.all (surgeProxy node ≠ ·) = true := by
  have hheaders : surgeHeaders.all ('=' ∉ ·) = true := by decide
  rw [List.all_eq_true] at hheaders ⊢
  intro header hheader
  refine decide_eq_true ?_
  rintro rfl
  exact of_decide_eq_true (hheaders _ hheader) (equals_mem_surgeProxy node)

/-- The profile up to the header after the section, and the rest. -/
theorem unlines_surge (start proxies : List (List Char)) (title next group rule : List Char)
    (a b c d : List (List Char)) :
    unlines (start ++ [[], title] ++ proxies ++ [[], next, group, [], rule] ++ a ++ b ++ c ++ d) =
      (start ++ [[]] ++ title :: proxies ++ [[], next]).flatMap (· ++ ['\n']) ++
        unlines (group :: [] :: rule :: (a ++ b ++ c ++ d)) := by
  simp [unlines]

theorem append_section_lines {α : Type} (start : List α) (title : α) (ls : List α) (blank next : α)
    (rest : List α) :
    start ++ title :: ls ++ [blank, next] ++ rest =
      start ++ title :: (ls ++ [blank] ++ next :: rest) := by
  simp

/-- **There is one line for each node.** -/
theorem proxySection_renderSurge (nodes : List Node) (selected : List RuleSpec)
    (customRules : CustomRules) (chinaOptimized : Bool) :
    proxySection (renderSurge nodes selected customRules chinaOptimized) =
      nodes.map surgeProxy := by
  obtain ⟨start, hstart⟩ : ∃ start : List (List Char), start =
      ["[General]".toList, "loglevel = notify".toList] ++
        (if chinaOptimized then ["dns-server = 223.5.5.5, 119.29.29.29".toList] else []) ++ [[]] :=
    ⟨_, rfl⟩
  have hbreaks : ∀ line ∈ start, line ≠ "[Proxy]".toList ∧ '\n' ∉ line := by
    rw [hstart]
    cases chinaOptimized <;> simp
  have hlines : ∀ line ∈ start ++ "[Proxy]".toList :: nodes.map surgeProxy ++
      [[], "[Proxy Group]".toList], '\n' ∉ line := by
    simp only [List.forall_mem_append, List.forall_mem_cons, List.forall_mem_map]
    exact ⟨⟨fun line hline => (hbreaks line hline).2, by decide,
      fun node _ => newline_not_mem_surgeProxy node⟩, by decide, by decide, by simp⟩
  have hproxies : ∀ line ∈ nodes.map surgeProxy ++ [[]],
      surgeHeaders.all (line ≠ ·) = true := by
    rw [List.forall_mem_append, List.forall_mem_map]
    exact ⟨fun node _ => surgeProxy_ne_headers node, by simp; decide⟩
  rw [proxySection, renderSurge, unlines_surge, ← hstart, splitOn_unlines_append hlines,
    append_section_lines, List.dropWhile_append_of_pos (fun line hline => decide_eq_true
      (hbreaks line hline).1), List.dropWhile_cons_of_neg (by simp), List.drop_succ_cons,
    List.drop_zero, List.takeWhile_append_of_pos hproxies, List.takeWhile_cons_of_neg (by decide),
    List.append_nil, List.filter_append, List.filter_eq_self.mpr]
  · exact List.append_nil _
  · simp only [List.forall_mem_map, decide_eq_true_eq]
    exact fun node _ => List.ne_nil_of_mem (equals_mem_surgeProxy node)

/-- **When the section is read back**: there is one line for each node, and it says what is written,
unless a name has `=`. -/
theorem surge_proxies_iff (nodes : List Node) (selected : List RuleSpec)
    (customRules : CustomRules) (chinaOptimized : Bool) :
    (proxySection (renderSurge nodes selected customRules chinaOptimized)).map readSurgeProxy =
      nodes.map (fun node => some (surgeEntry node)) ↔ ∀ node ∈ nodes, '=' ∉ node.name := by
  rw [proxySection_renderSurge, List.map_map, List.map_inj_left]
  refine forall₂_congr fun node _ => ⟨fun hread hname => ?_, fun hname => ?_⟩
  · exact not_readSurgeProxy hname hread
  · exact readSurgeProxy_eq hname

/-- A Shadowsocks node whose name is a setting of another proxy. -/
def equalsNode : Node :=
  { Node.empty .shadowsocks [] with
    name := "a=ss".toList, server := "h".toList, port := 1, method := "m".toList,
    password := "p".toList }

/-- **The name ends at its `=`**, and the type is taken from it. -/
theorem surge_proxy_equals :
    proxySection (renderSurge [equalsNode] [] ⟨[], []⟩ false) =
        ["a=ss = ss,h,1,encrypt-method=m,password=p".toList] ∧
      readSurgeProxy (surgeProxy equalsNode) ≠ some (surgeEntry equalsNode) ∧
      (readSurgeProxy (surgeProxy equalsNode)).map SurgeEntry.name = some "a".toList := by
  refine ⟨?_, not_readSurgeProxy (by decide), by decide⟩
  rw [proxySection_renderSurge]
  decide

end SingBoxMini.Sublink
