import SingBoxMini.Support.Yaml
import SingBoxMini.Sublink.Render
import SingBoxMini.Sublink.Rewrite

/-!
# Sublink — ClashEntries

What the entry of a node in a Clash profile says, read as YAML.

A value in quotes is read back with its line breaks as blanks.  The private key of an SSH node is a
literal block, whose indentation is that of its first line: `clash_entry_iff` says that the entry is
read back if and only if the first line of the key that is not empty does not start with a blank.
-/

namespace SingBoxMini.Sublink
open Bytes Text Yaml

/-! ### Quoted values -/

/-- A text on one line. -/
def oneLine (value : List Char) : List Char :=
  value.map fun c => if c = '\r' ∨ c = '\n' then ' ' else c

/-- A character of a text on one line. -/
theorem double_oneLine_cons (c : Char) (value : List Char) :
    double (oneLine (c :: value)) =
      (if c = '\'' then ['\'', '\''] else [c]).map
        (fun c => if c = '\r' ∨ c = '\n' then ' ' else c) ++ double (oneLine value) := by
  rw [oneLine, List.map_cons, double, List.flatMap_cons]
  congr 1
  by_cases hquote : c = '\''
  · rw [hquote]
    rfl
  · rw [if_neg hquote, List.map_singleton]
    by_cases hbreak : c = '\r' ∨ c = '\n'
    · rw [if_pos hbreak]
      rfl
    · rw [if_neg hbreak, if_neg hquote]

theorem yamlQuote_eq (value : List Char) :
    yamlQuote value = '\'' :: (double (oneLine value) ++ ['\'']) := by
  have hdouble : (value.flatMap fun c => if c = '\'' then ['\'', '\''] else [c]).map
      (fun c => if c = '\r' ∨ c = '\n' then ' ' else c) = double (oneLine value) := by
    induction value with
    | nil => rfl
    | cons c value ih => rw [List.flatMap_cons, List.map_append, ih, double_oneLine_cons]
  rw [yamlQuote, hdouble]

/-- **A quoted value is read back**, on one line. -/
theorem readScalar_yamlQuote (value : List Char) :
    readScalar (yamlQuote value) = some (oneLine value) := by
  rw [yamlQuote_eq]
  exact readQuoted_double _

theorem yamlQuote_ne (value : List Char) : yamlQuote value ≠ "|-".toList := by
  rw [yamlQuote_eq]
  intro h
  injection h with h
  revert h
  decide

theorem not_mem_double {c : Char} (hc : c ≠ '\'') {s : List Char} (hs : c ∉ s) : c ∉ double s := by
  rw [double, List.mem_flatMap]
  rintro ⟨d, hd, hmem⟩
  split_ifs at hmem
  · simp [hc] at hmem
  · rw [List.mem_singleton] at hmem
    exact hs (hmem ▸ hd)

theorem not_mem_oneLine (value : List Char) : '\n' ∉ oneLine value ∧ '\r' ∉ oneLine value := by
  constructor
  all_goals
    rw [oneLine, List.mem_map]
    rintro ⟨c, -, hc⟩
    split_ifs at hc with hbreak
    · revert hc
      decide
    · simp [hc] at hbreak

theorem single_yamlQuote (value : List Char) : Single (yamlQuote value) := by
  have hdouble : Single (double (oneLine value)) :=
    ⟨not_mem_double (by decide) (not_mem_oneLine value).1,
      not_mem_double (by decide) (not_mem_oneLine value).2⟩
  have hquote : yamlQuote value = ['\''] ++ double (oneLine value) ++ ['\''] := by
    rw [yamlQuote_eq]
    rfl
  rw [hquote]
  exact (Single.append (by decide) hdouble).append (by decide)

theorem single_replicate (n : Nat) : Single (List.replicate n ' ') := by
  simp [Single, List.mem_replicate]

theorem oneLine_of_single {value : List Char} (h : Single value) : oneLine value = value := by
  refine (List.map_congr_left fun c hc => if_neg ?_).trans (List.map_id value)
  rintro (rfl | rfl)
  · exact h.2 hc
  · exact h.1 hc

/-- A text on one line has no line breaks. -/
theorem oneLine_eq_self_iff {value : List Char} : oneLine value = value ↔ Single value :=
  ⟨fun h => h ▸ not_mem_oneLine value, oneLine_of_single⟩

/-- A text without blanks is not made from one with line breaks. -/
theorem oneLine_eq_iff {value word : List Char} (hword : Single word) (hblank : ' ' ∉ word) :
    oneLine value = word ↔ value = word := by
  refine ⟨fun h => ?_, fun h => by rw [h, oneLine_of_single hword]⟩
  rw [← h, eq_comm, oneLine_eq_self_iff]
  by_contra hsingle
  have hbreak : ∃ c ∈ value, c = '\r' ∨ c = '\n' := by
    by_contra hnone
    refine hsingle ⟨fun hmem => hnone ⟨_, hmem, .inr rfl⟩, fun hmem => hnone ⟨_, hmem, .inl rfl⟩⟩
  obtain ⟨c, hc, hbreak⟩ := hbreak
  exact hblank (h ▸ List.mem_map.mpr ⟨c, hc, if_pos hbreak⟩)

/-! ### The entry -/

/-- A key and a value in quotes. -/
def quoted (key : String) (value : List Char) : Entry := .field 4 key.toList (oneLine value)

/-- The host keys of an SSH node. -/
def hostKeys (node : Node) : List (List Char) :=
  ((lines node.hostKey).map trim).filter (· ≠ [])

/-- What the first lines of an entry are to say. -/
def startEntries (node : Node) : List Entry :=
  [.element 2, quoted "name" node.name, quoted "type" node.kind.short.toList,
    quoted "server" node.server, .field 4 "port".toList (Nat.toDigits 10 node.port)]

/-- What it is to say of TLS. -/
def tlsEntries (node : Node) : List Entry :=
  if node.tls then
    (if node.kind = .hysteria2 then
        [quoted "sni" node.sni, .header 4 "alpn".toList, .item 6 "h3".toList]
      else [.field 4 "tls".toList "true".toList, quoted "servername" node.sni]) ++
      (if node.insecure then [.field 4 "skip-cert-verify".toList "true".toList] else [])
    else []

/-- What it is to say of the obfuscation. -/
def obfsEntries (node : Node) : List Entry :=
  if node.kind = .hysteria2 ∧ node.obfs = "salamander".toList then
    [quoted "obfs" node.obfs, quoted "obfs-password" node.obfsPassword] else []

/-- What it is to say of the transport. -/
def networkEntries (node : Node) : List Entry :=
  if node.network ≠ "tcp".toList ∧ node.kind ≠ .shadowsocks then
    [quoted "network" node.network] ++
      (if node.network = "ws".toList ∨ node.network = "http".toList then
        [.header 4 (node.network ++ "-opts".toList)] ++
          (if node.path = [] then [] else [.field 6 "path".toList (oneLine node.path)]) ++
          (if node.host = [] then []
            else [.header 6 "headers".toList, .field 8 "Host".toList (oneLine node.host)])
        else [])
    else []

/-- **What the entry of a node is to say.** -/
def clashEntries (node : Node) : List Entry :=
  startEntries node ++
  (match node.kind with
    | .ssh => [quoted "username" node.username, .field 4 "private-key".toList
          (trimEndMatches '\n' (node.privateKey.filter (· ≠ '\r')))] ++
        (if trim node.hostKey = [] then []
          else .header 4 "host-key".toList :: (hostKeys node).map fun key =>
            .item 6 (oneLine key)) ++
        [.field 4 "udp".toList "false".toList]
    | .shadowsocks => [quoted "cipher" node.method, quoted "password" node.password]
    | .vmess => [quoted "uuid" node.uuid]
    | .vless => [quoted "uuid" node.uuid,
          .field 4 "udp".toList (if node.udp then "true".toList else "false".toList)] ++
        (if node.udp then [quoted "packet-encoding" (packetEncodingOf node)] else [])
    | .tuic => [quoted "uuid" node.uuid, quoted "password" node.password]
    | .hysteria2 => [quoted "password" node.password]) ++
  tlsEntries node ++ obfsEntries node ++ networkEntries node

variable {node : Node}

theorem says_quoted {n : Nat} {key : List Char} (hkey : IsKey key) {line : List Char}
    (hsingle : Single key) (value : List Char)
    (hline : line = pad n (key ++ ": ".toList ++ yamlQuote value)) :
    Says [line] [.field n key (oneLine value)] := by
  rw [hline]
  refine .of_line (readLine_scalar hkey (yamlQuote_ne value) (readScalar_yamlQuote value)) ?_
  exact (single_replicate n).append
    ((hsingle.append (by decide)).append (single_yamlQuote value))

theorem append_blanks {a : List Char} {n : Nat} (h : a = List.replicate n ' ')
    (key sep value : List Char) : a ++ key ++ sep ++ value = pad n (key ++ sep ++ value) := by
  simp [h, pad]

theorem says_yamlField {key : String} (hkey : IsKey key.toList ∧ Single key.toList)
    (value : List Char) : Says [yamlField key value] [quoted key value] :=
  says_quoted hkey.1 hkey.2 value (append_blanks (by decide) _ _ _)

theorem says_port (port : Nat) :
    Says ["    port: ".toList ++ Nat.toDigits 10 port]
      [.field 4 "port".toList (Nat.toDigits 10 port)] := by
  have hline : "    port: ".toList ++ Nat.toDigits 10 port =
      pad 4 ("port".toList ++ ": ".toList ++ Nat.toDigits 10 port) := by
    simp [pad, List.replicate]
  have hquote : '\'' ∉ Nat.toDigits 10 port := Url.not_mem_digits (by decide) port
  have hbar : '|' ∉ Nat.toDigits 10 port := Url.not_mem_digits (by decide) port
  have hscalar : readScalar (Nat.toDigits 10 port) = some (Nat.toDigits 10 port) := by
    rw [readScalar]
    intro rest h
    simp [h] at hquote
  have hsingle : Single (Nat.toDigits 10 port) :=
    ⟨Url.not_mem_digits (by decide) port, Url.not_mem_digits (by decide) port⟩
  rw [hline]
  refine .of_line (readLine_scalar (by decide) (fun h => hbar (by simp [h])) hscalar) ?_
  exact hline ▸ Single.append (by decide) hsingle

/-- The first lines of an entry. -/
theorem says_start (node : Node) :
    Says ["  - name: ".toList ++ yamlQuote node.name, yamlField "type" node.kind.short.toList,
      yamlField "server" node.server, "    port: ".toList ++ Nat.toDigits 10 node.port]
      (startEntries node) := by
  have hline : "  - name: ".toList ++ yamlQuote node.name =
      pad 2 ("- ".toList ++ ("name".toList ++ ": ".toList ++ yamlQuote node.name)) := by
    simp [pad, List.replicate]
  have hname : Says ["  - name: ".toList ++ yamlQuote node.name]
      [.element 2, quoted "name" node.name] := by
    refine .of_line ?_ (Single.append (by decide) (single_yamlQuote _))
    rw [hline, readLine_element (by decide) (yamlQuote_ne _) (readScalar_yamlQuote _)]
    rfl
  exact ((hname.append (says_yamlField (by decide) _)).append
    (says_yamlField (by decide) _)).append (says_port node.port)

theorem says_tls (node : Node) :
    Says (if node.tls then
      (if node.kind = .hysteria2 then
          [yamlField "sni" node.sni, "    alpn:".toList, "      - h3".toList]
        else ["    tls: true".toList, yamlField "servername" node.sni]) ++
        (if node.insecure then ["    skip-cert-verify: true".toList] else [])
      else [])
      (tlsEntries node) := by
  have halpn : Says ["    alpn:".toList] [.header 4 "alpn".toList] :=
    .of_line (by decide) (by decide)
  have hh3 : Says ["      - h3".toList] [.item 6 "h3".toList] := .of_line (by decide) (by decide)
  have htls : Says ["    tls: true".toList] [.field 4 "tls".toList "true".toList] :=
    .of_line (by decide) (by decide)
  have hverify : Says ["    skip-cert-verify: true".toList]
      [.field 4 "skip-cert-verify".toList "true".toList] := .of_line (by decide) (by decide)
  refine .ite (fun _ => .append (.ite (fun _ => ?_) fun _ => ?_) (.ite (fun _ => hverify)
    fun _ => .nil)) fun _ => .nil
  · exact ((says_yamlField (by decide) node.sni).append halpn).append hh3
  · exact htls.append (says_yamlField (by decide) node.sni)

theorem says_obfs (node : Node) :
    Says (if node.kind = .hysteria2 ∧ node.obfs = "salamander".toList then
        [yamlField "obfs" node.obfs, yamlField "obfs-password" node.obfsPassword] else [])
      (obfsEntries node) :=
  .ite (fun _ => (says_yamlField (by decide) _).append (says_yamlField (by decide) _))
    fun _ => .nil

theorem says_options {network : List Char}
    (h : network = "ws".toList ∨ network = "http".toList) :
    Says ["    ".toList ++ network ++ "-opts:".toList]
      [.header 4 (network ++ "-opts".toList)] := by
  rcases h with rfl | rfl <;> exact .of_line (by decide) (by decide)

theorem says_network (node : Node) :
    Says (if node.network ≠ "tcp".toList ∧ node.kind ≠ .shadowsocks then
      [yamlField "network" node.network] ++
        (if node.network = "ws".toList ∨ node.network = "http".toList then
          ["    ".toList ++ node.network ++ "-opts:".toList] ++
            (if node.path = [] then [] else ["      path: ".toList ++ yamlQuote node.path]) ++
            (if node.host = [] then []
              else ["      headers:".toList, "        Host: ".toList ++ yamlQuote node.host])
          else [])
      else [])
      (networkEntries node) := by
  have hpath : Says ["      path: ".toList ++ yamlQuote node.path]
      [.field 6 "path".toList (oneLine node.path)] :=
    says_quoted (by decide) (by decide) _ (by simp [pad, List.replicate])
  have hhost : Says ["        Host: ".toList ++ yamlQuote node.host]
      [.field 8 "Host".toList (oneLine node.host)] :=
    says_quoted (by decide) (by decide) _ (by simp [pad, List.replicate])
  have hheaders : Says ["      headers:".toList] [.header 6 "headers".toList] :=
    .of_line (by decide) (by decide)
  refine .ite (fun _ => (says_yamlField (by decide) _).append (.ite (fun hoptions => ?_)
    fun _ => .nil)) fun _ => .nil
  exact ((says_options hoptions).append (.ite (fun _ => .nil) fun _ => hpath)).append
    (.ite (fun _ => .nil) fun _ => hheaders.append hhost)

/-- The lines after the private key of an SSH node: the first of them ends the block. -/
theorem says_hostKeys (node : Node) :
    ∃ last entry after entries,
      (if trim node.hostKey = [] then []
        else "    host-key:".toList :: (((lines node.hostKey).map trim).filter (· ≠ [])).map
          ("      - ".toList ++ yamlQuote ·)) ++ ["    udp: false".toList] = last :: after ∧
      (if trim node.hostKey = [] then []
        else .header 4 "host-key".toList :: (hostKeys node).map fun key => .item 6 (oneLine key)) ++
          [.field 4 "udp".toList "false".toList] = entry :: entries ∧
      readLine last = some ([entry], none) ∧ blank last = false ∧ indentOf last ≤ 4 ∧
      Single last ∧ Says after entries := by
  have hudp : readLine "    udp: false".toList =
      some ([.field 4 "udp".toList "false".toList], none) := by decide
  split_ifs with hnone
  · exact ⟨_, _, _, _, rfl, rfl, hudp, by decide, by decide, by decide, .nil⟩
  · refine ⟨_, _, _, _, rfl, rfl, by decide, by decide, by decide, by decide,
      .append (.map ?_) (.of_line hudp (by decide))⟩
    intro key _
    have hline : "      - ".toList ++ yamlQuote key = pad 6 ("- ".toList ++ yamlQuote key) := by
      simp [pad, List.replicate]
    have hhead : (yamlQuote key).head? = some '\'' := by
      rw [yamlQuote_eq]
      rfl
    refine .of_line ?_ (Single.append (by decide) (single_yamlQuote key))
    rw [hline, readLine_item (.inl hhead) (readScalar_yamlQuote key)]

/-- The lines of the private key. -/
def keyLines (node : Node) : List (List Char) := lines (node.privateKey.filter (· ≠ '\r'))

theorem yamlBlockField_eq (node : Node) :
    yamlBlockField "private-key" node.privateKey =
      pad 4 ("private-key".toList ++ ": |-".toList) :: (keyLines node).map (pad 6) := by
  have hheader : ("    " ++ "private-key" ++ ": |-").toList =
      pad 4 ("private-key".toList ++ ": |-".toList) := by decide
  rw [yamlBlockField, hheader]
  rfl

theorem single_block (node : Node) {last : List Char} (hlast : Single last) :
    ∀ line ∈ pad 4 ("private-key".toList ++ ": |-".toList) :: (keyLines node).map (pad 6) ++ [last],
      Single line := by
  have hlines : ∀ line ∈ keyLines node, Single line := by
    intro line hline
    have hreturn : '\r' ∉ node.privateKey.filter (· ≠ '\r') := by simp
    exact ⟨newline_not_mem_line hline, fun hmem => hreturn (mem_of_mem_line hline hmem)⟩
  simp only [List.forall_mem_append, List.forall_mem_cons, List.forall_mem_map]
  refine ⟨⟨by decide, fun line hline => (single_replicate 6).append (hlines line hline)⟩, ?_⟩
  simpa using hlast

theorem says_udp (udp : Bool) :
    Says ["    udp: ".toList ++ (if udp then "true".toList else "false".toList)]
      [.field 4 "udp".toList (if udp then "true".toList else "false".toList)] := by
  cases udp <;> exact .of_line (by decide) (by decide)

theorem append_last {α : Type} (a b : List α) (last : α) (after : List α) :
    a ++ (b ++ [last]) ++ after = a ++ b ++ (last :: after) := by
  simp

/-- The credentials of an SSH node. -/
theorem says_ssh (hflush : Flush (keyLines node)) :
    Says ([yamlField "username" node.username] ++
        yamlBlockField "private-key" node.privateKey ++
        (if trim node.hostKey = [] then []
          else "    host-key:".toList :: (((lines node.hostKey).map trim).filter (· ≠ [])).map
            ("      - ".toList ++ yamlQuote ·)) ++
        ["    udp: false".toList])
      ([quoted "username" node.username, .field 4 "private-key".toList
          (trimEndMatches '\n' (node.privateKey.filter (· ≠ '\r')))] ++
        (if trim node.hostKey = [] then []
          else .header 4 "host-key".toList ::
            (hostKeys node).map fun key => .item 6 (oneLine key)) ++
        [.field 4 "udp".toList "false".toList]) := by
  obtain ⟨last, entry, after, entries, hlines, hentries, hlast, hblank, hend, hsingle, hafter⟩ :=
    says_hostKeys node
  have hkey : '\r' ∉ node.privateKey.filter (· ≠ '\r') := by simp
  have hblock := literal_says hflush (by decide : 4 < 6)
    (readLine_block (by decide : IsKey "private-key".toList)) hlast hblank hend
    (single_block node hsingle)
  rw [keyLines, trimEndMatches_intercalate_lines hkey] at hblock
  have husername : Says [yamlField "username" node.username]
      [quoted "username" node.username] := says_yamlField (by decide) _
  have hall := (husername.append hblock).append hafter
  rw [yamlBlockField_eq, List.append_assoc, hlines, List.append_assoc _ _ [Entry.field _ _ _],
    hentries, ← append_last]
  exact hall

/-- **The entry of a node is read back**, if the lines of its key are flush. -/
theorem says_clashProxy (hflush : node.kind = .ssh → Flush (keyLines node)) :
    Says (clashProxy node) (clashEntries node) := by
  rw [clashProxy, clashEntries]
  refine ((((says_start node).append ?_).append (says_tls node)).append
    (says_obfs node)).append (says_network node)
  cases hkind : node.kind with
  | shadowsocks | tuic =>
      exact (says_yamlField (by decide) _).append (says_yamlField (by decide) _)
  | vmess | hysteria2 => exact says_yamlField (by decide) _
  | vless =>
      exact ((says_yamlField (by decide) _).append (says_udp node.udp)).append
        (.ite (fun _ => says_yamlField (by decide) _) fun _ => .nil)
  | ssh => exact says_ssh (hflush hkind)

/-! ### Keys that are not flush -/

theorem append_block {α : Type} {x y after : List α} {last : α} (h : x ++ y = last :: after)
    (a u b t o n : List α) :
    a ++ (u ++ b ++ x ++ y) ++ t ++ o ++ n = a ++ u ++ (b ++ [last]) ++ (after ++ t ++ o ++ n) := by
  rw [List.append_assoc (u ++ b), h]
  simp

/-- The lines of an SSH node: those before its key, the key and what ends it, and the rest. -/
theorem clashProxy_ssh (hkind : node.kind = .ssh) :
    ∃ before entries last rest, Says before entries ∧ blank last = false ∧ indentOf last ≤ 4 ∧
      (∀ line ∈ clashProxy node, Single line) ∧
      clashProxy node = before ++ (pad 4 ("private-key".toList ++ ": |-".toList) ::
        (keyLines node).map (pad 6) ++ [last]) ++ rest ∧
      entries ++ [.field 4 "private-key".toList
        (trimEndMatches '\n' (['\n'].intercalate (keyLines node)))] <+: clashEntries node := by
  obtain ⟨last, entry, after, entries, hlines, hentries, hlast, hblank, hend, hsingle, hafter⟩ :=
    says_hostKeys node
  have hkey : '\r' ∉ node.privateKey.filter (· ≠ '\r') := by simp
  have husername : Says [yamlField "username" node.username]
      [quoted "username" node.username] := says_yamlField (by decide) _
  have hbefore := (says_start node).append husername
  have hrest := ((hafter.append (says_tls node)).append (says_obfs node)).append
    (says_network node)
  obtain ⟨proxy, hproxy⟩ : ∃ proxy, proxy = clashProxy node := ⟨_, rfl⟩
  obtain ⟨all, hall⟩ : ∃ all, all = clashEntries node := ⟨_, rfl⟩
  rw [hkind] at hbefore hrest
  rw [← hproxy, ← hall]
  rw [clashProxy, hkind] at hproxy
  rw [clashEntries, hkind] at hall
  have hproxy' := hproxy.trans (append_block hlines _ [yamlField "username" node.username]
    (yamlBlockField "private-key" node.privateKey) _ _ _)
  have hall' := hall.trans (append_block hentries _ [quoted "username" node.username]
    [.field 4 "private-key".toList (trimEndMatches '\n' (node.privateKey.filter (· ≠ '\r')))] _ _ _)
  rw [yamlBlockField_eq] at hproxy'
  refine ⟨_, _, last, _, hbefore, hblank, hend, ?_, hproxy', ?_⟩
  · rw [hproxy', List.forall_mem_append, List.forall_mem_append]
    exact ⟨⟨hbefore.single, single_block node hsingle⟩, hrest.single⟩
  · rw [keyLines, trimEndMatches_intercalate_lines hkey, hall']
    exact ((List.prefix_append_right_inj _).mpr (List.prefix_append _ _)).trans
      (List.prefix_append _ _)

/-- **A key that is not flush is not read back.** -/
theorem not_read_clashProxy (hkind : node.kind = .ssh) (hflush : ¬ Flush (keyLines node)) :
    read (unlines (clashProxy node)) ≠ some (clashEntries node) := by
  obtain ⟨before, entries, last, rest, hbefore, hblank, hend, hsingle, hproxy, hentries⟩ :=
    clashProxy_ssh hkind
  intro hread
  obtain ⟨s, hrun, hclose⟩ := (read_unlines hsingle).mp hread
  obtain ⟨s', hs', hs⟩ := Option.map_eq_some_iff.mp hclose
  rw [hproxy, List.append_assoc, List.append_assoc, List.foldlM_append, hbefore.run,
    Option.bind_eq_bind, Option.bind_some, List.foldlM_append] at hrun
  obtain ⟨s₁, hblock, hrest⟩ := Option.bind_eq_some_iff.mp hrun
  obtain ⟨value, hvalue, hfield⟩ := not_literal_says hflush (by decide)
    (readLine_block (by decide : IsKey "private-key".toList)) hblank hend hblock
  -- both texts of the key are at the same place of what is read
  have hread' : entries ++ [.field 4 "private-key".toList value] <+: clashEntries node :=
    hs ▸ (hfield.trans (run_extends hrest)).trans (close_extends hs')
  have heq := (List.prefix_of_prefix_length_le hread' hentries (by simp)).eq_of_length (by simp)
  simp only [List.append_cancel_left_eq, List.cons.injEq, Entry.field.injEq, true_and,
    and_true] at heq
  exact hvalue heq

/-- **When the entry of a node is read back**: always, but for an SSH node whose private key has a
blank before the first character of its first line that is not empty. -/
theorem clash_entry_iff (node : Node) :
    read (unlines (clashProxy node)) = some (clashEntries node) ↔
      (node.kind = .ssh → Flush (lines (node.privateKey.filter (· ≠ '\r')))) := by
  constructor
  · intro hread hkind
    by_contra hflush
    exact not_read_clashProxy hkind hflush hread
  · exact fun hflush => (says_clashProxy hflush).read_unlines

/-- An SSH node whose private key starts with a blank. -/
def blankKeyUrl : Url where
  scheme := "ssh".toList
  username := "u".toList
  password := none
  host := some "h".toList
  port := some 22
  path := []
  query := some "private-key=%20k".toList
  fragment := none

/-- Its node. -/
def blankKeyNode : Node := urlNode .ssh blankKeyUrl.toString blankKeyUrl "h".toList

/-- **The blank is lost**: it is taken for indentation. -/
theorem clash_entry_blank_key :
    parseInput urlCodec blankKeyUrl.toString = .ok [blankKeyNode] ∧
      blankKeyNode.privateKey = " k".toList ∧
      read (unlines (clashProxy blankKeyNode)) ≠ some (clashEntries blankKeyNode) :=
  ⟨parseInput_urlNode (by decide) (by decide) rfl (by decide) (by decide), by decide,
    not_read_clashProxy rfl (by decide)⟩

end SingBoxMini.Sublink
