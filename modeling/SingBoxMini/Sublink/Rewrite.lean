import SingBoxMini.Sublink.Input

/-!
# Sublink — Rewrite

How the nodes of a subscription are pointed at a relay: each URI is read as a URL, gets another host
and port, and is written again.  The text that comes of it is read as a subscription once more.

`rewrite_keeps_iff` says when the nodes come back with the relay as their server and nothing else
changed:

* a node that is read from the parts of a URL comes back if the host is set as it was given; a
  server name that had defaulted to the server follows it;
* a Shadowsocks node comes back if its method and password are in the part of the URL before the
  host;
* a VMess node never does, for what is replaced is the payload.
-/

namespace SingBoxMini.Sublink
open Bytes Text Percent Url

/-! ### Rewriting -/

/-- Only VLESS and SSH nodes are kept for a relay of TCP. -/
def kept (tcpOnly : Bool) (node : Node) : Bool := !tcpOnly || node.kind ∈ [Kind.vless, .ssh]

/-- `set_host` and `set_port`, with a host that was accepted. -/
def setServer (url : Url) (host : List Char) (port : Nat) : Url :=
  { url with host := some host, port := some port }

/-- The URI of a node, with another host and port if they are given. -/
def rewriteNode (codec : Codec) (override : Option (List Char × Nat)) (node : Node) :
    Except AnyhowError (List Char) := do
  let url ← okOr (codec.url.parse node.original) "invalid proxy URI"
  match override with
  | none => return url.toString
  | some (server, port) =>
    let host ← okOr (codec.url.setHost server) "invalid subscription server override"
    ensure (host ≠ []) "invalid subscription port override"
    return (setServer url host port).toString

/-- `rewrite_subscription_input` -/
def rewriteSubscriptionInput (codec : Codec) (input : List Char)
    (serverOverride : Option (List Char)) (portOverride : Option Nat) (tcpOnly : Bool) :
    Except AnyhowError (List Char) := do
  ensure (serverOverride.isSome = portOverride.isSome)
    "subscription server and port overrides must be used together"
  let nodes ← parseInput codec input
  let override := do return (← serverOverride, ← portOverride)
  let rewritten ← (nodes.filter (kept tcpOnly)).mapM (rewriteNode codec override)
  ensure (rewritten ≠ []) "subscription contains no compatible TCP nodes"
  return ['\n'].intercalate rewritten

/-! ### What is kept -/

/-- A text is the same, or it was the server's and is so again. -/
def Follows (field : Node → List Char) (node node' : Node) : Prop :=
  field node' = field node ∨ (field node = node.server ∧ field node' = node'.server)

/-- **Only the endpoint is another one**, and what had defaulted to it. -/
structure Rewritten (server : List Char) (port : Nat) (node node' : Node) : Prop where
  server : node'.server = server
  port : node'.port = port
  name : Follows Node.name node node'
  sni : Follows Node.sni node node'
  same : node' = { node with
    server := node'.server, port := node'.port, name := node'.name, sni := node'.sni,
    original := node'.original }

/-- A text is read as nodes that are related to those before, one by one. -/
def ReadsBack (codec : Codec) (output : List Char) (R : Node → Node → Prop) (nodes : List Node) :
    Prop :=
  ∃ nodes', parseInput codec output = .ok nodes' ∧ List.Forall₂ R nodes nodes'

/-- What `parse_shadowsocks` finds before the query of a URL with another host: the credentials, and
the server behind the last `@`. -/
inductive SsAuthority (codec : Codec) (url : Url) (host : List Char) (port : Nat) :
    List Char → List Char → Nat → Prop where
  | user (hpath : '@' ∉ url.path) (huser : ¬ (url.username = [] ∧ url.password = none)) :
      SsAuthority codec url host port (url.username ++ url.password.elim [] (':' :: ·)) host port
  | path {before after server' : List Char} {port' : Nat}
      (hpath : url.path = before ++ '@' :: after)
      (hafter : '@' ∉ after) (hserver : splitServerPort codec after = .ok (server', port')) :
      SsAuthority codec url host port
        (url.userInfo ++ (host ++ portText (some port)) ++ before) server' port'

/-- The name of a node, by the fragment of its URL. -/
def fragmentName (url : Url) (server : List Char) : List Char :=
  ((url.fragment.map decodeComponent).filter (· ≠ [])).getD server

/-- A Shadowsocks node is still in its URL. -/
def SsKeeps (codec : Codec) (url : Url) (host server : List Char) (port : Nat)
    (node : Node) : Prop :=
  (∃ credentials text, SsAuthority codec url host port credentials server port ∧
    readCredentials credentials = .ok text ∧
    splitOnce [':'] text = some (node.method, node.password)) ∧
  (fragmentName url server = node.name ∨ node.name = node.server ∧ fragmentName url server = server)

/-- A node is still in its URL, by its kind. -/
def KindKeeps (codec : Codec) (url : Url) (host server : List Char) (port : Nat) (node : Node) :
    Prop :=
  match node.kind with
  | .vmess => False
  | .shadowsocks => SsKeeps codec url host server port node
  | _ => host = server

/-- **The nodes that can be pointed at a relay.** -/
def Keeps (codec : Codec) (server : List Char) (port : Nat) (node : Node) : Prop :=
  ∃ url host, codec.url.parse node.original = some url ∧ codec.url.setHost server = some host ∧
    KindKeeps codec url host server port node

/-- The server name of a node is its server because there is no other. -/
def DefaultSni (codec : Codec) (node : Node) : Prop :=
  node.tls = true ∧ node.host = [] ∧
    ∃ url, codec.url.parse node.original = some url ∧ queryValue url ["sni"] = []

/-- The size of the URL of a node without its host and port. -/
def urlSize (codec : Codec) (node : Node) : Nat :=
  ((codec.url.parse node.original).map fun url =>
    { url with host := none, port := none }.toString.length).getD 0

/-- The size of the host and the port of an override. -/
def overrideSize (codec : Codec) (server : List Char) (port : Nat) : Nat :=
  ((codec.url.setHost server).getD []).length + (portText (some port)).length

/-- The size of the URLs of nodes with the override in each, a line for each of them. -/
def overriddenSize (codec : Codec) (server : List Char) (port : Nat) (nodes : List Node) : Nat :=
  (nodes.map fun node => urlSize codec node + overrideSize codec server port).sum +
    (nodes.length - 1)

/-! ### Lists -/

variable {α β : Type} {R : α → β → Prop} {as : List α} {bs : List β}

/-- What is related one by one to what comes in between. -/
theorem exists_forall₂_iff {γ : Type} {S : β → γ → Prop} {T : α → γ → Prop}
    (hunique : ∀ a b b', R a b → R a b' → b = b') (h : List.Forall₂ R as bs) :
    (∃ cs, List.Forall₂ S bs cs ∧ List.Forall₂ T as cs) ↔
      ∀ a ∈ as, ∃ b c, R a b ∧ S b c ∧ T a c := by
  induction h with
  | nil => simp
  | @cons a b as bs hab _ ih =>
      rw [List.forall_mem_cons, ← ih]
      constructor
      · rintro ⟨_, hS, hT⟩
        cases hS with
        | cons hbc hbcs =>
            cases hT with
            | cons hac hacs => exact ⟨⟨b, _, hab, hbc, hac⟩, _, hbcs, hacs⟩
      · rintro ⟨⟨b', c, hab', hbc, hac⟩, cs, hbcs, hacs⟩
        rw [hunique a b' b hab' hab] at hbc
        exact ⟨c :: cs, .cons hbc hbcs, .cons hac hacs⟩

theorem forall₂_imp_of_mem {S : α → β → Prop} (h : List.Forall₂ R as bs)
    (himp : ∀ a ∈ as, ∀ b, R a b → S a b) : List.Forall₂ S as bs :=
  ((List.forall₂_and_left as bs).mpr ⟨fun _ ha => ha, h⟩).imp fun a b hab => himp a hab.1 b hab.2

theorem exists_mem_left (h : List.Forall₂ R as bs) {b : β} (hb : b ∈ bs) : ∃ a ∈ as, R a b := by
  induction h with
  | nil => cases hb
  | @cons a b' as bs hab _ ih =>
      rcases List.mem_cons.mp hb with rfl | hb
      · exact ⟨a, List.mem_cons_self, hab⟩
      · obtain ⟨a', ha', hR⟩ := ih hb
        exact ⟨a', List.mem_cons_of_mem _ ha', hR⟩

theorem exists_mem_right (h : List.Forall₂ R as bs) {a : α} (ha : a ∈ as) : ∃ b ∈ bs, R a b :=
  exists_mem_left h.flip ha

theorem mapM_ok_iff {f : α → Except AnyhowError β} :
    as.mapM f = .ok bs ↔ List.Forall₂ (fun a b => f a = .ok b) as bs := by
  induction as generalizing bs with
  | nil =>
      rw [List.mapM_nil, List.forall₂_nil_left_iff]
      exact ⟨fun h => (Except.ok.inj h).symm, fun h => h ▸ rfl⟩
  | cons a as ih =>
      simp only [List.mapM_cons, bind_ok_iff, ih, List.forall₂_cons_left_iff]
      constructor
      · rintro ⟨b, hb, bs', hbs', h⟩
        cases h
        exact ⟨b, bs', hb, hbs', rfl⟩
      · rintro ⟨b, bs', hb, hbs', rfl⟩
        exact ⟨b, hb, bs', hbs', rfl⟩

/-! ### Schemes -/

/-- The schemes `parse_node` knows. -/
def schemes : List (List Char) :=
  ["ss".toList, "vmess".toList, "vless".toList, "hysteria2".toList, "hy2".toList,
    "hysteria".toList, "tuic".toList, "ssh".toList]

variable {codec : Codec} {node : Node} {uri scheme : List Char}

theorem mem_schemes_of_urlKind {kind : Kind} (h : urlKind scheme = some kind) :
    scheme ∈ schemes := by
  rw [urlKind] at h
  split_ifs at h with h₁ h₂ h₃ h₄
  · simp [schemes, h₁]
  · simp only [List.mem_cons, List.not_mem_nil, or_false] at h₂
    rcases h₂ with rfl | rfl | rfl <;> simp [schemes]
  · simp [schemes, h₃]
  · simp [schemes, h₄]

theorem SchemeNode.mem (h : SchemeNode codec uri node scheme) : scheme ∈ schemes := by
  rcases h with ⟨rfl, -⟩ | ⟨rfl, -⟩ | ⟨kind, hkind, -⟩
  · simp [schemes]
  · simp [schemes]
  · exact mem_schemes_of_urlKind hkind

theorem isAlphanum_of_toLower {c : Char} (h : schemeChar c.toLower = true) :
    c.isAlphanum = true := by
  by_cases hupper : c.isUpper = true
  · exact isAlphanum_iff.mpr (.inl hupper)
  · rw [toLower_of_not_isUpper hupper] at h
    exact isAlphanum_of_schemeChar h

/-- **The URI of a node has one of these schemes.** -/
theorem hasScheme_of_parseNode (h : parseNode codec uri = .ok node) :
    ∃ scheme, HasScheme uri scheme ∧ SchemeNode codec uri node scheme := by
  obtain ⟨before, after, hsplit, hnode⟩ := parseNode_ok_iff.mp h
  have hspecial : ∀ scheme ∈ schemes, scheme ∉ special := by decide
  have hchars : ∀ scheme ∈ schemes, scheme.all schemeChar = true := by decide
  refine ⟨_, ⟨hspecial _ hnode.mem, before, after, hsplit, rfl, fun c hc => ?_⟩, hnode⟩
  exact isAlphanum_of_toLower
    (List.all_eq_true.mp (hchars _ hnode.mem) _ (List.mem_map_of_mem hc))

/-! ### Lines of URIs -/

/-- A line that starts with one of the schemes. -/
structure UriLine (line : List Char) : Prop where
  visible : ∀ c ∈ line, isWhitespace c = false
  starts : ∃ scheme ∈ schemes, ∃ rest, line = scheme ++ ':' :: '/' :: '/' :: rest

/-- A text has one scheme. -/
theorem eq_of_start_colon {start rest : List Char} (hstart : ':' ∉ start) (hscheme : ':' ∉ scheme)
    (h : start ++ [':'] <+: scheme ++ ':' :: rest) : start = scheme := by
  obtain ⟨after, h⟩ := h
  have hsplit := splitOnce_append hstart [] after
  have hsplit' := splitOnce_append hscheme [] rest
  rw [List.append_assoc, List.singleton_append] at hsplit'
  rw [h, hsplit'] at hsplit
  exact (Prod.mk.inj (Option.some.inj hsplit)).1.symm

theorem not_otherFormat_of_scheme (h : scheme ∈ schemes) (rest : List Char) :
    ¬ OtherFormat (scheme ++ ':' :: '/' :: '/' :: rest) := by
  have hcolon : ∀ scheme ∈ schemes, ':' ∉ scheme := by decide
  have hlower : ∀ scheme ∈ schemes, toAsciiLowercase scheme = scheme := by decide
  have hhead : ∀ scheme ∈ schemes, ∃ c s, scheme = c :: s ∧ c ≠ '\x7b' ∧ c ≠ '[' := by
    simp [schemes]
  obtain ⟨c, t, ht, hbrace, hbracket⟩ := hhead scheme h
  have htext : toAsciiLowercase (scheme ++ ':' :: '/' :: '/' :: rest) =
      scheme ++ ':' :: '/' :: '/' :: toAsciiLowercase rest := by
    rw [toAsciiLowercase, List.map_append, ← toAsciiLowercase, hlower scheme h]
    rfl
  rintro (hformat | hformat | hformat)
  · rw [ht] at hformat
    exact hbrace (Option.some.inj hformat)
  · rw [htext, List.isPrefixOf_iff_prefix] at hformat
    have hproxies : "proxies:".toList = "proxies".toList ++ [':'] := by decide
    rw [hproxies] at hformat
    have heq := eq_of_start_colon (by decide) (hcolon scheme h) hformat
    rw [← heq] at h
    revert h
    decide
  · rw [htext, ht, List.isPrefixOf_iff_prefix] at hformat
    have hbracket' : "[proxy]".toList = '[' :: "proxy]".toList := by decide
    rw [hbracket', List.cons_append, List.cons_prefix_cons] at hformat
    exact hbracket hformat.1.symm

namespace UriLine

variable {line : List Char}

theorem ne_nil (h : UriLine line) : line ≠ [] := by
  obtain ⟨scheme, -, rest, rfl⟩ := h.starts
  simp

theorem not_skipped (h : UriLine line) : ¬ Skipped line := by
  have hhead : ∀ scheme ∈ schemes, ∃ c s, scheme = c :: s ∧ c ≠ '#' := by simp [schemes]
  obtain ⟨scheme, hscheme, rest, rfl⟩ := h.starts
  obtain ⟨c, t, rfl, hc⟩ := hhead scheme hscheme
  rintro (hnil | hhash)
  · cases hnil
  · exact hc (Option.some.inj hhash)

theorem not_remote (h : UriLine line) : ¬ Remote line := by
  have hcolon : ∀ scheme ∈ schemes, ':' ∉ scheme := by decide
  have hhttp : "http".toList ∉ schemes ∧ "https".toList ∉ schemes := by decide
  have hstart : ∀ start : List Char, (start ++ "://".toList).isPrefixOf line = true →
      start ++ [':'] <+: line := by
    intro start hprefix
    exact ((List.prefix_append_right_inj start).mpr ⟨['/', '/'], by decide⟩).trans
      (List.isPrefixOf_iff_prefix.mp hprefix)
  obtain ⟨scheme, hscheme, rest, rfl⟩ := h.starts
  rintro (hremote | hremote)
  · have heq := eq_of_start_colon (by decide) (hcolon scheme hscheme)
      (hstart "http".toList hremote)
    exact hhttp.1 (heq ▸ hscheme)
  · have heq := eq_of_start_colon (by decide) (hcolon scheme hscheme)
      (hstart "https".toList hremote)
    exact hhttp.2 (heq ▸ hscheme)

theorem contains (h : UriLine line) : Text.contains "://".toList line = true := by
  obtain ⟨scheme, -, rest, rfl⟩ := h.starts
  exact contains_iff.mpr ⟨scheme, rest, by simp⟩

theorem trim_eq (h : UriLine line) : trim line = line := by
  rw [Text.trim_eq, List.dropWhile_eq_self_iff.mpr, List.rdropWhile_eq_self_iff.mpr]
  · intro hne
    simpa using h.visible _ (List.getLast_mem hne)
  · intro hlength
    simpa using h.visible _ (List.getElem_mem hlength)

theorem not_mem_newline (h : UriLine line) : '\n' ∉ line := by
  intro hmem
  exact absurd (h.visible _ hmem) (by decide)

end UriLine

section Join

variable {ls : List (List Char)} {ns : List Node} {nested : List Char → List Node → Prop}

theorem readsLines_uris_iff (h : ∀ line ∈ ls, UriLine line) :
    ReadsLines codec nested ls ns ↔
      List.Forall₂ (fun line node => parseNode codec line = .ok node) ls ns := by
  induction ls generalizing ns with
  | nil =>
      rw [List.forall₂_nil_left_iff]
      constructor
      · intro hreads
        cases hreads
        rfl
      · rintro rfl
        exact .nil
  | cons line ls ih =>
      rw [List.forall_mem_cons] at h
      obtain ⟨hline, hlines⟩ := h
      constructor
      · intro hreads
        cases hreads with
        | cons hread hreads =>
            cases hread with
            | skipped hskipped => exact absurd hskipped hline.not_skipped
            | uri _ _ _ hnode => exact .cons hnode ((ih hlines).mp hreads)
            | nested _ _ huri =>
                rw [hline.contains] at huri
                cases huri
      · intro hall
        cases hall with
        | cons hnode hall =>
            exact .cons (.uri hline.not_skipped hline.not_remote hline.contains hnode)
              ((ih hlines).mpr hall)

theorem intercalate_ne_nil (h : ∀ line ∈ ls, UriLine line) (hne : ls ≠ []) :
    ['\n'].intercalate ls ≠ [] := by
  obtain ⟨line, ls, rfl⟩ := List.exists_cons_of_ne_nil hne
  have hline := (h line List.mem_cons_self).ne_nil
  cases ls with
  | nil => rwa [List.intercalate_singleton]
  | cons line' ls => simp [List.intercalate_cons_cons]

theorem trim_intercalate (h : ∀ line ∈ ls, UriLine line) :
    trim (['\n'].intercalate ls) = ['\n'].intercalate ls := by
  induction ls with
  | nil => rfl
  | cons line ls ih =>
      rw [List.forall_mem_cons] at h
      obtain ⟨hline, hlines⟩ := h
      cases ls with
      | nil => rw [List.intercalate_singleton, hline.trim_eq]
      | cons line' ls =>
          have hrest := ih hlines
          have hne := intercalate_ne_nil hlines (List.cons_ne_nil _ _)
          rw [List.intercalate_cons_cons, List.append_assoc, List.singleton_append,
            trim_append_newline (by rw [hline.trim_eq]; exact hline.ne_nil) (by rwa [hrest]),
            (trim_eq_self_iff.mp hline.trim_eq).1, (trim_eq_self_iff.mp hrest).2]

/-- **Lines of URIs are read one by one.** -/
theorem parseInput_intercalate_iff (h : ∀ line ∈ ls, UriLine line) (hne : ls ≠ [])
    (hcount : ls.length ≤ maxNodes) :
    parseInput codec (['\n'].intercalate ls) = .ok ns ↔
      (utf8 (['\n'].intercalate ls)).length ≤ maxInputBytes ∧
        List.Forall₂ (fun line node => parseNode codec line = .ok node) ls ns := by
  have htrim := trim_intercalate h
  have hsplit : ((['\n'].intercalate ls).splitOn '\n').map trim = ls := by
    rw [List.splitOn_intercalate _ (fun line hline => (h line hline).not_mem_newline) hne]
    exact (List.map_congr_left fun line hline => (h line hline).trim_eq).trans (List.map_id _)
  obtain ⟨line, ls', rfl⟩ := List.exists_cons_of_ne_nil hne
  obtain ⟨rest, hstart⟩ : ∃ rest, ['\n'].intercalate (line :: ls') = line ++ rest := by
    cases ls' with
    | nil => exact ⟨[], by simp⟩
    | cons line' ls' => exact ⟨_, by rw [List.intercalate_cons_cons, List.append_assoc]⟩
  have hline := h line List.mem_cons_self
  have hnone : decodedSubscription (['\n'].intercalate (line :: ls')) = none := by
    rw [decodedSubscription, if_pos]
    rw [hstart]
    exact contains_iff.mpr ((contains_iff.mp hline.contains).trans (List.prefix_append _ _).isInfix)
  have hformat : ¬ OtherFormat (['\n'].intercalate (line :: ls')) := by
    obtain ⟨scheme, hscheme, rest', hline'⟩ := hline.starts
    rw [hstart, hline', List.append_assoc]
    exact not_otherFormat_of_scheme hscheme _
  rw [parseInput_ok_iff, htrim]
  simp only [Reads, hnone, readsLines_lines_iff, hsplit, readsLines_uris_iff h]
  constructor
  · rintro ⟨-, -, hreads, -, -⟩
    exact hreads
  · rintro ⟨hsize, hreads⟩
    refine ⟨intercalate_ne_nil h hne, hformat, ⟨hsize, hreads⟩, ?_, hreads.length_eq ▸ hcount⟩
    rintro rfl
    cases hreads

end Join

/-! ### URLs with another host -/

section Set

variable {url : Url} {server host : List Char} {port : Nat} {node' : Node}

theorem visible_of_printable {c : Char} (h : printable c = true) : isWhitespace c = false := by
  simp only [printable, Bool.and_eq_true, decide_eq_true_eq, Char.le_def,
    UInt32.le_iff_toNat_le] at h
  have hlow : 33 ≤ c.val.toNat := h.1
  have hhigh : c.val.toNat ≤ 126 := h.2
  simp only [isWhitespace, Bool.or_eq_false_iff, Bool.and_eq_false_iff, decide_eq_false_iff_not,
    beq_eq_false_iff_ne, ne_eq, UInt32.le_iff_toNat_le, ← UInt32.toNat_inj]
  simp only [UInt32.reduceToNat]
  omega

theorem uriLine_of_clean (h : url.Clean) (hscheme : url.scheme ∈ schemes) :
    UriLine url.toString where
  visible c hc := visible_of_printable (h.printable_toString c hc)
  starts := by
    refine ⟨url.scheme, hscheme, url.userInfo ++ url.hostPort ++ url.path ++
      url.query.elim [] ('?' :: ·) ++ url.fragment.elim [] ('#' :: ·), ?_⟩
    rw [Url.toString, List.append_assoc]
    rfl

theorem schemeNode_iff_of_urlKind {kind : Kind} (h : urlKind scheme = some kind) :
    SchemeNode codec uri node scheme ↔ parseUrlNode codec uri kind = .ok node := by
  have hss : urlKind "ss".toList = none := by decide
  have hvmess : urlKind "vmess".toList = none := by decide
  rw [SchemeNode, or_iff_right, or_iff_right]
  · constructor
    · rintro ⟨kind', hkind, hnode⟩
      cases Option.some.inj (hkind.symm.trans h)
      exact hnode
    · exact fun hnode => ⟨kind, h, hnode⟩
  · rintro ⟨rfl, -⟩
    rw [hvmess] at h
    cases h
  · rintro ⟨rfl, -⟩
    rw [hss] at h
    cases h

theorem schemeNode_ss_iff :
    SchemeNode codec uri node "ss".toList ↔ parseShadowsocks codec uri = .ok node := by
  have hss : urlKind "ss".toList = none := by decide
  rw [SchemeNode, hss]
  simp

theorem schemeNode_vmess_iff :
    SchemeNode codec uri node "vmess".toList ↔ parseVmess codec uri = .ok node := by
  have hvmess : urlKind "vmess".toList = none := by decide
  rw [SchemeNode, hvmess]
  simp

/-- The URL of a node stays one of its scheme, whatever host is set. -/
theorem clean_setServer (hlawful : Lawful codec.url) (hscheme : HasScheme uri scheme)
    (hurl : codec.url.parse uri = some url) (hhost : codec.url.setHost server = some host)
    (hne : host ≠ []) (hport : port < 2 ^ 16) :
    (setServer url host port).Clean ∧ (setServer url host port).scheme = scheme := by
  obtain ⟨hclean, heq⟩ := hlawful.parse_clean hurl hscheme
  exact ⟨hclean.set (hlawful.setHost_clean hhost hne) hport, heq⟩

theorem parseNode_toString_iff (h : url.Clean) (hscheme : url.scheme = scheme) :
    parseNode codec url.toString = .ok node ↔ SchemeNode codec url.toString node scheme := by
  rw [parseNode_ok_iff]
  constructor
  · rintro ⟨scheme', rest, hsplit, hnode⟩
    cases Option.some.inj (h.splitOnce_toString.symm.trans hsplit)
    rwa [h.toAsciiLowercase_scheme, hscheme] at hnode
  · intro hnode
    refine ⟨_, _, h.splitOnce_toString, ?_⟩
    rwa [h.toAsciiLowercase_scheme, hscheme]

/-! ### Nodes from URLs -/

/-- A name that had defaulted to the server follows it. -/
theorem fragmentName_follows (url : Url) (server host : List Char) :
    fragmentName url host = fragmentName url server ∨
      fragmentName url server = server ∧ fragmentName url host = host := by
  rw [fragmentName, fragmentName]
  cases (url.fragment.map decodeComponent).filter (· ≠ []) with
  | none => exact .inr ⟨rfl, rfl⟩
  | some name => exact .inl rfl

/-- So does a server name. -/
theorem urlNode_sni_cases (kind : Kind) (uri uri' : List Char) (url : Url) (server host : List Char)
    (port : Nat) :
    let node := urlNode kind uri url server
    let node' := urlNode kind uri' (setServer url host port) host
    if node.tls = true ∧ node.host = [] ∧ queryValue url ["sni"] = [] then
      node.sni = server ∧ node'.sni = host
    else node'.sni = node.sni := by
  intro node node'
  let named := if queryValue url ["sni"] = [] ∧ node.host ≠ [] then node.host
    else queryValue url ["sni"]
  have hsni : node.sni = if named = [] ∧ node.tls = true then server else named := rfl
  have hsni' : node'.sni = if named = [] ∧ node.tls = true then host else named := rfl
  have hnamed : named = [] ∧ node.tls = true ↔
      node.tls = true ∧ node.host = [] ∧ queryValue url ["sni"] = [] := by
    by_cases hvalue : queryValue url ["sni"] = [] <;> by_cases hhost : node.host = [] <;>
      simp [named, hvalue, hhost]
  rw [hsni, hsni']
  simp only [hnamed]
  split_ifs <;> simp

variable {kind : Kind} {server' : List Char}

theorem parseUrlNode_setServer_iff (hlawful : Lawful codec.url) (hscheme : HasScheme uri scheme)
    (hurl : codec.url.parse uri = some url) (hhost : codec.url.setHost server = some host)
    (hne : host ≠ []) (hport : port < 2 ^ 16)
    (hcredentials : (urlNode kind uri url server').hasCredentials) :
    parseUrlNode codec (setServer url host port).toString kind = .ok node' ↔
      node' = urlNode kind (setServer url host port).toString (setServer url host port) host := by
  have hparse : codec.url.parse (setServer url host port).toString =
      some (setServer url host port) := hlawful.parse_set hurl hscheme hhost hne hport
  rw [parseUrlNode_ok_iff]
  constructor
  · rintro ⟨url', host', hurl', hhost', rfl, -⟩
    cases Option.some.inj (hparse.symm.trans hurl')
    cases Option.some.inj hhost'
    rfl
  · rintro rfl
    exact ⟨_, host, hparse, rfl, rfl, hcredentials⟩

variable {uri' line : List Char}

/-- A node that is read from a URL is changed in its endpoint only. -/
theorem rewritten_urlNode_iff (hnode : node = urlNode kind uri url server') :
    Rewritten server port node (urlNode kind uri' (setServer url host port) host) ↔
      host = server := by
  subst hnode
  constructor
  · exact fun h => h.server
  · rintro rfl
    have hsni := urlNode_sni_cases kind uri uri' url server' host port
    refine ⟨rfl, rfl, fragmentName_follows url server' host, ?_, rfl⟩
    dsimp only at hsni
    split_ifs at hsni
    · exact .inr hsni
    · exact .inl hsni

theorem sni_urlNode_iff (hnode : node = urlNode kind uri url server')
    (hurl : codec.url.parse uri = some url) :
    (urlNode kind uri' (setServer url host port) host).sni = node.sni ↔
      (DefaultSni codec node → node.server = host) := by
  subst hnode
  have hsni := urlNode_sni_cases kind uri uri' url server' host port
  have hdefault : DefaultSni codec (urlNode kind uri url server') ↔
      (urlNode kind uri url server').tls = true ∧ (urlNode kind uri url server').host = [] ∧
        queryValue url ["sni"] = [] := by
    refine and_congr_right fun _ => and_congr_right fun _ => ?_
    constructor
    · rintro ⟨url', hurl', hvalue⟩
      cases Option.some.inj (hurl.symm.trans hurl')
      exact hvalue
    · exact fun hvalue => ⟨url, hurl, hvalue⟩
  rw [hdefault]
  dsimp only at hsni
  split_ifs at hsni with h
  · rw [hsni.1, hsni.2]
    exact ⟨fun heq _ => heq.symm, fun heq => (heq h).symm⟩
  · exact iff_of_true hsni fun hyes => absurd hyes h

/-! ### Shadowsocks and VMess -/

/-- A colon is no Base64. -/
theorem decodeBase64_of_colon {value : List Char} (h : ':' ∈ value) :
    decodeBase64 value = none := by
  by_contra hsome
  obtain ⟨bytes, hbytes⟩ := Option.ne_none_iff_exists'.mp hsome
  obtain ⟨e, -, he⟩ := List.exists_of_findSome?_eq_some hbytes
  have hmem : ':' ∈ value.filter (!isWhitespace ·) := List.mem_filter.mpr ⟨h, by decide⟩
  rcases Base64.Engine.symbol_of_decode he hmem with heq | ⟨v, hv⟩
  · exact absurd heq (by decide)
  · have hnone : ∀ urlSafe, Base64.symbol urlSafe ':' = none := by decide
    rw [hnone] at hv
    cases hv

theorem elim_sign (sign : Char) (part : Option (List Char)) :
    part.elim [] (sign :: ·) = [] ∨ (part.elim [] (sign :: ·)).head? = some sign := by
  cases part <;> simp

/-- **A VMess node is lost**: what is read as its payload has a port in it. -/
theorem not_parseVmess (h : url.Clean) (hscheme : url.scheme = "vmess".toList)
    (hport : url.port = some port) : parseVmess codec url.toString ≠ .ok node := by
  intro hok
  have htext : url.toString = "vmess://".toList ++ (url.userInfo ++ url.hostPort ++ url.path ++
      url.query.elim [] ('?' :: ·) ++ url.fragment.elim [] ('#' :: ·)) := by
    rw [Url.toString, hscheme]
    rfl
  rw [parseVmess, bind_ok_iff] at hok
  obtain ⟨encoded, hencoded, hok⟩ := hok
  rw [okOr_ok_iff, htext, stripStart_append] at hencoded
  cases hencoded
  obtain ⟨decoded, hdecoded, -⟩ := bind_ok_iff.mp hok
  rw [okOr_ok_iff, (takeWhile_append_of_not_mem h.hash_not_mem (elim_sign _ _)).1,
    decodeBase64_of_colon (by simp [hostPort, hport, portText])] at hdecoded
  cases hdecoded

theorem parseShadowsocks_toString_iff (h : url.Clean) (hscheme : url.scheme = "ss".toList) :
    parseShadowsocks codec url.toString = .ok node ↔
      ∃ text address method password server port,
        readAuthority (url.userInfo ++ url.hostPort ++ url.path) = .ok (text, address) ∧
        splitOnce [':'] text = some (method, password) ∧
        splitServerPort codec address = .ok (server, port) ∧ method ≠ [] ∧ password ≠ [] ∧
        node = ssNode url.toString (url.fragment.map decodeComponent) server port
          method password := by
  have htext : url.toString = "ss://".toList ++ (url.userInfo ++ url.hostPort ++ url.path ++
      url.query.elim [] ('?' :: ·) ++ url.fragment.elim [] ('#' :: ·)) := by
    rw [Url.toString, hscheme]
    rfl
  have hstrip := stripStart_append "ss://".toList (url.userInfo ++ url.hostPort ++ url.path ++
    url.query.elim [] ('?' :: ·) ++ url.fragment.elim [] ('#' :: ·))
  rw [← htext] at hstrip
  have hauthority := (takeWhile_append_of_not_mem h.hash_not_mem (elim_sign '#' url.fragment)).1
  have hauthority' := (takeWhile_append_of_not_mem h.question_not_mem (elim_sign '?' url.query)).1
  have hfragment : (splitOnce ['#'] (url.userInfo ++ url.hostPort ++ url.path ++
      url.query.elim [] ('?' :: ·) ++ url.fragment.elim [] ('#' :: ·))).map
        (fun pair => decodeComponent pair.2) = url.fragment.map decodeComponent := by
    cases hf : url.fragment with
    | none =>
        rw [Option.elim_none, List.append_nil, splitOnce_eq_none h.hash_not_mem]
        rfl
    | some fragment =>
        have hsplit := splitOnce_append h.hash_not_mem [] fragment
        rw [List.append_assoc _ ['#'], List.singleton_append] at hsplit
        rw [Option.elim_some, hsplit]
        rfl
  rw [parseShadowsocks_ok_iff]
  constructor
  · rintro ⟨rest, text, address, method, password, server, port, hrest, hread, hparts⟩
    cases Option.some.inj (hstrip.symm.trans hrest)
    rw [hauthority, hauthority'] at hread
    rw [hfragment] at hparts
    exact ⟨text, address, method, password, server, port, hread, hparts⟩
  · rintro ⟨text, address, method, password, server, port, hread, hparts⟩
    rw [← hfragment] at hparts
    refine ⟨_, text, address, method, password, server, port, hstrip, ?_, hparts⟩
    rw [hauthority, hauthority']
    exact hread

/-- The server behind the credentials is the host that was set. -/
theorem splitServerPort_setServer (hlawful : Lawful codec.url) (hscheme : HasScheme uri scheme)
    (hurl : codec.url.parse uri = some url) (hhost : codec.url.setHost server = some host)
    (hne : host ≠ []) (hport : port < 2 ^ 16) :
    splitServerPort codec (host ++ portText (some port) ++ url.path) = .ok (host, port) := by
  have htext : "tcp://".toList ++ (host ++ portText (some port) ++ url.path) =
      (url.server host port).toString := by
    simp [Url.toString, Url.server, userInfo, hostPort]
  rw [splitServerPort, htext, hlawful.parse_server hurl hscheme hhost hne hport]
  rfl

theorem readAuthority_append_iff {credentials address : List Char} (h : '@' ∉ address)
    {text address' : List Char} :
    readAuthority (credentials ++ '@' :: address) = .ok (text, address') ↔
      readCredentials credentials = .ok text ∧ address' = address := by
  rw [readAuthority, rsplitOnce_append _ h, bind_ok_iff]
  constructor
  · rintro ⟨text', htext, heq⟩
    cases heq
    exact ⟨htext, rfl⟩
  · rintro ⟨htext, rfl⟩
    exact ⟨text, htext, rfl⟩

/-- An authority without a user is taken for Base64, and it is none. -/
theorem readAuthority_of_colon {authority : List Char} (hat : '@' ∉ authority)
    (hcolon : ':' ∈ authority) {parts : List Char × List Char} :
    readAuthority authority ≠ .ok parts := by
  rw [readAuthority, rsplitOnce_eq_none hat, decodeBase64_of_colon hcolon]
  intro h
  cases h

/-- **What is read before the query** of a URL with another host. -/
theorem readAuthority_setServer_iff (hlawful : Lawful codec.url) (hscheme : HasScheme uri scheme)
    (hurl : codec.url.parse uri = some url) (hhost : codec.url.setHost server = some host)
    (hne : host ≠ []) (hport : port < 2 ^ 16) {text server' : List Char} {port' : Nat} :
    (∃ address, readAuthority (url.userInfo ++ (host ++ portText (some port)) ++ url.path) =
        .ok (text, address) ∧ splitServerPort codec address = .ok (server', port')) ↔
      ∃ credentials, SsAuthority codec url host port credentials server' port' ∧
        readCredentials credentials = .ok text := by
  have hclean := (clean_setServer hlawful hscheme hurl hhost hne hport).1
  have hat : '@' ∉ host ++ portText (some port) :=
    hclean.not_mem_hostPort (by decide) (by decide) (by decide) (by decide) (by decide) (by decide)
  have hserver := splitServerPort_setServer hlawful hscheme hurl hhost hne hport
  have huser : ¬ (url.username = [] ∧ url.password = none) → url.userInfo ++ (host ++
      portText (some port)) ++ url.path = (url.username ++ url.password.elim [] (':' :: ·)) ++
      '@' :: (host ++ portText (some port) ++ url.path) := by
    intro h
    rw [userInfo, if_neg h]
    simp only [List.append_assoc, List.cons_append, List.nil_append]
  constructor
  · rintro ⟨address, hread, haddress⟩
    by_cases hpath : '@' ∈ url.path
    · -- the last one is in the path
      obtain ⟨after, before, hreverse, hafter⟩ :=
        List.eq_append_cons_of_mem (List.mem_reverse.mpr hpath)
      have hsplit : url.path = before.reverse ++ '@' :: after.reverse := by
        rw [← List.reverse_reverse url.path, hreverse]
        simp
      have hafter' : '@' ∉ after.reverse := by simpa using hafter
      rw [hsplit, ← List.append_assoc, readAuthority_append_iff hafter'] at hread
      obtain ⟨htext, rfl⟩ := hread
      exact ⟨_, .path hsplit hafter' haddress, htext⟩
    · have haddress' : '@' ∉ host ++ portText (some port) ++ url.path := by
        rw [List.mem_append, not_or]
        exact ⟨hat, hpath⟩
      by_cases hinfo : url.username = [] ∧ url.password = none
      · rw [userInfo, if_pos hinfo, List.nil_append] at hread
        exact absurd hread (readAuthority_of_colon haddress' (by simp [portText]))
      · rw [huser hinfo, readAuthority_append_iff haddress'] at hread
        obtain ⟨htext, rfl⟩ := hread
        cases hserver.symm.trans haddress
        exact ⟨_, .user hpath hinfo, htext⟩
  · rintro ⟨credentials, hauthority, htext⟩
    cases hauthority with
    | user hpath hinfo =>
        have haddress' : '@' ∉ host ++ portText (some port) ++ url.path := by
          rw [List.mem_append, not_or]
          exact ⟨hat, hpath⟩
        refine ⟨_, ?_, hserver⟩
        rw [huser hinfo, readAuthority_append_iff haddress']
        exact ⟨htext, rfl⟩
    | @path before after server' port' hpath hafter haddress =>
        refine ⟨after, ?_, haddress⟩
        rw [hpath, ← List.append_assoc, readAuthority_append_iff hafter]
        exact ⟨htext, rfl⟩

/-- A Shadowsocks node is changed in its endpoint only. -/
theorem rewritten_ssNode_iff {fragment fragment' : Option (List Char)} {uri : List Char}
    {server₀ server' : List Char} {port₀ port' : Nat}
    {method method' password password' : List Char} :
    Rewritten server port (ssNode uri fragment server₀ port₀ method password)
        (ssNode uri' fragment' server' port' method' password') ↔
      server' = server ∧ port' = port ∧ method' = method ∧ password' = password ∧
        Follows Node.name (ssNode uri fragment server₀ port₀ method password)
          (ssNode uri' fragment' server' port' method' password') := by
  constructor
  · intro h
    exact ⟨h.server, h.port, congrArg Node.method h.same, congrArg Node.password h.same, h.name⟩
  · rintro ⟨rfl, rfl, rfl, rfl, hname⟩
    exact ⟨rfl, rfl, hname, .inl rfl, rfl⟩

/-- **A Shadowsocks node comes back** if what is before the host still says what it did. -/
theorem exists_rewritten_ss_iff (hlawful : Lawful codec.url)
    (hscheme : HasScheme node.original "ss".toList)
    (hurl : codec.url.parse node.original = some url)
    (hhost : codec.url.setHost server = some host) (hne : host ≠ []) (hport : port < 2 ^ 16)
    (hnode : parseShadowsocks codec node.original = .ok node) :
    (∃ node', parseShadowsocks codec (setServer url host port).toString = .ok node' ∧
      Rewritten server port node node') ↔ SsKeeps codec url host server port node := by
  obtain ⟨hclean, hss⟩ := clean_setServer hlawful hscheme hurl hhost hne hport
  obtain ⟨_, _, _, method, password, server₀, port₀, -, -, -, -, hmethod, hpassword, heq⟩ :=
    parseShadowsocks_ok_iff.mp hnode
  simp only [parseShadowsocks_toString_iff hclean hss]
  constructor
  · rintro ⟨_, ⟨text, address, method', password', server', port', hread, hsplit, haddress, -, -,
      rfl⟩, hrewritten⟩
    rw [heq] at hrewritten ⊢
    obtain ⟨rfl, rfl, rfl, rfl, hname⟩ := rewritten_ssNode_iff.mp hrewritten
    obtain ⟨credentials, hauthority, htext⟩ :=
      (readAuthority_setServer_iff hlawful hscheme hurl hhost hne hport).mp
        ⟨address, hread, haddress⟩
    exact ⟨⟨credentials, text, hauthority, htext, hsplit⟩, hname⟩
  · rintro ⟨⟨credentials, text, hauthority, htext, hsplit⟩, hname⟩
    obtain ⟨address, hread, haddress⟩ :=
      (readAuthority_setServer_iff hlawful hscheme hurl hhost hne hport).mpr
        ⟨credentials, hauthority, htext⟩
    rw [heq] at hsplit hname ⊢
    exact ⟨_, ⟨text, address, method, password, server, port, hread, hsplit, haddress, hmethod,
      hpassword, rfl⟩, rewritten_ssNode_iff.mpr ⟨rfl, rfl, rfl, rfl, hname⟩⟩

/-! ### Nodes -/

theorem rewriteNode_ok_iff :
    rewriteNode codec (some (server, port)) node = .ok line ↔
      ∃ url host, codec.url.parse node.original = some url ∧
        codec.url.setHost server = some host ∧ host ≠ [] ∧
        line = (setServer url host port).toString := by
  simp only [rewriteNode, bind_ok_iff, okOr_ok_iff]
  constructor
  · rintro ⟨url, hurl, host, hhost, _, hensure, hline⟩
    cases hline
    exact ⟨url, host, hurl, hhost, ensure_ok_iff.mp hensure, rfl⟩
  · rintro ⟨url, host, hurl, hhost, hne, rfl⟩
    exact ⟨url, hurl, host, hhost, (), ensure_ok_iff.mpr hne, rfl⟩

theorem keeps_iff (hurl : codec.url.parse node.original = some url)
    (hhost : codec.url.setHost server = some host) :
    Keeps codec server port node ↔ KindKeeps codec url host server port node := by
  constructor
  · rintro ⟨url', host', hurl', hhost', h⟩
    cases Option.some.inj (hurl.symm.trans hurl')
    cases Option.some.inj (hhost.symm.trans hhost')
    exact h
  · exact fun h => ⟨url, host, hurl, hhost, h⟩

theorem kind_of_parseVmess (h : parseVmess codec uri = .ok node) : node.kind = .vmess := by
  simp only [parseVmess, bind_ok_iff] at h
  obtain ⟨_, -, _, -, _, -, _, -, hnode⟩ := h
  cases hnode
  rfl

theorem kindKeeps_of_urlKind (h : urlKind scheme = some node.kind) :
    KindKeeps codec url host server port node ↔ host = server := by
  have hne : node.kind ≠ .vmess ∧ node.kind ≠ .shadowsocks := by
    rw [urlKind] at h
    split_ifs at h <;> simp [← Option.some.inj h]
  rw [KindKeeps]
  split
  · exact absurd ‹_› hne.1
  · exact absurd ‹_› hne.2
  · rfl

/-- **Which nodes come back**, and which with their server name. -/
theorem exists_rewritten_iff (hlawful : Lawful codec.url) (hport : port < 2 ^ 16)
    (hnode : parseNode codec node.original = .ok node)
    (hline : rewriteNode codec (some (server, port)) node = .ok line) :
    UriLine line ∧
      ((∃ node', parseNode codec line = .ok node' ∧ Rewritten server port node node') ↔
        Keeps codec server port node) ∧
      ((∃ node', parseNode codec line = .ok node' ∧ Rewritten server port node node' ∧
          node'.sni = node.sni) ↔
        Keeps codec server port node ∧ (DefaultSni codec node → node.server = server)) := by
  obtain ⟨url, host, hurl, hhost, hne, rfl⟩ := rewriteNode_ok_iff.mp hline
  obtain ⟨scheme, hscheme, hscheme'⟩ := hasScheme_of_parseNode hnode
  obtain ⟨hclean, heq⟩ := clean_setServer hlawful hscheme hurl hhost hne hport
  refine ⟨uriLine_of_clean hclean (heq ▸ hscheme'.mem), ?_⟩
  simp only [keeps_iff hurl hhost, parseNode_toString_iff hclean heq]
  rcases hscheme' with ⟨rfl, hread⟩ | ⟨rfl, hread⟩ | ⟨kind, hkind, hread⟩
  · -- Shadowsocks: there is no server name
    have hss := exists_rewritten_ss_iff hlawful hscheme hurl hhost hne hport hread
    obtain ⟨_, _, _, _, _, _, _, -, -, -, -, -, -, hss'⟩ := parseShadowsocks_ok_iff.mp hread
    have hkeeps : KindKeeps codec url host server port node ↔
        SsKeeps codec url host server port node := by
      rw [KindKeeps, congrArg Node.kind hss']
      rfl
    have hdefault : ¬ DefaultSni codec node := by
      rintro ⟨htls, -⟩
      rw [congrArg Node.tls hss'] at htls
      cases htls
    simp only [schemeNode_ss_iff, hkeeps, ← hss, hdefault, false_imp_iff, and_true, true_and]
    constructor
    · rintro ⟨node', hnode', hrewritten, -⟩
      exact ⟨node', hnode', hrewritten⟩
    · rintro ⟨node', hnode', hrewritten⟩
      obtain ⟨_, _, _, _, _, _, _, -, -, -, -, -, -, rfl⟩ := parseShadowsocks_ok_iff.mp hnode'
      exact ⟨_, hnode', hrewritten, (congrArg Node.sni hss').symm⟩
  · have hnot : ∀ node', parseVmess codec (setServer url host port).toString ≠ .ok node' :=
      fun node' => not_parseVmess hclean heq rfl
    have hkeeps : ¬ KindKeeps codec url host server port node := by
      rw [KindKeeps, kind_of_parseVmess hread]
      exact id
    simp only [schemeNode_vmess_iff]
    simp [hnot, hkeeps]
  · obtain ⟨url', server₀, hurl', -, hurlNode, hcredentials⟩ := parseUrlNode_ok_iff.mp hread
    cases Option.some.inj (hurl.symm.trans hurl')
    have hkind' : urlKind scheme = some node.kind := by
      rw [hkind, congrArg Node.kind hurlNode]
      rfl
    rw [hurlNode] at hcredentials
    simp only [schemeNode_iff_of_urlKind hkind, kindKeeps_of_urlKind hkind',
      parseUrlNode_setServer_iff hlawful hscheme hurl hhost hne hport hcredentials,
      exists_eq_left]
    rw [rewritten_urlNode_iff hurlNode, sni_urlNode_iff hurlNode hurl]
    refine ⟨Iff.rfl, and_congr_right ?_⟩
    rintro rfl
    rfl

/-- The size of a URL that was rewritten. -/
theorem size_of_rewriteNode (hlawful : Lawful codec.url) (hport : port < 2 ^ 16)
    (hnode : parseNode codec node.original = .ok node)
    (hline : rewriteNode codec (some (server, port)) node = .ok line) :
    (∀ c ∈ line, c.val ≤ 127) ∧
      urlSize codec node + overrideSize codec server port = line.length := by
  obtain ⟨url, host, hurl, hhost, hne, rfl⟩ := rewriteNode_ok_iff.mp hline
  obtain ⟨scheme, hscheme, -⟩ := hasScheme_of_parseNode hnode
  have hclean := (clean_setServer hlawful hscheme hurl hhost hne hport).1
  refine ⟨fun c hc => ascii_of_printable (hclean.printable_toString c hc), ?_⟩
  rw [length_toString, urlSize, overrideSize, hurl, hhost, Option.map_some, Option.getD_some,
    Option.getD_some, hostPort, List.length_append]
  rfl

theorem size_of_rewritten {nodes : List Node} {rewritten : List (List Char)}
    (h : List.Forall₂ (fun node line => (∀ c ∈ line, c.val ≤ 127) ∧
      urlSize codec node + overrideSize codec server port = line.length) nodes rewritten) :
    (utf8 (['\n'].intercalate rewritten)).length = overriddenSize codec server port nodes := by
  have hascii : ∀ c ∈ ['\n'].intercalate rewritten, c.val ≤ 127 := by
    intro c hc
    rcases of_mem_intercalate hc with hc | ⟨line, hline, hc⟩
    · rw [List.mem_singleton.mp hc]
      decide
    · obtain ⟨node, -, hsize⟩ := exists_mem_left h hline
      exact hsize.1 c hc
  have hsizes : nodes.map (fun node => urlSize codec node + overrideSize codec server port) =
      rewritten.map List.length := by
    rw [← List.forall₂_eq_eq_eq, List.forall₂_map_left_iff, List.forall₂_map_right_iff]
    exact h.imp fun _ _ hsize => hsize.2
  rw [length_utf8_of_ascii hascii, length_intercalate_singleton, overriddenSize, hsizes,
    h.length_eq]

/-- What was rewritten is read again, node by node. -/
theorem readsBack_iff {nodes : List Node} {rewritten : List (List Char)} {R : Node → Node → Prop}
    {P : Node → Prop}
    (hlines : nodes.mapM (rewriteNode codec (some (server, port))) = .ok rewritten)
    (hne : rewritten ≠ []) (hcount : nodes.length ≤ maxNodes)
    (hnodes : ∀ node ∈ nodes, ∀ line, rewriteNode codec (some (server, port)) node = .ok line →
      UriLine line ∧ ((∃ node', parseNode codec line = .ok node' ∧ R node node') ↔ P node)) :
    ReadsBack codec (['\n'].intercalate rewritten) R nodes ↔
      (utf8 (['\n'].intercalate rewritten)).length ≤ maxInputBytes ∧ ∀ node ∈ nodes, P node := by
  have hall := mapM_ok_iff.mp hlines
  have huri : ∀ line ∈ rewritten, UriLine line := by
    intro line hline
    obtain ⟨node, hnode, hrewrite⟩ := exists_mem_left hall hline
    exact (hnodes node hnode line hrewrite).1
  have hread : ∀ nodes', parseInput codec (['\n'].intercalate rewritten) = .ok nodes' ↔ _ :=
    fun nodes' => parseInput_intercalate_iff huri hne (hall.length_eq ▸ hcount)
  simp only [ReadsBack, hread, and_assoc, exists_and_left]
  refine and_congr_right fun _ => ?_
  rw [exists_forall₂_iff (fun _ _ _ h h' => Except.ok.inj (h.symm.trans h')) hall]
  refine forall₂_congr fun node hnode => ?_
  obtain ⟨line, -, hline⟩ := exists_mem_right hall hnode
  rw [← (hnodes node hnode line hline).2]
  constructor
  · rintro ⟨line', node', hline', hnode', hR⟩
    cases hline.symm.trans hline'
    exact ⟨node', hnode', hR⟩
  · rintro ⟨node', hnode', hR⟩
    exact ⟨line, node', hline, hnode', hR⟩

/-- **When the nodes of a subscription come back**: their URLs with the override are together not
too large, and each of them can be pointed at the relay.  They come back with their server names if
none of these had defaulted to another server. -/
theorem rewrite_keeps_iff (hlawful : Lawful codec.url) {input output : List Char}
    {tcpOnly : Bool} {nodes : List Node} (hport : port < 2 ^ 16)
    (hinput : parseInput codec input = .ok nodes)
    (hrewrite : rewriteSubscriptionInput codec input (some server) (some port) tcpOnly =
      .ok output) :
    (ReadsBack codec output (Rewritten server port) (nodes.filter (kept tcpOnly)) ↔
      overriddenSize codec server port (nodes.filter (kept tcpOnly)) ≤ maxInputBytes ∧
        ∀ node ∈ nodes.filter (kept tcpOnly), Keeps codec server port node) ∧
    (ReadsBack codec output
        (fun node node' => Rewritten server port node node' ∧ node'.sni = node.sni)
        (nodes.filter (kept tcpOnly)) ↔
      overriddenSize codec server port (nodes.filter (kept tcpOnly)) ≤ maxInputBytes ∧
        ∀ node ∈ nodes.filter (kept tcpOnly), Keeps codec server port node ∧
          (DefaultSni codec node → node.server = server)) := by
  simp only [rewriteSubscriptionInput, bind_ok_iff] at hrewrite
  obtain ⟨_, -, nodes', hnodes', rewritten, hlines, _, hne, houtput⟩ := hrewrite
  cases hinput.symm.trans hnodes'
  cases houtput
  obtain ⟨-, -, hreads, -, hcount⟩ := parseInput_ok_iff.mp hinput
  have hnodes : ∀ node ∈ nodes.filter (kept tcpOnly), ∀ line,
      rewriteNode codec (some (server, port)) node = .ok line → _ := fun node hnode line hline =>
    exists_rewritten_iff hlawful hport (hreads.reads_original node (List.mem_of_mem_filter hnode))
      hline
  have hcount' := (List.length_filter_le (kept tcpOnly) nodes).trans hcount
  have hsizes := forall₂_imp_of_mem (mapM_ok_iff.mp hlines) fun node hnode line hline =>
    size_of_rewriteNode hlawful hport (hreads.reads_original node (List.mem_of_mem_filter hnode))
      hline
  rw [← size_of_rewritten hsizes]
  constructor
  · exact readsBack_iff hlines (ensure_ok_iff.mp hne) hcount' fun node hnode line hline =>
      ⟨(hnodes node hnode line hline).1, (hnodes node hnode line hline).2.1⟩
  · exact readsBack_iff hlines (ensure_ok_iff.mp hne) hcount' fun node hnode line hline =>
      ⟨(hnodes node hnode line hline).1, (hnodes node hnode line hline).2.2⟩

end Set

/-! ### Two subscriptions -/

theorem parseInput_line_iff {line : List Char} (hline : UriLine line) {ns : List Node} :
    parseInput codec line = .ok ns ↔ (utf8 line).length ≤ maxInputBytes ∧
      List.Forall₂ (fun line node => parseNode codec line = .ok node) [line] ns := by
  have hlines : ∀ line' ∈ [line], UriLine line' := by simpa using hline
  have hread : parseInput codec (['\n'].intercalate [line]) = .ok ns ↔ _ :=
    parseInput_intercalate_iff hlines (by simp) (by simp [maxNodes])
  rwa [List.intercalate_singleton] at hread

/-- **The node of a URL.** -/
theorem parseNode_urlNode {url : Url} {kind : Kind} {server : List Char} (hclean : url.Clean)
    (hkind : urlKind url.scheme = some kind) (hhost : url.host = some server)
    (hcredentials : (urlNode kind url.toString url server).hasCredentials) :
    parseNode urlCodec url.toString = .ok (urlNode kind url.toString url server) := by
  have hparse : urlCodec.url.parse url.toString = some url :=
    simple_parse_toString hclean (by simp [hhost])
  rw [parseNode_toString_iff hclean rfl, schemeNode_iff_of_urlKind hkind]
  exact parseUrlNode_ok_iff.mpr ⟨url, server, hparse, hhost, rfl, hcredentials⟩

theorem parseInput_urlNode {url : Url} {kind : Kind} {server : List Char} (hclean : url.Clean)
    (hkind : urlKind url.scheme = some kind) (hhost : url.host = some server)
    (hcredentials : (urlNode kind url.toString url server).hasCredentials)
    (hsize : (utf8 url.toString).length ≤ maxInputBytes) :
    parseInput urlCodec url.toString = .ok [urlNode kind url.toString url server] :=
  (parseInput_line_iff (uriLine_of_clean hclean (mem_schemes_of_urlKind hkind))).mpr
    ⟨hsize, .cons (parseNode_urlNode hclean hkind hhost hcredentials) .nil⟩

theorem rewriteSubscriptionInput_of_line {input server line : List Char} {port : Nat}
    (hinput : parseInput codec input = .ok [node])
    (hline : rewriteNode codec (some (server, port)) node = .ok line) :
    rewriteSubscriptionInput codec input (some server) (some port) false = .ok line := by
  simp only [rewriteSubscriptionInput, bind_ok_iff]
  refine ⟨(), ensure_ok_iff.mpr rfl, [node], hinput, [line], ?_, (),
    ensure_ok_iff.mpr (by simp), ?_⟩
  · exact mapM_ok_iff.mpr (.cons hline .nil)
  · rw [List.intercalate_singleton]
    rfl

/-- A URL with a name and a server name of its own. -/
def relayedUrl : Url where
  scheme := "vless".toList
  username := "u".toList
  password := none
  host := some "old".toList
  port := some 1
  path := []
  query := some "security=tls&sni=s".toList
  fragment := none

/-- Its node. -/
def relayedNode : Node := urlNode .vless relayedUrl.toString relayedUrl "old".toList

theorem relayedUrl_parse : urlCodec.url.parse relayedUrl.toString = some relayedUrl :=
  simple_parse_toString (by decide) (by decide)

theorem relayedNode_parse : parseNode urlCodec relayedUrl.toString = .ok relayedNode :=
  parseNode_urlNode (by decide) (by decide) rfl (by decide)

theorem relayedNode_input : parseInput urlCodec relayedUrl.toString = .ok [relayedNode] :=
  parseInput_urlNode (by decide) (by decide) rfl (by decide) (by decide)

/-- A VLESS node with a server name comes back as it was. -/
theorem rewrite_vless : ReadsBack urlCodec (setServer relayedUrl "new".toList 2).toString
    (fun node node' => Rewritten "new".toList 2 node node' ∧ node'.sni = node.sni)
    ([relayedNode].filter (kept false)) := by
  have hline : rewriteNode urlCodec (some ("new".toList, 2)) relayedNode =
      .ok (setServer relayedUrl "new".toList 2).toString :=
    rewriteNode_ok_iff.mpr ⟨relayedUrl, "new".toList, relayedUrl_parse, by decide, by decide, rfl⟩
  have hkeeps : Keeps urlCodec "new".toList 2 relayedNode :=
    ⟨relayedUrl, "new".toList, relayedUrl_parse, by decide, rfl⟩
  have hsni : ¬ DefaultSni urlCodec relayedNode := by
    rintro ⟨-, -, url, hurl, hnil⟩
    cases Option.some.inj (relayedUrl_parse.symm.trans hurl)
    revert hnil
    decide
  refine (rewrite_keeps_iff simple_lawful (by decide) relayedNode_input
    (rewriteSubscriptionInput_of_line relayedNode_input hline)).2.mpr
      ⟨by decide, fun node hnode => ?_⟩
  cases List.mem_singleton.mp (List.mem_of_mem_filter hnode)
  exact ⟨hkeeps, fun h => absurd h hsni⟩

/-- The JSON of a VMess node. -/
def vmessJson : List Char := "\x7b\"add\":\"h\",\"id\":\"u\"\x7d".toList

/-- A codec that knows this JSON. -/
def vmessCodec : Codec where
  url := simple
  fromSlice bytes :=
    if bytes = utf8 vmessJson then
      some (.object [("add", .string "h".toList), ("id", .string "u".toList)])
    else none

/-- The payload of a VMess URI is in the place of a host. -/
def vmessUrl : Url :=
  ⟨"vmess".toList, [], none, some "eyJhZGQiOiJoIiwiaWQiOiJ1In0=".toList, none, [], none, none⟩

/-- The node of that URL. -/
def vmessNode : Node :=
  { Node.empty .vmess vmessUrl.toString with
    name := "h".toList, server := "h".toList, uuid := "u".toList }

theorem vmessNode_parse : parseVmess vmessCodec vmessUrl.toString = .ok vmessNode := by
  have hdecoded : decodeBase64 "eyJhZGQiOiJoIiwiaWQiOiJ1In0=".toList = some (utf8 vmessJson) := by
    decide
  have hjson : vmessCodec.fromSlice (utf8 vmessJson) =
      some (.object [("add", .string "h".toList), ("id", .string "u".toList)]) := by
    simp [vmessCodec]
  simp only [parseVmess, bind_ok_iff, okOr_ok_iff]
  exact ⟨"eyJhZGQiOiJoIiwiaWQiOiJ1In0=".toList, by decide, _, hdecoded, _, hjson, (),
    ensure_ok_iff.mpr (by decide), rfl⟩

/-- **A VMess node is lost**: the relay takes the place of its payload. -/
theorem rewrite_vmess :
    parseInput vmessCodec vmessUrl.toString = .ok [vmessNode] ∧
      rewriteSubscriptionInput vmessCodec vmessUrl.toString (some "new".toList) (some 2) false =
        .ok "vmess://new:2".toList ∧
      ∀ nodes', parseInput vmessCodec "vmess://new:2".toList ≠ .ok nodes' := by
  have hurl : vmessCodec.url.parse vmessUrl.toString = some vmessUrl :=
    simple_parse_toString (by decide) (by decide)
  have htext : "vmess://new:2".toList = (setServer vmessUrl "new".toList 2).toString := by decide
  have hclean : (setServer vmessUrl "new".toList 2).Clean := by decide
  have hinput : parseInput vmessCodec vmessUrl.toString = .ok [vmessNode] := by
    have hread : parseNode vmessCodec vmessUrl.toString = .ok vmessNode :=
      (parseNode_toString_iff (by decide) rfl).mpr (schemeNode_vmess_iff.mpr vmessNode_parse)
    exact (parseInput_line_iff (uriLine_of_clean (by decide) (by decide))).mpr
      ⟨by decide, .cons hread .nil⟩
  refine ⟨hinput, ?_, fun nodes' hread => ?_⟩
  · rw [htext]
    exact rewriteSubscriptionInput_of_line hinput
      (rewriteNode_ok_iff.mpr ⟨vmessUrl, "new".toList, hurl, by decide, by decide, rfl⟩)
  · rw [htext, parseInput_line_iff (uriLine_of_clean hclean (by decide))] at hread
    cases hread.2 with
    | cons hnode _ =>
        exact not_parseVmess hclean rfl rfl
          (schemeNode_vmess_iff.mp ((parseNode_toString_iff hclean rfl).mp hnode))

end SingBoxMini.Sublink
