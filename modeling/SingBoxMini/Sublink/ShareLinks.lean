import SingBoxMini.Sublink.Render

/-!
# Sublink — Share links

The links the WebUI builds for a user, and what the service reads from them.

The WebUI encodes what a user has entered as JavaScript does (`encodeURIComponent`,
`URLSearchParams`); the service reads a URL and decodes its parts.  `share_links_survive_iff` says
when everything comes back and the server is the one entered:

* all texts come back, whatever is in them;
* a Hysteria2 link of a user without a name has no fragment, so its node is named after the server;
* an IPv6 address does not come back: `host_str` has it between brackets, and the brackets are taken
  for a part of the server, and of the server name if there is no other.
-/

namespace SingBoxMini.Sublink
open Bytes Text Percent Url

/-! ### The WebUI -/

/-- The blanks of `String.prototype.trim`. -/
def isJsSpace (c : Char) : Bool :=
  (0x09 ≤ c.val && c.val ≤ 0x0D) || c.val == 0x20 || c.val == 0xA0 || c.val == 0x1680 ||
    (0x2000 ≤ c.val && c.val ≤ 0x200A) || c.val == 0x2028 || c.val == 0x2029 || c.val == 0x202F ||
    c.val == 0x205F || c.val == 0x3000 || c.val == 0xFEFF

/-- `String.prototype.trim` -/
def jsTrim (s : List Char) : List Char :=
  ((s.dropWhile isJsSpace).reverse.dropWhile isJsSpace).reverse

/-- The characters `encodeURIComponent` keeps. -/
def uriKeeps (c : Char) : Bool :=
  c.isAlphanum || c ∈ ['-', '_', '.', '!', '~', '*', '\'', '(', ')']

/-- `encodeUserInfo` -/
def encodeUserInfo (value : List Char) : List Char :=
  (encode uriKeeps value).flatMap fun c =>
    if c ∈ ['!', '\'', '(', ')', '*'] then percentByte (UInt8.ofNat c.toNat) else [c]

/-- `shareHost` -/
def shareHost (value : List Char) : List Char :=
  let host := jsTrim value
  if ':' ∈ host ∧ host.head? ≠ some '[' then brackets host else host

/-- A user, as entered. -/
structure ShareUser where
  name : List Char
  password : List Char
deriving DecidableEq, Repr

/-- What is entered for the links of all users: the values of the fields, and whether the boxes are
checked.  A port that is no number counts as zero. -/
structure ShareForm where
  port : Nat
  sni : List Char
  insecure : Bool
  obfsEnabled : Bool
  obfsPassword : List Char
deriving DecidableEq, Repr

/-- What the WebUI knows of the configuration that runs. -/
structure WebState where
  vlessUserIds : List (List Char × List Char)
  users : List ShareUser

/-- The parameters of a Hysteria2 link. -/
def hy2Parameters (form : ShareForm) : List (List Char × List Char) :=
  (if jsTrim form.sni = [] then [] else [("sni".toList, jsTrim form.sni)]) ++
    (if form.insecure then [("insecure".toList, "1".toList)] else []) ++
    (if form.obfsEnabled then
      [("obfs".toList, "salamander".toList), ("obfs-password".toList, form.obfsPassword)] else [])

/-- `buildHy2ShareLink` -/
def buildHy2ShareLink (form : ShareForm) (user : ShareUser) (server : List Char) : List Char :=
  if server = [] ∨ form.port = 0 ∨ user.password = [] then []
  else "hysteria2://".toList ++ encodeUserInfo user.password ++ ['@'] ++ shareHost server ++
    [':'] ++ Nat.toDigits 10 form.port ++ "/?".toList ++ serialize (hy2Parameters form) ++
    if user.name = [] then [] else '#' :: encode uriKeeps user.name

/-- The parameters of a VLESS link. -/
def vlessParameters (form : ShareForm) : List (List Char × List Char) :=
  [("encryption".toList, "none".toList), ("security".toList, "tls".toList),
    ("type".toList, "tcp".toList)] ++
    (if jsTrim form.sni = [] then [] else [("sni".toList, jsTrim form.sni)]) ++
    (if form.insecure then [("allowInsecure".toList, "1".toList)] else [])

/-- The name of a VLESS link. -/
def vlessName (user : ShareUser) : List Char :=
  if user.name = [] then "VLESS".toList else user.name ++ "-VLESS".toList

/-- `buildVlessShareLink` -/
def buildVlessShareLink (state : WebState) (form : ShareForm) (user : ShareUser)
    (server : List Char) : List Char :=
  match state.vlessUserIds.lookup user.name with
  | none => []
  | some uuid =>
    if server = [] ∨ form.port = 0 ∨ uuid = [] ∨
        (state.users.find? (·.name = user.name)).map (·.password) ≠ some user.password then []
    else "vless://".toList ++ uuid ++ ['@'] ++ shareHost server ++ [':'] ++
      Nat.toDigits 10 form.port ++ ['?'] ++ serialize (vlessParameters form) ++
      '#' :: encode uriKeeps (vlessName user)

/-! ### Characters -/

/-- The characters `encodeUserInfo` keeps. -/
def userInfoKeeps (c : Char) : Bool := c.isAlphanum || c ∈ ['-', '_', '.', '~']

/-- `encodeUserInfo` encodes all at once. -/
theorem encodeUserInfo_eq (value : List Char) :
    encodeUserInfo value = encode userInfoKeeps value := by
  rw [encodeUserInfo, encode, encode, List.flatMap_assoc]
  refine List.flatMap_congr fun c _ => ?_
  by_cases hmark : c ∈ ['!', '\'', '(', ')', '*']
  · simp only [List.mem_cons, List.not_mem_nil, or_false] at hmark
    rcases hmark with rfl | rfl | rfl | rfl | rfl <;> decide
  · have hkeeps : uriKeeps c = userInfoKeeps c := by
      simp only [List.mem_cons, List.not_mem_nil, or_false, not_or] at hmark
      simp [uriKeeps, userInfoKeeps, hmark]
    rw [hkeeps]
    split_ifs
    · rw [List.flatMap_singleton, if_neg hmark]
    · -- what is encoded has none of the marks
      rw [List.flatMap_assoc]
      refine List.flatMap_congr fun b _ => ?_
      have hb : b.toNat < 256 := b.toNat_lt
      have hdigit : ∀ n < 16, (Nat.digitChar n).toUpper ∉ ['!', '\'', '(', ')', '*'] := by decide
      simp only [percentByte, List.flatMap_cons, List.flatMap_nil, if_neg (hdigit _ (by omega :
        b.toNat / 16 < 16)), if_neg (hdigit _ (by omega : b.toNat % 16 < 16))]
      rfl

/-- The characters of a text that is encoded. -/
theorem encode_chars {keep : Char → Bool} {marks : List Char}
    (hkeep : ∀ c, keep c = true → c.isAlphanum = true ∨ c ∈ marks) (hpercent : '%' ∈ marks)
    (s : List Char) : ∀ c ∈ encode keep s, c.isAlphanum = true ∨ c ∈ marks := by
  intro c hc
  rcases mem_encode hc with ⟨-, hkept⟩ | rfl | ⟨n, hn, rfl⟩
  · exact hkeep c hkept
  · exact .inr hpercent
  · have hdigit : ∀ n < 16, ((Nat.digitChar n).toUpper).isAlphanum = true := by decide
    exact .inl (hdigit n hn)

theorem encode_uri_chars (s : List Char) : ∀ c ∈ encode uriKeeps s,
    c.isAlphanum = true ∨ c ∈ ['%', '-', '.', '_', '~', '!', '*', '\'', '(', ')'] := by
  refine encode_chars (fun c hc => ?_) (by decide) s
  simp only [uriKeeps, Bool.or_eq_true, decide_eq_true_eq] at hc
  grind

/-- The characters of a form. -/
theorem serialize_chars (fields : List (List Char × List Char)) :
    ∀ c ∈ serialize fields,
      c.isAlphanum = true ∨ c ∈ ['%', '-', '.', '_', '*', '+', '&', '='] := by
  intro c hc
  rcases mem_serialize hc with rfl | rfl | ⟨s, hc⟩
  · exact .inr (by decide)
  · exact .inr (by decide)
  · rcases mem_encodeForm hc with rfl | hkept | rfl
    · exact .inr (by decide)
    · simp only [formKeeps, Bool.or_eq_true, decide_eq_true_eq] at hkept
      grind
    · exact .inr (by decide)

/-! ### The links as URLs -/

/-- The URL of a Hysteria2 link. -/
def hy2Url (form : ShareForm) (user : ShareUser) (host : List Char) : Url where
  scheme := "hysteria2".toList
  username := encodeUserInfo user.password
  password := none
  host := some host
  port := some form.port
  path := ['/']
  query := some (serialize (hy2Parameters form))
  fragment := if user.name = [] then none else some (encode uriKeeps user.name)

/-- The URL of a VLESS link. -/
def vlessUrl (form : ShareForm) (user : ShareUser) (uuid host : List Char) : Url where
  scheme := "vless".toList
  username := uuid
  password := none
  host := some host
  port := some form.port
  path := []
  query := some (serialize (vlessParameters form))
  fragment := some (encode uriKeeps (vlessName user))

theorem encode_ne_nil {keep : Char → Bool} {s : List Char} (h : s ≠ []) : encode keep s ≠ [] := by
  obtain ⟨c, t, rfl⟩ := List.exists_cons_of_ne_nil h
  rw [encode, List.flatMap_cons]
  split_ifs
  · simp
  · obtain ⟨b, bs, hb, -, -⟩ := utf8EncodeChar_eq c
    simp [hb, percentByte]

/-- The text of a URL with a user and no password. -/
theorem toString_of_username {scheme username host path query : List Char} {port : Nat}
    {fragment : Option (List Char)} (husername : username ≠ []) :
    (Url.mk scheme username none (some host) (some port) path (some query) fragment).toString =
      scheme ++ "://".toList ++ (username ++ ['@'] ++ (host ++ ':' :: Nat.toDigits 10 port) ++
        path ++ '?' :: query ++ fragment.elim [] ('#' :: ·)) := by
  rw [Url.toString, userInfo, if_neg fun h => husername h.1, Option.elim_none, List.append_nil]
  rfl

theorem elim_fragment (name : List Char) :
    (if name = [] then none else some (encode uriKeeps name)).elim [] ('#' :: ·) =
      if name = [] then [] else '#' :: encode uriKeeps name := by
  by_cases hname : name = []
  · rw [if_pos hname, if_pos hname, Option.elim_none]
  · rw [if_neg hname, if_neg hname, Option.elim_some]

variable {form : ShareForm} {server uuid bare : List Char} {url : Url} {library : Library}

theorem buildHy2ShareLink_eq {user : ShareUser} (hserver : server ≠ []) (hport : form.port ≠ 0)
    (hpassword : user.password ≠ []) :
    buildHy2ShareLink form user server = (hy2Url form user (shareHost server)).toString := by
  have husername : encodeUserInfo user.password ≠ [] := by
    rw [encodeUserInfo_eq]
    exact encode_ne_nil hpassword
  have hnot : ¬ (server = [] ∨ form.port = 0 ∨ user.password = []) := by
    simp [hserver, hport, hpassword]
  have hscheme : "hysteria2://".toList = "hysteria2".toList ++ "://".toList := by decide
  have hpath : "/?".toList = ['/', '?'] := by decide
  refine Eq.trans ?_ (toString_of_username husername).symm
  rw [buildHy2ShareLink, if_neg hnot, elim_fragment, hscheme, hpath]
  simp only [List.append_assoc, List.cons_append, List.nil_append]

theorem buildVlessShareLink_eq {state : WebState} {user : ShareUser}
    (huuid : state.vlessUserIds.lookup user.name = some uuid) (hserver : server ≠ [])
    (hport : form.port ≠ 0) (hne : uuid ≠ [])
    (hsaved : (state.users.find? (·.name = user.name)).map (·.password) = some user.password) :
    buildVlessShareLink state form user server =
      (vlessUrl form user uuid (shareHost server)).toString := by
  have hnot : ¬ (server = [] ∨ form.port = 0 ∨ uuid = [] ∨
      (state.users.find? (·.name = user.name)).map (·.password) ≠ some user.password) := by
    simp [hserver, hport, hne, hsaved]
  have hscheme : "vless://".toList = "vless".toList ++ "://".toList := by decide
  refine Eq.trans ?_ (toString_of_username hne).symm
  rw [buildVlessShareLink, huuid]
  simp only [if_neg hnot, hscheme, List.append_assoc, List.cons_append, List.nil_append,
    Option.elim_some]

theorem hy2Url_plain (user : ShareUser) (host : List Char) (hport : form.port < 2 ^ 16) :
    (hy2Url form user host).Plain where
  scheme := show cleanScheme "hysteria2".toList = true by decide
  username := by
    show ∀ c ∈ encodeUserInfo user.password, _
    rw [encodeUserInfo_eq]
    refine encode_chars (fun c hc => ?_) (by decide) user.password
    simp only [userInfoKeeps, Bool.or_eq_true, decide_eq_true_eq] at hc
    grind
  password := rfl
  port := ⟨form.port, hport, rfl⟩
  path := .inr rfl
  query := serialize_chars (hy2Parameters form)
  fragment := by
    show ∀ c ∈ (if user.name = [] then none else some (encode uriKeeps user.name)).getD [], _
    split_ifs
    · simp
    · exact encode_uri_chars user.name

theorem vlessUrl_plain (user : ShareUser) (host : List Char) (hport : form.port < 2 ^ 16)
    (huuid : ∀ c ∈ uuid, c.isAlphanum = true ∨ c = '-') :
    (vlessUrl form user uuid host).Plain where
  scheme := show cleanScheme "vless".toList = true by decide
  username := by
    intro c hc
    rcases huuid c hc with halnum | rfl
    · exact .inl halnum
    · exact .inr (by decide)
  password := rfl
  port := ⟨form.port, hport, rfl⟩
  path := .inl rfl
  query := serialize_chars (vlessParameters form)
  fragment := encode_uri_chars (vlessName user)

/-! ### The values in the links -/

theorem queryValue_serialize {fields : List (List Char × List Char)}
    (h : url.query = some (serialize fields)) (names : List String) :
    queryValue url names = ((fields.find? fun field =>
      names.any fun name => eqIgnoreAsciiCase field.1 name.toList).map (·.2)).getD [] := by
  rw [queryValue, queryValueOptional, h, Option.getD_some, pairs_serialize]

theorem hy2Parameters_values (h : url.query = some (serialize (hy2Parameters form))) :
    queryValue url ["security"] = [] ∧ queryValue url ["host"] = [] ∧
      queryValue url ["sni"] = jsTrim form.sni ∧
      queryValue url ["allowInsecure", "insecure"] = (if form.insecure then ['1'] else []) ∧
      queryValue url ["obfs"] = (if form.obfsEnabled then "salamander".toList else []) ∧
      queryValue url ["obfs-password", "obfsPassword"] =
        (if form.obfsEnabled then form.obfsPassword else []) := by
  simp only [queryValue_serialize h, hy2Parameters]
  by_cases hsni : jsTrim form.sni = [] <;> cases form.insecure <;> cases form.obfsEnabled <;>
    simp +decide [hsni]

theorem vlessParameters_values (h : url.query = some (serialize (vlessParameters form))) :
    queryValue url ["security"] = "tls".toList ∧ queryValue url ["host"] = [] ∧
      queryValue url ["sni"] = jsTrim form.sni ∧
      queryValue url ["allowInsecure", "insecure"] = (if form.insecure then ['1'] else []) := by
  simp only [queryValue_serialize h, vlessParameters]
  by_cases hsni : jsTrim form.sni = [] <;> cases form.insecure <;> simp +decide [hsni]

/-- A text without a percent sign stays what it is. -/
theorem decodeComponent_of_uuid (huuid : ∀ c ∈ uuid, c.isAlphanum = true ∨ c = '-') :
    decodeComponent uuid = uuid := by
  refine decodeComponent_of_not_mem fun hpercent => ?_
  rcases huuid '%' hpercent with halnum | hdash
  · exact absurd halnum (by decide)
  · exact absurd hdash (by decide)

section Fields

variable {kind : Kind} {uri server : List Char} {url : Url}

theorem urlNode_sni (hhost : queryValue url ["host"] = [])
    (htls : urlTls kind (queryValue url ["security"]) = true) :
    (urlNode kind uri url server).sni =
      if queryValue url ["sni"] = [] then server else queryValue url ["sni"] := by
  simp [urlNode, hhost, htls]

theorem urlNode_password (h : url.password = none) :
    (urlNode .hysteria2 uri url server).password = decodeComponent url.username := by
  simp only [urlNode, h, Option.map_none, Option.getD_none, if_true]

theorem urlNode_obfs : (urlNode kind uri url server).obfs = queryValue url ["obfs"] ∧
    (urlNode kind uri url server).obfsPassword =
      queryValue url ["obfs-password", "obfsPassword"] := ⟨rfl, rfl⟩

theorem urlNode_insecure {insecure : Bool}
    (h : queryValue url ["allowInsecure", "insecure"] = if insecure then ['1'] else []) :
    (urlNode kind uri url server).insecure = insecure := by
  simp only [urlNode, h]
  cases insecure <;> decide

theorem urlNode_name {name : List Char}
    (h : url.fragment = if name = [] then none else some (encode uriKeeps name)) :
    (urlNode kind uri url server).name = if name = [] then server else name := by
  simp only [urlNode, h]
  split_ifs with hname
  · rfl
  · rw [Option.map_some, decodeComponent_encode (by decide), Option.filter_some,
      if_pos (decide_eq_true hname), Option.getD_some]

end Fields

/-- The fields of a node that is read from a Hysteria2 link. -/
theorem urlNode_hy2Url (form : ShareForm) (user : ShareUser) (uri host : List Char) :
    let node := urlNode .hysteria2 uri (hy2Url form user host) host
    node.password = user.password ∧ node.port = form.port ∧
      node.sni = (if jsTrim form.sni = [] then host else jsTrim form.sni) ∧
      node.insecure = form.insecure ∧
      node.obfs = (if form.obfsEnabled then "salamander".toList else []) ∧
      node.obfsPassword = (if form.obfsEnabled then form.obfsPassword else []) ∧
      node.name = (if user.name = [] then host else user.name) := by
  have hquery : (hy2Url form user host).query = some (serialize (hy2Parameters form)) := rfl
  obtain ⟨hsecurity, hhost, hsni, hinsecure, hobfs, hobfsPassword⟩ := hy2Parameters_values hquery
  have husername : (hy2Url form user host).username = encodeUserInfo user.password := rfl
  have hnone : (hy2Url form user host).password = none := rfl
  refine ⟨?_, rfl, ?_, urlNode_insecure hinsecure, urlNode_obfs.1.trans hobfs,
    urlNode_obfs.2.trans hobfsPassword, urlNode_name rfl⟩
  · rw [urlNode_password hnone, husername, encodeUserInfo_eq]
    exact decodeComponent_encode (by decide) user.password
  · rw [urlNode_sni hhost (by rw [hsecurity]; decide), hsni]

/-- The fields of a node that is read from a VLESS link. -/
theorem urlNode_vlessUrl (form : ShareForm) (user : ShareUser)
    (huuid : ∀ c ∈ uuid, c.isAlphanum = true ∨ c = '-') (uri host : List Char) :
    let node := urlNode .vless uri (vlessUrl form user uuid host) host
    node.uuid = uuid ∧ node.port = form.port ∧
      node.sni = (if jsTrim form.sni = [] then host else jsTrim form.sni) ∧
      node.insecure = form.insecure ∧ node.name = vlessName user := by
  have hquery : (vlessUrl form user uuid host).query = some (serialize (vlessParameters form)) :=
    rfl
  obtain ⟨hsecurity, hhost, hsni, hinsecure⟩ := vlessParameters_values hquery
  have hname : vlessName user ≠ [] := by
    rw [vlessName]
    split_ifs <;> simp
  refine ⟨decodeComponent_of_uuid huuid, rfl, ?_, urlNode_insecure hinsecure, ?_⟩
  · rw [urlNode_sni hhost (by rw [hsecurity]; decide), hsni]
  · rw [urlNode_name (if_neg hname).symm, if_neg hname]

/-! ### Servers -/

/-- The text of a server and the server it names: a host name or an IPv4 address, or an IPv6 address
with brackets or without. -/
inductive ServerText (library : Library) : List Char → List Char → Prop where
  | name {text : List Char} (h : IsName text) : ServerText library text text
  | ipv6 {address address' : List Char} (h : library.ipv6 address = some address') :
      ServerText library address address
  | bracketed {address address' : List Char} (h : library.ipv6 address = some address') :
      ServerText library (brackets address) address

/-- **The host of a link**: a name as it is, or an address between brackets. -/
theorem shareHost_cases (hlawful : Lawful library) (h : ServerText library (jsTrim server) bare) :
    (IsName bare ∧ shareHost server = bare) ∨
      ∃ address', library.ipv6 bare = some address' ∧ shareHost server = brackets bare := by
  rw [shareHost]
  generalize jsTrim server = text at h
  cases h with
  | name hname => exact .inl ⟨hname, if_neg fun h => hname.not_mem_colon h.1⟩
  | @ipv6 address address' haddress =>
      obtain ⟨hcolon, hchars⟩ := hlawful.ipv6_chars haddress
      refine .inr ⟨address', haddress, if_pos ⟨hcolon, fun hhead => ?_⟩⟩
      have hmem := hchars '[' (List.mem_of_mem_head? hhead)
      exact absurd hmem (by decide)
  | @bracketed address address' haddress =>
      exact .inr ⟨address', haddress, if_neg fun h => h.2 rfl⟩

/-- **How a link is read**: its host is the server if that is a name, and never an IPv6 address. -/
theorem parse_shareHost (hlawful : Lawful library)
    (hserver : ServerText library (jsTrim server) bare) (make : List Char → Url)
    (hmake : ∀ host, make host = { make bare with host := some host })
    (hplain : ∀ host, (make host).Plain) (hscheme : (make bare).scheme ∉ special) :
    ∃ host, host ≠ [] ∧ library.parse (make (shareHost server)).toString = some (make host) ∧
      (host = bare ↔ IsName bare) := by
  have hscheme' : ∀ host, (make host).scheme ∉ special := by
    intro host
    rw [hmake]
    exact hscheme
  rcases shareHost_cases hlawful hserver with ⟨hname, hhost⟩ | ⟨address', haddress, hhost⟩
  · refine ⟨bare, hname.1, ?_, iff_of_true rfl hname⟩
    rw [hhost]
    refine hlawful.parse_name (hplain bare) (hscheme' bare) ?_ hname
    rw [hmake]
  · obtain ⟨hcolon, hchars⟩ := hlawful.ipv6_chars haddress
    refine ⟨brackets address', by simp [brackets], ?_, iff_of_false ?_ ?_⟩
    · have hparse := hlawful.parse_ipv6 (hplain (brackets bare)) (hscheme' (brackets bare))
        (by rw [hmake]) haddress
      rw [hhost, hparse, hmake (brackets bare), hmake (brackets address')]
    · rintro rfl
      exact absurd (hchars '[' List.mem_cons_self) (by decide)
    · exact fun hname => hname.not_mem_colon hcolon

theorem server_ne_nil (hlawful : Lawful library) (h : ServerText library (jsTrim server) bare) :
    server ≠ [] := by
  rintro rfl
  have hnil : jsTrim [] = [] := rfl
  rw [hnil] at h
  cases h with
  | name hname => exact hname.1 rfl
  | ipv6 haddress => exact absurd (hlawful.ipv6_chars haddress).1 List.not_mem_nil

/-- The renderers write the server of a node. -/
structure Emits (node : Node) (server : List Char) : Prop where
  singbox : (singboxNode node).get "server" = some (.string server)
  clash : (clashProxy node)[2]? = some (yamlField "server" server)

theorem emits_iff {node : Node} :
    Emits node server ↔ node.server = server := by
  constructor
  · intro h
    have hserver := (singboxNode_server node).symm.trans h.singbox
    exact Json.string.inj (Option.some.inj hserver)
  · rintro rfl
    exact ⟨singboxNode_server node, clashProxy_server node⟩

/-! ### Links survive -/

section Survival

variable (codec : Codec) (state : WebState) (form : ShareForm) (user : ShareUser)
  (server bare : List Char)

/-- The server name: what was entered, without blanks around it, or else the server. -/
def expectedSni : List Char := if jsTrim form.sni = [] then bare else jsTrim form.sni

/-- **A Hysteria2 link survives**: everything in it comes back. -/
def Hy2Survives : Prop :=
  ∃ node, parseUrlNode codec (buildHy2ShareLink form user server) .hysteria2 = .ok node ∧
    node.password = user.password ∧ node.port = form.port ∧ node.sni = expectedSni form bare ∧
    node.obfs = (if form.obfsEnabled then "salamander".toList else []) ∧
    node.obfsPassword = (if form.obfsEnabled then form.obfsPassword else []) ∧
    node.insecure = form.insecure ∧ node.name = user.name ∧ Emits node bare

/-- **A VLESS link survives.** -/
def VlessSurvives (uuid : List Char) : Prop :=
  ∃ node, parseUrlNode codec (buildVlessShareLink state form user server) .vless = .ok node ∧
    node.uuid = uuid ∧ node.port = form.port ∧ node.sni = expectedSni form bare ∧
    node.insecure = form.insecure ∧ node.name = vlessName user ∧ Emits node bare

end Survival

section

variable {codec : Codec} {state : WebState} {form : ShareForm} {user : ShareUser}
  {server bare uuid host : List Char}

/-- A Hysteria2 link survives if its host is read as the server, and has a name. -/
theorem hy2Survives_iff (hpassword : user.password ≠ []) (hhost : host ≠ [])
    (hparse : codec.url.parse (buildHy2ShareLink form user server) = some (hy2Url form user host)) :
    Hy2Survives codec form user server bare ↔ host = bare ∧ user.name ≠ [] := by
  obtain ⟨hpass, hport, hsni, hinsecure, hobfs, hobfsPassword, hname⟩ :=
    urlNode_hy2Url form user (buildHy2ShareLink form user server) host
  constructor
  · rintro ⟨node, hnode, -, -, -, -, -, -, hname', hemits⟩
    obtain ⟨url, server', hurl, hserver, rfl, -⟩ := parseUrlNode_ok_iff.mp hnode
    cases Option.some.inj (hparse.symm.trans hurl)
    cases Option.some.inj hserver
    refine ⟨emits_iff.mp hemits, fun hnil => hhost ?_⟩
    rw [hname', if_pos hnil] at hname
    exact hname.symm.trans hnil
  · rintro ⟨rfl, hne⟩
    refine ⟨_, parseUrlNode_ok_iff.mpr ⟨_, _, hparse, rfl, rfl, ?_⟩, hpass, hport, hsni, hobfs,
      hobfsPassword, hinsecure, hname.trans (if_neg hne), emits_iff.mpr rfl⟩
    rintro (⟨hkind | hkind, -⟩ | ⟨-, hnil⟩ | ⟨hkind, -⟩)
    · cases hkind
    · cases hkind
    · exact hpassword (hpass.symm.trans hnil)
    · cases hkind

/-- A VLESS link survives if its host is read as the server. -/
theorem vlessSurvives_iff (hne : uuid ≠ [])
    (hchars : ∀ c ∈ uuid, c.isAlphanum = true ∨ c = '-')
    (hparse : codec.url.parse (buildVlessShareLink state form user server) =
      some (vlessUrl form user uuid host)) :
    VlessSurvives codec state form user server bare uuid ↔ host = bare := by
  obtain ⟨huuid, hport, hsni, hinsecure, hname⟩ :=
    urlNode_vlessUrl form user hchars (buildVlessShareLink state form user server) host
  constructor
  · rintro ⟨node, hnode, -, -, -, -, -, hemits⟩
    obtain ⟨url, server', hurl, hserver, rfl, -⟩ := parseUrlNode_ok_iff.mp hnode
    cases Option.some.inj (hparse.symm.trans hurl)
    cases Option.some.inj hserver
    exact emits_iff.mp hemits
  · rintro rfl
    refine ⟨_, parseUrlNode_ok_iff.mpr ⟨_, _, hparse, rfl, rfl, ?_⟩, huuid, hport, hsni, hinsecure,
      hname, emits_iff.mpr rfl⟩
    rintro (⟨-, hnil⟩ | ⟨hkind, -⟩ | ⟨hkind, -⟩)
    · exact hne (huuid.symm.trans hnil)
    · cases hkind
    · cases hkind

theorem hy2Survives_iff_isName (hlawful : Lawful codec.url)
    (hserver : ServerText codec.url (jsTrim server) bare) (hport : 0 < form.port)
    (hport' : form.port < 2 ^ 16) (hpassword : user.password ≠ []) :
    Hy2Survives codec form user server bare ↔ IsName bare ∧ user.name ≠ [] := by
  have hscheme : "hysteria2".toList ∉ special := by decide
  obtain ⟨host, hhost, hparse, hbare⟩ := parse_shareHost hlawful hserver (hy2Url form user)
    (fun _ => rfl) (fun host => hy2Url_plain user host hport') hscheme
  rw [← buildHy2ShareLink_eq (server_ne_nil hlawful hserver) hport.ne' hpassword] at hparse
  rw [hy2Survives_iff hpassword hhost hparse, hbare]

theorem vlessSurvives_iff_isName (hlawful : Lawful codec.url)
    (hserver : ServerText codec.url (jsTrim server) bare) (hport : 0 < form.port)
    (hport' : form.port < 2 ^ 16) (huuid : state.vlessUserIds.lookup user.name = some uuid)
    (hne : uuid ≠ []) (hchars : ∀ c ∈ uuid, c.isAlphanum = true ∨ c = '-')
    (hsaved : (state.users.find? (·.name = user.name)).map (·.password) = some user.password) :
    VlessSurvives codec state form user server bare uuid ↔ IsName bare := by
  have hscheme : "vless".toList ∉ special := by decide
  obtain ⟨host, -, hparse, hbare⟩ := parse_shareHost hlawful hserver (vlessUrl form user uuid)
    (fun _ => rfl) (fun host => vlessUrl_plain user host hport' hchars) hscheme
  rw [← buildVlessShareLink_eq huuid (server_ne_nil hlawful hserver) hport.ne' hne hsaved] at hparse
  rw [vlessSurvives_iff hne hchars hparse, hbare]

/-- **Which links survive**: those whose server is no IPv6 address; a Hysteria2 link also needs a
name. -/
theorem share_links_survive_iff (hlawful : Lawful codec.url)
    (hserver : ServerText codec.url (jsTrim server) bare) (hport : 0 < form.port)
    (hport' : form.port < 2 ^ 16) (hpassword : user.password ≠ [])
    (huuid : state.vlessUserIds.lookup user.name = some uuid) (hne : uuid ≠ [])
    (hchars : ∀ c ∈ uuid, c.isAlphanum = true ∨ c = '-')
    (hsaved : (state.users.find? (·.name = user.name)).map (·.password) = some user.password) :
    (Hy2Survives codec form user server bare ↔ IsName bare ∧ user.name ≠ []) ∧
      (VlessSurvives codec state form user server bare uuid ↔ IsName bare) :=
  ⟨hy2Survives_iff_isName hlawful hserver hport hport' hpassword,
    vlessSurvives_iff_isName hlawful hserver hport hport' huuid hne hchars hsaved⟩

end

/-! ### A user's links -/

/-- A user. -/
def alice : ShareUser where
  name := "alice".toList
  password := "p:w d".toList

/-- A form, with obfuscation. -/
def aliceForm : ShareForm where
  port := 443
  sni := []
  insecure := false
  obfsEnabled := true
  obfsPassword := "&=#".toList

/-- The page of that user. -/
def aliceState : WebState where
  vlessUserIds := [("alice".toList, "0-1".toList)]
  users := [alice]

theorem aliceState_lookup :
    aliceState.vlessUserIds.lookup alice.name = some "0-1".toList := by decide

theorem aliceUuid_chars : ∀ c ∈ "0-1".toList, c.isAlphanum = true ∨ c = '-' := by simp

/-- A host name. -/
theorem share_links_of_name :
    Hy2Survives urlCodec aliceForm alice "vpn.example".toList "vpn.example".toList ∧
      VlessSurvives urlCodec aliceState aliceForm alice "vpn.example".toList "vpn.example".toList
        "0-1".toList := by
  have hname : IsName "vpn.example".toList := by decide
  have hserver : ServerText urlCodec.url (jsTrim "vpn.example".toList) "vpn.example".toList :=
    .name hname
  have hport : 0 < aliceForm.port ∧ aliceForm.port < 2 ^ 16 := by decide
  obtain ⟨hhy2, hvless⟩ := share_links_survive_iff simple_lawful hserver hport.1 hport.2 (by decide)
    aliceState_lookup (by decide) aliceUuid_chars rfl
  exact ⟨hhy2.mpr ⟨hname, by decide⟩, hvless.mpr hname⟩

/-- **An IPv6 address** is not read as the server it names. -/
theorem share_links_of_ipv6 :
    ¬ Hy2Survives urlCodec aliceForm alice "2001:db8::1".toList "2001:db8::1".toList ∧
      ¬ VlessSurvives urlCodec aliceState aliceForm alice "2001:db8::1".toList
        "2001:db8::1".toList "0-1".toList := by
  have hname : ¬ IsName "2001:db8::1".toList := by decide
  have haddress : simple.ipv6 "2001:db8::1".toList = some "2001:db8::1".toList := by decide
  have hserver : ServerText urlCodec.url (jsTrim "2001:db8::1".toList) "2001:db8::1".toList :=
    .ipv6 haddress
  have hport : 0 < aliceForm.port ∧ aliceForm.port < 2 ^ 16 := by decide
  rw [hy2Survives_iff_isName simple_lawful hserver hport.1 hport.2 (by decide),
    vlessSurvives_iff_isName simple_lawful hserver hport.1 hport.2 aliceState_lookup (by decide)
      aliceUuid_chars rfl]
  exact ⟨fun h => hname h.1, hname⟩

end SingBoxMini.Sublink
