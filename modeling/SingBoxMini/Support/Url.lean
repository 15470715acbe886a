import SingBoxMini.Support.Text

/-!
# Support — Url

The parts of a URL, as a parser returns them: percent-encoded where they have to be, and without
their delimiters.  An IPv6 host is between brackets.

A parser is a parameter of what is proved with it.  `Lawful` is what is assumed of one, for URLs
with an authority and a scheme of no special syntax:

* a URL put together from parts that need no encoding is read as these parts;
* what it returns has no delimiter in a part, is written as a text (`toString`) that it reads as the
  same parts, and so it is with another host and port.

`simple_lawful`: there is such a parser.
-/

/-- A URL, cut at its delimiters. -/
structure Url where
  scheme : List Char
  username : List Char
  password : Option (List Char)
  host : Option (List Char)
  port : Option Nat
  path : List Char
  query : Option (List Char)
  fragment : Option (List Char)
deriving DecidableEq, Repr

namespace Url
open Text

/-! ### Texts -/

/-- The user name and the password, with the sign behind them. -/
def userInfo (u : Url) : List Char :=
  if u.username = [] ∧ u.password = none then []
  else u.username ++ u.password.elim [] (':' :: ·) ++ ['@']

/-- The port, with the sign before it. -/
def portText (port : Option Nat) : List Char := port.elim [] fun port => ':' :: Nat.toDigits 10 port

/-- The host and the port. -/
def hostPort (u : Url) : List Char := u.host.getD [] ++ portText u.port

/-- The text of a URL. -/
def toString (u : Url) : List Char :=
  u.scheme ++ "://".toList ++ (u.userInfo ++ u.hostPort ++ u.path ++
    u.query.elim [] ('?' :: ·) ++ u.fragment.elim [] ('#' :: ·))

/-- The URL of a server alone, with the path of another. -/
def server (u : Url) (host : List Char) (port : Nat) : Url :=
  ⟨"tcp".toList, [], none, some host, some port, u.path, none, none⟩

/-- An address between brackets. -/
def brackets (address : List Char) : List Char := '[' :: (address ++ [']'])

/-! ### Characters -/

/-- ASCII without blanks and control characters. -/
def printable (c : Char) : Bool := '!' ≤ c && c ≤ '~'

/-- The characters of schemes. -/
def schemeChar (c : Char) : Bool := c.isLower || c.isDigit

/-- A letter, and then letters and digits. -/
def cleanScheme (scheme : List Char) : Bool :=
  scheme.head?.any Char.isLower && scheme.all schemeChar

/-- The characters of user names and passwords. -/
def userInfoChar (c : Char) : Bool := printable c && c ∉ ['/', '?', '#', '@', ':']

/-- The characters of hosts without brackets. -/
def hostChar (c : Char) : Bool := printable c && c ∉ ['/', '?', '#', '@', ':', '[', ']']

/-- The characters of IPv6 addresses. -/
def ipv6Char (c : Char) : Bool := (hexValue c).isSome || c = ':' || c = '.'

/-- The characters of paths. -/
def pathChar (c : Char) : Bool := printable c && c ∉ ['?', '#']

/-- The characters of queries. -/
def queryChar (c : Char) : Bool := printable c && c ≠ '#'

/-- A host without brackets, or an address between brackets. -/
def cleanHost (host : List Char) : Bool :=
  (host ≠ [] && host.all hostChar) ||
    (host = brackets host.tail.dropLast && host.tail.dropLast.all ipv6Char)

/-- **No part of the URL has a delimiter in it** that would end it. -/
structure Clean (u : Url) : Prop where
  scheme : cleanScheme u.scheme = true
  username : u.username.all userInfoChar = true
  password : u.password.all (fun password => password ≠ [] && password.all userInfoChar) = true
  host : u.host.all cleanHost = true
  port : u.port.all (· < 2 ^ 16) = true
  path : u.path.all pathChar = true
  absolute : u.path = [] ∨ u.path.head? = some '/'
  query : u.query.all (·.all queryChar) = true
  fragment : u.fragment.all (·.all printable) = true

instance (u : Url) : Decidable u.Clean :=
  decidable_of_iff (cleanScheme u.scheme = true ∧ u.username.all userInfoChar = true ∧
      u.password.all (fun password => password ≠ [] && password.all userInfoChar) = true ∧
      u.host.all cleanHost = true ∧ u.port.all (· < 2 ^ 16) = true ∧ u.path.all pathChar = true ∧
      (u.path = [] ∨ u.path.head? = some '/') ∧ u.query.all (·.all queryChar) = true ∧
      u.fragment.all (·.all printable) = true)
    ⟨fun ⟨h₁, h₂, h₃, h₄, h₅, h₆, h₇, h₈, h₉⟩ => ⟨h₁, h₂, h₃, h₄, h₅, h₆, h₇, h₈, h₉⟩,
      fun h => ⟨h.1, h.2, h.3, h.4, h.5, h.6, h.7, h.8, h.9⟩⟩

/-- A host name: letters, digits, hyphens, dots and underscores. -/
def IsName (host : List Char) : Prop :=
  host ≠ [] ∧ ∀ c ∈ host, c.isAlphanum = true ∨ c ∈ ['-', '.', '_']

instance (host : List Char) : Decidable (IsName host) :=
  decidable_of_iff (host ≠ [] ∧ host.all (fun c => c.isAlphanum || c ∈ ['-', '.', '_']) = true)
    (by simp [IsName])

/-- **Parts that need no encoding**: letters, digits, percent signs and the marks that are never
encoded where they are. -/
structure Plain (u : Url) : Prop where
  scheme : cleanScheme u.scheme = true
  username : ∀ c ∈ u.username, c.isAlphanum = true ∨ c ∈ ['%', '-', '.', '_', '~']
  password : u.password = none
  port : ∃ port < 2 ^ 16, u.port = some port
  path : u.path = [] ∨ u.path = ['/']
  query : ∀ c ∈ u.query.getD [], c.isAlphanum = true ∨ c ∈ ['%', '-', '.', '_', '*', '+', '&', '=']
  fragment : ∀ c ∈ u.fragment.getD [],
    c.isAlphanum = true ∨ c ∈ ['%', '-', '.', '_', '~', '!', '*', '\'', '(', ')']

/-! ### Parsers -/

/-- What is used of a library for URLs: its parser, what it makes of the text of an IPv6 address,
and the host it sets for a text.  A port can only be set with a host that is not empty. -/
structure Library where
  parse : List Char → Option Url
  ipv6 : List Char → Option (List Char)
  setHost : List Char → Option (List Char)

/-- The schemes of special syntax. -/
def special : List (List Char) :=
  ["http".toList, "https".toList, "ws".toList, "wss".toList, "ftp".toList, "file".toList]

/-- The scheme of a text, in lower case. -/
def HasScheme (s : List Char) (scheme : List Char) : Prop :=
  scheme ∉ special ∧ ∃ before after, splitOnce "://".toList s = some (before, after) ∧
    toAsciiLowercase before = scheme ∧ ∀ c ∈ before, c.isAlphanum = true

/-- **What is assumed of a library.** -/
structure Lawful (library : Library) : Prop where
  /-- A URL with a host name is read as its parts. -/
  parse_name {u : Url} {host : List Char} (hplain : u.Plain) (hscheme : u.scheme ∉ special)
    (hhost : u.host = some host) (hname : IsName host) : library.parse u.toString = some u
  /-- An IPv6 host is between brackets. -/
  parse_ipv6 {u : Url} {address address' : List Char} (hplain : u.Plain)
    (hscheme : u.scheme ∉ special) (hhost : u.host = some (brackets address))
    (haddress : library.ipv6 address = some address') :
    library.parse u.toString = some { u with host := some (brackets address') }
  ipv6_chars {address address' : List Char} (h : library.ipv6 address = some address') :
    ':' ∈ address ∧ ∀ c ∈ address, ipv6Char c = true
  /-- A host that can be set is none that would be read differently. -/
  setHost_clean {server host : List Char} (h : library.setHost server = some host)
    (hne : host ≠ []) : cleanHost host = true
  parse_clean {s scheme : List Char} {u : Url} (h : library.parse s = some u)
    (hscheme : HasScheme s scheme) : u.Clean ∧ u.scheme = scheme
  /-- What was read is read again. -/
  parse_toString {s scheme : List Char} {u : Url} (h : library.parse s = some u)
    (hscheme : HasScheme s scheme) : library.parse u.toString = some u
  /-- So it is with another host and port, -/
  parse_set {s scheme : List Char} {u : Url} (h : library.parse s = some u)
    (hscheme : HasScheme s scheme) {server host : List Char}
    (hhost : library.setHost server = some host) (hne : host ≠ []) {port : Nat}
    (hport : port < 2 ^ 16) :
      library.parse { u with host := some host, port := some port }.toString =
      some { u with host := some host, port := some port }
  /-- and without the user and what is behind the path. -/
  parse_server {s scheme : List Char} {u : Url} (h : library.parse s = some u)
    (hscheme : HasScheme s scheme) {server host : List Char}
    (hhost : library.setHost server = some host) (hne : host ≠ []) {port : Nat}
    (hport : port < 2 ^ 16) :
    library.parse (u.server host port).toString = some (u.server host port)

/-! ### A parser -/

/-- A text up to a character, and what is behind it if it is there. -/
def cut (c : Char) (s : List Char) : List Char × Option (List Char) :=
  (s.takeWhile (· ≠ c), (s.dropWhile (· ≠ c)).tail?)

variable {c : Char} {s host : List Char}

theorem cut_append (hs : c ∉ s) (t : Option (List Char)) :
    cut c (s ++ t.elim [] (c :: ·)) = (s, t) := by
  have hpos : ∀ d ∈ s, decide (d ≠ c) = true := by
    intro d hd
    rw [decide_eq_true_eq]
    rintro rfl
    exact hs hd
  rw [cut, List.takeWhile_append_of_pos hpos, List.dropWhile_append_of_pos hpos]
  cases t with
  | none => simp
  | some t => simp

/-- The host before a port: up to a bracket, or up to a colon. -/
def splitHost (s : List Char) : List Char × List Char :=
  if s.head? = some '[' then (s.takeWhile (· ≠ ']') ++ [']'], (s.dropWhile (· ≠ ']')).tail)
  else (s.takeWhile (· ≠ ':'), s.dropWhile (· ≠ ':'))

/-- The parts between the delimiters, as they are. -/
def split (s : List Char) : Option Url := do
  let (scheme, rest) ← splitOnce "://".toList s
  let (rest, fragment) := cut '#' rest
  let (rest, query) := cut '?' rest
  let (authority, path) := (rest.takeWhile (· ≠ '/'), rest.dropWhile (· ≠ '/'))
  let (info, server) :=
    match cut '@' authority with
    | (info, some server) => (info, server)
    | (server, none) => ([], server)
  let (username, password) := cut ':' info
  let (host, port) := splitHost server
  return ⟨toAsciiLowercase scheme, username, password, some host,
    if port.tail = [] then none else some (Nat.ofDigitChars 10 port.tail 0), path, query, fragment⟩

/-- A parser that accepts what has no delimiter in a part, and changes nothing. -/
def simple : Library where
  parse s := (split s).filter fun u => u.Clean
  ipv6 address := if ':' ∈ address ∧ address.all ipv6Char then some address else none
  setHost server := if cleanHost server then some server else none

/-! ### What the parser reads -/

variable {u : Url}

theorem cleanHost_cases (h : cleanHost host = true) :
    (host ≠ [] ∧ ∀ c ∈ host, hostChar c = true) ∨
      ∃ address, host = brackets address ∧ ∀ c ∈ address, ipv6Char c = true := by
  simp only [cleanHost, Bool.or_eq_true, Bool.and_eq_true, decide_eq_true_eq, ne_eq,
    List.all_eq_true] at h
  rcases h with h | ⟨hbrackets, hchars⟩
  · exact .inl h
  · exact .inr ⟨_, hbrackets, hchars⟩

theorem not_mem_of_all {p : Char → Bool} (h : s.all p = true) (hc : p c = false) : c ∉ s := by
  intro hmem
  rw [List.all_eq_true.mp h c hmem] at hc
  cases hc

/-- A delimiter is not in a host. -/
theorem not_mem_host (h : cleanHost host = true) (hhost : hostChar c = false)
    (hipv6 : ipv6Char c = false) (hopen : c ≠ '[') (hclose : c ≠ ']') :
    c ∉ host := by
  rcases cleanHost_cases h with ⟨-, hchars⟩ | ⟨address, rfl, hchars⟩
  · exact not_mem_of_all (List.all_eq_true.mpr hchars) hhost
  · have haddress := not_mem_of_all (List.all_eq_true.mpr hchars) hipv6
    simp [brackets, hopen, hclose, haddress]

theorem not_mem_digits (hc : c.isDigit = false) (n : Nat) : c ∉ Nat.toDigits 10 n := by
  intro hmem
  rw [Nat.isDigit_of_mem_toDigits (by decide) (by decide) hmem] at hc
  cases hc

namespace Clean

theorem scheme_chars (h : u.Clean) : u.scheme.all schemeChar = true :=
  (Bool.and_eq_true_iff.mp h.scheme).2

theorem not_mem_userInfo (h : u.Clean) {c : Char} (hinfo : userInfoChar c = false)
    (hcolon : c ≠ ':')
    (hat : c ≠ '@') : c ∉ u.userInfo := by
  have husername := not_mem_of_all h.username hinfo
  have hpassword : c ∉ u.password.elim [] (':' :: ·) := by
    cases hp : u.password with
    | none => simp
    | some password =>
        have hclean := h.password
        rw [hp, Option.all_some, Bool.and_eq_true] at hclean
        simp [hcolon, not_mem_of_all hclean.2 hinfo]
  rw [userInfo]
  split_ifs
  · simp
  · simp [husername, hpassword, hat]

theorem not_mem_hostPort (h : u.Clean) {c : Char} (hhost : hostChar c = false)
    (hipv6 : ipv6Char c = false) (hopen : c ≠ '[') (hclose : c ≠ ']') (hcolon : c ≠ ':')
    (hdigit : c.isDigit = false) : c ∉ u.hostPort := by
  have hnot : c ∉ u.host.getD [] := by
    cases hh : u.host with
    | none => simp
    | some host =>
        have hclean := h.host
        rw [hh, Option.all_some] at hclean
        exact not_mem_host hclean hhost hipv6 hopen hclose
  have hport : c ∉ portText u.port := by
    cases u.port with
    | none => simp [portText]
    | some port => simp [portText, hcolon, not_mem_digits hdigit port]
  simp [hostPort, hnot, hport]

theorem not_mem_query (h : u.Clean) {c : Char} (hquery : queryChar c = false) (hc : c ≠ '?') :
    c ∉ u.query.elim [] ('?' :: ·) := by
  cases hq : u.query with
  | none => simp
  | some query =>
      have hclean := h.query
      rw [hq, Option.all_some] at hclean
      simp [hc, not_mem_of_all hclean hquery]

end Clean

theorem toLower_of_schemeChar (h : schemeChar c = true) : c.toLower = c := by
  refine toLower_of_not_isUpper fun hupper => ?_
  have hbounds := isUpper_iff.mp hupper
  rw [schemeChar, Bool.or_eq_true, isLower_iff, isDigit_iff] at h
  omega

theorem isAlphanum_of_schemeChar (h : schemeChar c = true) : c.isAlphanum = true := by
  rw [schemeChar, Bool.or_eq_true] at h
  exact isAlphanum_iff.mpr (.inr h)

theorem takeWhile_append_of_not_mem {t : List Char} (hs : c ∉ s) (ht : t = [] ∨ t.head? = some c) :
    (s ++ t).takeWhile (· ≠ c) = s ∧ (s ++ t).dropWhile (· ≠ c) = t := by
  have hpos : ∀ d ∈ s, decide (d ≠ c) = true := by
    intro d hd
    rw [decide_eq_true_eq]
    rintro rfl
    exact hs hd
  rw [List.takeWhile_append_of_pos hpos, List.dropWhile_append_of_pos hpos]
  rcases ht with rfl | ht
  · simp
  · obtain ⟨t, rfl⟩ := List.head?_eq_some_iff.mp ht
    simp

theorem splitHost_hostPort (h : u.Clean) (hhost : u.host = some host) :
    splitHost u.hostPort = (host, portText u.port) := by
  have hclean := h.host
  rw [hhost, Option.all_some] at hclean
  rw [hostPort, hhost, Option.getD_some, splitHost]
  rcases cleanHost_cases hclean with ⟨hne, hchars⟩ | ⟨address, rfl, hchars⟩
  · have hhead : ¬ (host ++ portText u.port).head? = some '[' := by
      obtain ⟨c, t, rfl⟩ := List.exists_cons_of_ne_nil hne
      rw [List.cons_append, List.head?_cons, Option.some.injEq]
      rintro rfl
      exact absurd (hchars _ List.mem_cons_self) (by decide)
    have hcolon : ':' ∉ host := not_mem_of_all (List.all_eq_true.mpr hchars) (by decide)
    have hport : portText u.port = [] ∨ (portText u.port).head? = some ':' := by
      cases u.port <;> simp [portText]
    obtain ⟨htake, hdrop⟩ := takeWhile_append_of_not_mem hcolon hport
    rw [if_neg hhead, htake, hdrop]
  · have hclose : ']' ∉ '[' :: address := by
      simp [not_mem_of_all (List.all_eq_true.mpr hchars) (show ipv6Char ']' = false by decide)]
    have hsplit : brackets address ++ portText u.port =
        ('[' :: address) ++ ']' :: portText u.port := by simp [brackets]
    obtain ⟨htake, hdrop⟩ :=
      takeWhile_append_of_not_mem hclose (t := ']' :: portText u.port) (.inr rfl)
    rw [hsplit, if_pos (by simp), htake, hdrop]
    rfl

/-- The port behind a colon, if it has digits. -/
theorem port_of_digits (port : Option Nat) :
    (if (portText port).tail = [] then none
      else some (Nat.ofDigitChars 10 (portText port).tail 0)) = port := by
  cases port with
  | none => rfl
  | some port => simp [portText, Nat.ofDigitChars_ten_toDigits]

/-- The user before the host. -/
theorem cut_authority (h : u.Clean) :
    cut '@' (u.userInfo ++ u.hostPort) =
      if u.username = [] ∧ u.password = none then (u.hostPort, none)
      else (u.username ++ u.password.elim [] (':' :: ·), some u.hostPort) := by
  rw [userInfo]
  split_ifs with hnone
  · have hat : '@' ∉ u.hostPort :=
      h.not_mem_hostPort (by decide) (by decide) (by decide) (by decide) (by decide) (by decide)
    simpa using cut_append hat none
  · have hat : '@' ∉ u.username ++ u.password.elim [] (':' :: ·) := by
      have husername := not_mem_of_all h.username (show userInfoChar '@' = false by decide)
      cases hp : u.password with
      | none => simpa using husername
      | some password =>
          have hclean := h.password
          rw [hp, Option.all_some, Bool.and_eq_true] at hclean
          simp [husername, not_mem_of_all hclean.2 (show userInfoChar '@' = false by decide)]
    simpa using cut_append hat (some u.hostPort)

namespace Clean

theorem not_mem_authority (h : u.Clean) {c : Char} (hc : c ∈ ['/', '?', '#']) :
    c ∉ u.userInfo ++ u.hostPort := by
  simp only [List.mem_cons, List.not_mem_nil, or_false] at hc
  rw [List.mem_append, not_or]
  rcases hc with rfl | rfl | rfl
  all_goals
    exact ⟨h.not_mem_userInfo (by decide) (by decide) (by decide),
      h.not_mem_hostPort (by decide) (by decide) (by decide) (by decide) (by decide) (by decide)⟩

/-- The query begins at the first question mark, -/
theorem question_not_mem (h : u.Clean) : '?' ∉ u.userInfo ++ u.hostPort ++ u.path := by
  rw [List.mem_append, not_or]
  exact ⟨h.not_mem_authority (by decide), not_mem_of_all h.path (by decide)⟩

/-- and the fragment at the first hash. -/
theorem hash_not_mem (h : u.Clean) :
    '#' ∉ u.userInfo ++ u.hostPort ++ u.path ++ u.query.elim [] ('?' :: ·) := by
  rw [List.mem_append, List.mem_append, not_or, not_or]
  exact ⟨⟨h.not_mem_authority (by decide), not_mem_of_all h.path (by decide)⟩,
    h.not_mem_query (by decide) (by decide)⟩

theorem toAsciiLowercase_scheme (h : u.Clean) : toAsciiLowercase u.scheme = u.scheme :=
  (List.map_congr_left fun c hc =>
    toLower_of_schemeChar (List.all_eq_true.mp h.scheme_chars c hc)).trans (List.map_id _)

theorem splitOnce_toString (h : u.Clean) :
    splitOnce "://".toList u.toString = some (u.scheme, u.userInfo ++ u.hostPort ++ u.path ++
      u.query.elim [] ('?' :: ·) ++ u.fragment.elim [] ('#' :: ·)) :=
  splitOnce_append (not_mem_of_all h.scheme_chars (by decide)) ['/', '/'] _

end Clean

/-- **What has no delimiter in a part is read as its parts.** -/
theorem split_toString (h : u.Clean) (hhost : u.host ≠ none) : split u.toString = some u := by
  obtain ⟨host, hhost⟩ := Option.ne_none_iff_exists'.mp hhost
  have hquestion := h.question_not_mem
  have hhash := h.hash_not_mem
  have hlower := h.toAsciiLowercase_scheme
  have hcolon : ':' ∉ u.username := not_mem_of_all h.username (by decide)
  obtain ⟨htake, hdrop⟩ :=
    takeWhile_append_of_not_mem (h.not_mem_authority (by decide)) h.absolute
  rw [split, h.splitOnce_toString]
  by_cases hnone : u.username = [] ∧ u.password = none
  · simp only [Option.bind_eq_bind, Option.bind_some, cut_append hhash, cut_append hquestion, htake,
      hdrop, cut_authority h, hlower, if_pos hnone, splitHost_hostPort h hhost, port_of_digits]
    obtain ⟨scheme, username, password, host', port, path, query, fragment⟩ := u
    obtain ⟨rfl, rfl⟩ := hnone
    cases hhost
    rfl
  · simp only [Option.bind_eq_bind, Option.bind_some, cut_append hhash, cut_append hquestion, htake,
      hdrop, cut_authority h, hlower, if_neg hnone, splitHost_hostPort h hhost, port_of_digits,
      cut_append hcolon]
    obtain ⟨scheme, username, password, host', port, path, query, fragment⟩ := u
    cases hhost
    rfl

/-! ### The parser is lawful -/

theorem simple_parse_eq_some (h : simple.parse s = some u) :
    u.Clean ∧ u.host ≠ none ∧ ∃ before after, splitOnce "://".toList s = some (before, after) ∧
      u.scheme = toAsciiLowercase before := by
  obtain ⟨hsplit, hclean⟩ := Option.filter_eq_some_iff.mp h
  rw [split, Option.bind_eq_bind, Option.bind_eq_some_iff] at hsplit
  obtain ⟨⟨before, after⟩, hbefore, hu⟩ := hsplit
  cases Option.some.inj hu
  exact ⟨of_decide_eq_true hclean, by simp, before, after, hbefore, rfl⟩

theorem simple_parse_toString (h : u.Clean) (hhost : u.host ≠ none) :
    simple.parse u.toString = some u := by
  show (split u.toString).filter (fun u => decide u.Clean) = some u
  rw [split_toString h hhost, Option.filter_some, if_pos (decide_eq_true h)]

theorem printable_of_isAlphanum (h : c.isAlphanum = true) : printable c = true := by
  have hbounds : 33 ≤ c.val.toNat ∧ c.val.toNat ≤ 126 := by
    rw [isAlphanum_iff, isUpper_iff, isLower_iff, isDigit_iff] at h
    omega
  simp only [printable, Bool.and_eq_true, decide_eq_true_eq, Char.le_def, UInt32.le_iff_toNat_le]
  exact hbounds

/-- A character of a part that may be absent, or the sign before it. -/
theorem mem_elim_cons {part : Option (List Char)} {sign : Char} (h : c ∈ part.elim [] (sign :: ·)) :
    c = sign ∨ ∃ s, part = some s ∧ c ∈ s := by
  cases part with
  | none => cases h
  | some s =>
      rcases List.mem_cons.mp h with rfl | h
      · exact .inl rfl
      · exact .inr ⟨s, rfl, h⟩

theorem printable_of_le {a b : Char} (ha : '!' ≤ a) (hb : b ≤ '~') (h : a ≤ c ∧ c ≤ b) :
    printable c = true := by
  simp [printable, Char.le_trans ha h.1, Char.le_trans h.2 hb]

theorem printable_of_ipv6Char (h : ipv6Char c = true) : printable c = true := by
  simp only [ipv6Char, Bool.or_eq_true, decide_eq_true_eq] at h
  rcases h with (h | rfl) | rfl
  · rw [hexValue] at h
    split_ifs at h with hdigit hlower hupper
    · exact printable_of_isAlphanum (isAlphanum_iff.mpr (.inr (.inr hdigit)))
    · exact printable_of_le (by decide) (by decide) hlower
    · exact printable_of_le (by decide) (by decide) hupper
    · cases h
  · decide
  · decide

namespace Clean

theorem printable_userInfo (h : u.Clean) : ∀ c ∈ u.userInfo, printable c = true := by
  have hchars : ∀ {s : List Char}, s.all userInfoChar = true → ∀ c ∈ s, printable c = true := by
    intro s hs c hc
    have hchar := List.all_eq_true.mp hs c hc
    rw [userInfoChar, Bool.and_eq_true] at hchar
    exact hchar.1
  intro c hc
  rw [userInfo] at hc
  split_ifs at hc
  · cases hc
  · simp only [List.mem_append, List.mem_singleton] at hc
    rcases hc with (hc | hc) | rfl
    · exact hchars h.username c hc
    · rcases mem_elim_cons hc with rfl | ⟨password, hp, hc⟩
      · decide
      · have hclean := h.password
        rw [hp, Option.all_some, Bool.and_eq_true] at hclean
        exact hchars hclean.2 c hc
    · decide

theorem printable_hostPort (h : u.Clean) : ∀ c ∈ u.hostPort, printable c = true := by
  intro c hc
  rw [hostPort, List.mem_append] at hc
  rcases hc with hc | hc
  · have hclean := h.host
    cases hh : u.host with
    | none =>
        rw [hh] at hc
        cases hc
    | some host =>
        rw [hh, Option.getD_some] at hc
        rw [hh, Option.all_some] at hclean
        rcases cleanHost_cases hclean with ⟨-, hchars⟩ | ⟨address, rfl, hchars⟩
        · have hchar := hchars c hc
          rw [hostChar, Bool.and_eq_true] at hchar
          exact hchar.1
        · simp only [brackets, List.mem_cons, List.mem_append, List.not_mem_nil, or_false] at hc
          rcases hc with rfl | hc | rfl
          · decide
          · exact printable_of_ipv6Char (hchars c hc)
          · decide
  · cases hp : u.port with
    | none =>
        rw [hp] at hc
        cases hc
    | some port =>
        rw [hp] at hc
        rcases List.mem_cons.mp hc with rfl | hc
        · decide
        · have hdigit := Nat.isDigit_of_mem_toDigits (by decide) (by decide) hc
          exact printable_of_isAlphanum (isAlphanum_iff.mpr (.inr (.inr hdigit)))

theorem printable_rest (h : u.Clean) : ∀ c ∈ u.path ++ u.query.elim [] ('?' :: ·) ++
    u.fragment.elim [] ('#' :: ·), printable c = true := by
  intro c hc
  simp only [List.mem_append] at hc
  rcases hc with (hc | hc) | hc
  · have hchar := List.all_eq_true.mp h.path c hc
    rw [pathChar, Bool.and_eq_true] at hchar
    exact hchar.1
  · rcases mem_elim_cons hc with rfl | ⟨query, hq, hc⟩
    · decide
    · have hclean := h.query
      rw [hq, Option.all_some] at hclean
      have hchar := List.all_eq_true.mp hclean c hc
      rw [queryChar, Bool.and_eq_true] at hchar
      exact hchar.1
  · rcases mem_elim_cons hc with rfl | ⟨fragment, hf, hc⟩
    · decide
    · have hclean := h.fragment
      rw [hf, Option.all_some] at hclean
      exact List.all_eq_true.mp hclean c hc

/-- **The text of a URL is printable.** -/
theorem printable_toString (h : u.Clean) : ∀ c ∈ u.toString, printable c = true := by
  have hscheme : ∀ c ∈ u.scheme, printable c = true := by
    intro c hc
    exact printable_of_isAlphanum
      (isAlphanum_of_schemeChar (List.all_eq_true.mp h.scheme_chars c hc))
  have hmark : ∀ c ∈ "://".toList, printable c = true := List.all_eq_true.mp (by decide)
  intro c hc
  rw [toString, List.append_assoc u.userInfo, List.append_assoc u.userInfo,
    List.append_assoc u.userInfo, List.append_assoc u.hostPort, List.append_assoc u.hostPort] at hc
  rcases List.mem_append.mp hc with hc | hc
  · rcases List.mem_append.mp hc with hc | hc
    · exact hscheme c hc
    · exact hmark c hc
  · rcases List.mem_append.mp hc with hc | hc
    · exact h.printable_userInfo c hc
    · rcases List.mem_append.mp hc with hc | hc
      · exact h.printable_hostPort c hc
      · exact h.printable_rest c hc

end Clean

theorem ascii_of_printable (h : printable c = true) : c.val ≤ 127 := by
  simp only [printable, Bool.and_eq_true, decide_eq_true_eq, Char.le_def] at h
  exact UInt32.le_trans h.2 (by decide)

/-- The size of a URL, with its host and port apart. -/
theorem length_toString (u : Url) :
    u.toString.length = { u with host := none, port := none }.toString.length +
      u.hostPort.length := by
  simp only [toString, hostPort, userInfo, portText, List.length_append, Option.getD_none,
    Option.elim_none, List.length_nil]
  omega

/-- A letter or digit is no delimiter, and neither is a mark that is listed. -/
theorem all_of_isAlphanum {p : Char → Bool} (delimiters : List Char) {marks : List Char}
    (hp : ∀ c, p c = (printable c && decide (c ∉ delimiters)))
    (hdelimiters : delimiters.all (!·.isAlphanum) = true) (hmarks : marks.all p = true)
    (hs : ∀ c ∈ s, c.isAlphanum = true ∨ c ∈ marks) : s.all p = true := by
  rw [List.all_eq_true]
  intro c hc
  rcases hs c hc with halnum | hmark
  · rw [hp, printable_of_isAlphanum halnum, Bool.true_and, decide_eq_true_eq]
    intro hmem
    have hdelimiter := List.all_eq_true.mp hdelimiters c hmem
    rw [halnum] at hdelimiter
    cases hdelimiter
  · exact List.all_eq_true.mp hmarks c hmark

theorem Plain.clean (h : u.Plain) (hhost : u.host = some host) (hclean : cleanHost host = true) :
    u.Clean where
  scheme := h.scheme
  username := all_of_isAlphanum _ (fun _ => rfl) (by decide) (by decide) h.username
  password := by
    rw [h.password]
    rfl
  host := by
    rw [hhost]
    exact hclean
  port := by
    obtain ⟨port, hlt, hport⟩ := h.port
    rw [hport]
    exact decide_eq_true hlt
  path := by
    rcases h.path with hpath | hpath <;> rw [hpath] <;> decide
  absolute := by
    rcases h.path with hpath | hpath
    · exact .inl hpath
    · exact .inr (by rw [hpath]; rfl)
  query := by
    have hchars := h.query
    cases hquery : u.query with
    | none => rfl
    | some query =>
        rw [hquery] at hchars
        exact all_of_isAlphanum ['#'] (fun c => by simp [queryChar]) (by decide)
          (by decide) hchars
  fragment := by
    have hchars := h.fragment
    cases hfragment : u.fragment with
    | none => rfl
    | some fragment =>
        rw [hfragment] at hchars
        exact all_of_isAlphanum [] (fun c => by simp) (by decide) (by decide) hchars

theorem IsName.cleanHost (h : IsName host) : cleanHost host = true := by
  have hchars : host.all hostChar = true :=
    all_of_isAlphanum _ (fun _ => rfl) (by decide) (by decide) h.2
  rw [Url.cleanHost, hchars]
  simp [h.1]

theorem IsName.not_mem_colon (h : IsName host) : ':' ∉ host := by
  intro hmem
  exact absurd (h.2 _ hmem) (by decide)

theorem cleanHost_brackets {address : List Char} (h : ∀ c ∈ address, ipv6Char c = true) :
    cleanHost (brackets address) = true := by
  have haddress : (brackets address).tail.dropLast = address := by simp [brackets]
  rw [cleanHost, haddress, List.all_eq_true.mpr h]
  simp

/-- Another host and port. -/
theorem Clean.set (h : u.Clean) (hhost : cleanHost host = true) {port : Nat} (hport : port < 2 ^ 16)
    : { u with host := some host, port := some port }.Clean where
  scheme := h.scheme
  username := h.username
  password := h.password
  host := hhost
  port := decide_eq_true hport
  path := h.path
  absolute := h.absolute
  query := h.query
  fragment := h.fragment

/-- The server and the path alone. -/
theorem Clean.server (h : u.Clean) (hhost : cleanHost host = true) {port : Nat}
    (hport : port < 2 ^ 16) : (u.server host port).Clean where
  scheme := show cleanScheme "tcp".toList = true by decide
  username := rfl
  password := rfl
  host := hhost
  port := decide_eq_true hport
  path := h.path
  absolute := h.absolute
  query := rfl
  fragment := rfl

theorem simple_ipv6_eq_some {address address' : List Char}
    (h : simple.ipv6 address = some address') :
    address' = address ∧ ':' ∈ address ∧ ∀ c ∈ address, ipv6Char c = true := by
  have h : (if ':' ∈ address ∧ address.all ipv6Char then some address else none) =
      some address' := h
  split_ifs at h with hchars
  cases h
  exact ⟨rfl, hchars.1, List.all_eq_true.mp hchars.2⟩

theorem simple_setHost_eq_some {server : List Char} (h : simple.setHost server = some host) :
    cleanHost host = true := by
  have h : (if cleanHost server then some server else none) = some host := h
  split_ifs at h with hclean
  cases h
  exact hclean

/-- **There is a lawful parser.** -/
theorem simple_lawful : Lawful simple where
  parse_name hplain _ hhost hname :=
    simple_parse_toString (hplain.clean hhost hname.cleanHost) (by simp [hhost])
  parse_ipv6 {u address address'} hplain _ hhost haddress := by
    obtain ⟨rfl, -, hchars⟩ := simple_ipv6_eq_some haddress
    have heq : { u with host := some (brackets address') } = u := by rw [← hhost]
    rw [heq]
    exact simple_parse_toString (hplain.clean hhost (cleanHost_brackets hchars)) (by simp [hhost])
  ipv6_chars h := (simple_ipv6_eq_some h).2
  setHost_clean h _ := simple_setHost_eq_some h
  parse_clean h hscheme := by
    obtain ⟨hclean, -, before, after, hbefore, hu⟩ := simple_parse_eq_some h
    obtain ⟨-, before', after', hbefore', rfl, -⟩ := hscheme
    cases Option.some.inj (hbefore.symm.trans hbefore')
    exact ⟨hclean, hu⟩
  parse_toString h _ := by
    obtain ⟨hclean, hhost, -⟩ := simple_parse_eq_some h
    exact simple_parse_toString hclean hhost
  parse_set h _ _ _ hhost _ _ hport :=
    simple_parse_toString ((simple_parse_eq_some h).1.set (simple_setHost_eq_some hhost) hport)
      (by simp)
  parse_server h _ _ _ hhost _ _ hport :=
    simple_parse_toString ((simple_parse_eq_some h).1.server (simple_setHost_eq_some hhost) hport)
      (by simp [server])

end Url
