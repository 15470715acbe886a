import SingBoxMini.Sublink.Convert
import SingBoxMini.Sublink.ShortLinks
import SingBoxMini.Sublink.Rewrite

/-!
# Sublink — ShortConvert

The two ways to a conversion from a short link: `auto_with_format`, which reads the parameters of
the link itself, and `redirect`, after which `sublink_convert` of `admin.rs` reads them from the URL
it leads to.  They read the flag `adblock` differently: one of them trims it.

* `get_of_shortenAuto`: what `shorten_auto` stores is found until it expires.
* `short_and_direct_agree_iff`: the two ways give the same output exactly if they read the same flag
  or it makes no difference.
-/

namespace SingBoxMini.Sublink
open Bytes Text Percent

/-! ### The service -/

/-- `query_bool` -/
def queryBool (url : Url) (names : List String) : Bool :=
  eqIgnoreAsciiCase (trim (queryValue url names)) "true".toList ||
    trim (queryValue url names) == "1".toList

/-- `stable_code`, with `Blake2s256::digest`. -/
def stableCode (digest : List UInt8 → Vector UInt8 32) (value : List UInt8) : String :=
  String.ofList (hex ((digest value).toList.take 10))

/-- The checks of `shorten_auto`, and the query that is stored. -/
def acceptedQuery (libraries : Libraries) (rawUrl : List Char) :
    Except AnyhowError (List Char) := do
  let url ← okOr (libraries.codec.url.parse rawUrl) "invalid URL parameter"
  ensure (formats.any fun format => url.path = ("/" ++ format).toList) "invalid URL parameter"
  let config := queryValue url ["config"]
  ensure (config ≠ []) "invalid URL parameter"
  ensure ((utf8 config).length ≤ maxInputBytes) "URL parameter is too large"
  let _ ← presetOf (queryValueOptional url ["selectedRules"])
  let _ ← parseCustomRules libraries.parseHost (queryValueOptional url ["whitelist"])
    (queryValueOptional url ["blacklist"])
  let query ← okOr (url.query.filter (· ≠ [])) "invalid URL parameter"
  ensure ((utf8 query).length ≤ maxInputBytes) "URL parameter is too large"
  return query

/-- The errors of `shorten_auto`. -/
inductive ShortenAutoError where
  | url (error : AnyhowError)
  | store (error : StoreError)

/-- `SublinkService::shorten_auto`, with the Unix time. -/
def shortenAuto (libraries : Libraries) (digest : List UInt8 → Vector UInt8 32) (toml : Toml)
    (fault : Option Fault) (unix : Nat) (rawUrl : List Char) (s : ShortStore)
    (file : Option (List UInt8)) :
    Except ShortenAutoError String × ShortStore × Option (List UInt8) :=
  match acceptedQuery libraries rawUrl with
  | .error error => (.error (.url error), s, file)
  | .ok query =>
    let code := stableCode digest (utf8 query)
    let (result, s, file) :=
      s.putPersistedExpiring toml fault unix code ("?" ++ String.ofList query) file
    ((result.map fun _ => code).mapError .store, s, file)

/-- `SublinkService::redirect` -/
def redirect (now unix : Nat) (letter code : String) (s : ShortStore) :
    Except AnyhowError String := do
  let format ← okOr (formatForPrefix letter) "invalid short URL"
  ensure (validCode code) "invalid short URL"
  let query ← okOr (s.get now unix code).1 "short URL not found"
  return "/" ++ format.text ++ query

/-- The format of `requested_format`, or what the client seems to read. -/
def chosenFormat (userAgent accept : List Char) :
    Option (List Char) → Except AnyhowError Format
  | some requested => normalizeFormat requested
  | none => .ok (autoFormat userAgent accept)

/-- `SublinkService::auto_with_overrides` -/
def autoWithOverrides (libraries : Libraries) (now unix : Nat) (code : String)
    (userAgent accept : List Char) (requestedFormat serverOverride : Option (List Char))
    (portOverride : Option Nat) (tcpOnly : Bool) (s : ShortStore) :
    Except AnyhowError SublinkOutput := do
  ensure (validCode code) "invalid short URL"
  let query ← okOr (s.get now unix code).1 "short URL not found"
  let url ← okOr (libraries.codec.url.parse ("https://short.local/xray" ++ query).toList)
    "invalid short URL"
  let config := queryValue url ["config"]
  let config ←
    if serverOverride.isSome || portOverride.isSome || tcpOnly then
      rewriteSubscriptionInput libraries.codec config serverOverride portOverride tcpOnly
    else .ok config
  let format ← chosenFormat userAgent accept requestedFormat
  convertWithRuleFormat libraries format config (queryValueOptional url ["selectedRules"])
    (queryBool url ["adblock"]) (queryValueOptional url ["whitelist"])
    (queryValueOptional url ["blacklist"]) (supportsMrsFormat userAgent)

/-- `SublinkService::auto_with_format` -/
def autoWithFormat (libraries : Libraries) (now unix : Nat) (code : String)
    (userAgent accept : List Char) (requestedFormat : Option (List Char)) (s : ShortStore) :
    Except AnyhowError SublinkOutput :=
  autoWithOverrides libraries now unix code userAgent accept requestedFormat none none false s

/-! ### The handlers -/

/-- The path and the query of the URI of a request. -/
def uriParts (uri : List Char) : List Char × Option (List Char) := Url.cut '?' (Url.cut '#' uri).1

/-- `uri_parameter`, of the query. -/
def uriParameter (query : Option (List Char)) (name : String) : Option (List Char) :=
  query.bind fun query =>
    ((pairs query).find? fun pair => eqIgnoreAsciiCase pair.1 name.toList).map (·.2)

/-- What `sublink_convert` takes for a flag that is set. -/
def isSet (value : List Char) : Bool :=
  value == "1".toList || eqIgnoreAsciiCase value "true".toList

/-- `sublink_convert`, before its response. -/
def sublinkConvert (libraries : Libraries) (format : Format) (query : Option (List Char)) :
    Except AnyhowError SublinkOutput := do
  let input ← okOr (uriParameter query "config") "missing config parameter"
  convertWithCustomRules libraries format input (uriParameter query "selectedRules")
    ((uriParameter query "adblock").any isSet) (uriParameter query "whitelist")
    (uriParameter query "blacklist")

/-- The routes `/singbox`, `/clash`, `/surge` and `/xray`. -/
def convertRoute (path : List Char) : Option Format :=
  [Format.singbox, .clash, .surge, .xray].find? fun format => ("/" ++ format.text).toList = path

/-- A redirect that is followed, if its target has a route. -/
def followRedirect (libraries : Libraries) (now unix : Nat) (letter code : String)
    (s : ShortStore) : Option (Except AnyhowError SublinkOutput) :=
  match redirect now unix letter code s with
  | .error error => some (.error error)
  | .ok target =>
    let (path, query) := uriParts target.toList
    (convertRoute path).map fun format => sublinkConvert libraries format query

/-! ### Codes and queries -/

theorem length_utf8_hex (bytes : List UInt8) : (utf8 (hex bytes)).length = 2 * bytes.length := by
  have hdigit : ∀ n < 16, (String.utf8EncodeChar (Nat.digitChar n)).length = 1 := by decide
  induction bytes with
  | nil => rw [hex, List.flatMap_nil, utf8_nil, List.length_nil]
  | cons b bytes ih =>
      have hhigh : b.toNat / 16 < 16 := by have := b.toNat_lt; omega
      have hcons : hex (b :: bytes) =
          Nat.digitChar (b.toNat / 16) :: Nat.digitChar (b.toNat % 16) :: hex bytes := rfl
      rw [hcons, utf8_cons, utf8_cons, List.length_append, List.length_append, ih, hdigit _ hhigh,
        hdigit _ (Nat.mod_lt _ (by decide)), List.length_cons]
      omega

/-- **The codes of `shorten_auto` are valid.** -/
theorem validCode_stableCode (digest : List UInt8 → Vector UInt8 32) (value : List UInt8) :
    validCode (stableCode digest value) = true := by
  have hdigit : ∀ n < 16, (Nat.digitChar n).isAlphanum = true := by decide
  have hten : ((digest value).toList.take 10).length = 10 := by simp
  have hlen : len (stableCode digest value) = 20 := by
    change (utf8 (hex ((digest value).toList.take 10))).length = 20
    rw [length_utf8_hex, hten]
  have hne : stableCode digest value ≠ "" := by
    intro h
    rw [h] at hlen
    exact absurd hlen (by decide)
  have hall : (stableCode digest value).toList.all
      (fun c => c.isAlphanum || c = '-' || c = '_') = true := by
    rw [List.all_eq_true, stableCode, String.toList_ofList]
    intro c hc
    obtain ⟨n, hn, rfl⟩ := mem_hex hc
    rw [hdigit n hn]
    rfl
  rw [validCode, hall, hlen]
  simp [hne]

/-- A format is asked for by its name, -/
theorem normalizeFormat_text (format : Format) :
    normalizeFormat format.text.toList = .ok format := by
  cases format <;> decide

/-- by its letter, -/
theorem formatForPrefix_letter (format : Format) :
    formatForPrefix format.letter = some format := by
  cases format <;> decide

/-- and by its route. -/
theorem convertRoute_text (format : Format) :
    convertRoute ("/" ++ format.text).toList = some format := by
  cases format <;> decide

variable {query : List Char}

/-- **Where a redirect leads**: the query of its target is the stored one. -/
theorem uriParts_target (format : Format) (h : '#' ∉ query) :
    uriParts ("/" ++ format.text ++ ("?" ++ String.ofList query)).toList =
      (("/" ++ format.text).toList, some query) := by
  have hpath : '#' ∉ ("/" ++ format.text).toList ∧ '?' ∉ ("/" ++ format.text).toList := by
    cases format <;> decide
  have htarget : ("/" ++ format.text ++ ("?" ++ String.ofList query)).toList =
      ("/" ++ format.text).toList ++ '?' :: query := by
    simp only [String.toList_append, String.toList_ofList]
    rfl
  have hhash : '#' ∉ ("/" ++ format.text).toList ++ '?' :: query := by
    rw [List.mem_append, List.mem_cons, not_or, not_or]
    exact ⟨hpath.1, by decide, h⟩
  have hcut := Url.cut_append hhash none
  have hcut' := Url.cut_append hpath.2 (some query)
  rw [Option.elim_none, List.append_nil] at hcut
  rw [uriParts, htarget, hcut]
  exact hcut'

/-- **What is assumed of a parser**: the query of a URL has no hash in it, and behind another URL
its values are read as they were. -/
structure ReadsQueries (library : Url.Library) : Prop where
  hash : ∀ {s : List Char} {url : Url} {query : List Char}, library.parse s = some url →
    url.query = some query → '#' ∉ query
  pairs : ∀ {s : List Char} {url : Url} {query : List Char}, library.parse s = some url →
    url.query = some query →
      ∃ url', library.parse ("https://short.local/xray?".toList ++ query) = some url' ∧
        pairs (url'.query.getD []) = pairs query

/-- The URL a stored query is read behind. -/
def shortLocal : Url :=
  ⟨"https".toList, [], none, some "short.local".toList, none, "/xray".toList, none, none⟩

/-- The parser that changes nothing does so. -/
theorem simple_readsQueries : ReadsQueries Url.simple where
  hash := by
    intro s url query hparse hquery hhash
    have hclean := (Url.simple_parse_eq_some hparse).1.query
    rw [hquery] at hclean
    exact absurd (List.all_eq_true.mp hclean '#' hhash) (by decide)
  pairs := by
    intro s url query hparse hquery
    have hclean := (Url.simple_parse_eq_some hparse).1.query
    rw [hquery] at hclean
    have hlocal : shortLocal.Clean := by decide
    have hclean' : { shortLocal with query := some query }.Clean := { hlocal with query := hclean }
    have htext : { shortLocal with query := some query }.toString =
        "https://short.local/xray?".toList ++ query := by
      simp [shortLocal, Url.toString, Url.userInfo, Url.hostPort, Url.portText]
    refine ⟨{ shortLocal with query := some query }, ?_, rfl⟩
    rw [← htext]
    exact Url.simple_parse_toString hclean' (by simp [shortLocal])

/-- The two ways to read a parameter. -/
theorem queryValueOptional_eq_uriParameter {url : Url} (h : pairs (url.query.getD []) = pairs query)
    (name : String) :
    queryValueOptional url [name] = uriParameter (some query) name := by
  rw [queryValueOptional, h, uriParameter, Option.bind_some]
  simp only [List.any_cons, List.any_nil, Bool.or_false]

/-- A flag that is set has no blanks around it. -/
theorem trim_of_isSet {value : List Char} (h : isSet value = true) : trim value = value := by
  rw [isSet, Bool.or_eq_true, beq_iff_eq, eqIgnoreAsciiCase, beq_iff_eq] at h
  refine trim_of_visible fun c hc => ?_
  rcases h with rfl | h
  · rw [List.mem_singleton.mp hc]
    decide
  · by_contra hblank
    rw [Bool.not_eq_false] at hblank
    have hlower : c ∈ toAsciiLowercase "true".toList := by
      rw [← h, ← toLower_of_isWhitespace hblank]
      exact List.mem_map_of_mem hc
    have hvisible : (toAsciiLowercase "true".toList).all (!isWhitespace ·) = true := by decide
    rw [visible_of_all hvisible c hlower] at hblank
    cases hblank

/-- **The two flags.**  They agree unless one that is set has blanks around it. -/
theorem isSet_trim_eq_iff {value : List Char} :
    isSet (trim value) = isSet value ↔ (isSet (trim value) = true → trim value = value) := by
  refine ⟨fun h hset => trim_of_isSet (h ▸ hset), fun h => ?_⟩
  by_cases hset : isSet (trim value) = true
  · rw [h hset]
  · by_cases hset' : isSet value = true
    · rw [trim_of_isSet hset']
    · rw [Bool.not_eq_true] at hset hset'
      rw [hset, hset']

theorem queryBool_eq {url : Url} (h : pairs (url.query.getD []) = pairs query) :
    queryBool url ["adblock"] =
      (uriParameter (some query) "adblock").any fun value => isSet (trim value) := by
  rw [queryBool, queryValue, queryValueOptional_eq_uriParameter h]
  cases uriParameter (some query) "adblock" with
  | none => decide
  | some value => exact Bool.or_comm _ _

/-! ### The two ways -/

section Ways

variable {libraries : Libraries} {digest : List UInt8 → Vector UInt8 32} {toml : Toml}
  {fault : Option Fault} {now unix unix' : Nat} {rawUrl query userAgent : List Char}
  {code : String} {s s' : ShortStore} {file file' : Option (List UInt8)} {url : Url}
  {format : Format}

theorem query_of_accepted (h : acceptedQuery libraries rawUrl = .ok query)
    (hurl : libraries.codec.url.parse rawUrl = some url) :
    url.query = some query ∧ queryValue url ["config"] ≠ [] := by
  simp only [acceptedQuery, bind_ok_iff] at h
  obtain ⟨url', hurl', _, -, _, hconfig, _, -, _, -, _, -, query', hquery, _, -, heq⟩ := h
  rw [okOr_ok_iff, hurl, Option.some.injEq] at hurl'
  subst hurl'
  cases heq
  exact ⟨(Option.filter_eq_some_iff.mp (okOr_ok_iff.mp hquery)).1, ensure_ok_iff.mp hconfig⟩

/-- **What `shorten_auto` stores** is found again until it expires. -/
theorem get_of_shortenAuto
    (h : shortenAuto libraries digest toml fault unix rawUrl s file = (.ok code, s', file')) :
    validCode code = true ∧ ∃ query, acceptedQuery libraries rawUrl = .ok query ∧
      ∀ now unix', unix' < expiresAtUnix unix s.ttl →
        (s'.get now unix' code).1 = some ("?" ++ String.ofList query) := by
  unfold shortenAuto at h
  cases hquery : acceptedQuery libraries rawUrl with
  | error error =>
      rw [hquery] at h
      cases h
  | ok query =>
      simp only [hquery, ShortStore.putPersistedExpiring] at h
      split_ifs at h with hdisabled
      · cases h
      · obtain ⟨hresult, hrest⟩ := Prod.mk.inj h
        obtain ⟨rfl, -⟩ := Prod.mk.inj hrest
        have hcode : code = stableCode digest (utf8 query) := by
          revert hresult
          cases (ShortStore.persist toml _ fault file).1 with
          | error error => exact fun hresult => by cases hresult
          | ok _ => exact fun hresult => (Except.ok.inj hresult).symm
        subst hcode
        refine ⟨validCode_stableCode digest _, query, rfl, fun now unix' hlive => ?_⟩
        obtain ⟨base, hinserts, -⟩ := insertExpiring_inserts s.limit_pos s.ttl unix
          (stableCode digest (utf8 query)) ("?" ++ String.ofList query) s.permanent
        exact ShortStore.get_of_persisted
          (hinserts.persisted (live_iff.mpr (by simpa using hlive))) now

/-- **By the redirect**: the stored query is converted. -/
theorem followRedirect_eq (hcode : validCode code = true) (hhash : '#' ∉ query)
    (hget : (s.get now unix code).1 = some ("?" ++ String.ofList query)) :
    followRedirect libraries now unix format.letter code s =
      some (sublinkConvert libraries format (some query)) := by
  have hredirect : redirect now unix format.letter code s =
      .ok ("/" ++ format.text ++ ("?" ++ String.ofList query)) := by
    rw [redirect, bind_of_ok (okOr_ok_iff.mpr (formatForPrefix_letter format)),
      bind_of_ok (ensure_ok_iff.mpr hcode), bind_of_ok (okOr_ok_iff.mpr hget)]
    rfl
  rw [followRedirect, hredirect]
  simp only [uriParts_target format hhash, convertRoute_text, Option.map_some]

/-- **By the code**: so is what is read of it behind another URL. -/
theorem autoWithFormat_eq (hcode : validCode code = true)
    (hget : (s.get now unix code).1 = some ("?" ++ String.ofList query))
    (hparse : libraries.codec.url.parse ("https://short.local/xray?".toList ++ query) = some url)
    (accept : List Char) :
    autoWithFormat libraries now unix code userAgent accept (some format.text.toList) s =
      convertWithRuleFormat libraries format (queryValue url ["config"])
        (queryValueOptional url ["selectedRules"]) (queryBool url ["adblock"])
        (queryValueOptional url ["whitelist"]) (queryValueOptional url ["blacklist"])
        (supportsMrsFormat userAgent) := by
  have htext : ("https://short.local/xray" ++ ("?" ++ String.ofList query)).toList =
      "https://short.local/xray?".toList ++ query := by
    have hmark : "https://short.local/xray?".toList =
        "https://short.local/xray".toList ++ "?".toList := by decide
    simp only [String.toList_append, String.toList_ofList]
    rw [hmark, List.append_assoc]
  rw [← htext] at hparse
  rw [autoWithFormat, autoWithOverrides, bind_of_ok (ensure_ok_iff.mpr hcode),
    bind_of_ok (okOr_ok_iff.mpr hget), bind_of_ok (okOr_ok_iff.mpr hparse)]
  simp only [Option.isSome_none, Bool.or_self, Bool.false_eq_true, if_false, chosenFormat]
  rw [bind_of_ok rfl, bind_of_ok (normalizeFormat_text format)]

/-- The redirect and the code, where the link is not found. -/
theorem followRedirect_of_none (hcode : validCode code = true)
    (hget : (s.get now unix code).1 = none) (accept : List Char) :
    followRedirect libraries now unix format.letter code s =
      some (autoWithFormat libraries now unix code userAgent accept
        (some format.text.toList) s) := by
  have hredirect : redirect now unix format.letter code s = .error ["short URL not found"] := by
    rw [redirect, bind_of_ok (okOr_ok_iff.mpr (formatForPrefix_letter format)),
      bind_of_ok (ensure_ok_iff.mpr hcode), hget]
    rfl
  have hauto : autoWithFormat libraries now unix code userAgent accept (some format.text.toList) s =
      .error ["short URL not found"] := by
    rw [autoWithFormat, autoWithOverrides, bind_of_ok (ensure_ok_iff.mpr hcode), hget]
    rfl
  rw [followRedirect, hredirect, hauto]

/-- The blanks that one way trims are not there, if the flag is set without them. -/
def PlainFlag (url : Url) : Prop :=
  ∀ value ∈ queryValueOptional url ["adblock"], isSet (trim value) = true → trim value = value

theorem plainFlag_iff :
    PlainFlag url ↔
      (queryValueOptional url ["adblock"]).any isSet =
        (queryValueOptional url ["adblock"]).any fun value => isSet (trim value) := by
  rw [PlainFlag]
  cases queryValueOptional url ["adblock"] with
  | none => simp
  | some value =>
      rw [Option.any_some, Option.any_some, eq_comm, isSet_trim_eq_iff]
      simp

/-- Two conversions that differ in the flag at most. -/
theorem convert_flags_iff {input : List Char}
    {selectedRules whitelist blacklist : Option (List Char)} {flag flag' clashMrs : Bool} :
    convertWithRuleFormat libraries format input selectedRules flag whitelist blacklist clashMrs =
        convertWithRuleFormat libraries format input selectedRules flag' whitelist blacklist
          clashMrs ↔
      flag = flag' ∨ FlagIgnored libraries format input selectedRules whitelist blacklist := by
  rw [← @convert_flag_iff _ _ _ _ _ _ clashMrs]
  cases flag <;> cases flag'
  · simp
  · simp [eq_comm]
  · simp
  · simp

/-- **A stored query by both ways.**  The redirect leads to the parameters of the URL itself, and
the outputs are the same exactly if the flag has no blanks around it where one way trims them, or
makes no difference. -/
theorem stored_agree_iff (hreads : ReadsQueries libraries.codec.url)
    (haccepted : acceptedQuery libraries rawUrl = .ok query)
    (hurl : libraries.codec.url.parse rawUrl = some url) (hcode : validCode code = true)
    (hget : (s.get now unix code).1 = some ("?" ++ String.ofList query))
    (hmrs : supportsMrsFormat userAgent = true) (format : Format) (accept : List Char) :
    followRedirect libraries now unix format.letter code s =
        some (convertWithCustomRules libraries format (queryValue url ["config"])
          (queryValueOptional url ["selectedRules"])
          ((queryValueOptional url ["adblock"]).any isSet)
          (queryValueOptional url ["whitelist"]) (queryValueOptional url ["blacklist"])) ∧
      (followRedirect libraries now unix format.letter code s =
          some (autoWithFormat libraries now unix code userAgent accept
            (some format.text.toList) s) ↔
        PlainFlag url ∨ FlagIgnored libraries format (queryValue url ["config"])
          (queryValueOptional url ["selectedRules"]) (queryValueOptional url ["whitelist"])
          (queryValueOptional url ["blacklist"])) := by
  obtain ⟨hquery, hconfig⟩ := query_of_accepted haccepted hurl
  obtain ⟨url', hparse, hpairs⟩ := hreads.pairs hurl hquery
  have hown : pairs (url.query.getD []) = pairs query := by rw [hquery, Option.getD_some]
  -- Both URLs have the parameters of the query, and the configuration is one of them.
  have hvalues : ∀ name, queryValueOptional url' [name] = queryValueOptional url [name] :=
    fun name => (queryValueOptional_eq_uriParameter hpairs name).trans
      (queryValueOptional_eq_uriParameter hown name).symm
  have hinput : queryValueOptional url ["config"] = some (queryValue url ["config"]) := by
    rw [queryValue] at hconfig ⊢
    cases hvalue : queryValueOptional url ["config"] with
    | none => exact absurd (by rw [hvalue, Option.getD_none]) hconfig
    | some value => rfl
  have hconverted : sublinkConvert libraries format (some query) =
      convertWithCustomRules libraries format (queryValue url ["config"])
        (queryValueOptional url ["selectedRules"])
        ((queryValueOptional url ["adblock"]).any isSet)
        (queryValueOptional url ["whitelist"]) (queryValueOptional url ["blacklist"]) := by
    rw [sublinkConvert]
    simp only [← queryValueOptional_eq_uriParameter hown]
    exact bind_of_ok (okOr_ok_iff.mpr hinput) _
  have hdirect : followRedirect libraries now unix format.letter code s =
      some (sublinkConvert libraries format (some query)) :=
    followRedirect_eq hcode (hreads.hash hurl hquery) hget
  rw [hconverted] at hdirect
  refine ⟨hdirect, ?_⟩
  rw [hdirect, autoWithFormat_eq hcode hget hparse accept, hmrs, queryBool_eq hpairs,
    ← queryValueOptional_eq_uriParameter hown, queryValue, queryValue, hvalues, hvalues, hvalues,
    hvalues, Option.some.injEq, convertWithCustomRules, convert_flags_iff, plainFlag_iff]

/-- **One output by both ways**, for what `shorten_auto` accepts and as long as it is stored.  A
link that is not found is not found by either way. -/
theorem short_and_direct_agree_iff (hreads : ReadsQueries libraries.codec.url)
    (h : shortenAuto libraries digest toml fault unix rawUrl s file = (.ok code, s', file'))
    (hurl : libraries.codec.url.parse rawUrl = some url)
    (hmrs : supportsMrsFormat userAgent = true) (format : Format) (accept : List Char)
    (now unix' : Nat) :
    ((s'.get now unix' code).1 = none →
      followRedirect libraries now unix' format.letter code s' =
        some (autoWithFormat libraries now unix' code userAgent accept
          (some format.text.toList) s')) ∧
    (unix' < expiresAtUnix unix s.ttl →
      followRedirect libraries now unix' format.letter code s' =
        some (convertWithCustomRules libraries format (queryValue url ["config"])
          (queryValueOptional url ["selectedRules"])
          ((queryValueOptional url ["adblock"]).any isSet)
          (queryValueOptional url ["whitelist"]) (queryValueOptional url ["blacklist"])) ∧
      (followRedirect libraries now unix' format.letter code s' =
          some (autoWithFormat libraries now unix' code userAgent accept
            (some format.text.toList) s') ↔
        PlainFlag url ∨ FlagIgnored libraries format (queryValue url ["config"])
          (queryValueOptional url ["selectedRules"]) (queryValueOptional url ["whitelist"])
          (queryValueOptional url ["blacklist"]))) := by
  obtain ⟨hcode, query, haccepted, hget⟩ := get_of_shortenAuto h
  refine ⟨fun hnone => followRedirect_of_none hcode hnone accept, fun hlive => ?_⟩
  exact stored_agree_iff hreads haccepted hurl hcode (hget now unix' hlive) hmrs format accept

end Ways

/-! ### Two links -/

/-- No domains, and no JSON. -/
def sampleLibraries : Libraries := ⟨urlCodec, fun _ => none⟩

/-- A store without a file. -/
def memoryStore : ShortStore := { State.sampleStore with persistencePath := none }

/-- A digest. -/
def zeroDigest (_ : List UInt8) : Vector UInt8 32 := Vector.replicate 32 0

/-- A node. -/
def sampleNodeUrl : Url :=
  ⟨"vless".toList, "u".toList, none, some "h".toList, some 1, [], none, none⟩

/-- A URL with a node and a flag. -/
def flagUrl (flag : String) : Url :=
  ⟨"https".toList, [], none, some "h".toList, none, "/clash".toList,
    some ("config=vless://u@h:1&adblock=" ++ flag).toList, none⟩

theorem prepare_sample : ∃ c, prepare sampleLibraries .clash sampleNodeUrl.toString none none none =
    .ok c := by
  have hinput : parseInput sampleLibraries.codec sampleNodeUrl.toString =
      .ok [urlNode .vless sampleNodeUrl.toString sampleNodeUrl "h".toList] :=
    parseInput_urlNode (by decide) (by decide) rfl (by decide) (by decide)
  rw [prepare, bind_of_ok hinput]
  exact ⟨_, rfl⟩

theorem shortenAuto_sample {rawUrl : List Char}
    (h : acceptedQuery sampleLibraries rawUrl = .ok query) :
    ∃ code s', shortenAuto sampleLibraries zeroDigest State.plainToml none 100 rawUrl
      memoryStore none = (.ok code, s', none) := by
  rw [shortenAuto, h]
  exact ⟨_, _, rfl⟩

/-- A flag without blanks is read by both ways. -/
theorem short_and_direct_agree_set :
    ∃ code s', shortenAuto sampleLibraries zeroDigest State.plainToml none 100
        (flagUrl "true").toString memoryStore none = (.ok code, s', none) ∧
      followRedirect sampleLibraries 0 100 "c" code s' =
        some (autoWithFormat sampleLibraries 0 100 code [] [] (some "clash".toList) s') := by
  have hurl : sampleLibraries.codec.url.parse (flagUrl "true").toString =
      some (flagUrl "true") := Url.simple_parse_toString (by decide) (by decide)
  have haccepted : acceptedQuery sampleLibraries (flagUrl "true").toString =
      .ok ("config=vless://u@h:1&adblock=" ++ "true").toList := by
    rw [acceptedQuery, hurl]
    rfl
  obtain ⟨code, s', h⟩ := shortenAuto_sample haccepted
  have hplain : PlainFlag (flagUrl "true") := plainFlag_iff.mpr (by decide)
  exact ⟨code, s', h, ((short_and_direct_agree_iff simple_readsQueries h hurl
    (show supportsMrsFormat [] = true by decide) .clash [] 0 100).2 (by decide)).2.mpr
      (.inl hplain)⟩

/-- **A blank is trimmed by one way**: of `adblock=+true`, advertisements are blocked by the code
and not by the redirect. -/
theorem short_and_direct_differ :
    ∃ code s', shortenAuto sampleLibraries zeroDigest State.plainToml none 100
        (flagUrl "+true").toString memoryStore none = (.ok code, s', none) ∧
      supportsMrsFormat [] = true ∧
      followRedirect sampleLibraries 0 100 "c" code s' ≠
        some (autoWithFormat sampleLibraries 0 100 code [] [] (some "clash".toList) s') := by
  have hurl : sampleLibraries.codec.url.parse (flagUrl "+true").toString =
      some (flagUrl "+true") := Url.simple_parse_toString (by decide) (by decide)
  have hquery : acceptedQuery sampleLibraries (flagUrl "+true").toString =
      .ok ("config=vless://u@h:1&adblock=" ++ "+true").toList := by
    rw [acceptedQuery, hurl]
    rfl
  obtain ⟨code, s', h⟩ := shortenAuto_sample hquery
  obtain ⟨hcode, query, haccepted, hget⟩ := get_of_shortenAuto h
  refine ⟨code, s', h, by decide, fun heq => ?_⟩
  have hagree := (stored_agree_iff simple_readsQueries haccepted hurl hcode
    (hget 0 100 (by decide)) (show supportsMrsFormat [] = true by decide) .clash []).2.mp heq
  rcases hagree with hplain | hfails | hxray | hpreset
  · exact absurd (hplain " true".toList (by decide) (by decide)) (by decide)
  · obtain ⟨error, herror⟩ := hfails
    obtain ⟨c, hc⟩ := prepare_sample
    have hconfig : queryValue (flagUrl "+true") ["config"] = sampleNodeUrl.toString := by decide
    rw [hconfig] at herror
    exact absurd (herror.symm.trans hc) (by simp)
  · cases hxray
  · revert hpreset
    decide

end SingBoxMini.Sublink
