import SingBoxMini.Sublink.Nodes

/-!
# Sublink — Shadowsocks

The three forms of a Shadowsocks URI: the credentials in Base64 or percent-encoded before the
server, or all of it in Base64.  `parse_shadowsocks` tells them apart by the characters it finds.

* `decodeBase64_encode`: all four kinds of Base64 are read as the bytes they were written for.
* `shadowsocks_forms`: each form is read as the node it was written for.
-/

namespace SingBoxMini.Sublink
open Bytes Text Percent Base64

/-! ### Base64 -/

/-- The characters of Base64 have no other use in a URI. -/
def base64Char (c : Char) : Bool :=
  !isWhitespace c && c != '%' && c != ':' && c != '@' && c != '#' && c != '?'

theorem base64Char_of_mem {e : Engine} {bytes : List UInt8} {c : Char} (h : c ∈ e.encode bytes) :
    base64Char c = true :=
  Engine.of_mem_encode (by decide) (by decide) h

theorem not_mem_base64 {e : Engine} {c : Char} (hc : base64Char c = false) (bytes : List UInt8) :
    c ∉ e.encode bytes := by
  intro hmem
  rw [base64Char_of_mem hmem] at hc
  cases hc

/-- **Base64 is read back**, standard or URL-safe and padded or not. -/
theorem decodeBase64_encode (e : Engine) (bytes : List UInt8) :
    decodeBase64 (e.encode bytes) = some bytes := by
  have hvisible : (e.encode bytes).filter (!isWhitespace ·) = e.encode bytes := by
    rw [List.filter_eq_self]
    intro c hc
    have hchar := base64Char_of_mem hc
    simp only [base64Char, Bool.and_eq_true] at hchar
    exact hchar.1.1.1.1.1
  have hengine : e ∈ engines := by
    obtain ⟨urlSafe, padded⟩ := e
    cases urlSafe <;> cases padded <;> decide
  rw [decodeBase64, hvisible]
  cases hfound : engines.findSome? (·.decode (e.encode bytes)) with
  | none =>
      have hnone := List.findSome?_eq_none_iff.mp hfound e hengine
      rw [Engine.decode_encode] at hnone
      cases hnone
  | some bytes' =>
      -- another kind may come first, which reads the same bytes
      obtain ⟨e', -, hdecode⟩ := List.exists_of_findSome?_eq_some hfound
      rw [Engine.decode_unique hdecode (Engine.decode_encode bytes)]

theorem fromUtf8OrError_utf8 (text : List Char) : fromUtf8OrError (utf8 text) = .ok text := by
  rw [fromUtf8OrError, ofUtf8_utf8]
  rfl

/-! ### The server -/

/-- The server and the port. -/
def ssServer (server : List Char) (port : Nat) : List Char := server ++ ':' :: Nat.toDigits 10 port

section Server

variable {codec : Codec} {server : List Char} {port : Nat}

theorem not_mem_ssServer (hserver : Url.IsName server) {c : Char} (halpha : c.isAlphanum = false)
    (hc : c ∉ [':', '-', '.', '_']) : c ∉ ssServer server port := by
  have hdigit : c.isDigit = false := by
    rw [Bool.eq_false_iff] at halpha ⊢
    exact fun hyes => halpha (isAlphanum_iff.mpr (.inr (.inr hyes)))
  rw [ssServer, List.mem_append, List.mem_cons]
  rintro (hmem | rfl | hmem)
  · rcases hserver.2 c hmem with hyes | hmark
    · rw [halpha] at hyes
      cases hyes
    · exact hc (List.mem_cons_of_mem _ hmark)
  · exact hc List.mem_cons_self
  · exact Url.not_mem_digits hdigit port hmem

theorem splitServerPort_ssServer (hlawful : Url.Lawful codec.url) (hserver : Url.IsName server)
    (hport : port < 2 ^ 16) :
    splitServerPort codec (ssServer server port) = .ok (server, port) := by
  let url : Url := ⟨"tcp".toList, [], none, some server, some port, [], none, none⟩
  have hplain : url.Plain :=
    ⟨show Url.cleanScheme "tcp".toList = true by decide, by simp [url], rfl,
      ⟨port, hport, rfl⟩, .inl rfl, by simp [url], by simp [url]⟩
  have hparse := hlawful.parse_name hplain (show "tcp".toList ∉ Url.special by decide) rfl hserver
  have htext : url.toString = "tcp://".toList ++ ssServer server port := by
    simp [url, Url.toString, Url.userInfo, Url.hostPort, Url.portText, ssServer]
  rw [htext] at hparse
  rw [splitServerPort, bind_of_ok (okOr_ok_iff.mpr hparse)]
  rfl

end Server

/-! ### The forms -/

/-- The node of a URI with these credentials. -/
def namedSsNode (uri name server : List Char) (port : Nat) (method password : List Char) : Node :=
  { Node.empty .shadowsocks uri with name, server, port, method, password }

/-- Credentials before the server. -/
def ssUri (credentials server : List Char) (port : Nat) (fragment : List Char) : List Char :=
  "ss://".toList ++ (credentials ++ '@' :: ssServer server port ++ '#' :: fragment)

/-- All of it in Base64. -/
def ssWholeUri (e : Engine) (method password server : List Char) (port : Nat)
    (fragment : List Char) : List Char :=
  "ss://".toList ++ (e.encode (utf8 (method ++ ':' :: password ++ '@' :: ssServer server port)) ++
    '#' :: fragment)

section Forms

variable {codec : Codec} {method password server name fragment credentials authority : List Char}
  {port : Nat}

/-- What is in front of the fragment decides. -/
theorem parseShadowsocks_of_authority (hlawful : Url.Lawful codec.url) (hmethod : method ≠ [])
    (hcolon : ':' ∉ method) (hpassword : password ≠ []) (hserver : Url.IsName server)
    (hport : port < 2 ^ 16) (hname : name ≠ []) (hfragment : decodeComponent fragment = name)
    (hhash : '#' ∉ authority) (hquestion : '?' ∉ authority)
    (hread : readAuthority authority = .ok (method ++ ':' :: password, ssServer server port)) :
    parseShadowsocks codec ("ss://".toList ++ (authority ++ '#' :: fragment)) =
      .ok (namedSsNode ("ss://".toList ++ (authority ++ '#' :: fragment)) name server port method
        password) := by
  have hsplit : splitOnce ['#'] (authority ++ '#' :: fragment) = some (authority, fragment) := by
    have h := splitOnce_append hhash [] fragment
    rwa [List.append_assoc, List.singleton_append] at h
  have htake : ((authority ++ '#' :: fragment).takeWhile (· ≠ '#')).takeWhile (· ≠ '?') =
      authority := by
    have hauthority : ∀ c ∈ authority, decide (c ≠ '#') = true := by
      intro c hc
      simpa using fun h : c = '#' => hhash (h ▸ hc)
    have hquery : ∀ c ∈ authority, decide (c ≠ '?') = true := by
      intro c hc
      simpa using fun h : c = '?' => hquestion (h ▸ hc)
    rw [List.takeWhile_append_of_pos hauthority, List.takeWhile_cons_of_neg (by simp),
      List.append_nil, List.takeWhile_eq_self_iff.mpr hquery]
  have hcredentials : splitOnce [':'] (method ++ ':' :: password) = some (method, password) := by
    have h := splitOnce_append hcolon [] password
    rwa [List.append_assoc, List.singleton_append] at h
  refine parseShadowsocks_ok_iff.mpr ⟨_, _, _, method, password, server, port,
    stripStart_append _ _, by rw [htake]; exact hread, hcredentials,
    splitServerPort_ssServer hlawful hserver hport, hmethod, hpassword, ?_⟩
  rw [hsplit, Option.map_some, hfragment, ssNode, Option.filter_some, if_pos (by simpa using hname)]
  rfl

/-- Credentials before the server are read by themselves. -/
theorem readAuthority_append (hserver : Url.IsName server) {text : List Char}
    (h : readCredentials credentials = .ok text) :
    readAuthority (credentials ++ '@' :: ssServer server port) =
      .ok (text, ssServer server port) := by
  unfold readAuthority
  rw [rsplitOnce_append credentials (not_mem_ssServer hserver (by decide) (by decide))]
  simp only
  rw [bind_of_ok h]
  rfl

/-- In Base64 they have no colon, -/
theorem readCredentials_base64 (e : Engine) (text : List Char) :
    readCredentials (e.encode (utf8 text)) = .ok text := by
  have hself : decodeComponent (e.encode (utf8 text)) = e.encode (utf8 text) :=
    decodeComponent_of_not_mem (not_mem_base64 (by decide) _)
  have hno : contains [':'] (e.encode (utf8 text)) = false := by
    rw [contains, splitOnce_eq_none (not_mem_base64 (by decide) _)]
    rfl
  rw [readCredentials, hself]
  simp only [hno, Bool.false_eq_true, if_false, decodeBase64_encode]
  exact fromUtf8OrError_utf8 text

/-- and percent-encoded they have one. -/
theorem readCredentials_percent (h : decodeComponent credentials = method ++ ':' :: password) :
    readCredentials credentials = .ok (method ++ ':' :: password) := by
  have hyes : contains [':'] (method ++ ':' :: password) = true :=
    contains_iff.mpr ⟨method, password, by simp⟩
  rw [readCredentials, h]
  simp only [hyes, if_true]
  rfl

/-- All of it in Base64 has no at sign. -/
theorem readAuthority_whole (e : Engine) (hserver : Url.IsName server) (text : List Char) :
    readAuthority (e.encode (utf8 (text ++ '@' :: ssServer server port))) =
      .ok (text, ssServer server port) := by
  have hat : '@' ∉ ssServer server port := not_mem_ssServer hserver (by decide) (by decide)
  unfold readAuthority
  rw [rsplitOnce_eq_none (not_mem_base64 (by decide) _), decodeBase64_encode]
  simp only
  rw [bind_of_ok (okOr_ok_iff.mpr rfl), bind_of_ok (fromUtf8OrError_utf8 _),
    rsplitOnce_append text hat]
  rfl

/-- **All forms of a Shadowsocks URI are read alike**: with the credentials in Base64 of any kind
before the server, percent-encoded before it, or with all of it in Base64.  The password may have
any characters. -/
theorem shadowsocks_forms (hlawful : Url.Lawful codec.url) (hmethod : method ≠ [])
    (hcolon : ':' ∉ method) (hpassword : password ≠ []) (hserver : Url.IsName server)
    (hport : port < 2 ^ 16) (hname : name ≠ []) (hfragment : decodeComponent fragment = name) :
    (∀ e : Engine,
      let uri := ssUri (e.encode (utf8 (method ++ ':' :: password))) server port fragment
      parseShadowsocks codec uri = .ok (namedSsNode uri name server port method password)) ∧
    (∀ encoded, decodeComponent encoded = method ++ ':' :: password → '#' ∉ encoded →
      '?' ∉ encoded →
      let uri := ssUri encoded server port fragment
      parseShadowsocks codec uri = .ok (namedSsNode uri name server port method password)) ∧
    ∀ e : Engine,
      let uri := ssWholeUri e method password server port fragment
      parseShadowsocks codec uri = .ok (namedSsNode uri name server port method password) := by
  have hauthority : ∀ {c : Char} {credentials : List Char}, c.isAlphanum = false →
      c ∉ ['@', ':', '-', '.', '_'] → c ∉ credentials →
        c ∉ credentials ++ '@' :: ssServer server port := by
    intro c credentials halpha hmarks hcredentials
    rw [List.mem_cons, not_or] at hmarks
    rw [List.mem_append, List.mem_cons, not_or, not_or]
    exact ⟨hcredentials, hmarks.1, not_mem_ssServer hserver halpha hmarks.2⟩
  refine ⟨fun e => ?_, fun encoded hencoded hhash hquestion => ?_, fun e => ?_⟩
  · refine parseShadowsocks_of_authority hlawful hmethod hcolon hpassword hserver hport hname
      hfragment ?_ ?_ (readAuthority_append hserver (readCredentials_base64 e _))
    · exact hauthority (by decide) (by decide) (not_mem_base64 (by decide) _)
    · exact hauthority (by decide) (by decide) (not_mem_base64 (by decide) _)
  · exact parseShadowsocks_of_authority hlawful hmethod hcolon hpassword hserver hport hname
      hfragment (hauthority (by decide) (by decide) hhash)
        (hauthority (by decide) (by decide) hquestion)
      (readAuthority_append hserver (readCredentials_percent hencoded))
  · exact parseShadowsocks_of_authority hlawful hmethod hcolon hpassword hserver hport hname
      hfragment (not_mem_base64 (by decide) _) (not_mem_base64 (by decide) _)
      (readAuthority_whole e hserver _)

end Forms

/-- A password of marks, in each form. -/
theorem shadowsocks_forms_marks :
    let node uri := namedSsNode uri "n".toList "h".toList 1 "m".toList ":@#/?".toList
    let base64 := ssUri (Engine.encode ⟨true, false⟩ (utf8 "m::@#/?".toList))
      "h".toList 1 "n".toList
    let percent := ssUri (encode Char.isAlphanum "m::@#/?".toList) "h".toList 1 "n".toList
    let whole := ssWholeUri ⟨false, true⟩ "m".toList ":@#/?".toList "h".toList 1 "n".toList
    parseShadowsocks urlCodec base64 = .ok (node base64) ∧
      parseShadowsocks urlCodec percent = .ok (node percent) ∧
      parseShadowsocks urlCodec whole = .ok (node whole) := by
  have hself : decodeComponent (encode Char.isAlphanum "m::@#/?".toList) =
      "m".toList ++ ':' :: ":@#/?".toList := decodeComponent_encode (by decide) _
  have hmethod : ':' ∉ "m".toList := by decide
  have hlawful : Url.Lawful urlCodec.url := Url.simple_lawful
  obtain ⟨hbase64, hpercent, hwhole⟩ := shadowsocks_forms hlawful
    (by decide) hmethod (show ":@#/?".toList ≠ [] by decide) (show Url.IsName "h".toList by decide)
    (show 1 < 2 ^ 16 by decide) (show "n".toList ≠ [] by decide)
    (decodeComponent_of_not_mem (by decide))
  exact ⟨hbase64 ⟨true, false⟩, hpercent _ hself (by decide) (by decide), hwhole ⟨false, true⟩⟩

end SingBoxMini.Sublink
