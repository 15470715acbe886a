import SingBoxMini.Support.Base64
import SingBoxMini.Support.Json
import SingBoxMini.Support.Percent
import SingBoxMini.Support.Url

/-!
# Sublink — Nodes

The nodes of a subscription, and how each is read from its URI: from the parts of the URL (VLESS,
Hysteria2, TUIC, SSH), from the text of the URI (Shadowsocks) or from the JSON in it (VMess).

* `parseNode_original`: a node keeps the URI it is read from.
-/

namespace SingBoxMini.Sublink
open Bytes Text Percent

/-- `MAX_INPUT_BYTES` -/
def maxInputBytes : Nat := 32 * 1024
/-- `MAX_NODES` -/
def maxNodes : Nat := 128
/-- `MAX_NESTING` -/
def maxNesting : Nat := 2

/-- The `kind` of a node. -/
inductive Kind where
  | shadowsocks
  | vmess
  | vless
  | hysteria2
  | tuic
  | ssh
deriving DecidableEq, Repr

/-- `Node` -/
structure Node where
  kind : Kind
  name : List Char
  server : List Char
  port : Nat
  username : List Char
  password : List Char
  privateKey : List Char
  hostKey : List Char
  method : List Char
  uuid : List Char
  network : List Char
  path : List Char
  host : List Char
  serviceName : List Char
  sni : List Char
  obfs : List Char
  obfsPassword : List Char
  flow : List Char
  packetEncoding : List Char
  udp : Bool
  original : List Char
  tls : Bool
  insecure : Bool
deriving DecidableEq, Repr

/-- `Node::empty` -/
def Node.empty (kind : Kind) (original : List Char) : Node :=
  { kind, name := [], server := [], port := 443, username := [], password := [], privateKey := [],
    hostKey := [], method := [], uuid := [], network := "tcp".toList, path := [], host := [],
    serviceName := [], sni := [], obfs := [], obfsPassword := [], flow := [], packetEncoding := [],
    udp := false, original, tls := false, insecure := false }

/-- What is used of libraries to read nodes: `Url` and `serde_json::from_slice`. -/
structure Codec where
  url : Url.Library
  fromSlice : List UInt8 → Option Json

/-- A parser of URLs alone. -/
def urlCodec : Codec where
  url := Url.simple
  fromSlice _ := none

/-! ### Values in a query -/

/-- `query_value_optional`: the first value whose key is one of the names, in either case. -/
def queryValueOptional (url : Url) (names : List String) : Option (List Char) :=
  ((pairs (url.query.getD [])).find? fun pair =>
    names.any fun name => eqIgnoreAsciiCase pair.1 name.toList).map (·.2)

/-- `query_value` -/
def queryValue (url : Url) (names : List String) : List Char :=
  (queryValueOptional url names).getD []

/-! ### Base64 -/

/-- `STANDARD`, `STANDARD_NO_PAD`, `URL_SAFE` and `URL_SAFE_NO_PAD`. -/
def engines : List Base64.Engine :=
  [⟨false, true⟩, ⟨false, false⟩, ⟨true, true⟩, ⟨true, false⟩]

/-- `decode_base64`: without its blanks, in the first form that accepts it. -/
def decodeBase64 (value : List Char) : Option (List UInt8) :=
  engines.findSome? (·.decode (value.filter (!isWhitespace ·)))

/-- `String::from_utf8`, whose error is without the place it names. -/
def fromUtf8OrError (bytes : List UInt8) : Except AnyhowError (List Char) :=
  okOr (ofUtf8 bytes) "invalid utf-8 sequence"

/-! ### Nodes from URLs -/

/-- Whether a node uses TLS, by its kind unless its URI says so. -/
def urlTls (kind : Kind) (security : List Char) : Bool :=
  if security = [] then kind ∉ [Kind.vless, .vmess, .ssh]
  else toAsciiLowercase security ∉ ["none".toList, "false".toList]

/-- The node `parse_url_node` reads from the parts of a URL. -/
def urlNode (kind : Kind) (uri : List Char) (url : Url) (server : List Char) : Node :=
  let username := decodeComponent url.username
  let urlPassword := (url.password.map decodeComponent).getD []
  let network := queryValue url ["type"]
  let packetEncoding := queryValueOptional url ["packetEncoding", "packet-encoding"]
  let tls := urlTls kind (queryValue url ["security"])
  let insecure := queryValue url ["allowInsecure", "insecure"]
  let host := queryValue url ["host"]
  let sni := queryValue url ["sni"]
  let sni := if sni = [] ∧ host ≠ [] then host else sni
  { Node.empty kind uri with
    server
    port := url.port.getD 443
    name := ((url.fragment.map decodeComponent).filter (· ≠ [])).getD server
    username
    uuid := if kind = .vless ∨ kind = .tuic then username else []
    password :=
      match kind with
      | .tuic | .ssh => urlPassword
      | .hysteria2 => if urlPassword = [] then username else username ++ ':' :: urlPassword
      | _ => []
    privateKey := if kind = .ssh then queryValue url ["private-key", "privateKey"] else []
    hostKey := if kind = .ssh then queryValue url ["host-key", "hostKey"] else []
    network := if network = [] then "tcp".toList else network
    path := queryValue url ["path"]
    host
    serviceName := queryValue url ["serviceName"]
    sni := if sni = [] ∧ tls = true then server else sni
    flow := queryValue url ["flow"]
    packetEncoding := packetEncoding.getD []
    udp := packetEncoding.isSome
    obfs := queryValue url ["obfs"]
    obfsPassword := queryValue url ["obfs-password", "obfsPassword"]
    tls
    insecure := insecure = "1".toList ∨ eqIgnoreAsciiCase insecure "true".toList }

/-- The credentials a node of its kind needs are there. -/
def Node.hasCredentials (node : Node) : Prop :=
  ¬ ((node.kind = .vless ∨ node.kind = .tuic) ∧ node.uuid = [] ∨
    node.kind = .hysteria2 ∧ node.password = [] ∨
    node.kind = .ssh ∧ (node.username = [] ∨ node.privateKey = []))

instance (node : Node) : Decidable node.hasCredentials := inferInstanceAs (Decidable (¬ _))

/-- `parse_url_node` -/
def parseUrlNode (codec : Codec) (uri : List Char) (kind : Kind) : Except AnyhowError Node := do
  let url ← okOr (codec.url.parse uri) "invalid proxy URI"
  let server ← okOr url.host "proxy server is missing"
  let node := urlNode kind uri url server
  ensure node.hasCredentials "proxy credentials are missing"
  return node

/-! ### Shadowsocks -/

/-- The credentials before the server: with a colon once they are decoded, or in Base64. -/
def readCredentials (credentials : List Char) : Except AnyhowError (List Char) := do
  let decoded := decodeComponent credentials
  if contains [':'] decoded then return decoded
  fromUtf8OrError (← okOr (decodeBase64 decoded) "invalid Shadowsocks credentials")

/-- The credentials and the server, if the authority is not in Base64 as a whole. -/
def readAuthority (authority : List Char) : Except AnyhowError (List Char × List Char) :=
  match rsplitOnce '@' authority with
  | some (credentials, server) => do return (← readCredentials credentials, server)
  | none => do
    let decoded ← fromUtf8OrError (← okOr (decodeBase64 authority) "invalid Shadowsocks URI")
    okOr (rsplitOnce '@' decoded) "invalid Shadowsocks URI"

/-- `split_server_port` -/
def splitServerPort (codec : Codec) (value : List Char) : Except AnyhowError (List Char × Nat) := do
  let url ← okOr (codec.url.parse ("tcp://".toList ++ value)) "invalid proxy server address"
  return (← okOr url.host "proxy server is missing", url.port.getD 443)

/-- `parse_shadowsocks` -/
def parseShadowsocks (codec : Codec) (uri : List Char) : Except AnyhowError Node := do
  let rest ← okOr (stripStart "ss://".toList uri) "invalid Shadowsocks URI"
  let fragment := (splitOnce ['#'] rest).map fun pair => decodeComponent pair.2
  let authority := (rest.takeWhile (· ≠ '#')).takeWhile (· ≠ '?')
  let (credentials, serverPort) ← readAuthority authority
  let (method, password) ← okOr (splitOnce [':'] credentials) "invalid Shadowsocks credentials"
  let (server, port) ← splitServerPort codec serverPort
  ensure (method ≠ [] ∧ password ≠ []) "invalid Shadowsocks credentials"
  return { Node.empty .shadowsocks uri with
    name := (fragment.filter (· ≠ [])).getD server, server, port, method, password }

/-! ### VMess -/

/-- The port of a VMess node: a number, or a text of one. -/
def vmessPort (port : Json) : Option Nat :=
  ((port.asU64.filter (· < 2 ^ 16)).or
    (port.asStr.bind fun text => (parseU16 text).toOption))

/-- `parse_vmess` -/
def parseVmess (codec : Codec) (uri : List Char) : Except AnyhowError Node := do
  let encoded ← okOr (stripStart "vmess://".toList uri) "invalid VMess URI"
  let decoded ← okOr (decodeBase64 (encoded.takeWhile (· ≠ '#'))) "invalid VMess payload"
  let value ← okOr (codec.fromSlice decoded) "invalid VMess JSON"
  let string := fun key => ((value.get key).bind Json.asStr).getD []
  let server := string "add"
  let name := (((splitOnce ['#'] uri).map fun pair => decodeComponent pair.2).filter (· ≠ [])).getD
    (string "ps")
  let network := string "net"
  let tls := decide (toAsciiLowercase (string "tls") ∉ [[], "none".toList])
  let sni := string "sni"
  ensure (server ≠ [] ∧ string "id" ≠ []) "VMess server or UUID is missing"
  return { Node.empty .vmess uri with
    server
    port := ((value.get "port").bind vmessPort).getD 443
    uuid := string "id"
    name := if name = [] then server else name
    network := if network = [] then "tcp".toList else network
    path := string "path"
    host := string "host"
    tls
    sni := if sni = [] ∧ tls = true then server else sni }

/-! ### URIs -/

/-- The kinds whose URIs are read as URLs, by their schemes. -/
def urlKind (scheme : List Char) : Option Kind :=
  if scheme = "vless".toList then some .vless
  else if scheme ∈ ["hysteria2".toList, "hy2".toList, "hysteria".toList] then some .hysteria2
  else if scheme = "tuic".toList then some .tuic
  else if scheme = "ssh".toList then some .ssh
  else none

/-- `parse_node` -/
def parseNode (codec : Codec) (uri : List Char) : Except AnyhowError Node := do
  let (scheme, _) ← okOr (splitOnce "://".toList uri) "invalid proxy URI"
  let scheme := toAsciiLowercase scheme
  if scheme = "ss".toList then parseShadowsocks codec uri
  else if scheme = "vmess".toList then parseVmess codec uri
  else
    match urlKind scheme with
    | some kind => parseUrlNode codec uri kind
    | none => .error ["unsupported proxy URI"]

variable {codec : Codec} {uri : List Char} {node : Node}

theorem parseUrlNode_ok_iff {kind : Kind} :
    parseUrlNode codec uri kind = .ok node ↔
      ∃ url server, codec.url.parse uri = some url ∧ url.host = some server ∧
        node = urlNode kind uri url server ∧ node.hasCredentials := by
  simp only [parseUrlNode, bind_ok_iff, okOr_ok_iff]
  constructor
  · rintro ⟨url, hurl, server, hserver, _, hensure, hnode⟩
    cases hnode
    exact ⟨url, server, hurl, hserver, rfl, ensure_ok_iff.mp hensure⟩
  · rintro ⟨url, server, hurl, hserver, rfl, hcredentials⟩
    exact ⟨url, hurl, server, hserver, (), ensure_ok_iff.mpr hcredentials, rfl⟩

/-- The node of a Shadowsocks URI. -/
def ssNode (uri : List Char) (fragment : Option (List Char)) (server : List Char) (port : Nat)
    (method password : List Char) : Node :=
  { Node.empty .shadowsocks uri with
    name := (fragment.filter (· ≠ [])).getD server, server, port, method, password }

theorem parseShadowsocks_ok_iff :
    parseShadowsocks codec uri = .ok node ↔
      ∃ rest text address method password server port,
        stripStart "ss://".toList uri = some rest ∧
        readAuthority ((rest.takeWhile (· ≠ '#')).takeWhile (· ≠ '?')) = .ok (text, address) ∧
        splitOnce [':'] text = some (method, password) ∧
        splitServerPort codec address = .ok (server, port) ∧ method ≠ [] ∧ password ≠ [] ∧
        node = ssNode uri ((splitOnce ['#'] rest).map fun pair => decodeComponent pair.2)
          server port method password := by
  simp only [parseShadowsocks, bind_ok_iff, okOr_ok_iff]
  constructor
  · rintro ⟨rest, hrest, ⟨text, address⟩, htext, ⟨method, password⟩, hmethod, ⟨server, port⟩,
      hserver, _, hensure, hnode⟩
    obtain ⟨hmethod', hpassword'⟩ := ensure_ok_iff.mp hensure
    cases hnode
    exact ⟨rest, text, address, method, password, server, port, hrest, htext, hmethod, hserver,
      hmethod', hpassword', rfl⟩
  · rintro ⟨rest, text, address, method, password, server, port, hrest, htext, hmethod, hserver,
      hmethod', hpassword', rfl⟩
    exact ⟨rest, hrest, (text, address), htext, (method, password), hmethod, (server, port),
      hserver, (), ensure_ok_iff.mpr ⟨hmethod', hpassword'⟩, rfl⟩

variable (codec uri node) in
/-- A URI of a scheme is read as a node. -/
def SchemeNode (scheme : List Char) : Prop :=
  (scheme = "ss".toList ∧ parseShadowsocks codec uri = .ok node) ∨
    (scheme = "vmess".toList ∧ parseVmess codec uri = .ok node) ∨
    ∃ kind, urlKind scheme = some kind ∧ parseUrlNode codec uri kind = .ok node

theorem parseNode_ok_iff :
    parseNode codec uri = .ok node ↔ ∃ scheme rest,
      splitOnce "://".toList uri = some (scheme, rest) ∧
      SchemeNode codec uri node (toAsciiLowercase scheme) := by
  have hss : urlKind "ss".toList = none := by decide
  have hvmess : urlKind "vmess".toList = none := by decide
  simp only [parseNode, bind_ok_iff, okOr_ok_iff, Prod.exists]
  refine exists_congr fun scheme => exists_congr fun rest => and_congr_right fun _ => ?_
  generalize toAsciiLowercase scheme = scheme
  rw [SchemeNode]
  by_cases h₁ : scheme = "ss".toList
  · rw [if_pos h₁, h₁, hss]
    simp
  by_cases h₂ : scheme = "vmess".toList
  · rw [if_neg h₁, if_pos h₂, h₂, hvmess]
    simp
  · rw [if_neg h₁, if_neg h₂, or_iff_right fun h => h₁ h.1, or_iff_right fun h => h₂ h.1]
    cases urlKind scheme <;> simp

/-- **A node keeps its URI.** -/
theorem parseNode_original (h : parseNode codec uri = .ok node) : node.original = uri := by
  obtain ⟨scheme, rest, -, ⟨-, h⟩ | ⟨-, h⟩ | ⟨kind, -, h⟩⟩ := parseNode_ok_iff.mp h
  · obtain ⟨_, _, _, _, _, _, _, -, -, -, -, -, -, rfl⟩ := parseShadowsocks_ok_iff.mp h
    rfl
  · simp only [parseVmess, bind_ok_iff] at h
    obtain ⟨_, -, _, -, _, -, _, -, hnode⟩ := h
    cases hnode
    rfl
  · obtain ⟨url, server, -, -, rfl, -⟩ := parseUrlNode_ok_iff.mp h
    rfl

end SingBoxMini.Sublink
