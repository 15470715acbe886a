import SingBoxMini.Sublink.Nodes
import SingBoxMini.Sublink.Rules

/-!
# Sublink — Render

The configurations a subscription is converted to: for sing-box as JSON, for Clash as YAML and for
Surge as text.  Texts are lists of lines, as they are written.

* `singboxNode_server`, `clashProxy_server`: where the server of a node is in two of them.
-/

namespace SingBoxMini.Sublink
open Bytes Text

/-- `SITE_RULE_BASE` -/
def siteRuleBase : String :=
  "https://gh-proxy.com/https://github.com/MetaCubeX/meta-rules-dat/raw/refs/heads/meta/geo/geosite/"
/-- `IP_RULE_BASE` -/
def ipRuleBase : String :=
  "https://gh-proxy.com/https://github.com/MetaCubeX/meta-rules-dat/raw/refs/heads/meta/geo/geoip/"
/-- `SINGBOX_SITE_RULE_BASE` -/
def singboxSiteRuleBase : String :=
  "https://gh-proxy.com/https://github.com/MetaCubeX/meta-rules-dat/raw/refs/heads/sing/geo/geosite/"
/-- `SINGBOX_IP_RULE_BASE` -/
def singboxIpRuleBase : String :=
  "https://gh-proxy.com/https://github.com/MetaCubeX/meta-rules-dat/raw/refs/heads/sing/geo/geoip/"
/-- `SURGE_SITE_RULE_BASE` -/
def surgeSiteRuleBase : String :=
  "https://gh-proxy.com/https://github.com/NSZA156/surge-geox-rules/raw/refs/heads/release/geo/geosite/"
/-- `SURGE_IP_RULE_BASE` -/
def surgeIpRuleBase : String :=
  "https://gh-proxy.com/https://github.com/NSZA156/surge-geox-rules/raw/refs/heads/release/geo/geoip/"

/-- The text of a kind. -/
def Kind.text : Kind → String
  | .shadowsocks => "shadowsocks"
  | .vmess => "vmess"
  | .vless => "vless"
  | .hysteria2 => "hysteria2"
  | .tuic => "tuic"
  | .ssh => "ssh"

/-- The text of a kind, where Shadowsocks is abbreviated. -/
def Kind.short (kind : Kind) : String := if kind = .shadowsocks then "ss" else kind.text

/-- `rule_policy` -/
def rulePolicy : RuleAction → String
  | .proxy => "PROXY"
  | .direct => "DIRECT"
  | .reject => "REJECT"

/-- `proxy_node_names` -/
def proxyNodeNames (nodes : List Node) : List (List Char) :=
  if nodes.any (·.kind = .ssh) then
    (nodes.filter (·.kind = .ssh) ++ nodes.filter (·.kind = .vless) ++
      nodes.filter (·.kind ∉ [Kind.ssh, .vless])).map Node.name
  else if 2 ≤ nodes.length ∧ nodes.any (·.kind = .hysteria2) = true ∧
      nodes.any (·.kind = .vless) = true ∧ (nodes.all fun node =>
        node.server = (nodes.head?.map Node.server).getD [] ∧
          node.port = (nodes.head?.map Node.port).getD 0) = true then
    (nodes.filter (·.kind = .vless) ++ nodes.filter (·.kind = .hysteria2)).map Node.name
  else nodes.map Node.name

/-- The packet encoding of a VLESS node. -/
def packetEncodingOf (node : Node) : List Char :=
  if eqIgnoreAsciiCase node.packetEncoding "none".toList then [] else node.packetEncoding

/-! ### sing-box -/

/-- A JSON string. -/
def text (s : String) : Json := .string s.toList

/-- The credentials of a node. -/
def singboxCredentials (node : Node) : List (String × Json) :=
  match node.kind with
  | .shadowsocks => [("method", .string node.method), ("password", .string node.password)]
  | .vmess => [("uuid", .string node.uuid)]
  | .vless => [("uuid", .string node.uuid)] ++
      (if node.flow = [] then [] else [("flow", .string node.flow)]) ++
      (if node.udp then [("packet_encoding", .string (packetEncodingOf node))] else [])
  | .tuic => [("uuid", .string node.uuid), ("password", .string node.password)]
  | .hysteria2 | .ssh => [("password", .string node.password)]

/-- How a node is connected to. -/
def singboxTransport (node : Node) : List (String × Json) :=
  (if node.tls then
    [("tls", .ofFields [("enabled", .bool true), ("server_name", .string node.sni),
      ("insecure", .bool node.insecure)])]
    else []) ++
  (if node.kind = .hysteria2 ∧ node.obfs = "salamander".toList then
    [("obfs", .ofFields [("type", text "salamander"), ("password", .string node.obfsPassword)])]
    else []) ++
  (if node.network ≠ "tcp".toList ∧ node.kind ≠ .shadowsocks then
    [("transport", .ofFields ([("type", .string node.network)] ++
      (if node.path = [] then [] else [("path", .string node.path)]) ++
      (if node.host = [] then [] else [("headers", .ofFields [("Host", .string node.host)])]) ++
      (if node.serviceName = [] then [] else [("service_name", .string node.serviceName)])))]
    else [])

/-- `singbox_node` -/
def singboxNode (node : Node) : Json :=
  .ofFields ([("type", text node.kind.text), ("tag", .string node.name),
    ("server", .string node.server), ("server_port", .number node.port)] ++
    (singboxCredentials node ++ singboxTransport node))

theorem mem_ite_singleton {α : Type} {p : Prop} [Decidable p] {a b : α}
    (h : a ∈ if p then [b] else []) : a = b := by
  split_ifs at h
  · exact List.mem_singleton.mp h
  · cases h

theorem mem_ite_nil {α : Type} {p : Prop} [Decidable p] {a b : α}
    (h : a ∈ if p then [] else [b]) : a = b := by
  split_ifs at h
  · cases h
  · exact List.mem_singleton.mp h

theorem singboxCredentials_keys (node : Node) :
    ∀ field ∈ singboxCredentials node,
      field.1 ∈ ["method", "password", "uuid", "flow", "packet_encoding"] := by
  intro field hfield
  rw [singboxCredentials] at hfield
  cases hkind : node.kind with
  | vless =>
      simp only [hkind, List.mem_append, List.mem_singleton] at hfield
      rcases hfield with (rfl | hfield) | hfield
      · simp
      · simp [mem_ite_nil hfield]
      · simp [mem_ite_singleton hfield]
  | shadowsocks | tuic =>
      simp only [hkind, List.mem_cons, List.not_mem_nil, or_false] at hfield
      rcases hfield with rfl | rfl <;> simp
  | vmess | hysteria2 | ssh =>
      simp only [hkind, List.mem_singleton] at hfield
      simp [hfield]

theorem singboxTransport_keys (node : Node) :
    ∀ field ∈ singboxTransport node, field.1 ∈ ["tls", "obfs", "transport"] := by
  intro field hfield
  rw [singboxTransport, List.mem_append, List.mem_append] at hfield
  rcases hfield with (hfield | hfield) | hfield <;> simp [mem_ite_singleton hfield]

/-- What each outbound has, whatever its kind. -/
theorem singboxNode_get_base {key : String} (hkey : key ∈ ["type", "tag", "server", "server_port"])
    (node : Node) :
    (singboxNode node).get key = [("server_port", .number node.port),
      ("server", .string node.server), ("tag", .string node.name),
      ("type", text node.kind.text)].lookup key := by
  have hkeys : (singboxCredentials node ++ singboxTransport node).reverse.lookup key = none := by
    rw [List.lookup_eq_none_iff]
    intro field hfield
    rw [List.mem_reverse, List.mem_append] at hfield
    rcases hfield with hfield | hfield
    · have hfieldkey := singboxCredentials_keys node field hfield
      grind
    · have hfieldkey := singboxTransport_keys node field hfield
      grind
  rw [singboxNode, Json.get_ofFields, List.reverse_append, List.lookup_append, hkeys]
  rfl

/-- **The server of a sing-box outbound** is the node's. -/
theorem singboxNode_server (node : Node) :
    (singboxNode node).get "server" = some (.string node.server) := by
  rw [singboxNode_get_base (by simp)]
  rfl

theorem singboxNode_tag (node : Node) :
    (singboxNode node).get "tag" = some (.string node.name) := by
  rw [singboxNode_get_base (by simp)]
  rfl

/-- `domain_rule_fields` -/
def domainRuleFields (rules : List DomainRule) : List (List Char) × List (List Char) :=
  (rules.filterMap fun rule => match rule with | .exactly domain => some domain | _ => none,
    rules.filterMap fun rule => match rule with | .suffix domain => some domain | _ => none)

/-- The domains of rules, as fields. -/
def domainFields (rules : List DomainRule) : List (String × Json) :=
  let (full, suffix) := domainRuleFields rules
  (if full = [] then [] else [("domain", .array (full.map .string))]) ++
    (if suffix = [] then [] else [("domain_suffix", .array (suffix.map .string))])

/-- What a sing-box rule does. -/
def singboxAction (action : RuleAction) : String × Json :=
  match action with
  | .proxy => ("outbound", text "PROXY")
  | .direct => ("outbound", text "DIRECT")
  | .reject => ("action", text "reject")

/-- `push_singbox_custom_rule` -/
def singboxCustomRule (rules : List DomainRule) (action : RuleAction) : List Json :=
  if rules = [] then [] else [.ofFields (domainFields rules ++ [singboxAction action])]

/-- `push_singbox_dns_rule` -/
def singboxDnsRule (rules : List DomainRule) (action : String) (server : Option String) :
    List Json :=
  if rules = [] then []
  else [.ofFields ([("action", text action)] ++ domainFields rules ++
    (server.map fun server => ("server", text server)).toList)]

/-- A rule set of `render_singbox`. -/
def singboxRuleSet (tag url : String) : Json :=
  .ofFields [("type", text "remote"), ("tag", text tag), ("format", text "binary"),
    ("url", text url), ("download_detour", text "DIRECT")]

/-- The rule sets of a rule. -/
def singboxRuleSets (rule : RuleSpec) : List Json :=
  (rule.sites.map fun site => singboxRuleSet site (singboxSiteRuleBase ++ site ++ ".srs")) ++
    rule.ips.map fun ip => singboxRuleSet (ip ++ "-ip") (singboxIpRuleBase ++ ip ++ ".srs")

/-- The route rule of a rule. -/
def singboxRouteRule (rule : RuleSpec) : Json :=
  .ofFields
    [("rule_set", .array (rule.sites.map text ++ rule.ips.map fun ip => text (ip ++ "-ip"))),
      singboxAction rule.action]

/-- The name servers of `render_singbox`. -/
def singboxDns (customRules : CustomRules) (chinaOptimized : Bool) : Json :=
  if chinaOptimized then
    let cnServer := fun tag server => Json.ofFields [("type", text "https"), ("tag", text tag),
      ("server", text server), ("domain_resolver", text "dns-local")]
    .ofFields [
      ("servers", .array [
        .ofFields [("type", text "local"), ("tag", text "dns-local")],
        cnServer "dns-cn-ali" "dns.alidns.com",
        cnServer "dns-cn-tencent" "doh.pub",
        .ofFields [("type", text "https"), ("tag", text "dns-global"), ("server", text "1.1.1.1"),
          ("tls", .ofFields [("enabled", .bool true), ("server_name", text "cloudflare-dns.com")]),
          ("detour", text "PROXY")]]),
      ("rules", .array (
        singboxDnsRule customRules.blacklist "reject" none ++
        singboxDnsRule customRules.whitelist "route" (some "dns-cn-ali") ++
        [.ofFields [("rule_set", text "private"), ("action", text "route"),
            ("server", text "dns-local")],
          .ofFields [("rule_set", .array (["apple-cn", "microsoft@cn", "steam@cn",
            "category-games@cn", "bilibili"].map text)), ("action", text "route"),
            ("server", text "dns-cn-ali")],
          .ofFields [("rule_set", .array (["geolocation-cn", "cn"].map text)),
            ("action", text "route"), ("server", text "dns-cn-tencent")]])),
      ("final", text "dns-global")]
  else
    .ofFields [
      ("servers", .array [.ofFields [("type", text "udp"), ("tag", text "dns"),
        ("server", text "223.5.5.5")]]),
      ("final", text "dns")]

/-- `render_singbox`, before it is written as text. -/
def renderSingbox (nodes : List Node) (selectedRules : List RuleSpec) (customRules : CustomRules)
    (chinaOptimized : Bool) : Json :=
  let routeRules :=
    singboxCustomRule customRules.blacklist .reject ++
      singboxCustomRule customRules.whitelist .direct ++ selectedRules.map singboxRouteRule
  .ofFields [
    ("log", .ofFields [("level", text "warn")]),
    ("dns", singboxDns customRules chinaOptimized),
    ("inbounds", .array []),
    ("outbounds", .array (nodes.map singboxNode ++
      [.ofFields [("type", text "selector"), ("tag", text "PROXY"),
          ("outbounds", .array ((proxyNodeNames nodes).map .string))],
        .ofFields [("type", text "direct"), ("tag", text "DIRECT")]])),
    ("route", .ofFields ([("rules", .array routeRules),
      ("rule_set", .array (selectedRules.flatMap singboxRuleSets)), ("final", text "PROXY")] ++
        if chinaOptimized then [("default_domain_resolver", text "dns-local")] else []))]

/-! ### Clash -/

/-- `yaml_quote` -/
def yamlQuote (value : List Char) : List Char :=
  '\'' :: ((value.flatMap fun c => if c = '\'' then ['\'', '\''] else [c]).map
    (fun c => if c = '\r' ∨ c = '\n' then ' ' else c) ++ ['\''])

/-- `yaml_field` -/
def yamlField (key : String) (value : List Char) : List Char :=
  "    ".toList ++ key.toList ++ ": ".toList ++ yamlQuote value

/-- `yaml_block_field` -/
def yamlBlockField (key : String) (value : List Char) : List (List Char) :=
  ("    " ++ key ++ ": |-").toList ::
    (lines (value.filter (· ≠ '\r'))).map ("      ".toList ++ ·)

/-- The lines a node is written with in `render_clash`. -/
def clashProxy (node : Node) : List (List Char) :=
  ["  - name: ".toList ++ yamlQuote node.name, yamlField "type" node.kind.short.toList,
    yamlField "server" node.server, "    port: ".toList ++ Nat.toDigits 10 node.port] ++
  (match node.kind with
    | .ssh =>
      [yamlField "username" node.username] ++ yamlBlockField "private-key" node.privateKey ++
        (if trim node.hostKey = [] then []
          else "    host-key:".toList :: (((lines node.hostKey).map trim).filter (· ≠ [])).map
            ("      - ".toList ++ yamlQuote ·)) ++
        ["    udp: false".toList]
    | .shadowsocks => [yamlField "cipher" node.method, yamlField "password" node.password]
    | .vmess => [yamlField "uuid" node.uuid]
    | .vless => [yamlField "uuid" node.uuid,
          "    udp: ".toList ++ (if node.udp then "true".toList else "false".toList)] ++
        (if node.udp then [yamlField "packet-encoding" (packetEncodingOf node)] else [])
    | .tuic => [yamlField "uuid" node.uuid, yamlField "password" node.password]
    | .hysteria2 => [yamlField "password" node.password]) ++
  (if node.tls then
    (if node.kind = .hysteria2 then
        [yamlField "sni" node.sni, "    alpn:".toList, "      - h3".toList]
      else ["    tls: true".toList, yamlField "servername" node.sni]) ++
      (if node.insecure then ["    skip-cert-verify: true".toList] else [])
    else []) ++
  (if node.kind = .hysteria2 ∧ node.obfs = "salamander".toList then
    [yamlField "obfs" node.obfs, yamlField "obfs-password" node.obfsPassword] else []) ++
  (if node.network ≠ "tcp".toList ∧ node.kind ≠ .shadowsocks then
    [yamlField "network" node.network] ++
      (if node.network = "ws".toList ∨ node.network = "http".toList then
        ["    ".toList ++ node.network ++ "-opts:".toList] ++
          (if node.path = [] then [] else ["      path: ".toList ++ yamlQuote node.path]) ++
          (if node.host = [] then []
            else ["      headers:".toList, "        Host: ".toList ++ yamlQuote node.host])
        else [])
    else [])

/-- **The server of a Clash proxy** is the node's, quoted, on the third line. -/
theorem clashProxy_server (node : Node) :
    (clashProxy node)[2]? = some (yamlField "server" node.server) := rfl

/-- `write_clash_domain_rule` -/
def clashDomainRule (policy start : String) (rule : DomainRule) : List Char :=
  match rule with
  | .exactly domain => (start ++ "DOMAIN,").toList ++ domain ++ ("," ++ policy).toList
  | .suffix domain => (start ++ "DOMAIN-SUFFIX,").toList ++ domain ++ ("," ++ policy).toList

/-- The name servers of `render_clash`. -/
def clashDns (whitelist : List DomainRule) : List (List Char) :=
  let cn := ["      - https://dns.alidns.com/dns-query", "      - https://doh.pub/dns-query"]
  let policy := fun name => ["    'rule-set:" ++ name ++ "':"] ++ cn
  (["dns:", "  enable: true", "  ipv6: true", "  cache-algorithm: arc", "  enhanced-mode: fake-ip",
    "  fake-ip-range: 198.18.0.1/16", "  fake-ip-filter-mode: rule", "  fake-ip-filter:",
    "    - RULE-SET,private,real-ip", "    - RULE-SET,cn,real-ip"].map String.toList) ++
  whitelist.map (clashDomainRule "real-ip" "    - ") ++
  ((["    - MATCH,fake-ip", "  default-nameserver:", "    - 223.5.5.5", "    - 119.29.29.29",
    "  proxy-server-nameserver:", "    - https://dns.alidns.com/dns-query",
    "    - https://doh.pub/dns-query", "  direct-nameserver:",
    "    - https://dns.alidns.com/dns-query", "    - https://doh.pub/dns-query",
    "  direct-nameserver-follow-policy: true", "  nameserver:",
    "    - https://1.1.1.1/dns-query#PROXY", "    - https://8.8.8.8/dns-query#PROXY",
    "  nameserver-policy:", "    'rule-set:private':", "      - system"] ++
    policy "apple-cn" ++ policy "microsoft@cn" ++ policy "steam@cn" ++ policy "category-games@cn" ++
    policy "bilibili" ++ policy "geolocation-cn" ++ policy "cn" ++
    ["    'rule-set:geolocation-!cn':", "      - https://1.1.1.1/dns-query#PROXY",
      "      - https://8.8.8.8/dns-query#PROXY"]).map String.toList)

/-- A rule provider of `render_clash`. -/
def clashProvider (ruleFormat : String) (chinaOptimized : Bool) (tag behavior url path : String) :
    List (List Char) :=
  ["  ".toList ++ tag.toList ++ [':'], "    type: http".toList,
    ("    behavior: " ++ behavior).toList, ("    format: " ++ ruleFormat).toList,
    "    url: ".toList ++ yamlQuote url.toList, "    path: ".toList ++ yamlQuote path.toList,
    "    interval: 86400".toList] ++
  if chinaOptimized then ["    proxy: DIRECT".toList] else []

/-- The rule providers of a rule. -/
def clashProviders (ruleFormat : String) (chinaOptimized : Bool) (rule : RuleSpec) :
    List (List Char) :=
  (rule.sites.flatMap fun site => clashProvider ruleFormat chinaOptimized site "domain"
    (siteRuleBase ++ site ++ "." ++ ruleFormat) ("./ruleset/" ++ site ++ "." ++ ruleFormat)) ++
  rule.ips.flatMap fun ip => clashProvider ruleFormat chinaOptimized (ip ++ "-ip") "ipcidr"
    (ipRuleBase ++ ip ++ "." ++ ruleFormat) ("./ruleset/" ++ ip ++ "-ip." ++ ruleFormat)

/-- The lines of a rule. -/
def clashRule (rule : RuleSpec) : List (List Char) :=
  let policy := rulePolicy rule.action
  (rule.sites.map fun site => ("  - RULE-SET," ++ site ++ "," ++ policy).toList) ++
    rule.ips.map fun ip => ("  - RULE-SET," ++ ip ++ "-ip," ++ policy ++ ",no-resolve").toList

/-- The text of lines. -/
def unlines (ls : List (List Char)) : List Char := ls.flatMap (· ++ ['\n'])

/-- `render_clash` -/
def renderClash (nodes : List Node) (selectedRules : List RuleSpec) (customRules : CustomRules)
    (useMrs chinaOptimized : Bool) : List Char :=
  let ruleFormat := if useMrs then "mrs" else "yaml"
  unlines (
    (["mixed-port: 7890", "mode: rule", "allow-lan: false", "log-level: warning",
      "proxies:"].map String.toList) ++
    nodes.flatMap clashProxy ++
    (["proxy-groups:", "  - name: PROXY", "    type: select", "    proxies:"].map String.toList) ++
    (proxyNodeNames nodes).map ("      - ".toList ++ yamlQuote ·) ++
    ["      - DIRECT".toList] ++
    (if chinaOptimized ∧ useMrs then clashDns customRules.whitelist else []) ++
    (if selectedRules = [] then []
      else "rule-providers:".toList ::
        selectedRules.flatMap (clashProviders ruleFormat chinaOptimized)) ++
    ["rules:".toList] ++
    customRules.blacklist.map (clashDomainRule "REJECT" "  - ") ++
    customRules.whitelist.map (clashDomainRule "DIRECT" "  - ") ++
    selectedRules.flatMap clashRule ++
    ["  - MATCH,PROXY".toList])

/-! ### Surge -/

/-- `surge_value` -/
def surgeValue (value : List Char) : List Char :=
  value.map fun c => if c ∈ ['\r', '\n', ','] then '_' else c

/-- The line a node is written with in `render_surge`. -/
def surgeProxy (node : Node) : List Char :=
  surgeValue node.name ++ " = ".toList ++ node.kind.short.toList ++ [','] ++
  surgeValue node.server ++ [','] ++ Nat.toDigits 10 node.port ++
  (match node.kind with
    | .shadowsocks => ",encrypt-method=".toList ++ surgeValue node.method ++ ",password=".toList ++
        surgeValue node.password
    | .vmess | .vless => ",username=".toList ++ surgeValue node.uuid
    | _ => ",password=".toList ++ surgeValue node.password) ++
  (if node.tls then ",tls=true".toList else []) ++
  (if node.sni = [] then [] else ",sni=".toList ++ surgeValue node.sni)

/-- The lines of a rule. -/
def surgeRule (rule : RuleSpec) : List (List Char) :=
  let policy := rulePolicy rule.action
  (rule.sites.map fun site =>
    ("RULE-SET," ++ surgeSiteRuleBase ++ site ++ ".conf," ++ policy).toList) ++
  rule.ips.map fun ip =>
    ("RULE-SET," ++ surgeIpRuleBase ++ ip ++ ".txt," ++ policy ++ ",no-resolve").toList

/-- `render_surge` -/
def renderSurge (nodes : List Node) (selectedRules : List RuleSpec) (customRules : CustomRules)
    (chinaOptimized : Bool) : List Char :=
  unlines (
    ["[General]".toList, "loglevel = notify".toList] ++
    (if chinaOptimized then ["dns-server = 223.5.5.5, 119.29.29.29".toList] else []) ++
    [[], "[Proxy]".toList] ++ nodes.map surgeProxy ++
    [[], "[Proxy Group]".toList,
      "PROXY = select,".toList ++ [','].intercalate ((proxyNodeNames nodes).map surgeValue) ++
        ",DIRECT".toList, [], "[Rule]".toList] ++
    customRules.blacklist.map (clashDomainRule "REJECT" "") ++
    customRules.whitelist.map (clashDomainRule "DIRECT" "") ++
    selectedRules.flatMap surgeRule ++
    ["FINAL,PROXY".toList])

end SingBoxMini.Sublink
