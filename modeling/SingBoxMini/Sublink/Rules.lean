import SingBoxMini.Support.Bytes
import SingBoxMini.Support.Text

/-!
# Sublink — Rules

The routing rules of a converted subscription: those of a preset, with the advertisements if they
are to be blocked, and the domains a user allows or blocks.

* `selectedRuleSpecs_adBlock`: blocking advertisements puts its rule in front, unless the preset has
  it anyway.
-/

namespace SingBoxMini.Sublink
open Bytes Text

/-- `RulePreset` -/
inductive RulePreset where
  | minimal
  | balanced
  | comprehensive
  | china
deriving DecidableEq, Repr

/-- `RuleAction` -/
inductive RuleAction where
  | proxy
  | direct
  | reject
deriving DecidableEq, Repr

/-- `RuleSpec` -/
structure RuleSpec where
  name : String
  sites : List String
  ips : List String
  action : RuleAction
deriving DecidableEq, Repr

/-- `DomainRule::Exact` and `DomainRule::Suffix`. -/
inductive DomainRule where
  | exactly (domain : List Char)
  | suffix (domain : List Char)
deriving DecidableEq, Repr

/-- The domain of a rule. -/
def DomainRule.domain : DomainRule → List Char
  | .exactly domain => domain
  | .suffix domain => domain

/-- `CustomRules` -/
structure CustomRules where
  whitelist : List DomainRule
  blacklist : List DomainRule
deriving DecidableEq, Repr

/-- `RULES` -/
def rules : List RuleSpec :=
  [⟨"Ad Block", ["category-ads-all"], [], .reject⟩,
   ⟨"AI Services", ["category-ai-!cn"], [], .proxy⟩,
   ⟨"Bilibili", ["bilibili"], [], .proxy⟩,
   ⟨"Youtube", ["youtube"], [], .proxy⟩,
   ⟨"Google", ["google"], ["google"], .proxy⟩,
   ⟨"Private", [], ["private"], .direct⟩,
   ⟨"Location:CN", ["geolocation-cn", "cn"], ["cn"], .direct⟩,
   ⟨"Telegram", [], ["telegram"], .proxy⟩,
   ⟨"Github", ["github", "gitlab"], [], .proxy⟩,
   ⟨"Microsoft", ["microsoft"], [], .proxy⟩,
   ⟨"Apple", ["apple"], [], .proxy⟩,
   ⟨"Social Media", ["facebook", "instagram", "twitter", "tiktok", "linkedin"], [], .proxy⟩,
   ⟨"Streaming", ["netflix", "hulu", "disney", "hbo", "amazon", "bahamut"], [], .proxy⟩,
   ⟨"Gaming", ["steam", "epicgames", "ea", "ubisoft", "blizzard"], [], .proxy⟩,
   ⟨"Education", ["coursera", "edx", "udemy", "khanacademy", "category-scholar-!cn"], [], .proxy⟩,
   ⟨"Financial", ["paypal", "visa", "mastercard", "stripe", "wise"], [], .proxy⟩,
   ⟨"Cloud Services", ["aws", "azure", "digitalocean", "heroku", "dropbox"], [], .proxy⟩,
   ⟨"Non-China", ["geolocation-!cn"], [], .proxy⟩]

/-- `CHINA_RULES` -/
def chinaRules : List RuleSpec :=
  [⟨"Ad Block", ["category-ads-all"], [], .reject⟩,
   ⟨"Private", ["private"], ["private"], .direct⟩,
   ⟨"China Services", ["apple-cn", "microsoft@cn", "steam@cn", "category-games@cn", "bilibili"], [],
    .direct⟩,
   ⟨"AI Services", ["category-ai-!cn"], [], .proxy⟩,
   ⟨"Youtube", ["youtube"], [], .proxy⟩,
   ⟨"Google", ["google"], ["google"], .proxy⟩,
   ⟨"Telegram", [], ["telegram"], .proxy⟩,
   ⟨"Github", ["github", "gitlab"], [], .proxy⟩,
   ⟨"Location:CN", ["geolocation-cn", "cn"], ["cn"], .direct⟩,
   ⟨"Non-China", ["geolocation-!cn"], [], .proxy⟩]

/-- `parse_rule_preset` -/
def parseRulePreset (value : List Char) : Except AnyhowError RulePreset :=
  let value := toAsciiLowercase (trim value)
  if value = "minimal".toList then .ok .minimal
  else if value = "balanced".toList then .ok .balanced
  else if value = "comprehensive".toList then .ok .comprehensive
  else if value = "china".toList then .ok .china
  else .error ["invalid selectedRules preset"]

/-- The rules of a preset other than `china`. -/
def included (preset : Option RulePreset) (rule : RuleSpec) : Bool :=
  match preset with
  | none => false
  | some .minimal => rule.name ∈ ["Location:CN", "Private", "Non-China"]
  | some .balanced => rule.name ∈ ["Location:CN", "Private", "Non-China", "Github", "Google",
      "Youtube", "AI Services", "Telegram"]
  | some .comprehensive => true
  | some .china => false

/-- `selected_rule_specs` -/
def selectedRuleSpecs (preset : Option RulePreset) (adBlock : Bool) : List RuleSpec :=
  if preset = some .china then chinaRules.filter fun rule => adBlock || rule.name ≠ "Ad Block"
  else rules.filter fun rule => included preset rule || (adBlock && rule.name = "Ad Block")

/-- The rule that blocks advertisements. -/
def adBlockRule : RuleSpec := ⟨"Ad Block", ["category-ads-all"], [], .reject⟩

/-- **Blocking advertisements is one more rule**, in front. -/
theorem selectedRuleSpecs_adBlock {preset : Option RulePreset}
    (h : preset ≠ some .comprehensive) :
    selectedRuleSpecs preset true = adBlockRule :: selectedRuleSpecs preset false := by
  rcases preset with _ | _ | _ | _ | _
  · decide
  · decide
  · decide
  · exact absurd rfl h
  · decide

/-- The comprehensive preset has it anyway. -/
theorem selectedRuleSpecs_comprehensive (adBlock : Bool) :
    selectedRuleSpecs (some .comprehensive) adBlock =
      selectedRuleSpecs (some .comprehensive) true := by
  cases adBlock <;> decide

/-! ### Domains of a user -/

/-- What `Host::parse` returns. -/
inductive Host where
  | domain (domain : List Char)
  | ipv4
  | ipv6
deriving DecidableEq, Repr

/-- The domains of a text. -/
def domainsOf (value : List Char) : List (List Char) :=
  ((value.splitOnP (· ∈ [',', '\n', '\r'])).map trim).filter (· ≠ [])

/-- Whether a domain stands for those below it, and the domain. -/
def markedDomain (raw : List Char) : Bool × List Char :=
  match stripStart "*.".toList raw, stripStart ".".toList raw with
  | some domain, _ => (true, domain)
  | none, some domain => (true, domain)
  | none, none => (false, raw)

/-- A domain without marks and dots at its end. -/
def bareDomain (raw : List Char) : List Char := trimEndMatches '.' (markedDomain raw).2

/-- One domain of `parse_domain_rules`. -/
def parseDomain (parseHost : List Char → Option Host) (label : String) (raw : List Char) :
    Except AnyhowError DomainRule := do
  let domain := bareDomain raw
  let invalid := "invalid " ++ label ++ " domain: " ++ String.ofList raw
  ensure (domain ≠ [] ∧ '*' ∉ domain ∧ domain.any isWhitespace = false) invalid
  match ← okOr (parseHost domain) invalid with
  | .domain domain => return if (markedDomain raw).1 then .suffix domain else .exactly domain
  | _ => .error [label ++ " only supports domain names: " ++ String.ofList raw]

/-- `parse_domain_rules`, with `Host::parse`.  The set of the rules seen has those kept. -/
def parseDomainRules (parseHost : List Char → Option Host) (value : List Char) (label : String) :
    Except AnyhowError (List DomainRule) := do
  ensure ((utf8 value).length ≤ 8 * 1024) (label ++ " is too large")
  let rules ← (domainsOf value).foldlM (fun rules raw => do
    let rule ← parseDomain parseHost label raw
    return if rule ∈ rules then rules else rules ++ [rule]) []
  ensure (rules.length ≤ 128) ("too many " ++ label ++ " domains")
  return rules

/-- `validate_custom_rule_values` -/
def validateCustomRuleValues (parseHost : List Char → Option Host) (values : List String)
    (label : String) : Except AnyhowError Unit := do
  let _ ← parseDomainRules parseHost ("\n".intercalate values).toList label
  return ()

/-- `parse_custom_rules` -/
def parseCustomRules (parseHost : List Char → Option Host)
    (whitelist blacklist : Option (List Char)) :
    Except AnyhowError CustomRules := do
  let whitelist ← parseDomainRules parseHost (whitelist.getD []) "whitelist"
  let blacklist ← parseDomainRules parseHost (blacklist.getD []) "blacklist"
  return ⟨whitelist, blacklist⟩

end SingBoxMini.Sublink
