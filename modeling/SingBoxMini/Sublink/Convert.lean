import SingBoxMini.Sublink.Input
import SingBoxMini.Sublink.Render

/-!
# Sublink — Convert

The conversion of a subscription (`convert_with_rule_format`) to each of the formats, and how a
format is chosen.

* `convert_flag_iff`: when the flag that blocks advertisements makes no difference.
-/

namespace SingBoxMini.Sublink
open Bytes Text Percent

/-! ### Formats -/

/-- The formats of the output. -/
inductive Format where
  | singbox
  | clash
  | surge
  | xray
deriving DecidableEq, Repr

namespace Format

/-- The name of a format. -/
def text : Format → String
  | .singbox => "singbox"
  | .clash => "clash"
  | .surge => "surge"
  | .xray => "xray"

/-- The first part of the path of a short link. -/
def letter : Format → String
  | .singbox => "b"
  | .clash => "c"
  | .surge => "s"
  | .xray => "x"

end Format

/-- `format_for_prefix` -/
def formatForPrefix (letter : String) : Option Format :=
  [Format.singbox, .clash, .surge, .xray].find? (·.letter = letter)

/-- `normalize_format` -/
def normalizeFormat (format : List Char) : Except AnyhowError Format :=
  let format := String.ofList (toAsciiLowercase (trim format))
  if format ∈ ["singbox", "sing-box", "json"] then .ok .singbox
  else if format ∈ ["clash", "mihomo", "yaml", "yml"] then .ok .clash
  else if format = "surge" then .ok .surge
  else if format ∈ ["xray", "v2ray", "base64", "universal"] then .ok .xray
  else .error ["unsupported output format"]

/-- A text contains one of these. -/
def containsAny (patterns : List String) (s : List Char) : Bool :=
  patterns.any fun pattern => contains pattern.toList s

/-- `auto_format` -/
def autoFormat (userAgent accept : List Char) : Format :=
  let userAgent := toAsciiLowercase userAgent
  let accept := toAsciiLowercase accept
  if containsAny ["clash", "mihomo", "verge", "stash", "flclash", "nyanpasu", "clashmi", "sparkle",
      "surfboard"] userAgent then .clash
  else if containsAny ["surge"] userAgent then .surge
  else if containsAny ["sing-box", "singbox"] userAgent ||
      ["sfa/", "sfi/", "sfm/"].any (fun start => start.toList.isPrefixOf userAgent) then .singbox
  else if containsAny ["yaml", "yml"] accept then .clash
  else if containsAny ["json"] accept then .singbox
  else .xray

/-- `supports_mrs_format` -/
def supportsMrsFormat (userAgent : List Char) : Bool :=
  let userAgent := toAsciiLowercase userAgent
  containsAny ["mihomo", "meta", "clash-verge", "verge", "stash", "flclash", "nyanpasu", "clashmi",
    "sparkle"] userAgent ||
  !containsAny ["merlin", "clashforwindows", "clashforandroid", "clash/"] userAgent

/-! ### Outputs -/

/-- The body of an output; that of sing-box is the value its text is written from. -/
inductive Body where
  | json (value : Json)
  | text (contents : List Char)

/-- `SublinkOutput` -/
structure SublinkOutput where
  contentType : String
  body : Body
  profileName : List Char
  fileExtension : String

/-- `str::strip_suffix` -/
def stripEnd (ending s : List Char) : Option (List Char) :=
  if ending.isSuffixOf s then some (s.take (s.length - ending.length)) else none

/-- `subscription_name` -/
def subscriptionName (nodes : List Node) : List Char :=
  let name := ((((nodes.find? (·.kind = .hysteria2)).or nodes.head?).map fun node =>
    trim node.name).filter (· ≠ [])).getD "subscription".toList
  ((stripEnd "-VLESS".toList name).or (stripEnd "-SSH".toList name)).getD name

/-- The libraries of a conversion. -/
structure Libraries where
  codec : Codec
  /-- `Host::parse` -/
  parseHost : List Char → Option Host

/-- What is rendered. -/
structure Conversion where
  nodes : List Node
  compatibleNodes : List Node
  preset : Option RulePreset
  customRules : CustomRules

/-- The preset of `selectedRules`, if it is given. -/
def presetOf : Option (List Char) → Except AnyhowError (Option RulePreset)
  | none => .ok none
  | some selectedRules => (parseRulePreset selectedRules).map some

/-- `convert_with_rule_format` up to the renderers. -/
def prepare (libraries : Libraries) (format : Format) (input : List Char)
    (selectedRules whitelist blacklist : Option (List Char)) : Except AnyhowError Conversion := do
  let nodes ← parseInput libraries.codec input
  let compatibleNodes := if format = .clash then nodes else nodes.filter (·.kind ≠ .ssh)
  ensure (compatibleNodes ≠ []) "output format does not support any subscription nodes"
  let preset ← presetOf selectedRules
  let customRules ← parseCustomRules libraries.parseHost whitelist blacklist
  return ⟨nodes, compatibleNodes, preset, customRules⟩

/-- The body for `xray`: the URIs of the nodes, in Base64. -/
def universalBody (nodes : List Node) : List Char :=
  Base64.Engine.encode ⟨false, true⟩ (utf8 (['\n'].intercalate (nodes.map (·.original))))

/-- What `convert_with_rule_format` renders. -/
def Conversion.output (c : Conversion) (format : Format) (adBlock clashMrs : Bool) :
    SublinkOutput :=
  let rules := selectedRuleSpecs c.preset adBlock
  let chinaOptimized : Bool := c.preset = some .china
  let profileName := subscriptionName c.nodes
  match format with
  | .singbox => ⟨"application/json; charset=utf-8",
      .json (renderSingbox c.compatibleNodes rules c.customRules chinaOptimized), profileName,
      "json"⟩
  | .clash => ⟨"text/yaml; charset=utf-8",
      .text (renderClash c.compatibleNodes rules c.customRules clashMrs chinaOptimized),
      profileName, "yaml"⟩
  | .surge => ⟨"text/plain; charset=utf-8",
      .text (renderSurge c.compatibleNodes rules c.customRules chinaOptimized), profileName,
      "conf"⟩
  | .xray => ⟨"text/plain; charset=utf-8",
      .text (universalBody c.compatibleNodes), profileName, "txt"⟩

/-- `convert_with_rule_format` -/
def convertWithRuleFormat (libraries : Libraries) (format : Format) (input : List Char)
    (selectedRules : Option (List Char)) (adBlock : Bool)
    (whitelist blacklist : Option (List Char)) (clashMrs : Bool) :
    Except AnyhowError SublinkOutput := do
  let conversion ← prepare libraries format input selectedRules whitelist blacklist
  return conversion.output format adBlock clashMrs

/-- `convert_with_custom_rules` -/
def convertWithCustomRules (libraries : Libraries) (format : Format) (input : List Char)
    (selectedRules : Option (List Char)) (adBlock : Bool)
    (whitelist blacklist : Option (List Char)) : Except AnyhowError SublinkOutput :=
  convertWithRuleFormat libraries format input selectedRules adBlock whitelist blacklist true

/-- `convert_with_rules` -/
def convertWithRules (libraries : Libraries) (format : Format) (input : List Char)
    (selectedRules : Option (List Char)) (adBlock : Bool) : Except AnyhowError SublinkOutput :=
  convertWithCustomRules libraries format input selectedRules adBlock none none

/-- `SublinkService::convert` -/
def convert (libraries : Libraries) (format : Format) (input : List Char) :
    Except AnyhowError SublinkOutput :=
  convertWithRules libraries format input none false

/-! ### When the flag makes no difference -/

theorem length_unlines_append (ls ls' : List (List Char)) :
    (unlines (ls ++ ls')).length = (unlines ls).length + (unlines ls').length := by
  rw [unlines, List.flatMap_append, List.length_append]
  rfl

theorem length_unlines_cons (line : List Char) (ls : List (List Char)) :
    (unlines (line :: ls)).length = line.length + 1 + (unlines ls).length := by
  rw [unlines, List.flatMap_cons, List.length_append, List.length_append]
  rfl

theorem length_unlines_pos {ls : List (List Char)} (h : ls ≠ []) : 0 < (unlines ls).length := by
  obtain ⟨line, ls, rfl⟩ := List.exists_cons_of_ne_nil h
  rw [length_unlines_cons]
  omega

/-- A heading over what rules are written as, which is not there without rules: with one more rule
the text is no shorter. -/
theorem length_headed_le (heading : List Char) (write : RuleSpec → List (List Char))
    (rule : RuleSpec) (rules : List RuleSpec) :
    (unlines (if rules = [] then [] else heading :: rules.flatMap write)).length ≤
      (unlines (if rule :: rules = [] then [] else
        heading :: (rule :: rules).flatMap write)).length := by
  rw [if_neg (List.cons_ne_nil _ _), List.flatMap_cons]
  split_ifs with hnil
  · exact Nat.zero_le _
  · rw [length_unlines_cons, length_unlines_cons, length_unlines_append]
    omega

/-- **One more rule makes a Clash configuration longer**, -/
theorem renderClash_ne (nodes : List Node) (rules : List RuleSpec) (customRules : CustomRules)
    (useMrs chinaOptimized : Bool) :
    renderClash nodes (adBlockRule :: rules) customRules useMrs chinaOptimized ≠
      renderClash nodes rules customRules useMrs chinaOptimized := by
  intro h
  have hlength := congrArg List.length h
  have hrule := length_unlines_pos (show clashRule adBlockRule ≠ [] from List.cons_ne_nil _ _)
  have hproviders := length_headed_le "rule-providers:".toList
    (clashProviders (if useMrs then "mrs" else "yaml") chinaOptimized) adBlockRule rules
  have hrules : (unlines ((adBlockRule :: rules).flatMap clashRule)).length =
      (unlines (clashRule adBlockRule)).length + (unlines (rules.flatMap clashRule)).length := by
    rw [List.flatMap_cons, length_unlines_append]
  simp only [renderClash, length_unlines_append] at hlength
  omega

/-- and one for Surge. -/
theorem renderSurge_ne (nodes : List Node) (rules : List RuleSpec) (customRules : CustomRules)
    (chinaOptimized : Bool) :
    renderSurge nodes (adBlockRule :: rules) customRules chinaOptimized ≠
      renderSurge nodes rules customRules chinaOptimized := by
  intro h
  have hlength := congrArg List.length h
  have hrule := length_unlines_pos (show surgeRule adBlockRule ≠ [] from List.cons_ne_nil _ _)
  have hrules : (unlines ((adBlockRule :: rules).flatMap surgeRule)).length =
      (unlines (surgeRule adBlockRule)).length + (unlines (rules.flatMap surgeRule)).length := by
    rw [List.flatMap_cons, length_unlines_append]
  simp only [renderSurge, length_unlines_append] at hlength
  omega

/-- The rule sets of a sing-box configuration. -/
theorem renderSingbox_ruleSets (nodes : List Node) (rules : List RuleSpec)
    (customRules : CustomRules) (chinaOptimized : Bool) :
    ∃ route, (renderSingbox nodes rules customRules chinaOptimized).get "route" = some route ∧
      route.get "rule_set" = some (.array (rules.flatMap singboxRuleSets)) := by
  rw [renderSingbox, Json.get_ofFields]
  refine ⟨_, rfl, ?_⟩
  rw [Json.get_ofFields]
  cases chinaOptimized <;> rfl

/-- **One more rule is one more rule set** of a sing-box configuration. -/
theorem renderSingbox_ne (nodes : List Node) (rules : List RuleSpec) (customRules : CustomRules)
    (chinaOptimized : Bool) :
    renderSingbox nodes (adBlockRule :: rules) customRules chinaOptimized ≠
      renderSingbox nodes rules customRules chinaOptimized := by
  intro h
  obtain ⟨route, hroute, hsets⟩ :=
    renderSingbox_ruleSets nodes (adBlockRule :: rules) customRules chinaOptimized
  obtain ⟨route', hroute', hsets'⟩ := renderSingbox_ruleSets nodes rules customRules chinaOptimized
  rw [h, hroute', Option.some.injEq] at hroute
  rw [hroute, hsets, Option.some.injEq, Json.array.injEq, List.flatMap_cons] at hsets'
  have hlength := congrArg List.length hsets'
  have hone : (singboxRuleSets adBlockRule).length = 1 := rfl
  rw [List.length_append, hone] at hlength
  omega

variable {format : Format}

/-- The flag makes no difference to what is rendered for `xray`, and if the preset has the rule
anyway. -/
theorem Conversion.output_flag_iff {c : Conversion} {clashMrs : Bool} :
    c.output format true clashMrs = c.output format false clashMrs ↔
      format = .xray ∨ c.preset = some .comprehensive := by
  by_cases hpreset : c.preset = some .comprehensive
  · have hrules : selectedRuleSpecs c.preset true = selectedRuleSpecs c.preset false := by
      rw [hpreset, selectedRuleSpecs_comprehensive false]
    refine iff_of_true ?_ (.inr hpreset)
    simp only [Conversion.output, hrules]
  · have hrules := selectedRuleSpecs_adBlock hpreset
    rw [or_iff_left hpreset]
    cases format with
    | singbox =>
        refine iff_of_false (fun h => ?_) (by decide)
        have hbody := congrArg SublinkOutput.body h
        simp only [Conversion.output, hrules] at hbody
        exact renderSingbox_ne _ _ _ _ (Body.json.inj hbody)
    | clash =>
        refine iff_of_false (fun h => ?_) (by decide)
        have hbody := congrArg SublinkOutput.body h
        simp only [Conversion.output, hrules] at hbody
        exact renderClash_ne _ _ _ _ _ (Body.text.inj hbody)
    | surge =>
        refine iff_of_false (fun h => ?_) (by decide)
        have hbody := congrArg SublinkOutput.body h
        simp only [Conversion.output, hrules] at hbody
        exact renderSurge_ne _ _ _ _ (Body.text.inj hbody)
    | xray => exact iff_of_true rfl rfl

/-- The flag of a conversion is not read, or makes no difference. -/
def FlagIgnored (libraries : Libraries) (format : Format) (input : List Char)
    (selectedRules whitelist blacklist : Option (List Char)) : Prop :=
  (∃ error, prepare libraries format input selectedRules whitelist blacklist = .error error) ∨
    format = .xray ∨ presetOf selectedRules = .ok (some .comprehensive)

theorem preset_of_prepare {libraries : Libraries} {input : List Char}
    {selectedRules whitelist blacklist : Option (List Char)} {c : Conversion}
    (h : prepare libraries format input selectedRules whitelist blacklist = .ok c) :
    presetOf selectedRules = .ok c.preset := by
  obtain ⟨nodes, -, h⟩ := bind_ok_iff.mp h
  obtain ⟨-, -, h⟩ := bind_ok_iff.mp h
  obtain ⟨preset, hpreset, h⟩ := bind_ok_iff.mp h
  obtain ⟨customRules, -, h⟩ := bind_ok_iff.mp h
  cases h
  exact hpreset

/-- **When the flag makes no difference.** -/
theorem convert_flag_iff {libraries : Libraries} {input : List Char}
    {selectedRules whitelist blacklist : Option (List Char)} {clashMrs : Bool} :
    convertWithRuleFormat libraries format input selectedRules true whitelist blacklist clashMrs =
        convertWithRuleFormat libraries format input selectedRules false whitelist blacklist
          clashMrs ↔
      FlagIgnored libraries format input selectedRules whitelist blacklist := by
  rw [convertWithRuleFormat, convertWithRuleFormat, FlagIgnored]
  cases h : prepare libraries format input selectedRules whitelist blacklist with
  | error error => exact iff_of_true rfl (.inl ⟨error, rfl⟩)
  | ok c =>
      have hok : (Except.ok (c.output format true clashMrs) : Except AnyhowError SublinkOutput) =
          .ok (c.output format false clashMrs) ↔ c.output format true clashMrs =
            c.output format false clashMrs := by
        rw [Except.ok.injEq]
      refine hok.trans ?_
      rw [Conversion.output_flag_iff, preset_of_prepare h, Except.ok.injEq]
      simp

end SingBoxMini.Sublink
