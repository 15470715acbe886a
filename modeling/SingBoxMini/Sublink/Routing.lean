import SingBoxMini.Sublink.RuleLines

/-!
# Sublink — Routing

What the rules of a converted subscription do with a destination.  In each of the three formats the
first rule that matches decides.

The formats differ in how they say it: sing-box has one rule for a whole list of domains and one for
all the sets of a preset rule, Clash and Surge have a line for each, with commas between its fields.
`routing_agrees`: all of them do what `routeAction` says, for any lists in any order whose domains
have no comma.  A domain with a comma is more than one field of a line, and then they differ.
-/

namespace SingBoxMini.Sublink
open Bytes Text

/-! ### Destinations -/

/-- The sets of domains and of addresses that presets refer to. -/
inductive RuleSet where
  | site (name : String)
  | ip (name : String)
deriving DecidableEq, Repr

/-- The sets of a rule, in the order they are written. -/
def RuleSpec.ruleSets (rule : RuleSpec) : List RuleSet := rule.sites.map .site ++ rule.ips.map .ip

/-- The name of a set in sing-box and Clash. -/
def RuleSet.tag : RuleSet → List Char
  | site name => name.toList
  | ip name => (name ++ "-ip").toList

/-- The name of a set in Surge. -/
def RuleSet.surgeUrl : RuleSet → List Char
  | site name => (surgeSiteRuleBase ++ name ++ ".conf").toList
  | ip name => (surgeIpRuleBase ++ name ++ ".txt").toList

/-- **A destination**: its domain, if it has one, and the sets it is in.  A client knows the sets by
their names, and the names stand for the same sets in all formats. -/
structure Destination (selected : List RuleSpec) where
  domain : Option (List Char)
  inSet : RuleSet → Bool
  byTag : List Char → Bool
  byUrl : List Char → Bool
  byTag_eq : ∀ rule ∈ selected, ∀ set ∈ rule.ruleSets, byTag set.tag = inSet set
  byUrl_eq : ∀ rule ∈ selected, ∀ set ∈ rule.ruleSets, byUrl set.surgeUrl = inSet set

/-- A domain is another one or below it. -/
def below (domain other : List Char) : Bool := domain = other || ('.' :: other).isSuffixOf domain

/-- A rule of a user matches a domain. -/
def DomainRule.matches (domain : Option (List Char)) : DomainRule → Bool
  | .exactly other => domain = some other
  | .suffix other => domain.any (below · other)

variable {selected : List RuleSpec}

/-- What the first preset rule that matches does. -/
def presetAction (dest : Destination selected) : RuleAction :=
  ((selected.find? (·.ruleSets.any dest.inSet)).map RuleSpec.action).getD .proxy

/-- **What is to be done**: what a user blocks is rejected, what a user allows is direct, and else
the presets decide. -/
def routeAction (customRules : CustomRules) (dest : Destination selected) : RuleAction :=
  if customRules.blacklist.any (·.matches dest.domain) then .reject
  else if customRules.whitelist.any (·.matches dest.domain) then .direct
  else presetAction dest

/-! ### sing-box -/

/-- The texts of an array. -/
def jsonTexts : Option Json → List (List Char)
  | some (.array items) => items.filterMap Json.asStr
  | _ => []

/-- A route rule matches if one of its domains or sets does. -/
def singboxMatches (dest : Destination selected) (rule : Json) : Bool :=
  (jsonTexts (rule.get "domain")).any (dest.domain = some ·) ||
    (jsonTexts (rule.get "domain_suffix")).any (fun other => dest.domain.any (below · other)) ||
    (jsonTexts (rule.get "rule_set")).any dest.byTag

/-- The action that has a name. -/
def outboundAction (name : List Char) : Option RuleAction :=
  if name = "PROXY".toList then some .proxy
  else if name = "DIRECT".toList then some .direct
  else none

/-- What a route rule does. -/
def singboxRuleAction (rule : Json) : Option RuleAction :=
  if (rule.get "action").bind Json.asStr = some "reject".toList then some .reject
  else ((rule.get "outbound").bind Json.asStr).bind outboundAction

/-- The first route rule that matches, or else the final outbound. -/
def singboxDecides (dest : Destination selected) (config : Json) : Option RuleAction := do
  let route ← config.get "route"
  match route.get "rules" with
  | some (.array rules) =>
    (rules.find? (singboxMatches dest)).elim
      (((route.get "final").bind Json.asStr).bind outboundAction) singboxRuleAction
  | _ => none

/-! ### Clash and Surge -/

/-- What a line is about. -/
inductive LineKind where
  | domain (rule : DomainRule)
  | ruleSet (name : List Char)
  | all
deriving DecidableEq, Repr

/-- A line applies to a destination. -/
def LineKind.matches (domain : Option (List Char)) (member : List Char → Bool) : LineKind → Bool
  | .domain rule => rule.matches domain
  | .ruleSet name => member name
  | .all => true

/-- A line, cut at its commas: a kind, a payload unless it matches everything, and a policy, which
options may follow. -/
def readRule (line : List Char) : Option (LineKind × List Char) :=
  match line.splitOn ',' with
  | [kind, policy] =>
    if kind = "MATCH".toList ∨ kind = "FINAL".toList then some (.all, policy) else none
  | kind :: payload :: policy :: _ =>
    if kind = "DOMAIN".toList then some (.domain (.exactly payload), policy)
    else if kind = "DOMAIN-SUFFIX".toList then some (.domain (.suffix payload), policy)
    else if kind = "RULE-SET".toList then some (.ruleSet payload, policy)
    else none
  | _ => none

/-- The action of a policy. -/
def policyAction (policy : List Char) : Option RuleAction :=
  if policy = "REJECT".toList then some .reject else outboundAction policy

/-- What a line does, if it matches: nothing, where there is no such policy. -/
def lineAction (domain : Option (List Char)) (member : List Char → Bool) (line : List Char) :
    Option (Option RuleAction) := do
  let (kind, policy) ← readRule line
  if kind.matches domain member then some (policyAction policy) else none

/-- The first line that matches. -/
def linesDecide (domain : Option (List Char)) (member : List Char → Bool) (ls : List (List Char)) :
    Option RuleAction := (ls.findSome? (lineAction domain member)).join

/-- The items of a YAML list. -/
def clashDecides (dest : Destination selected) (ls : List (List Char)) : Option RuleAction :=
  linesDecide dest.domain dest.byTag (ls.filterMap (stripStart "  - ".toList))

/-- The lines of a profile. -/
def surgeDecides (dest : Destination selected) (ls : List (List Char)) : Option RuleAction :=
  linesDecide dest.domain dest.byUrl ls

/-- The rules of `render_clash`. -/
def clashRules (selected : List RuleSpec) (customRules : CustomRules) : List (List Char) :=
  customRules.blacklist.map (clashDomainRule "REJECT" "  - ") ++
    customRules.whitelist.map (clashDomainRule "DIRECT" "  - ") ++ selected.flatMap clashRule ++
    ["  - MATCH,PROXY".toList]

/-- The rules of `render_surge`. -/
def surgeRules (selected : List RuleSpec) (customRules : CustomRules) : List (List Char) :=
  customRules.blacklist.map (clashDomainRule "REJECT" "") ++
    customRules.whitelist.map (clashDomainRule "DIRECT" "") ++ selected.flatMap surgeRule ++
    ["FINAL,PROXY".toList]

variable {α β : Type} {l : List α} {p : α → Bool} {rule : DomainRule}

theorem append_section (before : List α) (title : α) (a b c d : List α) :
    before ++ [title] ++ a ++ b ++ c ++ d = before ++ title :: (a ++ b ++ c ++ d) := by
  simp

/-- **The rules are at the end** of what is written. -/
theorem renderClash_eq (nodes : List Node) (customRules : CustomRules)
    (useMrs chinaOptimized : Bool) :
    ∃ before, renderClash nodes selected customRules useMrs chinaOptimized =
      unlines (before ++ "rules:".toList :: clashRules selected customRules) :=
  ⟨_, congrArg unlines (append_section _ _ _ _ _ _)⟩

theorem renderSurge_eq (nodes : List Node) (customRules : CustomRules) (chinaOptimized : Bool) :
    ∃ before, renderSurge nodes selected customRules chinaOptimized =
      unlines (before ++ "[Rule]".toList :: surgeRules selected customRules) := by
  have hsplit : ∀ (x : List (List Char)) (a b c d title : List Char),
      x ++ [a, b, c, d, title] = x ++ [a, b, c, d] ++ [title] := by simp
  rw [renderSurge, hsplit]
  exact ⟨_, congrArg unlines (append_section _ _ _ _ _ _)⟩

/-! ### The first match -/

theorem findSome?_append_of {l' : List α} {f : α → Option β} {p : Bool} {b : β}
    (h : l.findSome? f = if p then some b else none) :
    (l ++ l').findSome? f = if p then some b else l'.findSome? f := by
  rw [List.findSome?_append, h]
  cases p <;> rfl

/-- Items that all have one outcome. -/
theorem findSome?_map_ite {γ : Type} {g : α → β} {f : β → Option γ} {c : γ}
    (h : ∀ a ∈ l, f (g a) = if p a then some c else none) :
    (l.map g).findSome? f = if l.any p then some c else none := by
  induction l with
  | nil => rfl
  | cons a l ih =>
      rw [List.forall_mem_cons] at h
      rw [List.map_cons, List.findSome?_cons, h.1, ih h.2, List.any_cons]
      cases p a <;> rfl

/-- Groups of such items. -/
theorem findSome?_flatMap_ite {γ : Type} {g : α → List β} {f : β → Option γ} {c : α → γ}
    (h : ∀ a ∈ l, (g a).findSome? f = if p a then some (c a) else none) :
    (l.flatMap g).findSome? f = (l.find? p).map c := by
  induction l with
  | nil => rfl
  | cons a l ih =>
      rw [List.forall_mem_cons] at h
      rw [List.flatMap_cons, List.findSome?_append, h.1, ih h.2, List.find?_cons]
      cases p a <;> rfl

/-! ### Lines -/

theorem splitOn_of_not_mem {s : List Char} (h : ',' ∉ s) : s.splitOn ',' = [s] := by
  have hall : ∀ part ∈ [s], ',' ∉ part := by simpa using h
  have hsplit := List.splitOn_intercalate ',' hall (List.cons_ne_nil _ _)
  rwa [List.intercalate_singleton] at hsplit

theorem rulePolicy_comma (action : RuleAction) : ',' ∉ (rulePolicy action).toList := by
  cases action <;> decide

theorem policyAction_rulePolicy (action : RuleAction) :
    policyAction (rulePolicy action).toList = some action := by
  cases action <;> rfl

/-- A line, from what its parts are. -/
theorem lineAction_of_readRule {line policy : List Char} {kind : LineKind}
    (hline : readRule line = some (kind, policy)) (domain : Option (List Char))
    (member : List Char → Bool) :
    lineAction domain member line =
      if kind.matches domain member then some (policyAction policy) else none := by
  rw [lineAction, hline]
  rfl

/-- The rule of a user for another domain. -/
def DomainRule.withDomain (domain : List Char) : DomainRule → DomainRule
  | .exactly _ => .exactly domain
  | .suffix _ => .suffix domain

/-- The line of a user's rule: what is between its first commas is its domain, and what follows is
its policy. -/
theorem readRule_domainRule {action : RuleAction} {first second : List Char}
    {rest : List (List Char)}
    (h : rule.domain.splitOn ',' ++ [(rulePolicy action).toList] = first :: second :: rest) :
    readRule (clashDomainRule (rulePolicy action) "" rule) =
      some (.domain (rule.withDomain first), second) := by
  have hline : clashDomainRule (rulePolicy action) "" rule =
      rule.kind.toList ++ ',' :: (rule.domain ++ ',' :: (rulePolicy action).toList) := by
    rw [clashDomainRule_eq]
    simp [List.intercalate_cons_cons]
  rw [readRule, hline, splitOn_append_cons, splitOn_append_cons,
    splitOn_of_not_mem (plain_kind rule).1, splitOn_of_not_mem (rulePolicy_comma action), h]
  cases rule <;> simp [DomainRule.kind, DomainRule.withDomain]

/-- **A domain without a comma** is the domain of its line. -/
theorem readRule_of_comma (action : RuleAction) (hcomma : ',' ∉ rule.domain) :
    readRule (clashDomainRule (rulePolicy action) "" rule) =
      some (.domain rule, (rulePolicy action).toList) := by
  have hself : rule.withDomain rule.domain = rule := by cases rule <;> rfl
  have hfields : rule.domain.splitOn ',' ++ [(rulePolicy action).toList] =
      rule.domain :: (rulePolicy action).toList :: [] := by
    rw [splitOn_of_not_mem hcomma]
    rfl
  rw [readRule_domainRule hfields, hself]

theorem lineAction_domainRule (action : RuleAction) (hcomma : ',' ∉ rule.domain)
    (domain : Option (List Char)) (member : List Char → Bool) :
    lineAction domain member (clashDomainRule (rulePolicy action) "" rule) =
      if rule.matches domain then some (some action) else none := by
  rw [lineAction_of_readRule (readRule_of_comma action hcomma), policyAction_rulePolicy]
  rfl

/-- The lines of a preset rule, with the names of a format; rules of addresses have an option. -/
def ruleSetLines (name : RuleSet → List Char) (rule : RuleSpec) : List (List Char) :=
  (rule.sites.map fun site => "RULE-SET".toList ++ ',' :: (name (.site site) ++
    ',' :: (rulePolicy rule.action).toList)) ++
  rule.ips.map fun ip => "RULE-SET".toList ++ ',' :: (name (.ip ip) ++
    ',' :: (rulePolicy rule.action).toList ++ ',' :: "no-resolve".toList)

section RuleSets
variable {action : RuleAction} {name : List Char}

theorem readRule_site (hname : ',' ∉ name) :
    readRule ("RULE-SET".toList ++ ',' :: (name ++ ',' :: (rulePolicy action).toList)) =
      some (.ruleSet name, (rulePolicy action).toList) := by
  rw [readRule, splitOn_append_cons, splitOn_append_cons, splitOn_of_not_mem (by decide),
    splitOn_of_not_mem hname, splitOn_of_not_mem (rulePolicy_comma action)]
  rfl

theorem readRule_ip (hname : ',' ∉ name) :
    readRule ("RULE-SET".toList ++ ',' :: (name ++ ',' :: (rulePolicy action).toList ++
      ',' :: "no-resolve".toList)) = some (.ruleSet name, (rulePolicy action).toList) := by
  rw [readRule, splitOn_append_cons, splitOn_append_cons, splitOn_append_cons,
    splitOn_of_not_mem (by decide), splitOn_of_not_mem hname,
    splitOn_of_not_mem (rulePolicy_comma action), splitOn_of_not_mem (by decide)]
  rfl

theorem lineAction_ruleSet {line : List Char}
    (hline : readRule line = some (.ruleSet name, (rulePolicy action).toList))
    (domain : Option (List Char)) (member : List Char → Bool) :
    lineAction domain member line = if member name then some (some action) else none := by
  rw [lineAction_of_readRule hline, policyAction_rulePolicy]
  rfl

end RuleSets

/-- What the lines of a user do. -/
def customAction (customRules : CustomRules) (domain : Option (List Char))
    (member : List Char → Bool) : Option (Option RuleAction) :=
  (customRules.blacklist.map (clashDomainRule "REJECT" "") ++
    customRules.whitelist.map (clashDomainRule "DIRECT" "")).findSome? (lineAction domain member)

/-- **The lines of both formats** decide by the lines of a user and then by the presets, if the
lines of a preset rule do. -/
theorem linesDecide_eq (customRules : CustomRules) (dest : Destination selected)
    {member : List Char → Bool} {ruleLines : RuleSpec → List (List Char)} {last : List Char}
    (hrules : ∀ rule ∈ selected, (ruleLines rule).findSome? (lineAction dest.domain member) =
      if rule.ruleSets.any dest.inSet then some (some rule.action) else none)
    (hlast : lineAction dest.domain member last = some (some .proxy)) :
    linesDecide dest.domain member (customRules.blacklist.map (clashDomainRule "REJECT" "") ++
      customRules.whitelist.map (clashDomainRule "DIRECT" "") ++ selected.flatMap ruleLines ++
      [last]) =
      (customAction customRules dest.domain member).getD (some (presetAction dest)) := by
  rw [linesDecide, List.append_assoc, List.findSome?_append, ← customAction,
    List.findSome?_append, findSome?_flatMap_ite hrules, List.findSome?_cons, hlast, presetAction]
  cases customAction customRules dest.domain member with
  | some action => rfl
  | none => cases selected.find? (·.ruleSets.any dest.inSet) <;> rfl

/-- **Without commas** they do what is to be done. -/
theorem customAction_eq {customRules : CustomRules}
    (hcomma : ∀ rule ∈ customRules.blacklist ++ customRules.whitelist, ',' ∉ rule.domain)
    (dest : Destination selected) (member : List Char → Bool) :
    (customAction customRules dest.domain member).getD (some (presetAction dest)) =
      some (routeAction customRules dest) := by
  rw [List.forall_mem_append] at hcomma
  have hblack : (customRules.blacklist.map (clashDomainRule "REJECT" "")).findSome?
      (lineAction dest.domain member) =
      if customRules.blacklist.any (·.matches dest.domain) then some (some .reject) else none :=
    findSome?_map_ite fun rule hrule =>
      lineAction_domainRule .reject (hcomma.1 rule hrule) dest.domain member
  have hwhite : (customRules.whitelist.map (clashDomainRule "DIRECT" "")).findSome?
      (lineAction dest.domain member) =
      if customRules.whitelist.any (·.matches dest.domain) then some (some .direct) else none :=
    findSome?_map_ite fun rule hrule =>
      lineAction_domainRule .direct (hcomma.2 rule hrule) dest.domain member
  rw [customAction, findSome?_append_of hblack, hwhite, routeAction]
  split_ifs <;> rfl

theorem any_congr_mem {q : α → Bool} (h : ∀ a ∈ l, p a = q a) :
    l.any p = l.any q := by
  rw [Bool.eq_iff_iff, List.any_eq_true, List.any_eq_true]
  exact exists_congr fun a => and_congr_right fun ha => by rw [h a ha]

theorem any_ruleSets (rule : RuleSpec) (p : RuleSet → Bool) :
    rule.ruleSets.any p = (rule.sites.any (p <| .site ·) || rule.ips.any (p <| .ip ·)) := by
  rw [RuleSpec.ruleSets, List.any_append, List.any_map, List.any_map]
  rfl

/-- The lines of a preset rule decide by its sets. -/
theorem findSome?_lineAction_rule (dest : Destination selected) {rule : RuleSpec}
    {member : List Char → Bool} {name : RuleSet → List Char}
    (hname : ∀ set ∈ rule.ruleSets, ',' ∉ name set)
    (hmember : ∀ set ∈ rule.ruleSets, member (name set) = dest.inSet set) :
    (ruleSetLines name rule).findSome? (lineAction dest.domain member) =
      if rule.ruleSets.any dest.inSet then some (some rule.action) else none := by
  rw [RuleSpec.ruleSets, List.forall_mem_append, List.forall_mem_map, List.forall_mem_map] at hname
  have hsites := findSome?_map_ite (c := some rule.action) fun site hsite =>
    lineAction_ruleSet (readRule_site (hname.1 site hsite)) dest.domain member
  have hips := findSome?_map_ite (c := some rule.action) fun ip hip =>
    lineAction_ruleSet (readRule_ip (hname.2 ip hip)) dest.domain member
  rw [ruleSetLines, findSome?_append_of hsites, hips, ← any_congr_mem hmember, any_ruleSets]
  cases rule.sites.any (member <| name <| .site ·) <;> rfl

/-- The names of the sets of presets have no comma. -/
theorem name_comma {rule : RuleSpec} (hrule : rule ∈ rules ++ chinaRules) {set : RuleSet}
    (hset : set ∈ rule.ruleSets) : ',' ∉ set.tag ∧ ',' ∉ set.surgeUrl := by
  have hnames : ∀ rule ∈ rules ++ chinaRules, ∀ name ∈ rule.sites ++ rule.ips,
      ',' ∉ name.toList := by decide
  have hbases : ',' ∉ surgeSiteRuleBase.toList ∧ ',' ∉ surgeIpRuleBase.toList := by decide
  rw [RuleSpec.ruleSets, List.mem_append, List.mem_map, List.mem_map] at hset
  rcases hset with ⟨name, hname, rfl⟩ | ⟨name, hname, rfl⟩
  · have hcomma := hnames rule hrule name (List.mem_append_left _ hname)
    simp [RuleSet.tag, RuleSet.surgeUrl, String.toList_append, hcomma, hbases]
  · have hcomma := hnames rule hrule name (List.mem_append_right _ hname)
    simp [RuleSet.tag, RuleSet.surgeUrl, String.toList_append, hcomma, hbases]

/-! ### Clash -/

theorem clashDomainRule_start (policy start : String) (rule : DomainRule) :
    clashDomainRule policy start rule = start.toList ++ clashDomainRule policy "" rule := by
  cases rule <;> simp [clashDomainRule, String.toList_append]

theorem filterMap_stripStart (start : List Char) (ls : List (List Char)) :
    (ls.map (start ++ ·)).filterMap (stripStart start) = ls := by
  rw [List.filterMap_map]
  simp [stripStart_append]

theorem filterMap_clashDomainRule (policy : String) (rules : List DomainRule) :
    (rules.map (clashDomainRule policy "  - ")).filterMap (stripStart "  - ".toList) =
      rules.map (clashDomainRule policy "") := by
  have hmap : rules.map (clashDomainRule policy "  - ") =
      (rules.map (clashDomainRule policy "")).map ("  - ".toList ++ ·) := by
    rw [List.map_map]
    exact List.map_congr_left fun rule _ => clashDomainRule_start policy "  - " rule
  rw [hmap, filterMap_stripStart]

theorem filterMap_clashRule (rule : RuleSpec) :
    (clashRule rule).filterMap (stripStart "  - ".toList) = ruleSetLines RuleSet.tag rule := by
  have hset : "  - RULE-SET,".toList = "  - ".toList ++ ("RULE-SET".toList ++ [',']) := by decide
  have hcomma : ",".toList = [','] := by decide
  have hip : "-ip,".toList = "-ip".toList ++ [','] := by decide
  have hresolve : ",no-resolve".toList = ',' :: "no-resolve".toList := by decide
  rw [← filterMap_stripStart "  - ".toList (ruleSetLines _ _), ruleSetLines, List.map_append,
    List.map_map, List.map_map]
  simp only [clashRule, RuleSet.tag, String.toList_append, hset, hcomma, hip, hresolve,
    Function.comp_def, List.append_assoc, List.cons_append, List.nil_append]

/-- The items of the list of rules. -/
theorem filterMap_clashRules (selected : List RuleSpec) (customRules : CustomRules) :
    (clashRules selected customRules).filterMap (stripStart "  - ".toList) =
      customRules.blacklist.map (clashDomainRule "REJECT" "") ++
        customRules.whitelist.map (clashDomainRule "DIRECT" "") ++
        selected.flatMap (ruleSetLines RuleSet.tag) ++ ["MATCH,PROXY".toList] := by
  have hlast : ["  - MATCH,PROXY".toList].filterMap (stripStart "  - ".toList) =
      ["MATCH,PROXY".toList] := rfl
  have hrules : (fun rule => (clashRule rule).filterMap (stripStart "  - ".toList)) =
      ruleSetLines RuleSet.tag := funext filterMap_clashRule
  rw [clashRules, List.filterMap_append, List.filterMap_append, List.filterMap_append,
    filterMap_clashDomainRule, filterMap_clashDomainRule, List.filterMap_flatMap, hlast, hrules]

/-- **Clash** decides by the lines of a user and then by the presets. -/
theorem clashDecides_eq (hselected : selected ⊆ rules ++ chinaRules) (customRules : CustomRules)
    (dest : Destination selected) :
    clashDecides dest (clashRules selected customRules) =
      (customAction customRules dest.domain dest.byTag).getD (some (presetAction dest)) := by
  rw [clashDecides, filterMap_clashRules]
  refine linesDecide_eq customRules dest ?_ rfl
  intro rule hrule
  exact findSome?_lineAction_rule dest (fun set hset => (name_comma (hselected hrule) hset).1)
    (dest.byTag_eq rule hrule)

/-! ### Surge -/

theorem surgeRule_eq (rule : RuleSpec) : surgeRule rule = ruleSetLines RuleSet.surgeUrl rule := by
  have hset : "RULE-SET,".toList = "RULE-SET".toList ++ [','] := by decide
  have hsite : ".conf,".toList = ".conf".toList ++ [','] := by decide
  have hip : ".txt,".toList = ".txt".toList ++ [','] := by decide
  have hresolve : ",no-resolve".toList = ',' :: "no-resolve".toList := by decide
  rw [surgeRule, ruleSetLines]
  simp only [RuleSet.surgeUrl, String.toList_append, hset, hsite, hip, hresolve,
    List.append_assoc, List.cons_append, List.nil_append]

/-- **Surge** does too. -/
theorem surgeDecides_eq (hselected : selected ⊆ rules ++ chinaRules) (customRules : CustomRules)
    (dest : Destination selected) :
    surgeDecides dest (surgeRules selected customRules) =
      (customAction customRules dest.domain dest.byUrl).getD (some (presetAction dest)) := by
  rw [surgeDecides, surgeRules]
  refine linesDecide_eq customRules dest ?_ rfl
  intro rule hrule
  rw [surgeRule_eq]
  exact findSome?_lineAction_rule dest (fun set hset => (name_comma (hselected hrule) hset).2)
    (dest.byUrl_eq rule hrule)

/-! ### sing-box -/

theorem any_domainRuleFields (domain : Option (List Char)) (rules : List DomainRule) :
    ((domainRuleFields rules).1.any (domain = some ·) ||
      (domainRuleFields rules).2.any (fun other => domain.any (below · other))) =
      rules.any (·.matches domain) := by
  induction rules with
  | nil => rfl
  | cons rule rules ih =>
      rw [List.any_cons, ← ih]
      cases rule with
      | exactly other => simp [domainRuleFields, DomainRule.matches, Bool.or_assoc]
      | suffix other =>
          simp [domainRuleFields, DomainRule.matches, Bool.or_left_comm]

theorem lookup_domainFields (rules : List DomainRule) :
    jsonTexts ((domainFields rules).reverse.lookup "domain") = (domainRuleFields rules).1 ∧
      jsonTexts ((domainFields rules).reverse.lookup "domain_suffix") =
        (domainRuleFields rules).2 ∧
      (domainFields rules).reverse.lookup "rule_set" = none := by
  rw [domainFields]
  by_cases hfull : (domainRuleFields rules).1 = [] <;>
    by_cases hsuffix : (domainRuleFields rules).2 = [] <;>
    simp [hfull, hsuffix, jsonTexts, Json.asStr, List.lookup_cons, Function.comp_def]

theorem get_custom {key : String} (hkey : key ≠ "action" ∧ key ≠ "outbound")
    (fields : List (String × Json)) (action : RuleAction) :
    (Json.ofFields (fields ++ [singboxAction action])).get key = fields.reverse.lookup key := by
  rw [Json.get_ofFields, List.reverse_append, List.lookup_append]
  cases action <;> simp [singboxAction, List.lookup_cons, beq_false_of_ne hkey.1,
    beq_false_of_ne hkey.2]

theorem singboxMatches_custom (dest : Destination selected) (rules : List DomainRule)
    (action : RuleAction) :
    singboxMatches dest (.ofFields (domainFields rules ++ [singboxAction action])) =
      rules.any (·.matches dest.domain) := by
  obtain ⟨hdomain, hsuffix, hset⟩ := lookup_domainFields rules
  rw [singboxMatches, get_custom (by decide), get_custom (by decide), get_custom (by decide),
    hdomain, hsuffix, hset, any_domainRuleFields]
  exact Bool.or_false _

theorem singboxRuleAction_last (fields : List (String × Json)) (action : RuleAction)
    (hkeys : ∀ field ∈ fields, field.1 ≠ "action" ∧ field.1 ≠ "outbound") :
    singboxRuleAction (.ofFields (fields ++ [singboxAction action])) = some action := by
  have hnone : ∀ key, key = "action" ∨ key = "outbound" → fields.reverse.lookup key = none := by
    intro key hkey
    rw [List.lookup_eq_none_iff]
    intro field hfield
    have hne := hkeys field (List.mem_reverse.mp hfield)
    grind
  rw [singboxRuleAction, Json.get_ofFields, Json.get_ofFields, List.reverse_append,
    List.lookup_append, List.lookup_append, hnone _ (.inl rfl), hnone _ (.inr rfl)]
  cases action <;> rfl

theorem domainFields_keys (rules : List DomainRule) :
    ∀ field ∈ domainFields rules, field.1 ≠ "action" ∧ field.1 ≠ "outbound" := by
  intro field hfield
  rw [domainFields, List.mem_append] at hfield
  rcases hfield with hfield | hfield <;> simp [mem_ite_nil hfield]

/-- A list of a user is one route rule. -/
theorem find?_singboxCustomRule (dest : Destination selected) (rules : List DomainRule)
    (action : RuleAction) (others : List Json) (last : Option RuleAction) :
    ((singboxCustomRule rules action ++ others).find? (singboxMatches dest)).elim last
        singboxRuleAction =
      if rules.any (·.matches dest.domain) then some action
      else (others.find? (singboxMatches dest)).elim last singboxRuleAction := by
  rw [singboxCustomRule]
  split_ifs with hnil hany hany
  · rw [hnil] at hany
    cases hany
  · rfl
  · rw [List.singleton_append, List.find?_cons_of_pos (by rwa [singboxMatches_custom])]
    exact singboxRuleAction_last _ action (domainFields_keys rules)
  · rw [List.singleton_append, List.find?_cons_of_neg (by rwa [singboxMatches_custom])]

theorem singboxMatches_routeRule (dest : Destination selected) {rule : RuleSpec}
    (hrule : rule ∈ selected) :
    singboxMatches dest (singboxRouteRule rule) = rule.ruleSets.any dest.inSet := by
  have hset : jsonTexts ((singboxRouteRule rule).get "rule_set") =
      rule.ruleSets.map RuleSet.tag := by
    rw [singboxRouteRule, ← List.singleton_append, get_custom (by decide)]
    simp [jsonTexts, RuleSpec.ruleSets, List.filterMap_map, text, Function.comp_def, Json.asStr,
      RuleSet.tag]
  have hdomain : ∀ key, key ∈ ["domain", "domain_suffix"] →
      (singboxRouteRule rule).get key = none := by
    intro key hkey
    rw [singboxRouteRule, ← List.singleton_append, get_custom (by grind)]
    grind
  rw [singboxMatches, hset, hdomain _ (by simp), hdomain _ (by simp), List.any_map,
    ← any_congr_mem (dest.byTag_eq rule hrule)]
  rfl

/-- The route rules of a preset. -/
theorem find?_singboxRouteRule (dest : Destination selected) {rules : List RuleSpec}
    (hrules : rules ⊆ selected) :
    ((rules.map singboxRouteRule).find? (singboxMatches dest)).elim (some .proxy)
        singboxRuleAction =
      some (((rules.find? (·.ruleSets.any dest.inSet)).map RuleSpec.action).getD .proxy) := by
  induction rules with
  | nil => rfl
  | cons rule rules ih =>
      obtain ⟨hrule, hrest⟩ := List.cons_subset.mp hrules
      rw [List.map_cons, List.find?_cons, List.find?_cons, singboxMatches_routeRule dest hrule]
      cases rule.ruleSets.any dest.inSet with
      | false => exact ih hrest
      | true => exact singboxRuleAction_last [_] rule.action (by simp)

/-- The route rules, in the configuration. -/
theorem renderSingbox_route (nodes : List Node) (customRules : CustomRules)
    (chinaOptimized : Bool) :
    ∃ route, (renderSingbox nodes selected customRules chinaOptimized).get "route" = some route ∧
      route.get "rules" = some (.array (singboxCustomRule customRules.blacklist .reject ++
        singboxCustomRule customRules.whitelist .direct ++ selected.map singboxRouteRule)) ∧
      route.get "final" = some (text "PROXY") := by
  rw [renderSingbox, Json.get_ofFields]
  refine ⟨_, rfl, ?_, ?_⟩
  · rw [Json.get_ofFields]
    cases chinaOptimized <;> rfl
  · rw [Json.get_ofFields]
    cases chinaOptimized <;> rfl

/-- **sing-box** does what is to be done. -/
theorem singboxDecides_eq (nodes : List Node) (customRules : CustomRules) (chinaOptimized : Bool)
    (dest : Destination selected) :
    singboxDecides dest (renderSingbox nodes selected customRules chinaOptimized) =
      some (routeAction customRules dest) := by
  obtain ⟨route, hroute, hrules, hfinal⟩ :=
    @renderSingbox_route selected nodes customRules chinaOptimized
  have hlast : ((route.get "final").bind Json.asStr).bind outboundAction = some .proxy := by
    rw [hfinal]
    rfl
  rw [singboxDecides, hroute, Option.bind_eq_bind, Option.bind_some, hrules, hlast]
  simp only
  rw [List.append_assoc, find?_singboxCustomRule, find?_singboxCustomRule,
    find?_singboxRouteRule dest (List.Subset.refl _), routeAction]
  split_ifs <;> rfl

/-! ### Agreement -/

/-- **One routing policy**: for all destinations the rules written for sing-box, Clash and Surge do
what is to be done. -/
def RoutesAlike (nodes : List Node) (selected : List RuleSpec) (customRules : CustomRules)
    (chinaOptimized : Bool) : Prop :=
  ∀ dest : Destination selected,
    singboxDecides dest (renderSingbox nodes selected customRules chinaOptimized) =
      some (routeAction customRules dest) ∧
    clashDecides dest (clashRules selected customRules) = some (routeAction customRules dest) ∧
    surgeDecides dest (surgeRules selected customRules) = some (routeAction customRules dest)

/-- A domain that is in no set. -/
def Destination.ofDomain (selected : List RuleSpec) (domain : List Char) :
    Destination selected where
  domain := some domain
  inSet _ := false
  byTag _ := false
  byUrl _ := false
  byTag_eq _ _ _ _ := rfl
  byUrl_eq _ _ _ _ := rfl

theorem presetAction_ofDomain (domain : List Char) :
    presetAction (.ofDomain selected domain) = .proxy := by
  have hnone : selected.find? (·.ruleSets.any (Destination.ofDomain selected domain).inSet) =
      none := by
    rw [List.find?_eq_none]
    intro rule _
    simp [Destination.ofDomain]
  rw [presetAction, hnone]
  rfl

/-- A rule matches what it is about, and no domain without its commas. -/
theorem matches_domain (rule : DomainRule) : rule.matches (some rule.domain) = true := by
  cases rule <;> simp [DomainRule.matches, DomainRule.domain, below]

theorem not_matches_of_comma {domain : List Char} (hrule : ',' ∈ rule.domain)
    (hdomain : ',' ∉ domain) : rule.matches (some domain) = false := by
  rw [← Bool.not_eq_true]
  intro hmatches
  cases rule with
  | exactly other => exact hdomain (Option.some.inj (of_decide_eq_true hmatches) ▸ hrule)
  | suffix other =>
      rcases Bool.or_eq_true_iff.mp hmatches with heq | hsuffix
      · exact hdomain (of_decide_eq_true heq ▸ hrule)
      · exact hdomain
          ((List.isSuffixOf_iff_suffix.mp hsuffix).subset (List.mem_cons_of_mem _ hrule))

/-- **The line of a domain with a comma** does something else: what is before the comma is its
domain, and what is after it is its policy. -/
theorem comma_misroutes (action : RuleAction) (haction : action ≠ .proxy)
    (hcomma : ',' ∈ rule.domain) :
    ∃ domain, (lineAction (some domain) (fun _ => false)
        (clashDomainRule (rulePolicy action) "" rule)).getD (some .proxy) ≠
      some (if rule.matches (some domain) then action else .proxy) := by
  obtain ⟨before, after, hdomain⟩ := List.append_of_mem hcomma
  obtain ⟨first, rest, hfirst⟩ := List.exists_cons_of_ne_nil (List.splitOn_ne_nil ',' before)
  obtain ⟨second, rest', hsecond⟩ :
      ∃ second rest', rest ++ after.splitOn ',' ++ [(rulePolicy action).toList] =
        second :: rest' := List.exists_cons_of_ne_nil (by simp)
  have hfields : rule.domain.splitOn ',' ++ [(rulePolicy action).toList] =
      first :: second :: rest' := by
    rw [hdomain, splitOn_append_cons, hfirst, ← hsecond, List.cons_append, List.cons_append]
  have hline := lineAction_of_readRule (readRule_domainRule hfields)
  by_contra hall
  rw [not_exists] at hall
  simp only [ne_eq, not_not, hline] at hall
  have hnot : rule.matches (some first) = false :=
    not_matches_of_comma hcomma (not_mem_of_mem_splitOn (s := before) (by simp [hfirst]))
  have hself : (rule.withDomain first).matches (some first) = true := by
    cases rule <;> simp [DomainRule.withDomain, DomainRule.matches, below]
  have hpolicy := hall first
  have hwhole := hall rule.domain
  rw [LineKind.matches, hself, hnot] at hpolicy
  rw [matches_domain, if_pos rfl] at hwhole
  split_ifs at hwhole
  · exact haction (Option.some.inj (hwhole.symm.trans hpolicy))
  · exact haction (Option.some.inj hwhole).symm

/-- What Clash does with a domain that is in no set, if the formats route alike. -/
theorem RoutesAlike.ofDomain {nodes : List Node} {customRules : CustomRules} {chinaOptimized : Bool}
    (h : RoutesAlike nodes selected customRules chinaOptimized)
    (hselected : selected ⊆ rules ++ chinaRules) (domain : List Char) :
    (customAction customRules (some domain) fun _ => false).getD (some .proxy) =
      some (if customRules.blacklist.any (·.matches (some domain)) then .reject
        else if customRules.whitelist.any (·.matches (some domain)) then .direct else .proxy) := by
  have hclash := (h (.ofDomain selected domain)).2.1
  rw [clashDecides_eq hselected, routeAction, presetAction_ofDomain] at hclash
  exact hclash

/-- **When the formats route alike**: with presets, whatever the lists of a user are, when no domain
of them has a comma.  With one domain that has a comma they do not. -/
theorem routing_agrees (nodes : List Node) {selected : List RuleSpec}
    (hselected : selected ⊆ rules ++ chinaRules) (useMrs chinaOptimized : Bool) :
    (∀ customRules,
      (∃ before, renderClash nodes selected customRules useMrs chinaOptimized =
        unlines (before ++ "rules:".toList :: clashRules selected customRules)) ∧
      (∃ before, renderSurge nodes selected customRules chinaOptimized =
        unlines (before ++ "[Rule]".toList :: surgeRules selected customRules)) ∧
      ((∀ rule ∈ customRules.blacklist ++ customRules.whitelist, ',' ∉ rule.domain) →
        RoutesAlike nodes selected customRules chinaOptimized)) ∧
    ∀ rule : DomainRule, ',' ∈ rule.domain →
      ¬ RoutesAlike nodes selected ⟨[rule], []⟩ chinaOptimized ∧
      ¬ RoutesAlike nodes selected ⟨[], [rule]⟩ chinaOptimized := by
  refine ⟨fun customRules => ⟨renderClash_eq nodes customRules useMrs chinaOptimized,
    renderSurge_eq nodes customRules chinaOptimized, fun hcomma dest => ⟨?_, ?_, ?_⟩⟩,
    fun rule hcomma => ⟨fun halike => ?_, fun halike => ?_⟩⟩
  · exact singboxDecides_eq nodes customRules chinaOptimized dest
  · rw [clashDecides_eq hselected, customAction_eq hcomma]
  · rw [surgeDecides_eq hselected, customAction_eq hcomma]
  · obtain ⟨domain, hdomain⟩ := comma_misroutes .direct (by decide) hcomma
    exact hdomain (by simpa [customAction, rulePolicy] using halike.ofDomain hselected domain)
  · obtain ⟨domain, hdomain⟩ := comma_misroutes .reject (by decide) hcomma
    exact hdomain (by simpa [customAction, rulePolicy] using halike.ofDomain hselected domain)

/-- A blocked domain with those below it and an allowed one among them, before a preset. -/
theorem routing_agrees_minimal :
    RoutesAlike [] (selectedRuleSpecs (some .minimal) true)
      ⟨[.exactly "a.b".toList], [.suffix "b".toList]⟩ true :=
  ((routing_agrees [] (by decide) true true).1 _).2.2 (by decide)

/-- **A domain with a comma** is blocked by sing-box only. -/
theorem blocked_by_singbox_only :
    parseDomainRules asciiLibrary.parse "a%2cb".toList "blacklist" =
        .ok [.exactly "a,b".toList] ∧
      surgeRules [] ⟨[], [.exactly "a,b".toList]⟩ =
        ["DOMAIN,a,b,REJECT".toList, "FINAL,PROXY".toList] ∧
      ∀ dest : Destination [], dest.domain = some "a,b".toList →
        singboxDecides dest (renderSingbox [] [] ⟨[], [.exactly "a,b".toList]⟩ false) =
          some .reject ∧
        clashDecides dest (clashRules [] ⟨[], [.exactly "a,b".toList]⟩) = some .proxy ∧
        surgeDecides dest (surgeRules [] ⟨[], [.exactly "a,b".toList]⟩) = some .proxy := by
  refine ⟨by decide, by decide, fun dest hdest => ⟨?_, ?_, ?_⟩⟩
  · rw [singboxDecides_eq, routeAction, hdest]
    rfl
  · rw [clashDecides, hdest]
    rfl
  · rw [surgeDecides, hdest]
    rfl

end SingBoxMini.Sublink
