import SingBoxMini.Sublink.ClashEntries
import SingBoxMini.Sublink.Routing
import SingBoxMini.Sublink.Selector
import Mathlib.Data.List.Nodup

/-!
# Sublink — Tags

The names of the outbounds in a profile, and what refers to them: the entries of the group `PROXY`
and the targets of rules.

Nodes keep the names they come with.  `outbound_tags_iff`: the names in a profile are distinct if
and only if those of the nodes are, and none is that of a built-in outbound.
-/

namespace SingBoxMini.Sublink
open Bytes Text Yaml

/-- The outbounds that are in every profile. -/
def builtIn : List (List Char) := ["PROXY".toList, "DIRECT".toList]

/-- For Clash, to reject is one too. -/
def clashBuiltIn : List (List Char) := builtIn ++ ["REJECT".toList]

/-! ### sing-box -/

/-- The tag of an outbound. -/
def outboundTag (outbound : Json) : Option (List Char) := (outbound.get "tag").bind Json.asStr

/-- The tags of the outbounds. -/
def singboxTags (config : Json) : List (List Char) :=
  match config.get "outbounds" with
  | some (.array outbounds) => outbounds.filterMap outboundTag
  | _ => []

theorem filterMap_outboundTag (nodes : List Node) :
    (nodes.map singboxNode).filterMap outboundTag = nodes.map Node.name := by
  induction nodes with
  | nil => rfl
  | cons node nodes ih =>
      have htag : outboundTag (singboxNode node) = some node.name := by
        rw [outboundTag, singboxNode_tag]
        rfl
      rw [List.map_cons, List.filterMap_cons_some htag, ih, List.map_cons]

theorem singboxTags_renderSingbox (nodes : List Node) (selected : List RuleSpec)
    (customRules : CustomRules) (chinaOptimized : Bool) :
    singboxTags (renderSingbox nodes selected customRules chinaOptimized) =
      nodes.map Node.name ++ builtIn := by
  have hgroup : outboundTag (.ofFields [("type", text "selector"), ("tag", text "PROXY"),
      ("outbounds", .array ((proxyNodeNames nodes).map .string))]) = some "PROXY".toList := by
    rw [outboundTag, Json.get_ofFields]
    rfl
  have hdirect : outboundTag (.ofFields [("type", text "direct"), ("tag", text "DIRECT")]) =
      some "DIRECT".toList := by
    rw [outboundTag, Json.get_ofFields]
    rfl
  have houtbounds : (renderSingbox nodes selected customRules chinaOptimized).get "outbounds" =
      some (.array (nodes.map singboxNode ++
        [.ofFields [("type", text "selector"), ("tag", text "PROXY"),
            ("outbounds", .array ((proxyNodeNames nodes).map .string))],
          .ofFields [("type", text "direct"), ("tag", text "DIRECT")]])) := by
    rw [renderSingbox, Json.get_ofFields]
    rfl
  rw [singboxTags, houtbounds]
  simp only [List.filterMap_append, filterMap_outboundTag]
  rw [List.filterMap_cons_some hgroup, List.filterMap_cons_some hdirect]
  rfl

/-- The outbounds that route rules name. -/
def singboxTargets (config : Json) : List (List Char) :=
  match config.get "route" with
  | none => []
  | some route =>
    (match route.get "rules" with
      | some (.array rules) => rules.filterMap fun rule => (rule.get "outbound").bind Json.asStr
      | _ => []) ++
    ((route.get "final").bind Json.asStr).toList

theorem outbound_last {fields : List (String × Json)} {action : RuleAction}
    (hkeys : ∀ field ∈ fields, field.1 ≠ "action" ∧ field.1 ≠ "outbound") {target : List Char}
    (h : ((Json.ofFields (fields ++ [singboxAction action])).get "outbound").bind Json.asStr =
      some target) : target ∈ builtIn := by
  have hnone : fields.reverse.lookup "outbound" = none := by
    rw [List.lookup_eq_none_iff]
    intro field hfield
    have hne := hkeys field (List.mem_reverse.mp hfield)
    grind
  rw [Json.get_ofFields, List.reverse_append, List.lookup_append, hnone] at h
  cases action with
  | reject => cases h
  | direct | proxy =>
      cases h
      decide

/-- **Rules name what is in every profile.** -/
theorem singboxTargets_subset (nodes : List Node) (selected : List RuleSpec)
    (customRules : CustomRules) (chinaOptimized : Bool) :
    singboxTargets (renderSingbox nodes selected customRules chinaOptimized) ⊆ builtIn := by
  obtain ⟨route, hroute, hrules, hfinal⟩ :=
    @renderSingbox_route selected nodes customRules chinaOptimized
  have hcustom : ∀ (rules : List DomainRule) (action : RuleAction),
      ∀ rule ∈ singboxCustomRule rules action, ∀ target,
        (rule.get "outbound").bind Json.asStr = some target → target ∈ builtIn := by
    intro rules action rule hrule target htarget
    rw [singboxCustomRule] at hrule
    split_ifs at hrule
    · cases hrule
    · obtain rfl := List.mem_singleton.mp hrule
      exact outbound_last (domainFields_keys rules) htarget
  rw [singboxTargets, hroute]
  simp only [hrules, hfinal]
  intro target htarget
  rcases List.mem_append.mp htarget with htarget | htarget
  · obtain ⟨rule, hrule, htarget⟩ := List.mem_filterMap.mp htarget
    rcases List.mem_append.mp hrule with hrule | hrule
    · rcases List.mem_append.mp hrule with hrule | hrule
      · exact hcustom _ _ rule hrule target htarget
      · exact hcustom _ _ rule hrule target htarget
    · obtain ⟨spec, -, rfl⟩ := List.mem_map.mp hrule
      rw [singboxRouteRule, ← List.singleton_append] at htarget
      exact outbound_last (by simp) htarget
  · rw [Option.mem_toList] at htarget
    cases htarget
    decide

/-! ### Clash -/

/-- The lines of `render_clash` that say what the outbounds are. -/
def clashOutbounds (nodes : List Node) : List (List Char) :=
  nodes.flatMap clashProxy ++
    (["proxy-groups:", "  - name: PROXY", "    type: select", "    proxies:"].map String.toList) ++
    (proxyNodeNames nodes).map ("      - ".toList ++ yamlQuote ·) ++ ["      - DIRECT".toList]

/-- The name a line gives. -/
def lineName (line : List Char) : Option (List Char) :=
  (stripStart "  - name: ".toList line).bind readScalar

/-- The names of the proxies and groups, and of the outbounds that Clash has of its own. -/
def clashTags (ls : List (List Char)) : List (List Char) :=
  ls.filterMap lineName ++ ["DIRECT".toList, "REJECT".toList]

/-- The outbounds that the lines of rules name. -/
def clashTargets (ls : List (List Char)) : List (List Char) :=
  (ls.filterMap (stripStart "  - ".toList)).filterMap fun line => (readRule line).map Prod.snd

/-- A line inside of an entry. -/
def Deep (line : List Char) : Prop := "    ".toList.isPrefixOf line = true

instance (line : List Char) : Decidable (Deep line) := inferInstanceAs (Decidable (_ = true))

theorem Deep.append {line : List Char} (h : Deep line) (rest : List Char) : Deep (line ++ rest) :=
  List.isPrefixOf_iff_prefix.mpr
    ((List.isPrefixOf_iff_prefix.mp h).trans (List.prefix_append line rest))

theorem deep_yamlField (key : String) (value : List Char) : Deep (yamlField key value) :=
  Deep.append (Deep.append (Deep.append (by decide) _) _) _

/-- It gives no name. -/
theorem Deep.lineName {line : List Char} (h : Deep line) : lineName line = none := by
  obtain ⟨rest, rfl⟩ := List.isPrefixOf_iff_prefix.mp h
  have hstrip : stripStart "  - name: ".toList ("    ".toList ++ rest) = none :=
    if_neg (by simp [List.isPrefixOf])
  rw [Sublink.lineName, hstrip]
  rfl

section All
variable {α : Type} {P : α → Prop} {l l' : List α}

theorem forall_mem_ite {p : Prop} [Decidable p] (h : ∀ a ∈ l, P a) (h' : ∀ a ∈ l', P a) :
    ∀ a ∈ if p then l else l', P a := by
  split_ifs
  · exact h
  · exact h'

end All

theorem cons_parts {α : Type} (a b c d : α) (l₁ l₂ l₃ l₄ : List α) :
    [a, b, c, d] ++ l₁ ++ l₂ ++ l₃ ++ l₄ = a :: ([b, c, d] ++ l₁ ++ l₂ ++ l₃ ++ l₄) := rfl

/-- The lines of an entry are inside of it, but for the first. -/
theorem deep_clashProxy (node : Node) :
    ∃ rest, clashProxy node = ("  - name: ".toList ++ yamlQuote node.name) :: rest ∧
      ∀ line ∈ rest, Deep line := by
  have hfield := deep_yamlField
  refine ⟨_, cons_parts _ _ _ _ _ _ _ _, ?_⟩
  simp only [List.forall_mem_append]
  refine ⟨⟨⟨⟨?_, ?_⟩, ?_⟩, ?_⟩, ?_⟩
  · simp only [List.forall_mem_cons]
    exact ⟨hfield _ _, hfield _ _, Deep.append (by decide) _, by simp⟩
  · cases node.kind with
    | ssh =>
        simp only [List.forall_mem_append]
        refine ⟨⟨⟨by simp [hfield], ?_⟩, forall_mem_ite (by simp) ?_⟩, by simp; decide⟩
        · rw [yamlBlockField_eq, List.forall_mem_cons, List.forall_mem_map]
          exact ⟨by decide, fun line _ => Deep.append (by decide) line⟩
        · rw [List.forall_mem_cons, List.forall_mem_map]
          exact ⟨by decide, fun key _ => Deep.append (by decide) _⟩
    | vless =>
        simp only [List.forall_mem_append]
        refine ⟨?_, forall_mem_ite (by simp [hfield]) (by simp)⟩
        simp only [List.forall_mem_cons]
        exact ⟨hfield _ _, Deep.append (by decide) _, by simp⟩
    | shadowsocks | tuic | vmess | hysteria2 => simp [hfield]
  · refine forall_mem_ite ?_ (by simp)
    rw [List.forall_mem_append]
    refine ⟨forall_mem_ite ?_ ?_, forall_mem_ite (by simp; decide) (by simp)⟩
    · simp only [List.forall_mem_cons]
      exact ⟨hfield _ _, by decide, by decide, by simp⟩
    · simp only [List.forall_mem_cons]
      exact ⟨by decide, hfield _ _, by simp⟩
  · exact forall_mem_ite (by simp [hfield]) (by simp)
  · refine forall_mem_ite ?_ (by simp)
    rw [List.forall_mem_append]
    refine ⟨by simp [hfield], forall_mem_ite ?_ (by simp)⟩
    simp only [List.forall_mem_append]
    refine ⟨⟨?_, forall_mem_ite (by simp) ?_⟩, forall_mem_ite (by simp) ?_⟩
    · simp only [List.forall_mem_cons]
      exact ⟨Deep.append (Deep.append (by decide) _) _, by simp⟩
    · simp only [List.forall_mem_cons]
      exact ⟨Deep.append (by decide) _, by simp⟩
    · simp only [List.forall_mem_cons]
      exact ⟨by decide, Deep.append (by decide) _, by simp⟩

theorem filterMap_lineName_clashProxy (node : Node) :
    (clashProxy node).filterMap lineName = [oneLine node.name] := by
  obtain ⟨rest, hproxy, hrest⟩ := deep_clashProxy node
  have hname : lineName ("  - name: ".toList ++ yamlQuote node.name) =
      some (oneLine node.name) := by
    rw [lineName, stripStart_append, Option.bind_some, readScalar_yamlQuote]
  rw [hproxy, List.filterMap_cons_some hname, List.filterMap_eq_nil_iff.mpr]
  exact fun line hline => (hrest line hline).lineName

theorem clashTags_clashOutbounds (nodes : List Node) :
    clashTags (clashOutbounds nodes) = nodes.map (oneLine <| Node.name ·) ++ clashBuiltIn := by
  have hproxies : (nodes.flatMap clashProxy).filterMap lineName =
      nodes.map (oneLine <| Node.name ·) := by
    rw [List.filterMap_flatMap]
    simp only [filterMap_lineName_clashProxy]
    exact List.map_eq_flatMap.symm
  have hgroup : ((proxyNodeNames nodes).map ("      - ".toList ++ yamlQuote ·)).filterMap lineName =
      [] := by
    rw [List.filterMap_eq_nil_iff, List.forall_mem_map]
    exact fun name _ => (Deep.append (by decide) _).lineName
  have htitle : (["proxy-groups:", "  - name: PROXY", "    type: select", "    proxies:"].map
      String.toList).filterMap lineName = ["PROXY".toList] := by decide
  have hdirect : ["      - DIRECT".toList].filterMap lineName = [] := by decide
  rw [clashTags, clashOutbounds, List.filterMap_append, List.filterMap_append,
    List.filterMap_append, hproxies, hgroup, htitle, hdirect]
  simp [clashBuiltIn, builtIn]

theorem rulePolicy_mem (action : RuleAction) : (rulePolicy action).toList ∈ clashBuiltIn := by
  cases action <;> decide

/-- **Lines name what Clash has**, if no domain has a comma. -/
theorem clashTargets_subset {selected : List RuleSpec} {customRules : CustomRules}
    (hselected : selected ⊆ rules ++ chinaRules)
    (hcomma : ∀ rule ∈ customRules.blacklist ++ customRules.whitelist, ',' ∉ rule.domain) :
    clashTargets (clashRules selected customRules) ⊆ clashBuiltIn := by
  rw [List.forall_mem_append] at hcomma
  have hread : ∀ {line kind action target},
      readRule line = some (kind, (rulePolicy action).toList) →
      (readRule line).map Prod.snd = some target → target ∈ clashBuiltIn := by
    intro line kind action target hline htarget
    rw [hline] at htarget
    cases htarget
    exact rulePolicy_mem action
  intro target htarget
  rw [clashTargets, filterMap_clashRules] at htarget
  obtain ⟨line, hline, htarget⟩ := List.mem_filterMap.mp htarget
  simp only [List.mem_append, List.mem_map, List.mem_flatMap, List.mem_singleton, ruleSetLines]
    at hline
  rcases hline with ((⟨rule, hrule, rfl⟩ | ⟨rule, hrule, rfl⟩) | ⟨spec, hspec, hset⟩) | rfl
  · exact hread (readRule_of_comma .reject (hcomma.1 rule hrule)) htarget
  · exact hread (readRule_of_comma .direct (hcomma.2 rule hrule)) htarget
  · have hname := fun set hset => (@name_comma spec (hselected hspec) set hset).1
    rw [RuleSpec.ruleSets, List.forall_mem_append, List.forall_mem_map, List.forall_mem_map]
      at hname
    rcases hset with ⟨site, hsite, rfl⟩ | ⟨ip, hip, rfl⟩
    · exact hread (readRule_site (hname.1 site hsite)) htarget
    · exact hread (readRule_ip (hname.2 ip hip)) htarget
  · cases htarget
    decide

/-- The lines are in the profile. -/
theorem renderClash_outbounds (nodes : List Node) (selected : List RuleSpec)
    (customRules : CustomRules) (useMrs chinaOptimized : Bool) :
    ∃ before after, renderClash nodes selected customRules useMrs chinaOptimized =
      unlines (before ++ clashOutbounds nodes ++ after) := by
  have hassoc : ∀ (a b c d e f g h i j k l : List (List Char)),
      a ++ b ++ c ++ d ++ e ++ f ++ g ++ h ++ i ++ j ++ k ++ l =
        a ++ (b ++ c ++ d ++ e) ++ (f ++ g ++ h ++ i ++ j ++ k ++ l) := by simp
  exact ⟨_, _, congrArg unlines (hassoc _ _ _ _ _ _ _ _ _ _ _ _)⟩

/-! ### Distinct names -/

/-- Names that are not among others. -/
theorem nodup_append_iff {names others : List (List Char)} (hothers : others.Nodup) :
    (names ++ others).Nodup ↔ names.Nodup ∧ ∀ name ∈ names, name ∉ others := by
  rw [List.nodup_append, and_iff_right hothers]
  refine and_congr_right fun _ => forall₂_congr fun name _ => ⟨fun h hmem => h name hmem rfl, ?_⟩
  rintro h other hother rfl
  exact h hother

theorem oneLine_mem_clashBuiltIn_iff {name : List Char} :
    oneLine name ∈ clashBuiltIn ↔ name ∈ clashBuiltIn := by
  simp only [clashBuiltIn, builtIn, List.mem_append, List.mem_pair, List.mem_singleton]
  rw [oneLine_eq_iff (by decide) (by decide), oneLine_eq_iff (by decide) (by decide),
    oneLine_eq_iff (by decide) (by decide)]

/-- **When the names in a profile are distinct**: when those of the nodes are, on one line for
Clash, and none is that of a built-in outbound.  Then each entry of the group and each target of a
rule denotes one outbound; for Clash, if no domain in the lines of rules has a comma. -/
theorem outbound_tags_iff (nodes : List Node) (selected : List RuleSpec)
    (customRules : CustomRules) (useMrs chinaOptimized : Bool) :
    ((singboxTags (renderSingbox nodes selected customRules chinaOptimized)).Nodup ↔
      (nodes.map Node.name).Nodup ∧ ∀ node ∈ nodes, node.name ∉ builtIn) ∧
    ((singboxTags (renderSingbox nodes selected customRules chinaOptimized)).Nodup →
      ∀ name ∈ proxyNodeNames nodes ++ builtIn ++
          singboxTargets (renderSingbox nodes selected customRules chinaOptimized),
        (singboxTags (renderSingbox nodes selected customRules chinaOptimized)).count name = 1) ∧
    (∃ before after, renderClash nodes selected customRules useMrs chinaOptimized =
      unlines (before ++ clashOutbounds nodes ++ after)) ∧
    (∃ before, renderClash nodes selected customRules useMrs chinaOptimized =
      unlines (before ++ "rules:".toList :: clashRules selected customRules)) ∧
    ((clashTags (clashOutbounds nodes)).Nodup ↔
      (nodes.map (oneLine <| Node.name ·)).Nodup ∧ ∀ node ∈ nodes, node.name ∉ clashBuiltIn) ∧
    ((clashTags (clashOutbounds nodes)).Nodup →
      (∀ name ∈ proxyNodeNames nodes ++ clashBuiltIn,
        (clashTags (clashOutbounds nodes)).count (oneLine name) = 1) ∧
      (selected ⊆ rules ++ chinaRules →
        (∀ rule ∈ customRules.blacklist ++ customRules.whitelist, ',' ∉ rule.domain) →
        ∀ target ∈ clashTargets (clashRules selected customRules),
          (clashTags (clashOutbounds nodes)).count target = 1)) := by
  have hrefs := proxyNodeNames_subset nodes
  rw [singboxTags_renderSingbox, clashTags_clashOutbounds]
  refine ⟨?_, fun hnodup name hname => List.count_eq_one_of_mem hnodup ?_,
    renderClash_outbounds nodes selected customRules useMrs chinaOptimized,
    renderClash_eq nodes customRules useMrs chinaOptimized, ?_, fun hnodup =>
    ⟨fun name hname => List.count_eq_one_of_mem hnodup ?_, fun hselected hcomma target htarget =>
      List.count_eq_one_of_mem hnodup (List.mem_append_right _ ?_)⟩⟩
  · rw [nodup_append_iff (by decide), List.forall_mem_map]
  · rcases List.mem_append.mp hname with hname | hname
    · exact List.mem_append.mpr ((List.mem_append.mp hname).imp (@hrefs name) id)
    · exact List.mem_append_right _ (singboxTargets_subset _ _ _ _ hname)
  · rw [nodup_append_iff (by decide), List.forall_mem_map]
    simp only [oneLine_mem_clashBuiltIn_iff]
  · rcases List.mem_append.mp hname with hname | hname
    · obtain ⟨node, hnode, rfl⟩ := List.mem_map.mp (hrefs hname)
      exact List.mem_append_left _ (List.mem_map_of_mem (f := (oneLine <| Node.name ·)) hnode)
    · exact List.mem_append_right _ (oneLine_mem_clashBuiltIn_iff.mpr hname)
  · exact clashTargets_subset hselected hcomma htarget

/-- **Two nodes of one name**, here the same URI on two lines. -/
theorem outbound_tags_twice :
    parseInput urlCodec (['\n'].intercalate [relayedUrl.toString, relayedUrl.toString]) =
        .ok [relayedNode, relayedNode] ∧
      ¬ (singboxTags (renderSingbox [relayedNode, relayedNode] [] ⟨[], []⟩ false)).Nodup ∧
      ¬ (clashTags (clashOutbounds [relayedNode, relayedNode])).Nodup := by
  have hline : UriLine relayedUrl.toString := uriLine_of_clean (by decide) (by decide)
  refine ⟨?_, ?_, ?_⟩
  · refine (parseInput_intercalate_iff (by simp [hline]) (List.cons_ne_nil _ _) (by decide)).mpr
      ⟨by decide, .cons relayedNode_parse (.cons relayedNode_parse .nil)⟩
  · rw [singboxTags_renderSingbox]
    simp
  · rw [clashTags_clashOutbounds]
    simp

end SingBoxMini.Sublink
