import SingBoxMini.Support.Percent
import SingBoxMini.Sublink.Render

/-!
# Sublink — RuleLines

The lines of a user's domains in Clash and Surge profiles: a kind, a domain and a policy, with
commas between them.

`parse_domain_rules` splits the text of a user at commas, but then the domains are percent-decoded,
so `%2c` is a comma again.  `rule_lines_iff`: the lines have three fields if and only if no domain
has a comma once it is decoded.
-/

namespace SingBoxMini.Sublink
open Bytes Text Percent

/-! ### Hosts -/

/-- The forbidden domain code points of the URL standard. -/
def forbiddenDomain (c : Char) : Bool :=
  c.val ≤ 0x1F || c.val == 0x7F || [' ', '#', '/', ':', '<', '>', '?', '@', '[', '\\', ']', '^',
    '|', '%'].contains c

/-- What `Host::parse` uses: how the bytes of a domain are mapped to ASCII, and what is an address.
-/
structure HostLibrary where
  toAscii : List UInt8 → Option (List Char)
  endsInNumber : List Char → Bool
  isIpv4 : List Char → Bool
  isIpv6 : List Char → Bool

/-- `Host::parse` -/
def HostLibrary.parse (library : HostLibrary) (input : List Char) : Option Host :=
  if input.head? = some '[' then
    if input.getLast? = some ']' ∧ library.isIpv6 input.tail.dropLast then some .ipv6 else none
  else do
    let domain ← library.toAscii (percentDecode input)
    if domain = [] ∨ domain.any forbiddenDomain then none
    else if library.endsInNumber domain then if library.isIpv4 domain then some .ipv4 else none
    else some (.domain domain)

theorem HostLibrary.parse_domain {library : HostLibrary} {input domain : List Char}
    (h : library.parse input = some (.domain domain)) :
    library.toAscii (percentDecode input) = some domain ∧ domain.any forbiddenDomain = false := by
  rw [HostLibrary.parse] at h
  split_ifs at h
  · cases h
  · obtain ⟨ascii, hascii, h⟩ := Option.bind_eq_some_iff.mp h
    split_ifs at h with hforbidden
    · cases h
    · cases h
      rw [not_or, Bool.not_eq_true] at hforbidden
      exact ⟨hascii, hforbidden.2⟩

/-! ### Domains -/

/-- The kind of a line for a rule. -/
def DomainRule.kind : DomainRule → String
  | .exactly _ => "DOMAIN"
  | .suffix _ => "DOMAIN-SUFFIX"

variable {library : HostLibrary} {label : String} {raw value : List Char} {rule : DomainRule}
  {rules : List DomainRule}

/-- The domain of a rule is what `Host::parse` returns. -/
theorem parseDomain_ok (h : parseDomain library.parse label raw = .ok rule) :
    library.parse (bareDomain raw) = some (.domain rule.domain) := by
  rw [parseDomain] at h
  obtain ⟨_, -, h⟩ := bind_ok_iff.mp h
  obtain ⟨host, hhost, h⟩ := bind_ok_iff.mp h
  have hparse : library.parse (bareDomain raw) = some host := okOr_ok_iff.mp hhost
  cases host with
  | domain domain =>
      have hrule : rule.domain = domain := by
        cases h
        split_ifs <;> rfl
      rw [hparse, hrule]
  | ipv4 | ipv6 => cases h

/-- The rules seen so far are kept, and each domain adds its own. -/
theorem foldlM_rules {domains : List (List Char)} {seen : List DomainRule}
    {parse : List Char → Except AnyhowError DomainRule}
    (h : domains.foldlM (fun rules raw => do
      let rule ← parse raw
      return if rule ∈ rules then rules else rules ++ [rule]) seen = .ok rules) :
    (∀ rule ∈ seen, rule ∈ rules) ∧ (∀ raw ∈ domains, ∃ rule ∈ rules, parse raw = .ok rule) ∧
      ∀ rule ∈ rules, rule ∈ seen ∨ ∃ raw ∈ domains, parse raw = .ok rule := by
  induction domains generalizing seen with
  | nil =>
      cases h
      exact ⟨fun _ h => h, by simp, fun _ h => .inl h⟩
  | cons raw domains ih =>
      rw [List.foldlM_cons] at h
      obtain ⟨next, hnext, hrest⟩ := bind_ok_iff.mp h
      obtain ⟨rule, hrule, hpush⟩ := bind_ok_iff.mp hnext
      obtain ⟨hkeep, hall, hfrom⟩ := ih hrest
      have hmem : ∀ other, other ∈ next ↔ other ∈ seen ∨ other = rule := by
        intro other
        cases hpush
        split_ifs with hseen
        · exact ⟨.inl, fun h => h.elim id fun heq => heq ▸ hseen⟩
        · simp
      refine ⟨fun other hother => hkeep other ((hmem other).mpr (.inl hother)), ?_, ?_⟩
      · rw [List.forall_mem_cons]
        exact ⟨⟨rule, hkeep rule ((hmem rule).mpr (.inr rfl)), hrule⟩, hall⟩
      · intro other hother
        rcases hfrom other hother with hnext | ⟨raw', hraw', hparse⟩
        · rcases (hmem other).mp hnext with hseen | rfl
          · exact .inl hseen
          · exact .inr ⟨raw, List.mem_cons_self, hrule⟩
        · exact .inr ⟨raw', List.mem_cons_of_mem _ hraw', hparse⟩

/-- The rules are those of the domains. -/
theorem parseDomainRules_ok (h : parseDomainRules library.parse value label = .ok rules) :
    (∀ raw ∈ domainsOf value, ∃ rule ∈ rules, parseDomain library.parse label raw = .ok rule) ∧
      ∀ rule ∈ rules, ∃ raw ∈ domainsOf value, parseDomain library.parse label raw = .ok rule := by
  simp only [parseDomainRules, bind_ok_iff] at h
  obtain ⟨_, -, rules', hfold, _, -, hrules⟩ := h
  cases hrules
  obtain ⟨-, hall, hfrom⟩ := foldlM_rules hfold
  exact ⟨hall, fun rule hrule => (hfrom rule hrule).resolve_left List.not_mem_nil⟩

/-! ### Lines -/

/-- Where `write_clash_domain_rule` is called: the policy and what the line starts with. -/
def ruleWriters : List (String × String) :=
  [("REJECT", "  - "), ("DIRECT", "  - "), ("real-ip", "    - "), ("REJECT", ""), ("DIRECT", "")]

/-- **A line of three fields**: after its start, a kind, the domain and the policy. -/
def ThreeFields (policy start : String) (rule : DomainRule) : Prop :=
  let line := clashDomainRule policy start rule
  '\n' ∉ line ∧ '\r' ∉ line ∧ ∃ fields, stripStart start.toList line = some fields ∧
    fields.splitOn ',' = [rule.kind.toList, rule.domain, policy.toList]

theorem clashDomainRule_eq (policy start : String) (rule : DomainRule) :
    clashDomainRule policy start rule =
      start.toList ++ [','].intercalate [rule.kind.toList, rule.domain, policy.toList] := by
  cases rule <;> simp [clashDomainRule, DomainRule.kind, DomainRule.domain, String.toList_append,
    List.intercalate_cons_cons]

/-- A part of a line. -/
def PlainPart (part : List Char) : Prop := ',' ∉ part ∧ '\n' ∉ part ∧ '\r' ∉ part

instance (part : List Char) : Decidable (PlainPart part) := inferInstanceAs (Decidable (_ ∧ _))

theorem plain_of_ruleWriters {policy start : String} (h : (policy, start) ∈ ruleWriters) :
    PlainPart policy.toList ∧ PlainPart start.toList := by
  have hall : ruleWriters.all (fun writer =>
      PlainPart writer.1.toList ∧ PlainPart writer.2.toList) = true := by decide
  exact of_decide_eq_true (List.all_eq_true.mp hall _ h)

theorem plain_kind (rule : DomainRule) : PlainPart rule.kind.toList := by
  cases rule with
  | exactly domain => exact (by decide : PlainPart "DOMAIN".toList)
  | suffix domain => exact (by decide : PlainPart "DOMAIN-SUFFIX".toList)

/-- A line has three fields unless its domain has a comma. -/
theorem threeFields_iff {policy start : String} (hwriter : (policy, start) ∈ ruleWriters)
    (hdomain : rule.domain.any forbiddenDomain = false) :
    ThreeFields policy start rule ↔ ',' ∉ rule.domain := by
  obtain ⟨hpolicy, hstart⟩ := plain_of_ruleWriters hwriter
  have hkind := plain_kind rule
  have hbreak : ∀ c, forbiddenDomain c = true → c ∉ rule.domain := fun c hc hmem =>
    List.any_eq_false.mp hdomain c hmem hc
  constructor
  · rintro ⟨-, -, fields, -, hfields⟩
    -- a field of a line has no comma
    exact not_mem_of_mem_splitOn (s := fields) (by simp [hfields])
  · intro hcomma
    have hsplit : ([','].intercalate [rule.kind.toList, rule.domain, policy.toList]).splitOn ',' =
        [rule.kind.toList, rule.domain, policy.toList] :=
      List.splitOn_intercalate ',' (by simp [hkind.1, hcomma, hpolicy.1]) (List.cons_ne_nil _ _)
    have hline := clashDomainRule_eq policy start rule
    refine ⟨?_, ?_, _, by rw [hline, stripStart_append], hsplit⟩
    · rw [hline]
      simp [List.intercalate_cons_cons, hstart.2.1, hkind.2.1, hpolicy.2.1, hbreak '\n' (by decide)]
    · rw [hline]
      simp [List.intercalate_cons_cons, hstart.2.2, hkind.2.2, hpolicy.2.2, hbreak '\r' (by decide)]

/-- **When the lines of a user's domains have three fields**: when no domain has a comma after it is
decoded and mapped to ASCII. -/
theorem rule_lines_iff (h : parseDomainRules library.parse value label = .ok rules) :
    (∀ rule ∈ rules, ∀ writer ∈ ruleWriters, ThreeFields writer.1 writer.2 rule) ↔
      ∀ raw ∈ domainsOf value, ∀ domain,
        library.toAscii (percentDecode (bareDomain raw)) = some domain → ',' ∉ domain := by
  obtain ⟨hall, hfrom⟩ := parseDomainRules_ok h
  constructor
  · intro hfields raw hraw domain hdomain
    obtain ⟨rule, hrule, hparse⟩ := hall raw hraw
    obtain ⟨hascii, hforbidden⟩ := HostLibrary.parse_domain (parseDomain_ok hparse)
    cases Option.some.inj (hascii.symm.trans hdomain)
    exact (threeFields_iff (by decide) hforbidden).mp
      (hfields rule hrule ("REJECT", "") (by decide))
  · intro hcomma rule hrule writer hwriter
    obtain ⟨raw, hraw, hparse⟩ := hfrom rule hrule
    obtain ⟨hascii, hforbidden⟩ := HostLibrary.parse_domain (parseDomain_ok hparse)
    exact (threeFields_iff hwriter hforbidden).mpr (hcomma raw hraw rule.domain hascii)

/-- Domains in ASCII, none of which is an address. -/
def asciiLibrary : HostLibrary where
  toAscii bytes := ((ofUtf8 bytes).filter (·.all (·.val < 0x80))).map toAsciiLowercase
  endsInNumber _ := false
  isIpv4 _ := false
  isIpv6 _ := false

/-- Two domains, one of them with those below it. -/
theorem rule_lines_plain :
    ThreeFields "REJECT" "  - " (.exactly "a.b".toList) ∧
      ThreeFields "DIRECT" "" (.suffix "c".toList) := by
  have hparse : parseDomainRules asciiLibrary.parse "A.b, *.c".toList "whitelist" =
      .ok [.exactly "a.b".toList, .suffix "c".toList] := by decide
  have hdomains : domainsOf "A.b, *.c".toList = ["A.b".toList, "*.c".toList] := by decide
  have hfields := (rule_lines_iff hparse).mpr (by
    rw [hdomains]
    intro raw hraw domain hdomain hcomma
    have hfirst : asciiLibrary.toAscii (percentDecode (bareDomain "A.b".toList)) =
        some "a.b".toList := by decide
    have hsecond : asciiLibrary.toAscii (percentDecode (bareDomain "*.c".toList)) =
        some "c".toList := by decide
    rcases List.mem_pair.mp hraw with rfl | rfl
    · cases Option.some.inj (hfirst.symm.trans hdomain)
      exact absurd hcomma (by decide)
    · cases Option.some.inj (hsecond.symm.trans hdomain)
      exact absurd hcomma (by decide))
  exact ⟨hfields _ (by simp) ("REJECT", "  - ") (by decide),
    hfields _ (by simp) ("DIRECT", "") (by decide)⟩

/-- **A comma comes back** when `%2c` is decoded, and the line has four fields. -/
theorem rule_lines_comma :
    parseDomainRules asciiLibrary.parse "a%2cb".toList "blacklist" =
        .ok [.exactly "a,b".toList] ∧
      ¬ ThreeFields "REJECT" "" (.exactly "a,b".toList) := by
  refine ⟨by decide, fun h => ?_⟩
  exact (threeFields_iff (by decide) (by decide)).mp h (by decide)

end SingBoxMini.Sublink
