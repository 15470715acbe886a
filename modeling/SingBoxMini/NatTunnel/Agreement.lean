import SingBoxMini.NatTunnel.Handshake

/-!
# NAT tunnel — Handshake — Agreement

Whether the gateway and a client agree on the client's name and subscription URL, when everything
between them is in an attacker's hands.

The MAC is ideal: the gateway finds a valid tag for a byte string only where an honest client
computed it for that byte string (`Unforged`).  So agreement is about what that byte string
determines.  The name and the URL go into it one after the other, and their lengths do not.

* `honest_answer_read_differently`: the tag of a client `node` with URL `http://x` is accepted for
  a client of the name `nodehttp://x` without a URL.
* `agreement_iff`: the parties agree on a node exactly if its name and URL cannot be cut at another
  place into a name and a URL the validators accept.
-/

namespace SingBoxMini.NatTunnel
open Bytes Text

/-- An honest run of `client_authenticate`, on whatever it was sent. -/
structure HonestClient where
  name : String
  url : String
  received : List UInt8

/-- The client answered the challenge: it was sent the magic and the challenge, and wrote its
announcement and the tag. -/
def HonestClient.Answers (crates : Crates) (token : List UInt8) (client : HonestClient)
    (challenge : Challenge) : Prop :=
  ∃ rest tag, client.received = magic ++ (challenge.bytes ++ rest) ∧
    challengeMac crates token challenge.bytes (asBytes client.name) (asBytes client.url) =
      .ok tag ∧
    ((clientAuthenticate crates token client.name client.url).on client.received).1 =
      announcement client.name client.url ++ tag

/-- The gateway returns `node` on what it was sent. -/
def Accepts (crates : Crates) (token : List UInt8) (challenge : Challenge) (received : List UInt8)
    (node : AuthenticatedNode) : Prop :=
  ((gatewayAuthenticate crates token challenge).on received).2 = some (.ok node)

/-- **The ideal MAC**: where the gateway finds the tag for a byte string, an honest client computed
it for that byte string. -/
def Unforged (crates : Crates) (token : List UInt8) (challenge : Challenge)
    (honest : List HonestClient) (received : List UInt8) : Prop :=
  ∀ node, Accepts crates token challenge received node →
    ∃ client ∈ honest, ∃ answered, client.Answers crates token answered ∧
      macInput answered.bytes (asBytes client.name) (asBytes client.url) =
        macInput challenge.bytes (asBytes node.name) (asBytes node.subscriptionUrl)

/-- **Agreement** on a node: whenever the gateway returns it, an honest client answered the
gateway's challenge with that name and that URL. -/
def Agreement (crates : Crates) (token : List UInt8) (challenge : Challenge)
    (node : AuthenticatedNode) : Prop :=
  ∀ honest received, Unforged crates token challenge honest received →
    Accepts crates token challenge received node →
    ∃ client ∈ honest, client.Answers crates token challenge ∧ client.name = node.name ∧
      client.url = node.subscriptionUrl

/-- The name and the URL together can be cut at another place: nowhere; within the name; or within
the URL. -/
def Resplittable (crates : Crates) (node : AuthenticatedNode) : Prop :=
  (node.subscriptionUrl ≠ "" ∧ len node.name + len node.subscriptionUrl ≤ maxNodeNameLength) ∨
  (∃ p q, node.name = p ++ q ∧ p ≠ "" ∧ q ≠ "" ∧
    UrlAccepted crates (q ++ node.subscriptionUrl)) ∨
  (∃ p q, node.subscriptionUrl = p ++ q ∧ p ≠ "" ∧ q ≠ "" ∧
    len node.name + len p ≤ maxNodeNameLength ∧ UrlAccepted crates q)

/-! ### Cutting a text -/

section Cutting

variable {crates : Crates} {name url : String}

theorem control_append (s t : String) :
    (s ++ t).toList.any isControl = (s.toList.any isControl || t.toList.any isControl) := by
  rw [String.toList_append, List.any_append]

theorem UrlAccepted.no_control (h : UrlAccepted crates url) : ¬ url.toList.any isControl := by
  rcases h with rfl | ⟨-, -, h⟩
  · decide
  · exact h

theorem append_ne_empty {s t : String} (h : s ≠ "") : s ++ t ≠ "" := by
  intro happ
  rw [← String.toList_inj, String.toList_append] at happ
  exact h (String.toList_inj.mp (List.append_eq_nil_iff.mp happ).1)

/-- Two texts with one concatenation are cut at two places of it. -/
theorem append_cases {s t s' t' : String} (h : s' ++ t' = s ++ t) :
    (∃ q, s = s' ++ q ∧ t' = q ++ t) ∨ ∃ p, s' = s ++ p ∧ t = p ++ t' := by
  have hlist : s'.toList ++ t'.toList = s.toList ++ t.toList := by
    rw [← String.toList_append, ← String.toList_append, h]
  rcases List.append_eq_append_iff.mp hlist with ⟨l, hs, ht⟩ | ⟨l, hs, ht⟩
  · refine .inl ⟨String.ofList l, ?_, ?_⟩
    · rw [← String.toList_inj, String.toList_append, String.toList_ofList, hs]
    · rw [← String.toList_inj, String.toList_append, String.toList_ofList, ht]
  · refine .inr ⟨String.ofList l, ?_, ?_⟩
    · rw [← String.toList_inj, String.toList_append, String.toList_ofList, hs]
    · rw [← String.toList_inj, String.toList_append, String.toList_ofList, ht]

/-- A longer name is accepted if its length is. -/
theorem NameAccepted.append {s : String} (hname : NameAccepted name) (hs : ¬ s.toList.any isControl)
    (hlen : len name + len s ≤ maxNodeNameLength) : NameAccepted (name ++ s) := by
  refine ⟨append_ne_empty hname.1, ?_, ?_⟩
  · rwa [len_append]
  · rw [control_append, Bool.or_eq_true]
    exact not_or.mpr ⟨hname.2.2, hs⟩

/-- The first part of an accepted name is accepted, unless it is empty. -/
theorem NameAccepted.of_append {p q : String} (h : NameAccepted (p ++ q)) (hp : p ≠ "") :
    NameAccepted p := by
  obtain ⟨-, hlen, hcontrol⟩ := h
  rw [len_append] at hlen
  rw [control_append, Bool.or_eq_true] at hcontrol
  exact ⟨hp, (Nat.le_add_right _ _).trans hlen, fun hc => hcontrol (.inl hc)⟩

/-- Another name and URL that the validators accept and that read the same one after the other. -/
def OtherCut (crates : Crates) (node : AuthenticatedNode) (name url : String) : Prop :=
  NameAccepted name ∧ UrlAccepted crates url ∧ ¬ (name = node.name ∧ url = node.subscriptionUrl) ∧
    name ++ url = node.name ++ node.subscriptionUrl

/-- `Resplittable` names every other cut. -/
theorem exists_otherCut_iff {node : AuthenticatedNode} (hname : NameAccepted node.name)
    (hurl : UrlAccepted crates node.subscriptionUrl) :
    (∃ name url, OtherCut crates node name url) ↔ Resplittable crates node := by
  obtain ⟨name, url⟩ := node
  simp only [Resplittable, OtherCut] at hname hurl ⊢
  constructor
  · rintro ⟨name', url', hname', hurl', hne, happ⟩
    rcases append_cases happ with ⟨q, hn, hu⟩ | ⟨p, hn, hu⟩
    · -- the other cut lies within the name
      refine .inr (.inl ⟨name', q, hn, hname'.1, ?_, hu ▸ hurl'⟩)
      rintro rfl
      exact hne ⟨by simpa using hn.symm, by simpa using hu⟩
    · have hp : p ≠ "" := by
        rintro rfl
        exact hne ⟨by simpa using hn, by simpa using hu.symm⟩
      have hlen : len name + len p ≤ maxNodeNameLength := by
        rw [← len_append, ← hn]
        exact hname'.2.1
      by_cases hempty : url' = ""
      · have hpurl : url = p := by simpa [hempty] using hu
        exact .inl ⟨hpurl ▸ hp, hpurl ▸ hlen⟩
      · exact .inr (.inr ⟨p, url', hu, hp, hempty, hlen, hurl'⟩)
  · rintro (⟨hne, hlen⟩ | ⟨p, q, rfl, hp, hq, hcut⟩ | ⟨p, q, rfl, hp, hq, hlen, hcut⟩)
    · exact ⟨name ++ url, "", hname.append hurl.no_control hlen, .inl rfl, fun h => hne h.2.symm,
        by simp⟩
    · refine ⟨p, q ++ url, hname.of_append hp, hcut, fun h => hq ?_, (String.append_assoc ..).symm⟩
      exact String.append_right_inj p |>.mp (by simpa using h.1.symm)
    · have hcontrol := hurl.no_control
      rw [control_append, Bool.or_eq_true] at hcontrol
      refine ⟨name ++ p, q, hname.append (fun h => hcontrol (.inl h)) hlen, hcut, fun h => hp ?_,
        String.append_assoc ..⟩
      exact String.append_right_inj name |>.mp (by simpa using h.1)

end Cutting

/-! ### What the MAC input determines -/

/-- **The MAC input determines the challenge, and the name and the URL one after the other.** -/
theorem macInput_eq_iff {c c' : Challenge} {name name' url url' : String} :
    macInput c.bytes (asBytes name) (asBytes url) =
        macInput c'.bytes (asBytes name') (asBytes url') ↔
      c = c' ∧ name ++ url = name' ++ url' := by
  obtain ⟨bytes, hbytes⟩ := c
  obtain ⟨bytes', hbytes'⟩ := c'
  simp only [macInput, List.append_assoc, List.append_cancel_left_eq, Challenge.mk.injEq]
  rw [← asBytes_append, ← asBytes_append]
  constructor
  · intro h
    obtain ⟨hc, ht⟩ := List.append_inj h (hbytes.trans hbytes'.symm)
    exact ⟨hc, asBytes_inj.mp ht⟩
  · rintro ⟨rfl, h⟩
    rw [h]

/-! ### Honest clients -/

section Honest

variable {crates : Crates} {token : List UInt8} {challenge : Challenge}

theorem announcement_append_ne_nil (name url : String) (tag : List UInt8) :
    announcement name url ++ tag ≠ [] := by
  intro h
  have hlen := congrArg List.length h
  rw [announcement, List.append_assoc, List.length_append, length_beBytes, List.length_nil] at hlen
  omega

/-- A client that answers has a name and a URL the validators accept. -/
theorem HonestClient.Answers.accepted {client : HonestClient}
    (h : client.Answers crates token challenge) :
    NameAccepted client.name ∧ UrlAccepted crates client.url := by
  obtain ⟨rest, tag, hreceived, -, hout⟩ := h
  have hne := announcement_append_ne_nil client.name client.url tag
  rw [← hout, hreceived, clientAuthenticate, Proc.readExact_bind, Proc.on_read_append rfl] at hne
  simp only [ensure, if_true, Proc.ofExcept_ok, Proc.ok_bind] at hne
  cases hn : validateNodeName client.name with
  | error e =>
      rw [hn] at hne
      exact absurd rfl hne
  | ok _ =>
      rw [hn] at hne
      simp only [Proc.ofExcept_ok, Proc.ok_bind] at hne
      cases hu : validateSubscriptionUrl crates client.url with
      | error e =>
          rw [hu] at hne
          exact absurd rfl hne
      | ok _ => exact ⟨validateNodeName_ok_iff.mp hn, validateSubscriptionUrl_ok_iff.mp hu⟩

/-- A client with accepted values that is sent the challenge answers it. -/
theorem answers_of_accepted {name url : String} (htoken : token.length ≤ 64)
    (hname : NameAccepted name) (hurl : UrlAccepted crates url) (challenge : Challenge) :
    (HonestClient.mk name url (magic ++ (challenge.bytes ++ []))).Answers crates token
      challenge := by
  refine ⟨[], _, rfl, if_pos htoken, ?_⟩
  rw [(client_answers htoken hname hurl challenge []).on_eq]
  simp [clientWait, Proc.on]

/-- The gateway takes the announcement of a name and a URL with their tag. -/
theorem accepts_announced (challenge : Challenge) {node : AuthenticatedNode}
    (htoken : token.length ≤ 64) (hname : NameAccepted node.name)
    (hurl : UrlAccepted crates node.subscriptionUrl) :
    Accepts crates token challenge (announcement node.name node.subscriptionUrl ++
      (crates.blake2bMac512 token
        (macInput challenge.bytes (asBytes node.name) (asBytes node.subscriptionUrl)) ++ []))
      node := by
  rw [Accepts, (gateway_challenges challenge _).on_eq,
    (gateway_accepts htoken hname hurl challenge []).on_eq]
  rfl

end Honest

/-! ### Agreement -/

section Agreement

variable {crates : Crates} {token : List UInt8} {challenge : Challenge} {node : AuthenticatedNode}

/-- One honest answer over the same text is enough for what the gateway accepts. -/
theorem unforged_of_answers {client : HonestClient} {received : List UInt8}
    (hanswers : client.Answers crates token challenge)
    (hacc : Accepts crates token challenge received node)
    (happ : client.name ++ client.url = node.name ++ node.subscriptionUrl) :
    Unforged crates token challenge [client] received := by
  intro node' hacc'
  have hnode : node = node' := by
    rw [Accepts] at hacc hacc'
    rw [hacc] at hacc'
    exact Except.ok.inj (Option.some.inj hacc')
  subst hnode
  exact ⟨client, List.mem_singleton_self _, challenge, hanswers, macInput_eq_iff.mpr ⟨rfl, happ⟩⟩

/-- An honest answer for another cut of the same text is accepted for this one: the tag fits. -/
theorem not_agreement_of_otherCut {name url : String} (htoken : token.length ≤ 64)
    (hname : NameAccepted node.name) (hurl : UrlAccepted crates node.subscriptionUrl)
    (hcut : OtherCut crates node name url) : ¬ Agreement crates token challenge node := by
  obtain ⟨hname', hurl', hne, happ⟩ := hcut
  intro hagree
  have hacc := accepts_announced challenge htoken hname hurl
  have hanswers := answers_of_accepted htoken hname' hurl' challenge
  obtain ⟨client, hmem, -, hn, hu⟩ := hagree _ _ (unforged_of_answers hanswers hacc happ) hacc
  rw [List.mem_singleton] at hmem
  subst hmem
  exact hne ⟨hn, hu⟩

/-- **A counterexample to agreement**: the answer of a client `node` with URL `http://x` is
accepted from a client `nodehttp://x` without one. -/
theorem honest_answer_read_differently :
    ¬ Agreement sampleCrates (asBytes "a-long-random-test-token") sampleChallenge
      ⟨"nodehttp://x", ""⟩ := by
  have hcut : OtherCut sampleCrates ⟨"nodehttp://x", ""⟩ "node" "http://x" :=
    ⟨by decide, .inr (by decide), by decide, by decide⟩
  exact not_agreement_of_otherCut (by decide) (by decide) (.inl rfl) hcut

/-- Without another cut the tag fits only the name and the URL it was computed for. -/
theorem agreement_of_no_otherCut (h : ∀ name url, ¬ OtherCut crates node name url) :
    Agreement crates token challenge node := by
  intro honest received hunforged hacc
  obtain ⟨client, hmem, answered, hanswers, hmac⟩ := hunforged node hacc
  obtain ⟨rfl, happ⟩ := macInput_eq_iff.mp hmac
  obtain ⟨hname, hurl⟩ := hanswers.accepted
  have hsame : client.name = node.name ∧ client.url = node.subscriptionUrl := by
    by_contra hne
    exact h _ _ ⟨hname, hurl, hne, happ⟩
  exact ⟨client, hmem, hanswers, hsame⟩

/-- **When the handshake agrees.**  The gateway and an honest client agree on a node exactly if the
gateway can never return it, or its name and URL cannot be cut at another place into a name and a
URL that the validators accept. -/
theorem agreement_iff (crates : Crates) (token : List UInt8) (challenge : Challenge)
    (node : AuthenticatedNode) :
    Agreement crates token challenge node ↔ ¬ (token.length ≤ 64 ∧ NameAccepted node.name ∧
      UrlAccepted crates node.subscriptionUrl ∧ Resplittable crates node) := by
  constructor
  · rintro hagree ⟨htoken, hname, hurl, hsplit⟩
    obtain ⟨name, url, hcut⟩ := (exists_otherCut_iff hname hurl).mpr hsplit
    exact not_agreement_of_otherCut htoken hname hurl hcut hagree
  · intro h honest received hunforged hacc
    obtain ⟨htoken, hname, hurl⟩ := of_gateway_ok hacc
    refine agreement_of_no_otherCut (fun name url hcut => h ⟨htoken, hname, hurl, ?_⟩) honest
      received hunforged hacc
    exact (exists_otherCut_iff hname hurl).mp ⟨name, url, hcut⟩

end Agreement

end SingBoxMini.NatTunnel
