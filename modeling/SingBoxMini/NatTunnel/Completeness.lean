import SingBoxMini.NatTunnel.Handshake
import SingBoxMini.ReverseProxy.Settings

/-!
# NAT tunnel — Handshake — Completeness

Whether a gateway and a client with accepted settings and the same token complete the handshake.

The settings accept tokens of 16 to 256 bytes, and the MAC keys of at most 64.  Names and URLs pass
every check on both sides: the settings and the handshake accept the same URLs.

* `client_neverOk`: with a longer token the client never returns `Ok`.
* `handshake_completes_iff`: the handshake completes, in every schedule and every splitting of the
  stream, exactly if the token has at most 64 bytes.
-/

namespace SingBoxMini.NatTunnel
open Bytes ReverseProxy

/-- A gateway and a client at the ends of a connection. -/
def handshake (crates : Crates) (gatewayToken clientToken : String) (challenge : Challenge)
    (name url : String) : Duplex AnyhowError AuthenticatedNode Unit where
  left := gatewayAuthenticate crates (asBytes gatewayToken) challenge
  right := clientAuthenticate crates (asBytes clientToken) name url
  toRight := []
  toLeft := []

section Completeness

variable {crates : Crates} {token name url : String}

/-- **A schedule of the handshake** with a token the MAC takes: challenge, answer, verdict. -/
theorem handshake_schedule (htoken : len token ≤ 64) (hname : NameAccepted name)
    (hurl : UrlAccepted crates url) (challenge : Challenge) :
    Relation.ReflTransGen Duplex.Step (handshake crates token token challenge name url)
      ⟨.ok ⟨name, url⟩, .ok (), [], []⟩ := by
  let tag := crates.blake2bMac512 (asBytes token)
    (macInput challenge.bytes (asBytes name) (asBytes url))
  have hchallenge : Relation.ReflTransGen Duplex.Step
      (handshake crates token token challenge name url)
      ⟨gatewayReads crates (asBytes token) challenge,
        clientAuthenticate crates (asBytes token) name url, magic ++ (challenge.bytes ++ []), []⟩ :=
    Duplex.left_steps (gateway_challenges challenge []) _ []
  have hanswer : Relation.ReflTransGen Duplex.Step
      ⟨gatewayReads crates (asBytes token) challenge,
        clientAuthenticate crates (asBytes token) name url, magic ++ (challenge.bytes ++ []), []⟩
      ⟨gatewayReads crates (asBytes token) challenge, clientWait, [],
        announcement name url ++ (tag ++ [])⟩ := by
    rw [List.append_nil tag]
    exact Duplex.right_steps (client_answers htoken hname hurl challenge []) _ []
  have hverdict : Relation.ReflTransGen Duplex.Step
      ⟨gatewayReads crates (asBytes token) challenge, clientWait, [],
        announcement name url ++ (tag ++ [])⟩ ⟨.ok ⟨name, url⟩, clientWait, [authOk], []⟩ :=
    Duplex.left_steps (gateway_accepts htoken hname hurl challenge []) _ []
  have hend : Relation.ReflTransGen Duplex.Step
      (⟨.ok ⟨name, url⟩, clientWait, [authOk], []⟩ : Duplex AnyhowError AuthenticatedNode Unit)
      ⟨.ok ⟨name, url⟩, .ok (), [], []⟩ :=
    Duplex.right_steps client_ends _ []
  exact hchallenge.trans (hanswer.trans (hverdict.trans hend))

/-- **The handshake completes** with a token the MAC takes. -/
theorem handshake_completes (htoken : len token ≤ 64) (hname : NameAccepted name)
    (hurl : UrlAccepted crates url) (challenge : Challenge) :
    (handshake crates token token challenge name url).Ends ⟨name, url⟩ () :=
  Duplex.ends_of_schedule (handshake_schedule htoken hname hurl challenge)

/-- **Nothing is left of the handshake** once the gateway has returned: no byte of it is under way
to the gateway, and the client has yet to read exactly what is under way to it. -/
theorem handshake_hands_over (htoken : len token ≤ 64) (hname : NameAccepted name)
    (hurl : UrlAccepted crates url) {challenge : Challenge}
    {t : Duplex AnyhowError AuthenticatedNode Unit}
    (ht : Relation.ReflTransGen Duplex.Run (handshake crates token token challenge name url) t)
    (hleft : t.left = .ok ⟨name, url⟩) :
    t.toLeft = [] ∧ t.right.Steps t.toRight (.ok ()) [] [] := by
  have hend := Duplex.completes (handshake_schedule htoken hname hurl challenge) ht
  obtain ⟨out, hsteps, hnil⟩ := Duplex.steps_of_left_ok hend hleft
  obtain ⟨hto, rfl⟩ := List.append_eq_nil_iff.mp hnil
  exact ⟨hto, hsteps⟩

/-- **A token the MAC refuses** stops the client before its tag, whatever it reads. -/
theorem client_neverOk (htoken : ¬ len token ≤ 64) :
    (clientAuthenticate crates (asBytes token) name url).NeverOk := by
  intro magicRead
  refine Proc.neverOk_ofExcept fun _ _ => Proc.neverOk_ofExcept fun _ _ =>
    Proc.neverOk_ofExcept fun _ _ challenge => Proc.neverOk_ofExcept fun mac hmac => ?_
  have hrefused : challengeMac crates (asBytes token) challenge (asBytes name) (asBytes url) =
      .error ["invalid NAT tunnel token"] := if_neg htoken
  rw [hrefused] at hmac
  cases hmac

theorem handshake_fails (htoken : ¬ len token ≤ 64) (gatewayToken : String) (challenge : Challenge)
    (node : AuthenticatedNode) :
    ¬ (handshake crates gatewayToken token challenge name url).Ends node () :=
  Duplex.not_ends_of_neverOk (client_neverOk htoken) _ _

end Completeness

/-- **When the handshake completes.**  A gateway and a client with the same token, the client with
accepted settings and an accepted name, complete the handshake in every run exactly if the MAC takes
the token as a key.  Nothing else of the gateway's settings matters. -/
theorem handshake_completes_iff (crates : Crates) (gateway client : ReverseProxySettings)
    (hclient : client.validate crates.parseUrl = .ok ()) (hsame : gateway.token = client.token)
    (name : String) (hname : validateNodeName name = .ok ()) (challenge : Challenge) :
    (handshake crates gateway.token client.token challenge name client.subscriptionUrl).Ends
      ⟨name, client.subscriptionUrl⟩ () ↔ len client.token ≤ 64 := by
  constructor
  · intro hends
    by_contra hlong
    exact handshake_fails hlong _ _ _ hends
  · intro hshort
    rw [hsame]
    exact handshake_completes hshort (validateNodeName_ok_iff.mp hname)
      (ReverseProxySettings.of_validate hclient).2 challenge

/-- Enabled settings with a token. -/
def sampleSettings (role : ReverseProxyRole) (token : String) : ReverseProxySettings :=
  { ReverseProxySettings.default token with
    enabled := true, role := role, gateway := "gateway.example:7000",
    subscriptionUrl := "https://exit.example/sub/code" }

theorem handshake_completes_sample :
    (handshake sampleCrates "a-long-random-test-token" "a-long-random-test-token" sampleChallenge
      "test-exit" "https://exit.example/sub/code").Ends
      ⟨"test-exit", "https://exit.example/sub/code"⟩ () := by
  have hvalid : (sampleSettings .client "a-long-random-test-token").validate
      sampleCrates.parseUrl = .ok () := by decide
  exact (handshake_completes_iff sampleCrates (sampleSettings .gateway "a-long-random-test-token")
    (sampleSettings .client "a-long-random-test-token") hvalid rfl "test-exit" (by decide)
    sampleChallenge).mpr (by decide)

/-- **Accepted settings that never complete**: a token of 65 bytes. -/
theorem long_token_never_completes :
    let token := String.ofList (List.replicate 65 'a')
    let gateway := sampleSettings .gateway token
    let client := sampleSettings .client token
    gateway.validate sampleCrates.parseUrl = .ok () ∧
      client.validate sampleCrates.parseUrl = .ok () ∧ gateway.token = client.token ∧
      validateNodeName "test-exit" = .ok () ∧
      ¬ (handshake sampleCrates gateway.token client.token sampleChallenge "test-exit"
        client.subscriptionUrl).Ends ⟨"test-exit", client.subscriptionUrl⟩ () := by
  refine ⟨by decide, by decide, rfl, by decide, ?_⟩
  exact handshake_fails (by decide) _ _ _

end SingBoxMini.NatTunnel
