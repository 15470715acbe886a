import SingBoxMini.Support.Bytes
import SingBoxMini.Support.Duplex
import SingBoxMini.Support.Text

/-!
# NAT tunnel — Handshake

`gateway_authenticate`, `client_authenticate`, `challenge_mac` and the validators
(`nat_tunnel.rs`), as processes on a byte stream.

What the program takes from other crates is a parameter (`Crates`): `url::Url::parse`, and the MAC
under keys that `Blake2bMac512` accepts, those of at most 64 bytes.  The challenge the gateway draws
is an argument.  `flush` does nothing here, and the text of a UTF-8 error is left out below its
context.

* `gateway_challenges`, `client_answers`, `gateway_accepts`, `client_ends`: the handshake, message
  by message.
* `of_gateway_ok`: a node the gateway returns passed the validators.
-/

namespace SingBoxMini.NatTunnel
open Bytes Text

/-- `SBMNAT03` -/
def magic : List UInt8 := [83, 66, 77, 78, 65, 84, 48, 51]
/-- `CHALLENGE_LENGTH` -/
def challengeLength : Nat := 32
/-- `MAC_LENGTH` -/
def macLength : Nat := 64
/-- `MAX_NODE_NAME_LENGTH` -/
def maxNodeNameLength : Nat := 128
/-- `MAX_SUBSCRIPTION_URL_LENGTH` -/
def maxSubscriptionUrlLength : Nat := 2048
/-- `AUTH_OK` -/
def authOk : UInt8 := 0
/-- `AUTH_FAILED` -/
def authFailed : UInt8 := 1

/-- The functions of other crates: the scheme `url::Url::parse` finds or the text of its error, and
the MAC of a message under a key. -/
structure Crates where
  parseUrl : String → Except String String
  blake2bMac512 : List UInt8 → List UInt8 → List UInt8
  length_mac : ∀ key message, (blake2bMac512 key message).length = macLength

/-- A challenge: 32 bytes. -/
structure Challenge where
  bytes : List UInt8
  length_bytes : bytes.length = challengeLength

/-- Functions to evaluate handshakes with: they know two schemes, and their tag is the last 64 bytes
of key and message. -/
def sampleCrates : Crates where
  parseUrl url :=
    if "http://".toList.isPrefixOf url.toList then .ok "http"
    else if "https://".toList.isPrefixOf url.toList then .ok "https"
    else .error "relative URL without a base"
  blake2bMac512 key message := beBytes macLength (ofBeBytes (key ++ message))
  length_mac _ _ := length_beBytes _ _

/-- A challenge. -/
def sampleChallenge : Challenge := ⟨List.replicate challengeLength 1, List.length_replicate⟩

/-- `AuthenticatedNode` -/
structure AuthenticatedNode where
  name : String
  subscriptionUrl : String
deriving DecidableEq

/-! ### The validators -/

/-- `validate_node_name` -/
def validateNodeName (nodeName : String) : Except AnyhowError Unit :=
  ensure (nodeName ≠ "" ∧ len nodeName ≤ maxNodeNameLength ∧ ¬ nodeName.toList.any isControl)
    "NAT tunnel node name must contain 1-128 non-control characters"

/-- `validate_subscription_url` -/
def validateSubscriptionUrl (crates : Crates) (subscriptionUrl : String) :
    Except AnyhowError Unit := do
  if subscriptionUrl ≠ "" then
    ensure (len subscriptionUrl ≤ maxSubscriptionUrlLength ∧ ¬ subscriptionUrl.toList.any isControl)
      "NAT tunnel subscription URL must contain at most 2048 non-control characters"
    match crates.parseUrl subscriptionUrl with
    | .error error => throw ["invalid NAT tunnel subscription URL", error]
    | .ok scheme =>
      ensure (scheme = "http" ∨ scheme = "https")
        "NAT tunnel subscription URL must use HTTP or HTTPS"

/-- The names the validator accepts. -/
def NameAccepted (name : String) : Prop :=
  name ≠ "" ∧ len name ≤ maxNodeNameLength ∧ ¬ name.toList.any isControl
deriving Decidable

/-- The subscription URLs the validator accepts. -/
def UrlAccepted (crates : Crates) (url : String) : Prop :=
  url = "" ∨ ((crates.parseUrl url = .ok "http" ∨ crates.parseUrl url = .ok "https") ∧
    len url ≤ maxSubscriptionUrlLength ∧ ¬ url.toList.any isControl)

theorem validateNodeName_ok_iff {name : String} :
    validateNodeName name = .ok () ↔ NameAccepted name :=
  ensure_ok_iff

theorem validateSubscriptionUrl_ok_iff {crates : Crates} {url : String} :
    validateSubscriptionUrl crates url = .ok () ↔ UrlAccepted crates url := by
  unfold validateSubscriptionUrl UrlAccepted
  by_cases h : url = ""
  · simp [h, pure, Except.pure]
  · simp only [ne_eq, h, not_false_eq_true, if_true, checks_ok_iff, ensure_ok_iff, false_or]
    cases hp : crates.parseUrl url with
    | error error => simp [throw, throwThe, MonadExceptOf.throw]
    | ok scheme =>
        simp only [ensure_ok_iff, Except.ok.injEq]
        exact and_comm

/-! ### The MAC -/

/-- The bytes `challenge_mac` feeds to the MAC. -/
def macInput (challenge nodeName subscriptionUrl : List UInt8) : List UInt8 :=
  magic ++ challenge ++ nodeName ++ subscriptionUrl

/-- `challenge_mac`; `new_from_slice` refuses keys of more than 64 bytes. -/
def challengeMac (crates : Crates) (token challenge nodeName subscriptionUrl : List UInt8) :
    Except AnyhowError (List UInt8) :=
  if token.length ≤ 64 then
    .ok (crates.blake2bMac512 token (macInput challenge nodeName subscriptionUrl))
  else .error ["invalid NAT tunnel token"]

/-! ### The processes -/

/-- `read_u16` -/
def readU16 : Proc AnyhowError Nat := do
  let bytes ← Proc.readExact 2
  return ofBeBytes bytes

@[simp] theorem readU16_bind {α : Type} (f : Nat → Proc AnyhowError α) :
    readU16 >>= f = .read 2 fun bytes => f (ofBeBytes bytes) := rfl

/-- `String::from_utf8`, with the context of its error. -/
def textOf (bytes : List UInt8) (context : String) : Except AnyhowError String :=
  match fromUtf8 bytes with
  | some s => .ok s
  | none => .error [context]

/-- `gateway_authenticate` after its challenge. -/
def gatewayReads (crates : Crates) (token : List UInt8) (challenge : Challenge) :
    Proc AnyhowError AuthenticatedNode := do
  let nodeNameLength ← readU16
  Proc.ofExcept (ensure (1 ≤ nodeNameLength ∧ nodeNameLength ≤ maxNodeNameLength)
    "invalid NAT tunnel node name length")
  let nodeName ← Proc.readExact nodeNameLength
  let nodeName ← Proc.ofExcept (textOf nodeName "invalid NAT tunnel node name")
  Proc.ofExcept (validateNodeName nodeName)
  let subscriptionUrlLength ← readU16
  Proc.ofExcept (ensure (subscriptionUrlLength ≤ maxSubscriptionUrlLength)
    "invalid NAT tunnel subscription URL length")
  let subscriptionUrl ← Proc.readExact subscriptionUrlLength
  let subscriptionUrl ←
    Proc.ofExcept (textOf subscriptionUrl "invalid NAT tunnel subscription URL")
  Proc.ofExcept (validateSubscriptionUrl crates subscriptionUrl)
  let provided ← Proc.readExact macLength
  let expected ← Proc.ofExcept
    (challengeMac crates token challenge.bytes (asBytes nodeName) (asBytes subscriptionUrl))
  if provided ≠ expected then
    Proc.writeAll [authFailed]
    Proc.fail ["invalid NAT tunnel authentication response"]
  else
    Proc.writeAll [authOk]
    return { name := nodeName, subscriptionUrl }

/-- `gateway_authenticate`, with the challenge it drew. -/
def gatewayAuthenticate (crates : Crates) (token : List UInt8) (challenge : Challenge) :
    Proc AnyhowError AuthenticatedNode := do
  Proc.writeAll magic
  Proc.writeAll challenge.bytes
  gatewayReads crates token challenge

/-- `client_authenticate`; `as u16` keeps the low 16 bits of a length. -/
def clientAuthenticate (crates : Crates) (token : List UInt8) (nodeName subscriptionUrl : String) :
    Proc AnyhowError Unit := do
  let magicRead ← Proc.readExact magic.length
  Proc.ofExcept (ensure (magicRead = magic) "invalid NAT tunnel protocol magic")
  Proc.ofExcept (validateNodeName nodeName)
  Proc.ofExcept (validateSubscriptionUrl crates subscriptionUrl)
  let challenge ← Proc.readExact challengeLength
  Proc.writeAll (beBytes 2 (len nodeName))
  Proc.writeAll (asBytes nodeName)
  Proc.writeAll (beBytes 2 (len subscriptionUrl))
  Proc.writeAll (asBytes subscriptionUrl)
  let mac ← Proc.ofExcept
    (challengeMac crates token challenge (asBytes nodeName) (asBytes subscriptionUrl))
  Proc.writeAll mac
  let answer ← Proc.readExact 1
  Proc.ofExcept (ensure (answer = [authOk]) "NAT tunnel authentication failed")

/-- What the client sends ahead of its tag. -/
def announcement (name url : String) : List UInt8 :=
  beBytes 2 (len name) ++ (asBytes name ++ (beBytes 2 (len url) ++ asBytes url))

/-! ### Message by message -/

section Steps

variable {crates : Crates} {token : List UInt8} {name url : String}

/-- The client after its tag. -/
def clientWait : Proc AnyhowError Unit :=
  .read 1 fun answer =>
    Proc.ofExcept (ensure (answer = [authOk]) "NAT tunnel authentication failed")

theorem gateway_challenges (challenge : Challenge) (inp : List UInt8) :
    (gatewayAuthenticate crates token challenge).Steps inp (gatewayReads crates token challenge) inp
      (magic ++ (challenge.bytes ++ [])) :=
  .write (.write (.refl _ _))

theorem challengeMac_eq (htoken : token.length ≤ 64) (challenge name url : List UInt8) :
    challengeMac crates token challenge name url =
      .ok (crates.blake2bMac512 token (macInput challenge name url)) := if_pos htoken

/-- The client answers any challenge with its announcement and a tag. -/
theorem client_answers (htoken : token.length ≤ 64) (hname : NameAccepted name)
    (hurl : UrlAccepted crates url) (challenge : Challenge) (inp : List UInt8) :
    (clientAuthenticate crates token name url).Steps (magic ++ (challenge.bytes ++ inp))
      clientWait inp (announcement name url ++
        crates.blake2bMac512 token (macInput challenge.bytes (asBytes name) (asBytes url))) := by
  have hn := validateNodeName_ok_iff.mpr hname
  have hu := validateSubscriptionUrl_ok_iff.mpr hurl
  have hsteps : (clientAuthenticate crates token name url).Steps
      (magic ++ (challenge.bytes ++ inp)) clientWait inp
      (beBytes 2 (len name) ++ (asBytes name ++ (beBytes 2 (len url) ++ (asBytes url ++
        (crates.blake2bMac512 token (macInput challenge.bytes (asBytes name) (asBytes url)) ++
          []))))) := by
    refine .read rfl ?_
    simp only [ensure, Proc.ofExcept_ok, Proc.ok_bind, hn, hu, Proc.readExact_bind]
    refine .read challenge.length_bytes ?_
    simp only [Proc.writeAll_bind, challengeMac_eq htoken, Proc.ofExcept_ok, Proc.ok_bind]
    exact .write (.write (.write (.write (.write (.refl _ _)))))
  simpa [announcement] using hsteps

theorem client_ends {inp : List UInt8} : clientWait.Steps (authOk :: inp) (.ok ()) inp [] := by
  change clientWait.Steps ([authOk] ++ inp) (.ok ()) inp []
  refine .read rfl ?_
  simp only [ensure, if_true, Proc.ofExcept_ok]
  exact .refl _ _

theorem textOf_asBytes (s context : String) : textOf (asBytes s) context = .ok s := by
  simp [textOf]

theorem ofBeBytes_len {s : String} (h : len s ≤ maxSubscriptionUrlLength) :
    ofBeBytes (beBytes 2 (len s)) = len s := by
  rw [ofBeBytes_beBytes]
  exact Nat.mod_eq_of_lt (Nat.lt_of_le_of_lt h (by decide))

theorem UrlAccepted.len_le (h : UrlAccepted crates url) : len url ≤ maxSubscriptionUrlLength := by
  rcases h with rfl | ⟨-, h, -⟩
  · decide
  · exact h

theorem NameAccepted.len_pos (h : NameAccepted name) : 1 ≤ len name := by
  refine Nat.one_le_iff_ne_zero.mpr fun h0 => h.1 ?_
  exact asBytes_inj.mp (List.eq_nil_of_length_eq_zero h0)

/-- The gateway takes an announcement with the tag for it. -/
theorem gateway_accepts (htoken : token.length ≤ 64) (hname : NameAccepted name)
    (hurl : UrlAccepted crates url) (challenge : Challenge) (inp : List UInt8) :
    (gatewayReads crates token challenge).Steps (announcement name url ++
        (crates.blake2bMac512 token (macInput challenge.bytes (asBytes name) (asBytes url)) ++ inp))
      (.ok ⟨name, url⟩) inp [authOk] := by
  have hn := validateNodeName_ok_iff.mpr hname
  have hu := validateSubscriptionUrl_ok_iff.mpr hurl
  have hnlen := ofBeBytes_len (hname.2.1.trans (by decide))
  have hulen := ofBeBytes_len hurl.len_le
  simp only [announcement, List.append_assoc, gatewayReads, readU16_bind]
  refine .read (length_beBytes 2 _) ?_
  simp only [hnlen, ensure_ok_iff.mpr (And.intro hname.len_pos hname.2.1), Proc.ofExcept_ok,
    Proc.ok_bind, Proc.readExact_bind]
  refine .read rfl ?_
  simp only [textOf_asBytes, hn, Proc.ofExcept_ok, Proc.ok_bind]
  refine .read (length_beBytes 2 _) ?_
  simp only [hulen, ensure_ok_iff.mpr hurl.len_le, Proc.ofExcept_ok, Proc.ok_bind]
  refine .read rfl ?_
  simp only [textOf_asBytes, hu, Proc.ofExcept_ok, Proc.ok_bind]
  refine .read (crates.length_mac _ _) ?_
  simp only [challengeMac_eq htoken, Proc.ofExcept_ok, Proc.ok_bind, ne_eq, not_true_eq_false,
    if_false]
  exact .write (.refl _ _)

/-- **What the gateway accepts**, whatever it was sent. -/
theorem of_gateway_ok {challenge : Challenge} {received : List UInt8} {node : AuthenticatedNode}
    (h : ((gatewayAuthenticate crates token challenge).on received).2 = some (.ok node)) :
    token.length ≤ 64 ∧ NameAccepted node.name ∧ UrlAccepted crates node.subscriptionUrl := by
  have h := Proc.on_write_ok (Proc.on_write_ok h)
  obtain ⟨lengthBytes, received, -, -, h⟩ := Proc.on_read_ok h
  obtain ⟨-, -, h⟩ := Proc.on_ofExcept_ok h
  obtain ⟨nameBytes, received, -, -, h⟩ := Proc.on_read_ok h
  obtain ⟨name, -, h⟩ := Proc.on_ofExcept_ok h
  obtain ⟨_, hname, h⟩ := Proc.on_ofExcept_ok h
  obtain ⟨lengthBytes, received, -, -, h⟩ := Proc.on_read_ok h
  obtain ⟨-, -, h⟩ := Proc.on_ofExcept_ok h
  obtain ⟨urlBytes, received, -, -, h⟩ := Proc.on_read_ok h
  obtain ⟨url, -, h⟩ := Proc.on_ofExcept_ok h
  obtain ⟨_, hurl, h⟩ := Proc.on_ofExcept_ok h
  obtain ⟨provided, received, -, -, h⟩ := Proc.on_read_ok h
  obtain ⟨expected, hmac, h⟩ := Proc.on_ofExcept_ok h
  have htoken : token.length ≤ 64 := by
    by_contra hlong
    rw [challengeMac, if_neg hlong] at hmac
    cases hmac
  split_ifs at h with htag
  · cases Proc.on_write_ok h
  · cases Proc.on_write_ok h
    exact ⟨htoken, validateNodeName_ok_iff.mp hname, validateSubscriptionUrl_ok_iff.mp hurl⟩

end Steps

end SingBoxMini.NatTunnel
