import SingBoxMini.Support.Bytes
import SingBoxMini.Support.Text

/-!
# Reverse proxy — Settings

`ReverseProxySettings::validate` and `validate_endpoint` (`reverse_proxy.rs`), with the texts of
their errors.

`url::Url::parse` is a parameter: it gives the scheme of the URL or the text of its error.
-/

namespace SingBoxMini.ReverseProxy
open Bytes Text

/-- `ReverseProxyRole` -/
inductive ReverseProxyRole where
  | gateway
  | client
deriving DecidableEq

/-- `ReverseProxySettings` -/
structure ReverseProxySettings where
  enabled : Bool
  role : ReverseProxyRole
  gateway : String
  tunnelPort : UInt16
  publicPort : UInt16
  localPort : UInt16
  poolSize : Nat
  queueCapacity : Nat
  token : String
  subscriptionUrl : String
deriving DecidableEq

/-- `ReverseProxySettings::default`, with the token `generate_token` gave. -/
def ReverseProxySettings.default (token : String) : ReverseProxySettings where
  enabled := false
  role := .client
  gateway := ""
  tunnelPort := 7000
  publicPort := 51400
  localPort := 51400
  poolSize := 4
  queueCapacity := 64
  token := token
  subscriptionUrl := ""

/-- The host and the port of an endpoint. -/
def splitEndpoint : List Char → Except AnyhowError (List Char × List Char)
  | '[' :: rest =>
    match splitOnce [']', ':'] rest with
    | some (host, port) => .ok (host, port)
    | none => .error ["gateway must use [IPv6]:port format"]
  | endpoint =>
    match rsplitOnce ':' endpoint with
    | some (host, port) =>
      if ':' ∈ host then .error ["IPv6 gateways must use [IPv6]:port format"] else .ok (host, port)
    | none => .error ["gateway must include a port"]

/-- `validate_endpoint` -/
def validateEndpoint (endpoint : String) : Except AnyhowError Unit := do
  let (host, port) ← splitEndpoint (trim endpoint.toList)
  ensure (trim host ≠ []) "gateway host must not be empty"
  match parseU16 port with
  | .error error => throw ["gateway port must be between 1 and 65535", error]
  | .ok port => ensure (port > 0) "gateway port must be between 1 and 65535"

/-- The part of `validate` about the subscription URL. -/
def validateUrlSetting (parseUrl : String → Except String String) (url : String) :
    Except AnyhowError Unit := do
  if url ≠ "" then
    match parseUrl url with
    | .error error => throw ["reverse proxy subscription URL is invalid", error]
    | .ok scheme =>
      ensure (scheme = "http" ∨ scheme = "https")
        "reverse proxy subscription URL must use HTTP or HTTPS"
      ensure (len url ≤ 2048 ∧ ¬ url.toList.any isControl)
        "reverse proxy subscription URL is too long"

/-- `ReverseProxySettings::validate` -/
def ReverseProxySettings.validate (parseUrl : String → Except String String)
    (s : ReverseProxySettings) : Except AnyhowError Unit := do
  ensure ((16 ≤ len s.token ∧ len s.token ≤ 256) ∧ ¬ s.token.toList.any isControl)
    "reverse proxy token must contain 16-256 non-control characters"
  ensure (1 ≤ s.poolSize ∧ s.poolSize ≤ 64) "reverse proxy pool size must be between 1 and 64"
  ensure (1 ≤ s.queueCapacity ∧ s.queueCapacity ≤ 1024)
    "reverse proxy queue capacity must be between 1 and 1024"
  validateUrlSetting parseUrl s.subscriptionUrl
  if s.enabled then
    match s.role with
    | .gateway => ensure (s.tunnelPort ≠ s.publicPort) "tunnel and public ports must be different"
    | .client => validateEndpoint s.gateway

/-- A subscription URL that the settings accept. -/
def UrlAccepted (parseUrl : String → Except String String) (url : String) : Prop :=
  url = "" ∨ ((parseUrl url = .ok "http" ∨ parseUrl url = .ok "https") ∧ len url ≤ 2048 ∧
    ¬ url.toList.any isControl)

theorem validateUrlSetting_ok_iff {parseUrl : String → Except String String} {url : String} :
    validateUrlSetting parseUrl url = .ok () ↔ UrlAccepted parseUrl url := by
  unfold validateUrlSetting UrlAccepted
  by_cases h : url = ""
  · simp [h, pure, Except.pure]
  · cases hp : parseUrl url with
    | error error => simp [h, throw, throwThe, MonadExceptOf.throw]
    | ok scheme => simp only [ne_eq, h, not_false_eq_true, if_true, checks_ok_iff, ensure_ok_iff,
        Except.ok.injEq, false_or]

/-- What accepted settings have in common, whatever the role. -/
theorem ReverseProxySettings.of_validate {parseUrl : String → Except String String}
    {s : ReverseProxySettings} (h : s.validate parseUrl = .ok ()) :
    (16 ≤ len s.token ∧ len s.token ≤ 256) ∧ UrlAccepted parseUrl s.subscriptionUrl := by
  simp only [validate, checks_ok_iff, ensure_ok_iff, validateUrlSetting_ok_iff] at h
  exact ⟨h.1.1, h.2.2.2.1⟩

end SingBoxMini.ReverseProxy
