import SingBoxMini.Outbound
import SingBoxMini.Sublink.Rules
import SingBoxMini.Support.HashMap

/-!
# Config

The configuration (`config.rs`) and `Config::validate`, with the texts of its errors.  The check of
custom rules that it calls is in `Sublink.Rules`.

What the crates `reqwest`, `url` and `http` accept is a parameter (`Crates`), and so is the order in
which a hash map is iterated.
-/

namespace SingBoxMini
open Bytes Text
open Outbound (OutboundMode SocketAddr)

/-- The paths of the certificate and of its key. -/
structure TlsConfig where
  certificate : String
  privateKey : String
deriving DecidableEq

/-- A HY2 user. -/
structure User where
  name : String
  password : String
deriving DecidableEq

/-- The SSH server that is offered to clients. -/
structure SshConfig where
  enabled : Bool
  upstream : SocketAddr
  username : String
  privateKey : String
  hostKey : String
deriving DecidableEq

/-- `SshConfig::default` -/
def SshConfig.default : SshConfig := ⟨false, .v4 0x7F000001#32 51401, "", "", ""⟩

/-- Rates in megabits a second; zero is no limit. -/
structure Bandwidth where
  upMbps : UInt64
  downMbps : UInt64
  ignoreClientBandwidth : Bool
deriving DecidableEq

/-- `Bandwidth::default` -/
def Bandwidth.default : Bandwidth := ⟨0, 0, false⟩

/-- The relay of UDP, and how long a session may be idle. -/
structure UdpConfig where
  enabled : Bool
  timeoutSecs : UInt64
deriving DecidableEq

/-- `UdpConfig::default` -/
def UdpConfig.default : UdpConfig := ⟨true, 300⟩

/-- The obfuscation of packets. -/
structure ObfsConfig where
  kind : String
  password : String
deriving DecidableEq

/-- What is served to those who are no clients. -/
inductive MasqueradeConfig where
  | file (directory : String)
  | proxy (url : String) (rewriteHost : Bool)
  | string (statusCode : UInt16) (headers : HashMap String (List String)) (content : String)
deriving DecidableEq

/-- The server as share links and subscriptions name it. -/
structure ShareConfig where
  server : String
  ipv6Server : String
  port : UInt16
  sni : String
  insecure : Bool
  rulePreset : String
  adBlock : Bool
  whitelist : List String
  blacklist : List String
deriving DecidableEq

/-- `Config`, without the fields nothing here reads. -/
structure Config where
  listen : SocketAddr
  tls : TlsConfig
  users : List User
  ssh : SshConfig
  bandwidth : Bandwidth
  udp : UdpConfig
  outbound : OutboundMode
  obfs : Option ObfsConfig
  masquerade : Option MasqueradeConfig
  share : Option ShareConfig
deriving DecidableEq

/-- What the crates answer; an error is its text. -/
structure Crates where
  /-- `reqwest::Url::parse`: the scheme. -/
  parseUrl : String → Except String String
  /-- `url::Host::parse` -/
  parseHost : List Char → Option Sublink.Host
  /-- `http::StatusCode::from_u16` -/
  statusCode : UInt16 → Except String Unit
  /-- `http::HeaderName::from_bytes` -/
  headerName : String → Except String Unit
  /-- `http::HeaderValue::from_str` -/
  headerValue : String → Except String Unit
  headerOrder : HashMap.Iter String (List String)

/-- Crates that accept everything. -/
def sampleCrates : Crates where
  parseUrl := fun _ => .ok "https"
  parseHost := fun domain => some (.domain domain)
  statusCode := fun _ => .ok ()
  headerName := fun _ => .ok ()
  headerValue := fun _ => .ok ()
  headerOrder := .inOrder _ _

/-! ### Validation -/

/-- `IpAddr::is_loopback`, of the address of a socket. -/
def isLoopback : SocketAddr → Bool
  | .v4 ip _ => ip >>> 24 = 127#32
  | .v6 ip _ _ _ => ip = 1#128

/-- The text has something but white space. -/
def NotBlank (text : String) : Prop := trim text.toList ≠ []

instance (text : String) : Decidable (NotBlank text) := inferInstanceAs (Decidable (_ ≠ _))

/-- The checks of `Config::validate` on an SSH server that is enabled. -/
def SshConfig.validate (ssh : SshConfig) : Except AnyhowError Unit := do
  if ssh.enabled then
    ensure (isLoopback ssh.upstream) "SSH upstream must use a loopback address"
    ensure (NotBlank ssh.username) "SSH username is required"
    ensure (NotBlank ssh.privateKey) "SSH private key is required"

/-- Those on the obfuscation, -/
def ObfsConfig.validate (obfs : ObfsConfig) : Except AnyhowError Unit := do
  ensure (obfs.kind = "salamander") "unsupported obfuscation type"
  ensure (obfs.password ≠ "") "Salamander password must not be empty"

/-- on what is served to others, -/
def MasqueradeConfig.validate (crates : Crates) : MasqueradeConfig → Except AnyhowError Unit
  | .file directory => ensure (NotBlank directory) "masquerade directory is required"
  | .proxy url _ => do
    let scheme ← context "parse masquerade proxy URL" (crates.parseUrl url)
    ensure (scheme = "http" ∨ scheme = "https") "masquerade proxy URL must use http or https"
  | .string statusCode headers _ => do
    context "invalid masquerade status code" (crates.statusCode statusCode)
    (crates.headerOrder.entries headers).forM fun (name, values) => do
      context ("invalid masquerade header name " ++ name) (crates.headerName name)
      values.forM fun value =>
        context ("invalid value for masquerade header " ++ name) (crates.headerValue value)

/-- and on what is shared. -/
def ShareConfig.validate (crates : Crates) (share : ShareConfig) : Except AnyhowError Unit := do
  ensure (NotBlank share.server ∨ NotBlank share.ipv6Server)
    "at least one share server address is required"
  ensure (share.port > 0) "share server port must be greater than zero"
  ensure (share.rulePreset ∈ ["minimal", "balanced", "comprehensive", "china"])
    "share rule preset must be minimal, balanced, comprehensive, or china"
  Sublink.validateCustomRuleValues crates.parseHost share.whitelist "whitelist"
  Sublink.validateCustomRuleValues crates.parseHost share.blacklist "blacklist"

/-- The check of a part that may be absent. -/
def validatePart {α : Type} (validate : α → Except AnyhowError Unit) (part : Option α) :
    Except AnyhowError Unit :=
  match part with
  | some part => validate part
  | none => pure ()

/-- `Config::validate` -/
def Config.validate (crates : Crates) (config : Config) : Except AnyhowError Unit := do
  ensure (config.users ≠ []) "at least one HY2 user is required"
  ensure (∀ user ∈ config.users, user.password ≠ "") "HY2 user passwords must not be empty"
  ensure (∀ user ∈ config.users, NotBlank user.name) "HY2 user names must not be empty"
  ensure (NotBlank config.tls.certificate) "TLS certificate path is required"
  ensure (NotBlank config.tls.privateKey) "TLS private key path is required"
  ensure (config.udp.timeoutSecs > 0) "UDP timeout must be greater than zero"
  config.ssh.validate
  validatePart ObfsConfig.validate config.obfs
  validatePart (MasqueradeConfig.validate crates) config.masquerade
  validatePart (ShareConfig.validate crates) config.share

variable {crates : Crates}

/-- An accepted configuration, part by part. -/
theorem Config.validate_ok_iff {config : Config} :
    config.validate crates = .ok () ↔
      config.users ≠ [] ∧ (∀ user ∈ config.users, user.password ≠ "") ∧
      (∀ user ∈ config.users, NotBlank user.name) ∧ NotBlank config.tls.certificate ∧
      NotBlank config.tls.privateKey ∧ config.udp.timeoutSecs > 0 ∧
      config.ssh.validate = .ok () ∧ validatePart ObfsConfig.validate config.obfs = .ok () ∧
      validatePart (MasqueradeConfig.validate crates) config.masquerade = .ok () ∧
      validatePart (ShareConfig.validate crates) config.share = .ok () := by
  simp only [validate, checks_ok_iff, ensure_ok_iff]

/-- What validation says about the users: there are some, and none has an empty password or a
blank name. -/
theorem Config.users_of_validate {config : Config} (h : config.validate crates = .ok ()) :
    config.users ≠ [] ∧ ∀ user ∈ config.users, user.password ≠ "" ∧ NotBlank user.name := by
  obtain ⟨hne, hpassword, hname, -⟩ := Config.validate_ok_iff.mp h
  exact ⟨hne, fun user huser => ⟨hpassword user huser, hname user huser⟩⟩

/-- A configuration with the defaults for all that has one. -/
def Config.minimal (listen : SocketAddr) (tls : TlsConfig) (users : List User) : Config where
  listen := listen
  tls := tls
  users := users
  ssh := .default
  bandwidth := .default
  udp := .default
  outbound := .preferIpv4
  obfs := none
  masquerade := none
  share := none

/-- The defaults pass their checks: a configuration made of them is accepted if its users and its
paths are. -/
theorem Config.validate_minimal_iff {listen : SocketAddr} {tls : TlsConfig} {users : List User} :
    (minimal listen tls users).validate crates = .ok () ↔
      users ≠ [] ∧ (∀ user ∈ users, user.password ≠ "") ∧ (∀ user ∈ users, NotBlank user.name) ∧
      NotBlank tls.certificate ∧ NotBlank tls.privateKey := by
  have htimeout : (300 : UInt64) > 0 := by decide
  simp [Config.validate_ok_iff, minimal, SshConfig.default, SshConfig.validate, UdpConfig.default,
    validatePart, pure, Except.pure, htimeout]

/-- The configuration of a server with these users and the defaults for the rest. -/
def sampleConfig (users : List User) : Config :=
  .minimal (.v4 0#32 443) ⟨"certificate.pem", "key.pem"⟩ users

end SingBoxMini
