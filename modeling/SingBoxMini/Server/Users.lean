import SingBoxMini.Config

/-!
# Server — Users

The password table `run_until_with_traffic` builds from the configuration, and the decision of
`authenticate_connection` about a request (`server.rs`).

The crate `http` is a parameter.  A header value is a string of bytes without control characters;
`to_str` reads it as text if all of it is visible ASCII, and the code takes one that it cannot read
for an empty password.

* `authenticate_eq_lookup`: a request is decided by what the table has under its password.
* `attributed_iff`: every user gets the account of their own exactly if no two users whose password
  fits into a header have their password or their name in common, and such passwords are ASCII.
-/

namespace SingBoxMini.Server
open Bytes Text

/-! ### Requests -/

/-- `http::HeaderValue` -/
structure HeaderValue where
  bytes : List UInt8
  valid : ∀ b ∈ bytes, 32 ≤ b ∧ b ≠ 127 ∨ b = 9

/-- The bytes `to_str` accepts. -/
def isVisibleAscii (b : UInt8) : Bool := (32 ≤ b && b < 127) || b == 9

/-- What the crate `http` answers. -/
structure Http where
  /-- `HeaderValue::to_str` -/
  toStr : HeaderValue → Option String

/-- `to_str` gives the text of a value of visible ASCII, and nothing else. -/
def Http.Documented (http : Http) : Prop :=
  ∀ (value : HeaderValue) (text : String), http.toStr value = some text ↔
    asBytes text = value.bytes ∧ value.bytes.all isVisibleAscii

/-- `http::Method` -/
inductive Method where
  | options | get | post | put | delete | head | trace | connect | patch
  | extension (token : String)
deriving DecidableEq

/-- What is read of an HTTP/3 request. -/
structure Request where
  method : Method
  /-- `uri().host()` -/
  host : Option String
  /-- `uri().path()` -/
  path : String
  /-- `headers().get(name)` -/
  header : String → Option HeaderValue

/-! ### Authentication -/

/-- `u64::saturating_mul` -/
def saturatingMul (a b : UInt64) : UInt64 := .ofNat (min (a.toNat * b.toNat) (2 ^ 64 - 1))

/-- `AuthenticationOptions`: what the decision reads. -/
structure AuthenticationOptions where
  users : HashMap String String
  receiveBps : UInt64
  ignoreClientBandwidth : Bool

/-- The options `run_until_with_traffic` gives to each connection. -/
def authenticationOptions (config : Config) : AuthenticationOptions where
  users := .collect (config.users.map fun user => (user.password, user.name))
  receiveBps := saturatingMul config.bandwidth.downMbps 125000
  ignoreClientBandwidth := config.bandwidth.ignoreClientBandwidth

/-- The rate of the client. -/
def clientReceiveBps (http : Http) (request : Request) : Nat :=
  (((request.header "Hysteria-CC-RX").bind http.toStr).bind fun value =>
    (parseU64 value.toList).toOption).getD 0

/-- The conditions on a request besides its password. -/
def OtherwiseAuthorized (http : Http) (options : AuthenticationOptions) (request : Request) :
    Prop :=
  request.method = .post ∧ request.host = some "hysteria" ∧ request.path = "/auth" ∧
    ¬ (options.ignoreClientBandwidth ∧ options.receiveBps > 0 ∧ clientReceiveBps http request = 0)

instance (http : Http) (options : AuthenticationOptions) (request : Request) :
    Decidable (OtherwiseAuthorized http options request) :=
  inferInstanceAs (Decidable (_ ∧ _ ∧ _ ∧ _))

/-- One round of `authenticate_connection`: the user of an authorized request. -/
def authenticate (http : Http) (options : AuthenticationOptions) (request : Request) :
    Option String :=
  let password := ((request.header "Hysteria-Auth").bind http.toStr).getD ""
  let user := options.users.lookup password
  if OtherwiseAuthorized http options request then user else none

/-- The request has these bytes for a password. -/
def Request.Presents (request : Request) (password : String) : Prop :=
  ∃ value, request.header "Hysteria-Auth" = some value ∧ value.bytes = asBytes password

/-! ### The table -/

variable {http : Http} {options : AuthenticationOptions} {request : Request} {password : String}
  {config : Config}

/-- A request with a password that can be read is decided by the table. -/
theorem authenticate_eq_lookup (hhttp : http.Documented) (hpresents : request.Presents password)
    (hvisible : (asBytes password).all isVisibleAscii)
    (hother : OtherwiseAuthorized http options request) :
    authenticate http options request = options.users.lookup password := by
  obtain ⟨value, hvalue, hbytes⟩ := hpresents
  have htext : http.toStr value = some password :=
    (hhttp value password).mpr ⟨hbytes.symm, hbytes ▸ hvisible⟩
  rw [authenticate, if_pos hother, hvalue, Option.bind_some, htext, Option.getD_some]

/-- Any other password is taken for the empty one. -/
theorem authenticate_eq_lookup_empty (hhttp : http.Documented)
    (hpresents : request.Presents password) (hvisible : ¬ (asBytes password).all isVisibleAscii)
    (hother : OtherwiseAuthorized http options request) :
    authenticate http options request = options.users.lookup "" := by
  obtain ⟨value, hvalue, hbytes⟩ := hpresents
  have htext : http.toStr value = none := by
    rw [Option.eq_none_iff_forall_ne_some]
    intro text htext
    exact hvisible (hbytes ▸ ((hhttp value text).mp htext).2)
  rw [authenticate, if_pos hother, hvalue, Option.bind_some, htext, Option.getD_none]

/-- What the table has under a password is the name of a user with that password. -/
theorem mem_of_lookup_users {name : String}
    (h : (authenticationOptions config).users.lookup password = some name) :
    ⟨name, password⟩ ∈ config.users := by
  obtain ⟨user, huser, heq⟩ := List.mem_map.mp (HashMap.mem_of_lookup_collect h)
  cases heq
  exact huser

theorem lookup_users_empty {crates : Crates} (hvalid : config.validate crates = .ok ()) :
    (authenticationOptions config).users.lookup "" = none := by
  rw [Option.eq_none_iff_forall_ne_some]
  intro name h
  exact ((Config.users_of_validate hvalid).2 _ (mem_of_lookup_users h)).1 rfl

/-! ### Attribution -/

/-- A password that fits into a header value. -/
def Presentable (password : String) : Prop :=
  ∀ b ∈ asBytes password, 32 ≤ b ∧ b ≠ 127 ∨ b = 9

instance (password : String) : Decidable (Presentable password) :=
  List.decidableBAll (fun b => 32 ≤ b ∧ b ≠ 127 ∨ b = 9) (asBytes password)

theorem Request.Presents.presentable (h : request.Presents password) : Presentable password := by
  obtain ⟨value, -, hbytes⟩ := h
  intro b hb
  exact value.valid b (hbytes ▸ hb)

/-- An authentication request with this password. -/
def Request.login (password : String) (h : Presentable password) : Request where
  method := .post
  host := some "hysteria"
  path := "/auth"
  header := fun name =>
    if name = "Hysteria-Auth" then some ⟨asBytes password, h⟩
    else if name = "Hysteria-CC-RX" then some ⟨[49], by simp⟩
    else none

theorem Request.login_presents (h : Presentable password) :
    (login password h).Presents password :=
  ⟨⟨asBytes password, h⟩, rfl, rfl⟩

/-- A login is authorized but for its password, whatever the options. -/
theorem Request.login_authorized (hhttp : http.Documented) (h : Presentable password) :
    OtherwiseAuthorized http options (login password h) := by
  have htext : http.toStr ⟨[49], by simp⟩ = some "1" := (hhttp _ _).mpr ⟨by decide, by decide⟩
  have hrate : clientReceiveBps http (login password h) = 1 := by
    have hheader : (login password h).header "Hysteria-CC-RX" = some ⟨[49], by simp⟩ := rfl
    rw [clientReceiveBps, hheader, Option.bind_some, htext, Option.bind_some]
    decide
  refine ⟨rfl, rfl, rfl, ?_⟩
  rw [hrate]
  simp

/-- **Attribution.**  Whoever presents the password of a user is given the account of that user,
and distinct users never share one. -/
def Attributed (http : Http) (config : Config) : Prop :=
  (∀ user ∈ config.users, ∀ request : Request, request.Presents user.password →
    OtherwiseAuthorized http (authenticationOptions config) request →
    authenticate http (authenticationOptions config) request = some user.name) ∧
  ∀ user ∈ config.users, ∀ other ∈ config.users, user ≠ other →
    ∀ request request' : Request,
      request.Presents user.password → request'.Presents other.password →
      OtherwiseAuthorized http (authenticationOptions config) request →
      OtherwiseAuthorized http (authenticationOptions config) request' →
      authenticate http (authenticationOptions config) request ≠
        authenticate http (authenticationOptions config) request'

/-- The users whose password can be presented have ASCII passwords, and no two of them have the
password or the name in common. -/
def Attributable (config : Config) : Prop :=
  (∀ user ∈ config.users, Presentable user.password →
    (asBytes user.password).all isVisibleAscii) ∧
  ∀ user ∈ config.users, ∀ other ∈ config.users, Presentable user.password →
    Presentable other.password → user ≠ other →
    user.password ≠ other.password ∧ user.name ≠ other.name

instance (config : Config) : Decidable (Attributable config) :=
  inferInstanceAs (Decidable ((∀ user ∈ _, _) ∧ ∀ user ∈ _, ∀ other ∈ _, _))

/-- In such a configuration the table has the name of each user. -/
theorem Attributable.lookup_users (h : Attributable config) {user : User}
    (huser : user ∈ config.users) (hpresentable : Presentable user.password) :
    (authenticationOptions config).users.lookup user.password = some user.name := by
  apply HashMap.lookup_collect_eq
  · exact List.mem_map.mpr ⟨user, huser, rfl⟩
  · intro name hname
    obtain ⟨other, hother, heq⟩ := List.mem_map.mp hname
    obtain ⟨hpassword, rfl⟩ := Prod.mk.inj heq
    by_contra hne
    have hdistinct : user ≠ other := fun heq => hne (congrArg User.name heq.symm)
    exact (h.2 user huser other hother hpresentable (hpassword ▸ hpresentable) hdistinct).1
      hpassword.symm

/-- **HY2 users have accounts of their own exactly if their passwords and names are distinct.** -/
theorem attributed_iff {http : Http} (hhttp : http.Documented) {crates : Crates} {config : Config}
    (hvalid : config.validate crates = .ok ()) :
    Attributed http config ↔ Attributable config := by
  constructor
  · rintro ⟨hname, hshare⟩
    have hvisible : ∀ user ∈ config.users, Presentable user.password →
        (asBytes user.password).all isVisibleAscii := by
      intro user huser hp
      by_contra hvisible
      have hattributed := hname user huser _ (Request.login_presents hp)
        (Request.login_authorized hhttp hp)
      rw [authenticate_eq_lookup_empty hhttp (Request.login_presents hp) hvisible
        (Request.login_authorized hhttp hp), lookup_users_empty hvalid] at hattributed
      cases hattributed
    refine ⟨hvisible, fun user huser other hother hp hp' hne => ?_⟩
    have hdiffer := hshare user huser other hother hne _ _ (Request.login_presents hp)
      (Request.login_presents hp') (Request.login_authorized hhttp hp)
      (Request.login_authorized hhttp hp')
    constructor
    · intro hpassword
      apply hdiffer
      rw [authenticate_eq_lookup hhttp (Request.login_presents hp) (hvisible user huser hp)
          (Request.login_authorized hhttp hp),
        authenticate_eq_lookup hhttp (Request.login_presents hp') (hvisible other hother hp')
          (Request.login_authorized hhttp hp'), hpassword]
    · intro heq
      apply hdiffer
      rw [hname user huser _ (Request.login_presents hp) (Request.login_authorized hhttp hp),
        hname other hother _ (Request.login_presents hp') (Request.login_authorized hhttp hp'), heq]
  · intro h
    have hname : ∀ user ∈ config.users, ∀ request : Request, request.Presents user.password →
        OtherwiseAuthorized http (authenticationOptions config) request →
        authenticate http (authenticationOptions config) request = some user.name := by
      intro user huser request hpresents hother
      rw [authenticate_eq_lookup hhttp hpresents (h.1 user huser hpresents.presentable) hother]
      exact h.lookup_users huser hpresents.presentable
    refine ⟨hname, fun user huser other hother hne request request' hp hp' ho ho' heq => ?_⟩
    rw [hname user huser request hp ho, hname other hother request' hp' ho'] at heq
    exact (h.2 user huser other hother hp.presentable hp'.presentable hne).2 (Option.some.inj heq)

/-- `to_str` by its documentation. -/
def sampleHttp : Http where
  toStr := fun value => if value.bytes.all isVisibleAscii then fromUtf8 value.bytes else none

theorem sampleHttp_documented : sampleHttp.Documented := by
  intro value text
  rw [sampleHttp, Option.ite_none_right_eq_some, fromUtf8_eq_some_iff, and_comm]

theorem attributed_distinct_passwords :
    (sampleConfig [⟨"alice", "one"⟩, ⟨"bob", "two"⟩]).validate sampleCrates = .ok () ∧
      Attributed sampleHttp (sampleConfig [⟨"alice", "one"⟩, ⟨"bob", "two"⟩]) := by
  have hvalid : (sampleConfig [⟨"alice", "one"⟩, ⟨"bob", "two"⟩]).validate sampleCrates = .ok () :=
    Config.validate_minimal_iff.mpr (by decide)
  exact ⟨hvalid, (attributed_iff sampleHttp_documented hvalid).mpr (by decide)⟩

/-- **A shared password.**  Alice and Bob have one password, and Alice is taken for Bob. -/
theorem shared_password_misattributed :
    (sampleConfig [⟨"alice", "secret"⟩, ⟨"bob", "secret"⟩]).validate sampleCrates = .ok () ∧
      (∃ request : Request, request.Presents "secret" ∧
        authenticate sampleHttp (authenticationOptions
          (sampleConfig [⟨"alice", "secret"⟩, ⟨"bob", "secret"⟩])) request = some "bob") ∧
      ¬ Attributed sampleHttp (sampleConfig [⟨"alice", "secret"⟩, ⟨"bob", "secret"⟩]) := by
  have hp : Presentable "secret" := by decide
  have hbob : authenticate sampleHttp (authenticationOptions
      (sampleConfig [⟨"alice", "secret"⟩, ⟨"bob", "secret"⟩])) (.login "secret" hp) =
        some "bob" := by
    rw [authenticate_eq_lookup sampleHttp_documented (Request.login_presents hp) (by decide)
      (Request.login_authorized sampleHttp_documented hp)]
    decide
  refine ⟨Config.validate_minimal_iff.mpr (by decide), ⟨_, Request.login_presents hp, hbob⟩, ?_⟩
  intro h
  have halice := h.1 ⟨"alice", "secret"⟩ (by decide) _ (Request.login_presents hp)
    (Request.login_authorized sampleHttp_documented hp)
  rw [hbob] at halice
  exact absurd (Option.some.inj halice) (by decide)

end SingBoxMini.Server
