import SingBoxMini.Admin.Credentials
import SingBoxMini.Support.Base64

/-!
# Admin — Sessions

The tokens of a login, and how a request is authorised (`admin.rs`).

A token is Base64 of the claims, a dot, and Base64 of a tag over the bytes of the claims, keyed by
the password of the user the claims name.  The claims are read before the tag is checked.

`serde_json` and the hash functions are parameters (`SessionCrates`).  Of what a MAC is taken to be
only this is used: the tag of the claims of a user tells the password the user had when the token
was issued from the one the user has now (`BindsPassword`).

* `validateSessionToken_eq_some_iff`: which tokens are accepted.
* `session_tokens`: a token is accepted for the user it was issued to, until it expires, as long as
  the user has the password.
-/

namespace SingBoxMini.Admin.Credentials
open Bytes Text

/-- `SessionClaims` -/
structure SessionClaims where
  username : List Char
  expiresAt : UInt64
deriving DecidableEq, Repr

/-- The crates the tokens are made with. -/
structure SessionCrates where
  /-- `serde_json::to_vec` -/
  toVec : SessionClaims → Except String (List UInt8)
  /-- `serde_json::from_slice` -/
  fromSlice : List UInt8 → Except String SessionClaims
  fromSlice_toVec : ∀ {claims bytes}, toVec claims = .ok bytes → fromSlice bytes = .ok claims
  /-- `Blake2b512::digest` -/
  digest : List UInt8 → List UInt8
  /-- `Blake2bMac512` of a key and a message; there is none for a key of a wrong length. -/
  mac : (key message : List UInt8) → Option (List UInt8)

/-- `URL_SAFE_NO_PAD` -/
def urlSafeNoPad : Base64.Engine := ⟨true, false⟩

/-- `STANDARD` -/
def standard : Base64.Engine := ⟨false, true⟩

/-- `ADMIN_SESSION_COOKIE` -/
def adminSessionCookie : List Char := "sing_box_ser_mini_session".toList

/-- `ADMIN_SESSION_TTL_SECS` -/
def adminSessionTtlSecs : UInt64 := 24 * 60 * 60

section
variable (crates : SessionCrates)

/-- `session_signature` -/
def sessionSignature (password : List Char) (claims : List UInt8) :
    Except AnyhowError (List UInt8) :=
  okOr (crates.mac (crates.digest (utf8 password)) claims) "initialize admin session signer"

/-- `issue_session_token` -/
def issueSessionToken (user : AdminCredentials) (expiresAt : UInt64) :
    Except AnyhowError (List Char) := do
  let claims ← context "serialize admin session" (crates.toVec ⟨user.username, expiresAt⟩)
  let signature ← sessionSignature crates user.password claims
  return urlSafeNoPad.encode claims ++ '.' :: urlSafeNoPad.encode signature

/-- `validate_session_token` -/
def validateSessionToken (token : List Char) (credentials : AdminCredentialsFile) (now : UInt64) :
    Option (List Char) := do
  let (claims, signature) ← splitOnce ['.'] token
  let claims ← urlSafeNoPad.decode claims
  let signature ← urlSafeNoPad.decode signature
  let document ← (crates.fromSlice claims).toOption
  if document.expiresAt ≤ now then none
  else do
    let user ← credentials.users.find? (·.username = document.username)
    let expected ← (sessionSignature crates user.password claims).toOption
    if signature ≠ expected then none else some document.username

/-! ### Requests -/

/-- The headers a request is authorised by, as far as they are text. -/
structure Headers where
  authorization : Option (List Char)
  cookies : List (List Char)
deriving DecidableEq, Repr

/-- `session_cookie` -/
def sessionCookie (headers : Headers) : Option (List Char) :=
  ((headers.cookies.flatMap (·.splitOn ';')).filterMap fun part =>
    splitOnce ['='] (trim part)).findSome? fun (name, value) =>
      if name = adminSessionCookie then some value else none

/-- `decode_basic_credentials` -/
def decodeBasicCredentials (authorization : List Char) : Option (List UInt8 × List UInt8) := do
  let encoded ← stripStart "Basic ".toList authorization
  let decoded ← standard.decode encoded
  let separator ← decoded.findIdx? (· = 58)
  return (decoded.take separator, decoded.drop (separator + 1))

/-- The token of the command line is the one of the header. -/
def validToken (token : Option (List UInt8)) (authorization : List Char) : Bool :=
  match token, stripStart "Bearer ".toList authorization with
  | some expected, some provided => utf8 provided = expected
  | _, _ => false

/-- `authorize`, with what reading the credential file gives. -/
def authorize (toml : Toml) (token : Option (List UInt8)) (headers : Headers)
    (contents : Except String (List Char)) (now : UInt64) : Except ApiError Unit :=
  let authorization := headers.authorization.getD []
  if validToken token authorization then .ok ()
  else do
    let contents ← contents.mapError fun error => ApiError.internal [error]
    let credentials ← (parseCredentials toml contents).mapError ApiError.internal
    if (sessionCookie headers).any fun token =>
        (validateSessionToken crates token credentials now).isSome then
      return ()
    if (decodeBasicCredentials authorization).any fun (username, password) =>
        credentials.users.any fun user =>
          username = utf8 user.username ∧ password = utf8 user.password then
      return ()
    throw ⟨.unauthorized, "invalid username or password"⟩

/-- `u64::saturating_add` -/
def saturatingAdd (a b : UInt64) : UInt64 := .ofNat (min (a.toNat + b.toNat) (UInt64.size - 1))

/-- What a login answers: the cookie, and its body. -/
structure LoginResponse where
  cookie : List Char
  username : List Char
  expiresAt : UInt64
deriving DecidableEq, Repr

/-- `HeaderValue::from_str` takes these. -/
def isHeaderCharacter (c : Char) : Bool := c = '\t' || (' ' ≤ c && c ≤ '~')

/-- `login`, with the credentials it has loaded. -/
def login (credentials : AdminCredentialsFile) (username password : List Char) (now : UInt64) :
    Except ApiError LoginResponse :=
  match credentials.users.find? fun user =>
      username = user.username ∧ password = user.password with
  | none => .error ⟨.unauthorized, "invalid username or password"⟩
  | some user => do
    let expiresAt := saturatingAdd now adminSessionTtlSecs
    let token ← (issueSessionToken crates user expiresAt).mapError ApiError.internal
    let cookie := adminSessionCookie ++ '=' :: token ++
      "; Max-Age=86400; Path=/; HttpOnly; SameSite=Strict".toList
    if cookie.all isHeaderCharacter then return ⟨cookie, user.username, expiresAt⟩
    else throw (.internal ["failed to parse header value"])

end

/-! ### Which tokens are accepted -/

section
variable {crates : SessionCrates} {credentials : AdminCredentialsFile} {now expiresAt : UInt64}

/-- The bytes of the claims of a token, and its tag. -/
def Carries (token : List Char) (claims tag : List UInt8) : Prop :=
  ∃ first second, splitOnce ['.'] token = some (first, second) ∧
    urlSafeNoPad.decode first = some claims ∧ urlSafeNoPad.decode second = some tag

variable {token username : List Char}

theorem Carries.unique {claims tag claims' tag' : List UInt8} (h : Carries token claims tag)
    (h' : Carries token claims' tag') :
    claims = claims' ∧ tag = tag' := by
  obtain ⟨first, second, hsplit, hclaims, htag⟩ := h
  obtain ⟨first', second', hsplit', hclaims', htag'⟩ := h'
  cases hsplit.symm.trans hsplit'
  exact ⟨Option.some.inj (hclaims.symm.trans hclaims'), Option.some.inj (htag.symm.trans htag')⟩

/-- A token that is accepted, by its parts. -/
theorem validateSessionToken_eq_some :
    validateSessionToken crates token credentials now = some username ↔
      ∃ claims tag expiresAt, Carries token claims tag ∧
        crates.fromSlice claims = .ok ⟨username, expiresAt⟩ ∧ now < expiresAt ∧
        ∃ user, credentials.users.find? (·.username = username) = some user ∧
          sessionSignature crates user.password claims = .ok tag := by
  have htoOption : ∀ {ε α : Type} {x : Except ε α} {a : α}, x.toOption = some a ↔ x = .ok a := by
    intro ε α x a
    cases x <;> simp [Except.toOption]
  simp only [validateSessionToken, Option.bind_eq_bind, Option.bind_eq_some_iff, Prod.exists,
    htoOption]
  constructor
  · rintro ⟨first, second, hsplit, claims, hclaims, tag, htag, ⟨name, expiresAt⟩, hdocument, h⟩
    split_ifs at h with hexpired
    obtain ⟨user, hfind, h⟩ := Option.bind_eq_some_iff.mp h
    obtain ⟨expected, hexpected, h⟩ := Option.bind_eq_some_iff.mp h
    split_ifs at h with htags
    cases h
    rw [not_not.mp htags] at htag
    exact ⟨claims, expected, expiresAt, ⟨first, second, hsplit, hclaims, htag⟩, hdocument,
      UInt64.not_le.mp hexpired, user, hfind, htoOption.mp hexpected⟩
  · rintro ⟨claims, tag, expiresAt, ⟨first, second, hsplit, hclaims, htag⟩, hdocument, hnow, user,
      hfind, hsignature⟩
    refine ⟨first, second, hsplit, claims, hclaims, tag, htag, _, hdocument, ?_⟩
    rw [if_neg (UInt64.not_le.mpr hnow)]
    refine Option.bind_eq_some_iff.mpr ⟨user, hfind, ?_⟩
    refine Option.bind_eq_some_iff.mpr ⟨tag, htoOption.mpr hsignature, ?_⟩
    rw [if_neg (not_not.mpr rfl)]

/-- **Which tokens are accepted**: those with claims that name the user and have not expired, and
with the tag of the bytes of the claims under the password the user has. -/
theorem validateSessionToken_eq_some_iff :
    validateSessionToken crates token credentials now = some username ↔
      ∃ claims tag expiresAt password, Carries token claims tag ∧
        crates.fromSlice claims = .ok ⟨username, expiresAt⟩ ∧ now < expiresAt ∧
        passwords credentials username = some password ∧
        sessionSignature crates password claims = .ok tag := by
  rw [validateSessionToken_eq_some]
  constructor
  · rintro ⟨claims, tag, expiresAt, hcarries, hdocument, hnow, user, hfind, hsignature⟩
    refine ⟨claims, tag, expiresAt, user.password, hcarries, hdocument, hnow, ?_, hsignature⟩
    rw [passwords, hfind, Option.map_some]
  · rintro ⟨claims, tag, expiresAt, password, hcarries, hdocument, hnow, hpassword, hsignature⟩
    obtain ⟨user, hfind, rfl⟩ := Option.map_eq_some_iff.mp hpassword
    exact ⟨claims, tag, expiresAt, hcarries, hdocument, hnow, user, hfind, hsignature⟩

/-! ### Tokens that were issued -/

/-- **Tags tell passwords apart**: the claims of a user do not have the same tag under a password
the user had and under another one the user has now. -/
def BindsPassword (crates : SessionCrates) (before now : AdminCredentialsFile) : Prop :=
  ∀ user ∈ before.users, ∀ password, passwords now user.username = some password →
    ∀ expiresAt claims tag, crates.toVec ⟨user.username, expiresAt⟩ = .ok claims →
      sessionSignature crates user.password claims = .ok tag →
      sessionSignature crates password claims = .ok tag → user.password = password

/-- The token of a login. -/
theorem issueSessionToken_ok_iff {user : AdminCredentials} :
    issueSessionToken crates user expiresAt = .ok token ↔
      ∃ claims tag, crates.toVec ⟨user.username, expiresAt⟩ = .ok claims ∧
        sessionSignature crates user.password claims = .ok tag ∧
        token = urlSafeNoPad.encode claims ++ '.' :: urlSafeNoPad.encode tag := by
  rw [issueSessionToken, bind_ok_iff]
  constructor
  · rintro ⟨claims, hclaims, h⟩
    obtain ⟨tag, htag, hreturn⟩ := bind_ok_iff.mp h
    exact ⟨claims, tag, context_ok_iff.mp hclaims, htag, (Except.ok.inj hreturn).symm⟩
  · rintro ⟨claims, tag, hclaims, htag, rfl⟩
    exact ⟨claims, context_ok_iff.mpr hclaims, bind_ok_iff.mpr ⟨tag, htag, rfl⟩⟩

theorem carries_encode (claims tag : List UInt8) :
    Carries (urlSafeNoPad.encode claims ++ '.' :: urlSafeNoPad.encode tag) claims tag := by
  refine ⟨_, _, ?_, Base64.Engine.decode_encode claims, Base64.Engine.decode_encode tag⟩
  rw [List.append_cons]
  exact splitOnce_append (Base64.Engine.dot_not_mem_encode claims) [] _

/-- An issued token, at any later time. -/
theorem validateSessionToken_issued {before : AdminCredentialsFile} {user : AdminCredentials}
    (hbinds : BindsPassword crates before credentials) (huser : user ∈ before.users)
    (h : issueSessionToken crates user expiresAt = .ok token) :
    validateSessionToken crates token credentials now = some username ↔
      username = user.username ∧ now < expiresAt ∧
        passwords credentials user.username = some user.password := by
  obtain ⟨claims, tag, hclaims, htag, rfl⟩ := issueSessionToken_ok_iff.mp h
  have hdocument := crates.fromSlice_toVec hclaims
  rw [validateSessionToken_eq_some_iff]
  constructor
  · rintro ⟨claims', tag', expiresAt', password, hcarries, hdocument', hnow, hpassword, htag'⟩
    obtain ⟨rfl, rfl⟩ := hcarries.unique (carries_encode claims tag)
    cases hdocument.symm.trans hdocument'
    have hsame := hbinds user huser password hpassword expiresAt claims' tag' hclaims htag htag'
    exact ⟨rfl, hnow, hsame ▸ hpassword⟩
  · rintro ⟨rfl, hnow, hpassword⟩
    exact ⟨claims, tag, expiresAt, user.password, carries_encode claims tag, hdocument, hnow,
      hpassword, htag⟩

end

/-! ### Histories -/

/-- The check before the lock; only `add_admin_user` has one. -/
def Change.check : Change → Except ApiError Unit
  | .add username password =>
    (ensureAdminUser ⟨trim username, password⟩).mapError ApiError.badRequest
  | _ => .ok ()

/-- The credentials after a request, whether or not it is refused. -/
def Change.after (credentials : AdminCredentialsFile) (change : Change) : AdminCredentialsFile :=
  match change.check, change.edit credentials with
  | .ok (), .ok credentials' => credentials'
  | _, _ => credentials

theorem Change.allowed_of_check {change : Change} (h : change.check = .ok ())
    {username password : List Char} (hadd : change = .add username password) :
    Allowed ⟨trim username, password⟩ := by
  subst hadd
  exact ensureAdminUser_ok_iff.mp (mapError_ok_iff.mp h)

theorem Change.accepted_after {change : Change} {credentials : AdminCredentialsFile}
    (h : Accepted credentials) : Accepted (change.after credentials) := by
  rw [Change.after]
  split
  · rename_i hcheck hedit
    exact Change.accepted_of_edit hedit h fun _ _ hadd => Change.allowed_of_check hcheck hadd
  · exact h

/-- **Every history leaves an accepted file.** -/
theorem accepted_history {start : AdminCredentialsFile} (h : Accepted start)
    (changes : List Change) : Accepted (changes.foldl Change.after start) := by
  induction changes generalizing start with
  | nil => exact h
  | cons change changes ih => exact ih (Change.accepted_after h)

/-- **Tokens follow the credentials.**  After any history a token is accepted exactly if its claims
name a user and have not expired, and its tag is the one of the claims under the password the user
has; and a token issued at some point of it is accepted for the user it was issued to, before it
expires and if there is the user with that password, and for nobody else. -/
theorem session_tokens {crates : SessionCrates} {start : AdminCredentialsFile}
    (hstart : Accepted start) (earlier later : List Change)
    (hbinds : BindsPassword crates (earlier.foldl Change.after start)
      ((earlier ++ later).foldl Change.after start)) :
    (∀ token now username,
      validateSessionToken crates token ((earlier ++ later).foldl Change.after start) now =
          some username ↔
        ∃ claims tag expiresAt password, Carries token claims tag ∧
          crates.fromSlice claims = .ok ⟨username, expiresAt⟩ ∧ now < expiresAt ∧
          ⟨username, password⟩ ∈ ((earlier ++ later).foldl Change.after start).users ∧
          sessionSignature crates password claims = .ok tag) ∧
    ∀ user ∈ (earlier.foldl Change.after start).users, ∀ expiresAt token,
      issueSessionToken crates user expiresAt = .ok token → ∀ now,
        (validateSessionToken crates token ((earlier ++ later).foldl Change.after start) now =
            some user.username ↔
          now < expiresAt ∧ user ∈ ((earlier ++ later).foldl Change.after start).users) ∧
        ∀ other,
          validateSessionToken crates token ((earlier ++ later).foldl Change.after start) now =
            some other → other = user.username := by
  have hdistinct := (accepted_history hstart (earlier ++ later)).distinct
  refine ⟨fun token now username => ?_, fun user huser expiresAt token htoken now => ⟨?_, ?_⟩⟩
  · rw [validateSessionToken_eq_some_iff]
    simp only [passwords_eq_some_iff hdistinct]
  · rw [validateSessionToken_issued hbinds huser htoken, passwords_eq_some_iff hdistinct]
    exact and_iff_right rfl
  · intro other hother
    exact ((validateSessionToken_issued hbinds huser htoken).mp hother).1

/-- The 64-bit hash FNV-1a. -/
def fnv1a (bytes : List UInt8) : UInt64 :=
  bytes.foldl (fun hash byte => (hash ^^^ byte.toUInt64) * 1099511628211) 14695981039346656037

theorem ofBeBytes_toNat (n : UInt64) : ofBeBytes (beBytes 8 n.toNat) = n.toNat := by
  rw [ofBeBytes_beBytes]
  exact Nat.mod_eq_of_lt n.toNat_lt

/-- Claims as eight bytes and the name, and digests and tags of eight bytes. -/
def sampleSessionCrates : SessionCrates where
  toVec := fun claims => .ok (beBytes 8 claims.expiresAt.toNat ++ utf8 claims.username)
  fromSlice := fun bytes =>
    match ofUtf8 (bytes.drop 8) with
    | some username => .ok ⟨username, .ofNat (ofBeBytes (bytes.take 8))⟩
    | none => .error "invalid claims"
  fromSlice_toVec := by
    rintro ⟨username, expiresAt⟩ bytes h
    cases h
    have hlength : (beBytes 8 expiresAt.toNat).length = 8 := length_beBytes _ _
    rw [List.drop_left' hlength, List.take_left' hlength, ofUtf8_utf8, ofBeBytes_toNat,
      UInt64.ofNat_toNat]
  digest := fun bytes => beBytes 8 (fnv1a bytes).toNat
  mac := fun key message =>
    if key.length = 8 then some (beBytes 8 (.ofNat (ofBeBytes key) + fnv1a message : UInt64).toNat)
    else none

/-- A tag is the sum of the hashes. -/
theorem sampleSessionCrates_signature {password : List Char} {claims tag : List UInt8}
    (h : sessionSignature sampleSessionCrates password claims = .ok tag) :
    tag = beBytes 8 (fnv1a (utf8 password) + fnv1a claims).toNat := by
  have hlength : (beBytes 8 (fnv1a (utf8 password)).toNat).length = 8 := length_beBytes _ _
  rw [sessionSignature, okOr_ok_iff] at h
  simp only [sampleSessionCrates, if_pos hlength, ofBeBytes_toNat, UInt64.ofNat_toNat] at h
  exact (Option.some.inj h).symm

/-- Passwords with different hashes have different tags. -/
theorem sampleSessionCrates_binds {before now : AdminCredentialsFile}
    (h : ∀ user ∈ before.users, ∀ other ∈ now.users,
      fnv1a (utf8 user.password) = fnv1a (utf8 other.password) → user.password = other.password) :
    BindsPassword sampleSessionCrates before now := by
  intro user huser password hpassword expiresAt claims tag _ htag htag'
  obtain ⟨other, hother, rfl⟩ := Option.map_eq_some_iff.mp hpassword
  refine h user huser other (List.mem_of_find?_eq_some hother) ?_
  have hsum := congrArg ofBeBytes
    ((sampleSessionCrates_signature htag).symm.trans (sampleSessionCrates_signature htag'))
  rw [ofBeBytes_toNat, ofBeBytes_toNat] at hsum
  exact (UInt64.add_left_inj _).mp (UInt64.toNat.inj hsum)

/-- A user. -/
def sampleAdmin : AdminCredentials := ⟨"admin".toList, "secret".toList⟩

theorem sampleAdmin_accepted : Accepted ⟨[sampleAdmin]⟩ := by
  rw [← ensureCredentials_ok_iff]
  rfl

/-- A login before a password is changed, and the token after that. -/
theorem session_tokens_changed : ∃ token,
    issueSessionToken sampleSessionCrates sampleAdmin 100 = .ok token ∧
      validateSessionToken sampleSessionCrates token ⟨[sampleAdmin]⟩ 99 =
        some sampleAdmin.username ∧
      validateSessionToken sampleSessionCrates token
          ([Change.changePassword "admin".toList "new".toList].foldl Change.after ⟨[sampleAdmin]⟩)
          99 ≠ some sampleAdmin.username := by
  obtain ⟨token, htoken⟩ : ∃ token,
      issueSessionToken sampleSessionCrates sampleAdmin 100 = .ok token := ⟨_, rfl⟩
  have hsame : BindsPassword sampleSessionCrates ⟨[sampleAdmin]⟩ ⟨[sampleAdmin]⟩ :=
    sampleSessionCrates_binds (by decide)
  have hnew : BindsPassword sampleSessionCrates ⟨[sampleAdmin]⟩
      ([Change.changePassword "admin".toList "new".toList].foldl Change.after ⟨[sampleAdmin]⟩) :=
    sampleSessionCrates_binds (by decide)
  have hbefore := ((session_tokens sampleAdmin_accepted [] [] hsame).2
    sampleAdmin List.mem_cons_self 100 token htoken 99).1
  have hafter := ((session_tokens sampleAdmin_accepted [] _ hnew).2
    sampleAdmin List.mem_cons_self 100 token htoken 99).1
  refine ⟨token, htoken, hbefore.mpr ⟨by decide, List.mem_cons_self⟩, fun h => ?_⟩
  have hmem := (hafter.mp h).2
  revert hmem
  decide

end SingBoxMini.Admin.Credentials
