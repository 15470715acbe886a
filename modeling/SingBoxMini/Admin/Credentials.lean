import SingBoxMini.Admin.Supervisor
import Mathlib.Logic.Function.Basic

/-!
# Admin — Credentials

The credential file of the management interface, and what the requests and the reset command do to
the users they have loaded from it (`admin.rs`).

The users are a table from names to passwords (`passwords`), and each change is an update of the
table at one name.

* `ensureCredentials_ok_iff`: what a file has to be like to be accepted.
* `Change.edit_passwords`, `passwords_resetCredentials`: the updates.
* `Change.accepted_of_edit`: what is left of an accepted file is accepted.
-/

namespace SingBoxMini.Admin.Credentials
open Bytes Text

/-- `AdminCredentials` -/
structure AdminCredentials where
  username : List Char
  password : List Char
deriving DecidableEq, Repr

/-- `AdminCredentialsFile` -/
@[ext]
structure AdminCredentialsFile where
  users : List AdminCredentials
deriving DecidableEq, Repr

/-- `AdminCredentialsDocument`; the first variant that fits is read. -/
inductive AdminCredentialsDocument where
  | multiple (credentials : AdminCredentialsFile)
  | legacy (user : AdminCredentials)
deriving DecidableEq, Repr

/-- `toml::to_string` and `toml::from_str`, for the credentials: what is written is read as it
was. -/
structure Toml where
  toString : AdminCredentialsFile → Except String (List Char)
  fromStr : List Char → Except String AdminCredentialsDocument
  fromStr_toString : ∀ {file contents}, toString file = .ok contents →
    fromStr contents = .ok (.multiple file)

/-! ### Checks -/

/-- `ensure_admin_user` -/
def ensureAdminUser (user : AdminCredentials) : Except AnyhowError Unit := do
  ensure (¬ (trim user.username = [] ∨ 64 < (utf8 user.username).length ∨ ':' ∈ user.username ∨
      user.username.any isControl = true))
    "admin username must be 1-64 characters without colons or control characters"
  ensure (¬ (user.password = [] ∨ 256 < (utf8 user.password).length))
    "admin password must be 1-256 characters"

/-- The last loop of `ensure_credentials`: no user has the name of one before it. -/
def ensureDistinct (before : List AdminCredentials) :
    List AdminCredentials → Except AnyhowError Unit
  | [] => .ok ()
  | user :: users =>
    if before.any (·.username = user.username) then
      .error ["duplicate admin username " ++ String.ofList user.username]
    else ensureDistinct (before ++ [user]) users

/-- `ensure_credentials` -/
def ensureCredentials (credentials : AdminCredentialsFile) : Except AnyhowError Unit := do
  ensure (credentials.users ≠ []) "at least one admin user is required"
  credentials.users.forM ensureAdminUser
  ensureDistinct [] credentials.users

/-- `parse_credentials` -/
def parseCredentials (toml : Toml) (contents : List Char) :
    Except AnyhowError AdminCredentialsFile := do
  let document ← (toml.fromStr contents).mapError ([·])
  let credentials := match document with
    | .multiple credentials => credentials
    | .legacy user => ⟨[user]⟩
  ensureCredentials credentials
  return credentials

/-- **The limits** of a name and a password. -/
structure Allowed (user : AdminCredentials) : Prop where
  name : trim user.username ≠ []
  nameLength : (utf8 user.username).length ≤ 64
  colon : ':' ∉ user.username
  control : ∀ c ∈ user.username, isControl c = false
  password : user.password ≠ []
  passwordLength : (utf8 user.password).length ≤ 256

/-- **The credentials a file may have.** -/
structure Accepted (credentials : AdminCredentialsFile) : Prop where
  nonempty : credentials.users ≠ []
  allowed : ∀ user ∈ credentials.users, Allowed user
  distinct : (credentials.users.map (·.username)).Nodup

variable {user : AdminCredentials} {users users' : List AdminCredentials}
  {credentials credentials' : AdminCredentialsFile}

theorem ensureAdminUser_ok_iff :
    ensureAdminUser user = .ok () ↔ Allowed user := by
  rw [ensureAdminUser, checks_ok_iff, ensure_ok_iff, ensure_ok_iff]
  push Not
  constructor
  · rintro ⟨⟨hname, hlength, hcolon, hcontrol⟩, hpassword, hpasswordLength⟩
    exact ⟨hname, hlength, hcolon, by simpa using hcontrol, hpassword, hpasswordLength⟩
  · rintro ⟨hname, hlength, hcolon, hcontrol, hpassword, hpasswordLength⟩
    exact ⟨⟨hname, hlength, hcolon, by simpa using hcontrol⟩, hpassword, hpasswordLength⟩

theorem forM_ok_iff {α : Type} {check : α → Except AnyhowError Unit} (l : List α) :
    l.forM check = .ok () ↔ ∀ x ∈ l, check x = .ok () := by
  induction l with
  | nil => simp [List.forM, pure, Except.pure]
  | cons x l ih =>
      change (check x >>= fun _ => l.forM check) = .ok () ↔ _
      rw [checks_ok_iff, ih, List.forall_mem_cons]

theorem ensureDistinct_ok_iff {before : List AdminCredentials} :
    ensureDistinct before users = .ok () ↔
      (users.map (·.username)).Nodup ∧
        ∀ user ∈ users, ∀ earlier ∈ before, earlier.username ≠ user.username := by
  induction users generalizing before with
  | nil => simp [ensureDistinct]
  | cons user users ih =>
      rw [ensureDistinct]
      split_ifs with hany
      · obtain ⟨earlier, hearlier, hname⟩ := List.any_eq_true.mp hany
        refine iff_of_false (by simp) fun h => ?_
        exact h.2 user List.mem_cons_self earlier hearlier (by simpa using hname)
      · have hnew : ∀ earlier ∈ before, earlier.username ≠ user.username := by
          simpa using hany
        rw [ih, List.map_cons, List.nodup_cons, List.forall_mem_cons]
        constructor
        · rintro ⟨hnodup, hbefore⟩
          refine ⟨⟨fun hmem => ?_, hnodup⟩, hnew, fun other hother earlier hearlier => ?_⟩
          · obtain ⟨other, hother, hname⟩ := List.mem_map.mp hmem
            exact hbefore other hother user (by simp) hname.symm
          · exact hbefore other hother earlier (List.mem_append_left _ hearlier)
        · rintro ⟨⟨hmem, hnodup⟩, -, hbefore⟩
          refine ⟨hnodup, fun other hother earlier hearlier hname => ?_⟩
          rcases List.mem_append.mp hearlier with hearlier | hearlier
          · exact hbefore other hother earlier hearlier hname
          · rw [List.mem_singleton.mp hearlier] at hname
            exact hmem (List.mem_map.mpr ⟨other, hother, hname.symm⟩)

/-- **What is accepted**: users within the limits, at least one, with a name each. -/
theorem ensureCredentials_ok_iff :
    ensureCredentials credentials = .ok () ↔ Accepted credentials := by
  rw [ensureCredentials, checks_ok_iff, checks_ok_iff, ensure_ok_iff, forM_ok_iff,
    ensureDistinct_ok_iff]
  constructor
  · rintro ⟨hnonempty, hallowed, hdistinct, -⟩
    exact ⟨hnonempty, fun user huser => ensureAdminUser_ok_iff.mp (hallowed user huser), hdistinct⟩
  · rintro ⟨hnonempty, hallowed, hdistinct⟩
    exact ⟨hnonempty, fun user huser => ensureAdminUser_ok_iff.mpr (hallowed user huser),
      hdistinct, by simp⟩

theorem accepted_of_parseCredentials {toml : Toml} {contents : List Char}
    (h : parseCredentials toml contents = .ok credentials) :
    Accepted credentials := by
  obtain ⟨document, -, h⟩ := bind_ok_iff.mp h
  obtain ⟨⟨⟩, hensure, hreturn⟩ := bind_ok_iff.mp h
  cases hreturn
  exact ensureCredentials_ok_iff.mp hensure

/-- **What is written is accepted again.** -/
theorem parseCredentials_toString {toml : Toml} {contents : List Char}
    (h : toml.toString credentials = .ok contents) (haccepted : Accepted credentials) :
    parseCredentials toml contents = .ok credentials := by
  rw [parseCredentials, toml.fromStr_toString h]
  refine bind_ok_iff.mpr ⟨_, rfl, bind_ok_iff.mpr ⟨(), ?_, rfl⟩⟩
  exact ensureCredentials_ok_iff.mpr haccepted

/-! ### Changes -/

/-- A new password for the first user of a name. -/
def setPassword (username password : List Char) :
    List AdminCredentials → Option (List AdminCredentials)
  | [] => none
  | user :: users =>
    if user.username = username then some ({ user with password } :: users)
    else (setPassword username password users).map (user :: ·)

/-- What the requests ask for. -/
inductive Change where
  | add (username password : List Char)
  | changePassword (username password : List Char)
  | delete (username : List Char)
deriving DecidableEq, Repr

/-- The user a request names. -/
def Change.username : Change → List Char
  | .add username _ => trim username
  | .changePassword username _ => username
  | .delete username => username

/-- The password the user has after it, if any. -/
def Change.password? : Change → Option (List Char)
  | .add _ password => some password
  | .changePassword _ password => some password
  | .delete _ => none

/-- The users of `add_admin_user`, between its `load_credentials` and its `write_credentials`. -/
def addAdminUser (user : AdminCredentials) (credentials : AdminCredentialsFile) :
    Except ApiError AdminCredentialsFile :=
  if credentials.users.any (·.username = user.username) then
    .error ⟨.conflict, "admin username already exists"⟩
  else .ok ⟨credentials.users ++ [user]⟩

/-- The users of `change_admin_password`. -/
def changeAdminPassword (username password : List Char) (credentials : AdminCredentialsFile) :
    Except ApiError AdminCredentialsFile :=
  match setPassword username password credentials.users with
  | none => .error ⟨.notFound, "admin user not found"⟩
  | some users =>
    match ensureAdminUser ⟨username, password⟩ with
    | .error error => .error (.badRequest error)
    | .ok () => .ok ⟨users⟩

/-- The users of `delete_admin_user`. -/
def deleteAdminUser (username : List Char) (credentials : AdminCredentialsFile) :
    Except ApiError AdminCredentialsFile :=
  if credentials.users.length ≤ 1 then
    .error (.badRequest ["the last admin user cannot be deleted"])
  else
    let users := credentials.users.filter (·.username ≠ username)
    if users.length = credentials.users.length then .error ⟨.notFound, "admin user not found"⟩
    else .ok ⟨users⟩

variable {username password : List Char}

theorem addAdminUser_ok_iff :
    addAdminUser user credentials = .ok credentials' ↔
      (∀ other ∈ credentials.users, other.username ≠ user.username) ∧
        credentials' = ⟨credentials.users ++ [user]⟩ := by
  rw [addAdminUser]
  split_ifs with hany
  · refine iff_of_false (by simp) fun h => ?_
    obtain ⟨other, hother, hname⟩ := List.any_eq_true.mp hany
    exact h.1 other hother (by simpa using hname)
  · rw [Except.ok.injEq, eq_comm, and_iff_right (by simpa using hany)]

theorem changeAdminPassword_ok_iff :
    changeAdminPassword username password credentials = .ok credentials' ↔
      setPassword username password credentials.users = some credentials'.users ∧
        ensureAdminUser ⟨username, password⟩ = .ok () := by
  rw [changeAdminPassword]
  cases setPassword username password credentials.users with
  | none => simp
  | some users =>
      cases ensureAdminUser ⟨username, password⟩ with
      | error error => simp
      | ok => simp [AdminCredentialsFile.ext_iff]

theorem deleteAdminUser_ok_iff :
    deleteAdminUser username credentials = .ok credentials' ↔
      1 < credentials.users.length ∧ (∃ user ∈ credentials.users, user.username = username) ∧
        credentials' = ⟨credentials.users.filter (·.username ≠ username)⟩ := by
  rw [deleteAdminUser]
  split_ifs with hlength
  · exact iff_of_false (by simp) fun h => Nat.not_lt.mpr hlength h.1
  · have hmissing : (credentials.users.filter (·.username ≠ username)).length =
        credentials.users.length ↔ ¬ ∃ user ∈ credentials.users, user.username = username := by
      rw [List.length_filter_eq_length_iff]
      simp
    rw [and_iff_right (Nat.lt_of_not_le hlength)]
    dsimp only
    split_ifs with hsame
    · exact iff_of_false (by simp) fun h => hmissing.mp hsame h.1
    · rw [and_iff_right (not_not.mp (mt hmissing.mpr hsame)), Except.ok.injEq, eq_comm]

/-- The users after a request; `add_admin_user` trims the name. -/
def Change.edit : Change → AdminCredentialsFile → Except ApiError AdminCredentialsFile
  | .add username password => addAdminUser ⟨trim username, password⟩
  | .changePassword username password => changeAdminPassword username password
  | .delete username => deleteAdminUser username

/-- `generated_credentials`, with the bytes of `getrandom` or its error. -/
def generatedCredentials (username : List Char) (random : Except String (Vector UInt8 24)) :
    Except AnyhowError AdminCredentials := do
  let username := trim username
  ensure (username ≠ []) "admin username must not be empty"
  let random ← context "generate admin password" random
  return ⟨username, hex random.toList⟩

/-- The users of `reset_credentials`, between its `load_credentials` and its
`write_credentials`. -/
def resetCredentials (credentials : AdminCredentials) (file : AdminCredentialsFile) :
    AdminCredentialsFile :=
  match setPassword credentials.username credentials.password file.users with
  | some users => ⟨users⟩
  | none => ⟨file.users ++ [credentials]⟩

/-! ### The table -/

/-- The password of a name. -/
def passwords (credentials : AdminCredentialsFile) (username : List Char) :
    Option (List Char) :=
  (credentials.users.find? (·.username = username)).map (·.password)

theorem passwords_cons (user : AdminCredentials) (users : List AdminCredentials) :
    passwords ⟨user :: users⟩ =
      Function.update (passwords ⟨users⟩) user.username (some user.password) := by
  funext username
  rw [Function.update_apply, passwords, List.find?_cons]
  by_cases h : user.username = username
  · simp [h]
  · rw [if_neg (Ne.symm h)]
    simp [h, passwords]

/-- The table has the users. -/
theorem passwords_eq_some_iff (h : (credentials.users.map (·.username)).Nodup) :
    passwords credentials username = some password ↔ ⟨username, password⟩ ∈ credentials.users := by
  obtain ⟨users⟩ := credentials
  induction users with
  | nil => simp [passwords]
  | cons user users ih =>
      rw [List.map_cons, List.nodup_cons] at h
      rw [passwords_cons, Function.update_apply, List.mem_cons]
      split_ifs with hname
      · have hnone : (⟨username, password⟩ : AdminCredentials) ∉ users := fun hmem =>
          h.1 (List.mem_map.mpr ⟨_, hmem, hname⟩)
        rw [or_iff_left hnone, Option.some.injEq, hname, eq_comm]
        exact ⟨fun h => by rw [h], fun h => by rw [← h]⟩
      · rw [ih h.2]
        refine ⟨.inr, fun hmem => hmem.resolve_left fun heq => hname ?_⟩
        rw [← heq]

theorem passwords_append (h : ∀ other ∈ users, other.username ≠ user.username) :
    passwords ⟨users ++ [user]⟩ =
      Function.update (passwords ⟨users⟩) user.username (some user.password) := by
  induction users with
  | nil => exact passwords_cons user []
  | cons other users ih =>
      rw [List.forall_mem_cons] at h
      rw [List.cons_append, passwords_cons, passwords_cons, ih h.2, Function.update_comm h.1.symm]

/-- The first user of a name gets the password, and keeps its place. -/
theorem setPassword_eq_some (h : setPassword username password users = some users') :
    ∃ before old after, users = before ++ ⟨username, old⟩ :: after ∧
      users' = before ++ ⟨username, password⟩ :: after ∧
      ∀ user ∈ before, user.username ≠ username := by
  induction users generalizing users' with
  | nil => cases h
  | cons user users ih =>
      rw [setPassword] at h
      split_ifs at h with hname
      · cases h
        subst hname
        exact ⟨[], user.password, users, rfl, rfl, by simp⟩
      · obtain ⟨users', husers', rfl⟩ := Option.map_eq_some_iff.mp h
        obtain ⟨before, old, after, rfl, rfl, hbefore⟩ := ih husers'
        exact ⟨user :: before, old, after, rfl, rfl,
          List.forall_mem_cons.mpr ⟨hname, hbefore⟩⟩

theorem setPassword_eq_none :
    setPassword username password users = none ↔ ∀ user ∈ users, user.username ≠ username := by
  induction users with
  | nil => simp [setPassword]
  | cons user users ih =>
      rw [setPassword, List.forall_mem_cons]
      split_ifs with hname
      · simp [hname]
      · simp [hname, ih]

theorem passwords_replace {before after : List AdminCredentials} (old : List Char)
    (h : ∀ other ∈ before, other.username ≠ user.username) :
    passwords ⟨before ++ user :: after⟩ = Function.update
      (passwords ⟨before ++ ⟨user.username, old⟩ :: after⟩) user.username (some user.password) := by
  induction before with
  | nil =>
      rw [List.nil_append, List.nil_append, passwords_cons, passwords_cons, Function.update_idem]
  | cons other before ih =>
      rw [List.forall_mem_cons] at h
      rw [List.cons_append, List.cons_append, passwords_cons, passwords_cons, ih h.2,
        Function.update_comm h.1.symm]

theorem passwords_setPassword (h : setPassword username password users = some users') :
    passwords ⟨users'⟩ = Function.update (passwords ⟨users⟩) username (some password) := by
  obtain ⟨before, old, after, rfl, rfl, hbefore⟩ := setPassword_eq_some h
  exact passwords_replace old hbefore

theorem passwords_filter (username : List Char) (users : List AdminCredentials) :
    passwords ⟨users.filter (·.username ≠ username)⟩ =
      Function.update (passwords ⟨users⟩) username none := by
  induction users with
  | nil =>
      funext name
      simp [passwords, Function.update_apply]
  | cons user users ih =>
      rw [passwords_cons]
      by_cases hname : user.username = username
      · rw [List.filter_cons_of_neg (by simpa using hname), ih, hname, Function.update_idem]
      · rw [List.filter_cons_of_pos (by simpa using hname), passwords_cons, ih,
          Function.update_comm hname]

/-- **A request updates the table** at the name it has. -/
theorem Change.edit_passwords {change : Change} (h : change.edit credentials = .ok credentials') :
    passwords credentials' =
      Function.update (passwords credentials) change.username change.password? := by
  cases change with
  | add username password =>
      obtain ⟨hnew, rfl⟩ := addAdminUser_ok_iff.mp h
      exact passwords_append hnew
  | changePassword username password =>
      obtain ⟨hset, -⟩ := changeAdminPassword_ok_iff.mp h
      exact passwords_setPassword hset
  | delete username =>
      obtain ⟨-, -, rfl⟩ := deleteAdminUser_ok_iff.mp h
      exact passwords_filter username credentials.users

/-- **A reset updates the table** at the name it is for. -/
theorem passwords_resetCredentials (credentials : AdminCredentials) (file : AdminCredentialsFile) :
    passwords (resetCredentials credentials file) =
      Function.update (passwords file) credentials.username (some credentials.password) := by
  rw [resetCredentials]
  cases h : setPassword credentials.username credentials.password file.users with
  | some users => exact passwords_setPassword h
  | none => exact passwords_append (setPassword_eq_none.mp h)

/-! ### What stays accepted -/

theorem Accepted.append (h : Accepted ⟨users⟩) (huser : Allowed user)
    (hnew : ∀ other ∈ users, other.username ≠ user.username) : Accepted ⟨users ++ [user]⟩ where
  nonempty := by simp
  allowed := by
    intro other hother
    rcases List.mem_append.mp hother with hother | hother
    · exact h.allowed other hother
    · rwa [List.mem_singleton.mp hother]
  distinct := by
    rw [List.map_append, List.map_singleton, List.nodup_append]
    refine ⟨h.distinct, List.nodup_singleton _, ?_⟩
    simpa using hnew

theorem Accepted.setPassword (h : Accepted ⟨users⟩)
    (hset : setPassword username password users = some users')
    (huser : Allowed ⟨username, password⟩) : Accepted ⟨users'⟩ := by
  obtain ⟨before, old, after, rfl, rfl, -⟩ := setPassword_eq_some hset
  refine ⟨by simp, fun user hmem => ?_, ?_⟩
  · rcases List.mem_append.mp hmem with hmem | hmem
    · exact h.allowed user (List.mem_append_left _ hmem)
    · rcases List.mem_cons.mp hmem with rfl | hmem
      · exact huser
      · exact h.allowed user (List.mem_append_right _ (List.mem_cons_of_mem _ hmem))
  · have hdistinct := h.distinct
    rw [List.map_append, List.map_cons] at hdistinct ⊢
    exact hdistinct

/-- One user of an accepted file has a name, so of two there is one left. -/
theorem Accepted.delete (h : Accepted ⟨users⟩) (username : List Char) (hlength : 1 < users.length) :
    Accepted ⟨users.filter (·.username ≠ username)⟩ where
  nonempty := by
    intro hnil
    have hall : ∀ user ∈ users, user.username = username := by
      intro user huser
      simpa using List.filter_eq_nil_iff.mp hnil user huser
    have hdistinct := h.distinct
    match users, hlength with
    | first :: second :: rest, _ =>
        have hfirst := hall first (by simp)
        have hsecond := hall second (by simp)
        simp [hfirst, hsecond] at hdistinct
  allowed := fun user huser => h.allowed user (List.mem_of_mem_filter huser)
  distinct := (List.filter_sublist.map _).nodup h.distinct

/-- **Requests keep a file accepted**; the user of `add_admin_user` was checked before. -/
theorem Change.accepted_of_edit {change : Change} (h : change.edit credentials = .ok credentials')
    (haccepted : Accepted credentials)
    (hchecked : ∀ username password, change = .add username password →
      Allowed ⟨trim username, password⟩) : Accepted credentials' := by
  cases change with
  | add username password =>
      obtain ⟨hnew, rfl⟩ := addAdminUser_ok_iff.mp h
      exact haccepted.append (hchecked username password rfl) hnew
  | changePassword username password =>
      obtain ⟨hset, hensure⟩ := changeAdminPassword_ok_iff.mp h
      exact haccepted.setPassword hset (ensureAdminUser_ok_iff.mp hensure)
  | delete username =>
      obtain ⟨hlength, -, rfl⟩ := deleteAdminUser_ok_iff.mp h
      exact haccepted.delete username hlength

end SingBoxMini.Admin.Credentials
