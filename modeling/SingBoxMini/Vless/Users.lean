import SingBoxMini.Config

/-!
# VLESS — Users

The ids of VLESS users and the table of them (`vless_server.rs`).

An id is the first half of a SHA-256 digest of the name and the password, with a zero byte between
them, and six bits of it overwritten with the version and the variant of a UUID.  SHA-256 is a
parameter, and no two users of the configuration may collide in the 122 bits that are kept.

* `parseUuid_userIdString`: the text shown for a user stands for the id.
* `joined_eq_iff`: different users have the same hash input exactly if a part of a password passes
  for a part of a name, which takes a name with a zero byte.
* `isolated_iff`: the users are kept apart exactly if there are no two such users.
-/

namespace SingBoxMini.Vless
open Bytes Text

/-- `[u8; 16]` -/
abbrev UserId := Vector UInt8 16

/-- `Sha256`, from the whole input to the digest. -/
abbrev Sha256 := List UInt8 → Vector UInt8 32

/-! ### Ids -/

/-- What is hashed. -/
def joined (username password : String) : List UInt8 :=
  asBytes username ++ [0] ++ asBytes password

/-- The version and the variant of the id. -/
def stamp (id : UserId) : UserId :=
  let id := id.set 6 ((id[6] &&& 0x0f) ||| 0x40)
  id.set 8 ((id[8] &&& 0x3f) ||| 0x80)

/-- The first 16 bytes of a digest. -/
def truncate (digest : Vector UInt8 32) : UserId := digest.take 16

/-- `user_id` -/
def userId (sha256 : Sha256) (username password : String) : UserId :=
  stamp (truncate (sha256 (joined username password)))

/-- `user_id_string` -/
def userIdString (sha256 : Sha256) (username password : String) : String :=
  let id := (userId sha256 username password).toList
  .ofList (hex (id.take 4) ++ '-' :: hex ((id.drop 4).take 2) ++ '-' :: hex ((id.drop 6).take 2) ++
    '-' :: hex ((id.drop 8).take 2) ++ '-' :: hex (id.drop 10))

/-- `users` -/
def users (sha256 : Sha256) (users : List User) : HashMap UserId String :=
  .collect (users.map fun user => (userId sha256 user.name user.password, user.name))

/-- The id a text stands for; a client sends it in its first bytes. -/
def parseUuid (text : String) : Option UserId := do
  let bytes ← unhex (text.toList.filter (· ≠ '-'))
  if h : bytes.length = 16 then some ⟨bytes.toArray, by simp [h]⟩ else none

theorem filter_hex (bytes : List UInt8) : (hex bytes).filter (· ≠ '-') = hex bytes := by
  rw [List.filter_eq_self]
  intro c hc
  have hne : c ≠ '-' := fun h => dash_not_mem_hex bytes (h ▸ hc)
  simpa using hne

theorem groups_append (bytes : List UInt8) :
    bytes.take 4 ++ (bytes.drop 4).take 2 ++ (bytes.drop 6).take 2 ++ (bytes.drop 8).take 2 ++
      bytes.drop 10 = bytes := by
  have h : ∀ n k, (bytes.drop n).take k ++ bytes.drop (n + k) = bytes.drop n := by
    intro n k
    rw [← List.drop_drop, List.take_append_drop]
  rw [List.append_assoc, List.append_assoc, List.append_assoc, h 8 2, h 6 2, h 4 2,
    List.take_append_drop]

/-- **The text shown for a user stands for the id.** -/
theorem parseUuid_userIdString (sha256 : Sha256) (username password : String) :
    parseUuid (userIdString sha256 username password) =
      some (userId sha256 username password) := by
  have hfilter : (userIdString sha256 username password).toList.filter (· ≠ '-') =
      hex (userId sha256 username password).toList := by
    conv_rhs => rw [← groups_append (userId sha256 username password).toList]
    simp only [userIdString, String.toList_ofList, List.filter_append, List.filter_cons, filter_hex,
      hex_append]
    simp
  rw [parseUuid, hfilter, unhex_hex, Option.bind_eq_bind, Option.bind_some,
    dif_pos (by simp)]
  rfl

/-! ### Collisions -/

/-- The bits of an id that `stamp` keeps. -/
def keptBits (id : UserId) : UserId := (id.set 6 (id[6] &&& 0x0f)).set 8 (id[8] &&& 0x3f)

theorem keptBits_stamp (id : UserId) : keptBits (stamp id) = keptBits id := by
  have hversion : (stamp id)[6] = (id[6] &&& 0x0f) ||| 0x40 := by simp [stamp]
  have hvariant : (stamp id)[8] = (id[8] &&& 0x3f) ||| 0x80 := by simp [stamp]
  rw [keptBits, keptBits, hversion, hvariant, and_or_and_of_disjoint (by decide),
    and_or_and_of_disjoint (by decide)]
  ext i hi
  grind [stamp]

/-- SHA-256, cut to the bits an id keeps, tells these users apart if their inputs differ. -/
def CollisionFree (sha256 : Sha256) (users : List User) : Prop :=
  ∀ user ∈ users, ∀ other ∈ users,
    keptBits (truncate (sha256 (joined user.name user.password))) =
      keptBits (truncate (sha256 (joined other.name other.password))) →
    joined user.name user.password = joined other.name other.password

instance (sha256 : Sha256) (users : List User) : Decidable (CollisionFree sha256 users) :=
  inferInstanceAs (Decidable (∀ user ∈ users, ∀ other ∈ users, _ → _))

/-- The name of `user` is that of `other` and, past a zero byte, the start of the password of
`other`, which goes on, past another one, with the password of `user`. -/
def Straddles (user other : User) : Prop :=
  ∃ part : String, user.name = other.name ++ "\x00" ++ part ∧
    other.password = part ++ "\x00" ++ user.password

theorem joined_eq (username password : String) :
    joined username password = asBytes (username ++ "\x00" ++ password) := by
  rw [asBytes_append, asBytes_append]
  rfl

variable {user other : User}

theorem straddles_iff : Straddles user other ↔
    ∃ part, user.name.toList = other.name.toList ++ Char.ofNat 0 :: part ∧
      other.password.toList = part ++ Char.ofNat 0 :: user.password.toList := by
  constructor
  · rintro ⟨part, hname, hpassword⟩
    refine ⟨part.toList, ?_, ?_⟩
    · simp [hname]
    · simp [hpassword]
  · rintro ⟨part, hname, hpassword⟩
    refine ⟨.ofList part, ?_, ?_⟩
    · apply String.ext
      simp [hname]
    · apply String.ext
      simp [hpassword]

/-- **Two users are hashed alike** if they are the same or one of them straddles the other. -/
theorem joined_eq_iff :
    joined user.name user.password = joined other.name other.password ↔
      user = other ∨ Straddles user other ∨ Straddles other user := by
  have hsame : user = other ↔ user.name.toList = other.name.toList ∧
      user.password.toList = other.password.toList := by
    cases user
    cases other
    simp [String.toList_inj]
  have hlists : user.name ++ "\x00" ++ user.password = other.name ++ "\x00" ++ other.password ↔
      user.name.toList ++ Char.ofNat 0 :: user.password.toList =
        other.name.toList ++ Char.ofNat 0 :: other.password.toList := by
    rw [← String.toList_inj]
    simp
  rw [joined_eq, joined_eq, asBytes_inj, hlists, append_cons_eq_iff, hsame, straddles_iff,
    straddles_iff]

/-- A name without a zero byte straddles nothing. -/
theorem not_straddles (h : Char.ofNat 0 ∉ user.name.toList) :
    ¬ Straddles user other := by
  rintro ⟨part, hname, -⟩
  apply h
  rw [hname]
  simp

/-! ### Isolation -/

/-- **Isolation.**  Users that differ have different ids, and the id shown for a user is found in
the table under the name of that user. -/
def Isolated (sha256 : Sha256) (config : Config) : Prop :=
  (∀ user ∈ config.users, ∀ other ∈ config.users,
    (user.name ≠ other.name ∨ user.password ≠ other.password) →
    userId sha256 user.name user.password ≠ userId sha256 other.name other.password) ∧
  ∀ user ∈ config.users, ∃ id, parseUuid (userIdString sha256 user.name user.password) = some id ∧
    (users sha256 config.users).lookup id = some user.name

/-- Users have the same id only if they are hashed alike. -/
theorem CollisionFree.joined_eq_of_userId_eq {sha256 : Sha256} {users : List User}
    (h : CollisionFree sha256 users) (huser : user ∈ users) (hother : other ∈ users)
    (hid : userId sha256 user.name user.password = userId sha256 other.name other.password) :
    joined user.name user.password = joined other.name other.password := by
  apply h user huser other hother
  have hkept := congrArg keptBits hid
  rwa [userId, keptBits_stamp, userId, keptBits_stamp] at hkept

/-- **VLESS users are isolated exactly if none straddles another.** -/
theorem isolated_iff {sha256 : Sha256} {config : Config}
    (hsha : CollisionFree sha256 config.users) :
    Isolated sha256 config ↔
      ∀ user ∈ config.users, ∀ other ∈ config.users, ¬ Straddles user other := by
  constructor
  · rintro ⟨hids, -⟩ user huser other hother hstraddles
    have hjoined := joined_eq_iff.mpr (.inr (.inl hstraddles))
    have hdiffer : user.name ≠ other.name := by
      obtain ⟨part, hname, -⟩ := straddles_iff.mp hstraddles
      intro heq
      simp [heq] at hname
    apply hids user huser other hother (.inl hdiffer)
    rw [userId, hjoined, userId]
  · intro h
    have hids : ∀ user ∈ config.users, ∀ other ∈ config.users,
        userId sha256 user.name user.password = userId sha256 other.name other.password →
        user = other := by
      intro user huser other hother hid
      rcases joined_eq_iff.mp (hsha.joined_eq_of_userId_eq huser hother hid) with
        heq | hstraddles | hstraddles
      · exact heq
      · exact absurd hstraddles (h user huser other hother)
      · exact absurd hstraddles (h other hother user huser)
    refine ⟨fun user huser other hother hdiffer hid => ?_, fun user huser => ?_⟩
    · cases hids user huser other hother hid
      rcases hdiffer with hdiffer | hdiffer <;> exact hdiffer rfl
    · refine ⟨_, parseUuid_userIdString sha256 user.name user.password, ?_⟩
      apply HashMap.lookup_collect_eq
      · exact List.mem_map.mpr ⟨user, huser, rfl⟩
      · intro name hname
        obtain ⟨other, hother, heq⟩ := List.mem_map.mp hname
        obtain ⟨hid, rfl⟩ := Prod.mk.inj heq
        rw [hids other hother user huser hid]

/-- A digest that is the start of the input. -/
def sampleSha256 : Sha256 := fun bytes => .ofFn fun i => bytes.getD i 0

/-- Users with one password are isolated. -/
theorem isolated_shared_password :
    CollisionFree sampleSha256 [⟨"alice", "secret"⟩, ⟨"bob", "secret"⟩] ∧
      Isolated sampleSha256 (sampleConfig [⟨"alice", "secret"⟩, ⟨"bob", "secret"⟩]) := by
  have hsha : CollisionFree sampleSha256 [⟨"alice", "secret"⟩, ⟨"bob", "secret"⟩] := by decide
  refine ⟨hsha, (isolated_iff hsha).mpr fun user huser other _ => not_straddles ?_⟩
  revert user
  decide

/-- **A zero byte in a name.**  Two users of an accepted configuration have one id, whatever the
hash function. -/
theorem zero_byte_not_isolated :
    (sampleConfig [⟨"a\x00b", "c"⟩, ⟨"a", "b\x00c"⟩]).validate sampleCrates = .ok () ∧
      ∀ sha256 : Sha256, CollisionFree sha256 [⟨"a\x00b", "c"⟩, ⟨"a", "b\x00c"⟩] ∧
        userId sha256 "a\x00b" "c" = userId sha256 "a" "b\x00c" ∧
        ¬ Isolated sha256 (sampleConfig [⟨"a\x00b", "c"⟩, ⟨"a", "b\x00c"⟩]) := by
  have hjoined : joined "a\x00b" "c" = joined "a" "b\x00c" := by decide
  have hsame : ∀ user ∈ [User.mk "a\x00b" "c", ⟨"a", "b\x00c"⟩],
      ∀ other ∈ [User.mk "a\x00b" "c", ⟨"a", "b\x00c"⟩],
        joined user.name user.password = joined other.name other.password := by decide
  refine ⟨Config.validate_minimal_iff.mpr (by decide), fun sha256 => ⟨?_, ?_, ?_⟩⟩
  · exact fun user huser other hother _ => hsame user huser other hother
  · rw [userId, hjoined, userId]
  · rintro ⟨hids, -⟩
    apply hids ⟨"a\x00b", "c"⟩ (by decide) ⟨"a", "b\x00c"⟩ (by decide) (.inl (by decide))
    rw [userId, hjoined, userId]

end SingBoxMini.Vless
