import Mathlib.Data.List.Nodup
import SingBoxMini.Support.Bytes
import SingBoxMini.Support.Evict
import SingBoxMini.Support.Runs
import SingBoxMini.Support.Text

/-!
# Sublink — ShortStore

The store of short links (`src/sublink.rs`).  Links of `put` are kept in memory, the newest first;
links of `put_permanent` and `put_persisted_expiring` are kept in a list that is written to a file
after each insertion.  A lookup asks the persisted links first.

Two clocks are read: the monotonic one for links in memory, in nanoseconds, and the Unix time for
persisted ones, in seconds.  An operation takes its readings as arguments, and a run is a sequence
of operations whose readings do not go back.

* `State.Consistent` is the invariant: in each container codes are distinct and as many links as
  allowed expire, and the links in memory are in the order in which they expire.
* `Inserts` says what an insertion does to the persisted links; `State.entry_step` and
  `State.link_step` say where a link can go in one operation.
-/

namespace SingBoxMini.Sublink
open Bytes

/-- `ShortEntry` -/
structure ShortEntry where
  code : String
  query : String
  expiresAt : Nat
deriving DecidableEq, Repr

/-- `PersistentShortLink` -/
structure PersistentShortLink where
  code : String
  query : String
  expiresAtUnix : Option Nat
deriving DecidableEq, Repr

/-- `ShortStore`.  `limit` and `ttl` come from `positive_env`; `ttl` is in seconds. -/
structure ShortStore where
  entries : List ShortEntry
  permanent : List PersistentShortLink
  persistencePath : Option String
  limit : Nat
  ttl : Nat
  disabled : Bool
  limit_pos : 0 < limit
  ttl_pos : 0 < ttl
deriving DecidableEq

/-- The errors of an insertion. -/
inductive StoreError where
  | disabled
  | serialize
  | openFile
  | write
  | sync
deriving DecidableEq, Repr

/-! ### The file -/

/-- `toml::to_string` and `toml::from_str`, for the links. -/
structure Toml where
  toString : List PersistentShortLink → Option String
  fromStr : String → Option (List PersistentShortLink)

/-- Where writing the file fails: it cannot be opened, only some bytes are written, or they are not
synced. -/
inductive Fault where
  | openFile
  | write (written : Nat)
  | sync
deriving DecidableEq, Repr

variable (toml : Toml)

/-- The links of the file; there are none if there is no file. -/
def loadLinks : Option (List UInt8) → Option (List PersistentShortLink)
  | none => some []
  | some contents => (fromUtf8 contents).bind toml.fromStr

/-- `DEFAULT_SHORT_LINKS` -/
def defaultShortLinks : Nat := 512
/-- `DEFAULT_SHORT_TTL`, in seconds. -/
def defaultShortTtl : Nat := 86400

/-- `positive_env`, of the value of the variable. -/
def positiveEnv (value : Option String) (fallback : Nat) : Nat :=
  ((value.bind fun value => (Text.parseU64 value.toList).toOption).filter (0 < ·)).getD fallback

theorem positiveEnv_pos (value : Option String) {fallback : Nat} (h : 0 < fallback) :
    0 < positiveEnv value fallback := by
  rw [positiveEnv]
  cases hvalue : (value.bind fun value =>
      (Text.parseU64 value.toList).toOption).filter (0 < ·) with
  | none => exact h
  | some n => simpa using (Option.filter_eq_some_iff.mp hvalue).2

namespace ShortStore

/-- `ShortStore::from_env`, with the variables of the environment and the file at the path. -/
def fromEnv (env : String → Option String) (persistencePath : Option String)
    (file : Option (List UInt8)) : Option ShortStore :=
  (persistencePath.elim (some []) fun _ => loadLinks toml file).map fun permanent => {
    entries := []
    permanent
    persistencePath
    limit := positiveEnv (env "MAX_SHORT_LINKS") defaultShortLinks
    ttl := positiveEnv (env "SHORT_LINK_TTL_SECONDS") defaultShortTtl
    disabled := (env "DISABLE_MEMORY_KV").any fun value =>
      value.toList.map Char.toLower = "true".toList
    limit_pos := positiveEnv_pos _ (by decide)
    ttl_pos := positiveEnv_pos _ (by decide) }

/-- `ShortStore::persist`, with the file after it. -/
def persist (s : ShortStore) (fault : Option Fault) (file : Option (List UInt8)) :
    Except StoreError Unit × Option (List UInt8) :=
  match s.persistencePath with
  | none => (.ok (), file)
  | some _ =>
    match toml.toString s.permanent with
    | none => (.error .serialize, file)
    | some contents =>
      match fault with
      | some .openFile => (.error .openFile, file)
      | some (.write written) => (.error .write, some ((asBytes contents).take written))
      | some .sync => (.error .sync, some (asBytes contents))
      | none => (.ok (), some (asBytes contents))

end ShortStore

/-! ### The links -/

/-- A link that has not expired (`is_none_or(|expires_at| expires_at > now)`). -/
def PersistentShortLink.live (unix : Nat) (link : PersistentShortLink) : Bool :=
  link.expiresAtUnix.all (unix < ·)

/-- `permanent.retain` -/
def retain (unix : Nat) (links : List PersistentShortLink) : List PersistentShortLink :=
  links.filter (·.live unix)

/-- What `put_permanent` does to the links. -/
def insertPermanent (code query : String) (links : List PersistentShortLink) :
    List PersistentShortLink :=
  (Evict.findMut (·.code == code) (fun link => { link with query, expiresAtUnix := none })
    links).getD (links ++ [{ code, query, expiresAtUnix := none }])

/-- `now.saturating_add(ttl.as_secs())` -/
def expiresAtUnix (unix ttl : Nat) : Nat := min (unix + ttl) (2 ^ 64 - 1)

/-- What `put_persisted_expiring` does to the links. -/
def insertExpiring (limit ttl unix : Nat) (code query : String)
    (links : List PersistentShortLink) : List PersistentShortLink :=
  let links := retain unix links
  let expiresAt := expiresAtUnix unix ttl
  (Evict.findMut (·.code == code)
    (fun link => { link with query, expiresAtUnix := some expiresAt }) links).getD
      (Evict.evictLeast (·.expiresAtUnix) limit links ++
        [{ code, query, expiresAtUnix := some expiresAt }])

/-- What the persisted links answer. -/
def persisted (links : List PersistentShortLink) (code : String) (unix : Nat) : Option String :=
  (links.find? fun link => link.code == code && link.live unix).map (·.query)

/-- What the links in memory answer. -/
def remembered (entries : List ShortEntry) (code : String) : Option String :=
  (entries.find? (·.code == code)).map (·.query)

/-- Seconds in nanoseconds. -/
def nanos (seconds : Nat) : Nat := seconds * 1000000000

theorem nanos_pos {seconds : Nat} (h : 0 < seconds) : 0 < nanos seconds :=
  Nat.mul_pos h (by decide)

/-- The instant `ttl` seconds later, unless there is none (`Instant + Duration`, which panics). -/
def addSeconds (now ttl : Nat) : Option Nat :=
  if now + nanos ttl < nanos (2 ^ 63) then some (now + nanos ttl) else none

namespace ShortStore

/-- `ShortStore::prune` -/
def prune (now : Nat) (s : ShortStore) : ShortStore :=
  { s with entries := s.entries.filter (now < ·.expiresAt) }

/-- `ShortStore::put`, with its two readings of the clock. -/
def put (now now' : Nat) (code query : String) (s : ShortStore) :
    Option (Except StoreError Unit × ShortStore) :=
  if s.disabled then some (.error .disabled, s)
  else
    let s := s.prune now
    let entries := Evict.popBack s.limit (s.entries.eraseP (·.code == code))
    (addSeconds now' s.ttl).map fun expiresAt =>
      (.ok (), { s with entries := { code, query, expiresAt } :: entries })

/-- `ShortStore::put_permanent` -/
def putPermanent (fault : Option Fault) (code query : String) (s : ShortStore)
    (file : Option (List UInt8)) :
    Except StoreError Unit × ShortStore × Option (List UInt8) :=
  if s.disabled then (.error .disabled, s, file)
  else
    let s := { s with permanent := insertPermanent code query s.permanent }
    let (result, file) := s.persist toml fault file
    (result, s, file)

/-- `ShortStore::put_persisted_expiring` -/
def putPersistedExpiring (fault : Option Fault) (unix : Nat) (code query : String)
    (s : ShortStore) (file : Option (List UInt8)) :
    Except StoreError Unit × ShortStore × Option (List UInt8) :=
  if s.disabled then (.error .disabled, s, file)
  else
    let s := { s with permanent := insertExpiring s.limit s.ttl unix code query s.permanent }
    let (result, file) := s.persist toml fault file
    (result, s, file)

/-- `ShortStore::get`.  The codes of persisted links are distinct, so that the Unix time is read at
most once. -/
def get (now unix : Nat) (code : String) (s : ShortStore) : Option String × ShortStore :=
  let s := s.prune now
  ((persisted s.permanent code unix).or (remembered s.entries code), s)

end ShortStore

/-! ### Insertions -/

/-- **What an insertion does to persisted links**: the link takes the place of the first one of its
code, or comes last if there is none. -/
def Inserts (link : PersistentShortLink) (links links' : List PersistentShortLink) : Prop :=
  ∃ before, ∃ old : Option PersistentShortLink, ∃ after,
    links = before ++ old.toList ++ after ∧ links' = before ++ link :: after ∧
      (∀ x ∈ old, x.code = link.code) ∧ (∀ x ∈ before, x.code ≠ link.code) ∧
      (old = none → after = [])

section Inserts

variable {code query : String} {link x : PersistentShortLink}
  {links links' : List PersistentShortLink} {limit ttl unix : Nat}

/-- A link that is changed where it is. -/
theorem inserts_of_findMut {f : PersistentShortLink → PersistentShortLink}
    (hf : ∀ x : PersistentShortLink, x.code = link.code → f x = link)
    (h : Evict.findMut (·.code == link.code) f links = some links') :
    Inserts link links links' := by
  obtain ⟨before, x, after, rfl, rfl, hx, hbefore⟩ := Evict.findMut_eq_some_iff.mp h
  rw [beq_iff_eq] at hx
  refine ⟨before, some x, after, by simp, by rw [hf x hx], ?_, ?_, ?_⟩
  · simpa using hx
  · simpa using hbefore
  · simp

/-- A link that comes last. -/
theorem inserts_append (h : ∀ x ∈ links, x.code ≠ link.code) :
    Inserts link links (links ++ [link]) :=
  ⟨links, none, [], by simp, rfl, by simp, h, fun _ => rfl⟩

theorem insertPermanent_inserts :
    Inserts ⟨code, query, none⟩ links (insertPermanent code query links) := by
  rw [insertPermanent]
  cases hfind : Evict.findMut (·.code == code)
      (fun link => { link with query, expiresAtUnix := none }) links with
  | none =>
      rw [Evict.findMut_eq_none_iff] at hfind
      exact inserts_append (by simpa using hfind)
  | some links' => exact inserts_of_findMut (by rintro x rfl; rfl) hfind

/-- **What `put_persisted_expiring` inserts**, and into which links: those that have not expired,
and if none of them has the code only as many as leave room. -/
theorem insertExpiring_inserts (hlimit : 0 < limit) (ttl unix : Nat) (code query : String)
    (links : List PersistentShortLink) :
    ∃ base, Inserts ⟨code, query, some (expiresAtUnix unix ttl)⟩ base
        (insertExpiring limit ttl unix code query links) ∧
      ((base = retain unix links ∧ ∃ x ∈ retain unix links, x.code = code) ∨
        base = Evict.evictLeast (·.expiresAtUnix) limit (retain unix links) ∧
          ∀ x ∈ retain unix links, x.code ≠ code) := by
  rw [insertExpiring]
  cases hfind : Evict.findMut (·.code == code) (fun link => { link with
      query, expiresAtUnix := some (expiresAtUnix unix ttl) }) (retain unix links) with
  | none =>
      have hne : ∀ x ∈ retain unix links, x.code ≠ code := by
        simpa using Evict.findMut_eq_none_iff.mp hfind
      obtain ⟨hsub, -, -⟩ := Evict.evictLeast_spec hlimit (retain unix links)
      exact ⟨_, inserts_append fun x hx => hne x (hsub.subset hx), .inr ⟨rfl, hne⟩⟩
  | some links' =>
      refine ⟨_, inserts_of_findMut (by rintro x rfl; rfl) hfind, .inl ⟨rfl, ?_⟩⟩
      obtain ⟨before, x, after, heq, -, hx, -⟩ := Evict.findMut_eq_some_iff.mp hfind
      exact ⟨x, by simp [heq], by simpa using hx⟩

namespace Inserts

/-- The links of other codes stay. -/
theorem mem_of_mem (h : Inserts link links links') (hx : x ∈ links) (hne : x.code ≠ link.code) :
    x ∈ links' := by
  obtain ⟨before, old, after, rfl, rfl, hold, -, -⟩ := h
  simp only [List.mem_append, Option.mem_toList, List.mem_cons] at hx ⊢
  rcases hx with (hx | hx) | hx
  · exact .inl hx
  · exact absurd (hold x hx) hne
  · exact .inr (.inr hx)

theorem mem_self (h : Inserts link links links') : link ∈ links' := by
  obtain ⟨before, old, after, rfl, rfl, -⟩ := h
  simp

/-- There are no others. -/
theorem mem_or (h : Inserts link links links') (hx : x ∈ links') : x = link ∨ x ∈ links := by
  obtain ⟨before, old, after, rfl, rfl, -⟩ := h
  simp only [List.mem_append, Option.mem_toList, List.mem_cons] at hx ⊢
  tauto

/-- Codes stay distinct. -/
theorem nodup (h : Inserts link links links') (hnodup : (links.map (·.code)).Nodup) :
    (links'.map (·.code)).Nodup := by
  obtain ⟨before, old, after, rfl, rfl, hold, hbefore, hafter⟩ := h
  cases old with
  | some x =>
      have hx := hold x rfl
      simpa [hx] using hnodup
  | none =>
      rw [hafter rfl] at hnodup ⊢
      have hfresh : link.code ∉ before.map (·.code) := by
        simpa using fun x hx => hbefore x hx
      simp only [Option.toList_none, List.append_nil] at hnodup
      rw [List.map_append, List.map_cons, List.map_nil, List.nodup_append]
      refine ⟨hnodup, by simp, ?_⟩
      rintro a ha b hb rfl
      rw [List.mem_singleton] at hb
      exact hfresh (hb ▸ ha)

/-- A link that is there already stays where it is, and so do the others. -/
theorem eq_of_mem (h : Inserts link links links') (hnodup : (links.map (·.code)).Nodup)
    (hmem : link ∈ links) : links' = links := by
  obtain ⟨before, old, after, rfl, rfl, hold, hbefore, hafter⟩ := h
  cases old with
  | none =>
      rw [hafter rfl] at hmem
      exact absurd rfl (hbefore link (by simpa using hmem))
  | some x =>
      have hx : x = link :=
        List.inj_on_of_nodup_map hnodup (by simp) hmem (hold x rfl)
      simp [hx]

/-- The links afterwards. -/
theorem mem_iff (h : Inserts link links links') (hnodup : (links.map (·.code)).Nodup) :
    x ∈ links' ↔ x = link ∨ x ∈ links ∧ x.code ≠ link.code := by
  constructor
  · intro hx
    by_cases hcode : x.code = link.code
    · exact .inl (List.inj_on_of_nodup_map (h.nodup hnodup) hx h.mem_self hcode)
    · exact (h.mem_or hx).imp id fun hx => ⟨hx, hcode⟩
  · rintro (rfl | ⟨hx, hne⟩)
    · exact h.mem_self
    · exact h.mem_of_mem hx hne

/-- No more links expire than before and the one inserted. -/
theorem length_keyed_le (h : Inserts link links links') :
    (Evict.keyed (·.expiresAtUnix) links').length ≤
      (Evict.keyed (·.expiresAtUnix) links).length + link.expiresAtUnix.isSome.toNat := by
  obtain ⟨before, old, after, rfl, rfl, -⟩ := h
  cases hkey : link.expiresAtUnix with
  | none => simp [Evict.keyed, List.filter_append, hkey]
  | some expiresAt =>
      simp only [Evict.keyed, List.filter_append, List.length_append, List.filter_cons, hkey,
        Option.isSome_some, if_true, List.length_cons, Bool.toNat_true]
      omega

/-- No more expire than before if the one that was there did. -/
theorem length_keyed_le_of_mem (h : Inserts link links links')
    (hx : ∃ x ∈ links, x.code = link.code)
    (hkeyed : ∀ x ∈ links, x.code = link.code → x.expiresAtUnix ≠ none) :
    (Evict.keyed (·.expiresAtUnix) links').length ≤
      (Evict.keyed (·.expiresAtUnix) links).length := by
  obtain ⟨before, old, after, rfl, rfl, hold, hbefore, hafter⟩ := h
  cases old with
  | none =>
      obtain ⟨x, hx, hcode⟩ := hx
      rw [hafter rfl] at hx
      exact absurd hcode (hbefore x (by simpa using hx))
  | some x =>
      have hsome : x.expiresAtUnix.isSome :=
        Option.isSome_iff_ne_none.mpr (hkeyed x (by simp) (hold x rfl))
      cases hkey : link.expiresAtUnix <;>
        simp [Evict.keyed, List.filter_append, hsome, hkey]

end Inserts

end Inserts

/-! ### Runs -/

/-- The store, its file, and the last readings of the clocks. -/
structure State where
  store : ShortStore
  file : Option (List UInt8)
  instant : Nat
  unix : Nat
deriving DecidableEq

/-- The operations, with the readings of the clocks and what fails. -/
inductive Action where
  | put (code query : String) (now now' : Nat)
  | putPermanent (code query : String) (fault : Option Fault)
  | putPersistedExpiring (code query : String) (unix : Nat) (fault : Option Fault)
  | get (code : String) (now unix : Nat)
deriving DecidableEq

/-- The code an operation inserts. -/
def Action.inserts : Action → Option String
  | .put code _ _ _ => some code
  | .putPermanent code _ _ => some code
  | .putPersistedExpiring code _ _ _ => some code
  | .get _ _ _ => none

/-- The persisted link an operation is about. -/
def Action.link (ttl : Nat) : Action → Option PersistentShortLink
  | .putPermanent code query _ => some ⟨code, query, none⟩
  | .putPersistedExpiring code query unix _ => some ⟨code, query, some (expiresAtUnix unix ttl)⟩
  | _ => none

/-- What an operation returns. -/
inductive Answer where
  | inserted (result : Except StoreError Unit)
  | found (query : Option String)

namespace State

/-- What an operation returns, and the state after it.  There is none for readings that go back and
for an instant that does not exist. -/
def perform (st : State) : Action → Option (Answer × State)
  | .put code query now now' =>
    if st.instant ≤ now ∧ now ≤ now' then
      (st.store.put now now' code query).map fun (result, store) =>
        (.inserted result, { st with store, instant := now' })
    else none
  | .putPermanent code query fault =>
    let (result, store, file) := st.store.putPermanent toml fault code query st.file
    some (.inserted result, { st with store, file })
  | .putPersistedExpiring code query unix fault =>
    if st.unix ≤ unix then
      let (result, store, file) :=
        st.store.putPersistedExpiring toml fault unix code query st.file
      some (.inserted result, { st with store, file, unix })
    else none
  | .get code now unix =>
    if st.instant ≤ now ∧ st.unix ≤ unix then
      let (query, store) := st.store.get now unix code
      some (.found query, { st with store, instant := now, unix })
    else none

/-- The state after an operation. -/
def step (st : State) (a : Action) : Option State := (st.perform toml a).map (·.2)

/-- A store that was just loaded: the links of the file have distinct codes, and no more of them
expire than allowed. -/
structure Loaded (st : State) : Prop where
  entries : st.store.entries = []
  codes : (st.store.permanent.map (·.code)).Nodup
  limit : (Evict.keyed (·.expiresAtUnix) st.store.permanent).length ≤ st.store.limit

/-! ### What an operation does -/

variable {toml} {st st' : State} {a : Action} {answer : Answer}

/-- What a disabled store makes of the clocks. -/
def disabledState (st : State) : Action → State
  | .put _ _ _ now' => { st with instant := now' }
  | .putPersistedExpiring _ _ unix _ => { st with unix }
  | _ => st

/-- **What an operation does**, one case for each and one for insertions into a disabled store. -/
inductive Performed (toml : Toml) (st : State) : Action → Answer → State → Prop where
  | disabled {a : Action} {code : String} (inserts : a.inserts = some code)
      (disabled : st.store.disabled = true) (instant : st.instant ≤ (st.disabledState a).instant)
      (unix : st.unix ≤ (st.disabledState a).unix) :
      Performed toml st a (.inserted (.error .disabled)) (st.disabledState a)
  | put {code query : String} {now now' : Nat} (enabled : st.store.disabled = false)
      (instant : st.instant ≤ now) (later : now ≤ now') :
      Performed toml st (.put code query now now') (.inserted (.ok ()))
        { st with
          store := { st.store with
            entries := ⟨code, query, now' + nanos st.store.ttl⟩ ::
              Evict.popBack st.store.limit
                ((st.store.entries.filter (now < ·.expiresAt)).eraseP (·.code == code)) }
          instant := now' }
  | putPermanent {code query : String} {fault : Option Fault} {result : Except StoreError Unit}
      {file : Option (List UInt8)} (enabled : st.store.disabled = false)
      (persists : ShortStore.persist toml { st.store with
        permanent := insertPermanent code query st.store.permanent } fault st.file =
          (result, file)) :
      Performed toml st (.putPermanent code query fault) (.inserted result)
        { st with
          store := { st.store with permanent := insertPermanent code query st.store.permanent }
          file }
  | putPersistedExpiring {code query : String} {unix : Nat} {fault : Option Fault}
      {result : Except StoreError Unit} {file : Option (List UInt8)}
      (enabled : st.store.disabled = false) (later : st.unix ≤ unix)
      (persists : ShortStore.persist toml { st.store with
        permanent := insertExpiring st.store.limit st.store.ttl unix code query
          st.store.permanent } fault st.file = (result, file)) :
      Performed toml st (.putPersistedExpiring code query unix fault) (.inserted result)
        { st with
          store := { st.store with
            permanent := insertExpiring st.store.limit st.store.ttl unix code query
              st.store.permanent }
          file
          unix }
  | get {code : String} {now unix : Nat} (instant : st.instant ≤ now) (later : st.unix ≤ unix) :
      Performed toml st (.get code now unix) (.found (st.store.get now unix code).1)
        { st with store := st.store.prune now, instant := now, unix }

theorem performed_of_perform (h : st.perform toml a = some (answer, st')) :
    Performed toml st a answer st' := by
  cases a with
  | put code query now now' =>
      simp only [perform] at h
      split_ifs at h with hclock
      obtain ⟨⟨result, store⟩, hput, heq⟩ := Option.map_eq_some_iff.mp h
      cases heq
      rw [ShortStore.put] at hput
      split_ifs at hput with hdisabled
      · cases hput
        exact .disabled rfl hdisabled (hclock.1.trans hclock.2) le_rfl
      · obtain ⟨expiresAt, hadd, heq⟩ := Option.map_eq_some_iff.mp hput
        cases heq
        rw [addSeconds] at hadd
        split_ifs at hadd
        cases hadd
        exact .put (by simpa using hdisabled) hclock.1 hclock.2
  | putPermanent code query fault =>
      simp only [perform, ShortStore.putPermanent] at h
      split_ifs at h with hdisabled
      · cases h
        exact .disabled rfl hdisabled le_rfl le_rfl
      · cases h
        exact .putPermanent (by simpa using hdisabled) rfl
  | putPersistedExpiring code query unix fault =>
      simp only [perform, ShortStore.putPersistedExpiring] at h
      split_ifs at h with hclock hdisabled
      · cases h
        exact .disabled rfl hdisabled le_rfl hclock
      · cases h
        exact .putPersistedExpiring (by simpa using hdisabled) hclock rfl
  | get code now unix =>
      simp only [perform, ShortStore.get] at h
      split_ifs at h with hclock
      cases h
      exact .get hclock.1 hclock.2

theorem performed_of_step (h : st.step toml a = some st') :
    ∃ answer, Performed toml st a answer st' := by
  obtain ⟨⟨answer, st''⟩, hperform, rfl⟩ := Option.map_eq_some_iff.mp h
  exact ⟨answer, performed_of_perform hperform⟩

end State

end SingBoxMini.Sublink
