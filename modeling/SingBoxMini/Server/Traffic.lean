import SingBoxMini.Support.HashMap
import SingBoxMini.Support.Runs
import SingBoxMini.Support.Tasks

/-!
# Server — Traffic

`TrafficRegistry`, the counters of the users and the guards of their connections (`server.rs`), with
any number of tasks at work on them.

* `sync_users` has the registry to itself, so it is one step; `user` first looks under the read
  lock, and if the name is missing looks again, and inserts, under the write lock.
* A counter object (`Arc<UserTraffic>`) is its index in the heap; a handle is what `user` has
  returned, a guard is an `ActiveConnection`.  Counters are `u64` and wrap around.

The heap also has the name each object was made for, and a guard the bytes recorded through it;
the code has neither, and no step looks at them.

* `Sound`: the count of an object is that of its live guards, and it has all they recorded; the
  live guards of a name are those of the object the registry has for it.
* `accounts_complete`: so what `snapshots` reports is complete, in every run that makes a new object
  for a name, or takes a guard of an old one, only where this leaves no guard behind.
-/

namespace SingBoxMini.Server.Traffic

/-! ### Counters -/

/-- `UserTraffic`; its fields are `AtomicU64`s. -/
structure UserTraffic where
  uploadedBytes : UInt64
  downloadedBytes : UInt64
  activeConnections : UInt64
deriving DecidableEq

/-- `UserTraffic::default` -/
def UserTraffic.default : UserTraffic := ⟨0, 0, 0⟩

/-- What is counted. -/
inductive Direction where
  | upload
  | download
deriving DecidableEq

/-- The counter of a direction. -/
def UserTraffic.total (traffic : UserTraffic) : Direction → UInt64
  | .upload => traffic.uploadedBytes
  | .download => traffic.downloadedBytes

/-- `record_upload` -/
def UserTraffic.recordUpload (bytes : UInt64) (traffic : UserTraffic) : UserTraffic :=
  { traffic with uploadedBytes := traffic.uploadedBytes + bytes }

/-- `record_download` -/
def UserTraffic.recordDownload (bytes : UInt64) (traffic : UserTraffic) : UserTraffic :=
  { traffic with downloadedBytes := traffic.downloadedBytes + bytes }

/-- `record_upload` or `record_download` -/
def UserTraffic.record (bytes : UInt64) (traffic : UserTraffic) : Direction → UserTraffic
  | .upload => traffic.recordUpload bytes
  | .download => traffic.recordDownload bytes

theorem UserTraffic.total_record (traffic : UserTraffic) (bytes : UInt64)
    (direction direction' : Direction) : (traffic.record bytes direction).total direction' =
      if direction = direction' then traffic.total direction' + bytes
      else traffic.total direction' := by
  cases direction <;> cases direction' <;> rfl

/-- Where there is room, a total grows by the bytes. -/
theorem UserTraffic.toNat_total_record {traffic : UserTraffic} {bytes : UInt64}
    {direction : Direction}
    (hroom : (traffic.total direction).toNat + bytes.toNat < 2 ^ 64) (direction' : Direction) :
    ((traffic.record bytes direction).total direction').toNat =
      (traffic.total direction').toNat + if direction = direction' then bytes.toNat else 0 := by
  rw [total_record]
  split_ifs with h
  · subst h
    rw [UInt64.toNat_add, Nat.mod_eq_of_lt hroom]
  · rfl

theorem UserTraffic.active_record (traffic : UserTraffic) (bytes : UInt64) (direction : Direction) :
    (traffic.record bytes direction).activeConnections = traffic.activeConnections := by
  cases direction <;> rfl

/-- An `Arc<UserTraffic>`. -/
abbrev TrafficId := Nat

/-- A counter object, with the name it was made for. -/
structure Object where
  username : String
  traffic : UserTraffic
deriving DecidableEq

/-! ### Handles and guards -/

/-- A call of `user`: the name was missing; it has returned; the handle was dropped. -/
inductive HandlePc where
  | missing
  | held (id : TrafficId)
  | dropped
deriving DecidableEq

/-- A call of `user` and what has become of it. -/
structure Handle where
  username : String
  pc : HandlePc
deriving DecidableEq

/-- The object the caller has. -/
def Handle.object? (handle : Handle) : Option TrafficId :=
  match handle.pc with
  | .held id => some id
  | _ => none

/-- An `ActiveConnection`, with the name its handle was obtained for and the bytes recorded through
it. -/
structure Guard where
  username : String
  id : TrafficId
  live : Bool
  uploaded : Nat
  downloaded : Nat
deriving DecidableEq

/-- The bytes recorded in a direction. -/
def Guard.total (g : Guard) : Direction → Nat
  | .upload => g.uploaded
  | .download => g.downloaded

/-- Bytes are recorded through the guard. -/
def Guard.record (g : Guard) (bytes : Nat) : Direction → Guard
  | .upload => { g with uploaded := g.uploaded + bytes }
  | .download => { g with downloaded := g.downloaded + bytes }

theorem Guard.total_record (g : Guard) (bytes : Nat) (direction direction' : Direction) :
    (g.record bytes direction).total direction' =
      g.total direction' + if direction = direction' then bytes else 0 := by
  cases direction <;> cases direction' <;> rfl

/-! ### The registry -/

/-- `TrafficRegistry`, the objects, and who has them. -/
structure State where
  users : HashMap String TrafficId
  heap : List Object
  handles : List Handle
  guards : List Guard

/-- `UserTrafficSnapshot` -/
structure UserTrafficSnapshot where
  username : String
  uploadedBytes : UInt64
  downloadedBytes : UInt64
  activeConnections : UInt64
deriving DecidableEq

/-- Through what bytes are recorded: a handle alone, or that of a guard. -/
inductive Source where
  | handle (h : Nat)
  | guard (g : Nat)
deriving DecidableEq

/-- The calls and the drops. -/
inductive Action where
  | syncUsers (usernames : List String)
  /-- `user`, up to the end of the first lookup. -/
  | user (username : String)
  /-- `user`, under the write lock. -/
  | userInsert (h : Nat)
  | connection (h : Nat)
  | record (direction : Direction) (source : Source) (bytes : UInt64)
  | dropHandle (h : Nat)
  | dropGuard (g : Nat)
deriving DecidableEq

namespace State

/-- `TrafficRegistry::default` -/
def start : State := ⟨∅, [], [], []⟩

/-- The object a name has, or a new one (`entry(username).or_default()`). -/
def entry (s : State) (username : String) : State × TrafficId :=
  match s.users.lookup username with
  | some id => (s, id)
  | none =>
    ({ s with
      users := s.users.insert username s.heap.length
      heap := s.heap ++ [⟨username, .default⟩] }, s.heap.length)

/-- `sync_users`, with the names in the order of the set's iteration. -/
def syncUsers (s : State) (usernames : List String) : State :=
  usernames.foldl (fun s username => (s.entry username).1)
    { s with users := s.users.retain fun username _ => username ∈ usernames }

/-- The counters of one object change. -/
def update (s : State) (id : TrafficId) (f : UserTraffic → UserTraffic) : State :=
  { s with heap := s.heap.modify id fun object => { object with traffic := f object.traffic } }

/-- The snapshot of each user, in the order of the map's iteration. -/
def unsorted (it : HashMap.Iter String TrafficId) (s : State) : List UserTrafficSnapshot :=
  (it.entries s.users).filterMap fun (username, id) =>
    s.heap[id]?.map fun object => ⟨username, object.traffic.uploadedBytes,
      object.traffic.downloadedBytes, object.traffic.activeConnections⟩

/-- `snapshots` -/
def snapshots (it : HashMap.Iter String TrafficId) (s : State) : List UserTrafficSnapshot :=
  (s.unsorted it).mergeSort fun left right => left.username ≤ right.username

/-- The step an action makes, if it is enabled. -/
def step (s : State) : Action → Option State
  | .syncUsers usernames => some (s.syncUsers usernames)
  | .user username =>
    let pc := match s.users.lookup username with
      | some id => .held id
      | none => .missing
    some { s with handles := s.handles ++ [⟨username, pc⟩] }
  | .userInsert h =>
    match s.handles[h]? with
    | some ⟨username, .missing⟩ =>
      let entry := s.entry username
      some { entry.1 with handles := s.handles.set h ⟨username, .held entry.2⟩ }
    | _ => none
  | .connection h =>
    match s.handles[h]? with
    | some ⟨username, .held id⟩ =>
      some { s.update id fun traffic =>
          { traffic with activeConnections := traffic.activeConnections + 1 } with
        guards := s.guards ++ [⟨username, id, true, 0, 0⟩] }
    | _ => none
  | .record direction (.handle h) bytes =>
    match s.handles[h]? with
    | some ⟨_, .held id⟩ => some (s.update id fun traffic => traffic.record bytes direction)
    | _ => none
  | .record direction (.guard g) bytes =>
    match s.guards[g]? with
    | some guard =>
      if guard.live then
        some { s.update guard.id fun traffic => traffic.record bytes direction with
          guards := s.guards.set g (guard.record bytes.toNat direction) }
      else none
    | none => none
  | .dropHandle h =>
    match s.handles[h]? with
    | some ⟨username, .held _⟩ => some { s with handles := s.handles.set h ⟨username, .dropped⟩ }
    | _ => none
  | .dropGuard g =>
    match s.guards[g]? with
    | some guard =>
      if guard.live then
        some { s.update guard.id fun traffic =>
            { traffic with activeConnections := traffic.activeConnections - 1 } with
          guards := s.guards.set g { guard with live := false } }
      else none
    | none => none

/-- The live guards obtained for a name. -/
def liveGuards (s : State) (username : String) : Nat :=
  s.guards.countP fun g => g.live && g.username = username

/-- The bytes recorded through the live guards obtained for a name. -/
def recordedFor (s : State) (username : String) (direction : Direction) : Nat :=
  ((s.guards.filter fun g => g.live && g.username = username).map (·.total direction)).sum

/-- The live guards of an object. -/
def liveOn (guards : List Guard) (id : TrafficId) : Nat :=
  guards.countP fun g => g.live && g.id = id

/-- The bytes recorded through the live guards of an object. -/
def recordedOn (guards : List Guard) (id : TrafficId) (direction : Direction) : Nat :=
  ((guards.filter fun g => g.live && g.id = id).map (·.total direction)).sum

/-- The name an object was made for. -/
def owner (s : State) (id : TrafficId) : Option String := s.heap[id]?.map Object.username

/-! ### The invariant -/

/-- **The invariant.**  Names, objects and guards belong together; the counters have what the live
guards count. -/
structure Sound (s : State) : Prop where
  users : ∀ username id, s.users.lookup username = some id → s.owner id = some username
  handles : ∀ handle ∈ s.handles, ∀ id, handle.object? = some id → s.owner id = some handle.username
  guards : ∀ g ∈ s.guards, s.owner g.id = some g.username
  active : ∀ id object, s.heap[id]? = some object →
    object.traffic.activeConnections.toNat = liveOn s.guards id
  recorded : ∀ id object, s.heap[id]? = some object → ∀ direction,
    recordedOn s.guards id direction ≤ (object.traffic.total direction).toNat
  current : ∀ g ∈ s.guards, g.live = true → ∀ id, s.users.lookup g.username = some id → g.id = id

variable {s s' : State}

theorem sound_start : start.Sound := by
  constructor <;> simp [start]

variable {id : TrafficId} {username : String} {g : Guard}

theorem lt_of_owner (h : s.owner id = some username) :
    id < s.heap.length := by
  obtain ⟨object, hobject, -⟩ := Option.map_eq_some_iff.mp h
  exact Tasks.lt_length hobject

/-- Objects of the heap, when a new one is made. -/
theorem heap_append {heap : List Object} {object : Object} (h : id < heap.length) :
    (heap ++ [object])[id]? = heap[id]? :=
  List.getElem?_append_left h

/-- **A new object for a name without live guards.** -/
theorem Sound.entry (hs : s.Sound)
    (hnone : s.users.lookup username = none → s.liveGuards username = 0) :
    (s.entry username).1.Sound := by
  unfold State.entry
  cases hlookup : s.users.lookup username with
  | some id => exact hs
  | none =>
      have howner : ∀ id name, s.owner id = some name →
          (s.heap ++ [Object.mk username .default])[id]?.map Object.username = some name := by
        intro id name h
        rw [heap_append (lt_of_owner h)]
        exact h
      -- no guard has the new object yet
      have hfresh : ∀ g ∈ s.guards, ¬ (g.live && g.id = s.heap.length) = true := by
        intro g hmem hg
        have hlt := lt_of_owner (hs.guards g hmem)
        rw [Bool.and_eq_true, decide_eq_true_eq] at hg
        exact absurd hg.2 (Nat.ne_of_lt hlt)
      refine ⟨?_, ?_, ?_, ?_, ?_, ?_⟩
      · intro name id h
        by_cases hname : name = username
        · subst hname
          rw [AList.lookup_insert] at h
          cases h
          simp [owner]
        · rw [AList.lookup_insert_ne hname] at h
          exact howner id name (hs.users name id h)
      · exact fun handle hmem id h => howner id _ (hs.handles handle hmem id h)
      · exact fun g hmem => howner g.id _ (hs.guards g hmem)
      · intro id object h
        rw [Tasks.getElem?_spawn] at h
        split_ifs at h with hlast
        · cases h
          exact (List.countP_eq_zero.mpr (hlast ▸ hfresh)).symm
        · exact hs.active id object h
      · intro id object h direction
        rw [Tasks.getElem?_spawn] at h
        split_ifs at h with hlast
        · rw [recordedOn, hlast, List.filter_eq_nil_iff.mpr hfresh]
          exact Nat.zero_le _
        · exact hs.recorded id object h direction
      · intro g hmem hlive id h
        by_cases hname : g.username = username
        · have hzero := List.countP_eq_zero.mp (hnone hlookup) g hmem
          simp [hlive, hname] at hzero
        · rw [AList.lookup_insert_ne hname] at h
          exact hs.current g hmem hlive id h

theorem guards_entry (s : State) (username : String) :
    (s.entry username).1.guards = s.guards := by
  unfold State.entry
  split <;> rfl

/-- A name that had an object keeps it. -/
theorem lookup_entry_of_none {name : String} (h : (s.entry username).1.users.lookup name = none) :
    s.users.lookup name = none := by
  unfold State.entry at h
  split at h
  · exact h
  · by_cases hname : name = username
    · subst hname
      rw [AList.lookup_insert] at h
      cases h
    · rwa [AList.lookup_insert_ne hname] at h

theorem Sound.foldl_entry (usernames : List String) : ∀ {s : State}, s.Sound →
    (∀ username ∈ usernames, s.users.lookup username = none → s.liveGuards username = 0) →
    (usernames.foldl (fun s username => (s.entry username).1) s).Sound := by
  induction usernames with
  | nil => exact fun hs _ => hs
  | cons username usernames ih =>
      intro s hs hnone
      refine ih (hs.entry (hnone username List.mem_cons_self)) fun name hmem hlookup => ?_
      rw [liveGuards, guards_entry]
      exact hnone name (List.mem_cons_of_mem _ hmem) (lookup_entry_of_none hlookup)

theorem Sound.retain (hs : s.Sound) (p : String → TrafficId → Bool) :
    Sound { s with users := s.users.retain p } := by
  refine ⟨?_, hs.handles, hs.guards, hs.active, hs.recorded, ?_⟩
  · intro username id h
    rw [HashMap.lookup_retain, Option.filter_eq_some_iff] at h
    exact hs.users username id h.1
  · intro g hmem hlive id h
    rw [HashMap.lookup_retain, Option.filter_eq_some_iff] at h
    exact hs.current g hmem hlive id h.1

/-- **A reload** that brings back no name with live guards. -/
theorem Sound.syncUsers (hs : s.Sound) {usernames : List String}
    (hnone : ∀ username ∈ usernames, s.users.lookup username = none →
      s.liveGuards username = 0) : (s.syncUsers usernames).Sound := by
  refine Sound.foldl_entry usernames (hs.retain _) fun username hmem h => ?_
  refine hnone username hmem ?_
  rw [HashMap.lookup_retain] at h
  cases hlookup : s.users.lookup username with
  | none => rfl
  | some id => simp [hlookup, hmem] at h

theorem owner_update (s : State) (id : TrafficId) (f : UserTraffic → UserTraffic) :
    (s.update id f).owner = s.owner := by
  funext id'
  rw [owner, update, Tasks.getElem?_modified]
  split_ifs
  · rw [Option.map_map]
    rfl
  · rfl

/-- **The counters of an object and the guards change together.** -/
theorem Sound.updated (hs : s.Sound) {f : UserTraffic → UserTraffic} {guards : List Guard}
    (hguards : ∀ g ∈ guards, s.owner g.id = some g.username)
    (hactive : ∀ object, s.heap[id]? = some object →
      (f object.traffic).activeConnections.toNat = liveOn guards id)
    (hrecorded : ∀ object, s.heap[id]? = some object → ∀ direction,
      recordedOn guards id direction ≤ ((f object.traffic).total direction).toNat)
    (hothers : ∀ id', id ≠ id' → liveOn guards id' = liveOn s.guards id' ∧
      ∀ direction, recordedOn guards id' direction = recordedOn s.guards id' direction)
    (hcurrent : ∀ g ∈ guards, g.live = true → ∀ id', s.users.lookup g.username = some id' →
      g.id = id') : Sound { s.update id f with guards } := by
  have howner : State.owner { s.update id f with guards } = s.owner := owner_update s id f
  refine ⟨?_, ?_, ?_, ?_, ?_, hcurrent⟩
  · rw [howner]
    exact hs.users
  · rw [howner]
    exact hs.handles
  · rw [howner]
    exact hguards
  · intro id' object h
    rw [update, Tasks.getElem?_modified] at h
    split_ifs at h with hid
    · obtain ⟨object', hobject, rfl⟩ := Option.map_eq_some_iff.mp h
      subst hid
      exact hactive object' hobject
    · rw [(hothers id' hid).1]
      exact hs.active id' object h
  · intro id' object h direction
    rw [update, Tasks.getElem?_modified] at h
    split_ifs at h with hid
    · obtain ⟨object', hobject, rfl⟩ := Option.map_eq_some_iff.mp h
      subst hid
      exact hrecorded object' hobject direction
    · rw [(hothers id' hid).2]
      exact hs.recorded id' object h direction

/-! ### The condition -/

/-- The object bytes are recorded on. -/
def sourceId (s : State) : Source → Option TrafficId
  | .handle h => s.handles[h]?.bind Handle.object?
  | .guard g => s.guards[g]?.map Guard.id

/-- **The condition on the steps.**  A new object is made for a name only if no guard of the name is
live, a guard is taken only of the object the registry has for its name, if any, and no counter
wraps around. -/
def Orderly (s : State) : Action → Prop
  | .syncUsers usernames => ∀ username ∈ usernames, s.users.lookup username = none →
      s.liveGuards username = 0
  | .userInsert h => ∀ handle ∈ s.handles[h]?, s.users.lookup handle.username = none →
      s.liveGuards handle.username = 0
  | .connection h => ∀ handle ∈ s.handles[h]?, ∀ id ∈ handle.object?,
      (∀ id' ∈ s.users.lookup handle.username, id = id') ∧ liveOn s.guards id + 1 < 2 ^ 64
  | .record direction source bytes => ∀ id ∈ s.sourceId source, ∀ object ∈ s.heap[id]?,
      (object.traffic.total direction).toNat + bytes.toNat < 2 ^ 64
  | .user _ | .dropHandle _ | .dropGuard _ => True

instance (s : State) : (action : Action) → Decidable (s.Orderly action)
  | .syncUsers _ => inferInstanceAs (Decidable (∀ username ∈ _, _ → _))
  | .userInsert _ => inferInstanceAs (Decidable (∀ handle ∈ _, _ → _))
  | .connection _ => inferInstanceAs (Decidable (∀ handle ∈ _, ∀ id ∈ _, _ ∧ _))
  | .record _ _ _ => inferInstanceAs (Decidable (∀ id ∈ _, ∀ object ∈ _, _))
  | .user _ | .dropHandle _ | .dropGuard _ => .isTrue trivial

/-! ### The steps -/

/-- A connection begins. -/
theorem Sound.connection (hs : s.Sound) {handle : Handle} (hmem : handle ∈ s.handles)
    (hid : handle.object? = some id) (hcurrent : ∀ id' ∈ s.users.lookup handle.username, id = id')
    (hroom : liveOn s.guards id + 1 < 2 ^ 64) :
    Sound { s.update id fun traffic =>
        { traffic with activeConnections := traffic.activeConnections + 1 } with
      guards := s.guards ++ [⟨handle.username, id, true, 0, 0⟩] } := by
  have hlive : ∀ id', liveOn (s.guards ++ [⟨handle.username, id, true, 0, 0⟩]) id' =
      liveOn s.guards id' + if id = id' then 1 else 0 := by
    intro id'
    simp [liveOn, List.countP_append, List.countP_singleton]
  have hrecorded : ∀ id' direction,
      recordedOn (s.guards ++ [⟨handle.username, id, true, 0, 0⟩]) id' direction =
        recordedOn s.guards id' direction := by
    intro id' direction
    rw [recordedOn, List.filter_append, List.map_append, List.sum_append, recordedOn]
    by_cases hid' : id = id' <;> cases direction <;> simp [hid', Guard.total]
  refine hs.updated ?_ ?_ ?_ ?_ ?_
  · intro g hg
    rcases List.mem_append.mp hg with hg | hg
    · exact hs.guards g hg
    · cases List.mem_singleton.mp hg
      exact hs.handles handle hmem id hid
  · intro object hobject
    have hcount := hs.active id object hobject
    rw [hlive, if_pos rfl, UInt64.toNat_add, hcount]
    exact Nat.mod_eq_of_lt hroom
  · intro object hobject direction
    rw [hrecorded]
    cases direction <;> exact hs.recorded id object hobject _
  · intro id' hne
    exact ⟨by rw [hlive, if_neg hne, Nat.add_zero], hrecorded id'⟩
  · intro g hg hglive id' hlookup
    rcases List.mem_append.mp hg with hg | hg
    · exact hs.current g hg hglive id' hlookup
    · cases List.mem_singleton.mp hg
      exact hcurrent id' hlookup

/-- Bytes recorded through a handle. -/
theorem Sound.record (hs : s.Sound) {direction : Direction} {bytes : UInt64}
    (hroom : ∀ object ∈ s.heap[id]?,
      (object.traffic.total direction).toNat + bytes.toNat < 2 ^ 64) :
    (s.update id fun traffic => traffic.record bytes direction).Sound := by
  change Sound { s.update id (fun traffic => traffic.record bytes direction) with
    guards := s.guards }
  refine hs.updated hs.guards ?_ ?_ (fun _ _ => ⟨rfl, fun _ => rfl⟩) hs.current
  · intro object hobject
    rw [UserTraffic.active_record]
    exact hs.active id object hobject
  · intro object hobject direction'
    rw [UserTraffic.toNat_total_record (hroom object hobject)]
    exact Nat.le_add_right_of_le (hs.recorded id object hobject direction')

/-- Bytes recorded through a guard. -/
theorem Sound.recordGuard (hs : s.Sound) {k : Nat} {direction : Direction} {bytes : UInt64}
    (hk : s.guards[k]? = some g) (hlive : g.live = true) (hroom : ∀ object ∈ s.heap[g.id]?,
      (object.traffic.total direction).toNat + bytes.toNat < 2 ^ 64) :
    Sound { s.update g.id fun traffic => traffic.record bytes direction with
      guards := s.guards.set k (g.record bytes.toNat direction) } := by
  have hfields : (g.record bytes.toNat direction).live = true ∧
      (g.record bytes.toNat direction).id = g.id ∧
      (g.record bytes.toNat direction).username = g.username := by
    cases direction <;> exact ⟨hlive, rfl, rfl⟩
  have hcount : ∀ id, liveOn (s.guards.set k (g.record bytes.toNat direction)) id =
      liveOn s.guards id := by
    intro id
    have hreplace := Tasks.countP_replace hk (fun g => g.live && g.id = id)
      (g.record bytes.toNat direction)
    simpa [liveOn, hfields, hlive] using hreplace
  have hsum : ∀ id direction',
      recordedOn (s.guards.set k (g.record bytes.toNat direction)) id direction' =
        recordedOn s.guards id direction' +
          if g.id = id ∧ direction = direction' then bytes.toNat else 0 := by
    intro id direction'
    have hreplace := Tasks.sum_replace hk (fun g => g.live && g.id = id) (·.total direction')
      (g.record bytes.toNat direction)
    simp only [hfields, hlive, Bool.true_and, decide_eq_true_eq, Guard.total_record] at hreplace
    by_cases hid : g.id = id
    · rw [if_pos hid, if_pos hid] at hreplace
      simp only [recordedOn, hid, true_and]
      omega
    · rw [if_neg hid, if_neg hid] at hreplace
      rw [if_neg (fun h => hid h.1)]
      exact hreplace
  refine hs.updated ?_ ?_ ?_ ?_ ?_
  · intro g' hg'
    rcases List.mem_or_eq_of_mem_set hg' with hg' | rfl
    · exact hs.guards g' hg'
    · rw [hfields.2.1, hfields.2.2]
      exact hs.guards g (List.mem_of_getElem? hk)
  · intro object hobject
    rw [UserTraffic.active_record, hcount]
    exact hs.active g.id object hobject
  · intro object hobject direction'
    have hle := hs.recorded g.id object hobject direction'
    rw [UserTraffic.toNat_total_record (hroom object hobject), hsum]
    simp only [true_and]
    exact Nat.add_le_add_right hle _
  · intro id hne
    exact ⟨hcount id, fun direction' => by rw [hsum, if_neg (fun h => hne h.1), Nat.add_zero]⟩
  · intro g' hg' hlive' id hlookup
    rcases List.mem_or_eq_of_mem_set hg' with hg' | rfl
    · exact hs.current g' hg' hlive' id hlookup
    · rw [hfields.2.2] at hlookup
      rw [hfields.2.1]
      exact hs.current g (List.mem_of_getElem? hk) hlive id hlookup

/-- A live guard is counted. -/
theorem Sound.active_pos (hs : s.Sound) (hg : g ∈ s.guards) (hlive : g.live = true)
    {object : Object} (hobject : s.heap[g.id]? = some object) :
    0 < object.traffic.activeConnections.toNat := by
  rw [hs.active g.id object hobject]
  exact List.countP_pos_iff.mpr ⟨g, hg, by simp [hlive]⟩

/-- A connection ends. -/
theorem Sound.dropGuard (hs : s.Sound) {k : Nat} (hk : s.guards[k]? = some g)
    (hlive : g.live = true) :
    Sound { s.update g.id fun traffic =>
        { traffic with activeConnections := traffic.activeConnections - 1 } with
      guards := s.guards.set k { g with live := false } } := by
  have hmem := List.mem_of_getElem? hk
  have hcount : ∀ id, liveOn (s.guards.set k { g with live := false }) id +
      (if g.id = id then 1 else 0) = liveOn s.guards id := by
    intro id
    have hreplace := Tasks.countP_replace hk (fun g => g.live && g.id = id) { g with live := false }
    simpa [liveOn, hlive] using hreplace
  have hsum : ∀ id direction, recordedOn (s.guards.set k { g with live := false }) id direction +
      (if g.id = id then g.total direction else 0) = recordedOn s.guards id direction := by
    intro id direction
    have hreplace := Tasks.sum_replace hk (fun g => g.live && g.id = id) (·.total direction)
      { g with live := false }
    simpa [recordedOn, hlive] using hreplace
  refine hs.updated ?_ ?_ ?_ ?_ ?_
  · intro g' hg'
    rcases List.mem_or_eq_of_mem_set hg' with hg' | rfl
    · exact hs.guards g' hg'
    · exact hs.guards g hmem
  · intro object hobject
    have hpos := hs.active_pos hmem hlive hobject
    have hone : (1 : UInt64) ≤ object.traffic.activeConnections := UInt64.le_iff_toNat_le.mpr hpos
    have hactive := hs.active g.id object hobject
    have hcount' := hcount g.id
    rw [if_pos rfl] at hcount'
    rw [UInt64.toNat_sub_of_le _ _ hone, hactive, ← hcount']
    rfl
  · intro object hobject direction
    have hle := hs.recorded g.id object hobject direction
    have hsum' := hsum g.id direction
    have hsame : (UserTraffic.total { object.traffic with
        activeConnections := object.traffic.activeConnections - 1 } direction) =
          object.traffic.total direction := by
      cases direction <;> rfl
    rw [hsame]
    exact Nat.le_trans (Nat.le.intro hsum') hle
  · intro id hne
    refine ⟨?_, fun direction => ?_⟩
    · rw [← hcount id, if_neg hne, Nat.add_zero]
    · rw [← hsum id direction, if_neg hne, Nat.add_zero]
  · intro g' hg' hlive' id hlookup
    rcases List.mem_or_eq_of_mem_set hg' with hg' | rfl
    · exact hs.current g' hg' hlive' id hlookup
    · cases hlive'

theorem Sound.withHandles (hs : s.Sound) {handles : List Handle}
    (hhandles : ∀ handle ∈ handles, handle ∈ s.handles ∨
      ∀ id, handle.object? = some id → s.owner id = some handle.username) :
    Sound { s with handles } := by
  refine ⟨hs.users, fun handle hmem id hid => ?_, hs.guards, hs.active, hs.recorded, hs.current⟩
  rcases hhandles handle hmem with hold | hnew
  · exact hs.handles handle hold id hid
  · exact hnew id hid

theorem lookup_entry (s : State) (username : String) :
    (s.entry username).1.users.lookup username = some (s.entry username).2 := by
  unfold State.entry
  cases h : s.users.lookup username with
  | some id => exact h
  | none => exact AList.lookup_insert _

theorem handles_entry (s : State) (username : String) :
    (s.entry username).1.handles = s.handles := by
  unfold State.entry
  split <;> rfl

/-- **Every step keeps the invariant.** -/
theorem Sound.step (hs : s.Sound) {action : Action} (horderly : s.Orderly action)
    (hstep : State.step s action = some s') : s'.Sound := by
  cases action with
  | syncUsers usernames =>
      cases hstep
      exact hs.syncUsers horderly
  | user username =>
      cases hstep
      refine hs.withHandles fun handle hmem => ?_
      rcases List.mem_append.mp hmem with hmem | hmem
      · exact .inl hmem
      · cases List.mem_singleton.mp hmem
        refine .inr fun id hid => ?_
        cases hlookup : s.users.lookup username with
        | none => simp [Handle.object?, hlookup] at hid
        | some id' =>
            simp only [Handle.object?, hlookup, Option.some.injEq] at hid
            exact hid ▸ hs.users username id' hlookup
  | userInsert h =>
      simp only [State.step] at hstep
      split at hstep
      · rename_i username hh
        cases hstep
        have hentry := hs.entry (horderly _ hh)
        refine hentry.withHandles fun handle hmem => ?_
        rcases List.mem_or_eq_of_mem_set hmem with hmem | rfl
        · exact .inl (by rwa [handles_entry])
        · refine .inr fun id hid => ?_
          cases hid
          exact hentry.users username _ (lookup_entry s username)
      · cases hstep
  | connection h =>
      simp only [State.step] at hstep
      split at hstep
      · rename_i username id hh
        cases hstep
        obtain ⟨hcurrent, hroom⟩ := horderly _ hh id rfl
        exact hs.connection (List.mem_of_getElem? hh) rfl hcurrent hroom
      · cases hstep
  | record direction source bytes =>
      cases source with
      | handle h =>
          simp only [State.step] at hstep
          split at hstep
          · rename_i username id hh
            cases hstep
            exact hs.record (horderly id (by simp [sourceId, hh, Handle.object?]))
          · cases hstep
      | guard k =>
          simp only [State.step] at hstep
          split at hstep
          · rename_i g hk
            obtain ⟨hlive, hstep⟩ := Option.ite_none_right_eq_some.mp hstep
            cases hstep
            exact hs.recordGuard hk hlive (horderly g.id (by simp [sourceId, hk]))
          · cases hstep
  | dropHandle h =>
      simp only [State.step] at hstep
      split at hstep
      · cases hstep
        refine hs.withHandles fun handle hmem => ?_
        rcases List.mem_or_eq_of_mem_set hmem with hmem | rfl
        · exact .inl hmem
        · exact .inr fun id hid => by cases hid
      · cases hstep
  | dropGuard k =>
      simp only [State.step] at hstep
      split at hstep
      · rename_i g hk
        obtain ⟨hlive, hstep⟩ := Option.ite_none_right_eq_some.mp hstep
        cases hstep
        exact hs.dropGuard hk hlive
      · cases hstep

/-! ### The accounts -/

/-- The live guards of a name are those of the object the registry has for it. -/
theorem Sound.guard_iff (hs : s.Sound) (hlookup : s.users.lookup username = some id)
    (hg : g ∈ s.guards) :
    (g.live && g.id = id) = (g.live && g.username = username) := by
  cases hlive : g.live with
  | false => rfl
  | true =>
      have hiff : g.id = id ↔ g.username = username := by
        constructor
        · intro hid
          have howner := hs.guards g hg
          rw [hid, hs.users username id hlookup] at howner
          exact (Option.some.inj howner).symm
        · intro hname
          exact hs.current g hg hlive id (hname ▸ hlookup)
      simp [hiff]

/-- The snapshots are those of the names in the table. -/
theorem mem_snapshots {it : HashMap.Iter String TrafficId} {snapshot : UserTrafficSnapshot} :
    snapshot ∈ s.snapshots it ↔ ∃ id object,
      s.users.lookup snapshot.username = some id ∧ s.heap[id]? = some object ∧
        snapshot = ⟨snapshot.username, object.traffic.uploadedBytes,
          object.traffic.downloadedBytes, object.traffic.activeConnections⟩ := by
  rw [snapshots, List.mem_mergeSort, unsorted, List.mem_filterMap]
  constructor
  · rintro ⟨⟨username, id⟩, hentry, hsnapshot⟩
    obtain ⟨object, hobject, rfl⟩ := Option.map_eq_some_iff.mp hsnapshot
    exact ⟨id, object, HashMap.Iter.mem_entries.mp hentry, hobject, rfl⟩
  · rintro ⟨id, object, hlookup, hobject, hsnapshot⟩
    refine ⟨(snapshot.username, id), HashMap.Iter.mem_entries.mpr hlookup, ?_⟩
    rw [hsnapshot]
    exact Option.map_eq_some_iff.mpr ⟨object, hobject, rfl⟩

/-- **No traffic is lost from the accounts.**  In every run all of whose steps meet the condition,
`snapshots` has an entry for every name of the registry, and its entries have the number of live
guards of the name and at least the bytes recorded through them; and the counter of a live guard is
not zero, so it can be lowered. -/
theorem accounts_complete {s : State} (h : Runs.Reaches step Orderly start s)
    (it : HashMap.Iter String TrafficId) :
    (∀ username, s.users.lookup username ≠ none →
      ∃ snapshot ∈ s.snapshots it, snapshot.username = username) ∧
    (∀ snapshot ∈ s.snapshots it,
      snapshot.activeConnections.toNat = s.liveGuards snapshot.username ∧
      s.recordedFor snapshot.username .upload ≤ snapshot.uploadedBytes.toNat ∧
      s.recordedFor snapshot.username .download ≤ snapshot.downloadedBytes.toNat) ∧
    ∀ g ∈ s.guards, g.live = true → ∃ object, s.heap[g.id]? = some object ∧
      0 < object.traffic.activeConnections.toNat := by
  have hs : s.Sound := h.invariant sound_start fun _ _ _ hu horderly hstep => hu.step horderly hstep
  refine ⟨fun username hlookup => ?_, fun snapshot hmem => ?_, fun g hg hlive => ?_⟩
  · obtain ⟨id, hid⟩ := Option.ne_none_iff_exists'.mp hlookup
    obtain ⟨object, hobject, -⟩ := Option.map_eq_some_iff.mp (hs.users username id hid)
    exact ⟨⟨username, object.traffic.uploadedBytes, object.traffic.downloadedBytes,
      object.traffic.activeConnections⟩, mem_snapshots.mpr ⟨id, object, hid, hobject, rfl⟩, rfl⟩
  · obtain ⟨id, object, hlookup, hobject, hsnapshot⟩ := mem_snapshots.mp hmem
    have hcount : liveOn s.guards id = s.liveGuards snapshot.username :=
      List.countP_congr fun g hg => by rw [hs.guard_iff hlookup hg]
    have hsum : ∀ direction, recordedOn s.guards id direction =
        s.recordedFor snapshot.username direction := by
      intro direction
      rw [recordedOn, List.filter_congr fun g hg => hs.guard_iff hlookup hg, recordedFor]
    rw [hsnapshot, ← hcount, ← hsum, ← hsum]
    exact ⟨hs.active id object hobject, hs.recorded id object hobject .upload,
      hs.recorded id object hobject .download⟩
  · obtain ⟨object, hobject, -⟩ := Option.map_eq_some_iff.mp (hs.guards g hg)
    exact ⟨object, hobject, hs.active_pos hg hlive hobject⟩

/-! ### Two reloads -/

theorem snapshots_singleton {it : HashMap.Iter String TrafficId} {snapshot : UserTrafficSnapshot}
    (h : s.unsorted it = [snapshot]) : s.snapshots it = [snapshot] := by
  rw [snapshots, h, List.mergeSort_singleton]

/-- A connection that records bytes. -/
def connected : List Action :=
  [.syncUsers ["alice"], .user "alice", .connection 0, .record .upload (.guard 0) 1000]

/-- The user stays in the table; then the connection ends, and the user leaves and comes back. -/
theorem accounts_complete_after_reload : ∃ s, Runs.run step start
    (connected ++ [.syncUsers ["bob", "alice"], .dropGuard 0, .syncUsers ["bob"],
      .syncUsers ["alice"], .user "alice", .connection 1]) = some s ∧
    s.snapshots (.inOrder _ _) = [⟨"alice", 0, 0, 1⟩] ∧
    ∀ snapshot ∈ s.snapshots (.inOrder _ _),
      snapshot.activeConnections.toNat = s.liveGuards snapshot.username := by
  have h : Runs.Reaches step Orderly start _ := Runs.reaches_of_run
    (connected ++ [.syncUsers ["bob", "alice"], .dropGuard 0, .syncUsers ["bob"],
      .syncUsers ["alice"], .user "alice", .connection 1]) .refl rfl
  exact ⟨_, rfl, snapshots_singleton rfl,
    fun snapshot hmem => ((accounts_complete h _).2.1 snapshot hmem).1⟩

/-- **A user leaves and comes back while a connection lives.**  The account knows neither the
connection nor its bytes. -/
theorem live_guard_not_counted : ∃ s, Runs.run step start
    (connected ++ [.syncUsers ["bob"], .syncUsers ["alice"]]) = some s ∧
    s.snapshots (.inOrder _ _) = [⟨"alice", 0, 0, 0⟩] ∧ s.liveGuards "alice" = 1 ∧
    s.recordedFor "alice" .upload = 1000 :=
  ⟨_, rfl, snapshots_singleton rfl, rfl, rfl⟩

end State

end SingBoxMini.Server.Traffic
