import SingBoxMini.Sublink.StoreRuns

/-!
# Sublink — Persistence

Whether an insertion of a persisted link is all or nothing: if it fails nothing has changed, neither
what lookups answer nor what a restart finds in the file; if it succeeds a restart answers the
persisted codes as the running store does.

`all_or_nothing_iff` says when, by the call, the fault and the store before:

* an insertion that fails at `persist` has changed the links in memory by then, so nothing has
  changed only if the link was there already;
* opening the file truncates it, so after a write that fails it has what was written by then;
* after a restart the links in memory are gone, so a persisted link that expires must not have one
  of its code behind it.
-/

namespace SingBoxMini.Sublink
open Bytes

/-- The persisted links an insertion is to write. -/
def Action.links (st : State) : Action → List PersistentShortLink
  | .putPermanent code query _ => insertPermanent code query st.store.permanent
  | .putPersistedExpiring code query unix _ =>
    insertExpiring st.store.limit st.store.ttl unix code query st.store.permanent
  | _ => st.store.permanent

/-- The time an insertion is at. -/
def Action.time (st : State) : Action → Nat
  | .putPersistedExpiring _ _ unix _ => unix
  | _ => st.unix

/-- What fails in an operation. -/
def Action.fault : Action → Option Fault
  | .putPermanent _ _ fault | .putPersistedExpiring _ _ _ fault => fault
  | _ => none

namespace State

variable {toml : Toml} {env : String → Option String} {st st' : State} {a : Action}
  {result : Except StoreError Unit} {link : PersistentShortLink}
  {links links' : List PersistentShortLink} {unix : Nat}

variable (toml env) in
/-- **All or nothing.** -/
def AllOrNothing (st : State) (result : Except StoreError Unit) (st' : State) : Prop :=
  match result with
  | .error _ =>
    (∀ code now unix, st'.instant ≤ now → st'.unix ≤ unix →
      (st'.store.get now unix code).1 = (st.store.get now unix code).1) ∧
    loadLinks toml st'.file = loadLinks toml st.file
  | .ok () =>
    ∃ rebuilt, ShortStore.fromEnv toml env st'.store.persistencePath st'.file = some rebuilt ∧
      ∀ link ∈ st'.store.permanent, ∀ now unix, st'.instant ≤ now → st'.unix ≤ unix →
        (rebuilt.get now unix link.code).1 = (st'.store.get now unix link.code).1

/-- No link in memory that has not expired is behind a persisted link that expires: the one that is
inserted, or another one that is kept. -/
def NoneBehind (st : State) (a : Action) (link : PersistentShortLink) : Prop :=
  ∀ e ∈ st.store.entries, st.instant < e.expiresAt →
    ∀ l, l = link ∨ l ∈ st.kept a ∧ l.code ≠ link.code → l.code = e.code → l.expiresAtUnix = none

variable (toml) in
/-- The file reads as the first bytes of the text of the links. -/
def ReadsAs (st : State) (links : List PersistentShortLink) (count : Nat) : Prop :=
  ∃ contents, toml.toString links = some contents ∧
    loadLinks toml (some ((asBytes contents).take count)) = loadLinks toml st.file

variable (toml) in
/-- **The condition**, by where `persist` fails. -/
def Sound (st : State) (a : Action) (link : PersistentShortLink) : Prop :=
  st.store.disabled = true ∨
    match toml.toString (a.links st), a.fault with
    | some _, none => st.NoneBehind a link
    | none, _ | some _, some .openFile => link ∈ st.store.permanent
    | some _, some (.write written) =>
      link ∈ st.store.permanent ∧ st.ReadsAs toml (st.kept a) written
    | some _, some .sync =>
      link ∈ st.store.permanent ∧ loadLinks toml st.file = some (st.kept a)

/-! ### What persisted links answer -/

/-- A code whose only link has expired. -/
theorem persisted_eq_none (hnodup : (links.map (·.code)).Nodup) (hmem : link ∈ links)
    (hdead : link.live unix = false) : persisted links link.code unix = none := by
  cases hpersisted : persisted links link.code unix with
  | none => rfl
  | some query =>
      obtain ⟨link', hmem', hcode, -, hlive⟩ := mem_of_persisted hpersisted
      cases List.inj_on_of_nodup_map hnodup hmem' hmem hcode
      cases hdead.symm.trans hlive

/-- The answer of a code tells whether its link has expired. -/
theorem persisted_isSome (hnodup : (links.map (·.code)).Nodup) (hmem : link ∈ links) (unix : Nat) :
    (persisted links link.code unix).isSome = link.live unix := by
  cases hlive : link.live unix with
  | true => rw [persisted_of_mem hnodup hmem hlive, Option.isSome_some]
  | false => rw [persisted_eq_none hnodup hmem hlive, Option.isSome_none]

/-- Links that have expired do not answer later. -/
theorem persisted_retain {unix' : Nat} (hle : unix ≤ unix') (code : String) :
    persisted (retain unix links) code unix' = persisted links code unix' := by
  rw [persisted, persisted, retain, List.find?_filter]
  congr 2
  funext link
  rw [Bool.eq_iff_iff, decide_eq_true_eq, Bool.and_eq_true]
  exact ⟨fun h => h.2, fun h => ⟨live_mono hle h.2, h⟩⟩

/-- Links that expire at the same times from some time on. -/
theorem expiresAtUnix_eq_of_live {l : PersistentShortLink} (hl : l.live unix = true)
    (hlink : link.live unix = true) (h : ∀ unix', unix ≤ unix' → l.live unix' = link.live unix') :
    l.expiresAtUnix = link.expiresAtUnix := by
  simp only [PersistentShortLink.live] at hl hlink h
  cases hexpires : l.expiresAtUnix with
  | none =>
      cases hexpires' : link.expiresAtUnix with
      | none => rfl
      | some t =>
          have hlater := h (max unix t) (Nat.le_max_left _ _)
          simp [hexpires, hexpires'] at hlater
  | some s =>
      simp only [hexpires, Option.all_some, decide_eq_true_eq] at hl
      cases hexpires' : link.expiresAtUnix with
      | none =>
          have hlater := h s hl.le
          simp [hexpires, hexpires'] at hlater
      | some t =>
          simp only [hexpires', Option.all_some, decide_eq_true_eq] at hlink
          have hs : t ≤ s := by simpa [hexpires, hexpires'] using h s hl.le
          have ht : s ≤ t := by simpa [hexpires, hexpires'] using h t hlink.le
          rw [Nat.le_antisymm ht hs]

/-- The links answer every code as those of the store, from some time on. -/
def SameAnswers (st : State) (links : List PersistentShortLink) (unix : Nat) : Prop :=
  ∀ code unix', unix ≤ unix' →
    persisted links code unix' = persisted st.store.permanent code unix'

/-- There is an instant at which all links in memory have expired. -/
theorem exists_instant (entries : List ShortEntry) (n : Nat) :
    ∃ now, n ≤ now ∧ ∀ e ∈ entries, e.expiresAt ≤ now := by
  induction entries with
  | nil => exact ⟨n, le_rfl, by simp⟩
  | cons e entries ih =>
      obtain ⟨now, hn, hall⟩ := ih
      refine ⟨max now e.expiresAt, by omega, ?_⟩
      rw [List.forall_mem_cons]
      exact ⟨by omega, fun e' he' => (hall e' he').trans (Nat.le_max_left _ _)⟩

/-- A lookup, by what each container answers. -/
theorem get_eq (s : ShortStore) (code : String) (now unix : Nat) :
    (s.get now unix code).1 = (persisted s.permanent code unix).or
      (remembered (s.entries.filter (now < ·.expiresAt)) code) := rfl

/-- After an insertion lookups answer as before only if the persisted links do. -/
theorem sameAnswers_iff (hentries : st'.store.entries = st.store.entries) (instant unix : Nat) :
    (∀ code now unix', instant ≤ now → unix ≤ unix' →
        (st'.store.get now unix' code).1 = (st.store.get now unix' code).1) ↔
      st.SameAnswers st'.store.permanent unix := by
  constructor
  · intro h code unix' hle
    obtain ⟨now, hnow, hexpired⟩ := exists_instant st.store.entries instant
    have hnone : st.store.entries.filter (now < ·.expiresAt) = [] :=
      List.filter_eq_nil_iff.mpr fun e he => by simpa using hexpired e he
    have hget := h code now unix' hnow hle
    rw [get_eq, get_eq, hentries, hnone] at hget
    simpa [remembered] using hget
  · intro h code now unix' _ hle
    rw [get_eq, get_eq, hentries, h code unix' hle]

/-- The rebuilt store answers the persisted codes as the running one only if no link in memory is
behind a persisted one that expires. -/
theorem rebuilt_iff {rebuilt s : ShortStore} (hnodup : (links.map (·.code)).Nodup)
    (hentries : rebuilt.entries = []) (hpermanent : rebuilt.permanent = links)
    (hlinks : s.permanent = links) (hmemory : s.entries = st.store.entries) (unix : Nat) :
    (∀ link ∈ links, ∀ now unix', st.instant ≤ now → unix ≤ unix' →
        (rebuilt.get now unix' link.code).1 = (s.get now unix' link.code).1) ↔
      ∀ e ∈ st.store.entries, st.instant < e.expiresAt →
        ∀ link ∈ links, link.code = e.code → link.expiresAtUnix = none := by
  have hrebuilt : ∀ code now unix', (rebuilt.get now unix' code).1 =
      persisted links code unix' := by
    intro code now unix'
    rw [get_eq, hentries, hpermanent]
    exact Option.or_none
  constructor
  · intro h e he halive link hlink hcode
    cases hexpires : link.expiresAtUnix with
    | none => rfl
    | some t =>
        -- once the persisted link has expired, only the running store answers
        have hdead : link.live (max unix t) = false := by
          simp [PersistentShortLink.live, hexpires]
        have hget := h link hlink st.instant (max unix t) le_rfl (Nat.le_max_left _ _)
        rw [hrebuilt, get_eq, hlinks, persisted_eq_none hnodup hlink hdead, Option.none_or,
          hmemory] at hget
        have hmem : e ∈ st.store.entries.filter (st.instant < ·.expiresAt) :=
          List.mem_filter.mpr ⟨he, by simpa using halive⟩
        rw [eq_comm, remembered, Option.map_eq_none_iff, List.find?_eq_none] at hget
        exact absurd (by simpa using hcode.symm) (hget e hmem)
  · intro h link hlink now unix' hnow _
    rw [hrebuilt, get_eq, hlinks]
    cases hlive : link.live unix' with
    | true =>
        rw [persisted_of_mem hnodup hlink hlive]
        rfl
    | false =>
        rw [persisted_eq_none hnodup hlink hlive, Option.none_or, eq_comm, remembered,
          Option.map_eq_none_iff, List.find?_eq_none]
        intro e he hcode
        obtain ⟨hmem, halive⟩ := List.mem_filter.mp he
        rw [hmemory] at hmem
        have halive : now < e.expiresAt := by simpa using halive
        have hpermanent := h e hmem (by omega) link hlink (beq_iff_eq.mp hcode).symm
        simp [PersistentShortLink.live, hpermanent] at hlive

/-! ### Insertions -/

/-- What an insertion of a persisted link does. -/
theorem perform_links (hlink : a.link st.store.ttl = some link)
    (hperform : st.perform toml a = some (.inserted result, st'))
    (henabled : st.store.disabled = false) :
    st'.store = { st.store with permanent := a.links st } ∧ st'.instant = st.instant ∧
      st'.unix = a.time st ∧
      ShortStore.persist toml { st.store with permanent := a.links st } a.fault st.file =
        (result, st'.file) := by
  have hp := performed_of_perform hperform
  cases hp with
  | disabled _ hdisabled => cases hdisabled.symm.trans henabled
  | put => cases hlink
  | putPermanent _ hpersists => exact ⟨rfl, rfl, rfl, hpersists⟩
  | putPersistedExpiring _ _ hpersists => exact ⟨rfl, rfl, rfl, hpersists⟩

/-- A disabled store refuses it. -/
theorem perform_disabled (hlink : a.link st.store.ttl = some link)
    (hperform : st.perform toml a = some (.inserted result, st'))
    (hdisabled : st.store.disabled = true) :
    result = .error .disabled ∧ st'.store = st.store ∧ st'.file = st.file := by
  have hp := performed_of_perform hperform
  cases hp with
  | put => cases hlink
  | putPermanent henabled | putPersistedExpiring henabled =>
      cases hdisabled.symm.trans henabled
  | disabled =>
      cases a with
      | put => cases hlink
      | get => cases hlink
      | putPermanent | putPersistedExpiring => exact ⟨rfl, rfl, rfl⟩

/-- A link is inserted before it expires. -/
theorem live_of_link (hlink : a.link st.store.ttl = some link) (hclock : a.time st < 2 ^ 64 - 1) :
    link.live (a.time st) = true := by
  cases a with
  | put => cases hlink
  | get => cases hlink
  | putPermanent =>
      cases hlink
      rfl
  | putPersistedExpiring code query unix fault =>
      cases hlink
      have hpos := st.store.ttl_pos
      simp only [Action.time] at hclock ⊢
      simp only [PersistentShortLink.live, expiresAtUnix, Option.all_some, decide_eq_true_eq]
      omega

/-- The links that are kept with a link that was there already. -/
theorem kept_of_mem (hlink : a.link st.store.ttl = some link)
    (hlive : link.live (a.time st) = true) (hmem : link ∈ st.store.permanent) :
    link ∈ st.kept a ∧ st.SameAnswers (st.kept a) (a.time st) := by
  cases a with
  | put => cases hlink
  | get => cases hlink
  | putPermanent => exact ⟨hmem, fun _ _ _ => rfl⟩
  | putPersistedExpiring code query unix fault =>
      cases hlink
      have hretain := List.mem_filter.mpr ⟨hmem, hlive⟩
      rw [kept, if_pos ⟨_, hretain, rfl⟩]
      exact ⟨hretain, fun code unix' hle => persisted_retain hle code⟩

/-- **Nothing has changed** only if the link was there already. -/
theorem sameAnswers_iff_mem (hcodes : (st.store.permanent.map (·.code)).Nodup)
    (hlink : a.link st.store.ttl = some link) (hlive : link.live (a.time st) = true)
    (hinserts : Inserts link (st.kept a) links) :
    st.SameAnswers links (a.time st) ↔ link ∈ st.store.permanent := by
  have hkept : ((st.kept a).map (·.code)).Nodup := hcodes.sublist ((st.kept_sublist a).map _)
  constructor
  · intro hsame
    have hanswer := (hsame link.code _ le_rfl).symm.trans (hinserts.persisted hlive)
    obtain ⟨l, hmem, hcode, hquery, hl⟩ := mem_of_persisted hanswer
    have hexpires : l.expiresAtUnix = link.expiresAtUnix := by
      refine expiresAtUnix_eq_of_live hl hlive fun unix' hle => ?_
      rw [← persisted_isSome hcodes hmem, hcode, ← hsame link.code unix' hle,
        persisted_isSome (hinserts.nodup hkept) hinserts.mem_self]
    obtain ⟨code, query, expires⟩ := l
    obtain ⟨code', query', expires'⟩ := link
    cases hcode
    cases hquery
    cases hexpires
    exact hmem
  · intro hmem
    obtain ⟨hmem', hsame⟩ := kept_of_mem hlink hlive hmem
    rw [hinserts.eq_of_mem hkept hmem']
    exact hsame

/-- **When an insertion is all or nothing.**  For every store with a path whose persisted links have
distinct codes and every insertion of a persisted link, wherever `persist` fails: it is all or
nothing exactly if the condition holds. -/
theorem all_or_nothing_iff
    (htoml : ∀ links contents, toml.toString links = some contents →
      toml.fromStr contents = some links)
    {path : String} (hpath : st.store.persistencePath = some path)
    (hcodes : (st.store.permanent.map (·.code)).Nodup)
    (hlink : a.link st.store.ttl = some link) (hclock : a.time st < 2 ^ 64 - 1)
    (hperform : st.perform toml a = some (.inserted result, st')) :
    AllOrNothing toml env st result st' ↔ st.Sound toml a link := by
  cases hdisabled : st.store.disabled with
  | true =>
      refine iff_of_true ?_ (.inl hdisabled)
      obtain ⟨rfl, hstore, hfile⟩ := perform_disabled hlink hperform hdisabled
      exact ⟨fun code now unix _ _ => by rw [hstore], by rw [hfile]⟩
  | false =>
      obtain ⟨hstore, hinstant, hunix, hpersist⟩ := perform_links hlink hperform hdisabled
      have hentries : st'.store.entries = st.store.entries := by rw [hstore]
      have hpermanent : st'.store.permanent = a.links st := by rw [hstore]
      have hinserts : Inserts link (st.kept a) (a.links st) :=
        hpermanent ▸ (performed_of_perform hperform).inserts hlink hdisabled
      have hlive := live_of_link hlink hclock
      have hkept : ((st.kept a).map (·.code)).Nodup := hcodes.sublist ((st.kept_sublist a).map _)
      have herror : ∀ error, AllOrNothing toml env st (.error error) st' ↔
          link ∈ st.store.permanent ∧ loadLinks toml st'.file = loadLinks toml st.file := by
        intro error
        rw [← sameAnswers_iff_mem hcodes hlink hlive hinserts, ← hpermanent, ← hunix]
        exact and_congr (sameAnswers_iff hentries st'.instant st'.unix) Iff.rfl
      -- a link that was there already leaves the links that are kept
      have hsame : link ∈ st.store.permanent → a.links st = st.kept a := fun hmem =>
        hinserts.eq_of_mem hkept (kept_of_mem hlink hlive hmem).1
      simp only [Sound, hdisabled, Bool.false_eq_true, false_or]
      simp only [ShortStore.persist, hpath] at hpersist
      cases hcontents : toml.toString (a.links st) with
      | none =>
          rw [hcontents] at hpersist
          obtain ⟨rfl, hfile⟩ := Prod.mk.inj hpersist
          rw [herror, hfile, and_iff_left rfl]
      | some contents =>
          have hload : loadLinks toml (some (asBytes contents)) = some (a.links st) := by
            rw [loadLinks, fromUtf8_asBytes]
            exact htoml _ contents hcontents
          simp only [hcontents] at hpersist
          rcases hfault : a.fault with _ | _ | written | _
          · rw [hfault] at hpersist
            obtain ⟨rfl, hfile⟩ := Prod.mk.inj hpersist
            obtain ⟨rebuilt, hfrom, hempty, hloaded⟩ : ∃ rebuilt,
                ShortStore.fromEnv toml env st'.store.persistencePath st'.file = some rebuilt ∧
                  rebuilt.entries = [] ∧ rebuilt.permanent = a.links st := by
              rw [hstore, ← hfile, ShortStore.fromEnv, hpath, Option.elim_some, hload]
              exact ⟨_, rfl, rfl, rfl⟩
            have hiff := rebuilt_iff (hinserts.nodup hkept) hempty hloaded hpermanent hentries
              st'.unix
            simp only [hinserts.mem_iff hkept] at hiff
            simp only [AllOrNothing, hfrom, Option.some.injEq, exists_eq_left', hpermanent,
              hinstant, hinserts.mem_iff hkept]
            exact hiff
          · rw [hfault] at hpersist
            obtain ⟨rfl, hfile⟩ := Prod.mk.inj hpersist
            rw [herror, hfile, and_iff_left rfl]
          · rw [hfault] at hpersist
            obtain ⟨rfl, hfile⟩ := Prod.mk.inj hpersist
            rw [herror, ← hfile]
            refine and_congr_right fun hmem => ?_
            simp only [ReadsAs, ← hsame hmem, hcontents, Option.some.injEq, exists_eq_left']
          · rw [hfault] at hpersist
            obtain ⟨rfl, hfile⟩ := Prod.mk.inj hpersist
            rw [herror, ← hfile, hload]
            refine and_congr_right fun hmem => ?_
            rw [hsame hmem, eq_comm]

/-! ### Insertions into a store -/

/-- The permanent link is changed and written. -/
theorem all_or_nothing_sample :
    ∃ st', sampleState.perform plainToml (.putPermanent "p" "?new" none) =
        some (.inserted (.ok ()), st') ∧
      AllOrNothing plainToml (fun _ => none) sampleState (.ok ()) st' := by
  obtain ⟨st', hperform⟩ : ∃ st', sampleState.perform plainToml
      (.putPermanent "p" "?new" none) = some (.inserted (.ok ()), st') := ⟨_, rfl⟩
  refine ⟨st', hperform, ?_⟩
  refine (all_or_nothing_iff plainToml_lawful rfl (by decide) rfl (by decide) hperform).mpr
    (.inr ?_)
  intro e he
  cases he

/-- **Neither all nor nothing.**  A write that fails has changed the link in memory.  And a code is
persisted for ten seconds and put in memory five seconds later: what is written then by another
insertion does not answer it after the ten seconds, while the running store does. -/
theorem neither_all_nor_nothing :
    (∃ st', sampleState.perform plainToml (.putPermanent "p" "?new" (some (.write 0))) =
        some (.inserted (.error .write), st') ∧
      ¬ AllOrNothing plainToml (fun _ => none) sampleState (.error .write) st') ∧
    ∃ st st', Runs.run (State.step plainToml) sampleState
        [.putPersistedExpiring "x" "?link" 100 none, .put "x" "?memory" (nanos 5) (nanos 5)] =
          some st ∧
      st.perform plainToml (.putPermanent "p" "?new" none) = some (.inserted (.ok ()), st') ∧
      ¬ AllOrNothing plainToml (fun _ => none) st (.ok ()) st' := by
  constructor
  · refine ⟨_, rfl, ?_⟩
    rintro ⟨hget, -⟩
    exact absurd (hget "p" 0 100 le_rfl le_rfl) (by decide)
  · refine ⟨_, _, rfl, rfl, ?_⟩
    rintro ⟨rebuilt, hfrom, hget⟩
    cases hfrom
    exact absurd (hget ⟨"x", "?link", some 110⟩ (by decide) (nanos 12) 112 (by decide) (by decide))
      (by decide)

end State

end SingBoxMini.Sublink
