import SingBoxMini.Sublink.StoreRuns
import SingBoxMini.Sublink.Nodes

/-!
# Sublink — Short links

Whether an insertion that succeeds can be read back, until the link expires, is evicted or its code
is inserted again.  `shorten` is the service's use of `put`.

`read_back_iff` says when: always, except for

* a link that is put in memory while a persisted link of its code answers another query, as lookups
  ask the persisted links first;
* an insertion of the code that fails later on, as it has changed the persisted links by then.
-/

namespace SingBoxMini.Sublink
open Bytes

/-! ### What an insertion stores -/

/-- A link in one of the containers. -/
inductive Stored where
  | entry (e : ShortEntry)
  | link (l : PersistentShortLink)
deriving DecidableEq

namespace Stored

/-- The code of a link. -/
def code : Stored → String
  | .entry e => e.code
  | .link l => l.code

/-- The query of a link. -/
def query : Stored → String
  | .entry e => e.query
  | .link l => l.query

/-- The time of a link is over. -/
def Expired (now unix : Nat) : Stored → Prop
  | .entry e => e.expiresAt ≤ now
  | .link l => l.live unix = false

/-- The operation evicts the link. -/
def EvictedBy (st : State) (a : Action) : Stored → Prop
  | .entry e => e ∈ st.evictedEntries a
  | .link l => l ∈ st.evictedLinks a

end Stored

/-- What an operation stores if it succeeds. -/
def Action.stored (ttl : Nat) : Action → Option Stored
  | .put code query _ now' => some (.entry ⟨code, query, now' + nanos ttl⟩)
  | a => (a.link ttl).map .link

/-! ### The service -/

/-- `FORMATS` -/
def formats : List String := ["singbox", "clash", "surge", "xray"]

/-- `valid_code` -/
def validCode (code : String) : Bool :=
  code ≠ "" && len code ≤ 32 && code.toList.all fun c => c.isAlphanum || c = '-' || c = '_'

/-- `random_code`, of the bytes `getrandom::fill` gives. -/
def randomCode (random : Vector UInt8 7) : String :=
  let alphabet := "ABCDEFGHIJKLMNOPQRSTUVWXYZabcdefghijklmnopqrstuvwxyz0123456789".toList
  String.ofList (random.toList.map fun byte => alphabet.getD (byte.toNat % alphabet.length) 'A')

/-- The errors of `shorten`. -/
inductive ShortenError where
  | invalidUrl
  | tooLarge
  | invalidCode
  | random
  | store (error : StoreError)
deriving DecidableEq, Repr

/-- The code that was asked for, or a new one. -/
def chooseCode (requestedCode : Option String) (random : Option (Vector UInt8 7)) :
    Except ShortenError String :=
  match requestedCode with
  | some code => if validCode code then .ok code else .error .invalidCode
  | none => random.elim (.error .random) fun random => .ok (randomCode random)

/-- `SublinkService::shorten`, with `Url::parse`, the random bytes and the readings of the clock. -/
def shorten (parse : List Char → Option Url) (random : Option (Vector UInt8 7)) (now now' : Nat)
    (rawUrl : List Char) (requestedCode : Option String) (s : ShortStore) :
    Option (Except ShortenError String × ShortStore) :=
  match parse rawUrl with
  | none => some (.error .invalidUrl, s)
  | some url =>
    if ¬ formats.any (fun format => url.path = ("/" ++ format).toList) then
      some (.error .invalidUrl, s)
    else
      match url.query.filter (· ≠ []) with
      | none => some (.error .invalidUrl, s)
      | some query =>
        if maxInputBytes < (utf8 query).length then some (.error .tooLarge, s)
        else
          match chooseCode requestedCode random with
          | .error error => some (.error error, s)
          | .ok code =>
            (s.put now now' code ("?" ++ String.ofList query)).map fun (result, s) =>
              ((result.map fun _ => code).mapError .store, s)

/-- **`shorten` succeeds by a `put`** of the query of the URL. -/
theorem put_of_shorten {parse : List Char → Option Url} {random : Option (Vector UInt8 7)}
    {now now' : Nat} {rawUrl : List Char} {code : String} {requestedCode : Option String}
    {s s' : ShortStore}
    (h : shorten parse random now now' rawUrl requestedCode s = some (.ok code, s')) :
    ∃ url query, parse rawUrl = some url ∧ url.query = some query ∧
      (∀ requested ∈ requestedCode, code = requested) ∧
      s.put now now' code ("?" ++ String.ofList query) = some (.ok (), s') := by
  rw [shorten] at h
  cases hurl : parse rawUrl with
  | none =>
      rw [hurl] at h
      cases h
  | some url =>
      simp only [hurl] at h
      split_ifs at h with hpath
      swap
      · cases h
      cases hquery : url.query.filter (· ≠ []) with
      | none =>
          rw [hquery] at h
          cases h
      | some query =>
          simp only [hquery] at h
          split_ifs at h with hlarge
          · cases h
          cases hcode : chooseCode requestedCode random with
          | error error =>
              rw [hcode] at h
              cases h
          | ok chosen =>
              simp only [hcode] at h
              obtain ⟨⟨result, store⟩, hput, heq⟩ := Option.map_eq_some_iff.mp h
              cases result with
              | error error => cases heq
              | ok _ =>
                  cases heq
                  refine ⟨url, query, rfl, (Option.filter_eq_some_iff.mp hquery).1, ?_, hput⟩
                  rintro requested ⟨⟩
                  rw [chooseCode] at hcode
                  split_ifs at hcode
                  exact (Except.ok.inj hcode).symm

namespace State

variable {toml : Toml} {st st' : State} {a : Action} {answer : Answer}

/-- **An operation spares a code**: it inserts another one or none, the store is disabled, or the
persisted link it inserts is there already. -/
def Spares (code : String) (st : State) (a : Action) : Prop :=
  a.inserts = some code → st.store.disabled = true ∨
    ∃ link ∈ st.store.permanent, a.link st.store.ttl = some link

/-- No persisted link that has not expired answers the code with another query. -/
def Free (st : State) (code query : String) : Prop :=
  ∀ link ∈ st.store.permanent, link.code = code → link.live st.unix = true → link.query = query

variable (toml) in
/-- **The link can be read back**: its query is what lookups of its code return, in every run that
spares the code, until the link expires or is evicted. -/
def ReadBack (stored : Stored) (st : State) : Prop :=
  ∀ st', Runs.Reaches (State.step toml)
      (fun s b => s.Spares stored.code b ∧ ¬ stored.EvictedBy s b) st st' →
    ∀ now unix, st'.instant ≤ now → st'.unix ≤ unix → ¬ stored.Expired now unix →
      (st'.store.get now unix stored.code).1 = some stored.query

variable {link : PersistentShortLink}

/-- A persisted link was there before, or its code was inserted. -/
theorem mem_permanent_step (h : Performed toml st a answer st') {link : PersistentShortLink}
    (hlink : link ∈ st'.store.permanent) :
    link ∈ st.store.permanent ∨ a.inserts = some link.code := by
  cases h with
  | disabled => exact .inl (by simpa using hlink)
  | put => exact .inl hlink
  | get => exact .inl hlink
  | putPermanent =>
      rcases insertPermanent_inserts.mem_or hlink with rfl | hold
      · exact .inr rfl
      · exact .inl hold
  | @putPersistedExpiring code query unix =>
      obtain ⟨base, hinserts, hbase⟩ := insertExpiring_inserts
        st.store.limit_pos st.store.ttl unix code query st.store.permanent
      rcases hinserts.mem_or hlink with rfl | hold
      · exact .inr rfl
      · have hretain : link ∈ retain unix st.store.permanent := by
          rcases hbase with ⟨rfl, -⟩ | ⟨rfl, -⟩
          · exact hold
          · exact (Evict.evictLeast_spec st.store.limit_pos _).1.subset hold
        exact .inl (List.mem_of_mem_filter hretain)

/-- An operation that spares a code leaves its persisted link. -/
theorem Spares.mem_permanent_iff {code : String} (h : st.Spares code a) (hs : st.Consistent)
    (hp : Performed toml st a answer st') (hinserts : a.inserts = some code)
    (hcode : link.code = code) :
    link ∈ st'.store.permanent ↔ link ∈ st.store.permanent := by
  cases hdisabled : st.store.disabled with
  | true =>
      cases hp with
      | disabled => rw [store_disabledState]
      | put henabled | putPermanent henabled | putPersistedExpiring henabled =>
          cases hdisabled.symm.trans henabled
      | get => cases hinserts
  | false =>
      obtain ⟨own, hown, hlink⟩ := (h hinserts).resolve_left (by simp [hdisabled])
      have hsame : link.code = own.code :=
        hcode.trans (Option.some.inj (hinserts.symm.trans (inserts_of_link hlink)))
      -- before and after, the only link of the code is the operation's own
      constructor
      · intro hmem
        rw [List.inj_on_of_nodup_map (hs.step hp).link_codes hmem
          (hp.inserts hlink hdisabled).mem_self hsame]
        exact hown
      · intro hmem
        rw [List.inj_on_of_nodup_map hs.link_codes hmem hown hsame]
        exact (hp.inserts hlink hdisabled).mem_self

/-! ### Runs that spare a code -/

/-- A link in memory can be read back: it is there or has expired, and no persisted link of its code
answers another query. -/
structure EntryReads (e : ShortEntry) (st : State) : Prop where
  consistent : st.Consistent
  entry : e ∈ st.store.entries ∨ e.expiresAt ≤ st.instant
  links : ∀ link ∈ st.store.permanent, link.code = e.code → link.live st.unix = true →
    link.query = e.query

theorem EntryReads.step {e : ShortEntry} (h : EntryReads e st) (hspares : st.Spares e.code a)
    (hevicted : e ∉ st.evictedEntries a) (hp : Performed toml st a answer st') :
    EntryReads e st' := by
  obtain ⟨hinstant, hunix⟩ := hp.clocks
  refine ⟨h.consistent.step hp, ?_, ?_⟩
  · rcases h.entry with hmem | hexpired
    · rcases entry_step hp hmem with hstays | hexpired | hgone | ⟨hinserts, hnone, henabled⟩
      · exact .inl hstays
      · exact .inr hexpired
      · exact absurd hgone hevicted
      · obtain ⟨link, -, hlink⟩ := (hspares hinserts).resolve_left (by simp [henabled])
        cases hnone.symm.trans hlink
    · exact .inr (hexpired.trans hinstant)
  · intro link hlink hcode hlive
    have hold : link ∈ st.store.permanent := by
      rcases mem_permanent_step hp hlink with hold | hinserts
      · exact hold
      · rw [hcode] at hinserts
        exact (hspares.mem_permanent_iff h.consistent hp hinserts hcode).mp hlink
    exact h.links link hold hcode (live_mono hunix hlive)

theorem EntryReads.get {e : ShortEntry} (h : EntryReads e st) {now unix : Nat}
    (hinstant : st.instant ≤ now) (hunix : st.unix ≤ unix) (hlive : ¬ e.expiresAt ≤ now) :
    (st.store.get now unix e.code).1 = some e.query := by
  have hmem : e ∈ (st.store.prune now).entries := by
    rcases h.entry with hmem | hexpired
    · exact List.mem_filter.mpr ⟨hmem, by simpa using hlive⟩
    · exact absurd (hexpired.trans hinstant) hlive
  have hnodup : ((st.store.prune now).entries.map (·.code)).Nodup :=
    h.consistent.entry_codes.sublist (List.filter_sublist.map _)
  show (persisted st.store.permanent e.code unix).or
    (remembered (st.store.prune now).entries e.code) = some e.query
  cases hpersisted : persisted st.store.permanent e.code unix with
  | none => exact remembered_of_mem hnodup hmem
  | some query =>
      obtain ⟨link, hlink, hcode, rfl, hlive⟩ := mem_of_persisted hpersisted
      rw [h.links link hlink hcode (live_mono hunix hlive)]
      rfl

/-- A persisted link can be read back: it is there or has expired. -/
structure LinkReads (link : PersistentShortLink) (st : State) : Prop where
  consistent : st.Consistent
  link : link ∈ st.store.permanent ∨ link.live st.unix = false

theorem LinkReads.step (h : LinkReads link st) (hspares : st.Spares link.code a)
    (hevicted : link ∉ st.evictedLinks a) (hp : Performed toml st a answer st') :
    LinkReads link st' := by
  refine ⟨h.consistent.step hp, ?_⟩
  cases hlive : link.live st'.unix with
  | false => exact .inr rfl
  | true =>
      have hmem : link ∈ st.store.permanent := by
        rcases h.link with hmem | hexpired
        · exact hmem
        · rw [live_mono hp.clocks.2 hlive] at hexpired
          cases hexpired
      rcases link_step hp hmem with hstays | hexpired | hgone | hinserts
      · exact .inl hstays
      · rw [hlive] at hexpired
        cases hexpired
      · exact absurd hgone hevicted
      · exact .inl ((hspares.mem_permanent_iff h.consistent hp hinserts rfl).mpr hmem)

theorem LinkReads.get (h : LinkReads link st) (now : Nat) {unix : Nat} (hunix : st.unix ≤ unix)
    (hlive : ¬ link.live unix = false) :
    (st.store.get now unix link.code).1 = some link.query := by
  rw [Bool.not_eq_false] at hlive
  have hmem : link ∈ st.store.permanent := by
    rcases h.link with hmem | hexpired
    · exact hmem
    · rw [live_mono hunix hlive] at hexpired
      cases hexpired
  exact ShortStore.get_of_persisted (persisted_of_mem h.consistent.link_codes hmem hlive) now

/-! ### Reading back -/

/-- A link that was put in memory. -/
theorem readBack_put_iff {code query : String} {now now' : Nat} (hs : st.Consistent)
    (hok : st.perform toml (.put code query now now') = some (.inserted (.ok ()), st')) :
    ReadBack toml (.entry ⟨code, query, now' + nanos st.store.ttl⟩) st' ↔ st.Free code query := by
  have hp := performed_of_perform hok
  obtain ⟨hpermanent, hinstant, hunix⟩ : st'.store.permanent = st.store.permanent ∧
      st'.instant = now' ∧ st'.unix = st.unix := by
    cases hp with
    | put => exact ⟨rfl, rfl, rfl⟩
  constructor
  · intro hread link hlink hcode hlive
    have hfresh : ¬ (Stored.entry ⟨code, query, now' + nanos st.store.ttl⟩).Expired now' st.unix :=
      Nat.not_le_of_lt (Nat.lt_add_of_pos_right (nanos_pos st.store.ttl_pos))
    have hget := hread st' .refl now' st.unix hinstant.le hunix.le hfresh
    have hfound : persisted st'.store.permanent code st.unix = some link.query := by
      rw [hpermanent, ← hcode]
      exact persisted_of_mem hs.link_codes hlink hlive
    exact Option.some.inj ((ShortStore.get_of_persisted hfound now').symm.trans hget)
  · intro hfree st₂ hrun now unix hinstant hunix hexpired
    have hstart : EntryReads ⟨code, query, now' + nanos st.store.ttl⟩ st' := by
      refine ⟨hs.step hp, ?_, ?_⟩
      · cases hp with
        | put => exact .inl List.mem_cons_self
      · cases hp with
        | put => exact hfree
    have hreads := hrun.invariant hstart fun s b s' hs hb hstep => by
      obtain ⟨answer, hp⟩ := performed_of_step hstep
      exact hs.step hb.1 hb.2 hp
    exact hreads.get hinstant hunix hexpired

/-- A link that was persisted. -/
theorem readBack_link (hs : st.Consistent) (hlink : a.link st.store.ttl = some link)
    (hok : st.perform toml a = some (.inserted (.ok ()), st')) :
    ReadBack toml (.link link) st' := by
  have hp := performed_of_perform hok
  have henabled : st.store.disabled = false := by
    cases hp with
    | put henabled | putPermanent henabled | putPersistedExpiring henabled => exact henabled
  intro st₂ hrun now unix _ hunix hexpired
  have hreads : LinkReads link st₂ := by
    refine hrun.invariant ⟨hs.step hp, .inl (hp.inserts hlink henabled).mem_self⟩
      fun s b s' hs hb hstep => ?_
    obtain ⟨answer, hp⟩ := performed_of_step hstep
    exact hs.step hb.1 hb.2 hp
  exact hreads.get now hunix hexpired

/-- **When an insertion can be read back.**  In every store a run reaches: an insertion that
succeeds can be read back exactly if it does not put a link in memory while a persisted link of the
code answers another query; and `shorten`, where it reports success for a code, the one that was
asked for if there was one, has stored the query of the URL, which can be read back exactly if no
persisted link of the code answers another query. -/
theorem read_back_iff {st₀ st : State} (h₀ : st₀.Loaded)
    (h : Runs.Reaches (State.step toml) (fun _ _ => True) st₀ st) :
    (∀ a stored st₁, a.stored st.store.ttl = some stored →
      st.perform toml a = some (.inserted (.ok ()), st₁) →
      (ReadBack toml stored st₁ ↔
        ∀ code query now now', a = .put code query now now' → st.Free code query)) ∧
    ∀ parse random now now' rawUrl requestedCode code s', st.instant ≤ now → now ≤ now' →
      shorten parse random now now' rawUrl requestedCode st.store = some (.ok code, s') →
      ∃ url query, parse rawUrl = some url ∧ url.query = some query ∧
        (∀ requested ∈ requestedCode, code = requested) ∧
        (ReadBack toml (.entry ⟨code, "?" ++ String.ofList query, now' + nanos st.store.ttl⟩)
            { st with store := s', instant := now' } ↔
          st.Free code ("?" ++ String.ofList query)) := by
  have hs := Consistent.of_reaches h₀ h
  constructor
  · intro a stored st₁ hstored hok
    cases a with
    | get => cases hstored
    | put code query now now' =>
        cases hstored
        rw [readBack_put_iff hs hok]
        refine ⟨?_, fun hfree => hfree code query now now' rfl⟩
        rintro hfree _ _ _ _ ⟨⟩
        exact hfree
    | putPermanent | putPersistedExpiring =>
        cases hstored
        exact iff_of_true (readBack_link hs rfl hok) nofun
  · intro parse random now now' rawUrl requestedCode code s' hnow hlater hshorten
    obtain ⟨url, query, hurl, hquery, hcode, hput⟩ := put_of_shorten hshorten
    have hok : st.perform toml (.put code ("?" ++ String.ofList query) now now') =
        some (.inserted (.ok ()), { st with store := s', instant := now' }) := by
      simp only [perform, if_pos (And.intro hnow hlater), hput, Option.map_some]
    exact ⟨url, query, hurl, hquery, hcode, readBack_put_iff hs hok⟩

/-- A persisted link is read back while another one is inserted and the Unix time goes on. -/
theorem read_back_sample :
    ∃ st₁ st₂, sampleState.perform plainToml (.putPersistedExpiring "x" "?3" 101 none) =
        some (.inserted (.ok ()), st₁) ∧
      st₁.step plainToml (.putPersistedExpiring "y" "?4" 102 none) = some st₂ ∧
      (st₂.store.get 0 110 "x").1 = some "?3" := by
  obtain ⟨st₁, st₂, hput, hnext, hinstant, hunix, hspares, hkept⟩ :
      ∃ st₁ st₂, sampleState.perform plainToml (.putPersistedExpiring "x" "?3" 101 none) =
          some (.inserted (.ok ()), st₁) ∧
        st₁.step plainToml (.putPersistedExpiring "y" "?4" 102 none) = some st₂ ∧
        st₂.instant = 0 ∧ st₂.unix = 102 ∧
        (Action.putPersistedExpiring "y" "?4" 102 none).inserts ≠ some "x" ∧
        (⟨"x", "?3", some 111⟩ : PersistentShortLink) ∉
          st₁.evictedLinks (.putPersistedExpiring "y" "?4" 102 none) :=
    ⟨_, _, rfl, rfl, rfl, rfl, by decide, by decide⟩
  have hloaded : sampleState.Loaded := ⟨rfl, by decide, by decide⟩
  have hfresh : ¬ (Stored.link ⟨"x", "?3", some 111⟩).Expired 0 110 :=
    show ¬ PersistentShortLink.live 110 ⟨"x", "?3", some 111⟩ = false by decide
  have hrun : Runs.Reaches (State.step plainToml) (fun s b => s.Spares "x" b ∧
      ¬ (Stored.link ⟨"x", "?3", some 111⟩).EvictedBy s b) st₁ st₂ :=
    .more .refl ⟨fun hx => absurd hx hspares, hkept⟩ hnext
  have hread := ((read_back_iff hloaded .refl).1 _ (.link ⟨"x", "?3", some 111⟩) st₁ rfl hput).mpr
    nofun
  exact ⟨st₁, st₂, hput, hnext, hread st₂ hrun 0 110 (by omega) (by omega) hfresh⟩

end State

/-- What `shorten` is given. -/
def sampleUrl : Url :=
  ⟨"https".toList, [], none, some "h".toList, none, "/xray".toList, some "config=m".toList, none⟩

/-- **Success without the link.**  `shorten` reports success for the code `p`, which resolves to the
permanent link it had before.  And a permanent link that was stored with success resolves to the
query of an insertion that failed. -/
theorem shorten_resolves_to_other :
    (∃ s', shorten (fun _ => some sampleUrl) none 1 1 "https://h/xray?config=m".toList (some "p")
        State.sampleState.store = some (.ok "p", s') ∧ (s'.get 1 100 "p").1 = some "?old") ∧
    ∃ st₁ st₂, State.sampleState.perform State.plainToml (.putPermanent "q" "?1" none) =
        some (.inserted (.ok ()), st₁) ∧
      st₁.perform State.plainToml (.putPermanent "q" "?2" (some .sync)) =
        some (.inserted (.error .sync), st₂) ∧
      (st₂.store.get 1 100 "q").1 = some "?2" :=
  ⟨⟨_, rfl, by decide⟩, _, _, rfl, rfl, by decide⟩

end SingBoxMini.Sublink
