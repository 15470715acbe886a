import SingBoxMini.Sublink.ShortStore
import SingBoxMini.Support.TomlText

/-!
# Sublink — Store runs

What holds of the store of short links in every run.

* `Consistent.of_reaches`: codes are distinct in each container, and the links in memory are in the
  order in which they expire.
* `entry_step`, `link_step`: a link stays until it expires, is evicted or is inserted again.
* `store_invariant`: the containers keep their limits, lookups return no expired link, evictions
  take the links that expire first, and a permanent link stays.
-/

namespace SingBoxMini.Sublink

/-! ### Lookups -/

variable {link : PersistentShortLink} {unix : Nat} {links : List PersistentShortLink}
  {code query : String}

theorem live_iff :
    link.live unix = true ↔ ∀ expiresAt ∈ link.expiresAtUnix, unix < expiresAt := by
  rw [PersistentShortLink.live]
  cases link.expiresAtUnix <;> simp

theorem live_mono {unix' : Nat} (hle : unix ≤ unix') (h : link.live unix' = true) :
    link.live unix = true :=
  live_iff.mpr fun expiresAt hexpires => Nat.lt_of_le_of_lt hle (live_iff.mp h expiresAt hexpires)

/-- A link that has not expired answers its code. -/
theorem persisted_of_mem (hnodup : (links.map (·.code)).Nodup) (hmem : link ∈ links)
    (hlive : link.live unix = true) : persisted links link.code unix = some link.query := by
  induction links with
  | nil => cases hmem
  | cons x links ih =>
      rw [List.map_cons, List.nodup_cons] at hnodup
      rcases List.mem_cons.mp hmem with rfl | hmem
      · simp [persisted, hlive]
      · have hne : x.code ≠ link.code := fun heq => hnodup.1 (heq ▸ List.mem_map_of_mem hmem)
        rw [persisted, List.find?_cons_of_neg (by simp [hne])]
        exact ih hnodup.2 hmem

/-- So does one that was just inserted, whatever the other codes. -/
theorem Inserts.persisted {links' : List PersistentShortLink} (h : Inserts link links links')
    (hlive : link.live unix = true) :
    persisted links' link.code unix = some link.query := by
  obtain ⟨before, old, after, -, rfl, -, hbefore, -⟩ := h
  have hnone : before.find? (fun x => x.code == link.code && x.live unix) = none := by
    rw [List.find?_eq_none]
    intro x hx
    simp [hbefore x hx]
  rw [Sublink.persisted, List.find?_append, hnone, Option.none_or,
    List.find?_cons_of_pos (by simp [hlive]), Option.map_some]

/-- What answers is a link that has not expired. -/
theorem mem_of_persisted (h : persisted links code unix = some query) :
    ∃ link ∈ links, link.code = code ∧ link.query = query ∧ link.live unix = true := by
  obtain ⟨link, hfind, rfl⟩ := Option.map_eq_some_iff.mp h
  have hlink := List.find?_some hfind
  rw [Bool.and_eq_true, beq_iff_eq] at hlink
  exact ⟨link, List.mem_of_find?_eq_some hfind, hlink.1, rfl, hlink.2⟩

theorem remembered_of_mem {entries : List ShortEntry} {e : ShortEntry}
    (hnodup : (entries.map (·.code)).Nodup) (hmem : e ∈ entries) :
    remembered entries e.code = some e.query := by
  induction entries with
  | nil => cases hmem
  | cons x entries ih =>
      rw [List.map_cons, List.nodup_cons] at hnodup
      rcases List.mem_cons.mp hmem with rfl | hmem
      · simp [remembered]
      · have hne : x.code ≠ e.code := fun heq => hnodup.1 (heq ▸ List.mem_map_of_mem hmem)
        rw [remembered, List.find?_cons_of_neg (by simp [hne])]
        exact ih hnodup.2 hmem

theorem mem_of_remembered {entries : List ShortEntry} (h : remembered entries code = some query) :
    ∃ e ∈ entries, e.code = code ∧ e.query = query := by
  obtain ⟨e, hfind, rfl⟩ := Option.map_eq_some_iff.mp h
  exact ⟨e, List.mem_of_find?_eq_some hfind, by simpa using List.find?_some hfind, rfl⟩

/-- What the persisted links answer is what a lookup returns. -/
theorem ShortStore.get_of_persisted {s : ShortStore}
    (h : persisted s.permanent code unix = some query) (now : Nat) :
    (s.get now unix code).1 = some query :=
  Option.or_eq_some_iff.mpr (.inl h)

/-- **No lookup returns an expired link.** -/
theorem ShortStore.get_unexpired {s : ShortStore} {now : Nat}
    (h : (s.get now unix code).1 = some query) :
    (∃ link ∈ s.permanent, link.code = code ∧ link.query = query ∧ link.live unix = true) ∨
      ∃ e ∈ s.entries, e.code = code ∧ e.query = query ∧ now < e.expiresAt := by
  rcases Option.or_eq_some_iff.mp h with h | ⟨-, h⟩
  · exact .inl (mem_of_persisted h)
  · obtain ⟨e, hmem, hcode, hquery⟩ := mem_of_remembered h
    obtain ⟨hmem, hlive⟩ := List.mem_filter.mp hmem
    exact .inr ⟨e, hmem, hcode, hquery, by simpa using hlive⟩

namespace State

variable {toml : Toml} {st st' : State} {a : Action} {answer : Answer}

@[simp] theorem store_disabledState (st : State) (a : Action) :
    (st.disabledState a).store = st.store := by
  cases a <;> rfl

/-- The clocks do not go back. -/
theorem Performed.clocks (h : Performed toml st a answer st') :
    st.instant ≤ st'.instant ∧ st.unix ≤ st'.unix := by
  cases h with
  | disabled _ _ hinstant hunix => exact ⟨hinstant, hunix⟩
  | put _ hinstant hlater => exact ⟨hinstant.trans hlater, le_rfl⟩
  | putPermanent => exact ⟨le_rfl, le_rfl⟩
  | putPersistedExpiring _ hlater _ => exact ⟨le_rfl, hlater⟩
  | get hinstant hlater => exact ⟨hinstant, hlater⟩

/-! ### Evictions -/

/-- The links in memory an operation evicts. -/
def evictedEntries (st : State) : Action → List ShortEntry
  | .put code _ now _ =>
    let rest := (st.store.entries.filter (now < ·.expiresAt)).eraseP (·.code == code)
    if st.store.disabled then [] else rest.drop (Evict.popBack st.store.limit rest).length
  | _ => []

/-- The persisted links an operation evicts. -/
def evictedLinks (st : State) : Action → List PersistentShortLink
  | .putPersistedExpiring code _ unix _ =>
    let links := retain unix st.store.permanent
    if st.store.disabled ∨ ∃ link ∈ links, link.code = code then []
    else links.filter (· ∉ Evict.evictLeast (·.expiresAtUnix) st.store.limit links)
  | _ => []

/-- **Where a link in memory goes**: it stays until it expires, is evicted or is put again. -/
theorem entry_step (h : Performed toml st a answer st') {e : ShortEntry}
    (he : e ∈ st.store.entries) :
    e ∈ st'.store.entries ∨ e.expiresAt ≤ st'.instant ∨ e ∈ st.evictedEntries a ∨
      a.inserts = some e.code ∧ a.link st.store.ttl = none ∧ st.store.disabled = false := by
  cases h with
  | disabled => exact .inl (by simpa using he)
  | putPermanent => exact .inl he
  | putPersistedExpiring => exact .inl he
  | @get code now unix =>
      rcases Nat.lt_or_ge now e.expiresAt with hlt | hle
      · exact .inl (List.mem_filter.mpr ⟨he, by simpa using hlt⟩)
      · exact .inr (.inl hle)
  | @put code query now now' henabled hinstant hlater =>
      rcases Nat.lt_or_ge now e.expiresAt with hlt | hle
      · by_cases hcode : e.code = code
        · exact .inr (.inr (.inr ⟨by rw [hcode]; rfl, rfl, henabled⟩))
        have hfilter : e ∈ st.store.entries.filter (now < ·.expiresAt) :=
          List.mem_filter.mpr ⟨he, by simpa using hlt⟩
        have hrest := (List.mem_eraseP_of_neg (p := (·.code == code)) (by simpa using hcode)).mpr
          hfilter
        rw [← Evict.popBack_append_drop st.store.limit_pos
          ((st.store.entries.filter (now < ·.expiresAt)).eraseP (·.code == code))] at hrest
        rcases List.mem_append.mp hrest with hkept | hevicted
        · exact .inl (List.mem_cons_of_mem _ hkept)
        · exact .inr (.inr (.inl (by simpa [evictedEntries, henabled] using hevicted)))
      · exact .inr (.inl (hle.trans hlater))

variable {link : PersistentShortLink}

/-- **Where a persisted link goes**: it stays until it expires, is evicted or is inserted again. -/
theorem link_step (h : Performed toml st a answer st') (hlink : link ∈ st.store.permanent) :
    link ∈ st'.store.permanent ∨ link.live st'.unix = false ∨ link ∈ st.evictedLinks a ∨
      a.inserts = some link.code := by
  cases h with
  | disabled => exact .inl (by simpa using hlink)
  | put => exact .inl hlink
  | get => exact .inl hlink
  | @putPermanent code query fault result file henabled hpersists =>
      by_cases hcode : link.code = code
      · exact .inr (.inr (.inr (by rw [hcode]; rfl)))
      · exact .inl (insertPermanent_inserts.mem_of_mem hlink hcode)
  | @putPersistedExpiring code query unix fault result file henabled hlater hpersists =>
      by_cases hcode : link.code = code
      · exact .inr (.inr (.inr (by rw [hcode]; rfl)))
      cases hlive : link.live unix with
      | false => exact .inr (.inl rfl)
      | true =>
          have hretain : link ∈ retain unix st.store.permanent :=
            List.mem_filter.mpr ⟨hlink, hlive⟩
          obtain ⟨base, hinserts, ⟨rfl, -⟩ | ⟨rfl, hne⟩⟩ := insertExpiring_inserts
            st.store.limit_pos st.store.ttl unix code query st.store.permanent
          · exact .inl (hinserts.mem_of_mem hretain hcode)
          · by_cases hkept : link ∈ Evict.evictLeast (·.expiresAtUnix) st.store.limit
                (retain unix st.store.permanent)
            · exact .inl (hinserts.mem_of_mem hkept hcode)
            · refine .inr (.inr (.inl ?_))
              have hnone : ¬ ∃ x ∈ retain unix st.store.permanent, x.code = code := by
                rintro ⟨x, hx, rfl⟩
                exact hne x hx rfl
              rw [evictedLinks, if_neg (by simp only [henabled]; tauto)]
              exact List.mem_filter.mpr ⟨hretain, by simpa using hkept⟩

/-! ### Insertions of persisted links -/

theorem inserts_of_link {ttl : Nat} (h : a.link ttl = some link) :
    a.inserts = some link.code := by
  cases a with
  | put => cases h
  | get => cases h
  | putPermanent => cases h; rfl
  | putPersistedExpiring => cases h; rfl

/-- The links of before that an insertion of a persisted link keeps: those that have not expired,
and if none of them has the code only as many as leave room. -/
def kept (st : State) : Action → List PersistentShortLink
  | .putPersistedExpiring code _ unix _ =>
    let links := retain unix st.store.permanent
    if ∃ link ∈ links, link.code = code then links
    else Evict.evictLeast (·.expiresAtUnix) st.store.limit links
  | _ => st.store.permanent

theorem kept_sublist (st : State) (a : Action) : (st.kept a).Sublist st.store.permanent := by
  cases a with
  | put | putPermanent | get => exact .refl _
  | putPersistedExpiring code query unix fault =>
      have hretain : (retain unix st.store.permanent).Sublist st.store.permanent :=
        List.filter_sublist
      simp only [kept]
      split_ifs
      · exact hretain
      · exact (Evict.evictLeast_spec st.store.limit_pos _).1.trans hretain

/-- **What an insertion does to the links it keeps.** -/
theorem Performed.inserts (h : Performed toml st a answer st')
    (hlink : a.link st.store.ttl = some link) (henabled : st.store.disabled = false) :
    Inserts link (st.kept a) st'.store.permanent := by
  cases h with
  | disabled _ hdisabled =>
      rw [henabled] at hdisabled
      cases hdisabled
  | put => cases hlink
  | get => cases hlink
  | putPermanent =>
      cases hlink
      exact insertPermanent_inserts
  | @putPersistedExpiring code query unix =>
      cases hlink
      obtain ⟨base, hinserts, ⟨rfl, hexists⟩ | ⟨rfl, hne⟩⟩ := insertExpiring_inserts
        st.store.limit_pos st.store.ttl unix code query st.store.permanent
      · rwa [kept, if_pos hexists]
      · rwa [kept, if_neg fun ⟨x, hx, hcode⟩ => hne x hx hcode]

/-! ### Consistent stores -/

/-- **The invariant** of all runs. -/
structure Consistent (st : State) : Prop where
  entry_codes : (st.store.entries.map (·.code)).Nodup
  entry_limit : st.store.entries.length ≤ st.store.limit
  entry_order : st.store.entries.Pairwise fun e e' => e'.expiresAt ≤ e.expiresAt
  entry_recent : ∀ e ∈ st.store.entries, e.expiresAt ≤ st.instant + nanos st.store.ttl
  link_codes : (st.store.permanent.map (·.code)).Nodup

/-- Some of the links in memory, at a later instant. -/
theorem Consistent.entries_sublist (h : st.Consistent) {entries : List ShortEntry}
    (hsub : entries.Sublist st.store.entries) {instant : Nat} (hle : st.instant ≤ instant) :
    (entries.map (·.code)).Nodup ∧ entries.length ≤ st.store.limit ∧
      entries.Pairwise (fun e e' => e'.expiresAt ≤ e.expiresAt) ∧
      ∀ e ∈ entries, e.expiresAt ≤ instant + nanos st.store.ttl := by
  refine ⟨h.entry_codes.sublist (hsub.map _), hsub.length_le.trans h.entry_limit,
    h.entry_order.sublist hsub, fun e he => ?_⟩
  have := h.entry_recent e (hsub.subset he)
  omega

/-- The links for which there is room, without the code that is put. -/
theorem popBack_sublist (st : State) (now : Nat) (code : String) :
    (Evict.popBack st.store.limit
      ((st.store.entries.filter (now < ·.expiresAt)).eraseP (·.code == code))).Sublist
        st.store.entries := by
  rw [Evict.popBack_eq_take st.store.limit_pos]
  exact (List.take_sublist _ _).trans (List.eraseP_sublist.trans List.filter_sublist)

/-- After a removal no link has the code. -/
theorem not_mem_eraseP {entries : List ShortEntry} {code : String}
    (h : (entries.map (·.code)).Nodup) :
    code ∉ (entries.eraseP (·.code == code)).map (·.code) := by
  have hmap : (entries.eraseP (·.code == code)).map (·.code) =
      (entries.map (·.code)).erase code := by
    rw [List.erase_eq_eraseP', List.eraseP_map]
    rfl
  rw [hmap]
  exact h.not_mem_erase

theorem Consistent.step (h : st.Consistent) (hp : Performed toml st a answer st') :
    st'.Consistent := by
  cases hp with
  | disabled _ _ hinstant _ =>
      obtain ⟨hcodes, hlimit, horder, hrecent⟩ := h.entries_sublist (.refl _) hinstant
      exact ⟨by simpa using hcodes, by simpa using hlimit, by simpa using horder,
        by simpa using hrecent, by simpa using h.link_codes⟩
  | @put code query now now' henabled hinstant hlater =>
      have hsub := st.popBack_sublist now code
      obtain ⟨hcodes, -, horder, hrecent⟩ := h.entries_sublist hsub (hinstant.trans hlater)
      refine ⟨?_, ?_, ?_, ?_, h.link_codes⟩
      · rw [List.map_cons, List.nodup_cons]
        refine ⟨fun hmem => ?_, hcodes⟩
        have hfilter : ((st.store.entries.filter (now < ·.expiresAt)).map (·.code)).Nodup :=
          h.entry_codes.sublist (List.filter_sublist.map _)
        refine not_mem_eraseP hfilter (List.Sublist.subset ?_ hmem)
        rw [Evict.popBack_eq_take st.store.limit_pos]
        exact (List.take_sublist _ _).map _
      · have hpos := st.store.limit_pos
        rw [List.length_cons, Evict.popBack_eq_take hpos, List.length_take]
        show _ ≤ st.store.limit
        omega
      · exact List.pairwise_cons.mpr ⟨hrecent, horder⟩
      · intro e he
        rcases List.mem_cons.mp he with rfl | he
        · exact le_rfl
        · exact hrecent e he
  | putPermanent =>
      exact ⟨h.entry_codes, h.entry_limit, h.entry_order, h.entry_recent,
        insertPermanent_inserts.nodup h.link_codes⟩
  | @putPersistedExpiring code query unix fault result file henabled hlater hpersists =>
      refine ⟨h.entry_codes, h.entry_limit, h.entry_order, h.entry_recent, ?_⟩
      have hretain : ((retain unix st.store.permanent).map (·.code)).Nodup :=
        h.link_codes.sublist (List.filter_sublist.map _)
      obtain ⟨base, hinserts, ⟨rfl, -⟩ | ⟨rfl, -⟩⟩ := insertExpiring_inserts
        st.store.limit_pos st.store.ttl unix code query st.store.permanent
      · exact hinserts.nodup hretain
      · obtain ⟨hsub, -⟩ := Evict.evictLeast_spec st.store.limit_pos
          (retain unix st.store.permanent)
        exact hinserts.nodup (hretain.sublist (hsub.map _))
  | @get code now unix hinstant hlater =>
      obtain ⟨hcodes, hlimit, horder, hrecent⟩ := h.entries_sublist
        (List.filter_sublist (p := (now < ·.expiresAt))) hinstant
      exact ⟨hcodes, hlimit, horder, hrecent, h.link_codes⟩

theorem Loaded.consistent (h : st.Loaded) : st.Consistent where
  entry_codes := by simp [h.entries]
  entry_limit := by simp [h.entries]
  entry_order := by simp [h.entries]
  entry_recent := by simp [h.entries]
  link_codes := h.codes

/-- **Codes are distinct in every run.** -/
theorem Consistent.of_reaches {ok : State → Action → Prop} {st₀ : State} (h₀ : st₀.Loaded)
    (h : Runs.Reaches (State.step toml) ok st₀ st) : st.Consistent := by
  refine h.invariant h₀.consistent fun s a s' hs _ hstep => ?_
  obtain ⟨answer, hp⟩ := performed_of_step hstep
  exact hs.step hp

/-! ### Limits -/

/-- `put_persisted_expiring` is not used on the code of a permanent link. -/
def Separate (st : State) : Action → Prop
  | .putPersistedExpiring code _ _ _ =>
    ∀ link ∈ st.store.permanent, link.code = code → link.expiresAtUnix ≠ none
  | _ => True

instance (st : State) : (a : Action) → Decidable (st.Separate a)
  | .putPersistedExpiring code _ _ _ =>
    inferInstanceAs (Decidable (∀ link ∈ st.store.permanent, link.code = code →
      link.expiresAtUnix ≠ none))
  | .put _ _ _ _ => .isTrue trivial
  | .putPermanent _ _ _ => .isTrue trivial
  | .get _ _ _ => .isTrue trivial

/-- As many persisted links expire as allowed. -/
def WithinLimit (st : State) : Prop :=
  (Evict.keyed (·.expiresAtUnix) st.store.permanent).length ≤ st.store.limit

theorem WithinLimit.step (h : st.WithinLimit) (hok : st.Separate a)
    (hp : Performed toml st a answer st') : st'.WithinLimit := by
  cases hp with
  | disabled => simpa [WithinLimit] using h
  | put => exact h
  | get => exact h
  | putPermanent => exact insertPermanent_inserts.length_keyed_le.trans h
  | @putPersistedExpiring code query unix fault result file henabled hlater hpersists =>
      obtain ⟨base, hinserts, ⟨rfl, hexists⟩ | ⟨rfl, -⟩⟩ := insertExpiring_inserts
        st.store.limit_pos st.store.ttl unix code query st.store.permanent
      · have hretain : (Evict.keyed (·.expiresAtUnix)
            (retain unix st.store.permanent)).length ≤ st.store.limit :=
          ((List.filter_sublist.filter _).length_le).trans h
        refine (hinserts.length_keyed_le_of_mem hexists fun x hx hcode => ?_).trans hretain
        exact hok x (List.mem_of_mem_filter hx) hcode
      · obtain ⟨-, hroom, -⟩ := Evict.evictLeast_spec st.store.limit_pos
          (retain unix st.store.permanent)
        exact hinserts.length_keyed_le.trans hroom

/-! ### Evictions take what expires first -/

/-- **Links in memory**: no link that stays expires before one that is evicted. -/
theorem Consistent.evictedEntries_le (h : st.Consistent) (hp : Performed toml st a answer st')
    {e : ShortEntry} (he : e ∈ st.evictedEntries a) :
    ∀ k ∈ st'.store.entries, e.expiresAt ≤ k.expiresAt := by
  cases hp with
  | disabled _ hdisabled _ _ =>
      cases a <;> simp [evictedEntries, hdisabled] at he
  | putPermanent => cases he
  | putPersistedExpiring => cases he
  | get => cases he
  | @put code query now now' henabled hinstant hlater =>
      let rest := (st.store.entries.filter (now < ·.expiresAt)).eraseP (·.code == code)
      have he : e ∈ rest.drop (Evict.popBack st.store.limit rest).length := by
        simpa [evictedEntries, henabled] using he
      have hsub : rest.Sublist st.store.entries := List.eraseP_sublist.trans List.filter_sublist
      have horder := h.entry_order.sublist hsub
      rw [← Evict.popBack_append_drop st.store.limit_pos rest, List.pairwise_append] at horder
      intro k hk
      rcases List.mem_cons.mp hk with rfl | hk
      · have := h.entry_recent e (hsub.subset (List.mem_of_mem_drop he))
        show e.expiresAt ≤ now' + nanos st.store.ttl
        omega
      · exact horder.2.2 k hk e he

/-- **Persisted links**: one that is evicted expires, and none that stays expires before it. -/
theorem evictedLinks_le (hp : Performed toml st a answer st') (hlink : link ∈ st.evictedLinks a) :
    ∃ expiresAt, link.expiresAtUnix = some expiresAt ∧
      ∀ k ∈ st'.store.permanent, a.inserts ≠ some k.code → ∀ expiresAt' ∈ k.expiresAtUnix,
        expiresAt ≤ expiresAt' := by
  cases hp with
  | disabled _ hdisabled _ _ =>
      cases a <;> simp [evictedLinks, hdisabled] at hlink
  | put => cases hlink
  | putPermanent => cases hlink
  | get => cases hlink
  | @putPersistedExpiring code query unix fault result file henabled hlater hpersists =>
      rw [evictedLinks] at hlink
      split_ifs at hlink with hcond
      · cases hlink
      obtain ⟨hretain, hgone⟩ := List.mem_filter.mp hlink
      obtain ⟨-, -, hspec⟩ := Evict.evictLeast_spec st.store.limit_pos
        (retain unix st.store.permanent)
      obtain ⟨expiresAt, hexpires, hmin⟩ := hspec link hretain (by simpa using hgone)
      refine ⟨expiresAt, hexpires, fun k hk hother => ?_⟩
      obtain ⟨base, hinserts, ⟨rfl, hexists⟩ | ⟨rfl, hne⟩⟩ := insertExpiring_inserts
        st.store.limit_pos st.store.ttl unix code query st.store.permanent
      · exact absurd (.inr hexists) hcond
      · rcases hinserts.mem_or hk with rfl | hk
        · exact absurd rfl hother
        · exact hmin k hk

/-- **A permanent link stays** while its code is not inserted. -/
theorem permanent_step (hp : Performed toml st a answer st') {code query : String}
    (hlink : ⟨code, query, none⟩ ∈ st.store.permanent) (hne : a.inserts ≠ some code) :
    ⟨code, query, none⟩ ∈ st'.store.permanent := by
  rcases link_step hp hlink with hstays | hexpired | hevicted | hinserts
  · exact hstays
  · cases hexpired
  · obtain ⟨_, hnone, -⟩ := evictedLinks_le hp hevicted
    cases hnone
  · exact absurd hinserts hne

/-- **The store invariant.**  In every run from a store that was loaded, in which
`put_persisted_expiring` is not used on the code of a permanent link:

* codes in memory are distinct and within the limit;
* codes of persisted links are distinct, and as many of them expire as the limit allows;
* no lookup returns an expired link;
* a link that an operation removes has expired, is inserted again, or expires no later than the
  others that are kept in its container;
* a permanent link is found, with its query, after any operations on other codes. -/
theorem store_invariant {st₀ st : State} (h₀ : st₀.Loaded)
    (h : Runs.Reaches (State.step toml) State.Separate st₀ st) :
    ((st.store.entries.map (·.code)).Nodup ∧ st.store.entries.length ≤ st.store.limit) ∧
    ((st.store.permanent.map (·.code)).Nodup ∧
      (st.store.permanent.filter (·.expiresAtUnix.isSome)).length ≤ st.store.limit) ∧
    (∀ code query now unix, (st.store.get now unix code).1 = some query →
      (∃ link ∈ st.store.permanent, link.code = code ∧ link.query = query ∧
        ∀ expiresAt ∈ link.expiresAtUnix, unix < expiresAt) ∨
      ∃ e ∈ st.store.entries, e.code = code ∧ e.query = query ∧ now < e.expiresAt) ∧
    (∀ a st', st.step toml a = some st' →
      (∀ e ∈ st.store.entries, e ∉ st'.store.entries →
        e.expiresAt ≤ st'.instant ∨ a.inserts = some e.code ∨
          ∀ k ∈ st'.store.entries, e.expiresAt ≤ k.expiresAt) ∧
      ∀ link ∈ st.store.permanent, link ∉ st'.store.permanent →
        (∃ expiresAt ∈ link.expiresAtUnix, expiresAt ≤ st'.unix) ∨
          a.inserts = some link.code ∨
          ∃ expiresAt ∈ link.expiresAtUnix, ∀ k ∈ st'.store.permanent, a.inserts ≠ some k.code →
            ∀ expiresAt' ∈ k.expiresAtUnix, expiresAt ≤ expiresAt') ∧
    ∀ code query fault st₁ st₂, st.store.disabled = false →
      st.step toml (.putPermanent code query fault) = some st₁ →
      Runs.Reaches (State.step toml) (fun s a => s.Separate a ∧ a.inserts ≠ some code) st₁ st₂ →
      ∀ now unix, (st₂.store.get now unix code).1 = some query := by
  have hs := Consistent.of_reaches h₀ h
  have hlimit : st.WithinLimit := h.invariant h₀.limit fun s a s' hs hok hstep => by
    obtain ⟨answer, hp⟩ := performed_of_step hstep
    exact hs.step hok hp
  refine ⟨⟨hs.entry_codes, hs.entry_limit⟩, ⟨hs.link_codes, hlimit⟩, ?_, ?_, ?_⟩
  · intro code query now unix hget
    rcases ShortStore.get_unexpired hget with ⟨link, hlink, hcode, hquery, hlive⟩ | hentry
    · exact .inl ⟨link, hlink, hcode, hquery, live_iff.mp hlive⟩
    · exact .inr hentry
  · intro a st' hstep
    obtain ⟨answer, hp⟩ := performed_of_step hstep
    constructor
    · intro e he hgone
      rcases entry_step hp he with hstays | hexpired | hevicted | ⟨hinserts, -⟩
      · exact absurd hstays hgone
      · exact .inl hexpired
      · exact .inr (.inr (hs.evictedEntries_le hp hevicted))
      · exact .inr (.inl hinserts)
    · intro link hlink hgone
      rcases link_step hp hlink with hstays | hexpired | hevicted | hinserts
      · exact absurd hstays hgone
      · refine .inl ?_
        by_contra hnot
        push Not at hnot
        exact Bool.false_ne_true (hexpired.symm.trans (live_iff.mpr hnot))
      · obtain ⟨expiresAt, hexpires, hle⟩ := evictedLinks_le hp hevicted
        exact .inr (.inr ⟨expiresAt, hexpires, hle⟩)
      · exact .inr (.inl hinserts)
  · intro code query fault st₁ st₂ henabled hput hrun now unix
    obtain ⟨answer, hp⟩ := performed_of_step hput
    have hstored : ⟨code, query, none⟩ ∈ st₁.store.permanent := by
      cases hp with
      | disabled _ hdisabled _ _ =>
          rw [henabled] at hdisabled
          cases hdisabled
      | putPermanent => exact insertPermanent_inserts.mem_self
    have hstays : ⟨code, query, none⟩ ∈ st₂.store.permanent ∧ st₂.Consistent := by
      refine hrun.invariant (I := fun s => ⟨code, query, none⟩ ∈ s.store.permanent ∧ s.Consistent)
        ⟨hstored, hs.step hp⟩ fun s a s' hs hok hstep => ?_
      obtain ⟨answer, hp⟩ := performed_of_step hstep
      exact ⟨permanent_step hp hs.1 hok.2, hs.2.step hp⟩
    have hfound : persisted st₂.store.permanent code unix = some query :=
      persisted_of_mem hstays.2.link_codes hstays.1 rfl
    exact ShortStore.get_of_persisted hfound now

/-! ### A run -/

open TomlText

/-- The lines of a link, and a blank one. -/
def linkLines (link : PersistentShortLink) : List (List Char) :=
  ["[[links]]".toList, textLine "code" link.code.toList,
    textLine "query" link.query.toList] ++
    link.expiresAtUnix.elim [] (fun n => [numberLine "expires_at_unix" n]) ++ [[]]

/-- The links of such lines. -/
def linesLinks : List (List Char) → Option (List PersistentShortLink)
  | [] => some []
  | _ :: code :: query :: [] :: rest => do
    some (⟨.ofList (← readText "code" code), .ofList (← readText "query" query), none⟩ ::
      (← linesLinks rest))
  | _ :: code :: query :: expires :: [] :: rest => do
    some (⟨.ofList (← readText "code" code), .ofList (← readText "query" query),
      some (← readNumber "expires_at_unix" expires)⟩ :: (← linesLinks rest))
  | _ => none

theorem linesLinks_linkLines (link : PersistentShortLink) (rest : List (List Char)) :
    linesLinks (linkLines link ++ rest) = (linesLinks rest).map (link :: ·) := by
  obtain ⟨code, query, expires⟩ := link
  cases expires with
  | none => simp [linkLines, linesLinks, readText_textLine, Option.map_eq_bind]
  | some n =>
      have hread := readNumber_numberLine "expires_at_unix" n
      obtain ⟨c, line, hline⟩ :=
        List.exists_cons_of_ne_nil (numberLine_ne_nil "expires_at_unix" n)
      rw [hline] at hread
      simp [linkLines, hline, linesLinks, readText_textLine, hread, Option.map_eq_bind]

theorem linesLinks_flatMap (links : List PersistentShortLink) :
    linesLinks (links.flatMap linkLines) = some links := by
  induction links with
  | nil => rfl
  | cons link links ih => rw [List.flatMap_cons, linesLinks_linkLines, ih, Option.map_some]

/-- `toml` for texts that need no escapes.  An integer of TOML is below `2 ^ 63`. -/
def plainToml : Toml where
  toString links :=
    if links.all fun link => plain link.code.toList && plain link.query.toList &&
      link.expiresAtUnix.all (· < 2 ^ 63) then
      some (.ofList (document (links.flatMap linkLines)))
    else none
  fromStr contents := linesLinks (documentLines contents.toList)

theorem newline_not_mem_linkLines (hcode : plain link.code.toList = true)
    (hquery : plain link.query.toList = true) {line : List Char} (h : line ∈ linkLines link) :
    '\n' ∉ line := by
  simp only [linkLines, List.mem_append, List.mem_cons, List.not_mem_nil, or_false] at h
  rcases h with ((rfl | rfl | rfl) | h) | rfl
  · decide
  · exact newline_not_mem_textLine (by decide) hcode
  · exact newline_not_mem_textLine (by decide) hquery
  · cases hexpires : link.expiresAtUnix with
    | none => simp [hexpires] at h
    | some n =>
        rw [hexpires, Option.elim_some, List.mem_singleton] at h
        exact h ▸ newline_not_mem_numberLine (by decide) n
  · exact List.not_mem_nil

/-- **Decoding undoes encoding.** -/
theorem plainToml_lawful (links : List PersistentShortLink) (contents : String)
    (h : plainToml.toString links = some contents) : plainToml.fromStr contents = some links := by
  obtain ⟨hall, h⟩ := Option.ite_none_right_eq_some.mp h
  cases h
  have hlines : ∀ line ∈ links.flatMap linkLines, '\n' ∉ line := by
    intro line hline
    obtain ⟨link, hlink, hline⟩ := List.mem_flatMap.mp hline
    have hplain := List.all_eq_true.mp hall link hlink
    rw [Bool.and_eq_true, Bool.and_eq_true] at hplain
    exact newline_not_mem_linkLines hplain.1.1 hplain.1.2 hline
  show linesLinks (documentLines (String.ofList (document _)).toList) = _
  rw [String.toList_ofList, documentLines_document hlines, linesLinks_flatMap]

/-- A store for two links of each kind, with a permanent link in its file. -/
def sampleStore : ShortStore where
  entries := []
  permanent := [⟨"p", "?old", none⟩]
  persistencePath := some "links"
  limit := 2
  ttl := 10
  disabled := false
  limit_pos := by decide
  ttl_pos := by decide

/-- That store, as it was loaded. -/
def sampleState : State :=
  ⟨sampleStore, (plainToml.toString sampleStore.permanent).map Bytes.asBytes, 0, 100⟩

/-- Three links are put and three persisted, so that one of each is evicted; a permanent link is
changed. -/
def sampleActions : List Action :=
  [.put "a" "?1" 0 1, .put "b" "?2" 2 2, .putPersistedExpiring "x" "?3" 101 none,
    .putPersistedExpiring "y" "?4" 102 none, .put "c" "?5" 3 4, .putPermanent "p" "?new" none,
    .putPersistedExpiring "z" "?6" 103 none, .get "a" 5 104]

theorem store_invariant_sample :
    ∃ st, Runs.run (State.step plainToml) sampleState sampleActions = some st ∧
      st.store.entries.map (·.code) = ["c", "b"] ∧
      st.store.permanent.map (·.code) = ["p", "y", "z"] ∧
      st.store.entries.length ≤ st.store.limit ∧
      (st.store.permanent.filter (·.expiresAtUnix.isSome)).length ≤ st.store.limit := by
  obtain ⟨st, hrun, hchecked, hentries, hlinks⟩ :
      ∃ st, Runs.run (State.step plainToml) sampleState sampleActions = some st ∧
        Runs.run (fun s a => if s.Separate a then s.step plainToml a else none) sampleState
          sampleActions = some st ∧
        st.store.entries.map (·.code) = ["c", "b"] ∧
        st.store.permanent.map (·.code) = ["p", "y", "z"] :=
    ⟨_, rfl, rfl, rfl, rfl⟩
  have hloaded : sampleState.Loaded := ⟨rfl, by decide, by decide⟩
  obtain ⟨⟨-, hmemory⟩, ⟨-, hpersisted⟩, -⟩ := store_invariant hloaded
    (Runs.reaches_of_run sampleActions .refl hchecked)
  exact ⟨st, hrun, hentries, hlinks, hmemory, hpersisted⟩

end State

end SingBoxMini.Sublink
