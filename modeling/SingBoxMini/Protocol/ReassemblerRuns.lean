import SingBoxMini.Protocol.Reassembler

/-!
# Protocol — Reassembler — Runs

Sequences of `push_at` calls with arbitrary messages, times and iteration orders.

* `reassembler_invariant`: no call panics; the table stays within its capacity and every entry is
  a packet of 2 to 255 fragments with a filled and an empty slot; a call that fails removes no live
  entry of another key.
* `keys_do_not_interfere`: while the table is not full, the results of one key's calls are those of
  these calls alone on an empty table, and a payload is put together from that key's messages.

The second is an unwinding argument: `slotRun` runs one key's calls on one entry, and the entry of
that key in any run, and in the run of its own calls, agree with it up to an expiry that the key's
next call would make anyway (`SameLive`).
-/

namespace SingBoxMini.Protocol
open UdpReassembler

/-! ### Runs -/

/-- One call of `push_at`. -/
structure Call where
  message : UdpMessage
  now : Nat
  it : HashMap.Iter Key PartialPacket

/-- The calls in order, with their results. -/
def pushAll (r : UdpReassembler) : List Call → Except Panic (UdpReassembler × List PushResult)
  | [] => .ok (r, [])
  | c :: calls =>
    match pushAt c.it r c.message c.now with
    | .error panic => .error panic
    | .ok (r', result) =>
      match pushAll r' calls with
      | .error panic => .error panic
      | .ok (r'', results) => .ok (r'', result :: results)

variable {r r' : UdpReassembler} {c : Call} {calls : List Call} {results : List PushResult}
  {result : PushResult} {message : UdpMessage} {now : Nat} {slot : Option PartialPacket}
  {victim : Option Key} {key : Key}

theorem pushAll_cons {r'' : UdpReassembler} (h : pushAll r (c :: calls) = .ok (r'', results)) :
    ∃ r' result results', results = result :: results' ∧
      pushAt c.it r c.message c.now = .ok (r', result) ∧
      pushAll r' calls = .ok (r'', results') := by
  rw [pushAll] at h
  cases h₁ : pushAt c.it r c.message c.now with
  | error panic => rw [h₁] at h; cases h
  | ok out =>
      obtain ⟨r', result⟩ := out
      simp only [h₁] at h
      cases h₂ : pushAll r' calls with
      | error panic => rw [h₂] at h; cases h
      | ok out' =>
          obtain ⟨r₂, results'⟩ := out'
          simp only [h₂, Except.ok.injEq, Prod.mk.injEq] at h
          obtain ⟨rfl, rfl⟩ := h
          exact ⟨r', result, results', rfl, rfl, h₂⟩

theorem pushAll_cons_eq {r'' : UdpReassembler}
    (h₁ : pushAt c.it r c.message c.now = .ok (r', result))
    (h₂ : pushAll r' calls = .ok (r'', results)) :
    pushAll r (c :: calls) = .ok (r'', result :: results) := by
  simp only [pushAll, h₁, h₂]

/-- **No run panics.** -/
theorem pushAll_ok (calls : List Call) : ∀ r : UdpReassembler,
    ∃ r' results, pushAll r calls = .ok (r', results) := by
  induction calls with
  | nil => intro r; exact ⟨r, [], rfl⟩
  | cons c calls ih =>
      intro r
      obtain ⟨r₁, result, -, h₁, -⟩ := pushAt_spec c.it r c.message c.now
      obtain ⟨r₂, results, h₂⟩ := ih r₁
      exact ⟨r₂, result :: results, pushAll_cons_eq h₁ h₂⟩

theorem length_pushAll (calls : List Call) : ∀ {r r' : UdpReassembler}
    {results : List PushResult}, pushAll r calls = .ok (r', results) →
      results.length = calls.length := by
  induction calls with
  | nil => intro r r' results h; cases h; rfl
  | cons c calls ih =>
      intro r r' results h
      obtain ⟨r₁, result, results', rfl, -, h₂⟩ := pushAll_cons h
      rw [List.length_cons, List.length_cons, ih h₂]

/-- What a call did, from its result. -/
theorem pushed_of_pushAt {it : HashMap.Iter Key PartialPacket}
    (h : pushAt it r message now = .ok (r', result)) :
    ∃ victim, Pushed r message now r' result victim := by
  obtain ⟨r₁, result₁, victim, h₁, hp⟩ := pushAt_spec it r message now
  rw [h] at h₁
  cases h₁
  exact ⟨victim, hp⟩

/-! ### The invariant -/

/-- 2 to 255 slots, one filled and one empty. -/
structure PartialPacket.Incomplete (packet : PartialPacket) : Prop where
  two_le : 2 ≤ packet.fragments.length
  le_255 : packet.fragments.length ≤ 255
  filled : ∃ fragment, some fragment ∈ packet.fragments
  missing : none ∈ packet.fragments

/-- The table is within its capacity and holds incomplete packets. -/
structure UdpReassembler.WellFormed (r : UdpReassembler) : Prop where
  len_le : r.packets.len ≤ maxIncompletePackets
  incomplete : ∀ key packet, r.packets.lookup key = some packet → packet.Incomplete

theorem any_isNone_iff {fragments : List (Option (List UInt8))} :
    fragments.any Option.isNone = true ↔ none ∈ fragments := by
  simp [List.any_eq_true]

/-- An entry a fragment was put into, and which still misses one, is incomplete. -/
theorem incomplete_fill {packet : PartialPacket} (hfrag : message.Fragment)
    (hfit : packet.Fits message)
    (hany : (packet.fill message now).fragments.any Option.isNone = true) :
    (packet.fill message now).Incomplete := by
  have hlen : (packet.fill message now).fragments.length = message.fragmentCount.toNat := by
    rw [PartialPacket.fill, List.length_set, hfit.2]
  have htwo : 1 < message.fragmentCount.toNat := UInt8.lt_iff_toNat_lt.mp hfrag.1
  have hid : message.fragmentId.toNat < packet.fragments.length := by
    rw [hfit.2]; exact UInt8.lt_iff_toNat_lt.mp hfrag.2
  exact ⟨by omega, by have := message.fragmentCount.toNat_lt; omega,
    ⟨message.payload, List.mem_set hid _⟩, any_isNone_iff.mp hany⟩

/-- The entry a call leaves is incomplete, if the one it found is. -/
theorem pushSlot_incomplete (hslot : ∀ packet, slot = some packet → packet.Incomplete)
    {packet : PartialPacket} (h : (pushSlot slot message now).1 = some packet) :
    packet.Incomplete := by
  simp only [pushSlot] at h
  split_ifs at h with hcount hid hfit hany
  · exact hslot packet h
  · exact hslot packet h
  · cases h
    exact incomplete_fill ⟨UInt8.not_le.mp hcount, UInt8.not_le.mp hid⟩
      hfit hany

/-- Of two slots or more, one fragment fills one. -/
theorem opened_fill_any (hfrag : message.Fragment) :
    ((opened message now).fill message now).fragments.any Option.isNone = true := by
  have htwo : 1 < message.fragmentCount.toNat := UInt8.lt_iff_toNat_lt.mp hfrag.1
  rw [any_isNone_iff]
  -- a slot other than the fragment's
  obtain ⟨j, hj, hne⟩ : ∃ j, j < message.fragmentCount.toNat ∧ message.fragmentId.toNat ≠ j := by
    by_cases h0 : message.fragmentId.toNat = 0
    · exact ⟨1, htwo, by omega⟩
    · exact ⟨0, by omega, h0⟩
  refine List.mem_iff_getElem.mpr ⟨j, by simpa [PartialPacket.fill, opened] using hj, ?_⟩
  simp [PartialPacket.fill, opened, List.getElem_set_ne hne]

/-- A fragment that opens an entry is kept, and completes nothing. -/
theorem pushSlot_none (hfrag : message.Fragment) :
    pushSlot none message now =
      (some ((opened message now).fill message now), .ok none) := by
  have hfit : (opened message now).Fits message := by
    simp [PartialPacket.Fits, opened]
  have hany : ((opened message now).fill message now).fragments.any Option.isNone = true :=
    opened_fill_any hfrag
  rw [pushSlot, if_neg (UInt8.not_le.mpr hfrag.1), if_neg (UInt8.not_le.mpr hfrag.2)]
  simp [hfit, hany]

/-- **A call that fails evicts nothing**: an eviction makes room for an entry that stays. -/
theorem Pushed.victim_eq_none {error : UdpCodecError}
    (h : Pushed r message now r' (.error error) victim) : victim = none := by
  cases hv : victim with
  | none => rfl
  | some k =>
      obtain ⟨-, hnone, hfrag⟩ := h.victim_spec k hv
      have hres := h.result_eq
      rw [hnone, pushSlot_none hfrag] at hres
      cases hres

/-- One call keeps the invariant. -/
theorem Pushed.wellFormed (h : Pushed r message now r' result victim) (hr : r.WellFormed) :
    r'.WellFormed := by
  have hlive : ∀ key packet, r.liveAt now key = some packet → packet.Incomplete :=
    fun key packet hp => hr.incomplete key packet (Option.filter_eq_some_iff.mp hp).1
  refine ⟨h.len_le hr.len_le, fun key packet hp => ?_⟩
  by_cases hk : key = message.key
  · subst hk
    rw [h.own] at hp
    exact pushSlot_incomplete (hlive _) hp
  · rw [h.other key hk] at hp
    split_ifs at hp
    exact hlive key packet hp

theorem wellFormed_empty : UdpReassembler.empty.WellFormed :=
  ⟨Nat.zero_le _, fun _ _ h => by simp [UdpReassembler.empty] at h⟩

/-- A run keeps the invariant. -/
theorem wellFormed_pushAll (calls : List Call) : ∀ {r r' : UdpReassembler}
    {results : List PushResult}, pushAll r calls = .ok (r', results) → r.WellFormed →
      r'.WellFormed := by
  induction calls with
  | nil => intro r r' results h hr; cases h; exact hr
  | cons c calls ih =>
      intro r r' results h hr
      obtain ⟨r₁, result, results', -, h₁, h₂⟩ := pushAll_cons h
      obtain ⟨victim, hp⟩ := pushed_of_pushAt h₁
      exact ih h₂ (hp.wellFormed hr)

/-- **The reassembler's invariant.**  Every run from the empty table returns, in a well-formed
table; the next call returns too, and when it returns an error every entry of another key is as it
was, but for those that have timed out. -/
theorem reassembler_invariant (calls : List Call) :
    ∃ r results, pushAll .empty calls = .ok (r, results) ∧ r.WellFormed ∧
      ∀ c : Call, ∃ r' result, pushAt c.it r c.message c.now = .ok (r', result) ∧
        ∀ error, result = .error error → ∀ key, key ≠ c.message.key →
          r'.packets.lookup key = (r.packets.lookup key).filter (live c.now) := by
  obtain ⟨r, results, h⟩ := pushAll_ok calls .empty
  refine ⟨r, results, h, wellFormed_pushAll calls h wellFormed_empty, fun c => ?_⟩
  obtain ⟨r', result, victim, hc, hp⟩ := pushAt_spec c.it r c.message c.now
  refine ⟨r', result, hc, fun error he key hk => ?_⟩
  subst he
  obtain rfl := hp.victim_eq_none
  rw [hp.other key hk, if_neg (by simp)]
  rfl

/-! ### One key alone -/

/-- `c` is a call for `key`. -/
def Call.For (key : Key) (c : Call) : Prop := c.message.key = key

instance (key : Key) : DecidablePred (Call.For key) := fun _ => inferInstanceAs (Decidable (_ = _))

/-- One key's calls on its one entry. -/
def slotRun : Option PartialPacket → List Call → List PushResult
  | _, [] => []
  | slot, c :: calls =>
    (pushSlot (slot.filter (live c.now)) c.message c.now).2 ::
      slotRun (pushSlot (slot.filter (live c.now)) c.message c.now).1 calls

/-- The results of the calls for `key`. -/
def resultsFor (key : Key) (calls : List Call) (results : List PushResult) : List PushResult :=
  ((calls.zip results).filter fun out => out.1.For key).map Prod.snd

/-- When every call is for `key`, every result is. -/
theorem resultsFor_eq_self (hfor : ∀ c ∈ calls, c.For key) (hlen : results.length = calls.length) :
    resultsFor key calls results = results := by
  rw [resultsFor, List.filter_eq_self.mpr fun out hout => by
    simpa using hfor out.1 (List.of_mem_zip (a := out.1) (b := out.2) hout).1]
  exact List.map_snd_zip (Nat.le_of_eq hlen)

/-- Two entries that are the same to every call from `now` on. -/
def SameLive (now : Nat) (slot slot' : Option PartialPacket) : Prop :=
  ∀ t, now ≤ t → slot.filter (live t) = slot'.filter (live t)

/-- In every state the calls are made in, the table is not full. -/
def Roomy (r : UdpReassembler) (calls : List Call) : Prop :=
  ∀ n r' results, pushAll r (calls.take n) = .ok (r', results) →
    r'.packets.len < maxIncompletePackets

theorem Roomy.head (h : Roomy r calls) :
    r.packets.len < maxIncompletePackets :=
  h 0 r [] rfl

theorem Roomy.tail (h : Roomy r (c :: calls))
    (hc : pushAt c.it r c.message c.now = .ok (r', result)) :
    Roomy r' calls :=
  fun n r'' results hn => h (n + 1) r'' (result :: results) (pushAll_cons_eq hc hn)

/-- Fewer calls than the table has room for never fill it. -/
theorem roomy_of_length (h : r.packets.len + calls.length < maxIncompletePackets) :
    Roomy r calls := by
  intro n
  induction n generalizing r calls with
  | zero => intro r' results h'; cases h'; omega
  | succ n ih =>
      intro r' results h'
      cases calls with
      | nil => exact ih h r' results (by simpa using h')
      | cons c calls =>
          obtain ⟨r₁, result, results', -, h₁, h₂⟩ := pushAll_cons h'
          obtain ⟨victim, hp⟩ := pushed_of_pushAt h₁
          have hlen := hp.len_le_succ
          rw [List.length_cons] at h
          exact ih (by omega) r' results' h₂

/-- With room, a call evicts nothing. -/
theorem Pushed.other_of_room (h : Pushed r message now r' result victim)
    (hroom : r.packets.len < maxIncompletePackets) (hk : key ≠ message.key) :
    r'.packets.lookup key = r.liveAt now key := by
  rw [h.other key hk, if_neg]
  intro hv
  exact absurd (h.victim_spec key hv).1 (Nat.not_le.mpr hroom)

/-- An entry that is live later is live now. -/
theorem filter_live_filter_live {t : Nat} (h : now ≤ t) (slot : Option PartialPacket) :
    (slot.filter (live now)).filter (live t) = slot.filter (live t) := by
  cases slot with
  | none => rfl
  | some packet =>
      by_cases ht : live t packet = true
      · have hnow : live now packet = true := by
          simp only [live, decide_eq_true_eq] at ht ⊢
          omega
        simp [Option.filter, ht, hnow]
      · by_cases hnow : live now packet = true
        · simp [Option.filter, hnow]
        · simp [Option.filter, ht, hnow]

/-- **A key's results are `slotRun`'s**, in every run that finds room, from every entry that agrees
with the key's. -/
theorem resultsFor_eq_slotRun (key : Key) (calls : List Call) :
    ∀ {r r' : UdpReassembler} {results : List PushResult} {slot : Option PartialPacket} {now : Nat},
      pushAll r calls = .ok (r', results) → Roomy r calls →
      (∀ c ∈ calls, now ≤ c.now) → calls.Pairwise (fun c c' => c.now ≤ c'.now) →
      SameLive now slot (r.packets.lookup key) →
      resultsFor key calls results = slotRun slot (calls.filter fun c => c.For key) := by
  induction calls with
  | nil => intro r r' results slot now _ _ _ _ _; simp [resultsFor, slotRun]
  | cons c calls ih =>
      intro r r' results slot now h hroom hnow hmono hsame
      obtain ⟨r₁, result, results', rfl, h₁, h₂⟩ := pushAll_cons h
      obtain ⟨victim, hp⟩ := pushed_of_pushAt h₁
      obtain ⟨hlater, hmono'⟩ := List.pairwise_cons.mp hmono
      have hc : now ≤ c.now := hnow c List.mem_cons_self
      by_cases hk : c.message.key = key
      · -- the call is the key's own: it finds the same entry in both
        subst hk
        have hown : r₁.packets.lookup c.message.key =
            (pushSlot (slot.filter (live c.now)) c.message c.now).1 := by
          rw [hp.own, hsame c.now hc]; rfl
        have hres : result = (pushSlot (slot.filter (live c.now)) c.message c.now).2 := by
          rw [hp.result_eq, hsame c.now hc]; rfl
        have hsame' : SameLive c.now (pushSlot (slot.filter (live c.now)) c.message c.now).1
            (r₁.packets.lookup c.message.key) := fun t _ => by rw [hown]
        rw [List.filter_cons_of_pos (by simp [Call.For]), slotRun,
          ← ih h₂ (hroom.tail h₁) hlater hmono' hsame', ← hres]
        simp [resultsFor, Call.For]
      · -- another key's call may only expire the entry
        have hother : r₁.packets.lookup key = r.liveAt c.now key :=
          hp.other_of_room hroom.head (Ne.symm hk)
        have hsame' : SameLive c.now slot (r₁.packets.lookup key) := fun t ht => by
          rw [hother, UdpReassembler.liveAt, filter_live_filter_live ht]
          exact hsame t (Nat.le_trans hc ht)
        rw [List.filter_cons_of_neg (by simp [Call.For, hk]),
          ← ih h₂ (hroom.tail h₁) hlater hmono' hsame']
        simp [resultsFor, Call.For, hk]

/-- A run of one key's calls on an empty table never fills it. -/
theorem roomy_of_forall_for (hcalls : ∀ c ∈ calls, c.For key)
    (hr : ∀ k, k ≠ key → r.packets.lookup k = none) : Roomy r calls := by
  intro n
  induction n generalizing r calls with
  | zero =>
      intro r' results h
      cases h
      exact Nat.lt_of_le_of_lt (HashMap.len_le_one hr) (by decide)
  | succ n ih =>
      intro r' results h
      cases calls with
      | nil => exact ih hcalls hr r' results (by simpa using h)
      | cons c calls =>
          obtain ⟨r₁, result, results', -, h₁, h₂⟩ := pushAll_cons h
          obtain ⟨victim, hp⟩ := pushed_of_pushAt h₁
          have hc : c.message.key = key := hcalls c List.mem_cons_self
          refine ih (fun c' hc' => hcalls c' (List.mem_cons_of_mem _ hc')) (fun k hk => ?_)
            r' results' h₂
          rw [hp.other k (hc ▸ hk), UdpReassembler.liveAt, hr k hk]
          simp

/-! ### Where a payload comes from -/

/-- `payload` is put together from payloads of `calls`. -/
def MadeFrom (calls : List Call) (payload : List UInt8) : Prop :=
  ∃ sources : List Call, (∀ c ∈ sources, c ∈ calls) ∧
    payload = (sources.map fun c => c.message.payload).flatten

/-- Every filled slot holds a payload of `calls`. -/
def SlotFrom (calls : List Call) (slot : Option PartialPacket) : Prop :=
  ∀ packet, slot = some packet → ∀ fragment, some fragment ∈ packet.fragments →
    ∃ c ∈ calls, c.message.payload = fragment

theorem SlotFrom.filter (h : SlotFrom calls slot) (p : PartialPacket → Bool) :
    SlotFrom calls (slot.filter p) :=
  fun packet hp => h packet (Option.filter_eq_some_iff.mp hp).1

theorem madeFrom_flatten : ∀ {fragments : List (List UInt8)},
    (∀ fragment ∈ fragments, ∃ c ∈ calls, c.message.payload = fragment) →
      MadeFrom calls fragments.flatten
  | [], _ => ⟨[], by simp, rfl⟩
  | fragment :: fragments, h => by
      obtain ⟨c, hc, rfl⟩ := h fragment List.mem_cons_self
      obtain ⟨sources, hs, he⟩ := madeFrom_flatten fun f hf => h f (List.mem_cons_of_mem _ hf)
      refine ⟨c :: sources, fun c' hc' => ?_, by simp [he]⟩
      rcases List.mem_cons.mp hc' with rfl | hc'
      · exact hc
      · exact hs c' hc'

theorem slotFrom_fill (h : SlotFrom calls slot) (now : Nat) :
    SlotFrom (calls ++ [c]) (some ((slot.getD (opened c.message now)).fill c.message now)) := by
  rintro packet ⟨rfl⟩ fragment hf
  rcases List.mem_or_eq_of_mem_set hf with hf | hf
  · cases slot with
    | none => simp [opened] at hf
    | some packet =>
        obtain ⟨c', hc', rfl⟩ := h packet rfl fragment hf
        exact ⟨c', List.mem_append_left _ hc', rfl⟩
  · cases hf
    exact ⟨c, by simp, rfl⟩

/-- One call keeps the provenance of its entry, and returns a payload made from the calls so far. -/
theorem pushSlot_from (h : SlotFrom calls slot) (c : Call) (now : Nat) :
    SlotFrom (calls ++ [c]) (pushSlot slot c.message now).1 ∧
      ∀ m, (pushSlot slot c.message now).2 = .ok (some m) → MadeFrom (calls ++ [c]) m.payload := by
  have hold : SlotFrom (calls ++ [c]) slot := fun packet hp fragment hf => by
    obtain ⟨c', hc', e⟩ := h packet hp fragment hf
    exact ⟨c', List.mem_append_left _ hc', e⟩
  have hfill := slotFrom_fill (c := c) h now
  have hnone : SlotFrom (calls ++ [c]) none := by
    intro packet hp
    cases hp
  simp only [pushSlot]
  split_ifs with hcount hid hfit hany
  · refine ⟨hold, fun m hm => ?_⟩
    cases hm
    exact ⟨[c], by simp, by simp⟩
  · refine ⟨hold, fun m hm => ?_⟩
    cases hm
  · refine ⟨hfill, fun m hm => ?_⟩
    cases hm
  · refine ⟨hnone, fun m hm => ?_⟩
    rw [assemble] at hm
    split at hm
    · cases hm
    · cases hm
      refine madeFrom_flatten fun fragment hf => ?_
      exact hfill _ rfl fragment (List.reduceOption_mem_iff.mp hf)
  · refine ⟨hnone, fun m hm => ?_⟩
    cases hm

/-- A run of one entry returns payloads made from its calls. -/
theorem slotRun_from (calls : List Call) : ∀ {seen : List Call} {slot : Option PartialPacket},
    SlotFrom seen slot → ∀ result ∈ slotRun slot calls, ∀ m, result = .ok (some m) →
      MadeFrom (seen ++ calls) m.payload := by
  induction calls with
  | nil => intro seen slot _ result hres; simp [slotRun] at hres
  | cons c calls ih =>
      intro seen slot h result hres m hm
      obtain ⟨hnext, hpay⟩ := pushSlot_from (h.filter (live c.now)) c c.now
      rw [slotRun, List.mem_cons] at hres
      rcases hres with rfl | hres
      · obtain ⟨sources, hs, he⟩ := hpay m hm
        refine ⟨sources, fun c' hc' => ?_, he⟩
        have := hs c' hc'
        simp only [List.mem_append, List.mem_singleton] at this
        simp only [List.mem_append, List.mem_cons]
        tauto
      · simpa using ih hnext result hres m hm

/-- **Keys do not interfere.**  In a run from the empty table with non-decreasing times during
which the table is never full, the results of the calls for `key` are the results of these calls
alone, at the same times, on an empty table; a payload they return is put together from the
payloads of these calls. -/
theorem keys_do_not_interfere (key : Key) (calls : List Call)
    (hmono : calls.Pairwise fun c c' => c.now ≤ c'.now) (hroom : Roomy .empty calls) :
    ∃ r results r' results', pushAll .empty calls = .ok (r, results) ∧
      pushAll .empty (calls.filter fun c => c.For key) = .ok (r', results') ∧
      resultsFor key calls results = results' ∧
      ∀ m, .ok (some m) ∈ results' → MadeFrom (calls.filter fun c => c.For key) m.payload := by
  obtain ⟨r, results, h⟩ := pushAll_ok calls .empty
  obtain ⟨r', results', h'⟩ := pushAll_ok (calls.filter fun c => c.For key) .empty
  have hfor : ∀ c ∈ calls.filter fun c => c.For key, c.For key := fun c hc => by
    simpa using (List.mem_filter.mp hc).2
  have hempty : SameLive 0 none (UdpReassembler.empty.packets.lookup key) := fun _ _ => rfl
  have hall := resultsFor_eq_slotRun key calls h hroom (fun _ _ => Nat.zero_le _) hmono hempty
  have hown := resultsFor_eq_slotRun key _ h' (roomy_of_forall_for hfor fun _ _ => rfl)
    (fun _ _ => Nat.zero_le _) (hmono.filter _) hempty
  rw [resultsFor_eq_self hfor (length_pushAll _ h'), List.filter_eq_self.mpr fun c hc => by
    simpa using hfor c hc] at hown
  refine ⟨r, results, r', results', h, h', hall.trans hown.symm, fun m hm => ?_⟩
  rw [hown] at hm
  have hnone : SlotFrom [] none := nofun
  simpa using slotRun_from _ hnone _ hm m rfl

/-- Two packets of two fragments each, interleaved: the second and third calls are of the other
session. -/
def interleavedCalls : List Call :=
  [⟨⟨1, 7, 0, 2, "a:1", [1]⟩, 0, .inOrder _ _⟩, ⟨⟨2, 7, 1, 2, "b:1", [4]⟩, 1, .inOrder _ _⟩,
    ⟨⟨2, 7, 0, 2, "b:1", [3]⟩, 2, .inOrder _ _⟩, ⟨⟨1, 7, 1, 2, "a:1", [2]⟩, 3, .inOrder _ _⟩]

theorem keys_do_not_interfere_interleaved :
    ∃ r results r' results', pushAll .empty interleavedCalls = .ok (r, results) ∧
      pushAll .empty (interleavedCalls.filter fun c => c.For (1, 7)) = .ok (r', results') ∧
      resultsFor (1, 7) interleavedCalls results = results' ∧
      ∀ m, .ok (some m) ∈ results' →
        MadeFrom (interleavedCalls.filter fun c => c.For (1, 7)) m.payload :=
  keys_do_not_interfere (1, 7) interleavedCalls (by simp [interleavedCalls])
    (roomy_of_length (by decide))

end SingBoxMini.Protocol
