import SingBoxMini.Protocol.ReassemblerRuns

/-!
# Protocol — Fragments

`encode_fragments`, `decode` and `push_at` together: the datagrams of a packet, delivered in any
order, repeated, and interleaved with other packets, give the packet back
(`fragments_reassemble`).

`packetOf seen now` is the entry that holds the pieces numbered in `seen`.  A datagram of the
packet takes the entry of `seen` to that of one more number (`pushSlot_packetOf`), or, when no
number is missing any more, to the whole message (`pushSlot_complete`); a call for another key
leaves it as it is as long as it does not time out.
-/

namespace SingBoxMini.Protocol
open UdpReassembler Bytes

/-! ### The slots of a packet -/

/-- The slots that hold the pieces numbered in `seen`. -/
def slotsOf (pieces : List (List UInt8)) (seen : List Nat) : List (Option (List UInt8)) :=
  pieces.mapIdx fun i piece => if i ∈ seen then some piece else none

/-- The entry that holds the pieces numbered in `seen`. -/
def packetOf (destination : String) (pieces : List (List UInt8)) (seen : List Nat) (now : Nat) :
    PartialPacket :=
  ⟨now, destination, slotsOf pieces seen⟩

/-- That entry, or none before the first piece. -/
def slotOf (destination : String) (pieces : List (List UInt8)) (seen : List Nat) (now : Nat) :
    Option PartialPacket :=
  if seen = [] then none else some (packetOf destination pieces seen now)

section Slots

variable {pieces : List (List UInt8)} {seen : List Nat}

@[simp] theorem length_slotsOf : (slotsOf pieces seen).length = pieces.length := by
  simp [slotsOf]

theorem slotsOf_nil : slotsOf pieces [] = List.replicate pieces.length none := by
  refine List.ext_getElem? fun i => ?_
  by_cases h : i < pieces.length
  · simp [slotsOf, h]
  · simp [slotsOf, h]

/-- Filling the slot of a piece. -/
theorem slotsOf_set {i : Nat} {piece : List UInt8} (h : pieces[i]? = some piece) :
    (slotsOf pieces seen).set i (some piece) = slotsOf pieces (i :: seen) := by
  obtain ⟨hi, rfl⟩ := List.getElem?_eq_some_iff.mp h
  refine List.ext_getElem (by simp) fun j hj hj' => ?_
  by_cases hij : i = j
  · subst hij; simp [slotsOf]
  · simp [slotsOf, List.getElem_set_ne hij, Ne.symm hij]

theorem none_mem_slotsOf : none ∈ slotsOf pieces seen ↔ ∃ i < pieces.length, i ∉ seen := by
  simp only [slotsOf, List.mem_mapIdx]
  constructor
  · rintro ⟨i, hi, h⟩
    refine ⟨i, hi, fun hs => ?_⟩
    rw [if_pos hs] at h
    cases h
  · rintro ⟨i, hi, hs⟩
    exact ⟨i, hi, if_neg hs⟩

/-- With no number missing, the slots are the pieces. -/
theorem slotsOf_complete (h : ∀ i < pieces.length, i ∈ seen) :
    slotsOf pieces seen = pieces.map some := by
  refine List.ext_getElem (by simp) fun i hi hi' => ?_
  have hs : i ∈ seen := h i (by simpa using hi)
  simp [slotsOf, hs]

theorem reduceOption_map_some {α : Type} (l : List α) : (l.map some).reduceOption = l := by
  simp [List.reduceOption]

end Slots

/-- The size of a payload within the limit is found without overflow. -/
theorem foldlM_checkedAdd {pieces : List (List UInt8)} : ∀ {total : Nat},
    total + pieces.flatten.length < 2 ^ 64 →
      pieces.foldlM (fun total fragment => checkedAdd total fragment.length) total =
        some (total + pieces.flatten.length) := by
  induction pieces with
  | nil => intro total _; simp
  | cons piece pieces ih =>
      intro total h
      rw [List.flatten_cons, List.length_append] at h
      have hadd : checkedAdd total piece.length = some (total + piece.length) :=
        if_pos (by omega)
      rw [List.foldlM_cons, hadd]
      simp only [Option.bind_eq_bind, Option.bind_some]
      rw [ih (by omega), List.flatten_cons, List.length_append, Nat.add_assoc]

/-! ### One datagram of the packet -/

section Packet

variable {s : UInt32} {p : UInt16} {destination : String} {payload : List UInt8}
  {pieces : List (List UInt8)} {seen : List Nat} {now t i : Nat} {piece : List UInt8}

/-- The whole packet. -/
def wholeMessage (s : UInt32) (p : UInt16) (destination : String) (payload : List UInt8) :
    UdpMessage :=
  ⟨s, p, 0, 1, destination, payload⟩

theorem toNat_ofNat_of_le {n : Nat} (h : n ≤ 255) : (UInt8.ofNat n).toNat = n := by
  rw [UInt8.toNat_ofNat', Nat.mod_eq_of_lt (by omega)]

theorem fragmentMessage_fragment (hle : pieces.length ≤ 255) (htwo : 2 ≤ pieces.length)
    (hi : pieces[i]? = some piece) : (fragmentMessage s p destination pieces i piece).Fragment := by
  obtain ⟨hi, -⟩ := List.getElem?_eq_some_iff.mp hi
  constructor
  · rw [UInt8.lt_iff_toNat_lt, fragmentMessage, toNat_ofNat_of_le hle]
    exact htwo
  · rw [UInt8.lt_iff_toNat_lt, fragmentMessage, toNat_ofNat_of_le hle,
      toNat_ofNat_of_le (by omega)]
    exact hi

/-- The number of a datagram tells it from the others of its packet. -/
theorem fragmentMessage_inj (hle : pieces.length ≤ 255) (hi : pieces[i]? = some piece) {j : Nat}
    {piece' : List UInt8} (hj : pieces[j]? = some piece')
    (h : fragmentMessage s p destination pieces i piece =
      fragmentMessage s p destination pieces j piece') : i = j := by
  have hlt := (List.getElem?_eq_some_iff.mp hi).1
  have hlt' := (List.getElem?_eq_some_iff.mp hj).1
  have hid : UInt8.ofNat i = UInt8.ofNat j := congrArg UdpMessage.fragmentId h
  rw [← toNat_ofNat_of_le (show i ≤ 255 by omega), hid, toNat_ofNat_of_le (by omega)]

/-- The entry a datagram works on, found or opened, is one of `packetOf`'s. -/
theorem getD_slotOf (hle : pieces.length ≤ 255) :
    ∃ t', (slotOf destination pieces seen t).getD
      (opened (fragmentMessage s p destination pieces i piece) now) =
        packetOf destination pieces seen t' := by
  by_cases h : seen = []
  · refine ⟨now, ?_⟩
    rw [slotOf, if_pos h, h, packetOf, slotsOf_nil]
    simp [opened, fragmentMessage, toNat_ofNat_of_le hle]
  · exact ⟨t, by rw [slotOf, if_neg h]; rfl⟩

theorem packetOf_fits (hle : pieces.length ≤ 255) :
    (packetOf destination pieces seen t).Fits
      (fragmentMessage s p destination pieces i piece) := by
  simp [PartialPacket.Fits, packetOf, fragmentMessage, toNat_ofNat_of_le hle]

theorem packetOf_fill (hle : pieces.length ≤ 255) (hi : pieces[i]? = some piece) :
    (packetOf destination pieces seen t).fill (fragmentMessage s p destination pieces i piece) now =
      packetOf destination pieces (i :: seen) now := by
  have hlt := (List.getElem?_eq_some_iff.mp hi).1
  simp only [PartialPacket.fill, packetOf, fragmentMessage, toNat_ofNat_of_le
    (show i ≤ 255 by omega), slotsOf_set hi]

/-- What a datagram of a packet of several does to the entry of `seen`. -/
theorem pushSlot_slotOf (hle : pieces.length ≤ 255) (htwo : 2 ≤ pieces.length)
    (hi : pieces[i]? = some piece) :
    pushSlot (slotOf destination pieces seen t)
        (fragmentMessage s p destination pieces i piece) now =
      if (slotsOf pieces (i :: seen)).any Option.isNone then
        (some (packetOf destination pieces (i :: seen) now), .ok none)
      else (none, assemble (s, p) (packetOf destination pieces (i :: seen) now)) := by
  obtain ⟨hone, hlt⟩ : (fragmentMessage s p destination pieces i piece).Fragment :=
    fragmentMessage_fragment hle htwo hi
  obtain ⟨t', ht'⟩ : ∃ t', (slotOf destination pieces seen t).getD
      (opened (fragmentMessage s p destination pieces i piece) now) =
        packetOf destination pieces seen t' := getD_slotOf hle
  rw [pushSlot, if_neg (UInt8.not_le.mpr hone), if_neg (UInt8.not_le.mpr hlt)]
  simp only [ht', packetOf_fits hle, not_true, if_false, packetOf_fill hle hi]
  rfl

/-- With a number still missing, the datagram is kept. -/
theorem pushSlot_packetOf (hle : pieces.length ≤ 255) (htwo : 2 ≤ pieces.length)
    (hi : pieces[i]? = some piece) {j : Nat} (hj : j < pieces.length) (hne : j ∉ i :: seen) :
    pushSlot (slotOf destination pieces seen t)
        (fragmentMessage s p destination pieces i piece) now =
      (slotOf destination pieces (i :: seen) now, .ok none) := by
  rw [pushSlot_slotOf hle htwo hi, if_pos (any_isNone_iff.mpr (none_mem_slotsOf.mpr ⟨j, hj, hne⟩)),
    slotOf, if_neg (by simp)]

/-- With none missing, the packet is put together. -/
theorem pushSlot_complete (hle : pieces.length ≤ 255) (htwo : 2 ≤ pieces.length)
    (hi : pieces[i]? = some piece) (hall : ∀ j < pieces.length, j ∈ i :: seen)
    (hflat : pieces.flatten = payload) (hpay : payload.length ≤ maxUdpSize) :
    (pushSlot (slotOf destination pieces seen t)
        (fragmentMessage s p destination pieces i piece) now).2 =
      .ok (some (wholeMessage s p destination payload)) := by
  have hany : ¬ (slotsOf pieces (i :: seen)).any Option.isNone = true := by
    rw [any_isNone_iff, none_mem_slotsOf]
    rintro ⟨j, hj, hne⟩
    exact hne (hall j hj)
  have hsize : payloadSize (slotsOf pieces (i :: seen)) = some payload.length := by
    rw [payloadSize, slotsOf_complete hall, reduceOption_map_some, foldlM_checkedAdd, hflat]
    · simp [Option.filter, hpay]
    · rw [hflat, Nat.zero_add]
      exact Nat.lt_of_le_of_lt hpay (by decide)
  rw [pushSlot_slotOf hle htwo hi, if_neg hany]
  simp only [assemble, packetOf, hsize]
  rw [slotsOf_complete hall, reduceOption_map_some, hflat]
  rfl

end Packet

/-! ### A delivery -/

/-- The calls before `last` for `key` are datagrams of the packet, and `last` is the one they
miss. -/
structure Delivery (datagrams : List (List UInt8)) (key : Key) (calls : List Call) (last : Call) :
    Prop where
  own : ∀ c ∈ calls, c.For key → ∃ d ∈ datagrams, UdpMessage.decode d = .ok c.message
  last_own : ∃ d ∈ datagrams, UdpMessage.decode d = .ok last.message
  missing : ∀ c ∈ calls, c.message ≠ last.message
  complete : ∀ d ∈ datagrams, ∃ c ∈ calls ++ [last], UdpMessage.decode d = .ok c.message

/-- Every call is made within the timeout since the last one for `key`, which was at `previous`
when the calls begin. -/
def Fresh (key : Key) : Option Nat → List Call → Prop
  | _, [] => True
  | previous, c :: calls =>
    (∀ t, previous = some t → c.now - t < reassemblyTimeout) ∧
      Fresh key (if c.For key then some c.now else previous) calls

section Delivery

variable {s : UInt32} {p : UInt16} {destination : String} {payload : List UInt8}
  {pieces : List (List UInt8)}

/-- Within the timeout the entry of `seen` is live. -/
theorem filter_slotOf {seen : List Nat} {t now : Nat}
    (h : seen ≠ [] → now - t < reassemblyTimeout) :
    (slotOf destination pieces seen t).filter (live now) = slotOf destination pieces seen t := by
  by_cases hs : seen = []
  · simp [slotOf, hs]
  · have hlive : live now (packetOf destination pieces seen t) = true := decide_eq_true (h hs)
    simp [slotOf, hs, Option.filter, hlive]

/-- The last datagram finds every other piece in the entry, and completes the packet. -/
theorem pushSlot_last (hle : pieces.length ≤ 255) (hflat : pieces.flatten = payload)
    (hpay : payload.length ≤ maxUdpSize) {j : Nat} {piece : List UInt8}
    (hj : pieces[j]? = some piece) {seen : List Nat} {t now : Nat}
    (hall : ∀ i < pieces.length, i ≠ j → i ∈ seen) :
    (pushSlot (slotOf destination pieces seen t)
        (fragmentMessage s p destination pieces j piece) now).2 =
      .ok (some (wholeMessage s p destination payload)) := by
  by_cases htwo : 2 ≤ pieces.length
  · refine pushSlot_complete hle htwo hj (fun i hi => ?_) hflat hpay
    by_cases hij : i = j
    · exact List.mem_cons.mpr (.inl hij)
    · exact List.mem_cons_of_mem _ (hall i hi hij)
  · -- a packet of one datagram is returned as it is
    obtain ⟨hlt, rfl⟩ := List.getElem?_eq_some_iff.mp hj
    obtain ⟨piece, rfl⟩ := List.length_eq_one_iff.mp (by omega : pieces.length = 1)
    obtain rfl : j = 0 := by simpa using hlt
    have hone : (fragmentMessage s p destination [piece] 0 piece).fragmentCount ≤ 1 :=
      UInt8.le_refl 1
    rw [List.flatten_singleton] at hflat
    subst hflat
    simp only [List.getElem_cons_zero]
    rw [pushSlot, if_pos hone]
    rfl

/-- **The calls of a delivery, from the entry of `seen`.**  The induction is on the calls before
the last: each is a piece other than the missing `j`, or another key's. -/
theorem delivery_from (hle : pieces.length ≤ 255) (hflat : pieces.flatten = payload)
    (hpay : payload.length ≤ maxUdpSize) {j : Nat} {piece : List UInt8}
    (hj : pieces[j]? = some piece) {last : Call}
    (hlast : last.message = fragmentMessage s p destination pieces j piece) (calls : List Call) :
    ∀ {r : UdpReassembler} {seen : List Nat} {t : Nat},
      r.packets.lookup (s, p) = slotOf destination pieces seen t →
      j ∉ seen →
      (∀ c ∈ calls, c.For (s, p) → ∃ i piece', pieces[i]? = some piece' ∧ i ≠ j ∧
        c.message = fragmentMessage s p destination pieces i piece') →
      (∀ i < pieces.length, i ≠ j → i ∈ seen ∨ ∃ c ∈ calls, ∃ piece', pieces[i]? = some piece' ∧
        c.message = fragmentMessage s p destination pieces i piece') →
      Roomy r calls → Fresh (s, p) (if seen = [] then none else some t) (calls ++ [last]) →
      ∃ r' results r'', pushAll r calls = .ok (r', results) ∧
        (∀ result ∈ resultsFor (s, p) calls results, result = .ok none) ∧
        pushAt last.it r' last.message last.now =
          .ok (r'', .ok (some (wholeMessage s p destination payload))) := by
  have hkey : last.message.key = (s, p) := by rw [hlast]; rfl
  induction calls with
  | nil =>
      intro r seen t hr hjs hown hall hroom hfresh
      obtain ⟨r'', result, victim, hc, hp⟩ :=
        pushAt_spec last.it r last.message last.now
      have hslot : r.liveAt last.now last.message.key = slotOf destination pieces seen t := by
        rw [UdpReassembler.liveAt, hkey, hr, filter_slotOf]
        exact fun hs => hfresh.1 t (if_neg hs)
      have hresult : result = .ok (some (wholeMessage s p destination payload)) := by
        rw [hp.result_eq, hslot, hlast]
        refine pushSlot_last hle hflat hpay hj fun i hi hij => ?_
        rcases hall i hi hij with h | ⟨c, hc, -⟩
        · exact h
        · cases hc
      exact ⟨r, [], r'', rfl, by simp [resultsFor], by rw [hc, hresult]⟩
  | cons c calls ih =>
      intro r seen t hr hjs hown hall hroom hfresh
      obtain ⟨r₁, result, victim, hc, hp⟩ := pushAt_spec c.it r c.message c.now
      obtain ⟨hnow, hlater⟩ := hfresh
      have hslot : r.liveAt c.now (s, p) = slotOf destination pieces seen t := by
        rw [UdpReassembler.liveAt, hr, filter_slotOf]
        exact fun hs => hnow t (if_neg hs)
      have hown' := fun c' hc' => hown c' (List.mem_cons_of_mem c hc')
      by_cases hk : c.message.key = (s, p)
      · -- a piece other than `j`: one more number is seen
        obtain ⟨i, piece', hi, hij, hmsg⟩ := hown c List.mem_cons_self hk
        have hlt := (List.getElem?_eq_some_iff.mp hi).1
        have hltj := (List.getElem?_eq_some_iff.mp hj).1
        have hjs' : j ∉ i :: seen := by simpa [Ne.symm hij] using hjs
        have hstep : pushSlot (slotOf destination pieces seen t)
            (fragmentMessage s p destination pieces i piece') c.now =
              (slotOf destination pieces (i :: seen) c.now, .ok none) :=
          pushSlot_packetOf hle (by omega) hi hltj hjs'
        have hr₁ : r₁.packets.lookup (s, p) = slotOf destination pieces (i :: seen) c.now := by
          rw [← hk, hp.own, hk, hslot, hmsg, hstep]
        have hresult : result = .ok none := by
          rw [hp.result_eq, hk, hslot, hmsg, hstep]
        obtain ⟨r', results, r'', hrun, hres, hdone⟩ := ih hr₁ hjs' hown' (fun i' hi' hij' => by
            rcases hall i' hi' hij' with h | ⟨c', hc', piece'', hp'', hm''⟩
            · exact .inl (List.mem_cons_of_mem _ h)
            · rcases List.mem_cons.mp hc' with rfl | hc'
              · obtain rfl : i' = i := fragmentMessage_inj hle hp'' hi (hm''.symm.trans hmsg)
                exact .inl List.mem_cons_self
              · exact .inr ⟨c', hc', piece'', hp'', hm''⟩)
          (hroom.tail hc) (by simpa [Call.For, hk] using hlater)
        refine ⟨r', result :: results, r'', pushAll_cons_eq hc hrun, ?_, hdone⟩
        have hcons : resultsFor (s, p) (c :: calls) (result :: results) =
            result :: resultsFor (s, p) calls results := by
          simp [resultsFor, Call.For, hk]
        rw [hcons]
        exact List.forall_mem_cons.mpr ⟨hresult, hres⟩
      · -- another key's call leaves the entry as it is
        have hr₁ : r₁.packets.lookup (s, p) = slotOf destination pieces seen t := by
          rw [hp.other_of_room hroom.head (Ne.symm hk), hslot]
        obtain ⟨r', results, r'', hrun, hres, hdone⟩ := ih hr₁ hjs hown' (fun i' hi' hij' => by
            rcases hall i' hi' hij' with h | ⟨c', hc', piece'', hp'', hm''⟩
            · exact .inl h
            · rcases List.mem_cons.mp hc' with rfl | hc'
              · exact absurd (by rw [hm'']; rfl) hk
              · exact .inr ⟨c', hc', piece'', hp'', hm''⟩)
          (hroom.tail hc) (by simpa [Call.For, hk] using hlater)
        refine ⟨r', result :: results, r'', pushAll_cons_eq hc hrun, ?_, hdone⟩
        have hcons : resultsFor (s, p) (c :: calls) (result :: results) =
            resultsFor (s, p) calls results := by
          simp [resultsFor, Call.For, hk]
        rw [hcons]
        exact hres

end Delivery

/-- **Fragmentation, end to end.**  A packet has datagrams, they are within the limit and decode.
Given to the reassembler in any order, repeated, among calls for other keys, while the table has
room and the entry does not time out, each returns nothing before the last missing one, and that
one returns the packet. -/
theorem fragments_reassemble {s : UInt32} {p : UInt16} {destination : String}
    {payload : List UInt8} {limit : Nat} {datagrams : List (List UInt8)}
    (h : UdpMessage.encodeFragments s p destination payload limit = .ok datagrams) :
    datagrams ≠ [] ∧
    (∀ d ∈ datagrams, d.length ≤ limit ∧ ∃ m, UdpMessage.decode d = .ok m) ∧
    ∀ (r : UdpReassembler) (calls : List Call) (last : Call),
      r.packets.lookup (s, p) = none → Delivery datagrams (s, p) calls last →
      Roomy r calls → Fresh (s, p) none (calls ++ [last]) →
      ∃ r' results r'', pushAll r calls = .ok (r', results) ∧
        (∀ result ∈ resultsFor (s, p) calls results, result = .ok none) ∧
        pushAt last.it r' last.message last.now =
          .ok (r'', .ok (some (wholeMessage s p destination payload))) := by
  obtain ⟨pieces, hf, hlimit⟩ := encodeFragments_spec h
  have hpay : payload.length ≤ maxUdpSize := by
    rw [UdpMessage.encodeFragments] at h
    cases hv : validateMessage destination payload with
    | error e => rw [hv] at h; cases h
    | ok u => exact (validateMessage_ok_iff.mp hv).2.2
  refine ⟨?_, fun d hd => ⟨hlimit d hd, ?_⟩, fun r calls last hr hdel hroom hfresh => ?_⟩
  · exact List.ne_nil_of_length_pos (hf.length_datagrams ▸ hf.pieces_pos)
  · obtain ⟨i, piece, -, -, hdec⟩ := hf.decode hd
    exact ⟨_, hdec⟩
  -- the last call is the datagram numbered `j`
  obtain ⟨d, hd, hdlast⟩ := hdel.last_own
  obtain ⟨j, piece, hj, -, hdec⟩ := hf.decode hd
  have hlast : last.message = fragmentMessage s p destination pieces j piece :=
    Except.ok.inj (hdlast.symm.trans hdec)
  have hr₀ : r.packets.lookup (s, p) = slotOf destination pieces [] 0 := hr
  refine delivery_from hf.pieces_le hf.flatten_pieces hpay hj hlast calls hr₀ (by simp)
    (fun c hc hk => ?_) (fun i hi hij => .inr ?_) hroom hfresh
  · obtain ⟨d', hd', hdc⟩ := hdel.own c hc hk
    obtain ⟨i, piece', hi, -, hdec'⟩ := hf.decode hd'
    have hmsg : c.message = fragmentMessage s p destination pieces i piece' :=
      Except.ok.inj (hdc.symm.trans hdec')
    refine ⟨i, piece', hi, fun hij => hdel.missing c hc ?_, hmsg⟩
    subst hij
    cases hi.symm.trans hj
    rw [hmsg, hlast]
  · have hi' : i < datagrams.length := hf.length_datagrams ▸ hi
    have hdec' := decode_encodeFragment
      (hf.encoded (List.getElem?_eq_getElem hi) (List.getElem?_eq_getElem hi'))
    obtain ⟨c, hc, hdc⟩ := hdel.complete _ (List.getElem_mem hi')
    have hmsg : c.message = fragmentMessage s p destination pieces i pieces[i] :=
      Except.ok.inj (hdc.symm.trans hdec')
    rcases List.mem_append.mp hc with hc | hc
    · exact ⟨c, hc, pieces[i], List.getElem?_eq_getElem hi, hmsg⟩
    · obtain rfl := List.mem_singleton.mp hc
      exact absurd (fragmentMessage_inj hf.pieces_le (List.getElem?_eq_getElem hi) hj
        (hmsg.symm.trans hlast)) hij

/-- The two datagrams of three bytes at a limit of 14. -/
def twoDatagrams : List (List UInt8) :=
  [[0, 0, 0, 3, 0, 4, 0, 2, 3, 97, 58, 49, 7, 8], [0, 0, 0, 3, 0, 4, 1, 2, 3, 97, 58, 49, 9]]

/-- The second datagram twice, with a fragment of another packet in between. -/
def reversedCalls : List Call :=
  [⟨⟨3, 4, 1, 2, "a:1", [9]⟩, 0, .inOrder _ _⟩, ⟨⟨3, 5, 0, 2, "a:1", [1]⟩, 5, .inOrder _ _⟩,
    ⟨⟨3, 4, 1, 2, "a:1", [9]⟩, 6, .inOrder _ _⟩]

/-- The first datagram, just within the timeout. -/
def reversedLast : Call := ⟨⟨3, 4, 0, 2, "a:1", [7, 8]⟩, 10000000005, .inOrder _ _⟩

theorem fragments_reassemble_reversed :
    UdpMessage.encodeFragments 3 4 "a:1" [7, 8, 9] 14 = .ok twoDatagrams ∧
    Delivery twoDatagrams (3, 4) reversedCalls reversedLast ∧
    ∃ r' results r'', pushAll .empty reversedCalls = .ok (r', results) ∧
      (∀ result ∈ resultsFor (3, 4) reversedCalls results, result = .ok none) ∧
      pushAt reversedLast.it r' reversedLast.message reversedLast.now =
        .ok (r'', .ok (some (wholeMessage 3 4 "a:1" [7, 8, 9]))) := by
  have h : UdpMessage.encodeFragments 3 4 "a:1" [7, 8, 9] 14 = .ok twoDatagrams := by decide
  have hdel : Delivery twoDatagrams (3, 4) reversedCalls reversedLast :=
    ⟨by decide, by decide, by decide, by decide⟩
  refine ⟨h, hdel, (fragments_reassemble h).2.2 .empty reversedCalls reversedLast rfl hdel
    (roomy_of_length (by decide)) ?_⟩
  simp [Fresh, reversedCalls, reversedLast, Call.For, UdpMessage.key, reassemblyTimeout]

end SingBoxMini.Protocol
