import Mathlib.Data.List.ReduceOption
import SingBoxMini.Protocol.UdpMessage
import SingBoxMini.Support.HashMap

/-!
# Protocol — Reassembler

`UdpReassembler::push_at` (`src/protocol/udp.rs`): the table of incomplete packets, one entry for
each session and packet id.  One call expires old entries, may evict the oldest one to make room,
opens or finds the message's entry, drops it when the message does not fit it, fills a slot, and
takes the packet out when no slot is empty.

`pushSlot` is what a call does to the message's own entry alone, as a function of that entry.
`pushAt_spec` is the one statement about `pushAt` the rest of the development uses: a call never
panics, its result and its own entry are `pushSlot`'s, and every other entry is kept unless it
expires or is the one victim of an eviction.

Time is in nanoseconds; `Instant::duration_since` is truncated at zero, as `Nat` subtraction is.
-/

namespace SingBoxMini.Protocol
open Bytes

/-- A session and a packet. -/
abbrev Key := UInt32 × UInt16

/-- `REASSEMBLY_TIMEOUT`, in nanoseconds. -/
def reassemblyTimeout : Nat := 10 * 1000000000
/-- `MAX_INCOMPLETE_PACKETS` -/
def maxIncompletePackets : Nat := 1024

/-- `PartialPacket` -/
structure PartialPacket where
  updatedAt : Nat
  destination : String
  fragments : List (Option (List UInt8))
  deriving DecidableEq, Repr

/-- An entry with the message's fragment in its slot. -/
def PartialPacket.fill (packet : PartialPacket) (message : UdpMessage) (now : Nat) :
    PartialPacket :=
  { packet with
    updatedAt := now
    fragments := packet.fragments.set message.fragmentId.toNat (some message.payload) }

/-- `UdpReassembler` -/
structure UdpReassembler where
  packets : HashMap Key PartialPacket

/-- The panics `push_at` could raise. -/
inductive Panic where
  | expect (message : String)
  | indexOutOfBounds (index length : Nat)
  deriving DecidableEq, Repr

/-- What a call of `push_at` returns. -/
abbrev PushResult := Except UdpCodecError (Option UdpMessage)

namespace UdpReassembler

/-- `UdpReassembler::default`. -/
def empty : UdpReassembler := ⟨∅⟩

/-- An entry that has not timed out at `now`. -/
def live (now : Nat) (packet : PartialPacket) : Bool := now - packet.updatedAt < reassemblyTimeout

/-- The entry to evict before opening one for `key`: the oldest, when the table is full. -/
def oldest (it : HashMap.Iter Key PartialPacket) (key : Key) (packets : HashMap Key PartialPacket) :
    Option Key :=
  if (packets.lookup key).isNone ∧ packets.len ≥ maxIncompletePackets then
    packets.minByKey it PartialPacket.updatedAt
  else none

/-- The table after the eviction. -/
def evict (it : HashMap.Iter Key PartialPacket) (key : Key) (packets : HashMap Key PartialPacket) :
    HashMap Key PartialPacket :=
  match oldest it key packets with
  | some victim => packets.erase victim
  | none => packets

/-- The entry a message opens. -/
def opened (message : UdpMessage) (now : Nat) : PartialPacket where
  updatedAt := now
  destination := message.destination
  fragments := List.replicate message.fragmentCount.toNat none

/-- `usize::checked_add`. -/
def checkedAdd (a b : Nat) : Option Nat := if a + b < 2 ^ 64 then some (a + b) else none

/-- The size of the assembled payload, if it is within the limit. -/
def payloadSize (fragments : List (Option (List UInt8))) : Option Nat :=
  (fragments.reduceOption.foldlM (fun total fragment => checkedAdd total fragment.length)
    0).filter (· ≤ maxUdpSize)

/-- The message a packet with no empty slot makes. -/
def assemble (key : Key) (packet : PartialPacket) : PushResult :=
  match payloadSize packet.fragments with
  | none => .error .payloadTooLarge
  | some _ =>
    .ok (some
      { sessionId := key.1
        packetId := key.2
        fragmentId := 0
        fragmentCount := 1
        destination := packet.destination
        payload := packet.fragments.reduceOption.flatten })

/-- `UdpReassembler::push_at`, with the iteration order of the call's `min_by_key`. -/
def pushAt (it : HashMap.Iter Key PartialPacket) (r : UdpReassembler) (message : UdpMessage)
    (now : Nat) : Except Panic (UdpReassembler × PushResult) :=
  let packets := r.packets.retain fun _ packet => live now packet
  if message.fragmentCount ≤ 1 then .ok (⟨packets⟩, .ok (some message))
  else if message.fragmentId ≥ message.fragmentCount then
    .ok (⟨packets⟩, .error .invalidFragment)
  else
    let key := message.key
    let packets := evict it key packets
    -- `entry(key).or_insert_with(..)`
    let packet := (packets.lookup key).getD (opened message now)
    if packet.destination ≠ message.destination
        ∨ packet.fragments.length ≠ message.fragmentCount.toNat then
      .ok (⟨packets.erase key⟩, .error .invalidFragment)
    else if packet.fragments.length ≤ message.fragmentId.toNat then
      .error (.indexOutOfBounds message.fragmentId.toNat packet.fragments.length)
    else
      let packet := packet.fill message now
      let packets := packets.insert key packet
      if packet.fragments.any Option.isNone then .ok (⟨packets⟩, .ok none)
      else
        match packets.lookup key with
        | none => .error (.expect "packet remains while assembling")
        | some packet => .ok (⟨packets.erase key⟩, assemble key packet)

end UdpReassembler

open UdpReassembler

/-! ### One call, at the message's own entry -/

/-- The entry and the message have the same destination and number of fragments. -/
def PartialPacket.Fits (packet : PartialPacket) (message : UdpMessage) : Prop :=
  packet.destination = message.destination ∧
    packet.fragments.length = message.fragmentCount.toNat

instance (packet : PartialPacket) (message : UdpMessage) : Decidable (packet.Fits message) :=
  inferInstanceAs (Decidable (_ ∧ _))

/-- A message that is one fragment of several, numbered within its count. -/
def UdpMessage.Fragment (message : UdpMessage) : Prop :=
  1 < message.fragmentCount ∧ message.fragmentId < message.fragmentCount

/-- What a call does to the entry of its message's key, and what it returns. -/
def pushSlot (slot : Option PartialPacket) (message : UdpMessage) (now : Nat) :
    Option PartialPacket × PushResult :=
  if message.fragmentCount ≤ 1 then (slot, .ok (some message))
  else if message.fragmentId ≥ message.fragmentCount then (slot, .error .invalidFragment)
  else
    let packet := slot.getD (opened message now)
    if ¬ packet.Fits message then (none, .error .invalidFragment)
    else if (packet.fill message now).fragments.any Option.isNone then
      (some (packet.fill message now), .ok none)
    else (none, assemble message.key (packet.fill message now))

/-- The entry under `key`, if it has not timed out at `now`. -/
def UdpReassembler.liveAt (r : UdpReassembler) (now : Nat) (key : Key) : Option PartialPacket :=
  (r.packets.lookup key).filter (live now)

/-- What one call does: its result and its own entry are `pushSlot`'s, every other entry is kept
unless it has timed out or is the call's victim, and there is a victim only when the table is full
and the call opens an entry. -/
structure Pushed (r : UdpReassembler) (message : UdpMessage) (now : Nat) (r' : UdpReassembler)
    (result : PushResult) (victim : Option Key) : Prop where
  result_eq : result = (pushSlot (r.liveAt now message.key) message now).2
  own : r'.packets.lookup message.key = (pushSlot (r.liveAt now message.key) message now).1
  other : ∀ k, k ≠ message.key →
    r'.packets.lookup k = if victim = some k then none else r.liveAt now k
  victim_spec : ∀ k, victim = some k →
    maxIncompletePackets ≤ r.packets.len ∧ r.liveAt now message.key = none ∧ message.Fragment
  len_le : r.packets.len ≤ maxIncompletePackets → r'.packets.len ≤ maxIncompletePackets
  len_le_succ : r'.packets.len ≤ r.packets.len + 1

/-! ### The eviction -/

variable {it : HashMap.Iter Key PartialPacket} {key : Key} {packets : HashMap Key PartialPacket}

/-- The victim is another entry of a full table that has none for `key`. -/
theorem oldest_eq_some {victim : Key} (h : oldest it key packets = some victim) :
    packets.lookup key = none ∧ maxIncompletePackets ≤ packets.len ∧ victim ∈ packets := by
  rw [oldest] at h
  split_ifs at h with hc
  exact ⟨Option.isNone_iff_eq_none.mp hc.1, hc.2, HashMap.mem_of_minByKey h⟩

theorem lookup_evict (it : HashMap.Iter Key PartialPacket) (key k : Key)
    (packets : HashMap Key PartialPacket) :
    (evict it key packets).lookup k =
      if oldest it key packets = some k then none else packets.lookup k := by
  rw [evict]
  cases oldest it key packets with
  | none => simp
  | some victim =>
      simp only [HashMap.lookup_erase_eq, Option.some.injEq, eq_comm]

/-- The entry of `key` itself is never the victim. -/
theorem lookup_evict_self (it : HashMap.Iter Key PartialPacket) (key : Key)
    (packets : HashMap Key PartialPacket) :
    (evict it key packets).lookup key = packets.lookup key := by
  rw [lookup_evict]
  split_ifs with h
  · exact (oldest_eq_some h).1.symm
  · rfl

theorem len_evict_le (it : HashMap.Iter Key PartialPacket) (key : Key)
    (packets : HashMap Key PartialPacket) : (evict it key packets).len ≤ packets.len := by
  rw [evict]
  split
  · exact HashMap.len_erase_le _ _
  · exact Nat.le_refl _

/-- The eviction makes room for the entry about to be opened. -/
theorem len_evict_lt (hlen : packets.len ≤ maxIncompletePackets) (hkey : packets.lookup key = none)
    : (evict it key packets).len < maxIncompletePackets := by
  rw [evict]
  cases h : oldest it key packets with
  | some victim =>
      have hmem := (oldest_eq_some h).2.2
      have hpos := HashMap.len_pos_of_mem hmem
      simp only [HashMap.len_erase_of_mem hmem]
      omega
  | none =>
      rw [oldest] at h
      split_ifs at h with hc
      · -- a full table has an oldest entry
        have h0 := HashMap.len_eq_zero_of_minByKey h
        rw [h0] at hc
        exact absurd hc.2 (by decide)
      · rw [hkey] at hc
        simp only [Option.isNone_none, true_and, not_le] at hc
        exact hc

/-- Storing the message's entry keeps the table within its capacity. -/
theorem len_insert_evict (hlen : packets.len ≤ maxIncompletePackets) (packet : PartialPacket) :
    HashMap.len ((evict it key packets).insert key packet) ≤ maxIncompletePackets := by
  cases h : packets.lookup key with
  | none =>
      have hnot : key ∉ evict it key packets :=
        AList.lookup_eq_none.mp ((lookup_evict_self it key packets).trans h)
      rw [HashMap.len_insert_of_not_mem _ hnot]
      exact len_evict_lt hlen h
  | some _ =>
      have hmem : key ∈ evict it key packets := by
        rw [← AList.lookup_isSome, lookup_evict_self, h]; rfl
      rw [HashMap.len_insert_of_mem _ hmem]
      exact Nat.le_trans (len_evict_le it key packets) hlen

theorem len_insert_le (packets : HashMap Key PartialPacket) (packet : PartialPacket) :
    HashMap.len (packets.insert key packet) ≤ packets.len + 1 := by
  by_cases h : key ∈ packets
  · rw [HashMap.len_insert_of_mem _ h]; omega
  · rw [HashMap.len_insert_of_not_mem _ h]

/-! ### One call -/

/-- A call that changes no entry but the expired ones. -/
theorem pushed_of_retain {r : UdpReassembler} {message : UdpMessage} {now : Nat}
    {result : PushResult}
    (h : pushSlot (r.liveAt now message.key) message now =
      (r.liveAt now message.key, result)) :
    Pushed r message now ⟨r.packets.retain fun _ packet => live now packet⟩ result none where
  result_eq := by rw [h]
  own := by rw [h]; exact HashMap.lookup_retain _ _ _
  other k _ := by rw [if_neg (by simp)]; exact HashMap.lookup_retain _ _ _
  victim_spec k hk := by cases hk
  len_le hlen := Nat.le_trans (HashMap.len_retain_le _ _) hlen
  len_le_succ := Nat.le_succ_of_le (HashMap.len_retain_le _ _)

/-- A call that makes room and then leaves the table with `packets'`, which differs from the
table with room at the message's own entry only. -/
theorem pushed_of_evict {r : UdpReassembler} {message : UdpMessage} {now : Nat}
    {packets' : HashMap Key PartialPacket} {result : PushResult} (hfrag : message.Fragment)
    (hresult : result = (pushSlot (r.liveAt now message.key) message now).2)
    (hown : packets'.lookup message.key =
      (pushSlot (r.liveAt now message.key) message now).1)
    (hother : ∀ k, k ≠ message.key → packets'.lookup k =
      (evict it message.key (r.packets.retain fun _ packet => live now packet)).lookup k)
    (hlen : r.packets.len ≤ maxIncompletePackets → packets'.len ≤ maxIncompletePackets)
    (hsucc : packets'.len ≤ r.packets.len + 1) :
    Pushed r message now ⟨packets'⟩ result
      (oldest it message.key (r.packets.retain fun _ packet => live now packet)) where
  result_eq := hresult
  own := hown
  other k hk := by
    rw [hother k hk, lookup_evict, HashMap.lookup_retain]; rfl
  victim_spec k hk := by
    obtain ⟨hnone, hfull, -⟩ := oldest_eq_some hk
    rw [HashMap.lookup_retain] at hnone
    exact ⟨Nat.le_trans hfull (HashMap.len_retain_le _ _), hnone, hfrag⟩
  len_le := hlen
  len_le_succ := hsucc

/-- **One call of `push_at`**: it returns, and does what `Pushed` says. -/
theorem pushAt_spec (it : HashMap.Iter Key PartialPacket) (r : UdpReassembler)
    (message : UdpMessage) (now : Nat) :
    ∃ r' result victim, pushAt it r message now = .ok (r', result) ∧
      Pushed r message now r' result victim := by
  rw [pushAt]
  by_cases hcount : message.fragmentCount ≤ 1
  · simp only [if_pos hcount]
    exact ⟨_, _, _, rfl, pushed_of_retain (by rw [pushSlot, if_pos hcount])⟩
  by_cases hid : message.fragmentId ≥ message.fragmentCount
  · simp only [if_neg hcount, if_pos hid]
    exact ⟨_, _, _, rfl, pushed_of_retain (by rw [pushSlot, if_neg hcount, if_pos hid])⟩
  simp only [if_neg hcount, if_neg hid]
  have hfrag : message.Fragment := ⟨UInt8.not_le.mp hcount, UInt8.not_le.mp hid⟩
  -- the entry found or opened is the one `pushSlot` starts from
  have hpacket : (evict it message.key
      (r.packets.retain fun _ packet => live now packet)).lookup message.key =
        r.liveAt now message.key := by
    rw [lookup_evict_self, HashMap.lookup_retain]; rfl
  have hlen : r.packets.len ≤ maxIncompletePackets →
      (r.packets.retain fun _ packet => live now packet).len ≤ maxIncompletePackets :=
    Nat.le_trans (HashMap.len_retain_le _ _)
  have hevict : (evict it message.key
      (r.packets.retain fun _ packet => live now packet)).len ≤ r.packets.len :=
    Nat.le_trans (len_evict_le _ _ _) (HashMap.len_retain_le _ _)
  rw [hpacket]
  have hslot := pushSlot.eq_1 (r.liveAt now message.key) message now
  rw [if_neg hcount, if_neg hid] at hslot
  set packet := (r.liveAt now message.key).getD (opened message now) with hp
  by_cases hfit : packet.Fits message
  · have hlt : message.fragmentId.toNat < message.fragmentCount.toNat :=
      UInt8.lt_iff_toNat_lt.mp hfrag.2
    simp only [hfit, not_true, if_false] at hslot
    rw [if_neg (by simp [hfit.1, hfit.2]), if_neg (by rw [hfit.2]; omega)]
    have herase : ∀ k, k ≠ message.key → ∀ m : HashMap Key PartialPacket,
        ((m.insert message.key (packet.fill message now)).erase message.key).lookup k =
          m.lookup k := fun k hk m => by
      rw [AList.lookup_erase_ne hk, AList.lookup_insert_ne hk]
    by_cases hany : (packet.fill message now).fragments.any Option.isNone
    · rw [if_pos hany] at hslot
      refine ⟨_, _, _, if_pos hany, pushed_of_evict hfrag (by rw [hslot]) (by rw [hslot]; simp)
        (fun k hk => AList.lookup_insert_ne hk) (fun h => len_insert_evict (hlen h) _)
        (Nat.le_trans (len_insert_le _ _) (Nat.succ_le_succ hevict))⟩
    · rw [if_neg hany] at hslot
      rw [if_neg hany]
      simp only [AList.lookup_insert]
      refine ⟨_, _, _, rfl, pushed_of_evict hfrag (by rw [hslot]) (by rw [hslot]; simp)
        (fun k hk => herase k hk _)
        (fun h => Nat.le_trans (HashMap.len_erase_le _ _) (len_insert_evict (hlen h) _))
        (Nat.le_trans (HashMap.len_erase_le _ _)
          (Nat.le_trans (len_insert_le _ _) (Nat.succ_le_succ hevict)))⟩
  · simp only [hfit, not_false_iff, if_true] at hslot
    rw [if_pos (by rw [PartialPacket.Fits] at hfit; tauto)]
    exact ⟨_, _, _, rfl, pushed_of_evict hfrag (by rw [hslot]) (by rw [hslot]; simp)
      (fun k hk => AList.lookup_erase_ne hk)
      (fun h => Nat.le_trans (HashMap.len_erase_le _ _) (Nat.le_trans hevict h))
      (Nat.le_trans (HashMap.len_erase_le _ _) (Nat.le_succ_of_le hevict))⟩

end SingBoxMini.Protocol
