import Mathlib.Data.List.Nodup
import SingBoxMini.Support.Relay
import SingBoxMini.Support.Runs
import SingBoxMini.Support.Tasks

/-!
# Server — Buffer pool

`copy_with_reused_buffer` and `RelayBuffer` (`server.rs`): the buffers of finished copies are kept
in a pool that all connections of the process share, and are used again as they are.

* A buffer is its position among all buffers ever made.  The pool has some of them; a call has the
  one it took until it drops it.
* A call may fail or be dropped wherever it waits, with any part of a piece written; the buffer goes
  back to the pool then too, unless the pool is full.

* `Call.Fine`: a call with its buffer is a direction of a relay (`Support.Relay`).
* `Sound`: no buffer is in two places, and each call with its own is fine.
* `relay_buffers_isolated`: so no byte gets from one connection to another through the pool.
-/

namespace SingBoxMini.Server.BufferPool
open Relay

/-- `RELAY_BUFFER_SIZE` -/
def relayBufferSize : Nat := 32 * 1024

/-- `MAX_POOLED_RELAY_BUFFERS` -/
def maxPooledRelayBuffers : Nat := 16

/-- A call of `copy_with_reused_buffer`: what its reader was sent and how much of that is read; the
length of the piece in the buffer and how much of that is written; what was written and counted,
whether the loop has ended, and its `RelayBuffer` until that is dropped. -/
structure Call where
  source : List UInt8 := []
  ended : Bool := false
  taken : Nat := 0
  length : Nat := 0
  written : Nat := 0
  sent : List UInt8 := []
  counted : Nat := 0
  closed : Bool := false
  buffer : Option Nat
deriving DecidableEq

/-- What the source of a call or the call does. -/
inductive CallAction where
  | sends (bytes : List UInt8)
  | ends
  | move (move : Move)

namespace Call

/-- A call that has taken a buffer. -/
def start (b : Nat) : Call := { buffer := some b }

/-- A call or its source goes on, with what is in the buffer. -/
def step (call : Call) (contents : List UInt8) : CallAction → Option (Call × List UInt8)
  | .sends bytes =>
    if call.ended then none else some ({ call with source := call.source ++ bytes }, contents)
  | .ends => if call.ended then none else some ({ call with ended := true }, contents)
  | .move (.read n) =>
    if call.written = call.length ∧ call.closed = false ∧ 0 < n ∧ n ≤ contents.length ∧
        call.taken + n ≤ call.source.length then
      some ({ call with taken := call.taken + n, length := n, written := 0 },
        (call.source.drop call.taken).take n ++ contents.drop n)
    else none
  | .move (.write n) =>
    if 0 < n ∧ call.written + n ≤ call.length then
      some ({ call with
        written := call.written + n
        sent := call.sent ++ (contents.drop call.written).take n
        counted := if call.written + n = call.length then call.counted + call.length
          else call.counted }, contents)
    else none
  | .move .close =>
    if call.written = call.length ∧ call.closed = false ∧ call.ended = true ∧
        call.taken = call.source.length then
      some ({ call with closed := true }, contents)
    else none

/-- The call as a direction of a relay. -/
def direction (call : Call) (contents : List UInt8) : Direction where
  taken := call.taken
  pending := (contents.drop call.written).take (call.length - call.written)
  piece := call.length
  sent := call.sent
  counted := call.counted
  closed := call.closed

/-- A call that has its buffer. -/
structure Fine (call : Call) (contents : List UInt8) : Prop where
  faithful : (call.direction contents).Faithful [] call.source call.ended 0
  size : contents.length = relayBufferSize
  fits : call.length ≤ relayBufferSize

/-- What a call has done with what it was sent. -/
structure Relayed (call : Call) : Prop where
  sent : call.sent <+: call.source
  counted : call.counted ≤ call.sent.length ∧ call.sent.length ≤ call.counted + relayBufferSize
  closed : call.closed = true →
    call.ended = true ∧ call.sent = call.source ∧ call.counted = call.source.length

variable {call call' : Call} {contents contents' : List UInt8}

theorem Fine.relayed (h : call.Fine contents) : call.Relayed := by
  have hfaithful := h.faithful
  refine ⟨hfaithful.sent_prefix, ⟨hfaithful.counted_le, ?_⟩, fun hclosed => ?_⟩
  · have hle : call.sent.length ≤ 0 + call.counted + call.length := hfaithful.sent_le
    exact Nat.le_trans (Nat.zero_add call.counted ▸ hle) (Nat.add_le_add_left h.fits _)
  · obtain ⟨hended, hsent, hcounted⟩ := hfaithful.of_closed hclosed
    have hsent : call.sent = call.source := hsent
    exact ⟨hended, hsent, hsent ▸ (hcounted.trans (Nat.zero_add _)).symm⟩

/-- **A call moves as a direction does.** -/
theorem direction_step {move : Move} (h : call.Fine contents)
    (hstep : call.step contents (.move move) = some (call', contents')) :
    (call.direction contents).step call.source call.ended relayBufferSize move =
      some (call'.direction contents') := by
  have hsize := h.size
  have hfits := h.fits
  cases move with
  | read n =>
      obtain ⟨⟨hdone, hopen, hpos, hroom, hle⟩, heq⟩ := Option.ite_none_right_eq_some.mp hstep
      cases heq
      have hlength : ((call.source.drop call.taken).take n).length = n := by
        rw [List.length_take, List.length_drop]
        omega
      have hpending : (call.direction contents).pending = [] := by simp [direction, hdone]
      rw [Direction.step, if_pos (hsize ▸ hroom), Direction.read,
        if_pos ⟨hpending, hopen, hpos, hle⟩]
      simp [direction, List.take_append_of_le_length (Nat.le_of_eq hlength.symm), List.take_take]
  | write n =>
      obtain ⟨⟨hpos, hle⟩, heq⟩ := Option.ite_none_right_eq_some.mp hstep
      cases heq
      have hlength : ((contents.drop call.written).take (call.length - call.written)).length =
          call.length - call.written := by
        rw [List.length_take, List.length_drop]
        omega
      have hlast : n = call.length - call.written ↔ call.written + n = call.length := by omega
      have htake : min n (call.length - call.written) = n := by omega
      rw [Direction.step, Direction.write]
      simp only [direction, hlength]
      rw [if_pos ⟨hpos, by omega⟩]
      simp only [List.drop_take, List.drop_drop, List.take_take, hlast, htake, Nat.sub_sub]
  | close =>
      obtain ⟨⟨hdone, hopen, hended, hall⟩, heq⟩ := Option.ite_none_right_eq_some.mp hstep
      cases heq
      have hpending : (call.direction contents).pending = [] := by simp [direction, hdone]
      exact if_pos ⟨hpending, hopen, hended, hall⟩

/-- **Every step of a call** keeps it, and its buffer. -/
theorem Fine.step {action : CallAction} (h : call.Fine contents)
    (hstep : call.step contents action = some (call', contents')) :
    call'.Fine contents' ∧ call'.buffer = call.buffer := by
  cases action with
  | sends bytes =>
      obtain ⟨hopen, heq⟩ := Option.ite_none_left_eq_some.mp hstep
      cases heq
      have hfaithful := h.faithful
      rw [Bool.eq_false_iff.mpr hopen] at hfaithful
      refine ⟨⟨?_, h.size, h.fits⟩, rfl⟩
      simp only [Bool.eq_false_iff.mpr hopen]
      exact hfaithful.more bytes
  | ends =>
      obtain ⟨hopen, heq⟩ := Option.ite_none_left_eq_some.mp hstep
      cases heq
      have hfaithful := h.faithful
      rw [Bool.eq_false_iff.mpr hopen] at hfaithful
      exact ⟨⟨hfaithful.finish, h.size, h.fits⟩, rfl⟩
  | move move =>
      have hfaithful := h.faithful.step (direction_step h hstep)
      have hsize := h.size
      cases move with
      | read n =>
          obtain ⟨⟨-, -, -, hroom, hle⟩, heq⟩ := Option.ite_none_right_eq_some.mp hstep
          cases heq
          refine ⟨⟨hfaithful, ?_, hsize ▸ hroom⟩, rfl⟩
          simp only [List.length_append, List.length_take, List.length_drop]
          omega
      | write n | close =>
          obtain ⟨-, heq⟩ := Option.ite_none_right_eq_some.mp hstep
          cases heq
          exact ⟨⟨hfaithful, hsize, h.fits⟩, rfl⟩

end Call

/-- Every buffer that was made, `RELAY_BUFFER_POOL`, and the calls. -/
structure State where
  buffers : List (List UInt8) := []
  pool : List Nat := []
  calls : List Call := []
deriving DecidableEq

/-- What can happen to the pool and the calls. -/
inductive Action where
  /-- A call begins: `RelayBuffer::take`. -/
  | take
  /-- A call or its source goes on. -/
  | act (i : Nat) (action : CallAction)
  /-- A call has returned or failed, or its future is dropped: `RelayBuffer::drop`. -/
  | release (i : Nat)

namespace State

/-- `pool.push`, if there is room. -/
def push (pool : List Nat) (b : Nat) : List Nat :=
  if pool.length < maxPooledRelayBuffers then pool ++ [b] else pool

/-- The step an action makes, if it is enabled. -/
def step (s : State) : Action → Option State
  | .take =>
    match s.pool.getLast? with
    | some b => some { s with pool := s.pool.dropLast, calls := s.calls ++ [Call.start b] }
    | none => some { s with
        buffers := s.buffers ++ [List.replicate relayBufferSize 0]
        calls := s.calls ++ [Call.start s.buffers.length] }
  | .act i action => do
    let call ← s.calls[i]?
    let b ← call.buffer
    let contents ← s.buffers[b]?
    let next ← call.step contents action
    some { s with buffers := s.buffers.set b next.2, calls := s.calls.set i next.1 }
  | .release i => do
    let call ← s.calls[i]?
    let b ← call.buffer
    some { s with pool := push s.pool b, calls := s.calls.set i { call with buffer := none } }

/-- The buffers that are in the pool or with a call. -/
def owned (s : State) : List Nat := s.pool ++ s.calls.filterMap Call.buffer

/-- **The invariant.** -/
structure Sound (s : State) : Prop where
  pooled : s.pool.length ≤ maxPooledRelayBuffers
  /-- No buffer is in two places, and all of them were made. -/
  nodup : s.owned.Nodup
  made : ∀ b ∈ s.owned, b < s.buffers.length
  sizes : ∀ contents ∈ s.buffers, contents.length = relayBufferSize
  held : ∀ {i : Nat} {call : Call} {b : Nat} {contents : List UInt8}, s.calls[i]? = some call →
    call.buffer = some b → s.buffers[b]? = some contents → call.Fine contents
  /-- What a call has done stays as it is once its buffer is dropped. -/
  dropped : ∀ {i : Nat} {call : Call}, s.calls[i]? = some call → call.buffer = none → call.Relayed

theorem sound_start : ({} : State).Sound :=
  ⟨Nat.zero_le _, List.nodup_nil, by simp [owned], by simp, by simp, by simp⟩

variable {s s' : State}

variable {i b : Nat} {call : Call}

theorem mem_owned (hcall : s.calls[i]? = some call) (hb : call.buffer = some b) : b ∈ s.owned :=
  List.mem_append_right _ (List.mem_filterMap.mpr ⟨call, List.mem_of_getElem? hcall, hb⟩)

/-- Two calls do not have one buffer. -/
theorem Sound.unique (h : s.Sound) {j : Nat} {other : Call} (hi : s.calls[i]? = some call)
    (hj : s.calls[j]? = some other) (hb : call.buffer = some b) (hb' : other.buffer = some b) :
    i = j := by
  have hpairs := List.pairwise_filterMap.mp (List.nodup_append.mp h.nodup).2.1
  obtain ⟨hilt, rfl⟩ := List.getElem?_eq_some_iff.mp hi
  obtain ⟨hjlt, rfl⟩ := List.getElem?_eq_some_iff.mp hj
  rw [List.pairwise_iff_getElem] at hpairs
  obtain hlt | heq | hgt := Nat.lt_trichotomy i j
  · exact absurd rfl (hpairs i j hilt hjlt hlt b hb b hb')
  · exact heq
  · exact absurd rfl (hpairs j i hjlt hilt hgt b hb' b hb)

/-- **A call begins** with a buffer that is in no other place. -/
theorem Sound.begin (h : s.Sound) (hfree : b ∉ s.owned) (hmade : b < s.buffers.length) :
    { s with calls := s.calls ++ [Call.start b] }.Sound := by
  have howned : owned { s with calls := s.calls ++ [Call.start b] } = s.owned ++ [b] := by
    simp [owned, Call.start]
  have hspawn := Tasks.getElem?_spawn s.calls (Call.start b)
  refine ⟨h.pooled, ?_, ?_, h.sizes, ?_, ?_⟩
  · rw [howned]
    exact List.nodup_append.mpr ⟨h.nodup, List.nodup_singleton b, fun c hc _ hb heq =>
      hfree (List.mem_singleton.mp hb ▸ heq ▸ hc)⟩
  · intro c hc
    rw [howned, List.mem_append, List.mem_singleton] at hc
    obtain hc | rfl := hc
    · exact h.made c hc
    · exact hmade
  · intro i call c contents hi hc hcontents
    rw [hspawn] at hi
    split_ifs at hi
    · cases hi
      have hput := Direction.faithful_put [] [] false
      have hsize := h.sizes contents (List.mem_of_getElem? hcontents)
      refine ⟨?_, hsize, Nat.zero_le _⟩
      simpa [Call.start, Call.direction, Direction.put] using hput
    · exact h.held hi hc hcontents
  · intro i call hi hnone
    rw [hspawn] at hi
    split_ifs at hi
    · cases hi
      cases hnone
    · exact h.dropped hi hnone

theorem Sound.take (h : s.Sound) (hstep : s.step .take = some s') : s'.Sound := by
  rw [State.step] at hstep
  split at hstep
  next b hlast =>
    cases hstep
    have hpool : s.pool.dropLast ++ [b] = s.pool := List.dropLast_append_getLast? b hlast
    -- the buffer leaves the pool, and no call has it yet
    have howned : s.owned.Perm (b :: owned { s with pool := s.pool.dropLast }) := by
      rw [owned, ← hpool, List.append_assoc]
      exact List.perm_middle.trans (by simp [owned])
    obtain ⟨hfree, hnodup⟩ := List.nodup_cons.mp (howned.nodup_iff.mp h.nodup)
    have hmade : ∀ c ∈ b :: owned { s with pool := s.pool.dropLast }, c < s.buffers.length :=
      fun c hc => h.made c (howned.mem_iff.mpr hc)
    have hpooled : s.pool.dropLast.length ≤ maxPooledRelayBuffers :=
      Nat.le_trans (List.dropLast_sublist _).length_le h.pooled
    have hpopped : { s with pool := s.pool.dropLast }.Sound :=
      ⟨hpooled, hnodup, fun c hc => hmade c (List.mem_cons_of_mem b hc), h.sizes, h.held, h.dropped⟩
    exact hpopped.begin hfree (hmade b List.mem_cons_self)
  · cases hstep
    have hmore : { s with
        buffers := s.buffers ++ [List.replicate relayBufferSize 0] }.Sound := by
      refine ⟨h.pooled, h.nodup, ?_, ?_, ?_, h.dropped⟩
      · intro b hb
        rw [List.length_append]
        exact Nat.lt_add_right _ (h.made b hb)
      · intro contents hmem
        obtain hmem | hmem := List.mem_append.mp hmem
        · exact h.sizes contents hmem
        · rw [List.mem_singleton.mp hmem]
          exact List.length_replicate
      · intro i call b contents hi hb hcontents
        rw [List.getElem?_append_left (h.made b (mem_owned hi hb))] at hcontents
        exact h.held hi hb hcontents
    refine hmore.begin (fun hmem => Nat.lt_irrefl _ (h.made _ hmem)) ?_
    rw [List.length_append]
    exact Nat.lt_succ_self _

theorem Sound.act (h : s.Sound) {action : CallAction} (hstep : s.step (.act i action) = some s') :
    s'.Sound := by
  obtain ⟨call, hcall, hstep⟩ := Option.bind_eq_some_iff.mp hstep
  obtain ⟨b, hb, hstep⟩ := Option.bind_eq_some_iff.mp hstep
  obtain ⟨contents, hcontents, hstep⟩ := Option.bind_eq_some_iff.mp hstep
  obtain ⟨⟨call', contents'⟩, hnext, hstep⟩ := Option.bind_eq_some_iff.mp hstep
  cases hstep
  obtain ⟨hfine, hbuffer⟩ := (h.held hcall hb hcontents).step hnext
  have howned : owned { s with
      buffers := s.buffers.set b contents', calls := s.calls.set i call' } = s.owned := by
    have hmap : (s.calls.set i call').map Call.buffer = s.calls.map Call.buffer := by
      refine List.ext_getElem? fun j => ?_
      rw [List.getElem?_map, List.getElem?_map, Tasks.getElem?_replace hcall]
      split_ifs with hij
      · subst hij
        simp [hcall, hbuffer]
      · rfl
    have hfilter := congrArg (List.filterMap id) hmap
    rw [List.filterMap_map, List.filterMap_map] at hfilter
    exact congrArg (s.pool ++ ·) hfilter
  refine ⟨h.pooled, howned ▸ h.nodup, ?_, ?_, ?_, ?_⟩
  · rw [howned, List.length_set]
    exact h.made
  · intro c hmem
    obtain hmem | rfl := List.mem_or_eq_of_mem_set hmem
    · exact h.sizes c hmem
    · exact hfine.size
  · intro j other c written hj hc hwritten
    rw [Tasks.getElem?_replace hcall] at hj
    split_ifs at hj with hij
    · cases hj
      cases hb.symm.trans (hbuffer.symm.trans hc)
      rw [List.getElem?_set_self (h.made b (mem_owned hcall hb))] at hwritten
      cases hwritten
      exact hfine
    · -- another call has another buffer
      have hne : b ≠ c := fun hbc => hij (h.unique hcall hj hb (hbc ▸ hc))
      rw [List.getElem?_set_ne hne] at hwritten
      exact h.held hj hc hwritten
  · intro j other hj hnone
    rcases Tasks.of_replace hcall hj with ⟨-, rfl⟩ | ⟨-, hj⟩
    · cases hb.symm.trans (hbuffer.symm.trans hnone)
    · exact h.dropped hj hnone

/-- A call drops its buffer. -/
theorem perm_filterMap_set {calls : List Call} (hcall : calls[i]? = some call)
    (hb : call.buffer = some b) :
    (calls.filterMap Call.buffer).Perm
      (b :: (calls.set i { call with buffer := none }).filterMap Call.buffer) := by
  induction calls generalizing i with
  | nil => cases hcall
  | cons first calls ih =>
      cases i with
      | zero =>
          cases hcall
          simp [hb]
      | succ i =>
          have hperm := ih hcall
          rw [List.set_cons_succ, List.filterMap_cons, List.filterMap_cons]
          cases first.buffer with
          | none => exact hperm
          | some c => exact (hperm.cons c).trans (List.Perm.swap b c _)

theorem Sound.release (h : s.Sound) (hstep : s.step (.release i) = some s') :
    s'.Sound := by
  obtain ⟨call, hcall, hstep⟩ := Option.bind_eq_some_iff.mp hstep
  obtain ⟨b, hb, hstep⟩ := Option.bind_eq_some_iff.mp hstep
  cases hstep
  have hlt := h.made b (mem_owned hcall hb)
  have hfine := h.held hcall hb (List.getElem?_eq_getElem hlt)
  have hperm : s.owned.Perm ((s.pool ++ [b]) ++
      (s.calls.set i { call with buffer := none }).filterMap Call.buffer) := by
    rw [List.append_assoc]
    exact (perm_filterMap_set hcall hb).append_left s.pool
  -- where the pool is full the buffer is gone
  have hpush : (push s.pool b).Sublist (s.pool ++ [b]) ∧
      (push s.pool b).length ≤ maxPooledRelayBuffers := by
    rw [push]
    split_ifs with hroom
    · refine ⟨List.Sublist.refl _, ?_⟩
      rw [List.length_append]
      exact hroom
    · exact ⟨List.sublist_append_left _ _, h.pooled⟩
  have hsub := hpush.1.append
    (List.Sublist.refl ((s.calls.set i { call with buffer := none }).filterMap Call.buffer))
  refine ⟨hpush.2, hsub.nodup (hperm.nodup_iff.mp h.nodup), ?_, h.sizes, ?_, ?_⟩
  · intro c hc
    exact h.made c (hperm.mem_iff.mpr (hsub.subset hc))
  · intro j other c contents hj hc hcontents
    rcases Tasks.of_replace hcall hj with ⟨-, rfl⟩ | ⟨-, hj⟩
    · cases hc
    · exact h.held hj hc hcontents
  · intro j other hj hnone
    rcases Tasks.of_replace hcall hj with ⟨-, rfl⟩ | ⟨-, hj⟩
    · exact ⟨hfine.relayed.sent, hfine.relayed.counted, hfine.relayed.closed⟩
    · exact h.dropped hj hnone

/-- **Every step keeps it.** -/
theorem Sound.step {action : Action} (h : s.Sound) (hstep : s.step action = some s') :
    s'.Sound := by
  cases action with
  | take => exact h.take hstep
  | act i action => exact h.act hstep
  | release i => exact h.release hstep

/-- The states of the process: calls begin, go on, are dropped and end in any order. -/
def Reachable (s : State) : Prop := Runs.Reaches step (fun _ _ => True) {} s

theorem Reachable.sound (h : s.Reachable) : s.Sound :=
  h.invariant sound_start fun _ _ _ hsound _ hstep => hsound.step hstep

end State

/-- **Nothing gets from one connection to another through the pool.**  However calls of all
connections begin, wait, fail, are dropped and end: a buffer is in the pool, once, or with one call;
and what a call has written is a prefix of what its reader was sent, all of it where the loop has
ended.  The bytes it has counted are those, but for one buffer at most. -/
theorem relay_buffers_isolated {s : State} (h : s.Reachable) :
    s.pool.length ≤ maxPooledRelayBuffers ∧ s.owned.Nodup ∧ ∀ call ∈ s.calls, call.Relayed := by
  have hsound := h.sound
  refine ⟨hsound.pooled, hsound.nodup, fun call hmem => ?_⟩
  obtain ⟨i, hi⟩ := List.mem_iff_getElem?.mp hmem
  cases hb : call.buffer with
  | none => exact hsound.dropped hi hb
  | some b =>
      have hlt := hsound.made b (State.mem_owned hi hb)
      exact (hsound.held hi hb (List.getElem?_eq_getElem hlt)).relayed

/-- A call is dropped with one of the two bytes it has read, and the next one has its buffer. -/
def handed : State where
  buffers := [65 :: 84 :: List.replicate (relayBufferSize - 2) 0]
  calls := [
    { source := [83, 84], taken := 2, length := 2, written := 1, sent := [83], buffer := none },
    { source := [65], ended := true, taken := 1, length := 1, written := 1, sent := [65],
      counted := 1, closed := true, buffer := some 0 }]

/-- What the two calls do once the first one has taken its buffer. -/
def handedActions : List Action :=
  [.act 0 (.sends [83, 84]), .act 0 (.move (.read 2)), .act 0 (.move (.write 1)), .release 0,
    .take, .act 1 (.sends [65]), .act 1 (.move (.read 1)), .act 1 (.move (.write 1)),
    .act 1 .ends, .act 1 (.move .close)]

/-- The byte that is left in the buffer is not sent. -/
theorem handed_isolated : handed.Reachable ∧ handed.owned = [0] ∧ handed.owned.Nodup ∧
    ∀ call ∈ handed.calls, call.Relayed := by
  have hsize : relayBufferSize = relayBufferSize - 2 + 2 := by decide
  have htake : State.Reachable
      { buffers := [List.replicate relayBufferSize 0], calls := [.start 0] } :=
    Runs.reaches_of_run [.take] .refl rfl
  rw [hsize, List.replicate_succ, List.replicate_succ] at htake
  -- what is behind the first bytes of the buffer does not matter
  have hrun : ∀ zeros, Runs.run (fun s a => if True then State.step s a else none)
      { buffers := [0 :: 0 :: zeros], calls := [.start 0] } handedActions =
      some { handed with buffers := [65 :: 84 :: zeros] } := fun _ => rfl
  have hreach : handed.Reachable := Runs.reaches_of_run handedActions htake (hrun _)
  obtain ⟨-, hnodup, hrelayed⟩ := relay_buffers_isolated hreach
  exact ⟨hreach, rfl, hnodup, hrelayed⟩

end SingBoxMini.Server.BufferPool
