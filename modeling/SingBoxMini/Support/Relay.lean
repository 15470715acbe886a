import Mathlib.Data.List.Basic
import Mathlib.Tactic.SplitIfs

/-!
# Support — Relay

One direction of a relay: bytes of a source are read a piece at a time, the piece is written by any
parts and counted once all of it is, and at the end of the source the stream that is written is
closed.  Some bytes, the front, may be written before those of the source.

* `Direction.Faithful`: what was written and what is pending are the front and the bytes that were
  read.  Reading, writing, closing and more of the source all keep it.
* `Direction.rank`: how far a direction whose source has ended is from its own end.
-/

namespace Relay

/-- A direction: the number of bytes read from the source, those not written yet of the piece that
was read last, the length that is counted for it, what was written and what was counted. -/
structure Direction where
  taken : Nat := 0
  pending : List UInt8 := []
  piece : Nat := 0
  sent : List UInt8 := []
  counted : Nat := 0
  closed : Bool := false
deriving DecidableEq

/-- What a direction can do next. -/
inductive Move where
  | read (n : Nat)
  | write (n : Nat)
  | close

/-- Bytes are written. -/
def Move.isWrite : Move → Bool
  | .write _ => true
  | _ => false

namespace Direction

/-- These bytes are to be written first, and count. -/
def put (bytes : List UInt8) : Direction := { pending := bytes, piece := bytes.length }

/-- The next `n` bytes of the source are read. -/
def read (d : Direction) (source : List UInt8) (n : Nat) : Option Direction :=
  if d.pending = [] ∧ d.closed = false ∧ 0 < n ∧ d.taken + n ≤ source.length then
    some { d with taken := d.taken + n, pending := (source.drop d.taken).take n, piece := n }
  else none

/-- `n` bytes are written. -/
def write (d : Direction) (n : Nat) : Option Direction :=
  if 0 < n ∧ n ≤ d.pending.length then
    some { d with
      pending := d.pending.drop n
      sent := d.sent ++ d.pending.take n
      counted := if n = d.pending.length then d.counted + d.piece else d.counted }
  else none

/-- The source has ended, and all of it is written. -/
def close (d : Direction) (source : List UInt8) (ended : Bool) : Option Direction :=
  if d.pending = [] ∧ d.closed = false ∧ ended = true ∧ d.taken = source.length then
    some { d with closed := true }
  else none

/-- A direction with a buffer of this size moves on. -/
def step (d : Direction) (source : List UInt8) (ended : Bool) (size : Nat) :
    Move → Option Direction
  | .read n => if n ≤ size then d.read source n else none
  | .write n => d.write n
  | .close => d.close source ended

/-- What has become of the front and of the source; `uncounted` bytes are not counted. -/
structure Faithful (front source : List UInt8) (ended : Bool) (uncounted : Nat) (d : Direction) :
    Prop where
  bytes : d.sent ++ d.pending = front ++ source.take d.taken
  taken : d.taken ≤ source.length
  counted : d.sent.length + d.pending.length =
    uncounted + d.counted + if d.pending = [] then 0 else d.piece
  piece : d.counted = 0 ∨ d.pending.length ≤ d.piece
  closed : d.closed = true → ended = true ∧ d.pending = [] ∧ d.taken = source.length

variable {front source : List UInt8} {ended : Bool} {uncounted n size : Nat} {d d' : Direction}
  {move : Move}

theorem faithful_put (bytes source : List UInt8) (ended : Bool) :
    (put bytes).Faithful bytes source ended 0 where
  bytes := by simp [put]
  taken := Nat.zero_le _
  counted := by
    by_cases h : bytes = [] <;> simp [put, h]
  piece := .inl rfl
  closed := nofun

/-- Bytes to be written first that are not counted. -/
theorem faithful_greet (bytes source : List UInt8) (ended : Bool) :
    Faithful bytes source ended bytes.length { pending := bytes } where
  bytes := by simp
  taken := Nat.zero_le _
  counted := by simp
  piece := .inl rfl
  closed := nofun

theorem Faithful.read (h : d.Faithful front source ended uncounted)
    (hread : d.read source n = some d') : d'.Faithful front source ended uncounted := by
  obtain ⟨⟨hnil, hopen, hpos, hle⟩, heq⟩ := Option.ite_none_right_eq_some.mp hread
  cases heq
  have hlength : ((source.drop d.taken).take n).length = n := by
    rw [List.length_take, List.length_drop]
    omega
  have hne : (source.drop d.taken).take n ≠ [] :=
    List.ne_nil_of_length_pos (Nat.lt_of_lt_of_eq hpos hlength.symm)
  have hcounted := h.counted
  rw [hnil, if_pos rfl, List.length_nil] at hcounted
  refine ⟨?_, hle, ?_, .inr (Nat.le_of_eq hlength), fun hclosed => by simp [hopen] at hclosed⟩
  · have hbytes := h.bytes
    rw [hnil, List.append_nil] at hbytes
    rw [hbytes, List.append_assoc, ← List.take_add]
  · simp only [if_neg hne, hlength]
    omega

theorem Faithful.write (h : d.Faithful front source ended uncounted)
    (hwrite : d.write n = some d') : d'.Faithful front source ended uncounted := by
  obtain ⟨⟨hpos, hle⟩, heq⟩ := Option.ite_none_right_eq_some.mp hwrite
  cases heq
  have hne : d.pending ≠ [] := List.ne_nil_of_length_pos (Nat.lt_of_lt_of_le hpos hle)
  have hcounted := h.counted
  rw [if_neg hne] at hcounted
  refine ⟨?_, h.taken, ?_, ?_, fun hclosed => absurd (h.closed hclosed).2.1 hne⟩
  · rw [List.append_assoc, List.take_append_drop, h.bytes]
  · simp only [List.length_append, List.length_take, List.length_drop, List.drop_eq_nil_iff]
    split_ifs <;> omega
  · simp only [List.length_drop]
    have := h.piece
    split_ifs <;> omega

theorem Faithful.close (h : d.Faithful front source ended uncounted)
    (hclose : d.close source ended = some d') : d'.Faithful front source ended uncounted := by
  obtain ⟨⟨hnil, -, hended, htaken⟩, heq⟩ := Option.ite_none_right_eq_some.mp hclose
  cases heq
  exact ⟨h.bytes, h.taken, h.counted, h.piece, fun _ => ⟨hended, hnil, htaken⟩⟩

/-- **Every move keeps it.** -/
theorem Faithful.step (h : d.Faithful front source ended uncounted)
    (hstep : d.step source ended size move = some d') :
    d'.Faithful front source ended uncounted := by
  cases move with
  | read n => exact h.read (Option.ite_none_right_eq_some.mp hstep).2
  | write n => exact h.write hstep
  | close => exact h.close hstep

/-- The source goes on. -/
theorem Faithful.more (h : d.Faithful front source false uncounted) (more : List UInt8) :
    d.Faithful front (source ++ more) false uncounted where
  bytes := by rw [h.bytes, List.take_append_of_le_length h.taken]
  taken := by
    rw [List.length_append]
    exact Nat.le_add_right_of_le h.taken
  counted := h.counted
  piece := h.piece
  closed hclosed := absurd (h.closed hclosed).1 (by decide)

theorem Faithful.finish (h : d.Faithful front source false uncounted) :
    d.Faithful front source true uncounted :=
  ⟨h.bytes, h.taken, h.counted, h.piece, fun hclosed => absurd (h.closed hclosed).1 (by decide)⟩

/-- **What is written** is the front and the source, up to a point. -/
theorem Faithful.sent_prefix (h : d.Faithful front source ended uncounted) :
    d.sent <+: front ++ source := by
  have hsent : d.sent <+: front ++ source.take d.taken := ⟨_, h.bytes⟩
  exact hsent.trans (List.prefix_append_right_inj front |>.mpr (List.take_prefix _ _))

/-- While some of the front is not written, it is pending. -/
theorem Faithful.pending_ne_nil (h : d.Faithful front source ended uncounted)
    (hlt : ¬ front.length ≤ d.sent.length) : d.pending ≠ [] := by
  intro hnil
  have hbytes := congrArg List.length h.bytes
  rw [hnil, List.append_nil, List.length_append] at hbytes
  omega

/-- **What is counted** is written. -/
theorem Faithful.counted_le (h : d.Faithful front source ended uncounted) :
    d.counted ≤ d.sent.length - uncounted := by
  have := h.counted
  have := h.piece
  split_ifs at * with hnil
  · rw [hnil, List.length_nil] at *
    omega
  · omega

/-- **What is written** is counted, but for one piece at most. -/
theorem Faithful.sent_le (h : d.Faithful front source ended uncounted) :
    d.sent.length ≤ uncounted + d.counted + d.piece := by
  have := h.counted
  split_ifs at this <;> omega

/-- Where there is no source, only the front is written, and nothing is counted. -/
theorem Faithful.of_no_source (h : d.Faithful front [] ended front.length) :
    d.sent <+: front ∧ d.counted = 0 := by
  have hsent := h.sent_prefix
  rw [List.append_nil] at hsent
  exact ⟨hsent, Nat.le_zero.mp (Nat.sub_eq_zero_of_le hsent.length_le ▸ h.counted_le)⟩

/-- **In the end** all of it is written, and counted. -/
theorem Faithful.of_closed (h : d.Faithful front source ended uncounted)
    (hclosed : d.closed = true) :
    ended = true ∧ d.sent = front ++ source ∧ d.sent.length = uncounted + d.counted := by
  obtain ⟨hended, hnil, htaken⟩ := h.closed hclosed
  have hbytes := h.bytes
  have hcounted := h.counted
  rw [hnil, List.append_nil, htaken, List.take_length] at hbytes
  rw [hnil, if_pos rfl] at hcounted
  exact ⟨hended, hbytes, hcounted⟩

/-! ### Coming to the end -/

/-- How far a direction whose source has ended is from its own end. -/
def rank (d : Direction) (source : List UInt8) : Nat :=
  2 * (source.length - d.taken) + d.pending.length + if d.closed then 0 else 1

/-- **Every move lowers it.** -/
theorem rank_step (h : d.step source ended size move = some d') :
    d'.rank source < d.rank source := by
  cases move with
  | read n =>
      obtain ⟨-, h⟩ := Option.ite_none_right_eq_some.mp h
      obtain ⟨⟨hnil, -, hpos, hle⟩, heq⟩ := Option.ite_none_right_eq_some.mp h
      cases heq
      simp only [rank, hnil, List.length_take, List.length_drop, List.length_nil]
      omega
  | write n =>
      obtain ⟨⟨hpos, hle⟩, heq⟩ := Option.ite_none_right_eq_some.mp h
      cases heq
      simp only [rank, List.length_drop]
      omega
  | close =>
      obtain ⟨⟨-, hopen, -⟩, heq⟩ := Option.ite_none_right_eq_some.mp h
      cases heq
      simp [rank, hopen]

/-- What is pending can be written. -/
theorem exists_write (h : d.pending ≠ []) : ∃ d', d.write 1 = some d' :=
  ⟨_, if_pos ⟨Nat.one_pos, List.length_pos_iff.mpr h⟩⟩

/-- **Until it is closed** a direction whose source has ended goes on. -/
theorem Faithful.goes_on (h : d.Faithful front source true uncounted) (hopen : d.closed = false)
    (hsize : 0 < size) : ∃ move d', d.step source true size move = some d' := by
  by_cases hnil : d.pending = []
  · have htaken := h.taken
    by_cases hall : d.taken = source.length
    · exact ⟨.close, _, if_pos ⟨hnil, hopen, rfl, hall⟩⟩
    · refine ⟨.read 1, _, (if_pos hsize).trans (if_pos ⟨hnil, hopen, Nat.one_pos, ?_⟩)⟩
      omega
  · exact ⟨.write 1, exists_write hnil⟩

end Direction

end Relay
