import SingBoxMini.Salamander.RoundTrip
import Mathlib.Algebra.Order.BigOperators.Group.List

/-!
# Salamander — Datagrams

`decrypt_receive_batch` beside `salamander::decrypt` on every datagram by itself.  The buffers of a
batch are cut by their strides before the call and by the strides returned after it.

`datagrams_eq_iff` says when the two agree: always, except for

* a buffer in which a datagram with a payload is coalesced with one that has none, as all of it is
  dropped;
* a batch in which what stays does not fit in the dropped buffer it is copied to, which panics.
-/

namespace SingBoxMini.Salamander

/-- The datagrams of a buffer, which are in a row and of one length, but for the last one. -/
def RecvMeta.datagrams (source : RecvMeta) (buf : List UInt8) : List (List UInt8) :=
  Bytes.chunks source.sourceStride (buf.take source.len)

/-- The datagrams the caller reads after the call. -/
def Batch.datagrams (s : Batch) : List (List UInt8) :=
  ((s.metas.zip s.bufs).take s.target).flatMap fun e => e.1.datagrams e.2

section

variable (blake2b : List UInt8 → Vector UInt8 32) (password : List UInt8)

/-- **The reference**: the datagrams of a buffer that `salamander::decrypt` accepts, decrypted. -/
def decrypted (source : RecvMeta) (buf : List UInt8) : List (List UInt8) :=
  (source.datagrams buf).filterMap fun datagram => (decrypt blake2b password datagram).toOption

/-- A datagram with a payload and one without are coalesced. -/
def Mixed (source : RecvMeta) (buf : List UInt8) : Prop :=
  (∃ d ∈ source.datagrams buf, saltLength < d.length) ∧
    ∃ d ∈ source.datagrams buf, d.length ≤ saltLength

variable {blake2b password}
variable {source plainMeta : RecvMeta} {buf plain : List UInt8}

/-! ### One buffer -/

theorem toOption_decrypt_of_long {datagram : List UInt8} (h : saltLength < datagram.length) :
    (decrypt blake2b password datagram).toOption = some (payload blake2b password datagram) := by
  rw [decrypt, if_neg (Nat.not_le_of_lt h)]
  rfl

theorem toOption_decrypt_of_short {datagram : List UInt8} (h : datagram.length ≤ saltLength) :
    (decrypt blake2b password datagram).toOption = none := by
  rw [decrypt, if_pos h]
  rfl

/-- Only datagrams without a payload decrypt to nothing. -/
theorem decrypted_eq_nil_iff :
    decrypted blake2b password source buf = [] ↔
      ∀ d ∈ source.datagrams buf, d.length ≤ saltLength := by
  rw [decrypted, List.filterMap_eq_nil_iff]
  refine forall₂_congr fun d _ => ⟨fun h => ?_, toOption_decrypt_of_short⟩
  by_contra hlong
  rw [toOption_decrypt_of_long (Nat.lt_of_not_le hlong)] at h
  cases h

/-- Where all datagrams have a payload, all are decrypted. -/
theorem decrypted_of_long (h : ∀ d ∈ source.datagrams buf, saltLength < d.length) :
    decrypted blake2b password source buf =
      (source.datagrams buf).map (payload blake2b password) := by
  rw [decrypted, ← List.filterMap_eq_map]
  exact List.filterMap_congr fun d hd => toOption_decrypt_of_long (h d hd)

/-- **A buffer that stays**, cut by the stride it is returned with, is its datagrams, decrypted. -/
theorem datagrams_received (h : received blake2b password source buf = some (plainMeta, plain)) :
    plainMeta.datagrams plain = decrypted blake2b password source buf := by
  have hlength := (length_received blake2b password h).1
  rw [received_eq] at h
  split_ifs at h with hcond
  cases h
  have hstride : saltLength < source.sourceStride := by omega
  have htake : (buf.take source.len).length = source.len := List.length_take_of_le (by omega)
  have hlong : ∀ d ∈ source.datagrams buf, saltLength < d.length :=
    long_of_not_hasShortSegment htake (by tauto)
  have hreturned : RecvMeta.sourceStride { source with
      len := (plaintext blake2b password source.sourceStride (buf.take source.len)).length
      stride := source.sourceStride - saltLength } = source.sourceStride - saltLength :=
    if_neg (by simp only; omega)
  rw [decrypted_of_long hlong, RecvMeta.datagrams, hreturned, List.take_length, plaintext]
  -- each payload is shorter by the salt than the datagram it is from
  refine Bytes.chunks_flatten (by omega) (f := (· - saltLength)) _ (buf.take source.len) ?_ ?_
  · simp only [List.map_map]
    exact List.map_congr_left fun d _ => length_payload blake2b password d
  · intro d hd
    have hpayload := hlong d hd
    have hmax := Bytes.length_le_of_mem_chunks hd
    omega

/-- **A buffer that is dropped** has no datagram with a payload, or it has both kinds. -/
theorem mixed_of_received_eq_none (hlen : source.len ≤ buf.length)
    (h : received blake2b password source buf = none) :
    decrypted blake2b password source buf = [] ∨ Mixed source buf := by
  rw [decrypted_eq_nil_iff]
  by_cases hshort : ∀ d ∈ source.datagrams buf, d.length ≤ saltLength
  · exact .inl hshort
  · push Not at hshort
    obtain ⟨d, hd, hlong⟩ := hshort
    refine .inr ⟨⟨d, hd, hlong⟩, ?_⟩
    have hstride : ¬ source.sourceStride ≤ saltLength :=
      fun hle => absurd (Bytes.length_le_of_mem_chunks hd) (by omega)
    rw [received_eq] at h
    split_ifs at h with hcond
    exact (hasShortSegment_iff (List.length_take_of_le hlen)).mp
      ((hcond.resolve_left hstride).resolve_left (by omega))

/-- What of a buffer reaches the caller, datagram by datagram. -/
def delivers (blake2b : List UInt8 → Vector UInt8 32) (password : List UInt8) (source : RecvMeta)
    (buf : List UInt8) : List (List UInt8) :=
  (received blake2b password source buf).elim [] fun e => e.1.datagrams e.2

/-- A buffer with one kind of datagrams delivers what they decrypt to. -/
theorem delivers_of_not_mixed (hlen : source.len ≤ buf.length) (h : ¬ Mixed source buf) :
    delivers blake2b password source buf = decrypted blake2b password source buf := by
  rw [delivers]
  cases hreceived : received blake2b password source buf with
  | none => exact ((mixed_of_received_eq_none hlen hreceived).resolve_right h).symm
  | some e => exact datagrams_received hreceived

/-- A buffer with both kinds delivers nothing, though a datagram decrypts. -/
theorem delivers_of_mixed (hlen : source.len ≤ buf.length) (h : Mixed source buf) :
    delivers blake2b password source buf = [] ∧ decrypted blake2b password source buf ≠ [] := by
  obtain ⟨⟨d, hd, hlong⟩, hshort⟩ := h
  constructor
  · have hdropped := (hasShortSegment_iff (List.length_take_of_le hlen)).mpr hshort
    rw [delivers, received_eq, if_pos (.inr (.inr hdropped))]
    rfl
  · rw [Ne, decrypted_eq_nil_iff]
    exact fun hall => absurd (hall d hd) (Nat.not_le_of_lt hlong)

/-! ### The batch -/

variable {bufs : List (List UInt8)} {metas : List RecvMeta} {count : Nat} {s : Batch}

theorem flatMap_filterMap {α β γ : Type} (f : α → Option β) (g : β → List γ) (l : List α) :
    (l.filterMap f).flatMap g = l.flatMap fun x => (f x).elim [] g := by
  induction l with
  | nil => rfl
  | cons x l ih =>
      cases hx : f x with
      | none => simp [List.filterMap_cons_none hx, hx, ih]
      | some y => simp [List.filterMap_cons_some hx, hx, ih]

/-- **What the caller reads**, where the batch returns. -/
theorem Compacted.datagrams_eq (h : Compacted blake2b password bufs metas count s) :
    s.datagrams =
      ((metas.zip bufs).take count).flatMap fun e => delivers blake2b password e.1 e.2 := by
  have hread : s.datagrams = s.delivered.flatMap fun e => e.1.datagrams e.2 := by
    rw [Batch.datagrams, Batch.delivered, List.flatMap_map]
    exact List.flatMap_congr fun e _ => by
      rw [RecvMeta.datagrams, RecvMeta.datagrams, List.take_take, Nat.min_self]
  rw [hread, h.delivered, kept, flatMap_filterMap]
  rfl

theorem length_flatMap_lt {α β : Type} {l : List α} {f g : α → List β}
    (hle : ∀ x ∈ l, (f x).length ≤ (g x).length) {x : α} (hx : x ∈ l)
    (hlt : (f x).length < (g x).length) : (l.flatMap f).length < (l.flatMap g).length := by
  rw [List.length_flatMap, List.length_flatMap]
  exact List.sum_lt_sum _ _ hle ⟨x, hx, hlt⟩

/-- **When the batch is the datagrams one by one.**  For every password and hash, every batch and
all lengths within the buffers: the datagrams that are delivered are those which
`salamander::decrypt` accepts, decrypted and in order, exactly if no buffer has a datagram with a
payload beside one without, and what stays fits in the buffers at the front. -/
theorem datagrams_eq_iff (hbufs : count ≤ bufs.length) (hmetas : count ≤ metas.length)
    (hlen : ∀ e ∈ (metas.zip bufs).take count, e.1.len ≤ e.2.length) :
    (decryptReceiveBatch blake2b password count bufs metas).map Batch.datagrams =
        some (((metas.zip bufs).take count).flatMap fun e =>
          decrypted blake2b password e.1 e.2) ↔
      (∀ e ∈ (metas.zip bufs).take count, ¬ Mixed e.1 e.2) ∧
        Fits bufs (kept blake2b password bufs metas count) := by
  by_cases hfits : Fits bufs (kept blake2b password bufs metas count)
  · obtain ⟨s, hrun, hs⟩ := decryptReceiveBatch_eq blake2b password count hbufs hmetas hfits
    rw [hrun, Option.map_some, hs.datagrams_eq, Option.some.injEq, and_iff_left hfits]
    constructor
    · intro heq e he hmixed
      obtain ⟨hempty, hne⟩ := delivers_of_mixed (hlen e he) hmixed
      have hle : ∀ e ∈ (metas.zip bufs).take count, (delivers blake2b password e.1 e.2).length ≤
          (decrypted blake2b password e.1 e.2).length := by
        intro e he
        by_cases hmixed : Mixed e.1 e.2
        · rw [(delivers_of_mixed (hlen e he) hmixed).1]
          exact Nat.zero_le _
        · rw [delivers_of_not_mixed (hlen e he) hmixed]
      have hlt := length_flatMap_lt hle he (by
        rw [hempty]
        exact List.length_pos_iff.mpr hne)
      exact absurd (congrArg List.length heq) (Nat.ne_of_lt hlt)
    · exact fun hpure => List.flatMap_congr fun e he =>
        delivers_of_not_mixed (hlen e he) (hpure e he)
  · rw [decryptReceiveBatch_eq_none blake2b password count hbufs hmetas hfits, Option.map_none]
    simp [hfits]

end

/-! ### Two batches -/

/-- A datagram that is too short, two coalesced ones that are not, and an empty buffer. -/
theorem datagrams_eq_three_buffers :
    (decryptReceiveBatch sampleBlake2b [112, 119] 3
        [List.replicate 20 1, List.replicate 20 2, List.replicate 20 3]
        [sampleMeta 3 0, sampleMeta 19 10, sampleMeta 0 0]).map Batch.datagrams =
      some (((([sampleMeta 3 0, sampleMeta 19 10, sampleMeta 0 0] : List RecvMeta).zip
        [List.replicate 20 1, List.replicate 20 2, List.replicate 20 3]).take 3).flatMap fun e =>
          decrypted sampleBlake2b [112, 119] e.1 e.2) := by
  refine (datagrams_eq_iff (by decide) (by decide) (by decide)).mpr ⟨?_, ?_⟩
  · simp only [List.zip_cons_cons, List.zip_nil_right, List.take_succ_cons, List.take_zero,
      List.forall_mem_cons, Mixed]
    decide
  · exact fits_of_capacity (show ∀ b ∈ _, List.length b = 20 by decide) 3

/-- **A short datagram takes a valid one along.**  Of the two datagrams of this buffer
`salamander::decrypt` accepts the first; the batch delivers none. -/
theorem short_datagram_takes_another_along :
    (decryptReceiveBatch sampleBlake2b [112, 119] 1 [List.replicate 20 2]
        [sampleMeta 13 10]).map Batch.datagrams ≠
      some (((([sampleMeta 13 10] : List RecvMeta).zip [List.replicate 20 2]).take 1).flatMap
        fun e => decrypted sampleBlake2b [112, 119] e.1 e.2) := by
  decide

end SingBoxMini.Salamander
