import SingBoxMini.Outbound
import SingBoxMini.Salamander.Cipher
import SingBoxMini.Support.Slices

/-!
# Salamander — Socket

`encrypt_transmit` and `decrypt_receive_batch` (`salamander_socket.rs`), between QUIC and the UDP
socket.  A transmit is one datagram or several of one size in a row (segmentation offload), and so
is a buffer that was received.

`decrypt_receive_batch` works in place: in a buffer each payload is decrypted where it is and moved
left over the salts, and a buffer that stays is copied over those dropped before it.  Indexing,
slicing and copying out of bounds is `none`, a panic.

`received` says what a buffer gives without the copying: its datagrams, each through
`salamander::decrypt`, one after the other.  `decryptReceiveBatch_eq` is the refinement: where what
stays fits in the buffers at the front, as it does in buffers of one capacity, the batch does not
panic, and what it leaves at the front is what its buffers give, in order.
-/

namespace SingBoxMini.Salamander
open Outbound (SocketAddr)

/-! ### Transmits -/

/-- `quinn_udp::Transmit`, the fields `encrypt_transmit` reads.  A `usize` has 64 bits. -/
structure Transmit where
  contents : List UInt8
  segmentSize : Option UInt64
deriving DecidableEq

section Encrypt

variable (blake2b : List UInt8 → Vector UInt8 32) (password : List UInt8)

/-- The bytes of `encrypted` for the segment at an index. -/
def encryptSegment (salts : List UInt8) (segment : List UInt8) (index : Nat) : List UInt8 :=
  let salt := (salts.drop (index * saltLength)).take saltLength
  salt ++ applyKeystream blake2b password salt segment

/-- `encrypt_transmit`, with the bytes `getrandom::fill` gives or its error.  The sum with
`SALT_LENGTH` wraps around; a build with overflow checks panics there. -/
def encryptTransmit (transmit : Transmit) (random : Except String (Nat → UInt8)) :
    Except String (List UInt8 × Option UInt64) :=
  let sourceSegmentSize :=
    (transmit.segmentSize.map UInt64.toNat).getD transmit.contents.length
  if sourceSegmentSize = 0 then .error "empty Salamander UDP transmit"
  else
    let segmentCount := Bytes.divCeil transmit.contents.length sourceSegmentSize
    match random with
    | .error error => .error error
    | .ok random =>
      let salts := (List.range (segmentCount * saltLength)).map random
      let encrypted := (Bytes.chunks sourceSegmentSize transmit.contents).zipIdx.flatMap
        fun (segment, index) => encryptSegment blake2b password salts segment index
      .ok (encrypted, transmit.segmentSize.map (· + .ofNat saltLength))

end Encrypt

/-! ### Batches -/

/-- `quinn_udp::EcnCodepoint` -/
inductive EcnCodepoint where
  | ect0
  | ect1
  | ce
deriving DecidableEq

/-- `std::net::IpAddr` -/
inductive IpAddr where
  | v4 (ip : BitVec 32)
  | v6 (ip : BitVec 128)
deriving DecidableEq

/-- `quinn_udp::RecvMeta` -/
structure RecvMeta where
  addr : SocketAddr
  len : Nat
  stride : Nat
  ecn : Option EcnCodepoint
  dstIp : Option IpAddr
deriving DecidableEq

/-- `source_stride` -/
def RecvMeta.sourceStride (source : RecvMeta) : Nat :=
  if source.stride = 0 then source.len else source.stride

/-- The variables of `decrypt_receive_batch`. -/
structure Batch where
  bufs : List (List UInt8)
  metas : List RecvMeta
  target : Nat
deriving DecidableEq

section Decrypt

variable (blake2b : List UInt8 → Vector UInt8 32) (password : List UInt8)

/-- One segment of a buffer: its payload is decrypted and moved behind the `plain_length` bytes
there are. -/
def decryptSegment (stride len : Nat) (s : List UInt8 × Nat) (start : Nat) :
    Option (List UInt8 × Nat) := do
  let (buf, plainLength) := s
  let stop := min (start + stride) len
  let salt ← Slices.slice buf start (start + saltLength)
  let payloadStart := start + saltLength
  let buf ← Slices.modify buf payloadStart stop (applyKeystream blake2b password salt)
  let buf ← Slices.copyWithin buf payloadStart stop plainLength
  return (buf, plainLength + (stop - payloadStart))

/-- The loop over the segments of a buffer, with `plain_length`. -/
def decryptSegments (stride len : Nat) (buf : List UInt8) : Option (List UInt8 × Nat) :=
  (Slices.stepBy len stride).foldlM (decryptSegment blake2b password stride len) (buf, 0)

/-- Some segment has no payload. -/
def hasShortSegment (stride len : Nat) : Bool :=
  (Slices.stepBy len stride).any fun start => min (start + stride) len - start ≤ saltLength

/-- The buffer at `index` is copied over the one at `target`. -/
def moveTo (bufs : List (List UInt8)) (target index plainLength : Nat) :
    Option (List (List UInt8)) :=
  if target = index then some bufs
  else do
    let (targetBuffers, sourceBuffers) := bufs.splitAt index
    let targetBuffer ← targetBuffers[target]?
    let sourceBuffer ← sourceBuffers[0]?
    let plain ← Slices.slice sourceBuffer 0 plainLength
    let targetBuffer ← Slices.write targetBuffer 0 plain
    return bufs.set target targetBuffer

/-- One round of the loop over the buffers. -/
def decryptBuffer (s : Batch) (index : Nat) : Option Batch := do
  let sourceMeta ← s.metas[index]?
  let sourceStride := sourceMeta.sourceStride
  if sourceStride ≤ saltLength then return s
  let buf ← s.bufs[index]?
  if buf.length < sourceMeta.len then return s
  if hasShortSegment sourceStride sourceMeta.len then return s
  let (buf, plainLength) ← decryptSegments blake2b password sourceStride sourceMeta.len buf
  let plainMeta := { sourceMeta with len := plainLength, stride := sourceStride - saltLength }
  let bufs ← moveTo (s.bufs.set index buf) s.target index plainLength
  if s.target < s.metas.length then
    return ⟨bufs, s.metas.set s.target plainMeta, s.target + 1⟩
  else none

/-- `decrypt_receive_batch`, which returns `target`. -/
def decryptReceiveBatch (count : Nat) (bufs : List (List UInt8)) (metas : List RecvMeta) :
    Option Batch :=
  (List.range count).foldlM (decryptBuffer blake2b password) ⟨bufs, metas, 0⟩

/-- What the caller reads after the call: the first `len` bytes of the first `target` buffers. -/
def Batch.delivered (s : Batch) : List (RecvMeta × List UInt8) :=
  ((s.metas.zip s.bufs).take s.target).map fun (m, buf) => (m, buf.take m.len)

/-! ### What a buffer gives -/

/-- The payload of a datagram. -/
def payload (datagram : List UInt8) : List UInt8 :=
  applyKeystream blake2b password (datagram.take saltLength) (datagram.drop saltLength)

/-- **What a buffer gives**: nothing if the datagrams are too short for a salt or a byte after it,
and otherwise what they decrypt to, one after the other. -/
def received (source : RecvMeta) (buf : List UInt8) : Option (RecvMeta × List UInt8) :=
  if source.sourceStride ≤ saltLength ∨ buf.length < source.len then none
  else
    match (Bytes.chunks source.sourceStride (buf.take source.len)).mapM
        (decrypt blake2b password) with
    | .error _ => none
    | .ok plains => some ({ source with
        len := plains.flatten.length
        stride := source.sourceStride - saltLength }, plains.flatten)

theorem length_payload (datagram : List UInt8) :
    (payload blake2b password datagram).length = datagram.length - saltLength := by
  rw [payload, length_applyKeystream, List.length_drop]

/-- The payloads of the datagrams in a row, in a row. -/
def plaintext (stride : Nat) (data : List UInt8) : List UInt8 :=
  ((Bytes.chunks stride data).map (payload blake2b password)).flatten

/-! ### The segments of a buffer -/

variable {stride len : Nat}

/-- **One segment.**  The buffer is what was decrypted, a gap, the segment and the rest.  The
payload goes behind what was decrypted, the gap grows by the salt, and the rest stays. -/
theorem decryptSegment_append {start : Nat} {done gap c : List UInt8} (rest : List UInt8)
    (hstart : start = done.length + gap.length) (hc : saltLength < c.length)
    (hstop : min (start + stride) len = start + c.length) :
    ∃ gap', gap'.length = gap.length + saltLength ∧
      decryptSegment blake2b password stride len (done ++ gap ++ c ++ rest, done.length) start =
        some (done ++ payload blake2b password c ++ gap' ++ rest,
          done.length + (payload blake2b password c).length) := by
  have hsalt : (c.take saltLength).length = saltLength := List.length_take_of_le hc.le
  have hlength : (payload blake2b password c).length = (c.drop saltLength).length :=
    length_applyKeystream ..
  have hbody : (c.drop saltLength).length = c.length - saltLength := List.length_drop
  -- the three operations, each on the pieces of the buffer it sees
  have hread : Slices.slice (done ++ gap ++ c ++ rest) start (start + saltLength) =
      some (c.take saltLength) := by
    have h := Slices.slice_append (done ++ gap) (c.take saltLength) (c.drop saltLength ++ rest)
    rwa [← List.append_assoc, List.append_assoc (done ++ gap), List.take_append_drop, hsalt,
      List.length_append, ← hstart] at h
  have hmodify : Slices.modify (done ++ gap ++ c ++ rest) (start + saltLength) (start + c.length)
      (applyKeystream blake2b password (c.take saltLength)) =
        some (done ++ (gap ++ c.take saltLength) ++ payload blake2b password c ++ rest) := by
    have h := Slices.modify_append (x := c.drop saltLength)
      (f := applyKeystream blake2b password (c.take saltLength)) (by simp)
      (done ++ gap ++ c.take saltLength) rest
    rw [List.append_assoc (done ++ gap), List.take_append_drop, List.length_append,
      List.length_append, hsalt, hbody, ← hstart] at h
    rw [show start + c.length = start + saltLength + (c.length - saltLength) by omega, h]
    simp [payload]
  obtain ⟨gap', hgap', hcopy⟩ := Slices.copyWithin_append done (gap ++ c.take saltLength)
    (payload blake2b password c) rest
  rw [List.length_append, hsalt, hlength, hbody,
    show done.length + (gap.length + saltLength) = start + saltLength by omega,
    show start + saltLength + (c.length - saltLength) = start + c.length by omega] at hcopy
  refine ⟨gap', by rw [hgap', List.length_append, hsalt], ?_⟩
  simp only [decryptSegment, hstop, hread, hmodify, hcopy, Option.bind_eq_bind, Option.bind_some,
    Option.pure_def, hlength, hbody]
  congr 3
  omega

/-- **The loop over the segments.**  All payloads go behind what was decrypted, in order. -/
theorem foldlM_decryptSegment (hstride : 0 < stride) (tail : List UInt8) : ∀ rest, rest ≠ [] →
    ∀ (done gap : List UInt8) (start : Nat), start = done.length + gap.length →
      len = start + rest.length → (∀ c ∈ Bytes.chunks stride rest, saltLength < c.length) →
      ∃ gap', (plaintext blake2b password stride rest).length + gap'.length =
          gap.length + rest.length ∧
        (List.range' start (Bytes.divCeil rest.length stride) stride).foldlM
          (decryptSegment blake2b password stride len) (done ++ gap ++ rest ++ tail, done.length) =
        some (done ++ plaintext blake2b password stride rest ++ gap' ++ tail,
          done.length + (plaintext blake2b password stride rest).length) := by
  refine Bytes.chunks_induction hstride ?_ ?_
  · intro c hne hle done gap start hstart hlen hlong
    have hcount := Bytes.length_chunks stride c
    rw [Bytes.chunks_of_length_le hne hle] at hcount hlong
    have hpos := hlong c List.mem_cons_self
    have hstop : min (start + stride) len = start + c.length := by omega
    have hplain : plaintext blake2b password stride c = payload blake2b password c := by
      simp [plaintext, Bytes.chunks_of_length_le hne hle]
    obtain ⟨gap', hgap', hstep⟩ := decryptSegment_append blake2b password tail hstart hpos hstop
    rw [hplain]
    refine ⟨gap', by rw [length_payload, hgap']; omega, ?_⟩
    rw [← hcount, List.length_singleton, List.range'_one, List.foldlM_cons, hstep]
    rfl
  · intro c rest hc hne ih done gap start hstart hlen hlong
    rw [List.length_append] at hlen
    rw [Bytes.chunks_append hstride hc] at hlong
    have hpos := hlong c List.mem_cons_self
    have hstop : min (start + stride) len = start + c.length := by omega
    have hplain : plaintext blake2b password stride (c ++ rest) =
        payload blake2b password c ++ plaintext blake2b password stride rest := by
      simp [plaintext, Bytes.chunks_append hstride hc]
    obtain ⟨gap₁, hgap₁, hstep⟩ := decryptSegment_append blake2b password (rest ++ tail) hstart
      hpos hstop
    have hpayload := length_payload blake2b password c
    have hnext : start + stride =
        (done ++ payload blake2b password c).length + gap₁.length := by
      rw [List.length_append, hpayload, hgap₁]
      omega
    obtain ⟨gap', hgap', hloop⟩ := ih _ gap₁ (start + stride) hnext (by omega)
      fun c' hc' => hlong c' (List.mem_cons_of_mem c hc')
    rw [hplain]
    refine ⟨gap', ?_, ?_⟩
    · simp only [List.length_append]
      omega
    · rw [List.length_append, hc, Bytes.divCeil_add hstride, List.range'_succ, List.foldlM_cons,
        ← List.append_assoc _ c, List.append_assoc _ rest, hstep, Option.bind_eq_bind,
        Option.bind_some, ← List.length_append, ← List.append_assoc _ rest, hloop]
      simp [Nat.add_assoc]

variable {buf plain : List UInt8} {source plainMeta : RecvMeta} {bufs : List (List UInt8)}
  {index : Nat} {s : Batch}

/-- **The segments of a buffer** whose datagrams all have a payload: the plaintext is at the front,
and the buffer keeps its length. -/
theorem decryptSegments_eq (hstride : 0 < stride) (hlen : len ≤ buf.length)
    (hlong : ∀ c ∈ Bytes.chunks stride (buf.take len), saltLength < c.length) :
    ∃ rest, (plaintext blake2b password stride (buf.take len) ++ rest).length = buf.length ∧
      decryptSegments blake2b password stride len buf =
        some (plaintext blake2b password stride (buf.take len) ++ rest,
          (plaintext blake2b password stride (buf.take len)).length) := by
  have htake : (buf.take len).length = len := List.length_take_of_le hlen
  by_cases hne : buf.take len = []
  · have hzero : len = 0 := by rw [← htake, hne, List.length_nil]
    subst hzero
    exact ⟨buf, by simp [plaintext], by simp [decryptSegments, Slices.stepBy, plaintext]⟩
  · have hsplit : len = 0 + (buf.take len).length := by omega
    obtain ⟨gap, hgap, hloop⟩ := foldlM_decryptSegment blake2b password hstride (buf.drop len) _
      hne [] [] 0 rfl hsplit hlong
    refine ⟨gap ++ buf.drop len, ?_, ?_⟩
    · simp only [List.length_append, List.length_drop, List.length_nil] at hgap ⊢
      omega
    · simpa [decryptSegments, Slices.stepBy, htake] using hloop

/-! ### One buffer -/

/-- The check over the starts is one over the datagrams. -/
theorem hasShortSegment_iff {data : List UInt8} (hlen : data.length = len) :
    hasShortSegment stride len = true ↔
      ∃ c ∈ Bytes.chunks stride data, c.length ≤ saltLength := by
  have hlength : ∀ start, ((data.drop start).take stride).length =
      min (start + stride) len - start := by
    intro start
    rw [List.length_take, List.length_drop, hlen]
    omega
  simp only [hasShortSegment, Slices.chunks_eq_stepBy, hlen, List.any_eq_true, List.mem_map,
    decide_eq_true_eq, exists_exists_and_eq_and, hlength]

theorem long_of_not_hasShortSegment {data : List UInt8} (hlen : data.length = len)
    (h : ¬ hasShortSegment stride len = true) :
    ∀ c ∈ Bytes.chunks stride data, saltLength < c.length :=
  fun c hc => Nat.lt_of_not_le fun hle => h ((hasShortSegment_iff hlen).mpr ⟨c, hc, hle⟩)

/-- Datagrams that all have a payload are decrypted to their payloads. -/
theorem mapM_decrypt_of_long (datagrams : List (List UInt8))
    (h : ∀ d ∈ datagrams, saltLength < d.length) :
    datagrams.mapM (decrypt blake2b password) = .ok (datagrams.map (payload blake2b password)) := by
  induction datagrams with
  | nil => rfl
  | cons d datagrams ih =>
      have hd := h d List.mem_cons_self
      rw [List.mapM_cons, ih fun d' hd' => h d' (List.mem_cons_of_mem d hd'), decrypt,
        if_neg (by omega)]
      rfl

/-- A datagram without a payload is an error. -/
theorem mapM_decrypt_of_short (datagrams : List (List UInt8))
    (h : ∃ d ∈ datagrams, d.length ≤ saltLength) :
    datagrams.mapM (decrypt blake2b password) = .error .truncated := by
  induction datagrams with
  | nil =>
      obtain ⟨d, hd, -⟩ := h
      cases hd
  | cons d datagrams ih =>
      rw [List.mapM_cons]
      by_cases hd : d.length ≤ saltLength
      · rw [decrypt, if_pos hd]
        rfl
      · obtain ⟨d', hd', hshort⟩ := h
        have hrest : d' ∈ datagrams :=
          (List.mem_cons.mp hd').resolve_left fun heq => hd (heq ▸ hshort)
        rw [decrypt, if_neg hd, ih ⟨d', hrest, hshort⟩]
        rfl

/-- What a buffer gives, by the checks of the source. -/
theorem received_eq (source : RecvMeta) (buf : List UInt8) :
    received blake2b password source buf =
      if source.sourceStride ≤ saltLength ∨ buf.length < source.len ∨
          hasShortSegment source.sourceStride source.len then none
      else
        let plain := plaintext blake2b password source.sourceStride (buf.take source.len)
        some ({ source with len := plain.length, stride := source.sourceStride - saltLength },
          plain) := by
  rw [received]
  by_cases hstride : source.sourceStride ≤ saltLength
  · rw [if_pos (.inl hstride), if_pos (.inl hstride)]
  by_cases hlen : buf.length < source.len
  · rw [if_pos (.inr hlen), if_pos (.inr (.inl hlen))]
  have htake : (buf.take source.len).length = source.len := List.length_take_of_le (by omega)
  rw [if_neg (by tauto)]
  by_cases hshort : hasShortSegment source.sourceStride source.len = true
  · rw [mapM_decrypt_of_short _ _ _ ((hasShortSegment_iff htake).mp hshort),
      if_pos (.inr (.inr hshort))]
  · rw [mapM_decrypt_of_long _ _ _ (long_of_not_hasShortSegment htake hshort), if_neg (by tauto)]
    rfl

/-- What a buffer gives is no longer than the buffer, and its length is the one it comes with. -/
theorem length_received (h : received blake2b password source buf = some (plainMeta, plain)) :
    plainMeta.len = plain.length ∧ plain.length ≤ buf.length := by
  rw [received_eq] at h
  split_ifs at h with hcond
  cases h
  refine ⟨rfl, ?_⟩
  have hlen : source.len ≤ buf.length := by omega
  have hstride : 0 < source.sourceStride := by omega
  have hlong : ∀ c ∈ Bytes.chunks source.sourceStride (buf.take source.len),
      saltLength < c.length :=
    long_of_not_hasShortSegment (List.length_take_of_le hlen) (by tauto)
  obtain ⟨rest, hrest, -⟩ := decryptSegments_eq blake2b password hstride hlen hlong
  rw [← hrest, List.length_append]
  exact Nat.le_add_right _ _

/-- Replacing a buffer by one of its length. -/
theorem map_length_set {buf' : List UInt8} (hget : bufs[index]? = some buf)
    (hlen : buf'.length = buf.length) :
    (bufs.set index buf').map List.length = bufs.map List.length := by
  obtain ⟨hlt, rfl⟩ := List.getElem?_eq_some_iff.mp hget
  rw [List.map_set, hlen, ← List.getElem_map List.length (h := by simpa using hlt),
    List.set_getElem_self]

/-- **Copying over a dropped buffer** with room for the plaintext. -/
theorem moveTo_eq {target : Nat} {rest : List UInt8} (hle : target ≤ index)
    (hget : bufs[index]? = some (plain ++ rest))
    (hfits : ∀ b ∈ bufs[target]?, plain.length ≤ b.length) :
    ∃ rest', (bufs.set target (plain ++ rest')).map List.length = bufs.map List.length ∧
      moveTo bufs target index plain.length = some (bufs.set target (plain ++ rest')) := by
  rw [moveTo]
  by_cases heq : target = index
  · subst heq
    refine ⟨rest, map_length_set hget rfl, ?_⟩
    obtain ⟨hlt, hval⟩ := List.getElem?_eq_some_iff.mp hget
    rw [if_pos rfl, ← hval, List.set_getElem_self]
  · have hlt : target < bufs.length := by
      have := (List.getElem?_eq_some_iff.mp hget).1
      omega
    have htarget : bufs[target]? = some bufs[target] := List.getElem?_eq_getElem hlt
    have hroom := hfits _ htarget
    refine ⟨bufs[target].drop plain.length, map_length_set htarget (by simp; omega), ?_⟩
    have hslice : Slices.slice (plain ++ rest) 0 plain.length = some plain := by
      simpa using Slices.slice_append [] plain rest
    have hwrite : Slices.write bufs[target] 0 plain =
        some (plain ++ bufs[target].drop plain.length) := by
      rw [Slices.write, if_pos (by omega)]
      simp
    have hfirst : (bufs.take index)[target]? = some bufs[target] := by
      rw [List.getElem?_take_of_lt (by omega), htarget]
    have hsecond : (bufs.drop index)[0]? = some (plain ++ rest) := by
      rw [List.getElem?_drop, Nat.add_zero, hget]
    simp only [if_neg heq, List.splitAt_eq, hfirst, hsecond, hslice, hwrite, Option.bind_eq_bind,
      Option.bind_some, Option.pure_def]

/-- Copying over a buffer without room is a panic. -/
theorem moveTo_eq_none {target : Nat} {rest b : List UInt8} (hlt : target < index)
    (hget : bufs[index]? = some (plain ++ rest)) (htarget : bufs[target]? = some b)
    (hshort : b.length < plain.length) :
    moveTo bufs target index plain.length = none := by
  have hslice : Slices.slice (plain ++ rest) 0 plain.length = some plain := by
    simpa using Slices.slice_append [] plain rest
  have hwrite : Slices.write b 0 plain = none := by
    rw [Slices.write, if_neg (by omega)]
  have hfirst : (bufs.take index)[target]? = some b := by
    rw [List.getElem?_take_of_lt hlt, htarget]
  have hsecond : (bufs.drop index)[0]? = some (plain ++ rest) := by
    rw [List.getElem?_drop, Nat.add_zero, hget]
  simp only [moveTo, if_neg (Nat.ne_of_lt hlt), List.splitAt_eq, hfirst, hsecond, hslice, hwrite,
    Option.bind_eq_bind, Option.bind_some, Option.bind_none]

theorem decryptBuffer_of_none (hmeta : s.metas[index]? = some source)
    (hbuf : s.bufs[index]? = some buf) (h : received blake2b password source buf = none) :
    decryptBuffer blake2b password s index = some s := by
  rw [received_eq] at h
  simp only [decryptBuffer, hmeta, hbuf, Option.bind_eq_bind, Option.bind_some, Option.pure_def]
  split_ifs at h ⊢ with hcond
  all_goals first | rfl | tauto

/-- **A buffer that stays** is decrypted where it is and moved to `target`. -/
theorem decryptBuffer_of_some (hmeta : s.metas[index]? = some source)
    (hbuf : s.bufs[index]? = some buf)
    (h : received blake2b password source buf = some (plainMeta, plain)) (hle : s.target ≤ index) :
    ∃ rest, (plain ++ rest).length = buf.length ∧
      decryptBuffer blake2b password s index =
        (moveTo (s.bufs.set index (plain ++ rest)) s.target index plain.length).map fun bufs =>
          ⟨bufs, s.metas.set s.target plainMeta, s.target + 1⟩ := by
  rw [received_eq] at h
  split_ifs at h with hcond
  obtain ⟨hstride, hlen, hshort⟩ : ¬ source.sourceStride ≤ saltLength ∧
      ¬ buf.length < source.len ∧ ¬ hasShortSegment source.sourceStride source.len = true := by
    tauto
  cases h
  have htake : (buf.take source.len).length = source.len := List.length_take_of_le (by omega)
  obtain ⟨rest, hrest, hsegments⟩ := decryptSegments_eq blake2b password (by omega)
    (Nat.le_of_not_lt hlen) (long_of_not_hasShortSegment htake hshort)
  obtain ⟨hmetas, -⟩ := List.getElem?_eq_some_iff.mp hmeta
  refine ⟨rest, hrest, ?_⟩
  simp only [decryptBuffer, hmeta, hbuf, hsegments, Option.bind_eq_bind, Option.bind_some,
    Option.pure_def, if_neg hstride, if_neg hlen, if_neg hshort, if_pos (hle.trans_lt hmetas),
    Option.map_eq_bind]
  rfl

/-- A buffer that stays comes after those delivered. -/
theorem delivered_push {buf' rest' : List UInt8} (hlen : plainMeta.len = plain.length)
    (hle : s.target ≤ index) (hbufs : index < s.bufs.length) (hmetas : index < s.metas.length) :
    Batch.delivered ⟨(s.bufs.set index buf').set s.target (plain ++ rest'),
        s.metas.set s.target plainMeta, s.target + 1⟩ =
      s.delivered ++ [(plainMeta, plain)] := by
  have htake : ((s.metas.set s.target plainMeta).zip
      ((s.bufs.set index buf').set s.target (plain ++ rest'))).take s.target =
        (s.metas.zip s.bufs).take s.target := by
    simp only [List.zip, List.take_zipWith, List.take_set_of_le le_rfl, List.take_set_of_le hle]
  have hlast : ((s.metas.set s.target plainMeta).zip
      ((s.bufs.set index buf').set s.target (plain ++ rest')))[s.target]? =
        some (plainMeta, plain ++ rest') := by
    rw [List.getElem?_zip_eq_some]
    constructor
    · exact List.getElem?_set_self (by omega)
    · exact List.getElem?_set_self (by simp; omega)
  rw [Batch.delivered, List.take_add_one, htake, hlast, List.map_append, Batch.delivered]
  simp [hlen]

/-! ### The batch -/

/-- What the first buffers of a batch give. -/
def kept (bufs : List (List UInt8)) (metas : List RecvMeta) (index : Nat) :
    List (RecvMeta × List UInt8) :=
  ((metas.zip bufs).take index).filterMap fun e => received blake2b password e.1 e.2

/-- **Room at the front**: what stays fits in the buffer it is copied to. -/
def Fits (bufs : List (List UInt8)) (kept : List (RecvMeta × List UInt8)) : Prop :=
  ∀ k : Nat, ∀ e ∈ kept[k]?, ∀ b ∈ bufs[k]?, e.2.length ≤ b.length

/-- The batch after `index` buffers: the later ones are as they were, and what is at the front is
what the earlier ones give. -/
structure Compacted (bufs : List (List UInt8)) (metas : List RecvMeta) (index : Nat)
    (s : Batch) : Prop where
  bufs_length : s.bufs.map List.length = bufs.map List.length
  metas_length : s.metas.length = metas.length
  target_le : s.target ≤ index
  target_eq : s.target = (kept blake2b password bufs metas index).length
  later_bufs : ∀ j, index ≤ j → s.bufs[j]? = bufs[j]?
  later_metas : ∀ j, index ≤ j → s.metas[j]? = metas[j]?
  delivered : s.delivered = kept blake2b password bufs metas index

section Batch

variable {blake2b password}
variable {bufs : List (List UInt8)} {metas : List RecvMeta} {index : Nat} {s : Batch}

/-- One more buffer. -/
theorem kept_succ (hbufs : index < bufs.length) (hmetas : index < metas.length) :
    kept blake2b password bufs metas (index + 1) =
      kept blake2b password bufs metas index ++
        (received blake2b password metas[index] bufs[index]).toList := by
  have hnext : (metas.zip bufs).take (index + 1) =
      (metas.zip bufs).take index ++ [(metas[index], bufs[index])] := by
    rw [List.take_succ_eq_append_getElem (by simp; omega), List.getElem_zip]
  rw [kept, hnext, List.filterMap_append, kept]
  cases hreceived : received blake2b password metas[index] bufs[index] <;> simp [hreceived]

/-- What stays of the first buffers fits, and so does what comes next. -/
theorem fits_append {es : List (RecvMeta × List UInt8)} {e : RecvMeta × List UInt8} :
    Fits bufs (es ++ [e]) ↔ Fits bufs es ∧ ∀ b ∈ bufs[es.length]?, e.2.length ≤ b.length := by
  constructor
  · intro h
    refine ⟨fun k e' he' => h k e' ?_, h es.length e (by simp)⟩
    have hlt := (List.getElem?_eq_some_iff.mp he').1
    rw [List.getElem?_append_left hlt]
    exact he'
  · rintro ⟨hes, he⟩ k e' he'
    rcases Nat.lt_or_ge k es.length with hlt | hge
    · rw [List.getElem?_append_left hlt] at he'
      exact hes k e' he'
    · rw [List.getElem?_append_right hge] at he'
      obtain ⟨hk, rfl⟩ := List.getElem?_eq_some_iff.mp he'
      have hk : k = es.length := by
        rw [List.length_singleton] at hk
        omega
      subst hk
      simpa using he

/-- Buffers of one capacity have room. -/
theorem fits_of_capacity {capacity : Nat} (hcap : ∀ b ∈ bufs, b.length = capacity) (index : Nat) :
    Fits bufs (kept blake2b password bufs metas index) := by
  intro k e he b hb
  obtain ⟨source, hmem, hreceived⟩ := List.mem_filterMap.mp (List.mem_of_getElem? he)
  have hbuf := (List.of_mem_zip (List.mem_of_mem_take hmem)).2
  rw [hcap b (List.mem_of_getElem? hb), ← hcap _ hbuf]
  exact (length_received blake2b password hreceived).2

/-- The buffer at a place has the room it had. -/
theorem Compacted.room (h : Compacted blake2b password bufs metas index s) {k : Nat}
    {b : List UInt8} (hb : s.bufs[k]? = some b) : ∃ b', bufs[k]? = some b' ∧
      b'.length = b.length := by
  have hmap := congrArg (fun lengths : List Nat => lengths[k]?) h.bufs_length
  simp only [List.getElem?_map, hb, Option.map_some] at hmap
  obtain ⟨b', hb', hlen⟩ := Option.map_eq_some_iff.mp hmap.symm
  exact ⟨b', hb', hlen⟩

/-- **One round** of the loop over the buffers, where there is room. -/
theorem Compacted.step (h : Compacted blake2b password bufs metas index s)
    (hbufs : index < bufs.length) (hmetas : index < metas.length)
    (hfits : Fits bufs (kept blake2b password bufs metas (index + 1))) :
    ∃ s', decryptBuffer blake2b password s index = some s' ∧
      Compacted blake2b password bufs metas (index + 1) s' := by
  have hbuf : s.bufs[index]? = some bufs[index] :=
    (h.later_bufs index le_rfl).trans (List.getElem?_eq_getElem hbufs)
  have hmeta : s.metas[index]? = some metas[index] :=
    (h.later_metas index le_rfl).trans (List.getElem?_eq_getElem hmetas)
  have hlater : ∀ {l l' : List (List UInt8)}, (∀ j, index ≤ j → l[j]? = l'[j]?) →
      ∀ j, index + 1 ≤ j → l[j]? = l'[j]? := fun hl j hj => hl j (by omega)
  have hnext : kept blake2b password bufs metas (index + 1) = _ := kept_succ hbufs hmetas
  cases hreceived : received blake2b password metas[index] bufs[index] with
  | none =>
      rw [hreceived, Option.toList_none, List.append_nil] at hnext
      refine ⟨s, decryptBuffer_of_none blake2b password hmeta hbuf hreceived, h.bufs_length,
        h.metas_length, Nat.le_succ_of_le h.target_le, ?_, hlater h.later_bufs,
        fun j hj => h.later_metas j (by omega), ?_⟩
      · rw [hnext, h.target_eq]
      · rw [hnext, h.delivered]
  | some result =>
      obtain ⟨plainMeta, plain⟩ := result
      rw [hreceived, Option.toList_some] at hnext
      rw [hnext, fits_append, ← h.target_eq] at hfits
      have hle := h.target_le
      obtain ⟨rest, hrest, hstep⟩ := decryptBuffer_of_some blake2b password hmeta hbuf hreceived hle
      have hkept := map_length_set hbuf hrest
      obtain ⟨hindex, -⟩ := List.getElem?_eq_some_iff.mp hbuf
      -- the buffer at `target` has the room it had, also where it is the one just decrypted
      have hroom : ∀ b ∈ (s.bufs.set index (plain ++ rest))[s.target]?,
          plain.length ≤ b.length := by
        intro b hb
        have hlength := congrArg (fun lengths : List Nat => lengths[s.target]?)
          (hkept.trans h.bufs_length)
        simp only [List.getElem?_map, Option.mem_def.mp hb, Option.map_some] at hlength
        obtain ⟨b', hb', hlen⟩ := Option.map_eq_some_iff.mp hlength.symm
        exact hlen ▸ hfits.2 b' hb'
      obtain ⟨rest', hrest', hmove⟩ := moveTo_eq hle (List.getElem?_set_self hindex) hroom
      rw [hmove, Option.map_some] at hstep
      refine ⟨_, hstep, (hrest'.trans hkept).trans h.bufs_length, by simp [h.metas_length],
        by simp [hle], by simp [hnext, h.target_eq], ?_, ?_, ?_⟩
      · intro j hj
        rw [List.getElem?_set_ne (by omega), List.getElem?_set_ne (by omega)]
        exact h.later_bufs j (by omega)
      · intro j hj
        rw [List.getElem?_set_ne (by omega)]
        exact h.later_metas j (by omega)
      · rw [delivered_push (length_received blake2b password hreceived).1 hle hindex
          (h.metas_length ▸ hmetas), hnext, h.delivered]

/-- **A round without room** is a panic. -/
theorem Compacted.step_eq_none (h : Compacted blake2b password bufs metas index s)
    (hbufs : index < bufs.length) (hmetas : index < metas.length)
    (hfits : Fits bufs (kept blake2b password bufs metas index))
    (hnot : ¬ Fits bufs (kept blake2b password bufs metas (index + 1))) :
    decryptBuffer blake2b password s index = none := by
  have hbuf : s.bufs[index]? = some bufs[index] :=
    (h.later_bufs index le_rfl).trans (List.getElem?_eq_getElem hbufs)
  have hmeta : s.metas[index]? = some metas[index] :=
    (h.later_metas index le_rfl).trans (List.getElem?_eq_getElem hmetas)
  rw [kept_succ hbufs hmetas] at hnot
  cases hreceived : received blake2b password metas[index] bufs[index] with
  | none =>
      rw [hreceived, Option.toList_none, List.append_nil] at hnot
      exact absurd hfits hnot
  | some result =>
      obtain ⟨plainMeta, plain⟩ := result
      rw [hreceived, Option.toList_some, fits_append, ← h.target_eq] at hnot
      obtain ⟨b, hb, hshort⟩ : ∃ b, bufs[s.target]? = some b ∧ b.length < plain.length := by
        simpa [hfits] using hnot
      -- a buffer has room for its own plaintext, so it is copied to an earlier one
      have hne : s.target ≠ index := by
        intro heq
        rw [heq, List.getElem?_eq_getElem hbufs, Option.some.injEq] at hb
        subst hb
        exact absurd (length_received blake2b password hreceived).2 (Nat.not_le_of_lt hshort)
      have hle := h.target_le
      obtain ⟨rest, -, hstep⟩ := decryptBuffer_of_some blake2b password hmeta hbuf hreceived hle
      obtain ⟨hindex, -⟩ := List.getElem?_eq_some_iff.mp hbuf
      obtain ⟨b', hb'⟩ : ∃ b', s.bufs[s.target]? = some b' :=
        ⟨_, List.getElem?_eq_getElem (by omega)⟩
      obtain ⟨b'', hb'', hlen⟩ := h.room hb'
      obtain rfl : b'' = b := Option.some.inj (hb''.symm.trans hb)
      have hset : (s.bufs.set index (plain ++ rest))[s.target]? = some b' := by
        rw [List.getElem?_set_ne (Ne.symm hne), hb']
      rw [hstep, moveTo_eq_none (by omega) (List.getElem?_set_self hindex) hset (by omega),
        Option.map_none]

end Batch

section

variable {bufs : List (List UInt8)} {metas : List RecvMeta}

theorem decryptReceiveBatch_succ (count : Nat) :
    decryptReceiveBatch blake2b password (count + 1) bufs metas =
      (decryptReceiveBatch blake2b password count bufs metas).bind fun s =>
        decryptBuffer blake2b password s count := by
  simp only [decryptReceiveBatch, List.range_succ, List.foldlM_append, List.foldlM_cons,
    List.foldlM_nil, Option.bind_eq_bind, Option.pure_def, Option.bind_fun_some]

/-- **The batch refines what its buffers give.**  Where there is room `decrypt_receive_batch` does
not panic, and the buffers it leaves at the front are what each buffer gives, in order. -/
theorem decryptReceiveBatch_eq (count : Nat) (hbufs : count ≤ bufs.length)
    (hmetas : count ≤ metas.length) (hfits : Fits bufs (kept blake2b password bufs metas count)) :
    ∃ s, decryptReceiveBatch blake2b password count bufs metas = some s ∧
      Compacted blake2b password bufs metas count s := by
  induction count with
  | zero =>
      exact ⟨_, rfl, rfl, rfl, le_rfl, rfl, fun _ _ => rfl, fun _ _ => rfl, rfl⟩
  | succ count ih =>
      have hbefore : Fits bufs (kept blake2b password bufs metas count) := by
        rw [kept_succ (by omega) (by omega)] at hfits
        cases hreceived : received blake2b password metas[count] bufs[count] with
        | none => simpa [hreceived] using hfits
        | some e =>
            rw [hreceived, Option.toList_some, fits_append] at hfits
            exact hfits.1
      obtain ⟨s, hrun, hs⟩ := ih (by omega) (by omega) hbefore
      obtain ⟨s', hstep, hs'⟩ := hs.step (by omega) (by omega) hfits
      exact ⟨s', by rw [decryptReceiveBatch_succ, hrun, Option.bind_some, hstep], hs'⟩

/-- **A batch without room panics.** -/
theorem decryptReceiveBatch_eq_none (count : Nat) (hbufs : count ≤ bufs.length)
    (hmetas : count ≤ metas.length)
    (hnot : ¬ Fits bufs (kept blake2b password bufs metas count)) :
    decryptReceiveBatch blake2b password count bufs metas = none := by
  induction count with
  | zero => exact absurd (fun k e he => by simp [kept] at he) hnot
  | succ count ih =>
      rw [decryptReceiveBatch_succ]
      by_cases hfits : Fits bufs (kept blake2b password bufs metas count)
      · obtain ⟨s, hrun, hs⟩ := decryptReceiveBatch_eq blake2b password count (by omega)
          (by omega) hfits
        rw [hrun, Option.bind_some, hs.step_eq_none (by omega) (by omega) hfits hnot]
      · rw [ih (by omega) (by omega) hfits, Option.bind_none]

end

end Decrypt

end SingBoxMini.Salamander
