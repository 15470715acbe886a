import SingBoxMini.Support.Bytes
import SingBoxMini.Support.Reader

/-!
# VLESS — UdpFraming

The two loops of `serve_udp` (`vless_server.rs`): packets in both directions are a 16-bit length and
that many bytes.

The download loop writes what `recv_from` received into one buffer that is used again for every
datagram; the upload loop is a reader of the client's stream.  What the loops do beside it (sending
a packet on, counting its bytes) is not part of the framing.

* `downloadStream_eq`: the buffer leaves no trace in what is written.
* `run_uploadLoop`: packets with a byte in them are read back, however the stream is delivered.
* `run_uploadLoop_of_mem`: at a packet without one the upload loop fails.
* `frames_read_back_iff`: the upload loop understands the download loop exactly if every datagram
  has a byte.
-/

namespace SingBoxMini.Vless
open Bytes

/-- `MAX_UDP_PACKET_SIZE`, and the size to which `recv_from` resizes its buffer. -/
def maxUdpPacketSize : Nat := 65535

/-- A datagram of the outbound socket. -/
abbrev Datagram := { payload : List UInt8 // payload.length ≤ maxUdpPacketSize }

/-! ### The download loop -/

/-- `Vec::resize` -/
def resize (buffer : List UInt8) (size : Nat) : List UInt8 :=
  buffer.take size ++ List.replicate (size - buffer.length) 0

/-- `OutboundUdpSession::recv_from` as to the buffer: the length that was received, and the buffer
after it. -/
def recvInto (buffer : List UInt8) (datagram : Datagram) : Nat × List UInt8 :=
  let buffer := resize buffer maxUdpPacketSize
  let length := min datagram.val.length buffer.length
  (length, datagram.val.take length ++ buffer.drop length)

/-- The download loop, from a buffer on: what it writes for the datagrams. -/
def downloadLoop (buffer : List UInt8) : List Datagram → List UInt8
  | [] => []
  | datagram :: datagrams =>
    let length := (recvInto buffer datagram).1
    let payload := (recvInto buffer datagram).2
    beBytes 2 length ++ payload.take length ++ downloadLoop payload datagrams

/-- What is written after the response header; the buffer is empty at first. -/
def downloadStream (datagrams : List Datagram) : List UInt8 := downloadLoop [] datagrams

/-- A packet: the length of the payload and the payload. -/
def frame (payload : List UInt8) : List UInt8 := beBytes 2 payload.length ++ payload

theorem length_resize (buffer : List UInt8) (size : Nat) : (resize buffer size).length = size := by
  rw [resize, List.length_append, List.length_take, List.length_replicate]
  omega

/-- A datagram fits. -/
theorem recvInto_fst (buffer : List UInt8) (datagram : Datagram) :
    (recvInto buffer datagram).1 = datagram.val.length := by
  rw [recvInto, length_resize]
  exact Nat.min_eq_left datagram.property

theorem take_recvInto (buffer : List UInt8) (datagram : Datagram) :
    (recvInto buffer datagram).2.take datagram.val.length = datagram.val := by
  rw [recvInto, length_resize, Nat.min_eq_left datagram.property, List.take_length]
  exact List.take_left

theorem downloadLoop_eq (datagrams : List Datagram) (buffer : List UInt8) :
    downloadLoop buffer datagrams = datagrams.flatMap fun datagram => frame datagram.val := by
  induction datagrams generalizing buffer with
  | nil => rfl
  | cons datagram datagrams ih =>
      simp only [downloadLoop]
      rw [recvInto_fst, take_recvInto, ih, List.flatMap_cons, frame]

/-- **What is written** is a packet for every datagram. -/
theorem downloadStream_eq (datagrams : List Datagram) :
    downloadStream datagrams = datagrams.flatMap fun datagram => frame datagram.val :=
  downloadLoop_eq datagrams []

/-! ### The upload loop -/

/-- A round of the upload loop: `read_u16`, the check of the length, and `read_exact`. -/
def readPacket : Reader String (List UInt8) := do
  let length := ofBeBytes (← Reader.readExact 2)
  if length = 0 ∨ length > maxUdpPacketSize then .fail "invalid VLESS UDP packet length"
  else Reader.readExact length

/-- The first `n` rounds of the upload loop, with the packets it sends on. -/
def uploadLoop : Nat → Reader String (List (List UInt8))
  | 0 => return []
  | n + 1 => do
    let payload ← readPacket
    let payloads ← uploadLoop n
    return payload :: payloads

variable {β : Type} {chunks : List (List UInt8)} {more : List UInt8}

/-- **The length of a packet is read** and what is behind it is left. -/
theorem run_readPacket {payload : List UInt8} (hle : payload.length ≤ maxUdpPacketSize)
    (hchunks : chunks.flatten = frame payload ++ more) (next : List UInt8 → Reader String β) :
    ∃ chunks', chunks'.flatten = payload ++ more ∧
      (readPacket >>= next).run false chunks =
        Reader.run false
          (if payload.length = 0 then .fail "invalid VLESS UDP packet length"
            else .bytes payload.length next) chunks' := by
  have hlength : (beBytes 2 payload.length).length = 2 := length_beBytes _ _
  rw [frame, List.append_assoc] at hchunks
  have hshort : 2 ≤ chunks.flatten.length := by
    rw [hchunks, List.length_append, hlength]
    exact Nat.le_add_right _ _
  obtain ⟨chunks', hdrop, hrun⟩ := Reader.run_bytes_of_le hshort
  refine ⟨chunks', ?_, ?_⟩
  · rw [hdrop, hchunks, List.drop_left' hlength]
  · have hread : ofBeBytes (chunks.flatten.take 2) = payload.length := by
      rw [hchunks, List.take_left' hlength, ofBeBytes_beBytes]
      exact Nat.mod_eq_of_lt (Nat.lt_succ_of_le hle)
    rw [readPacket, Reader.readExact_bind, Reader.bytes_bind, hrun, hread]
    by_cases hzero : payload.length = 0
    · rw [if_pos (.inl hzero), if_pos hzero, Reader.fail_bind]
    · have hvalid : ¬(payload.length = 0 ∨ payload.length > maxUdpPacketSize) := by
        rintro (h | h)
        · exact hzero h
        · exact Nat.not_lt_of_le hle h
      rw [if_neg hvalid, if_neg hzero, Reader.readExact_bind]

/-- **A packet with a byte** is read back. -/
theorem run_readPacket_of_ne_nil {payload : List UInt8} (hne : payload ≠ [])
    (hle : payload.length ≤ maxUdpPacketSize) (hchunks : chunks.flatten = frame payload ++ more)
    (next : List UInt8 → Reader String β) :
    ∃ chunks', chunks'.flatten = more ∧
      (readPacket >>= next).run false chunks = (next payload).run false chunks' := by
  obtain ⟨chunks', hrest, hrun⟩ := run_readPacket hle hchunks next
  rw [if_neg (mt List.length_eq_zero_iff.mp hne)] at hrun
  have hthere : payload.length ≤ chunks'.flatten.length := by
    rw [hrest, List.length_append]
    exact Nat.le_add_right _ _
  obtain ⟨chunks'', hdrop, hrun'⟩ := Reader.run_bytes_of_le hthere
  refine ⟨chunks'', ?_, ?_⟩
  · rw [hdrop, hrest, List.drop_left]
  · rw [hrun, hrun', hrest, List.take_left]

/-- **A packet without one** ends the loop. -/
theorem run_readPacket_of_nil (hchunks : chunks.flatten = frame [] ++ more)
    (next : List UInt8 → Reader String β) :
    (readPacket >>= next).run false chunks = .failed "invalid VLESS UDP packet length" := by
  obtain ⟨chunks', -, hrun⟩ := run_readPacket (Nat.zero_le _) hchunks next
  exact hrun

/-- Without a byte of the length the loop waits. -/
theorem run_readPacket_of_empty (hchunks : chunks.flatten = [])
    (next : List UInt8 → Reader String β) :
    (readPacket >>= next).run false chunks = .waiting (readPacket >>= next) chunks := by
  have hshort : ¬2 ≤ chunks.flatten.length := by
    rw [hchunks]
    decide
  rw [readPacket, Reader.readExact_bind, Reader.bytes_bind, Reader.run, if_neg hshort]
  rfl

theorem uploadLoop_bind (n : Nat) (next : List (List UInt8) → Reader String β) :
    uploadLoop (n + 1) >>= next =
      readPacket >>= fun payload => uploadLoop n >>= fun payloads =>
        next (payload :: payloads) := by
  simp only [uploadLoop, bind_assoc, pure_bind]

variable {datagrams : List Datagram}

/-- **Packets with a byte each** are read back, and the loop goes on behind them. -/
theorem run_uploadLoop (rounds : Nat) (hne : ∀ datagram ∈ datagrams, datagram.val ≠ [])
    (next : List (List UInt8) → Reader String β)
    (hchunks : chunks.flatten = downloadStream datagrams ++ more) :
    ∃ chunks', chunks'.flatten = more ∧
      (uploadLoop (datagrams.length + rounds) >>= next).run false chunks =
        (uploadLoop rounds >>= fun payloads => next (datagrams.map Subtype.val ++ payloads)).run
          false chunks' := by
  rw [downloadStream_eq] at hchunks
  -- a round takes one packet from the front of the stream
  induction datagrams generalizing chunks next with
  | nil =>
      refine ⟨chunks, hchunks, ?_⟩
      rw [List.length_nil, Nat.zero_add]
      rfl
  | cons datagram datagrams ih =>
      rw [List.flatMap_cons, List.append_assoc] at hchunks
      rw [List.forall_mem_cons] at hne
      rw [List.length_cons, Nat.add_right_comm, uploadLoop_bind]
      obtain ⟨chunks', hrest, hrun⟩ :=
        run_readPacket_of_ne_nil hne.1 datagram.property hchunks _
      obtain ⟨chunks'', hrest', hrun'⟩ := ih hne.2 _ hrest
      exact ⟨chunks'', hrest', hrun.trans hrun'⟩

/-- **An empty packet among them** ends the loop with an error. -/
theorem run_uploadLoop_of_mem {empty : Datagram} (hempty : empty.val = [])
    (hmem : empty ∈ datagrams) (next : List (List UInt8) → Reader String β)
    (hchunks : chunks.flatten = downloadStream datagrams ++ more) :
    (uploadLoop datagrams.length >>= next).run false chunks =
      .failed "invalid VLESS UDP packet length" := by
  rw [downloadStream_eq] at hchunks
  induction datagrams generalizing chunks next with
  | nil => exact absurd hmem List.not_mem_nil
  | cons datagram datagrams ih =>
      rw [List.flatMap_cons, List.append_assoc] at hchunks
      rw [List.length_cons, uploadLoop_bind]
      by_cases hnil : datagram.val = []
      · rw [hnil] at hchunks
        exact run_readPacket_of_nil hchunks _
      · obtain ⟨chunks', hrest, hrun⟩ :=
          run_readPacket_of_ne_nil hnil datagram.property hchunks _
        have hlater : empty ∈ datagrams := by
          rcases List.mem_cons.mp hmem with rfl | hlater
          · exact absurd hempty hnil
          · exact hlater
        rw [hrun]
        exact ih hlater _ hrest

/-! ### Both loops -/

/-- **The upload loop reads back the payloads** from the stream that is delivered in these chunks:
it sends them on, in order, nothing is left of the stream, and the next round waits for its first
byte. -/
structure ReadsBack (chunks payloads : List (List UInt8)) : Prop where
  sent : ∃ rest, (uploadLoop payloads.length).feed chunks = .done payloads rest ∧ rest.flatten = []
  waits : ∃ reader rest,
    (uploadLoop (payloads.length + 1)).feed chunks = .waiting reader rest ∧ rest.flatten = []

theorem readsBack_of_ne_nil (hne : ∀ datagram ∈ datagrams, datagram.val ≠ [])
    (hchunks : chunks.flatten = downloadStream datagrams) :
    ReadsBack chunks (datagrams.map Subtype.val) := by
  rw [← List.append_nil (downloadStream datagrams)] at hchunks
  constructor
  · obtain ⟨rest, hrest, hrun⟩ := run_uploadLoop 0 hne pure hchunks
    refine ⟨rest, ?_, hrest⟩
    rw [bind_pure] at hrun
    rw [Reader.feed_eq, List.length_map]
    refine hrun.trans ?_
    rw [uploadLoop, pure_bind, List.append_nil]
    rfl
  · obtain ⟨rest, hrest, hrun⟩ := run_uploadLoop 1 hne pure hchunks
    rw [bind_pure, uploadLoop_bind, run_readPacket_of_empty hrest] at hrun
    rw [Reader.feed_eq, List.length_map]
    exact ⟨_, rest, hrun, hrest⟩

/-- At an empty datagram the loop does not read back anything. -/
theorem not_readsBack_of_mem {empty : Datagram} (hempty : empty.val = []) (hmem : empty ∈ datagrams)
    (hchunks : chunks.flatten = downloadStream datagrams) :
    ¬ReadsBack chunks (datagrams.map Subtype.val) := by
  rintro ⟨⟨rest, hsent, -⟩, -⟩
  rw [← List.append_nil (downloadStream datagrams)] at hchunks
  have hfail := run_uploadLoop_of_mem hempty hmem pure hchunks
  rw [Reader.feed_eq, List.length_map] at hsent
  rw [bind_pure, hsent] at hfail
  cases hfail

/-- **Framing.**  What the download loop writes is read back by the upload loop, under every way of
delivering it, exactly if no datagram is empty: the download loop writes such a datagram as the
length zero, and the upload loop rejects this length. -/
theorem frames_read_back_iff (datagrams : List Datagram) :
    (∀ chunks, chunks.flatten = downloadStream datagrams →
        ReadsBack chunks (datagrams.map Subtype.val)) ↔
      ∀ datagram ∈ datagrams, datagram.val ≠ [] := by
  constructor
  · intro h datagram hmem hempty
    have hchunks : [downloadStream datagrams].flatten = downloadStream datagrams :=
      List.flatten_singleton
    exact not_readsBack_of_mem hempty hmem hchunks (h _ hchunks)
  · intro hne chunks hchunks
    exact readsBack_of_ne_nil hne hchunks

/-- One empty datagram is written as two zero bytes, which the upload loop does not accept. -/
theorem empty_frame_rejected :
    downloadStream [⟨[], Nat.zero_le _⟩] = [0, 0] ∧
      ((uploadLoop 1).feed [[0, 0]] = .failed "invalid VLESS UDP packet length") ∧
      ¬ReadsBack [[0, 0]] [[]] := by
  have hstream : downloadStream [⟨[], Nat.zero_le _⟩] = [0, 0] := by
    rw [downloadStream_eq]
    decide
  refine ⟨hstream, ?_, ?_⟩
  · rw [Reader.feed_eq, ← bind_pure (uploadLoop 1), uploadLoop_bind]
    have hchunks : [[(0 : UInt8), 0]].flatten = frame [] ++ [] := by decide
    exact run_readPacket_of_nil hchunks _
  · have hchunks : [[(0 : UInt8), 0]].flatten = downloadStream [⟨[], Nat.zero_le _⟩] :=
      hstream.symm
    exact not_readsBack_of_mem rfl List.mem_cons_self hchunks

end SingBoxMini.Vless
