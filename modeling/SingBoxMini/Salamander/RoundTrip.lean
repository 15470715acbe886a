import SingBoxMini.Salamander.Socket

/-!
# Salamander — Round trip

Transmits that go through `encrypt_transmit` on one side and arrive in one batch of
`decrypt_receive_batch` on the other, in buffers of one capacity, each with its datagrams in a row,
among buffers with a datagram too short for Salamander.

* `Arrives`: how a buffer of the batch arrives, with a transmit or with a short datagram.
* `Arrives.received_eq_original`: what `decrypt_receive_batch` makes of one buffer.
* `round_trip`: the batch gives back exactly the transmits.
-/

namespace SingBoxMini.Salamander
open Outbound (SocketAddr)

section

variable (blake2b : List UInt8 → Vector UInt8 32) (password : List UInt8)

/-! ### What is sent -/

/-- `source_segment_size` -/
def Transmit.sourceSegmentSize (transmit : Transmit) : Nat :=
  (transmit.segmentSize.map UInt64.toNat).getD transmit.contents.length

/-- What is computed from the elements with their indices, where the index does not matter. -/
theorem map_map_zipIdx {α β γ : Type} {l : List α} {f : α × Nat → β} {g : β → γ} {g' : α → γ}
    (h : ∀ x i, (x, i) ∈ l.zipIdx → g (f (x, i)) = g' x) : (l.zipIdx.map f).map g = l.map g' := by
  rw [List.map_map]
  nth_rewrite 2 [← List.zipIdx_map_fst 0 l]
  rw [List.map_map]
  exact List.map_congr_left fun ⟨x, i⟩ hmem => h x i hmem

/-- The salts are cut out of enough random bytes. -/
theorem length_salt {random : Nat → UInt8} {count index : Nat} (h : index < count) :
    ((((List.range (count * saltLength)).map random).drop (index * saltLength)).take
      saltLength).length = saltLength := by
  have hle : (index + 1) * saltLength ≤ count * saltLength := Nat.mul_le_mul_right _ h
  rw [Nat.add_mul, Nat.one_mul] at hle
  rw [List.length_take, List.length_drop, List.length_map, List.length_range]
  omega

variable {transmit : Transmit}

/-- **What `encrypt_transmit` returns**: a datagram for each segment, longer by the salt, whose
payload is the segment. -/
theorem encryptTransmit_eq (hpos : 0 < transmit.sourceSegmentSize) (random : Nat → UInt8) :
    ∃ ds : List (List UInt8), encryptTransmit blake2b password transmit (.ok random) =
        .ok (ds.flatten, transmit.segmentSize.map (· + .ofNat saltLength)) ∧
      ds.map List.length = (Bytes.chunks transmit.sourceSegmentSize transmit.contents).map
        (fun c => c.length + saltLength) ∧
      ds.map (payload blake2b password) =
        Bytes.chunks transmit.sourceSegmentSize transmit.contents := by
  generalize hsize : transmit.sourceSegmentSize = size at hpos ⊢
  let salts := (List.range (Bytes.divCeil transmit.contents.length size * saltLength)).map random
  have hsalt : ∀ segment index, (segment, index) ∈ (Bytes.chunks size transmit.contents).zipIdx →
      ((salts.drop (index * saltLength)).take saltLength).length = saltLength := by
    intro segment index hmem
    have hindex := (List.mem_zipIdx hmem).2.1
    rw [Bytes.length_chunks, Nat.zero_add] at hindex
    exact length_salt hindex
  refine ⟨(Bytes.chunks size transmit.contents).zipIdx.map fun e =>
    encryptSegment blake2b password salts e.1 e.2, ?_, ?_, ?_⟩
  · rw [Transmit.sourceSegmentSize] at hsize
    simp only [encryptTransmit, hsize, if_neg (Nat.ne_of_gt hpos)]
    rfl
  · exact map_map_zipIdx fun segment index hmem =>
      length_encrypt blake2b password (hsalt segment index hmem) segment
  · refine (map_map_zipIdx fun segment index hmem => ?_).trans (List.map_id _)
    have hlength := hsalt segment index hmem
    simp only [encryptSegment, payload, List.take_left' hlength, List.drop_left' hlength,
      applyKeystream_applyKeystream, id]

/-! ### What arrives -/

/-- The datagrams of what `encrypt_transmit` returns. -/
def datagrams (encrypted : List UInt8) : Option UInt64 → List (List UInt8)
  | none => [encrypted]
  | some size => Bytes.chunks size.toNat encrypted

/-- A buffer of a batch, with the transmit it is from. -/
structure Arrival where
  source : RecvMeta
  buf : List UInt8
  transmit : Option Transmit

/-- **How buffers arrive.**  A transmit has contents and no segment size of zero, and a datagram of
its segment size has room for the salt; its datagrams are at the front of the buffer, in a row, and
the stride is the segment size that was returned, or zero or the length where none was.  Any other
buffer has a single datagram too short for a salt and a byte, and its stride is zero or its length.
-/
inductive Arrives (capacity : Nat) : Arrival → Prop where
  | sent {source : RecvMeta} {buf : List UInt8} {transmit : Transmit} {random : Nat → UInt8}
      {encrypted : List UInt8} {segmentSize : Option UInt64}
      (contents : transmit.contents ≠ []) (positive : transmit.segmentSize ≠ some 0)
      (salted : ∀ size ∈ transmit.segmentSize, size.toNat + saltLength < 2 ^ 64)
      (encrypts : encryptTransmit blake2b password transmit (.ok random) =
        .ok (encrypted, segmentSize))
      (len : source.len = (datagrams encrypted segmentSize).flatten.length)
      (data : buf.take source.len = (datagrams encrypted segmentSize).flatten)
      (stride : segmentSize.elim (source.stride = 0 ∨ source.stride = source.len)
        fun size => source.stride = size.toNat)
      (room : buf.length = capacity) : Arrives capacity ⟨source, buf, some transmit⟩
  | short {source : RecvMeta} {buf : List UInt8} (len : source.len ≤ saltLength)
      (single : source.stride = 0 ∨ source.stride = source.len)
      (room : buf.length = capacity) : Arrives capacity ⟨source, buf, none⟩

/-- What should be delivered: the contents, with the length and stride they had, and the rest of the
metadata as received. -/
def Arrival.original (a : Arrival) : Option (RecvMeta × List UInt8) :=
  a.transmit.map fun transmit =>
    ({ a.source with
        len := transmit.contents.length
        stride := transmit.sourceSegmentSize }, transmit.contents)

/-! ### What one buffer gives -/

/-- **The datagrams of a transmit in a row** give its contents. -/
theorem received_of_datagrams {source : RecvMeta} {buf : List UInt8} {ds : List (List UInt8)}
    (hpos : 0 < transmit.sourceSegmentSize) (hlengths : ds.map List.length =
      (Bytes.chunks transmit.sourceSegmentSize transmit.contents).map
        (fun c => c.length + saltLength)) (hpayloads : ds.map (payload blake2b password) =
      Bytes.chunks transmit.sourceSegmentSize transmit.contents)
    (hlen : source.len = ds.flatten.length) (hdata : buf.take source.len = ds.flatten)
    (hstride : source.sourceStride = transmit.sourceSegmentSize + saltLength) :
    received blake2b password source buf =
      some ({ source with
        len := transmit.contents.length
        stride := transmit.sourceSegmentSize }, transmit.contents) := by
  have hchunks : Bytes.chunks source.sourceStride (buf.take source.len) = ds := by
    rw [hstride, hdata]
    refine Bytes.chunks_flatten hpos (f := (· + saltLength)) ds _ hlengths fun c hc => ?_
    exact ⟨Nat.add_pos_right _ (by decide),
      Nat.add_le_add_right (Bytes.length_le_of_mem_chunks hc) _⟩
  have hplain : plaintext blake2b password source.sourceStride (buf.take source.len) =
      transmit.contents := by
    rw [plaintext, hchunks, hpayloads, Bytes.flatten_chunks hpos]
  have hshort : ¬ hasShortSegment source.sourceStride source.len = true := by
    rw [hasShortSegment_iff (hdata ▸ hlen.symm), hchunks]
    rintro ⟨d, hd, hle⟩
    have hmem := List.mem_map_of_mem (f := List.length) hd
    rw [hlengths, List.mem_map] at hmem
    obtain ⟨c, hc, hlength⟩ := hmem
    have hne := List.length_pos_iff.mpr (Bytes.ne_nil_of_mem_chunks hpos hc)
    omega
  have hfits : ¬ buf.length < source.len := by
    have hlength := congrArg List.length hdata
    rw [List.length_take] at hlength
    omega
  have hsize : source.sourceStride - saltLength = transmit.sourceSegmentSize := by omega
  have hlong : ¬ source.sourceStride ≤ saltLength := by omega
  rw [received_eq, if_neg (by tauto)]
  simp only [hplain, hsize]

/-- **A short datagram** is dropped. -/
theorem received_of_short {source : RecvMeta} {buf : List UInt8} (hlen : source.len ≤ saltLength)
    (hsingle : source.stride = 0 ∨ source.stride = source.len) :
    received blake2b password source buf = none := by
  have hdropped : source.sourceStride ≤ saltLength := by
    rw [RecvMeta.sourceStride]
    split_ifs <;> omega
  rw [received_eq, if_pos (.inl hdropped)]

variable {capacity : Nat} {a : Arrival}

theorem Arrives.sourceSegmentSize_pos (hcontents : transmit.contents ≠ [])
    (hpositive : transmit.segmentSize ≠ some 0) : 0 < transmit.sourceSegmentSize := by
  rw [Transmit.sourceSegmentSize]
  cases hsize : transmit.segmentSize with
  | none => exact List.length_pos_iff.mpr hcontents
  | some size =>
      rw [Option.map_some, Option.getD_some]
      refine Nat.pos_of_ne_zero fun hzero => hpositive ?_
      rw [hsize, UInt64.toNat_inj.mp (hzero.trans UInt64.toNat_zero.symm)]

/-- A transmit without a segment size is one datagram. -/
theorem length_of_single (hcontents : transmit.contents ≠ []) (hsize : transmit.segmentSize = none)
    {ds : List (List UInt8)} (hlengths : ds.map List.length =
      (Bytes.chunks transmit.sourceSegmentSize transmit.contents).map
        (fun c => c.length + saltLength)) :
    ds.flatten.length = transmit.sourceSegmentSize + saltLength := by
  have hlength : transmit.sourceSegmentSize = transmit.contents.length := by
    rw [Transmit.sourceSegmentSize, hsize]
    rfl
  rw [hlength, Bytes.chunks_of_length_le hcontents le_rfl] at hlengths
  rw [List.length_flatten, hlengths, hlength]
  simp

/-- The segment size that is returned. -/
theorem toNat_add_saltLength (size : UInt64) :
    (size + .ofNat saltLength).toNat = (size.toNat + saltLength) % 2 ^ 64 := by
  rw [UInt64.toNat_add]
  rfl

/-- **A buffer gives what was sent**, or nothing if its datagram is too short. -/
theorem Arrives.received_eq_original (h : Arrives blake2b password capacity a) :
    received blake2b password a.source a.buf = a.original := by
  cases h with
  | short hlen hsingle => exact received_of_short blake2b password hlen hsingle
  | @sent source buf transmit random encrypted segmentSize hcontents hpositive hsalted hencrypts
      hlen hdata hstride hroom =>
      have hpos := sourceSegmentSize_pos hcontents hpositive
      obtain ⟨ds, hds, hlengths, hpayloads⟩ := encryptTransmit_eq blake2b password hpos random
      cases hds.symm.trans hencrypts
      -- the datagrams in a row are what was returned, and the stride is that of a segment
      suffices hrow : (datagrams ds.flatten
          (transmit.segmentSize.map (· + .ofNat saltLength))).flatten = ds.flatten ∧
          source.sourceStride = transmit.sourceSegmentSize + saltLength by
        rw [hrow.1] at hlen hdata
        exact received_of_datagrams blake2b password hpos hlengths hpayloads hlen hdata hrow.2
      cases hsize : transmit.segmentSize with
      | none =>
          rw [hsize] at hlen hstride
          have hflat : (datagrams ds.flatten none).flatten = ds.flatten := List.flatten_singleton
          refine ⟨hflat, ?_⟩
          rw [← length_of_single hcontents hsize hlengths, ← hflat]
          refine Eq.trans ?_ hlen
          rw [RecvMeta.sourceStride]
          rcases hstride with hzero | hfull
          · rw [if_pos hzero]
          · rw [hfull, ite_self]
      | some size =>
          rw [hsize] at hstride
          have hfits : (size + .ofNat saltLength).toNat = size.toNat + saltLength := by
            rw [toNat_add_saltLength]
            exact Nat.mod_eq_of_lt (hsalted size hsize)
          have hsource : transmit.sourceSegmentSize = size.toNat := by
            rw [Transmit.sourceSegmentSize, hsize]
            rfl
          have hstride' : source.stride = size.toNat + saltLength := hstride.trans hfits
          constructor
          · rw [Option.map_some, datagrams, hfits]
            exact Bytes.flatten_chunks (by omega) ds.flatten
          · rw [RecvMeta.sourceStride, if_neg (by omega), hstride', hsource]

/-! ### The batch -/

/-- **The round trip**: every transmit is encrypted, and `decrypt_receive_batch` returns the number
of the transmits and leaves exactly them at the front, in order.  The slices may have room for more
buffers than were received. -/
def RoundTrip (arrivals : List Arrival) (spareBufs : List (List UInt8))
    (spareMetas : List RecvMeta) : Prop :=
  (∀ a ∈ arrivals, ∀ transmit ∈ a.transmit, ∀ random,
    ∃ out, encryptTransmit blake2b password transmit (.ok random) = .ok out) ∧
  ∃ s, decryptReceiveBatch blake2b password arrivals.length
      (arrivals.map Arrival.buf ++ spareBufs) (arrivals.map Arrival.source ++ spareMetas) = some s ∧
    s.target = (arrivals.filterMap Arrival.original).length ∧
    s.delivered = arrivals.filterMap Arrival.original

theorem Arrives.encrypts (h : Arrives blake2b password capacity a) :
    ∀ transmit ∈ a.transmit, ∀ random,
      ∃ out, encryptTransmit blake2b password transmit (.ok random) = .ok out := by
  cases h with
  | short => simp
  | @sent source buf transmit random encrypted segmentSize hcontents hpositive =>
      intro transmit' htransmit' random
      cases htransmit'
      obtain ⟨ds, hds, -⟩ := encryptTransmit_eq blake2b password
        (sourceSegmentSize_pos hcontents hpositive) random
      exact ⟨_, hds⟩

theorem Arrives.length_buf (h : Arrives blake2b password capacity a) :
    a.buf.length = capacity := by
  cases h with
  | sent _ _ _ _ _ _ _ hroom => exact hroom
  | short _ _ hroom => exact hroom

/-- **What the batch delivers**: what each buffer gives, in order. -/
theorem delivered_eq {arrivals : List Arrival}
    (h : ∀ a ∈ arrivals, Arrives blake2b password capacity a) {spareBufs : List (List UInt8)}
    (hspare : ∀ b ∈ spareBufs, b.length = capacity) (spareMetas : List RecvMeta) :
    ∃ s, decryptReceiveBatch blake2b password arrivals.length
        (arrivals.map Arrival.buf ++ spareBufs) (arrivals.map Arrival.source ++ spareMetas) =
          some s ∧ s.target = s.delivered.length ∧
      s.delivered = arrivals.filterMap fun a => received blake2b password a.source a.buf := by
  have hcap : ∀ b ∈ arrivals.map Arrival.buf ++ spareBufs, b.length = capacity := by
    intro b hb
    rcases List.mem_append.mp hb with hb | hb
    · obtain ⟨a, ha, rfl⟩ := List.mem_map.mp hb
      exact (h a ha).length_buf
    · exact hspare b hb
  have hbufs : arrivals.length ≤ (arrivals.map Arrival.buf ++ spareBufs).length := by simp
  have hmetas : arrivals.length ≤ (arrivals.map Arrival.source ++ spareMetas).length := by simp
  obtain ⟨s, hrun, hs⟩ := decryptReceiveBatch_eq blake2b password arrivals.length hbufs hmetas
    (fits_of_capacity hcap _)
  refine ⟨s, hrun, by rw [hs.target_eq, hs.delivered], ?_⟩
  have hzip : ((arrivals.map Arrival.source ++ spareMetas).zip
      (arrivals.map Arrival.buf ++ spareBufs)).take arrivals.length =
        arrivals.map fun a => (a.source, a.buf) := by
    rw [List.zip_append (by simp), List.zip_map', List.take_left' (by simp)]
  rw [hs.delivered, kept, hzip, List.filterMap_map]
  rfl

/-- **The batch is the transmits.**  For every password and hash, all transmits with contents and a
segment size that is not zero and has room for the salt in a `usize`, all salts and all arrivals of
their datagrams in buffers of one capacity, among any buffers with one short datagram: the round
trip holds. -/
theorem round_trip {arrivals : List Arrival}
    (h : ∀ a ∈ arrivals, Arrives blake2b password capacity a) {spareBufs : List (List UInt8)}
    (hspare : ∀ b ∈ spareBufs, b.length = capacity) (spareMetas : List RecvMeta) :
    RoundTrip blake2b password arrivals spareBufs spareMetas := by
  obtain ⟨s, hrun, htarget, hdelivered⟩ := delivered_eq blake2b password h hspare spareMetas
  have horiginal : arrivals.filterMap (fun a => received blake2b password a.source a.buf) =
      arrivals.filterMap Arrival.original :=
    List.filterMap_congr fun a ha => (h a ha).received_eq_original blake2b password
  refine ⟨fun a ha transmit htransmit => (h a ha).encrypts blake2b password transmit htransmit,
    s, hrun, ?_, ?_⟩
  · rw [htarget, hdelivered, horiginal]
  · rw [hdelivered, horiginal]

end

/-! ### Arrivals -/

/-- A hash. -/
def sampleBlake2b (input : List UInt8) : Vector UInt8 32 := .replicate 32 (input.foldl (· + ·) 7)

/-- The metadata of a buffer. -/
def sampleMeta (len stride : Nat) : RecvMeta := ⟨.v4 0xC0000201#32 443, len, stride, some .ce, none⟩

/-- A datagram that is too short, a transmit of two segments of which the last one is shorter, and
one without a segment size. -/
def threeArrivals : List Arrival :=
  [⟨sampleMeta 3 3, List.replicate 20 1, none⟩,
    ⟨sampleMeta 19 10, [0, 1, 2, 3, 4, 5, 6, 7, 11, 8, 8, 9, 10, 11, 12, 13, 14, 15, 73, 0],
      some ⟨[1, 2, 3], some 2⟩⟩,
    ⟨sampleMeta 9 0, [0, 1, 2, 3, 4, 5, 6, 7, 14] ++ List.replicate 11 0, some ⟨[4], none⟩⟩]

theorem round_trip_three_arrivals :
    (∀ a ∈ threeArrivals, Arrives sampleBlake2b [112, 119] 20 a) ∧
      RoundTrip sampleBlake2b [112, 119] threeArrivals [] [] := by
  have hfirst : encryptTransmit sampleBlake2b [112, 119] ⟨[1, 2, 3], some 2⟩ (.ok UInt8.ofNat) =
      .ok ([0, 1, 2, 3, 4, 5, 6, 7, 11, 8, 8, 9, 10, 11, 12, 13, 14, 15, 73], some 10) := by
    decide
  have hsecond : encryptTransmit sampleBlake2b [112, 119] ⟨[4], none⟩ (.ok UInt8.ofNat) =
      .ok ([0, 1, 2, 3, 4, 5, 6, 7, 14], none) := by
    decide
  have harrives : ∀ a ∈ threeArrivals, Arrives sampleBlake2b [112, 119] 20 a := by
    simp only [threeArrivals, List.forall_mem_cons, List.not_mem_nil, false_implies, implies_true,
      and_true]
    refine ⟨?_, ?_, ?_⟩
    · exact .short (by decide) (by decide) rfl
    · refine .sent (by decide) (by decide) ?_ hfirst rfl rfl rfl rfl
      rintro size ⟨⟩
      decide
    · exact .sent (by decide) (by decide) nofun hsecond rfl rfl (.inl rfl) rfl
  exact ⟨harrives, round_trip _ _ harrives (by simp) []⟩

end SingBoxMini.Salamander
