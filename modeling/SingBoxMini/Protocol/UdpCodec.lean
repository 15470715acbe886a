import SingBoxMini.Protocol.UdpMessage

/-!
# Protocol — UdpCodec

`UdpMessage::decode` and `encode` on every byte string, and the two ways to the datagrams of a
packet: `encode_fragments`, and `fragment` followed by `encode`.

* `udp_codec`: a message is read back from its datagram, and what is read can be written again if
  its destination was UTF-8.
* `encodeFragments_eq_fragment`: the two ways give the same datagrams, or the same error.
-/

namespace SingBoxMini.Protocol
open Bytes

/-! ### The format -/

/-- **The format of a datagram**: eight bytes, the destination behind its length, and the payload.
-/
structure UdpFramed (input wire payload : List UInt8) : Prop where
  nine : 9 ≤ input.length
  decodes : ∃ length, decodeVarint (input.drop 8) = .ok (length, wire ++ payload) ∧
    length.toNat = wire.length
  ne_nil : wire ≠ []
  wire_le : wire.length ≤ maxAddressLength
  payload_le : payload.length ≤ maxUdpSize

/-- **`UdpMessage::decode` accepts what has the format.** -/
theorem udpFramed_of_decode {input : List UInt8} {message : UdpMessage}
    (h : UdpMessage.decode input = .ok message) :
    ∃ wire, UdpFramed input wire message.payload ∧ message.destination = fromUtf8Lossy wire := by
  rw [UdpMessage.decode] at h
  split_ifs at h with hnine
  cases hdecode : decodeVarint (input.drop 8) with
  | error error =>
      rw [hdecode] at h
      cases h
  | ok result =>
      obtain ⟨length, tail⟩ := result
      simp only [hdecode] at h
      split_ifs at h with hlength hshort hlarge
      cases h
      have htake : (tail.take length.toNat).length = length.toNat :=
        List.length_take_of_le (Nat.le_of_not_lt hshort)
      refine ⟨tail.take length.toNat, ⟨Nat.le_of_not_lt hnine, ⟨length, ?_, htake.symm⟩, ?_, ?_,
        Nat.le_of_not_lt hlarge⟩, rfl⟩
      · rw [hdecode, List.take_append_drop]
      · intro hnil
        rw [hnil, List.length_nil] at htake
        exact hlength (.inl htake.symm)
      · rw [htake]
        exact Nat.le_of_not_lt fun hlt => hlength (.inr hlt)

/-- A destination that was UTF-8 can be written again. -/
theorem encode_of_udpFramed {input wire : List UInt8} {message : UdpMessage} {destination : String}
    (h : UdpFramed input wire message.payload)
    (hdestination : message.destination = fromUtf8Lossy wire)
    (hutf8 : fromUtf8 wire = some destination) :
    ∃ datagram, message.encode = .ok datagram := by
  have hwire : wire = asBytes destination := (fromUtf8_eq_some_iff.mp hutf8).symm
  have hself : message.destination = destination := by
    rw [hdestination, hwire, fromUtf8Lossy_asBytes]
  have hlen : len message.destination = wire.length := by rw [hself, hwire, len]
  refine encodeFragment_ok (validateMessage_ok_iff.mpr ⟨?_, ?_, h.payload_le⟩) _ _ _ _
  · rw [hlen]
    exact List.length_pos_iff.mpr h.ne_nil
  · rw [hlen]
    exact h.wire_le

/-- **The codec of datagrams.**  Whatever `encode` accepts is decoded to the same message.  Whatever
`decode` accepts has a payload and a destination within the limits, and if the destination was UTF-8
it is encoded, and decoded to the same message: a length that took more bytes than needed makes no
difference. -/
theorem udp_codec :
    (∀ message datagram, UdpMessage.encode message = .ok datagram →
      UdpMessage.decode datagram = .ok message) ∧
    ∀ input message, UdpMessage.decode input = .ok message →
      message.payload.length ≤ maxUdpSize ∧
      ∃ wire length, decodeVarint (input.drop 8) = .ok (length, wire ++ message.payload) ∧
        length.toNat = wire.length ∧ 1 ≤ wire.length ∧ wire.length ≤ maxAddressLength ∧
        message.destination = fromUtf8Lossy wire ∧
        ∀ destination, fromUtf8 wire = some destination →
          ∃ datagram, message.encode = .ok datagram ∧
            UdpMessage.decode datagram = .ok message := by
  refine ⟨fun message datagram h => decode_encodeFragment h, fun input message h => ?_⟩
  obtain ⟨wire, hframed, hdestination⟩ := udpFramed_of_decode h
  obtain ⟨length, hdecode, hlength⟩ := hframed.decodes
  refine ⟨hframed.payload_le, wire, length, hdecode, hlength,
    List.length_pos_iff.mpr hframed.ne_nil, hframed.wire_le, hdestination,
    fun destination hutf8 => ?_⟩
  obtain ⟨datagram, hencode⟩ := encode_of_udpFramed hframed hdestination hutf8
  exact ⟨datagram, hencode, decode_encodeFragment hencode⟩

/-! ### Two ways to the datagrams -/

/-- The packet as one message, cut by `fragment`, with each part encoded. -/
def encodeParts (sessionId : UInt32) (packetId : UInt16) (destination : String)
    (payload : List UInt8) (maximumDatagramSize : Nat) :
    Except UdpCodecError (List (List UInt8)) := do
  let message : UdpMessage := ⟨sessionId, packetId, 0, 1, destination, payload⟩
  let parts ← message.fragment maximumDatagramSize
  parts.mapM UdpMessage.encode

section Ways

variable {s : UInt32} {p : UInt16} {destination : String} {payload : List UInt8} {limit size : Nat}

theorem mapM_singleton {ε α β : Type} (f : α → Except ε β) (a : α) :
    [a].mapM f = (f a).map fun b => [b] := by
  rw [List.mapM_cons, List.mapM_nil]
  cases f a <;> rfl

theorem divCeil_le_one (hsize : 0 < size) (h : payload.length ≤ size) :
    divCeil payload.length size ≤ 1 := by
  by_contra hlt
  have hone := (lt_divCeil_iff hsize).mp (Nat.lt_of_not_le hlt)
  omega

/-- A packet that fits one datagram. -/
theorem encodeFragments_of_fits (hvalid : validateMessage destination payload = .ok ())
    (hroom : UdpMessage.payloadPerFragment destination limit = some size)
    (hfits : payload.length ≤ size) :
    UdpMessage.encodeFragments s p destination payload limit =
      (encodeFragment s p 0 1 destination payload).map fun datagram => [datagram] := by
  obtain ⟨hsize, -⟩ := payloadPerFragment_eq_some hroom
  have hcount : max (divCeil payload.length size) 1 = 1 :=
    Nat.max_eq_right (divCeil_le_one hsize hfits)
  simp only [UdpMessage.encodeFragments, hvalid, hroom, hcount]
  rw [if_neg (by decide)]
  by_cases hnil : payload = []
  · rw [if_pos hnil]
    cases encodeFragment s p 0 1 destination payload <;> rfl
  · rw [if_neg hnil, chunks_of_length_le hnil hfits]
    exact mapM_singleton _ _

/-- **The two ways agree**, datagram for datagram and error for error. -/
theorem encodeFragments_eq_fragment (s : UInt32) (p : UInt16) (limit : Nat)
    (hpos : 0 < len destination) (hdestination : len destination ≤ maxAddressLength)
    (hpayload : payload.length ≤ maxUdpSize) :
    UdpMessage.encodeFragments s p destination payload limit =
      encodeParts s p destination payload limit := by
  have hvalid := validateMessage_ok_iff.mpr ⟨hpos, hdestination, hpayload⟩
  cases hroom : UdpMessage.payloadPerFragment destination limit with
  | none =>
      simp only [UdpMessage.encodeFragments, encodeParts, UdpMessage.fragment, hvalid, hroom]
      rfl
  | some size =>
      obtain ⟨hsize, -⟩ := payloadPerFragment_eq_some hroom
      by_cases hfits : payload.length ≤ size
      · rw [encodeFragments_of_fits hvalid hroom hfits]
        simp only [encodeParts, UdpMessage.fragment, hroom, if_pos hfits]
        exact (mapM_singleton UdpMessage.encode ⟨s, p, 0, 1, destination, payload⟩).symm
      · have hcount : 1 < divCeil payload.length size := (lt_divCeil_iff hsize).mpr (by omega)
        have hnil : payload ≠ [] := by
          rintro rfl
          exact hfits (Nat.zero_le _)
        simp only [UdpMessage.encodeFragments, encodeParts, UdpMessage.fragment, hvalid, hroom,
          if_neg hfits, Nat.max_eq_left hcount.le]
        split_ifs with hmany
        · rfl
        · -- each part is encoded from the fields it was built with
          change _ = (List.map _ (chunks size payload).zipIdx).mapM UdpMessage.encode
          rw [List.mapM_map]
          rfl

end Ways

/-- Three bytes by two datagrams. -/
theorem encodeFragments_eq_fragment_two :
    UdpMessage.encodeFragments 1 2 "h:1" [3, 4, 5] 14 = encodeParts 1 2 "h:1" [3, 4, 5] 14 ∧
      ∃ datagrams, encodeParts 1 2 "h:1" [3, 4, 5] 14 = .ok datagrams ∧ datagrams.length = 2 :=
  ⟨encodeFragments_eq_fragment 1 2 14 (by decide) (by decide) (by decide), _, rfl, rfl⟩

end SingBoxMini.Protocol
