import Mathlib.Data.List.Forall2
import SingBoxMini.Protocol.Varint

/-!
# Protocol — UdpMessage

The HY2 UDP message and its wire format (`src/protocol/udp.rs`): a session id, a packet id, the
fragment number and count, the destination behind its varint length, and the payload.

* `decode_encodeFragment`: a datagram `encode_fragment` writes decodes to its own fields.
* `encodeFragments_spec`: what `encode_fragments` writes is one datagram for each chunk of the
  payload, numbered from zero, each within the datagram limit.
-/

namespace SingBoxMini.Protocol
open Bytes

/-- `MAX_ADDRESS_LENGTH` -/
def maxAddressLength : Nat := 2048
/-- `MAX_UDP_SIZE` -/
def maxUdpSize : Nat := 4096

/-- `UdpCodecError`. -/
inductive UdpCodecError where
  | truncated
  | invalidDestination (length : Nat)
  | payloadTooLarge
  | invalidFragment
  | datagramLimitTooSmall
  | varInt (error : VarIntError)
  deriving DecidableEq, Repr

/-- The text of the error. -/
def UdpCodecError.message : UdpCodecError → String
  | .truncated => "UDP datagram is truncated"
  | .invalidDestination length => "invalid HY2 UDP destination length: " ++ toString length
  | .payloadTooLarge => "HY2 UDP payload exceeds " ++ toString maxUdpSize ++ " bytes"
  | .invalidFragment => "invalid HY2 UDP fragment metadata"
  | .datagramLimitTooSmall => "HY2 UDP datagram limit is too small"
  | .varInt error => error.message

/-- `UdpMessage` -/
structure UdpMessage where
  sessionId : UInt32
  packetId : UInt16
  fragmentId : UInt8
  fragmentCount : UInt8
  destination : String
  payload : List UInt8
  deriving DecidableEq, Repr

/-- What the reassembler files a message under. -/
def UdpMessage.key (message : UdpMessage) : UInt32 × UInt16 := (message.sessionId, message.packetId)

/-- `validate_message`. -/
def validateMessage (destination : String) (payload : List UInt8) : Except UdpCodecError Unit :=
  if len destination = 0 ∨ len destination > maxAddressLength then
    .error (.invalidDestination (len destination))
  else if payload.length > maxUdpSize then .error .payloadTooLarge
  else .ok ()

/-- The eight bytes before the destination. -/
def fragmentHeader (sessionId : UInt32) (packetId : UInt16) (fragmentId fragmentCount : UInt8) :
    List UInt8 :=
  beBytes 4 sessionId.toNat ++ beBytes 2 packetId.toNat ++ [fragmentId, fragmentCount]

/-- `encode_fragment`. -/
def encodeFragment (sessionId : UInt32) (packetId : UInt16) (fragmentId fragmentCount : UInt8)
    (destination : String) (payload : List UInt8) : Except UdpCodecError (List UInt8) :=
  match validateMessage destination payload with
  | .error error => .error error
  | .ok () =>
    match encodeVarint (UInt64.ofNat (len destination))
        (fragmentHeader sessionId packetId fragmentId fragmentCount) with
    | .error error => .error (.varInt error)
    | .ok output => .ok (output ++ asBytes destination ++ payload)

namespace UdpMessage

/-- `UdpMessage::encode`. -/
def encode (message : UdpMessage) : Except UdpCodecError (List UInt8) :=
  encodeFragment message.sessionId message.packetId message.fragmentId message.fragmentCount
    message.destination message.payload

/-- `UdpMessage::decode`. -/
def decode (input : List UInt8) : Except UdpCodecError UdpMessage :=
  if input.length < 9 then .error .truncated
  else
    let sessionId := UInt32.ofNat (ofBeBytes (input.take 4))
    let packetId := UInt16.ofNat (ofBeBytes ((input.drop 4).take 2))
    let fragmentId := input.getD 6 0
    let fragmentCount := input.getD 7 0
    match decodeVarint (input.drop 8) with
    | .error error => .error (.varInt error)
    | .ok (length, tail) =>
      let destinationLength := length.toNat
      if destinationLength = 0 ∨ destinationLength > maxAddressLength then
        .error (.invalidDestination destinationLength)
      else if tail.length < destinationLength then .error .truncated
      else
        let destination := fromUtf8Lossy (tail.take destinationLength)
        let payload := tail.drop destinationLength
        if payload.length > maxUdpSize then .error .payloadTooLarge
        else .ok { sessionId, packetId, fragmentId, fragmentCount, destination, payload }

/-- The room a datagram of at most `maximumDatagramSize` bytes leaves for payload, if any:
`checked_sub(header_size).filter(|size| *size > 0)`. -/
def payloadPerFragment (destination : String) (maximumDatagramSize : Nat) : Option Nat :=
  let headerSize := 8 + varintSize (UInt64.ofNat (len destination)) + len destination
  if headerSize < maximumDatagramSize then some (maximumDatagramSize - headerSize) else none

/-- `UdpMessage::encode_fragments`. -/
def encodeFragments (sessionId : UInt32) (packetId : UInt16) (destination : String)
    (payload : List UInt8) (maximumDatagramSize : Nat) :
    Except UdpCodecError (List (List UInt8)) :=
  match validateMessage destination payload with
  | .error error => .error error
  | .ok () =>
    match payloadPerFragment destination maximumDatagramSize with
    | none => .error .datagramLimitTooSmall
    | some size =>
      let fragmentCount := max (divCeil payload.length size) 1
      if fragmentCount > 255 then .error .invalidFragment
      else if payload = [] then
        match encodeFragment sessionId packetId 0 1 destination payload with
        | .error error => .error error
        | .ok datagram => .ok [datagram]
      else
        (chunks size payload).zipIdx.mapM fun (fragment, fragmentId) =>
          encodeFragment sessionId packetId (UInt8.ofNat fragmentId) (UInt8.ofNat fragmentCount)
            destination fragment

/-- `UdpMessage::fragment`. -/
def fragment (message : UdpMessage) (maximumDatagramSize : Nat) :
    Except UdpCodecError (List UdpMessage) :=
  match payloadPerFragment message.destination maximumDatagramSize with
  | none => .error .datagramLimitTooSmall
  | some size =>
    if message.payload.length ≤ size then .ok [message]
    else
      let fragmentCount := divCeil message.payload.length size
      if fragmentCount > 255 then .error .invalidFragment
      else
        .ok ((chunks size message.payload).zipIdx.map fun (payload, fragmentId) =>
          { sessionId := message.sessionId
            packetId := message.packetId
            fragmentId := UInt8.ofNat fragmentId
            fragmentCount := UInt8.ofNat fragmentCount
            destination := message.destination
            payload })

end UdpMessage

/-! ### One datagram -/

variable {destination : String} {payload d : List UInt8} {s : UInt32} {p : UInt16} {i c : UInt8}

theorem validateMessage_ok_iff :
    validateMessage destination payload = .ok () ↔
      0 < len destination ∧ len destination ≤ maxAddressLength ∧ payload.length ≤ maxUdpSize := by
  rw [validateMessage]
  split_ifs with h₁ h₂
  · exact ⟨nofun, fun h => by omega⟩
  · exact ⟨nofun, fun h => by omega⟩
  · exact ⟨fun _ => by omega, fun _ => rfl⟩

@[simp] theorem length_fragmentHeader (s : UInt32) (p : UInt16) (i c : UInt8) :
    (fragmentHeader s p i c).length = 8 := by
  simp [fragmentHeader]

/-- `encode_fragment` succeeds on a message that passes `validate_message`. -/
theorem encodeFragment_ok (h : validateMessage destination payload = .ok ()) (s : UInt32)
    (p : UInt16) (i c : UInt8) :
    ∃ d, encodeFragment s p i c destination payload = .ok d := by
  have hlen := (validateMessage_ok_iff.mp h).2.1
  have hle : UInt64.ofNat (len destination) ≤ 4611686018427387903 := by
    rw [UInt64.le_iff_toNat_le, UInt64.toNat_ofNat']
    exact Nat.le_trans (Nat.mod_le _ _) (Nat.le_trans hlen (by decide))
  obtain ⟨out, hout⟩ := encodeVarint_ok hle (fragmentHeader s p i c)
  rw [encodeFragment, h]
  simp only [hout]
  exact ⟨_, rfl⟩

/-- **What `encode_fragment` writes.** -/
theorem encodeFragment_spec (h : encodeFragment s p i c destination payload = .ok d) :
    validateMessage destination payload = .ok () ∧
      ∃ bs, d = fragmentHeader s p i c ++ (bs ++ (asBytes destination ++ payload)) ∧
        bs.length = varintSize (UInt64.ofNat (len destination)) ∧
        ∀ rest, decodeVarint (bs ++ rest) = .ok (UInt64.ofNat (len destination), rest) := by
  rw [encodeFragment] at h
  cases hv : validateMessage destination payload with
  | error e => rw [hv] at h; cases h
  | ok u =>
      rw [hv] at h
      cases he : encodeVarint (UInt64.ofNat (len destination)) (fragmentHeader s p i c) with
      | error e => simp only [he] at h; cases h
      | ok out =>
          simp only [he, Except.ok.injEq] at h
          obtain ⟨bs, rfl, hlen, hdec⟩ := encodeVarint_spec he
          exact ⟨rfl, bs, by rw [← h]; simp [List.append_assoc], hlen, hdec⟩

/-- The length of a datagram. -/
theorem length_of_encodeFragment (h : encodeFragment s p i c destination payload = .ok d) :
    d.length = 8 + varintSize (UInt64.ofNat (len destination)) + len destination
      + payload.length := by
  obtain ⟨-, bs, rfl, hlen, -⟩ := encodeFragment_spec h
  simp only [List.length_append, length_fragmentHeader, hlen, len]
  omega

/-- The header's four fields, read back. -/
theorem decode_fragmentHeader (s : UInt32) (p : UInt16) (i c : UInt8) (tail : List UInt8) :
    let input := fragmentHeader s p i c ++ tail
    UInt32.ofNat (ofBeBytes (input.take 4)) = s ∧
      UInt16.ofNat (ofBeBytes ((input.drop 4).take 2)) = p ∧
      input.getD 6 0 = i ∧ input.getD 7 0 = c ∧ input.drop 8 = tail := by
  have hs : (fragmentHeader s p i c ++ tail).take 4 = beBytes 4 s.toNat := by
    simp [fragmentHeader]
  have hp : ((fragmentHeader s p i c ++ tail).drop 4).take 2 = beBytes 2 p.toNat := by
    simp [fragmentHeader]
  refine ⟨?_, ?_, ?_, ?_, ?_⟩
  · rw [hs, ofBeBytes_beBytes, Nat.mod_eq_of_lt (b := 256 ^ 4) s.toNat_lt, UInt32.ofNat_toNat]
  · rw [hp, ofBeBytes_beBytes, Nat.mod_eq_of_lt (b := 256 ^ 2) p.toNat_lt, UInt16.ofNat_toNat]
  · simp [fragmentHeader, List.getElem?_append]
  · simp [fragmentHeader, List.getElem?_append]
  · rw [List.drop_left' (length_fragmentHeader s p i c)]

/-- **Codec round trip**: a datagram `encode_fragment` writes decodes to the fields it was written
from. -/
theorem decode_encodeFragment (h : encodeFragment s p i c destination payload = .ok d) :
    UdpMessage.decode d = .ok ⟨s, p, i, c, destination, payload⟩ := by
  obtain ⟨hv, bs, rfl, hlen, hdec⟩ := encodeFragment_spec h
  obtain ⟨hpos, hmax, hpay⟩ := validateMessage_ok_iff.mp hv
  obtain ⟨hs, hp, hi, hc, htail⟩ :=
    decode_fragmentHeader s p i c (bs ++ (asBytes destination ++ payload))
  have hnat : (UInt64.ofNat (len destination)).toNat = len destination := by
    rw [UInt64.toNat_ofNat', Nat.mod_eq_of_lt]
    exact Nat.lt_of_le_of_lt hmax (by decide)
  have htake : (asBytes destination ++ payload).take (len destination) = asBytes destination :=
    List.take_left' rfl
  have hdrop : (asBytes destination ++ payload).drop (len destination) = payload :=
    List.drop_left' rfl
  rw [UdpMessage.decode, if_neg]
  · simp only [hs, hp, hi, hc, htail, hdec, hnat, htake, hdrop]
    rw [if_neg (by omega), if_neg (by simp [len]), if_neg (by omega), fromUtf8Lossy_asBytes]
  · -- nine bytes at least: the header and one byte of the destination
    simp only [List.length_append, length_fragmentHeader]
    have : (asBytes destination).length = len destination := rfl
    omega

/-! ### The datagrams of one packet -/

/-- A `collect` into a `Result` succeeds when every element does, in order. -/
theorem mapM_ok {α β ε : Type} {f : α → Except ε β} : ∀ {l : List α} {r : List β},
    l.mapM f = .ok r → List.Forall₂ (fun a b => f a = .ok b) l r
  | [], r, h => by
      rw [List.mapM_nil] at h
      cases h
      exact .nil
  | a :: l, r, h => by
      rw [List.mapM_cons] at h
      cases ha : f a with
      | error e => rw [ha] at h; cases h
      | ok b =>
          cases hl : l.mapM f with
          | error e => rw [ha, hl] at h; cases h
          | ok r' =>
              rw [ha, hl] at h
              cases h
              exact .cons ha (mapM_ok hl)

theorem payloadPerFragment_eq_some {limit size : Nat}
    (h : UdpMessage.payloadPerFragment destination limit = some size) :
    0 < size ∧
      8 + varintSize (UInt64.ofNat (len destination)) + len destination + size = limit := by
  simp only [UdpMessage.payloadPerFragment] at h
  split_ifs at h with hlt
  cases h
  omega

/-- `datagrams` carry `payload` in `pieces`: one datagram for each piece, numbered from zero, each
with the number of pieces. -/
structure Fragmentation (s : UInt32) (p : UInt16) (destination : String) (payload : List UInt8)
    (pieces datagrams : List (List UInt8)) : Prop where
  flatten_pieces : pieces.flatten = payload
  pieces_pos : 0 < pieces.length
  pieces_le : pieces.length ≤ 255
  length_datagrams : datagrams.length = pieces.length
  encoded : ∀ {i piece d}, pieces[i]? = some piece → datagrams[i]? = some d →
    encodeFragment s p (UInt8.ofNat i) (UInt8.ofNat pieces.length) destination piece = .ok d

/-- **What `encode_fragments` writes**: the chunks of the payload, each in a datagram within the
limit. -/
theorem encodeFragments_spec {limit : Nat} {datagrams : List (List UInt8)}
    (h : UdpMessage.encodeFragments s p destination payload limit = .ok datagrams) :
    ∃ pieces, Fragmentation s p destination payload pieces datagrams ∧
      ∀ d ∈ datagrams, d.length ≤ limit := by
  rw [UdpMessage.encodeFragments] at h
  cases hv : validateMessage destination payload with
  | error e => rw [hv] at h; cases h
  | ok u =>
  cases hs : UdpMessage.payloadPerFragment destination limit with
  | none => simp only [hv, hs] at h; cases h
  | some size =>
  simp only [hv, hs] at h
  obtain ⟨hsize, hlimit⟩ := payloadPerFragment_eq_some hs
  split_ifs at h with hcount hnil
  · -- an empty payload: the one datagram of an empty piece
    subst hnil
    cases he : encodeFragment s p 0 1 destination [] with
    | error e => rw [he] at h; cases h
    | ok d =>
        rw [he] at h
        cases h
        refine ⟨[[]], ⟨rfl, by decide, by decide, rfl, fun {i piece d'} hp hd => ?_⟩, ?_⟩
        · obtain ⟨rfl, rfl⟩ : i = 0 ∧ piece = [] := by
            cases i with
            | zero => simpa using hp.symm
            | succ i => simp at hp
          cases hd
          exact he
        · intro d' hd'
          rw [List.mem_singleton.mp hd', length_of_encodeFragment he, List.length_nil]
          omega
  · have hlen : 0 < payload.length := List.length_pos_iff.mpr hnil
    have hcpos : 0 < divCeil payload.length size := (lt_divCeil_iff hsize).mpr (by omega)
    rw [Nat.max_eq_left hcpos] at h hcount
    have hall := mapM_ok h
    have hlen' : datagrams.length = (chunks size payload).length := by
      rw [← hall.length_eq, List.length_zipIdx]
    -- the `i`-th datagram encodes the `i`-th chunk
    have henc : ∀ {i piece d}, (chunks size payload)[i]? = some piece → datagrams[i]? = some d →
        encodeFragment s p (UInt8.ofNat i) (UInt8.ofNat (chunks size payload).length)
          destination piece = .ok d := by
      intro i piece d hp hd
      obtain ⟨hi, rfl⟩ := List.getElem?_eq_some_iff.mp hd
      have hz : (chunks size payload).zipIdx[i]? = some (piece, i) := by
        rw [List.getElem?_zipIdx, hp]; simp
      obtain ⟨hi', hz'⟩ := List.getElem?_eq_some_iff.mp hz
      have := (List.forall₂_iff_get.mp hall).2 i hi' hi
      simp only [List.get_eq_getElem, hz'] at this
      rw [length_chunks]
      exact this
    refine ⟨chunks size payload, ⟨flatten_chunks hsize payload, by rwa [length_chunks],
      by rw [length_chunks]; omega, hlen', henc⟩, fun d hd => ?_⟩
    obtain ⟨i, hi, rfl⟩ := List.mem_iff_getElem.mp hd
    have hi' : i < (chunks size payload).length := hlen' ▸ hi
    have hle : ((chunks size payload)[i]).length ≤ size :=
      length_le_of_mem_chunks (List.getElem_mem hi')
    rw [length_of_encodeFragment (henc (List.getElem?_eq_getElem hi')
      (List.getElem?_eq_getElem hi))]
    omega

/-- The message the `i`-th datagram of a fragmentation decodes to. -/
def fragmentMessage (s : UInt32) (p : UInt16) (destination : String)
    (pieces : List (List UInt8)) (i : Nat) (piece : List UInt8) : UdpMessage :=
  ⟨s, p, UInt8.ofNat i, UInt8.ofNat pieces.length, destination, piece⟩

theorem Fragmentation.decode {pieces datagrams : List (List UInt8)}
    (h : Fragmentation s p destination payload pieces datagrams) (hd : d ∈ datagrams) :
    ∃ i piece, pieces[i]? = some piece ∧ datagrams[i]? = some d ∧
      UdpMessage.decode d = .ok (fragmentMessage s p destination pieces i piece) := by
  obtain ⟨i, hi, rfl⟩ := List.mem_iff_getElem.mp hd
  have hi' : i < pieces.length := h.length_datagrams ▸ hi
  exact ⟨i, pieces[i], List.getElem?_eq_getElem hi', List.getElem?_eq_getElem hi,
    decode_encodeFragment (h.encoded (List.getElem?_eq_getElem hi') (List.getElem?_eq_getElem hi))⟩

end SingBoxMini.Protocol
