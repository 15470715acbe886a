import SingBoxMini.Protocol.UdpMessage

/-!
# Protocol — TcpRequest

The HY2 TCP request (`src/protocol/tcp.rs`): the frame type, the destination and the padding, each
behind its varint length, and the payload.

* `Framed` is the format itself, and `decode_eq_ok_iff` says that `TcpRequest::decode` accepts
  exactly what has it.
* `framed_of_encode`: what `TcpRequest::encode` writes has the format.
* `tcp_codec`: what it accepts is decoded to what it was, and a header that is cut is refused.
-/

namespace SingBoxMini.Protocol
open Bytes

/-- `MAX_PADDING_LENGTH` -/
def maxPaddingLength : Nat := 4096
/-- `FRAME_TYPE_TCP_REQUEST` -/
def frameTypeTcpRequest : UInt64 := 0x401

/-- An integer as `{:#x}` shows it. -/
def hex (value : UInt64) : String := "0x" ++ String.ofList (Nat.toDigits 16 value.toNat)

/-- `TcpCodecError`. -/
inductive TcpCodecError where
  | invalidFrameType (frameType : UInt64)
  | invalidLength (field : String) (length : Nat)
  | truncated
  | varInt (error : VarIntError)
  deriving DecidableEq, Repr

/-- The text of the error. -/
def TcpCodecError.message : TcpCodecError → String
  | .invalidFrameType frameType => "invalid HY2 frame type: " ++ hex frameType
  | .invalidLength field length => "invalid " ++ field ++ " length: " ++ toString length
  | .truncated => "truncated HY2 TCP frame"
  | .varInt error => error.message

/-- `TcpRequest` -/
structure TcpRequest where
  destination : String
  payload : List UInt8
  deriving DecidableEq, Repr

/-- `validate_len`. -/
def validateLen (length maximum : Nat) (field : String) : Except TcpCodecError Unit :=
  if length > maximum then .error (.invalidLength field length) else .ok ()

/-- `read_limited`: the value, and what it leaves of the input. -/
def readLimited (input : List UInt8) (maximum : Nat) (field : String) :
    Except TcpCodecError (List UInt8 × List UInt8) :=
  match decodeVarint input with
  | .error error => .error (.varInt error)
  | .ok (value, input) =>
    let length := value.toNat
    match validateLen length maximum field with
    | .error error => .error error
    | .ok () =>
      if input.length < length then .error .truncated
      else .ok (input.take length, input.drop length)

/-- `write_bytes`: `output` with the length of `bytes` and `bytes` appended. -/
def writeBytes (bytes output : List UInt8) : Except TcpCodecError (List UInt8) :=
  match encodeVarint (.ofNat bytes.length) output with
  | .error error => .error (.varInt error)
  | .ok output => .ok (output ++ bytes)

namespace TcpRequest

/-- `TcpRequest::decode`. -/
def decode (input : List UInt8) : Except TcpCodecError TcpRequest :=
  match decodeVarint input with
  | .error error => .error (.varInt error)
  | .ok (frameType, input) =>
    if frameType ≠ frameTypeTcpRequest then .error (.invalidFrameType frameType)
    else
      match readLimited input maxAddressLength "address" with
      | .error error => .error error
      | .ok (address, input) =>
        if address = [] then .error (.invalidLength "address" 0)
        else
          match readLimited input maxPaddingLength "padding" with
          | .error error => .error error
          | .ok (_, input) => .ok { destination := fromUtf8Lossy address, payload := input }

/-- `TcpRequest::encode`. -/
def encode (destination : String) (padding payload : List UInt8) :
    Except TcpCodecError (List UInt8) :=
  match validateLen (len destination) maxAddressLength "address" with
  | .error error => .error error
  | .ok () =>
    if len destination = 0 then .error (.invalidLength "address" 0)
    else
      match validateLen padding.length maxPaddingLength "padding" with
      | .error error => .error error
      | .ok () =>
        match encodeVarint frameTypeTcpRequest [] with
        | .error error => .error (.varInt error)
        | .ok output =>
          match writeBytes (asBytes destination) output with
          | .error error => .error error
          | .ok output =>
            match writeBytes padding output with
            | .error error => .error error
            | .ok output => .ok (output ++ payload)

end TcpRequest

/-! ### The format -/

/-- Bytes behind their length, which is at most `maximum`. -/
inductive Limited (maximum : Nat) : List UInt8 → List UInt8 → List UInt8 → Prop where
  | intro {input value rest : List UInt8} {length : UInt64}
      (decodes : decodeVarint input = .ok (length, value ++ rest))
      (length_eq : length.toNat = value.length) (le : value.length ≤ maximum) :
      Limited maximum input value rest

/-- **The format of a request.** -/
inductive Framed : List UInt8 → List UInt8 → List UInt8 → List UInt8 → Prop where
  | intro {input typed addressed address padding payload : List UInt8}
      (frame_type : decodeVarint input = .ok (frameTypeTcpRequest, typed))
      (has_address : Limited maxAddressLength typed address addressed) (ne_nil : address ≠ [])
      (has_padding : Limited maxPaddingLength addressed padding payload) :
      Framed input address padding payload

variable {input value rest padding address : List UInt8} {maximum : Nat}

/-- **`read_limited` accepts the bytes behind their length.** -/
theorem readLimited_eq_ok_iff {field : String} :
    readLimited input maximum field = .ok (value, rest) ↔ Limited maximum input value rest := by
  rw [readLimited]
  constructor
  · intro h
    cases hdecode : decodeVarint input with
    | error error =>
        rw [hdecode] at h
        cases h
    | ok result =>
        obtain ⟨length, tail⟩ := result
        simp only [hdecode, validateLen] at h
        by_cases hmax : length.toNat > maximum
        · rw [if_pos hmax] at h
          cases h
        · rw [if_neg hmax] at h
          simp only at h
          split_ifs at h with hlen
          cases h
          have htake : (tail.take length.toNat).length = length.toNat :=
            List.length_take_of_le (Nat.le_of_not_lt hlen)
          exact ⟨by rw [hdecode, List.take_append_drop], htake.symm, by omega⟩
  · rintro ⟨hdecode, hlength, hle⟩
    have hfits : ¬ (value ++ rest).length < value.length := by simp
    simp only [hdecode, hlength, validateLen, if_neg (Nat.not_lt_of_le hle), if_neg hfits,
      List.take_left, List.drop_left]

/-- **`TcpRequest::decode` accepts what has the format.** -/
theorem decode_eq_ok_iff {request : TcpRequest} :
    TcpRequest.decode input = .ok request ↔ ∃ address padding,
      Framed input address padding request.payload ∧
        request.destination = fromUtf8Lossy address := by
  constructor
  · intro h
    rw [TcpRequest.decode] at h
    cases htype : decodeVarint input with
    | error error =>
        rw [htype] at h
        cases h
    | ok result =>
        obtain ⟨frameType, typed⟩ := result
        simp only [htype] at h
        split_ifs at h with hframe
        rw [ne_eq, not_not] at hframe
        subst hframe
        cases haddress : readLimited typed maxAddressLength "address" with
        | error error =>
            rw [haddress] at h
            cases h
        | ok result =>
            obtain ⟨address, addressed⟩ := result
            simp only [haddress] at h
            split_ifs at h with hne
            cases hpadding : readLimited addressed maxPaddingLength "padding" with
            | error error =>
                rw [hpadding] at h
                cases h
            | ok result =>
                rw [hpadding] at h
                cases h
                exact ⟨address, result.1, .intro htype (readLimited_eq_ok_iff.mp haddress) hne
                  (readLimited_eq_ok_iff.mp hpadding), rfl⟩
  · rintro ⟨address, padding, ⟨htype, haddress, hne, hpadding⟩, hdestination⟩
    simp only [TcpRequest.decode, htype, ne_eq, not_true, if_false,
      readLimited_eq_ok_iff.mpr haddress, if_neg hne, readLimited_eq_ok_iff.mpr hpadding,
      ← hdestination]

/-! ### What is written has the format -/

/-- What `write_bytes` appends is the bytes behind their length, whatever follows. -/
theorem writeBytes_spec {bytes output out : List UInt8} (hmax : maximum < 2 ^ 64)
    (hle : bytes.length ≤ maximum) (h : writeBytes bytes output = .ok out) :
    ∃ written, out = output ++ written ∧
      ∀ rest, Limited maximum (written ++ rest) bytes rest := by
  rw [writeBytes] at h
  cases hencode : encodeVarint (.ofNat bytes.length) output with
  | error error =>
      rw [hencode] at h
      cases h
  | ok output' =>
      rw [hencode] at h
      cases h
      obtain ⟨header, rfl, -, hdecode⟩ := encodeVarint_spec hencode
      refine ⟨header ++ bytes, by rw [List.append_assoc], fun rest => ?_⟩
      have hlength : (UInt64.ofNat bytes.length).toNat = bytes.length := by
        rw [UInt64.toNat_ofNat', Nat.mod_eq_of_lt (by omega)]
      exact .intro (by rw [List.append_assoc, hdecode]) hlength hle

/-- **What `TcpRequest::encode` writes has the format**, whatever follows. -/
theorem framed_of_encode {destination : String} {header : List UInt8}
    (h : TcpRequest.encode destination padding [] = .ok header) (payload : List UInt8) :
    Framed (header ++ payload) (asBytes destination) padding payload := by
  simp only [TcpRequest.encode, validateLen] at h
  by_cases hlong : len destination > maxAddressLength
  · rw [if_pos hlong] at h
    cases h
  rw [if_neg hlong] at h
  simp only at h
  split_ifs at h with hempty hpadding
  have hne : asBytes destination ≠ [] := fun heq => hempty (by rw [len, heq, List.length_nil])
  simp only at h
  cases htype : encodeVarint frameTypeTcpRequest [] with
  | error error =>
      rw [htype] at h
      cases h
  | ok output =>
      simp only [htype] at h
      obtain ⟨_, rfl, -, hdecode⟩ := encodeVarint_spec htype
      cases haddress : writeBytes (asBytes destination) output with
      | error error =>
          rw [haddress] at h
          cases h
      | ok addressed =>
          simp only [haddress] at h
          obtain ⟨written, rfl, hlimited⟩ := writeBytes_spec (by decide)
            (Nat.le_of_not_lt hlong) haddress
          cases hwrite : writeBytes padding (output ++ written) with
          | error error =>
              rw [hwrite] at h
              cases h
          | ok padded =>
              rw [hwrite] at h
              cases h
              obtain ⟨written', rfl, hlimited'⟩ := writeBytes_spec (by decide)
                (Nat.le_of_not_lt hpadding) hwrite
              have htyped := hdecode (written ++ (written' ++ payload))
              simp only [← List.append_assoc, List.append_nil] at htyped ⊢
              exact .intro htyped (by simpa using hlimited (written' ++ payload)) hne (hlimited' _)

/-! ### Headers that are cut -/

/-- More bytes at the end belong to what is left. -/
theorem Limited.append (h : Limited maximum input value rest) (more : List UInt8) :
    Limited maximum (input ++ more) value (rest ++ more) := by
  obtain ⟨hdecode, hlength, hle⟩ := h
  refine .intro ?_ hlength hle
  rw [decodeVarint_append hdecode, List.append_assoc]

theorem Framed.append {payload : List UInt8} (h : Framed input address padding payload)
    (more : List UInt8) :
    Framed (input ++ more) address padding (payload ++ more) := by
  obtain ⟨htype, haddress, hne, hpadding⟩ := h
  exact .intro (decodeVarint_append htype more) (haddress.append more) hne (hpadding.append more)

/-- What is behind a length is read in one way, -/
theorem Limited.unique {value' rest' : List UInt8} (h : Limited maximum input value rest)
    (h' : Limited maximum input value' rest') :
    value = value' ∧ rest = rest' := by
  obtain ⟨hdecode, hlength, -⟩ := h
  obtain ⟨hdecode', hlength', -⟩ := h'
  obtain ⟨rfl, happend⟩ := Prod.mk.inj (Except.ok.inj (hdecode.symm.trans hdecode'))
  exact List.append_inj happend (hlength.symm.trans hlength')

/-- and so is a request. -/
theorem Framed.unique {payload address' padding' payload' : List UInt8}
    (h : Framed input address padding payload) (h' : Framed input address' padding' payload') :
    address = address' ∧ padding = padding' ∧ payload = payload' := by
  obtain ⟨htype, haddress, -, hpadding⟩ := h
  obtain ⟨htype', haddress', -, hpadding'⟩ := h'
  obtain ⟨-, rfl⟩ := Prod.mk.inj (Except.ok.inj (htype.symm.trans htype'))
  obtain ⟨rfl, rfl⟩ := haddress.unique haddress'
  obtain ⟨rfl, rfl⟩ := hpadding.unique hpadding'
  exact ⟨rfl, rfl, rfl⟩

/-- **A header that is cut is refused**: if it were read, the rest of it would be payload. -/
theorem decode_cut {header cut more : List UInt8} (h : Framed header address padding [])
    (hcut : cut ++ more = header) (hmore : more ≠ []) :
    ∃ error, TcpRequest.decode cut = .error error := by
  cases hdecode : TcpRequest.decode cut with
  | error error => exact ⟨error, rfl⟩
  | ok request =>
      obtain ⟨address', padding', hframed, -⟩ := decode_eq_ok_iff.mp hdecode
      have hwhole := hframed.append more
      rw [hcut] at hwhole
      obtain ⟨-, -, hpayload⟩ := h.unique hwhole
      exact absurd (List.append_eq_nil_iff.mp hpayload.symm).2 hmore

/-! ### What is encoded -/

section Encode

variable {destination : String} {padding payload : List UInt8}

theorem writeBytes_ok {bytes : List UInt8} (h : bytes.length ≤ maxPaddingLength)
    (output : List UInt8) : ∃ out, writeBytes bytes output = .ok out := by
  have hle : UInt64.ofNat bytes.length ≤ 4611686018427387903 := by
    rw [UInt64.le_iff_toNat_le, UInt64.toNat_ofNat']
    exact Nat.le_trans (Nat.mod_le _ _) (Nat.le_trans h (by decide))
  obtain ⟨out, hout⟩ := encodeVarint_ok hle output
  rw [writeBytes, hout]
  exact ⟨_, rfl⟩

/-- The payload comes last, as it is. -/
theorem encode_payload (destination : String) (padding payload : List UInt8) :
    TcpRequest.encode destination padding payload =
      (TcpRequest.encode destination padding []).map (· ++ payload) := by
  simp only [TcpRequest.encode]
  cases validateLen (len destination) maxAddressLength "address" with
  | error error => rfl
  | ok _ =>
      simp only
      split_ifs with hempty
      · rfl
      cases validateLen padding.length maxPaddingLength "padding" with
      | error error => rfl
      | ok _ =>
          cases encodeVarint frameTypeTcpRequest [] with
          | error error => rfl
          | ok typed =>
              simp only
              cases writeBytes (asBytes destination) typed with
              | error error => rfl
              | ok addressed =>
                  simp only
                  cases writeBytes padding addressed with
                  | error error => rfl
                  | ok padded =>
                      simp only [List.append_nil]
                      rfl

/-- **What `TcpRequest::encode` accepts.** -/
theorem encode_ok_iff :
    (∃ header, TcpRequest.encode destination padding [] = .ok header) ↔
      1 ≤ len destination ∧ len destination ≤ maxAddressLength ∧
        padding.length ≤ maxPaddingLength := by
  constructor
  · rintro ⟨header, h⟩
    simp only [TcpRequest.encode, validateLen] at h
    by_cases hlong : len destination > maxAddressLength
    · rw [if_pos hlong] at h
      cases h
    rw [if_neg hlong] at h
    simp only at h
    split_ifs at h with hempty hpadding
    exact ⟨Nat.pos_of_ne_zero hempty, Nat.le_of_not_lt hlong, Nat.le_of_not_lt hpadding⟩
  · rintro ⟨hpos, hlong, hpadding⟩
    obtain ⟨typed, htyped⟩ := encodeVarint_ok (show frameTypeTcpRequest ≤ _ by decide) []
    obtain ⟨addressed, haddressed⟩ :=
      @writeBytes_ok (asBytes destination) (Nat.le_trans hlong (by decide)) typed
    obtain ⟨padded, hpadded⟩ := writeBytes_ok hpadding addressed
    simp only [TcpRequest.encode, validateLen, if_neg (Nat.not_lt_of_le hlong),
      if_neg (Nat.ne_of_gt hpos), if_neg (Nat.not_lt_of_le hpadding), htyped, haddressed, hpadded]
    exact ⟨_, rfl⟩

/-- **The codec of requests.**  `encode` accepts exactly the destinations and paddings within the
limits; what it writes is a header and the payload, and is decoded to the destination and the
payload; a header that is cut anywhere is refused. -/
theorem tcp_codec (destination : String) (padding payload : List UInt8) :
    ((∃ out, TcpRequest.encode destination padding payload = .ok out) ↔
      1 ≤ len destination ∧ len destination ≤ maxAddressLength ∧
        padding.length ≤ maxPaddingLength) ∧
    ∀ out, TcpRequest.encode destination padding payload = .ok out →
      TcpRequest.decode out = .ok ⟨destination, payload⟩ ∧
      ∃ header, TcpRequest.encode destination padding [] = .ok header ∧ out = header ++ payload ∧
        ∀ cut, cut <+: header → cut ≠ header → ∃ error, TcpRequest.decode cut = .error error := by
  have hmap := encode_payload destination padding payload
  refine ⟨?_, fun out hout => ?_⟩
  · rw [← encode_ok_iff, hmap]
    cases TcpRequest.encode destination padding [] with
    | error error => exact iff_of_false (by rintro ⟨_, h⟩; cases h) (by rintro ⟨_, h⟩; cases h)
    | ok header => exact iff_of_true ⟨_, rfl⟩ ⟨header, rfl⟩
  · rw [hmap] at hout
    cases hheader : TcpRequest.encode destination padding [] with
    | error error =>
        rw [hheader] at hout
        cases hout
    | ok header =>
        rw [hheader] at hout
        cases hout
        refine ⟨?_, header, rfl, rfl, ?_⟩
        · exact decode_eq_ok_iff.mpr ⟨_, padding, framed_of_encode hheader payload,
            (fromUtf8Lossy_asBytes destination).symm⟩
        · rintro cut ⟨more, hcut⟩ hne
          have hframed := framed_of_encode hheader []
          rw [List.append_nil] at hframed
          refine decode_cut hframed hcut ?_
          rintro rfl
          rw [List.append_nil] at hcut
          exact hne hcut

end Encode

end SingBoxMini.Protocol
