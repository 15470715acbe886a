import SingBoxMini.Protocol.TcpRequest
import SingBoxMini.Support.Reader

/-!
# Server — TcpStream

How `relay_tcp_stream` (`src/server.rs`) reads a HY2 TCP request from a QUIC stream, beside
`TcpRequest::decode` on the whole of it.

* `run_of_framed`: on a stream whose bytes have the format of a request the reader gets to its last
  read, the first chunk of the payload, with the payload before it.
* `decoders_agree_iff`: the two accept the same streams, with the same destination and the same
  payload, unless the address is not UTF-8: one replaces what is not, the other refuses it.
* `request_read_iff`: that last read needs a byte behind the header or the end of the stream.
-/

namespace SingBoxMini.Server
open Bytes Protocol Reader

/-- The errors `relay_tcp_stream` makes before it connects. -/
inductive RelayError where
  | unexpectedFrameType (frameType : UInt64)
  | invalidAddressLength (length : Nat)
  | invalidPaddingLength (length : Nat)
  | notUtf8
  | varInt (error : VarIntError)
  deriving DecidableEq, Repr

/-- `read_varint`. -/
def readVarint : Reader RelayError UInt64 := do
  let first ← readExact 1
  let length := 1 <<< (first.headD 0 >>> 6).toNat
  let rest ← if length > 1 then readExact (length - 1) else pure []
  let result ← Reader.ofExcept ((decodeVarint (first ++ rest)).mapError RelayError.varInt)
  return result.1

/-- `read_tcp_request`. -/
def readTcpRequest : Reader RelayError TcpRequest := do
  let addressLength := (← readVarint).toNat
  if addressLength = 0 ∨ addressLength > maxAddressLength then
    .fail (.invalidAddressLength addressLength)
  else
    let address ← readExact addressLength
    let paddingLength := (← readVarint).toNat
    if paddingLength > maxPaddingLength then .fail (.invalidPaddingLength paddingLength)
    else
      let _padding ← readExact paddingLength
      let payload := (← readChunk).getD []
      match fromUtf8 address with
      | none => .fail .notUtf8
      | some destination => pure { destination, payload }

/-- What `relay_tcp_stream` does before it connects. -/
def relayRequest : Reader RelayError TcpRequest := do
  let frameType ← readVarint
  if frameType ≠ frameTypeTcpRequest then .fail (.unexpectedFrameType frameType)
  else readTcpRequest

/-! ### Integers -/

variable {first : UInt8}

/-- An integer is decoded from its own bytes. -/
theorem decodeVarint_take {tail : List UInt8} (h : (1 <<< (first >>> 6).toNat) - 1 ≤ tail.length) :
    ∃ value, decodeVarint (first :: tail.take ((1 <<< (first >>> 6).toNat) - 1)) =
        .ok (value, []) ∧
      decodeVarint (first :: tail) = .ok (value, tail.drop ((1 <<< (first >>> 6).toNat) - 1)) := by
  have htake := List.length_take_of_le h
  have hown : ¬ (tail.take ((1 <<< (first >>> 6).toNat) - 1)).length + 1 <
      1 <<< (first >>> 6).toNat := by omega
  have hall : ¬ tail.length + 1 < 1 <<< (first >>> 6).toNat := by omega
  simp only [decodeVarint, if_neg hown, if_neg hall, List.take_take, Nat.min_self,
    List.drop_take_self]
  exact ⟨_, rfl, rfl⟩

variable {α : Type} {finished : Bool} {chunks : List (List UInt8)}

/-- What `read_varint` does after the first byte. -/
def afterFirst (first : List UInt8) (f : UInt64 → Reader RelayError α) : Reader RelayError α :=
  let length := 1 <<< (first.headD 0 >>> 6).toNat
  let next := fun rest =>
    Reader.ofExcept ((decodeVarint (first ++ rest)).mapError RelayError.varInt) >>=
      fun result => f result.1
  if length > 1 then .bytes (length - 1) next else next []

theorem readVarint_bind (f : UInt64 → Reader RelayError α) :
    readVarint >>= f = .bytes 1 fun first => afterFirst first f := by
  rw [readVarint, bind_assoc, readExact_bind]
  refine congrArg (Reader.bytes 1) (funext fun first => ?_)
  simp only [pure_bind, afterFirst]
  split_ifs
  · rw [bind_assoc, readExact_bind]
    simp only [bind_assoc, pure_bind]
  · simp only [bind_assoc, pure_bind]

/-- The first byte of an integer. -/
theorem run_readVarint_bind {tail : List UInt8} (h : chunks.flatten = first :: tail)
    (f : UInt64 → Reader RelayError α) :
    ∃ chunks', chunks'.flatten = tail ∧
      (readVarint >>= f).run finished chunks = (afterFirst [first] f).run finished chunks' := by
  have hone : 1 ≤ chunks.flatten.length := by simp [h]
  rw [readVarint_bind]
  obtain ⟨chunks', hchunks', hrun⟩ := run_bytes_of_le hone
  rw [h] at hchunks'
  refine ⟨chunks', hchunks', ?_⟩
  rw [hrun, h]
  rfl

theorem afterFirst_of_long (h : 1 <<< (first >>> 6).toNat > 1) (f : UInt64 → Reader RelayError α) :
    afterFirst [first] f = .bytes ((1 <<< (first >>> 6).toNat) - 1) fun rest =>
      Reader.ofExcept ((decodeVarint (first :: rest)).mapError RelayError.varInt) >>=
        fun result => f result.1 :=
  if_pos h

theorem afterFirst_of_short {first : UInt8} (h : ¬ 1 <<< (first >>> 6).toNat > 1)
    (f : UInt64 → Reader RelayError α) :
    afterFirst [first] f =
      Reader.ofExcept ((decodeVarint [first]).mapError RelayError.varInt) >>=
        fun result => f result.1 :=
  if_neg h

/-- **`read_varint` is `decode_varint`** where that accepts. -/
theorem run_readVarint_of_ok {value : UInt64} {rest : List UInt8}
    (h : decodeVarint chunks.flatten = .ok (value, rest)) (f : UInt64 → Reader RelayError α) :
    ∃ chunks', chunks'.flatten = rest ∧
      (readVarint >>= f).run finished chunks = (f value).run finished chunks' := by
  cases hbytes : chunks.flatten with
  | nil =>
      rw [hbytes] at h
      cases h
  | cons first tail =>
      obtain ⟨chunks₁, rfl, hrun⟩ := run_readVarint_bind hbytes f
      rw [hbytes] at h
      have hle : (1 <<< (first >>> 6).toNat) - 1 ≤ chunks₁.flatten.length := by
        rw [decodeVarint] at h
        split_ifs at h
        omega
      obtain ⟨value', hown, hall⟩ := decodeVarint_take hle
      cases hall.symm.trans h
      rw [hrun]
      by_cases hlength : 1 <<< (first >>> 6).toNat > 1
      · obtain ⟨chunks₂, hchunks₂, hrun₂⟩ := run_bytes_of_le hle
        refine ⟨chunks₂, hchunks₂, ?_⟩
        rw [afterFirst_of_long hlength, hrun₂, hown]
        rfl
      · have hzero : 1 <<< (first >>> 6).toNat - 1 = 0 := by omega
        rw [hzero, List.take_zero] at hown
        refine ⟨chunks₁, by rw [hzero, List.drop_zero], ?_⟩
        rw [afterFirst_of_short hlength, hown]
        rfl

/-- Where `decode_varint` does not accept, `read_varint` does not come to a value. -/
theorem value_readVarint_of_error {error : VarIntError}
    (h : decodeVarint chunks.flatten = .error error) (f : UInt64 → Reader RelayError α) :
    ((readVarint >>= f).run finished chunks).value = none := by
  cases hbytes : chunks.flatten with
  | nil =>
      rw [readVarint_bind]
      exact value_run_bytes_of_lt (by simp [hbytes])
  | cons first tail =>
      obtain ⟨chunks₁, hchunks₁, hrun⟩ := run_readVarint_bind hbytes f
      rw [hbytes, decodeVarint] at h
      split_ifs at h with hshort
      rw [hrun, afterFirst_of_long (by omega)]
      exact value_run_bytes_of_lt (by rw [hchunks₁]; omega)

/-- **`read_varint` while the stream is delivered**: the value and what is left of the bytes are
those of `decode_varint`. -/
theorem value_readVarint (finished : Bool) (chunks : List (List UInt8)) :
    (readVarint.run finished chunks).value = (decodeVarint chunks.flatten).toOption := by
  rw [← bind_pure readVarint]
  cases hdecode : decodeVarint chunks.flatten with
  | error error => rw [value_readVarint_of_error hdecode]; rfl
  | ok decoded =>
      obtain ⟨value, rest⟩ := decoded
      obtain ⟨chunks', rfl, hrun⟩ := run_readVarint_of_ok hdecode pure
      rw [hrun]
      rfl

/-- **QUIC integers.**  Every value of at most 62 bits is appended in the least of the four widths
that holds it, and read back whatever follows; a larger one is refused, and nothing is appended.  On
all bytes `decode_varint` fails and leaves them, or takes one, two, four or eight of them for a
value of at most 62 bits, and however a stream is delivered `read_varint` comes to the same value
with the same bytes left. -/
theorem varints_agree :
    (∀ (value : UInt64) (output : List UInt8), value.toNat < 2 ^ 62 →
      ∃ bs, (encodeVarintOn value).run.run output = (.ok (), output ++ bs) ∧
        bs.length = varintSize value ∧
        IsLeast {w | w ∈ [1, 2, 4, 8] ∧ value.toNat < 2 ^ (8 * w - 2)} (varintSize value) ∧
        ∀ rest, decodeVarintOn.run.run (bs ++ rest) = (.ok value, rest)) ∧
    (∀ (value : UInt64) (output : List UInt8), 2 ^ 62 ≤ value.toNat →
      (encodeVarintOn value).run.run output = (.error .tooLarge, output)) ∧
    (∀ input, (∃ error, decodeVarintOn.run.run input = (.error error, input)) ∨
      ∃ value bs rest, input = bs ++ rest ∧ bs.length ∈ [1, 2, 4, 8] ∧ value.toNat < 2 ^ 62 ∧
        decodeVarintOn.run.run input = (.ok value, rest)) ∧
    ∀ (chunks : List (List UInt8)) (value : UInt64) (rest : List UInt8),
      ((readVarint.feed chunks).value = some (value, rest) ↔
        decodeVarintOn.run.run chunks.flatten = (.ok value, rest)) ∧
      ((readVarint.feed chunks).finish.value = some (value, rest) ↔
        decodeVarintOn.run.run chunks.flatten = (.ok value, rest)) := by
  refine ⟨fun value output h => ?_, fun value output h => ?_, fun input => ?_,
    fun chunks value rest => ?_⟩
  · have hmax : value ≤ 4611686018427387903 := by
      rw [UInt64.le_iff_toNat_le]
      exact Nat.le_of_lt_succ h
    obtain ⟨out, hout⟩ := encodeVarint_ok hmax output
    obtain ⟨bs, rfl, hlength, hdecode⟩ := encodeVarint_spec hout
    refine ⟨bs, ?_, hlength, varintSize_isLeast h, fun rest => ?_⟩
    · rw [run_encodeVarintOn, hout]
      rfl
    · rw [run_decodeVarintOn, hdecode]
      rfl
  · rw [run_encodeVarintOn, encodeVarint_error h]
    rfl
  · rw [run_decodeVarintOn]
    cases hdecode : decodeVarint input with
    | error error => exact .inl ⟨error, rfl⟩
    | ok decoded =>
        obtain ⟨value, rest⟩ := decoded
        obtain ⟨bs, hinput, hwidth, hvalue⟩ := decodeVarint_sound hdecode
        exact .inr ⟨value, bs, rest, hinput, hwidth, hvalue, rfl⟩
  · have hiff : (decodeVarint chunks.flatten).toOption = some (value, rest) ↔
        decodeVarintOn.run.run chunks.flatten = (.ok value, rest) := by
      rw [run_decodeVarintOn]
      refine Iff.trans ?_ onBytes_eq_ok_iff.symm
      cases decodeVarint chunks.flatten <;> simp [Except.toOption]
    rw [feed_eq, finish_run, value_readVarint, value_readVarint]
    exact ⟨hiff, hiff⟩

/-! ### Requests -/

/-- What `read_tcp_request` returns with its last read. -/
def answer (address : List UInt8) (chunk : Option (List UInt8)) : Reader RelayError TcpRequest :=
  match fromUtf8 address with
  | none => .fail .notUtf8
  | some destination => .done { destination, payload := chunk.getD [] }

/-- What it does with the length of the padding. -/
def readPadding (address : List UInt8) (length : UInt64) : Reader RelayError TcpRequest :=
  if length.toNat > maxPaddingLength then .fail (.invalidPaddingLength length.toNat)
  else .bytes length.toNat fun _ => .chunk (answer address)

/-- What it does with the length of the address. -/
def readAddress (length : UInt64) : Reader RelayError TcpRequest :=
  if length.toNat = 0 ∨ length.toNat > maxAddressLength then
    .fail (.invalidAddressLength length.toNat)
  else .bytes length.toNat fun address => readVarint >>= readPadding address

theorem readTcpRequest_eq : readTcpRequest = readVarint >>= readAddress := rfl

/-- Bytes behind their length. -/
theorem run_of_limited {maximum : Nat} {value rest : List UInt8}
    (h : Limited maximum chunks.flatten value rest) {f : UInt64 → Reader RelayError α}
    {next : List UInt8 → Reader RelayError α}
    (hf : ∀ length : UInt64, length.toNat = value.length → value.length ≤ maximum →
      f length = .bytes value.length next) :
    ∃ chunks', chunks'.flatten = rest ∧
      (readVarint >>= f).run finished chunks = (next value).run finished chunks' := by
  obtain ⟨hdecode, hlength, hmax⟩ := h
  obtain ⟨chunks₁, hchunks₁, hrun₁⟩ := run_readVarint_of_ok hdecode f
  have hle : value.length ≤ chunks₁.flatten.length := by simp [hchunks₁]
  obtain ⟨chunks₂, hchunks₂, hrun₂⟩ := run_bytes_of_le hle
  rw [hchunks₁, List.drop_left] at hchunks₂
  refine ⟨chunks₂, hchunks₂, ?_⟩
  rw [hrun₁, hf _ hlength hmax, hrun₂, hchunks₁, List.take_left]

/-- A value is only come to with bytes behind their length. -/
theorem limited_of_value {minimum maximum : Nat} {f : UInt64 → Reader RelayError α}
    {next : List UInt8 → Reader RelayError α} {result : α × List UInt8}
    (hf : ∀ length : UInt64, (∃ error, f length = .fail error) ∨
      minimum ≤ length.toNat ∧ length.toNat ≤ maximum ∧ f length = .bytes length.toNat next)
    (h : ((readVarint >>= f).run finished chunks).value = some result) :
    ∃ value chunks', minimum ≤ value.length ∧ Limited maximum chunks.flatten value chunks'.flatten ∧
      ((next value).run finished chunks').value = some result := by
  cases hdecode : decodeVarint chunks.flatten with
  | error error =>
      rw [value_readVarint_of_error hdecode f] at h
      cases h
  | ok decoded =>
      obtain ⟨length, tail⟩ := decoded
      obtain ⟨chunks₁, rfl, hrun₁⟩ := run_readVarint_of_ok hdecode f
      rw [hrun₁] at h
      rcases hf length with ⟨error, hfail⟩ | ⟨hmin, hmax, hbytes⟩
      · rw [hfail] at h
        cases h
      rw [hbytes] at h
      by_cases hle : length.toNat ≤ chunks₁.flatten.length
      · obtain ⟨chunks₂, hchunks₂, hrun₂⟩ := run_bytes_of_le hle
        have htake := List.length_take_of_le hle
        rw [hrun₂] at h
        refine ⟨_, chunks₂, by omega, ?_, h⟩
        refine .intro ?_ htake.symm (by omega)
        rw [hdecode, hchunks₂, List.take_append_drop]
      · rw [value_run_bytes_of_lt (Nat.lt_of_not_le hle)] at h
        cases h

/-- **A request comes to its last read**, with the payload before it. -/
theorem run_of_framed {address padding payload : List UInt8}
    (h : Framed chunks.flatten address padding payload) :
    ∃ chunks', chunks'.flatten = payload ∧
      relayRequest.run finished chunks = (Reader.chunk (answer address)).run finished chunks' := by
  obtain ⟨htype, haddress, hne, hpadding⟩ := h
  have hpos := List.length_pos_iff.mpr hne
  have hread : ∀ length : UInt64, length.toNat = address.length →
      address.length ≤ maxAddressLength → readAddress length =
        .bytes address.length fun address => readVarint >>= readPadding address := by
    intro length hlength hmax
    rw [readAddress, hlength, if_neg (by omega)]
  have hpad : ∀ length : UInt64, length.toNat = padding.length →
      padding.length ≤ maxPaddingLength → readPadding address length =
        .bytes padding.length fun _ => .chunk (answer address) := by
    intro length hlength hmax
    rw [readPadding, hlength, if_neg (by omega)]
  rw [relayRequest]
  obtain ⟨chunks₁, rfl, hrun₁⟩ := run_readVarint_of_ok htype _
  obtain ⟨chunks₂, rfl, hrun₂⟩ := run_of_limited haddress hread
  obtain ⟨chunks₃, hchunks₃, hrun₃⟩ := run_of_limited hpadding hpad
  refine ⟨chunks₃, hchunks₃, ?_⟩
  rw [hrun₁, if_neg (by simp), readTcpRequest_eq, hrun₂, hrun₃]

/-- **Only a request** comes to a value. -/
theorem framed_of_value {result : TcpRequest × List UInt8}
    (h : (relayRequest.run finished chunks).value = some result) :
    ∃ address padding payload, Framed chunks.flatten address padding payload := by
  have hread : ∀ length : UInt64, (∃ error, readAddress length = .fail error) ∨
      1 ≤ length.toNat ∧ length.toNat ≤ maxAddressLength ∧ readAddress length =
        .bytes length.toNat fun address => readVarint >>= readPadding address := by
    intro length
    rw [readAddress]
    split_ifs with hlength
    · exact .inl ⟨_, rfl⟩
    · exact .inr ⟨by omega, by omega, rfl⟩
  have hpad : ∀ address, ∀ length : UInt64, (∃ error, readPadding address length = .fail error) ∨
      0 ≤ length.toNat ∧ length.toNat ≤ maxPaddingLength ∧ readPadding address length =
        .bytes length.toNat fun _ => .chunk (answer address) := by
    intro address length
    rw [readPadding]
    split_ifs with hlength
    · exact .inl ⟨_, rfl⟩
    · exact .inr ⟨Nat.zero_le _, by omega, rfl⟩
  rw [relayRequest] at h
  cases htype : decodeVarint chunks.flatten with
  | error error =>
      rw [value_readVarint_of_error htype] at h
      cases h
  | ok decoded =>
      obtain ⟨frameType, typed⟩ := decoded
      obtain ⟨chunks₁, rfl, hrun₁⟩ := run_readVarint_of_ok htype _
      rw [hrun₁] at h
      by_cases hframe : frameType = frameTypeTcpRequest
      · subst hframe
        rw [if_neg (by simp), readTcpRequest_eq] at h
        obtain ⟨address, chunks₂, hpos, haddress, h⟩ := limited_of_value hread h
        obtain ⟨padding, chunks₃, -, hpadding, -⟩ := limited_of_value (hpad address) h
        exact ⟨address, padding, _, .intro htype haddress (List.length_pos_iff.mp hpos) hpadding⟩
      · rw [if_pos hframe] at h
        cases h

/-- The value of a request that is finished, if its address is UTF-8. -/
theorem value_of_framed {address padding payload : List UInt8}
    (h : Framed chunks.flatten address padding payload) :
    (relayRequest.run true chunks).value.map (fun e => (e.1.destination, e.1.payload ++ e.2)) =
      (fromUtf8 address).map fun destination => (destination, payload) := by
  obtain ⟨chunks', rfl, hrun⟩ := run_of_framed h
  have hanswer : ∀ chunk rest, chunk.getD [] ++ rest.flatten = chunks'.flatten →
      ((answer address chunk).run true rest).value.map
        (fun e => (e.1.destination, e.1.payload ++ e.2)) =
          (fromUtf8 address).map fun destination => (destination, chunks'.flatten) := by
    intro chunk rest hbytes
    rw [answer, ← hbytes]
    cases fromUtf8 address <;> rfl
  rw [hrun]
  by_cases hnil : chunks'.flatten = []
  · rw [run_chunk_of_finished hnil]
    exact hanswer none [] hnil.symm
  · obtain ⟨chunk, rest, hbytes, hlast⟩ := run_chunk_of_ne_nil hnil
    rw [hlast]
    exact hanswer (some chunk) rest hbytes

/-! ### The two decoders -/

/-- **When the decoders agree.**  For every stream that is finished, however it is delivered: both
refuse it, or both accept it with the same destination and the same payload, exactly if it is not a
request or its address is UTF-8. -/
theorem decoders_agree_iff (chunks : List (List UInt8)) :
    (relayRequest.feed chunks).finish.value.map
        (fun e => (e.1.destination, e.1.payload ++ e.2)) =
      (TcpRequest.decode chunks.flatten).toOption.map (fun request =>
        (request.destination, request.payload)) ↔
      ∀ address padding payload, Framed chunks.flatten address padding payload →
        (fromUtf8 address).isSome := by
  rw [finish_feed]
  constructor
  · intro hagree address padding payload hframed
    have hdecode : TcpRequest.decode chunks.flatten = .ok ⟨fromUtf8Lossy address, payload⟩ :=
      decode_eq_ok_iff.mpr ⟨address, padding, hframed, rfl⟩
    rw [value_of_framed hframed, hdecode] at hagree
    cases hutf8 : fromUtf8 address with
    | none =>
        rw [hutf8] at hagree
        cases hagree
    | some destination => rfl
  · intro hutf8
    by_cases hframed : ∃ address padding payload, Framed chunks.flatten address padding payload
    · obtain ⟨address, padding, payload, hframed⟩ := hframed
      have hdecode : TcpRequest.decode chunks.flatten = .ok ⟨fromUtf8Lossy address, payload⟩ :=
        decode_eq_ok_iff.mpr ⟨address, padding, hframed, rfl⟩
      obtain ⟨destination, hdestination⟩ :=
        Option.isSome_iff_exists.mp (hutf8 address padding payload hframed)
      have hbytes := fromUtf8_eq_some_iff.mp hdestination
      rw [value_of_framed hframed, hdecode, hdestination, ← hbytes, fromUtf8Lossy_asBytes]
      rfl
    · have hstream : (relayRequest.run true chunks).value = none :=
        Option.eq_none_iff_forall_not_mem.mpr fun _ h => hframed (framed_of_value h)
      have hdecode : (TcpRequest.decode chunks.flatten).toOption = none := by
        cases hresult : TcpRequest.decode chunks.flatten with
        | error error => rfl
        | ok request =>
            obtain ⟨address, padding, h, -⟩ := decode_eq_ok_iff.mp hresult
            exact absurd ⟨address, padding, _, h⟩ hframed
      rw [hstream, hdecode]
      rfl

/-- A request for the byte `0xFF`, in three chunks. -/
def latinRequest : List (List UInt8) := [[0x44], [0x01, 1, 0xFF], [0, 7, 8]]

/-- **One decoder accepts it**, with a replacement character; the other refuses it. -/
theorem decoders_differ_on_latinRequest :
    (relayRequest.feed latinRequest).finish.value.map
        (fun e => (e.1.destination, e.1.payload ++ e.2)) ≠
      (TcpRequest.decode latinRequest.flatten).toOption.map (fun request =>
        (request.destination, request.payload)) := by
  have haddress : Limited maxAddressLength [1, 0xFF, 0, 7, 8] [0xFF] [0, 7, 8] :=
    .intro rfl rfl (by decide)
  have hpadding : Limited maxPaddingLength [0, 7, 8] [] [7, 8] := .intro rfl rfl (by decide)
  have hframed : Framed latinRequest.flatten [0xFF] [] [7, 8] :=
    .intro rfl haddress (by decide) hpadding
  have hdecode : TcpRequest.decode latinRequest.flatten = .ok ⟨fromUtf8Lossy [0xFF], [7, 8]⟩ :=
    decode_eq_ok_iff.mpr ⟨_, _, hframed, rfl⟩
  have hutf8 : fromUtf8 [0xFF] = none := by decide
  rw [finish_feed, value_of_framed hframed, hdecode, hutf8]
  exact Option.some_ne_none _ ∘ Eq.symm

/-! ### What the reader waits for -/

/-- **When a request has been read.**  For every destination and padding, with any bytes behind the
header and however they are delivered: the reader has come to the request exactly if there is a byte
behind the header or the stream is finished. -/
theorem request_read_iff {destination : String} {padding header : List UInt8}
    (hencode : TcpRequest.encode destination padding [] = .ok header) {chunks : List (List UInt8)}
    {more : List UInt8} (hchunks : chunks.flatten = header ++ more) (finished : Bool) :
    (∃ payload rest, (if finished then (relayRequest.feed chunks).finish
        else relayRequest.feed chunks) = .done ⟨destination, payload⟩ rest) ↔
      more ≠ [] ∨ finished = true := by
  have hframed := framed_of_encode hencode more
  rw [← hchunks] at hframed
  have hresult : (if finished then (relayRequest.feed chunks).finish
      else relayRequest.feed chunks) = relayRequest.run finished chunks := by
    cases finished
    · exact feed_eq _ _
    · exact finish_feed _ _
  have hanswer : ∀ chunk, answer (asBytes destination) chunk =
      .done ⟨destination, chunk.getD []⟩ := by
    intro chunk
    rw [answer, fromUtf8_asBytes]
  obtain ⟨chunks', rfl, hrun⟩ := run_of_framed hframed
  rw [hresult, hrun]
  by_cases hnil : chunks'.flatten = []
  · cases finished with
    | false =>
        rw [run_chunk_of_eq_nil hnil]
        simp [hnil]
    | true =>
        rw [run_chunk_of_finished hnil, hanswer]
        exact ⟨fun _ => .inr rfl, fun _ => ⟨_, _, rfl⟩⟩
  · obtain ⟨chunk, rest, -, hlast⟩ := run_chunk_of_ne_nil hnil
    rw [hlast, hanswer]
    exact ⟨fun _ => .inl hnil, fun _ => ⟨_, _, rfl⟩⟩

/-- The header of a request, in two chunks. -/
def sampleHeader : List (List UInt8) := [[0x44, 0x01, 3], [97, 58, 49, 0]]

theorem encode_sampleHeader : TcpRequest.encode "a:1" [] [] = .ok sampleHeader.flatten := by
  decide

/-- With a byte behind it the request is read, while the stream goes on. -/
theorem request_read_with_payload : ∃ payload rest,
    relayRequest.feed (sampleHeader ++ [[5]]) = .done ⟨"a:1", payload⟩ rest :=
  (request_read_iff encode_sampleHeader List.flatten_append false).mpr (.inl (by simp))

/-- **The header alone** is not enough. -/
theorem request_not_read_with_header :
    TcpRequest.encode "a:1" [] [] = .ok sampleHeader.flatten ∧
      ¬ ∃ request rest, relayRequest.feed sampleHeader = .done request rest := by
  refine ⟨encode_sampleHeader, ?_⟩
  rintro ⟨request, rest, h⟩
  cases h

end SingBoxMini.Server
