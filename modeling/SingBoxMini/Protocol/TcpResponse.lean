import SingBoxMini.Protocol.TcpRequest
import SingBoxMini.Support.Text

/-!
# Protocol — TcpResponse

The HY2 TCP response (`src/protocol/tcp.rs`): the status, the message and the padding, each of the
two behind its varint length, and what the stream carries from then on.  The server only writes it.

* `Answered` is the format itself, which is read in one way (`Answered.unique`).
* `encode_response_ok_iff`, `answered_of_encode`: what `TcpResponse::encode` accepts, and that what
  it writes has the format, whatever follows.
* `response_unambiguous`: so a client that knows the format sees the response and what is behind it.
-/

namespace SingBoxMini.Protocol
open Bytes Text

/-- `MAX_MESSAGE_LENGTH` -/
def maxMessageLength : Nat := 2048

/-- `TcpResponseStatus` -/
inductive TcpResponseStatus where
  | ok
  | error
  deriving DecidableEq, Repr

/-- The status as a `u8`. -/
def TcpResponseStatus.code : TcpResponseStatus → UInt8
  | .ok => 0
  | .error => 1

theorem TcpResponseStatus.code_injective : Function.Injective TcpResponseStatus.code := by
  intro a b h
  cases a <;> cases b <;> first | rfl | cases h

/-- `TcpResponse` -/
structure TcpResponse where
  status : TcpResponseStatus
  message : String
  payload : List UInt8
  deriving DecidableEq, Repr

/-- `TcpResponse::encode`. -/
def TcpResponse.encode (response : TcpResponse) (padding : List UInt8) :
    Except TcpCodecError (List UInt8) := do
  validateLen (len response.message) maxMessageLength "message"
  validateLen padding.length maxPaddingLength "padding"
  let output ← writeBytes (asBytes response.message) [response.status.code]
  let output ← writeBytes padding output
  return output ++ response.payload

/-- **The format of a response.** -/
inductive Answered :
    List UInt8 → TcpResponseStatus → List UInt8 → List UInt8 → List UInt8 → Prop where
  | intro {texted padded message padding payload : List UInt8} {status : TcpResponseStatus}
      (has_message : Limited maxMessageLength texted message padded)
      (has_padding : Limited maxPaddingLength padded padding payload) :
      Answered (status.code :: texted) status message padding payload

/-- **A response is read in one way.** -/
theorem Answered.unique {input message padding payload message' padding' payload' : List UInt8}
    {status status' : TcpResponseStatus} (h : Answered input status message padding payload)
    (h' : Answered input status' message' padding' payload') :
    status = status' ∧ message = message' ∧ padding = padding' ∧ payload = payload' := by
  obtain ⟨hmessage, hpadding⟩ := h
  generalize hinput : status.code :: _ = input at h'
  obtain ⟨hmessage', hpadding'⟩ := h'
  obtain ⟨hcode, rfl⟩ := List.cons.inj hinput
  obtain ⟨rfl, rfl⟩ := hmessage.unique hmessage'
  obtain ⟨rfl, rfl⟩ := hpadding.unique hpadding'
  exact ⟨TcpResponseStatus.code_injective hcode, rfl, rfl, rfl⟩

/-! ### What is written -/

theorem validateLen_eq_ok_iff {length maximum : Nat} {field : String} :
    validateLen length maximum field = .ok () ↔ length ≤ maximum := by
  rw [validateLen]
  split_ifs with h
  · simp [h]
  · simp [Nat.le_of_not_lt h]

variable {response : TcpResponse} {padding bytes : List UInt8}

/-- The pieces of a response that was written. -/
theorem encode_response_eq_ok_iff :
    response.encode padding = .ok bytes ↔
      (len response.message ≤ maxMessageLength ∧ padding.length ≤ maxPaddingLength) ∧
        ∃ texted padded, writeBytes (asBytes response.message) [response.status.code] = .ok texted ∧
          writeBytes padding texted = .ok padded ∧ bytes = padded ++ response.payload := by
  constructor
  · intro h
    obtain ⟨⟨⟩, hmessage, h⟩ := bind_ok_iff.mp h
    obtain ⟨⟨⟩, hpadding, h⟩ := bind_ok_iff.mp h
    obtain ⟨texted, htexted, h⟩ := bind_ok_iff.mp h
    obtain ⟨padded, hpadded, h⟩ := bind_ok_iff.mp h
    cases h
    exact ⟨⟨validateLen_eq_ok_iff.mp hmessage, validateLen_eq_ok_iff.mp hpadding⟩,
      texted, padded, htexted, hpadded, rfl⟩
  · rintro ⟨⟨hmessage, hpadding⟩, texted, padded, htexted, hpadded, rfl⟩
    rw [TcpResponse.encode, bind_of_ok (validateLen_eq_ok_iff.mpr hmessage),
      bind_of_ok (validateLen_eq_ok_iff.mpr hpadding), bind_of_ok htexted, bind_of_ok hpadded]
    rfl

/-- **What `TcpResponse::encode` accepts.** -/
theorem encode_response_ok_iff :
    (∃ bytes, response.encode padding = .ok bytes) ↔
      len response.message ≤ maxMessageLength ∧ padding.length ≤ maxPaddingLength := by
  constructor
  · rintro ⟨bytes, h⟩
    exact (encode_response_eq_ok_iff.mp h).1
  · intro h
    have hmessage : (asBytes response.message).length ≤ maxPaddingLength :=
      Nat.le_trans h.1 (by decide)
    obtain ⟨texted, htexted⟩ := writeBytes_ok hmessage [response.status.code]
    obtain ⟨padded, hpadded⟩ := writeBytes_ok h.2 texted
    exact ⟨_, encode_response_eq_ok_iff.mpr ⟨h, texted, padded, htexted, hpadded, rfl⟩⟩

/-- **What it writes has the format**, whatever follows. -/
theorem answered_of_encode (h : response.encode padding = .ok bytes) (rest : List UInt8) :
    Answered (bytes ++ rest) response.status (asBytes response.message) padding
      (response.payload ++ rest) := by
  obtain ⟨⟨hmessage, hpadding⟩, texted, padded, htexted, hpadded, rfl⟩ :=
    encode_response_eq_ok_iff.mp h
  obtain ⟨message, rfl, hlimited⟩ := writeBytes_spec (by decide) hmessage htexted
  obtain ⟨written, rfl, hlimited'⟩ := writeBytes_spec (by decide) hpadding hpadded
  simp only [List.append_assoc, List.singleton_append]
  exact .intro (hlimited _) (hlimited' _)

/-- **The response and what follows it are told apart.**  A response is written exactly if its
message and its padding keep their limits; and two streams that begin with a response and are the
same have the same status, the same message and padding, and the same bytes behind. -/
theorem response_unambiguous :
    (∀ (response : TcpResponse) padding, (∃ bytes, response.encode padding = .ok bytes) ↔
      len response.message ≤ maxMessageLength ∧ padding.length ≤ maxPaddingLength) ∧
    ∀ (response response' : TcpResponse) (padding padding' bytes bytes' rest rest' : List UInt8),
      response.encode padding = .ok bytes → response'.encode padding' = .ok bytes' →
      bytes ++ rest = bytes' ++ rest' →
      response.status = response'.status ∧ response.message = response'.message ∧
        padding = padding' ∧ response.payload ++ rest = response'.payload ++ rest' := by
  refine ⟨fun response padding => encode_response_ok_iff, ?_⟩
  intro response response' padding padding' bytes bytes' rest rest' h h' hsame
  have hanswered := answered_of_encode h rest
  rw [hsame] at hanswered
  obtain ⟨hstatus, hmessage, hpadding, hpayload⟩ := hanswered.unique (answered_of_encode h' rest')
  exact ⟨hstatus, asBytes_inj.mp hmessage, hpadding, hpayload⟩

end SingBoxMini.Protocol
