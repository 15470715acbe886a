import Mathlib.Data.List.Basic

/-!
# Salamander — Cipher

`encrypt`, `decrypt` and `apply_keystream` (`salamander.rs`): a packet is an eight-byte salt and the
payload, XORed with a key derived from the password and the salt.

BLAKE2b with 32 bytes of output is a parameter: nothing here depends on what it computes.
-/

namespace SingBoxMini.Salamander

/-- `SALT_LENGTH` -/
def saltLength : Nat := 8

/-- `SalamanderError` -/
inductive SalamanderError where
  | truncated
deriving DecidableEq

variable (blake2b : List UInt8 → Vector UInt8 32) (password : List UInt8)

/-- `derive_key`: the two `update`s hash the password followed by the salt. -/
def deriveKey (salt : List UInt8) : Vector UInt8 32 := blake2b (password ++ salt)

/-- `apply_keystream` -/
def applyKeystream (salt payload : List UInt8) : List UInt8 :=
  let key := deriveKey blake2b password salt
  payload.mapIdx fun index byte => byte ^^^ key[index % 32]

/-- `encrypt` -/
def encrypt (salt payload : List UInt8) : List UInt8 :=
  salt ++ applyKeystream blake2b password salt payload

/-- `decrypt` -/
def decrypt (packet : List UInt8) : Except SalamanderError (List UInt8) :=
  if packet.length ≤ saltLength then .error .truncated
  else .ok (applyKeystream blake2b password (packet.take saltLength) (packet.drop saltLength))

@[simp] theorem length_applyKeystream (salt payload : List UInt8) :
    (applyKeystream blake2b password salt payload).length = payload.length :=
  List.length_mapIdx

/-- The keystream undoes itself. -/
@[simp] theorem applyKeystream_applyKeystream (salt payload : List UInt8) :
    applyKeystream blake2b password salt (applyKeystream blake2b password salt payload) =
      payload := by
  apply List.ext_getElem
  · simp
  · intro i _ _
    simp only [applyKeystream, List.getElem_mapIdx]
    rw [UInt8.xor_assoc, UInt8.xor_self, UInt8.xor_zero]

theorem length_encrypt {salt : List UInt8} (hsalt : salt.length = saltLength)
    (payload : List UInt8) :
    (encrypt blake2b password salt payload).length = payload.length + saltLength := by
  rw [encrypt, List.length_append, hsalt, length_applyKeystream, Nat.add_comm]

end SingBoxMini.Salamander
