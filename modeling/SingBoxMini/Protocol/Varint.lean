import Mathlib.Order.Bounds.Defs
import SingBoxMini.Support.Bytes

/-!
# Protocol — Varint

QUIC variable-length integers (`src/protocol/varint.rs`).  The two high bits of the first byte
give the width: 1, 2, 4 or 8 bytes, so a value has at most 62 bits.

* `encodeVarint_spec`: an encoding has `varintSize` bytes, and decoding it followed by any bytes
  returns the value and leaves those bytes.
* `encodeVarint_ok`: every value of at most 62 bits has an encoding.
* `decodeVarint_sound`, `varintSize_isLeast`: the bytes a decoding takes, and the range of its
  value; the width of an encoding is the least that holds the value.
* `run_encodeVarintOn`, `run_decodeVarintOn`: what the two do to the bytes they are given.
-/

namespace SingBoxMini.Protocol
open Bytes

/-- `VarIntError`. -/
inductive VarIntError where
  | truncated
  | tooLarge
  deriving DecidableEq, Repr

/-- The text of the error. -/
def VarIntError.message : VarIntError → String
  | .truncated => "unexpected end of QUIC varint"
  | .tooLarge => "QUIC varint exceeds 62 bits"

/-- The number of bytes of an encoding (`varint_size`, from `src/protocol/udp.rs`). -/
def varintSize (value : UInt64) : Nat :=
  if value ≤ 63 then 1
  else if value ≤ 16383 then 2
  else if value ≤ 1073741823 then 4
  else 8

/-- The bytes `encode_varint` writes for a width and a prefix: the low bytes of the value, with
the prefix in the first. -/
def varintBytes (width : Nat) (tag : UInt8) (value : UInt64) : List UInt8 :=
  ((beBytes 8 value.toNat).drop (8 - width)).modifyHead (· ||| tag)

/-- `encode_varint`: `output` with the encoding of `value` appended. -/
def encodeVarint (value : UInt64) (output : List UInt8) : Except VarIntError (List UInt8) :=
  if value ≤ 63 then .ok (output ++ varintBytes 1 0 value)
  else if value ≤ 16383 then .ok (output ++ varintBytes 2 0x40 value)
  else if value ≤ 1073741823 then .ok (output ++ varintBytes 4 0x80 value)
  else if value ≤ 4611686018427387903 then .ok (output ++ varintBytes 8 0xc0 value)
  else .error .tooLarge

/-- `decode_varint`: the value, and what it leaves of the input. -/
def decodeVarint : List UInt8 → Except VarIntError (UInt64 × List UInt8)
  | [] => .error .truncated
  | first :: rest =>
    let width := 1 <<< (first >>> 6).toNat
    if rest.length + 1 < width then .error .truncated
    else
      let value := (rest.take (width - 1)).foldl
        (fun (value : UInt64) byte => value <<< 8 ||| byte.toUInt64) (first &&& 0x3f).toUInt64
      .ok (value, rest.drop (width - 1))

/-! ### The bytes of an encoding -/

variable {w k : Nat} {b tag : UInt8} {value : UInt64}

/-- The first byte carries the prefix over the value's high bits, the others the low bytes. -/
theorem varintBytes_succ (hw : w < 8) (tag : UInt8) (value : UInt64) :
    varintBytes (w + 1) tag value =
      (UInt8.ofNat (value.toNat / 256 ^ w) ||| tag) :: beBytes w value.toNat := by
  have h : (beBytes 8 value.toNat).drop (8 - (w + 1)) = beBytes (w + 1) value.toNat := by
    have := drop_beBytes (w + 1) value.toNat (8 - (w + 1))
    rwa [show 8 - (w + 1) + (w + 1) = 8 by omega] at this
  rw [varintBytes, h, beBytes, List.modifyHead_cons]

theorem length_varintBytes (hw : w < 8) (tag : UInt8) (value : UInt64) :
    (varintBytes (w + 1) tag value).length = w + 1 := by
  rw [varintBytes_succ hw, List.length_cons, length_beBytes]

/-- A prefix `k` in the two high bits stands over a six-bit byte. -/
theorem toNat_or_tag (hb : b.toNat < 64) (htag : tag.toNat = 64 * k) :
    (b ||| tag).toNat = 64 * k + b.toNat := by
  rw [UInt8.toNat_or, htag, Nat.or_comm]
  exact (Nat.two_pow_add_eq_or_of_lt (i := 6) hb k).symm

theorem shiftRight_tag (hb : b.toNat < 64) (htag : tag.toNat = 64 * k) :
    ((b ||| tag) >>> 6).toNat = k := by
  rw [UInt8.toNat_shiftRight, toNat_or_tag hb htag, Nat.shiftRight_eq_div_pow]
  have h6 : (6 : UInt8).toNat % 8 = 6 := rfl
  rw [h6]
  omega

theorem and_tag (hb : b.toNat < 64) (htag : tag.toNat = 64 * k) :
    ((b ||| tag) &&& 0x3f).toUInt64.toNat = b.toNat := by
  rw [UInt8.toNat_toUInt64, UInt8.toNat_and, toNat_or_tag hb htag]
  have h : (0x3f : UInt8).toNat = 2 ^ 6 - 1 := rfl
  rw [h, Nat.and_two_pow_sub_one_eq_mod]
  omega

/-- One round of the decoder's loop, while the value has room for eight more bits. -/
theorem toNat_shift_or {v : UInt64} (b : UInt8) (h : v.toNat < 2 ^ 56) :
    (v <<< 8 ||| b.toUInt64).toNat = v.toNat * 256 + b.toNat := by
  have hb := b.toNat_lt
  rw [UInt64.toNat_or, UInt64.toNat_shiftLeft, UInt8.toNat_toUInt64, Nat.shiftLeft_eq]
  have h8 : (8 : UInt64).toNat % 64 = 8 := rfl
  rw [h8, Nat.mod_eq_of_lt (by omega), Nat.mul_comm, ← Nat.two_pow_add_eq_or_of_lt (by omega)]

/-- The decoder's loop computes the big-endian value, while it has room for every byte. -/
theorem toNat_foldl (bs : List UInt8) : ∀ v : UInt64, v.toNat < 2 ^ 62 / 256 ^ bs.length →
    bs.length ≤ 7 →
    (bs.foldl (fun (value : UInt64) byte => value <<< 8 ||| byte.toUInt64) v).toNat =
      bs.foldl (fun v b => v * 256 + b.toNat) v.toNat := by
  induction bs with
  | nil => intro v _ _; rfl
  | cons b bs ih =>
      intro v hv hl
      rw [List.length_cons] at hl hv
      have hpow : (0 : Nat) < 256 ^ bs.length := Nat.pow_pos (by decide)
      have hv' : v.toNat < 2 ^ 62 / 256 ^ bs.length / 256 := by
        rwa [Nat.div_div_eq_div_mul, ← Nat.pow_succ]
      have hle : 2 ^ 62 / 256 ^ bs.length ≤ 2 ^ 62 := Nat.div_le_self _ _
      have hs := toNat_shift_or (v := v) b (by omega)
      have hb := b.toNat_lt
      rw [List.foldl_cons, List.foldl_cons, ih _ (by rw [hs]; omega) (by omega), hs]

/-! ### Round trip -/

/-- Decoding the bytes of width `2ᵏ` of a value that fits them. -/
theorem decodeVarint_varintBytes (hw : w + 1 = 1 <<< k) (hw8 : w < 8) (htag : tag.toNat = 64 * k)
    (hv : value.toNat < 64 * 256 ^ w) (rest : List UInt8) :
    decodeVarint (varintBytes (w + 1) tag value ++ rest) = .ok (value, rest) := by
  have hb : (UInt8.ofNat (value.toNat / 256 ^ w)).toNat = value.toNat / 256 ^ w := by
    rw [UInt8.toNat_ofNat', Nat.mod_eq_of_lt]
    have := (Nat.div_lt_iff_lt_mul (Nat.pow_pos (by decide : 0 < 256) (n := w))).mpr hv
    omega
  have hb64 : (UInt8.ofNat (value.toNat / 256 ^ w)).toNat < 64 := by
    rw [hb]
    exact (Nat.div_lt_iff_lt_mul (Nat.pow_pos (by decide))).mpr hv
  have hfit : value.toNat / 256 ^ w < 2 ^ 62 / 256 ^ w := by
    have hle : 256 ^ w ≤ 256 ^ 7 := Nat.pow_le_pow_right (by decide) (by omega)
    have h64 : 64 ≤ 2 ^ 62 / 256 ^ w :=
      (Nat.le_div_iff_mul_le (Nat.pow_pos (by decide))).mpr (by omega)
    rw [hb] at hb64
    omega
  rw [varintBytes_succ hw8, List.cons_append, decodeVarint, shiftRight_tag hb64 htag, ← hw,
    if_neg (by simp)]
  simp only [Nat.add_sub_cancel]
  rw [List.take_left' (length_beBytes w _), List.drop_left' (length_beBytes w _)]
  have hval : ((beBytes w value.toNat).foldl
      (fun (value : UInt64) byte => value <<< 8 ||| byte.toUInt64)
      (((UInt8.ofNat (value.toNat / 256 ^ w)) ||| tag) &&& 0x3f).toUInt64).toNat
      = value.toNat := by
    rw [toNat_foldl _ _ (by rw [and_tag hb64 htag, hb, length_beBytes]; exact hfit)
      (by rw [length_beBytes]; omega), and_tag hb64 htag, hb, foldl_beBytes, Nat.mul_comm,
      Nat.div_add_mod]
  rw [UInt64.toNat_inj.mp hval]

/-- The bytes of width `2ᵏ` of a value that fits them, as what `encode_varint` appends. -/
theorem varintBytes_spec (hw : w + 1 = 1 <<< k) (hw8 : w < 8) (htag : tag.toNat = 64 * k)
    (hv : value.toNat < 64 * 256 ^ w) {output out : List UInt8}
    (h : (.ok (output ++ varintBytes (w + 1) tag value) : Except VarIntError _) = .ok out) :
    ∃ bs, out = output ++ bs ∧ bs.length = w + 1 ∧
      ∀ rest, decodeVarint (bs ++ rest) = .ok (value, rest) := by
  cases h
  exact ⟨_, rfl, length_varintBytes hw8 _ _, decodeVarint_varintBytes hw hw8 htag hv⟩

/-- **What `encode_varint` appends**: `varint_size` bytes, which decode to the value whatever
follows them. -/
theorem encodeVarint_spec {output out : List UInt8} (h : encodeVarint value output = .ok out) :
    ∃ bs, out = output ++ bs ∧ bs.length = varintSize value ∧
      ∀ rest, decodeVarint (bs ++ rest) = .ok (value, rest) := by
  have bound : ∀ {n : UInt64}, value ≤ n → value.toNat ≤ n.toNat := UInt64.le_iff_toNat_le.mp
  simp only [encodeVarint] at h
  simp only [varintSize]
  split_ifs at h ⊢ with h₁ h₂ h₃ h₄
  · exact varintBytes_spec (k := 0) rfl (by decide) rfl (Nat.lt_succ_of_le (bound h₁)) h
  · exact varintBytes_spec (k := 1) rfl (by decide) rfl (Nat.lt_succ_of_le (bound h₂)) h
  · exact varintBytes_spec (k := 2) rfl (by decide) rfl (Nat.lt_succ_of_le (bound h₃)) h
  · exact varintBytes_spec (k := 3) rfl (by decide) rfl (Nat.lt_succ_of_le (bound h₄)) h

/-- Bytes behind an integer are left as they are. -/
theorem decodeVarint_append {input rest : List UInt8} (h : decodeVarint input = .ok (value, rest))
    (more : List UInt8) :
    decodeVarint (input ++ more) = .ok (value, rest ++ more) := by
  cases input with
  | nil => cases h
  | cons first tail =>
      simp only [decodeVarint, List.cons_append] at h ⊢
      split_ifs at h with hshort
      cases h
      have hwidth : 1 <<< (first >>> 6).toNat - 1 ≤ tail.length := by omega
      rw [if_neg (by rw [List.length_append]; omega), List.take_append_of_le_length hwidth,
        List.drop_append_of_le_length hwidth]

/-- Every value of at most 62 bits has an encoding. -/
theorem encodeVarint_ok (h : value ≤ 4611686018427387903) (output : List UInt8) :
    ∃ out, encodeVarint value output = .ok out := by
  rw [encodeVarint]
  split_ifs
  all_goals exact ⟨_, rfl⟩

/-! ### Ranges -/

/-- The width a first byte announces. -/
theorem width_mem (first : UInt8) : 1 <<< (first >>> 6).toNat ∈ [1, 2, 4, 8] := by
  have hlt : (first >>> 6).toNat < 4 := by
    have := first.toNat_lt
    rw [UInt8.toNat_shiftRight, Nat.shiftRight_eq_div_pow]
    have h6 : (6 : UInt8).toNat % 8 = 6 := rfl
    rw [h6]
    omega
  generalize (first >>> 6).toNat = k at hlt
  obtain rfl | rfl | rfl | rfl : k = 0 ∨ k = 1 ∨ k = 2 ∨ k = 3 := by omega
  all_goals decide

/-- **What `decode_varint` takes**: one, two, four or eight bytes, for a value of at most 62
bits. -/
theorem decodeVarint_sound {input rest : List UInt8} (h : decodeVarint input = .ok (value, rest)) :
    ∃ bs, input = bs ++ rest ∧ bs.length ∈ [1, 2, 4, 8] ∧ value.toNat < 2 ^ 62 := by
  cases input with
  | nil => cases h
  | cons first tail =>
      rw [decodeVarint] at h
      split_ifs at h with hshort
      cases h
      have hwidth := width_mem first
      generalize 1 <<< (first >>> 6).toNat = width at hshort hwidth ⊢
      have hpos : 1 ≤ width ∧ width ≤ 8 := by
        simp only [List.mem_cons, List.not_mem_nil, or_false] at hwidth
        omega
      have hlength : (tail.take (width - 1)).length = width - 1 := by
        rw [List.length_take_of_le]
        omega
      refine ⟨first :: tail.take (width - 1), by simp, ?_, ?_⟩
      · rw [List.length_cons, hlength, Nat.sub_add_cancel hpos.1]
        exact hwidth
      · have hfirst : (first &&& 0x3f).toUInt64.toNat < 64 := by
          rw [UInt8.toNat_toUInt64, UInt8.toNat_and]
          exact Nat.and_lt_two_pow _ (n := 6) (by decide)
        have hpow : 256 ^ (width - 1) ≤ 256 ^ 7 := Nat.pow_le_pow_right (by decide) (by omega)
        have hroom : 64 ≤ 2 ^ 62 / 256 ^ (width - 1) :=
          (Nat.le_div_iff_mul_le (Nat.pow_pos (by decide))).mpr (by omega)
        rw [toNat_foldl _ _ (by rw [hlength]; omega) (by omega)]
        have hlt := foldl_lt (tail.take (width - 1)) (first &&& 0x3f).toUInt64.toNat
        rw [hlength] at hlt
        calc _ < ((first &&& 0x3f).toUInt64.toNat + 1) * 256 ^ (width - 1) := hlt
          _ ≤ 64 * 256 ^ 7 := Nat.mul_le_mul (by omega) hpow
          _ = 2 ^ 62 := by decide

/-- **`varint_size` is the least width** whose range holds the value. -/
theorem varintSize_isLeast (h : value.toNat < 2 ^ 62) :
    IsLeast {w | w ∈ [1, 2, 4, 8] ∧ value.toNat < 2 ^ (8 * w - 2)} (varintSize value) := by
  have hle : ∀ {n : UInt64}, value ≤ n ↔ value.toNat ≤ n.toNat := UInt64.le_iff_toNat_le
  simp only [varintSize, hle, UInt64.reduceToNat]
  generalize value.toNat = n at h ⊢
  constructor
  · split_ifs <;> simp <;> omega
  · rintro w ⟨hw, hlt⟩
    simp only [List.mem_cons, List.not_mem_nil, or_false] at hw
    rcases hw with rfl | rfl | rfl | rfl <;> split_ifs <;> omega

/-- A value of more than 62 bits has none. -/
theorem encodeVarint_error (h : 2 ^ 62 ≤ value.toNat) (output : List UInt8) :
    encodeVarint value output = .error .tooLarge := by
  have hgt : ∀ {n : UInt64}, n.toNat < 2 ^ 62 → ¬ value ≤ n := by
    intro n hn hle
    have := UInt64.le_iff_toNat_le.mp hle
    omega
  rw [encodeVarint, if_neg (hgt (by decide)), if_neg (hgt (by decide)), if_neg (hgt (by decide)),
    if_neg (hgt (by decide))]

/-! ### On the bytes they are given -/

/-- A function that is given a `&mut` to bytes: its result, and the bytes after it. -/
abbrev OnBytes (α : Type) := ExceptT VarIntError (StateM (List UInt8)) α

/-- `encode_varint`, on the vector it appends to. -/
def encodeVarintOn (value : UInt64) : OnBytes Unit := do
  let (width, tag) ←
    if value ≤ 63 then pure (1, (0 : UInt8))
    else if value ≤ 16383 then pure (2, 0x40)
    else if value ≤ 1073741823 then pure (4, 0x80)
    else if value ≤ 4611686018427387903 then pure (8, 0xc0)
    else throw .tooLarge
  let bytes := beBytes 8 value.toNat
  let start := bytes.length - width
  let bytes := bytes.modify start (· ||| tag)
  modify (· ++ bytes.drop start)

/-- `decode_varint`, on the slice it takes from. -/
def decodeVarintOn : OnBytes UInt64 := do
  let input ← get
  match input with
  | [] => throw .truncated
  | first :: _ =>
    let width := 1 <<< (first >>> 6).toNat
    if input.length < width then throw .truncated
    else
      let value := ((input.take width).drop 1).foldl
        (fun (value : UInt64) byte => value <<< 8 ||| byte.toUInt64) (first &&& 0x3f).toUInt64
      set (input.drop width)
      return value

/-- What a function does to the bytes it is given, from what it gives back: an error leaves them. -/
def onBytes {α : Type} (before : List UInt8) :
    Except VarIntError (α × List UInt8) → Except VarIntError α × List UInt8
  | .ok (a, after) => (.ok a, after)
  | .error e => (.error e, before)

theorem onBytes_eq_ok_iff {α : Type} {before after : List UInt8} {a : α}
    {result : Except VarIntError (α × List UInt8)} :
    onBytes before result = (.ok a, after) ↔ result = .ok (a, after) := by
  rcases result with e | ⟨a', after'⟩ <;> simp [onBytes]

/-- The bytes from the one with the prefix on. -/
theorem drop_modify_beBytes {width : Nat} (h : width ≤ 8) (tag : UInt8) (value : UInt64) :
    ((beBytes 8 value.toNat).modify (8 - width) (· ||| tag)).drop (8 - width) =
      varintBytes width tag value := by
  have hlength : ((beBytes 8 value.toNat).take (8 - width)).length = 8 - width := by
    rw [List.length_take_of_le]
    rw [length_beBytes]
    omega
  rw [List.modify_eq_take_drop, List.drop_left' hlength, varintBytes]

theorem run_encodeVarintOn (value : UInt64) (output : List UInt8) :
    (encodeVarintOn value).run.run output =
      onBytes output ((encodeVarint value output).map ((), ·)) := by
  have happend : ∀ (width : Nat) (tag : UInt8), width ≤ 8 →
      output ++ ((beBytes 8 value.toNat).modify ((beBytes 8 value.toNat).length - width)
        (· ||| tag)).drop ((beBytes 8 value.toNat).length - width) =
          output ++ varintBytes width tag value := by
    intro width tag hwidth
    rw [length_beBytes, drop_modify_beBytes hwidth]
  rw [encodeVarintOn, encodeVarint]
  split_ifs
  · exact congrArg (Prod.mk _) (happend 1 0 (by decide))
  · exact congrArg (Prod.mk _) (happend 2 0x40 (by decide))
  · exact congrArg (Prod.mk _) (happend 4 0x80 (by decide))
  · exact congrArg (Prod.mk _) (happend 8 0xc0 (by decide))
  · rfl

theorem run_decodeVarintOn (input : List UInt8) :
    decodeVarintOn.run.run input = onBytes input (decodeVarint input) := by
  cases input with
  | nil => rfl
  | cons first tail =>
      have hpos : 1 <<< (first >>> 6).toNat = 1 <<< (first >>> 6).toNat - 1 + 1 := by
        have : 0 < 2 ^ (first >>> 6).toNat := Nat.two_pow_pos _
        rw [Nat.one_shiftLeft]
        omega
      have hrest : (first :: tail).take (1 <<< (first >>> 6).toNat) =
          first :: tail.take (1 <<< (first >>> 6).toNat - 1) := by
        rw [hpos, List.take_succ_cons, Nat.add_sub_cancel]
      have hleft : (first :: tail).drop (1 <<< (first >>> 6).toNat) =
          tail.drop (1 <<< (first >>> 6).toNat - 1) := by
        rw [hpos, List.drop_succ_cons, Nat.add_sub_cancel]
      have hget : (get : OnBytes _).run.run (first :: tail) =
          pure (.ok (first :: tail), first :: tail) := rfl
      rw [decodeVarint, decodeVarintOn, ExceptT.run_bind, StateT.run_bind, hget]
      simp only [pure_bind, List.length_cons, hrest, hleft]
      split_ifs
      · rfl
      · rfl

end SingBoxMini.Protocol
