import SingBoxMini.Support.Bytes
import SingBoxMini.Support.Text

/-!
# Support — Percent

Percent-encoding (RFC 3986), and the queries of URLs that are encoded as forms are
(`application/x-www-form-urlencoded` of the URL standard).  A percent sign without two digits behind
it stands for itself, digits are written in upper case, and bytes that are no UTF-8 are replaced.

* `decodeComponent_encode`: what is encoded is read back, whichever characters are kept, as long as
  the percent sign is not.
* `pairs_serialize`: the pairs of a form are read back.
-/

namespace Percent
open Bytes Text

/-! ### Components -/

/-- The bytes of a text in which a percent sign and two hexadecimal digits stand for a byte. -/
def percentDecode : List Char → List UInt8
  | [] => []
  | '%' :: high :: low :: rest =>
    match hexValue high, hexValue low with
    | some high', some low' => UInt8.ofNat (16 * high' + low') :: percentDecode rest
    | _, _ => 0x25 :: percentDecode (high :: low :: rest)
  | c :: rest => String.utf8EncodeChar c ++ percentDecode rest

/-- The text it stands for. -/
def decodeComponent (s : List Char) : List Char := ofUtf8Lossy (percentDecode s)

/-- A byte as a percent sign and two digits. -/
def percentByte (b : UInt8) : List Char :=
  ['%', (Nat.digitChar (b.toNat / 16)).toUpper, (Nat.digitChar (b.toNat % 16)).toUpper]

/-- A text, in which all characters are encoded but those to be kept. -/
def encode (keep : Char → Bool) (s : List Char) : List Char :=
  s.flatMap fun c => if keep c then [c] else (String.utf8EncodeChar c).flatMap percentByte

theorem hexValue_toUpper_digitChar {n : Nat} (h : n < 16) :
    hexValue (Nat.digitChar n).toUpper = some n := by
  interval_cases n <;> decide

variable {c : Char} {keep : Char → Bool} {s : List Char}

theorem percentDecode_cons (hc : c ≠ '%') (s : List Char) :
    percentDecode (c :: s) = String.utf8EncodeChar c ++ percentDecode s := by
  rw [percentDecode.eq_3]
  rintro high low rest rfl
  exact absurd rfl hc

theorem percentDecode_percentByte (b : UInt8) (s : List Char) :
    percentDecode (percentByte b ++ s) = b :: percentDecode s := by
  have hb : b.toNat < 256 := b.toNat_lt
  rw [percentByte]
  simp only [List.cons_append, List.nil_append]
  rw [percentDecode, hexValue_toUpper_digitChar (by omega), hexValue_toUpper_digitChar (by omega)]
  simp only [Nat.div_add_mod, UInt8.ofNat_toNat]

theorem percentDecode_flatMap_percentByte (bs : List UInt8) (s : List Char) :
    percentDecode (bs.flatMap percentByte ++ s) = bs ++ percentDecode s := by
  induction bs with
  | nil => rfl
  | cons b bs ih =>
      rw [List.flatMap_cons, List.append_assoc, percentDecode_percentByte, ih, List.cons_append]

theorem percentDecode_encode (hkeep : keep '%' = false) (s t : List Char) :
    percentDecode (encode keep s ++ t) = utf8 s ++ percentDecode t := by
  induction s with
  | nil =>
      rw [utf8_nil]
      rfl
  | cons c s ih =>
      rw [encode, List.flatMap_cons, ← encode, List.append_assoc, utf8_cons, List.append_assoc]
      split_ifs with hc
      · have hne : c ≠ '%' := by
          rintro rfl
          rw [hkeep] at hc
          cases hc
        rw [List.singleton_append, percentDecode_cons hne, ih]
      · rw [percentDecode_flatMap_percentByte, ih]

/-- **A component is read back.** -/
theorem decodeComponent_encode (hkeep : keep '%' = false) (s : List Char) :
    decodeComponent (encode keep s) = s := by
  rw [decodeComponent, ← List.append_nil (encode keep s), percentDecode_encode hkeep, percentDecode,
    List.append_nil, ofUtf8Lossy_utf8]

/-- A text without percent signs stands for itself. -/
theorem decodeComponent_of_not_mem (h : '%' ∉ s) : decodeComponent s = s := by
  have hkeep : encode (· ≠ '%') s = s := by
    rw [encode]
    refine (List.flatMap_congr fun c hc => ?_).trans (List.flatMap_singleton' s)
    rw [if_pos (by simpa using fun hpercent : c = '%' => h (hpercent ▸ hc))]
  rw [← hkeep, decodeComponent_encode (by decide), hkeep]

/-- What can be in a text that is encoded. -/
theorem mem_encode (h : c ∈ encode keep s) :
    (c ∈ s ∧ keep c = true) ∨ c = '%' ∨ ∃ n < 16, c = (Nat.digitChar n).toUpper := by
  obtain ⟨d, hd, hc⟩ := List.mem_flatMap.mp h
  split_ifs at hc with hkeep
  · rw [List.mem_singleton] at hc
    exact .inl (hc ▸ ⟨hd, hkeep⟩)
  · obtain ⟨b, -, hc⟩ := List.mem_flatMap.mp hc
    have hb : b.toNat < 256 := b.toNat_lt
    simp only [percentByte, List.mem_cons, List.not_mem_nil, or_false] at hc
    rcases hc with rfl | rfl | rfl
    · exact .inr (.inl rfl)
    · exact .inr (.inr ⟨_, by omega, rfl⟩)
    · exact .inr (.inr ⟨_, by omega, rfl⟩)

/-- A character that is neither kept nor a percent sign nor a digit is not in a text that is
encoded. -/
theorem not_mem_encode (hkeep : keep c = false) (hc : c ≠ '%')
    (hdigit : ∀ n < 16, c ≠ (Nat.digitChar n).toUpper) (s : List Char) : c ∉ encode keep s := by
  intro h
  rcases mem_encode h with ⟨-, hkept⟩ | rfl | ⟨n, hn, rfl⟩
  · rw [hkeep] at hkept
    cases hkept
  · exact hc rfl
  · exact hdigit n hn rfl

/-! ### Forms -/

/-- The characters a form keeps. -/
def formKeeps (c : Char) : Bool := c.isAlphanum || c = '*' || c = '-' || c = '.' || c = '_'

/-- A name or value of a form: blanks are written as plus signs. -/
def encodeForm (s : List Char) : List Char :=
  s.flatMap fun c => if c = ' ' then ['+'] else encode formKeeps [c]

/-- The name or value written so. -/
def decodeForm (s : List Char) : List Char :=
  decodeComponent (s.map fun c => if c = '+' then ' ' else c)

/-- `form_urlencoded::Serializer`, `URLSearchParams` -/
def serialize (fields : List (List Char × List Char)) : List Char :=
  ['&'].intercalate (fields.map fun (name, value) => encodeForm name ++ '=' :: encodeForm value)

/-- `form_urlencoded::parse` -/
def pairs (query : List Char) : List (List Char × List Char) :=
  ((query.splitOn '&').filter (· ≠ [])).map fun field =>
    (decodeForm (field.takeWhile (· ≠ '=')), decodeForm (field.dropWhile (· ≠ '=')).tail)

theorem mem_encodeForm (h : c ∈ encodeForm s) :
    c = '+' ∨ formKeeps c = true ∨ c = '%' := by
  obtain ⟨d, -, hc⟩ := List.mem_flatMap.mp h
  split_ifs at hc with hd
  · exact .inl (List.mem_singleton.mp hc)
  · rcases mem_encode hc with ⟨-, hkept⟩ | hpercent | ⟨n, hn, rfl⟩
    · exact .inr (.inl hkept)
    · exact .inr (.inr hpercent)
    · refine .inr (.inl ?_)
      interval_cases n <;> decide

theorem decodeForm_encodeForm (s : List Char) : decodeForm (encodeForm s) = s := by
  have hdecode : percentDecode ((encodeForm s).map fun c => if c = '+' then ' ' else c) =
      utf8 s := by
    induction s with
    | nil =>
        rw [utf8_nil]
        rfl
    | cons c s ih =>
        rw [encodeForm, List.flatMap_cons, ← encodeForm, List.map_append, utf8_cons]
        split_ifs with hc
        · rw [List.map_singleton, if_pos rfl, List.singleton_append, percentDecode_cons (by decide),
            ih, hc]
        · have hplus : '+' ∉ encode formKeeps [c] :=
            not_mem_encode (by decide) (by decide) (by decide) _
          have hmap : (encode formKeeps [c]).map (fun c => if c = '+' then ' ' else c) =
              encode formKeeps [c] := by
            refine (List.map_congr_left fun d hd => if_neg ?_).trans (List.map_id _)
            rintro rfl
            exact hplus hd
          rw [hmap, percentDecode_encode (by decide), ih, utf8_cons, utf8_nil, List.append_nil]
  rw [decodeForm, decodeComponent, hdecode, ofUtf8Lossy_utf8]

theorem not_mem_encodeForm (hplus : c ≠ '+') (hkeep : formKeeps c = false) (hc : c ≠ '%')
    (s : List Char) : c ∉ encodeForm s := by
  intro h
  rcases mem_encodeForm h with rfl | hkept | rfl
  · exact hplus rfl
  · rw [hkeep] at hkept
    cases hkept
  · exact hc rfl

/-- What can be in a form. -/
theorem mem_serialize {fields : List (List Char × List Char)} (h : c ∈ serialize fields) :
    c = '&' ∨ c = '=' ∨ ∃ s, c ∈ encodeForm s := by
  induction fields with
  | nil => cases h
  | cons field fields ih =>
      have hfield : c ∈ encodeForm field.1 ++ '=' :: encodeForm field.2 →
          c = '&' ∨ c = '=' ∨ ∃ s, c ∈ encodeForm s := by
        rw [List.mem_append, List.mem_cons]
        rintro (hname | hequals | hvalue)
        · exact .inr (.inr ⟨_, hname⟩)
        · exact .inr (.inl hequals)
        · exact .inr (.inr ⟨_, hvalue⟩)
      cases fields with
      | nil => exact hfield (by simpa [serialize] using h)
      | cons field' fields =>
          rw [serialize, List.map_cons, List.map_cons, List.intercalate_cons_cons,
            List.append_assoc, List.mem_append, List.singleton_append, List.mem_cons] at h
          rcases h with hmem | hand | hrest
          · exact hfield hmem
          · exact .inl hand
          · exact ih hrest

/-- **The pairs of a form are read back.** -/
theorem pairs_serialize (fields : List (List Char × List Char)) :
    pairs (serialize fields) = fields := by
  have hequals : ∀ s, '=' ∉ encodeForm s :=
    not_mem_encodeForm (by decide) (by decide) (by decide)
  have hand : ∀ s, '&' ∉ encodeForm s :=
    not_mem_encodeForm (by decide) (by decide) (by decide)
  cases fields with
  | nil => rfl
  | cons field fields =>
      rw [pairs, serialize, List.splitOn_intercalate _ ?_ (by simp), List.filter_eq_self.mpr ?_,
        List.map_map]
      · refine (List.map_congr_left fun field _ => ?_).trans (List.map_id _)
        obtain ⟨name, value⟩ := field
        have hname : ∀ c ∈ encodeForm name, decide (c ≠ '=') = true := by
          intro c hc
          rw [decide_eq_true_eq]
          rintro rfl
          exact hequals name hc
        simp only [Function.comp_apply, List.takeWhile_append_of_pos hname,
          List.dropWhile_append_of_pos hname]
        rw [List.takeWhile_cons_of_neg (by decide), List.dropWhile_cons_of_neg (by decide),
          List.append_nil, List.tail_cons, decodeForm_encodeForm, decodeForm_encodeForm]
        rfl
      · intro part hpart
        obtain ⟨⟨name, value⟩, -, rfl⟩ := List.mem_map.mp hpart
        simp
      · intro part hpart
        obtain ⟨⟨name, value⟩, -, rfl⟩ := List.mem_map.mp hpart
        simp [hand]

end Percent
