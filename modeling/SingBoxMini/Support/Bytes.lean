import Mathlib.Data.List.Chain
import Mathlib.Tactic.Ring

/-!
# Support — Bytes

Byte strings as lists of bytes: big-endian integers, cutting a string into chunks, and UTF-8.

* `ofBeBytes_beBytes`: reading back the `n` big-endian bytes of `v` gives `v mod 256ⁿ`.
* `flatten_chunks`: the chunks of a list, in order, are the list.
* `fromUtf8_asBytes`, `fromUtf8Lossy_asBytes`: a string is read back from its own bytes, by the
  checked decoder and by the lossy one.
-/

namespace Bytes

/-! ### Big-endian integers -/

/-- The `n` low-order bytes of `v`, the most significant first. -/
def beBytes : Nat → Nat → List UInt8
  | 0, _ => []
  | n + 1, v => UInt8.ofNat (v / 256 ^ n) :: beBytes n v

/-- The integer whose big-endian bytes are `bs`. -/
def ofBeBytes (bs : List UInt8) : Nat := bs.foldl (fun v b => v * 256 + b.toNat) 0

@[simp] theorem length_beBytes : ∀ n v : Nat, (beBytes n v).length = n
  | 0, _ => rfl
  | n + 1, v => by simp [beBytes, length_beBytes n v]

/-- Reading `n` bytes of `v` after the value `u`. -/
theorem foldl_beBytes (n : Nat) : ∀ u v : Nat,
    (beBytes n v).foldl (fun v b => v * 256 + b.toNat) u = u * 256 ^ n + v % 256 ^ n := by
  induction n with
  | zero => intro u v; simp [beBytes, Nat.mod_one]
  | succ n ih =>
      intro u v
      simp only [beBytes, List.foldl_cons, ih, UInt8.toNat_ofNat']
      -- `v mod 256ⁿ⁺¹` is the next byte times `256ⁿ`, and `v mod 256ⁿ`
      have h : v % 256 ^ (n + 1) = v % 256 ^ n + 256 ^ n * (v / 256 ^ n % 256) := by
        rw [Nat.pow_succ, Nat.mod_mul]
      rw [h]
      ring

/-- **Big-endian round trip**: `n` bytes carry `v` modulo `256ⁿ`. -/
theorem ofBeBytes_beBytes (n v : Nat) : ofBeBytes (beBytes n v) = v % 256 ^ n := by
  rw [ofBeBytes, foldl_beBytes, Nat.zero_mul, Nat.zero_add]

/-- The value of bytes read after the value `u`. -/
theorem foldl_lt (bs : List UInt8) (u : Nat) :
    bs.foldl (fun v b => v * 256 + b.toNat) u < (u + 1) * 256 ^ bs.length := by
  induction bs generalizing u with
  | nil => simp
  | cons b bs ih =>
      have hb := b.toNat_lt
      calc (b :: bs).foldl (fun v b => v * 256 + b.toNat) u
          < (u * 256 + b.toNat + 1) * 256 ^ bs.length := ih _
        _ ≤ (u + 1) * 256 * 256 ^ bs.length := Nat.mul_le_mul_right _ (by omega)
        _ = (u + 1) * 256 ^ (b :: bs).length := by
          rw [List.length_cons, Nat.pow_succ, Nat.mul_assoc, Nat.mul_comm 256]

theorem le_foldl (bs : List UInt8) (u : Nat) :
    u * 256 ^ bs.length ≤ bs.foldl (fun v b => v * 256 + b.toNat) u := by
  induction bs generalizing u with
  | nil => simp
  | cons b bs ih =>
      calc u * 256 ^ (b :: bs).length
          = u * 256 * 256 ^ bs.length := by
            rw [List.length_cons, Nat.pow_succ, Nat.mul_assoc, Nat.mul_comm 256]
        _ ≤ (u * 256 + b.toNat) * 256 ^ bs.length := Nat.mul_le_mul_right _ (Nat.le_add_right _ _)
        _ ≤ (b :: bs).foldl (fun v b => v * 256 + b.toNat) u := ih _

/-- The bytes read after the value `u` are those of the value they give. -/
theorem beBytes_foldl (bs : List UInt8) (u : Nat) :
    beBytes bs.length (bs.foldl (fun v b => v * 256 + b.toNat) u) = bs := by
  induction bs generalizing u with
  | nil => rfl
  | cons b bs ih =>
      have hquotient : bs.foldl (fun v b => v * 256 + b.toNat) (u * 256 + b.toNat) /
          256 ^ bs.length = u * 256 + b.toNat :=
        Nat.div_eq_of_lt_le (le_foldl bs _) (foldl_lt bs _)
      rw [List.length_cons, List.foldl_cons, beBytes, hquotient, ih]
      congr 1
      rw [← UInt8.toNat_inj, UInt8.toNat_ofNat']
      have := b.toNat_lt
      omega

/-- **The bytes of what they stand for.** -/
theorem beBytes_ofBeBytes (bs : List UInt8) : beBytes bs.length (ofBeBytes bs) = bs :=
  beBytes_foldl bs 0

/-- The `w` last of the `m + w` bytes of `v` are its `w` bytes. -/
theorem drop_beBytes (w v : Nat) : ∀ m : Nat, (beBytes (m + w) v).drop m = beBytes w v
  | 0 => by rw [Nat.zero_add, List.drop_zero]
  | m + 1 => by
      rw [show m + 1 + w = (m + w) + 1 by omega, beBytes, List.drop_succ_cons, drop_beBytes w v m]

/-! ### Chunks -/

/-- `⌈a / b⌉`. -/
def divCeil (a b : Nat) : Nat := (a + b - 1) / b

/-- The list cut into pieces of `n` elements, the last one possibly shorter. -/
def chunks {α : Type} (n : Nat) (l : List α) : List (List α) :=
  (List.range (divCeil l.length n)).map fun i => (l.drop (i * n)).take n

variable {a n : Nat} {α : Type} {c : List α} {text : List Char}

theorem lt_divCeil_iff {b i : Nat} (hb : 0 < b) : i < divCeil a b ↔ i * b < a := by
  rw [divCeil, Nat.lt_div_iff_mul_lt hb]
  omega

theorem le_divCeil_mul {b : Nat} (hb : 0 < b) : a ≤ divCeil a b * b := by
  by_contra h
  exact absurd ((lt_divCeil_iff hb).mpr (Nat.lt_of_not_le h)) (Nat.lt_irrefl _)

@[simp] theorem length_chunks (n : Nat) (l : List α) :
    (chunks n l).length = divCeil l.length n := by
  simp [chunks]

theorem length_le_of_mem_chunks {l : List α} (h : c ∈ chunks n l) :
    c.length ≤ n := by
  simp only [chunks, List.mem_map] at h
  obtain ⟨i, -, rfl⟩ := h
  exact (List.length_take_le _ _)

theorem ne_nil_of_mem_chunks (hn : 0 < n) {l : List α} (h : c ∈ chunks n l) : c ≠ [] := by
  simp only [chunks, List.mem_map, List.mem_range, lt_divCeil_iff hn] at h
  obtain ⟨i, hi, rfl⟩ := h
  refine List.length_pos_iff.mp ?_
  rw [List.length_take, List.length_drop]
  omega

/-- The first `k` chunks, in order, are the first `k * n` elements. -/
theorem flatten_map_range (n : Nat) (l : List α) (k : Nat) :
    ((List.range k).map fun i => (l.drop (i * n)).take n).flatten = l.take (k * n) := by
  induction k with
  | zero => simp
  | succ k ih =>
      rw [List.range_succ, List.map_append, List.flatten_append, ih, Nat.succ_mul, List.take_add]
      simp

/-- **The chunks of a list are the list.** -/
theorem flatten_chunks (hn : 0 < n) (l : List α) :
    (chunks n l).flatten = l := by
  rw [chunks, flatten_map_range, List.take_of_length_le (le_divCeil_mul hn)]

@[simp] theorem divCeil_zero (n : Nat) : divCeil 0 n = 0 := by
  rw [divCeil, Nat.zero_add]
  exact Nat.div_eq_zero_iff.mpr (by omega)

@[simp] theorem chunks_nil (n : Nat) : chunks n ([] : List α) = [] := by
  rw [chunks, List.length_nil, divCeil_zero]
  rfl

theorem divCeil_add (hn : 0 < n) : divCeil (n + a) n = divCeil a n + 1 := by
  rw [divCeil, divCeil, show n + a + n - 1 = a + n - 1 + n by omega, Nat.add_div_right _ hn]

/-- A full chunk in front. -/
theorem chunks_append (hn : 0 < n) (hc : c.length = n) (l : List α) :
    chunks n (c ++ l) = c :: chunks n l := by
  rw [chunks, List.length_append, hc, divCeil_add hn, List.range_succ_eq_map, List.map_cons,
    List.map_map, chunks]
  congr 1
  · simp [← hc]
  · refine List.map_congr_left fun i _ => ?_
    have hdrop : (i + 1) * n = c.length + i * n := by rw [hc]; ring
    rw [Function.comp_apply, Nat.succ_eq_add_one, hdrop, List.drop_length_add_append]

/-- A last chunk. -/
theorem chunks_of_length_le (hne : c ≠ []) (hc : c.length ≤ n) :
    chunks n c = [c] := by
  have hpos := List.length_pos_iff.mpr hne
  have hcount : divCeil c.length n = 1 :=
    Nat.div_eq_of_lt_le (by omega) (by omega)
  rw [chunks, hcount]
  simp [List.take_of_length_le hc]

/-- **Induction on the chunks** of a non-empty list: a last chunk, and a full one before others. -/
theorem chunks_induction (hn : 0 < n) {motive : List α → Prop}
    (last : ∀ c, c ≠ [] → c.length ≤ n → motive c)
    (more : ∀ c l, c.length = n → l ≠ [] → motive l → motive (c ++ l)) :
    ∀ l, l ≠ [] → motive l := by
  intro l
  induction hlength : l.length using Nat.strongRecOn generalizing l with
  | ind k ih =>
      intro hne
      by_cases hle : l.length ≤ n
      · exact last l hne hle
      · have hdrop : (l.drop n).length = l.length - n := List.length_drop
        have hrest : l.drop n ≠ [] := List.length_pos_iff.mp (by omega)
        rw [← List.take_append_drop n l]
        exact more _ _ (List.length_take_of_le (by omega)) hrest
          (ih _ (by omega) _ rfl hrest)

/-- **Chunks of another length.**  Where each chunk of a list is replaced by one whose length is a
function of the old one, full ones by full ones, the chunks of the new length are the new ones. -/
theorem chunks_flatten {β : Type} (hn : 0 < n) {f : Nat → Nat} :
    ∀ (ds : List (List β)) (l : List α),
      ds.map List.length = (chunks n l).map (fun c => f c.length) →
      (∀ c ∈ chunks n l, 0 < f c.length ∧ f c.length ≤ f n) →
      chunks (f n) ds.flatten = ds := by
  intro ds
  induction ds with
  | nil => simp
  | cons c ds ih =>
      intro l h hf
      have hne : l ≠ [] := by
        rintro rfl
        simp at h
      by_cases hle : l.length ≤ n
      · rw [chunks_of_length_le hne hle] at h hf
        obtain ⟨hc, hds⟩ : c.length = f l.length ∧ ds = [] := by simpa using h
        obtain ⟨hpos, hmax⟩ := hf l List.mem_cons_self
        rw [hds, List.flatten_singleton]
        exact chunks_of_length_le (List.length_pos_iff.mp (by omega)) (by omega)
      · have htake : (l.take n).length = n := List.length_take_of_le (by omega)
        rw [← List.take_append_drop n l, chunks_append hn htake] at h hf
        rw [List.map_cons, List.map_cons, List.cons.injEq, htake] at h
        have hpos := (hf _ List.mem_cons_self).1
        rw [htake] at hpos
        rw [List.flatten_cons, chunks_append hpos h.1,
          ih _ h.2 fun c' hc' => hf c' (List.mem_cons_of_mem _ hc')]

/-- Bits set outside a mask do not show through it. -/
theorem and_or_and_of_disjoint {a mask bits : UInt8} (h : bits &&& mask = 0) :
    ((a &&& mask) ||| bits) &&& mask = a &&& mask := by
  apply UInt8.eq_of_toBitVec_eq
  ext i hi
  have hbit : (bits.toBitVec[i] && mask.toBitVec[i]) = false := by
    have := congrArg (fun b : UInt8 => b.toBitVec[i]) h
    simpa using this
  simp only [UInt8.toBitVec_and, UInt8.toBitVec_or, BitVec.getElem_and, BitVec.getElem_or,
    Bool.and_or_distrib_right, hbit, Bool.and_assoc, Bool.and_self, Bool.or_false]

/-! ### UTF-8 -/

/-- The bytes of a string (`str::as_bytes`). -/
def asBytes (s : String) : List UInt8 := s.toUTF8.data.toList

/-- The length of a string in bytes (`str::len`). -/
def len (s : String) : Nat := (asBytes s).length

/-- `String::from_utf8`: the string with these bytes, if they are valid UTF-8. -/
def fromUtf8 (bs : List UInt8) : Option String := String.fromUTF8? ⟨bs.toArray⟩

/-- `10xxxxxx`. -/
def isCont (b : UInt8) : Bool := b &&& 0xC0 == 0x80

/-- The width a first byte announces; `0` when no character starts with it. -/
def charWidth (b : UInt8) : Nat :=
  if b < 0x80 then 1
  else if 0xC2 ≤ b ∧ b ≤ 0xDF then 2
  else if 0xE0 ≤ b ∧ b ≤ 0xEF then 3
  else if 0xF0 ≤ b ∧ b ≤ 0xF4 then 4
  else 0

/-- The second byte of a three- or four-byte character: no overlong form, no surrogate, nothing
past `U+10FFFF`. -/
def secondOk (b₀ b₁ : UInt8) : Bool :=
  if b₀ = 0xE0 then 0xA0 ≤ b₁ && b₁ ≤ 0xBF
  else if b₀ = 0xED then 0x80 ≤ b₁ && b₁ ≤ 0x9F
  else if b₀ = 0xF0 then 0x90 ≤ b₁ && b₁ ≤ 0xBF
  else if b₀ = 0xF4 then 0x80 ≤ b₁ && b₁ ≤ 0x8F
  else isCont b₁

/-- The first character of a non-empty byte string, or `none` when it does not start with one,
and the number of bytes this accounts for: the character's, or those of the longest start of a
character, at least one. -/
def firstChar (b₀ : UInt8) (rest : List UInt8) : Option Char × Nat :=
  let get := fun i => rest.getD i 0
  let low := fun (b : UInt8) => (b &&& 0x3F).toNat
  match charWidth b₀ with
  | 1 => (some (Char.ofNat b₀.toNat), 1)
  | 2 =>
    if isCont (get 0) then (some (Char.ofNat ((b₀ &&& 0x1F).toNat * 64 + low (get 0))), 2)
    else (none, 1)
  | 3 =>
    if !secondOk b₀ (get 0) then (none, 1)
    else if !isCont (get 1) then (none, 2)
    else
      (some (Char.ofNat ((b₀ &&& 0x0F).toNat * 4096 + low (get 0) * 64 + low (get 1))), 3)
  | 4 =>
    if !secondOk b₀ (get 0) then (none, 1)
    else if !isCont (get 1) then (none, 2)
    else if !isCont (get 2) then (none, 3)
    else
      (some (Char.ofNat ((b₀ &&& 0x07).toNat * 262144 + low (get 0) * 4096 + low (get 1) * 64
        + low (get 2))), 4)
  | _ => (none, 1)

/-- The characters of a byte string, each maximal ill-formed piece read as `U+FFFD`.  Every round
takes at least one byte, so `fuel = bs.length` reads the whole string. -/
def lossyChars : Nat → List UInt8 → List Char
  | _, [] => []
  | 0, _ :: _ => []
  | fuel + 1, b :: rest =>
    let (c, width) := firstChar b rest
    c.getD '�' :: lossyChars fuel ((b :: rest).drop width)

/-- `String::from_utf8_lossy`. -/
def fromUtf8Lossy (bs : List UInt8) : String :=
  match fromUtf8 bs with
  | some s => s
  | none => String.ofList (lossyChars bs.length bs)

@[simp] theorem fromUtf8_asBytes (s : String) : fromUtf8 (asBytes s) = some s := by
  have h : String.fromUTF8? s.toByteArray = some s := by
    rw [String.fromUTF8?, dif_pos s.isValidUTF8]
    rfl
  simpa [fromUtf8, asBytes] using h

theorem fromUtf8_eq_some_iff {bs : List UInt8} {s : String} :
    fromUtf8 bs = some s ↔ asBytes s = bs := by
  constructor
  · intro h
    rw [fromUtf8, String.fromUTF8?] at h
    split at h
    · cases h
      rfl
    · cases h
  · rintro rfl
    exact fromUtf8_asBytes s

theorem asBytes_append (s t : String) : asBytes (s ++ t) = asBytes s ++ asBytes t := by
  change (s ++ t).toByteArray.data.toList = _
  rw [String.toByteArray_append]
  simp [asBytes]

@[simp] theorem len_append (s t : String) : len (s ++ t) = len s + len t := by
  simp [len, asBytes_append]

theorem asBytes_inj {s t : String} : asBytes s = asBytes t ↔ s = t := by
  constructor
  · intro h
    have hs := fromUtf8_asBytes s
    rw [h, fromUtf8_asBytes] at hs
    exact (Option.some.inj hs).symm
  · exact congrArg asBytes

@[simp] theorem fromUtf8Lossy_asBytes (s : String) : fromUtf8Lossy (asBytes s) = s := by
  rw [fromUtf8Lossy, fromUtf8_asBytes]

/-! ### Texts -/

/-- The bytes of a text. -/
def utf8 (text : List Char) : List UInt8 := asBytes (String.ofList text)

/-- The text of bytes, if they are valid UTF-8. -/
def ofUtf8 (bs : List UInt8) : Option (List Char) := (fromUtf8 bs).map String.toList

/-- The text of bytes, each maximal ill-formed piece read as `U+FFFD`. -/
def ofUtf8Lossy (bs : List UInt8) : List Char := (fromUtf8Lossy bs).toList

/-- `Path::display`: the text of a path, whose bytes need not be UTF-8. -/
abbrev display (path : List UInt8) : List Char := ofUtf8Lossy path

theorem utf8_eq_flatMap (text : List Char) : utf8 text = text.flatMap String.utf8EncodeChar := by
  change (String.ofList text).toByteArray.data.toList = _
  rw [String.toByteArray_ofList, List.utf8Encode]
  simp

@[simp] theorem utf8_nil : utf8 [] = [] := by rw [utf8_eq_flatMap, List.flatMap_nil]

@[simp] theorem utf8_append (text text' : List Char) :
    utf8 (text ++ text') = utf8 text ++ utf8 text' := by
  rw [utf8_eq_flatMap, utf8_eq_flatMap, utf8_eq_flatMap, List.flatMap_append]

theorem utf8_cons (c : Char) (text : List Char) :
    utf8 (c :: text) = String.utf8EncodeChar c ++ utf8 text := by
  rw [utf8_eq_flatMap, utf8_eq_flatMap, List.flatMap_cons]

theorem ofUtf8_eq_some_iff {bs : List UInt8} :
    ofUtf8 bs = some text ↔ utf8 text = bs := by
  rw [ofUtf8, Option.map_eq_some_iff]
  constructor
  · rintro ⟨s, hs, rfl⟩
    rw [utf8, String.ofList_toList]
    exact fromUtf8_eq_some_iff.mp hs
  · rintro rfl
    exact ⟨String.ofList text, fromUtf8_asBytes _, String.toList_ofList⟩

@[simp] theorem ofUtf8_utf8 (text : List Char) : ofUtf8 (utf8 text) = some text :=
  ofUtf8_eq_some_iff.mpr rfl

theorem utf8_inj {text' : List Char} (h : utf8 text = utf8 text') : text = text' := by
  have hread := ofUtf8_utf8 text
  rw [h, ofUtf8_utf8] at hread
  exact (Option.some.inj hread).symm

@[simp] theorem ofUtf8Lossy_utf8 (text : List Char) : ofUtf8Lossy (utf8 text) = text := by
  rw [ofUtf8Lossy, utf8, fromUtf8Lossy_asBytes, String.toList_ofList]

/-- The bytes of a character: the first, and none of the others starts with two ones.  If the first
does there are others. -/
theorem utf8EncodeChar_eq (c : Char) : ∃ b bs, String.utf8EncodeChar c = b :: bs ∧
    (∀ b' ∈ bs, b' < 0xC0) ∧ (0xC0 ≤ b → bs ≠ []) := by
  have hcont : ∀ n : Nat, UInt8.ofNat (n % 0x40 + 0x80) < 0xC0 := by
    intro n
    rw [UInt8.lt_iff_toNat_lt, UInt8.toNat_ofNat']
    have hlt : n % 0x40 < 0x40 := Nat.mod_lt _ (by decide)
    rw [Nat.mod_eq_of_lt (by omega)]
    exact (by omega : n % 0x40 + 0x80 < 0xC0)
  simp only [String.utf8EncodeChar]
  split_ifs with h₁ h₂ h₃
  · refine ⟨_, _, rfl, by simp, fun hle => ?_⟩
    rw [UInt8.le_iff_toNat_le, UInt8.toNat_ofNat', Nat.mod_eq_of_lt (by omega)] at hle
    exact absurd (hle.trans h₁) (by decide)
  all_goals
    refine ⟨_, _, rfl, ?_, fun _ => List.cons_ne_nil _ _⟩
    simp only [List.forall_mem_cons, hcont, true_and]
    exact List.forall_mem_nil _

theorem length_le_length_utf8 (text : List Char) : text.length ≤ (utf8 text).length := by
  induction text with
  | nil => simp
  | cons c text ih =>
      obtain ⟨b, bs, hb, -, -⟩ := utf8EncodeChar_eq c
      rw [utf8_cons, hb, List.length_cons, List.length_append, List.length_cons]
      omega

theorem length_utf8_of_ascii (h : ∀ c ∈ text, c.val ≤ 127) :
    (utf8 text).length = text.length := by
  induction text with
  | nil => rw [utf8_nil]; rfl
  | cons c text ih =>
      rw [List.forall_mem_cons] at h
      rw [utf8_cons, List.length_append, String.length_utf8EncodeChar,
        Char.utf8Size_eq_one_iff.mpr h.1, ih h.2, List.length_cons, Nat.add_comm]

/-- **No two first bytes are in a row**, of characters of more than one byte. -/
theorem utf8_isChain (text : List Char) :
    (utf8 text).IsChain fun b b' => 0xC0 ≤ b → b' < 0xC0 := by
  induction text with
  | nil => simp
  | cons c text ih =>
      obtain ⟨b, bs, hb, hlow, hmore⟩ := utf8EncodeChar_eq c
      rw [utf8_cons, hb, List.cons_append]
      have hbs : (bs ++ utf8 text).IsChain fun b b' => 0xC0 ≤ b → b' < 0xC0 := by
        clear hb hmore
        induction bs with
        | nil => exact ih
        | cons b bs ihbs =>
            rw [List.forall_mem_cons] at hlow
            rw [List.cons_append, List.isChain_cons]
            exact ⟨fun b' _ hle => absurd hlow.1 (UInt8.not_lt.mpr hle), ihbs hlow.2⟩
      rw [List.isChain_cons]
      refine ⟨fun b' hb' hle => ?_, hbs⟩
      obtain ⟨b'', bs', rfl⟩ := List.exists_cons_of_ne_nil (hmore hle)
      rw [List.cons_append, List.head?_cons, Option.mem_some_iff] at hb'
      exact hb' ▸ hlow b'' List.mem_cons_self

theorem utf8_getElem? {i : Nat} {b b' : UInt8} (hb : (utf8 text)[i]? = some b)
    (hb' : (utf8 text)[i + 1]? = some b') (hle : 0xC0 ≤ b) : b' < 0xC0 := by
  obtain ⟨hi, rfl⟩ := List.getElem?_eq_some_iff.mp hb
  obtain ⟨hi', rfl⟩ := List.getElem?_eq_some_iff.mp hb'
  exact List.isChain_iff_getElem.mp (utf8_isChain text) i hi' hle

end Bytes
