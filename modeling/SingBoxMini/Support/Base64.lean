import Mathlib.Data.List.Basic
import Mathlib.Data.Nat.Bitwise
import Mathlib.Tactic.IntervalCases

/-!
# Support — Base64

Base64 (RFC 4648) as its bits: each character stands for six, and what it decodes to are the bytes
of them in a row.

There are the two alphabets of the standard, which differ in two characters, and two kinds of
padding: up to a multiple of four characters, or none.  A decoder takes padding as it would write it
and no other, and the bits behind the last byte have to be zero, so bytes have one text.

* `Engine.decode_eq_some`: what is accepted is the bytes and at most five bits, all zero.
* `Engine.decode_encode`: what is encoded is accepted, as the bytes.
* `Engine.decode_append`: where two texts in a row are accepted, the first one has no padding, and
  the bits of the two are in a row.
-/

namespace Base64

/-! ### Bits -/

/-- The last `width` bits of a number, the highest first. -/
def bits : Nat → Nat → List Bool
  | 0, _ => []
  | width + 1, value => value.testBit width :: bits width value

@[simp] theorem length_bits (width value : Nat) : (bits width value).length = width := by
  induction width with
  | zero => rfl
  | succ width ih => rw [bits, List.length_cons, ih]

/-- The bits tell the number. -/
theorem testBit_eq_of_bits {a b width : Nat} (h : bits width a = bits width b) :
    ∀ i < width, a.testBit i = b.testBit i := by
  induction width with
  | zero => simp
  | succ width ih =>
      rw [bits, bits, List.cons.injEq] at h
      intro i hi
      rcases Nat.lt_succ_iff_lt_or_eq.mp hi with hlt | rfl
      · exact ih h.2 i hlt
      · exact h.1

/-- The bits of a byte. -/
def byteBits (b : UInt8) : List Bool := bits 8 b.toNat

@[simp] theorem length_byteBits (b : UInt8) : (byteBits b).length = 8 := length_bits 8 _

theorem byteBits_inj {a b : UInt8} (h : byteBits a = byteBits b) : a = b := by
  refine UInt8.toNat_inj.mp (Nat.eq_of_testBit_eq fun i => ?_)
  rcases Nat.lt_or_ge i 8 with hi | hi
  · exact testBit_eq_of_bits h i hi
  · have hpow : 2 ^ 8 ≤ 2 ^ i := Nat.pow_le_pow_right (by decide) hi
    have ha : a.toNat < 2 ^ i := Nat.lt_of_lt_of_le a.toNat_lt hpow
    have hb : b.toNat < 2 ^ i := Nat.lt_of_lt_of_le b.toNat_lt hpow
    rw [Nat.testBit_lt_two_pow ha, Nat.testBit_lt_two_pow hb]

/-- The byte of eight bits. -/
def ofBits (b₇ b₆ b₅ b₄ b₃ b₂ b₁ b₀ : Bool) : UInt8 :=
  .ofNat ([b₇, b₆, b₅, b₄, b₃, b₂, b₁, b₀].foldl (fun value b => 2 * value + b.toNat) 0)

theorem byteBits_ofBits : ∀ b₇ b₆ b₅ b₄ b₃ b₂ b₁ b₀ : Bool,
    byteBits (ofBits b₇ b₆ b₅ b₄ b₃ b₂ b₁ b₀) = [b₇, b₆, b₅, b₄, b₃, b₂, b₁, b₀] := by
  decide

/-- The bytes of bits in a row; fewer than six may be left over, and have to be zero. -/
def decodeBits : List Bool → Option (List UInt8)
  | b₇ :: b₆ :: b₅ :: b₄ :: b₃ :: b₂ :: b₁ :: b₀ :: rest =>
    (decodeBits rest).map (ofBits b₇ b₆ b₅ b₄ b₃ b₂ b₁ b₀ :: ·)
  | rest => if rest.length < 6 ∧ rest.all (!·) then some [] else none

/-- The bits of bytes in a row. -/
def bytesBits (bytes : List UInt8) : List Bool := bytes.flatMap byteBits

@[simp] theorem bytesBits_cons (b : UInt8) (bytes : List UInt8) :
    bytesBits (b :: bytes) = byteBits b ++ bytesBits bytes := rfl

@[simp] theorem bytesBits_append (bytes bytes' : List UInt8) :
    bytesBits (bytes ++ bytes') = bytesBits bytes ++ bytesBits bytes' := List.flatMap_append

@[simp] theorem length_bytesBits (bytes : List UInt8) :
    (bytesBits bytes).length = 8 * bytes.length := by
  induction bytes with
  | nil => rfl
  | cons b bytes ih =>
      rw [bytesBits_cons, List.length_append, ih, length_byteBits, List.length_cons]
      omega

/-- **What is decoded is the bits**, but for a few zeros. -/
theorem decodeBits_eq_some {l : List Bool} {bytes : List UInt8} (h : decodeBits l = some bytes) :
    ∃ rest, l = bytesBits bytes ++ rest ∧ rest.length < 6 ∧ ∀ b ∈ rest, b = false := by
  fun_induction decodeBits l generalizing bytes with
  | case1 b₇ b₆ b₅ b₄ b₃ b₂ b₁ b₀ l ih =>
      obtain ⟨bytes', hbytes', rfl⟩ := Option.map_eq_some_iff.mp h
      obtain ⟨rest, rfl, hlength, hzero⟩ := ih hbytes'
      exact ⟨rest, by rw [bytesBits_cons, byteBits_ofBits]; rfl, hlength, hzero⟩
  | case2 rest hne hzero =>
      cases h
      exact ⟨rest, rfl, hzero.1, by simpa using hzero.2⟩
  | case3 => cases h

/-- Each bit of bytes in a row, by its byte. -/
theorem getElem?_bytesBits (bytes : List UInt8) (i : Nat) :
    (bytesBits bytes)[i]? = bytes[i / 8]?.map fun b => b.toNat.testBit (7 - i % 8) := by
  induction bytes generalizing i with
  | nil => rfl
  | cons b bytes ih =>
      rw [bytesBits_cons]
      rcases Nat.lt_or_ge i 8 with hi | hi
      · rw [List.getElem?_append_left (by simpa using hi), Nat.div_eq_of_lt hi,
          Nat.mod_eq_of_lt hi, byteBits]
        interval_cases i <;> rfl
      · rw [List.getElem?_append_right (by simpa using hi), ih, length_byteBits]
        obtain ⟨j, rfl⟩ := Nat.exists_eq_add_of_le' hi
        rw [Nat.add_sub_cancel, Nat.add_div_right _ (by decide), Nat.add_mod_right,
          List.getElem?_cons_succ]

/-- Bytes are the same if their bits are, but for a few behind. -/
theorem eq_of_bytesBits_append {bytes bytes' : List UInt8} {rest rest' : List Bool}
    (h : bytesBits bytes ++ rest = bytesBits bytes' ++ rest') (hrest : rest.length < 8)
    (hrest' : rest'.length < 8) : bytes = bytes' := by
  induction bytes generalizing bytes' with
  | nil =>
      cases bytes' with
      | nil => rfl
      | cons b bytes' =>
          have hlength := congrArg List.length h
          simp only [List.length_append, length_bytesBits, List.length_cons,
            List.length_nil] at hlength
          omega
  | cons b bytes ih =>
      cases bytes' with
      | nil =>
          have hlength := congrArg List.length h
          simp only [List.length_append, length_bytesBits, List.length_cons,
            List.length_nil] at hlength
          omega
      | cons b' bytes' =>
          rw [bytesBits_cons, bytesBits_cons, List.append_assoc, List.append_assoc] at h
          obtain ⟨hbyte, htail⟩ := List.append_inj h (by simp)
          rw [byteBits_inj hbyte, ih htail]

/-! ### Characters -/

/-- The value of a character in one of the alphabets. -/
def symbol (urlSafe : Bool) (c : Char) : Option Nat :=
  if 'A' ≤ c ∧ c ≤ 'Z' then some (c.toNat - 'A'.toNat)
  else if 'a' ≤ c ∧ c ≤ 'z' then some (c.toNat - 'a'.toNat + 26)
  else if '0' ≤ c ∧ c ≤ '9' then some (c.toNat - '0'.toNat + 52)
  else if c = (if urlSafe then '-' else '+') then some 62
  else if c = (if urlSafe then '_' else '/') then some 63
  else none

/-- The alphabets do not differ about a character both have. -/
theorem symbol_unique {urlSafe urlSafe' : Bool} {c : Char} {v v' : Nat}
    (h : symbol urlSafe c = some v) (h' : symbol urlSafe' c = some v') : v = v' := by
  cases urlSafe <;> cases urlSafe' <;> simp only [symbol] at h h' <;> grind

/-- An alphabet, and whether a text is padded. -/
structure Engine where
  urlSafe : Bool
  padded : Bool
deriving DecidableEq, Repr

/-- The padding behind so many characters. -/
def padding (n : Nat) : List Char := List.replicate ((4 - n % 4) % 4) '='

namespace Engine

variable {e e₁ e₂ : Engine} {s t : List Char} {bytes bytes₁ bytes₂ : List UInt8}

/-- The bits of characters in a row. -/
def bitsOf (e : Engine) (s : List Char) : Option (List Bool) :=
  (s.mapM (symbol e.urlSafe)).map (·.flatMap (bits 6))

/-- What has to be behind so many characters. -/
def trailer (e : Engine) (n : Nat) : List Char := if e.padded then padding n else []

/-- The bytes of a text. -/
def decode (e : Engine) (s : List Char) : Option (List UInt8) :=
  if s.dropWhile (· ≠ '=') = e.trailer (s.takeWhile (· ≠ '=')).length then
    (e.bitsOf (s.takeWhile (· ≠ '='))).bind decodeBits
  else none

variable {c : Char}

theorem eq_of_mem_trailer {n : Nat} (h : c ∈ e.trailer n) : c = '=' := by
  rw [trailer] at h
  split_ifs at h
  · exact List.eq_of_mem_replicate h
  · cases h

theorem bitsOf_cons :
    e.bitsOf (c :: s) =
      (symbol e.urlSafe c).bind fun v => (e.bitsOf s).map (bits 6 v ++ ·) := by
  cases hc : symbol e.urlSafe c <;> cases hs : s.mapM (symbol e.urlSafe) <;>
    simp [bitsOf, List.mapM_cons, hc, hs]

theorem bitsOf_append :
    e.bitsOf (s ++ t) = (e.bitsOf s).bind fun l => (e.bitsOf t).map (l ++ ·) := by
  induction s with
  | nil =>
      change e.bitsOf t = (e.bitsOf t).map ([] ++ ·)
      simp
  | cons c s ih =>
      rw [List.cons_append, bitsOf_cons, bitsOf_cons, ih]
      cases symbol e.urlSafe c <;> cases e.bitsOf s <;> cases e.bitsOf t <;> simp

theorem length_of_bitsOf {l : List Bool} (h : e.bitsOf s = some l) : l.length = 6 * s.length := by
  induction s generalizing l with
  | nil =>
      cases h
      rfl
  | cons c s ih =>
      rw [bitsOf_cons, Option.bind_eq_some_iff] at h
      obtain ⟨v, -, h⟩ := h
      obtain ⟨l', hl', rfl⟩ := Option.map_eq_some_iff.mp h
      rw [List.length_append, ih hl', length_bits, List.length_cons]
      omega

/-- The bits of characters are the same in both alphabets. -/
theorem bitsOf_unique {l₁ l₂ : List Bool} (h₁ : e₁.bitsOf s = some l₁)
    (h₂ : e₂.bitsOf s = some l₂) : l₁ = l₂ := by
  induction s generalizing l₁ l₂ with
  | nil =>
      cases h₁
      cases h₂
      rfl
  | cons c s ih =>
      rw [bitsOf_cons, Option.bind_eq_some_iff] at h₁ h₂
      obtain ⟨v₁, hv₁, h₁⟩ := h₁
      obtain ⟨v₂, hv₂, h₂⟩ := h₂
      obtain ⟨l₁, hl₁, rfl⟩ := Option.map_eq_some_iff.mp h₁
      obtain ⟨l₂, hl₂, rfl⟩ := Option.map_eq_some_iff.mp h₂
      rw [symbol_unique hv₁ hv₂, ih hl₁ hl₂]

/-- **What is accepted**: characters that stand for the bytes and a few zeros, and padding. -/
theorem decode_eq_some (h : e.decode s = some bytes) :
    ∃ body pad rest, s = body ++ pad ∧ '=' ∉ body ∧ (∀ c ∈ pad, c = '=') ∧
      e.bitsOf body = some (bytesBits bytes ++ rest) ∧ rest.length < 6 ∧ ∀ b ∈ rest, b = false := by
  rw [decode] at h
  split_ifs at h with hpad
  obtain ⟨l, hl, hbytes⟩ := Option.bind_eq_some_iff.mp h
  obtain ⟨rest, rfl, hlength, hzero⟩ := decodeBits_eq_some hbytes
  refine ⟨_, _, rest, (List.takeWhile_append_dropWhile).symm, ?_, ?_, hl, hlength, hzero⟩
  · intro hmem
    have hne := List.all_eq_true.mp (List.all_takeWhile (p := (· ≠ '=')) (l := s)) _ hmem
    simp at hne
  · rw [hpad]
    exact fun c => eq_of_mem_trailer

theorem symbol_of_bitsOf {l : List Bool} (h : e.bitsOf s = some l) (hc : c ∈ s) :
    ∃ v, symbol e.urlSafe c = some v := by
  induction s generalizing l with
  | nil => cases hc
  | cons d s ih =>
      rw [bitsOf_cons, Option.bind_eq_some_iff] at h
      obtain ⟨v, hv, h⟩ := h
      obtain ⟨l', hl', -⟩ := Option.map_eq_some_iff.mp h
      rcases List.mem_cons.mp hc with rfl | hc
      · exact ⟨v, hv⟩
      · exact ih hl' hc

/-- The characters of a text that is accepted. -/
theorem symbol_of_decode (h : e.decode s = some bytes) (hc : c ∈ s) :
    c = '=' ∨ ∃ v, symbol e.urlSafe c = some v := by
  obtain ⟨body, pad, rest, rfl, -, hpad, hbits, -, -⟩ := decode_eq_some h
  rcases List.mem_append.mp hc with hc | hc
  · exact .inr (symbol_of_bitsOf hbits hc)
  · exact .inl (hpad c hc)

/-- A text tells where its padding begins. -/
theorem body_unique {body pad body' pad' : List Char} (h : body ++ pad = body' ++ pad')
    (hbody : '=' ∉ body) (hpad : ∀ c ∈ pad, c = '=') (hbody' : '=' ∉ body')
    (hpad' : ∀ c ∈ pad', c = '=') : body = body' := by
  have htake : ∀ body pad : List Char, '=' ∉ body → (∀ c ∈ pad, c = '=') →
      (body ++ pad).takeWhile (· ≠ '=') = body := by
    intro body pad hbody hpad
    rw [List.takeWhile_append_of_pos (by grind)]
    cases pad with
    | nil => exact List.append_nil _
    | cons c pad =>
        rw [hpad c List.mem_cons_self, List.takeWhile_cons_of_neg (by simp), List.append_nil]
  rw [← htake body pad hbody hpad, h, htake body' pad' hbody' hpad']

/-- **One text, one meaning**, whatever the engine. -/
theorem decode_unique (h₁ : e₁.decode s = some bytes₁) (h₂ : e₂.decode s = some bytes₂) :
    bytes₁ = bytes₂ := by
  obtain ⟨body, pad, rest, rfl, hbody, hpad, hbits, hrest, -⟩ := decode_eq_some h₁
  obtain ⟨body', pad', rest', heq, hbody', hpad', hbits', hrest', -⟩ := decode_eq_some h₂
  rw [← body_unique heq hbody hpad hbody' hpad'] at hbits'
  exact eq_of_bytesBits_append (bitsOf_unique hbits hbits') (by omega) (by omega)

/-- What is decoded is no longer than the text. -/
theorem length_le_of_decode (h : e.decode s = some bytes) : bytes.length ≤ s.length := by
  obtain ⟨body, pad, rest, rfl, -, -, hbits, -, -⟩ := decode_eq_some h
  have hlength := length_of_bitsOf hbits
  rw [List.length_append, length_bytesBits] at hlength
  rw [List.length_append]
  omega

/-- **Two texts in a row.**  If they and both together are accepted, the bits of the first and of
the second are those of both, with two or four zeros between them or none. -/
theorem decode_append (h₁ : e₁.decode s = some bytes₁) (h₂ : e₂.decode t = some bytes₂)
    (hne : bytes₂ ≠ []) (h : e.decode (s ++ t) = some bytes) :
    ∃ n rest rest', (n = 0 ∨ n = 2 ∨ n = 4) ∧ rest.length < 6 ∧ (∀ b ∈ rest, b = false) ∧
      rest'.length < 6 ∧
      bytesBits bytes ++ rest =
        bytesBits bytes₁ ++ (List.replicate n false ++ (bytesBits bytes₂ ++ rest')) := by
  obtain ⟨body₁, pad₁, rest₁, rfl, hbody₁, hpad₁, hbits₁, hlength₁, hzero₁⟩ := decode_eq_some h₁
  obtain ⟨body₂, pad₂, rest₂, rfl, hbody₂, hpad₂, hbits₂, hlength₂, -⟩ := decode_eq_some h₂
  obtain ⟨body, pad, rest, hs, hbody, hpad, hbits, hlength, hzero⟩ := decode_eq_some h
  have hbody₂_ne : body₂ ≠ [] := by
    rintro rfl
    have hempty := length_of_bitsOf hbits₂
    rw [List.length_append, length_bytesBits, List.length_nil] at hempty
    exact hne (List.eq_nil_of_length_eq_zero (by omega))
  obtain ⟨c, body₂', rfl⟩ := List.exists_cons_of_ne_nil hbody₂_ne
  have hc : c ≠ '=' := fun h => hbody₂ (by simp [h])
  have hbody_eq : body = body₁ ++ c :: body₂' := by
    rcases List.append_eq_append_iff.mp hs with ⟨x, rfl, hx⟩ | ⟨x, -, rfl⟩
    · -- the first text is in front of the padding, so it has none
      have hnil : pad₁ = [] := by
        refine List.eq_nil_iff_forall_not_mem.mpr fun c' hc' => hbody ?_
        rw [← hpad₁ c' hc']
        simp [hc']
      rw [hnil, List.append_nil] at hbody ⊢
      rw [body_unique hx hbody₂ hpad₂ (fun hmem => hbody (List.mem_append_right _ hmem)) hpad]
    · -- padding does not come before the second text
      exact absurd (hpad c (by simp)) hc
  rw [hbody_eq, bitsOf_append, Option.bind_eq_some_iff] at hbits
  obtain ⟨l₁, hl₁, hbits⟩ := hbits
  obtain ⟨l₂, hl₂, hbits⟩ := Option.map_eq_some_iff.mp hbits
  rw [bitsOf_unique hl₁ hbits₁, bitsOf_unique hl₂ hbits₂] at hbits
  refine ⟨rest₁.length, rest, rest₂, ?_, hlength, hzero, hlength₂, ?_⟩
  · have hmod := length_of_bitsOf hbits₁
    rw [List.length_append, length_bytesBits] at hmod
    omega
  · rw [← hbits, List.append_assoc, ← List.eq_replicate_of_mem hzero₁]

end Engine

/-! ### Encoding -/

/-- The number of bits, the highest first. -/
def valueOf (l : List Bool) : Nat := l.foldl (fun value b => 2 * value + b.toNat) 0

/-- The values of bits in a row, six at a time; zeros are added to the last ones. -/
def values : List Bool → List Nat
  | b₅ :: b₄ :: b₃ :: b₂ :: b₁ :: b₀ :: rest => valueOf [b₅, b₄, b₃, b₂, b₁, b₀] :: values rest
  | [] => []
  | rest => [valueOf (rest ++ List.replicate (6 - rest.length) false)]

theorem bits_valueOf : ∀ b₅ b₄ b₃ b₂ b₁ b₀ : Bool,
    bits 6 (valueOf [b₅, b₄, b₃, b₂, b₁, b₀]) = [b₅, b₄, b₃, b₂, b₁, b₀] := by
  decide

theorem valueOf_lt : ∀ b₅ b₄ b₃ b₂ b₁ b₀ : Bool, valueOf [b₅, b₄, b₃, b₂, b₁, b₀] < 64 := by
  decide

/-- Fewer than six bits, with the zeros that are added. -/
theorem bits_valueOf_append {l : List Bool} (h : l.length < 6) :
    bits 6 (valueOf (l ++ List.replicate (6 - l.length) false)) =
        l ++ List.replicate (6 - l.length) false ∧
      valueOf (l ++ List.replicate (6 - l.length) false) < 64 := by
  match l with
  | [] => decide
  | [b₅] => exact ⟨bits_valueOf b₅ _ _ _ _ _, valueOf_lt b₅ _ _ _ _ _⟩
  | [b₅, b₄] => exact ⟨bits_valueOf b₅ b₄ _ _ _ _, valueOf_lt b₅ b₄ _ _ _ _⟩
  | [b₅, b₄, b₃] => exact ⟨bits_valueOf b₅ b₄ b₃ _ _ _, valueOf_lt b₅ b₄ b₃ _ _ _⟩
  | [b₅, b₄, b₃, b₂] => exact ⟨bits_valueOf b₅ b₄ b₃ b₂ _ _, valueOf_lt b₅ b₄ b₃ b₂ _ _⟩
  | [b₅, b₄, b₃, b₂, b₁] => exact ⟨bits_valueOf b₅ b₄ b₃ b₂ b₁ _, valueOf_lt b₅ b₄ b₃ b₂ b₁ _⟩
  | _ :: _ :: _ :: _ :: _ :: _ :: _ => exact absurd h (by simp)

/-- **The values are the bits**, but for a few zeros. -/
theorem flatMap_values (l : List Bool) :
    (∃ rest, (values l).flatMap (bits 6) = l ++ rest ∧ rest.length < 6 ∧
      ∀ b ∈ rest, b = false) ∧ ∀ v ∈ values l, v < 64 := by
  fun_induction values l with
  | case1 b₅ b₄ b₃ b₂ b₁ b₀ l ih =>
      obtain ⟨⟨rest, hrest, hlength, hzero⟩, hvalues⟩ := ih
      refine ⟨⟨rest, ?_, hlength, hzero⟩,
        List.forall_mem_cons.mpr ⟨valueOf_lt b₅ b₄ b₃ b₂ b₁ b₀, hvalues⟩⟩
      rw [List.flatMap_cons, hrest, bits_valueOf]
      rfl
  | case2 => exact ⟨⟨[], by simp⟩, by simp⟩
  | case3 l hsix hnil =>
      have hlength : l.length < 6 := by
        match l, hsix with
        | [], _ | [_], _ | [_, _], _ | [_, _, _], _ | [_, _, _, _], _ | [_, _, _, _, _], _ => simp
        | b₅ :: b₄ :: b₃ :: b₂ :: b₁ :: b₀ :: rest, hsix =>
            exact (hsix b₅ b₄ b₃ b₂ b₁ b₀ rest rfl).elim
      obtain ⟨hbits, hlt⟩ := bits_valueOf_append hlength
      have hpos : 0 < l.length := List.length_pos_iff.mpr hnil
      refine ⟨⟨List.replicate (6 - l.length) false, ?_, ?_, ?_⟩, by simpa using hlt⟩
      · rw [List.flatMap_singleton, hbits]
      · rw [List.length_replicate]
        omega
      · exact fun b hb => List.eq_of_mem_replicate hb

/-- The bytes and fewer than six zeros are the bytes. -/
theorem decodeBits_bytesBits (bytes : List UInt8) {rest : List Bool} (hlength : rest.length < 6)
    (hzero : ∀ b ∈ rest, b = false) : decodeBits (bytesBits bytes ++ rest) = some bytes := by
  induction bytes with
  | nil =>
      rw [bytesBits, List.flatMap_nil, List.nil_append]
      match rest with
      | [] | [_] | [_, _] | [_, _, _] | [_, _, _, _] | [_, _, _, _, _] =>
          rw [decodeBits, if_pos ⟨hlength, List.all_eq_true.mpr
            fun b hb => by rw [hzero b hb]; rfl⟩]
          all_goals simp
      | _ :: _ :: _ :: _ :: _ :: _ :: _ => exact absurd hlength (by simp)
  | cons b bytes ih =>
      obtain ⟨b₇, b₆, b₅, b₄, b₃, b₂, b₁, b₀, hb⟩ : ∃ b₇ b₆ b₅ b₄ b₃ b₂ b₁ b₀,
          byteBits b = [b₇, b₆, b₅, b₄, b₃, b₂, b₁, b₀] := ⟨_, _, _, _, _, _, _, _, rfl⟩
      have hbyte : ofBits b₇ b₆ b₅ b₄ b₃ b₂ b₁ b₀ = b :=
        byteBits_inj ((byteBits_ofBits b₇ b₆ b₅ b₄ b₃ b₂ b₁ b₀).trans hb.symm)
      rw [bytesBits_cons, hb, List.append_assoc]
      change (decodeBits (bytesBits bytes ++ rest)).map (ofBits b₇ b₆ b₅ b₄ b₃ b₂ b₁ b₀ :: ·) = _
      rw [ih, hbyte, Option.map_some]

/-- The character of a value in one of the alphabets. -/
def character (urlSafe : Bool) (v : Nat) : Char :=
  if v < 26 then .ofNat ('A'.toNat + v)
  else if v < 52 then .ofNat ('a'.toNat + (v - 26))
  else if v < 62 then .ofNat ('0'.toNat + (v - 52))
  else if v = 62 then (if urlSafe then '-' else '+')
  else if urlSafe then '_' else '/'

theorem symbol_character : ∀ urlSafe : Bool, ∀ v < 64,
    symbol urlSafe (character urlSafe v) = some v := by
  decide

/-- Padding and the dot are no characters of an alphabet. -/
theorem character_ne : ∀ urlSafe : Bool, ∀ v < 64,
    character urlSafe v ≠ '=' ∧ character urlSafe v ≠ '.' := by
  decide

namespace Engine

/-- The characters that stand for the bytes. -/
def body (e : Engine) (bytes : List UInt8) : List Char :=
  (values (bytesBits bytes)).map (character e.urlSafe)

/-- The text of bytes. -/
def encode (e : Engine) (bytes : List UInt8) : List Char :=
  e.body bytes ++ e.trailer (e.body bytes).length

variable {e : Engine}

theorem bitsOf_map_character {vs : List Nat} (h : ∀ v ∈ vs, v < 64) :
    e.bitsOf (vs.map (character e.urlSafe)) = some (vs.flatMap (bits 6)) := by
  induction vs with
  | nil => rfl
  | cons v vs ih =>
      rw [List.forall_mem_cons] at h
      rw [List.map_cons, bitsOf_cons, symbol_character e.urlSafe v h.1, ih h.2]
      rfl

variable {bytes : List UInt8} {c : Char}

theorem ne_of_mem_body (h : c ∈ e.body bytes) :
    c ≠ '=' ∧ c ≠ '.' := by
  obtain ⟨v, hv, rfl⟩ := List.mem_map.mp h
  exact character_ne e.urlSafe v ((flatMap_values _).2 v hv)

/-- What can be in a text that is encoded. -/
theorem mem_encode (h : c ∈ e.encode bytes) :
    c = '=' ∨ ∃ v < 64, c = character e.urlSafe v := by
  rcases List.mem_append.mp h with h | h
  · obtain ⟨v, hv, rfl⟩ := List.mem_map.mp h
    exact .inr ⟨v, (flatMap_values _).2 v hv, rfl⟩
  · exact .inl (eq_of_mem_trailer h)

/-- A property of all characters that are used. -/
theorem of_mem_encode {p : Char → Bool} (hpad : p '=' = true)
    (h : ∀ urlSafe : Bool, ∀ v < 64, p (character urlSafe v) = true) (hc : c ∈ e.encode bytes) :
    p c = true := by
  rcases mem_encode hc with rfl | ⟨v, hv, rfl⟩
  · exact hpad
  · exact h e.urlSafe v hv

theorem dot_not_mem_encode (bytes : List UInt8) : '.' ∉ e.encode bytes := by
  intro h
  rcases List.mem_append.mp h with h | h
  · exact (ne_of_mem_body h).2 rfl
  · exact absurd (eq_of_mem_trailer h) (by decide)

/-- **What is encoded is decoded.** -/
theorem decode_encode (bytes : List UInt8) : e.decode (e.encode bytes) = some bytes := by
  have hbody : ∀ c ∈ e.body bytes, decide (c ≠ '=') = true := fun c hc => by
    simpa using (ne_of_mem_body hc).1
  have htrailer : ∀ n, (e.trailer n).takeWhile (· ≠ '=') = [] := fun n => by
    cases h : e.trailer n with
    | nil => rfl
    | cons c pad =>
        have hc : c = '=' := eq_of_mem_trailer (n := n) (by rw [h]; exact List.mem_cons_self)
        simp [hc]
  have hdrop : ∀ n, (e.trailer n).dropWhile (· ≠ '=') = e.trailer n := fun n => by
    have h := (List.takeWhile_append_dropWhile (p := (· ≠ '=')) (l := e.trailer n))
    rwa [htrailer, List.nil_append] at h
  obtain ⟨⟨rest, hbits, hlength, hzero⟩, hvalues⟩ := flatMap_values (bytesBits bytes)
  rw [decode, encode, List.takeWhile_append_of_pos hbody, List.dropWhile_append_of_pos hbody,
    htrailer, hdrop, List.append_nil, if_pos rfl, body, bitsOf_map_character hvalues, hbits]
  exact decodeBits_bytesBits bytes hlength hzero

end Engine

end Base64
