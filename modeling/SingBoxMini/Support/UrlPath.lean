import SingBoxMini.Support.Percent

/-!
# Support — UrlPath

The path of a URL of a special scheme (`http`, `https`) as the URL standard reads it: a list of
segments, without the segments of one or two dots.

A backslash separates segments as a slash does, and the dots may be encoded.

* `normal_parsePath`: what is read has no dots left, and is read from its own text unchanged.
* `parsePath_append`: behind the text of such a path, a text is read as if the path were already
  there.
* `Climb.resolve_eq`: what a text does to any path it is read behind: how many segments it takes
  away, and what it puts there.
-/

namespace UrlPath
open Text

/-! ### Segments -/

/-- A segment of one dot. -/
def isSingleDot (segment : List Char) : Bool :=
  toAsciiLowercase segment == ".".toList || toAsciiLowercase segment == "%2e".toList

/-- A segment of two dots. -/
def isDoubleDot (segment : List Char) : Bool :=
  toAsciiLowercase segment == "..".toList || toAsciiLowercase segment == ".%2e".toList ||
    toAsciiLowercase segment == "%2e.".toList || toAsciiLowercase segment == "%2e%2e".toList

/-- The characters that are not encoded in a path. -/
def keeps (c : Char) : Bool :=
  '!' ≤ c && c ≤ '~' &&
    !(c = '"' || c = '#' || c = '<' || c = '>' || c = '?' || c = '\x60' || c = '\x7b' || c = '\x7d')

/-- A text without tabs and line ends, and with slashes for backslashes. -/
def clean (input : List Char) : List Char :=
  (input.filter fun c => !(c = '\t' || c = '\n' || c = '\r')).map fun c =>
    if c = '\\' then '/' else c

/-- The segments between the slashes. -/
def pieces (input : List Char) : List (List Char) :=
  (input.splitOn '/').map (Percent.encode keeps)

/-- A slash in front is not part of a segment. -/
def dropSlash (input : List Char) : List Char :=
  if input.head? = some '/' then input.tail else input

/-- What a segment does to a state: two dots take a segment away, and any other one adds itself, but
for a single dot.  Dots at the end add an empty segment. -/
def walkStep {σ : Type} (pop : σ → σ) (add : σ → List Char → σ) (s : σ) (segment : List Char)
    (last : Bool) : σ :=
  if isDoubleDot segment then if last then add (pop s) [] else pop s
  else if isSingleDot segment then if last then add s [] else s
  else add s segment

/-- What segments do to a state, one after the other. -/
def walk {σ : Type} (pop : σ → σ) (add : σ → List Char → σ) : σ → List (List Char) → σ
  | s, [] => s
  | s, segment :: rest => walk pop add (walkStep pop add s segment rest.isEmpty) rest

/-- The segments of a path behind others. -/
def resolve (path : List (List Char)) (segments : List (List Char)) : List (List Char) :=
  walk List.dropLast (fun path segment => path ++ [segment]) path segments

/-- **The path of a text.** -/
def parsePath (input : List Char) : List (List Char) :=
  resolve [] (pieces (dropSlash (clean input)))

/-- The text of a path. -/
def serialize (path : List (List Char)) : List Char := path.flatMap fun segment => '/' :: segment

/-! ### Normal paths -/

/-- A segment that is read as itself. -/
structure IsNormal (segment : List Char) : Prop where
  kept : ∀ c ∈ segment, keeps c = true
  slash : '/' ∉ segment
  backslash : '\\' ∉ segment
  single : isSingleDot segment = false
  double : isDoubleDot segment = false

theorem isNormal_nil : IsNormal [] :=
  ⟨List.forall_mem_nil _, List.not_mem_nil, List.not_mem_nil, by decide, by decide⟩

theorem clean_append (s t : List Char) : clean (s ++ t) = clean s ++ clean t := by
  rw [clean, List.filter_append, List.map_append, clean, clean]

theorem clean_slash_cons (s : List Char) : clean ('/' :: s) = '/' :: clean s := rfl

theorem backslash_not_mem_clean (s : List Char) : '\\' ∉ clean s := by
  intro h
  obtain ⟨c, -, hc⟩ := List.mem_map.mp h
  split_ifs at hc with hback
  · cases hc
  · exact hback hc

theorem backslash_not_mem_dropSlash (s : List Char) : '\\' ∉ dropSlash (clean s) := by
  unfold dropSlash
  split_ifs
  · exact fun h => backslash_not_mem_clean s (List.mem_of_mem_tail h)
  · exact backslash_not_mem_clean s

variable {segment : List Char}

theorem IsNormal.clean_eq (h : IsNormal segment) :
    clean segment = segment := by
  have hfilter : (segment.filter fun c => !(c = '\t' || c = '\n' || c = '\r')) = segment := by
    refine List.filter_eq_self.mpr fun c hc => ?_
    have hkept := h.kept c hc
    rw [Bool.not_eq_true']
    rw [Bool.eq_false_iff]
    intro hblank
    simp only [Bool.or_eq_true, decide_eq_true_eq] at hblank
    rcases hblank with (rfl | rfl) | rfl <;> exact absurd hkept (by decide)
  rw [clean, hfilter]
  refine (List.map_congr_left fun c hc => if_neg ?_).trans (List.map_id _)
  rintro rfl
  exact h.backslash hc

theorem encode_of_kept (h : ∀ c ∈ segment, keeps c = true) :
    Percent.encode keeps segment = segment := by
  rw [Percent.encode]
  refine (List.flatMap_congr fun c hc => ?_).trans (List.flatMap_singleton' segment)
  rw [if_pos (h c hc)]

/-- Encoding leaves only characters that are kept. -/
theorem kept_of_mem_encode {s : List Char} {c : Char} (h : c ∈ Percent.encode keeps s) :
    keeps c = true := by
  rcases Percent.mem_encode h with ⟨-, hkept⟩ | rfl | ⟨n, hn, rfl⟩
  · exact hkept
  · decide
  · interval_cases n <;> decide

theorem not_mem_encode_of_not_mem {s : List Char} {c : Char} (h : c ∉ s)
    (hc : c = '/' ∨ c = '\\') : c ∉ Percent.encode keeps s := by
  intro hmem
  rcases Percent.mem_encode hmem with ⟨hs, -⟩ | rfl | ⟨n, hn, rfl⟩
  · exact h hs
  · exact absurd hc (by decide)
  · interval_cases n <;> exact absurd hc (by decide)

/-- The pieces of a text are normal but for dots. -/
theorem isNormal_of_mem_pieces {input : List Char} (hinput : '\\' ∉ input)
    (h : segment ∈ pieces input) (hsingle : isSingleDot segment = false)
    (hdouble : isDoubleDot segment = false) :
    IsNormal segment := by
  obtain ⟨piece, hpiece, rfl⟩ := List.mem_map.mp h
  refine ⟨fun c => kept_of_mem_encode, ?_, ?_, hsingle, hdouble⟩
  · exact not_mem_encode_of_not_mem (not_mem_of_mem_splitOn hpiece) (.inl rfl)
  · refine not_mem_encode_of_not_mem (fun hmem => ?_) (.inr rfl)
    exact hinput (mem_of_mem_splitOn hpiece hmem)

/-! ### Walks -/

section Walk

variable {σ τ : Type} {pop : σ → σ} {add : σ → List Char → σ} {pop' : τ → τ}
  {add' : τ → List Char → τ}

/-- **Simulation.** -/
theorem map_walk {f : σ → τ} (hpop : ∀ s, f (pop s) = pop' (f s))
    (hadd : ∀ s segment, f (add s segment) = add' (f s) segment) (s : σ)
    (segments : List (List Char)) :
    f (walk pop add s segments) = walk pop' add' (f s) segments := by
  induction segments generalizing s with
  | nil => rfl
  | cons segment rest ih =>
      have hstep : ∀ last, f (walkStep pop add s segment last) =
          walkStep pop' add' (f s) segment last := by
        intro last
        unfold walkStep
        split_ifs <;> simp only [hpop, hadd]
      rw [walk, walk, ih, hstep]

/-- **Invariants** of walks. -/
theorem walk_invariant {I : σ → Prop} {segments : List (List Char)}
    (hpop : ∀ s, I s → I (pop s)) (hempty : ∀ s, I s → I (add s []))
    (hadd : ∀ s, I s → ∀ segment ∈ segments, isSingleDot segment = false →
      isDoubleDot segment = false → I (add s segment)) {s : σ} (hs : I s) :
    I (walk pop add s segments) := by
  induction segments generalizing s with
  | nil => exact hs
  | cons segment rest ih =>
      refine ih (fun s hs segment hmem => hadd s hs segment (List.mem_cons_of_mem _ hmem)) ?_
      unfold walkStep
      split_ifs with hdouble hlast hsingle hlast
      · exact hempty _ (hpop s hs)
      · exact hpop s hs
      · exact hempty s hs
      · exact hs
      · exact hadd s hs segment List.mem_cons_self (Bool.eq_false_iff.mpr hsingle)
          (Bool.eq_false_iff.mpr hdouble)

/-- Segments without dots are added one after the other. -/
theorem walk_append {normal : List (List Char)} (h : ∀ segment ∈ normal, IsNormal segment) (s : σ)
    (segments : List (List Char)) :
    walk pop add s (normal ++ segments) = walk pop add (normal.foldl add s) segments := by
  induction normal generalizing s with
  | nil => rfl
  | cons segment normal ih =>
      rw [List.forall_mem_cons] at h
      have hstep : ∀ last, walkStep pop add s segment last = add s segment := by
        intro last
        rw [walkStep, h.1.single, h.1.double]
        rfl
      rw [List.cons_append, walk, hstep, ih h.2, List.foldl_cons]

end Walk

/-- **What is read is normal.** -/
theorem normal_parsePath (input : List Char) : ∀ segment ∈ parsePath input, IsNormal segment := by
  refine walk_invariant (I := fun path => ∀ segment ∈ path, IsNormal segment) ?_ ?_ ?_
    (List.forall_mem_nil _)
  · intro path hpath segment hmem
    exact hpath segment ((List.dropLast_sublist path).mem hmem)
  · intro path hpath segment hmem
    rcases List.mem_append.mp hmem with hmem | hmem
    · exact hpath segment hmem
    · rw [List.mem_singleton.mp hmem]
      exact isNormal_nil
  · intro path hpath piece hpiece hsingle hdouble segment hmem
    rcases List.mem_append.mp hmem with hmem | hmem
    · exact hpath segment hmem
    · rw [List.mem_singleton.mp hmem]
      exact isNormal_of_mem_pieces (backslash_not_mem_dropSlash input) hpiece hsingle hdouble

/-! ### Texts of paths -/

variable {path : List (List Char)}

theorem clean_serialize (h : ∀ segment ∈ path, IsNormal segment) :
    clean (serialize path) = serialize path := by
  induction path with
  | nil => rfl
  | cons segment path ih =>
      rw [List.forall_mem_cons] at h
      rw [serialize, List.flatMap_cons, ← serialize, List.cons_append, clean_slash_cons,
        clean_append, h.1.clean_eq, ih h.2]

theorem IsNormal.pieces_append_cons (h : IsNormal segment) (more : List Char) :
    pieces (segment ++ '/' :: more) = segment :: pieces more := by
  rw [pieces, splitOn_append_cons, List.splitOn_eq_singleton h.slash, List.map_append,
    List.map_singleton, encode_of_kept h.kept, pieces, List.singleton_append]

/-- The pieces of a text behind the text of a path. -/
theorem pieces_serialize_append (h : ∀ segment ∈ path, IsNormal segment) (more : List Char) :
    pieces (dropSlash (serialize path ++ '/' :: more)) = path ++ pieces more := by
  induction path with
  | nil => rfl
  | cons segment path ih =>
      rw [List.forall_mem_cons] at h
      rw [serialize, List.flatMap_cons, ← serialize, List.cons_append, List.cons_append]
      -- what is behind the segment begins with a slash again
      obtain ⟨rest, hrest⟩ : ∃ rest, serialize path ++ '/' :: more = '/' :: rest := by
        cases path with
        | nil => exact ⟨more, rfl⟩
        | cons next path => exact ⟨_, rfl⟩
      rw [List.append_assoc, hrest]
      have hpieces := ih h.2
      rw [hrest] at hpieces
      exact (h.1.pieces_append_cons rest).trans (congrArg (segment :: ·) hpieces)

theorem foldl_concat (path : List (List Char)) : ∀ init : List (List Char),
    path.foldl (fun path segment => path ++ [segment]) init = init ++ path := by
  induction path with
  | nil => exact fun init => (List.append_nil init).symm
  | cons segment path ih =>
      intro init
      rw [List.foldl_cons, ih, List.append_assoc, List.singleton_append]

/-- **Behind the text of a path**, a text is resolved against the path. -/
theorem parsePath_append (h : ∀ segment ∈ path, IsNormal segment) (more : List Char) :
    parsePath (serialize path ++ '/' :: more) = resolve path (pieces (clean more)) := by
  rw [parsePath, clean_append, clean_slash_cons, clean_serialize h, pieces_serialize_append h,
    resolve, walk_append h, foldl_concat, List.nil_append, resolve]

/-- Slashes at the end of the text are empty segments at the end of the path. -/
theorem trimEndMatches_serialize (h : ∀ segment ∈ path, IsNormal segment) :
    trimEndMatches '/' (serialize path) = serialize (path.rdropWhile (· = [])) := by
  induction path using List.reverseRecOn with
  | nil => rfl
  | append_singleton path segment ih =>
      have hpath := ih fun other hother => h other (List.mem_append_left _ hother)
      have hserialize : serialize (path ++ [segment]) = serialize path ++ '/' :: segment := by
        rw [serialize, List.flatMap_append, ← serialize, List.flatMap_singleton]
      rw [hserialize]
      by_cases hsegment : segment = []
      · subst hsegment
        rw [List.rdropWhile_concat_pos _ _ _ (by decide), ← hpath]
        exact List.rdropWhile_concat_pos _ _ _ (by decide)
      · rw [List.rdropWhile_concat_neg (· = []) path segment (by simpa using hsegment), hserialize]
        obtain ⟨init, last, rfl⟩ := List.eq_nil_or_concat' segment |>.resolve_left hsegment
        have hlast : ¬decide (last = '/') = true := by
          have hslash := (h _ (List.mem_append_right _ (List.mem_singleton_self _))).slash
          rw [decide_eq_true_eq]
          rintro rfl
          exact hslash (List.mem_append_right _ (List.mem_singleton_self _))
        rw [← List.cons_append, ← List.append_assoc]
        exact List.rdropWhile_concat_neg _ _ _ hlast

/-! ### What a text does to a path -/

/-- How many segments are taken away from the path a text is read behind, and those that are put
there. -/
structure Climb where
  up : Nat
  tail : List (List Char)
deriving DecidableEq

namespace Climb

/-- A segment is taken away. -/
def pop (climb : Climb) : Climb :=
  if climb.tail = [] then ⟨climb.up + 1, []⟩ else ⟨climb.up, climb.tail.dropLast⟩

/-- A segment is added. -/
def add (climb : Climb) (segment : List Char) : Climb := ⟨climb.up, climb.tail ++ [segment]⟩

/-- What segments do, behind any path. -/
def of (segments : List (List Char)) : Climb := walk pop add ⟨0, []⟩ segments

/-- The path after it. -/
def apply (climb : Climb) (path : List (List Char)) : List (List Char) :=
  path.take (path.length - climb.up) ++ climb.tail

theorem apply_pop (climb : Climb) (path : List (List Char)) :
    climb.pop.apply path = (climb.apply path).dropLast := by
  unfold pop
  split_ifs with htail
  · have hcount : path.length - (climb.up + 1) =
        min (min (path.length - climb.up) path.length - 1) (path.length - climb.up) := by
      omega
    rw [apply, apply, htail, List.append_nil, List.append_nil, List.dropLast_eq_take,
      List.take_take, List.length_take, ← hcount]
  · rw [apply, apply, List.dropLast_append_of_ne_nil htail]

theorem apply_add (climb : Climb) (segment : List Char) (path : List (List Char)) :
    (climb.add segment).apply path = climb.apply path ++ [segment] := by
  rw [apply, add, apply, List.append_assoc]

/-- **The climb of a text** says what it is resolved to, behind any path. -/
theorem resolve_eq (path segments : List (List Char)) :
    resolve path segments = (of segments).apply path := by
  have hwalk : (of segments).apply path =
      walk List.dropLast (fun path segment => path ++ [segment])
        ((⟨0, []⟩ : Climb).apply path) segments :=
    map_walk (f := fun climb : Climb => climb.apply path) (fun climb => climb.apply_pop path)
      (fun climb segment => climb.apply_add segment path) _ segments
  have hstart : (⟨0, []⟩ : Climb).apply path = path := by
    rw [apply, Nat.sub_zero, List.take_length, List.append_nil]
  rw [hwalk, hstart, resolve]

/-- **A path is still in front** exactly if what was taken away of it was put back. -/
theorem start_apply_iff (climb : Climb) (path : List (List Char)) :
    path <+: climb.apply path ↔ path.drop (path.length - climb.up) <+: climb.tail := by
  have hsplit := List.take_append_drop (path.length - climb.up) path
  rw [apply]
  nth_rewrite 1 [← hsplit]
  exact List.prefix_append_right_inj _

end Climb

end UrlPath
