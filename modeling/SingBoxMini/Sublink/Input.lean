import SingBoxMini.Sublink.Nodes

/-!
# Sublink — Input

How a subscription is read: URIs line by line, or Base64 of such lines.  A line without `://` is
read as a subscription of its own, so the two can be mixed; the depth of this is limited.

`parse_input_recursive` appends to the nodes read so far.  `Reads` says what a text is read as, by
itself; `parseInput_ok_iff` that it is what `parse_input` returns, as long as there are not too many
nodes.

* `reads_decoded`: text that was in Base64 has no line that is in Base64 again.
* `readsLine_of_parseInput`: a subscription of one line is read as that line.
-/

namespace SingBoxMini.Sublink
open Bytes Text

/-! ### Parsing -/

/-- `decoded_subscription` -/
def decodedSubscription (input : List Char) : Option (List Char) :=
  if contains "://".toList input then none
  else ((decodeBase64 input).bind ofUtf8).filter (contains "://".toList)

/-- A line that is passed over: blank, or a comment. -/
def Skipped (line : List Char) : Prop := line = [] ∨ line.head? = some '#'

instance (line : List Char) : Decidable (Skipped line) := inferInstanceAs (Decidable (_ ∨ _))

/-- A subscription elsewhere. -/
def Remote (line : List Char) : Prop :=
  "http://".toList.isPrefixOf line = true ∨ "https://".toList.isPrefixOf line = true

instance (line : List Char) : Decidable (Remote line) := inferInstanceAs (Decidable (_ ∨ _))

/-- One line of `parse_input_recursive`, with the call for a line that is no URI. -/
def parseLine (codec : Codec)
    (recurse : List Char → List Node → Except AnyhowError (List Node)) (nodes : List Node)
    (line : List Char) : Except AnyhowError (List Node) :=
  if Skipped line then .ok nodes
  else if Remote line then .error ["remote HTTP(S) subscriptions are not supported"]
  else if ¬ contains "://".toList line then recurse line nodes
  else do
    ensure (nodes.length < maxNodes) "too many proxy nodes"
    return nodes ++ [← parseNode codec line]

/-- `parse_input_recursive`, by the levels that are left: `MAX_NESTING + 1 - depth`. -/
def parseInputRecursive (codec : Codec) :
    Nat → List Char → List Node → Except AnyhowError (List Node)
  | 0, _, _ => .error ["input nesting is too deep"]
  | levels + 1, input, nodes => do
    ensure ((utf8 input).length ≤ maxInputBytes) "config input is too large"
    match decodedSubscription input with
    | some decoded => parseInputRecursive codec levels decoded nodes
    | none =>
      ((lines input).map trim).foldlM (parseLine codec (parseInputRecursive codec levels)) nodes

/-- The start of a configuration in another format. -/
def OtherFormat (input : List Char) : Prop :=
  input.head? = some '\x7b' ∨ "proxies:".toList.isPrefixOf (toAsciiLowercase input) = true ∨
    "[proxy]".toList.isPrefixOf (toAsciiLowercase input) = true

instance (input : List Char) : Decidable (OtherFormat input) :=
  inferInstanceAs (Decidable (_ ∨ _))

/-- `parse_input` -/
def parseInput (codec : Codec) (input : List Char) : Except AnyhowError (List Node) := do
  ensure (trim input ≠ []) "no supported proxy nodes found"
  ensure (¬ OtherFormat (trim input)) "only proxy URIs and Base64 subscriptions are supported"
  let nodes ← parseInputRecursive codec (maxNesting + 1) (trim input) []
  ensure (nodes ≠ []) "no supported proxy nodes found"
  return nodes

/-! ### What is read -/

variable {codec : Codec} {nested nested' : List Char → List Node → Prop} {line : List Char}
  {ls : List (List Char)} {ns : List Node} {levels : Nat}

variable (codec nested) in
/-- The nodes of a line, where `nested` says what a line that is no URI is read as. -/
inductive ReadsLine : List Char → List Node → Prop where
  | skipped {line : List Char} (h : Skipped line) : ReadsLine line []
  | uri {line : List Char} {node : Node} (h : ¬ Skipped line) (hremote : ¬ Remote line)
      (huri : contains "://".toList line = true) (hnode : parseNode codec line = .ok node) :
      ReadsLine line [node]
  | nested {line : List Char} {ns : List Node} (h : ¬ Skipped line) (hremote : ¬ Remote line)
      (huri : contains "://".toList line = false) (hnested : nested line ns) : ReadsLine line ns

variable (codec nested) in
/-- The nodes of lines. -/
inductive ReadsLines : List (List Char) → List Node → Prop where
  | nil : ReadsLines [] []
  | cons {line : List Char} {ls : List (List Char)} {ns ns' : List Node}
      (h : ReadsLine codec nested line ns) (t : ReadsLines ls ns') :
      ReadsLines (line :: ls) (ns ++ ns')

variable (codec) in
/-- **What a text is read as**, with so many levels left. -/
def Reads : Nat → List Char → List Node → Prop
  | 0, _, _ => False
  | levels + 1, input, ns => (utf8 input).length ≤ maxInputBytes ∧
    match decodedSubscription input with
    | some decoded => Reads levels decoded ns
    | none => ReadsLines codec (Reads levels) ((lines input).map trim) ns

/-- A computation appends nodes to those before, within the limit. -/
def Appends (f : List Node → Except AnyhowError (List Node)) (P : List Node → Prop) : Prop :=
  ∀ nodes nodes', nodes.length ≤ maxNodes →
    (f nodes = .ok nodes' ↔ ∃ ns, P ns ∧ nodes' = nodes ++ ns ∧ nodes'.length ≤ maxNodes)

theorem parseLine_appends {recurse : List Char → List Node → Except AnyhowError (List Node)}
    (h : ∀ line, Appends (recurse line) (nested line)) (line : List Char) :
    Appends (parseLine codec recurse · line) (ReadsLine codec nested line) := by
  intro nodes nodes' hlimit
  simp only [parseLine]
  split_ifs with hskipped hremote huri
  · constructor
    · intro hok
      cases hok
      exact ⟨[], .skipped hskipped, (List.append_nil _).symm, hlimit⟩
    · rintro ⟨ns, hns, rfl, -⟩
      cases hns with
      | skipped => rw [List.append_nil]
      | uri hnot => exact absurd hskipped hnot
      | nested hnot => exact absurd hskipped hnot
  · refine iff_of_false (by simp) ?_
    rintro ⟨ns, hns, -⟩
    cases hns with
    | skipped hskipped' => exact hskipped hskipped'
    | uri _ hnot => exact hnot hremote
    | nested _ hnot => exact hnot hremote
  · rw [bind_ok_iff]
    constructor
    · rintro ⟨_, hcount, hok⟩
      obtain ⟨node, hnode, heq⟩ := bind_ok_iff.mp hok
      cases heq
      refine ⟨[node], .uri hskipped hremote huri hnode, rfl, ?_⟩
      rw [List.length_append, List.length_singleton]
      exact ensure_ok_iff.mp hcount
    · rintro ⟨ns, hns, rfl, hcount⟩
      cases hns with
      | skipped hskipped' => exact absurd hskipped' hskipped
      | nested _ _ hno => rw [huri] at hno; cases hno
      | uri _ _ _ hnode =>
          rw [List.length_append, List.length_singleton] at hcount
          exact ⟨(), ensure_ok_iff.mpr hcount, bind_ok_iff.mpr ⟨_, hnode, rfl⟩⟩
  · rw [h line nodes nodes' hlimit]
    have huri : contains "://".toList line = false := by simpa using huri
    constructor
    · rintro ⟨ns, hns, heq⟩
      exact ⟨ns, .nested hskipped hremote huri hns, heq⟩
    · rintro ⟨ns, hns, heq⟩
      cases hns with
      | skipped hskipped' => exact absurd hskipped' hskipped
      | uri _ _ hyes => rw [huri] at hyes; cases hyes
      | nested _ _ _ hns => exact ⟨ns, hns, heq⟩

theorem parseLines_appends {recurse : List Char → List Node → Except AnyhowError (List Node)}
    (h : ∀ line, Appends (recurse line) (nested line)) (ls : List (List Char)) :
    Appends (ls.foldlM (parseLine codec recurse)) (ReadsLines codec nested ls) := by
  induction ls with
  | nil =>
      intro nodes nodes' hlimit
      constructor
      · intro hok
        cases hok
        exact ⟨[], .nil, (List.append_nil _).symm, hlimit⟩
      · rintro ⟨ns, hns, rfl, -⟩
        cases hns
        rw [List.append_nil]
        rfl
  | cons line ls ih =>
      intro nodes nodes' hlimit
      simp only [List.foldlM_cons, bind_ok_iff]
      constructor
      · rintro ⟨nodes₁, hline, hrest⟩
        obtain ⟨ns, hns, rfl, hlimit₁⟩ := (parseLine_appends h line _ _ hlimit).mp hline
        obtain ⟨ns', hns', rfl, hlimit'⟩ := (ih _ _ hlimit₁).mp hrest
        exact ⟨ns ++ ns', .cons hns hns', List.append_assoc _ _ _, hlimit'⟩
      · rintro ⟨_, hns, rfl, hlimit'⟩
        cases hns with
        | @cons _ _ ns ns' hline hrest =>
            have hlimit₁ : (nodes ++ ns).length ≤ maxNodes := by
              simp only [List.length_append] at hlimit' ⊢
              omega
            refine ⟨nodes ++ ns, ?_, ?_⟩
            · exact (parseLine_appends h line _ _ hlimit).mpr ⟨ns, hline, rfl, hlimit₁⟩
            · exact (ih _ _ hlimit₁).mpr ⟨ns', hrest, (List.append_assoc _ _ _).symm, hlimit'⟩

theorem parseInputRecursive_appends (levels : Nat) (input : List Char) :
    Appends (parseInputRecursive codec levels input) (Reads codec levels input) := by
  induction levels generalizing input with
  | zero =>
      intro nodes nodes' _
      simp [parseInputRecursive, Reads]
  | succ levels ih =>
      intro nodes nodes' hlimit
      rw [parseInputRecursive, bind_ok_iff]
      simp only [Reads]
      cases decodedSubscription input with
      | some decoded =>
          simp only [ih decoded nodes nodes' hlimit]
          constructor
          · rintro ⟨_, hsize, ns, hns, heq⟩
            exact ⟨ns, ⟨ensure_ok_iff.mp hsize, hns⟩, heq⟩
          · rintro ⟨ns, ⟨hsize, hns⟩, heq⟩
            exact ⟨(), ensure_ok_iff.mpr hsize, ns, hns, heq⟩
      | none =>
          simp only [parseLines_appends ih _ nodes nodes' hlimit]
          constructor
          · rintro ⟨_, hsize, ns, hns, heq⟩
            exact ⟨ns, ⟨ensure_ok_iff.mp hsize, hns⟩, heq⟩
          · rintro ⟨ns, ⟨hsize, hns⟩, heq⟩
            exact ⟨(), ensure_ok_iff.mpr hsize, ns, hns, heq⟩

variable {input : List Char}

/-- **What `parse_input` accepts**, and what it returns. -/
theorem parseInput_ok_iff :
    parseInput codec input = .ok ns ↔
      trim input ≠ [] ∧ ¬ OtherFormat (trim input) ∧ Reads codec (maxNesting + 1) (trim input) ns ∧
        ns ≠ [] ∧ ns.length ≤ maxNodes := by
  simp only [parseInput, bind_ok_iff,
    parseInputRecursive_appends (maxNesting + 1) (trim input) [] _ (Nat.zero_le _)]
  constructor
  · rintro ⟨_, hblank, _, hformat, _, ⟨ns', hreads, rfl, hcount⟩, _, hne, heq⟩
    cases heq
    exact ⟨ensure_ok_iff.mp hblank, ensure_ok_iff.mp hformat, hreads, ensure_ok_iff.mp hne, hcount⟩
  · rintro ⟨hblank, hformat, hreads, hne, hcount⟩
    exact ⟨(), ensure_ok_iff.mpr hblank, (), ensure_ok_iff.mpr hformat, ns,
      ⟨ns, hreads, rfl, hcount⟩, (), ensure_ok_iff.mpr hne, rfl⟩

/-! ### Lines -/

theorem readsLines_append_iff {ls' : List (List Char)} :
    ReadsLines codec nested (ls ++ ls') ns ↔
      ∃ ns₁ ns₂, ReadsLines codec nested ls ns₁ ∧ ReadsLines codec nested ls' ns₂ ∧
        ns = ns₁ ++ ns₂ := by
  induction ls generalizing ns with
  | nil =>
      constructor
      · intro h
        exact ⟨[], ns, .nil, h, rfl⟩
      · rintro ⟨ns₁, ns₂, h₁, h₂, rfl⟩
        cases h₁
        exact h₂
  | cons line ls ih =>
      constructor
      · intro h
        cases h with
        | cons hline hrest =>
            obtain ⟨ns₁, ns₂, h₁, h₂, rfl⟩ := ih.mp hrest
            exact ⟨_, ns₂, .cons hline h₁, h₂, (List.append_assoc _ _ _).symm⟩
      · rintro ⟨_, ns₂, h₁, h₂, rfl⟩
        cases h₁ with
        | cons hline hrest =>
            rw [List.append_assoc]
            exact .cons hline (ih.mpr ⟨_, ns₂, hrest, h₂, rfl⟩)

theorem readsLines_singleton_iff :
    ReadsLines codec nested [line] ns ↔ ReadsLine codec nested line ns := by
  constructor
  · intro h
    cases h with
    | cons hline hrest =>
        cases hrest
        rwa [List.append_nil]
  · intro h
    have hcons := ReadsLines.cons h .nil
    rwa [List.append_nil] at hcons

/-- Empty lines are passed over. -/
theorem readsLines_filter_iff :
    ReadsLines codec nested (ls.filter (· ≠ [])) ns ↔ ReadsLines codec nested ls ns := by
  induction ls generalizing ns with
  | nil => rfl
  | cons line ls ih =>
      by_cases hline : line = []
      · rw [List.filter_cons_of_neg (by simpa using hline), ih]
        constructor
        · intro h
          exact .cons (.skipped (.inl hline)) h
        · intro h
          cases h with
          | cons hnil hrest =>
              cases hnil with
              | skipped => exact hrest
              | uri hnot => exact absurd (.inl hline) hnot
              | nested hnot => exact absurd (.inl hline) hnot
      · rw [List.filter_cons_of_pos (by simpa using hline)]
        constructor
        · intro h
          cases h with
          | cons hline hrest => exact .cons hline (ih.mp hrest)
        · intro h
          cases h with
          | cons hline hrest => exact .cons hline (ih.mpr hrest)

/-- Only what lines that are no URIs are read as makes a difference. -/
theorem ReadsLines.mono (h : ReadsLines codec nested ls ns)
    (hnested : ∀ line ∈ ls, ∀ ns, ¬ Skipped line → contains "://".toList line = false →
      nested line ns → nested' line ns) : ReadsLines codec nested' ls ns := by
  induction h with
  | nil => exact .nil
  | @cons line ls ns ns' hline _ ih =>
      rw [List.forall_mem_cons] at hnested
      refine .cons ?_ (ih hnested.2)
      cases hline with
      | skipped hskipped => exact .skipped hskipped
      | uri hnot hremote huri hnode => exact .uri hnot hremote huri hnode
      | nested hnot hremote huri hns => exact .nested hnot hremote huri (hnested.1 _ hnot huri hns)

/-- **Every node is read from its URI.** -/
theorem ReadsLines.reads_original (h : ReadsLines codec nested ls ns)
    (hnested : ∀ line ns, nested line ns → ∀ node ∈ ns, parseNode codec node.original = .ok node) :
    ∀ node ∈ ns, parseNode codec node.original = .ok node := by
  induction h with
  | nil => simp
  | cons hline _ ih =>
      rw [List.forall_mem_append]
      refine ⟨?_, ih⟩
      cases hline with
      | skipped => simp
      | uri _ _ _ hnode =>
          rw [List.forall_mem_singleton, parseNode_original hnode]
          exact hnode
      | nested _ _ _ hns => exact hnested _ _ hns

theorem Reads.reads_original (h : Reads codec levels input ns) :
    ∀ node ∈ ns, parseNode codec node.original = .ok node := by
  induction levels generalizing input ns with
  | zero => exact h.elim
  | succ levels ih =>
      obtain ⟨-, h⟩ := h
      split at h
      · exact ih h
      · exact h.reads_original fun _ _ hns => ih hns

/-- A node of a line of URIs is of that line. -/
theorem ReadsLine.original (h : ReadsLine codec (fun _ _ => False) line ns) :
    ∀ node ∈ ns, node.original = line := by
  cases h with
  | skipped => simp
  | uri _ _ _ hnode => simpa using parseNode_original hnode
  | nested _ _ _ hfalse => exact hfalse.elim

/-- Lines of URIs are read in one way. -/
theorem ReadsLine.unique {ns' : List Node} (h : ReadsLine codec (fun _ _ => False) line ns)
    (h' : ReadsLine codec (fun _ _ => False) line ns') : ns = ns' := by
  cases h with
  | skipped hskipped =>
      cases h' with
      | skipped => rfl
      | uri hnot => exact absurd hskipped hnot
      | nested _ _ _ hfalse => exact hfalse.elim
  | uri hnot _ _ hnode =>
      cases h' with
      | skipped hskipped => exact absurd hskipped hnot
      | uri _ _ _ hnode' => rw [Except.ok.inj (hnode.symm.trans hnode')]
      | nested _ _ _ hfalse => exact hfalse.elim
  | nested _ _ _ hfalse => exact hfalse.elim

theorem ReadsLines.unique {ns' : List Node} (h : ReadsLines codec (fun _ _ => False) ls ns)
    (h' : ReadsLines codec (fun _ _ => False) ls ns') : ns = ns' := by
  induction h generalizing ns' with
  | nil =>
      cases h'
      rfl
  | cons hline _ ih =>
      cases h' with
      | cons hline' hrest' => rw [hline.unique hline', ih hrest']

/-- The nodes of the lines of a text, wherever it is cut into lines. -/
theorem readsLines_lines_iff :
    ReadsLines codec nested ((lines input).map trim) ns ↔
      ReadsLines codec nested ((input.splitOn '\n').map trim) ns := by
  rw [← readsLines_filter_iff, filter_map_trim_lines, readsLines_filter_iff]

/-! ### Depth -/

/-- **A line that is no URI is too deep** on the last level. -/
theorem not_reads_line (hlevels : levels ≤ 1) (htrim : trim line = line) (hline : '\n' ∉ line)
    (hskipped : ¬ Skipped line) (huri : contains "://".toList line = false) :
    ¬ Reads codec levels line ns := by
  intro h
  obtain rfl | rfl : levels = 0 ∨ levels = 1 := by omega
  · exact h
  · obtain ⟨-, h⟩ := h
    split at h
    · exact h
    · have hne : trim line ≠ [] := by
        rw [htrim]
        exact fun hnil => hskipped (.inl hnil)
      rw [← readsLines_filter_iff, filter_map_trim_lines_of_single hline hne, htrim,
        readsLines_singleton_iff] at h
      cases h with
      | skipped hyes => exact hskipped hyes
      | uri _ _ hyes =>
          rw [huri] at hyes
          cases hyes
      | nested _ _ _ hfalse => exact hfalse

/-- **A text of URIs**: on the last two levels it has no line that is in Base64. -/
theorem reads_decoded {decoded : List Char} (hlevels : levels ≤ 1)
    (huri : contains "://".toList decoded = true) :
    Reads codec (levels + 1) decoded ns ↔ (utf8 decoded).length ≤ maxInputBytes ∧
      ReadsLines codec (fun _ _ => False) ((decoded.splitOn '\n').map trim) ns := by
  have hnone : decodedSubscription decoded = none := by rw [decodedSubscription, if_pos huri]
  simp only [Reads, hnone, readsLines_lines_iff]
  refine and_congr_right fun _ => ⟨fun h => h.mono ?_, fun h => h.mono (by simp)⟩
  intro line hline ns hskipped hno hreads
  obtain ⟨part, hpart, rfl⟩ := List.mem_map.mp hline
  exact not_reads_line hlevels (trim_trim part)
    (fun hmem => not_mem_of_mem_splitOn hpart (mem_trim hmem)) hskipped hno hreads

/-- A subscription elsewhere is named by a URL. -/
theorem not_remote (huri : contains "://".toList line = false) : ¬ Remote line := by
  have hcontains : ∀ start : List Char, "://".toList <:+: start → start.isPrefixOf line = true →
      contains "://".toList line = true := fun start hstart hline =>
    contains_iff.mpr (hstart.trans (List.isPrefixOf_iff_prefix.mp hline).isInfix)
  rintro (hremote | hremote)
  · rw [hcontains _ ⟨"http".toList, [], by decide⟩ hremote] at huri
    cases huri
  · rw [hcontains _ ⟨"https".toList, [], by decide⟩ hremote] at huri
    cases huri

theorem contains_of_decodedSubscription {decoded : List Char}
    (h : decodedSubscription input = some decoded) : contains "://".toList decoded = true := by
  rw [decodedSubscription] at h
  split_ifs at h
  exact (Option.filter_eq_some_iff.mp h).2

end SingBoxMini.Sublink
