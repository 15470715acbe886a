import SingBoxMini.Sublink.Convert
import SingBoxMini.Sublink.Rewrite

/-!
# Sublink — Universal

The universal subscription, which `convert` gives for `xray`: the URIs of the nodes as they were
read, in Base64.  It is read as the same nodes again.

* `Reads.originalLine`: the URI of a node is a line of its own, wherever it was found.
* `universal_round_trip`: the nodes come back, and so does the body.
-/

namespace SingBoxMini.Sublink
open Bytes Text Base64

/-! ### The URI of a node -/

/-- A line that is read as one URI. -/
structure OriginalLine (line : List Char) : Prop where
  trimmed : trim line = line
  single : '\n' ∉ line
  uri : contains "://".toList line = true
  not_skipped : ¬ Skipped line
  not_remote : ¬ Remote line

variable {codec : Codec} {nested : List Char → List Node → Prop} {ls : List (List Char)}
  {ns nodes : List Node} {levels : Nat} {input : List Char}

theorem ReadsLines.originalLine (h : ReadsLines codec nested ls ns)
    (hls : ∀ line ∈ ls, trim line = line ∧ '\n' ∉ line)
    (hnested : ∀ line ns, nested line ns → ∀ node ∈ ns, OriginalLine node.original) :
    ∀ node ∈ ns, OriginalLine node.original := by
  induction h with
  | nil => simp
  | cons hline _ ih =>
      rw [List.forall_mem_cons] at hls
      rw [List.forall_mem_append]
      refine ⟨?_, ih hls.2⟩
      cases hline with
      | skipped => simp
      | uri hnot hremote huri hnode =>
          rw [List.forall_mem_singleton, parseNode_original hnode]
          exact ⟨hls.1.1, hls.1.2, huri, hnot, hremote⟩
      | nested _ _ _ hns => exact hnested _ _ hns

/-- **The URI of a node is a line of its own**, wherever it was found. -/
theorem Reads.originalLine (h : Reads codec levels input ns) :
    ∀ node ∈ ns, OriginalLine node.original := by
  induction levels generalizing input ns with
  | zero => exact h.elim
  | succ levels ih =>
      obtain ⟨-, h⟩ := h
      split at h
      · exact ih h
      · refine h.originalLine (fun line hline => ?_) fun _ _ hns => ih hns
        obtain ⟨part, hpart, rfl⟩ := List.mem_map.mp hline
        exact ⟨trim_trim part, fun hmem => newline_not_mem_line hpart (mem_trim hmem)⟩

/-- Nodes that are read from their URIs, line by line. -/
theorem readsLines_originals
    (h : ∀ node ∈ nodes, parseNode codec node.original = .ok node ∧ OriginalLine node.original) :
    ReadsLines codec nested (nodes.map (·.original)) nodes := by
  induction nodes with
  | nil => exact .nil
  | cons node nodes ih =>
      rw [List.forall_mem_cons] at h
      obtain ⟨⟨hnode, hline⟩, hrest⟩ := h
      exact .cons (.uri hline.not_skipped hline.not_remote hline.uri hnode) (ih hrest)

theorem contains_intercalate {line pattern : List Char} {rest : List (List Char)}
    (h : contains pattern line = true) :
    contains pattern (['\n'].intercalate (line :: rest)) = true := by
  refine contains_iff.mpr ((contains_iff.mp h).trans ?_)
  cases rest with
  | nil =>
      exact ⟨[], [], (List.append_nil _).trans List.intercalate_singleton.symm⟩
  | cons second rest =>
      rw [List.intercalate_cons_cons, List.append_assoc]
      exact (List.prefix_append _ _).isInfix

/-- **The URIs of nodes are read as these nodes.** -/
theorem reads_originals (hne : nodes ≠ [])
    (h : ∀ node ∈ nodes, parseNode codec node.original = .ok node ∧ OriginalLine node.original)
    (hsize : (utf8 (['\n'].intercalate (nodes.map (·.original)))).length ≤ maxInputBytes) :
    contains "://".toList (['\n'].intercalate (nodes.map (·.original))) = true ∧
      Reads codec maxNesting (['\n'].intercalate (nodes.map (·.original))) nodes := by
  have huri : contains "://".toList (['\n'].intercalate (nodes.map (·.original))) = true := by
    obtain ⟨node, rest, rfl⟩ := List.exists_cons_of_ne_nil hne
    rw [List.map_cons]
    exact contains_intercalate (h node List.mem_cons_self).2.uri
  refine ⟨huri, ?_⟩
  have hlines : ∀ line ∈ nodes.map (·.original), OriginalLine line := by
    intro line hline
    obtain ⟨node, hnode, rfl⟩ := List.mem_map.mp hline
    exact (h node hnode).2
  have hsplit : ((['\n'].intercalate (nodes.map (·.original))).splitOn '\n').map trim =
      nodes.map (·.original) := by
    rw [List.splitOn_intercalate _ (fun line hline => (hlines line hline).single)
      (by simpa using hne)]
    exact (List.map_congr_left fun line hline => (hlines line hline).trimmed).trans (List.map_id _)
  show Reads codec (1 + 1) _ nodes
  rw [reads_decoded le_rfl huri, hsplit]
  exact ⟨hsize, readsLines_originals h⟩

/-! ### Base64 of it -/

/-- What a text in Base64 is not taken for. -/
def bodyChar (c : Char) : Bool :=
  !isWhitespace c && c.toLower != ':' && c.toLower != '[' && c != '\x7b' && c != ':'

theorem bodyChar_of_mem {e : Engine} {bytes : List UInt8} {c : Char} (h : c ∈ e.encode bytes) :
    bodyChar c = true :=
  Engine.of_mem_encode (by decide) (by decide) h

theorem trim_encode (e : Engine) (bytes : List UInt8) : trim (e.encode bytes) = e.encode bytes := by
  refine trim_of_visible fun c hc => ?_
  have hchar := bodyChar_of_mem hc
  simp only [bodyChar, Bool.and_eq_true, Bool.not_eq_true'] at hchar
  exact hchar.1.1.1.1

/-- It has no colon, -/
theorem contains_encode (e : Engine) (bytes : List UInt8) :
    contains "://".toList (e.encode bytes) = false := by
  rw [Bool.eq_false_iff, Ne, contains_iff]
  intro hsep
  have hchar := bodyChar_of_mem (hsep.subset (show ':' ∈ "://".toList by decide))
  exact absurd hchar (by decide)

/-- and starts no other format. -/
theorem not_otherFormat_encode (e : Engine) (bytes : List UInt8) :
    ¬ OtherFormat (e.encode bytes) := by
  have hlower : ∀ {start : List Char} {c : Char},
      start.isPrefixOf (toAsciiLowercase (e.encode bytes)) = true → c ∈ start →
        ∃ d ∈ e.encode bytes, d.toLower = c := fun hstart hc =>
    List.mem_map.mp ((List.isPrefixOf_iff_prefix.mp hstart).subset hc)
  rintro (hbrace | hproxies | hproxy)
  · have hchar := bodyChar_of_mem (List.mem_of_mem_head? hbrace)
    exact absurd hchar (by decide)
  · obtain ⟨d, hd, hcolon⟩ := hlower (c := ':') hproxies (by decide)
    have hchar := bodyChar_of_mem hd
    simp [bodyChar, hcolon] at hchar
  · obtain ⟨d, hd, hbracket⟩ := hlower (c := '[') hproxy (by decide)
    have hchar := bodyChar_of_mem hd
    simp [bodyChar, hbracket] at hchar

/-- **What is encoded is found again.** -/
theorem decodedSubscription_encode {text : List Char} (huri : contains "://".toList text = true) :
    decodedSubscription (Engine.encode ⟨false, true⟩ (utf8 text)) = some text := by
  have hvisible : (Engine.encode ⟨false, true⟩ (utf8 text)).filter (!isWhitespace ·) =
      Engine.encode ⟨false, true⟩ (utf8 text) := by
    rw [← filter_trim, trim_encode, List.filter_eq_self]
    intro c hc
    have hchar := bodyChar_of_mem hc
    simp only [bodyChar, Bool.and_eq_true] at hchar
    exact hchar.1.1.1.1
  have hdecode : decodeBase64 (Engine.encode ⟨false, true⟩ (utf8 text)) = some (utf8 text) := by
    rw [decodeBase64, hvisible, engines, List.findSome?_cons, Engine.decode_encode]
  rw [decodedSubscription, contains_encode, if_neg (by decide), hdecode, Option.bind_some,
    ofUtf8_utf8, Option.filter_some, if_pos huri]

/-! ### The round trip -/

/-- The nodes a universal subscription has. -/
def universalNodes (nodes : List Node) : List Node := nodes.filter (·.kind ≠ .ssh)

/-- **What `convert` gives for `xray`.** -/
theorem convert_xray {libraries : Libraries}
    (hinput : parseInput libraries.codec input = .ok nodes) (hne : universalNodes nodes ≠ []) :
    ∃ output, convert libraries .xray input = .ok output ∧
      output.body = .text (universalBody (universalNodes nodes)) := by
  have hprepare : prepare libraries .xray input none none none =
      .ok ⟨nodes, universalNodes nodes, none, ⟨[], []⟩⟩ := by
    rw [prepare, bind_of_ok hinput]
    exact bind_of_ok (ensure_ok_iff.mpr hne) _
  refine ⟨_, bind_of_ok hprepare _, rfl⟩

/-- **The body is read as the nodes** that are not for SSH. -/
theorem parseInput_universalBody (hinput : parseInput codec input = .ok nodes)
    (hne : universalNodes nodes ≠ [])
    (hsize : (utf8 (universalBody (universalNodes nodes))).length ≤ maxInputBytes) :
    parseInput codec (universalBody (universalNodes nodes)) = .ok (universalNodes nodes) := by
  obtain ⟨-, -, hreads, -, hcount⟩ := parseInput_ok_iff.mp hinput
  have hnodes : ∀ node ∈ universalNodes nodes,
      parseNode codec node.original = .ok node ∧ OriginalLine node.original := fun node hnode =>
    ⟨hreads.reads_original node (List.mem_of_mem_filter hnode),
      hreads.originalLine node (List.mem_of_mem_filter hnode)⟩
  -- the text is shorter than its Base64
  have hdecode := Engine.decode_encode (e := ⟨false, true⟩)
    (utf8 (['\n'].intercalate ((universalNodes nodes).map (·.original))))
  have htext := (Engine.length_le_of_decode hdecode).trans
    ((length_le_length_utf8 (universalBody (universalNodes nodes))).trans hsize)
  obtain ⟨huri, htextReads⟩ := reads_originals hne hnodes htext
  have hdecoded : decodedSubscription (universalBody (universalNodes nodes)) = some _ :=
    decodedSubscription_encode huri
  rw [parseInput_ok_iff, universalBody, trim_encode]
  refine ⟨?_, not_otherFormat_encode _ _, ?_, hne, ?_⟩
  · intro hnil
    rw [universalBody, hnil] at hdecoded
    cases hdecoded
  · refine ⟨hsize, ?_⟩
    rw [← universalBody, hdecoded]
    exact htextReads
  · exact (List.length_filter_le _ nodes).trans hcount

/-- **A universal subscription comes back.**  It is accepted if it is not too large, with the nodes
that are not for SSH in order and unchanged, and it is converted to itself. -/
theorem universal_round_trip {libraries : Libraries}
    (hinput : parseInput libraries.codec input = .ok nodes)
    (hne : ∃ node ∈ nodes, node.kind ≠ .ssh) :
    ∃ output body, convert libraries .xray input = .ok output ∧ output.body = .text body ∧
      body = universalBody (nodes.filter (·.kind ≠ .ssh)) ∧
      ((utf8 body).length ≤ maxInputBytes →
        parseInput libraries.codec body = .ok (nodes.filter (·.kind ≠ .ssh)) ∧
        ∃ output', convert libraries .xray body = .ok output' ∧ output'.body = .text body) := by
  have hnodes : universalNodes nodes ≠ [] := by
    obtain ⟨node, hnode, hkind⟩ := hne
    exact List.ne_nil_of_mem (List.mem_filter.mpr ⟨hnode, by simpa using hkind⟩)
  obtain ⟨output, houtput, hbody⟩ := convert_xray hinput hnodes
  refine ⟨output, _, houtput, hbody, rfl, fun hsize => ?_⟩
  have hread := parseInput_universalBody hinput hnodes hsize
  -- the nodes that come back have none for SSH any more
  have hagain : universalNodes (universalNodes nodes) = universalNodes nodes := by
    rw [universalNodes, universalNodes, List.filter_filter]
    simp
  obtain ⟨output', houtput', hbody'⟩ := convert_xray hread (by rwa [hagain])
  rw [hagain] at hbody'
  exact ⟨hread, output', houtput', hbody'⟩

/-- A subscription of one node. -/
theorem universal_round_trip_vless :
    ∃ output, convert ⟨urlCodec, fun _ => none⟩ .xray (universalBody [relayedNode]) = .ok output ∧
      output.body = .text (universalBody [relayedNode]) := by
  obtain ⟨-, body, -, -, rfl, h⟩ := @universal_round_trip [relayedNode] relayedUrl.toString
    ⟨urlCodec, fun _ => none⟩ relayedNode_input ⟨relayedNode, List.mem_singleton_self _, by decide⟩
  exact (h (by decide)).2

end SingBoxMini.Sublink
