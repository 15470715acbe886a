import SingBoxMini.Sublink.Render
import Mathlib.Data.List.Perm.Basic

/-!
# Sublink — Selector

The nodes the group `PROXY` of a converted subscription offers, in the order they are preferred.

* `proxyNodeNames_perm_iff`: the group offers every node once, unless nodes of another kind share
  the endpoint of a VLESS and a Hysteria2 node.
-/

namespace SingBoxMini.Sublink

/-! ### Filters that share no item -/

section Filters
variable {α : Type} {p q : α → Bool} {l : List α}

theorem filter_append_filter_perm (h : ∀ a ∈ l, p a = true → q a = false) :
    (l.filter p ++ l.filter q).Perm (l.filter fun a => p a || q a) := by
  induction l with
  | nil => exact .refl _
  | cons a l ih =>
      rw [List.forall_mem_cons] at h
      have hrest := ih h.2
      cases hp : p a with
      | true =>
          have hq := h.1 hp
          simpa [hp, hq] using hrest
      | false =>
          cases hq : q a with
          | true => simpa [hp, hq] using List.perm_middle.trans (hrest.cons a)
          | false => simpa [hp, hq] using hrest

end Filters

/-! ### The group -/

/-- **One endpoint over TCP and UDP**: a VLESS and a Hysteria2 node, and all nodes have the server
and the port of the first. -/
def SharedFallback (nodes : List Node) : Prop :=
  2 ≤ nodes.length ∧ nodes.any (·.kind = .hysteria2) = true ∧
    nodes.any (·.kind = .vless) = true ∧ (nodes.all fun node =>
      node.server = (nodes.head?.map Node.server).getD [] ∧
        node.port = (nodes.head?.map Node.port).getD 0) = true

/-- SSH nodes are put first, then VLESS nodes, and no node is lost. -/
theorem ssh_first_perm (nodes : List Node) :
    (nodes.filter (·.kind = .ssh) ++ nodes.filter (·.kind = .vless) ++
      nodes.filter (·.kind ∉ [Kind.ssh, .vless])).Perm nodes := by
  have hfirst : (nodes.filter (·.kind = .ssh) ++ nodes.filter (·.kind = .vless)).Perm
      (nodes.filter fun node => node.kind = .ssh || node.kind = .vless) :=
    filter_append_filter_perm (by simp +contextual)
  refine (hfirst.append_right _).trans ?_
  have hrest : nodes.filter (·.kind ∉ [Kind.ssh, .vless]) =
      nodes.filter fun node => !(node.kind = .ssh || node.kind = .vless) := by
    simp
  rw [hrest]
  exact List.filter_append_perm _ nodes

/-- Only VLESS and Hysteria2 nodes are left. -/
theorem fallback_perm (nodes : List Node) :
    (nodes.filter (·.kind = .vless) ++ nodes.filter (·.kind = .hysteria2)).Perm
      (nodes.filter fun node => node.kind = .vless || node.kind = .hysteria2) :=
  filter_append_filter_perm (by simp +contextual)

/-- The group offers nodes only. -/
theorem proxyNodeNames_subset (nodes : List Node) : proxyNodeNames nodes ⊆ nodes.map Node.name := by
  rw [proxyNodeNames]
  split_ifs
  · exact ((ssh_first_perm nodes).map Node.name).subset
  · exact List.map_subset _ fun node hnode =>
      List.mem_of_mem_filter ((fallback_perm nodes).mem_iff.mp hnode)
  · exact List.Subset.refl _

/-- **The group offers every node once**, unless there is a node of another kind at a shared
endpoint. -/
theorem proxyNodeNames_perm_iff (nodes : List Node) :
    (proxyNodeNames nodes).Perm (nodes.map Node.name) ↔
      ((∀ node ∈ nodes, node.kind ≠ .ssh) ∧ SharedFallback nodes →
        ∀ node ∈ nodes, node.kind = .vless ∨ node.kind = .hysteria2) := by
  rw [proxyNodeNames]
  split_ifs with hssh hshared
  · refine ⟨fun _ hcond => ?_, fun _ => (ssh_first_perm nodes).map Node.name⟩
    obtain ⟨node, hnode, hkind⟩ := List.any_eq_true.mp hssh
    exact absurd (of_decide_eq_true hkind) (hcond.1 node hnode)
  · have hnone : ∀ node ∈ nodes, node.kind ≠ .ssh := by simpa using hssh
    refine ⟨fun hperm _ => ?_, fun hkinds => ?_⟩
    · -- no name is lost, so the filter keeps every node
      have hlength :
          (nodes.filter fun node => node.kind = .vless || node.kind = .hysteria2).length =
            nodes.length := by
        rw [← (fallback_perm nodes).length_eq, ← List.length_map Node.name, hperm.length_eq,
          List.length_map]
      simpa using List.length_filter_eq_length_iff.mp hlength
    · have hall : (nodes.filter fun node => node.kind = .vless || node.kind = .hysteria2) = nodes :=
        List.filter_eq_self.mpr (by simpa using hkinds ⟨hnone, hshared⟩)
      exact ((fallback_perm nodes).trans (.of_eq hall)).map Node.name
  · exact ⟨fun _ hcond => absurd hcond.2 hshared, fun _ => .refl _⟩

/-- A node of a kind at one endpoint. -/
def sharedNode (kind : Kind) (name : String) : Node :=
  { Node.empty kind [] with name := name.toList, server := "h".toList }

/-- **A TUIC node is missing** if a VLESS and a Hysteria2 node have its endpoint. -/
theorem proxyNodeNames_tuic :
    ¬ (proxyNodeNames [sharedNode .vless "a", sharedNode .hysteria2 "b",
        sharedNode .tuic "c"]).Perm ["a".toList, "b".toList, "c".toList] := by
  have hnames : proxyNodeNames [sharedNode .vless "a", sharedNode .hysteria2 "b",
      sharedNode .tuic "c"] = ["a".toList, "b".toList] := by decide
  rw [hnames]
  intro hperm
  cases hperm.length_eq

end SingBoxMini.Sublink
