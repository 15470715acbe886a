import SingBoxMini.Support.HashMap
import SingBoxMini.Support.Tasks

/-!
# NAT tunnel — Tracker

`GatewayTracker` (`nat_tunnel.rs`): the nodes the gateway shows, and the count of each one's
tunnels.

An `Arc<GatewayNodeRuntime>` is its index among all the nodes ever made: the table can be cleared
while tunnels still count on their nodes.  `snapshot` lists the table, and only the table.
-/

namespace SingBoxMini.NatTunnel

/-- `GatewayNodeRuntime`; the count of its tunnels is an `AtomicUsize`. -/
structure GatewayNodeRuntime where
  tunnelCount : UInt64
  connectedSince : Nat
  lastSeen : Nat
  subscriptionUrl : String
deriving DecidableEq

/-- `GatewayNodeRuntime::default` -/
def GatewayNodeRuntime.default : GatewayNodeRuntime := ⟨0, 0, 0, ""⟩

/-- An `Arc<GatewayNodeRuntime>`. -/
abbrev NodeId := Nat

/-- `GatewayTracker`, with every node that was ever in its table. -/
structure GatewayTracker where
  nodes : HashMap String NodeId
  runtimes : List GatewayNodeRuntime
  made : ∀ name id, nodes.lookup name = some id → id < runtimes.length
deriving DecidableEq

/-- What is shown of a node. -/
structure GatewayNodeStatus where
  name : String
  online : Bool
  tunnelCount : UInt64
  connectedSince : Nat
  lastSeen : Nat
  subscriptionUrl : String
deriving DecidableEq

/-- What `connect` does to the node; `fetch_add` and `fetch_sub` wrap. -/
def GatewayNodeRuntime.connect (node : GatewayNodeRuntime) (subscriptionUrl : String) (now : Nat) :
    GatewayNodeRuntime where
  tunnelCount := node.tunnelCount + 1
  connectedSince := if node.tunnelCount = 0 then now else node.connectedSince
  lastSeen := now
  subscriptionUrl := if subscriptionUrl = "" then node.subscriptionUrl else subscriptionUrl

/-- A `GatewayNodeConnection` is dropped. -/
def GatewayNodeRuntime.disconnect (node : GatewayNodeRuntime) (now : Nat) : GatewayNodeRuntime :=
  { node with tunnelCount := node.tunnelCount - 1, lastSeen := now }

/-- A line of the snapshot. -/
def GatewayNodeRuntime.status (node : GatewayNodeRuntime) (name : String) : GatewayNodeStatus where
  name := name
  online := node.tunnelCount > 0
  tunnelCount := node.tunnelCount
  connectedSince := node.connectedSince
  lastSeen := node.lastSeen
  subscriptionUrl := node.subscriptionUrl

/-- The order of the snapshot: nodes that are online first, and by name. -/
def GatewayNodeStatus.le (a b : GatewayNodeStatus) : Bool :=
  if a.online = b.online then a.name ≤ b.name else a.online

namespace GatewayTracker

/-- No nodes. -/
def empty : GatewayTracker := ⟨∅, [], by simp⟩

/-- A change to a node leaves the table as it is. -/
def modify (tracker : GatewayTracker) (id : NodeId)
    (f : GatewayNodeRuntime → GatewayNodeRuntime) : GatewayTracker where
  nodes := tracker.nodes
  runtimes := tracker.runtimes.modify id f
  made := by
    rw [List.length_modify]
    exact tracker.made

/-- A new node under a name. -/
def insert (tracker : GatewayTracker) (name : String) : GatewayTracker where
  nodes := tracker.nodes.insert name tracker.runtimes.length
  runtimes := tracker.runtimes ++ [.default]
  made := by
    intro name' id hid
    rw [List.length_append]
    by_cases hname : name' = name
    · subst hname
      rw [AList.lookup_insert] at hid
      cases hid
      exact Nat.lt_succ_self _
    · rw [AList.lookup_insert_ne hname] at hid
      exact Nat.lt_add_right _ (tracker.made name' id hid)

/-- `nodes.entry(name).or_default()` -/
def entry (tracker : GatewayTracker) (name : String) : GatewayTracker × NodeId :=
  match tracker.nodes.lookup name with
  | some id => (tracker, id)
  | none => (tracker.insert name, tracker.runtimes.length)

/-- `GatewayTracker::connect` -/
def connect (tracker : GatewayTracker) (name subscriptionUrl : String) (now : Nat) :
    GatewayTracker × NodeId :=
  let entered := tracker.entry name
  (entered.1.modify entered.2 fun node => node.connect subscriptionUrl now, entered.2)

/-- The end of a connection to a node. -/
def disconnect (tracker : GatewayTracker) (id : NodeId) (now : Nat) : GatewayTracker :=
  tracker.modify id fun node => node.disconnect now

/-- `GatewayTracker::clear` -/
def clear (tracker : GatewayTracker) : GatewayTracker := ⟨∅, tracker.runtimes, by simp⟩

/-- `GatewayTracker::snapshot` -/
def snapshot (tracker : GatewayTracker) : List GatewayNodeStatus :=
  (tracker.nodes.entries.map fun e =>
    (tracker.runtimes.getD e.2 .default).status e.1).mergeSort GatewayNodeStatus.le

/-- The node is in the table. -/
def Listed (tracker : GatewayTracker) (id : NodeId) : Prop :=
  ∃ name, tracker.nodes.lookup name = some id

variable {tracker : GatewayTracker}

/-- **The snapshot is the table.** -/
theorem mem_snapshot {status : GatewayNodeStatus} :
    status ∈ tracker.snapshot ↔ ∃ id, tracker.nodes.lookup status.name = some id ∧
      status = (tracker.runtimes.getD id .default).status status.name := by
  simp only [snapshot, List.mem_mergeSort, List.mem_map]
  constructor
  · rintro ⟨⟨name, id⟩, hmem, rfl⟩
    exact ⟨id, AList.mem_lookup_iff.mpr hmem, rfl⟩
  · rintro ⟨id, hlookup, heq⟩
    exact ⟨⟨status.name, id⟩, AList.mem_lookup_iff.mp hlookup, heq.symm⟩

theorem not_listed_clear (tracker : GatewayTracker) (id : NodeId) : ¬ tracker.clear.Listed id := by
  rintro ⟨name, hname⟩
  simp [clear] at hname

theorem listed_disconnect {id id' : NodeId} {now : Nat} :
    (tracker.disconnect id now).Listed id' ↔ tracker.Listed id' := Iff.rfl

theorem length_disconnect (tracker : GatewayTracker) (id : NodeId) (now : Nat) :
    (tracker.disconnect id now).runtimes.length = tracker.runtimes.length :=
  List.length_modify _ _ _

theorem length_connect_le (tracker : GatewayTracker) (name url : String) (now : Nat) :
    tracker.runtimes.length ≤ (tracker.connect name url now).1.runtimes.length := by
  simp only [connect, modify, List.length_modify]
  unfold entry
  split
  · exact Nat.le_refl _
  · simp only [insert, List.length_append]
    exact Nat.le_add_right _ _

/-- **What a connection adds to the table** is the node it counts on, and that was in the table
before or is new. -/
theorem listed_connect {name url : String} {now : Nat} {id : NodeId}
    (h : (tracker.connect name url now).1.Listed id) :
    tracker.Listed id ∨ tracker.runtimes.length ≤ id := by
  obtain ⟨name', hname⟩ := h
  simp only [connect, modify, entry] at hname
  split at hname
  · exact .inl ⟨name', hname⟩
  · simp only [insert] at hname
    by_cases hne : name' = name
    · subst hne
      rw [AList.lookup_insert] at hname
      cases hname
      exact .inr (Nat.le_refl _)
    · rw [AList.lookup_insert_ne hne] at hname
      exact .inl ⟨name', hname⟩

/-- The node a connection counts on is in the table. -/
theorem lookup_connect (tracker : GatewayTracker) (name url : String) (now : Nat) :
    (tracker.connect name url now).1.nodes.lookup name = some (tracker.connect name url now).2 := by
  simp only [connect, modify, entry]
  split
  · assumption
  · exact AList.lookup_insert _

theorem connect_made (tracker : GatewayTracker) (name url : String) (now : Nat) :
    (tracker.connect name url now).2 < (tracker.connect name url now).1.runtimes.length :=
  (tracker.connect name url now).1.made name _ (tracker.lookup_connect name url now)

end GatewayTracker

end SingBoxMini.NatTunnel
