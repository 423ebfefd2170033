import TidePool.Api.Types
import TidePool.Schemes.OrderedMap

/-! The consistent-hash ring (`src/hashring/hash_ring.cpp`, `include/tidepool/api/shard_map.h`).

    Every live node of a shard map puts its points on the ring, in map order; a point that is hit twice
    belongs to the node that wrote it last. A key belongs to the first point clockwise from its hash:

        shard map --Rebuild--> points (hash -> node id) --Owner(key)--> first point >= prefix_hash, or wrap

    The ring is the map its writes leave, so what a membership change does to routing is read off the
    writes: the two lists of writes agree once those of the changed node are left out. The hash of a
    label is a parameter; nothing is assumed of it, so points may collide. -/

namespace TidePool

open Schemes

abbrev NodeId := String

/-- `struct NodeInfo`. -/
structure NodeInfo where
  id : NodeId
  address : String := ""
  vnodeCount : UInt32 := 0
  alive : Bool := true
  deriving DecidableEq, Repr

/-- `struct ShardMap`. -/
structure ShardMap where
  version : UInt64 := 0
  nodes : List NodeInfo := []
  deriving DecidableEq, Repr

/-- `ShardMap::FindNode`. -/
def ShardMap.findNode (map : ShardMap) (id : NodeId) : Option NodeInfo := map.nodes.find? (·.id = id)

/-- `class HashRing`; the points are the values of the 64-bit hashes. -/
structure HashRing where
  version : UInt64 := 0
  ring : OrderedMap ℕ NodeId := ∅

namespace HashRing

variable (pointHash : String → UInt64)

/-- The points of a node: `vnode_count` of them, at least one. -/
def vnodes (node : NodeInfo) : ℕ := if 0 < node.vnodeCount then node.vnodeCount.toNat else 1

/-- The label of virtual node `v`. -/
def label (id : NodeId) (v : ℕ) : String := id ++ "#" ++ toString v

def point (id : NodeId) (v : ℕ) : ℕ := (pointHash (label id v)).toNat

/-- The body of the loop of `Rebuild`. -/
def addNode (ring : OrderedMap ℕ NodeId) (node : NodeInfo) : OrderedMap ℕ NodeId :=
  if !node.alive then ring
  else (List.range (vnodes node)).foldl (fun ring v => ring.insert (point pointHash node.id v) node.id) ring

/-- `HashRing::Rebuild`. -/
def rebuild (map : ShardMap) : HashRing :=
  { version := map.version, ring := map.nodes.foldl (addNode pointHash) ∅ }

/-- `HashRing::empty`. -/
def empty (r : HashRing) : Bool := r.ring.entries.isEmpty

/-- `HashRing::Owner`: the walk finds nothing exactly when the ring is empty. -/
def owner (r : HashRing) (key : BlockKey) : Result NodeId :=
  match r.ring.successor key.prefixHash.toNat with
  | none => .error (.unavailable "hash ring is empty; refresh shard map")
  | some e => .ok e.2

theorem owner_eq_ok {r : HashRing} {key : BlockKey} {id : NodeId} :
    r.owner key = .ok id ↔ ∃ p, r.ring.successor key.prefixHash.toNat = some (p, id) := by
  unfold owner
  cases r.ring.successor key.prefixHash.toNat with
  | none => simp
  | some e =>
    obtain ⟨p, v⟩ := e
    simp

/-! ### The ring as a list of writes -/

/-- What a node writes. -/
def nodeWrites (node : NodeInfo) : List (ℕ × NodeId) :=
  if node.alive then (List.range (vnodes node)).map fun v => (point pointHash node.id v, node.id) else []

/-- What a shard map writes. -/
def writes (nodes : List NodeInfo) : List (ℕ × NodeId) := nodes.flatMap (nodeWrites pointHash)

theorem addNode_eq (ring : OrderedMap ℕ NodeId) (node : NodeInfo) :
    addNode pointHash ring node = (nodeWrites pointHash node).foldl (fun m w => m.insert w.1 w.2) ring := by
  unfold addNode nodeWrites
  cases node.alive with
  | false => rfl
  | true => simp only [Bool.not_true, Bool.false_eq_true, if_false, if_true, List.foldl_map]

/-- The ring is what its writes leave. -/
theorem ring_rebuild (map : ShardMap) :
    (rebuild pointHash map).ring = OrderedMap.ofWrites (writes pointHash map.nodes) := by
  have hfold : ∀ (nodes : List NodeInfo) (ring : OrderedMap ℕ NodeId), nodes.foldl (addNode pointHash) ring =
      (writes pointHash nodes).foldl (fun m w => m.insert w.1 w.2) ring := by
    intro nodes
    induction nodes with
    | nil => exact fun _ => rfl
    | cons node nodes ih =>
      intro ring
      rw [List.foldl_cons, ih, addNode_eq, writes, writes, List.flatMap_cons, List.foldl_append]
  exact hfold map.nodes ∅

theorem nodeWrites_owner {node : NodeInfo} {w : ℕ × NodeId} (h : w ∈ nodeWrites pointHash node) :
    w.2 = node.id := by
  unfold nodeWrites at h
  cases halive : node.alive with
  | false => simp [halive] at h
  | true =>
    rw [halive, if_pos rfl] at h
    obtain ⟨v, -, rfl⟩ := List.mem_map.mp h
    rfl

/-- Leaving out the writes of `n` is leaving out its entries. -/
theorem filter_writes (n : NodeId) (nodes : List NodeInfo) :
    (writes pointHash nodes).filter (·.2 ≠ n) = writes pointHash (nodes.filter (·.id ≠ n)) := by
  induction nodes with
  | nil => rfl
  | cons node nodes ih =>
    rw [writes, List.flatMap_cons, List.filter_append]
    change _ ++ (writes pointHash nodes).filter _ = _
    rw [ih]
    by_cases hn : node.id = n
    · have hnone : (nodeWrites pointHash node).filter (·.2 ≠ n) = [] := by
        refine List.filter_eq_nil_iff.mpr fun w hw => ?_
        simp [nodeWrites_owner pointHash hw, hn]
      rw [hnone, List.filter_cons_of_neg (by simp [hn]), List.nil_append]
    · have hall : (nodeWrites pointHash node).filter (·.2 ≠ n) = nodeWrites pointHash node := by
        refine List.filter_eq_self.mpr fun w hw => ?_
        simp [nodeWrites_owner pointHash hw, hn]
      rw [hall, List.filter_cons_of_pos (by simp [hn]), writes, writes, List.flatMap_cons]

/-! ### Membership changes -/

variable {pointHash} {key : BlockKey} {o o' n : NodeId}

/-- An owner is a node of the map. -/
theorem exists_of_owner {map : ShardMap} (h : (rebuild pointHash map).owner key = .ok o) :
    ∃ node ∈ map.nodes, node.id = o := by
  obtain ⟨p, hp⟩ := owner_eq_ok.mp h
  rw [ring_rebuild] at hp
  have hwrite := (OrderedMap.mem_ofWrites.mp (OrderedMap.successor_isNext hp).1).mem
  obtain ⟨node, hnode, hw⟩ := List.mem_flatMap.mp hwrite
  exact ⟨node, hnode, (nodeWrites_owner pointHash hw).symm⟩

/-- A key that is not `n`'s has the same owner in the map without `n`. -/
theorem owner_without {map : ShardMap} (h : (rebuild pointHash map).owner key = .ok o) (hne : o ≠ n) :
    (rebuild pointHash { map with nodes := map.nodes.filter (·.id ≠ n) }).owner key = .ok o := by
  obtain ⟨p, hp⟩ := owner_eq_ok.mp h
  rw [ring_rebuild] at hp
  refine owner_eq_ok.mpr ⟨p, ?_⟩
  rw [ring_rebuild, ← filter_writes]
  exact OrderedMap.successor_filter hp (by simpa using hne)

/-- The owner does not depend on the version. -/
theorem owner_eq_of_nodes {v w : UInt64} {nodes nodes' : List NodeInfo} (h : nodes = nodes')
    (key : BlockKey) :
    (rebuild pointHash ⟨v, nodes⟩).owner key = (rebuild pointHash ⟨w, nodes'⟩).owner key := by
  simp only [owner, rebuild, h]

/-- MINIMAL REMAPPING: two shard maps that differ only in the entries of `n` give every key the same owner,
    unless one of the two owners is `n`; so a node that joins only takes keys, and one that leaves only
    gives up its own. -/
theorem only_changed_node_remaps (pointHash : String → UInt64) {before after : ShardMap} {n : NodeId}
    (hothers : before.nodes.filter (·.id ≠ n) = after.nodes.filter (·.id ≠ n)) {key : BlockKey}
    {o o' : NodeId}
    (ho : (rebuild pointHash before).owner key = .ok o) (ho' : (rebuild pointHash after).owner key = .ok o') :
    (o ≠ n → o' ≠ n → o = o') ∧
      ((∀ node ∈ before.nodes, node.id ≠ n) → o' = o ∨ o' = n) ∧
      ((∀ node ∈ after.nodes, node.id ≠ n) → o = o' ∨ o = n) := by
  have hsame : o ≠ n → o' ≠ n → o = o' := by
    intro hne hne'
    have hw := owner_without ho hne
    have hw' := owner_without ho' hne'
    rw [owner_eq_of_nodes hothers key, hw'] at hw
    exact (Except.ok.inj hw).symm
  refine ⟨hsame, fun hjoin => ?_, fun hleave => ?_⟩
  · obtain ⟨node, hnode, rfl⟩ := exists_of_owner ho
    by_cases hn : o' = n
    · exact .inr hn
    · exact .inl (hsame (hjoin node hnode) hn).symm
  · obtain ⟨node, hnode, rfl⟩ := exists_of_owner ho'
    by_cases hn : o = n
    · exact .inr hn
    · exact .inl (hsame hn (hleave node hnode))

/-- Node `b` joins between `a` and `c`, overwrites a point of `a` and takes that key; another stays. -/
theorem only_changed_node_remaps_join :
    let hash : String → UInt64 := fun label => if label = "c#0" then 40 else if label = "a#1" then 30 else
      if label = "b#0" then 30 else 10
    let before : ShardMap := { nodes := [⟨"a", "", 2, true⟩, ⟨"c", "", 0, true⟩] }
    let after : ShardMap := { nodes := [⟨"a", "", 2, true⟩, ⟨"b", "", 1, true⟩, ⟨"c", "", 0, true⟩] }
    (rebuild hash before).owner ⟨20, 0, 0⟩ = .ok "a" ∧ (rebuild hash after).owner ⟨20, 0, 0⟩ = .ok "b" ∧
      (rebuild hash before).owner ⟨50, 0, 0⟩ = .ok "a" ∧
      ∀ o', (rebuild hash after).owner ⟨50, 0, 0⟩ = .ok o' → o' = "a" ∨ o' = "b" := by
  intro hash before after
  have ho : (rebuild hash before).owner ⟨50, 0, 0⟩ = .ok "a" := by decide
  have hothers : before.nodes.filter (·.id ≠ "b") = after.nodes.filter (·.id ≠ "b") := by decide
  refine ⟨by decide, by decide, ho, fun o' ho' => ?_⟩
  exact (only_changed_node_remaps hash hothers ho ho').2.1 (by decide)

/-! ### The clockwise successor -/

/-- `HashRing::Rebuild` on a ring that already holds points: it is cleared first. -/
def rebuildFrom (pointHash : String → UInt64) (old : HashRing) (map : ShardMap) : HashRing :=
  map.nodes.foldl (fun r node => { r with ring := addNode pointHash r.ring node })
    { old with ring := ∅, version := map.version }

theorem rebuildFrom_eq (pointHash : String → UInt64) (old : HashRing) (map : ShardMap) :
    rebuildFrom pointHash old map = rebuild pointHash map := by
  have hfold : ∀ (nodes : List NodeInfo) (r : HashRing),
      nodes.foldl (fun r node => { r with ring := addNode pointHash r.ring node }) r =
        { r with ring := nodes.foldl (addNode pointHash) r.ring } := by
    intro nodes
    induction nodes with
    | nil => exact fun _ => rfl
    | cons node nodes ih => exact fun r => ih _
  exact hfold _ _

/-- The number of a label has no `#`, so the last one ends the id. -/
theorem id_of_label {a b : NodeId} {v w : ℕ} (h : label a v = label b w) : a = b := by
  have hdigits : ∀ n : ℕ, ∀ c ∈ (toString n).toList.reverse, (decide (c ≠ '#')) = true := by
    intro n c hc
    rw [List.mem_reverse, Nat.toString_eq_repr, Nat.toList_repr] at hc
    have hdigit := Nat.isDigit_of_mem_toDigits (by decide) (by decide) hc
    exact decide_eq_true fun he => absurd (he ▸ hdigit) (by decide)
  have hid : ∀ (id : NodeId) (n : ℕ), ((label id n).toList.reverse.dropWhile fun c => decide (c ≠ '#')) =
      '#' :: id.toList.reverse := by
    intro id n
    have hlabel : (label id n).toList.reverse = (toString n).toList.reverse ++ '#' :: id.toList.reverse := by
      simp [label]
    rw [hlabel, List.dropWhile_append_of_pos (hdigits n)]
    rfl
  have hboth := hid a v
  rw [h, hid b w] at hboth
  exact String.toList_inj.mp (List.reverse_inj.mp (List.cons.inj hboth).2.symm)

/-- A live node of the map, and one of its virtual nodes. -/
def Places (nodes : List NodeInfo) (node : NodeInfo) (v : ℕ) : Prop :=
  node ∈ nodes ∧ node.alive = true ∧ v < vnodes node

theorem mem_writes {nodes : List NodeInfo} {w : ℕ × NodeId} : w ∈ writes pointHash nodes ↔
    ∃ node v, Places nodes node v ∧ w = (point pointHash node.id v, node.id) := by
  unfold writes nodeWrites
  rw [List.mem_flatMap]
  constructor
  · rintro ⟨node, hnode, hw⟩
    cases halive : node.alive with
    | false => simp [halive] at hw
    | true =>
      rw [halive, if_pos rfl] at hw
      obtain ⟨v, hv, rfl⟩ := List.mem_map.mp hw
      exact ⟨node, v, ⟨hnode, halive, List.mem_range.mp hv⟩, rfl⟩
  · rintro ⟨node, v, ⟨hnode, halive, hv⟩, rfl⟩
    refine ⟨node, hnode, ?_⟩
    rw [halive, if_pos rfl]
    exact List.mem_map.mpr ⟨v, List.mem_range.mpr hv, rfl⟩

/-- The points in use. -/
theorem mem_keys {map : ShardMap} {p : ℕ} : p ∈ (rebuild pointHash map).ring.keys ↔
    ∃ node v, Places map.nodes node v ∧ p = point pointHash node.id v := by
  rw [ring_rebuild, OrderedMap.keys_ofWrites]
  constructor
  · rintro ⟨w, hw, rfl⟩
    obtain ⟨node, v, hv, rfl⟩ := mem_writes.mp hw
    exact ⟨node, v, hv, rfl⟩
  · rintro ⟨node, v, hv, rfl⟩
    exact ⟨_, mem_writes.mpr ⟨node, v, hv, rfl⟩, rfl⟩

variable (pointHash) in
/-- The labels of the live nodes have distinct points. -/
def Scattered (nodes : List NodeInfo) : Prop :=
  ∀ a v b w, Places nodes a v → Places nodes b w → label a.id v ≠ label b.id w →
    pointHash (label a.id v) ≠ pointHash (label b.id w)

variable (pointHash) in
/-- Of all virtual nodes, `v` of `node` is the nearest one clockwise from the hash of the key. -/
def Nearest (nodes : List NodeInfo) (key : BlockKey) (node : NodeInfo) (v : ℕ) : Prop :=
  Places nodes node v ∧ ∀ other w, Places nodes other w →
    clockwise UInt64.size key.prefixHash.toNat (point pointHash node.id v) ≤
      clockwise UInt64.size key.prefixHash.toNat (point pointHash other.id w)

theorem isNext_iff_nearest {map : ShardMap} {node : NodeInfo} {v : ℕ} (hv : Places map.nodes node v) :
    IsNext (rebuild pointHash map).ring.keys key.prefixHash.toNat (point pointHash node.id v) ↔
      Nearest pointHash map.nodes key node v := by
  have hbound : ∀ q ∈ (rebuild pointHash map).ring.keys, q < UInt64.size := by
    intro q hq
    obtain ⟨other, w, -, rfl⟩ := mem_keys.mp hq
    exact UInt64.toNat_lt_size _
  rw [isNext_iff_clockwise hbound key.prefixHash.toNat_lt_size]
  constructor
  · rintro ⟨-, hmin⟩
    exact ⟨hv, fun other w hw => hmin _ (mem_keys.mpr ⟨other, w, hw, rfl⟩)⟩
  · rintro ⟨-, hmin⟩
    refine ⟨mem_keys.mpr ⟨node, v, hv, rfl⟩, fun q hq => ?_⟩
    obtain ⟨other, w, hw, rfl⟩ := mem_keys.mp hq
    exact hmin other w hw

/-- The owner is the node with the nearest point. -/
theorem owner_iff_nearest {map : ShardMap} (hscat : Scattered pointHash map.nodes) (id : NodeId) :
    (rebuild pointHash map).owner key = .ok id ↔
      ∃ node v, Nearest pointHash map.nodes key node v ∧ node.id = id := by
  rw [owner_eq_ok]
  constructor
  · rintro ⟨p, hp⟩
    obtain ⟨hmem, hnext⟩ := OrderedMap.successor_isNext hp
    rw [ring_rebuild] at hmem
    obtain ⟨node, v, hv, heq⟩ := mem_writes.mp (OrderedMap.mem_ofWrites.mp hmem).mem
    obtain ⟨rfl, rfl⟩ := Prod.mk.inj heq
    exact ⟨node, v, (isNext_iff_nearest hv).mp hnext, rfl⟩
  · rintro ⟨node, v, hnear, rfl⟩
    have hnext := (isNext_iff_nearest hnear.1).mpr hnear
    obtain ⟨id, hmem⟩ := hnext.1
    -- whoever wrote the point has the same label, so the same id
    have hwrite := hmem
    rw [ring_rebuild] at hwrite
    obtain ⟨other, w, hw, heq⟩ := mem_writes.mp (OrderedMap.mem_ofWrites.mp hwrite).mem
    obtain ⟨hpoint, rfl⟩ := Prod.mk.inj heq
    have hlabel : label node.id v = label other.id w := by
      by_contra hne
      exact hscat node v other w hnear.1 hw hne (UInt64.toNat_inj.mp hpoint)
    rw [id_of_label hlabel]
    exact ⟨_, OrderedMap.successor_eq_some hmem hnext⟩

theorem empty_of_owner {r : HashRing} {id : NodeId} (h : r.owner key = .ok id) : r.empty = false := by
  obtain ⟨p, hp⟩ := owner_eq_ok.mp h
  obtain ⟨hmem, -⟩ := OrderedMap.successor_isNext hp
  simpa [empty] using List.ne_nil_of_mem hmem

theorem owner_eq_error {r : HashRing} {e : Status} (h : r.owner key = .error e) :
    e = .unavailable "hash ring is empty; refresh shard map" ∧ r.ring.entries = [] := by
  unfold owner at h
  cases hs : r.ring.successor key.prefixHash.toNat with
  | none =>
    rw [hs] at h
    exact ⟨(Except.error.inj h).symm, OrderedMap.successor_eq_none hs⟩
  | some e => rw [hs] at h; cases h

theorem vnodes_pos (node : NodeInfo) : 0 < vnodes node := by
  unfold vnodes
  split
  · rename_i h
    exact UInt32.lt_iff_toNat_lt.mp h
  · exact Nat.one_pos

/-- No point is written exactly if no node is alive. -/
theorem owner_error_iff {map : ShardMap} :
    (∃ e, (rebuild pointHash map).owner key = .error e ∧ e.code = .unavailable) ↔
      ∀ node ∈ map.nodes, node.alive = false := by
  constructor
  · rintro ⟨e, he, -⟩ node hnode
    by_contra halive
    obtain ⟨id, hid⟩ := mem_keys.mpr
      ⟨node, 0, ⟨hnode, Bool.eq_true_of_not_eq_false halive, vnodes_pos node⟩, rfl⟩
    rw [(owner_eq_error he).2] at hid
    exact absurd hid List.not_mem_nil
  · intro hdead
    cases ho : (rebuild pointHash map).owner key with
    | error e => exact ⟨e, rfl, by rw [(owner_eq_error ho).1]; rfl⟩
    | ok id =>
      obtain ⟨p, hp⟩ := owner_eq_ok.mp ho
      obtain ⟨node, v, ⟨hnode, halive, -⟩, -⟩ := mem_keys.mp (OrderedMap.successor_isNext hp).2.1
      rw [hdead node hnode] at halive
      cases halive

/-- A single live node owns every key. -/
theorem owner_single {version : UInt64} {node : NodeInfo} (halive : node.alive = true) (key : BlockKey) :
    (rebuild pointHash ⟨version, [node]⟩).owner key = .ok node.id := by
  cases howner : (rebuild pointHash ⟨version, [node]⟩).owner key with
  | error e =>
    have hdead := owner_error_iff.mp ⟨e, howner, by rw [(owner_eq_error howner).1]; rfl⟩ node (by simp)
    rw [halive] at hdead
    cases hdead
  | ok id =>
    obtain ⟨_, hmem, rfl⟩ := exists_of_owner howner
    rw [List.mem_singleton.mp hmem]

/-- The order of the nodes does not matter. -/
theorem owner_perm {map : ShardMap} {nodes : List NodeInfo} (hscat : Scattered pointHash map.nodes)
    (hperm : nodes.Perm map.nodes) :
    (rebuild pointHash { map with nodes }).owner key = (rebuild pointHash map).owner key := by
  have hplaces : ∀ node v, Places nodes node v ↔ Places map.nodes node v := fun node v =>
    and_congr_left fun _ => hperm.mem_iff
  have hscat' : Scattered pointHash nodes := fun a v b w ha hb =>
    hscat a v b w ((hplaces a v).mp ha) ((hplaces b w).mp hb)
  have hok : ∀ id, (rebuild pointHash { map with nodes }).owner key = .ok id ↔
      (rebuild pointHash map).owner key = .ok id := by
    intro id
    have hnew : (rebuild pointHash { map with nodes }).owner key = .ok id ↔
        ∃ node v, Nearest pointHash nodes key node v ∧ node.id = id := owner_iff_nearest hscat' id
    rw [hnew, owner_iff_nearest hscat]
    simp only [Nearest, hplaces]
  cases ho : (rebuild pointHash map).owner key with
  | ok id => exact (hok id).mpr ho
  | error e =>
    cases ho' : (rebuild pointHash { map with nodes }).owner key with
    | ok id => cases ho.symm.trans ((hok id).mp ho')
    | error e' => rw [(owner_eq_error ho).1, (owner_eq_error ho').1]

/-- CLOCKWISE SUCCESSOR: when the labels of the live nodes have distinct points, the owner of a key after a
    rebuild is the node with the nearest point clockwise, none exactly if no node is alive, and neither the
    order of the nodes nor what the ring held before changes it. -/
theorem owner_is_clockwise_successor (pointHash : String → UInt64) (old : HashRing) (map : ShardMap)
    (hscat : Scattered pointHash map.nodes) (key : BlockKey) :
    (∀ id, (rebuildFrom pointHash old map).owner key = .ok id ↔
      ∃ node v, Nearest pointHash map.nodes key node v ∧ node.id = id) ∧
    ((∃ e, (rebuildFrom pointHash old map).owner key = .error e ∧ e.code = .unavailable) ↔
      ∀ node ∈ map.nodes, node.alive = false) ∧
    ∀ (old' : HashRing) (nodes : List NodeInfo), nodes.Perm map.nodes →
      (rebuildFrom pointHash old' { map with nodes }).owner key =
      (rebuildFrom pointHash old map).owner key := by
  refine ⟨fun id => ?_, ?_, fun old' nodes hperm => ?_⟩
  · rw [rebuildFrom_eq]
    exact owner_iff_nearest hscat id
  · rw [rebuildFrom_eq]
    exact owner_error_iff
  · rw [rebuildFrom_eq, rebuildFrom_eq]
    exact owner_perm hscat hperm

/-- Two nodes with three points; the key lies past all of them and belongs to the lowest. -/
theorem owner_is_clockwise_successor_wraps :
    let hash : String → UInt64 := fun label => if label = "a#0" then 10 else if label = "a#1" then 30 else 20
    let map : ShardMap := { nodes := [⟨"a", "", 2, true⟩, ⟨"b", "", 0, true⟩, ⟨"c", "", 9, false⟩] }
    (rebuildFrom hash {} map).owner ⟨40, 0, 0⟩ = .ok "a" ∧
      (rebuildFrom hash {} { map with nodes := map.nodes.reverse }).owner ⟨40, 0, 0⟩ = .ok "a" := by
  intro hash map
  have hplaces : ∀ node v, Places map.nodes node v →
      label node.id v = "a#0" ∨ label node.id v = "a#1" ∨ label node.id v = "b#0" := by
    rintro node v ⟨hnode, halive, hv⟩
    simp only [map, List.mem_cons, List.not_mem_nil, or_false] at hnode
    rcases hnode with rfl | rfl | rfl
    · have hv : v < 2 := hv
      obtain rfl | rfl : v = 0 ∨ v = 1 := by omega
      · exact .inl (by decide)
      · exact .inr (.inl (by decide))
    · have hv : v < 1 := hv
      obtain rfl : v = 0 := by omega
      exact .inr (.inr (by decide))
    · cases halive
  have hscat : Scattered hash map.nodes := by
    intro a v b w ha hb hne
    rcases hplaces a v ha with h | h | h <;> rcases hplaces b w hb with h' | h' | h' <;>
      rw [h, h'] at hne ⊢ <;>
      first | exact absurd rfl hne | decide
  have ho : (rebuildFrom hash {} map).owner ⟨40, 0, 0⟩ = .ok "a" := by decide
  refine ⟨ho, ?_⟩
  rw [(owner_is_clockwise_successor hash {} map hscat ⟨40, 0, 0⟩).2.2 {} map.nodes.reverse
    (List.reverse_perm _), ho]

end HashRing

end TidePool
