import Mathlib.Logic.Function.Basic
import Mathlib.Data.UInt
import TidePool.Cluster.HashRing

/-! One coordinator, any number of connectors (`src/coordinator/single_node_coordinator.cpp`,
    `src/client/connector.cpp`).

    The coordinator owns the shard map and gives every accepted registration a version of its own. A
    connector routes by its cached ring and asks the coordinator only when the ring has no owner:

        resolve ---ring has an owner--------------------------> answered
           |                                                       ^
           `-> refreshing --GetShardMap--> rebuilding --Rebuild----+
                   ^                                               |
                   `------- budget left, still no owner -----------'

    `GetShardMap` runs under the coordinator's lock and `Rebuild` does not, so other calls come between
    the two: they are separate steps here. A version determines a list of nodes over the whole history,
    and every ring and every copy on its way to one was built from the list of its version. -/

namespace TidePool

open Schemes

/-! ### The coordinator -/

namespace ShardMap

/-- The loop of `RegisterNode`: replace the entry with this id, or append. -/
def upsertNode (node : NodeInfo) : List NodeInfo → List NodeInfo
  | [] => [node]
  | x :: xs => if x.id = node.id then node :: xs else x :: upsertNode node xs

/-- `SingleNodeCoordinator::RegisterNode`. -/
def registerNode (map : ShardMap) (node : NodeInfo) : Result Unit × ShardMap :=
  if node.id = "" then (.error (.invalidArgument "empty node id"), map)
  else (.ok (), { version := map.version + 1, nodes := upsertNode node map.nodes })

/-- `SingleNodeCoordinator::Heartbeat`. -/
def heartbeat (map : ShardMap) (id : NodeId) : Result UInt64 × ShardMap :=
  match map.findNode id with
  | none => (.error (.notFound ("unknown node: " ++ id)), map)
  | some _ => (.ok map.version, map)

@[simp] theorem heartbeat_map (map : ShardMap) (id : NodeId) : (map.heartbeat id).2 = map := by
  unfold heartbeat
  cases map.findNode id <;> rfl

theorem ids_upsertNode (node : NodeInfo) : ∀ nodes : List NodeInfo,
    (upsertNode node nodes).map (·.id) =
      if node.id ∈ nodes.map (·.id) then nodes.map (·.id) else nodes.map (·.id) ++ [node.id]
  | [] => rfl
  | x :: xs => by
    rw [upsertNode]
    by_cases hx : x.id = node.id
    · rw [if_pos hx, if_pos (by simp [hx])]
      simp [hx]
    · rw [if_neg hx, List.map_cons, ids_upsertNode node xs]
      have hmem : node.id ∈ (x :: xs).map (·.id) ↔ node.id ∈ xs.map (·.id) := by simp [Ne.symm hx]
      simp only [hmem]
      split <;> simp

/-- Ids are distinct and none is empty. -/
structure Proper (map : ShardMap) : Prop where
  unique : (map.nodes.map (·.id)).Nodup
  named : "" ∉ map.nodes.map (·.id)

/-- A registration is rejected, or takes the next version. -/
theorem registerNode_cases (map : ShardMap) (node : NodeInfo) :
    (map.registerNode node).2 = map ∨ node.id ≠ "" ∧
      (map.registerNode node).2 = { version := map.version + 1, nodes := upsertNode node map.nodes } := by
  unfold registerNode
  by_cases hid : node.id = ""
  · rw [if_pos hid]; exact .inl rfl
  · rw [if_neg hid]; exact .inr ⟨hid, rfl⟩

theorem Proper.registerNode {map : ShardMap} (h : map.Proper) (node : NodeInfo) :
    (map.registerNode node).2.Proper := by
  rcases registerNode_cases map node with heq | ⟨hid, heq⟩ <;> rw [heq]
  · exact h
  · by_cases hmem : node.id ∈ map.nodes.map (·.id)
    · have hids := ids_upsertNode node map.nodes
      rw [if_pos hmem] at hids
      exact ⟨hids ▸ h.unique, hids ▸ h.named⟩
    · have hids := ids_upsertNode node map.nodes
      rw [if_neg hmem] at hids
      refine ⟨?_, ?_⟩ <;> simp only [hids]
      · exact List.nodup_append.mpr ⟨h.unique, List.nodup_singleton _, fun a ha b hb hab =>
          hmem (List.mem_singleton.mp hb ▸ hab ▸ ha)⟩
      · simpa [Ne.symm hid] using h.named

end ShardMap

/-! ### The connector -/

/-- Where a connector is inside `ResolveOwner`, with the refreshes it has left; idle, with its last answer. -/
inductive Task where
  | idle (answer : Option (Result NodeId))
  | refreshing (key : BlockKey) (left : ℕ)
  | rebuilding (key : BlockKey) (left : ℕ) (map : ShardMap)

/-- `class Connector`: its cached ring and the call it is in. -/
structure Connector where
  hasCoordinator : Bool := true
  maxShardmapRefreshes : ℤ := 1
  ring : HashRing := {}
  task : Task := .idle none

namespace Connector

/-- The test of the loop in `ResolveOwner`, with `left` rounds to go. -/
def retry (c : Connector) (key : BlockKey) (left : ℕ) : Connector :=
  match c.ring.owner key, left with
  | .ok id, _ => { c with task := .idle (some (.ok id)) }
  | .error e, 0 => { c with task := .idle (some (.error e)) }
  | .error _, left + 1 => { c with task := .refreshing key left }

/-- `Connector::ResolveOwner`, up to its first call of the coordinator. -/
def resolveOwner (c : Connector) (key : BlockKey) : Connector :=
  match c.task with
  | .idle _ =>
    if c.ring.empty then { c with task := .refreshing key c.maxShardmapRefreshes.toNat }
    else c.retry key c.maxShardmapRefreshes.toNat
  | _ => c

/-- `Connector::RefreshShardMap`, up to the return of `GetShardMap`. -/
def refreshShardMap (c : Connector) (map : ShardMap) : Connector :=
  match c.task with
  | .refreshing key left =>
    if !c.hasCoordinator then
      { c with task := .idle (some (.error (.internal "connector has no coordinator"))) }
    else { c with task := .rebuilding key left map }
  | _ => c

/-- The rest of `RefreshShardMap`, and back in `ResolveOwner`. -/
def rebuildRing (pointHash : String → UInt64) (c : Connector) : Connector :=
  match c.task with
  | .rebuilding key left map => { c with ring := HashRing.rebuild pointHash map }.retry key left
  | _ => c

/-- The copy of the shard map a connector is about to install. -/
def pending (c : Connector) : Option ShardMap :=
  match c.task with
  | .rebuilding _ _ map => some map
  | _ => none

@[simp] theorem retry_ring (c : Connector) (key : BlockKey) (left : ℕ) :
    (c.retry key left).ring = c.ring := by
  unfold retry
  split <;> rfl

@[simp] theorem retry_pending (c : Connector) (key : BlockKey) (left : ℕ) :
    (c.retry key left).pending = none := by
  unfold retry
  split <;> rfl

/-- `ResolveOwner` leaves the ring alone, and what it was about to install. -/
theorem resolveOwner_cases (c : Connector) (key : BlockKey) :
    (c.resolveOwner key).ring = c.ring ∧
      ((c.resolveOwner key).pending = none ∨ (c.resolveOwner key).pending = c.pending) := by
  unfold resolveOwner
  cases c.task with
  | idle answer =>
    dsimp only
    split
    · exact ⟨rfl, .inl rfl⟩
    · exact ⟨retry_ring .., .inl (retry_pending ..)⟩
  | refreshing key' left => exact ⟨rfl, .inr rfl⟩
  | rebuilding key' left map => exact ⟨rfl, .inr rfl⟩

/-- `GetShardMap` leaves the ring alone; what is installed next is its answer, if anything. -/
theorem refreshShardMap_cases (c : Connector) (map : ShardMap) :
    (c.refreshShardMap map).ring = c.ring ∧ ((c.refreshShardMap map).pending = none ∨
      (c.refreshShardMap map).pending = some map ∨ (c.refreshShardMap map).pending = c.pending) := by
  unfold refreshShardMap
  cases c.task with
  | refreshing key left =>
    dsimp only
    split
    · exact ⟨rfl, .inl rfl⟩
    · exact ⟨rfl, .inr (.inl rfl)⟩
  | idle answer => exact ⟨rfl, .inr (.inr rfl)⟩
  | rebuilding key left map => exact ⟨rfl, .inr (.inr rfl)⟩

/-- `Rebuild` installs what was fetched, and nothing is then on its way. -/
theorem rebuildRing_cases (pointHash : String → UInt64) (c : Connector) :
    (c.rebuildRing pointHash).pending = none ∧ ((c.rebuildRing pointHash).ring = c.ring ∨
      ∃ map, c.pending = some map ∧ (c.rebuildRing pointHash).ring = HashRing.rebuild pointHash map) := by
  unfold rebuildRing pending
  cases htask : c.task with
  | rebuilding key left map => exact ⟨retry_pending .., .inr ⟨map, rfl, retry_ring ..⟩⟩
  | idle answer => simp [htask]
  | refreshing key left => simp [htask]

end Connector

/-! ### The cluster -/

/-- The coordinator's map and the connectors. -/
structure Cluster (ι : Type) where
  map : ShardMap := {}
  connectors : ι → Connector

/-- A call of the coordinator, or one step of a connector's call. -/
inductive ClusterEvent (ι : Type) where
  | register (node : NodeInfo)
  | heartbeat (id : NodeId)
  | resolve (i : ι) (key : BlockKey)
  | fetch (i : ι)
  | rebuild (i : ι)

/-- One more registration call. -/
def ClusterEvent.registrations {ι : Type} : ClusterEvent ι → ℕ
  | .register _ => 1
  | _ => 0

namespace Cluster

variable {ι : Type}

/-- Registrations made in a list of events, accepted or not. -/
def registrations : List (ClusterEvent ι) → ℕ
  | [] => 0
  | e :: es => e.registrations + registrations es

theorem registrations_append (es fs : List (ClusterEvent ι)) :
    registrations (es ++ fs) = registrations es + registrations fs := by
  induction es with
  | nil => simp [registrations]
  | cons e es ih => rw [List.cons_append, registrations, registrations, ih]; omega

/-- A cluster with empty rings and no nodes; each connector has its own options. -/
def fresh (coordinator : ι → Bool) (refreshes : ι → ℤ) : Cluster ι :=
  { connectors := fun i => { hasCoordinator := coordinator i, maxShardmapRefreshes := refreshes i } }

variable (pointHash : String → UInt64)

section Steps

variable [DecidableEq ι]

/-- One connector takes a step. -/
def update (s : Cluster ι) (i : ι) (c : Connector) : Cluster ι :=
  { s with connectors := Function.update s.connectors i c }

def step (s : Cluster ι) : ClusterEvent ι → Cluster ι
  | .register node => { s with map := (s.map.registerNode node).2 }
  | .heartbeat id => { s with map := (s.map.heartbeat id).2 }
  | .resolve i key => s.update i ((s.connectors i).resolveOwner key)
  | .fetch i => s.update i ((s.connectors i).refreshShardMap s.map)
  | .rebuild i => s.update i ((s.connectors i).rebuildRing pointHash)

def run (s : Cluster ι) (events : List (ClusterEvent ι)) : Cluster ι := events.foldl (step pointHash) s

end Steps

/-! ### Versions name contents -/

/-- The map had these nodes when it was at this version, which is not after `v`. -/
structure Snapshot (history : ℕ → List NodeInfo) (v : UInt64) (map : ShardMap) : Prop where
  le : map.version ≤ v
  nodes : map.nodes = history map.version.toNat

/-- A connector whose ring, and whose copy on its way to one, are the map at their versions. -/
structure Fits (history : ℕ → List NodeInfo) (v : UInt64) (c : Connector) : Prop where
  ring : ∃ map, Snapshot history v map ∧ c.ring = HashRing.rebuild pointHash map
  pending : ∀ map, c.pending = some map → Snapshot history v map ∧ c.ring.version ≤ map.version

structure Consistent (history : ℕ → List NodeInfo) (s : Cluster ι) : Prop where
  proper : s.map.Proper
  current : s.map.nodes = history s.map.version.toNat
  fits : ∀ i, Fits pointHash history s.map.version (s.connectors i)

variable {pointHash} {history history' : ℕ → List NodeInfo} {s : Cluster ι} {v w : UInt64} {c : Connector}

theorem Snapshot.mono {map : ShardMap} (h : Snapshot history v map) (hle : v ≤ w)
    (hsame : ∀ n ≤ v.toNat, history' n = history n) : Snapshot history' w map where
  le := UInt64.le_trans h.le hle
  nodes := by rw [h.nodes, hsame _ (UInt64.le_iff_toNat_le.mp h.le)]

theorem Fits.mono (h : Fits pointHash history v c) (hle : v ≤ w)
    (hsame : ∀ n ≤ v.toNat, history' n = history n) : Fits pointHash history' w c where
  ring := by
    obtain ⟨map, hmap, hring⟩ := h.ring
    exact ⟨map, hmap.mono hle hsame, hring⟩
  pending map hmap := ⟨(h.pending map hmap).1.mono hle hsame, (h.pending map hmap).2⟩

theorem Fits.version_le (h : Fits pointHash history v c) : c.ring.version ≤ v := by
  obtain ⟨map, hmap, hring⟩ := h.ring
  rw [hring]
  exact hmap.le

theorem Fits.resolveOwner (h : Fits pointHash history v c) (key : BlockKey) :
    Fits pointHash history v (c.resolveOwner key) := by
  obtain ⟨hring, hpending⟩ := c.resolveOwner_cases key
  refine ⟨hring ▸ h.ring, fun map hmap => ?_⟩
  rcases hpending with hnone | hsame
  · rw [hnone] at hmap; cases hmap
  · rw [hsame] at hmap; exact hring ▸ h.pending map hmap

theorem Fits.refreshShardMap {map : ShardMap} (h : Fits pointHash history map.version c)
    (hcurrent : map.nodes = history map.version.toNat) :
    Fits pointHash history map.version (c.refreshShardMap map) := by
  obtain ⟨hring, hpending⟩ := c.refreshShardMap_cases map
  refine ⟨hring ▸ h.ring, fun copy hcopy => ?_⟩
  rcases hpending with hnone | hfetched | hsame
  · rw [hnone] at hcopy; cases hcopy
  · rw [hfetched] at hcopy
    cases hcopy
    exact ⟨⟨UInt64.le_refl _, hcurrent⟩, hring ▸ h.version_le⟩
  · rw [hsame] at hcopy; exact hring ▸ h.pending copy hcopy

theorem Fits.rebuildRing (h : Fits pointHash history v c) :
    Fits pointHash history v (c.rebuildRing pointHash) := by
  obtain ⟨hnone, hring⟩ := c.rebuildRing_cases pointHash
  refine ⟨?_, fun map hmap => by rw [hnone] at hmap; cases hmap⟩
  rcases hring with hsame | ⟨map, hmap, hring⟩
  · exact hsame ▸ h.ring
  · exact ⟨map, (h.pending map hmap).1, hring⟩

/-- A rebuilt ring is not older. -/
theorem Fits.version_rebuildRing (h : Fits pointHash history v c) :
    c.ring.version ≤ (c.rebuildRing pointHash).ring.version := by
  rcases (c.rebuildRing_cases pointHash).2 with hsame | ⟨map, hmap, hring⟩
  · rw [hsame]; exact UInt64.le_refl _
  · rw [hring]; exact (h.pending map hmap).2

/-- Two rings of one version route alike. -/
theorem Fits.owner_eq {d : Connector} (hc : Fits pointHash history v c) (hd : Fits pointHash history v d)
    (hversion : c.ring.version = d.ring.version) (key : BlockKey) : c.ring.owner key = d.ring.owner key := by
  obtain ⟨map, hmap, hring⟩ := hc.ring
  obtain ⟨map', hmap', hring'⟩ := hd.ring
  have hsame : map.version = map'.version := by rw [hring, hring'] at hversion; exact hversion
  rw [hring, hring']
  exact HashRing.owner_eq_of_nodes (by rw [hmap.nodes, hmap'.nodes, hsame]) key

theorem consistent_fresh (coordinator : ι → Bool) (refreshes : ι → ℤ) :
    Consistent pointHash (fun _ => []) (fresh coordinator refreshes) where
  proper := ⟨List.nodup_nil, List.not_mem_nil⟩
  current := rfl
  fits _ := ⟨⟨{}, ⟨UInt64.le_refl _, rfl⟩, rfl⟩, fun _ h => by cases h⟩

variable [DecidableEq ι]

theorem Consistent.update (h : Consistent pointHash history s) {i : ι}
    (hc : Fits pointHash history s.map.version c) : Consistent pointHash history (s.update i c) where
  proper := h.proper
  current := h.current
  fits j := by
    by_cases hj : j = i
    · subst hj; simpa [Cluster.update] using hc
    · simpa [Cluster.update, hj] using h.fits j

/-- An accepted registration opens a new version; the versions before it keep their contents. -/
theorem Consistent.register (h : Consistent pointHash history s) (node : NodeInfo)
    (hroom : s.map.version.toNat + 1 < UInt64.size) :
    ∃ history', Consistent pointHash history' (s.step pointHash (.register node)) ∧
      (s.step pointHash (.register node)).map.version.toNat ≤ s.map.version.toNat + 1 := by
  have hproper := h.proper.registerNode node
  rcases s.map.registerNode_cases node with heq | ⟨-, heq⟩
  · refine ⟨history, ?_, ?_⟩ <;> rw [step, heq]
    · exact h
    · exact Nat.le_succ _
  · have hnext : (s.map.version + 1).toNat = s.map.version.toNat + 1 := by
      rw [UInt64.toNat_add]
      exact Nat.mod_eq_of_lt hroom
    have hle : s.map.version ≤ s.map.version + 1 := UInt64.le_iff_toNat_le.mpr (by omega)
    have hsame : ∀ n ≤ s.map.version.toNat,
        Function.update history (s.map.version + 1).toNat (ShardMap.upsertNode node s.map.nodes) n =
        history n :=
      fun n hn => Function.update_of_ne (by omega) _ _
    have hnew : ShardMap.upsertNode node s.map.nodes = Function.update history (s.map.version + 1).toNat
        (ShardMap.upsertNode node s.map.nodes) (s.map.version + 1).toNat := by rw [Function.update_self]
    rw [step, heq]
    rw [heq] at hproper
    exact ⟨_, ⟨hproper, hnew, fun i => (h.fits i).mono hle hsame⟩, hnext.le⟩

/-- STEP: a version goes on naming one list of nodes, and no ring gets older. -/
theorem Consistent.step (h : Consistent pointHash history s) (e : ClusterEvent ι)
    (hroom : s.map.version.toNat + e.registrations < UInt64.size) :
    (∃ history', Consistent pointHash history' (s.step pointHash e)) ∧
      (s.step pointHash e).map.version.toNat ≤ s.map.version.toNat + e.registrations ∧
      ∀ i, (s.connectors i).ring.version ≤ ((s.step pointHash e).connectors i).ring.version := by
  have hkept : ∀ i c, (s.connectors i).ring.version ≤ c.ring.version →
      ∀ j, (s.connectors j).ring.version ≤ ((s.update i c).connectors j).ring.version := by
    intro i c hle j
    by_cases hj : j = i
    · subst hj; simpa [Cluster.update] using hle
    · simp [Cluster.update, hj]
  cases e with
  | register node =>
    obtain ⟨history', hcons, hversion⟩ := h.register node hroom
    exact ⟨⟨history', hcons⟩, hversion, fun i => UInt64.le_refl _⟩
  | heartbeat id =>
    rw [Cluster.step, ShardMap.heartbeat_map]
    exact ⟨⟨history, h⟩, Nat.le_refl _, fun i => UInt64.le_refl _⟩
  | resolve i key =>
    refine ⟨⟨history, h.update ((h.fits i).resolveOwner key)⟩, Nat.le_refl _, hkept i _ ?_⟩
    rw [((s.connectors i).resolveOwner_cases key).1]
    exact UInt64.le_refl _
  | fetch i =>
    refine ⟨⟨history, h.update ((h.fits i).refreshShardMap h.current)⟩, Nat.le_refl _, hkept i _ ?_⟩
    rw [((s.connectors i).refreshShardMap_cases s.map).1]
    exact UInt64.le_refl _
  | rebuild i =>
    exact ⟨⟨history, h.update (h.fits i).rebuildRing⟩, Nat.le_refl _,
      hkept i _ (h.fits i).version_rebuildRing⟩

/-- RUN: the same along every interleaving with versions to spare. -/
theorem Consistent.run (h : Consistent pointHash history s) (events : List (ClusterEvent ι))
    (hroom : s.map.version.toNat + registrations events < UInt64.size) :
    (∃ history', Consistent pointHash history' (s.run pointHash events)) ∧
      (s.run pointHash events).map.version.toNat ≤ s.map.version.toNat + registrations events ∧
      ∀ i, (s.connectors i).ring.version ≤ ((s.run pointHash events).connectors i).ring.version := by
  induction events generalizing s history with
  | nil => exact ⟨⟨history, h⟩, Nat.le_refl _, fun i => UInt64.le_refl _⟩
  | cons e es ih =>
    rw [registrations] at hroom ⊢
    obtain ⟨⟨history₁, h₁⟩, hversion₁, hring₁⟩ := h.step e (by omega)
    obtain ⟨hcons, hversion, hring⟩ := ih h₁ (by omega)
    exact ⟨hcons, by rw [Cluster.run, List.foldl_cons]; exact hversion.trans (by omega),
      fun i => UInt64.le_trans (hring₁ i) (hring i)⟩

/-- AGREEMENT: in every interleaving with fewer than `2^64` registrations, ids are unique and not empty, no
    ring is ahead of the coordinator or falls back, and rings of one version route every key alike. -/
theorem equal_versions_route_alike (pointHash : String → UInt64) (coordinator : ι → Bool) (refreshes : ι → ℤ)
    (events : List (ClusterEvent ι)) (hfew : registrations events < 2 ^ 64) :
    let s := (fresh coordinator refreshes).run pointHash events
    (s.map.nodes.map (·.id)).Nodup ∧ "" ∉ s.map.nodes.map (·.id) ∧
      (∀ i, (s.connectors i).ring.version ≤ s.map.version) ∧
      (∀ earlier later, events = earlier ++ later → ∀ i,
        (((fresh coordinator refreshes).run pointHash earlier).connectors i).ring.version ≤
          (s.connectors i).ring.version) ∧
      ∀ i j, (s.connectors i).ring.version = (s.connectors j).ring.version →
        ∀ key, (s.connectors i).ring.owner key = (s.connectors j).ring.owner key := by
  intro s
  have hfresh : Consistent pointHash (fun _ => []) (fresh coordinator refreshes) := consistent_fresh ..
  have hzero : (fresh coordinator refreshes).map.version.toNat = 0 := rfl
  obtain ⟨⟨history, hcons⟩, -, -⟩ := hfresh.run events (by rw [hzero, Nat.zero_add]; exact hfew)
  refine ⟨hcons.proper.unique, hcons.proper.named, fun i => (hcons.fits i).version_le, ?_,
    fun i j hversion key => (hcons.fits i).owner_eq (hcons.fits j) hversion key⟩
  rintro earlier later rfl i
  rw [registrations_append] at hfew
  have hsize : (2 : ℕ) ^ 64 = UInt64.size := rfl
  obtain ⟨⟨_, hmid⟩, hversion, -⟩ := hfresh.run earlier (by omega)
  have hlater := (hmid.run later (by omega)).2.2 i
  rwa [Cluster.run, Cluster.run, ← List.foldl_append] at hlater

/-- A node registers between the fetch and the rebuild of one connector, whose ring is then a version behind
    and routes by it; the other connector fetches later. -/
theorem equal_versions_route_alike_race :
    let events : List (ClusterEvent Bool) := [
      .register ⟨"a", "", 1, true⟩, .resolve true ⟨7, 0, 0⟩, .fetch true, .register ⟨"b", "", 1, true⟩,
      .rebuild true, .heartbeat "b", .resolve false ⟨7, 0, 0⟩, .fetch false, .rebuild false]
    let s := (fresh (fun _ => true) fun _ => 1).run (fun label => if label = "a#0" then 5 else 9) events
    (s.connectors true).ring.version = 1 ∧ (s.connectors false).ring.version = 2 ∧
      (s.connectors true).ring.owner ⟨7, 0, 0⟩ = .ok "a" ∧
      (s.connectors false).ring.owner ⟨7, 0, 0⟩ = .ok "b" ∧ (s.map.nodes.map (·.id)).Nodup := by
  intro events s
  exact ⟨by decide, by decide, by decide, by decide,
    (equal_versions_route_alike _ _ _ events (by decide)).1⟩

end Cluster

end TidePool
