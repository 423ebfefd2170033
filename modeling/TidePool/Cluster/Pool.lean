import TidePool.Cluster.Sites

/-! The pool: one coordinator and any number of connectors, each of them next to a storage node or alone.

    A connector asks the coordinator only while its ring is empty, so the first refresh that finds a live node
    is the last: from then on it routes by one ring, whatever joins or leaves.

        connector i   ring_i: ∅ ────first request that finds a node────▶ fixed
                      key owned by i  ──▶ its own node: closed, `kUnavailable`; open, a map
                      any other key   ──▶ the transport, which refuses

    Connectors meet only in the coordinator's map. Over any interleaving each is a map of its own, for the
    keys its own ring gives it; two that froze different rings may both take a key. When the membership is
    settled before any connector's first request all rings are alike, every key has one place, and the
    pool is one map. -/

namespace TidePool

open Schemes Store

/-! ### Routing -/

namespace Connector

variable {pointHash : String → UInt64} {map : ShardMap}

/-- The ring that a request is routed by. -/
def routed (pointHash : String → UInt64) (map : ShardMap) (ring : HashRing) : HashRing :=
  if ring.empty then HashRing.rebuild pointHash map else ring

/-- The retries all see the same map. -/
theorem retryAlone_spec (key : BlockKey) (left : ℕ) (c : Connector) (hc : c.hasCoordinator = true)
    (hring : c.ring = HashRing.rebuild pointHash map) : ∃ c', retryAlone pointHash map key left c =
      (c.ring.owner key, c') ∧ c'.ring = c.ring ∧ c'.hasCoordinator = true := by
  induction left generalizing c with
  | zero => exact ⟨c, rfl, rfl, hc⟩
  | succ left ih =>
    simp only [retryAlone]
    cases howner : c.ring.owner key with
    | ok id => exact ⟨c, rfl, rfl, hc⟩
    | error e =>
      obtain ⟨c', heq, hsame, hc'⟩ := ih { c with ring := HashRing.rebuild pointHash map } hc rfl
      rw [← hring] at heq hsame
      rw [howner] at heq
      refine ⟨c', ?_, hsame, hc'⟩
      simpa only [refreshThen, refreshShardMapAlone, hc, Bool.not_true, Bool.false_eq_true, if_false,
        ← hring] using heq

/-- RESOLVE: a ring that is not empty is used as it is, an empty one is rebuilt first. -/
theorem resolveOwnerAlone_spec (c : Connector) (hc : c.hasCoordinator = true) (map : ShardMap)
    (key : BlockKey) :
    ∃ c', c.resolveOwnerAlone pointHash map key = ((routed pointHash map c.ring).owner key, c') ∧
      c'.ring = routed pointHash map c.ring ∧ c'.hasCoordinator = true := by
  cases hempty : c.ring.empty with
  | true =>
    obtain ⟨c', heq, hring, hc'⟩ := retryAlone_spec key c.maxShardmapRefreshes.toNat
      { c with ring := HashRing.rebuild pointHash map } hc rfl
    refine ⟨c', ?_, by simpa only [routed, hempty, if_true] using hring, hc'⟩
    simpa only [resolveOwnerAlone, routed, hempty, if_true, refreshThen, refreshShardMapAlone, hc,
      Bool.not_true, Bool.false_eq_true, if_false] using heq
  | false =>
    have hrouted : routed pointHash map c.ring = c.ring := by
      simp only [routed, hempty, Bool.false_eq_true, if_false]
    rw [hrouted]
    cases howner : c.ring.owner key with
    | ok id => exact ⟨c, resolveOwnerAlone_of_ok howner, rfl, hc⟩
    | error e =>
      have hnil := (HashRing.owner_eq_error howner).2
      simp [HashRing.empty, hnil] at hempty

end Connector

/-! ### The pool -/

/-- The coordinator's map and the connectors. -/
structure Pool (ι τ π θ : Type) where
  map : ShardMap := {}
  clients : ι → Client τ π θ

/-- A heartbeat, or a call made at a connector; a registration goes to the coordinator, whoever makes it. -/
inductive PoolCall (ι : Type) where
  | heartbeat (id : NodeId)
  | on (i : ι) (call : DeploymentCall)

/-- The shard map's version, or what the connector returned. -/
inductive PoolReply where
  | version (r : Result UInt64)
  | reply (o : NodeReply)

/-- A call that changes the members. -/
def PoolCall.Registers {ι : Type} (call : PoolCall ι) : Prop := ∃ i node, call = .on i (.register node)

section Step

variable {ι τ π θ : Type} [DecidableEq ι] [Tier τ] [EvictionPolicy π] [Transport θ]

/-- One call, from its start to its return. -/
def Pool.step (pointHash : String → UInt64) (s : Pool ι τ π θ) :
    PoolCall ι → Except Halt (PoolReply × Pool ι τ π θ)
  | .heartbeat id => .ok (.version (s.map.heartbeat id).1, { s with map := (s.map.heartbeat id).2 })
  | .on i call =>
    (({ map := s.map, client := s.clients i } : Deployment τ π θ).step pointHash call).map fun (o, d) =>
      (.reply o, { map := d.map, clients := Function.update s.clients i d.client })

end Step

/-- A pool whose connectors have not been used. -/
def Pool.start {ι σ : Type} (map : ShardMap) (sites : ι → Site σ) :
    Pool ι (DramTier ⊕ σ) Policy TcpTransport where
  map := map
  clients i := (sites i).client

/-! ### Maps in place of nodes -/

/-- What a connector is to its callers: the ring it routes by, whether its node is open, and the blocks it has
    taken. -/
structure Share where
  ring : HashRing := {}
  session : Session (BlockKey → Option Block)

/-- `Get` or `Put`. -/
def DeploymentCall.isRequest : DeploymentCall → Bool
  | .get _ _ _ | .put _ _ => true
  | _ => false

/-- A request leaves the ring it was routed by. -/
def Share.record (share : Share) (ring : HashRing) (call : DeploymentCall) (o : NodeReply) : Share where
  ring := if call.isRequest then ring else share.ring
  session := recordSite share.session call o

/-- The pool with a map in place of every node. -/
structure PoolView (ι : Type) where
  map : ShardMap := {}
  shares : ι → Share

namespace PoolView

variable {ι σ : Type} (pointHash : String → UInt64)

/-- The ring that a request at `i` is routed by. -/
def ringAt (v : PoolView ι) (i : ι) : HashRing := Connector.routed pointHash v.map (v.shares i).ring

def Replies [ColdView σ] (sites : ι → Site σ) (v : PoolView ι) : PoolCall ι → PoolReply → Prop
  | .heartbeat id, .version r => r = (v.map.heartbeat id).1
  | .on _ (.register node), .reply o => o = .status (v.map.registerNode node).1
  | .on i call, .reply o => (sites i).Replies (v.shares i).session (v.ringAt pointHash i).owner call o
  | _, _ => False

def record [DecidableEq ι] (v : PoolView ι) : PoolCall ι → PoolReply → PoolView ι
  | .on _ (.register node), _ => { v with map := (v.map.registerNode node).2 }
  | .on i call, .reply o =>
    { v with shares := Function.update v.shares i ((v.shares i).record (v.ringAt pointHash i) call o) }
  | _, _ => v

/-- Empty rings, closed nodes, and the blocks that are on disk. -/
def start [ColdView σ] (map : ShardMap) (sites : ι → Site σ) : PoolView ι where
  map := map
  shares i := { session := (sites i).session }

end PoolView

/-! ### One connector -/

namespace Site

variable {σ : Type} [ColdTier σ] {site : Site σ} {c : Client (DramTier ⊕ σ) Policy TcpTransport}
    {share : Share}

/-- A connector that routes by the ring of its share, and whose node stands for the blocks of it. -/
structure Keeps (site : Site σ) (c : Client (DramTier ⊕ σ) Policy TcpTransport) (share : Share) : Prop where
  coordinator : c.connector.hasCoordinator = true
  ring : c.connector.ring = share.ring
  hosts : site.Hosts c share.session

/-- What a request finds once its owner is looked up. -/
theorem Keeps.resolve (hk : site.Keeps c share) (pointHash : String → UInt64) (map : ShardMap)
    (k : BlockKey) :
    ∃ c', site.Keeps c' { share with ring := Connector.routed pointHash map share.ring } ∧
      ∀ {α : Type} (refuse : Status → α) serve, c.request pointHash map k refuse serve =
        match (Connector.routed pointHash map share.ring).owner k with
        | .error s => .ok (refuse s, c')
        | .ok owner => serve c' owner := by
  obtain ⟨connector, hresolve, hring, hc⟩ := c.connector.resolveOwnerAlone_spec hk.coordinator map k
  rw [hk.ring] at hresolve hring
  refine ⟨{ c with connector }, ⟨hc, hring, hk.hosts.routed connector⟩, fun refuse serve => ?_⟩
  simp only [Client.request, hresolve]
  cases (Connector.routed pointHash map share.ring).owner k <;> rfl

omit [ColdTier σ] in
theorem refused_of_error (site : Site σ) {ring : HashRing} {k : BlockKey} {e : Status}
    (h : ring.owner k = .error e) : ¬ site.Serves (ring.owner k) ∧ Refused (ring.owner k) e := by
  rw [h]
  refine ⟨by simp [Serves], ?_⟩
  rw [(HashRing.owner_eq_error h).1]
  rfl

theorem Keeps.get (hk : site.Keeps c share) (pointHash : String → UInt64) (map : ShardMap) (k : BlockKey)
    (dst : MutableBuffer) (out : Option BlockView) :
    ∃ r out' c', c.get pointHash map k dst out = .ok ((r, out'), c') ∧
      site.Replies share.session (Connector.routed pointHash map share.ring).owner (.get k dst out)
      (.view r out') ∧
      site.Keeps c' { share with ring := Connector.routed pointHash map share.ring } := by
  obtain ⟨c₁, hk₁, hrequest⟩ := hk.resolve pointHash map k
  simp only [Client.get, hrequest]
  cases howner : (Connector.routed pointHash map share.ring).owner k with
  | error e =>
    obtain ⟨hnot, hrefused⟩ := refused_of_error site howner
    exact ⟨.error e, out, c₁, rfl, ⟨fun hserves => absurd hserves hnot, fun _ => ⟨e, hrefused, rfl⟩⟩, hk₁⟩
  | ok owner =>
    obtain ⟨r, out', node, heq, hreply, hhosts⟩ := hk₁.hosts.getFrom _ howner dst out
    exact ⟨r, out', _, heq, hreply, hk₁.coordinator, hk₁.ring, hhosts⟩

theorem Keeps.put (hk : site.Keeps c share) (pointHash : String → UInt64) (map : ShardMap) (k : BlockKey)
    (b : Block) : ∃ r c', c.put pointHash map k b = .ok (r, c') ∧
      site.Replies share.session (Connector.routed pointHash map share.ring).owner (.put k b) (.status r) ∧
      site.Keeps c' (share.record (Connector.routed pointHash map share.ring) (.put k b) (.status r)) := by
  obtain ⟨c₁, hk₁, hrequest⟩ := hk.resolve pointHash map k
  simp only [Client.put, hrequest]
  cases howner : (Connector.routed pointHash map share.ring).owner k with
  | error e =>
    obtain ⟨hnot, hrefused⟩ := refused_of_error site howner
    exact ⟨.error e, c₁, rfl, ⟨fun hserves => absurd hserves hnot, fun _ => ⟨e, hrefused, rfl⟩⟩, hk₁⟩
  | ok owner =>
    obtain ⟨r, node, heq, hreply, hhosts⟩ := hk₁.hosts.putTo _ howner b
    exact ⟨r, _, heq, hreply, hk₁.coordinator, hk₁.ring, hhosts⟩

/-- STEP: every call at one connector replies for its share. -/
theorem Keeps.step (hk : site.Keeps c share) (pointHash : String → UInt64) (map : ShardMap)
    {call : DeploymentCall} (hcall : ∀ node, call ≠ .register node) :
    ∃ o c', ({ map, client := c } : Deployment _ _ _).step pointHash call = .ok (o, { map, client := c' }) ∧
      site.Replies share.session (Connector.routed pointHash map share.ring).owner call o ∧
      site.Keeps c' (share.record (Connector.routed pointHash map share.ring) call o) := by
  cases call with
  | register node => exact absurd rfl (hcall node)
  | openNode env =>
    obtain ⟨o, node, heq, hown, haway, hhosts⟩ :=
      hk.hosts.control map (.openNode env) (·.openNode env) fun n => rfl
    exact ⟨o, _, congrArg Except.ok heq, ⟨hown, haway⟩, hk.coordinator, hk.ring, hhosts⟩
  | closeNode =>
    obtain ⟨o, node, heq, hown, haway, hhosts⟩ := hk.hosts.control map .closeNode (·.closeNode) fun n => rfl
    exact ⟨o, _, congrArg Except.ok heq, ⟨hown, haway⟩, hk.coordinator, hk.ring, hhosts⟩
  | get k dst out =>
    obtain ⟨r, out', c', heq, hreply, hk'⟩ := hk.get pointHash map k dst out
    exact ⟨.view r out', c', by simp only [Deployment.step, heq]; rfl, hreply, hk'⟩
  | put k b =>
    obtain ⟨r, c', heq, hreply, hk'⟩ := hk.put pointHash map k b
    exact ⟨.status r, c', by simp only [Deployment.step, heq]; rfl, hreply, hk'⟩

end Site

/-! ### Any interleaving -/

namespace PoolView

variable {ι σ : Type} {pointHash : String → UInt64} {sites : ι → Site σ} {v : PoolView ι} {i : ι}
  {call : DeploymentCall} {o : NodeReply}

theorem replies_at [ColdView σ] (hcall : ∀ node, call ≠ .register node) :
    v.Replies pointHash sites (.on i call) (.reply o) ↔
      (sites i).Replies (v.shares i).session (v.ringAt pointHash i).owner call o := by
  cases call with
  | register node => exact absurd rfl (hcall node)
  | _ => rfl

theorem record_at [DecidableEq ι] (hcall : ∀ node, call ≠ .register node) :
    v.record pointHash (.on i call) (.reply o) =
      { v with
        shares := Function.update v.shares i ((v.shares i).record (v.ringAt pointHash i) call o) } := by
  cases call with
  | register node => exact absurd rfl (hcall node)
  | _ => rfl

/-- A ring with an owner stays. -/
theorem record_ring [DecidableEq ι] {j : ι} {ring : HashRing} (hempty : ring.empty = false)
    (h : (v.shares j).ring = ring) (call : PoolCall ι) (o : PoolReply) :
    ((v.record pointHash call o).shares j).ring = ring := by
  cases call with
  | heartbeat id => exact h
  | on i call =>
    by_cases hcall : ∃ node, call = .register node
    · obtain ⟨node, rfl⟩ := hcall
      exact h
    cases o with
    | version r =>
      cases call <;> exact h
    | reply o =>
      rw [record_at fun node hnode => hcall ⟨node, hnode⟩]
      by_cases hj : j = i
      · subst hj
        have hrouted : v.ringAt pointHash j = ring := by
          simp only [ringAt, Connector.routed, h, hempty, Bool.false_eq_true, if_false]
        simp only [Function.update_self, Share.record, hrouted, h, ite_self]
      · simpa only [Function.update_of_ne hj] using h

end PoolView

namespace Pool

variable {ι σ : Type} [ColdTier σ] {sites : ι → Site σ} {s : Pool ι (DramTier ⊕ σ) Policy TcpTransport}
  {v : PoolView ι}

/-- Every connector keeps its share. -/
structure Keeps (sites : ι → Site σ) (s : Pool ι (DramTier ⊕ σ) Policy TcpTransport) (v : PoolView ι) :
    Prop where
  map : s.map = v.map
  clients : ∀ i, (sites i).Keeps (s.clients i) (v.shares i)

theorem start_keeps (hintact : ∀ i x, (sites i).home = some x → x.Intact) (map : ShardMap) :
    Keeps sites (start map sites) (PoolView.start map sites) :=
  ⟨rfl, fun i => ⟨rfl, rfl, Site.client_hosts (hintact i)⟩⟩

variable [DecidableEq ι]

/-- STEP: a call at one connector is nothing to the others. -/
theorem step_keeps (pointHash : String → UInt64) (hk : Keeps sites s v) (call : PoolCall ι) :
    ∃ o s', s.step pointHash call = .ok (o, s') ∧ v.Replies pointHash sites call o ∧
      Keeps sites s' (v.record pointHash call o) := by
  cases call with
  | heartbeat id =>
    refine ⟨_, _, rfl, congrArg (fun m => (ShardMap.heartbeat m id).1) hk.map, ?_⟩
    rw [ShardMap.heartbeat_map]
    exact hk
  | on i call =>
    by_cases hcall : ∃ node, call = .register node
    · obtain ⟨node, rfl⟩ := hcall
      refine ⟨_, _, rfl, ?_, congrArg (fun m => (ShardMap.registerNode m node).2) hk.map, fun j => ?_⟩
      · exact congrArg (fun m => NodeReply.status (ShardMap.registerNode m node).1) hk.map
      · simp only [Function.update_eq_self]
        exact hk.clients j
    · have hcall : ∀ node, call ≠ .register node := fun node hnode => hcall ⟨node, hnode⟩
      obtain ⟨o, c', heq, hreply, hk'⟩ := (hk.clients i).step pointHash v.map hcall
      refine ⟨.reply o, ⟨v.map, Function.update s.clients i c'⟩, ?_,
        (PoolView.replies_at hcall).mpr hreply, ?_⟩
      · simp only [step, hk.map, heq]; rfl
      · rw [PoolView.record_at hcall]
        refine ⟨rfl, fun j => ?_⟩
        by_cases hj : j = i
        · subst hj
          simp only [Function.update_self]
          exact hk'
        · simpa only [Function.update_of_ne hj] using hk.clients j

/-- RUN: over any interleaving every connector replies for its share. -/
theorem run_keeps (pointHash : String → UInt64) (hk : Keeps sites s v) (calls : List (PoolCall ι)) :
    ∃ replies s', run (step pointHash) s calls = .ok (replies, s') ∧
      Accounts (PoolView.Replies pointHash sites) (PoolView.record pointHash) v calls replies ∧
      Keeps sites s' (follow (PoolView.record pointHash) v calls replies) := by
  have hstep : ∀ (s : Pool ι (DramTier ⊕ σ) Policy TcpTransport) (v : PoolView ι) (call : PoolCall ι), True →
      Keeps sites s v → Yields True (s.step pointHash call) fun res =>
        v.Replies pointHash sites call res.1 ∧ Keeps sites res.2 (v.record pointHash call res.1) := by
    intro s v call _ hk
    obtain ⟨o, s', heq, hreply, hk'⟩ := step_keeps pointHash hk call
    rw [heq]
    exact ⟨hreply, hk'⟩
  obtain ⟨⟨replies, s'⟩, heq, haccounts, hk'⟩ :=
    (run_accounts hstep calls (fun _ _ => trivial) hk).answer trivial
  exact ⟨replies, s', heq, haccounts, hk'⟩

/-- SHARES: over any interleaving of registrations, heartbeats, requests at any connectors, and nodes
    opened and closed, every call returns; a connector refuses the keys its ring gives to others, and for
    its own it replies as its node does: closed it turns them away, open it is a map of the blocks it has
    taken; and a ring that is not empty is never replaced. -/
theorem pool_keeps_shares (pointHash : String → UInt64) (map : ShardMap) (sites : ι → Site σ)
    (hintact : ∀ i x, (sites i).home = some x → x.Intact) (earlier later : List (PoolCall ι)) :
    ∃ os t os' s', run (step pointHash) (start map sites) earlier = .ok (os, t) ∧
      run (step pointHash) t later = .ok (os', s') ∧
      Accounts (PoolView.Replies pointHash sites) (PoolView.record pointHash) (.start map sites)
        (earlier ++ later) (os ++ os') ∧
      ∀ i, (t.clients i).connector.ring.empty = false →
        (s'.clients i).connector.ring = (t.clients i).connector.ring := by
  obtain ⟨os, t, hearlier, haccounts, ht⟩ := run_keeps pointHash (start_keeps hintact map) earlier
  obtain ⟨os', s', hlater, haccounts', hs'⟩ := run_keeps pointHash ht later
  refine ⟨os, t, os', s', hearlier, hlater, accounts_append haccounts haccounts', fun i hempty => ?_⟩
  rw [(hs'.clients i).ring]
  exact follow_keeps (P := fun v : PoolView ι => (v.shares i).ring = (t.clients i).connector.ring)
    (fun v call o h => PoolView.record_ring hempty h call o) _ _ (ht.clients i).ring.symm

/-- Two connectors with a node each, one of them in DRAM alone. -/
def twoSites : Bool → Site MapTier
  | false => { self := "a", home := some (.disk { id := "a", layout := .tiered 1 .lru, ssd := {} }) }
  | true => { self := "b", home := some (.dram "b" 1 (.arc 1) {}) }

theorem twoSites_intact : ∀ i x, (twoSites i).home = some x → x.Intact := by
  intro i x hx
  cases i <;> cases hx <;> trivial

/-- Node "a" joins and takes a block, and node "b" joins. -/
def twoJoin : List (PoolCall Bool) :=
  [.on false (.register ⟨"a", "", 1, true⟩), .on false (.openNode {}),
    .on false (.put ⟨7, 1, 7⟩ Deployment.smallBlock), .heartbeat "a", .on true (.register ⟨"b", "", 1, true⟩)]

theorem pool_keeps_shares_two : ∃ os t os' s',
    run (step fun _ => 0) (start {} twoSites) twoJoin = .ok (os, t) ∧
    run (step fun _ => 0) t [.on false (.get ⟨7, 1, 7⟩ ⟨true, 1⟩ (some {}))] = .ok (os', s') ∧
    (s'.clients false).connector.ring = (t.clients false).connector.ring := by
  obtain ⟨os, t, os', s', hearlier, hlater, -, hring⟩ := pool_keeps_shares (fun _ => 0) {} twoSites
    twoSites_intact twoJoin [.on false (.get ⟨7, 1, 7⟩ ⟨true, 1⟩ (some {}))]
  refine ⟨os, t, os', s', hearlier, hlater, hring false ?_⟩
  cases hearlier
  rfl

/-! ### Settled membership -/

/-- Connectors with a node have ids of their own. -/
def Distinct (sites : ι → Site σ) : Prop :=
  ∀ i j, (sites i).home.isSome = true → (sites j).home.isSome = true → (sites i).self = (sites j).self → i = j

end Pool

/-- Which nodes are open, and the blocks of all of them. -/
structure Pooled (ι : Type) where
  opened : ι → Bool := fun _ => false
  blocks : BlockKey → Option Block

namespace Pooled

variable {ι σ : Type}

/-- What the pool is at one connector. -/
def session (p : Pooled ι) (i : ι) : Session (BlockKey → Option Block) := ⟨p.opened i, p.blocks⟩

/-- The replies of a pool that is one map, routed by one shard map. -/
def Replies [ColdView σ] (pointHash : String → UInt64) (map : ShardMap) (sites : ι → Site σ) (p : Pooled ι) :
    PoolCall ι → PoolReply → Prop
  | .heartbeat id, .version r => r = (map.heartbeat id).1
  | .on i call, .reply o => (sites i).Replies (p.session i) (HashRing.rebuild pointHash map).owner call o
  | _, _ => False

/-- An acknowledged `Put` sets its key, wherever it was made. -/
def record [DecidableEq ι] (p : Pooled ι) : PoolCall ι → PoolReply → Pooled ι
  | .on i call, .reply o =>
    { opened := Function.update p.opened i (recordSite (p.session i) call o).opened
      blocks := (recordSite (p.session i) call o).store }
  | _, _ => p

end Pooled

namespace Pool

variable {ι σ : Type} [ColdTier σ] {sites : ι → Site σ} {v : PoolView ι} {p : Pooled ι}

/-- Every key has one place: where its owner is. What a node holds of the others' keys is what it found. -/
structure Together (pointHash : String → UInt64) (map : ShardMap) (sites : ι → Site σ) (v : PoolView ι)
    (p : Pooled ι) : Prop where
  settled : v.map = map
  rings : ∀ i, v.ringAt pointHash i = HashRing.rebuild pointHash map
  opened : ∀ i, (v.shares i).session.opened = p.opened i
  own : ∀ i k, (sites i).Serves ((HashRing.rebuild pointHash map).owner k) →
    (v.shares i).session.store k = p.blocks k
  others : ∀ i x k, (sites i).home = some x → ¬ (sites i).Serves ((HashRing.rebuild pointHash map).owner k) →
    (v.shares i).session.store k = x.found k

/-- A reply of a connector looks at the blocks of its own keys, and at the others only for what they may
    keep it from taking. -/
theorem replies_congr {site : Site σ} {s s' : Session (BlockKey → Option Block)}
    {owner : BlockKey → Result NodeId}
    {call : DeploymentCall} {o : NodeReply} (hopened : s.opened = s'.opened)
    (hown : ∀ k, site.Serves (owner k) → s.store k = s'.store k)
    (hothers : ∀ x k, site.home = some x → ¬ site.Serves (owner k) → s.store k = x.found k)
    (h : site.Replies s owner call o) : site.Replies s' owner call o := by
  have htakes : ∀ x k b, site.home = some x → x.terms.takes s'.store k b → x.terms.takes s.store k b := by
    intro x k b hx h
    refine Home.takes_join h fun j => ?_
    by_cases hj : site.Serves (owner j)
    · exact .inl (hown j hj)
    · exact .inr (hothers x j hx hj)
  have hcongr : ∀ c : NodeCall, (∀ k, c.key? = some k → site.Serves (owner k)) → site.Own s c o →
      site.Own s' c o := by
    intro c hc h x hx
    rw [← hopened]
    exact (h x hx).congr (fun k hk => hown k (hc k hk)) fun k b _ => htakes x k b hx
  cases call with
  | register node => trivial
  | openNode env => exact ⟨hcongr _ (fun k hk => by cases hk) h.1, h.2⟩
  | closeNode => exact ⟨hcongr _ (fun k hk => by cases hk) h.1, h.2⟩
  | get k dst out =>
    exact ⟨fun hserves => hcongr _ (fun j hj => by obtain rfl := Option.some.inj hj; exact hserves)
      (h.1 hserves), h.2⟩
  | put k b =>
    exact ⟨fun hserves => hcongr _ (fun j hj => by obtain rfl := Option.some.inj hj; exact hserves)
      (h.1 hserves), h.2⟩

omit [ColdTier σ] in
/-- Whether a node is open, and what it has of a key, are told by what they were and the reply. -/
theorem recordSite_congr {s s' : Session (BlockKey → Option Block)} (call : DeploymentCall) (o : NodeReply) :
    (s.opened = s'.opened → (recordSite s call o).opened = (recordSite s' call o).opened) ∧
      ∀ k, s.store k = s'.store k → (recordSite s call o).store k = (recordSite s' call o).store k := by
  simp only [recordSite]
  cases call.node? with
  | none => exact ⟨fun h => h, fun _ h => h⟩
  | some c =>
    refine ⟨fun h => by simp only [Session.record, h], fun k h => ?_⟩
    simp only [Session.record, TwoTier.recordPut]
    split
    · simp only [Function.update_apply, h]
    · exact h

/-- A key that a connector does not serve is not set by a call of its own. -/
theorem recordSite_unserved {site : Site σ} {s : Session (BlockKey → Option Block)}
    {owner : BlockKey → Result NodeId}
    {call : DeploymentCall} {o : NodeReply} (hreply : site.Replies s owner call o) {k : BlockKey}
    (hk : ¬ site.Serves (owner k)) (s' : Session (BlockKey → Option Block)) :
    (recordSite s' call o).store k = s'.store k := by
  cases call with
  | put k' b =>
    by_cases hserves : site.Serves (owner k')
    · have hne : k ≠ k' := fun h => hk (h ▸ hserves)
      cases o with
      | status r =>
        cases r with
        | ok _ => exact Function.update_of_ne hne _ _
        | error st => rfl
      | _ => rfl
    · obtain ⟨st, -, rfl⟩ := hreply.2 hserves
      rfl
  | _ => rfl

theorem routed_rebuild (pointHash : String → UInt64) (map : ShardMap) :
    Connector.routed pointHash map (HashRing.rebuild pointHash map) = HashRing.rebuild pointHash map := by
  simp only [Connector.routed, ite_self]

variable [DecidableEq ι]

/-- STEP: what holds the pool together is kept by every call that changes no membership. -/
theorem Together.step {pointHash : String → UInt64} {map : ShardMap} (hdistinct : Distinct sites)
    (h : Together pointHash map sites v p) {call : PoolCall ι} (hcall : ¬ call.Registers) {o : PoolReply}
    (hreply : v.Replies pointHash sites call o) :
    p.Replies pointHash map sites call o ∧
      Together pointHash map sites (v.record pointHash call o) (p.record call o) := by
  cases call with
  | heartbeat id =>
    cases o with
    | version r => exact ⟨h.settled ▸ hreply, h⟩
    | reply o => exact hreply.elim
  | on i call =>
    have hcall : ∀ node, call ≠ .register node := fun node hnode => hcall ⟨i, node, hnode ▸ rfl⟩
    cases o with
    | version r =>
      cases call with
      | register node => exact absurd rfl (hcall node)
      | _ => exact hreply.elim
    | reply o =>
      have hreply := (PoolView.replies_at hcall).mp hreply
      rw [h.rings i] at hreply
      refine ⟨replies_congr (h.opened i) (h.own i) (h.others i) hreply, ?_⟩
      rw [PoolView.record_at hcall]
      refine ⟨h.settled, fun j => ?_, fun j => ?_, fun j k hserves => ?_, fun j x k hx hserves => ?_⟩
      all_goals by_cases hj : j = i
      · subst hj
        have hrouted := h.rings j
        simp only [PoolView.ringAt, Function.update_self, h.settled, Share.record] at hrouted ⊢
        rw [hrouted]
        split
        · exact routed_rebuild pointHash map
        · exact hrouted
      · simpa only [PoolView.ringAt, Function.update_of_ne hj] using h.rings j
      · subst hj
        simp only [Pooled.record, Function.update_self]
        exact (recordSite_congr call o).1 (h.opened j)
      · simpa only [Pooled.record, Function.update_of_ne hj] using h.opened j
      · subst hj
        simp only [Pooled.record, Function.update_self]
        exact (recordSite_congr call o).2 k (h.own j k hserves)
      · have hother : ¬ (sites i).Serves ((HashRing.rebuild pointHash map).owner k) := fun hi =>
          hj (hdistinct j i hserves.1 hi.1 (Except.ok.inj (hserves.2.symm.trans hi.2)))
        simp only [Pooled.record, Function.update_of_ne hj]
        rw [recordSite_unserved hreply hother]
        exact h.own j k hserves
      · subst hj
        simp only [Function.update_self]
        exact (recordSite_unserved hreply hserves _).trans (h.others j x k hx hserves)
      · simpa only [Function.update_of_ne hj] using h.others j x k hx hserves

/-- ONE MAP: in a pool whose membership is settled before any connector's first request, and whose
    connectors with a node have ids of their own, all connectors together reply as one map: an
    acknowledged `Put`, wherever it was made, is what every later `Get` of the key finds that is not
    refused, wherever it is made. -/
theorem settled_pool_is_one_map (pointHash : String → UInt64) (map : ShardMap) (sites : ι → Site σ)
    (hintact : ∀ i x, (sites i).home = some x → x.Intact) (hdistinct : Distinct sites)
    (M : BlockKey → Option Block)
    (hM : ∀ i x k, (sites i).home = some x → (HashRing.rebuild pointHash map).owner k = .ok (sites i).self →
      x.found k = M k)
    (calls : List (PoolCall ι)) (hcalls : ∀ call ∈ calls, ¬ call.Registers) :
    ∃ replies s', run (step pointHash) (start map sites) calls = .ok (replies, s') ∧
      Accounts (Pooled.Replies pointHash map sites) Pooled.record { blocks := M } calls replies := by
  obtain ⟨replies, s', heq, haccounts, -⟩ := run_keeps pointHash (start_keeps hintact map) calls
  refine ⟨replies, s', heq, ?_⟩
  have hstart : Together pointHash map sites (.start map sites) { blocks := M } := by
    refine ⟨rfl, fun i => rfl, fun i => rfl, fun i k hserves => ?_, fun i x k hx _ => ?_⟩
    · obtain ⟨x, hx⟩ := Option.isSome_iff_exists.mp hserves.1
      simpa only [PoolView.start, Site.session, hx, Option.bind_some] using hM i x k hx hserves.2
    · simp only [PoolView.start, Site.session, hx, Option.bind_some]
  exact accounts_related (fun v p call o hcall h ho => h.step hdistinct hcall ho) hcalls hstart haccounts

/-- Both nodes are members. -/
def bothJoined : ShardMap := ⟨2, [⟨"a", "", 1, true⟩, ⟨"b", "", 1, true⟩]⟩

/-- One point for either node; key 7 goes to the first. -/
def bothPoints (label : String) : UInt64 := if label = "a#0" then 10 else 20

def bothCalls : List (PoolCall Bool) :=
  [.on false (.openNode {}), .on true (.openNode {}), .on true (.put ⟨7, 1, 7⟩ Deployment.smallBlock),
    .heartbeat "b", .on false (.put ⟨7, 1, 7⟩ Deployment.smallBlock),
    .on false (.get ⟨7, 1, 7⟩ ⟨true, 1⟩ (some {}))]

theorem settled_pool_is_one_map_two :
    ∃ replies s', run (step bothPoints) (start bothJoined twoSites) bothCalls = .ok (replies, s') ∧
      Accounts (Pooled.Replies bothPoints bothJoined twoSites) Pooled.record { blocks := fun _ => none }
        bothCalls replies := by
  refine settled_pool_is_one_map bothPoints bothJoined twoSites twoSites_intact ?_ (fun _ => none) ?_
    bothCalls ?_
  · intro i j _ _ hself
    cases i <;> cases j <;> first | rfl | simp [twoSites] at hself
  · intro i x k hx _
    cases i <;> cases hx <;> rfl
  · simp [bothCalls, PoolCall.Registers]

end Pool

end TidePool
