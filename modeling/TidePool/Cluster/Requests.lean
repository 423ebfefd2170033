import Mathlib.Logic.Function.Iterate
import TidePool.Cluster.Routing
import TidePool.Store.Refinement

/-! Requests of a connector (`Connector::Get` and `Put` in `src/client/connector.cpp`).

    A request is routed by the cached ring and served by the co-located node or over the transport:

        ResolveOwner ---- local_node, owner is self_node ---> StorageNode::Get / Put
             |       `--- any other owner ------------------> ReadRemote / WriteRemote
             `- no owner: refresh, try again, give up

    `ConnectorOptions` promises a refresh and a retry on `kUnavailable`. Only the lookup of the owner
    keeps the promise. What the owner itself answers is passed on, so a node that has closed makes a
    connector give up on the word of a ring that may be any number of versions old. -/

namespace TidePool

open Schemes Store

/-! ### Resolving without interruption -/

namespace Connector

variable (pointHash : String → UInt64)

/-- `Connector::RefreshShardMap` when no other call comes between. -/
def refreshShardMapAlone (c : Connector) (map : ShardMap) : Result Unit × Connector :=
  if !c.hasCoordinator then (.error (.internal "connector has no coordinator"), c)
  else (.ok (), { c with ring := HashRing.rebuild pointHash map })

/-- `if (Status s = RefreshShardMap(); !s.ok()) return s;`, and what follows it. -/
def refreshThen (c : Connector) (map : ShardMap) (next : Connector → Result NodeId × Connector) :
    Result NodeId × Connector :=
  match c.refreshShardMapAlone pointHash map with
  | (.error s, c) => (.error s, c)
  | (.ok (), c) => next c

/-- The loop of `ResolveOwner` with that many refreshes left. -/
def retryAlone (map : ShardMap) (key : BlockKey) : ℕ → Connector → Result NodeId × Connector
  | 0, c => (c.ring.owner key, c)
  | left + 1, c =>
    match c.ring.owner key with
    | .ok id => (.ok id, c)
    | .error _ => c.refreshThen pointHash map (retryAlone map key left)

/-- `Connector::ResolveOwner` when no other call comes between. -/
def resolveOwnerAlone (c : Connector) (map : ShardMap) (key : BlockKey) : Result NodeId × Connector :=
  if c.ring.empty then c.refreshThen pointHash map (retryAlone pointHash map key c.maxShardmapRefreshes.toNat)
  else retryAlone pointHash map key c.maxShardmapRefreshes.toNat c

/-- The call is over and this was its answer. -/
def answered (res : Result NodeId × Connector) : Connector := { res.2 with task := .idle (some res.1) }

/-- One `GetShardMap` and the `Rebuild` after it. -/
def refreshStep (map : ShardMap) (c : Connector) : Connector := (c.refreshShardMap map).rebuildRing pointHash

variable {pointHash} {map : ShardMap} {key : BlockKey}

/-- Once a refresh is due: if the steps from the rebuilt ring get to the answer, so do those from here. -/
theorem refreshing_steps {left : ℕ} (c : Connector) (hnext : ∀ c : Connector, ∃ n,
    (refreshStep pointHash map)^[n] (c.retry key left) = answered (retryAlone pointHash map key left c)) :
    ∃ n, (refreshStep pointHash map)^[n] { c with task := .refreshing key left } =
      answered (c.refreshThen pointHash map (retryAlone pointHash map key left)) := by
  cases hc : c.hasCoordinator with
  | false =>
    exact ⟨1, by simp [refreshStep, refreshShardMap, refreshThen, refreshShardMapAlone, rebuildRing,
      answered, hc]⟩
  | true =>
    obtain ⟨n, hn⟩ := hnext { c with ring := HashRing.rebuild pointHash map }
    refine ⟨n + 1, ?_⟩
    rw [Function.iterate_succ_apply]
    simpa [refreshStep, refreshShardMap, refreshThen, refreshShardMapAlone, rebuildRing, retry, hc] using hn

theorem retry_steps (map : ShardMap) (key : BlockKey) : ∀ (left : ℕ) (c : Connector),
    ∃ n, (refreshStep pointHash map)^[n] (c.retry key left) = answered (retryAlone pointHash map key left c)
  | 0, c => ⟨0, by cases h : c.ring.owner key <;> simp [retry, retryAlone, answered, h]⟩
  | left + 1, c => by
    cases h : c.ring.owner key with
    | ok id => exact ⟨0, by simp [retry, retryAlone, answered, h]⟩
    | error e =>
      simp only [retry, retryAlone, h]
      exact refreshing_steps c (retry_steps map key left)

/-- ALONE: with the coordinator's map at rest, the steps of `ResolveOwner` come to this answer. -/
theorem resolveOwner_steps (c : Connector) {last : Option (Result NodeId)} (hidle : c.task = .idle last)
    (map : ShardMap) (key : BlockKey) : ∃ n, (refreshStep pointHash map)^[n] (c.resolveOwner key) =
      answered (c.resolveOwnerAlone pointHash map key) := by
  simp only [resolveOwner, hidle, resolveOwnerAlone]
  split
  · exact refreshing_steps c (retry_steps map key _)
  · exact retry_steps map key _ c

/-- A ring that has an owner is not refreshed. -/
theorem resolveOwnerAlone_of_ok {c : Connector} {id : NodeId} (h : c.ring.owner key = .ok id) :
    c.resolveOwnerAlone pointHash map key = (.ok id, c) := by
  simp only [resolveOwnerAlone, HashRing.empty_of_owner h, Bool.false_eq_true, if_false]
  cases c.maxShardmapRefreshes.toNat <;> simp [retryAlone, h]

theorem retryAlone_version (left : ℕ) : ∀ c : Connector, c.ring.version = map.version →
    (retryAlone pointHash map key left c).2.ring.version = map.version := by
  induction left with
  | zero => exact fun c h => h
  | succ left ih =>
    intro c h
    simp only [retryAlone]
    cases c.ring.owner key with
    | ok id => exact h
    | error e =>
      simp only [refreshThen, refreshShardMapAlone]
      cases c.hasCoordinator with
      | false => exact h
      | true => exact ih _ rfl

/-- An empty ring is current afterwards, or the connector has no coordinator to ask. -/
theorem resolveOwnerAlone_of_error (pointHash : String → UInt64) (map : ShardMap) {c : Connector} {e : Status}
    (h : c.ring.owner key = .error e) :
    (∃ s, (c.resolveOwnerAlone pointHash map key).1 = .error s ∧ s.code = .internal) ∨
      (c.resolveOwnerAlone pointHash map key).2.ring.version = map.version := by
  have hempty : c.ring.empty = true := by simp [HashRing.empty, (HashRing.owner_eq_error h).2]
  simp only [resolveOwnerAlone, hempty, if_true, refreshThen, refreshShardMapAlone]
  cases c.hasCoordinator with
  | false => exact .inl ⟨_, rfl, rfl⟩
  | true => exact .inr (retryAlone_version _ _ rfl)

end Connector

/-! ### The transport -/

/-- `struct RemoteRef`. -/
structure RemoteRef where
  nodeId : NodeId
  address : String := ""
  handle : UInt64 := 0
  remoteAddr : UInt64 := 0
  rkey : UInt32 := 0

/-- `class Transport`: the two calls that a connector makes. -/
class Transport (θ : Type) where
  readRemote : θ → RemoteRef → MutableBuffer → Result Unit × θ
  writeRemote : θ → RemoteRef → List UInt8 → Result Unit × θ

/-- `class TcpTransport`, whose transfers are still to be written. -/
structure TcpTransport where

instance : Transport TcpTransport where
  readRemote t _ _ := (.error (.notImplemented "TcpTransport::ReadRemote"), t)
  writeRemote t _ _ := (.error (.notImplemented "TcpTransport::WriteRemote"), t)

/-! ### Get and Put -/

/-- `class Connector` with what it serves requests from. -/
structure Client (τ π θ : Type) where
  connector : Connector := {}
  selfNode : NodeId := ""
  localNode : Option (StorageNode τ π) := none
  transport : θ

namespace Client

variable {τ π θ : Type} [Tier τ] [EvictionPolicy π] [Transport θ]

/-- The remote branch of `Get`: the transfer, and then nothing that frames the answer yet. -/
def readRemote (c : Client τ π θ) (owner : NodeId) (dst : MutableBuffer) (out : Option BlockView) :
    (Result Unit × Option BlockView) × Client τ π θ :=
  match Transport.readRemote c.transport { nodeId := owner } dst with
  | (.error s, transport) => ((.error s, out), { c with transport })
  | (.ok (), transport) =>
    ((.error (.notImplemented "Connector::Get remote framing"), out), { c with transport })

/-- The remote branch of `Put`. -/
def writeRemote (c : Client τ π θ) (owner : NodeId) (block : Block) : Result Unit × Client τ π θ :=
  let (r, transport) := Transport.writeRemote c.transport { nodeId := owner } block.data
  (r, { c with transport })

/-- `Connector::Get` once the owner is known. -/
def getFrom (key : BlockKey) (dst : MutableBuffer) (out : Option BlockView) (c : Client τ π θ)
    (owner : NodeId) : Except Halt ((Result Unit × Option BlockView) × Client τ π θ) :=
  match c.localNode with
  | some node =>
    if owner = c.selfNode then
      (node.get key dst out).map fun (r, out, node) => ((r, out), { c with localNode := some node })
    else .ok (c.readRemote owner dst out)
  | none => .ok (c.readRemote owner dst out)

/-- `Connector::Put` once the owner is known. -/
def putTo (key : BlockKey) (block : Block) (c : Client τ π θ) (owner : NodeId) :
    Except Halt (Result Unit × Client τ π θ) :=
  match c.localNode with
  | some node =>
    if owner = c.selfNode then
      (node.put key block).map fun (r, node) => (r, { c with localNode := some node })
    else .ok (c.writeRemote owner block)
  | none => .ok (c.writeRemote owner block)

variable (pointHash : String → UInt64)

/-- A request: resolve the owner, and serve it from there. -/
def request {α : Type} (c : Client τ π θ) (map : ShardMap) (key : BlockKey) (refuse : Status → α)
    (serve : Client τ π θ → NodeId → Except Halt (α × Client τ π θ)) : Except Halt (α × Client τ π θ) :=
  match c.connector.resolveOwnerAlone pointHash map key with
  | (.error s, connector) => .ok (refuse s, { c with connector })
  | (.ok owner, connector) => serve { c with connector } owner

/-- `Connector::Get`. -/
def get (c : Client τ π θ) (map : ShardMap) (key : BlockKey) (dst : MutableBuffer) (out : Option BlockView) :
    Except Halt ((Result Unit × Option BlockView) × Client τ π θ) :=
  c.request pointHash map key (fun s => (.error s, out)) (getFrom key dst out)

/-- `Connector::Put`. -/
def put (c : Client τ π θ) (map : ShardMap) (key : BlockKey) (block : Block) :
    Except Halt (Result Unit × Client τ π θ) :=
  c.request pointHash map key .error (putTo key block)

/-- Serving a request leaves the ring alone. -/
theorem getFrom_connector (key : BlockKey) (dst : MutableBuffer) (out : Option BlockView) (c : Client τ π θ)
    (owner : NodeId) : Yields False (getFrom key dst out c owner) fun res =>
    res.2.connector = c.connector := by
  have hremote : (c.readRemote owner dst out).2.connector = c.connector := by
    unfold readRemote
    split <;> rfl
  unfold getFrom
  cases c.localNode with
  | none => exact .ok hremote
  | some node =>
    dsimp only
    split
    · exact (Yields.trivial _).map fun _ _ => rfl
    · exact .ok hremote

theorem putTo_connector (key : BlockKey) (block : Block) (c : Client τ π θ) (owner : NodeId) :
    Yields False (putTo key block c owner) fun res => res.2.connector = c.connector := by
  unfold putTo
  cases c.localNode with
  | none => exact .ok rfl
  | some node =>
    dsimp only
    split
    · exact (Yields.trivial _).map fun _ _ => rfl
    · exact .ok rfl

omit [Tier τ] [EvictionPolicy π] [Transport θ] in
/-- GIVING UP: a request that returns `kUnavailable` leaves a current ring behind exactly if no owner that
    an outdated ring names answers `kUnavailable`. -/
theorem request_current_iff {α : Type} (code : α → StatusCode) (refuse : Status → α)
    {serve : Client τ π θ → NodeId → Except Halt (α × Client τ π θ)} (hrefuse : ∀ s, code (refuse s) = s.code)
    (hserve : ∀ c owner, Yields False (serve c owner) fun res => res.2.connector = c.connector)
    (c : Client τ π θ) (map : ShardMap) (key : BlockKey) :
    (∀ a c', c.request pointHash map key refuse serve = .ok (a, c') → code a = .unavailable →
        c'.connector.ring.version = map.version) ↔
      ∀ owner, c.connector.ring.owner key = .ok owner → c.connector.ring.version ≠ map.version →
        ∀ a c', serve c owner = .ok (a, c') → code a ≠ .unavailable := by
  cases howner : c.connector.ring.owner key with
  | ok owner =>
    have heq : c.request pointHash map key refuse serve = serve c owner := by
      simp only [request, Connector.resolveOwnerAlone_of_ok howner]
    rw [heq]
    constructor
    · rintro hfresh owner' ⟨⟩ hstale a c' hc hcode
      have hversion := hfresh a c' hc hcode
      rw [(hserve c owner).of_ok hc] at hversion
      exact hstale hversion
    · intro hinformed a c' hc hcode
      by_contra hstale
      rw [(hserve c owner).of_ok hc] at hstale
      exact hinformed owner rfl hstale a c' hc hcode
  | error e =>
    -- the ring was empty: it has been refreshed before the request went anywhere
    refine ⟨fun _ owner h => (by cases h), fun _ a c' hc hcode => ?_⟩
    have hres := Connector.resolveOwnerAlone_of_error pointHash map howner
    simp only [request] at hc
    rcases hresolve : c.connector.resolveOwnerAlone pointHash map key with ⟨r, connector⟩
    rw [hresolve] at hc hres
    cases r with
    | error s =>
      cases hc
      rcases hres with ⟨s', hs', hinternal⟩ | hversion
      · cases hs'
        rw [hrefuse, hinternal] at hcode
        cases hcode
      · exact hversion
    | ok owner =>
      rcases hres with ⟨s', hs', -⟩ | hversion
      · cases hs'
      · rw [(hserve _ owner).of_ok hc]
        exact hversion

end Client

/-! ### Requests among registrations -/

/-- One connector, its node and the coordinator. -/
structure Deployment (τ π θ : Type) where
  map : ShardMap := {}
  client : Client τ π θ

/-- A registration, the co-located node opened or closed, or a request. -/
inductive DeploymentCall where
  | register (node : NodeInfo)
  | openNode (env : StorageNode.OpenEnv)
  | closeNode
  | get (key : BlockKey) (dst : MutableBuffer) (out : Option BlockView)
  | put (key : BlockKey) (block : Block)

namespace Deployment

variable {τ π θ : Type} [Tier τ] [EvictionPolicy π] [Transport θ] (pointHash : String → UInt64)

/-- The node is opened or closed, if there is one. -/
def control (s : Deployment τ π θ) (call : StorageNode τ π → Result Unit × StorageNode τ π) :
    NodeReply × Deployment τ π θ :=
  match s.client.localNode with
  | none => (.status (.ok ()), s)
  | some node =>
    (.status (call node).1, { s with client := { s.client with localNode := some (call node).2 } })

/-- One call, from its start to its return. -/
def step (s : Deployment τ π θ) : DeploymentCall → Except Halt (NodeReply × Deployment τ π θ)
  | .register node => .ok (.status (s.map.registerNode node).1, { s with map := (s.map.registerNode node).2 })
  | .openNode env => .ok (s.control (·.openNode env))
  | .closeNode => .ok (s.control (·.closeNode))
  | .get key dst out =>
    (s.client.get pointHash s.map key dst out).map fun ((r, out), client) => (.view r out, { s with client })
  | .put key block =>
    (s.client.put pointHash s.map key block).map fun (r, client) => (.status r, { s with client })

/-- The ring is that of the coordinator's current map. -/
def Current (s : Deployment τ π θ) : Prop := s.client.connector.ring.version = s.map.version

/-- A request that returned `kUnavailable`. -/
def GaveUp : DeploymentCall → NodeReply → Prop
  | .get _ _ _, .view r _ => Result.code r = .unavailable
  | .put _ _, .status r => Result.code r = .unavailable
  | _, _ => False

/-- The ring is empty or current, or the key is not the own node's, or that node is open. -/
def Informed (s : Deployment τ π θ) : DeploymentCall → Prop
  | .get key _ _ | .put key _ => s.client.connector.ring.empty = true ∨ s.Current ∨
      s.client.connector.ring.owner key ≠ .ok s.client.selfNode ∨
      ∀ node, s.client.localNode = some node → node.ready = true
  | _ => True

variable {pointHash}

/-- What a request answered and left is what the step did. -/
theorem step_get_iff {s s' : Deployment τ π θ} {key : BlockKey} {dst : MutableBuffer} {out : Option BlockView}
    {o : NodeReply} : s.step pointHash (.get key dst out) = .ok (o, s') ↔ ∃ a c,
      s.client.get pointHash s.map key dst out = .ok (a, c) ∧ o = .view a.1 a.2 ∧
      s' = { s with client := c } := by
  simp only [step]
  cases s.client.get pointHash s.map key dst out with
  | error e => simp [Except.map]
  | ok res =>
    obtain ⟨a, c⟩ := res
    simp [Except.map, eq_comm]

theorem step_put_iff {s s' : Deployment τ π θ} {key : BlockKey} {block : Block} {o : NodeReply} :
    s.step pointHash (.put key block) = .ok (o, s') ↔ ∃ r c,
      s.client.put pointHash s.map key block = .ok (r, c) ∧ o = .status r ∧ s' = { s with client := c } := by
  simp only [step]
  cases s.client.put pointHash s.map key block with
  | error e => simp [Except.map]
  | ok res =>
    obtain ⟨a, c⟩ := res
    simp [Except.map, eq_comm]

/-- STEP: a `Get` that gives up has a current ring exactly if no owner that an outdated one names is to
    blame. -/
theorem get_current_iff (s : Deployment τ π θ) (key : BlockKey) (dst : MutableBuffer)
    (out : Option BlockView) :
    (∀ o s', s.step pointHash (.get key dst out) = .ok (o, s') → GaveUp (.get key dst out) o → s'.Current) ↔
      ∀ owner, s.client.connector.ring.owner key = .ok owner → ¬ s.Current →
        ∀ a c, Client.getFrom key dst out s.client owner = .ok (a, c) → Result.code a.1 ≠ .unavailable := by
  refine Iff.trans ?_ (Client.request_current_iff pointHash (fun a => Result.code a.1)
    (fun s => (.error s, out)) (fun _ => rfl) (Client.getFrom_connector key dst out) s.client s.map key)
  constructor
  · intro h a c hc hcode
    exact h _ _ (step_get_iff.mpr ⟨a, c, hc, rfl, rfl⟩) hcode
  · intro h o s' hstep hgave
    obtain ⟨a, c, hc, rfl, rfl⟩ := step_get_iff.mp hstep
    exact h a c hc hgave

theorem put_current_iff (s : Deployment τ π θ) (key : BlockKey) (block : Block) :
    (∀ o s', s.step pointHash (.put key block) = .ok (o, s') → GaveUp (.put key block) o → s'.Current) ↔
      ∀ owner, s.client.connector.ring.owner key = .ok owner → ¬ s.Current →
        ∀ a c, Client.putTo key block s.client owner = .ok (a, c) → Result.code a ≠ .unavailable := by
  refine Iff.trans ?_ (Client.request_current_iff pointHash Result.code .error (fun _ => rfl)
    (Client.putTo_connector key block) s.client s.map key)
  constructor
  · intro h r c hc hcode
    exact h _ _ (step_put_iff.mpr ⟨r, c, hc, rfl, rfl⟩) hcode
  · intro h o s' hstep hgave
    obtain ⟨r, c, hc, rfl, rfl⟩ := step_put_iff.mp hstep
    exact h r c hc hgave

/-- A connector with this ring next to the node "a". -/
def solo (map : ShardMap) (ring : HashRing) (node : StorageNode (DramTier ⊕ MapTier) Policy) :
    Deployment (DramTier ⊕ MapTier) Policy TcpTransport where
  map := map
  client := { connector := { ring }, selfNode := "a", localNode := some node, transport := {} }

/-- A block of one byte. -/
def smallBlock : Block := ⟨{}, ⟨[42], by simp [UInt64.size]⟩⟩

/-- Node "a" joins and opens, a block is stored, node "b" joins, node "a" closes, the block is asked for. -/
def lateJoin : List DeploymentCall :=
  [.register ⟨"a", "", 1, true⟩, .openNode {}, .put ⟨7, 1, 7⟩ smallBlock, .register ⟨"b", "", 1, true⟩,
    .closeNode, .get ⟨7, 1, 7⟩ ⟨true, 1⟩ (some {})]

/-- STALE: the connector's ring is from before the second registration, the node it names is closed, and the
    connector returns `kUnavailable` without looking at the new map, however labels are hashed. -/
theorem lateJoin_gives_up (pointHash : String → UInt64) : ∃ os r view s,
    run (step pointHash) (solo {} {} (TwoTier.fresh "a" 1 ({} : MapTier) .lru {}).node) lateJoin =
        .ok (os ++ [.view r view], s) ∧ Result.code r = .unavailable ∧
      s.client.connector.maxShardmapRefreshes = 1 ∧ s.client.connector.hasCoordinator = true ∧
      s.client.connector.ring.version = 1 ∧ s.map.version = 2 := by
  let map₁ : ShardMap := ⟨1, [⟨"a", "", 1, true⟩]⟩
  let map₂ : ShardMap := ⟨2, [⟨"a", "", 1, true⟩, ⟨"b", "", 1, true⟩]⟩
  let ring := HashRing.rebuild pointHash map₁
  have howner : ring.owner ⟨7, 1, 7⟩ = .ok "a" := HashRing.owner_single rfl _
  have hfirst : ({ ring := {} } : Connector).resolveOwnerAlone pointHash map₁ ⟨7, 1, 7⟩ =
      (.ok "a", { ring }) := by
    show Connector.retryAlone pointHash map₁ ⟨7, 1, 7⟩ 1 { ring } = _
    simp only [Connector.retryAlone, howner]
  have hsecond : ({ ring } : Connector).resolveOwnerAlone pointHash map₂ ⟨7, 1, 7⟩ = (.ok "a", { ring }) :=
    Connector.resolveOwnerAlone_of_ok howner
  -- what the node itself goes through
  obtain ⟨n₁, n₂, n₃, s, view, hopen, hput, hclose, hget, hs⟩ : ∃ n₁ n₂ n₃ s view,
      (TwoTier.fresh "a" 1 ({} : MapTier) .lru {}).node.openNode {} = (.ok (), n₁) ∧
      n₁.put ⟨7, 1, 7⟩ smallBlock = .ok (.ok (), n₂) ∧ n₂.closeNode = (.ok (), n₃) ∧
      n₃.get ⟨7, 1, 7⟩ ⟨true, 1⟩ (some {}) = .ok (.error s, view, n₃) ∧ s.code = .unavailable :=
    ⟨_, _, _, _, _, rfl, rfl, rfl, rfl, rfl⟩
  have h₂ : (solo map₁ {} (TwoTier.fresh "a" 1 ({} : MapTier) .lru {}).node).step pointHash (.openNode {}) =
      .ok (.status (.ok ()), solo map₁ {} n₁) := by simp only [step, control, solo, hopen]
  have h₃ : (solo map₁ {} n₁).step pointHash (.put ⟨7, 1, 7⟩ smallBlock) =
      .ok (.status (.ok ()), solo map₁ ring n₂) := by
    simp [step, solo, Client.put, Client.request, hfirst, Client.putTo, hput, Except.map]
  have h₅ : (solo map₂ ring n₂).step pointHash .closeNode = .ok (.status (.ok ()), solo map₂ ring n₃) := by
    simp only [step, control, solo, hclose]
  have h₆ : (solo map₂ ring n₃).step pointHash (.get ⟨7, 1, 7⟩ ⟨true, 1⟩ (some {})) =
      .ok (.view (.error s) view, solo map₂ ring n₃) := by
    simp [step, solo, Client.get, Client.request, hsecond, Client.getFrom, hget, Except.map]
  refine ⟨List.replicate 5 (.status (.ok ())), .error s, view, solo map₂ ring n₃, ?_, hs, rfl, rfl, rfl, rfl⟩
  refine run_cons_iff.mpr ⟨_, solo map₁ {} _, _, rfl,
    run_cons_iff.mpr ⟨_, _, _, h₂, run_cons_iff.mpr ⟨_, _, _, h₃,
    run_cons_iff.mpr ⟨_, solo map₂ ring n₂, _, rfl, run_cons_iff.mpr ⟨_, _, _, h₅, run_cons_iff.mpr
      ⟨_, _, _, h₆, rfl, rfl⟩, rfl⟩, rfl⟩, rfl⟩, rfl⟩, rfl⟩

theorem gives_up_on_stale_ring : ∃ os r view s,
    run (step fun _ => 0) (solo {} {} (TwoTier.fresh "a" 1 ({} : MapTier) .lru {}).node) lateJoin =
        .ok (os ++ [.view r view], s) ∧ Result.code r = .unavailable ∧
      s.client.connector.maxShardmapRefreshes = 1 ∧ s.client.connector.hasCoordinator = true ∧
      s.client.connector.ring.version = 1 ∧ s.map.version = 2 :=
  lateJoin_gives_up _

end Deployment

end TidePool
