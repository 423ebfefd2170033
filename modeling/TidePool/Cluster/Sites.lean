import TidePool.Cluster.Requests
import TidePool.Store.Setups

/-! One connector and the node next to it, if there is one.

    A connector asks the coordinator only while its ring is empty, and a ring that has an owner for one
    key has one for every key. What it does with a request is then settled by three things: who owns the
    key, whether the own node is open, and what that node stands for.

        owner is self, node next to it   open     the node's reply, a map
                                         closed   `kUnavailable`
        any other owner                           the transport, which refuses
        no owner                                  `kUnavailable`

    The second line is what a connector passes on without a look at the coordinator: the one case in which it
    gives up on an outdated ring. -/

namespace TidePool

open Schemes Store

/-- Where a connector is set up. -/
structure Site (σ : Type) where
  self : NodeId := ""
  refreshes : ℤ := 1
  home : Option (Home σ) := none

namespace Site

variable {σ : Type}

/-- The connector, not yet used, and the node, not yet opened. -/
def client (site : Site σ) : Client (DramTier ⊕ σ) Policy TcpTransport where
  connector := { maxShardmapRefreshes := site.refreshes }
  selfNode := site.self
  localNode := site.home.map Home.boot
  transport := {}

/-- The key is the own node's. -/
def Serves (site : Site σ) (owner : Result NodeId) : Prop := site.home.isSome = true ∧ owner = .ok site.self

end Site

/-- A request that is not for the own node: another owner is out of reach, no owner is no help. -/
def Refused (owner : Result NodeId) (s : Status) : Prop :=
  match owner with
  | .ok _ => s.code = .notImplemented
  | .error _ => s.code = .unavailable

/-- Nothing around the node reports `kUnavailable`: that is for the node to say. -/
def Store.Home.Quiet {σ : Type} [ColdView σ] (x : Home σ) : Prop :=
  (∀ st ∈ x.faults, st.code ≠ .unavailable) ∧
    ∀ i st, x.env.insertFaults.get i = some st → st.code ≠ .unavailable

namespace Site

variable {σ : Type}

/-- What a site starts with: closed, and the blocks that are on disk. -/
def session [ColdView σ] (site : Site σ) : Session (BlockKey → Option Block) where
  store k := site.home.bind fun x => x.found k

/-- What the own node replies, for the blocks of the session. -/
def Own [ColdView σ] (site : Site σ) (s : Session (BlockKey → Option Block)) (c : NodeCall)
    (o : NodeReply) : Prop :=
  ∀ x, site.home = some x → x.terms.Replies s.opened s.store c o

/-- The replies of a site that routes by `owner`: for its own keys those of its node. -/
def Replies [ColdView σ] (site : Site σ) (s : Session (BlockKey → Option Block))
    (owner : BlockKey → Result NodeId) (call : DeploymentCall) (o : NodeReply) : Prop :=
  match call with
  | .get k dst out =>
    (site.Serves (owner k) → site.Own s (.get k dst out) o) ∧
      (¬ site.Serves (owner k) → ∃ st, Refused (owner k) st ∧ o = .view (.error st) out)
  | .put k b =>
    (site.Serves (owner k) → site.Own s (.put k b) o) ∧
      (¬ site.Serves (owner k) → ∃ st, Refused (owner k) st ∧ o = .status (.error st))
  | .openNode env => site.Own s (.openNode env) o ∧ (site.home = none → o = .status (.ok ()))
  | .closeNode => site.Own s .closeNode o ∧ (site.home = none → o = .status (.ok ()))
  | .register _ => True

end Site

/-- What a call is to the own node. -/
def DeploymentCall.node? : DeploymentCall → Option NodeCall
  | .register _ => none
  | .openNode env => some (.openNode env)
  | .closeNode => some .closeNode
  | .get k dst out => some (.get k dst out)
  | .put k b => some (.put k b)

/-- The session of a site after a call. -/
def recordSite (s : Session (BlockKey → Option Block)) (call : DeploymentCall) (o : NodeReply) :
    Session (BlockKey → Option Block) :=
  match call.node? with
  | none => s
  | some c => s.record TwoTier.recordPut c o

/-! ### The node next to a connector -/

namespace Site

variable {σ : Type} [ColdTier σ] {site : Site σ} {c : Client (DramTier ⊕ σ) Policy TcpTransport}
  {s : Session (BlockKey → Option Block)}

/-- The node of the site stands for the blocks of the session. -/
structure Hosts (site : Site σ) (c : Client (DramTier ⊕ σ) Policy TcpTransport)
    (s : Session (BlockKey → Option Block)) : Prop where
  self : c.selfNode = site.self
  away : site.home = none → c.localNode = none
  home : ∀ x, site.home = some x → ∃ n, c.localNode = some n ∧ x.Stands n s

theorem client_hosts (hintact : ∀ x, site.home = some x → x.Intact) :
    site.Hosts site.client site.session where
  self := rfl
  away hnone := by simp [client, hnone]
  home x hx := by
    have hstore : site.session = { store := x.found } := by simp [session, hx]
    exact ⟨x.boot, by simp [client, hx], hstore ▸ Home.boot_stands (hintact x hx)⟩

/-- Only the connector's own state has changed. -/
theorem Hosts.routed (h : site.Hosts c s) (connector : Connector) : site.Hosts { c with connector } s :=
  ⟨h.self, h.away, h.home⟩

/-- NODE: a call of the own node replies for the blocks of the session. -/
theorem Hosts.node_step (h : site.Hosts c s) {x : Home σ} (hhome : site.home = some x) (call : NodeCall) :
    ∃ n o n', c.localNode = some n ∧ n.step call = .ok (o, n') ∧ site.Own s call o ∧
      site.Hosts { c with localNode := some n' } (s.record TwoTier.recordPut call o) := by
  obtain ⟨n, hlocal, hstands⟩ := h.home x hhome
  obtain ⟨o, n', heq, hreply, hstands'⟩ := hstands.step call
  refine ⟨n, o, n', hlocal, heq, fun y hy => ?_, h.self, fun hnone => ?_, fun y hy => ?_⟩
  · obtain rfl := Option.some.inj (hhome.symm.trans hy)
    exact hreply
  · cases hhome.symm.trans hnone
  · obtain rfl := Option.some.inj (hhome.symm.trans hy)
    exact ⟨n', rfl, hstands'⟩

theorem step_get_ok {n n' : StorageNode (DramTier ⊕ σ) Policy} {k : BlockKey} {dst : MutableBuffer}
    {out : Option BlockView} {o : NodeReply} (h : n.step (.get k dst out) = .ok (o, n')) :
    ∃ r out', n.get k dst out = .ok (r, out', n') ∧ o = .view r out' := by
  simp only [StorageNode.step] at h
  cases hget : n.get k dst out with
  | error e => rw [hget] at h; cases h
  | ok res =>
    obtain ⟨r, out', n''⟩ := res
    rw [hget] at h
    cases h
    exact ⟨r, out', rfl, rfl⟩

theorem step_put_ok {n n' : StorageNode (DramTier ⊕ σ) Policy} {k : BlockKey} {b : Block} {o : NodeReply}
    (h : n.step (.put k b) = .ok (o, n')) : ∃ r, n.put k b = .ok (r, n') ∧ o = .status r := by
  simp only [StorageNode.step] at h
  cases hput : n.put k b with
  | error e => rw [hput] at h; cases h
  | ok res =>
    obtain ⟨r, n''⟩ := res
    rw [hput] at h
    cases h
    exact ⟨r, rfl, rfl⟩

/-- No node, or not the owner: the transport is asked and refuses. -/
theorem getFrom_away {k : BlockKey} {dst : MutableBuffer} {out : Option BlockView} {owner : NodeId}
    (h : c.localNode = none ∨ owner ≠ c.selfNode) : Client.getFrom k dst out c owner =
      .ok ((.error (.notImplemented "TcpTransport::ReadRemote"), out), c) := by
  have hremote : c.readRemote owner dst out =
      ((.error (.notImplemented "TcpTransport::ReadRemote"), out), c) := rfl
  cases hlocal : c.localNode with
  | none => simp only [Client.getFrom, hlocal, hremote]
  | some n =>
    have hother : owner ≠ c.selfNode := h.resolve_left (by simp [hlocal])
    simp only [Client.getFrom, hlocal, hother, if_false, hremote]

theorem putTo_away {k : BlockKey} {b : Block} {owner : NodeId} (h : c.localNode = none ∨ owner ≠ c.selfNode) :
    Client.putTo k b c owner = .ok (.error (.notImplemented "TcpTransport::WriteRemote"), c) := by
  have hremote : c.writeRemote owner b = (.error (.notImplemented "TcpTransport::WriteRemote"), c) := rfl
  cases hlocal : c.localNode with
  | none => simp only [Client.putTo, hlocal, hremote]
  | some n =>
    have hother : owner ≠ c.selfNode := h.resolve_left (by simp [hlocal])
    simp only [Client.putTo, hlocal, hother, if_false, hremote]

/-- A site that does not serve the key has no node, or is not the owner. -/
theorem Hosts.away_of_not_serves (h : site.Hosts c s) {owner : NodeId} (hserves : ¬ site.Serves (.ok owner)) :
    c.localNode = none ∨ owner ≠ c.selfNode := by
  cases hhome : site.home with
  | none => exact .inl (h.away hhome)
  | some x =>
    refine .inr fun hself => hserves ⟨by rw [hhome]; rfl, ?_⟩
    rw [hself, h.self]

/-- GET: served by the own node if the key is its own, refused otherwise. -/
theorem Hosts.getFrom (h : site.Hosts c s) (ring : BlockKey → Result NodeId) {k : BlockKey} {owner : NodeId}
    (howner : ring k = .ok owner) (dst : MutableBuffer) (out : Option BlockView) :
    ∃ r out' node, Client.getFrom k dst out c owner = .ok ((r, out'), { c with localNode := node }) ∧
      site.Replies s ring (.get k dst out) (.view r out') ∧ site.Hosts { c with localNode := node } s := by
  by_cases hserves : site.Serves (.ok owner)
  · obtain ⟨x, hhome⟩ := Option.isSome_iff_exists.mp hserves.1
    obtain ⟨n, o, n', hlocal, hstep, hreply, h'⟩ := h.node_step hhome (.get k dst out)
    obtain ⟨r, out', hget, rfl⟩ := step_get_ok hstep
    obtain rfl := Except.ok.inj hserves.2
    refine ⟨r, out', some n', ?_, ⟨fun _ => hreply, fun hnot => absurd (howner ▸ hserves) hnot⟩, h'⟩
    simp only [Client.getFrom, hlocal, h.self, if_true, hget]
    rfl
  · refine ⟨_, _, c.localNode, getFrom_away (h.away_of_not_serves hserves),
      ⟨fun hs => absurd (howner ▸ hs) hserves, fun _ => ⟨_, ?_, rfl⟩⟩, h⟩
    rw [howner]; rfl

/-- PUT: the same, and the own node has the block when it says so. -/
theorem Hosts.putTo (h : site.Hosts c s) (ring : BlockKey → Result NodeId) {k : BlockKey} {owner : NodeId}
    (howner : ring k = .ok owner) (b : Block) :
    ∃ r node, Client.putTo k b c owner = .ok (r, { c with localNode := node }) ∧
      site.Replies s ring (.put k b) (.status r) ∧
      site.Hosts { c with localNode := node } (s.record TwoTier.recordPut (.put k b) (.status r)) := by
  by_cases hserves : site.Serves (.ok owner)
  · obtain ⟨x, hhome⟩ := Option.isSome_iff_exists.mp hserves.1
    obtain ⟨n, o, n', hlocal, hstep, hreply, h'⟩ := h.node_step hhome (.put k b)
    obtain ⟨r, hput, rfl⟩ := step_put_ok hstep
    obtain rfl := Except.ok.inj hserves.2
    refine ⟨r, some n', ?_, ⟨fun _ => hreply, fun hnot => absurd (howner ▸ hserves) hnot⟩, h'⟩
    simp only [Client.putTo, hlocal, h.self, if_true, hput]
    rfl
  · refine ⟨_, c.localNode, putTo_away (h.away_of_not_serves hserves),
      ⟨fun hs => absurd (howner ▸ hs) hserves, fun _ => ⟨_, ?_, rfl⟩⟩, h⟩
    rw [howner]; rfl

/-- Opening or closing the own node. -/
theorem Hosts.control (h : site.Hosts c s) (map : ShardMap) (call : NodeCall)
    (f : StorageNode (DramTier ⊕ σ) Policy → Result Unit × StorageNode (DramTier ⊕ σ) Policy)
    (hf : ∀ n : StorageNode (DramTier ⊕ σ) Policy, n.step call = .ok (.status (f n).1, (f n).2)) :
    ∃ o node, ({ map, client := c } : Deployment _ _ _).control f =
        (o, { map, client := { c with localNode := node } }) ∧
      site.Own s call o ∧ (site.home = none → o = .status (.ok ())) ∧
      site.Hosts { c with localNode := node } (s.record TwoTier.recordPut call o) := by
  cases hhome : site.home with
  | none =>
    have hown : site.Own s call (.status (.ok ())) := fun x hx => by cases hhome.symm.trans hx
    simp only [Deployment.control, h.away hhome]
    refine ⟨_, c.localNode, rfl, hown, fun _ => rfl, h.self, h.away, fun x hx => ?_⟩
    cases hhome.symm.trans hx
  | some x =>
    obtain ⟨n, o, n', hlocal, hstep, hown, h'⟩ := h.node_step hhome call
    rw [hf] at hstep
    obtain ⟨rfl, hn⟩ := Prod.mk.inj (Except.ok.inj hstep)
    refine ⟨_, some n', ?_, hown, (fun hnone => by cases hnone), h'⟩
    simp only [Deployment.control, hlocal, hn]

/-! ### Giving up -/

omit [ColdTier σ] in
/-- An open node of a quiet set-up never says `kUnavailable`, a closed one always does. -/
theorem Own.unavailable_iff [ColdView σ] (hquiet : ∀ x, site.home = some x → x.Quiet)
    (hhome : site.home.isSome = true) {call : NodeCall} {o : NodeReply} (hcall : call.isData = true)
    (h : site.Own s call o) : (∃ st, o.error? = some st ∧ st.code = .unavailable) ↔ s.opened = false := by
  obtain ⟨x, hx⟩ := Option.isSome_iff_exists.mp hhome
  obtain ⟨hreads, hinserts⟩ := hquiet x hx
  have hreply := h x hx
  rw [Terms.Replies] at hreply
  split at hreply
  · rename_i hclosed
    obtain ⟨st, hst, rfl⟩ := hreply
    exact ⟨fun _ => hclosed.1, fun _ => ⟨st, call.refused_error st, hst⟩⟩
  · rename_i hopen
    obtain ⟨hmap, hexcuse⟩ := hreply
    refine ⟨?_, fun hclosed => absurd ⟨hclosed, hcall⟩ hopen⟩
    rintro ⟨st, ho, hst⟩
    by_cases hput : ∃ k b, call = .put k b
    · obtain ⟨k, b, rfl⟩ := hput
      cases o with
      | status r =>
        cases r with
        | ok _ => cases ho
        | error s' =>
          obtain rfl := Option.some.inj ho
          rcases Home.mem_puts (hexcuse s' rfl).1 with hooc | hfault | ⟨i, hinsert⟩
          · cases hooc.symm.trans hst
          · exact absurd hst (hreads s' hfault)
          · exact absurd hst (hinserts i s' hinsert)
      | _ => exact hmap.elim
    · rcases hmap.error_code (fun k b h => hput ⟨k, b, h⟩) hcall ho with hfault | hcode
      · exact absurd hst (hreads st (Home.mem_reads hfault))
      · simp [hst] at hcode

omit [ColdTier σ] in
/-- A request that found an owner says `kUnavailable` exactly if the owner is here and closed. -/
theorem Replies.unavailable_iff [ColdView σ] (hquiet : ∀ x, site.home = some x → x.Quiet)
    {ring : BlockKey → Result NodeId} {k : BlockKey} {owner : NodeId} (howner : ring k = .ok owner)
    {call : DeploymentCall} (hcall : (∃ dst out, call = .get k dst out) ∨ ∃ b, call = .put k b)
    {o : NodeReply}
    (h : site.Replies s ring call o) : (∃ st, o.error? = some st ∧ st.code = .unavailable) ↔
      site.Serves (.ok owner) ∧ s.opened = false := by
  by_cases hserves : site.Serves (.ok owner)
  · have hhere : site.Serves (ring k) := howner ▸ hserves
    rw [and_iff_right hserves]
    rcases hcall with ⟨dst, out, rfl⟩ | ⟨b, rfl⟩
    · exact (h.1 hhere).unavailable_iff hquiet hserves.1 rfl
    · exact (h.1 hhere).unavailable_iff hquiet hserves.1 rfl
  · have haway : ¬ site.Serves (ring k) := howner ▸ hserves
    refine iff_of_false ?_ fun hhere => hserves hhere.1
    rcases hcall with ⟨dst, out, rfl⟩ | ⟨b, rfl⟩
    all_goals
      obtain ⟨st, hst, rfl⟩ := h.2 haway
      rw [howner] at hst
      rintro ⟨st', ho, hunavailable⟩
      obtain rfl := Option.some.inj ho
      cases (show st.code = .notImplemented from hst).symm.trans hunavailable

omit [ColdTier σ] in
theorem view_unavailable_iff {r : Result Unit} {out : Option BlockView} : Result.code r = .unavailable ↔
    ∃ st, (NodeReply.view r out).error? = some st ∧ st.code = .unavailable := by
  cases r <;> simp [Result.code, NodeReply.error?]

omit [ColdTier σ] in
theorem status_unavailable_iff {r : Result Unit} : Result.code r = .unavailable ↔
    ∃ st, (NodeReply.status r).error? = some st ∧ st.code = .unavailable := by
  cases r <;> simp [Result.code, NodeReply.error?]

/-- GET: an owner says `kUnavailable` exactly if it is here and closed. -/
theorem Hosts.getFrom_unavailable_iff (h : site.Hosts c s) (hquiet : ∀ x, site.home = some x → x.Quiet)
    (k : BlockKey) (dst : MutableBuffer) (out : Option BlockView) (owner : NodeId) :
    (∀ a c', Client.getFrom k dst out c owner = .ok (a, c') → Result.code a.1 ≠ .unavailable) ↔
      ¬ (site.Serves (.ok owner) ∧ s.opened = false) := by
  obtain ⟨r, out', node, heq, hreply, -⟩ := h.getFrom (fun _ => .ok owner) (k := k) rfl dst out
  rw [← hreply.unavailable_iff hquiet rfl (.inl ⟨dst, out, rfl⟩), ← view_unavailable_iff]
  refine ⟨fun hnot => hnot _ _ heq, fun hnot a c' ha => ?_⟩
  obtain ⟨rfl, -⟩ := Prod.mk.inj (Except.ok.inj (heq.symm.trans ha))
  exact hnot

/-- PUT: the same. -/
theorem Hosts.putTo_unavailable_iff (h : site.Hosts c s) (hquiet : ∀ x, site.home = some x → x.Quiet)
    (k : BlockKey) (b : Block) (owner : NodeId) :
    (∀ a c', Client.putTo k b c owner = .ok (a, c') → Result.code a ≠ .unavailable) ↔
      ¬ (site.Serves (.ok owner) ∧ s.opened = false) := by
  obtain ⟨r, node, heq, hreply, -⟩ := h.putTo (fun _ => .ok owner) (k := k) rfl b
  rw [← hreply.unavailable_iff hquiet rfl (.inr ⟨b, rfl⟩), ← status_unavailable_iff]
  refine ⟨fun hnot => hnot _ _ heq, fun hnot a c' ha => ?_⟩
  obtain ⟨rfl, -⟩ := Prod.mk.inj (Except.ok.inj (heq.symm.trans ha))
  exact hnot

/-- The own node is closed. -/
theorem Hosts.closed_iff (h : site.Hosts c s) : site.home.isSome = true ∧ s.opened = false ↔
    ∃ n, c.localNode = some n ∧ n.ready = false := by
  cases hhome : site.home with
  | none => simp [h.away hhome]
  | some x =>
    obtain ⟨n, hlocal, hstands⟩ := h.home x hhome
    simp [hlocal, hstands.ready]

end Site

namespace Deployment

variable {σ : Type} [ColdTier σ] {site : Site σ} {t : Deployment (DramTier ⊕ σ) Policy TcpTransport}
  {s : Session (BlockKey → Option Block)} {pointHash : String → UInt64}

/-- The condition on the state says that no owner to blame is named by an outdated ring. -/
theorem informed_request_iff (h : site.Hosts t.client s) (k : BlockKey) :
    (∀ owner, t.client.connector.ring.owner k = .ok owner → ¬ t.Current →
        ¬ (site.Serves (.ok owner) ∧ s.opened = false)) ↔
      t.client.connector.ring.empty = true ∨ t.Current ∨
        t.client.connector.ring.owner k ≠ .ok t.client.selfNode ∨
        ∀ node, t.client.localNode = some node → node.ready = true := by
  constructor
  · intro hnot
    by_contra hall
    push Not at hall
    obtain ⟨-, hstale, howner, node, hlocal, hready⟩ := hall
    obtain ⟨hhome, hclosed⟩ := h.closed_iff.mpr ⟨node, hlocal, by simpa using hready⟩
    exact hnot _ howner hstale ⟨⟨hhome, by rw [h.self]⟩, hclosed⟩
  · rintro hor owner howner hstale ⟨⟨hhome, hself⟩, hclosed⟩
    obtain ⟨node, hlocal, hready⟩ := h.closed_iff.mp ⟨hhome, hclosed⟩
    rcases hor with hempty | hcurrent | hother | hopen
    · rw [HashRing.empty_of_owner howner] at hempty
      cases hempty
    · exact hstale hcurrent
    · exact hother (by rw [howner, hself, h.self])
    · rw [hopen node hlocal] at hready
      cases hready

/-- STEP: the exact condition for one call. -/
theorem informed_iff (h : site.Hosts t.client s) (hquiet : ∀ x, site.home = some x → x.Quiet)
    (e : DeploymentCall) :
    (∀ o t', t.step pointHash e = .ok (o, t') → GaveUp e o → t'.Current) ↔ t.Informed e := by
  cases e with
  | register node => exact ⟨fun _ => trivial, fun _ o s' _ h => h.elim⟩
  | openNode env => exact ⟨fun _ => trivial, fun _ o s' _ h => h.elim⟩
  | closeNode => exact ⟨fun _ => trivial, fun _ o s' _ h => h.elim⟩
  | get k dst out =>
    rw [get_current_iff, Informed, ← informed_request_iff h k]
    exact forall₃_congr fun owner _ _ => h.getFrom_unavailable_iff hquiet k dst out owner
  | put k b =>
    rw [put_current_iff, Informed, ← informed_request_iff h k]
    exact forall₃_congr fun owner _ _ => h.putTo_unavailable_iff hquiet k b owner

/-- A request resolves its owner, which leaves the node alone, and then it is served or refused. -/
theorem request_hosts {α : Type} (h : site.Hosts t.client s) (map : ShardMap) (k : BlockKey)
    (refuse : Status → α) {serve : Client (DramTier ⊕ σ) Policy TcpTransport → NodeId →
      Except Halt (α × Client (DramTier ⊕ σ) Policy TcpTransport)}
    (hserve : ∀ c owner, site.Hosts c s → Yields True (serve c owner) fun res => ∃ s', site.Hosts res.2 s') :
    Yields True (t.client.request pointHash map k refuse serve) fun res => ∃ s', site.Hosts res.2 s' := by
  unfold Client.request
  split
  · exact .ok ⟨s, h.routed _⟩
  · exact hserve _ _ (h.routed _)

/-- STEP: every call returns and leaves the node standing for something. -/
theorem step_hosts (h : site.Hosts t.client s) (e : DeploymentCall) :
    Yields True (t.step pointHash e) fun res => ∃ s', site.Hosts res.2.client s' := by
  cases e with
  | register node => exact .ok ⟨s, h⟩
  | openNode env =>
    obtain ⟨o, node, heq, -, -, h'⟩ := h.control t.map (.openNode env) (·.openNode env) fun n => rfl
    simp only [step]
    rw [heq]
    exact .ok ⟨_, h'⟩
  | closeNode =>
    obtain ⟨o, node, heq, -, -, h'⟩ := h.control t.map .closeNode (·.closeNode) fun n => rfl
    simp only [step]
    rw [heq]
    exact .ok ⟨_, h'⟩
  | get k dst out =>
    have hrequest : Yields True (t.client.get pointHash t.map k dst out) fun res =>
        ∃ s', site.Hosts res.2 s' := by
      refine request_hosts h t.map k _ fun c owner hc => ?_
      obtain ⟨r, out', node, heq, -, h'⟩ := hc.getFrom (fun _ => .ok owner) (k := k) rfl dst out
      rw [heq]
      exact .ok ⟨_, h'⟩
    exact hrequest.map fun _ h' => h'
  | put k b =>
    have hrequest : Yields True (t.client.put pointHash t.map k b) fun res => ∃ s', site.Hosts res.2 s' := by
      refine request_hosts h t.map k _ fun c owner hc => ?_
      obtain ⟨r, node, heq, -, h'⟩ := hc.putTo (fun _ => .ok owner) (k := k) rfl b
      rw [heq]
      exact .ok ⟨_, h'⟩
    exact hrequest.map fun _ h' => h'

/-- A connector in any state, next to a node nobody has opened. -/
def beside (site : Site σ) (map : ShardMap) (connector : Connector) :
    Deployment (DramTier ⊕ σ) Policy TcpTransport where
  map := map
  client := { site.client with connector }

/-- UNAVAILABLE: among any calls, every request that gives up as unavailable has a current ring exactly if
    every request finds an empty or a current ring, or its key is not the own node's, or that node is open. -/
theorem unavailable_is_current_iff (pointHash : String → UInt64) (site : Site σ)
    (hintact : ∀ x, site.home = some x → x.Intact) (hquiet : ∀ x, site.home = some x → x.Quiet)
    (map : ShardMap) (connector : Connector) (calls : List DeploymentCall) :
    (∀ earlier e later, calls = earlier ++ e :: later → ∀ os t o t',
      run (step pointHash) (beside site map connector) earlier = .ok (os, t) →
      t.step pointHash e = .ok (o, t') → GaveUp e o → t'.Current) ↔
      Along (step pointHash) Informed (beside site map connector) calls := by
  have hreached : ∀ earlier os t, run (step pointHash) (beside site map connector) earlier = .ok (os, t) →
      ∃ s, site.Hosts t.client s := by
    intro earlier os t hrun
    have hstart : ∃ s, site.Hosts (beside site map connector).client s :=
      ⟨site.session, (Site.client_hosts hintact).routed connector⟩
    have hkept : Yields True (run (step pointHash) (beside site map connector) earlier) fun res =>
        (∃ s, site.Hosts res.2.client s) ∧ ∀ o ∈ res.1, True :=
      run_keeps (fun t => ∃ s, site.Hosts t.client s) (fun _ => True)
        (fun t e ⟨s, h⟩ => (step_hosts h e).mono fun _ h' => ⟨h', trivial⟩) earlier hstart
    exact (hkept.of_ok hrun).1
  rw [along_iff_splits]
  constructor
  · intro h earlier e later hcalls os t hrun
    obtain ⟨s, hs⟩ := hreached earlier os t hrun
    exact (informed_iff hs hquiet e).mp fun o t' hstep hgave =>
      h earlier e later hcalls os t o t' hrun hstep hgave
  · intro h earlier e later hcalls os t o t' hrun hstep hgave
    obtain ⟨s, hs⟩ := hreached earlier os t hrun
    exact (informed_iff hs hquiet e).mpr (h earlier e later hcalls os t hrun) o t' hstep hgave

/-- Node "a" joins, opens, takes a block and closes, and the block is asked for. -/
def ownSite : Site MapTier where
  self := "a"
  home := some (.disk { id := "a", layout := .tiered 1 .lru, ssd := {} })

def closedNode : List DeploymentCall :=
  [.register ⟨"a", "", 1, true⟩, .openNode {}, .put ⟨7, 1, 7⟩ smallBlock, .closeNode,
    .get ⟨7, 1, 7⟩ ⟨true, 1⟩ (some {})]

theorem unavailable_is_current_closedNode :
    Along (step fun _ => 0) Informed (beside ownSite {} {}) closedNode ∧
      ∀ earlier e later, closedNode = earlier ++ e :: later → ∀ os t o t',
        run (step fun _ => 0) (beside ownSite {} {}) earlier = .ok (os, t) →
        t.step (fun _ => 0) e = .ok (o, t') → GaveUp e o → t'.Current := by
  have halong : Along (step fun _ => 0) Informed (beside ownSite {} {}) closedNode :=
    along_cons rfl trivial (along_cons rfl trivial (along_cons rfl (.inl rfl) (along_cons rfl trivial
      (along_cons rfl (.inr (.inl rfl)) trivial))))
  refine ⟨halong, ?_⟩
  refine (unavailable_is_current_iff (fun _ => 0) ownSite ?_ ?_ {} {} closedNode).mpr halong
  · rintro x ⟨⟩
    trivial
  · rintro x ⟨⟩
    refine ⟨?_, fun i st hst => by cases hst⟩
    rintro st (⟨i, hi⟩ | ⟨i, hi⟩) <;> cases hi

end Deployment

end TidePool
