import TidePool.Store.Arc
import TidePool.Store.Lifecycle
import TidePool.Store.Lru

/-! The node refines a plain map.

    Fresh nodes first: an empty DRAM tier in front of a given cold tier, one of the two policies, and
    everything the surroundings decide (allocations, injected insert failures) as a parameter. Then the
    refinement: whatever demotions, promotions and failed calls happen on the way, an open node answers
    as the map that its successful `Put`s have written. -/

namespace TidePool.Store
open Schemes

/-! ### Fresh nodes -/

/-- `MakeLruEviction()` or `MakeArcEviction(capacity_blocks)`. -/
inductive PolicyChoice where
  | lru
  | arc (capacityBlocks : ℕ)

/-- One of the two policies, whose inserts may also be made to fail. -/
abbrev Policy := FaultyPolicy (LruEviction ⊕ ArcEviction)

/-- What the surroundings decide: the outcome of every allocation, and which inserts fail. -/
structure Surroundings where
  dramAllocs : Stream' Bool := Stream'.const true
  nodeAllocs : Stream' Bool := Stream'.const true
  policyAllocs : Stream' Bool := Stream'.const true
  insertFaults : Stream' (Option Status) := Stream'.const none

def PolicyChoice.make (choice : PolicyChoice) (env : Surroundings) : Policy where
  policy := match choice with
    | .lru => .inl { allocs := env.policyAllocs }
    | .arc capacityBlocks => .inr (ArcEviction.make capacityBlocks env.policyAllocs)
  insertFaults := env.insertFaults

theorem PolicyChoice.make_law (choice : PolicyChoice) (env : Surroundings) :
    PolicyView.Wf (choice.make env) ∧ PolicyView.reserved (choice.make env) = none ∧
      ∀ k, k ∉ PolicyView.resident (choice.make env) := by
  cases choice with
  | lru => exact LruEviction.make_law env.policyAllocs
  | arc c => exact ArcEviction.make_law c env.policyAllocs

/-- No allocation fails and no policy insert does. -/
structure Surroundings.Calm (env : Surroundings) : Prop where
  dram : ∀ i, env.dramAllocs.get i = true
  node : ∀ i, env.nodeAllocs.get i = true
  policy : ∀ i, env.policyAllocs.get i = true
  inserts : ∀ i, env.insertFaults.get i = none

theorem PolicyChoice.make_reliable {env : Surroundings} (choice : PolicyChoice) (h : env.Calm) :
    PolicyView.Reliable (choice.make env) := by
  refine ⟨?_, h.inserts⟩
  cases choice with
  | lru => exact h.policy
  | arc c => exact h.policy

/-- The inserts of a fresh policy fail as they are made to, or for want of memory. -/
theorem PolicyChoice.make_faults (choice : PolicyChoice) (env : Surroundings) :
    PolicyView.faults (choice.make env) = { s | ∃ i, env.insertFaults.get i = some s } := by
  cases choice <;> exact Set.empty_union _

namespace TwoTier

variable {σ π : Type}

/-- A node nobody has opened, with an empty DRAM tier. -/
def start (id : String) (capacity : UInt64) (ssd : σ) (policy : Option π)
    (dramAllocs nodeAllocs : Stream' Bool) : TwoTier σ π where
  id := id
  dram := DramTier.make capacity dramAllocs
  ssd := ssd
  policy := policy
  allocs := nodeAllocs

/-- The same with a fresh policy of either kind. -/
def fresh (id : String) (capacity : UInt64) (ssd : σ) (choice : PolicyChoice) (env : Surroundings) :
    TwoTier σ Policy :=
  start id capacity ssd (some (choice.make env)) env.dramAllocs env.nodeAllocs

variable {id : String} {capacity : UInt64} {ssd : σ} {policy : Option π}
  {dramAllocs nodeAllocs : Stream' Bool} {choice : PolicyChoice} {env : Surroundings}

theorem start_sound : (start id capacity ssd policy dramAllocs nodeAllocs).Sound :=
  ⟨DramTier.accounted_make _ _, fun _ => Nat.zero_le _⟩

/-- A policy with no residents tracks an empty DRAM tier. -/
theorem tracked_of_empty [ColdView σ] [PolicyView π] {x : TwoTier σ π} {allocs : Stream' Bool} {p : π}
    (hd : x.dram = DramTier.make capacity allocs) (hp : x.policy = some p)
    (hlaw : PolicyView.Wf p ∧ PolicyView.reserved p = none ∧ ∀ k, k ∉ PolicyView.resident p) : x.Tracked := by
  obtain ⟨hwf, hfree, hnone⟩ := hlaw
  exact ⟨p, hp, hwf, hfree, fun k => by simp [hnone k, hd, DramTier.at?, DramTier.make]⟩

theorem fresh_calm (h : env.Calm) : (fresh id capacity ssd choice env).Calm where
  node := h.node
  dram := h.dram
  policy p hp := by
    obtain rfl := Option.some.inj hp
    exact choice.make_reliable h

theorem fresh_tracked [ColdView σ] : (fresh id capacity ssd choice env).Tracked :=
  tracked_of_empty rfl rfl (choice.make_law env)

variable [ColdTier σ]

theorem fresh_alive (h : ColdView.Intact ssd) : (fresh id capacity ssd choice env).Alive :=
  ⟨start_sound, h, by simp [fresh, start]⟩

/-- After the first successful `Open` the node is coherent and DRAM still empty. -/
theorem opened_start (h : ColdView.Intact ssd) {openEnv : StorageNode.OpenEnv}
    {n : StorageNode (DramTier ⊕ σ) π}
    (hopen : (start id capacity ssd policy dramAllocs nodeAllocs).node.openNode openEnv = (.ok (), n)) :
    ∃ x : TwoTier σ π, n = x.node ∧ x.Coherent ∧ x.ready = true ∧ ColdRested ssd x.ssd ∧
      x.dram = DramTier.make capacity dramAllocs ∧ x.policy = policy ∧ x.allocs = nodeAllocs := by
  obtain ⟨r, ssd', index, ready, heq, hrested, hrest⟩ :=
    openNode_spec (start id capacity ssd policy dramAllocs nodeAllocs) rfl h openEnv
  rw [hopen] at heq
  obtain ⟨rfl, rfl⟩ := Prod.mk.inj heq
  obtain ⟨rfl, hwf, -, hindex⟩ := hrest
  have hsound : (start id capacity ssd policy dramAllocs nodeAllocs).Sound := start_sound
  exact ⟨_, rfl, ⟨⟨hsound.accounted, hsound.bounded⟩, hwf, hindex⟩, rfl, hrested, rfl, rfl, rfl⟩

/-- A node with an empty DRAM tier stands for what the cold tier holds. -/
theorem view_of_empty_dram {x : TwoTier σ π} {allocs : Stream' Bool}
    (h : x.dram = DramTier.make capacity allocs) (hssd : ColdView.contents x.ssd = ColdView.contents ssd) :
    x.levels.view = fun k => (ColdView.contents ssd k).map (·.block) := by
  funext k
  have hk : x.dram.at? k = none := by rw [h]; rfl
  rw [view_of_ssd hk, hssd]

end TwoTier

/-! ### Refinement -/

/-- A node answers as the map `M`. -/
structure Answers {τ π : Type} [Tier τ] [EvictionPolicy π] (n : StorageNode τ π)
    (M : BlockKey → Option Block) : Prop where
  contains : ∀ k, n.contains k = .ok (M k).isSome
  probe : ∀ k, ∃ r n', n.probe k = .ok (r, n') ∧ match M k with
    | none => Result.code r = .notFound
    | some b => ∃ handle, r = .ok ⟨b.metadata, b.sizeBytes, handle⟩
  get : ∀ k (dst : MutableBuffer) view, dst.Valid → ∃ r out n', n.get k dst (some view) = .ok (r, out, n') ∧
    (Result.code r = .notFound ↔ M k = none) ∧
    (Result.code r = .outOfCapacity ↔ ∃ b, M k = some b ∧ dst.capacity < b.sizeBytes) ∧
    ∀ b, M k = some b → b.sizeBytes ≤ dst.capacity →
      Result.code r = .ok ∧ out = some (viewOf dst b)

namespace TwoTier

variable {σ π : Type} [ColdTier σ] [LawfulPolicy π] {x : TwoTier σ π}

/-- An open coherent node over readable disks answers as what its two levels stand for. -/
theorem Coherent.answers (hx : x.Coherent) (hready : x.ready = true) (ht : x.Tracked)
    (hexact : ColdView.Exact x.ssd) : Answers x.node x.levels.view where
  contains k := contains_spec hx hready k
  probe k := by
    obtain ⟨r, y, heq, -, -, hanswer⟩ := probe_spec hx hready k
    refine ⟨r, y.node, heq, ?_⟩
    rcases hanswer with ⟨hk, hr⟩ | ⟨b, h, hk, rfl⟩ | ⟨s, -, -, hnot⟩
    · rw [hk]; exact hr
    · rw [hk]; exact ⟨h, rfl⟩
    · exact absurd hexact hnot
  get k dst view hvalid := by
    obtain ⟨⟨r, out, n⟩, heq, y, -, -, -, hanswer⟩ := (get_spec hx hready k dst (some view)).answer ht
    refine ⟨r, out, n, heq, ?_⟩
    rcases hanswer with ⟨hk, hr, -⟩ | ⟨b, hk, hcontract⟩ | ⟨s, -, -, -, hnot⟩
    · simp only [hk, hr]
      simp
    · rw [getContract_good ⟨rfl, hvalid⟩] at hcontract
      by_cases hfit : dst.capacity < b.sizeBytes
      · simp only [hfit, if_true, Prod.mk.injEq] at hcontract
        simp [hk, hcontract.1, hfit]
      · simp only [hfit, if_false, Prod.mk.injEq] at hcontract
        simp [hk, hcontract.1, hcontract.2, hfit]
    · exact absurd hexact hnot

end TwoTier

/-- REFINEMENT: over a map tier whose writes may fail, with any outcome of every allocation and policy
    insert, a run of data calls returns and leaves a node that answers as the map written so far. -/
theorem node_refines_map (id : String) (capacity : UInt64) (ssd : MapTier) (choice : PolicyChoice)
    (env : Surroundings) (openEnv : StorageNode.OpenEnv) (n : StorageNode (DramTier ⊕ MapTier) Policy)
    (hreads : ∀ i, ssd.getFaults.get i = none)
    (hopen : (TwoTier.fresh id capacity ssd choice env).node.openNode openEnv = (.ok (), n))
    (calls : List NodeCall) (hcalls : ∀ c ∈ calls, c.isData = true) :
    ∃ replies n', run StorageNode.step n calls = .ok (replies, n') ∧
      Answers n' (follow TwoTier.recordPut (fun k => (ssd.at? k).map (·.block)) calls replies) := by
  obtain ⟨x, rfl, hx, hready, hrested, hdram, hpolicy, -⟩ := TwoTier.opened_start trivial hopen
  have htracked := TwoTier.tracked_of_empty hdram hpolicy (choice.make_law env)
  have hM : x.levels.view = fun k => (ssd.at? k).map (·.block) :=
    TwoTier.view_of_empty_dram hdram hrested.contents
  have hrun := TwoTier.run_served (C := fun _ _ => True) TwoTier.recordPut
    (fun y M => y.levels.view = M) hx hready
    (fun y z M c o _ _ _ hserved hM => by rw [hserved.view_eq, hM])
    (along_of_forall _ fun c hc => ⟨hcalls c hc, trivial⟩) hM
  obtain ⟨⟨replies, n'⟩, heq, y, rfl, hfollow, hview⟩ := hrun.answer htracked
  refine ⟨replies, y.node, heq, hview ▸ ?_⟩
  exact hfollow.coherent.answers (hfollow.ready.trans hready) (hfollow.tracked htracked)
    (hfollow.cold.exact (hrested.exact hreads))

/-- An open node with one byte of DRAM and an empty SSD. -/
def tiny : StorageNode (DramTier ⊕ MapTier) Policy :=
  ((TwoTier.fresh "n" 1 ({} : MapTier) .lru {}).node.openNode {}).2

def tinyPut (i : UInt64) (byte : UInt8) : NodeCall :=
  .put ⟨i, 1, 7⟩ ⟨{}, ⟨[byte], by simp [UInt64.size]⟩⟩

def tinyGet (i : UInt64) : NodeCall := .get ⟨i, 1, 7⟩ ⟨true, 1⟩ (some {})

/-- The second `Put` demotes the first block, the third overwrites it in DRAM. -/
theorem node_refines_map_tiny :
    ∃ replies n', run StorageNode.step tiny [tinyPut 1 10, tinyPut 2 20, tinyPut 1 11] = .ok (replies, n') ∧
      Answers n' (follow TwoTier.recordPut (fun _ => none) [tinyPut 1 10, tinyPut 2 20, tinyPut 1 11]
        replies) :=
  node_refines_map "n" 1 {} .lru {} {} tiny (fun _ => rfl) rfl _ (by simp [tinyPut, NodeCall.isData])

end TidePool.Store
