import TidePool.Store.DramOnly
import TidePool.Store.Logged
import TidePool.Store.SsdOnly

/-! A storage node as it is set up: the tiers, what the cold tier has on it, and what the surroundings decide.

        {DRAM, cold}   a `Put` is volatile until it is demoted
        {cold}         every `Put` is on disk when it returns
        {DRAM}         no `Put` is ever on disk

    Each time the node is a store that is opened and closed. Whoever owns a node needs no more than
    `Stands.step`: each public call replies within the terms of the set-up, for the store as the earlier
    replies have left it. A `Setup` has a cold tier, which outlives the process that owns the node; a `Home`
    may do without, and is what a connector finds next to it. -/

namespace TidePool.Store
open Schemes

/-- The tiers a node with a cold tier is configured with. -/
inductive Layout where
  | tiered (capacity : UInt64) (choice : PolicyChoice)
  | ssdOnly (choice : Option PolicyChoice)

/-- The blocks that go to disk at once. -/
def Layout.through : Layout → Block → Bool
  | .tiered capacity _ => tooLarge capacity
  | .ssdOnly _ => fun _ => true

/-- Two fills of the DRAM tier are counted in 64 bits; no limit (capacity 0) is not counted at all. -/
def Layout.Small : Layout → Prop
  | .tiered capacity _ => 2 * capacity.toNat < UInt64.size
  | .ssdOnly _ => True

/-- What it takes for a node of this layout that holds the blocks `M` to take another one: whatever is in DRAM
    may have to be demoted, and then the cold tier must accept it. -/
def Layout.Admits (layout : Layout) (accepts : BlockKey → Block → Prop) (M : BlockKey → Option Block) :
    Prop :=
  match layout with
  | .tiered _ _ => layout.Small ∧ ∀ k b, M k = some b → accepts k b
  | .ssdOnly _ => True

theorem Layout.Small.admits {layout : Layout} (h : layout.Small) {accepts : BlockKey → Block → Prop}
    {M : BlockKey → Option Block} (hM : ∀ k b, M k = some b → accepts k b) : layout.Admits accepts M := by
  cases layout with
  | tiered capacity choice => exact ⟨h, hM⟩
  | ssdOnly choice => trivial

theorem Layout.Admits.mono {layout : Layout} {accepts accepts' : BlockKey → Block → Prop}
    {M M' : BlockKey → Option Block} (h : layout.Admits accepts M)
    (hM : (∀ k b, M k = some b → accepts k b) → ∀ k b, M' k = some b → accepts' k b) :
    layout.Admits accepts' M' := by
  cases layout with
  | tiered capacity choice => exact ⟨h.1, hM h.2⟩
  | ssdOnly choice => trivial

theorem Layout.Admits.join {layout : Layout} {accepts : BlockKey → Block → Prop}
    {M M' N : BlockKey → Option Block}
    (h : layout.Admits accepts M) (h' : layout.Admits accepts M') (hN : ∀ k, N k = M k ∨ N k = M' k) :
    layout.Admits accepts N := by
  cases layout with
  | tiered capacity choice =>
    refine ⟨h.1, fun k b hb => ?_⟩
    rcases hN k with hk | hk
    · exact h.2 k b (hk ▸ hb)
    · exact h'.2 k b (hk ▸ hb)
  | ssdOnly choice => trivial

/-- A node with a cold tier, not yet opened. -/
structure Setup (σ : Type) where
  id : String
  layout : Layout
  ssd : σ
  env : Surroundings := {}

namespace Setup

variable {σ : Type}

/-- The node, if DRAM is in front of the cold tier. -/
def tiered (x : Setup σ) (capacity : UInt64) (choice : PolicyChoice) : TwoTier σ Policy :=
  .fresh x.id capacity x.ssd choice x.env

/-- The node, if the cold tier is alone. -/
def ssdOnly (x : Setup σ) (choice : Option PolicyChoice) : SsdOnly σ Policy where
  id := x.id
  ssd := x.ssd
  policy := choice.map (·.make x.env)
  allocs := x.env.nodeAllocs

def boot (x : Setup σ) : StorageNode (DramTier ⊕ σ) Policy :=
  match x.layout with
  | .tiered capacity choice => (x.tiered capacity choice).node
  | .ssdOnly choice => (x.ssdOnly choice).node

/-- The blocks on the cold tier. -/
def found [ColdView σ] (x : Setup σ) (k : BlockKey) : Option Block :=
  (ColdView.contents x.ssd k).map (·.block)

/-- What may come between the node and its map. -/
def terms [ColdView σ] (x : Setup σ) : Terms where
  reads := readFaults x.ssd
  puts := { st | st.code = .outOfCapacity ∨ st ∈ ColdView.faults x.ssd ∨
    ∃ i, x.env.insertFaults.get i = some st }
  takes M k b := x.env.Calm ∧ x.layout.Admits (ColdView.Accepts x.ssd) M ∧ ColdView.Accepts x.ssd k b
  opens := openCodes x.ssd
  sound := ColdView.Opens x.ssd

variable [ColdTier σ] {x : Setup σ}

theorem tiered_terms {capacity : UInt64} {choice : PolicyChoice}
    (hlayout : x.layout = .tiered capacity choice) :
    (x.tiered capacity choice).terms.Within x.terms where
  reads := subset_rfl
  puts := by
    rintro st (hooc | hst | hst)
    · exact .inl hooc
    · exact .inr (.inl hst)
    · exact .inr (.inr ((choice.make_faults x.env).subset hst))
  takes := by
    rintro M k b ⟨hcalm, hadmits, haccepts⟩
    rw [hlayout] at hadmits
    by_cases hbig : (x.tiered capacity choice).Oversized b
    · exact .inl ⟨hbig, hcalm.node, haccepts⟩
    · exact .inr ⟨hbig, TwoTier.fresh_calm hcalm, hadmits⟩
  opens := subset_rfl
  sound h := h

theorem ssdOnly_terms (x : Setup σ) (choice : Option PolicyChoice) :
    (x.ssdOnly choice).terms.Within x.terms where
  reads := subset_rfl
  puts := by
    rintro st (hooc | hst)
    · exact .inl hooc
    · exact .inr (.inl hst)
  takes := fun M k b ⟨hcalm, _, haccepts⟩ => ⟨hcalm.node, haccepts⟩
  opens := subset_rfl
  sound h := h

/-- A node that came from the set-up and stands for a store, open or closed. -/
inductive Stands (x : Setup σ) :
    StorageNode (DramTier ⊕ σ) Policy → Session (Durable BlockKey Block) → Prop
  | tiered {capacity : UInt64} {choice : PolicyChoice} {y : TwoTier σ Policy} {a : Durable BlockKey Block}
      (layout : x.layout = .tiered capacity choice) (evolves : (x.tiered capacity choice).Evolves y)
      (holds : y.levels.Holds a) : Stands x y.node ⟨y.ready, a⟩
  | ssdOnly {choice : Option PolicyChoice} {y : SsdOnly σ Policy} {a : Durable BlockKey Block}
      (layout : x.layout = .ssdOnly choice) (evolves : (x.ssdOnly choice).Evolves y)
      (holds : y.levels.Holds a) : Stands x y.node ⟨y.ready, a⟩

/-- BOOT: closed, and what is on the cold tier is settled. -/
theorem boot_stands (hx : ColdView.Intact x.ssd) : x.Stands x.boot { store := .settled x.found } := by
  cases hlayout : x.layout with
  | tiered capacity choice =>
    simp only [boot, hlayout]
    exact .tiered hlayout (.refl (TwoTier.fresh_alive hx)) (TwoLevel.holds_settled fun k => rfl)
  | ssdOnly choice =>
    simp only [boot, hlayout]
    exact .ssdOnly hlayout (.refl ⟨hx, by simp [ssdOnly]⟩) (TwoLevel.holds_settled fun k => rfl)

variable {n : StorageNode (DramTier ⊕ σ) Policy} {s : Session (Durable BlockKey Block)}

theorem Stands.ready (h : x.Stands n s) : n.ready = s.opened := by
  cases h <;> rfl

/-- STEP: whatever the layout, every public call replies for the store. -/
theorem Stands.step (h : x.Stands n s) (c : NodeCall) :
    ∃ o n', n.step c = .ok (o, n') ∧ x.terms.Replies s.opened s.store.now c o ∧
      x.Stands n' (s.record (recordDurable x.layout.through) c o) := by
  cases h with
  | tiered hlayout hy ha =>
    rename_i capacity choice y a
    obtain ⟨o, z, heq, hz⟩ := TwoTier.step_handled hy.alive (hy.tracked TwoTier.fresh_tracked) ha c
    have hcapacity : y.dram.stats.capacityBytes = capacity := hy.capacity
    have hholds := hz.holds
    rw [hcapacity] at hholds
    refine ⟨o, z.node, heq, hz.replies.mono ((hy.terms TwoTier.fresh_tracked).trans
      (tiered_terms hlayout)), ?_⟩
    rw [Session.record, ← hz.ready, hlayout]
    exact .tiered hlayout (hy.trans hz.evolves) hholds
  | ssdOnly hlayout hy ha =>
    obtain ⟨o, z, heq, hz⟩ := SsdOnly.step_handled hy.alive ha c
    refine ⟨o, z.node, heq, hz.replies.mono (hy.terms.trans (x.ssdOnly_terms _)), ?_⟩
    rw [Session.record, ← hz.ready, hlayout]
    exact .ssdOnly hlayout (hy.trans hz.evolves) hz.holds

end Setup

/-! ### DRAM alone -/

namespace StorageNode

variable {υ τ π : Type} {f : υ → τ}

theorem mapTiers_injective (hf : Function.Injective f) : Function.Injective (mapTiers (π := π) f) := by
  have htiers : ∀ t t' : Option υ, t.map f = t'.map f → t = t' := fun _ _ h => Option.map_injective hf h
  rintro ⟨_, _, _, _, _, _, _⟩ ⟨_, _, _, _, _, _, _⟩ h
  simp only [mapTiers, StorageNode.mk.injEq, List.map_inj_right htiers] at h
  obtain ⟨rfl, rfl, rfl, rfl, rfl, rfl, rfl⟩ := h
  rfl

end StorageNode

/-- A tier that is one of two answers as the one it is. -/
theorem mirrors_inl {σ : Type} [Tier σ] : Mirrors (Sum.inl : DramTier → DramTier ⊕ σ) where
  type _ := rfl
  stats _ := rfl
  probe _ _ := rfl
  put _ _ _ := rfl
  get _ _ _ _ := rfl
  validate _ _ := rfl
  erase _ _ := rfl

namespace TwoTier

variable {σ π : Type}

/-- The node with its DRAM tier alone. -/
def inDram (x : TwoTier MapTier π) : StorageNode DramTier π where
  id := x.id
  tiers := [some x.dram]
  eviction := x.policy
  index := x.index
  ready := x.ready
  stats := x.stats
  allocs := x.allocs

variable [Tier σ] [EvictionPolicy π] {x y : TwoTier MapTier π} {c : NodeCall} {o : NodeReply}

omit [EvictionPolicy π] in
theorem openNode_inDram (x : TwoTier MapTier π) (env : StorageNode.OpenEnv) :
    (x.inDram.mapTiers (Sum.inl : DramTier → DramTier ⊕ σ)).openNode env =
      ((x.inDram.openNode env).1, (x.inDram.openNode env).2.mapTiers Sum.inl) := by
  have htiers : StorageNode.openTiers [some x.dram] 0 = ([some x.dram], 1, none) := rfl
  have htiers' : StorageNode.openTiers [some (Sum.inl x.dram : DramTier ⊕ σ)] 0 =
      ([some (.inl x.dram)], 1, none) := rfl
  have hrecover :
      StorageNode.recoverIndex x.id env.snapshot [some (Sum.inl x.dram : DramTier ⊕ σ)] 0 {} env.allocs =
        StorageNode.recoverIndex x.id env.snapshot [some x.dram] 0 {} env.allocs := rfl
  simp only [StorageNode.openNode, inDram, StorageNode.mapTiers, List.map_cons, List.map_nil,
    Option.map_some, List.isEmpty_cons, htiers, htiers', hrecover]
  cases x.ready with
  | true => rfl
  | false =>
    cases StorageNode.recoverIndex x.id env.snapshot [some x.dram] 0 {} env.allocs with
    | ok index => rfl
    | error f =>
      -- the message names the tier it failed at
      obtain ⟨_ | i, s⟩ := f <;> rfl

/-- Every public call, on the one tier it has. -/
theorem step_inDram (x : TwoTier MapTier π) (c : NodeCall) :
    (x.inDram.mapTiers (Sum.inl : DramTier → DramTier ⊕ σ)).step c =
      (x.inDram.step c).map (StorageNode.imaged Sum.inl) := by
  by_cases hc : c.isData = true
  · exact x.inDram.step_mapTiers mirrors_inl hc
  · cases c with
    | openNode env =>
      simp only [StorageNode.step, x.openNode_inDram env]
      rfl
    | closeNode => rfl
    | _ => exact absurd rfl hc

/-- The node in DRAM alone, among the nodes that may have a cold tier. -/
def alone (σ : Type) (x : TwoTier MapTier π) : StorageNode (DramTier ⊕ σ) π := x.inDram.mapTiers Sum.inl

/-- ALONE: what the tiers could be is nothing to a node that has none of them. -/
theorem step_alone (h : x.node.hotOnly.step c = .ok (o, y.node.hotOnly)) :
    (x.alone σ).step c = .ok (o, y.alone σ) := by
  have hinl : (x.inDram.mapTiers (Sum.inl : DramTier → DramTier ⊕ MapTier)).step c = _ := x.step_inDram c
  cases hstep : x.inDram.step c with
  | error e =>
    rw [hstep] at hinl
    cases hinl.symm.trans h
  | ok res =>
    obtain ⟨o', n⟩ := res
    rw [hstep] at hinl
    obtain ⟨rfl, hn⟩ := Prod.mk.inj (Except.ok.inj (hinl.symm.trans h))
    obtain rfl : n = y.inDram := StorageNode.mapTiers_injective Sum.inl_injective hn
    rw [alone, x.step_inDram c, hstep]
    rfl

end TwoTier

/-! ### With a cold tier or without -/

/-- A node nobody has opened: with a cold tier, or in DRAM alone. -/
inductive Home (σ : Type) where
  | disk (x : Setup σ)
  | dram (id : String) (capacity : UInt64) (choice : PolicyChoice) (env : Surroundings)

namespace Home

variable {σ : Type}

def boot : Home σ → StorageNode (DramTier ⊕ σ) Policy
  | .disk x => x.boot
  | .dram id capacity choice env =>
    { id
      tiers := [some (.inl (DramTier.make capacity env.dramAllocs))]
      eviction := some (choice.make env)
      allocs := env.nodeAllocs }

/-- What the surroundings decide. -/
def env : Home σ → Surroundings
  | .disk x => x.env
  | .dram _ _ _ env => env

/-- The cold tier, if there is one, has only records that it can read. -/
def Intact [ColdView σ] : Home σ → Prop
  | .disk x => ColdView.Intact x.ssd
  | .dram _ _ _ _ => True

/-- What a failing cold tier may report. -/
def faults [ColdView σ] : Home σ → Set Status
  | .disk x => ColdView.faults x.ssd
  | .dram _ _ _ _ => ∅

/-- The blocks on the cold tier. -/
def found [ColdView σ] : Home σ → BlockKey → Option Block
  | .disk x => x.found
  | .dram _ _ _ _ => fun _ => none

/-- What may come between the node and its map. On a disk it may have found blocks that are no concern of its
    callers: they may have to be moved as well. -/
def terms [ColdView σ] : Home σ → Terms
  | .disk x =>
    { x.terms with
      takes := fun M k b => x.layout.Admits (ColdView.Accepts x.ssd) x.found ∧ x.terms.takes M k b }
  | .dram _ capacity _ env =>
    { reads := ∅
      puts := { st | st.code = .outOfCapacity ∨ ∃ i, env.insertFaults.get i = some st }
      takes := fun _ _ _ => env.Calm ∧ capacity = 0
      opens := {.outOfCapacity}
      sound := True }

theorem disk_terms [ColdView σ] (x : Setup σ) : x.terms.Within (Home.disk x).terms :=
  ⟨subset_rfl, subset_rfl, fun _ _ _ h => h.2, subset_rfl, fun h => h⟩

theorem dram_terms [ColdView σ] (id : String) (capacity : UInt64) (choice : PolicyChoice)
    (env : Surroundings) : (TwoTier.fresh id capacity ({} : MapTier) choice env).bareTerms.Within
      (Home.dram id capacity choice env : Home σ).terms where
  reads := subset_rfl
  puts := by
    rintro st (hooc | (⟨i, hi⟩ | ⟨i, hi⟩) | hst)
    · exact .inl hooc
    · cases hi
    · cases hi
    · exact .inr ((choice.make_faults env).subset hst)
  takes _ _ _ h := ⟨TwoTier.fresh_calm h.1, h.2⟩
  opens := subset_rfl
  sound := fun h => h

/-- Blocks that were found are no reason to refuse another one. -/
theorem takes_join [ColdView σ] {x : Home σ} {M N : BlockKey → Option Block} {k : BlockKey} {b : Block}
    (h : x.terms.takes M k b) (hN : ∀ j, N j = M j ∨ N j = x.found j) : x.terms.takes N k b := by
  cases x with
  | disk x =>
    obtain ⟨hfound, hcalm, hadmits, haccepts⟩ := h
    exact ⟨hfound, hcalm, hadmits.join hfound hN, haccepts⟩
  | dram id capacity choice env => exact h

/-- What a failing `Put` may report, in all. -/
theorem mem_puts [ColdView σ] {x : Home σ} {st : Status} (h : st ∈ x.terms.puts) :
    st.code = .outOfCapacity ∨ st ∈ x.faults ∨ ∃ i, x.env.insertFaults.get i = some st := by
  cases x with
  | disk x => exact h
  | dram id capacity choice env => exact h.imp_right .inr

theorem mem_reads [ColdView σ] {x : Home σ} {st : Status} (h : st ∈ x.terms.reads) : st ∈ x.faults := by
  cases x with
  | disk x => exact h.1
  | dram id capacity choice env => exact h

variable [ColdTier σ]

/-- A node that came from the set-up and stands for the blocks of the session. -/
inductive Stands : Home σ → StorageNode (DramTier ⊕ σ) Policy → Session (BlockKey → Option Block) → Prop
  | disk {x : Setup σ} {n : StorageNode (DramTier ⊕ σ) Policy} {opened : Bool} {a : Durable BlockKey Block}
      (stands : x.Stands n ⟨opened, a⟩) : Stands (.disk x) n ⟨opened, a.now⟩
  | dram {id : String} {capacity : UInt64} {choice : PolicyChoice} {env : Surroundings}
      {y : TwoTier MapTier Policy} {m : BoundedMap}
      (evolves : (TwoTier.fresh id capacity {} choice env).Evolves y) (keeps : y.Keeps m) :
      Stands (.dram id capacity choice env) (y.alone σ) ⟨m.opened, m.at?⟩

/-- BOOT: closed, and the blocks are those on the cold tier. -/
theorem boot_stands {x : Home σ} (hx : x.Intact) : x.Stands x.boot { store := x.found } := by
  cases x with
  | disk x => exact .disk (Setup.boot_stands hx)
  | dram id capacity choice env =>
    have hkeeps : (TwoTier.fresh id capacity ({} : MapTier) choice env).Keeps {} :=
      ⟨TwoTier.fresh_alive trivial, fun _ => rfl, rfl, fun _ => rfl⟩
    exact .dram (.refl hkeeps.alive) hkeeps

variable {x : Home σ} {n : StorageNode (DramTier ⊕ σ) Policy} {s : Session (BlockKey → Option Block)}

theorem Stands.ready (h : x.Stands n s) : n.ready = s.opened := by
  cases h with
  | disk stands => exact stands.ready
  | dram _ keeps => exact keeps.opened.symm

/-- STEP: with a cold tier or without, every public call replies for the blocks of the session. -/
theorem Stands.step (h : x.Stands n s) (c : NodeCall) :
    ∃ o n', n.step c = .ok (o, n') ∧ x.terms.Replies s.opened s.store c o ∧
      x.Stands n' (s.record TwoTier.recordPut c o) := by
  cases h with
  | disk stands =>
    obtain ⟨o, n', heq, hreply, hstands⟩ := stands.step c
    refine ⟨o, n', heq, hreply.mono (disk_terms _), ?_⟩
    have hafter := Stands.disk hstands
    rwa [recordDurable_now] at hafter
  | dram evolves keeps =>
    rename_i y m
    have htracked := evolves.tracked TwoTier.fresh_tracked
    obtain ⟨⟨o, n⟩, heq, z, rfl, hz⟩ := (TwoTier.step_bare keeps c).answer htracked
    have hreply := (hz.within htracked).mono
      ((evolves.bareTerms TwoTier.fresh_tracked).trans (dram_terms (σ := σ) _ _ _ _))
    rw [← keeps.opened] at hreply
    refine ⟨o, z.alone σ, TwoTier.step_alone heq, hreply, ?_⟩
    have hafter : Stands (σ := σ) _ _ _ := .dram (evolves.trans hz.evolves) hz.keeps
    rwa [BoundedMap.record_session] at hafter

end Home

end TidePool.Store
