import TidePool.Schemes.TwoLevel
import TidePool.Store.ColdTier
import TidePool.Store.DramTier
import TidePool.Store.StorageNode

/-! The node in its usual configuration, DRAM in front of a cold tier.

    `TwoTier` names the two tiers; `node` is the storage node it stands for, and the lemmas after it
    say what the node's calls through a `Tier*` are on the named tiers. Then come the invariants:

        Coherent   the index is exactly what the tiers hold (`primary`), the books are right, the
                   capacity is kept
        Tracked    the policy's residents are the DRAM keys and nothing is reserved

    `Coherent` needs nothing of the policy; only `Tracked` does, and only `Tracked` rules out that the
    policy aborts the process. -/

namespace TidePool.Store
open Schemes

structure TwoTier (σ π : Type) where
  id : String
  dram : DramTier
  ssd : σ
  policy : Option π
  index : LocalIndex := {}
  ready : Bool := false
  stats : StorageNodeStats := {}
  allocs : Stream' Bool := Stream'.const true

namespace TwoTier

variable {σ π : Type}

/-- The storage node with tiers `{DRAM, SSD}`. -/
def node (x : TwoTier σ π) : StorageNode (DramTier ⊕ σ) π where
  id := x.id
  tiers := [some (.inl x.dram), some (.inr x.ssd)]
  eviction := x.policy
  index := x.index
  ready := x.ready
  stats := x.stats
  allocs := x.allocs

section Fields

variable (x : TwoTier σ π)

@[simp] theorem node_id : x.node.id = x.id := rfl

@[simp] theorem node_index : x.node.index = x.index := rfl

@[simp] theorem node_ready : x.node.ready = x.ready := rfl

@[simp] theorem node_eviction : x.node.eviction = x.policy := rfl

@[simp] theorem node_allocs : x.node.allocs = x.allocs := rfl

end Fields

/-- The next allocation of the node has happened. -/
def drawn (x : TwoTier σ π) : TwoTier σ π := { x with allocs := x.allocs.tail }

/-! ### Calls on the named tiers -/

section Calls

variable [Tier σ] (x : TwoTier σ π) (key : BlockKey) (b : Block)

theorem probe_dram : x.node.callTier 0 (Tier.probe · key) = .ok (x.dram.probe key, x.node) := rfl

theorem put_dram : x.node.callTier 0 (Tier.put · key b) =
    .ok ((x.dram.put key b).1, { x with dram := (x.dram.put key b).2 }.node) := rfl

theorem put_ssd : x.node.callTier 1 (Tier.put · key b) =
    .ok ((Tier.put x.ssd key b).1, { x with ssd := (Tier.put x.ssd key b).2 }.node) := rfl

theorem probe_ssd : x.node.callTier 1 (Tier.probe · key) =
    .ok ((Tier.probe x.ssd key).1, { x with ssd := (Tier.probe x.ssd key).2 }.node) := rfl

theorem fetch_dram (dst : MutableBuffer) (out : Option BlockView) :
    x.node.callTier 0 (StorageNode.fetch key dst out) =
      .ok (((x.dram.get key dst out).1, (x.dram.get key dst out).2.1),
        { x with dram := (x.dram.get key dst out).2.2 }.node) := rfl

theorem fetch_ssd (dst : MutableBuffer) (out : Option BlockView) :
    x.node.callTier 1 (StorageNode.fetch key dst out) =
      .ok (((Tier.get x.ssd key dst out).1, (Tier.get x.ssd key dst out).2.1),
        { x with ssd := (Tier.get x.ssd key dst out).2.2 }.node) := rfl

theorem stats_dram : x.node.askTier 0 Tier.stats = .ok x.dram.stats := rfl

theorem type_ssd : x.node.askTier 1 Tier.type = .ok (Tier.type x.ssd) := rfl

theorem validateErase_dram :
    x.node.askTier 0 (Tier.validateEraseExisting · key) = .ok (x.dram.validateEraseExisting key) := rfl

theorem tierOfLocked_dram : x.node.tierOfLocked .dram = some 0 := rfl

end Calls

theorem erase_dram [Tier σ] {x : TwoTier σ π} {key : BlockKey} {e : Entry} (h : x.dram.at? key = some e) :
    x.node.eraseFrom 0 key = .ok { x with dram := x.dram.eraseEntry key e }.node := by
  have hask : x.node.askTier 0 (Tier.eraseExisting · key) =
      .ok ((x.dram.eraseExisting key).map Sum.inl) := rfl
  simp only [StorageNode.eraseFrom, hask, DramTier.eraseExisting_of_at? h]
  rfl

theorem tierOfLocked_ssd [ColdTier σ] (x : TwoTier σ π) : x.node.tierOfLocked .ssd = some 1 := by
  have hssd : Tier.type x.ssd = .ssd := ColdTier.type_ssd x.ssd
  have hdram : Tier.type (Sum.inl x.dram : DramTier ⊕ σ) = .dram := rfl
  have hcold : Tier.type (Sum.inr x.ssd : DramTier ⊕ σ) = Tier.type x.ssd := rfl
  simp [StorageNode.tierOfLocked, node, List.findIdx?_cons, hdram, hcold, hssd]

/-! ### Invariants -/

/-- DRAM's books are right and its capacity is kept. -/
structure Sound (x : TwoTier σ π) : Prop where
  accounted : x.dram.Accounted
  bounded : x.dram.stats.capacityBytes ≠ 0 → x.dram.totalBytes ≤ x.dram.stats.capacityBytes.toNat

/-- With a capacity, `used_bytes` is the exact total. -/
theorem Sound.used_eq {x : TwoTier σ π} (h : x.Sound) (hcap : x.dram.stats.capacityBytes ≠ 0) :
    x.dram.stats.usedBytes.toNat = x.dram.totalBytes := by
  have hle := h.bounded hcap
  have hlt := x.dram.stats.capacityBytes.toNat_lt
  rw [h.accounted.usedBytes, UInt64.toNat_ofNat_of_lt' (by simp only [UInt64.size]; omega)]

section Views

variable [ColdView σ]

/-- The blocks in the two tiers. -/
def levels (x : TwoTier σ π) : TwoLevel BlockKey Block where
  hot k := (x.dram.at? k).map (·.block)
  cold k := (ColdView.contents x.ssd k).map (·.block)

/-- Where the tiers say a key is: DRAM if it is there, else the cold tier. -/
def primary (x : TwoTier σ π) (k : BlockKey) : Option Location :=
  match x.dram.at? k with
  | some e => some ⟨x.id, .dram, e.handle⟩
  | none => (ColdView.contents x.ssd k).map fun e => ⟨x.id, .ssd, e.handle⟩

/-- The cold tier is open and the index is exactly what the tiers hold. -/
structure Coherent (x : TwoTier σ π) : Prop extends Sound x where
  cold : ColdView.Wf x.ssd
  index : ∀ k, x.index.at? k = x.primary k

variable {x y z : TwoTier σ π}

/-- Same entries, same index: still coherent. -/
theorem Coherent.same (h : x.Coherent) (hid : y.id = x.id) (hdram : x.dram.SameEntries y.dram)
    (hcold : ColdView.Wf y.ssd) (hssd : ColdView.contents y.ssd = ColdView.contents x.ssd)
    (hindex : y.index = x.index) : y.Coherent where
  accounted := hdram.accounted h.accounted
  bounded hcap := by
    rw [hdram.capacityBytes] at hcap ⊢
    rw [hdram.totalBytes]
    exact h.bounded hcap
  cold := hcold
  index k := by
    rw [hindex, h.index, primary, primary, hdram.at?, hssd, hid]

theorem levels_same (hdram : x.dram.SameEntries y.dram)
    (hssd : ColdView.contents y.ssd = ColdView.contents x.ssd) : y.levels = x.levels := by
  simp only [levels, hdram.at?, hssd]

/-- Only counters, the policy and what is left of the streams differ. -/
structure Idle (x y : TwoTier σ π) : Prop where
  id : y.id = x.id
  ready : y.ready = x.ready
  index : y.index = x.index
  dram : x.dram.SameEntries y.dram
  cold : ColdKept x.ssd y.ssd
  contents : ColdView.contents y.ssd = ColdView.contents x.ssd
  allocs : (∀ i, x.allocs.get i = true) → ∀ i, y.allocs.get i = true

theorem Idle.refl (h : ColdView.Wf x.ssd) : x.Idle x :=
  ⟨rfl, rfl, rfl, .refl _, .refl h, rfl, fun ha => ha⟩

theorem Idle.trans (h : x.Idle y) (h' : y.Idle z) : x.Idle z where
  id := h'.id.trans h.id
  ready := h'.ready.trans h.ready
  index := h'.index.trans h.index
  dram := h.dram.trans h'.dram
  cold := h.cold.trans h'.cold
  contents := h'.contents.trans h.contents
  allocs := h'.allocs ∘ h.allocs

theorem idle_drawn (x : TwoTier σ π) (h : ColdView.Wf x.ssd) : x.Idle x.drawn :=
  ⟨rfl, rfl, rfl, .refl _, .refl h, rfl, fun ha i => ha (i + 1)⟩

theorem Idle.coherent (h : x.Idle y) (hx : x.Coherent) : y.Coherent :=
  hx.same h.id h.dram h.cold.wf h.contents h.index

theorem Idle.levels (h : x.Idle y) : y.levels = x.levels := levels_same h.dram h.contents

/-- A key is in DRAM iff the hot level has it. -/
theorem hot_ne_none {k : BlockKey} : x.levels.hot k ≠ none ↔ x.dram.at? k ≠ none := by
  simp [levels]

theorem cold_ne_none {k : BlockKey} :
    x.levels.cold k ≠ none ↔ ColdView.contents x.ssd k ≠ none := by
  simp [levels]

theorem Coherent.index_dram (h : x.Coherent) {k : BlockKey} {e : Entry} (hk : x.dram.at? k = some e) :
    x.index.at? k = some ⟨x.id, .dram, e.handle⟩ := by
  rw [h.index, primary, hk]

/-- The index names DRAM only for DRAM keys. -/
theorem Coherent.dram_of_index (h : x.Coherent) {k : BlockKey} {loc : Location}
    (hk : x.index.at? k = some loc) (hloc : loc.tier = .dram) : ∃ e, x.dram.at? k = some e := by
  rw [h.index, primary] at hk
  cases hd : x.dram.at? k with
  | some e => exact ⟨e, rfl⟩
  | none =>
    simp only [hd, Option.map_eq_some_iff] at hk
    obtain ⟨e, -, rfl⟩ := hk
    cases hloc

/-- The index names the cold tier only for keys that are not in DRAM. -/
theorem Coherent.ssd_of_index (h : x.Coherent) {k : BlockKey} {loc : Location}
    (hk : x.index.at? k = some loc) (hloc : loc.tier ≠ .dram) :
    x.dram.at? k = none ∧ loc.tier = .ssd ∧ ∃ e, ColdView.contents x.ssd k = some e := by
  rw [h.index, primary] at hk
  cases hd : x.dram.at? k with
  | some e => simp only [hd, Option.some.injEq] at hk; subst hk; exact absurd rfl hloc
  | none =>
    simp only [hd, Option.map_eq_some_iff] at hk
    obtain ⟨e, he, rfl⟩ := hk
    exact ⟨rfl, rfl, e, he⟩

theorem Coherent.nodeId_of_index (h : x.Coherent) {k : BlockKey} {loc : Location}
    (hk : x.index.at? k = some loc) : loc.nodeId = x.id := by
  rw [h.index, primary] at hk
  cases hd : x.dram.at? k with
  | some e => simp only [hd, Option.some.injEq] at hk; rw [← hk]
  | none =>
    simp only [hd, Option.map_eq_some_iff] at hk
    obtain ⟨e, -, rfl⟩ := hk
    rfl

theorem Coherent.absent_of_index (h : x.Coherent) {k : BlockKey} (hk : x.index.at? k = none) :
    x.dram.at? k = none ∧ ColdView.contents x.ssd k = none := by
  rw [h.index, primary] at hk
  cases hd : x.dram.at? k with
  | some e => simp [hd] at hk
  | none => simp only [hd, Option.map_eq_none_iff] at hk; exact ⟨rfl, hk⟩

/-- Changing one key in the tiers and in the index alike. -/
theorem index_update (h : x.Coherent) (k : BlockKey) (loc : Option Location) (hid : y.id = x.id)
    (hdram : ∀ j, j ≠ k → y.dram.at? j = x.dram.at? j)
    (hssd : ∀ j, j ≠ k → ColdView.contents y.ssd j = ColdView.contents x.ssd j)
    (hindex : ∀ j, y.index.at? j = if j = k then loc else x.index.at? j) (hk : y.primary k = loc)
    (j : BlockKey) : y.index.at? j = y.primary j := by
  rw [hindex]
  split
  · rename_i hj; subst hj; exact hk.symm
  · rename_i hj
    rw [h.index, primary, primary, hdram j hj, hssd j hj, hid]

end Views

/-! ### The policy's part -/

section PolicyPart

variable [PolicyView π] {x y z : TwoTier σ π}

/-- From a free policy that tracks DRAM to one that still does. -/
def PolicyStep (x y : TwoTier σ π) : Prop :=
  ∀ p, x.policy = some p → PolicyView.Wf p → PolicyView.reserved p = none →
    (∀ k, k ∈ PolicyView.resident p ↔ x.dram.at? k ≠ none) →
    ∃ p', y.policy = some p' ∧ PolicyKept p p' ∧ PolicyView.reserved p' = none ∧
      ∀ k, k ∈ PolicyView.resident p' ↔ y.dram.at? k ≠ none

theorem PolicyStep.same (hp : y.policy = x.policy) (hd : ∀ k, y.dram.at? k = x.dram.at? k) :
    x.PolicyStep y := by
  intro p hx hwf hfree htrack
  exact ⟨p, hp.trans hx, .refl hwf, hfree, fun k => by rw [hd, htrack]⟩

theorem PolicyStep.congr (h : x.PolicyStep y) (hp : z.policy = y.policy)
    (hd : ∀ k, z.dram.at? k ≠ none ↔ y.dram.at? k ≠ none) : x.PolicyStep z := by
  intro p hx hwf hfree htrack
  obtain ⟨p', hp', hkept, hfree', htrack'⟩ := h p hx hwf hfree htrack
  exact ⟨p', hp.trans hp', hkept, hfree', fun k => (htrack' k).trans (hd k).symm⟩

variable [ColdView σ]

/-- The policy knows exactly the DRAM keys and holds no reservation. -/
def Tracked (x : TwoTier σ π) : Prop :=
  ∃ p, x.policy = some p ∧ PolicyView.Wf p ∧ PolicyView.reserved p = none ∧
    ∀ k, k ∈ PolicyView.resident p ↔ x.dram.at? k ≠ none

/-- What a failing cold tier or policy may report. -/
def faults (x : TwoTier σ π) : Set Status :=
  ColdView.faults x.ssd ∪ x.policy.elim ∅ PolicyView.faults

/-- What a failing `Put` may report: no room, or what the cold tier or the policy said. -/
def putFaults (x : TwoTier σ π) : Set Status := { s | s.code = .outOfCapacity ∨ s ∈ x.faults }

/-- No allocation and no policy insert will fail. -/
structure Calm (x : TwoTier σ π) : Prop where
  node : ∀ i, x.allocs.get i = true
  dram : x.dram.Calm
  policy : ∀ p, x.policy = some p → PolicyView.Reliable p

/-- Everything in DRAM could be written to the cold tier. -/
def Demotable (x : TwoTier σ π) : Prop :=
  ∀ k b, x.levels.hot k = some b → ColdView.Accepts x.ssd k b

/-- What every call keeps. A policy that is not lawful keeps nothing of its own. -/
structure Follows (x y : TwoTier σ π) : Prop where
  id : y.id = x.id
  ready : y.ready = x.ready
  capacity : y.dram.stats.capacityBytes = x.dram.stats.capacityBytes
  coherent : y.Coherent
  cold : ColdKept x.ssd y.ssd
  tracked : x.Tracked → y.Tracked
  faults : x.Tracked → y.faults ⊆ x.faults
  allocs : (∀ i, x.allocs.get i = true) → ∀ i, y.allocs.get i = true
  calm : x.Tracked → x.Calm → y.Calm

theorem Follows.refl (h : x.Coherent) : x.Follows x :=
  ⟨rfl, rfl, rfl, h, .refl h.cold, fun ht => ht, fun _ => subset_rfl, fun ha => ha, fun _ hc => hc⟩

theorem putFaults_subset (h : y.faults ⊆ x.faults) : y.putFaults ⊆ x.putFaults := fun _ => Or.imp_right (@h _)

theorem Follows.trans (h : x.Follows y) (h' : y.Follows z) : x.Follows z where
  id := h'.id.trans h.id
  ready := h'.ready.trans h.ready
  capacity := h'.capacity.trans h.capacity
  coherent := h'.coherent
  cold := h.cold.trans h'.cold
  tracked := h'.tracked ∘ h.tracked
  faults ht := (h'.faults (h.tracked ht)).trans (h.faults ht)
  allocs := h'.allocs ∘ h.allocs
  calm ht hc := h'.calm (h.tracked ht) (h.calm ht hc)

/-- The parts of `Follows` that concern the policy, put together. -/
theorem Follows.of_step (hid : y.id = x.id) (hready : y.ready = x.ready)
    (hcap : y.dram.stats.capacityBytes = x.dram.stats.capacityBytes) (hcoh : y.Coherent)
    (hcold : ColdKept x.ssd y.ssd) (hallocs : (∀ i, x.allocs.get i = true) → ∀ i, y.allocs.get i = true)
    (hdram : x.dram.Calm → y.dram.Calm) (hpolicy : x.PolicyStep y) : x.Follows y where
  id := hid
  ready := hready
  capacity := hcap
  coherent := hcoh
  cold := hcold
  tracked := by
    rintro ⟨p, hp, hwf, hfree, htrack⟩
    obtain ⟨p', hp', hkept, hfree', htrack'⟩ := hpolicy p hp hwf hfree htrack
    exact ⟨p', hp', hkept.wf, hfree', htrack'⟩
  faults := by
    rintro ⟨p, hp, hwf, hfree, htrack⟩
    obtain ⟨p', hp', hkept, -, -⟩ := hpolicy p hp hwf hfree htrack
    simp only [TwoTier.faults, hp, hp', Option.elim_some]
    exact Set.union_subset_union hcold.faults hkept.faults
  allocs := hallocs
  calm := by
    rintro ⟨p, hp, hwf, hfree, htrack⟩ hcalm
    obtain ⟨p', hp', hkept, -, -⟩ := hpolicy p hp hwf hfree htrack
    refine ⟨hallocs hcalm.node, hdram hcalm.dram, fun q hq => ?_⟩
    obtain rfl : p' = q := Option.some.inj (hp'.symm.trans hq)
    exact hkept.reliable (hcalm.policy p hp)

/-- A step that is idle but for a lawful move of the policy. -/
theorem Follows.of_idle (h : x.Idle y) (hx : x.Coherent) (hpolicy : x.PolicyStep y) : x.Follows y :=
  .of_step h.id h.ready h.dram.capacityBytes (h.coherent hx) h.cold h.allocs h.dram.calm hpolicy

end PolicyPart

end TwoTier

end TidePool.Store
