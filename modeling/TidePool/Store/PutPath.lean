import TidePool.Store.Demotion

/-! `StorageNode::Put` on DRAM in front of a cold tier.

    A successful `Put` is one of two moves on the pair of levels, after any number of demotions:

        fits DRAM    writeHot   the hot copy is new, a copy on SSD may be left behind
        oversized    writeCold  the block goes straight to SSD, a DRAM copy is dropped

    A failed one is demotions only: whatever was stored on the way is taken back. -/

namespace TidePool.Store
open Schemes

namespace TwoTier

variable {σ π : Type} {x y : TwoTier σ π} {k : BlockKey} {b : Block}

/-! ### Index and rollback steps -/

theorem upsertIndex_eq (x : TwoTier σ π) (k : BlockKey) (loc : Location) :
    x.node.upsertIndex k loc =
      if x.allocs.head then (.ok (), { x.drawn with index := x.index.set k loc }.node)
      else (.error (.outOfCapacity "LocalIndex::Upsert allocation failed"), x.drawn.node) := by
  by_cases h : x.allocs.head = true
  · simp only [StorageNode.upsertIndex, LocalIndex.upsert, node_allocs, h, if_true]
    rfl
  · simp only [StorageNode.upsertIndex, LocalIndex.upsert, node_allocs, h]
    rfl

theorem relocateIndex_eq {loc : Location} (h : x.index.at? k = some loc) (tier : TierType)
    (handle : UInt64) : x.node.relocateIndex k loc.tier tier handle =
      .ok { x with index := x.index.set k { loc with tier, handle } }.node := by
  have hrel := LocalIndex.relocateExisting_of_at? h tier handle
  simp only [StorageNode.relocateIndex, node_index, hrel]
  rfl

theorem removeIndex_eq {loc : Location} (h : x.index.at? k = some loc) :
    x.node.removeIndex k = .ok { x with index := x.index.drop k }.node := by
  simp only [StorageNode.removeIndex, node_index, LocalIndex.removeExisting, h]
  rfl

theorem undoInsert_eq [Tier σ] {e : Entry} (h : x.dram.at? k = some e) :
    x.node.undoInsert 0 k = .ok { x with dram := x.dram.eraseEntry k e }.node := by
  simp only [StorageNode.undoInsert, validateErase_dram, ok_bind,
    DramTier.validateEraseExisting_of_at? h, erase_dram h]

/-! ### A new entry in DRAM -/

variable [ColdTier σ]

/-- The room a block needs: replacing what the key holds keeps the capacity. -/
def Fits (x : TwoTier σ π) (k : BlockKey) (b : Block) : Prop :=
  x.dram.stats.capacityBytes ≠ 0 →
    x.dram.totalBytes - (x.dram.at? k).elim 0 (·.block.sizeBytes) + b.sizeBytes ≤
      x.dram.stats.capacityBytes.toNat

/-- DRAM and the index have taken the new entry: a hot write. -/
theorem coherent_writeHot (hx : x.Coherent) (hfits : x.Fits k b) {d : DramTier} {h : UInt64}
    (hput : x.dram.put k b = (.ok h, d)) (hid : y.id = x.id) (hdram : y.dram = d)
    (hcold : ColdView.Wf y.ssd) (hssd : ColdView.contents y.ssd = ColdView.contents x.ssd)
    (hindex : ∀ j, y.index.at? j = if j = k then some ⟨x.id, .dram, h⟩ else x.index.at? j) :
    y.Coherent ∧ y.levels = x.levels.writeHot k b := by
  rcases x.dram.put_cases k b with ⟨msg, d', hfail, -⟩ | ⟨d', hok, hat, hcap, -, hacc, htotal⟩
  · rw [hput] at hfail; cases hfail
  · rw [hput] at hok
    cases hok
    subst hdram
    refine ⟨⟨⟨hacc hx.accounted, fun hc => ?_⟩, hcold, ?_⟩, ?_⟩
    · have hfit := hfits (hcap ▸ hc)
      have hheld : (x.dram.at? k).elim 0 (·.block.sizeBytes) ≤ x.dram.totalBytes := by
        cases hk : x.dram.at? k with
        | none => exact Nat.zero_le _
        | some e => exact DramTier.size_le_totalBytes hk
      rw [hcap]
      omega
    · refine index_update hx _ _ hid (fun j hj => ?_) (fun j _ => by rw [hssd]) hindex ?_
      · rw [hat]; simp [hj]
      · simp [primary, hat, hid]
    · apply TwoLevel.ext
      · funext j
        simp only [levels, TwoLevel.writeHot, hat, Function.update_apply]
        split <;> rfl
      · simp only [levels, TwoLevel.writeHot, hssd]

variable [LawfulPolicy π]

/-- The policy is told of a new key `k` that DRAM (now `d`) has just taken. -/
theorem policyOnInsert_spec {d : DramTier} {e : Entry} (hd : d.at? = Function.update x.dram.at? k (some e))
    {ins : π → Except Halt (Result Unit × π)}
    (hins : ∀ p, PolicyView.Wf p → PolicyView.reserved p = none → Inserts p k (ins p)) :
    Yields x.Tracked ({ x with dram := d }.node.policyOnInsert ins) fun res =>
      ∃ q, res.2 = { x with dram := d, policy := q }.node ∧
        match res.1 with
        | .ok () => x.PolicyStep { x with dram := d, policy := q }
        | .error s => x.PolicyStep { x with policy := q } ∧
            (x.Tracked → s ∈ x.putFaults ∧ ¬ x.Calm) := by
  simp only [StorageNode.policyOnInsert,
    show ({ x with dram := d } : TwoTier σ π).node.eviction = x.policy from rfl]
  cases hp : x.policy with
  | none =>
    refine ⟨none, by rw [← hp], fun p hp' => ?_⟩
    rw [hp] at hp'; cases hp'
  | some p =>
    have hlaw : ∀ q, x.policy = some q → PolicyView.Wf q → PolicyView.reserved q = none →
        p = q ∧ Inserts p k (ins p) := by
      intro q hq hwf hfree
      obtain rfl : p = q := Option.some.inj (hp.symm.trans hq)
      exact ⟨rfl, hins p hwf hfree⟩
    simp only
    cases hres : ins p with
    | error halt =>
      rintro ⟨q, hq, hwf, hfree, -⟩
      obtain ⟨-, r, p', h, -⟩ := hlaw q hq hwf hfree
      rw [hres] at h; cases h
    | ok rp =>
      obtain ⟨r, p'⟩ := rp
      rw [hres] at hlaw
      refine ⟨some p', rfl, ?_⟩
      cases r with
      | ok _ =>
        intro q hq hwf hfree htrack
        obtain ⟨rfl, r, p'', h, hkept, hfree', hresident⟩ := hlaw q hq hwf hfree
        cases h
        refine ⟨p', rfl, hkept, hfree', fun j => ?_⟩
        rw [hresident, Set.mem_insert_iff, htrack]
        show _ ↔ d.at? j ≠ none
        rw [hd]
        by_cases hj : j = k <;> simp [hj]
      | error s =>
        refine ⟨fun q hq hwf hfree htrack => ?_, ?_⟩
        · obtain ⟨rfl, r, p'', h, hkept, hfree', hrest⟩ := hlaw q hq hwf hfree
          cases h
          exact ⟨p', rfl, hkept, hfree', fun j => by rw [hrest.1, htrack]⟩
        · rintro ⟨q, hq, hwf, hfree, htrack⟩
          obtain ⟨rfl, r, p'', h, hkept, hfree', hrest⟩ := hlaw q hq hwf hfree
          cases h
          obtain ⟨-, hunreliable, hcause⟩ := hrest
          refine ⟨?_, fun hcalm => hunreliable (hcalm.policy p hp)⟩
          exact hcause.imp_right fun hf => .inr (by rw [hp]; exact hf)

omit [ColdTier σ] in
/-- The policy is told of an access to a DRAM key. -/
theorem policyOnAccess_spec (hk : x.dram.at? k ≠ none) {z : TwoTier σ π} (hz : z.policy = x.policy) :
    Yields x.Tracked (z.node.policyOnAccess k) fun n =>
      ∃ q, n = { z with policy := q }.node ∧ x.PolicyStep { x with policy := q } := by
  simp only [StorageNode.policyOnAccess, node_eviction, hz]
  cases hp : x.policy with
  | none =>
    refine ⟨none, by rw [← hp, ← hz], fun p hp' => ?_⟩
    rw [hp] at hp'; cases hp'
  | some p =>
    have hlaw : ∀ q, x.policy = some q → PolicyView.Wf q → PolicyView.reserved q = none →
        (∀ j, j ∈ PolicyView.resident q ↔ x.dram.at? j ≠ none) → p = q ∧
        ∃ p', EvictionPolicy.onAccess p k = .ok p' ∧ PolicyKept p p' ∧
          PolicyView.resident p' = PolicyView.resident p ∧ PolicyView.reserved p' = none := by
      intro q hq hwf hfree htrack
      obtain rfl : p = q := Option.some.inj (hp.symm.trans hq)
      exact ⟨rfl, LawfulPolicy.access_law p k hwf ((htrack k).mpr hk) hfree⟩
    simp only
    cases hres : EvictionPolicy.onAccess p k with
    | error halt =>
      rintro ⟨q, hq, hwf, hfree, htrack⟩
      obtain ⟨-, p', h, -⟩ := hlaw q hq hwf hfree htrack
      rw [hres] at h; cases h
    | ok p' =>
      refine ⟨some p', rfl, fun q hq hwf hfree htrack => ?_⟩
      obtain ⟨rfl, p'', h, hkept, hresident, hfree'⟩ := hlaw q hq hwf hfree htrack
      rw [hres] at h
      cases h
      exact ⟨p', rfl, hkept, hfree', fun j => by rw [hresident, htrack]⟩

/-! ### The rest of `Put` once there is room -/

/-- What storing `b` under `k` in DRAM did. -/
def HotPut (k : BlockKey) (b : Block) (x y : TwoTier σ π) : Result Unit → Prop
  | .ok () => y.levels = x.levels.writeHot k b
  | .error s => y.levels = x.levels ∧ (x.Tracked → s ∈ x.putFaults ∧ ¬ x.Calm)

/-- DRAM had no memory for the block. -/
theorem hotPut_no_memory (hx : x.Coherent) {d : DramTier} (hsame : x.dram.SameEntries d)
    (hnot : ¬ x.dram.Calm) (msg : String) :
    x.Follows { x with dram := d } ∧ HotPut k b x { x with dram := d } (.error (.outOfCapacity msg)) := by
  have hidle : x.Idle { x with dram := d } := ⟨rfl, rfl, rfl, hsame, .refl hx.cold, rfl, fun ha => ha⟩
  refine ⟨.of_idle hidle hx (.same rfl hsame.at?), hidle.levels, fun _ => ⟨.inl rfl, ?_⟩⟩
  exact fun hcalm => hnot hcalm.dram

/-- A key that DRAM already holds: replaced in place, and the policy sees an access. -/
theorem putHot_replace (hx : x.Coherent) (hfits : x.Fits k b) {e : Entry} (hk : x.dram.at? k = some e)
    {old : Location} (hold : old.tier = .dram) :
    Yields x.Tracked (x.node.putHot k b (some old)) fun res =>
      ∃ y, res.2 = y.node ∧ x.Follows y ∧ HotPut k b x y res.1 := by
  have hloc := hx.index_dram hk
  have hvalid : x.index.validateRelocate k old.tier = .ok () :=
    LocalIndex.validateRelocate_ok_iff.mpr ⟨_, hloc, hold.symm⟩
  simp only [StorageNode.putHot, node_index, Option.elim_some, hvalid, put_dram,
    ok_bind]
  rcases x.dram.put_cases k b with ⟨msg, d, hput, hsame, hnot⟩ | ⟨d, hput, hat, hcap, hcalm, -⟩
  · rw [hput]
    exact ⟨{ x with dram := d }, rfl, hotPut_no_memory hx hsame hnot msg⟩
  · rw [hput]
    have hrel := relocateIndex_eq (x := { x with dram := d }) hloc .dram x.dram.nextHandle
    simp only [Option.all_some, hold, ne_eq, not_true_eq_false, decide_false, Bool.false_eq_true, if_false,
      pure, Except.pure, ok_bind]
    simp only at hrel
    rw [hrel]
    simp only [ok_bind]
    let z : TwoTier σ π :=
      { x with dram := d, index := x.index.set k ⟨x.id, .dram, x.dram.nextHandle⟩ }
    refine (policyOnAccess_spec (x := x) (z := z) (by rw [hk]; simp) rfl).bind ?_
    rintro n ⟨q, rfl, hstep⟩
    let y : TwoTier σ π := { x with
      dram := d, policy := q, index := x.index.set k ⟨x.id, .dram, x.dram.nextHandle⟩
      stats := { x.stats with bytesWritten := x.stats.bytesWritten + b.sizeBytes } }
    obtain ⟨hcoh, hlevels⟩ := coherent_writeHot (y := y) hx hfits hput rfl rfl hx.cold rfl
      fun j => LocalIndex.at?_set _ _ _ _
    refine ⟨y, rfl, .of_step rfl rfl hcap hcoh (.refl hx.cold) (fun ha => ha) hcalm ?_, hlevels⟩
    refine hstep.congr rfl fun j => ?_
    show d.at? j ≠ none ↔ x.dram.at? j ≠ none
    rw [hat]
    by_cases hj : j = k <;> simp [hj, hk]

/-- The policy refused the new key: DRAM gives it back. -/
theorem hotPut_undone (hx : x.Coherent) {d : DramTier} {h : UInt64} (hnew : x.dram.at? k = none)
    (hput : x.dram.put k b = (.ok h, d)) {q : Option π} {a : Stream' Bool}
    (ha : (∀ i, x.allocs.get i = true) → ∀ i, a.get i = true) (hstep : x.PolicyStep { x with policy := q })
    {s : Status} (hs : x.Tracked → s ∈ x.putFaults ∧ ¬ x.Calm) :
    x.Follows { x with dram := d.eraseEntry k ⟨b, h⟩, policy := q, allocs := a } ∧
      HotPut k b x { x with dram := d.eraseEntry k ⟨b, h⟩, policy := q, allocs := a } (.error s) := by
  have hsame := DramTier.put_undo hnew hput
  have hidle : x.Idle { x with dram := d.eraseEntry k ⟨b, h⟩, policy := q, allocs := a } :=
    ⟨rfl, rfl, rfl, hsame, .refl hx.cold, rfl, ha⟩
  refine ⟨.of_idle hidle hx (hstep.congr rfl fun j => ?_), hidle.levels, hs⟩
  exact not_congr (by rw [hsame.at?])

/-- The same, as the call that gives it back. -/
theorem undoInsert_refused (hx : x.Coherent) {d : DramTier} (hnew : x.dram.at? k = none)
    (hput : x.dram.put k b = (.ok x.dram.nextHandle, d))
    (hat : d.at? = Function.update x.dram.at? k (some ⟨b, x.dram.nextHandle⟩)) {q : Option π}
    (hstep : x.PolicyStep { x with policy := q }) {s : Status}
    (hs : x.Tracked → s ∈ x.putFaults ∧ ¬ x.Calm) :
    ∃ y : TwoTier σ π, { x with dram := d, policy := q }.node.undoInsert 0 k = .ok y.node ∧ x.Follows y ∧
      HotPut k b x y (.error s) := by
  have hentry : d.at? k = some ⟨b, x.dram.nextHandle⟩ := by rw [hat]; simp
  exact ⟨_, undoInsert_eq (x := { x with dram := d, policy := q }) hentry,
    hotPut_undone hx hnew hput (fun ha => ha) hstep hs⟩

/-- A key that is on SSD only: stored in DRAM, told to the policy, relocated. -/
theorem putHot_ssd (hx : x.Coherent) (hfits : x.Fits k b) {loc old : Location} (hnew : x.dram.at? k = none)
    (hloc : x.index.at? k = some loc) (htier : loc.tier = old.tier) (hold : old.tier ≠ .dram) :
    Yields x.Tracked (x.node.putHot k b (some old)) fun res =>
      ∃ y, res.2 = y.node ∧ x.Follows y ∧ HotPut k b x y res.1 := by
  have hvalid : x.index.validateRelocate k old.tier = .ok () :=
    LocalIndex.validateRelocate_ok_iff.mpr ⟨_, hloc, htier⟩
  simp only [StorageNode.putHot, node_index, Option.elim_some, hvalid, put_dram,
    ok_bind]
  rcases x.dram.put_cases k b with ⟨msg, d, hput, hsame, hnot⟩ | ⟨d, hput, hat, hcap, hcalm, -⟩
  · rw [hput]
    exact ⟨{ x with dram := d }, rfl, hotPut_no_memory hx hsame hnot msg⟩
  · rw [hput]
    simp only [Option.all_some, hold, ne_eq, not_false_eq_true, decide_true, if_true]
    refine (policyOnInsert_spec hat fun p hwf hfree =>
      LawfulPolicy.insert_law p k b.sizeBytes hwf hfree).bind ?_
    rintro ⟨r, n⟩ ⟨q, rfl, hres⟩
    cases r with
    | error s =>
      obtain ⟨y, hundo, hy⟩ := undoInsert_refused hx hnew hput hat hres.1 hres.2
      simp only [hundo, ok_bind]
      exact ⟨y, rfl, hy⟩
    | ok _ =>
      have hrel := relocateIndex_eq (x := { x with dram := d, policy := q }) hloc .dram x.dram.nextHandle
      rw [htier] at hrel
      simp only [hrel, ok_bind]
      let y : TwoTier σ π := { x with
        dram := d, policy := q
        index := x.index.set k { loc with tier := .dram, handle := x.dram.nextHandle }
        stats := { x.stats with bytesWritten := x.stats.bytesWritten + b.sizeBytes } }
      have hnode := hx.nodeId_of_index hloc
      obtain ⟨hcoh, hlevels⟩ := coherent_writeHot (y := y) hx hfits hput rfl rfl hx.cold rfl
        fun j => by rw [← hnode]; exact LocalIndex.at?_set _ _ _ _
      exact ⟨y, rfl, .of_step rfl rfl hcap hcoh (.refl hx.cold) (fun ha => ha) hcalm hres, hlevels⟩

omit [ColdTier σ] in
/-- Removing the key the policy was just told of takes the policy back. -/
theorem PolicyStep.remove {d : DramTier} {e : Entry} {q : Option π}
    (hd : d.at? = Function.update x.dram.at? k (some e)) (hnew : x.dram.at? k = none)
    (h : x.PolicyStep { x with dram := d, policy := q }) :
    x.PolicyStep { x with policy := q.map (EvictionPolicy.onRemove · k) } := by
  intro p hp hwf hfree htrack
  obtain ⟨p', rfl, hkept, hfree', htrack'⟩ := h p hp hwf hfree htrack
  obtain ⟨hkept', hresident, hfree''⟩ := LawfulPolicy.remove_law p' k hkept.wf hfree'
  refine ⟨EvictionPolicy.onRemove p' k, rfl, hkept.trans hkept', hfree'', fun j => ?_⟩
  rw [hresident, Set.mem_sdiff, Set.mem_singleton_iff, htrack']
  show d.at? j ≠ none ∧ _ ↔ x.dram.at? j ≠ none
  rw [hd]
  by_cases hj : j = k
  · simp [hj, hnew]
  · simp [hj]

/-- A key the node does not have: stored in DRAM, told to the policy, entered in the index. -/
theorem putHot_absent (hx : x.Coherent) (hfits : x.Fits k b) (habsent : x.index.at? k = none) :
    Yields x.Tracked (x.node.putHot k b none) fun res =>
      ∃ y, res.2 = y.node ∧ x.Follows y ∧ HotPut k b x y res.1 := by
  have hnew := (hx.absent_of_index habsent).1
  simp only [StorageNode.putHot, Option.elim_none, put_dram, ok_bind]
  rcases x.dram.put_cases k b with ⟨msg, d, hput, hsame, hnot⟩ | ⟨d, hput, hat, hcap, hcalm, -⟩
  · rw [hput]
    exact ⟨{ x with dram := d }, rfl, hotPut_no_memory hx hsame hnot msg⟩
  · rw [hput]
    simp only [Option.all_none, if_true]
    refine (policyOnInsert_spec hat fun p hwf hfree =>
      LawfulPolicy.insert_law p k b.sizeBytes hwf hfree).bind ?_
    rintro ⟨r, n⟩ ⟨q, rfl, hres⟩
    cases r with
    | error s =>
      obtain ⟨y, hundo, hy⟩ := undoInsert_refused hx hnew hput hat hres.1 hres.2
      simp only [hundo, ok_bind]
      exact ⟨y, rfl, hy⟩
    | ok _ =>
      simp only [upsertIndex_eq]
      cases halloc : x.allocs.head with
      | false =>
        -- no memory for the index node: policy and DRAM are taken back
        have hentry : d.at? k = some ⟨b, x.dram.nextHandle⟩ := by rw [hat]; simp
        have hundo := undoInsert_eq (x := { x.drawn with
          dram := d, policy := q.map (EvictionPolicy.onRemove · k) }) hentry
        simp only [Bool.false_eq_true, if_false]
        refine Yields.bind (Q := fun n => n = { x.drawn with
          dram := d.eraseEntry k ⟨b, x.dram.nextHandle⟩
          policy := q.map (EvictionPolicy.onRemove · k) }.node) ?_ ?_
        · show Yields _ ({ x.drawn with
            dram := d, policy := q.map (EvictionPolicy.onRemove · k) }.node.undoInsert 0 k) _
          rw [hundo]
          rfl
        · rintro n rfl
          refine ⟨_, rfl, hotPut_undone (a := x.allocs.tail) hx hnew hput (fun ha i => ha (i + 1))
            (hres.remove hat hnew) fun _ => ⟨.inl rfl, fun hcalm => ?_⟩⟩
          have htrue : x.allocs.head = true := hcalm.node 0
          rw [halloc] at htrue; cases htrue
      | true =>
        simp only [if_true]
        let y : TwoTier σ π := { x.drawn with
          dram := d, policy := q
          index := x.index.set k ⟨x.id, .dram, x.dram.nextHandle⟩
          stats := { x.stats with bytesWritten := x.stats.bytesWritten + b.sizeBytes } }
        obtain ⟨hcoh, hlevels⟩ := coherent_writeHot (y := y) hx hfits hput rfl rfl hx.cold rfl
          fun j => LocalIndex.at?_set _ _ _ _
        exact ⟨y, rfl, .of_step rfl rfl hcap hcoh (.refl hx.cold) (fun ha i => ha (i + 1)) hcalm hres,
          hlevels⟩

/-! ### Oversized blocks -/

omit [LawfulPolicy π] in
/-- The sink and the index have taken the block, DRAM has let go of it: a cold write. -/
theorem coherent_writeCold (hx : x.Coherent) {h : UInt64} (hid : y.id = x.id) (hacc : y.dram.Accounted)
    (hcap : y.dram.stats.capacityBytes = x.dram.stats.capacityBytes)
    (htotal : y.dram.totalBytes ≤ x.dram.totalBytes)
    (hdram : y.dram.at? = Function.update x.dram.at? k none) (hcold : ColdView.Wf y.ssd)
    (hssd : ColdView.contents y.ssd = Function.update (ColdView.contents x.ssd) k (some ⟨b, h⟩))
    (hindex : ∀ j, y.index.at? j = if j = k then some ⟨x.id, .ssd, h⟩ else x.index.at? j) :
    y.Coherent ∧ y.levels = x.levels.writeCold k b := by
  refine ⟨⟨⟨hacc, fun hc => ?_⟩, hcold, ?_⟩, ?_⟩
  · rw [hcap] at hc ⊢
    exact htotal.trans (hx.bounded hc)
  · refine index_update hx _ _ hid (fun j hj => ?_) (fun j hj => ?_) hindex ?_
    · rw [hdram]; simp [hj]
    · rw [hssd]; simp [hj]
    · simp [primary, hdram, hssd, hid]
  · apply TwoLevel.ext
    · funext j
      simp only [levels, TwoLevel.writeCold, hdram, Function.update_apply]
      split <;> rfl
    · funext j
      simp only [levels, TwoLevel.writeCold, hssd, Function.update_apply]
      split <;> rfl

/-- What storing `b` under `k` in the sink did. -/
def ColdPut (k : BlockKey) (b : Block) (x y : TwoTier σ π) : Result Unit → Prop
  | .ok () => y.levels = x.levels.writeCold k b
  | .error s => y.levels = x.levels ∧ s ∈ x.putFaults ∧
      ¬ ((∀ i, x.allocs.get i = true) ∧ ColdView.Accepts x.ssd k b)

/-- The sink refused the block and nothing else has changed. -/
theorem coldPut_refused (hx : x.Coherent) (hidle : x.Idle y) (hp : y.policy = x.policy) {s : Status}
    (hfault : s ∈ ColdView.faults x.ssd) (hreject : ¬ ColdView.Accepts x.ssd k b) :
    x.Follows y ∧ ColdPut k b x y (.error s) :=
  ⟨.of_idle hidle hx (.same hp hidle.dram.at?), hidle.levels, .inr (.inl hfault), fun h => hreject h.2⟩

omit [ColdTier σ] in
/-- The policy forgets a key that DRAM has dropped. -/
theorem policyStep_onRemove (hd : y.dram.at? = Function.update x.dram.at? k none)
    (hp : y.policy = x.policy.map (EvictionPolicy.onRemove · k)) : x.PolicyStep y := by
  intro p hx hwf hfree htrack
  obtain ⟨hkept, hresident, hfree'⟩ := LawfulPolicy.remove_law p k hwf hfree
  refine ⟨EvictionPolicy.onRemove p k, by rw [hp, hx]; rfl, hkept, hfree', fun j => ?_⟩
  rw [hresident, Set.mem_sdiff, Set.mem_singleton_iff, htrack, hd]
  by_cases hj : j = k <;> simp [hj]

/-- A key that DRAM holds: written to the sink, then dropped from DRAM and policy. -/
theorem putOversized_dram (hx : x.Coherent) {e : Entry} (hk : x.dram.at? k = some e)
    {old : Location} (hold : old.tier = .dram) :
    Yields x.Tracked (x.node.putOversizedLocked k b 0 1 (some old)) fun res =>
      ∃ y, res.2 = y.node ∧ x.Follows y ∧ ColdPut k b x y res.1 := by
  have hloc := hx.index_dram hk
  have hvalid : x.index.validateRelocate k .dram = .ok () :=
    LocalIndex.validateRelocate_ok_iff.mpr ⟨_, hloc, rfl⟩
  have htype : Tier.type x.ssd = .ssd := ColdTier.type_ssd x.ssd
  obtain ⟨r, ssd, hput, hkept, heffect⟩ := ColdTier.put_law x.ssd k b hx.cold
  simp only [StorageNode.putOversizedLocked, type_ssd, htype, node_index, hold,
    hvalid, if_true, validateErase_dram, DramTier.validateEraseExisting_of_at? hk, ok_bind, put_ssd, hput]
  cases r with
  | error s =>
    have hidle : x.Idle { x with ssd } := ⟨rfl, rfl, rfl, .refl _, hkept, heffect.1, fun ha => ha⟩
    exact ⟨{ x with ssd }, rfl, coldPut_refused hx hidle rfl heffect.2.1 heffect.2.2⟩
  | ok h =>
    have herase := erase_dram (x := { x with ssd }) hk
    let z : TwoTier σ π := { x with
      ssd, dram := x.dram.eraseEntry k e, policy := x.policy.map (EvictionPolicy.onRemove · k) }
    have hrel := relocateIndex_eq (x := z) hloc .ssd h
    let y : TwoTier σ π := { z with
      index := x.index.set k ⟨x.id, .ssd, h⟩
      stats := { x.stats with bytesWritten := x.stats.bytesWritten + b.sizeBytes } }
    have htotal := DramTier.totalBytes_eraseEntry hk
    have hdram := x.dram.at?_eraseEntry k e
    obtain ⟨hcoh, hlevels⟩ := coherent_writeCold (y := y) hx rfl
      (DramTier.accounted_eraseEntry hk hx.accounted)
      rfl (by show (x.dram.eraseEntry k e).totalBytes ≤ _; omega) hdram hkept.wf heffect
      fun j => LocalIndex.at?_set _ _ _ _
    simp only [herase]
    refine Yields.bind (Q := fun n => n = z.node) rfl ?_
    rintro n rfl
    simp only at hrel
    rw [hrel]
    exact ⟨y, rfl, .of_step rfl rfl rfl hcoh hkept (fun ha => ha) (fun hc => hc)
      (policyStep_onRemove hdram rfl), hlevels⟩

/-- A key that is on SSD only: overwritten there. -/
theorem putOversized_ssd (hx : x.Coherent) {loc old : Location} (hnew : x.dram.at? k = none)
    (hloc : x.index.at? k = some loc) (htier : loc.tier = old.tier) (hold : old.tier ≠ .dram) :
    Yields x.Tracked (x.node.putOversizedLocked k b 0 1 (some old)) fun res =>
      ∃ y, res.2 = y.node ∧ x.Follows y ∧ ColdPut k b x y res.1 := by
  have hvalid : x.index.validateRelocate k old.tier = .ok () :=
    LocalIndex.validateRelocate_ok_iff.mpr ⟨_, hloc, htier⟩
  have htype : Tier.type x.ssd = .ssd := ColdTier.type_ssd x.ssd
  obtain ⟨r, ssd, hput, hkept, heffect⟩ := ColdTier.put_law x.ssd k b hx.cold
  simp only [StorageNode.putOversizedLocked, type_ssd, htype, node_index,
    hvalid, hold, if_false, pure, Except.pure, ok_bind, put_ssd, hput]
  cases r with
  | error s =>
    have hidle : x.Idle { x with ssd } := ⟨rfl, rfl, rfl, .refl _, hkept, heffect.1, fun ha => ha⟩
    exact ⟨{ x with ssd }, rfl, coldPut_refused hx hidle rfl heffect.2.1 heffect.2.2⟩
  | ok h =>
    have hrel := relocateIndex_eq (x := { x with ssd }) hloc .ssd h
    rw [htier] at hrel
    let y : TwoTier σ π := { x with
      ssd, index := x.index.set k { loc with tier := .ssd, handle := h }
      stats := { x.stats with bytesWritten := x.stats.bytesWritten + b.sizeBytes } }
    have hnode := hx.nodeId_of_index hloc
    have hdram : x.dram.at? = Function.update x.dram.at? k none := by
      rw [← hnew, Function.update_eq_self]
    obtain ⟨hcoh, hlevels⟩ := coherent_writeCold (y := y) hx rfl hx.accounted rfl le_rfl hdram hkept.wf
      heffect fun j => by rw [← hnode]; exact LocalIndex.at?_set _ _ _ _
    simp only [hrel]
    exact ⟨y, rfl, .of_step rfl rfl rfl hcoh hkept (fun ha => ha) (fun hc => hc) (.same rfl fun _ => rfl),
      hlevels⟩

/-- A key the node does not have: entered in the index first, taken out again if the sink refuses. -/
theorem putOversized_absent (hx : x.Coherent) (habsent : x.index.at? k = none) :
    Yields x.Tracked (x.node.putOversizedLocked k b 0 1 none) fun res =>
      ∃ y, res.2 = y.node ∧ x.Follows y ∧ ColdPut k b x y res.1 := by
  have htype : Tier.type x.ssd = .ssd := ColdTier.type_ssd x.ssd
  have hnew := (hx.absent_of_index habsent).1
  obtain ⟨r, ssd, hput, hkept, heffect⟩ := ColdTier.put_law x.ssd k b hx.cold
  simp only [StorageNode.putOversizedLocked, type_ssd, htype, ok_bind, upsertIndex_eq]
  cases halloc : x.allocs.head with
  | false =>
    have hidle := x.idle_drawn hx.cold
    refine ⟨x.drawn, rfl, .of_idle hidle hx (.same rfl fun _ => rfl), hidle.levels, .inl rfl,
      fun hroomy => ?_⟩
    have htrue : x.allocs.head = true := hroomy.1 0
    rw [halloc] at htrue; cases htrue
  | true =>
    let z : TwoTier σ π := { x.drawn with index := x.index.set k ⟨x.id, .ssd, 0⟩ }
    have hcall : z.node.callTier 1 (Tier.put · k b) = .ok (r, { z with ssd }.node) := by
      rw [put_ssd, show Tier.put z.ssd k b = (r, ssd) from hput]
    have hentry : z.index.at? k = some ⟨x.id, .ssd, 0⟩ := by
      rw [LocalIndex.at?_set, if_pos rfl]
    simp only [if_true]
    refine Yields.bind (Q := fun res => res = (r, { z with ssd }.node)) ?_ ?_
    · exact (congrArg (Yields x.Tracked · _) hcall).mpr rfl
    · rintro _ rfl
      cases r with
      | error s =>
        have hremove := removeIndex_eq (x := { z with ssd }) hentry
        have hindex : z.index.drop k = x.index := LocalIndex.drop_set habsent _
        have hidle : x.Idle { z with ssd, index := z.index.drop k } :=
          ⟨rfl, rfl, hindex, .refl _, hkept, heffect.1, fun ha i => ha (i + 1)⟩
        simp only [hremove, ok_bind]
        exact ⟨{ z with ssd, index := z.index.drop k }, rfl,
          coldPut_refused hx hidle rfl heffect.2.1 heffect.2.2⟩
      | ok h =>
        have hrel := relocateIndex_eq (x := { z with ssd }) hentry .ssd h
        let y : TwoTier σ π := { z with
          ssd, index := z.index.set k ⟨x.id, .ssd, h⟩
          stats := { x.stats with bytesWritten := x.stats.bytesWritten + b.sizeBytes } }
        have hdram : x.dram.at? = Function.update x.dram.at? k none := by
          rw [← hnew, Function.update_eq_self]
        obtain ⟨hcoh, hlevels⟩ := coherent_writeCold (y := y) hx rfl hx.accounted rfl le_rfl hdram
          hkept.wf heffect fun j => by
            rw [LocalIndex.at?_set, LocalIndex.at?_set]
            split <;> simp
        simp only at hrel
        simp only [hrel]
        exact ⟨y, rfl, .of_step rfl rfl rfl hcoh hkept (fun ha i => ha (i + 1)) (fun hc => hc)
          (.same rfl fun _ => rfl), hlevels⟩

/-! ### Put -/

/-- `block.size_bytes() > capacity`, for a DRAM tier that has one. -/
def Oversized (x : TwoTier σ π) (b : Block) : Prop :=
  x.dram.stats.capacityBytes ≠ 0 ∧ x.dram.stats.capacityBytes.toNat < b.sizeBytes

/-- A `Put` that nothing can refuse: memory will do, the cold tier takes what it would be given, and the bytes
    can be counted. -/
def MustTake (x : TwoTier σ π) (k : BlockKey) (b : Block) : Prop :=
  (x.Oversized b ∧ (∀ i, x.allocs.get i = true) ∧ ColdView.Accepts x.ssd k b) ∨
    ¬ x.Oversized b ∧ x.Calm ∧ x.Demotable ∧
      (x.dram.stats.capacityBytes ≠ 0 → x.dram.totalBytes + b.sizeBytes < UInt64.size)

/-- Wherever the block goes, in a calm node. -/
theorem mustTake_of_calm (hcalm : x.Calm) (hdem : x.Demotable)
    (hacc : ColdView.Accepts x.ssd k b)
    (hcounts : x.dram.stats.capacityBytes ≠ 0 → x.dram.totalBytes + b.sizeBytes < UInt64.size) :
    x.MustTake k b := by
  by_cases hbig : x.Oversized b
  · exact .inl ⟨hbig, hcalm.node, hacc⟩
  · exact .inr ⟨hbig, hcalm, hdem, hcounts⟩

/-- What `Put` of `b` under `k` did. -/
def PutEffect (k : BlockKey) (b : Block) (x y : TwoTier σ π) : Result Unit → Prop
  | .ok () => (x.Oversized b ∧ y.levels = x.levels.writeCold k b) ∨
      (¬ x.Oversized b ∧ ∃ z, x.levels.SinksTo z ∧ z.cold k = x.levels.cold k ∧ y.levels = z.writeHot k b)
  | .error s => x.levels.SinksTo y.levels ∧ (x.Tracked → s ∈ x.putFaults ∧ ¬ x.MustTake k b)

theorem putOversized_spec (hx : x.Coherent) (k : BlockKey) (b : Block) :
    Yields x.Tracked (x.node.putOversizedLocked k b 0 1 (x.index.at? k)) fun res =>
      ∃ y, res.2 = y.node ∧ x.Follows y ∧ ColdPut k b x y res.1 := by
  cases hold : x.index.at? k with
  | none => exact putOversized_absent hx hold
  | some old =>
    by_cases htier : old.tier = .dram
    · obtain ⟨e, he⟩ := hx.dram_of_index hold htier
      exact putOversized_dram hx he htier
    · exact putOversized_ssd hx (hx.ssd_of_index hold htier).1 hold rfl htier

omit [LawfulPolicy π] in
/-- A primary that moved while room was made: the relocation preflight stops the `Put`. -/
theorem putHot_moved [EvictionPolicy π] {old : Location} {s : Status}
    (h : x.index.validateRelocate k old.tier = .error s) :
    x.node.putHot k b (some old) = .ok (.error s, x.node) := by
  simp only [StorageNode.putHot, node_index, Option.elim_some, h]
  rfl

/-- `Put` after room was made in `y`, for a block that fits DRAM. -/
theorem putHot_spec (hx : x.Coherent) (hfollow : x.Follows y) {replacing : Option BlockKey}
    (hrep : replacing = StorageNode.replacedKey (x.index.at? k) k)
    (hroom : Room (x.replacedBytes replacing) b.sizeBytes replacing x y (.ok ())) :
    Yields y.Tracked (y.node.putHot k b (x.index.at? k)) fun res =>
      ∃ w, res.2 = w.node ∧ y.Follows w ∧
        (HotPut k b y w res.1 ∧ y.levels.cold k = x.levels.cold k ∨
          ¬ x.Tracked ∧ w = y ∧ ∃ s, res.1 = .error s) := by
  obtain ⟨hsinks, hkeep, hfit⟩ := hroom
  have hy := hfollow.coherent
  cases hold : x.index.at? k with
  | none =>
    obtain ⟨hhot, hcold⟩ := hx.absent_of_index hold
    obtain ⟨hhot', hcold'⟩ := hsinks.of_not_hot (k := k) (by simp [levels, hhot])
    have hdram : y.dram.at? k = none := by simpa [levels] using hhot'
    have habsent : y.index.at? k = none := by
      rw [hy.index, primary, hdram]
      simpa [levels, hcold] using hcold'
    have hfits : y.Fits k b := fun hc => by
      simp only [StorageNode.replacedKey, hold, Option.any_none, Bool.false_eq_true, if_false] at hrep
      simpa [hrep, hdram, replacedBytes] using (hfit hc).2
    refine (putHot_absent hy hfits habsent).mono ?_
    rintro res ⟨w, hw, hfw, heff⟩
    exact ⟨w, hw, hfw, .inl ⟨heff, hcold'⟩⟩
  | some old =>
    by_cases htier : old.tier = .dram
    · obtain ⟨e, he⟩ := hx.dram_of_index hold htier
      simp only [StorageNode.replacedKey, hold, Option.any_some, htier, decide_true, if_true] at hrep
      cases hdram : y.dram.at? k with
      | none =>
        -- only a policy that demotes the excluded key leads here
        have hmoved : ∃ s, y.index.validateRelocate k old.tier = .error s := by
          cases hv : y.index.validateRelocate k old.tier with
          | error s => exact ⟨s, rfl⟩
          | ok _ =>
            obtain ⟨loc, hloc, hlt⟩ := LocalIndex.validateRelocate_ok_iff.mp hv
            obtain ⟨e', he'⟩ := hy.dram_of_index hloc (hlt.trans htier)
            rw [hdram] at he'; cases he'
        obtain ⟨s, hs⟩ := hmoved
        rw [putHot_moved hs]
        refine ⟨y, rfl, .refl hy, .inr ⟨fun ht => ?_, rfl, s, rfl⟩⟩
        have hsame := (hkeep ht k hrep).1
        simp [levels, hdram, he] at hsame
      | some e' =>
        obtain ⟨hhot, hcold⟩ := hsinks.of_hot (k := k) (by simp [levels, hdram])
        have hsize : e'.block = e.block := by simpa [levels, hdram, he] using hhot
        have hfits : y.Fits k b := fun hc => by
          simpa [hrep, hdram, replacedBytes, levels, he, hsize] using (hfit hc).2
        refine (putHot_replace hy hfits hdram htier).mono ?_
        rintro res ⟨w, hw, hfw, heff⟩
        exact ⟨w, hw, hfw, .inl ⟨heff, hcold⟩⟩
    · obtain ⟨hhot, hssd, e, he⟩ := hx.ssd_of_index hold htier
      obtain ⟨hhot', hcold'⟩ := hsinks.of_not_hot (k := k) (by simp [levels, hhot])
      have hdram : y.dram.at? k = none := by simpa [levels] using hhot'
      obtain ⟨e', he'⟩ := Option.ne_none_iff_exists'.mp
        (cold_ne_none.mp (by rw [hcold']; exact cold_ne_none.mpr (by rw [he]; simp)))
      have hloc : y.index.at? k = some ⟨y.id, .ssd, e'.handle⟩ := by
        rw [hy.index, primary, hdram, he']; rfl
      have hfits : y.Fits k b := fun hc => by
        simp only [StorageNode.replacedKey, hold, Option.any_some, htier, decide_false, Bool.false_eq_true,
          if_false] at hrep
        simpa [hrep, hdram, replacedBytes] using (hfit hc).2
      refine (putHot_ssd hy hfits hdram hloc hssd.symm htier).mono ?_
      rintro res ⟨w, hw, hfw, heff⟩
      exact ⟨w, hw, hfw, .inl ⟨heff, hcold'⟩⟩

/-- PUT: a cold write of an oversized block, or demotions and then a hot write; a failure is
    demotions only. -/
theorem put_spec (hx : x.Coherent) (hready : x.ready = true) (k : BlockKey) (b : Block) :
    Yields x.Tracked (x.node.put k b) fun res =>
      ∃ y, res.2 = y.node ∧ x.Follows y ∧ PutEffect k b x y res.1 := by
  have htype : Tier.type (Sum.inl x.dram : DramTier ⊕ σ) = .dram := rfl
  simp only [StorageNode.put, node_ready, hready, Bool.not_true,
    Bool.false_eq_true, if_false, show x.node.tiers.head? = some (some (.inl x.dram)) from rfl, htype,
    ne_eq, not_true_eq_false, node_index,
    show Tier.stats (Sum.inl x.dram : DramTier ⊕ σ) = x.dram.stats from rfl]
  by_cases hbig : x.Oversized b
  · have hcond : ¬ x.dram.stats.capacityBytes = 0 ∧ b.sizeBytes > x.dram.stats.capacityBytes.toNat := hbig
    simp only [hcond, not_false_eq_true, and_self, if_true, StorageNode.colderTierLocked, tierOfLocked_ssd]
    refine (putOversized_spec hx k b).mono ?_
    rintro ⟨r, n⟩ ⟨y, hy, hfollow, heffect⟩
    refine ⟨y, hy, hfollow, ?_⟩
    cases r with
    | ok _ => exact .inl ⟨hbig, heffect⟩
    | error s =>
      obtain ⟨hlevels, hfault, hroomy⟩ := heffect
      refine ⟨hlevels ▸ .refl _, fun _ => ⟨hfault, ?_⟩⟩
      rintro (⟨-, htake⟩ | ⟨hfits, -⟩)
      · exact hroomy htake
      · exact hfits hbig
  · have hcond : ¬ (¬ x.dram.stats.capacityBytes = 0 ∧ b.sizeBytes > x.dram.stats.capacityBytes.toNat) := hbig
    simp only [hcond, if_false]
    have hsmall : x.dram.stats.capacityBytes ≠ 0 → b.sizeBytes ≤ x.dram.stats.capacityBytes.toNat :=
      fun hc => Nat.not_lt.mp fun hlt => hbig ⟨hc, hlt⟩
    generalize hrep : StorageNode.replacedKey (x.index.at? k) k = replacing
    have hresident : ∀ j, replacing = some j → x.dram.at? j ≠ none := by
      intro j hj
      subst hrep
      cases hold : x.index.at? k with
      | none => simp [StorageNode.replacedKey, hold] at hj
      | some old =>
        simp only [StorageNode.replacedKey, hold, Option.any_some, decide_eq_true_eq,
          Option.ite_none_right_eq_some, Option.some.injEq] at hj
        obtain ⟨htier, rfl⟩ := hj
        obtain ⟨e, he⟩ := hx.dram_of_index hold htier
        rw [he]; simp
    refine (makeDramRoomForLocked_spec hx b.sizeBytes _ hresident).bind ?_
    rintro ⟨r, n⟩ ⟨y, rfl, hfollow, hroom⟩
    cases r with
    | error s =>
      obtain ⟨hsinks, -, hwhy⟩ := hroom
      refine ⟨y, rfl, hfollow, hsinks, fun ht => ⟨(hwhy ht).1, ?_⟩⟩
      rintro (⟨hover, -⟩ | ⟨-, hcalm, hdem, hcounts⟩)
      · exact hbig hover
      · obtain ⟨hcap, hwraps⟩ := (hwhy ht).2 hcalm hdem rfl hsmall
        exact absurd (hcounts hcap) (not_lt.mpr hwraps)
    | ok _ =>
      refine ((putHot_spec hx hfollow hrep.symm hroom).weaken hfollow.tracked).mono ?_
      rintro ⟨r, n⟩ ⟨w, hw, hfw, heff⟩
      refine ⟨w, hw, hfollow.trans hfw, ?_⟩
      cases r with
      | ok _ =>
        rcases heff with ⟨hlevels, hcold⟩ | ⟨-, -, s, hs⟩
        · exact .inr ⟨hbig, y.levels, hroom.1, hcold, hlevels⟩
        · cases hs
      | error s =>
        rcases heff with ⟨⟨hlevels, hwhy⟩, -⟩ | ⟨hnot, rfl, -⟩
        · refine ⟨hlevels ▸ hroom.1, fun ht => ?_⟩
          obtain ⟨hfault, hnotCalm⟩ := hwhy (hfollow.tracked ht)
          refine ⟨putFaults_subset (hfollow.faults ht) hfault, ?_⟩
          rintro (⟨hover, -⟩ | ⟨-, hcalm, -⟩)
          · exact hbig hover
          · exact hnotCalm (hfollow.calm ht hcalm)
        · exact ⟨hroom.1, fun ht => absurd ht hnot⟩

end TwoTier

end TidePool.Store
