import TidePool.Store.TwoTier

/-! Making room in DRAM: `ReadBlockLocked`, `DemoteOneVictimLocked`, `MakeDramRoomForLocked`.

    A demotion either moves one DRAM key down (`TwoLevel.demote`) or leaves both tiers as they were.
    The index preflight confines it to keys that are in DRAM, whatever the policy answers, so every
    success shrinks DRAM by one block: that is what ends the loop. -/

namespace TidePool.Store
open Schemes

/-- `ProjectedBytes` computes without wrapping, and refuses what would wrap. -/
theorem projectedBytes_eq_some {used replaced projected : UInt64} {incoming : ℕ}
    (h : projectedBytes used replaced incoming = some projected) :
    replaced.toNat ≤ used.toNat ∧ projected.toNat = used.toNat - replaced.toNat + incoming := by
  simp only [projectedBytes] at h
  split at h
  · cases h
  · split at h
    · cases h
    · rename_i hlt hfit
      cases h
      have hle : replaced ≤ used := UInt64.not_lt.mp hlt
      have hsub : (used - replaced).toNat = used.toNat - replaced.toNat := UInt64.toNat_sub_of_le _ _ hle
      have hused := used.toNat_lt
      refine ⟨UInt64.le_iff_toNat_le.mp hle, ?_⟩
      rw [UInt64.toNat_add, hsub, UInt64.toNat_ofNat', Nat.mod_eq_of_lt]
      · rw [Nat.mod_eq_of_lt]
        simp only [hsub, UInt64.size] at hfit
        omega
      · simp only [hsub, UInt64.size] at hfit
        rw [Nat.mod_eq_of_lt] <;> omega

theorem projectedBytes_eq_none {used replaced : UInt64} {incoming : ℕ}
    (h : projectedBytes used replaced incoming = none) :
    used.toNat < replaced.toNat ∨ UInt64.size ≤ used.toNat - replaced.toNat + incoming := by
  simp only [projectedBytes] at h
  split at h
  · rename_i hlt; exact .inl (UInt64.lt_iff_toNat_lt.mp hlt)
  · split at h
    · rename_i hlt hfit
      have hsub : (used - replaced).toNat = used.toNat - replaced.toNat :=
        UInt64.toNat_sub_of_le _ _ (UInt64.not_lt.mp hlt)
      have hused := used.toNat_lt
      rw [hsub] at hfit
      simp only [UInt64.size] at hfit ⊢
      omega
    · cases h

namespace TwoTier

variable {σ π : Type} [ColdTier σ] {x y : TwoTier σ π}

/-! ### Reading the victim -/

/-- `ReadBlockLocked` of a DRAM key: the block itself, or no memory for the buffer. -/
theorem readBlockLocked_dram {k : BlockKey} {e : Entry} (h : x.dram.at? k = some e) :
    x.node.readBlockLocked 0 k = .ok
      (if e.block.sizeBytes ≠ 0 ∧ !x.allocs.head then
        (.error (.outOfCapacity "failed to allocate tier read buffer"), x.drawn.node)
      else (.ok e.block, { x.drawn with dram := x.dram.served }.node)) := by
  have hprobe : x.dram.probe k = .ok e.info := by simp [DramTier.probe, h]
  simp only [StorageNode.readBlockLocked, probe_dram, hprobe]
  by_cases halloc : e.block.sizeBytes ≠ 0 ∧ !x.allocs.head
  · rw [if_pos halloc]
    exact if_pos halloc
  · rw [if_neg halloc]
    refine (if_neg halloc).trans ?_
    have hvalid : MutableBuffer.Valid ⟨e.info.payloadSize != 0, e.info.payloadSize⟩ := by
      by_cases hz : e.info.payloadSize = 0
      · exact .inr hz
      · exact .inl (by simpa using hz)
    have hget := DramTier.get_of_fit h hvalid le_rfl {}
    rw [show x.node.drawn = x.drawn.node from rfl, fetch_dram]
    simp only [ok_bind, show x.drawn.dram = x.dram from rfl, hget]
    exact if_neg (not_not.mpr rfl)

/-! ### One victim -/

/-- The state after the commit of a demotion. -/
def demoted (x : TwoTier σ π) (v : BlockKey) (e : Entry) (ssd : σ) (handle : UInt64) (p : π) :
    TwoTier σ π :=
  { x.drawn with
    dram := x.dram.served.eraseEntry v e
    ssd
    policy := some p
    index := x.index.set v ⟨x.id, .ssd, handle⟩
    stats := { x.stats with
      demotions := x.stats.demotions + 1
      bytesRead := x.stats.bytesRead + e.block.sizeBytes
      bytesWritten := x.stats.bytesWritten + e.block.sizeBytes } }

theorem levels_demoted {v : BlockKey} {e : Entry} {ssd : σ} {h : UInt64} (hv : x.dram.at? v = some e)
    (hssd : ColdView.contents ssd = Function.update (ColdView.contents x.ssd) v (some ⟨e.block, h⟩))
    (p : π) : (x.demoted v e ssd h p).levels = x.levels.demote v := by
  have hdram : (x.demoted v e ssd h p).dram.at? = Function.update x.dram.at? v none :=
    DramTier.at?_eraseEntry _ _ _
  apply TwoLevel.ext
  · funext k
    simp only [levels, TwoLevel.demote, hdram, Function.update_apply]
    split <;> rfl
  · funext k
    simp only [levels, TwoLevel.demote, demoted, hssd, Function.update_apply, hv]
    split <;> rfl

theorem coherent_demoted (hx : x.Coherent) {v : BlockKey} {e : Entry} {ssd : σ} {h : UInt64}
    (hv : x.dram.at? v = some e) (hwf : ColdView.Wf ssd)
    (hssd : ColdView.contents ssd = Function.update (ColdView.contents x.ssd) v (some ⟨e.block, h⟩))
    (p : π) : (x.demoted v e ssd h p).Coherent := by
  have hserved := x.dram.sameEntries_served
  have hv' : x.dram.served.at? v = some e := hv
  have hdram : (x.demoted v e ssd h p).dram.at? = Function.update x.dram.at? v none :=
    DramTier.at?_eraseEntry _ _ _
  refine ⟨⟨DramTier.accounted_eraseEntry hv' (hserved.accounted hx.accounted), fun hcap => ?_⟩, hwf, ?_⟩
  · have hle := hx.bounded hcap
    have htotal := DramTier.totalBytes_eraseEntry hv'
    rw [hserved.totalBytes] at htotal
    exact le_trans (by simp only [demoted]; omega) hle
  · refine index_update hx v (some ⟨x.id, .ssd, h⟩) rfl (fun j hj => ?_)
      (fun j hj => ?_) (fun j => LocalIndex.at?_set _ _ _ _) ?_
    · rw [hdram]; simp [hj]
    · simp [demoted, hssd, hj]
    · simp only [primary, hdram, Function.update_self]
      simp [demoted, drawn, hssd]

variable [LawfulPolicy π]

/-- What an attempt to demote one victim did. -/
def Demotion (ex : Option BlockKey) (x y : TwoTier σ π) : Result Unit → Prop
  | .ok () => ∃ v, x.levels.hot v ≠ none ∧ y.levels = x.levels.demote v ∧
      y.dram.stats.numBlocks + 1 = x.dram.stats.numBlocks ∧
      y.dram.totalBytes ≤ x.dram.totalBytes ∧ (x.Tracked → ex ≠ some v)
  | .error s => y.levels = x.levels ∧ (x.Tracked →
      (s.code = .notFound ∧ ∀ k e, x.dram.at? k = some e → ex = some k) ∨
      (s.code = .outOfCapacity ∧ ¬ x.Calm) ∨ (s ∈ x.faults ∧ ¬ x.Demotable))

/-- The policy has reserved `v`, and was free and tracking DRAM before if `x` is tracked. -/
def Reserves (x : TwoTier σ π) (ex : Option BlockKey) (p' : π) (v : BlockKey) : Prop :=
  ∀ p, x.policy = some p → PolicyView.Wf p → PolicyView.reserved p = none →
    (∀ k, k ∈ PolicyView.resident p ↔ x.dram.at? k ≠ none) →
    PolicyKept p p' ∧ PolicyView.reserved p' = some v ∧ x.dram.at? v ≠ none ∧ ex ≠ some v ∧
      PolicyView.resident p' = PolicyView.resident p

omit [ColdTier σ] in
theorem reserves_of_select {p p' : π} {ex : Option BlockKey} {v : BlockKey} (hp : x.policy = some p)
    (hsel : EvictionPolicy.selectVictim p ex = (.ok v, p')) : x.Reserves ex p' v := by
  intro q hq hwf hfree htrack
  obtain rfl : p = q := Option.some.inj (hp.symm.trans hq)
  rcases LawfulPolicy.select_law p ex hwf hfree with ⟨s, h, -⟩ | ⟨w, p'', h, hw, hex, hkept, hres, hv⟩
  · rw [hsel] at h; cases h
  · rw [hsel] at h
    cases h
    exact ⟨hkept, hv, (htrack v).mp hw, hex, hres⟩

/-- A cancelled demotion: the cause is reported and nothing has moved. -/
theorem cancel_spec (hx : x.Coherent) {z : TwoTier σ π} {p : π} {ex : Option BlockKey} {v : BlockKey}
    {cause : Status} (context : String) (hidle : x.Idle z) (hres : x.Reserves ex p v)
    (hcause : x.Tracked → (cause.code = .outOfCapacity ∧ ¬ x.Calm) ∨ (cause ∈ x.faults ∧ ¬ x.Demotable)) :
    ∃ y, (z.node.cancelVictimOrInternal p v cause context).2 = y.node ∧ x.Follows y ∧
      Demotion ex x y (z.node.cancelVictimOrInternal p v cause context).1 := by
  have hlevels : ∀ q, ({ z with policy := some q } : TwoTier σ π).levels = x.levels := fun q => hidle.levels
  have hidle' : ∀ q, x.Idle { z with policy := some q } := fun q =>
    ⟨hidle.id, hidle.ready, hidle.index, hidle.dram, hidle.cold, hidle.contents, hidle.allocs⟩
  have hstep : ∀ r q, EvictionPolicy.cancelVictim p v = (r, q) →
      x.PolicyStep { z with policy := some q } := by
    intro r q hc p₀ hp₀ hwf hfree htrack
    obtain ⟨hkept, hv, -, -, hresident⟩ := hres p₀ hp₀ hwf hfree htrack
    obtain ⟨q', hq', hkept', hresident', hfree'⟩ := LawfulPolicy.cancel_law p v hkept.wf hv
    rw [hc] at hq'
    cases hq'
    refine ⟨q, rfl, hkept.trans hkept', hfree', fun k => ?_⟩
    rw [hresident', hresident, htrack]
    exact not_congr (by rw [show ({ z with policy := some q } : TwoTier σ π).dram = z.dram from rfl,
      hidle.dram.at?])
  simp only [StorageNode.cancelVictimOrInternal]
  rcases hc : EvictionPolicy.cancelVictim p v with ⟨r, q⟩
  cases r with
  | ok _ =>
    exact ⟨{ z with policy := some q }, rfl, .of_idle (hidle' q) hx (hstep _ q hc), hlevels q,
      fun ht => .inr (hcause ht)⟩
  | error c =>
    refine ⟨{ z with policy := some q }, rfl, .of_idle (hidle' q) hx (hstep _ q hc), hlevels q, ?_⟩
    rintro ⟨p₀, hp₀, hwf, hfree, htrack⟩
    obtain ⟨hkept, hv, -⟩ := hres p₀ hp₀ hwf hfree htrack
    obtain ⟨q', hq', -⟩ := LawfulPolicy.cancel_law p v hkept.wf hv
    rw [hc] at hq'
    cases hq'

omit [LawfulPolicy π] in
/-- The commit of a demotion stops only where `CommitVictim` does. -/
theorem commitDemotion_eq [EvictionPolicy π] (hx : x.Coherent) (p : π) {v : BlockKey} {e : Entry} (ssd : σ)
    (h : UInt64) (hv : x.dram.at? v = some e) :
    { x.drawn with dram := x.dram.served, ssd }.node.commitDemotion 0 1 p v e.block h =
      (EvictionPolicy.commitVictim p v).map fun p' => (.ok (), (x.demoted v e ssd h p').node) := by
  have hindex := LocalIndex.relocateExisting_of_at? (hx.index_dram hv) .ssd h
  have herase := erase_dram (x := { x.drawn with dram := x.dram.served, ssd }) hv
  have htype : Tier.type ssd = .ssd := ColdTier.type_ssd ssd
  simp only [StorageNode.commitDemotion, herase]
  show (x.index.relocateExisting v .dram (Tier.type ssd) h >>= _) = _
  rw [htype, hindex]
  cases EvictionPolicy.commitVictim p v <;> rfl

/-- A committed demotion, seen from the state `x` it started in. -/
theorem demoted_spec (hx : x.Coherent) {z : TwoTier σ π} (hidle : x.Idle z) {p p' : π}
    {ex : Option BlockKey} {v : BlockKey} {e : Entry} {ssd : σ} {h : UInt64} (hres : x.Reserves ex p v)
    (hv : z.dram.at? v = some e) (hkept : ColdKept z.ssd ssd)
    (hssd : ColdView.contents ssd = Function.update (ColdView.contents z.ssd) v (some ⟨e.block, h⟩))
    (hcommit : EvictionPolicy.commitVictim p v = .ok p') :
    x.Follows (z.demoted v e ssd h p') ∧ Demotion ex x (z.demoted v e ssd h p') (.ok ()) := by
  have hz : z.Coherent := hidle.coherent hx
  have hvx : x.dram.at? v = some e := by rw [← hidle.dram.at?]; exact hv
  have hserved : z.dram.SameEntries z.dram.served := z.dram.sameEntries_served
  have hv' : z.dram.served.at? v = some e := hv
  refine ⟨.of_step hidle.id hidle.ready hidle.dram.capacityBytes
    (coherent_demoted hz hv hkept.wf hssd p') (hidle.cold.trans hkept)
    (fun ha i => hidle.allocs ha (i + 1)) hidle.dram.calm ?_, v, ?_, ?_, ?_, ?_, ?_⟩
  · intro p₀ hp₀ hwf hfree htrack
    obtain ⟨hkept₁, hv₁, -, -, hresident⟩ := hres p₀ hp₀ hwf hfree htrack
    obtain ⟨q, hq, hkept₂, hresident₂, hfree₂⟩ := LawfulPolicy.commit_law p v hkept₁.wf hv₁
    rw [hcommit] at hq
    cases hq
    refine ⟨p', rfl, hkept₁.trans hkept₂, hfree₂, fun k => ?_⟩
    rw [hresident₂, hresident, Set.mem_sdiff, Set.mem_singleton_iff, htrack, ← hidle.dram.at?]
    show _ ↔ (z.dram.served.eraseEntry v e).at? k ≠ none
    rw [DramTier.at?_eraseEntry]
    by_cases hk : k = v
    · simp [hk]
    · simp [hk]; rfl
  · rw [hot_ne_none, hvx]; simp
  · rw [levels_demoted hv hssd, hidle.levels]
  · have hblocks := DramTier.numBlocks_eraseEntry hv' (hserved.accounted hz.accounted)
    rw [← hidle.dram.numBlocks]
    exact hblocks
  · have htotal := DramTier.totalBytes_eraseEntry hv'
    rw [hserved.totalBytes, hidle.dram.totalBytes] at htotal
    simp only [demoted]
    omega
  · rintro ⟨p₀, hp₀, hwf, hfree, htrack⟩
    exact (hres p₀ hp₀ hwf hfree htrack).2.2.2.1

/-- `DemoteOneVictimLocked` once the policy has reserved its victim. -/
theorem demoteReserved_spec (hx : x.Coherent) {z : TwoTier σ π} (hidle : x.Idle z) {p : π}
    {ex : Option BlockKey} {v : BlockKey} (hres : x.Reserves ex p v) :
    Yields x.Tracked (z.node.demoteReserved 0 1 p v) fun res =>
      ∃ y, res.2 = y.node ∧ x.Follows y ∧ Demotion ex x y res.1 := by
  have hz : z.Coherent := hidle.coherent hx
  simp only [StorageNode.demoteReserved, node_index]
  cases hv : z.dram.at? v with
  | none =>
    -- the index preflight fails: the policy named a key that is not in DRAM
    have hpre : ∃ s, z.index.validateRelocate v .dram = .error s := by
      cases hpre : z.index.validateRelocate v .dram with
      | error s => exact ⟨s, rfl⟩
      | ok _ =>
        obtain ⟨loc, hloc, htier⟩ := LocalIndex.validateRelocate_ok_iff.mp hpre
        obtain ⟨e, he⟩ := hz.dram_of_index hloc htier
        rw [hv] at he; cases he
    obtain ⟨s, hs⟩ := hpre
    simp only [hs]
    refine cancel_spec hx "demotion index preflight" hidle hres ?_
    rintro ⟨p₀, hp₀, hwf, hfree, htrack⟩
    rw [hidle.dram.at?] at hv
    exact absurd hv (hres p₀ hp₀ hwf hfree htrack).2.2.1
  | some e =>
    have hpre : z.index.validateRelocate v .dram = .ok () :=
      LocalIndex.validateRelocate_ok_iff.mpr ⟨_, hz.index_dram hv, rfl⟩
    simp only [hpre, readBlockLocked_dram hv]
    by_cases halloc : e.block.sizeBytes ≠ 0 ∧ !z.allocs.head
    · -- no memory for the read buffer
      rw [if_pos halloc]
      refine cancel_spec hx "demotion read preflight" (z := z.drawn) (hidle.trans (z.idle_drawn hz.cold))
        hres ?_
      intro _
      refine .inl ⟨rfl, fun hcalm => ?_⟩
      have htrue : z.allocs.head = true := hidle.allocs hcalm.node 0
      simp [htrue] at halloc
    · rw [if_neg halloc]
      let z₁ : TwoTier σ π := { z.drawn with dram := z.dram.served }
      have hidle₁ : x.Idle z₁ := hidle.trans ⟨rfl, rfl, rfl, z.dram.sameEntries_served,
        .refl hz.cold, rfl, fun ha i => ha (i + 1)⟩
      have herase : z₁.node.askTier 0 (Tier.validateEraseExisting · v) = .ok (.ok ()) :=
        congrArg _ (DramTier.validateEraseExisting_of_at? (t := z.dram.served) hv)
      simp only [ok_bind]
      rw [herase]
      simp only [ok_bind]
      cases hcommit : EvictionPolicy.validateVictimCommit p v with
      | error s =>
        refine cancel_spec hx "demotion policy preflight" hidle₁ hres ?_
        rintro ⟨p₀, hp₀, hwf, hfree, htrack⟩
        obtain ⟨hkept, hv₁, -⟩ := hres p₀ hp₀ hwf hfree htrack
        rw [LawfulPolicy.validate_law p v hkept.wf hv₁] at hcommit
        cases hcommit
      | ok _ =>
        obtain ⟨r, ssd, hput, hkept, heffect⟩ := ColdTier.put_law z.ssd v e.block hz.cold
        have hcall : z₁.node.callTier 1 (Tier.put · v e.block) = .ok (r, { z₁ with ssd }.node) := by
          rw [put_ssd, show Tier.put z₁.ssd v e.block = (r, ssd) from hput]
        simp only
        rw [hcall]
        simp only [ok_bind]
        cases r with
        | error s =>
          obtain ⟨hsame, hfault, hreject⟩ := heffect
          have hidle₂ : x.Idle { z₁ with ssd } := hidle₁.trans
            ⟨rfl, rfl, rfl, .refl _, hkept, hsame, fun ha => ha⟩
          refine cancel_spec hx "demotion SSD Put" hidle₂ hres fun _ => .inr ⟨.inl ?_, fun hall => ?_⟩
          · exact hidle.cold.faults hfault
          · rw [hidle.dram.at?] at hv
            exact hreject (hidle.cold.accepts v e.block (hall v e.block (by simp [levels, hv])))
        | ok h =>
          have heq := commitDemotion_eq hz p ssd h hv
          simp only
          rw [show ({ z₁ with ssd } : TwoTier σ π) =
            { z.drawn with dram := z.dram.served, ssd } from rfl, heq]
          cases hdone : EvictionPolicy.commitVictim p v with
          | error halt =>
            rintro ⟨p₀, hp₀, hwf, hfree, htrack⟩
            obtain ⟨hkept₁, hv₁, -⟩ := hres p₀ hp₀ hwf hfree htrack
            obtain ⟨q, hq, -⟩ := LawfulPolicy.commit_law p v hkept₁.wf hv₁
            rw [hdone] at hq; cases hq
          | ok p' => exact ⟨z.demoted v e ssd h p', rfl, demoted_spec hx hidle hres hv hkept heffect hdone⟩

/-- DEMOTE: one DRAM key moves down, or nothing moves and the error says why. -/
theorem demote_spec (hx : x.Coherent) (ex : Option BlockKey) :
    Yields x.Tracked (x.node.demoteOneVictimLocked 0 1 ex) fun res =>
      ∃ y, res.2 = y.node ∧ x.Follows y ∧ Demotion ex x y res.1 := by
  simp only [StorageNode.demoteOneVictimLocked, node_eviction]
  cases hp : x.policy with
  | none =>
    refine ⟨x, rfl, .refl hx, rfl, ?_⟩
    rintro ⟨p, hp', -⟩
    rw [hp] at hp'; cases hp'
  | some p =>
    rcases hsel : EvictionPolicy.selectVictim p ex with ⟨r, p₁⟩
    have hidle : x.Idle { x with policy := some p₁ } :=
      ⟨rfl, rfl, rfl, .refl _, .refl hx.cold, rfl, fun ha => ha⟩
    cases r with
    | error s =>
      have hstep : x.PolicyStep { x with policy := some p₁ } ∧
          (x.Tracked → s.code = .notFound ∧ ∀ k e, x.dram.at? k = some e → ex = some k) := by
        have hlaw : ∀ q, x.policy = some q → PolicyView.Wf q → PolicyView.reserved q = none →
            p₁ = q ∧ s.code = .notFound ∧ ∀ k ∈ PolicyView.resident q, ex = some k := by
          intro q hq hwf hfree
          obtain rfl : p = q := Option.some.inj (hp.symm.trans hq)
          rcases LawfulPolicy.select_law p ex hwf hfree with ⟨s', h, hrest⟩ | ⟨w, p'', h, -⟩
          · rw [hsel] at h; cases h; exact ⟨rfl, hrest⟩
          · rw [hsel] at h; cases h
        refine ⟨fun q hq hwf hfree htrack => ?_, ?_⟩
        · obtain ⟨rfl, -⟩ := hlaw q hq hwf hfree
          exact ⟨p₁, rfl, .refl hwf, hfree, htrack⟩
        · rintro ⟨q, hq, hwf, hfree, htrack⟩
          obtain ⟨-, hcode, hall⟩ := hlaw q hq hwf hfree
          exact ⟨hcode, fun k e hk => hall k ((htrack k).mpr (by rw [hk]; simp))⟩
      simp only [hsel]
      exact ⟨{ x with policy := some p₁ }, rfl, .of_idle hidle hx hstep.1, rfl, fun ht => .inl (hstep.2 ht)⟩
    | ok v =>
      have hres := reserves_of_select hp hsel
      simp only [hsel]
      exact demoteReserved_spec hx hidle hres

/-! ### Making room -/

/-- Bytes that the entry about to be replaced holds in DRAM. -/
def replacedBytes (x : TwoTier σ π) (replacing : Option BlockKey) : ℕ :=
  (replacing.bind x.levels.hot).elim 0 Block.sizeBytes

/-- What making room for `incoming` bytes did. -/
def Room (replaced incoming : ℕ) (replacing : Option BlockKey) (x y : TwoTier σ π) (r : Result Unit) :
    Prop :=
  x.levels.SinksTo y.levels ∧
  (x.Tracked → ∀ k, replacing = some k →
    y.levels.hot k = x.levels.hot k ∧ y.levels.cold k = x.levels.cold k) ∧
  match r with
  | .ok () => y.dram.stats.capacityBytes ≠ 0 →
      replaced ≤ y.dram.totalBytes ∧
        y.dram.totalBytes - replaced + incoming ≤ y.dram.stats.capacityBytes.toNat
  | .error s => x.Tracked → s ∈ x.putFaults ∧
      (x.Calm → x.Demotable → replaced = x.replacedBytes replacing →
        (x.dram.stats.capacityBytes ≠ 0 → incoming ≤ x.dram.stats.capacityBytes.toNat) →
        x.dram.stats.capacityBytes ≠ 0 ∧ UInt64.size ≤ x.dram.totalBytes + incoming)

omit [LawfulPolicy π] in
/-- What is left in DRAM was there before, so it can still be demoted. -/
theorem Demotable.of_sinks (hx : x.Demotable) (hcold : ColdKept x.ssd y.ssd)
    (h : x.levels.SinksTo y.levels) : y.Demotable := by
  intro k b hb
  have hhot := (h.of_hot (k := k) (by rw [hb]; simp)).1
  exact hcold.accepts k b (hx k b (hhot ▸ hb))

/-- Room that was made after a first demotion is room made from the start. -/
theorem Room.after_demotion {replaced incoming : ℕ} {replacing : Option BlockKey} {z : TwoTier σ π}
    {r : Result Unit} (hfollow : x.Follows y) (hdem : Demotion replacing x y (.ok ()))
    (hroom : Room replaced incoming replacing y z r) : Room replaced incoming replacing x z r := by
  obtain ⟨v, hv, hlevels, -, htotal, hex⟩ := hdem
  have hsinks : x.levels.SinksTo y.levels := hlevels ▸ x.levels.sinksTo_demote hv
  have hsame : x.Tracked → ∀ k, replacing = some k →
      y.levels.hot k = x.levels.hot k ∧ y.levels.cold k = x.levels.cold k := by
    intro ht k hk
    have hne : k ≠ v := by rintro rfl; exact hex ht hk
    rw [hlevels]
    simp [TwoLevel.demote, hne]
  obtain ⟨hs, hkeep, hres⟩ := hroom
  refine ⟨hsinks.trans hs, fun ht k hk => ?_, ?_⟩
  · obtain ⟨hh, hc⟩ := hkeep (hfollow.tracked ht) k hk
    obtain ⟨hh', hc'⟩ := hsame ht k hk
    exact ⟨hh.trans hh', hc.trans hc'⟩
  · cases r with
    | ok _ => exact hres
    | error s =>
      intro ht
      obtain ⟨hfault, hfull⟩ := hres (hfollow.tracked ht)
      refine ⟨putFaults_subset (hfollow.faults ht) hfault, fun hcalm hdem hrep hinc => ?_⟩
      have hrep' : replaced = y.replacedBytes replacing := by
        rw [hrep, replacedBytes, replacedBytes]
        cases replacing with
        | none => rfl
        | some k => simp [(hsame ht k rfl).1]
      obtain ⟨hcap, hbig⟩ := hfull (hfollow.calm ht hcalm) (hdem.of_sinks hfollow.cold hsinks) hrep'
        (by rw [hfollow.capacity]; exact hinc)
      exact ⟨hfollow.capacity ▸ hcap, by omega⟩

omit [LawfulPolicy π] in
theorem replacedBytes_le (x : TwoTier σ π) (replacing : Option BlockKey) :
    x.replacedBytes replacing ≤ x.dram.totalBytes := by
  cases hk : replacing.bind x.dram.at? with
  | none => cases replacing <;> simp_all [replacedBytes, levels]
  | some e =>
    obtain ⟨k, rfl, he⟩ := Option.bind_eq_some_iff.mp hk
    simpa [replacedBytes, levels, he] using DramTier.size_le_totalBytes he

omit [LawfulPolicy π] in
/-- With nothing to demote but the replaced key, DRAM holds just that key. -/
theorem totalBytes_eq_replacedBytes {replacing : Option BlockKey}
    (h : ∀ k e, x.dram.at? k = some e → replacing = some k) :
    x.dram.totalBytes = x.replacedBytes replacing := by
  rw [DramTier.totalBytes_of_only h, replacedBytes]
  cases replacing with
  | none => rfl
  | some k => cases hk : x.dram.at? k <;> simp [levels, hk]

/-- Room that was not made, for one of the reasons a demotion gives. -/
theorem room_of_failed_demotion {replaced incoming : ℕ} {replacing : Option BlockKey} {s s' : Status}
    (hdem : Demotion replacing x y (.error s))
    (hreport : s'.code = .outOfCapacity ∨ s' = s ∧ s.code ≠ .notFound)
    (hcap : x.dram.stats.capacityBytes ≠ 0)
    (hfull : x.dram.stats.capacityBytes.toNat < x.dram.totalBytes - replaced + incoming) :
    Room replaced incoming replacing x y (.error s') := by
  obtain ⟨hlevels, hwhy⟩ := hdem
  refine ⟨hlevels ▸ .refl _, fun _ k _ => by rw [hlevels]; exact ⟨rfl, rfl⟩, fun ht => ⟨?_, ?_⟩⟩
  · rcases hreport with hooc | ⟨rfl, hne⟩
    · exact .inl hooc
    · rcases hwhy ht with ⟨hnf, -⟩ | ⟨hooc, -⟩ | ⟨hf, -⟩
      · exact absurd hnf hne
      · exact .inl hooc
      · exact .inr hf
  · intro hcalm hd hrep hinc
    rcases hwhy ht with ⟨-, honly⟩ | ⟨-, hnot⟩ | ⟨-, hnot⟩
    · have honly := totalBytes_eq_replacedBytes honly
      have hinc := hinc hcap
      omega
    · exact absurd hcalm hnot
    · exact absurd hd hnot

/-- The incoming block does not fit yet. -/
def Over (replaced incoming : ℕ) (x : TwoTier σ π) : Prop :=
  x.dram.stats.capacityBytes ≠ 0 ∧
    x.dram.stats.capacityBytes.toNat < x.dram.stats.usedBytes.toNat - replaced + incoming

/-- LOOP: what holds where the loop stops, and of a state whenever it holds after one more demotion, is
    what the loop yields. -/
theorem makeRoomLoop_rule {replaced : UInt64} {incoming : ℕ} {replacing : Option BlockKey}
    {Q : TwoTier σ π → Result Unit × StorageNode (DramTier ⊕ σ) π → Prop}
    (fits : ∀ x, x.Coherent → (x.dram.stats.capacityBytes ≠ 0 →
      replaced.toNat ≤ x.dram.stats.usedBytes.toNat ∧
        x.dram.stats.usedBytes.toNat - replaced.toNat + incoming ≤ x.dram.stats.capacityBytes.toNat) →
      Q x (.ok (), x.node))
    (wraps : ∀ x s, x.Coherent → x.dram.stats.capacityBytes ≠ 0 → s.code = .outOfCapacity →
      (x.dram.stats.usedBytes.toNat < replaced.toNat ∨
        UInt64.size ≤ x.dram.stats.usedBytes.toNat - replaced.toNat + incoming) → Q x (.error s, x.node))
    (bare : ∀ x s, x.Coherent → x.policy = none → Q x (.error s, x.node))
    (stuck : ∀ x y s s', x.Coherent → x.Over replaced.toNat incoming →
      x.node.demoteOneVictimLocked 0 1 replacing = .ok (.error s, y.node) → x.Follows y →
      Demotion replacing x y (.error s) → (s'.code = .outOfCapacity ∨ s' = s ∧ s.code ≠ .notFound) →
      Q x (.error s', y.node))
    (next : ∀ x y res, x.Coherent → x.Over replaced.toNat incoming →
      x.node.demoteOneVictimLocked 0 1 replacing = .ok (.ok (), y.node) → x.Follows y →
      Demotion replacing x y (.ok ()) → Q y res → Q x res) :
    ∀ (fuel : ℕ) (x : TwoTier σ π), x.Coherent → x.dram.stats.numBlocks < fuel →
      Yields x.Tracked (StorageNode.makeRoomLoop 0 replaced incoming replacing fuel x.node) (Q x)
  | 0, x, _, hfuel => absurd hfuel (Nat.not_lt_zero _)
  | fuel + 1, x, hx, hfuel => by
    simp only [StorageNode.makeRoomLoop, stats_dram, ok_bind]
    by_cases hcap : x.dram.stats.capacityBytes = 0
    · rw [if_pos hcap]
      exact .ok (fits x hx fun h => absurd hcap h)
    · rw [if_neg hcap]
      cases hproj : projectedBytes x.dram.stats.usedBytes replaced incoming with
      | none => exact .ok (wraps x _ hx hcap rfl (projectedBytes_eq_none hproj))
      | some projected =>
        obtain ⟨hle, hsum⟩ := projectedBytes_eq_some hproj
        by_cases hfit : projected ≤ x.dram.stats.capacityBytes
        · simp only [hfit, if_true]
          have hfit' := UInt64.le_iff_toNat_le.mp hfit
          exact .ok (fits x hx fun _ => ⟨hle, by omega⟩)
        · have hover : x.Over replaced.toNat incoming := by
            have hlt := UInt64.lt_iff_toNat_lt.mp (UInt64.not_le.mp hfit)
            exact ⟨hcap, by omega⟩
          simp only [hfit, if_false]
          cases hpol : x.policy with
          | none =>
            simp only [node_eviction, hpol, Option.isNone_none, if_true]
            exact .ok (bare x _ hx hpol)
          | some p =>
            simp only [node_eviction, hpol, Option.isNone_some,
              Bool.false_eq_true, if_false, StorageNode.colderTierLocked, tierOfLocked_ssd]
            refine (demote_spec hx replacing).answered.bind ?_
            rintro ⟨r, n⟩ ⟨heq, y, hy, hfollow, hdem⟩
            obtain rfl : n = y.node := hy
            cases r with
            | error s =>
              simp only
              split
              · exact .ok (stuck x y s _ hx hover heq hfollow hdem (.inl rfl))
              · rename_i hnf
                exact .ok (stuck x y s s hx hover heq hfollow hdem (.inr ⟨rfl, hnf⟩))
            | ok _ =>
              -- one block fewer: progress was made, and the fuel still covers the rest
              have hblocks : y.dram.stats.numBlocks + 1 = x.dram.stats.numBlocks := by
                obtain ⟨_, -, -, hblocks, -⟩ := hdem
                exact hblocks
              have hprogress : ¬ (x.dram.stats.usedBytes ≤ y.dram.stats.usedBytes ∧
                  x.dram.stats.numBlocks ≤ y.dram.stats.numBlocks) := by omega
              simp only [stats_dram, ok_bind, hprogress, if_false]
              have hrest := makeRoomLoop_rule fits wraps bare stuck next fuel y hfollow.coherent (by omega)
              exact (hrest.weaken hfollow.tracked).mono fun res => next x y res hx hover heq hfollow hdem

/-- ROOM: the loop ends with DRAM roomy enough, or with an error that says why not. -/
theorem makeRoomLoop_spec (replaced : UInt64) (incoming : ℕ) (replacing : Option BlockKey) (fuel : ℕ)
    (x : TwoTier σ π) (hx : x.Coherent) (hfuel : x.dram.stats.numBlocks < fuel) :
    Yields x.Tracked (StorageNode.makeRoomLoop 0 replaced incoming replacing fuel x.node) fun res =>
      ∃ y, res.2 = y.node ∧ x.Follows y ∧ Room replaced.toNat incoming replacing x y res.1 := by
  refine makeRoomLoop_rule (Q := fun x res => ∃ y, res.2 = y.node ∧ x.Follows y ∧
    Room replaced.toNat incoming replacing x y res.1) ?_ ?_ ?_ ?_ ?_ fuel x hx hfuel
  · intro x hx hfits
    refine ⟨x, rfl, .refl hx, .refl _, fun _ k _ => ⟨rfl, rfl⟩, fun hcap => ?_⟩
    rw [← hx.used_eq hcap]
    exact hfits hcap
  · intro x s hx hcap hs hwraps
    refine ⟨x, rfl, .refl hx, .refl _, fun _ k _ => ⟨rfl, rfl⟩,
      fun ht => ⟨.inl hs, fun _ _ hrep _ => ⟨hcap, ?_⟩⟩⟩
    rw [hx.used_eq hcap] at hwraps
    have hle := x.replacedBytes_le replacing
    rcases hwraps with h | h <;> omega
  · intro x s hx hpol
    refine ⟨x, rfl, .refl hx, .refl _, fun _ k _ => ⟨rfl, rfl⟩, ?_⟩
    rintro ⟨p, hp, -⟩
    rw [hpol] at hp; cases hp
  · intro x y s s' hx hover _ hfollow hdem hreport
    have hfull := hover.2
    rw [hx.used_eq hover.1] at hfull
    exact ⟨y, rfl, hfollow, room_of_failed_demotion hdem hreport hover.1 hfull⟩
  · rintro x y res _ _ _ hfollow hdem ⟨z, hz, hfollow', hroom⟩
    exact ⟨z, hz, hfollow.trans hfollow', hroom.after_demotion hfollow hdem⟩

omit [LawfulPolicy π] in
/-- `MakeDramRoomForLocked` is the loop, given the size of the block that is replaced. -/
theorem makeDramRoomForLocked_eq [EvictionPolicy π] (incoming : ℕ) {replacing : Option BlockKey}
    (hrep : ∀ k, replacing = some k → x.dram.at? k ≠ none) :
    ∃ replaced : UInt64, replaced.toNat = x.replacedBytes replacing ∧
      x.node.makeDramRoomForLocked incoming replacing =
        StorageNode.makeRoomLoop 0 replaced incoming replacing (x.dram.stats.numBlocks + 1) x.node := by
  simp only [StorageNode.makeDramRoomForLocked, tierOfLocked_dram, stats_dram, ok_bind]
  cases replacing with
  | none => exact ⟨0, rfl, rfl⟩
  | some k =>
    obtain ⟨e, he⟩ := Option.ne_none_iff_exists'.mp (hrep k rfl)
    have hprobe : x.dram.probe k = .ok e.info := by simp [DramTier.probe, he]
    have hbytes : (UInt64.ofNat e.info.payloadSize).toNat = x.replacedBytes (some k) := by
      rw [show e.info.payloadSize = e.block.sizeBytes from rfl,
        UInt64.toNat_ofNat_of_lt' e.block.sizeBytes_lt]
      simp [replacedBytes, levels, he]
    exact ⟨_, hbytes, by simp only [probe_dram, ok_bind, hprobe]⟩

/-- `MakeDramRoomForLocked`, replacing nothing or a key that is in DRAM. -/
theorem makeDramRoomForLocked_spec (hx : x.Coherent) (incoming : ℕ) (replacing : Option BlockKey)
    (hrep : ∀ k, replacing = some k → x.dram.at? k ≠ none) :
    Yields x.Tracked (x.node.makeDramRoomForLocked incoming replacing) fun res =>
      ∃ y, res.2 = y.node ∧ x.Follows y ∧
        Room (x.replacedBytes replacing) incoming replacing x y res.1 := by
  obtain ⟨replaced, hbytes, heq⟩ := x.makeDramRoomForLocked_eq incoming hrep
  rw [heq, ← hbytes]
  exact makeRoomLoop_spec replaced incoming replacing _ x hx (Nat.lt_succ_self _)

end TwoTier

end TidePool.Store
