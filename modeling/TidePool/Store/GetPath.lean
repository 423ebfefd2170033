import TidePool.Store.PutPath

/-! `StorageNode::Get`, with the promotion it may trigger, and the read-only queries.

    A read answers from the primary copy and never changes what the node stands for: a promotion is
    some demotions and then, if all goes well, a copy of the cold entry in the hot level. -/

namespace TidePool.Store
open Schemes

namespace TwoTier

variable {σ π : Type} [ColdTier σ] [LawfulPolicy π] {x y : TwoTier σ π} {k : BlockKey} {b : Block}

/-! ### Promotion -/

/-- What a promotion of `k` may do to the levels. -/
def Promotion (k : BlockKey) (x y : TwoTier σ π) : Prop :=
  ∃ z, x.levels.SinksTo z ∧ (y.levels = z ∨ z.hot k = none ∧ y.levels = z.promote k)

omit [LawfulPolicy π] in
theorem promotion_of_sinks (h : x.levels.SinksTo y.levels) : Promotion k x y := ⟨_, h, .inl rfl⟩

omit [LawfulPolicy π] in
/-- Writing the cold value of a key into the hot level is promoting it. -/
theorem promotion_of_writeHot {z : TwoLevel BlockKey Block} (hsinks : x.levels.SinksTo z)
    (hhot : z.hot k = none) (hcold : z.cold k = some b) (hy : y.levels = z.writeHot k b) :
    Promotion k x y := by
  refine ⟨z, hsinks, .inr ⟨hhot, ?_⟩⟩
  rw [hy, TwoLevel.promote, hcold, TwoLevel.writeHot]

/-- The second half of a promotion: DRAM has room for the block. -/
theorem promoteInto_spec (hx : x.Coherent) (hfits : x.Fits k b) (hnew : x.dram.at? k = none)
    {loc : Location} (hloc : x.index.at? k = some loc) (hssd : loc.tier = .ssd) :
    Yields x.Tracked (x.node.promoteInto 0 k b) fun n =>
      ∃ y, n = y.node ∧ x.Follows y ∧ (y.levels = x.levels ∨ y.levels = x.levels.writeHot k b) := by
  simp only [StorageNode.promoteInto, put_dram, ok_bind]
  rcases x.dram.put_cases k b with ⟨msg, d, hput, hsame, hnot⟩ | ⟨d, hput, hat, hcap, hcalm, -⟩
  · rw [hput]
    obtain ⟨hfollow, hlevels, -⟩ := hotPut_no_memory (k := k) (b := b) hx hsame hnot msg
    exact ⟨{ x with dram := d }, rfl, hfollow, .inl hlevels⟩
  · rw [hput]
    refine (policyOnInsert_spec hat fun p hwf hfree =>
      LawfulPolicy.promote_law p k b.sizeBytes hwf hfree).bind ?_
    rintro ⟨r, n⟩ ⟨q, rfl, hres⟩
    cases r with
    | error s =>
      obtain ⟨y, hundo, hfollow, hlevels, -⟩ := undoInsert_refused hx hnew hput hat hres.1 hres.2
      simp only [hundo]
      exact ⟨y, rfl, hfollow, .inl hlevels⟩
    | ok _ =>
      have hrel := relocateIndex_eq (x := { x with dram := d, policy := q }) hloc .dram x.dram.nextHandle
      rw [hssd] at hrel
      simp only [hrel, ok_bind]
      let y : TwoTier σ π := { x with
        dram := d, policy := q
        index := x.index.set k { loc with tier := .dram, handle := x.dram.nextHandle }
        stats := { x.stats with
          promotions := x.stats.promotions + 1
          bytesWritten := x.stats.bytesWritten + b.sizeBytes } }
      have hnode := hx.nodeId_of_index hloc
      obtain ⟨hcoh, hlevels⟩ := coherent_writeHot (y := y) hx hfits hput rfl rfl hx.cold rfl
        fun j => by rw [← hnode]; exact LocalIndex.at?_set _ _ _ _
      exact ⟨y, rfl, .of_step rfl rfl hcap hcoh (.refl hx.cold) (fun ha => ha) hcalm hres, .inr hlevels⟩

/-- PROMOTE: some demotions, and a copy of the cold entry if all goes well. -/
theorem promote_spec (hx : x.Coherent) (hnew : x.dram.at? k = none) {e : Entry}
    (he : ColdView.contents x.ssd k = some e) (view : BlockView)
    (hview : (⟨view.metadata, view.bytes⟩ : Block) = e.block) :
    Yields x.Tracked (x.node.tryPromoteToDramLocked k view) fun n =>
      ∃ y, n = y.node ∧ x.Follows y ∧ Promotion k x y := by
  have hstay : ∃ y, x.node = y.node ∧ x.Follows y ∧ Promotion k x y :=
    ⟨x, rfl, .refl hx, promotion_of_sinks (.refl _)⟩
  simp only [StorageNode.tryPromoteToDramLocked, tierOfLocked_dram,
    node_eviction]
  cases hp : x.policy with
  | none => exact hstay
  | some p =>
    simp only [stats_dram, ok_bind]
    split
    · exact hstay
    · have hloc : x.index.at? k = some ⟨x.id, .ssd, e.handle⟩ := by
        rw [hx.index, primary, hnew, he]; rfl
      have hvalid : x.index.validateRelocate k .ssd = .ok () :=
        LocalIndex.validateRelocate_ok_iff.mpr ⟨_, hloc, rfl⟩
      have hprobe : x.dram.probe k = .error (.notFound k.toText) := by simp [DramTier.probe, hnew]
      simp only [node_index, hvalid, probe_dram, ok_bind, hprobe, Result.code,
        Status.notFound, ne_eq, not_true_eq_false, if_false]
      have hidle := x.idle_drawn hx.cold
      have hdrawn : x.Follows x.drawn := .of_idle hidle hx (.same rfl fun _ => rfl)
      split
      · exact ⟨x.drawn, rfl, hdrawn, promotion_of_sinks (hidle.levels ▸ .refl _)⟩
      · refine ((makeDramRoomForLocked_spec hdrawn.coherent view.size none (by simp)).weaken
          hdrawn.tracked).bind ?_
        rintro ⟨r, n⟩ ⟨y, rfl, hfollow, hsinks, -, hroom⟩
        rw [hidle.levels] at hsinks
        cases r with
        | error s => exact ⟨y, rfl, hdrawn.trans hfollow, promotion_of_sinks hsinks⟩
        | ok _ =>
          obtain ⟨hhot, hcold⟩ := hsinks.of_not_hot (k := k) (by simp [levels, hnew])
          have hdram : y.dram.at? k = none := by simpa [levels] using hhot
          have hcold' : y.levels.cold k = some e.block := by rw [hcold]; simp [levels, he]
          obtain ⟨e', he', hblock⟩ := Option.map_eq_some_iff.mp hcold'
          have hloc' : y.index.at? k = some ⟨y.id, .ssd, e'.handle⟩ := by
            rw [hfollow.coherent.index, primary, hdram, he']; rfl
          have hfits : y.Fits k ⟨view.metadata, view.bytes⟩ := fun hc => by
            simpa [hdram, replacedBytes, Block.sizeBytes, BlockView.size] using (hroom hc).2
          refine ((promoteInto_spec hfollow.coherent hfits hdram hloc' rfl).weaken
            (hfollow.tracked ∘ hdrawn.tracked)).mono ?_
          rintro n ⟨w, rfl, hfw, hlevels⟩
          refine ⟨w, rfl, hdrawn.trans (hfollow.trans hfw), ?_⟩
          rcases hlevels with hsame | hwrite
          · exact promotion_of_sinks (hsame ▸ hsinks)
          · exact promotion_of_writeHot hsinks hhot (hview ▸ hcold') hwrite

/-! ### Get -/

/-- What `Get` of `k` answers, given what the node stands for: the contract of a tier, except that an
    absent key is reported before the arguments are looked at; or a fault of the cold tier. -/
def GetAnswer (x : TwoTier σ π) (k : BlockKey) (dst : MutableBuffer) (out : Option BlockView)
    (r : Result Unit) (out' : Option BlockView) : Prop :=
  (x.levels.view k = none ∧ Result.code r = .notFound ∧ out' = clearView out) ∨
  (∃ b, x.levels.view k = some b ∧ (Result.code r, out') = getContract (some b) dst out) ∨
  ∃ s ∈ ColdView.faults x.ssd, r = .error s ∧ out' = clearView out ∧ ¬ ColdView.Exact x.ssd

omit [LawfulPolicy π] in
/-- A DRAM entry is what the node stands for. -/
theorem view_of_dram {e : Entry} (h : x.dram.at? k = some e) : x.levels.view k = some e.block := by
  simp [TwoLevel.view, levels, h]

omit [LawfulPolicy π] in
theorem view_of_ssd (h : x.dram.at? k = none) :
    x.levels.view k = (ColdView.contents x.ssd k).map (·.block) := by
  simp [TwoLevel.view, levels, h]

/-- A read that failed in its tier. -/
theorem get_failed (hx : x.Coherent) (hidle : x.Idle y) (hp : y.policy = x.policy) (s : Status) :
    ∃ w, (if s.code = .notFound then y.node.missed else y.node) = w.node ∧ x.Follows w ∧ Promotion k x w := by
  have hfollow : x.Follows y := .of_idle hidle hx (.same hp hidle.dram.at?)
  have hsinks : x.levels.SinksTo y.levels := hidle.levels ▸ .refl _
  split
  · refine ⟨{ y with stats := { y.stats with misses := y.stats.misses + 1 } }, rfl, ?_,
      promotion_of_sinks hsinks⟩
    have hidle' : x.Idle { y with stats := { y.stats with misses := y.stats.misses + 1 } } :=
      ⟨hidle.id, hidle.ready, hidle.index, hidle.dram, hidle.cold, hidle.contents, hidle.allocs⟩
    exact .of_idle hidle' hx (.same hp hidle.dram.at?)
  · exact ⟨y, rfl, hfollow, promotion_of_sinks hsinks⟩

/-- A read whose primary is in DRAM. -/
theorem get_dram (hx : x.Coherent) (hready : x.ready = true) {e : Entry} (hk : x.dram.at? k = some e)
    (dst : MutableBuffer) (out : Option BlockView) :
    Yields x.Tracked (x.node.get k dst out) fun res =>
      ∃ y, res.2.2 = y.node ∧ x.Follows y ∧ Promotion k x y ∧ x.GetAnswer k dst out res.1 res.2.1 := by
  have hfind : x.index.find k = .ok ⟨x.id, .dram, e.handle⟩ := by
    simp [LocalIndex.find, hx.index_dram hk]
  obtain ⟨r, out', d, hget, hsame, hcontract⟩ := x.dram.get_spec k dst (clearView out)
  rw [getContract_clearView, hk, Option.map_some] at hcontract
  have hidle : x.Idle { x with dram := d } := ⟨rfl, rfl, rfl, hsame, .refl hx.cold, rfl, fun ha => ha⟩
  have hanswer : x.GetAnswer k dst out r out' := .inr (.inl ⟨e.block, view_of_dram hk, hcontract⟩)
  simp only [StorageNode.get, node_ready, hready, Bool.not_true,
    Bool.false_eq_true, if_false, node_index, hfind, tierOfLocked_dram]
  simp only [fetch_dram, hget, ok_bind]
  cases r with
  | error s =>
    obtain ⟨w, hw, hfw, hpw⟩ := get_failed (k := k) hx hidle rfl s
    exact ⟨w, hw, hfw, hpw, hanswer⟩
  | ok _ =>
    obtain ⟨-, b, -, -, rfl⟩ := getContract_ok_iff.mp hcontract.symm
    let z : TwoTier σ π := { x with
      dram := d
      stats := { x.stats with
        bytesRead := x.stats.bytesRead + (viewOf dst b).size
        dramHits := x.stats.dramHits + 1 } }
    have hidle' : ∀ q, x.Idle { z with policy := q } :=
      fun q => ⟨rfl, rfl, rfl, hsame, .refl hx.cold, rfl, fun ha => ha⟩
    simp only [if_true]
    refine (policyOnAccess_spec (x := x) (z := z) (by rw [hk]; simp) rfl).bind ?_
    rintro n ⟨q, rfl, hstep⟩
    refine ⟨{ z with policy := q }, rfl, .of_idle (hidle' q) hx (hstep.congr rfl fun j => ?_),
      promotion_of_sinks ((hidle' q).levels ▸ .refl _), hanswer⟩
    exact not_congr (by rw [(hidle' q).dram.at?])

/-- A read whose primary is on SSD. -/
theorem get_ssd (hx : x.Coherent) (hready : x.ready = true) (hk : x.dram.at? k = none) {e : Entry}
    (he : ColdView.contents x.ssd k = some e) (dst : MutableBuffer) (out : Option BlockView) :
    Yields x.Tracked (x.node.get k dst out) fun res =>
      ∃ y, res.2.2 = y.node ∧ x.Follows y ∧ Promotion k x y ∧ x.GetAnswer k dst out res.1 res.2.1 := by
  have hfind : x.index.find k = .ok ⟨x.id, .ssd, e.handle⟩ := by
    have hloc : x.index.at? k = some ⟨x.id, .ssd, e.handle⟩ := by rw [hx.index, primary, hk, he]; rfl
    simp [LocalIndex.find, hloc]
  obtain ⟨r, out', ssd, hget, hkept, hsame, hcontract⟩ :=
    ColdTier.get_law x.ssd k dst (clearView out) hx.cold
  rw [getContract_clearView, he, Option.map_some, clearView_clearView] at hcontract
  have hidle : x.Idle { x with ssd } := ⟨rfl, rfl, rfl, .refl _, hkept, hsame, fun ha => ha⟩
  have hview : x.levels.view k = some e.block := by rw [view_of_ssd hk, he]; rfl
  have hanswer : x.GetAnswer k dst out r out' := .inr <| by
    rcases hcontract with h | ⟨s, hs, hr, ho, hx⟩
    · exact .inl ⟨e.block, hview, h⟩
    · exact .inr ⟨s, hs, hr, ho, hx⟩
  simp only [StorageNode.get, node_ready, hready, Bool.not_true,
    Bool.false_eq_true, if_false, node_index, hfind, tierOfLocked_ssd]
  simp only [fetch_ssd, hget, ok_bind]
  cases r with
  | error s =>
    obtain ⟨w, hw, hfw, hpw⟩ := get_failed (k := k) hx hidle rfl s
    exact ⟨w, hw, hfw, hpw, hanswer⟩
  | ok _ =>
    rcases hcontract with hcontract | ⟨s, -, hr, -⟩
    · obtain ⟨-, b, hb, -, rfl⟩ := getContract_ok_iff.mp hcontract.symm
      cases hb
      let z : TwoTier σ π := { x with
        ssd
        stats := { x.stats with
          bytesRead := x.stats.bytesRead + (viewOf dst e.block).size
          ssdHits := x.stats.ssdHits + 1 } }
      have hidle' : x.Idle z := ⟨rfl, rfl, rfl, .refl _, hkept, hsame, fun ha => ha⟩
      have hz : x.Follows z := .of_idle hidle' hx (.same rfl fun _ => rfl)
      simp only [reduceCtorEq, if_false]
      refine Yields.bind ((promote_spec (x := z) (e := e) hz.coherent hk
        (by rw [show ColdView.contents z.ssd = _ from hsame]; exact he) (viewOf dst e.block) rfl).weaken
        hz.tracked) ?_
      rintro n ⟨y, rfl, hfollow, w, hsinks, hw⟩
      rw [hidle'.levels] at hsinks
      exact ⟨y, rfl, hz.trans hfollow, ⟨w, hsinks, hw⟩, hanswer⟩
    · cases hr

/-- GET: the answer is the contract of what the node stands for, and that does not change. -/
theorem get_spec (hx : x.Coherent) (hready : x.ready = true) (k : BlockKey) (dst : MutableBuffer)
    (out : Option BlockView) :
    Yields x.Tracked (x.node.get k dst out) fun res =>
      ∃ y, res.2.2 = y.node ∧ x.Follows y ∧ Promotion k x y ∧ x.GetAnswer k dst out res.1 res.2.1 := by
  cases hloc : x.index.at? k with
  | none =>
    obtain ⟨hhot, hcold⟩ := hx.absent_of_index hloc
    have hfind : x.index.find k = .error (.notFound k.toText) := by simp [LocalIndex.find, hloc]
    simp only [StorageNode.get, node_ready, hready, Bool.not_true,
      Bool.false_eq_true, if_false, node_index, hfind]
    let y : TwoTier σ π := { x with stats := { x.stats with misses := x.stats.misses + 1 } }
    have hidle : x.Idle y := ⟨rfl, rfl, rfl, .refl _, .refl hx.cold, rfl, fun ha => ha⟩
    refine ⟨y, rfl, .of_idle hidle hx (.same rfl fun _ => rfl), promotion_of_sinks (.refl _),
      .inl ⟨?_, rfl, rfl⟩⟩
    rw [view_of_ssd hhot, hcold]; rfl
  | some loc =>
    by_cases htier : loc.tier = .dram
    · obtain ⟨e, he⟩ := hx.dram_of_index hloc htier
      exact get_dram hx hready he dst out
    · obtain ⟨hhot, -, e, he⟩ := hx.ssd_of_index hloc htier
      exact get_ssd hx hready hhot he dst out

/-! ### Queries -/

/-- What `Probe` of `k` answers. -/
def ProbeAnswer (x : TwoTier σ π) (k : BlockKey) (r : Result BlockInfo) : Prop :=
  (x.levels.view k = none ∧ Result.code r = .notFound) ∨
  (∃ b h, x.levels.view k = some b ∧ r = .ok ⟨b.metadata, b.sizeBytes, h⟩) ∨
  ∃ s ∈ ColdView.faults x.ssd, r = .error s ∧ ¬ ColdView.Exact x.ssd

/-- PROBE: size and metadata of what the node stands for. -/
theorem probe_spec (hx : x.Coherent) (hready : x.ready = true) (k : BlockKey) :
    ∃ r y, x.node.probe k = .ok (r, y.node) ∧ x.Follows y ∧ y.levels = x.levels ∧ x.ProbeAnswer k r := by
  simp only [StorageNode.probe, node_ready, hready, Bool.not_true,
    Bool.false_eq_true, if_false, node_index]
  cases hloc : x.index.at? k with
  | none =>
    obtain ⟨hhot, hcold⟩ := hx.absent_of_index hloc
    have hfind : x.index.find k = .error (.notFound k.toText) := by simp [LocalIndex.find, hloc]
    rw [hfind]
    refine ⟨_, x, rfl, .refl hx, rfl, .inl ⟨?_, rfl⟩⟩
    rw [view_of_ssd hhot, hcold]; rfl
  | some loc =>
    have hfind : x.index.find k = .ok loc := by simp [LocalIndex.find, hloc]
    rw [hfind]
    by_cases htier : loc.tier = .dram
    · obtain ⟨e, he⟩ := hx.dram_of_index hloc htier
      have hprobe : x.dram.probe k = .ok e.info := by simp [DramTier.probe, he]
      simp only [htier, tierOfLocked_dram, probe_dram, hprobe]
      exact ⟨_, x, rfl, .refl hx, rfl, .inr (.inl ⟨e.block, e.handle, view_of_dram he, rfl⟩)⟩
    · obtain ⟨hhot, hssd, e, he⟩ := hx.ssd_of_index hloc htier
      obtain ⟨r, ssd, hprobe, hkept, hsame, hanswer⟩ := ColdTier.probe_law x.ssd k hx.cold
      have hidle : x.Idle { x with ssd } := ⟨rfl, rfl, rfl, .refl _, hkept, hsame, fun ha => ha⟩
      simp only [hssd, tierOfLocked_ssd, probe_ssd, hprobe]
      refine ⟨r, { x with ssd }, rfl, .of_idle hidle hx (.same rfl fun _ => rfl), hidle.levels, .inr ?_⟩
      rw [he] at hanswer
      rcases hanswer with h | ⟨s, hs, hr, hnot⟩
      · exact .inl ⟨e.block, e.handle, by rw [view_of_ssd hhot, he]; rfl, h⟩
      · exact .inr ⟨s, hs, hr, hnot⟩

omit [LawfulPolicy π] in
/-- CONTAINS: whether the node stands for a map that has the key. -/
theorem contains_spec (hx : x.Coherent) (hready : x.ready = true) (k : BlockKey) :
    x.node.contains k = .ok (x.levels.view k).isSome := by
  simp only [StorageNode.contains, node_ready, hready, Bool.not_true,
    Bool.false_eq_true, if_false, LocalIndex.contains, node_index, hx.index,
    primary, TwoLevel.view, levels]
  cases x.dram.at? k <;> simp

end TwoTier

end TidePool.Store
