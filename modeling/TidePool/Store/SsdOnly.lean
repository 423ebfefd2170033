import TidePool.Store.Replies

/-! A node without a DRAM tier.

    With `{SSD}` as its tiers a node has nothing to demote and nowhere to promote to, so the policy is never
    asked. `PutWithoutDramLocked` moves the index first and the disk second, and takes the index back when
    the disk refuses:

        new key     Upsert(key, 0)         then Put;  Ok: RelocateExisting(handle)   else RemoveExisting
        old key     RelocateExisting(0)    then Put;  Ok: RelocateExisting(handle)   else the old handle again

    Either way the index is what the disk holds when the call returns, and a `Put` that returned `Ok` is
    on disk. -/

namespace TidePool.Store
open Schemes

structure SsdOnly (σ π : Type) where
  id : String
  ssd : σ
  policy : Option π
  index : LocalIndex := {}
  ready : Bool := false
  stats : StorageNodeStats := {}
  allocs : Stream' Bool := Stream'.const true

namespace SsdOnly

variable {σ π : Type}

/-- The storage node with the one tier. -/
def node (x : SsdOnly σ π) : StorageNode (DramTier ⊕ σ) π where
  id := x.id
  tiers := [some (.inr x.ssd)]
  eviction := x.policy
  index := x.index
  ready := x.ready
  stats := x.stats
  allocs := x.allocs

section Calls

variable [ColdTier σ] (x : SsdOnly σ π) (k : BlockKey) (b : Block)

theorem askTier_type : x.node.askTier 0 Tier.type = .ok .ssd :=
  congrArg Except.ok (ColdTier.type_ssd x.ssd)

theorem callTier_put : x.node.callTier 0 (Tier.put · k b) =
    .ok ((Tier.put x.ssd k b).1, { x with ssd := (Tier.put x.ssd k b).2 }.node) := rfl

theorem callTier_probe : x.node.callTier 0 (Tier.probe · k) =
    .ok ((Tier.probe x.ssd k).1, { x with ssd := (Tier.probe x.ssd k).2 }.node) := rfl

theorem callTier_fetch (dst : MutableBuffer) (out : Option BlockView) :
    x.node.callTier 0 (StorageNode.fetch k dst out) =
      .ok (((Tier.get x.ssd k dst out).1, (Tier.get x.ssd k dst out).2.1),
        { x with ssd := (Tier.get x.ssd k dst out).2.2 }.node) := rfl

theorem type_inr : Tier.type (Sum.inr x.ssd : DramTier ⊕ σ) = .ssd := ColdTier.type_ssd x.ssd

theorem tierOfLocked_ssd : x.node.tierOfLocked .ssd = some 0 := by
  simp [StorageNode.tierOfLocked, node, List.findIdx?_cons, type_inr]

theorem tierOfLocked_dram : x.node.tierOfLocked .dram = none := by
  simp [StorageNode.tierOfLocked, node, List.findIdx?_cons, type_inr]

end Calls

/-! ### Invariant -/

section Views

variable [ColdView σ]

/-- The one level, with nothing in front of it. -/
def levels (x : SsdOnly σ π) : TwoLevel BlockKey Block where
  hot _ := none
  cold k := (ColdView.contents x.ssd k).map (·.block)

/-- The tier is open and the index is exactly what it holds. -/
structure Coherent (x : SsdOnly σ π) : Prop where
  cold : ColdView.Wf x.ssd
  index : ∀ k, x.index.at? k = (ColdView.contents x.ssd k).map fun e => ⟨x.id, .ssd, e.handle⟩

variable {x y z : SsdOnly σ π}

theorem view_eq (x : SsdOnly σ π) (k : BlockKey) :
    x.levels.view k = (ColdView.contents x.ssd k).map (·.block) := by
  simp [TwoLevel.view, levels]

/-- What every data call keeps. -/
structure Follows (x y : SsdOnly σ π) : Prop where
  ready : y.ready = x.ready
  policy : y.policy = x.policy
  coherent : y.Coherent
  cold : ColdKept x.ssd y.ssd
  allocs : ∃ n, y.allocs = x.allocs.drop n

theorem Follows.refl (h : x.Coherent) : x.Follows x := ⟨rfl, rfl, h, .refl h.cold, 0, rfl⟩

/-- Same records, same index: still coherent. -/
theorem Coherent.same (h : x.Coherent) (hid : y.id = x.id) (hcold : ColdView.Wf y.ssd)
    (hssd : ColdView.contents y.ssd = ColdView.contents x.ssd) (hindex : y.index = x.index) : y.Coherent :=
  ⟨hcold, fun k => by rw [hindex, h.index, hssd, hid]⟩

/-- Only counters and streams moved. -/
theorem follows_same (h : x.Coherent) (hid : y.id = x.id) (hready : y.ready = x.ready)
    (hpolicy : y.policy = x.policy) (hcold : ColdKept x.ssd y.ssd)
    (hssd : ColdView.contents y.ssd = ColdView.contents x.ssd) (hindex : y.index = x.index)
    (hallocs : ∃ n, y.allocs = x.allocs.drop n) : x.Follows y :=
  ⟨hready, hpolicy, h.same hid hcold.wf hssd hindex, hcold, hallocs⟩

/-- One record and its index entry written alike. -/
theorem follows_written (h : x.Coherent) {k : BlockKey} {b : Block} {handle : UInt64} (hid : y.id = x.id)
    (hready : y.ready = x.ready) (hpolicy : y.policy = x.policy) (hcold : ColdKept x.ssd y.ssd)
    (hssd : ColdView.contents y.ssd = Function.update (ColdView.contents x.ssd) k (some ⟨b, handle⟩))
    (hindex : ∀ j, y.index.at? j = if j = k then some ⟨x.id, .ssd, handle⟩ else x.index.at? j)
    (hallocs : ∃ n, y.allocs = x.allocs.drop n) : x.Follows y := by
  refine ⟨hready, hpolicy, ⟨hcold.wf, fun j => ?_⟩, hcold, hallocs⟩
  rw [hindex, hssd, hid, Function.update_apply]
  by_cases hj : j = k
  · rw [if_pos hj, if_pos hj, Option.map_some]
  · rw [if_neg hj, if_neg hj, h.index]

theorem Coherent.find_present (h : x.Coherent) {k : BlockKey} {e : Entry}
    (he : ColdView.contents x.ssd k = some e) : x.node.index.find k = .ok ⟨x.id, .ssd, e.handle⟩ := by
  have hloc : x.index.at? k = some ⟨x.id, .ssd, e.handle⟩ := by rw [h.index, he]; rfl
  simp [LocalIndex.find, node, hloc]

theorem Coherent.find_absent (h : x.Coherent) {k : BlockKey} (hk : ColdView.contents x.ssd k = none) :
    x.node.index.find k = .error (.notFound k.toText) := by
  have hloc : x.index.at? k = none := by rw [h.index, hk]; rfl
  simp [LocalIndex.find, node, hloc]

theorem levels_of_contents (h : ColdView.contents y.ssd = ColdView.contents x.ssd) : y.levels = x.levels := by
  simp only [levels, h]

theorem levels_written {k : BlockKey} {b : Block} {handle : UInt64}
    (h : ColdView.contents y.ssd = Function.update (ColdView.contents x.ssd) k (some ⟨b, handle⟩)) :
    y.levels = x.levels.writeCold k b := by
  refine TwoLevel.ext ?_ ?_
  · exact (Function.update_eq_self k fun _ => none).symm
  · funext j
    simp only [levels, h, TwoLevel.writeCold, Function.update_apply]
    by_cases hj : j = k
    · rw [if_pos hj, if_pos hj, Option.map_some]
    · rw [if_neg hj, if_neg hj]

end Views

/-! ### Put -/

/-- What `Put` of `b` under `k` did. -/
def PutEffect [ColdView σ] (k : BlockKey) (b : Block) (x y : SsdOnly σ π) : Result Unit → Prop
  | .ok () => y.levels = x.levels.writeCold k b
  | .error s => y.levels = x.levels ∧ (s.code = .outOfCapacity ∨ s ∈ ColdView.faults x.ssd) ∧
      ¬ ((∀ i, x.allocs.get i = true) ∧ ColdView.Accepts x.ssd k b)

variable [ColdTier σ] {x y z : SsdOnly σ π} {k : BlockKey} {b : Block}

theorem put_eq [EvictionPolicy π] (hready : x.ready = true) :
    x.node.put k b = x.node.putWithoutDramLocked k b (x.index.at? k) := by
  have hnode : x.node.ready = true := hready
  have hhead : x.node.tiers.head? = some (some (.inr x.ssd)) := rfl
  simp only [StorageNode.put, hnode, Bool.not_true, Bool.false_eq_true, if_false, hhead, type_inr]
  rfl

/-- A key the disk does not hold: entered in the index before the write, dropped again if it fails. -/
theorem putWithoutDram_absent (hx : x.Coherent) (hk : x.index.at? k = none) :
    ∃ r y, x.node.putWithoutDramLocked k b none = .ok (r, y.node) ∧ x.Follows y ∧ PutEffect k b x y r := by
  simp only [StorageNode.putWithoutDramLocked, askTier_type, ok_bind]
  cases hroom : x.allocs.head with
  | false =>
    have hups : x.node.upsertIndex k ⟨x.node.id, .ssd, 0⟩ =
        (.error (.outOfCapacity "LocalIndex::Upsert allocation failed"),
          { x with allocs := x.allocs.tail }.node) := by
      simp only [StorageNode.upsertIndex, LocalIndex.upsert, node, hroom]
      rfl
    rw [hups]
    refine ⟨_, _, rfl, follows_same hx rfl rfl rfl (.refl hx.cold) rfl rfl ⟨1, rfl⟩, rfl, .inl rfl,
      fun hroomy => ?_⟩
    have htrue : x.allocs.head = true := hroomy.1 0
    rw [hroom] at htrue
    cases htrue
  | true =>
    have hups : x.node.upsertIndex k ⟨x.node.id, .ssd, 0⟩ =
        (.ok (), { x with index := x.index.set k ⟨x.id, .ssd, 0⟩, allocs := x.allocs.tail }.node) := by
      simp only [StorageNode.upsertIndex, LocalIndex.upsert, node, hroom]
      rfl
    rw [hups]
    simp only [callTier_put, ok_bind]
    obtain ⟨r, ssd, hput, hkept, heffect⟩ := ColdTier.put_law x.ssd k b hx.cold
    rw [hput]
    have hset : (x.index.set k ⟨x.id, .ssd, 0⟩).at? k = some ⟨x.id, .ssd, 0⟩ := by
      rw [LocalIndex.at?_set, if_pos rfl]
    cases r with
    | error s =>
      refine ⟨.error s, { x with ssd, allocs := x.allocs.tail }, ?_,
        follows_same hx rfl rfl rfl hkept heffect.1 rfl ⟨1, rfl⟩, levels_of_contents heffect.1,
        .inr heffect.2.1, fun h => heffect.2.2 h.2⟩
      simp only [StorageNode.removeIndex, node, LocalIndex.removeExisting, hset, ok_bind,
        LocalIndex.drop_set hk]
      rfl
    | ok handle =>
      refine ⟨.ok (), { x with
          ssd
          index := (x.index.set k ⟨x.id, .ssd, 0⟩).set k ⟨x.id, .ssd, handle⟩
          stats := { x.stats with bytesWritten := x.stats.bytesWritten + b.sizeBytes }
          allocs := x.allocs.tail }, ?_, ?_, levels_written heffect⟩
      · simp only [StorageNode.relocateIndex, node, LocalIndex.relocateExisting_of_at? hset, ok_bind]
        rfl
      · refine follows_written hx rfl rfl rfl hkept heffect (fun j => ?_) ⟨1, rfl⟩
        simp only [LocalIndex.at?_set]
        split <;> rfl

/-- A key the disk holds: its index entry is moved to handle 0 and back if the write fails. -/
theorem putWithoutDram_present (hx : x.Coherent) {old : Location} (hk : x.index.at? k = some old) :
    ∃ r y, x.node.putWithoutDramLocked k b (some old) = .ok (r, y.node) ∧ x.Follows y ∧
      PutEffect k b x y r := by
  obtain ⟨e, -, rfl⟩ := Option.map_eq_some_iff.mp ((hx.index k).symm.trans hk)
  have hvalid : x.index.validateRelocate k .ssd = .ok () :=
    LocalIndex.validateRelocate_ok_iff.mpr ⟨_, hk, rfl⟩
  have hmove : ∀ handle, x.index.relocateExisting k .ssd .ssd handle =
      .ok (x.index.set k ⟨x.id, .ssd, handle⟩) := fun handle =>
      LocalIndex.relocateExisting_of_at? hk .ssd handle
  have hset : (x.index.set k ⟨x.id, .ssd, 0⟩).at? k = some ⟨x.id, .ssd, 0⟩ := by
    rw [LocalIndex.at?_set, if_pos rfl]
  have hagain : ∀ handle, (x.index.set k ⟨x.id, .ssd, 0⟩).relocateExisting k .ssd .ssd handle =
      .ok ((x.index.set k ⟨x.id, .ssd, 0⟩).set k ⟨x.id, .ssd, handle⟩) :=
    fun handle => LocalIndex.relocateExisting_of_at? hset .ssd handle
  have hnode : x.node.index = x.index := rfl
  have hrel : x.node.relocateIndex k .ssd .ssd 0 =
      .ok { x with index := x.index.set k ⟨x.id, .ssd, 0⟩ }.node := by
    simp only [StorageNode.relocateIndex, hnode, hmove, ok_bind]
    rfl
  simp only [StorageNode.putWithoutDramLocked, askTier_type, ok_bind, hnode, hvalid, hrel, callTier_put]
  obtain ⟨r, ssd, hput, hkept, heffect⟩ := ColdTier.put_law x.ssd k b hx.cold
  rw [hput]
  cases r with
  | error s =>
    refine ⟨.error s, { x with ssd }, ?_, follows_same hx rfl rfl rfl hkept heffect.1 rfl ⟨0, rfl⟩,
      levels_of_contents heffect.1, .inr heffect.2.1, fun h => heffect.2.2 h.2⟩
    have hback : (x.index.set k ⟨x.id, .ssd, 0⟩).set k ⟨x.id, .ssd, e.handle⟩ = x.index := by
      refine LocalIndex.ext_at? fun j => ?_
      simp only [LocalIndex.at?_set]
      by_cases hj : j = k
      · rw [if_pos hj, hj, hk]
      · rw [if_neg hj, if_neg hj]
    simp only [StorageNode.relocateIndex, node, hagain, ok_bind, hback]
    rfl
  | ok handle =>
    refine ⟨.ok (), { x with
        ssd
        index := (x.index.set k ⟨x.id, .ssd, 0⟩).set k ⟨x.id, .ssd, handle⟩
        stats := { x.stats with bytesWritten := x.stats.bytesWritten + b.sizeBytes } }, ?_, ?_,
      levels_written heffect⟩
    · simp only [StorageNode.relocateIndex, node, hagain, ok_bind]
      rfl
    · refine follows_written hx rfl rfl rfl hkept heffect (fun j => ?_) ⟨0, rfl⟩
      simp only [LocalIndex.at?_set]
      split <;> rfl

/-- PUT: on disk when it returns `Ok`, nothing changed when it does not. -/
theorem put_spec [EvictionPolicy π] (hx : x.Coherent) (hready : x.ready = true) (k : BlockKey) (b : Block) :
    ∃ r y, x.node.put k b = .ok (r, y.node) ∧ x.Follows y ∧ PutEffect k b x y r := by
  rw [put_eq hready]
  cases hk : x.index.at? k with
  | none => exact putWithoutDram_absent hx hk
  | some old => exact putWithoutDram_present hx hk

/-! ### Get and Probe -/

variable [EvictionPolicy π]

/-- Nothing is promoted. -/
theorem tryPromote_eq (x : SsdOnly σ π) (k : BlockKey) (view : BlockView) :
    x.node.tryPromoteToDramLocked k view = .ok x.node := by
  simp only [StorageNode.tryPromoteToDramLocked, tierOfLocked_dram]
  rfl

/-- A read of a key the disk holds. -/
theorem get_present (hx : x.Coherent) (hready : x.ready = true) {e : Entry}
    (he : ColdView.contents x.ssd k = some e) (dst : MutableBuffer) (out : Option BlockView) :
    ∃ r out' y, x.node.get k dst out = .ok (r, out', y.node) ∧ x.Follows y ∧ y.levels = x.levels ∧
      MapReply x.levels.view (readFaults x.ssd) (.get k dst out) (.view r out') := by
  have hview : x.levels.view k = some e.block := by rw [view_eq, he]; rfl
  have hnode : x.node.ready = true := hready
  obtain ⟨r, out', ssd, hget, hkept, hsame, hcontract⟩ := ColdTier.get_law x.ssd k dst (clearView out) hx.cold
  rw [getContract_clearView, he, Option.map_some, clearView_clearView] at hcontract
  have hreply : MapReply x.levels.view (readFaults x.ssd) (.get k dst out) (.view r out') := by
    rcases hcontract with h | ⟨s, hs, hr, hout, hnot⟩
    · exact .inr (.inl ⟨e.block, hview, h⟩)
    · exact .inr (.inr ⟨s, ⟨hs, hnot⟩, hr, hout⟩)
  have hfollow : ∀ stats, x.Follows { x with ssd, stats } := fun stats =>
    follows_same hx rfl rfl rfl hkept hsame rfl ⟨0, rfl⟩
  simp only [StorageNode.get, hnode, Bool.not_true, Bool.false_eq_true, if_false, hx.find_present he,
    tierOfLocked_ssd, callTier_fetch, hget, ok_bind]
  cases r with
  | error s =>
    by_cases hs : s.code = .notFound
    · exact ⟨_, _, { x with ssd, stats := { x.stats with misses := x.stats.misses + 1 } },
        by simp only [hs, if_true]; rfl, hfollow _, levels_of_contents hsame, hreply⟩
    · exact ⟨_, _, { x with ssd }, by simp only [hs, if_false]; rfl, hfollow _, levels_of_contents hsame,
        hreply⟩
  | ok _ =>
    rcases hcontract with hcontract | ⟨s, -, hr, -⟩
    · obtain ⟨-, b, -, -, rfl⟩ := getContract_ok_iff.mp hcontract.symm
      let y : SsdOnly σ π := { x with
        ssd
        stats := { x.stats with
          bytesRead := x.stats.bytesRead + (viewOf dst b).size
          ssdHits := x.stats.ssdHits + 1 } }
      refine ⟨.ok (), _, y, ?_, hfollow _, levels_of_contents hsame, hreply⟩
      simp only [reduceCtorEq, if_false]
      exact congrArg (· >>= fun n => pure (Except.ok (), some (viewOf dst b), n))
        (tryPromote_eq y k (viewOf dst b))
    · cases hr

/-- GET: the disk's block, and nothing moves. -/
theorem get_spec (hx : x.Coherent) (hready : x.ready = true) (k : BlockKey) (dst : MutableBuffer)
    (out : Option BlockView) :
    ∃ r out' y, x.node.get k dst out = .ok (r, out', y.node) ∧ x.Follows y ∧ y.levels = x.levels ∧
      MapReply x.levels.view (readFaults x.ssd) (.get k dst out) (.view r out') := by
  cases he : ColdView.contents x.ssd k with
  | some e => exact get_present hx hready he dst out
  | none =>
    have hnode : x.node.ready = true := hready
    refine ⟨.error (.notFound k.toText), clearView out,
      { x with stats := { x.stats with misses := x.stats.misses + 1 } }, ?_,
      follows_same hx rfl rfl rfl (.refl hx.cold) rfl rfl ⟨0, rfl⟩, rfl, .inl ⟨?_, rfl, rfl⟩⟩
    · simp only [StorageNode.get, hnode, Bool.not_true, Bool.false_eq_true, if_false, hx.find_absent he]
      rfl
    · rw [view_eq, he]; rfl

omit [EvictionPolicy π] in
theorem probe_spec (hx : x.Coherent) (hready : x.ready = true) (k : BlockKey) :
    ∃ r y, x.node.probe k = .ok (r, y.node) ∧ x.Follows y ∧ y.levels = x.levels ∧
      MapReply x.levels.view (readFaults x.ssd) (.probe k) (.info r) := by
  have hnode : x.node.ready = true := hready
  simp only [StorageNode.probe, hnode, Bool.not_true, Bool.false_eq_true, if_false]
  cases he : ColdView.contents x.ssd k with
  | none =>
    rw [hx.find_absent he]
    exact ⟨_, x, rfl, .refl hx, rfl, .inl ⟨by rw [view_eq, he]; rfl, rfl⟩⟩
  | some e =>
    obtain ⟨r, ssd, hprobe, hkept, hsame, hanswer⟩ := ColdTier.probe_law x.ssd k hx.cold
    rw [hx.find_present he]
    simp only [tierOfLocked_ssd, callTier_probe, hprobe]
    refine ⟨r, { x with ssd }, rfl, follows_same hx rfl rfl rfl hkept hsame rfl ⟨0, rfl⟩,
      levels_of_contents hsame, ?_⟩
    rw [he] at hanswer
    rcases hanswer with rfl | ⟨s, hs, rfl, hnot⟩
    · exact .inr (.inl ⟨e.block, e.handle, by rw [view_eq, he]; rfl, rfl⟩)
    · exact .inr (.inr ⟨s, ⟨hs, hnot⟩, rfl⟩)

omit [EvictionPolicy π] in
theorem contains_spec (hx : x.Coherent) (hready : x.ready = true) (k : BlockKey) :
    x.node.contains k = .ok (x.levels.view k).isSome := by
  have hnode : x.node.ready = true := hready
  have hindex : x.node.index.at? k = x.index.at? k := rfl
  simp [StorageNode.contains, hnode, LocalIndex.contains, hindex, hx.index, view_eq]

/-- SERVE: a data call on a coherent open node. -/
theorem serve_spec (hx : x.Coherent) (hready : x.ready = true) {a : Durable BlockKey Block}
    (ha : x.levels.Holds a) {c : NodeCall} (hc : c.isData = true) :
    ∃ o y, x.node.step c = .ok (o, y.node) ∧ x.Follows y ∧ MapReply a.now (readFaults x.ssd) c o ∧
      (∀ k b s, c = .put k b → o = .status (.error s) →
      (s.code = .outOfCapacity ∨ s ∈ ColdView.faults x.ssd) ∧
        ¬ ((∀ i, x.allocs.get i = true) ∧ ColdView.Accepts x.ssd k b)) ∧
      y.levels.Holds (recordDurable (fun _ => true) a c o) := by
  rw [← ha.view]
  cases c with
  | openNode env => cases hc
  | closeNode => cases hc
  | put k b =>
    obtain ⟨r, y, heq, hfollow, heffect⟩ := put_spec hx hready k b
    refine ⟨.status r, y, by simp only [StorageNode.step, heq]; rfl, hfollow, trivial, ?_, ?_⟩
    · rintro k' b' s ⟨⟩ ⟨⟩
      exact heffect.2
    · cases r with
      | ok _ =>
        rw [show y.levels = _ from heffect]
        exact ha.writeCold k b
      | error s => rw [heffect.1]; exact ha
  | get k dst out =>
    obtain ⟨r, out', y, heq, hfollow, hlevels, hreply⟩ := get_spec hx hready k dst out
    refine ⟨.view r out', y, by simp only [StorageNode.step, heq]; rfl, hfollow, hreply, by simp, ?_⟩
    rw [hlevels]; exact ha
  | probe k =>
    obtain ⟨r, y, heq, hfollow, hlevels, hreply⟩ := probe_spec hx hready k
    refine ⟨.info r, y, by simp only [StorageNode.step, heq]; rfl, hfollow, hreply, by simp, ?_⟩
    rw [hlevels]; exact ha
  | contains k =>
    exact ⟨.present (x.node.contains k), x, rfl, .refl hx, .inl (contains_spec hx hready k), by simp, ha⟩

/-! ### Open and close -/

omit [EvictionPolicy π] in
/-- RECOVER: the index rebuilt from the disk names every record. -/
theorem recoverIndex_spec (x : SsdOnly σ π) (hwf : ColdView.Wf x.ssd) (env : StorageNode.OpenEnv) :
    match StorageNode.recoverIndex x.id env.snapshot x.node.tiers 0 {} env.allocs with
    | .ok index => ∀ k, index.at? k = (ColdView.contents x.ssd k).map fun e => ⟨x.id, .ssd, e.handle⟩
    | .error f => (f.2.code = .outOfCapacity ∨ f.2 ∈ ColdView.openFaults x.ssd) ∧
        ¬ (ColdView.Opens x.ssd ∧ env.Ample) := by
  have hvisit : Tier.visitEntries (Sum.inr x.ssd : DramTier ⊕ σ) (env.snapshot 0) =
      Tier.visitEntries x.ssd (env.snapshot 0) := rfl
  simp only [node, StorageNode.recoverIndex, hvisit, type_inr]
  rcases ColdTier.visit_law x.ssd (env.snapshot 0) hwf with ⟨es, hes, hnd, hmem⟩ | ⟨st, hst, hwhy, hnot⟩
  · rw [hes]
    have hentries := recoverEntries_spec x.id .ssd es {} env.allocs
    simp only
    split at hentries <;> rename_i heq <;> rw [heq]
    · intro k
      rw [hentries k, lookup_of_enumeration hnd hmem]
      simp only [LocalIndex.at?_empty, Option.none_or, Option.map_map]
      rfl
    · refine ⟨.inl hentries, fun h => ?_⟩
      obtain ⟨_, _, hok, -⟩ := recoverEntries_ample x.id .ssd es {} h.2.allocs
      rw [heq] at hok; cases hok
  · rw [hst]
    exact ⟨hwhy, fun h => hnot ⟨h.1, h.2.snapshot 0⟩⟩

omit [EvictionPolicy π] in
/-- Undoing an open closes the tier if it had been opened. -/
theorem rollback_node (x : SsdOnly σ π) (hintact : ColdView.Intact x.ssd) {opened : ℕ} (hopened : opened ≤ 1)
    (msg : String) :
    ∃ msg' ssd, StorageNode.rollback opened x.node.tiers msg = (msg', { x with ssd }.node.tiers) ∧
      ColdRested x.ssd ssd := by
  obtain ⟨r, ssd, hclose, hrested, -⟩ := ColdTier.close_law x.ssd hintact
  interval_cases opened
  · exact ⟨msg, x.ssd, rfl, .refl hintact⟩
  · refine ⟨_, ssd, Prod.ext rfl ?_, hrested⟩
    simp [node, StorageNode.rollback, closeTier_inr hclose]

omit [EvictionPolicy π] in
/-- OPEN: the index is that of the disk, or nothing but the tier's own state has changed. -/
theorem openNode_spec (x : SsdOnly σ π) (hready : x.ready = false) (hintact : ColdView.Intact x.ssd)
    (env : StorageNode.OpenEnv) :
    ∃ r ssd index ready, x.node.openNode env = (r, { x with ssd, index, ready }.node) ∧
      ColdRested x.ssd ssd ∧ (ready = true → { x with ssd, index, ready }.Coherent) ∧ match r with
        | .ok () => ready = true
        | .error s => ready = false ∧ s.code ∈ openCodes x.ssd ∧
            (ColdView.Opens x.ssd → env.Ample → s.code = .corruption) := by
  obtain ⟨r, ssd, hopen, hrested, hwhy⟩ := ColdTier.open_law x.ssd hintact
  have hfailed : ∀ (opened : ℕ) (f : ℕ × Status), opened ≤ 1 →
      ∃ msg ssd', x.node.openFailed { x with ssd }.node.tiers opened f =
        (.error ⟨f.2.code, msg⟩, { x with ssd := ssd', ready := false }.node) ∧ ColdRested x.ssd ssd' := by
    intro opened f hle
    obtain ⟨msg, ssd', hroll, hrested'⟩ := rollback_node { x with ssd } hrested.intact hle
      ("StorageNode::Open: " ++ StorageNode.tierLabel { x with ssd }.node.tiers f.1 ++ " failed: " ++
        f.2.toText)
    refine ⟨msg, ssd', ?_, hrested.trans hrested'⟩
    simp only [StorageNode.openFailed, hroll]
    rfl
  have hnode : x.node.ready = false := hready
  have hsome : x.node.tiers.isEmpty = false := rfl
  have htier : Tier.openTier (Sum.inr x.ssd : DramTier ⊕ σ) = (r, .inr ssd) := openTier_inr hopen
  simp only [StorageNode.openNode, hnode, Bool.false_eq_true, if_false, hsome]
  cases r with
  | error s =>
    have htiers : StorageNode.openTiers x.node.tiers 0 = ({ x with ssd }.node.tiers, 0, some (0, s)) := by
      simp only [node, StorageNode.openTiers, htier]
    rw [htiers]
    obtain ⟨msg, ssd', heq, hrested'⟩ := hfailed 0 (0, s) (by omega)
    exact ⟨_, ssd', x.index, false, heq, hrested', by simp, rfl, .inr ⟨s, hwhy.1, rfl⟩, fun h _ => hwhy.2 h⟩
  | ok _ =>
    have hisReady : Tier.isReady (Sum.inr ssd : DramTier ⊕ σ) = true := hwhy.2
    have htiers : StorageNode.openTiers x.node.tiers 0 = ({ x with ssd }.node.tiers, 1, none) := by
      simp [node, StorageNode.openTiers, htier, hisReady]
    rw [htiers]
    have hrecover := recoverIndex_spec { x with ssd } hwhy.1 env
    have hid : x.node.id = x.id := rfl
    simp only [hid]
    split at hrecover <;> rename_i heq <;> rw [heq]
    · rename_i index
      exact ⟨.ok (), ssd, index, true, rfl, hrested, fun _ => ⟨hwhy.1, hrecover⟩, rfl⟩
    · rename_i f
      obtain ⟨msg, ssd', heq, hrested'⟩ := hfailed 1 f le_rfl
      refine ⟨_, ssd', x.index, false, heq, hrested', by simp, rfl, ?_, fun h henv => ?_⟩
      · exact hrecover.1.imp_right fun hf => ⟨f.2, hrested.openFaults hf, rfl⟩
      · exact absurd ⟨hrested.opens h, henv⟩ hrecover.2

omit [EvictionPolicy π] in
theorem closeNode_spec (x : SsdOnly σ π) (hintact : ColdView.Intact x.ssd) :
    ∃ r ssd, x.node.closeNode = (r, { x with ssd, ready := false }.node) ∧ ColdRested x.ssd ssd ∧
      ∀ s, r = .error s → s.code ∈ openCodes x.ssd ∧ ¬ ColdView.Opens x.ssd := by
  obtain ⟨r, ssd, hclose, hrested, hwhy⟩ := ColdTier.close_law x.ssd hintact
  refine ⟨x.node.closeNode.1, ssd, Prod.ext rfl ?_, hrested, ?_⟩
  · simp [StorageNode.closeNode, StorageNode.closeTiers, node, closeTier_inr hclose]
  · intro s hs
    cases r with
    | ok _ => simp [StorageNode.closeNode, StorageNode.closeTiers, node, closeTier_inr hclose] at hs
    | error st =>
      simp only [StorageNode.closeNode, StorageNode.closeTiers, node, closeTier_inr hclose, List.length_cons,
        List.length_nil, List.getElem?_cons_zero, List.set_cons_zero, Except.error.injEq] at hs
      exact ⟨.inr ⟨st, (hwhy st rfl).1, by rw [← hs]⟩, (hwhy st rfl).2⟩

/-! ### Every public call -/

/-- The invariant of a node between calls, open or not. -/
structure Alive (x : SsdOnly σ π) : Prop where
  intact : ColdView.Intact x.ssd
  coherent : x.ready = true → x.Coherent

/-- What every public call keeps. -/
structure Evolves (x y : SsdOnly σ π) : Prop where
  alive : y.Alive
  cold : ColdPromises x.ssd y.ssd
  allocs : (∀ i, x.allocs.get i = true) → ∀ i, y.allocs.get i = true

omit [EvictionPolicy π] in
theorem Evolves.refl (h : x.Alive) : x.Evolves x := ⟨h, .refl _, fun ha => ha⟩

omit [EvictionPolicy π] in
theorem Evolves.trans (h : x.Evolves y) (h' : y.Evolves z) : x.Evolves z :=
  ⟨h'.alive, h.cold.trans h'.cold, h'.allocs ∘ h.allocs⟩

omit [EvictionPolicy π] in
theorem Follows.evolves (h : x.Follows y) : x.Evolves y where
  alive := ⟨ColdTier.wf_intact _ h.coherent.cold, fun _ => h.coherent⟩
  cold := h.cold.toColdPromises
  allocs ha i := by
    obtain ⟨n, hn⟩ := h.allocs
    rw [hn]; exact ha _

/-- What may come between the node and its map. -/
def terms (x : SsdOnly σ π) : Terms where
  reads := readFaults x.ssd
  puts := { s | s.code = .outOfCapacity ∨ s ∈ ColdView.faults x.ssd }
  takes _ k b := (∀ i, x.allocs.get i = true) ∧ ColdView.Accepts x.ssd k b
  opens := openCodes x.ssd
  sound := ColdView.Opens x.ssd

omit [EvictionPolicy π] in
theorem Evolves.terms (h : x.Evolves y) : y.terms.Within x.terms where
  reads := readFaults_subset h.cold
  puts _ := Or.imp_right fun hs => h.cold.faults hs
  takes _ k b hk := ⟨h.allocs hk.1, h.cold.accepts k b hk.2⟩
  opens := openCodes_subset h.cold
  sound := h.cold.opens

/-- What a call comes to. -/
structure Handled (x : SsdOnly σ π) (a : Durable BlockKey Block) (c : NodeCall) (o : NodeReply)
    (y : SsdOnly σ π) : Prop where
  evolves : x.Evolves y
  ready : y.ready = recordOpen x.ready c o
  replies : x.terms.Replies x.ready a.now c o
  holds : y.levels.Holds (recordDurable (fun _ => true) a c o)

/-- STEP: every public call, open or closed, replies for the map; what it wrote is on disk. -/
theorem step_handled (hx : x.Alive) {a : Durable BlockKey Block} (ha : x.levels.Holds a) (c : NodeCall) :
    ∃ o y, x.node.step c = .ok (o, node y) ∧ Handled x a c o y := by
  by_cases hc : c.isData = true
  · cases hready : x.ready with
    | true =>
      obtain ⟨o, y, heq, hfollow, hreply, hexcuse, hholds⟩ := serve_spec (hx.coherent hready) hready ha hc
      refine ⟨o, y, heq, hfollow.evolves, ?_, .of_open (.inl hready) hreply fun s hs => ?_, hholds⟩
      · rw [recordOpen_data hc, hfollow.ready]
      · cases c with
        | put k b => exact hexcuse k b s rfl hs
        | openNode env => cases hc
        | closeNode => cases hc
        | _ => trivial
    | false =>
      obtain ⟨s, heq, hcode⟩ := step_turned_away (n := x.node) hready hc
      refine ⟨_, x, heq, .refl hx, (recordOpen_data hc).symm, .of_closed hready hc hcode, ?_⟩
      rw [recordDurable_error (c.refused_error s)]
      exact ha
  · cases c with
    | openNode env =>
      cases hready : x.ready with
      | true =>
        have hnode : x.node.ready = true := hready
        refine ⟨.status (.ok ()), x, ?_, .refl hx, hready, .of_open (.inl hready) trivial (by simp), ha⟩
        simp only [StorageNode.step, StorageNode.openNode, hnode, if_true]
      | false =>
        obtain ⟨r, ssd, index, ready, heq, hrested, hcoherent, hrest⟩ := openNode_spec x hready hx.intact env
        refine ⟨.status r, { x with ssd, index, ready }, by simp only [StorageNode.step, heq],
          ⟨⟨hrested.intact, hcoherent⟩, hrested.toColdPromises, fun h => h⟩, ?_,
          .of_open (.inr rfl) trivial ?_, ?_⟩
        · cases r with
          | ok _ => exact hrest
          | error s => exact hrest.1.trans hready.symm
        · rintro s ⟨⟩
          exact ⟨hready, hrest.2⟩
        · rw [levels_of_contents (y := { x with ssd, index, ready }) hrested.contents]
          exact ha
    | closeNode =>
      obtain ⟨r, ssd, heq, hrested, hwhy⟩ := closeNode_spec x hx.intact
      refine ⟨.status r, { x with ssd, ready := false }, by simp only [StorageNode.step, heq],
        ⟨⟨hrested.intact, by simp⟩, hrested.toColdPromises, fun h => h⟩, rfl,
        .of_open (.inr rfl) trivial ?_, ?_⟩
      · rintro s ⟨⟩
        exact hwhy s rfl
      · rw [levels_of_contents (y := { x with ssd, ready := false }) hrested.contents]
        exact ha
    | _ => exact absurd rfl hc

end SsdOnly

end TidePool.Store
