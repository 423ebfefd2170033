import TidePool.Store.Refinement
import TidePool.Store.Replies

/-! A node without a disk.

    With `{DRAM}` as its tiers a node has no sink: `MakeDramRoomForLocked` looks once whether the block
    fits and gives up if it does not, before it asks the policy for a victim. So nothing ever leaves such
    a node, and it is a map of bounded size: a `Put` is taken when the bytes after it are within the
    capacity.

    Past that point the code is that of the two-tier node and touches the hot tier only, so its lemmas are
    used through `hotOnly`, which forgets the colder tiers: what they say of a two-tier node over an empty
    disk, they say of this one. -/

namespace TidePool.Store
open Schemes

/-! ### Forgetting the colder tiers -/

namespace StorageNode

variable {τ π α : Type}

/-- The node with its hottest tier alone. -/
def hotOnly (n : StorageNode τ π) : StorageNode τ π := { n with tiers := n.tiers.take 1 }

/-- The same under an answer. -/
def hotOnlyRes (res : α × StorageNode τ π) : α × StorageNode τ π := (res.1, res.2.hotOnly)

variable (n : StorageNode τ π) (k : BlockKey)

theorem callTier_hotOnly (f : τ → α × τ) :
    n.hotOnly.callTier 0 f = (n.callTier 0 f).map hotOnlyRes := by
  rcases h : n.tiers with _ | ⟨_ | t, ts⟩ <;> simp only [callTier, hotOnly, h] <;> rfl

theorem askTier_hotOnly (f : τ → α) : n.hotOnly.askTier 0 f = n.askTier 0 f := by
  rcases h : n.tiers with _ | ⟨_ | t, ts⟩ <;> simp only [askTier, hotOnly, h] <;> rfl

theorem relocateIndex_hotOnly (e t : TierType) (h : UInt64) :
    n.hotOnly.relocateIndex k e t h = (n.relocateIndex k e t h).map hotOnly := by
  simp only [relocateIndex, hotOnly]
  cases n.index.relocateExisting k e t h <;> rfl

theorem upsertIndex_hotOnly (loc : Location) :
    n.hotOnly.upsertIndex k loc = hotOnlyRes (n.upsertIndex k loc) := rfl

variable [EvictionPolicy π]

omit [EvictionPolicy π] in
theorem policyOnInsert_hotOnly (ins : π → Except Halt (Result Unit × π)) :
    n.hotOnly.policyOnInsert ins = (n.policyOnInsert ins).map hotOnlyRes := by
  have hev : n.hotOnly.eviction = n.eviction := rfl
  simp only [policyOnInsert, hev]
  cases n.eviction with
  | none => rfl
  | some p =>
    simp only
    cases ins p <;> rfl

theorem policyOnAccess_hotOnly : n.hotOnly.policyOnAccess k = (n.policyOnAccess k).map hotOnly := by
  have hev : n.hotOnly.eviction = n.eviction := rfl
  simp only [policyOnAccess, hev]
  cases n.eviction with
  | none => rfl
  | some p =>
    simp only
    cases EvictionPolicy.onAccess p k <;> rfl

variable [Tier τ]

omit [EvictionPolicy π] in
theorem eraseFrom_hotOnly : n.hotOnly.eraseFrom 0 k = (n.eraseFrom 0 k).map hotOnly := by
  rcases h : n.tiers with _ | ⟨_ | t, ts⟩
  · simp only [eraseFrom, askTier, hotOnly, h]; rfl
  · simp only [eraseFrom, askTier, hotOnly, h]; rfl
  · simp only [eraseFrom, askTier, hotOnly, h, List.take_succ_cons, List.take_zero, List.getElem?_cons_zero,
      ok_bind, List.set_cons_zero]
    cases Tier.eraseExisting t k <;> rfl

omit [EvictionPolicy π] in
theorem undoInsert_hotOnly : n.hotOnly.undoInsert 0 k = (n.undoInsert 0 k).map hotOnly := by
  simp only [undoInsert, askTier_hotOnly, eraseFrom_hotOnly]
  refine bind_alike fun valid => ?_
  cases valid <;> rfl

/-- The rest of `Put` once there is room works on the hot tier alone. -/
theorem putHot_hotOnly (b : Block) (old : Option Location) :
    n.hotOnly.putHot k b old = (n.putHot k b old).map hotOnlyRes := by
  simp only [putHot, show n.hotOnly.index = n.index from rfl]
  cases old.elim (.ok ()) fun old => n.index.validateRelocate k old.tier with
  | error s => rfl
  | ok _ =>
    refine bind_image (n.callTier_hotOnly _) ?_
    rintro ⟨stored, n₁⟩
    cases stored with
    | error s => rfl
    | ok handle =>
      dsimp only
      cases hnew : old.all fun old => old.tier ≠ .dram with
      | false =>
        cases old with
        | none => cases hnew
        | some old =>
          simp only [Bool.false_eq_true, if_false, pure_bind]
          refine bind_image (n₁.relocateIndex_hotOnly k old.tier .dram handle) fun n₂ => ?_
          exact bind_image (n₂.policyOnAccess_hotOnly k) fun _ => rfl
      | true =>
        refine bind_image (n₁.policyOnInsert_hotOnly _) ?_
        rintro ⟨inserted, n₂⟩
        cases inserted with
        | error s => exact bind_image (n₂.undoInsert_hotOnly k) fun _ => rfl
        | ok _ =>
          cases old with
          | some old => exact bind_image (n₂.relocateIndex_hotOnly k old.tier .dram handle) fun _ => rfl
          | none =>
            dsimp only [hotOnlyRes]
            rw [upsertIndex_hotOnly]
            rcases hups : n₂.upsertIndex k ⟨n₂.id, .dram, handle⟩ with ⟨r, n₃⟩
            have hid : n₂.hotOnly.id = n₂.id := rfl
            rw [hid, hups]
            cases r with
            | error s => exact bind_image ((n₃.policyOnRemove k).undoInsert_hotOnly k) fun _ => rfl
            | ok _ => rfl

end StorageNode

/-! ### Put -/

namespace TwoTier

variable {π : Type} {x y : TwoTier MapTier π} {k : BlockKey} {b : Block}

/-- Nothing is in the cold tier, so nothing is lost when it is not there. -/
def Bare (x : TwoTier MapTier π) : Prop := ∀ k, ColdView.contents x.ssd k = none

theorem Bare.view (h : x.Bare) (k : BlockKey) : x.levels.view k = (x.dram.at? k).map (·.block) := by
  simp [TwoLevel.view, levels, h k]

/-- Still bare when nothing was written down. -/
theorem Bare.of_cold (h : x.Bare) (hcold : y.levels.cold = x.levels.cold) : y.Bare := fun k => by
  have hk := congrFun hcold k
  simpa [levels, h k] using hk

theorem Bare.index (h : x.Bare) (hx : x.Coherent) (k : BlockKey) :
    x.index.at? k = (x.dram.at? k).map fun e => ⟨x.id, .dram, e.handle⟩ := by
  rw [hx.index, primary]
  cases x.dram.at? k with
  | none => rw [h k]; rfl
  | some e => rfl

variable [EvictionPolicy π]

omit [EvictionPolicy π] in
theorem replacedKey_bare (h : x.Bare) (hx : x.Coherent) :
    StorageNode.replacedKey (x.index.at? k) k = (x.dram.at? k).map fun _ => k := by
  rw [h.index hx]
  cases x.dram.at? k <;> simp [StorageNode.replacedKey]

/-- One look decides: with no sink the loop never takes a second turn. -/
theorem makeRoomLoop_bare (hx : x.Coherent) {held : ℕ} (hheld : held ≤ x.dram.totalBytes)
    (incoming fuel : ℕ) (ex : Option BlockKey) : ∃ r,
      StorageNode.makeRoomLoop 0 (UInt64.ofNat held) incoming ex (fuel + 1) x.node.hotOnly =
        .ok (r, x.node.hotOnly) ∧
      (r = .ok () → x.dram.stats.capacityBytes ≠ 0 →
        x.dram.totalBytes - held + incoming ≤ x.dram.stats.capacityBytes.toNat) ∧
      ∀ s, r = .error s → s.code = .outOfCapacity ∧ x.dram.stats.capacityBytes ≠ 0 ∧
        x.dram.stats.capacityBytes.toNat < x.dram.totalBytes - held + incoming := by
  have hstats : x.node.hotOnly.askTier 0 Tier.stats = .ok x.dram.stats := rfl
  have hsink : x.node.hotOnly.colderTierLocked = none := rfl
  simp only [StorageNode.makeRoomLoop, hstats, ok_bind, hsink]
  by_cases hcap : x.dram.stats.capacityBytes = 0
  · exact ⟨.ok (), by simp only [hcap, if_true]; rfl, fun _ h => absurd hcap h, fun s h => by cases h⟩
  · have hused := hx.toSound.used_eq hcap
    have hbound := hx.bounded hcap
    have hcaplt := x.dram.stats.capacityBytes.toNat_lt
    have hheldEq : (UInt64.ofNat held).toNat = held :=
      UInt64.toNat_ofNat_of_lt' (by simp only [UInt64.size]; omega)
    simp only [hcap, if_false]
    cases hproj : projectedBytes x.dram.stats.usedBytes (UInt64.ofNat held) incoming with
    | none =>
      refine ⟨_, rfl, by simp, fun s hs => ?_⟩
      obtain rfl := Except.error.inj hs
      rcases projectedBytes_eq_none hproj with h | h
      · rw [hused, hheldEq] at h; omega
      · rw [hused, hheldEq] at h
        simp only [UInt64.size] at h
        exact ⟨rfl, hcap, by omega⟩
    | some projected =>
      obtain ⟨-, hsum⟩ := projectedBytes_eq_some hproj
      rw [hused, hheldEq] at hsum
      by_cases hfit : projected ≤ x.dram.stats.capacityBytes
      · refine ⟨.ok (), by simp only [hfit, if_true]; rfl, fun _ _ => ?_, fun s h => by cases h⟩
        rw [← hsum]; exact UInt64.le_iff_toNat_le.mp hfit
      · have hover : x.dram.stats.capacityBytes.toNat < x.dram.totalBytes - held + incoming := by
          rw [← hsum]; exact UInt64.lt_iff_toNat_lt.mp (UInt64.not_le.mp hfit)
        simp only [hfit, if_false]
        cases hev : x.node.hotOnly.eviction.isNone with
        | true =>
          exact ⟨_, by simp only [if_true]; rfl, by simp, fun s hs => by cases hs; exact ⟨rfl, hcap, hover⟩⟩
        | false =>
          exact ⟨_, by simp only [Bool.false_eq_true, if_false]; rfl, by simp,
            fun s hs => by cases hs; exact ⟨rfl, hcap, hover⟩⟩

/-- ROOM: granted exactly when the block fits over what its key holds, and nothing moves either way. -/
theorem makeDramRoom_bare (hx : x.Coherent) (hbare : x.Bare) (k : BlockKey) (b : Block) : ∃ r,
    x.node.hotOnly.makeDramRoomForLocked b.sizeBytes (StorageNode.replacedKey (x.index.at? k) k) =
      .ok (r, x.node.hotOnly) ∧ (r = .ok () → x.Fits k b) ∧
      ∀ s, r = .error s → s.code = .outOfCapacity ∧ ¬ x.Fits k b := by
  have hdram : x.node.hotOnly.tierOfLocked .dram = some 0 := rfl
  have hstats : x.node.hotOnly.askTier 0 Tier.stats = .ok x.dram.stats := rfl
  have hprobe : x.node.hotOnly.callTier 0 (Tier.probe · k) = .ok (x.dram.probe k, x.node.hotOnly) := rfl
  rw [replacedKey_bare hbare hx]
  simp only [StorageNode.makeDramRoomForLocked, hdram, hstats, ok_bind]
  cases hk : x.dram.at? k with
  | none =>
    obtain ⟨r, heq, hok, herr⟩ :=
      makeRoomLoop_bare hx (Nat.zero_le _) b.sizeBytes x.dram.stats.numBlocks none
    refine ⟨r, heq, fun hr hcap => ?_, fun s hs => ?_⟩
    · simpa [hk] using hok hr hcap
    · obtain ⟨hcode, hcap, hover⟩ := herr s hs
      exact ⟨hcode, fun hfits => absurd (hfits hcap) (by simpa [hk] using hover)⟩
  | some e =>
    have hinfo : x.dram.probe k = .ok e.info := by simp only [DramTier.probe, hk]
    simp only [Option.map_some, hprobe, ok_bind, hinfo]
    obtain ⟨r, heq, hok, herr⟩ :=
      makeRoomLoop_bare hx (DramTier.size_le_totalBytes hk) b.sizeBytes x.dram.stats.numBlocks (some k)
    refine ⟨r, heq, fun hr hcap => ?_, fun s hs => ?_⟩
    · simpa [hk] using hok hr hcap
    · obtain ⟨hcode, hcap, hover⟩ := herr s hs
      exact ⟨hcode, fun hfits => absurd (hfits hcap) (by simpa [hk] using hover)⟩

/-- What `Put` of `b` under `k` did on a node without a sink. -/
def BarePut [PolicyView π] (k : BlockKey) (b : Block) (x y : TwoTier MapTier π) : Result Unit → Prop
  | .ok () => x.Fits k b ∧ y.levels = x.levels.writeHot k b
  | .error s => y.levels = x.levels ∧ (x.Tracked → s ∈ x.putFaults ∧ (x.Calm → ¬ x.Fits k b))

omit [EvictionPolicy π] in
theorem not_fits_of_oversized (h : x.Oversized b) : ¬ x.Fits k b := fun hfits => by
  have hroom := hfits h.1
  have hbig := h.2
  omega

end TwoTier

namespace TwoTier

variable {π : Type} [LawfulPolicy π] {x y : TwoTier MapTier π} {k : BlockKey} {b : Block}

/-- The two branches of `Put` that a node without a cold copy takes. -/
theorem putHot_bare (hx : x.Coherent) (hbare : x.Bare) (hfits : x.Fits k b) :
    Yields x.Tracked (x.node.putHot k b (x.index.at? k)) fun res =>
      ∃ y, res.2 = y.node ∧ x.Follows y ∧ HotPut k b x y res.1 := by
  have hindex := hbare.index hx k
  cases hk : x.dram.at? k with
  | none =>
    rw [hk, Option.map_none] at hindex
    rw [hindex]
    exact putHot_absent hx hfits hindex
  | some e =>
    rw [hk, Option.map_some] at hindex
    rw [hindex]
    exact putHot_replace hx hfits hk rfl

/-- PUT: taken when it fits over what its key holds; refused without a trace when it does not. -/
theorem put_bare (hx : x.Coherent) (hbare : x.Bare) (hready : x.ready = true) (k : BlockKey) (b : Block) :
    Yields x.Tracked (x.node.hotOnly.put k b) fun res =>
      ∃ y, res.2 = y.node.hotOnly ∧ x.Follows y ∧ y.Bare ∧ BarePut k b x y res.1 := by
  have hnode : x.node.hotOnly.ready = true := hready
  have htype : Tier.type (Sum.inl x.dram : DramTier ⊕ MapTier) = .dram := rfl
  have hstats : Tier.stats (Sum.inl x.dram : DramTier ⊕ MapTier) = x.dram.stats := rfl
  have hsink : x.node.hotOnly.colderTierLocked = none := rfl
  simp only [StorageNode.put, hnode, Bool.not_true, Bool.false_eq_true, if_false,
    show x.node.hotOnly.tiers.head? = some (some (.inl x.dram)) from rfl, htype, hstats, ne_eq,
    not_true_eq_false, show x.node.hotOnly.index = x.index from rfl, hsink]
  by_cases hbig : x.Oversized b
  · have hcond : ¬ x.dram.stats.capacityBytes = 0 ∧ b.sizeBytes > x.dram.stats.capacityBytes.toNat := hbig
    simp only [hcond, not_false_eq_true, and_self, if_true]
    exact ⟨x, rfl, .refl hx, hbare, rfl, fun _ => ⟨.inl rfl, fun _ => not_fits_of_oversized hbig⟩⟩
  · have hcond : ¬ (¬ x.dram.stats.capacityBytes = 0 ∧ b.sizeBytes > x.dram.stats.capacityBytes.toNat) := hbig
    simp only [hcond, if_false]
    obtain ⟨r, hroom, hok, herr⟩ := makeDramRoom_bare hx hbare k b
    rw [hroom, ok_bind]
    cases r with
    | error s => exact ⟨x, rfl, .refl hx, hbare, rfl, fun _ => ⟨.inl (herr s rfl).1, fun _ => (herr s rfl).2⟩⟩
    | ok _ =>
      have hfits := hok rfl
      simp only [StorageNode.putHot_hotOnly]
      refine (putHot_bare hx hbare hfits).map ?_
      rintro ⟨r, n⟩ ⟨y, rfl, hfollow, heffect⟩
      cases r with
      | ok _ =>
        have hcold : y.levels.cold = x.levels.cold := by rw [show y.levels = _ from heffect]; rfl
        exact ⟨y, rfl, hfollow, hbare.of_cold hcold, hfits, heffect⟩
      | error s =>
        exact ⟨y, rfl, hfollow, hbare.of_cold (by rw [heffect.1]), heffect.1,
          fun ht => ⟨(heffect.2 ht).1, fun hcalm => absurd hcalm (heffect.2 ht).2⟩⟩

/-! ### Get and Probe -/

/-- GET: the DRAM entry by the tier's contract, without a fault. -/
theorem get_bare (hx : x.Coherent) (hbare : x.Bare) (hready : x.ready = true) (k : BlockKey)
    (dst : MutableBuffer) (out : Option BlockView) :
    Yields x.Tracked (x.node.hotOnly.get k dst out) fun res =>
      ∃ y, res.2.2 = y.node.hotOnly ∧ x.Follows y ∧ y.levels = x.levels ∧
        MapReply x.levels.view ∅ (.get k dst out) (.view res.1 res.2.1) := by
  have hnode : x.node.hotOnly.ready = true := hready
  have hindex : x.node.hotOnly.index = x.index := rfl
  have hdram : x.node.hotOnly.tierOfLocked .dram = some 0 := rfl
  simp only [StorageNode.get, hnode, Bool.not_true, Bool.false_eq_true, if_false, hindex]
  cases hk : x.dram.at? k with
  | none =>
    have hfind : x.index.find k = .error (.notFound k.toText) := by simp [LocalIndex.find, hbare.index hx, hk]
    rw [hfind]
    let y : TwoTier MapTier π := { x with stats := { x.stats with misses := x.stats.misses + 1 } }
    have hidle : x.Idle y := ⟨rfl, rfl, rfl, .refl _, .refl hx.cold, rfl, fun ha => ha⟩
    exact ⟨y, rfl, .of_idle hidle hx (.same rfl fun _ => rfl), rfl,
      .inl ⟨by rw [hbare.view, hk]; rfl, rfl, rfl⟩⟩
  | some e =>
    have hfind : x.index.find k = .ok ⟨x.id, .dram, e.handle⟩ := by simp [LocalIndex.find, hbare.index hx, hk]
    obtain ⟨r, out', d, hget, hsame, hcontract⟩ := x.dram.get_spec k dst (clearView out)
    rw [getContract_clearView, hk, Option.map_some] at hcontract
    have hreply : MapReply x.levels.view ∅ (.get k dst out) (.view r out') :=
      .inr (.inl ⟨e.block, by rw [hbare.view, hk]; rfl, hcontract⟩)
    have hidle : ∀ q stats, x.Idle { x with dram := d, policy := q, stats } :=
      fun q stats => ⟨rfl, rfl, rfl, hsame, .refl hx.cold, rfl, fun ha => ha⟩
    have hsamePolicy : ∀ stats, x.PolicyStep { x with dram := d, stats } := fun stats => .same rfl hsame.at?
    have hfetch : x.node.hotOnly.callTier 0 (StorageNode.fetch k dst (clearView out)) =
        .ok ((r, out'), { x with dram := d }.node.hotOnly) := by
      rw [StorageNode.callTier_hotOnly, fetch_dram, hget]
      rfl
    simp only [hfind, hdram, hfetch, ok_bind]
    cases r with
    | error s =>
      by_cases hs : s.code = .notFound
      · exact ⟨{ x with dram := d, stats := { x.stats with misses := x.stats.misses + 1 } },
          by simp only [hs, if_true]; rfl, .of_idle (hidle x.policy _) hx (hsamePolicy _),
          (hidle x.policy _).levels, hreply⟩
      · exact ⟨{ x with dram := d }, by simp only [hs, if_false],
          .of_idle (hidle x.policy x.stats) hx (hsamePolicy _), (hidle x.policy x.stats).levels, hreply⟩
    | ok _ =>
      obtain ⟨-, b, -, -, rfl⟩ := getContract_ok_iff.mp hcontract.symm
      let z : TwoTier MapTier π := { x with
        dram := d
        stats := { x.stats with
          bytesRead := x.stats.bytesRead + (viewOf dst b).size
          dramHits := x.stats.dramHits + 1 } }
      have haccess : Yields x.Tracked (z.node.hotOnly.policyOnAccess k) fun n =>
          ∃ q, n = { z with policy := q }.node.hotOnly ∧ x.PolicyStep { x with policy := q } := by
        rw [StorageNode.policyOnAccess_hotOnly]
        refine (policyOnAccess_spec (x := x) (z := z) (by rw [hk]; simp) rfl).map ?_
        rintro n ⟨q, rfl, hstep⟩
        exact ⟨q, rfl, hstep⟩
      simp only [if_true]
      refine Yields.bind haccess ?_
      rintro n ⟨q, rfl, hstep⟩
      refine ⟨{ z with policy := q }, rfl, .of_idle (hidle q z.stats) hx (hstep.congr rfl fun j => ?_),
        (hidle q z.stats).levels, hreply⟩
      exact not_congr (by rw [(hidle q z.stats).dram.at?])

omit [LawfulPolicy π] in
theorem probe_bare [EvictionPolicy π] (hx : x.Coherent) (hbare : x.Bare) (hready : x.ready = true)
    (k : BlockKey) : ∃ r, x.node.hotOnly.probe k = .ok (r, x.node.hotOnly) ∧
      MapReply x.levels.view ∅ (.probe k) (.info r) := by
  have hnode : x.node.hotOnly.ready = true := hready
  have hindex : x.node.hotOnly.index = x.index := rfl
  have hdram : x.node.hotOnly.tierOfLocked .dram = some 0 := rfl
  have hprobe : x.node.hotOnly.callTier 0 (Tier.probe · k) = .ok (x.dram.probe k, x.node.hotOnly) := rfl
  simp only [StorageNode.probe, hnode, Bool.not_true, Bool.false_eq_true, if_false, hindex]
  cases hk : x.dram.at? k with
  | none =>
    have hfind : x.index.find k = .error (.notFound k.toText) := by simp [LocalIndex.find, hbare.index hx, hk]
    rw [hfind]
    exact ⟨_, rfl, .inl ⟨by rw [hbare.view, hk]; rfl, rfl⟩⟩
  | some e =>
    have hfind : x.index.find k = .ok ⟨x.id, .dram, e.handle⟩ := by simp [LocalIndex.find, hbare.index hx, hk]
    have hinfo : x.dram.probe k = .ok e.info := by simp only [DramTier.probe, hk]
    simp only [hfind, hdram, hprobe, hinfo]
    exact ⟨_, rfl, .inr (.inl ⟨e.block, e.handle, by rw [hbare.view, hk]; rfl, rfl⟩)⟩

omit [LawfulPolicy π] in
theorem contains_bare [EvictionPolicy π] (hx : x.Coherent) (hbare : x.Bare) (hready : x.ready = true)
    (k : BlockKey) : x.node.hotOnly.contains k = .ok (x.levels.view k).isSome := by
  have hnode : x.node.hotOnly.ready = true := hready
  have hindex : x.node.hotOnly.index.at? k = x.index.at? k := rfl
  simp [StorageNode.contains, hnode, LocalIndex.contains, hindex, hbare.index hx, hbare.view]

/-! ### Open and close -/

omit [LawfulPolicy π] in
/-- RECOVER: the index rebuilt from DRAM names every block in it, unless there is no memory for it. -/
theorem recoverIndex_bare (x : TwoTier MapTier π) (env : StorageNode.OpenEnv) :
    match StorageNode.recoverIndex x.id env.snapshot x.node.hotOnly.tiers 0 {} env.allocs with
    | .ok index => ∀ k, index.at? k = (x.dram.at? k).map fun e => ⟨x.id, .dram, e.handle⟩
    | .error f => f.2.code = .outOfCapacity ∧ ¬ env.Ample := by
  have hvisit : Tier.visitEntries (Sum.inl x.dram : DramTier ⊕ MapTier) (env.snapshot 0) =
      x.dram.visitEntries (env.snapshot 0) := rfl
  have hdram : ∀ k, ((Table.pairs x.dram.store).map fun e => (e.1, e.2.info)).lookup k =
      (x.dram.at? k).map Entry.info :=
    lookup_of_enumeration (by simpa [Function.comp_def] using Table.pairs_nodup x.dram.store)
      fun k i => MapTier.mem_infos
  simp only [StorageNode.hotOnly, node, List.take_succ_cons, List.take_zero, StorageNode.recoverIndex,
    hvisit, DramTier.visitEntries, show Tier.type (Sum.inl x.dram : DramTier ⊕ MapTier) = .dram from rfl]
  cases hmem : env.snapshot 0 with
  | false =>
    refine ⟨rfl, fun h => ?_⟩
    rw [h.snapshot 0] at hmem
    cases hmem
  | true =>
    have hentries := recoverEntries_spec x.id .dram
      ((Table.pairs x.dram.store).map fun e => (e.1, e.2.info)) {} env.allocs
    have hample : (∀ i, env.allocs.get i = true) → _ :=
      recoverEntries_ample x.id .dram ((Table.pairs x.dram.store).map fun e => (e.1, e.2.info)) {}
    simp only [if_true]
    split at hentries <;> rename_i heq <;> rw [heq] at hample <;> rw [heq]
    · intro k
      rw [hentries k, hdram k, LocalIndex.at?_empty, Option.none_or, Option.map_map]
      rfl
    · refine ⟨hentries, fun h => ?_⟩
      obtain ⟨_, _, hok, -⟩ := hample h.allocs
      cases hok

omit [LawfulPolicy π] in
/-- OPEN: the index is that of DRAM, which `Close` has kept, or there was no memory for it. -/
theorem openNode_bare (hx : x.Sound) (hbare : x.Bare) (hready : x.ready = false) (env : StorageNode.OpenEnv) :
    ∃ r index ready, x.node.hotOnly.openNode env = (r, { x with index, ready }.node.hotOnly) ∧
      (r = .ok () ↔ ready = true) ∧ (ready = true → { x with index, ready }.Coherent) ∧
      ∀ s, r = .error s → s.code = .outOfCapacity ∧ ¬ env.Ample := by
  have hnode : x.node.hotOnly.ready = false := hready
  have hsome : x.node.hotOnly.tiers.isEmpty = false := rfl
  have htiers : StorageNode.openTiers x.node.hotOnly.tiers 0 = (x.node.hotOnly.tiers, 1, none) := rfl
  have hid : x.node.hotOnly.id = x.id := rfl
  have hfailed : ∀ f : ℕ × Status, ∃ msg, x.node.hotOnly.openFailed x.node.hotOnly.tiers 1 f =
      (.error ⟨f.2.code, msg⟩, { x with ready := false }.node.hotOnly) := fun f => ⟨_, rfl⟩
  have hrecover := recoverIndex_bare x env
  simp only [StorageNode.openNode, hnode, Bool.false_eq_true, if_false, hsome, htiers, hid]
  split at hrecover <;> rename_i heq <;> rw [heq]
  · rename_i index
    refine ⟨.ok (), index, true, rfl, by simp, fun _ => ⟨⟨hx.accounted, hx.bounded⟩, trivial, fun k => ?_⟩,
      fun s h => by cases h⟩
    rw [hrecover k, primary]
    cases x.dram.at? k with
    | none => simp [hbare k]
    | some e => rfl
  · rename_i f
    obtain ⟨msg, heq⟩ := hfailed f
    refine ⟨_, x.index, false, heq, by simp, by simp, fun s hs => ?_⟩
    obtain rfl := Except.error.inj hs
    exact hrecover

end TwoTier

/-! ### A map of bounded size -/

/-- What a node without a disk is for: blocks that stay, as long as they fit. -/
structure BoundedMap where
  opened : Bool := false
  blocks : Table BlockKey Block := ∅

namespace BoundedMap

/-- What a key holds. -/
def at? (m : BoundedMap) (k : BlockKey) : Option Block := AList.lookup k m.blocks

/-- Bytes of all blocks. -/
def bytes (m : BoundedMap) : ℕ := Table.weight (fun _ b => b.sizeBytes) m.blocks

/-- There is room for `b` in the place of what `k` holds; capacity 0 is no limit. -/
def Room (capacity : UInt64) (m : BoundedMap) (k : BlockKey) (b : Block) : Prop :=
  capacity ≠ 0 → m.bytes - (m.at? k).elim 0 Block.sizeBytes + b.sizeBytes ≤ capacity.toNat

/-- The replies of the map: `calm` says that no allocation fails. -/
def Replies (capacity : UInt64) (calm : Prop) (m : BoundedMap) (c : NodeCall) (o : NodeReply) : Prop :=
  if m.opened = false ∧ c.isData = true then ∃ s, o.error? = some s ∧ s.code = .unavailable
  else MapReply m.at? ∅ c o ∧ ∀ k b r, c = .put k b → o = .status r →
    (r = .ok () → m.Room capacity k b) ∧ (calm → m.Room capacity k b → r = .ok ())

/-- Fewer calm runs, fewer refusals to explain. -/
theorem Replies.of_calm {capacity : UInt64} {calm calm' : Prop} {m : BoundedMap} {c : NodeCall}
    {o : NodeReply} (h : m.Replies capacity calm c o) (hcalm : calm' → calm) :
    m.Replies capacity calm' c o := by
  rw [Replies] at h ⊢
  split at h
  · rwa [if_pos ‹_›]
  · rw [if_neg ‹_›]
    refine ⟨h.1, fun k b r hc ho => ?_⟩
    obtain ⟨hok, hroom⟩ := h.2 k b r hc ho
    exact ⟨hok, fun hc' => hroom (hcalm hc')⟩

/-- The map after a call. -/
def record (m : BoundedMap) : NodeCall → NodeReply → BoundedMap
  | .openNode _, .status (.ok ()) => { m with opened := true }
  | .closeNode, .status _ => { m with opened := false }
  | .put k b, .status (.ok ()) => { m with blocks := AList.insert k b m.blocks }
  | _, _ => m

/-- Open or not, and what is stored. -/
theorem record_session (m : BoundedMap) (c : NodeCall) (o : NodeReply) :
    (⟨(m.record c o).opened, (m.record c o).at?⟩ : Session (BlockKey → Option Block)) =
      Session.record TwoTier.recordPut ⟨m.opened, m.at?⟩ c o := by
  cases c with
  | put k b =>
    rcases o with (_ | _) | _ | _ | _ <;> try rfl
    simp only [record, Session.record, recordOpen, TwoTier.recordPut]
    congr 1
    funext j
    rw [at?, Table.lookup_insert_if, Function.update_apply]
    rfl
  | openNode env => rcases o with (_ | _) | _ | _ | _ <;> rfl
  | closeNode => rcases o with (_ | _) | _ | _ | _ <;> rfl
  | _ => rfl

/-- A data call that fails changes nothing. -/
theorem record_error {m : BoundedMap} {c : NodeCall} {o : NodeReply} {s : Status} (hc : c.isData = true)
    (h : o.error? = some s) : m.record c o = m := by
  cases c with
  | put k b =>
    rcases o with (_ | _) | _ | _ | _
    · rfl
    · cases h
    all_goals rfl
  | openNode env => cases hc
  | closeNode => cases hc
  | _ => rfl

end BoundedMap

namespace TwoTier

variable {π : Type} {x y : TwoTier MapTier π} {m : BoundedMap} {k : BlockKey} {b : Block}

/-- A node without a disk, and the map it is. -/
structure Keeps (x : TwoTier MapTier π) (m : BoundedMap) : Prop where
  alive : x.Alive
  bare : x.Bare
  opened : m.opened = x.ready
  blocks : ∀ k, m.at? k = (x.dram.at? k).map (·.block)

theorem Keeps.view (h : x.Keeps m) : x.levels.view = m.at? :=
  funext fun k => (h.bare.view k).trans (h.blocks k).symm

theorem Keeps.bytes (h : x.Keeps m) : m.bytes = x.dram.totalBytes := by
  refine Table.weight_congr fun k => ?_
  have hk : AList.lookup k m.blocks = (AList.lookup k x.dram.store).map (·.block) := h.blocks k
  rw [hk, Option.map_map]
  rfl

theorem Keeps.room_iff (h : x.Keeps m) : m.Room x.dram.stats.capacityBytes k b ↔ x.Fits k b := by
  have hheld : (m.at? k).elim 0 Block.sizeBytes = (x.dram.at? k).elim 0 (·.block.sizeBytes) := by
    rw [h.blocks k]
    cases x.dram.at? k <;> rfl
  rw [BoundedMap.Room, Fits, h.bytes, hheld]

variable [LawfulPolicy π]

/-- The same blocks, open as before. -/
theorem Keeps.same (h : x.Keeps m) (hfollow : x.Follows y) (hlevels : y.levels = x.levels) : y.Keeps m where
  alive := hfollow.evolves.alive
  bare := h.bare.of_cold (by rw [hlevels])
  opened := h.opened.trans hfollow.ready.symm
  blocks k := (h.blocks k).trans (congrFun (congrArg TwoLevel.hot hlevels) k).symm

/-- One block more. -/
theorem Keeps.written (h : x.Keeps m) (hfollow : x.Follows y) (hlevels : y.levels = x.levels.writeHot k b) :
    y.Keeps { m with blocks := AList.insert k b m.blocks } where
  alive := hfollow.evolves.alive
  bare := h.bare.of_cold (by rw [hlevels]; rfl)
  opened := h.opened.trans hfollow.ready.symm
  blocks j := by
    have hj : (y.dram.at? j).map (·.block) = Function.update x.levels.hot k (some b) j :=
      congrFun (congrArg TwoLevel.hot hlevels) j
    rw [hj, Function.update_apply, BoundedMap.at?, Table.lookup_insert_if]
    by_cases hjk : j = k
    · rw [if_pos hjk, if_pos hjk]
    · rw [if_neg hjk, if_neg hjk]; exact h.blocks j

/-- What may come between a node without a disk and its map. Without a limit nothing need be refused; what a
    limit leaves room for, `BoundedMap.Replies` says. -/
def bareTerms (x : TwoTier MapTier π) : Terms where
  reads := ∅
  puts := x.putFaults
  takes _ _ _ := x.Calm ∧ x.dram.stats.capacityBytes = 0
  opens := {.outOfCapacity}
  sound := True

theorem Evolves.bareTerms (h : x.Evolves y) (ht : x.Tracked) : y.bareTerms.Within x.bareTerms where
  reads := subset_rfl
  puts := putFaults_subset (h.faults ht)
  takes _ _ _ hk := ⟨h.calm ht hk.1, h.capacity.trans hk.2⟩
  opens := subset_rfl
  sound := fun h => h

/-- What a call on a node without a disk comes to. -/
structure Handles (x : TwoTier MapTier π) (m : BoundedMap) (c : NodeCall) (o : NodeReply)
    (y : TwoTier MapTier π) : Prop where
  evolves : x.Evolves y
  keeps : y.Keeps (m.record c o)
  replies : x.Tracked → m.Replies x.dram.stats.capacityBytes x.Calm c o
  within : x.Tracked → x.bareTerms.Replies x.ready m.at? c o

/-- A data call on the open node. -/
theorem serve_bare (hm : x.Keeps m) (hready : x.ready = true) {c : NodeCall} (hc : c.isData = true) :
    Yields x.Tracked (x.node.hotOnly.step c) fun res =>
      ∃ y, res.2 = y.node.hotOnly ∧ Handles x m c res.1 y := by
  have hx := hm.alive.coherent hready
  have hopen : ¬ (m.opened = false ∧ c.isData = true) := by simp [hm.opened, hready]
  cases c with
  | openNode env => cases hc
  | closeNode => cases hc
  | put k b =>
    refine (put_bare hx hm.bare hready k b).map ?_
    rintro ⟨r, n⟩ ⟨y, rfl, hfollow, -, heffect⟩
    cases r with
    | ok _ =>
      refine ⟨y, rfl, hfollow.evolves, hm.written hfollow heffect.2, fun _ => ?_, fun _ =>
        .of_open (.inl hready) trivial fun s h => by cases h⟩
      rw [BoundedMap.Replies, if_neg hopen]
      refine ⟨trivial, ?_⟩
      rintro k' b' r ⟨⟩ ⟨⟩
      exact ⟨fun _ => hm.room_iff.mpr heffect.1, fun _ _ => rfl⟩
    | error s =>
      refine ⟨y, rfl, hfollow.evolves, hm.same hfollow heffect.1, fun ht => ?_, fun ht =>
        .of_open (.inl hready) trivial ?_⟩
      · rw [BoundedMap.Replies, if_neg hopen]
        refine ⟨trivial, ?_⟩
        rintro k' b' r ⟨⟩ ⟨⟩
        exact ⟨fun h => (by cases h), fun hcalm hroom =>
          absurd (hm.room_iff.mp hroom) ((heffect.2 ht).2 hcalm)⟩
      · rintro s' ⟨⟩
        exact ⟨(heffect.2 ht).1, fun ⟨hcalm, hnone⟩ => (heffect.2 ht).2 hcalm fun hcap => absurd hnone hcap⟩
  | get k dst out =>
    refine (get_bare hx hm.bare hready k dst out).map ?_
    rintro ⟨r, out', n⟩ ⟨y, rfl, hfollow, hlevels, hreply⟩
    rw [hm.view] at hreply
    refine ⟨y, rfl, hfollow.evolves, hm.same hfollow hlevels, fun _ => ?_, fun _ =>
      .of_open (.inl hready) hreply fun s h => by cases h⟩
    rw [BoundedMap.Replies, if_neg hopen]
    exact ⟨hreply, fun k b r h => by cases h⟩
  | probe k =>
    obtain ⟨r, heq, hreply⟩ := probe_bare hx hm.bare hready k
    rw [hm.view] at hreply
    simp only [StorageNode.step, heq]
    refine ⟨x, rfl, .refl hm.alive, hm, fun _ => ?_, fun _ =>
      .of_open (.inl hready) hreply fun s h => by cases h⟩
    rw [BoundedMap.Replies, if_neg hopen]
    exact ⟨hreply, fun k b r h => by cases h⟩
  | contains k =>
    have hreply : MapReply m.at? ∅ (.contains k) (.present (x.node.hotOnly.contains k)) := by
      rw [← hm.view]
      exact .inl (contains_bare hx hm.bare hready k)
    refine ⟨x, rfl, .refl hm.alive, hm, fun _ => ?_, fun _ =>
      .of_open (.inl hready) hreply fun s h => by cases h⟩
    rw [BoundedMap.Replies, if_neg hopen]
    exact ⟨hreply, fun k b r h => by cases h⟩

/-- Only the index and the open flag differ. -/
theorem handles_rested (hm : x.Keeps m) (index : LocalIndex) (ready : Bool) {c : NodeCall} {o : NodeReply}
    (hcoh : ready = true → { x with index, ready }.Coherent) (hc : c.isData = false)
    (hreply : MapReply m.at? ∅ c o) (hrecord : m.record c o = { m with opened := ready })
    (hexcuse : ∀ s, o = .status (.error s) → x.bareTerms.Excuses x.ready m.at? c s) :
    Handles x m c o { x with index, ready } where
  evolves := evolves_rested hm.alive.sound (.refl trivial) index ready hcoh
  keeps := by
    rw [hrecord]
    exact ⟨⟨⟨hm.alive.sound.accounted, hm.alive.sound.bounded⟩, trivial, hcoh⟩, hm.bare, rfl, hm.blocks⟩
  replies _ := by
    rw [BoundedMap.Replies, if_neg (by simp [hc])]
    refine ⟨hreply, ?_⟩
    rintro k b r rfl
    cases hc
  within _ := .of_open (.inr hc) hreply hexcuse

/-- STEP: every public call on a node without a disk, open or closed. -/
theorem step_bare (hm : x.Keeps m) (c : NodeCall) :
    Yields x.Tracked (x.node.hotOnly.step c) fun res =>
      ∃ y, res.2 = y.node.hotOnly ∧ Handles x m c res.1 y := by
  by_cases hc : c.isData = true
  · cases hready : x.ready with
    | true => exact serve_bare hm hready hc
    | false =>
      obtain ⟨s, heq, hcode⟩ := step_turned_away (n := x.node.hotOnly) hready hc
      rw [heq]
      refine ⟨x, rfl, .refl hm.alive, ?_, fun _ => ?_, fun _ => .of_closed hready hc hcode⟩
      · rw [BoundedMap.record_error hc (c.refused_error s)]; exact hm
      · rw [BoundedMap.Replies, if_pos ⟨hm.opened.trans hready, hc⟩]
        exact ⟨s, c.refused_error s, hcode⟩
  · cases c with
    | openNode env =>
      cases hready : x.ready with
      | true =>
        have hnode : x.node.hotOnly.ready = true := hready
        simp only [StorageNode.step, StorageNode.openNode, hnode, if_true]
        refine ⟨x, rfl, ?_⟩
        have hopened : m.record (.openNode env) (.status (.ok ())) = { m with opened := x.ready } := by
          rw [hready]; rfl
        exact handles_rested hm x.index x.ready (fun _ => hm.alive.coherent hready) rfl trivial hopened
          fun s h => by cases h
      | false =>
        obtain ⟨r, index, ready, heq, hok, hcoh, hwhy⟩ := openNode_bare hm.alive.sound hm.bare hready env
        simp only [StorageNode.step, heq]
        refine ⟨_, rfl, handles_rested hm index ready hcoh rfl trivial ?_ ?_⟩
        · cases r with
          | ok _ => rw [hok.mp rfl]; rfl
          | error s =>
            have hclosed : ready = false := by
              cases ready with
              | false => rfl
              | true => cases hok.mpr rfl
            rw [hclosed, ← hready, ← hm.opened]; rfl
        · rintro s ⟨⟩
          obtain ⟨hcode, hnot⟩ := hwhy s rfl
          exact ⟨hready, hcode, fun _ hample => absurd hample hnot⟩
    | closeNode =>
      exact ⟨{ x with ready := false }, rfl, handles_rested hm x.index false (by simp) rfl trivial rfl
        fun s h => by cases h⟩
    | _ => exact absurd rfl hc

end TwoTier

/-- The storage node with tiers `{DRAM}`, not yet opened. -/
def dramNode (id : String) (capacity : UInt64) (choice : PolicyChoice) (env : Surroundings) :
    StorageNode (DramTier ⊕ MapTier) Policy where
  id := id
  tiers := [some (.inl (DramTier.make capacity env.dramAllocs))]
  eviction := some (choice.make env)
  allocs := env.nodeAllocs

/-- BOUNDED MAP: any run of public calls on a node with tiers `{DRAM}` returns, and its replies are those
    of a map that keeps every block it has taken, over `Close` and `Open` too. With no allocation failing,
    a `Put` is refused exactly when it would bring the bytes over the capacity, which they never pass. -/
theorem dramOnly_bounded_map (id : String) (capacity : UInt64) (choice : PolicyChoice) (env : Surroundings)
    (calls : List NodeCall) :
    ∃ replies n', run StorageNode.step (dramNode id capacity choice env) calls = .ok (replies, n') ∧
      Accounts (BoundedMap.Replies capacity env.Calm) BoundedMap.record {} calls replies ∧
      (capacity ≠ 0 → (follow BoundedMap.record {} calls replies).bytes ≤ capacity.toNat) := by
  let x : TwoTier MapTier Policy := TwoTier.fresh id capacity {} choice env
  have htracked : x.Tracked := TwoTier.fresh_tracked
  have hkeeps : x.Keeps {} := ⟨TwoTier.fresh_alive trivial, fun _ => rfl, rfl, fun _ => rfl⟩
  have hcalm : env.Calm → x.Calm := TwoTier.fresh_calm
  have hstep : ∀ n m c, True → (∃ y : TwoTier MapTier Policy, n = y.node.hotOnly ∧ x.Evolves y ∧
        (env.Calm → y.Calm) ∧ y.Keeps m) →
      Yields True (StorageNode.step n c) fun res => m.Replies capacity env.Calm c res.1 ∧
        ∃ y : TwoTier MapTier Policy, res.2 = y.node.hotOnly ∧ x.Evolves y ∧ (env.Calm → y.Calm) ∧
          y.Keeps (m.record c res.1) := by
    rintro n m c - ⟨y, rfl, hy, hycalm, hm⟩
    have hytracked := hy.tracked htracked
    refine ((TwoTier.step_bare hm c).weaken fun _ => hytracked).mono ?_
    rintro ⟨o, n⟩ ⟨z, rfl, hz⟩
    have hcap : y.dram.stats.capacityBytes = capacity := hy.capacity
    refine ⟨(hcap ▸ hz.replies hytracked).of_calm hycalm, z, rfl, hy.trans hz.evolves, fun h => ?_, hz.keeps⟩
    exact hz.evolves.calm hytracked (hycalm h)
  obtain ⟨⟨replies, n'⟩, hrun, haccounts, y, rfl, hy, -, hm⟩ :=
    (run_accounts hstep calls (fun _ _ => trivial) ⟨x, rfl, .refl hkeeps.alive, hcalm, hkeeps⟩).answer trivial
  refine ⟨replies, y.node.hotOnly, hrun, haccounts, fun hcap => ?_⟩
  have hcapacity : y.dram.stats.capacityBytes = capacity := hy.capacity
  rw [hm.bytes, ← hcapacity]
  exact hm.alive.sound.bounded (hcapacity ▸ hcap)

end TidePool.Store
