import TidePool.Store.StorageNode

/-! Watching the tiers of a node.

    A `Logged` tier answers as the tier inside it and remembers the blocks of its successful `Put`s. The
    node is written against the tier interface, so it cannot tell the two apart:

        node over logged tiers --call--> node over logged tiers
               | mapTiers                       | mapTiers
               v                                v
             node        ------call------>    node              same answer

    The square is proved for any map of tiers that keeps every answer (`Mirrors`), function by function,
    so whatever is counted on the logs is counted on the node itself. -/

namespace TidePool.Store
open Schemes

/-- The tiers `t` and `f t` answer alike and stay related. -/
structure Mirrors {τ υ : Type} [Tier τ] [Tier υ] (f : υ → τ) : Prop where
  type : ∀ t, Tier.type (f t) = Tier.type t
  stats : ∀ t, Tier.stats (f t) = Tier.stats t
  probe : ∀ t k, Tier.probe (f t) k = ((Tier.probe t k).1, f (Tier.probe t k).2)
  put : ∀ t k b, Tier.put (f t) k b = ((Tier.put t k b).1, f (Tier.put t k b).2)
  get : ∀ t k dst out, Tier.get (f t) k dst out =
    ((Tier.get t k dst out).1, (Tier.get t k dst out).2.1, f (Tier.get t k dst out).2.2)
  validate : ∀ t k, Tier.validateEraseExisting (f t) k = Tier.validateEraseExisting t k
  erase : ∀ t k, Tier.eraseExisting (f t) k = (Tier.eraseExisting t k).map f

/-! ### Logged tiers -/

/-- A tier and the blocks that its successful `Put`s stored, in order. -/
structure Logged (τ : Type) where
  tier : τ
  puts : List Block := []

namespace Logged

variable {τ : Type} [Tier τ]

/-- The tier inside moved on. -/
def moved (t : Logged τ) (tier : τ) : Logged τ := { t with tier }

/-- `Put`, logged if it succeeds. -/
def put (t : Logged τ) (key : BlockKey) (block : Block) : Result UInt64 × Logged τ :=
  match Tier.put t.tier key block with
  | (.ok handle, tier) => (.ok handle, { tier, puts := t.puts ++ [block] })
  | (.error s, tier) => (.error s, t.moved tier)

instance : Tier (Logged τ) where
  type t := Tier.type t.tier
  openTier t := (Tier.openTier t.tier).map id t.moved
  closeTier t := (Tier.closeTier t.tier).map id t.moved
  isReady t := Tier.isReady t.tier
  probe t k := (Tier.probe t.tier k).map id t.moved
  put := put
  get t k dst out := (Tier.get t.tier k dst out).map id (.map id t.moved)
  evict t k := (Tier.evict t.tier k).map id t.moved
  validateEraseExisting t k := Tier.validateEraseExisting t.tier k
  eraseExisting t k := (Tier.eraseExisting t.tier k).map t.moved
  visitEntries t alloc := Tier.visitEntries t.tier alloc
  stats t := Tier.stats t.tier

theorem mirrors : Mirrors (tier : Logged τ → τ) where
  type _ := rfl
  stats _ := rfl
  probe _ _ := rfl
  put t k b := by
    show _ = ((t.put k b).1, (t.put k b).2.tier)
    unfold put
    rcases Tier.put t.tier k b with ⟨r, tier⟩
    cases r <;> rfl
  get _ _ _ _ := rfl
  validate _ _ := rfl
  erase t k := by
    show _ = ((Tier.eraseExisting t.tier k).map t.moved).map tier
    cases Tier.eraseExisting t.tier k <;> rfl

end Logged

/-! ### The node over mirrored tiers -/

namespace StorageNode

variable {τ υ π α : Type}

/-- The node with each tier replaced by its image. -/
def mapTiers (f : υ → τ) (n : StorageNode υ π) : StorageNode τ π where
  id := n.id
  tiers := n.tiers.map (Option.map f)
  eviction := n.eviction
  index := n.index
  ready := n.ready
  stats := n.stats
  allocs := n.allocs

/-- An answer that comes with a node. -/
def imaged (f : υ → τ) (res : α × StorageNode υ π) : α × StorageNode τ π := (res.1, res.2.mapTiers f)

variable {f : υ → τ} (n : StorageNode υ π) (i : ℕ) (k : BlockKey)

theorem tiers_mapTiers : (n.mapTiers f).tiers = n.tiers.map (Option.map f) := rfl

theorem index_mapTiers : (n.mapTiers f).index = n.index := rfl

theorem eviction_mapTiers : (n.mapTiers f).eviction = n.eviction := rfl

theorem callTier_mapTiers {g : τ → α × τ} {g' : υ → α × υ} (hg : ∀ t, g (f t) = ((g' t).1, f (g' t).2)) :
    (n.mapTiers f).callTier i g = (n.callTier i g').map (imaged f) := by
  simp only [callTier, mapTiers, List.getElem?_map]
  cases n.tiers[i]? with
  | none => rfl
  | some t =>
    cases t with
    | none => rfl
    | some t => simp [Except.map, imaged, mapTiers, hg, List.map_set]

theorem askTier_mapTiers {g : τ → α} {g' : υ → α} (hg : ∀ t, g (f t) = g' t) :
    (n.mapTiers f).askTier i g = n.askTier i g' := by
  simp only [askTier, mapTiers, List.getElem?_map]
  cases n.tiers[i]? with
  | none => rfl
  | some t =>
    cases t with
    | none => rfl
    | some t => simp [hg]

theorem relocateIndex_mapTiers (e t : TierType) (h : UInt64) :
    (n.mapTiers f).relocateIndex k e t h = (n.relocateIndex k e t h).map (mapTiers f) := by
  simp only [relocateIndex]
  cases hi : n.index.relocateExisting k e t h <;> simp [mapTiers, hi] <;> rfl

/-- An entry of the node's own. -/
theorem upsertIndex_mapTiers (t : TierType) (h : UInt64) :
    (n.mapTiers f).upsertIndex k ⟨(n.mapTiers f).id, t, h⟩ = imaged f (n.upsertIndex k ⟨n.id, t, h⟩) := rfl

theorem removeIndex_mapTiers : (n.mapTiers f).removeIndex k = (n.removeIndex k).map (mapTiers f) := by
  simp only [removeIndex]
  cases hi : n.index.removeExisting k <;> simp [mapTiers, hi] <;> rfl

theorem policyOnInsert_mapTiers (ins : π → Except Halt (Result Unit × π)) :
    (n.mapTiers f).policyOnInsert ins = (n.policyOnInsert ins).map (imaged f) := by
  obtain ⟨_, _, eviction, _⟩ := n
  cases eviction with
  | none => rfl
  | some p =>
    simp only [policyOnInsert, mapTiers]
    cases ins p <;> rfl

section Policy

variable [EvictionPolicy π]

theorem policyOnAccess_mapTiers :
    (n.mapTiers f).policyOnAccess k = (n.policyOnAccess k).map (mapTiers f) := by
  obtain ⟨_, _, eviction, _⟩ := n
  cases eviction with
  | none => rfl
  | some p =>
    simp only [policyOnAccess, mapTiers]
    cases EvictionPolicy.onAccess p k <;> rfl

theorem cancelVictimOrInternal_mapTiers (p : π) (v : BlockKey) (cause : Status) (context : String) :
    (n.mapTiers f).cancelVictimOrInternal p v cause context =
      imaged f (n.cancelVictimOrInternal p v cause context) := by
  simp only [cancelVictimOrInternal]
  rcases EvictionPolicy.cancelVictim p v with ⟨r, p'⟩
  cases r <;> rfl

end Policy

variable [Tier τ] [Tier υ] (hf : Mirrors f)

include hf

theorem eraseFrom_mapTiers : (n.mapTiers f).eraseFrom i k = (n.eraseFrom i k).map (mapTiers f) := by
  simp only [eraseFrom, askTier, mapTiers, List.getElem?_map]
  cases n.tiers[i]? with
  | none => rfl
  | some t =>
    cases t with
    | none => rfl
    | some t =>
      simp only [Option.map_some, ok_bind, hf.erase]
      cases Tier.eraseExisting t k with
      | error e => rfl
      | ok t' =>
        show Except.ok _ = Except.ok _
        simp [mapTiers, List.map_set]

theorem validate_mapTiers : (n.mapTiers f).askTier i (Tier.validateEraseExisting · k) =
    n.askTier i (Tier.validateEraseExisting · k) :=
  n.askTier_mapTiers i fun t => hf.validate t k

theorem undoInsert_mapTiers : (n.mapTiers f).undoInsert i k = (n.undoInsert i k).map (mapTiers f) := by
  simp only [undoInsert, n.validate_mapTiers i k hf]
  cases n.askTier i (Tier.validateEraseExisting · k) with
  | error e => rfl
  | ok r =>
    cases r with
    | error s => rfl
    | ok _ => exact n.eraseFrom_mapTiers i k hf

theorem tierOfLocked_mapTiers (type : TierType) : (n.mapTiers f).tierOfLocked type = n.tierOfLocked type := by
  simp only [tierOfLocked, mapTiers, List.findIdx?_map]
  congr 1
  funext t
  cases t <;> simp [hf.type]

theorem fetch_mirrors (dst : MutableBuffer) (out : Option BlockView) (t : υ) :
    fetch k dst out (f t) = ((fetch k dst out t).1, f (fetch k dst out t).2) := by
  simp only [fetch, hf.get]

theorem readBlockLocked_mapTiers :
    (n.mapTiers f).readBlockLocked i k = (n.readBlockLocked i k).map (imaged f) := by
  refine bind_image (n.callTier_mapTiers i fun t => hf.probe t k) ?_
  rintro ⟨info, n₁⟩
  cases info with
  | error s => rfl
  | ok info =>
    refine ite_image rfl (bind_image (n₁.drawn.callTier_mapTiers i fun t => fetch_mirrors k hf _ _ t) ?_)
    rintro ⟨⟨fetched, out⟩, n₂⟩
    cases fetched with
    | error s => rfl
    | ok _ => exact ite_image rfl rfl

/-! ### Demotion -/

variable [EvictionPolicy π]

theorem commitDemotion_mapTiers (dram sink : ℕ) (p : π) (v : BlockKey) (b : Block) (handle : UInt64) :
    (n.mapTiers f).commitDemotion dram sink p v b handle =
      (n.commitDemotion dram sink p v b handle).map (imaged f) := by
  refine bind_image (n.eraseFrom_mapTiers dram v hf) fun n₁ => ?_
  rw [n₁.askTier_mapTiers sink hf.type]
  exact bind_alike fun _ => bind_alike fun _ => bind_alike fun _ => rfl

theorem demoteReserved_mapTiers (dram sink : ℕ) (p : π) (v : BlockKey) :
    (n.mapTiers f).demoteReserved dram sink p v = (n.demoteReserved dram sink p v).map (imaged f) := by
  have hcancel : ∀ (n : StorageNode υ π) (s : Status) (context : String),
      (Except.ok ((n.mapTiers f).cancelVictimOrInternal p v s context) : Except Halt _) =
        (Except.ok (n.cancelVictimOrInternal p v s context)).map (imaged f) :=
    fun n s context => congrArg Except.ok (n.cancelVictimOrInternal_mapTiers p v s context)
  simp only [demoteReserved, index_mapTiers]
  cases n.index.validateRelocate v .dram with
  | error s => exact hcancel n s _
  | ok _ =>
    refine bind_image (n.readBlockLocked_mapTiers dram v hf) ?_
    rintro ⟨read, n₁⟩
    cases read with
    | error s => exact hcancel n₁ s _
    | ok block =>
      dsimp only [imaged]
      rw [n₁.validate_mapTiers dram v hf]
      refine bind_alike fun erasable => ?_
      cases erasable with
      | error s => exact hcancel n₁ s _
      | ok _ =>
        dsimp only
        cases EvictionPolicy.validateVictimCommit p v with
        | error s => exact hcancel n₁ s _
        | ok _ =>
          refine bind_image (n₁.callTier_mapTiers sink fun t => hf.put t v block) ?_
          rintro ⟨stored, n₂⟩
          cases stored with
          | error s => exact hcancel n₂ s _
          | ok handle => exact n₂.commitDemotion_mapTiers hf dram sink p v block handle

theorem demoteOneVictimLocked_mapTiers (dram sink : ℕ) (ex : Option BlockKey) :
    (n.mapTiers f).demoteOneVictimLocked dram sink ex =
      (n.demoteOneVictimLocked dram sink ex).map (imaged f) := by
  simp only [demoteOneVictimLocked, eviction_mapTiers]
  cases n.eviction with
  | none => rfl
  | some p =>
    dsimp only
    rcases EvictionPolicy.selectVictim p ex with ⟨r, p₁⟩
    cases r with
    | error s => rfl
    | ok v => exact demoteReserved_mapTiers { n with eviction := some p₁ } hf dram sink p₁ v

theorem makeRoomLoop_mapTiers (dram : ℕ) (replaced : UInt64) (incoming : ℕ) (ex : Option BlockKey) :
    ∀ (fuel : ℕ) (n : StorageNode υ π), makeRoomLoop dram replaced incoming ex fuel (n.mapTiers f) =
      (makeRoomLoop dram replaced incoming ex fuel n).map (imaged f)
  | 0, _ => rfl
  | fuel + 1, n => by
    simp only [makeRoomLoop, n.askTier_mapTiers dram hf.stats]
    refine bind_alike fun before => ite_image rfl ?_
    cases projectedBytes before.usedBytes replaced incoming with
    | none => rfl
    | some projected =>
      refine ite_image rfl (ite_image rfl ?_)
      rw [colderTierLocked, n.tierOfLocked_mapTiers hf]
      cases hsink : n.tierOfLocked .ssd with
      | none => simp only [colderTierLocked, hsink]; rfl
      | some sink =>
        simp only [colderTierLocked, hsink]
        refine bind_image (n.demoteOneVictimLocked_mapTiers hf dram sink ex) ?_
        rintro ⟨demoted, n₁⟩
        cases demoted with
        | error s => exact ite_image rfl rfl
        | ok _ =>
          dsimp only [imaged]
          rw [n₁.askTier_mapTiers dram hf.stats]
          exact bind_alike fun after =>
            ite_image rfl (makeRoomLoop_mapTiers dram replaced incoming ex fuel n₁)

theorem makeDramRoomForLocked_mapTiers (incoming : ℕ) (ex : Option BlockKey) :
    (n.mapTiers f).makeDramRoomForLocked incoming ex =
      (n.makeDramRoomForLocked incoming ex).map (imaged f) := by
  simp only [makeDramRoomForLocked, n.tierOfLocked_mapTiers hf]
  cases n.tierOfLocked .dram with
  | none => rfl
  | some dram =>
    simp only [n.askTier_mapTiers dram hf.stats]
    refine bind_alike fun stats => ?_
    cases ex with
    | none => exact makeRoomLoop_mapTiers hf dram 0 incoming none _ n
    | some key =>
      refine bind_image (n.callTier_mapTiers dram fun t => hf.probe t key) ?_
      rintro ⟨old, n₁⟩
      cases old with
      | error s => rfl
      | ok old => exact makeRoomLoop_mapTiers hf dram _ incoming (some key) _ n₁

/-! ### Put -/

omit [EvictionPolicy π] in
theorem putWithoutDramLocked_mapTiers (b : Block) (old : Option Location) :
    (n.mapTiers f).putWithoutDramLocked k b old = (n.putWithoutDramLocked k b old).map (imaged f) := by
  simp only [putWithoutDramLocked, n.askTier_mapTiers 0 hf.type, index_mapTiers]
  refine bind_alike fun hotType => ?_
  cases old with
  | some old =>
    dsimp only
    cases n.index.validateRelocate k old.tier with
    | error s => rfl
    | ok _ =>
      refine bind_image (n.relocateIndex_mapTiers k old.tier hotType 0) fun n₁ => ?_
      refine bind_image (n₁.callTier_mapTiers 0 fun t => hf.put t k b) ?_
      rintro ⟨stored, n₂⟩
      cases stored with
      | error s => exact bind_image (n₂.relocateIndex_mapTiers k hotType old.tier old.handle) fun _ => rfl
      | ok handle => exact bind_image (n₂.relocateIndex_mapTiers k hotType hotType handle) fun _ => rfl
  | none =>
    dsimp only
    rw [upsertIndex_mapTiers]
    rcases n.upsertIndex k ⟨n.id, hotType, 0⟩ with ⟨r, n₁⟩
    cases r with
    | error s => rfl
    | ok _ =>
      refine bind_image (n₁.callTier_mapTiers 0 fun t => hf.put t k b) ?_
      rintro ⟨stored, n₂⟩
      cases stored with
      | error s => exact bind_image (n₂.removeIndex_mapTiers k) fun _ => rfl
      | ok handle => exact bind_image (n₂.relocateIndex_mapTiers k hotType hotType handle) fun _ => rfl

theorem putOversizedLocked_mapTiers (b : Block) (dram sink : ℕ) (old : Option Location) :
    (n.mapTiers f).putOversizedLocked k b dram sink old =
      (n.putOversizedLocked k b dram sink old).map (imaged f) := by
  simp only [putOversizedLocked, n.askTier_mapTiers sink hf.type, n.validate_mapTiers dram k hf,
    index_mapTiers]
  refine bind_alike fun sinkType => ?_
  cases old with
  | some old =>
    dsimp only
    cases n.index.validateRelocate k old.tier with
    | error s => rfl
    | ok _ =>
      by_cases htier : old.tier = .dram
      · simp only [if_pos htier]
        refine bind_alike fun erasable => ?_
        cases erasable with
        | error s => rfl
        | ok _ =>
          refine bind_image (n.callTier_mapTiers sink fun t => hf.put t k b) ?_
          rintro ⟨stored, n₁⟩
          cases stored with
          | error s => rfl
          | ok handle =>
            have herase : ((policyOnRemove · k) <$> (n₁.mapTiers f).eraseFrom dram k) =
                ((policyOnRemove · k) <$> n₁.eraseFrom dram k).map (mapTiers f) := by
              rw [n₁.eraseFrom_mapTiers dram k hf]
              cases n₁.eraseFrom dram k <;> rfl
            refine bind_image herase fun n₂ => ?_
            exact bind_image (n₂.relocateIndex_mapTiers k old.tier sinkType handle) fun _ => rfl
      · simp only [if_neg htier, pure_bind]
        refine bind_image (n.callTier_mapTiers sink fun t => hf.put t k b) ?_
        rintro ⟨stored, n₁⟩
        cases stored with
        | error s => rfl
        | ok handle => exact bind_image (n₁.relocateIndex_mapTiers k old.tier sinkType handle) fun _ => rfl
  | none =>
    dsimp only
    rw [upsertIndex_mapTiers]
    rcases n.upsertIndex k ⟨n.id, sinkType, 0⟩ with ⟨r, n₁⟩
    cases r with
    | error s => rfl
    | ok _ =>
      refine bind_image (n₁.callTier_mapTiers sink fun t => hf.put t k b) ?_
      rintro ⟨stored, n₂⟩
      cases stored with
      | error s => exact bind_image (n₂.removeIndex_mapTiers k) fun _ => rfl
      | ok handle => exact bind_image (n₂.relocateIndex_mapTiers k sinkType sinkType handle) fun _ => rfl

theorem putHot_mapTiers (b : Block) (old : Option Location) :
    (n.mapTiers f).putHot k b old = (n.putHot k b old).map (imaged f) := by
  simp only [putHot, index_mapTiers]
  cases old.elim (.ok ()) fun old => n.index.validateRelocate k old.tier with
  | error s => rfl
  | ok _ =>
    refine bind_image (n.callTier_mapTiers 0 fun t => hf.put t k b) ?_
    rintro ⟨stored, n₁⟩
    cases stored with
    | error s => rfl
    | ok handle =>
      dsimp only
      cases hnew : old.all fun old => old.tier ≠ .dram with
      | false =>
        cases old with
        | none => cases hnew
        | some old =>
          simp only [Bool.false_eq_true, if_false, pure_bind]
          refine bind_image (n₁.relocateIndex_mapTiers k old.tier .dram handle) fun n₂ => ?_
          exact bind_image (n₂.policyOnAccess_mapTiers k) fun _ => rfl
      | true =>
        refine bind_image (n₁.policyOnInsert_mapTiers _) ?_
        rintro ⟨inserted, n₂⟩
        cases inserted with
        | error s => exact bind_image (n₂.undoInsert_mapTiers 0 k hf) fun _ => rfl
        | ok _ =>
          cases old with
          | some old => exact bind_image (n₂.relocateIndex_mapTiers k old.tier .dram handle) fun _ => rfl
          | none =>
            dsimp only [imaged]
            rw [upsertIndex_mapTiers]
            rcases n₂.upsertIndex k ⟨n₂.id, .dram, handle⟩ with ⟨r, n₃⟩
            cases r with
            | error s => exact bind_image ((n₃.policyOnRemove k).undoInsert_mapTiers 0 k hf) fun _ => rfl
            | ok _ => rfl

theorem put_mapTiers (b : Block) : (n.mapTiers f).put k b = (n.put k b).map (imaged f) := by
  refine ite_image rfl ?_
  cases hhot : n.tiers.head? with
  | none => simp only [mapTiers, List.head?_map, hhot]; rfl
  | some hot =>
    cases hot with
    | none => simp only [mapTiers, List.head?_map, hhot]; rfl
    | some hot =>
      simp only [tiers_mapTiers, List.head?_map, hhot, Option.map_some, hf.type, hf.stats]
      refine ite_image (n.putWithoutDramLocked_mapTiers k hf b _) (ite_image ?_ ?_)
      · rw [colderTierLocked, n.tierOfLocked_mapTiers hf]
        cases hsink : n.tierOfLocked .ssd with
        | none => simp only [colderTierLocked, hsink]; rfl
        | some sink =>
          simp only [colderTierLocked, hsink]
          exact n.putOversizedLocked_mapTiers k hf b 0 sink _
      · refine bind_image (n.makeDramRoomForLocked_mapTiers hf b.sizeBytes _) ?_
        rintro ⟨room, n₁⟩
        cases room with
        | error s => rfl
        | ok _ => exact n₁.putHot_mapTiers k hf b _

/-! ### Get -/

theorem promoteInto_mapTiers (dram : ℕ) (b : Block) :
    (n.mapTiers f).promoteInto dram k b = (n.promoteInto dram k b).map (mapTiers f) := by
  refine bind_image (n.callTier_mapTiers dram fun t => hf.put t k b) ?_
  rintro ⟨stored, n₁⟩
  cases stored with
  | error s => rfl
  | ok handle =>
    refine bind_image (n₁.policyOnInsert_mapTiers _) ?_
    rintro ⟨promoted, n₂⟩
    cases promoted with
    | error s => exact n₂.undoInsert_mapTiers dram k hf
    | ok _ => exact bind_image (n₂.relocateIndex_mapTiers k .ssd .dram handle) fun _ => rfl

theorem tryPromoteToDramLocked_mapTiers (view : BlockView) :
    (n.mapTiers f).tryPromoteToDramLocked k view = (n.tryPromoteToDramLocked k view).map (mapTiers f) := by
  simp only [tryPromoteToDramLocked, n.tierOfLocked_mapTiers hf, eviction_mapTiers, index_mapTiers]
  cases n.tierOfLocked .dram with
  | none => rfl
  | some dram =>
    cases n.eviction with
    | none => rfl
    | some p =>
      simp only [n.askTier_mapTiers dram hf.stats]
      refine bind_alike fun stats => ite_image rfl ?_
      cases n.index.validateRelocate k .ssd with
      | error s => rfl
      | ok _ =>
        refine bind_image (n.callTier_mapTiers dram fun t => hf.probe t k) ?_
        rintro ⟨already, n₁⟩
        refine ite_image rfl (ite_image rfl ?_)
        refine bind_image (n₁.drawn.makeDramRoomForLocked_mapTiers hf view.size none) ?_
        rintro ⟨room, n₂⟩
        cases room with
        | error s => rfl
        | ok _ => exact n₂.promoteInto_mapTiers k hf dram _

/-- The image of what `Get` returns. -/
def imagedView (f : υ → τ) (res : Result Unit × Option BlockView × StorageNode υ π) :
    Result Unit × Option BlockView × StorageNode τ π :=
  (res.1, res.2.1, res.2.2.mapTiers f)

theorem get_mapTiers (dst : MutableBuffer) (out : Option BlockView) :
    (n.mapTiers f).get k dst out = (n.get k dst out).map (imagedView f) := by
  refine ite_image rfl ?_
  simp only [index_mapTiers]
  cases n.index.find k with
  | error s => rfl
  | ok loc =>
    simp only [n.tierOfLocked_mapTiers hf]
    cases n.tierOfLocked loc.tier with
    | none => rfl
    | some owner =>
      refine bind_image (n.callTier_mapTiers owner fun t => fetch_mirrors k hf dst _ t) ?_
      rintro ⟨⟨fetched, view⟩, n₁⟩
      cases fetched with
      | error s =>
        show Except.ok _ = Except.ok _
        by_cases hs : s.code = .notFound
        · simp only [if_pos hs]; rfl
        · simp only [if_neg hs]; rfl
      | ok _ =>
        cases view with
        | none => rfl
        | some view =>
          let dramHit := { n₁.stats with
            bytesRead := n₁.stats.bytesRead + view.size, dramHits := n₁.stats.dramHits + 1 }
          let ssdHit := { n₁.stats with
            bytesRead := n₁.stats.bytesRead + view.size, ssdHits := n₁.stats.ssdHits + 1 }
          refine ite_image ?_ ?_
          · exact bind_image (policyOnAccess_mapTiers { n₁ with stats := dramHit } k) fun _ => rfl
          · exact bind_image (tryPromoteToDramLocked_mapTiers { n₁ with stats := ssdHit } k hf view)
              fun _ => rfl

omit [EvictionPolicy π] in
theorem probe_mapTiers : (n.mapTiers f).probe k = (n.probe k).map (imaged f) := by
  refine ite_image rfl ?_
  simp only [index_mapTiers]
  cases n.index.find k with
  | error s => rfl
  | ok loc =>
    simp only [n.tierOfLocked_mapTiers hf]
    cases n.tierOfLocked loc.tier with
    | none => rfl
    | some owner => exact n.callTier_mapTiers owner fun t => hf.probe t k

/-- MIRROR: a data call on the mirrored node is the mirrored call. -/
theorem step_mapTiers {c : NodeCall} (hc : c.isData = true) :
    (n.mapTiers f).step c = (n.step c).map (imaged f) := by
  cases c with
  | openNode env => cases hc
  | closeNode => cases hc
  | put k b =>
    simp only [step, n.put_mapTiers k hf b]
    cases n.put k b <;> rfl
  | get k dst out =>
    simp only [step, n.get_mapTiers k hf dst out]
    cases n.get k dst out <;> rfl
  | probe k =>
    simp only [step, n.probe_mapTiers k hf]
    cases n.probe k <;> rfl
  | contains k => rfl

/-- And so is a run of data calls. -/
theorem run_mapTiers {calls : List NodeCall} (hcalls : ∀ c ∈ calls, c.isData = true) :
    run step (n.mapTiers f) calls = (run step n calls).map (imaged f) :=
  run_image (mapTiers f) (fun n _ hc => n.step_mapTiers hf hc) n hcalls

end StorageNode

end TidePool.Store
