import TidePool.Schemes.Table
import TidePool.Store.Processes

/-! The cost-aware policy (`src/store/eviction/cost_aware_eviction.cpp`), which is not there yet: it takes
    no key, and so it never has a victim.

    A node that is given it still has to work. `Put` and the promotion of a `Get` ask the policy after the
    block is in DRAM, and take the block out again when it refuses:

        Put    fits DRAM       -->  DRAM  -->  OnInsert refuses  -->  out of DRAM, error
               larger          -->  disk
        Get    on disk         -->  DRAM  -->  OnPromotionCommitted refuses  -->  out of DRAM, the read counts

    What is left is a store that writes through: DRAM is empty between calls, and what was acknowledged is
    on disk. -/

namespace TidePool.Store

open Schemes

/-- `CostStats`; nothing reads the size and the cost. -/
structure CostStats where
  lastAccessSeq : UInt64 := 0

structure CostAwareEviction where
  stats : Dict BlockKey CostStats := ∅
  seq : UInt64 := 0

namespace CostAwareEviction

def onAccess (c : CostAwareEviction) (key : BlockKey) : CostAwareEviction :=
  match c.stats.lookup key with
  | none => c
  | some stats => { stats := c.stats.insert key { stats with lastAccessSeq := c.seq + 1 }, seq := c.seq + 1 }

def notImplemented : Status := .notImplemented "cost-aware policy is not implemented"

instance : EvictionPolicy CostAwareEviction where
  onAccess c key := .ok (c.onAccess key)
  onInsert c _ _ := .ok (.error notImplemented, c)
  onPromotionCommitted c _ _ := .ok (.error notImplemented, c)
  onRemove c key := { c with stats := c.stats.erase key }
  selectVictim c _ := (.error (.notFound "cost-aware victim selection is not implemented"), c)
  validateVictimCommit _ _ := .error (.invalidArgument "cost-aware policy has no reserved victim")
  commitVictim _ _ := .error .terminate
  cancelVictim c _ := (.error (.invalidArgument "cost-aware policy has no reserved victim"), c)

instance : PolicyView CostAwareEviction where
  Wf _ := True
  resident _ := ∅
  reserved _ := none
  Reliable _ := False
  faults _ := {notImplemented}

theorem kept (c c' : CostAwareEviction) : PolicyKept c c' := ⟨trivial, subset_rfl, id⟩

theorem refuses (c : CostAwareEviction) (key : BlockKey) : Inserts c key (.ok (.error notImplemented, c)) :=
  ⟨_, c, rfl, kept c c, rfl, rfl, not_false, .inr rfl⟩

/-- It is a policy of which nothing is resident, so that most laws are empty. -/
instance : LawfulPolicy CostAwareEviction where
  access_law _ _ _ hk _ := absurd hk (Set.notMem_empty _)
  insert_law c key _ _ _ := c.refuses key
  promote_law c key _ _ _ := c.refuses key
  remove_law c _ _ _ := ⟨kept c _, (Set.empty_sdiff _).symm, rfl⟩
  select_law _ _ _ _ := .inl ⟨_, rfl, rfl, fun _ hk => absurd hk (Set.notMem_empty _)⟩
  validate_law _ _ _ hres := by cases hres
  commit_law _ _ _ hres := by cases hres
  cancel_law _ _ _ hres := by cases hres

end CostAwareEviction

/-! ### A node with it -/

namespace TwoTier

variable {σ : Type} [ColdTier σ] {x y : TwoTier σ CostAwareEviction}

omit [ColdTier σ] in
/-- DRAM has what the policy thinks is there: nothing. -/
theorem dram_empty (h : x.Tracked) (k : BlockKey) : x.dram.at? k = none := by
  obtain ⟨p, -, -, -, hresident⟩ := h
  by_contra hk
  exact (Set.notMem_empty k) ((hresident k).mpr hk)

omit [ColdTier σ] in
theorem hot_empty [ColdView σ] (h : x.Tracked) (k : BlockKey) : x.levels.hot k = none := by
  simp only [levels, dram_empty h k, Option.map_none]

omit [ColdTier σ] in
theorem view_of_tracked [ColdView σ] (h : x.Tracked) (k : BlockKey) : x.levels.view k = x.levels.cold k := by
  rw [TwoLevel.view, hot_empty h k, Option.none_or]

/-- A block that is acknowledged did not fit DRAM: it would be there now, where nothing is. -/
theorem oversized_of_ok (hy : y.Tracked) {k : BlockKey} {b : Block} (h : PutEffect k b x y (.ok ())) :
    x.Oversized b := by
  rcases h with ⟨hbig, -⟩ | ⟨-, z, -, -, hlevels⟩
  · exact hbig
  · have hhot : y.levels.hot k = some b := by simp only [hlevels, TwoLevel.writeHot, Function.update_self]
    rw [hot_empty hy k] at hhot
    cases hhot

/-- `Put` acknowledges only what does not fit DRAM; a closed node acknowledges nothing. -/
theorem put_acknowledges (hx : x.Alive) (htracked : x.Tracked) {k : BlockKey} {b : Block}
    (hput : x.node.step (.put k b) = .ok (.status (.ok ()), y.node)) :
    tooLarge x.dram.stats.capacityBytes b = true := by
  cases hready : x.ready with
  | true =>
    obtain ⟨⟨o, n⟩, heq, z, rfl, hfollow, hserved⟩ :=
      (serve_spec (c := .put k b) (hx.coherent hready) hready rfl).answer htracked
    obtain ⟨rfl, -⟩ := Prod.mk.inj (Except.ok.inj (heq.symm.trans hput))
    exact tooLarge_iff.mpr (oversized_of_ok (hfollow.tracked htracked) hserved)
  | false =>
    obtain ⟨s, heq, -⟩ := step_turned_away (n := x.node) (c := .put k b) hready rfl
    cases heq.symm.trans hput

end TwoTier

namespace CostAwareEviction

/-- What may come between a node with this policy and its map. Only a block larger than DRAM must be
    taken, and every other `Put` is refused. -/
def terms (capacity : UInt64) (disk : DiskEnv) (nodeAllocs : Stream' Bool) : Terms where
  reads := disk.readFaults
  puts := { st | st ∈ SsdTier.callFaults ∨ st = notImplemented }
  takes _ k b := tooLarge capacity b = true ∧ (∀ i, nodeAllocs.get i = true) ∧
    (∀ i, disk.calls.get i = none) ∧ (∀ i, disk.allocs.get i = true) ∧ SsdTier.Matches k b.metadata
  opens := diskCodes
  sound := disk.Opens

/-- The replies of such a node: it acknowledges only blocks larger than DRAM. -/
def Replies (capacity : UInt64) (t : Terms) (s : Session (BlockKey → Option Block)) (c : NodeCall)
    (o : NodeReply) : Prop :=
  t.Replies s.opened s.store c o ∧ ∀ k b, c = .put k b → o = .status (.ok ()) → tooLarge capacity b = true

theorem start_terms {id : String} {capacity : UInt64} {records : Table Bytes Bytes} {disk : DiskEnv}
    {policy : CostAwareEviction} {dramAllocs nodeAllocs : Stream' Bool} :
    (TwoTier.start id capacity (SsdTier.onRecords records disk) (some policy) dramAllocs
      nodeAllocs).terms.Within (terms capacity disk nodeAllocs) where
  reads := subset_rfl
  puts := by
    rintro st (hooc | hst | hst)
    · exact .inl (.inr (.inl hooc))
    · exact .inl hst
    · exact .inr hst
  takes := by
    rintro M k b ⟨hbig, hallocs, hcalls, hmemory, hm⟩
    exact .inl ⟨TwoTier.tooLarge_iff.mp hbig, hallocs, hcalls, hmemory, hm⟩
  opens := openCodes_ssd _
  sound h := h

end CostAwareEviction

/-- WRITE THROUGH: over a database that the disk tier can read, any run of public calls on a node with tiers
    `{DRAM, SSD}` and this policy, in any state of its statistics and with any failures, returns. Open, it
    acknowledges only blocks that are larger than DRAM, and those if nothing fails, and replies for the map of
    what it found and acknowledged. In the end DRAM is empty and the map is what is on disk. -/
theorem costAware_writes_through (id : String) (capacity : UInt64) (policy : CostAwareEviction)
    (records : Table Bytes Bytes) (hreadable : ReadableRecords records) (disk : DiskEnv)
    (dramAllocs nodeAllocs : Stream' Bool) (calls : List NodeCall) :
    ∃ replies, ∃ y : TwoTier SsdTier CostAwareEviction,
      run StorageNode.step
        (TwoTier.start id capacity (.onRecords records disk) (some policy) dramAllocs nodeAllocs).node calls =
          .ok (replies, y.node) ∧
      Accounts (CostAwareEviction.Replies capacity (CostAwareEviction.terms capacity disk nodeAllocs))
        (Session.record TwoTier.recordPut) { store := blocksOf records } calls replies ∧
      (∀ k, y.dram.at? k = none) ∧
      blocksOf y.ssd.db.records = follow TwoTier.recordPut (blocksOf records) calls replies := by
  let x : TwoTier SsdTier CostAwareEviction :=
    .start id capacity (.onRecords records disk) (some policy) dramAllocs nodeAllocs
  have halive : x.Alive := ⟨TwoTier.start_sound, hreadable, by simp [x, TwoTier.start]⟩
  have htracked : x.Tracked := TwoTier.tracked_of_empty rfl rfl ⟨trivial, rfl, fun k => Set.notMem_empty k⟩
  have hstart : x.levels.view = blocksOf records := funext fun k => TwoTier.view_of_tracked htracked k
  have hstep : ∀ n (s : Session (BlockKey → Option Block)) c, True →
      (∃ y : TwoTier SsdTier CostAwareEviction, n = y.node ∧ x.Evolves y ∧ y.ready = s.opened ∧
        y.levels.view = s.store) →
      Yields True (StorageNode.step n c) fun res =>
        CostAwareEviction.Replies capacity (CostAwareEviction.terms capacity disk nodeAllocs) s c res.1 ∧
          ∃ y : TwoTier SsdTier CostAwareEviction, res.2 = y.node ∧ x.Evolves y ∧
            y.ready = (s.record TwoTier.recordPut c res.1).opened ∧
            y.levels.view = (s.record TwoTier.recordPut c res.1).store := by
    rintro n ⟨opened, M⟩ c - ⟨y, rfl, hy, rfl, rfl⟩
    have hytracked := hy.tracked htracked
    obtain ⟨o, z, heq, hz, hready, hreply, hview⟩ := TwoTier.step_view hy.alive hytracked c
    have hcapacity : y.dram.stats.capacityBytes = capacity := hy.capacity
    rw [heq]
    refine ⟨⟨hreply.mono ((hy.terms htracked).trans CostAwareEviction.start_terms), ?_⟩, z, rfl,
      hy.trans hz, hready, hview⟩
    rintro k b rfl rfl
    exact hcapacity ▸ TwoTier.put_acknowledges hy.alive hytracked heq
  obtain ⟨⟨replies, n⟩, hrun, haccounts, y, rfl, hy, -, hview⟩ :=
    (run_accounts (a := { store := blocksOf records }) hstep calls (fun _ _ => trivial)
      ⟨x, rfl, .refl halive, rfl, hstart⟩).answer trivial
  have hytracked := hy.tracked htracked
  refine ⟨replies, y, hrun, haccounts, TwoTier.dram_empty hytracked, ?_⟩
  rw [Session.follow_store] at hview
  rw [← hview]
  funext k
  exact (TwoTier.view_of_tracked hytracked k).symm

/-- A block that fits the DRAM of one byte, one that does not, and a read of each. -/
def fitAndNot : List NodeCall :=
  [.openNode {}, .put ⟨1, 1, 7⟩ (oneByte 1),
    .put ⟨2, 1, 7⟩ ⟨{ numTokens := 1, modelFingerprint := 7 }, [1, 2], by decide⟩,
    .get ⟨1, 1, 7⟩ ⟨true, 1⟩ (some {}), .get ⟨2, 1, 7⟩ ⟨true, 2⟩ (some {})]

theorem costAware_writes_through_fitAndNot :
    ∃ replies, ∃ y : TwoTier SsdTier CostAwareEviction,
      run StorageNode.step (TwoTier.start "n" 1 (.onRecords ∅ {}) (some ({} : CostAwareEviction))
          (Stream'.const true) (Stream'.const true)).node fitAndNot = .ok (replies, y.node) ∧
        ∀ k, y.dram.at? k = none := by
  obtain ⟨replies, y, hrun, -, hempty, -⟩ := costAware_writes_through "n" 1 {} ∅ readable_empty {}
    (Stream'.const true) (Stream'.const true) fitAndNot
  exact ⟨replies, y, hrun, hempty⟩

end TidePool.Store
