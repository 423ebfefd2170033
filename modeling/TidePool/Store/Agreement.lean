import TidePool.Store.Refinement

/-! Index, tiers and policy agree, and the commit phase cannot abort.

    Both are read off the invariant of the public calls: `Coherent` says that the index is what the
    tiers hold, `Tracked` that the policy knows exactly the DRAM keys and holds no reservation, and a
    tracked node never halts. Nothing here depends on which calls failed. -/

namespace TidePool.Store
open Schemes

/-- The keys a policy takes for resident: the LRU list, or `T1` and `T2` of ARC. -/
def residents : LruEviction ⊕ ArcEviction → List BlockKey
  | .inl l => l.order
  | .inr a => a.lists .t1 ++ a.lists .t2

/-- The victim a policy has selected and neither committed nor cancelled. -/
def reservation : LruEviction ⊕ ArcEviction → Option BlockKey
  | .inl l => l.reserved
  | .inr a => a.reserved.map Prod.fst

/-- The four structures of an open node with DRAM capacity `cap` agree. -/
structure Agrees (cap : UInt64) (x : TwoTier MapTier Policy) : Prop where
  /-- The index names DRAM exactly for the keys in the DRAM store ... -/
  names_dram : ∀ k, (∃ loc, x.index.at? k = some loc ∧ loc.tier = .dram) ↔ x.dram.at? k ≠ none
  /-- ... and SSD, the only other tier it names, only for keys in the SSD store. -/
  names_ssd : ∀ k loc, x.index.at? k = some loc → loc.tier ≠ .dram →
    loc.tier = .ssd ∧ x.ssd.at? k ≠ none
  keys : ∀ k, x.index.at? k ≠ none ↔ x.dram.at? k ≠ none ∨ x.ssd.at? k ≠ none
  handle_dram : ∀ k loc, x.index.at? k = some loc → loc.tier = .dram →
    (x.dram.at? k).map (·.handle) = some loc.handle
  handle_ssd : ∀ k loc, x.index.at? k = some loc → loc.tier = .ssd →
    (x.ssd.at? k).map (·.handle) = some loc.handle
  tracked : ∃ p, x.policy = some p ∧ (∀ k, k ∈ residents p.policy ↔ x.dram.at? k ≠ none) ∧
    reservation p.policy = none
  numBlocks : x.dram.stats.numBlocks = Table.size x.dram.store
  usedBytes : x.dram.totalBytes < UInt64.size → x.dram.stats.usedBytes.toNat = x.dram.totalBytes
  bounded : cap ≠ 0 → x.dram.stats.usedBytes ≤ cap

theorem mem_residents (p : LruEviction ⊕ ArcEviction) (k : BlockKey) :
    k ∈ residents p ↔ k ∈ PolicyView.resident p := by
  rcases p with l | a
  · rfl
  · exact List.mem_append

theorem reservation_eq (p : LruEviction ⊕ ArcEviction) : reservation p = PolicyView.reserved p := by
  rcases p with l | a <;> rfl

namespace TwoTier

variable {x : TwoTier MapTier Policy}

/-- The handle in the index is the one the primary has. -/
theorem Coherent.primary_handle (hx : x.Coherent) {k : BlockKey} {loc : Location}
    (hk : x.index.at? k = some loc) :
    (loc.tier = .dram → (x.dram.at? k).map (·.handle) = some loc.handle) ∧
      (loc.tier = .ssd → (x.ssd.at? k).map (·.handle) = some loc.handle) := by
  rw [hx.index, primary] at hk
  cases hd : x.dram.at? k with
  | some e =>
    simp only [hd, Option.some.injEq] at hk
    subst hk
    simp
  | none =>
    simp only [hd] at hk
    obtain ⟨e, he, rfl⟩ := Option.map_eq_some_iff.mp hk
    exact ⟨by simp, fun _ => congrArg (Option.map (·.handle)) he⟩

theorem Coherent.index_ne_none (hx : x.Coherent) (k : BlockKey) :
    x.index.at? k ≠ none ↔ x.dram.at? k ≠ none ∨ x.ssd.at? k ≠ none := by
  rw [hx.index, primary, show ColdView.contents x.ssd k = x.ssd.at? k from rfl]
  cases x.dram.at? k <;> simp

/-- The invariant, spelled out. -/
theorem Coherent.agrees (hx : x.Coherent) (ht : x.Tracked) : Agrees x.dram.stats.capacityBytes x where
  names_dram k := by
    constructor
    · rintro ⟨loc, hk, hloc⟩
      obtain ⟨e, he⟩ := hx.dram_of_index hk hloc
      simp [he]
    · intro hk
      obtain ⟨e, he⟩ := Option.ne_none_iff_exists'.mp hk
      exact ⟨_, hx.index_dram he, rfl⟩
  names_ssd k loc hk hloc := by
    obtain ⟨-, hssd, e, he⟩ := hx.ssd_of_index hk hloc
    exact ⟨hssd, Option.ne_none_iff_exists'.mpr ⟨e, he⟩⟩
  keys := hx.index_ne_none
  handle_dram k loc hk := (hx.primary_handle hk).1
  handle_ssd k loc hk := (hx.primary_handle hk).2
  tracked := by
    obtain ⟨p, hp, -, hfree, htrack⟩ := ht
    exact ⟨p, hp, fun k => (mem_residents p.policy k).trans (htrack k),
      (reservation_eq p.policy).trans hfree⟩
  numBlocks := hx.accounted.numBlocks
  usedBytes h := by rw [hx.accounted.usedBytes, UInt64.toNat_ofNat_of_lt' h]
  bounded hcap := by
    rw [UInt64.le_iff_toNat_le, hx.toSound.used_eq hcap]
    exact hx.bounded hcap

end TwoTier

/-- AGREE: after any sequence of public calls, whichever writes, allocations and inserts failed, the
    structures of an open node agree. -/
theorem structures_agree (id : String) (capacity : UInt64) (ssd : MapTier) (choice : PolicyChoice)
    (env : Surroundings) (calls : List NodeCall) :
    ∃ replies x, run StorageNode.step (TwoTier.fresh id capacity ssd choice env).node calls =
      .ok (replies, x.node) ∧ (x.ready = true → Agrees capacity x) := by
  have hrun := TwoTier.run_step_spec (x := TwoTier.fresh id capacity ssd choice env)
    (TwoTier.fresh_alive trivial) rfl calls
  obtain ⟨⟨replies, n⟩, heq, ⟨x, rfl, hx⟩, -⟩ := hrun.answer TwoTier.fresh_tracked
  refine ⟨replies, x, heq, fun hready => ?_⟩
  have hagrees := (hx.alive.coherent hready).agrees (hx.tracked TwoTier.fresh_tracked)
  rwa [hx.capacity] at hagrees

/-- A status that a failing SSD call or policy insert was given. -/
def Injected (ssd : MapTier) (env : Surroundings) (s : Status) : Prop :=
  (∃ i, ssd.puts.get i = .error s) ∨ (∃ i, ssd.getFaults.get i = some s) ∨
    ∃ i, env.insertFaults.get i = some s

/-- The faults of a fresh node are the injected ones. -/
theorem injected_of_faults {id : String} {capacity : UInt64} {ssd : MapTier} {choice : PolicyChoice}
    {env : Surroundings} {s : Status} (h : s ∈ (TwoTier.fresh id capacity ssd choice env).faults) :
    Injected ssd env s := by
  rcases h with (h | h) | h
  · exact .inl h
  · exact .inr (.inl h)
  · exact .inr (.inr ((choice.make_faults env).subset h))

/-- NO ABORT: no sequence of public calls halts (every `std::terminate` of the commit phase is a halt),
    and an `Internal` error is only ever passed on from a failing tier or policy. -/
theorem commit_never_aborts (id : String) (capacity : UInt64) (ssd : MapTier) (choice : PolicyChoice)
    (env : Surroundings) (calls : List NodeCall) :
    ∃ replies n, run StorageNode.step (TwoTier.fresh id capacity ssd choice env).node calls =
      .ok (replies, n) ∧
      ∀ o ∈ replies, ∀ s, o.error? = some s → s.code = .internal → Injected ssd env s := by
  have hrun := TwoTier.run_step_spec (x := TwoTier.fresh id capacity ssd choice env)
    (TwoTier.fresh_alive trivial) rfl calls
  obtain ⟨⟨replies, n⟩, heq, -, hwhy⟩ := hrun.answer TwoTier.fresh_tracked
  exact ⟨replies, n, heq, fun o ho s hs hcode =>
    injected_of_faults (hwhy o ho TwoTier.fresh_tracked s hs hcode)⟩

end TidePool.Store
