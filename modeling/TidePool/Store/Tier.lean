import Mathlib.Data.Stream.Defs
import TidePool.Api.BlockKey

/-! The storage tier interface (`include/tidepool/store/tier.h`).

    `Tier` is the abstract base class: one field per virtual method, the tier object passed along as
    explicit state. Event counters and `num_blocks` count things that happened or that sit in memory
    and are kept as `ℕ`; byte totals, capacities and handles are `uint64_t` and wrap.

    Whatever may fail for reasons outside the code (an allocation, the disk) draws its outcome from a
    stream in the object's own state, so "any pattern of failures" is "any stream". -/

namespace TidePool.Store

structure TierStats where
  numBlocks : ℕ := 0
  usedBytes : UInt64 := 0
  capacityBytes : UInt64 := 0
  putCount : ℕ := 0
  getCount : ℕ := 0
  evictCount : ℕ := 0
  hits : ℕ := 0
  misses : ℕ := 0
  deriving DecidableEq, Repr

structure BlockInfo where
  metadata : BlockMetadata
  payloadSize : ℕ
  handle : UInt64
  deriving DecidableEq, Repr

/-- A stored block and the handle its tier gave it. -/
structure Entry where
  block : Block
  handle : UInt64
  deriving DecidableEq

/-- What `Probe` says about an entry. -/
def Entry.info (e : Entry) : BlockInfo := ⟨e.block.metadata, e.block.sizeBytes, e.handle⟩

/-- `class Tier`. `out` is `none` for a null pointer; `visitEntries` takes the outcome of its own
    allocation and gives the entries it would hand to the visitor and how it ends after them. -/
class Tier (τ : Type) where
  type : τ → TierType
  openTier : τ → Result Unit × τ
  closeTier : τ → Result Unit × τ
  isReady : τ → Bool
  probe : τ → BlockKey → Result BlockInfo × τ
  put : τ → BlockKey → Block → Result UInt64 × τ
  get : τ → BlockKey → MutableBuffer → Option BlockView → Result Unit × Option BlockView × τ
  evict : τ → BlockKey → Result Unit × τ
  validateEraseExisting : τ → BlockKey → Result Unit
  eraseExisting : τ → BlockKey → Except Halt τ
  visitEntries : τ → Bool → List (BlockKey × BlockInfo) × Result Unit
  stats : τ → TierStats

/-- A tier that is one of two implementations. -/
instance {δ σ : Type} [Tier δ] [Tier σ] : Tier (δ ⊕ σ) where
  type := Sum.elim Tier.type Tier.type
  openTier := Sum.elim (fun d => (Tier.openTier d).map id .inl) fun s => (Tier.openTier s).map id .inr
  closeTier := Sum.elim (fun d => (Tier.closeTier d).map id .inl) fun s => (Tier.closeTier s).map id .inr
  isReady := Sum.elim Tier.isReady Tier.isReady
  probe t k := t.elim (fun d => (Tier.probe d k).map id .inl) fun s => (Tier.probe s k).map id .inr
  put t k b := t.elim (fun d => (Tier.put d k b).map id .inl) fun s => (Tier.put s k b).map id .inr
  get t k dst out := t.elim (fun d => (Tier.get d k dst out).map id (.map id .inl))
    fun s => (Tier.get s k dst out).map id (.map id .inr)
  evict t k := t.elim (fun d => (Tier.evict d k).map id .inl) fun s => (Tier.evict s k).map id .inr
  validateEraseExisting t k :=
    t.elim (Tier.validateEraseExisting · k) (Tier.validateEraseExisting · k)
  eraseExisting t k := t.elim (fun d => (Tier.eraseExisting d k).map .inl)
    fun s => (Tier.eraseExisting s k).map .inr
  visitEntries t alloc := t.elim (Tier.visitEntries · alloc) (Tier.visitEntries · alloc)
  stats := Sum.elim Tier.stats Tier.stats

/-! ### The `Get` contract -/

/-- The argument checks `DramTier::Get` and `SsdTier::Get` start with. -/
def checkGetArgs (tier : String) (dst : MutableBuffer) (out : Option BlockView) : Result Unit :=
  if out.isNone then .error (.invalidArgument (tier ++ "::Get: out is null"))
  else if !dst.data && dst.capacity != 0 then
    .error (.invalidArgument (tier ++ "::Get: dst.data is null with non-zero capacity"))
  else .ok ()

/-- Every `Get` clears `*out` first. -/
def clearView (out : Option BlockView) : Option BlockView := out.map fun _ => {}

/-- The view of a block copied into `dst`. -/
def viewOf (dst : MutableBuffer) (b : Block) : BlockView := ⟨dst.data, b.data, b.metadata⟩

theorem checkGetArgs_ok_iff {tier : String} {dst : MutableBuffer} {out : Option BlockView} :
    checkGetArgs tier dst out = .ok () ↔ out.isSome ∧ dst.Valid := by
  obtain ⟨data, capacity⟩ := dst
  cases out <;> cases data <;> simp [checkGetArgs, MutableBuffer.Valid]

theorem checkGetArgs_error {tier : String} {dst : MutableBuffer} {out : Option BlockView} {s : Status}
    (h : checkGetArgs tier dst out = .error s) :
    s.code = .invalidArgument ∧ (out.isNone ∨ ¬ dst.Valid) := by
  have hbad : ¬ (out.isSome ∧ dst.Valid) := fun hgood => by
    rw [checkGetArgs_ok_iff.mpr hgood] at h; cases h
  refine ⟨?_, by cases out <;> simp_all⟩
  simp only [checkGetArgs] at h
  split at h
  · cases h; rfl
  · split at h
    · cases h; rfl
    · cases h

/-- SPEC: what a read of `stored` into `dst` must return (tier.h, `Get`): the status code and `*out`. -/
def getContract (stored : Option Block) (dst : MutableBuffer) (out : Option BlockView) :
    StatusCode × Option BlockView :=
  if out.isNone ∨ ¬ dst.Valid then (.invalidArgument, clearView out)
  else match stored with
    | none => (.notFound, clearView out)
    | some b =>
      if dst.capacity < b.sizeBytes then (.outOfCapacity, clearView out)
      else (.ok, some (viewOf dst b))

section GetContract

variable {dst : MutableBuffer} {out : Option BlockView} {stored : Option Block} {b : Block}

theorem getContract_bad (h : out.isNone ∨ ¬ dst.Valid) :
    getContract stored dst out = (.invalidArgument, clearView out) := if_pos h

theorem getContract_good (h : out.isSome ∧ dst.Valid) :
    getContract stored dst out = match stored with
      | none => (.notFound, clearView out)
      | some b =>
        if dst.capacity < b.sizeBytes then (.outOfCapacity, clearView out)
        else (.ok, some (viewOf dst b)) := by
  refine if_neg ?_
  rintro (hn | hv)
  · simp [Option.isNone_iff_eq_none.mp hn] at h
  · exact hv h.2

/-- A read succeeds only on a stored block that fits. -/
theorem getContract_ok_iff {view : Option BlockView} :
    getContract stored dst out = (.ok, view) ↔
      (out.isSome ∧ dst.Valid) ∧ ∃ b, stored = some b ∧ b.sizeBytes ≤ dst.capacity ∧
        view = some (viewOf dst b) := by
  by_cases hgood : out.isSome ∧ dst.Valid
  · rw [getContract_good hgood]
    cases stored with
    | none => simp
    | some b =>
      by_cases hfit : dst.capacity < b.sizeBytes
      · simp [hfit]
      · simp only [hfit, if_false, Prod.mk.injEq, true_and, hgood, and_self, Option.some.injEq,
          exists_eq_left', not_lt.mp hfit, eq_comm]
  · have hbad : out.isNone ∨ ¬ dst.Valid := by
      rcases not_and_or.mp hgood with h | h
      · exact .inl (by simpa using h)
      · exact .inr h
    rw [getContract_bad hbad]
    simp [hgood]

/-- A read that fails leaves the view cleared. -/
theorem getContract_cleared (h : (getContract stored dst out).1 ≠ .ok) :
    (getContract stored dst out).2 = clearView out := by
  simp only [getContract] at h ⊢
  split
  · rfl
  · rename_i hgood
    rw [if_neg hgood] at h
    cases stored with
    | none => rfl
    | some b =>
      by_cases hfit : dst.capacity < b.sizeBytes
      · simp only [hfit, if_true]
      · simp [hfit] at h

theorem clearView_clearView : clearView (clearView out) = clearView out := by
  cases out <;> rfl

/-- The contract does not look at what `*out` holds. -/
theorem getContract_clearView : getContract stored dst (clearView out) = getContract stored dst out := by
  cases out <;> rfl

/-- The contract knows four codes. -/
theorem getContract_code (stored : Option Block) (dst : MutableBuffer) (out : Option BlockView) :
    (getContract stored dst out).1 ∈
    [StatusCode.ok, .invalidArgument, .notFound, .outOfCapacity] := by
  simp only [getContract]
  split
  · simp
  · split
    · simp
    · split <;> simp

end GetContract

/-- SPEC: the counters after a `Get` that returns this code. -/
def countGet (stats : TierStats) : StatusCode → TierStats
  | .ok => { stats with getCount := stats.getCount + 1, hits := stats.hits + 1 }
  | .notFound => { stats with misses := stats.misses + 1 }
  | _ => stats

/-! ### Runs of a tier -/

/-- The calls of a tier's user. -/
inductive TierCall where
  | openTier
  | closeTier
  | probe (key : BlockKey)
  | put (key : BlockKey) (block : Block)
  | get (key : BlockKey) (dst : MutableBuffer) (out : Option BlockView)
  | evict (key : BlockKey)

/-- What a call returns. -/
inductive TierReply where
  | status (r : Result Unit)
  | info (r : Result BlockInfo)
  | handle (r : Result UInt64)
  | view (r : Result Unit) (out : Option BlockView)

/-- One call. -/
def tierStep {τ : Type} [Tier τ] (t : τ) : TierCall → Except Halt (TierReply × τ)
  | .openTier => .ok (.status (Tier.openTier t).1, (Tier.openTier t).2)
  | .closeTier => .ok (.status (Tier.closeTier t).1, (Tier.closeTier t).2)
  | .probe key => .ok (.info (Tier.probe t key).1, (Tier.probe t key).2)
  | .put key block => .ok (.handle (Tier.put t key block).1, (Tier.put t key block).2)
  | .get key dst out =>
    .ok (.view (Tier.get t key dst out).1 (Tier.get t key dst out).2.1, (Tier.get t key dst out).2.2)
  | .evict key => .ok (.status (Tier.evict t key).1, (Tier.evict t key).2)

end TidePool.Store
