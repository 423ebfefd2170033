import TidePool.Schemes.Table
import TidePool.Api.BlockKey

/-! The node-local directory (`src/store/index/local_index.cpp`): which tier holds a key, under which
    handle. The table forgets its enumeration order, so equal lookups make equal indexes.

    `Upsert` and `InsertIfAbsent` take the outcome of their allocation. `RelocateExisting` and
    `RemoveExisting` terminate when their preflight was skipped. -/

namespace TidePool.Store
open Schemes

@[ext] structure LocalIndex where
  table : Dict BlockKey Location := ∅

namespace LocalIndex

/-- The entry of a key, if it has one. -/
def at? (ix : LocalIndex) (key : BlockKey) : Option Location := ix.table.lookup key

/-- `table_[key] = loc`. -/
def set (ix : LocalIndex) (key : BlockKey) (loc : Location) : LocalIndex := ⟨ix.table.insert key loc⟩

/-- `table_.erase(key)`. -/
def drop (ix : LocalIndex) (key : BlockKey) : LocalIndex := ⟨ix.table.erase key⟩

def upsert (ix : LocalIndex) (alloc : Bool) (key : BlockKey) (loc : Location) :
    Result Unit × LocalIndex :=
  if alloc then (.ok (), ix.set key loc)
  else (.error (.outOfCapacity "LocalIndex::Upsert allocation failed"), ix)

def insertIfAbsent (ix : LocalIndex) (alloc : Bool) (key : BlockKey) (loc : Location) :
    Result Unit × LocalIndex :=
  if (ix.at? key).isSome then (.ok (), ix)
  else if alloc then (.ok (), ix.set key loc)
  else (.error (.outOfCapacity "LocalIndex::InsertIfAbsent allocation failed"), ix)

def validateRelocate (ix : LocalIndex) (key : BlockKey) (expectedTier : TierType) : Result Unit :=
  match ix.at? key with
  | none => .error (.notFound key.toText)
  | some loc =>
    if loc.tier ≠ expectedTier then
      .error (.internal "LocalIndex::ValidateRelocate: current tier does not match expected tier")
    else .ok ()

def relocateExisting (ix : LocalIndex) (key : BlockKey) (expectedTier newTier : TierType)
    (newHandle : UInt64) : Except Halt LocalIndex :=
  match ix.at? key with
  | none => .error .terminate
  | some loc =>
    if loc.tier ≠ expectedTier then .error .terminate
    else .ok (ix.set key { loc with tier := newTier, handle := newHandle })

def find (ix : LocalIndex) (key : BlockKey) : Result Location :=
  match ix.at? key with
  | none => .error (.notFound key.toText)
  | some loc => .ok loc

def remove (ix : LocalIndex) (key : BlockKey) : Result Unit × LocalIndex :=
  match ix.at? key with
  | none => (.error (.notFound key.toText), ix)
  | some _ => (.ok (), ix.drop key)

def removeExisting (ix : LocalIndex) (key : BlockKey) : Except Halt LocalIndex :=
  match ix.at? key with
  | none => .error .terminate
  | some _ => .ok (ix.drop key)

def contains (ix : LocalIndex) (key : BlockKey) : Bool := (ix.at? key).isSome

@[simp] theorem at?_empty (key : BlockKey) : ({} : LocalIndex).at? key = none := by
  simp [at?]

theorem at?_set (ix : LocalIndex) (key j : BlockKey) (loc : Location) :
    (ix.set key loc).at? j = if j = key then some loc else ix.at? j :=
  Dict.lookup_insert_if _ _ _ _

theorem at?_drop (ix : LocalIndex) (key j : BlockKey) :
    (ix.drop key).at? j = if j = key then none else ix.at? j :=
  Dict.lookup_erase_if _ _ _

/-- Equal lookups make equal indexes. -/
theorem ext_at? {a b : LocalIndex} (h : ∀ k, a.at? k = b.at? k) : a = b :=
  LocalIndex.ext (Finmap.ext_lookup h)

/-- Entering an absent key and dropping it again changes nothing. -/
theorem drop_set {ix : LocalIndex} {key : BlockKey} (h : ix.at? key = none) (loc : Location) :
    (ix.set key loc).drop key = ix := by
  refine ext_at? fun k => ?_
  rw [at?_drop, at?_set]
  split
  · rename_i hk; rw [hk, h]
  · rfl

/-- The preflight answers `Ok` exactly when the commit it guards does not terminate. -/
theorem validateRelocate_ok_iff {ix : LocalIndex} {key : BlockKey} {tier : TierType} :
    ix.validateRelocate key tier = .ok () ↔ ∃ loc, ix.at? key = some loc ∧ loc.tier = tier := by
  simp only [validateRelocate]
  split
  · simp [*]
  · rename_i loc hloc
    by_cases h : loc.tier = tier <;> simp [hloc, h]

theorem relocateExisting_of_at? {ix : LocalIndex} {key : BlockKey} {loc : Location}
    (h : ix.at? key = some loc) (newTier : TierType) (newHandle : UInt64) :
    ix.relocateExisting key loc.tier newTier newHandle =
      .ok (ix.set key { loc with tier := newTier, handle := newHandle }) := by
  simp [relocateExisting, h]

end LocalIndex

end TidePool.Store
