import TidePool.Schemes.Table
import TidePool.Store.Tier

/-! The in-memory tier (`src/store/tier/dram/dram_tier.cpp`).

    `Put` makes two allocations, the copy of the block and (for a new key) the map node; their
    outcomes come from `allocs`. `Accounted` is the book-keeping invariant: `num_blocks` and
    `used_bytes` are those of the store, the latter modulo `2^64` as the counter is. -/

namespace TidePool.Store
open Schemes

structure DramTier where
  store : Table BlockKey Entry := ∅
  nextHandle : UInt64 := 1
  stats : TierStats := {}
  allocs : Stream' Bool := Stream'.const true

namespace DramTier

/-- `DramTier(capacity_bytes)`, with the allocations it will see. -/
def make (capacityBytes : UInt64) (allocs : Stream' Bool := Stream'.const true) : DramTier :=
  { stats := { capacityBytes }, allocs }

/-- `store_.find(key)`. -/
def at? (t : DramTier) (key : BlockKey) : Option Entry := AList.lookup key t.store

/-- Bytes held by the entries. -/
def totalBytes (t : DramTier) : ℕ := Table.weight (fun _ e => e.block.sizeBytes) t.store

/-- The next allocation has happened. -/
def drawn (t : DramTier) : DramTier := { t with allocs := t.allocs.tail }

def probe (t : DramTier) (key : BlockKey) : Result BlockInfo :=
  match t.at? key with
  | none => .error (.notFound key.toText)
  | some e => .ok e.info

/-- Overwrite the entry of a resident key. -/
def replaceEntry (t : DramTier) (key : BlockKey) (old : Entry) (block : Block) : DramTier :=
  let newSize := UInt64.ofNat block.sizeBytes
  let oldSize := UInt64.ofNat old.block.sizeBytes
  { t with
    store := AList.insert key ⟨block, t.nextHandle⟩ t.store
    nextHandle := t.nextHandle + 1
    stats := { t.stats with
      usedBytes := if oldSize ≤ newSize then t.stats.usedBytes + (newSize - oldSize)
        else t.stats.usedBytes - (oldSize - newSize)
      putCount := t.stats.putCount + 1 } }

/-- Add an entry for a key that has none. -/
def addEntry (t : DramTier) (key : BlockKey) (block : Block) : DramTier :=
  { t with
    store := AList.insert key ⟨block, t.nextHandle⟩ t.store
    nextHandle := t.nextHandle + 1
    stats := { t.stats with
      numBlocks := t.stats.numBlocks + 1
      usedBytes := t.stats.usedBytes + UInt64.ofNat block.sizeBytes
      putCount := t.stats.putCount + 1 } }

def put (t : DramTier) (key : BlockKey) (block : Block) : Result UInt64 × DramTier :=
  if !t.allocs.head then (.error (.outOfCapacity "DramTier::Put: block allocation failed"), t.drawn)
  else
    let t := t.drawn
    match t.at? key with
    | some old => (.ok t.nextHandle, t.replaceEntry key old block)
    | none =>
      if !t.allocs.head then (.error (.outOfCapacity "DramTier::Put: map allocation failed"), t.drawn)
      else (.ok t.nextHandle, t.drawn.addEntry key block)

/-- `misses++`. -/
def missed (t : DramTier) : DramTier := { t with stats := { t.stats with misses := t.stats.misses + 1 } }

/-- `get_count++`, `hits++`. -/
def served (t : DramTier) : DramTier :=
  { t with stats := { t.stats with getCount := t.stats.getCount + 1, hits := t.stats.hits + 1 } }

def get (t : DramTier) (key : BlockKey) (dst : MutableBuffer) (out : Option BlockView) :
    Result Unit × Option BlockView × DramTier :=
  match checkGetArgs "DramTier" dst out with
  | .error s => (.error s, clearView out, t)
  | .ok () =>
    match t.at? key with
    | none => (.error (.notFound key.toText), clearView out, t.missed)
    | some e =>
      if dst.capacity < e.block.sizeBytes then
        (.error (.outOfCapacity "DramTier::Get: dst buffer too small"), clearView out, t)
      else (.ok (), some (viewOf dst e.block), t.served)

/-- Drop the entry `e` of `key`. -/
def eraseEntry (t : DramTier) (key : BlockKey) (e : Entry) : DramTier :=
  { t with
    store := AList.erase key t.store
    stats := { t.stats with
      usedBytes := t.stats.usedBytes - UInt64.ofNat e.block.sizeBytes
      numBlocks := t.stats.numBlocks - 1
      evictCount := t.stats.evictCount + 1 } }

def evict (t : DramTier) (key : BlockKey) : Result Unit × DramTier :=
  match t.at? key with
  | none => (.error (.notFound key.toText), t)
  | some e => (.ok (), t.eraseEntry key e)

def validateEraseExisting (t : DramTier) (key : BlockKey) : Result Unit :=
  match t.at? key with
  | none => .error (.internal "DramTier::ValidateEraseExisting: key is absent")
  | some _ => .ok ()

def eraseExisting (t : DramTier) (key : BlockKey) : Except Halt DramTier :=
  match t.at? key with
  | none => .error .terminate
  | some e => .ok (t.eraseEntry key e)

def visitEntries (t : DramTier) (alloc : Bool) : List (BlockKey × BlockInfo) × Result Unit :=
  if alloc then ((Table.pairs t.store).map fun (k, e) => (k, e.info), .ok ())
  else ([], .error (.outOfCapacity "DramTier::VisitEntries allocation failed"))

end DramTier

/-- `Open`, `Close` and `IsReady` are the defaults of the base class. -/
instance : Tier DramTier where
  type _ := .dram
  openTier t := (.ok (), t)
  closeTier t := (.ok (), t)
  isReady _ := true
  probe t key := (t.probe key, t)
  put := DramTier.put
  get := DramTier.get
  evict := DramTier.evict
  validateEraseExisting := DramTier.validateEraseExisting
  eraseExisting := DramTier.eraseExisting
  visitEntries := DramTier.visitEntries
  stats := DramTier.stats

namespace DramTier

/-! ### Book-keeping -/

/-- `num_blocks` and `used_bytes` are those of the entries. -/
structure Accounted (t : DramTier) : Prop where
  numBlocks : t.stats.numBlocks = Table.size t.store
  usedBytes : t.stats.usedBytes = UInt64.ofNat t.totalBytes

/-- No allocation will fail. -/
def Calm (t : DramTier) : Prop := ∀ i, t.allocs.get i = true

theorem accounted_make (cap : UInt64) (allocs : Stream' Bool) : (make cap allocs).Accounted :=
  ⟨rfl, rfl⟩

/-- Only the counters and the allocations differ. -/
structure SameEntries (t t' : DramTier) : Prop where
  store : t'.store = t.store
  numBlocks : t'.stats.numBlocks = t.stats.numBlocks
  usedBytes : t'.stats.usedBytes = t.stats.usedBytes
  capacityBytes : t'.stats.capacityBytes = t.stats.capacityBytes
  calm : t.Calm → t'.Calm

theorem SameEntries.refl (t : DramTier) : t.SameEntries t := ⟨rfl, rfl, rfl, rfl, id⟩

theorem SameEntries.trans {t u v : DramTier} (h : t.SameEntries u) (h' : u.SameEntries v) :
    t.SameEntries v :=
  ⟨h'.store.trans h.store, h'.numBlocks.trans h.numBlocks, h'.usedBytes.trans h.usedBytes,
    h'.capacityBytes.trans h.capacityBytes, h'.calm ∘ h.calm⟩

theorem SameEntries.at? {t t' : DramTier} (h : t.SameEntries t') (k : BlockKey) :
    t'.at? k = t.at? k := by
  rw [DramTier.at?, DramTier.at?, h.store]

theorem SameEntries.totalBytes {t t' : DramTier} (h : t.SameEntries t') :
    t'.totalBytes = t.totalBytes := by
  rw [DramTier.totalBytes, DramTier.totalBytes, h.store]

theorem SameEntries.accounted {t t' : DramTier} (h : t.SameEntries t') (ha : t.Accounted) :
    t'.Accounted :=
  ⟨by rw [h.numBlocks, ha.numBlocks, h.store], by rw [h.usedBytes, ha.usedBytes, h.totalBytes]⟩

theorem sameEntries_drawn (t : DramTier) : t.SameEntries t.drawn :=
  ⟨rfl, rfl, rfl, rfl, fun h i => h (i + 1)⟩

theorem sameEntries_missed (t : DramTier) : t.SameEntries t.missed := ⟨rfl, rfl, rfl, rfl, id⟩

theorem sameEntries_served (t : DramTier) : t.SameEntries t.served := ⟨rfl, rfl, rfl, rfl, id⟩

variable {t : DramTier} {key : BlockKey} {e : Entry}

/-- An entry's bytes are part of the total. -/
theorem size_le_totalBytes (h : t.at? key = some e) : e.block.sizeBytes ≤ t.totalBytes := by
  have hle := Table.held_le_weight (fun _ e => e.block.sizeBytes) t.store key
  simpa [Table.held, totalBytes, show AList.lookup key t.store = some e from h] using hle

theorem totalBytes_eraseEntry (h : t.at? key = some e) :
    (t.eraseEntry key e).totalBytes + e.block.sizeBytes = t.totalBytes := by
  have herase := Table.weight_erase (fun _ e => e.block.sizeBytes) t.store key
  simpa [Table.held, totalBytes, eraseEntry, show AList.lookup key t.store = some e from h] using herase

theorem accounted_eraseEntry (h : t.at? key = some e) (ha : t.Accounted) :
    (t.eraseEntry key e).Accounted := by
  constructor
  · have hsize := Table.size_erase t.store key
    simp only [Table.held, show AList.lookup key t.store = some e from h, Option.elim_some] at hsize
    simp only [eraseEntry, ha.numBlocks]
    omega
  · have htotal := congrArg UInt64.ofNat (totalBytes_eraseEntry h)
    rw [UInt64.ofNat_add] at htotal
    rw [show (t.eraseEntry key e).stats.usedBytes
      = t.stats.usedBytes - UInt64.ofNat e.block.sizeBytes from rfl, ha.usedBytes, ← htotal]
    grind

theorem totalBytes_addEntry (h : t.at? key = none) (b : Block) :
    (t.addEntry key b).totalBytes = t.totalBytes + b.sizeBytes := by
  have hins := Table.weight_insert (fun _ e => e.block.sizeBytes) t.store key ⟨b, t.nextHandle⟩
  simpa [Table.held, totalBytes, addEntry, show AList.lookup key t.store = none from h] using hins

theorem accounted_addEntry (h : t.at? key = none) (b : Block) (ha : t.Accounted) :
    (t.addEntry key b).Accounted := by
  constructor
  · have hsize := Table.size_insert t.store key ⟨b, t.nextHandle⟩
    simp only [Table.held, show AList.lookup key t.store = none from h, Option.elim_none] at hsize
    simp only [addEntry, ha.numBlocks]
    omega
  · rw [totalBytes_addEntry h, UInt64.ofNat_add, ← ha.usedBytes]; rfl

theorem totalBytes_replaceEntry (h : t.at? key = some e) (b : Block) :
    (t.replaceEntry key e b).totalBytes + e.block.sizeBytes = t.totalBytes + b.sizeBytes := by
  have hins := Table.weight_insert (fun _ e => e.block.sizeBytes) t.store key ⟨b, t.nextHandle⟩
  simpa [Table.held, totalBytes, replaceEntry, show AList.lookup key t.store = some e from h] using hins

/-- Both branches of the update are `used - old + new` in the ring of `uint64_t`. -/
theorem usedBytes_replaceEntry (t : DramTier) (key : BlockKey) (e : Entry) (b : Block) :
    (t.replaceEntry key e b).stats.usedBytes
      = t.stats.usedBytes - UInt64.ofNat e.block.sizeBytes + UInt64.ofNat b.sizeBytes := by
  simp only [replaceEntry]
  split <;> grind

theorem accounted_replaceEntry (h : t.at? key = some e) (b : Block) (ha : t.Accounted) :
    (t.replaceEntry key e b).Accounted := by
  constructor
  · have hsize := Table.size_insert t.store key ⟨b, t.nextHandle⟩
    simp only [Table.held, show AList.lookup key t.store = some e from h, Option.elim_some] at hsize
    simp only [replaceEntry, ha.numBlocks]
    omega
  · have htotal := congrArg UInt64.ofNat (totalBytes_replaceEntry h b)
    rw [UInt64.ofNat_add, UInt64.ofNat_add, ← ha.usedBytes] at htotal
    rw [usedBytes_replaceEntry]
    grind

/-! ### What each call does -/

theorem at?_insert (t : DramTier) (key : BlockKey) (e : Entry) :
    (fun j => AList.lookup j (AList.insert key e t.store)) = Function.update t.at? key (some e) := by
  funext j
  simp only [Table.lookup_insert_if, Function.update_apply]
  rfl

theorem at?_eraseEntry (t : DramTier) (key : BlockKey) (e : Entry) :
    (t.eraseEntry key e).at? = Function.update t.at? key none := by
  funext j
  simp only [DramTier.at?, eraseEntry, Table.lookup_erase_if, Function.update_apply]

theorem numBlocks_eraseEntry (h : t.at? key = some e) (ha : t.Accounted) :
    (t.eraseEntry key e).stats.numBlocks + 1 = t.stats.numBlocks := by
  have hsize := Table.size_erase t.store key
  simp only [Table.held, show AList.lookup key t.store = some e from h, Option.elim_some] at hsize
  simp only [eraseEntry, ha.numBlocks]
  omega

/-- A tier whose only key may be `ex` holds just the bytes of `ex`. -/
theorem totalBytes_of_only {ex : Option BlockKey} (h : ∀ k e, t.at? k = some e → ex = some k) :
    t.totalBytes = (ex.bind t.at?).elim 0 (·.block.sizeBytes) := by
  have hempty : ∀ s : Table BlockKey Entry, (∀ k, AList.lookup k s = none) →
      Table.weight (fun _ e => e.block.sizeBytes) s = 0 := by
    intro s hs
    have hnil : Table.pairs s = [] := List.eq_nil_iff_forall_not_mem.mpr fun ⟨k, e⟩ hmem => by
      rw [Table.mem_pairs, hs k] at hmem; cases hmem
    simp [Table.weight, Table.load, hnil]
  cases ex with
  | none =>
    refine hempty t.store fun k => ?_
    cases hk : t.at? k with
    | none => exact hk
    | some e => exact absurd (h k e hk) (by simp)
  | some k₀ =>
    have herase := Table.weight_erase (fun _ e => e.block.sizeBytes) t.store k₀
    rw [hempty (AList.erase k₀ t.store) fun k => ?_, Nat.zero_add] at herase
    · exact herase.symm
    · rw [Table.lookup_erase_if]
      split
      · rfl
      · rename_i hne
        cases hk : t.at? k with
        | none => exact hk
        | some e => exact absurd (Option.some.inj (h k e hk)).symm hne

/-- `Put` fails for want of memory and changes nothing, or stores the block under a fresh handle. -/
theorem put_cases (t : DramTier) (key : BlockKey) (b : Block) :
    (∃ msg t', t.put key b = (.error (.outOfCapacity msg), t') ∧ t.SameEntries t' ∧ ¬ t.Calm) ∨
    ∃ t', t.put key b = (.ok t.nextHandle, t') ∧
      t'.at? = Function.update t.at? key (some ⟨b, t.nextHandle⟩) ∧
      t'.stats.capacityBytes = t.stats.capacityBytes ∧ (t.Calm → t'.Calm) ∧
      (t.Accounted → t'.Accounted) ∧
      t'.totalBytes + (t.at? key).elim 0 (·.block.sizeBytes) = t.totalBytes + b.sizeBytes := by
  simp only [put]
  cases hcopy : t.allocs.head with
  | false =>
    refine .inl ⟨_, _, rfl, t.sameEntries_drawn, fun hcalm => ?_⟩
    have htrue : t.allocs.head = true := hcalm 0
    rw [hcopy] at htrue; cases htrue
  | true =>
    have hsame : t.SameEntries t.drawn := t.sameEntries_drawn
    cases hold : t.at? key with
    | some old =>
      have hdrawn : t.drawn.at? key = some old := hold
      refine .inr ⟨t.drawn.replaceEntry key old b, by simp [hdrawn]; rfl,
        t.at?_insert key _, rfl, hsame.calm, fun ha => ?_, ?_⟩
      · exact accounted_replaceEntry hdrawn b (hsame.accounted ha)
      · exact totalBytes_replaceEntry hdrawn b
    | none =>
      have hdrawn : t.drawn.at? key = none := hold
      have hsame₂ : t.SameEntries t.drawn.drawn :=
        ⟨rfl, rfl, rfl, rfl, fun h => t.drawn.sameEntries_drawn.calm (hsame.calm h)⟩
      cases hnode : t.drawn.allocs.head with
      | false =>
        refine .inl ⟨_, t.drawn.drawn, by simp [hdrawn]; rfl, hsame₂, fun hcalm => ?_⟩
        have htrue : t.drawn.allocs.head = true := hcalm 1
        rw [hnode] at htrue; cases htrue
      | true =>
        have hdrawn₂ : t.drawn.drawn.at? key = none := hold
        refine .inr ⟨t.drawn.drawn.addEntry key b, by simp [hdrawn]; rfl,
          t.at?_insert key _, rfl, hsame₂.calm, fun ha => ?_, ?_⟩
        · exact accounted_addEntry hdrawn₂ b (hsame₂.accounted ha)
        · exact totalBytes_addEntry hdrawn₂ b

/-- Storing a new key and erasing it again leaves the entries as they were. -/
theorem put_undo {t' : DramTier} {h : UInt64} {b : Block} (hnew : t.at? key = none)
    (hput : t.put key b = (.ok h, t')) : t.SameEntries (t'.eraseEntry key ⟨b, h⟩) := by
  have hdrawn : t.drawn.at? key = none := hnew
  simp only [put, hdrawn] at hput
  split at hput
  · cases hput
  · split at hput
    · cases hput
    · cases hput
      refine ⟨?_, rfl, ?_, rfl, fun hc i => hc (i + 1 + 1)⟩
      · apply AList.ext
        have hkeys : key ∉ t.store.entries.keys := AList.lookup_eq_none.mp hnew
        simp [eraseEntry, addEntry, drawn, AList.erase, hkeys]
      · simp only [eraseEntry, addEntry, drawn]
        grind

/-- `EraseExisting` of a resident key drops its entry. -/
theorem eraseExisting_of_at? (h : t.at? key = some e) :
    t.eraseExisting key = .ok (t.eraseEntry key e) := by
  simp only [eraseExisting, h]

theorem validateEraseExisting_of_at? (h : t.at? key = some e) :
    t.validateEraseExisting key = .ok () := by
  simp only [validateEraseExisting, h]

/-- A read of a resident key into a buffer that fits. -/
theorem get_of_fit (h : t.at? key = some e) {dst : MutableBuffer} (hdst : dst.Valid)
    (hfit : e.block.sizeBytes ≤ dst.capacity) (view : BlockView) :
    t.get key dst (some view) = (.ok (), some (viewOf dst e.block), t.served) := by
  have hargs : checkGetArgs "DramTier" dst (some view) = .ok () := checkGetArgs_ok_iff.mpr ⟨rfl, hdst⟩
  simp [get, hargs, h, Nat.not_lt.mpr hfit]

/-- `Get` keeps the tier contract and changes counters only. -/
theorem get_spec (t : DramTier) (key : BlockKey) (dst : MutableBuffer) (out : Option BlockView) :
    ∃ r out' t', t.get key dst out = (r, out', t') ∧ t.SameEntries t' ∧
      (Result.code r, out') = getContract ((t.at? key).map (·.block)) dst out := by
  simp only [get]
  cases hargs : checkGetArgs "DramTier" dst out with
  | error s =>
    obtain ⟨hcode, hbad⟩ := checkGetArgs_error hargs
    exact ⟨.error s, _, _, rfl, .refl t, by rw [getContract_bad hbad]; simp [Result.code, hcode]⟩
  | ok _ =>
    rw [getContract_good (checkGetArgs_ok_iff.mp hargs)]
    cases hk : t.at? key with
    | none => exact ⟨_, _, _, rfl, t.sameEntries_missed, rfl⟩
    | some e =>
      by_cases hfit : dst.capacity < e.block.sizeBytes
      · simp only [hfit, if_true, Option.map_some]
        exact ⟨_, _, _, rfl, .refl t, rfl⟩
      · simp only [hfit, if_false, Option.map_some]
        exact ⟨_, _, _, rfl, t.sameEntries_served, rfl⟩

end DramTier

end TidePool.Store
