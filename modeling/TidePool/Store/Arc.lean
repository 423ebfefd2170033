import Mathlib.Algebra.Order.Ring.Rat
import Mathlib.Data.List.Nodup
import TidePool.Schemes.Table
import TidePool.Store.EvictionPolicy

/-! Adaptive replacement (`src/store/eviction/arc_eviction.cpp`), counted in blocks.

    T1 and T2 hold resident keys, B1 and B2 remember evicted ones; in each list the front is the most
    recent. `pos_` names the list of every known key (its iterator is not needed: a key occurs once).
    `p`, a `double` in the source, is an exact rational here.

        OnAccess / OnInsert   known key  -> front of T2 (a ghost hit also moves p)
                              new key    -> front of T1, trimming a ghost
        CommitVictim          T1 -> front of B1,  T2 -> front of B2 -/

namespace TidePool.Store
open Schemes

/-- `enum class List`; `kNone` is an absent value. -/
inductive ArcList where
  | t1 | t2 | b1 | b2
  deriving DecidableEq, Repr

structure ArcEviction where
  c : ℕ
  p : ℚ := 0
  lastHitInB2 : Bool := false
  lists : ArcList → List BlockKey := fun _ => []
  pos : Dict BlockKey ArcList := ∅
  reserved : Option (BlockKey × ArcList) := none
  allocs : Stream' Bool := Stream'.const true

namespace ArcEviction

/-- `ArcEviction(capacity_blocks)`, with the allocations it will see. -/
def make (capacityBlocks : ℕ) (allocs : Stream' Bool := Stream'.const true) : ArcEviction :=
  { c := if capacityBlocks = 0 then 1 else capacityBlocks, allocs }

/-- `Relink`: every caller splices to the front of `dst`. -/
def relink (a : ArcEviction) (key : BlockKey) (dst : ArcList) : Except Halt ArcEviction :=
  match a.pos.lookup key with
  | none => .error .terminate
  | some src =>
    let unlinked := Function.update a.lists src ((a.lists src).erase key)
    .ok { a with
      lists := Function.update unlinked dst (key :: unlinked dst)
      pos := a.pos.insert key dst }

def pushFront (a : ArcEviction) (key : BlockKey) (dst : ArcList) : Result Unit × ArcEviction :=
  if !a.allocs.head then
    (.error (.outOfCapacity "ARC insert allocation failed"), { a with allocs := a.allocs.tail })
  else
    let a' := { a with allocs := a.allocs.tail.tail }
    if !a.allocs.tail.head then (.error (.outOfCapacity "ARC insert allocation failed"), a')
    else if (a.pos.lookup key).isSome then
      (.error (.internal "ARC insert found an unexpected duplicate"), a')
    else
      (.ok (), { a' with
        lists := Function.update a.lists dst (key :: a.lists dst)
        pos := a.pos.insert key dst })

def eraseLru (a : ArcEviction) (l : ArcList) : ArcEviction :=
  match (a.lists l).getLast? with
  | none => a
  | some back => { a with
      pos := a.pos.erase back
      lists := Function.update a.lists l (a.lists l).dropLast }

/-- `max(|num| / |den|, 1)`, `1` when `den` is empty. -/
def ratio (num den : List BlockKey) : ℚ :=
  if den.isEmpty then 1 else max ((num.length : ℚ) / den.length) 1

def adaptUp (a : ArcEviction) : ArcEviction :=
  { a with p := min (a.c : ℚ) (a.p + ratio (a.lists .b2) (a.lists .b1)) }

def adaptDown (a : ArcEviction) : ArcEviction :=
  { a with p := max 0 (a.p - ratio (a.lists .b1) (a.lists .b2)) }

/-- The use of a known key: Case I for a resident, Cases II and III for a ghost. -/
def useKnown (a : ArcEviction) (key : BlockKey) : ArcList → Except Halt ArcEviction
  | .t1 | .t2 => a.relink key .t2
  | .b1 => { a.adaptUp with lastHitInB2 := false }.relink key .t2
  | .b2 => { a.adaptDown with lastHitInB2 := true }.relink key .t2

def onAccess (a : ArcEviction) (key : BlockKey) : Except Halt ArcEviction :=
  match a.pos.lookup key with
  | none => .ok { a with lastHitInB2 := false }
  | some l => if a.reserved.map Prod.fst = some key then .ok a else a.useKnown key l

/-- Sizes are `size_t`: the product `2 * c_` wraps. -/
def ghostToTrimForInsert (a : ArcEviction) : Option ArcList :=
  let l1 := (a.lists .t1).length + (a.lists .b1).length
  if l1 = a.c then
    if (a.lists .t1).length < a.c then some .b1 else none
  else if l1 < a.c then
    let total := (a.lists .t1).length + (a.lists .t2).length
      + (a.lists .b1).length + (a.lists .b2).length
    if total ≥ 2 * a.c % UInt64.size then some .b2 else none
  else none

def onInsert (a : ArcEviction) (key : BlockKey) : Except Halt (Result Unit × ArcEviction) :=
  match a.pos.lookup key with
  | some l =>
    if a.reserved.map Prod.fst = some key then
      .ok (.error (.invalidArgument "ARC cannot insert its reserved victim"), a)
    else (a.useKnown key l).map fun a' => (.ok (), a')
  | none =>
    -- Case IV: choose the ghost to trim before the push, trim it after
    let trim := a.ghostToTrimForInsert
    match a.pushFront key .t1 with
    | (.error s, a') => .ok (.error s, a')
    | (.ok (), a') => .ok (.ok (), { trim.elim a' a'.eraseLru with lastHitInB2 := false })

def onRemove (a : ArcEviction) (key : BlockKey) : ArcEviction :=
  match a.pos.lookup key with
  | none => a
  | some l => { a with
      reserved := if a.reserved.map Prod.fst = some key then none else a.reserved
      lists := Function.update a.lists l ((a.lists l).erase key)
      pos := a.pos.erase key }

/-- `choose`: the least recent key of a list that is not excluded. -/
def choose (a : ArcEviction) (excluded : Option BlockKey) (source : ArcList) :
    Option (BlockKey × ArcList) :=
  ((a.lists source).reverse.find? fun k => excluded ≠ some k).map fun k => (k, source)

/-- The REPLACE rule: whether the victim comes from T1. -/
def useT1 (a : ArcEviction) : Bool :=
  if (a.lists .t1).isEmpty then false
  else if (a.lists .t2).isEmpty then true
  else if a.lastHitInB2 then decide (((a.lists .t1).length : ℚ) ≥ a.p)
  else decide (((a.lists .t1).length : ℚ) > a.p)

def selectVictim (a : ArcEviction) (excluded : Option BlockKey) : Result BlockKey × ArcEviction :=
  if a.reserved.isSome then (.error (.alreadyExists "ARC already has a reserved victim"), a)
  else if (a.lists .t1).isEmpty && (a.lists .t2).isEmpty then
    (.error (.notFound "ARC has no resident victim"), a)
  else
    let (first, second) := if a.useT1 then (ArcList.t1, ArcList.t2) else (.t2, .t1)
    match (a.choose excluded first).or (a.choose excluded second) with
    | none => (.error (.notFound "ARC has no unpinned resident victim"), a)
    | some reservation => (.ok reservation.1, { a with reserved := some reservation })

def validateVictimCommit (a : ArcEviction) (key : BlockKey) : Result Unit :=
  match a.reserved with
  | none => .error (.invalidArgument "ARC commit does not match the reserved victim")
  | some (k, source) =>
    if k ≠ key then .error (.invalidArgument "ARC commit does not match the reserved victim")
    else if a.pos.lookup key ≠ some source then
      .error (.internal "ARC reserved victim is not in its resident source list")
    else .ok ()

/-- The ghost list a victim from `source` goes to. -/
def ghostOf (source : ArcList) : ArcList := if source = .t1 then .b1 else .b2

def commitVictim (a : ArcEviction) (key : BlockKey) : Except Halt ArcEviction :=
  match a.validateVictimCommit key, a.reserved with
  | .ok (), some (_, source) =>
    (a.relink key (ghostOf source)).map fun a' => { a' with reserved := none, lastHitInB2 := false }
  | _, _ => .error .terminate

def cancelVictim (a : ArcEviction) (key : BlockKey) : Result Unit × ArcEviction :=
  if a.reserved.map Prod.fst ≠ some key then
    (.error (.invalidArgument "ARC cancel does not match the reserved victim"), a)
  else (.ok (), { a with reserved := none })

/-- `OnPromotionCommitted` is `OnInsert`; both ignore the size. -/
instance : EvictionPolicy ArcEviction where
  onAccess := onAccess
  onInsert a key _ := a.onInsert key
  onPromotionCommitted a key _ := a.onInsert key
  onRemove := onRemove
  selectVictim := selectVictim
  validateVictimCommit := validateVictimCommit
  commitVictim := commitVictim
  cancelVictim := cancelVictim

/-! ### The representation invariant -/

/-- The lists have no duplicates and `pos` names the list of each key, so no two lists share one. -/
structure Linked (lists : ArcList → List BlockKey) (pos : BlockKey → Option ArcList) : Prop where
  nodup : ∀ l, (lists l).Nodup
  pos : ∀ k l, pos k = some l ↔ k ∈ lists l

structure WellFormed (a : ArcEviction) : Prop where
  linked : Linked a.lists fun k => a.pos.lookup k
  reserved : ∀ k l, a.reserved = some (k, l) → (l = .t1 ∨ l = .t2) ∧ k ∈ a.lists l
  p_nonneg : 0 ≤ a.p
  p_le : a.p ≤ a.c

instance : PolicyView ArcEviction where
  Wf := WellFormed
  resident a := { k | k ∈ a.lists .t1 ∨ k ∈ a.lists .t2 }
  reserved a := a.reserved.map Prod.fst
  Reliable a := ∀ i, a.allocs.get i = true
  faults _ := ∅

theorem wellFormed_make (c : ℕ) (allocs : Stream' Bool) : (make c allocs).WellFormed where
  linked := ⟨by simp [make], by simp [make]⟩
  reserved := by simp [make]
  p_nonneg := le_rfl
  p_le := by simp only [make]; split <;> simp

theorem make_law (c : ℕ) (allocs : Stream' Bool) : PolicyView.Wf (make c allocs) ∧
    PolicyView.reserved (make c allocs) = none ∧ ∀ k, k ∉ PolicyView.resident (make c allocs) := by
  refine ⟨wellFormed_make c allocs, rfl, fun k hk => ?_⟩
  rcases hk with h | h <;> exact absurd h List.not_mem_nil

section Linked

variable {lists : ArcList → List BlockKey} {pos pos' : BlockKey → Option ArcList} {k : BlockKey}

/-- Take `k` out of its list. -/
theorem Linked.unlink (h : Linked lists pos) {src : ArcList} (hk : pos k = some src)
    (hpos : ∀ j, pos' j = if j = k then none else pos j) :
    Linked (Function.update lists src ((lists src).erase k)) pos' where
  nodup l := by
    by_cases hl : l = src
    · subst hl; simpa using (h.nodup l).erase k
    · simpa [hl] using h.nodup l
  pos j l := by
    rw [hpos]
    by_cases hj : j = k
    · subst hj
      by_cases hl : l = src
      · subst hl; simp [(h.nodup l).not_mem_erase]
      · have hne : j ∉ lists l := fun hm => hl (Option.some.inj (((h.pos j l).mpr hm).symm.trans hk))
        simp [hl, hne]
    · by_cases hl : l = src
      · subst hl; simp [hj, List.mem_erase_of_ne hj, h.pos]
      · simp [hj, hl, h.pos]

/-- Put an unknown key in front of a list. -/
theorem Linked.link (h : Linked lists pos) (hk : pos k = none) (dst : ArcList)
    (hpos : ∀ j, pos' j = if j = k then some dst else pos j) :
    Linked (Function.update lists dst (k :: lists dst)) pos' where
  nodup l := by
    by_cases hl : l = dst
    · subst hl
      have hnot : k ∉ lists l := fun hm => by
        have hsome := (h.pos k l).mpr hm
        rw [hk] at hsome; cases hsome
      simpa [hnot] using h.nodup l
    · simpa [hl] using h.nodup l
  pos j l := by
    rw [hpos]
    by_cases hj : j = k
    · subst hj
      have hnot : j ∉ lists l := fun hm => by
        have hsome := (h.pos j l).mpr hm
        rw [hk] at hsome; cases hsome
      by_cases hl : l = dst
      · subst hl; simp
      · simp [hl, hnot, Ne.symm hl]
    · by_cases hl : l = dst
      · subst hl; simp [hj, h.pos]
      · simp [hj, hl, h.pos]

theorem Linked.mem_congr {lists' : ArcList → List BlockKey} (h : Linked lists pos)
    (h' : Linked lists' pos') {j : BlockKey} (hj : pos' j = pos j) (l : ArcList) :
    j ∈ lists' l ↔ j ∈ lists l := by
  rw [← h.pos, ← h'.pos, hj]

end Linked

variable {a : ArcEviction} {k : BlockKey}

/-- `Relink` finds a known key and moves it, and nothing else. -/
theorem relink_spec (h : Linked a.lists fun j => a.pos.lookup j) {src : ArcList}
    (hk : a.pos.lookup k = some src) (dst : ArcList) :
    ∃ lists pos, a.relink k dst = .ok { a with lists, pos } ∧
      (Linked lists fun j => pos.lookup j) ∧
      ∀ j, pos.lookup j = if j = k then some dst else a.pos.lookup j := by
  let unlinked := Function.update a.lists src ((a.lists src).erase k)
  refine ⟨Function.update unlinked dst (k :: unlinked dst), a.pos.insert k dst,
    by simp only [relink, hk, unlinked], ?_, fun j => Dict.lookup_insert_if _ _ _ _⟩
  have hout : Linked _ (fun j => if j = k then none else a.pos.lookup j) := h.unlink hk fun _ => rfl
  refine hout.link (by simp) dst fun j => ?_
  rw [Dict.lookup_insert_if]
  split <;> rfl

theorem kept_of_wellFormed {a' : ArcEviction} (h : a'.WellFormed)
    (ha : ∃ n, a'.allocs = a.allocs.drop n) : PolicyKept a a' where
  wf := h
  faults := subset_rfl
  reliable := by
    obtain ⟨n, hn⟩ := ha
    intro hr i
    rw [hn]
    exact hr _

/-- Residents in terms of `pos`. -/
theorem mem_resident (h : Linked a.lists fun j => a.pos.lookup j) {j : BlockKey} :
    j ∈ PolicyView.resident a ↔ a.pos.lookup j = some .t1 ∨ a.pos.lookup j = some .t2 := by
  rw [h.pos, h.pos]; rfl

theorem ratio_pos (num den : List BlockKey) : 0 ≤ ratio num den := by
  simp only [ratio]
  split
  · exact zero_le_one
  · exact le_max_of_le_right zero_le_one

theorem wellFormed_flag (h : a.WellFormed) (flag : Bool) : WellFormed { a with lastHitInB2 := flag } :=
  ⟨h.linked, h.reserved, h.p_nonneg, h.p_le⟩

theorem wellFormed_adaptUp (h : a.WellFormed) (flag : Bool) :
    WellFormed { a.adaptUp with lastHitInB2 := flag } where
  linked := h.linked
  reserved := h.reserved
  p_nonneg := le_min (Nat.cast_nonneg _) (add_nonneg h.p_nonneg (ratio_pos _ _))
  p_le := min_le_left _ _

theorem wellFormed_adaptDown (h : a.WellFormed) (flag : Bool) :
    WellFormed { a.adaptDown with lastHitInB2 := flag } where
  linked := h.linked
  reserved := h.reserved
  p_nonneg := le_max_left _ _
  p_le := max_le (Nat.cast_nonneg _) ((sub_le_self _ (ratio_pos _ _)).trans h.p_le)

/-- Moving a key that is not reserved keeps the invariant. -/
theorem relink_wellFormed (h : a.WellFormed) {src : ArcList} (hk : a.pos.lookup k = some src)
    (hres : a.reserved.map Prod.fst ≠ some k) (dst : ArcList) :
    ∃ a', a.relink k dst = .ok a' ∧ a'.WellFormed ∧ a'.reserved = a.reserved ∧
      a'.allocs = a.allocs ∧ ∀ j, a'.pos.lookup j = if j = k then some dst else a.pos.lookup j := by
  obtain ⟨lists, pos, heq, hlinked, hpos⟩ := relink_spec h.linked hk dst
  refine ⟨_, heq, ⟨hlinked, fun j l hj => ?_, h.p_nonneg, h.p_le⟩, rfl, rfl, hpos⟩
  have hne : j ≠ k := by rintro rfl; exact hres (by simp [show a.reserved = some (j, l) from hj])
  obtain ⟨hl, hmem⟩ := h.reserved j l hj
  exact ⟨hl, (h.linked.mem_congr hlinked (by simp [hpos, hne]) l).mpr hmem⟩

/-- Using a known key that is not reserved makes it resident. -/
theorem useKnown_spec (h : a.WellFormed) {l : ArcList} (hk : a.pos.lookup k = some l)
    (hres : a.reserved.map Prod.fst ≠ some k) :
    ∃ a', a.useKnown k l = .ok a' ∧ a'.WellFormed ∧ a'.reserved = a.reserved ∧
      a'.allocs = a.allocs ∧ ∀ j, a'.pos.lookup j = if j = k then some .t2 else a.pos.lookup j := by
  cases l with
  | t1 => exact relink_wellFormed h hk hres .t2
  | t2 => exact relink_wellFormed h hk hres .t2
  | b1 => exact relink_wellFormed (wellFormed_adaptUp h false) hk hres .t2
  | b2 => exact relink_wellFormed (wellFormed_adaptDown h true) hk hres .t2

/-- A key became resident and no other key changed sides. -/
theorem resident_insert {a' : ArcEviction} (h : a.WellFormed) (h' : a'.WellFormed)
    (hk : a'.pos.lookup k = some .t1 ∨ a'.pos.lookup k = some .t2)
    (hother : ∀ j, j ≠ k → (a'.pos.lookup j = some .t1 ∨ a'.pos.lookup j = some .t2 ↔
      a.pos.lookup j = some .t1 ∨ a.pos.lookup j = some .t2)) :
    PolicyView.resident a' = insert k (PolicyView.resident a) := by
  ext j
  rw [Set.mem_insert_iff, mem_resident h.linked, mem_resident h'.linked]
  by_cases hj : j = k
  · subst hj; simp only [hk, true_or]
  · simp only [hother j hj, hj, false_or]

/-- A key stopped being resident and no other key changed. -/
theorem resident_remove {a' : ArcEviction} (h : a.WellFormed) (h' : a'.WellFormed)
    (hk : ¬ (a'.pos.lookup k = some .t1 ∨ a'.pos.lookup k = some .t2))
    (hother : ∀ j, j ≠ k → a'.pos.lookup j = a.pos.lookup j) :
    PolicyView.resident a' = PolicyView.resident a \ {k} := by
  ext j
  rw [Set.mem_sdiff, Set.mem_singleton_iff, mem_resident h.linked, mem_resident h'.linked]
  by_cases hj : j = k
  · subst hj; simp only [hk, not_true_eq_false, and_false]
  · rw [hother j hj]; simp only [hj, not_false_eq_true, and_true]

/-! ### Inserts -/

theorem dropLast_eq_erase {xs : List BlockKey} {back : BlockKey} (hnd : xs.Nodup)
    (hback : xs.getLast? = some back) : xs.dropLast = xs.erase back := by
  obtain ⟨ys, rfl⟩ := List.getLast?_eq_some_iff.mp hback
  have hnot : back ∉ ys := fun hm => (List.nodup_append.mp hnd).2.2 back hm back (by simp) rfl
  rw [List.dropLast_concat, List.erase_append_right _ hnot]
  simp

/-- Trimming a ghost list drops one ghost at most. -/
theorem eraseLru_spec (h : a.WellFormed) {l : ArcList} (hl : l = .b1 ∨ l = .b2) :
    (a.eraseLru l).WellFormed ∧ (a.eraseLru l).reserved = a.reserved ∧
      (a.eraseLru l).allocs = a.allocs ∧
      ∀ j, (a.eraseLru l).pos.lookup j = a.pos.lookup j ∨
        a.pos.lookup j = some l ∧ (a.eraseLru l).pos.lookup j = none := by
  simp only [eraseLru]
  cases hback : (a.lists l).getLast? with
  | none => exact ⟨h, rfl, rfl, fun _ => .inl rfl⟩
  | some back =>
    have hmem : a.pos.lookup back = some l :=
      (h.linked.pos back l).mpr (List.mem_of_getLast? hback)
    have hlinked : Linked (Function.update a.lists l (a.lists l).dropLast)
        fun j => (a.pos.erase back).lookup j := by
      rw [dropLast_eq_erase (h.linked.nodup l) hback]
      exact h.linked.unlink hmem fun j => Dict.lookup_erase_if _ _ _
    refine ⟨⟨hlinked, fun j m hj => ?_, h.p_nonneg, h.p_le⟩, rfl, rfl, fun j => ?_⟩
    · obtain ⟨hm, hin⟩ := h.reserved j m hj
      have hne : m ≠ l := by rcases hl with rfl | rfl <;> rcases hm with rfl | rfl <;> simp
      exact ⟨hm, by simpa [hne] using hin⟩
    · by_cases hj : j = back
      · subst hj; exact .inr ⟨hmem, by simp⟩
      · exact .inl (by simp [hj])

/-- When a new key trims which ghost list. -/
theorem ghostToTrimForInsert_cases (a : ArcEviction) :
    (a.ghostToTrimForInsert = some .b1 ∧ (a.lists .t1).length + (a.lists .b1).length = a.c ∧
      (a.lists .t1).length < a.c) ∨
    (a.ghostToTrimForInsert = some .b2 ∧ (a.lists .t1).length + (a.lists .b1).length < a.c) ∨
    a.ghostToTrimForInsert = none ∧ (a.c ≤ (a.lists .t1).length ∨
      a.c < (a.lists .t1).length + (a.lists .b1).length ∨
      (a.lists .t1).length + (a.lists .b1).length < a.c ∧
        (a.lists .t1).length + (a.lists .t2).length + (a.lists .b1).length + (a.lists .b2).length <
          2 * a.c % UInt64.size) := by
  simp only [ghostToTrimForInsert]
  by_cases hfull : (a.lists .t1).length + (a.lists .b1).length = a.c
  · rw [if_pos hfull]
    by_cases hroom : (a.lists .t1).length < a.c
    · rw [if_pos hroom]; exact .inl ⟨rfl, hfull, hroom⟩
    · rw [if_neg hroom]; exact .inr (.inr ⟨rfl, .inl (not_lt.mp hroom)⟩)
  · rw [if_neg hfull]
    by_cases hbelow : (a.lists .t1).length + (a.lists .b1).length < a.c
    · rw [if_pos hbelow]
      split
      · exact .inr (.inl ⟨rfl, hbelow⟩)
      · rename_i htotal
        exact .inr (.inr ⟨rfl, .inr (.inr ⟨hbelow, not_le.mp htotal⟩)⟩)
    · rw [if_neg hbelow]
      exact .inr (.inr ⟨rfl, .inr (.inl (by omega))⟩)

theorem ghostToTrimForInsert_ghost {l : ArcList} (h : a.ghostToTrimForInsert = some l) :
    l = .b1 ∨ l = .b2 := by
  rcases a.ghostToTrimForInsert_cases with ⟨hl, -⟩ | ⟨hl, -⟩ | ⟨hl, -⟩
  · exact .inl (Option.some.inj (h.symm.trans hl))
  · exact .inr (Option.some.inj (h.symm.trans hl))
  · cases h.symm.trans hl

/-- `PushFront` of an unknown key fails for want of memory, or puts it in front. -/
theorem pushFront_cases (h : a.WellFormed) (hk : a.pos.lookup k = none) :
    (∃ s a', a.pushFront k .t1 = (.error s, a') ∧ a'.WellFormed ∧ PolicyKept a a' ∧
      a'.reserved = a.reserved ∧ a'.c = a.c ∧ a'.lists = a.lists ∧
      s.code = .outOfCapacity ∧ ¬ PolicyView.Reliable a) ∨
    ∃ a', a.pushFront k .t1 = (.ok (), a') ∧ a'.WellFormed ∧ PolicyKept a a' ∧
      a'.reserved = a.reserved ∧ a'.c = a.c ∧ a'.lists = Function.update a.lists .t1 (k :: a.lists .t1) ∧
      ∀ j, a'.pos.lookup j = if j = k then some .t1 else a.pos.lookup j := by
  have hfail : ∀ b : Stream' Bool, WellFormed { a with allocs := b } :=
    fun b => ⟨h.linked, h.reserved, h.p_nonneg, h.p_le⟩
  simp only [pushFront]
  cases hhead : a.allocs.head with
  | false =>
    refine .inl ⟨_, _, rfl, hfail _, kept_of_wellFormed (hfail _) ⟨1, rfl⟩, rfl, rfl, rfl, rfl,
      fun hr => ?_⟩
    have htrue : a.allocs.head = true := hr 0
    rw [hhead] at htrue; cases htrue
  | true =>
    cases hnext : a.allocs.tail.head with
    | false =>
      refine .inl ⟨_, _, rfl, hfail _, kept_of_wellFormed (hfail _) ⟨2, rfl⟩, rfl, rfl, rfl, rfl,
        fun hr => ?_⟩
      have htrue : a.allocs.tail.head = true := hr 1
      rw [hnext] at htrue; cases htrue
    | true =>
      have hlinked : Linked (Function.update a.lists .t1 (k :: a.lists .t1))
          fun j => (a.pos.insert k ArcList.t1).lookup j :=
        h.linked.link hk .t1 fun j => Dict.lookup_insert_if _ _ _ _
      have hwf : WellFormed { a with
          allocs := a.allocs.tail.tail
          lists := Function.update a.lists .t1 (k :: a.lists .t1)
          pos := a.pos.insert k .t1 } := by
        refine ⟨hlinked, fun j l hj => ?_, h.p_nonneg, h.p_le⟩
        obtain ⟨hl, hin⟩ := h.reserved j l hj
        refine ⟨hl, ?_⟩
        by_cases hl1 : l = .t1
        · subst hl1; simp [hin]
        · simpa [hl1] using hin
      refine .inr ⟨_, by simp [hk], hwf, kept_of_wellFormed hwf ⟨2, rfl⟩, rfl, rfl, rfl, fun j => ?_⟩
      exact Dict.lookup_insert_if _ _ _ _

theorem inserts_onInsert (h : a.WellFormed) (hfree : a.reserved = none) (k : BlockKey) :
    Inserts a k (a.onInsert k) := by
  simp only [onInsert]
  cases hk : a.pos.lookup k with
  | some l =>
    have hres : a.reserved.map Prod.fst ≠ some k := by simp [hfree]
    obtain ⟨a', heq, hwf, hres', halloc, hpos⟩ := useKnown_spec h hk hres
    refine ⟨.ok (), a', by simp [hfree, heq, Except.map], kept_of_wellFormed hwf ⟨0, halloc⟩, ?_, ?_⟩
    · simp [PolicyView.reserved, hres', hfree]
    · exact resident_insert h hwf (by simp [hpos]) fun j hj => by simp [hpos, hj]
  | none =>
    rcases pushFront_cases h hk with
      ⟨s, a', heq, hwf, hkept, hres, -, hlists, hcode, hrel⟩ | ⟨a', heq, hwf, hkept, hres, -, -, hpos⟩
    · refine ⟨.error s, a', by simp [heq], hkept, by simp [PolicyView.reserved, hres, hfree], ?_⟩
      exact ⟨by simp only [PolicyView.resident, hlists], hrel, .inl hcode⟩
    · -- the trimmed ghost is chosen before the push, so it is not the pushed key's list
      cases htrim : a.ghostToTrimForInsert with
      | none =>
        refine ⟨.ok (), { a' with lastHitInB2 := false }, by simp [heq],
          ⟨wellFormed_flag hwf false, hkept.faults, hkept.reliable⟩,
          by simp [PolicyView.reserved, hres, hfree], ?_⟩
        exact resident_insert h (wellFormed_flag hwf false) (by simp [hpos])
          fun j hj => by simp [hpos, hj]
      | some l =>
        have hghost := ghostToTrimForInsert_ghost htrim
        obtain ⟨hwf', hres', halloc', hpos'⟩ := eraseLru_spec hwf hghost
        refine ⟨.ok (), { a'.eraseLru l with lastHitInB2 := false }, by simp [heq],
          ⟨wellFormed_flag hwf' false, hkept.faults, fun hr => ?_⟩,
          by simp [PolicyView.reserved, hres', hres, hfree], ?_⟩
        · show ∀ i, (a'.eraseLru l).allocs.get i = true
          rw [halloc']
          exact hkept.reliable hr
        · have hne : some l ≠ some ArcList.t1 ∧ some l ≠ some ArcList.t2 := by
            rcases hghost with rfl | rfl <;> simp
          refine resident_insert h (wellFormed_flag hwf' false) ?_ fun j hj => ?_
          · rcases hpos' k with hsame | ⟨hl, _⟩
            · exact .inl (by simpa [hpos] using hsame)
            · exact absurd (by simpa [hpos] using hl.symm) hne.1
          · rcases hpos' j with hsame | ⟨hl, hgone⟩
            · simp [hsame, hpos, hj]
            · simp only [hpos, hj, if_false] at hl
              simp [hgone, hl, Option.some.injEq] at hne ⊢
              exact hne

/-! ### Victims -/

theorem choose_some {ex : Option BlockKey} {src : ArcList} {r : BlockKey × ArcList}
    (h : a.choose ex src = some r) : r.2 = src ∧ r.1 ∈ a.lists src ∧ ex ≠ some r.1 := by
  obtain ⟨v, hv, rfl⟩ := Option.map_eq_some_iff.mp h
  exact ⟨rfl, by simpa using List.mem_of_find?_eq_some hv, by simpa using List.find?_some hv⟩

theorem choose_none {ex : Option BlockKey} {src : ArcList} (h : a.choose ex src = none)
    {j : BlockKey} (hj : j ∈ a.lists src) : ex = some j := by
  have hall := List.find?_eq_none.mp (Option.map_eq_none_iff.mp h) j (by simpa using hj)
  simpa using hall

/-- SELECT: a free policy reserves a resident other than the excluded key, if there is one. -/
theorem selectVictim_cases (hfree : a.reserved = none) (ex : Option BlockKey) :
    (∃ s, a.selectVictim ex = (.error s, a) ∧ s.code = .notFound ∧
      ∀ j ∈ PolicyView.resident a, ex = some j) ∨
    ∃ v src, a.selectVictim ex = (.ok v, { a with reserved := some (v, src) }) ∧
      (src = .t1 ∨ src = .t2) ∧ v ∈ a.lists src ∧ ex ≠ some v := by
  simp only [selectVictim, hfree, Option.isSome_none, Bool.false_eq_true, if_false]
  by_cases hempty : ((a.lists .t1).isEmpty && (a.lists .t2).isEmpty) = true
  · rw [if_pos hempty]
    simp only [Bool.and_eq_true, List.isEmpty_iff] at hempty
    refine .inl ⟨_, rfl, rfl, fun j hj => ?_⟩
    rcases hj with hj | hj <;> simp [hempty] at hj
  · rw [if_neg hempty]
    have hpair : ∃ x y, (if a.useT1 then (ArcList.t1, ArcList.t2) else (.t2, .t1)) = (x, y) ∧
        ((x = .t1 ∧ y = .t2) ∨ (x = .t2 ∧ y = .t1)) := by
      cases a.useT1 <;> simp
    obtain ⟨x, y, hxy, hwhich⟩ := hpair
    simp only [hxy]
    cases hchosen : (a.choose ex x).or (a.choose ex y) with
    | none =>
      obtain ⟨hx, hy⟩ := Option.or_eq_none_iff.mp hchosen
      refine .inl ⟨_, rfl, rfl, fun j hj => ?_⟩
      rcases hwhich with ⟨rfl, rfl⟩ | ⟨rfl, rfl⟩
      · exact hj.elim (choose_none hx) (choose_none hy)
      · exact hj.elim (choose_none hy) (choose_none hx)
    | some r =>
      have hr : ∃ src, (src = .t1 ∨ src = .t2) ∧ a.choose ex src = some r := by
        rcases Option.or_eq_some_iff.mp hchosen with hx | ⟨_, hy⟩
        · exact ⟨x, by rcases hwhich with ⟨rfl, _⟩ | ⟨rfl, _⟩ <;> simp, hx⟩
        · exact ⟨y, by rcases hwhich with ⟨_, rfl⟩ | ⟨_, rfl⟩ <;> simp, hy⟩
      obtain ⟨src, hsrc, hr⟩ := hr
      obtain ⟨rfl, hmem, hex⟩ := choose_some hr
      exact .inr ⟨r.1, r.2, rfl, hsrc, hmem, hex⟩

theorem validateVictimCommit_reserved (h : a.WellFormed) {v : BlockKey} {src : ArcList}
    (hres : a.reserved = some (v, src)) : a.validateVictimCommit v = .ok () := by
  have hpos : a.pos.lookup v = some src := (h.linked.pos v src).mpr (h.reserved v src hres).2
  simp [validateVictimCommit, hres, hpos]

/-- The lists after `key` went from `src` to the front of `dst`. -/
def moved (lists : ArcList → List BlockKey) (key : BlockKey) (src dst : ArcList) : ArcList → List BlockKey :=
  let unlinked := Function.update lists src ((lists src).erase key)
  Function.update unlinked dst (key :: unlinked dst)

section Moved

variable {lists : ArcList → List BlockKey} {src dst : ArcList}

theorem moved_src (hne : src ≠ dst) : moved lists k src dst src = (lists src).erase k := by
  simp [moved, hne]

theorem moved_dst (hne : src ≠ dst) : moved lists k src dst dst = k :: lists dst := by
  simp [moved, hne.symm]

theorem moved_other {l : ArcList} (hsrc : l ≠ src) (hdst : l ≠ dst) : moved lists k src dst l = lists l := by
  simp [moved, hsrc, hdst]

theorem moved_self : moved lists k src src src = k :: (lists src).erase k := by
  simp [moved]

end Moved

theorem relink_eq {src : ArcList} (hk : a.pos.lookup k = some src) (dst : ArcList) :
    a.relink k dst = .ok { a with lists := moved a.lists k src dst, pos := a.pos.insert k dst } := by
  simp only [relink, hk, moved]

theorem commitVictim_eq (h : a.WellFormed) {v : BlockKey} {src : ArcList}
    (hres : a.reserved = some (v, src)) :
    a.commitVictim v = .ok { a with
      lists := moved a.lists v src (ghostOf src)
      pos := a.pos.insert v (ghostOf src)
      reserved := none
      lastHitInB2 := false } := by
  have hpos : a.pos.lookup v = some src := (h.linked.pos v src).mpr (h.reserved v src hres).2
  simp only [commitVictim, validateVictimCommit_reserved h hres, hres, relink_eq hpos, Except.map]

/-- COMMIT: the reserved victim becomes a ghost. -/
theorem commitVictim_spec (h : a.WellFormed) {v : BlockKey} {src : ArcList}
    (hres : a.reserved = some (v, src)) :
    ∃ a', a.commitVictim v = .ok a' ∧ a'.WellFormed ∧ a'.reserved = none ∧ a'.allocs = a.allocs ∧
      ∀ j, a'.pos.lookup j = if j = v then some (ghostOf src) else a.pos.lookup j := by
  have hpos : a.pos.lookup v = some src := (h.linked.pos v src).mpr (h.reserved v src hres).2
  obtain ⟨lists, pos, heq, hlinked, hlookup⟩ := relink_spec h.linked hpos (ghostOf src)
  refine ⟨{ a with lists, pos, reserved := none, lastHitInB2 := false }, ?_,
    ⟨hlinked, by simp, h.p_nonneg, h.p_le⟩, rfl, rfl, hlookup⟩
  simp only [commitVictim, validateVictimCommit_reserved h hres, hres, heq, Except.map]

theorem ghostOf_not_resident (src : ArcList) : ghostOf src ≠ .t1 ∧ ghostOf src ≠ .t2 := by
  cases src <;> simp [ghostOf]

/-- The reservation behind an observed victim. -/
theorem reserved_pair {v : BlockKey} (h : PolicyView.reserved a = some v) :
    ∃ src, a.reserved = some (v, src) := by
  obtain ⟨⟨w, src⟩, hw, rfl⟩ := Option.map_eq_some_iff.mp h
  exact ⟨src, hw⟩

instance : LawfulPolicy ArcEviction where
  access_law a k hwf hk hfree := by
    have hfree : a.reserved = none := by simpa [PolicyView.reserved] using hfree
    have hknown : ∃ l, a.pos.lookup k = some l := by
      rcases (mem_resident hwf.linked).mp hk with h | h <;> exact ⟨_, h⟩
    obtain ⟨l, hl⟩ := hknown
    obtain ⟨a', heq, hwf', hres, halloc, hpos⟩ := useKnown_spec hwf hl (by simp [hfree])
    refine ⟨a', ?_, kept_of_wellFormed hwf' ⟨0, halloc⟩, ?_, by simp [PolicyView.reserved, hres, hfree]⟩
    · show a.onAccess k = _
      simp [onAccess, hl, hfree, heq]
    · have hins : PolicyView.resident a' = insert k (PolicyView.resident a) :=
        resident_insert hwf hwf' (by simp [hpos]) fun j hj => by simp [hpos, hj]
      rw [hins, Set.insert_eq_of_mem hk]
  insert_law a k _ hwf hfree :=
    inserts_onInsert hwf (by simpa [PolicyView.reserved] using hfree) k
  promote_law a k _ hwf hfree :=
    inserts_onInsert hwf (by simpa [PolicyView.reserved] using hfree) k
  remove_law a k hwf hfree := by
    have hfree : a.reserved = none := by simpa [PolicyView.reserved] using hfree
    show PolicyKept a (a.onRemove k) ∧ PolicyView.resident (a.onRemove k) = _ ∧
      (a.onRemove k).reserved.map Prod.fst = none
    cases hk : a.pos.lookup k with
    | none =>
      simp only [onRemove, hk]
      refine ⟨.refl hwf, (Set.sdiff_singleton_eq_self ?_).symm, by simp [hfree]⟩
      simp [mem_resident hwf.linked, hk]
    | some l =>
      have hlinked : Linked (Function.update a.lists l ((a.lists l).erase k))
          fun j => (a.pos.erase k).lookup j := hwf.linked.unlink hk fun j => Dict.lookup_erase_if _ _ _
      have hwf' : WellFormed (a.onRemove k) := by
        simp only [onRemove, hk, hfree]
        exact ⟨hlinked, by simp, hwf.p_nonneg, hwf.p_le⟩
      have hallocs : (a.onRemove k).allocs = a.allocs := by simp only [onRemove, hk]
      refine ⟨kept_of_wellFormed hwf' ⟨0, hallocs⟩, ?_, by simp [onRemove, hk, hfree]⟩
      exact resident_remove hwf hwf' (by simp [onRemove, hk]) fun j hj => by simp [onRemove, hk, hj]
  select_law a ex hwf hfree := by
    have hfree : a.reserved = none := by simpa [PolicyView.reserved] using hfree
    rcases selectVictim_cases hfree ex with hnone | ⟨v, src, heq, hsrc, hmem, hex⟩
    · exact .inl hnone
    · refine .inr ⟨v, _, heq, ?_, hex, kept_of_wellFormed ?_ ⟨0, rfl⟩, rfl, rfl⟩
      · rcases hsrc with rfl | rfl
        · exact .inl hmem
        · exact .inr hmem
      · refine ⟨hwf.linked, ?_, hwf.p_nonneg, hwf.p_le⟩
        rintro j l ⟨⟩
        exact ⟨hsrc, hmem⟩
  validate_law a v hwf hres := by
    obtain ⟨src, hsrc⟩ := reserved_pair hres
    exact validateVictimCommit_reserved hwf hsrc
  commit_law a v hwf hres := by
    obtain ⟨src, hsrc⟩ := reserved_pair hres
    obtain ⟨a', heq, hwf', hfree, halloc, hpos⟩ := commitVictim_spec hwf hsrc
    refine ⟨a', heq, kept_of_wellFormed hwf' ⟨0, halloc⟩, ?_, by simp [PolicyView.reserved, hfree]⟩
    exact resident_remove hwf hwf' (by simp [hpos, ghostOf_not_resident]) fun j hj => by simp [hpos, hj]
  cancel_law a v hwf hres := by
    obtain ⟨src, hsrc⟩ := reserved_pair hres
    refine ⟨{ a with reserved := none }, ?_, kept_of_wellFormed ?_ ⟨0, rfl⟩, rfl, rfl⟩
    · show a.cancelVictim v = _
      simp [cancelVictim, hsrc]
    · exact ⟨hwf.linked, by simp, hwf.p_nonneg, hwf.p_le⟩

end ArcEviction

end TidePool.Store
