import Mathlib.Data.Finset.Insert
import Mathlib.Data.Finset.Erase
import Mathlib.Data.List.Nodup
import TidePool.Store.EvictionPolicy

/-! Least-recently-used replacement (`src/store/eviction/lru_eviction.cpp`).

    `order_` is a list with the most recent key in front; `pos_` maps a key to its node in that list,
    so only its key set is kept. An insert makes two allocations, the list node and the map node. -/

namespace TidePool.Store

structure LruEviction where
  order : List BlockKey := []
  pos : Finset BlockKey := ∅
  reserved : Option BlockKey := none
  allocs : Stream' Bool := Stream'.const true

namespace LruEviction

/-- `order_.splice(order_.begin(), order_, it)`. -/
def touch (l : LruEviction) (key : BlockKey) : LruEviction :=
  { l with order := key :: l.order.erase key }

def onAccess (l : LruEviction) (key : BlockKey) : LruEviction :=
  if key ∉ l.pos then l
  else if l.reserved = some key then l
  else l.touch key

def onInsert (l : LruEviction) (key : BlockKey) : Result Unit × LruEviction :=
  if key ∈ l.pos then
    if l.reserved = some key then
      (.error (.invalidArgument "LRU cannot insert its reserved victim"), l)
    else (.ok (), l.touch key)
  else if !l.allocs.head then
    (.error (.outOfCapacity "LRU insert allocation failed"), { l with allocs := l.allocs.tail })
  else if !l.allocs.tail.head then
    -- `pos_.emplace` threw: the list node is popped again
    (.error (.outOfCapacity "LRU insert allocation failed"), { l with allocs := l.allocs.tail.tail })
  else
    (.ok (), { l with
      order := key :: l.order
      pos := insert key l.pos
      allocs := l.allocs.tail.tail })

def onRemove (l : LruEviction) (key : BlockKey) : LruEviction :=
  if key ∉ l.pos then l
  else { l with
    reserved := if l.reserved = some key then none else l.reserved
    order := l.order.erase key
    pos := l.pos.erase key }

def selectVictim (l : LruEviction) (excluded : Option BlockKey) : Result BlockKey × LruEviction :=
  if l.reserved.isSome then (.error (.alreadyExists "LRU already has a reserved victim"), l)
  else if l.order.isEmpty then (.error (.notFound "LRU has no resident victim"), l)
  else match l.order.reverse.find? (fun candidate => excluded ≠ some candidate) with
    | none => (.error (.notFound "LRU has no unpinned resident victim"), l)
    | some candidate => (.ok candidate, { l with reserved := some candidate })

def validateVictimCommit (l : LruEviction) (key : BlockKey) : Result Unit :=
  if l.reserved ≠ some key then
    .error (.invalidArgument "LRU commit does not match the reserved victim")
  else if key ∉ l.pos then .error (.internal "LRU reserved victim is not resident")
  else .ok ()

def commitVictim (l : LruEviction) (key : BlockKey) : Except Halt LruEviction :=
  match l.validateVictimCommit key with
  | .error _ => .error .terminate
  | .ok () => .ok { l with order := l.order.erase key, pos := l.pos.erase key, reserved := none }

def cancelVictim (l : LruEviction) (key : BlockKey) : Result Unit × LruEviction :=
  if l.reserved ≠ some key then
    (.error (.invalidArgument "LRU cancel does not match the reserved victim"), l)
  else (.ok (), { l with reserved := none })

/-- `OnPromotionCommitted` is `OnInsert`; both ignore the size. -/
instance : EvictionPolicy LruEviction where
  onAccess l key := .ok (l.onAccess key)
  onInsert l key _ := .ok (l.onInsert key)
  onPromotionCommitted l key _ := .ok (l.onInsert key)
  onRemove := onRemove
  selectVictim := selectVictim
  validateVictimCommit := validateVictimCommit
  commitVictim := commitVictim
  cancelVictim := cancelVictim

/-- The list has no duplicates, `pos_` indexes it, and a reserved victim is in it. -/
structure WellFormed (l : LruEviction) : Prop where
  nodup : l.order.Nodup
  pos : ∀ k, k ∈ l.pos ↔ k ∈ l.order
  reserved : ∀ v, l.reserved = some v → v ∈ l.order

instance : PolicyView LruEviction where
  Wf := WellFormed
  resident l := { k | k ∈ l.order }
  reserved l := l.reserved
  Reliable l := ∀ i, l.allocs.get i = true
  faults _ := ∅

theorem wellFormed_empty (allocs : Stream' Bool) : WellFormed { allocs } :=
  ⟨by simp, by simp, by simp⟩

theorem make_law (allocs : Stream' Bool) : PolicyView.Wf ({ allocs } : LruEviction) ∧
    PolicyView.reserved ({ allocs } : LruEviction) = none ∧
    ∀ k, k ∉ PolicyView.resident ({ allocs } : LruEviction) :=
  ⟨wellFormed_empty allocs, rfl, fun _ => List.not_mem_nil⟩

variable {l : LruEviction} {k : BlockKey}

theorem mem_touch (hk : k ∈ l.order) (j : BlockKey) : j ∈ (l.touch k).order ↔ j ∈ l.order := by
  simp only [touch, List.mem_cons]
  by_cases h : j = k
  · simp [h, hk]
  · simp [h, List.mem_erase_of_ne h]

theorem wellFormed_touch (h : l.WellFormed) (hk : k ∈ l.order) : (l.touch k).WellFormed where
  nodup := List.nodup_cons.mpr ⟨h.nodup.not_mem_erase, h.nodup.erase k⟩
  pos j := by rw [mem_touch hk]; exact h.pos j
  reserved v hv := by rw [mem_touch hk]; exact h.reserved v hv

theorem wellFormed_push (h : l.WellFormed) (hk : k ∉ l.order) (a : Stream' Bool) :
    WellFormed { l with order := k :: l.order, pos := insert k l.pos, allocs := a } where
  nodup := List.nodup_cons.mpr ⟨hk, h.nodup⟩
  pos j := by simp [h.pos j]
  reserved v hv := List.mem_cons_of_mem _ (h.reserved v hv)

/-- Taking `k` out, with no reservation left on it. -/
theorem wellFormed_erase (h : l.WellFormed) {r : Option BlockKey}
    (hr : ∀ v, r = some v → v ≠ k ∧ l.reserved = some v) :
    WellFormed { l with order := l.order.erase k, pos := l.pos.erase k, reserved := r } where
  nodup := h.nodup.erase k
  pos j := by simp [h.nodup.mem_erase_iff, h.pos j]
  reserved v hv := by
    obtain ⟨hne, hres⟩ := hr v hv
    exact h.nodup.mem_erase_iff.mpr ⟨hne, h.reserved v hres⟩

theorem kept_of_wellFormed {l' : LruEviction} (h : l'.WellFormed)
    (ha : ∃ n, l'.allocs = l.allocs.drop n) : PolicyKept l l' where
  wf := h
  faults := subset_rfl
  reliable := by
    obtain ⟨n, hn⟩ := ha
    intro hr i
    rw [hn]
    exact hr _

theorem inserts_onInsert (h : l.WellFormed) (hfree : l.reserved = none) (k : BlockKey) :
    Inserts l k (.ok (l.onInsert k)) := by
  refine ⟨(l.onInsert k).1, (l.onInsert k).2, rfl, ?_⟩
  simp only [onInsert]
  by_cases hk : k ∈ l.pos
  · have hmem := (h.pos k).mp hk
    simp only [hk, if_true, hfree, reduceCtorEq, if_false]
    refine ⟨kept_of_wellFormed (wellFormed_touch h hmem) ⟨0, rfl⟩, hfree, ?_⟩
    ext j
    show j ∈ (l.touch k).order ↔ j = k ∨ j ∈ l.order
    rw [mem_touch hmem]
    exact ⟨.inr, fun hj => hj.elim (fun he => he ▸ hmem) id⟩
  · have hnot : k ∉ l.order := fun hm => hk ((h.pos k).mpr hm)
    have hfail : ∀ a : Stream' Bool, WellFormed { l with allocs := a } :=
      fun a => ⟨h.nodup, h.pos, h.reserved⟩
    cases ha : l.allocs.head with
    | false =>
      simp only [hk, if_false, Bool.not_false, if_true]
      refine ⟨kept_of_wellFormed (hfail _) ⟨1, rfl⟩, hfree, rfl, fun hr => ?_, .inl rfl⟩
      have htrue : l.allocs.head = true := hr 0
      rw [ha] at htrue; cases htrue
    | true =>
      cases hb : l.allocs.tail.head with
      | false =>
        simp only [hk, if_false, Bool.not_true, Bool.not_false, if_true, Bool.false_eq_true]
        refine ⟨kept_of_wellFormed (hfail _) ⟨2, rfl⟩, hfree, rfl, fun hr => ?_, .inl rfl⟩
        have htrue : l.allocs.tail.head = true := hr 1
        rw [hb] at htrue; cases htrue
      | true =>
        simp only [hk, if_false, Bool.not_true, Bool.false_eq_true]
        refine ⟨kept_of_wellFormed (wellFormed_push h hnot _) ⟨2, rfl⟩, hfree, ?_⟩
        ext j
        exact List.mem_cons

/-- Taking `k` out of a nodup list takes it out of the residents. -/
theorem resident_erase (h : l.WellFormed) (k : BlockKey) :
    { j | j ∈ l.order.erase k } = { j | j ∈ l.order } \ {k} := by
  ext j
  simp [h.nodup.mem_erase_iff, and_comm]

/-- A selection reserves the last key of the list that is not excluded. -/
theorem selectVictim_eq_ok {ex : Option BlockKey} {v : BlockKey} {t : LruEviction}
    (h : l.selectVictim ex = (.ok v, t)) :
    l.reserved = none ∧ t = { l with reserved := some v } ∧
      l.order.reverse.find? (fun candidate => ex ≠ some candidate) = some v := by
  unfold selectVictim at h
  by_cases hres : l.reserved.isSome = true
  · rw [if_pos hres] at h; cases h
  · rw [if_neg hres] at h
    by_cases hempty : l.order.isEmpty = true
    · rw [if_pos hempty] at h; cases h
    · rw [if_neg hempty] at h
      cases hfind : l.order.reverse.find? (fun candidate => ex ≠ some candidate) with
      | none => rw [hfind] at h; cases h
      | some w =>
        rw [hfind] at h
        cases h
        exact ⟨by simpa using hres, rfl, rfl⟩

instance : LawfulPolicy LruEviction where
  access_law l k hwf hk hfree := by
    have hpos : k ∈ l.pos := (hwf.pos k).mpr hk
    have hl : l.onAccess k = l.touch k := by
      simp [onAccess, hpos, show l.reserved = none from hfree]
    refine ⟨l.touch k, congrArg Except.ok hl, kept_of_wellFormed (wellFormed_touch hwf hk) ⟨0, rfl⟩,
      ?_, hfree⟩
    ext j
    exact mem_touch hk j
  insert_law l k _ hwf hfree := inserts_onInsert hwf hfree k
  promote_law l k _ hwf hfree := inserts_onInsert hwf hfree k
  remove_law l k hwf hfree := by
    have hfree : l.reserved = none := hfree
    show PolicyKept l (l.onRemove k) ∧ { j | j ∈ (l.onRemove k).order } = _ ∧
      (l.onRemove k).reserved = none
    by_cases hk : k ∈ l.pos
    · simp only [onRemove, hk, not_true_eq_false, if_false, hfree, reduceCtorEq]
      exact ⟨kept_of_wellFormed (wellFormed_erase hwf (by simp)) ⟨0, rfl⟩, resident_erase hwf k, trivial⟩
    · simp only [onRemove, hk, not_false_eq_true, if_true]
      refine ⟨.refl hwf, (Set.sdiff_singleton_eq_self ?_).symm, hfree⟩
      exact fun hm => hk ((hwf.pos k).mpr hm)
  select_law l ex hwf hfree := by
    have hfree : l.reserved = none := hfree
    show (∃ s, l.selectVictim ex = (.error s, l) ∧ s.code = .notFound ∧ ∀ k ∈ l.order, ex = some k) ∨
      ∃ v p', l.selectVictim ex = (.ok v, p') ∧ v ∈ l.order ∧ ex ≠ some v ∧ PolicyKept l p' ∧
        { j | j ∈ p'.order } = { j | j ∈ l.order } ∧ p'.reserved = some v
    simp only [selectVictim, hfree, Option.isSome_none, Bool.false_eq_true, if_false]
    by_cases hempty : l.order = []
    · exact .inl ⟨_, by simp [hempty]; rfl, rfl, by simp [hempty]⟩
    · have hne : l.order.isEmpty = false := by simpa using hempty
      simp only [hne, Bool.false_eq_true, if_false]
      cases hf : l.order.reverse.find? (fun candidate => ex ≠ some candidate) with
      | none =>
        refine .inl ⟨_, rfl, rfl, fun k hk => ?_⟩
        have hall := List.find?_eq_none.mp hf k (by simpa using hk)
        simpa using hall
      | some v =>
        have hv : v ∈ l.order := by simpa using List.mem_of_find?_eq_some hf
        have hex : ex ≠ some v := by simpa using List.find?_some hf
        refine .inr ⟨v, _, rfl, hv, hex, kept_of_wellFormed ⟨hwf.nodup, hwf.pos, ?_⟩ ⟨0, rfl⟩, rfl, rfl⟩
        rintro w hw
        cases hw
        exact hv
  validate_law l v hwf hres := by
    have hres : l.reserved = some v := hres
    have hpos : v ∈ l.pos := (hwf.pos v).mpr (hwf.reserved v hres)
    show l.validateVictimCommit v = .ok ()
    simp [validateVictimCommit, hres, hpos]
  commit_law l v hwf hres := by
    have hres : l.reserved = some v := hres
    have hpos : v ∈ l.pos := (hwf.pos v).mpr (hwf.reserved v hres)
    have hvalid : l.validateVictimCommit v = .ok () := by simp [validateVictimCommit, hres, hpos]
    refine ⟨{ l with order := l.order.erase v, pos := l.pos.erase v, reserved := none }, ?_, ?_, ?_, rfl⟩
    · show l.commitVictim v = _
      simp only [commitVictim, hvalid]
    · exact kept_of_wellFormed (wellFormed_erase hwf (by simp)) ⟨0, rfl⟩
    · exact resident_erase hwf v
  cancel_law l v hwf hres := by
    have hres : l.reserved = some v := hres
    refine ⟨{ l with reserved := none }, ?_, ?_, rfl, rfl⟩
    · show l.cancelVictim v = _
      simp [cancelVictim, hres]
    · exact kept_of_wellFormed ⟨hwf.nodup, hwf.pos, by simp⟩ ⟨0, rfl⟩

end LruEviction

end TidePool.Store
