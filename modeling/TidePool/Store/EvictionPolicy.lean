import Mathlib.Data.Set.Insert
import Mathlib.Data.Stream.Defs
import TidePool.Api.BlockKey

/-! The replacement policy interface (`include/tidepool/store/eviction_policy.h`).

    `EvictionPolicy` is the abstract base class. `LawfulPolicy` adds what its comments promise, in
    terms of three observations: the resident keys, the reserved victim, and whether an insert can
    still fail. Eviction is a two-phase transaction on these:

        free  --selectVictim-->  reserved v  --commitVictim v-->  free, v not resident
                                             --cancelVictim v-->  free, as before the selection -/

namespace TidePool.Store

/-- `class EvictionPolicy`; the methods that may reach `std::terminate` return in `Except Halt`. -/
class EvictionPolicy (π : Type) where
  onAccess : π → BlockKey → Except Halt π
  onInsert : π → BlockKey → ℕ → Except Halt (Result Unit × π)
  onPromotionCommitted : π → BlockKey → ℕ → Except Halt (Result Unit × π)
  onRemove : π → BlockKey → π
  selectVictim : π → Option BlockKey → Result BlockKey × π
  validateVictimCommit : π → BlockKey → Result Unit
  commitVictim : π → BlockKey → Except Halt π
  cancelVictim : π → BlockKey → Result Unit × π

/-- The observations the laws speak of. -/
class PolicyView (π : Type) where
  /-- The data structure is consistent. -/
  Wf : π → Prop
  /-- Keys the policy believes to be in DRAM. -/
  resident : π → Set BlockKey
  /-- The selected victim that is neither committed nor cancelled. -/
  reserved : π → Option BlockKey
  /-- No insert will fail. -/
  Reliable : π → Prop
  /-- What a failing insert may report besides a lack of memory. -/
  faults : π → Set Status

open PolicyView

/-- Nothing the laws speak of got worse. -/
structure PolicyKept {π : Type} [PolicyView π] (p p' : π) : Prop where
  wf : Wf p'
  faults : faults p' ⊆ faults p
  reliable : Reliable p → Reliable p'

/-- What `OnInsert` and `OnPromotionCommitted` of `k` may do to a policy with no reservation. -/
def Inserts {π : Type} [PolicyView π] (p : π) (k : BlockKey) (res : Except Halt (Result Unit × π)) :
    Prop :=
  ∃ r p', res = .ok (r, p') ∧ PolicyKept p p' ∧ reserved p' = none ∧
    match r with
    | .ok () => resident p' = insert k (resident p)
    | .error s => resident p' = resident p ∧ ¬ Reliable p ∧ (s.code = .outOfCapacity ∨ s ∈ faults p)

/-- A reliable policy takes every insert. -/
theorem Inserts.ok_of_reliable {π : Type} [PolicyView π] {p p' : π} {k : BlockKey}
    {res : Except Halt (Result Unit × π)} {r : Result Unit} (h : Inserts p k res) (hr : Reliable p)
    (hres : res = .ok (r, p')) : r = .ok () := by
  obtain ⟨r', q, heq, -, -, hrest⟩ := h
  obtain ⟨rfl, rfl⟩ := Prod.mk.inj (Except.ok.inj (hres.symm.trans heq))
  cases r with
  | ok _ => rfl
  | error s => exact absurd hr hrest.2.1

/-- The contract of the base class. -/
class LawfulPolicy (π : Type) extends EvictionPolicy π, PolicyView π where
  access_law : ∀ (p : π) (k : BlockKey), Wf p → k ∈ resident p → reserved p = none →
    ∃ p', onAccess p k = .ok p' ∧ PolicyKept p p' ∧ resident p' = resident p ∧ reserved p' = none
  insert_law : ∀ (p : π) (k : BlockKey) (size : ℕ), Wf p → reserved p = none →
    Inserts p k (onInsert p k size)
  promote_law : ∀ (p : π) (k : BlockKey) (size : ℕ), Wf p → reserved p = none →
    Inserts p k (onPromotionCommitted p k size)
  remove_law : ∀ (p : π) (k : BlockKey), Wf p → reserved p = none →
    PolicyKept p (onRemove p k) ∧ resident (onRemove p k) = resident p \ {k} ∧
      reserved (onRemove p k) = none
  select_law : ∀ (p : π) (ex : Option BlockKey), Wf p → reserved p = none →
    (∃ s, selectVictim p ex = (.error s, p) ∧ s.code = .notFound ∧ ∀ k ∈ resident p, ex = some k) ∨
    ∃ v p', selectVictim p ex = (.ok v, p') ∧ v ∈ resident p ∧ ex ≠ some v ∧ PolicyKept p p' ∧
      resident p' = resident p ∧ reserved p' = some v
  validate_law : ∀ (p : π) (v : BlockKey), Wf p → reserved p = some v →
    validateVictimCommit p v = .ok ()
  commit_law : ∀ (p : π) (v : BlockKey), Wf p → reserved p = some v →
    ∃ p', commitVictim p v = .ok p' ∧ PolicyKept p p' ∧ resident p' = resident p \ {v} ∧
      reserved p' = none
  cancel_law : ∀ (p : π) (v : BlockKey), Wf p → reserved p = some v →
    ∃ p', cancelVictim p v = (.ok (), p') ∧ PolicyKept p p' ∧ resident p' = resident p ∧
      reserved p' = none

variable {π ρ : Type}

theorem PolicyKept.refl [PolicyView π] {p : π} (h : Wf p) : PolicyKept p p := ⟨h, subset_rfl, id⟩

theorem PolicyKept.trans [PolicyView π] {p q r : π} (h : PolicyKept p q) (h' : PolicyKept q r) :
    PolicyKept p r :=
  ⟨h'.wf, h'.faults.trans h.faults, h'.reliable ∘ h.reliable⟩

/-! ### One of two policies -/

section Sum

/-- The answer of an insert, with its policy put under `f`. -/
def mapInsert {α β : Type} (f : α → β) : Except Halt (Result Unit × α) → Except Halt (Result Unit × β) :=
  Except.map (Prod.map id f)

instance [EvictionPolicy π] [EvictionPolicy ρ] : EvictionPolicy (π ⊕ ρ) where
  onAccess p k := p.elim (fun a => (EvictionPolicy.onAccess a k).map .inl)
    fun b => (EvictionPolicy.onAccess b k).map .inr
  onInsert p k n := p.elim (fun a => mapInsert .inl (EvictionPolicy.onInsert a k n))
    fun b => mapInsert .inr (EvictionPolicy.onInsert b k n)
  onPromotionCommitted p k n :=
    p.elim (fun a => mapInsert .inl (EvictionPolicy.onPromotionCommitted a k n))
      fun b => mapInsert .inr (EvictionPolicy.onPromotionCommitted b k n)
  onRemove p k := p.map (EvictionPolicy.onRemove · k) (EvictionPolicy.onRemove · k)
  selectVictim p ex := p.elim (fun a => (EvictionPolicy.selectVictim a ex).map id .inl)
    fun b => (EvictionPolicy.selectVictim b ex).map id .inr
  validateVictimCommit p k :=
    p.elim (EvictionPolicy.validateVictimCommit · k) (EvictionPolicy.validateVictimCommit · k)
  commitVictim p k := p.elim (fun a => (EvictionPolicy.commitVictim a k).map .inl)
    fun b => (EvictionPolicy.commitVictim b k).map .inr
  cancelVictim p k := p.elim (fun a => (EvictionPolicy.cancelVictim a k).map id .inl)
    fun b => (EvictionPolicy.cancelVictim b k).map id .inr

instance [PolicyView π] [PolicyView ρ] : PolicyView (π ⊕ ρ) where
  Wf := Sum.elim Wf Wf
  resident := Sum.elim resident resident
  reserved := Sum.elim reserved reserved
  Reliable := Sum.elim Reliable Reliable
  faults := Sum.elim faults faults

theorem PolicyKept.inl [PolicyView π] [PolicyView ρ] {p p' : π} (h : PolicyKept p p') :
    PolicyKept (.inl p : π ⊕ ρ) (.inl p') :=
  ⟨h.wf, h.faults, h.reliable⟩

theorem PolicyKept.inr [PolicyView π] [PolicyView ρ] {p p' : ρ} (h : PolicyKept p p') :
    PolicyKept (.inr p : π ⊕ ρ) (.inr p') :=
  ⟨h.wf, h.faults, h.reliable⟩

theorem Inserts.inl [PolicyView π] [PolicyView ρ] {p : π} {k : BlockKey}
    {res : Except Halt (Result Unit × π)} (h : Inserts p k res) :
    Inserts (.inl p : π ⊕ ρ) k (mapInsert .inl res) := by
  obtain ⟨r, p', rfl, hkept, hres⟩ := h
  exact ⟨r, .inl p', rfl, hkept.inl, hres⟩

theorem Inserts.inr [PolicyView π] [PolicyView ρ] {p : ρ} {k : BlockKey}
    {res : Except Halt (Result Unit × ρ)} (h : Inserts p k res) :
    Inserts (.inr p : π ⊕ ρ) k (mapInsert .inr res) := by
  obtain ⟨r, p', rfl, hkept, hres⟩ := h
  exact ⟨r, .inr p', rfl, hkept.inr, hres⟩

open LawfulPolicy in
instance [LawfulPolicy π] [LawfulPolicy ρ] : LawfulPolicy (π ⊕ ρ) where
  access_law := by
    rintro (p | p) k hwf hk hres
    · obtain ⟨p', h, hkept, hrest⟩ := access_law p k hwf hk hres
      exact ⟨.inl p', congrArg (Except.map Sum.inl) h, hkept.inl, hrest⟩
    · obtain ⟨p', h, hkept, hrest⟩ := access_law p k hwf hk hres
      exact ⟨.inr p', congrArg (Except.map Sum.inr) h, hkept.inr, hrest⟩
  insert_law := by
    rintro (p | p) k n hwf hres
    · exact (insert_law p k n hwf hres).inl
    · exact (insert_law p k n hwf hres).inr
  promote_law := by
    rintro (p | p) k n hwf hres
    · exact (promote_law p k n hwf hres).inl
    · exact (promote_law p k n hwf hres).inr
  remove_law := by
    rintro (p | p) k hwf hres
    · obtain ⟨hkept, hrest⟩ := remove_law p k hwf hres
      exact ⟨hkept.inl, hrest⟩
    · obtain ⟨hkept, hrest⟩ := remove_law p k hwf hres
      exact ⟨hkept.inr, hrest⟩
  select_law := by
    rintro (p | p) ex hwf hres
    · rcases select_law p ex hwf hres with ⟨s, h, hrest⟩ | ⟨v, p', h, hv, hex, hkept, hrest⟩
      · exact .inl ⟨s, congrArg (Prod.map id Sum.inl) h, hrest⟩
      · exact .inr ⟨v, .inl p', congrArg (Prod.map id Sum.inl) h, hv, hex, hkept.inl, hrest⟩
    · rcases select_law p ex hwf hres with ⟨s, h, hrest⟩ | ⟨v, p', h, hv, hex, hkept, hrest⟩
      · exact .inl ⟨s, congrArg (Prod.map id Sum.inr) h, hrest⟩
      · exact .inr ⟨v, .inr p', congrArg (Prod.map id Sum.inr) h, hv, hex, hkept.inr, hrest⟩
  validate_law := by
    rintro (p | p) v hwf hres
    · exact validate_law p v hwf hres
    · exact validate_law p v hwf hres
  commit_law := by
    rintro (p | p) v hwf hres
    · obtain ⟨p', h, hkept, hrest⟩ := commit_law p v hwf hres
      exact ⟨.inl p', congrArg (Except.map Sum.inl) h, hkept.inl, hrest⟩
    · obtain ⟨p', h, hkept, hrest⟩ := commit_law p v hwf hres
      exact ⟨.inr p', congrArg (Except.map Sum.inr) h, hkept.inr, hrest⟩
  cancel_law := by
    rintro (p | p) v hwf hres
    · obtain ⟨p', h, hkept, hrest⟩ := cancel_law p v hwf hres
      exact ⟨.inl p', congrArg (Prod.map id Sum.inl) h, hkept.inl, hrest⟩
    · obtain ⟨p', h, hkept, hrest⟩ := cancel_law p v hwf hres
      exact ⟨.inr p', congrArg (Prod.map id Sum.inr) h, hkept.inr, hrest⟩

end Sum

/-! ### A policy whose inserts may fail -/

/-- `policy`, with inserts that fail whenever the stream says so. -/
structure FaultyPolicy (π : Type) where
  policy : π
  insertFaults : Stream' (Option Status) := Stream'.const none

namespace FaultyPolicy

/-- Fail with the next status of the stream, or pass the insert on. -/
def attempt (p : FaultyPolicy π) (insert : π → Except Halt (Result Unit × π)) :
    Except Halt (Result Unit × FaultyPolicy π) :=
  match p.insertFaults.head with
  | some s => .ok (.error s, { p with insertFaults := p.insertFaults.tail })
  | none => mapInsert (fun q => ⟨q, p.insertFaults.tail⟩) (insert p.policy)

instance [EvictionPolicy π] : EvictionPolicy (FaultyPolicy π) where
  onAccess p k := (EvictionPolicy.onAccess p.policy k).map fun q => { p with policy := q }
  onInsert p k n := p.attempt (EvictionPolicy.onInsert · k n)
  onPromotionCommitted p k n := p.attempt (EvictionPolicy.onPromotionCommitted · k n)
  onRemove p k := { p with policy := EvictionPolicy.onRemove p.policy k }
  selectVictim p ex :=
    (EvictionPolicy.selectVictim p.policy ex).map id fun q => { p with policy := q }
  validateVictimCommit p k := EvictionPolicy.validateVictimCommit p.policy k
  commitVictim p k := (EvictionPolicy.commitVictim p.policy k).map fun q => { p with policy := q }
  cancelVictim p k := (EvictionPolicy.cancelVictim p.policy k).map id fun q => { p with policy := q }

instance [PolicyView π] : PolicyView (FaultyPolicy π) where
  Wf p := Wf p.policy
  resident p := resident p.policy
  reserved p := reserved p.policy
  Reliable p := Reliable p.policy ∧ ∀ i, p.insertFaults.get i = none
  faults p := faults p.policy ∪ { s | ∃ i, p.insertFaults.get i = some s }

/-- The wrapped policy moved on, the stream did not. -/
theorem kept_policy [PolicyView π] {p : FaultyPolicy π} {q : π} (h : PolicyKept p.policy q) :
    PolicyKept p { p with policy := q } where
  wf := h.wf
  faults := Set.union_subset_union_left _ h.faults
  reliable := fun hr => ⟨h.reliable hr.1, hr.2⟩

/-- The wrapped policy moved on and the stream was drawn from. -/
theorem kept_drawn [PolicyView π] {p : FaultyPolicy π} {q : π} (h : PolicyKept p.policy q) :
    PolicyKept p ⟨q, p.insertFaults.tail⟩ where
  wf := h.wf
  faults := Set.union_subset_union h.faults fun _ ⟨i, hi⟩ => ⟨i + 1, hi⟩
  reliable := fun hr => ⟨h.reliable hr.1, fun i => hr.2 (i + 1)⟩

theorem inserts_attempt [PolicyView π] {p : FaultyPolicy π} {k : BlockKey}
    {insert : π → Except Halt (Result Unit × π)} (hwf : Wf p.policy)
    (hres : reserved p.policy = none) (h : Inserts p.policy k (insert p.policy)) :
    Inserts p k (p.attempt insert) := by
  simp only [attempt]
  cases hf : p.insertFaults.head with
  | some s =>
    have hhead : p.insertFaults.get 0 = some s := hf
    refine ⟨.error s, _, rfl, kept_drawn (.refl hwf), hres, rfl, fun hr => ?_, ?_⟩
    · have hnone := hr.2 0
      rw [hhead] at hnone
      cases hnone
    · exact .inr (.inr ⟨0, hhead⟩)
  | none =>
    obtain ⟨r, q, heq, hkept, hfree, hrest⟩ := h
    refine ⟨r, ⟨q, p.insertFaults.tail⟩, by simp only [heq]; rfl, kept_drawn hkept, hfree, ?_⟩
    cases r with
    | ok _ => exact hrest
    | error s =>
      obtain ⟨hsame, hunreliable, hs⟩ := hrest
      exact ⟨hsame, fun hr => hunreliable hr.1, hs.imp_right .inl⟩

open LawfulPolicy in
instance [LawfulPolicy π] : LawfulPolicy (FaultyPolicy π) where
  access_law p k hwf hk hres := by
    obtain ⟨q, h, hkept, hrest⟩ := access_law p.policy k hwf hk hres
    exact ⟨_, congrArg (Except.map _) h, kept_policy hkept, hrest⟩
  insert_law p k n hwf hres := inserts_attempt hwf hres (insert_law p.policy k n hwf hres)
  promote_law p k n hwf hres := inserts_attempt hwf hres (promote_law p.policy k n hwf hres)
  remove_law p k hwf hres := by
    obtain ⟨hkept, hrest⟩ := remove_law p.policy k hwf hres
    exact ⟨kept_policy hkept, hrest⟩
  select_law p ex hwf hres := by
    rcases select_law p.policy ex hwf hres with ⟨s, h, hrest⟩ | ⟨v, q, h, hv, hex, hkept, hrest⟩
    · exact .inl ⟨s, congrArg (Prod.map id _) h, hrest⟩
    · exact .inr ⟨v, _, congrArg (Prod.map id _) h, hv, hex, kept_policy hkept, hrest⟩
  validate_law p v hwf hres := validate_law p.policy v hwf hres
  commit_law p v hwf hres := by
    obtain ⟨q, h, hkept, hrest⟩ := commit_law p.policy v hwf hres
    exact ⟨_, congrArg (Except.map _) h, kept_policy hkept, hrest⟩
  cancel_law p v hwf hres := by
    obtain ⟨q, h, hkept, hrest⟩ := cancel_law p.policy v hwf hres
    exact ⟨_, congrArg (Prod.map id _) h, kept_policy hkept, hrest⟩

end FaultyPolicy

end TidePool.Store
