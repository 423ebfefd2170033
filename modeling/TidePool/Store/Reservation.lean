import TidePool.Schemes.Machine
import TidePool.Store.Lru
import TidePool.Store.Arc

/-! A reserved victim is invisible (`eviction_policy.h`, the two-phase contract).

    While a victim `v` is reserved the policy goes on serving the node. Its state is at every moment the
    state it would have without the selection, plus the reservation:

        p  --selectVictim-->  p + v
        |                       |          calls on other keys move both alike;
        |  calls on others      |  calls   the other calls leave the right side as it is
        v                       v
        p' <--cancelVictim v--  p' + v  --commitVictim v-->  v evicted

    so a cancelled reservation leaves no trace, and a held one can always be committed. -/

namespace TidePool.Store

open Schemes PolicyView EvictionPolicy

/-- A call of the policy. -/
inductive PolicyCall where
  | access (key : BlockKey)
  | insert (key : BlockKey) (size : ℕ)
  | promote (key : BlockKey) (size : ℕ)
  | remove (key : BlockKey)
  | select (excluded : Option BlockKey)
  | validate (key : BlockKey)
  | commit (key : BlockKey)
  | cancel (key : BlockKey)
  deriving DecidableEq

namespace PolicyCall

/-- The calls a reservation of `v` has to stand: all but those that end it. -/
def Spares (v : BlockKey) : PolicyCall → Prop
  | .remove k | .cancel k => k ≠ v
  | .commit _ => False
  | _ => True

/-- The calls that tell the policy about a key other than `v`. -/
def onOther (v : BlockKey) : PolicyCall → Bool
  | .access k | .insert k _ | .promote k _ | .remove k => k ≠ v
  | _ => false

end PolicyCall

section Step

variable {π : Type}

/-- One call; the reply is the status, and the victim a selection returns. -/
def policyStep [EvictionPolicy π] (p : π) : PolicyCall → Except Halt (Result (Option BlockKey) × π)
  | .access k => (onAccess p k).map fun p' => (.ok none, p')
  | .insert k n => (onInsert p k n).map fun r => (r.1.map fun _ => none, r.2)
  | .promote k n => (onPromotionCommitted p k n).map fun r => (r.1.map fun _ => none, r.2)
  | .remove k => .ok (.ok none, onRemove p k)
  | .select ex => .ok ((selectVictim p ex).1.map some, (selectVictim p ex).2)
  | .validate k => .ok ((validateVictimCommit p k).map fun _ => none, p)
  | .commit k => (commitVictim p k).map fun p' => (.ok none, p')
  | .cancel k => .ok ((cancelVictim p k).1.map fun _ => none, (cancelVictim p k).2)

section Replies

variable [EvictionPolicy π] {p p' : π} {k : BlockKey} {n : ℕ} {r : Result Unit}

theorem policyStep_access (h : onAccess p k = .ok p') : policyStep p (.access k) = .ok (.ok none, p') := by
  rw [policyStep, h]; rfl

theorem policyStep_insert (h : onInsert p k n = .ok (r, p')) :
    policyStep p (.insert k n) = .ok (r.map fun _ => none, p') := by
  rw [policyStep, h]; rfl

theorem policyStep_promote (h : onPromotionCommitted p k n = .ok (r, p')) :
    policyStep p (.promote k n) = .ok (r.map fun _ => none, p') := by
  rw [policyStep, h]; rfl

theorem policyStep_commit (h : commitVictim p k = .ok p') :
    policyStep p (.commit k) = .ok (.ok none, p') := by
  rw [policyStep, h]; rfl

end Replies

/-- What a selection in state `s` promises; `Evicts` says what a commit does. -/
structure Transparent [EvictionPolicy π] [PolicyView π] (Evicts : π → BlockKey → π → Prop) (s : π)
    (ex : Option BlockKey) : Prop where
  fails_iff : (∃ e t, selectVictim s ex = (.error e, t)) ↔ ∀ k ∈ resident s, ex = some k
  notFound : ∀ e t, selectVictim s ex = (.error e, t) → e.code = .notFound
  victim : ∀ v t, selectVictim s ex = (.ok v, t) → v ∈ resident s ∧ ex ≠ some v
  held : ∀ v t, selectVictim s ex = (.ok v, t) → ∀ calls : List PolicyCall, (∀ call ∈ calls, call.Spares v) →
    ∃ os t₁ os' s₁ u, run policyStep t calls = .ok (os, t₁) ∧
      run policyStep s (calls.filter (PolicyCall.onOther v)) = .ok (os', s₁) ∧
      validateVictimCommit t₁ v = .ok () ∧ cancelVictim t₁ v = (.ok (), s₁) ∧
      commitVictim t₁ v = .ok u ∧ Evicts t₁ v u

/-- `Holds s v t`: `t` is `s` with `v` reserved. What a policy has to show of it. -/
structure TwoPhase [LawfulPolicy π] (Evicts Holds : π → BlockKey → π → Prop) : Prop where
  wf : ∀ (p : π) call o p', Wf p → policyStep p call = .ok (o, p') → Wf p'
  select : ∀ (p : π) ex v t, Wf p → reserved p = none → selectVictim p ex = (.ok v, t) → Holds p v t
  other : ∀ (p : π) v t (call : PolicyCall), call.onOther v = true → Holds p v t →
    ∃ o t' o' p', policyStep t call = .ok (o, t') ∧ policyStep p call = .ok (o', p') ∧ Holds p' v t'
  idle : ∀ (p : π) v t (call : PolicyCall), call.Spares v → call.onOther v = false → Holds p v t →
    ∃ o, policyStep t call = .ok (o, t)
  ends : ∀ (p : π) v t, Holds p v t → validateVictimCommit t v = .ok () ∧ cancelVictim t v = (.ok (), p) ∧
    ∃ u, commitVictim t v = .ok u ∧ Evicts t v u

variable [LawfulPolicy π] {Evicts Holds : π → BlockKey → π → Prop}

/-- Every reachable state is consistent. -/
theorem TwoPhase.reachable (h : TwoPhase Evicts Holds) {p s : π} (hp : Wf p) {calls : List PolicyCall}
    {os : List (Result (Option BlockKey))} (hrun : run policyStep p calls = .ok (os, s)) : Wf s := by
  have hstep : ∀ (q : π) (call : PolicyCall), Wf q →
      Yields False (policyStep q call) fun res => Wf res.2 ∧ True := by
    intro q call hq
    cases hres : policyStep q call with
    | error e => exact id
    | ok res => exact ⟨h.wf q call res.1 res.2 hq hres, trivial⟩
  exact ((run_keeps Wf (fun _ => True) hstep calls hp).of_ok hrun).1

/-- A held reservation of `w`: what the machine that was not asked to select does in the meantime. -/
theorem TwoPhase.held (h : TwoPhase Evicts Holds) {s t : π} {w : BlockKey} (hholds : Holds s w t)
    {calls : List PolicyCall} (hcalls : ∀ call ∈ calls, call.Spares w) :
    ∃ os t₁ os' s₁, run policyStep t calls = .ok (os, t₁) ∧
      run policyStep s (calls.filter (PolicyCall.onOther w)) = .ok (os', s₁) ∧ Holds s₁ w t₁ := by
  refine run_purged (PolicyCall.onOther w) (fun t p => Holds p w t) ?_ ?_ hcalls hholds
  · exact fun t p call _ hother hp => h.other p w t call hother hp
  · intro t p call hspares hidle hp
    obtain ⟨o, ho⟩ := h.idle p w t call hspares hidle hp
    exact ⟨o, t, ho, hp⟩

theorem TwoPhase.transparent (h : TwoPhase Evicts Holds) {s : π} (hwf : Wf s) (hfree : reserved s = none)
    (ex : Option BlockKey) : Transparent Evicts s ex := by
  rcases LawfulPolicy.select_law s ex hwf hfree with ⟨e, heq, hcode, hnone⟩ | ⟨v, t, heq, hv, hex, -⟩
  · exact {
      fails_iff := ⟨fun _ => hnone, fun _ => ⟨e, s, heq⟩⟩
      notFound := by rintro e' t h'; rw [heq] at h'; cases h'; exact hcode
      victim := by rintro v t h'; rw [heq] at h'; cases h'
      held := by rintro v t h'; rw [heq] at h'; cases h' }
  · exact {
      fails_iff := ⟨(by rintro ⟨e, t', h'⟩; rw [heq] at h'; cases h'), fun hnone => absurd (hnone v hv) hex⟩
      notFound := by rintro e t' h'; rw [heq] at h'; cases h'
      victim := by rintro w t' h'; rw [heq] at h'; cases h'; exact ⟨hv, hex⟩
      held := by
        intro w t' hsel calls hcalls
        obtain ⟨os, t₁, os', s₁, hrun, hrun', hholds⟩ := h.held (h.select s ex w t' hwf hfree hsel) hcalls
        obtain ⟨hvalid, hcancel, u, hcommit, hevicts⟩ := h.ends s₁ w t₁ hholds
        exact ⟨os, t₁, os', s₁, u, hrun, hrun', hvalid, hcancel, hcommit, hevicts⟩ }

end Step

/-! ### LRU -/

namespace LruEviction

variable {l : LruEviction} {k v : BlockKey}

/-- A commit takes `v` out of the list; the others keep their order. -/
structure Evicts (t : LruEviction) (v : BlockKey) (u : LruEviction) : Prop where
  was : v ∈ t.order
  gone : v ∉ u.order
  order : u.order = t.order.erase v

/-- `t` is `l` with `v` reserved. -/
structure Holds (l : LruEviction) (v : BlockKey) (t : LruEviction) : Prop where
  free : l.reserved = none
  eq : t = { l with reserved := some v }
  wf : t.WellFormed

theorem wellFormed_onAccess (h : l.WellFormed) (k : BlockKey) : (l.onAccess k).WellFormed := by
  unfold onAccess
  split_ifs with hk
  · exact h
  · exact wellFormed_touch h ((h.pos k).mp hk)
  · exact h

theorem wellFormed_onInsert (h : l.WellFormed) (k : BlockKey) : (l.onInsert k).2.WellFormed := by
  unfold onInsert
  split_ifs with hk
  · exact h
  · exact wellFormed_touch h ((h.pos k).mp hk)
  · exact ⟨h.nodup, h.pos, h.reserved⟩
  · exact ⟨h.nodup, h.pos, h.reserved⟩
  · exact wellFormed_push h (fun hm => hk ((h.pos k).mpr hm)) _

theorem wellFormed_onRemove (h : l.WellFormed) (k : BlockKey) : (l.onRemove k).WellFormed := by
  unfold onRemove
  by_cases hk : k ∉ l.pos
  · rw [if_pos hk]; exact h
  · rw [if_neg hk]
    refine wellFormed_erase h fun v hv => ?_
    by_cases hres : l.reserved = some k
    · rw [if_pos hres] at hv; cases hv
    · rw [if_neg hres] at hv
      exact ⟨fun he => hres (he ▸ hv), hv⟩

theorem wellFormed_selectVictim (h : l.WellFormed) (ex : Option BlockKey) :
    (l.selectVictim ex).2.WellFormed := by
  by_cases hfree : l.reserved = none
  · rcases LawfulPolicy.select_law l ex h hfree with ⟨s, heq, -⟩ | ⟨v, p', heq, -, -, hkept, -⟩
    · exact (congrArg Prod.snd heq : (l.selectVictim ex).2 = l) ▸ h
    · exact (congrArg Prod.snd heq : (l.selectVictim ex).2 = p') ▸ hkept.wf
  · unfold selectVictim
    rw [if_pos (Option.isSome_iff_ne_none.mpr hfree)]
    exact h

theorem wellFormed_cancelVictim (h : l.WellFormed) (k : BlockKey) : (l.cancelVictim k).2.WellFormed := by
  unfold cancelVictim
  split_ifs
  · exact h
  · exact ⟨h.nodup, h.pos, by simp⟩

theorem wellFormed_commitVictim (h : l.WellFormed) {t : LruEviction} (ht : l.commitVictim k = .ok t) :
    t.WellFormed := by
  unfold commitVictim at ht
  split at ht
  · cases ht
  · cases ht; exact wellFormed_erase h (by simp)

theorem wellFormed_policyStep (h : l.WellFormed) {call : PolicyCall} {o : Result (Option BlockKey)}
    {t : LruEviction} (ht : policyStep l call = .ok (o, t)) : t.WellFormed := by
  cases call with
  | access k => cases ht; exact wellFormed_onAccess h k
  | insert k n => cases ht; exact wellFormed_onInsert h k
  | promote k n => cases ht; exact wellFormed_onInsert h k
  | remove k => cases ht; exact wellFormed_onRemove h k
  | select ex => cases ht; exact wellFormed_selectVictim h ex
  | validate k => cases ht; exact h
  | cancel k => cases ht; exact wellFormed_cancelVictim h k
  | commit k =>
    cases hc : l.commitVictim k with
    | error e =>
      rw [policyStep, show EvictionPolicy.commitVictim l k = .error e from hc] at ht
      cases ht
    | ok u =>
      rw [policyStep_commit hc] at ht
      cases ht
      exact wellFormed_commitVictim h hc

/-! What a reservation of another key changes in a call: nothing but itself. -/

theorem onAccess_reserve (hfree : l.reserved = none) (hne : k ≠ v) :
    { l with reserved := some v }.onAccess k = { l.onAccess k with reserved := some v } := by
  simp only [onAccess, touch, hfree, Option.some.injEq, hne.symm, reduceCtorEq, if_false]
  split <;> rfl

theorem onInsert_reserve (hfree : l.reserved = none) (hne : k ≠ v) :
    { l with reserved := some v }.onInsert k =
      ((l.onInsert k).1, { (l.onInsert k).2 with reserved := some v }) := by
  simp only [onInsert, touch, hfree, Option.some.injEq, hne.symm, reduceCtorEq, if_false]
  split_ifs <;> rfl

theorem onRemove_reserve (hfree : l.reserved = none) (hne : k ≠ v) :
    { l with reserved := some v }.onRemove k = { l.onRemove k with reserved := some v } := by
  simp only [onRemove, hfree, Option.some.injEq, hne.symm, reduceCtorEq, if_false]
  split <;> rfl

theorem reserved_onAccess (l : LruEviction) (k : BlockKey) : (l.onAccess k).reserved = l.reserved := by
  unfold onAccess
  split_ifs <;> rfl

theorem reserved_onInsert (l : LruEviction) (k : BlockKey) : (l.onInsert k).2.reserved = l.reserved := by
  unfold onInsert
  split_ifs <;> rfl

theorem reserved_onRemove (hfree : l.reserved = none) (k : BlockKey) : (l.onRemove k).reserved = none := by
  unfold onRemove
  split_ifs <;> simp [hfree]

/-- The list after a call that the reservation of `v` has to stand, with and without the reservation. -/
theorem Holds.other {t : LruEviction} (h : Holds l v t) {call : PolicyCall} (hother : call.onOther v = true) :
    ∃ o t' o' l', policyStep t call = .ok (o, t') ∧ policyStep l call = .ok (o', l') ∧ Holds l' v t' := by
  obtain ⟨hfree, rfl, hwf⟩ := h
  have hinsert : ∀ k, k ≠ v → Holds (l.onInsert k).2 v ({ l with reserved := some v }.onInsert k).2 := by
    intro k hne
    have hcomm := congrArg Prod.snd (onInsert_reserve hfree hne)
    exact ⟨(reserved_onInsert l k).trans hfree, hcomm, wellFormed_onInsert hwf k⟩
  cases call with
  | access k =>
    have hne : k ≠ v := by simpa [PolicyCall.onOther] using hother
    exact ⟨_, _, _, _, rfl, rfl, (reserved_onAccess l k).trans hfree, onAccess_reserve hfree hne,
      wellFormed_onAccess hwf k⟩
  | insert k n => exact ⟨_, _, _, _, rfl, rfl, hinsert k (by simpa [PolicyCall.onOther] using hother)⟩
  | promote k n => exact ⟨_, _, _, _, rfl, rfl, hinsert k (by simpa [PolicyCall.onOther] using hother)⟩
  | remove k =>
    have hne : k ≠ v := by simpa [PolicyCall.onOther] using hother
    exact ⟨_, _, _, _, rfl, rfl, reserved_onRemove hfree k, onRemove_reserve hfree hne,
      wellFormed_onRemove hwf k⟩
  | select ex => cases hother
  | validate k => cases hother
  | commit k => cases hother
  | cancel k => cases hother

/-- A call about the reserved victim, or about reservations, changes nothing. -/
theorem Holds.idle {t : LruEviction} (h : Holds l v t) {call : PolicyCall} (hspares : call.Spares v)
    (hidle : call.onOther v = false) : ∃ o, policyStep t call = .ok (o, t) := by
  obtain ⟨hfree, rfl, hwf⟩ := h
  have hpos : v ∈ l.pos := (hwf.pos v).mpr (hwf.reserved v rfl)
  have hinsert : ({ l with reserved := some v }.onInsert v).2 = { l with reserved := some v } := by
    simp [onInsert, hpos]
  cases call with
  | access k =>
    obtain rfl : k = v := by simpa [PolicyCall.onOther] using hidle
    exact ⟨.ok none, by simp [policyStep, EvictionPolicy.onAccess, onAccess, hpos, Except.map]⟩
  | insert k n =>
    obtain rfl : k = v := by simpa [PolicyCall.onOther] using hidle
    exact ⟨_, congrArg (fun t => Except.ok (_, t)) hinsert⟩
  | promote k n =>
    obtain rfl : k = v := by simpa [PolicyCall.onOther] using hidle
    exact ⟨_, congrArg (fun t => Except.ok (_, t)) hinsert⟩
  | remove k => exact absurd (by simpa [PolicyCall.onOther] using hidle) (show k ≠ v from hspares)
  | select ex => exact ⟨_, rfl⟩
  | validate k => exact ⟨_, rfl⟩
  | commit k => exact hspares.elim
  | cancel k =>
    have hne : some v ≠ some k := fun he => hspares (Option.some.inj he).symm
    refine ⟨_, congrArg (fun t => Except.ok (_, t)) ?_⟩
    simp only [EvictionPolicy.cancelVictim, cancelVictim, if_pos hne]

theorem twoPhase : TwoPhase Evicts Holds where
  wf _ _ _ _ h ht := wellFormed_policyStep h ht
  select l ex v t hwf hfree hsel := by
    have hwf' : (l.selectVictim ex).2.WellFormed := wellFormed_selectVictim hwf ex
    rw [show l.selectVictim ex = (.ok v, t) from hsel] at hwf'
    exact ⟨hfree, (selectVictim_eq_ok hsel).2.1, hwf'⟩
  other l v t call hother h := h.other hother
  idle l v t call hspares hidle h := h.idle hspares hidle
  ends l v t h := by
    have hvalid := LawfulPolicy.validate_law t v h.wf (by rw [h.eq]; rfl)
    obtain ⟨hfree, rfl, hwf⟩ := h
    have hcommit : { l with reserved := some v }.commitVictim v =
        .ok { l with order := l.order.erase v, pos := l.pos.erase v, reserved := none } := by
      rw [commitVictim, show validateVictimCommit _ v = .ok () from hvalid]
    have hcancel : { l with reserved := some v }.cancelVictim v = (.ok (), l) := by
      simp [cancelVictim, ← hfree]
    exact ⟨hvalid, hcancel, _, hcommit, hwf.reserved v rfl, hwf.nodup.not_mem_erase, rfl⟩

end LruEviction

/-! ### ARC -/

namespace ArcEviction

variable {a : ArcEviction} {k v : BlockKey} {r : Option (BlockKey × ArcList)}

/-- A commit moves `v` from its resident list to the front of that list's ghosts; the other lists stay. -/
structure Evicts (t : ArcEviction) (v : BlockKey) (u : ArcEviction) : Prop where
  gone : v ∉ resident u
  moved : ∃ src, (src = .t1 ∨ src = .t2) ∧ v ∈ t.lists src ∧ u.lists src = (t.lists src).erase v ∧
    u.lists (ghostOf src) = v :: t.lists (ghostOf src) ∧
    ∀ l, l ≠ src → l ≠ ghostOf src → u.lists l = t.lists l

/-- `t` is `a` with `v` reserved. -/
structure Holds (a : ArcEviction) (v : BlockKey) (t : ArcEviction) : Prop where
  free : a.reserved = none
  eq : ∃ src, t = { a with reserved := some (v, src) }
  wf : t.WellFormed

theorem wellFormed_onAccess (h : a.WellFormed) (k : BlockKey) :
    ∃ a', a.onAccess k = .ok a' ∧ a'.WellFormed := by
  unfold onAccess
  cases hk : a.pos.lookup k with
  | none => exact ⟨_, rfl, wellFormed_flag h false⟩
  | some l =>
    by_cases hres : a.reserved.map Prod.fst = some k
    · exact ⟨a, if_pos hres, h⟩
    · obtain ⟨a', heq, hwf, -⟩ := useKnown_spec h hk hres
      exact ⟨a', (if_neg hres).trans heq, hwf⟩

theorem wellFormed_onInsert (h : a.WellFormed) (k : BlockKey) :
    ∃ res a', a.onInsert k = .ok (res, a') ∧ a'.WellFormed := by
  unfold onInsert
  cases hk : a.pos.lookup k with
  | some l =>
    by_cases hres : a.reserved.map Prod.fst = some k
    · exact ⟨_, a, if_pos hres, h⟩
    · obtain ⟨a', heq, hwf, -⟩ := useKnown_spec h hk hres
      exact ⟨.ok (), a', (if_neg hres).trans (by rw [heq]; rfl), hwf⟩
  | none =>
    rcases pushFront_cases h hk with ⟨s, a', heq, hwf, -⟩ | ⟨a', heq, hwf, -⟩
    · exact ⟨.error s, a', by simp only [heq], hwf⟩
    · simp only [heq]
      cases htrim : a.ghostToTrimForInsert with
      | none => exact ⟨.ok (), _, rfl, wellFormed_flag hwf false⟩
      | some l =>
        have hwf' := (eraseLru_spec hwf (ghostToTrimForInsert_ghost htrim)).1
        exact ⟨.ok (), _, rfl, wellFormed_flag hwf' false⟩

theorem wellFormed_onRemove (h : a.WellFormed) (k : BlockKey) : (a.onRemove k).WellFormed := by
  unfold onRemove
  cases hk : a.pos.lookup k with
  | none => exact h
  | some l =>
    have hlinked : Linked (Function.update a.lists l ((a.lists l).erase k))
        fun j => (a.pos.erase k).lookup j := h.linked.unlink hk fun j => Dict.lookup_erase_if _ _ _
    refine ⟨hlinked, fun j m hj => ?_, h.p_nonneg, h.p_le⟩
    dsimp only at hj
    by_cases hres : a.reserved.map Prod.fst = some k
    · simp [hres] at hj
    · rw [if_neg hres] at hj
      have hne : j ≠ k := by rintro rfl; exact hres (by simp [hj])
      obtain ⟨hm, hin⟩ := h.reserved j m hj
      exact ⟨hm, (h.linked.mem_congr hlinked (by simp [hne]) m).mpr hin⟩

theorem wellFormed_selectVictim (h : a.WellFormed) (ex : Option BlockKey) :
    (a.selectVictim ex).2.WellFormed := by
  by_cases hfree : a.reserved = none
  · rcases selectVictim_cases hfree ex with ⟨s, heq, -⟩ | ⟨v, src, heq, hsrc, hmem, -⟩
    · rw [heq]; exact h
    · rw [heq]
      refine ⟨h.linked, ?_, h.p_nonneg, h.p_le⟩
      rintro j l ⟨⟩
      exact ⟨hsrc, hmem⟩
  · unfold selectVictim
    rw [if_pos (Option.isSome_iff_ne_none.mpr hfree)]
    exact h

theorem wellFormed_cancelVictim (h : a.WellFormed) (k : BlockKey) : (a.cancelVictim k).2.WellFormed := by
  unfold cancelVictim
  split_ifs
  · exact h
  · exact ⟨h.linked, by simp, h.p_nonneg, h.p_le⟩

/-- A commit that does not abort is one of the reserved victim. -/
theorem reserved_of_commitVictim {t : ArcEviction} (h : a.commitVictim k = .ok t) :
    ∃ src, a.reserved = some (k, src) := by
  cases hres : a.reserved with
  | none => simp [commitVictim, validateVictimCommit, hres] at h
  | some kl =>
    obtain ⟨j, src⟩ := kl
    by_cases hj : j = k
    · exact ⟨src, by rw [hj]⟩
    · simp [commitVictim, validateVictimCommit, hres, hj] at h

theorem wellFormed_policyStep (h : a.WellFormed) {call : PolicyCall} {o : Result (Option BlockKey)}
    {t : ArcEviction} (ht : policyStep a call = .ok (o, t)) : t.WellFormed := by
  have hinsert : ∀ k, (a.onInsert k).map (fun res => (res.1.map fun _ => none, res.2)) = .ok (o, t) →
      t.WellFormed := by
    intro k hk
    obtain ⟨res, a', heq, hwf⟩ := wellFormed_onInsert h k
    rw [heq] at hk
    cases hk
    exact hwf
  cases call with
  | access k =>
    obtain ⟨a', heq, hwf⟩ := wellFormed_onAccess h k
    rw [policyStep_access heq] at ht
    cases ht
    exact hwf
  | insert k n => exact hinsert k ht
  | promote k n => exact hinsert k ht
  | remove k => cases ht; exact wellFormed_onRemove h k
  | select ex => cases ht; exact wellFormed_selectVictim h ex
  | validate k => cases ht; exact h
  | cancel k => cases ht; exact wellFormed_cancelVictim h k
  | commit k =>
    cases hc : a.commitVictim k with
    | error e =>
      rw [policyStep, show EvictionPolicy.commitVictim a k = .error e from hc] at ht
      cases ht
    | ok u =>
      obtain ⟨src, hsrc⟩ := reserved_of_commitVictim hc
      obtain ⟨a', heq, hwf, -⟩ := commitVictim_spec h hsrc
      rw [policyStep_commit heq] at ht
      cases ht
      exact hwf

/-! What a reservation of another key changes in a call: nothing but itself. -/

theorem relink_reserve (a : ArcEviction) (k : BlockKey) (dst : ArcList) :
    { a with reserved := r }.relink k dst = (a.relink k dst).map fun a' => { a' with reserved := r } := by
  unfold relink
  dsimp only
  cases a.pos.lookup k <;> rfl

theorem useKnown_reserve (a : ArcEviction) (k : BlockKey) (l : ArcList) :
    { a with reserved := r }.useKnown k l = (a.useKnown k l).map fun a' => { a' with reserved := r } := by
  cases l with
  | t1 => exact relink_reserve a k .t2
  | t2 => exact relink_reserve a k .t2
  | b1 => exact relink_reserve { a.adaptUp with lastHitInB2 := false } k .t2
  | b2 => exact relink_reserve { a.adaptDown with lastHitInB2 := true } k .t2

theorem onAccess_reserve (hfree : a.reserved = none) (hne : r.map Prod.fst ≠ some k) :
    { a with reserved := r }.onAccess k = (a.onAccess k).map fun a' => { a' with reserved := r } := by
  unfold onAccess
  dsimp only
  cases a.pos.lookup k with
  | none => rfl
  | some l =>
    simp only [hfree, hne, if_false, Option.map_none, reduceCtorEq]
    exact useKnown_reserve a k l

theorem pushFront_reserve (a : ArcEviction) (k : BlockKey) (dst : ArcList) :
    { a with reserved := r }.pushFront k dst =
      ((a.pushFront k dst).1, { (a.pushFront k dst).2 with reserved := r }) := by
  unfold pushFront
  dsimp only
  split_ifs <;> rfl

theorem eraseLru_reserve (a : ArcEviction) (l : ArcList) :
    { a with reserved := r }.eraseLru l = { a.eraseLru l with reserved := r } := by
  unfold eraseLru
  dsimp only
  cases (a.lists l).getLast? <;> rfl

theorem onInsert_reserve (hfree : a.reserved = none) (hne : r.map Prod.fst ≠ some k) :
    { a with reserved := r }.onInsert k =
      (a.onInsert k).map fun res => (res.1, { res.2 with reserved := r }) := by
  unfold onInsert
  dsimp only
  cases a.pos.lookup k with
  | some l =>
    simp only [hfree, hne, if_false, Option.map_none, reduceCtorEq]
    rw [useKnown_reserve]
    cases a.useKnown k l <;> rfl
  | none =>
    have hghost : { a with reserved := r }.ghostToTrimForInsert = a.ghostToTrimForInsert := rfl
    simp only [pushFront_reserve, hghost]
    rcases a.pushFront k .t1 with ⟨res, a'⟩
    cases res with
    | error s => rfl
    | ok _ =>
      cases a.ghostToTrimForInsert with
      | none => rfl
      | some l =>
        simp only [Option.elim_some, eraseLru_reserve]
        rfl

theorem onRemove_reserve (a : ArcEviction) (hne : r.map Prod.fst ≠ some k) :
    { a with reserved := r }.onRemove k = { a.onRemove k with reserved := r } := by
  unfold onRemove
  dsimp only
  cases a.pos.lookup k with
  | none => rfl
  | some l => simp only [hne, if_false]

/-- Nothing is reserved by a call that changes `a` only. -/
theorem free_of_commute {a' : ArcEviction} {c : Except Halt ArcEviction} (hc : c = .ok a')
    (hcomm : c = c.map fun a' => { a' with reserved := none }) : a'.reserved = none := by
  rw [hc] at hcomm
  exact congrArg ArcEviction.reserved (Except.ok.inj hcomm)

theorem Holds.other {t : ArcEviction} (h : Holds a v t) {call : PolicyCall} (hother : call.onOther v = true) :
    ∃ o t' o' a', policyStep t call = .ok (o, t') ∧ policyStep a call = .ok (o', a') ∧ Holds a' v t' := by
  obtain ⟨hfree, ⟨src, rfl⟩, hwf⟩ := h
  have hself : { a with reserved := none } = a := by rw [← hfree]
  have hr : ∀ {k}, k ≠ v → (some (v, src)).map Prod.fst ≠ some k := fun hne he =>
    hne (Option.some.inj he).symm
  have hinsert : ∀ k, k ≠ v → ∃ res a' t', { a with reserved := some (v, src) }.onInsert k = .ok (res, t') ∧
      a.onInsert k = .ok (res, a') ∧ Holds a' v t' := by
    intro k hne
    obtain ⟨res, t', ht, hwf'⟩ := wellFormed_onInsert hwf k
    have hcomm := onInsert_reserve hfree (hr hne)
    have hcomm' := onInsert_reserve (r := none) hfree (k := k) (by simp)
    rw [hself] at hcomm'
    cases ha : a.onInsert k with
    | error e => rw [ht, ha] at hcomm; cases hcomm
    | ok res' =>
      rw [ht, ha] at hcomm
      rw [ha] at hcomm'
      cases hcomm
      exact ⟨_, _, _, ht, rfl, congrArg (fun x => x.2.reserved) (Except.ok.inj hcomm'), ⟨src, rfl⟩, hwf'⟩
  cases call with
  | access k =>
    have hne : k ≠ v := by simpa [PolicyCall.onOther] using hother
    obtain ⟨t', ht, hwf'⟩ := wellFormed_onAccess hwf k
    have hcomm := onAccess_reserve hfree (hr hne)
    have hcomm' := onAccess_reserve (r := none) hfree (k := k) (by simp)
    rw [hself] at hcomm'
    cases ha : a.onAccess k with
    | error e => rw [ht, ha] at hcomm; cases hcomm
    | ok a' =>
      rw [ht, ha] at hcomm
      cases hcomm
      exact ⟨_, _, _, a', policyStep_access ht, policyStep_access ha, free_of_commute ha hcomm', ⟨src, rfl⟩,
        hwf'⟩
  | insert k n =>
    obtain ⟨res, a', t', ht, ha, hholds⟩ := hinsert k (by simpa [PolicyCall.onOther] using hother)
    exact ⟨_, t', _, a', policyStep_insert ht, policyStep_insert ha, hholds⟩
  | promote k n =>
    obtain ⟨res, a', t', ht, ha, hholds⟩ := hinsert k (by simpa [PolicyCall.onOther] using hother)
    exact ⟨_, t', _, a', policyStep_promote ht, policyStep_promote ha, hholds⟩
  | remove k =>
    have hne : k ≠ v := by simpa [PolicyCall.onOther] using hother
    have hcomm := onRemove_reserve a (hr hne)
    have hcomm' := onRemove_reserve a (r := none) (k := k) (by simp)
    rw [hself] at hcomm'
    exact ⟨_, _, _, _, rfl, rfl, congrArg ArcEviction.reserved hcomm', ⟨src, hcomm⟩,
      wellFormed_onRemove hwf k⟩
  | select ex => cases hother
  | validate k => cases hother
  | commit k => cases hother
  | cancel k => cases hother

theorem Holds.idle {t : ArcEviction} (h : Holds a v t) {call : PolicyCall} (hspares : call.Spares v)
    (hidle : call.onOther v = false) : ∃ o, policyStep t call = .ok (o, t) := by
  obtain ⟨-, ⟨src, rfl⟩, hwf⟩ := h
  have hpos : a.pos.lookup v = some src := (hwf.linked.pos v src).mpr (hwf.reserved v src rfl).2
  have hinsert : { a with reserved := some (v, src) }.onInsert v =
      .ok (.error (.invalidArgument "ARC cannot insert its reserved victim"),
      { a with reserved := some (v, src) }) := by
    simp [onInsert, hpos]
  cases call with
  | access k =>
    obtain rfl : k = v := by simpa [PolicyCall.onOther] using hidle
    exact ⟨.ok none, by simp [policyStep, EvictionPolicy.onAccess, onAccess, hpos, Except.map]⟩
  | insert k n =>
    obtain rfl : k = v := by simpa [PolicyCall.onOther] using hidle
    exact ⟨_, policyStep_insert hinsert⟩
  | promote k n =>
    obtain rfl : k = v := by simpa [PolicyCall.onOther] using hidle
    exact ⟨_, policyStep_promote hinsert⟩
  | remove k => exact absurd (by simpa [PolicyCall.onOther] using hidle) (show k ≠ v from hspares)
  | select ex => exact ⟨_, rfl⟩
  | validate k => exact ⟨_, rfl⟩
  | commit k => exact hspares.elim
  | cancel k =>
    have hne : some v ≠ some k := fun he => hspares (Option.some.inj he).symm
    refine ⟨_, congrArg (fun t => Except.ok (_, t)) ?_⟩
    simp only [EvictionPolicy.cancelVictim, cancelVictim, Option.map_some, if_pos hne]

theorem evicts_commitVictim (h : a.WellFormed) {src : ArcList} (hres : a.reserved = some (v, src)) :
    ∃ u, a.commitVictim v = .ok u ∧ Evicts a v u := by
  obtain ⟨hsrc, hmem⟩ := h.reserved v src hres
  have hne : src ≠ ghostOf src := by rcases hsrc with rfl | rfl <;> decide
  obtain ⟨u, hu, hwf, -, -, hlookup⟩ := commitVictim_spec h hres
  have hlists := commitVictim_eq h hres
  rw [hu] at hlists
  refine ⟨u, hu, ?_, src, hsrc, hmem, ?_⟩
  · rw [mem_resident hwf.linked]
    simp [hlookup, ghostOf_not_resident]
  · rw [Except.ok.inj hlists]
    exact ⟨moved_src hne, moved_dst hne, fun l hl hl' => moved_other hl hl'⟩

theorem twoPhase : TwoPhase Evicts Holds where
  wf _ _ _ _ h ht := wellFormed_policyStep h ht
  select a ex v t hwf hfree hsel := by
    have hfree : a.reserved = none := by simpa [PolicyView.reserved] using hfree
    have hwf' : (a.selectVictim ex).2.WellFormed := wellFormed_selectVictim hwf ex
    have hsel : a.selectVictim ex = (.ok v, t) := hsel
    rw [hsel] at hwf'
    rcases selectVictim_cases hfree ex with ⟨s, heq, -⟩ | ⟨w, src, heq, -⟩
    · rw [heq] at hsel; cases hsel
    · rw [heq] at hsel
      cases hsel
      exact ⟨hfree, ⟨src, rfl⟩, hwf'⟩
  other a v t call hother h := h.other hother
  idle a v t call hspares hidle h := h.idle hspares hidle
  ends a v t h := by
    obtain ⟨hfree, ⟨src, rfl⟩, hwf⟩ := h
    have hcancel : { a with reserved := some (v, src) }.cancelVictim v = (.ok (), a) := by
      simp [cancelVictim, ← hfree]
    exact ⟨validateVictimCommit_reserved hwf rfl, hcancel, evicts_commitVictim hwf rfl⟩

end ArcEviction

/-- INVISIBLE: for both policies, in every reachable state without a reservation, a selection fails
    exactly when no resident is left to choose; a held victim can always be committed, and cancelling it
    leaves the state that the calls on the other keys alone would have left. -/
theorem reservations_transparent :
    (∀ (allocs : Stream' Bool) (calls : List PolicyCall) os (s : LruEviction),
      run policyStep ({ allocs } : LruEviction) calls = .ok (os, s) → s.reserved = none →
        ∀ ex, Transparent LruEviction.Evicts s ex) ∧
    ∀ (capacityBlocks : ℕ) (allocs : Stream' Bool) (calls : List PolicyCall) os (s : ArcEviction),
      run policyStep (ArcEviction.make capacityBlocks allocs) calls = .ok (os, s) → s.reserved = none →
        ∀ ex, Transparent ArcEviction.Evicts s ex := by
  constructor
  · intro allocs calls os s hrun hfree ex
    have hwf := LruEviction.twoPhase.reachable (LruEviction.wellFormed_empty allocs) hrun
    exact LruEviction.twoPhase.transparent hwf hfree ex
  · intro c allocs calls os s hrun hfree ex
    have hwf := ArcEviction.twoPhase.reachable (ArcEviction.wellFormed_make c allocs) hrun
    exact ArcEviction.twoPhase.transparent hwf (by simp [PolicyView.reserved, hfree]) ex

/-- Two blocks are resident and one is excluded: ARC reserves the other. -/
theorem reservations_transparent_pair :
    ∃ os s, run policyStep (ArcEviction.make 2) [.insert ⟨1, 1, 1⟩ 8, .insert ⟨2, 1, 1⟩ 8] = .ok (os, s) ∧
      (selectVictim s (some ⟨1, 1, 1⟩)).1 = .ok ⟨2, 1, 1⟩ ∧
      Transparent ArcEviction.Evicts s (some ⟨1, 1, 1⟩) := by
  have hstate : ∃ os s, run policyStep (ArcEviction.make 2) [.insert ⟨1, 1, 1⟩ 8, .insert ⟨2, 1, 1⟩ 8] =
      .ok (os, s) ∧ s.reserved = none ∧ (selectVictim s (some ⟨1, 1, 1⟩)).1 = .ok ⟨2, 1, 1⟩ :=
    ⟨_, _, rfl, rfl, rfl⟩
  obtain ⟨os, s, hrun, hfree, hsel⟩ := hstate
  exact ⟨os, s, hrun, hsel, reservations_transparent.2 2 _ _ os s hrun hfree _⟩

end TidePool.Store
