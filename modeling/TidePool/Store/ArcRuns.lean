import TidePool.Store.Reservation

/-! Adaptive replacement on its own, over every sequence of calls.

    Whatever is asked in whatever order, and whichever allocations fail, the four lists and `pos_` agree
    (`arc_representation`): the calls abort only at a commit that was not validated.

    The tie-break of the REPLACE rule reads one bit, `last_hit_in_b2_`, which is meant to say whether the
    latest access hit B2:

        use of a key in B2                      true
        use of a key in B1, new or unknown      false
        commit of a victim                      false
        use of a key in T1 or T2                as it was
        insert that runs out of memory          as it was

    The last two rows overlook an access, so the bit of an earlier ghost hit outlives it (`Stale`); without
    them it says what it is meant to. -/

namespace TidePool.Store

open Schemes EvictionPolicy

/-- `CommitVictim`. -/
def PolicyCall.isCommit : PolicyCall → Bool
  | .commit _ => true
  | _ => false

namespace ArcEviction

variable {a a' : ArcEviction} {k : BlockKey} {call : PolicyCall} {o : Result (Option BlockKey)}

/-! ### The representation -/

/-- A commit is only asked for a victim that `ValidateVictimCommit` has just accepted. -/
def Validated (a : ArcEviction) (call : PolicyCall) : Prop :=
  ∀ k, call = .commit k → a.validateVictimCommit k = .ok ()

/-- A validated commit is one of the reserved victim. -/
theorem reserved_of_validate (h : a.validateVictimCommit k = .ok ()) : ∃ src, a.reserved = some (k, src) := by
  cases hres : a.reserved with
  | none => simp [validateVictimCommit, hres] at h
  | some kl =>
    obtain ⟨j, src⟩ := kl
    by_cases hj : j = k
    · exact ⟨src, by rw [hj]⟩
    · simp [validateVictimCommit, hres, hj] at h

/-- No call aborts, and every call keeps the representation. -/
theorem policyStep_yields (h : a.WellFormed) (hcall : a.Validated call) :
    Yields True (policyStep a call) fun res => res.2.WellFormed := by
  have hanswers : ∃ res, policyStep a call = .ok res := by
    cases call with
    | access k =>
      obtain ⟨a', heq, -⟩ := wellFormed_onAccess h k
      exact ⟨_, policyStep_access heq⟩
    | insert k n =>
      obtain ⟨r, a', heq, -⟩ := wellFormed_onInsert h k
      exact ⟨_, policyStep_insert heq⟩
    | promote k n =>
      obtain ⟨r, a', heq, -⟩ := wellFormed_onInsert h k
      exact ⟨_, policyStep_promote heq⟩
    | remove k => exact ⟨_, rfl⟩
    | select ex => exact ⟨_, rfl⟩
    | validate k => exact ⟨_, rfl⟩
    | cancel k => exact ⟨_, rfl⟩
    | commit k =>
      obtain ⟨src, hsrc⟩ := reserved_of_validate (hcall k rfl)
      obtain ⟨u, hu, -⟩ := commitVictim_spec h hsrc
      exact ⟨_, policyStep_commit hu⟩
  obtain ⟨res, hres⟩ := hanswers
  rw [hres]
  exact .ok (wellFormed_policyStep h hres)

theorem WellFormed.disjoint (h : a.WellFormed) {l l' : ArcList} (hne : l ≠ l') :
    List.Disjoint (a.lists l) (a.lists l') := by
  intro k hk hk'
  have hl := (h.linked.pos k l).mpr hk
  have hl' := (h.linked.pos k l').mpr hk'
  exact hne (Option.some.inj (hl.symm.trans hl'))

/-- REPRESENTATION: after any calls, no matter which allocations fail, the lists have no duplicates and share
    no key, `pos` holds exactly their keys, the reserved victim is where it was found, and `p` is in range. -/
theorem arc_representation (capacityBlocks : ℕ) (allocs : Stream' Bool) (calls : List PolicyCall)
    (hcalls : Along policyStep Validated (make capacityBlocks allocs) calls) :
    ∃ os a, run policyStep (make capacityBlocks allocs) calls = .ok (os, a) ∧
      (∀ l, (a.lists l).Nodup) ∧ (∀ l l', l ≠ l' → List.Disjoint (a.lists l) (a.lists l')) ∧
      (∀ k l, a.pos.lookup k = some l ↔ k ∈ a.lists l) ∧
      (∀ k src, a.reserved = some (k, src) → (src = .t1 ∨ src = .t2) ∧ k ∈ a.lists src) ∧
      0 ≤ a.p ∧ a.p ≤ a.c := by
  have hrun : Yields True (run policyStep (make capacityBlocks allocs) calls) fun res => res.2.WellFormed ∧
      ∀ o ∈ res.1, True :=
    run_yields (fun (_ : Unit) _ _ => ()) (fun a _ => a.WellFormed) (fun _ => True)
      (fun a _ call hcall ha => (policyStep_yields ha hcall).mono fun res hres => ⟨hres, trivial⟩) hcalls
      (a := ()) (wellFormed_make capacityBlocks allocs)
  obtain ⟨⟨os, a⟩, heq, ha, -⟩ := hrun.answer trivial
  exact ⟨os, a, heq, ha.linked.nodup, fun l l' hne => ha.disjoint hne, ha.linked.pos, ha.reserved,
    ha.p_nonneg, ha.p_le⟩

/-- A block is used twice, the next one runs out of memory, and the first is committed as the victim. -/
theorem arc_representation_commit :
    ∃ os a, run policyStep (make 2 (Stream'.cons true (Stream'.cons true (Stream'.const false))))
        [.insert ⟨1, 1, 1⟩ 8, .access ⟨1, 1, 1⟩, .insert ⟨2, 1, 1⟩ 8, .select none, .commit ⟨1, 1, 1⟩] =
          .ok (os, a) ∧ ∀ k, a.pos.lookup k = some .b2 ↔ k ∈ a.lists .b2 := by
  have hquiet : ∀ {a : ArcEviction} {call : PolicyCall}, call.isCommit = false → a.Validated call := by
    rintro a call hcall k rfl
    cases hcall
  have hcalls : Along policyStep Validated (make 2
    (Stream'.cons true (Stream'.cons true (Stream'.const false))))
      [.insert ⟨1, 1, 1⟩ 8, .access ⟨1, 1, 1⟩, .insert ⟨2, 1, 1⟩ 8, .select none, .commit ⟨1, 1, 1⟩] := by
    refine along_cons rfl (hquiet rfl) (along_cons rfl (hquiet rfl) (along_cons rfl (hquiet rfl)
      (along_cons rfl (hquiet rfl) (along_cons rfl ?_ trivial))))
    rintro k ⟨⟩
    rfl
  obtain ⟨os, a, hrun, -, -, hpos, -⟩ := arc_representation _ _ _ hcalls
  exact ⟨os, a, hrun, fun k => hpos k .b2⟩

/-! ### The bit of the tie-break -/

/-- The key a call uses, unless it is the reserved victim. -/
def used (a : ArcEviction) : PolicyCall → Option BlockKey
  | .access k | .insert k _ | .promote k _ => if a.reserved.map Prod.fst = some k then none else some k
  | _ => none

/-- The latest use was of a key then in B2, and no victim has been committed since. -/
def LatestHitInB2 (history : List (ArcEviction × PolicyCall)) : Prop :=
  ∃ before a call k after, history = before ++ (a, call) :: after ∧ a.used call = some k ∧ k ∈ a.lists .b2 ∧
    ∀ e ∈ after, e.1.used e.2 = none ∧ e.2.isCommit = false

/-- Both allocations of an insert succeed. -/
def HasRoom (a : ArcEviction) : Prop := a.allocs.head = true ∧ a.allocs.tail.head = true

/-- A use that the bit does not see: of a resident key, or an insert that runs out of memory. -/
def Overlooked (a : ArcEviction) (call : PolicyCall) : Prop :=
  ∃ k, a.used call = some k ∧ (k ∈ a.lists .t1 ∨ k ∈ a.lists .t2 ∨
    a.pos.lookup k = none ∧ call ≠ .access k ∧ ¬ a.HasRoom)

/-- It matters when the bit is set. -/
def Stale (a : ArcEviction) (call : PolicyCall) : Prop := a.lastHitInB2 = true ∧ a.Overlooked call

theorem not_latestHitInB2_nil : ¬ LatestHitInB2 [] := by
  rintro ⟨before, a, call, k, after, h, -⟩
  simp at h

theorem latestHitInB2_concat {history : List (ArcEviction × PolicyCall)} :
    LatestHitInB2 (history ++ [(a, call)]) ↔
      (∃ k, a.used call = some k ∧ k ∈ a.lists .b2) ∨
        a.used call = none ∧ call.isCommit = false ∧ LatestHitInB2 history := by
  constructor
  · rintro ⟨before, b, c, k, after, h, hused, hmem, hafter⟩
    rcases List.eq_nil_or_concat after with rfl | ⟨after, e, rfl⟩
    · obtain ⟨-, he⟩ := List.append_inj' h rfl
      obtain ⟨rfl, rfl⟩ := Prod.mk.inj (List.singleton_inj.mp he)
      exact .inl ⟨k, hused, hmem⟩
    · have h' : history ++ [(a, call)] = (before ++ (b, c) :: after) ++ [e] := by simpa using h
      obtain ⟨rfl, he⟩ := List.append_inj' h' rfl
      obtain rfl := List.singleton_inj.mp he
      obtain ⟨hnone, hcommit⟩ := hafter (a, call) (by simp)
      exact .inr ⟨hnone, hcommit, before, b, c, k, after, rfl, hused, hmem,
        fun e he => hafter e (by simp [he])⟩
  · rintro (⟨k, hused, hmem⟩ | ⟨hnone, hcommit, before, b, c, k, after, rfl, hused, hmem, hafter⟩)
    · exact ⟨history, a, call, k, [], rfl, hused, hmem, by simp⟩
    · refine ⟨before, b, c, k, after ++ [(a, call)], by simp, hused, hmem, fun e he => ?_⟩
      rcases List.mem_append.mp he with he | he
      · exact hafter e he
      · rw [List.mem_singleton.mp he]
        exact ⟨hnone, hcommit⟩

theorem flag_relink {dst : ArcList} (h : a.relink k dst = .ok a') : a'.lastHitInB2 = a.lastHitInB2 := by
  unfold relink at h
  cases hk : a.pos.lookup k with
  | none => rw [hk] at h; cases h
  | some src => rw [hk] at h; cases h; rfl

/-- A known key sets the bit by the list it was in. -/
theorem flag_useKnown {l : ArcList} (h : a.useKnown k l = .ok a') :
    (l = .b2 ∧ a'.lastHitInB2 = true) ∨ (l = .b1 ∧ a'.lastHitInB2 = false) ∨
      (l = .t1 ∨ l = .t2) ∧ a'.lastHitInB2 = a.lastHitInB2 := by
  cases l with
  | t1 => exact .inr (.inr ⟨.inl rfl, flag_relink h⟩)
  | t2 => exact .inr (.inr ⟨.inr rfl, flag_relink h⟩)
  | b1 => exact .inr (.inl ⟨rfl, flag_relink h⟩)
  | b2 => exact .inl ⟨rfl, flag_relink h⟩

theorem flag_pushFront (hk : a.pos.lookup k = none) :
    (a.HasRoom ∧ ∃ a', a.pushFront k .t1 = (.ok (), a')) ∨
      ¬ a.HasRoom ∧ ∃ s a', a.pushFront k .t1 = (.error s, a') ∧ a'.lastHitInB2 = a.lastHitInB2 := by
  unfold HasRoom pushFront
  cases a.allocs.head with
  | false => exact .inr ⟨by simp, _, _, rfl, rfl⟩
  | true =>
    cases a.allocs.tail.head with
    | false => exact .inr ⟨by simp, _, _, rfl, rfl⟩
    | true => exact .inl ⟨⟨rfl, rfl⟩, _, by simp only [hk]; rfl⟩

/-- The calls that use a key. -/
theorem used_cases (h : a.used call = some k) : a.reserved.map Prod.fst ≠ some k ∧
    (call = .access k ∨ ∃ n, call = .insert k n ∨ call = .promote k n) := by
  have huse : ∀ j, (if a.reserved.map Prod.fst = some j then none else some j) = some k →
      j = k ∧ a.reserved.map Prod.fst ≠ some k := by
    intro j hj
    by_cases hres : a.reserved.map Prod.fst = some j
    · rw [if_pos hres] at hj; cases hj
    · rw [if_neg hres] at hj
      cases hj
      exact ⟨rfl, hres⟩
  cases call with
  | access j =>
    obtain ⟨rfl, hres⟩ := huse j h
    exact ⟨hres, .inl rfl⟩
  | insert j n =>
    obtain ⟨rfl, hres⟩ := huse j h
    exact ⟨hres, .inr ⟨n, .inl rfl⟩⟩
  | promote j n =>
    obtain ⟨rfl, hres⟩ := huse j h
    exact ⟨hres, .inr ⟨n, .inr rfl⟩⟩
  | remove j => cases h
  | select ex => cases h
  | validate j => cases h
  | commit j => cases h
  | cancel j => cases h

theorem policyStep_inserted (hcall : ∃ n, call = .insert k n ∨ call = .promote k n)
    (h : policyStep a call = .ok (o, a')) : ∃ r, a.onInsert k = .ok (r, a') := by
  have hmap : (a.onInsert k).map (fun res => (res.1.map fun _ => none, res.2)) = .ok (o, a') := by
    obtain ⟨n, rfl | rfl⟩ := hcall <;> exact h
  cases heq : a.onInsert k with
  | error e => rw [heq] at hmap; cases hmap
  | ok res =>
    rw [heq] at hmap
    cases hmap
    exact ⟨res.1, rfl⟩

/-- A known key is used the same way by all three calls. -/
theorem policyStep_known {l : ArcList} (hused : a.used call = some k) (hk : a.pos.lookup k = some l)
    (h : policyStep a call = .ok (o, a')) : a.useKnown k l = .ok a' := by
  obtain ⟨hres, rfl | hcall⟩ := used_cases hused
  · have heq : a.onAccess k = a.useKnown k l := by simp only [onAccess, hk, if_neg hres]
    cases hknown : a.useKnown k l with
    | error e =>
      rw [policyStep, show EvictionPolicy.onAccess a k = .error e from heq.trans hknown] at h
      cases h
    | ok a₁ =>
      rw [policyStep_access (heq.trans hknown)] at h
      cases h
      rfl
  · obtain ⟨r, heq⟩ := policyStep_inserted hcall h
    rw [onInsert] at heq
    simp only [hk, if_neg hres] at heq
    cases hknown : a.useKnown k l with
    | error e => rw [hknown] at heq; cases heq
    | ok a₁ => rw [hknown] at heq; cases heq; rfl

/-- A key nobody knows clears the bit, unless its insert fails. -/
theorem policyStep_unknown (hused : a.used call = some k) (hk : a.pos.lookup k = none)
    (h : policyStep a call = .ok (o, a')) :
    (call ≠ .access k ∧ ¬ a.HasRoom) ∧ a'.lastHitInB2 = a.lastHitInB2 ∨
      ¬ (call ≠ .access k ∧ ¬ a.HasRoom) ∧ a'.lastHitInB2 = false := by
  obtain ⟨-, rfl | hcall⟩ := used_cases hused
  · have heq : a.onAccess k = .ok { a with lastHitInB2 := false } := by simp only [onAccess, hk]
    rw [policyStep_access heq] at h
    cases h
    exact .inr ⟨fun hno => hno.1 rfl, rfl⟩
  · have hne : call ≠ .access k := by
      rintro rfl
      obtain ⟨n, h | h⟩ := hcall <;> cases h
    obtain ⟨r, heq⟩ := policyStep_inserted hcall h
    simp only [onInsert, hk] at heq
    rcases flag_pushFront hk with ⟨hroom, a₁, hpush⟩ | ⟨hroom, s, a₁, hpush, hflag⟩
    · rw [hpush] at heq
      cases heq
      exact .inr ⟨fun hno => hno.2 hroom, rfl⟩
    · rw [hpush] at heq
      cases heq
      exact .inl ⟨⟨hne, hroom⟩, hflag⟩

/-- The bit after a use of a key that is not reserved. -/
theorem flag_used (hwf : a.WellFormed) (hused : a.used call = some k) (h : policyStep a call = .ok (o, a')) :
    (k ∈ a.lists .b2 ∧ ¬ a.Overlooked call ∧ a'.lastHitInB2 = true) ∨
      k ∉ a.lists .b2 ∧ (a.Overlooked call ∧ a'.lastHitInB2 = a.lastHitInB2 ∨
        ¬ a.Overlooked call ∧ a'.lastHitInB2 = false) := by
  have hseen : a.Overlooked call ↔ k ∈ a.lists .t1 ∨ k ∈ a.lists .t2 ∨
      a.pos.lookup k = none ∧ call ≠ .access k ∧ ¬ a.HasRoom := by
    constructor
    · rintro ⟨j, hj, hcase⟩
      obtain rfl := Option.some.inj (hj.symm.trans hused)
      exact hcase
    · exact fun hcase => ⟨k, hused, hcase⟩
  rw [hseen, ← hwf.linked.pos, ← hwf.linked.pos, ← hwf.linked.pos]
  cases hk : a.pos.lookup k with
  | none =>
    refine .inr ⟨by simp, ?_⟩
    simpa using policyStep_unknown hused hk h
  | some l =>
    have hflag := flag_useKnown (policyStep_known hused hk h)
    rcases hflag with ⟨rfl, hflag⟩ | ⟨rfl, hflag⟩ | ⟨rfl | rfl, hflag⟩ <;> simp [hflag]

/-- The reserved victim is known, so a use of it changes nothing. -/
theorem policyStep_reserved (hwf : a.WellFormed) (hres : a.reserved.map Prod.fst = some k)
    (hcall : call = .access k ∨ ∃ n, call = .insert k n ∨ call = .promote k n)
    (h : policyStep a call = .ok (o, a')) : a' = a := by
  obtain ⟨src, hsrc⟩ : ∃ src, a.reserved = some (k, src) := by
    cases hr : a.reserved with
    | none => rw [hr] at hres; cases hres
    | some kl => rw [hr] at hres; cases hres; exact ⟨kl.2, rfl⟩
  have hk : a.pos.lookup k = some src := (hwf.linked.pos k src).mpr (hwf.reserved k src hsrc).2
  rcases hcall with rfl | hcall
  · have heq : a.onAccess k = .ok a := by simp only [onAccess, hk, if_pos hres]
    rw [policyStep_access heq] at h
    cases h
    rfl
  · obtain ⟨r, heq⟩ := policyStep_inserted hcall h
    simp only [onInsert, hk, if_pos hres] at heq
    cases heq
    rfl

/-- The bit after any other call. -/
theorem flag_unused (hwf : a.WellFormed) (hused : a.used call = none) (h : policyStep a call = .ok (o, a')) :
    ¬ a.Overlooked call ∧ (call.isCommit = true ∧ a'.lastHitInB2 = false ∨
      call.isCommit = false ∧ a'.lastHitInB2 = a.lastHitInB2) := by
  have hnone : ∀ k, (if a.reserved.map Prod.fst = some k then none else some k) = none →
      a.reserved.map Prod.fst = some k := by
    intro k hk
    by_contra hres
    rw [if_neg hres] at hk
    cases hk
  refine ⟨fun ⟨k, hk, _⟩ => (by cases hused.symm.trans hk), ?_⟩
  cases call with
  | access k => exact .inr ⟨rfl, by rw [policyStep_reserved hwf (hnone k hused) (.inl rfl) h]⟩
  | insert k n => exact .inr ⟨rfl, by rw [policyStep_reserved hwf (hnone k hused) (.inr ⟨n, .inl rfl⟩) h]⟩
  | promote k n => exact .inr ⟨rfl, by rw [policyStep_reserved hwf (hnone k hused) (.inr ⟨n, .inr rfl⟩) h]⟩
  | remove k =>
    cases h
    refine .inr ⟨rfl, ?_⟩
    simp only [EvictionPolicy.onRemove, onRemove]
    cases a.pos.lookup k <;> rfl
  | select ex =>
    cases h
    refine .inr ⟨rfl, ?_⟩
    by_cases hfree : a.reserved = none
    · rcases selectVictim_cases hfree ex with ⟨s, heq, -⟩ | ⟨v, src, heq, -⟩
      · rw [show EvictionPolicy.selectVictim a ex = _ from heq]
      · rw [show EvictionPolicy.selectVictim a ex = _ from heq]
    · simp only [EvictionPolicy.selectVictim, selectVictim, if_pos (Option.isSome_iff_ne_none.mpr hfree)]
  | validate k => cases h; exact .inr ⟨rfl, rfl⟩
  | cancel k =>
    cases h
    refine .inr ⟨rfl, ?_⟩
    simp only [EvictionPolicy.cancelVictim, cancelVictim]
    split_ifs <;> rfl
  | commit k =>
    refine .inl ⟨rfl, ?_⟩
    cases hc : a.commitVictim k with
    | error e =>
      rw [policyStep, show EvictionPolicy.commitVictim a k = .error e from hc] at h
      cases h
    | ok u =>
      obtain ⟨src, hsrc⟩ := reserved_of_commitVictim hc
      rw [policyStep_commit ((commitVictim_eq hwf hsrc))] at h
      cases h
      rfl

/-- The bit keeps saying what it should, unless a set bit overlooks a use. -/
theorem flag_step {history : List (ArcEviction × PolicyCall)} (hwf : a.WellFormed)
    (hflag : a.lastHitInB2 = true ↔ LatestHitInB2 history) (h : policyStep a call = .ok (o, a')) :
    (a'.lastHitInB2 = true ↔ LatestHitInB2 (history ++ [(a, call)])) ↔ ¬ a.Stale call := by
  rw [latestHitInB2_concat, Stale]
  cases hused : a.used call with
  | some k =>
    rcases flag_used hwf hused h with ⟨hmem, hseen, hbit⟩ | ⟨hmem, ⟨hseen, hbit⟩ | ⟨hseen, hbit⟩⟩ <;>
      simp [hmem, hseen, hbit]
  | none =>
    obtain ⟨hseen, ⟨hcommit, hbit⟩ | ⟨hcommit, hbit⟩⟩ := flag_unused hwf hused h <;>
      simp [hseen, hcommit, hbit, hflag]

/-- FOLLOWS THE LATEST ACCESS: in every state that a list of calls reaches the rule with the tie is in force
    exactly if the latest use hit B2 and no victim was committed since, precisely when no use is overlooked
    while the bit is set. -/
theorem tieBreak_follows_latest_iff (capacityBlocks : ℕ) (allocs : Stream' Bool) (calls : List PolicyCall) :
    (∀ pre, pre <+: calls → ∀ os a, run policyStep (make capacityBlocks allocs) pre = .ok (os, a) →
      (a.lastHitInB2 = true ↔ LatestHitInB2 (visits policyStep (make capacityBlocks allocs) pre))) ↔
    Along policyStep (fun a call => ¬ a.Stale call) (make capacityBlocks allocs) calls := by
  have hstart : (make capacityBlocks allocs).lastHitInB2 = true ↔ LatestHitInB2 [] :=
    ⟨fun h => (by cases h), fun h => absurd h not_latestHitInB2_nil⟩
  have hhalt : ∀ (a : ArcEviction) call e, a.WellFormed → policyStep a call = .error e → ¬ a.Stale call := by
    rintro a call e hwf herr ⟨-, k, hused, -⟩
    obtain ⟨-, hcall⟩ := used_cases hused
    have hvalid : a.Validated call := by
      rintro j rfl
      rcases hcall with h | ⟨n, h | h⟩ <;> cases h
    obtain ⟨res, hres, -⟩ := (policyStep_yields hwf hvalid).answer trivial
    cases herr.symm.trans hres
  exact prefixes_iff_along (R := WellFormed)
    (P := fun a history => a.lastHitInB2 = true ↔ LatestHitInB2 history)
    (fun a call o a' hwf h => wellFormed_policyStep hwf h) hhalt
    (fun a call o a' history hwf hflag h => flag_step hwf hflag h) calls _ [] (wellFormed_make _ _) hstart

/-- Two frequency ghosts and one recency ghost; the hit on the latter gives T1 two blocks, the hit on the
    former takes one back. -/
def ghostHits : List PolicyCall :=
  [.insert ⟨1, 1, 1⟩ 8, .access ⟨1, 1, 1⟩, .insert ⟨2, 1, 1⟩ 8, .access ⟨2, 1, 1⟩,
    .select none, .commit ⟨1, 1, 1⟩, .select none, .commit ⟨2, 1, 1⟩,
    .insert ⟨3, 1, 1⟩ 8, .select none, .commit ⟨3, 1, 1⟩, .promote ⟨3, 1, 1⟩ 8,
    .insert ⟨4, 1, 1⟩ 8, .promote ⟨1, 1, 1⟩ 8]

/-- A resident hit follows a hit on B2. The rule with the tie stays in force, and the victim is the only block
    of T1 where the other rule takes one of T2. -/
theorem tieBreak_outlives_resident_hit :
    ∃ os a, run policyStep (make 2) (ghostHits ++ [.access ⟨3, 1, 1⟩]) = .ok (os, a) ∧
      a.lastHitInB2 = true ∧ ¬ LatestHitInB2 (visits policyStep (make 2) (ghostHits ++ [.access ⟨3, 1, 1⟩])) ∧
      (a.selectVictim none).1 = .ok ⟨4, 1, 1⟩ ∧
      ({ a with lastHitInB2 := false }.selectVictim none).1 = .ok ⟨1, 1, 1⟩ := by
  obtain ⟨os, t, hrun, hused, hlist⟩ : ∃ os t, run policyStep (make 2) ghostHits = .ok (os, t) ∧
      t.used (.access ⟨3, 1, 1⟩) = some ⟨3, 1, 1⟩ ∧ t.lists .b2 = [⟨2, 1, 1⟩] := ⟨_, _, rfl, rfl, rfl⟩
  refine ⟨_, _, rfl, rfl, ?_, by decide +kernel, by decide +kernel⟩
  rw [visits_concat hrun, latestHitInB2_concat, hused]
  simp [hlist]

end ArcEviction

end TidePool.Store
