import TidePool.Schemes.Adaptive
import TidePool.Store.ArcRuns

/-! The four lists implement adaptive replacement.

    `ArcEviction` keeps its keys in lists and finds everything by position: a use moves a key to the front
    of T2, the victim and the trimmed ghost are taken from a back. The specification (`Adaptive`) has no
    lists; it remembers how often and when each key was used.

        T1  recent         in each list, from front to back,
        T2  frequent       the clock goes down, and the
        B1  recentGhost    list has as many keys as
        B2  frequentGhost  the class

    Every call is one that the specification allows, so every run is. -/

namespace TidePool.Store

open Schemes EvictionPolicy

namespace ArcEviction

/-! ### The specification of a call -/

/-- What the policy may answer to a call, and what it is then. An insert may only run out of memory when
    `memory` is not there for the asking. -/
def Allows (memory : Prop) (s : Adaptive BlockKey) :
    PolicyCall → Result (Option BlockKey) → Adaptive BlockKey → Prop
  | .access k, o, t => o = .ok none ∧
      if s.page k = none then t = { s with frequentHit := false }
      else if s.reserved = some k then t = s
      else t = (s.adapted k).used k
  | .insert k _, o, t | .promote k _, o, t =>
      if s.page k = none then
        o = .ok none ∧ s.Admitted k t ∨
          ¬ memory ∧ o = .error (.outOfCapacity "ARC insert allocation failed") ∧ t = s
      else if s.reserved = some k then
        o = .error (.invalidArgument "ARC cannot insert its reserved victim") ∧ t = s
      else o = .ok none ∧ t = (s.adapted k).used k
  | .remove k, o, t => o = .ok none ∧
      t = { s.forgotten k with reserved := if s.reserved = some k then none else s.reserved }
  | .select ex, o, t =>
      (s.reserved ≠ none ∧ o = .error (.alreadyExists "ARC already has a reserved victim") ∧ t = s) ∨
      s.reserved = none ∧
        ((s.keys .recent = ∅ ∧ s.keys .frequent = ∅ ∧ o = .error (.notFound "ARC has no resident victim") ∧
        t = s) ∨
        ((s.keys .recent ∪ s.keys .frequent).Nonempty ∧ s.free ex .recent = ∅ ∧ s.free ex .frequent = ∅ ∧
          o = .error (.notFound "ARC has no unpinned resident victim") ∧ t = s) ∨
        ∃ v, s.Victim ex v ∧ o = .ok (some v) ∧ t = { s with reserved := some v })
  | .validate k, o, t => t = s ∧ o = if s.reserved = some k then .ok none
      else .error (.invalidArgument "ARC commit does not match the reserved victim")
  | .commit k, o, t => s.reserved = some k ∧ o = .ok none ∧
      t = { s.evicted k with reserved := none, frequentHit := false }
  | .cancel k, o, t =>
      if s.reserved = some k then o = .ok none ∧ t = { s with reserved := none }
      else o = .error (.invalidArgument "ARC cancel does not match the reserved victim") ∧ t = s

/-! ### What the lists stand for -/

variable {memory : Prop} {a a' : ArcEviction} {s t : Adaptive BlockKey} {k v : BlockKey} {l src : ArcList}
  {ex : Option BlockKey}

/-- The class of the keys of a list. -/
def standingOf : ArcList → Standing
  | .t1 => .recent
  | .t2 => .frequent
  | .b1 => .recentGhost
  | .b2 => .frequentGhost

theorem standingOf_injective : Function.Injective standingOf := by
  intro l l' h
  cases l <;> cases l' <;> first | rfl | cases h

theorem standingOf_ghostOf (h : src = .t1 ∨ src = .t2) :
    standingOf (ghostOf src) = (standingOf src).ghost := by
  rcases h with rfl | rfl <;> rfl

/-- The state of the specification that `a` implements. -/
structure Shows (memory : Prop) (a : ArcEviction) (s : Adaptive BlockKey) : Prop where
  wf : a.WellFormed
  budget : a.c = s.budget
  target : a.p = s.target
  hit : a.lastHitInB2 = s.frequentHit
  standing : ∀ k, s.standing k = (a.pos.lookup k).map standingOf
  ordered : ∀ l, s.clock.Orders (a.lists l)
  reserved : a.reserved.map Prod.fst = s.reserved
  small : 2 * s.budget < UInt64.size
  reliable : memory → ∀ i, a.allocs.get i = true

theorem shows_make {c : ℕ} (hc : 2 * c < UInt64.size) (allocs : Stream' Bool) :
    Shows (∀ i, allocs.get i = true) (make c allocs) { budget := if c = 0 then 1 else c } where
  wf := wellFormed_make c allocs
  budget := rfl
  target := rfl
  hit := rfl
  standing k := by simp [make, Adaptive.standing]
  ordered l := Clock.orders_nil
  reserved := rfl
  small := by
    show 2 * (if c = 0 then 1 else c) < UInt64.size
    split
    · decide
    · exact hc
  reliable := id

namespace Shows

theorem standing_some (h : Shows memory a s) (hk : a.pos.lookup k = some l) :
    s.standing k = some (standingOf l) := by
  rw [h.standing, hk]; rfl

theorem standing_none (h : Shows memory a s) (hk : a.pos.lookup k = none) : s.standing k = none := by
  rw [h.standing, hk]; rfl

theorem page_none (h : Shows memory a s) : s.page k = none ↔ a.pos.lookup k = none := by
  rw [← Adaptive.standing_eq_none, h.standing, Option.map_eq_none_iff]

theorem page_some (h : Shows memory a s) (hk : a.pos.lookup k = some l) : s.page k ≠ none := by
  rw [Ne, h.page_none, hk]
  exact Option.some_ne_none l

/-- A list holds the keys of its class. -/
theorem mem_iff (h : Shows memory a s) (k : BlockKey) (l : ArcList) :
    k ∈ a.lists l ↔ k ∈ s.keys (standingOf l) := by
  rw [← h.wf.linked.pos, Adaptive.keys, Set.mem_ofPred_eq, h.standing, Option.map_eq_some_iff]
  constructor
  · intro hk
    exact ⟨l, hk, rfl⟩
  · rintro ⟨l', hl', heq⟩
    rwa [← standingOf_injective heq]

theorem keys_eq (h : Shows memory a s) (l : ArcList) : s.keys (standingOf l) = { k | k ∈ a.lists l } := by
  ext k
  exact (h.mem_iff k l).symm

theorem size_eq (h : Shows memory a s) (l : ArcList) : s.size (standingOf l) = (a.lists l).length := by
  have hset : { k | k ∈ a.lists l } = ((a.lists l).toFinset : Set BlockKey) := by ext k; simp
  rw [Adaptive.size, h.keys_eq, hset, Set.ncard_coe_finset, List.toFinset_card_of_nodup (h.wf.linked.nodup l)]

theorem keys_empty (h : Shows memory a s) (l : ArcList) : s.keys (standingOf l) = ∅ ↔ a.lists l = [] := by
  rw [h.keys_eq, Set.eq_empty_iff_forall_notMem, List.eq_nil_iff_forall_not_mem]
  rfl

theorem keys_nonempty (h : Shows memory a s) (l : ArcList) :
    (s.keys (standingOf l)).Nonempty ↔ a.lists l ≠ [] := by
  rw [Set.nonempty_iff_ne_empty, Ne, h.keys_empty]

theorem ratio_eq (h : Shows memory a s) (num den : ArcList) :
    ratio (a.lists num) (a.lists den) = s.shift (standingOf num) (standingOf den) := by
  rw [Adaptive.shift, h.size_eq, h.size_eq, ratio]
  cases hden : a.lists den with
  | nil => simp
  | cons x xs => simp

theorem reserve (h : Shows memory a s) {r : Option (BlockKey × ArcList)}
    (hwf : WellFormed { a with reserved := r }) :
    Shows memory { a with reserved := r } { s with reserved := r.map Prod.fst } :=
  ⟨hwf, h.budget, h.target, h.hit, h.standing, h.ordered, rfl, h.small, h.reliable⟩

theorem flag (h : Shows memory a s) (b : Bool) :
    Shows memory { a with lastHitInB2 := b } { s with frequentHit := b } :=
  ⟨wellFormed_flag h.wf b, h.budget, h.target, rfl, h.standing, h.ordered, h.reserved, h.small, h.reliable⟩

/-! ### Uses -/

/-- A known key that goes to the front of a list was used or evicted at that moment. -/
theorem ordered_moved (h : Shows memory a s) (hk : a.pos.lookup k = some src) (dst l : ArcList) :
    (s.clock.touch k).Orders (moved a.lists k src dst l) := by
  refine Clock.Orders.pushed (Clock.Orders.thinned h.ordered List.erase_sublist) (fun m => ?_) dst l
  by_cases hm : m = src
  · subst hm
    rw [Function.update_self]
    exact (h.wf.linked.nodup m).not_mem_erase
  · rw [Function.update_of_ne hm, ← h.wf.linked.pos, hk]
    exact fun heq => hm (Option.some.inj heq).symm

/-- What a hit teaches is what the list says that the key was found in. -/
theorem taught (h : Shows memory a s) (hk : a.pos.lookup k = some l) :
    ∃ p flag, a.useKnown k l = { a with p := p, lastHitInB2 := flag }.relink k .t2 ∧
      (s.adapted k).budget = s.budget ∧ (s.adapted k).target = p ∧ (s.adapted k).frequentHit = flag ∧
      (s.adapted k).clock = s.clock ∧ (s.adapted k).reserved = s.reserved := by
  have hstanding := h.standing_some hk
  cases l with
  | t1 | t2 =>
    refine ⟨a.p, a.lastHitInB2, rfl, ?_⟩
    simp [Adaptive.adapted, hstanding, standingOf, h.target, h.hit]
  | b1 =>
    refine ⟨_, _, rfl, ?_⟩
    simp [Adaptive.adapted, hstanding, standingOf, adaptUp, h.ratio_eq, h.target, h.budget]
  | b2 =>
    refine ⟨_, _, rfl, ?_⟩
    simp [Adaptive.adapted, hstanding, standingOf, adaptDown, h.ratio_eq, h.target]

/-- USE of a known key. -/
theorem useKnown (h : Shows memory a s) (hk : a.pos.lookup k = some l)
    (hres : a.reserved.map Prod.fst ≠ some k) :
    ∃ a', a.useKnown k l = .ok a' ∧ Shows memory a' ((s.adapted k).used k) := by
  obtain ⟨b, hb, hwf, -⟩ := useKnown_spec h.wf hk hres
  obtain ⟨p, flag, heq, hbudget, htarget, hflag, hclock, hreserved⟩ := h.taught hk
  rw [relink_eq (by exact hk)] at heq
  obtain rfl := Except.ok.inj (hb.symm.trans heq)
  have hsmall : 2 * (s.adapted k).budget < UInt64.size := hbudget ▸ h.small
  refine ⟨_, heq, ⟨hwf, h.budget.trans hbudget.symm, htarget.symm, hflag.symm, fun j => ?_, fun m => ?_,
    h.reserved.trans hreserved.symm, hsmall, h.reliable⟩⟩
  · have hadapted : (s.adapted k).standing k = some (standingOf l) := by
      rw [Adaptive.standing_adapted, h.standing_some hk]
    rw [Adaptive.standing_used_known hadapted, Adaptive.standing_adapted, h.standing, Dict.lookup_insert_if]
    split <;> rfl
  · have hordered := h.ordered_moved hk .t2 m
    rwa [← hclock] at hordered

/-! ### New keys -/

/-- The ghosts to trim are those of the crowded class, as long as `2 * c_` does not wrap. -/
theorem crowded_eq (h : Shows memory a s) : s.crowded = a.ghostToTrimForInsert.map standingOf := by
  have hsize := h.size_eq
  have h1 := hsize .t1
  have h2 := hsize .t2
  have h3 := hsize .b1
  have h4 := hsize .b2
  simp only [standingOf] at h1 h2 h3 h4
  simp only [Adaptive.crowded, ghostToTrimForInsert, h1, h2, h3, h4, h.budget, Nat.mod_eq_of_lt h.small,
    ge_iff_le]
  split_ifs <;> rfl

/-- A key that was never seen goes in front of T1. -/
theorem pushed (h : Shows memory a s) (hk : a.pos.lookup k = none) {allocs : Stream' Bool}
    (hallocs : memory → ∀ i, allocs.get i = true)
    (hwf : WellFormed { a with
      allocs := allocs
      lists := Function.update a.lists .t1 (k :: a.lists .t1)
      pos := a.pos.insert k .t1 }) :
    Shows memory { a with
      allocs := allocs, lists := Function.update a.lists .t1 (k :: a.lists .t1), pos := a.pos.insert k .t1 }
      (s.used k) where
  wf := hwf
  budget := h.budget
  target := h.target
  hit := h.hit
  standing j := by
    rw [Adaptive.standing_used_new (h.standing_none hk), h.standing, Dict.lookup_insert_if]
    split <;> rfl
  ordered := by
    refine Clock.Orders.pushed h.ordered (fun m hm => ?_) .t1
    rw [← h.wf.linked.pos, hk] at hm
    cases hm
  reserved := h.reserved
  small := h.small
  reliable := hallocs

/-- TRIM: the back of a list of ghosts is the oldest of its class. -/
theorem trimmed (h : Shows memory a s) (hl : l = .b1 ∨ l = .b2) :
    ∃ t, s.Trimmed (some (standingOf l)) t ∧ Shows memory (a.eraseLru l) t := by
  obtain ⟨hwf, -, -, -⟩ := eraseLru_spec h.wf hl
  unfold eraseLru at hwf ⊢
  cases hback : (a.lists l).getLast? with
  | none =>
    refine ⟨s, .inl ⟨?_, rfl⟩, h⟩
    rintro c ⟨⟩
    rw [h.keys_empty]
    exact List.getLast?_eq_none_iff.mp hback
  | some back =>
    have holdest : s.clock.Oldest (s.keys (standingOf l)) back := by
      rw [h.keys_eq]
      exact (h.ordered l).oldest_of_getLast hback
    refine ⟨s.forgotten back, .inr ⟨_, back, rfl, holdest, rfl⟩, ?_⟩
    rw [hback] at hwf
    refine ⟨hwf, h.budget, h.target, h.hit, fun j => ?_, ?_, h.reserved, h.small, h.reliable⟩
    · rw [Adaptive.standing_forgotten, h.standing, Dict.lookup_erase_if]
      split <;> rfl
    · exact Clock.Orders.thinned h.ordered (List.dropLast_sublist _)

omit memory s in
/-- `PushFront` of an unknown key: one of the two allocations fails, or the key is in front. -/
theorem pushFront_new (hk : a.pos.lookup k = none) :
    (∃ n allocs, a.allocs.get n = false ∧
      a.pushFront k .t1 = (.error (.outOfCapacity "ARC insert allocation failed"),
      { a with allocs := allocs })) ∨
    a.pushFront k .t1 = (.ok (), { a with
      allocs := a.allocs.tail.tail
      lists := Function.update a.lists .t1 (k :: a.lists .t1)
      pos := a.pos.insert k .t1 }) := by
  unfold pushFront
  cases hnode : a.allocs.head with
  | false => exact .inl ⟨0, _, hnode, rfl⟩
  | true =>
    cases hentry : a.allocs.tail.head with
    | false => exact .inl ⟨1, _, hentry, rfl⟩
    | true => exact .inr (by simp [hk])

/-- NEW KEY: it is recent and a crowded class gives way, or there was no memory. -/
theorem onInsert_new (h : Shows memory a s) (hk : a.pos.lookup k = none) :
    ∃ r a' t, a.onInsert k = .ok (r, a') ∧ Shows memory a' t ∧
      (r = .ok () ∧ s.Admitted k t ∨
        ¬ memory ∧ r = .error (.outOfCapacity "ARC insert allocation failed") ∧ t = s) := by
  obtain ⟨res, b, heq, hwf⟩ := wellFormed_onInsert h.wf k
  simp only [onInsert, hk] at heq ⊢
  rcases pushFront_new hk with ⟨n, allocs, hn, hpush⟩ | hpush
  · rw [hpush] at heq ⊢
    obtain ⟨-, rfl⟩ := Prod.mk.inj (Except.ok.inj heq)
    have hscarce : ¬ memory := fun hm => by
      have htrue := h.reliable hm n
      rw [hn] at htrue
      cases htrue
    exact ⟨_, _, s, rfl, ⟨hwf, h.budget, h.target, h.hit, h.standing, h.ordered, h.reserved, h.small,
      fun hm => absurd hm hscarce⟩, .inr ⟨hscarce, rfl, rfl⟩⟩
  · have hpushed : Shows memory { a with
        allocs := a.allocs.tail.tail
        lists := Function.update a.lists .t1 (k :: a.lists .t1)
        pos := a.pos.insert k .t1 } (s.used k) := by
      refine h.pushed hk (fun hm i => h.reliable hm (i + 2)) ?_
      rcases pushFront_cases h.wf hk with ⟨_, _, hfail, -⟩ | ⟨a₁, hok, hwf₁, -⟩
      · cases (Prod.mk.inj (hpush.symm.trans hfail)).1
      · exact (Prod.mk.inj (hpush.symm.trans hok)).2 ▸ hwf₁
    have hcrowded := h.crowded_eq
    rw [hpush]
    cases htrim : a.ghostToTrimForInsert with
    | none =>
      rw [htrim] at hcrowded
      refine ⟨_, _, _, rfl, hpushed.flag false, .inl ⟨rfl, _, .inl ⟨?_, rfl⟩, rfl⟩⟩
      intro c hc
      cases hcrowded.symm.trans hc
    | some l =>
      rw [htrim] at hcrowded
      obtain ⟨u, htrimmed, hu⟩ := hpushed.trimmed (ghostToTrimForInsert_ghost htrim)
      exact ⟨_, _, _, rfl, hu.flag false, .inl ⟨rfl, u, hcrowded ▸ htrimmed, rfl⟩⟩

/-! ### Victims -/

theorem overShare_iff (h : Shows memory a s) : s.OverShare ↔ a.useT1 = true := by
  have h1 := h.keys_nonempty .t1
  have h2 := h.keys_nonempty .t2
  have hsize := h.size_eq .t1
  simp only [standingOf] at h1 h2 hsize
  unfold Adaptive.OverShare useT1
  rw [h1, h2, hsize, ← h.target, ← h.hit]
  cases a.lists .t1 with
  | nil => simp
  | cons x xs =>
    cases a.lists .t2 with
    | nil => simp
    | cons y ys => cases a.lastHitInB2 <;> simp

theorem choose_oldest (h : Shows memory a s) (hv : a.choose ex l = some (v, src)) :
    src = l ∧ s.clock.Oldest (s.free ex (standingOf l)) v := by
  obtain ⟨w, hw, heq⟩ := Option.map_eq_some_iff.mp hv
  obtain ⟨rfl, rfl⟩ := Prod.mk.inj heq
  refine ⟨rfl, ?_⟩
  have hset : s.free ex (standingOf l) = { j | j ∈ a.lists l ∧ decide (ex ≠ some j) = true } := by
    ext j
    simp only [Adaptive.free, Set.mem_ofPred_eq, h.mem_iff, decide_eq_true_eq]
  rw [hset]
  exact (h.ordered l).oldest_of_find hw

theorem choose_empty (h : Shows memory a s) (hnone : a.choose ex l = none) :
    s.free ex (standingOf l) = ∅ := by
  rw [Set.eq_empty_iff_forall_notMem]
  rintro j ⟨hj, hex⟩
  exact hex (choose_none hnone ((h.mem_iff j l).mpr hj))

/-- From `first` if it has a key to give, from `second` otherwise. -/
theorem oldestOf_choose (h : Shows memory a s) {first second : ArcList}
    (hv : (a.choose ex first).or (a.choose ex second) = some (v, src)) :
    s.OldestOf ex (standingOf first) (standingOf second) v := by
  rcases Option.or_eq_some_iff.mp hv with hfirst | ⟨hnone, hsecond⟩
  · exact .inl (h.choose_oldest hfirst).2
  · exact .inr ⟨h.choose_empty hnone, (h.choose_oldest hsecond).2⟩

/-- The list to look at first is that of the class over its share. -/
theorem preferred (h : Shows memory a s) (ex : Option BlockKey) :
    ∃ first second, (if a.useT1 then (ArcList.t1, ArcList.t2) else (.t2, .t1)) = (first, second) ∧
      (∀ v, s.OldestOf ex (standingOf first) (standingOf second) v → s.Victim ex v) ∧
      (s.free ex (standingOf first) = ∅ → s.free ex (standingOf second) = ∅ →
        s.free ex .recent = ∅ ∧ s.free ex .frequent = ∅) := by
  cases hshare : a.useT1 with
  | true => exact ⟨.t1, .t2, rfl, fun v hv => .inl ⟨h.overShare_iff.mpr hshare, hv⟩, fun h1 h2 => ⟨h1, h2⟩⟩
  | false =>
    have hnot : ¬ s.OverShare := by rw [h.overShare_iff, hshare]; exact Bool.false_ne_true
    exact ⟨.t2, .t1, rfl, fun v hv => .inr ⟨hnot, hv⟩, fun h2 h1 => ⟨h1, h2⟩⟩

/-- SELECT: a free policy with a key to give reserves the victim. -/
theorem selectVictim (h : Shows memory a s) (ex : Option BlockKey) :
    ∃ t, Allows memory s (.select ex) ((a.selectVictim ex).1.map some) t ∧
      Shows memory (a.selectVictim ex).2 t := by
  have hwf := wellFormed_selectVictim h.wf ex
  have h1 := h.keys_empty .t1
  have h2 := h.keys_empty .t2
  simp only [standingOf] at h1 h2
  unfold ArcEviction.selectVictim at hwf ⊢
  cases hres : a.reserved with
  | some r =>
    have hheld : s.reserved ≠ none := by rw [← h.reserved, hres]; exact Option.some_ne_none _
    exact ⟨s, .inl ⟨hheld, rfl, rfl⟩, h⟩
  | none =>
    have hfree : s.reserved = none := by rw [← h.reserved, hres]; rfl
    simp only [hres, Option.isSome_none, Bool.false_eq_true, if_false] at hwf ⊢
    by_cases hempty : ((a.lists .t1).isEmpty && (a.lists .t2).isEmpty) = true
    · rw [if_pos hempty]
      rw [Bool.and_eq_true, List.isEmpty_iff, List.isEmpty_iff] at hempty
      exact ⟨s, .inr ⟨hfree, .inl ⟨h1.mpr hempty.1, h2.mpr hempty.2, rfl, rfl⟩⟩, h⟩
    · rw [if_neg hempty] at hwf ⊢
      have hsome : (s.keys .recent ∪ s.keys .frequent).Nonempty := by
        rw [Set.nonempty_iff_ne_empty, Ne, Set.union_empty_iff, h1, h2]
        simpa using hempty
      obtain ⟨first, second, hpair, hvictim, hboth⟩ := h.preferred ex
      simp only [hpair] at hwf ⊢
      cases hchosen : (a.choose ex first).or (a.choose ex second) with
      | none =>
        obtain ⟨hfirst, hsecond⟩ := Option.or_eq_none_iff.mp hchosen
        obtain ⟨hrecent, hfrequent⟩ := hboth (h.choose_empty hfirst) (h.choose_empty hsecond)
        exact ⟨s, .inr ⟨hfree, .inr (.inl ⟨hsome, hrecent, hfrequent, rfl, rfl⟩)⟩, h⟩
      | some r =>
        rw [hchosen] at hwf
        have hv := hvictim r.1 (h.oldestOf_choose hchosen)
        exact ⟨_, .inr ⟨hfree, .inr (.inr ⟨r.1, hv, rfl, rfl⟩)⟩, h.reserve hwf⟩

/-- COMMIT: the reserved victim becomes the latest ghost of its class. -/
theorem commitVictim (h : Shows memory a s) (hres : a.reserved = some (v, src)) :
    ∃ a', a.commitVictim v = .ok a' ∧
      Shows memory a' { s.evicted v with reserved := none, frequentHit := false } := by
  obtain ⟨hsrc, hmem⟩ := h.wf.reserved v src hres
  have hk : a.pos.lookup v = some src := (h.wf.linked.pos v src).mpr hmem
  obtain ⟨b, hb, hwf, -⟩ := commitVictim_spec h.wf hres
  have heq := commitVictim_eq h.wf hres
  obtain rfl := Except.ok.inj (hb.symm.trans heq)
  refine ⟨_, heq, hwf, h.budget, h.target, rfl, fun j => ?_, h.ordered_moved hk _, rfl, h.small, h.reliable⟩
  have hevicted : (s.evicted v).standing j = if j = v then some (standingOf src).ghost else s.standing j :=
    Adaptive.standing_evicted (h.standing_some hk) j
  rw [Dict.lookup_insert_if]
  refine hevicted.trans ?_
  rw [h.standing, ← standingOf_ghostOf hsrc]
  split <;> rfl

/-- REMOVE. -/
theorem onRemove (h : Shows memory a s) (k : BlockKey) : Shows memory (a.onRemove k)
    { s.forgotten k with reserved := if s.reserved = some k then none else s.reserved } := by
  have hwf := wellFormed_onRemove h.wf k
  have hstanding : ∀ j, (s.forgotten k).standing j =
      ((if j = k then none else a.pos.lookup j)).map standingOf := by
    intro j
    rw [Adaptive.standing_forgotten, h.standing]
    split <;> rfl
  unfold ArcEviction.onRemove at hwf ⊢
  cases hk : a.pos.lookup k with
  | none =>
    have hfree : s.reserved ≠ some k := by
      intro hres
      obtain ⟨src, hsrc⟩ := reserved_pair (h.reserved.trans hres)
      rw [(h.wf.linked.pos k src).mpr (h.wf.reserved k src hsrc).2] at hk
      cases hk
    refine ⟨h.wf, h.budget, h.target, h.hit, fun j => (hstanding j).trans ?_, h.ordered, ?_, h.small,
      h.reliable⟩
    · by_cases hj : j = k
      · rw [if_pos hj, hj, hk]
      · rw [if_neg hj]
    · rw [if_neg hfree]
      exact h.reserved
  | some l =>
    rw [hk] at hwf
    refine ⟨hwf, h.budget, h.target, h.hit, fun j => (hstanding j).trans ?_,
      Clock.Orders.thinned h.ordered List.erase_sublist, ?_, h.small, h.reliable⟩
    · rw [Dict.lookup_erase_if]
    · show Option.map Prod.fst (if a.reserved.map Prod.fst = some k then none else a.reserved) =
        if s.reserved = some k then none else s.reserved
      rw [← h.reserved, apply_ite (Option.map Prod.fst), Option.map_none]

/-- VALIDATE: the reserved victim is always where it was found. -/
theorem validateVictimCommit (h : Shows memory a s) (k : BlockKey) : a.validateVictimCommit k =
    if s.reserved = some k then .ok ()
    else .error (.invalidArgument "ARC commit does not match the reserved victim") := by
  rw [← h.reserved]
  cases hres : a.reserved with
  | none => simp [ArcEviction.validateVictimCommit, hres]
  | some r =>
    obtain ⟨v, src⟩ := r
    by_cases hv : v = k
    · subst hv
      rw [validateVictimCommit_reserved h.wf hres]
      simp
    · simp [ArcEviction.validateVictimCommit, hres, hv]

end Shows

/-! ### Calls -/

variable {call : PolicyCall}

/-- INSERT of any key. -/
theorem Shows.onInsert (h : Shows memory a s) (k : BlockKey) (n : ℕ) :
    ∃ r a' t, a.onInsert k = .ok (r, a') ∧ Allows memory s (.insert k n) (r.map fun _ => none) t ∧
      Shows memory a' t := by
  cases hk : a.pos.lookup k with
  | none =>
    have hpage := h.page_none.mpr hk
    obtain ⟨r, a', t, heq, ht, hcase⟩ := h.onInsert_new hk
    refine ⟨r, a', t, heq, ?_, ht⟩
    rw [Allows, if_pos hpage]
    rcases hcase with ⟨rfl, hadmitted⟩ | ⟨hscarce, rfl, rfl⟩
    · exact .inl ⟨rfl, hadmitted⟩
    · exact .inr ⟨hscarce, rfl, rfl⟩
  | some l =>
    have hpage := h.page_some hk
    by_cases hres : s.reserved = some k
    · refine ⟨.error (.invalidArgument "ARC cannot insert its reserved victim"), a, s, ?_, ?_, h⟩
      · simp only [ArcEviction.onInsert, hk, h.reserved, if_pos hres]
      · rw [Allows, if_neg hpage, if_pos hres]
        exact ⟨rfl, rfl⟩
    · obtain ⟨a', heq, ht⟩ := h.useKnown hk (by rwa [h.reserved])
      refine ⟨.ok (), a', _, ?_, ?_, ht⟩
      · simp only [ArcEviction.onInsert, hk, h.reserved, if_neg hres, heq]
        rfl
      · rw [Allows, if_neg hpage, if_neg hres]
        exact ⟨rfl, rfl⟩

/-- STEP: every call is answered as the specification allows. -/
theorem Shows.step (h : Shows memory a s) (hcall : a.Validated call) :
    Yields True (policyStep a call) fun res => ∃ t, Allows memory s call res.1 t ∧ Shows memory res.2 t := by
  cases call with
  | access k =>
    cases hk : a.pos.lookup k with
    | none =>
      have heq : a.onAccess k = .ok { a with lastHitInB2 := false } := by simp only [onAccess, hk]
      rw [policyStep_access heq]
      exact ⟨_, ⟨rfl, by rw [if_pos (h.page_none.mpr hk)]⟩, h.flag false⟩
    | some l =>
      by_cases hres : s.reserved = some k
      · have heq : a.onAccess k = .ok a := by simp only [onAccess, hk, h.reserved, if_pos hres]
        rw [policyStep_access heq]
        exact ⟨s, ⟨rfl, by rw [if_neg (h.page_some hk), if_pos hres]⟩, h⟩
      · obtain ⟨a', hknown, ht⟩ := h.useKnown hk (by rwa [h.reserved])
        have heq : a.onAccess k = .ok a' := by simp only [onAccess, hk, h.reserved, if_neg hres, hknown]
        rw [policyStep_access heq]
        exact ⟨_, ⟨rfl, by rw [if_neg (h.page_some hk), if_neg hres]⟩, ht⟩
  | insert k n =>
    obtain ⟨r, a', t, heq, hallows, ht⟩ := h.onInsert k n
    rw [policyStep_insert heq]
    exact ⟨t, hallows, ht⟩
  | promote k n =>
    obtain ⟨r, a', t, heq, hallows, ht⟩ := h.onInsert k n
    rw [policyStep_promote heq]
    exact ⟨t, hallows, ht⟩
  | remove k => exact ⟨_, ⟨rfl, rfl⟩, h.onRemove k⟩
  | select ex => exact h.selectVictim ex
  | validate k =>
    refine ⟨s, ⟨rfl, ?_⟩, h⟩
    show (a.validateVictimCommit k).map _ = _
    rw [h.validateVictimCommit]
    split <;> rfl
  | commit k =>
    obtain ⟨src, hsrc⟩ := reserved_of_validate (hcall k rfl)
    obtain ⟨a', heq, ht⟩ := h.commitVictim hsrc
    rw [policyStep_commit heq]
    exact ⟨_, ⟨by rw [← h.reserved, hsrc]; rfl, rfl, rfl⟩, ht⟩
  | cancel k =>
    show ∃ t, Allows memory s (.cancel k) ((a.cancelVictim k).1.map _) t ∧ Shows memory (a.cancelVictim k).2 t
    have hwf := wellFormed_cancelVictim h.wf k
    unfold ArcEviction.cancelVictim at hwf ⊢
    by_cases hres : s.reserved = some k
    · rw [if_neg (by rw [h.reserved]; exact not_not_intro hres)] at hwf ⊢
      exact ⟨_, by rw [Allows, if_pos hres]; exact ⟨rfl, rfl⟩, h.reserve hwf⟩
    · rw [if_pos (by rwa [h.reserved])]
      exact ⟨s, by rw [Allows, if_neg hres]; exact ⟨rfl, rfl⟩, h⟩

/-- ADAPTIVE REPLACEMENT: any calls, with any allocations failing, are answered as by a cache that remembers
    how often and when each key was used; the lists are its classes, the latest use in front. -/
theorem arc_refines_adaptive (capacityBlocks : ℕ) (hc : 2 * capacityBlocks < UInt64.size)
    (allocs : Stream' Bool) (calls : List PolicyCall)
    (hcalls : Along policyStep Validated (make capacityBlocks allocs) calls) :
    ∃ os a s, run policyStep (make capacityBlocks allocs) calls = .ok (os, a) ∧
      Traces (Allows (∀ i, allocs.get i = true)) { budget := max capacityBlocks 1 } calls os s ∧
      a.p = s.target ∧ (∀ k l, k ∈ a.lists l ↔ k ∈ s.keys (standingOf l)) ∧
      ∀ l, (a.lists l).Pairwise fun newer older => s.clock.last older < s.clock.last newer := by
  have hbudget : max capacityBlocks 1 = if capacityBlocks = 0 then 1 else capacityBlocks := by split <;> omega
  have hstep : ∀ a s call, Validated a call → Shows (∀ i, allocs.get i = true) a s →
      Yields True (policyStep a call) fun res => ∃ t,
        Allows (∀ i, allocs.get i = true) s call res.1 t ∧ Shows (∀ i, allocs.get i = true) res.2 t :=
    fun a s call hcall h => h.step hcall
  have hrun := run_traces _ hstep hcalls (shows_make hc allocs)
  obtain ⟨⟨os, a⟩, heq, s, htraces, hs⟩ := hrun.answer trivial
  rw [← hbudget] at htraces
  exact ⟨os, a, s, heq, htraces, hs.target, hs.mem_iff, fun l => (hs.ordered l).sorted⟩

/-- A key is used twice, evicted, found among the ghosts, and the victim again. -/
def ghostHit : List PolicyCall := [.insert ⟨1, 1, 1⟩ 8, .access ⟨1, 1, 1⟩, .select none, .commit ⟨1, 1, 1⟩,
  .promote ⟨1, 1, 1⟩ 8, .select none]

theorem arc_refines_adaptive_ghostHit : ∃ os a s, run policyStep (make 1) ghostHit = .ok (os, a) ∧
    Traces (Allows (∀ i, (Stream'.const true).get i = true)) { budget := 1 } ghostHit os s ∧
      os.getLast? = some (.ok (some ⟨1, 1, 1⟩)) := by
  have hquiet : ∀ {a : ArcEviction} {call : PolicyCall}, call.isCommit = false → a.Validated call := by
    rintro a call hcall k rfl
    cases hcall
  have hcalls : Along policyStep Validated (make 1) ghostHit := by
    refine along_cons rfl (hquiet rfl) (along_cons rfl (hquiet rfl) (along_cons rfl (hquiet rfl)
      (along_cons rfl ?_ (along_cons rfl (hquiet rfl) (along_cons rfl (hquiet rfl) trivial)))))
    rintro k ⟨⟩
    rfl
  obtain ⟨os, a, s, hrun, htraces, -⟩ := arc_refines_adaptive 1 (by decide) (Stream'.const true) _ hcalls
  refine ⟨os, a, s, hrun, htraces, ?_⟩
  cases hrun
  rfl

end ArcEviction

end TidePool.Store
