import Mathlib.Algebra.Order.Ring.Rat
import Mathlib.Data.Set.Card
import TidePool.Schemes.Recency

/-! Adaptive replacement, without lists.

    Of a key is known how often it was used again since it was new and whether it is resident; the clock
    says when it was last used or evicted. That gives four classes:

                      used once        used again
        resident      recent           frequent
        evicted       recentGhost      frequentGhost

    `target` is how many of the residents may be recent ones. A hit among the recent ghosts says that
    they were evicted too early and raises it, a hit among the frequent ghosts lowers it. A victim is the
    oldest key of the class that is over its share, a forgotten key the oldest of a class of ghosts. -/

namespace TidePool.Schemes

/-- The class of a known key. -/
inductive Standing where
  | recent | frequent | recentGhost | frequentGhost
  deriving DecidableEq

/-- The class a key goes to when it is evicted. -/
def Standing.ghost : Standing → Standing
  | .recent | .recentGhost => .recentGhost
  | .frequent | .frequentGhost => .frequentGhost

/-- What is remembered of a key: its uses after the first, and whether it is resident. -/
structure Page where
  reuses : ℕ
  resident : Bool

def Page.standing : Page → Standing
  | ⟨0, true⟩ => .recent
  | ⟨_ + 1, true⟩ => .frequent
  | ⟨0, false⟩ => .recentGhost
  | ⟨_ + 1, false⟩ => .frequentGhost

/-- `frequentHit`: the tie goes against the recent ones. -/
structure Adaptive (K : Type*) where
  budget : ℕ
  target : ℚ := 0
  frequentHit : Bool := false
  clock : Clock K := {}
  page : K → Option Page := fun _ => none
  reserved : Option K := none

namespace Adaptive

variable {K : Type*}

section Classes

variable (s : Adaptive K)

def standing (k : K) : Option Standing := (s.page k).map Page.standing

/-- The keys of a class. -/
def keys (c : Standing) : Set K := { k | s.standing k = some c }

noncomputable def size (c : Standing) : ℕ := (s.keys c).ncard

/-- The step of `target`: by how much the other class of ghosts is the larger one, at least 1. -/
noncomputable def shift (num den : Standing) : ℚ := max ((s.size num : ℚ) / s.size den) 1

/-- What a hit on `k` teaches. -/
noncomputable def adapted (k : K) : Adaptive K :=
  match s.standing k with
  | some .recentGhost => { s with
      target := min (s.budget : ℚ) (s.target + s.shift .frequentGhost .recentGhost)
      frequentHit := false }
  | some .frequentGhost => { s with
      target := max 0 (s.target - s.shift .recentGhost .frequentGhost)
      frequentHit := true }
  | _ => s

/-- The class of ghosts that has to give way to a new key. -/
noncomputable def crowded : Option Standing :=
  if s.size .recent + s.size .recentGhost = s.budget then
    if s.size .recent < s.budget then some .recentGhost else none
  else if s.size .recent + s.size .recentGhost < s.budget then
    if 2 * s.budget ≤ s.size .recent + s.size .frequent + s.size .recentGhost + s.size .frequentGhost then
      some .frequentGhost
    else none
  else none

/-- The recent keys are over their share. -/
def OverShare : Prop :=
  (s.keys .recent).Nonempty ∧ ((s.keys .frequent).Nonempty →
    if s.frequentHit then s.target ≤ s.size .recent else s.target < s.size .recent)

/-- The keys of a class that may be evicted. -/
def free (excluded : Option K) (c : Standing) : Set K := { k | k ∈ s.keys c ∧ excluded ≠ some k }

/-- `v` is the oldest of the class `first`, or of `second` when the first has none to give. -/
def OldestOf (excluded : Option K) (first second : Standing) (v : K) : Prop :=
  s.clock.Oldest (s.free excluded first) v ∨
    s.free excluded first = ∅ ∧ s.clock.Oldest (s.free excluded second) v

/-- VICTIM: from the class that is over its share if possible, from the other one otherwise. -/
def Victim (excluded : Option K) (v : K) : Prop :=
  s.OverShare ∧ s.OldestOf excluded .recent .frequent v ∨
    ¬ s.OverShare ∧ s.OldestOf excluded .frequent .recent v

variable [DecidableEq K]

/-- `k` is used. -/
def used (k : K) : Adaptive K := { s with
  clock := s.clock.touch k
  page := Function.update s.page k (some ⟨(s.page k).elim 0 fun pg => pg.reuses + 1, true⟩) }

/-- `k` is evicted. -/
def evicted (k : K) : Adaptive K := { s with
  clock := s.clock.touch k
  page := Function.update s.page k ((s.page k).map fun pg => { pg with resident := false }) }

/-- `k` is as if it had never been used. -/
def forgotten (k : K) : Adaptive K := { s with page := Function.update s.page k none }

/-- `t` is `s` without the oldest ghost of a crowded class. -/
def Trimmed (crowded : Option Standing) (t : Adaptive K) : Prop :=
  ((∀ c, crowded = some c → s.keys c = ∅) ∧ t = s) ∨
    ∃ c v, crowded = some c ∧ s.clock.Oldest (s.keys c) v ∧ t = s.forgotten v

/-- NEW KEY: it is recent, and a crowded class of ghosts gives way. -/
def Admitted (k : K) (t : Adaptive K) : Prop :=
  ∃ u, (s.used k).Trimmed s.crowded u ∧ t = { u with frequentHit := false }

end Classes

variable {s : Adaptive K} {k : K} {c : Standing}

theorem standing_eq_none : s.standing k = none ↔ s.page k = none := Option.map_eq_none_iff

variable [DecidableEq K]

theorem standing_used_known (h : s.standing k = some c) (j : K) :
    (s.used k).standing j = if j = k then some .frequent else s.standing j := by
  obtain ⟨pg, hpg, -⟩ := Option.map_eq_some_iff.mp h
  by_cases hj : j = k
  · subst hj
    simp [standing, used, hpg, Page.standing]
  · simp [standing, used, hj]

theorem standing_used_new (h : s.standing k = none) (j : K) :
    (s.used k).standing j = if j = k then some .recent else s.standing j := by
  have hpage := standing_eq_none.mp h
  by_cases hj : j = k
  · subst hj
    simp [standing, used, hpage, Page.standing]
  · simp [standing, used, hj]

theorem standing_evicted (h : s.standing k = some c) (j : K) :
    (s.evicted k).standing j = if j = k then some c.ghost else s.standing j := by
  obtain ⟨⟨reuses, resident⟩, hpg, rfl⟩ := Option.map_eq_some_iff.mp h
  by_cases hj : j = k
  · subst hj
    cases reuses <;> cases resident <;> simp [standing, evicted, hpg, Page.standing, Standing.ghost]
  · simp [standing, evicted, hj]

theorem standing_forgotten (s : Adaptive K) (k j : K) :
    (s.forgotten k).standing j = if j = k then none else s.standing j := by
  by_cases hj : j = k
  · subst hj
    simp [standing, forgotten]
  · simp [standing, forgotten, hj]

omit [DecidableEq K] in
/-- What a hit teaches changes no class. -/
theorem standing_adapted (s : Adaptive K) (k : K) : (s.adapted k).standing = s.standing := by
  unfold adapted
  split <;> rfl

end Adaptive

end TidePool.Schemes
