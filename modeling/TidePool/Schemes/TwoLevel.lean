import Mathlib.Logic.Function.Basic
import Mathlib.Data.Option.Basic

/-! Inclusive two-level stores.

    A small hot level in front of a large cold one. A key may sit in both: the hot copy is then the
    one that counts and the cold one is a leftover. `view` is the plain map the pair stands for; the
    four moves below are all that a write-back store ever does, and a power cut (`lose`) forgets the
    hot level.

        writeHot k v    hot k := v                      view k := v
        writeCold k v   cold k := v, hot k dropped      view k := v
        demote k        hot k moves down over cold k    view unchanged
        promote k       cold k is copied up             view unchanged -/

namespace TidePool.Schemes

/-- The contents of the two levels. -/
@[ext] structure TwoLevel (K V : Type*) where
  hot : K → Option V
  cold : K → Option V

namespace TwoLevel

variable {K V : Type*}

/-- The map the two levels stand for: the hot copy wins. -/
def view (s : TwoLevel K V) (k : K) : Option V := (s.hot k).or (s.cold k)

/-- Every key with two copies has the same value in both. -/
def Clean (s : TwoLevel K V) : Prop :=
  ∀ k v w, s.hot k = some v → s.cold k = some w → v = w

/-- Every key is as before, or was moved down. -/
def SinksTo (s t : TwoLevel K V) : Prop :=
  ∀ k, (t.hot k = s.hot k ∧ t.cold k = s.cold k) ∨
    (s.hot k ≠ none ∧ t.hot k = none ∧ t.cold k = s.hot k)

theorem SinksTo.refl (s : TwoLevel K V) : s.SinksTo s := fun _ => .inl ⟨rfl, rfl⟩

theorem SinksTo.trans {s t u : TwoLevel K V} (h : s.SinksTo t) (h' : t.SinksTo u) : s.SinksTo u := by
  intro k
  rcases h k with ⟨hh, hc⟩ | ⟨hs, hh, hc⟩
  · rw [← hh, ← hc]; exact h' k
  · rcases h' k with ⟨hh', hc'⟩ | ⟨hs', _, _⟩
    · exact .inr ⟨hs, hh'.trans hh, hc'.trans hc⟩
    · exact absurd hh hs'

/-- A key that is not in the hot level does not move. -/
theorem SinksTo.of_not_hot {s t : TwoLevel K V} (h : s.SinksTo t) {k : K} (hk : s.hot k = none) :
    t.hot k = none ∧ t.cold k = s.cold k := by
  rcases h k with ⟨hh, hc⟩ | ⟨hs, _, _⟩
  · exact ⟨hh.trans hk, hc⟩
  · exact absurd hk hs

/-- A key that is still in the hot level did not move. -/
theorem SinksTo.of_hot {s t : TwoLevel K V} (h : s.SinksTo t) {k : K} (hk : t.hot k ≠ none) :
    t.hot k = s.hot k ∧ t.cold k = s.cold k := by
  rcases h k with hsame | ⟨_, hh, _⟩
  · exact hsame
  · exact absurd hh hk

theorem SinksTo.view_eq {s t : TwoLevel K V} (h : s.SinksTo t) : t.view = s.view := by
  funext k
  rcases h k with ⟨hh, hc⟩ | ⟨hs, hh, hc⟩
  · simp [view, hh, hc]
  · obtain ⟨v, hv⟩ := Option.ne_none_iff_exists'.mp hs
    simp [view, hh, hc, hv]

theorem SinksTo.clean {s t : TwoLevel K V} (h : s.SinksTo t) (hc : s.Clean) : t.Clean := by
  intro k v w hv hw
  obtain ⟨hh, hcold⟩ := h.of_hot (k := k) (by rw [hv]; simp)
  exact hc k v w (hh ▸ hv) (hcold ▸ hw)

/-- The hot level is volatile: a restart keeps the cold level only. -/
def lose (s : TwoLevel K V) : TwoLevel K V := { s with hot := fun _ => none }

/-- A restart serves the cold level. -/
theorem view_lose (s : TwoLevel K V) : s.lose.view = s.cold := by
  funext k; simp [view, lose]

/-- The hot copy is the one that counts. -/
theorem view_of_hot {s : TwoLevel K V} {k : K} {v : V} (h : s.hot k = some v) : s.view k = some v := by
  rw [view, h, Option.some_or]

variable [DecidableEq K]

def writeHot (s : TwoLevel K V) (k : K) (v : V) : TwoLevel K V :=
  { s with hot := Function.update s.hot k (some v) }

def writeCold (s : TwoLevel K V) (k : K) (v : V) : TwoLevel K V where
  hot := Function.update s.hot k none
  cold := Function.update s.cold k (some v)

def demote (s : TwoLevel K V) (k : K) : TwoLevel K V where
  hot := Function.update s.hot k none
  cold := Function.update s.cold k (s.hot k)

def promote (s : TwoLevel K V) (k : K) : TwoLevel K V :=
  { s with hot := Function.update s.hot k (s.cold k) }

theorem view_writeHot (s : TwoLevel K V) (k : K) (v : V) :
    (s.writeHot k v).view = Function.update s.view k (some v) := by
  funext j
  by_cases h : j = k
  · subst h; simp [view, writeHot]
  · simp [view, writeHot, h]

theorem view_writeCold (s : TwoLevel K V) (k : K) (v : V) :
    (s.writeCold k v).view = Function.update s.view k (some v) := by
  funext j
  by_cases h : j = k
  · subst h; simp [view, writeCold]
  · simp [view, writeCold, h]

theorem sinksTo_demote (s : TwoLevel K V) {k : K} (hk : s.hot k ≠ none) : s.SinksTo (s.demote k) := by
  intro j
  by_cases h : j = k
  · subst h; exact .inr ⟨hk, by simp [demote], by simp [demote]⟩
  · exact .inl ⟨by simp [demote, h], by simp [demote, h]⟩

theorem view_promote (s : TwoLevel K V) {k : K} (hk : s.hot k = none) :
    (s.promote k).view = s.view := by
  funext j
  by_cases h : j = k
  · subst h; simp [view, promote, hk]
  · simp [view, promote, h]

/-! ### Properties of every stored value -/

section Every

variable {p : K → V → Prop} {s t : TwoLevel K V}

/-- Every value in either level satisfies `p`. -/
def Every (p : K → V → Prop) (s : TwoLevel K V) : Prop :=
  ∀ k v, s.hot k = some v ∨ s.cold k = some v → p k v

omit [DecidableEq K] in
theorem SinksTo.every (h : s.SinksTo t) (hs : s.Every p) : t.Every p := by
  intro k v hv
  rcases h k with ⟨hh, hc⟩ | ⟨-, hh, hc⟩
  · rw [hh, hc] at hv; exact hs k v hv
  · rw [hh, hc] at hv; exact hs k v (.inl (hv.resolve_left (by simp)))

theorem every_writeHot (hs : s.Every p) {k : K} {v : V} (hv : p k v) : (s.writeHot k v).Every p := by
  intro j w hw
  by_cases hj : j = k
  · subst hj
    rcases hw with hw | hw
    · simp only [writeHot, Function.update_self, Option.some.injEq] at hw; exact hw ▸ hv
    · exact hs j w (.inr hw)
  · exact hs j w (by simpa [writeHot, hj] using hw)

theorem every_writeCold (hs : s.Every p) {k : K} {v : V} (hv : p k v) : (s.writeCold k v).Every p := by
  intro j w hw
  by_cases hj : j = k
  · subst hj
    simp only [writeCold, Function.update_self, Option.some.injEq] at hw
    exact hw.resolve_left (by simp) ▸ hv
  · exact hs j w (by simpa [writeCold, hj] using hw)

theorem every_promote (hs : s.Every p) (k : K) : (s.promote k).Every p := by
  intro j w hw
  by_cases hj : j = k
  · subst hj; exact hs j w (.inr (by simpa [promote] using hw))
  · exact hs j w (by simpa [promote, hj] using hw)

end Every

/-! ### Restarts -/

omit [DecidableEq K] in
/-- EXACT: after a restart every key is gone or unchanged iff no cold copy was outdated. -/
theorem lose_faithful_iff (s : TwoLevel K V) :
    (∀ k, s.lose.view k = none ∨ s.lose.view k = s.view k) ↔ s.Clean := by
  rw [view_lose]
  constructor
  · intro h k v w hv hw
    rcases h k with hn | hs
    · rw [hw] at hn; simp at hn
    · simp only [view, hv, hw, Option.some_or, Option.some.injEq] at hs
      exact hs.symm
  · intro hc k
    cases hw : s.cold k with
    | none => exact Or.inl rfl
    | some w =>
      refine Or.inr ?_
      cases hv : s.hot k with
      | none => simp [view, hv, hw]
      | some v => simp [view, hv, hc k v w hv hw]

theorem clean_promote {s : TwoLevel K V} (hc : s.Clean) (k : K) : (s.promote k).Clean := by
  intro j v w hv hw
  by_cases h : j = k
  · subst h
    simp only [promote, Function.update_self] at hv hw
    exact Option.some.inj (hv.symm.trans hw)
  · simp only [promote, ne_eq, h, not_false_eq_true, Function.update_of_ne] at hv hw
    exact hc j v w hv hw

theorem clean_writeCold {s : TwoLevel K V} (hc : s.Clean) (k : K) (u : V) :
    (s.writeCold k u).Clean := by
  intro j v w hv hw
  by_cases h : j = k
  · subst h; simp [writeCold] at hv
  · simp only [writeCold, ne_eq, h, not_false_eq_true, Function.update_of_ne] at hv hw
    exact hc j v w hv hw

/-- A hot write keeps the store clean when there is no cold copy to outdate. -/
theorem clean_writeHot {s : TwoLevel K V} (hc : s.Clean) {k : K} {u : V}
    (hk : ∀ w, s.cold k = some w → w = u) : (s.writeHot k u).Clean := by
  intro j v w hv hw
  by_cases h : j = k
  · subst h
    simp only [writeHot, Function.update_self, Option.some.injEq] at hv hw
    exact hv ▸ (hk w hw).symm
  · simp only [writeHot, ne_eq, h, not_false_eq_true, Function.update_of_ne] at hv hw
    exact hc j v w hv hw

end TwoLevel

end TidePool.Schemes
