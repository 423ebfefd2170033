import Mathlib.Data.Finset.Basic

/-! Resources with one owner each.

    Holders (variables, objects) may hold a resource, and some resources are open. When a holder is all that
    can give a resource back, two things can go wrong: a resource held by two is given back twice, and one
    held by nobody is never given back. `Owned` excludes both:

        take      a resource that is not open  ->  an empty holder
        release   a held resource              ->  not open
        move      a held resource              ->  an empty holder -/

namespace TidePool.Schemes

variable {I R : Type*}

/-- The open resources are the held ones, and each has one holder. -/
structure Owned (holder : I → Option R) (opened : Finset R) : Prop where
  live : ∀ i r, holder i = some r → r ∈ opened
  sole : ∀ i j r, holder i = some r → holder j = some r → i = j
  kept : ∀ r ∈ opened, ∃ i, holder i = some r

namespace Owned

variable {holder : I → Option R} {opened : Finset R} {i j : I} {r : R}

theorem empty : Owned (fun _ : I => (none : Option R)) ∅ where
  live _ _ h := by cases h
  sole _ _ _ h := by cases h
  kept _ h := by cases h

theorem mem_iff (h : Owned holder opened) : r ∈ opened ↔ ∃ i, holder i = some r :=
  ⟨h.kept r, fun ⟨i, hi⟩ => h.live i r hi⟩

variable [DecidableEq I] [DecidableEq R]

omit [DecidableEq R] in
/-- What a holder that is set to nothing leaves of the others. -/
theorem update_none_eq_some : Function.update holder i none j = some r ↔ j ≠ i ∧ holder j = some r := by
  by_cases hj : j = i
  · subst hj
    simp
  · simp [hj]

/-- TAKE: an empty holder gets a resource that was not open. -/
theorem take (h : Owned holder opened) (hi : holder i = none) (hr : r ∉ opened) :
    Owned (Function.update holder i (some r)) (insert r opened) := by
  have hcases : ∀ j s, Function.update holder i (some r) j = some s →
      (j = i ∧ s = r) ∨ j ≠ i ∧ holder j = some s := by
    intro j s hs
    by_cases hj : j = i
    · subst hj
      rw [Function.update_self] at hs
      exact .inl ⟨rfl, (Option.some.inj hs).symm⟩
    · rw [Function.update_of_ne hj] at hs
      exact .inr ⟨hj, hs⟩
  refine ⟨fun j s hs => ?_, fun j l s hj hl => ?_, fun s hs => ?_⟩
  · rcases hcases j s hs with ⟨-, rfl⟩ | ⟨-, hs⟩
    · exact Finset.mem_insert_self _ _
    · exact Finset.mem_insert_of_mem (h.live j s hs)
  · rcases hcases j s hj with ⟨hji, hjr⟩ | ⟨-, hjs⟩ <;> rcases hcases l s hl with ⟨hli, hlr⟩ | ⟨-, hls⟩
    · rw [hji, hli]
    · exact absurd (h.live l s hls) (hjr ▸ hr)
    · exact absurd (h.live j s hjs) (hlr ▸ hr)
    · exact h.sole j l s hjs hls
  · rcases Finset.mem_insert.mp hs with rfl | hs
    · exact ⟨i, Function.update_self i _ _⟩
    · obtain ⟨j, hj⟩ := h.kept s hs
      have hne : j ≠ i := by
        rintro rfl
        cases hi.symm.trans hj
      exact ⟨j, by rw [Function.update_of_ne hne, hj]⟩

/-- RELEASE: a holder gives its resource back. -/
theorem release (h : Owned holder opened) (hi : holder i = some r) :
    Owned (Function.update holder i none) (opened.erase r) := by
  refine ⟨fun j s hs => ?_, fun j l s hj hl => ?_, fun s hs => ?_⟩
  · obtain ⟨hne, hs⟩ := update_none_eq_some.mp hs
    refine Finset.mem_erase.mpr ⟨?_, h.live j s hs⟩
    rintro rfl
    exact hne (h.sole j i s hs hi)
  · exact h.sole j l s (update_none_eq_some.mp hj).2 (update_none_eq_some.mp hl).2
  · obtain ⟨hne, hs⟩ := Finset.mem_erase.mp hs
    obtain ⟨j, hj⟩ := h.kept s hs
    refine ⟨j, update_none_eq_some.mpr ⟨?_, hj⟩⟩
    rintro rfl
    exact hne (Option.some.inj (hj.symm.trans hi))

omit [DecidableEq R] in
/-- MOVE: an empty holder takes what another one has, which is then empty. -/
theorem move (h : Owned holder opened) (hi : holder i = none) (hne : i ≠ j) :
    Owned (Function.update (Function.update holder j none) i (holder j)) opened := by
  -- a resource is where it was, or at `i` and formerly at `j`
  have hcases : ∀ l s, Function.update (Function.update holder j none) i (holder j) l = some s →
      (l = i ∧ holder j = some s) ∨ l ≠ i ∧ l ≠ j ∧ holder l = some s := by
    intro l s hs
    by_cases hl : l = i
    · subst hl
      rw [Function.update_self] at hs
      exact .inl ⟨rfl, hs⟩
    · rw [Function.update_of_ne hl] at hs
      exact .inr ⟨hl, update_none_eq_some.mp hs⟩
  refine ⟨fun l s hs => ?_, fun l m s hl hm => ?_, fun s hs => ?_⟩
  · rcases hcases l s hs with ⟨-, hs⟩ | ⟨-, -, hs⟩
    · exact h.live j s hs
    · exact h.live l s hs
  · rcases hcases l s hl with ⟨hli, hls⟩ | ⟨-, hlj, hls⟩ <;>
      rcases hcases m s hm with ⟨hmi, hms⟩ | ⟨-, hmj, hms⟩
    · rw [hli, hmi]
    · exact absurd (h.sole m j s hms hls) hmj
    · exact absurd (h.sole l j s hls hms) hlj
    · exact h.sole l m s hls hms
  · obtain ⟨l, hl⟩ := h.kept s hs
    by_cases hlj : l = j
    · subst hlj
      exact ⟨i, by rw [Function.update_self, hl]⟩
    · have hli : l ≠ i := by
        rintro rfl
        cases hi.symm.trans hl
      exact ⟨l, by rw [Function.update_of_ne hli, Function.update_of_ne hlj, hl]⟩

end Owned

end TidePool.Schemes
