import Mathlib.Logic.ExistsUnique
import Mathlib.Logic.Function.Basic
import Mathlib.Tactic.TypeStar

/-! Something that is done once, by whoever sets a flag first.

    Any number of parties run

        if (flag.exchange(true)) return;      -- somebody else has seen to it
        act();

    and between the two lines others run. `Once` is what holds all the time: before the first exchange nobody
    is about to act, and from then on either one party is about to act, or one has acted. -/

namespace TidePool.Schemes

variable {X A : Type*}

/-- `acts` are the actions so far, and `About x` says that `x` has set the flag and not acted yet. -/
def Once (flag : Bool) (acts : List A) (About : X → Prop) : Prop :=
  if flag then ((∃ a, acts = [a]) ∧ ∀ x, ¬ About x) ∨ acts = [] ∧ ∃! x, About x
  else acts = [] ∧ ∀ x, ¬ About x

namespace Once

variable {flag : Bool} {acts : List A} {About About' : X → Prop} {x : X}

theorem init (h : ∀ x, ¬ About x) : Once false ([] : List A) About := ⟨rfl, h⟩

theorem congr (h : Once flag acts About) (habout : ∀ x, About' x ↔ About x) : Once flag acts About' := by
  have heq : About' = About := funext fun x => propext (habout x)
  rw [heq]
  exact h

theorem length_le (h : Once flag acts About) : acts.length ≤ 1 := by
  cases flag with
  | false => simp [h.1]
  | true =>
    rcases h with ⟨⟨a, rfl⟩, -⟩ | ⟨rfl, -⟩
    · exact Nat.le_refl 1
    · exact Nat.zero_le 1

/-- Whoever is about to act has set the flag, and nobody has acted yet. -/
theorem about (h : Once flag acts About) (hx : About x) : flag = true ∧ acts = [] := by
  cases flag with
  | false => exact absurd hx (h.2 x)
  | true =>
    rcases h with ⟨-, hnobody⟩ | ⟨hacts, -⟩
    · exact absurd hx (hnobody x)
    · exact ⟨rfl, hacts⟩

/-- FIRST: the exchange that finds the flag down. -/
theorem exchange (h : Once false acts About) (hx : ∀ y, About' y ↔ y = x) : Once true acts About' :=
  .inr ⟨h.1, x, (hx x).mpr rfl, fun y hy => (hx y).mp hy⟩

/-- ACT: the party that may acts, and nobody else ever may. -/
theorem act (h : Once flag acts About) (hx : About x) (a : A) (hothers : ∀ y, About' y → y ≠ x ∧ About y) :
    Once flag (acts ++ [a]) About' := by
  obtain ⟨rfl, rfl⟩ := h.about hx
  rcases h with ⟨⟨b, hb⟩, -⟩ | ⟨-, z, -, hsole⟩
  · cases hb
  · refine .inl ⟨⟨a, rfl⟩, fun y hy => ?_⟩
    obtain ⟨hne, habout⟩ := hothers y hy
    exact hne ((hsole y habout).trans (hsole x hx).symm)

end Once

end TidePool.Schemes
