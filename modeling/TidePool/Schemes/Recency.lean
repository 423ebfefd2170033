import Mathlib.Data.List.Nodup
import Mathlib.Data.Set.Insert

/-! Recency: when a key was last used, and lists kept in that order.

    A `Clock` stamps every use with its next tick. A list is in the clock's order when the most recent key
    stands in front, so a use moves a key there and the oldest keys are found from the back:

        use k                    k :: rest               k is stamped last, the others keep their order
        last key that p admits   ks.reverse.find? p      the oldest of the keys that p admits -/

namespace TidePool.Schemes

/-- Ticks so far, and the tick of every key's last use. -/
structure Clock (K : Type*) where
  now : ℕ := 0
  last : K → ℕ := fun _ => 0

namespace Clock

variable {K : Type*} {r : Clock K} {ks xs vs : List K} {S : Set K} {k v : K}

/-- The keys are listed from the most to the least recent, and no use lies ahead. -/
structure Orders (r : Clock K) (ks : List K) : Prop where
  sorted : ks.Pairwise fun a b => r.last b < r.last a
  past : ∀ k, r.last k ≤ r.now

theorem orders_nil : Orders ({} : Clock K) [] := ⟨.nil, fun _ => le_rfl⟩

theorem Orders.sublist (h : r.Orders ks) (hxs : xs.Sublist ks) : r.Orders xs := ⟨h.sorted.sublist hxs, h.past⟩

/-- `v` was used longest ago among the keys of `S`. -/
structure Oldest (r : Clock K) (S : Set K) (v : K) : Prop where
  mem : v ∈ S
  least : ∀ j ∈ S, j ≠ v → r.last v < r.last j

/-- `vs` are taken out of `S` one after the other, each the oldest of those left. -/
def OldestFirst (r : Clock K) : Set K → List K → Prop
  | _, [] => True
  | S, v :: vs => r.Oldest S v ∧ r.OldestFirst (S \ {v}) vs

theorem OldestFirst.mem : ∀ {vs : List K} {S : Set K}, r.OldestFirst S vs → ∀ v ∈ vs, v ∈ S
  | [], _, _, v, hv => by cases hv
  | w :: vs, S, ⟨hw, hvs⟩, v, hv => by
    rcases List.mem_cons.mp hv with rfl | hv
    · exact hw.mem
    · exact (hvs.mem v hv).1

/-- LAST: the last key of an ordered list that `p` admits is the oldest that `p` admits. -/
theorem Orders.oldest_of_find (h : r.Orders ks) {p : K → Bool} (hv : ks.reverse.find? p = some v) :
    r.Oldest { j | j ∈ ks ∧ p j = true } v := by
  obtain ⟨hp, late, early, hsplit, hlate⟩ := List.find?_eq_some_iff_append.mp hv
  have hks : ks = early.reverse ++ v :: late.reverse := by
    rw [← List.reverse_reverse ks, hsplit]
    simp
  refine ⟨⟨by rw [hks]; simp, hp⟩, ?_⟩
  rintro j ⟨hj, hpj⟩ hne
  -- nothing behind `v` is admitted, so `j` stands before it
  have hbefore : j ∈ early.reverse := by
    rw [hks] at hj
    rcases List.mem_append.mp hj with hj | hj
    · exact hj
    · rcases List.mem_cons.mp hj with rfl | hj
      · exact absurd rfl hne
      · have hnot := hlate j (List.mem_reverse.mp hj)
        rw [hpj] at hnot
        cases hnot
  have hsorted := h.sorted
  rw [hks] at hsorted
  exact (List.pairwise_append.mp hsorted).2.2 j hbefore v (by simp)

/-- The last key of an ordered list is its oldest. -/
theorem Orders.oldest_of_getLast (h : r.Orders ks) (hv : ks.getLast? = some v) :
    r.Oldest { j | j ∈ ks } v := by
  have hfind : ks.reverse.find? (fun _ => true) = some v := by
    obtain ⟨ys, rfl⟩ := List.getLast?_eq_some_iff.mp hv
    simp
  simpa using h.oldest_of_find hfind

variable [DecidableEq K]

/-- `k` is used. -/
def touch (r : Clock K) (k : K) : Clock K where
  now := r.now + 1
  last := Function.update r.last k (r.now + 1)

/-- A use of a key outside the list leaves its order. -/
theorem Orders.touch_other (h : r.Orders ks) (hk : k ∉ ks) : (r.touch k).Orders ks where
  sorted := by
    refine h.sorted.imp_of_mem ?_
    intro a b ha hb hlt
    have hak : a ≠ k := by rintro rfl; exact hk ha
    have hbk : b ≠ k := by rintro rfl; exact hk hb
    simpa [touch, hak, hbk] using hlt
  past j := by
    by_cases hj : j = k
    · subst hj; simp [touch]
    · have hpast := h.past j
      simp only [touch, Function.update_of_ne hj]
      omega

/-- A used key belongs in front. -/
theorem Orders.touch_front (h : r.Orders ks) (hk : k ∉ ks) : (r.touch k).Orders (k :: ks) where
  sorted := by
    refine .cons ?_ (h.touch_other hk).sorted
    intro j hj
    have hjk : j ≠ k := by rintro rfl; exact hk hj
    have hpast := h.past j
    simp only [touch, Function.update_of_ne hjk, Function.update_self]
    omega
  past := (h.touch_other hk).past

/-! ### Several lists -/

variable {L : Type*} [DecidableEq L] {lists : L → List K}

omit [DecidableEq K] in
theorem Orders.thinned (h : ∀ l, r.Orders (lists l)) {src : L} (hxs : xs.Sublist (lists src)) (l : L) :
    r.Orders (Function.update lists src xs l) := by
  by_cases hl : l = src
  · subst hl
    rw [Function.update_self]
    exact (h l).sublist hxs
  · rw [Function.update_of_ne hl]
    exact h l

/-- A key on none of the lists is used and goes in front of one. -/
theorem Orders.pushed (h : ∀ l, r.Orders (lists l)) (hk : ∀ l, k ∉ lists l) (dst l : L) :
    (r.touch k).Orders (Function.update lists dst (k :: lists dst) l) := by
  by_cases hl : l = dst
  · subst hl
    rw [Function.update_self]
    exact (h l).touch_front (hk l)
  · rw [Function.update_of_ne hl]
    exact (h l).touch_other (hk l)

end Clock

end TidePool.Schemes
