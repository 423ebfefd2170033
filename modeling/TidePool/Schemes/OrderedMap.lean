import Mathlib.Order.Defs.LinearOrder
import Mathlib.Data.Set.Basic
import Mathlib.Data.List.Induction
import Mathlib.Data.List.Pairwise
import Mathlib.Tactic.Tauto

/-! Maps with ordered keys, and the successor of a key around the circle.

    `OrderedMap K V` keeps its entries in increasing order, as `std::map` does. `successor k` is the first
    entry at or after `k`, or the first of all when there is none:

        keys     a < b < c          k <= a -> a,   a < k <= b -> b,   b < k <= c -> c,   c < k -> a

    A map that was filled by a list of writes holds the last write to each key. Leaving out the writes of
    some values does not move a successor that holds another value: what consistent hashing rests on. -/

namespace TidePool.Schemes

/-! ### The last write to a key -/

section LastWrite

variable {K V : Type} {ws : List (K × V)} {w e : K × V}

/-- `e` is written, and its key is not written again. -/
def LastWrite (ws : List (K × V)) (e : K × V) : Prop :=
  ∃ before after, ws = before ++ e :: after ∧ ∀ w ∈ after, w.1 ≠ e.1

theorem LastWrite.mem (h : LastWrite ws e) : e ∈ ws := by
  obtain ⟨before, after, rfl, -⟩ := h
  simp

theorem lastWrite_concat : LastWrite (ws ++ [w]) e ↔ e = w ∨ e.1 ≠ w.1 ∧ LastWrite ws e := by
  constructor
  · rintro ⟨before, after, hsplit, hafter⟩
    rcases List.eq_nil_or_concat after with rfl | ⟨after, x, rfl⟩
    · exact .inl (List.concat_inj.mp (by simpa using hsplit)).2.symm
    · have hcons : ws ++ [w] = (before ++ e :: after) ++ [x] := by simpa using hsplit
      obtain ⟨rfl, rfl⟩ := List.append_singleton_inj.mp hcons
      exact .inr ⟨(hafter w (by simp)).symm, before, after, rfl, fun y hy => hafter y (by simp [hy])⟩
  · rintro (rfl | ⟨hne, before, after, rfl, hafter⟩)
    · exact ⟨ws, [], rfl, by simp⟩
    · refine ⟨before, after ++ [w], by simp, fun y hy => ?_⟩
      rcases List.mem_append.mp hy with hy | hy
      · exact hafter y hy
      · exact List.mem_singleton.mp hy ▸ hne.symm

/-- Every key written is in use. -/
theorem exists_lastWrite (hw : w ∈ ws) : ∃ v, LastWrite ws (w.1, v) := by
  induction ws using List.reverseRecOn with
  | nil => exact absurd hw List.not_mem_nil
  | append_singleton ws x ih =>
    by_cases hx : w.1 = x.1
    · exact ⟨x.2, lastWrite_concat.mpr (.inl (by rw [hx]))⟩
    · rcases List.mem_append.mp hw with hin | hin
      · obtain ⟨v, hv⟩ := ih hin
        exact ⟨v, lastWrite_concat.mpr (.inr ⟨hx, hv⟩)⟩
      · exact absurd (congrArg Prod.fst (List.mem_singleton.mp hin)) hx

theorem LastWrite.filter (h : LastWrite ws e) {keep : K × V → Bool} (hkeep : keep e = true) :
    LastWrite (ws.filter keep) e := by
  obtain ⟨before, after, rfl, hafter⟩ := h
  refine ⟨before.filter keep, after.filter keep, ?_, fun w hw => hafter w (List.mem_filter.mp hw).1⟩
  rw [List.filter_append, List.filter_cons_of_pos hkeep]

end LastWrite

/-! ### Ordered maps -/

/-- Entries in increasing key order. -/
structure OrderedMap (K V : Type) [LinearOrder K] where
  entries : List (K × V)
  sorted : entries.Pairwise fun a b => a.1 < b.1

variable {K V : Type} [LinearOrder K]

/-! ### The successor of a key -/

/-- `p` is the first of `S` at or after `k`, around the circle. -/
def IsNext (S : Set K) (k p : K) : Prop :=
  p ∈ S ∧ ((k ≤ p ∧ ∀ q ∈ S, k ≤ q → p ≤ q) ∨ ((∀ q ∈ S, q < k) ∧ ∀ q ∈ S, p ≤ q))

theorem IsNext.unique {S : Set K} {k p q : K} (hp : IsNext S k p) (hq : IsNext S k q) : p = q := by
  obtain ⟨hmem, ⟨hle, hfirst⟩ | ⟨hbelow, hfirst⟩⟩ := hp
  · obtain ⟨hmem', ⟨hle', hfirst'⟩ | ⟨hbelow', -⟩⟩ := hq
    · exact le_antisymm (hfirst q hmem' hle') (hfirst' p hmem hle)
    · exact absurd hle (not_le.mpr (hbelow' p hmem))
  · obtain ⟨hmem', ⟨hle', -⟩ | ⟨-, hfirst'⟩⟩ := hq
    · exact absurd hle' (not_le.mpr (hbelow q hmem'))
    · exact le_antisymm (hfirst q hmem') (hfirst' p hmem)

/-- In fewer keys a successor that is still there is still the successor. -/
theorem IsNext.subset {S T : Set K} {k p : K} (h : IsNext T k p) (hsub : S ⊆ T) (hp : p ∈ S) :
    IsNext S k p := by
  refine ⟨hp, h.2.imp ?_ ?_⟩
  · exact fun ⟨hle, hfirst⟩ => ⟨hle, fun q hq => hfirst q (hsub hq)⟩
  · exact fun ⟨hbelow, hfirst⟩ => ⟨fun q hq => hbelow q (hsub hq), fun q hq => hfirst q (hsub hq)⟩

/-- The way from `k` to `x` around a circle of `n` points. -/
def clockwise (n k x : ℕ) : ℕ := (x + n - k) % n

theorem clockwise_eq {n k x : ℕ} (hk : k < n) (hx : x < n) :
    clockwise n k x = if k ≤ x then x - k else x + n - k := by
  unfold clockwise
  split
  · rw [show x + n - k = x - k + n by omega, Nat.add_mod_right, Nat.mod_eq_of_lt (by omega)]
  · exact Nat.mod_eq_of_lt (by omega)

/-- NEAREST: the next point around the circle is the one with the shortest way. -/
theorem isNext_iff_clockwise {n k p : ℕ} {S : Set ℕ} (hS : ∀ q ∈ S, q < n) (hk : k < n) :
    IsNext S k p ↔ p ∈ S ∧ ∀ q ∈ S, clockwise n k p ≤ clockwise n k q := by
  refine and_congr_right fun hp => ⟨fun h q hq => ?_, fun h => ?_⟩
  · rw [clockwise_eq hk (hS p hp), clockwise_eq hk (hS q hq)]
    have hp' := hS p hp
    rcases h with ⟨hle, hfirst⟩ | ⟨hbelow, hfirst⟩
    · rw [if_pos hle]
      by_cases hkq : k ≤ q
      · have := hfirst q hq hkq
        rw [if_pos hkq]; omega
      · rw [if_neg hkq]; omega
    · have hp₁ := hbelow p hp
      have hq₁ := hbelow q hq
      have := hfirst q hq
      rw [if_neg (by omega), if_neg (by omega)]; omega
  · have hmin : ∀ q ∈ S, (if k ≤ p then p - k else p + n - k) ≤ if k ≤ q then q - k else q + n - k := by
      intro q hq
      rw [← clockwise_eq hk (hS p hp), ← clockwise_eq hk (hS q hq)]
      exact h q hq
    by_cases hle : k ≤ p
    · refine .inl ⟨hle, fun q hq hkq => ?_⟩
      have := hmin q hq
      rw [if_pos hle, if_pos hkq] at this
      omega
    · refine .inr ⟨fun q hq => ?_, fun q hq => ?_⟩
      · by_contra hkq
        have hway := hmin q hq
        have hq' := hS q hq
        rw [if_neg hle, if_pos (not_lt.mp hkq)] at hway
        omega
      · have := hmin q hq
        rw [if_neg hle] at this
        split at this <;> omega

namespace OrderedMap

instance : EmptyCollection (OrderedMap K V) := ⟨⟨[], .nil⟩⟩

/-- The keys in use. -/
def keys (m : OrderedMap K V) : Set K := { k | ∃ v, (k, v) ∈ m.entries }

/-- The first entry at or after `k` (`lower_bound`). -/
def lowerBound (m : OrderedMap K V) (k : K) : Option (K × V) := m.entries.find? fun e => k ≤ e.1

/-- The first entry at or after `k`, around the circle. -/
def successor (m : OrderedMap K V) (k : K) : Option (K × V) := (m.lowerBound k).or m.entries.head?

theorem head_le {m : OrderedMap K V} {e : K × V} (h : m.entries.head? = some e) {q : K} (hq : q ∈ m.keys) :
    e.1 ≤ q := by
  obtain ⟨v, hv⟩ := hq
  obtain ⟨rest, hrest⟩ := List.head?_eq_some_iff.mp h
  have hsorted := m.sorted
  rw [hrest] at hv hsorted
  rcases List.mem_cons.mp hv with rfl | hin
  · exact le_rfl
  · exact (List.rel_of_pairwise_cons hsorted hin).le

theorem lowerBound_le {m : OrderedMap K V} {k : K} {e : K × V} (h : m.lowerBound k = some e) {q : K}
    (hq : q ∈ m.keys) (hk : k ≤ q) : e.1 ≤ q := by
  obtain ⟨v, hv⟩ := hq
  obtain ⟨-, before, after, hsplit, hbefore⟩ := List.find?_eq_some_iff_append.mp h
  have hsorted := m.sorted
  rw [hsplit] at hv hsorted
  rcases List.mem_append.mp hv with hin | hin
  · exact absurd hk (by simpa using hbefore _ hin)
  · rcases List.mem_cons.mp hin with rfl | hin
    · exact le_rfl
    · exact (List.rel_of_pairwise_cons (List.pairwise_append.mp hsorted).2.1 hin).le

/-- The successor is an entry, and its key is the next one. -/
theorem successor_isNext {m : OrderedMap K V} {k : K} {e : K × V} (h : m.successor k = some e) :
    e ∈ m.entries ∧ IsNext m.keys k e.1 := by
  rcases Option.or_eq_some_iff.mp h with hfound | ⟨hnone, hhead⟩
  · have hmem : e ∈ m.entries := List.mem_of_find?_eq_some hfound
    have hle : k ≤ e.1 := by simpa using List.find?_some hfound
    exact ⟨hmem, ⟨e.2, hmem⟩, .inl ⟨hle, fun q => lowerBound_le hfound⟩⟩
  · have hmem : e ∈ m.entries := List.mem_of_head? hhead
    refine ⟨hmem, ⟨e.2, hmem⟩, .inr ⟨fun q ⟨v, hv⟩ => ?_, fun q => head_le hhead⟩⟩
    simpa using List.find?_eq_none.mp hnone _ hv

theorem successor_eq_none {m : OrderedMap K V} {k : K} (h : m.successor k = none) : m.entries = [] :=
  List.head?_eq_none_iff.mp (Option.or_eq_none_iff.mp h).2

/-- A key has one value. -/
theorem functional {m : OrderedMap K V} {k : K} {v w : V} (hv : (k, v) ∈ m.entries)
    (hw : (k, w) ∈ m.entries) : v = w := by
  have hkeys : m.entries.Pairwise fun a b => a.1 ≠ b.1 := m.sorted.imp fun h => h.ne
  have hsymm : Std.Symm fun a b : K × V => a.1 ≠ b.1 := ⟨fun _ _ h => h.symm⟩
  by_contra hne
  exact hkeys.forall hv hw (fun h => hne (Prod.mk.inj h).2) rfl

/-- The successor is known by its entry. -/
theorem successor_eq_some {m : OrderedMap K V} {k p : K} {v : V} (hmem : (p, v) ∈ m.entries)
    (hnext : IsNext m.keys k p) : m.successor k = some (p, v) := by
  cases h : m.successor k with
  | none => rw [successor_eq_none h] at hmem; exact absurd hmem List.not_mem_nil
  | some e =>
    obtain ⟨q, w⟩ := e
    obtain ⟨hin, hnext'⟩ := successor_isNext h
    obtain rfl : p = q := hnext.unique hnext'
    rw [functional hmem hin]

/-! ### Writing -/

/-- `insert` on the list of entries. -/
def insertEntry (k : K) (v : V) : List (K × V) → List (K × V)
  | [] => [(k, v)]
  | e :: es =>
    if k < e.1 then (k, v) :: e :: es
    else if e.1 < k then e :: insertEntry k v es
    else (k, v) :: es

theorem mem_insertEntry {k : K} {v : V} : ∀ {es : List (K × V)}, (es.Pairwise fun a b => a.1 < b.1) →
    ∀ {e : K × V}, e ∈ insertEntry k v es ↔ e = (k, v) ∨ e.1 ≠ k ∧ e ∈ es
  | [], _, e => by simp [insertEntry]
  | x :: xs, h, e => by
    obtain ⟨hx, hxs⟩ := List.pairwise_cons.mp h
    rcases lt_trichotomy k x.1 with hlt | heq | hgt
    · -- `k` is below every entry, so none is overwritten
      have hne : e ∈ x :: xs → e.1 ≠ k := by
        rintro hin rfl
        rcases List.mem_cons.mp hin with rfl | hin
        · exact lt_irrefl _ hlt
        · exact lt_asymm hlt (hx e hin)
      rw [insertEntry, if_pos hlt, List.mem_cons]
      exact or_congr_right ⟨fun hin => ⟨hne hin, hin⟩, And.right⟩
    · have hne : e ∈ xs → e.1 ≠ k := fun hin => heq ▸ (hx e hin).ne'
      rw [insertEntry, if_neg heq.not_lt, if_neg heq.not_gt, List.mem_cons, List.mem_cons]
      refine or_congr_right ⟨fun hin => ⟨hne hin, .inr hin⟩, fun ⟨hk, hin⟩ => hin.resolve_left ?_⟩
      rintro rfl
      exact hk heq.symm
    · have hxk : e = x → e.1 ≠ k := fun he => he ▸ hgt.ne
      rw [insertEntry, if_neg hgt.not_gt, if_pos hgt, List.mem_cons, mem_insertEntry hxs, List.mem_cons]
      tauto

theorem sorted_insertEntry {k : K} {v : V} : ∀ {es : List (K × V)}, (es.Pairwise fun a b => a.1 < b.1) →
    (insertEntry k v es).Pairwise fun a b => a.1 < b.1
  | [], _ => List.pairwise_singleton _ _
  | x :: xs, h => by
    obtain ⟨hx, hxs⟩ := List.pairwise_cons.mp h
    rcases lt_trichotomy k x.1 with hlt | heq | hgt
    · rw [insertEntry, if_pos hlt]
      refine List.pairwise_cons.mpr ⟨fun e he => ?_, h⟩
      rcases List.mem_cons.mp he with rfl | he
      · exact hlt
      · exact hlt.trans (hx e he)
    · rw [insertEntry, if_neg heq.not_lt, if_neg heq.not_gt]
      exact List.pairwise_cons.mpr ⟨fun e he => heq ▸ hx e he, hxs⟩
    · rw [insertEntry, if_neg hgt.not_gt, if_pos hgt]
      refine List.pairwise_cons.mpr ⟨fun e he => ?_, sorted_insertEntry hxs⟩
      rcases (mem_insertEntry hxs).mp he with rfl | ⟨-, he⟩
      · exact hgt
      · exact hx e he

/-- Give `k` the value `v`, whatever it had (`m[k] = v`). -/
def insert (m : OrderedMap K V) (k : K) (v : V) : OrderedMap K V :=
  ⟨insertEntry k v m.entries, sorted_insertEntry m.sorted⟩

theorem mem_insert {m : OrderedMap K V} {k : K} {v : V} {e : K × V} :
    e ∈ (m.insert k v).entries ↔ e = (k, v) ∨ e.1 ≠ k ∧ e ∈ m.entries :=
  mem_insertEntry m.sorted

/-- The map that a list of writes leaves. -/
def ofWrites (ws : List (K × V)) : OrderedMap K V := ws.foldl (fun m w => m.insert w.1 w.2) ∅

/-- LAST WRITER WINS. -/
theorem mem_ofWrites {ws : List (K × V)} {e : K × V} : e ∈ (ofWrites ws).entries ↔ LastWrite ws e := by
  induction ws using List.reverseRecOn generalizing e with
  | nil => exact ⟨fun h => absurd h List.not_mem_nil, fun h => absurd h.mem List.not_mem_nil⟩
  | append_singleton ws w ih =>
    rw [ofWrites, List.foldl_append, List.foldl_cons, List.foldl_nil, mem_insert, lastWrite_concat]
    exact or_congr_right (and_congr_right fun _ => ih)

theorem keys_ofWrites {ws : List (K × V)} {k : K} : k ∈ (ofWrites ws).keys ↔ ∃ w ∈ ws, w.1 = k := by
  constructor
  · rintro ⟨v, hv⟩
    exact ⟨(k, v), (mem_ofWrites.mp hv).mem, rfl⟩
  · rintro ⟨w, hw, rfl⟩
    obtain ⟨v, hv⟩ := exists_lastWrite hw
    exact ⟨v, mem_ofWrites.mpr hv⟩

/-- STAYS: a successor whose write is kept is the successor when other writes are left out. -/
theorem successor_filter {ws : List (K × V)} {k : K} {e : K × V} (h : (ofWrites ws).successor k = some e)
    {keep : K × V → Bool} (hkeep : keep e = true) : (ofWrites (ws.filter keep)).successor k = some e := by
  obtain ⟨hmem, hnext⟩ := successor_isNext h
  have hmem' : e ∈ (ofWrites (ws.filter keep)).entries :=
    mem_ofWrites.mpr ((mem_ofWrites.mp hmem).filter hkeep)
  have hsub : (ofWrites (ws.filter keep)).keys ⊆ (ofWrites ws).keys := by
    intro q hq
    obtain ⟨w, hw, rfl⟩ := keys_ofWrites.mp hq
    exact keys_ofWrites.mpr ⟨w, (List.mem_filter.mp hw).1, rfl⟩
  exact successor_eq_some hmem' (hnext.subset hsub ⟨e.2, hmem'⟩)

end OrderedMap

end TidePool.Schemes
