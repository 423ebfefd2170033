import Mathlib.Data.List.AList
import Mathlib.Data.Finmap

/-! Finite tables, the shape behind every hash map and key/value file.

    `Table K V` keeps its entries in a list with distinct keys, so it can be enumerated and weighed;
    `Dict K V` forgets the order, so two dictionaries with the same lookups are equal. The lookup
    rules are stated with one `if`, and `weight` is the sum of a cost over the entries:

        weight (insert k v t) + cost of what k held = weight t + cost v
        weight (erase  k   t) + cost of what k held = weight t -/

namespace TidePool.Schemes

/-- A finite map with an enumeration order. -/
abbrev Table (K V : Type) := AList (fun _ : K => V)

/-- A finite map up to the order of its entries. -/
abbrev Dict (K V : Type) := Finmap (fun _ : K => V)

variable {K V : Type}

namespace Table

/-- The entries as pairs, in enumeration order. -/
def pairs (t : Table K V) : List (K × V) := t.entries.map fun e => (e.1, e.2)

/-- Total cost of a list of entries. -/
def load (cost : K → V → ℕ) : List (K × V) → ℕ
  | [] => 0
  | e :: es => cost e.1 e.2 + load cost es

/-- Total cost of the entries. -/
def weight (cost : K → V → ℕ) (t : Table K V) : ℕ := load cost (pairs t)

/-- Number of entries. -/
def size (t : Table K V) : ℕ := (pairs t).length

theorem pairs_keys (t : Table K V) : (pairs t).map Prod.fst = t.keys := by
  simp [pairs, AList.keys, List.keys, Function.comp_def]

theorem pairs_nodup (t : Table K V) : ((pairs t).map Prod.fst).Nodup := by
  rw [pairs_keys]; exact t.keys_nodup

theorem load_perm (cost : K → V → ℕ) {es fs : List (K × V)} (h : es.Perm fs) :
    load cost es = load cost fs := by
  induction h with
  | nil => rfl
  | cons e _ ih => simp only [load, ih]
  | swap e f _ => simp only [load]; omega
  | trans _ _ ih ih' => exact ih.trans ih'

theorem load_const {cost : K → V → ℕ} {s : ℕ} {es : List (K × V)} (h : ∀ e ∈ es, cost e.1 e.2 = s) :
    load cost es = es.length * s := by
  induction es with
  | nil => simp [load]
  | cons e es ih =>
    obtain ⟨he, hes⟩ := List.forall_mem_cons.mp h
    rw [load, he, ih hes, List.length_cons, Nat.succ_mul, Nat.add_comm]

theorem size_eq_weight (t : Table K V) : size t = weight (fun _ _ => 1) t := by
  rw [size, weight, load_const fun _ _ => rfl, Nat.mul_one]

variable [DecidableEq K]

theorem lookup_insert_if (t : Table K V) (k k' : K) (v : V) :
    AList.lookup k (AList.insert k' v t) = if k = k' then some v else AList.lookup k t := by
  by_cases h : k = k'
  · subst h; simp
  · simp [h, AList.lookup_insert_ne h]

theorem lookup_erase_if (t : Table K V) (k k' : K) :
    AList.lookup k (AList.erase k' t) = if k = k' then none else AList.lookup k t := by
  by_cases h : k = k'
  · subst h; simp
  · simp [h, AList.lookup_erase_ne h]

theorem mem_pairs {t : Table K V} {k : K} {v : V} : (k, v) ∈ pairs t ↔ AList.lookup k t = some v := by
  rw [← Option.mem_def, AList.mem_lookup_iff, pairs, List.mem_map]
  constructor
  · rintro ⟨⟨a, b⟩, he, hab⟩
    simp only [Prod.mk.injEq] at hab
    obtain ⟨rfl, rfl⟩ := hab
    exact he
  · exact fun he => ⟨⟨k, v⟩, he, rfl⟩

/-! ### Weight -/

/-- When every entry costs the same, the weight counts them. -/
theorem weight_const {cost : K → V → ℕ} {s : ℕ} {t : Table K V}
    (h : ∀ k v, AList.lookup k t = some v → cost k v = s) : weight cost t = size t * s :=
  load_const fun e he => h e.1 e.2 (mem_pairs.mp he)

/-- A list of the keys, each once, is as long as the table. -/
theorem length_of_keys {t : Table K V} {ks : List K} (hnd : ks.Nodup)
    (h : ∀ k, k ∈ ks ↔ AList.lookup k t ≠ none) : ks.length = size t := by
  have hperm : ks.Perm t.keys := by
    refine (List.perm_ext_iff_of_nodup hnd t.keys_nodup).mpr fun k => ?_
    rw [h k, Ne, AList.lookup_eq_none, not_not]
    rfl
  rw [hperm.length_eq, size, ← pairs_keys, List.length_map]

omit [DecidableEq K] in
/-- A load depends on the keys and their costs alone. -/
theorem load_costs (cost : K → V → ℕ) (es : List (K × V)) :
    load cost es = load (fun _ c => c) (es.map fun e => (e.1, cost e.1 e.2)) := by
  induction es with
  | nil => rfl
  | cons e es ih => simp only [load, List.map_cons, ih]

/-- Tables whose keys cost the same weigh the same. -/
theorem weight_congr {W : Type} {cost : K → V → ℕ} {cost' : K → W → ℕ} {s : Table K V} {t : Table K W}
    (h : ∀ k, (AList.lookup k s).map (cost k) = (AList.lookup k t).map (cost' k)) :
    weight cost s = weight cost' t := by
  rw [weight, weight, load_costs cost, load_costs cost']
  refine load_perm _ ((List.perm_ext_iff_of_nodup ?_ ?_).mpr ?_)
  · exact List.Nodup.of_map Prod.fst (by simpa [Function.comp_def] using pairs_nodup s)
  · exact List.Nodup.of_map Prod.fst (by simpa [Function.comp_def] using pairs_nodup t)
  · rintro ⟨k, c⟩
    have hs : ∀ {U : Type} (price : K → U → ℕ) (u : Table K U),
        (k, c) ∈ (pairs u).map (fun e => (e.1, price e.1 e.2)) ↔
          (AList.lookup k u).map (price k) = some c := by
      intro U price u
      simp only [List.mem_map, Prod.mk.injEq, Prod.exists, mem_pairs, Option.map_eq_some_iff]
      constructor
      · rintro ⟨k', v, hv, rfl, hc⟩; exact ⟨v, hv, hc⟩
      · rintro ⟨v, hv, hc⟩; exact ⟨k, v, hv, rfl, hc⟩
    rw [hs, hs, h]

/-- Cost of what a key holds, `0` when it holds nothing. -/
def held (cost : K → V → ℕ) (t : Table K V) (k : K) : ℕ := (AList.lookup k t).elim 0 (cost k)

variable (cost : K → V → ℕ)

/-- A key that holds `v` accounts for exactly one entry. -/
theorem pairs_perm_erase {t : Table K V} {k : K} {v : V} (h : AList.lookup k t = some v) :
    (pairs t).Perm ((k, v) :: pairs (AList.erase k t)) := by
  have hmem : (⟨k, v⟩ : Sigma fun _ : K => V) ∈ t.entries := AList.mem_lookup_iff.mp h
  have hperm : t.entries.Perm (⟨k, v⟩ :: t.entries.kerase k) := by
    have hnd := t.nodupKeys
    induction hl : t.entries generalizing t with
    | nil => rw [hl] at hmem; simp at hmem
    | cons e es ih =>
      rw [hl] at hmem hnd
      rcases List.mem_cons.mp hmem with heq | hin
      · subst heq; simp
      · have hne : k ≠ e.1 := by
          intro heq
          have hk := (List.nodupKeys_cons.mp hnd).1
          exact hk (heq ▸ List.mem_keys_of_mem hin)
        rw [List.kerase_cons_ne hne]
        have hrec := @ih ⟨es, (List.nodupKeys_cons.mp hnd).2⟩
          (AList.mem_lookup_iff.mpr hin) hin (List.nodupKeys_cons.mp hnd).2 rfl
        exact (hrec.cons e).trans (List.Perm.swap _ _ _)
  have hmap := hperm.map fun e : Sigma (fun _ : K => V) => (e.1, e.2)
  simpa [pairs, AList.erase] using hmap

theorem weight_erase (t : Table K V) (k : K) :
    weight cost (AList.erase k t) + held cost t k = weight cost t := by
  cases h : AList.lookup k t with
  | none =>
    have herase : AList.erase k t = t := by
      apply AList.ext
      exact List.kerase_of_notMem_keys (AList.lookup_eq_none.mp h)
    simp [held, h, herase]
  | some v =>
    have hperm := load_perm cost (pairs_perm_erase h)
    simp only [load] at hperm
    simp only [weight, held, h, Option.elim_some, hperm]
    omega

theorem pairs_insert (t : Table K V) (k : K) (v : V) :
    pairs (AList.insert k v t) = (k, v) :: pairs (AList.erase k t) := by
  simp [pairs, AList.erase]

theorem weight_insert (t : Table K V) (k : K) (v : V) :
    weight cost (AList.insert k v t) + held cost t k = weight cost t + cost k v := by
  have herase := weight_erase cost t k
  have hins : weight cost (AList.insert k v t) = cost k v + weight cost (AList.erase k t) := by
    rw [weight, pairs_insert]; rfl
  omega

theorem held_le_weight (t : Table K V) (k : K) : held cost t k ≤ weight cost t := by
  have herase := weight_erase cost t k
  omega

theorem size_insert (t : Table K V) (k : K) (v : V) :
    size (AList.insert k v t) + held (fun _ _ => 1) t k = size t + 1 := by
  simpa [size_eq_weight] using weight_insert (fun _ _ => 1) t k v

theorem size_erase (t : Table K V) (k : K) :
    size (AList.erase k t) + held (fun _ _ => 1) t k = size t := by
  simpa [size_eq_weight] using weight_erase (fun _ _ => 1) t k

end Table

namespace Dict

variable [DecidableEq K]

theorem lookup_insert_if (d : Dict K V) (k k' : K) (v : V) :
    Finmap.lookup k (Finmap.insert k' v d) = if k = k' then some v else Finmap.lookup k d := by
  by_cases h : k = k'
  · subst h; simp
  · simp [h, Finmap.lookup_insert_of_ne _ h]

theorem lookup_erase_if (d : Dict K V) (k k' : K) :
    Finmap.lookup k (Finmap.erase k' d) = if k = k' then none else Finmap.lookup k d := by
  by_cases h : k = k'
  · subst h; simp
  · simp [h, Finmap.lookup_erase_ne h]

end Dict

end TidePool.Schemes
