import Mathlib.Data.Set.Insert
import TidePool.Schemes.Machine
import TidePool.Schemes.TwoLevel

/-! Maps that come back from a crash.

    The specification of a store that keeps some of its writes in memory only. `now` is what the store
    answers; `survivors k` are the values a crash may leave of `k`, what it answers now among them.

        write k v    now k := v     survivors k gains v
        force k v    now k := v     survivors k := v alone
        crash        one survivor of every key, and then nothing else survives

    A two-level store is such a map: the hot level is lost, so what is in the cold level must be a
    survivor of its key at any time (`Holds`). -/

namespace TidePool.Schemes

/-- What a store answers, and what a crash may leave of it. -/
structure Durable (K V : Type*) where
  now : K → Option V
  survivors : K → Set (Option V)
  survives : ∀ k, now k ∈ survivors k

namespace Durable

variable {K V : Type*}

/-- Nothing is in memory only. -/
def settled (D : K → Option V) : Durable K V := ⟨D, fun k => {D k}, fun _ => rfl⟩

/-- A crash may leave `D`. -/
def MayLeave (a : Durable K V) (D : K → Option V) : Prop := ∀ k, D k ∈ a.survivors k

/-- A settled map comes back as it was. -/
theorem settled_mayLeave_iff {D E : K → Option V} : (settled D).MayLeave E ↔ E = D := by
  simp only [MayLeave, settled, Set.mem_singleton_iff, funext_iff]

variable [DecidableEq K]

/-- A choice from a family of sets, changed at one place in both. -/
theorem update_mem {D : K → Option V} {S : K → Set (Option V)} (h : ∀ j, D j ∈ S j) {k : K} {v : Option V}
    {T : Set (Option V)} (hv : v ∈ T) (j : K) : Function.update D k v j ∈ Function.update S k T j := by
  by_cases hj : j = k
  · subst hj; rw [Function.update_self, Function.update_self]; exact hv
  · rw [Function.update_of_ne hj, Function.update_of_ne hj]; exact h j

def write (a : Durable K V) (k : K) (v : V) : Durable K V where
  now := Function.update a.now k (some v)
  survivors := Function.update a.survivors k (insert (some v) (a.survivors k))
  survives := update_mem a.survives (.inl rfl)

def force (a : Durable K V) (k : K) (v : V) : Durable K V where
  now := Function.update a.now k (some v)
  survivors := Function.update a.survivors k {some v}
  survives := update_mem a.survives rfl

/-- Forcing a write to a settled map leaves it settled. -/
theorem force_settled (D : K → Option V) (k : K) (v : V) :
    (settled D).force k v = settled (Function.update D k (some v)) := by
  have hsurvivors : Function.update (fun j => ({D j} : Set (Option V))) k {some v} =
      fun j => {Function.update D k (some v) j} := by
    funext j
    by_cases h : j = k
    · subst h; simp
    · simp [h]
  simp only [force, settled, hsurvivors]

end Durable

namespace TwoLevel

variable {K V : Type*} {s t : TwoLevel K V} {a : Durable K V}

/-- The store answers as the map, and what it would lose to a crash is what the map may lose. -/
structure Holds (s : TwoLevel K V) (a : Durable K V) : Prop where
  view : s.view = a.now
  cold : ∀ k, s.cold k ∈ a.survivors k

/-- A store with nothing in its hot level. -/
theorem holds_settled (h : ∀ k, s.hot k = none) : s.Holds (.settled s.cold) where
  view := funext fun k => by simp [TwoLevel.view, h k, Durable.settled]
  cold _ := rfl

/-- Moving values down is nothing to the map: what moved is what it answers. -/
theorem Holds.sinks (h : s.Holds a) (hst : s.SinksTo t) : t.Holds a where
  view := hst.view_eq.trans h.view
  cold k := by
    rcases hst k with ⟨-, hc⟩ | ⟨hs, -, hc⟩
    · rw [hc]; exact h.cold k
    · have hnow : a.now k = s.hot k := by
        obtain ⟨v, hv⟩ := Option.ne_none_iff_exists'.mp hs
        rw [← h.view, TwoLevel.view, hv, Option.some_or]
      rw [hc, ← hnow]; exact a.survives k

variable [DecidableEq K]

theorem Holds.promote (h : s.Holds a) {k : K} (hk : s.hot k = none) : (s.promote k).Holds a :=
  ⟨(s.view_promote hk).trans h.view, h.cold⟩

theorem Holds.writeHot (h : s.Holds a) (k : K) (v : V) : (s.writeHot k v).Holds (a.write k v) where
  view := by rw [view_writeHot, h.view]; rfl
  cold j := by
    have hcold := Durable.update_mem (k := k) h.cold (Set.mem_insert_of_mem (some v) (h.cold k)) j
    rwa [Function.update_eq_self] at hcold

theorem Holds.writeCold (h : s.Holds a) (k : K) (v : V) : (s.writeCold k v).Holds (a.force k v) where
  view := by rw [view_writeCold, h.view]; rfl
  cold := Durable.update_mem h.cold rfl

end TwoLevel

/-! ### Answers of a machine -/

section Accounts

variable {S I O H A : Type*} {step : S → I → Except H (O × S)}

/-- Every answer is one the abstract machine could have given where it stands. -/
def Accounts (ok : A → I → O → Prop) (abs : A → I → O → A) : A → List I → List O → Prop
  | _, [], [] => True
  | a, i :: is, o :: os => ok a i o ∧ Accounts ok abs (abs a i o) is os
  | _, _, _ => False

/-- TRACES: when every step answers as the abstract machine could and stays related to it, the abstract
    machine accounts for the answers of every run. -/
theorem run_accounts {good : Prop} {C : I → Prop} {ok : A → I → O → Prop} {abs : A → I → O → A}
    {R : S → A → Prop} (hstep : ∀ s a i, C i → R s a →
      Yields good (step s i) fun res => ok a i res.1 ∧ R res.2 (abs a i res.1)) :
    ∀ (is : List I) {s : S} {a : A}, (∀ i ∈ is, C i) → R s a →
      Yields good (run step s is) fun res => Accounts ok abs a is res.1 ∧ R res.2 (follow abs a is res.1)
  | [], s, a, _, hr => ⟨trivial, hr⟩
  | i :: is, s, a, hc, hr => by
    obtain ⟨hi, his⟩ := List.forall_mem_cons.mp hc
    have hone := hstep s a i hi hr
    simp only [run]
    cases hs : step s i with
    | error e => rw [hs] at hone; exact hone
    | ok res =>
      rw [hs] at hone
      have hmany := run_accounts hstep is his hone.2
      cases hr₁ : run step res.2 is with
      | error e => rw [hr₁] at hmany; simp only [hr₁]; exact hmany
      | ok res' =>
        rw [hr₁] at hmany
        simp only [hr₁]
        exact ⟨⟨hone.1, hmany.1⟩, hmany.2⟩

/-- Answers to one list of inputs, and from there to another. -/
theorem accounts_append {ok : A → I → O → Prop} {abs : A → I → O → A} :
    ∀ {is is' : List I} {os os' : List O} {a : A},
    Accounts ok abs a is os → Accounts ok abs (follow abs a is os) is' os' →
      Accounts ok abs a (is ++ is') (os ++ os')
  | [], _, [], _, _, _, h' => by simpa only [follow, List.nil_append] using h'
  | _ :: _, _, _ :: _, _, _, h, h' => ⟨h.1, accounts_append h.2 h'⟩

/-- What every step keeps, following keeps. -/
theorem follow_keeps {abs : A → I → O → A} {P : A → Prop} (hstep : ∀ a i o, P a → P (abs a i o)) :
    ∀ (is : List I) (os : List O) {a : A}, P a → P (follow abs a is os)
  | [], _, _, h => by simpa only [follow] using h
  | _ :: _, [], _, h => by simpa only [follow] using h
  | i :: is, o :: os, _, h => follow_keeps hstep is os (hstep _ i o h)

section Related

variable {B : Type*} {ok : A → I → O → Prop} {abs : A → I → O → A} {ok' : B → I → O → Prop}
    {abs' : B → I → O → B}
  {φ : A → B}

/-- SIMULATION: an abstract machine that stays related to another accounts for the same answers. -/
theorem accounts_related {C : I → Prop} {R : A → B → Prop}
    (hstep : ∀ a b i o, C i → R a b → ok a i o → ok' b i o ∧ R (abs a i o) (abs' b i o)) :
    ∀ {is : List I} {os : List O} {a : A} {b : B}, (∀ i ∈ is, C i) → R a b → Accounts ok abs a is os →
      Accounts ok' abs' b is os
  | [], [], _, _, _, _, _ => trivial
  | i :: _, o :: _, a, b, hc, hr, ⟨ho, hos⟩ => by
    obtain ⟨hi, his⟩ := List.forall_mem_cons.mp hc
    obtain ⟨ho', hr'⟩ := hstep a b i o hi hr ho
    exact ⟨ho', accounts_related hstep his hr' hos⟩

/-- An abstract machine that is the image of another follows it. -/
theorem follow_image (habs : ∀ a i o, abs' (φ a) i o = φ (abs a i o)) :
    ∀ (is : List I) (os : List O) (a : A), follow abs' (φ a) is os = φ (follow abs a is os)
  | [], _, _ => by simp only [follow]
  | _ :: _, [], _ => by simp only [follow]
  | i :: is, o :: os, a => by simp only [follow, habs, follow_image habs is os]

end Related

end Accounts

end TidePool.Schemes
