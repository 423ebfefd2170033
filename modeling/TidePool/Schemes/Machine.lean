import Mathlib.Tactic.TypeStar

/-! Calls that may halt, and runs of them.

    A call returns in `Except H`: it answers, or it halts for good (an abort is not an answer).
    `Yields good c Q` says that `c` does not halt when `good` holds and that its answer satisfies `Q`
    in any case. With `good` false it is partial correctness, with `good` true total correctness, and
    one proof gives both.

    A machine is a step function `S → I → Except H (O × S)`; `run` folds it over a list of inputs and
    `run_yields` lifts what a step yields to whole runs. A call is the image of another under a map of
    states when its parts are (`bind_image`), a run when its steps are (`run_image`). -/

namespace TidePool.Schemes

variable {S I O H A : Type*} {α β : Type}

/-- No halt if `good`, and `Q` of the answer if there is one. -/
def Yields {α : Type*} (good : Prop) (c : Except H α) (Q : α → Prop) : Prop :=
  match c with
  | .ok a => Q a
  | .error _ => ¬ good

@[simp] theorem ok_bind {a : α} {f : α → Except H β} : (Except.ok a >>= f) = f a := rfl

/-- A sequence whose parts are images under `φ` and `ψ` is the image of the sequence. -/
theorem bind_image {γ δ : Type} {c : Except H α} {c' : Except H β} {φ : β → α} {ψ : δ → γ}
    {f : α → Except H γ} {f' : β → Except H δ} (hc : c = c'.map φ) (hf : ∀ b, f (φ b) = (f' b).map ψ) :
    (c >>= f) = (c' >>= f').map ψ := by
  subst hc
  cases c' with
  | error e => rfl
  | ok b => exact hf b

/-- The same when the first part is one and the same. -/
theorem bind_alike {γ δ : Type} {c : Except H α} {ψ : δ → γ} {f : α → Except H γ} {f' : α → Except H δ}
    (hf : ∀ a, f a = (f' a).map ψ) : (c >>= f) = (c >>= f').map ψ := by
  cases c with
  | error e => rfl
  | ok a => exact hf a

/-- The same for a choice. -/
theorem ite_image {P : Prop} [Decidable P] {a b : Except H α} {a' b' : Except H β} {ψ : β → α}
    (ha : a = a'.map ψ) (hb : b = b'.map ψ) : (if P then a else b) = (if P then a' else b').map ψ := by
  split
  · exact ha
  · exact hb

section Yields

variable {good : Prop} {c : Except H α} {Q R : α → Prop}

theorem Yields.of_ok {a : α} (h : Yields good c Q) (hc : c = .ok a) : Q a := by
  subst hc; exact h

theorem Yields.answer (h : Yields good c Q) (hg : good) : ∃ a, c = .ok a ∧ Q a := by
  cases c with
  | ok a => exact ⟨a, rfl, h⟩
  | error e => exact absurd hg h

theorem Yields.ok {a : α} (h : Q a) : Yields good (Except.ok a : Except H α) Q := h

/-- Of a call that may halt, nothing follows from its return alone. -/
theorem Yields.trivial (c : Except H α) : Yields False c fun _ => True := by
  cases c with
  | ok a => exact True.intro
  | error e => exact not_false

theorem Yields.mono (h : Yields good c Q) (hQ : ∀ a, Q a → R a) : Yields good c R := by
  cases c with
  | ok a => exact hQ a h
  | error e => exact h

theorem Yields.weaken {good' : Prop} (h : Yields good c Q) (hg : good' → good) : Yields good' c Q := by
  cases c with
  | ok a => exact h
  | error e => exact fun hg' => h (hg hg')

theorem Yields.and (h : Yields good c Q) (h' : Yields good c R) : Yields good c fun a => Q a ∧ R a := by
  cases c with
  | ok a => exact ⟨h, h'⟩
  | error e => exact h

/-- What a call yields is yielded by the answer it gave. -/
theorem Yields.answered (h : Yields good c Q) : Yields good c fun a => c = .ok a ∧ Q a := by
  cases c with
  | ok a => exact ⟨rfl, h⟩
  | error e => exact h

/-- SEQUENCE: what the rest yields from every intermediate answer, the whole yields. -/
theorem Yields.bind {f : α → Except H β} {T : β → Prop} (h : Yields good c Q)
    (hf : ∀ a, Q a → Yields good (f a) T) : Yields good (c >>= f) T := by
  cases c with
  | ok a => exact hf a h
  | error e => exact h

theorem Yields.map {f : α → β} {T : β → Prop} (h : Yields good c Q) (hf : ∀ a, Q a → T (f a)) :
    Yields good (c.map f) T := by
  cases c with
  | ok a => exact hf a h
  | error e => exact h

end Yields

/-- Run the machine over a list of inputs, collecting its answers. -/
def run (step : S → I → Except H (O × S)) : S → List I → Except H (List O × S)
  | s, [] => .ok ([], s)
  | s, i :: is =>
    match step s i with
    | .error h => .error h
    | .ok (o, s') =>
      match run step s' is with
      | .error h => .error h
      | .ok (os, s'') => .ok (o :: os, s'')

/-- The abstract state after the same inputs, told what the machine answered. -/
def follow (abs : A → I → O → A) : A → List I → List O → A
  | a, i :: is, o :: os => follow abs (abs a i o) is os
  | a, _, _ => a

/-- `C` holds of every input at the state that reads it. -/
def Along (step : S → I → Except H (O × S)) (C : S → I → Prop) : S → List I → Prop
  | _, [] => True
  | s, i :: is => C s i ∧ ∀ o s', step s i = .ok (o, s') → Along step C s' is

variable {step : S → I → Except H (O × S)}

theorem along_cons {C : S → I → Prop} {s s' : S} {i : I} {o : O} {is : List I} (hs : step s i = .ok (o, s'))
    (hc : C s i) (hrest : Along step C s' is) : Along step C s (i :: is) := by
  refine ⟨hc, fun o₁ s₁ hs₁ => ?_⟩
  obtain ⟨-, rfl⟩ := Prod.mk.inj (Except.ok.inj (hs.symm.trans hs₁))
  exact hrest

/-- A condition on the inputs alone holds along every run. -/
theorem along_of_forall {C : I → Prop} : ∀ {is : List I} (s : S), (∀ i ∈ is, C i) →
    Along step (fun _ i => C i) s is
  | [], _, _ => trivial
  | i :: _, _, h => ⟨h i (by simp), fun _ s' _ =>
      along_of_forall s' fun j hj => h j (List.mem_cons_of_mem _ hj)⟩

/-- RUNS: a relation between machine and abstract state that every step keeps, a run keeps; what
    every answer of a step satisfies, all answers do; and a run whose steps do not halt does not. -/
theorem run_yields {good : Prop} {C : S → I → Prop} (abs : A → I → O → A) (R : S → A → Prop)
    (P : O → Prop) (hstep : ∀ s a i, C s i → R s a →
      Yields good (step s i) fun res => R res.2 (abs a i res.1) ∧ P res.1) :
    ∀ {is : List I} {s : S} {a : A}, Along step C s is → R s a →
      Yields good (run step s is) fun res => R res.2 (follow abs a is res.1) ∧ ∀ o ∈ res.1, P o
  | [], s, a, _, hr => ⟨hr, by simp⟩
  | i :: is, s, a, ⟨hc, hrest⟩, hr => by
    have hone := hstep s a i hc hr
    simp only [run]
    cases hs : step s i with
    | error e => rw [hs] at hone; exact hone
    | ok os =>
      obtain ⟨o, s₁⟩ := os
      rw [hs] at hone
      have hmany := run_yields abs R P hstep (hrest o s₁ hs) hone.1
      cases hr₁ : run step s₁ is with
      | error e => rw [hr₁] at hmany; simp only [hr₁]; exact hmany
      | ok res =>
        rw [hr₁] at hmany
        simp only [hr₁]
        exact ⟨hmany.1, List.forall_mem_cons.mpr ⟨hone.2, hmany.2⟩⟩

/-- IMAGE: a machine that is the image of another, step by step, is so run by run. -/
theorem run_image {S' : Type*} {step' : S' → I → Except H (O × S')} {C : I → Prop} (φ : S → S')
    (hstep : ∀ s i, C i → step' (φ s) i = (step s i).map fun res => (res.1, φ res.2)) :
    ∀ {is : List I} (s : S), (∀ i ∈ is, C i) →
      run step' (φ s) is = (run step s is).map fun res => (res.1, φ res.2)
  | [], _, _ => rfl
  | i :: is, s, hc => by
    obtain ⟨hi, his⟩ := List.forall_mem_cons.mp hc
    simp only [run, hstep s i hi]
    cases step s i with
    | error e => rfl
    | ok res =>
      have hrest := run_image φ hstep res.2 his
      simp only [Except.map] at hrest ⊢
      rw [hrest]
      cases run step res.2 is <;> rfl

/-- INVARIANT: the same for a property of the machine alone. -/
theorem run_keeps {good : Prop} (R : S → Prop) (P : O → Prop)
    (hstep : ∀ s i, R s → Yields good (step s i) fun res => R res.2 ∧ P res.1) (is : List I) {s : S}
    (hs : R s) : Yields good (run step s is) fun res => R res.2 ∧ ∀ o ∈ res.1, P o :=
  run_yields (C := fun _ _ => True) (fun (_ : Unit) _ _ => ()) (fun s _ => R s) P (a := ())
    (fun s _ i _ => hstep s i) (along_of_forall s fun _ _ => trivial) hs

/-- SIMULATION: two machines that answer alike in related states, and stay related, answer alike along
    every run; `f` and `g` say which part of an answer counts. -/
theorem run_related {S' O' B : Type*} {step' : S' → I → Except H (O' × S')} {C : I → Prop}
    (R : S → S' → Prop) (f : O → B) (g : O' → B) (P : O → Prop)
    (hstep : ∀ s s' i, C i → R s s' → ∃ o t o' t', step s i = .ok (o, t) ∧ step' s' i = .ok (o', t') ∧
      f o = g o' ∧ P o ∧ R t t') :
    ∀ {is : List I} {s : S} {s' : S'}, (∀ i ∈ is, C i) → R s s' →
      ∃ os t os' t', run step s is = .ok (os, t) ∧ run step' s' is = .ok (os', t') ∧
        os.map f = os'.map g ∧ (∀ o ∈ os, P o) ∧ R t t'
  | [], s, s', _, hr => ⟨[], s, [], s', rfl, rfl, rfl, by simp, hr⟩
  | i :: is, s, s', hc, hr => by
    obtain ⟨hi, his⟩ := List.forall_mem_cons.mp hc
    obtain ⟨o, t, o', t', hs, hs', ho, hp, hrt⟩ := hstep s s' i hi hr
    obtain ⟨os, u, os', u', hrun, hrun', hos, hps, hru⟩ := run_related R f g P hstep his hrt
    refine ⟨o :: os, u, o' :: os', u', ?_, ?_, ?_, List.forall_mem_cons.mpr ⟨hp, hps⟩, hru⟩
    · simp only [run, hs, hrun]
    · simp only [run, hs', hrun']
    · simp only [List.map_cons, ho, hos]

/-- PURGE: a machine that stays related to one that is not shown the inputs `keep` rejects, run by run. -/
theorem run_purged {S' O' : Type*} {step' : S' → I → Except H (O' × S')} {C : I → Prop} (keep : I → Bool)
    (R : S → S' → Prop)
    (hkept : ∀ s s' i, C i → keep i = true → R s s' →
      ∃ o t o' t', step s i = .ok (o, t) ∧ step' s' i = .ok (o', t') ∧ R t t')
    (hpurged : ∀ s s' i, C i → keep i = false → R s s' → ∃ o t, step s i = .ok (o, t) ∧ R t s') :
    ∀ {is : List I} {s : S} {s' : S'}, (∀ i ∈ is, C i) → R s s' →
      ∃ os t os' t', run step s is = .ok (os, t) ∧ run step' s' (is.filter keep) = .ok (os', t') ∧ R t t'
  | [], s, s', _, hr => ⟨[], s, [], s', rfl, rfl, hr⟩
  | i :: is, s, s', hc, hr => by
    obtain ⟨hi, his⟩ := List.forall_mem_cons.mp hc
    cases hkeep : keep i with
    | true =>
      obtain ⟨o, t, o', t', hs, hs', hrt⟩ := hkept s s' i hi hkeep hr
      obtain ⟨os, u, os', u', hrun, hrun', hru⟩ := run_purged keep R hkept hpurged his hrt
      refine ⟨o :: os, u, o' :: os', u', by simp only [run, hs, hrun], ?_, hru⟩
      rw [List.filter_cons_of_pos hkeep]
      simp only [run, hs', hrun']
    | false =>
      obtain ⟨o, t, hs, hrt⟩ := hpurged s s' i hi hkeep hr
      obtain ⟨os, u, os', u', hrun, hrun', hru⟩ := run_purged keep R hkept hpurged his hrt
      refine ⟨o :: os, u, os', u', by simp only [run, hs, hrun], ?_, hru⟩
      rw [List.filter_cons_of_neg (by simp [hkeep])]
      exact hrun'

/-! ### Specifications that leave a choice -/

/-- `spec a i o b` allows to answer `i` by `o` and to go from `a` to `b`; these are its runs. -/
def Traces (spec : A → I → O → A → Prop) : A → List I → List O → A → Prop
  | a, [], [], b => a = b
  | a, i :: is, o :: os, b => ∃ a', spec a i o a' ∧ Traces spec a' is os b
  | _, _, _, _ => False

/-- REFINEMENT: a machine whose every step is one that the specification allows runs as it allows. -/
theorem run_traces {good : Prop} {C : S → I → Prop} {spec : A → I → O → A → Prop} (R : S → A → Prop)
    (hstep : ∀ s a i, C s i → R s a → Yields good (step s i) fun res => ∃ b, spec a i res.1 b ∧ R res.2 b) :
    ∀ {is : List I} {s : S} {a : A}, Along step C s is → R s a →
      Yields good (run step s is) fun res => ∃ b, Traces spec a is res.1 b ∧ R res.2 b
  | [], s, a, _, hr => ⟨a, rfl, hr⟩
  | i :: is, s, a, ⟨hc, hrest⟩, hr => by
    have hone := hstep s a i hc hr
    simp only [run]
    cases hs : step s i with
    | error e => rw [hs] at hone; exact hone
    | ok os =>
      obtain ⟨o, s₁⟩ := os
      rw [hs] at hone
      obtain ⟨a₁, hspec, hr₁⟩ := hone
      have hmany := run_traces R hstep (hrest o s₁ hs) hr₁
      cases hrun : run step s₁ is with
      | error e => rw [hrun] at hmany; simp only [hrun]; exact hmany
      | ok res =>
        rw [hrun] at hmany
        obtain ⟨b, htraces, hrb⟩ := hmany
        simp only [hrun]
        exact ⟨b, ⟨a₁, hspec, htraces⟩, hrb⟩

/-! ### Histories -/

/-- The inputs of a run, each with the state that read it. -/
def visits (step : S → I → Except H (O × S)) : S → List I → List (S × I)
  | _, [] => []
  | s, i :: is => (s, i) ::
    match step s i with
    | .error _ => []
    | .ok (_, s') => visits step s' is

theorem run_nil_iff {s t : S} {os : List O} : run step s [] = .ok (os, t) ↔ os = [] ∧ s = t := by
  simp [run, eq_comm]

theorem run_cons_iff {s t : S} {i : I} {is : List I} {os : List O} : run step s (i :: is) = .ok (os, t) ↔
    ∃ o s' os', step s i = .ok (o, s') ∧ run step s' is = .ok (os', t) ∧ os = o :: os' := by
  simp only [run]
  cases hs : step s i with
  | error e => simp
  | ok res =>
    obtain ⟨o, s'⟩ := res
    cases hr : run step s' is with
    | error e =>
      simp only [hr]
      refine ⟨fun h => (by cases h), ?_⟩
      rintro ⟨o', s'', os', heq, hrun, -⟩
      cases heq
      cases hr.symm.trans hrun
    | ok res' =>
      obtain ⟨os', t'⟩ := res'
      simp only [hr]
      constructor
      · rintro ⟨⟩
        exact ⟨o, s', os', rfl, hr, rfl⟩
      · rintro ⟨o', s'', os'', heq, hrun, rfl⟩
        cases heq
        cases hr.symm.trans hrun
        rfl

/-- Along a run, read off the ways to split it. -/
theorem along_iff_splits {C : S → I → Prop} : ∀ {is : List I} {s : S}, Along step C s is ↔
    ∀ earlier i later, is = earlier ++ i :: later → ∀ os t, run step s earlier = .ok (os, t) → C t i
  | [], s => by simp [Along]
  | j :: is, s => by
    constructor
    · rintro ⟨hj, halong⟩ earlier i later his os t hrun
      cases earlier with
      | nil =>
        obtain ⟨rfl, rfl⟩ := List.cons.inj his
        obtain ⟨-, rfl⟩ := run_nil_iff.mp hrun
        exact hj
      | cons k earlier =>
        obtain ⟨rfl, hrest⟩ := List.cons.inj his
        obtain ⟨o, s', os', hs, hrun', -⟩ := run_cons_iff.mp hrun
        exact along_iff_splits.mp (halong o s' hs) earlier i later hrest os' t hrun'
    · intro h
      refine ⟨h [] j is rfl [] s rfl, fun o s' hs => along_iff_splits.mpr ?_⟩
      rintro earlier i later rfl os t hrun
      exact h (j :: earlier) i later rfl (o :: os) t (run_cons_iff.mpr ⟨o, s', os, hs, hrun, rfl⟩)

theorem visits_cons {s s' : S} {i : I} {o : O} (hs : step s i = .ok (o, s')) (is : List I) :
    visits step s (i :: is) = (s, i) :: visits step s' is := by
  simp only [visits, hs]

theorem visits_concat {i : I} : ∀ {is : List I} {s t : S} {os : List O}, run step s is = .ok (os, t) →
    visits step s (is ++ [i]) = visits step s is ++ [(t, i)]
  | [], s, t, os, h => by
    obtain ⟨-, rfl⟩ := run_nil_iff.mp h
    cases hs : step s i <;> simp [visits, hs]
  | j :: is, s, t, os, h => by
    obtain ⟨o, s', os', hs, hrun, -⟩ := run_cons_iff.mp h
    rw [List.cons_append, visits_cons hs, visits_cons hs, visits_concat hrun, List.cons_append]

/-- EXACT CONDITION: when a step keeps a property of state and history exactly if `C` holds of it, the
    property holds in every state that a list of inputs reaches exactly if `C` holds along the list. -/
theorem prefixes_iff_along {R : S → Prop} {P : S → List (S × I) → Prop} {C : S → I → Prop}
    (hR : ∀ s i o s', R s → step s i = .ok (o, s') → R s')
    (hhalt : ∀ s i e, R s → step s i = .error e → C s i)
    (hstep : ∀ s i o s' history, R s → P s history → step s i = .ok (o, s') →
      (P s' (history ++ [(s, i)]) ↔ C s i)) :
    ∀ (is : List I) (s : S) (history : List (S × I)), R s → P s history →
      ((∀ pre, pre <+: is → ∀ os t, run step s pre = .ok (os, t) → P t (history ++ visits step s pre)) ↔
        Along step C s is)
  | [], s, history, _, hp => by
    refine ⟨fun _ => trivial, fun _ pre hpre os t hrun => ?_⟩
    obtain rfl := List.prefix_nil.mp hpre
    obtain ⟨-, rfl⟩ := run_nil_iff.mp hrun
    simpa [visits] using hp
  | i :: is, s, history, hr, hp => by
    -- the empty prefix is the state at hand, and every other one takes the first step
    constructor
    · intro h
      have hlonger : ∀ pre o s' os t, pre <+: is → step s i = .ok (o, s') → run step s' pre = .ok (os, t) →
          P t (history ++ [(s, i)] ++ visits step s' pre) := by
        intro pre o s' os t hpre hs hrun
        have := h (i :: pre) (List.cons_prefix_cons.mpr ⟨rfl, hpre⟩) (o :: os) t
          (run_cons_iff.mpr ⟨o, s', os, hs, hrun, rfl⟩)
        rwa [visits_cons hs, List.append_cons] at this
      have hnow : ∀ o s', step s i = .ok (o, s') → P s' (history ++ [(s, i)]) := by
        intro o s' hs
        simpa [visits] using hlonger [] o s' [] s' List.nil_prefix hs rfl
      refine ⟨?_, fun o s' hs => ?_⟩
      · cases hs : step s i with
        | error e => exact hhalt s i e hr hs
        | ok res => exact (hstep s i _ _ history hr hp hs).mp (hnow _ _ hs)
      · exact (prefixes_iff_along hR hhalt hstep is s' _ (hR s i o s' hr hs) (hnow o s' hs)).mp
          fun pre hpre os t hrun => hlonger pre o s' os t hpre hs hrun
    · rintro ⟨hc, halong⟩ pre hpre os t hrun
      cases pre with
      | nil =>
        obtain ⟨-, rfl⟩ := run_nil_iff.mp hrun
        simpa [visits] using hp
      | cons j pre =>
        obtain ⟨rfl, hpre'⟩ := List.cons_prefix_cons.mp hpre
        obtain ⟨o, s', os', hs, hrun', -⟩ := run_cons_iff.mp hrun
        have hnow := (hstep s j o s' history hr hp hs).mpr hc
        rw [visits_cons hs, List.append_cons]
        exact (prefixes_iff_along hR hhalt hstep is s' _ (hR s j o s' hr hs) hnow).mpr (halong o s' hs)
          pre hpre' os' t hrun'

end TidePool.Schemes
