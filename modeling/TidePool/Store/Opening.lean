import TidePool.Store.Lifecycle
import TidePool.Store.Lru

/-! `StorageNode::Open` is all or nothing, whatever its tiers answer.

    The calls to different tiers leave no order in the state they lead to, so the functions of `Open` stand
    here once more with the steps they take, in order (`openNodeSteps`); without the steps they are the
    functions of the node (`openNodeSteps_erase`).

        open pass       opened 0, asked 0, opened 1, asked 1, ..      until one fails or is null
        recovery pass   visited 0, visited 1, ..                      until one fails
        on a failure    closed k, .., closed 1, closed 0              those that were opened, last one first

    A tier hands its entries to the visitor until the visitor or the tier fails, and returns that status. -/

namespace TidePool.Store

open Schemes

/-- A step of `Open`: a test for a null tier, or a call of a tier and what it returned. -/
inductive OpenStep where
  | null (tier : ℕ)
  | opened (tier : ℕ) (r : Result Unit)
  | asked (tier : ℕ) (ready : Bool)
  | visited (tier : ℕ) (r : Result Unit)
  | closed (tier : ℕ) (r : Result Unit)

namespace OpenStep

def tier : OpenStep → ℕ
  | null i | opened i _ | asked i _ | visited i _ | closed i _ => i

/-- The code a step fails `Open` with. -/
def failure : OpenStep → Option StatusCode
  | null _ | asked _ false => some .internal
  | opened _ (.error s) | visited _ (.error s) => some s.code
  | _ => none

/-- The steps of the open pass. -/
def opening : OpenStep → Bool
  | null _ | opened _ _ | asked _ _ => true
  | _ => false

/-- The tier whose `Open` returned Ok. -/
def openedTier : OpenStep → Option ℕ
  | opened i (.ok ()) => some i
  | _ => none

def closedTier : OpenStep → Option ℕ
  | closed i _ => some i
  | _ => none

end OpenStep

namespace StorageNode

variable {τ π : Type} [Tier τ]

/-! ### The functions with their steps -/

/-- `openTiers`. -/
def openTiersSteps : List (Option τ) → ℕ → List OpenStep × List (Option τ) × ℕ × Option (ℕ × Status)
  | [], i => ([], [], i, none)
  | none :: ts, i => ([.null i], none :: ts, i, some (i, .internal "configured tier is null"))
  | some t :: ts, i =>
    match Tier.openTier t with
    | (.error s, t) => ([.opened i (.error s)], some t :: ts, i, some (i, s))
    | (.ok (), t) =>
      if !Tier.isReady t then
        ([.opened i (.ok ()), .asked i false], some t :: ts, i + 1,
          some (i, .internal "Open returned OK but tier is not ready"))
      else
        let (steps, ts, opened, failure) := openTiersSteps ts (i + 1)
        (.opened i (.ok ()) :: .asked i true :: steps, some t :: ts, opened, failure)

/-- `recoverIndex`. -/
def recoverIndexSteps (id : String) (snapshot : ℕ → Bool) :
    List (Option τ) → ℕ → LocalIndex → Stream' Bool → List OpenStep × Except (ℕ × Status) LocalIndex
  | [], _, index, _ => ([], .ok index)
  | none :: ts, i, index, allocs => recoverIndexSteps id snapshot ts (i + 1) index allocs
  | some t :: ts, i, index, allocs =>
    let (entries, ending) := Tier.visitEntries t (snapshot i)
    match recoverEntries id (Tier.type t) entries index allocs with
    | (.error s, _, _) => ([.visited i (.error s)], .error (i, s))
    | (.ok (), index, allocs) =>
      match ending with
      | .error s => ([.visited i (.error s)], .error (i, s))
      | .ok () =>
        let (steps, r) := recoverIndexSteps id snapshot ts (i + 1) index allocs
        (.visited i (.ok ()) :: steps, r)

/-- `rollback`. -/
def rollbackSteps : ℕ → List (Option τ) → String → List OpenStep × String × List (Option τ)
  | 0, tiers, message => ([], message, tiers)
  | i + 1, tiers, message =>
    match tiers[i]? with
    | some (some t) =>
      let (closed, t') := Tier.closeTier t
      let message := match closed with
        | .ok () => message
        | .error s => message ++ "; rollback close " ++ tierLabel tiers i ++ " failed: " ++ s.toText
      let (steps, message, tiers) := rollbackSteps i (tiers.set i (some t')) message
      (.closed i closed :: steps, message, tiers)
    | _ => rollbackSteps i tiers message

/-- `openFailed`. -/
def openFailedSteps (n : StorageNode τ π) (tiers : List (Option τ)) (opened : ℕ) (failure : ℕ × Status) :
    List OpenStep × Result Unit × StorageNode τ π :=
  let message := "StorageNode::Open: " ++ tierLabel tiers failure.1 ++ " failed: " ++ failure.2.toText
  let (steps, message, tiers) := rollbackSteps opened tiers message
  (steps, .error ⟨failure.2.code, message⟩, { n with tiers, ready := false })

/-- `openNode`. -/
def openNodeSteps (n : StorageNode τ π) (env : OpenEnv) : List OpenStep × Result Unit × StorageNode τ π :=
  if n.ready then ([], .ok (), n)
  else if n.tiers.isEmpty then ([], .error (.internal "StorageNode::Open: node has no tiers"), n)
  else
    let (steps, tiers, opened, failure) := openTiersSteps n.tiers 0
    match failure with
    | some failure =>
      let (closes, res) := n.openFailedSteps tiers opened failure
      (steps ++ closes, res)
    | none =>
      match recoverIndexSteps n.id env.snapshot tiers 0 {} env.allocs with
      | (visits, .error failure) =>
        let (closes, res) := n.openFailedSteps tiers opened failure
        (steps ++ visits ++ closes, res)
      | (visits, .ok index) => (steps ++ visits, .ok (), { n with tiers, index, ready := true })

theorem openTiersSteps_erase : ∀ (ts : List (Option τ)) (i : ℕ), (openTiersSteps ts i).2 = openTiers ts i
  | [], _ => rfl
  | none :: _, _ => rfl
  | some t :: ts, i => by
    have hrest := openTiersSteps_erase ts (i + 1)
    simp only [openTiersSteps, openTiers]
    rcases Tier.openTier t with ⟨_ | _, t'⟩
    · rfl
    · by_cases hready : Tier.isReady t'
      · simp [hready, ← hrest]
      · simp [hready]

theorem recoverIndexSteps_erase (id : String) (snapshot : ℕ → Bool) :
    ∀ (ts : List (Option τ)) (i : ℕ) (index : LocalIndex) (allocs : Stream' Bool),
      (recoverIndexSteps id snapshot ts i index allocs).2 = recoverIndex id snapshot ts i index allocs
  | [], _, _, _ => rfl
  | none :: ts, i, index, allocs => recoverIndexSteps_erase id snapshot ts (i + 1) index allocs
  | some t :: ts, i, index, allocs => by
    simp only [recoverIndexSteps, recoverIndex]
    rcases Tier.visitEntries t (snapshot i) with ⟨entries, ending⟩
    rcases recoverEntries id (Tier.type t) entries index allocs with ⟨_ | _, index', allocs'⟩
    · rfl
    · cases ending with
      | error s => rfl
      | ok u => exact recoverIndexSteps_erase id snapshot ts (i + 1) index' allocs'

theorem rollbackSteps_erase : ∀ (k : ℕ) (tiers : List (Option τ)) (message : String),
    (rollbackSteps k tiers message).2 = rollback k tiers message
  | 0, _, _ => rfl
  | i + 1, tiers, message => by
    simp only [rollbackSteps, rollback]
    rcases tiers[i]? with _ | _ | t
    · exact rollbackSteps_erase i tiers message
    · exact rollbackSteps_erase i tiers message
    · exact rollbackSteps_erase i _ _

/-- ERASE: without the steps it is `Open`. -/
theorem openNodeSteps_erase (n : StorageNode τ π) (env : OpenEnv) :
    (n.openNodeSteps env).2 = n.openNode env := by
  have hfailed : ∀ tiers opened failure, (n.openFailedSteps tiers opened failure).2 =
      n.openFailed tiers opened failure := by
    intro tiers opened failure
    simp only [openFailedSteps, openFailed, ← rollbackSteps_erase]
  simp only [openNodeSteps, openNode, ← openTiersSteps_erase, ← recoverIndexSteps_erase]
  split_ifs
  · rfl
  · rfl
  · rcases openTiersSteps n.tiers 0 with ⟨steps, tiers, opened, _ | failure⟩
    · simp only
      rcases recoverIndexSteps n.id env.snapshot tiers 0 {} env.allocs with ⟨visits, failure | index⟩
      · exact hfailed tiers opened failure
      · rfl
    · exact hfailed tiers opened failure

/-! ### What each pass does -/

/-- The open pass, from position `i` on. -/
structure OpenPass (ts : List (Option τ)) (i : ℕ) (steps : List OpenStep) (ts' : List (Option τ)) (opened : ℕ)
    (failure : Option (ℕ × Status)) : Prop where
  opening : ∀ c ∈ steps, c.opening = true
  le : i ≤ opened
  opens : steps.filterMap OpenStep.openedTier = List.range' i (opened - i)
  state : ∀ m, i + m < opened → ∃ t, ts[m]? = some (some t) ∧ ts'[m]? = some (some (Tier.openTier t).2)
  done : failure = none → opened = i + ts.length ∧ ts'.length = ts.length ∧
    steps = (List.range' i ts.length).flatMap (fun k => [.opened k (.ok ()), .asked k true]) ∧
    ∀ (m : ℕ) (t : τ), ts[m]? = some (some t) → (Tier.openTier t).1 = .ok () ∧
    Tier.isReady (Tier.openTier t).2 = true
  failed : ∀ k s, failure = some (k, s) → opened ≤ k + 1 ∧
    (∃ before last, steps = before ++ [last] ∧ (∀ c ∈ before, c.failure = none) ∧ last.failure = some s.code ∧
      last.tier = k) ∧ (∀ c ∈ steps, c.tier ≤ k) ∧ ∀ m : ℕ, k < i + m → ts'[m]? = ts[m]?

/-- A tier that opens and is ready, and the pass over the rest. -/
theorem OpenPass.cons {ts ts' : List (Option τ)} {i opened : ℕ} {steps : List OpenStep}
    {failure : Option (ℕ × Status)} (h : OpenPass ts (i + 1) steps ts' opened failure) {t t' : τ}
    (hopen : Tier.openTier t = (.ok (), t')) (hready : Tier.isReady t' = true) :
    OpenPass (some t :: ts) i (.opened i (.ok ()) :: .asked i true :: steps)
    (some t' :: ts') opened failure where
  opening c hc := by
    rcases List.mem_cons.mp hc with rfl | hc
    · rfl
    rcases List.mem_cons.mp hc with rfl | hc
    · rfl
    exact h.opening c hc
  le := Nat.le_of_succ_le h.le
  opens := by
    have hle := h.le
    rw [show opened - i = opened - (i + 1) + 1 by omega, List.range'_succ, ← h.opens]
    rfl
  state m hm := by
    cases m with
    | zero => exact ⟨t, rfl, by rw [hopen]; rfl⟩
    | succ m => exact h.state m (by omega)
  done hnone := by
    obtain ⟨hopened, hlen, hsteps, hall⟩ := h.done hnone
    refine ⟨by rw [hopened, List.length_cons]; omega, by simp [hlen], ?_, fun m u hu => ?_⟩
    · rw [List.length_cons, List.range'_succ, List.flatMap_cons, ← hsteps]
      rfl
    · cases m with
      | zero =>
        cases hu
        rw [hopen]
        exact ⟨rfl, hready⟩
      | succ m => exact hall m u hu
  failed k s hfail := by
    obtain ⟨hopened, ⟨before, last, hsteps, hbefore, hlast, htier⟩, hle, hlater⟩ := h.failed k s hfail
    have hk : i + 1 ≤ k + 1 := h.le.trans hopened
    refine ⟨hopened, ⟨.opened i (.ok ()) :: .asked i true :: before, last, by rw [hsteps]; rfl, ?_, hlast,
      htier⟩, ?_, ?_⟩
    · intro c hc
      rcases List.mem_cons.mp hc with rfl | hc
      · rfl
      rcases List.mem_cons.mp hc with rfl | hc
      · rfl
      exact hbefore c hc
    · intro c hc
      rcases List.mem_cons.mp hc with rfl | hc
      · exact Nat.le_of_succ_le_succ hk
      rcases List.mem_cons.mp hc with rfl | hc
      · exact Nat.le_of_succ_le_succ hk
      exact hle c hc
    · intro m hm
      cases m with
      | zero => omega
      | succ m => exact hlater m (by omega)

/-- A pass that fails at its first tier. -/
theorem OpenPass.fail {t t' : Option τ} {ts : List (Option τ)} {i opened : ℕ} (before : List OpenStep)
    {last : OpenStep} {s : Status} (hopening : ∀ c ∈ before ++ [last], c.opening = true ∧ c.tier = i)
    (hopens : (before ++ [last]).filterMap OpenStep.openedTier = List.range' i (opened - i))
    (hle : i ≤ opened) (hopened : opened ≤ i + 1)
    (hstate : i < opened → ∃ u, t = some u ∧ t' = some (Tier.openTier u).2)
    (hbefore : ∀ c ∈ before, c.failure = none) (hlast : last.failure = some s.code) :
    OpenPass (t :: ts) i (before ++ [last]) (t' :: ts) opened (some (i, s)) where
  opening c hc := (hopening c hc).1
  le := hle
  opens := hopens
  state m hm := by
    obtain rfl : m = 0 := by omega
    obtain ⟨u, rfl, rfl⟩ := hstate (by omega)
    exact ⟨u, rfl, rfl⟩
  done h := by cases h
  failed k s' h := by
    cases h
    refine ⟨hopened, ⟨before, last, rfl, hbefore, hlast, (hopening last (by simp)).2⟩, ?_, fun m hm => ?_⟩
    · exact fun c hc => (hopening c hc).2.le
    · cases m with
      | zero => omega
      | succ m => rfl

theorem openTiersSteps_pass : ∀ (ts : List (Option τ)) (i : ℕ), OpenPass ts i (openTiersSteps ts i).1
    (openTiersSteps ts i).2.1 (openTiersSteps ts i).2.2.1 (openTiersSteps ts i).2.2.2
  | [], i => {
      opening := by simp [openTiersSteps]
      le := le_rfl
      opens := by simp [openTiersSteps]
      state := fun m hm => absurd hm (by simp [openTiersSteps])
      done := by simp [openTiersSteps]
      failed := by simp [openTiersSteps] }
  | none :: ts, i => by
    simp only [openTiersSteps]
    refine OpenPass.fail [] ?_ ?_ le_rfl (Nat.le_succ i) (fun h => absurd h (lt_irrefl i)) ?_ rfl
    · simp [OpenStep.opening, OpenStep.tier]
    · simp [OpenStep.openedTier]
    · simp
  | some t :: ts, i => by
    have hrest := openTiersSteps_pass ts (i + 1)
    simp only [openTiersSteps]
    rcases hopen : Tier.openTier t with ⟨s | _, t'⟩
    · refine OpenPass.fail [] ?_ ?_ le_rfl (Nat.le_succ i) (fun h => absurd h (lt_irrefl i)) ?_ rfl
      · simp [OpenStep.opening, OpenStep.tier]
      · simp [OpenStep.openedTier]
      · simp
    · by_cases hready : Tier.isReady t' = true
      · simp only [hready, Bool.not_true, Bool.false_eq_true, if_false]
        exact hrest.cons hopen hready
      · simp only [hready, Bool.not_false, if_true]
        refine OpenPass.fail [.opened i (.ok ())] ?_ ?_ (Nat.le_succ i) le_rfl (fun _ => ?_) ?_ rfl
        · simp [OpenStep.opening, OpenStep.tier]
        · simp [OpenStep.openedTier]
        · exact ⟨t, rfl, by rw [hopen]⟩
        · simp [OpenStep.failure]

/-- The rollback of the first `k` tiers. -/
structure ClosePass (k : ℕ) (tiers : List (Option τ)) (steps : List OpenStep) (tiers' : List (Option τ)) :
    Prop where
  closes : steps.filterMap OpenStep.closedTier = (List.range k).reverse
  only : ∀ c ∈ steps, ∃ m r, c = .closed m r ∧ m < k
  state : ∀ (m : ℕ) (t : τ), m < k → tiers[m]? = some (some t) → tiers'[m]? = some (some (Tier.closeTier t).2)
  rest : ∀ m : ℕ, k ≤ m → tiers'[m]? = tiers[m]?

/-- The last of them is closed, then the others. -/
theorem ClosePass.cons {i : ℕ} {tiers tiers' : List (Option τ)} {steps : List OpenStep} {t : τ}
    (ht : tiers[i]? = some (some t)) (r : Result Unit)
    (h : ClosePass i (tiers.set i (some (Tier.closeTier t).2)) steps tiers') :
    ClosePass (i + 1) tiers (.closed i r :: steps) tiers' where
  closes := by
    rw [List.range_succ, List.reverse_append, ← h.closes]
    rfl
  only c hc := by
    rcases List.mem_cons.mp hc with rfl | hc
    · exact ⟨i, r, rfl, Nat.lt_succ_self i⟩
    · obtain ⟨m, r, rfl, hm⟩ := h.only c hc
      exact ⟨m, r, rfl, Nat.lt_succ_of_lt hm⟩
  state m u hm hu := by
    rcases Nat.lt_succ_iff_lt_or_eq.mp hm with hm | rfl
    · exact h.state m u hm ((List.getElem?_set_ne (by omega)).trans hu)
    · obtain rfl : t = u := Option.some.inj (Option.some.inj (ht.symm.trans hu))
      rw [h.rest m le_rfl, List.getElem?_set_self (List.getElem?_eq_some_iff.mp ht).1]
  rest m hm := by rw [h.rest m (by omega), List.getElem?_set_ne (by omega)]

theorem rollbackSteps_pass : ∀ (k : ℕ) (tiers : List (Option τ)) (message : String),
    (∀ m < k, ∃ t, tiers[m]? = some (some t)) →
    ClosePass k tiers (rollbackSteps k tiers message).1 (rollbackSteps k tiers message).2.2
  | 0, tiers, message, _ => {
      closes := rfl
      only := by simp [rollbackSteps]
      state := fun m t hm => absurd hm (Nat.not_lt_zero m)
      rest := fun _ _ => rfl }
  | i + 1, tiers, message, hpresent => by
    obtain ⟨t, ht⟩ := hpresent i (Nat.lt_succ_self i)
    simp only [rollbackSteps, ht]
    refine ClosePass.cons ht _ (rollbackSteps_pass i _ _ fun m hm => ?_)
    rw [List.getElem?_set_ne (by omega)]
    exact hpresent m (Nat.lt_succ_of_lt hm)

/-- The first tier, from position `i` on, that lists the key. -/
def firstListed (id : String) (snapshot : ℕ → Bool) : List (Option τ) → ℕ → BlockKey → Option Location
  | [], _, _ => none
  | none :: ts, i, key => firstListed id snapshot ts (i + 1) key
  | some t :: ts, i, key =>
    (((Tier.visitEntries t (snapshot i)).1.lookup key).map fun info => ⟨id, Tier.type t, info.handle⟩).or
      (firstListed id snapshot ts (i + 1) key)

/-- The recovery pass, from position `i` on. -/
structure VisitPass (id : String) (snapshot : ℕ → Bool) (ts : List (Option τ)) (i : ℕ) (index : LocalIndex)
    (steps : List OpenStep) (r : Except (ℕ × Status) LocalIndex) : Prop where
  only : ∀ c ∈ steps, ∃ m q, c = .visited m q
  done : ∀ index', r = .ok index' → steps = (List.range' i ts.length).map (fun k => .visited k (.ok ())) ∧
    ∀ key, index'.at? key = (index.at? key).or (firstListed id snapshot ts i key)
  failed : ∀ k s, r = .error (k, s) → ∃ before last, steps = before ++ [last] ∧
    (∀ c ∈ before, c.failure = none) ∧ last.failure = some s.code

theorem VisitPass.fail {id : String} {snapshot : ℕ → Bool} {ts : List (Option τ)} {i k : ℕ}
    {index : LocalIndex}
    {s : Status} : VisitPass id snapshot ts i index [.visited k (.error s)] (.error (k, s)) where
  only c hc := ⟨k, .error s, List.mem_singleton.mp hc⟩
  done index' h := by cases h
  failed k' s' h := by
    cases h
    exact ⟨[], _, rfl, by simp, rfl⟩

/-- A tier whose entries went into the index where it had none, and the pass over the rest. -/
theorem VisitPass.cons {id : String} {snapshot : ℕ → Bool} {t : τ} {ts : List (Option τ)} {i : ℕ}
    {index index' : LocalIndex} {steps : List OpenStep} {r : Except (ℕ × Status) LocalIndex}
    (h : VisitPass id snapshot ts (i + 1) index' steps r)
    (hentries : ∀ k, index'.at? k = (index.at? k).or
      (((Tier.visitEntries t (snapshot i)).1.lookup k).map fun info => ⟨id, Tier.type t, info.handle⟩)) :
    VisitPass id snapshot (some t :: ts) i index (.visited i (.ok ()) :: steps) r where
  only c hc := by
    rcases List.mem_cons.mp hc with rfl | hc
    · exact ⟨i, .ok (), rfl⟩
    · exact h.only c hc
  done index'' hr := by
    obtain ⟨hsteps, hindex⟩ := h.done index'' hr
    refine ⟨by rw [List.length_cons, List.range'_succ, List.map_cons, ← hsteps], fun key => ?_⟩
    rw [hindex key, hentries key, Option.or_assoc]
    rfl
  failed k s hr := by
    obtain ⟨before, last, hsteps, hbefore, hlast⟩ := h.failed k s hr
    refine ⟨.visited i (.ok ()) :: before, last, by rw [hsteps]; rfl, fun c hc => ?_, hlast⟩
    rcases List.mem_cons.mp hc with rfl | hc
    · rfl
    · exact hbefore c hc

theorem recoverIndexSteps_pass (id : String) (snapshot : ℕ → Bool) :
    ∀ (ts : List (Option τ)) (i : ℕ) (index : LocalIndex) (allocs : Stream' Bool), none ∉ ts →
      VisitPass id snapshot ts i index (recoverIndexSteps id snapshot ts i index allocs).1
        (recoverIndexSteps id snapshot ts i index allocs).2
  | [], i, index, allocs, _ => {
      only := by simp [recoverIndexSteps]
      done := by
        rintro index' ⟨⟩
        exact ⟨rfl, fun key => (Option.or_none).symm⟩
      failed := by simp [recoverIndexSteps] }
  | none :: ts, i, index, allocs, hnone => absurd List.mem_cons_self hnone
  | some t :: ts, i, index, allocs, hnone => by
    simp only [recoverIndexSteps]
    have hentries := recoverEntries_spec id (Tier.type t) (Tier.visitEntries t (snapshot i)).1 index allocs
    rcases heq : recoverEntries id (Tier.type t) (Tier.visitEntries t (snapshot i)).1 index allocs with
      ⟨s | _, index', allocs'⟩
    · exact .fail
    · rw [heq] at hentries
      cases hending : (Tier.visitEntries t (snapshot i)).2 with
      | error s => exact .fail
      | ok u =>
        have hrest := recoverIndexSteps_pass id snapshot ts (i + 1) index' allocs' fun h =>
          hnone (List.mem_cons_of_mem _ h)
        exact hrest.cons hentries

/-- A key is listed first by the tier that lists it when no hotter one does. -/
theorem firstListed_eq_some {id : String} {snapshot : ℕ → Bool} {key : BlockKey} {loc : Location} :
    ∀ {ts : List (Option τ)} {i : ℕ}, firstListed id snapshot ts i key = some loc ↔
      ∃ m t info, ts[m]? = some (some t) ∧ (Tier.visitEntries t (snapshot (i + m))).1.lookup key = some info ∧
        loc = ⟨id, Tier.type t, info.handle⟩ ∧ ∀ m' < m, ∀ t', ts[m']? = some (some t') →
          (Tier.visitEntries t' (snapshot (i + m'))).1.lookup key = none
  | [], i => by simp [firstListed]
  | none :: ts, i => by
    rw [firstListed, firstListed_eq_some]
    constructor
    · rintro ⟨m, t, info, ht, hinfo, hloc, hhotter⟩
      refine ⟨m + 1, t, info, ht, by rwa [Nat.add_right_comm] at hinfo, hloc, fun m' hm' t' ht' => ?_⟩
      cases m' with
      | zero => cases ht'
      | succ m' =>
        have := hhotter m' (Nat.lt_of_succ_lt_succ hm') t' ht'
        rwa [Nat.add_right_comm] at this
    · rintro ⟨m, t, info, ht, hinfo, hloc, hhotter⟩
      cases m with
      | zero => cases ht
      | succ m =>
        refine ⟨m, t, info, ht, by rwa [Nat.add_right_comm], hloc, fun m' hm' t' ht' => ?_⟩
        have := hhotter (m' + 1) (Nat.succ_lt_succ hm') t' ht'
        rwa [Nat.add_right_comm]
  | some u :: ts, i => by
    rw [firstListed, Option.or_eq_some_iff, firstListed_eq_some, Option.map_eq_some_iff,
      Option.map_eq_none_iff]
    constructor
    · rintro (⟨info, hinfo, rfl⟩ | ⟨hnone, m, t, info, ht, hinfo, hloc, hhotter⟩)
      · exact ⟨0, u, info, rfl, hinfo, rfl, fun m' hm' => absurd hm' (Nat.not_lt_zero m')⟩
      · refine ⟨m + 1, t, info, ht, by rwa [Nat.add_right_comm] at hinfo, hloc, fun m' hm' t' ht' => ?_⟩
        cases m' with
        | zero => cases ht'; exact hnone
        | succ m' =>
          have := hhotter m' (Nat.lt_of_succ_lt_succ hm') t' ht'
          rwa [Nat.add_right_comm] at this
    · rintro ⟨m, t, info, ht, hinfo, rfl, hhotter⟩
      cases m with
      | zero => cases ht; exact .inl ⟨info, hinfo, rfl⟩
      | succ m =>
        refine .inr ⟨hhotter 0 (Nat.succ_pos m) u rfl, m, t, info, ht, by rwa [Nat.add_right_comm], rfl,
          fun m' hm' t' ht' => ?_⟩
        have := hhotter (m' + 1) (Nat.succ_lt_succ hm') t' ht'
        rwa [Nat.add_right_comm]

/-! ### All or nothing -/

/-- What a failed `Open` leaves: `before` succeeded, `last` failed, and the rest closes what was opened. -/
structure RolledBack (n n' : StorageNode τ π) (e : Status) (steps : List OpenStep) : Prop where
  failing : (n.tiers = [] ∧ steps = [] ∧ e.code = .internal) ∨ ∃ before last closes,
    steps = before ++ last :: closes ∧ (∀ c ∈ before, c.failure = none) ∧ last.failure = some e.code ∧
      ∀ c ∈ closes, ∃ i r, c = .closed i r
  closed : steps.filterMap OpenStep.closedTier = (steps.filterMap OpenStep.openedTier).reverse
  once : (steps.filterMap OpenStep.openedTier).Nodup
  tiers : ∀ i ∈ steps.filterMap OpenStep.openedTier, ∃ t, n.tiers[i]? = some (some t) ∧
    n'.tiers[i]? = some (some (Tier.closeTier (Tier.openTier t).2).2)
  untouched : ∀ c ∈ steps, c.opening = true → c.failure ≠ none →
    (∀ c' ∈ steps, c'.tier ≤ c.tier) ∧ ∀ i, c.tier < i → n'.tiers[i]? = n.tiers[i]?
  notReady : n'.ready = false
  index : n'.index = n.index

/-- What a successful `Open` leaves: every tier opened in order and ready, then visited in order. -/
structure FullyOpen (n n' : StorageNode τ π) (env : OpenEnv) (steps : List OpenStep) : Prop where
  steps : steps = (List.range n.tiers.length).flatMap (fun i => [.opened i (.ok ()), .asked i true]) ++
    (List.range n.tiers.length).map fun i => .visited i (.ok ())
  tiers : ∀ i < n.tiers.length, ∃ t, n.tiers[i]? = some (some t) ∧ (Tier.openTier t).1 = .ok () ∧
    Tier.isReady (Tier.openTier t).2 = true ∧ n'.tiers[i]? = some (some (Tier.openTier t).2)
  ready : n'.ready = true
  index : ∀ key loc, n'.index.at? key = some loc ↔ ∃ i t info, n'.tiers[i]? = some (some t) ∧
    (Tier.visitEntries t (env.snapshot i)).1.lookup key = some info ∧ loc = ⟨n.id, Tier.type t, info.handle⟩ ∧
    ∀ j < i, ∀ t', n'.tiers[j]? = some (some t') → (Tier.visitEntries t' (env.snapshot j)).1.lookup key = none

theorem filterMap_eq_nil {f : OpenStep → Option ℕ} {steps : List OpenStep} (h : ∀ c ∈ steps, f c = none) :
    steps.filterMap f = [] := List.filterMap_eq_nil_iff.mpr h

section Sides

variable {ts tiers tiers' : List (Option τ)} {steps visits closes : List OpenStep} {opened : ℕ}
  {f : Option (ℕ × Status)}

/-- Only the open pass opens tiers: the first `opened`, in order. -/
theorem OpenPass.openedTiers (hpass : OpenPass ts 0 steps tiers opened f)
    (hvisits : ∀ c ∈ visits, ∃ m q, c = .visited m q) (hclose : ClosePass opened tiers closes tiers') :
    (steps ++ visits ++ closes).filterMap OpenStep.openedTier = List.range opened := by
  have hv : visits.filterMap OpenStep.openedTier = [] := filterMap_eq_nil fun c hc => by
    obtain ⟨m, q, rfl⟩ := hvisits c hc
    rfl
  have hc : closes.filterMap OpenStep.openedTier = [] := filterMap_eq_nil fun c hc => by
    obtain ⟨m, r, rfl, -⟩ := hclose.only c hc
    rfl
  rw [List.filterMap_append, List.filterMap_append, hv, hc, hpass.opens, List.append_nil, List.append_nil,
    List.range_eq_range', Nat.sub_zero]

/-- Only the rollback closes tiers: the same ones, last one first. -/
theorem OpenPass.closedTiers (hpass : OpenPass ts 0 steps tiers opened f)
    (hvisits : ∀ c ∈ visits, ∃ m q, c = .visited m q) (hclose : ClosePass opened tiers closes tiers') :
    (steps ++ visits ++ closes).filterMap OpenStep.closedTier = (List.range opened).reverse := by
  have ho : steps.filterMap OpenStep.closedTier = [] := filterMap_eq_nil fun c hc => by
    have := hpass.opening c hc
    cases c <;> first | rfl | cases this
  have hv : visits.filterMap OpenStep.closedTier = [] := filterMap_eq_nil fun c hc => by
    obtain ⟨m, q, rfl⟩ := hvisits c hc
    rfl
  rw [List.filterMap_append, List.filterMap_append, ho, hv, List.nil_append, List.nil_append]
  exact hclose.closes

end Sides

/-- The failure exit, after `steps` of the open pass and `visits` of the recovery pass. -/
theorem openFailedSteps_rolledBack {n : StorageNode τ π} {steps : List OpenStep} (visits : List OpenStep)
    {tiers : List (Option τ)} {opened : ℕ} {f : Option (ℕ × Status)}
    (hpass : OpenPass n.tiers 0 steps tiers opened f)
    (hvisits : ∀ c ∈ visits, ∃ m q, c = .visited m q) {k : ℕ} {s : Status}
    (hfail : ∃ before last, steps ++ visits = before ++ [last] ∧ (∀ c ∈ before, c.failure = none) ∧
      last.failure = some s.code)
    (hlater : ∀ c ∈ steps, c.failure ≠ none → visits = [] ∧ opened ≤ c.tier + 1 ∧
    (∀ c' ∈ steps, c'.tier ≤ c.tier) ∧
      ∀ m : ℕ, c.tier < m → tiers[m]? = n.tiers[m]?) :
    ∃ e, (n.openFailedSteps tiers opened (k, s)).2.1 = .error e ∧
      RolledBack n (n.openFailedSteps tiers opened (k, s)).2.2 e
        (steps ++ visits ++ (n.openFailedSteps tiers opened (k, s)).1) := by
  have hclose := rollbackSteps_pass opened tiers
    ("StorageNode::Open: " ++ tierLabel tiers k ++ " failed: " ++ s.toText) fun m hm => by
      obtain ⟨t, -, ht⟩ := hpass.state m (by omega)
      exact ⟨_, ht⟩
  simp only [openFailedSteps]
  rcases hroll : rollbackSteps opened tiers
    ("StorageNode::Open: " ++ tierLabel tiers k ++ " failed: " ++ s.toText) with ⟨closes, message, tiers'⟩
  rw [hroll] at hclose
  have hopened := hpass.openedTiers hvisits hclose
  have hclosed := hpass.closedTiers hvisits hclose
  refine ⟨_, rfl, ?_, ?_, ?_, ?_, ?_, rfl, rfl⟩
  · obtain ⟨before, last, hsplit, hbefore, hlast⟩ := hfail
    refine .inr ⟨before, last, closes, by rw [hsplit, List.append_assoc]; rfl, hbefore, hlast, fun c hc => ?_⟩
    obtain ⟨m, r, rfl, -⟩ := hclose.only c hc
    exact ⟨m, r, rfl⟩
  · rw [hopened, hclosed]
  · rw [hopened]
    exact List.nodup_range
  · intro i hi
    rw [hopened, List.mem_range] at hi
    obtain ⟨t, ht, ht'⟩ := hpass.state i (by omega)
    exact ⟨t, ht, hclose.state i _ hi ht'⟩
  · intro c hc hopening hfails
    have hmem : c ∈ steps := by
      rcases List.mem_append.mp hc with hc | hc
      · rcases List.mem_append.mp hc with hc | hc
        · exact hc
        · obtain ⟨m, q, rfl⟩ := hvisits c hc
          cases hopening
      · obtain ⟨m, r, rfl, -⟩ := hclose.only c hc
        cases hopening
    obtain ⟨rfl, hle, htiers, hstate⟩ := hlater c hmem hfails
    refine ⟨fun c' hc' => ?_, fun i hi => ?_⟩
    · rw [List.append_nil] at hc'
      rcases List.mem_append.mp hc' with hc' | hc'
      · exact htiers c' hc'
      · obtain ⟨m, r, rfl, hm⟩ := hclose.only c' hc'
        exact Nat.le_of_lt_succ (lt_of_lt_of_le hm hle)
    · exact (hclose.rest i (by omega)).trans (hstate i hi)

/-- What a successful pass makes of the tiers. -/
theorem OpenPass.tiers {ts ts' : List (Option τ)} {steps : List OpenStep} {opened : ℕ}
    (h : OpenPass ts 0 steps ts' opened none) : none ∉ ts' ∧ ∀ i < ts.length, ∃ t, ts[i]? = some (some t) ∧
      (Tier.openTier t).1 = .ok () ∧ Tier.isReady (Tier.openTier t).2 = true ∧
      ts'[i]? = some (some (Tier.openTier t).2) := by
  obtain ⟨rfl, hlen, -, hall⟩ := h.done rfl
  have hstate : ∀ i < ts.length, ∃ t, ts[i]? = some (some t) ∧ ts'[i]? = some (some (Tier.openTier t).2) :=
    fun i hi => h.state i (by omega)
  constructor
  · intro hnone
    obtain ⟨i, hi⟩ := List.mem_iff_getElem?.mp hnone
    obtain ⟨t, -, ht⟩ := hstate i (hlen ▸ (List.getElem?_eq_some_iff.mp hi).1)
    cases hi.symm.trans ht
  · intro i hi
    obtain ⟨t, ht, ht'⟩ := hstate i hi
    exact ⟨t, ht, (hall i t ht).1, (hall i t ht).2, ht'⟩

/-- ALL OR NOTHING: whatever the tiers answer, `Open` of a closed node either fails, closes the tiers it
    opened in reverse and leaves the rest of the node as it was, or opens them all and maps every key that
    is listed to the first tier that lists it. -/
theorem open_all_or_nothing (n : StorageNode τ π) (env : OpenEnv) (hclosed : n.ready = false) :
    ∃ steps r n', n.openNodeSteps env = (steps, r, n') ∧ n.openNode env = (r, n') ∧
      (∀ e, r = .error e → RolledBack n n' e steps) ∧ (r = .ok () → FullyOpen n n' env steps) := by
  rw [← openNodeSteps_erase]
  simp only [openNodeSteps, hclosed, Bool.false_eq_true, if_false]
  by_cases hempty : n.tiers.isEmpty = true
  · rw [if_pos hempty]
    refine ⟨_, _, _, rfl, rfl, ?_, fun h => (by cases h)⟩
    rintro e ⟨⟩
    have hnil : n.tiers = [] := List.isEmpty_iff.mp hempty
    exact ⟨.inl ⟨hnil, rfl, rfl⟩, rfl, List.nodup_nil, by simp, by simp, hclosed, rfl⟩
  · rw [if_neg hempty]
    have hpass := openTiersSteps_pass n.tiers 0
    rcases hsteps : openTiersSteps n.tiers 0 with ⟨steps, tiers, opened, _ | ⟨k, s⟩⟩
    · replace hpass : OpenPass n.tiers 0 steps tiers opened none := by rw [hsteps] at hpass; exact hpass
      obtain ⟨hnone, htiers⟩ := hpass.tiers
      obtain ⟨-, hlen, hopens, -⟩ := hpass.done rfl
      have hvisit := recoverIndexSteps_pass n.id env.snapshot tiers 0 {} env.allocs hnone
      rcases hvisits : recoverIndexSteps n.id env.snapshot tiers 0 {} env.allocs with ⟨visits, ⟨k, s⟩ | index⟩
      · -- every tier is open, and the recovery fails
        replace hvisit : VisitPass n.id env.snapshot tiers 0 {} visits (.error (k, s)) := by
          rw [hvisits] at hvisit; exact hvisit
        have hgood : ∀ c ∈ steps, c.failure = none := by
          intro c hc
          rw [hopens] at hc
          obtain ⟨i, -, hc⟩ := List.mem_flatMap.mp hc
          rcases List.mem_cons.mp hc with rfl | hc
          · rfl
          · rw [List.mem_singleton.mp hc]; rfl
        obtain ⟨before, last, hsplit, hbefore, hlast⟩ := hvisit.failed k s rfl
        obtain ⟨e, he, hback⟩ := openFailedSteps_rolledBack (k := k) visits hpass hvisit.only
          ⟨steps ++ before, last, by rw [hsplit, List.append_assoc], fun c hc => (List.mem_append.mp hc).elim
            (hgood c) (hbefore c), hlast⟩ fun c hc hfails => absurd (hgood c hc) hfails
        refine ⟨_, _, _, rfl, rfl, fun e' h => ?_, fun h => (by cases he.symm.trans h)⟩
        obtain rfl := Except.error.inj (he.symm.trans h)
        exact hback
      · replace hvisit : VisitPass n.id env.snapshot tiers 0 {} visits (.ok index) := by
          rw [hvisits] at hvisit; exact hvisit
        obtain ⟨hsteps', hindex⟩ := hvisit.done index rfl
        refine ⟨_, _, _, rfl, rfl, fun e h => (by cases h), fun _ => ⟨?_, htiers, rfl, fun key loc => ?_⟩⟩
        · rw [hopens, hsteps', hlen, List.range_eq_range']
        · rw [hindex key, LocalIndex.at?_empty, Option.none_or, firstListed_eq_some]
          simp only [Nat.zero_add]
    · -- a tier fails to open
      replace hpass : OpenPass n.tiers 0 steps tiers opened (some (k, s)) := by
        rw [hsteps] at hpass
        exact hpass
      obtain ⟨hopened, ⟨before, last, hsplit, hbefore, hlast, htier⟩, hle, hlater⟩ := hpass.failed k s rfl
      have hfirst : ∀ c ∈ steps, c.failure ≠ none → c.tier = k := by
        intro c hc hfails
        rw [hsplit] at hc
        rcases List.mem_append.mp hc with hc | hc
        · exact absurd (hbefore c hc) hfails
        · rw [List.mem_singleton.mp hc]; exact htier
      obtain ⟨e, he, hback⟩ := openFailedSteps_rolledBack (k := k) [] hpass (by simp)
        ⟨before, last, by rw [hsplit, List.append_nil], hbefore, hlast⟩ fun c hc hfails => by
          rw [hfirst c hc hfails]
          exact ⟨rfl, hopened, hle, fun m hm => hlater m (by omega)⟩
      rw [List.append_nil] at hback
      refine ⟨_, _, _, rfl, rfl, fun e' h => ?_, fun h => (by cases he.symm.trans h)⟩
      obtain rfl := Except.error.inj (he.symm.trans h)
      exact hback

/-- The second of three tiers is null: the first one is closed again, the third is left alone. -/
theorem open_all_or_nothing_null :
    let n : StorageNode DramTier LruEviction := { id := "n", tiers := [some {}, none, some {}] }
    ∃ steps e n', n.openNode {} = (.error e, n') ∧ e.code = .internal ∧ RolledBack n n' e steps ∧
      steps.filterMap OpenStep.closedTier = [0] := by
  intro n
  obtain ⟨steps, r, n', hsteps, hopen, hfailed, -⟩ := open_all_or_nothing n {} rfl
  have herror : ∃ e, (n.openNode {}).1 = .error e ∧ e.code = .internal := ⟨_, rfl, rfl⟩
  have hcloses : (n.openNodeSteps {}).1.filterMap OpenStep.closedTier = [0] := rfl
  obtain ⟨e, he, hcode⟩ := herror
  rw [hopen] at he
  rw [hsteps] at hcloses
  exact ⟨steps, e, n', he ▸ hopen, hcode, hfailed e he, hcloses⟩

end StorageNode

end TidePool.Store
