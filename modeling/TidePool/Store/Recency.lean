import TidePool.Schemes.Recency
import TidePool.Store.Refinement

/-! Demotions in order of recency.

    With `LruEviction`, a node demotes the DRAM key whose last successful `Put` or `Get` is the oldest. The
    specification is a clock that ticks at every such call and at no other; the list the policy keeps is in
    the clock's order after every run, because each path of the node touches the list at most once and no
    failure path touches it at all:

        Put or Get of a DRAM key   OnAccess                          k to the front
        Put or Get into DRAM       OnInsert, OnPromotionCommitted    k to the front
        Put past DRAM              OnRemove                          k out of the list
        insert taken back          OnInsert, OnRemove                as before
        demotion                   SelectVictim, CommitVictim        the last key that may go, out of the list
        cancelled demotion         SelectVictim, CancelVictim        as before -/

namespace TidePool.Store

open Schemes EvictionPolicy

/-- The key that a successful `Put` or `Get` used. -/
def usedKey : NodeCall → NodeReply → Option BlockKey
  | .put k _, .status (.ok ()) => some k
  | .get k _ _, .view (.ok ()) _ => some k
  | _, _ => none

/-- The clock after a call: it ticks for a successful `Put` or `Get`. -/
def stamp (r : Clock BlockKey) (c : NodeCall) (o : NodeReply) : Clock BlockKey := (usedKey c o).elim r r.touch

/-! ### The list of the policy -/

namespace LruEviction

variable {l l' : LruEviction} {k v : BlockKey} {ex : Option BlockKey} {vs : List BlockKey}
  {r : Clock BlockKey}

theorem onAccess_order (hl : Free l) (hk : k ∈ l.order) : (l.onAccess k).order = k :: l.order.erase k := by
  have hidle : l.reserved = none := hl.idle
  have hpos : k ∈ l.pos := (hl.wf.pos k).mpr hk
  simp [onAccess, hpos, hidle, touch]

theorem onInsert_order (hl : Free l) {res : Result Unit} (heq : l.onInsert k = (res, l')) :
    (res = .ok () ∧ l'.order = k :: l.order.erase k) ∨ (∃ s, res = .error s) ∧ l'.order = l.order := by
  have hidle : l.reserved = none := hl.idle
  unfold onInsert at heq
  by_cases hpos : k ∈ l.pos
  · rw [if_pos hpos, if_neg (by simp [hidle])] at heq
    obtain ⟨rfl, rfl⟩ := Prod.mk.inj heq
    exact .inl ⟨rfl, rfl⟩
  · rw [if_neg hpos] at heq
    split at heq
    · obtain ⟨rfl, rfl⟩ := Prod.mk.inj heq
      exact .inr ⟨⟨_, rfl⟩, rfl⟩
    split at heq
    · obtain ⟨rfl, rfl⟩ := Prod.mk.inj heq
      exact .inr ⟨⟨_, rfl⟩, rfl⟩
    · obtain ⟨rfl, rfl⟩ := Prod.mk.inj heq
      have hnot : k ∉ l.order := fun hk => hpos ((hl.wf.pos k).mpr hk)
      exact .inl ⟨rfl, by rw [List.erase_of_not_mem hnot]⟩

theorem onRemove_order (hl : Free l) (k : BlockKey) : (l.onRemove k).order = l.order.erase k := by
  unfold onRemove
  by_cases hpos : k ∈ l.pos
  · rw [if_neg (not_not.mpr hpos)]
  · rw [if_pos hpos, List.erase_of_not_mem fun hk => hpos ((hl.wf.pos k).mpr hk)]

theorem commitVictim_order (heq : l.commitVictim v = .ok l') : l'.order = l.order.erase v := by
  unfold commitVictim at heq
  split at heq
  · cases heq
  · rw [← Except.ok.inj heq]

theorem cancelVictim_order {res : Result Unit} (heq : l.cancelVictim v = (res, l')) : l'.order = l.order := by
  unfold cancelVictim at heq
  split at heq <;> rw [← (Prod.mk.inj heq).2]

/-- SHED: the victims leave from the back, the oldest of those that may go first. -/
theorem sheds_order (hs : Sheds ex vs l l') (hl : Free l) (ho : r.Orders l.order) :
    Free l' ∧ l'.order = l.order.diff vs ∧ r.OldestFirst { j | j ∈ l.order ∧ ex ≠ some j } vs := by
  induction hs with
  | rest l => exact ⟨hl, rfl, trivial⟩
  | refused hsel =>
    obtain rfl := hl.refused hsel
    exact ⟨hl, rfl, trivial⟩
  | cancelled hsel hcancel =>
    obtain ⟨-, rfl, -⟩ := selectVictim_eq_ok hsel
    have horder := cancelVictim_order hcancel
    exact ⟨hl.cancelled hsel hcancel, horder, trivial⟩
  | @next l l₁ l₂ l' v vs hsel hcommit _ ih =>
    obtain ⟨-, rfl, hfind⟩ := selectVictim_eq_ok hsel
    have horder := commitVictim_order hcommit
    have hsub : l₂.order.Sublist l.order := by rw [horder]; exact List.erase_sublist
    obtain ⟨hl', hdiff, hfirst⟩ := ih (hl.committed hsel hcommit) (ho.sublist hsub)
    refine ⟨hl', by rw [hdiff, horder, List.diff_cons], ?_, ?_⟩
    · simpa using ho.oldest_of_find hfind
    · have hrest : { j | j ∈ l₂.order ∧ ex ≠ some j } = { j | j ∈ l.order ∧ ex ≠ some j } \ {v} := by
        ext j
        simp only [horder, hl.wf.nodup.mem_erase_iff, Set.mem_ofPred_eq, Set.mem_sdiff, Set.mem_singleton_iff]
        tauto
      rw [← hrest]
      exact hfirst

/-- The list after a call that demoted `vs`: the used key is in front, or in no list; no other key moved. -/
def Reordered (vs : List BlockKey) (l l' : LruEviction) : Option BlockKey → Prop
  | none => l'.order = l.order.diff vs
  | some k => l'.order = (l.order.diff vs).erase k ∨ l'.order = k :: (l.order.diff vs).erase k

theorem Reordered.mem_iff {used : Option BlockKey} (h : Reordered vs l l' used) (hl : Free l) {j : BlockKey}
    (hj : used ≠ some j) : j ∈ l'.order ↔ j ∈ l.order ∧ j ∉ vs := by
  rw [← hl.wf.nodup.mem_sdiff_iff]
  cases used with
  | none => rw [show l'.order = _ from h]
  | some k =>
    have hne : j ≠ k := by rintro rfl; exact hj rfl
    rcases h with h | h
    · rw [h, List.mem_erase_of_ne hne]
    · rw [h, List.mem_cons, List.mem_erase_of_ne hne, or_iff_right hne]

/-- The list stays in the clock's order, with the tick for the used key. -/
theorem Reordered.orders {used : Option BlockKey} (h : Reordered vs l l' used) (hl : Free l)
    (ho : r.Orders l.order) : (used.elim r r.touch).Orders l'.order := by
  have hdiff := List.diff_sublist l.order vs
  cases used with
  | none =>
    rw [show l'.order = _ from h]
    exact ho.sublist hdiff
  | some k =>
    have hrest := ho.sublist (List.erase_sublist.trans hdiff : ((l.order.diff vs).erase k).Sublist _)
    have hout : k ∉ (l.order.diff vs).erase k := (hl.wf.nodup.sublist hdiff).not_mem_erase
    rcases h with h | h
    · rw [h]; exact hrest.touch_other hout
    · rw [h]; exact hrest.touch_front hout

/-! ### Calls -/

section Calls

variable {old : Option Location} {size : ℕ} {res : Result Unit}

/-- What a `Put` may push out: any listed key but its own. -/
theorem candidates_put (hnew : (old.all fun loc => loc.tier ≠ .dram) = true ↔ k ∉ l.order) :
    { j | j ∈ l.order ∧ StorageNode.replacedKey old k ≠ some j } = { j | j ∈ l.order ∧ j ≠ k } := by
  ext j
  refine and_congr_right fun hj => ?_
  cases hflag : old.all fun loc => loc.tier ≠ .dram with
  | true =>
    have hnone : StorageNode.replacedKey old k = none := by
      cases old <;> simp_all [StorageNode.replacedKey]
    have hne : j ≠ k := by rintro rfl; exact hnew.mp hflag hj
    simp [hnone, hne]
  | false =>
    have hsome : StorageNode.replacedKey old k = some k := by
      cases old <;> simp_all [StorageNode.replacedKey]
    simp [hsome, eq_comm]

theorem mem_of_known (hnew : (old.all fun loc => loc.tier ≠ .dram) = true ↔ k ∉ l.order)
    (known : (old.all fun loc => loc.tier ≠ .dram) = false) : k ∈ l.order := by
  by_contra hk
  rw [hnew.mpr hk] at known
  cases known

theorem not_mem_diff (hk : k ∉ l.order) : k ∉ l.order.diff vs :=
  fun hmem => hk ((List.diff_sublist _ _).subset hmem)

theorem put_reordered (hl : Free l) (ho : r.Orders l.order)
    (hnew : (old.all fun loc => loc.tier ≠ .dram) = true ↔ k ∉ l.order)
    (h : PutTrace old k size vs l res l') :
    Reordered vs l l' (res.toOption.map fun _ => k) ∧ r.OldestFirst { j | j ∈ l.order ∧ j ≠ k } vs := by
  rw [← candidates_put hnew]
  cases h with
  | stored room new hins =>
    obtain ⟨hl₁, hdiff, hfirst⟩ := sheds_order room hl ho
    rcases onInsert_order hl₁ (Except.ok.inj hins) with ⟨-, horder⟩ | ⟨⟨s, hs⟩, -⟩
    · exact ⟨.inr (by rw [horder, hdiff]), hfirst⟩
    · cases hs
  | replaced room known hacc =>
    obtain ⟨hl₁, hdiff, hfirst⟩ := sheds_order room hl ho
    have hk := mem_of_known hnew known
    have hspared : k ∉ vs := by
      intro hv
      have hmem := hfirst.mem k hv
      rw [candidates_put hnew] at hmem
      exact hmem.2 rfl
    have hk₁ : k ∈ _ := hdiff ▸ (hl.wf.nodup.mem_sdiff_iff.mpr ⟨hk, hspared⟩)
    have horder := onAccess_order hl₁ hk₁
    rw [← Except.ok.inj hacc]
    exact ⟨.inr (by rw [horder, hdiff]), hfirst⟩
  | bypassed new => exact ⟨.inl (List.erase_of_not_mem (hnew.mp new)).symm, trivial⟩
  | dropped known => exact ⟨.inl (onRemove_order hl k), trivial⟩
  | failed room =>
    obtain ⟨-, hdiff, hfirst⟩ := sheds_order room hl ho
    exact ⟨hdiff, hfirst⟩
  | refused room new hins =>
    obtain ⟨hl₁, hdiff, hfirst⟩ := sheds_order room hl ho
    rcases onInsert_order hl₁ (Except.ok.inj hins) with ⟨hs, -⟩ | ⟨-, horder⟩
    · cases hs
    · exact ⟨horder.trans hdiff, hfirst⟩
  | undone room new hins =>
    obtain ⟨hl₁, hdiff, hfirst⟩ := sheds_order room hl ho
    rcases onInsert_order hl₁ (Except.ok.inj hins) with ⟨-, horder⟩ | ⟨⟨s, hs⟩, -⟩
    · have hback := onRemove_order (hl₁.inserted hins) k
      have hout : k ∉ l.order.diff vs := not_mem_diff (hnew.mp new)
      refine ⟨hback.trans ?_, hfirst⟩
      rw [horder, hdiff, List.erase_cons_head, List.erase_of_not_mem hout]
    · cases hs

theorem get_reordered (hl : Free l) (ho : r.Orders l.order)
    (hnew : (old.all fun loc => loc.tier ≠ .dram) = true ↔ k ∉ l.order) (h : GetTrace old k vs l res l') :
    Reordered vs l l' (res.toOption.map fun _ => k) ∧ r.OldestFirst { j | j ∈ l.order } vs ∧ k ∉ vs := by
  have hall : { j | j ∈ l.order } = { j | j ∈ l.order ∧ (none : Option BlockKey) ≠ some j } := by simp
  rw [hall]
  cases h with
  | failed => exact ⟨rfl, trivial, List.not_mem_nil⟩
  | hit known hacc =>
    have hk := mem_of_known hnew known
    rw [← Except.ok.inj hacc]
    exact ⟨.inr (onAccess_order hl hk), trivial, List.not_mem_nil⟩
  | served new room =>
    obtain ⟨-, hdiff, hfirst⟩ := sheds_order room hl ho
    have hout : k ∉ l.order.diff vs := not_mem_diff (hnew.mp new)
    exact ⟨.inl (by rw [hdiff, List.erase_of_not_mem hout]), hfirst,
      fun hk => hnew.mp new (hfirst.mem k hk).1⟩
  | promoted new room hins =>
    obtain ⟨hl₁, hdiff, hfirst⟩ := sheds_order room hl ho
    have hout : k ∉ l.order.diff vs := not_mem_diff (hnew.mp new)
    refine ⟨?_, hfirst, fun hk => hnew.mp new (hfirst.mem k hk).1⟩
    rcases onInsert_order hl₁ (Except.ok.inj hins) with ⟨-, horder⟩ | ⟨-, horder⟩
    · exact .inr (by rw [horder, hdiff])
    · exact .inl (by rw [horder, hdiff, List.erase_of_not_mem hout])

end Calls

/-- CALLS: a data call on a node whose primaries agree with the list. -/
theorem asks_reordered (hl : Free l) (ho : r.Orders l.order) {primary : BlockKey → Option Location}
    (hnew : ∀ k, ((primary k).all fun loc => loc.tier ≠ .dram) = true ↔ k ∉ l.order) {c : NodeCall}
    {o : NodeReply} (h : StorageNode.Asks primary vs l l' c o) :
    Reordered vs l l' (usedKey c o) ∧ r.OldestFirst { j | j ∈ l.order ∧ ∀ b, c ≠ .put j b } vs ∧
      ∀ v ∈ vs, c.key ≠ some v := by
  cases c <;> cases o <;> try exact h.elim
  case put.status k b res =>
    obtain ⟨horder, hfirst⟩ := put_reordered hl ho (hnew k) h
    have hset : { j | j ∈ l.order ∧ ∀ b', NodeCall.put k b ≠ .put j b' } = { j | j ∈ l.order ∧ j ≠ k } := by
      ext j
      simp [eq_comm]
    refine ⟨?_, hset ▸ hfirst, ?_⟩
    · cases res <;> exact horder
    · rintro v hv ⟨⟩
      exact (hfirst.mem k hv).2 rfl
  case get.view k dst out res out' =>
    obtain ⟨horder, hfirst, hspared⟩ := get_reordered hl ho (hnew k) h
    refine ⟨?_, by simpa using hfirst, ?_⟩
    · cases res <;> exact horder
    · rintro v hv ⟨⟩
      exact hspared hv
  case probe.info k res =>
    obtain ⟨rfl, rfl⟩ := h
    exact ⟨rfl, trivial, by simp⟩
  case contains.present k res =>
    obtain ⟨rfl, rfl⟩ := h
    exact ⟨rfl, trivial, by simp⟩

end LruEviction

/-! ### Runs -/

/-- The key a call used is the key it is about. -/
theorem key_of_usedKey {c : NodeCall} {o : NodeReply} {k : BlockKey} (h : usedKey c o = some k) :
    c.key = some k := by
  unfold usedKey at h
  split at h
  · exact h
  · exact h
  · cases h

namespace TwoTier

variable {σ : Type} [ColdTier σ] {y z : TwoTier σ LruEviction} {r : Clock BlockKey}

/-- A call moved `vs` from DRAM to SSD, one after the other: each time the key used longest ago by the clock
    `r`, of those in DRAM that the call itself does not overwrite. -/
structure DemotesOldest (r : Clock BlockKey) (c : NodeCall) (vs : List BlockKey)
    (y z : TwoTier σ LruEviction) : Prop where
  count : z.stats.demotions = y.stats.demotions + vs.length
  moved : ∀ v ∈ vs, y.levels.hot v ≠ none ∧ z.levels.hot v = none ∧ z.levels.cold v = y.levels.hot v
  others : ∀ j ∉ vs, c.key ≠ some j → z.levels.hot j = y.levels.hot j ∧ z.levels.cold j = y.levels.cold j
  oldest : r.OldestFirst { j | y.levels.hot j ≠ none ∧ ∀ b, c ≠ .put j b } vs

/-- The policy's list is in the clock's order. -/
def InOrder (r : Clock BlockKey) (x : TwoTier σ LruEviction) : Prop := ∃ l, x.TrackedBy l ∧ r.Orders l.order

theorem TrackedBy.mem_order {l : LruEviction} (h : y.TrackedBy l) (j : BlockKey) :
    j ∈ l.order ↔ y.levels.hot j ≠ none := by
  rw [Ne, levels, Option.map_eq_none_iff]
  exact h.residents j

/-- The index names DRAM for the listed keys and no other. -/
theorem Coherent.elsewhere_iff {l : LruEviction} (hy : y.Coherent) (h : y.TrackedBy l) (k : BlockKey) :
    ((y.index.at? k).all fun loc => loc.tier ≠ .dram) = true ↔ k ∉ l.order := by
  rw [show k ∈ l.order ↔ _ from h.residents k, not_not, hy.index, primary]
  cases y.dram.at? k with
  | none => cases ColdView.contents y.ssd k <;> simp
  | some e => simp

/-- STEP: a data call demotes in the clock's order, and the list stays in the order of the clock after it. -/
theorem InOrder.step (h : y.InOrder r) (hy : y.Coherent) (hfollow : y.Follows z) {c : NodeCall}
    {o : NodeReply} (hserved : Served y z c o) (hstep : y.node.step c = .ok (o, z.node)) :
    z.InOrder (stamp r c o) ∧ ∃ vs, DemotesOldest r c vs y z := by
  obtain ⟨l, hl, ho⟩ := h
  have ht : y.Tracked := ⟨l, hl.policy, hl.free.wf, hl.free.idle, hl.residents⟩
  obtain ⟨p, l', vs, hp, hl', hasks, hcount⟩ := step_asks ht hfollow hserved hstep
  obtain rfl := Option.some.inj (hl.policy.symm.trans hp.policy)
  obtain ⟨horder, hfirst, hkeys⟩ := LruEviction.asks_reordered hl.free ho (hy.elsewhere_iff hl) hasks
  refine ⟨⟨l', hl', horder.orders hl.free ho⟩, vs, hcount, ?_, ?_, ?_⟩
  · intro v hv
    have hin : y.levels.hot v ≠ none := (hl.mem_order v).mp (hfirst.mem v hv).1
    have hused : usedKey c o ≠ some v := fun hu => hkeys v hv (key_of_usedKey hu)
    have hout : ¬ z.levels.hot v ≠ none := by
      rw [← hl'.mem_order, horder.mem_iff hl.free hused]
      exact fun hmem => hmem.2 hv
    rcases hserved.elsewhere (hkeys v hv) with ⟨hsame, -⟩ | hsunk
    · rw [hsame] at hout; exact absurd hin hout
    · exact hsunk
  · intro j hj hkey
    have hused : usedKey c o ≠ some j := fun hu => hkey (key_of_usedKey hu)
    rcases hserved.elsewhere hkey with hsame | ⟨hin, hout, -⟩
    · exact hsame
    · have hmem := (horder.mem_iff hl.free hused).mpr ⟨(hl.mem_order j).mpr hin, hj⟩
      exact absurd hout ((hl'.mem_order j).mp hmem)
  · simpa only [hl.mem_order] using hfirst

end TwoTier

/-- RECENCY: after any run of data calls on a fresh node with `LruEviction`, every further call demotes
    keys in the order of their last successful `Put` or `Get`, whatever calls and demotions have failed
    before. -/
theorem demotes_in_recency_order {σ : Type} [ColdTier σ] (id : String) (capacity : UInt64) (ssd : σ)
    (dramAllocs nodeAllocs policyAllocs : Stream' Bool) (openEnv : StorageNode.OpenEnv)
    (n : StorageNode (DramTier ⊕ σ) LruEviction) (hintact : ColdView.Intact ssd)
    (hopen : (TwoTier.start id capacity ssd (some { allocs := policyAllocs }) dramAllocs
      nodeAllocs).node.openNode openEnv = (.ok (), n)) (calls : List NodeCall)
    (hcalls : ∀ c ∈ calls, c.isData = true) (c : NodeCall) (hc : c.isData = true) :
    ∃ replies y o z vs, run StorageNode.step n calls = .ok (replies, TwoTier.node y) ∧
      y.node.step c = .ok (o, TwoTier.node z) ∧
      TwoTier.DemotesOldest (follow stamp {} calls replies) c vs y z := by
  obtain ⟨x, rfl, hx, hready, -, hdram, hpolicy, -⟩ := TwoTier.opened_start hintact hopen
  have htracked := TwoTier.tracked_of_empty hdram hpolicy (LruEviction.make_law policyAllocs)
  have hstart : x.InOrder {} := by
    obtain ⟨l, hl⟩ := htracked.by
    obtain rfl := Option.some.inj (hpolicy.symm.trans hl.policy)
    exact ⟨_, hl, Clock.orders_nil⟩
  have hrun := TwoTier.run_stepped (C := fun _ _ => True) stamp (fun y r => y.InOrder r) hx hready
    (fun y z r call o hfollow hfollow' _ hstep hserved h =>
      (h.step hfollow.coherent hfollow' hserved hstep).1)
    (along_of_forall _ fun call hcall => ⟨hcalls call hcall, trivial⟩) hstart
  obtain ⟨⟨replies, n'⟩, heq, y, rfl, hfollow, horder⟩ := hrun.answer htracked
  have hserve := TwoTier.serve_spec hfollow.coherent (hfollow.ready.trans hready) hc
  obtain ⟨⟨o, n''⟩, hstep, z, rfl, hfollow', hserved⟩ := hserve.answer (hfollow.tracked htracked)
  obtain ⟨-, vs, hvs⟩ := horder.step hfollow.coherent hfollow' hserved hstep
  exact ⟨replies, y, o, z, vs, heq, hstep, hvs⟩

/-- An SSD whose first write fails. -/
def balky : MapTier := { puts := Stream'.cons (.error (.ioError "write failed")) (Stream'.const (.ok 0)) }

/-- An open node with two bytes of DRAM over it. -/
def twoBytes : StorageNode (DramTier ⊕ MapTier) LruEviction :=
  ((TwoTier.start "n" 2 balky (some ({} : LruEviction)) (Stream'.const true)
    (Stream'.const true)).node.openNode {}).2

/-- The first `Put` of the third key fails with the demotion it needs; the `Get` makes the second key the
    oldest. -/
theorem demotes_in_recency_order_retry : ∃ replies y o z vs,
    run StorageNode.step twoBytes [tinyPut 1 10, tinyPut 2 20, tinyPut 3 30, tinyGet 1] =
        .ok (replies, TwoTier.node y) ∧
      y.node.step (tinyPut 3 30) = .ok (o, TwoTier.node z) ∧
      TwoTier.DemotesOldest (follow stamp {} [tinyPut 1 10, tinyPut 2 20, tinyPut 3 30, tinyGet 1] replies)
        (tinyPut 3 30) vs y z :=
  demotes_in_recency_order "n" 2 balky _ _ _ {} twoBytes trivial rfl _
    (by simp [tinyPut, tinyGet, NodeCall.isData]) _ rfl

end TidePool.Store
