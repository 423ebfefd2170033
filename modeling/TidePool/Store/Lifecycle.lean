import TidePool.Store.GetPath
import TidePool.Store.PolicyTrace

/-! Opening and closing a node, and the public calls taken together.

    `Open` rebuilds the index from what the tiers enumerate, hot to cold, first come first kept: what
    it builds is `primary`, whatever the index was before. `Close` keeps every object; the DRAM tier
    survives it. -/

namespace TidePool.Store
open Schemes

section Sum

variable {δ σ : Type} [Tier δ] [Tier σ] {s s' : σ} {r : Result Unit}

theorem openTier_inr (h : Tier.openTier s = (r, s')) :
    Tier.openTier (Sum.inr s : δ ⊕ σ) = (r, .inr s') :=
  congrArg (Prod.map id Sum.inr) h

theorem closeTier_inr (h : Tier.closeTier s = (r, s')) :
    Tier.closeTier (Sum.inr s : δ ⊕ σ) = (r, .inr s') :=
  congrArg (Prod.map id Sum.inr) h

end Sum

/-! ### Recovery -/

/-- Recovering one tier adds its keys where the index has none, or runs out of memory. -/
theorem recoverEntries_spec (id : String) (type : TierType) :
    ∀ (es : List (BlockKey × BlockInfo)) (index : LocalIndex) (allocs : Stream' Bool),
      match StorageNode.recoverEntries id type es index allocs with
      | (.ok (), index', _) => ∀ k, index'.at? k =
          (index.at? k).or ((es.lookup k).map fun i => ⟨id, type, i.handle⟩)
      | (.error s, _, _) => s.code = .outOfCapacity
  | [], index, allocs => by simp [StorageNode.recoverEntries]
  | (key, info) :: es, index, allocs => by
    simp only [StorageNode.recoverEntries]
    cases allocs.head with
    | false => simp [Status.outOfCapacity]
    | true =>
      simp only [Bool.not_true, Bool.false_eq_true, if_false, LocalIndex.insertIfAbsent]
      cases hkey : index.at? key with
      | some loc =>
        -- the key has a hotter primary
        simp only [Option.isSome_some, if_true]
        have hrest := recoverEntries_spec id type es index allocs.tail.tail
        split <;> rename_i heq <;> rw [heq] at hrest
        · intro k
          rw [hrest k, List.lookup_cons]
          by_cases hk : k = key
          · subst hk; simp [hkey]
          · rw [beq_false_of_ne hk]
        · exact hrest
      | none =>
        simp only [Option.isSome_none, Bool.false_eq_true, if_false]
        cases allocs.tail.head with
        | false => simp [Status.outOfCapacity]
        | true =>
          simp only [if_true]
          have hrest := recoverEntries_spec id type es (index.set key ⟨id, type, info.handle⟩)
            allocs.tail.tail
          split <;> rename_i heq <;> rw [heq] at hrest
          · intro k
            rw [hrest k, List.lookup_cons, LocalIndex.at?_set]
            by_cases hk : k = key
            · subst hk; simp [hkey]
            · rw [beq_false_of_ne hk, if_neg hk]
          · exact hrest

/-- With memory for every node of the index it does not run out. -/
theorem recoverEntries_ample (id : String) (type : TierType) :
    ∀ (es : List (BlockKey × BlockInfo)) (index : LocalIndex) {allocs : Stream' Bool},
      (∀ i, allocs.get i = true) → ∃ index' allocs',
        StorageNode.recoverEntries id type es index allocs = (.ok (), index', allocs') ∧
        ∀ i, allocs'.get i = true
  | [], index, allocs, h => ⟨index, allocs, rfl, h⟩
  | (key, info) :: es, index, allocs, h => by
    have hfirst : allocs.head = true := h 0
    have hsecond : allocs.tail.head = true := h 1
    have hrest : ∀ i, allocs.tail.tail.get i = true := fun i => h (i + 2)
    simp only [StorageNode.recoverEntries, hfirst, Bool.not_true, Bool.false_eq_true, if_false, hsecond,
      LocalIndex.insertIfAbsent]
    cases (index.at? key).isSome with
    | true => exact recoverEntries_ample id type es index hrest
    | false => exact recoverEntries_ample id type es _ hrest

/-- In an enumeration without repetitions, looking a key up finds what it lists. -/
theorem lookup_of_enumeration {es : List (BlockKey × BlockInfo)} (hnd : (es.map Prod.fst).Nodup)
    {c : BlockKey → Option Entry} (hes : ∀ k i, (k, i) ∈ es ↔ ∃ e, c k = some e ∧ i = e.info)
    (k : BlockKey) : es.lookup k = (c k).map Entry.info := by
  cases hk : c k with
  | none =>
    rw [Option.map_none, List.lookup_eq_none_iff]
    rintro ⟨j, i⟩ hmem
    obtain ⟨e, he, -⟩ := (hes j i).mp hmem
    simp only [bne_iff_ne, ne_eq]
    rintro rfl
    rw [hk] at he; cases he
  | some e =>
    have hmem : (k, e.info) ∈ es := (hes k e.info).mpr ⟨e, hk, rfl⟩
    obtain ⟨l₁, l₂, rfl⟩ := List.append_of_mem hmem
    refine List.lookup_eq_some_iff.mpr ⟨l₁, l₂, rfl, fun p hp => ?_⟩
    simp only [bne_iff_ne, ne_eq]
    rintro rfl
    rw [List.map_append, List.map_cons, List.nodup_append] at hnd
    exact hnd.2.2 _ (List.mem_map_of_mem hp) _ (by simp) rfl

namespace TwoTier

variable {σ π : Type} [ColdTier σ] {x y z : TwoTier σ π}

/-- RECOVER: the index rebuilt from the tiers names the primary of every key. -/
theorem recoverIndex_spec (x : TwoTier σ π) (hwf : ColdView.Wf x.ssd) (env : StorageNode.OpenEnv) :
    match StorageNode.recoverIndex x.id env.snapshot x.node.tiers 0 {} env.allocs with
    | .ok index => ∀ k, index.at? k = x.primary k
    | .error f => (f.2.code = .outOfCapacity ∨ f.2 ∈ ColdView.openFaults x.ssd) ∧
        ¬ (ColdView.Opens x.ssd ∧ env.Ample) := by
  have hdram : ∀ k, ((Table.pairs x.dram.store).map fun e => (e.1, e.2.info)).lookup k =
      (x.dram.at? k).map Entry.info :=
    lookup_of_enumeration (by simpa [Function.comp_def] using Table.pairs_nodup x.dram.store)
      fun k i => MapTier.mem_infos
  have hvisit : Tier.visitEntries (Sum.inl x.dram : DramTier ⊕ σ) (env.snapshot 0) =
      x.dram.visitEntries (env.snapshot 0) := rfl
  have hvisit' : Tier.visitEntries (Sum.inr x.ssd : DramTier ⊕ σ) (env.snapshot 1) =
      Tier.visitEntries x.ssd (env.snapshot 1) := rfl
  have htype : Tier.type (Sum.inl x.dram : DramTier ⊕ σ) = .dram := rfl
  have htype' : Tier.type (Sum.inr x.ssd : DramTier ⊕ σ) = .ssd := ColdTier.type_ssd x.ssd
  simp only [node, StorageNode.recoverIndex, hvisit, hvisit', htype, htype', DramTier.visitEntries]
  cases hsnapshot : env.snapshot 0 with
  | false =>
    refine ⟨.inl rfl, fun h => ?_⟩
    rw [h.2.snapshot 0] at hsnapshot; cases hsnapshot
  | true =>
    simp only [if_true]
    have hhot := recoverEntries_spec x.id .dram ((Table.pairs x.dram.store).map fun e => (e.1, e.2.info))
      {} env.allocs
    have hample : (∀ i, env.allocs.get i = true) → _ :=
      recoverEntries_ample x.id .dram ((Table.pairs x.dram.store).map fun e => (e.1, e.2.info)) {}
    split at hhot <;> rename_i heq <;> rw [heq] at hample <;> rw [heq]
    swap
    · refine ⟨.inl hhot, fun h => ?_⟩
      obtain ⟨_, _, hok, -⟩ := hample h.2.allocs
      cases hok
    · rename_i index allocs
      simp only
      rcases ColdTier.visit_law x.ssd (env.snapshot 1) hwf with ⟨es, hes, hnd, hmem⟩ | ⟨st, hst, hwhy, hnot⟩
      · rw [hes]
        have hcold := recoverEntries_spec x.id .ssd es index allocs
        simp only
        split at hcold <;> rename_i heq' <;> rw [heq']
        · intro k
          rw [hcold k, hhot k, lookup_of_enumeration hnd hmem, hdram]
          simp only [LocalIndex.at?_empty, Option.none_or, Option.map_map, primary]
          cases x.dram.at? k <;> rfl
        · refine ⟨.inl hcold, fun h => ?_⟩
          obtain ⟨_, allocs', hfirst, hleft⟩ := hample h.2.allocs
          cases hfirst
          obtain ⟨_, _, hok, -⟩ := recoverEntries_ample x.id .ssd es index hleft
          rw [heq'] at hok; cases hok
      · rw [hst]
        exact ⟨hwhy, fun h => hnot ⟨h.1, h.2.snapshot 1⟩⟩

/-! ### Open and close -/

/-- The opening pass, given how the cold tier's `Open` goes. -/
theorem openTiers_node {r : Result Unit} {ssd : σ} (hopen : Tier.openTier x.ssd = (r, ssd))
    (hready : r = .ok () → Tier.isReady ssd = true) :
    StorageNode.openTiers x.node.tiers 0 = match r with
      | .ok () => ({ x with ssd }.node.tiers, 2, none)
      | .error s => ({ x with ssd }.node.tiers, 1, some (1, s)) := by
  have hdram : Tier.openTier (Sum.inl x.dram : DramTier ⊕ σ) = (.ok (), .inl x.dram) := rfl
  have hdramReady : Tier.isReady (Sum.inl x.dram : DramTier ⊕ σ) = true := rfl
  have hssd : Tier.openTier (Sum.inr x.ssd : DramTier ⊕ σ) = (r, .inr ssd) :=
    openTier_inr hopen
  have hssdReady : Tier.isReady (Sum.inr ssd : DramTier ⊕ σ) = Tier.isReady ssd := rfl
  simp only [node, StorageNode.openTiers, hdram, hdramReady, hssd]
  cases r with
  | ok _ => simp [hssdReady, hready rfl]
  | error s => simp

/-- Undoing a partial open closes the cold tier if it had been opened. -/
theorem rollback_node (x : TwoTier σ π) (hintact : ColdView.Intact x.ssd) {opened : ℕ}
    (hopened : opened ≤ 2) (msg : String) :
    ∃ msg' ssd, StorageNode.rollback opened x.node.tiers msg = (msg', { x with ssd }.node.tiers) ∧
      ColdRested x.ssd ssd := by
  obtain ⟨r, ssd, hclose, hrested, -⟩ := ColdTier.close_law x.ssd hintact
  have hdram : Tier.closeTier (Sum.inl x.dram : DramTier ⊕ σ) = (.ok (), .inl x.dram) := rfl
  interval_cases opened
  · exact ⟨msg, x.ssd, rfl, .refl hintact⟩
  · exact ⟨msg, x.ssd, rfl, .refl hintact⟩
  · refine ⟨_, ssd, Prod.ext rfl ?_, hrested⟩
    simp [node, StorageNode.rollback, hdram, closeTier_inr hclose]

/-- OPEN: the index is that of the tiers, or nothing but the cold tier's state has changed. -/
theorem openNode_spec (x : TwoTier σ π) (hready : x.ready = false) (hintact : ColdView.Intact x.ssd)
    (env : StorageNode.OpenEnv) :
    ∃ r ssd index ready, x.node.openNode env = (r, { x with ssd, index, ready }.node) ∧
      ColdRested x.ssd ssd ∧ match r with
        | .ok () => ready = true ∧ ColdView.Wf ssd ∧ Tier.openTier x.ssd = (.ok (), ssd) ∧
            ∀ k, index.at? k = { x with ssd }.primary k
        | .error s => ready = false ∧ index = x.index ∧
            (s.code = .outOfCapacity ∨ ∃ st ∈ ColdView.openFaults x.ssd, s.code = st.code) ∧
            (ColdView.Opens x.ssd → env.Ample → s.code = .corruption) := by
  obtain ⟨r, ssd, hopen, hrested, hwhy⟩ := ColdTier.open_law x.ssd hintact
  have htiers := openTiers_node (x := x) hopen (by rintro rfl; exact hwhy.2)
  have hfailed : ∀ (opened : ℕ) (f : ℕ × Status), opened ≤ 2 →
      ∃ msg ssd', x.node.openFailed { x with ssd }.node.tiers opened f =
        (.error ⟨f.2.code, msg⟩, { x with ssd := ssd', ready := false }.node) ∧ ColdRested x.ssd ssd' := by
    intro opened f hle
    obtain ⟨msg, ssd', hroll, hrested'⟩ := rollback_node { x with ssd } hrested.intact hle
      ("StorageNode::Open: " ++ StorageNode.tierLabel { x with ssd }.node.tiers f.1 ++ " failed: " ++
        f.2.toText)
    refine ⟨msg, ssd', ?_, hrested.trans hrested'⟩
    simp only [StorageNode.openFailed, hroll]
    rfl
  have hnode : x.node.ready = false := hready
  have hsome : x.node.tiers.isEmpty = false := rfl
  simp only [StorageNode.openNode, hnode, Bool.false_eq_true, if_false, hsome, htiers]
  cases r with
  | error s =>
    obtain ⟨msg, ssd', heq, hrested'⟩ := hfailed 1 (1, s) (by omega)
    exact ⟨_, ssd', x.index, false, heq, hrested', rfl, rfl, .inr ⟨s, hwhy.1, rfl⟩, fun h _ => hwhy.2 h⟩
  | ok _ =>
    have hrecover := recoverIndex_spec { x with ssd } hwhy.1 env
    simp only
    split at hrecover <;> rename_i heq <;> rw [node_id, heq]
    · rename_i index
      exact ⟨_, ssd, index, true, rfl, hrested, rfl, hwhy.1, hopen, hrecover⟩
    · rename_i f
      obtain ⟨msg, ssd', heq, hrested'⟩ := hfailed 2 f le_rfl
      refine ⟨_, ssd', x.index, false, heq, hrested', rfl, rfl, ?_, fun h henv => ?_⟩
      · exact hrecover.1.imp_right fun hf => ⟨f.2, hrested.openFaults hf, rfl⟩
      · exact absurd ⟨hrested.opens h, henv⟩ hrecover.2

/-- CLOSE: closes the cold tier; nothing else changes. -/
theorem closeNode_spec (x : TwoTier σ π) (hintact : ColdView.Intact x.ssd) :
    ∃ r ssd, Tier.closeTier x.ssd = (r, ssd) ∧ ColdRested x.ssd ssd ∧
      x.node.closeNode.2 = { x with ssd, ready := false }.node ∧
      ∀ s, x.node.closeNode.1 = .error s →
        (∃ st ∈ ColdView.openFaults x.ssd, s.code = st.code) ∧ ¬ ColdView.Opens x.ssd := by
  obtain ⟨r, ssd, hclose, hrested, hwhy⟩ := ColdTier.close_law x.ssd hintact
  have hdram : Tier.closeTier (Sum.inl x.dram : DramTier ⊕ σ) = (.ok (), .inl x.dram) := rfl
  refine ⟨r, ssd, hclose, hrested, ?_, ?_⟩
  · simp [StorageNode.closeNode, StorageNode.closeTiers, node, hdram, closeTier_inr hclose]
  · intro s hs
    cases r with
    | ok _ => simp [StorageNode.closeNode, StorageNode.closeTiers, node, hdram, closeTier_inr hclose] at hs
    | error st =>
      simp only [StorageNode.closeNode, StorageNode.closeTiers, node, hdram, closeTier_inr hclose,
        List.length_cons, List.length_nil, List.getElem?_cons_succ, List.getElem?_cons_zero,
        List.set_cons_succ, List.set_cons_zero, Except.error.injEq] at hs
      exact ⟨⟨st, (hwhy st rfl).1, by rw [← hs]⟩, (hwhy st rfl).2⟩

/-- The invariant of a node between calls, open or not. -/
structure Alive (x : TwoTier σ π) : Prop where
  sound : x.Sound
  intact : ColdView.Intact x.ssd
  coherent : x.ready = true → x.Coherent

/-! ### Data calls -/

variable [LawfulPolicy π]

/-- What a data call on an open node did and answered. -/
def Served (x y : TwoTier σ π) : NodeCall → NodeReply → Prop
  | .put k b, .status r => PutEffect k b x y r
  | .get k dst out, .view r out' => Promotion k x y ∧ x.GetAnswer k dst out r out'
  | .probe k, .info r => y.levels = x.levels ∧ x.ProbeAnswer k r
  | .contains k, .present r => y.levels = x.levels ∧ r = .ok (x.levels.view k).isSome
  | _, _ => False

/-- SERVE: a data call on a coherent open node. -/
theorem serve_spec (hx : x.Coherent) (hready : x.ready = true) {c : NodeCall} (hc : c.isData = true) :
    Yields x.Tracked (x.node.step c) fun res =>
      ∃ y, res.2 = y.node ∧ x.Follows y ∧ Served x y c res.1 := by
  cases c with
  | openNode env => cases hc
  | closeNode => cases hc
  | put k b => exact (put_spec hx hready k b).map fun ⟨_, _⟩ h => h
  | get k dst out => exact (get_spec hx hready k dst out).map fun ⟨_, _, _⟩ h => h
  | probe k =>
    obtain ⟨r, y, heq, hfollow, hrest⟩ := probe_spec hx hready k
    simp only [StorageNode.step, heq]
    exact ⟨y, rfl, hfollow, hrest⟩
  | contains k => exact ⟨x, rfl, .refl hx, rfl, contains_spec hx hready k⟩

theorem Served.isData {c : NodeCall} {o : NodeReply} (h : Served x y c o) : c.isData = true := by
  cases c with
  | openNode env => exact h.elim
  | closeNode => exact h.elim
  | _ => rfl

/-- The node's policy, between calls. -/
structure TrackedBy (x : TwoTier σ π) (p : π) : Prop where
  policy : x.policy = some p
  free : Free p
  residents : ∀ k, k ∈ PolicyView.resident p ↔ x.dram.at? k ≠ none

omit [ColdTier σ] in
theorem Tracked.by (h : x.Tracked) : ∃ p, x.TrackedBy p := by
  obtain ⟨p, hp, hwf, hidle, hres⟩ := h
  exact ⟨p, hp, ⟨hwf, hidle⟩, hres⟩

/-- STEER: how a data call moved the policy of a tracked node, and which keys it demoted. -/
theorem step_asks (ht : x.Tracked) (hfollow : x.Follows y) {c : NodeCall} {o : NodeReply}
    (hserved : Served x y c o) (hstep : x.node.step c = .ok (o, y.node)) :
    ∃ p p' vs, x.TrackedBy p ∧ y.TrackedBy p' ∧ StorageNode.Asks x.index.at? vs p p' c o ∧
      y.stats.demotions = x.stats.demotions + vs.length := by
  obtain ⟨p, hp⟩ := ht.by
  obtain ⟨p', hp'⟩ := (hfollow.tracked ht).by
  obtain ⟨vs, hsteers⟩ := (x.node.step_steers rfl rfl hserved.isData).of_ok hstep
  obtain ⟨q, hq, hasks⟩ := hsteers.policy p hp.policy
  obtain rfl := Option.some.inj (hq.symm.trans hp'.policy)
  exact ⟨p, q, vs, hp, hp', hasks, hsteers.demotions⟩

/-- `M` after a call: a successful `Put` sets its key. -/
def recordPut (M : BlockKey → Option Block) : NodeCall → NodeReply → BlockKey → Option Block
  | .put k b, .status (.ok ()) => Function.update M k (some b)
  | _, _ => M

/-- What the node stands for moves as the map does. -/
theorem Served.view_eq {c : NodeCall} {o : NodeReply} (h : Served x y c o) :
    y.levels.view = recordPut x.levels.view c o := by
  cases c <;> cases o <;> try exact h.elim
  case put.status k b r =>
    cases r with
    | error s => exact h.1.view_eq
    | ok _ =>
      rcases h with ⟨-, h⟩ | ⟨-, z, hz, -, h⟩
      · rw [h, TwoLevel.view_writeCold]; rfl
      · rw [h, TwoLevel.view_writeHot, hz.view_eq]; rfl
  case get.view k dst out r out' =>
    obtain ⟨⟨z, hz, h⟩, -⟩ := h
    rcases h with h | ⟨hnew, h⟩
    · rw [h, hz.view_eq]; rfl
    · rw [h, TwoLevel.view_promote _ hnew, hz.view_eq]; rfl
  case probe.info k r => rw [h.1]; rfl
  case contains.present k r => rw [h.1]; rfl

/-- A property of all blocks stays, if what a `Put` writes has it. -/
theorem Served.every {P : BlockKey → Block → Prop} {c : NodeCall} {o : NodeReply} (h : Served x y c o)
    (hx : x.levels.Every P) (hhot : ∀ k b, c = .put k b → ¬ x.Oversized b → P k b)
    (hcold : ∀ k b, c = .put k b → y.levels.cold k = some b → P k b) : y.levels.Every P := by
  cases c <;> cases o <;> try exact h.elim
  case put.status k b r =>
    cases r with
    | error s => exact h.1.every hx
    | ok _ =>
      rcases h with ⟨-, hlevels⟩ | ⟨hfits, z, hz, -, hlevels⟩
      · have hb : P k b := hcold k b rfl (by rw [hlevels]; simp [TwoLevel.writeCold])
        rw [hlevels]
        exact TwoLevel.every_writeCold hx hb
      · rw [hlevels]
        exact TwoLevel.every_writeHot (hz.every hx) (hhot k b rfl hfits)
  case get.view k dst out r out' =>
    obtain ⟨⟨z, hz, h⟩, -⟩ := h
    rcases h with h | ⟨-, h⟩
    · rw [h]; exact hz.every hx
    · rw [h]; exact TwoLevel.every_promote (hz.every hx) k
  case probe.info k r => rw [h.1]; exact hx
  case contains.present k r => rw [h.1]; exact hx

/-- Any key but the call's own stayed where it was or was moved down. -/
theorem Served.elsewhere {c : NodeCall} {o : NodeReply} (h : Served x y c o) {j : BlockKey}
    (hj : c.key ≠ some j) :
    (y.levels.hot j = x.levels.hot j ∧ y.levels.cold j = x.levels.cold j) ∨
      x.levels.hot j ≠ none ∧ y.levels.hot j = none ∧ y.levels.cold j = x.levels.hot j := by
  cases c <;> cases o <;> try exact h.elim
  case put.status k b r =>
    have hne : j ≠ k := by rintro rfl; exact hj rfl
    cases r with
    | error s => exact h.1 j
    | ok _ =>
      rcases h with ⟨-, hlevels⟩ | ⟨-, z, hz, -, hlevels⟩
      · rw [hlevels]
        exact .inl ⟨by simp [TwoLevel.writeCold, hne], by simp [TwoLevel.writeCold, hne]⟩
      · rw [hlevels]
        simpa [TwoLevel.writeHot, hne] using hz j
  case get.view k dst out r out' =>
    have hne : j ≠ k := by rintro rfl; exact hj rfl
    obtain ⟨⟨z, hz, hlevels | ⟨-, hlevels⟩⟩, -⟩ := h
    · rw [hlevels]; exact hz j
    · rw [hlevels]
      simpa [TwoLevel.promote, hne] using hz j
  case probe.info k r => rw [h.1]; exact .inl ⟨rfl, rfl⟩
  case contains.present k r => rw [h.1]; exact .inl ⟨rfl, rfl⟩

/-- SESSION: what every data call keeps, given what it served and how it ran, a run of them keeps. -/
theorem run_stepped {A : Type} {C : StorageNode (DramTier ⊕ σ) π → NodeCall → Prop}
    (abs : A → NodeCall → NodeReply → A) (P : TwoTier σ π → A → Prop) (hx : x.Coherent)
    (hready : x.ready = true)
    (hstep : ∀ y z a c o, x.Follows y → y.Follows z → C y.node c → y.node.step c = .ok (o, z.node) →
      Served y z c o → P y a → P z (abs a c o))
    {calls : List NodeCall} {a : A}
    (hcalls : Along StorageNode.step (fun n c => c.isData = true ∧ C n c) x.node calls) (ha : P x a) :
    Yields x.Tracked (run StorageNode.step x.node calls) fun res =>
      ∃ y, res.2 = y.node ∧ x.Follows y ∧ P y (follow abs a calls res.1) := by
  have hone : ∀ n a c, c.isData = true ∧ C n c → (∃ y : TwoTier σ π, n = y.node ∧ x.Follows y ∧ P y a) →
      Yields x.Tracked (StorageNode.step n c) fun res =>
        (∃ y : TwoTier σ π, res.2 = y.node ∧ x.Follows y ∧ P y (abs a c res.1)) ∧ True := by
    rintro n a c ⟨hdata, hc⟩ ⟨y, rfl, hfollow, hp⟩
    have hserve := serve_spec hfollow.coherent (hfollow.ready.trans hready) hdata
    refine (hserve.weaken hfollow.tracked).answered.mono ?_
    rintro ⟨o, n⟩ ⟨heq, z, rfl, hfollow', hserved⟩
    exact ⟨⟨z, rfl, hfollow.trans hfollow', hstep y z a c o hfollow hfollow' hc heq hserved hp⟩, trivial⟩
  exact (run_yields abs _ (fun _ => True) hone hcalls ⟨x, rfl, .refl hx, ha⟩).mono fun _ h => h.1

/-- The same for what follows from the served calls alone. -/
theorem run_served {A : Type} {C : StorageNode (DramTier ⊕ σ) π → NodeCall → Prop}
    (abs : A → NodeCall → NodeReply → A) (P : TwoTier σ π → A → Prop) (hx : x.Coherent)
    (hready : x.ready = true)
    (hstep : ∀ y z a c o, x.Follows y → y.Follows z → C y.node c → Served y z c o → P y a →
      P z (abs a c o))
    {calls : List NodeCall} {a : A}
    (hcalls : Along StorageNode.step (fun n c => c.isData = true ∧ C n c) x.node calls) (ha : P x a) :
    Yields x.Tracked (run StorageNode.step x.node calls) fun res =>
      ∃ y, res.2 = y.node ∧ x.Follows y ∧ P y (follow abs a calls res.1) :=
  run_stepped abs P hx hready (fun y z a c o hy hz hc _ => hstep y z a c o hy hz hc) hcalls ha

/-- An internal error of a data call is the fault of the cold tier or of the policy. -/
theorem Served.internal {c : NodeCall} {o : NodeReply} (h : Served x y c o) (ht : x.Tracked)
    {s : Status} (hs : o.error? = some s) (hcode : s.code = .internal) : s ∈ x.faults := by
  cases c <;> cases o <;> try exact h.elim
  case put.status k b r =>
    cases r with
    | ok _ => cases hs
    | error s' =>
      cases hs
      refine (h.2 ht).1.resolve_left fun hooc => ?_
      rw [hcode] at hooc; cases hooc
  case get.view k dst out r out' =>
    cases r with
    | ok _ => cases hs
    | error s' =>
      cases hs
      rcases h.2 with ⟨-, hnf, -⟩ | ⟨b, -, hcontract⟩ | ⟨st, hst, hr, -⟩
      · rw [Result.code, hcode] at hnf; cases hnf
      · have hmem := getContract_code (some b) dst out
        rw [← hcontract, Result.code, hcode] at hmem
        simp at hmem
      · cases hr; exact .inl hst
  case probe.info k r =>
    cases r with
    | ok _ => cases hs
    | error s' =>
      cases hs
      rcases h.2 with ⟨-, hnf⟩ | ⟨b, e, -, hr⟩ | ⟨st, hst, hr, -⟩
      · rw [Result.code, hcode] at hnf; cases hnf
      · cases hr
      · cases hr; exact .inl hst
  case contains.present k r => rw [h.2] at hs; cases hs

/-! ### Every public call -/

/-- What every public call keeps. -/
structure Evolves (x y : TwoTier σ π) : Prop where
  alive : y.Alive
  capacity : y.dram.stats.capacityBytes = x.dram.stats.capacityBytes
  cold : ColdPromises x.ssd y.ssd
  tracked : x.Tracked → y.Tracked
  faults : x.Tracked → y.faults ⊆ x.faults
  allocs : (∀ i, x.allocs.get i = true) → ∀ i, y.allocs.get i = true
  calm : x.Tracked → x.Calm → y.Calm

theorem Follows.evolves (h : x.Follows y) : x.Evolves y where
  alive := ⟨h.coherent.toSound, ColdTier.wf_intact _ h.coherent.cold, fun _ => h.coherent⟩
  capacity := h.capacity
  cold := h.cold.toColdPromises
  tracked := h.tracked
  faults := h.faults
  allocs := h.allocs
  calm := h.calm

/-- Only the cold tier, the index and the open flag differ. -/
theorem evolves_rested (hx : x.Sound) {ssd : σ} (hrested : ColdRested x.ssd ssd) (index : LocalIndex)
    (ready : Bool) (hcoh : ready = true → { x with ssd, index, ready }.Coherent) :
    x.Evolves { x with ssd, index, ready } where
  alive := ⟨⟨hx.accounted, hx.bounded⟩, hrested.intact, hcoh⟩
  capacity := rfl
  cold := hrested.toColdPromises
  tracked h := h
  faults _ := Set.union_subset_union_left _ hrested.faults
  allocs h := h
  calm _ h := ⟨h.node, h.dram, h.policy⟩

theorem Evolves.refl (hx : x.Alive) : x.Evolves x :=
  ⟨hx, rfl, .refl _, fun h => h, fun _ => subset_rfl, fun h => h, fun _ h => h⟩

theorem Evolves.trans (h : x.Evolves y) (h' : y.Evolves z) : x.Evolves z where
  alive := h'.alive
  capacity := h'.capacity.trans h.capacity
  cold := h.cold.trans h'.cold
  tracked := h'.tracked ∘ h.tracked
  faults ht := (h'.faults (h.tracked ht)).trans (h.faults ht)
  allocs := h'.allocs ∘ h.allocs
  calm ht hc := h'.calm (h.tracked ht) (h.calm ht hc)

/-- A closed node turns every data call away. -/
theorem step_closed (hready : x.ready = false) {c : NodeCall} (hc : c.isData = true) :
    ∃ o s, x.node.step c = .ok (o, x.node) ∧ o.error? = some s ∧ s.code = .unavailable := by
  cases c with
  | openNode env => cases hc
  | closeNode => cases hc
  | put k b => exact ⟨_, _, by simp [StorageNode.step, StorageNode.put, hready]; rfl, rfl, rfl⟩
  | get k dst out => exact ⟨_, _, by simp [StorageNode.step, StorageNode.get, hready]; rfl, rfl, rfl⟩
  | probe k => exact ⟨_, _, by simp [StorageNode.step, StorageNode.probe, hready]; rfl, rfl, rfl⟩
  | contains k => exact ⟨_, _, by simp [StorageNode.step, StorageNode.contains, hready]; rfl, rfl, rfl⟩

/-- STEP: every public call keeps the invariant, never halts with a lawful policy, and reports an
    internal error only if it was handed one. -/
theorem step_spec (hx : x.Alive) (c : NodeCall) :
    Yields x.Tracked (x.node.step c) fun res => ∃ y, res.2 = y.node ∧ x.Evolves y ∧
      (x.Tracked → ∀ s, res.1.error? = some s → s.code = .internal →
        s ∈ x.faults ∨ (ColdView.openFaults x.ssd).Nonempty) := by
  by_cases hc : c.isData = true
  · cases hready : x.ready with
    | true =>
      refine (serve_spec (hx.coherent hready) hready hc).mono ?_
      rintro res ⟨y, hy, hfollow, hserved⟩
      exact ⟨y, hy, hfollow.evolves, fun ht s hs hcode => .inl (hserved.internal ht hs hcode)⟩
    | false =>
      obtain ⟨o, s, heq, hs, hcode⟩ := step_closed hready hc
      rw [heq]
      refine ⟨x, rfl, .refl hx, fun _ s' hs' hcode' => ?_⟩
      rw [hs] at hs'
      cases hs'
      rw [hcode] at hcode'; cases hcode'
  · cases c with
    | openNode env =>
      cases hready : x.ready with
      | true =>
        simp only [StorageNode.step, StorageNode.openNode, node_ready, hready, if_true]
        exact ⟨x, rfl, .refl hx, by simp [NodeReply.error?]⟩
      | false =>
        obtain ⟨r, ssd, index, ready, heq, hrested, hrest⟩ := openNode_spec x hready hx.intact env
        simp only [StorageNode.step, heq]
        cases r with
        | ok _ =>
          obtain ⟨rfl, hwf, -, hindex⟩ := hrest
          refine ⟨_, rfl, evolves_rested hx.sound hrested index true fun _ => ?_, by simp [NodeReply.error?]⟩
          exact ⟨⟨hx.sound.accounted, hx.sound.bounded⟩, hwf, hindex⟩
        | error s =>
          obtain ⟨rfl, rfl, hwhy⟩ := hrest
          refine ⟨_, rfl, evolves_rested hx.sound hrested x.index false (by simp), fun _ s' hs' hcode => ?_⟩
          cases hs'
          rcases hwhy.1 with h | ⟨st, hst, -⟩
          · rw [hcode] at h; cases h
          · exact .inr ⟨st, hst⟩
    | closeNode =>
      obtain ⟨r, ssd, -, hrested, heq, hwhy⟩ := closeNode_spec x hx.intact
      simp only [StorageNode.step, heq]
      refine ⟨_, rfl, evolves_rested hx.sound hrested x.index false (by simp), fun _ s hs _ => ?_⟩
      cases hr : x.node.closeNode.1 with
      | ok _ => rw [hr] at hs; cases hs
      | error s' =>
        obtain ⟨⟨st, hst, -⟩, -⟩ := hwhy s' hr
        exact .inr ⟨st, hst⟩
    | _ => exact absurd rfl hc

/-- Any sequence of public calls keeps the invariant. -/
theorem run_evolves (hx : x.Alive) (calls : List NodeCall) :
    Yields x.Tracked (run StorageNode.step x.node calls) fun res => ∃ y, res.2 = y.node ∧ x.Evolves y := by
  have hstep : ∀ n c, (∃ y : TwoTier σ π, n = y.node ∧ x.Evolves y) →
      Yields x.Tracked (StorageNode.step n c) fun res => (∃ y, res.2 = y.node ∧ x.Evolves y) ∧ True := by
    rintro _ c ⟨y, rfl, hy⟩
    refine ((step_spec hy.alive c).weaken hy.tracked).mono ?_
    rintro res ⟨z, hz, hyz, -⟩
    exact ⟨⟨z, hz, hy.trans hyz⟩, trivial⟩
  exact (run_keeps _ (fun _ => True) hstep calls ⟨x, rfl, .refl hx⟩).mono fun res h => h.1

/-- RUN: any sequence of public calls, given that the cold tier always opens. -/
theorem run_step_spec (hx : x.Alive) (hopen : ColdView.openFaults x.ssd = ∅) (calls : List NodeCall) :
    Yields x.Tracked (run StorageNode.step x.node calls) fun res =>
      (∃ y, res.2 = y.node ∧ x.Evolves y) ∧
        ∀ o ∈ res.1, x.Tracked → ∀ s, o.error? = some s → s.code = .internal → s ∈ x.faults := by
  refine run_keeps (fun n => ∃ y, n = y.node ∧ x.Evolves y) (fun o : NodeReply => x.Tracked → ∀ s,
    o.error? = some s → s.code = .internal → s ∈ x.faults) ?_ calls ⟨x, rfl, .refl hx⟩
  rintro _ c ⟨y, rfl, hy⟩
  refine ((step_spec hy.alive c).weaken hy.tracked).mono ?_
  rintro res ⟨z, hz, hyz, hwhy⟩
  refine ⟨⟨z, hz, hy.trans hyz⟩, fun ht s hs hcode => ?_⟩
  rcases hwhy (hy.tracked ht) s hs hcode with h | ⟨st, hst⟩
  · exact hy.faults ht h
  · have hnone := hy.cold.openFaults hst
    rw [hopen] at hnone
    exact hnone.elim

end TwoTier

end TidePool.Store
