import TidePool.Store.Refinement

/-! Restarts and reopening.

    A restart loses DRAM and keeps the SSD. `PutOversizedLocked` writes through, but a `Put` that fits
    goes to DRAM only and leaves an older SSD copy of its key in place:

        Put k v1        DRAM: v1
        (k is demoted)              SSD: v1
        Put k v2        DRAM: v2    SSD: v1     -- a restart now serves v1

    The restart is faithful exactly while no key has two different copies (`Clean`), and runs that never
    write over a different SSD copy stay that way. Closing and reopening the same node object loses
    nothing: the index is rebuilt as it was, with any policy. -/

namespace TidePool.Store
open Schemes

/-! ### Restart -/

/-- A new node with an empty DRAM tier, opened on the SSD of `n`, returns for every key `NotFound` or the
    block `M` has for it. -/
def RestartFaithful (n : StorageNode (DramTier ⊕ MapTier) Policy) (M : BlockKey → Option Block) : Prop :=
  ∀ ssd, n.tiers[1]? = some (some (.inr ssd)) →
  ∀ id capacity choice env openEnv m,
    (TwoTier.fresh id capacity ssd choice env).node.openNode openEnv = (.ok (), m) →
  ∀ k (dst : MutableBuffer) view, dst.Valid →
    ∃ r out m', m.get k dst (some view) = .ok (r, out, m') ∧
      (Result.code r = .notFound ∨
        ∃ b, M k = some b ∧ (Result.code r, out) = getContract (some b) dst (some view))

/-- The step is not a `Put` that fits DRAM while SSD holds another block under its key. -/
def SafePut (n : StorageNode (DramTier ⊕ MapTier) Policy) : NodeCall → Prop
  | .put k b =>
    match n.tiers with
    | [some (.inl dram), some (.inr ssd)] =>
      (dram.stats.capacityBytes ≠ 0 ∧ b.sizeBytes > dram.stats.capacityBytes.toNat) ∨
        ∀ e, ssd.at? k = some e → e.block = b
    | _ => True
  | _ => True

namespace TwoTier

variable {x y z : TwoTier MapTier Policy} {M : BlockKey → Option Block}

/-- A served call keeps the levels clean if it is safe. -/
theorem Served.clean {c : NodeCall} {o : NodeReply} (h : Served x y c o) (hsafe : SafePut x.node c)
    (hclean : x.levels.Clean) : y.levels.Clean := by
  cases c <;> cases o <;> try exact h.elim
  case put.status k b r =>
    cases r with
    | error s => exact h.1.clean hclean
    | ok _ =>
      rcases h with ⟨-, h⟩ | ⟨hfits, z, hz, hcold, h⟩
      · rw [h]; exact TwoLevel.clean_writeCold hclean k b
      · rw [h]
        refine TwoLevel.clean_writeHot (hz.clean hclean) fun w hw => ?_
        rcases hsafe with hbig | hsame
        · exact absurd hbig hfits
        · rw [hcold] at hw
          obtain ⟨e, he, rfl⟩ := Option.map_eq_some_iff.mp hw
          exact hsame e he
  case get.view k dst out r out' =>
    obtain ⟨⟨z, hz, h⟩, -⟩ := h
    rcases h with h | ⟨-, h⟩
    · rw [h]; exact hz.clean hclean
    · rw [h]; exact TwoLevel.clean_promote (hz.clean hclean) k
  case probe.info k r => rw [h.1]; exact hclean
  case contains.present k r => rw [h.1]; exact hclean

/-- What a restart serves is what the cold level holds. -/
theorem restartFaithful_of_clean (hexact : ColdView.Exact x.ssd) (hclean : x.levels.Clean) :
    RestartFaithful x.node x.levels.view := by
  rintro ssd hssd id capacity choice env openEnv m hopen k dst view hvalid
  obtain rfl : x.ssd = ssd := by simpa [node] using hssd
  obtain ⟨w, rfl, hw, hready, hrested, hdram, hpolicy, -⟩ := opened_start trivial hopen
  have hview : w.levels.view k = x.levels.lose.view k := by
    rw [view_of_empty_dram hdram hrested.contents, TwoLevel.view_lose]; rfl
  obtain ⟨⟨r, out, n⟩, heq, -, -, -, -, hanswer⟩ :=
    (get_spec hw hready k dst (some view)).answer (tracked_of_empty hdram hpolicy (PolicyChoice.make_law _ _))
  refine ⟨r, out, n, heq, ?_⟩
  rcases hanswer with ⟨-, hr, -⟩ | ⟨b, hb, hcontract⟩ | ⟨s, -, -, -, hnot⟩
  · exact .inl hr
  · rw [hview] at hb
    rcases x.levels.lose_faithful_iff.mpr hclean k with hnone | hsame
    · rw [hnone] at hb; cases hb
    · exact .inr ⟨b, hsame ▸ hb, hcontract⟩
  · exact absurd (hrested.exact hexact) hnot

end TwoTier

/-- RESTART: in a run from an empty SSD whose `Put`s are all safe, a restart at any point serves for every
    key `NotFound` or the block of the last successful `Put`. -/
theorem restart_serves_last_put (id : String) (capacity : UInt64) (puts : Stream' (Except Status UInt64))
    (choice : PolicyChoice) (env : Surroundings) (openEnv : StorageNode.OpenEnv)
    (n : StorageNode (DramTier ⊕ MapTier) Policy)
    (hopen : (TwoTier.fresh id capacity ({ puts } : MapTier) choice env).node.openNode openEnv = (.ok (), n))
    (calls : List NodeCall)
    (hcalls : Along StorageNode.step (fun n c => c.isData = true ∧ SafePut n c) n calls) :
    ∃ replies n', run StorageNode.step n calls = .ok (replies, n') ∧
      RestartFaithful n' (follow TwoTier.recordPut (fun _ => none) calls replies) := by
  obtain ⟨x, rfl, hx, hready, hrested, hdram, hpolicy, -⟩ := TwoTier.opened_start trivial hopen
  have htracked := TwoTier.tracked_of_empty hdram hpolicy (PolicyChoice.make_law _ _)
  have hM : x.levels.view = fun _ => none := TwoTier.view_of_empty_dram hdram hrested.contents
  have hclean : x.levels.Clean := fun k v w hv _ => by
    have hk : x.levels.hot k = none := by rw [TwoTier.levels, hdram]; rfl
    rw [hk] at hv; cases hv
  have hrun := TwoTier.run_served TwoTier.recordPut (fun y M => y.levels.view = M ∧ y.levels.Clean)
    hx hready (fun y z M c o _ _ hsafe hserved h =>
      ⟨by rw [hserved.view_eq, h.1], hserved.clean hsafe h.2⟩) hcalls ⟨hM, hclean⟩
  obtain ⟨⟨replies, n'⟩, heq, y, rfl, hfollow, hview, hyclean⟩ := hrun.answer htracked
  refine ⟨replies, y.node, heq, hview ▸ ?_⟩
  exact TwoTier.restartFaithful_of_clean (hfollow.cold.exact (hrested.exact fun _ => rfl)) hyclean

/-- A first `Put`, and one of another key that demotes it, are both safe. -/
theorem restart_serves_last_put_demoted :
    ∃ replies n', run StorageNode.step tiny [tinyPut 1 10, tinyPut 2 20] = .ok (replies, n') ∧
      RestartFaithful n' (follow TwoTier.recordPut (fun _ => none) [tinyPut 1 10, tinyPut 2 20] replies) := by
  refine restart_serves_last_put "n" 1 _ .lru {} {} tiny rfl _ ⟨⟨rfl, .inr fun e he => by cases he⟩, ?_⟩
  rintro o s' ⟨⟩
  exact ⟨⟨rfl, .inr fun e he => by cases he⟩, fun _ _ _ => trivial⟩

/-- STALE: overwriting a demoted key in DRAM, then losing DRAM, brings the old block back. -/
theorem overwrite_resurrected :
    ∃ replies n', run StorageNode.step tiny [tinyPut 1 10, tinyPut 2 20, tinyPut 1 11] = .ok (replies, n') ∧
      ¬ RestartFaithful n' (follow TwoTier.recordPut (fun _ => none)
        [tinyPut 1 10, tinyPut 2 20, tinyPut 1 11] replies) := by
  refine ⟨_, _, rfl, fun h => ?_⟩
  obtain ⟨r, out, m, heq, hwhy⟩ := h _ rfl "n" 1 .lru {} {} _ rfl ⟨1, 1, 7⟩ ⟨true, 1⟩ {} (.inl rfl)
  cases heq
  rcases hwhy with hnf | ⟨b, hb, hcontract⟩
  · cases hnf
  · cases hb
    cases hcontract

/-! ### Reopening -/

/-- Any policy at all, with laws that promise nothing. -/
@[reducible] def LawfulPolicy.vacuous (π : Type) [EvictionPolicy π] : LawfulPolicy π where
  Wf _ := False
  resident _ := ∅
  reserved _ := none
  Reliable _ := False
  faults _ := ∅
  access_law _ _ h := h.elim
  insert_law _ _ _ h := h.elim
  promote_law _ _ _ h := h.elim
  remove_law _ _ h := h.elim
  select_law _ _ h := h.elim
  validate_law _ _ h := h.elim
  commit_law _ _ h := h.elim
  cancel_law _ _ h := h.elim

/-- Closing a coherent node over a map tier and opening it again gives the same node. -/
theorem TwoTier.Coherent.reopen {π : Type} {x : TwoTier MapTier π} (hx : x.Coherent)
    (hready : x.ready = true) {env : StorageNode.OpenEnv} {m : StorageNode (DramTier ⊕ MapTier) π}
    (hopen : x.node.closeNode.2.openNode env = (.ok (), m)) : m = x.node := by
  obtain ⟨r, ssd, hclose, -, hclosed, -⟩ := closeNode_spec x trivial
  obtain ⟨-, rfl⟩ := Prod.mk.inj hclose
  rw [hclosed] at hopen
  obtain ⟨r, ssd, index, ready, heq, -, hrest⟩ :=
    openNode_spec { x with ssd := x.ssd, ready := false } rfl trivial env
  rw [hopen] at heq
  obtain ⟨rfl, rfl⟩ := Prod.mk.inj heq
  obtain ⟨rfl, -, hssd, hindex⟩ := hrest
  obtain ⟨-, rfl⟩ := Prod.mk.inj hssd
  obtain rfl : index = x.index := LocalIndex.ext_at? fun k => (hindex k).trans (hx.index k).symm
  rw [← hready]

/-- REOPEN: in every state that `Put` and `Get` reach, with any policy or none, `Close` and a successful
    `Open` rebuild the same index, and every later call returns what it would have returned. -/
theorem reopen_transparent {π : Type} [EvictionPolicy π] (id : String) (capacity : UInt64) (ssd : MapTier)
    (policy : Option π) (dramAllocs nodeAllocs : Stream' Bool) (openEnv : StorageNode.OpenEnv)
    (n : StorageNode (DramTier ⊕ MapTier) π)
    (hopen : (TwoTier.start id capacity ssd policy dramAllocs nodeAllocs).node.openNode openEnv = (.ok (), n))
    (calls : List NodeCall) (hcalls : ∀ c ∈ calls, c.isData = true) (replies : List NodeReply)
    (n' : StorageNode (DramTier ⊕ MapTier) π) (hrun : run StorageNode.step n calls = .ok (replies, n'))
    (reopenEnv : StorageNode.OpenEnv) (m : StorageNode (DramTier ⊕ MapTier) π)
    (hreopen : n'.closeNode.2.openNode reopenEnv = (.ok (), m)) :
    (∀ k, m.index.at? k = n'.index.at? k) ∧
      ∀ later, run StorageNode.step m later = run StorageNode.step n' later := by
  let _ := LawfulPolicy.vacuous π
  obtain ⟨x, rfl, hx, hready, -⟩ := TwoTier.opened_start trivial hopen
  have hserved := TwoTier.run_served (C := fun _ _ => True) (fun (_ : Unit) _ _ => ()) (fun _ _ => True)
    hx hready (fun _ _ _ _ _ _ _ _ _ _ => trivial)
    (along_of_forall _ fun c hc => ⟨hcalls c hc, trivial⟩) (a := ()) trivial
  obtain ⟨y, rfl, hfollow, -⟩ := hserved.of_ok hrun
  obtain rfl := hfollow.coherent.reopen (hfollow.ready.trans hready) hreopen
  exact ⟨fun _ => rfl, fun _ => rfl⟩

/-- Reopened while a promoted key has copies in both tiers. -/
theorem reopen_transparent_inclusive :
    ∃ replies n' m, run StorageNode.step tiny [tinyPut 1 10, tinyPut 2 20, tinyGet 1] = .ok (replies, n') ∧
      n'.closeNode.2.openNode {} = (.ok (), m) ∧ (∀ k, m.index.at? k = n'.index.at? k) ∧
      ∀ later, run StorageNode.step m later = run StorageNode.step n' later := by
  have hcalls : ∀ c ∈ [tinyPut 1 10, tinyPut 2 20, tinyGet 1], c.isData = true := by
    simp [tinyPut, tinyGet, NodeCall.isData]
  obtain ⟨replies, n', hrun, hok⟩ : ∃ replies n',
      run StorageNode.step tiny [tinyPut 1 10, tinyPut 2 20, tinyGet 1] = .ok (replies, n') ∧
        (n'.closeNode.2.openNode {}).1 = .ok () := ⟨_, _, rfl, rfl⟩
  have hreopen : n'.closeNode.2.openNode {} = (.ok (), (n'.closeNode.2.openNode {}).2) := Prod.ext hok rfl
  exact ⟨replies, n', _, hrun, hreopen, reopen_transparent "n" 1 {} _ (Stream'.const true)
    (Stream'.const true) {} tiny rfl _ hcalls replies n' hrun {} _ hreopen⟩

end TidePool.Store
