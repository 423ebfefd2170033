import TidePool.Store.Refinement
import TidePool.Store.SsdLaws

/-! What DRAM admits must be able to leave.

    `SsdTier::Put` refuses a block whose `model_fingerprint` or `num_tokens` does not match its key; the
    path into DRAM checks nothing. A block that does not match is accepted there and can never be
    demoted: once the policy picks it as victim, every `Put` that needs room fails with the disk's
    `InvalidArgument`, whatever it writes.

        Put k bad      accepted into DRAM
        Put k' good    needs room → demote k → SsdTier::Put refuses → InvalidArgument

    When every block that is small enough for DRAM matches its key, no state can refuse a `Put`. -/

namespace TidePool.Store
open Schemes

/-- A block that does not match its key is too large for DRAM, so the disk tier sees it first. -/
def MatchedPut {π : Type} (n : StorageNode (DramTier ⊕ SsdTier) π) : NodeCall → Prop
  | .put k b =>
    match n.tiers with
    | some (.inl dram) :: _ =>
      (dram.stats.capacityBytes ≠ 0 ∧ dram.stats.capacityBytes.toNat < b.sizeBytes) ∨
        SsdTier.Matches k b.metadata
    | _ => True
  | _ => True

/-- Bytes of all blocks in DRAM. -/
def dramBytes {π : Type} (n : StorageNode (DramTier ⊕ SsdTier) π) : ℕ :=
  match n.tiers with
  | some (.inl dram) :: _ => dram.totalBytes
  | _ => 0

/-- A record that can be read matches its key. -/
theorem SsdTier.matches_of_readable {s : SsdTier} (hr : SsdTier.Readable s.db) {k : BlockKey} {b : Block}
    (h : (s.contents k).map (·.block) = some b) : SsdTier.Matches k b.metadata := by
  rcases SsdTier.Readable.cases hr k with ⟨-, hnone⟩ | ⟨b', -, hm, hsome⟩
  · rw [hnone] at h; cases h
  · rw [hsome, Option.map_some, SsdTier.entryOf_block] at h
    exact Option.some.inj h ▸ hm

namespace TwoTier

/-- The block matches its key. -/
abbrev Matched (k : BlockKey) (b : Block) : Prop := SsdTier.Matches k b.metadata

variable {π : Type} [LawfulPolicy π] {x y : TwoTier SsdTier π}

omit [LawfulPolicy π] in
/-- Whatever is on disk matches. -/
theorem Coherent.cold_matched (hx : x.Coherent) {k : BlockKey} {b : Block}
    (h : x.levels.cold k = some b) : Matched k b :=
  SsdTier.matches_of_readable hx.cold.2 h

/-- A served call that admits matching blocks only keeps all blocks matching. -/
theorem Served.every_matched {c : NodeCall} {o : NodeReply} (h : Served x y c o) (hy : y.Coherent)
    (hc : MatchedPut x.node c) (hx : x.levels.Every Matched) : y.levels.Every Matched := by
  refine h.every hx ?_ ?_
  · rintro k b rfl hfits
    exact hc.resolve_left hfits
  · rintro k b rfl hb
    exact hy.cold_matched hb

/-- A node whose policy is fresh and whose surroundings fail nothing. -/
theorem calm_of_fresh {capacity : UInt64} {choice : PolicyChoice} {x : TwoTier SsdTier Policy}
    (hdram : x.dram = DramTier.make capacity) (hpolicy : x.policy = some (choice.make {}))
    (hallocs : x.allocs = Stream'.const true) : x.Calm where
  node i := by rw [hallocs]; rfl
  dram i := by rw [hdram]; rfl
  policy p hp := by
    rw [hpolicy] at hp
    obtain rfl := Option.some.inj hp
    refine ⟨?_, fun _ => rfl⟩
    cases choice with
    | lru => exact fun _ => rfl
    | arc c => exact fun _ => rfl

end TwoTier

/-- ADMISSION: over a LevelDB that does not fail and with memory to spare, after any run in which every
    block small enough for DRAM matches its key, a `Put` of a matching block returns `Ok`. -/
theorem matched_put_succeeds (id : String) (capacity : UInt64) (ssd : SsdTier) (choice : PolicyChoice)
    (openEnv : StorageNode.OpenEnv) (n : StorageNode (DramTier ⊕ SsdTier) Policy)
    (hreadable : SsdTier.Readable ssd.db) (hreliable : ssd.db.Reliable) (hcalm : ssd.Calm)
    (hopen : (TwoTier.fresh id capacity ssd choice {}).node.openNode openEnv = (.ok (), n))
    (calls : List NodeCall)
    (hcalls : Along StorageNode.step (fun n c => c.isData = true ∧ MatchedPut n c) n calls) :
    ∃ replies n', run StorageNode.step n calls = .ok (replies, n') ∧
      ∀ k b, SsdTier.Matches k b.metadata → dramBytes n' + b.sizeBytes < UInt64.size →
        ∃ n'', n'.put k b = .ok (.ok (), n'') := by
  obtain ⟨x, rfl, hx, hready, hrested, hdram, hpolicy, hallocs⟩ := TwoTier.opened_start hreadable hopen
  have htracked := TwoTier.tracked_of_empty hdram hpolicy (PolicyChoice.make_law _ _)
  have hevery : x.levels.Every TwoTier.Matched := by
    rintro k b (hb | hb)
    · have hnone : x.levels.hot k = none := by rw [TwoTier.levels, hdram]; rfl
      rw [hnone] at hb; cases hb
    · exact hx.cold_matched hb
  have hrun := TwoTier.run_served (fun (_ : Unit) _ _ => ()) (fun y _ => y.levels.Every TwoTier.Matched)
    hx hready (fun y z _ c o _ hfollow hc hserved h => hserved.every_matched hfollow.coherent hc h) (a := ())
    hcalls hevery
  obtain ⟨⟨replies, n'⟩, heq, y, rfl, hfollow, hyevery⟩ := hrun.answer htracked
  refine ⟨replies, y.node, heq, fun k b hm hroom => ?_⟩
  -- the disk takes every matching block, so DRAM can be emptied
  have haccepts : ∀ k b, SsdTier.Matches k b.metadata → ColdView.Accepts y.ssd k b := fun k b hm =>
    hfollow.cold.accepts k b (hrested.accepts k b ⟨hreliable, hcalm, hm⟩)
  have hdemotable : y.Demotable := fun k b hb => haccepts k b (hyevery k b (.inl hb))
  have hytracked := hfollow.tracked htracked
  obtain ⟨⟨r, n''⟩, hput, w, -, -, heffect⟩ :=
    (TwoTier.put_spec hfollow.coherent (hfollow.ready.trans hready) k b).answer hytracked
  cases r with
  | ok _ => exact ⟨n'', hput⟩
  | error s =>
    have hcalm := hfollow.calm htracked (TwoTier.calm_of_fresh hdram hpolicy hallocs)
    have htake := TwoTier.mustTake_of_calm hcalm hdemotable (haccepts k b hm) fun _ => hroom
    exact absurd htake (heffect.2 hytracked).2

/-- An open node with one byte of DRAM and an empty disk. -/
def narrow : StorageNode (DramTier ⊕ SsdTier) Policy :=
  ((TwoTier.fresh "n" 1 (SsdTier.fresh {}) .lru {}).node.openNode {}).2

/-- One byte of model 7, covering that many tokens. -/
def oneByte (numTokens : UInt32) : Block :=
  ⟨{ numTokens, modelFingerprint := 7 }, [1], by simp [UInt64.size]⟩

/-- A matching block is demoted to make room for the next. -/
theorem matched_put_succeeds_narrow :
    ∃ replies n', run StorageNode.step narrow [.put ⟨1, 1, 7⟩ (oneByte 1)] = .ok (replies, n') ∧
      ∃ n'', n'.put ⟨2, 1, 7⟩ (oneByte 1) = .ok (.ok (), n'') := by
  obtain ⟨replies, n', hrun, hput⟩ := matched_put_succeeds "n" 1 (SsdTier.fresh {}) .lru {} narrow
    (by intro k v hv; cases hv) (fun _ => rfl) (fun _ => rfl) rfl [.put ⟨1, 1, 7⟩ (oneByte 1)]
    ⟨⟨rfl, .inr ⟨rfl, .inr rfl⟩⟩, fun _ _ _ => trivial⟩
  refine ⟨replies, n', hrun, hput _ _ ⟨rfl, .inr rfl⟩ ?_⟩
  cases hrun
  decide

/-- JAM: a block whose `num_tokens` is not its key's `prefix_len` is accepted into DRAM, and the next
    `Put`, of a matching block, is refused because the first cannot be demoted. -/
theorem mismatched_block_jams :
    ∃ replies n', run StorageNode.step narrow [.put ⟨1, 1, 7⟩ (oneByte 2)] = .ok (replies, n') ∧
      replies.map NodeReply.error? = [none] ∧ SsdTier.Matches ⟨2, 1, 7⟩ (oneByte 1).metadata ∧
      ∃ s n'', n'.put ⟨2, 1, 7⟩ (oneByte 1) = .ok (.error s, n'') ∧ s.code = .invalidArgument :=
  ⟨_, _, rfl, rfl, ⟨rfl, .inr rfl⟩, _, _, rfl, rfl⟩

end TidePool.Store
