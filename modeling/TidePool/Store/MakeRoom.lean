import TidePool.Store.Refinement

/-! How `MakeDramRoomForLocked` makes room.

    The loop is a chain of demotions, each of another victim and each while the incoming block does not
    fit, and then a reason to stop:

        x ─ v₁ → x₁ ─ v₂ → ... ─ vₙ → z     fits, or no capacity set          Ok
                                            used - replaced + incoming wraps   OutOfCapacity
                                            a demotion fails                   its error

    A victim of zero bytes frees nothing, so it is the number of blocks that bounds the chain. With a disk
    that takes every victim the chain can only stop because the block fits, as long as the sum can be
    computed. -/

namespace TidePool.Store
open Schemes

namespace TwoTier

variable {σ π : Type} [ColdTier σ]

/-! ### Chains of demotions -/

omit [ColdTier σ] in
theorem node_injective : Function.Injective (node : TwoTier σ π → _) := by
  rintro ⟨id, dram, ssd, policy, index, ready, stats, allocs⟩ ⟨_, _, _, _, _, _, _, _⟩ h
  simp only [node, StorageNode.mk.injEq, List.cons.injEq, Option.some.injEq, Sum.inl.injEq,
    Sum.inr.injEq] at h
  obtain ⟨rfl, ⟨rfl, rfl, -⟩, rfl, rfl, rfl, rfl, rfl⟩ := h
  rfl

section Chains

variable [EvictionPolicy π]

/-- A demotion of `v` on the way, made while the incoming block did not fit. -/
structure Sinks (replaced incoming : ℕ) (replacing : Option BlockKey) (v : BlockKey) (x y : TwoTier σ π) :
    Prop where
  needed : x.Over replaced incoming
  call : x.node.demoteOneVictimLocked 0 1 replacing = .ok (.ok (), y.node)
  other : replacing ≠ some v
  resident : x.levels.hot v ≠ none
  moved : y.levels = x.levels.demote v
  blocks : y.dram.stats.numBlocks + 1 = x.dram.stats.numBlocks
  bytes : y.dram.stats.usedBytes ≤ x.dram.stats.usedBytes

/-- The victims `vs` were demoted, in this order. -/
inductive Demotes (replaced incoming : ℕ) (replacing : Option BlockKey) :
    List BlockKey → TwoTier σ π → TwoTier σ π → Prop
  | rest (x : TwoTier σ π) : Demotes replaced incoming replacing [] x x
  | next {v : BlockKey} {vs : List BlockKey} {x y z : TwoTier σ π}
      (first : Sinks replaced incoming replacing v x y) (rest : Demotes replaced incoming replacing vs y z) :
      Demotes replaced incoming replacing (v :: vs) x z

/-- The disk tier takes the victim that the policy selects here. -/
def VictimTaken (replacing : Option BlockKey) (x : TwoTier σ π) : Prop :=
  ∀ p v p' e, x.policy = some p → EvictionPolicy.selectVictim p replacing = (.ok v, p') →
    x.dram.at? v = some e → ∃ h, (Tier.put x.ssd v e.block).1 = .ok h

/-- No `Put` of a victim fails on the disk tier, wherever on the way one is selected because the incoming
    block does not fit. -/
def NoPutFails (replaced incoming : ℕ) (replacing : Option BlockKey) (x : TwoTier σ π) : Prop :=
  ∀ vs z, Demotes replaced incoming replacing vs x z → z.Over replaced incoming → z.VictimTaken replacing

variable {replaced incoming : ℕ} {replacing : Option BlockKey} {vs : List BlockKey} {x y z : TwoTier σ π}

theorem Demotes.not_mem (h : Demotes replaced incoming replacing vs x z) {k : BlockKey}
    (hk : replacing = some k) : k ∉ vs := by
  induction h with
  | rest x => simp
  | @next v vs x y z first _ ih =>
    have hne : k ≠ v := by rintro rfl; exact first.other hk
    simp [hne, ih]

/-- The chain is as long as DRAM got smaller. -/
theorem Demotes.blocks (h : Demotes replaced incoming replacing vs x z) :
    z.dram.stats.numBlocks + vs.length = x.dram.stats.numBlocks := by
  induction h with
  | rest x => rfl
  | next first _ ih =>
    have hone := first.blocks
    rw [List.length_cons]
    omega

theorem Demotes.bytes (h : Demotes replaced incoming replacing vs x z) :
    z.dram.stats.usedBytes ≤ x.dram.stats.usedBytes := by
  induction h with
  | rest x => exact UInt64.le_refl _
  | next first _ ih => exact UInt64.le_trans ih first.bytes

theorem Demotes.hot_replacing (h : Demotes replaced incoming replacing vs x z) {k : BlockKey}
    (hk : replacing = some k) : z.levels.hot k = x.levels.hot k := by
  induction h with
  | rest x => rfl
  | @next v vs x y z first _ ih =>
    have hne : k ≠ v := by rintro rfl; exact first.other hk
    rw [ih, first.moved]
    simp [TwoLevel.demote, hne]

theorem Demotes.replacedBytes (h : Demotes replaced incoming replacing vs x z) :
    z.replacedBytes replacing = x.replacedBytes replacing := by
  cases hk : replacing with
  | none => rfl
  | some k => simp only [TwoTier.replacedBytes, Option.bind_some, h.hot_replacing hk]

theorem NoPutFails.after (h : NoPutFails replaced incoming replacing x) {v : BlockKey}
    (first : Sinks replaced incoming replacing v x y) : NoPutFails replaced incoming replacing y :=
  fun vs z hvs => h (v :: vs) z (.next first hvs)

end Chains

/-! ### A demotion the disk does not refuse -/

variable [LawfulPolicy π] {replaced incoming : ℕ} {replacing : Option BlockKey} {vs : List BlockKey}
  {x y z : TwoTier σ π}

/-- Once the victim is reserved, only memory and the disk can stop a demotion. -/
theorem demoteReserved_succeeds (hx : x.Coherent) {p p' : π} {v : BlockKey} {e : Entry} {h : UInt64}
    (hv : x.dram.at? v = some e) (halloc : x.allocs.head = true)
    (hvalid : EvictionPolicy.validateVictimCommit p v = .ok ())
    (hput : (Tier.put x.ssd v e.block).1 = .ok h) (hcommit : EvictionPolicy.commitVictim p v = .ok p') :
    x.node.demoteReserved 0 1 p v =
      .ok (.ok (), (x.demoted v e (Tier.put x.ssd v e.block).2 h p').node) := by
  have hindex : x.index.validateRelocate v .dram = .ok () :=
    LocalIndex.validateRelocate_ok_iff.mpr ⟨_, hx.index_dram hv, rfl⟩
  have herase : { x.drawn with dram := x.dram.served }.node.askTier 0 (Tier.validateEraseExisting · v) =
      .ok (.ok ()) :=
    congrArg _ (DramTier.validateEraseExisting_of_at? (t := x.dram.served) hv)
  have hstore : { x.drawn with dram := x.dram.served }.node.callTier 1 (Tier.put · v e.block) =
      .ok (.ok h, { x.drawn with dram := x.dram.served, ssd := (Tier.put x.ssd v e.block).2 }.node) := by
    rw [← hput]
    rfl
  simp only [StorageNode.demoteReserved, node_index, hindex, readBlockLocked_dram hv]
  rw [if_neg (by simp [halloc])]
  simp only [ok_bind]
  rw [herase]
  simp only [ok_bind, hvalid]
  rw [hstore]
  simp only [ok_bind]
  rw [commitDemotion_eq hx p _ h hv, hcommit]
  rfl

/-- With a resident that may go, memory for the buffer and a disk that takes the victim, a demotion is
    committed. -/
theorem demote_succeeds (hx : x.Coherent) (ht : x.Tracked) (halloc : x.allocs.head = true)
    (htaken : x.VictimTaken replacing)
    {k : BlockKey} (hk : x.dram.at? k ≠ none) (hother : replacing ≠ some k) :
    ∃ v e ssd h p, x.node.demoteOneVictimLocked 0 1 replacing =
      .ok (.ok (), (x.demoted v e ssd h p).node) := by
  obtain ⟨p, hp, hwf, hfree, htrack⟩ := ht
  rcases LawfulPolicy.select_law p replacing hwf hfree with
    ⟨s, -, -, honly⟩ | ⟨v, p₁, hsel, hv, -, hkept, -, hres⟩
  · exact absurd (honly k ((htrack k).mpr hk)) hother
  · obtain ⟨e, he⟩ := Option.ne_none_iff_exists'.mp ((htrack v).mp hv)
    obtain ⟨h, hput⟩ := htaken p v p₁ e hp hsel he
    obtain ⟨p₂, hcommit, -⟩ := LawfulPolicy.commit_law p₁ v hkept.wf hres
    have hidle : x.Idle { x with policy := some p₁ } :=
      ⟨rfl, rfl, rfl, .refl _, .refl hx.cold, rfl, fun ha => ha⟩
    refine ⟨v, e, (Tier.put x.ssd v e.block).2, h, p₂, ?_⟩
    simp only [StorageNode.demoteOneVictimLocked, node_eviction, hp, hsel]
    exact demoteReserved_succeeds (x := { x with policy := some p₁ }) (hidle.coherent hx) he halloc
      (LawfulPolicy.validate_law p₁ v hkept.wf hres) hput hcommit

/-! ### The loop -/

/-- Why the loop stopped in `z`, leaving `y`. -/
inductive Stops (replaced incoming : ℕ) (replacing : Option BlockKey) (z : TwoTier σ π) :
    TwoTier σ π → Result Unit → Prop
  | fits (h : z.dram.stats.capacityBytes ≠ 0 → replaced ≤ z.dram.stats.usedBytes.toNat ∧
      z.dram.stats.usedBytes.toNat - replaced + incoming ≤ z.dram.stats.capacityBytes.toNat) :
      Stops replaced incoming replacing z z (.ok ())
  | wraps {s : Status} (bounded : z.dram.stats.capacityBytes ≠ 0)
      (h : z.dram.stats.usedBytes.toNat < replaced ∨
        UInt64.size ≤ z.dram.stats.usedBytes.toNat - replaced + incoming) :
      Stops replaced incoming replacing z z (.error s)
  | stuck {y : TwoTier σ π} {s s' : Status} (needed : z.Over replaced incoming)
      (call : z.node.demoteOneVictimLocked 0 1 replacing = .ok (.error s, y.node))
      (same : y.levels = z.levels) : Stops replaced incoming replacing z y (.error s')

theorem sinks_of_demotion (hx : x.Coherent) (ht : x.Tracked) (hover : x.Over replaced incoming)
    (hcall : x.node.demoteOneVictimLocked 0 1 replacing = .ok (.ok (), y.node)) (hfollow : x.Follows y)
    (hdem : Demotion replacing x y (.ok ())) : ∃ v, Sinks replaced incoming replacing v x y := by
  obtain ⟨v, hv, hlevels, hblocks, htotal, hother⟩ := hdem
  refine ⟨v, hover, hcall, hother ht, hv, hlevels, hblocks, ?_⟩
  have hcap : y.dram.stats.capacityBytes ≠ 0 := by rw [hfollow.capacity]; exact hover.1
  rw [UInt64.le_iff_toNat_le, hx.used_eq hover.1, hfollow.coherent.used_eq hcap]
  exact htotal

/-- CHAIN: the loop demotes victims one after the other and stops for one of the reasons. -/
theorem makeRoomLoop_demotes (replaced : UInt64) (incoming : ℕ) (replacing : Option BlockKey) {fuel : ℕ}
    (hx : x.Coherent) (ht : x.Tracked) (hfuel : x.dram.stats.numBlocks < fuel) :
    ∃ r y, StorageNode.makeRoomLoop 0 replaced incoming replacing fuel x.node = .ok (r, y.node) ∧
      ∃ vs z, Demotes replaced.toNat incoming replacing vs x z ∧ x.Follows z ∧
        Stops replaced.toNat incoming replacing z y r := by
  suffices hloop : Yields x.Tracked (StorageNode.makeRoomLoop 0 replaced incoming replacing fuel x.node)
      fun res => x.Tracked → ∃ y, res.2 = y.node ∧ ∃ vs z, Demotes replaced.toNat incoming replacing vs x z ∧
        x.Follows z ∧ Stops replaced.toNat incoming replacing z y res.1 by
    obtain ⟨⟨r, n⟩, heq, hres⟩ := hloop.answer ht
    obtain ⟨y, rfl, hchain⟩ := hres ht
    exact ⟨r, y, heq, hchain⟩
  refine makeRoomLoop_rule (Q := fun x res => x.Tracked → ∃ y, res.2 = y.node ∧ ∃ vs z,
    Demotes replaced.toNat incoming replacing vs x z ∧ x.Follows z ∧
      Stops replaced.toNat incoming replacing z y res.1) ?_ ?_ ?_ ?_ ?_ fuel x hx hfuel
  · intro x hx hfits _
    exact ⟨x, rfl, [], x, .rest x, .refl hx, .fits hfits⟩
  · intro x s hx hcap _ hwraps _
    exact ⟨x, rfl, [], x, .rest x, .refl hx, .wraps hcap hwraps⟩
  · rintro x s hx hpol ⟨p, hp, -⟩
    rw [hpol] at hp; cases hp
  · intro x y s s' hx hover hcall _ hdem _ _
    exact ⟨y, rfl, [], x, .rest x, .refl hx, .stuck hover hcall hdem.1⟩
  · intro x y res hx hover hcall hfollow hdem hy ht
    obtain ⟨v, hv⟩ := sinks_of_demotion hx ht hover hcall hfollow hdem
    obtain ⟨w, hw, vs, z, hvs, hz, hstops⟩ := hy (hfollow.tracked ht)
    exact ⟨w, hw, v :: vs, z, .next hv hvs, hfollow.trans hz, hstops⟩

/-- A demotion on the way keeps the invariants. -/
theorem Sinks.follows {v : BlockKey} (h : Sinks replaced incoming replacing v x y) (hx : x.Coherent) :
    x.Follows y := by
  obtain ⟨y', hy', hfollow, -⟩ := (demote_spec hx replacing).of_ok h.call
  rw [node_injective hy']
  exact hfollow

/-- No `Put` fails on a tier that takes whatever is in DRAM. -/
theorem Demotable.noPutFails (h : x.Demotable) (hx : x.Coherent) :
    NoPutFails replaced incoming replacing x := by
  intro vs z hvs
  induction hvs with
  | rest x =>
    intro _ p v p' e _ _ he
    obtain ⟨r, s, hput, -, heffect⟩ := ColdTier.put_law x.ssd v e.block hx.cold
    cases r with
    | ok handle => exact ⟨handle, by rw [hput]⟩
    | error st => exact absurd (h v e.block (by simp [levels, he])) heffect.2.2
  | @next v vs x y z first _ ih =>
    have hfollow := first.follows hx
    refine ih (h.of_sinks hfollow.cold ?_) hfollow.coherent
    rw [first.moved]
    exact x.levels.sinksTo_demote first.resident

/-- Without failures the chain goes on without failures. -/
theorem Demotes.calm (h : Demotes replaced incoming replacing vs x z) (hx : x.Coherent) (ht : x.Tracked)
    (hallocs : ∀ i, x.allocs.get i = true) (hputs : NoPutFails replaced incoming replacing x) :
    (∀ i, z.allocs.get i = true) ∧ NoPutFails replaced incoming replacing z := by
  induction h with
  | rest x => exact ⟨hallocs, hputs⟩
  | @next v vs x y z first _ ih =>
    have hfollow := first.follows hx
    refine ih hfollow.coherent (hfollow.tracked ht) ?_ (hputs.after first)
    -- the demotion has drawn one allocation
    obtain ⟨w, e, ssd, h, p, hcall⟩ := demote_succeeds hx ht (hallocs 0) (hputs [] x (.rest x) first.needed)
      (hot_ne_none.mp first.resident) first.other
    rw [first.call] at hcall
    have hy : y = x.demoted w e ssd h p := node_injective (by simpa using hcall)
    rw [hy]
    exact fun i => hallocs (i + 1)

/-- Nothing but an overflow keeps the block out. -/
theorem Stops.ok_of_calm {r : Result Unit} (h : Stops (z.replacedBytes replacing) incoming replacing z y r)
    (hz : z.Coherent) (ht : z.Tracked) (hallocs : ∀ i, z.allocs.get i = true)
    (hputs : NoPutFails (z.replacedBytes replacing) incoming replacing z)
    (hinc : z.dram.stats.capacityBytes ≠ 0 → incoming ≤ z.dram.stats.capacityBytes.toNat)
    (hsum : z.dram.stats.usedBytes.toNat - z.replacedBytes replacing + incoming < UInt64.size) :
    r = .ok () := by
  have hle := z.replacedBytes_le replacing
  cases h with
  | fits _ => rfl
  | wraps hcap hwraps =>
    rw [hz.used_eq hcap] at hwraps hsum
    omega
  | stuck needed call _ =>
    have hfull := needed.2
    rw [hz.used_eq needed.1] at hfull
    have hinc := hinc needed.1
    -- DRAM holds more than the replaced block, so there is something to demote
    have hother : ¬ ∀ k e, z.dram.at? k = some e → replacing = some k := by
      intro honly
      have htotal := totalBytes_eq_replacedBytes honly
      omega
    push Not at hother
    obtain ⟨k, e, hk, hne⟩ := hother
    obtain ⟨v, e, ssd, h, p, hcall⟩ := demote_succeeds hz ht (hallocs 0) (hputs [] z (.rest z) needed)
      (by rw [hk]; simp) hne
    rw [call] at hcall
    cases hcall

/-! ### MakeDramRoomForLocked -/

/-- What `MakeDramRoomForLocked(incoming, replacing)` did from `x` to `y`. -/
structure MadeRoom (incoming : ℕ) (replacing : Option BlockKey) (x y : TwoTier σ π) (r : Result Unit) :
    Prop where
  /-- At most as many demotions as blocks, each while the block did not fit and none of the replaced
      key; a demotion that fails ends the loop. -/
  demotions : ∃ vs z, Demotes (x.replacedBytes replacing) incoming replacing vs x z ∧
    vs.length ≤ x.dram.stats.numBlocks ∧ (∀ k, replacing = some k → k ∉ vs) ∧
    (y = z ∨ z.Over (x.replacedBytes replacing) incoming ∧
      ∃ s, z.node.demoteOneVictimLocked 0 1 replacing = .ok (.error s, y.node))
  kept : ∀ k, replacing = some k → y.levels.hot k = x.levels.hot k
  fits : r = .ok () → x.dram.stats.capacityBytes = 0 ∨
    x.replacedBytes replacing ≤ y.dram.stats.usedBytes.toNat ∧
      y.dram.stats.usedBytes.toNat - x.replacedBytes replacing + incoming ≤ x.dram.stats.capacityBytes.toNat
  succeeds : (∀ i, x.allocs.get i = true) → NoPutFails (x.replacedBytes replacing) incoming replacing x →
    (x.dram.stats.capacityBytes ≠ 0 → incoming ≤ x.dram.stats.capacityBytes.toNat) →
    x.dram.stats.usedBytes.toNat - x.replacedBytes replacing + incoming < UInt64.size → r = .ok ()

theorem madeRoom (hx : x.Coherent) (ht : x.Tracked) (incoming : ℕ) {replacing : Option BlockKey}
    (hrep : ∀ k, replacing = some k → x.dram.at? k ≠ none) :
    ∃ r y, x.node.makeDramRoomForLocked incoming replacing = .ok (r, y.node) ∧
      MadeRoom incoming replacing x y r := by
  obtain ⟨replaced, hbytes, heq⟩ := x.makeDramRoomForLocked_eq incoming hrep
  obtain ⟨r, y, hrun, vs, z, hvs, hz, hstops⟩ :=
    makeRoomLoop_demotes replaced incoming replacing hx ht (Nat.lt_succ_self _)
  rw [hbytes] at hvs hstops
  refine ⟨r, y, heq.trans hrun, ⟨vs, z, hvs, ?_, fun k hk => hvs.not_mem hk, ?_⟩, ?_, ?_, ?_⟩
  · have hblocks := hvs.blocks
    omega
  · cases hstops with
    | fits _ => exact .inl rfl
    | wraps _ _ => exact .inl rfl
    | stuck needed call _ => exact .inr ⟨needed, _, call⟩
  · intro k hk
    rw [← hvs.hot_replacing hk]
    cases hstops with
    | fits _ => rfl
    | wraps _ _ => rfl
    | stuck _ _ same => rw [same]
  · rintro rfl
    cases hstops with
    | fits h =>
      rw [hz.capacity] at h
      exact or_iff_not_imp_left.mpr h
  · intro hallocs hputs hinc hsum
    obtain ⟨hallocs', hputs'⟩ := hvs.calm hx ht hallocs hputs
    rw [← hvs.replacedBytes] at hstops hputs' hsum
    have hused := UInt64.le_iff_toNat_le.mp hvs.bytes
    exact hstops.ok_of_calm hz.coherent (hz.tracked ht) hallocs' hputs' (by rw [hz.capacity]; exact hinc)
      (by omega)

end TwoTier

/-- MAKE ROOM: whatever calls came before and whichever of them failed, making room in an open node
    comes to an end, demotes no more than it has to and, if it can compute the sum, gives up only
    because of a failing allocation or disk. -/
theorem makes_room {σ : Type} [ColdTier σ] (id : String) (capacity : UInt64) (ssd : σ)
    (choice : PolicyChoice) (env : Surroundings) (hssd : ColdView.Intact ssd) (calls : List NodeCall) :
    ∃ replies, ∃ x : TwoTier σ Policy,
      run StorageNode.step (TwoTier.fresh id capacity ssd choice env).node calls = .ok (replies, x.node) ∧
      x.dram.stats.capacityBytes = capacity ∧ (x.ready = true →
        ∀ incoming replacing, (∀ k, replacing = some k → x.dram.at? k ≠ none) →
          ∃ r y, x.node.makeDramRoomForLocked incoming replacing = .ok (r, y.node) ∧
            x.MadeRoom incoming replacing y r) := by
  have halive : (TwoTier.fresh id capacity ssd choice env).Alive := TwoTier.fresh_alive hssd
  obtain ⟨⟨replies, n⟩, heq, x, rfl, hx⟩ :=
    (TwoTier.run_evolves halive calls).answer TwoTier.fresh_tracked
  refine ⟨replies, x, heq, hx.capacity, fun hready incoming replacing hrep => ?_⟩
  exact TwoTier.madeRoom (hx.alive.coherent hready) (hx.tracked TwoTier.fresh_tracked) incoming hrep

/-- One byte of DRAM, taken: room for another byte is made by a demotion. -/
theorem makes_room_tiny : ∃ replies, ∃ x : TwoTier MapTier Policy,
    run StorageNode.step (TwoTier.fresh "n" 1 ({} : MapTier) .lru {}).node [.openNode {}, tinyPut 1 10] =
      .ok (replies, x.node) ∧ x.Over 0 1 ∧
      ∃ r y, x.node.makeDramRoomForLocked 1 none = .ok (r, y.node) ∧ x.MadeRoom 1 none y r := by
  obtain ⟨replies, x, hrun, -, hroom⟩ :=
    makes_room "n" 1 ({} : MapTier) .lru {} trivial [.openNode {}, tinyPut 1 10]
  obtain ⟨replies', x', hrun', hready, hover⟩ : ∃ replies, ∃ x : TwoTier MapTier Policy,
      run StorageNode.step (TwoTier.fresh "n" 1 ({} : MapTier) .lru {}).node [.openNode {}, tinyPut 1 10] =
        .ok (replies, x.node) ∧ x.ready = true ∧ x.Over 0 1 :=
    ⟨_, ⟨_, _, _, _, _, _, _, _⟩, rfl, rfl, by decide, by decide⟩
  obtain ⟨rfl, hnode⟩ := Prod.mk.inj (Except.ok.inj (hrun.symm.trans hrun'))
  obtain rfl := TwoTier.node_injective hnode
  exact ⟨replies, x, hrun, hover, hroom hready 1 none (by simp)⟩

/-- A node with all the capacity there is. -/
def vast : TwoTier MapTier Policy := TwoTier.fresh "n" 0xFFFFFFFFFFFFFFFF {} .lru {}

/-- OVERFLOW: with one byte in DRAM, room for a block as large as the capacity is refused because the sum
    of the two cannot be computed, although nothing fails and the byte could be demoted. -/
theorem room_refused_on_overflow : ∃ replies, ∃ x y : TwoTier MapTier Policy,
    run StorageNode.step vast.node [.openNode {}, tinyPut 1 10] = .ok (replies, x.node) ∧ x.ready = true ∧
      (∀ i, x.allocs.get i = true) ∧ (∀ i, ∃ h, x.ssd.puts.get i = .ok h) ∧ x.NoPutFails 0 (2 ^ 64 - 1) none ∧
      2 ^ 64 - 1 ≤ x.dram.stats.capacityBytes.toNat ∧
      ∃ s, x.node.makeDramRoomForLocked (2 ^ 64 - 1) none = .ok (.error s, y.node) ∧
        s.code = .outOfCapacity := by
  have halive : vast.Alive := TwoTier.fresh_alive trivial
  obtain ⟨⟨replies, n⟩, hrun, x, rfl, hx⟩ :=
    (TwoTier.run_evolves halive [.openNode {}, tinyPut 1 10]).answer TwoTier.fresh_tracked
  obtain ⟨replies', x', y, hrun', hready, hallocs, hputs, hcap, hroom⟩ :
      ∃ replies, ∃ x y : TwoTier MapTier Policy,
      run StorageNode.step vast.node [.openNode {}, tinyPut 1 10] = .ok (replies, x.node) ∧ x.ready = true ∧
        (∀ i, x.allocs.get i = true) ∧ (∀ i, ∃ h, x.ssd.puts.get i = .ok h) ∧
        2 ^ 64 - 1 ≤ x.dram.stats.capacityBytes.toNat ∧
        ∃ s, x.node.makeDramRoomForLocked (2 ^ 64 - 1) none = .ok (.error s, y.node) ∧
        s.code = .outOfCapacity :=
    ⟨_, ⟨_, _, _, _, _, _, _, _⟩, ⟨_, _, _, _, _, _, _, _⟩, rfl, rfl, fun _ => rfl, fun _ => ⟨0, rfl⟩,
      by decide, _, rfl, rfl⟩
  obtain ⟨rfl, hnode⟩ := Prod.mk.inj (Except.ok.inj (hrun.symm.trans hrun'))
  obtain rfl := TwoTier.node_injective hnode
  have hdemotable : x.Demotable := fun _ _ _ => hputs
  exact ⟨replies, x, y, hrun, hready, hallocs, hputs, hdemotable.noPutFails (hx.alive.coherent hready),
    hcap, hroom⟩

end TidePool.Store
