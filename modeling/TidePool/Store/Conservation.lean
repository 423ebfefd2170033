import TidePool.Store.Admission
import TidePool.Store.Traffic

/-! The counters of a node balance.

    A call is a word of events, one of ten shapes, and the reply tells which:

        Put  Ok     demoted* stored             the block fits DRAM
                    bypassed                    it does not
             error  demoted*
        Get  Ok     dramHit
                    ssdHit demoted* promoted?
             error  missed                      the answer was NotFound
                    (nothing)                   any other answer

    The caller keeps a tally of the replies alone. Every event moves the counters of the node, the logs of
    its tiers and, through the reply, the tally in step, so the balance between the three holds after every
    call. -/

namespace TidePool.Store
open Schemes EvictionPolicy

namespace StorageNode

variable {τ π : Type} [Tier τ]

/-! ### Whole calls -/

/-- The events of a data call with this reply, on a node whose DRAM tier has this capacity. -/
inductive Outcome (capacity : UInt64) : NodeCall → NodeReply → List Event → Prop
  | stored {k : BlockKey} {b : Block} {ds : List Block}
      (fits : ¬ (capacity ≠ 0 ∧ b.sizeBytes > capacity.toNat)) :
      Outcome capacity (.put k b) (.status (.ok ())) (ds.map .demoted ++ [.stored b])
  | bypassed {k : BlockKey} {b : Block} (large : capacity ≠ 0 ∧ b.sizeBytes > capacity.toNat) :
      Outcome capacity (.put k b) (.status (.ok ())) [.bypassed b]
  | refused {k : BlockKey} {b : Block} {s : Status} {ds : List Block} :
      Outcome capacity (.put k b) (.status (.error s)) (ds.map .demoted)
  | dramHit {k : BlockKey} {dst : MutableBuffer} {out : Option BlockView} {view : BlockView} :
      Outcome capacity (.get k dst out) (.view (.ok ()) (some view)) [.dramHit view.size]
  | ssdHit {k : BlockKey} {dst : MutableBuffer} {out : Option BlockView} {view : BlockView}
      {ds : List Block} :
      Outcome capacity (.get k dst out) (.view (.ok ()) (some view)) (.ssdHit view.size :: ds.map .demoted)
  | promoted {k : BlockKey} {dst : MutableBuffer} {out : Option BlockView} {view : BlockView}
      {ds : List Block} {b : Block} : Outcome capacity (.get k dst out) (.view (.ok ()) (some view))
        (.ssdHit view.size :: (ds.map .demoted ++ [.promoted b]))
  | missed {k : BlockKey} {dst : MutableBuffer} {out out' : Option BlockView} {s : Status}
      (absent : s.code = .notFound) : Outcome capacity (.get k dst out) (.view (.error s) out') [.missed]
  | failed {k : BlockKey} {dst : MutableBuffer} {out out' : Option BlockView} {s : Status}
      (other : s.code ≠ .notFound) : Outcome capacity (.get k dst out) (.view (.error s) out') []
  | probed {k : BlockKey} {r : Result BlockInfo} : Outcome capacity (.probe k) (.info r) []
  | asked {k : BlockKey} {r : Result Bool} : Outcome capacity (.contains k) (.present r) []

section Steady

open PolicyView LawfulPolicy

variable [LawfulPolicy π] {n n' : StorageNode (Logged τ) π}

/-- Between calls, with a policy that takes every insert and memory to spare. -/
structure Steady (n : StorageNode (Logged τ) π) : Prop where
  fronted : Fronted n
  policy : ∃ p, n.eviction = some p ∧ Free p ∧ Reliable p
  allocs : ∀ i, n.allocs.get i = true

/-- What the policy is told of a new key, it accepts. -/
theorem Steady.inserts (h : Steady n) {ins : π → Except Halt (Result Unit × π)} {k : BlockKey}
    (hlaw : ∀ p, Wf p → reserved p = none → Inserts p k (ins p)) (p : π) (hp : n.eviction = some p)
    (r : Result Unit) (p' : π) (hres : ins p = .ok (r, p')) : r = .ok () := by
  obtain ⟨q, hq, hfree, hreliable⟩ := h.policy
  obtain rfl := Option.some.inj (hp.symm.trans hq)
  exact (hlaw p hfree.wf hfree.idle).ok_of_reliable hreliable hres

/-- Only counters, index and tiers moved. -/
theorem Steady.carried (h : Steady n) {hot cold : List Block} {g : StorageNodeStats → StorageNodeStats}
    (hc : Carries hot cold g n n') (hp : n'.eviction = n.eviction) : Steady n' :=
  ⟨h.fronted.carried hc, hp ▸ h.policy, hc.allocs h.allocs⟩

variable [CountsPuts τ]

/-- Making room demotes blocks and leaves a node that is as steady as before. -/
theorem Steady.room (h : Steady n) (incoming : ℕ) (ex : Option BlockKey) :
    Yields False (n.makeDramRoomForLocked incoming ex) fun res =>
      Steady res.2 ∧ ∃ ds : List Block, Happened (ds.map .demoted) n res.2 := by
  refine ((makeDramRoomForLocked_happened h.fronted incoming ex).and
    (n.makeDramRoomForLocked_steers incoming ex)).mono ?_
  rintro ⟨r, n'⟩ ⟨⟨ds, hds⟩, vs, hvs⟩
  obtain ⟨p, hp, hfree, hreliable⟩ := h.policy
  obtain ⟨p', hp', hsheds⟩ := hvs.policy p hp
  exact ⟨⟨h.fronted.carried hds, ⟨p', hp', hsheds.reliable hfree hreliable⟩, hds.allocs h.allocs⟩, ds, hds⟩

/-- PUT: room is made and the block stored, or it goes past DRAM, or the `Put` fails, perhaps after some
    demotions. -/
theorem put_outcome (h : Steady n) {hot : Logged τ} (hhot : n.tiers.head? = some (some hot)) (k : BlockKey)
    (b : Block) : Yields False (n.put k b) fun res =>
      ∃ es, Happened es n res.2 ∧ Outcome (Tier.stats hot).capacityBytes (.put k b) (.status res.1) es := by
  have hdram : Tier.type hot = .dram := by
    obtain ⟨a, c, htiers, ha, -⟩ := h.fronted
    rw [htiers] at hhot
    cases hhot
    exact ha
  unfold put
  split
  · exact ⟨([] : List Block).map .demoted, Quiet.refl n, .refused⟩
  simp only [hhot, hdram, ne_eq, not_true_eq_false, if_false, h.fronted.ssd]
  split
  · rename_i hlarge
    refine (n.putOversizedLocked_stored k b _).mono ?_
    rintro ⟨r, n'⟩ (⟨rfl, hb⟩ | ⟨⟨s, rfl⟩, hquiet⟩)
    · exact ⟨_, hb, .bypassed hlarge⟩
    · exact ⟨([] : List Block).map .demoted, hquiet, .refused⟩
  · rename_i hfits
    refine (h.room b.sizeBytes _).bind ?_
    rintro ⟨room, n₁⟩ ⟨h₁, ds, hds⟩
    cases room with
    | error s => exact ⟨_, hds, .refused⟩
    | ok _ =>
      refine (n₁.putHot_stored k b h₁.allocs (h₁.inserts (insert_law · k _)) _).mono ?_
      rintro ⟨r, n'⟩ (⟨rfl, hb⟩ | ⟨⟨s, rfl⟩, hquiet⟩)
      · exact ⟨_, Happened.trans hds hb, .stored hfits⟩
      · exact ⟨_, hds.before hquiet, .refused⟩

/-- A promotion: some demotions, and then the block may be stored in DRAM. -/
theorem tryPromoteToDramLocked_happened (h : Steady n) (k : BlockKey) (view : BlockView) :
    Yields False (n.tryPromoteToDramLocked k view) fun n' => ∃ ds : List Block,
      Happened (ds.map .demoted) n n' ∨ ∃ b, Happened (ds.map .demoted ++ [.promoted b]) n n' := by
  have hstay : ∀ {n' : StorageNode (Logged τ) π}, Quiet n n' → ∃ ds : List Block,
      Happened (ds.map .demoted) n n' ∨ ∃ b, Happened (ds.map .demoted ++ [.promoted b]) n n' :=
    fun hq => ⟨[], .inl hq⟩
  unfold tryPromoteToDramLocked
  rw [h.fronted.dram]
  split
  · exact .ok (hstay (.refl n))
  · exact .ok (hstay (.refl n))
  rename_i dram p hdram hp
  obtain rfl := Option.some.inj hdram
  refine (Yields.trivial _).bind fun stats _ => ?_
  split
  · exact .ok (hstay (.refl n))
  split
  · exact .ok (hstay (.refl n))
  refine ((n.callTier_quiet 0 fun t => t.moved_probe k).and (n.callTier_apart 0 _)).bind ?_
  rintro ⟨already, n₁⟩ ⟨h₁, hapart⟩
  dsimp only
  split
  · exact .ok (hstay h₁)
  have hdrawn : Quiet n n₁.drawn := h₁.before (quiet_drawn n₁)
  split
  · exact .ok (hstay hdrawn)
  refine ((h.carried hdrawn hapart.policy).room view.size none).bind ?_
  rintro ⟨room, n₂⟩ ⟨h₂, ds, hds⟩
  have hroom := hds.after hdrawn
  cases room with
  | error s => exact .ok ⟨ds, .inl hroom⟩
  | ok _ =>
    refine (n₂.promoteInto_stored k _ (h₂.inserts (promote_law · k _))).mono ?_
    rintro n' (hb | hquiet)
    · exact ⟨ds, .inr ⟨_, Happened.trans hroom hb⟩⟩
    · exact ⟨ds, .inl (hroom.before hquiet)⟩

/-- GET: a hit, perhaps with a promotion, or a miss, or a failure that is not counted. -/
theorem get_outcome (h : Steady n) (capacity : UInt64) (k : BlockKey) (dst : MutableBuffer)
    (out : Option BlockView) : Yields False (n.get k dst out) fun res =>
      ∃ es, Happened es n res.2.2 ∧ Outcome capacity (.get k dst out) (.view res.1 res.2.1) es := by
  unfold get
  split
  · exact ⟨[], Quiet.refl n, .failed (by simp [Status.unavailable])⟩
  cases hloc : n.index.at? k with
  | none =>
    rw [show n.index.find k = .error (.notFound k.toText) by simp [LocalIndex.find, hloc]]
    exact .ok ⟨[.missed], (Quiet.refl n).counted rfl rfl rfl, .missed rfl⟩
  | some loc =>
    rw [show n.index.find k = .ok loc by simp [LocalIndex.find, hloc]]
    dsimp only
    split
    · exact ⟨[], Quiet.refl n, .failed (by simp [Status.internal])⟩
    refine ((n.callTier_quiet _ fun t => t.moved_fetch k dst _).and (n.callTier_apart _ _)).bind ?_
    rintro ⟨⟨fetched, view⟩, n₁⟩ ⟨h₁, hapart⟩
    cases fetched with
    | error s =>
      dsimp only
      by_cases hs : s.code = .notFound
      · rw [if_pos hs]
        exact .ok ⟨[.missed], h₁.counted rfl rfl rfl, .missed hs⟩
      · rw [if_neg hs]
        exact .ok ⟨[], h₁, .failed hs⟩
    | ok _ =>
      cases view with
      | none => exact not_false
      | some view =>
        dsimp only
        by_cases htier : loc.tier = .dram
        · rw [if_pos htier]
          refine (policyOnAccess_quiet _ k).bind fun n₂ h₂ => .ok ⟨[.dramHit view.size], ?_, .dramHit⟩
          refine Carries.before ?_ h₂
          exact h₁.counted rfl rfl rfl
        · rw [if_neg htier]
          let n₂ : StorageNode (Logged τ) π := { n₁ with stats := Event.count n₁.stats (.ssdHit view.size) }
          have hhit : Happened [.ssdHit view.size] n n₂ := h₁.counted rfl rfl rfl
          refine (tryPromoteToDramLocked_happened (h.carried hhit hapart.policy) k view).bind ?_
          rintro n₃ ⟨ds, h₃ | ⟨b, h₃⟩⟩
          · exact .ok ⟨_, Happened.trans hhit h₃, .ssdHit⟩
          · exact .ok ⟨_, Happened.trans hhit h₃, .promoted⟩

/-- CALL: what happened in a data call, and what it answered. -/
theorem step_outcome (h : Steady n) {hot : Logged τ} (hhot : n.tiers.head? = some (some hot)) {c : NodeCall}
    (hc : c.isData = true) : Yields False (n.step c) fun res =>
      ∃ es, Happened es n res.2 ∧ Outcome (Tier.stats hot).capacityBytes c res.1 es := by
  cases c with
  | openNode env => cases hc
  | closeNode => cases hc
  | put k b =>
    refine (put_outcome h hhot k b).map ?_
    rintro ⟨r, n'⟩ h
    exact h
  | get k dst out =>
    refine (get_outcome h (Tier.stats hot).capacityBytes k dst out).map ?_
    rintro ⟨r, view, n'⟩ h
    exact h
  | probe k =>
    refine (n.probe_quiet k).map ?_
    rintro ⟨r, n'⟩ h
    exact ⟨[], h, .probed⟩
  | contains k => exact ⟨[], Quiet.refl n, .asked⟩

end Steady

end StorageNode

/-! ### The caller's tally -/

/-- The bytes of some blocks. -/
def totalSize : List Block → ℕ
  | [] => 0
  | b :: bs => b.sizeBytes + totalSize bs

theorem totalSize_append : ∀ as bs : List Block, totalSize (as ++ bs) = totalSize as + totalSize bs
  | [], bs => (Nat.zero_add _).symm
  | a :: as, bs => by simp only [List.cons_append, totalSize, totalSize_append as bs, Nat.add_assoc]

/-- What a caller can count from the replies: `Get`s that returned `Ok` and the bytes they returned,
    `Get`s that returned `NotFound`, `Put`s that returned `Ok` and, of their blocks, those too large for
    DRAM. -/
structure Tally where
  hits : ℕ := 0
  returned : ℕ := 0
  notFound : ℕ := 0
  puts : ℕ := 0
  oversized : List Block := []

/-- The tally after one more call. -/
def Tally.record (capacity : UInt64) (t : Tally) : NodeCall → NodeReply → Tally
  | .put _ b, .status (.ok ()) => { t with
      puts := t.puts + 1
      oversized := if capacity ≠ 0 ∧ b.sizeBytes > capacity.toNat then t.oversized ++ [b] else t.oversized }
  | .get _ _ _, .view (.ok ()) (some view) =>
    { t with hits := t.hits + 1, returned := t.returned + view.size }
  | .get _ _ _, .view (.error s) _ => { t with notFound := t.notFound + if s.code = .notFound then 1 else 0 }
  | _, _ => t

/-! ### The balance -/

/-- What a node and its tiers show: the counters, the `Put`s that the tiers have counted, and the blocks that
    each has accepted. -/
structure Books where
  stats : StorageNodeStats
  puts : ℕ
  dram : List Block
  ssd : List Block

/-- The books of a node with these counters and tiers. -/
def booksOf {τ : Type} [Tier τ] (stats : StorageNodeStats) (dram ssd : Logged τ) : Books where
  stats := stats
  puts := (Tier.stats dram).putCount + (Tier.stats ssd).putCount
  dram := dram.puts
  ssd := ssd.puts

/-- The counters, the tally and the logs agree; the blocks that the disk has accepted are the oversized ones
    of the tally and the demoted ones. -/
structure Balanced (t : Tally) (x : Books) : Prop where
  hits : x.stats.dramHits + x.stats.ssdHits = t.hits
  misses : x.stats.misses = t.notFound
  puts : x.puts = t.puts + x.stats.promotions + x.stats.demotions
  bytesWritten : x.stats.bytesWritten = totalSize x.dram + totalSize x.ssd
  bytesRead : ∃ demoted, x.ssd.Perm (t.oversized ++ demoted) ∧ demoted.length = x.stats.demotions ∧
    x.stats.bytesRead = t.returned + totalSize demoted

/-- The books after an event. -/
def Books.enter (x : Books) (e : Event) : Books where
  stats := Event.count x.stats e
  puts := x.puts + e.hot.toList.length + e.cold.toList.length
  dram := x.dram ++ e.hot.toList
  ssd := x.ssd ++ e.cold.toList

/-- The part of the tally that an event is responsible for. -/
def Tally.note (t : Tally) : Event → Tally
  | .dramHit bytes | .ssdHit bytes => { t with hits := t.hits + 1, returned := t.returned + bytes }
  | .missed => { t with notFound := t.notFound + 1 }
  | .stored _ => { t with puts := t.puts + 1 }
  | .bypassed b => { t with puts := t.puts + 1, oversized := t.oversized ++ [b] }
  | .demoted _ | .promoted _ => t

/-- EVENT: every event keeps the balance. -/
theorem Balanced.enter {t : Tally} {x : Books} (h : Balanced t x) (e : Event) :
    Balanced (t.note e) (x.enter e) where
  hits := by
    have := h.hits
    cases e <;> simp only [Books.enter, Event.count, Tally.note] <;> omega
  misses := by
    have := h.misses
    cases e <;> simp only [Books.enter, Event.count, Tally.note] <;> omega
  puts := by
    have := h.puts
    cases e <;> simp only [Books.enter, Event.count, Tally.note, Event.hot, Event.cold, Option.toList_some,
      Option.toList_none, List.length_cons, List.length_nil] <;> omega
  bytesWritten := by
    have := h.bytesWritten
    cases e <;> simp only [Books.enter, Event.count, Event.hot, Event.cold, Option.toList_some,
      Option.toList_none, totalSize_append, totalSize] <;> omega
  bytesRead := by
    obtain ⟨demoted, hperm, hlength, hread⟩ := h.bytesRead
    have hsame : (x.ssd ++ []).Perm (t.oversized ++ demoted) := by rwa [List.append_nil]
    cases e with
    | demoted b =>
      refine ⟨demoted ++ [b], ?_, ?_, ?_⟩
      · rw [← List.append_assoc]
        exact hperm.append_right [b]
      · simp only [Books.enter, Event.count, List.length_append, List.length_cons, List.length_nil]
        omega
      · simp only [Books.enter, Event.count, Tally.note, totalSize_append, totalSize]
        omega
    | bypassed b =>
      refine ⟨demoted, ?_, hlength, hread⟩
      show (x.ssd ++ [b]).Perm (t.oversized ++ [b] ++ demoted)
      refine (hperm.append_right [b]).trans ?_
      rw [List.append_assoc, List.append_assoc]
      exact List.perm_append_comm.append_left t.oversized
    | dramHit bytes =>
      refine ⟨demoted, hsame, hlength, ?_⟩
      simp only [Books.enter, Event.count, Tally.note]
      omega
    | ssdHit bytes =>
      refine ⟨demoted, hsame, hlength, ?_⟩
      simp only [Books.enter, Event.count, Tally.note]
      omega
    | missed => exact ⟨demoted, hsame, hlength, hread⟩
    | promoted b => exact ⟨demoted, hsame, hlength, hread⟩
    | stored b => exact ⟨demoted, hsame, hlength, hread⟩

/-- And so does a word of events. -/
theorem Balanced.enter_all {x : Books} {t : Tally} (h : Balanced t x) (es : List Event) :
    Balanced (es.foldl Tally.note t) (es.foldl Books.enter x) := by
  induction es generalizing x t with
  | nil => exact h
  | cons e es ih => exact ih (h.enter e)

/-- The books after a word of events are those that its tiers and counters show. -/
theorem foldl_enter (es : List Event) (x : Books) : es.foldl Books.enter x =
    { stats := es.foldl Event.count x.stats
      puts := x.puts + (es.filterMap Event.hot).length + (es.filterMap Event.cold).length
      dram := x.dram ++ es.filterMap Event.hot
      ssd := x.ssd ++ es.filterMap Event.cold } := by
  induction es generalizing x with
  | nil => simp
  | cons e es ih =>
    rw [List.foldl_cons, ih]
    cases e <;> simp [Books.enter, List.filterMap_cons, Event.hot, Event.cold] <;> omega

/-- Demotions leave the tally alone. -/
theorem foldl_note_demoted (ds : List Block) (t : Tally) : (ds.map Event.demoted).foldl Tally.note t = t := by
  induction ds with
  | nil => rfl
  | cons d ds ih => exact ih

/-- REPLY: the reply of a call tells what its events do to the tally. -/
theorem record_eq {capacity : UInt64} {c : NodeCall} {o : NodeReply} {es : List Event}
    (h : StorageNode.Outcome capacity c o es) (t : Tally) :
    t.record capacity c o = es.foldl Tally.note t := by
  cases h with
  | stored fits => simp only [Tally.record, List.foldl_append, foldl_note_demoted, if_neg fits]; rfl
  | bypassed large => simp only [Tally.record, if_pos large]; rfl
  | refused => exact (foldl_note_demoted _ t).symm
  | dramHit => rfl
  | ssdHit => exact (foldl_note_demoted _ (t.note (.ssdHit _))).symm
  | promoted => simp only [List.foldl_cons, List.foldl_append, foldl_note_demoted]; rfl
  | missed absent => simp only [Tally.record, if_pos absent]; rfl
  | failed other => simp only [Tally.record, if_neg other]; rfl
  | probed => rfl
  | asked => rfl

section Step

variable {τ : Type} [Tier τ] {dram dram' ssd ssd' : Logged τ}

/-- The books of moved tiers. -/
theorem booksOf_moved {es : List Event} (stats : StorageNodeStats)
    (hdram : dram.Moved (es.filterMap Event.hot) dram')
    (hssd : ssd.Moved (es.filterMap Event.cold) ssd') :
    booksOf (es.foldl Event.count stats) dram' ssd' = es.foldl Books.enter (booksOf stats dram ssd) := by
  rw [foldl_enter, booksOf, booksOf, hdram.puts, hssd.puts, hdram.putCount, hssd.putCount]
  simp only [Books.mk.injEq, true_and, and_true]
  omega

end Step

/-! ### Runs -/

namespace TwoTier

variable {π : Type} [LawfulPolicy π] {x y : TwoTier SsdTier π}

/-- A logged node over the tiers of `x`, in balance with the caller's tally. -/
structure Accounts (x : TwoTier SsdTier π) (m : StorageNode (Logged (DramTier ⊕ SsdTier)) π) (t : Tally) :
    Prop where
  node : m.mapTiers Logged.tier = x.node
  balanced : ∃ dram ssd, m.tiers = [some dram, some ssd] ∧ Balanced t (booksOf m.stats dram ssd)

omit [LawfulPolicy π] in
/-- The tiers of a logged node are those it logs. -/
theorem Accounts.tiers {m : StorageNode (Logged (DramTier ⊕ SsdTier)) π}
    {dram ssd : Logged (DramTier ⊕ SsdTier)}
    (h : m.mapTiers Logged.tier = x.node) (htiers : m.tiers = [some dram, some ssd]) :
    dram.tier = .inl x.dram ∧ ssd.tier = .inr x.ssd := by
  have heq : [some dram.tier, some ssd.tier] = [some (.inl x.dram), some (.inr x.ssd)] := by
    have := congrArg StorageNode.tiers h
    rwa [StorageNode.tiers_mapTiers, htiers] at this
  simpa using heq

theorem Accounts.steady {m : StorageNode (Logged (DramTier ⊕ SsdTier)) π} {t : Tally} (h : x.Accounts m t)
    (ht : x.Tracked) (hc : x.Calm) : m.Steady := by
  obtain ⟨dram, ssd, htiers, -⟩ := h.balanced
  obtain ⟨hdram, hssd⟩ := Accounts.tiers h.node htiers
  have hpolicy : m.eviction = x.policy := congrArg StorageNode.eviction h.node
  have hallocs : m.allocs = x.allocs := congrArg StorageNode.allocs h.node
  obtain ⟨p, hp⟩ := ht.by
  refine ⟨⟨dram, ssd, htiers, ?_, ?_⟩, ⟨p, hpolicy.trans hp.policy, hp.free, hc.policy p hp.policy⟩,
    hallocs ▸ hc.node⟩
  · show Tier.type dram.tier = .dram
    rw [hdram]; rfl
  · show Tier.type ssd.tier = .ssd
    rw [hssd]; rfl

/-- STEP: a data call on the logged node is that on the plain one, and keeps the balance. -/
theorem Accounts.step {m : StorageNode (Logged (DramTier ⊕ SsdTier)) π} {t : Tally} (h : x.Accounts m t)
    (hx : x.Coherent) (hready : x.ready = true) (ht : x.Tracked) (hc : x.Calm) {c : NodeCall}
    (hdata : c.isData = true) : ∃ o m' y, m.step c = .ok (o, m') ∧ x.Follows y ∧
      y.Accounts m' (t.record x.dram.stats.capacityBytes c o) := by
  obtain ⟨⟨o, n'⟩, hstep, y, rfl, hfollow, -⟩ := (serve_spec hx hready hdata).answer ht
  rw [← h.node, m.step_mapTiers Logged.mirrors hdata] at hstep
  cases hm : m.step c with
  | error e => rw [hm] at hstep; cases hstep
  | ok res =>
    obtain ⟨o', m'⟩ := res
    rw [hm] at hstep
    obtain ⟨rfl, hnode⟩ := Prod.mk.inj (Except.ok.inj hstep)
    obtain ⟨dram, ssd, htiers, hbalanced⟩ := h.balanced
    obtain ⟨es, hes, hout⟩ := (StorageNode.step_outcome (h.steady ht hc) (by rw [htiers]; rfl) hdata).of_ok hm
    obtain ⟨dram', ssd', htiers', hdram', hssd'⟩ := hes.tiers dram ssd htiers
    refine ⟨o', m', y, rfl, hfollow, hnode, dram', ssd', htiers', ?_⟩
    have hcapacity : (Tier.stats dram).capacityBytes = x.dram.stats.capacityBytes := by
      show (Tier.stats dram.tier).capacityBytes = _
      rw [(Accounts.tiers h.node htiers).1]; rfl
    rw [← hcapacity, record_eq hout, hes.stats, booksOf_moved _ hdram' hssd']
    exact hbalanced.enter_all es

end TwoTier

/-- A tier that is watched from now on. -/
def watched {τ : Type} (t : τ) : Logged τ := { tier := t }

section Fresh

variable {id : String} {capacity : UInt64} {ssd : SsdTier} {choice : PolicyChoice}
    {openEnv : StorageNode.OpenEnv}
  {n : StorageNode (DramTier ⊕ SsdTier) Policy}

/-- A node over a closed disk tier opens only if every record is readable. -/
theorem readable_of_open (hclosed : ssd.opened = false)
    (hopen : (TwoTier.fresh id capacity ssd choice {}).node.openNode openEnv = (.ok (), n)) :
    SsdTier.Readable ssd.db := by
  rcases SsdTier.openTier_cases hclosed with ⟨st, s', hfail, -⟩ | ⟨s', -, -, -, -, hr⟩
  · have htiers := TwoTier.openTiers_node (x := TwoTier.fresh id capacity ssd choice {}) hfail (by rintro ⟨⟩)
    have hready : (TwoTier.fresh id capacity ssd choice {}).node.ready = false := rfl
    have hsome : (TwoTier.fresh id capacity ssd choice {}).node.tiers.isEmpty = false := rfl
    simp only [StorageNode.openNode, hready, hsome, htiers, Bool.false_eq_true, if_false,
      StorageNode.openFailed] at hopen
    cases (Prod.mk.inj hopen).1
  · exact hr

/-- A fresh node, just opened and watched: nothing is in the books. -/
theorem accounts_of_open (hclosed : ssd.opened = false)
    (hopen : (TwoTier.fresh id capacity ssd choice {}).node.openNode openEnv = (.ok (), n)) :
    ∃ x : TwoTier SsdTier Policy, n = x.node ∧ x.Coherent ∧ x.ready = true ∧ x.Tracked ∧ x.Calm ∧
      x.dram.stats.capacityBytes = capacity ∧ x.Accounts (n.mapTiers watched) {} := by
  have hreadable := readable_of_open hclosed hopen
  obtain ⟨r, ssd', index, ready, heq, -, hrest⟩ :=
    TwoTier.openNode_spec (TwoTier.fresh id capacity ssd choice {}) rfl hreadable openEnv
  rw [hopen] at heq
  obtain ⟨rfl, rfl⟩ := Prod.mk.inj heq
  obtain ⟨rfl, hwf, hopened, hindex⟩ := hrest
  have hcount : ssd'.stats.putCount = 0 := by
    rcases SsdTier.openTier_cases hclosed with ⟨st, s', hfail, -⟩ | ⟨s', hok, -, hstats, -⟩
    · cases hfail.symm.trans hopened
    · obtain ⟨-, rfl⟩ := Prod.mk.inj (hok.symm.trans hopened)
      rw [hstats]; rfl
  have hsound : (TwoTier.fresh id capacity ssd choice {}).Sound := TwoTier.start_sound
  refine ⟨_, rfl, ⟨⟨hsound.accounted, hsound.bounded⟩, hwf, hindex⟩, rfl,
    TwoTier.tracked_of_empty rfl rfl (choice.make_law {}), TwoTier.calm_of_fresh rfl rfl rfl, rfl, rfl,
    watched (.inl (DramTier.make capacity)), watched (.inr ssd'), rfl, ?_⟩
  refine ⟨rfl, rfl, ?_, rfl, [], .refl _, rfl, rfl⟩
  show 0 + ssd'.stats.putCount = 0
  rw [hcount]

end Fresh

/-- CONSERVATION: on a fresh node over DRAM and any disk, with either policy, every run of data calls returns
    and leaves the counters in balance with the replies and with the `Put`s that the tiers accepted. The node
    whose tiers are watched runs as the node itself does. -/
theorem traffic_conserved (id : String) (capacity : UInt64) (ssd : SsdTier) (choice : PolicyChoice)
    (openEnv : StorageNode.OpenEnv) (n : StorageNode (DramTier ⊕ SsdTier) Policy)
    (hclosed : ssd.opened = false)
    (hopen : (TwoTier.fresh id capacity ssd choice {}).node.openNode openEnv = (.ok (), n))
    (calls : List NodeCall) (hcalls : ∀ c ∈ calls, c.isData = true) :
    ∃ replies m dram disk, run StorageNode.step (n.mapTiers watched) calls = .ok (replies, m) ∧
      run StorageNode.step n calls = .ok (replies, m.mapTiers Logged.tier) ∧
      m.tiers = [some dram, some disk] ∧
      Balanced (follow (Tally.record capacity) {} calls replies) (booksOf m.stats dram disk) := by
  obtain ⟨x, rfl, hx, hready, htracked, hcalm, hcapacity, haccounts⟩ := accounts_of_open hclosed hopen
  have hstep : ∀ (m : StorageNode (Logged (DramTier ⊕ SsdTier)) Policy) (t : Tally) (c : NodeCall),
      c.isData = true → (∃ y, x.Follows y ∧ y.Accounts m t) → Yields True (m.step c) fun res =>
        (∃ y, x.Follows y ∧ y.Accounts res.2 (t.record capacity c res.1)) ∧ True := by
    rintro m t c hdata ⟨y, hfollow, hy⟩
    obtain ⟨o, m', z, hm, hfollow', hz⟩ := hy.step hfollow.coherent (hfollow.ready.trans hready)
      (hfollow.tracked htracked) (hfollow.calm htracked hcalm) hdata
    rw [hfollow.capacity, hcapacity] at hz
    rw [hm]
    exact ⟨⟨z, hfollow.trans hfollow', hz⟩, trivial⟩
  have hrun := run_yields (C := fun _ c => c.isData = true) (Tally.record capacity) _ (fun _ => True) hstep
    (along_of_forall (x.node.mapTiers watched) hcalls) ⟨x, .refl hx, haccounts⟩
  obtain ⟨⟨replies, m⟩, heq, ⟨y, -, hy⟩, -⟩ := hrun.answer trivial
  obtain ⟨dram, disk, htiers, hbalanced⟩ := hy.balanced
  refine ⟨replies, m, dram, disk, heq, ?_, htiers, hbalanced⟩
  have hmirror := (x.node.mapTiers watched).run_mapTiers Logged.mirrors hcalls
  rw [heq, haccounts.node] at hmirror
  exact hmirror

/-- One byte of DRAM: the second `Put` demotes the first block, the first `Get` promotes it and demotes
    the other. -/
def narrowTraffic : List NodeCall :=
  [.put ⟨1, 1, 7⟩ (oneByte 1), .put ⟨2, 1, 7⟩ (oneByte 1), .get ⟨1, 1, 7⟩ ⟨true, 1⟩ (some {}),
    .get ⟨3, 1, 7⟩ ⟨true, 1⟩ (some {})]

theorem traffic_conserved_narrow :
    ∃ replies m dram disk, run StorageNode.step (narrow.mapTiers watched) narrowTraffic = .ok (replies, m) ∧
      m.tiers = [some dram, some disk] ∧
      Balanced (follow (Tally.record 1) {} narrowTraffic replies) (booksOf m.stats dram disk) ∧
      m.stats.ssdHits = 1 ∧ m.stats.misses = 1 ∧ m.stats.promotions = 1 ∧ m.stats.demotions = 2 := by
  obtain ⟨replies, m, dram, disk, hrun, -, htiers, hbalanced⟩ :=
    traffic_conserved "n" 1 (SsdTier.fresh {}) .lru {}
    narrow rfl rfl narrowTraffic (by simp [narrowTraffic, NodeCall.isData])
  refine ⟨replies, m, dram, disk, hrun, htiers, hbalanced, ?_⟩
  cases hrun
  exact ⟨rfl, rfl, rfl, rfl⟩

end TidePool.Store
