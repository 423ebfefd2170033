import TidePool.Store.PolicyTrace
import TidePool.Store.Refinement

/-! The bounds of adaptive replacement, under a node that admits by bytes.

    ARC promises |T1| + |B1| ≤ c and |T1| + |T2| + |B1| + |B2| ≤ 2c, but the policy never looks at how many
    blocks are resident: an insert trims one ghost when |T1| + |B1| = c and, below that, when the total has
    reached 2c. Past c it trims nothing.

        commit, use of a known key     the total stays, |T1| + |B1| does not grow
        insert of a new key            both may grow by one, unless a ghost is trimmed

    As long as DRAM holds at most c blocks, the trim is always enough (`Bounded.onInsert`). The call that
    takes it past c leaves as many ghosts as there were; it is the calls after it that do the damage. With
    blocks of one size s and c * s ≤ capacity < (c + 1) * s the byte budget alone keeps DRAM at c blocks;
    with blocks of mixed sizes more than c small ones fit, and when a large one pushes them out, all of
    them become ghosts. -/

namespace TidePool.Store

open Schemes EvictionPolicy

namespace ArcEviction

variable {a a₁ a₂ a' : ArcEviction} {k v : BlockKey} {c : ℕ}

/-- The bounds on ghosts, for the budget `c`. -/
structure Bounded (c : ℕ) (a : ArcEviction) : Prop where
  budget : a.c = c
  recent : (a.lists .t1).length + (a.lists .b1).length ≤ c
  total : (a.lists .t1).length + (a.lists .t2).length + (a.lists .b1).length + (a.lists .b2).length ≤ 2 * c

theorem bounded_make (hc : 1 ≤ c) (allocs : Stream' Bool) : Bounded c (make c allocs) where
  budget := if_neg (by omega)
  recent := Nat.zero_le _
  total := Nat.zero_le _

theorem Bounded.shrink (h : Bounded c a) (hc : a'.c = a.c)
    (hle : ∀ l, (a'.lists l).length ≤ (a.lists l).length) : Bounded c a' := by
  have h1 := hle .t1
  have h2 := hle .t2
  have h3 := hle .b1
  have h4 := hle .b2
  have hrecent := h.recent
  have htotal := h.total
  exact ⟨hc.trans h.budget, by omega, by omega⟩

/-! ### Moving a known key -/

/-- A moved key is counted in its new list instead of its old one. -/
theorem length_moved {lists : ArcList → List BlockKey} {src : ArcList} (hk : k ∈ lists src)
    (dst l : ArcList) :
    (moved lists k src dst l).length + (if l = src then 1 else 0) =
      (lists l).length + (if l = dst then 1 else 0) := by
  have hpos := List.length_pos_of_mem hk
  have herase := List.length_erase_of_mem hk
  by_cases hsrc : l = src
  · subst hsrc
    by_cases hdst : l = dst
    · subst hdst
      rw [moved_self, List.length_cons, herase]
      simp only [if_true]
      omega
    · rw [moved_src hdst, herase, if_pos rfl, if_neg hdst]
      omega
  · by_cases hdst : l = dst
    · subst hdst
      rw [moved_dst (Ne.symm hsrc), List.length_cons, if_neg hsrc, if_pos rfl]
    · rw [moved_other hsrc hdst, if_neg hsrc, if_neg hdst]

/-- A move that does not add to T1 or B1 from outside keeps the bounds. -/
theorem Bounded.move (h : Bounded c a) {src dst : ArcList} (hk : k ∈ a.lists src) (hc : a'.c = a.c)
    (hlists : a'.lists = moved a.lists k src dst) (hdst : dst = .t2 ∨ dst = ghostOf src) : Bounded c a' := by
  have hlen := length_moved hk dst
  rw [← hlists] at hlen
  have h1 := hlen .t1
  have h2 := hlen .t2
  have h3 := hlen .b1
  have h4 := hlen .b2
  have hrecent := h.recent
  have htotal := h.total
  refine ⟨hc.trans h.budget, ?_, ?_⟩
  all_goals
    rcases hdst with rfl | rfl <;> cases src <;> simp [ghostOf] at h1 h2 h3 h4 <;> omega

theorem useKnown_eq {l : ArcList} (hk : a.pos.lookup k = some l) (heq : a.useKnown k l = .ok a') :
    a'.c = a.c ∧ a'.lists = moved a.lists k l .t2 := by
  cases l with
  | t1 | t2 =>
    rw [useKnown, relink_eq hk] at heq
    exact Except.ok.inj heq ▸ ⟨rfl, rfl⟩
  | b1 | b2 =>
    rw [useKnown, relink_eq (by exact hk)] at heq
    exact Except.ok.inj heq ▸ ⟨rfl, rfl⟩

theorem Bounded.useKnown (h : Bounded c a) (hwf : a.WellFormed) {l : ArcList} (hk : a.pos.lookup k = some l)
    (heq : a.useKnown k l = .ok a') : Bounded c a' := by
  obtain ⟨hc, hlists⟩ := useKnown_eq hk heq
  exact h.move ((hwf.linked.pos k l).mp hk) hc hlists (.inl rfl)

theorem Bounded.onAccess (h : Bounded c a) (hwf : a.WellFormed) (heq : a.onAccess k = .ok a') :
    Bounded c a' := by
  rw [ArcEviction.onAccess] at heq
  cases hk : a.pos.lookup k with
  | none =>
    rw [hk] at heq
    exact Except.ok.inj heq ▸ ⟨h.budget, h.recent, h.total⟩
  | some l =>
    simp only [hk] at heq
    split at heq
    · exact Except.ok.inj heq ▸ h
    · exact h.useKnown hwf hk heq

/-! ### Victims -/

theorem Bounded.commit (h : Bounded c a) (hwf : a.WellFormed) (hfree : a.reserved = none)
    {ex : Option BlockKey}
    (hsel : a.selectVictim ex = (.ok v, a₁)) (hcommit : a₁.commitVictim v = .ok a₂) : Bounded c a₂ := by
  rcases selectVictim_cases hfree ex with ⟨s, heq, -⟩ | ⟨w, src, heq, hsrc, hmem, -⟩
  · cases (Prod.mk.inj (hsel.symm.trans heq)).1
  · obtain ⟨hv, rfl⟩ := Prod.mk.inj (hsel.symm.trans heq)
    obtain rfl := Except.ok.inj hv
    have hwf₁ : WellFormed { a with reserved := some (v, src) } := by
      refine ⟨hwf.linked, ?_, hwf.p_nonneg, hwf.p_le⟩
      rintro j l ⟨⟩
      exact ⟨hsrc, hmem⟩
    rw [commitVictim_eq hwf₁ rfl] at hcommit
    obtain rfl := Except.ok.inj hcommit
    exact h.move hmem rfl rfl (.inr rfl)

theorem Bounded.cancel (h : Bounded c a) (hfree : a.reserved = none) {ex : Option BlockKey}
    (hsel : a.selectVictim ex = (.ok v, a₁)) {r : Result Unit} (hcancel : a₁.cancelVictim v = (r, a₂)) :
    Bounded c a₂ := by
  rcases selectVictim_cases hfree ex with ⟨s, heq, -⟩ | ⟨w, src, heq, -⟩
  · cases (Prod.mk.inj (hsel.symm.trans heq)).1
  · obtain ⟨-, rfl⟩ := Prod.mk.inj (hsel.symm.trans heq)
    rw [cancelVictim] at hcancel
    split at hcancel
    all_goals
      obtain ⟨-, rfl⟩ := Prod.mk.inj hcancel
      exact ⟨h.budget, h.recent, h.total⟩

/-! ### Inserts -/

/-- The lists after the least recent key of one of them was dropped. -/
def trimmed (lists : ArcList → List BlockKey) : Option ArcList → ArcList → List BlockKey
  | none => lists
  | some l => Function.update lists l (lists l).dropLast

theorem eraseLru_lists (a : ArcEviction) (l : ArcList) :
    (a.eraseLru l).c = a.c ∧ (a.eraseLru l).lists = trimmed a.lists (some l) := by
  rw [eraseLru]
  cases hback : (a.lists l).getLast? with
  | none =>
    have hnil : (a.lists l).dropLast = a.lists l := by rw [List.getLast?_eq_none_iff.mp hback]; rfl
    exact ⟨rfl, by simp only [trimmed, hnil, Function.update_eq_self]⟩
  | some back => exact ⟨rfl, rfl⟩

/-- A new key: nothing happens for want of memory, or it goes in front of T1 and the trim follows. -/
theorem onInsert_new (hwf : a.WellFormed) (hk : a.pos.lookup k = none) {r : Result Unit}
    (heq : a.onInsert k = .ok (r, a')) :
    a'.c = a.c ∧ ((∃ s, r = .error s) ∧ a'.lists = a.lists ∨
      r = .ok () ∧ a'.lists =
        trimmed (Function.update a.lists .t1 (k :: a.lists .t1)) a.ghostToTrimForInsert) := by
  simp only [onInsert, hk] at heq
  rcases pushFront_cases hwf hk with
    ⟨s, b, hpush, -, -, -, hc, hlists, -⟩ | ⟨b, hpush, -, -, -, hc, hlists, -⟩
  · rw [hpush] at heq
    obtain ⟨rfl, rfl⟩ := Prod.mk.inj (Except.ok.inj heq)
    exact ⟨hc, .inl ⟨⟨s, rfl⟩, hlists⟩⟩
  · rw [hpush] at heq
    obtain ⟨rfl, rfl⟩ := Prod.mk.inj (Except.ok.inj heq)
    rw [← hlists]
    cases a.ghostToTrimForInsert with
    | none => exact ⟨hc, .inr ⟨rfl, rfl⟩⟩
    | some l =>
      obtain ⟨hc', hlists'⟩ := eraseLru_lists b l
      exact ⟨hc'.trans hc, .inr ⟨rfl, hlists'⟩⟩

theorem onInsert_known {l : ArcList} (hk : a.pos.lookup k = some l) (hfree : a.reserved = none)
    {r : Result Unit} (heq : a.onInsert k = .ok (r, a')) : a.useKnown k l = .ok a' := by
  simp only [onInsert, hk, hfree] at heq
  cases huse : a.useKnown k l with
  | error e => rw [huse] at heq; cases heq
  | ok b =>
    rw [huse] at heq
    obtain ⟨-, rfl⟩ := Prod.mk.inj (Except.ok.inj heq)
    rfl

theorem length_trimmed (lists : ArcList → List BlockKey) (trim : Option ArcList) (l : ArcList) :
    (trimmed lists trim l).length = if trim = some l then (lists l).length - 1 else (lists l).length := by
  cases trim with
  | none => simp [trimmed]
  | some m =>
    by_cases hl : l = m
    · subst hl; simp [trimmed]
    · simp [trimmed, hl, Ne.symm hl]

/-- TRIM: with room among the residents, the ghost that is trimmed makes up for the new key. -/
theorem Bounded.onInsert (h : Bounded c a) (hwf : a.WellFormed) (hfree : a.reserved = none) {r : Result Unit}
    (heq : a.onInsert k = .ok (r, a')) (hroom : (a'.lists .t1).length + (a'.lists .t2).length ≤ c) :
    Bounded c a' := by
  cases hk : a.pos.lookup k with
  | some l =>
    exact h.useKnown hwf hk (onInsert_known hk hfree heq)
  | none =>
    obtain ⟨hc, ⟨-, hlists⟩ | ⟨-, hlists⟩⟩ := onInsert_new hwf hk heq
    · exact h.shrink hc fun l => by rw [hlists]
    · have hlen := length_trimmed (Function.update a.lists .t1 (k :: a.lists .t1)) a.ghostToTrimForInsert
      rw [← hlists] at hlen
      have h1 := hlen .t1
      have h2 := hlen .t2
      have h3 := hlen .b1
      have h4 := hlen .b2
      obtain ⟨hbudget, hrecent, htotal⟩ := h
      simp only [Function.update_apply] at h1 h2 h3 h4
      rcases a.ghostToTrimForInsert_cases with ⟨htrim, hfull, hlt⟩ | ⟨htrim, hbelow⟩ | ⟨htrim, hwhy⟩
      all_goals
        simp [htrim] at h1 h2 h3 h4
      · exact ⟨hc.trans hbudget, by omega, by omega⟩
      · -- an empty B2 cannot be trimmed, but then the residents and B1 leave room
        exact ⟨hc.trans hbudget, by omega, by omega⟩
      · have hmod := Nat.mod_le (2 * a.c) UInt64.size
        exact ⟨hc.trans hbudget, by omega, by omega⟩

/-- The bound on ghosts alone, and all the bounds if no more than `c` blocks are resident. -/
structure Loose (c : ℕ) (a : ArcEviction) : Prop where
  ghosts : (a.lists .b1).length + (a.lists .b2).length ≤ 2 * c
  bounded : (a.lists .t1).length + (a.lists .t2).length ≤ c → Bounded c a

theorem Bounded.loose (h : Bounded c a) : Loose c a :=
  ⟨by have := h.total; omega, fun _ => h⟩

/-- An insert adds no ghost, however many blocks are resident. -/
theorem Bounded.onInsert_loose (h : Bounded c a) (hwf : a.WellFormed) (hfree : a.reserved = none)
    {r : Result Unit} (heq : a.onInsert k = .ok (r, a')) : Loose c a' := by
  cases hk : a.pos.lookup k with
  | some l => exact (h.useKnown hwf hk (onInsert_known hk hfree heq)).loose
  | none =>
    obtain ⟨-, ⟨-, hlists⟩ | ⟨-, hlists⟩⟩ := onInsert_new hwf hk heq
    · refine ⟨?_, h.onInsert hwf hfree heq⟩
      rw [hlists]
      exact h.loose.ghosts
    · have hle : ∀ l, l ≠ .t1 → (a'.lists l).length ≤ (a.lists l).length := by
        intro l hl
        rw [hlists, length_trimmed, Function.update_of_ne hl]
        split <;> omega
      have h3 := hle .b1 (by decide)
      have h4 := hle .b2 (by decide)
      have hghosts := h.loose.ghosts
      exact ⟨by omega, h.onInsert hwf hfree heq⟩

theorem onRemove_eq {l : ArcList} (hk : a.pos.lookup k = some l) :
    (a.onRemove k).c = a.c ∧ (a.onRemove k).lists = Function.update a.lists l ((a.lists l).erase k) := by
  simp only [onRemove, hk, and_self]

theorem Bounded.onRemove (h : Bounded c a) (k : BlockKey) : Bounded c (a.onRemove k) := by
  cases hk : a.pos.lookup k with
  | none => simpa only [ArcEviction.onRemove, hk] using h
  | some l =>
    obtain ⟨hc, hlists⟩ := onRemove_eq hk
    refine h.shrink hc fun m => ?_
    rw [hlists]
    by_cases hm : m = l
    · subst hm; simpa using List.length_erase_le
    · simp [hm]

/-- An insert that is taken back leaves at most what was there, however many blocks are resident. -/
theorem Bounded.undo (h : Bounded c a) (hwf : a.WellFormed) (hfree : a.reserved = none)
    (heq : a.onInsert k = .ok (.ok (), a₁)) : Bounded c (a₁.onRemove k) := by
  cases hk : a.pos.lookup k with
  | some l =>
    exact (h.useKnown hwf hk (onInsert_known hk hfree heq)).onRemove k
  | none =>
    obtain ⟨hc, ⟨⟨s, hs⟩, -⟩ | ⟨-, hlists⟩⟩ := onInsert_new hwf hk heq
    · cases hs
    · -- the key is still in front of T1, so taking it out restores that list
      have hfront : a₁.lists .t1 = k :: a.lists .t1 := by
        rw [hlists]
        rcases a.ghostToTrimForInsert_cases with ⟨htrim, -⟩ | ⟨htrim, -⟩ | ⟨htrim, -⟩ <;>
          simp [htrim, trimmed]
      obtain ⟨r, b, hins, hkept, -⟩ := inserts_onInsert hwf hfree k
      obtain ⟨-, rfl⟩ := Prod.mk.inj (Except.ok.inj (heq.symm.trans hins))
      have hpos : a₁.pos.lookup k = some .t1 := (hkept.wf.linked.pos k .t1).mpr (by simp [hfront])
      obtain ⟨hc', hlists'⟩ := onRemove_eq hpos
      refine h.shrink (hc'.trans hc) fun l => ?_
      rw [hlists']
      by_cases hl : l = .t1
      · subst hl; simp [hfront]
      · rw [Function.update_of_ne hl, hlists, length_trimmed, Function.update_of_ne hl]
        split <;> omega

/-! ### Calls -/

theorem unreserved (h : Free a) : a.reserved = none := by
  simpa [PolicyView.reserved] using h.idle

theorem Bounded.shed (h : Bounded c a) (hfree : Free a) {ex : Option BlockKey} {vs : List BlockKey}
    (hs : Sheds ex vs a a') : Free a' ∧ Bounded c a' :=
  hs.keeps (fun hq hsel hcommit hI => hI.commit hq.wf (unreserved hq) hsel hcommit)
    (fun hq hsel hcancel hI => hI.cancel (unreserved hq) hsel hcancel) hfree h

/-- What a call asks of the policy keeps the bounds as far as it leaves at most `c` residents. -/
theorem Bounded.asks (h : Bounded c a) (hfree : Free a) {primary : BlockKey → Option Location}
    {vs : List BlockKey} {call : NodeCall} {o : NodeReply} (hasks : StorageNode.Asks primary vs a a' call o) :
    Loose c a' := by
  cases call <;> cases o <;> try exact hasks.elim
  case put.status k b r =>
    cases hasks with
    | stored room _ hins =>
      obtain ⟨hfree₁, h₁⟩ := h.shed hfree room
      exact h₁.onInsert_loose hfree₁.wf (unreserved hfree₁) hins
    | replaced room _ hacc =>
      obtain ⟨hfree₁, h₁⟩ := h.shed hfree room
      exact (h₁.onAccess hfree₁.wf hacc).loose
    | bypassed _ => exact h.loose
    | dropped _ => exact (h.onRemove k).loose
    | failed room => exact (h.shed hfree room).2.loose
    | refused room _ hins =>
      obtain ⟨hfree₁, h₁⟩ := h.shed hfree room
      exact h₁.onInsert_loose hfree₁.wf (unreserved hfree₁) hins
    | undone room _ hins =>
      obtain ⟨hfree₁, h₁⟩ := h.shed hfree room
      exact (h₁.undo hfree₁.wf (unreserved hfree₁) hins).loose
  case get.view k dst out r out' =>
    cases hasks with
    | failed => exact h.loose
    | hit _ hacc => exact (h.onAccess hfree.wf hacc).loose
    | served _ room => exact (h.shed hfree room).2.loose
    | promoted _ room hins =>
      obtain ⟨hfree₁, h₁⟩ := h.shed hfree room
      exact h₁.onInsert_loose hfree₁.wf (unreserved hfree₁) hins
  case probe.info k r =>
    obtain ⟨-, rfl⟩ := hasks
    exact h.loose
  case contains.present k r =>
    obtain ⟨-, rfl⟩ := hasks
    exact h.loose

end ArcEviction

/-! ### Runs -/

namespace TwoTier

variable {σ : Type} [ColdTier σ] {y z : TwoTier σ ArcEviction} {c : ℕ}

/-- The bounds hold of the node's policy, as far as DRAM holds at most `c` blocks. -/
def ArcLoose (c : ℕ) (x : TwoTier σ ArcEviction) : Prop := ∃ a, x.policy = some a ∧ a.Loose c

omit [ColdTier σ] in
/-- T1 and T2 list the blocks in DRAM, each once. -/
theorem TrackedBy.residents_eq {a : ArcEviction} (h : z.TrackedBy a) (hz : z.Sound) :
    (a.lists .t1).length + (a.lists .t2).length = z.dram.stats.numBlocks := by
  have hlinked := h.free.wf.linked
  have hnodup : (a.lists .t1 ++ a.lists .t2).Nodup := by
    refine (hlinked.nodup .t1).append (hlinked.nodup .t2) fun k h1 h2 => ?_
    cases ((hlinked.pos k .t1).mpr h1).symm.trans ((hlinked.pos k .t2).mpr h2)
  rw [hz.accounted.numBlocks, ← List.length_append]
  exact Table.length_of_keys hnodup fun k => List.mem_append.trans (h.residents k)

/-- Blocks of one size: the byte budget is a block budget. -/
theorem Sound.blocks_le {π : Type} {x : TwoTier σ π} (hx : x.Sound) {capacity : UInt64} {s : ℕ} (hc : 1 ≤ c)
    (hs : 1 ≤ s) (hcap : x.dram.stats.capacityBytes = capacity) (hfit : c * s ≤ capacity.toNat)
    (hover : capacity.toNat < (c + 1) * s) (hsize : x.levels.Every fun _ b => b.sizeBytes = s) :
    x.dram.stats.numBlocks ≤ c := by
  have hweight : x.dram.totalBytes = Table.size x.dram.store * s :=
    Table.weight_const fun k e he => hsize k e.block (.inl (by simp [levels, DramTier.at?, he]))
  have hsome : 0 < c * s := Nat.mul_pos hc hs
  have hlimited : x.dram.stats.capacityBytes ≠ 0 := by
    rw [hcap]
    rintro rfl
    exact absurd hfit (not_le.mpr hsome)
  have hbytes : Table.size x.dram.store * s < (c + 1) * s := by
    rw [← hweight]
    exact (hx.bounded hlimited).trans_lt (hcap ▸ hover)
  rw [hx.accounted.numBlocks]
  exact Nat.lt_succ_iff.mp (Nat.lt_of_mul_lt_mul_right hbytes)

/-- STEP: a data call that finds at most `c` blocks in DRAM keeps the bounds. -/
theorem ArcLoose.step (hloose : y.ArcLoose c) (hy : y.Sound) (ht : y.Tracked)
    (hroom : y.dram.stats.numBlocks ≤ c)
    (hfollow : y.Follows z) {call : NodeCall} {o : NodeReply} (hserved : Served y z call o)
    (hstep : y.node.step call = .ok (o, z.node)) : z.ArcLoose c := by
  obtain ⟨a, ha, hloose⟩ := hloose
  obtain ⟨p, a', vs, hp, ha', hasks, -⟩ := step_asks ht hfollow hserved hstep
  obtain rfl := Option.some.inj (ha.symm.trans hp.policy)
  have hbounded := hloose.bounded (by rw [hp.residents_eq hy]; exact hroom)
  exact ⟨a', ha'.policy, hbounded.asks hp.free hasks⟩

end TwoTier

/-- Blocks in DRAM. -/
def dramBlocks {σ π : Type} (n : StorageNode (DramTier ⊕ σ) π) : ℕ :=
  match n.tiers with
  | some (.inl dram) :: _ => dram.stats.numBlocks
  | _ => 0

/-- At most `c` blocks are in DRAM. -/
def WithinBudget {σ π : Type} (c : ℕ) (n : StorageNode (DramTier ⊕ σ) π) : Prop := dramBlocks n ≤ c

instance {σ π : Type} (c : ℕ) (n : StorageNode (DramTier ⊕ σ) π) : Decidable (WithinBudget c n) :=
  Nat.decLe (dramBlocks n) c

section Statements

variable {σ : Type} [ColdTier σ] (id : String) (capacity : UInt64) (ssd : σ) (c : ℕ)
  (dramAllocs nodeAllocs policyAllocs : Stream' Bool) (openEnv : StorageNode.OpenEnv)
  (n : StorageNode (DramTier ⊕ σ) ArcEviction)

/-- BUDGET: over any SSD and with blocks of any size, as long as no call finds more than `c` blocks in
    DRAM, the ghost lists together stay within `2 * c`. -/
theorem ghosts_bounded_within_budget (hc : 1 ≤ c) (hintact : ColdView.Intact ssd)
    (hopen : (TwoTier.start id capacity ssd (some (ArcEviction.make c policyAllocs)) dramAllocs
      nodeAllocs).node.openNode openEnv = (.ok (), n)) (calls : List NodeCall)
    (hcalls : Along StorageNode.step (fun n call => call.isData = true ∧ WithinBudget c n) n calls) :
    ∃ replies n' a, run StorageNode.step n calls = .ok (replies, n') ∧ n'.eviction = some a ∧
      (a.lists .b1).length + (a.lists .b2).length ≤ 2 * c := by
  obtain ⟨x, rfl, hx, hready, -, hdram, hpolicy, -⟩ := TwoTier.opened_start hintact hopen
  have htracked := TwoTier.tracked_of_empty hdram hpolicy (ArcEviction.make_law c policyAllocs)
  have hrun := TwoTier.run_stepped (fun (_ : Unit) _ _ => ()) (fun y _ => y.ArcLoose c) hx hready
    (fun y z _ call o hfollow hfollow' hcall hstep hserved h =>
      h.step hfollow.coherent.toSound (hfollow.tracked htracked) hcall hfollow' hserved hstep)
    (a := ()) hcalls ⟨_, hpolicy, (ArcEviction.bounded_make hc policyAllocs).loose⟩
  obtain ⟨⟨replies, n'⟩, heq, y, rfl, -, a, ha, hloose⟩ := hrun.answer htracked
  exact ⟨replies, y.node, a, heq, ha, hloose.ghosts⟩

/-- CLASSIC: with blocks of one size, at most `c` of which fit into DRAM, the bounds of adaptive replacement
    hold after every run of data calls, whatever the SSD's writes do. -/
theorem classic_bounds (hc : 1 ≤ c) {s : ℕ} (hs : 1 ≤ s) (hfit : c * s ≤ capacity.toNat)
    (hover : capacity.toNat < (c + 1) * s) (hintact : ColdView.Intact ssd)
    (hdisk : ∀ k e, ColdView.contents ssd k = some e → e.block.sizeBytes = s)
    (hopen : (TwoTier.start id capacity ssd (some (ArcEviction.make c policyAllocs)) dramAllocs
      nodeAllocs).node.openNode openEnv = (.ok (), n)) (calls : List NodeCall)
    (hcalls : ∀ call ∈ calls, call.isData = true ∧ ∀ k b, call = .put k b → b.sizeBytes = s) :
    ∃ replies n' a, run StorageNode.step n calls = .ok (replies, n') ∧ n'.eviction = some a ∧
      (a.lists .t1).length + (a.lists .t2).length ≤ c ∧
      (a.lists .t1).length + (a.lists .b1).length ≤ c ∧
      (a.lists .t1).length + (a.lists .t2).length + (a.lists .b1).length + (a.lists .b2).length ≤ 2 * c ∧
      0 ≤ a.p ∧ a.p ≤ c := by
  obtain ⟨x, rfl, hx, hready, hrested, hdram, hpolicy, -⟩ := TwoTier.opened_start hintact hopen
  have htracked := TwoTier.tracked_of_empty hdram hpolicy (ArcEviction.make_law c policyAllocs)
  have hcap : x.dram.stats.capacityBytes = capacity := by rw [hdram]; rfl
  have hevery : x.levels.Every fun _ b => b.sizeBytes = s := by
    rintro k b (hb | hb)
    · have hnone : x.levels.hot k = none := by rw [TwoTier.levels, hdram]; rfl
      rw [hnone] at hb; cases hb
    · obtain ⟨e, he, rfl⟩ := Option.map_eq_some_iff.mp hb
      exact hdisk k e (hrested.contents ▸ he)
  have hroom : ∀ y, x.Follows y → (y.levels.Every fun _ b => b.sizeBytes = s) → y.dram.stats.numBlocks ≤ c :=
    fun y hfollow hy => hfollow.coherent.toSound.blocks_le hc hs (hfollow.capacity.trans hcap) hfit hover hy
  have hrun := TwoTier.run_stepped (C := fun _ call => ∀ k b, call = .put k b → b.sizeBytes = s)
    (fun (_ : Unit) _ _ => ())
    (fun y _ => y.ArcLoose c ∧ y.levels.Every fun _ b => b.sizeBytes = s) hx hready
    (fun y z _ call o hfollow hfollow' hcall hstep hserved h => by
      have hz := hserved.every h.2 (fun k b hput _ => hcall k b hput) fun k b hput _ => hcall k b hput
      exact ⟨h.1.step hfollow.coherent.toSound (hfollow.tracked htracked)
        (hroom y hfollow h.2) hfollow' hserved hstep, hz⟩)
    (a := ()) (along_of_forall _ hcalls)
    ⟨⟨_, hpolicy, (ArcEviction.bounded_make hc policyAllocs).loose⟩, hevery⟩
  obtain ⟨⟨replies, n'⟩, heq, y, rfl, hfollow, ⟨a, ha, hloose⟩, hy⟩ := hrun.answer htracked
  obtain ⟨b, hb⟩ := (hfollow.tracked htracked).by
  obtain rfl := Option.some.inj (ha.symm.trans hb.policy)
  have hresidents := hb.residents_eq hfollow.coherent.toSound
  have hblocks := hroom y hfollow hy
  have hbounded := hloose.bounded (hresidents.trans_le hblocks)
  refine ⟨replies, y.node, a, heq, ha, by omega, hbounded.recent, hbounded.total, hb.free.wf.p_nonneg, ?_⟩
  rw [← hbounded.budget]
  exact hb.free.wf.p_le

end Statements

/-- An open node with that many bytes of DRAM, an empty SSD and a budget of one block. -/
def oneBlock (capacity : UInt64) : StorageNode (DramTier ⊕ MapTier) ArcEviction :=
  ((TwoTier.start "n" capacity ({} : MapTier) (some (ArcEviction.make 1)) (Stream'.const true)
    (Stream'.const true)).node.openNode {}).2

/-- The second `Put` turns the first block into a ghost, the `Get` brings it back. -/
theorem classic_bounds_ghost_hit : ∃ replies n' a,
    run StorageNode.step (oneBlock 1) [tinyPut 1 10, tinyPut 2 20, tinyGet 1] = .ok (replies, n') ∧
      n'.eviction = some a ∧
      (a.lists .t1).length + (a.lists .t2).length ≤ 1 ∧
      (a.lists .t1).length + (a.lists .b1).length ≤ 1 ∧
      (a.lists .t1).length + (a.lists .t2).length + (a.lists .b1).length + (a.lists .b2).length ≤ 2 * 1 ∧
      0 ≤ a.p ∧ a.p ≤ (1 : ℕ) :=
  classic_bounds "n" 1 {} 1 _ _ _ {} (oneBlock 1) le_rfl le_rfl (by decide) (by decide) trivial
    (by intro k e he; cases he) rfl _ (by simp [tinyPut, tinyGet, NodeCall.isData, Block.sizeBytes])

/-- Two calls that find no block and one block in DRAM; the second leaves two, past the budget. -/
theorem ghosts_bounded_within_budget_tiny : ∃ replies n' a,
    run StorageNode.step (oneBlock 3) [tinyPut 1 10, tinyPut 2 20] = .ok (replies, n') ∧
      n'.eviction = some a ∧ (a.lists .b1).length + (a.lists .b2).length ≤ 2 * 1 :=
  ghosts_bounded_within_budget "n" 3 {} 1 _ _ _ {} (oneBlock 3) le_rfl trivial rfl _
    (along_cons rfl ⟨rfl, by decide⟩ (along_cons rfl ⟨rfl, by decide⟩ trivial))

/-- OUTGROWN: three one-byte blocks fit into three bytes, past the budget of one block; a three-byte block
    then pushes them all out, and no insert past the budget has trimmed a ghost. -/
theorem ghosts_outgrow_budget : ∃ replies n' a,
    (TwoTier.start "n" 3 ({} : MapTier) (some (ArcEviction.make 1)) (Stream'.const true)
      (Stream'.const true)).node.openNode {} = (.ok (), oneBlock 3) ∧
    run StorageNode.step (oneBlock 3) [tinyPut 1 10, tinyPut 2 20, tinyPut 3 30,
        .put ⟨4, 1, 7⟩ ⟨{}, ⟨[1, 2, 3], by simp [UInt64.size]⟩⟩] = .ok (replies, n') ∧
      replies.map NodeReply.error? = [none, none, none, none] ∧ n'.eviction = some a ∧ a.c = 1 ∧
      (a.lists .b1).length + (a.lists .b2).length = 3 :=
  ⟨_, _, _, rfl, rfl, rfl, rfl, rfl, rfl⟩

end TidePool.Store
