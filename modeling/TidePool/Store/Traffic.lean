import TidePool.Store.DramTier
import TidePool.Store.Logged
import TidePool.Store.PolicyTrace
import TidePool.Store.SsdTier

/-! What a call on a node moves and counts.

    Everything that moves a counter of the node is one of seven events, four of them a `Put` that a tier
    accepted:

        event        tier Put     counters
        dramHit      -            dram_hits, bytes_read
        ssdHit       -            ssd_hits, bytes_read
        missed       -            misses
        demoted      cold         demotions, bytes_read, bytes_written
        promoted     hot          promotions, bytes_written
        stored       hot          bytes_written
        bypassed     cold         bytes_written

    The facts are about nodes whose tiers are logged, and partial: they say what happened when a call
    returns. A `Put` that is taken back (the policy or the index would not follow) is in the log and in no
    counter, so the calls that could do that are asked to have a reliable policy and memory to spare. -/

namespace TidePool.Store
open Schemes EvictionPolicy

/-! ### Tiers that count their `Put`s -/

/-- The blocks that a `Put` of `b` with this answer has stored. -/
def kept (b : Block) : Result UInt64 → List Block
  | .ok _ => [b]
  | .error _ => []

/-- A tier of the same kind, after `puts` more successful `Put`s. -/
structure Counted {τ : Type} [Tier τ] (puts : ℕ) (t t' : τ) : Prop where
  type : Tier.type t' = Tier.type t
  putCount : (Tier.stats t').putCount = (Tier.stats t).putCount + puts

/-- `put_count` counts the successful `Put`s and nothing else. -/
class CountsPuts (τ : Type) [Tier τ] : Prop where
  probe : ∀ (t : τ) (k : BlockKey), Counted 0 t (Tier.probe t k).2
  put : ∀ (t : τ) (k : BlockKey) (b : Block), Counted (kept b (Tier.put t k b).1).length t (Tier.put t k b).2
  get : ∀ (t : τ) (k : BlockKey) (dst : MutableBuffer) (out : Option BlockView),
    Counted 0 t (Tier.get t k dst out).2.2
  erase : ∀ {t t' : τ} {k : BlockKey}, Tier.eraseExisting t k = .ok t' → Counted 0 t t'

section Instances

variable {δ σ : Type} [Tier δ] [Tier σ]

theorem Counted.inl {puts : ℕ} {t t' : δ} (h : Counted puts t t') : Counted puts (.inl t : δ ⊕ σ) (.inl t') :=
  ⟨h.type, h.putCount⟩

theorem Counted.inr {puts : ℕ} {t t' : σ} (h : Counted puts t t') : Counted puts (.inr t : δ ⊕ σ) (.inr t') :=
  ⟨h.type, h.putCount⟩

instance [CountsPuts δ] [CountsPuts σ] : CountsPuts (δ ⊕ σ) where
  probe t k := by
    cases t with
    | inl t => exact (CountsPuts.probe t k).inl
    | inr t => exact (CountsPuts.probe t k).inr
  put t k b := by
    cases t with
    | inl t => exact (CountsPuts.put t k b).inl
    | inr t => exact (CountsPuts.put t k b).inr
  get t k dst out := by
    cases t with
    | inl t => exact (CountsPuts.get t k dst out).inl
    | inr t => exact (CountsPuts.get t k dst out).inr
  erase {t t' k} heq := by
    cases t with
    | inl t =>
      have heq : (Tier.eraseExisting t k).map Sum.inl = .ok t' := heq
      cases he : Tier.eraseExisting t k with
      | error e => rw [he] at heq; cases heq
      | ok d => rw [he] at heq; cases heq; exact (CountsPuts.erase he).inl
    | inr t =>
      have heq : (Tier.eraseExisting t k).map Sum.inr = .ok t' := heq
      cases he : Tier.eraseExisting t k with
      | error e => rw [he] at heq; cases heq
      | ok d => rw [he] at heq; cases heq; exact (CountsPuts.erase he).inr

end Instances

instance : CountsPuts DramTier where
  probe _ _ := ⟨rfl, rfl⟩
  put t k b := by
    show Counted (kept b (t.put k b).1).length t (t.put k b).2
    unfold DramTier.put
    split
    · exact ⟨rfl, rfl⟩
    dsimp only
    split
    · exact ⟨rfl, rfl⟩
    · split <;> exact ⟨rfl, rfl⟩
  get t k dst out := by
    show Counted 0 t (t.get k dst out).2.2
    unfold DramTier.get
    split
    · exact ⟨rfl, rfl⟩
    split
    · exact ⟨rfl, rfl⟩
    · split <;> exact ⟨rfl, rfl⟩
  erase {t t' k} heq := by
    have heq : t.eraseExisting k = .ok t' := heq
    unfold DramTier.eraseExisting at heq
    split at heq
    · cases heq
    · cases heq; exact ⟨rfl, rfl⟩

instance : CountsPuts SsdTier where
  probe s k := by
    show Counted 0 s (s.probe k).2
    unfold SsdTier.probe
    split
    · exact ⟨rfl, rfl⟩
    · dsimp only
      split <;> exact ⟨rfl, rfl⟩
  put s k b := by
    show Counted (kept b (s.put k b).1).length s (s.put k b).2
    unfold SsdTier.put
    split
    · exact ⟨rfl, rfl⟩
    split
    · exact ⟨rfl, rfl⟩
    dsimp only
    split
    · exact ⟨rfl, rfl⟩
    split
    · exact ⟨rfl, rfl⟩
    rename_i existing _
    split
    · exact ⟨rfl, rfl⟩
    · cases existing <;> exact ⟨rfl, rfl⟩
  get s k dst out := by
    show Counted 0 s (s.get k dst out).2.2
    unfold SsdTier.get
    split
    · exact ⟨rfl, rfl⟩
    split
    · exact ⟨rfl, rfl⟩
    dsimp only
    split
    · exact ⟨rfl, rfl⟩
    · exact ⟨rfl, rfl⟩
    · split
      · exact ⟨rfl, rfl⟩
      · split <;> exact ⟨rfl, rfl⟩
  erase heq := by cases heq

/-! ### Logged tiers -/

namespace Logged

variable {τ : Type} [Tier τ]

/-- The tier accepted the blocks `bs`. -/
structure Moved (bs : List Block) (t t' : Logged τ) : Prop extends Counted bs.length t t' where
  puts : t'.puts = t.puts ++ bs

theorem Moved.refl (t : Logged τ) : t.Moved [] t := ⟨⟨rfl, rfl⟩, (List.append_nil _).symm⟩

theorem Moved.trans {bs bs' : List Block} {t t₁ t' : Logged τ} (h : t.Moved bs t₁) (h' : t₁.Moved bs' t') :
    t.Moved (bs ++ bs') t' where
  type := h'.type.trans h.type
  putCount := by rw [h'.putCount, h.putCount, List.length_append, Nat.add_assoc]
  puts := by rw [h'.puts, h.puts, List.append_assoc]

variable (t : Logged τ) (k : BlockKey)

/-- A call that is not logged. -/
theorem moved_quiet {tier : τ} (h : Counted 0 t.tier tier) : t.Moved [] (t.moved tier) :=
  ⟨⟨h.type, h.putCount⟩, (List.append_nil _).symm⟩

variable [CountsPuts τ]

theorem moved_probe : t.Moved [] (Tier.probe t k).2 := t.moved_quiet (CountsPuts.probe t.tier k)

theorem moved_fetch (dst : MutableBuffer) (out : Option BlockView) :
    t.Moved [] (StorageNode.fetch k dst out t).2 :=
  t.moved_quiet (CountsPuts.get t.tier k dst out)

theorem moved_put (b : Block) : t.Moved (kept b (Tier.put t k b).1) (Tier.put t k b).2 := by
  have hcount := CountsPuts.put t.tier k b
  show t.Moved (kept b (t.put k b).1) (t.put k b).2
  unfold put
  rcases hput : Tier.put t.tier k b with ⟨r, tier⟩
  rw [hput] at hcount
  cases r with
  | ok h => exact ⟨⟨hcount.type, hcount.putCount⟩, rfl⟩
  | error s => exact t.moved_quiet hcount

theorem moved_erase {t' : Logged τ} (h : Tier.eraseExisting t k = .ok t') : t.Moved [] t' := by
  have h : (Tier.eraseExisting t.tier k).map t.moved = .ok t' := h
  cases he : Tier.eraseExisting t.tier k with
  | error e => rw [he] at h; cases h
  | ok tier => rw [he] at h; cases h; exact t.moved_quiet (CountsPuts.erase he)

end Logged

/-! ### Events -/

/-- What a node counts. -/
inductive Event where
  | dramHit (bytes : ℕ)
  | ssdHit (bytes : ℕ)
  | missed
  | demoted (b : Block)
  | promoted (b : Block)
  | stored (b : Block)
  | bypassed (b : Block)

namespace Event

/-- The counters after an event. -/
def count (s : StorageNodeStats) : Event → StorageNodeStats
  | dramHit bytes => { s with dramHits := s.dramHits + 1, bytesRead := s.bytesRead + bytes }
  | ssdHit bytes => { s with ssdHits := s.ssdHits + 1, bytesRead := s.bytesRead + bytes }
  | missed => { s with misses := s.misses + 1 }
  | demoted b => { s with
      demotions := s.demotions + 1
      bytesRead := s.bytesRead + b.sizeBytes
      bytesWritten := s.bytesWritten + b.sizeBytes }
  | promoted b => { s with promotions := s.promotions + 1, bytesWritten := s.bytesWritten + b.sizeBytes }
  | stored b | bypassed b => { s with bytesWritten := s.bytesWritten + b.sizeBytes }

/-- The block a `Put` into the hot tier was for. -/
def hot : Event → Option Block
  | promoted b | stored b => some b
  | _ => none

/-- The block a `Put` into the cold tier was for. -/
def cold : Event → Option Block
  | demoted b | bypassed b => some b
  | _ => none

end Event

namespace StorageNode

variable {τ π : Type} [Tier τ]

/-- The hot tier accepted the blocks `hot` and the cold one `cold`; the counters moved by `g`. -/
structure Carries (hot cold : List Block) (g : StorageNodeStats → StorageNodeStats)
    (n n' : StorageNode (Logged τ) π) : Prop where
  stats : n'.stats = g n.stats
  tiers : ∀ a b, n.tiers = [some a, some b] →
    ∃ a' b', n'.tiers = [some a', some b'] ∧ a.Moved hot a' ∧ b.Moved cold b'
  allocs : (∀ i, n.allocs.get i = true) → ∀ i, n'.allocs.get i = true

/-- Nothing was stored and nothing counted. -/
abbrev Quiet (n n' : StorageNode (Logged τ) π) : Prop := Carries [] [] (fun s => s) n n'

/-- The events `es` happened, in this order, and no others. -/
abbrev Happened (es : List Event) (n n' : StorageNode (Logged τ) π) : Prop :=
  Carries (es.filterMap Event.hot) (es.filterMap Event.cold) (fun s => es.foldl Event.count s) n n'

section Carries

variable {n n₁ n' : StorageNode (Logged τ) π} {hot cold hot' cold' : List Block}
  {g g' : StorageNodeStats → StorageNodeStats} {es es' : List Event}

theorem Carries.trans (h : Carries hot cold g n n₁) (h' : Carries hot' cold' g' n₁ n') :
    Carries (hot ++ hot') (cold ++ cold') (fun s => g' (g s)) n n' where
  stats := by rw [h'.stats, h.stats]
  tiers a b htiers := by
    obtain ⟨a₁, b₁, htiers₁, ha₁, hb₁⟩ := h.tiers a b htiers
    obtain ⟨a', b', htiers', ha', hb'⟩ := h'.tiers a₁ b₁ htiers₁
    exact ⟨a', b', htiers', ha₁.trans ha', hb₁.trans hb'⟩
  allocs := h'.allocs ∘ h.allocs

/-- Neither tiers nor counters nor memory were touched. -/
theorem quiet_of_eq (hstats : n'.stats = n.stats) (htiers : n'.tiers = n.tiers)
    (hallocs : n'.allocs = n.allocs) : Quiet n n' :=
  ⟨hstats, fun a b h => ⟨a, b, htiers.trans h, .refl a, .refl b⟩, fun h => hallocs ▸ h⟩

theorem Quiet.refl (n : StorageNode (Logged τ) π) : Quiet n n := quiet_of_eq rfl rfl rfl

theorem quiet_drawn (n : StorageNode (Logged τ) π) : Quiet n n.drawn :=
  ⟨rfl, (Quiet.refl n).tiers, fun h i => h (i + 1)⟩

theorem Carries.before (h : Carries hot cold g n n₁) (hq : Quiet n₁ n') : Carries hot cold g n n' := by
  have := h.trans hq
  rwa [List.append_nil, List.append_nil] at this

theorem Carries.after (h : Carries hot cold g n₁ n') (hq : Quiet n n₁) : Carries hot cold g n n' := hq.trans h

/-- The counters moved on, nothing else. -/
theorem Carries.counted (h : Carries hot cold (fun s => s) n n₁) (hstats : n'.stats = g n₁.stats)
    (htiers : n'.tiers = n₁.tiers) (hallocs : n'.allocs = n₁.allocs) : Carries hot cold g n n' where
  stats := by rw [hstats, h.stats]
  tiers a b ht := by
    obtain ⟨a', b', ht', hmoved⟩ := h.tiers a b ht
    exact ⟨a', b', htiers.trans ht', hmoved⟩
  allocs hn := hallocs ▸ h.allocs hn

theorem Happened.trans (h : Happened es n n₁) (h' : Happened es' n₁ n') : Happened (es ++ es') n n' := by
  have := Carries.trans h h'
  rw [← List.filterMap_append, ← List.filterMap_append] at this
  refine ⟨?_, this.tiers, this.allocs⟩
  rw [this.stats, List.foldl_append]

end Carries

/-! ### Calls on one tier -/

section Calls

variable {α : Type} (n : StorageNode (Logged τ) π) (k : BlockKey)

theorem callTier_hot {f : Logged τ → α × Logged τ} {B : α → List Block}
    (hf : ∀ t : Logged τ, t.Moved (B (f t).1) (f t).2) :
    Yields False (n.callTier 0 f) fun res => Carries (B res.1) [] (fun s => s) n res.2 := by
  unfold callTier
  split
  · rename_i t ht
    refine ⟨rfl, fun a b htiers => ?_, fun h => h⟩
    rw [htiers] at ht
    cases ht
    exact ⟨(f t).2, b, congrArg (List.set · 0 _) htiers, hf t, .refl b⟩
  · exact not_false

theorem callTier_cold {f : Logged τ → α × Logged τ} {B : α → List Block}
    (hf : ∀ t : Logged τ, t.Moved (B (f t).1) (f t).2) :
    Yields False (n.callTier 1 f) fun res => Carries [] (B res.1) (fun s => s) n res.2 := by
  unfold callTier
  split
  · rename_i t ht
    refine ⟨rfl, fun a b htiers => ?_, fun h => h⟩
    rw [htiers] at ht
    cases ht
    exact ⟨a, (f t).2, congrArg (List.set · 1 _) htiers, .refl a, hf t⟩
  · exact not_false

/-- A read, whichever tier it goes to. -/
theorem callTier_quiet (i : ℕ) {f : Logged τ → α × Logged τ} (hf : ∀ t : Logged τ, t.Moved [] (f t).2) :
    Yields False (n.callTier i f) fun res => Quiet n res.2 := by
  match i with
  | 0 => exact n.callTier_hot (B := fun _ => []) hf
  | 1 => exact n.callTier_cold (B := fun _ => []) hf
  | i + 2 =>
    unfold callTier
    split
    · rename_i t ht
      refine ⟨rfl, fun a b htiers => ?_, fun h => h⟩
      rw [htiers] at ht
      cases ht
    · exact not_false

theorem relocateIndex_quiet (e t : TierType) (h : UInt64) :
    Yields False (n.relocateIndex k e t h) (Quiet n) :=
  (Yields.trivial _).bind fun _ _ => quiet_of_eq rfl rfl rfl

theorem removeIndex_quiet : Yields False (n.removeIndex k) (Quiet n) :=
  (Yields.trivial _).bind fun _ _ => quiet_of_eq rfl rfl rfl

theorem upsertIndex_quiet (loc : Location) : Quiet n (n.upsertIndex k loc).2 :=
  (quiet_drawn n).before (quiet_of_eq rfl rfl rfl)

omit [Tier τ] in
/-- With memory to spare the index takes every entry. -/
theorem upsertIndex_ok (hallocs : ∀ i, n.allocs.get i = true) (loc : Location) :
    (n.upsertIndex k loc).1 = .ok () := by
  have hhead : n.allocs.head = true := hallocs 0
  simp only [upsertIndex, LocalIndex.upsert, hhead, if_true]

variable [CountsPuts τ]

theorem eraseFrom_quiet (i : ℕ) : Yields False (n.eraseFrom i k) (Quiet n) := by
  unfold eraseFrom askTier
  split
  · rename_i t ht
    simp only [ok_bind]
    cases herase : Tier.eraseExisting t k with
    | error e => exact not_false
    | ok t' =>
      refine ⟨rfl, fun a b htiers => ?_, fun h => h⟩
      have hmoved := t.moved_erase k herase
      rw [htiers] at ht
      match i with
      | 0 => cases ht; exact ⟨t', b, congrArg (List.set · 0 _) htiers, hmoved, .refl b⟩
      | 1 => cases ht; exact ⟨a, t', congrArg (List.set · 1 _) htiers, .refl a, hmoved⟩
      | i + 2 => cases ht
  · exact not_false

theorem readBlockLocked_quiet (i : ℕ) : Yields False (n.readBlockLocked i k) fun res => Quiet n res.2 :=
  n.readBlockLocked_rule i k Carries.before quiet_drawn (fun n => n.callTier_quiet i fun t => t.moved_probe k)
    fun n dst out => n.callTier_quiet i fun t => t.moved_fetch k dst out

theorem probe_quiet : Yields False (n.probe k) fun res => Quiet n res.2 :=
  n.probe_rule k (.refl n) fun i => n.callTier_quiet i fun t => t.moved_probe k

end Calls

section Policy

variable (n : StorageNode (Logged τ) π) (k : BlockKey)

/-- An insert that the policy cannot refuse. -/
theorem policyOnInsert_quiet {ins : π → Except Halt (Result Unit × π)}
    (hins : ∀ p, n.eviction = some p → ∀ r p', ins p = .ok (r, p') → r = .ok ()) :
    Yields False (n.policyOnInsert ins) fun res => res.1 = .ok () ∧ Quiet n res.2 := by
  unfold policyOnInsert
  cases hp : n.eviction with
  | none => exact ⟨rfl, Quiet.refl n⟩
  | some p =>
    dsimp only
    cases hres : ins p with
    | error e => exact not_false
    | ok res => exact ⟨hins p hp res.1 res.2 hres, quiet_of_eq rfl rfl rfl⟩

variable [EvictionPolicy π]

theorem policyOnAccess_quiet : Yields False (n.policyOnAccess k) (Quiet n) := by
  unfold policyOnAccess
  split
  · exact Quiet.refl n
  · exact (Yields.trivial _).map fun _ _ => quiet_of_eq rfl rfl rfl

theorem cancelVictimOrInternal_quiet (p : π) (v : BlockKey) (cause : Status) (context : String) :
    (∃ s, (n.cancelVictimOrInternal p v cause context).1 = .error s) ∧
      Quiet n (n.cancelVictimOrInternal p v cause context).2 := by
  unfold cancelVictimOrInternal
  rcases cancelVictim p v with ⟨r, p'⟩
  cases r with
  | ok _ => exact ⟨⟨_, rfl⟩, quiet_of_eq rfl rfl rfl⟩
  | error c => exact ⟨⟨_, rfl⟩, quiet_of_eq rfl rfl rfl⟩

end Policy

/-! ### Demotion -/

section Demotion

variable [EvictionPolicy π] [CountsPuts τ]

/-- One demotion was made, or none. -/
def Demoted (n : StorageNode (Logged τ) π) (res : Result Unit × StorageNode (Logged τ) π) : Prop :=
  (res.1 = .ok () ∧ ∃ b, Happened [.demoted b] n res.2) ∨ (∃ s, res.1 = .error s) ∧ Quiet n res.2

omit [CountsPuts τ] in
theorem demoted_cancelled {n n₁ : StorageNode (Logged τ) π} (h : Quiet n n₁) (p : π) (v : BlockKey)
    (cause : Status) (context : String) : Demoted n (n₁.cancelVictimOrInternal p v cause context) := by
  obtain ⟨herror, hquiet⟩ := n₁.cancelVictimOrInternal_quiet p v cause context
  exact .inr ⟨herror, hquiet.after h⟩

theorem commitDemotion_demoted {n n₁ : StorageNode (Logged τ) π} {b : Block}
    (h : Carries [] [b] (fun s => s) n n₁) (dram sink : ℕ) (p : π) (v : BlockKey) (handle : UInt64) :
    Yields False (n₁.commitDemotion dram sink p v b handle) (Demoted n) := by
  refine (n₁.eraseFrom_quiet v dram).bind fun n₂ h₂ => ?_
  refine (Yields.trivial _).bind fun type _ => (Yields.trivial _).bind fun index _ => ?_
  refine (Yields.trivial _).bind fun p' _ => .inl ⟨rfl, b, ?_⟩
  exact (h.before h₂).counted rfl rfl rfl

theorem demoteReserved_demoted (n : StorageNode (Logged τ) π) (p : π) (v : BlockKey) :
    Yields False (n.demoteReserved 0 1 p v) (Demoted n) := by
  refine n.demoteReserved_rule 0 1 p v (.refl n) (n.readBlockLocked_quiet v 0)
    (fun n₁ s context h₁ => demoted_cancelled h₁ p v s context) fun n₁ b h₁ => ?_
  refine (n₁.callTier_cold fun t => t.moved_put v b).mono ?_
  rintro ⟨stored, n₂⟩ h₂
  have hn₂ := h₂.after h₁
  refine ⟨?_, ?_⟩
  · rintro s rfl
    exact hn₂
  · rintro handle rfl
    exact commitDemotion_demoted hn₂ 0 1 p v handle

theorem demoteOneVictimLocked_demoted (n : StorageNode (Logged τ) π) (ex : Option BlockKey) :
    Yields False (n.demoteOneVictimLocked 0 1 ex) (Demoted n) := by
  unfold demoteOneVictimLocked
  cases n.eviction with
  | none => exact .inr ⟨⟨_, rfl⟩, .refl n⟩
  | some p =>
    dsimp only
    rcases selectVictim p ex with ⟨r, p₁⟩
    have hquiet : Quiet n { n with eviction := some p₁ } := quiet_of_eq rfl rfl rfl
    cases r with
    | error s => exact .inr ⟨⟨s, rfl⟩, hquiet⟩
    | ok v =>
      refine (demoteReserved_demoted { n with eviction := some p₁ } p₁ v).mono ?_
      rintro ⟨r, n'⟩ (⟨hr, b, hb⟩ | ⟨hr, hn⟩)
      · exact .inl ⟨hr, b, hb.after hquiet⟩
      · exact .inr ⟨hr, hn.after hquiet⟩

/-- Two tiers, DRAM in front of SSD. -/
def Fronted (n : StorageNode (Logged τ) π) : Prop :=
  ∃ a b, n.tiers = [some a, some b] ∧ Tier.type a = .dram ∧ Tier.type b = .ssd

omit [EvictionPolicy π] [CountsPuts τ] in
theorem Fronted.carried {n n' : StorageNode (Logged τ) π} {hot cold : List Block}
    {g : StorageNodeStats → StorageNodeStats} (hn : Fronted n) (h : Carries hot cold g n n') :
    Fronted n' := by
  obtain ⟨a, b, htiers, ha, hb⟩ := hn
  obtain ⟨a', b', htiers', ha', hb'⟩ := h.tiers a b htiers
  exact ⟨a', b', htiers', ha'.type.trans ha, hb'.type.trans hb⟩

omit [EvictionPolicy π] [CountsPuts τ] in
theorem Fronted.dram {n : StorageNode (Logged τ) π} (h : Fronted n) : n.tierOfLocked .dram = some 0 := by
  obtain ⟨a, b, htiers, ha, -⟩ := h
  simp [tierOfLocked, htiers, List.findIdx?_cons, ha]

omit [EvictionPolicy π] [CountsPuts τ] in
theorem Fronted.ssd {n : StorageNode (Logged τ) π} (h : Fronted n) : n.colderTierLocked = some 1 := by
  obtain ⟨a, b, htiers, ha, hb⟩ := h
  simp [colderTierLocked, tierOfLocked, htiers, List.findIdx?_cons, ha, hb]

/-- Making room demotes blocks, and nothing else. -/
theorem makeDramRoomForLocked_happened {n : StorageNode (Logged τ) π} (hn : Fronted n) (incoming : ℕ)
    (ex : Option BlockKey) : Yields False (n.makeDramRoomForLocked incoming ex) fun res =>
      ∃ ds : List Block, Happened (ds.map .demoted) n res.2 := by
  refine n.makeDramRoomForLocked_rule (R := fun n n' => ∃ ds : List Block, Happened (ds.map .demoted) n n')
    (I := Fronted) hn (fun n => ⟨[], Quiet.refl n⟩) (fun dram key _ => ?_)
      (fun dram n' sink hdram hn' hsink => ?_)
    incoming
  · refine (n.callTier_quiet dram fun t => t.moved_probe key).mono fun res h => ?_
    refine ⟨hn.carried h, ?_⟩
    rintro n' ⟨ds, hds⟩
    exact ⟨ds, hds.after h⟩
  · obtain rfl := Option.some.inj (hn.dram.symm.trans hdram)
    obtain rfl := Option.some.inj (hn'.ssd.symm.trans hsink)
    refine (n'.demoteOneVictimLocked_demoted ex).mono ?_
    rintro res (⟨hok, b, hb⟩ | ⟨herror, hnone⟩)
    · refine .inl ⟨hok, hn'.carried hb, ?_⟩
      rintro n₂ ⟨ds, hds⟩
      exact ⟨b :: ds, Happened.trans hb hds⟩
    · exact .inr ⟨herror, [], hnone⟩

end Demotion

/-! ### Put -/

section Put

variable [EvictionPolicy π] [CountsPuts τ] (n : StorageNode (Logged τ) π) (k : BlockKey) (b : Block)

/-- The block was stored, which counts as `e`, or nothing was. -/
def Stored (e : Event) (n : StorageNode (Logged τ) π) (res : Result Unit × StorageNode (Logged τ) π) : Prop :=
  (res.1 = .ok () ∧ Happened [e] n res.2) ∨ (∃ s, res.1 = .error s) ∧ Quiet n res.2

theorem putHot_stored (hallocs : ∀ i, n.allocs.get i = true)
    (hins : ∀ p, n.eviction = some p → ∀ r p', onInsert p k b.sizeBytes = .ok (r, p') → r = .ok ())
    (old : Option Location) : Yields False (n.putHot k b old) (Stored (.stored b) n) := by
  have hcommit : ∀ {n₁ : StorageNode (Logged τ) π}, Carries [b] [] (fun s => s) n n₁ →
      Stored (.stored b) n (.ok (), n₁.wrote b.sizeBytes) := fun h => .inl ⟨rfl, h.counted rfl rfl rfl⟩
  unfold putHot
  split
  · exact .inr ⟨⟨_, rfl⟩, .refl n⟩
  refine ((n.callTier_hot fun t => t.moved_put k b).and (n.callTier_apart 0 _)).bind ?_
  rintro ⟨stored, n₁⟩ ⟨h₁, hapart⟩
  cases stored with
  | error s => exact .inr ⟨⟨s, rfl⟩, h₁⟩
  | ok handle =>
    dsimp only
    cases hnew : old.all fun l => l.tier ≠ .dram with
    | true =>
      rw [if_pos rfl]
      refine (n₁.policyOnInsert_quiet fun p hp => hins p (hapart.policy.symm.trans hp)).bind ?_
      rintro ⟨inserted, n₂⟩ ⟨rfl, h₂⟩
      have hn₂ := h₁.before h₂
      cases old with
      | some loc =>
        refine (n₂.relocateIndex_quiet k loc.tier .dram handle).bind fun n₃ h₃ => ?_
        rw [if_pos rfl]
        exact .ok (hcommit (hn₂.before h₃))
      | none =>
        have hquiet := n₂.upsertIndex_quiet k ⟨n₂.id, .dram, handle⟩
        have hok := n₂.upsertIndex_ok k (hn₂.allocs hallocs) ⟨n₂.id, .dram, handle⟩
        rcases hup : n₂.upsertIndex k ⟨n₂.id, .dram, handle⟩ with ⟨r, n₃⟩
        rw [hup] at hquiet hok
        subst hok
        exact .ok (hcommit (hn₂.before hquiet))
    | false =>
      cases old with
      | none => cases hnew
      | some loc =>
        refine (n₁.relocateIndex_quiet k loc.tier .dram handle).bind fun n₂ h₂ => ?_
        refine (n₂.policyOnAccess_quiet k).bind fun n₃ h₃ => ?_
        exact .ok (hcommit ((h₁.before h₂).before h₃))

theorem putOversizedLocked_stored (old : Option Location) :
    Yields False (n.putOversizedLocked k b 0 1 old) (Stored (.bypassed b) n) := by
  have hcommit : ∀ {n₁ : StorageNode (Logged τ) π} (e t : TierType) (handle : UInt64),
      Carries [] [b] (fun s => s) n n₁ → Yields False (n₁.relocateIndex k e t handle) fun n₂ =>
        Stored (.bypassed b) n (.ok (), n₂.wrote b.sizeBytes) := by
    intro n₁ e t handle h
    refine (n₁.relocateIndex_quiet k e t handle).mono fun n₂ h₂ => ?_
    exact .inl ⟨rfl, (h.before h₂).counted rfl rfl rfl⟩
  refine n.putOversizedLocked_rule k (P := Quiet n) (S := Carries [] [b] (fun s => s) n)
    (D := Carries [] [b] (fun s => s) n) b 0 1 old (.refl n) (fun s n₁ h => .inr ⟨⟨s, rfl⟩, h⟩)
    (n.upsertIndex_quiet k) (fun n₁ h => (n₁.removeIndex_quiet k).mono fun _ h' => h.before h') ?_ ?_
    (fun _ _ => hcommit) (fun _ _ => hcommit)
  · intro n₁ h
    refine (n₁.callTier_cold fun t => t.moved_put k b).mono ?_
    rintro ⟨stored, n₂⟩ h₂
    have hn₂ := h₂.after h
    constructor
    · rintro s rfl
      exact hn₂
    · rintro handle rfl
      exact hn₂
  · intro n₁ h
    refine Yields.map (n₁.eraseFrom_quiet k 0) fun n₂ h₂ => ?_
    exact (h.before h₂).before (quiet_of_eq rfl rfl rfl)

/-! ### Get -/

/-- The promoted block was stored, or nothing was. -/
theorem promoteInto_stored
    (hins : ∀ p, n.eviction = some p → ∀ r p', onPromotionCommitted p k b.sizeBytes = .ok (r, p') →
    r = .ok ()) :
    Yields False (n.promoteInto 0 k b) fun n' => Happened [.promoted b] n n' ∨ Quiet n n' := by
  refine ((n.callTier_hot fun t => t.moved_put k b).and (n.callTier_apart 0 _)).bind ?_
  rintro ⟨stored, n₁⟩ ⟨h₁, hapart⟩
  cases stored with
  | error s => exact .ok (.inr h₁)
  | ok handle =>
    refine (n₁.policyOnInsert_quiet fun p hp => hins p (hapart.policy.symm.trans hp)).bind ?_
    rintro ⟨promoted, n₂⟩ ⟨rfl, h₂⟩
    refine (n₂.relocateIndex_quiet k .ssd .dram handle).bind fun n₃ h₃ => .ok (.inl ?_)
    exact ((h₁.before h₂).before h₃).counted rfl rfl rfl

end Put

end StorageNode

end TidePool.Store
