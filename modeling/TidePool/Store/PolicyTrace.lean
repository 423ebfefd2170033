import TidePool.Store.StorageNode

/-! What a storage node asks of its policy.

    Whatever the tiers answer, one public call makes the policy go through one of a few sequences, and
    nothing else touches it:

        making room    (select v, commit v)*  and then perhaps one attempt that is refused or cancelled
        Put            making room, then the key is inserted or, if it was in DRAM, accessed
                       an oversized block: the key is removed, if it was in DRAM
        Get            an access, or making room and then the key is inserted as promoted

    An insert that cannot be kept is taken back with `OnRemove`. The facts hold of every node, so they are
    partial: they say what happened when the call returns, and `Yields False` asks nothing when it halts.
    The longer functions have a rule each, for any relation that their parts keep; the policy is one reader
    of a call among others. -/

namespace TidePool.Store

open Schemes EvictionPolicy

section Traces

variable {π : Type} [EvictionPolicy π]

/-- Making room: `vs` were selected and committed, in this order; one more attempt may have come to
    nothing. -/
inductive Sheds (ex : Option BlockKey) : List BlockKey → π → π → Prop
  | rest (p : π) : Sheds ex [] p p
  | refused {p p' : π} {s : Status} (h : selectVictim p ex = (.error s, p')) : Sheds ex [] p p'
  | cancelled {p p₁ p' : π} {v : BlockKey} {r : Result Unit} (h : selectVictim p ex = (.ok v, p₁))
      (h' : cancelVictim p₁ v = (r, p')) : Sheds ex [] p p'
  | next {p p₁ p₂ p' : π} {v : BlockKey} {vs : List BlockKey} (h : selectVictim p ex = (.ok v, p₁))
      (h' : commitVictim p₁ v = .ok p₂) (rest : Sheds ex vs p₂ p') : Sheds ex (v :: vs) p p'

/-- `Put` of a key whose primary was at `old`, from `p` to `p'`. -/
inductive PutTrace (old : Option Location) (k : BlockKey) (size : ℕ) :
    List BlockKey → π → Result Unit → π → Prop
  | stored {vs : List BlockKey} {p p₁ p' : π} (room : Sheds (StorageNode.replacedKey old k) vs p p₁)
      (new : (old.all fun l => l.tier ≠ .dram) = true) (h : onInsert p₁ k size = .ok (.ok (), p')) :
      PutTrace old k size vs p (.ok ()) p'
  | replaced {vs : List BlockKey} {p p₁ p' : π} (room : Sheds (StorageNode.replacedKey old k) vs p p₁)
      (known : (old.all fun l => l.tier ≠ .dram) = false) (h : onAccess p₁ k = .ok p') :
      PutTrace old k size vs p (.ok ()) p'
  | bypassed {p : π} (new : (old.all fun l => l.tier ≠ .dram) = true) : PutTrace old k size [] p (.ok ()) p
  | dropped {p : π} (known : (old.all fun l => l.tier ≠ .dram) = false) :
      PutTrace old k size [] p (.ok ()) (onRemove p k)
  | failed {vs : List BlockKey} {p p' : π} {s : Status}
      (room : Sheds (StorageNode.replacedKey old k) vs p p') : PutTrace old k size vs p (.error s) p'
  | refused {vs : List BlockKey} {p p₁ p' : π} {s : Status}
      (room : Sheds (StorageNode.replacedKey old k) vs p p₁)
      (new : (old.all fun l => l.tier ≠ .dram) = true) (h : onInsert p₁ k size = .ok (.error s, p')) :
      PutTrace old k size vs p (.error s) p'
  | undone {vs : List BlockKey} {p p₁ p₂ : π} {s : Status}
      (room : Sheds (StorageNode.replacedKey old k) vs p p₁)
      (new : (old.all fun l => l.tier ≠ .dram) = true) (h : onInsert p₁ k size = .ok (.ok (), p₂)) :
      PutTrace old k size vs p (.error s) (onRemove p₂ k)

/-- The end of a `Put` into DRAM, from a policy that has made room. -/
inductive Settles (old : Option Location) (k : BlockKey) (size : ℕ) : Result Unit → π → π → Prop
  | stored {p p' : π} (new : (old.all fun l => l.tier ≠ .dram) = true)
    (h : onInsert p k size = .ok (.ok (), p')) :
      Settles old k size (.ok ()) p p'
  | replaced {p p' : π} (known : (old.all fun l => l.tier ≠ .dram) = false) (h : onAccess p k = .ok p') :
      Settles old k size (.ok ()) p p'
  | failed {p : π} {s : Status} : Settles old k size (.error s) p p
  | refused {p p' : π} {s : Status} (new : (old.all fun l => l.tier ≠ .dram) = true)
      (h : onInsert p k size = .ok (.error s, p')) : Settles old k size (.error s) p p'
  | undone {p p₁ : π} {s : Status} (new : (old.all fun l => l.tier ≠ .dram) = true)
      (h : onInsert p k size = .ok (.ok (), p₁)) : Settles old k size (.error s) p (onRemove p₁ k)

/-- A settled `Put` after the room it needed was made. -/
theorem PutTrace.of_room {old : Option Location} {k : BlockKey} {size : ℕ} {vs : List BlockKey} {p p₁ p' : π}
    {r : Result Unit} (room : Sheds (StorageNode.replacedKey old k) vs p p₁)
    (h : Settles old k size r p₁ p') : PutTrace old k size vs p r p' := by
  cases h with
  | stored new h => exact .stored room new h
  | replaced known h => exact .replaced room known h
  | failed => exact .failed room
  | refused new h => exact .refused room new h
  | undone new h => exact .undone room new h

/-- `Get` of a key whose primary was at `old`, from `p` to `p'`. -/
inductive GetTrace (old : Option Location) (k : BlockKey) : List BlockKey → π → Result Unit → π → Prop
  | failed {p : π} {s : Status} : GetTrace old k [] p (.error s) p
  | hit {p p' : π} (known : (old.all fun l => l.tier ≠ .dram) = false) (h : onAccess p k = .ok p') :
      GetTrace old k [] p (.ok ()) p'
  | served {vs : List BlockKey} {p p' : π} (new : (old.all fun l => l.tier ≠ .dram) = true)
      (room : Sheds none vs p p') : GetTrace old k vs p (.ok ()) p'
  | promoted {vs : List BlockKey} {p p₁ p' : π} {size : ℕ} {r : Result Unit}
      (new : (old.all fun l => l.tier ≠ .dram) = true) (room : Sheds none vs p p₁)
      (h : onPromotionCommitted p₁ k size = .ok (r, p')) : GetTrace old k vs p (.ok ()) p'

end Traces

namespace StorageNode

variable {τ π : Type}

/-- The policy of `n'` is that of `n`, moved as `R` says, and `d` demotions were counted. -/
structure Steers (R : π → π → Prop) (d : ℕ) (n n' : StorageNode τ π) : Prop where
  policy : ∀ p, n.eviction = some p → ∃ p', n'.eviction = some p' ∧ R p p'
  demotions : n'.stats.demotions = n.stats.demotions + d

/-- Neither the policy nor the count of demotions changed. -/
structure Apart (n n' : StorageNode τ π) : Prop where
  policy : n'.eviction = n.eviction
  demotions : n'.stats.demotions = n.stats.demotions

section Steers

variable {n n₁ n' : StorageNode τ π} {R S : π → π → Prop} {d : ℕ}

theorem Apart.refl (n : StorageNode τ π) : Apart n n := ⟨rfl, rfl⟩

theorem Apart.trans (h : Apart n n₁) (h' : Apart n₁ n') : Apart n n' :=
  ⟨h'.policy.trans h.policy, h'.demotions.trans h.demotions⟩

theorem Apart.steers (h : Apart n n') (hR : ∀ p, R p p) : Steers R 0 n n' :=
  ⟨fun p hp => ⟨p, h.policy.trans hp, hR p⟩, h.demotions⟩

theorem Steers.mono (h : Steers R d n n') (hRS : ∀ p p', R p p' → S p p') : Steers S d n n' where
  policy p hp := by
    obtain ⟨p', hp', hR⟩ := h.policy p hp
    exact ⟨p', hp', hRS p p' hR⟩
  demotions := h.demotions

theorem Steers.after (h : Steers R d n₁ n') (ha : Apart n n₁) : Steers R d n n' :=
  ⟨fun p hp => h.policy p (ha.policy.trans hp), by rw [h.demotions, ha.demotions]⟩

theorem Steers.before (h : Steers R d n n₁) (ha : Apart n₁ n') : Steers R d n n' where
  policy p hp := by
    obtain ⟨p', hp', hR⟩ := h.policy p hp
    exact ⟨p', ha.policy.trans hp', hR⟩
  demotions := by rw [ha.demotions, h.demotions]

end Steers

/-! ### Rules

    What the calls on one tier keep, the functions made of them keep. -/

section Rules

variable [Tier τ] {R : StorageNode τ π → StorageNode τ π → Prop} (n : StorageNode τ π) (i : ℕ) (k : BlockKey)

theorem readBlockLocked_rule (htrans : ∀ {a b c}, R a b → R b c → R a c) (hdrawn : ∀ n, R n n.drawn)
    (hprobe : ∀ n, Yields False (n.callTier i (Tier.probe · k)) fun res => R n res.2)
    (hfetch : ∀ n dst out, Yields False (n.callTier i (fetch k dst out)) fun res => R n res.2) :
    Yields False (n.readBlockLocked i k) fun res => R n res.2 := by
  refine (hprobe n).bind ?_
  rintro ⟨info, n₁⟩ h₁
  cases info with
  | error s => exact h₁
  | ok info =>
    have hn₁ : R n n₁.drawn := htrans h₁ (hdrawn n₁)
    dsimp only
    split
    · exact hn₁
    · refine (hfetch n₁.drawn _ _).bind ?_
      rintro ⟨⟨fetched, out⟩, n₂⟩ h₂
      have hn₂ : R n n₂ := htrans hn₁ h₂
      cases fetched with
      | error s => exact hn₂
      | ok _ =>
        dsimp only
        split <;> exact hn₂

theorem probe_rule (hrefl : R n n)
    (hprobe : ∀ i, Yields False (n.callTier i (Tier.probe · k)) fun res => R n res.2) :
    Yields False (n.probe k) fun res => R n res.2 := by
  unfold probe
  split
  · exact .ok hrefl
  split
  · exact .ok hrefl
  split
  · exact .ok hrefl
  · exact hprobe _

/-- A reserved victim is cancelled after nothing but reads, or stored in the sink and committed. -/
theorem demoteReserved_rule [EvictionPolicy π] {Q : Result Unit × StorageNode τ π → Prop} (dram sink : ℕ)
    (p : π)
    (v : BlockKey) (hrefl : R n n) (hread : Yields False (n.readBlockLocked dram v) fun res => R n res.2)
    (hcancel : ∀ n₁ s context, R n n₁ → Q (n₁.cancelVictimOrInternal p v s context))
    (hput : ∀ n₁ b, R n n₁ → Yields False (n₁.callTier sink (Tier.put · v b)) fun res =>
      (∀ s, res.1 = .error s → R n res.2) ∧
        ∀ h, res.1 = .ok h → Yields False (res.2.commitDemotion dram sink p v b h) Q) :
    Yields False (n.demoteReserved dram sink p v) Q := by
  unfold demoteReserved
  cases n.index.validateRelocate v .dram with
  | error s => exact hcancel n s _ hrefl
  | ok _ =>
    refine hread.bind ?_
    rintro ⟨read, n₁⟩ h₁
    cases read with
    | error s => exact hcancel n₁ s _ h₁
    | ok block =>
      refine (Yields.trivial _).bind fun erasable _ => ?_
      cases erasable with
      | error s => exact hcancel n₁ s _ h₁
      | ok _ =>
        dsimp only
        cases validateVictimCommit p v with
        | error s => exact hcancel n₁ s _ h₁
        | ok _ =>
          refine (hput n₁ block h₁).bind ?_
          rintro ⟨stored, n₂⟩ ⟨herror, hok⟩
          cases stored with
          | error s => exact hcancel n₂ s _ (herror s rfl)
          | ok handle => exact hok handle rfl

/-- Whatever comes after `n'` comes after `n`. -/
def Extends (R : StorageNode τ π → StorageNode τ π → Prop) (n n' : StorageNode τ π) : Prop :=
  ∀ n'', R n' n'' → R n n''

/-- What an attempt to demote does to a node with `I`, as far as `R` can tell. -/
def Attempt (I : StorageNode τ π → Prop) (R : StorageNode τ π → StorageNode τ π → Prop) (n : StorageNode τ π)
    (res : Result Unit × StorageNode τ π) : Prop :=
  (res.1 = .ok () ∧ I res.2 ∧ Extends R n res.2) ∨ (∃ s, res.1 = .error s) ∧ R n res.2

/-- The loop is a sequence of demotions, the last of which may fail. -/
theorem makeRoomLoop_rule [EvictionPolicy π] {I : StorageNode τ π → Prop} {dram : ℕ} {ex : Option BlockKey}
    (hrefl : ∀ n, R n n)
    (hdemote : ∀ n sink, I n → n.colderTierLocked = some sink →
      Yields False (n.demoteOneVictimLocked dram sink ex) (Attempt I R n))
    (replaced : UInt64) (incoming : ℕ) : ∀ (fuel : ℕ) (n : StorageNode τ π), I n →
      Yields False (makeRoomLoop dram replaced incoming ex fuel n) fun res => R n res.2
  | 0, _, _ => not_false
  | fuel + 1, n, hn => by
    refine (Yields.trivial _).bind fun before _ => ?_
    split
    · exact hrefl n
    split
    · exact hrefl n
    split
    · exact hrefl n
    split
    · exact hrefl n
    split
    · exact hrefl n
    rename_i sink hsink
    refine (hdemote n sink hn hsink).bind ?_
    rintro ⟨r, n₁⟩ (⟨rfl, hn₁, hmore⟩ | ⟨⟨s, rfl⟩, hlast⟩)
    · refine (Yields.trivial _).bind fun after _ => ?_
      split
      · exact hmore n₁ (hrefl n₁)
      · exact (makeRoomLoop_rule hrefl hdemote replaced incoming fuel n₁ hn₁).mono fun res h => hmore res.2 h
    · dsimp only
      split <;> exact hlast

/-- Making room is that loop, after a look at the block to be replaced. -/
theorem makeDramRoomForLocked_rule [EvictionPolicy π] {I : StorageNode τ π → Prop} {ex : Option BlockKey}
    (hn : I n) (hrefl : ∀ n, R n n)
    (hprobe : ∀ dram key, n.tierOfLocked .dram = some dram →
      Yields False (n.callTier dram (Tier.probe · key)) fun res => I res.2 ∧ Extends R n res.2)
    (hdemote : ∀ dram n' sink, n.tierOfLocked .dram = some dram → I n' → n'.colderTierLocked = some sink →
      Yields False (n'.demoteOneVictimLocked dram sink ex) (Attempt I R n'))
    (incoming : ℕ) : Yields False (n.makeDramRoomForLocked incoming ex) fun res => R n res.2 := by
  unfold makeDramRoomForLocked
  cases hdram : n.tierOfLocked .dram with
  | none => exact hrefl n
  | some dram =>
    have hloop := makeRoomLoop_rule hrefl fun n' sink => hdemote dram n' sink hdram
    refine (Yields.trivial _).bind fun stats _ => ?_
    cases ex with
    | none => exact hloop 0 incoming _ n hn
    | some key =>
      refine (hprobe dram key hdram).bind ?_
      rintro ⟨old, n₁⟩ ⟨hn₁, hmore⟩
      cases old with
      | error s => exact hmore n₁ (hrefl n₁)
      | ok old => exact (hloop _ incoming _ n₁ hn₁).mono fun res h => hmore res.2 h

/-- A block too large for DRAM goes to the sink: nothing gets stored (`P`), or the block does (`S`), and
    then a copy in DRAM is dropped (`D`). -/
theorem putOversizedLocked_rule [EvictionPolicy π] {P S D : StorageNode τ π → Prop}
    {Q : Result Unit × StorageNode τ π → Prop} (b : Block) (dram sink : ℕ) (old : Option Location)
    (hn : P n) (hfailed : ∀ s n₁, P n₁ → Q (.error s, n₁)) (hupsert : ∀ loc, P (n.upsertIndex k loc).2)
    (hremove : ∀ n₁, P n₁ → Yields False (n₁.removeIndex k) P)
    (hput : ∀ n₁, P n₁ → Yields False (n₁.callTier sink (Tier.put · k b)) fun res =>
      (∀ s, res.1 = .error s → P res.2) ∧ ∀ h, res.1 = .ok h → S res.2)
    (hdrop : ∀ n₁, S n₁ → Yields False ((policyOnRemove · k) <$> n₁.eraseFrom dram k) D)
    (hstored : (old.all fun l => l.tier ≠ .dram) = true → ∀ n₁ e t h, S n₁ →
      Yields False (n₁.relocateIndex k e t h) fun n₂ => Q (.ok (), n₂.wrote b.sizeBytes))
    (hdropped : (old.all fun l => l.tier ≠ .dram) = false → ∀ n₁ e t h, D n₁ →
      Yields False (n₁.relocateIndex k e t h) fun n₂ => Q (.ok (), n₂.wrote b.sizeBytes)) :
    Yields False (n.putOversizedLocked k b dram sink old) Q := by
  unfold putOversizedLocked
  refine (Yields.trivial _).bind fun sinkType _ => ?_
  cases old with
  | some loc =>
    dsimp only
    split
    · exact hfailed _ n hn
    by_cases htier : loc.tier = .dram
    · simp only [if_pos htier]
      refine (Yields.trivial _).bind fun erasable _ => ?_
      cases erasable with
      | error s => exact hfailed s n hn
      | ok _ =>
        refine (hput n hn).bind ?_
        rintro ⟨stored, n₁⟩ ⟨herror, hok⟩
        cases stored with
        | error s => exact hfailed s n₁ (herror s rfl)
        | ok handle =>
          refine (hdrop n₁ (hok handle rfl)).bind fun n₂ h₂ => ?_
          exact (hdropped (by simp [htier]) n₂ _ _ _ h₂).bind fun n₃ h₃ => .ok h₃
    · simp only [if_neg htier]
      refine (hput n hn).bind ?_
      rintro ⟨stored, n₁⟩ ⟨herror, hok⟩
      cases stored with
      | error s => exact hfailed s n₁ (herror s rfl)
      | ok handle =>
        exact (hstored (by simp [htier]) n₁ _ _ _ (hok handle rfl)).bind fun n₂ h₂ => .ok h₂
  | none =>
    have hindex := hupsert ⟨n.id, sinkType, 0⟩
    rcases hup : n.upsertIndex k ⟨n.id, sinkType, 0⟩ with ⟨r, n₁⟩
    rw [hup] at hindex
    cases r with
    | error s => exact hfailed s n₁ hindex
    | ok _ =>
      refine (hput n₁ hindex).bind ?_
      rintro ⟨stored, n₂⟩ ⟨herror, hok⟩
      cases stored with
      | error s => exact (hremove n₂ (herror s rfl)).bind fun n₃ h₃ => .ok (hfailed s n₃ h₃)
      | ok handle => exact (hstored rfl n₂ _ _ _ (hok handle rfl)).bind fun n₃ h₃ => .ok h₃

end Rules

/-! ### Calls that leave the policy alone -/

section Apart

variable {α : Type} (n : StorageNode τ π) (i : ℕ) (k : BlockKey)

theorem callTier_apart (f : τ → α × τ) : Yields False (n.callTier i f) fun res => Apart n res.2 := by
  unfold callTier
  split
  · exact ⟨rfl, rfl⟩
  · exact not_false

theorem relocateIndex_apart (e t : TierType) (h : UInt64) :
    Yields False (n.relocateIndex k e t h) (Apart n) :=
  (Yields.trivial _).bind fun _ _ => ⟨rfl, rfl⟩

theorem removeIndex_apart : Yields False (n.removeIndex k) (Apart n) :=
  (Yields.trivial _).bind fun _ _ => ⟨rfl, rfl⟩

theorem wrote_apart (bytes : ℕ) : Apart n (n.wrote bytes) := ⟨rfl, rfl⟩

theorem upsertIndex_apart (loc : Location) : Apart n (n.upsertIndex k loc).2 := ⟨rfl, rfl⟩

variable [Tier τ]

theorem eraseFrom_apart : Yields False (n.eraseFrom i k) (Apart n) :=
  (Yields.trivial _).bind fun _ _ => (Yields.trivial _).bind fun _ _ => ⟨rfl, rfl⟩

theorem undoInsert_apart : Yields False (n.undoInsert i k) (Apart n) := by
  refine (Yields.trivial _).bind fun r _ => ?_
  cases r with
  | error s => exact not_false
  | ok _ => exact n.eraseFrom_apart i k

theorem readBlockLocked_apart : Yields False (n.readBlockLocked i k) fun res => Apart n res.2 :=
  n.readBlockLocked_rule i k Apart.trans (fun _ => ⟨rfl, rfl⟩) (fun n => n.callTier_apart i _)
    fun n _ _ => n.callTier_apart i _

theorem probe_apart : Yields False (n.probe k) fun res => Apart n res.2 :=
  n.probe_rule k (.refl n) fun i => n.callTier_apart i _

end Apart

/-! ### Telling the policy -/

/-- The policy is told of a new key. -/
theorem policyOnInsert_steers (n : StorageNode τ π) (ins : π → Except Halt (Result Unit × π)) :
    Yields False (n.policyOnInsert ins) fun res =>
      Steers (fun p p' => ins p = .ok (res.1, p')) 0 n res.2 := by
  unfold policyOnInsert
  cases hp : n.eviction with
  | none => exact ⟨(fun p hp' => by rw [hp] at hp'; cases hp'), rfl⟩
  | some p =>
    dsimp only
    cases hins : ins p with
    | error e => exact not_false
    | ok res =>
      obtain ⟨r, p'⟩ := res
      refine ⟨fun q hq => ⟨p', rfl, ?_⟩, rfl⟩
      rw [← Option.some.inj (hp.symm.trans hq)]
      exact hins

variable [EvictionPolicy π]

theorem policyOnAccess_steers (n : StorageNode τ π) (k : BlockKey) :
    Yields False (n.policyOnAccess k) (Steers (fun p p' => onAccess p k = .ok p') 0 n) := by
  unfold policyOnAccess
  cases hp : n.eviction with
  | none => exact ⟨(fun p hp' => by rw [hp] at hp'; cases hp'), rfl⟩
  | some p =>
    dsimp only
    cases hacc : onAccess p k with
    | error e => exact not_false
    | ok p' =>
      refine ⟨fun q hq => ⟨p', rfl, ?_⟩, rfl⟩
      rw [← Option.some.inj (hp.symm.trans hq)]
      exact hacc

theorem policyOnRemove_steers (n : StorageNode τ π) (k : BlockKey) :
    Steers (fun p p' => p' = onRemove p k) 0 n (n.policyOnRemove k) :=
  ⟨fun p hp => ⟨onRemove p k, by rw [policyOnRemove, hp]; rfl, rfl⟩, rfl⟩

/-! ### Making room -/

/-- A given-back victim: the call fails and the policy has been asked to cancel. -/
theorem cancelVictimOrInternal_policy (n : StorageNode τ π) (p : π) (v : BlockKey) (cause : Status)
    (context : String) : ∃ s, (n.cancelVictimOrInternal p v cause context).1 = .error s ∧
      (n.cancelVictimOrInternal p v cause context).2.eviction = some (cancelVictim p v).2 ∧
      (n.cancelVictimOrInternal p v cause context).2.stats = n.stats := by
  unfold cancelVictimOrInternal
  rcases cancelVictim p v with ⟨r, p'⟩
  cases r with
  | ok _ => exact ⟨_, rfl, rfl, rfl⟩
  | error c => exact ⟨_, rfl, rfl, rfl⟩

/-- What became of a reserved victim. -/
def Disposed (p : π) (v : BlockKey) (n : StorageNode τ π) (res : Result Unit × StorageNode τ π) : Prop :=
  (∃ s, res.1 = .error s ∧ res.2.eviction = some (cancelVictim p v).2 ∧
    res.2.stats.demotions = n.stats.demotions) ∨
  ∃ p', res.1 = .ok () ∧ commitVictim p v = .ok p' ∧ res.2.eviction = some p' ∧
    res.2.stats.demotions = n.stats.demotions + 1

theorem disposed_cancelled {n n₁ : StorageNode τ π} (h : Apart n n₁) (p : π) (v : BlockKey) (cause : Status)
    (context : String) : Disposed p v n (n₁.cancelVictimOrInternal p v cause context) := by
  obtain ⟨s, hs, hp, hstats⟩ := n₁.cancelVictimOrInternal_policy p v cause context
  exact .inl ⟨s, hs, hp, by rw [hstats, h.demotions]⟩

variable [Tier τ]

theorem commitDemotion_disposed {n n₁ : StorageNode τ π} (h : Apart n n₁) (dram sink : ℕ) (p : π)
    (v : BlockKey) (b : Block) (handle : UInt64) :
    Yields False (n₁.commitDemotion dram sink p v b handle) (Disposed p v n) := by
  refine (n₁.eraseFrom_apart dram v).bind fun n₂ h₂ => ?_
  refine (Yields.trivial _).bind fun type _ => (Yields.trivial _).bind fun index _ => ?_
  cases hcommit : commitVictim p v with
  | error e => exact not_false
  | ok p' =>
    refine .inr ⟨p', rfl, hcommit, rfl, ?_⟩
    show n₂.stats.demotions + 1 = n.stats.demotions + 1
    rw [(h.trans h₂).demotions]

theorem demoteReserved_disposed (n : StorageNode τ π) (dram sink : ℕ) (p : π) (v : BlockKey) :
    Yields False (n.demoteReserved dram sink p v) (Disposed p v n) := by
  refine n.demoteReserved_rule dram sink p v (.refl n) (n.readBlockLocked_apart dram v)
    (fun n₁ s context h₁ => disposed_cancelled h₁ p v s context) fun n₁ b h₁ => ?_
  refine (n₁.callTier_apart sink _).mono fun res h₂ => ?_
  exact ⟨fun _ _ => h₁.trans h₂, fun handle _ => commitDemotion_disposed (h₁.trans h₂) dram sink p v b handle⟩

/-- One attempt: `v` was selected and committed, or nothing came of it. -/
theorem demoteOneVictimLocked_steers (n : StorageNode τ π) (dram sink : ℕ) (ex : Option BlockKey) :
    Yields False (n.demoteOneVictimLocked dram sink ex) fun res =>
      (res.1 = .ok () ∧ ∃ v, Steers (fun p p' => ∃ p₁, selectVictim p ex = (.ok v, p₁) ∧
        commitVictim p₁ v = .ok p') 1 n res.2) ∨
      (∃ s, res.1 = .error s) ∧ Steers (Sheds ex []) 0 n res.2 := by
  unfold demoteOneVictimLocked
  cases hp : n.eviction with
  | none => exact .inr ⟨⟨_, rfl⟩, (Apart.refl n).steers fun p => .rest p⟩
  | some p =>
    rcases hsel : selectVictim p ex with ⟨r, p₁⟩
    have hpolicy : ∀ {q}, n.eviction = some q → q = p := fun hq => Option.some.inj (hq.symm.trans hp)
    cases r with
    | error s =>
      simp only [hsel]
      refine .inr ⟨⟨s, rfl⟩, fun q hq => ⟨p₁, rfl, ?_⟩, rfl⟩
      obtain rfl := hpolicy hq
      exact .refused hsel
    | ok v =>
      simp only [hsel]
      refine (demoteReserved_disposed _ dram sink p₁ v).mono ?_
      rintro ⟨r, n'⟩ (⟨s, rfl, hev, hdem⟩ | ⟨p', rfl, hcommit, hev, hdem⟩)
      · refine .inr ⟨⟨s, rfl⟩, fun q hq => ⟨_, hev, ?_⟩, hdem⟩
        obtain rfl := hpolicy hq
        exact .cancelled hsel rfl
      · refine .inl ⟨rfl, v, fun q hq => ⟨p', hev, p₁, ?_, hcommit⟩, hdem⟩
        obtain rfl := hpolicy hq
        exact hsel

/-- Some victims were shed, one after the other. -/
def Shed (ex : Option BlockKey) (n n' : StorageNode τ π) : Prop := ∃ vs, Steers (Sheds ex vs) vs.length n n'

omit [Tier τ] in
/-- One more in front. -/
theorem Shed.next {n n₁ n' : StorageNode τ π} {ex : Option BlockKey} {v : BlockKey}
    (hv : Steers (fun p p' => ∃ p₁, selectVictim p ex = (.ok v, p₁) ∧ commitVictim p₁ v = .ok p') 1 n n₁)
    (h : Shed ex n₁ n') : Shed ex n n' := by
  obtain ⟨vs, hvs⟩ := h
  refine ⟨v :: vs, fun p hp => ?_, ?_⟩
  · obtain ⟨p₁, hp₁, q, hsel, hcommit⟩ := hv.policy p hp
    obtain ⟨p₂, hp₂, hrest⟩ := hvs.policy p₁ hp₁
    exact ⟨p₂, hp₂, .next hsel hcommit hrest⟩
  · rw [hvs.demotions, hv.demotions, List.length_cons]
    omega

/-- Making room sheds victims until it stops, for whatever reason. -/
theorem makeDramRoomForLocked_steers (n : StorageNode τ π) (incoming : ℕ) (ex : Option BlockKey) :
    Yields False (n.makeDramRoomForLocked incoming ex) fun res =>
      ∃ vs, Steers (Sheds ex vs) vs.length n res.2 := by
  have hstay : ∀ {n n' : StorageNode τ π}, Apart n n' → Shed ex n n' :=
    fun h => ⟨[], h.steers fun p => .rest p⟩
  refine n.makeDramRoomForLocked_rule (R := Shed ex) (I := fun _ => True) trivial (fun n => hstay (.refl n))
    (fun dram key _ => ?_) (fun dram n' sink _ _ _ => ?_) incoming
  · refine (n.callTier_apart dram _).mono fun res h => ⟨trivial, ?_⟩
    rintro n' ⟨vs, hvs⟩
    exact ⟨vs, hvs.after h⟩
  · refine (n'.demoteOneVictimLocked_steers dram sink ex).mono ?_
    rintro res (⟨hok, v, hv⟩ | ⟨herror, hnone⟩)
    · exact .inl ⟨hok, trivial, fun _ h => Shed.next hv h⟩
    · exact .inr ⟨herror, [], hnone⟩

/-! ### Put -/

theorem putHot_steers (n : StorageNode τ π) (k : BlockKey) (b : Block) (old : Option Location) :
    Yields False (n.putHot k b old) fun res => Steers (Settles old k b.sizeBytes res.1) 0 n res.2 := by
  unfold putHot
  split
  · exact (Apart.refl n).steers fun _ => .failed
  refine (n.callTier_apart 0 _).bind ?_
  rintro ⟨stored, n₁⟩ h₁
  cases stored with
  | error s => exact h₁.steers fun _ => .failed
  | ok handle =>
    dsimp only
    cases hnew : old.all fun l => l.tier ≠ .dram with
    | true =>
      rw [if_pos rfl]
      refine (n₁.policyOnInsert_steers _).bind ?_
      rintro ⟨inserted, n₂⟩ h₂
      have hins := h₂.after h₁
      cases inserted with
      | error s =>
        refine (n₂.undoInsert_apart 0 k).bind fun n₃ h₃ => ?_
        exact (hins.before h₃).mono fun _ _ h => .refused hnew h
      | ok _ =>
        cases old with
        | some loc =>
          refine (n₂.relocateIndex_apart k loc.tier .dram handle).bind fun n₃ h₃ => ?_
          rw [if_pos rfl]
          exact .ok ((hins.before (h₃.trans (wrote_apart n₃ _))).mono fun _ _ h => .stored hnew h)
        | none =>
          have hindex := n₂.upsertIndex_apart k ⟨n₂.id, .dram, handle⟩
          rcases hup : n₂.upsertIndex k ⟨n₂.id, .dram, handle⟩ with ⟨r, n₃⟩
          rw [hup] at hindex
          cases r with
          | ok _ =>
            exact .ok ((hins.before (hindex.trans (wrote_apart n₃ _))).mono fun _ _ h => .stored hnew h)
          | error s =>
            refine ((n₃.policyOnRemove k).undoInsert_apart 0 k).bind fun n₄ h₄ => ?_
            have hrem := ((n₃.policyOnRemove_steers k).after hindex).before h₄
            refine ⟨fun p hp => ?_, ?_⟩
            · obtain ⟨p₁, hp₁, hp₁'⟩ := hins.policy p hp
              obtain ⟨p₂, hp₂, rfl⟩ := hrem.policy p₁ hp₁
              exact ⟨_, hp₂, .undone hnew hp₁'⟩
            · rw [hrem.demotions, hins.demotions]
    | false =>
      cases old with
      | none => cases hnew
      | some loc =>
        refine (n₁.relocateIndex_apart k loc.tier .dram handle).bind fun n₂ h₂ => ?_
        refine (n₂.policyOnAccess_steers k).bind fun n₃ h₃ => ?_
        exact .ok (((h₃.after (h₁.trans h₂)).before (wrote_apart n₃ _)).mono fun _ _ h => .replaced hnew h)

/-- An oversized block goes past the policy, which forgets a copy that DRAM drops. -/
theorem putOversizedLocked_steers (n : StorageNode τ π) (k : BlockKey) (b : Block) (dram sink : ℕ)
    (old : Option Location) : Yields False (n.putOversizedLocked k b dram sink old) fun res =>
      Steers (PutTrace old k b.sizeBytes [] · res.1 ·) 0 n res.2 := by
  refine n.putOversizedLocked_rule k (P := Apart n) (S := Apart n)
    (D := Steers (fun p p' => p' = onRemove p k) 0 n) b dram sink old (.refl n)
    (fun s n₁ h => h.steers fun p => .failed (.rest p)) (n.upsertIndex_apart k)
    (fun n₁ h => (n₁.removeIndex_apart k).mono fun _ h' => h.trans h') ?_ ?_ ?_ ?_
  · intro n₁ h
    exact (n₁.callTier_apart sink _).mono fun res h' => ⟨fun _ _ => h.trans h', fun _ _ => h.trans h'⟩
  · intro n₁ h
    exact Yields.map (n₁.eraseFrom_apart dram k) fun n₂ h₂ => (n₂.policyOnRemove_steers k).after (h.trans h₂)
  · intro hkept n₁ e t handle h
    refine (n₁.relocateIndex_apart k e t handle).mono fun n₂ h₂ => ?_
    exact (h.trans (h₂.trans (wrote_apart n₂ _))).steers fun p => .bypassed hkept
  · intro hhot n₁ e t handle h
    refine (n₁.relocateIndex_apart k e t handle).mono fun n₂ h₂ => ?_
    refine (h.before (h₂.trans (wrote_apart n₂ _))).mono ?_
    rintro p p' rfl
    exact .dropped hhot

/-- PUT: what a `Put` on a node with a DRAM tier in front asks of the policy. -/
theorem put_steers (n : StorageNode τ π) {hot : τ} (hhot : n.tiers.head? = some (some hot))
    (htype : Tier.type hot = .dram) (k : BlockKey) (b : Block) :
    Yields False (n.put k b) fun res =>
      ∃ vs, Steers (PutTrace (n.index.at? k) k b.sizeBytes vs · res.1 ·) vs.length n res.2 := by
  unfold put
  split
  · exact ⟨[], (Apart.refl n).steers fun p => .failed (.rest p)⟩
  simp only [hhot, htype, ne_eq, not_true_eq_false, if_false]
  split
  · split
    · exact ⟨[], (Apart.refl n).steers fun p => .failed (.rest p)⟩
    · exact (n.putOversizedLocked_steers k b 0 _ _).mono fun res h => ⟨[], h⟩
  · refine (n.makeDramRoomForLocked_steers b.sizeBytes _).bind ?_
    rintro ⟨room, n₁⟩ ⟨vs, h₁⟩
    cases room with
    | error s => exact ⟨vs, h₁.mono fun _ _ h => .failed h⟩
    | ok _ =>
      refine (n₁.putHot_steers k b (n.index.at? k)).mono ?_
      rintro ⟨r, n₂⟩ h₂
      refine ⟨vs, fun p hp => ?_, ?_⟩
      · obtain ⟨p₁, hp₁, hroom⟩ := h₁.policy p hp
        obtain ⟨p₂, hp₂, hsettles⟩ := h₂.policy p₁ hp₁
        exact ⟨p₂, hp₂, .of_room hroom hsettles⟩
      · rw [h₂.demotions, h₁.demotions]
        rfl

/-! ### Get -/

/-- A promotion: the key may be told to the policy once room is made. -/
def Promotes (k : BlockKey) (vs : List BlockKey) (p p' : π) : Prop :=
  Sheds none vs p p' ∨ ∃ p₁ size r, Sheds none vs p p₁ ∧ onPromotionCommitted p₁ k size = .ok (r, p')

theorem promoteInto_steers (n : StorageNode τ π) (dram : ℕ) (k : BlockKey) (b : Block) :
    Yields False (n.promoteInto dram k b)
      (Steers (fun p p' => p' = p ∨ ∃ r, onPromotionCommitted p k b.sizeBytes = .ok (r, p')) 0 n) := by
  refine (n.callTier_apart dram _).bind ?_
  rintro ⟨stored, n₁⟩ h₁
  cases stored with
  | error s => exact .ok (h₁.steers fun p => .inl rfl)
  | ok handle =>
    refine (n₁.policyOnInsert_steers _).bind ?_
    rintro ⟨promoted, n₂⟩ h₂
    have hins := h₂.after h₁
    cases promoted with
    | error s =>
      exact (n₂.undoInsert_apart dram k).mono fun n₃ h₃ => (hins.before h₃).mono fun _ _ h => .inr ⟨_, h⟩
    | ok _ =>
      refine (n₂.relocateIndex_apart k .ssd .dram handle).bind fun n₃ h₃ => .ok ?_
      refine .mono (hins.before (h₃.trans ?_)) fun _ _ h => .inr ⟨_, h⟩
      exact ⟨rfl, rfl⟩

theorem tryPromoteToDramLocked_steers (n : StorageNode τ π) (k : BlockKey) (view : BlockView) :
    Yields False (n.tryPromoteToDramLocked k view) fun n' => ∃ vs, Steers (Promotes k vs) vs.length n n' := by
  have hstay : ∀ {n' : StorageNode τ π}, Apart n n' → ∃ vs, Steers (Promotes k vs) vs.length n n' :=
    fun h => ⟨[], h.steers fun p => .inl (.rest p)⟩
  unfold tryPromoteToDramLocked
  split
  · exact .ok (hstay (.refl n))
  · exact .ok (hstay (.refl n))
  refine (Yields.trivial _).bind fun stats _ => ?_
  split
  · exact .ok (hstay (.refl n))
  split
  · exact .ok (hstay (.refl n))
  refine (n.callTier_apart _ _).bind ?_
  rintro ⟨already, n₁⟩ h₁
  dsimp only
  split
  · exact .ok (hstay h₁)
  split
  · exact .ok (hstay (h₁.trans ⟨rfl, rfl⟩))
  refine (n₁.drawn.makeDramRoomForLocked_steers view.size none).bind ?_
  rintro ⟨room, n₂⟩ ⟨vs, h₂⟩
  have hdrawn : Apart n₁ n₁.drawn := ⟨rfl, rfl⟩
  have hroom := h₂.after (h₁.trans hdrawn)
  cases room with
  | error s => exact .ok ⟨vs, hroom.mono fun _ _ h => .inl h⟩
  | ok _ =>
    refine (n₂.promoteInto_steers _ k _).mono fun n₃ h₃ => ⟨vs, fun p hp => ?_, ?_⟩
    · obtain ⟨p₁, hp₁, hsheds⟩ := hroom.policy p hp
      obtain ⟨p₂, hp₂, rfl | ⟨r, hr⟩⟩ := h₃.policy p₁ hp₁
      · exact ⟨p₂, hp₂, .inl hsheds⟩
      · exact ⟨p₂, hp₂, .inr ⟨p₁, _, r, hsheds, hr⟩⟩
    · rw [h₃.demotions, hroom.demotions]
      rfl

/-- GET: what a `Get` asks of the policy. -/
theorem get_steers (n : StorageNode τ π) (k : BlockKey) (dst : MutableBuffer) (out : Option BlockView) :
    Yields False (n.get k dst out) fun res =>
      ∃ vs, Steers (GetTrace (n.index.at? k) k vs · res.1 ·) vs.length n res.2.2 := by
  have hfailed : ∀ {s : Status} {n' : StorageNode τ π}, Apart n n' →
      ∃ vs, Steers (GetTrace (n.index.at? k) k vs · (.error s) ·) vs.length n n' :=
    fun h => ⟨[], h.steers fun _ => .failed⟩
  unfold get
  split
  · exact .ok (hfailed (.refl n))
  cases hloc : n.index.at? k with
  | none =>
    rw [show n.index.find k = .error (.notFound k.toText) by simp [LocalIndex.find, hloc]]
    exact .ok (hloc ▸ hfailed ⟨rfl, rfl⟩)
  | some loc =>
    rw [show n.index.find k = .ok loc by simp [LocalIndex.find, hloc]]
    rw [hloc] at hfailed
    dsimp only
    split
    · exact .ok (hfailed (.refl n))
    refine (n.callTier_apart _ _).bind ?_
    rintro ⟨⟨fetched, view⟩, n₁⟩ h₁
    cases fetched with
    | error s =>
      refine .ok (hfailed ?_)
      split
      · exact h₁.trans ⟨rfl, rfl⟩
      · exact h₁
    | ok _ =>
      cases view with
      | none => exact not_false
      | some view =>
        dsimp only
        by_cases htier : loc.tier = .dram
        · rw [if_pos htier]
          refine (policyOnAccess_steers _ k).bind fun n₂ h₂ => .ok ⟨[], ?_⟩
          exact (h₂.after (h₁.trans ⟨rfl, rfl⟩)).mono fun _ _ h => .hit (by simp [htier]) h
        · rw [if_neg htier]
          refine (tryPromoteToDramLocked_steers _ k view).bind ?_
          rintro n₂ ⟨vs, h₂⟩
          refine .ok ⟨vs, ?_⟩
          refine (h₂.after (h₁.trans ⟨rfl, rfl⟩)).mono fun _ _ h => ?_
          rcases h with h | ⟨p₁, size, r, hsheds, h⟩
          · exact .served (by simp [htier]) h
          · exact .promoted (by simp [htier]) hsheds h

/-! ### Every data call -/

/-- What a data call asked of the policy, given where the primaries were; `vs` were demoted. -/
def Asks (primary : BlockKey → Option Location) (vs : List BlockKey) (p p' : π) : NodeCall → NodeReply → Prop
  | .put k b, .status r => PutTrace (primary k) k b.sizeBytes vs p r p'
  | .get k _ _, .view r _ => GetTrace (primary k) k vs p r p'
  | .probe _, .info _ => vs = [] ∧ p' = p
  | .contains _, .present _ => vs = [] ∧ p' = p
  | _, _ => False

/-- CALLS: what a data call on a node with a DRAM tier in front asks of the policy. -/
theorem step_steers (n : StorageNode τ π) {hot : τ} (hhot : n.tiers.head? = some (some hot))
    (htype : Tier.type hot = .dram) {c : NodeCall} (hc : c.isData = true) :
    Yields False (n.step c) fun res =>
      ∃ vs, Steers (fun p p' => Asks n.index.at? vs p p' c res.1) vs.length n res.2 := by
  cases c with
  | openNode env => cases hc
  | closeNode => cases hc
  | put k b =>
    refine (n.put_steers hhot htype k b).map ?_
    rintro ⟨r, n'⟩ h
    exact h
  | get k dst out =>
    refine (n.get_steers k dst out).map ?_
    rintro ⟨r, view, n'⟩ h
    exact h
  | probe k =>
    refine (n.probe_apart k).map ?_
    rintro ⟨r, n'⟩ h
    exact ⟨[], h.steers fun p => ⟨rfl, rfl⟩⟩
  | contains k => exact .ok ⟨[], (Apart.refl n).steers fun p => ⟨rfl, rfl⟩⟩

end StorageNode

/-! ### Lawful policies -/

section Lawful

open PolicyView LawfulPolicy

variable {π : Type} [LawfulPolicy π] {p p₁ p₂ p' : π} {ex : Option BlockKey} {k v : BlockKey}

/-- A policy between calls: consistent, with nothing reserved. -/
structure Free (p : π) : Prop where
  wf : Wf p
  idle : reserved p = none

theorem Free.refused (h : Free p) {s : Status} (hsel : selectVictim p ex = (.error s, p₁)) : p₁ = p := by
  rcases select_law p ex h.wf h.idle with ⟨s', heq, -⟩ | ⟨v, q, heq, -⟩
  · exact (Prod.mk.inj (hsel.symm.trans heq)).2
  · cases (Prod.mk.inj (hsel.symm.trans heq)).1

theorem Free.selected (h : Free p) (hsel : selectVictim p ex = (.ok v, p₁)) :
    Wf p₁ ∧ reserved p₁ = some v := by
  rcases select_law p ex h.wf h.idle with ⟨s', heq, -⟩ | ⟨w, q, heq, -, -, hkept, -, hres⟩
  · cases (Prod.mk.inj (hsel.symm.trans heq)).1
  · obtain ⟨hv, rfl⟩ := Prod.mk.inj (hsel.symm.trans heq)
    obtain rfl := Except.ok.inj hv
    exact ⟨hkept.wf, hres⟩

theorem Free.committed (h : Free p) (hsel : selectVictim p ex = (.ok v, p₁))
    (hcommit : commitVictim p₁ v = .ok p₂) : Free p₂ := by
  obtain ⟨hwf, hres⟩ := h.selected hsel
  obtain ⟨q, heq, hkept, -, hfree⟩ := commit_law p₁ v hwf hres
  obtain rfl := Except.ok.inj (hcommit.symm.trans heq)
  exact ⟨hkept.wf, hfree⟩

theorem Free.cancelled (h : Free p) (hsel : selectVictim p ex = (.ok v, p₁)) {r : Result Unit}
    (hcancel : cancelVictim p₁ v = (r, p₂)) : Free p₂ := by
  obtain ⟨hwf, hres⟩ := h.selected hsel
  obtain ⟨q, heq, hkept, -, hfree⟩ := cancel_law p₁ v hwf hres
  obtain ⟨-, rfl⟩ := Prod.mk.inj (hcancel.symm.trans heq)
  exact ⟨hkept.wf, hfree⟩

theorem Free.inserted (h : Free p) {size : ℕ} {r : Result Unit} (hins : onInsert p k size = .ok (r, p')) :
    Free p' := by
  obtain ⟨r', q, heq, hkept, hfree, -⟩ := insert_law p k size h.wf h.idle
  obtain ⟨-, rfl⟩ := Prod.mk.inj (Except.ok.inj (hins.symm.trans heq))
  exact ⟨hkept.wf, hfree⟩

/-- SHED: what every demotion and every cancelled selection keeps, making room keeps. -/
theorem Sheds.keeps {I : π → Prop} {vs : List BlockKey}
    (hcommit : ∀ {q q₁ q₂ v}, Free q → selectVictim q ex = (.ok v, q₁) → commitVictim q₁ v = .ok q₂ →
      I q → I q₂)
    (hcancel : ∀ {q q₁ q₂ v r}, Free q → selectVictim q ex = (.ok v, q₁) → cancelVictim q₁ v = (r, q₂) →
      I q → I q₂)
    (h : Sheds ex vs p p') (hp : Free p) (hI : I p) : Free p' ∧ I p' := by
  induction h with
  | rest q => exact ⟨hp, hI⟩
  | refused hsel => rw [hp.refused hsel]; exact ⟨hp, hI⟩
  | cancelled hsel hback => exact ⟨hp.cancelled hsel hback, hcancel hp hsel hback hI⟩
  | next hsel hdone _ ih => exact ih (hp.committed hsel hdone) (hcommit hp hsel hdone hI)

/-- Making room costs no reliability. -/
theorem Sheds.reliable {vs : List BlockKey} (h : Sheds ex vs p p') (hp : Free p) (hr : Reliable p) :
    Free p' ∧ Reliable p' := by
  have hselect : ∀ {q q₁ : π} {v : BlockKey}, Free q → selectVictim q ex = (.ok v, q₁) → PolicyKept q q₁ := by
    intro q q₁ v hq hsel
    rcases select_law q ex hq.wf hq.idle with ⟨s, heq, -⟩ | ⟨w, q₂, heq, -, -, hkept, -⟩
    · cases (Prod.mk.inj (hsel.symm.trans heq)).1
    · obtain ⟨-, rfl⟩ := Prod.mk.inj (hsel.symm.trans heq)
      exact hkept
  refine h.keeps (fun hq hsel hcommit hI => ?_) (fun hq hsel hcancel hI => ?_) hp hr
  · obtain ⟨hwf, hres⟩ := hq.selected hsel
    obtain ⟨q', heq, hkept, -⟩ := commit_law _ _ hwf hres
    obtain rfl := Except.ok.inj (hcommit.symm.trans heq)
    exact hkept.reliable ((hselect hq hsel).reliable hI)
  · obtain ⟨hwf, hres⟩ := hq.selected hsel
    obtain ⟨q', heq, hkept, -⟩ := cancel_law _ _ hwf hres
    obtain ⟨-, rfl⟩ := Prod.mk.inj (hcancel.symm.trans heq)
    exact hkept.reliable ((hselect hq hsel).reliable hI)

end Lawful

end TidePool.Store
