import TidePool.Store.Processes

/-! The tiers a node is configured with are not to be seen.

    A DRAM tier in front of the disk makes a `Get` fast and a `Put` volatile; the policy decides which blocks
    it holds. None of that shows in a reply as long as the surroundings fail nothing: over the same records
    every layout answers as a plain map of blocks, in which a `Put` always succeeds.

        {DRAM, SSD}, LRU or ARC   ─┐
                                   ├─▶  codes, views and infos of one map
        {SSD}                     ─┘

    Two things have to be kept. A block matches its key, since only the disk checks that; and the DRAM tier
    has no limit or one below half of what 64 bits count, since the sum of the bytes in DRAM and a new block
    is refused when it wraps. What a reply shows of a block is not the handle: that is the tier's own. -/

namespace TidePool.Store
open Schemes

/-! ### The plain map -/

/-- What a caller sees of a reply. -/
inductive Seen where
  | status (code : StatusCode)
  | view (code : StatusCode) (out : Option BlockView)
  | info (code : StatusCode) (about : Option (BlockMetadata × ℕ))
  | present (code : StatusCode) (there : Option Bool)

/-- The message of a failure and the handle of a block are left out. -/
def NodeReply.seen : NodeReply → Seen
  | .status r => .status (Result.code r)
  | .view r out => .view (Result.code r) out
  | .info r => .info (Result.code r) (r.toOption.map fun i => (i.metadata, i.payloadSize))
  | .present r => .present (Result.code r) r.toOption

/-- What a map of blocks shows for a data call. -/
def plainReply (M : BlockKey → Option Block) : NodeCall → Seen
  | .get k dst out =>
    match M k with
    | none => .view .notFound (clearView out)
    | some b => .view (getContract (some b) dst out).1 (getContract (some b) dst out).2
  | .probe k =>
    match M k with
    | none => .info .notFound none
    | some b => .info .ok (some (b.metadata, b.sizeBytes))
  | .contains k => .present .ok (some (M k).isSome)
  | .put _ _ | .openNode _ | .closeNode => .status .ok

/-- The map after a call. -/
def plainPut (M : BlockKey → Option Block) : NodeCall → BlockKey → Option Block
  | .put k b => Function.update M k (some b)
  | _ => M

/-- What it shows for one call after another. -/
def plainReplies : (BlockKey → Option Block) → List NodeCall → List Seen
  | _, [] => []
  | M, c :: cs => plainReply M c :: plainReplies (plainPut M c) cs

/-- A data call whose block, if it puts one, matches its key. -/
def NodeCall.Plain (c : NodeCall) : Prop :=
  c.isData = true ∧ ∀ k b, c = .put k b → SsdTier.Matches k b.metadata

section Plain

variable {M : BlockKey → Option Block} {c : NodeCall} {o : NodeReply}

/-- A reply of a node that stands for `M`, without failures, shows what `M` shows. -/
theorem MapReply.seen_eq {F : Set Status} (h : MapReply M F c o) (hF : F = ∅) (hc : c.isData = true)
    (hput : ∀ k b, c = .put k b → o = .status (.ok ())) : o.seen = plainReply M c := by
  subst hF
  cases c with
  | openNode env => cases hc
  | closeNode => cases hc
  | put k b => rw [hput k b rfl]; rfl
  | get k dst out =>
    cases o with
    | view r out' =>
      rcases h with ⟨hnone, hcode, rfl⟩ | ⟨b, hsome, hcontract⟩ | ⟨s, hs, -⟩
      · simp only [NodeReply.seen, plainReply, hnone, hcode]
      · simp only [NodeReply.seen, plainReply, hsome, ← hcontract]
      · exact hs.elim
    | _ => exact h.elim
  | probe k =>
    cases o with
    | info r =>
      rcases h with ⟨hnone, hcode⟩ | ⟨b, handle, hsome, rfl⟩ | ⟨s, hs, -⟩
      · cases r with
        | ok i => cases hcode
        | error s => simp only [NodeReply.seen, plainReply, hnone, hcode, Except.toOption, Option.map_none]
      · simp only [NodeReply.seen, plainReply, hsome, Except.toOption, Option.map_some]
        rfl
      · exact hs.elim
    | _ => exact h.elim
  | contains k =>
    cases o with
    | present r =>
      rcases h with rfl | ⟨s, hs, -⟩
      · rfl
      · exact hs.elim
    | _ => exact h.elim

/-- Acknowledged or not is no question when no `Put` is refused. -/
theorem recordPut_plain (hput : ∀ k b, c = .put k b → o = .status (.ok ())) :
    TwoTier.recordPut M c o = plainPut M c := by
  cases c with
  | put k b => rw [hput k b rfl]; rfl
  | _ => rfl

theorem seen_of_accounts : ∀ {cs : List NodeCall} {os : List NodeReply} {M : BlockKey → Option Block},
    Accounts (fun M c o => o.seen = plainReply M c) (fun M c _ => plainPut M c) M cs os →
      os.map NodeReply.seen = plainReplies M cs
  | [], [], _, _ => rfl
  | c :: cs, o :: os, M, ⟨ho, hos⟩ => by
    rw [List.map_cons, plainReplies, ho, seen_of_accounts hos]

/-- Matching blocks stay so. -/
theorem plainPut_matches (hM : ∀ k b, M k = some b → SsdTier.Matches k b.metadata) (hc : c.Plain) :
    ∀ k b, plainPut M c k = some b → SsdTier.Matches k b.metadata := by
  cases c with
  | put k b =>
    intro j b' hb'
    rw [plainPut, Function.update_apply] at hb'
    by_cases hj : j = k
    · rw [if_pos hj] at hb'
      obtain rfl := Option.some.inj hb'
      exact hj ▸ hc.2 k b rfl
    · rw [if_neg hj] at hb'
      exact hM j b' hb'
  | _ => exact hM

end Plain

/-! ### Any layout -/

namespace Process

variable {p : Process} {records : Table Bytes Bytes} {n : StorageNode (DramTier ⊕ SsdTier) Policy}
  {M : BlockKey → Option Block}

/-- An open node of the process that stands for `M`, all of whose blocks match. -/
def Shows (p : Process) (records : Table Bytes Bytes) (n : StorageNode (DramTier ⊕ SsdTier) Policy)
    (M : BlockKey → Option Block) : Prop :=
  (∃ a, (p.setup records).Stands n ⟨true, a⟩ ∧ a.now = M) ∧ ∀ k b, M k = some b → SsdTier.Matches k b.metadata

/-- OPEN: a process finds the blocks that are on disk. -/
theorem opened_shows (hr : ReadableRecords records) {env : StorageNode.OpenEnv}
    (hopen : (p.boot records).openNode env = (.ok (), n)) : p.Shows records n (blocksOf records) := by
  obtain ⟨o, n', heq, -, hstands⟩ := (p.boot_stands hr).step (.openNode env)
  simp only [StorageNode.step, hopen] at heq
  obtain ⟨rfl, rfl⟩ := Prod.mk.inj (Except.ok.inj heq)
  exact ⟨⟨_, hstands, rfl⟩, fun k b hb => SsdTier.matches_of_readable (s := .onRecords records {}) hr hb⟩

/-- STEP: a data call shows what the map shows. -/
theorem Shows.step (h : p.Shows records n M) (hp : p.Undisturbed) (hsmall : p.layout.Small) {c : NodeCall}
    (hc : c.Plain) :
    ∃ o n', n.step c = .ok (o, n') ∧ o.seen = plainReply M c ∧ p.Shows records n' (plainPut M c) := by
  obtain ⟨⟨a, hstands, rfl⟩, hM⟩ := h
  obtain ⟨o, n', heq, hreply, hstands'⟩ := hstands.step c
  replace hreply := hreply.mono (p.setup_terms records)
  rw [Terms.Replies, if_neg (by simp)] at hreply
  obtain ⟨hmap, hexcuse⟩ := hreply
  have hput : ∀ k b, c = .put k b → o = .status (.ok ()) := by
    rintro k b rfl
    cases o with
    | status r =>
      cases r with
      | ok _ => rfl
      | error s => exact absurd ⟨hp, hsmall.admits hM, hc.2 k b rfl⟩ (hexcuse s rfl).2
    | _ => exact hmap.elim
  have hreads : p.terms.reads = ∅ := Set.eq_empty_of_forall_notMem fun st hst => hst.2 hp.calls
  rw [Session.record, recordOpen_data hc.1] at hstands'
  refine ⟨o, n', heq, hmap.seen_eq hreads hc.1 hput, ⟨_, hstands', ?_⟩, plainPut_matches hM hc⟩
  rw [recordDurable_now, recordPut_plain hput]

/-- RUN: so does a run of it. -/
theorem Shows.run (h : p.Shows records n M) (hp : p.Undisturbed) (hsmall : p.layout.Small)
    (calls : List NodeCall) (hcalls : ∀ c ∈ calls, c.Plain) :
    ∃ os n', Schemes.run StorageNode.step n calls = .ok (os, n') ∧
      os.map NodeReply.seen = plainReplies M calls := by
  have hstep : ∀ n M c, NodeCall.Plain c → p.Shows records n M → Yields True (StorageNode.step n c) fun res =>
      res.1.seen = plainReply M c ∧ p.Shows records res.2 (plainPut M c) := by
    intro n M c hc h
    obtain ⟨o, n', heq, hseen, h'⟩ := h.step hp hsmall hc
    rw [heq]
    exact ⟨hseen, h'⟩
  have hrun : Yields True (Schemes.run StorageNode.step n calls) fun res =>
      Accounts (fun M c o => NodeReply.seen o = plainReply M c) (fun M c _ => plainPut M c) M calls res.1 ∧
        p.Shows records res.2 (follow (fun M c _ => plainPut M c) M calls res.1) :=
    run_accounts hstep calls hcalls h
  obtain ⟨⟨os, n'⟩, heq, haccounts, -⟩ := hrun.answer trivial
  exact ⟨os, n', heq, seen_of_accounts haccounts⟩

end Process

/-- LAYOUTS: two nodes opened over the same records, whatever tiers, small capacity and policy each of
    them has, show the same replies to the same data calls when nothing around them fails: those of the
    map of blocks found. -/
theorem layout_invisible (records : Table Bytes Bytes) (hreadable : ReadableRecords records) (p q : Process)
    (hp : p.Undisturbed) (hq : q.Undisturbed) (hsmall : p.layout.Small) (hsmall' : q.layout.Small)
    (env env' : StorageNode.OpenEnv) (n m : StorageNode (DramTier ⊕ SsdTier) Policy)
    (hn : (p.boot records).openNode env = (.ok (), n))
    (hm : (q.boot records).openNode env' = (.ok (), m)) (calls : List NodeCall)
    (hcalls : ∀ c ∈ calls, c.Plain) :
    ∃ os n' os' m', run StorageNode.step n calls = .ok (os, n') ∧
      run StorageNode.step m calls = .ok (os', m') ∧
      os.map NodeReply.seen = plainReplies (blocksOf records) calls ∧
      os'.map NodeReply.seen = os.map NodeReply.seen := by
  obtain ⟨os, n', hrun, hseen⟩ := (Process.opened_shows hreadable hn).run hp hsmall calls hcalls
  obtain ⟨os', m', hrun', hseen'⟩ := (Process.opened_shows hreadable hm).run hq hsmall' calls hcalls
  exact ⟨os, n', os', m', hrun, hrun', hseen, hseen'.trans hseen.symm⟩

/-- One byte of DRAM in front of the disk, DRAM without a limit, and the disk alone. -/
def thin : Process := { id := "n", layout := .tiered 1 .lru, calls := [] }

def wide : Process := { id := "n", layout := .tiered 0 (.arc 1), calls := [] }

def flat : Process := { id := "m", layout := .ssdOnly none, calls := [] }

/-- The second `Put` demotes the first block, if there is anything to demote. -/
def thinCalls : List NodeCall :=
  [.put ⟨1, 1, 7⟩ (oneByte 1), .put ⟨2, 1, 7⟩ (oneByte 1), .get ⟨1, 1, 7⟩ ⟨true, 1⟩ (some {}),
    .probe ⟨2, 1, 7⟩]

theorem thinCalls_plain : ∀ c ∈ thinCalls, c.Plain := by
  simp only [thinCalls, List.forall_mem_cons, List.not_mem_nil, IsEmpty.forall_iff, implies_true, and_true]
  refine ⟨⟨rfl, ?_⟩, ⟨rfl, ?_⟩, ⟨rfl, fun _ _ h => by cases h⟩, ⟨rfl, fun _ _ h => by cases h⟩⟩
  all_goals
    rintro k b ⟨⟩
    decide

theorem layout_invisible_thin :
    (∃ os n' os' m', run StorageNode.step ((thin.boot ∅).openNode {}).2 thinCalls = .ok (os, n') ∧
      run StorageNode.step ((flat.boot ∅).openNode {}).2 thinCalls = .ok (os', m') ∧
      os.map NodeReply.seen = plainReplies (blocksOf ∅) thinCalls ∧
      os'.map NodeReply.seen = os.map NodeReply.seen) ∧
    ∃ os n' os' m', run StorageNode.step ((wide.boot ∅).openNode {}).2 thinCalls = .ok (os, n') ∧
      run StorageNode.step ((flat.boot ∅).openNode {}).2 thinCalls = .ok (os', m') ∧
      os.map NodeReply.seen = plainReplies (blocksOf ∅) thinCalls ∧
      os'.map NodeReply.seen = os.map NodeReply.seen := by
  have hcalm : Surroundings.Calm {} := ⟨fun _ => rfl, fun _ => rfl, fun _ => rfl, fun _ => rfl⟩
  have hthin : thin.Undisturbed := ⟨hcalm, fun _ => rfl, fun _ => rfl⟩
  have hwide : wide.Undisturbed := ⟨hcalm, fun _ => rfl, fun _ => rfl⟩
  have hflat : flat.Undisturbed := ⟨hcalm, fun _ => rfl, fun _ => rfl⟩
  have hsmall : 2 * (1 : UInt64).toNat < UInt64.size := by decide
  have hnone : 2 * (0 : UInt64).toNat < UInt64.size := by decide
  exact ⟨layout_invisible ∅ readable_empty thin flat hthin hflat hsmall trivial {} {} _ _ rfl rfl thinCalls
      thinCalls_plain,
    layout_invisible ∅ readable_empty wide flat hwide hflat hnone trivial {} {} _ _ rfl rfl thinCalls
      thinCalls_plain⟩

end TidePool.Store
