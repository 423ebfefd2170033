import TidePool.Schemes.Machine
import TidePool.Store.EvictionPolicy
import TidePool.Store.LocalIndex
import TidePool.Store.Tier

/-! The storage node (`src/store/storage_node.cpp`): an ordered list of tiers, a local index and an
    eviction policy, written against the two abstract interfaces.

    The node-wide lock makes every public call atomic, so a call is a function of the state. A `Tier*`
    is a position in `tiers`; a null entry or a missing one halts the call that goes through it. The
    node's own allocations (read buffers, index nodes) draw from `allocs`.

        Put   oversized    -> PutOversized       sink only
              otherwise    -> MakeDramRoom (demote while it does not fit), then the hot tier
        Get   DRAM primary -> OnAccess
              SSD primary  -> TryPromoteToDram   (best effort, the copy on SSD stays) -/

namespace TidePool.Store

structure StorageNodeStats where
  dramHits : ℕ := 0
  ssdHits : ℕ := 0
  misses : ℕ := 0
  demotions : ℕ := 0
  promotions : ℕ := 0
  bytesRead : ℕ := 0
  bytesWritten : ℕ := 0
  deriving DecidableEq, Repr

structure StorageNode (τ π : Type) where
  id : String
  tiers : List (Option τ)
  eviction : Option π := none
  index : LocalIndex := {}
  ready : Bool := false
  stats : StorageNodeStats := {}
  allocs : Stream' Bool := Stream'.const true

/-- `ProjectedBytes`: the footprint after a replacement, `none` when it does not fit 64 bits. -/
def projectedBytes (used replaced : UInt64) (incoming : ℕ) : Option UInt64 :=
  if used < replaced then none
  else if incoming > UInt64.size - 1 - (used - replaced).toNat then none
  else some (used - replaced + UInt64.ofNat incoming)

namespace StorageNode

variable {τ π α : Type}

/-! ### Calls through a `Tier*` -/

/-- Call a method of the tier at `i`. -/
def callTier (n : StorageNode τ π) (i : ℕ) (f : τ → α × τ) : Except Halt (α × StorageNode τ π) :=
  match n.tiers[i]? with
  | some (some t) => .ok ((f t).1, { n with tiers := n.tiers.set i (some (f t).2) })
  | _ => .error .nullTier

/-- Call a `const` method of the tier at `i`. -/
def askTier (n : StorageNode τ π) (i : ℕ) (f : τ → α) : Except Halt α :=
  match n.tiers[i]? with
  | some (some t) => .ok (f t)
  | _ => .error .nullTier

variable [Tier τ] [EvictionPolicy π]

/-- A tier's `Get`, as a method to call: the status and `*out`. -/
def fetch (key : BlockKey) (dst : MutableBuffer) (out : Option BlockView) (t : τ) :
    (Result Unit × Option BlockView) × τ :=
  let got := Tier.get t key dst out
  ((got.1, got.2.1), got.2.2)

/-- `EraseExisting` of the tier at `i`. -/
def eraseFrom (n : StorageNode τ π) (i : ℕ) (key : BlockKey) : Except Halt (StorageNode τ π) := do
  let erased ← n.askTier i (Tier.eraseExisting · key)
  let t ← erased
  return { n with tiers := n.tiers.set i (some t) }

/-- `if (!tier->ValidateEraseExisting(key).ok()) std::terminate(); tier->EraseExisting(key);` -/
def undoInsert (n : StorageNode τ π) (i : ℕ) (key : BlockKey) : Except Halt (StorageNode τ π) := do
  match ← n.askTier i (Tier.validateEraseExisting · key) with
  | .error _ => throw .terminate
  | .ok () => n.eraseFrom i key

def tierOfLocked (n : StorageNode τ π) (type : TierType) : Option ℕ :=
  n.tiers.findIdx? fun t => t.any fun t => Tier.type t = type

def colderTierLocked (n : StorageNode τ π) : Option ℕ := n.tierOfLocked .ssd

/-- The next allocation has happened. -/
def drawn (n : StorageNode τ π) : StorageNode τ π := { n with allocs := n.allocs.tail }

/-! ### Lifecycle -/

/-- The opening pass: tiers after it, how many are open, and the first failure with its position. -/
def openTiers : List (Option τ) → ℕ → List (Option τ) × ℕ × Option (ℕ × Status)
  | [], i => ([], i, none)
  | none :: ts, i => (none :: ts, i, some (i, .internal "configured tier is null"))
  | some t :: ts, i =>
    match Tier.openTier t with
    | (.error s, t) => (some t :: ts, i, some (i, s))
    | (.ok (), t) =>
      if !Tier.isReady t then
        (some t :: ts, i + 1, some (i, .internal "Open returned OK but tier is not ready"))
      else
        let (ts, opened, failure) := openTiers ts (i + 1)
        (some t :: ts, opened, failure)

/-- The visitor of `Open`, over what one tier enumerates: name and handle go into the index. -/
def recoverEntries (id : String) (type : TierType) :
    List (BlockKey × BlockInfo) → LocalIndex → Stream' Bool → Result Unit × LocalIndex × Stream' Bool
  | [], index, allocs => (.ok (), index, allocs)
  | (key, info) :: es, index, allocs =>
    if !allocs.head then
      (.error (.outOfCapacity "StorageNode::Open index recovery allocation failed"), index, allocs.tail)
    else
      match index.insertIfAbsent allocs.tail.head key ⟨id, type, info.handle⟩ with
      | (.error s, index) => (.error s, index, allocs.tail.tail)
      | (.ok (), index) => recoverEntries id type es index allocs.tail.tail

/-- Outcomes of the allocations inside `Open`: the snapshot of tier `i`, and the recovered index. -/
structure OpenEnv where
  snapshot : ℕ → Bool := fun _ => true
  allocs : Stream' Bool := Stream'.const true

/-- None of them fails. -/
structure OpenEnv.Ample (env : OpenEnv) : Prop where
  snapshot : ∀ i, env.snapshot i = true
  allocs : ∀ i, env.allocs.get i = true

/-- The recovery pass, hot to cold: the recovered index, or the position and status that failed. -/
def recoverIndex (id : String) (snapshot : ℕ → Bool) :
    List (Option τ) → ℕ → LocalIndex → Stream' Bool → Except (ℕ × Status) LocalIndex
  | [], _, index, _ => .ok index
  -- not reached: the opening pass fails on a null tier
  | none :: ts, i, index, allocs => recoverIndex id snapshot ts (i + 1) index allocs
  | some t :: ts, i, index, allocs =>
    let (entries, ending) := Tier.visitEntries t (snapshot i)
    match recoverEntries id (Tier.type t) entries index allocs with
    | (.error s, _, _) => .error (i, s)
    | (.ok (), index, allocs) =>
      match ending with
      | .error s => .error (i, s)
      | .ok () => recoverIndex id snapshot ts (i + 1) index allocs

/-- `tier[i] (type)` as error messages name a tier. -/
def tierLabel (tiers : List (Option τ)) (i : ℕ) : String :=
  "tier[" ++ toString i ++ "]" ++ match tiers[i]? with
    | some (some t) => " (" ++ (Tier.type t).name ++ ")"
    | _ => ""

/-- Close the first `opened` tiers, last one first, adding failures to the message. -/
def rollback : ℕ → List (Option τ) → String → String × List (Option τ)
  | 0, tiers, message => (message, tiers)
  | i + 1, tiers, message =>
    match tiers[i]? with
    | some (some t) =>
      let (closed, t') := Tier.closeTier t
      let message := match closed with
        | .ok () => message
        | .error s => message ++ "; rollback close " ++ tierLabel tiers i ++ " failed: " ++ s.toText
      rollback i (tiers.set i (some t')) message
    | _ => rollback i tiers message

/-- The failure exit of `Open`. -/
def openFailed (n : StorageNode τ π) (tiers : List (Option τ)) (opened : ℕ) (failure : ℕ × Status) :
    Result Unit × StorageNode τ π :=
  let message := "StorageNode::Open: " ++ tierLabel tiers failure.1 ++ " failed: " ++ failure.2.toText
  let (message, tiers) := rollback opened tiers message
  (.error ⟨failure.2.code, message⟩, { n with tiers, ready := false })

def openNode (n : StorageNode τ π) (env : OpenEnv) : Result Unit × StorageNode τ π :=
  if n.ready then (.ok (), n)
  else if n.tiers.isEmpty then (.error (.internal "StorageNode::Open: node has no tiers"), n)
  else
    let (tiers, opened, failure) := openTiers n.tiers 0
    match failure with
    | some failure => n.openFailed tiers opened failure
    | none =>
      match recoverIndex n.id env.snapshot tiers 0 {} env.allocs with
      | .error failure => n.openFailed tiers opened failure
      | .ok index => (.ok (), { n with tiers, index, ready := true })

/-- Close the first `i` tiers, last one first; the first failure is reported. -/
def closeTiers : ℕ → List (Option τ) → Result Unit → Result Unit × List (Option τ)
  | 0, tiers, firstError => (firstError, tiers)
  | i + 1, tiers, firstError =>
    match tiers[i]? with
    | some (some t) =>
      let (closed, t') := Tier.closeTier t
      let firstError := match closed, firstError with
        | .error s, .ok () => .error ⟨s.code,
            "StorageNode::Close: " ++ tierLabel tiers i ++ " failed: " ++ s.toText⟩
        | _, e => e
      closeTiers i (tiers.set i (some t')) firstError
    | _ => closeTiers i tiers firstError

def closeNode (n : StorageNode τ π) : Result Unit × StorageNode τ π :=
  let (firstError, tiers) := closeTiers n.tiers.length n.tiers (.ok ())
  (firstError, { n with tiers, ready := false })

/-! ### Demotion -/

/-- `CancelVictimOrInternal`. -/
def cancelVictimOrInternal (n : StorageNode τ π) (policy : π) (key : BlockKey) (cause : Status)
    (context : String) : Result Unit × StorageNode τ π :=
  match EvictionPolicy.cancelVictim policy key with
  | (.ok (), policy) => (.error cause, { n with eviction := some policy })
  | (.error cancelled, policy) => (.error (.internal (context ++ ": " ++ cause.toText ++
      "; victim cancellation failed: " ++ cancelled.toText)), { n with eviction := some policy })

/-- Probe for the size, allocate, read. -/
def readBlockLocked (n : StorageNode τ π) (tier : ℕ) (key : BlockKey) :
    Except Halt (Result Block × StorageNode τ π) := do
  let (info, n) ← n.callTier tier (Tier.probe · key)
  match info with
  | .error s => return (.error s, n)
  | .ok info =>
    if info.payloadSize ≠ 0 ∧ !n.allocs.head then
      return (.error (.outOfCapacity "failed to allocate tier read buffer"), n.drawn)
    else
      let n := n.drawn
      let dst : MutableBuffer := ⟨info.payloadSize != 0, info.payloadSize⟩
      let ((fetched, out), n) ← n.callTier tier (fetch key dst (some {}))
      match fetched with
      | .error s => return (.error s, n)
      | .ok () =>
        let view := out.getD {}
        if view.size ≠ info.payloadSize then
          return (.error (.internal "Tier Probe/Get size changed while StorageNode lock was held"), n)
        else return (.ok ⟨view.metadata, view.bytes⟩, n)

/-- The commit of a demotion, after the sink has stored the block: nothing in it may fail. -/
def commitDemotion (n : StorageNode τ π) (dram sink : ℕ) (policy : π) (victim : BlockKey)
    (block : Block) (sinkHandle : UInt64) : Except Halt (Result Unit × StorageNode τ π) := do
  let n ← n.eraseFrom dram victim
  let sinkType ← n.askTier sink Tier.type
  let index ← n.index.relocateExisting victim .dram sinkType sinkHandle
  let policy ← EvictionPolicy.commitVictim policy victim
  return (.ok (), { n with
    index
    eviction := some policy
    stats := { n.stats with
      demotions := n.stats.demotions + 1
      bytesRead := n.stats.bytesRead + block.sizeBytes
      bytesWritten := n.stats.bytesWritten + block.sizeBytes } })

/-- `DemoteOneVictimLocked` once `policy` has reserved `victim`: preflights, SSD write, commit. -/
def demoteReserved (n : StorageNode τ π) (dram sink : ℕ) (policy : π) (victim : BlockKey) :
    Except Halt (Result Unit × StorageNode τ π) := do
  match n.index.validateRelocate victim .dram with
  | .error s => return n.cancelVictimOrInternal policy victim s "demotion index preflight"
  | .ok () =>
  let (read, n) ← n.readBlockLocked dram victim
  match read with
  | .error s => return n.cancelVictimOrInternal policy victim s "demotion read preflight"
  | .ok block =>
  match ← n.askTier dram (Tier.validateEraseExisting · victim) with
  | .error s => return n.cancelVictimOrInternal policy victim s "demotion DRAM preflight"
  | .ok () =>
  match EvictionPolicy.validateVictimCommit policy victim with
  | .error s => return n.cancelVictimOrInternal policy victim s "demotion policy preflight"
  | .ok () =>
  let (stored, n) ← n.callTier sink (Tier.put · victim block)
  match stored with
  | .error s => return n.cancelVictimOrInternal policy victim s "demotion SSD Put"
  | .ok sinkHandle => n.commitDemotion dram sink policy victim block sinkHandle

def demoteOneVictimLocked (n : StorageNode τ π) (dram sink : ℕ) (excluded : Option BlockKey) :
    Except Halt (Result Unit × StorageNode τ π) :=
  match n.eviction with
  | none => .ok (.error (.internal "demotion requires an eviction policy"), n)
  | some policy =>
    match EvictionPolicy.selectVictim policy excluded with
    | (.error s, policy) => .ok (.error s, { n with eviction := some policy })
    | (.ok victim, policy) => { n with eviction := some policy }.demoteReserved dram sink policy victim

/-- The loop of `MakeDramRoomForLocked`. -/
def makeRoomLoop (dram : ℕ) (replaced : UInt64) (incoming : ℕ) (replacing : Option BlockKey) :
    ℕ → StorageNode τ π → Except Halt (Result Unit × StorageNode τ π)
  | 0, _ => .error .fuel
  | fuel + 1, n => do
    let before ← n.askTier dram Tier.stats
    if before.capacityBytes = 0 then return (.ok (), n)
    else match projectedBytes before.usedBytes replaced incoming with
    | none => return (.error (.outOfCapacity "projected DRAM footprint overflow"), n)
    | some projected =>
    if projected ≤ before.capacityBytes then return (.ok (), n)
    else if n.eviction.isNone then
      return (.error (.outOfCapacity "DRAM needs space and has no eviction policy"), n)
    else match n.colderTierLocked with
    | none => return (.error (.outOfCapacity "DRAM needs space and has no SSD sink"), n)
    | some sink =>
    let (demoted, n) ← n.demoteOneVictimLocked dram sink replacing
    match demoted with
    | .error s =>
      if s.code = .notFound then
        return (.error (.outOfCapacity "DRAM needs space but no unpinned victim is available"), n)
      else return (.error s, n)
    | .ok () =>
    let after ← n.askTier dram Tier.stats
    if before.usedBytes ≤ after.usedBytes ∧ before.numBlocks ≤ after.numBlocks then
      return (.error (.internal "DRAM demotion committed without making progress"), n)
    else makeRoomLoop dram replaced incoming replacing fuel n

/-- The loop gets one turn for each block DRAM holds, and one more to see that the room is made. -/
def makeDramRoomForLocked (n : StorageNode τ π) (incoming : ℕ) (replacing : Option BlockKey) :
    Except Halt (Result Unit × StorageNode τ π) := do
  match n.tierOfLocked .dram with
  | none => return (.ok (), n)
  | some dram =>
    let fuel := (← n.askTier dram Tier.stats).numBlocks + 1
    match replacing with
    | none => makeRoomLoop dram 0 incoming replacing fuel n
    | some key =>
      let (old, n) ← n.callTier dram (Tier.probe · key)
      match old with
      | .error s => return (.error s, n)
      | .ok old => makeRoomLoop dram (UInt64.ofNat old.payloadSize) incoming replacing fuel n

/-! ### Put -/

/-- `stats_.bytes_written += bytes`. -/
def wrote (n : StorageNode τ π) (bytes : ℕ) : StorageNode τ π :=
  { n with stats := { n.stats with bytesWritten := n.stats.bytesWritten + bytes } }

/-- `Upsert` into the node's index. -/
def upsertIndex (n : StorageNode τ π) (key : BlockKey) (loc : Location) :
    Result Unit × StorageNode τ π :=
  let (r, index) := n.index.upsert n.allocs.head key loc
  (r, { n.drawn with index })

/-- `RelocateExisting` in the node's index. -/
def relocateIndex (n : StorageNode τ π) (key : BlockKey) (expectedTier newTier : TierType)
    (handle : UInt64) : Except Halt (StorageNode τ π) := do
  let index ← n.index.relocateExisting key expectedTier newTier handle
  return { n with index }

/-- `RemoveExisting` in the node's index. -/
def removeIndex (n : StorageNode τ π) (key : BlockKey) : Except Halt (StorageNode τ π) := do
  let index ← n.index.removeExisting key
  return { n with index }

/-- `if (eviction_) eviction_->OnRemove(key);` -/
def policyOnRemove (n : StorageNode τ π) (key : BlockKey) : StorageNode τ π :=
  { n with eviction := n.eviction.map (EvictionPolicy.onRemove · key) }

/-- `if (eviction_) eviction_->OnAccess(key);` -/
def policyOnAccess (n : StorageNode τ π) (key : BlockKey) : Except Halt (StorageNode τ π) :=
  match n.eviction with
  | none => .ok n
  | some policy => (EvictionPolicy.onAccess policy key).map fun p => { n with eviction := some p }

/-- `if (eviction_)` the insert notification, which may fail. -/
def policyOnInsert (n : StorageNode τ π) (insert : π → Except Halt (Result Unit × π)) :
    Except Halt (Result Unit × StorageNode τ π) :=
  match n.eviction with
  | none => .ok (.ok (), n)
  | some policy => (insert policy).map fun (r, p) => (r, { n with eviction := some p })

def putWithoutDramLocked (n : StorageNode τ π) (key : BlockKey) (block : Block)
    (oldLocation : Option Location) : Except Halt (Result Unit × StorageNode τ π) := do
  let hotType ← n.askTier 0 Tier.type
  match oldLocation with
  | some old =>
    match n.index.validateRelocate key old.tier with
    | .error s => return (.error s, n)
    | .ok () =>
      let n ← n.relocateIndex key old.tier hotType 0
      let (stored, n) ← n.callTier 0 (Tier.put · key block)
      match stored with
      | .error s => return (.error s, ← n.relocateIndex key hotType old.tier old.handle)
      | .ok handle =>
        let n ← n.relocateIndex key hotType hotType handle
        return (.ok (), n.wrote block.sizeBytes)
  | none =>
    match n.upsertIndex key ⟨n.id, hotType, 0⟩ with
    | (.error s, n) => return (.error s, n)
    | (.ok (), n) =>
      let (stored, n) ← n.callTier 0 (Tier.put · key block)
      match stored with
      | .error s => return (.error s, ← n.removeIndex key)
      | .ok handle =>
        let n ← n.relocateIndex key hotType hotType handle
        return (.ok (), n.wrote block.sizeBytes)

def putOversizedLocked (n : StorageNode τ π) (key : BlockKey) (block : Block) (dram sink : ℕ)
    (oldLocation : Option Location) : Except Halt (Result Unit × StorageNode τ π) := do
  let sinkType ← n.askTier sink Tier.type
  match oldLocation with
  | some old =>
    match n.index.validateRelocate key old.tier with
    | .error s => return (.error s, n)
    | .ok () =>
      let erasable ← if old.tier = .dram then n.askTier dram (Tier.validateEraseExisting · key)
        else pure (.ok ())
      match erasable with
      | .error s => return (.error s, n)
      | .ok () =>
        let (stored, n) ← n.callTier sink (Tier.put · key block)
        match stored with
        | .error s => return (.error s, n)
        | .ok handle =>
          let n ← if old.tier = .dram then (policyOnRemove · key) <$> n.eraseFrom dram key else pure n
          let n ← n.relocateIndex key old.tier sinkType handle
          return (.ok (), n.wrote block.sizeBytes)
  | none =>
    match n.upsertIndex key ⟨n.id, sinkType, 0⟩ with
    | (.error s, n) => return (.error s, n)
    | (.ok (), n) =>
      let (stored, n) ← n.callTier sink (Tier.put · key block)
      match stored with
      | .error s => return (.error s, ← n.removeIndex key)
      | .ok handle =>
        let n ← n.relocateIndex key sinkType sinkType handle
        return (.ok (), n.wrote block.sizeBytes)

/-- The rest of `Put` once DRAM has room. -/
def putHot (n : StorageNode τ π) (key : BlockKey) (block : Block) (oldLocation : Option Location) :
    Except Halt (Result Unit × StorageNode τ π) := do
  match oldLocation.elim (.ok ()) fun old => n.index.validateRelocate key old.tier with
  | .error s => return (.error s, n)
  | .ok () =>
  let (stored, n) ← n.callTier 0 (Tier.put · key block)
  match stored with
  | .error s => return (.error s, n)
  | .ok handle =>
  let needsPolicyInsert := oldLocation.all fun old => old.tier ≠ .dram
  let (inserted, n) ←
    if needsPolicyInsert then n.policyOnInsert (EvictionPolicy.onInsert · key block.sizeBytes)
    else pure (.ok (), n)
  match inserted with
  | .error s => return (.error s, ← n.undoInsert 0 key)
  | .ok () =>
  match oldLocation with
  | some old =>
    let n ← n.relocateIndex key old.tier .dram handle
    let n ← if needsPolicyInsert then pure n else n.policyOnAccess key
    return (.ok (), n.wrote block.sizeBytes)
  | none =>
    match n.upsertIndex key ⟨n.id, .dram, handle⟩ with
    | (.error s, n) => return (.error s, ← (n.policyOnRemove key).undoInsert 0 key)
    | (.ok (), n) => return (.ok (), n.wrote block.sizeBytes)

/-- The key whose DRAM entry a `Put` of `key` replaces. -/
def replacedKey (oldLocation : Option Location) (key : BlockKey) : Option BlockKey :=
  if oldLocation.any (·.tier = .dram) then some key else none

def put (n : StorageNode τ π) (key : BlockKey) (block : Block) :
    Except Halt (Result Unit × StorageNode τ π) := do
  if !n.ready then return (.error (.unavailable "StorageNode::Put: node is not open"), n)
  else match n.tiers.head? with
  | none | some none => return (.error (.internal "storage node has no hot tier"), n)
  | some (some hot) =>
  -- `Find` fails with `NotFound` only
  let oldLocation := n.index.at? key
  if Tier.type hot ≠ .dram then n.putWithoutDramLocked key block oldLocation
  else
    let capacity := (Tier.stats hot).capacityBytes
    if capacity ≠ 0 ∧ block.sizeBytes > capacity.toNat then
      match n.colderTierLocked with
      | none => return (.error (.outOfCapacity
          "block is larger than DRAM capacity and no SSD sink exists"), n)
      | some sink => n.putOversizedLocked key block 0 sink oldLocation
    else
      let (room, n) ← n.makeDramRoomForLocked block.sizeBytes (replacedKey oldLocation key)
      match room with
      | .error s => return (.error s, n)
      | .ok () => n.putHot key block oldLocation

/-! ### Get -/

/-- The rest of a promotion once DRAM has room: store, tell the policy, switch the primary. -/
def promoteInto (n : StorageNode τ π) (dram : ℕ) (key : BlockKey) (block : Block) :
    Except Halt (StorageNode τ π) := do
  let (stored, n) ← n.callTier dram (Tier.put · key block)
  match stored with
  | .error _ => return n
  | .ok handle =>
  let (promoted, n) ← n.policyOnInsert (EvictionPolicy.onPromotionCommitted · key block.sizeBytes)
  match promoted with
  | .error _ => n.undoInsert dram key
  | .ok () =>
  -- inclusive: the SSD record stays, the index names DRAM from here on
  let n ← n.relocateIndex key .ssd .dram handle
  return { n with stats := { n.stats with
    promotions := n.stats.promotions + 1
    bytesWritten := n.stats.bytesWritten + block.sizeBytes } }

def tryPromoteToDramLocked (n : StorageNode τ π) (key : BlockKey) (view : BlockView) :
    Except Halt (StorageNode τ π) := do
  match n.tierOfLocked .dram, n.eviction with
  | none, _ | _, none => return n
  | some dram, some _ =>
  let stats ← n.askTier dram Tier.stats
  if stats.capacityBytes ≠ 0 ∧ view.size > stats.capacityBytes.toNat then return n
  else match n.index.validateRelocate key .ssd with
  | .error _ => return n
  | .ok () =>
  let (already, n) ← n.callTier dram (Tier.probe · key)
  if already.code ≠ .notFound then return n
  else if view.size ≠ 0 ∧ !n.allocs.head then return n.drawn
  else
    let (room, n) ← n.drawn.makeDramRoomForLocked view.size none
    match room with
    | .error _ => return n
    | .ok () => n.promoteInto dram key ⟨view.metadata, view.bytes⟩

/-- `stats_.misses++`. -/
def missed (n : StorageNode τ π) : StorageNode τ π :=
  { n with stats := { n.stats with misses := n.stats.misses + 1 } }

def get (n : StorageNode τ π) (key : BlockKey) (dst : MutableBuffer) (out : Option BlockView) :
    Except Halt (Result Unit × Option BlockView × StorageNode τ π) := do
  if !n.ready then
    return (.error (.unavailable "StorageNode::Get: node is not open"), clearView out, n)
  else match n.index.find key with
  | .error s => return (.error s, clearView out, n.missed)
  | .ok loc =>
  match n.tierOfLocked loc.tier with
  | none => return (.error (.internal "index points at an unknown tier"), clearView out, n)
  | some owner =>
  let ((fetched, view), n) ← n.callTier owner (fetch key dst (clearView out))
  match fetched, view with
  | .error s, view => return (.error s, view, if s.code = .notFound then n.missed else n)
  -- not reached: a successful tier `Get` had an `out` to fill
  | .ok (), none => throw .nullTier
  | .ok (), some view =>
    let n := { n with stats := { n.stats with bytesRead := n.stats.bytesRead + view.size } }
    if loc.tier = .dram then
      let n := { n with stats := { n.stats with dramHits := n.stats.dramHits + 1 } }
      return (.ok (), some view, ← n.policyOnAccess key)
    else
      let n := { n with stats := { n.stats with ssdHits := n.stats.ssdHits + 1 } }
      return (.ok (), some view, ← n.tryPromoteToDramLocked key view)

/-! ### Queries -/

def probe (n : StorageNode τ π) (key : BlockKey) : Except Halt (Result BlockInfo × StorageNode τ π) := do
  if !n.ready then return (.error (.unavailable "StorageNode::Probe: node is not open"), n)
  else match n.index.find key with
  | .error s => return (.error s, n)
  | .ok loc =>
  match n.tierOfLocked loc.tier with
  | none => return (.error (.internal "index points at an unknown tier"), n)
  | some owner => n.callTier owner (Tier.probe · key)

def contains (n : StorageNode τ π) (key : BlockKey) : Result Bool :=
  if !n.ready then .error (.unavailable "StorageNode::Contains: node is not open")
  else .ok (n.index.contains key)

def locate (n : StorageNode τ π) (key : BlockKey) : Result Location :=
  if !n.ready then .error (.unavailable "StorageNode::Locate: node is not open")
  else n.index.find key

end StorageNode

/-! ### The node as a machine -/

/-- A public call. -/
inductive NodeCall where
  | openNode (env : StorageNode.OpenEnv)
  | closeNode
  | put (key : BlockKey) (block : Block)
  | get (key : BlockKey) (dst : MutableBuffer) (out : Option BlockView)
  | probe (key : BlockKey)
  | contains (key : BlockKey)

/-- Neither `Open` nor `Close`. -/
def NodeCall.isData : NodeCall → Bool
  | .openNode _ | .closeNode => false
  | _ => true

/-- The key a call is about. -/
def NodeCall.key : NodeCall → Option BlockKey
  | .put k _ | .get k _ _ | .probe k | .contains k => some k
  | .openNode _ | .closeNode => none

/-- What a public call returns. -/
inductive NodeReply where
  | status (r : Result Unit)
  | view (r : Result Unit) (out : Option BlockView)
  | info (r : Result BlockInfo)
  | present (r : Result Bool)

/-- The status a reply carries, if it is an error. -/
def NodeReply.error? : NodeReply → Option Status
  | .status (.error s) | .view (.error s) _ | .info (.error s) | .present (.error s) => some s
  | _ => none

/-- One public call. -/
def StorageNode.step {τ π : Type} [Tier τ] [EvictionPolicy π] (n : StorageNode τ π) :
    NodeCall → Except Halt (NodeReply × StorageNode τ π)
  | .openNode env => .ok (.status (n.openNode env).1, (n.openNode env).2)
  | .closeNode => .ok (.status n.closeNode.1, n.closeNode.2)
  | .put key block => (n.put key block).map fun (r, n) => (.status r, n)
  | .get key dst out => (n.get key dst out).map fun (r, out, n) => (.view r out, n)
  | .probe key => (n.probe key).map fun (r, n) => (.info r, n)
  | .contains key => .ok (.present (n.contains key), n)

end TidePool.Store
