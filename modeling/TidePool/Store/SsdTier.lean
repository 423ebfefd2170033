import TidePool.Api.BlockCodec
import TidePool.Store.ColdTier
import TidePool.Store.LevelDb

/-! The disk tier (`src/store/tier/ssd/ssd_tier.cpp`): a block is a LevelDB record whose key is
    `BlockKey::ToString()` and whose value is the `block_codec` blob.

    `Open` scans every record and refuses to start on one it cannot read; after that the occupancy
    counters are kept up to date call by call. `allocs` are the outcomes of the allocations `Put` makes
    before it talks to LevelDB; inside the other `try` blocks `Fault.badAlloc` stands for them. -/

namespace TidePool.Store
open Schemes BlockCodec

structure SsdTier where
  db : LevelDb := {}
  opened : Bool := false
  stats : TierStats := {}
  allocs : Stream' Bool := Stream'.const true

/-- Which of its calls to LevelDB, and which of its allocations, a tier will see fail. -/
structure DiskEnv where
  opens : Stream' (Option String) := Stream'.const none
  calls : Stream' (Option Fault) := Stream'.const none
  sweeps : Stream' (Option Break) := Stream'.const none
  visits : Stream' (Option Break) := Stream'.const none
  allocs : Stream' Bool := Stream'.const true

namespace SsdTier

/-- `SsdTier(db_path)` on an empty directory. -/
def fresh (env : DiskEnv) : SsdTier where
  db := { opens := env.opens, calls := env.calls, sweeps := env.sweeps, visits := env.visits }
  allocs := env.allocs

/-! ### Records -/

/-- The `mix` of `StableHandle`: FNV-1a over the low bytes of a value. -/
def mix (hash value : UInt64) (bytes : ℕ) : UInt64 :=
  (List.range bytes).foldl
    (fun h i => (h ^^^ ((value >>> UInt64.ofNat (i * 8)) &&& 255)) * 1099511628211) hash

def stableHandle (key : BlockKey) : UInt64 :=
  mix (mix (mix 1469598103934665603 key.prefixHash 8) key.prefixLen.toUInt64 4)
    key.modelFingerprint.toUInt64 4

def validateMetadata (key : BlockKey) (metadata : BlockMetadata) : Result Unit :=
  if metadata.modelFingerprint ≠ key.modelFingerprint then
    .error (.corruption "SSD record model_fingerprint does not match BlockKey")
  else if metadata.numTokens ≠ 0 ∧ metadata.numTokens ≠ key.prefixLen then
    .error (.corruption "SSD record num_tokens does not match BlockKey prefix_len")
  else .ok ()

/-- `DecodeRecord`: the block's info, and the header that says where its payload is. -/
def decodeRecord (key : BlockKey) (value : Bytes) : Result (BlockInfo × BlobHeader) :=
  match deserializeHeader value with
  | .error s => .error (.corruption ("SSD record value is invalid: " ++ s.toText))
  | .ok header =>
    match validateMetadata key header.metadata with
    | .error s => .error s
    | .ok () => .ok (⟨header.metadata, header.payloadLen.toNat, stableHandle key⟩, header)

/-- The status of a LevelDB call that failed inside a `try`. -/
def faultStatus (what alloc : String) : Fault → Status
  | .failed text => .ioError (what ++ text)
  | .badAlloc => .outOfCapacity alloc

/-! ### Opening -/

/-- One record of the scan in `Open`. -/
def scanRecord (occupied : ℕ × UInt64) (record : Bytes × Bytes) : Result (ℕ × UInt64) :=
  match BlockKey.fromString record.1 with
  | .error s => .error (.corruption ("leveldb scan key: " ++ s.toText))
  | .ok key =>
    match decodeRecord key record.2 with
    | .error s => .error (.corruption ("leveldb scan value: " ++ s.toText))
    | .ok _ =>
      let size := UInt64.ofNat record.2.length
      if 18446744073709551615 - size < occupied.2 then
        .error (.corruption "leveldb scan size overflow")
      else .ok (occupied.1 + 1, occupied.2 + size)

/-- The scan: it breaks off at the first record it refuses. -/
def scanRecords : ℕ × UInt64 → List (Bytes × Bytes) → Result (ℕ × UInt64)
  | occupied, [] => .ok occupied
  | occupied, record :: records =>
    match scanRecord occupied record with
    | .error s => .error s
    | .ok occupied' => scanRecords occupied' records

/-- The tier once its records have been counted. -/
def started (s : SsdTier) (occupied : ℕ × UInt64) : SsdTier :=
  { s with
    opened := true
    stats := { capacityBytes := s.stats.capacityBytes, numBlocks := occupied.1, usedBytes := occupied.2 } }

def openTier (s : SsdTier) : Result Unit × SsdTier :=
  if s.opened then (.ok (), s)
  else
    let (failure, db) := s.db.openDb
    match failure with
    | some text => (.error (.ioError ("leveldb open: " ++ text)), { s with db })
    | none =>
      let ((records, fault), db) := db.sweep
      let s := { s with db }
      match scanRecords (0, 0) records, fault with
      | .error status, _ => (.error status, s)
      | .ok _, some f => (.error (faultStatus "leveldb scan: " "leveldb scan allocation failed" f), s)
      | .ok occupied, none => (.ok (), s.started occupied)

def closeTier (s : SsdTier) : Result Unit × SsdTier := (.ok (), { s with opened := false })

/-! ### Calls -/

/-- `db_->Get` has been called. -/
def drawn (s : SsdTier) : SsdTier := { s with db := s.db.drawn }

def probe (s : SsdTier) (key : BlockKey) : Result BlockInfo × SsdTier :=
  if !s.opened then (.error (.unavailable "SsdTier::Probe: tier is not open"), s)
  else
    let (value, db) := s.db.get key.toBytes
    let s := { s with db }
    match value with
    | .error f => (.error (faultStatus "leveldb probe: " "SsdTier::Probe allocation failed" f), s)
    | .ok none => (.error (.notFound key.toText), s)
    | .ok (some value) => ((decodeRecord key value).map Prod.fst, s)

/-- The counters after a blob has been written over `existing`. -/
def countPut (stats : TierStats) (existing : Option Bytes) (blob : Bytes) : TierStats :=
  let dropped := match existing with
    | some old => { stats with usedBytes := stats.usedBytes - UInt64.ofNat old.length }
    | none => { stats with numBlocks := stats.numBlocks + 1 }
  { dropped with
    usedBytes := dropped.usedBytes + UInt64.ofNat blob.length
    putCount := dropped.putCount + 1 }

def put (s : SsdTier) (key : BlockKey) (block : Block) : Result UInt64 × SsdTier :=
  if !s.opened then (.error (.unavailable "SsdTier::Put: tier is not open"), s)
  else
    match validateMetadata key block.metadata with
    | .error status => (.error (.invalidArgument status.message), s)
    | .ok () =>
      let allocated := s.allocs.head
      let s := { s with allocs := s.allocs.tail }
      if !allocated then (.error (.outOfCapacity "SsdTier::Put allocation failed"), s)
      else
        let blob := serializeBlock block
        -- the old record is read only for its size
        let (existing, db) := s.db.get key.toBytes
        match existing with
        | .error f =>
          (.error (faultStatus "leveldb get(probe): " "SsdTier::Put backend allocation failed" f),
            { s with db })
        | .ok existing =>
          let (written, db) := db.put key.toBytes blob
          match written with
          | .error f =>
            (.error (faultStatus "leveldb put: " "SsdTier::Put backend allocation failed" f), { s with db })
          | .ok () => (.ok (stableHandle key), { s with db, stats := countPut s.stats existing blob })

/-- `misses++`. -/
def missed (s : SsdTier) : SsdTier := { s with stats := { s.stats with misses := s.stats.misses + 1 } }

/-- `get_count++`, `hits++`. -/
def served (s : SsdTier) : SsdTier :=
  { s with stats := { s.stats with getCount := s.stats.getCount + 1, hits := s.stats.hits + 1 } }

def get (s : SsdTier) (key : BlockKey) (dst : MutableBuffer) (out : Option BlockView) :
    Result Unit × Option BlockView × SsdTier :=
  match checkGetArgs "SsdTier" dst out with
  | .error status => (.error status, clearView out, s)
  | .ok () =>
    if !s.opened then (.error (.unavailable "SsdTier::Get: tier is not open"), clearView out, s)
    else
      let (value, db) := s.db.get key.toBytes
      let s := { s with db }
      match value with
      | .error f =>
        (.error (faultStatus "leveldb get: " "SsdTier::Get allocation failed" f), clearView out, s)
      | .ok none => (.error (.notFound key.toText), clearView out, s.missed)
      | .ok (some value) =>
        match decodeRecord key value with
        | .error status => (.error status, clearView out, s)
        | .ok (info, header) =>
          if dst.capacity < info.payloadSize then
            (.error (.outOfCapacity "SsdTier::Get: dst buffer too small"), clearView out, s)
          else (.ok (), some ⟨dst.data, header.payload value, info.metadata⟩, s.served)

/-- The counters after a record has been deleted. -/
def countEvict (stats : TierStats) (existing : Bytes) : TierStats :=
  { stats with
    numBlocks := stats.numBlocks - 1
    usedBytes := stats.usedBytes - UInt64.ofNat existing.length
    evictCount := stats.evictCount + 1 }

def evict (s : SsdTier) (key : BlockKey) : Result Unit × SsdTier :=
  if !s.opened then (.error (.unavailable "SsdTier::Evict: tier is not open"), s)
  else
    let (existing, db) := s.db.get key.toBytes
    match existing with
    | .error f =>
      (.error (faultStatus "leveldb get(evict): " "SsdTier::Evict allocation failed" f), { s with db })
    | .ok none => (.error (.notFound key.toText), { s with db })
    | .ok (some existing) =>
      let (deleted, db) := db.delete key.toBytes
      match deleted with
      | .error f =>
        (.error (faultStatus "leveldb delete: " "SsdTier::Evict allocation failed" f), { s with db })
      | .ok () => (.ok (), { s with db, stats := countEvict s.stats existing })

/-- The loop of `VisitEntries`. -/
def visitRecords : List (Bytes × Bytes) → Result (List (BlockKey × BlockInfo))
  | [] => .ok []
  | record :: records =>
    match BlockKey.fromString record.1 with
    | .error s => .error s
    | .ok key =>
      match decodeRecord key record.2 with
      | .error s => .error s
      | .ok (info, _) =>
        match visitRecords records with
        | .error s => .error s
        | .ok entries => .ok ((key, info) :: entries)

def visitEntries (s : SsdTier) (alloc : Bool) : List (BlockKey × BlockInfo) × Result Unit :=
  if !s.opened then ([], .error (.unavailable "SsdTier::VisitEntries: tier is not open"))
  else
    match visitRecords s.db.visit.1, s.db.visit.2 with
    | .error status, _ => ([], .error status)
    | .ok _, some f =>
      ([], .error (faultStatus "leveldb visit: " "SsdTier::VisitEntries allocation failed" f))
    | .ok entries, none =>
      if alloc then (entries, .ok ())
      else ([], .error (.outOfCapacity "SsdTier::VisitEntries allocation failed"))

end SsdTier

instance : Tier SsdTier where
  type _ := .ssd
  openTier := SsdTier.openTier
  closeTier := SsdTier.closeTier
  isReady := SsdTier.opened
  probe := SsdTier.probe
  put := SsdTier.put
  get := SsdTier.get
  evict := SsdTier.evict
  validateEraseExisting _ _ := .error (.notImplemented "SsdTier does not support volatile commit erasure")
  eraseExisting _ _ := .error .terminate
  visitEntries := SsdTier.visitEntries
  stats := SsdTier.stats

end TidePool.Store
