import TidePool.Store.Admission
import TidePool.Store.Setups

/-! One database, many processes.

    A process configures its tiers, builds a node on the LevelDB directory that the last process left, serves
    calls (`Open` and `Close` among them) and dies; only the records stay. LevelDB writes a record or does
    not, so a process that dies inside a call leaves what the same call leaves when every LevelDB call after
    that point fails, which is one of the failure patterns here.

        process 1   D₀ → replies for a map that starts as D₀, and D₁ is one survivor of every key
        process 2   D₁ → replies for a map that starts as D₁, ..

    Behind a DRAM tier the survivors of a key are what the disk had and what was put since. Without one
    every `Put` is forced, there is one survivor, and no reply tells that there was a restart. -/

namespace TidePool.Store
open Schemes

/-- A process: its configuration, what its surroundings decide, and the calls it serves. -/
structure Process where
  id : String
  layout : Layout
  env : Surroundings := {}
  disk : DiskEnv := {}
  calls : List NodeCall

/-- `SsdTier(db_path)` on a directory with records. -/
def SsdTier.onRecords (records : Table Bytes Bytes) (env : DiskEnv) : SsdTier :=
  { SsdTier.fresh env with db := { (SsdTier.fresh env).db with records } }

/-- The records of a node's last tier. -/
def diskRecords (n : StorageNode (DramTier ⊕ SsdTier) Policy) : Table Bytes Bytes :=
  match n.tiers.getLast? with
  | some (some (.inr ssd)) => ssd.db.records
  | _ => ∅

/-- The blocks in a database. -/
def blocksOf (records : Table Bytes Bytes) (k : BlockKey) : Option Block :=
  ((SsdTier.onRecords records {}).contents k).map (·.block)

/-- Every record is one the disk tier can read. -/
def ReadableRecords (records : Table Bytes Bytes) : Prop := SsdTier.Readable (SsdTier.onRecords records {}).db

/-- What a read may report over this disk: nothing if no call to LevelDB fails. -/
def DiskEnv.readFaults (disk : DiskEnv) : Set Status :=
  { st | st ∈ SsdTier.callFaults ∧ ¬ ∀ i, disk.calls.get i = none }

/-- No `DB::Open` and no iteration fails. -/
def DiskEnv.Opens (disk : DiskEnv) : Prop :=
  (∀ i, disk.opens.get i = none) ∧ (∀ i, disk.sweeps.get i = none) ∧ ∀ i, disk.visits.get i = none

/-- The codes of a failing `Open` over a disk. -/
def diskCodes : Set StatusCode := { .ioError, .outOfCapacity, .corruption }

theorem openCodes_ssd (s : SsdTier) : openCodes s ⊆ diskCodes := by
  rintro code (rfl | ⟨st, hst, rfl⟩)
  · exact .inr (.inl rfl)
  · rcases hst with h | h | h <;> rw [h] <;> simp [diskCodes]

namespace Process

/-- The node on the records it finds. -/
def setup (p : Process) (records : Table Bytes Bytes) : Setup SsdTier where
  id := p.id
  layout := p.layout
  ssd := .onRecords records p.disk
  env := p.env

def boot (p : Process) (records : Table Bytes Bytes) : StorageNode (DramTier ⊕ SsdTier) Policy :=
  (p.setup records).boot

/-- A whole life: the replies it gave and the records it leaves. -/
def live (records : Table Bytes Bytes) (p : Process) : Except Halt (List NodeReply × Table Bytes Bytes) :=
  (run StorageNode.step (p.boot records) p.calls).map fun res => (res.1, diskRecords res.2)

/-- No allocation, no policy insert and no call to LevelDB fails. -/
structure Undisturbed (p : Process) : Prop where
  env : p.env.Calm
  calls : ∀ i, p.disk.calls.get i = none
  memory : ∀ i, p.disk.allocs.get i = true

/-- What may come between an open node of the process and its map. A read fails only if some call to LevelDB
    does; a `Put` of a matching block fails only if something around the process does. -/
def terms (p : Process) : Terms where
  reads := p.disk.readFaults
  puts := { st | st ∈ SsdTier.callFaults ∨ ∃ i, p.env.insertFaults.get i = some st }
  takes M k b := p.Undisturbed ∧ p.layout.Admits (fun j b' => SsdTier.Matches j b'.metadata) M ∧
    SsdTier.Matches k b.metadata
  opens := diskCodes
  sound := p.disk.Opens

/-- The replies are those of a store that starts closed and with `D` settled. -/
def RepliesFrom (p : Process) (D : BlockKey → Option Block) (os : List NodeReply) : Prop :=
  Accounts (fun s => p.terms.Replies s.opened s.store.now) (Session.record (recordDurable p.layout.through))
    { store := .settled D } p.calls os

/-- The store when the process ends. -/
def endsWith (p : Process) (D : BlockKey → Option Block) (os : List NodeReply) : Durable BlockKey Block :=
  follow (recordDurable p.layout.through) (.settled D) p.calls os

/-- What a process without DRAM replies, for the map `M`. -/
def RepliesForMap (M : BlockKey → Option Block) (p : Process) (os : List NodeReply) : Prop :=
  Accounts (fun s => p.terms.Replies s.opened s.store) (Session.record TwoTier.recordPut) { store := M }
    p.calls os

/-- The map after a process. -/
def mapAfter (M : BlockKey → Option Block) (p : Process) (os : List NodeReply) : BlockKey → Option Block :=
  follow TwoTier.recordPut M p.calls os

variable {p : Process} {records : Table Bytes Bytes}

/-- The terms of a process are those of its node. -/
theorem setup_terms (p : Process) (records : Table Bytes Bytes) : (p.setup records).terms.Within p.terms where
  reads := subset_rfl
  puts := by
    rintro st (hooc | hst | hst)
    · exact .inl (.inr (.inl hooc))
    · exact .inl hst
    · exact .inr hst
  takes := by
    rintro M k b ⟨hcalm, hadmits, hm⟩
    have haccepts : ∀ j b', SsdTier.Matches j b'.metadata → ColdView.Accepts (p.setup records).ssd j b' :=
      fun j b' hm => ⟨hcalm.calls, hcalm.memory, hm⟩
    exact ⟨hcalm.env, hadmits.mono fun hM j b' hb' => haccepts j b' (hM j b' hb'), haccepts k b hm⟩
  opens := openCodes_ssd _
  sound h := h

/-- BOOT: closed, and what is on disk is settled. -/
theorem boot_stands (p : Process) (hr : ReadableRecords records) :
    (p.setup records).Stands (p.boot records) { store := .settled (blocksOf records) } :=
  Setup.boot_stands hr

/-- What a node leaves behind. -/
theorem leaves {x : Setup SsdTier} {n : StorageNode (DramTier ⊕ SsdTier) Policy}
    {s : Session (Durable BlockKey Block)} (h : x.Stands n s) :
    ReadableRecords (diskRecords n) ∧ s.store.MayLeave (blocksOf (diskRecords n)) := by
  cases h with
  | tiered _ hy ha => exact ⟨hy.alive.intact, ha.cold⟩
  | ssdOnly _ hy ha => exact ⟨hy.alive.intact, ha.cold⟩

/-- LIFE: whatever the layout, the replies are those of the store, and what is left is a survivor of it. -/
theorem live_spec (p : Process) (hr : ReadableRecords records) : ∃ os records',
    p.live records = .ok (os, records') ∧ ReadableRecords records' ∧ p.RepliesFrom (blocksOf records) os ∧
      (p.endsWith (blocksOf records) os).MayLeave (blocksOf records') := by
  have hstep : ∀ n s c, True → (p.setup records).Stands n s → Yields True (StorageNode.step n c) fun res =>
      p.terms.Replies s.opened s.store.now c res.1 ∧
        (p.setup records).Stands res.2 (s.record (recordDurable p.layout.through) c res.1) := by
    intro n s c _ h
    obtain ⟨o, n', heq, hreply, h'⟩ := h.step c
    rw [heq]
    exact ⟨hreply.mono (p.setup_terms records), h'⟩
  obtain ⟨⟨os, n⟩, heq, haccounts, hstands⟩ :=
    (run_accounts hstep p.calls (fun _ _ => trivial) (p.boot_stands hr)).answer trivial
  obtain ⟨hr', hleaves⟩ := leaves hstands
  refine ⟨os, diskRecords n, by rw [live, heq]; rfl, hr', haccounts, ?_⟩
  rw [Session.follow_store] at hleaves
  exact hleaves

/-- When every write is forced, the settled map is all there is to the store. -/
theorem recordDurable_settled (M : BlockKey → Option Block) (c : NodeCall) (o : NodeReply) :
    recordDurable (fun _ => true) (.settled M) c o = .settled (TwoTier.recordPut M c o) := by
  cases c <;> cases o <;> try rfl
  case put.status k b r =>
    cases r with
    | error s => rfl
    | ok _ => exact Durable.force_settled M k b

/-- The replies of a store whose every write is forced are those of the map alone. -/
theorem repliesFrom_map {choice : Option PolicyChoice} (hlayout : p.layout = .ssdOnly choice)
    {D : BlockKey → Option Block} {os : List NodeReply} (h : p.RepliesFrom D os) : p.RepliesForMap D os := by
  rw [RepliesFrom, hlayout] at h
  refine accounts_related (C := fun _ => True)
    (R := fun (s : Session (Durable BlockKey Block)) t => s.opened = t.opened ∧ s.store = .settled t.store)
    ?_ (fun _ _ => trivial) ⟨rfl, rfl⟩ h
  rintro s t c o - ⟨hopened, hstore⟩ hreply
  rw [hopened, hstore] at hreply
  refine ⟨hreply, ?_, ?_⟩
  · simp only [Session.record, hopened]
  · simp only [Session.record, hstore]
    exact recordDurable_settled t.store c o

theorem endsWith_map {choice : Option PolicyChoice} (hlayout : p.layout = .ssdOnly choice)
    (D : BlockKey → Option Block) (os : List NodeReply) :
    p.endsWith D os = .settled (p.mapAfter D os) := by
  rw [endsWith, hlayout, Layout.through, mapAfter, follow_image recordDurable_settled]

end Process

/-- A database through the lives of its processes: every one replies from what it finds, and leaves a
    survivor of every key. -/
inductive History : (BlockKey → Option Block) → List Process → List (List NodeReply) →
    (BlockKey → Option Block) → Prop
  | done (D : BlockKey → Option Block) : History D [] [] D
  | next {D E F : BlockKey → Option Block} {p : Process} {ps : List Process} {os : List NodeReply}
      {oss : List (List NodeReply)} (replies : p.RepliesFrom D os) (left : (p.endsWith D os).MayLeave E)
      (later : History E ps oss F) : History D (p :: ps) (os :: oss) F

/-- RESTARTS: over a database the disk tier can read, any processes one after another, with any layouts and
    any failures, return from every call; each replies for the map that starts as the blocks it found, and
    leaves for every key what was there or a block successfully put since. -/
theorem restarts_keep_history (records : Table Bytes Bytes) (hreadable : ReadableRecords records)
    (ps : List Process) :
    ∃ oss records', run Process.live records ps = .ok (oss, records') ∧
      History (blocksOf records) ps oss (blocksOf records') := by
  induction ps generalizing records with
  | nil => exact ⟨[], records, rfl, .done _⟩
  | cons p ps ih =>
    obtain ⟨os, found, hlive, hfound, hreplies, hleft⟩ := p.live_spec hreadable
    obtain ⟨oss, records', hrun, hlater⟩ := ih found hfound
    refine ⟨os :: oss, records', ?_, .next hreplies hleft hlater⟩
    simp only [run, hlive, hrun]

theorem readable_empty : ReadableRecords ∅ := by
  intro k v hv
  cases hv

/-- Two puts behind one byte of DRAM, the second of which demotes the first, then a process that reads. -/
def relay : List Process :=
  [{ id := "n", layout := .tiered 1 .lru,
     calls := [.openNode {}, .put ⟨1, 1, 7⟩ (oneByte 1), .put ⟨2, 1, 7⟩ (oneByte 1)] },
   { id := "n", layout := .ssdOnly none,
     calls := [.openNode {}, .get ⟨1, 1, 7⟩ ⟨true, 1⟩ (some {}), .contains ⟨2, 1, 7⟩] }]

theorem restarts_keep_history_relay : ∃ oss records', run Process.live ∅ relay = .ok (oss, records') ∧
    History (blocksOf ∅) relay oss (blocksOf records') :=
  restarts_keep_history ∅ readable_empty relay

/-- WRITE THROUGH: processes without DRAM on one database reply, taken together, for one map that starts as
    the blocks found by the first: a restart closes the node and does nothing to the map, and nothing
    acknowledged is lost. -/
theorem ssdOnly_restarts_invisible (records : Table Bytes Bytes) (hreadable : ReadableRecords records)
    (ps : List Process) (hps : ∀ p ∈ ps, ∃ choice, p.layout = .ssdOnly choice) :
    ∃ oss records', run Process.live records ps = .ok (oss, records') ∧
      Accounts Process.RepliesForMap Process.mapAfter (blocksOf records) ps oss ∧
      blocksOf records' = follow Process.mapAfter (blocksOf records) ps oss := by
  have hlife : ∀ (found : Table Bytes Bytes) M (p : Process), (∃ choice, p.layout = .ssdOnly choice) →
      ReadableRecords found ∧ blocksOf found = M → Yields True (p.live found) fun res =>
        p.RepliesForMap M res.1 ∧ ReadableRecords res.2 ∧ blocksOf res.2 = p.mapAfter M res.1 := by
    rintro found M p ⟨choice, hlayout⟩ ⟨hfound, rfl⟩
    obtain ⟨os, records', heq, hr', hreplies, hleft⟩ := p.live_spec hfound
    rw [Process.endsWith_map hlayout, Durable.settled_mayLeave_iff] at hleft
    rw [heq]
    exact ⟨Process.repliesFrom_map hlayout hreplies, hr', hleft⟩
  obtain ⟨⟨oss, records'⟩, hrun, haccounts, -, hblocks⟩ :=
    (run_accounts hlife ps hps ⟨hreadable, rfl⟩).answer trivial
  exact ⟨oss, records', hrun, haccounts, hblocks⟩

/-- A process that puts and one that reads, both straight on disk. -/
def handover : List Process :=
  [{ id := "n", layout := .ssdOnly none, calls := [.openNode {}, .put ⟨1, 1, 7⟩ (oneByte 1)] },
   { id := "m", layout := .ssdOnly (some .lru), calls := [.openNode {}, .get ⟨1, 1, 7⟩ ⟨true, 1⟩ (some {})] }]

theorem ssdOnly_restarts_invisible_handover :
    ∃ oss records', run Process.live ∅ handover = .ok (oss, records') ∧
      Accounts Process.RepliesForMap Process.mapAfter (blocksOf ∅) handover oss ∧
      blocksOf records' = follow Process.mapAfter (blocksOf ∅) handover oss :=
  ssdOnly_restarts_invisible ∅ readable_empty handover (by simp [handover])

end TidePool.Store
