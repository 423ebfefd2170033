import TidePool.Store.SsdRecords

/-! The disk tier is a cold tier.

    Over readable records every call is a call on a map from keys to blocks: `put_cases`, `get_spec`,
    `probe_spec` and `evict_cases` say what each does to the records and the counters, and fail only
    when LevelDB or an allocation fails or the metadata does not fit the key. -/

namespace TidePool.Store
open Schemes BlockCodec

namespace SsdTier

/-- Every record is readable. -/
def Readable (db : LevelDb) : Prop := ∀ k v, db.at? k = some v → IsRecord k v

/-- No allocation of `Put` will fail. -/
def Calm (s : SsdTier) : Prop := ∀ i, s.allocs.get i = true

/-- The block a value holds. -/
def blockOf (value : Bytes) : Option Block :=
  match deserializeHeader value with
  | .ok header => some ⟨header.metadata, header.payload value⟩
  | .error _ => none

/-- The blocks on disk. -/
def contents (s : SsdTier) (key : BlockKey) : Option Entry :=
  ((s.db.at? key.toBytes).bind blockOf).map (entryOf key)

@[simp] theorem blockOf_serializeBlock (b : Block) : blockOf (serializeBlock b) = some b := by
  simp only [blockOf, deserializeHeader_serializeBlock, payload_headerOf, headerOf_metadata]

/-- Readable records: a key has none, or the blob of a block that fits it. -/
theorem Readable.cases {s : SsdTier} (h : Readable s.db) (key : BlockKey) :
    (s.db.at? key.toBytes = none ∧ s.contents key = none) ∨
    ∃ b, s.db.at? key.toBytes = some (serializeBlock b) ∧ Matches key b.metadata ∧
      s.contents key = some (entryOf key b) := by
  cases hat : s.db.at? key.toBytes with
  | none => exact .inl ⟨rfl, by simp [contents, hat]⟩
  | some v =>
    obtain ⟨b, rfl, hm⟩ := (h _ _ hat).of_key
    exact .inr ⟨b, rfl, hm, by simp [contents, hat]⟩

/-! ### Writing records -/

section Writing

variable {s s' : SsdTier} {key : BlockKey} {b : Block}

theorem contents_of_records (h : s'.db.records = s.db.records) : s'.contents = s.contents := by
  funext key
  simp only [contents, LevelDb.at?, h]

theorem Readable.of_records {db db' : LevelDb} (hr : Readable db) (h : db'.records = db.records) :
    Readable db' := by
  intro k v hv
  rw [LevelDb.at?, h] at hv
  exact hr k v hv

theorem contents_insert (h : s'.db.records = AList.insert key.toBytes (serializeBlock b) s.db.records) :
    s'.contents = Function.update s.contents key (some (entryOf key b)) := by
  funext j
  simp only [contents, LevelDb.at?, h, Table.lookup_insert_if, BlockKey.toBytes_injective.eq_iff,
    Function.update_apply]
  split
  · rename_i hj; subst hj; simp
  · rfl

theorem contents_erase (h : s'.db.records = AList.erase key.toBytes s.db.records) :
    s'.contents = Function.update s.contents key none := by
  funext j
  simp only [contents, LevelDb.at?, h, Table.lookup_erase_if, BlockKey.toBytes_injective.eq_iff,
    Function.update_apply]
  split <;> rfl

theorem Readable.insert {db db' : LevelDb} (hr : Readable db) (hm : Matches key b.metadata)
    (h : db'.records = AList.insert key.toBytes (serializeBlock b) db.records) : Readable db' := by
  intro k v hv
  simp only [LevelDb.at?, h, Table.lookup_insert_if] at hv
  split at hv
  · rename_i hk
    exact ⟨key, b, hk, (Option.some.inj hv).symm, hm⟩
  · exact hr k v hv

theorem Readable.erase {db db' : LevelDb} (hr : Readable db) {k₀ : Bytes}
    (h : db'.records = AList.erase k₀ db.records) : Readable db' := by
  intro k v hv
  simp only [LevelDb.at?, h, Table.lookup_erase_if] at hv
  split at hv
  · cases hv
  · exact hr k v hv

end Writing

/-! ### What each call does -/

/-- No promise about later calls is lost. -/
structure Steady (s s' : SsdTier) : Prop where
  opened : s'.opened = s.opened
  reliable : s.db.Reliable → s'.db.Reliable
  calm : s.Calm → s'.Calm
  opens : s.db.Opens → s'.db.Opens

/-- Only the streams have moved. -/
structure Undisturbed (s s' : SsdTier) : Prop extends Steady s s' where
  records : s'.db.records = s.db.records
  stats : s'.stats = s.stats

/-- What a call may fail with. -/
def callFaults : Set Status :=
  { st | st.code = .ioError ∨ st.code = .outOfCapacity ∨ st.code = .invalidArgument }

/-- What `Open` or an enumeration may fail with. -/
def openFaults : Set Status := { st | st.code = .ioError ∨ st.code = .outOfCapacity ∨ st.code = .corruption }

theorem faultStatus_code (what alloc : String) (f : Fault) :
    (faultStatus what alloc f).code = .ioError ∨ (faultStatus what alloc f).code = .outOfCapacity := by
  cases f with
  | failed text => exact .inl rfl
  | badAlloc => exact .inr rfl

theorem Undisturbed.refl (s : SsdTier) : Undisturbed s s := ⟨⟨rfl, id, id, id⟩, rfl, rfl⟩

theorem undisturbed_drawn (s : SsdTier) : Undisturbed s s.drawn :=
  ⟨⟨rfl, LevelDb.Reliable.drawn, id, id⟩, rfl, rfl⟩

section Calls

variable {s : SsdTier} {key : BlockKey} {b : Block}

/-- `Put` fails and writes nothing, or writes the block's record and counts it. -/
theorem put_cases (hopen : s.opened = true) (key : BlockKey) (b : Block) :
    (∃ st s', s.put key b = (.error st, s') ∧ Undisturbed s s' ∧ st ∈ callFaults ∧
      ¬ (s.db.Reliable ∧ s.Calm ∧ Matches key b.metadata)) ∨
    ∃ s', s.put key b = (.ok (stableHandle key), s') ∧ Steady s s' ∧ Matches key b.metadata ∧
      s'.db.records = AList.insert key.toBytes (serializeBlock b) s.db.records ∧
      s'.stats = countPut s.stats (s.db.at? key.toBytes) (serializeBlock b) := by
  have hnot : (!s.opened) = false := by rw [hopen]; rfl
  simp only [put, hnot, Bool.false_eq_true, if_false]
  cases hvalid : validateMetadata key b.metadata with
  | error st =>
    exact .inl ⟨_, s, rfl, .refl s, .inr (.inr rfl), fun h => (validateMetadata_error hvalid).2 h.2.2⟩
  | ok _ =>
    have hm := validateMetadata_ok_iff.mp hvalid
    cases halloc : s.allocs.head with
    | false =>
      refine .inl ⟨_, _, rfl, ⟨⟨rfl, id, fun hc i => hc (i + 1), id⟩, rfl, rfl⟩, .inr (.inl rfl), fun h => ?_⟩
      have htrue : s.allocs.head = true := h.2.1 0
      rw [halloc] at htrue; cases htrue
    | true =>
      simp only [Bool.not_true, Bool.false_eq_true, if_false]
      rcases s.db.get_cases key.toBytes with ⟨f, hget, hbad⟩ | hget
      · rw [hget]
        refine .inl ⟨_, _, rfl, ⟨⟨rfl, LevelDb.Reliable.drawn, fun hc i => hc (i + 1), id⟩, rfl, rfl⟩, ?_,
          fun h => hbad h.1⟩
        exact (faultStatus_code _ _ f).imp_right .inl
      · rw [hget]
        rcases s.db.drawn.put_cases key.toBytes (serializeBlock b) with ⟨f, hput, hbad⟩ | hput
        · simp only [hput]
          refine .inl ⟨_, _, rfl, ⟨⟨rfl, fun hr => hr.drawn.drawn, fun hc i => hc (i + 1), id⟩, rfl, rfl⟩, ?_,
            fun h => hbad h.1.drawn⟩
          exact (faultStatus_code _ _ f).imp_right .inl
        · simp only [hput]
          exact .inr ⟨_, rfl, ⟨rfl, fun hr => hr.drawn.drawn, fun hc i => hc (i + 1), id⟩, hm, rfl, rfl⟩

/-- `Get` keeps the tier contract, or LevelDB fails. -/
theorem get_spec (hopen : s.opened = true) (hr : Readable s.db) (key : BlockKey) (dst : MutableBuffer)
    (out : Option BlockView) :
    ∃ r out' s', s.get key dst out = (r, out', s') ∧ Steady s s' ∧ s'.db.records = s.db.records ∧
      s'.stats = countGet s.stats (Result.code r) ∧
      ((Result.code r, out') = getContract ((s.contents key).map (·.block)) dst out ∨
        ∃ st ∈ callFaults, r = .error st ∧ out' = clearView out ∧ ¬ s.db.Reliable) := by
  simp only [get]
  cases hargs : checkGetArgs "SsdTier" dst out with
  | error st =>
    obtain ⟨hcode, hbad⟩ := checkGetArgs_error hargs
    refine ⟨.error st, _, s, rfl, ⟨rfl, id, id, id⟩, rfl, ?_, .inl ?_⟩
    · simp [countGet, Result.code, hcode]
    · rw [getContract_bad hbad]; simp [Result.code, hcode]
  | ok _ =>
    have hnot : (!s.opened) = false := by rw [hopen]; rfl
    simp only [hnot, Bool.false_eq_true, if_false]
    have hsteady : Steady s { s with db := s.db.drawn } := s.undisturbed_drawn.toSteady
    rcases s.db.get_cases key.toBytes with ⟨f, hget, hbad⟩ | hget
    · rw [hget]
      have hcode := faultStatus_code "leveldb get: " "SsdTier::Get allocation failed" f
      refine ⟨_, _, _, rfl, hsteady, rfl, ?_, .inr ⟨_, hcode.imp_right .inl, rfl, rfl, hbad⟩⟩
      rcases hcode with hcode | hcode <;> simp [countGet, Result.code, hcode]
    · rw [hget, getContract_good (checkGetArgs_ok_iff.mp hargs)]
      rcases hr.cases key with ⟨hat, hnone⟩ | ⟨b, hat, hm, hsome⟩
      · rw [hat, hnone]
        exact ⟨_, _, _, rfl, ⟨rfl, hsteady.reliable, id, hsteady.opens⟩, rfl, rfl, .inl rfl⟩
      · rw [hat, hsome]
        simp only [decodeRecord_serializeBlock hm, Option.map_some, entryOf_payloadSize, entryOf_block,
          entryOf_metadata, payload_headerOf]
        by_cases hfit : dst.capacity < b.sizeBytes
        · simp only [hfit, if_true]
          exact ⟨_, _, _, rfl, hsteady, rfl, rfl, .inl rfl⟩
        · simp only [hfit, if_false]
          exact ⟨_, _, _, rfl, ⟨rfl, hsteady.reliable, id, hsteady.opens⟩, rfl, rfl, .inl rfl⟩

/-- `Probe` reports what is stored, or LevelDB fails. -/
theorem probe_spec (hopen : s.opened = true) (hr : Readable s.db) (key : BlockKey) :
    ∃ r, s.probe key = (r, s.drawn) ∧
      ((match s.contents key with
        | some e => r = .ok e.info
        | none => r = .error (.notFound key.toText)) ∨
        ∃ st ∈ callFaults, r = .error st ∧ ¬ s.db.Reliable) := by
  have hnot : (!s.opened) = false := by rw [hopen]; rfl
  simp only [probe, hnot, Bool.false_eq_true, if_false]
  rcases s.db.get_cases key.toBytes with ⟨f, hget, hbad⟩ | hget
  · rw [hget]
    exact ⟨_, rfl, .inr ⟨_, (faultStatus_code _ _ f).imp_right .inl, rfl, hbad⟩⟩
  · rw [hget]
    rcases hr.cases key with ⟨hat, hnone⟩ | ⟨b, hat, hm, hsome⟩
    · rw [hat, hnone]
      exact ⟨_, rfl, .inl rfl⟩
    · rw [hat, hsome]
      simp only [decodeRecord_serializeBlock hm]
      exact ⟨_, rfl, .inl rfl⟩

/-- `Evict` of an absent key reports that, and of a present one deletes its record, or LevelDB fails. -/
theorem evict_cases (hopen : s.opened = true) (key : BlockKey) :
    (∃ st s', s.evict key = (.error st, s') ∧ Undisturbed s s' ∧
      (s.db.at? key.toBytes = none ∧ st = .notFound key.toText ∨ ¬ s.db.Reliable)) ∨
    ∃ v s', s.evict key = (.ok (), s') ∧ s.db.at? key.toBytes = some v ∧ Steady s s' ∧
      s'.db.records = AList.erase key.toBytes s.db.records ∧ s'.stats = countEvict s.stats v := by
  have hnot : (!s.opened) = false := by rw [hopen]; rfl
  simp only [evict, hnot, Bool.false_eq_true, if_false]
  rcases s.db.get_cases key.toBytes with ⟨f, hget, hbad⟩ | hget
  · rw [hget]
    exact .inl ⟨_, _, rfl, s.undisturbed_drawn, .inr hbad⟩
  · rw [hget]
    cases hat : s.db.at? key.toBytes with
    | none => exact .inl ⟨_, _, rfl, s.undisturbed_drawn, .inl ⟨rfl, rfl⟩⟩
    | some v =>
      rcases s.db.drawn.delete_cases key.toBytes with ⟨f, hdel, hbad⟩ | hdel
      · simp only [hdel]
        exact .inl ⟨_, _, rfl, ⟨⟨rfl, fun h => h.drawn.drawn, id, id⟩, rfl, rfl⟩, .inr fun h => hbad h.drawn⟩
      · simp only [hdel]
        exact .inr ⟨v, _, rfl, rfl, ⟨rfl, fun h => h.drawn.drawn, id, id⟩, rfl, rfl⟩

end Calls

/-! ### Opening and enumerating -/

/-- The same records, and the same promises about `Get`, `Put` and `Delete`. -/
structure SameDisk (s s' : SsdTier) : Prop where
  records : s'.db.records = s.db.records
  calls : s'.db.calls = s.db.calls
  allocs : s'.allocs = s.allocs
  opens : s.db.Opens → s'.db.Opens

/-- The counters as a scan of the records finds them. -/
def scanned (s : SsdTier) : TierStats :=
  { capacityBytes := s.stats.capacityBytes
    numBlocks := Table.size s.db.records
    usedBytes := UInt64.ofNat s.db.totalBytes }

theorem readable_iff_entries {db : LevelDb} : Readable db ↔ ∀ r ∈ db.entries, IsRecord r.1 r.2 := by
  constructor
  · rintro h ⟨k, v⟩ hr
    exact h k v (LevelDb.mem_entries.mp hr)
  · intro h k v hv
    exact h (k, v) (LevelDb.mem_entries.mpr hv)

theorem valueBytes_take_le (records : List (Bytes × Bytes)) (n : ℕ) :
    valueBytes (records.take n) ≤ valueBytes records := by
  induction records generalizing n with
  | nil => simp
  | cons r records ih =>
    cases n with
    | zero => simp [Table.load]
    | succ n =>
      have hrest := ih n
      simp only [valueBytes, List.take_succ_cons, Table.load] at hrest ⊢
      omega

/-- What the scan of an iteration finds wrong is wrong with the records. -/
theorem scan_reached_cases (db : LevelDb) (stop : Option Break) :
    (∃ st, scanRecords (0, 0) (db.reached stop).1 = .error st ∧ st.code = .corruption ∧
      (¬ Readable db ∨ UInt64.size ≤ db.totalBytes)) ∨
    ∃ occupied, scanRecords (0, 0) (db.reached stop).1 = .ok occupied ∧
      (stop = none → occupied = (Table.size db.records, UInt64.ofNat db.totalBytes) ∧ Readable db) := by
  have hpart : ∀ r ∈ (db.reached stop).1, r ∈ db.entries := by
    intro r hr
    cases stop with
    | none => exact hr
    | some b => exact List.mem_of_mem_take hr
  have hle : valueBytes (db.reached stop).1 ≤ db.totalBytes := by
    rw [← db.load_entries]
    cases stop with
    | none => exact le_refl _
    | some b => exact valueBytes_take_le db.entries b.after
  rcases scanRecords_cases (db.reached stop).1 (0, 0) with ⟨st, hst, hcode, hbad⟩ | ⟨hok, hall⟩
  · refine .inl ⟨st, hst, hcode, ?_⟩
    rcases hbad with ⟨r, hr, hbad⟩ | hover
    · exact .inl fun h => hbad (readable_iff_entries.mp h r (hpart r hr))
    · exact .inr (by simp only [UInt64.toNat_zero, Nat.zero_add] at hover; omega)
  · refine .inr ⟨_, hok, ?_⟩
    rintro rfl
    refine ⟨?_, readable_iff_entries.mpr hall⟩
    simp only [LevelDb.reached, valueBytes, db.length_entries, db.load_entries, Nat.zero_add, UInt64.zero_add]

/-- `Open` on a closed tier: LevelDB fails, or the records are refused, or they have been counted. -/
theorem openTier_cases {s : SsdTier} (hclosed : s.opened = false) :
    (∃ st s', s.openTier = (.error st, s') ∧ s'.opened = false ∧ s'.stats = s.stats ∧ SameDisk s s' ∧
      ((st.code = .ioError ∨ st.code = .outOfCapacity) ∧
          ¬ (s.db.opens.head = none ∧ s.db.sweeps.head = none) ∨
        st.code = .corruption ∧ (¬ Readable s.db ∨ UInt64.size ≤ s.db.totalBytes))) ∨
    ∃ s', s.openTier = (.ok (), s') ∧ s'.opened = true ∧ s'.stats = s.scanned ∧ SameDisk s s' ∧
      Readable s.db := by
  simp only [openTier, hclosed, Bool.false_eq_true, if_false, LevelDb.openDb]
  cases hopen : s.db.opens.head with
  | some text =>
    exact .inl ⟨_, _, rfl, rfl, rfl, ⟨rfl, rfl, rfl, LevelDb.Opens.openDb⟩,
      .inl ⟨.inl rfl, fun h => by cases h.1⟩⟩
  | none =>
    -- `DB::Open` leaves the records and the iterations of the scan as they are
    set db : LevelDb := { s.db with opens := s.db.opens.tail, visits := s.db.visits.tail } with hdb
    have hsweeps : s.db.sweeps.head = db.sweeps.head := rfl
    rw [hsweeps]
    simp only [LevelDb.sweep]
    rcases scan_reached_cases db db.sweeps.head with ⟨st, hst, hcode, hbad⟩ | ⟨occupied, hok, hall⟩
    · simp only [hst]
      exact .inl ⟨_, _, rfl, rfl, rfl, ⟨rfl, rfl, rfl, fun h => h.openDb.sweep⟩, .inr ⟨hcode, hbad⟩⟩
    · simp only [hok]
      cases hstop : db.sweeps.head with
      | some b =>
        exact .inl ⟨_, _, rfl, rfl, rfl, ⟨rfl, rfl, rfl, fun h => h.openDb.sweep⟩,
          .inl ⟨faultStatus_code _ _ b.fault, fun h => by cases h.2⟩⟩
      | none =>
        obtain ⟨rfl, hr⟩ := hall hstop
        exact .inr ⟨_, rfl, rfl, rfl, ⟨rfl, rfl, rfl, fun h => h.openDb.sweep⟩, hr⟩

/-- `VisitEntries` on an open tier lists every block once, or the iteration fails. -/
theorem visitEntries_cases {s : SsdTier} (hopen : s.opened = true) (hr : Readable s.db) (alloc : Bool) :
    (∃ es, s.visitEntries alloc = (es, .ok ()) ∧ (es.map Prod.fst).Nodup ∧
      ∀ k i, (k, i) ∈ es ↔ ∃ e, s.contents k = some e ∧ i = e.info) ∨
    ∃ st, s.visitEntries alloc = ([], .error st) ∧ (st.code = .ioError ∨ st.code = .outOfCapacity) ∧
      ¬ (s.db.visits.head = none ∧ alloc = true) := by
  have hnot : (!s.opened) = false := by rw [hopen]; rfl
  simp only [visitEntries, hnot, Bool.false_eq_true, if_false, LevelDb.visit]
  cases hstop : s.db.visits.head with
  | some b =>
    have hpart : ∀ r ∈ s.db.entries.take b.after, IsRecord r.1 r.2 := fun r hmem =>
      readable_iff_entries.mp hr r (List.mem_of_mem_take hmem)
    obtain ⟨es, hes, -, -⟩ := visitRecords_spec hpart
    simp only [LevelDb.reached, hes]
    exact .inr ⟨_, rfl, faultStatus_code _ _ b.fault, by simp⟩
  | none =>
    obtain ⟨es, hes, hkeys, hmem⟩ := visitRecords_spec (readable_iff_entries.mp hr)
    simp only [LevelDb.reached, hes]
    cases alloc with
    | false => exact .inr ⟨_, rfl, .inr rfl, by simp⟩
    | true =>
      refine .inl ⟨es, rfl, ?_, fun k i => ?_⟩
      · have hnodup := s.db.entries_nodup
        rw [← hkeys] at hnodup
        exact hnodup.of_map
      · simp only [hmem, LevelDb.mem_entries]
        rcases hr.cases k with ⟨hat, hnone⟩ | ⟨b, hat, -, hsome⟩
        · simp [hat, hnone]
        · simp only [hat, hsome, Option.some.injEq, serializeBlock_injective.eq_iff]
          constructor
          · rintro ⟨b', rfl, hi⟩; exact ⟨_, rfl, hi⟩
          · rintro ⟨e, rfl, hi⟩; exact ⟨b, rfl, hi⟩

/-! ### The laws -/

instance : ColdView SsdTier where
  Intact s := Readable s.db
  Wf s := s.opened = true ∧ Readable s.db
  contents := contents
  Exact s := s.db.Reliable
  Accepts s k b := s.db.Reliable ∧ s.Calm ∧ Matches k b.metadata
  Opens s := s.db.Opens
  faults _ := callFaults
  openFaults _ := openFaults

theorem Steady.promises {s s' : SsdTier} (h : Steady s s') : ColdPromises s s' :=
  ⟨h.reliable, fun _ _ ha => ⟨h.reliable ha.1, h.calm ha.2.1, ha.2.2⟩, h.opens, subset_rfl, subset_rfl⟩

theorem Undisturbed.kept {s s' : SsdTier} (h : Undisturbed s s') (hopen : s.opened = true)
    (hr : Readable s.db) : ColdKept s s' :=
  ⟨h.toSteady.promises, h.opened.trans hopen, hr.of_records h.records⟩

theorem SameDisk.rested {s s' : SsdTier} (h : SameDisk s s') (hr : Readable s.db) : ColdRested s s' where
  exact hex i := by rw [h.calls]; exact hex i
  accepts _ _ ha := ⟨fun i => by rw [h.calls]; exact ha.1 i, fun i => by rw [h.allocs]; exact ha.2.1 i,
    ha.2.2⟩
  opens := h.opens
  faults := subset_rfl
  openFaults := subset_rfl
  intact := hr.of_records h.records
  contents := contents_of_records h.records

/-- LAWS: a storage node may use the disk tier as its cold tier. -/
instance : ColdTier SsdTier where
  type_ssd _ := rfl
  wf_intact _ h := h.2
  open_law s hr := by
    by_cases hopen : s.opened = true
    · refine ⟨.ok (), s, ?_, .refl hr, ⟨hopen, hr⟩, hopen⟩
      show s.openTier = _
      simp only [openTier, hopen, if_true]
    · rcases openTier_cases (Bool.not_eq_true _ ▸ hopen) with
        ⟨st, s', hst, -, -, hdisk, hcode⟩ | ⟨s', hok, hopened, -, hdisk, -⟩
      · refine ⟨.error st, s', hst, hdisk.rested hr, ?_⟩
        rcases hcode with ⟨hcode, hbad⟩ | ⟨hcode, -⟩
        · exact ⟨hcode.imp_right .inl, fun h => absurd ⟨h.1 0, h.2.1 0⟩ hbad⟩
        · exact ⟨.inr (.inr hcode), fun _ => hcode⟩
      · exact ⟨.ok (), s', hok, hdisk.rested hr, ⟨hopened, hr.of_records hdisk.records⟩, hopened⟩
  close_law s hr := ⟨.ok (), _, rfl, SameDisk.rested ⟨rfl, rfl, rfl, id⟩ hr, by simp⟩
  put_law s k b := by
    rintro ⟨hopen, hr⟩
    rcases put_cases hopen k b with ⟨st, s', hput, hsame, hst, hno⟩ | ⟨s', hput, hsteady, hm, hrec, -⟩
    · exact ⟨.error st, s', hput, hsame.kept hopen hr, contents_of_records hsame.records, hst, hno⟩
    · refine ⟨.ok (stableHandle k), s', hput, ⟨hsteady.promises, ?_, hr.insert hm hrec⟩, contents_insert hrec⟩
      exact hsteady.opened.trans hopen
  get_law s k dst out := by
    rintro ⟨hopen, hr⟩
    obtain ⟨r, out', s', hget, hsteady, hrec, -, hanswer⟩ := get_spec hopen hr k dst out
    exact ⟨r, out', s', hget, ⟨hsteady.promises, hsteady.opened.trans hopen, hr.of_records hrec⟩,
      contents_of_records hrec, hanswer⟩
  probe_law s k := by
    rintro ⟨hopen, hr⟩
    obtain ⟨r, hprobe, hanswer⟩ := probe_spec hopen hr k
    exact ⟨r, s.drawn, hprobe, s.undisturbed_drawn.kept hopen hr, contents_of_records rfl, hanswer⟩
  visit_law s alloc := by
    rintro ⟨hopen, hr⟩
    rcases visitEntries_cases hopen hr alloc with h | ⟨st, hst, hcode, hbad⟩
    · exact .inl h
    · exact .inr ⟨st, hst, .inr (hcode.imp_right .inl), fun h => hbad ⟨h.1.2.2 0, h.2⟩⟩

end SsdTier

end TidePool.Store
