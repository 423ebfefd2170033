import TidePool.Store.SsdTier

/-! What the disk tier can read is what it writes.

    A record is readable when it is the text of a key with the blob of a block whose metadata fits the
    key. `decodeRecord` and the scan of `Open` accept exactly those. -/

namespace TidePool.Store
open Schemes BlockCodec

namespace SsdTier

/-- `ValidateMetadata` as a property. -/
def Matches (key : BlockKey) (metadata : BlockMetadata) : Prop :=
  metadata.modelFingerprint = key.modelFingerprint ∧
    (metadata.numTokens = 0 ∨ metadata.numTokens = key.prefixLen)

instance (key : BlockKey) (metadata : BlockMetadata) : Decidable (Matches key metadata) :=
  inferInstanceAs (Decidable (_ ∧ _))

/-- The record of some block under its key. -/
def IsRecord (k v : Bytes) : Prop :=
  ∃ (key : BlockKey) (b : Block), k = key.toBytes ∧ v = serializeBlock b ∧ Matches key b.metadata

/-- What a stored block is known as. -/
def entryOf (key : BlockKey) (b : Block) : Entry := ⟨b, stableHandle key⟩

@[simp] theorem entryOf_block (key : BlockKey) (b : Block) : (entryOf key b).block = b := rfl

@[simp] theorem entryOf_metadata (key : BlockKey) (b : Block) :
    (entryOf key b).info.metadata = b.metadata := rfl

@[simp] theorem entryOf_payloadSize (key : BlockKey) (b : Block) :
    (entryOf key b).info.payloadSize = b.sizeBytes := rfl

section Records

variable {key : BlockKey} {m : BlockMetadata} {k v : Bytes}

theorem validateMetadata_ok_iff : validateMetadata key m = .ok () ↔ Matches key m := by
  simp only [validateMetadata, Matches]
  split
  · simp_all
  · split
    · simp_all
    · simp_all only [ne_eq, not_not, not_and_or, true_and]

theorem validateMetadata_error {s : Status} (h : validateMetadata key m = .error s) :
    s.code = .corruption ∧ ¬ Matches key m := by
  refine ⟨?_, fun hm => by rw [validateMetadata_ok_iff.mpr hm] at h; cases h⟩
  simp only [validateMetadata] at h
  split at h
  · cases h; rfl
  · split at h
    · cases h; rfl
    · cases h

/-- READ BACK: a record that was written is decoded to what was written. -/
theorem decodeRecord_serializeBlock {b : Block} (h : Matches key b.metadata) :
    decodeRecord key (serializeBlock b) = .ok ((entryOf key b).info, headerOf b) := by
  simp only [decodeRecord, deserializeHeader_serializeBlock, headerOf_metadata,
    validateMetadata_ok_iff.mpr h, headerOf_payloadLen]
  rfl

/-- Only what could have been written is decoded. -/
theorem decodeRecord_ok {x : BlockInfo × BlobHeader} (h : decodeRecord key v = .ok x) :
    ∃ b : Block, v = serializeBlock b ∧ Matches key b.metadata := by
  simp only [decodeRecord] at h
  cases hheader : deserializeHeader v with
  | error s => rw [hheader] at h; cases h
  | ok header =>
    obtain ⟨b, rfl, rfl⟩ := eq_serializeBlock_of_deserializeHeader hheader
    rw [hheader] at h
    cases hvalid : validateMetadata key b.metadata with
    | error s => simp only [headerOf_metadata, hvalid] at h; cases h
    | ok _ => exact ⟨b, rfl, validateMetadata_ok_iff.mp hvalid⟩

/-- A readable record is parsed, key and value. -/
theorem IsRecord.parses (h : IsRecord k v) :
    ∃ (key : BlockKey) (b : Block), k = key.toBytes ∧ v = serializeBlock b ∧ Matches key b.metadata ∧
      BlockKey.fromString k = .ok key ∧ decodeRecord key v = .ok ((entryOf key b).info, headerOf b) := by
  obtain ⟨key, b, rfl, rfl, hm⟩ := h
  exact ⟨key, b, rfl, rfl, hm, BlockKey.fromString_toBytes key, decodeRecord_serializeBlock hm⟩

/-- A record that is parsed is readable. -/
theorem isRecord_of_parse {x : BlockInfo × BlobHeader} (hk : BlockKey.fromString k = .ok key)
    (hv : decodeRecord key v = .ok x) : IsRecord k v := by
  obtain ⟨b, hb, hm⟩ := decodeRecord_ok hv
  exact ⟨key, b, (BlockKey.toBytes_of_fromString hk).symm, hb, hm⟩

/-- The record under the text of `key` is a block of `key`. -/
theorem IsRecord.of_key (h : IsRecord key.toBytes v) :
    ∃ b : Block, v = serializeBlock b ∧ Matches key b.metadata := by
  obtain ⟨key', b, hkey, hv, hm⟩ := h
  obtain rfl := BlockKey.toBytes_injective hkey
  exact ⟨b, hv, hm⟩

end Records

/-! ### The scan of `Open` -/

section Scan

/-- Bytes of the values of some records. -/
abbrev valueBytes (records : List (Bytes × Bytes)) : ℕ := Table.load (fun _ v => v.length) records

/-- The overflow test of the scan: a sum it lets pass is the sum. -/
theorem overflow_of_test {used : UInt64} {n : ℕ}
    (h : 18446744073709551615 - UInt64.ofNat n < used) : UInt64.size ≤ used.toNat + n := by
  have hmod : n % 2 ^ 64 ≤ n := Nat.mod_le _ _
  rw [UInt64.lt_iff_toNat_lt, UInt64.toNat_sub, UInt64.toNat_ofNat'] at h
  simp only [UInt64.size, UInt64.reduceToNat] at h ⊢
  omega

theorem toNat_add_ofNat_le (used : UInt64) (n : ℕ) : (used + UInt64.ofNat n).toNat ≤ used.toNat + n := by
  have hmod : n % 2 ^ 64 ≤ n := Nat.mod_le _ _
  rw [UInt64.toNat_add, UInt64.toNat_ofNat']
  omega

/-- One record: refused as corrupt, because it is unreadable or one too many, or counted. -/
theorem scanRecord_cases (occupied : ℕ × UInt64) (k v : Bytes) :
    (∃ s, scanRecord occupied (k, v) = .error s ∧ s.code = .corruption ∧
      (¬ IsRecord k v ∨ UInt64.size ≤ occupied.2.toNat + v.length)) ∨
    (scanRecord occupied (k, v) = .ok (occupied.1 + 1, occupied.2 + UInt64.ofNat v.length) ∧
      IsRecord k v) := by
  by_cases hrec : IsRecord k v
  · obtain ⟨key, b, -, -, -, hkey, hvalue⟩ := hrec.parses
    simp only [scanRecord, hkey, hvalue]
    split
    · rename_i hover
      exact .inl ⟨_, rfl, rfl, .inr (overflow_of_test hover)⟩
    · exact .inr ⟨rfl, hrec⟩
  · refine .inl ?_
    simp only [scanRecord]
    cases hkey : BlockKey.fromString k with
    | error s => exact ⟨.corruption _, rfl, rfl, .inl hrec⟩
    | ok key =>
      cases hvalue : decodeRecord key v with
      | error s => simp only [hvalue]; exact ⟨.corruption _, rfl, rfl, .inl hrec⟩
      | ok x => exact absurd (isRecord_of_parse hkey hvalue) hrec

/-- SCAN: it counts all the records, or refuses one. -/
theorem scanRecords_cases : ∀ (records : List (Bytes × Bytes)) (occupied : ℕ × UInt64),
    (∃ s, scanRecords occupied records = .error s ∧ s.code = .corruption ∧
      ((∃ r ∈ records, ¬ IsRecord r.1 r.2) ∨ UInt64.size ≤ occupied.2.toNat + valueBytes records)) ∨
    (scanRecords occupied records =
        .ok (occupied.1 + records.length, occupied.2 + UInt64.ofNat (valueBytes records)) ∧
      ∀ r ∈ records, IsRecord r.1 r.2)
  | [], occupied => .inr ⟨by simp [scanRecords, Table.load], by simp⟩
  | (k, v) :: records, occupied => by
    simp only [scanRecords]
    rcases scanRecord_cases occupied k v with ⟨s, hs, hcode, hbad⟩ | ⟨hok, hrec⟩
    · refine .inl ⟨s, by rw [hs], hcode, ?_⟩
      rcases hbad with hbad | hover
      · exact .inl ⟨_, List.mem_cons_self, hbad⟩
      · simp only [valueBytes, Table.load]
        exact .inr (by omega)
    · rw [hok]
      rcases scanRecords_cases records (occupied.1 + 1, occupied.2 + UInt64.ofNat v.length) with
        ⟨s, hs, hcode, hbad⟩ | ⟨hrest, hall⟩
      · refine .inl ⟨s, hs, hcode, ?_⟩
        rcases hbad with ⟨r, hr, hbad⟩ | hover
        · exact .inl ⟨r, List.mem_cons_of_mem _ hr, hbad⟩
        · have hle := toNat_add_ofNat_le occupied.2 v.length
          simp only [valueBytes, Table.load] at hover ⊢
          exact .inr (by omega)
      · refine .inr ⟨hrest.trans ?_, List.forall_mem_cons.mpr ⟨hrec, hall⟩⟩
        simp only [Table.load, List.length_cons, UInt64.ofNat_add, Except.ok.injEq, Prod.mk.injEq,
          UInt64.add_assoc, and_true]
        omega

end Scan

/-! ### The loop of `VisitEntries` -/

/-- Over readable records it lists each, with what its block is known as. -/
theorem visitRecords_spec : ∀ {records : List (Bytes × Bytes)}, (∀ r ∈ records, IsRecord r.1 r.2) →
    ∃ es, visitRecords records = .ok es ∧ (es.map Prod.fst).map BlockKey.toBytes = records.map Prod.fst ∧
      ∀ key info, (key, info) ∈ es ↔
        ∃ b, (key.toBytes, serializeBlock b) ∈ records ∧ info = (entryOf key b).info
  | [], _ => ⟨[], rfl, rfl, by simp⟩
  | (k, v) :: records, h => by
    obtain ⟨hrec, hall⟩ := List.forall_mem_cons.mp h
    obtain ⟨key, b, rfl, rfl, -, hkey, hvalue⟩ := IsRecord.parses hrec
    obtain ⟨es, hes, hkeys, hmem⟩ := visitRecords_spec hall
    refine ⟨(key, (entryOf key b).info) :: es, ?_, by simp [hkeys], fun key' info => ?_⟩
    · simp only [visitRecords, hkey, hvalue, hes]
    · simp only [List.mem_cons, Prod.mk.injEq, hmem]
      constructor
      · rintro (⟨rfl, rfl⟩ | ⟨b', hb', rfl⟩)
        · exact ⟨b, .inl ⟨rfl, rfl⟩, rfl⟩
        · exact ⟨b', .inr hb', rfl⟩
      · rintro ⟨b', ⟨hk, hv⟩ | hb', rfl⟩
        · obtain rfl := BlockKey.toBytes_injective hk
          obtain rfl := serializeBlock_injective hv
          exact .inl ⟨rfl, rfl⟩
        · exact .inr ⟨b', hb', rfl⟩

end SsdTier

end TidePool.Store
