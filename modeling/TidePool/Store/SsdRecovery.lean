import TidePool.Schemes.Machine
import TidePool.Store.SsdLaws

/-! Recovery of the disk tier.

    `Open` accepts a database exactly when every record is one that `Put` writes. Over a whole life of
    the tier (calls, closings and reopenings, any of which may fail) the records stay such records, and
    the counters that `Put` and `Evict` move one call at a time are the ones a fresh scan would find:

        records ──scan──▶ (num_blocks, used_bytes)
           │ Put, Evict        │ countPut, countEvict
        records' ──scan──▶ (num_blocks', used_bytes') -/

namespace TidePool.Store
open Schemes BlockCodec

namespace SsdTier

/-- `num_blocks` and `used_bytes` are those of the records. -/
structure Accounted (s : SsdTier) : Prop where
  numBlocks : s.stats.numBlocks = Table.size s.db.records
  usedBytes : s.stats.usedBytes = UInt64.ofNat s.db.totalBytes

section Accounting

variable {s s' : SsdTier}

/-- Same records, same occupancy. -/
theorem Accounted.of_records (h : s.Accounted) (hrec : s'.db.records = s.db.records)
    (hnum : s'.stats.numBlocks = s.stats.numBlocks) (hused : s'.stats.usedBytes = s.stats.usedBytes) :
    s'.Accounted := by
  constructor
  · rw [hnum, h.numBlocks, hrec]
  · simp only [hused, h.usedBytes, LevelDb.totalBytes, hrec]

theorem accounted_scanned (hrec : s'.db.records = s.db.records) (hstats : s'.stats = s.scanned) :
    s'.Accounted := by
  constructor
  · rw [hstats, hrec]; rfl
  · simp only [hstats, scanned, LevelDb.totalBytes, hrec]

/-- Writing a record over what its key held moves the counters as the scan would. -/
theorem Accounted.insert (h : s.Accounted) {k v : Bytes}
    (hrec : s'.db.records = AList.insert k v s.db.records)
    (hstats : s'.stats = countPut s.stats (s.db.at? k) v) : s'.Accounted := by
  have hsize := Table.size_insert s.db.records k v
  have hweight := Table.weight_insert (fun _ v => v.length) s.db.records k v
  have hused := congrArg UInt64.ofNat hweight
  rw [UInt64.ofNat_add, UInt64.ofNat_add] at hused
  simp only [Table.held] at hsize hused
  rw [LevelDb.at?] at hstats
  have hnum := h.numBlocks
  -- an overwrite gives back the old bytes, a new key adds a block
  cases hold : AList.lookup k s.db.records with
  | some old =>
    simp only [hold, Option.elim_some] at hsize hused hstats
    refine ⟨by rw [hstats, hrec]; simp only [countPut]; omega, ?_⟩
    simp only [hstats, countPut, h.usedBytes, LevelDb.totalBytes, hrec]
    grind
  | none =>
    simp only [hold, Option.elim_none] at hsize hused hstats
    refine ⟨by rw [hstats, hrec]; simp only [countPut]; omega, ?_⟩
    simp only [hstats, countPut, h.usedBytes, LevelDb.totalBytes, hrec]
    grind

theorem Accounted.erase (h : s.Accounted) {k v : Bytes} (hat : s.db.at? k = some v)
    (hrec : s'.db.records = AList.erase k s.db.records) (hstats : s'.stats = countEvict s.stats v) :
    s'.Accounted := by
  have hsize := Table.size_erase s.db.records k
  have hused := congrArg UInt64.ofNat (Table.weight_erase (fun _ v => v.length) s.db.records k)
  rw [LevelDb.at?] at hat
  rw [UInt64.ofNat_add] at hused
  simp only [Table.held, hat, Option.elim_some] at hsize hused
  constructor
  · have hnum := h.numBlocks
    rw [hstats, hrec]
    simp only [countEvict]
    omega
  · simp only [hstats, countEvict, h.usedBytes, LevelDb.totalBytes, hrec]
    grind

end Accounting

/-! ### A whole life of the tier -/

/-- The live entries after a call, by what `Put` and `Evict` returned. -/
def liveAfter (live : BlockKey → Option Entry) : TierCall → TierReply → BlockKey → Option Entry
  | .put key b, .handle (.ok h) => Function.update live key (some ⟨b, h⟩)
  | .evict key, .status (.ok ()) => Function.update live key none
  | _, _ => live

/-- The tier holds the live entries, readably, and its counters say so. -/
structure Tracks (s : SsdTier) (live : BlockKey → Option Entry) : Prop where
  readable : Readable s.db
  accounted : s.Accounted
  contents : s.contents = live

section Steps

variable {s s' : SsdTier} {live : BlockKey → Option Entry}

theorem tracks_fresh (env : DiskEnv) : Tracks (fresh env) fun _ => none where
  readable := by intro k v hv; cases hv
  accounted := ⟨rfl, rfl⟩
  contents := rfl

/-- A call that leaves the records and the occupancy alone. -/
theorem Tracks.of_records (h : Tracks s live) (hrec : s'.db.records = s.db.records)
    (hnum : s'.stats.numBlocks = s.stats.numBlocks) (hused : s'.stats.usedBytes = s.stats.usedBytes) :
    Tracks s' live :=
  ⟨h.readable.of_records hrec, h.accounted.of_records hrec hnum hused,
    (contents_of_records hrec).trans h.contents⟩

theorem Tracks.undisturbed (h : Tracks s live) (hsame : Undisturbed s s') : Tracks s' live :=
  h.of_records hsame.records (by rw [hsame.stats]) (by rw [hsame.stats])

theorem Tracks.openTier (h : Tracks s live) : Tracks s.openTier.2 live := by
  by_cases hopen : s.opened = true
  · simpa only [SsdTier.openTier, hopen, if_true] using h
  · rcases openTier_cases (Bool.not_eq_true _ ▸ hopen) with
      ⟨st, s', hst, -, hstats, hdisk, -⟩ | ⟨s', hok, -, hstats, hdisk, -⟩
    · rw [hst]
      exact h.of_records hdisk.records (by rw [hstats]) (by rw [hstats])
    · rw [hok]
      exact ⟨h.readable.of_records hdisk.records, accounted_scanned hdisk.records hstats,
        (contents_of_records hdisk.records).trans h.contents⟩

theorem countGet_occupancy (stats : TierStats) (code : StatusCode) :
    (countGet stats code).numBlocks = stats.numBlocks ∧
      (countGet stats code).usedBytes = stats.usedBytes := by
  cases code <;> exact ⟨rfl, rfl⟩

theorem Tracks.get (h : Tracks s live) (key : BlockKey) (dst : MutableBuffer) (out : Option BlockView) :
    Tracks (s.get key dst out).2.2 live := by
  by_cases hopen : s.opened = true
  · obtain ⟨r, out', s', hget, -, hrec, hstats, -⟩ := get_spec hopen h.readable key dst out
    have hocc := countGet_occupancy s.stats (Result.code r)
    rw [hget]
    exact h.of_records hrec (by rw [hstats, hocc.1]) (by rw [hstats, hocc.2])
  · simp only [SsdTier.get]
    cases checkGetArgs "SsdTier" dst out with
    | error st => exact h
    | ok _ => simpa [hopen] using h

theorem Tracks.probe (h : Tracks s live) (key : BlockKey) : Tracks (s.probe key).2 live := by
  by_cases hopen : s.opened = true
  · obtain ⟨r, hprobe, -⟩ := probe_spec hopen h.readable key
    rw [hprobe]
    exact h.undisturbed s.undisturbed_drawn
  · simpa [SsdTier.probe, hopen] using h

theorem Tracks.put (h : Tracks s live) (key : BlockKey) (b : Block) :
    Tracks (s.put key b).2 (liveAfter live (.put key b) (.handle (s.put key b).1)) := by
  by_cases hopen : s.opened = true
  · rcases put_cases hopen key b with ⟨st, s', hput, hsame, -, -⟩ | ⟨s', hput, -, hm, hrec, hstats⟩
    · rw [hput]
      exact h.undisturbed hsame
    · rw [hput]
      exact ⟨h.readable.insert hm hrec, h.accounted.insert hrec hstats,
        (contents_insert hrec).trans (by rw [h.contents]; rfl)⟩
  · simpa [SsdTier.put, hopen, liveAfter] using h

theorem Tracks.evict (h : Tracks s live) (key : BlockKey) :
    Tracks (s.evict key).2 (liveAfter live (.evict key) (.status (s.evict key).1)) := by
  by_cases hopen : s.opened = true
  · rcases evict_cases hopen key with ⟨st, s', hevict, hsame, -⟩ | ⟨v, s', hevict, hat, -, hrec, hstats⟩
    · rw [hevict]
      exact h.undisturbed hsame
    · rw [hevict]
      exact ⟨h.readable.erase hrec, h.accounted.erase hat hrec hstats,
        (contents_erase hrec).trans (by rw [h.contents]; rfl)⟩
  · simpa [SsdTier.evict, hopen, liveAfter] using h

/-- STEP: every call keeps the tier in step with the live entries. -/
theorem tierStep_tracks (h : Tracks s live) (c : TierCall) :
    Yields True (tierStep s c) fun res => Tracks res.2 (liveAfter live c res.1) ∧ True := by
  cases c with
  | openTier => exact ⟨h.openTier, trivial⟩
  | closeTier => exact ⟨h.of_records rfl rfl rfl, trivial⟩
  | probe key => exact ⟨h.probe key, trivial⟩
  | put key b => exact ⟨h.put key b, trivial⟩
  | get key dst out => exact ⟨h.get key dst out, trivial⟩
  | evict key => exact ⟨h.evict key, trivial⟩

end Steps

/-- RUN: so does a whole life of the tier. -/
theorem run_tracks (env : DiskEnv) (calls : List TierCall) :
    ∃ replies s, run tierStep (fresh env) calls = .ok (replies, s) ∧
      Tracks s (follow liveAfter (fun _ => none) calls replies) := by
  have hyields : Yields True (run tierStep (fresh env) calls) fun res =>
      Tracks res.2 (follow liveAfter (fun _ => none) calls res.1) ∧ ∀ o ∈ res.1, True :=
    run_yields liveAfter Tracks (fun _ => True) (fun s live c (_ : True) h => tierStep_tracks h c)
      (along_of_forall (fresh env) fun _ _ => trivial) (tracks_fresh env)
  obtain ⟨⟨replies, s⟩, hrun, htracks, -⟩ := hyields.answer trivial
  exact ⟨replies, s, hrun, htracks⟩

/-- LevelDB will not fail the next `Open`, and its values total fewer than `2^64` bytes. -/
def Openable (s : SsdTier) : Prop :=
  s.db.opens.head = none ∧ s.db.sweeps.head = none ∧ s.db.totalBytes < UInt64.size

/-- `Open` on a closed tier whose LevelDB does not fail it. -/
theorem openTier_of_openable {s : SsdTier} (hclosed : s.opened = false) (h : Openable s) :
    (∃ st s', s.openTier = (.error st, s') ∧ st.code = .corruption ∧ s'.opened = false ∧ ¬ Readable s.db) ∨
    ∃ s', s.openTier = (.ok (), s') ∧ s'.stats = s.scanned ∧ Readable s.db := by
  rcases openTier_cases hclosed with ⟨st, s', hst, hstill, -, -, hwhy⟩ | ⟨s', hok, -, hstats, -, hr⟩
  · refine .inl ⟨st, s', hst, ?_⟩
    rcases hwhy with ⟨-, hfail⟩ | ⟨hcode, hbad⟩
    · exact absurd ⟨h.1, h.2.1⟩ hfail
    · exact ⟨hcode, hstill, hbad.resolve_right (by have := h.2.2; omega)⟩
  · exact .inr ⟨s', hok, hstats, hr⟩

theorem Tracks.opens {s : SsdTier} {live : BlockKey → Option Entry} (h : Tracks s live)
    (hopenable : Openable s) : s.openTier.1 = .ok () := by
  by_cases hopen : s.opened = true
  · simp only [SsdTier.openTier, hopen, if_true]
  · rcases openTier_of_openable (Bool.not_eq_true _ ▸ hopen) hopenable with
      ⟨-, -, -, -, -, hbad⟩ | ⟨s', hok, -, -⟩
    · exact absurd h.readable hbad
    · rw [hok]

/-- A fresh scan finds the counters as they are. -/
theorem Tracks.reopens {s : SsdTier} {live : BlockKey → Option Entry} (h : Tracks s live)
    (hopenable : Openable s) : ∃ s', s.closeTier.2.openTier = (.ok (), s') ∧
      s'.stats.numBlocks = s.stats.numBlocks ∧ s'.stats.usedBytes = s.stats.usedBytes := by
  have hclosed : s.closeTier.2.opened = false := rfl
  rcases openTier_of_openable hclosed hopenable with ⟨-, -, -, -, -, hbad⟩ | ⟨s', hok, hstats, -⟩
  · exact absurd h.readable hbad
  · refine ⟨s', hok, ?_, ?_⟩
    · rw [hstats]; exact h.accounted.numBlocks.symm
    · rw [hstats]; exact h.accounted.usedBytes.symm

/-- RECOVERY: `Open` accepts exactly the databases that hold nothing but records of `Put`; so after any
    life of a tier that started empty, `Open` succeeds, an enumeration lists each live key once as `Put`
    left it, and the counters are those of a fresh scan. -/
theorem recovery_exact :
    (∀ s : SsdTier, s.opened = false → Openable s →
      (s.openTier.1 = .ok () ↔ ∀ k v, s.db.at? k = some v → IsRecord k v) ∧
      (¬ (∀ k v, s.db.at? k = some v → IsRecord k v) →
        Result.code s.openTier.1 = .corruption ∧ s.openTier.2.opened = false)) ∧
    ∀ (env : DiskEnv) (calls : List TierCall), ∃ replies s,
      run tierStep (fresh env) calls = .ok (replies, s) ∧
      (Openable s → s.openTier.1 = .ok () ∧ ∃ s', s.closeTier.2.openTier = (.ok (), s') ∧
        s'.stats.numBlocks = s.stats.numBlocks ∧ s'.stats.usedBytes = s.stats.usedBytes) ∧
      (s.opened = true → s.db.visits.head = none → ∃ es, s.visitEntries true = (es, .ok ()) ∧
        (es.map Prod.fst).Nodup ∧ ∀ key info, (key, info) ∈ es ↔
          ∃ e, follow liveAfter (fun _ => none) calls replies key = some e ∧ info = e.info) := by
  refine ⟨fun s hclosed hopenable => ?_, fun env calls => ?_⟩
  · rcases openTier_of_openable hclosed hopenable with ⟨st, s', hst, hcode, hstill, hbad⟩ | ⟨s', hok, -, hr⟩
    · refine ⟨⟨fun h => ?_, fun h => absurd h hbad⟩, fun _ => ?_⟩
      · rw [hst] at h; cases h
      · rw [hst]; exact ⟨hcode, hstill⟩
    · refine ⟨⟨fun _ => hr, fun _ => by rw [hok]⟩, fun h => absurd hr h⟩
  · obtain ⟨replies, s, hrun, htracks⟩ := run_tracks env calls
    refine ⟨replies, s, hrun, fun hopenable => ?_, fun hopen hvisit => ?_⟩
    · exact ⟨htracks.opens hopenable, htracks.reopens hopenable⟩
    · rcases visitEntries_cases hopen htracks.readable true with h | ⟨-, -, -, hno⟩
      · rwa [htracks.contents] at h
      · exact absurd ⟨hvisit, rfl⟩ hno

end SsdTier

end TidePool.Store
