import TidePool.Schemes.Machine
import TidePool.Store.DramTier
import TidePool.Store.SsdLaws

/-! The two tiers behind one interface (`tests/tier_contract_test.cpp`).

    In memory a block is a map entry keyed by the struct; on disk it is a byte string reached through two
    codecs, written after a read for its size. Their user cannot tell them apart: from related states a
    call returns the same code, the same view and the same block description, and moves the same
    counters. The only difference left is the header, 36 bytes a block. -/

namespace TidePool.Store
open Schemes BlockCodec

/-- What both tiers must agree on: the code, the description and the view. Handles are a tier's own. -/
def TierReply.seen : TierReply → StatusCode × Option (BlockMetadata × ℕ) × Option BlockView
  | .status r => (Result.code r, none, none)
  | .info r => (Result.code r, r.toOption.map fun i => (i.metadata, i.payloadSize), none)
  | .handle r => (Result.code r, none, none)
  | .view r out => (Result.code r, none, out)

/-- A failed read hands out nothing. -/
def TierReply.Cleared : TierReply → Prop
  | .view r out => Result.code r ≠ .ok → ∀ view, out = some view → view = {}
  | _ => True

theorem TierReply.seen_info_ok (i : BlockInfo) :
    (TierReply.info (.ok i)).seen = (.ok, some (i.metadata, i.payloadSize), none) := rfl

/-- `Put`, `Get`, `Probe` or `Evict`, with a block that fits its key. -/
def TierCall.Fits : TierCall → Prop
  | .openTier | .closeTier => False
  | .put key b => SsdTier.Matches key b.metadata
  | _ => True

/-! ### Counters -/

/-- The counters after `new` bytes were written over `old`. -/
def countWrite (stats : TierStats) : Option ℕ → ℕ → TierStats
  | some old, new => { stats with
      usedBytes := stats.usedBytes - UInt64.ofNat old + UInt64.ofNat new
      putCount := stats.putCount + 1 }
  | none, new => { stats with
      numBlocks := stats.numBlocks + 1
      usedBytes := stats.usedBytes + UInt64.ofNat new
      putCount := stats.putCount + 1 }

/-- The counters after `old` bytes were dropped. -/
def countDrop (stats : TierStats) (old : ℕ) : TierStats :=
  { stats with
    numBlocks := stats.numBlocks - 1
    usedBytes := stats.usedBytes - UInt64.ofNat old
    evictCount := stats.evictCount + 1 }

/-- Equal counters, but for a header a block. -/
structure SameCounts (d s : TierStats) : Prop where
  numBlocks : s.numBlocks = d.numBlocks
  putCount : s.putCount = d.putCount
  getCount : s.getCount = d.getCount
  evictCount : s.evictCount = d.evictCount
  hits : s.hits = d.hits
  misses : s.misses = d.misses
  usedBytes : s.usedBytes = d.usedBytes + 36 * UInt64.ofNat d.numBlocks

section Counters

variable {d s : TierStats}

theorem SameCounts.write (h : SameCounts d s) (old : Option ℕ) (new : ℕ) :
    SameCounts (countWrite d old new) (countWrite s (old.map (headerSize + ·)) (headerSize + new)) := by
  have hused := h.usedBytes
  obtain ⟨hnum, hput, hget, hevict, hhits, hmisses, -⟩ := h
  cases old with
  | some old =>
    refine ⟨hnum, by simp [countWrite, hput], hget, hevict, hhits, hmisses, ?_⟩
    simp only [countWrite, Option.map_some, headerSize, UInt64.ofNat_add, hused]
    grind
  | none =>
    refine ⟨by simp [countWrite, hnum], by simp [countWrite, hput], hget, hevict, hhits, hmisses, ?_⟩
    simp only [countWrite, Option.map_none, headerSize, UInt64.ofNat_add, hused]
    grind

theorem SameCounts.drop (h : SameCounts d s) (hpos : 0 < d.numBlocks) (old : ℕ) :
    SameCounts (countDrop d old) (countDrop s (headerSize + old)) := by
  have hused := h.usedBytes
  obtain ⟨hnum, hput, hget, hevict, hhits, hmisses, -⟩ := h
  refine ⟨by simp [countDrop, hnum], hput, hget, by simp [countDrop, hevict], hhits, hmisses, ?_⟩
  obtain ⟨n, hn⟩ : ∃ n, d.numBlocks = n + 1 := ⟨d.numBlocks - 1, by omega⟩
  simp only [countDrop, hused, hn, headerSize, UInt64.ofNat_add, Nat.add_sub_cancel]
  grind

theorem SameCounts.get (h : SameCounts d s) (code : StatusCode) :
    SameCounts (countGet d code) (countGet s code) := by
  obtain ⟨hnum, hput, hget, hevict, hhits, hmisses, hused⟩ := h
  cases code <;> exact ⟨hnum, hput, by simp [countGet, hget], hevict, by simp [countGet, hhits],
    by simp [countGet, hmisses], hused⟩

end Counters

namespace DramTier

variable {t : DramTier}

/-- A `Put` that does not run out of memory counts what it wrote. -/
theorem put_stats (hcalm : t.Calm) (key : BlockKey) (b : Block) : (t.put key b).2.stats =
    countWrite t.stats ((t.at? key).map (·.block.sizeBytes)) b.sizeBytes := by
  have hcopy : t.allocs.head = true := hcalm 0
  have hnode : t.drawn.allocs.head = true := hcalm 1
  have hsame : t.drawn.at? key = t.at? key := rfl
  simp only [put, hcopy, hnode, hsame, Bool.not_true, Bool.false_eq_true, if_false]
  cases hat : t.at? key with
  | some old =>
    have hstats : (t.drawn.replaceEntry key old b).stats = { t.stats with
        usedBytes := (t.drawn.replaceEntry key old b).stats.usedBytes
        putCount := t.stats.putCount + 1 } := rfl
    rw [hstats, usedBytes_replaceEntry]
    rfl
  | none => rfl

theorem get_stats (t : DramTier) (key : BlockKey) (dst : MutableBuffer) (out : Option BlockView) :
    (t.get key dst out).2.2.stats = countGet t.stats (Result.code (t.get key dst out).1) := by
  simp only [get]
  cases hargs : checkGetArgs "DramTier" dst out with
  | error st => simp [Result.code, (checkGetArgs_error hargs).1, countGet]
  | ok _ =>
    cases hat : t.at? key with
    | none => rfl
    | some e =>
      by_cases hfit : dst.capacity < e.block.sizeBytes
      · simp only [hfit, if_true]; rfl
      · simp only [hfit, if_false]; rfl

end DramTier

/-! ### One call -/

/-- The two tiers hold the same blocks, count them alike and will not fail. -/
structure Alike (d : DramTier) (s : SsdTier) : Prop where
  blocks : ∀ key, (s.contents key).map (·.block) = (d.at? key).map (·.block)
  counts : SameCounts d.stats s.stats
  accounted : d.Accounted
  dramCalm : d.Calm
  opened : s.opened = true
  readable : SsdTier.Readable s.db
  reliable : s.db.Reliable
  calm : s.Calm

section Steps

open SsdTier

variable {d d' : DramTier} {s s' : SsdTier}

/-- A key is absent from both, or both hold the same block under it. -/
theorem Alike.cases (h : Alike d s) (key : BlockKey) :
    (d.at? key = none ∧ s.db.at? key.toBytes = none ∧ s.contents key = none) ∨
    ∃ e, d.at? key = some e ∧ s.db.at? key.toBytes = some (serializeBlock e.block) ∧
      s.contents key = some (entryOf key e.block) := by
  have hblocks := h.blocks key
  rcases h.readable.cases key with ⟨hat, hnone⟩ | ⟨b, hat, -, hsome⟩
  · rw [hnone] at hblocks
    exact .inl ⟨Option.map_eq_none_iff.mp hblocks.symm, hat, hnone⟩
  · rw [hsome] at hblocks
    obtain ⟨e, he, heb⟩ := Option.map_eq_some_iff.mp hblocks.symm
    obtain rfl : e.block = b := heb
    exact .inr ⟨e, he, hat, hsome⟩

theorem countPut_eq (stats : TierStats) (existing : Option Bytes) (blob : Bytes) :
    countPut stats existing blob = countWrite stats (existing.map List.length) blob.length := by
  cases existing <;> rfl

/-- The blob that `Put` reads for its size is the block with a header. -/
theorem Alike.sizes (h : Alike d s) (key : BlockKey) : (s.db.at? key.toBytes).map List.length =
    ((d.at? key).map (·.block.sizeBytes)).map (headerSize + ·) := by
  rcases h.cases key with ⟨hd, hs, -⟩ | ⟨e, hd, hs, -⟩
  · simp only [hd, hs, Option.map_none]
  · simp only [hd, hs, Option.map_some, length_serializeBlock]

theorem Alike.put (h : Alike d s) {key : BlockKey} {b : Block} (hm : Matches key b.metadata) :
    Result.code (d.put key b).1 = .ok ∧ Result.code (s.put key b).1 = .ok ∧
      Alike (d.put key b).2 (s.put key b).2 := by
  have hdstats := DramTier.put_stats h.dramCalm key b
  rcases d.put_cases key b with ⟨-, -, -, -, hno⟩ | ⟨d', hd, hat, -, hcalm, hacc, -⟩
  · exact absurd h.dramCalm hno
  rcases SsdTier.put_cases h.opened key b with ⟨-, -, -, -, -, hno⟩ | ⟨s', hs, hsteady, -, hrec, hstats⟩
  · exact absurd ⟨h.reliable, h.calm, hm⟩ hno
  rw [hd] at hdstats ⊢
  rw [hs]
  refine ⟨rfl, rfl, ?_, ?_, hacc h.accounted, hcalm h.dramCalm, hsteady.opened.trans h.opened,
    h.readable.insert hm hrec, hsteady.reliable h.reliable, hsteady.calm h.calm⟩
  · intro j
    simp only [hat, contents_insert hrec, Function.update_apply]
    split
    · simp only [entryOf, Option.map_some]
    · exact h.blocks j
  · rw [hdstats, hstats, countPut_eq, h.sizes key, length_serializeBlock]
    exact h.counts.write _ _

theorem Alike.get (h : Alike d s) (key : BlockKey) (dst : MutableBuffer) (out : Option BlockView) :
    Result.code (d.get key dst out).1 = Result.code (s.get key dst out).1 ∧
      (d.get key dst out).2.1 = (s.get key dst out).2.1 ∧
      Alike (d.get key dst out).2.2 (s.get key dst out).2.2 := by
  have hdstats := d.get_stats key dst out
  obtain ⟨r, view, d', hd, hsame, hanswer⟩ := d.get_spec key dst out
  obtain ⟨r', view', s', hs, hsteady, hrec, hstats, hanswer'⟩ :=
    SsdTier.get_spec h.opened h.readable key dst out
  have hboth : (Result.code r', view') = (Result.code r, view) := by
    rcases hanswer' with hanswer' | ⟨-, -, -, -, hno⟩
    · rw [hanswer', hanswer, h.blocks key]
    · exact absurd h.reliable hno
  obtain ⟨hcode, hview⟩ := Prod.mk.inj hboth
  rw [hd] at hdstats ⊢
  rw [hs]
  refine ⟨hcode.symm, hview.symm, fun j => ?_, ?_, hsame.accounted h.accounted, hsame.calm h.dramCalm,
    hsteady.opened.trans h.opened, h.readable.of_records hrec, hsteady.reliable h.reliable,
    hsteady.calm h.calm⟩
  · rw [contents_of_records hrec, h.blocks j, hsame.at? j]
  · rw [hdstats, hstats, hcode]
    exact h.counts.get _

theorem Alike.undisturbed (h : Alike d s) (hsame : Undisturbed s s') : Alike d s' where
  blocks key := by rw [contents_of_records hsame.records]; exact h.blocks key
  counts := by rw [hsame.stats]; exact h.counts
  accounted := h.accounted
  dramCalm := h.dramCalm
  opened := hsame.opened.trans h.opened
  readable := h.readable.of_records hsame.records
  reliable := hsame.reliable h.reliable
  calm := hsame.calm h.calm

theorem Alike.probe (h : Alike d s) (key : BlockKey) :
    (TierReply.info (d.probe key)).seen = (TierReply.info (s.probe key).1).seen ∧
      Alike d (s.probe key).2 := by
  obtain ⟨r, hs, hanswer⟩ := SsdTier.probe_spec h.opened h.readable key
  rw [hs]
  refine ⟨?_, h.undisturbed s.undisturbed_drawn⟩
  rcases hanswer with hanswer | ⟨-, -, -, hno⟩
  · rcases h.cases key with ⟨hd, -, hc⟩ | ⟨e, hd, -, hc⟩
    · simp only [hc] at hanswer
      simp only [DramTier.probe, hd, hanswer]
    · simp only [hc] at hanswer
      have hdram : d.probe key = .ok e.info := by simp only [DramTier.probe, hd]
      -- the two descriptions differ in the handle only, which is not looked at
      rw [hdram, hanswer, TierReply.seen_info_ok, TierReply.seen_info_ok, entryOf_metadata,
        entryOf_payloadSize]
      rfl
  · exact absurd h.reliable hno

theorem Alike.evict (h : Alike d s) (key : BlockKey) :
    Result.code (d.evict key).1 = Result.code (s.evict key).1 ∧ Alike (d.evict key).2 (s.evict key).2 := by
  rcases h.cases key with ⟨hd, hat, -⟩ | ⟨e, hd, hat, -⟩
  · have hdram : d.evict key = (.error (.notFound key.toText), d) := by simp only [DramTier.evict, hd]
    rcases evict_cases h.opened key with ⟨st, s', hs, hsame, hwhy⟩ | ⟨v, s', -, hat', -⟩
    · obtain rfl : st = .notFound key.toText := hwhy.elim And.right fun hno => absurd h.reliable hno
      rw [hs, hdram]
      exact ⟨rfl, h.undisturbed hsame⟩
    · rw [hat] at hat'; cases hat'
  · have hdram : d.evict key = (.ok (), d.eraseEntry key e) := by simp only [DramTier.evict, hd]
    rcases evict_cases h.opened key with ⟨st, s', hs, hsame, hwhy⟩ | ⟨v, s', hs, hat', hsteady, hrec, hstats⟩
    · rcases hwhy with ⟨hnone, -⟩ | hno
      · rw [hat] at hnone; cases hnone
      · exact absurd h.reliable hno
    · obtain rfl : serializeBlock e.block = v := Option.some.inj (hat.symm.trans hat')
      rw [hs, hdram]
      refine ⟨rfl, fun j => ?_, ?_, DramTier.accounted_eraseEntry hd h.accounted, h.dramCalm,
        hsteady.opened.trans h.opened, h.readable.erase hrec, hsteady.reliable h.reliable,
        hsteady.calm h.calm⟩
      · simp only [DramTier.at?_eraseEntry, contents_erase hrec, Function.update_apply]
        split
        · rfl
        · exact h.blocks j
      · have hpos := DramTier.numBlocks_eraseEntry hd h.accounted
        have hdrop := h.counts.drop (by omega) e.block.sizeBytes
        rw [← length_serializeBlock] at hdrop
        rw [hstats]
        exact hdrop

theorem DramTier.get_cleared (d : DramTier) (key : BlockKey) (dst : MutableBuffer)
    (out : Option BlockView) : (TierReply.view (d.get key dst out).1 (d.get key dst out).2.1).Cleared := by
  obtain ⟨r, out', d', hd, -, hanswer⟩ := d.get_spec key dst out
  obtain ⟨hcode, hview⟩ := Prod.ext_iff.mp hanswer
  rw [hd]
  intro hfail view hout
  have hclear := getContract_cleared fun hok => hfail (hcode.trans hok)
  have hcleared : clearView out = some view := (hview.trans hclear).symm.trans hout
  cases out with
  | none => cases hcleared
  | some _ => exact (Option.some.inj hcleared).symm

/-- STEP: related tiers answer a call alike and stay related. -/
theorem tierStep_alike (d : DramTier) (s : SsdTier) (c : TierCall) (hc : c.Fits) (h : Alike d s) :
    ∃ o d' o' s', tierStep d c = .ok (o, d') ∧ tierStep s c = .ok (o', s') ∧ o.seen = o'.seen ∧
      o.Cleared ∧ Alike d' s' := by
  cases c with
  | openTier => exact hc.elim
  | closeTier => exact hc.elim
  | probe key =>
    obtain ⟨hseen, halike⟩ := h.probe key
    exact ⟨_, _, _, _, rfl, rfl, hseen, trivial, halike⟩
  | put key b =>
    obtain ⟨hd, hs, halike⟩ := h.put hc
    exact ⟨_, _, _, _, rfl, rfl, congrArg (·, none, none) (hd.trans hs.symm), trivial, halike⟩
  | get key dst out =>
    obtain ⟨hcode, hview, halike⟩ := h.get key dst out
    exact ⟨_, _, _, _, rfl, rfl, congrArg₂ (·, none, ·) hcode hview, d.get_cleared key dst out, halike⟩
  | evict key =>
    obtain ⟨hcode, halike⟩ := h.evict key
    exact ⟨_, _, _, _, rfl, rfl, congrArg (·, none, none) hcode, trivial, halike⟩

/-- Both tiers start empty. -/
theorem alike_start (cap : UInt64) : Alike (DramTier.make cap) (SsdTier.fresh {}).openTier.2 where
  blocks _ := rfl
  counts := ⟨rfl, rfl, rfl, rfl, rfl, rfl, rfl⟩
  accounted := DramTier.accounted_make cap _
  dramCalm _ := rfl
  opened := rfl
  readable := by intro k v hv; cases hv
  reliable _ := rfl
  calm _ := rfl

end Steps

/-- A block of two bytes, replaced by an empty one that a null buffer of no room can take. -/
def overwriteCalls : List TierCall :=
  [.put ⟨1, 4, 7⟩ ⟨{ numTokens := 4, modelFingerprint := 7 }, [1, 2], by simp [UInt64.size]⟩,
    .get ⟨1, 4, 7⟩ ⟨true, 1⟩ (some {}),
    .put ⟨1, 4, 7⟩ ⟨{ modelFingerprint := 7 }, [], Payload.nil_lt⟩,
    .get ⟨1, 4, 7⟩ ⟨false, 0⟩ (some {}), .evict ⟨1, 4, 7⟩]

/-- INTERCHANGEABLE: over every sequence of calls whose blocks fit their keys, the memory tier and the
    disk tier return the same codes, descriptions and views, and end with the same counters; the disk
    uses a header more for each block. -/
theorem tiers_interchangeable (cap : UInt64) (calls : List TierCall) (hcalls : ∀ c ∈ calls, c.Fits) :
    ∃ ds d ss s, run tierStep (DramTier.make cap) calls = .ok (ds, d) ∧
      run tierStep (SsdTier.fresh {}).openTier.2 calls = .ok (ss, s) ∧
      ds.map TierReply.seen = ss.map TierReply.seen ∧ (∀ o ∈ ds, o.Cleared) ∧
      s.stats.numBlocks = d.stats.numBlocks ∧ s.stats.putCount = d.stats.putCount ∧
      s.stats.getCount = d.stats.getCount ∧ s.stats.evictCount = d.stats.evictCount ∧
      s.stats.hits = d.stats.hits ∧ s.stats.misses = d.stats.misses ∧
      s.stats.usedBytes = d.stats.usedBytes + 36 * UInt64.ofNat d.stats.numBlocks := by
  obtain ⟨ds, d, ss, s, hd, hs, hseen, hclear, halike⟩ := run_related Alike TierReply.seen TierReply.seen
    TierReply.Cleared tierStep_alike hcalls (alike_start cap)
  obtain ⟨hnum, hput, hget, hevict, hhits, hmisses, hused⟩ := halike.counts
  exact ⟨ds, d, ss, s, hd, hs, hseen, hclear, hnum, hput, hget, hevict, hhits, hmisses, hused⟩

/-- An overwrite, a read into a short buffer and one that fits, and an eviction. -/
theorem tiers_interchangeable_overwrite :
    ∃ ds d ss s, run tierStep (DramTier.make 64) overwriteCalls = .ok (ds, d) ∧
      run tierStep (SsdTier.fresh {}).openTier.2 overwriteCalls = .ok (ss, s) ∧
      ds.map TierReply.seen = ss.map TierReply.seen := by
  obtain ⟨ds, d, ss, s, hd, hs, hseen, -⟩ := tiers_interchangeable 64 overwriteCalls (by
    simp [overwriteCalls, TierCall.Fits, SsdTier.Matches])
  exact ⟨ds, d, ss, s, hd, hs, hseen⟩

end TidePool.Store
