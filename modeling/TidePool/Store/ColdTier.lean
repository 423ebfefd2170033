import Mathlib.Data.Set.Basic
import TidePool.Schemes.Table
import TidePool.Store.Tier

/-! The tier a node demotes into.

    `ColdTier` says what a storage node relies on: an open cold tier is a map from keys to entries. A
    `Put` sets one entry or fails and sets none; a read reports what is there or fails; nothing else
    changes the map, opening and closing included. `MapTier` is the plain such tier (a map in memory whose
    calls fail when its streams say so); the SSD tier over LevelDB is the other one. -/

namespace TidePool.Store
open Schemes

/-- The observations the laws speak of. -/
class ColdView (σ : Type) where
  /-- Every record is readable. -/
  Intact : σ → Prop
  /-- Open, and every record is readable. -/
  Wf : σ → Prop
  contents : σ → BlockKey → Option Entry
  /-- No read will fail. -/
  Exact : σ → Prop
  /-- A `Put` of this block under this key will succeed. -/
  Accepts : σ → BlockKey → Block → Prop
  /-- No `Open`, `Close` or enumeration will fail, unless over the records themselves. -/
  Opens : σ → Prop
  /-- What a failing call may report. -/
  faults : σ → Set Status
  /-- What a failing `Open`, `Close` or enumeration may report. -/
  openFaults : σ → Set Status

open ColdView

/-- Whatever held of all future calls still does. -/
structure ColdPromises {σ : Type} [ColdView σ] (s s' : σ) : Prop where
  exact : Exact s → Exact s'
  accepts : ∀ k b, Accepts s k b → Accepts s' k b
  opens : Opens s → Opens s'
  faults : faults s' ⊆ faults s
  openFaults : openFaults s' ⊆ openFaults s

/-- A call on an open tier: it is still open and nothing the laws speak of got worse. -/
structure ColdKept {σ : Type} [ColdView σ] (s s' : σ) : Prop extends ColdPromises s s' where
  wf : Wf s'

/-- Opened or closed: the records are the same. -/
structure ColdRested {σ : Type} [ColdView σ] (s s' : σ) : Prop extends ColdPromises s s' where
  intact : Intact s'
  contents : contents s' = contents s

class ColdTier (σ : Type) extends Tier σ, ColdView σ where
  type_ssd : ∀ s : σ, type s = .ssd
  wf_intact : ∀ s : σ, Wf s → Intact s
  open_law : ∀ s : σ, Intact s → ∃ r s', openTier s = (r, s') ∧ ColdRested s s' ∧
    match r with
    | .ok () => Wf s' ∧ isReady s' = true
    | .error st => st ∈ openFaults s ∧ (Opens s → st.code = .corruption)
  close_law : ∀ s : σ, Intact s → ∃ r s', closeTier s = (r, s') ∧ ColdRested s s' ∧
    ∀ st, r = .error st → st ∈ openFaults s ∧ ¬ Opens s
  put_law : ∀ (s : σ) (k : BlockKey) (b : Block), Wf s → ∃ r s', put s k b = (r, s') ∧ ColdKept s s' ∧
    match r with
    | .ok h => contents s' = Function.update (contents s) k (some ⟨b, h⟩)
    | .error st => contents s' = contents s ∧ st ∈ faults s ∧ ¬ Accepts s k b
  get_law : ∀ (s : σ) (k : BlockKey) (dst : MutableBuffer) (out : Option BlockView), Wf s →
    ∃ r out' s', get s k dst out = (r, out', s') ∧ ColdKept s s' ∧ contents s' = contents s ∧
      ((Result.code r, out') = getContract ((contents s k).map (·.block)) dst out ∨
        ∃ st ∈ faults s, r = .error st ∧ out' = clearView out ∧ ¬ Exact s)
  probe_law : ∀ (s : σ) (k : BlockKey), Wf s →
    ∃ r s', probe s k = (r, s') ∧ ColdKept s s' ∧ contents s' = contents s ∧
      ((match contents s k with
        | some e => r = .ok e.info
        | none => r = .error (.notFound k.toText)) ∨
        ∃ st ∈ faults s, r = .error st ∧ ¬ Exact s)
  visit_law : ∀ (s : σ) (alloc : Bool), Wf s →
    (∃ es, visitEntries s alloc = (es, .ok ()) ∧ (es.map Prod.fst).Nodup ∧
      ∀ k i, (k, i) ∈ es ↔ ∃ e, contents s k = some e ∧ i = e.info) ∨
    ∃ st, visitEntries s alloc = ([], .error st) ∧ (st.code = .outOfCapacity ∨ st ∈ openFaults s) ∧
      ¬ (Opens s ∧ alloc = true)

section Kept

variable {σ : Type} [ColdView σ] {s t u : σ}

theorem ColdPromises.refl (s : σ) : ColdPromises s s := ⟨id, fun _ _ => id, id, subset_rfl, subset_rfl⟩

theorem ColdPromises.trans (h : ColdPromises s t) (h' : ColdPromises t u) : ColdPromises s u :=
  ⟨h'.exact ∘ h.exact, fun k b hb => h'.accepts k b (h.accepts k b hb), h'.opens ∘ h.opens,
    h'.faults.trans h.faults, h'.openFaults.trans h.openFaults⟩

theorem ColdKept.refl (h : Wf s) : ColdKept s s := ⟨.refl s, h⟩

theorem ColdKept.trans (h : ColdKept s t) (h' : ColdKept t u) : ColdKept s u :=
  ⟨h.toColdPromises.trans h'.toColdPromises, h'.wf⟩

theorem ColdRested.refl (h : Intact s) : ColdRested s s := ⟨.refl s, h, rfl⟩

theorem ColdRested.trans (h : ColdRested s t) (h' : ColdRested t u) : ColdRested s u :=
  ⟨h.toColdPromises.trans h'.toColdPromises, h'.intact, h'.contents.trans h.contents⟩

end Kept

/-! ### A map with scripted failures -/

/-- A persistent tier as a map in memory: the `n`-th `Put` gets the `n`-th handle or failure, the
    `n`-th `Get` the `n`-th failure, if any. -/
structure MapTier where
  records : Table BlockKey Entry := ∅
  puts : Stream' (Except Status UInt64) := Stream'.const (.ok 0)
  getFaults : Stream' (Option Status) := Stream'.const none
  stats : TierStats := {}

namespace MapTier

def at? (s : MapTier) (key : BlockKey) : Option Entry := AList.lookup key s.records

def probe (s : MapTier) (key : BlockKey) : Result BlockInfo :=
  match s.at? key with
  | none => .error (.notFound key.toText)
  | some e => .ok e.info

def put (s : MapTier) (key : BlockKey) (block : Block) : Result UInt64 × MapTier :=
  match s.puts.head with
  | .error st => (.error st, { s with puts := s.puts.tail })
  | .ok handle => (.ok handle, { s with
      records := AList.insert key ⟨block, handle⟩ s.records
      puts := s.puts.tail
      stats := { s.stats with putCount := s.stats.putCount + 1 } })

def get (s : MapTier) (key : BlockKey) (dst : MutableBuffer) (out : Option BlockView) :
    Result Unit × Option BlockView × MapTier :=
  match checkGetArgs "MapTier" dst out with
  | .error st => (.error st, clearView out, s)
  | .ok () =>
    let s' := { s with getFaults := s.getFaults.tail }
    match s.getFaults.head with
    | some st => (.error st, clearView out, s')
    | none =>
      match s.at? key with
      | none => (.error (.notFound key.toText), clearView out, s')
      | some e =>
        if dst.capacity < e.block.sizeBytes then
          (.error (.outOfCapacity "MapTier::Get: dst buffer too small"), clearView out, s')
        else (.ok (), some (viewOf dst e.block), s')

def evict (s : MapTier) (key : BlockKey) : Result Unit × MapTier :=
  match s.at? key with
  | none => (.error (.notFound key.toText), s)
  | some _ => (.ok (), { s with
      records := AList.erase key s.records
      stats := { s.stats with evictCount := s.stats.evictCount + 1 } })

instance : Tier MapTier where
  type _ := .ssd
  openTier s := (.ok (), s)
  closeTier s := (.ok (), s)
  isReady _ := true
  probe s key := (s.probe key, s)
  put := put
  get := get
  evict := evict
  validateEraseExisting _ _ := .error (.notImplemented "MapTier is not a volatile commit tier")
  eraseExisting _ _ := .error .terminate
  visitEntries s _ := ((Table.pairs s.records).map fun (k, e) => (k, e.info), .ok ())
  stats := stats

instance : ColdView MapTier where
  Intact _ := True
  Wf _ := True
  contents := at?
  Exact s := ∀ i, s.getFaults.get i = none
  Accepts s _ _ := ∀ i, ∃ h, s.puts.get i = .ok h
  Opens _ := True
  faults s := { st | (∃ i, s.puts.get i = .error st) ∨ ∃ i, s.getFaults.get i = some st }
  openFaults _ := ∅

/-- Drawing from the streams keeps what they promise. -/
theorem kept_of_streams {s s' : MapTier} (hp : s'.puts = s.puts ∨ s'.puts = s.puts.tail)
    (hg : s'.getFaults = s.getFaults ∨ s'.getFaults = s.getFaults.tail) : ColdKept s s' where
  wf := trivial
  opens := id
  openFaults := subset_rfl
  exact h i := by
    rcases hg with hg | hg <;> rw [hg]
    · exact h i
    · exact h (i + 1)
  accepts _ _ h i := by
    rcases hp with hp | hp <;> rw [hp]
    · exact h i
    · exact h (i + 1)
  faults := by
    rintro st (⟨i, hi⟩ | ⟨i, hi⟩)
    · rcases hp with hp | hp <;> rw [hp] at hi
      · exact .inl ⟨i, hi⟩
      · exact .inl ⟨i + 1, hi⟩
    · rcases hg with hg | hg <;> rw [hg] at hi
      · exact .inr ⟨i, hi⟩
      · exact .inr ⟨i + 1, hi⟩

theorem at?_insert (s : MapTier) (k : BlockKey) (e : Entry) :
    (fun j => AList.lookup j (AList.insert k e s.records)) = Function.update s.at? k (some e) := by
  funext j
  simp only [Table.lookup_insert_if, Function.update_apply]
  rfl

/-- What an enumeration of the records lists. -/
theorem mem_infos {t : Table BlockKey Entry} {k : BlockKey} {i : BlockInfo} :
    (k, i) ∈ (Table.pairs t).map (fun x => (x.1, x.2.info)) ↔
      ∃ e, AList.lookup k t = some e ∧ i = e.info := by
  simp only [List.mem_map, Prod.mk.injEq, Prod.exists, Table.mem_pairs]
  constructor
  · rintro ⟨k', e, he, rfl, rfl⟩; exact ⟨e, he, rfl⟩
  · rintro ⟨e, he, rfl⟩; exact ⟨k, e, he, rfl, rfl⟩

instance : ColdTier MapTier where
  type_ssd _ := rfl
  wf_intact _ _ := trivial
  open_law s _ := ⟨.ok (), s, rfl, .refl trivial, trivial, rfl⟩
  close_law s _ := ⟨.ok (), s, rfl, .refl trivial, by simp⟩
  put_law s k b _ := by
    show ∃ r s', s.put k b = (r, s') ∧ _
    simp only [put]
    cases hp : s.puts.head with
    | error st =>
      refine ⟨.error st, _, rfl, kept_of_streams (.inr rfl) (.inl rfl), rfl, .inl ⟨0, hp⟩, fun ha => ?_⟩
      obtain ⟨h, hok⟩ := ha 0
      have hhead : s.puts.head = .ok h := hok
      rw [hp] at hhead; cases hhead
    | ok h => exact ⟨.ok h, _, rfl, kept_of_streams (.inr rfl) (.inl rfl), s.at?_insert k ⟨b, h⟩⟩
  get_law s k dst out _ := by
    show ∃ r out' s', s.get k dst out = (r, out', s') ∧ _
    simp only [get]
    cases hargs : checkGetArgs "MapTier" dst out with
    | error st =>
      obtain ⟨hcode, hbad⟩ := checkGetArgs_error hargs
      exact ⟨.error st, _, _, rfl, .refl trivial, rfl,
        .inl (by rw [getContract_bad hbad]; simp [Result.code, hcode])⟩
    | ok _ =>
      have hkept : ColdKept s { s with getFaults := s.getFaults.tail } :=
        kept_of_streams (.inl rfl) (.inr rfl)
      rw [getContract_good (checkGetArgs_ok_iff.mp hargs)]
      cases hf : s.getFaults.head with
      | some st =>
        refine ⟨_, _, _, rfl, hkept, rfl, .inr ⟨st, .inr ⟨0, hf⟩, rfl, rfl, fun he => ?_⟩⟩
        have hnone : s.getFaults.head = none := he 0
        rw [hf] at hnone; cases hnone
      | none =>
        rw [show contents s k = s.at? k from rfl]
        cases hk : s.at? k with
        | none => exact ⟨_, _, _, rfl, hkept, rfl, .inl rfl⟩
        | some e =>
          by_cases hfit : dst.capacity < e.block.sizeBytes
          · simp only [hfit, if_true, Option.map_some]
            exact ⟨_, _, _, rfl, hkept, rfl, .inl rfl⟩
          · simp only [hfit, if_false, Option.map_some]
            exact ⟨_, _, _, rfl, hkept, rfl, .inl rfl⟩
  probe_law s k _ := by
    refine ⟨s.probe k, s, rfl, .refl trivial, rfl, .inl ?_⟩
    show match s.at? k with
      | some e => s.probe k = .ok e.info
      | none => s.probe k = .error (.notFound k.toText)
    cases hk : s.at? k <;> simp [probe, hk]
  visit_law s alloc _ := by
    refine .inl ⟨_, rfl, ?_, fun k i => mem_infos⟩
    simpa [Function.comp_def] using Table.pairs_nodup s.records

end MapTier

end TidePool.Store
