import Mathlib.Data.List.Sort
import Mathlib.Data.Stream.Defs
import TidePool.Api.Types
import TidePool.Schemes.Table

/-! LevelDB as its users see it: a map from byte strings to byte strings, in key order, on a disk that
    may fail.

    A call that fails has no effect. Which calls fail is drawn from streams, one entry for each
    `DB::Open`, each iteration and each `Get`, `Put` or `Delete`; an iteration may also break off after
    some of the records. `std::bad_alloc` out of a call counts as a failure of its own kind, since the
    callers tell the two apart. -/

namespace TidePool.Store
open Schemes

/-- How a LevelDB call fails: with a status (its text), or by running out of memory. -/
inductive Fault where
  | failed (text : String)
  | badAlloc
  deriving DecidableEq, Repr

/-- An iteration that breaks off: after how many records, and why. -/
structure Break where
  after : ℕ
  fault : Fault
  deriving DecidableEq, Repr

/-- `BytewiseComparator`. -/
def bytewiseLe : Bytes → Bytes → Bool
  | [], _ => true
  | _ :: _, [] => false
  | a :: as, b :: bs => a < b || (a == b && bytewiseLe as bs)

structure LevelDb where
  records : Table Bytes Bytes := ∅
  opens : Stream' (Option String) := Stream'.const none
  calls : Stream' (Option Fault) := Stream'.const none
  sweeps : Stream' (Option Break) := Stream'.const none
  visits : Stream' (Option Break) := Stream'.const none

namespace LevelDb

/-- What a key holds. -/
def at? (db : LevelDb) (key : Bytes) : Option Bytes := AList.lookup key db.records

/-- The records in key order. -/
def entries (db : LevelDb) : List (Bytes × Bytes) :=
  (Table.pairs db.records).insertionSort fun a b => bytewiseLe a.1 b.1 = true

/-- Bytes of all values. -/
def totalBytes (db : LevelDb) : ℕ := Table.weight (fun _ v => v.length) db.records

/-- The next `Get`, `Put` or `Delete` has happened. -/
def drawn (db : LevelDb) : LevelDb := { db with calls := db.calls.tail }

/-- `DB::Open`: the error text, if any. An opened database has its next iterations ahead. -/
def openDb (db : LevelDb) : Option String × LevelDb :=
  (db.opens.head, { db with opens := db.opens.tail, visits := db.visits.tail })

/-- `DB::Get`. -/
def get (db : LevelDb) (key : Bytes) : Except Fault (Option Bytes) × LevelDb :=
  match db.calls.head with
  | some f => (.error f, db.drawn)
  | none => (.ok (db.at? key), db.drawn)

/-- `DB::Put`. -/
def put (db : LevelDb) (key value : Bytes) : Except Fault Unit × LevelDb :=
  match db.calls.head with
  | some f => (.error f, db.drawn)
  | none => (.ok (), { db.drawn with records := AList.insert key value db.records })

/-- `DB::Delete`. -/
def delete (db : LevelDb) (key : Bytes) : Except Fault Unit × LevelDb :=
  match db.calls.head with
  | some f => (.error f, db.drawn)
  | none => (.ok (), { db.drawn with records := AList.erase key db.records })

/-- The records an iteration reaches, and the fault it ends with, if any. -/
def reached (db : LevelDb) : Option Break → List (Bytes × Bytes) × Option Fault
  | none => (db.entries, none)
  | some b => (db.entries.take b.after, some b.fault)

/-- An iteration by the opener. -/
def sweep (db : LevelDb) : (List (Bytes × Bytes) × Option Fault) × LevelDb :=
  (db.reached db.sweeps.head, { db with sweeps := db.sweeps.tail })

/-- An iteration that leaves the database object as it is. -/
def visit (db : LevelDb) : List (Bytes × Bytes) × Option Fault := db.reached db.visits.head

/-- No `Get`, `Put` or `Delete` will fail. -/
def Reliable (db : LevelDb) : Prop := ∀ i, db.calls.get i = none

/-- No `DB::Open` and no iteration will fail. -/
def Opens (db : LevelDb) : Prop :=
  (∀ i, db.opens.get i = none) ∧ (∀ i, db.sweeps.get i = none) ∧ ∀ i, db.visits.get i = none

theorem Reliable.drawn {db : LevelDb} (h : db.Reliable) : db.drawn.Reliable := fun i => h (i + 1)

/-- Opening and sweeping only draw from the streams. -/
theorem Opens.openDb {db : LevelDb} (h : db.Opens) : db.openDb.2.Opens :=
  ⟨fun i => h.1 (i + 1), h.2.1, fun i => h.2.2 (i + 1)⟩

theorem Opens.sweep {db : LevelDb} (h : db.Opens) : db.sweep.2.Opens := ⟨h.1, fun i => h.2.1 (i + 1), h.2.2⟩

theorem not_reliable {db : LevelDb} {f : Fault} (h : db.calls.head = some f) : ¬ db.Reliable := by
  intro hr
  have hnone : db.calls.head = none := hr 0
  rw [h] at hnone
  cases hnone

theorem get_cases (db : LevelDb) (key : Bytes) :
    (∃ f, db.get key = (.error f, db.drawn) ∧ ¬ db.Reliable) ∨
      db.get key = (.ok (db.at? key), db.drawn) := by
  simp only [get]
  cases h : db.calls.head with
  | some f => exact .inl ⟨f, rfl, not_reliable h⟩
  | none => exact .inr rfl

theorem put_cases (db : LevelDb) (key value : Bytes) :
    (∃ f, db.put key value = (.error f, db.drawn) ∧ ¬ db.Reliable) ∨
      db.put key value = (.ok (), { db.drawn with records := AList.insert key value db.records }) := by
  simp only [put]
  cases h : db.calls.head with
  | some f => exact .inl ⟨f, rfl, not_reliable h⟩
  | none => exact .inr rfl

theorem delete_cases (db : LevelDb) (key : Bytes) :
    (∃ f, db.delete key = (.error f, db.drawn) ∧ ¬ db.Reliable) ∨
      db.delete key = (.ok (), { db.drawn with records := AList.erase key db.records }) := by
  simp only [delete]
  cases h : db.calls.head with
  | some f => exact .inl ⟨f, rfl, not_reliable h⟩
  | none => exact .inr rfl

theorem entries_perm (db : LevelDb) : db.entries.Perm (Table.pairs db.records) :=
  List.perm_insertionSort _ _

theorem mem_entries {db : LevelDb} {k v : Bytes} : (k, v) ∈ db.entries ↔ db.at? k = some v := by
  rw [db.entries_perm.mem_iff, Table.mem_pairs]; rfl

theorem entries_nodup (db : LevelDb) : (db.entries.map Prod.fst).Nodup :=
  (db.entries_perm.map Prod.fst).nodup_iff.mpr (Table.pairs_nodup _)

theorem length_entries (db : LevelDb) : db.entries.length = Table.size db.records :=
  db.entries_perm.length_eq

theorem load_entries (db : LevelDb) : Table.load (fun _ v => v.length) db.entries = db.totalBytes :=
  Table.load_perm _ db.entries_perm

end LevelDb

end TidePool.Store
