import Mathlib.Algebra.Ring.Int.Defs

/-! Time in signed 64-bit words, as `<chrono>` counts it.

    A duration counts periods, a period being a whole number of ticks; a time point is the duration since
    an epoch. Every operation is the exact one on ℤ followed by `checked`, and `none` stands for signed
    overflow, which the language leaves undefined. So a computation that yields `some` has overflowed
    nowhere, and what it yields is exact.

        period   p           k * p
                 | -- cast -> |      toward zero: `Duration.cast_coarser`
                 | <- cast -- |      exact, where it fits: `Duration.cast_finer` -/

namespace TidePool.Schemes.Chrono

/-- In the range of a signed 64-bit word. -/
def Fits (z : ℤ) : Prop := -2 ^ 63 ≤ z ∧ z < 2 ^ 63

instance (z : ℤ) : Decidable (Fits z) := inferInstanceAs (Decidable (_ ∧ _))

/-- The word of an exact result; `none` where signed arithmetic overflows. -/
def checked (z : ℤ) : Option Int64 := if Fits z then some (Int64.ofInt z) else none

theorem fits_toInt (x : Int64) : Fits x.toInt := ⟨x.le_toInt, x.toInt_lt⟩

/-- What fits does not overflow, and is exact. -/
theorem checked_of_fits {z : ℤ} (h : Fits z) : ∃ x, checked z = some x ∧ x.toInt = z :=
  ⟨Int64.ofInt z, if_pos h, Int64.toInt_ofInt_of_le h.1 h.2⟩

/-- `duration<int64_t, Period>`: so many periods of `period` ticks. -/
structure Duration (period : ℕ) where
  count : Int64
  deriving DecidableEq

namespace Duration

variable {p q : ℕ}

instance : LE (Duration p) := ⟨fun a b => a.count ≤ b.count⟩

instance : LT (Duration p) := ⟨fun a b => a.count < b.count⟩

instance (a b : Duration p) : Decidable (a ≤ b) := inferInstanceAs (Decidable (a.count ≤ b.count))

instance (a b : Duration p) : Decidable (a < b) := inferInstanceAs (Decidable (a.count < b.count))

def add (a b : Duration p) : Option (Duration p) := (checked (a.count.toInt + b.count.toInt)).map mk

def sub (a b : Duration p) : Option (Duration p) := (checked (a.count.toInt - b.count.toInt)).map mk

/-- `duration_cast`: by the quotient of the periods in lowest terms, multiplying before dividing. -/
def cast (q : ℕ) (d : Duration p) : Option (Duration q) :=
  let num := p / Nat.gcd p q
  let den := q / Nat.gcd p q
  let count :=
    if den = 1 then
      if num = 1 then some d.count else checked (d.count.toInt * num)
    else if num = 1 then checked (d.count.toInt.tdiv den)
    else (checked (d.count.toInt * num)).bind fun scaled => checked (scaled.toInt.tdiv den)
  count.map mk

theorem le_iff {a b : Duration p} : a ≤ b ↔ a.count.toInt ≤ b.count.toInt := Int64.le_iff_toInt_le

theorem lt_iff {a b : Duration p} : a < b ↔ a.count.toInt < b.count.toInt := Int64.lt_iff_toInt_lt

theorem map_mk_of_fits {z : ℤ} (h : Fits z) :
    ∃ d : Duration p, (checked z).map mk = some d ∧ d.count.toInt = z := by
  obtain ⟨x, hx, hexact⟩ := checked_of_fits h
  exact ⟨⟨x⟩, by rw [hx]; rfl, hexact⟩

theorem add_of_fits {a b : Duration p} (h : Fits (a.count.toInt + b.count.toInt)) :
    ∃ d, a.add b = some d ∧ d.count.toInt = a.count.toInt + b.count.toInt :=
  map_mk_of_fits h

theorem sub_of_fits {a b : Duration p} (h : Fits (a.count.toInt - b.count.toInt)) :
    ∃ d, a.sub b = some d ∧ d.count.toInt = a.count.toInt - b.count.toInt :=
  map_mk_of_fits h

/-- In a period `k` times as long, a duration that is not negative is rounded down. -/
theorem cast_coarser {k : ℕ} (hq : q = k * p) (hp : 0 < p) (hk : 0 < k) (d : Duration p)
    (hd : 0 ≤ d.count.toInt) :
    ∃ d' : Duration q, d.cast q = some d' ∧ d'.count.toInt = d.count.toInt / k := by
  subst hq
  have hnum : p / Nat.gcd p (k * p) = 1 := by rw [Nat.gcd_mul_left_right, Nat.div_self hp]
  have hden : k * p / Nat.gcd p (k * p) = k := by rw [Nat.gcd_mul_left_right, Nat.mul_div_cancel _ hp]
  simp only [cast, hnum, hden, if_true]
  by_cases hone : k = 1
  · subst hone
    exact ⟨⟨d.count⟩, rfl, by simp⟩
  · rw [if_neg hone, Int.tdiv_eq_ediv_of_nonneg hd]
    apply map_mk_of_fits
    have hword := fits_toInt d.count
    have hle : d.count.toInt / k ≤ d.count.toInt := Int.ediv_le_self _ hd
    have hnonneg : 0 ≤ d.count.toInt / k := Int.ediv_nonneg hd (by omega)
    exact ⟨by omega, Int.lt_of_le_of_lt hle hword.2⟩

/-- In a period `k` times as short, a duration is exact where it fits. -/
theorem cast_finer {k : ℕ} (hp : p = k * q) (hq : 0 < q) (d : Duration p) (hd : Fits (d.count.toInt * k)) :
    ∃ d' : Duration q, d.cast q = some d' ∧ d'.count.toInt = d.count.toInt * k := by
  subst hp
  have hnum : k * q / Nat.gcd (k * q) q = k := by rw [Nat.gcd_mul_left_left, Nat.mul_div_cancel _ hq]
  have hden : q / Nat.gcd (k * q) q = 1 := by rw [Nat.gcd_mul_left_left, Nat.div_self hq]
  simp only [cast, hnum, hden, if_true]
  by_cases hone : k = 1
  · subst hone
    exact ⟨⟨d.count⟩, rfl, by simp⟩
  · rw [if_neg hone]
    exact map_mk_of_fits hd

end Duration

/-- `time_point<Clock, Duration>`: the duration since the clock's epoch. -/
structure TimePoint (period : ℕ) where
  sinceEpoch : Duration period
  deriving DecidableEq

namespace TimePoint

variable {p : ℕ}

instance : LE (TimePoint p) := ⟨fun s t => s.sinceEpoch ≤ t.sinceEpoch⟩

instance (s t : TimePoint p) : Decidable (s ≤ t) := inferInstanceAs (Decidable (s.sinceEpoch ≤ t.sinceEpoch))

/-- `time_point::max()`. -/
def max : TimePoint p := ⟨⟨Int64.maxValue⟩⟩

def sub (s t : TimePoint p) : Option (Duration p) := s.sinceEpoch.sub t.sinceEpoch

def add (t : TimePoint p) (d : Duration p) : Option (TimePoint p) := (t.sinceEpoch.add d).map mk

/-- How many periods of the clock have passed since its epoch. -/
def reading (t : TimePoint p) : ℤ := t.sinceEpoch.count.toInt

theorem le_iff {s t : TimePoint p} : s ≤ t ↔ s.reading ≤ t.reading := Duration.le_iff

@[simp] theorem reading_max : (max : TimePoint p).reading = 2 ^ 63 - 1 := Int64.toInt_maxValue

theorem fits_reading (t : TimePoint p) : Fits t.reading := fits_toInt _

theorem sub_of_fits {s t : TimePoint p} (h : Fits (s.reading - t.reading)) :
    ∃ d, s.sub t = some d ∧ d.count.toInt = s.reading - t.reading :=
  Duration.sub_of_fits h

theorem add_of_fits {t : TimePoint p} {d : Duration p} (h : Fits (t.reading + d.count.toInt)) :
    ∃ t', t.add d = some t' ∧ t'.reading = t.reading + d.count.toInt := by
  obtain ⟨sum, hsum, hexact⟩ := Duration.add_of_fits h
  exact ⟨⟨sum⟩, by rw [add, hsum]; rfl, hexact⟩

end TimePoint

end TidePool.Schemes.Chrono
