import TidePool.Schemes.Chrono
import Mathlib.Order.Bounds.Basic

/-! The deadline of a socket operation (`src/transport/tcp/tcp_connection.cpp`, `Deadline`).

    `steady_clock` counts nanoseconds and a time-out is in milliseconds, both in signed 64-bit words. The
    constructor saturates, and `PollTimeoutMilliseconds` rounds the remaining time up for `poll`:

        now₀            now₀ + timeout      time_point::max
         |---------------------|----------- ... -|
                now ==== ms ====>|                      poll(..., ms) ends at or after the expiry

    The clock is a parameter: each function gets the reading its own call of `Clock::now` yields. -/

namespace TidePool.Transport

open Schemes.Chrono

/-- `Clock::duration`. -/
abbrev Nanoseconds := Duration 1

abbrev Milliseconds := Duration 1000000

/-- `Clock::time_point`. -/
abbrev ClockTime := TimePoint 1

structure Deadline where
  expiresAt : ClockTime
  deriving DecidableEq

namespace Deadline

/-- The constructor; `none` where it would overflow. -/
def make (now : ClockTime) (timeout : Milliseconds) : Option Deadline := do
  let maxRemaining ← TimePoint.max.sub now
  let maxMilliseconds ← maxRemaining.cast 1000000
  if timeout ≥ maxMilliseconds then
    return ⟨TimePoint.max⟩
  else
    let delay ← timeout.cast 1
    let expiresAt ← now.add delay
    return ⟨expiresAt⟩

def expired (d : Deadline) (now : ClockTime) : Bool := now ≥ d.expiresAt

/-- `PollTimeoutMilliseconds`; `none` where it would overflow. -/
def pollTimeoutMilliseconds (d : Deadline) (now : ClockTime) : Option Int32 :=
  if now ≥ d.expiresAt then return 0
  else do
    let remaining ← d.expiresAt.sub now
    let milliseconds ← remaining.cast 1000000
    let whole ← milliseconds.cast 1
    let milliseconds ← (if whole < remaining then milliseconds.add ⟨1⟩ else some milliseconds)
    return if milliseconds.count > Int32.maxValue.toInt64 then Int32.maxValue else milliseconds.count.toInt32

/-- The nanoseconds left, not positive once the deadline has expired. -/
def remaining (d : Deadline) (now : ClockTime) : ℤ := d.expiresAt.reading - now.reading

theorem expired_iff {d : Deadline} {now : ClockTime} : d.expired now = true ↔ d.remaining now ≤ 0 := by
  simp only [expired, decide_eq_true_eq, ge_iff_le, TimePoint.le_iff, remaining]
  omega

/-! ### The expiry -/

/-- The expiry asked for: the end of the time-out, but no later than the clock can say. -/
def ideal (now : ClockTime) (timeout : Milliseconds) : ℤ :=
  min (now.reading + timeout.count.toInt * 1000000) (TimePoint.max : ClockTime).reading

/-- How the expiry compares with the one asked for: the same, or the last reading of the clock and less
    than a millisecond later. -/
structure Saturates (d : Deadline) (now : ClockTime) (timeout : Milliseconds) : Prop where
  notEarly : ideal now timeout ≤ d.expiresAt.reading
  withinMillisecond : d.expiresAt.reading - ideal now timeout < 1000000
  lateAtMax : d.expiresAt.reading ≠ ideal now timeout → d.expiresAt = TimePoint.max

/-- The constructor does not overflow. -/
theorem make_saturates {now : ClockTime} {timeout : Milliseconds} (hnow : 0 ≤ now.reading)
    (htimeout : 0 ≤ timeout.count.toInt) : ∃ d, make now timeout = some d ∧ d.Saturates now timeout := by
  have hmax : (TimePoint.max : ClockTime).reading = 2 ^ 63 - 1 := TimePoint.reading_max
  have hfits := now.fits_reading
  simp only [Fits] at hfits
  obtain ⟨maxRemaining, hsub, hremaining⟩ :=
    TimePoint.sub_of_fits (s := TimePoint.max) (t := now) ⟨by omega, by omega⟩
  obtain ⟨maxMilliseconds, hcast, hmilliseconds⟩ :=
    Duration.cast_coarser (k := 1000000) (q := 1000000) rfl (by decide) (by decide) maxRemaining (by omega)
  simp only [make, hsub, hcast, Option.bind_eq_bind, Option.bind_some]
  by_cases hlong : timeout ≥ maxMilliseconds
  · rw [if_pos hlong]
    have hcount := Duration.le_iff.mp hlong
    refine ⟨_, rfl, ?_, ?_, fun _ => rfl⟩
    · exact Int.min_le_right _ _
    · simp only [ideal]
      omega
  · rw [if_neg hlong]
    have hcount := mt Duration.le_iff.mpr hlong
    obtain ⟨delay, hdelay, hexact⟩ :=
      Duration.cast_finer (k := 1000000) (q := 1) rfl (by decide) timeout ⟨by omega, by omega⟩
    obtain ⟨expiresAt, hadd, hsum⟩ :=
      TimePoint.add_of_fits (t := now) (d := delay) ⟨by omega, by omega⟩
    rw [hdelay, Option.bind_some, hadd, Option.bind_some]
    have hideal : ideal now timeout = expiresAt.reading := by
      simp only [ideal]
      omega
    refine ⟨⟨expiresAt⟩, rfl, Int.le_of_eq hideal, ?_, fun hne => absurd hideal.symm hne⟩
    simp only [hideal]
    omega

/-! ### The argument of `poll` -/

/-- What `poll` is told to wait: nothing once the deadline has expired, and before that the remaining time
    in whole milliseconds, rounded up, as far as an `int` goes. -/
structure Waits (d : Deadline) (now : ClockTime) (ms : Int32) : Prop where
  zero_iff : ms = 0 ↔ d.expired now = true
  nonneg : 0 ≤ ms.toInt
  le_intMax : ms.toInt ≤ Int32.maxValue.toInt
  least : ∃ least : ℕ, IsLeast {m : ℕ | d.remaining now ≤ m * 1000000} least ∧
    ms.toInt = min (least : ℤ) Int32.maxValue.toInt

/-- How far one call of `poll` gets at most: the expiry, or what an `int` of milliseconds allows. -/
def reach (d : Deadline) (now : ClockTime) : ℤ :=
  min d.expiresAt.reading (now.reading + Int32.maxValue.toInt * 1000000)

theorem reach_le_of_expired {d : Deadline} {start now : ClockTime} (h : d.expired now = true) :
    d.reach start ≤ now.reading := by
  have hremaining := expired_iff.mp h
  simp only [remaining] at hremaining
  simp only [reach]
  omega

/-- A time-out that an `int` of milliseconds can hold is not cut short. -/
theorem Saturates.ideal_le_reach {d : Deadline} {now : ClockTime} {timeout : Milliseconds}
    (h : d.Saturates now timeout) (hint : timeout.count.toInt ≤ Int32.maxValue.toInt) :
    ideal now timeout ≤ d.reach now := by
  have hnotEarly := h.notEarly
  simp only [ideal, reach] at hnotEarly ⊢
  omega

/-- `poll` is never told to stop short of that. -/
theorem Waits.reach_le {d : Deadline} {now : ClockTime} {ms : Int32} (h : d.Waits now ms) :
    d.reach now ≤ now.reading + ms.toInt * 1000000 := by
  obtain ⟨least, ⟨hcovers, -⟩, hms⟩ := h.least
  rw [Set.mem_ofPred_eq, remaining] at hcovers
  simp only [reach]
  omega

/-- The one number of milliseconds that covers a positive time and would not with one less. -/
theorem isLeast_milliseconds {r m : ℤ} (hpos : 0 < r) (hcovers : r ≤ m * 1000000)
    (htight : m * 1000000 < r + 1000000) : IsLeast {k : ℕ | r ≤ k * 1000000} m.toNat := by
  constructor
  · rw [Set.mem_ofPred_eq]
    omega
  · intro k hk
    rw [Set.mem_ofPred_eq] at hk
    omega

/-- The conversion of a count to `int`, where that is clamped. -/
theorem toInt_clamped {count : Int64} (h : 0 ≤ count.toInt) :
    (if count > Int32.maxValue.toInt64 then Int32.maxValue else count.toInt32).toInt =
      min count.toInt Int32.maxValue.toInt := by
  have hmax : Int32.maxValue.toInt64.toInt = Int32.maxValue.toInt := Int32.toInt_toInt64 _
  have hint : Int32.maxValue.toInt = 2 ^ 31 - 1 := Int32.toInt_maxValue
  by_cases hlarge : count > Int32.maxValue.toInt64
  · rw [if_pos hlarge]
    have := Int64.lt_iff_toInt_lt.mp hlarge
    omega
  · rw [if_neg hlarge, Int64.toInt_toInt32]
    have := mt Int64.lt_iff_toInt_lt.mpr hlarge
    rw [Int.bmod_eq_of_le (by omega) (by omega)]
    omega

/-- Truncating, casting back and adding one rounds a positive time up. -/
theorem milliseconds_roundUp {remaining : Nanoseconds} (hpos : 0 < remaining.count.toInt) :
    ∃ floor whole milliseconds, remaining.cast 1000000 = some floor ∧ floor.cast 1 = some whole ∧
      (if whole < remaining then floor.add ⟨1⟩ else some floor) = some milliseconds ∧
      remaining.count.toInt ≤ milliseconds.count.toInt * 1000000 ∧
      milliseconds.count.toInt * 1000000 < remaining.count.toInt + 1000000 := by
  have hfits := fits_toInt remaining.count
  simp only [Fits] at hfits
  obtain ⟨floor, hcast, hfloor⟩ :=
    Duration.cast_coarser (k := 1000000) (q := 1000000) rfl (by decide) (by decide) remaining (by omega)
  obtain ⟨whole, hback, hwhole⟩ :=
    Duration.cast_finer (k := 1000000) (q := 1) rfl (by decide) floor ⟨by omega, by omega⟩
  have hone : (⟨1⟩ : Milliseconds).count.toInt = 1 := rfl
  by_cases hpart : whole < remaining
  · have hlt := Duration.lt_iff.mp hpart
    obtain ⟨milliseconds, hadd, hsum⟩ :=
      Duration.add_of_fits (a := floor) (b := ⟨1⟩) ⟨by omega, by omega⟩
    refine ⟨floor, whole, milliseconds, hcast, hback, (if_pos hpart).trans hadd, ?_, ?_⟩
    · omega
    · omega
  · have hge := mt Duration.lt_iff.mpr hpart
    refine ⟨floor, whole, floor, hcast, hback, if_neg hpart, ?_, ?_⟩
    · omega
    · omega

theorem waits_of_expired {d : Deadline} {now : ClockTime} (h : d.expired now = true) : d.Waits now 0 where
  zero_iff := iff_of_true rfl h
  nonneg := by decide
  le_intMax := by decide
  least := by
    have hremaining := expired_iff.mp h
    refine ⟨0, ⟨by simpa using hremaining, ?_⟩, by decide⟩
    intro k _
    exact Nat.zero_le k

/-- `PollTimeoutMilliseconds` does not overflow. -/
theorem pollTimeoutMilliseconds_waits (d : Deadline) {now : ClockTime} (hnow : 0 ≤ now.reading) :
    ∃ ms, d.pollTimeoutMilliseconds now = some ms ∧ d.Waits now ms := by
  have hint : Int32.maxValue.toInt = 2 ^ 31 - 1 := Int32.toInt_maxValue
  by_cases hover : now ≥ d.expiresAt
  · refine ⟨0, ?_, waits_of_expired (decide_eq_true hover)⟩
    rw [pollTimeoutMilliseconds, if_pos hover]
    rfl
  · have hlater := mt TimePoint.le_iff.mpr hover
    have hfits := d.expiresAt.fits_reading
    simp only [Fits] at hfits
    obtain ⟨remaining, hsub, hremaining⟩ :=
      TimePoint.sub_of_fits (s := d.expiresAt) (t := now) ⟨by omega, by omega⟩
    have hpos : 0 < remaining.count.toInt := by omega
    obtain ⟨floor, whole, milliseconds, hcast, hback, hround, hcovers, htight⟩ := milliseconds_roundUp hpos
    have hmilliseconds : 0 ≤ milliseconds.count.toInt := by omega
    have hclamped := toInt_clamped hmilliseconds
    have hleast := isLeast_milliseconds hpos hcovers htight
    rw [hremaining] at hleast
    have hcount : (milliseconds.count.toInt.toNat : ℤ) = milliseconds.count.toInt := by omega
    refine ⟨_, ?_, ?_, ?_, ?_, _, hleast, hclamped.trans (by rw [hcount])⟩
    · rw [pollTimeoutMilliseconds, if_neg hover]
      simp only [hsub, hcast, hback, hround, Option.bind_eq_bind, Option.bind_some]
      rfl
    · rw [← Int32.toInt_inj, hclamped, Int32.toInt_zero, expired_iff, Deadline.remaining]
      omega
    · omega
    · omega

/-- SAFE: at any reading of the clock and for any time-out, the constructor and each later call of
    `PollTimeoutMilliseconds` overflow nowhere. The expiry is the one asked for, as far as the clock goes,
    and `poll` is told the remaining time in whole milliseconds, rounded up. -/
theorem deadline_safe (now₀ : ClockTime) (timeout : Milliseconds) (hnow₀ : 0 ≤ now₀.reading)
    (htimeout : 0 ≤ timeout.count.toInt) :
    ∃ d, make now₀ timeout = some d ∧ d.Saturates now₀ timeout ∧
      ∀ now, now₀ ≤ now → ∃ ms, d.pollTimeoutMilliseconds now = some ms ∧ d.Waits now ms := by
  obtain ⟨d, hmake, hsaturates⟩ := make_saturates hnow₀ htimeout
  refine ⟨d, hmake, hsaturates, ?_⟩
  intro now hlater
  have hnow : 0 ≤ now.reading := Int.le_trans hnow₀ (TimePoint.le_iff.mp hlater)
  exact d.pollTimeoutMilliseconds_waits hnow

/-- A millisecond and a half before the clock ends, with a time-out of one millisecond. -/
theorem deadline_safe_before_max :
    0 ≤ (⟨⟨9223372036853275807⟩⟩ : ClockTime).reading ∧ 0 ≤ (⟨1⟩ : Milliseconds).count.toInt ∧
      ∃ d, make ⟨⟨9223372036853275807⟩⟩ ⟨1⟩ = some d ∧ d.Saturates ⟨⟨9223372036853275807⟩⟩ ⟨1⟩ ∧
        ∀ now, ⟨⟨9223372036853275807⟩⟩ ≤ now →
          ∃ ms, d.pollTimeoutMilliseconds now = some ms ∧ d.Waits now ms :=
  ⟨by decide, by decide, deadline_safe _ _ (by decide) (by decide)⟩

-- there the expiry is half a millisecond later than the one asked for
example : make ⟨⟨9223372036853275807⟩⟩ ⟨1⟩ = some ⟨TimePoint.max⟩ ∧
    ideal ⟨⟨9223372036853275807⟩⟩ ⟨1⟩ = 9223372036854275807 := by decide

end Deadline

end TidePool.Transport
