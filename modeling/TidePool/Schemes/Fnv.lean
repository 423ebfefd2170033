import Mathlib.Data.UInt
import Mathlib.Tactic.Ring
import Mathlib.Tactic.Linarith
import Mathlib.Tactic.LinearCombination
import Mathlib.Algebra.Ring.Divisibility.Basic

/-! The FNV-1a hash on 64 bits, and why four bytes never collide.

    A round takes a byte into the state: `h -> (h ^ b) * P mod 2^64`, with P = 2^40 + 435. It is a bijection
    of the state, so a difference is never lost by bytes that follow it (`absorbAll_injective`).

    From one state, four bytes that differ from four others give another state. Say the differences before
    each product are, over the integers, e0, e1, e2 (the xor with a byte moves a number by less than 256) and
    that the fourth xor makes the states equal. Then modulo 2^64

        e0 * P^3 + e1 * P^2 + e2 * P = d      with |e0|, |d| <= 255 and |e1|, |e2| <= 510

    and the powers of P have the form x * 2^40 + y. The low part of the sum is too small to reach 2^40, so it
    is d itself, and the multiples of 435 leave nothing but zeros (`no_carry`). -/

namespace TidePool.Schemes.Fnv

/-- The multiplier. -/
def prime : UInt64 := 1099511628211

/-- One round. -/
def absorb (h : UInt64) (b : UInt8) : UInt64 := (h ^^^ b.toUInt64) * prime

/-- The rounds of a byte string. -/
def absorbAll (h : UInt64) (bs : List UInt8) : UInt64 := bs.foldl absorb h

/-! ### A round loses nothing -/

theorem mul_prime_injective : Function.Injective fun h : UInt64 => h * prime := by
  intro x y h
  have hinv : prime * 0xce965057aff6957b = 1 := by decide
  have hmul := congrArg (· * (0xce965057aff6957b : UInt64)) h
  simpa only [UInt64.mul_assoc, hinv, UInt64.mul_one] using hmul

theorem absorb_injective (b : UInt8) : Function.Injective fun h => absorb h b := by
  intro x y h
  have hxor : x ^^^ b.toUInt64 = y ^^^ b.toUInt64 := mul_prime_injective h
  have hbits := congrArg UInt64.toBitVec hxor
  exact UInt64.toBitVec_inj.mp ((BitVec.xor_left_inj b.toUInt64.toBitVec).mp hbits)

/-- A difference of states survives the bytes that follow. -/
theorem absorbAll_injective (bs : List UInt8) : Function.Injective fun h => absorbAll h bs := by
  induction bs with
  | nil => exact fun _ _ h => h
  | cons b bs ih => exact fun _ _ h => absorb_injective b (ih h)

/-! ### One round over the integers -/

/-- The state before the product, as a number. -/
def mixed (h : UInt64) (b : UInt8) : ℤ := (h ^^^ b.toUInt64).toNat

/-- The xor with a byte stays in the same block of 256. -/
theorem mixed_div (h : UInt64) (b : UInt8) : mixed h b / 256 = (h.toNat : ℤ) / 256 := by
  have hb : b.toNat >>> 8 = 0 := by
    rw [Nat.shiftRight_eq_div_pow]
    exact Nat.div_eq_of_lt b.toNat_lt
  have hnat : (h ^^^ b.toUInt64).toNat / 2 ^ 8 = h.toNat / 2 ^ 8 := by
    rw [UInt64.toNat_xor, UInt8.toNat_toUInt64, ← Nat.shiftRight_eq_div_pow, ← Nat.shiftRight_eq_div_pow,
      Nat.shiftRight_xor_distrib, hb, Nat.xor_zero]
  unfold mixed
  omega

theorem mixed_near (h : UInt64) (b c : UInt8) : |mixed h b - mixed h c| ≤ 255 := by
  have hb := mixed_div h b
  have hc := mixed_div h c
  rw [abs_le]
  omega

/-- Two xors change the difference of two states by little. -/
theorem mixed_drift (x y : UInt64) (b c : UInt8) : |mixed x b - mixed y c - (x.toNat - y.toNat)| ≤ 510 := by
  have hb := mixed_div x b
  have hc := mixed_div y c
  rw [abs_le]
  omega

theorem near_of_mixed_eq {x y : UInt64} {b c : UInt8} (h : mixed x b = mixed y c) :
    |(x.toNat : ℤ) - y.toNat| ≤ 255 := by
  have hb := mixed_div x b
  have hc := mixed_div y c
  rw [abs_le]
  omega

theorem mixed_inj {h : UInt64} {b c : UInt8} (heq : mixed h b = mixed h c) : b = c := by
  have hword : h ^^^ b.toUInt64 = h ^^^ c.toUInt64 := UInt64.toNat_inj.mp (Int.ofNat.inj heq)
  have hbits := congrArg UInt64.toBitVec hword
  have hbyte := UInt64.toBitVec_inj.mp ((BitVec.xor_right_inj h.toBitVec).mp hbits)
  exact UInt8.toNat_inj.mp (by simpa using congrArg UInt64.toNat hbyte)

/-- Two rounds side by side: the products differ by the product of the difference, up to the word size. -/
theorem dvd_absorb_sub (x y : UInt64) (b c : UInt8) : (2 ^ 64 : ℤ) ∣
    (mixed x b - mixed y c) * 1099511628211 - ((absorb x b).toNat - (absorb y c).toNat) := by
  have hone : ∀ (h : UInt64) (b : UInt8), (2 ^ 64 : ℤ) ∣ mixed h b * 1099511628211 - (absorb h b).toNat := by
    intro h b
    have hmod : (absorb h b).toNat = (h ^^^ b.toUInt64).toNat * 1099511628211 % 2 ^ 64 := by
      rw [absorb, UInt64.toNat_mul]
      rfl
    rw [hmod, mixed]
    push_cast
    exact Int.dvd_self_sub_emod
  have hsub := dvd_sub (hone x b) (hone y c)
  rwa [show (mixed x b - mixed y c) * 1099511628211 - (((absorb x b).toNat : ℤ) - (absorb y c).toNat) =
    mixed x b * 1099511628211 - (absorb x b).toNat - (mixed y c * 1099511628211 - (absorb y c).toNat) by ring]

/-! ### Four rounds -/

/-- A number below 2^40 cannot make up for a multiple of it. -/
theorem low_part {m a c d : ℤ} (hc : |c| ≤ 2 ^ 26) (hd : |d| ≤ 255)
    (h : 2 ^ 64 * m = 2 ^ 40 * a + (435 * c - d)) : c = 0 ∧ d = 0 ∧ a = 2 ^ 24 * m := by
  rw [abs_le] at hc hd
  have hlow : 435 * c = d := by omega
  have hzero : c = 0 := by omega
  exact ⟨hzero, by omega, by omega⟩

/-- The equation of the header has only the zero solution. -/
theorem no_carry {e₀ e₁ e₂ d : ℤ} (h₀ : |e₀| ≤ 255) (h₁ : |e₁| ≤ 510) (h₂ : |e₂| ≤ 510) (hd : |d| ≤ 255)
    (hdvd : (2 ^ 64 : ℤ) ∣ ((e₀ * 1099511628211 + e₁) * 1099511628211 + e₂) * 1099511628211 - d) :
    e₀ = 0 ∧ e₁ = 0 ∧ e₂ = 0 ∧ d = 0 := by
  obtain ⟨q, hq⟩ := hdvd
  -- the sum in powers of 2^40; what is above 2^64 goes into the quotient
  have hparts : 2 ^ 64 * (q - (2 ^ 56 * e₀ + 1305 * 2 ^ 16 * e₀ + 2 ^ 16 * e₁)) =
      2 ^ 40 * (567675 * e₀ + 870 * e₁ + e₂) + (435 * (189225 * e₀ + 435 * e₁ + e₂) - d) := by
    linarith
  clear hq
  rw [abs_le] at h₀ h₁ h₂
  have hsmall : |189225 * e₀ + 435 * e₁ + e₂| ≤ 2 ^ 26 := by rw [abs_le]; omega
  obtain ⟨hzero, hd₀, hhigh⟩ := low_part hsmall hd hparts
  clear hparts hsmall
  generalize q - (2 ^ 56 * e₀ + 1305 * 2 ^ 16 * e₀ + 2 ^ 16 * e₁) = m at hhigh
  have hm : m = 0 := by omega
  subst hm
  omega

/-- FOUR BYTES: from one state, different strings of four bytes lead to different states. -/
theorem absorb_four_injective {h : UInt64} {b₀ b₁ b₂ b₃ c₀ c₁ c₂ c₃ : UInt8}
    (heq : absorbAll h [b₀, b₁, b₂, b₃] = absorbAll h [c₀, c₁, c₂, c₃]) :
    b₀ = c₀ ∧ b₁ = c₁ ∧ b₂ = c₂ ∧ b₃ = c₃ := by
  obtain ⟨x₁, hx₁⟩ : ∃ x, x = absorb h b₀ := ⟨_, rfl⟩
  obtain ⟨y₁, hy₁⟩ : ∃ y, y = absorb h c₀ := ⟨_, rfl⟩
  obtain ⟨x₂, hx₂⟩ : ∃ x, x = absorb x₁ b₁ := ⟨_, rfl⟩
  obtain ⟨y₂, hy₂⟩ : ∃ y, y = absorb y₁ c₁ := ⟨_, rfl⟩
  obtain ⟨x₃, hx₃⟩ : ∃ x, x = absorb x₂ b₂ := ⟨_, rfl⟩
  obtain ⟨y₃, hy₃⟩ : ∃ y, y = absorb y₂ c₂ := ⟨_, rfl⟩
  have hlast : mixed x₃ b₃ = mixed y₃ c₃ := by
    have hword : absorb x₃ b₃ = absorb y₃ c₃ := by rw [hx₃, hy₃, hx₂, hy₂, hx₁, hy₁]; exact heq
    exact congrArg (fun h : UInt64 => (h.toNat : ℤ)) (mul_prime_injective hword)
  -- the three products, and what each xor adds to the difference
  obtain ⟨q₁, hq₁⟩ := dvd_absorb_sub h h b₀ c₀
  obtain ⟨q₂, hq₂⟩ := dvd_absorb_sub x₁ y₁ b₁ c₁
  obtain ⟨q₃, hq₃⟩ := dvd_absorb_sub x₂ y₂ b₂ c₂
  rw [← hx₁, ← hy₁] at hq₁
  rw [← hx₂, ← hy₂] at hq₂
  rw [← hx₃, ← hy₃] at hq₃
  have hzero := no_carry (mixed_near h b₀ c₀) (mixed_drift x₁ y₁ b₁ c₁) (mixed_drift x₂ y₂ b₂ c₂)
    (near_of_mixed_eq hlast)
  obtain ⟨h₀, h₁, h₂, -⟩ := hzero ⟨q₃ + 1099511628211 * q₂ + 1099511628211 * 1099511628211 * q₁, by
    linear_combination hq₃ + 1099511628211 * hq₂ + 1099511628211 * 1099511628211 * hq₁⟩
  obtain rfl : b₀ = c₀ := mixed_inj (sub_eq_zero.mp h₀)
  obtain rfl : x₁ = y₁ := hx₁.trans hy₁.symm
  rw [sub_self, sub_zero] at h₁
  obtain rfl : b₁ = c₁ := mixed_inj (sub_eq_zero.mp h₁)
  obtain rfl : x₂ = y₂ := hx₂.trans hy₂.symm
  rw [sub_self, sub_zero] at h₂
  obtain rfl : b₂ = c₂ := mixed_inj (sub_eq_zero.mp h₂)
  obtain rfl : x₃ = y₃ := hx₃.trans hy₃.symm
  exact ⟨rfl, rfl, rfl, mixed_inj hlast⟩

end TidePool.Schemes.Fnv
