import Mathlib.Data.Nat.Digits.Lemmas
import Mathlib.Data.UInt

/-! Numerals in ASCII: what `printf` writes for an unsigned number and what `from_chars` reads back.

    `print` writes the shortest numeral of a number in a base (lower-case letters above nine),
    `printPadded` fills it up with zeros on the left, and `parseUnsigned` reads a whole string as a
    number below a bound: no sign, no blank, at least one digit, either case, leading zeros allowed.
    Reading undoes writing (`parseUnsigned_print`, `parseUnsigned_printPadded`). -/

namespace TidePool.Schemes.Numeral

/-- The character of a digit below thirty-six. -/
def digitByte (d : ℕ) : UInt8 := UInt8.ofNat (if d < 10 then 48 + d else 87 + d)

/-- The digit a character stands for in a base, if any. -/
def digitOf (base : ℕ) (c : UInt8) : Option ℕ :=
  let n := c.toNat
  let d :=
    if 48 ≤ n ∧ n ≤ 57 then some (n - 48)
    else if 97 ≤ n ∧ n ≤ 122 then some (n - 87)
    else if 65 ≤ n ∧ n ≤ 90 then some (n - 55)
    else none
  d.filter (· < base)

/-- `%u`, `%llx`: the shortest numeral. -/
def print (base n : ℕ) : List UInt8 :=
  if n = 0 then [digitByte 0] else (Nat.digits base n).reverse.map digitByte

/-- `%016llx`: the numeral filled up with zeros to a width. -/
def printPadded (width base n : ℕ) : List UInt8 :=
  List.replicate (width - (print base n).length) (digitByte 0) ++ print base n

/-- The digits of a string folded into a number, which must stay below the bound. -/
def fromChars (base bound : ℕ) : ℕ → List UInt8 → Option ℕ
  | acc, [] => some acc
  | acc, c :: cs =>
    match digitOf base c with
    | none => none
    | some d => if acc * base + d < bound then fromChars base bound (acc * base + d) cs else none

/-- The whole string as a number below the bound. -/
def parseUnsigned (base bound : ℕ) (text : List UInt8) : Option ℕ :=
  if text = [] then none else fromChars base bound 0 text

theorem digitByte_toNat {d : ℕ} (hd : d < 36) :
    (digitByte d).toNat = if d < 10 then 48 + d else 87 + d := by
  unfold digitByte
  split <;> rw [UInt8.toNat_ofNat'] <;> omega

theorem digitOf_digitByte {base d : ℕ} (hb : base ≤ 36) (hd : d < base) :
    digitOf base (digitByte d) = some d := by
  simp only [digitOf, digitByte_toNat (lt_of_lt_of_le hd hb)]
  by_cases h : d < 10
  · simp [h, show 48 + d ≤ 57 by omega, hd]
  · simp [h, show ¬ 87 + d ≤ 57 by omega, show 97 ≤ 87 + d by omega, show 87 + d ≤ 122 by omega, hd]

/-- No digit is a punctuation mark between the digits and the lower-case letters. -/
theorem digitByte_ne {d : ℕ} (hd : d < 36) {c : UInt8} (hc : 57 < c.toNat ∧ c.toNat < 97) :
    digitByte d ≠ c := by
  intro h
  have := digitByte_toNat hd
  rw [h] at this
  split at this <;> omega

theorem fromChars_append (base bound : ℕ) : ∀ (xs ys : List UInt8) (acc : ℕ),
    fromChars base bound acc (xs ++ ys) =
      (fromChars base bound acc xs).bind fun v => fromChars base bound v ys
  | [], _, _ => rfl
  | c :: cs, ys, acc => by
    simp only [List.cons_append, fromChars]
    cases digitOf base c with
    | none => rfl
    | some d =>
      by_cases h : acc * base + d < bound
      · simp only [h, if_true]; exact fromChars_append base bound cs ys _
      · simp [h]

/-- Reading a list of digits, most significant first, computes their positional value. -/
theorem fromChars_digits {base bound : ℕ} (hb : 2 ≤ base) (hb' : base ≤ 36) :
    ∀ (ds : List ℕ), (∀ d ∈ ds, d < base) → Nat.ofDigits base ds < bound →
      fromChars base bound 0 (ds.reverse.map digitByte) = some (Nat.ofDigits base ds)
  | [], _, _ => rfl
  | d :: ds, hds, hlt => by
    rw [Nat.ofDigits_cons] at hlt ⊢
    have hle : Nat.ofDigits base ds ≤ base * Nat.ofDigits base ds := Nat.le_mul_of_pos_left _ (by omega)
    have hlt' : Nat.ofDigits base ds < bound := by omega
    have hrec := fromChars_digits hb hb' ds (fun e he => hds e (List.mem_cons_of_mem _ he)) hlt'
    rw [List.reverse_cons, List.map_append, fromChars_append, hrec]
    simp only [List.map_cons, List.map_nil, Option.bind_some, fromChars,
      digitOf_digitByte hb' (hds d List.mem_cons_self)]
    rw [Nat.mul_comm, Nat.add_comm, if_pos hlt]

theorem fromChars_print {base bound n : ℕ} (hb : 2 ≤ base) (hb' : base ≤ 36) (hn : n < bound) :
    fromChars base bound 0 (print base n) = some n := by
  by_cases h0 : n = 0
  · subst h0
    simp [print, fromChars, digitOf_digitByte hb' (show 0 < base by omega), hn]
  · rw [print, if_neg h0]
    have hval := Nat.ofDigits_digits base n
    rw [fromChars_digits hb hb' _ (fun d hd => Nat.digits_lt_base hb hd) (by rw [hval]; exact hn), hval]

theorem fromChars_zeros {base bound : ℕ} (hb : 2 ≤ base) (hb' : base ≤ 36) (hbound : 0 < bound) :
    ∀ (m : ℕ) (cs : List UInt8),
      fromChars base bound 0 (List.replicate m (digitByte 0) ++ cs) = fromChars base bound 0 cs
  | 0, _ => by simp
  | m + 1, cs => by
    rw [List.replicate_succ, List.cons_append, fromChars,
      digitOf_digitByte hb' (show 0 < base by omega)]
    simp only [Nat.zero_mul, Nat.add_zero, hbound, if_true]
    exact fromChars_zeros hb hb' hbound m cs

theorem print_ne_nil {base n : ℕ} : print base n ≠ [] := by
  by_cases h0 : n = 0
  · simp [print, h0]
  · simp [print, h0, Nat.digits_ne_nil_iff_ne_zero.mpr h0]

/-- ROUND TRIP: a numeral reads back as the number it was printed from. -/
theorem parseUnsigned_print {base bound n : ℕ} (hb : 2 ≤ base) (hb' : base ≤ 36) (hn : n < bound) :
    parseUnsigned base bound (print base n) = some n := by
  rw [parseUnsigned, if_neg print_ne_nil, fromChars_print hb hb' hn]

theorem parseUnsigned_printPadded {base bound n width : ℕ} (hb : 2 ≤ base) (hb' : base ≤ 36)
    (hn : n < bound) : parseUnsigned base bound (printPadded width base n) = some n := by
  have hne : printPadded width base n ≠ [] := by simp [printPadded, print_ne_nil]
  rw [parseUnsigned, if_neg hne, printPadded, fromChars_zeros hb hb' (by omega),
    fromChars_print hb hb' hn]

/-- A numeral has only digits in it. -/
theorem mem_print {base n : ℕ} (hb : 2 ≤ base) {c : UInt8} (hc : c ∈ print base n) :
    ∃ d, d < base ∧ c = digitByte d := by
  by_cases h0 : n = 0
  · simp only [print, h0, if_true, List.mem_singleton] at hc
    exact ⟨0, by omega, hc⟩
  · simp only [print, h0, if_false, List.map_reverse, List.mem_reverse, List.mem_map] at hc
    obtain ⟨d, hd, rfl⟩ := hc
    exact ⟨d, Nat.digits_lt_base hb hd, rfl⟩

theorem mem_printPadded {base n width : ℕ} (hb : 2 ≤ base) {c : UInt8}
    (hc : c ∈ printPadded width base n) : ∃ d, d < base ∧ c = digitByte d := by
  rcases List.mem_append.mp hc with hz | hp
  · exact ⟨0, by omega, List.eq_of_mem_replicate hz⟩
  · exact mem_print hb hp

theorem length_print_le {base n width : ℕ} (hb : 2 ≤ base) (hw : 1 ≤ width) (hn : n < base ^ width) :
    (print base n).length ≤ width := by
  by_cases h0 : n = 0
  · simp [print, h0, hw]
  · rw [print, if_neg h0, List.length_map, List.length_reverse]
    exact (Nat.digits_length_le_iff hb n).mpr hn

/-- Padding to a width that the numeral fits gives exactly that width. -/
theorem length_printPadded {base n width : ℕ} (hb : 2 ≤ base) (hw : 1 ≤ width)
    (hn : n < base ^ width) : (printPadded width base n).length = width := by
  have := length_print_le hb hw hn
  simp only [printPadded, List.length_append, List.length_replicate]
  omega

end TidePool.Schemes.Numeral
