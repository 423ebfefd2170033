import Mathlib.Data.UInt

/-! Fixed-width numbers in byte strings.

    A format is a sequence of fields at fixed offsets. `putLe`/`putBe` write a machine word as that many
    bytes, `getLe`/`getBe` read it at an offset, and `slice` cuts a field out. Reading undoes writing and,
    because every byte string is the writing of some word, writing undoes reading: the second half is what
    makes a format exact. -/

namespace TidePool.Schemes.Endian

/-! ### Bytes and numbers -/

/-- The low `w` bytes of a number, least significant first. -/
def leBytes : ℕ → ℕ → List UInt8
  | 0, _ => []
  | w + 1, n => UInt8.ofNat n :: leBytes w (n / 256)

/-- The number that bytes spell, least significant first. -/
def leNat : List UInt8 → ℕ
  | [] => 0
  | c :: cs => c.toNat + 256 * leNat cs

@[simp] theorem length_leBytes (w n : ℕ) : (leBytes w n).length = w := by
  induction w generalizing n with
  | zero => rfl
  | succ w ih => simp [leBytes, ih]

theorem leNat_lt (cs : List UInt8) : leNat cs < 256 ^ cs.length := by
  induction cs with
  | nil => simp [leNat]
  | cons c cs ih =>
    have hc := c.toNat_lt
    simp only [leNat, List.length_cons, Nat.pow_succ]
    omega

theorem leNat_leBytes {w n : ℕ} (h : n < 256 ^ w) : leNat (leBytes w n) = n := by
  induction w generalizing n with
  | zero => simp only [Nat.pow_zero, Nat.lt_one_iff] at h; simp [leBytes, leNat, h]
  | succ w ih =>
    have hdiv : n / 256 < 256 ^ w := by rw [Nat.pow_succ] at h; omega
    simp only [leBytes, leNat, ih hdiv, UInt8.toNat_ofNat']
    omega

theorem leBytes_leNat (cs : List UInt8) : leBytes cs.length (leNat cs) = cs := by
  induction cs with
  | nil => rfl
  | cons c cs ih =>
    have hc := c.toNat_lt
    have hlow : UInt8.ofNat (c.toNat + 256 * leNat cs) = c := by
      apply UInt8.toNat_inj.mp
      rw [UInt8.toNat_ofNat']
      omega
    have hhigh : (c.toNat + 256 * leNat cs) / 256 = leNat cs := by omega
    simp only [List.length_cons, leNat, leBytes, hlow, hhigh, ih]

/-! ### Fields -/

section Slice

variable {off w : ℕ} {s a b : List UInt8}

/-- The `w` bytes at an offset. -/
def slice (off w : ℕ) (s : List UInt8) : List UInt8 := (s.drop off).take w

theorem length_slice (h : off + w ≤ s.length) : (slice off w s).length = w := by
  simp only [slice, List.length_take, List.length_drop]
  omega

theorem slice_head (h : a.length = w) : slice 0 w (a ++ b) = a := by
  simp [slice, ← h]

theorem slice_skip (h : a.length ≤ off) : slice off w (a ++ b) = slice (off - a.length) w b := by
  simp [slice, List.drop_append, List.drop_eq_nil_of_le h]

theorem slice_append_drop (off w : ℕ) (s : List UInt8) :
    slice off w s ++ s.drop (off + w) = s.drop off := by
  rw [slice, ← List.drop_drop, List.take_append_drop]

end Slice

/-! ### Machine words -/

/-- A fixed-width unsigned word. -/
class Word (α : Type) where
  bytes : ℕ
  toNat : α → ℕ
  ofNat : ℕ → α
  toNat_lt : ∀ a, toNat a < 256 ^ bytes
  ofNat_toNat : ∀ a, ofNat (toNat a) = a
  toNat_ofNat : ∀ n, n < 256 ^ bytes → toNat (ofNat n) = n

instance : Word UInt8 where
  bytes := 1
  toNat := UInt8.toNat
  ofNat := UInt8.ofNat
  toNat_lt a := a.toNat_lt
  ofNat_toNat _ := UInt8.ofNat_toNat
  toNat_ofNat _ h := UInt8.toNat_ofNat_of_lt' h

instance : Word UInt16 where
  bytes := 2
  toNat := UInt16.toNat
  ofNat := UInt16.ofNat
  toNat_lt a := a.toNat_lt
  ofNat_toNat _ := UInt16.ofNat_toNat
  toNat_ofNat _ h := UInt16.toNat_ofNat_of_lt' h

instance : Word UInt32 where
  bytes := 4
  toNat := UInt32.toNat
  ofNat := UInt32.ofNat
  toNat_lt a := a.toNat_lt
  ofNat_toNat _ := UInt32.ofNat_toNat
  toNat_ofNat _ h := UInt32.toNat_ofNat_of_lt' h

instance : Word UInt64 where
  bytes := 8
  toNat := UInt64.toNat
  ofNat := UInt64.ofNat
  toNat_lt a := a.toNat_lt
  ofNat_toNat _ := UInt64.ofNat_toNat
  toNat_ofNat _ h := UInt64.toNat_ofNat_of_lt' h

@[simp] theorem bytes_uint8 : Word.bytes UInt8 = 1 := rfl

@[simp] theorem bytes_uint16 : Word.bytes UInt16 = 2 := rfl

@[simp] theorem bytes_uint32 : Word.bytes UInt32 = 4 := rfl

@[simp] theorem bytes_uint64 : Word.bytes UInt64 = 8 := rfl

section Words

variable {α : Type} [Word α]

/-- A word, least significant byte first. -/
def putLe (v : α) : List UInt8 := leBytes (Word.bytes α) (Word.toNat v)

/-- A word, most significant byte first. -/
def putBe (v : α) : List UInt8 := (putLe v).reverse

/-- The little-endian word at an offset. -/
def getLe (s : List UInt8) (off : ℕ) : α := Word.ofNat (leNat (slice off (Word.bytes α) s))

/-- The big-endian word at an offset. -/
def getBe (s : List UInt8) (off : ℕ) : α := Word.ofNat (leNat (slice off (Word.bytes α) s).reverse)

@[simp] theorem length_putLe (v : α) : (putLe v).length = Word.bytes α := length_leBytes _ _

@[simp] theorem length_putBe (v : α) : (putBe v).length = Word.bytes α := by simp [putBe]

theorem ofNat_putLe (v : α) : (Word.ofNat (leNat (putLe v)) : α) = v := by
  rw [putLe, leNat_leBytes (Word.toNat_lt v), Word.ofNat_toNat]

/-- Any bytes of the right number are the writing of the word they spell. -/
theorem putLe_ofNat {cs : List UInt8} (h : cs.length = Word.bytes α) :
    putLe (Word.ofNat (leNat cs) : α) = cs := by
  have hlt := leNat_lt cs
  rw [h] at hlt
  rw [putLe, Word.toNat_ofNat _ hlt, ← h, leBytes_leNat]

section Reading

variable {a b : List UInt8} {off : ℕ}

@[simp] theorem getLe_head (v : α) (b : List UInt8) : getLe (putLe v ++ b) 0 = v := by
  rw [getLe, slice_head (length_putLe v), ofNat_putLe]

@[simp] theorem getBe_head (v : α) (b : List UInt8) : getBe (putBe v ++ b) 0 = v := by
  rw [getBe, slice_head (length_putBe v), putBe, List.reverse_reverse, ofNat_putLe]

theorem getLe_skip (h : a.length ≤ off) : (getLe (a ++ b) off : α) = getLe b (off - a.length) := by
  rw [getLe, getLe, slice_skip h]

theorem getBe_skip (h : a.length ≤ off) : (getBe (a ++ b) off : α) = getBe b (off - a.length) := by
  rw [getBe, getBe, slice_skip h]

end Reading

theorem putLe_getLe {s : List UInt8} {off : ℕ} (h : off + Word.bytes α ≤ s.length) :
    putLe (getLe s off : α) = slice off (Word.bytes α) s :=
  putLe_ofNat (length_slice h)

theorem putBe_getBe {s : List UInt8} {off : ℕ} (h : off + Word.bytes α ≤ s.length) :
    putBe (getBe s off : α) = slice off (Word.bytes α) s := by
  rw [putBe, getBe, putLe_ofNat (by rw [List.length_reverse, length_slice h]), List.reverse_reverse]

/-- EXACT: writing the word read at an offset, before what follows it, gives the string back. -/
theorem putLe_getLe_append {s : List UInt8} (off : ℕ) (h : off + Word.bytes α ≤ s.length) :
    putLe (getLe s off : α) ++ s.drop (off + Word.bytes α) = s.drop off := by
  rw [putLe_getLe h, slice_append_drop]

theorem putBe_getBe_append {s : List UInt8} (off : ℕ) (h : off + Word.bytes α ≤ s.length) :
    putBe (getBe s off : α) ++ s.drop (off + Word.bytes α) = s.drop off := by
  rw [putBe_getBe h, slice_append_drop]

end Words

end TidePool.Schemes.Endian
