import TidePool.Api.Types
import TidePool.Schemes.Numeral
import TidePool.Schemes.Fnv

/-! The textual form of a block key (`src/api/block_key.cpp`): `<hash16>:<len>:<model>`.

    `toBytes` is `BlockKey::ToString`, the LevelDB key of a block; `fromString` is its strict inverse.
    The parser is lenient field by field (upper-case digits, leading zeros) and is made strict by the
    last test, which formats what it read and compares. -/

namespace TidePool

open Schemes Schemes.Numeral

namespace BlockKey

/-- The separator `':'`. -/
def colon : UInt8 := 58

/-- `BlockKey::ToString`: `"%016llx:%u:%u"`. -/
def toBytes (k : BlockKey) : Bytes :=
  printPadded 16 16 k.prefixHash.toNat ++ colon :: print 10 k.prefixLen.toNat ++
    colon :: print 10 k.modelFingerprint.toNat

/-- The same text inside a status message. -/
def toText (k : BlockKey) : String := String.ofList (k.toBytes.map fun c => Char.ofNat c.toNat)

/-- `std::string_view::find(':', pos)`. -/
def findColon (s : Bytes) (pos : ℕ) : Option ℕ :=
  ((s.drop pos).findIdx? (· == colon)).map (· + pos)

/-- `BlockKey::FromString`. -/
def fromString (encoded : Bytes) : Result BlockKey :=
  if findColon encoded 0 ≠ some 16 then
    .error (.corruption "BlockKey: expected exactly 16 hexadecimal hash digits")
  else
    match findColon encoded 17 with
    | none => .error (.corruption "BlockKey: expected hash:length:model")
    | some second =>
      if findColon encoded (second + 1) ≠ none then
        .error (.corruption "BlockKey: expected hash:length:model")
      else
        match parseUnsigned 16 UInt64.size (encoded.take 16),
            parseUnsigned 10 UInt32.size ((encoded.drop 17).take (second - 17)),
            parseUnsigned 10 UInt32.size (encoded.drop (second + 1)) with
        | some h, some len, some model =>
          let key : BlockKey := ⟨UInt64.ofNat h, UInt32.ofNat len, UInt32.ofNat model⟩
          if key.toBytes ≠ encoded then .error (.corruption "BlockKey: non-canonical encoding")
          else .ok key
        | _, _, _ => .error (.corruption "BlockKey: invalid or overflowing numeric field")

/-! ### Finding the separators -/

theorem findColon_zero {l r : Bytes} (hl : colon ∉ l) : findColon (l ++ colon :: r) 0 = some l.length := by
  have hnone : l.findIdx? (· == colon) = none := by
    rw [List.findIdx?_eq_none_iff]
    intro c hc
    simpa using fun h : c = colon => hl (h ▸ hc)
  simp [findColon, List.findIdx?_append, hnone, List.findIdx?_cons]

theorem findColon_none {l : Bytes} (hl : colon ∉ l) : findColon l 0 = none := by
  simp only [findColon, List.drop_zero, Option.map_eq_none_iff, List.findIdx?_eq_none_iff]
  intro c hc
  simpa using fun h : c = colon => hl (h ▸ hc)

theorem findColon_append (l r : Bytes) (pos : ℕ) :
    findColon (l ++ r) (l.length + pos) = (findColon r pos).map (· + l.length) := by
  simp only [findColon, List.drop_append, List.drop_eq_nil_of_le (Nat.le_add_right l.length pos),
    List.nil_append, Nat.add_sub_cancel_left, Option.map_map]
  congr 1
  funext i
  simp only [Function.comp_apply]
  omega

theorem colon_notMem_print {base n : ℕ} (hb : 2 ≤ base) (hb' : base ≤ 36) : colon ∉ print base n := by
  intro h
  obtain ⟨d, hd, hc⟩ := mem_print hb h
  exact digitByte_ne (lt_of_lt_of_le hd hb') (by decide) hc.symm

theorem colon_notMem_printPadded {base n width : ℕ} (hb : 2 ≤ base) (hb' : base ≤ 36) :
    colon ∉ printPadded width base n := by
  intro h
  obtain ⟨d, hd, hc⟩ := mem_printPadded hb h
  exact digitByte_ne (lt_of_lt_of_le hd hb') (by decide) hc.symm

/-! ### The two directions -/

/-- Whatever is accepted is the canonical text of the key that is returned. -/
theorem toBytes_of_fromString {s : Bytes} {k : BlockKey} (h : fromString s = .ok k) : k.toBytes = s := by
  simp only [fromString] at h
  repeat' split at h
  all_goals first
    | (simp only [Except.ok.injEq] at h; subst h; rename_i heq; exact not_not.mp heq)
    | simp at h

/-- The canonical text of a key is accepted and gives the key back. -/
theorem fromString_toBytes (k : BlockKey) : fromString k.toBytes = .ok k := by
  have hhash : (printPadded 16 16 k.prefixHash.toNat).length = 16 :=
    length_printPadded (by norm_num) (by norm_num) (by simpa using k.prefixHash.toNat_lt)
  have hfirst : findColon k.toBytes 0 = some 16 := by
    rw [toBytes, List.append_assoc, List.cons_append,
      findColon_zero (colon_notMem_printPadded (by norm_num) (by norm_num)), hhash]
  set hash := printPadded 16 16 k.prefixHash.toNat with hhashdef
  set len := print 10 k.prefixLen.toNat with hlen
  set model := print 10 k.modelFingerprint.toNat with hmodel
  have hshape : k.toBytes = (hash ++ [colon]) ++ (len ++ colon :: model) := by
    simp [toBytes, hhashdef, hlen, hmodel]
  have hpre : (hash ++ [colon]).length = 17 := by simp [hhash]
  have hsecond : findColon k.toBytes 17 = some (len.length + 17) := by
    have := findColon_append (hash ++ [colon]) (len ++ colon :: model) 0
    rw [hpre, Nat.add_zero] at this
    rw [hshape, this, findColon_zero (colon_notMem_print (by norm_num) (by norm_num))]
    rfl
  have hshape' : k.toBytes = (hash ++ [colon] ++ len ++ [colon]) ++ model := by
    simp [toBytes, hhashdef, hlen, hmodel]
  have hpre' : (hash ++ [colon] ++ len ++ [colon]).length = len.length + 17 + 1 := by
    simp [hhash]; omega
  have hthird : findColon k.toBytes (len.length + 17 + 1) = none := by
    have := findColon_append (hash ++ [colon] ++ len ++ [colon]) model 0
    rw [hpre', Nat.add_zero] at this
    rw [hshape', this, findColon_none (colon_notMem_print (by norm_num) (by norm_num))]
    rfl
  have htake : k.toBytes.take 16 = hash := by
    rw [hshape, List.append_assoc, ← hhash]; simp
  have hmid : (k.toBytes.drop 17).take len.length = len := by
    rw [hshape, List.drop_append_of_le_length (by omega), ← hpre]; simp
  have hlast : k.toBytes.drop (len.length + 17 + 1) = model := by
    rw [hshape', ← hpre']; simp
  have hp1 : parseUnsigned 16 UInt64.size hash = some k.prefixHash.toNat :=
    parseUnsigned_printPadded (by norm_num) (by norm_num) k.prefixHash.toNat_lt_size
  have hp2 : parseUnsigned 10 UInt32.size len = some k.prefixLen.toNat :=
    parseUnsigned_print (by norm_num) (by norm_num) k.prefixLen.toNat_lt_size
  have hp3 : parseUnsigned 10 UInt32.size model = some k.modelFingerprint.toNat :=
    parseUnsigned_print (by norm_num) (by norm_num) k.modelFingerprint.toNat_lt_size
  simp [fromString, hfirst, hsecond, hthird, htake, hmid, hlast, hp1, hp2, hp3]

/-- No two keys share a text. -/
theorem toBytes_injective : Function.Injective toBytes := by
  intro a b h
  have ha := fromString_toBytes a
  rw [h, fromString_toBytes b] at ha
  exact (Except.ok.inj ha).symm

/-- A string that is not accepted is reported as corrupt. -/
theorem fromString_error {s : Bytes} {e : Status} (h : fromString s = .error e) :
    e.code = .corruption := by
  simp only [fromString] at h
  repeat' split at h
  all_goals first
    | (simp only [Except.error.injEq] at h; subst h; rfl)
    | simp at h

/-! ### The buffer of the formatter -/

/-- Sixteen digits, two separators and two numbers of at most ten digits. -/
theorem length_toBytes_le (k : BlockKey) : k.toBytes.length ≤ 38 := by
  have hhash : (printPadded 16 16 k.prefixHash.toNat).length = 16 :=
    length_printPadded (by norm_num) (by norm_num) (by simpa using k.prefixHash.toNat_lt)
  have hlen : (print 10 k.prefixLen.toNat).length ≤ 10 :=
    length_print_le (by norm_num) (by norm_num) (lt_trans k.prefixLen.toNat_lt (by norm_num))
  have hmodel : (print 10 k.modelFingerprint.toNat).length ≤ 10 :=
    length_print_le (by norm_num) (by norm_num) (lt_trans k.modelFingerprint.toNat_lt (by norm_num))
  simp only [toBytes, List.length_append, List.length_cons]
  omega

/-- EXACT FORMAT: a string is accepted as `k` iff it is the text of `k`, every other string is corrupt, the
    text and its terminator fit the buffer of 48 bytes, and no other key has it. -/
theorem key_text_exact (k : BlockKey) (s : Bytes) :
    (fromString s = .ok k ↔ s = k.toBytes) ∧
    ((∀ k' : BlockKey, s ≠ k'.toBytes) → ∃ e, fromString s = .error e ∧ e.code = .corruption) ∧
    k.toBytes.length + 1 ≤ 48 ∧ ∀ k' : BlockKey, k'.toBytes = k.toBytes → k' = k := by
  refine ⟨⟨?_, ?_⟩, ?_, ?_, ?_⟩
  · intro h
    exact (toBytes_of_fromString h).symm
  · rintro rfl
    exact fromString_toBytes k
  · intro hno
    cases hs : fromString s with
    | error e => exact ⟨e, rfl, fromString_error hs⟩
    | ok k' => exact absurd (toBytes_of_fromString hs).symm (hno k')
  · have := length_toBytes_le k
    omega
  · intro k' h
    exact toBytes_injective h

/-! ### Keys of token prefixes -/

/-- `TokenId` is an `int32_t`. -/
abbrev TokenId := Int32

/-- The bytes of a token in the order they are hashed: `(t >> (b * 8)) & 0xff`. -/
def tokenBytes (token : TokenId) : Bytes :=
  (List.range 4).map fun b => ((token.toUInt32 >>> UInt32.ofNat (b * 8)) &&& 0xff).toUInt8

/-- The hash loop, from the state `h`. -/
def hashTokens (h : UInt64) (tokens : List TokenId) : UInt64 :=
  tokens.foldl (fun h token => Fnv.absorbAll h (tokenBytes token)) h

/-- `BlockKey::FromTokenPrefix`. -/
def fromTokenPrefix (tokens : List TokenId) (prefixLen modelFingerprint : UInt32) : BlockKey :=
  let n := if prefixLen.toNat < tokens.length then prefixLen else UInt32.ofNat tokens.length
  ⟨hashTokens 1469598103934665603 (tokens.take n.toNat), n, modelFingerprint⟩

/-- The tokens a key stands for. -/
def covered (tokens : List TokenId) (prefixLen : UInt32) : List TokenId :=
  tokens.take (min prefixLen.toNat tokens.length)

/-- The cast of the size is exact: it is only taken when it is at most `prefix_len`. -/
theorem fromTokenPrefix_eq (tokens : List TokenId) (prefixLen modelFingerprint : UInt32) :
    fromTokenPrefix tokens prefixLen modelFingerprint =
      ⟨hashTokens 1469598103934665603 (covered tokens prefixLen),
      UInt32.ofNat (covered tokens prefixLen).length,
        modelFingerprint⟩ := by
  have hlen : (covered tokens prefixLen).length = min prefixLen.toNat tokens.length := by simp [covered]
  have hcount : (if prefixLen.toNat < tokens.length then prefixLen else UInt32.ofNat tokens.length) =
      UInt32.ofNat (min prefixLen.toNat tokens.length) := by
    by_cases hshort : prefixLen.toNat < tokens.length
    · rw [if_pos hshort, Nat.min_eq_left hshort.le, UInt32.ofNat_toNat]
    · rw [if_neg hshort, Nat.min_eq_right (not_lt.mp hshort)]
  have hsize : (UInt32.ofNat (min prefixLen.toNat tokens.length)).toNat = min prefixLen.toNat tokens.length :=
    UInt32.toNat_ofNat_of_lt' (lt_of_le_of_lt (min_le_left _ _) prefixLen.toNat_lt_size)
  simp only [fromTokenPrefix, hcount, hsize, hlen]
  rfl

theorem toNat_tokenByte (t : UInt32) {b : ℕ} (hb : b < 4) :
    ((t >>> UInt32.ofNat (b * 8)) &&& 0xff).toUInt8.toNat = t.toNat / 2 ^ (b * 8) % 256 := by
  have hshift : (UInt32.ofNat (b * 8)).toNat % 32 = b * 8 := by
    rw [UInt32.toNat_ofNat']
    omega
  have hmask : ∀ n : ℕ, n &&& 255 = n % 256 := fun n => Nat.and_two_pow_sub_one_eq_mod n 8
  rw [UInt32.toNat_toUInt8, UInt32.toNat_and, UInt32.toNat_shiftRight, hshift, Nat.shiftRight_eq_div_pow]
  exact (congrArg (· % 2 ^ 8) (hmask _)).trans (Nat.mod_mod _ _)

/-- One token from one state: its four bytes spell it. -/
theorem hashToken_injective {h : UInt64} {s t : TokenId}
    (heq : Fnv.absorbAll h (tokenBytes s) = Fnv.absorbAll h (tokenBytes t)) : s = t := by
  obtain ⟨h₀, h₁, h₂, h₃⟩ := Fnv.absorb_four_injective heq
  have hbyte : ∀ {b : ℕ}, b < 4 → ((s.toUInt32 >>> UInt32.ofNat (b * 8)) &&& 0xff).toUInt8 =
      ((t.toUInt32 >>> UInt32.ofNat (b * 8)) &&& 0xff).toUInt8 →
        s.toUInt32.toNat / 2 ^ (b * 8) % 256 = t.toUInt32.toNat / 2 ^ (b * 8) % 256 := by
    intro b hb heq
    rw [← toNat_tokenByte _ hb, ← toNat_tokenByte _ hb, heq]
  have hb₀ := hbyte (b := 0) (by decide) h₀
  have hb₁ := hbyte (b := 1) (by decide) h₁
  have hb₂ := hbyte (b := 2) (by decide) h₂
  have hb₃ := hbyte (b := 3) (by decide) h₃
  have hs := s.toUInt32.toNat_lt
  have ht := t.toUInt32.toNat_lt
  have hword : s.toUInt32 = t.toUInt32 := UInt32.toNat_inj.mp (by omega)
  cases s
  cases t
  exact congrArg Int32.ofUInt32 hword

theorem hashTokens_injective (tokens : List TokenId) : Function.Injective fun h => hashTokens h tokens := by
  induction tokens with
  | nil => exact fun _ _ h => h
  | cons token tokens ih => exact fun _ _ h => Fnv.absorbAll_injective (tokenBytes token) (ih h)

/-- Two token lists of one length that differ in one place. -/
def DifferOnce (xs ys : List TokenId) : Prop :=
  ∃ before s t after, s ≠ t ∧ xs = before ++ s :: after ∧ ys = before ++ t :: after

theorem hashTokens_differOnce {xs ys : List TokenId} (h : DifferOnce xs ys) (start : UInt64) :
    hashTokens start xs ≠ hashTokens start ys := by
  obtain ⟨before, s, t, after, hne, rfl, rfl⟩ := h
  intro heq
  simp only [hashTokens, List.foldl_append, List.foldl_cons] at heq
  exact hne (hashToken_injective (hashTokens_injective after heq))

/-- SEPARATED: covered prefixes that differ in one token have different hashes, and keys of equal covered
    prefixes are equal whatever follows them. -/
theorem prefix_keys_separate (modelFingerprint : UInt32) (tokens tokens' : List TokenId)
    (prefixLen prefixLen' : UInt32) :
    (DifferOnce (covered tokens prefixLen) (covered tokens' prefixLen') →
      (fromTokenPrefix tokens prefixLen modelFingerprint).prefixHash ≠
        (fromTokenPrefix tokens' prefixLen' modelFingerprint).prefixHash) ∧
    (covered tokens prefixLen = covered tokens' prefixLen' →
      fromTokenPrefix tokens prefixLen modelFingerprint =
      fromTokenPrefix tokens' prefixLen' modelFingerprint) := by
  rw [fromTokenPrefix_eq, fromTokenPrefix_eq]
  refine ⟨fun h => hashTokens_differOnce h _, fun h => ?_⟩
  rw [h]

end BlockKey

end TidePool
