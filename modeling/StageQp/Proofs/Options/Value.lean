import Mathlib.Algebra.Order.Field.Rat
import Mathlib.Tactic.FieldSimp
import Mathlib.Tactic.Linarith
import Mathlib.Tactic.NormNum
import Mathlib.Tactic.Positivity
import StageQp.Options.Value

/-!
# StageQp.Proofs.Options.Value

The number that an option value denotes, and what becomes of it where a non-negative
integer is expected.  A value is accepted exactly if it denotes a natural number
(`toWord_eq_ok_iff`), and the word is that number as long as it is one of a word; a
float past the largest word is accepted all the same, and gives the largest word.

A word that is made a value denotes itself in the lower half of its range only: in the
upper half it denotes a negative integer, and is not accepted (`toWord_ofWord`).
-/

namespace StageQp

namespace Binary64

/-- The number that a finite value denotes: the fraction in units of the last place,
and in front of it the leading bit, unless the exponent is the least. -/
def value (x : Binary64) : ℚ :=
  let magnitude : ℚ :=
    if x.exponentBits = 0 then x.fractionBits * 2 ^ (-1074 : ℤ)
    else (2 ^ 52 + x.fractionBits) * 2 ^ ((x.exponentBits : ℤ) - 1075)
  if x.isNegative then -magnitude else magnitude

/-- The exact form of a value denotes its magnitude. -/
theorem value_eq (x : Binary64) : x.value =
    if x.isNegative then -((x.significand : ℚ) * (2 : ℚ) ^ x.scale)
    else (x.significand : ℚ) * (2 : ℚ) ^ x.scale := by
  by_cases h : x.exponentBits = 0
  · simp [value, significand, scale, h]
  · have hlead : ((2 ^ 52 + x.fractionBits : Nat) : ℚ) = 2 ^ 52 + x.fractionBits := by norm_cast
    rw [value, significand, scale, if_neg h, if_neg h, if_neg h, hlead]

/-- So many times a fraction of a unit is a natural number only if it is so many units. -/
theorem mul_zpow_neg_eq_iff (m n k : Nat) :
    (m : ℚ) * (2 : ℚ) ^ (-(k : ℤ)) = n ↔ m % 2 ^ k = 0 ∧ m / 2 ^ k = n := by
  have hunit : (2 : ℚ) ^ k ≠ 0 := by positivity
  rw [zpow_neg, zpow_natCast, mul_inv_eq_iff_eq_mul₀ hunit]
  constructor
  · intro h
    have hm : m = n * 2 ^ k := by exact_mod_cast h
    rw [hm]
    exact ⟨Nat.mul_mod_left _ _, Nat.mul_div_cancel _ (Nat.two_pow_pos k)⟩
  · rintro ⟨hmod, rfl⟩
    have hm := Nat.div_mul_cancel (Nat.dvd_of_mod_eq_zero hmod)
    exact_mod_cast hm.symm

/-- A natural number is read off a value exactly if the value denotes it. -/
theorem toNat?_eq_some_iff {x : Binary64} {n : Nat} :
    x.toNat? = some n ↔ x.isFinite = true ∧ x.value = n := by
  by_cases hfinite : x.isFinite = true
  swap
  · simp [toNat?, hfinite]
  rw [value_eq]
  by_cases hzero : x.significand = 0
  · have hn : (0 : ℚ) = n ↔ 0 = n := by norm_cast
    simp [toNat?, hfinite, hzero, hn]
  have hpos : (0 : ℚ) < (x.significand : ℚ) * (2 : ℚ) ^ x.scale := by
    have hsignificand : (0 : ℚ) < x.significand := by exact_mod_cast Nat.pos_of_ne_zero hzero
    exact mul_pos hsignificand (zpow_pos (by norm_num) _)
  by_cases hneg : x.isNegative = true
  · have hread : x.toNat? = none := by simp [toNat?, hzero, hneg]
    have hne : -((x.significand : ℚ) * (2 : ℚ) ^ x.scale) ≠ n := by
      have : (0 : ℚ) ≤ n := Nat.cast_nonneg n
      linarith
    simp [hread, hneg, hne]
  rw [if_neg hneg]
  by_cases hscale : 0 ≤ x.scale
  · obtain ⟨k, hk⟩ := Int.eq_ofNat_of_zero_le hscale
    have hread : x.toNat? = some (x.significand * 2 ^ k) := by
      simp [toNat?, hfinite, hzero, hneg, hk]
    rw [hread, hk, zpow_natCast, Option.some_inj]
    norm_cast
    exact (and_iff_right hfinite).symm
  · obtain ⟨k, hk⟩ := Int.eq_ofNat_of_zero_le (show 0 ≤ -x.scale by omega)
    have hk' : x.scale = -(k : ℤ) := by omega
    have hread : x.toNat? =
        if x.significand % 2 ^ k = 0 then some (x.significand / 2 ^ k) else none := by
      simp [toNat?, hfinite, hzero, hneg, hscale, hk]
    rw [hread, hk', mul_zpow_neg_eq_iff]
    by_cases hmod : x.significand % 2 ^ k = 0 <;> simp [hmod, hfinite]

end Binary64

namespace OptionValue

/-! ## The number that a value denotes -/

/-- The number that a value denotes, if it denotes one. -/
def number? : OptionValue → Option ℚ
  | int i => some i.toInt
  | float x => if x.isFinite then some x.value else none
  | bool _ => none

/-- The value denotes a natural number. -/
def Denotes (value : OptionValue) (n : Nat) : Prop := value.number? = some (n : ℚ)

def largestWord : Nat := 2 ^ 64 - 1

/-- What saturates at the largest word is a word. -/
theorem min_largestWord_lt (n : Nat) : min n largestWord < 2 ^ 64 :=
  Nat.lt_of_le_of_lt (Nat.min_le_right _ _) (by decide)

section Reading

variable {key : String} {value : OptionValue}

/-- An integer denotes itself, if it is not negative. -/
theorem denotes_int_iff {i : Int64} {n : Nat} : (int i).Denotes n ↔ i.toInt = n := by
  simp only [Denotes, number?, Option.some_inj]
  norm_cast

/-- A double denotes the whole number that it is. -/
theorem denotes_float_iff {x : Binary64} {n : Nat} : (float x).Denotes n ↔ x.toNat? = some n := by
  rw [Binary64.toNat?_eq_some_iff]
  by_cases h : x.isFinite = true <;> simp [Denotes, number?, h]

/-! ## Non-negative integers -/

/-- A value that denotes a natural number is accepted, as that number or the largest word. -/
theorem Denotes.toWord_eq {n : Nat} (h : value.Denotes n) (key : String) :
    value.toWord key = .ok (UInt64.ofNat (min n largestWord)) := by
  cases value with
  | int i =>
      rw [denotes_int_iff] at h
      have hle : 0 ≤ i := Int64.le_iff_toInt_le.2 (by rw [h]; exact Int.natCast_nonneg n)
      have hword : i.toUInt64.toNat = n := by
        rw [Int64.toNat_toUInt64_of_le hle, Int64.toNatClampNeg, h, Int.toNat_natCast]
      have hlt := i.toUInt64.toNat_lt
      rw [toWord, if_pos hle, Nat.min_eq_left (by unfold largestWord; omega), ← hword,
        UInt64.ofNat_toNat]
  | float x =>
      rw [toWord, denotes_float_iff.1 h]
      rfl
  | bool b => cases h

/-- Any other value is refused. -/
theorem toWord_of_not_denotes (h : ∀ n, ¬value.Denotes n) (key : String) :
    value.toWord key = .error (.optionType key .nonNegativeInteger) := by
  cases value with
  | int i =>
      have hneg : ¬0 ≤ i := by
        intro hle
        obtain ⟨n, hn⟩ := Int.eq_ofNat_of_zero_le (Int64.le_iff_toInt_le.1 hle)
        exact h n (denotes_int_iff.2 hn)
      rw [toWord, if_neg hneg]
  | float x =>
      have hnone : x.toNat? = none := by
        refine Option.eq_none_iff_forall_ne_some.2 fun n hn => ?_
        exact h n (denotes_float_iff.2 hn)
      rw [toWord, hnone]
  | bool b => rfl

/-- A value is accepted exactly if it denotes a number, as that number or the largest word. -/
theorem toWord_eq_ok_iff {word : UInt64} : value.toWord key = .ok word ↔
    ∃ n, value.Denotes n ∧ word.toNat = min n largestWord := by
  constructor
  · intro h
    by_cases hn : ∃ n, value.Denotes n
    · obtain ⟨n, hn⟩ := hn
      rw [hn.toWord_eq key, Except.ok.injEq] at h
      refine ⟨n, hn, ?_⟩
      rw [← h, UInt64.toNat_ofNat_of_lt' (min_largestWord_lt n)]
    · rw [toWord_of_not_denotes (not_exists.1 hn)] at h
      cases h
  · rintro ⟨n, hn, hword⟩
    rw [hn.toWord_eq key, ← hword, UInt64.ofNat_toNat]

/-- A value is refused exactly if it denotes no number. -/
theorem toWord_eq_error_iff {f : Fault} : value.toWord key = .error f ↔
    (∀ n, ¬value.Denotes n) ∧ f = .optionType key .nonNegativeInteger := by
  constructor
  · intro h
    have hnone : ∀ n, ¬value.Denotes n := by
      intro n hn
      rw [hn.toWord_eq key] at h
      cases h
    rw [toWord_of_not_denotes hnone] at h
    exact ⟨hnone, (Except.error.inj h).symm⟩
  · rintro ⟨hnone, rfl⟩
    exact toWord_of_not_denotes hnone key

/-! ## Words as values -/

/-- From `2 ^ 63` on, a word turns negative as a signed one. -/
theorem toInt_toInt64 (word : UInt64) : word.toInt64.toInt =
    if word.toNat < 2 ^ 63 then (word.toNat : Int) else word.toNat - 2 ^ 64 := by
  show word.toBitVec.toInt = _
  rw [BitVec.toInt_eq_toNat_cond, UInt64.toNat_toBitVec]
  split <;> split <;> omega

/-- A word made a value denotes itself in the lower half of its range, and a negative
integer in the upper. -/
theorem denotes_ofWord_iff {word : UInt64} {n : Nat} :
    (ofWord word).Denotes n ↔ word.toNat = n ∧ n < 2 ^ 63 := by
  have hlt := word.toNat_lt
  rw [ofWord, denotes_int_iff, toInt_toInt64]
  split <;> omega

/-- A word made a value is read back below `2 ^ 63` and refused from there on. -/
theorem toWord_ofWord (key : String) (word : UInt64) : (ofWord word).toWord key =
    if word.toNat < 2 ^ 63 then .ok word
    else .error (.optionType key .nonNegativeInteger) := by
  by_cases h : word.toNat < 2 ^ 63
  · have hlt : word.toNat ≤ largestWord := by unfold largestWord; omega
    rw [if_pos h, toWord_eq_ok_iff]
    exact ⟨word.toNat, denotes_ofWord_iff.2 ⟨rfl, h⟩, (Nat.min_eq_left hlt).symm⟩
  · rw [if_neg h]
    refine toWord_of_not_denotes (fun n hn => ?_) key
    obtain ⟨rfl, hn⟩ := denotes_ofWord_iff.1 hn
    exact h hn

end Reading

end OptionValue

end StageQp
