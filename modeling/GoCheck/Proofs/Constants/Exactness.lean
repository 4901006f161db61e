import GoCheck.Constant.Basic
import GoCheck.Proofs.Number.Rounding

/-!
# Exactness of the nearest double

A real constant comes with a mark that says whether its nearest double is its value. The mark is
right but for the largest 64-bit integer, whose double is the power of two above it.
-/

namespace GoCheck

open Number BinaryFormat Double Option

variable {i : Int}

/-- An integer that `bits` bits and a power of two make up. -/
def SignificantBits (bits : Nat) (i : Int) : Prop :=
  ∃ m k, m < 2 ^ bits ∧ i.natAbs = m * 2 ^ k

namespace Number.Double

lemma leadingWord_of_lt (h : n < 2 ^ 64) : leadingWord n = (n, 0) := by
  have hlog : n.log2 + 1 - 64 = 0 := by
    by_cases hn : n = 0
    · subst hn
      rfl
    · have := (Nat.log2_lt hn).mpr h
      omega
  have hlow : anyLowBits (n.log2 % 64 + 1) 0 = false := by
    rw [anyLowBits]
    rfl
  rw [leadingWord]
  simp only [hlog, twoPow_eq, pow_zero, Nat.div_one, Nat.mod_one, hlow]
  rfl

lemma ofInt_of_lt (h : i.natAbs < 2 ^ 64) : ofInt i = ofRat i := by
  have hsign := Int.sign_mul_natAbs i
  rw [ofInt, leadingWord_of_lt h]
  dsimp only
  rw [twoPow_eq, pow_zero, mul_one]
  congr 1
  rw [← Int.cast_natCast, ← Int.cast_mul, hsign]

/-- The integers of the range that are doubles are those of at most 53 bits. -/
lemma holds_int_iff (hi : |i| ≤ 2 ^ k) (hk : k ≤ 1000) :
    double.Holds i ↔ SignificantBits 53 i := by
  have habs : |(i : ℚ)| = (i.natAbs : ℚ) := by rw [Nat.cast_natAbs, Int.cast_abs]
  have hlimit : |(i : ℚ)| < 2 ^ double.limit := by
    have hle : |(i : ℚ)| ≤ 2 ^ (k : Int) := by exact_mod_cast hi
    have h1024 : double.limit = 1024 := rfl
    exact hle.trans_lt (zpow_lt_zpow_right₀ one_lt_two (by omega))
  constructor
  · rintro ⟨m, e, hm, -, hvalue, -⟩
    rw [habs] at hvalue
    by_cases he : 0 ≤ e
    · refine ⟨m, e.toNat, hm, ?_⟩
      rw [← cast_twoPow_toNat he, twoPow_eq] at hvalue
      exact_mod_cast hvalue
    · -- In a unit below one the number is below its significand.
      have hunit : (2 : ℚ) ^ e ≤ 1 := zpow_le_one_of_nonpos₀ one_le_two (by omega)
      have hle := hvalue ▸ mul_le_of_le_one_right m.cast_nonneg hunit
      exact ⟨i.natAbs, 0, lt_of_le_of_lt (by exact_mod_cast hle) hm, (mul_one _).symm⟩
  · rintro ⟨m, k, hm, hvalue⟩
    have hmin : double.minExponent = -1074 := rfl
    refine ⟨m, k, hm, by omega, ?_, hlimit⟩
    rw [habs, hvalue, Nat.cast_mul, Nat.cast_pow, zpow_natCast, Nat.cast_ofNat]

end Number.Double

namespace Constant

variable (i : Int64)

lemma abs_toInt_le : |i.toInt| ≤ 2 ^ 63 := by
  have hlt := i.toInt_lt
  have hge := i.le_toInt
  rw [abs_le]
  constructor <;> omega

lemma natAbs_toInt_lt : i.toInt.natAbs < 2 ^ 64 := by
  have := abs_le.mp (abs_toInt_le i)
  omega

/-- Converting back gives an integer again exactly if its double is equal, or for the largest
one. -/
lemma toInt64Clamped_ofInt_iff : (Double.ofInt i.toInt).toInt64Clamped = i.toInt ↔
      i = Int64.maxValue ∨ (Double.ofInt i.toInt).toRat? = some (i.toInt : ℚ) := by
  by_cases hmax : i = Int64.maxValue
  · subst hmax
    exact iff_of_true (by decide +kernel) (.inl rfl)
  have hlt : i.toInt ≠ 2 ^ 63 - 1 := fun h => hmax (Int64.toInt.inj (h.trans (by decide)))
  have h63 : twoPow 63 = 2 ^ 63 := rfl
  have hrange := abs_toInt_le i
  rw [Double.ofInt_of_lt (natAbs_toInt_lt i)]
  obtain ⟨z, hz, hbound⟩ := Double.exists_toRat?_ofRat_int hrange (by decide)
  have hclamp : (Double.ofRat i.toInt).toInt64Clamped = max (-2 ^ 63) (min (2 ^ 63 - 1) z) := by
    simp only [Double.toInt64Clamped, Double.isNaN_ofRat, hz]
    simp [h63]
  rw [hclamp, hz, or_iff_right hmax, some_inj, Int.cast_inj]
  rw [abs_le] at hbound hrange
  -- Only the power of two above the range is moved, and it is moved to the largest integer.
  have hupper := i.toInt_lt
  constructor <;> intro h <;> omega

/-- The mark of an exact real constant is set exactly if its nearest double is its value, large
integers apart, and for the largest 64-bit integer; so below that for those of at most 53
significant bits. -/
theorem float64_exact_iff {v : Constant} {q : Rat} (h : v.exactRat? = some q) :
    (v.float64.2 = true ↔
      v = small Int64.maxValue ∨ (∀ i, v ≠ big i) ∧ v.float64.1.toRat? = some q) ∧
    ∀ i, v = small i →
      (v.float64.2 = true ↔ i = Int64.maxValue ∨ SignificantBits 53 i.toInt) := by
  cases v with
  | small i =>
    obtain rfl := some.inj h
    have hmark : (small i).float64.2 = true ↔
        i = Int64.maxValue ∨ (small i).float64.1.toRat? = some (i.toInt : ℚ) :=
      decide_eq_true_iff.trans (toInt64Clamped_ofInt_iff i)
    refine ⟨by simpa using hmark, ?_⟩
    rintro _ ⟨⟩
    have hdouble : (small i).float64.1 = Double.ofRat i.toInt :=
      Double.ofInt_of_lt (natAbs_toInt_lt i)
    rw [hmark, hdouble, Double.toRat?_ofRat_self_iff,
      Double.holds_int_iff (abs_toInt_le i) (by decide)]
  | big i => simp [float64]
  | ratio r =>
    obtain rfl := some.inj h
    simp [float64]
  | _ => cases h

/-- The least 64-bit integer is a double. -/
theorem float64_exact_minValue :
    (small Int64.minValue).exactRat? = some (-2 ^ 63) ∧ (small Int64.minValue).float64.2 = true ∧
      SignificantBits 53 Int64.minValue.toInt := by
  have hvalue : (small Int64.minValue).exactRat? = some (-2 ^ 63) := by decide +kernel
  have hmark : (small Int64.minValue).float64.2 = true := by decide +kernel
  refine ⟨hvalue, hmark, ?_⟩
  exact (((float64_exact_iff hvalue).2 _ rfl).mp hmark).resolve_left (by decide)

/-- The largest 64-bit integer is marked as exact, but its double is one more. -/
theorem float64_maxValue : (small Int64.maxValue).float64.2 = true ∧
      (small Int64.maxValue).float64.1.toRat? = some (2 ^ 63) ∧
      (small Int64.maxValue).exactRat? = some (2 ^ 63 - 1) := by
  decide +kernel

end Constant

end GoCheck
