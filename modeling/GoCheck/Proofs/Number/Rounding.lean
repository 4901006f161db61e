import GoCheck.Number.Basic
import Mathlib.Algebra.Order.Field.Power
import Mathlib.Data.Nat.Log
import Mathlib.Tactic.FieldSimp
import Mathlib.Tactic.Linarith
import Mathlib.Tactic.Positivity
import Mathlib.Tactic.Ring

/-!
# Rounding to a binary format

Rounding a quotient does not carry it past a number of the format. So what single precision can hold
stays within its range when it is taken to double precision and back. A rational is too large
exactly from halfway between the largest number of the format and the power of two above it.
-/

namespace GoCheck.Number

open Nat BinaryFormat

variable {e limit i : Int} {num den m : Nat} {f : BinaryFormat} {q : Rat} {x : Double}

lemma twoPow_eq (e : Nat) : twoPow e = 2 ^ e := rfl

lemma twoPow_52 : twoPow 52 = 4503599627370496 := rfl

lemma twoPow_63 : twoPow 63 = 9223372036854775808 := rfl

lemma twoPow_pos (e : Nat) : 0 < twoPow e := Nat.two_pow_pos e

lemma cast_twoPow_toNat (h : 0 ≤ e) : (twoPow e.toNat : ℚ) = 2 ^ e := by
  rw [twoPow_eq, cast_pow, ← zpow_natCast, Int.toNat_of_nonneg h, cast_ofNat]

lemma zpow_mul_twoPow (h : ¬0 ≤ e) : (2 : ℚ) ^ e * twoPow (-e).toNat = 1 := by
  rw [cast_twoPow_toNat (by omega), ← zpow_add₀ two_ne_zero, add_neg_cancel, zpow_zero]

lemma cast_twoPow_pos (e : Nat) : (0 : ℚ) < twoPow e := by exact_mod_cast twoPow_pos e

lemma twoPowLe_iff (hden : 0 < den) :
    twoPowLe k num den ↔ (2 : ℚ) ^ k ≤ num / den := by
  have hd : (0 : ℚ) < den := by exact_mod_cast hden
  rw [le_div_iff₀ hd]
  unfold twoPowLe
  split
  · rename_i hk
    rw [decide_eq_true_iff, ← cast_twoPow_toNat hk, mul_comm]
    exact_mod_cast Iff.rfl
  · rename_i hk
    have hneg := eq_inv_of_mul_eq_one_left (zpow_mul_twoPow hk)
    rw [decide_eq_true_iff, hneg, inv_mul_le_iff₀ (cast_twoPow_pos _), mul_comm]
    exact_mod_cast Iff.rfl

section

variable (hnum : 0 < num) (hden : 0 < den)
include hnum hden

/-- The bit lengths of numerator and denominator leave two candidates. -/
lemma log2_bounds : (2 : ℚ) ^ ((num.log2 : Int) - den.log2 - 1) < num / den ∧
      (num / den : ℚ) < 2 ^ ((num.log2 : Int) - den.log2 + 1) := by
  have hd : (0 : ℚ) < den := by exact_mod_cast hden
  have hnl : ((2 : ℚ) ^ (num.log2 : Int)) ≤ num := by
    exact_mod_cast log2_self_le (pos_iff_ne_zero.mp hnum)
  have hnu : (num : ℚ) < 2 ^ ((num.log2 : Int) + 1) := by exact_mod_cast lt_log2_self
  have hdl : ((2 : ℚ) ^ (den.log2 : Int)) ≤ den := by
    exact_mod_cast log2_self_le (pos_iff_ne_zero.mp hden)
  have hdu : (den : ℚ) < 2 ^ ((den.log2 : Int) + 1) := by exact_mod_cast lt_log2_self
  constructor
  · rw [lt_div_iff₀ hd]
    calc (2 : ℚ) ^ ((num.log2 : Int) - den.log2 - 1) * den
        < 2 ^ ((num.log2 : Int) - den.log2 - 1) * 2 ^ ((den.log2 : Int) + 1) := by gcongr
      _ = 2 ^ (num.log2 : Int) := by rw [← zpow_add₀ two_ne_zero]; congr 1; ring
      _ ≤ num := hnl
  · rw [div_lt_iff₀ hd]
    calc (num : ℚ) < 2 ^ ((num.log2 : Int) + 1) := hnu
      _ = 2 ^ ((num.log2 : Int) - den.log2 + 1) * 2 ^ (den.log2 : Int) := by
        rw [← zpow_add₀ two_ne_zero]; congr 1; ring
      _ ≤ 2 ^ ((num.log2 : Int) - den.log2 + 1) * den := by gcongr

lemma log2Quotient_le : (2 : ℚ) ^ log2Quotient num den ≤ num / den := by
  unfold log2Quotient
  dsimp only
  split
  · rename_i h
    exact (twoPowLe_iff hden).mp h
  · exact (log2_bounds hnum hden).1.le

lemma lt_log2Quotient : (num / den : ℚ) < 2 ^ (log2Quotient num den + 1) := by
  unfold log2Quotient
  dsimp only
  split
  · exact (log2_bounds hnum hden).2
  · rename_i h
    rw [sub_add_cancel]
    exact lt_of_not_ge fun hle => h ((twoPowLe_iff hden).mpr hle)

lemma log2Quotient_lt (h : (num / den : ℚ) < 2 ^ j) : log2Quotient num den < j :=
  (zpow_lt_zpow_iff_right₀ one_lt_two).mp ((log2Quotient_le hnum hden).trans_lt h)

end

lemma roundDiv_le (hden : 0 < den) (h : num ≤ n * den) : roundDiv num den ≤ n := by
  have hq : num / den ≤ n := (div_le_iff_le_mul hden).mpr (by omega)
  -- A quotient that is rounded up is no integer, hence below the bound.
  have hup : 0 < num % den → num / den + 1 ≤ n := by
    intro hr
    by_contra hlt
    have hge : n * den ≤ num / den * den := mul_le_mul_right den (by omega)
    have := div_add_mod' num den
    omega
  unfold roundDiv
  dsimp only
  split
  · exact hq
  · split
    · exact hup (by omega)
    · split
      · exact hq
      · exact hup (by omega)

lemma le_roundDiv (hden : 0 < den) (h : n * den ≤ num) : n ≤ roundDiv num den := by
  have hq : n ≤ num / den := (le_div_iff_mul_le hden).mpr h
  unfold roundDiv
  dsimp only
  split
  · exact hq
  · split
    · omega
    · split <;> omega

section

variable {n : Nat} (hden : 0 < den)
include hden

lemma roundToUnit_le (h : (num / den : ℚ) ≤ n * 2 ^ e) : roundToUnit e num den ≤ n := by
  have hd : (0 : ℚ) < den := by exact_mod_cast hden
  rw [div_le_iff₀ hd] at h
  unfold roundToUnit
  split
  · rename_i he
    rw [← cast_twoPow_toNat he] at h
    refine roundDiv_le (mul_pos hden (twoPow_pos _)) ?_
    have hle : (num : ℚ) ≤ n * (den * twoPow e.toNat) := by linarith
    exact_mod_cast hle
  · rename_i he
    have hpos := cast_twoPow_pos (-e).toNat
    refine roundDiv_le hden ?_
    have hle : (num : ℚ) * twoPow (-e).toNat ≤ n * den := by
      calc (num : ℚ) * twoPow (-e).toNat ≤ n * 2 ^ e * den * twoPow (-e).toNat := by gcongr
        _ = n * den * (2 ^ e * twoPow (-e).toNat) := by ring
        _ = n * den := by rw [zpow_mul_twoPow he, mul_one]
    exact_mod_cast hle

lemma le_roundToUnit (h : n * 2 ^ e ≤ (num / den : ℚ)) : n ≤ roundToUnit e num den := by
  have hd : (0 : ℚ) < den := by exact_mod_cast hden
  rw [le_div_iff₀ hd] at h
  unfold roundToUnit
  split
  · rename_i he
    rw [← cast_twoPow_toNat he] at h
    refine le_roundDiv (mul_pos hden (twoPow_pos _)) ?_
    have hle : (n : ℚ) * (den * twoPow e.toNat) ≤ num := by linarith
    exact_mod_cast hle
  · rename_i he
    have hpos := cast_twoPow_pos (-e).toNat
    refine le_roundDiv hden ?_
    have hle : (n : ℚ) * den ≤ num * twoPow (-e).toNat := by
      calc (n : ℚ) * den = n * 2 ^ e * den * twoPow (-e).toNat := by
            rw [← mul_one (n * den : ℚ), ← zpow_mul_twoPow he]; ring
        _ ≤ num * twoPow (-e).toNat := by gcongr
    exact_mod_cast hle

end

namespace BinaryFormat

variable {n : Nat}

section

variable (hnum : 0 < num) (hden : 0 < den)
include hnum hden

lemma unitExponent_le (hj : f.minExponent ≤ j) (h : (num / den : ℚ) < 2 ^ (j + f.precision)) :
    f.unitExponent num den ≤ j := by
  have hlog := log2Quotient_lt hnum hden h
  unfold unitExponent
  omega

lemma lt_unitExponent : (num / den : ℚ) < 2 ^ (f.precision : Int) * 2 ^ f.unitExponent num den := by
  refine (lt_log2Quotient hnum hden).trans_le ?_
  rw [← zpow_add₀ two_ne_zero]
  refine zpow_le_zpow_right₀ one_le_two ?_
  unfold unitExponent
  omega

end

lemma round_eq_some (h : f.round num den = some (m, e)) :
    e = f.unitExponent num den ∧ m = roundToUnit e num den ∧ (m : ℚ) * 2 ^ e < 2 ^ f.limit := by
  unfold round at h
  dsimp only at h
  split at h
  · cases h
  · rename_i hlimit
    cases h
    refine ⟨rfl, rfl, ?_⟩
    rw [twoPowLe_iff one_pos, cast_one, div_one, not_le, zpow_sub₀ two_ne_zero] at hlimit
    exact (lt_div_iff₀ (by positivity)).mp hlimit

lemma minExponent_le (h : f.round num den = some (m, e)) : f.minExponent ≤ e := by
  obtain ⟨rfl, -, -⟩ := round_eq_some h
  exact le_max_left _ _

lemma exists_units (h : e ≤ j) (n : Nat) : ∃ k : Nat, (n : ℚ) * 2 ^ j = k * 2 ^ e := by
  obtain ⟨i, rfl⟩ := Int.le.dest h
  refine ⟨n * 2 ^ i, ?_⟩
  rw [zpow_add₀ two_ne_zero, zpow_natCast]
  push_cast
  ring

section

variable (hden : 0 < den) (hj : f.unitExponent num den ≤ j) (h : (num / den : ℚ) ≤ n * 2 ^ j)
include hden hj h

lemma roundToUnit_unitExponent_le :
    (roundToUnit (f.unitExponent num den) num den : ℚ) * 2 ^ f.unitExponent num den ≤
      n * 2 ^ j := by
  obtain ⟨k, hk⟩ := exists_units hj n
  rw [hk] at h ⊢
  have hle := roundToUnit_le hden h
  gcongr

lemma round_le (hround : f.round num den = some (m, e)) : (m : ℚ) * 2 ^ e ≤ n * 2 ^ j := by
  obtain ⟨rfl, rfl, -⟩ := round_eq_some hround
  exact roundToUnit_unitExponent_le hden hj h

lemma exists_round (hlimit : (n : ℚ) * 2 ^ j < 2 ^ f.limit) :
    ∃ m e, f.round num den = some (m, e) := by
  have hbound := (roundToUnit_unitExponent_le hden hj h).trans_lt hlimit
  refine ⟨_, _, if_neg ?_⟩
  rw [twoPowLe_iff one_pos, cast_one, div_one, not_le, zpow_sub₀ two_ne_zero]
  exact (lt_div_iff₀ (by positivity)).mpr hbound

end

section

variable (hnum : 0 < num) (hden : 0 < den) (hround : f.round num den = some (m, e))
include hnum hden hround

lemma significand_le : m ≤ 2 ^ f.precision := by
  obtain ⟨rfl, rfl, -⟩ := round_eq_some hround
  refine roundToUnit_le hden ?_
  exact_mod_cast (lt_unitExponent hnum hden).le

lemma le_significand (he : f.minExponent < e) (hf : 0 < f.precision) :
    2 ^ (f.precision - 1) ≤ m := by
  obtain ⟨rfl, rfl, -⟩ := round_eq_some hround
  refine le_roundToUnit hden ?_
  have hunit : f.unitExponent num den = log2Quotient num den - (f.precision - 1) := by
    unfold unitExponent at he ⊢
    omega
  refine le_trans (le_of_eq ?_) (log2Quotient_le hnum hden)
  rw [hunit, cast_pow, cast_ofNat, ← zpow_natCast, ← zpow_add₀ two_ne_zero]
  congr 1
  omega

end

end BinaryFormat

lemma exponent_lt_of_mul_lt {k : Nat} (hm : twoPow k ≤ m)
    (h : (m : ℚ) * 2 ^ e < 2 ^ limit) : e < limit - k := by
  have hle : (2 : ℚ) ^ (k : Int) ≤ m := by
    rw [twoPow_eq] at hm
    exact_mod_cast hm
  have hlt : (2 : ℚ) ^ (k + e) < 2 ^ limit := by
    rw [zpow_add₀ two_ne_zero]
    exact lt_of_le_of_lt (by gcongr) h
  have := (zpow_lt_zpow_iff_right₀ one_lt_two).mp hlt
  omega

lemma scaledRat_eq (negative : Bool) (m : Nat) (e : Int) :
    scaledRat negative m e = (if negative then -1 else 1) * (m * 2 ^ e : ℚ) := by
  have hsign : ((if negative then -(m : Int) else m : Int) : ℚ) = (if negative then -1 else 1) * m := by
    split <;> simp
  unfold scaledRat
  dsimp only
  split
  · rename_i he
    rw [Int.cast_mul, hsign, ← cast_twoPow_toNat he, Int.cast_natCast, mul_assoc]
  · rename_i he
    rw [Rat.mkRat_eq_div, hsign, div_eq_mul_inv, eq_inv_of_mul_eq_one_left (zpow_mul_twoPow he),
      mul_assoc]

lemma abs_scaledRat (negative : Bool) (m : Nat) (e : Int) :
    |scaledRat negative m e| = (m : ℚ) * 2 ^ e := by
  have hnonneg : (0 : ℚ) ≤ m * 2 ^ e := by positivity
  rw [scaledRat_eq, abs_mul, abs_of_nonneg hnonneg]
  split <;> simp

namespace Double

section

variable (h : m < twoPow 63)
include h

lemma toNat_bits_ofMagnitude : (ofMagnitude n m).bits.toNat = (if n then twoPow 63 else 0) + m := by
  have h63 := twoPow_63
  unfold ofMagnitude
  rw [toUInt64, UInt64.toNat_ofNat']
  refine mod_eq_of_lt ?_
  split <;> omega

lemma exponentField_ofMagnitude : (ofMagnitude n m).exponentField = m / twoPow 52 := by
  have h63 := twoPow_63
  have h52 := twoPow_52
  have h11 : twoPow 11 = 2048 := rfl
  rw [exponentField, toNat_bits_ofMagnitude h, h52, h11]
  split <;> omega

lemma fraction_ofMagnitude : (ofMagnitude n m).fraction = m % twoPow 52 := by
  have h63 := twoPow_63
  have h52 := twoPow_52
  rw [fraction, toNat_bits_ofMagnitude h, h52]
  split <;> omega

end

variable {x : Double}

lemma negative_ofMagnitude (h : m < twoPow 63) : (ofMagnitude n m).negative = n := by
  have h63 := twoPow_63
  rw [negative, toNat_bits_ofMagnitude h]
  rw [h63] at h ⊢
  cases n <;> simp <;> omega

/-- The value of the bits of a finite double. -/
lemma toRat?_ofMagnitude (h : m / twoPow 52 < 2047) : (ofMagnitude n m).toRat? = some (
      if m / twoPow 52 = 0 then scaledRat n (m % twoPow 52) (-1074)
      else scaledRat n (twoPow 52 + m % twoPow 52) (((m / twoPow 52 : Nat) : Int) - 1075)) := by
  have h63 := twoPow_63
  have h52 := twoPow_52
  have hlt : m < twoPow 63 := by
    rw [h52] at h
    omega
  have hfield := exponentField_ofMagnitude (n := n) hlt
  have hfinite : (ofMagnitude n m).isFinite := by
    rw [isFinite, hfield]
    exact decide_eq_true h
  rw [toRat?, if_pos hfinite, significand, exponent, hfield, fraction_ofMagnitude hlt,
    negative_ofMagnitude hlt]
  split <;> rfl

/-- The bits of a significand and exponent that rounding yields stand for their value. -/
lemma toRat?_magnitudeBits {negative : Bool} (hm : m ≤ twoPow 53) (hmin : -1074 ≤ e)
    (hnormal : -1074 < e → twoPow 52 ≤ m) (hmax : (m : ℚ) * 2 ^ e < 2 ^ (1024 : Int)) :
    (ofMagnitude negative (magnitudeBits m e)).toRat? = some (scaledRat negative m e) := by
  have h53 : twoPow 53 = 9007199254740992 := rfl
  have h52 := twoPow_52
  obtain ⟨i, hi⟩ : ∃ i : Nat, e + 1075 = i := ⟨(e + 1075).toNat, by omega⟩
  by_cases hsmall : m < twoPow 52
  · -- A number in the least unit: the exponent field is zero.
    obtain rfl : e = -1074 := by omega
    have hbits : magnitudeBits m (-1074) = m := if_pos hsmall
    have hdiv : m / twoPow 52 = 0 := Nat.div_eq_of_lt hsmall
    rw [hbits, toRat?_ofMagnitude (by rw [hdiv]; decide), if_pos hdiv, Nat.mod_eq_of_lt hsmall]
  · have hbits : magnitudeBits m e = i * twoPow 52 + (m - twoPow 52) := by
      rw [magnitudeBits, if_neg hsmall, hi]
      rfl
    rw [hbits]
    by_cases hcarry : m = twoPow 53
    · -- The significand has carried into the exponent field.
      have hexp := exponent_lt_of_mul_lt hcarry.ge hmax
      have hdiv : (i * twoPow 52 + (m - twoPow 52)) / twoPow 52 = i + 1 := by
        rw [hcarry, h53, h52]
        omega
      have hmod : (i * twoPow 52 + (m - twoPow 52)) % twoPow 52 = 0 := by
        rw [hcarry, h53, h52]
        omega
      have hunit : ((i + 1 : Nat) : Int) - 1075 = e + 1 := by omega
      have hvalue : ((twoPow 52 + 0 : Nat) : ℚ) * 2 ^ (e + 1) = (twoPow 53 : Nat) * 2 ^ e := by
        rw [zpow_add₀ two_ne_zero, h52, h53]
        norm_num
        ring
      rw [toRat?_ofMagnitude (by rw [hdiv]; omega), if_neg (by omega), hdiv, hmod, hunit, hcarry,
        scaledRat_eq, scaledRat_eq, hvalue]
    · have hexp := exponent_lt_of_mul_lt (Nat.le_of_not_lt hsmall) hmax
      have hdiv : (i * twoPow 52 + (m - twoPow 52)) / twoPow 52 = i := by
        rw [h52] at hsmall ⊢
        omega
      have hmod : (i * twoPow 52 + (m - twoPow 52)) % twoPow 52 = m - twoPow 52 := by
        rw [h52] at hsmall ⊢
        omega
      have hunit : (i : Int) - 1075 = e := by omega
      rw [toRat?_ofMagnitude (by rw [hdiv]; omega), if_neg (by omega), hdiv, hmod, hunit,
        Nat.add_sub_cancel' (Nat.le_of_not_lt hsmall)]

lemma toRat?_of_round (hnum : 0 < num) (hden : 0 < den)
    (h : double.round num den = some (m, e)) :
    (ofMagnitude n (magnitudeBits m e)).toRat? = some (scaledRat n m e) := by
  have hm := significand_le hnum hden h
  have hnormal (he : -1074 < e) := le_significand hnum hden h he (by decide)
  rw [← twoPow_eq] at hm
  simp only [← twoPow_eq] at hnormal
  exact toRat?_magnitudeBits hm (minExponent_le h) hnormal
    (round_eq_some h).2.2

lemma isNaN_of_toRat? (h : x.toRat? = some p) : x.isNaN = false := by
  have hfinite : x.isFinite := by
    by_contra hinfinite
    rw [toRat?, if_neg hinfinite] at h
    cases h
  simp only [isFinite, decide_eq_true_eq] at hfinite
  simp only [isNaN, decide_eq_false_iff_not]
  omega

lemma toRat?_zero : zero.toRat? = some 0 := by
  rw [zero, toRat?_ofMagnitude (by decide), if_pos (by decide), scaledRat_eq]
  simp

section

variable (hq : q.num ≠ 0)
include hq

lemma natAbs_num_pos : 0 < q.num.natAbs := Int.natAbs_pos.mpr hq

lemma toRat?_ofRat (h : double.round q.num.natAbs q.den = some (m, e)) :
    (ofRat q).toRat? = some (scaledRat (q.num < 0) m e) := by
  rw [ofRat, if_neg hq, h]
  exact toRat?_of_round (natAbs_num_pos hq) q.den_pos h

lemma isNaN_ofRat_of_ne_zero : (ofRat q).isNaN = false := by
  rw [ofRat, if_neg hq]
  cases hround : double.round q.num.natAbs q.den with
  | none => cases decide (q.num < 0) <;> decide
  | some r => exact isNaN_of_toRat? (toRat?_of_round (natAbs_num_pos hq) q.den_pos hround)

end

lemma isNaN_ofRat (q : Rat) : (ofRat q).isNaN = false := by
  by_cases hq : q.num = 0
  · rw [ofRat, if_pos hq]
    decide
  · exact isNaN_ofRat_of_ne_zero hq

/-- The largest finite number of single precision, `16777215` units of `2 ^ 104`. -/
def maxSingle : ℚ := (16777215 : Nat) * 2 ^ (104 : Int)

lemma maxSingle_lt : maxSingle < 2 ^ (128 : Int) := by
  norm_num [maxSingle]

lemma single_round_le (hnum : 0 < num) (hden : 0 < den)
    (h : single.round num den = some (m, e)) : (m : ℚ) * 2 ^ e ≤ maxSingle := by
  have hlimit : (m : ℚ) * 2 ^ e < 2 ^ (128 : Int) := (round_eq_some h).2.2
  obtain he | he := lt_or_ge e 104
  · -- Below the largest unit the significand alone bounds the number.
    have hm : (m : ℚ) ≤ 2 ^ 24 := by exact_mod_cast significand_le hnum hden h
    have hunit : (2 : ℚ) ^ e ≤ 2 ^ (103 : Int) := zpow_le_zpow_right₀ one_le_two (by omega)
    calc (m : ℚ) * 2 ^ e ≤ 2 ^ 24 * 2 ^ (103 : Int) := by gcongr
      _ ≤ maxSingle := by norm_num [maxSingle]
  · obtain ⟨k, hk⟩ := exists_units he m
    rw [hk] at hlimit ⊢
    have hlt : (k : ℚ) < 16777216 := by
      refine lt_of_mul_lt_mul_right (hlimit.trans_le ?_) (by positivity)
      norm_num
    have hle : k ≤ 16777215 := le_of_lt_succ (by exact_mod_cast hlt)
    unfold maxSingle
    gcongr

lemma abs_eq_natAbs_div (q : Rat) : |q| = (q.num.natAbs / q.den : ℚ) := by
  conv_lhs => rw [← Rat.num_div_den q]
  rw [abs_div, abs_cast, cast_natAbs, Int.cast_abs]

section

variable (hq : q.num ≠ 0) (hle : |q| ≤ maxSingle)
include hq hle

lemma unitExponent_le_of_le_maxSingle (hmin : f.minExponent ≤ 104)
    (hprecision : 24 ≤ f.precision) : f.unitExponent q.num.natAbs q.den ≤ 104 := by
  refine unitExponent_le (natAbs_num_pos hq) q.den_pos hmin ?_
  rw [← abs_eq_natAbs_div]
  refine (hle.trans_lt maxSingle_lt).trans_le (zpow_le_zpow_right₀ one_le_two ?_)
  omega

lemma toRat?_ofRat_of_le_maxSingle : ∃ p, (ofRat q).toRat? = some p ∧ |p| ≤ maxSingle := by
  have hunit := unitExponent_le_of_le_maxSingle (f := .double) hq hle (by decide) (by decide)
  have hle' := abs_eq_natAbs_div q ▸ hle
  obtain ⟨m, e, hround⟩ := exists_round q.den_pos hunit hle'
    (maxSingle_lt.trans_le (zpow_le_zpow_right₀ one_le_two (by decide)))
  refine ⟨_, toRat?_ofRat hq hround, ?_⟩
  rw [abs_scaledRat]
  exact round_le q.den_pos hunit hle' hround

lemma exists_single_round : ∃ m e, single.round q.num.natAbs q.den = some (m, e) :=
  exists_round q.den_pos
    (unitExponent_le_of_le_maxSingle hq hle (by decide) (by decide))
    (abs_eq_natAbs_div q ▸ hle) maxSingle_lt

end

/-- What single precision holds is within its range. -/
lemma abs_le_of_roundToSingle (h : x.roundToSingle = .value q) : |q| ≤ maxSingle := by
  unfold roundToSingle at h
  split at h
  · cases h
  split at h
  · cases h
  rename_i p hp
  split at h
  · cases h
    norm_num [maxSingle]
  rename_i hne
  split at h
  · rename_i m e hround
    cases h
    rw [abs_scaledRat]
    exact single_round_le (natAbs_num_pos hne) p.den_pos hround
  · cases h

lemma roundToSingle_zero : zero.roundToSingle = .value 0 := by
  rw [roundToSingle, isNaN_of_toRat? toRat?_zero, toRat?_zero]
  rfl

lemma roundToSingle_ofRat (h : x.roundToSingle = .value q) :
    ∃ p, (ofRat q).roundToSingle = .value p := by
  by_cases hq : q.num = 0
  · rw [ofRat, if_pos hq]
    exact ⟨0, roundToSingle_zero⟩
  · obtain ⟨p, hp, hle⟩ := toRat?_ofRat_of_le_maxSingle hq (abs_le_of_roundToSingle h)
    rw [roundToSingle, isNaN_ofRat, hp]
    by_cases hzero : p.num = 0
    · exact ⟨0, if_pos hzero⟩
    · obtain ⟨m, e, hround⟩ := exists_single_round hzero hle
      refine ⟨scaledRat (p.num < 0) m e, (if_neg hzero).trans ?_⟩
      rw [hround]

end Double

/-! ## Numbers that a format holds -/

/-- A tie above an odd number goes up. -/
lemma roundDiv_le_iff_of_odd (hden : 0 < den) (hn : n % 2 = 1) :
    roundDiv num den ≤ n ↔ 2 * num < (2 * n + 1) * den := by
  have hsum := (div_add_mod num den).symm
  have hmod : num % den < den := mod_lt _ hden
  have hval : (2 * n + 1) * den = 2 * (den * n) + den := by ring
  generalize num / den = q at hsum
  generalize num % den = r at hsum hmod
  have hq : num / den = q := by rw [hsum, mul_add_div hden, div_eq_of_lt hmod, add_zero]
  have hr : num % den = r := by rw [hsum, mul_add_mod, mod_eq_of_lt hmod]
  -- Only a quotient with the integer part `n` leaves a choice.
  have hbelow : q < n → den * q + den ≤ den * n := fun h =>
    (mul_succ den q).symm.trans_le (mul_le_mul_left den h)
  have habove : n < q → den * n + den ≤ den * q := fun h =>
    (mul_succ den n).symm.trans_le (mul_le_mul_left den h)
  unfold roundDiv
  dsimp only
  rw [hq, hr, hval, hsum]
  rcases lt_trichotomy q n with h | rfl | h
  · have := hbelow h
    split_ifs <;> omega
  · split_ifs <;> omega
  · have := habove h
    split_ifs <;> omega

lemma roundToUnit_le_iff_of_odd (hden : 0 < den) (hn : n % 2 = 1) :
    roundToUnit e num den ≤ n ↔ (num / den : ℚ) < (n + 1 / 2) * 2 ^ e := by
  have hd : (0 : ℚ) < den := by exact_mod_cast hden
  rw [div_lt_iff₀ hd]
  unfold roundToUnit
  split
  · rename_i he
    rw [roundDiv_le_iff_of_odd (mul_pos hden (twoPow_pos _)) hn, ← cast_lt (α := ℚ)]
    push_cast [cast_twoPow_toNat he]
    constructor <;> intro h <;> linarith
  · rename_i he
    have hpos := cast_twoPow_pos (-e).toNat
    have hunit : (n + 1 / 2 : ℚ) * 2 ^ e * den * twoPow (-e).toNat = (n + 1 / 2) * den := by
      calc (n + 1 / 2 : ℚ) * 2 ^ e * den * twoPow (-e).toNat
          = (n + 1 / 2) * den * (2 ^ e * twoPow (-e).toNat) := by ring
        _ = (n + 1 / 2) * den := by rw [zpow_mul_twoPow he, mul_one]
    rw [roundDiv_le_iff_of_odd hden hn, ← cast_lt (α := ℚ),
      ← mul_lt_mul_iff_left₀ (b := (num : ℚ)) hpos, hunit]
    push_cast
    constructor <;> intro h <;> linarith

namespace BinaryFormat

variable {f : BinaryFormat} {num den n : Nat} {e : Int}

/-- The rationals that are numbers of a format. -/
def Holds (f : BinaryFormat) (q : ℚ) : Prop :=
  ∃ (m : Nat) (e : Int),
    m < 2 ^ f.precision ∧ f.minExponent ≤ e ∧ |q| = m * 2 ^ e ∧ |q| < 2 ^ f.limit

lemma holds_zero (h : f.minExponent ≤ 0) : f.Holds 0 :=
  ⟨0, 0, Nat.two_pow_pos _, h, by simp, by rw [abs_zero]; positivity⟩

lemma roundToUnit_of_eq (hden : 0 < den) (h : (num / den : ℚ) = n * 2 ^ e) :
    roundToUnit e num den = n :=
  le_antisymm (roundToUnit_le hden h.le) (le_roundToUnit hden h.ge)

/-- Rounding does not carry a quotient below a multiple of its unit. -/
lemma le_roundToUnit_unitExponent (hden : 0 < den) (hj : f.unitExponent num den ≤ j)
    (h : n * 2 ^ j ≤ (num / den : ℚ)) : (n : ℚ) * 2 ^ j ≤
      roundToUnit (f.unitExponent num den) num den * 2 ^ f.unitExponent num den := by
  obtain ⟨k, hk⟩ := exists_units hj n
  rw [hk] at h ⊢
  have hle := le_roundToUnit hden h
  gcongr

lemma round_eq_none : f.round num den = none ↔ (2 : ℚ) ^ f.limit ≤
      roundToUnit (f.unitExponent num den) num den * 2 ^ f.unitExponent num den := by
  rw [round, ite_eq_left_iff]
  simp only [reduceCtorEq, imp_false, not_not]
  rw [twoPowLe_iff one_pos, cast_one, div_one, zpow_sub₀ two_ne_zero,
    div_le_iff₀ (by positivity)]

lemma round_of_holds (hnum : 0 < num) (hden : 0 < den) (h : f.Holds (num / den : ℚ)) :
    ∃ m e, f.round num den = some (m, e) ∧ (m : ℚ) * 2 ^ e = num / den := by
  obtain ⟨n, j, hn, hmin, hvalue, hlimit⟩ := h
  have hnonneg : (0 : ℚ) ≤ num / den := by positivity
  rw [abs_of_nonneg hnonneg] at hvalue hlimit
  have hbound : (num / den : ℚ) < 2 ^ (j + f.precision) := by
    have hlt : (n : ℚ) < 2 ^ (f.precision : Int) := by exact_mod_cast hn
    rw [hvalue, zpow_add₀ two_ne_zero, mul_comm]
    gcongr
  have hunit := unitExponent_le hnum hden hmin hbound
  obtain ⟨m, e, hround⟩ := exists_round hden hunit hvalue.le (hvalue ▸ hlimit)
  refine ⟨m, e, hround, ?_⟩
  obtain ⟨k, hk⟩ := exists_units hunit n
  obtain ⟨rfl, rfl, -⟩ := round_eq_some hround
  rw [hk] at hvalue
  rw [roundToUnit_of_eq hden hvalue, hvalue]

/-- What a quotient is rounded to is a number of the format. -/
lemma holds_of_round {q : ℚ} (hnum : 0 < num) (hden : 0 < den) (hp : 0 < f.precision)
    (h : f.round num den = some (m, e)) (hq : |q| = m * 2 ^ e) : f.Holds q := by
  have hmin := minExponent_le h
  have hlimit := (round_eq_some h).2.2
  obtain hm | hm := (significand_le hnum hden h).lt_or_eq
  · exact ⟨m, e, hm, hmin, hq, hq ▸ hlimit⟩
  · -- One above the significands is the first of them in the next unit.
    refine ⟨2 ^ (f.precision - 1), e + 1, Nat.pow_lt_pow_right one_lt_two (by omega), by omega, ?_,
      hq ▸ hlimit⟩
    have hpow : (2 : ℚ) ^ f.precision = 2 ^ (f.precision - 1) * 2 := by
      rw [← pow_succ, Nat.sub_add_cancel hp]
    rw [hq, hm, zpow_add₀ two_ne_zero]
    push_cast
    rw [hpow]
    ring

/-- The least rational too large for a format: halfway from its largest number to the next power of
two. -/
def overflow (f : BinaryFormat) : ℚ := 2 ^ f.limit - 2 ^ (f.limit - f.precision - 1)

lemma overflow_eq (f : BinaryFormat) :
    f.overflow = ((2 ^ f.precision - 1 : Nat) + 1 / 2) * 2 ^ (f.limit - f.precision) := by
  have hpow : ((2 ^ f.precision - 1 : Nat) : ℚ) = 2 ^ (f.precision : Int) - 1 := by
    rw [Nat.cast_sub Nat.one_le_two_pow]
    simp
  have hlimit : (2 : ℚ) ^ f.limit = 2 ^ (f.precision : Int) * 2 ^ (f.limit - f.precision) := by
    rw [← zpow_add₀ two_ne_zero, add_sub_cancel]
  rw [overflow, hpow, hlimit, zpow_sub_one₀ two_ne_zero]
  ring

lemma half_limit_le_overflow (hp : 0 < f.precision) : (2 : ℚ) ^ (f.limit - 1) ≤ f.overflow := by
  have hle : (2 : ℚ) ^ (f.limit - f.precision - 1) ≤ 2 ^ (f.limit - 1) :=
    zpow_le_zpow_right₀ one_le_two (by omega)
  have hdouble : (2 : ℚ) ^ f.limit = 2 ^ (f.limit - 1) * 2 := by
    rw [← zpow_add_one₀ two_ne_zero, sub_add_cancel]
  rw [overflow, hdouble]
  linarith

/-- The logarithm of a quotient tells whether it is near the end of the range, where the bound is an
odd number and a half. -/
lemma round_eq_none_iff (hnum : 0 < num) (hden : 0 < den) (hp : 0 < f.precision)
    (hmin : f.minExponent ≤ f.limit - f.precision) :
    f.round num den = none ↔ f.overflow ≤ (num / den : ℚ) := by
  have hle := log2Quotient_le hnum hden
  have hlt := lt_log2Quotient hnum hden
  have hunit : f.unitExponent num den = max f.minExponent (log2Quotient num den - (f.precision - 1)) :=
    rfl
  rw [round_eq_none]
  rcases lt_trichotomy (log2Quotient num den) (f.limit - 1) with h | h | h
  · -- Far below the end of the range.
    have hsmall : (num / den : ℚ) < 2 ^ (f.limit - 1) :=
      hlt.trans_le (zpow_le_zpow_right₀ one_le_two (by omega))
    have hbelow : f.unitExponent num den ≤ f.limit - 1 := by omega
    have hround := roundToUnit_unitExponent_le hden hbelow
      (by rw [Nat.cast_one, one_mul]; exact hsmall.le)
    have hhalf : (2 : ℚ) ^ (f.limit - 1) < 2 ^ f.limit := zpow_lt_zpow_right₀ one_lt_two (by omega)
    rw [Nat.cast_one, one_mul] at hround
    exact iff_of_false (not_le.mpr (hround.trans_lt hhalf))
      (not_le.mpr (hsmall.trans_le (half_limit_le_overflow hp)))
  · -- At the end of the range the unit is fixed, and the largest significand is odd.
    have he : f.unitExponent num den = f.limit - f.precision := by omega
    have hodd : (2 ^ f.precision - 1) % 2 = 1 := by
      obtain ⟨k, hk⟩ := Nat.exists_eq_succ_of_ne_zero hp.ne'
      have := Nat.one_le_two_pow (n := k)
      rw [hk, pow_succ]
      omega
    have hpow : (2 : ℚ) ^ f.limit = (2 ^ f.precision : Nat) * 2 ^ (f.limit - f.precision) := by
      rw [Nat.cast_pow, Nat.cast_ofNat, ← zpow_natCast, ← zpow_add₀ two_ne_zero, add_sub_cancel]
    have hcount : (2 : ℚ) ^ f.limit ≤
        roundToUnit (f.limit - f.precision) num den * 2 ^ (f.limit - f.precision) ↔
        2 ^ f.precision ≤ roundToUnit (f.limit - f.precision) num den := by
      rw [hpow, mul_le_mul_iff_left₀ (by positivity), Nat.cast_le]
    rw [he, hcount, overflow_eq f, ← not_lt, ← not_lt, not_iff_not,
      ← roundToUnit_le_iff_of_odd hden hodd]
    have := Nat.one_le_two_pow (n := f.precision)
    omega
  · -- Beyond the range, whatever the unit.
    have hbelow : f.unitExponent num den ≤ log2Quotient num den := by omega
    have hround := le_roundToUnit_unitExponent hden hbelow
      (by rw [Nat.cast_one, one_mul]; exact hle)
    have hlarge : (2 : ℚ) ^ f.limit ≤ 2 ^ log2Quotient num den :=
      zpow_le_zpow_right₀ one_le_two (by omega)
    have hover : f.overflow ≤ 2 ^ f.limit := sub_le_self _ (by positivity)
    rw [Nat.cast_one, one_mul] at hround
    exact iff_of_true (hlarge.trans hround) (hover.trans (hlarge.trans hle))

end BinaryFormat

namespace Double

lemma isInfinite_eq_not_isFinite (h : x.isNaN = false) :
    x.isInfinite = !x.isFinite := by
  have hfield : x.exponentField < 2048 := mod_lt _ (twoPow_pos 11)
  simp only [isNaN, decide_eq_false_iff_not] at h
  rw [Bool.eq_iff_iff, Bool.not_eq_true', isInfinite, isFinite, decide_eq_true_iff,
    decide_eq_false_iff_not]
  omega

lemma isSome_toRat? (x : Double) : x.toRat?.isSome = x.isFinite := by
  unfold toRat?
  split <;> simp_all

lemma overflow_double : double.overflow = 2 ^ 1024 - 2 ^ 970 := by
  have hbound : double.overflow = 2 ^ (1024 : Int) - 2 ^ (970 : Int) := rfl
  rw [hbound, zpow_ofNat, zpow_ofNat]

/-- The value of a double is within the range. -/
lemma abs_lt_overflow {p : ℚ} (h : x.toRat? = some p) :
    |p| < double.overflow := by
  have h52 := twoPow_52
  have hfinite : x.isFinite := by
    rw [← isSome_toRat?, h]
    rfl
  have hfield : x.exponentField < 2047 := of_decide_eq_true hfinite
  have hfraction : x.fraction < twoPow 52 := mod_lt _ (twoPow_pos 52)
  have hsignificand : x.significand ≤ 2 ^ 53 - 1 := by
    unfold significand
    split <;> omega
  have hexponent : x.exponent ≤ 971 := by
    unfold exponent
    split <;> omega
  rw [toRat?, if_pos hfinite, Option.some_inj] at h
  rw [← h, abs_scaledRat, overflow_eq]
  calc (x.significand : ℚ) * 2 ^ x.exponent
      ≤ (2 ^ 53 - 1 : Nat) * 2 ^ (971 : Int) := by
        gcongr
        exact one_le_two
    _ < ((2 ^ 53 - 1 : Nat) + 1 / 2) * 2 ^ (971 : Int) := by
        gcongr
        linarith

/-- The range of doubles. -/
lemma isFinite_ofRat_iff (q : ℚ) : (ofRat q).isFinite ↔ |q| < double.overflow := by
  by_cases hq : q.num = 0
  · have hzero : q = 0 := Rat.zero_of_num_zero hq
    refine iff_of_true (by rw [ofRat, if_pos hq]; decide) ?_
    rw [hzero, abs_zero]
    exact lt_of_lt_of_le (by positivity) (half_limit_le_overflow (by decide))
  have hnone := round_eq_none_iff (f := .double) (natAbs_num_pos hq) q.den_pos
    (by decide) (by decide)
  rw [← abs_eq_natAbs_div] at hnone
  rw [← not_le, ← hnone]
  cases hround : double.round q.num.natAbs q.den with
  | none =>
    refine iff_of_false ?_ (by simp)
    rw [ofRat, if_neg hq, hround]
    cases decide (q.num < 0) <;> decide
  | some r =>
    refine iff_of_true ?_ (by simp)
    rw [← isSome_toRat?, toRat?_ofRat hq hround]
    rfl

lemma scaledRat_abs (q : ℚ) (h : (m : ℚ) * 2 ^ e = |q|) :
    scaledRat (q.num < 0) m e = q := by
  rw [scaledRat_eq, h]
  by_cases hq : q.num < 0
  · rw [abs_of_neg (Rat.num_neg.mp hq)]
    simp [hq]
  · rw [abs_of_nonneg (Rat.num_nonneg.mp (not_lt.mp hq))]
    simp [hq]

/-- The rationals that are doubles are those whose nearest double has their value. -/
lemma toRat?_ofRat_self_iff (q : ℚ) : (ofRat q).toRat? = some q ↔ double.Holds q := by
  by_cases hq : q.num = 0
  · obtain rfl : q = 0 := Rat.zero_of_num_zero hq
    rw [ofRat, if_pos hq]
    exact iff_of_true toRat?_zero (holds_zero (by decide))
  constructor
  · intro h
    cases hround : double.round q.num.natAbs q.den with
    | none =>
      have hinfinite := (round_eq_none_iff (natAbs_num_pos hq) q.den_pos (by decide)
        (by decide)).mp hround
      rw [← abs_eq_natAbs_div, ← not_lt, ← isFinite_ofRat_iff, ← isSome_toRat?, h] at hinfinite
      exact absurd rfl hinfinite
    | some r =>
      rw [toRat?_ofRat hq hround, Option.some_inj] at h
      refine holds_of_round (natAbs_num_pos hq) q.den_pos (by decide) hround ?_
      rw [← abs_scaledRat (q.num < 0), h]
  · intro h
    have hholds : double.Holds (q.num.natAbs / q.den : ℚ) := by
      rw [← abs_eq_natAbs_div]
      obtain ⟨m, e, hm, he, habs, hlimit⟩ := h
      exact ⟨m, e, hm, he, by rwa [abs_abs], by rwa [abs_abs]⟩
    obtain ⟨m, e, hround, hvalue⟩ :=
      round_of_holds (natAbs_num_pos hq) q.den_pos hholds
    rw [toRat?_ofRat hq hround, scaledRat_abs q (hvalue.trans (abs_eq_natAbs_div q).symm)]

/-- The nearest double of an integer within a power of two of the range is an integer within it. -/
lemma exists_toRat?_ofRat_int {k : Nat} (hi : |i| ≤ 2 ^ k) (hk : k ≤ 1000) :
    ∃ z : Int, (ofRat i).toRat? = some (z : ℚ) ∧ |z| ≤ 2 ^ k := by
  by_cases hzero : i = 0
  · subst hzero
    refine ⟨0, ?_, by simp⟩
    rw [ofRat, if_pos (by simp)]
    exact toRat?_zero
  have hnum : ((i : ℚ).num.natAbs) = i.natAbs := by rw [Rat.num_intCast]
  have hpos : 0 < i.natAbs := Int.natAbs_pos.mpr hzero
  have hle : ((i.natAbs : Nat) / (1 : Nat) : ℚ) ≤ (1 : Nat) * 2 ^ (k : Int) := by
    rw [cast_one, div_one, one_mul, zpow_natCast, cast_natAbs]
    exact_mod_cast hi
  have hunit : double.unitExponent i.natAbs 1 ≤ k := by
    refine unitExponent_le hpos one_pos ?_ (hle.trans_lt ?_)
    · have : double.minExponent = -1074 := rfl
      omega
    · rw [cast_one, one_mul]
      refine zpow_lt_zpow_right₀ one_lt_two ?_
      have : double.precision = 53 := rfl
      omega
  obtain ⟨m, e, hround⟩ := exists_round one_pos hunit hle (by
    rw [cast_one, one_mul]
    refine zpow_lt_zpow_right₀ one_lt_two ?_
    have : double.limit = 1024 := rfl
    omega)
  have hbound := round_le one_pos hunit hle hround
  -- In a unit above one every number is an integer, and in a smaller one `i` is not rounded at all.
  obtain ⟨n, hn⟩ : ∃ n : Nat, (m : ℚ) * 2 ^ e = n := by
    by_cases he : 0 ≤ e
    · exact ⟨m * twoPow e.toNat, by rw [cast_mul, cast_twoPow_toNat he]⟩
    · obtain ⟨rfl, hm, -⟩ := round_eq_some hround
      obtain ⟨j, hj⟩ := exists_units (Int.le_of_not_le he) i.natAbs
      rw [zpow_zero, mul_one] at hj
      rw [← div_one (i.natAbs : ℚ), ← cast_one] at hj
      refine ⟨i.natAbs, ?_⟩
      rw [hm, roundToUnit_of_eq one_pos hj, ← hj, cast_one, div_one]
  refine ⟨if i < 0 then -(n : Int) else n, ?_, ?_⟩
  · have hq : (i : ℚ).num ≠ 0 := by rwa [Rat.num_intCast]
    rw [toRat?_ofRat hq (by rw [hnum, Rat.den_intCast]; exact hround), scaledRat_eq,
      hn, Rat.num_intCast]
    split <;> simp_all
  · have habs : |if i < 0 then -(n : Int) else n| = n := by split <;> simp
    rw [hn, cast_one, one_mul, zpow_natCast] at hbound
    rw [habs]
    exact_mod_cast hbound

end Double

end GoCheck.Number
