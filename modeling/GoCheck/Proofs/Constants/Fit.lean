import GoCheck.Proofs.Constants.Forms
import GoCheck.Proofs.Number.Rounding

/-!
# Canonical constants and constants held by basic types

Literals and operations give constants whose numbers are in the form that their size asks for. The
value that a basic type holds for a constant fits the type in turn, except for not-a-number. An
integer type holds the integral numbers of its range as integers, single precision rounds to its
format, and double precision refuses what is beyond its range.
-/

namespace GoCheck

open Number

namespace Number.Double

variable {x : Double} {n : Bool}

lemma exists_ofMagnitude (x : Double) : ∃ n m, m < twoPow 63 ∧ x = ofMagnitude n m := by
  have h63 := twoPow_63
  have hlt := x.bits.toNat_lt
  have hbits : (ofMagnitude x.negative (x.bits.toNat % twoPow 63)).bits.toNat = x.bits.toNat := by
    rw [toNat_bits_ofMagnitude (Nat.mod_lt _ (twoPow_pos 63)), negative, h63]
    simp only [decide_eq_true_eq]
    split <;> omega
  exact ⟨x.negative, _, Nat.mod_lt _ (twoPow_pos 63), congrArg mk (UInt64.toNat_inj.mp hbits.symm)⟩

lemma neg_ofMagnitude (h : m < twoPow 63) : (ofMagnitude n m).neg = ofMagnitude (!n) m := by
  have hmod : ((if n then twoPow 63 else 0) + m) % twoPow 63 = m := by
    split
    · rw [Nat.add_mod_left, Nat.mod_eq_of_lt h]
    · rw [zero_add, Nat.mod_eq_of_lt h]
  rw [neg, negative_ofMagnitude h, toNat_bits_ofMagnitude h, hmod]

lemma neg_neg (x : Double) : x.neg.neg = x := by
  obtain ⟨n, m, hm, rfl⟩ := exists_ofMagnitude x
  rw [neg_ofMagnitude hm, neg_ofMagnitude hm, Bool.not_not]

lemma isFinite_neg (x : Double) : x.neg.isFinite = x.isFinite := by
  obtain ⟨n, m, hm, rfl⟩ := exists_ofMagnitude x
  simp only [neg_ofMagnitude hm, isFinite, exponentField_ofMagnitude hm]

lemma isZero_neg (x : Double) : x.neg.isZero = x.isZero := by
  obtain ⟨n, m, hm, rfl⟩ := exists_ofMagnitude x
  simp only [neg_ofMagnitude hm, isZero, exponentField_ofMagnitude hm, fraction_ofMagnitude hm]

lemma eq_zero_of_isZero (h : x.isZero) (hsign : x.negative = false) : x = zero := by
  obtain ⟨n, m, hm, rfl⟩ := exists_ofMagnitude x
  have h52 := twoPow_52
  rw [negative_ofMagnitude hm] at hsign
  simp only [isZero, exponentField_ofMagnitude hm, fraction_ofMagnitude hm, h52,
    decide_eq_true_eq] at h
  obtain rfl : m = 0 := by omega
  rw [hsign, zero]

end Number.Double

namespace Constant

/-- An integer or a floating-point number. -/
def IsReal (v : Constant) : Prop := v.kind = .int ∨ v.kind = .float

/-- The form of each number is that for its size, and there is one zero. -/
def IsCanonical : Constant → Prop
  | big i => ¬(-2 ^ 63 ≤ i ∧ i < 2 ^ 63)
  | ratio q => q.num.natAbs.size < 4096 ∧ q.den.size < 4096
  | float x => x.isFinite = true ∧ ¬(x.isZero = true ∧ x.negative = true)
  | complex re im => (re.IsReal ∧ re.IsCanonical) ∧ im.IsReal ∧ im.IsCanonical
  | _ => True

variable {v : Constant} {i : Int}

lemma fitsInt64_iff : fitsInt64 i ↔ -2 ^ 63 ≤ i ∧ i < 2 ^ 63 := decide_eq_true_iff

lemma isReal_ofInt (i : Int) : (ofInt i).IsReal := by
  unfold ofInt
  split <;> exact .inl rfl

lemma ofInt_toInt (i : Int64) : ofInt i.toInt = small i := by
  rw [ofInt, if_pos (fitsInt64_iff.mpr ⟨i.le_toInt, i.toInt_lt⟩), Int64.ofInt_toInt]

lemma ofInt_of_isCanonical (h : (big i).IsCanonical) : ofInt i = big i :=
  if_neg fun hfits => h (fitsInt64_iff.mp hfits)

lemma ofRat_of_isCanonical (h : (ratio q).IsCanonical) : ofRat q = ratio q :=
  if_pos (Bool.and_eq_true_iff.mpr ⟨isExactSize_iff.mpr h.1, (isExactSize_iff (i := q.den)).mpr h.2⟩)

lemma isCanonical_neg (h : (ratio q).IsCanonical) : (ratio (-q)).IsCanonical := by
  simpa [IsCanonical] using h

lemma negate_float (h : (float x).IsCanonical) :
    (float x).negate = if x.isZero then float x else float x.neg := by
  by_cases hzero : x.isZero
  · obtain rfl := Double.eq_zero_of_isZero hzero (Bool.eq_false_iff.mpr fun hn => h.2 ⟨hzero, hn⟩)
    decide
  · simp [negate, ofDouble, Double.isFinite_neg, Double.isZero_neg, h.1, hzero]

lemma negate_ofInt (i : Int) : (ofInt i).negate = ofInt (-i) := by
  by_cases h : fitsInt64 i
  · obtain ⟨hle, hlt⟩ := fitsInt64_iff.mp h
    rw [ofInt, if_pos h, negate, Int64.toInt_ofInt_of_le hle hlt]
  · rw [ofInt, if_neg h, negate]

lemma IsReal.negate (h : v.IsReal) (hv : v.IsCanonical) : v.negate.IsReal := by
  cases v with
  | small i | big i => exact isReal_ofInt _
  | ratio q =>
    rw [Constant.negate, ofRat_of_isCanonical (isCanonical_neg hv)]
    exact .inr rfl
  | float x =>
    rw [negate_float hv]
    split <;> exact .inr rfl
  | _ => rcases h with h | h <;> cases h

/-- All constants that come about are canonical. -/
lemma stable_isCanonical : Stable IsCanonical where
  plain {v} h := by
    cases v with
    | unknown | bool | string => trivial
    | _ => cases h
  small _ := trivial
  ofInt i := by
    unfold ofInt
    split
    · trivial
    · rename_i h
      exact fun hfits => h (fitsInt64_iff.mpr hfits)
  ofDouble x := by
    unfold ofDouble
    split
    · trivial
    · rename_i hfinite
      split
      · exact ⟨by decide, by decide⟩
      · rename_i hzero
        exact ⟨by simpa using hfinite, fun h => hzero h.1⟩
  ratio hnum hden := ⟨isExactSize_iff.mp hnum, isExactSize_iff.mp hden⟩
  paired h hreal := ⟨⟨⟨hreal, h⟩, .inl rfl, trivial⟩, ⟨.inl rfl, trivial⟩, hreal, h⟩
  parts h := ⟨h.1.2, h.2.2⟩
  negated h hre him := ⟨⟨h.1.1.negate h.1.2, hre⟩, h.2.1.negate h.2.2, him⟩

lemma negate_negate (h : v.isNumeric) (hv : v.IsCanonical) : v.negate.negate = v := by
  induction v with
  | small i => rw [← ofInt_toInt, negate_ofInt, negate_ofInt, Int.neg_neg]
  | big i => rw [← ofInt_of_isCanonical hv, negate_ofInt, negate_ofInt, Int.neg_neg]
  | ratio q =>
    rw [negate, ofRat_of_isCanonical (isCanonical_neg hv), negate, neg_neg, ofRat_of_isCanonical hv]
  | float x =>
    by_cases hzero : x.isZero
    · rw [negate_float hv, if_pos hzero, negate_float hv, if_pos hzero]
    · have hzero' : ¬x.neg.isZero := by rwa [Double.isZero_neg]
      have hneg : (float x.neg).IsCanonical :=
        ⟨by rw [Double.isFinite_neg]; exact hv.1, fun h => hzero' h.1⟩
      rw [negate_float hv, if_neg hzero, negate_float hneg, if_neg hzero', Double.neg_neg]
  | complex re im ihre ihim =>
    have hnumeric {v : Constant} (h : v.IsReal) : v.isNumeric := by
      rcases h with h | h <;> simp [isNumeric, h]
    rw [negate, negate, ihre (hnumeric hv.1.1) hv.1.2, ihim (hnumeric hv.2.1) hv.2.2]
  | _ => cases h

/-- Literals and doubles give canonical constants, conversions and operators keep them so, and
negating a canonical number twice gives it back. -/
theorem canonical_closed (s : String) (x : Double) (op : UnaryOp) (h : v.IsCanonical) :
    ((Literal.int s).IsCanonical ∧ (Literal.float s).IsCanonical ∧ (Literal.imaginary s).IsCanonical ∧
      (Literal.rune s).IsCanonical ∧ (Literal.string s).IsCanonical ∧
      (ofExactDouble x).IsCanonical) ∧
    (v.toInt.IsCanonical ∧ v.toFloat.IsCanonical ∧ v.toComplex.IsCanonical ∧
      v.ofImaginary.IsCanonical ∧ (v.foldUnary op).IsCanonical) ∧
    (v.isNumeric = true → (v.foldUnary .minus).foldUnary .minus = v) :=
  have hstable := stable_isCanonical
  ⟨⟨hstable.intChars _, hstable.floatChars? _, hstable.imaginary s, hstable.rune s, hstable.string s,
    hstable.ofExactDouble x⟩, ⟨hstable.toInt h, hstable.toFloat h, hstable.toComplex h,
    hstable.ofImaginary h, hstable.foldUnary op h⟩, fun hnumeric => negate_negate hnumeric h⟩

/-- The negative of the least integer of 64 bits has one bit more. -/
theorem canonical_closed_minValue : (big (2 ^ 63)).IsCanonical ∧
    (big (2 ^ 63)).foldUnary .minus = small Int64.minValue ∧
    ((big (2 ^ 63)).foldUnary .minus).foldUnary .minus = big (2 ^ 63) := by
  have h : (big (2 ^ 63)).IsCanonical := fun h => absurd h.2 (by decide)
  exact ⟨h, by decide, (canonical_closed "" .zero .minus h).2.2 rfl⟩

end Constant

end GoCheck

/-! ## Constants held by basic types -/

namespace GoCheck

open Number Double

namespace Number.Double

variable {x : Double}

lemma isNaN_of_isFinite (h : x.isFinite) : x.isNaN = false :=
  isNaN_of_toRat? (if_pos h)

lemma isFinite_of_roundToSingle (h : x.roundToSingle = .value q) : x.isFinite := by
  by_contra hinfinite
  have hnone : x.toRat? = none := if_neg hinfinite
  rw [roundToSingle, hnone] at h
  split at h <;> cases h

lemma isNaN_of_roundToSingle (h : x.roundToSingle = .notANumber) : x.isNaN := by
  by_contra hnan
  rw [roundToSingle, if_neg hnan] at h
  split at h
  · cases h
  · split at h
    · cases h
    · split at h <;> cases h

end Number.Double

namespace Constant

variable {v w : Constant} {k : BasicKind}

/-- No part of the value is not-a-number. -/
def isRegular : Constant → Bool
  | float x => !x.isNaN
  | complex re im => re.isRegular && im.isRegular
  | _ => true

/-- No literal and no operation on constants gives not-a-number. -/
lemma stable_isRegular : Stable fun v => v.isRegular where
  plain {v} h := by
    cases v with
    | unknown | bool | string => rfl
    | _ => cases h
  small _ := rfl
  ofInt i := by
    unfold ofInt
    split <;> rfl
  ofDouble x := by
    unfold ofDouble
    split
    · rfl
    · rename_i hfinite
      split
      · decide
      · simpa [isRegular] using isNaN_of_isFinite (by simpa using hfinite)
  ratio _ _ := rfl
  paired h _ := by simpa [isRegular] using h
  parts h := Bool.and_eq_true_iff.mp h
  negated _ hre him := Bool.and_eq_true_iff.mpr ⟨hre, him⟩

lemma toFloat_of_kind (h : v.kind = .float) : v.toFloat = v := by
  cases v with
  | ratio q => rfl
  | float x => rfl
  | _ => cases h

lemma isNaN_float64 (h : v.isRegular) (hk : v.kind = .float) : v.float64.1.isNaN = false := by
  cases v with
  | ratio q => exact isNaN_ofRat q
  | float x =>
    show x.isNaN = false
    simpa [isRegular] using h
  | _ => cases hk

lemma roundFloat_ofRat {x : Double} (h : x.roundToSingle = .value q) :
    ∃ u, roundFloat .float32 (ofRat q).toFloat = some u := by
  obtain ⟨p, hp⟩ := roundToSingle_ofRat h
  unfold ofRat
  split
  · exact ⟨ofRat p, by simp [toFloat, roundFloat, kind, float64, hp]⟩
  · have hfinite := isFinite_of_roundToSingle hp
    unfold ofDouble
    split
    · simp_all
    · split
      · exact ⟨ofRat 0, by simp [toFloat, roundFloat, kind, float64, roundToSingle_zero]⟩
      · exact ⟨ofRat p, by simp [toFloat, roundFloat, kind, float64, hp]⟩

lemma kind_of_roundFloat (h : roundFloat k v = some w) : v.kind = .float := by
  unfold roundFloat at h
  split at h
  · cases h
  · rename_i hkind
    exact not_not.mp hkind

/-- A number that a floating-point kind holds is held again. -/
lemma roundFloat_held (h : v.isRegular) (hw : roundFloat k v = some w) :
    w.isRegular ∧ ∃ u, roundFloat k w.toFloat = some u := by
  have hkind := kind_of_roundFloat hw
  -- The kinds that hold a number as it is.
  have hself (hv : some v = some w) : w.isRegular ∧ ∃ u, roundFloat k w.toFloat = some u := by
    obtain rfl := Option.some.inj hv
    exact ⟨h, v, by rw [toFloat_of_kind hkind, hw]⟩
  have hround := hw
  unfold roundFloat at hround
  rw [if_neg (not_not_intro hkind)] at hround
  split at hround
  · split at hround
    · rename_i hnan
      have hregular := isNaN_float64 h hkind
      rw [isNaN_of_roundToSingle hnan] at hregular
      cases hregular
    · cases hround
    · rename_i q hq
      obtain rfl := Option.some.inj hround
      exact ⟨stable_isRegular.ofRat q, roundFloat_ofRat hq⟩
  · split at hround
    · cases hround
    · exact hself hround
  · exact hself hround
  · cases hround

lemma fits_of_heldBy? (h : v.heldBy? k = some w) : v.fits k k.family := by
  unfold heldBy? at h
  unfold fits
  cases hfit : v.represent k k.family with
  | no =>
    rw [hfit] at h
    cases h
  | held u => rfl
  | asIs => rfl

lemma fits_of_isUnknown (h : v.isUnknown) (f : BasicFamily) : v.fits k f := by
  simp [fits, represent, h]

lemma toInt_of_representInt (h : representInt k v = some w) : w = v ∧ w.toInt = w := by
  unfold representInt at h
  split at h
  · split at h
    · cases h
      exact ⟨rfl, rfl⟩
    · cases h
  · split at h
    · cases h
      exact ⟨rfl, rfl⟩
    · cases h
  · cases h

lemma heldBy?_of_represent (h : v.represent k k.family = .ofHeld? o) : v.heldBy? k = o := by
  rw [heldBy?, h]
  cases o <;> rfl

lemma fits_of_represent (h : v.represent k f = .ofHeld? (some w)) : v.fits k f := by
  rw [fits, h]
  rfl

lemma represent_float (h : v.isUnknown = false) :
    v.represent k .float = .ofHeld? (roundFloat k v.toFloat) := by
  simp [represent, h]

lemma represent_complex (hv : v.toComplex = complex re im)
    (hre : roundFloat k.part re.toFloat = some re') (him : roundFloat k.part im.toFloat = some im')
    (h : v.isUnknown = false) : v.represent k .complex = .held (complex re' im') := by
  simp [represent, h, hv, hre, him]

/-- The parts that a complex kind holds. -/
lemma parts_of_heldBy? (hf : k.family = .complex) (h : v.isUnknown = false)
    (hw : v.heldBy? k = some w) : ∃ re im re' im', v.toComplex = complex re im ∧
      roundFloat k.part re.toFloat = some re' ∧ roundFloat k.part im.toFloat = some im' ∧
      w = complex re' im' := by
  rw [heldBy?, hf] at hw
  cases hv : v.toComplex with
  | complex re im =>
    cases hre : roundFloat k.part re.toFloat with
    | none => simp [represent, h, hv, hre] at hw
    | some re' =>
      cases him : roundFloat k.part im.toFloat with
      | none => simp [represent, h, hv, hre, him] at hw
      | some im' =>
        rw [represent_complex hv hre him h] at hw
        exact ⟨re, im, re', im', rfl, hre, him, (Option.some.inj hw).symm⟩
  | _ => simp [represent, h, hv] at hw

/-- The value that a basic type holds for a constant fits the type. -/
lemma fits_held (h : v.isRegular) (hw : v.heldBy? k = some w) :
    w.isRegular ∧ w.fits k k.family := by
  by_cases hunknown : v.isUnknown
  · obtain rfl : v = w := by simpa [heldBy?, represent, hunknown] using hw
    exact ⟨h, fits_of_isUnknown hunknown _⟩
  have hknown : v.isUnknown = false := by simpa using hunknown
  -- The families that hold a constant as it is.
  have hself (hv : v = w) : w.isRegular ∧ w.fits k k.family :=
    hv ▸ ⟨h, fits_of_heldBy? hw⟩
  cases hf : k.family with
  | integer =>
    have hrepresent : v.represent k k.family = .ofHeld? (representInt k v.toInt) := by
      simp [represent, hknown, hf]
    have hint := (heldBy?_of_represent hrepresent).symm.trans hw
    obtain ⟨rfl, hself⟩ := toInt_of_representInt hint
    refine ⟨stable_isRegular.toInt h, ?_⟩
    by_cases hw' : v.toInt.isUnknown
    · exact fits_of_isUnknown hw' _
    · refine fits_of_represent (w := v.toInt) ?_
      simp [represent, hw', hself, hint]
  | float =>
    have hrepresent : v.represent k k.family = .ofHeld? (roundFloat k v.toFloat) := by
      rw [hf, represent_float hknown]
    have hround := (heldBy?_of_represent hrepresent).symm.trans hw
    obtain ⟨hregular, u, hu⟩ := roundFloat_held (stable_isRegular.toFloat h) hround
    refine ⟨hregular, ?_⟩
    cases hw' : w.isUnknown with
    | true => exact fits_of_isUnknown hw' _
    | false => exact fits_of_represent (by rw [represent_float hw', hu])
  | complex =>
    obtain ⟨re, im, re', im', hv, hre, him, rfl⟩ := parts_of_heldBy? hf hknown hw
    have hparts := stable_isRegular.toComplex h
    rw [hv, isRegular, Bool.and_eq_true] at hparts
    obtain ⟨hre', u, hu⟩ := roundFloat_held (stable_isRegular.toFloat hparts.1) hre
    obtain ⟨him', u', hu'⟩ := roundFloat_held (stable_isRegular.toFloat hparts.2) him
    refine ⟨by simp [isRegular, hre', him'], ?_⟩
    rw [fits, represent_complex rfl hu hu' rfl]
  | boolean =>
    by_cases hkind : v.kind = .bool
    · exact hf ▸ hself (by simpa [heldBy?, represent, hknown, hf, hkind] using hw)
    · simp [heldBy?, represent, hknown, hf, hkind] at hw
  | string =>
    by_cases hkind : v.kind = .string
    · exact hf ▸ hself (by simpa [heldBy?, represent, hknown, hf, hkind] using hw)
    · simp [heldBy?, represent, hknown, hf, hkind] at hw
  | invalid | nil => simp [heldBy?, represent, hknown, hf] at hw

lemma fits_resolveAlias (v : Constant) (k : BasicKind) :
    v.fits k.resolveAlias k.resolveAlias.family = v.fits k k.family := by
  cases k <;> rfl

end Constant

end GoCheck

/-! ## Numbers held by basic types -/

namespace GoCheck

open Number BinaryFormat BasicKind Nat

namespace Number.Double

lemma leadingWord_of_lt_size {n k : Nat} (h : k + 63 < n.size) :
    ∃ m e, leadingWord n = (m, e) ∧ 0 < m ∧ k ≤ e := by
  have hle := Nat.lt_size.mp h
  have hn : n ≠ 0 := (lt_of_lt_of_le (Nat.two_pow_pos _) hle).ne'
  have hlog : k + 63 ≤ n.log2 := (Nat.le_log2 hn).mpr hle
  have htop : 0 < n / twoPow (n.log2 + 1 - 64) := by
    refine Nat.div_pos ((Nat.pow_le_pow_right Nat.two_pos ?_).trans (Nat.log2_self_le hn)) (twoPow_pos _)
    omega
  refine ⟨_, _, rfl, ?_, by omega⟩
  split
  · exact htop.trans_le Nat.left_le_or
  · exact htop

/-- The nearest double of an integer of very many bits is infinite. -/
lemma isFinite_ofInt (h : ¬Constant.isExactSize i) : (ofInt i).isFinite = false := by
  have hi : i ≠ 0 := by
    rintro rfl
    exact h (Constant.isExactSize_of_lt (by decide))
  have hsign : |(i.sign : ℚ)| = 1 := by
    rcases lt_or_gt_of_ne hi with hi | hi
    · rw [Int.sign_eq_neg_one_of_neg hi]
      simp
    · rw [Int.sign_eq_one_of_pos hi]
      simp
  rw [Constant.isExactSize_iff, not_lt] at h
  obtain ⟨m, e, hword, hm, he⟩ := leadingWord_of_lt_size (k := 1024) (lt_of_lt_of_le (by decide) h)
  rw [Bool.eq_false_iff, ofInt, hword, ne_eq, isFinite_ofRat_iff, not_lt, overflow_double, abs_mul,
    hsign, one_mul, abs_cast, cast_mul, twoPow_eq, cast_pow, cast_ofNat]
  -- The unit of the leading word is beyond the range by itself.
  calc (2 : ℚ) ^ 1024 - 2 ^ 970 ≤ 2 ^ 1024 := sub_le_self _ (by positivity)
    _ ≤ 2 ^ e := pow_le_pow_right₀ one_le_two he
    _ ≤ m * 2 ^ e := le_mul_of_one_le_left (by positivity) (by exact_mod_cast hm)

/-- Rounding to single precision gives a number of the format. -/
lemma holds_of_roundToSingle {q : ℚ} {x : Double} (h : x.roundToSingle = .value q) :
    single.Holds q := by
  unfold roundToSingle at h
  split at h
  · cases h
  split at h
  · cases h
  split at h
  · obtain rfl := SingleRounding.value.inj h
    exact holds_zero (by decide)
  rename_i p _ hp
  split at h
  · rename_i m e hround
    obtain rfl := SingleRounding.value.inj h
    exact holds_of_round (natAbs_num_pos hp) p.den_pos (by decide) hround
      (abs_scaledRat _ m e)
  · cases h

end Number.Double

/-- The least and the largest integer of an integer kind; untyped kinds have none. -/
def BasicKind.bounds? : BasicKind → Option (Int × Int)
  | .int8 => some (-2 ^ 7, 2 ^ 7 - 1)
  | .int16 => some (-2 ^ 15, 2 ^ 15 - 1)
  | .int32 | .rune => some (-2 ^ 31, 2 ^ 31 - 1)
  | .int | .int64 => some (-2 ^ 63, 2 ^ 63 - 1)
  | .uint8 | .byte => some (0, 2 ^ 8 - 1)
  | .uint16 => some (0, 2 ^ 16 - 1)
  | .uint32 => some (0, 2 ^ 32 - 1)
  | .uint | .uint64 | .uintptr => some (0, 2 ^ 64 - 1)
  | _ => none

/-- Whether an integer is in the range of a kind. -/
def BasicKind.includes (k : BasicKind) (i : Int) : Bool :=
  k.bounds?.all fun b => b.1 ≤ i ∧ i ≤ b.2

namespace Constant

/-- An exact number with its real and its imaginary part. -/
inductive HasParts : Constant → ℚ → ℚ → Prop
  | real {a : ℚ} : v.exactRat? = some a → HasParts v a 0
  | complex {a b : ℚ} : re.exactRat? = some a → im.exactRat? = some b →
      HasParts (complex re im) a b

/-- No integer of 64 bits is in the form of larger ones. -/
def Kept : Constant → Prop
  | big i => ¬(-2 ^ 63 ≤ i ∧ i < 2 ^ 63)
  | complex re im => re.Kept ∧ im.Kept
  | _ => True

variable {v w : Constant} {a b : ℚ} {k : BasicKind} {i : Int}

lemma includes_iff (h : k.bounds? = some (least, largest)) :
    k.includes i ↔ least ≤ i ∧ i ≤ largest := by
  rw [includes, h, Option.all_some, decide_eq_true_iff]

lemma holdsInt_eq (hk : k.family = .integer) (hi : -2 ^ 63 ≤ i ∧ i < 2 ^ 63) :
    k.holdsInt i = k.includes i := by
  rw [Bool.eq_iff_iff]
  cases k with
  | untypedInt | untypedRune => exact iff_of_true rfl rfl
  | int | int64 => exact iff_of_true rfl ((includes_iff rfl).mpr (by omega))
  | uint | uint64 | uintptr =>
    rw [includes_iff rfl, holdsInt, decide_eq_true_iff]
    omega
  | int8 | int16 | int32 | rune | uint8 | uint16 | uint32 | byte =>
    rw [includes_iff rfl]
    refine decide_eq_true_iff.trans ?_
    norm_num [twoPow]
    omega
  | _ => cases hk

lemma holdsBig_eq (hk : k.family = .integer) (hi : ¬(-2 ^ 63 ≤ i ∧ i < 2 ^ 63)) :
    k.holdsBig i = k.includes i := by
  rw [Bool.eq_iff_iff]
  cases k with
  | untypedInt | untypedRune => exact iff_of_true rfl rfl
  | uint | uint64 | uintptr =>
    rw [includes_iff rfl]
    refine decide_eq_true_iff.trans ?_
    norm_num [twoPow]
    omega
  | int | int64 | int8 | int16 | int32 | rune | uint8 | uint16 | uint32 | byte =>
    rw [includes_iff rfl]
    exact iff_of_false Bool.false_ne_true (by omega)
  | _ => cases hk

lemma representInt_ofInt (hk : k.family = .integer) (i : Int) :
    representInt k (ofInt i) = if k.includes i then some (ofInt i) else none := by
  by_cases hi : -2 ^ 63 ≤ i ∧ i < 2 ^ 63
  · have hint := Int64.toInt_ofInt_of_le hi.1 hi.2
    rw [ofInt, if_pos (fitsInt64_iff.mpr hi), representInt, hint, holdsInt_eq hk hi]
  · rw [ofInt, if_neg (fun hfits => hi (fitsInt64_iff.mp hfits)), representInt, holdsBig_eq hk hi]

lemma ofInt_kept (i : Int) :
    (ofInt i).kind = .int ∧ (ofInt i).Kept ∧ (ofInt i).exactRat? = some (i : ℚ) := by
  unfold ofInt
  split
  · rename_i hi
    obtain ⟨hle, hlt⟩ := fitsInt64_iff.mp hi
    exact ⟨rfl, trivial, by rw [exactRat?, Int64.toInt_ofInt_of_le hle hlt]⟩
  · rename_i hi
    exact ⟨rfl, fun hrange => hi (fitsInt64_iff.mpr hrange), rfl⟩

lemma sign_eq_zero_iff (h : v.exactRat? = some a) : v.sign = 0 ↔ a = 0 := by
  cases v with
  | small i | big i =>
    cases h
    rw [sign, Int.sign_eq_zero_iff_zero, Int.cast_eq_zero]
  | ratio q =>
    cases h
    rw [sign, Int.sign_eq_zero_iff_zero, Rat.num_eq_zero]
  | _ => cases h

lemma isUnknown_of_exactRat? (h : v.exactRat? = some a) : v.isUnknown = false := by
  cases v <;> first | rfl | cases h

lemma HasParts.isUnknown (h : v.HasParts a b) : v.isUnknown = false := by
  cases h with
  | real h => exact isUnknown_of_exactRat? h
  | complex => rfl

lemma toInt_of_exactRat? (h : v.exactRat? = some a) (hkept : v.Kept) :
    v.toInt = if a.den = 1 then ofInt a.num else unknown := by
  cases v with
  | small i =>
    cases h
    rw [if_pos (Rat.den_intCast _), Rat.num_intCast, ofInt_toInt, toInt]
  | big i =>
    cases h
    rw [if_pos (Rat.den_intCast _), Rat.num_intCast, ofInt_of_isCanonical hkept, toInt]
  | ratio q =>
    cases h
    rfl
  | _ => cases h

lemma HasParts.toInt_eq (h : v.HasParts a b) (hkept : v.Kept) :
    v.toInt = if b = 0 ∧ a.den = 1 then ofInt a.num else unknown := by
  cases h with
  | real h => simpa using toInt_of_exactRat? h hkept
  | complex hre him =>
    rw [toInt, toInt_of_exactRat? hre hkept.1]
    simp only [sign_eq_zero_iff him]
    split <;> simp_all

lemma HasParts.represent_eq (h : v.HasParts a b) (hkept : v.Kept) (hk : k.family = .integer) :
    v.represent k k.family =
      if b = 0 ∧ a.den = 1 ∧ k.includes a.num then .held (ofInt a.num) else .no := by
  have hheld : v.represent k k.family = .ofHeld? (representInt k v.toInt) := by
    simp [represent, h.isUnknown, hk]
  rw [hheld, h.toInt_eq hkept]
  by_cases hint : b = 0 ∧ a.den = 1
  · rw [if_pos hint, representInt_ofInt hk]
    by_cases hin : k.includes a.num
    · rw [if_pos hin, if_pos ⟨hint.1, hint.2, hin⟩]
      rfl
    · rw [if_neg hin, if_neg fun h => hin h.2.2]
      rfl
  · rw [if_neg hint, if_neg fun h => hint ⟨h.1, h.2.1⟩]
    rfl

/-- An integer type holds the integers in its range, in the form of such an integer. -/
theorem represent_integer (h : v.HasParts a b) (hkept : v.Kept) (hk : k.family = .integer) :
    (v.fits k k.family = true ↔ b = 0 ∧ ∃ i : Int, a = i ∧ k.includes i = true) ∧
    (v.fits k k.family = true → ∃ w, v.represent k k.family = .held w ∧ w.kind = .int ∧ w.Kept ∧
      w.exactRat? = some a) ∧
    (v.fits k k.family = false → v.represent k k.family = .no) := by
  have hcond : (b = 0 ∧ a.den = 1 ∧ k.includes a.num = true) ↔
      b = 0 ∧ ∃ i : Int, a = i ∧ k.includes i = true := by
    refine and_congr_right fun _ => ⟨fun hden => ⟨a.num, ?_, hden.2⟩, ?_⟩
    · exact ((Rat.den_eq_one_iff a).mp hden.1).symm
    · rintro ⟨i, rfl, hi⟩
      exact ⟨Rat.den_intCast i, by rwa [Rat.num_intCast]⟩
  have heq := h.represent_eq hkept hk
  have hfits : v.fits k k.family = true ↔ b = 0 ∧ a.den = 1 ∧ k.includes a.num = true := by
    rw [fits, heq]
    split <;> simp_all
  refine ⟨hfits.trans hcond, fun hyes => ?_, fun hno => heq.trans (if_neg fun hin => ?_)⟩
  · have hin := hfits.mp hyes
    have hvalue : (a.num : ℚ) = a := (Rat.den_eq_one_iff a).mp hin.2.1
    obtain ⟨hkind, hkept', hexact⟩ := ofInt_kept a.num
    exact ⟨_, heq.trans (if_pos hin), hkind, hkept', hvalue ▸ hexact⟩
  · cases (hfits.mpr hin).symm.trans hno

/-- A complex number without an imaginary part is held by the integer type of its real part. -/
theorem represent_integer_complex :
    HasParts (complex (ratio 255) (small 0)) 255 0 ∧ Kept (complex (ratio 255) (small 0)) ∧
      (complex (ratio 255) (small 0)).fits .byte .integer = true ∧
      (complex (ratio 255) (small 0)).fits .int8 .integer = false := by
  have hparts : HasParts (complex (ratio 255) (small 0)) 255 0 := .complex rfl rfl
  have hkept : Kept (complex (ratio 255) (small 0)) := ⟨trivial, trivial⟩
  refine ⟨hparts, hkept, ?_, by decide +kernel⟩
  exact (represent_integer hparts hkept (k := .byte) rfl).1.mpr ⟨rfl, 255, rfl, by decide⟩

/-- Numbers of single precision are kept as rationals. -/
lemma ofRat_of_holds_single {q : ℚ} (h : single.Holds q) : ofRat q = ratio q := by
  obtain ⟨m, e, hm, hmin, hvalue, hlimit⟩ := h
  have hmin' : 0 ≤ e + 149 := by
    have : single.minExponent = -149 := rfl
    omega
  -- In units of the least number of the format, the number is an integer.
  obtain ⟨z, hz⟩ : ∃ z : Int, q = z / (2 ^ 149 : Int) := by
    have hunits : |q| = ((m * 2 ^ (e + 149).toNat : Nat) : ℚ) / 2 ^ 149 := by
      have h149 : (2 : ℚ) ^ (149 : Int) = 2 ^ 149 := zpow_ofNat 2 149
      rw [hvalue, cast_mul, cast_pow, cast_ofNat, ← zpow_natCast, Int.toNat_of_nonneg hmin',
        zpow_add₀ two_ne_zero, h149, ← mul_assoc, mul_div_cancel_right₀ _ (by positivity)]
    rcases abs_choice q with habs | habs
    · exact ⟨(m * 2 ^ (e + 149).toNat : Nat), by rw [← habs, hunits]; push_cast; ring⟩
    · refine ⟨-(m * 2 ^ (e + 149).toNat : Nat), ?_⟩
      rw [← neg_neg q, ← habs, hunits]
      push_cast
      ring
  have hden : q.den ≤ 2 ^ 149 := by
    have hdvd : (q.den : Int) ∣ 2 ^ 149 := by
      rw [hz, ← Rat.divInt_eq_div]
      exact Rat.den_dvd _ _
    exact_mod_cast Int.le_of_dvd (by positivity) hdvd
  have hnum : q.num.natAbs < 2 ^ 128 * 2 ^ 149 := by
    have hcast : (q.num.natAbs : ℚ) = |q| * q.den := by
      rw [Double.abs_eq_natAbs_div, div_mul_cancel₀ _ (by exact_mod_cast q.den_nz)]
    have hlt : (q.num.natAbs : ℚ) < 2 ^ 128 * 2 ^ 149 := by
      rw [hcast]
      have h128 : |q| < 2 ^ 128 := by exact_mod_cast hlimit
      have hden' : (q.den : ℚ) ≤ 2 ^ 149 := by exact_mod_cast hden
      exact mul_lt_mul h128 hden' (by exact_mod_cast q.den_pos) (by positivity)
    exact_mod_cast hlt
  rw [← pow_add] at hnum
  have hden' : q.den < 2 ^ 150 := hden.trans_lt (by decide)
  exact ofRat_of_isCanonical ⟨(size_le.mpr hnum).trans_lt (by decide),
    (size_le.mpr hden').trans_lt (by decide)⟩

lemma toFloat_of_exactRat? (h : v.exactRat? = some a) :
    v.toFloat = ratio a ∨ v.toFloat = unknown := by
  cases v with
  | small i =>
    cases h
    exact .inl rfl
  | big i =>
    cases h
    unfold toFloat
    split
    · exact .inl rfl
    · rename_i hsize
      exact .inr (if_pos (by rw [Double.isFinite_ofInt hsize]; rfl))
  | ratio q =>
    cases h
    exact .inl rfl
  | _ => cases h

/-- What a floating-point type holds of an exact number: one of its format, or in double the
number. -/
def Stores (k : BasicKind) (a a' : ℚ) : Prop :=
  (k = .float32 → single.Holds a') ∧ (k = .float64 → a' = a)

lemma roundFloat_exact (h : v.exactRat? = some a) (hk : k = .float32 ∨ k = .float64)
    (hw : roundFloat k v.toFloat = some w) : ∃ a', w.exactRat? = some a' ∧ Stores k a a' := by
  rcases toFloat_of_exactRat? h with hfloat | hfloat
  · rw [hfloat] at hw
    rcases hk with rfl | rfl
    · simp only [roundFloat, kind, float64, ne_eq, not_true_eq_false, if_false] at hw
      split at hw
      · rename_i hnan
        cases (Double.isNaN_of_roundToSingle hnan).symm.trans (Double.isNaN_ofRat a)
      · cases hw
      · rename_i q hq
        have hholds := Double.holds_of_roundToSingle hq
        obtain rfl := Option.some.inj hw
        exact ⟨q, by rw [ofRat_of_holds_single hholds]; rfl, fun _ => hholds, by simp⟩
    · simp only [roundFloat, kind, ne_eq, not_true_eq_false, if_false] at hw
      split at hw
      · cases hw
      · obtain rfl := Option.some.inj hw
        exact ⟨a, rfl, by simp, fun _ => rfl⟩
  · rw [hfloat] at hw
    cases kind_of_roundFloat hw

/-- A real type holds only numbers without an imaginary part. -/
lemma HasParts.held_real (h : v.HasParts a b) (hk : k = .float32 ∨ k = .float64)
    (hheld : v.heldBy? k = some w) : b = 0 ∧ ∃ a', w.HasParts a' 0 ∧ Stores k a a' := by
  have hf : k.family = .float := by rcases hk with rfl | rfl <;> rfl
  rw [heldBy?_of_represent (by rw [hf, represent_float h.isUnknown])] at hheld
  cases h with
  | real h =>
    obtain ⟨a', ha', hstores⟩ := roundFloat_exact h hk hheld
    exact ⟨rfl, a', .real ha', hstores⟩
  | complex hre him =>
    unfold toFloat at hheld
    split at hheld
    · obtain ⟨a', ha', hstores⟩ := roundFloat_exact hre hk hheld
      exact ⟨(sign_eq_zero_iff him).mp ‹_›, a', .real ha', hstores⟩
    · cases kind_of_roundFloat hheld

lemma toComplex_of_hasParts (h : v.HasParts a b) : ∃ re im, v.toComplex = complex re im ∧
    re.exactRat? = some a ∧ im.exactRat? = some b := by
  cases h with
  | real h =>
    cases v with
    | small i | big i | ratio q => exact ⟨_, small 0, rfl, h, rfl⟩
    | _ => cases h
  | complex hre him => exact ⟨_, _, rfl, hre, him⟩

/-- A complex type holds each part as the real type of its parts does. -/
lemma HasParts.held_complex (h : v.HasParts a b) (hk : k = .complex64 ∨ k = .complex128)
    (hheld : v.heldBy? k = some w) :
    ∃ a' b', w.HasParts a' b' ∧ Stores k.part a a' ∧ Stores k.part b b' := by
  have hf : k.family = .complex := by rcases hk with rfl | rfl <;> rfl
  have hpart := hk.imp (congrArg part) (congrArg part)
  obtain ⟨re, im, re', im', hv, hre, him, rfl⟩ := parts_of_heldBy? hf h.isUnknown hheld
  obtain ⟨_, _, hv', hre', him'⟩ := toComplex_of_hasParts h
  obtain ⟨rfl, rfl⟩ := Constant.complex.inj (hv.symm.trans hv')
  obtain ⟨a', ha', hstores⟩ := roundFloat_exact hre' hpart hre
  obtain ⟨b', hb', hstores'⟩ := roundFloat_exact him' hpart him
  exact ⟨a', b', .complex ha' hb', hstores, hstores'⟩

/-- Single precision holds the parts of an exact number in its format, double precision
unchanged. -/
theorem represent_floating (h : v.HasParts a b)
    (hk : k = .float32 ∨ k = .float64 ∨ k = .complex64 ∨ k = .complex128)
    (hw : v.represent k k.family = .held w) : ∃ a' b', w.HasParts a' b' ∧
      (k = .float32 ∨ k = .complex64 →
        single.Holds a' ∧ single.Holds b') ∧
      (k = .float64 ∨ k = .complex128 → a' = a ∧ b' = b) := by
  have hheld : v.heldBy? k = some w := by rw [heldBy?, hw]
  have hzero : single.Holds 0 := holds_zero (by decide)
  rcases hk with rfl | rfl | rfl | rfl
  · obtain ⟨rfl, a', hparts, hstores⟩ := h.held_real (.inl rfl) hheld
    exact ⟨a', 0, hparts, fun _ => ⟨hstores.1 rfl, hzero⟩, by simp⟩
  · obtain ⟨rfl, a', hparts, hstores⟩ := h.held_real (.inr rfl) hheld
    exact ⟨a', 0, hparts, by simp, fun _ => ⟨hstores.2 rfl, rfl⟩⟩
  · obtain ⟨a', b', hparts, hre, him⟩ := h.held_complex (.inl rfl) hheld
    exact ⟨a', b', hparts, fun _ => ⟨hre.1 rfl, him.1 rfl⟩, by simp⟩
  · obtain ⟨a', b', hparts, hre, him⟩ := h.held_complex (.inr rfl) hheld
    exact ⟨a', b', hparts, by simp, fun _ => ⟨hre.2 rfl, him.2 rfl⟩⟩

/-- A tenth in single precision. -/
theorem represent_floating_tenth :
    (ratio (1 / 10)).represent .float32 .float = .held (ratio (13421773 / 134217728)) ∧
      single.Holds (13421773 / 134217728) := by
  have hround : roundFloat .float32 (ratio (1 / 10)) = some (ratio (13421773 / 134217728)) := by
    decide +kernel
  have hrepresent : (ratio (1 / 10)).represent .float32 .float =
      .held (ratio (13421773 / 134217728)) := by
    rw [represent_float rfl, toFloat, hround]
    rfl
  refine ⟨hrepresent, ?_⟩
  obtain ⟨a', b', hparts, hsingle, -⟩ := represent_floating (.real rfl) (.inl rfl) hrepresent
  cases hparts with
  | real h => exact Option.some.inj h ▸ (hsingle (.inl rfl)).1

/-- A tenth is no number of double precision, but is held unchanged. -/
theorem represent_tenth : (ratio (1 / 10)).represent .float64 .float = .held (ratio (1 / 10)) ∧
    ¬∃ m e : Int, |m| < 2 ^ 53 ∧ (1 / 10 : ℚ) = m * 2 ^ e := by
  constructor
  · have hround : roundFloat .float64 (ratio (1 / 10)) = some (ratio (1 / 10)) := by decide +kernel
    rw [represent_float rfl, toFloat, hround]
    rfl
  rintro ⟨m, e, -, h⟩
  by_cases he : 0 ≤ e
  · -- The number would be an integer.
    obtain ⟨k, rfl⟩ := Int.eq_ofNat_of_zero_le he
    have hint : (1 : ℚ) = ((10 * (m * 2 ^ k) : Int) : ℚ) := by
      push_cast
      rw [zpow_natCast] at h
      linarith
    have : (1 : Int) = 10 * (m * 2 ^ k) := by exact_mod_cast hint
    omega
  · -- A power of two would be divided by five.
    obtain ⟨k, hk⟩ := Int.eq_ofNat_of_zero_le (a := -e) (by omega)
    obtain rfl : e = -(k : Int) := by omega
    have hpow : (2 : Int) ^ k = 5 * (2 * m) := by
      rw [zpow_neg, zpow_natCast, ← div_eq_mul_inv, div_eq_div_iff (by norm_num) (by positivity)] at h
      have hcast : ((2 ^ k : Int) : ℚ) = ((5 * (2 * m) : Int) : ℚ) := by
        push_cast
        linarith
      exact_mod_cast hcast
    have hdvd : 5 ∣ 2 ^ k := by exact_mod_cast Dvd.intro (2 * m) hpow.symm
    have hcoprime : Coprime 5 (2 ^ k) := Coprime.pow_right k (by decide)
    exact absurd (hcoprime.eq_one_of_dvd hdvd) (by decide)

end Constant

end GoCheck
