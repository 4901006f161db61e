import GoCheck.Proofs.Constants.Forms
import GoCheck.Proofs.Number.Rounding

/-!
# Floating-point literals

A decimal literal is read as the exact number that it stands for as long as its scale, the power of
ten that its digits are multiplied by, is moderate. A larger scale goes through double precision,
where the largest finite double replaces what is too large. The digits after the point count against
the exponent; where the difference is out of range, there is no value at all.
-/

namespace GoCheck

open Number List Option BinaryFormat Double BasicKind Nat

variable {p : Char → Bool} {as : List Char} {ds : List (Fin 10)} {c : Char}

namespace Constant

/-- Double precision accepts a rational kept in any form exactly if it is within the range. -/
lemma fits_ofRat_iff (q : ℚ) :
    ((ofRat q).isUnknown = false ∧ (ofRat q).fits .float64 BasicKind.float64.family) ↔
      |q| < double.overflow := by
  have hrange := Double.isFinite_ofRat_iff q
  have hinfinite := Double.isInfinite_eq_not_isFinite (Double.isNaN_ofRat q)
  have hfamily : BasicKind.float64.family = .float := rfl
  rw [← hrange, hfamily]
  unfold ofRat
  split
  · cases hfinite : (Double.ofRat q).isFinite <;>
      simp [isUnknown, kind, fits, represent, toFloat, roundFloat, float64, Fit.ofHeld?, hinfinite,
        hfinite]
  · cases hfinite : (Double.ofRat q).isFinite with
    | false => simp [ofDouble, hfinite, isUnknown, kind]
    | true =>
      have hzero : Double.zero.isInfinite = false := by decide
      by_cases hq : (Double.ofRat q).isZero <;>
        simp [ofDouble, isUnknown, kind, fits, represent, toFloat, roundFloat, float64, Fit.ofHeld?,
          hinfinite, hfinite, hzero, hq]

end Constant

namespace Literal

/-- The exponent of a literal, a number of 64 bits. -/
structure Exponent where
  capital : Bool
  sign : Sign
  digits : List (Fin 10)
  nonempty : digits ≠ []
  fits : fitsSigned 64 (sign.apply (digitsFrom 0 digits)) = true

/-- A decimal floating-point literal: whole digits, a point with further digits, an exponent. -/
structure DecimalLiteral where
  whole : List (Fin 10)
  fraction : Option (List (Fin 10))
  exponent : Option Exponent
  nonempty : whole ++ fraction.getD [] ≠ []

namespace DecimalLiteral

variable (l : DecimalLiteral)

/-- The digits with their point. -/
def mantissa : List Char :=
  digitChars l.whole ++ l.fraction.elim [] fun ds => '.' :: digitChars ds

/-- The literal as it is written. -/
def chars : List Char :=
  l.mantissa ++ l.exponent.elim [] fun x =>
    (if x.capital then 'E' else 'e') :: (x.sign.chars ++ digitChars x.digits)

/-- All digits, without the point. -/
def digits : List (Fin 10) := l.whole ++ l.fraction.getD []

/-- The power of ten that the digits are multiplied by. -/
def scale : Int :=
  (l.exponent.elim 0 fun x => x.sign.apply (digitsFrom 0 x.digits)) - (l.fraction.getD []).length

/-- The number that is written. -/
def value : ℚ := digitsFrom 0 l.digits * 10 ^ l.scale

/-- The literal as it is read. -/
def parts : DecimalParts where
  number := digitsFrom 0 l.digits
  places := (l.fraction.getD []).length
  exponent := l.exponent.elim 0 fun x => x.sign.apply (digitsFrom 0 x.digits)

end DecimalLiteral

lemma notMem_of_mem_digitChars (h : c ∈ digitChars ds) :
    c ∉ ['.', 'e', 'E', '+', '-', 'x', 'X'] := by
  have hne : ds ≠ [] := fun hnil => by simp [hnil, digitChars] at h
  exact notMem_of_numeral (by decide) rfl (numeral_ten_iff.mpr ⟨ds, hne, rfl, rfl⟩) h

lemma readNat_digitChars (h : ds ≠ []) :
    readNat 10 (digitChars ds) = some (digitsFrom 0 ds) :=
  (readNat_eq_some_iff (by decide)).mpr (numeral_ten_iff.mpr ⟨ds, h, rfl, rfl⟩)

section

variable (h : ∀ c ∈ as, p c = false)
include h

lemma splitAtFirst_none : splitAtFirst p as = (as, none) := by
  have hdrop : as.dropWhile (!p ·) = [] := dropWhile_eq_nil_iff.mpr fun c hc => by simp [h c hc]
  rw [splitAtFirst, hdrop]

lemma splitAtFirst_append (hb : p b) :
    splitAtFirst p (as ++ b :: bs) = (as, some bs) := by
  have hall : ∀ c ∈ as, (!p c) := fun c hc => by simp [h c hc]
  rw [splitAtFirst, dropWhile_append_of_pos hall, takeWhile_append_of_pos hall,
    dropWhile_cons_of_neg (by simp [hb]), takeWhile_cons_of_neg (by simp [hb]),
    append_nil]

end

namespace DecimalLiteral

variable (l : DecimalLiteral)

lemma notMem_of_mem_mantissa (h : c ∈ l.mantissa) :
    c ∉ ['e', 'E', '+', '-', 'x', 'X'] := by
  have hdigit {ds : List (Fin 10)} (hc : c ∈ digitChars ds) :=
    not_mem_of_not_mem_cons (notMem_of_mem_digitChars hc)
  rcases mem_append.mp h with hc | hc
  · exact hdigit hc
  · cases hfraction : l.fraction with
    | none => simp [hfraction] at hc
    | some ds =>
      rw [hfraction] at hc
      rcases mem_cons.mp hc with rfl | hc
      · decide
      · exact hdigit hc

lemma notMem_of_mem_chars (h : c ∈ l.chars) : c ∉ ['x', 'X'] := by
  rcases mem_append.mp h with hc | hc
  · have hmantissa := notMem_of_mem_mantissa l hc
    simp_all
  · cases hexponent : l.exponent with
    | none => simp [hexponent] at hc
    | some x =>
      rw [hexponent] at hc
      rcases mem_cons.mp hc with rfl | hc
      · cases x.capital <;> decide
      rcases mem_append.mp hc with hc | hc
      · revert hc
        cases x.sign <;> simp [Sign.chars]
        all_goals rintro rfl; decide
      · have hdigits := notMem_of_mem_digitChars hc
        simp_all

lemma splitPoint_mantissa :
    splitPoint l.mantissa = (digitChars l.whole, digitChars (l.fraction.getD [])) := by
  have hwhole : ∀ c ∈ digitChars l.whole, decide (c = '.') = false := fun c hc => by
    have := notMem_of_mem_digitChars hc
    simp_all
  unfold splitPoint mantissa
  cases l.fraction with
  | none =>
    rw [elim_none, append_nil, splitAtFirst_none hwhole]
    rfl
  | some ds => simp [splitAtFirst_append hwhole]

lemma splitAtFirst_chars : splitAtFirst (fun c => c = 'e' || c = 'E') l.chars =
    (l.mantissa, l.exponent.map fun x => x.sign.chars ++ digitChars x.digits) := by
  have hmantissa : ∀ c ∈ l.mantissa, (c = 'e' || c = 'E' : Bool) = false := fun c hc => by
    have := notMem_of_mem_mantissa l hc
    simp_all
  unfold chars
  cases l.exponent with
  | none => simpa using splitAtFirst_none hmantissa
  | some x => exact splitAtFirst_append hmantissa (by cases x.capital <;> rfl)

lemma exponent?_chars : exponent? 64 (l.exponent.map fun x => x.sign.chars ++ digitChars x.digits) =
    some (l.exponent.elim 0 fun x => x.sign.apply (digitsFrom 0 x.digits)) := by
  cases l.exponent with
  | none => rfl
  | some x =>
    have hread := (readInt_eq_some_iff (by decide)).mpr ⟨x.sign, digitChars x.digits, _, rfl,
        numeral_ten_iff.mpr ⟨x.digits, x.nonempty, rfl, rfl⟩, rfl⟩
    rw [map_some, exponent?, hread, filter_some, if_pos x.fits]
    rfl

end DecimalLiteral

lemma scaled_eq (n : Nat) (scale : Int) : scaled n scale = n * 10 ^ scale := by
  unfold scaled
  split
  · rename_i h
    have hpow : ((tenPow scale.toNat : Nat) : ℚ) = 10 ^ scale := by
      rw [tenPow, pow_eq, cast_pow, ← zpow_natCast, Int.toNat_of_nonneg h, cast_ofNat]
    rw [Int.cast_natCast, cast_mul, hpow]
  · rename_i h
    have hpow : ((tenPow (-scale).toNat : Nat) : ℚ) = (10 ^ scale)⁻¹ := by
      rw [tenPow, pow_eq, cast_pow, ← zpow_natCast, Int.toNat_of_nonneg (by omega),
        cast_ofNat, zpow_neg]
    rw [Rat.mkRat_eq_div, hpow, div_inv_eq_mul, Int.cast_natCast]

variable (l : DecimalLiteral)

lemma decimalParts?_chars : decimalParts? l.chars = some l.parts := by
  have happend : digitChars l.whole ++ digitChars (l.fraction.getD []) = digitChars l.digits := by
    simp [digitChars, DecimalLiteral.digits]
  have hlength : (digitChars (l.fraction.getD [])).length = (l.fraction.getD []).length := by
    simp [digitChars]
  have hread : readNat 10 (digitChars l.digits) = some (digitsFrom 0 l.digits) :=
    readNat_digitChars l.nonempty
  unfold decimalParts?
  rw [l.splitAtFirst_chars]
  dsimp only
  rw [l.exponent?_chars, l.splitPoint_mantissa]
  dsimp only [bind_eq_bind, bind_some]
  rw [happend, hread, hlength]
  rfl

lemma value_parts : l.parts.value =
    if maxScale < l.scale.natAbs then clampedScaled (digitsFrom 0 l.digits) l.scale else l.value := by
  rw [DecimalLiteral.value, ← scaled_eq]
  rfl

lemma fitsSigned_iff (bits : Nat) (i : Int) :
    fitsSigned bits i ↔ -2 ^ (bits - 1) ≤ i ∧ i < 2 ^ (bits - 1) := by
  simp [fitsSigned, twoPow_eq]

/-- A scale is too small for its bits if at all. -/
lemma fitsSigned_scale_iff : fitsSigned 64 l.scale ↔ -2 ^ 63 ≤ l.scale := by
  have hlt : l.scale < 2 ^ 63 := by
    unfold DecimalLiteral.scale
    cases l.exponent with
    | none =>
      rw [elim_none]
      omega
    | some x =>
      have := (fitsSigned_iff 64 _).mp x.fits
      rw [elim_some]
      omega
  rw [fitsSigned_iff, and_iff_left hlt]

/-- In double precision nothing is too large. -/
lemma clampedScaled_lt (n : Nat) (scale : Int) :
    |clampedScaled n scale| < double.overflow := by
  have hzero := abs_lt_overflow toRat?_zero
  have hgetD (x : Double) {r : ℚ} (hr : |r| < double.overflow) :
      |x.toRat?.getD r| < double.overflow := by
    cases hx : x.toRat? with
    | none => exact hr
    | some p => exact abs_lt_overflow hx
  unfold clampedScaled
  dsimp only
  split
  · exact hzero
  · split
    · exact hgetD _ hzero
    · exact hgetD _ (hgetD _ hzero)

/-- A text without the mark of a hexadecimal literal is read as a decimal one. -/
lemma floatChars?_decimal (h : ∀ rest, dropUnderscores cs ≠ '0' :: 'x' :: rest)
    (h' : ∀ rest, dropUnderscores cs ≠ '0' :: 'X' :: rest) :
    floatChars? cs = (decimalParts? (dropUnderscores cs)).elim (some .unknown) (·.constant?) := by
  unfold floatChars?
  split
  · exact absurd ‹_› (h _)
  · exact absurd ‹_› (h' _)
  · rfl

variable (s : String)

/-- A literal is read as its number, or in double precision if its scale is large, unless the scale
overflows. -/
lemma float?_chars (h : dropUnderscores s.toList = l.chars) :
    float? s = if -2 ^ 63 ≤ l.scale then some (.ofRat l.parts.value) else none := by
  have hx {c} (hc : c ∈ ['x', 'X']) rest : dropUnderscores s.toList ≠ '0' :: c :: rest := by
    intro hs
    exact l.notMem_of_mem_chars (by simp [← h, hs]) hc
  rw [float?, floatChars?_decimal (hx (by simp)) (hx (by simp)), h, decimalParts?_chars, elim_some]
  exact if_congr (fitsSigned_scale_iff l) rfl rfl

/-- The scale of a literal overflows if it is below the numbers of 64 bits. Apart from that, double
precision accepts a literal exactly if its number is below the halfway point between the largest
finite double and the next power of two, or if its scale is too large to be carried out. -/
theorem float_decimal_iff (h : dropUnderscores s.toList = l.chars) :
    (float? s = none ↔ l.scale < -2 ^ 63) ∧
    ((∃ v, float? s = some v ∧ v.isUnknown = false ∧ v.fits .float64 float64.family = true) ↔
      -2 ^ 63 ≤ l.scale ∧ (l.value < 2 ^ 1024 - 2 ^ 970 ∨ maxScale < l.scale.natAbs)) := by
  have hnonneg : 0 ≤ l.value := by
    unfold DecimalLiteral.value
    positivity
  rw [float?_chars l s h, ← not_le]
  by_cases hfits : -2 ^ 63 ≤ l.scale
  · rw [if_pos hfits, and_iff_right hfits]
    refine ⟨iff_of_false nofun (not_not_intro hfits), ?_⟩
    simp only [some.injEq, exists_eq_left']
    rw [Constant.fits_ofRat_iff, ← overflow_double, value_parts]
    split
    · rename_i hscale
      exact iff_of_true (clampedScaled_lt ..) (.inr hscale)
    · rename_i hscale
      rw [abs_of_nonneg hnonneg, or_iff_left hscale]
  · rw [if_neg hfits]
    exact ⟨iff_of_true rfl hfits, iff_of_false (by rintro ⟨v, ⟨⟩, -⟩) fun h => hfits h.1⟩

/-- The literal `17.9e307`, a number near the end of the range. -/
def DecimalLiteral.large : DecimalLiteral where
  whole := [1, 7]
  fraction := some [9]
  exponent := some ⟨false, .none, [3, 0, 7], by decide, by decide⟩
  nonempty := by decide

theorem float_decimal_large :
    dropUnderscores "1_7.9e307".toList = DecimalLiteral.large.chars ∧
      (∃ v, float? "1_7.9e307" = some v ∧ v.isUnknown = false ∧
        v.fits .float64 float64.family = true) ∧
      DecimalLiteral.large.value < 2 ^ 1024 - 2 ^ 970 := by
  have hchars : dropUnderscores "1_7.9e307".toList = DecimalLiteral.large.chars := by decide
  have hread : ∃ v, float? "1_7.9e307" = some v ∧ v.isUnknown = false ∧
      v.fits .float64 float64.family = true :=
    ⟨float "1_7.9e307", by decide +kernel, by decide +kernel, by decide +kernel⟩
  exact ⟨hchars, hread,
    ((float_decimal_iff _ _ hchars).2.mp hread).2.resolve_right (by decide)⟩

/-- The literal `1e5000`, far beyond the range. -/
def DecimalLiteral.huge : DecimalLiteral where
  whole := [1]
  fraction := none
  exponent := some ⟨false, .none, [5, 0, 0, 0], by decide, by decide⟩
  nonempty := by decide

/-- A number far beyond the range is accepted for its scale, a smaller one is not even known. -/
theorem float_decimal_huge :
    dropUnderscores "1e5000".toList = DecimalLiteral.huge.chars ∧
      2 ^ 1024 - 2 ^ 970 ≤ DecimalLiteral.huge.value ∧
      (∃ v, float? "1e5000" = some v ∧ v.isUnknown = false ∧
        v.fits .float64 float64.family = true) ∧
      float? "1e2000" = some .unknown := by
  exact ⟨by decide, by decide +kernel, ⟨float "1e5000", by decide +kernel, by decide +kernel,
    by decide +kernel⟩, by decide +kernel⟩

section

lemma eq_append_of_splitAtFirst
    (h : splitAtFirst p cs = (as, some bs)) : ∃ b, p b ∧ cs = as ++ b :: bs := by
  unfold splitAtFirst at h
  split at h
  · cases h
  · rename_i b rest hdrop
    cases h
    have hb : (!p b) = false := by
      have := head_dropWhile_not (!p ·) (l := cs) (by simp [hdrop])
      simpa [hdrop] using this
    refine ⟨b, by simpa using hb, ?_⟩
    rw [← hdrop, takeWhile_append_dropWhile]

lemma eq_of_splitAtFirst (h : splitAtFirst p cs = (as, none)) : cs = as := by
  unfold splitAtFirst at h
  split at h <;> cases h
  rfl

/-- A mantissa whose digits can be read is put together from digits and a point. -/
lemma exists_mantissa (h : readNat 10 ((splitPoint cs).1 ++ (splitPoint cs).2) = some n) :
    ∃ (whole : List (Fin 10)) (fraction : Option (List (Fin 10))), whole ++ fraction.getD [] ≠ [] ∧
      cs = digitChars whole ++ fraction.elim [] fun ds => '.' :: digitChars ds := by
  obtain ⟨ds, hne, hds, -⟩ := numeral_ten_iff.mp ((readNat_eq_some_iff (by decide)).mp h)
  obtain ⟨whole, fraction, rfl, hwhole, hfraction⟩ := map_eq_append_iff.mp hds.symm
  unfold splitPoint at hwhole hfraction
  obtain ⟨as, rest, hsplit⟩ : ∃ as rest, splitAtFirst (· = '.') cs = (as, rest) := ⟨_, _, rfl⟩
  rw [hsplit] at hwhole hfraction
  cases rest with
  | none =>
    obtain rfl : fraction = [] := map_eq_nil_iff.mp hfraction
    refine ⟨whole, none, by simpa using hne, ?_⟩
    rw [eq_of_splitAtFirst hsplit, ← show digitChars whole = as from hwhole]
    simp
  | some bs =>
    obtain ⟨b, hb, hcs⟩ := eq_append_of_splitAtFirst hsplit
    obtain rfl : b = '.' := by simpa using hb
    refine ⟨whole, some fraction, hne, ?_⟩
    rw [hcs, ← show digitChars whole = as from hwhole, ← show digitChars fraction = bs from hfraction]
    rfl

/-- Whatever is read as a decimal number is a decimal literal. -/
lemma exists_literal (h : decimalParts? cs = some parts) : ∃ l : DecimalLiteral, cs = l.chars := by
  unfold decimalParts? at h
  obtain ⟨mantissa, rest, hsplit⟩ :
      ∃ as rest, splitAtFirst (fun c => c = 'e' || c = 'E') cs = (as, rest) := ⟨_, _, rfl⟩
  rw [hsplit] at h
  simp only [bind_eq_bind, bind_eq_some_iff] at h
  obtain ⟨e, hexponent, n, hread, -⟩ := h
  obtain ⟨whole, fraction, hne, rfl⟩ := exists_mantissa hread
  cases rest with
  | none =>
    refine ⟨⟨whole, fraction, none, hne⟩, ?_⟩
    rw [eq_of_splitAtFirst hsplit]
    exact (append_nil _).symm
  | some bs =>
    obtain ⟨b, hb, hcs⟩ := eq_append_of_splitAtFirst hsplit
    obtain ⟨hint, hfits⟩ := filter_eq_some_iff.mp hexponent
    obtain ⟨sign, ds, m, rfl, hds, rfl⟩ := (readInt_eq_some_iff (by decide)).mp hint
    obtain ⟨ds, hdigits, rfl, rfl⟩ := numeral_ten_iff.mp hds
    refine ⟨⟨whole, fraction, some ⟨b = 'E', sign, ds, hdigits, hfits⟩, hne⟩, ?_⟩
    rw [hcs]
    have hmark : (if (decide (b = 'E')) then 'E' else 'e') = b := by
      rcases (by simpa using hb : b = 'e' ∨ b = 'E') with rfl | rfl <;> rfl
    exact congrArg (_ ++ · :: _) hmark.symm

/-- A literal kept exactly: a moderate scale, and less than 4096 bits in its number. -/
structure DecimalLiteral.IsExact (l : DecimalLiteral) : Prop where
  scale : l.scale.natAbs ≤ 4096
  num : l.value.num.natAbs.size < 4096
  den : l.value.den.size < 4096

/-- A decimal literal that is kept exactly is read as its number. What is neither a decimal literal
nor marked as hexadecimal is not known. -/
theorem float_decimal_exact :
    (∀ l : DecimalLiteral, dropUnderscores s.toList = l.chars → l.IsExact →
      float s = .ratio l.value ∧ ∀ (t : String) (l' : DecimalLiteral),
        dropUnderscores t.toList = l'.chars → l'.IsExact → l'.value = l.value → float t = float s) ∧
    ((∀ rest, dropUnderscores s.toList ≠ '0' :: 'x' :: rest ∧
      dropUnderscores s.toList ≠ '0' :: 'X' :: rest) →
      (∀ l : DecimalLiteral, dropUnderscores s.toList ≠ l.chars) → float s = .unknown) := by
  have hexact {t : String} {l : DecimalLiteral} (ht : dropUnderscores t.toList = l.chars)
      (hl : l.IsExact) : float t = .ratio l.value := by
    have hscale : ¬maxScale < l.scale.natAbs := not_lt.mpr hl.scale
    have hden : Constant.isExactSize l.value.den = true := Constant.isExactSize_iff.mpr hl.den
    have hfits : -2 ^ 63 ≤ l.scale := by
      have := hl.scale
      omega
    rw [float, float?_chars l t ht, if_pos hfits, value_parts, if_neg hscale]
    simp [Constant.ofRat, Constant.isExactSize_iff.mpr hl.num, hden]
  refine ⟨fun l hs hl => ⟨hexact hs hl, fun t l' ht hl' hvalue => ?_⟩, fun hx hs => ?_⟩
  · rw [hexact hs hl, hexact ht hl', hvalue]
  · rw [float, float?, floatChars?_decimal (fun rest => (hx rest).1) fun rest => (hx rest).2]
    cases hread : decimalParts? (dropUnderscores s.toList) with
    | none => rfl
    | some parts =>
      obtain ⟨l, hl⟩ := exists_literal hread
      exact absurd hl (hs l)

end

def DecimalLiteral.tenth : DecimalLiteral where
  whole := [0]
  fraction := some [1]
  exponent := none
  nonempty := by decide

/-- The literal `10e-2`. -/
def DecimalLiteral.tenHundredths : DecimalLiteral where
  whole := [1, 0]
  fraction := none
  exponent := some ⟨false, .minus, [2], by decide, by decide⟩
  nonempty := by decide

/-- The literals `0.1` and `10e-2` are read as one rational. -/
theorem float_decimal_exact_tenth :
    dropUnderscores "0_.1".toList = DecimalLiteral.tenth.chars ∧ DecimalLiteral.tenth.IsExact ∧
      float "0_.1" = .ratio (1 / 10) ∧ float "10e-2" = float "0_.1" ∧ float "1e" = .unknown := by
  have htenth : DecimalLiteral.tenth.value = 1 / 10 := by decide +kernel
  have hhundredths : DecimalLiteral.tenHundredths.value = 1 / 10 := by decide +kernel
  have hexact : DecimalLiteral.tenth.IsExact := ⟨by decide, by decide +kernel, by decide +kernel⟩
  have hexact' : DecimalLiteral.tenHundredths.IsExact :=
    ⟨by decide, by decide +kernel, by decide +kernel⟩
  have hread := (float_decimal_exact "0_.1").1 .tenth (by decide) hexact
  refine ⟨by decide, hexact, htenth ▸ hread.1, ?_, by decide⟩
  exact hread.2 "10e-2" .tenHundredths (by decide) hexact' (hhundredths.trans htenth.symm)

/-- In `0_x1` there is no mark of a hexadecimal literal as long as it has its underscore. -/
theorem float_hidden_mark : ¬['0', 'x'] <+: "0_x1".toList ∧ ¬['0', 'X'] <+: "0_x1".toList ∧
    (∀ l : DecimalLiteral, dropUnderscores "0_x1".toList ≠ l.chars) ∧ float "0_x1" = .ratio 1 := by
  have hchars : dropUnderscores "0_x1".toList = ['0', 'x', '1'] := by decide
  refine ⟨by decide, by decide, fun l h => ?_, by decide +kernel⟩
  rw [hchars] at h
  exact l.notMem_of_mem_chars (c := 'x') (by simp [← h]) (by simp)

end Literal

end GoCheck

/-! ## Exponents -/

namespace GoCheck.Literal

open Number

variable {s : String} {body : List Char} {l : HexParts} {i : Int}

lemma fits_of_exponent? (h : exponent? 32 rest = some i) :
    fitsSigned 32 i := by
  cases rest with
  | none => cases h; decide
  | some cs => exact (Option.filter_eq_some_iff.mp h).2

lemma fits_exponent (h : hexParts? body = some l) : fitsSigned 32 l.exponent := by
  unfold hexParts? at h
  simp only [Option.bind_eq_bind, Option.bind_eq_some_iff] at h
  obtain ⟨e, he, ds, -, hl⟩ := h
  cases hl
  exact fits_of_exponent? he

lemma fractionBits_eq (h : l.places < 2 ^ 31) : l.fractionBits = 4 * l.places := by
  rw [HexParts.fractionBits, twoPow_eq, Int.bmod_eq_of_le (by omega) (by omega)]

/-- The mark of a hexadecimal literal stands before the text, in either case of its letter. -/
def MarkedHex (s : String) (body : List Char) : Prop :=
  dropUnderscores s.toList = '0' :: 'x' :: body ∨ dropUnderscores s.toList = '0' :: 'X' :: body

lemma float?_hex (h : MarkedHex s body) :
    float? s = (hexParts? body).elim (some .unknown) (·.constant?) := by
  unfold float? floatChars?
  rcases h with h | h <;> simp only [h]

/-- Where the arithmetic of exponents fails. The scale of a decimal literal is never too large for 64
bits, but may be too small. The shift of a hexadecimal literal is too small for 32 bits if there are
too many digits after the point. There the literal has no value; where both fit, the literal is read
with its shift. No other text fails in this way. -/
theorem exponent_arithmetic (s : String) :
    (∀ l : DecimalLiteral, dropUnderscores s.toList = l.chars →
      (fitsSigned 64 l.scale = true ↔ -2 ^ 63 ≤ l.scale) ∧
      (float? s = none ↔ fitsSigned 64 l.scale = false)) ∧
    (∀ body l, MarkedHex s body → hexParts? body = some l →
      (l.places < 2 ^ 31 → l.shift = l.exponent - 4 * l.places ∧
        (fitsSigned 32 l.fractionBits = true ↔ l.places < 2 ^ 29) ∧
        (fitsSigned 32 l.shift = true ↔ 4 * l.places ≤ l.exponent + 2 ^ 31)) ∧
      (float? s = none ↔ fitsSigned 32 l.fractionBits = false ∨ fitsSigned 32 l.shift = false) ∧
      ∀ v, float? s = some v → v = l.shifted l.shift) ∧
    (float? s = none → (∃ l : DecimalLiteral, dropUnderscores s.toList = l.chars) ∨
      ∃ body l, MarkedHex s body ∧ hexParts? body = some l) := by
  refine ⟨fun l hl => ⟨fitsSigned_scale_iff l, ?_⟩, fun body l hs hl => ⟨fun hplaces => ?_, ?_, ?_⟩,
    fun hnone => ?_⟩
  · rw [float?_chars l s hl, Bool.eq_false_iff, ne_eq, fitsSigned_scale_iff]
    simp
  · have hexponent := (fitsSigned_iff 32 _).mp (fits_exponent hl)
    rw [HexParts.shift, fractionBits_eq hplaces, fitsSigned_iff, fitsSigned_iff]
    exact ⟨rfl, by omega, by omega⟩
  · rw [float?_hex hs, hl, Option.elim_some, HexParts.constant?]
    cases fitsSigned 32 l.fractionBits <;> cases fitsSigned 32 l.shift <;> simp
  · intro v hv
    rw [float?_hex hs, hl, Option.elim_some, HexParts.constant?] at hv
    split at hv
    · exact (Option.some.inj hv).symm
    · cases hv
  · -- a text without parts is read as an unknown constant
    by_cases hmarked : ∃ body, MarkedHex s body
    · obtain ⟨body, hbody⟩ := hmarked
      cases hread : hexParts? body with
      | none => simp [float?_hex hbody, hread] at hnone
      | some l => exact .inr ⟨body, l, hbody, hread⟩
    · cases hread : decimalParts? (dropUnderscores s.toList) with
      | none =>
        rw [float?, floatChars?_decimal (fun rest h => hmarked ⟨rest, .inl h⟩)
          (fun rest h => hmarked ⟨rest, .inr h⟩), hread] at hnone
        cases hnone
      | some parts => exact .inl (exists_literal hread)

/-- The literal `0x1.8p1`. -/
theorem exponent_arithmetic_three : hexParts? "1.8p1".toList = some ⟨[1, 8], 1, 1⟩ ∧
    fitsSigned 32 (HexParts.shift ⟨[1, 8], 1, 1⟩) = true ∧ float? "0x1.8p1" = some (.ratio 3) := by
  have hread : hexParts? "1.8p1".toList = some ⟨[1, 8], 1, 1⟩ := rfl
  obtain ⟨-, hnone, hvalue⟩ := (exponent_arithmetic "0x1.8p1").2.1 _ _ (.inl (by decide)) hread
  obtain ⟨v, hv⟩ := Option.ne_none_iff_exists'.mp (mt hnone.mp (by decide))
  refine ⟨hread, by decide, hv.trans (congrArg some ((hvalue v hv).trans ?_))⟩
  decide +kernel

/-- The least exponents, with one digit after the point. Without the digit, which is a zero, the
hexadecimal literal is zero. -/
theorem exponent_arithmetic_fails :
    (∃ l : DecimalLiteral, dropUnderscores "1.0e-9223372036854775808".toList = l.chars ∧
      fitsSigned 64 l.scale = false) ∧
    float? "1.0e-9223372036854775808" = none ∧
    hexParts? "1.0p-2147483648".toList = some ⟨[1, 0], 1, -2147483648⟩ ∧
    fitsSigned 32 (HexParts.shift ⟨[1, 0], 1, -2147483648⟩) = false ∧
    float? "0x1.0p-2147483648" = none ∧ float? "0x1p-2147483648" = some (.ratio 0) := by
  refine ⟨⟨⟨[1], some [0], some ⟨false, .minus,
    [9, 2, 2, 3, 3, 7, 2, 0, 3, 6, 8, 5, 4, 7, 7, 5, 8, 0, 8], by decide, by decide⟩, by decide⟩,
    by decide, by decide⟩, by decide +kernel, rfl, by decide, by decide +kernel, by decide +kernel⟩

end GoCheck.Literal
