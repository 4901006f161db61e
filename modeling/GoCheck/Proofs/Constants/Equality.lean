import GoCheck.Proofs.Constants.Exactness
import GoCheck.Proofs.Constants.Fit

/-!
# Equality of constants

Exact values are equal if they stand for the same, whatever form their numbers have. A double can be
equal to two exact numbers that differ. Apart from that, equality is transitive.
-/

namespace GoCheck

open Number BinaryFormat Double Option

namespace Number.Double

variable {x y : Double}

lemma numEq_iff : x.numEq y ↔
    x.isNaN = false ∧ y.isNaN = false ∧ (x = y ∨ x.isZero ∧ y.isZero) := by
  have hbits : x.bits = y.bits ↔ x = y := ⟨congrArg mk, congrArg bits⟩
  simp [numEq, and_assoc, hbits]

lemma numEq_self (h : x.isNaN = false) : x.numEq x :=
  numEq_iff.mpr ⟨h, h, .inl rfl⟩

lemma numEq_comm (x y : Double) : x.numEq y = y.numEq x := by
  rw [Bool.eq_iff_iff, numEq_iff, numEq_iff]
  tauto

lemma numEq_trans (hxy : x.numEq y) (hyz : y.numEq z) : x.numEq z := by
  rw [numEq_iff] at *
  obtain ⟨hx, hy, hxy⟩ := hxy
  obtain ⟨-, hz, hyz⟩ := hyz
  refine ⟨hx, hz, ?_⟩
  rcases hxy with rfl | ⟨hx₀, hy₀⟩
  · exact hyz
  · rcases hyz with rfl | ⟨-, hz₀⟩
    · exact .inr ⟨hx₀, hy₀⟩
    · exact .inr ⟨hx₀, hz₀⟩

lemma numEq_congr (h : x.numEq y) : x.numEq z = y.numEq z := by
  rw [Bool.eq_iff_iff]
  exact ⟨numEq_trans (numEq_comm x y ▸ h), numEq_trans h⟩

end Number.Double

namespace Constant

variable {a b v w : Constant}

/-- The part of a number that is not imaginary. -/
def realPart : Constant → Constant
  | complex re _ => re
  | v => v

/-- The imaginary part of a number; that of a real number is zero. -/
def imaginaryPart : Constant → Constant
  | complex _ im => im
  | _ => small 0

/-- How many complex values a value is made of. -/
def pairs : Constant → Nat
  | complex re im => re.pairs + im.pairs + 1
  | _ => 0

lemma pairs_parts (v : Constant) :
    v.realPart.pairs ≤ v.pairs - 1 ∧ v.imaginaryPart.pairs ≤ v.pairs - 1 := by
  cases v with
  | complex re im =>
    simp only [realPart, imaginaryPart, pairs]
    omega
  | _ => simp [realPart, imaginaryPart, pairs]

lemma isReal_iff : v.IsReal ↔ v.isNumeric ∧ v.pairs = 0 := by
  cases v <;> simp [IsReal, isNumeric, kind, pairs]

lemma equal_iff_of_not_numeric (h : a.isNumeric = false) : a.equal b ↔ a = b := by
  cases a with
  | unknown | bool _ | string _ => cases b <;> simp [equal, isNumeric, kind]
  | _ => cases h

lemma isNumeric_of_equal (h : a.equal b) : a.isNumeric = b.isNumeric := by
  cases ha : a.isNumeric with
  | false => rw [← (equal_iff_of_not_numeric ha).mp h, ha]
  | true =>
    cases a with
    | unknown | bool _ | string _ => cases ha
    | _ => cases b <;> first | rfl | simp [equal, isNumeric, kind] at h

lemma IsReal.parts (h : v.IsReal) : v.realPart = v ∧ v.imaginaryPart = small 0 := by
  cases v with
  | complex re im => simp [IsReal, kind] at h
  | _ => exact ⟨rfl, rfl⟩

lemma equal_of_isReal (h : a.IsReal) (b : Constant) : a.equal b = equalToReal a b := by
  cases a with
  | small _ | big _ | ratio _ | float _ =>
    cases b <;> simp [equal, equalToReal, isNumeric, kind]
  | _ => simp [IsReal, kind] at h

lemma equal_eq_realEqual (ha : a.IsReal) (hb : b.IsReal) : a.equal b = a.realEqual b := by
  rw [equal_of_isReal ha]
  cases b with
  | complex br bi => simp [IsReal, kind] at hb
  | _ => simp [equalToReal, (isReal_iff.mp hb).1]

lemma equal_eq_parts (ha : a.isNumeric) (hb : b.isNumeric) :
    a.equal b = (a.realPart.equal b.realPart && a.imaginaryPart.equal b.imaginaryPart) := by
  have hzero : (small 0).equal (small 0) := by decide
  cases a with
  | unknown | bool _ | string _ => cases ha
  | complex ar ai =>
    cases b with
    | complex br bi => rw [equal, realPart, realPart, imaginaryPart, imaginaryPart]
    | _ => simp [equal, realPart, imaginaryPart, hb]
  | _ =>
    have hreal := isReal_iff.mpr ⟨ha, rfl⟩
    cases b with
    | complex br bi =>
      simp only [equal_of_isReal hreal, equal_of_isReal (a := small 0) (.inl rfl), equalToReal,
        realPart, imaginaryPart]
    | _ => simp [realPart, imaginaryPart, hzero]

lemma isReal_of_exactRat? (h : v.exactRat? = some p) : v.IsReal := by
  cases v <;> simp_all [exactRat?, IsReal, kind]

lemma equal_of_exact (ha : a.exactRat? = some p) (hb : b.exactRat? = some q) :
    a.equal b = decide (p = q) := by
  rw [equal_eq_realEqual (isReal_of_exactRat? ha) (isReal_of_exactRat? hb), realEqual, ha, hb]

lemma HasParts.isNumeric (h : v.HasParts p q) : v.isNumeric := by
  cases h with
  | real h => exact (isReal_iff.mp (isReal_of_exactRat? h)).1
  | complex => rfl

lemma HasParts.parts (h : v.HasParts p q) :
    v.realPart.exactRat? = some p ∧ v.imaginaryPart.exactRat? = some q := by
  cases h with
  | complex hre him => exact ⟨hre, him⟩
  | real h =>
    obtain ⟨hre, him⟩ := (isReal_of_exactRat? h).parts
    rw [hre, him]
    exact ⟨h, rfl⟩

/-- What an exact value stands for: a complex rational number, or a value of another kind. -/
inductive Meaning where
  | number (re im : ℚ)
  | plain (v : Constant)

/-- An exact value stands for the number that its parts make up, or for itself. -/
inductive Means : Constant → Meaning → Prop
  | number {v : Constant} {p q : ℚ} : v.HasParts p q → Means v (.number p q)
  | plain {v : Constant} : v.isNumeric = false → Means v (.plain v)

/-- Exact values are equal if they stand for the same. -/
theorem equal_iff_means {m n : Meaning} (ha : a.Means m) (hb : b.Means n) :
    a.equal b = true ↔ m = n := by
  cases ha with
  | number ha =>
    cases hb with
    | number hb =>
      rw [equal_eq_parts ha.isNumeric hb.isNumeric, equal_of_exact ha.parts.1 hb.parts.1,
        equal_of_exact ha.parts.2 hb.parts.2]
      simp
    | plain hb =>
      refine ⟨fun h => ?_, fun h => by cases h⟩
      rw [← isNumeric_of_equal h, ha.isNumeric] at hb
      cases hb
  | plain ha =>
    rw [equal_iff_of_not_numeric ha]
    cases hb with
    | number hb =>
      refine ⟨fun h => ?_, fun h => by cases h⟩
      rw [h, hb.isNumeric] at ha
      cases ha
    | plain hb => simp

/-- Three forms of one number, one of them complex, and a number that is no truth value. -/
theorem equal_iff_means_one :
    (big 1).equal (complex (ratio 1) (small 0)) = true ∧ (small 1).equal (bool true) = false := by
  have hbig : (big 1).Means (.number 1 0) := .number (.real rfl)
  have hcomplex : (complex (ratio 1) (small 0)).Means (.number 1 0) := .number (.complex rfl rfl)
  have hsmall : (small 1).Means (.number 1 0) := .number (.real rfl)
  have htrue : (bool true).Means (.plain (bool true)) := .plain rfl
  refine ⟨(equal_iff_means hbig hcomplex).mpr rfl, Bool.eq_false_iff.mpr fun h => ?_⟩
  cases (equal_iff_means hsmall htrue).mp h

lemma isNaN_of_exactRat? (h : v.exactRat? = some p) : v.float64.1.isNaN = false := by
  cases v with
  | small _ | big _ | ratio _ => exact isNaN_ofRat _
  | _ => cases h

/-- The same integer in the form without a size and as a rational, if the doubles of these differ. -/
def ConvertedApart (v w : Constant) : Prop :=
  ∃ i, (Double.ofInt i).numEq (Double.ofRat i) = false ∧
    (v = big i ∧ w = ratio i ∨ v = ratio i ∧ w = big i)

/-- Apart from that, the double of an exact number does not depend on its form. -/
lemma numEq_float64_iff (hv : v.exactRat? = some p) (hw : w.exactRat? = some p) :
    v.float64.1.numEq w.float64.1 ↔ ¬ConvertedApart v w := by
  have hform {v : Constant} (h : v.exactRat? = some p) : v = ratio p ∨ ∃ i : Int, p = i ∧
      v.float64.1 = Double.ofInt i ∧ (v = big i ∨ Double.ofInt i = Double.ofRat i) := by
    cases v with
    | small i =>
      exact .inr ⟨_, (some.inj h).symm, rfl, .inr (Double.ofInt_of_lt (natAbs_toInt_lt i))⟩
    | big i => exact .inr ⟨i, (some.inj h).symm, rfl, .inl rfl⟩
    | ratio q => exact .inl (congrArg ratio (some.inj h))
    | _ => cases h
  constructor
  · rintro h ⟨i, hne, ⟨rfl, rfl⟩ | ⟨rfl, rfl⟩⟩
    · exact Bool.false_ne_true (hne.symm.trans h)
    · exact Bool.false_ne_true (hne.symm.trans ((Double.numEq_comm _ _).trans h))
  · intro hapart
    by_contra hne
    rw [Bool.not_eq_true] at hne
    refine hapart ?_
    have hdiffer : v.float64.1 ≠ w.float64.1 := by
      intro h
      rw [h, Double.numEq_self (isNaN_of_exactRat? hw)] at hne
      cases hne
    rcases hform hv with rfl | ⟨i, rfl, hvi, hv⟩
    · rcases hform hw with rfl | ⟨i, rfl, hwi, rfl | hw⟩
      · exact absurd rfl hdiffer
      · exact ⟨i, (Double.numEq_comm _ _).trans hne, .inr ⟨rfl, rfl⟩⟩
      · exact absurd (hwi.trans hw).symm hdiffer
    · rcases hform hw with rfl | ⟨j, hj, hwj, -⟩
      · rcases hv with rfl | hv
        · exact ⟨i, hne, .inl ⟨rfl, rfl⟩⟩
        · exact absurd (hvi.trans hv) hdiffer
      · obtain rfl := Int.cast_inj.mp hj
        exact absurd (hvi.trans hwj.symm) hdiffer

/-- A real number hides a difference: a double between exact numbers, or two forms beside a
double. -/
def HidesReal (a b c : Constant) : Prop :=
  match a.exactRat?, b.exactRat?, c.exactRat? with
  | some p, none, some q => p ≠ q
  | none, some _, some _ => ConvertedApart b c
  | some _, some _, none => ConvertedApart a b
  | _, _, _ => False

lemma realEqual_trans_iff (hab : a.realEqual b) (hbc : b.realEqual c) :
    a.realEqual c ↔ ¬HidesReal a b c := by
  unfold realEqual at hab hbc ⊢
  unfold HidesReal
  cases ha : a.exactRat? with
  | none =>
    rw [ha] at hab
    cases hb : b.exactRat? with
    | none =>
      rw [hb] at hbc
      simpa using numEq_trans hab hbc
    | some q =>
      cases hc : c.exactRat? with
      | none =>
        rw [hb, hc] at hbc
        simpa using numEq_trans hab hbc
      | some r =>
        obtain rfl : q = r := by simpa [hb, hc] using hbc
        rw [← numEq_float64_iff hb hc]
        simp [numEq_congr hab]
  | some p =>
    cases hb : b.exactRat? with
    | none =>
      rw [ha, hb] at hab
      rw [hb] at hbc
      have hac := numEq_trans hab hbc
      cases c.exactRat? with
      | none => simpa using hac
      | some r => simp
    | some q =>
      obtain rfl : p = q := by simpa [ha, hb] using hab
      cases hc : c.exactRat? with
      | none =>
        rw [hb, hc] at hbc
        rw [← numEq_float64_iff ha hb, numEq_comm, ← numEq_congr hbc]
        simp [numEq_comm]
      | some r => simpa [hb, hc] using hbc

/-- The second of three values hides a difference between the others at some part of them. -/
inductive Hides : Constant → Constant → Constant → Prop
  | real {a b c : Constant} : a.IsReal → b.IsReal → c.IsReal → HidesReal a b c → Hides a b c
  | realPart {a b c : Constant} : 0 < a.pairs + b.pairs + c.pairs →
      Hides a.realPart b.realPart c.realPart → Hides a b c
  | imaginaryPart {a b c : Constant} : 0 < a.pairs + b.pairs + c.pairs →
      Hides a.imaginaryPart b.imaginaryPart c.imaginaryPart → Hides a b c

/-- Equality is transitive where nothing is hidden, and only there. Beside a complex value all three
are compared part by part. -/
theorem equal_trans_iff (hab : a.equal b = true) (hbc : b.equal c = true) :
    a.equal c = true ↔ ¬Hides a b c := by
  -- on the number of pairs, since parts may be pairs in turn
  induction hn : a.pairs + b.pairs + c.pairs using Nat.strongRecOn generalizing a b c with
  | ind n ih =>
    have hb := isNumeric_of_equal hab
    have hc := hb.trans (isNumeric_of_equal hbc)
    cases ha : a.isNumeric with
    | false =>
      obtain rfl := (equal_iff_of_not_numeric ha).mp hab
      obtain rfl := (equal_iff_of_not_numeric ha).mp hbc
      refine iff_of_true hab fun h => ?_
      cases h with
      | real hreal => simp [(isReal_iff.mp hreal).1] at ha
      | realPart h | imaginaryPart h => cases a <;> simp_all [pairs, isNumeric, kind]
    | true =>
      rw [ha] at hb hc
      by_cases hzero : n = 0
      · -- three real values, compared as such
        have ha := isReal_iff.mpr ⟨ha, (by omega : a.pairs = 0)⟩
        have hb := isReal_iff.mpr ⟨hb.symm, (by omega : b.pairs = 0)⟩
        have hc := isReal_iff.mpr ⟨hc.symm, (by omega : c.pairs = 0)⟩
        have hides : Hides a b c ↔ HidesReal a b c := by
          refine ⟨fun h => ?_, .real ha hb hc⟩
          cases h with
          | real _ _ _ h => exact h
          | realPart h | imaginaryPart h => omega
        rw [equal_eq_realEqual ha hb] at hab
        rw [equal_eq_realEqual hb hc] at hbc
        rw [equal_eq_realEqual ha hc, realEqual_trans_iff hab hbc, hides]
      · have hides : Hides a b c ↔ Hides a.realPart b.realPart c.realPart ∨
            Hides a.imaginaryPart b.imaginaryPart c.imaginaryPart := by
          refine ⟨fun h => ?_, fun h => h.elim (.realPart (by omega)) (.imaginaryPart (by omega))⟩
          cases h with
          | real ha hb hc =>
            have := (isReal_iff.mp ha).2
            have := (isReal_iff.mp hb).2
            have := (isReal_iff.mp hc).2
            omega
          | realPart _ h => exact .inl h
          | imaginaryPart _ h => exact .inr h
        have := a.pairs_parts
        have := b.pairs_parts
        have := c.pairs_parts
        rw [equal_eq_parts ha hb.symm, Bool.and_eq_true_iff] at hab
        rw [equal_eq_parts hb.symm hc.symm, Bool.and_eq_true_iff] at hbc
        rw [equal_eq_parts ha hc.symm, Bool.and_eq_true_iff, hides, not_or,
          ih _ (by omega) hab.1 hbc.1 rfl, ih _ (by omega) hab.2 hbc.2 rfl]

/-- A double of value one is as good as the exact number, also as a part. -/
theorem equal_trans_iff_one :
    ¬Hides (small 1) (complex (float (.ofInt 1)) (small 0)) (float (.ofInt 1)) := by
  have hab : (small 1).equal (complex (float (.ofInt 1)) (small 0)) = true := by decide +kernel
  have hbc : (complex (float (.ofInt 1)) (small 0)).equal (float (.ofInt 1)) = true := by
    decide +kernel
  exact (equal_trans_iff hab hbc).mp (by decide +kernel)

/-- A double is equal to two integers, or to only one of two forms of an integer. -/
theorem equal_not_trans : ((small (2 ^ 53 + 1)).equal (float (.ofInt (2 ^ 53))) = true ∧
      (float (.ofInt (2 ^ 53))).equal (small (2 ^ 53)) = true ∧
      (small (2 ^ 53 + 1)).equal (small (2 ^ 53)) = false) ∧
    ∃ i : Int, (big i).equal (ratio i) = true ∧ (ratio i).equal (float (.ofRat i)) = true ∧
      (big i).equal (float (.ofRat i)) = false :=
  ⟨by decide +kernel, 2 ^ 192 + 2 ^ 139 + 2 ^ 63, by decide +kernel⟩

end Constant

end GoCheck
