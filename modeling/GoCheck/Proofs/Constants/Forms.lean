import GoCheck.Constant.Literal
import Mathlib.Data.List.TakeWhile
import Mathlib.Data.Nat.Size
import Mathlib.Data.Rat.Lemmas

/-!
# Numerals and forms of constants

The readers of numerals accept lists of digits of a radix and nothing else, and yield the number
that is written. Literals, conversions and operators give numbers in the forms that numbers are kept
in.
-/

namespace GoCheck.Literal

open List

/-- Digits as they are written, in small letters. -/
def digitChars {radix : Nat} (ds : List (Fin radix)) : List Char :=
  ds.map fun d : Fin radix => Nat.digitChar d.val

/-- The number that digits stand for, after a number that stands before them. -/
def digitsFrom {radix : Nat} (n : Nat) (ds : List (Fin radix)) : Nat :=
  ds.foldl (fun n (d : Fin radix) => n * radix + d.val) n

/-- The characters are digits of the radix, at least one, and stand for the number. -/
def Numeral (radix : Nat) (cs : List Char) (n : Nat) : Prop :=
  cs ≠ [] ∧ ∃ ds : List (Fin radix), cs.map Char.toLower = digitChars ds ∧ digitsFrom 0 ds = n

inductive Sign where
  | none
  | plus
  | minus

def Sign.chars : Sign → List Char
  | none => []
  | plus => ['+']
  | minus => ['-']

def Sign.apply : Sign → Nat → Int
  | minus, n => -n
  | _, n => n

variable {c : Char} {cs : List Char} {i : Int}

lemma toNat_digitChar (h : d < 16) :
    (Nat.digitChar d).toNat = if d < 10 then d + 48 else d + 87 := by
  decide +revert

lemma toNat_toLower (c : Char) :
    c.toLower.toNat = if 65 ≤ c.toNat ∧ c.toNat ≤ 90 then c.toNat + 32 else c.toNat := by
  unfold Char.toLower
  simp only [ge_iff_le, UInt32.le_iff_toNat_le, Char.toNat_val]
  split
  · rename_i h
    have h32 : ('a'.val - 'A'.val).toNat = 32 := by decide
    have hA : 'A'.toNat = 65 := rfl
    have hZ : 'Z'.toNat = 90 := rfl
    rw [if_pos (by omega), Char.toNat, UInt32.toNat_add, h32, Char.toNat_val]
    omega
  · rename_i h
    exact (if_neg h).symm

lemma exists_readInt_eq (radix : Nat) (cs : List Char) : ∃ (sign : Sign) (ds : List Char),
    cs = sign.chars ++ ds ∧ readInt radix cs = (readNat radix ds).map sign.apply := by
  unfold readInt
  split
  · rename_i ds
    exact ⟨.minus, ds, rfl, by cases readNat radix ds <;> rfl⟩
  · exact ⟨.plus, _, rfl, rfl⟩
  · exact ⟨.none, _, rfl, rfl⟩

section

variable (hradix : radix ≤ 16)
include hradix

lemma digit?_eq_some_iff : digit? radix c = some d ↔ d < radix ∧ c.toLower = Nat.digitChar d := by
  unfold digit?
  rw [← Char.toNat_inj, toNat_toLower]
  by_cases hd : d < radix
  · rw [toNat_digitChar (by omega)]
    simp only [Option.filter_eq_some_iff]
    split_ifs <;> simp <;> omega
  · simp [hd]

lemma notMem_of_numeral {l : List Char} (hl : l.all (fun c => (digit? radix c).isNone))
    (h : Numeral radix cs n) (hc : c ∈ cs) : c ∉ l := by
  obtain ⟨-, ds, hds, -⟩ := h
  obtain ⟨d, -, hd⟩ := mem_map.mp (hds ▸ mem_map_of_mem hc)
  intro hcl
  have hnone := all_eq_true.mp hl c hcl
  rw [(digit?_eq_some_iff hradix).mpr ⟨d.isLt, hd.symm⟩] at hnone
  cases hnone

lemma notMem_signs (h : Numeral radix cs n) (hc : c ∈ cs) : c ∉ ['+', '-'] :=
  notMem_of_numeral hradix rfl h hc

lemma readDigitsFrom_eq_some_iff : readDigitsFrom radix n cs = some m ↔
    ∃ ds : List (Fin radix), cs.map Char.toLower = digitChars ds ∧ digitsFrom n ds = m := by
  induction cs generalizing n with
  | nil => simp [readDigitsFrom, digitChars, digitsFrom]
  | cons c cs ih =>
    rw [readDigitsFrom, Option.bind_eq_some_iff]
    simp only [digit?_eq_some_iff hradix, ih]
    constructor
    · rintro ⟨d, ⟨hd, hc⟩, ds, hcs, hm⟩
      exact ⟨⟨d, hd⟩ :: ds, congrArg₂ List.cons hc hcs, hm⟩
    · rintro ⟨ds, hcs, hm⟩
      cases ds with
      | nil => cases hcs
      | cons d ds =>
        obtain ⟨hc, hcs⟩ := List.cons.inj hcs
        exact ⟨d, ⟨d.isLt, hc⟩, ds, hcs, hm⟩

lemma readNat_eq_some_iff : readNat radix cs = some n ↔ Numeral radix cs n := by
  rw [readNat, Numeral, ← readDigitsFrom_eq_some_iff hradix]
  cases cs <;> simp

lemma readInt_eq_some_iff : readInt radix cs = some i ↔ ∃ (sign : Sign) (ds : List Char) (n : Nat),
      cs = sign.chars ++ ds ∧ Numeral radix ds n ∧ i = sign.apply n := by
  constructor
  · intro h
    obtain ⟨sign, ds, rfl, hread⟩ := exists_readInt_eq radix cs
    obtain ⟨n, hn, rfl⟩ := Option.map_eq_some_iff.mp (hread.symm.trans h)
    exact ⟨sign, ds, n, rfl, (readNat_eq_some_iff hradix).mp hn, rfl⟩
  · rintro ⟨sign, ds, n, rfl, h, rfl⟩
    have hread := (readNat_eq_some_iff hradix).mpr h
    have hsign {c} (hc : c ∈ ds) : c ∉ ['+', '-'] := notMem_signs hradix h hc
    cases sign with
    | plus | minus =>
      rw [Sign.chars, singleton_append, readInt, hread]
      rfl
    | none =>
      -- A digit is no sign, so the last of the three forms is read.
      rw [Sign.chars, nil_append]
      unfold readInt
      split
      · exact absurd (by simp) (hsign mem_cons_self)
      · exact absurd (by simp) (hsign mem_cons_self)
      · rw [hread]
        rfl

end

lemma map_toLower_eq_iff {ds : List (Fin 10)} :
    cs.map Char.toLower = digitChars ds ↔ cs = digitChars ds := by
  induction cs generalizing ds with
  | nil => rfl
  | cons c cs ih =>
    cases ds with
    | nil => simp [digitChars]
    | cons d ds =>
      have hd : c.toLower = Nat.digitChar d.val ↔ c = Nat.digitChar d.val := by
        rw [← Char.toNat_inj, ← Char.toNat_inj, toNat_toLower, toNat_digitChar (by omega)]
        split_ifs <;> omega
      exact cons_eq_cons.trans ((and_congr hd ih).trans cons_eq_cons.symm)

lemma numeral_ten_iff :
    Numeral 10 cs n ↔ ∃ ds : List (Fin 10), ds ≠ [] ∧ cs = digitChars ds ∧ digitsFrom 0 ds = n := by
  unfold Numeral
  simp only [map_toLower_eq_iff]
  constructor
  · rintro ⟨hne, ds, rfl, h⟩
    exact ⟨ds, by simpa [digitChars] using hne, rfl, h⟩
  · rintro ⟨ds, hne, rfl, h⟩
    exact ⟨by simpa [digitChars] using hne, ds, rfl, h⟩

end GoCheck.Literal

/-! ## Forms of constants -/

namespace GoCheck

open Number

namespace Constant

lemma isExactSize_iff : isExactSize i ↔ i.natAbs.size < 4096 := by
  rw [isExactSize, decide_eq_true_iff, twoPow, Nat.pow_eq, ← Nat.size_le]
  exact Nat.lt_succ_iff.symm

lemma isExactSize_of_lt (h : i.natAbs < 2 ^ 64) : isExactSize i :=
  isExactSize_iff.mpr ((Nat.size_le.mpr h).trans_lt (by decide))

lemma isExactSize_toInt (i : Int64) : isExactSize i.toInt := by
  have hlt := i.toInt_lt
  have hge := i.le_toInt
  exact isExactSize_of_lt (by omega)

/-- A property of constants that the forms in which numbers are kept have. -/
structure Stable (P : Constant → Prop) : Prop where
  plain : ∀ {v}, v.isNumeric = false → P v
  small : ∀ i, P (.small i)
  ofInt : ∀ i, P (.ofInt i)
  ofDouble : ∀ x, P (.ofDouble x)
  ratio : ∀ {q}, isExactSize q.num = true → isExactSize q.den = true → P (.ratio q)
  paired : ∀ {v}, P v → v.kind = .int ∨ v.kind = .float →
    P (complex v (.small 0)) ∧ P (complex (.small 0) v)
  parts : ∀ {re im}, P (complex re im) → P re ∧ P im
  negated : ∀ {re im}, P (complex re im) → P re.negate → P im.negate →
    P (complex re.negate im.negate)

namespace Stable

variable {v : Constant} (h : Stable P)
include h

lemma unknown : P .unknown := h.plain rfl

lemma ofRat (q : Rat) : P (.ofRat q) := by
  unfold Constant.ofRat
  split
  · rename_i hexact
    exact h.ratio (Bool.and_eq_true_iff.mp hexact).1 (Bool.and_eq_true_iff.mp hexact).2
  · exact h.ofDouble _

lemma ofExactDouble (x : Double) : P (.ofExactDouble x) := by
  unfold Constant.ofExactDouble
  split
  · exact h.ofRat _
  · exact h.unknown

lemma toInt (hv : P v) : P v.toInt := by
  have hint (q : Rat) : P (if q.den = 1 then .ofInt q.num else .unknown) := by
    split
    · exact h.ofInt _
    · exact h.unknown
  induction v with
  | small i | big i => exact hv
  | ratio q => exact hint q
  | float x =>
    unfold Constant.toInt
    split
    · exact hint _
    · exact h.unknown
  | complex re im ihre _ =>
    unfold Constant.toInt
    split
    · exact ihre (h.parts hv).1
    · exact h.unknown
  | _ => exact h.unknown

lemma toFloat (hv : P v) : P v.toFloat := by
  have hratio {i} (hi : isExactSize i) : P (.ratio i) :=
    h.ratio (by rwa [Rat.num_intCast]) (by rw [Rat.den_intCast]; exact isExactSize_of_lt (by decide))
  induction v with
  | small i => exact hratio (isExactSize_toInt i)
  | big i =>
    unfold Constant.toFloat
    split
    · exact hratio ‹_›
    · exact h.ofDouble _
  | ratio q | float x => exact hv
  | complex re im ihre _ =>
    unfold Constant.toFloat
    split
    · exact ihre (h.parts hv).1
    · exact h.unknown
  | _ => exact h.unknown

lemma toComplex (hv : P v) : P v.toComplex := by
  cases v with
  | small i | big i => exact (h.paired hv (.inl rfl)).1
  | ratio q | float x => exact (h.paired hv (.inr rfl)).1
  | complex re im => exact hv
  | _ => exact h.unknown

lemma ofImaginary (hv : P v) : P v.ofImaginary := by
  unfold Constant.ofImaginary
  split
  · exact (h.paired hv (.inl ‹_›)).2
  · exact (h.paired hv (.inr ‹_›)).2
  · exact h.unknown

lemma negate (hv : P v) : P v.negate := by
  induction v with
  | small i | big i => exact h.ofInt _
  | ratio q => exact h.ofRat _
  | float x => exact h.ofDouble _
  | complex re im ihre ihim => exact h.negated hv (ihre (h.parts hv).1) (ihim (h.parts hv).2)
  | _ => exact h.unknown

lemma foldUnary (op : UnaryOp) (hv : P v) : P (v.foldUnary op) := by
  unfold Constant.foldUnary
  split
  · split
    · exact hv
    · exact h.unknown
  · exact h.negate hv
  · exact h.plain rfl
  · exact h.unknown

lemma intChars (cs : List Char) : P (Literal.intChars cs) := by
  unfold Literal.intChars
  dsimp only
  split
  · exact h.ofInt _
  · exact h.unknown

lemma floatChars? (cs : List Char) : P ((Literal.floatChars? cs).getD .unknown) := by
  have hhex (l : Literal.HexParts) : P (l.constant?.getD .unknown) := by
    unfold Literal.HexParts.constant? Literal.HexParts.shifted
    split
    · rw [Option.getD_some]
      cases (Literal.hexMantissa l.digits).bind _ with
      | none => exact h.unknown
      | some q =>
        rw [Option.elim_some]
        exact h.ofRat q
    · exact h.unknown
  have hdecimal (l : Literal.DecimalParts) : P (l.constant?.getD .unknown) := by
    unfold Literal.DecimalParts.constant?
    split
    · rw [Option.getD_some]
      exact h.ofRat _
    · exact h.unknown
  have hread {α} (parts : Option α) (f) (hf : ∀ l, P ((f l).getD .unknown)) :
      P ((parts.elim (some .unknown) f).getD .unknown) := by
    cases parts with
    | none => exact h.unknown
    | some l => exact hf l
  unfold Literal.floatChars?
  split
  exacts [hread _ _ hhex, hread _ _ hhex, hread _ _ hdecimal]

variable (s : String)

lemma imaginary : P (Literal.imaginary s) := by
  have hpart cs : P ((Literal.imaginaryPart? cs).getD .unknown) := by
    unfold Literal.imaginaryPart?
    split
    · split
      · exact h.small 0
      · exact h.intChars _
    · exact h.floatChars? _
  unfold Literal.imaginary Literal.imaginary?
  split
  · rename_i body _
    have hbody := hpart body.reverse
    cases hread : Literal.imaginaryPart? body.reverse with
    | none => exact h.unknown
    | some v =>
      rw [hread] at hbody
      exact h.ofImaginary hbody
  · exact h.unknown

lemma rune : P (Literal.rune s) := by
  unfold Literal.rune
  split
  · exact h.small _
  · exact h.unknown

lemma string : P (Literal.string s) := by
  unfold Literal.string
  split
  · exact h.plain rfl
  · split
    · exact h.plain rfl
    · exact h.unknown

end Stable

end Constant

end GoCheck
