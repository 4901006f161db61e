/-!
# Binary and decimal numbers

Numbers of the form `m * 2 ^ e` with a bounded significand `m`, and the doubles as their 64-bit
patterns, so that infinities, not-a-number and the sign of zero are values like any other. Among
decimal digits a tie goes to the even digit where their count or the places are given, and to the
larger one among the fewest that read back as the same double.
-/

namespace GoCheck.Number

def twoPow (e : Nat) : Nat := Nat.pow 2 e

def tenPow (e : Nat) : Nat := Nat.pow 10 e

/-- Whether an integer can be written with `bits` bits, one of them for the sign. -/
def fitsSigned (bits : Nat) (i : Int) : Bool :=
  -(twoPow (bits - 1) : Int) ≤ i ∧ i < twoPow (bits - 1)

/-- Whether an integer can be written with `bits` bits and no sign. -/
def fitsUnsigned (bits : Nat) (i : Int) : Bool := 0 ≤ i ∧ i < twoPow bits

/-- The natural number nearest to `num / den`; of two equally near the even one. -/
def roundDiv (num den : Nat) : Nat :=
  let q := num / den
  let r := num % den
  if 2 * r < den then q
  else if den < 2 * r then q + 1
  else if q % 2 = 0 then q else q + 1

/-- The natural number nearest to `num / den`; of two equally near the larger one. -/
def roundDivUp (num den : Nat) : Nat :=
  if 2 * (num % den) < den then num / den else num / den + 1

def twoPowLe (k : Int) (num den : Nat) : Bool :=
  if 0 ≤ k then den * twoPow k.toNat ≤ num else den ≤ num * twoPow (-k).toNat

/-- The greatest `k` with `2 ^ k ≤ num / den`, for positive numbers. -/
def log2Quotient (num den : Nat) : Int :=
  let k : Int := (num.log2 : Int) - (den.log2 : Int)
  if twoPowLe k num den then k else k - 1

def tenPowLe (k : Int) (num den : Nat) : Bool :=
  if 0 ≤ k then den * tenPow k.toNat ≤ num else den ≤ num * tenPow (-k).toNat

/-- The greatest `k` with `10 ^ k ≤ num / den`; the numbers of digits leave two candidates. -/
def log10Quotient (num den : Nat) : Int :=
  let k : Int := ((Nat.toDigits 10 num).length : Int) - ((Nat.toDigits 10 den).length : Int)
  if tenPowLe k num den then k else k - 1

/-! ## Binary formats -/

/-- A binary format: the bits of its significand, its least and its first excessive exponent. -/
structure BinaryFormat where
  precision : Nat
  minExponent : Int
  limit : Int

/-- Single precision: 24 bits, units from `2 ^ -149`, numbers below `2 ^ 128`. -/
def BinaryFormat.single : BinaryFormat := ⟨24, -149, 128⟩

/-- Double precision: 53 bits, units from `2 ^ -1074`, numbers below `2 ^ 1024`. -/
def BinaryFormat.double : BinaryFormat := ⟨53, -1074, 1024⟩

/-- The exponent of the unit in which the positive quotient `num / den` is rounded. -/
def BinaryFormat.unitExponent (f : BinaryFormat) (num den : Nat) : Int :=
  max f.minExponent (log2Quotient num den - (f.precision - 1))

/-- The number of units `2 ^ e` nearest to the quotient `num / den`, ties to even. -/
def roundToUnit (e : Int) (num den : Nat) : Nat :=
  if 0 ≤ e then roundDiv num (den * twoPow e.toNat) else roundDiv (num * twoPow (-e).toNat) den

/-- The number of the format nearest to a positive quotient; `none` if that is too large. The
significand may be `2 ^ precision`. -/
def BinaryFormat.round (f : BinaryFormat) (num den : Nat) : Option (Nat × Int) :=
  let e := f.unitExponent num den
  let m := roundToUnit e num den
  if twoPowLe (f.limit - e) m 1 then none else some (m, e)

/-- Whether one of the 64-bit words of a number has a bit set among its lowest `width`. -/
def anyLowBits (width n : Nat) : Bool :=
  if n = 0 then false else n % twoPow width ≠ 0 || anyLowBits width (n / twoPow 64)
termination_by n
decreasing_by exact Nat.div_lt_self (by omega) (by decide)

/-- The leading 64 bits of a number and the exponent of their unit. The last bit also stands for
bits below, as many of each word as the uppermost word has. -/
def leadingWord (n : Nat) : Nat × Nat :=
  let e := n.log2 + 1 - 64
  let top := n / twoPow e
  (if anyLowBits (n.log2 % 64 + 1) (n % twoPow e) then top ||| 1 else top, e)

def scaledRat (negative : Bool) (m : Nat) (e : Int) : Rat :=
  let n : Int := if negative then -(m : Int) else m
  if 0 ≤ e then (n * twoPow e.toNat : Int) else mkRat n (twoPow (-e).toNat)

/-- A double-precision number, given by its 64 bits. -/
structure Double where
  bits : UInt64
  deriving DecidableEq, Inhabited

namespace Double

variable (x : Double)

def negative : Bool := x.bits.toNat / twoPow 63 = 1

def exponentField : Nat := x.bits.toNat / twoPow 52 % twoPow 11

def fraction : Nat := x.bits.toNat % twoPow 52

/-- The double with the given sign and lower 63 bits. -/
def ofMagnitude (negative : Bool) (magnitude : Nat) : Double :=
  ⟨((if negative then twoPow 63 else 0) + magnitude).toUInt64⟩

def infinityMagnitude : Nat := 2047 * twoPow 52

def zero : Double := ofMagnitude false 0

def maxFinite : Double := ofMagnitude false (infinityMagnitude - 1)

def isFinite : Bool := x.exponentField < 2047

def isInfinite : Bool := x.exponentField = 2047 ∧ x.fraction = 0

def isNaN : Bool := x.exponentField = 2047 ∧ x.fraction ≠ 0

def isZero : Bool := x.exponentField = 0 ∧ x.fraction = 0

def significand : Nat :=
  if x.exponentField = 0 then x.fraction else twoPow 52 + x.fraction

def exponent : Int :=
  if x.exponentField = 0 then -1074 else (x.exponentField : Int) - 1075

/-- The magnitude bits of `m * 2 ^ e`. A significand of 54 bits carries into the exponent field. -/
def magnitudeBits (m : Nat) (e : Int) : Nat :=
  if m < twoPow 52 then m else (e + 1075).toNat * twoPow 52 + (m - twoPow 52)

/-- The double nearest to a rational, ties to even; infinite if it is too large. -/
def ofRat (q : Rat) : Double :=
  if q.num = 0 then zero
  else ofMagnitude (q.num < 0) <|
    match BinaryFormat.double.round q.num.natAbs q.den with
    | some (m, e) => magnitudeBits m e
    | none => infinityMagnitude

/-- The double of an integer: that nearest to its leading word, in the unit of that word. -/
def ofInt (i : Int) : Double :=
  let (m, e) := leadingWord i.natAbs
  ofRat (i.sign * (m * twoPow e : Nat))

def toRat? : Option Rat :=
  if x.isFinite then some (scaledRat x.negative x.significand x.exponent) else none

def neg : Double := ofMagnitude (!x.negative) (x.bits.toNat % twoPow 63)

/-- Equality of numbers: the two zeros are equal, and not-a-number equals nothing. -/
def numEq (x y : Double) : Bool :=
  !x.isNaN && !y.isNaN && (x.bits == y.bits || (x.isZero && y.isZero))

/-- The sign of a number: `-1`, `0` or `1`; not-a-number counts as zero. -/
def sign : Int :=
  if x.isNaN || x.isZero then 0 else if x.negative then -1 else 1

def isIntegral : Bool :=
  match x.toRat? with
  | some q => q.den = 1
  | none => false

/-- The integer part of a number within the bounds of 64 bits; not-a-number gives zero. -/
def toInt64Clamped : Int :=
  if x.isNaN then 0
  else match x.toRat? with
    | some q => max (-(twoPow 63 : Int)) (min (twoPow 63 - 1) (Int.tdiv q.num q.den))
    | none => if x.negative then -(twoPow 63 : Int) else twoPow 63 - 1

inductive SingleRounding where
  | notANumber
  | overflow
  | value (q : Rat)

def roundToSingle : SingleRounding :=
  if x.isNaN then .notANumber
  else match x.toRat? with
    | none => .overflow
    | some q =>
      if q.num = 0 then .value 0
      else match BinaryFormat.single.round q.num.natAbs q.den with
        | some (m, e) => .value (scaledRat (q.num < 0) m e)
        | none => .overflow

end Double

/-! ## Decimal digits -/

def decimalChars (n : Nat) : List Char := Nat.toDigits 10 n

def zeroPad (width : Nat) (cs : List Char) : List Char :=
  List.replicate (width - cs.length) '0' ++ cs

/-- The quotient `num / den` in units of `10 ^ g`, rounded to nearest. -/
def roundToPower (g : Int) (num den : Nat) : Nat :=
  if 0 ≤ g then roundDiv num (den * tenPow g.toNat) else roundDiv (num * tenPow (-g).toNat) den

/-- The `count` leading digits of a positive quotient and the decimal exponent of the first. -/
def significantDigits (count num den : Nat) : Nat × Int :=
  let k := log10Quotient num den
  let d := roundToPower (k - (count - 1)) num den
  if d = tenPow count then (tenPow (count - 1), k + 1) else (d, k)

/-- The quotient in units of the last of `places` decimal places. -/
def placeDigits (places num den : Nat) : Nat := roundDiv (num * tenPow places) den

/-- A number of units `10 ^ -places`, written with exactly that many places. -/
def fixed (places units : Nat) : List Char :=
  let cs := zeroPad (places + 1) (decimalChars units)
  if places = 0 then cs
  else cs.take (cs.length - places) ++ '.' :: cs.drop (cs.length - places)

/-- The number `d * 10 ^ g` without an exponent. -/
def positional (d : Nat) (g : Int) : List Char :=
  if 0 ≤ g then (if d = 0 then ['0'] else decimalChars d ++ List.replicate g.toNat '0')
  else fixed (-g).toNat d

/-- The numbers that round to one double, in units of `1 / den`: the value and two ends. -/
structure RoundingInterval where
  value : Nat
  lower : Nat
  upper : Nat
  den : Nat
  closed : Bool

/-- The interval of `m * 2 ^ e`, halfway to its neighbours. Below a power of two that is nearer. -/
def RoundingInterval.ofDouble (m : Nat) (e : Int) : RoundingInterval :=
  let below := if m = twoPow 52 ∧ -1074 < e then 1 else 2
  let scale := twoPow (e - 2).toNat
  { value := 4 * m * scale, lower := (4 * m - below) * scale, upper := (4 * m + 2) * scale,
    den := twoPow (2 - e).toNat, closed := m % 2 = 0 }

def RoundingInterval.contains (i : RoundingInterval) (c : Nat) (g : Int) : Bool :=
  let num := c * tenPow g.toNat * i.den
  let den := tenPow (-g).toNat
  if i.closed then i.lower * den ≤ num ∧ num ≤ i.upper * den
  else i.lower * den < num ∧ num < i.upper * den

/-- The multiple of `10 ^ g` in the interval nearest to the value; of two equally near the
larger. -/
def RoundingInterval.onGrid? (i : RoundingInterval) (g : Int) : Option Nat :=
  let unit := i.den * tenPow g.toNat
  let value := i.value * tenPow (-g).toNat
  let c := value / unit
  match i.contains c g, i.contains (c + 1) g with
  | true, true => some (roundDivUp value unit)
  | true, false => some c
  | false, true => some (c + 1)
  | false, false => none

/-- The first grid with a hit, from the coarse grid `10 ^ g` to finer ones. -/
def RoundingInterval.search (i : RoundingInterval) : Nat → Int → Nat × Int
  | 0, g => (i.value / i.den, g)
  | fuel + 1, g =>
    match i.onGrid? g with
    | some c => (c, g)
    | none => i.search fuel (g - 1)

/-- The fewest digits that read back as `m * 2 ^ e`, with the decimal exponent of the last. -/
def shortestDigits (m : Nat) (e : Int) : Nat × Int :=
  let i := RoundingInterval.ofDouble m e
  i.search 18 (log10Quotient i.value i.den + 1)

/-- A double in full, with the fewest digits that read back as it and no exponent. -/
def Double.fullText (x : Double) : String :=
  let sign := if x.negative then "-" else ""
  if x.isNaN then "NaN"
  else if x.isInfinite then sign ++ "inf"
  else if x.isZero then sign ++ "0"
  else
    let (d, g) := shortestDigits x.significand x.exponent
    sign ++ String.ofList (positional d g)

end GoCheck.Number
