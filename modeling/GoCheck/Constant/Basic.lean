import GoCheck.Number.Basic
import GoCheck.Text.Basic
import GoCheck.Type.Kind

/-!
# Constant values

Integers and rationals are exact; numbers that grow beyond a bound are kept as doubles. The two
integer forms and the two real forms overlap as numbers, and equality looks through them. In
messages real numbers have six significant digits.
-/

namespace GoCheck

open Number

/-- A constant value. It carries no type. -/
inductive Constant where
  /-- The value of an erroneous constant. -/
  | unknown
  | bool (b : Bool)
  | string (s : String)
  | small (i : Int64)
  | big (i : Int)
  | ratio (q : Rat)
  | float (x : Double)
  | complex (re im : Constant)
  deriving DecidableEq, Inhabited

inductive ConstantKind where
  | unknown
  | bool
  | string
  | int
  | float
  | complex
  deriving DecidableEq, Repr

namespace Constant

def kind : Constant → ConstantKind
  | unknown => .unknown
  | bool _ => .bool
  | string _ => .string
  | small _ | big _ => .int
  | ratio _ | float _ => .float
  | complex .. => .complex

def isUnknown (v : Constant) : Bool := v.kind = .unknown

def isNumeric (v : Constant) : Bool :=
  match v.kind with
  | .int | .float | .complex => true
  | _ => false

def fitsInt64 (i : Int) : Bool := fitsSigned 64 i

/-- The number of bits from which on numerators and denominators are not kept exactly. -/
def exactBits : Nat := 4096

def isExactSize (i : Int) : Bool := i.natAbs < twoPow (exactBits - 1)

/-- An integer in the form it is kept in. -/
def ofInt (i : Int) : Constant :=
  if fitsInt64 i then small (Int64.ofInt i) else big i

/-- A double as a constant: infinities and not-a-number are unknown, and there is one zero. -/
def ofDouble (x : Double) : Constant :=
  if !x.isFinite then unknown
  else if x.isZero then float Double.zero
  else float x

/-- A rational in the form it is kept in: exactly while numerator and denominator are small. -/
def ofRat (q : Rat) : Constant :=
  if isExactSize q.num && isExactSize q.den then ratio q else ofDouble (Double.ofRat q)

/-- The exact value of a double as a constant; unknown if it has none. -/
def ofExactDouble (x : Double) : Constant :=
  match x.toRat? with
  | some q => ofRat q
  | none => unknown

def int64? : Constant → Option Int64
  | small i => some i
  | big i => if fitsInt64 i then some (Int64.ofInt i) else none
  | _ => none

/-- The exact value of an integer or rational constant. -/
def exactRat? : Constant → Option Rat
  | small i => some i.toInt
  | big i => some i
  | ratio q => some q
  | _ => none

/-- The double nearest to a real constant, and whether it counts as exact. -/
def float64 : Constant → Double × Bool
  | small i =>
    let x := Double.ofInt i.toInt
    (x, x.toInt64Clamped = i.toInt)
  | big i => (Double.ofInt i, false)
  | ratio q =>
    let x := Double.ofRat q
    (x, x.toRat? = some q)
  | float x => (x, true)
  | _ => (Double.zero, false)

/-- `-1`, `0` or `1`. Complex values are negative if a part is; what is no number is positive. -/
def sign : Constant → Int
  | small i => i.toInt.sign
  | big i => i.sign
  | ratio q => q.num.sign
  | float x => x.sign
  | complex re im =>
    if re.sign = -1 ∨ im.sign = -1 then -1
    else if re.sign = 0 ∧ im.sign = 0 then 0
    else 1
  | _ => 1

/-- A number as a pair of parts; anything else is unknown. -/
def toComplex : Constant → Constant
  | complex re im => complex re im
  | v => if v.isNumeric then complex v (small 0) else unknown

def ofImaginary (v : Constant) : Constant :=
  match v.kind with
  | .int | .float => complex (small 0) v
  | _ => unknown

/-- Equality of two real numbers: of the exact values if both have one, else of the doubles. -/
def realEqual (a b : Constant) : Bool :=
  match a.exactRat?, b.exactRat? with
  | some p, some q => p = q
  | _, _ => a.float64.1.numEq b.float64.1

/-- Equality of a real number with a value, whose imaginary part has to be zero. -/
def equalToReal (a : Constant) : Constant → Bool
  | complex re im => equalToReal a re && equalToReal (small 0) im
  | b => b.isNumeric && realEqual a b

/-- Equality of values: numbers are compared as numbers, whatever form they are kept in. -/
def equal : Constant → Constant → Bool
  | unknown, unknown => true
  | bool a, bool b => a == b
  | string a, string b => a == b
  | complex ar ai, complex br bi => equal ar br && equal ai bi
  | complex ar ai, b => b.isNumeric && equal ar b && equal ai (small 0)
  | a, b => a.isNumeric && b.isNumeric && equalToReal a b

end Constant

/-! ## Operations -/

inductive UnaryOp where
  | plus
  | minus
  | not
  | address
  | indirect
  deriving DecidableEq, Repr

def UnaryOp.text : UnaryOp → String
  | plus => "+"
  | minus => "-"
  | not => "!"
  | address => "&"
  | indirect => "*"

namespace Constant

def toInt : Constant → Constant
  | small i => small i
  | big i => big i
  | ratio q => if q.den = 1 then ofInt q.num else unknown
  | float x =>
    match x.toRat? with
    | some q => if q.den = 1 then ofInt q.num else unknown
    | none => unknown
  | complex re im => if im.sign = 0 then re.toInt else unknown
  | _ => unknown

def toFloat : Constant → Constant
  | small i => ratio i.toInt
  | big i => if isExactSize i then ratio i else ofDouble (Double.ofInt i)
  | ratio q => ratio q
  | float x => float x
  | complex re im => if im.sign = 0 then re.toFloat else unknown
  | _ => unknown

def negate : Constant → Constant
  | small i => ofInt (-i.toInt)
  | big i => ofInt (-i)
  | ratio q => ofRat (-q)
  | float x => ofDouble x.neg
  | complex re im => complex re.negate im.negate
  | _ => unknown

/-- The value of an operator applied to a value; unknown where the operator has no meaning. -/
def foldUnary (op : UnaryOp) (v : Constant) : Constant :=
  match op, v with
  | .plus, v => if v.isNumeric then v else unknown
  | .minus, v => v.negate
  | .not, bool b => bool (!b)
  | _, _ => unknown

end Constant

end GoCheck

/-! ## Constants as text -/

namespace GoCheck

open Number

def Constant.maxQuoted : Nat := 72

/-- Decimals without the zeros at their end, and without a point at the end. -/
def trimFraction (cs : List Char) : List Char :=
  if cs.contains '.' then
    ((cs.reverse.dropWhile (· = '0')).dropWhile (· = '.')).reverse
  else cs

/-- The exponent mark, a sign and at least two digits. -/
def exponentText (k : Int) : List Char :=
  'e' :: (if k < 0 then '-' else '+') :: zeroPad 2 (decimalChars k.natAbs)

/-- Six significant digits of a positive quotient, with exponents below -4 and from 6 on. -/
def sixDigits (num den : Nat) : List Char :=
  let (d, k) := significantDigits 6 num den
  if k < -4 ∨ 6 ≤ k then trimFraction (fixed 5 d) ++ exponentText k
  else
    let places := (5 - k).toNat
    trimFraction (fixed places (placeDigits places num den))

/-- A double with six significant digits; a zero has no sign. -/
def Number.Double.shortText (x : Double) : String :=
  match x.toRat? with
  | none => x.fullText
  | some q =>
    if q.num = 0 then "0"
    else (if q.num < 0 then "-" else "") ++ String.ofList (sixDigits q.num.natAbs q.den)

/-- A real number with six significant digits, or in full if that hides a fractional part. -/
def Constant.realText (v : Constant) : String :=
  let x := v.float64.1
  let s := x.shortText
  let integral := match v with
    | .ratio q => decide (q.den = 1)
    | _ => x.isIntegral
  if !integral && !s.toList.contains '.' && !s.toList.contains 'e' then x.fullText else s

def Constant.text : Constant → String
  | .unknown => "unknown"
  | .bool b => if b then "true" else "false"
  | .string s => Text.quoteWithin maxQuoted s
  | .small i => toString i.toInt
  | .big i => toString i
  | .ratio q => realText (.ratio q)
  | .float x => realText (.float x)
  | .complex re im => "(" ++ re.text ++ " + " ++ im.text ++ "i)"

end GoCheck

/-! ## Constants in basic types -/

namespace GoCheck

open Number

def BasicKind.holdsInt (k : BasicKind) (i : Int) : Bool :=
  match k with
  | .int8 => fitsSigned 8 i
  | .int16 => fitsSigned 16 i
  | .int32 | .rune => fitsSigned 32 i
  | .int | .int64 => true
  | .uint8 | .byte => fitsUnsigned 8 i
  | .uint16 => fitsUnsigned 16 i
  | .uint32 => fitsUnsigned 32 i
  | .uint | .uint64 | .uintptr => 0 ≤ i
  | .untypedInt | .untypedRune => true
  | _ => false

/-- Whether an integer kind holds an integer without a size. Only the widest go beyond 64 bits. -/
def BasicKind.holdsBig (k : BasicKind) (i : Int) : Bool :=
  match k with
  | .uint | .uint64 | .uintptr => fitsUnsigned 64 i
  | .untypedInt | .untypedRune => true
  | _ => false

def BasicKind.part : BasicKind → BasicKind
  | .complex64 => .float32
  | .complex128 => .float64
  | _ => .untypedFloat

namespace Constant

/-- A real number as held by a floating-point kind; `none` if it is too large. -/
def roundFloat (k : BasicKind) (v : Constant) : Option Constant :=
  if v.kind ≠ .float then none
  else match k with
    | .float32 =>
      match v.float64.1.roundToSingle with
      | .notANumber => some unknown
      | .overflow => none
      | .value q => some (ofRat q)
    | .float64 => if v.float64.1.isInfinite then none else some v
    | .untypedFloat => some v
    | _ => none

def representInt (k : BasicKind) (v : Constant) : Option Constant :=
  match v with
  | small i => if k.holdsInt i.toInt then some v else none
  | big i => if k.holdsBig i then some v else none
  | _ => none

/-- A constant meets a basic type: it does not fit, is held as a known value, or as it is. -/
inductive Fit where
  | no
  | held (v : Constant)
  | asIs

def Fit.ofHeld? : Option Constant → Fit
  | some v => .held v
  | none => .no

/-- Whether and how a constant fits a basic type. An unknown value fits everywhere. -/
def represent (v : Constant) (k : BasicKind) (f : BasicFamily) : Fit :=
  if v.isUnknown then .asIs
  else match f with
    | .integer => .ofHeld? (representInt k v.toInt)
    | .float => .ofHeld? (roundFloat k v.toFloat)
    | .complex =>
      match v.toComplex with
      | complex re im =>
        match roundFloat k.part re.toFloat, roundFloat k.part im.toFloat with
        | some re, some im => .held (complex re im)
        | _, _ => .no
      | _ => .no
    | .boolean => if v.kind = .bool then .asIs else .no
    | .string => if v.kind = .string then .asIs else .no
    | .invalid | .nil => .no

def fits (v : Constant) (k : BasicKind) (f : BasicFamily) : Bool :=
  match v.represent k f with
  | .no => false
  | _ => true

/-- The value a basic type holds for a constant that fits it. -/
def heldBy? (v : Constant) (k : BasicKind) : Option Constant :=
  match v.represent k k.family with
  | .no => none
  | .held w => some w
  | .asIs => some v

end Constant

end GoCheck
