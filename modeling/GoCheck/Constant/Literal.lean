import GoCheck.Constant.Basic

/-!
# Literals

Reading the literals of a program as constants. A text that is no literal of the requested form
gives an unknown value. Underscores separate digits and are dropped first.
-/

namespace GoCheck.Literal

open Number

def digit? (radix : Nat) (c : Char) : Option Nat :=
  let n := c.toNat
  let d :=
    if 0x30 ≤ n ∧ n ≤ 0x39 then some (n - 0x30)
    else if 0x61 ≤ n ∧ n ≤ 0x66 then some (n - 0x61 + 10)
    else if 0x41 ≤ n ∧ n ≤ 0x46 then some (n - 0x41 + 10)
    else none
  d.filter (· < radix)

/-- Digits read after a number that stands before them. -/
def readDigitsFrom (radix : Nat) : Nat → List Char → Option Nat
  | acc, [] => some acc
  | acc, c :: rest => (digit? radix c).bind fun d => readDigitsFrom radix (acc * radix + d) rest

def readNat (radix : Nat) (cs : List Char) : Option Nat :=
  if cs.isEmpty then none else readDigitsFrom radix 0 cs

def readInt (radix : Nat) : List Char → Option Int
  | '-' :: cs => (readNat radix cs).map fun n => -(n : Int)
  | '+' :: cs => (readNat radix cs).map Int.ofNat
  | cs => (readNat radix cs).map Int.ofNat

def dropUnderscores (cs : List Char) : List Char := cs.filter (· ≠ '_')

/-- The digits of an integer literal and their radix. A zero before other digits marks an octal
one. -/
def splitRadix : List Char → List Char × Nat
  | '0' :: 'x' :: cs | '0' :: 'X' :: cs => (cs, 16)
  | '0' :: 'o' :: cs | '0' :: 'O' :: cs => (cs, 8)
  | '0' :: 'b' :: cs | '0' :: 'B' :: cs => (cs, 2)
  | '0' :: c :: cs => (c :: cs, 8)
  | cs => (cs, 10)

def intChars (cs : List Char) : Constant :=
  let (digits, radix) := splitRadix (dropUnderscores cs)
  match readInt radix digits with
  | some i => .ofInt i
  | none => .unknown

def int (s : String) : Constant := intChars s.toList

/-- A text split at the first character with a property, which is dropped. -/
def splitAtFirst (p : Char → Bool) (cs : List Char) : List Char × Option (List Char) :=
  match cs.dropWhile (!p ·) with
  | [] => (cs, none)
  | _ :: rest => (cs.takeWhile (!p ·), some rest)

def splitPoint (cs : List Char) : List Char × List Char :=
  let (whole, rest) := splitAtFirst (· = '.') cs
  (whole, rest.getD [])

/-- An exponent within the given number of bits; a missing one is zero. -/
def exponent? (bits : Nat) : Option (List Char) → Option Int
  | none => some 0
  | some cs => (readInt 10 cs).filter (fitsSigned bits)

/-- The largest decimal scale that is carried out exactly. -/
def maxScale : Nat := 4096

def scaled (n : Nat) (scale : Int) : Rat :=
  if 0 ≤ scale then ((n * tenPow scale.toNat : Nat) : Int) else mkRat n (tenPow (-scale).toNat)

/-- The number `n * 10 ^ scale` as a double, at most the largest finite one. -/
def clampedScaled (n : Nat) (scale : Int) : Rat :=
  let top := ((Nat.toDigits 10 n).length : Int) + scale
  if n = 0 ∨ top < -330 then 0
  else if 310 < top then Double.maxFinite.toRat?.getD 0
  else ((Double.ofRat (scaled n scale)).toRat?).getD (Double.maxFinite.toRat?.getD 0)

/-- The parts of a decimal floating-point literal: its digits as a number, how many of them stand
after the point, and its exponent. -/
structure DecimalParts where
  number : Nat
  places : Nat
  exponent : Int

def decimalParts? (cs : List Char) : Option DecimalParts := do
  let (mantissa, rest) := splitAtFirst (fun c => c = 'e' || c = 'E') cs
  let exponent ← exponent? 64 rest
  let (whole, fraction) := splitPoint mantissa
  let number ← readNat 10 (whole ++ fraction)
  some { number, places := fraction.length, exponent }

namespace DecimalParts

variable (l : DecimalParts)

/-- The power of ten that the digits are multiplied by. -/
def scale : Int := l.exponent - l.places

/-- The number that a literal stands for: exact unless its scale is very large. -/
def value : Rat :=
  if maxScale < l.scale.natAbs then clampedScaled l.number l.scale else scaled l.number l.scale

/-- The constant of a literal; none if its scale overflows 64 bits. -/
def constant? : Option Constant := if fitsSigned 64 l.scale then some (.ofRat l.value) else none

end DecimalParts

/-- One more hexadecimal digit of a mantissa in double precision; `none` once it is infinite. -/
def hexStep (v : Option Rat) (d : Nat) : Option Rat :=
  v.bind fun q => (Double.ofRat (16 * q + d)).toRat?

/-- The mantissa of hexadecimal digits, accumulated in double precision. -/
def hexMantissa (digits : List Nat) : Option Rat := digits.foldl hexStep (some 0)

/-- A number times a power of two. The power is itself a double, infinite from `2 ^ 1024` on. -/
def scaleByTwo (q : Rat) (shift : Int) : Option Rat :=
  if 1024 ≤ shift then none
  else if shift ≤ -1024 then some 0
  else (Double.ofRat (q * scaledRat false 1 shift)).toRat?

/-- The parts of a hexadecimal floating-point literal: its digits, how many of them stand after the
point, and its exponent. -/
structure HexParts where
  digits : List Nat
  places : Nat
  exponent : Int

def hexParts? (cs : List Char) : Option HexParts := do
  let (mantissa, rest) := splitAtFirst (fun c => c = 'p' || c = 'P') cs
  let exponent ← exponent? 32 rest
  let (whole, fraction) := splitPoint mantissa
  let digits ← (whole ++ fraction).mapM (digit? 16)
  some { digits, places := fraction.length, exponent }

namespace HexParts

variable (l : HexParts)

/-- The bits that stand after the point, with the number of places cut to 32 bits. -/
def fractionBits : Int := 4 * Int.bmod l.places (twoPow 32)

/-- The power of two that the digits are multiplied by. -/
def shift : Int := l.exponent - l.fractionBits

/-- The constant that the digits give with a shift, unknown unless it is finite. -/
def shifted (shift : Int) : Constant :=
  ((hexMantissa l.digits).bind (scaleByTwo · shift)).elim .unknown .ofRat

/-- The constant of a literal; none if its shift, or what the shift is computed from, overflows 32
bits. -/
def constant? : Option Constant :=
  if fitsSigned 32 l.fractionBits && fitsSigned 32 l.shift then some (l.shifted l.shift) else none

end HexParts

/-- The constant of a floating-point literal; none if the arithmetic of its exponent overflows. -/
def floatChars? (cs : List Char) : Option Constant :=
  match dropUnderscores cs with
  | '0' :: 'x' :: body | '0' :: 'X' :: body => (hexParts? body).elim (some .unknown) (·.constant?)
  | cs => (decimalParts? cs).elim (some .unknown) (·.constant?)

def float? (s : String) : Option Constant := floatChars? s.toList

def float (s : String) : Constant := (float? s).getD .unknown

/-- The number of an imaginary literal. Leading zeros do not count, and what cannot be read is
zero. -/
def imaginaryPart? (body : List Char) : Option Constant :=
  if body.all fun c => (digit? 10 c).isSome || c = '_' then
    match intChars (body.dropWhile (· = '0')) with
    | .unknown => some (.small 0)
    | v => some v
  else floatChars? body

/-- The constant of an imaginary literal; none if the arithmetic of its exponent overflows. -/
def imaginary? (s : String) : Option Constant :=
  match s.toList.reverse with
  | 'i' :: body => (imaginaryPart? body.reverse).map .ofImaginary
  | _ => some .unknown

def imaginary (s : String) : Constant := (imaginary? s).getD .unknown

/-- What an escape sequence stands for: a character or a single octet. -/
inductive Escaped where
  | char (c : Char)
  | octet (b : UInt8)

def charOfCode? (n : Nat) : Option Char :=
  if h : n.isValidChar then some (Char.ofNatAux n h) else none

def shortEscape? : Char → Option Char
  | 'a' => some (Char.ofNat 7)
  | 'b' => some (Char.ofNat 8)
  | 'f' => some (Char.ofNat 12)
  | 'n' => some '\n'
  | 'r' => some '\r'
  | 't' => some '\t'
  | 'v' => some (Char.ofNat 11)
  | '\\' => some '\\'
  | _ => none

def takeDigits (radix count : Nat) (cs : List Char) : Option (Nat × List Char) :=
  if count ≤ cs.length then
    (readNat radix (cs.take count)).map fun n => (n, cs.drop count)
  else none

/-- The escape sequence after a backslash, between the given quotes, and what follows it. -/
def escape? (quote : Char) : List Char → Option (Escaped × List Char)
  | [] => none
  | c :: cs =>
    match shortEscape? c with
    | some e => some (.char e, cs)
    | none =>
      if c = quote then some (.char c, cs)
      else if c = 'x' then (takeDigits 16 2 cs).map fun (n, cs) => (.octet n.toUInt8, cs)
      else if c = 'u' then
        (takeDigits 16 4 cs).bind fun (n, cs) => (charOfCode? n).map (.char ·, cs)
      else if c = 'U' then
        (takeDigits 16 8 cs).bind fun (n, cs) => (charOfCode? n).map (.char ·, cs)
      else
        (takeDigits 8 3 (c :: cs)).bind fun (n, cs) =>
          if n ≤ 255 then some (.octet n.toUInt8, cs) else none

def unquote? (quote : Char) (cs : List Char) : Option (List Char) :=
  match cs with
  | [] => none
  | c :: rest =>
    if c ≠ quote then none
    else match rest.reverse with
      | d :: body => if d = quote then some body.reverse else none
      | [] => none

/-- The code of the single character between the quotes of a rune literal. -/
def runeCode? : List Char → Option Nat
  | '\\' :: cs =>
    match escape? '\'' cs with
    | some (.char c, []) => some c.toNat
    | some (.octet b, []) => some b.toNat
    | _ => none
  | [c] => some c.toNat
  | _ => none

def rune (s : String) : Constant :=
  match (unquote? '\'' s.toList).bind runeCode? with
  | some n => .small (Int64.ofNat n)
  | none => .unknown

/-- The octets between the quotes of a string literal, of at most so many items. -/
def octetsWithin : Nat → List Char → Option (List UInt8)
  | _, [] => some []
  | 0, _ => none
  | fuel + 1, '\\' :: cs =>
    match escape? '"' cs with
    | some (.char c, rest) => (octetsWithin fuel rest).map (Text.encodeChar c ++ ·)
    | some (.octet b, rest) => (octetsWithin fuel rest).map (b :: ·)
    | none => none
  | fuel + 1, c :: cs => (octetsWithin fuel cs).map (Text.encodeChar c ++ ·)

def octets? (cs : List Char) : Option (List UInt8) := octetsWithin cs.length cs

/-- A string literal, raw or interpreted. A raw one loses its carriage returns. -/
def string (s : String) : Constant :=
  match unquote? (Char.ofNat 0x60) s.toList with
  | some raw => .string (String.ofList (raw.filter (· ≠ '\r')))
  | none =>
    match (unquote? '"' s.toList).bind octets? with
    | some octets => .string (Text.decodeLossy octets)
    | none => .unknown

end GoCheck.Literal
