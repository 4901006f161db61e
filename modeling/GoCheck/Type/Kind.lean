/-!
# Basic types

The predeclared and untyped kinds of basic types. Kinds are listed in the order in which the untyped
numeric kinds widen; the two aliases come last.
-/

namespace GoCheck

inductive BasicFamily where
  | invalid
  | boolean
  | integer
  | float
  | complex
  | string
  | nil
  deriving DecidableEq, Repr

namespace BasicFamily

def isNumeric : BasicFamily → Bool
  | integer | float | complex => true
  | _ => false

def isConstant : BasicFamily → Bool
  | invalid | nil => false
  | _ => true

end BasicFamily

inductive BasicKind where
  | invalid
  | bool
  | int
  | int8
  | int16
  | int32
  | int64
  | uint
  | uint8
  | uint16
  | uint32
  | uint64
  | uintptr
  | float32
  | float64
  | complex64
  | complex128
  | string
  | untypedBool
  | untypedInt
  | untypedRune
  | untypedFloat
  | untypedComplex
  | untypedString
  | untypedNil
  | byte
  | rune
  deriving DecidableEq, Repr, Inhabited

namespace BasicKind

def all : List BasicKind :=
  [invalid, bool, int, int8, int16, int32, int64, uint, uint8, uint16, uint32, uint64, uintptr,
    float32, float64, complex64, complex128, string, untypedBool, untypedInt, untypedRune,
    untypedFloat, untypedComplex, untypedString, untypedNil, byte, rune]

def index (k : BasicKind) : Nat := k.ctorIdx

/-- The spelling of a kind; an untyped kind has none in source and is shown by this name. -/
def name : BasicKind → String
  | invalid => "invalid type"
  | bool => "bool"
  | int => "int"
  | int8 => "int8"
  | int16 => "int16"
  | int32 => "int32"
  | int64 => "int64"
  | uint => "uint"
  | uint8 => "uint8"
  | uint16 => "uint16"
  | uint32 => "uint32"
  | uint64 => "uint64"
  | uintptr => "uintptr"
  | float32 => "float32"
  | float64 => "float64"
  | complex64 => "complex64"
  | complex128 => "complex128"
  | string => "string"
  | untypedBool => "untyped bool"
  | untypedInt => "untyped int"
  | untypedRune => "untyped rune"
  | untypedFloat => "untyped float"
  | untypedComplex => "untyped complex"
  | untypedString => "untyped string"
  | untypedNil => "untyped nil"
  | byte => "byte"
  | rune => "rune"

def family : BasicKind → BasicFamily
  | invalid => .invalid
  | bool | untypedBool => .boolean
  | int | int8 | int16 | int32 | int64 | uint | uint8 | uint16 | uint32 | uint64 | uintptr
  | untypedInt | untypedRune | byte | rune => .integer
  | float32 | float64 | untypedFloat => .float
  | complex64 | complex128 | untypedComplex => .complex
  | string | untypedString => .string
  | untypedNil => .nil

/-- The kinds of constants and of `nil` that no context has given a type yet. -/
def isUntyped : BasicKind → Bool
  | untypedBool | untypedInt | untypedRune | untypedFloat | untypedComplex | untypedString
  | untypedNil => true
  | _ => false

/-- `byte` and `rune` stand for `uint8` and `int32`. -/
def resolveAlias : BasicKind → BasicKind
  | byte => uint8
  | rune => int32
  | k => k

/-- The kind an untyped value takes on where nothing else fixes its type; `nil` has none. -/
def default : BasicKind → BasicKind
  | untypedBool => bool
  | untypedInt => int
  | untypedRune => rune
  | untypedFloat => float64
  | untypedComplex => complex128
  | untypedString => string
  | k => k

end BasicKind

end GoCheck
