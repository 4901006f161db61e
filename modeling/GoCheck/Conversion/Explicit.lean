import GoCheck.Constant.Literal
import GoCheck.Conversion.Assignable

/-!
# Explicit conversion

Which operands a conversion `T(x)` accepts, and the constants it gives.
-/

namespace GoCheck

/-- The character with a code, or the replacement character if there is none. -/
def Constant.charText (v : Constant) : String :=
  let c := match v.int64? with
    | some i => if 0 ≤ i.toInt then Literal.charOfCode? i.toInt.toNat else none
    | none => none
  String.singleton (c.getD '\uFFFD')

namespace Store

variable (s : Store)

/-- A constant converted to a basic type. An integer as a string gives the character with that
code. -/
def convertConstant? (x : Operand) (v : Constant) (t : TypeId) : Option Constant := do
  let k ← (s.shape t).basic?
  match v.heldBy? k with
  | some w => some w
  | none =>
    let old ← x.type
    if s.isInteger old && s.isString t then some (.string v.charText) else none

def isBytesOrRunes (t : TypeId) : Bool :=
  match s.shape t with
  | .slice elem =>
    (s.shape elem).basic?.any fun k => k.resolveAlias = .uint8 || k.resolveAlias = .int32
  | _ => false

/-- Unnamed pointers whose bases have the same type beneath them. -/
def convertsPointer (v t : TypeId) : Bool :=
  match s.type v, s.type t with
  | .pointer a, .pointer b =>
    s.identical (s.underlying a) (s.underlying b) && !s.isTypeParam a && !s.isTypeParam b
  | _, _ => false

def isIntegerOrFloat (t : TypeId) : Bool := s.isInteger t || s.isFloat t

/-- Conversions between numbers, and between strings and what they consist of. -/
def convertsBasic (v t : TypeId) : Bool :=
  (s.isIntegerOrFloat v && s.isIntegerOrFloat t) ||
  (s.isComplex v && s.isComplex t) ||
  ((s.isInteger v || s.isBytesOrRunes v) && s.isString t) ||
  (s.isString v && s.isBytesOrRunes t)

def arrayElem? (t : TypeId) : Option TypeId :=
  match s.shape t with
  | .array _ elem => some elem
  | .pointer base => (s.shape base).array?.map (·.2)
  | _ => none

/-- A slice becomes an array, or a pointer to one, with the same elements. -/
def convertsSlice (v t : TypeId) : Bool :=
  match s.shape v with
  | .slice elem => (s.arrayElem? t).any (s.identical elem)
  | _ => false

/-- Conversions between types without regard to their terms. -/
def convertsPlainly (v t : TypeId) : Bool :=
  (s.identical (s.underlying v) (s.underlying t) && !s.isTypeParam v && !s.isTypeParam t) ||
  s.convertsPointer v t || s.convertsBasic v t || s.convertsSlice v t

/-- The outcome of a conversion: refused with or without an explanation. -/
abbrev Outcome := Except (Option String) Unit

def convertAll (ask : TypeId → Probe Outcome) : List TypeId → Probe Outcome
  | [] => pure (.ok ())
  | t :: ts => do
    match ← ask t with
    | .ok _ => convertAll ask ts
    | .error c => pure (.error c)

/-- A type as named in a refusal, with the type parameter it is a term of. -/
def termText (term : TypeId) (of : Option TypeId) : String :=
  s.typeText term ++ of.elim "" fun p => " (in " ++ s.typeText p ++ ")"

/-- Convertibility of each type to each other one. The flags say which side are terms. -/
def convertTerms (convert : Operand → TypeId → Probe Outcome) (x : Operand)
    (v t : TypeId) : Probe Outcome :=
  let attempt (a b : TypeId) (y : Operand) : Probe Outcome := do
    let source := s.termText a (if s.isTypeParam v then some v else none)
    let target := s.termText b (if s.isTypeParam t then some t else none)
    let cause := "cannot convert " ++ source ++ " to type " ++ target
    return (← convert y b).mapError fun _ => some cause
  match s.isTypeParam v, s.isTypeParam t with
  | true, true =>
    convertAll (fun a => convertAll (fun b => attempt a b { x with type := some a }) (s.terms t))
      (s.terms v)
  | true, false => convertAll (fun a => attempt a t { x with type := some a }) (s.terms v)
  | false, true => convertAll (fun b => attempt v b x) (s.terms t)
  | false, false => pure (.ok ())

/-- Whether a type parameter among the two lists no terms, or neither is a type parameter. -/
def lacksTerms (v t : TypeId) : Bool :=
  (s.isTypeParam v && (s.terms v).isEmpty) || (s.isTypeParam t && (s.terms t).isEmpty) ||
  (!s.isTypeParam v && !s.isTypeParam t)

/-- Convertibility of an operand, given that to and from the terms of type parameters. -/
def convertStep (convert : Operand → TypeId → Probe Outcome) (x : Operand)
    (t : TypeId) : Probe Outcome := do
  match ← s.assign x t with
  | .ok _ => return .ok ()
  | .error r =>
    match x.type with
    | none => return .error r.cause
    | some v =>
      if s.convertsPlainly v t then return .ok ()
      else if s.lacksTerms v t then return .error r.cause
      else s.convertTerms convert x v t

def convertWithin (s : Store) : Nat → Operand → TypeId → Probe Outcome
  | 0, _, _ => pure (.error none)
  | n + 1, x, t => s.convertStep (s.convertWithin n) x t

def convert (x : Operand) (t : TypeId) : Probe Outcome :=
  s.convertWithin s.termDepth x t

end Store

end GoCheck
