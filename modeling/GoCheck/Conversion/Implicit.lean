import GoCheck.Check.Fault
import GoCheck.Operand.Basic

/-!
# Implicit conversion

An untyped operand takes on a type where it is used: the type that the place asks for, or its
default type in an interface.
-/

namespace GoCheck

/-- The type an operand takes on, and the value if it is a constant that changes. -/
structure Implicit where
  type : Option TypeId
  value : Option Constant := none

namespace Store

variable (s : Store)

/-- Why a constant of a type does not fit a basic type. -/
def misfit (old new : TypeId) : Fault :=
  if s.isNumeric old && s.isNumeric new then
    if !s.isInteger old && s.isInteger new then .truncatedFloat else .numericOverflow
  else .invalidConstVal

def represented (x : Operand) (t : TypeId) : Except Fault Constant :=
  match x.mode.constant?, (s.type t).basic? with
  | some v, some k =>
    match v.heldBy? k with
    | some w => .ok w
    | none => .error (s.misfit x.typeOrInvalid t)
  | _, _ => .error .invalidConstVal

/-- The larger of two untyped types: the same type twice, or the wider of two numeric kinds. -/
def largerUntyped? (x y : TypeId) : Option TypeId :=
  if x = y then some x
  else match s.type x, s.type y with
    | .basic j, .basic k =>
      if s.isUntypedNumeric x && s.isUntypedNumeric y then
        some (if k.index < j.index then x else y)
      else none
    | _, _ => none

/-- Whether an untyped value that is no constant becomes a value of a basic type. -/
def admitsUntyped (k : BasicKind) (target : TypeId) : Bool :=
  match k with
  | .untypedBool => s.isBoolean target
  | .untypedInt | .untypedRune | .untypedFloat | .untypedComplex => s.isNumeric target
  | .untypedString => s.isString target
  | _ => false

def implicitBasic (x : Operand) (old target : TypeId) : Except Fault Implicit :=
  if x.mode.isConstant then do
    let v ← s.represented x (s.underlying target)
    pure ⟨some target, some v⟩
  else if (s.type old).basic?.any (s.admitsUntyped · target) then .ok ⟨some target, none⟩
  else .error .invalidUntypedConversion

/-- The implicit conversion of an operand, given which terms of a type parameter admit it. -/
def implicitWith (admits : TypeId → Bool) (x : Operand) (target : TypeId) :
    Except Fault Implicit :=
  match x.type with
  | none => .ok ⟨none, none⟩
  | some t =>
    if x.isInvalid || !s.isUntyped t || s.isInvalid target then .ok ⟨some t, none⟩
    else if s.isUntyped target then
      match s.largerUntyped? t target with
      | some m => .ok ⟨some m, none⟩
      | none => .error .invalidUntypedConversion
    else if x.isNil s then
      if s.hasNil target then .ok ⟨some target, none⟩ else .error .invalidUntypedConversion
    else match s.shape target with
      | .basic _ => s.implicitBasic x t target
      | .interface i =>
        if s.isTypeParam target then
          if !(s.terms target).isEmpty && (s.terms target).all admits then .ok ⟨some target, none⟩
          else .error .invalidUntypedConversion
        else if i.isEmpty then .ok ⟨some (s.defaultType t), none⟩
        else .error .invalidUntypedConversion
      | _ => .error .invalidUntypedConversion

def givesType : Except Fault Implicit → Bool
  | .ok i => i.type.isSome
  | .error _ => false

/-- Whether an operand takes on the type beneath a term. No type parameter lies beneath a type. -/
def admitsTerm (x : Operand) (term : TypeId) : Bool :=
  givesType (s.implicitWith (fun _ => false) x (s.underlying term))

/-- The implicit conversion of an operand. A type parameter must admit it in each of its terms. -/
def implicit (x : Operand) (target : TypeId) : Except Fault Implicit :=
  s.implicitWith (s.admitsTerm x) x target

end Store

end GoCheck
