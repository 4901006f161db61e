import GoCheck.Entity.Store

/-!
# Questions about types

The type beneath defined types and type parameters, and the properties of types that follow from
it.
-/

namespace GoCheck

/-- The number of a basic type: basic types are the first entities of every store. -/
def TypeId.basic (k : BasicKind) : TypeId := ⟨k.index⟩

namespace TypeId

def invalid : TypeId := basic .invalid

/-- The empty tuple, which is the type of a call without results. -/
def noValue : TypeId := ⟨27⟩

def error : TypeId := ⟨31⟩

def any : TypeId := ⟨32⟩

end TypeId

namespace Store

/-- At most `n` steps down from a type. -/
def underlyingWithin (s : Store) : Nat → TypeId → TypeId
  | 0, t => t
  | n + 1, t =>
    match (s.type t).beneath? with
    | some u => if u = t then t else s.underlyingWithin n u
    | none => t

variable (s : Store)

/-- The type beneath defined types and type parameters. -/
def underlying (t : TypeId) : TypeId := s.underlyingWithin (s.types.size + 1) t

def shape (t : TypeId) : Ty := s.type (s.underlying t)

def family? (t : TypeId) : Option BasicFamily := (s.shape t).basic?.map (·.family)

def isNamed (t : TypeId) : Bool := (s.type t).isNamed

def isInvalid (t : TypeId) : Bool := s.family? t = some .invalid

def isBoolean (t : TypeId) : Bool := s.family? t = some .boolean

def isInteger (t : TypeId) : Bool := s.family? t = some .integer

def isFloat (t : TypeId) : Bool := s.family? t = some .float

def isComplex (t : TypeId) : Bool := s.family? t = some .complex

def isNumeric (t : TypeId) : Bool := (s.family? t).any (·.isNumeric)

def isString (t : TypeId) : Bool := s.family? t = some .string

def isConstType (t : TypeId) : Bool := (s.family? t).any (·.isConstant)

/-- Types of values that no context has given a type. -/
def isUntyped (t : TypeId) : Bool := (s.type t).basic?.any (·.isUntyped)

def isTyped (t : TypeId) : Bool := !s.isUntyped t

def isUntypedNumeric (t : TypeId) : Bool :=
  (s.type t).basic?.any fun k => k.isUntyped && k.family.isNumeric

/-- Interfaces, and type parameters, which stand on one. -/
def isInterface (t : TypeId) : Bool := (s.shape t).interface?.isSome

def isTypeParam (t : TypeId) : Bool := (s.type t).typeParam?.isSome

def isPlainInterface (t : TypeId) : Bool := !s.isTypeParam t && s.isInterface t

def isInterfacePointer (t : TypeId) : Bool :=
  (s.type t).pointerBase?.any s.isInterface

/-- The types listed by the constraint of a type parameter; `none` if there are none. -/
def terms? (t : TypeId) : Option (List TypeId) := do
  let p ← (s.type t).typeParam?
  let i ← (s.shape p.bound).interface?
  i.terms

def terms (t : TypeId) : List TypeId := (s.terms? t).getD []

/-- Whether a type has a nil value, given which terms have one. -/
def hasNilStep (hasNil : TypeId → Bool) (t : TypeId) : Bool :=
  match s.shape t with
  | .slice _ | .pointer _ | .signature _ | .map .. | .chan .. => true
  | .interface _ =>
    if s.isTypeParam t then
      match s.terms? t with
      | some terms => terms.all hasNil
      | none => false
    else true
  | _ => false

def hasNilWithin (s : Store) : Nat → TypeId → Bool
  | 0, _ => false
  | n + 1, t => s.hasNilStep (s.hasNilWithin n) t

/-- Whether a type has a nil value, a type parameter if every type it may stand for has. -/
def hasNil (t : TypeId) : Bool := s.hasNilWithin (s.types.size + 1) t

/-- The type an untyped value takes on where nothing else fixes it; other types stay. -/
def defaultType (t : TypeId) : TypeId :=
  match s.type t with
  | .basic k => if k.isUntyped && k ≠ .untypedNil then .basic k.default else t
  | _ => t

/-- The word for the form of the type beneath a name; basic types have none. -/
def formWord (t : TypeId) : String :=
  match s.shape t with
  | .basic _ | .named _ | .typeParam _ => ""
  | .array .. => "array"
  | .slice _ => "slice"
  | .struct _ => "struct"
  | .pointer _ => "pointer"
  | .signature _ => "func"
  | .interface _ => "interface"
  | .map .. => "map"
  | .chan .. => "chan"
  | .tuple _ => "tuple"

end Store

namespace Build

/-- A defined type and its type name. It stands directly on the structure beneath `under`. -/
def named (span : Span) (name : String) (under : TypeId) : Build (ObjectId × TypeId) := do
  let object ← newTypeName span name none
  let s ← get
  let t ← newType (.named { object, underlying := s.underlying under })
  setObject object (·.setType (some t))
  pure (object, t)

def typeParam (span : Span) (name : String) (index : Nat) (bound : TypeId) :
    Build (ObjectId × TypeId) := do
  let object ← newTypeName span name none
  let t ← newType (.typeParam { object, index, bound })
  setObject object (·.setType (some t))
  pure (object, t)

def addMethod (on : TypeId) (name : String) (sig : TypeId) (pointerReceiver : Bool) :
    Build ObjectId := do
  let m ← newFunc Span.dummy none name (some sig)
  setObject m (·.setPointerReceiver pointerReceiver)
  modify fun s => s.modifyType on fun t =>
    match t with
    | .named n => .named { n with methods := n.methods ++ [m] }
    | t => t
  pure m

end Build

end GoCheck
