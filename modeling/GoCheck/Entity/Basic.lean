import GoCheck.Tree.Basic

/-!
# Entities

What a program speaks about: types, the objects that names denote, and the scopes that hold them.
Entities refer to each other by their numbers in a store, so that types can be recursive.
-/

namespace GoCheck

structure TypeId where
  index : Nat
  deriving DecidableEq, Repr, Inhabited

structure ObjectId where
  index : Nat
  deriving DecidableEq, Repr, Inhabited

structure ScopeId where
  index : Nat
  deriving DecidableEq, Repr, Inhabited

structure PackageId where
  index : Nat
  deriving DecidableEq, Repr, Inhabited

/-- A function type. In a variadic one the last parameter is a slice; a generic one has type
parameters. -/
structure Signature where
  params : TypeId
  results : TypeId
  variadic : Bool := false
  typeParams : List TypeId := []
  deriving DecidableEq, Repr

/-- An interface: methods, and for a constraint the types it admits. -/
structure InterfaceType where
  methods : List ObjectId := []
  terms : Option (List TypeId) := none
  deriving DecidableEq, Repr

def InterfaceType.isEmpty (i : InterfaceType) : Bool := i.methods.isEmpty && i.terms.isNone

/-- A defined type: its type name, the type beneath it and its methods. -/
structure NamedType where
  object : ObjectId
  underlying : TypeId
  methods : List ObjectId := []
  deriving DecidableEq, Repr

/-- A type parameter: its type name, its position and the interface that constrains it. -/
structure TypeParam where
  object : ObjectId
  index : Nat
  bound : TypeId
  deriving DecidableEq, Repr

inductive Ty where
  | basic (kind : BasicKind)
  | array (length : Nat) (elem : TypeId)
  | slice (elem : TypeId)
  | struct (fields : List ObjectId)
  | pointer (base : TypeId)
  /-- Parameters, results, or the values of a call with several results. -/
  | tuple (vars : List ObjectId)
  | signature (sig : Signature)
  | interface (type : InterfaceType)
  | map (key elem : TypeId)
  | chan (dir : ChanDir) (elem : TypeId)
  | named (type : NamedType)
  | typeParam (param : TypeParam)
  deriving DecidableEq, Repr

instance : Inhabited Ty := ⟨.basic .invalid⟩

namespace Ty

/-- The type that a defined type or type parameter stands on. -/
def beneath? : Ty → Option TypeId
  | named n => some n.underlying
  | typeParam p => some p.bound
  | _ => none

/-- Basic types, defined types and type parameters have names. -/
def isNamed : Ty → Bool
  | basic _ | named _ | typeParam _ => true
  | _ => false

/-- The types that an expression in a program makes out of others. -/
def isComposed : Ty → Bool
  | pointer _ | slice _ | map .. | chan .. | tuple _ | signature _ => true
  | _ => false

def tuple? : Ty → Option (List ObjectId)
  | tuple vars => some vars
  | _ => none

def signature? : Ty → Option Signature
  | signature sig => some sig
  | _ => none

def interface? : Ty → Option InterfaceType
  | interface i => some i
  | _ => none

def typeParam? : Ty → Option TypeParam
  | typeParam p => some p
  | _ => none

def pointerBase? : Ty → Option TypeId
  | pointer base => some base
  | _ => none

def sliceElem? : Ty → Option TypeId
  | slice elem => some elem
  | _ => none

def array? : Ty → Option (Nat × TypeId)
  | array n elem => some (n, elem)
  | _ => none

def chan? : Ty → Option (ChanDir × TypeId)
  | chan dir elem => some (dir, elem)
  | _ => none

def basic? : Ty → Option BasicKind
  | basic k => some k
  | _ => none

end Ty

/-- What a name denotes. -/
inductive Entity where
  | const (value : Constant)
  | typeName
  /-- A variable, parameter, result or field. -/
  | var (embedded isField used : Bool)
  /-- A function or method; a method may need a pointer to its receiver. -/
  | func (pointerReceiver : Bool)
  | nil
  deriving DecidableEq

structure Object where
  entity : Entity
  parent : Option ScopeId := none
  span : Span := Span.dummy
  package : Option PackageId := none
  name : String
  type : Option TypeId := none
  visibleFrom : Nat := 0
  deriving DecidableEq

instance : Inhabited Object := ⟨{ entity := .nil, name := "" }⟩

namespace Object

variable (o : Object)

def isConst : Bool := o.entity matches .const _

def isTypeName : Bool := o.entity matches .typeName

def isVar : Bool := o.entity matches .var ..

def isFunc : Bool := o.entity matches .func _

def isNil : Bool := o.entity matches .nil

def isBlank : Bool := o.name = "_"

def value? : Option Constant :=
  match o.entity with
  | .const v => some v
  | _ => none

def isEmbedded : Bool := o.entity matches .var true _ _

def isField : Bool := o.entity matches .var _ true _

def isUsed : Bool := o.entity matches .var _ _ true

def hasPointerReceiver : Bool := o.entity matches .func true

def setUsed (used : Bool) (o : Object) : Object :=
  match o.entity with
  | .var embedded isField _ => { o with entity := .var embedded isField used }
  | _ => o

def setValue (v : Constant) (o : Object) : Object :=
  match o.entity with
  | .const _ => { o with entity := .const v }
  | _ => o

def setPointerReceiver (p : Bool) (o : Object) : Object :=
  match o.entity with
  | .func _ => { o with entity := .func p }
  | _ => o

def setType (t : Option TypeId) (o : Object) : Object := { o with type := t }

/-- The object with a type in place of a missing one. -/
def giveType (t : TypeId) (o : Object) : Object := { o with type := o.type <|> some t }

end Object

/-- Names and the objects they denote, in a part of the program. -/
structure Scope where
  parent : Option ScopeId := none
  /-- The scopes inside, oldest first. -/
  children : List ScopeId := []
  /-- The bindings, oldest first. -/
  bindings : List (String × ObjectId) := []
  start : Nat := 0
  stop : Nat := 0
  comment : String
  isFunc : Bool := false
  deriving DecidableEq, Repr

instance : Inhabited Scope := ⟨{ comment := "" }⟩

def Scope.find? (s : Scope) (name : String) : Option ObjectId := s.bindings.lookup name

def Scope.sortedBindings (s : Scope) : List (String × ObjectId) :=
  s.bindings.mergeSort fun a b => !(b.1 < a.1)

def Scope.text (s : Scope) : String :=
  s.comment ++ " scope\n" ++ String.join (s.sortedBindings.map fun b => ".  " ++ b.1 ++ "\n")

structure Package where
  path : String
  name : String
  scope : ScopeId
  deriving DecidableEq, Repr, Inhabited

end GoCheck
