import GoCheck.Entity.Basic

/-!
# The store of entities

All types, objects, scopes and packages of a check. Entities are numbered in the order in which they
are made and are never removed; a number that is not taken stands for a default entity.
-/

namespace GoCheck

structure Store where
  types : Array Ty := #[]
  objects : Array Object := #[]
  scopes : Array Scope := #[]
  packages : Array Package := #[]
  deriving Inhabited

namespace Store

def type (s : Store) (t : TypeId) : Ty := s.types[t.index]?.getD default

def object (s : Store) (o : ObjectId) : Object := s.objects[o.index]?.getD default

def scope (s : Store) (c : ScopeId) : Scope := s.scopes[c.index]?.getD default

def package (s : Store) (p : PackageId) : Package := s.packages[p.index]?.getD default

def modifyType (s : Store) (t : TypeId) (f : Ty → Ty) : Store :=
  { s with types := s.types.modify t.index f }

def modifyObject (s : Store) (o : ObjectId) (f : Object → Object) : Store :=
  { s with objects := s.objects.modify o.index f }

def modifyScope (s : Store) (c : ScopeId) (f : Scope → Scope) : Store :=
  { s with scopes := s.scopes.modify c.index f }

/-- The variables of a tuple; other types have none. -/
def tupleVars (s : Store) (t : TypeId) : List ObjectId := (s.type t).tuple?.getD []

/-- Binds the name of an object in a scope, or gives the object that has the name and changes
nothing. -/
def bind (s : Store) (c : ScopeId) (o : ObjectId) : Option ObjectId × Store :=
  let name := (s.object o).name
  match (s.scope c).find? name with
  | some other => (some other, s)
  | none =>
    let s := s.modifyScope c fun sc => { sc with bindings := sc.bindings ++ [(name, o)] }
    (none, s.modifyObject o fun ob => { ob with parent := ob.parent <|> some c })

/-- The nearest scope from `c` outward with a name, and the object there, within so many scopes. -/
def resolveWithin (s : Store) (name : String) : Nat → ScopeId → Option (ScopeId × ObjectId)
  | 0, _ => none
  | n + 1, c =>
    match (s.scope c).find? name with
    | some o => some (c, o)
    | none => (s.scope c).parent.bind (s.resolveWithin name n)

/-- The nearest scope from `c` outward that binds a name, and the object bound there. -/
def resolve? (s : Store) (c : ScopeId) (name : String) : Option (ScopeId × ObjectId) :=
  s.resolveWithin name s.scopes.size c

end Store

/-- A computation that may make entities. -/
abbrev Build := StateM Store

namespace Build

def newType (t : Ty) : Build TypeId := fun s =>
  (⟨s.types.size⟩, { s with types := s.types.push t })

def newObject (o : Object) : Build ObjectId := fun s =>
  (⟨s.objects.size⟩, { s with objects := s.objects.push o })

def setObject (o : ObjectId) (f : Object → Object) : Build Unit :=
  modify fun s => s.modifyObject o f

def universeScope : ScopeId := ⟨0⟩

/-- A scope inside `parent`, which lists it among its children unless it is the outermost scope. -/
def newScope (parent : Option ScopeId) (start stop : Nat) (comment : String) (isFunc : Bool) :
    Build ScopeId := fun s =>
  let c : ScopeId := ⟨s.scopes.size⟩
  let comment := if isFunc then "function" else comment
  let s := { s with scopes := s.scopes.push { parent, start, stop, comment, isFunc } }
  match parent with
  | some p =>
    if p = universeScope then (c, s)
    else (c, s.modifyScope p fun sc => { sc with children := sc.children ++ [c] })
  | none => (c, s)

def newPackage (path name : String) : Build PackageId := do
  let scope ← newScope (some universeScope) 0 0 ("package " ++ path) false
  modifyGet fun s =>
    (⟨s.packages.size⟩, { s with packages := s.packages.push { path, name, scope } })

def newVar (span : Span) (package : Option PackageId) (name : String) (type : Option TypeId) :
    Build ObjectId :=
  newObject { entity := .var false false false, span, package, name, type }

/-- A parameter or result; it counts as used from the start. -/
def newParam (span : Span) (package : Option PackageId) (name : String) (type : Option TypeId) :
    Build ObjectId :=
  newObject { entity := .var false false true, span, package, name, type }

def newConst (span : Span) (package : Option PackageId) (name : String) (type : Option TypeId)
    (value : Constant) : Build ObjectId :=
  newObject { entity := .const value, span, package, name, type }

def newTypeName (span : Span) (name : String) (type : Option TypeId) : Build ObjectId :=
  newObject { entity := .typeName, span, name, type }

def newField (name : String) (type : Option TypeId) (embedded : Bool) : Build ObjectId :=
  newObject { entity := .var embedded true false, name, type }

def newFunc (span : Span) (package : Option PackageId) (name : String) (type : Option TypeId) :
    Build ObjectId :=
  newObject { entity := .func false, span, package, name, type }

def tupleOf (types : List TypeId) : Build TypeId := do
  let vars ← types.mapM fun t => newParam Span.dummy none "" (some t)
  newType (.tuple vars)

def signatureOf (params results : List TypeId) (variadic : Bool) : Build TypeId := do
  let params ← tupleOf params
  let results ← tupleOf results
  newType (.signature { params, results, variadic })

end Build

end GoCheck
