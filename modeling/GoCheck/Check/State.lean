import GoCheck.Check.Problem
import GoCheck.Config
import GoCheck.Conversion.Explicit
import GoCheck.Entity.Universe

/-!
# The state of a check

The entities, the reports, what a check has found out about expressions, names and blocks, and the
bodies of function literals that wait to be checked. Expressions are known by their numbers, names
and blocks by their places.
-/

namespace GoCheck

/-- Keys with their values. Every key occurs at most once. -/
abbrev Table (κ ν : Type) := List (κ × ν)

namespace Table

variable {κ ν : Type} [BEq κ]

def find? (t : Table κ ν) (k : κ) : Option ν := t.lookup k

def insert (t : Table κ ν) (k : κ) (v : ν) : Table κ ν := (k, v) :: t.filter fun p => !(p.1 == k)

def alter (t : Table κ ν) (k : κ) (f : ν → ν) : Table κ ν :=
  t.map fun p => if p.1 == k then (p.1, f p.2) else p

end Table

structure Recorded where
  mode : Mode
  type : TypeId
  deriving DecidableEq

/-- What is known about expressions, by number. -/
abbrev Records := Table Nat Recorded

namespace Records

def setType (rs : Records) (id : Nat) (t : TypeId) : Records :=
  rs.alter id fun r => { r with type := t }

/-- Gives a recorded untyped expression a type after its parts, which `parts` deals with. -/
def retypeNode (untyped : TypeId → Bool) (t : TypeId) (id : Nat)
    (parts : Recorded → Records → Records) (rs : Records) : Records :=
  match rs.find? id with
  | none => rs
  | some r => if untyped r.type then (parts r rs).setType id t else rs

/-- Gives an untyped expression a type, and also those that lend it their value. -/
def retype (untyped : TypeId → Bool) (t : TypeId) : Expr → Records → Records
  | .paren n inner, rs => rs.retypeNode untyped t n.id fun _ rs => retype untyped t inner rs
  | .unary n op operand, rs => rs.retypeNode untyped t n.id fun r rs =>
    match op with
    | .plus | .minus | .not => if r.mode.isConstant then rs else retype untyped t operand rs
    | .address | .indirect => rs
  | e, rs => rs.retypeNode untyped t e.id fun _ rs => rs

def setValue (untyped : TypeId → Bool) (id : Nat) (v : Constant) (rs : Records) : Records :=
  rs.alter id fun r =>
    if untyped r.type && r.mode.isConstant then { r with mode := .constant v } else r

/-- Gives an expression, and all that its parentheses enclose, the type of a pair. -/
def setPair (t : TypeId) : Expr → Records → Records
  | .paren n inner, rs => setPair t inner (rs.setType n.id t)
  | e, rs => rs.setType e.id t

end Records

structure Conversion where
  operand : Expr
  target : TypeId
  isConstant : Bool

structure Info where
  types : Records := []
  /-- The numbers of the expressions that evaluated to an invalid operand, latest first. -/
  failed : List Nat := []
  /-- The explicit conversions that succeeded, latest first. -/
  conversions : List Conversion := []
  /-- Names that declare, by place; a blank on the left of an assignment declares nothing. -/
  defs : Table Span (Option ObjectId) := []
  uses : Table Span ObjectId := []
  scopes : Table Span ScopeId := []
  deriving Inhabited

namespace Info

def typeOf? (info : Info) (id : Nat) : Option TypeId := (info.types.find? id).map (·.type)

def objectOf? (info : Info) (span : Span) : Option ObjectId :=
  match info.defs.find? span with
  | some o => o
  | none => info.uses.find? span

end Info

/-! ## The state -/

inductive Event where
  | trace (line : String)
  | missingMethod (method : String)
  | impossibleAssertion (target : String)
  | untypedConversion (old new : String)
  /-- A pair of a value and a boolean in two places, with the types of those that could be given. -/
  | pairInitialized (value ok : Option TypeId)
  | pairAssigned (value ok : Option TypeId)
  | shortDeclaration (new total : Nat)
  deriving DecidableEq, Repr

namespace Event

def isTrace : Event → Bool
  | trace _ => true
  | _ => false

def message : Event → String
  | trace line => line
  | missingMethod _ => "missing method"
  | impossibleAssertion _ => "impossible type assertion"
  | untypedConversion .. => "untyped conversion"
  | pairInitialized .. => "comma-ok initialization"
  | pairAssigned .. => "comma-ok assignment"
  | shortDeclaration .. => "short variable declaration"

def typeNumber : Option TypeId → String
  | none => "None"
  | some t => s!"Some(TypeKey({t.index}))"

def fields : Event → List (String × String)
  | trace _ => []
  | missingMethod m => [("method", m)]
  | impossibleAssertion t => [("target_type", t)]
  | untypedConversion f t => [("from", f), ("to", t)]
  | pairInitialized v ok | pairAssigned v ok => [("value", typeNumber v), ("ok", typeNumber ok)]
  | shortDeclaration n m => [("new", toString n), ("total", toString m)]

end Event

/-- Where a check stands: the innermost scope, and the signature of the function around it. -/
structure Context where
  scope : Option ScopeId := none
  sig : Option TypeId := none
  deriving DecidableEq, Repr, Inhabited

/-- The body of a function literal that waits to be checked. -/
structure Deferred where
  sig : TypeId
  scope : ScopeId
  body : Block

/-- What matters for the course of a check: lookups, refused declarations, literals, statements and
bodies. -/
inductive Happening where
  /-- A name has been looked up from a scope outward; what was found, and where. -/
  | lookup (scope : Option ScopeId) (name : String) (found : Option (ScopeId × ObjectId))
  /-- The declaration of an object has been refused, because its name is taken in the scope. -/
  | clash (scope : ScopeId) (o other : ObjectId)
  | literal (kind : LitKind) (raw : String)
  | putOff (d : Deferred)
  /-- The check of a body that was put off begins or ends. -/
  | enterBody (d : Deferred)
  | leaveBody (d : Deferred)
  | enterStmt (s : Stmt)
  | leaveStmt (s : Stmt)

/-- Whether a literal has an exponent that overflows. -/
def Happening.isOverflow : Happening → Bool
  | literal .float raw => (Literal.float? raw).isNone
  | literal .imaginary raw => (Literal.imaginary? raw).isNone
  | _ => false

structure Checker where
  store : Store
  package : PackageId
  config : Config := {}
  context : Context := {}
  info : Info := {}
  sink : Sink := {}
  indent : Nat := 0
  /-- What has been put off, oldest first. -/
  deferred : List Deferred := []
  log : Array Event := #[]
  /-- What has been done, oldest first. -/
  history : Array Happening := #[]

namespace Checker

def packageScope (c : Checker) : ScopeId := (c.store.package c.package).scope

/-- Whether the check has ended where an exponent overflowed. What is done from there on does not
count. -/
def hasStopped (c : Checker) : Bool := c.history.any (·.isOverflow)

/-- The start of a check: the predeclared entities, and the scope of an empty package. -/
def start (config : Config) : Checker :=
  let made := (Build.newPackage "main" "main").run Store.initial
  { store := made.2, package := made.1, config,
    context := { scope := some (made.2.package made.1).scope } }

end Checker

/-- One change of the entities by a check. None is removed, types stay, and those that are made are
composed of others. -/
inductive Store.Step : Store → Store → Prop where
  | newType (s : Store) (t : Ty) : t.isComposed → Step s (Build.newType t s).2
  | newObject (s : Store) (o : Object) : Step s (Build.newObject o s).2
  | newScope (s : Store) (parent : Option ScopeId) (start stop : Nat) (comment : String)
      (isFunc : Bool) : Step s (Build.newScope parent start stop comment isFunc s).2
  | bind (s : Store) (c : ScopeId) (o : ObjectId) : Step s (s.bind c o).2
  | setVisible (s : Store) (o : ObjectId) (visibleFrom : Nat) :
      Step s (s.modifyObject o ({ · with visibleFrom }))
  | setUsed (s : Store) (o : ObjectId) (used : Bool) : Step s (s.modifyObject o (·.setUsed used))
  | giveType (s : Store) (o : ObjectId) (t : TypeId) : Step s (s.modifyObject o (·.giveType t))
  | setValue (s : Store) (o : ObjectId) (v : Constant) : Step s (s.modifyObject o (·.setValue v))

namespace Checker

/-- One change of the state by a check. What is reported and recorded is only added to. -/
inductive Step : Checker → Checker → Prop where
  | store {c : Checker} {s : Store} : c.store.Step s → Step c { c with store := s }
  | emit (c : Checker) (d : Diagnostic) : Step c { c with sink := c.sink.emit d }
  | log (c : Checker) (e : Event) : Step c { c with log := c.log.push e }
  | indent (c : Checker) (n : Nat) : Step c { c with indent := n }
  | records (c : Checker) (types : Records) : Step c { c with info := { c.info with types } }
  | failed (c : Checker) (id : Nat) :
      Step c { c with info := { c.info with failed := id :: c.info.failed } }
  | converted (c : Checker) (x : Conversion) :
      Step c { c with info := { c.info with conversions := x :: c.info.conversions } }
  | names (c : Checker) (defs : Table Span (Option ObjectId)) (uses : Table Span ObjectId)
      (scopes : Table Span ScopeId) : Step c { c with info := { c.info with defs, uses, scopes } }
  | move (c : Checker) (context : Context) : Step c { c with context }
  | happen (c : Checker) (h : Happening) : Step c { c with history := c.history.push h }
  | defer (c : Checker) (d : Deferred) :
      Step c { c with deferred := c.deferred ++ [d], history := c.history.push (.putOff d) }
  | drop (c : Checker) (n : Nat) : Step c { c with deferred := c.deferred.take n }

inductive Steps : Checker → Checker → Prop where
  | refl (c : Checker) : Steps c c
  | tail {c d e : Checker} : Steps c d → Step d e → Steps c e

namespace Steps

variable {c d e : Checker}

theorem single (h : c.Step d) : c.Steps d := .tail (.refl c) h

theorem trans (h : c.Steps d) (k : d.Steps e) : c.Steps e := by
  induction k with
  | refl => exact h
  | tail _ last ih => exact .tail ih last

end Steps

end Checker

/-- A computation of a host on the state of a check. -/
abbrev Check := StateM Checker

def Check.build {α : Type} (b : Build α) : Check α := fun c =>
  let (a, store) := b.run c.store
  (a, { c with store })

end GoCheck
