import GoCheck.Conversion.Implicit
import GoCheck.Selection.Lookup

/-!
# Satisfaction and assignability

Whether a type implements an interface, whether a value may be assigned to a variable of a type, and
the explanation if not. On the way, the methods that types were found to lack are noted for the
log.
-/

namespace GoCheck

inductive Unsatisfied where
  | notInterface
  | constraint
  | lacking (reason : Lacking)
  deriving DecidableEq, Repr

namespace Store

variable (s : Store)

/-- Whether an error has been reported for a type or for what it points to. -/
def isFaulty (t : TypeId) : Bool :=
  s.isInvalid t || (s.shape t).pointerBase?.any s.isInvalid

/-- Why `v` does not implement `t`. Types with errors implement everything. -/
def unsatisfied? (v t : TypeId) : Option Unsatisfied :=
  if s.isInvalid t || s.isFaulty v then none
  else match s.shape t with
    | .interface i =>
      if i.terms.isSome then some .constraint
      else if i.isEmpty then none
      else (s.lackingMethod? v t true).map .lacking
    | _ => some .notInterface

def implements (v t : TypeId) : Bool := (s.unsatisfied? v t).isNone

def methodText (m : ObjectId) : String :=
  let o := s.object m
  let sig := (s.typeTextOf o.type).toList
  o.name ++ String.ofList (if "func".toList.isPrefixOf sig then sig.drop 4 else sig)

def selectsField (t : TypeId) (name : String) : Bool :=
  match s.select t true name with
  | .entry o _ _ => (s.object o).isVar
  | _ => false

def lackingText (v : TypeId) : Lacking → String
  | .wrongType want found =>
    "(wrong type for method " ++ (s.object want).name ++ ")\n\t\thave " ++ s.methodText found ++
      "\n\t\twant " ++ s.methodText want
  | .pointerReceiver m => "(method " ++ (s.object m).name ++ " has pointer receiver)"
  | .missing m =>
    let name := (s.object m).name
    if s.isInterfacePointer v then
      "(type " ++ s.typeText v ++ " is pointer to interface, not interface)"
    else if s.selectsField v name then
      "(" ++ s.typeText v ++ "." ++ name ++ " is a field, not a method)"
    else "(missing method " ++ name ++ ")"

def unsatisfiedText (v t : TypeId) : Unsatisfied → String
  | .notInterface =>
    s.typeText v ++ " does not implement " ++ s.typeText t ++
      (if s.isInterfacePointer (s.underlying t) then
        " (type " ++ s.typeText t ++ " is pointer to interface, not interface)"
      else " (" ++ s.typeText t ++ " is not an interface)")
  | .constraint =>
    "cannot use type " ++ s.typeText t ++
      " outside a type constraint: interface contains type constraints"
  | .lacking reason =>
    s.typeText v ++ " does not implement " ++ s.typeText t ++ " " ++ s.lackingText v reason

end Store

/-! ## Assignability -/

/-- Why a value is not assignable: the kind of fault, and an explanation if there is one. -/
structure Refusal where
  fault : Fault
  cause : Option String := none
  deriving DecidableEq, Repr

/-- A refusal because of a refusal for a term, with what was attempted in front of its cause. -/
def Refusal.within (attempt : String) (r : Refusal) : Refusal :=
  { r with cause := some (r.cause.elim attempt fun c => attempt ++ "\n\t" ++ c) }

/-- A question that notes the names of the missing methods it meets, oldest first. -/
abbrev Probe := StateM (List String)

abbrev Verdict := Except Refusal Unit

def Verdict.holds : Verdict → Bool
  | .ok _ => true
  | .error _ => false

/-- Asks the same question of each type, up to the first refusal. -/
def probeAll (ask : TypeId → Probe Verdict) : List TypeId → Probe Verdict
  | [] => pure (.ok ())
  | t :: ts => do
    match ← ask t with
    | .ok _ => probeAll ask ts
    | .error r => pure (.error r)

namespace Store

variable (s : Store)

/-- Why `v` does not implement `t`, noting a method that it lacks. -/
def probeUnsatisfied (v t : TypeId) : Probe (Option Unsatisfied) := do
  let reason := s.unsatisfied? v t
  if let some (.lacking l) := reason then
    modify (· ++ [(s.object l.method).name])
  return reason

/-- Whether an untyped operand takes on a type; a type parameter must admit it in each term. -/
def assignUntyped (x : Operand) (t : TypeId) : Verdict :=
  let ok :=
    if s.isTypeParam t then
      !(s.terms t).isEmpty && (s.terms t).all fun term => givesType (s.implicit x term)
    else givesType (s.implicit x t)
  if ok then .ok () else .error { fault := .incompatibleAssign }

def oneUnnamed (v t : TypeId) : Bool := !s.isNamed v || !s.isNamed t

/-- Whether `t` asks for an implementation: an interface, or a pointer to one, which nothing
implements. -/
def asksForMethods (t : TypeId) : Bool :=
  s.isPlainInterface t || s.isInterfacePointer (s.underlying t)

/-- A two-way channel may become any with its elements, unless both are named; `none` without
channels. -/
def assignChannel? (v t : TypeId) : Option Verdict :=
  match s.shape v, s.shape t with
  | .chan .both a, .chan _ b =>
    if s.identical a b then
      some (if s.oneUnnamed v t then .ok () else .error { fault := .invalidChanAssign })
    else none
  | _, _ => none

def assignTerms (assign : Operand → TypeId → Probe Verdict) (x : Operand)
    (v t : TypeId) : Probe Verdict :=
  if !s.isNamed v && s.isTypeParam t then
    if (s.terms t).isEmpty then pure (.error { fault := .incompatibleAssign })
    else probeAll (fun term => do
      return (← assign x term).mapError (·.within
        ("cannot assign " ++ s.typeText v ++ " to " ++ s.typeText term ++
          " (in " ++ s.typeText t ++ ")"))) (s.terms t)
  else if s.isTypeParam v && !s.isNamed t then
    if (s.terms v).isEmpty then pure (.error { fault := .incompatibleAssign })
    else probeAll (fun term => do
      return (← assign { x with type := some term } t).mapError (·.within
        ("cannot assign " ++ s.typeText term ++ " (in " ++ s.typeText v ++ ") to " ++
          s.typeText t))) (s.terms v)
  else pure (.error { fault := .incompatibleAssign })

/-- Assignability to what is no interface: interfaces need an assertion, then channels, then
terms. -/
def assignOther (assign : Operand → TypeId → Probe Verdict) (x : Operand)
    (v t : TypeId) : Probe Verdict := do
  if s.isPlainInterface v then
    if (← s.probeUnsatisfied t v).isNone then
      return .error { fault := .incompatibleAssign, cause := some "need type assertion" }
  match s.assignChannel? v t with
  | some verdict => return verdict
  | none => s.assignTerms assign x v t

def assignTyped (assign : Operand → TypeId → Probe Verdict) (x : Operand)
    (v t : TypeId) : Probe Verdict := do
  if s.identical (s.underlying v) (s.underlying t) && s.oneUnnamed v t &&
      !s.isTypeParam v && !s.isTypeParam t then
    return .ok ()
  if s.asksForMethods t then
    match ← s.probeUnsatisfied v t with
    | none => return .ok ()
    | some reason =>
      if !s.isTypeParam v then
        return .error { fault := .invalidIfaceAssign, cause := some (s.unsatisfiedText v t reason) }
  s.assignOther assign x v t

/-- Assignability, given that of terms. Nothing more is said about what is invalid. -/
def assignStep (assign : Operand → TypeId → Probe Verdict) (x : Operand)
    (t : TypeId) : Probe Verdict :=
  match x.type with
  | none => pure (.ok ())
  | some v =>
    if x.isInvalid || t = .invalid || s.identical v t then pure (.ok ())
    else if s.isUntyped (s.underlying v) then pure (s.assignUntyped x t)
    else s.assignTyped assign x v t

/-- Assignability, at most `n` type parameters deep. -/
def assignWithin (s : Store) : Nat → Operand → TypeId → Probe Verdict
  | 0, _, _ => pure (.error { fault := .incompatibleAssign })
  | n + 1, x, t => s.assignStep (s.assignWithin n) x t

/-- The depth of questions about terms: each replaces a type parameter by an earlier type. -/
def termDepth : Nat := 2 * s.types.size + 2

def assign (x : Operand) (t : TypeId) : Probe Verdict := s.assignWithin s.termDepth x t

def assignable (x : Operand) (t : TypeId) : Bool := ((s.assign x t).run []).1.holds

end Store

end GoCheck
