import GoCheck.Check.State

/-!
# Passes

A pass is a computation that changes the state of a check only by the steps that a check makes. So
whatever one step keeps is kept by every pass.
-/

namespace GoCheck

/-- A computation that changes the state of a check by steps alone. -/
def Pass (α : Type) := { m : Checker → α × Checker // ∀ c : Checker, c.Steps (m c).2 }

namespace Pass

variable {α β : Type}

instance : Monad Pass where
  pure a := ⟨fun c => (a, c), .refl⟩
  bind m f := ⟨fun c => (f (m.1 c).1).1 (m.1 c).2, fun c => (m.2 c).trans ((f (m.1 c).1).2 _)⟩

def run (m : Pass α) : Check α := m.1

def current : Pass Checker := ⟨fun c => (c, c), .refl⟩

def entities : Pass Store := return (← current).store

def step (f : Checker → Checker) (h : ∀ c : Checker, c.Step (f c)) : Pass Unit :=
  ⟨fun c => ((), f c), fun c => .single (h c)⟩

def build (b : Build α) (h : ∀ s : Store, s.Step (b s).2) : Pass α :=
  ⟨Check.build b, fun c => .single (.store (h c.store))⟩

def newType (t : Ty) (h : t.isComposed) : Pass TypeId :=
  build (Build.newType t) fun s => .newType s t h

def newPointer (elem : TypeId) : Pass TypeId := newType (.pointer elem) rfl

def newSlice (elem : TypeId) : Pass TypeId := newType (.slice elem) rfl

def newMap (key elem : TypeId) : Pass TypeId := newType (.map key elem) rfl

def newChan (dir : ChanDir) (elem : TypeId) : Pass TypeId := newType (.chan dir elem) rfl

def newTuple (vars : List ObjectId) : Pass TypeId := newType (.tuple vars) rfl

def newSignature (sig : Signature) : Pass TypeId := newType (.signature sig) rfl

def newVar (span : Span) (package : Option PackageId) (name : String) (type : Option TypeId) :
    Pass ObjectId :=
  build (Build.newVar span package name type) fun _ => .newObject ..

def newParam (span : Span) (package : Option PackageId) (name : String) (type : Option TypeId) :
    Pass ObjectId :=
  build (Build.newParam span package name type) fun _ => .newObject ..

def newConst (span : Span) (package : Option PackageId) (name : String) (type : Option TypeId)
    (value : Constant) : Pass ObjectId :=
  build (Build.newConst span package name type value) fun _ => .newObject ..

def newFunc (span : Span) (package : Option PackageId) (name : String) (type : Option TypeId) :
    Pass ObjectId :=
  build (Build.newFunc span package name type) fun _ => .newObject ..

def tupleOf (types : List TypeId) : Pass TypeId := do
  let vars ← types.mapM fun t => newParam Span.dummy none "" (some t)
  newTuple vars

def newScope (parent : Option ScopeId) (span : Span) (comment : String) (isFunc : Bool) :
    Pass ScopeId :=
  build (Build.newScope parent span.start span.stop comment isFunc) fun _ => .newScope ..

def bindIn (scope : ScopeId) (o : ObjectId) : Pass (Option ObjectId) :=
  build (fun s => s.bind scope o) fun _ => .bind ..

def setUsed (o : ObjectId) (used : Bool) : Pass Unit :=
  step (fun c => { c with store := c.store.modifyObject o (·.setUsed used) })
    fun _ => .store (.setUsed ..)

def giveType (o : ObjectId) (t : TypeId) : Pass Unit :=
  step (fun c => { c with store := c.store.modifyObject o (·.giveType t) })
    fun _ => .store (.giveType ..)

def setValue (o : ObjectId) (v : Constant) : Pass Unit :=
  step (fun c => { c with store := c.store.modifyObject o (·.setValue v) })
    fun _ => .store (.setValue ..)

def setVisible (o : ObjectId) (visibleFrom : Nat) : Pass Unit :=
  step (fun c => { c with store := c.store.modifyObject o ({ · with visibleFrom }) })
    fun _ => .store (.setVisible ..)

def onRecords (f : Records → Records) : Pass Unit :=
  step (fun c => { c with info := { c.info with types := f c.info.types } }) fun _ => .records ..

def recordFailed (id : Nat) : Pass Unit :=
  step (fun c => { c with info := { c.info with failed := id :: c.info.failed } })
    fun _ => .failed ..

def emit (d : Diagnostic) : Pass Unit :=
  step (fun c => { c with sink := c.sink.emit d }) fun _ => .emit ..

def logEvent (e : Event) : Pass Unit :=
  step (fun c => { c with log := c.log.push e }) fun _ => .log ..

def setIndent (n : Nat) : Pass Unit := step ({ · with indent := n }) fun _ => .indent ..

def move (context : Context) : Pass Unit := step ({ · with context }) fun _ => .move ..

def note (h : Happening) : Pass Unit :=
  step (fun c => { c with history := c.history.push h }) fun _ => .happen ..

def defer (d : Deferred) : Pass Unit :=
  step (fun c => { c with
    deferred := c.deferred ++ [d], history := c.history.push (.putOff d) }) fun _ => .defer ..

/-- Drops what has been put off since there were `n` bodies. -/
def dropDeferred (n : Nat) : Pass Unit :=
  step (fun c => { c with deferred := c.deferred.take n }) fun _ => .drop ..

def markUsed (o : ObjectId) : Pass Unit := setUsed o true

def invalidateMissing (o : ObjectId) : Pass Unit := giveType o .invalid

def recordConversion (x : Conversion) : Pass Unit :=
  step (fun c => { c with info := { c.info with conversions := x :: c.info.conversions } })
    fun _ => .converted ..

def recordDef (span : Span) (o : Option ObjectId) : Pass Unit :=
  step (fun c => { c with info := { c.info with defs := c.info.defs.insert span o } })
    fun c => .names c (c.info.defs.insert span o) c.info.uses c.info.scopes

def recordUse (span : Span) (o : ObjectId) : Pass Unit :=
  step (fun c => { c with info := { c.info with uses := c.info.uses.insert span o } })
    fun c => .names c c.info.defs (c.info.uses.insert span o) c.info.scopes

def recordScope (span : Span) (s : ScopeId) : Pass Unit :=
  step (fun c => { c with info := { c.info with scopes := c.info.scopes.insert span s } })
    fun c => .names c c.info.defs c.info.uses (c.info.scopes.insert span s)

def report (p : Problem) (span : Span) : Pass Unit := emit (p.report span)

/-- Answers a question about the entities and logs the missing methods it met. -/
def probe (ask : Store → Probe α) : Pass α := do
  let (a, missing) := (ask (← entities)).run []
  missing.forM fun m => logEvent (.missingMethod m)
  return a

def traceLine (line : Store → String) : Pass Unit := do
  let c ← current
  if c.config.trace then
    logEvent (.trace (String.join (List.replicate c.indent ".  ") ++ line c.store))

def indentTrace : Pass Unit := do
  let c ← current
  if c.config.trace then setIndent (c.indent + 1)

def unindentTrace : Pass Unit := do
  let c ← current
  if c.config.trace then setIndent (c.indent - 1)

def describe (x : Operand) : Pass String := return x.describe (← entities)

def typeText (t : TypeId) : Pass String := return (← entities).typeText t

/-- The object a name denotes, from the current scope outward. -/
def lookup (name : String) : Pass (Option ObjectId) := do
  let c ← current
  let found := c.context.scope.bind (c.store.resolve? · name)
  note (.lookup c.context.scope name found)
  return found.map (·.2)

def isLocalVar (o : ObjectId) : Pass Bool := do
  let c ← current
  let ob := c.store.object o
  return ob.isVar && ob.package = some c.package

def localVar? (i : Ident) : Pass (Option ObjectId) := do
  match ← lookup i.text with
  | some o => return if ← isLocalVar o then some o else none
  | none => return none

/-- The report of a name that is already taken by another object. -/
def redeclaration (o other : Object) : Diagnostic :=
  let d := (Problem.redeclared o.name).report o.span
  if other.span.isDummy then d
  else
    let message := some ("other declaration of " ++ other.name)
    d.withLabel { style := .secondary, span := other.span, message }

/-- Declares an object in a scope from a position on. The blank name binds nothing. -/
def declare (scope : ScopeId) (name : Option Ident) (o : ObjectId) (visibleFrom : Nat) :
    Pass Unit := do
  let s ← entities
  let clash ← if (s.object o).isBlank then pure none else bindIn scope o
  match clash with
  | some other =>
    emit (redeclaration (s.object o) (s.object other))
    note (.clash scope o other)
  | none =>
    unless (s.object o).isBlank do setVisible o visibleFrom
    name.forM fun i => recordDef i.span (some o)

def openScope (span : Span) : Pass Unit := do
  let context := (← current).context
  let scope ← newScope context.scope span "block" false
  recordScope span scope
  move { context with scope }

def closeScope : Pass Unit := do
  let c ← current
  move { c.context with scope := c.context.scope.bind fun s => (c.store.scope s).parent }

def within (context : Context) (m : Pass α) : Pass α := do
  let saved := (← current).context
  move context
  let a ← m
  move saved
  return a

def deferredCount : Pass Nat := return (← current).deferred.length

/-- Checks the bodies put off since there were `top` of them, in order. -/
def runDeferred (run : Deferred → Pass Unit) (top : Nat) : Pass Unit := do
  ((← current).deferred.drop top).forM run
  dropDeferred top

end Pass

end GoCheck
