import GoCheck.Check.Target

/-!
# Statements

Statements are checked in order. The names of a declaration are bound at its end, and the bodies of
function literals are checked when the statement around them is done; a short declaration checks
them before it binds its names.
-/

namespace GoCheck

namespace Pass

/-- Reports names and values that differ in number, but not a single value for several names. -/
def checkArity (names : List Ident) (inits : List Expr) (isConst : Bool) : Pass Unit :=
  match inits[names.length]?, names[inits.length]? with
  | some extra, _ => report .extraValue extra.span
  | none, some name =>
    if isConst || inits.length ≠ 1 then report (.missingValue name.text) name.span else pure ()
  | none, none => pure ()

def declarationScope : Pass ScopeId := do
  let c ← current
  return c.context.scope.getD c.packageScope

def declareAll (scope : ScopeId) (visibleFrom : Nat) : List Ident → List ObjectId → Pass Unit
  | i :: is, o :: os => do
    declare scope (some i) o visibleFrom
    declareAll scope visibleFrom is os
  | _, _ => pure ()

/-- Initializes each variable with its value. Without a value and a type it is invalid. -/
def initSeparately (untyped : Bool) : List ObjectId → List Expr → Pass Unit
  | v :: vs, e :: es => do
    discard <| initVar v (← e.evalValue) "variable declaration"
    initSeparately untyped vs es
  | v :: vs, [] => do
    if untyped then invalidateMissing v
    initSeparately untyped vs []
  | [], _ => pure ()

/-- Initializes the variables of a specification, several with one value at once or each with its
own. -/
def initSpec (untyped : Bool) (vars : List ObjectId) (values : List Expr) : Pass Unit :=
  if 1 < vars.length && values.length = 1 then initVars vars values none
  else initSeparately untyped vars values

def makeVars (spec : Spec) : Pass (List ObjectId) := do
  let declared ← spec.type.mapM (·.resolve)
  let package := (← current).package
  let vars ← spec.names.mapM fun i => newVar i.span (some package) i.text declared
  initSpec declared.isNone vars spec.values
  if declared.isNone || !spec.values.isEmpty then checkArity spec.names spec.values false
  return vars

/-- Declares the names of a specification in the current scope, visible from its end on. -/
def declareSpec (spec : Spec) (os : List ObjectId) : Pass Unit := do
  declareAll (← declarationScope) spec.span.stop spec.names os

def varSpec (spec : Spec) : Pass Unit := do declareSpec spec (← makeVars spec)

/-- The declared type of constants, reported and made invalid if it has none. -/
def constType (type : TypeExpr) : Pass TypeId := do
  let t ← type.resolve
  let s ← entities
  if s.isConstType t then return t
  unless s.isInvalid t do report (.invalidConstType (s.typeText t)) type.span
  return .invalid

def initConsts (declared : Option TypeId) : List Ident → List Expr → Pass (List ObjectId)
  | [], _ => pure []
  | i :: is, es => do
    let package := (← current).package
    let o ← newConst i.span (some package) i.text declared .unknown
    unless declared = some .invalid do
      let x ← match es with
        | e :: _ => e.evalValue
        | [] => pure {}
      initConst o x
    return o :: (← initConsts declared is es.tail)

def makeConsts (spec : Spec) : Pass (List ObjectId) := do
  let declared ← spec.type.mapM constType
  let consts ← initConsts declared spec.names spec.values
  checkArity spec.names spec.values true
  return consts

def constSpec (spec : Spec) : Pass Unit := do declareSpec spec (← makeConsts spec)

/-- What a target of a short declaration turned out to be. -/
inductive ShortTarget where
  /-- A new variable, or a blank. -/
  | fresh (o : ObjectId)
  /-- A variable of the same scope, which is assigned to. -/
  | existing (o : ObjectId)
  /-- An error, which has been reported. -/
  | wrong

/-- A name on the left of a short declaration that has not occurred before. -/
def shortName (scope : ScopeId) (e : Expr) (i : Ident) : Pass ShortTarget := do
  let c ← current
  match (c.store.scope scope).find? i.text with
  | some other =>
    recordUse i.span other
    if (c.store.object other).isVar then return .existing other
    report (.cannotAssignTo e.text) e.span
    return .wrong
  | none =>
    let o ← newVar i.span (some c.package) i.text none
    recordDef i.span (some o)
    return .fresh o

/-- The targets of a short declaration in order; `seen` are the names that occurred before. -/
def shortTargets (scope : ScopeId) : List String → List Expr → Pass (List ShortTarget)
  | _, [] => pure []
  | seen, e :: es => do
    match e.ident? with
    | none =>
      useAll (pending [e])
      report (.nonName e.text) e.span
      return .wrong :: (← shortTargets scope seen es)
    | some i =>
      if i.text ≠ "_" && seen.contains i.text then
        report (.repeatedName i.text) e.span
        return .wrong :: (← shortTargets scope seen es)
      let target ← shortName scope e i
      return target :: (← shortTargets scope (i.text :: seen) es)

/-- The variables to initialize; blanks stand in for wrong targets. -/
def targetVars : List ShortTarget → List Expr → Pass (List ObjectId)
  | t :: ts, e :: es => do
    let v ← match t with
      | .fresh o | .existing o => pure o
      | .wrong => newVar e.span (some (← current).package) "_" none
    return v :: (← targetVars ts es)
  | _, _ => pure []

def newVars (s : Store) (ts : List ShortTarget) : List ObjectId :=
  ts.filterMap fun t =>
    match t with
    | .fresh o => if (s.object o).isBlank then none else some o
    | _ => none

/-- The targets of a short declaration and the variables that it binds once they are initialized. -/
def shortInit (scope : ScopeId) (lhs rhs : List Expr) :
    Pass (List ShortTarget × List ObjectId) := do
  let targets ← shortTargets scope [] lhs
  let vars ← targetVars targets lhs
  let new := newVars (← entities) targets
  initVars vars rhs none
  return (targets, new)

/-- Binds the variables of a short declaration. There must be some unless a target was wrong. -/
def declareShort (scope : ScopeId) (span : Span) (lhs rhs : List Expr) (targets : List ShortTarget)
    (new : List ObjectId) : Pass Unit :=
  if new.isEmpty && !targets.any (· matches .wrong) then
    report .noNewVariables span
  else do
    let visibleFrom := rhs.getLast?.elim span.stop (·.span.stop)
    logEvent (.shortDeclaration new.length lhs.length)
    new.forM fun v => declare scope none v visibleFrom

/-- A short declaration. Its names are bound after its values and the literals in it are checked. -/
def shortDecl (run : Deferred → Pass Unit) (span : Span) (lhs rhs : List Expr) : Pass Unit := do
  let top ← deferredCount
  match (← current).context.scope with
  | none => report .noScope span
  | some scope =>
    let (targets, new) ← shortInit scope lhs rhs
    runDeferred run top
    declareShort scope span lhs rhs targets new

def exprStmt (e : Expr) : Pass Unit := do
  let (x, cls) ← e.eval
  match x.mode, cls with
  | .invalid, _ => pure ()
  | .typeExpr, _ => report (.notAnExpression (← describe x)) x.span
  | _, .statement => pure ()
  | _, _ => report (.notUsed (← describe x)) x.span

def hiddenResult (name : String) (span other : Span) : Diagnostic :=
  let d := (Problem.hiddenResult name).report span
  let text := "inner declaration of " ++ name
  if other.isDummy then d.withNote text
  else d.withLabel { style := .secondary, span := other, message := some text }

/-- A return without values needs every named result in scope. -/
def bareReturn (span : Span) (results : List ObjectId) : Pass Unit :=
  results.forM fun r => do
    let s ← entities
    let name := (s.object r).name
    match ← lookup name with
    | some other => unless other = r do emit (hiddenResult name span (s.object other).span)
    | none => pure ()

def returnStmt (span : Span) (values : List Expr) : Pass Unit := do
  let c ← current
  match c.context.sig with
  | none => report .returnOutsideFunction span
  | some sig =>
    let results := (c.store.type sig).signature?.elim [] fun g => c.store.tupleVars g.results
    let named := results.head?.any fun r => !(c.store.object r).name.isEmpty
    if values.isEmpty && named then bareReturn span results
    else if !values.isEmpty || !results.isEmpty then initVars results values (some span)

/-- Checks a statement, with a trace around it, and then the function literals in it. -/
def observeStmt (run : Deferred → Pass Unit) (s : Stmt) (m : Pass Unit) : Pass Unit := do
  note (.enterStmt s)
  traceLine fun _ => "stmt[ " ++ s.text ++ " ]"
  indentTrace
  let top ← deferredCount
  m
  runDeferred run top
  unindentTrace
  note (.leaveStmt s)

end Pass

open Pass

mutual

/-- Checks a statement; `run` checks the bodies of function literals. -/
def Stmt.check (run : Deferred → Pass Unit) : Stmt → Pass Unit
  | .empty span => observeStmt run (.empty span) (pure ())
  | .block span body => observeStmt run (.block span body) (enterBlock run body)
  | .var span specs => observeStmt run (.var span specs) (specs.forM varSpec)
  | .const span specs => observeStmt run (.const span specs) (specs.forM constSpec)
  | .short span lhs rhs => observeStmt run (.short span lhs rhs) (shortDecl run span lhs rhs)
  | .assign span lhs rhs => observeStmt run (.assign span lhs rhs) (assignVars lhs rhs)
  | .ret span values => observeStmt run (.ret span values) (returnStmt span values)
  | .expr span e => observeStmt run (.expr span e) (exprStmt e)

def enterBlock (run : Deferred → Pass Unit) : BlockOf Stmt → Pass Unit
  | ⟨stmts, span⟩ => do
    openScope span
    checkStmts run stmts
    closeScope

def checkStmts (run : Deferred → Pass Unit) : List Stmt → Pass Unit
  | [] => pure ()
  | s :: ss => do
    s.check run
    checkStmts run ss

end

/-- What the check of a statement does by itself. -/
def Stmt.act (run : Deferred → Pass Unit) : Stmt → Pass Unit
  | .empty _ => pure ()
  | .block _ body => enterBlock run body
  | .var _ specs => specs.forM varSpec
  | .const _ specs => specs.forM constSpec
  | .short span lhs rhs => shortDecl run span lhs rhs
  | .assign _ lhs rhs => assignVars lhs rhs
  | .ret span values => returnStmt span values
  | .expr _ e => exprStmt e

/-- Every statement is observed, and what it has put off is checked at its end. -/
theorem Stmt.check_eq (run : Deferred → Pass Unit) (s : Stmt) :
    s.check run = observeStmt run s (s.act run) := by
  cases s <;> simp only [Stmt.check, Stmt.act]

mutual

/-- Whether nothing after a statement is reached. -/
def Stmt.isTerminating : Stmt → Bool
  | .ret .. => true
  | .block _ body => blockIsTerminating body
  | _ => false

def blockIsTerminating : BlockOf Stmt → Bool
  | ⟨stmts, _⟩ => (lastIsTerminating stmts).getD false

/-- Whether the last statement that is not empty is terminating, if there is one. -/
def lastIsTerminating : List Stmt → Option Bool
  | [] => none
  | .empty _ :: ss => lastIsTerminating ss
  | s :: ss => (lastIsTerminating ss) <|> some s.isTerminating

end

end GoCheck
