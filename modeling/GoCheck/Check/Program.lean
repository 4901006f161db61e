import GoCheck.Check.Stmt

/-!
# Checking programs

A body is checked statement by statement in the scope of its parameters. Then a missing return and
unused variables are reported. The bodies of function literals are checked in the same way, as deep
as they are nested.
-/

namespace GoCheck

mutual

def Expr.literalDepth : Expr → Nat
  | .ident .. | .lit .. => 0
  | .paren _ e | .selector _ e _ | .assert _ e _ | .unary _ _ e | .receive _ e => e.literalDepth
  | .index _ e i => max e.literalDepth i.literalDepth
  | .call _ f args _ => max f.literalDepth (exprsDepth args)
  | .funcLit _ _ body => blockDepth body + 1

def exprsDepth : List Expr → Nat
  | [] => 0
  | e :: es => max e.literalDepth (exprsDepth es)

def specsDepth : List (SpecOf Expr) → Nat
  | [] => 0
  | spec :: specs => max (specDepth spec) (specsDepth specs)

def specDepth : SpecOf Expr → Nat
  | ⟨_, _, values, _⟩ => exprsDepth values

def Stmt.literalDepth : Stmt → Nat
  | .empty _ => 0
  | .block _ body => blockDepth body
  | .var _ specs | .const _ specs => specsDepth specs
  | .short _ lhs rhs | .assign _ lhs rhs => max (exprsDepth lhs) (exprsDepth rhs)
  | .ret _ values => exprsDepth values
  | .expr _ e => e.literalDepth

def blockDepth : BlockOf Stmt → Nat
  | ⟨stmts, _⟩ => stmtsDepth stmts

def stmtsDepth : List Stmt → Nat
  | [] => 0
  | s :: ss => max s.literalDepth (stmtsDepth ss)

end

namespace Store

def unusedHere (s : Store) (c : ScopeId) : List ObjectId :=
  let unused := ((s.scope c).bindings.map (·.2)).filter fun o =>
    (s.object o).isVar && !(s.object o).isUsed
  unused.mergeSort fun a b => (s.object a).span.start ≤ (s.object b).span.start

/-- The unused variables of a scope and of the blocks inside it, at most `n` blocks deep. -/
def unusedWithin (s : Store) : Nat → ScopeId → List ObjectId
  | 0, _ => []
  | n + 1, c =>
    s.unusedHere c ++
      ((s.scope c).children.filter fun d => !(s.scope d).isFunc).flatMap (s.unusedWithin n)

/-- The unused variables of a scope and of the blocks inside it, function literals left out. -/
def unusedVars (s : Store) (c : ScopeId) : List ObjectId := s.unusedWithin s.scopes.size c

end Store

namespace Pass

/-- Reports the end of a body that is reached although there are results. -/
def checkReturn (sig : TypeId) (body : Block) : Pass Unit := do
  let s ← entities
  let hasResults := (s.type sig).signature?.any fun g => !(s.tupleVars g.results).isEmpty
  if hasResults && !blockIsTerminating body then
    report .missingReturn ⟨body.span.stop - 1, body.span.stop⟩

def checkUsage (scope : ScopeId) : Pass Unit := do
  let c ← current
  if c.config.reportUnused then
    (c.store.unusedVars scope).forM fun o => do
      let ob := c.store.object o
      report (.unusedVariable ob.name) ob.span

/-- Checks the body of a function with parameters in a scope; `run` checks the literals inside. -/
def functionBody (run : Deferred → Pass Unit) (title : String) (d : Deferred) : Pass Unit := do
  traceLine fun s => "--- " ++ title ++ ": " ++ s.typeText d.sig
  within { scope := some d.scope, sig := some d.sig } do
    checkStmts run d.body.stmts
    checkReturn d.sig d.body
    checkUsage d.scope

/-- Checks the body of a function literal with literals nested less than `n` deep inside it. -/
def literalBody : Nat → Deferred → Pass Unit
  | 0, _ => pure ()
  | n + 1, d => do
    note (.enterBody d)
    functionBody (literalBody n) "<function literal>" d
    note (.leaveBody d)

/-- Checks the body of a function literal, however deep literals are nested inside it. -/
def checkLiteral (d : Deferred) : Pass Unit := literalBody (blockDepth d.body + 1) d

/-! ## Programs -/

def declareInPackage (o : ObjectId) : Pass Unit := do
  declare (← current).packageScope none o 0

def declareNew (new : Option PackageId → Pass ObjectId) : Pass ObjectId := do
  let o ← new (some (← current).package)
  declareInPackage o
  return o

/-- Checks a body whose parameters are in a scope, and all that it puts off. -/
def bodyIn (sig : TypeId) (scope : ScopeId) (body : Block) : Pass Unit := do
  functionBody checkLiteral "<function>" { sig, scope, body }
  runDeferred checkLiteral 0

/-- Checks a body against a signature, whose names are declared in a new scope of the package. -/
def bodyOf (sig : TypeId) (body : Block) : Pass Unit := do
  let c ← current
  let scope ← newScope (some c.packageScope) body.span "function" true
  let s ← entities
  match (s.type sig).signature? with
  | none => report (.notASignature (s.typeText sig)) body.span
  | some g =>
    (s.tupleVars g.params ++ s.tupleVars g.results).forM fun v => do
      unless (s.object v).name.isEmpty do declare scope none v body.span.start
    bodyIn sig scope body

/-- Checks a function as written, in the scope of the package, and gives its signature. -/
def function (sig : FuncSig) (body : Block) : Pass TypeId := do
  let c ← current
  let (t, scope) ← within { c.context with scope := some c.packageScope } (resolveSig sig)
  bodyIn t scope body
  return t

def block (block : Block) : Pass Unit := do
  let top ← deferredCount
  enterBlock checkLiteral block
  runDeferred checkLiteral top

end Pass

namespace Check

open Pass

/-- Declares a variable of the package, which counts as used. -/
def declareVar (name : String) (type : TypeId) : Check ObjectId :=
  (declareNew fun package => newParam Span.dummy package name (some type)).run

def declareConst (name : String) (type : TypeId) (v : Constant) : Check ObjectId :=
  (declareNew fun package => newConst Span.dummy package name (some type) v).run

def declareType (o : ObjectId) : Check Unit := (declareInPackage o).run

def declareFunc (name : String) (sig : TypeId) : Check ObjectId :=
  (declareNew fun package => newFunc Span.dummy package name (some sig)).run

def checkFunc (sig : FuncSig) (body : Block) : Check TypeId := (function sig body).run

def checkFuncBody (sig : TypeId) (body : Block) : Check Unit := (bodyOf sig body).run

def checkBlock (body : Block) : Check Unit := (block body).run

end Check

end GoCheck
