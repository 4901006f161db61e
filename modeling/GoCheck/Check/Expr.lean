import GoCheck.Check.Operation

/-!
# Calls and expressions

A call of a function, or a conversion if the function operand is a type; and the evaluation of
expressions to operands, by recursion on the expression. Every evaluation is recorded.
-/

namespace GoCheck

open Pass

/-- How the arguments of a call meet the parameters of a signature. -/
inductive ArgumentPlan where
  /-- One type per argument. -/
  | each (targets : List TypeId)
  /-- As many arguments were expected. -/
  | wrongCount (expected : Nat)
  | spreadOfMany
  | spreadToNonVariadic
  deriving DecidableEq, Repr

/-- The types that `n` arguments are assigned to, unless their number is wrong. -/
def matchCount (targets : List TypeId) (n : Nat) : ArgumentPlan :=
  if n = targets.length then .each targets else .wrongCount targets.length

/-- The plan for `nargs` arguments from `nexprs` expressions. Without a spread, a variadic parameter
takes all from its place on as elements. -/
def planArguments (s : Store) (params : List TypeId) (variadic spread : Bool) (nexprs nargs : Nat) :
    ArgumentPlan :=
  match variadic, spread with
  | true, true => if nexprs = 1 && 1 < nargs then .spreadOfMany else matchCount params nargs
  | true, false =>
    let fixed := params.dropLast
    if nargs < fixed.length then .wrongCount fixed.length
    else
      let elem := ((params.getLast?.bind fun t => (s.type t).sliceElem?)).getD .invalid
      .each (fixed ++ List.replicate (nargs - fixed.length) elem)
  | false, true => .spreadToNonVariadic
  | false, false => matchCount params nargs

namespace Pass

def paramTypes (s : Store) (sig : Signature) : List TypeId :=
  (s.tupleVars sig.params).map fun v => (s.object v).type.getD .invalid

/-- The report of a wrong number of arguments: at the first too many, else the last, else the
call. -/
def argumentCountReport (s : Store) (e func : Expr) (params : List TypeId) (variadic : Bool)
    (args : List Operand) (expected : Nat) : Diagnostic :=
  let place := match args[expected]?, args.getLast? with
    | some extra, _ => extra.span
    | none, some last => last.span
    | none, none => e.span
  ((Problem.argumentCount (expected < args.length) func.text).report place)
    |>.withNote ("have " ++ s.summary (args.map (·.type)) false)
    |>.withNote ("want " ++ s.summary (params.map some) variadic)

def assignEach (context : String) : List Operand → List TypeId → Pass Unit
  | x :: xs, t :: ts => do
    discard <| assignment x (some t) context
    assignEach context xs ts
  | _, _ => pure ()

def arguments (e func : Expr) (exprs : List Pending) (spread : Bool) (sig : Signature)
    (args : List Operand) : Pass Unit := do
  let s ← entities
  let params := paramTypes s sig
  match planArguments s params sig.variadic spread exprs.length args.length with
  | .each targets => assignEach ("argument to " ++ func.text) args targets
  | .wrongCount expected => emit (argumentCountReport s e func params sig.variadic args expected)
  | .spreadOfMany =>
    report (.spreadOfMany args.length ((exprs.head?.map (·.expr.text)).getD "")) e.span
  | .spreadToNonVariadic => report (.spreadToNonVariadic func.text) e.span

def callResult (s : Store) (x : Operand) (results : TypeId) : Operand :=
  match s.tupleVars results with
  | [] => { x with mode := .noValue, type := some .noValue }
  | [v] => { x with mode := .value, type := (s.object v).type }
  | _ => { x with mode := .value, type := some results }

/-- A conversion `T(x)`, where `x` is the operand that denotes `T`. -/
def conversionCall (e : Expr) (x : Operand) (args : List Pending) (spread : Bool) :
    Pass Operand := do
  let t := x.typeOrInvalid
  match args with
  | [] =>
    report (.conversionWithoutArgument (← typeText t)) e.span
    return x.invalidated
  | [arg] =>
    let y ← value arg.eval
    if y.isInvalid then return y
    if spread then
      report (.conversionOfSpread (← typeText t)) arg.expr.span
      return y.invalidated
    conversion y t
  | _ :: _ :: _ =>
    useAll args
    report (.conversionOfMany (← typeText t)) ((args.getLast?.map (·.expr.span)).getD e.span)
    return x.invalidated

/-- A call of something that cannot be called; the arguments are still evaluated. -/
def refuseCall (p : Problem) (span : Span) (x : Operand) (args : List Pending) : Pass Operand := do
  report p span
  useAll args
  return x.invalidated

def callFunction (e : Expr) (func : Expr) (x : Operand) (args : List Pending) (spread : Bool) :
    Pass Operand := do
  let s ← entities
  match (s.shape x.typeOrInvalid).signature? with
  | none => refuseCall (.callOfNonFunction (x.describe s)) x.span x args
  | some sig =>
    if !sig.typeParams.isEmpty then refuseCall (.genericCall func.text) func.span x args
    else
      let (xs, _) ← values args false
      arguments e func args spread sig xs
      return callResult (← entities) x sig.results

def call (e : Expr) (func : Pending) (args : List Pending) (spread : Bool) : Pass Evaluated := do
  let x ← valueOrType func.eval
  match x.mode with
  | .invalid =>
    useAll args
    return (x, .statement)
  | .typeExpr => return (← conversionCall e x args spread, .conversion)
  | _ => return (← callFunction e func.expr x args spread, .statement)

end Pass

/-! ## Expressions -/

mutual

/-- Evaluates an expression. Parentheses have the class of what they enclose. -/
def Expr.eval : Expr → Pass Evaluated
  | .ident n i => observe (.ident n i) (asExpression (name i))
  | .lit n kind raw => observe (.lit n kind raw) (asExpression (literal kind raw n.span))
  | .funcLit n sig body => observe (.funcLit n sig body) (asExpression (functionLiteral sig body))
  | .paren n inner => observe (.paren n inner) inner.eval
  | .selector n base sel => observe (.selector n base sel) (asExpression (select base.eval sel))
  | .index n base index =>
    observe (.index n base index) (asExpression (indexInto base.eval ⟨index, index.eval⟩))
  | .call n func args spread =>
    let e := Expr.call n func args spread
    observe e (Pass.call e ⟨func, func.eval⟩ (pending args) spread)
  | .assert n base type =>
    let e := Expr.assert n base type
    observe e (asExpression (assertType e base.eval type))
  | .unary n op operand =>
    let e := Expr.unary n op operand
    observe e (asExpression (Pass.unary e op operand.eval))
  | .receive n channel => observe (.receive n channel) (asStatement (Pass.receive channel.eval))

def pending : List Expr → List Pending
  | [] => []
  | e :: es => ⟨e, e.eval⟩ :: pending es

end

def Expr.evalValue (e : Expr) : Pass Operand := value e.eval

end GoCheck
