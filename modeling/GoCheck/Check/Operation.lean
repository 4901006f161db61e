import GoCheck.Check.Assignment

/-!
# Types as written and forms of expressions

A name that denotes no type is reported and gives the invalid type. Each form of expression has a
function that takes the evaluations of its parts and decides in which order they happen. An operand
of mode invalid stands for a reported error.
-/

namespace GoCheck

open Pass

def Ident.resolveType (i : Ident) : Pass TypeId := do
  if i.text = "_" then
    report .blankType i.span
    return .invalid
  match ← lookup i.text with
  | none =>
    report (.undefined i.text) i.span
    return .invalid
  | some o =>
    recordUse i.span o
    let ob := (← entities).object o
    if ob.isTypeName then return ob.type.getD .invalid
    report (.notAType ob.name) i.span
    return .invalid

/-- Makes a parameter or result of a resolved type, and declares its name for the signature. -/
def declareParam (scope : ScopeId) (visibleFrom : Nat) (name : Option Ident) (span : Span)
    (type : TypeId) : Pass ObjectId := do
  let package := (← current).package
  match name with
  | some i =>
    let o ← newParam i.span (some package) i.text (some type)
    declare scope (some i) o visibleFrom
    return o
  | none => newParam span (some package) "" (some type)

mutual

def TypeExpr.resolve : TypeExpr → Pass TypeId
  | .name _ i => i.resolveType
  | .pointer _ elem => do newPointer (← elem.resolve)
  | .slice _ elem => do newSlice (← elem.resolve)
  | .map _ key value => do
    let key ← key.resolve
    newMap key (← value.resolve)
  | .chan _ dir elem => do newChan dir (← elem.resolve)
  | .func _ sig => do return (← resolveSig sig).1

/-- A signature and a new scope of its named parameters and results, visible from its end on. -/
def resolveSig : FuncSigOf TypeExpr → Pass (TypeId × ScopeId)
  | ⟨params, results, variadic, span⟩ => do
    let scope ← newScope (← current).context.scope span "function" true
    recordScope span scope
    let params ← resolveParams scope span.stop variadic params
    let results ← resolveParams scope span.stop false results
    let params ← newTuple params
    let results ← newTuple results
    return (← newSignature { params, results, variadic }, scope)

/-- The parameters of a list. The last of a variadic list is a slice. -/
def resolveParams (scope : ScopeId) (visibleFrom : Nat) (variadic : Bool) :
    List (ParamOf TypeExpr) → Pass (List ObjectId)
  | [] => pure []
  | p :: ps => do
    let o ← resolveParam scope visibleFrom (variadic && ps.isEmpty) p
    return o :: (← resolveParams scope visibleFrom variadic ps)

/-- A parameter, whose type is a slice if it collects the remaining arguments. -/
def resolveParam (scope : ScopeId) (visibleFrom : Nat) (collects : Bool) :
    ParamOf TypeExpr → Pass ObjectId
  | ⟨name, type, span⟩ => do
    let t ← type.resolve
    let t ← if collects then newSlice t else pure t
    declareParam scope visibleFrom name span t

end

end GoCheck

/-! ## Forms of expressions -/

namespace GoCheck

/-- How an expression may stand as a statement: calls, receives and erroneous expressions may. -/
inductive ExprClass where
  | conversion
  | expression
  | statement
  deriving DecidableEq, Repr

abbrev Evaluated := Operand × ExprClass

structure Pending where
  expr : Expr
  eval : Pass Evaluated

def Object.mode (o : Object) : Mode :=
  match o.entity with
  | .const v => .constant v
  | .typeName => .typeExpr
  | .var .. => .variable
  | .func _ => .value
  | .nil => .nilValue

namespace Pass

def failed : Operand := { type := some .invalid }

/-- Records the mode and type of an operand for its expression, or that it failed. -/
def record (id : Nat) (x : Operand) : Pass Unit :=
  let enter (t : TypeId) := onRecords (·.insert id ⟨x.mode, t⟩)
  match x.mode, x.type with
  | .invalid, _ => recordFailed id
  | .noValue, _ => enter .noValue
  | _, some t => enter t
  | _, none => pure ()

def conclude (e : Expr) (outcome : Evaluated) : Pass Evaluated := do
  let x := { outcome.1 with expr := some e }
  record e.id x
  unindentTrace
  traceLine fun s => "=> " ++ x.describe s
  return (x, outcome.2)

/-- Evaluates an expression, with a trace around it and a record after it. -/
def observe (e : Expr) (eval : Pass Evaluated) : Pass Evaluated := do
  traceLine fun _ => "expr[ " ++ e.text ++ " ]"
  indentTrace
  conclude e (← eval)

/-- An operand as the outcome of an expression that is no statement unless it failed. -/
def asExpression (m : Pass Operand) : Pass Evaluated := do
  let x ← m
  return (x, if x.isInvalid then .statement else .expression)

def asStatement (m : Pass Operand) : Pass Evaluated := return (← m, .statement)

/-- Rejects operands without a value, and types unless they are allowed. -/
def exclude (x : Operand) (allowType : Bool) : Pass Operand := do
  let s ← entities
  let problem : Option Problem := match x.mode, allowType with
    | .noValue, true => some (.valueOrTypeOfNoValue (x.describe s))
    | .noValue, false => some (.valueOfNoValue (x.describe s))
    | .typeExpr, false => some (.notAnExpression (x.describe s))
    | _, _ => none
  match problem with
  | some p =>
    report p x.span
    return x.invalidated
  | none => return x

def value (eval : Pass Evaluated) : Pass Operand := do
  singleValue (← exclude (← eval).1 false)

def valueOrType (eval : Pass Evaluated) : Pass Operand := do
  singleValue (← exclude (← eval).1 true)

def secondType? (x : Operand) : Option TypeId :=
  match x.mode with
  | .mapIndex | .commaOk => some (.basic .untypedBool)
  | .commaErr => some .error
  | _ => none

/-- Evaluates an expression for all its values, with `pair` also a second one that comes with the
first. -/
def allValues (p : Pending) (pair : Bool) : Pass (List Operand × Bool) := do
  let x ← exclude (← p.eval).1 false
  let s ← entities
  let valueOf (t : Option TypeId) : Operand := { mode := .value, expr := some p.expr, type := t }
  let vars? := if x.isInvalid then none else x.type.bind fun t => (s.type t).tuple?
  match vars?, if pair then secondType? x else none with
  | some vars, _ => return (vars.map fun v => valueOf (s.object v).type, false)
  | none, some t => return ([x, valueOf (some t)], true)
  | none, none => return ([x], false)

/-- Evaluates expressions. A single one may have several values; in a longer list each has one. -/
def values (ps : List Pending) (pair : Bool) : Pass (List Operand × Bool) :=
  match ps with
  | [p] => allValues p pair
  | ps => do return (← ps.mapM fun p => value p.eval, false)

/-- The blank name that an expression is, in any number of parentheses. -/
def blank? (e : Expr) : Option Ident := e.unparen.ident?.filter (·.text = "_")

def isBlank (e : Expr) : Bool := (blank? e).isSome

/-- Evaluates expressions after an error, for the sake of what they use. -/
def useAll (ps : List Pending) : Pass Unit :=
  ps.forM fun p => if isBlank p.expr then pure () else discard p.eval

/-- Counts an object as used if it is a variable of the package. -/
def noteUse (o : ObjectId) : Pass Unit := do
  if ← isLocalVar o then markUsed o

def name (i : Ident) : Pass Operand := do
  if i.text = "_" then
    report .blankValue i.span
    return failed
  match ← lookup i.text with
  | none =>
    report (.undefined i.text) i.span
    return failed
  | some o =>
    recordUse i.span o
    let ob := (← entities).object o
    noteUse o
    if ob.type.getD .invalid = .invalid then return failed
    return { mode := ob.mode, type := ob.type }

def literalValue (kind : LitKind) (raw : String) : Constant × BasicKind :=
  match kind with
  | .int => (Literal.int raw, .untypedInt)
  | .float => (Literal.float raw, .untypedFloat)
  | .imaginary => (Literal.imaginary raw, .untypedComplex)
  | .rune => (Literal.rune raw, .untypedRune)
  | .string => (Literal.string raw, .untypedString)

def literal (kind : LitKind) (raw : Option String) (span : Span) : Pass Operand := do
  let raw := raw.getD ""
  note (.literal kind raw)
  let (v, k) := literalValue kind raw
  if v.isUnknown then
    report (.malformedConstant raw) span
    return failed
  return { mode := .constant v, type := some (.basic k) }

def functionLiteral (sig : FuncSig) (body : Block) : Pass Operand := do
  let (t, scope) ← resolveSig sig
  defer { sig := t, scope, body }
  return { mode := .value, type := some t }

def reportSelection (x : Operand) (t : TypeId) (sel : Ident) (r : Selection) : Pass Unit := do
  let s ← entities
  unless s.isInvalid t do
    let problem : Problem := match r with
      | .ambiguous _ => .ambiguousSelector x.exprText sel.text
      | .badReceiver => .pointerMethod sel.text (s.typeText t)
      | _ =>
        if s.isInterfacePointer t then
          .selectorOnInterfacePointer x.exprText (s.typeText t) sel.text
        else .noFieldOrMethod x.exprText (s.typeText t) sel.text
    report problem sel.span

/-- A selector. A field of a variable, or behind a pointer, is a variable. -/
def select (base : Pass Evaluated) (sel : Ident) : Pass Operand := do
  let x ← value base
  match x.isInvalid, x.type with
  | true, _ | _, none => return x.invalidated
  | false, some t =>
    let s ← entities
    match s.select t (x.mode = .variable) sel.text with
    | .entry o _ indirect =>
      recordUse sel.span o
      let ob := s.object o
      let mode : Mode :=
        if ob.isVar && (x.mode = .variable || indirect) then .variable else .value
      return { x with mode, type := ob.type }
    | r =>
      reportSelection x t sel r
      return x.invalidated

inductive Indexing where
  /-- Elements with the given mode and type, up to a length if it is known. -/
  | list (mode : Mode) (elem : TypeId) (length : Option Nat)
  | map (key elem : TypeId)
  | none

/-- What an operand can be indexed for: bytes are values, elements of a variable array variables. -/
def indexing (s : Store) (x : Operand) : Indexing :=
  match s.shape x.typeOrInvalid with
  | .basic k =>
    if k.family = .string then
      .list .value (.basic .byte) (match x.mode with
        | .constant (.string text) => some text.utf8ByteSize
        | _ => none)
    else .none
  | .array n elem => .list (if x.mode = .variable then .variable else .value) elem (some n)
  | .pointer base =>
    match s.shape base with
    | .array n elem => .list .variable elem (some n)
    | _ => .none
  | .slice elem => .list .variable elem none
  | .map key elem => .map key elem
  | _ => .none

def indexProblem? (s : Store) (x : Operand) (length : Option Nat) : Option Problem :=
  if !x.type.any s.isInteger then some (.indexNotInteger (x.describe s))
  else match x.mode with
    | .constant v =>
      if v.sign < 0 then some (.indexNegative (x.describe s))
      else if !v.fits .int .integer then some (.indexOverflow (x.describe s))
      else if v.isUnknown then none
      else
        let i := ((v.int64?).getD 0).toInt
        length.bind fun n =>
          if 0 ≤ i && n ≤ i.toNat then some (.indexOutOfBounds v.text n) else none
    | _ => none

def checkIndex (index : Pass Evaluated) (length : Option Nat) : Pass Unit := do
  let x ← convertUntyped (← value index) (.basic .int)
  unless x.isInvalid do
    (indexProblem? (← entities) x length).forM fun p => report p x.span

/-- An index expression. The element type is known even if the index is wrong. -/
def indexInto (base : Pass Evaluated) (index : Pending) : Pass Operand := do
  let x ← value base
  if x.isInvalid then
    useAll [index]
    return x
  let s ← entities
  match indexing s x with
  | .list mode elem length =>
    checkIndex index.eval length
    return { x with mode, type := some elem }
  | .map key elem =>
    discard <| assignment (← value index.eval) (some key) "map index"
    return { x with mode := .mapIndex, type := some elem }
  | .none =>
    report (.cannotIndex (x.describe s)) x.span
    useAll [index]
    return x.invalidated

def assertType (e : Expr) (base : Pass Evaluated) (type : TypeExpr) : Pass Operand := do
  let x ← value base
  match x.isInvalid, x.type with
  | true, _ | _, none => return x.invalidated
  | false, some old =>
    let s ← entities
    if s.isTypeParam old then
      report (.assertOnTypeParam (x.describe s)) x.span
      return x.invalidated
    if !s.isInterface old then
      report (.assertOnNonInterface (x.describe s)) x.span
      return x.invalidated
    let t ← type.resolve
    let s ← entities
    if s.isInvalid t then return x.invalidated
    match s.impossibleAssertion? old t with
    | some lacking =>
      logEvent (.impossibleAssertion (s.typeText t))
      report (.impossibleAssertion e.text (s.typeText t) (s.typeText old)
        (s.lackingText t lacking)) e.span
      return x.invalidated
    | none => return { x with mode := .commaOk, type := some t }

def receive (channel : Pass Evaluated) : Pass Operand := do
  let x ← value channel
  if x.isInvalid then return x
  let s ← entities
  match s.shape x.typeOrInvalid with
  | .chan .send _ =>
    report (.receiveFromSendOnly (x.describe s)) x.span
    return x.invalidated
  | .chan _ elem => return { x with mode := .commaOk, type := some elem }
  | _ =>
    report (.receiveFromNonChannel (x.describe s)) x.span
    return x.invalidated

def pointee (x : Operand) : Pass Operand := do
  let s ← entities
  match s.shape x.typeOrInvalid with
  | .pointer base => return { x with mode := .variable, type := some base }
  | _ =>
    report (.cannotIndirect (x.describe s)) x.span
    return x.invalidated

/-- The value behind a pointer, or the type of pointers to a type. -/
def indirection (operand : Pass Evaluated) : Pass Operand := do
  let x ← valueOrType operand
  match x.mode with
  | .invalid => return x
  | .typeExpr => return { x with type := some (← newPointer x.typeOrInvalid) }
  | _ => pointee x

def addressOf (x : Operand) (t : TypeId) : Pass Operand := do
  if x.mode = .variable then
    return { x with mode := .value, type := some (← newPointer t) }
  report (.cannotTakeAddress (← describe x)) x.span
  return x.invalidated

/-- The types an arithmetic or logical operator is defined on. -/
def definedOn (s : Store) (op : UnaryOp) (t : TypeId) : Bool :=
  match op with
  | .not => s.isBoolean t
  | _ => s.isNumeric t

/-- A sign or negation. That of a typed constant must fit its type. -/
def arithmetic (e : Expr) (op : UnaryOp) (x : Operand) (t : TypeId) : Pass Operand := do
  let s ← entities
  if !definedOn s op t then
    report (.undefinedOperator op.text (x.describe s)) x.span
    return x.invalidated
  match x.mode with
  | .constant v =>
    if v.isUnknown then return x
    let x : Operand := { x with mode := .constant (v.foldUnary op), expr := some e }
    if s.isUntyped t then return x else represent x (s.underlying t)
  | _ => return x.withMode .value

def unary (e : Expr) (op : UnaryOp) (operand : Pass Evaluated) : Pass Operand := do
  if op = .indirect then indirection operand
  else
    let x ← value operand
    match x.isInvalid, x.type with
    | true, _ | _, none => return x.invalidated
    | false, some t => if op = .address then addressOf x t else arithmetic e op x t

end Pass

end GoCheck
