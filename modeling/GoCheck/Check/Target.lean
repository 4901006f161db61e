import GoCheck.Check.Expr

/-!
# Targets

Initialization of variables and constants, and assignment to expressions, one by one and in lists.
-/

namespace GoCheck

namespace Pass

/-- Whether an operand has no value or no valid type. -/
def isFaulty (x : Operand) : Bool := x.isInvalid || x.type = some .invalid

/-- Initializes a constant. Without a declared type it takes that of the value, typed or not. -/
def initConst (o : ObjectId) (x : Operand) : Pass Unit := do
  let s ← entities
  let declared := (s.object o).type
  if isFaulty x || declared = some .invalid then
    invalidateMissing o
  else if !x.mode.isConstant then
    report (.notConstant (x.describe s)) x.span
    invalidateMissing o
  else
    x.type.forM (giveType o)
    let x ← assignment x (some (declared.getD x.typeOrInvalid)) "constant declaration"
    x.mode.constant?.forM fun v => setValue o v

/-- Initializes a variable with a value of its type. After a failure the variable counts as used. -/
def initTyped (o : ObjectId) (t : TypeId) (x : Operand) (context : String) :
    Pass (Option TypeId) := do
  let x ← assignment x (some t) context
  if x.isInvalid then
    markUsed o
    return none
  return x.type

/-- Initializes a variable and gives the type of the value, which it takes if none is declared. -/
def initVar (o : ObjectId) (x : Operand) (context : String) : Pass (Option TypeId) := do
  let s ← entities
  let declared := (s.object o).type
  if isFaulty x || declared = some .invalid then
    invalidateMissing o
    markUsed o
    return none
  match declared with
  | some t => initTyped o t x context
  | none =>
    let t := x.typeOrInvalid
    if t = .basic .untypedNil then
      report (.untypedNil context) x.span
      invalidateMissing o
      return none
    let t := s.defaultType t
    giveType o t
    initTyped o t x context

/-- Evaluates a target without counting a variable that it names as used. -/
def evalTarget (lhs : Expr) : Pass Operand := do
  let named? ← match lhs.unparen.ident? with
    | some i => localVar? i
    | none => pure none
  let s ← entities
  let x ← lhs.evalValue
  named?.forM fun o => setUsed o (s.object o).isUsed
  return x

/-- Reports a target that is no storage. The base of a selector is evaluated once more for it. -/
def reportTarget (lhs : Expr) (x : Operand) : Pass Unit := do
  let inMap : Bool ← match lhs with
    | .selector _ base _ => do pure ((← base.evalValue).mode = .mapIndex)
    | _ => pure false
  if inMap then report (.fieldOfMapElement lhs.text) x.span
  else report (.cannotAssignTo (← describe x)) x.span

/-- The type of a target that is no blank: the invalid type for a target with an error. -/
def storageType (lhs : Expr) : Pass (Option TypeId) := do
  let x ← evalTarget lhs
  if isFaulty x then return some .invalid
  match x.mode with
  | .variable | .mapIndex => return x.type
  | _ =>
    reportTarget lhs x
    return some .invalid

/-- The type of a target, `none` for a blank. Naming a variable as a target is no use of it. -/
def targetType (lhs : Expr) : Pass (Option TypeId) := do
  match blank? lhs with
  | some i =>
    recordDef i.span none
    return none
  | none => storageType lhs

def assignVar (lhs : Expr) (x : Operand) : Pass (Option TypeId) := do
  if isFaulty x then
    useAll (pending [lhs])
    return none
  let t ← targetType lhs
  if t = some .invalid then return none
  let x ← assignment x t (if t.isNone then "assignment to _ identifier" else "assignment")
  return if x.isInvalid then none else x.type

def reportCounts (span : Span) (rhs : List Expr) (targets values : Nat) : Pass Unit :=
  match rhs with
  | [] => report .missingRightSide span
  | e :: rest =>
    let call := match e.unparen, rest with
      | .call _ func _ _, [] => some func.text
      | _, _ => none
    report (.assignmentCount targets values call) e.span

/-- The report of a wrong number of returned values: at the first too many, else the last, else the
return. -/
def returnCountReport (s : Store) (span : Span) (lhs : List ObjectId) (rhs : List Operand) :
    Diagnostic :=
  let place := match rhs[lhs.length]?, rhs.getLast? with
    | some extra, _ => extra.span
    | none, some last => last.span
    | none, none => span
  ((Problem.returnCount (lhs.length < rhs.length)).report place)
    |>.withNote ("have " ++ s.summary (rhs.map (·.type)) false)
    |>.withNote ("want " ++ s.summary (lhs.map fun v => (s.object v).type) false)

/-- Records the type of a pair for the expression that gave it, if both parts have types. -/
def recordPair (rhs : List Expr) (value ok : Option TypeId) : Pass Unit := do
  if let (e :: _, some a, some b) := (rhs, value, ok) then
    let t ← tupleOf [a, b]
    onRecords (Records.setPair t e)

def initEach (context : String) : List ObjectId → List Operand → Pass Bool
  | v :: vs, x :: xs => do
    let first ← initVar v x context
    let rest ← initEach context vs xs
    return first.isSome && rest
  | _, _ => pure true

/-- Reports variables and values that differ in number. All variables are used and typed
afterwards. -/
def refuseInit (lhs : List ObjectId) (rhs : List Expr) (xs : List Operand)
    (returning : Option Span) : Pass Unit := do
  lhs.forM fun v => do
    markUsed v
    invalidateMissing v
  unless xs.any (·.isInvalid) do
    let s ← entities
    match returning with
    | some span => emit (returnCountReport s span lhs xs)
    | none =>
      let span := lhs.head?.elim Span.dummy fun v => (s.object v).span
      reportCounts span rhs lhs.length xs.length

/-- Initializes variables with the values of expressions. For a return, `returning` is its place. -/
def initVars (lhs : List ObjectId) (rhs : List Expr) (returning : Option Span) : Pass Unit := do
  let (xs, pair) ← values (pending rhs) (lhs.length = 2 && returning.isNone)
  let context := if returning.isSome then "return statement" else "assignment"
  if lhs.length ≠ xs.length then refuseInit lhs rhs xs returning
  else match pair, lhs, xs with
    | true, [v, w], [x, y] =>
      let a ← initVar v x context
      let b ← initVar w y context
      logEvent (.pairInitialized a b)
      recordPair rhs a b
    | _, _, _ => unless ← initEach context lhs xs do lhs.forM markUsed

def assignTargets : List Expr → List Operand → Pass Bool
  | l :: ls, x :: xs => do
    let first ← assignVar l x
    let rest ← assignTargets ls xs
    return first.isSome && rest
  | _, _ => pure true

def markTargets (lhs : List Expr) : Pass Unit :=
  lhs.forM fun e => do
    if let some i := e.unparen.ident? then
      (← localVar? i).forM markUsed

def targetsSpan (lhs : List Expr) : Span :=
  match lhs.head?, lhs.getLast? with
  | some first, some last => first.span.upTo last.span
  | _, _ => Span.dummy

def assignVars (lhs rhs : List Expr) : Pass Unit := do
  let (xs, pair) ← values (pending rhs) (lhs.length = 2)
  if lhs.length ≠ xs.length then
    useAll (pending lhs)
    unless xs.any (·.isInvalid) do
      reportCounts (targetsSpan lhs) rhs lhs.length xs.length
  else match pair, lhs, xs with
    | true, [l, m], [x, y] =>
      let a ← assignVar l x
      let b ← assignVar m y
      logEvent (.pairAssigned a b)
      recordPair rhs a b
    | _, _, _ => unless ← assignTargets lhs xs do markTargets lhs

end Pass

end GoCheck
