import GoCheck.Check.Pass

/-!
# Values and their uses

What a place demands of a value: that it is one value, that it has a type, and that this type fits.
-/

namespace GoCheck

namespace Pass

def singleValue (x : Operand) : Pass Operand := do
  let s ← entities
  if x.mode = .value && x.type.any fun t => (s.type t).tuple?.isSome then
    report (.multipleValue (x.describe s)) x.span
    return x.invalidated
  return x

/-- What is recorded once the expression of an operand has the outcome of an implicit conversion. -/
def recordImplicit (untyped : TypeId → Bool) (x : Operand) (i : Implicit) (rs : Records) : Records :=
  match x.expr with
  | none => rs
  | some e =>
    let rs := i.value.elim rs fun v => rs.setValue untyped e.id v
    match i.type with
    | some t => if i.type ≠ x.type then rs.retype untyped t e else rs
    | none => rs

/-- Gives an operand and the record of its expression the outcome of an implicit conversion. -/
def applyImplicit (x : Operand) (i : Implicit) : Pass Operand := do
  let s ← entities
  onRecords (recordImplicit s.isUntyped x i)
  return { x with mode := i.value.elim x.mode .constant, type := i.type }

/-- Gives an untyped operand a type, or reports that it cannot have it. -/
def convertUntyped (x : Operand) (target : TypeId) : Pass Operand := do
  let s ← entities
  match s.implicit x target with
  | .ok i => applyImplicit x i
  | .error kind =>
    let shown := if s.isTypeParam target then target else s.underlying target
    report (.misfit kind (x.describe s) (s.typeText shown)) x.span
    return x.invalidated

/-- A constant as its basic type holds it, or a report that it does not fit. -/
def represent (x : Operand) (t : TypeId) : Pass Operand := do
  let s ← entities
  match s.represented x t with
  | .ok v => return x.withMode (.constant v)
  | .error kind =>
    report (.misfit kind (x.describe s) (s.typeText t)) x.span
    return x.invalidated

/-- The type that an untyped operand takes on in a place: its type, or the default type if it is an
interface or missing. -/
def untypedTarget (s : Store) (x : Operand) (old : TypeId) (t : Option TypeId) : TypeId :=
  match t with
  | some t => if x.isNil s || !s.isPlainInterface t then t else s.defaultType old
  | none => s.defaultType old

def assignUntyped (x : Operand) (old : TypeId) (t : Option TypeId) (context : String) :
    Pass Operand := do
  let s ← entities
  if t.isNone && x.isNil s then
    report (.untypedNil context) x.span
    return x.invalidated
  let target := untypedTarget s x old t
  match s.implicit x target with
  | .ok i =>
    logEvent (.untypedConversion (s.typeText old) (s.typeTextOf i.type))
    applyImplicit x i
  | .error kind =>
    report (.cannotUseUntyped kind (x.describe s) (s.typeText target) context) x.span
    return x.invalidated

/-- Reports a generic function that is used as a value; the value stays valid. -/
def reportGeneric (x : Operand) (context : String) : Pass Unit := do
  let s ← entities
  let generic := x.type.any fun t => (s.shape t).signature?.any fun sig => !sig.typeParams.isEmpty
  if generic then report (.genericValue (x.describe s) context) x.span

def assignTyped (x : Operand) (t : TypeId) (context : String) : Pass Operand := do
  match ← probe (·.assign x t) with
  | .ok _ => return x
  | .error r =>
    let s ← entities
    report (.cannotUse r.fault (x.describe s) (s.typeText t) context r.cause) x.span
    return x.invalidated

def assignConverted (x : Operand) (t : Option TypeId) (context : String) : Pass Operand := do
  if x.isInvalid then return x
  reportGeneric x context
  match t with
  | none => return x
  | some t => assignTyped x t context

/-- Checks a value against its place: gives it a type if it has none, then compares types. -/
def assignValue (x : Operand) (t : Option TypeId) (context : String) : Pass Operand := do
  let s ← entities
  match x.type.filter s.isUntyped with
  | some old => assignConverted (← assignUntyped x old t context) t context
  | none => assignConverted x t context

/-- Assigns an operand to a place, of which an untyped one takes the type. It is invalid after a
report. -/
def assignment (x : Operand) (t : Option TypeId) (context : String) : Pass Operand := do
  let x ← singleValue x
  match x.mode with
  | .invalid => return x
  | .noValue | .typeExpr =>
    let s ← entities
    report (.cannotAssign (x.describe s) (s.typeTextOf t) context) x.span
    return x
  | _ => assignValue x t context

def refuseConversion (x : Operand) (t : TypeId) (cause : Option String) : Pass Operand := do
  let s ← entities
  report (.cannotConvert (x.describe s) (s.typeText t) cause) x.span
  return x.invalidated

/-- The type that an untyped operand takes on by a conversion. A number turned into a string stays
untyped. -/
def convertedType (s : Store) (wasConstant : Bool) (x : Operand) (old t : TypeId) : TypeId :=
  if s.isPlainInterface t || (wasConstant && !s.isConstType t) then s.defaultType old
  else if x.mode.isConstant && s.isInteger old && s.isString t then old
  else t

/-- What is recorded once an operand has been converted: an untyped expression has a type. -/
def recordConverted (s : Store) (wasConstant : Bool) (x : Operand) (t : TypeId) (rs : Records) :
    Records :=
  match x.type, x.expr with
  | some old, some e =>
    if s.isUntyped old then rs.retype s.isUntyped (convertedType s wasConstant x old t) e else rs
  | _, _ => rs

def finishConversion (wasConstant : Bool) (x : Operand) (t : TypeId) : Pass Operand := do
  x.expr.forM fun e => recordConversion ⟨e, t, x.mode.isConstant⟩
  let s ← entities
  onRecords (recordConverted s wasConstant x t)
  return { x with type := some t }

def convertConstant (x : Operand) (v : Constant) (t : TypeId) : Pass Operand := do
  let s ← entities
  match s.convertConstant? x v t with
  | some w => finishConversion true (x.withMode (.constant w)) t
  | none =>
    if s.isInteger x.typeOrInvalid && s.isInteger t then
      report (.constantOverflow v.text (s.typeText t)) x.span
      return x.invalidated
    else refuseConversion x t none

/-- Converts a constant to a type parameter; the result is no constant. -/
def convertToTypeParam (x : Operand) (v : Constant) (t : TypeId) : Pass Operand := do
  let s ← entities
  let terms := s.terms t
  let y := x.withMode .value
  match terms.find? fun term => (s.convertConstant? x v term).isNone with
  | some term =>
    refuseConversion y t (some ("cannot convert " ++ x.describe s ++ " to type " ++
      s.typeText term ++ " (in " ++ s.typeText t ++ ")"))
  | none => if terms.isEmpty then refuseConversion y t none else finishConversion true y t

def conversion (x : Operand) (t : TypeId) : Pass Operand := do
  let s ← entities
  match x.mode.constant?, s.isConstType t, s.isTypeParam t with
  | some v, true, _ => convertConstant x v t
  | some v, false, true => convertToTypeParam x v t
  | v, _, _ =>
    match ← probe (·.convert x t) with
    | .ok _ => finishConversion v.isSome (x.withMode .value) t
    | .error cause => refuseConversion x t cause

end Pass

end GoCheck
