import GoCheck.Type.Printer

/-!
# Operands

What an expression evaluates to: how the result may be used, its type, and the expression it came
from.
-/

namespace GoCheck

/-- How an operand may be used. -/
inductive Mode where
  /-- The result of an expression with an error. -/
  | invalid
  /-- The result of a call without results. -/
  | noValue
  | typeExpr
  | constant (value : Constant)
  /-- A variable, whose address can be taken. -/
  | variable
  /-- An element of a map, which can be assigned to but has no address. -/
  | mapIndex
  | value
  | nilValue
  /-- A value that may come with a boolean. -/
  | commaOk
  /-- A value that may come with an error. -/
  | commaErr
  deriving DecidableEq

namespace Mode

def constant? : Mode → Option Constant
  | constant v => some v
  | _ => none

def isConstant (m : Mode) : Bool := m.constant?.isSome

def isValue : Mode → Bool
  | invalid | noValue | typeExpr => false
  | _ => true

def text : Mode → String
  | invalid => "invalid operand"
  | noValue => "no value"
  | typeExpr => "type"
  | constant _ => "constant"
  | .variable => "variable"
  | mapIndex => "map index expression"
  | value => "value"
  | nilValue => "nil"
  | commaOk => "comma, ok expression"
  | commaErr => "comma, error expression"

end Mode

structure Operand where
  mode : Mode := .invalid
  expr : Option Expr := none
  type : Option TypeId := none

namespace Operand

variable (x : Operand)

/-- Whether an error has been reported for the operand. -/
def isInvalid : Bool := x.mode = .invalid

def invalidated : Operand := { x with mode := .invalid }

def withMode (m : Mode) : Operand := { x with mode := m }

def span : Span := x.expr.elim Span.dummy Expr.span

/-- The type of an operand; one that is missing counts as invalid. -/
def typeOrInvalid : TypeId := x.type.getD .invalid

def isNil (s : Store) (x : Operand) : Bool :=
  x.mode = .nilValue && x.type.any fun t => (s.type t).basic? = some .untypedNil

/-- The text of the expression an operand came from, or of a value that came from none. -/
def exprText : String :=
  match x.expr, x.mode with
  | some e, _ => e.text
  | none, .constant v => v.text
  | none, _ => ""

/-- The untyped nil, or a nil that has taken on a type. -/
def describeNil (s : Store) (type : Option TypeId) : String :=
  match type with
  | none => "nil (with invalid type)"
  | some t =>
    if t = .invalid then "nil (with invalid type)"
    else if s.isUntyped t then "nil"
    else "nil (of type " ++ s.typeText t ++ ")"

/-- The word for what lies beneath a defined type, before the name of the type. -/
def formBefore (s : Store) (t : TypeId) : String :=
  match s.type t with
  | .named _ =>
    match s.formWord t, (s.shape t).basic? with
    | "", some k => k.name ++ " "
    | "", none => ""
    | word, _ => word ++ " "
  | _ => ""

def describeType (s : Store) (t : TypeId) : String :=
  if t = .invalid then " with invalid type"
  else
    " of " ++ formBefore s t ++ "type " ++ s.typeText t ++
      match (s.type t).typeParam? with
      | some p => " constrained by " ++ s.typeText p.bound
      | none => ""

/-- The type of an operand, if its mode goes with one. -/
def shownType? : Option TypeId :=
  match x.mode with
  | .invalid | .noValue | .typeExpr => none
  | _ => x.type

/-- The kind of an untyped operand, its mode, the value unless it is spelled out, and the type. -/
def describeParts (s : Store) (x : Operand) (expr : String) : String :=
  let value := match x.mode with
    | .constant v => if v.text = expr then "" else " " ++ v.text
    | _ => ""
  match x.shownType? with
  | none => x.mode.text ++ value
  | some t =>
    match s.type t with
    | .basic k =>
      if k.isUntyped then k.name ++ " " ++ x.mode.text ++ value
      else x.mode.text ++ value ++ describeType s t
    | _ => x.mode.text ++ value ++ describeType s t

/-- An operand in the words of a message, after the text of its expression. -/
def describe (s : Store) (x : Operand) : String :=
  if x.mode = .nilValue then describeNil s x.type
  else
    let expr := match x.expr, x.mode with
      | none, .typeExpr => s.typeTextOf x.type
      | _, _ => x.exprText
    let parts := x.describeParts s expr
    if expr.isEmpty then parts else expr ++ " (" ++ parts ++ ")"

end Operand

end GoCheck
