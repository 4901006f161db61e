import GoCheck.Check.Fault
import GoCheck.Type.Printer

/-!
# Problems

What a check finds wrong, each with its kind and its wording. Operands, types and expressions are
given in the words in which they appear.
-/

namespace GoCheck

/-- A problem: `x` describes an operand, `type` a type, `context` where a value was to be used. -/
inductive Problem where
  | undefined (name : String)
  | blankValue
  | blankType
  | notAType (name : String)
  | valueOfNoValue (x : String)
  | valueOrTypeOfNoValue (x : String)
  | notAnExpression (x : String)
  | notUsed (x : String)
  | multipleValue (x : String)
  | malformedConstant (raw : String)
  | ambiguousSelector (base name : String)
  | pointerMethod (name type : String)
  | noFieldOrMethod (base type name : String)
  | selectorOnInterfacePointer (base type name : String)
  | cannotIndex (x : String)
  | indexNotInteger (x : String)
  | indexNegative (x : String)
  | indexOverflow (x : String)
  | indexOutOfBounds (index : String) (length : Nat)
  | assertOnTypeParam (x : String)
  | assertOnNonInterface (x : String)
  | impossibleAssertion (expr type iface reason : String)
  | receiveFromNonChannel (x : String)
  | receiveFromSendOnly (x : String)
  | cannotTakeAddress (x : String)
  | undefinedOperator (op x : String)
  | cannotIndirect (x : String)
  /-- An untyped operand or a constant that a type cannot hold, with the kind of misfit. -/
  | misfit (kind : Fault) (x type : String)
  | constantOverflow (value type : String)
  | cannotConvert (x type : String) (cause : Option String)
  | callOfNonFunction (x : String)
  | genericCall (func : String)
  | conversionWithoutArgument (type : String)
  | conversionOfSpread (type : String)
  | conversionOfMany (type : String)
  | spreadOfMany (count : Nat) (expr : String)
  | spreadToNonVariadic (func : String)
  | argumentCount (tooMany : Bool) (func : String)
  | cannotAssign (x type context : String)
  | untypedNil (context : String)
  /-- An untyped operand in the place of a typed value, with the kind of misfit. -/
  | cannotUseUntyped (kind : Fault) (x type context : String)
  | cannotUse (kind : Fault) (x type context : String) (cause : Option String)
  | genericValue (x context : String)
  | notConstant (x : String)
  | fieldOfMapElement (expr : String)
  | cannotAssignTo (target : String)
  | missingRightSide
  | assignmentCount (targets values : Nat) (call : Option String)
  | returnCount (tooMany : Bool)
  | noScope
  | nonName (expr : String)
  | repeatedName (name : String)
  | noNewVariables
  | redeclared (name : String)
  | missingReturn
  | unusedVariable (name : String)
  | returnOutsideFunction
  | hiddenResult (name : String)
  | invalidConstType (type : String)
  | extraValue
  | missingValue (name : String)
  | notASignature (type : String)
  deriving DecidableEq, Repr

namespace Problem

/-- The kind of a problem. Of untyped misfits, only lost fractions and ranges keep theirs. -/
def fault : Problem → Fault
  | undefined _ => .undeclaredName
  | blankValue | blankType => .invalidBlank
  | notAType _ => .notAType
  | valueOfNoValue _ | valueOrTypeOfNoValue _ | multipleValue _ => .tooManyValues
  | notAnExpression _ => .notAnExpr
  | notUsed _ => .unusedExpr
  | malformedConstant _ => .invalidConstVal
  | ambiguousSelector .. => .ambiguousSelector
  | pointerMethod .. => .invalidMethodExpr
  | noFieldOrMethod .. | selectorOnInterfacePointer .. => .missingFieldOrMethod
  | cannotIndex _ => .nonIndexableOperand
  | indexNotInteger _ | indexNegative _ | indexOverflow _ | indexOutOfBounds .. => .invalidIndex
  | assertOnTypeParam _ | assertOnNonInterface _ => .invalidAssert
  | impossibleAssertion .. => .impossibleAssert
  | receiveFromNonChannel _ | receiveFromSendOnly _ => .invalidReceive
  | cannotTakeAddress _ => .unaddressableOperand
  | undefinedOperator .. => .undefinedOp
  | cannotIndirect _ => .invalidIndirection
  | misfit kind .. => kind
  | constantOverflow .. | cannotConvert .. | conversionOfSpread _ => .invalidConversion
  | callOfNonFunction _ => .invalidCall
  | genericCall _ | genericValue .. => .wrongTypeArgCount
  | conversionWithoutArgument _ | conversionOfMany _ | argumentCount .. => .wrongArgCount
  | spreadOfMany .. => .invalidDotDotDot
  | spreadToNonVariadic _ => .nonVariadicDotDotDot
  | cannotAssign .. => .incompatibleAssign
  | untypedNil _ => .untypedNilUse
  | cannotUseUntyped .truncatedFloat .. => .truncatedFloat
  | cannotUseUntyped .numericOverflow .. => .numericOverflow
  | cannotUseUntyped .. => .incompatibleAssign
  | cannotUse kind .. => kind
  | notConstant _ => .invalidConstInit
  | fieldOfMapElement _ => .unaddressableFieldAssign
  | cannotAssignTo _ => .unassignableOperand
  | missingRightSide | noScope | returnOutsideFunction | notASignature _ => .invalidSyntaxTree
  | assignmentCount .. | extraValue | missingValue _ => .wrongAssignCount
  | returnCount _ => .wrongResultCount
  | nonName _ => .badDecl
  | repeatedName _ => .repeatedDecl
  | noNewVariables => .noNewVar
  | redeclared _ => .duplicateDecl
  | missingReturn => .missingReturn
  | unusedVariable _ => .unusedVar
  | hiddenResult _ => .outOfScopeResult
  | invalidConstType _ => .invalidConstType

def countWord (tooMany : Bool) : String := if tooMany then "too many" else "not enough"

def causeText (cause : Option String) : String := cause.elim "" (": " ++ ·)

def message : Problem → String
  | undefined name => "undefined: " ++ name
  | blankValue => "cannot use _ as value"
  | blankType => "cannot use _ as value or type"
  | notAType name => name ++ " is not a type"
  | valueOfNoValue x => x ++ " used as value"
  | valueOrTypeOfNoValue x => x ++ " used as value or type"
  | notAnExpression x => x ++ " is not an expression"
  | notUsed x => x ++ " is not used"
  | multipleValue x => "multiple-value " ++ x ++ " in single-value context"
  | malformedConstant raw => "malformed constant: " ++ raw
  | ambiguousSelector base name => "ambiguous selector " ++ base ++ "." ++ name
  | pointerMethod name type => "cannot call pointer method " ++ name ++ " on " ++ type
  | noFieldOrMethod base type name =>
    base ++ "." ++ name ++ " undefined (type " ++ type ++ " has no field or method " ++ name ++ ")"
  | selectorOnInterfacePointer base type name =>
    base ++ "." ++ name ++ " undefined (type " ++ type ++
      " is pointer to interface, not interface)"
  | cannotIndex x => "invalid operation: cannot index " ++ x
  | indexNotInteger x => "invalid argument: index " ++ x ++ " must be integer"
  | indexNegative x => "invalid argument: index " ++ x ++ " must not be negative"
  | indexOverflow x => "invalid argument: index " ++ x ++ " overflows int"
  | indexOutOfBounds index length =>
    "invalid argument: index " ++ index ++ s!" out of bounds [0:{length}]"
  | assertOnTypeParam x =>
    "invalid operation: cannot use type assertion on type parameter value " ++ x
  | assertOnNonInterface x => "invalid operation: " ++ x ++ " is not an interface"
  | impossibleAssertion expr type iface reason =>
    "impossible type assertion: " ++ expr ++ "\n\t" ++ type ++ " does not implement " ++ iface ++
      " " ++ reason
  | receiveFromNonChannel x => "invalid operation: cannot receive from non-channel " ++ x
  | receiveFromSendOnly x => "invalid operation: cannot receive from send-only channel " ++ x
  | cannotTakeAddress x => "invalid operation: cannot take address of " ++ x
  | undefinedOperator op x => "invalid operation: operator " ++ op ++ " not defined on " ++ x
  | cannotIndirect x => "invalid operation: cannot indirect " ++ x
  | misfit .truncatedFloat x type => x ++ " truncated to " ++ type
  | misfit .numericOverflow x type => x ++ " overflows " ++ type
  | misfit _ x type => "cannot convert " ++ x ++ " to type " ++ type
  | constantOverflow value type => "constant " ++ value ++ " overflows " ++ type
  | cannotConvert x type cause => "cannot convert " ++ x ++ " to type " ++ type ++ causeText cause
  | callOfNonFunction x => "invalid operation: cannot call non-function " ++ x
  | genericCall func => "cannot use generic function " ++ func ++ " without instantiation"
  | conversionWithoutArgument type => "missing argument in conversion to " ++ type
  | conversionOfSpread type => "invalid use of ... in conversion to " ++ type
  | conversionOfMany type => "too many arguments in conversion to " ++ type
  | spreadOfMany count expr => s!"cannot use ... with {count}-valued " ++ expr
  | spreadToNonVariadic func => "cannot use ... in call to non-variadic " ++ func
  | argumentCount tooMany func => countWord tooMany ++ " arguments in call to " ++ func
  | cannotAssign x type context => "cannot assign " ++ x ++ " to " ++ type ++ " in " ++ context
  | untypedNil context => "use of untyped nil in " ++ context
  | cannotUseUntyped kind x type context =>
    "cannot use " ++ x ++ " as " ++ type ++ " value in " ++ context ++
      match kind with
      | .truncatedFloat => " (truncated)"
      | .numericOverflow => " (overflows)"
      | _ => ""
  | cannotUse _ x type context cause =>
    "cannot use " ++ x ++ " as " ++ type ++ " value in " ++ context ++ causeText cause
  | genericValue x context =>
    "cannot use generic function " ++ x ++ " without instantiation in " ++ context
  | notConstant x => x ++ " is not constant"
  | fieldOfMapElement expr => "cannot assign to struct field " ++ expr ++ " in map"
  | cannotAssignTo target => "cannot assign to " ++ target
  | missingRightSide => "invalid syntax tree: missing right-hand side"
  | assignmentCount targets values call =>
    "assignment mismatch: " ++ counted targets "variable" ++ " but " ++
      call.elim "" (· ++ " returns ") ++ counted values "value"
  | returnCount tooMany => countWord tooMany ++ " return values"
  | noScope => "invalid syntax tree: no scope for :="
  | nonName expr => "non-name " ++ expr ++ " on left side of :="
  | repeatedName name => name ++ " repeated on left side of :="
  | noNewVariables => "no new variables on left side of :="
  | redeclared name => name ++ " redeclared in this block"
  | missingReturn => "missing return"
  | unusedVariable name => "declared and not used: " ++ name
  | returnOutsideFunction => "invalid syntax tree: return outside function"
  | hiddenResult name => "result parameter " ++ name ++ " not in scope at return"
  | invalidConstType type => "invalid constant type " ++ type
  | extraValue => "extra init expr"
  | missingValue name => "missing init expr for " ++ name
  | notASignature type => "invalid syntax tree: " ++ type ++ " is not a signature"

def report (p : Problem) (span : Span) : Diagnostic := p.fault.report span p.message

end Problem

end GoCheck
