import GoCheck.Diagnostic.Basic

/-!
# Faults

The kinds of faults a check reports. Each kind has a stable number, and the kinds numbered from 2900
on are warnings.
-/

namespace GoCheck

inductive Fault where
  | incompatibleAssign
  | untypedNilUse
  /-- A constant that would lose its fraction in an integer type. -/
  | truncatedFloat
  | numericOverflow
  /-- A constant declared with a value that is none. -/
  | invalidConstInit
  | unassignableOperand
  /-- An assignment to a field of a map element. -/
  | unaddressableFieldAssign
  /-- As many variables as values were expected. -/
  | wrongAssignCount
  /-- As many returned values as results were expected. -/
  | wrongResultCount
  /-- A value that lacks methods of its target interface. -/
  | invalidIfaceAssign
  /-- A channel whose direction or name keeps it from its target. -/
  | invalidChanAssign
  /-- An untyped value that its target has no form for. -/
  | invalidUntypedConversion
  /-- A constant without a valid value. -/
  | invalidConstVal
  | invalidConversion
  | notAnExpr
  | tooManyValues
  /-- An index that is no integer, negative or out of bounds. -/
  | invalidIndex
  | nonIndexableOperand
  | missingFieldOrMethod
  | invalidAssert
  | impossibleAssert
  | invalidReceive
  | unaddressableOperand
  | invalidIndirection
  /-- An operator applied to a type it is not defined for. -/
  | undefinedOp
  | invalidBlank
  | unusedExpr
  | ambiguousSelector
  /-- A pointer method selected on a value without an address. -/
  | invalidMethodExpr
  | undeclaredName
  | duplicateDecl
  /-- Something other than a name in a short declaration. -/
  | badDecl
  | repeatedDecl
  /-- A name that denotes no type in the place of one. -/
  | notAType
  /-- A type that has no constants. -/
  | invalidConstType
  /-- A generic function that was not instantiated. -/
  | wrongTypeArgCount
  | invalidCall
  | wrongArgCount
  /-- A list of arguments spread into a function that takes none. -/
  | nonVariadicDotDotDot
  | invalidDotDotDot
  /-- A tree that no program has. -/
  | invalidSyntaxTree
  | missingReturn
  /-- A bare return where a result is hidden by another name. -/
  | outOfScopeResult
  /-- A short declaration that declares nothing. -/
  | noNewVar
  | unusedVar
  deriving DecidableEq, Repr

namespace Fault

def code : Fault → Nat
  | incompatibleAssign => 2000
  | untypedNilUse => 2001
  | truncatedFloat => 2002
  | numericOverflow => 2003
  | invalidConstInit => 2004
  | unassignableOperand => 2005
  | unaddressableFieldAssign => 2006
  | wrongAssignCount => 2007
  | wrongResultCount => 2008
  | invalidIfaceAssign => 2009
  | invalidChanAssign => 2010
  | invalidUntypedConversion => 2011
  | invalidConstVal => 2012
  | invalidConversion => 2013
  | notAnExpr => 2100
  | tooManyValues => 2101
  | invalidIndex => 2102
  | nonIndexableOperand => 2103
  | missingFieldOrMethod => 2104
  | invalidAssert => 2105
  | impossibleAssert => 2106
  | invalidReceive => 2107
  | unaddressableOperand => 2108
  | invalidIndirection => 2109
  | undefinedOp => 2110
  | invalidBlank => 2111
  | unusedExpr => 2112
  | ambiguousSelector => 2113
  | invalidMethodExpr => 2114
  | undeclaredName => 2200
  | duplicateDecl => 2201
  | badDecl => 2202
  | repeatedDecl => 2203
  | notAType => 2204
  | invalidConstType => 2205
  | wrongTypeArgCount => 2206
  | invalidCall => 2300
  | wrongArgCount => 2301
  | nonVariadicDotDotDot => 2302
  | invalidDotDotDot => 2303
  | invalidSyntaxTree => 2400
  | missingReturn => 2500
  | outOfScopeResult => 2501
  | noNewVar => 2900
  | unusedVar => 2901

/-- Kinds that do not make a check fail. -/
def isWarning (f : Fault) : Bool := 2900 ≤ f.code

/-- The wording of a kind where nothing more specific is said. -/
def summary : Fault → String
  | incompatibleAssign => "incompatible assignment"
  | untypedNilUse => "use of untyped nil"
  | truncatedFloat => "constant truncated"
  | numericOverflow => "constant overflows"
  | invalidConstInit => "value is not constant"
  | unassignableOperand => "cannot assign to operand"
  | unaddressableFieldAssign => "cannot assign to struct field in map"
  | wrongAssignCount => "assignment mismatch"
  | wrongResultCount => "wrong number of return values"
  | invalidIfaceAssign => "value does not implement interface"
  | invalidChanAssign => "invalid channel assignment"
  | invalidUntypedConversion => "invalid untyped conversion"
  | invalidConstVal => "invalid constant value"
  | invalidConversion => "invalid conversion"
  | notAnExpr => "not an expression"
  | tooManyValues => "multiple-value expression in single-value context"
  | invalidIndex => "invalid index"
  | nonIndexableOperand => "cannot index expression"
  | missingFieldOrMethod => "missing field or method"
  | invalidAssert => "invalid type assertion"
  | impossibleAssert => "impossible type assertion"
  | invalidReceive => "invalid receive"
  | unaddressableOperand => "cannot take address"
  | invalidIndirection => "invalid indirection"
  | undefinedOp => "operator not defined"
  | invalidBlank => "cannot use _ as value"
  | unusedExpr => "expression is not used"
  | ambiguousSelector => "ambiguous selector"
  | invalidMethodExpr => "cannot call pointer method"
  | undeclaredName => "undeclared name"
  | duplicateDecl => "redeclared in this block"
  | badDecl => "non-name on left side of :="
  | repeatedDecl => "name repeated on left side of :="
  | notAType => "not a type"
  | invalidConstType => "invalid constant type"
  | wrongTypeArgCount => "generic function without instantiation"
  | invalidCall => "cannot call non-function"
  | wrongArgCount => "wrong number of arguments"
  | nonVariadicDotDotDot => "cannot use ... in call to non-variadic function"
  | invalidDotDotDot => "invalid use of ..."
  | invalidSyntaxTree => "invalid syntax tree"
  | missingReturn => "missing return"
  | outOfScopeResult => "result parameter not in scope at return"
  | noNewVar => "no new variables on left side of :="
  | unusedVar => "declared and not used"

def severity (f : Fault) : Severity := if f.isWarning then .warning else .error

/-- A report of a kind with the given wording and no place. -/
def withMessage (f : Fault) (message : String) : Diagnostic :=
  { severity := f.severity, code := some f.code, message }

def report (f : Fault) (span : Span) (message : String) : Diagnostic :=
  (f.withMessage message).withLabel { style := .primary, span }

end Fault

end GoCheck
