import GoCheck.Constant.Basic
import GoCheck.Source.Span

/-!
# Syntax trees

The statements and expressions that take part in declarations and assignments. Every expression has
a number of its own, by which what is found out about it is recorded.
-/

namespace GoCheck

/-- A name where it is written. A node built without a name has `none`. -/
structure Ident where
  name : Option String
  span : Span
  deriving DecidableEq, Repr, Inhabited

/-- The text by which a name is looked up and declared. -/
def Ident.text (i : Ident) : String := i.name.getD "<unknown>"

inductive ChanDir where
  | both
  | send
  | recv
  deriving DecidableEq, Repr

/-- A parameter or result whose type is a `τ`. -/
structure ParamOf (τ : Type) where
  name : Option Ident
  type : τ
  span : Span
  deriving Repr, Inhabited

/-- A signature over types `τ`. In a variadic one the last parameter is written `...T`, and its type
here is `T`. -/
structure FuncSigOf (τ : Type) where
  params : List (ParamOf τ)
  results : List (ParamOf τ)
  variadic : Bool
  span : Span
  deriving Repr, Inhabited

inductive TypeExpr where
  | name (span : Span) (ident : Ident)
  | pointer (span : Span) (elem : TypeExpr)
  | slice (span : Span) (elem : TypeExpr)
  | map (span : Span) (key value : TypeExpr)
  | chan (span : Span) (dir : ChanDir) (elem : TypeExpr)
  | func (span : Span) (sig : FuncSigOf TypeExpr)
  deriving Inhabited

abbrev Param := ParamOf TypeExpr

abbrev FuncSig := FuncSigOf TypeExpr

def TypeExpr.span : TypeExpr → Span
  | name s _ | pointer s _ | slice s _ | map s _ _ | chan s _ _ | func s _ => s

structure Node where
  id : Nat
  span : Span
  deriving DecidableEq, Repr, Inhabited

inductive LitKind where
  | int
  | float
  | imaginary
  | rune
  | string
  deriving DecidableEq, Repr

structure BlockOf (σ : Type) where
  stmts : List σ
  span : Span

/-- One specification of a `var` or `const` declaration with values `ε`. -/
structure SpecOf (ε : Type) where
  names : List Ident
  type : Option TypeExpr
  values : List ε
  span : Span

mutual

inductive Expr where
  | ident (node : Node) (ident : Ident)
  /-- A literal as written, quotes and marks included. -/
  | lit (node : Node) (kind : LitKind) (raw : Option String)
  | paren (node : Node) (inner : Expr)
  | selector (node : Node) (base : Expr) (sel : Ident)
  | index (node : Node) (base index : Expr)
  /-- A call; with `spread`, its last argument is followed by dots. -/
  | call (node : Node) (func : Expr) (args : List Expr) (spread : Bool)
  | assert (node : Node) (base : Expr) (type : TypeExpr)
  | unary (node : Node) (op : UnaryOp) (operand : Expr)
  | receive (node : Node) (channel : Expr)
  | funcLit (node : Node) (sig : FuncSig) (body : BlockOf Stmt)

inductive Stmt where
  | empty (span : Span)
  | block (span : Span) (body : BlockOf Stmt)
  | var (span : Span) (specs : List (SpecOf Expr))
  | const (span : Span) (specs : List (SpecOf Expr))
  /-- A short declaration `lhs := rhs`. -/
  | short (span : Span) (lhs rhs : List Expr)
  /-- An assignment `lhs = rhs`. -/
  | assign (span : Span) (lhs rhs : List Expr)
  | ret (span : Span) (values : List Expr)
  | expr (span : Span) (value : Expr)

end

abbrev Block := BlockOf Stmt

abbrev Spec := SpecOf Expr

namespace Expr

def node : Expr → Node
  | ident n _ | lit n _ _ | paren n _ | selector n _ _ | index n _ _ | call n _ _ _ | assert n _ _
  | unary n _ _ | receive n _ | funcLit n _ _ => n

def id (e : Expr) : Nat := e.node.id

def span (e : Expr) : Span := e.node.span

/-- The expression inside any number of parentheses. -/
def unparen : Expr → Expr
  | paren _ inner => inner.unparen
  | e => e

def ident? : Expr → Option Ident
  | ident _ i => some i
  | _ => none

end Expr

def Stmt.span : Stmt → Span
  | .empty s | .block s _ | .var s _ | .const s _ | .short s _ _ | .assign s _ _ | .ret s _
  | .expr s _ => s

/-! ## Trees as text -/

def Ident.shown (i : Ident) : String := i.name.getD "<ident>"

def ChanDir.text : ChanDir → String
  | both => "chan "
  | send => "chan<- "
  | recv => "<-chan "

def commaSeparated (xs : List String) : String := ", ".intercalate xs

/-- The results of a signature: nothing, a single unnamed type, or a list in parentheses. -/
def resultsText (single : Bool) (results : List String) : String :=
  match single, results with
  | _, [] => ""
  | true, [r] => " " ++ r
  | _, rs => " (" ++ commaSeparated rs ++ ")"

/-- Whether a list of results is one type without a name. -/
def FuncSigOf.singleUnnamed {τ : Type} (sig : FuncSigOf τ) : Bool :=
  match sig.results with
  | [p] => p.name.isNone
  | _ => false

mutual

def TypeExpr.text : TypeExpr → String
  | .name _ i => i.shown
  | .pointer _ elem => "*" ++ elem.text
  | .slice _ elem => "[]" ++ elem.text
  | .map _ key value => "map[" ++ key.text ++ "]" ++ value.text
  | .chan _ dir elem => dir.text ++ elem.text
  | .func _ sig => sigText sig

def sigText : FuncSigOf TypeExpr → String
  | sig@⟨params, results, variadic, _⟩ =>
    "func(" ++ commaSeparated (paramTexts variadic params) ++ ")" ++
      resultsText sig.singleUnnamed (paramTexts false results)

/-- The parameters of a list; the last of a variadic list is marked by dots. -/
def paramTexts (variadic : Bool) : List (ParamOf TypeExpr) → List String
  | [] => []
  | p :: ps => paramText (if variadic && ps.isEmpty then "..." else "") p :: paramTexts variadic ps

/-- A parameter, with a mark before its type. -/
def paramText (mark : String) : ParamOf TypeExpr → String
  | ⟨some n, t, _⟩ => n.shown ++ " " ++ mark ++ t.text
  | ⟨none, t, _⟩ => mark ++ t.text

end

mutual

def Expr.text : Expr → String
  | .ident _ i => i.shown
  | .lit _ _ raw => raw.getD "<lit>"
  | .paren _ inner => "(" ++ inner.text ++ ")"
  | .selector _ base sel => base.text ++ "." ++ sel.shown
  | .index _ base index => base.text ++ "[" ++ index.text ++ "]"
  | .call _ func args spread =>
    func.text ++ "(" ++ commaSeparated (exprTexts args) ++ (if spread then "..." else "") ++ ")"
  | .assert _ base type => base.text ++ ".(" ++ type.text ++ ")"
  | .unary _ op operand => op.text ++ operand.text
  | .receive _ channel => "<-" ++ channel.text
  | .funcLit _ sig _ => sigText sig ++ " \x7b…\x7d"

def exprTexts : List Expr → List String
  | [] => []
  | e :: es => e.text :: exprTexts es

end

def exprListText (es : List Expr) : String := commaSeparated (exprTexts es)

def specText (spec : Spec) : String :=
  commaSeparated (spec.names.map Ident.shown) ++
    (match spec.type with
      | some t => " " ++ t.text
      | none => "") ++
    (if spec.values.isEmpty then "" else " = " ++ exprListText spec.values)

/-- A statement on one line; of a block only the number of statements is shown. -/
def Stmt.text : Stmt → String
  | .empty _ => ""
  | .block _ body => s!"\x7b {body.stmts.length} stmts \x7d"
  | .var _ specs => String.join (specs.map fun s => "var " ++ specText s)
  | .const _ specs => String.join (specs.map fun s => "const " ++ specText s)
  | .short _ lhs rhs => exprListText lhs ++ " := " ++ exprListText rhs
  | .assign _ lhs rhs => exprListText lhs ++ " = " ++ exprListText rhs
  | .ret _ values => if values.isEmpty then "return" else "return " ++ exprListText values
  | .expr _ value => value.text

end GoCheck
