import GoCheck.Type.Query

/-!
# Types as text

Types as they appear in messages. Named types are shown by name. An unnamed type is written out
once; where it occurs again, it is shown by its number, so that recursive types have a finite text.
-/

namespace GoCheck

/-- Printing, with the unnamed types that have been written out. -/
abbrev Printing := StateM (List TypeId)

namespace Store

variable (s : Store) (p : Option TypeId → Printing String)

/-- A variable of a tuple; the last of a variadic list shows the element type of its slice. -/
def printVar (variadic : Bool) (v : ObjectId) : Printing String := do
  let o := s.object v
  let name := if o.name.isEmpty then "" else o.name ++ " "
  match variadic, o.type.bind fun t => (s.type t).sliceElem? with
  | true, some elem => return name ++ "..." ++ (← p (some elem))
  | _, _ => return name ++ (← p o.type)

def printVars (variadic : Bool) : List ObjectId → Printing (List String)
  | [] => pure []
  | v :: vs => do
    let first ← s.printVar p (variadic && vs.isEmpty) v
    return first :: (← printVars variadic vs)

def printTuple (t : TypeId) (variadic : Bool) : Printing String := do
  return "(" ++ commaSeparated (← s.printVars p variadic (s.tupleVars t)) ++ ")"

def printTypeParam (t : TypeId) : Printing String := do
  let name ← p (some t)
  match (s.type t).typeParam? with
  | some q => return name ++ " " ++ (← p (some q.bound))
  | none => return name

/-- The results of a signature: nothing, one unnamed type, or a tuple. -/
def printResults (results : TypeId) : Printing String := do
  match s.tupleVars results with
  | [] => return ""
  | [v] =>
    if (s.object v).name.isEmpty then return " " ++ (← p (s.object v).type)
    else return " " ++ (← s.printTuple p results false)
  | _ => return " " ++ (← s.printTuple p results false)

/-- A signature without the word before it; other types give nothing. -/
def printSignature (t : TypeId) : Printing String := do
  match (s.type t).signature? with
  | none => return ""
  | some sig =>
    let generic ←
      if sig.typeParams.isEmpty then pure ""
      else do
        let ps ← sig.typeParams.mapM (s.printTypeParam p)
        pure ("[" ++ commaSeparated ps ++ "]")
    let params ← s.printTuple p sig.params sig.variadic
    return generic ++ params ++ (← s.printResults p sig.results)

def printField (f : ObjectId) : Printing String := do
  let o := s.object f
  return (if o.isEmbedded then "" else o.name ++ " ") ++ (← p o.type)

def printMethod (m : ObjectId) : Printing String := do
  let o := s.object m
  match o.type with
  | some sig => return o.name ++ (← s.printSignature p sig)
  | none => return o.name

def printInterface (i : InterfaceType) : Printing String := do
  let methods ← i.methods.mapM (s.printMethod p)
  let terms ← match i.terms with
    | none => pure []
    | some ts => do pure [" | ".intercalate (← ts.mapM fun t => p (some t))]
  return "interface\x7b" ++ "; ".intercalate (methods ++ terms) ++ "\x7d"

def printForm (t : TypeId) : Printing String := do
  match s.type t with
  | .basic k => return k.name
  | .array n elem => return s!"[{n}]" ++ (← p (some elem))
  | .slice elem => return "[]" ++ (← p (some elem))
  | .struct fields =>
    return "struct\x7b" ++ "; ".intercalate (← fields.mapM (s.printField p)) ++ "\x7d"
  | .pointer base => return "*" ++ (← p (some base))
  | .tuple _ => s.printTuple p t false
  | .signature _ => return "func" ++ (← s.printSignature p t)
  | .interface i => s.printInterface p i
  | .map key elem =>
    let k ← p (some key)
    return "map[" ++ k ++ "]" ++ (← p (some elem))
  | .chan dir elem =>
    let text ← p (some elem)
    let parens := dir = .both && (s.type elem).chan?.any (·.1 = .recv)
    return dir.text ++ (if parens then "(" ++ text ++ ")" else text)
  | .named n => return (s.object n.object).name
  | .typeParam q => return (s.object q.object).name

/-- A type: by name, written out, or by number if it has been written out before. -/
def printStep : Option TypeId → Printing String
  | none => pure "<nil>"
  | some t => do
    if t = .any then return "any"
    if s.isNamed t then return ← s.printForm p t
    if (← get).contains t then return s!"type#{t.index}"
    modify (t :: ·)
    s.printForm p t

/-- A type printed at most `n` levels deep. -/
def printWithin (s : Store) : Nat → Option TypeId → Printing String
  | 0, _ => pure ""
  | n + 1, t => s.printStep (s.printWithin n) t

/-- A type that may be missing, as text. Every level but the last writes out one more type. -/
def typeTextOf (s : Store) (t : Option TypeId) : String :=
  ((s.printWithin (s.types.size + 2) t).run []).1

def typeText (s : Store) (t : TypeId) : String := s.typeTextOf (some t)

/-- A type in a summary. Untyped numbers are all shown alike, other untyped types without that word;
a type that is missing or invalid is unknown, and a variadic one shows its elements. -/
def summaryEntry (s : Store) (variadicLast : Bool) (t : Option TypeId) : String :=
  match t with
  | none => "unknown type"
  | some t =>
    if s.isInvalid t then "unknown type"
    else match s.type t with
      | .basic k =>
        if !k.isUntyped then s.typeText t
        else if k.family.isNumeric then "number"
        else String.ofList (k.name.toList.drop "untyped ".length)
      | .slice elem => if variadicLast then "..." ++ s.typeText elem else s.typeText t
      | _ => s.typeText t

def summaryEntries (s : Store) (variadic : Bool) : List (Option TypeId) → List String
  | [] => []
  | t :: ts => s.summaryEntry (variadic && ts.isEmpty) t :: s.summaryEntries variadic ts

def summary (s : Store) (types : List (Option TypeId)) (variadic : Bool) : String :=
  "(" ++ commaSeparated (s.summaryEntries variadic types) ++ ")"

end Store

/-- A number with a noun, which takes an `s` unless the number is one. -/
def counted (n : Nat) (unit : String) : String :=
  s!"{n} {unit}" ++ (if n = 1 then "" else "s")

end GoCheck
