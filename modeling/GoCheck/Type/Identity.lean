import GoCheck.Type.Query

/-!
# Type identity

Two types are identical if they have the same form and identical parts. Types may be recursive
through the methods of interfaces: a pair of interfaces that is met again while it is being compared
counts as identical.
-/

namespace GoCheck

/-- A comparison: the pairs of interfaces met so far, and an answer within the bound on its
depth. -/
abbrev Compare := StateT (List (TypeId × TypeId)) Option

/-- Compares two lists entry by entry up to the first difference. -/
def allPairs {α β : Type} (f : α → β → Compare Bool) : List α → List β → Compare Bool
  | a :: as, b :: bs => do if ← f a b then allPairs f as bs else pure false
  | _, _ => pure true

/-- A comparison that starts without any pairs and forgets those it meets. -/
def Compare.separately (c : Compare Bool) : Compare Bool := fun met =>
  (c.run []).map fun (b, _) => (b, met)

def compareOptional (f : TypeId → TypeId → Compare Bool) :
    Option TypeId → Option TypeId → Compare Bool
  | some a, some b => f a b
  | none, none => pure true
  | _, _ => pure false

namespace Store

variable (s : Store)

def compareObjectTypes (f : TypeId → TypeId → Compare Bool) (a b : ObjectId) :
    Compare Bool :=
  compareOptional f (s.object a).type (s.object b).type

def compareFields (f : TypeId → TypeId → Compare Bool) (a b : ObjectId) :
    Compare Bool :=
  if (s.object a).name = (s.object b).name ∧ (s.object a).isEmbedded = (s.object b).isEmbedded then
    s.compareObjectTypes f a b
  else pure false

def compareMethods (f : TypeId → TypeId → Compare Bool) (a b : ObjectId) :
    Compare Bool :=
  if (s.object a).name = (s.object b).name then s.compareObjectTypes f a b else pure false

/-- Whether every type of one list has an identical one in the other, for lists of one length. -/
def compareTerms (f : TypeId → TypeId → Compare Bool) :
    Option (List TypeId) → Option (List TypeId) → Compare Bool
  | none, none => pure true
  | some as, some bs =>
    if as.length = bs.length then
      as.allM fun a => bs.anyM fun b => (f a b).separately
    else pure false
  | _, _ => pure false

/-- Compares two interfaces: the numbers of methods, the terms, then each method. The pair is noted
first. -/
def compareInterfaces (f : TypeId → TypeId → Compare Bool) (x y : TypeId)
    (i j : InterfaceType) : Compare Bool := do
  if i.methods.length ≠ j.methods.length then return false
  unless ← compareTerms f i.terms j.terms do return false
  if (← get).contains (x, y) then return true
  modify ((x, y) :: ·)
  i.methods.allM fun a => j.methods.anyM fun b => s.compareMethods f a b

/-- Compares two types, given a comparison of their parts. -/
def identityStep (f : TypeId → TypeId → Compare Bool) (x y : TypeId) : Compare Bool :=
  if x = y then pure true
  else match s.type x, s.type y with
    | .basic j, .basic k => pure (j.resolveAlias = k.resolveAlias)
    | .array m a, .array n b => if m = n then f a b else pure false
    | .slice a, .slice b => f a b
    | .struct as, .struct bs =>
      if as.length = bs.length then allPairs (s.compareFields f) as bs else pure false
    | .pointer a, .pointer b => f a b
    | .tuple as, .tuple bs =>
      if as.length = bs.length then allPairs (s.compareObjectTypes f) as bs else pure false
    | .signature a, .signature b => do
      if a.typeParams.length ≠ b.typeParams.length || a.variadic ≠ b.variadic then return false
      if ← f a.params b.params then f a.results b.results else return false
    | .interface i, .interface j => s.compareInterfaces f x y i j
    | .map k a, .map l b => do if ← f k l then f a b else pure false
    | .chan d a, .chan e b => if d = e then f a b else pure false
    | .named m, .named n => pure (m.object = n.object)
    | _, _ => pure false

/-- Compares two types at most `n` levels deep. -/
def identicalWithin (s : Store) : Nat → TypeId → TypeId → Compare Bool
  | 0, _, _ => failure
  | n + 1, x, y => s.identityStep (s.identicalWithin n) x y

/-- A depth that a comparison exceeds only if it never ends: a pair of types returns only after
another pair of interfaces or a term. -/
def identityDepth : Nat :=
  let pairs := s.types.size * s.types.size + 1
  pairs * pairs * pairs

/-- The comparison of two types from the start; `none` if it does not end. -/
def identical? (x y : TypeId) : Option Bool :=
  ((s.identicalWithin s.identityDepth x y).run []).map (·.1)

def identical (x y : TypeId) : Bool := (s.identical? x y).getD false

def identicalOptional : Option TypeId → Option TypeId → Bool
  | some x, some y => s.identical x y
  | none, none => true
  | _, _ => false

end Store

end GoCheck
