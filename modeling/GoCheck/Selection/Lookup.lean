import GoCheck.Type.Identity

/-!
# Looking up fields and methods

A selector names a field or method of a type, or one that an embedded field lends to it. The search
goes level by level: what lies at a smaller depth hides what lies deeper, and a name that occurs
twice at the least depth is ambiguous.
-/

namespace GoCheck

inductive Selection where
  /-- A field or method, the indices that lead to it, and whether a pointer is on the way. -/
  | entry (object : ObjectId) (path : List Nat) (indirect : Bool)
  /-- The name occurs again at the least depth, at the end of this path. -/
  | ambiguous (path : List Nat)
  /-- A pointer method of a value whose address cannot be taken. -/
  | badReceiver
  | notFound
  deriving DecidableEq, Repr

/-- A type to be searched. `multiple` says that several paths of this length lead to it. -/
structure Candidate where
  type : TypeId
  path : List Nat
  indirect : Bool
  multiple : Bool
  deriving DecidableEq, Repr

/-- The state within one level: the next candidates, what is found, the defined types searched. -/
structure LevelState where
  next : List Candidate
  found : Option (ObjectId × List Nat × Bool)
  seen : List TypeId

namespace Store

variable (s : Store)

/-- The base of an unnamed pointer type, or the type itself. -/
def dereference (t : TypeId) : TypeId × Bool :=
  match s.type t with
  | .pointer base => (base, true)
  | _ => (t, false)

/-- The position and the object of the first object with a name. -/
def findNamed (s : Store) (name : String) : Nat → List ObjectId → Option (Nat × ObjectId)
  | _, [] => none
  | i, o :: os => if (s.object o).name = name then some (i, o) else s.findNamed name (i + 1) os

/-- Notes an object found in a candidate. If it is not the only one, its path is the answer. -/
def noteFound (c : Candidate) (i : Nat) (o : ObjectId) (st : LevelState) :
    Except (List Nat) LevelState :=
  let path := c.path ++ [i]
  if c.multiple || st.found.isSome then .error path
  else .ok { st with found := some (o, path, c.indirect) }

/-- The candidate that an embedded field at position `i` leads to. -/
def embeddedBy (c : Candidate) (i : Nat) (f : ObjectId) : Option Candidate :=
  match (s.object f).isEmbedded, (s.object f).type with
  | true, some t =>
    let (t, pointer) := s.dereference t
    some ⟨t, c.path ++ [i], c.indirect || pointer, c.multiple⟩
  | _, _ => none

/-- The fields of a struct from position `i` on. Embedded ones are searched next if nothing is
found. -/
def scanFields (s : Store) (name : String) (c : Candidate) :
    Nat → List ObjectId → LevelState → Except (List Nat) LevelState
  | _, [], st => .ok st
  | i, f :: fs, st => do
    if (s.object f).name = name then
      s.scanFields name c (i + 1) fs (← noteFound c i f st)
    else
      let next := if st.found.isSome then st.next else st.next ++ (s.embeddedBy c i f).toList
      s.scanFields name c (i + 1) fs { st with next }

/-- The fields of a struct or the methods of an interface beneath a candidate. -/
def scanShape (name : String) (c : Candidate) (st : LevelState) :
    Except (List Nat) LevelState :=
  match s.shape c.type with
  | .struct fields => s.scanFields name c 0 fields st
  | .interface i =>
    match s.findNamed name 0 i.methods with
    | some (i, m) => noteFound c i m st
    | none => .ok st
  | _ => .ok st

/-- One candidate. A defined type is searched once; a method of its own hides its fields. -/
def scanCandidate (name : String) (c : Candidate) (st : LevelState) :
    Except (List Nat) LevelState :=
  match s.type c.type with
  | .named n =>
    if st.seen.contains c.type then .ok st
    else
      let st := { st with seen := c.type :: st.seen }
      match s.findNamed name 0 n.methods with
      | some (i, m) => noteFound c i m st
      | none => s.scanShape name c st
  | _ => s.scanShape name c st

def scanLevel (s : Store) (name : String) :
    List Candidate → LevelState → Except (List Nat) LevelState
  | [], st => .ok st
  | c :: cs, st => do s.scanLevel name cs (← s.scanCandidate name c st)

end Store

def hasCandidate (cs : List Candidate) (t : TypeId) : Bool := cs.any (·.type = t)

/-- The candidates with each type once, at its first place; a type that occurred again is marked. -/
def mergeCandidates (cs : List Candidate) : List Candidate :=
  cs.foldl (fun merged c =>
    if hasCandidate merged c.type then
      merged.map fun d => if d.type = c.type then { d with multiple := true } else d
    else merged ++ [c]) []

namespace Store

variable (s : Store)

/-- What a found object means to a selector on a value with or without an address. -/
def selectionOf (addressable : Bool) : ObjectId × List Nat × Bool → Selection
  | (o, path, indirect) =>
    if (s.object o).hasPointerReceiver && !indirect && !addressable then .badReceiver
    else .entry o path indirect

/-- The search from a level on, over at most `n` levels; `none` if they do not suffice. -/
def searchLevels (s : Store) (addressable : Bool) (name : String) :
    Nat → List Candidate → List TypeId → Option Selection
  | _, [], _ => some .notFound
  | 0, _ :: _, _ => none
  | n + 1, c :: cs, seen =>
    match s.scanLevel name (c :: cs) ⟨[], none, seen⟩ with
    | .error path => some (.ambiguous path)
    | .ok ⟨_, some found, _⟩ => some (s.selectionOf addressable found)
    | .ok ⟨next, none, seen⟩ => s.searchLevels addressable name n (mergeCandidates next) seen

/-- The levels of a search that ends: on a path, a type returns only after another defined type. -/
def levelBound : Nat := (s.types.size + 1) * (s.types.size + 1) + 1

/-- The search in a type or through an unnamed pointer, not to an interface; `none` if it does not
end. -/
def selectFrom? (t : TypeId) (addressable : Bool) (name : String) : Option Selection :=
  let (t, pointer) := s.dereference t
  if pointer && s.isInterface t then some .notFound
  else s.searchLevels addressable name s.levelBound [⟨t, [], pointer, false⟩] []

/-- A selection in which methods do not count. -/
def withoutMethods : Selection → Selection
  | .entry o path indirect => if (s.object o).isFunc then .notFound else .entry o path indirect
  | r => r

/-- The search for a selector; `none` if it does not end. Defined pointer types have no methods. -/
def select? (t : TypeId) (addressable : Bool) (name : String) : Option Selection :=
  if name = "_" then some .notFound
  else match s.type t with
    | .named n =>
      match s.type n.underlying with
      | .pointer _ => (s.selectFrom? n.underlying false name).map s.withoutMethods
      | _ => s.selectFrom? t addressable name
    | _ => s.selectFrom? t addressable name

def select (t : TypeId) (addressable : Bool) (name : String) : Selection :=
  (s.select? t addressable name).getD .notFound

end Store

/-! ## Method sets -/

/-- Why a type lacks a method of an interface. -/
inductive Lacking where
  /-- It has nothing of that name. -/
  | missing (method : ObjectId)
  /-- It has a method of that name and another type. -/
  | wrongType (want found : ObjectId)
  /-- Only pointers to the type have the method. -/
  | pointerReceiver (method : ObjectId)
  deriving DecidableEq, Repr

def Lacking.method : Lacking → ObjectId
  | missing m | pointerReceiver m | wrongType m _ => m

namespace Store

variable (s : Store)

def sameMethodType (a b : ObjectId) : Bool :=
  s.identicalOptional (s.object a).type (s.object b).type

/-- How an interface lacks a method. If the dynamic type may have it, not `static`, that is no
lack. -/
def lackingInInterface? (methods : List ObjectId) (static : Bool) (m : ObjectId) :
    Option Lacking :=
  match methods.find? fun f => (s.object f).name = (s.object m).name with
  | none => if static then some (.missing m) else none
  | some f => if s.sameMethodType f m then none else some (.wrongType m f)

def lackingInType? (t : TypeId) (m : ObjectId) : Option Lacking :=
  match s.select t false (s.object m).name with
  | .entry f _ _ =>
    if (s.object f).isFunc then
      if s.sameMethodType f m then none else some (.wrongType m f)
    else some (.missing m)
  | .badReceiver => some (.pointerReceiver m)
  | _ => some (.missing m)

def lackingMethod? (t iface : TypeId) (static : Bool) : Option Lacking :=
  match s.shape iface with
  | .interface i =>
    match s.shape t with
    | .interface found => i.methods.findSome? (s.lackingInInterface? found.methods static)
    | _ => i.methods.findSome? (s.lackingInType? t)
  | _ => none

/-- Why a value of an interface type can never hold a `t`. Other interfaces can always be asked
for. -/
def impossibleAssertion? (iface t : TypeId) : Option Lacking :=
  if s.isInterface t then none else s.lackingMethod? t iface false

end Store

end GoCheck
