import GoCheck.Proofs.Bounds.Safe

/-!
# Shifted stores

Of two checks with the same input, one begins after other entities have been made. Older numbers
stay, and all others move up by as many places as entities were made.
-/

namespace GoCheck

/-- Places that are skipped: `width` of them, from `start` on. -/
structure Gap where
  start : Nat
  width : Nat

namespace Gap

variable {g : Gap} {i : Nat}

/-- The number past the skipped places. -/
def skip (g : Gap) (i : Nat) : Nat := if i < g.start then i else i + g.width

lemma skip_of_lt (h : i < g.start) : g.skip i = i := if_pos h

lemma skip_of_le (h : g.start ≤ i) : g.skip i = i + g.width := if_neg (not_lt.mpr h)

@[simp] lemma skip_inj : g.skip i = g.skip j ↔ i = j := by
  unfold skip
  split <;> split <;> omega

lemma skip_lt_add (h : g.start ≤ n) : g.skip i < n + g.width ↔ i < n := by
  unfold skip
  split <;> omega

lemma skip_eq_add (h : g.start ≤ n) : g.skip i = n + g.width ↔ i = n := by
  rw [← skip_of_le h, skip_inj]

lemma le_skip (h : n ≤ i) : m ≤ (Gap.mk n (m - n)).skip i := by
  rw [skip_of_le h]
  dsimp only
  omega

end Gap

/-- The places skipped in the tables of a store, none of a predeclared type or the outermost
scope. -/
structure Renumbering where
  types : Gap
  objects : Gap
  scopes : Gap
  predeclared : TypeId.any.index < types.start
  outermost : Build.universeScope.index < scopes.start

namespace Renumbering

variable (ρ : Renumbering) {t u : TypeId} {o : ObjectId} {x y : ScopeId}

def type (t : TypeId) : TypeId := ⟨ρ.types.skip t.index⟩

def object (o : ObjectId) : ObjectId := ⟨ρ.objects.skip o.index⟩

def scope (x : ScopeId) : ScopeId := ⟨ρ.scopes.skip x.index⟩

/-- Types with numbers that move. -/
def NewType (t : TypeId) : Prop := ρ.types.start ≤ t.index

/-- An object made after the two checks part. -/
def NewObject (o : ObjectId) : Prop := ρ.objects.start ≤ o.index

def NewScope (x : ScopeId) : Prop := ρ.scopes.start ≤ x.index

instance (t : TypeId) : Decidable (ρ.NewType t) := inferInstanceAs (Decidable (_ ≤ _))

instance (o : ObjectId) : Decidable (ρ.NewObject o) := inferInstanceAs (Decidable (_ ≤ _))

instance (x : ScopeId) : Decidable (ρ.NewScope x) := inferInstanceAs (Decidable (_ ≤ _))

variable {ρ}

@[simp] lemma type_inj : ρ.type t = ρ.type u ↔ t = u := by
  cases t
  cases u
  simp [type]

@[simp] lemma object_inj : ρ.object o = ρ.object p ↔ o = p := by
  cases o
  cases p
  simp [object]

@[simp] lemma scope_inj : ρ.scope x = ρ.scope y ↔ x = y := by
  cases x
  cases y
  simp [scope]

lemma type_of_not_new (h : ¬ρ.NewType t) : ρ.type t = t := by
  rw [type, Gap.skip_of_lt (not_le.mp h)]

lemma object_of_not_new (h : ¬ρ.NewObject o) : ρ.object o = o := by
  rw [object, Gap.skip_of_lt (not_le.mp h)]

lemma scope_of_not_new (h : ¬ρ.NewScope x) : ρ.scope x = x := by
  rw [scope, Gap.skip_of_lt (not_le.mp h)]

lemma not_newType_of_le_any (h : t.index ≤ TypeId.any.index) : ¬ρ.NewType t :=
  not_le.mpr (lt_of_le_of_lt h ρ.predeclared)

lemma type_of_le_any (h : t.index ≤ TypeId.any.index) : ρ.type t = t :=
  type_of_not_new (not_newType_of_le_any h)

lemma not_newType_basic (k : BasicKind) : ¬ρ.NewType (.basic k) := by
  apply not_newType_of_le_any
  cases k <;> decide

@[simp] lemma type_basic (k : BasicKind) : ρ.type (.basic k) = .basic k :=
  type_of_not_new (not_newType_basic k)

@[simp] lemma type_invalid : ρ.type .invalid = .invalid := type_basic .invalid

@[simp] lemma getD_map_type (ot : Option TypeId) :
    (ot.map ρ.type).getD .invalid = ρ.type (ot.getD .invalid) := by
  cases ot <;> simp

@[simp] lemma type_noValue : ρ.type .noValue = .noValue := type_of_le_any (by decide)

@[simp] lemma scope_universe : ρ.scope Build.universeScope = Build.universeScope :=
  scope_of_not_new (not_le.mpr ρ.outermost)

lemma type_eq_iff (h : u.index ≤ TypeId.any.index) : ρ.type t = u ↔ t = u := by
  rw [← type_of_le_any h, type_inj, type_of_le_any h]

@[simp] lemma type_eq_basic {k : BasicKind} : ρ.type t = .basic k ↔ t = .basic k := by
  rw [← type_basic k, type_inj, type_basic]

@[simp] lemma type_eq_invalid : ρ.type t = .invalid ↔ t = .invalid := type_eq_basic

@[simp] lemma map_type_eq_invalid {ot : Option TypeId} :
    ot.map ρ.type = some .invalid ↔ ot = some .invalid := by
  cases ot <;> simp

@[simp] lemma type_eq_any : ρ.type t = .any ↔ t = .any := type_eq_iff le_rfl

@[simp] lemma scope_eq_universe : ρ.scope x = Build.universeScope ↔ x = Build.universeScope := by
  rw [← scope_universe, scope_inj, scope_universe]

variable (ρ)

/-- A signature with new numbers. -/
def signature (g : Signature) : Signature :=
  { g with
    params := ρ.type g.params
    results := ρ.type g.results
    typeParams := g.typeParams.map ρ.type }

def interface (i : InterfaceType) : InterfaceType :=
  ⟨i.methods.map ρ.object, i.terms.map (·.map ρ.type)⟩

/-- A type with new numbers. -/
def ty : Ty → Ty
  | .basic k => .basic k
  | .array n elem => .array n (ρ.type elem)
  | .slice elem => .slice (ρ.type elem)
  | .struct fields => .struct (fields.map ρ.object)
  | .pointer base => .pointer (ρ.type base)
  | .tuple vars => .tuple (vars.map ρ.object)
  | .signature g => .signature (ρ.signature g)
  | .interface i => .interface (ρ.interface i)
  | .map key elem => .map (ρ.type key) (ρ.type elem)
  | .chan dir elem => .chan dir (ρ.type elem)
  | .named n => .named ⟨ρ.object n.object, ρ.type n.underlying, n.methods.map ρ.object⟩
  | .typeParam q => .typeParam ⟨ρ.object q.object, q.index, ρ.type q.bound⟩

variable {ρ} (a : Ty)

@[simp] lemma beneath?_ty : (ρ.ty a).beneath? = a.beneath?.map ρ.type := by cases a <;> rfl

@[simp] lemma isNamed_ty : (ρ.ty a).isNamed = a.isNamed := by cases a <;> rfl

@[simp] lemma basic?_ty : (ρ.ty a).basic? = a.basic? := by cases a <;> rfl

@[simp] lemma tuple?_ty : (ρ.ty a).tuple? = a.tuple?.map (·.map ρ.object) := by cases a <;> rfl

@[simp] lemma signature?_ty : (ρ.ty a).signature? = a.signature?.map ρ.signature := by
  cases a <;> rfl

@[simp] lemma interface?_ty : (ρ.ty a).interface? = a.interface?.map ρ.interface := by
  cases a <;> rfl

@[simp] lemma typeParam?_ty : (ρ.ty a).typeParam? =
    a.typeParam?.map fun q => ⟨ρ.object q.object, q.index, ρ.type q.bound⟩ := by
  cases a <;> rfl

@[simp] lemma pointerBase?_ty : (ρ.ty a).pointerBase? = a.pointerBase?.map ρ.type := by
  cases a <;> rfl

@[simp] lemma sliceElem?_ty : (ρ.ty a).sliceElem? = a.sliceElem?.map ρ.type := by cases a <;> rfl

@[simp] lemma array?_ty : (ρ.ty a).array? = a.array?.map fun e => (e.1, ρ.type e.2) := by
  cases a <;> rfl

@[simp] lemma chan?_ty : (ρ.ty a).chan? = a.chan?.map fun e => (e.1, ρ.type e.2) := by
  cases a <;> rfl

@[simp] lemma isEmpty_interface (i : InterfaceType) : (ρ.interface i).isEmpty = i.isEmpty := by
  simp [interface, InterfaceType.isEmpty]

variable (ρ)

def operand (x : Operand) : Operand := { x with type := x.type.map ρ.type }

def implicit (i : Implicit) : Implicit := { i with type := i.type.map ρ.type }

/-- What a selector names, with a new number. -/
def selection : Selection → Selection
  | .entry o path indirect => .entry (ρ.object o) path indirect
  | .ambiguous path => .ambiguous path
  | .badReceiver => .badReceiver
  | .notFound => .notFound

def candidate (c : Candidate) : Candidate := { c with type := ρ.type c.type }

/-- The state of a search with new numbers. -/
def level (st : LevelState) : LevelState :=
  ⟨st.next.map ρ.candidate, st.found.map fun f => (ρ.object f.1, f.2), st.seen.map ρ.type⟩

/-- The lack of a method, with new numbers. -/
def lacking : Lacking → Lacking
  | .missing m => .missing (ρ.object m)
  | .wrongType want found => .wrongType (ρ.object want) (ρ.object found)
  | .pointerReceiver m => .pointerReceiver (ρ.object m)

/-- The lack of an implementation, with new numbers. -/
def unsatisfied : Unsatisfied → Unsatisfied
  | .notInterface => .notInterface
  | .constraint => .constraint
  | .lacking l => .lacking (ρ.lacking l)

def context (k : Context) : Context := ⟨k.scope.map ρ.scope, k.sig.map ρ.type⟩

def deferred (d : Deferred) : Deferred := { d with sig := ρ.type d.sig, scope := ρ.scope d.scope }

/-- How arguments meet parameters with new numbers. -/
def plan : ArgumentPlan → ArgumentPlan
  | .each targets => .each (targets.map ρ.type)
  | .wrongCount expected => .wrongCount expected
  | .spreadOfMany => .spreadOfMany
  | .spreadToNonVariadic => .spreadToNonVariadic

/-- What an operand can be indexed for, with new numbers. -/
def indexing : Pass.Indexing → Pass.Indexing
  | .list mode elem length => .list mode (ρ.type elem) length
  | .map key elem => .map (ρ.type key) (ρ.type elem)
  | .none => .none

/-- A target of a short declaration with a new number. -/
def target : Pass.ShortTarget → Pass.ShortTarget
  | .fresh o => .fresh (ρ.object o)
  | .existing o => .existing (ρ.object o)
  | .wrong => .wrong

variable {ρ} {x : Operand}

@[simp] lemma operand_mode : (ρ.operand x).mode = x.mode := rfl

@[simp] lemma operand_expr : (ρ.operand x).expr = x.expr := rfl

@[simp] lemma operand_type : (ρ.operand x).type = x.type.map ρ.type := rfl

@[simp] lemma operand_isInvalid : (ρ.operand x).isInvalid = x.isInvalid := rfl

@[simp] lemma operand_exprText : (ρ.operand x).exprText = x.exprText := rfl

@[simp] lemma operand_typeOrInvalid : (ρ.operand x).typeOrInvalid = ρ.type x.typeOrInvalid :=
  getD_map_type x.type

end Renumbering

end GoCheck

/-! ## Stores -/

namespace GoCheck

open List Option Build Object Renumbering Store

/-- What an entity is, apart from whether it has been used. -/
def Entity.bare : Entity → Entity
  | .var embedded isField _ => .var embedded isField false
  | e => e

/-- An object without its parent, its visibility and its use. -/
def Object.outline (ob : Object) : Object :=
  { ob with entity := ob.entity.bare, parent := none, visibleFrom := 0 }

/-- A scope without its children, its place and its comment. -/
def Scope.outline (sc : Scope) : Scope :=
  { sc with children := [], start := 0, stop := 0, comment := "" }

namespace Object

variable {ob ob' : Object}

@[simp] lemma outline_setUsed (used : Bool) : (ob.setUsed used).outline = ob.outline := by
  cases h : ob.entity <;> simp [setUsed, outline, h, Entity.bare]

/-- The questions about an object that do not concern its use are answered by its outline. -/
lemma bare_eq (h : ob'.entity.bare = ob.entity.bare) :
    ob'.isVar = ob.isVar ∧ ob'.isFunc = ob.isFunc ∧ ob'.isTypeName = ob.isTypeName ∧
      ob'.isEmbedded = ob.isEmbedded ∧ ob'.hasPointerReceiver = ob.hasPointerReceiver ∧
      ob'.mode = ob.mode := by
  unfold isVar isFunc isTypeName isEmbedded hasPointerReceiver mode
  cases hold : ob.entity with
  | var embedded isField used =>
    cases hnew : ob'.entity <;> simp_all [Entity.bare]
    cases embedded <;> rfl
  | _ => cases hnew : ob'.entity <;> simp_all [Entity.bare]

end Object

namespace Renumbering

variable (ρ : Renumbering)

def ob (ob : Object) : Object := { ob with type := ob.type.map ρ.type }

/-- A scope with new numbers of its parent and of what it binds. -/
def sc (sc : Scope) : Scope :=
  { sc with
    parent := sc.parent.map ρ.scope
    bindings := sc.bindings.map fun b => (b.1, ρ.object b.2) }

end Renumbering

namespace Store

variable {ρ : Renumbering} {s s' s₀ : Store} {t u : TypeId} {o : ObjectId} {x y : ScopeId}
variable {a : Ty} {ob ob' : Object}

/-- The types that a type refers to, itself or by its objects. -/
def componentsOf (s : Store) (a : Ty) : List TypeId :=
  a.typeRefs ++ a.objectRefs.filterMap fun o => (s.object o).type

def components (s : Store) (t : TypeId) : List TypeId := s.componentsOf (s.type t)

/-- A new type occurs in a type: it is that type, or it occurs in one that the type is made of. -/
inductive Occurs (s : Store) (ρ : Renumbering) : TypeId → TypeId → Prop where
  | self {t : TypeId} : ρ.NewType t → Occurs s ρ t t
  | part {t k u : TypeId} : ρ.NewType t → k ∈ s.components t → Occurs s ρ k u → Occurs s ρ t u

/-- No new type occurs in two of the types. -/
def Apart (s : Store) (ρ : Renumbering) (ts : List TypeId) : Prop :=
  ts.Pairwise fun a b => ∀ u, s.Occurs ρ a u → ¬s.Occurs ρ b u

lemma Occurs.newType (h : s.Occurs ρ t u) : ρ.NewType t := by
  cases h with
  | self ht => exact ht
  | part ht _ _ => exact ht

lemma Occurs.newType_right (h : s.Occurs ρ t u) : ρ.NewType u := by
  induction h with
  | self ht => exact ht
  | part _ _ _ ih => exact ih

/-- Types stand on earlier types, terms are earlier types, and a scope lies in an earlier one. -/
structure Ordered (s : Store) : Prop where
  beneath : ∀ t u, (s.type t).beneath? = some u → u.index < t.index
  term : ∀ t i, s.type t = .interface i → ∀ u ∈ i.terms.getD [], u.index < t.index
  parent : ∀ x p, (s.scope x).parent = some p → p.index < x.index

/-- How new entities hang together. New types and objects name no type. A new type has new objects
with types, a new scope binds new objects around later scopes. Old entities are made of old ones,
and new types of earlier types in which no new type occurs twice. -/
structure Grown (ρ : Renumbering) (s : Store) : Prop where
  unnamed : ∀ t, ρ.NewType t → s.HasType t → (s.type t).isNamed = false
  value : ∀ o, ρ.NewObject o → (s.object o).isTypeName = false
  oldPart : ∀ t, ¬ρ.NewType t → ∀ u ∈ (s.type t).typeRefs, ¬ρ.NewType u
  oldMember : ∀ t, ¬ρ.NewType t → ∀ o ∈ (s.type t).objectRefs, ¬ρ.NewObject o
  oldObject : ∀ o, ¬ρ.NewObject o → ∀ t ∈ (s.object o).type, ¬ρ.NewType t
  member : ∀ t, ρ.NewType t → ∀ o ∈ (s.type t).objectRefs,
    ρ.NewObject o ∧ (s.object o).type.isSome = true
  results : ∀ t g, ρ.NewType t → s.type t = .signature g → ρ.NewType g.results
  bound : ∀ x, ρ.NewScope x → ∀ b ∈ (s.scope x).bindings, ρ.NewObject b.2
  child : ∀ x, ρ.NewScope x → ∀ y ∈ (s.scope x).children, x.index < y.index
  early : ∀ t, ρ.NewType t → ∀ k ∈ s.components t, k.index < t.index
  apart : ∀ t, ρ.NewType t → s.Apart ρ (s.components t)

/-- Entities that are not new are as they were, as far as a later check can see. -/
structure Frame (ρ : Renumbering) (s s' : Store) : Prop where
  type : ∀ t, ¬ρ.NewType t → s'.type t = s.type t
  object : ∀ o, ¬ρ.NewObject o → (s'.object o).outline = (s.object o).outline
  scope : ∀ x, ¬ρ.NewScope x → (s'.scope x).outline = (s.scope x).outline

/-- The second store is the first one with new numbers. New entities have been used alike. -/
structure Shifted (ρ : Renumbering) (s s' : Store) : Prop where
  types_start : ρ.types.start ≤ s.types.size
  types_size : s'.types.size = s.types.size + ρ.types.width
  objects_start : ρ.objects.start ≤ s.objects.size
  objects_size : s'.objects.size = s.objects.size + ρ.objects.width
  scopes_start : ρ.scopes.start ≤ s.scopes.size
  scopes_size : s'.scopes.size = s.scopes.size + ρ.scopes.width
  type : ∀ t, s'.type (ρ.type t) = ρ.ty (s.type t)
  object : ∀ o, (s'.object (ρ.object o)).outline = ρ.ob (s.object o).outline
  entity : ∀ o, ρ.NewObject o → (s'.object (ρ.object o)).entity = (s.object o).entity
  scope : ∀ x, (s'.scope (ρ.scope x)).outline = ρ.sc (s.scope x).outline
  children : ∀ x, ρ.NewScope x → (s'.scope (ρ.scope x)).children = (s.scope x).children.map ρ.scope
  packages : s'.packages = s.packages
  packageScope : ∀ p ∈ s.packages, ¬ρ.NewScope p.scope

namespace Grown

variable (hs : s.Grown ρ)
include hs

lemma not_newType_of_component (ht : ¬ρ.NewType t) (hk : k ∈ s.components t) : ¬ρ.NewType k := by
  rcases mem_append.mp hk with hpart | hmember
  · exact hs.oldPart t ht k hpart
  · obtain ⟨o, ho, htype⟩ := mem_filterMap.mp hmember
    exact hs.oldObject o (hs.oldMember t ht o ho) k htype

lemma index_le_of_occurs (h : s.Occurs ρ t u) : u.index ≤ t.index := by
  induction h with
  | self _ => exact le_rfl
  | part ht hk _ ih => exact le_trans ih (le_of_lt (hs.early _ ht _ hk))

lemma occurs_of_component (hk : k ∈ s.components t) (h : s.Occurs ρ k u) : s.Occurs ρ t u := by
  by_cases ht : ρ.NewType t
  · exact .part ht hk h
  · exact absurd h.newType (hs.not_newType_of_component ht hk)

lemma not_occurs_of_component (hk : k ∈ s.components t) : ¬s.Occurs ρ k t := by
  intro h
  by_cases ht : ρ.NewType t
  · exact not_lt.mpr (hs.index_le_of_occurs h) (hs.early t ht k hk)
  · exact hs.not_newType_of_component ht hk h.newType

lemma not_occurs_of_isNamed (ht : s.HasType t) (hn : s.isNamed t) : ¬s.Occurs ρ t u := by
  intro h
  have hunnamed := hs.unnamed t h.newType ht
  rw [isNamed] at hn
  simp [hunnamed] at hn

lemma apart_components (t : TypeId) : s.Apart ρ (s.components t) := by
  by_cases ht : ρ.NewType t
  · exact hs.apart t ht
  · exact pairwise_of_forall_mem_list fun a ha _ _ u hu =>
      absurd hu.newType (hs.not_newType_of_component ht ha)

end Grown

/-- A change that keeps types, and gives types only to new objects that are part of no type. -/
structure Extended (ρ : Renumbering) (s s' : Store) : Prop where
  size : s'.types.size = s.types.size
  type : ∀ t, s'.type t = s.type t
  value : ∀ o, ρ.NewObject o → (s.object o).isTypeName = false → (s'.object o).isTypeName = false
  typed : ∀ o t, (s.object o).type = some t → (s'.object o).type = some t
  old : ∀ o, ¬ρ.NewObject o → (s'.object o).type = (s.object o).type

lemma Extended.components_eq (h : s.Extended ρ s') (hs : s.Grown ρ) (t : TypeId) :
    s'.components t = s.components t := by
  unfold components componentsOf
  rw [h.type]
  congr 1
  refine filterMap_congr fun o ho => ?_
  by_cases ht : ρ.NewType t
  · obtain ⟨u, hu⟩ := isSome_iff_exists.mp (hs.member t ht o ho).2
    rw [hu, h.typed o u hu]
  · exact h.old o (hs.oldMember t ht o ho)

lemma Occurs.congr (h : s'.Occurs ρ t u) (hcomponents : ∀ t, s'.components t = s.components t) :
    s.Occurs ρ t u := by
  induction h with
  | self ht => exact .self ht
  | part ht hk _ ih => exact .part ht (hcomponents _ ▸ hk) ih

lemma Apart.congr (h : s.Apart ρ ts)
    (hcomponents : ∀ t, s'.components t = s.components t) : s'.Apart ρ ts :=
  h.imp fun hab u ha hb => hab u (ha.congr hcomponents) (hb.congr hcomponents)

lemma Grown.extended (hs : s.Grown ρ) (h : s.Extended ρ s')
    (hbound : ∀ x, ρ.NewScope x → ∀ b ∈ (s'.scope x).bindings,
      b ∈ (s.scope x).bindings ∨ ρ.NewObject b.2)
    (hchild : ∀ x, ρ.NewScope x → ∀ y ∈ (s'.scope x).children,
      y ∈ (s.scope x).children ∨ x.index < y.index) : s'.Grown ρ where
  unnamed t ht hin := by
    rw [h.type]
    exact hs.unnamed t ht (lt_of_lt_of_eq hin h.size)
  value o ho := h.value o ho (hs.value o ho)
  oldPart t ht u hu := hs.oldPart t ht u (h.type t ▸ hu)
  oldMember t ht o ho := hs.oldMember t ht o (h.type t ▸ ho)
  oldObject o ho t ht := hs.oldObject o ho t (h.old o ho ▸ ht)
  member t ht o ho := by
    obtain ⟨hnew, htyped⟩ := hs.member t ht o (h.type t ▸ ho)
    obtain ⟨u, hu⟩ := isSome_iff_exists.mp htyped
    exact ⟨hnew, by rw [h.typed o u hu]; rfl⟩
  results t g ht hg := hs.results t g ht (h.type t ▸ hg)
  bound x hx b hb := (hbound x hx b hb).elim (hs.bound x hx b) id
  child x hx y hy := (hchild x hx y hy).elim (hs.child x hx y) id
  early t ht k hk := hs.early t ht k (h.components_eq hs t ▸ hk)
  apart t ht := by
    rw [h.components_eq hs]
    exact (hs.apart t ht).congr (h.components_eq hs)

section

variable (hclosed : s.Closed false) (ha : s.Admits false a)

lemma Closed.hasType_of_component (hclosed : s.Closed false) (hk : k ∈ s.components t) : s.HasType k := by
  rcases mem_append.mp hk with hpart | hmember
  · exact hclosed.part t k hpart
  · obtain ⟨o, -, ho⟩ := mem_filterMap.mp hmember
    exact hclosed.object o k ho

lemma components_newType (t : TypeId) : (newType a s).2.components t =
    if t.index = s.types.size then s.componentsOf a else s.components t := by
  rw [components, type_newType]
  split <;> rfl

lemma components_newType_of_hasType (ht : s.HasType t) :
    (newType a s).2.components t = s.components t := by
  rw [components_newType, if_neg (ne_of_lt ht)]

include hclosed

lemma Occurs.of_newType (h : (Build.newType a s).2.Occurs ρ t u) (ht : s.HasType t) :
    s.Occurs ρ t u := by
  induction h with
  | self hnew => exact .self hnew
  | part hnew hk _ ih =>
    rw [components_newType_of_hasType ht] at hk
    exact .part hnew hk (ih (hclosed.hasType_of_component hk))

lemma Apart.newType (h : s.Apart ρ ts) (hts : ∀ t ∈ ts, s.HasType t) :
    (Build.newType a s).2.Apart ρ ts := by
  refine List.Pairwise.imp_of_mem (fun hx hy hxy u hu hv => ?_) h
  exact hxy u (hu.of_newType hclosed (hts _ hx)) (hv.of_newType hclosed (hts _ hy))

include ha

lemma hasType_of_mem_componentsOf (hk : k ∈ s.componentsOf a) : s.HasType k := by
  rcases mem_append.mp hk with hpart | hmember
  · exact ha.part k hpart
  · obtain ⟨o, -, ho⟩ := mem_filterMap.mp hmember
    exact hclosed.object o k ho

/-- A type may be added if no new type occurs in it twice, and its objects are new and have
types. -/
lemma Grown.newType (hs : s.Grown ρ) (hstart : ρ.types.start ≤ s.types.size)
    (hform : a.isComposed)
    (hmember : ∀ o ∈ a.objectRefs, ρ.NewObject o ∧ (s.object o).type.isSome)
    (hresults : ∀ g, a = .signature g → ρ.NewType g.results)
    (hapart : s.Apart ρ (s.componentsOf a)) : (Build.newType a s).2.Grown ρ where
  unnamed t ht hin := by
    rw [type_newType]
    split
    · exact Ty.isNamed_of_isComposed hform
    · rename_i hne
      refine hs.unnamed t ht ?_
      simp only [HasType, Build.newType, Array.size_push] at hin ⊢
      omega
  value := hs.value
  oldPart t ht u hu := by
    rw [type_newType, if_neg (by unfold NewType at ht; omega)] at hu
    exact hs.oldPart t ht u hu
  oldMember t ht o ho := by
    rw [type_newType, if_neg (by unfold NewType at ht; omega)] at ho
    exact hs.oldMember t ht o ho
  oldObject o ho t ht := hs.oldObject o ho t ht
  member t ht o ho := by
    rw [type_newType] at ho
    split at ho
    · exact hmember o ho
    · exact hs.member t ht o ho
  results t g ht hg := by
    rw [type_newType] at hg
    split at hg
    · exact hresults g hg
    · exact hs.results t g ht hg
  bound := hs.bound
  child := hs.child
  -- what a type is made of is there before it
  early t ht k hk := by
    rw [components_newType] at hk
    split at hk
    · rename_i heq
      rw [heq]
      exact hasType_of_mem_componentsOf hclosed ha hk
    · exact hs.early t ht k hk
  apart t ht := by
    rw [components_newType]
    split
    · exact hapart.newType hclosed fun k hk => hasType_of_mem_componentsOf hclosed ha hk
    · exact (hs.apart t ht).newType hclosed fun k hk => hclosed.hasType_of_component hk

end

lemma outline_bind (s : Store) (x : ScopeId) (o o' : ObjectId) :
    ((s.bind x o).2.object o').outline = (s.object o').outline :=
  view_bind (fun _ _ => rfl) ..

namespace Ordered

variable (hs : s.Ordered)
include hs

lemma newType (ha : a.isComposed) : (newType a s).2.Ordered where
  beneath t u h := by
    rw [type_newType] at h
    split at h
    · cases a <;> simp_all [Ty.beneath?, Ty.isComposed]
    · exact hs.beneath t u h
  term t i h := by
    rw [type_newType] at h
    split at h
    · cases h ▸ ha
    · exact hs.term t i h
  parent := hs.parent

lemma newScope {parent : Option ScopeId} {isFunc : Bool} (hparent : ∀ p ∈ parent, s.HasScope p) :
    (newScope parent start stop comment isFunc s).2.Ordered where
  beneath t u h := hs.beneath t u (by simpa [type] using h)
  term t i h := hs.term t i (by simpa [type] using h)
  parent x p h := by
    rw [parent_newScope] at h
    split at h
    · rename_i heq
      rw [heq]
      exact hparent p h
    · exact hs.parent x p h

lemma bind : (s.bind x o).2.Ordered where
  beneath t u h := hs.beneath t u (by simpa [type] using h)
  term t i h := hs.term t i (by simpa [type] using h)
  parent x p h := hs.parent x p (by simpa using h)

lemma keep (htype : ∀ t, s'.type t = s.type t) (hscope : ∀ x, s'.scope x = s.scope x) :
    s'.Ordered where
  beneath t u h := hs.beneath t u (htype t ▸ h)
  term t i h := hs.term t i (htype t ▸ h)
  parent x p h := hs.parent x p (hscope x ▸ h)

end Ordered

namespace Frame

lemma refl (ρ : Renumbering) (s : Store) : s.Frame ρ s :=
  ⟨fun _ _ => rfl, fun _ _ => rfl, fun _ _ => rfl⟩

lemma trans (h : s₀.Frame ρ s) (h' : s.Frame ρ s') : s₀.Frame ρ s' :=
  ⟨fun t ht => (h'.type t ht).trans (h.type t ht),
    fun o ho => (h'.object o ho).trans (h.object o ho),
    fun x hx => (h'.scope x hx).trans (h.scope x hx)⟩

lemma newType (hstart : ρ.types.start ≤ s.types.size) : s.Frame ρ (newType a s).2 where
  type t ht := by
    rw [type_newType, if_neg (by unfold NewType at ht; omega)]
  object _ _ := rfl
  scope _ _ := rfl

lemma newObject (hstart : ρ.objects.start ≤ s.objects.size) :
    s.Frame ρ (newObject ob s).2 where
  type _ _ := rfl
  object o ho := by
    rw [object_newObject, if_neg (by unfold NewObject at ho; omega)]
  scope _ _ := rfl

lemma newScope {parent : Option ScopeId} {isFunc : Bool}
    (hparent : ∀ p ∈ parent, s.HasScope p) (hstart : ρ.scopes.start ≤ s.scopes.size) :
    s.Frame ρ (newScope parent start stop comment isFunc s).2 where
  type t _ := by simp [Store.type]
  object o _ := by simp [Store.object]
  scope x hx := by
    rw [scope_newScope hparent, if_neg (by unfold NewScope at hx; omega)]
    split <;> rfl

lemma bind (hx : ρ.NewScope x) : s.Frame ρ (s.bind x o).2 where
  type t _ := by simp [Store.type]
  object o' _ := outline_bind ..
  scope y hy := by
    rw [scope_bind, if_neg]
    rintro ⟨-, rfl, -⟩
    exact hy hx

/-- A change of an object that is new, or that cannot be seen. -/
lemma modifyObject (h : ρ.NewObject o ∨ ∀ ob, (f ob).outline = ob.outline) :
    s.Frame ρ (s.modifyObject o f) where
  type _ _ := rfl
  object o' ho' := by
    rw [object_modifyObject]
    split
    · rename_i heq
      rcases h with hnew | hsame
      · exact absurd (heq.1 ▸ hnew) ho'
      · exact hsame _
    · rfl
  scope _ _ := rfl

end Frame

namespace Extended

lemma newObject (hstart : ρ.objects.start ≤ s.objects.size) (hob : ob.isTypeName = false) :
    s.Extended ρ (newObject ob s).2 where
  size := rfl
  type _ := rfl
  value o _ hold := by
    rw [object_newObject]
    split
    · exact hob
    · exact hold
  typed _ _ h := (Step.newObject s ob).object_type h
  old o ho := by
    rw [object_newObject, if_neg (by unfold NewObject at ho; omega)]

lemma newScope {parent : Option ScopeId} {isFunc : Bool} :
    s.Extended ρ (newScope parent start stop comment isFunc s).2 where
  size := by simp
  type t := by simp [Store.type]
  value o _ hold := by simpa [Store.object] using hold
  typed _ _ h := (Step.newScope s parent start stop comment isFunc).object_type h
  old o _ := by simp [Store.object]

lemma bind : s.Extended ρ (s.bind x o).2 where
  size := by simp
  type t := by simp [Store.type]
  value o' _ hold := by
    have hentity := congrArg entity (outline_bind s x o o')
    exact (bare_eq hentity).2.2.1.trans hold
  typed _ _ h := (Step.bind s x o).object_type h
  old o _ := by simp

lemma modifyObject (hstep : s.Step (s.modifyObject o f))
    (hname : ∀ ob, (f ob).isTypeName = ob.isTypeName)
    (h : ρ.NewObject o ∨ ∀ ob, (f ob).type = ob.type) : s.Extended ρ (s.modifyObject o f) where
  size := rfl
  type _ := rfl
  value o' _ hold := by
    rw [object_modifyObject]
    split
    · exact (hname _).trans hold
    · exact hold
  typed _ _ h := hstep.object_type h
  old o' ho' := by
    rw [object_modifyObject]
    split
    · rename_i heq
      rcases h with hnew | hsame
      · exact absurd (heq.1 ▸ hnew) ho'
      · exact hsame _
    · rfl

end Extended

namespace Shifted

variable (h : s.Shifted ρ s')
include h

lemma hasObject (o : ObjectId) : s'.HasObject (ρ.object o) ↔ s.HasObject o := by
  unfold HasObject
  rw [h.objects_size]
  exact Gap.skip_lt_add h.objects_start

lemma hasScope (x : ScopeId) : s'.HasScope (ρ.scope x) ↔ s.HasScope x := by
  unfold HasScope
  rw [h.scopes_size]
  exact Gap.skip_lt_add h.scopes_start

lemma index_type : (ρ.type t).index = s'.types.size ↔ t.index = s.types.size := by
  rw [h.types_size]
  exact Gap.skip_eq_add h.types_start

lemma index_object : (ρ.object o).index = s'.objects.size ↔ o.index = s.objects.size := by
  rw [h.objects_size]
  exact Gap.skip_eq_add h.objects_start

lemma index_scope : (ρ.scope x).index = s'.scopes.size ↔ x.index = s.scopes.size := by
  rw [h.scopes_size]
  exact Gap.skip_eq_add h.scopes_start

lemma nextType : (⟨s'.types.size⟩ : TypeId) = ρ.type ⟨s.types.size⟩ := by
  rw [Renumbering.type, Gap.skip_of_le h.types_start, h.types_size]

lemma nextObject : (⟨s'.objects.size⟩ : ObjectId) = ρ.object ⟨s.objects.size⟩ := by
  rw [Renumbering.object, Gap.skip_of_le h.objects_start, h.objects_size]

lemma nextScope : (⟨s'.scopes.size⟩ : ScopeId) = ρ.scope ⟨s.scopes.size⟩ := by
  rw [Renumbering.scope, Gap.skip_of_le h.scopes_start, h.scopes_size]

lemma name (o : ObjectId) : (s'.object (ρ.object o)).name = (s.object o).name :=
  (congrArg Object.name (h.object o) :)

lemma span (o : ObjectId) : (s'.object (ρ.object o)).span = (s.object o).span :=
  (congrArg Object.span (h.object o) :)

lemma package (o : ObjectId) : (s'.object (ρ.object o)).package = (s.object o).package :=
  (congrArg Object.package (h.object o) :)

lemma objectType (o : ObjectId) : (s'.object (ρ.object o)).type = (s.object o).type.map ρ.type :=
  (congrArg Object.type (h.object o) :)

lemma bare (o : ObjectId) : (s'.object (ρ.object o)).entity.bare = (s.object o).entity.bare :=
  (congrArg Object.entity (h.object o) :)

lemma isVar (o : ObjectId) : (s'.object (ρ.object o)).isVar = (s.object o).isVar :=
  (bare_eq (h.bare o)).1

lemma isFunc (o : ObjectId) : (s'.object (ρ.object o)).isFunc = (s.object o).isFunc :=
  (bare_eq (h.bare o)).2.1

lemma isTypeName (o : ObjectId) : (s'.object (ρ.object o)).isTypeName = (s.object o).isTypeName :=
  (bare_eq (h.bare o)).2.2.1

lemma isEmbedded (o : ObjectId) : (s'.object (ρ.object o)).isEmbedded = (s.object o).isEmbedded :=
  (bare_eq (h.bare o)).2.2.2.1

lemma hasPointerReceiver (o : ObjectId) :
    (s'.object (ρ.object o)).hasPointerReceiver = (s.object o).hasPointerReceiver :=
  (bare_eq (h.bare o)).2.2.2.2.1

lemma mode (o : ObjectId) : (s'.object (ρ.object o)).mode = (s.object o).mode :=
  (bare_eq (h.bare o)).2.2.2.2.2

lemma isBlank (o : ObjectId) : (s'.object (ρ.object o)).isBlank = (s.object o).isBlank := by
  rw [Object.isBlank, h.name]
  rfl

lemma parent (x : ScopeId) : (s'.scope (ρ.scope x)).parent = (s.scope x).parent.map ρ.scope :=
  (congrArg Scope.parent (h.scope x) :)

lemma bindings (x : ScopeId) : (s'.scope (ρ.scope x)).bindings =
    (s.scope x).bindings.map fun b => (b.1, ρ.object b.2) :=
  (congrArg Scope.bindings (h.scope x) :)

lemma isFuncScope (x : ScopeId) : (s'.scope (ρ.scope x)).isFunc = (s.scope x).isFunc :=
  (congrArg Scope.isFunc (h.scope x) :)

lemma find? (x : ScopeId) (name : String) :
    (s'.scope (ρ.scope x)).find? name = ((s.scope x).find? name).map ρ.object := by
  unfold Scope.find?
  rw [h.bindings]
  induction (s.scope x).bindings with
  | nil => rfl
  | cons b bs ih =>
    obtain ⟨key, o⟩ := b
    cases hb : name == key <;> simp [lookup_cons, hb, ih]

lemma newType : (Build.newType a s).2.Shifted ρ (Build.newType (ρ.ty a) s').2 where
  __ := h
  types_start := by
    have := h.types_start
    simp only [Build.newType, Array.size_push]
    omega
  types_size := by
    have := h.types_size
    simp only [Build.newType, Array.size_push]
    omega
  type t := by
    simp only [type_newType, h.index_type, h.type]
    split <;> rfl

lemma newObject (hob : ob'.outline = ρ.ob ob.outline) (hentity : ob'.entity = ob.entity) :
    (Build.newObject ob s).2.Shifted ρ (Build.newObject ob' s').2 where
  __ := h
  objects_start := by
    have := h.objects_start
    simp only [Build.newObject, Array.size_push]
    omega
  objects_size := by
    have := h.objects_size
    simp only [Build.newObject, Array.size_push]
    omega
  object o := by
    simp only [object_newObject, h.index_object]
    split
    · exact hob
    · exact h.object o
  entity o ho := by
    simp only [object_newObject, h.index_object]
    split
    · exact hentity
    · exact h.entity o ho

lemma newScope {parent : Option ScopeId} {isFunc : Bool} (hparent : ∀ p ∈ parent, s.HasScope p) :
    (newScope parent start stop comment isFunc s).2.Shifted ρ
      (newScope (parent.map ρ.scope) start stop comment isFunc s').2 := by
  have hparent' : ∀ p ∈ parent.map ρ.scope, s'.HasScope p := by
    intro p hp
    obtain ⟨q, hq, rfl⟩ := map_eq_some_iff.mp hp
    exact (h.hasScope q).mpr (hparent q hq)
  -- the universe keeps its number, and lists no children
  have haround : ∀ x, parent.map ρ.scope = some (ρ.scope x) ∧ ρ.scope x ≠ universeScope ↔
      parent = some x ∧ x ≠ universeScope := by
    intro x
    simp
  exact {
    types_start := by simpa using h.types_start
    types_size := by simpa using h.types_size
    objects_start := by simpa using h.objects_start
    objects_size := by simpa using h.objects_size
    scopes_start := by
      have := h.scopes_start
      rw [newScope_scopes_size]
      omega
    scopes_size := by
      have := h.scopes_size
      rw [newScope_scopes_size, newScope_scopes_size]
      omega
    type := by simpa [Store.type] using h.type
    object := by simpa [Store.object] using h.object
    entity := by simpa [Store.object] using h.entity
    scope := fun x => by
      simp only [scope_newScope hparent, scope_newScope hparent', h.index_scope, haround]
      split
      · rfl
      · split <;> exact h.scope x
    children := fun x hx => by
      simp only [scope_newScope hparent, scope_newScope hparent', h.index_scope, haround]
      split
      · rfl
      · split
        · rw [h.children x hx, h.nextScope, map_append]
          rfl
        · exact h.children x hx
    packages := by
      rw [(Step.newScope ..).packages_eq, (Step.newScope ..).packages_eq]
      exact h.packages
    packageScope := by
      rw [(Step.newScope ..).packages_eq]
      exact h.packageScope }

lemma bind_fst (x : ScopeId) (o : ObjectId) :
    (s'.bind (ρ.scope x) (ρ.object o)).1 = (s.bind x o).1.map ρ.object := by
  simp only [bind, h.name, h.find?]
  cases (s.scope x).find? (s.object o).name <;> rfl

lemma bind (x : ScopeId) (o : ObjectId) :
    (s.bind x o).2.Shifted ρ (s'.bind (ρ.scope x) (ρ.object o)).2 := by
  -- a name is free on both sides or on neither
  have hfree : ∀ y, (s'.scope (ρ.scope x)).find? (s'.object (ρ.object o)).name = none ∧
      ρ.scope x = ρ.scope y ∧ s'.HasScope (ρ.scope x) ↔
      (s.scope x).find? (s.object o).name = none ∧ x = y ∧ s.HasScope x := by
    intro y
    rw [h.name, h.find?, h.hasScope, map_eq_none_iff, scope_inj]
  have hentity : ∀ (s : Store) x o o', ((s.bind x o).2.object o').entity = (s.object o').entity := by
    intro s x o o'
    simp only [Store.bind]
    split
    · rfl
    · rw [object_modifyObject]
      split <;> rfl
  exact {
    types_start := by simpa using h.types_start
    types_size := by simpa using h.types_size
    objects_start := by simpa [bind_objects_size] using h.objects_start
    objects_size := by simpa [bind_objects_size] using h.objects_size
    scopes_start := by simpa [bind_scopes_size] using h.scopes_start
    scopes_size := by simpa [bind_scopes_size] using h.scopes_size
    type := by simpa [Store.type] using h.type
    object := fun o' => by
      rw [outline_bind, outline_bind]
      exact h.object o'
    entity := fun o' ho' => by
      rw [hentity, hentity]
      exact h.entity o' ho'
    scope := fun y => by
      simp only [scope_bind, hfree]
      split
      · have hbindings := h.bindings y
        have hscope := h.scope y
        simp only [Scope.outline, sc, Scope.mk.injEq] at hscope ⊢
        simp [hbindings, hscope, h.name]
      · exact h.scope y
    children := fun y hy => by
      simp only [children_bind]
      exact h.children y hy
    packages := by
      rw [(Step.bind ..).packages_eq, (Step.bind ..).packages_eq]
      exact h.packages
    packageScope := by
      rw [(Step.bind ..).packages_eq]
      exact h.packageScope }

/-- Changes of an object that match keep a store shifted. -/
lemma modifyObject (houtline : ∀ ob ob', ob'.outline = ρ.ob ob.outline →
      (f' ob').outline = ρ.ob (f ob).outline)
    (hentity : ρ.NewObject o → ∀ ob ob', ob'.entity = ob.entity → (f' ob').entity = (f ob).entity) :
    (s.modifyObject o f).Shifted ρ (s'.modifyObject (ρ.object o) f') := by
  have hat : ∀ o', ρ.object o = ρ.object o' ∧ (ρ.object o).index < s'.objects.size ↔
      o = o' ∧ o.index < s.objects.size := by
    intro o'
    rw [object_inj]
    exact and_congr_right fun _ => h.hasObject o
  exact {
    h with
    objects_start := by simpa [Store.modifyObject] using h.objects_start
    objects_size := by simpa [Store.modifyObject] using h.objects_size
    object := fun o' => by
      simp only [object_modifyObject, hat]
      split
      · exact houtline _ _ (h.object o')
      · exact h.object o'
    entity := fun o' ho' => by
      simp only [object_modifyObject, hat]
      split
      · rename_i heq
        exact hentity (heq.1 ▸ ho') _ _ (h.entity o' ho')
      · exact h.entity o' ho' }

end Shifted

end Store

end GoCheck
