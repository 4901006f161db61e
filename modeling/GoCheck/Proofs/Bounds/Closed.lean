import GoCheck.Proofs.Errors.Clean

/-!
# Closed stores

A store is closed if every number in it is that of an entity which exists. Whatever it is asked for
exists as well, and steps made with the numbers of existing entities keep it closed.
-/

namespace GoCheck

open Build Store

variable {strict : Bool} {ty : Ty}

mutual

/-- Whether every variadic signature in a type has a parameter, if that is asked for strictly. -/
def TypeExpr.collects (strict : Bool) : TypeExpr → Bool
  | .name .. => true
  | .pointer _ elem | .slice _ elem | .chan _ _ elem => elem.collects strict
  | .map _ key value => key.collects strict && value.collects strict
  | .func _ sig => sigCollects strict sig

/-- The same for a signature, itself included. -/
def sigCollects (strict : Bool) : FuncSigOf TypeExpr → Bool
  | ⟨params, results, variadic, _⟩ =>
    (!strict || !variadic || !params.isEmpty) && paramsCollect strict params &&
      paramsCollect strict results

def paramsCollect (strict : Bool) : List (ParamOf TypeExpr) → Bool
  | [] => true
  | p :: ps => paramCollects strict p && paramsCollect strict ps

def paramCollects (strict : Bool) : ParamOf TypeExpr → Bool
  | ⟨_, type, _⟩ => type.collects strict

end

mutual

/-- Whether every variadic signature in an expression has a parameter, if that is asked for
strictly. -/
def Expr.collects (strict : Bool) : Expr → Bool
  | .ident .. | .lit .. => true
  | .paren _ e | .selector _ e _ | .unary _ _ e | .receive _ e => e.collects strict
  | .index _ e i => e.collects strict && i.collects strict
  | .call _ f args _ => f.collects strict && exprsCollect strict args
  | .assert _ e type => e.collects strict && type.collects strict
  | .funcLit _ sig body => sigCollects strict sig && blockCollects strict body

def exprsCollect (strict : Bool) : List Expr → Bool
  | [] => true
  | e :: es => e.collects strict && exprsCollect strict es

def specsCollect (strict : Bool) : List (SpecOf Expr) → Bool
  | [] => true
  | spec :: specs => specCollects strict spec && specsCollect strict specs

def specCollects (strict : Bool) : SpecOf Expr → Bool
  | ⟨_, type, values, _⟩ => type.all (TypeExpr.collects strict) && exprsCollect strict values

/-- The same for a statement. -/
def Stmt.collects (strict : Bool) : Stmt → Bool
  | .empty _ => true
  | .block _ body => blockCollects strict body
  | .var _ specs | .const _ specs => specsCollect strict specs
  | .short _ lhs rhs | .assign _ lhs rhs => exprsCollect strict lhs && exprsCollect strict rhs
  | .ret _ values => exprsCollect strict values
  | .expr _ e => e.collects strict

def blockCollects (strict : Bool) : BlockOf Stmt → Bool
  | ⟨stmts, _⟩ => stmtsCollect strict stmts

def stmtsCollect (strict : Bool) : List Stmt → Bool
  | [] => true
  | s :: ss => s.collects strict && stmtsCollect strict ss

end

theorem specCollects_iff : specCollects strict spec ↔
    (∀ e ∈ spec.type, e.collects strict) ∧ exprsCollect strict spec.values := by
  obtain ⟨names, _ | e, values, span⟩ := spec <;> simp [specCollects]

theorem specsCollect_iff :
    specsCollect strict specs ↔ ∀ spec ∈ specs, specCollects strict spec := by
  induction specs with
  | nil => simp [specsCollect]
  | cons spec specs ih => simp [specsCollect, ih]

mutual

theorem TypeExpr.collects_false (e : TypeExpr) : e.collects false := by
  cases e with
  | name span i => rfl
  | pointer span elem | slice span elem | chan span dir elem => exact elem.collects_false
  | map span key value => simp [TypeExpr.collects, key.collects_false, value.collects_false]
  | func span sig => exact sigCollects_false sig

theorem sigCollects_false (sig : FuncSigOf TypeExpr) : sigCollects false sig := by
  cases sig with
  | mk params results variadic span =>
    simp [sigCollects, paramsCollect_false params, paramsCollect_false results]

theorem paramsCollect_false (ps : List (ParamOf TypeExpr)) : paramsCollect false ps := by
  cases ps with
  | nil => rfl
  | cons p ps => simp [paramsCollect, paramCollects_false p, paramsCollect_false ps]

theorem paramCollects_false (p : ParamOf TypeExpr) : paramCollects false p := by
  cases p with
  | mk name type span => exact type.collects_false

end

mutual

theorem Expr.collects_false (e : Expr) : e.collects false := by
  cases e with
  | ident n i => rfl
  | lit n kind raw => rfl
  | paren n e | selector n e sel | unary n op e | receive n e => exact e.collects_false
  | index n e i => simp [Expr.collects, e.collects_false, i.collects_false]
  | call n f args spread => simp [Expr.collects, f.collects_false, exprsCollect_false args]
  | assert n e type => simp [Expr.collects, e.collects_false, type.collects_false]
  | funcLit n sig body => simp [Expr.collects, sigCollects_false sig, blockCollects_false body]

theorem exprsCollect_false (es : List Expr) : exprsCollect false es := by
  cases es with
  | nil => rfl
  | cons e es => simp [exprsCollect, e.collects_false, exprsCollect_false es]

theorem specsCollect_false (specs : List (SpecOf Expr)) : specsCollect false specs := by
  cases specs with
  | nil => rfl
  | cons spec specs => simp [specsCollect, specCollects_false spec, specsCollect_false specs]

theorem specCollects_false (spec : SpecOf Expr) : specCollects false spec := by
  cases spec with
  | mk names type values span =>
    cases type <;> simp [specCollects, TypeExpr.collects_false, exprsCollect_false values]

theorem Stmt.collects_false (s : Stmt) : s.collects false := by
  cases s with
  | empty span => rfl
  | block span body => exact blockCollects_false body
  | var span specs | const span specs => exact specsCollect_false specs
  | short span lhs rhs => simp [Stmt.collects, exprsCollect_false lhs, exprsCollect_false rhs]
  | assign span lhs rhs => simp [Stmt.collects, exprsCollect_false lhs, exprsCollect_false rhs]
  | ret span values => exact exprsCollect_false values
  | expr span e => exact e.collects_false

theorem blockCollects_false (body : BlockOf Stmt) : blockCollects false body := by
  cases body with
  | mk stmts span => exact stmtsCollect_false stmts

theorem stmtsCollect_false (ss : List Stmt) : stmtsCollect false ss := by
  cases ss with
  | nil => rfl
  | cons s ss => simp [stmtsCollect, s.collects_false, stmtsCollect_false ss]

end

/-! ## Stores -/

variable {parent : Option ScopeId} {start : Nat} {comment : String} {isFunc : Bool}

namespace Ty

/-- All types that a type refers to. -/
def typeRefs : Ty → List TypeId
  | array _ elem | slice elem | pointer elem | chan _ elem => [elem]
  | map key elem => [key, elem]
  | signature sig => sig.params :: sig.results :: sig.typeParams
  | interface i => i.terms.getD []
  | named n => [n.underlying]
  | typeParam p => [p.bound]
  | basic _ | struct _ | tuple _ => []

/-- All objects that a type refers to. -/
def objectRefs : Ty → List ObjectId
  | struct os | tuple os => os
  | interface i => i.methods
  | named n => n.object :: n.methods
  | typeParam p => [p.object]
  | _ => []

lemma mem_typeRefs_of_mem_typeParts (h : u ∈ ty.typeParts) : u ∈ ty.typeRefs := by
  cases ty with
  | signature sig =>
    rw [typeParts, List.mem_pair] at h
    rcases h with rfl | rfl <;> simp [typeRefs]
  | interface i => cases h
  | _ => exact h

lemma mem_objectRefs_of_mem_objectParts (h : o ∈ ty.objectParts) : o ∈ ty.objectRefs := by
  cases ty with
  | named n => exact List.mem_cons_of_mem _ h
  | typeParam p => cases h
  | _ => exact h

end Ty

namespace Store

variable {s s' : Store} {x : ScopeId} {p : PackageId}
variable {strict : Bool}

/-- The type is one of the store. -/
def HasType (s : Store) (t : TypeId) : Prop := t.index < s.types.size

/-- The scope is one of the store. -/
def HasScope (s : Store) (x : ScopeId) : Prop := x.index < s.scopes.size

def HasPackage (s : Store) (p : PackageId) : Prop := p.index < s.packages.size

instance (s : Store) (t : TypeId) : Decidable (s.HasType t) := inferInstanceAs (Decidable (_ < _))

instance (s : Store) (o : ObjectId) : Decidable (s.HasObject o) :=
  inferInstanceAs (Decidable (_ < _))

instance (s : Store) (x : ScopeId) : Decidable (s.HasScope x) := inferInstanceAs (Decidable (_ < _))

instance (s : Store) (p : PackageId) : Decidable (s.HasPackage p) :=
  inferInstanceAs (Decidable (_ < _))

/-- All numbers in the store are those of existing entities; strictly, a variadic signature has a
parameter. -/
structure Closed (s : Store) (strict : Bool) : Prop where
  predeclared : s.HasType .any
  part : ∀ t, ∀ u ∈ (s.type t).typeRefs, s.HasType u
  member : ∀ t, ∀ o ∈ (s.type t).objectRefs, s.HasObject o
  object : ∀ o, ∀ t ∈ (s.object o).type, s.HasType t
  home : ∀ o, ∀ x ∈ (s.object o).parent, s.HasScope x
  parent : ∀ x, ∀ p ∈ (s.scope x).parent, s.HasScope p
  child : ∀ x, ∀ y ∈ (s.scope x).children, s.HasScope y
  bound : ∀ x, ∀ b ∈ (s.scope x).bindings, s.HasObject b.2
  package : ∀ p ∈ s.packages, s.HasScope p.scope
  variadic : strict = true →
    ∀ t sig, s.type t = .signature sig → sig.variadic = true → s.tupleVars sig.params ≠ []

namespace Closed

variable (hs : s.Closed strict)
include hs

lemma hasType_basic (k : BasicKind) : s.HasType (.basic k) := by
  refine lt_trans ?_ hs.predeclared
  cases k <;> decide

lemma hasType_noValue : s.HasType .noValue := lt_trans (by decide) hs.predeclared

lemma hasType_error : s.HasType .error := lt_trans (by decide) hs.predeclared

lemma hasScope_package (hp : s.HasPackage p) : s.HasScope (s.package p).scope := by
  unfold Store.package
  rw [Array.getElem?_eq_getElem hp]
  exact hs.package _ (Array.getElem_mem hp)

lemma hasType_underlying (ht : s.HasType t) : s.HasType (s.underlying t) :=
  underlyingWithin_keep (fun t u h =>
    hs.part t u (Ty.mem_typeRefs_of_mem_typeParts (Ty.mem_typeParts_of_beneath? h))) _ ht

lemma hasObject_of_mem_objectParts (h : o ∈ (s.type t).objectParts) : s.HasObject o :=
  hs.member t o (Ty.mem_objectRefs_of_mem_objectParts h)

lemma hasObject_of_mem_tupleVars (h : o ∈ s.tupleVars t) : s.HasObject o :=
  hs.hasObject_of_mem_objectParts (mem_objectParts_of_mem_tupleVars h)

lemma hasType_defaultType (ht : s.HasType t) : s.HasType (s.defaultType t) := by
  unfold defaultType
  split
  · split
    · exact hs.hasType_basic _
    · exact ht
  · exact ht

lemma hasObject_of_find? (h : (s.scope x).find? name = some o) : s.HasObject o :=
  hs.bound x _ (mem_bindings_of_find? h)

lemma hasObject_of_select
    (h : s.select t addressable name = .entry o path indirect) : s.HasObject o := by
  obtain ⟨u, ho⟩ := exists_mem_objectParts_of_select h
  exact hs.hasObject_of_mem_objectParts ho

end Closed

/-- A type that may be added: what it refers to exists; strictly, a variadic signature has a
parameter. -/
structure Admits (s : Store) (strict : Bool) (ty : Ty) : Prop where
  part : ∀ u ∈ ty.typeRefs, s.HasType u
  member : ∀ o ∈ ty.objectRefs, s.HasObject o
  variadic : strict = true →
    ∀ sig, ty = .signature sig → sig.variadic = true → s.tupleVars sig.params ≠ []

/-- A step of the store that is made with the numbers of existing entities. -/
inductive SafeStep (strict : Bool) : Store → Store → Prop where
  | newType (s : Store) {ty : Ty} : ty.isComposed → s.Admits strict ty →
      SafeStep strict s (newType ty s).2
  | newObject (s : Store) {ob : Object} : ob.parent = none → (∀ t ∈ ob.type, s.HasType t) →
      SafeStep strict s (newObject ob s).2
  | newScope (s : Store) {parent : Option ScopeId} (start stop : Nat) (comment : String)
      (isFunc : Bool) : (∀ p ∈ parent, s.HasScope p) →
      SafeStep strict s (newScope parent start stop comment isFunc s).2
  | bind (s : Store) {x : ScopeId} {o : ObjectId} : s.HasScope x → s.HasObject o →
      SafeStep strict s (s.bind x o).2
  | setVisible (s : Store) {o : ObjectId} (visibleFrom : Nat) : s.HasObject o →
      SafeStep strict s (s.modifyObject o ({ · with visibleFrom }))
  | setUsed (s : Store) {o : ObjectId} (used : Bool) : s.HasObject o →
      SafeStep strict s (s.modifyObject o (·.setUsed used))
  | giveType (s : Store) {o : ObjectId} {t : TypeId} : s.HasObject o → s.HasType t →
      SafeStep strict s (s.modifyObject o (·.giveType t))
  | setValue (s : Store) {o : ObjectId} (v : Constant) : s.HasObject o →
      SafeStep strict s (s.modifyObject o (·.setValue v))

lemma SafeStep.step (h : s.SafeStep strict s') : s.Step s' := by
  cases h with
  | newType hnamed _ => exact .newType _ _ hnamed
  | newObject _ _ => exact .newObject _ _
  | newScope _ => exact .newScope ..
  | bind _ _ => exact .bind ..
  | setVisible _ => exact .setVisible ..
  | setUsed _ => exact .setUsed ..
  | giveType _ _ => exact .giveType ..
  | setValue _ => exact .setValue ..

lemma HasType.step (ht : s.HasType t) (h : s.Step s') : s'.HasType t :=
  lt_of_lt_of_le ht h.types_size_le

lemma HasObject.step (ho : s.HasObject o) (h : s.Step s') : s'.HasObject o :=
  lt_of_lt_of_le ho h.objects_size_le

lemma HasScope.step (hx : s.HasScope x) (h : s.Step s') : s'.HasScope x :=
  lt_of_lt_of_le hx h.scopes_size_le

lemma Step.packages_eq (h : s.Step s') : s'.packages = s.packages := by
  cases h with
  | newScope parent start stop comment isFunc =>
    simp only [Build.newScope]
    split
    · split <;> rfl
    · rfl
  | bind c o =>
    simp only [Store.bind]
    split <;> rfl
  | _ => rfl

lemma Step.tupleVars_eq (h : s.Step s') (ht : s.HasType t) : s'.tupleVars t = s.tupleVars t := by
  rw [tupleVars, tupleVars, h.type_eq ht]

lemma children_bind : ((s.bind x o).2.scope y).children = (s.scope y).children := by
  simp only [bind]
  split
  · rfl
  · change ((s.modifyScope x _).scope y).children = _
    rw [scope_modifyScope, apply_ite Scope.children, ite_self]

/-- What a new scope does: it is there, and is listed around it unless that is outermost. -/
lemma scope_newScope (hparent : ∀ p ∈ parent, s.HasScope p) (x : ScopeId) :
    (newScope parent start stop comment isFunc s).2.scope x = if x.index = s.scopes.size then
        { parent, start, stop, comment := if isFunc then "function" else comment, isFunc }
      else if parent = some x ∧ x ≠ universeScope then
        { s.scope x with children := (s.scope x).children ++ [⟨s.scopes.size⟩] }
      else s.scope x := by
  have hpush : ∀ sc, ({ s with scopes := s.scopes.push sc } : Store).scope x =
      if x.index = s.scopes.size then sc else s.scope x := by
    intro sc
    simp only [scope, Array.getElem?_push]
    split <;> rfl
  simp only [newScope]
  cases hp : parent with
  | none => simpa using hpush _
  | some p =>
    have hlt : p.index < s.scopes.size := hparent p hp
    dsimp only
    by_cases hu : p = universeScope
    · rw [if_pos hu]
      refine (hpush _).trans ?_
      split
      · rfl
      · rw [if_neg]
        rintro ⟨heq, hne⟩
        exact hne (Option.some.inj heq ▸ hu)
    · rw [if_neg hu]
      dsimp only
      rw [scope_modifyScope, hpush]
      by_cases hpx : p = x
      · subst hpx
        rw [if_pos ⟨rfl, by simp only [Array.size_push]; omega⟩, if_neg (ne_of_lt hlt),
          if_neg (ne_of_lt hlt), if_pos ⟨rfl, hu⟩]
      · rw [if_neg fun h => hpx h.1]
        split
        · rfl
        · rw [if_neg fun h => hpx (Option.some.inj h.1)]

/-- A new scope is listed by the scope around it alone. -/
lemma children_newScope (hparent : ∀ p ∈ parent, s.HasScope p) (x : ScopeId) :
    ((newScope parent start stop comment isFunc s).2.scope x).children =
      if parent = some x ∧ x ≠ universeScope then (s.scope x).children ++ [⟨s.scopes.size⟩]
      else (s.scope x).children := by
  rw [scope_newScope hparent]
  split
  · rename_i hx
    have hnot : ¬(parent = some x ∧ x ≠ universeScope) :=
      fun h => ne_of_lt (hparent x h.1) hx
    rw [if_neg hnot, scope_of_size_le (le_of_eq hx.symm)]
    rfl
  · split <;> rfl

lemma scope_bind (s : Store) (x y : ScopeId) (o : ObjectId) : (s.bind x o).2.scope y =
      if (s.scope x).find? (s.object o).name = none ∧ x = y ∧ s.HasScope x then
        { s.scope y with bindings := (s.scope y).bindings ++ [((s.object o).name, o)] }
      else s.scope y := by
  simp only [bind]
  split
  · simp_all
  · rename_i hfind
    change (s.modifyScope x _).scope y = _
    rw [scope_modifyScope]
    simp only [hfind, true_and]
    rfl

lemma object_parent_bind (h : y ∈ ((s.bind x o).2.object o').parent) :
    y ∈ (s.object o').parent ∨ y = x := by
  simp only [bind] at h
  split at h
  · exact .inl h
  · rw [object_modifyObject] at h
    split at h
    · cases hp : (s.object o').parent with
      | none | some q => simp_all [modifyScope, object]
    · exact .inl h

namespace Closed

variable (hs : s.Closed strict)
include hs

/-- A step keeps a store closed if what it adds exists afterwards. -/
lemma of_step (h : s.Step s') (hpart : ∀ t, s'.type t = s.type t ∨ s'.Admits strict (s'.type t))
    (hobject : ∀ o, ∀ t ∈ (s'.object o).type, t ∈ (s.object o).type ∨ s'.HasType t)
    (hhome : ∀ o, ∀ x ∈ (s'.object o).parent, x ∈ (s.object o).parent ∨ s'.HasScope x)
    (hparent : ∀ x, ∀ p ∈ (s'.scope x).parent, p ∈ (s.scope x).parent ∨ s'.HasScope p)
    (hchild : ∀ x, ∀ y ∈ (s'.scope x).children, y ∈ (s.scope x).children ∨ s'.HasScope y)
    (hbound : ∀ x, ∀ b ∈ (s'.scope x).bindings, b ∈ (s.scope x).bindings ∨ s'.HasObject b.2) :
    s'.Closed strict where
  predeclared := hs.predeclared.step h
  part t u hu := by
    rcases hpart t with hsame | hnew
    · exact (hs.part t u (hsame ▸ hu)).step h
    · exact hnew.part u hu
  member t o ho := by
    rcases hpart t with hsame | hnew
    · exact (hs.member t o (hsame ▸ ho)).step h
    · exact hnew.member o ho
  object o t ht := (hobject o t ht).elim (fun hold => (hs.object o t hold).step h) id
  home o x hx := (hhome o x hx).elim (fun hold => (hs.home o x hold).step h) id
  parent x p hp := (hparent x p hp).elim (fun hold => (hs.parent x p hold).step h) id
  child x y hy := (hchild x y hy).elim (fun hold => (hs.child x y hold).step h) id
  bound x b hb := (hbound x b hb).elim (fun hold => (hs.bound x b hold).step h) id
  package p hp := (hs.package p (h.packages_eq ▸ hp)).step h
  variadic hst t sig ht hv := by
    rcases hpart t with hsame | hnew
    · rw [hsame] at ht
      rw [h.tupleVars_eq (hs.part t _ (by simp [ht, Ty.typeRefs]))]
      exact hs.variadic hst t sig ht hv
    · exact hnew.variadic hst sig ht hv

lemma newType (hty : ty.isComposed) (h : s.Admits strict ty) :
    (Build.newType ty s).2.Closed strict := by
  have hstep : s.Step (Build.newType ty s).2 := .newType s ty hty
  refine hs.of_step hstep (fun t => ?_) (fun _ _ ht => .inl ht) (fun _ _ hx => .inl hx)
    (fun _ _ hp => .inl hp) (fun _ _ hy => .inl hy) (fun _ _ hb => .inl hb)
  rw [type_newType]
  split
  · refine .inr ⟨fun u hu => (h.part u hu).step hstep, h.member,
      fun hst sig hty hv => ?_⟩
    rw [hstep.tupleVars_eq (h.part _ (by simp [hty, Ty.typeRefs]))]
    exact h.variadic hst sig hty hv
  · exact .inl rfl

lemma newObject (hparent : ob.parent = none) (hob : ∀ t ∈ ob.type, s.HasType t) :
    (newObject ob s).2.Closed strict := by
  refine hs.of_step (.newObject s ob) (fun _ => .inl rfl) (fun o t ht => ?_) (fun o x hx => ?_)
    (fun _ _ hp => .inl hp) (fun _ _ hy => .inl hy) (fun _ _ hb => .inl hb)
  · rw [object_newObject] at ht
    split at ht
    · exact .inr (hob t ht)
    · exact .inl ht
  · rw [object_newObject] at hx
    split at hx
    · simp [hparent] at hx
    · exact .inl hx

lemma newScope (hparent : ∀ p ∈ parent, s.HasScope p) :
    (Build.newScope parent start stop comment isFunc s).2.Closed strict := by
  have hstep : s.Step (Build.newScope parent start stop comment isFunc s).2 := .newScope ..
  refine hs.of_step hstep (fun t => .inl (by simp [Store.type])) (fun o t ht => .inl ?_)
    (fun o x hx => .inl ?_) (fun x p hp => ?_) (fun x y hy => ?_) (fun x b hb => .inl ?_)
  · simpa [Store.object] using ht
  · simpa [Store.object] using hx
  · rw [parent_newScope] at hp
    split at hp
    · exact .inr ((hparent p hp).step hstep)
    · exact .inl hp
  · rw [children_newScope hparent] at hy
    split at hy
    · refine (List.mem_append.mp hy).imp_right fun hy => ?_
      rw [List.mem_singleton.mp hy, HasScope, newScope_scopes_size]
      exact Nat.lt_succ_self _
    · exact .inl hy
  · rwa [bindings_newScope] at hb

lemma bind (hx : s.HasScope x) (ho : s.HasObject o) : (s.bind x o).2.Closed strict := by
  have hstep : s.Step (s.bind x o).2 := .bind ..
  refine hs.of_step hstep (fun t => .inl (by simp [type])) (fun o' t ht => .inl ?_)
    (fun o' y hy => ?_) (fun y p hp => .inl ?_) (fun y z hz => .inl ?_) (fun y b hb => ?_)
  · simpa using ht
  · rcases object_parent_bind hy with hy | rfl
    · exact .inl hy
    · exact .inr (hx.step hstep)
  · simpa using hp
  · rwa [children_bind] at hz
  · rcases bindings_bind hb with hb | hb
    · exact .inl hb
    · exact .inr (hb ▸ ho.step hstep)

/-- A change of an object that gives it no home and an existing type keeps a store closed. -/
lemma modifyObject (hstep : s.Step (s.modifyObject o f)) (hhome : ∀ ob, (f ob).parent = ob.parent)
    (htype : ∀ ob, ∀ t ∈ (f ob).type, t ∈ ob.type ∨ s.HasType t) : (s.modifyObject o f).Closed strict := by
  refine hs.of_step hstep (fun _ => .inl rfl) (fun o' t ht => ?_) (fun o' x hx => ?_)
    (fun _ _ hp => .inl hp) (fun _ _ hy => .inl hy) (fun _ _ hb => .inl hb)
  · rw [object_modifyObject] at ht
    split at ht
    · exact htype _ t ht
    · exact .inl ht
  · rw [object_modifyObject] at hx
    split at hx
    · exact .inl (hhome _ ▸ hx)
    · exact .inl hx

end Closed

lemma SafeStep.closed (h : s.SafeStep strict s') (hs : s.Closed strict) : s'.Closed strict := by
  cases h with
  | newType hnamed hty => exact hs.newType hnamed hty
  | newObject hparent hob => exact hs.newObject hparent hob
  | newScope start stop comment isFunc hparent => exact hs.newScope hparent
  | bind hx ho => exact hs.bind hx ho
  | setVisible visibleFrom ho =>
    exact hs.modifyObject (.setVisible ..) (fun _ => rfl) fun _ _ ht => .inl ht
  | setUsed used ho =>
    exact hs.modifyObject (.setUsed ..) (·.parent_setUsed used) fun ob t ht => .inl (by simpa using ht)
  | @giveType o u ho hu =>
    refine hs.modifyObject (.giveType ..) (fun _ => rfl) fun ob t ht => ?_
    rcases ob.type_giveType_eq_some.mp ht with hold | ⟨-, rfl⟩
    · exact .inl hold
    · exact .inr hu
  | setValue v ho =>
    exact hs.modifyObject (.setValue ..) (·.parent_setValue v) fun ob t ht => .inl (by simpa using ht)

/-- Only the entities in a store matter. -/
lemma closed_of_forall_lt (hany : s.HasType .any)
    (hpart : ∀ i < s.types.size, ∀ u ∈ (s.type ⟨i⟩).typeRefs, s.HasType u)
    (hmember : ∀ i < s.types.size, ∀ o ∈ (s.type ⟨i⟩).objectRefs, s.HasObject o)
    (hobject : ∀ i < s.objects.size, ∀ t ∈ (s.object ⟨i⟩).type, s.HasType t)
    (hhome : ∀ i < s.objects.size, ∀ x ∈ (s.object ⟨i⟩).parent, s.HasScope x)
    (hparent : ∀ i < s.scopes.size, ∀ p ∈ (s.scope ⟨i⟩).parent, s.HasScope p)
    (hchild : ∀ i < s.scopes.size, ∀ y ∈ (s.scope ⟨i⟩).children, s.HasScope y)
    (hbound : ∀ i < s.scopes.size, ∀ b ∈ (s.scope ⟨i⟩).bindings, s.HasObject b.2)
    (hpackage : ∀ p ∈ s.packages, s.HasScope p.scope)
    (hvariadic : ∀ i < s.types.size, ∀ sig ∈ (s.type ⟨i⟩).signature?,
      sig.variadic → s.tupleVars sig.params ≠ []) : s.Closed strict := by
  -- what is not there reads as an entity that refers to nothing
  have htype : ∀ t, t.index < s.types.size ∨ s.type t = .basic .invalid := fun t =>
    (lt_or_ge t.index s.types.size).imp_right type_of_size_le
  have hobj : ∀ o, o.index < s.objects.size ∨ s.object o = default := fun o =>
    (lt_or_ge o.index s.objects.size).imp_right object_of_size_le
  have hscope : ∀ x, x.index < s.scopes.size ∨ s.scope x = default := fun x =>
    (lt_or_ge x.index s.scopes.size).imp_right scope_of_size_le
  refine ⟨hany, fun t u hu => ?_, fun t o ho => ?_, fun o t ht => ?_, fun o x hx => ?_,
    fun x p hp => ?_, fun x y hy => ?_, fun x b hb => ?_, hpackage, fun _ t sig ht hv => ?_⟩
  · rcases htype t with hlt | heq
    · exact hpart _ hlt u hu
    · simp [heq, Ty.typeRefs] at hu
  · rcases htype t with hlt | heq
    · exact hmember _ hlt o ho
    · simp [heq, Ty.objectRefs] at ho
  · rcases hobj o with hlt | heq
    · exact hobject _ hlt t ht
    · simp [heq] at ht
  · rcases hobj o with hlt | heq
    · exact hhome _ hlt x hx
    · simp [heq] at hx
  · rcases hscope x with hlt | heq
    · exact hparent _ hlt p hp
    · simp [heq] at hp
  · rcases hscope x with hlt | heq
    · exact hchild _ hlt y hy
    · simp [heq, default] at hy
  · rcases hscope x with hlt | heq
    · exact hbound _ hlt b hb
    · simp [heq, default] at hb
  · rcases htype t with hlt | heq
    · exact hvariadic _ hlt sig (by rw [show s.type ⟨t.index⟩ = _ from ht]; rfl) hv
    · simp [heq] at ht

end Store

end GoCheck
