import GoCheck.Proofs.Constants.Store
import GoCheck.Proofs.Quiet

/-!
# States in which constants fit

The expressions that take on a type after they have been evaluated are known from the tree. A record
is in order if it is no typed constant, or if the type holds the constant; an argument of a
conversion whose result is no constant is excepted. A pass is judged by whether it leaves all
records in order, which records it opens, and what it promises of its outcome.
-/

namespace GoCheck

open List Option

variable {id : Nat} {rs : Records} {v : Constant}

mutual

/-- The numbers of an expression and of all that it is made of, function literals included. -/
def Expr.ids : Expr → List Nat
  | .ident n _ | .lit n _ _ => [n.id]
  | .paren n e | .selector n e _ | .assert n e _ | .unary n _ e | .receive n e => n.id :: e.ids
  | .index n e i => n.id :: (e.ids ++ i.ids)
  | .call n f args _ => n.id :: (f.ids ++ exprsIds args)
  | .funcLit n _ body => n.id :: blockIds body

def exprsIds : List Expr → List Nat
  | [] => []
  | e :: es => e.ids ++ exprsIds es

def specsIds : List (SpecOf Expr) → List Nat
  | [] => []
  | spec :: specs => specIds spec ++ specsIds specs

def specIds : SpecOf Expr → List Nat
  | ⟨_, _, values, _⟩ => exprsIds values

/-- The numbers in a statement. -/
def Stmt.ids : Stmt → List Nat
  | .empty _ => []
  | .block _ body => blockIds body
  | .var _ specs | .const _ specs => specsIds specs
  | .short _ lhs rhs | .assign _ lhs rhs => exprsIds lhs ++ exprsIds rhs
  | .ret _ values => exprsIds values
  | .expr _ e => e.ids

def blockIds : BlockOf Stmt → List Nat
  | ⟨stmts, _⟩ => stmtsIds stmts

def stmtsIds : List Stmt → List Nat
  | [] => []
  | s :: ss => s.ids ++ stmtsIds ss

end

/-- The expressions, from the outermost on, that lend an expression their value. -/
def Expr.carriers (isConstant : Bool) : Expr → List Nat
  | .paren n inner => n.id :: inner.carriers isConstant
  | .unary n op operand =>
    n.id :: if isConstant || op = .address || op = .indirect then [] else operand.carriers isConstant
  | e => [e.id]

lemma Expr.id_mem_ids (e : Expr) : e.id ∈ e.ids := by
  cases e <;> simp [Expr.ids, Expr.id, Expr.node]

lemma Expr.mem_ids_of_mem_carriers (e : Expr) (h : id ∈ e.carriers b) : id ∈ e.ids := by
  cases e with
  | paren n inner =>
    simp only [carriers, ids, mem_cons] at h ⊢
    exact h.imp_right inner.mem_ids_of_mem_carriers
  | unary n op operand =>
    simp only [carriers, ids, mem_cons] at h ⊢
    refine h.imp_right fun h => ?_
    split at h
    · cases h
    · exact operand.mem_ids_of_mem_carriers h
  | _ =>
    obtain rfl : id = _ := by simpa [carriers] using h
    exact Expr.id_mem_ids _

namespace Table

variable (t : Table Nat ν)

lemma lookup_cons_of_ne (p : Nat × ν) (h : j ≠ p.1) : lookup j (p :: t) = lookup j t := by
  obtain ⟨i, u⟩ := p
  have hji : (j == i) = false := by simpa using h
  rw [lookup_cons, hji]

lemma lookup_filter_of_ne (h : j ≠ k) :
    lookup j (t.filter fun p => !(p.1 == k)) = lookup j t := by
  induction t with
  | nil => rfl
  | cons p t ih =>
    by_cases hp : p.1 = k
    · rw [filter_cons_of_neg (by simp [hp]), lookup_cons_of_ne t p (hp ▸ h), ih]
    · rw [filter_cons_of_pos (by simpa using hp), lookup_cons, lookup_cons, ih]

lemma find?_insert (v : ν) : (t.insert k v).find? j = if j = k then some v else t.find? j := by
  unfold insert find?
  split
  · rename_i hj
    simp [hj]
  · rename_i hj
    rw [lookup_cons_of_ne _ _ hj, lookup_filter_of_ne t hj]

lemma find?_alter (f : ν → ν) :
    (t.alter k f).find? j = if j = k then (t.find? j).map f else t.find? j := by
  unfold alter find?
  induction t with
  | nil => simp
  | cons p t ih =>
    obtain ⟨i, u⟩ := p
    by_cases hji : j = i
    · subst hji
      by_cases hjk : j = k <;> simp [hjk]
    · rw [map_cons, lookup_cons_of_ne t _ hji, ← ih]
      refine lookup_cons_of_ne _ _ ?_
      split <;> exact hji

end Table

namespace Expr

/-- The numbers of an expression and of all that its parentheses enclose. -/
def layers : Expr → List Nat
  | .paren n inner => n.id :: inner.layers
  | e => [e.id]

lemma id_mem_layers (e : Expr) : e.id ∈ e.layers := by
  cases e <;> exact mem_cons_self

lemma layers_subset (e : Expr) : e.layers ⊆ e.ids := by
  cases e with
  | paren n inner => exact cons_subset_cons _ inner.layers_subset
  | _ => simpa [layers] using id_mem_ids _

end Expr

namespace Records

variable {t : TypeId} {rs' : Records}
variable {o : Option Constant}

/-- What is recorded about the value of an expression that is untyped. -/
def open? (untyped : TypeId → Bool) (rs : Records) (id : Nat) : Option (Option Constant) :=
  (rs.find? id).bind fun r => if untyped r.type then some r.mode.constant? else none

lemma open?_eq_some_iff : rs.open? untyped id = some o ↔
    ∃ r, rs.find? id = some r ∧ untyped r.type ∧ r.mode.constant? = o := by
  simp only [open?, bind_eq_some_iff]
  refine exists_congr fun r => and_congr_right fun _ => ?_
  split <;> simp_all

/-- Among the expressions `I`, some untyped ones have taken on `t`; all else is as before. -/
def Retyped (untyped : TypeId → Bool) (t : TypeId) (I : List Nat) (rs rs' : Records) : Prop :=
  ∀ id, rs'.find? id = rs.find? id ∨ id ∈ I ∧ ∃ r, rs.find? id = some r ∧
    untyped r.type = true ∧ rs'.find? id = some { r with type := t }

lemma find?_setType (id j : Nat) : (rs.setType id t).find? j =
    if j = id then (rs.find? j).map ({ · with type := t }) else rs.find? j :=
  Table.find?_alter rs _

variable {I : List Nat}

lemma Retyped.refl : Retyped untyped t I rs rs := fun _ => .inl rfl

/-- The node itself takes on the type after its parts. -/
lemma retyped_retypeNode
    (h : ∀ r, rs.find? id = some r → untyped r.type → Retyped untyped t I rs (parts r rs)) :
    Retyped untyped t (id :: I) rs (rs.retypeNode untyped t id parts) := by
  unfold retypeNode
  split
  · exact .refl
  · rename_i r hr
    split
    · rename_i hu
      intro j
      rw [find?_setType]
      split
      · -- The parts may have reached the node already, with the same outcome.
        rename_i hj
        subst hj
        refine .inr ⟨mem_cons_self, r, hr, hu, ?_⟩
        rcases h r hr hu j with hparts | ⟨-, r', hr', -, hparts⟩
        · rw [hparts, hr]
          rfl
        · cases hr.symm.trans hr'
          rw [hparts]
          rfl
      · exact (h r hr hu j).imp_right fun hj => ⟨mem_cons_of_mem _ hj.1, hj.2⟩
    · exact .refl

/-- A change of type reaches the expressions that lend theirs a value. -/
lemma retyped_retype {b : Bool} (e : Expr)
    (h : ∀ id ∈ e.carriers b, ∀ o, rs.open? untyped id = some o → o.isSome = b) :
    Retyped untyped t (e.carriers b) rs (rs.retype untyped t e) := by
  cases e with simp only [retype, Expr.carriers]
  | paren n inner =>
    refine retyped_retypeNode fun r _ _ => retyped_retype inner fun id hid => h id ?_
    exact mem_cons_of_mem _ hid
  | unary n op operand =>
    refine retyped_retypeNode fun r hr hu => ?_
    have hconst : r.mode.isConstant = b :=
      h n.id (by simp [Expr.carriers]) _ (open?_eq_some_iff.mpr ⟨r, hr, hu, rfl⟩)
    cases b with
    | true => cases op <;> simp [hconst, Retyped.refl]
    | false =>
      cases op with
      | address => exact .refl
      | indirect => exact .refl
      | _ =>
        simp only [hconst]
        refine retyped_retype operand fun id hid => h id ?_
        simpa [Expr.carriers] using Or.inr hid
  | _ => exact retyped_retypeNode fun _ _ _ => .refl

lemma Retyped.open? (h : Retyped untyped t I rs rs') (ho : rs'.open? untyped id = some o) :
    rs.open? untyped id = some o := by
  obtain ⟨r, hr, hu, hconst⟩ := open?_eq_some_iff.mp ho
  refine open?_eq_some_iff.mpr ?_
  rcases h id with hsame | ⟨-, r', hr', hu', hnew⟩
  · exact ⟨r, hsame ▸ hr, hu, hconst⟩
  · cases hnew.symm.trans hr
    exact ⟨r', hr', hu', hconst⟩

/-- An expression that has been given a type is no longer open. -/
lemma open?_retype_self (ht : untyped t = false) (e : Expr) :
    (rs.retype untyped t e).open? untyped e.id = none := by
  have hnode : ∀ parts, (rs.retypeNode untyped t e.id parts).open? untyped e.id = none := by
    intro parts
    rw [eq_none_iff_forall_ne_some]
    intro o ho
    obtain ⟨r, hr, hu, -⟩ := open?_eq_some_iff.mp ho
    unfold retypeNode at hr
    split at hr
    · simp_all
    · split at hr
      · rw [find?_setType, if_pos rfl] at hr
        obtain ⟨r', -, rfl⟩ := map_eq_some_iff.mp hr
        rw [ht] at hu
        cases hu
      · simp_all
  cases e <;> exact hnode _

lemma retype_of_open?_eq_none (e : Expr) (h : rs.open? untyped e.id = none) :
    rs.retype untyped t e = rs := by
  have hnode : ∀ parts, rs.retypeNode untyped t e.id parts = rs := by
    intro parts
    unfold retypeNode
    split
    · rfl
    · rename_i r hr
      refine if_neg fun hu => ?_
      rw [open?_eq_some_iff.mpr ⟨r, hr, hu, rfl⟩] at h
      cases h
  cases e <;> exact hnode _

/-- The record that `setValue` leaves. -/
def withValue (untyped : TypeId → Bool) (v : Constant) (r : Recorded) : Recorded :=
  if untyped r.type && r.mode.isConstant then { r with mode := .constant v } else r

lemma find?_setValue (v : Constant) (j : Nat) : (rs.setValue untyped id v).find? j =
    if j = id then (rs.find? j).map (withValue untyped v) else rs.find? j :=
  Table.find?_alter rs _

lemma withValue_type (v : Constant) (r : Recorded) : (withValue untyped v r).type = r.type := by
  unfold withValue
  split <;> rfl

lemma withValue_isConstant (v : Constant) (r : Recorded) :
    (withValue untyped v r).mode.isConstant = r.mode.isConstant := by
  unfold withValue
  split
  · simp_all [Mode.isConstant, Mode.constant?]
  · rfl

lemma open?_setValue (h : (rs.setValue untyped id v).open? untyped j = some o) :
    ∃ o', rs.open? untyped j = some o' ∧ o'.isSome = o.isSome ∧ (j ≠ id → o' = o) := by
  obtain ⟨r, hr, hu, rfl⟩ := open?_eq_some_iff.mp h
  rw [find?_setValue] at hr
  split at hr
  · rename_i hj
    obtain ⟨r', hr', rfl⟩ := map_eq_some_iff.mp hr
    rw [withValue_type] at hu
    exact ⟨_, open?_eq_some_iff.mpr ⟨r', hr', hu, rfl⟩, (withValue_isConstant v r').symm,
      fun hne => absurd hj hne⟩
  · exact ⟨_, open?_eq_some_iff.mpr ⟨r, hr, hu, rfl⟩, rfl, fun _ => rfl⟩

lemma withValue_mode (v : Constant) (r : Recorded) :
    (withValue untyped v r).mode = r.mode ∨ (withValue untyped v r).mode = .constant v := by
  unfold withValue
  split
  · exact .inr rfl
  · exact .inl rfl

/-- Only what is open takes on another value. -/
lemma find?_setValue_of_open?_eq_none (h : rs.open? untyped id = none) (j : Nat) :
    (rs.setValue untyped id v).find? j = rs.find? j := by
  rw [find?_setValue]
  split
  · rename_i hj
    subst hj
    cases hr : rs.find? j with
    | none => rfl
    | some r =>
      have hu : untyped r.type = false := by
        cases hu : untyped r.type with
        | false => rfl
        | true =>
          rw [open?_eq_some_iff.mpr ⟨r, hr, hu, rfl⟩] at h
          cases h
      simp [withValue, hu]
  · rfl

section

variable (ht : untyped t = false) (e : Expr)
  (h : ∀ id ∈ e.carriers b, ∀ o, rs.open? untyped id = some o → o.isSome = b)

include h in
lemma retyped_setValue : Retyped untyped t (e.carriers b) (rs.setValue untyped e.id v)
    ((rs.setValue untyped e.id v).retype untyped t e) := by
  refine retyped_retype e fun id hid o ho => ?_
  obtain ⟨o', ho', hsome, -⟩ := open?_setValue ho
  exact hsome ▸ h id hid o' ho'

include ht h

lemma open?_retype_setValue
    (ho : ((rs.setValue untyped e.id v).retype untyped t e).open? untyped id = some o) :
    rs.open? untyped id = some o := by
  by_cases hid : id = e.id
  · rw [hid, open?_retype_self ht e] at ho
    cases ho
  · obtain ⟨o', ho', -, hsame⟩ := open?_setValue ((retyped_setValue e h).open? ho)
    rw [ho', hsame hid]

/-- An expression takes on a value and a type, and what lends it its value takes on the type. -/
lemma find?_retype_setValue
    (hr : ((rs.setValue untyped e.id v).retype untyped t e).find? id = some r) :
    rs.find? id = some r ∨ id ∈ e.carriers b ∧ r.type = t ∧ ∃ r', rs.find? id = some r' ∧
      untyped r'.type ∧ (r.mode = r'.mode ∨ r.mode = .constant v) := by
  rcases retyped_setValue e h id with hsame | ⟨hid, r₁, hr₁, hu, hnew⟩
  · rw [hsame, find?_setValue] at hr
    split at hr
    · rename_i hid
      obtain ⟨r', hr', rfl⟩ := map_eq_some_iff.mp hr
      by_cases hu : untyped r'.type
      · -- An open record of the expression itself would not have stayed the same.
        have hclosed : ∀ o, ((rs.setValue untyped e.id v).retype untyped t e).open? untyped id ≠
            some o := by
          rw [hid, open?_retype_self ht e]
          simp
        refine absurd (open?_eq_some_iff.mpr ⟨withValue untyped v r', ?_, ?_, rfl⟩) (hclosed _)
        · rw [hsame, find?_setValue, if_pos hid, hr']
          rfl
        · rwa [withValue_type]
      · refine .inl ?_
        rw [hr', withValue, if_neg (by simp [hu])]
    · exact .inl hr
  · cases hnew.symm.trans hr
    refine .inr ⟨hid, rfl, ?_⟩
    rw [find?_setValue] at hr₁
    split at hr₁
    · obtain ⟨r', hr', rfl⟩ := map_eq_some_iff.mp hr₁
      rw [withValue_type] at hu
      exact ⟨r', hr', hu, withValue_mode v r'⟩
    · exact ⟨r₁, hr₁, hu, .inl rfl⟩

end

/-- An expression takes on the type of a pair together with all that its parentheses enclose. -/
lemma find?_setPair {rs : Records} (e : Expr) (j : Nat) : (rs.setPair t e).find? j =
    if j ∈ e.layers then (rs.find? j).map ({ · with type := t }) else rs.find? j := by
  cases e with
  | paren n inner =>
    simp only [setPair, Expr.layers, mem_cons]
    rw [find?_setPair inner j, find?_setType]
    by_cases hn : j = n.id <;> by_cases hj : j ∈ inner.layers <;> simp [hn, hj, Function.comp_def]
  | _ =>
    simp only [setPair, Expr.layers, mem_singleton]
    exact find?_setType _ _

end Records

/-! ## States -/

namespace Store

variable {s s' : Store}

/-- Every object has kept its type, and no constant has got a known value. -/
structure KeepsObjects (s s' : Store) : Prop where
  type : ∀ o, o.index < s.objects.size →
    o.index < s'.objects.size ∧ (s'.object o).type = (s.object o).type
  value : ∀ o v, (s'.object o).value? = some v → v.isUnknown = false → (s.object o).value? = some v

namespace KeepsObjects

lemma of_eq (h : s'.objects = s.objects) : s.KeepsObjects s' := by
  have hobject : ∀ o, s'.object o = s.object o := fun o => by simp [object, h]
  exact ⟨fun o ho => ⟨h ▸ ho, by rw [hobject]⟩, fun o v hv _ => hobject o ▸ hv⟩

lemma trans (h : s.KeepsObjects s') (k : s'.KeepsObjects s'') : s.KeepsObjects s'' where
  type o ho := ⟨(k.type o (h.type o ho).1).1, (k.type o (h.type o ho).1).2.trans (h.type o ho).2⟩
  value o v hv hknown := h.value o v (k.value o v hv hknown) hknown

lemma newObject (h : ∀ v, ob.value? = some v → v.isUnknown) :
    s.KeepsObjects (Build.newObject ob s).2 where
  type o ho := by
    rw [object_newObject, if_neg (Nat.ne_of_lt ho)]
    exact ⟨by simp only [Build.newObject, Array.size_push]; omega, rfl⟩
  value o v hv hknown := by
    rw [object_newObject] at hv
    split at hv
    · rw [h v hv] at hknown
      cases hknown
    · exact hv

lemma modifyObject {f : Object → Object} {o : ObjectId}
    (h : ∀ ob, (f ob).type = ob.type ∧ (f ob).value? = ob.value?) :
    s.KeepsObjects (s.modifyObject o f) where
  type o' ho := by
    refine ⟨by simpa [Store.modifyObject] using ho, ?_⟩
    rw [object_modifyObject]
    split
    · exact (h _).1
    · rfl
  value o' v hv _ := by
    rwa [view_modifyObject fun ob => (h ob).2] at hv

lemma bind (s : Store) (c : ScopeId) (o : ObjectId) : s.KeepsObjects (s.bind c o).2 := by
  unfold Store.bind
  dsimp only
  split
  · exact .of_eq rfl
  · have hscope : s.KeepsObjects (s.modifyScope c fun sc =>
        { sc with bindings := sc.bindings ++ [((s.object o).name, o)] }) := .of_eq rfl
    exact hscope.trans (.modifyObject fun _ => ⟨rfl, rfl⟩)

end KeepsObjects

end Store

namespace Checker

variable {c d e : Checker}

/-- A change that leaves alone the records, the bodies put off, and the objects' types and
values. -/
structure Quiet (c d : Checker) : Prop where
  types : d.info.types = c.info.types
  conversions : d.info.conversions = c.info.conversions
  deferred : d.deferred = c.deferred
  objects : c.store.KeepsObjects d.store

lemma Quiet.of_objects_eq (h : d.store.objects = c.store.objects)
    (htypes : d.info.types = c.info.types) (hconv : d.info.conversions = c.info.conversions)
    (hdef : d.deferred = c.deferred) : c.Quiet d :=
  ⟨htypes, hconv, hdef, .of_eq h⟩

lemma Quiet.refl (c : Checker) : c.Quiet c := .of_objects_eq rfl rfl rfl rfl

lemma Quiet.trans (h : c.Quiet d) (k : d.Quiet e) : c.Quiet e :=
  ⟨k.types.trans h.types, k.conversions.trans h.conversions, k.deferred.trans h.deferred,
    h.objects.trans k.objects⟩

lemma QuietStep.quiet (h : c.QuietStep W d) : c.Quiet d := by
  cases h with
  | newObject o ho => exact ⟨rfl, rfl, rfl, .newObject ho⟩
  | newScope => exact .of_objects_eq Store.newScope_objects rfl rfl rfl
  | bind x o hx => exact ⟨rfl, rfl, rfl, .bind _ x o⟩
  | setVisible o n => exact ⟨rfl, rfl, rfl, .modifyObject fun _ => ⟨rfl, rfl⟩⟩
  | setUsed o used =>
    exact ⟨rfl, rfl, rfl, .modifyObject fun ob => ⟨ob.type_setUsed used, ob.value?_setUsed used⟩⟩
  | _ => exact .of_objects_eq rfl rfl rfl rfl

lemma QuietSteps.quiet (h : c.QuietSteps W d) : c.Quiet d := by
  induction h with
  | refl => exact .refl c
  | tail _ hstep ih => exact ih.trans hstep.quiet

end Checker

lemma Pass.IsQuiet.quiet {m : Pass α} (hm : m.IsQuiet fun _ => True) (c : Checker) :
    c.Quiet (m.1 c).2 :=
  (hm c fun _ _ => ⟨⟩).quiet

/-! ## Records -/

variable {c d : Checker} {I : Set Place} {s : Store}

/-- What a pass may touch: the record of an expression, the type of an object. -/
inductive Place where
  | expr (id : Nat)
  | object (o : ObjectId)

/-- The records of expressions. -/
def Place.exprs (ids : List Nat) : Set Place := {p | ∃ id ∈ ids, p = .expr id}

@[simp]
lemma Place.expr_mem_exprs : Place.expr id ∈ Place.exprs ids ↔ id ∈ ids := by
  simp [Place.exprs]

lemma Place.object_notMem_exprs (o : ObjectId) (ids : List Nat) :
    Place.object o ∉ Place.exprs ids := by
  simp [Place.exprs]

lemma Place.exprs_subset (h : ids ⊆ ids') : Place.exprs ids ⊆ Place.exprs ids' := by
  rintro _ ⟨id, hid, rfl⟩
  exact ⟨id, h hid, rfl⟩

namespace Checker

variable {e : Checker} {r : Recorded} {t : TypeId}

/-- What is recorded about the value of an expression that is untyped. -/
def open? (c : Checker) (id : Nat) : Option (Option Constant) :=
  c.info.types.open? c.store.isUntyped id

/-- An expression that lends its value to the argument of a conversion that gives no constant. -/
def Excused (c : Checker) (id : Nat) (t : TypeId) : Prop :=
  ∃ conv ∈ c.info.conversions, conv.isConstant = false ∧ id ∈ conv.operand.carriers true ∧
    ∃ k : BasicKind, k.isUntyped = true ∧ t = .basic k.default

/-- What is recorded about an expression is in order. -/
def Suits (c : Checker) (id : Nat) (r : Recorded) : Prop :=
  ∀ v, r.mode = .constant v →
    c.store.Holds r.type v ∨ c.store.IsComposite r.type ∨ c.Excused id r.type

/-- Entities and records are in order, and the numbers in the bodies put off are distinct. -/
structure Fitting (c : Checker) : Prop where
  orderly : c.store.Orderly
  entry : ∀ id r, c.info.types.find? id = some r → c.Suits id r
  deferred : ∀ d ∈ c.deferred, (blockIds d.body).Nodup

/-- Outside `I` no record is opened or changed while it is open, and no object has got a type. -/
structure Keeps (I : Set Place) (c d : Checker) : Prop where
  record : ∀ id, .expr id ∉ I → ∀ o, d.open? id = some o → c.open? id = some o
  object : ∀ o, .object o ∉ I → o.index < c.store.objects.size →
    o.index < d.store.objects.size ∧ (d.store.object o).type = (c.store.object o).type

lemma Keeps.refl (I : Set Place) (c : Checker) : c.Keeps I c :=
  ⟨fun _ _ _ ho => ho, fun _ _ ho => ⟨ho, rfl⟩⟩

lemma Keeps.trans (h : c.Keeps I d) (k : d.Keeps I e) : c.Keeps I e where
  record id hid o ho := h.record id hid o (k.record id hid o ho)
  object o hI ho :=
    have hd := h.object o hI ho
    have he := k.object o hI hd.1
    ⟨he.1, he.2.trans hd.2⟩

lemma Keeps.mono (h : c.Keeps I d) (hIJ : I ⊆ J) : c.Keeps J d :=
  ⟨fun id hid => h.record id fun hi => hid (hIJ hi), fun o ho => h.object o fun hi => ho (hIJ hi)⟩

lemma Suits.extends (h : c.Suits id r) (hs : c.store.Extends d.store)
    (hconv : c.info.conversions ⊆ d.info.conversions) : d.Suits id r := by
  intro v hv
  rcases h v hv with hholds | hcomposite | ⟨conv, hmem, hexcuse⟩
  · exact .inl (hholds.extends hs)
  · exact .inr (.inl (hcomposite.extends hs))
  · exact .inr (.inr ⟨conv, hconv hmem, hexcuse⟩)

/-- A change that leaves records alone, and new known constants with types that hold them. -/
lemma Fitting.of_values (hc : c.Fitting) (hs : c.Steps d) (htypes : d.info.types = c.info.types)
    (hconv : d.info.conversions = c.info.conversions) (hdeferred : d.deferred = c.deferred)
    (hvalues : ∀ o v, (d.store.object o).value? = some v → v.isUnknown = false →
      (c.store.object o).value? = some v ∨
        v.isRegular ∧ ∃ t, (d.store.object o).type = some t ∧ d.store.Holds t v) :
    d.Fitting where
  orderly :=
    { hs.arranged hc.orderly.toArranged with
      const := by
        intro o v hv hknown
        rcases hvalues o v hv hknown with hold | hnew
        · obtain ⟨hregular, t, ht, hholds⟩ := hc.orderly.const o v hold hknown
          exact ⟨hregular, t, hs.object_type ht, hholds.extends hs.extends⟩
        · exact hnew }
  entry id r hr := (hc.entry id r (htypes ▸ hr)).extends hs.extends fun _ h => hconv ▸ h
  deferred x hx := hc.deferred x (hdeferred ▸ hx)

lemma Fitting.dropDeferred (hc : c.Fitting) : { c with deferred := c.deferred.take n }.Fitting :=
  ⟨hc.orderly, hc.entry, fun x hx => hc.deferred x (mem_of_mem_take hx)⟩

section

variable (hs : c.Steps d) (hq : c.Quiet d)
include hs hq

lemma Quiet.open?_eq (id : Nat) : d.open? id = c.open? id := by
  have huntyped := funext hs.isUntyped_eq
  rw [open?, open?, hq.types, huntyped]

lemma Quiet.keeps (I : Set Place) : c.Keeps I d :=
  ⟨fun id _ _ ho => hq.open?_eq hs id ▸ ho, fun o _ => hq.objects.type o⟩

lemma Fitting.quiet (hc : c.Fitting) : d.Fitting :=
  hc.of_values hs hq.types hq.conversions hq.deferred fun o v hv hknown =>
    .inl (hq.objects.value o v hv hknown)

end

end Checker

lemma Mode.constant?_eq_some {m : Mode} :
    m.constant? = some v ↔ m = .constant v := by
  cases m <;> simp [Mode.constant?]

namespace Operand

variable {x : Operand} {e : Expr}

/-- A constant operand has a type that holds it. -/
def Fits (x : Operand) (s : Store) : Prop :=
  ∀ v, x.mode = .constant v → v.isRegular = true ∧ ∃ t, x.type = some t ∧ s.Holds t v

/-- As long as they are untyped, expressions are recorded with the value of the operand. -/
def Agrees (x : Operand) (c : Checker) (ids : List Nat) : Prop :=
  ∀ id ∈ ids, ∀ o, c.open? id = some o → o = x.mode.constant?

/-- An operand for which an expression stands: while it is open, the records of its value agree. -/
structure Usable (x : Operand) (e : Expr) (c : Checker) : Prop where
  expr : x.expr = some e
  fits : x.Fits c.store
  agrees : x.isInvalid = false → x.type.isSome = true →
    c.open? e.id = none ∨ x.Agrees c (e.carriers x.mode.isConstant)

/-- An operand of which nothing is wrong by itself: one with a second value has a type. -/
structure Proper (x : Operand) (s : Store) : Prop where
  fits : x.Fits s
  pair : (Pass.secondType? x).isSome = true → x.type.isSome = true

/-- The operand that an expression has evaluated to. -/
structure Kept (x : Operand) (e : Expr) (c : Checker) : Prop extends x.Proper c.store where
  expr : x.expr = some e
  agrees : x.isInvalid = false → x.type.isSome = true → x.Agrees c (e.carriers x.mode.isConstant)
  closed : x.isInvalid = false → x.mode ≠ .noValue → ∀ t, x.type = some t →
    c.store.isUntyped t = false → c.open? e.id = none

lemma fits_of_isConstant_eq_false (h : x.mode.isConstant = false) : x.Fits s := by
  intro v hv
  rw [hv] at h
  cases h

lemma proper_of_isConstant_eq_false (h : x.mode.isConstant = false)
    (hpair : Pass.secondType? x = none) : x.Proper s :=
  ⟨fits_of_isConstant_eq_false h, fun hsome => by rw [hpair] at hsome; cases hsome⟩

lemma proper_invalidated (x : Operand) : x.invalidated.Proper s :=
  proper_of_isConstant_eq_false rfl rfl

lemma Fits.extends (h : x.Fits s) (hs : s.Extends s') : x.Fits s' := by
  intro v hv
  obtain ⟨hregular, t, ht, hholds⟩ := h v hv
  exact ⟨hregular, t, ht, hholds.extends hs⟩

lemma Agrees.keeps (h : x.Agrees c ids) (hk : c.Keeps I d) (hids : ∀ id ∈ ids, .expr id ∉ I) :
    x.Agrees d ids :=
  fun id hid o ho => h id hid o (hk.record id (hids id hid) o ho)

lemma Kept.usable (h : x.Kept e c) : x.Usable e c :=
  ⟨h.expr, h.fits, fun hvalid htype => .inr (h.agrees hvalid htype)⟩

lemma Usable.invalidated (h : x.Usable e c) : x.invalidated.Usable e c where
  expr := h.expr
  fits := fits_of_isConstant_eq_false rfl
  agrees hvalid := by cases hvalid

lemma Kept.invalidated (h : x.Kept e c) : x.invalidated.Kept e c where
  toProper := proper_invalidated x
  expr := h.expr
  agrees hvalid := by cases hvalid
  closed hvalid := by cases hvalid

section

variable (hs : c.Steps d) (hk : c.Keeps I d) (he : ∀ id ∈ e.ids, .expr id ∉ I)

include hk he in
lemma open?_eq_none_of_keeps (h : c.open? e.id = none) : d.open? e.id = none := by
  rw [Option.eq_none_iff_forall_ne_some] at h ⊢
  exact fun o ho => h o (hk.record e.id (he _ e.id_mem_ids) o ho)

include hs hk he

lemma Usable.keeps (h : x.Usable e c) : x.Usable e d where
  expr := h.expr
  fits := h.fits.extends hs.extends
  agrees hvalid htype := (h.agrees hvalid htype).imp (open?_eq_none_of_keeps hk he) fun h =>
    h.keeps hk fun id hid => he id (e.mem_ids_of_mem_carriers hid)

lemma Kept.keeps (h : x.Kept e c) : x.Kept e d where
  fits := h.fits.extends hs.extends
  pair := h.pair
  expr := h.expr
  agrees hvalid htype :=
    (h.agrees hvalid htype).keeps hk fun id hid => he id (e.mem_ids_of_mem_carriers hid)
  closed hvalid hmode t ht hu :=
    open?_eq_none_of_keeps hk he (h.closed hvalid hmode t ht (hs.isUntyped_eq t ▸ hu))

end

lemma Kept.keeps_empty (h : x.Kept e c) (hs : c.Steps d) (hk : c.Keeps ∅ d) : x.Kept e d :=
  h.keeps hs hk fun _ _ => Set.notMem_empty _

lemma Usable.keeps_empty (h : x.Usable e c) (hs : c.Steps d) (hk : c.Keeps ∅ d) : x.Usable e d :=
  h.keeps hs hk fun _ _ => Set.notMem_empty _

/-- An operand for which an expression with certain numbers stands. -/
def UsableFrom (x : Operand) (ids : List Nat) (c : Checker) : Prop :=
  ∃ e, x.Usable e c ∧ e.ids ⊆ ids

lemma UsableFrom.keeps (h : x.UsableFrom ids c) (hs : c.Steps d) (hk : c.Keeps I d)
    (hids : ∀ id ∈ ids, .expr id ∉ I) : x.UsableFrom ids d := by
  obtain ⟨e, he, hsub⟩ := h
  exact ⟨e, he.keeps hs hk fun id hid => hids id (hsub hid), hsub⟩

end Operand

namespace Pass

variable {m : Pass α}
variable {S : β → Checker → Prop}

/-- A pass ends with all records in order and those outside `I` kept, and `Q` holds of its
outcome. -/
def Fits (m : Pass α) (I : Set Place) (c : Checker)
    (Q : α → Checker → Prop := fun _ _ => True) : Prop :=
  (m.1 c).2.Fitting ∧ c.Keeps I (m.1 c).2 ∧ Q (m.1 c).1 (m.1 c).2

lemma Fits.pure (hc : c.Fitting) (ha : Q a c) : (pure a : Pass α).Fits I c Q :=
  ⟨hc, .refl I c, ha⟩

lemma Fits.before (hm : m.Fits J c R) (hJ : J ⊆ I)
    (hf : ∀ a d, c.Steps d → c.Keeps J d → d.Fitting → R a d → (f a).Fits I d S) :
    (m >>= f).Fits I c S := by
  obtain ⟨hfit, hkeep, hR⟩ := hm
  obtain ⟨hfit', hkeep', hS⟩ := hf _ _ (m.2 c) hkeep hfit hR
  exact ⟨hfit', (hkeep.mono hJ).trans hkeep', hS⟩

lemma Fits.bind (hm : m.Fits I c R)
    (hf : ∀ a d, c.Steps d → c.Keeps I d → d.Fitting → R a d → (f a).Fits I d S) :
    (m >>= f).Fits I c S :=
  hm.before (Set.Subset.refl I) hf

lemma Fits.mono (hm : m.Fits I c R) (h : ∀ a d, c.Steps d → c.Keeps I d → R a d → Q a d) :
    m.Fits I c Q :=
  ⟨hm.1, hm.2.1, h _ _ (m.2 c) hm.2.1 hm.2.2⟩

lemma Fits.widen (hm : m.Fits I c Q) (hIJ : I ⊆ J) : m.Fits J c Q :=
  ⟨hm.1, hm.2.1.mono hIJ, hm.2.2⟩

lemma Fits.discard (hm : m.Fits I c R) : (discard m).Fits I c :=
  ⟨hm.1, hm.2.1, trivial⟩

lemma Fits.trivial (hm : m.Fits I c R) : m.Fits I c := ⟨hm.1, hm.2.1, ⟨⟩⟩

@[simp]
lemma fits_entities_bind {f : Store → Pass β} :
    (entities >>= f).Fits I c S ↔ (f c.store).Fits I c S := Iff.rfl

lemma Fits.entities {f : Store → Pass β} (h : (f c.store).Fits I c S) :
    (entities >>= f).Fits I c S :=
  h

lemma Fits.of_isQuiet (hm : m.IsQuiet fun _ => True) (hc : c.Fitting)
    (hq : c.Quiet (m.1 c).2 → Q (m.1 c).1 (m.1 c).2) : m.Fits I c Q :=
  ⟨hc.quiet (m.2 c) (hm.quiet c), (hm.quiet c).keeps (m.2 c) I, hq (hm.quiet c)⟩

lemma Fits.quietly (hm : m.IsQuiet fun _ => True) (hc : c.Fitting)
    (hf : ∀ d, (m.1 c).2 = d → c.Steps d → c.Quiet d → d.Fitting →
      (f (m.1 c).1).Fits I d S) : (m >>= f).Fits I c S := by
  obtain ⟨hfit, hkeep, hS⟩ := hf _ rfl (m.2 c) (hm.quiet c) (hc.quiet (m.2 c) (hm.quiet c))
  exact ⟨hfit, ((hm.quiet c).keeps (m.2 c) I).trans hkeep, hS⟩

lemma fits_forM {l : List α} {g : α → Pass PUnit} (hc : c.Fitting)
    (h : ∀ a ∈ l, ∀ d, c.Steps d → c.Keeps I d → d.Fitting → (g a).Fits I d fun _ _ => True) :
    (l.forM g).Fits I c := by
  induction l generalizing c with
  | nil => exact .pure hc ⟨⟩
  | cons a l ih =>
    refine (h a (by simp) c (.refl c) (.refl I c) hc).bind fun _ d hd hk hfit _ => ?_
    refine ih hfit fun b hb e he hke => h b (by simp [hb]) e (hd.trans he) (hk.trans hke)

lemma fits_onRecords (hc : c.Fitting) (hentry : ∀ id r, (g c.info.types).find? id = some r →
      c.info.types.find? id = some r ∨ c.Suits id r)
    (hopen : ∀ id, .expr id ∉ I → ∀ o, (g c.info.types).open? c.store.isUntyped id = some o →
      c.open? id = some o) :
    (onRecords g).Fits I c fun _ d => d.store = c.store ∧ d.info.types = g c.info.types := by
  refine ⟨⟨hc.orderly, fun id r hr => ?_, hc.deferred⟩, ⟨hopen, fun _ _ ho => ⟨ho, rfl⟩⟩, rfl, rfl⟩
  rcases hentry id r hr with hold | hnew
  · exact hc.entry id r hold
  · exact hnew

lemma fits_recordConversion (hc : c.Fitting) :
    (recordConversion conv).Fits I c fun _ d => d.store = c.store ∧ conv ∈ d.info.conversions := by
  refine ⟨⟨hc.orderly, fun id r hr => ?_, hc.deferred⟩, ⟨fun _ _ _ ho => ho, fun _ _ ho => ⟨ho, rfl⟩⟩,
    rfl, mem_cons_self⟩
  exact (hc.entry id r hr).extends (.refl _) (subset_cons_self _ _)

lemma fits_defer {d : Deferred} (hc : c.Fitting) (hd : (blockIds d.body).Nodup) :
    (defer d).Fits I c := by
  refine ⟨⟨hc.orderly, hc.entry, fun x hx => ?_⟩, ⟨fun _ _ _ ho => ho, fun _ _ ho => ⟨ho, rfl⟩⟩, ⟨⟩⟩
  rcases mem_append.mp hx with hx | hx
  · exact hc.deferred x hx
  · exact mem_singleton.mp hx ▸ hd

end Pass

end GoCheck
