import GoCheck.Proofs.Bounds.Sessions
import GoCheck.Proofs.Deferral

/-!
# Building entities

What happens to the entities, whoever does it: a new one is made out of those there are, a name is
bound, an object gets another type or value, or a defined type gets a method.
-/

namespace GoCheck

open Store

variable {P : Store → Prop} {ty : Ty}

def Ty.withMethod (m : ObjectId) : Ty → Ty
  | named n => named { n with methods := n.methods ++ [m] }
  | ty => ty

lemma Ty.typeRefs_withMethod (m : ObjectId) (ty : Ty) : (ty.withMethod m).typeRefs = ty.typeRefs := by
  cases ty <;> rfl

lemma Ty.objectRefs_withMethod (h : o ∈ (ty.withMethod m).objectRefs) :
    o ∈ ty.objectRefs ∨ o = m := by
  cases ty with
  | named n => simpa [withMethod, objectRefs, or_assoc] using h
  | _ => exact .inl h

namespace Store

variable {s : Store} {t : TypeId}

/-- One act with existing entities. An object keeps its name and stays in its scope. -/
inductive Construction : Store → Store → Prop where
  | newType (s : Store) {ty : Ty} : s.Admits false ty → Construction s (Build.newType ty s).2
  | newObject (s : Store) {ob : Object} : ob.parent = none → (∀ t ∈ ob.type, s.HasType t) →
      Construction s (Build.newObject ob s).2
  | newScope (s : Store) {parent : Option ScopeId} (start stop : Nat) (comment : String)
      (isFunc : Bool) : (∀ p ∈ parent, s.HasScope p) →
      Construction s (Build.newScope parent start stop comment isFunc s).2
  | addPackage (s : Store) {p : Package} : s.HasScope p.scope →
      Construction s { s with packages := s.packages.push p }
  | bind (s : Store) {x : ScopeId} {o : ObjectId} : s.HasScope x → s.HasObject o →
      Construction s (s.bind x o).2
  | setObject (s : Store) {o : ObjectId} {f : Object → Object} : s.HasObject o →
      (∀ ob, (f ob).name = ob.name) → (∀ ob, (f ob).parent = ob.parent) →
      (∀ ob, ∀ t ∈ (f ob).type, t ∈ ob.type ∨ s.HasType t) → Construction s (s.modifyObject o f)
  | addMethod (s : Store) (t : TypeId) {m : ObjectId} : s.HasObject m →
      Construction s (s.modifyType t (Ty.withMethod m))

/-- Whatever a check does to the entities is such an act. -/
lemma SafeStep.construction (h : s.SafeStep false s') : s.Construction s' := by
  cases h with
  | newType _ hty => exact .newType s hty
  | newObject hparent hob => exact .newObject s hparent hob
  | newScope start stop comment isFunc hparent => exact .newScope s start stop comment isFunc hparent
  | bind hx ho => exact .bind s hx ho
  | setVisible visibleFrom ho =>
    exact .setObject s ho (fun _ => rfl) (fun _ => rfl) fun _ _ ht => .inl ht
  | setUsed used ho =>
    refine .setObject s ho (fun ob => ?_) (·.parent_setUsed used) fun ob t ht => .inl (by simpa using ht)
    cases hob : ob.entity <;> simp [Object.setUsed, hob]
  | @giveType o u ho hu =>
    refine .setObject s ho (fun _ => rfl) (fun _ => rfl) fun ob t ht => ?_
    rcases ob.type_giveType_eq_some.mp ht with hold | ⟨-, rfl⟩
    · exact .inl hold
    · exact .inr hu
  | setValue v ho =>
    refine .setObject s ho (fun ob => ?_) (·.parent_setValue v) fun ob t ht => .inl (by simpa using ht)
    cases hob : ob.entity <;> simp [Object.setValue, hob]

lemma type_modifyType (s : Store) (t u : TypeId) (f : Ty → Ty) :
    (s.modifyType t f).type u = if t = u ∧ t.index < s.types.size then f (s.type u) else s.type u := by
  obtain ⟨i⟩ := t
  obtain ⟨j⟩ := u
  simpa [type, modifyType] using getD_modify s.types i j f default

lemma growth_addMethod (hm : s.HasObject m) (hs : s.Closed false) :
    s.Growth false (s.modifyType t (Ty.withMethod m)) where
  types := by simp [modifyType]
  objects := le_rfl
  scopes := le_rfl
  packages := le_rfl
  part u hne v hv := by
    rw [type_modifyType] at hne hv
    split at hv
    · rw [Ty.typeRefs_withMethod] at hv
      simpa [HasType, modifyType] using hs.part u v hv
    · simp_all
  member u hne o ho := by
    rw [type_modifyType] at hne ho
    split at ho
    · rcases Ty.objectRefs_withMethod ho with hold | rfl
      · exact hs.member u o hold
      · exact hm
    · simp_all
  object _ _ ht := .inl ht
  home _ _ hx := .inl hx
  parent _ _ hp := .inl hp
  child _ _ hy := .inl hy
  bound _ _ hb := .inl hb
  package _ hp := .inl hp
  variadic := by simp

/-- What is made or changed refers to existing entities. -/
lemma Construction.growth (h : s.Construction s') (hs : s.Closed false) : s.Growth false s' := by
  cases h with
  | @newType ty hty =>
    have hlt : s.types.size ≤ (Build.newType ty s).2.types.size := by simp [Build.newType]
    refine ⟨hlt, le_rfl, le_rfl, le_rfl, fun t hne u hu => ?_,
      fun t hne o ho => ?_, fun _ _ ht => .inl ht, fun _ _ hx => .inl hx, fun _ _ hp => .inl hp,
      fun _ _ hy => .inl hy, fun _ _ hb => .inl hb, fun _ hp => .inl hp, by simp⟩
    · rw [type_newType] at hne hu
      split at hu
      · exact lt_of_lt_of_le (hty.part u hu) hlt
      · simp_all
    · rw [type_newType] at hne ho
      split at ho
      · exact hty.member o ho
      · simp_all
  | newObject hparent hob => exact (SafeStep.newObject s hparent hob).growth hs
  | newScope start stop comment isFunc hparent =>
    exact (SafeStep.newScope s start stop comment isFunc hparent).growth hs
  | @addPackage p hp =>
    refine ⟨le_rfl, le_rfl, le_rfl, by simp, fun t hne => absurd rfl hne,
      fun t hne => absurd rfl hne, fun _ _ ht => .inl ht, fun _ _ hx => .inl hx,
      fun _ _ hp => .inl hp, fun _ _ hy => .inl hy, fun _ _ hb => .inl hb, fun q hq => ?_, by simp⟩
    rcases Array.mem_push.mp hq with hold | rfl
    · exact .inl hold
    · exact .inr hp
  | bind hx ho => exact (SafeStep.bind s hx ho).growth hs
  | @setObject o f ho hname hparent htype =>
    refine ⟨le_rfl, by simp [modifyObject], le_rfl, le_rfl,
      fun t hne => absurd rfl hne, fun t hne => absurd rfl hne, fun o' t ht => ?_, fun o' x hx => ?_,
      fun _ _ hp => .inl hp, fun _ _ hy => .inl hy, fun _ _ hb => .inl hb, fun _ hp => .inl hp, by simp⟩
    · rw [object_modifyObject] at ht
      split at ht
      · exact htype _ t ht
      · exact .inl ht
    · rw [object_modifyObject] at hx
      split at hx
      · exact .inl (hparent _ ▸ hx)
      · exact .inl hx
  | addMethod t hm => exact growth_addMethod hm hs

end Store

namespace Build

open Relation

variable {s : Store}

lemma constructs_newPackage (path name : String) (h : s.HasScope universeScope) :
    ReflTransGen Construction s (newPackage path name s).2 := by
  have huniverse : ∀ p ∈ some universeScope, s.HasScope p := by
    rintro _ ⟨⟩
    exact h
  refine .tail (.single (.newScope s 0 0 ("package " ++ path) false huniverse)) ?_
  exact .addPackage _ (by simp [HasScope, newScope])

lemma construction_newTypeName : s.Construction (newTypeName span name none s).2 :=
  .newObject s rfl (by rintro _ ⟨⟩)

lemma construction_setType : (newType ty (newTypeName span name none s).2).2.Construction
    ((newType ty (newTypeName span name none s).2).2.modifyObject ⟨s.objects.size⟩
      (·.setType (some ⟨s.types.size⟩))) := by
  refine .setObject _ ?_ (fun _ => rfl) (fun _ => rfl) fun ob t ht => .inr ?_
  · simp [HasObject, newType, newTypeName, newObject]
  · obtain rfl : (⟨s.types.size⟩ : TypeId) = t := by simpa [Object.setType] using ht
    simp [HasType, newType, newTypeName, newObject]

/-- A type name is made first, then the type that bears it, and the name gets its type last. -/
lemma constructs_named (span : Span) (name : String) (hs : s.Closed false)
    (h : s.HasType under) : ReflTransGen Construction s (named span name under s).2 := by
  have hclosed : (newTypeName span name none s).2.Closed false := hs.newObject rfl (by rintro _ ⟨⟩)
  refine .tail (.tail (.single construction_newTypeName) (.newType _ ⟨fun u hu => ?_, fun o ho => ?_,
    by simp⟩)) construction_setType
  · obtain rfl := List.mem_singleton.mp hu
    exact hclosed.hasType_underlying h
  · obtain rfl := List.mem_singleton.mp ho
    simp [HasObject, newTypeName, newObject]

lemma admits_typeParam (h : s.HasType bound) : (newTypeName span name none s).2.Admits false
    (.typeParam { object := ⟨s.objects.size⟩, index, bound }) := by
  refine ⟨fun u hu => ?_, by simp [Ty.objectRefs, HasObject, newTypeName, newObject], by simp⟩
  obtain rfl := List.mem_singleton.mp hu
  exact h

end Build

/-- What single acts keep of the entities, the steps of a check keep. -/
lemma Checker.SafeSteps.keep_store
    (hkeep : ∀ s s', s.Closed false → P s → s.Construction s' → P s') {c d : Checker}
    (h : c.SafeSteps false d) (hc : c.Closed false) (hP : P c.store) : P d.store := by
  induction h with
  | refl => exact hP
  | tail hsteps hlast ih =>
    cases hlast with
    | store hs => exact hkeep _ _ (hsteps.closed hc).store ih hs.construction
    | _ => exact ih

/-- The states of a session whose host acts, moves to existing places, takes reports and makes
requests. -/
inductive BuiltSession : Checker → Prop where
  | start (config : Config) : BuiltSession (.start config)
  | build : BuiltSession c → c.store.Construction s →
      BuiltSession { c with store := s }
  | move : BuiltSession c → context.Within c.store →
      BuiltSession { c with context }
  | take : BuiltSession c → BuiltSession { c with sink := {} }
  | ask {r : Request} : BuiltSession c → r.Within false c.store →
      BuiltSession (r.answer c)

namespace BuiltSession

variable {c : Checker}

lemma closed (h : BuiltSession c) : c.Closed false := by
  induction h with
  | start config => exact GuardedSession.start_closed config
  | build _ hs ih => exact ih.growth (hs.growth ih.store)
  | move _ hcontext ih => exact ⟨ih.store, ih.package, hcontext, ih.deferred, ih.info⟩
  | take _ ih => exact ⟨ih.store, ih.package, ih.context, ih.deferred, ih.info⟩
  | ask _ hr ih => exact (Request.safe ih hr).closed ih

lemma deferred_eq_nil (h : BuiltSession c) : c.deferred = [] := by
  induction h with
  | start config => rfl
  | build _ _ ih => exact ih
  | move _ _ ih => exact ih
  | take _ ih => exact ih
  | ask _ _ ih => exact Request.deferred_eq_nil _ ih

lemma builds (h : BuiltSession c)
    (hs : Relation.ReflTransGen Construction c.store s) : BuiltSession { c with store := s } := by
  induction hs with
  | refl => exact h
  | tail _ hlast ih => exact ih.build hlast

lemma keep (hstart : P (Checker.start {}).store)
    (hkeep : ∀ s s', s.Closed false → P s → s.Construction s' → P s')
    (h : BuiltSession c) : P c.store := by
  induction h with
  | start config => exact hstart
  | build h hs ih => exact hkeep _ _ h.closed.store ih hs
  | move _ _ ih => exact ih
  | take _ ih => exact ih
  | ask h hr ih => exact (Request.safe h.closed hr).keep_store hkeep h.closed ih

end BuiltSession

end GoCheck
