import GoCheck.Proofs.Selection.Agreement
import GoCheck.Proofs.Steps

/-!
# Stores without invalid types

A store is clean if no type in it is made of the invalid type, no object has the invalid type, and
whatever a type is made of or a name denotes has a type.
-/

namespace GoCheck

variable {ty : Ty} {c d : ScopeId}

namespace Ty

/-- The types that a type is directly made of. -/
def typeParts : Ty → List TypeId
  | array _ elem | slice elem | pointer elem | chan _ elem => [elem]
  | map key elem => [key, elem]
  | signature sig => [sig.params, sig.results]
  | named n => [n.underlying]
  | typeParam p => [p.bound]
  | basic _ | struct _ | tuple _ | interface _ => []

/-- The fields, variables or methods of a type. -/
def objectParts : Ty → List ObjectId
  | struct fields => fields
  | tuple vars => vars
  | interface i => i.methods
  | named n => n.methods
  | _ => []

lemma mem_typeParts_of_beneath? (h : ty.beneath? = some u) : u ∈ ty.typeParts := by
  cases ty <;> simp_all [beneath?, typeParts]

end Ty

namespace Store

variable {s s' : Store}

/-- The type is not the invalid one. -/
def Sound (s : Store) (t : TypeId) : Prop := s.type t ≠ .basic .invalid

instance (s : Store) (t : TypeId) : Decidable (s.Sound t) := inferInstanceAs (Decidable (_ ≠ _))

/-- The object has a type. -/
def Typed (s : Store) (o : ObjectId) : Prop := ∃ t, (s.object o).type = some t

lemma typed_iff : s.Typed o ↔ (s.object o).type.isSome := Option.isSome_iff_exists.symm

instance (s : Store) (o : ObjectId) : Decidable (s.Typed o) := decidable_of_iff _ typed_iff.symm

/-- The object is one of the store. -/
def HasObject (s : Store) (o : ObjectId) : Prop := o.index < s.objects.size

lemma Typed.hasObject (h : s.Typed o) : s.HasObject o := by
  obtain ⟨t, ht⟩ := h
  exact index_lt_of_object (P := (·.type = some t)) (by simp) ht

/-- No type is made of the invalid type, and what a type is made of or a name denotes has a type. -/
structure Clean (s : Store) : Prop where
  basic : ∀ k, s.type (.basic k) = .basic k
  noValue : s.Sound .noValue
  error : s.Sound .error
  part : ∀ t, ∀ u ∈ (s.type t).typeParts, s.Sound u
  member : ∀ t, ∀ o ∈ (s.type t).objectParts, s.Typed o
  object : ∀ o t, (s.object o).type = some t → s.Sound t
  bound : ∀ c, ∀ b ∈ (s.scope c).bindings, s.Typed b.2

lemma Sound.step (ht : s.Sound t) (h : s.Step s') : s'.Sound t := by
  unfold Sound
  rw [h.type_eq (lt_size_of_type_ne ht)]
  exact ht

lemma Sound.newType (ht : s.Sound t) : (Build.newType ty s).2.Sound t := by
  unfold Sound
  rw [type_newType_of_lt (lt_size_of_type_ne ht)]
  exact ht

lemma Typed.step (ho : s.Typed o) (h : s.Step s') : s'.Typed o := by
  obtain ⟨t, ht⟩ := ho
  exact ⟨t, h.object_type ht⟩

lemma HasObject.steps {c d : Checker} (ho : c.store.HasObject o) (h : c.Steps d) :
    d.store.HasObject o :=
  h.keepStore (fun hs ho => lt_of_lt_of_le ho hs.objects_size_le) ho

lemma Sound.steps {c d : Checker} (ht : c.store.Sound t) (h : c.Steps d) : d.store.Sound t :=
  h.keepStore (P := (·.Sound t)) (fun hs ht => ht.step hs) ht

/-- What holds of all types beneath others holds of what lies beneath a type of which it holds. -/
lemma underlyingWithin_keep {P : TypeId → Prop} (hP : ∀ t u, (s.type t).beneath? = some u → P u)
    (n : Nat) (ht : P t) : P (s.underlyingWithin n t) := by
  induction n generalizing t with
  | zero => exact ht
  | succ n ih =>
    simp only [underlyingWithin]
    cases hb : (s.type t).beneath? with
    | none => exact ht
    | some u =>
      dsimp only
      split
      · exact ht
      · exact ih (hP t u hb)

lemma mem_bindings_of_find? (h : (s.scope c).find? name = some o) :
    (name, o) ∈ (s.scope c).bindings := by
  obtain ⟨l, r, hb, -⟩ := List.lookup_eq_some_iff.mp h
  simp [hb]

lemma find?_of_resolveWithin
    (h : s.resolveWithin name n c = some (d, o)) : (s.scope d).find? name = some o := by
  induction n generalizing c with
  | zero => cases h
  | succ n ih =>
    simp only [resolveWithin] at h
    split at h
    · rename_i hf
      cases h
      exact hf
    · obtain ⟨p, -, hp⟩ := Option.bind_eq_some_iff.mp h
      exact ih hp

lemma mem_objectParts_of_mem_tupleVars (h : o ∈ s.tupleVars t) : o ∈ (s.type t).objectParts := by
  unfold tupleVars at h
  cases ht : s.type t <;> simp_all [Ty.tuple?, Ty.objectParts]

/-- What a selector denotes is part of a type. -/
lemma exists_mem_objectParts_of_select (h : s.select t addressable name = .entry o path indirect) :
    ∃ u, o ∈ (s.type u).objectParts := by
  obtain ⟨u, i, ho⟩ := exists_owns_of_select h
  cases ho with
  | method hu hm => exact ⟨u, by rw [hu]; exact List.mem_of_getElem? hm.1⟩
  | field _ hu hf _ =>
    refine ⟨s.underlying u, ?_⟩
    rw [show s.type (s.underlying u) = _ from hu]
    exact List.mem_of_getElem? hf
  | interfaceMethod _ hu hm =>
    refine ⟨s.underlying u, ?_⟩
    rw [show s.type (s.underlying u) = _ from hu]
    exact List.mem_of_getElem? hm.1

lemma sound_of_isInvalid_eq_false (h : s.isInvalid t = false) : s.Sound t := by
  intro ht
  have hu : s.underlying t = t := by simp [underlying, underlyingWithin, ht, Ty.beneath?]
  simp [isInvalid, family?, shape, hu, ht, Ty.basic?, BasicKind.family] at h

lemma sound_of_isUntyped (h : s.isUntyped t) : s.Sound t := by
  intro ht
  simp [isUntyped, ht, Ty.basic?, BasicKind.isUntyped] at h

namespace Clean

variable (hs : s.Clean)
include hs

lemma sound_basic (hk : k ≠ .invalid) : s.Sound (.basic k) := by
  intro h
  rw [hs.basic] at h
  exact hk (Ty.basic.inj h)

lemma ne_invalid (ht : s.Sound t) : t ≠ .invalid := by
  rintro rfl
  exact ht (hs.basic .invalid)

lemma sound_underlying (ht : s.Sound t) : s.Sound (s.underlying t) :=
  underlyingWithin_keep (fun t u h => hs.part t u (Ty.mem_typeParts_of_beneath? h)) _ ht

lemma isInvalid_eq_false (ht : s.Sound t) : s.isInvalid t = false := by
  have hshape : s.shape t ≠ .basic .invalid := hs.sound_underlying ht
  unfold isInvalid family?
  cases h : s.shape t with
  | basic k =>
    have hk : k ≠ .invalid := fun hk => hshape (by rw [h, hk])
    revert hk
    cases k <;> decide
  | _ => rfl

lemma sound_defaultType (ht : s.Sound t) : s.Sound (s.defaultType t) := by
  unfold defaultType
  cases h : s.type t with
  | basic k =>
    dsimp only
    split
    · rename_i hk
      refine hs.sound_basic fun hd => ?_
      revert hk hd
      cases k <;> decide
    · exact ht
  | _ => exact ht

lemma typed_of_mem_tupleVars (h : o ∈ s.tupleVars t) : s.Typed o :=
  hs.member t o (mem_objectParts_of_mem_tupleVars h)

variable {c : ScopeId}

lemma typed_of_find? (h : (s.scope c).find? name = some o) : s.Typed o :=
  hs.bound c _ (mem_bindings_of_find? h)

lemma typed_of_resolve? (h : s.resolve? c name = some (d, o)) : s.Typed o :=
  hs.typed_of_find? (find?_of_resolveWithin h)

lemma typed_of_select (h : s.select t addressable name = .entry o path indirect) : s.Typed o := by
  obtain ⟨u, ho⟩ := exists_mem_objectParts_of_select h
  exact hs.member u o ho

/-- A change of objects to sound types, and of names to objects with a type, keeps a store clean. -/
lemma of_types_eq (htypes : s'.types = s.types) (htyped : ∀ o, s.Typed o → s'.Typed o)
    (hobject : ∀ o t, (s'.object o).type = some t → (s.object o).type = some t ∨ s.Sound t)
    (hbound : ∀ c, ∀ b ∈ (s'.scope c).bindings, b ∈ (s.scope c).bindings ∨ s.Typed b.2) :
    s'.Clean := by
  have htype : ∀ t, s'.type t = s.type t := fun t => by simp [type, htypes]
  have hsound : ∀ t, s.Sound t → s'.Sound t := fun t ht => by rwa [Sound, htype]
  refine ⟨fun k => (htype _).trans (hs.basic k), hsound _ hs.noValue, hsound _ hs.error, ?_, ?_, ?_,
    ?_⟩
  · intro t u hu
    rw [htype] at hu
    exact hsound u (hs.part t u hu)
  · intro t o ho
    rw [htype] at ho
    exact htyped o (hs.member t o ho)
  · intro o t ht
    exact hsound t ((hobject o t ht).elim (hs.object o t) id)
  · intro c b hb
    exact htyped b.2 ((hbound c b hb).elim (hs.bound c b) id)

lemma newType (hparts : ∀ u ∈ ty.typeParts, s.Sound u)
    (hmembers : ∀ o ∈ ty.objectParts, s.Typed o) : (Build.newType ty s).2.Clean := by
  have hsound : ∀ {t}, s.Sound t → (Build.newType ty s).2.Sound t := fun h => h.newType
  refine ⟨fun k => ?_, hsound hs.noValue, hsound hs.error, ?_, ?_,
    fun o t ht => hsound (hs.object o t ht), hs.bound⟩
  · by_cases hk : k = .invalid
    · -- The invalid type has a number, since the types after it are in the store.
      subst hk
      have hlt := lt_size_of_type_ne hs.error
      rw [type_newType_of_lt (lt_trans (by decide) hlt), hs.basic]
    · rw [type_newType_of_lt (lt_size_of_type_ne (hs.sound_basic hk)), hs.basic]
  · intro t u hu
    rw [type_newType] at hu
    split at hu
    · exact hsound (hparts u hu)
    · exact hsound (hs.part t u hu)
  · intro t o ho
    rw [type_newType] at ho
    split at ho
    · exact hmembers o ho
    · exact hs.member t o ho

lemma newObject (h : ∀ t, ob.type = some t → s.Sound t) : (Build.newObject ob s).2.Clean := by
  refine hs.of_types_eq rfl (fun o ho => ho.step (.newObject s ob)) (fun o t ht => ?_)
    (fun c b hb => .inl hb)
  rw [object_newObject] at ht
  split at ht
  · exact .inr (h t ht)
  · exact .inl ht

lemma newScope : (Build.newScope parent start stop comment isFunc s).2.Clean := by
  refine hs.of_types_eq newScope_types (fun o ho => ho.step (.newScope ..)) (fun o t ht => .inl ?_)
    (fun c b hb => .inl ?_)
  · simpa [Store.object] using ht
  · rwa [bindings_newScope] at hb

lemma newPackage {path name : String} : ((Build.newPackage path name).run s).2.Clean := by
  have hscope : (Build.newScope (some Build.universeScope) 0 0 ("package " ++ path) false s).2.Clean :=
    hs.newScope
  exact hscope.of_types_eq rfl (fun _ ho => ho) (fun _ _ ht => .inl ht) fun _ _ hb => .inl hb

lemma bind (ho : s.Typed o) : (s.bind c o).2.Clean := by
  refine hs.of_types_eq (bind_types s c o) (fun o' ho' => ho'.step (.bind ..))
    (fun o' t ht => .inl ?_) (fun d b hb => ?_)
  · simpa using ht
  · rcases bindings_bind hb with hb | rfl
    · exact .inl hb
    · exact .inr ho

/-- A change of an object keeps a store clean if it gives the object no type but a sound one. -/
lemma modifyObject (hkeep : ∀ ob t, ob.type = some t → (f ob).type = some t)
    (hnew : ∀ ob t, (f ob).type = some t → ob.type = some t ∨ s.Sound t) :
    (s.modifyObject o f).Clean := by
  refine hs.of_types_eq rfl ?_ (fun o' t ht => ?_) (fun c b hb => .inl hb)
  · rintro o' ⟨t, ht⟩
    exact ⟨t, object_modifyObject_keep (hkeep · t) ht⟩
  · rw [object_modifyObject] at ht
    split at ht
    · exact hnew _ t ht
    · exact .inl ht

lemma modifyObject_of_type_eq (h : ∀ ob, (f ob).type = ob.type) : (s.modifyObject o f).Clean :=
  hs.modifyObject (fun ob _ ht => (h ob).trans ht) fun ob _ ht => .inl ((h ob).symm.trans ht)

lemma giveType (ht : s.Sound t) : (s.modifyObject o (·.giveType t)).Clean := by
  refine hs.modifyObject (fun ob u hu => ob.type_giveType_eq_some.mpr (.inl hu)) fun ob u hu => ?_
  rcases ob.type_giveType_eq_some.mp hu with hold | ⟨-, rfl⟩
  · exact .inl hold
  · exact .inr ht

end Clean

lemma typed_giveType (ho : s.HasObject o) : (s.modifyObject o (·.giveType t)).Typed o := by
  unfold Typed
  rw [object_modifyObject, if_pos ⟨rfl, ho⟩]
  cases h : (s.object o).type <;> simp [Object.giveType, h]

lemma clean_of_forall_lt (hbasic : ∀ k, s.type (.basic k) = .basic k)
    (hsound : s.Sound .noValue ∧ s.Sound .error)
    (hpart : ∀ i < s.types.size, ∀ u ∈ (s.type ⟨i⟩).typeParts, s.Sound u)
    (hmember : ∀ i < s.types.size, ∀ o ∈ (s.type ⟨i⟩).objectParts, s.Typed o)
    (hobject : ∀ i < s.objects.size, ∀ t ∈ (s.object ⟨i⟩).type, s.Sound t)
    (hbound : ∀ i < s.scopes.size, ∀ b ∈ (s.scope ⟨i⟩).bindings, s.Typed b.2) : s.Clean := by
  refine ⟨hbasic, hsound.1, hsound.2, fun t u hu => ?_, fun t o ho => ?_, fun o t ht => ?_,
    fun c b hb => ?_⟩
  · by_cases hlt : t.index < s.types.size
    · exact hpart t.index hlt u hu
    · simp [type_of_size_le (Nat.le_of_not_lt hlt), Ty.typeParts] at hu
  · by_cases hlt : t.index < s.types.size
    · exact hmember t.index hlt o ho
    · simp [type_of_size_le (Nat.le_of_not_lt hlt), Ty.objectParts] at ho
  · by_cases hlt : o.index < s.objects.size
    · exact hobject o.index hlt t ht
    · simp [object, Array.getElem?_eq_none (Nat.le_of_not_lt hlt), default] at ht
  · by_cases hlt : c.index < s.scopes.size
    · exact hbound c.index hlt b hb
    · simp [scope, Array.getElem?_eq_none (Nat.le_of_not_lt hlt), default] at hb

lemma initial_clean : initial.Clean := by
  refine clean_of_forall_lt initial_basic ?_ ?_ ?_ ?_ ?_
  all_goals decide +kernel

end Store

end GoCheck
