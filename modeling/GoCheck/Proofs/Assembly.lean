import GoCheck.Proofs.Construction
import GoCheck.Proofs.Isolation.Sessions

/-!
# How stores are assembled

A type parameter and a defined type are made of types that exist before, so the way down from a type
ends at a structure. Basic types are predeclared, and a defined type is made together with its type
name, which therefore stands for no other. So what identity does not look at is the same for
identical types.
-/

namespace GoCheck.Store

open Build Ty

/-- The stores that the constructors of entities make, from the predeclared entities on. A defined
type is made over any type there is, and stands on what lies beneath it; all else that a host or a
check does with existing entities is free. -/
inductive Made : Store → Prop where
  | initial : Made initial
  | defined : Made s → s.HasObject o → s.HasType under →
      Made (newType (.named { object := o, underlying := s.underlying under }) s).2
  | act : Made s → s.Construction s' →
      (∀ t n, s'.type t = .named n → ∃ m, s.type t = .named m) → Made s'

variable {s s' : Store}

lemma Ordered.beneath_underlyingWithin (hs : s.Ordered) (hn : t.index < n) :
    (s.type (s.underlyingWithin n t)).beneath? = none := by
  induction n generalizing t with
  | zero => omega
  | succ n ih =>
    cases hb : (s.type t).beneath? with
    | none => rwa [underlyingWithin_of_beneath_none hb]
    | some u =>
      have hlt := hs.beneath t u hb
      have hne : u ≠ t := by
        rintro rfl
        omega
      simp only [underlyingWithin, hb, if_neg hne]
      exact ih (by omega)

lemma Ordered.beneath_underlying (hs : s.Ordered) (t : TypeId) :
    (s.type (s.underlying t)).beneath? = none := by
  rcases lt_or_ge t.index (s.types.size + 1) with hlt | hge
  · exact hs.beneath_underlyingWithin hlt
  · have hnone : (s.type t).beneath? = none := by
      rw [type_of_size_le (by omega)]
      rfl
    rwa [underlying, underlyingWithin_of_beneath_none hnone]

lemma Ordered.underlying_underlying (hs : s.Ordered) (t : TypeId) :
    s.underlying (s.underlying t) = s.underlying t :=
  underlyingWithin_of_beneath_none (hs.beneath_underlying t) _

/-- No defined type stands on another one or on a type parameter. -/
def Flat (s : Store) : Prop := ∀ t n, s.type t = .named n → (s.type n.underlying).beneath? = none

lemma Construction.beneath?_eq (h : s.Construction s') (ht : s.HasType t) :
    (s'.type t).beneath? = (s.type t).beneath? := by
  cases h with
  | newType _ => rw [type_newType_of_lt ht]
  | newObject _ _ | addPackage _ | setObject _ _ _ _ => rfl
  | newScope | bind _ _ => simp [type]
  | addMethod =>
    rw [type_modifyType]
    split
    · cases s.type t <;> rfl
    · rfl

/-- An act keeps stores flat if a defined type that it makes stands on a structure. -/
lemma Flat.construction (hflat : s.Flat) (hs : s.Ordered) (h : s.Construction s')
    (hnew : ∀ t n, s'.type t = .named n → (∃ m, s.type t = .named m) ∨
      s.HasType n.underlying ∧ (s.type n.underlying).beneath? = none) : s'.Flat := by
  intro t n hn
  suffices hold : s.HasType n.underlying ∧ (s.type n.underlying).beneath? = none by
    rw [h.beneath?_eq hold.1, hold.2]
  rcases hnew t n hn with ⟨m, hm⟩ | hold
  -- a defined type there was stands where it stood, whatever methods it has got
  · have hlt : s.HasType t := lt_size_of_type_ne (by simp [hm])
    have hsame : (Ty.named n).beneath? = (Ty.named m).beneath? := by
      rw [← hn, ← hm, h.beneath?_eq hlt]
    obtain hsame : n.underlying = m.underlying := Option.some.inj hsame
    rw [hsame]
    exact ⟨(hs.beneath t _ (by rw [hm]; rfl)).trans hlt, hflat t m hm⟩
  · exact hold

namespace Made

lemma ordered_and_flat (h : s.Made) : s.Ordered ∧ s.Flat := by
  induction h with
  | initial =>
    refine ⟨ordered_of_forall_lt ?_ ?_ ?_, fun t n hn => ?_⟩
    · decide +kernel
    · decide +kernel
    · decide +kernel
    · have hall : ∀ i < Store.initial.types.size, ∀ u ∈ (Store.initial.type ⟨i⟩).beneath?,
          (Store.initial.type u).beneath? = none := by decide +kernel
      exact hall t.index (lt_size_of_type_ne (by simp [hn])) _ (by simp [hn, beneath?])
  | @defined s o under _ ho hunder ih =>
    obtain ⟨hs, hflat⟩ := ih
    have hlt : s.HasType (s.underlying under) := (hs.index_underlyingWithin_le _ under).trans_lt hunder
    have hact : s.Construction (newType (.named { object := o, underlying := s.underlying under }) s).2 :=
      .newType s ⟨by simpa [typeRefs] using hlt, by simpa [objectRefs] using ho, by simp⟩
    refine ⟨hs.construction hact, hflat.construction hs hact fun t n hn => ?_⟩
    rw [type_newType] at hn
    split at hn
    · obtain rfl := named.inj hn
      exact .inr ⟨hlt, hs.beneath_underlying under⟩
    · exact .inl ⟨n, hn⟩
  | act _ hact hnew ih =>
    exact ⟨ih.1.construction hact, ih.2.construction ih.1 hact fun t n hn => .inl (hnew t n hn)⟩

/-- In a store that the constructors make, a defined type stands on an earlier type, which is neither
defined nor a type parameter, and a type parameter on an earlier type. So the way down from any type
ends at one that stands on nothing before the steps allowed for it are used up, and there is no way
further down from there. -/
theorem underlying_reached (h : s.Made) (t : TypeId) :
    (∀ n, s.type t = .named n →
      n.underlying.index < t.index ∧ (s.type n.underlying).beneath? = none) ∧
    (∀ p, s.type t = .typeParam p → p.bound.index < t.index) ∧
    (∃ k < s.types.size + 1, s.underlyingWithin k t = s.underlying t) ∧
    (s.type (s.underlying t)).beneath? = none ∧
    s.underlying (s.underlying t) = s.underlying t := by
  obtain ⟨hs, hflat⟩ := h.ordered_and_flat
  refine ⟨fun n hn => ⟨hs.beneath t _ (by rw [hn]; rfl), hflat t n hn⟩,
    fun p hp => hs.beneath t _ (by rw [hp]; rfl), ?_, hs.beneath_underlying t,
    hs.underlying_underlying t⟩
  rcases lt_or_ge t.index s.types.size with hlt | hge
  · exact ⟨t.index + 1, by omega, hs.underlyingWithin_eq (by omega) (by omega)⟩
  · have hnone : (s.type t).beneath? = none := by rw [type_of_size_le hge]; rfl
    exact ⟨0, by omega, (underlyingWithin_of_beneath_none hnone _).symm⟩

lemma newTypeName (h : s.Made) : (newTypeName span name none s).2.Made :=
  h.act construction_newTypeName fun _ n hn => ⟨n, hn⟩

lemma named (h : s.Made) (hunder : s.HasType under) : (Build.named span name under s).2.Made :=
  (h.newTypeName.defined (by simp [HasObject, Build.newTypeName, newObject]) hunder).act
    construction_setType fun _ n hn => ⟨n, hn⟩

lemma typeParam (h : s.Made) (hbound : s.HasType bound) :
    (Build.typeParam span name index bound s).2.Made := by
  have hparam : (newType (.typeParam { object := ⟨s.objects.size⟩, index, bound })
      (Build.newTypeName span name none s).2).2.Made := by
    refine h.newTypeName.act (.newType _ (admits_typeParam hbound)) fun t n hn => ⟨n, ?_⟩
    rw [type_newType] at hn
    split at hn
    · cases hn
    · exact hn
  exact hparam.act construction_setType fun _ n hn => ⟨n, hn⟩

lemma addMethod (h : s.Made) (hsig : s.HasType sig) :
    (Build.addMethod t name sig pointerReceiver s).2.Made := by
  have hmethod : (Build.addMethod t name sig pointerReceiver s).2 =
      ((newFunc .dummy none name (some sig) s).2.modifyObject ⟨s.objects.size⟩
        (·.setPointerReceiver pointerReceiver)).modifyType t (withMethod ⟨s.objects.size⟩) :=
    congrArg (modifyType _ t) (funext fun ty => by cases ty <;> rfl)
  have hfunc : (newFunc .dummy none name (some sig) s).2.Made :=
    h.act (.newObject s rfl (by simpa using hsig)) fun _ n hn => ⟨n, hn⟩
  have hobject : (newFunc .dummy none name (some sig) s).2.HasObject ⟨s.objects.size⟩ := by
    simp [HasObject, newFunc, newObject]
  have hkeep (ob : Object) : ob.setPointerReceiver pointerReceiver =
      { ob with entity := (ob.setPointerReceiver pointerReceiver).entity } := by
    unfold Object.setPointerReceiver
    split <;> rfl
  have hset := hfunc.act (.setObject (f := (·.setPointerReceiver pointerReceiver)) _ hobject
    (fun ob => by rw [hkeep ob]) (fun ob => by rw [hkeep ob])
    fun ob t ht => .inl (by rwa [hkeep ob] at ht)) fun _ n hn => ⟨n, hn⟩
  rw [hmethod]
  refine hset.act (.addMethod _ t (by simpa [HasObject, modifyObject] using hobject)) fun u n hn => ?_
  rw [type_modifyType] at hn
  split at hn
  · generalize type _ u = ty at hn ⊢
    cases ty with
    | named m => exact ⟨m, rfl⟩
    | _ => cases hn
  · exact ⟨n, hn⟩

end Made

/-- A type parameter `Q` bounded by another one, `P`, and a defined type over `Q` with a method. -/
def stackedStore : Store :=
  (Build.addMethod ⟨35⟩ "String" ⟨29⟩ false (Build.named .dummy "T" ⟨34⟩
    (Build.typeParam .dummy "Q" 1 ⟨33⟩ (Build.typeParam .dummy "P" 0 .any initial).2).2).2).2

lemma stackedStore_made : stackedStore.Made :=
  (((Made.initial.typeParam (by decide +kernel)).typeParam (by decide +kernel)).named
    (by decide +kernel)).addMethod (by decide +kernel)

theorem stackedStore_underlying :
    (stackedStore.type ⟨34⟩).beneath? = some ⟨33⟩ ∧ (stackedStore.type ⟨33⟩).beneath? = some .any ∧
    (stackedStore.type ⟨35⟩).beneath? = some .any ∧
    (∃ k < stackedStore.types.size + 1,
      stackedStore.underlyingWithin k ⟨34⟩ = stackedStore.underlying ⟨34⟩) ∧
    (stackedStore.type (stackedStore.underlying ⟨34⟩)).beneath? = none := by
  obtain ⟨-, -, hreached, hnone, -⟩ := stackedStore_made.underlying_reached ⟨34⟩
  exact ⟨by decide +kernel, by decide +kernel, by decide +kernel, hreached, hnone⟩

end GoCheck.Store

/-! ## Assembled stores -/

namespace GoCheck

open Build

/-- The fields of a struct, or the methods of an interface. -/
def Ty.members : Ty → List ObjectId
  | .struct fields => fields
  | .interface i => i.methods
  | _ => []

namespace Store

/-- The stores that the makers of entities and the steps of checks lead to. A defined type is made with
a type name of its own, and a field or a method of an interface stays one. -/
inductive Assembled : Store → Prop where
  | start : Assembled (Checker.start {}).store
  | compose : Assembled s → s.Admits false ty → s.fills ty → ty.basic? = none → ty.named? = none →
      Assembled (newType ty s).2
  | define (span : Span) (name : String) : Assembled s → s.HasType under →
      Assembled (named span name under s).2
  | addMethod (t : TypeId) : Assembled s → s.HasObject m → Assembled (s.modifyType t (Ty.withMethod m))
  | act : Assembled s → s.Construction s' → s'.types = s.types →
      (∀ t, ∀ o ∈ (s.type t).members, (s'.object o).receiver? = (s.object o).receiver?) → Assembled s'
  | check : Assembled s → s.SafeStep false s' → Assembled s'

variable {s s' : Store} {ty : Ty}

lemma Closed.hasObject_member (h : s.Closed false) (ho : o ∈ (s.type t).members) :
    s.HasObject o := by
  refine h.member t o ?_
  cases hty : s.type t <;> simp_all [Ty.members, Ty.objectRefs]

lemma fills_congr (h : ∀ o ∈ ty.members, (s'.object o).receiver? = (s.object o).receiver?) :
    s'.fills ty = s.fills ty := by
  cases ty with
  | struct fields => exact all_congr fun f hf => by rw [h f hf]
  | interface i => exact all_congr fun m hm => by rw [h m hm]
  | _ => rfl

/-- Of the types that were there only defined ones change, and only their methods; a new one has a
new type name. -/
lemma WellSorted.step (h : s.WellSorted) (hs : s.Closed false)
    (hold : ∀ t, s.HasType t → s'.type t = s.type t ∨
      ∃ n methods, s.type t = .named n ∧ s'.type t = .named { n with methods })
    (hnew : ∀ t, s'.HasType t → s.HasType t ∨ (s'.type t).basic? = none ∧ s'.fills (s'.type t) ∧
      ∀ n, s'.type t = .named n → t = ⟨s.types.size⟩ ∧ ¬ s.HasObject n.object)
    (hobjects : ∀ t, ∀ o ∈ (s.type t).members, (s'.object o).receiver? = (s.object o).receiver?) :
    s'.WellSorted := by
  have hnamed {t m} (ht : s'.type t = .named m) : (∃ n, s.type t = .named n ∧ n.object = m.object) ∨
      t = ⟨s.types.size⟩ ∧ ¬ s.HasObject m.object := by
    rcases hnew t (lt_size_of_type_ne (by simp [ht])) with hlt | ⟨-, -, hnew⟩
    · rcases hold t hlt with heq | ⟨n, methods, hn, hn'⟩
      · exact .inl ⟨m, heq ▸ ht, rfl⟩
      · cases ht.symm.trans hn'
        exact .inl ⟨n, hn, rfl⟩
    · exact .inr (hnew m ht)
  have hobject {t n} (ht : s.type t = .named n) : s.HasObject n.object :=
    hs.member t n.object (by simp [ht, Ty.objectRefs])
  refine ⟨?_, fun t k ht hk => ?_, fun t u m n ht hu heq => ?_, fun t => ?_⟩
  · rcases hold .invalid (hs.hasType_basic .invalid) with heq | ⟨n, methods, hn, -⟩
    · exact heq.trans h.invalid
    · cases h.invalid.symm.trans hn
  · rcases hnew t ht with hlt | ⟨hnone, -⟩
    · rcases hold t hlt with heq | ⟨n, methods, -, hn'⟩
      · exact h.basic t k hlt (heq ▸ hk)
      · cases hk.symm.trans hn'
    · simp [hk, Ty.basic?] at hnone
  · rcases hnamed ht with ⟨m', hm, hobj⟩ | ⟨rfl, hfresh⟩ <;>
      rcases hnamed hu with ⟨n', hn, hobj'⟩ | ⟨rfl, hfresh'⟩
    · exact h.named t u m' n' hm hn (hobj.trans (heq.trans hobj'.symm))
    · exact absurd (hobject hm) (by rwa [hobj, heq])
    · exact absurd (hobject hn) (by rwa [hobj', ← heq])
    · rfl
  · rcases lt_or_ge t.index s'.types.size with ht | hge
    · rcases hnew t ht with hlt | ⟨-, hfills, -⟩
      · rcases hold t hlt with heq | ⟨n, methods, -, hn'⟩
        · rw [heq, fills_congr (hobjects t), h.fills t]
        · rw [hn']
          rfl
      · exact hfills
    · rw [type_of_size_le hge]
      rfl

lemma hasType_newType (h : (newType ty s).2.HasType t) : s.HasType t ∨ t = ⟨s.types.size⟩ := by
  obtain ⟨i⟩ := t
  simp only [HasType, newType, Array.size_push] at h
  rcases Nat.lt_succ_iff_lt_or_eq.mp h with hlt | rfl
  · exact .inl hlt
  · exact .inr rfl

/-- A type that is neither basic nor defined may be made. -/
lemma WellSorted.compose (h : s.WellSorted) (hs : s.Closed false) (hfills : s.fills ty)
    (hbasic : ty.basic? = none) (hnamed : ty.named? = none) : (newType ty s).2.WellSorted := by
  refine h.step hs (fun t ht => .inl (type_newType_of_lt ht)) (fun t ht => ?_) fun _ _ _ => rfl
  refine (hasType_newType ht).imp_right ?_
  rintro rfl
  rw [type_newType, if_pos rfl]
  exact ⟨hbasic, hfills, fun n hn => by simp [hn, Ty.named?] at hnamed⟩

lemma WellSorted.define (h : s.WellSorted) (hs : s.Closed false) :
    (Build.named span name under s).2.WellSorted := by
  refine h.step hs (fun t ht => .inl (type_newType_of_lt (s := (newTypeName span name none s).2) ht))
    (fun t ht => ?_) fun t o ho => ?_
  · refine (hasType_newType ht).imp_right ?_
    rintro rfl
    obtain ⟨m, htype, hobject⟩ : ∃ m, (Build.named span name under s).2.type ⟨s.types.size⟩ =
        .named m ∧ m.object = ⟨s.objects.size⟩ := ⟨_, (type_newType ..).trans (if_pos rfl), rfl⟩
    rw [htype]
    refine ⟨rfl, rfl, fun n hn => ⟨rfl, ?_⟩⟩
    rw [← Ty.named.inj hn, hobject]
    exact lt_irrefl _
  · -- the type name is the only object that is made or changed
    have hne : o.index ≠ s.objects.size := (hs.hasObject_member ho).ne
    have hobject : (newObject { entity := .typeName, span, name } s).2.object o = s.object o := by
      rw [object_newObject, if_neg hne]
    refine congrArg Object.receiver? ((object_modifyObject ..).trans ((if_neg ?_).trans hobject))
    rintro ⟨rfl, -⟩
    exact hne rfl

lemma WellSorted.addMethod (h : s.WellSorted) (hs : s.Closed false) :
    (s.modifyType t (Ty.withMethod m)).WellSorted := by
  refine h.step hs (fun u hu => ?_) (fun u hu => .inl ?_) fun _ _ _ => rfl
  · rw [type_modifyType]
    split
    · generalize type _ u = ty
      cases ty with
      | named n => exact .inr ⟨n, _, rfl, rfl⟩
      | _ => exact .inl rfl
    · exact .inl rfl
  · simpa [HasType, modifyType] using hu

lemma WellSorted.check (h : s.WellSorted) (hs : s.Closed false) (hstep : s.SafeStep false s') :
    s'.WellSorted := by
  have hkeep := hstep.step
  have hmembers t o (ho : o ∈ (s.type t).members) :
      (s'.object o).receiver? = (s.object o).receiver? := by
    refine hkeep.view_eq (fun _ _ _ _ => rfl) (fun ob used => ?_) (fun ob v => ?_) (hs.hasObject_member ho)
    all_goals cases hob : ob.entity
    all_goals simp [Object.setUsed, Object.setValue, Object.receiver?, hob]
  cases hstep with
  | @newType ty hty =>
    obtain ⟨hfills, hbasic, hnamed⟩ : s.fills ty ∧ ty.basic? = none ∧ ty.named? = none := by
      cases ty <;> first | exact ⟨rfl, rfl, rfl⟩ | cases hty
    exact h.compose hs hfills hbasic hnamed
  | _ =>
    refine h.step hs (fun t ht => .inl (hkeep.type_eq ht)) (fun t ht => .inl ?_) hmembers
    simpa [HasType, newObject, modifyObject] using ht

lemma wellSorted_start : (Checker.start {}).store.WellSorted := by
  have hsize : (Checker.start {}).store.types.size = 33 := by decide +kernel
  have hbasic : ∀ i < 33, ∀ k ∈ ((Checker.start {}).store.type ⟨i⟩).basic?, i = k.index := by
    decide +kernel
  have hnamed : ∀ i < 33, ∀ n ∈ ((Checker.start {}).store.type ⟨i⟩).named?, i = 31 := by
    decide +kernel
  have hfills : ∀ i < 33, (Checker.start {}).store.fills ((Checker.start {}).store.type ⟨i⟩) := by
    decide +kernel
  -- `error` is the only defined type
  have herror {t n} (ht : (Checker.start {}).store.type t = .named n) : t.index = 31 :=
    hnamed t.index (hsize ▸ lt_size_of_type_ne (by simp [ht])) n (by rw [ht]; rfl)
  refine ⟨by decide +kernel, fun t k ht hk => ?_, fun t u m n ht hu _ => ?_, fun t => ?_⟩
  · exact congrArg TypeId.mk (hbasic t.index (hsize ▸ ht) k (by rw [hk]; rfl))
  · exact congrArg TypeId.mk ((herror ht).trans (herror hu).symm)
  · rcases lt_or_ge t.index 33 with ht | hge
    · exact hfills t.index ht
    · rw [type_of_size_le (hsize.trans_le hge)]
      rfl

namespace Assembled

/-- A session leads there. -/
lemma session (h : s.Assembled) : BuiltSession { Checker.start {} with store := s } := by
  induction h with
  | start => exact .start {}
  | compose _ hty _ _ _ ih => exact ih.build (.newType _ hty)
  | define span name _ hunder ih =>
    exact ih.builds (constructs_named span name ih.closed.store hunder)
  | addMethod t _ hm ih => exact ih.build (.addMethod _ t hm)
  | act _ hact _ _ ih => exact ih.build hact
  | check _ hstep ih => exact ih.build hstep.construction

lemma wellSorted (h : s.Assembled) : s.WellSorted := by
  induction h with
  | start => exact wellSorted_start
  | compose h _ hfills hbasic hnamed ih =>
    exact ih.compose h.session.closed.store hfills hbasic hnamed
  | define span name h _ ih => exact ih.define h.session.closed.store
  | addMethod t h _ ih => exact ih.addMethod h.session.closed.store
  | act h _ htypes hobjects ih =>
    refine ih.step h.session.closed.store (fun t ht => .inl ?_) (fun t ht => .inl ?_) hobjects
    · rw [type, htypes, type]
    · rwa [HasType, ← htypes]
  | check h hstep ih => exact ih.check h.session.closed.store hstep

lemma newObject (h : s.Assembled) (hparent : ob.parent = none) (ht : ∀ t ∈ ob.type, s.HasType t) :
    (newObject ob s).2.Assembled := by
  refine h.act (.newObject s hparent ht) rfl fun t o ho => ?_
  rw [object_newObject, if_neg (h.session.closed.store.hasObject_member ho).ne]

lemma typeParam (h : s.Assembled) (hbound : s.HasType bound) :
    (Build.typeParam span name index bound s).2.Assembled := by
  have hname : (newTypeName span name none s).2.Assembled := h.newObject rfl (by simp)
  refine (hname.compose (admits_typeParam hbound) rfl rfl rfl).act construction_setType rfl ?_
  refine fun t o _ => (congrArg Object.receiver? (object_modifyObject ..)).trans ?_
  split <;> rfl

lemma errorsStore_assembled : errorsStore.Assembled := by
  have hfield : (newField "error" (some .error) true (Checker.start {}).store).2.Assembled :=
    start.newObject rfl (by decide +kernel)
  refine .compose (.compose (.compose hfield ⟨?_, ?_, by simp⟩ ?_ rfl rfl) ⟨?_, ?_, by simp⟩ ?_ rfl rfl)
    ⟨?_, ?_, by simp⟩ ?_ rfl rfl
  all_goals decide +kernel

/-- Two defined types that share the type name `error`, over an empty struct and over `int`. -/
def sharedStore : Store :=
  (newType (.named { object := ⟨21⟩, underlying := .basic .int })
    (newType (.named { object := ⟨21⟩, underlying := ⟨33⟩ })
      (newType (.struct []) (Checker.start {}).store).2).2).2

/-- Comparisons would decide identity there as well, but it would not be respected. -/
theorem sharedStore_assignable : sharedStore.Comparable ∧ sharedStore.identical ⟨34⟩ ⟨35⟩ = true ∧
    sharedStore.assignable { mode := .value, type := some ⟨33⟩ } ⟨34⟩ = true ∧
    sharedStore.assignable { mode := .value, type := some ⟨33⟩ } ⟨35⟩ = false := by
  refine ⟨comparable_of_isGrounded fun t ht => ?_, by decide +kernel, by decide +kernel,
    by decide +kernel⟩
  have hsize : sharedStore.types.size = 36 := by decide +kernel
  have hground : ∀ i < 36, sharedStore.isGrounded ⟨i⟩ := by decide +kernel
  exact hground t.index (hsize ▸ ht)

end Assembled

end Store

end GoCheck
