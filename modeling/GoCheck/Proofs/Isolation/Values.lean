import GoCheck.Proofs.Bounds.Checks
import GoCheck.Proofs.Isolation.Mirrors

/-!
# Values and types side by side

Assignments, conversions and types as written, from two states that differ in their numbers, make
the same reports and give the same outcome. The new types in a type as written have been made for it
alone.
-/

namespace GoCheck

open Renumbering List Store

variable {c c' : Checker} {s : Store} {t u old : TypeId} {i : Implicit} {span : Span}
  {ρ : Renumbering} {os ps rs : List ObjectId} {a' : α}

namespace Checker.Mirrored

variable (h : c.Mirrored ρ c')
include h

lemma describe (x : Operand) : (ρ.operand x).describe c'.store = x.describe c.store :=
  h.shifted.describe h.grown h.ordered x

lemma typeText (t : TypeId) : c'.store.typeText (ρ.type t) = c.store.typeText t :=
  h.shifted.typeText h.grown t

lemma typeTextOf (t : Option TypeId) : c'.store.typeTextOf (t.map ρ.type) = c.store.typeTextOf t :=
  h.shifted.typeTextOf h.grown t

lemma untypedTarget (x : Operand) (old : TypeId) (t : Option TypeId) :
    Pass.untypedTarget c'.store (ρ.operand x) (ρ.type old) (t.map ρ.type) =
      ρ.type (Pass.untypedTarget c.store x old t) := by
  unfold Pass.untypedTarget
  cases t with
  | none => exact h.shifted.defaultType old
  | some t =>
    simp only [Option.map_some, h.shifted.isNil, h.shifted.isPlainInterface h.ordered,
      h.shifted.defaultType]
    split <;> rfl

end Checker.Mirrored

/-- An operand of an old type that does not take on the type of its place as `nil` does. -/
structure Operand.Old (ρ : Renumbering) (x : Operand) : Prop where
  mode : x.mode ≠ .nilValue
  type : ∀ u ∈ x.type, ¬ρ.NewType u

namespace Operand.Old

variable {x : Operand}

lemma invalidated (h : x.Old ρ) : x.invalidated.Old ρ := ⟨by simp [Operand.invalidated], h.type⟩

lemma not_isNil (h : x.Old ρ) : x.isNil s = false := by
  simp [Operand.isNil, h.mode]

end Operand.Old

namespace Store

variable {x : Operand} {target : TypeId}

lemma not_newType_defaultType (ht : ¬ρ.NewType t) : ¬ρ.NewType (s.defaultType t) := by
  unfold defaultType
  split
  · split
    · exact not_newType_basic _
    · exact ht
  · exact ht

/-- A value keeps its type, or takes on its default type, where the target is a type literal. -/
lemma implicit_of_literal (hnil : x.isNil s = false) (hliteral : (s.type target).isNamed = false)
    (h : s.implicit x target = .ok i) :
    i.type = x.type ∨ ∃ old ∈ x.type, i.type = some (s.defaultType old) := by
  have hshape : s.shape target = s.type target := by
    have hbeneath : (s.type target).beneath? = none := by
      cases hty : s.type target <;> simp_all [Ty.isNamed, Ty.beneath?]
    simp [shape, underlying, underlyingWithin, hbeneath]
  have huntyped : s.isUntyped target = false := by
    cases hty : s.type target <;> simp_all [isUntyped, Ty.isNamed, Ty.basic?]
  have hparam : s.isTypeParam target = false := by
    cases hty : s.type target <;> simp_all [isTypeParam, Ty.isNamed, Ty.typeParam?]
  unfold implicit implicitWith at h
  simp only [hnil, hshape, huntyped, hparam, Bool.false_eq_true, if_false] at h
  split at h
  · rename_i hx
    cases h
    exact .inl hx.symm
  · rename_i old hx
    split at h
    · cases h
      exact .inl hx.symm
    · split at h
      · rename_i k hbasic
        simp [hbasic, Ty.isNamed] at hliteral
      · split at h
        · cases h
          exact .inr ⟨old, hx, rfl⟩
        · cases h
      · cases h

/-- Nothing happens to an operand where the target does not exist. -/
lemma implicit_of_not_hasType (ht : ¬s.HasType target) (h : s.implicit x target = .ok i) :
    i.type = x.type := by
  have htype : s.type target = .basic .invalid := by
    unfold type
    rw [Array.getElem?_eq_none (not_lt.mp ht)]
    rfl
  have hinvalid : s.isInvalid target := by
    simp [isInvalid, family?, shape, underlying, underlyingWithin, htype, Ty.beneath?, Ty.basic?,
      BasicKind.family]
  unfold implicit implicitWith at h
  rw [hinvalid] at h
  simp only [Bool.or_true, if_true] at h
  cases hx : x.type with
  | none | some old =>
    simp only [hx] at h
    rw [← Except.ok.inj h]

/-- A value takes on no new type, which is neither a basic type nor a type parameter. -/
lemma Grown.old_of_implicit (hg : s.Grown ρ) (hx : x.Old ρ) (h : s.implicit x target = .ok i) :
    ∀ u ∈ i.type, ¬ρ.NewType u := by
  by_cases hin : s.HasType target
  · by_cases hnew : ρ.NewType target
    · rcases implicit_of_literal hx.not_isNil (hg.unnamed target hnew hin) h with hsame | ⟨old, hold, hi⟩
      · rw [hsame]
        exact hx.type
      · rw [hi]
        rintro _ ⟨⟩
        exact not_newType_defaultType (hx.type old hold)
    · cases implicitly_of_implicit h with
      | same _ => exact hx.type
      | untyped _ hold _ _ hm =>
        rintro _ ⟨⟩
        rcases hm with rfl | rfl
        · exact hx.type _ hold
        · exact hnew
      | constant _ _ _ _ _ _ _ _ | value _ _ _ _ _ =>
        rintro _ ⟨⟩
        exact hnew
      | default _ hold _ _ =>
        rintro _ ⟨⟩
        exact not_newType_defaultType (hx.type _ hold)
  · rw [implicit_of_not_hasType hin h]
    exact hx.type

end Store

namespace Pass

variable {x : Operand} {ot : Option TypeId} {context : String}

section

variable (h : c.Mirrored ρ c')
include h

lemma mirrors_report_return
    {Q : α → Prop} (ha : a' = r a) (hQ : Q a) : (do report p span; pure a : Pass α).Mirrors ρ
      (do report p span; pure a') c c' r fun a _ => Q a :=
  (mirrors_report h rfl rfl).next fun _ hd => .pure hd ha hQ

lemma mirrors_refuse (ha : a' = r a) : (do report p span; pure a : Pass α).Mirrors ρ
      (do report p span; pure a') c c' r :=
  mirrors_report_return h ha .intro

lemma mirrors_singleValue : (singleValue x).Mirrors ρ (singleValue (ρ.operand x)) c c' ρ.operand
    fun y _ => x.Old ρ → y.Old ρ := by
  have hmany : ((ρ.operand x).mode = .value &&
      (ρ.operand x).type.any fun t => (c'.store.type t).tuple?.isSome : Bool) =
      (x.mode = .value && x.type.any fun t => (c.store.type t).tuple?.isSome : Bool) := by
    rw [operand_type, Option.any_map]
    simp only [h.shifted.type, tuple?_ty, Option.isSome_map]
    rfl
  simp only [singleValue, mirrors_entities_bind, hmany, h.describe]
  split
  · exact mirrors_report_return h rfl (·.invalidated)
  · exact .pure h rfl id

lemma mirrors_applyImplicit : (applyImplicit x i).Mirrors ρ
    (applyImplicit (ρ.operand x) (ρ.implicit i)) c c' ρ.operand fun y _ =>
      x.Old ρ → (∀ u ∈ i.type, ¬ρ.NewType u) → y.Old ρ := by
  simp only [applyImplicit, mirrors_entities_bind]
  refine (mirrors_onRecords h).next fun _ hd => .pure hd rfl fun hx hi => ⟨?_, hi⟩
  cases i.value with
  | none => exact hx.mode
  | some v => exact Mode.noConfusion

lemma mirrors_convertUntyped : (convertUntyped x t).Mirrors ρ
    (convertUntyped (ρ.operand x) (ρ.type t)) c c' ρ.operand := by
  have hshown : (if c.store.isTypeParam t then ρ.type t else ρ.type (c.store.underlying t)) =
      ρ.type (if c.store.isTypeParam t then t else c.store.underlying t) := by
    split <;> rfl
  simp only [convertUntyped, mirrors_entities_bind, h.shifted.implicit h.ordered,
    h.shifted.isTypeParam, h.shifted.underlying h.ordered, hshown, h.typeText, h.describe]
  cases c.store.implicit x t with
  | ok i => exact (mirrors_applyImplicit h).trivial
  | error k => exact mirrors_refuse h rfl

lemma mirrors_represent : (represent x t).Mirrors ρ (represent (ρ.operand x) (ρ.type t)) c c'
    ρ.operand := by
  simp only [represent, mirrors_entities_bind, h.shifted.represented h.ordered, h.typeText,
    h.describe]
  cases c.store.represented x t with
  | ok v => exact .done h rfl
  | error k => exact mirrors_refuse h rfl

lemma mirrors_assignUntyped : (assignUntyped x old ot context).Mirrors ρ
    (assignUntyped (ρ.operand x) (ρ.type old) (ot.map ρ.type) context) c c' ρ.operand
      fun y _ => x.Old ρ → y.Old ρ := by
  simp only [assignUntyped, mirrors_entities_bind, Option.isNone_map, h.shifted.isNil,
    h.untypedTarget, h.shifted.implicit h.ordered, h.typeText, h.describe]
  split
  · exact mirrors_report_return h rfl (·.invalidated)
  · cases himplicit : c.store.implicit x (untypedTarget c.store x old ot) with
    | ok i =>
      refine (mirrors_logEvent h).next fun _ hd => (mirrors_applyImplicit hd).mono ?_
      exact fun y _ _ hy hx => hy hx (h.grown.old_of_implicit hx himplicit)
    | error k => exact mirrors_report_return h rfl (·.invalidated)

lemma mirrors_reportGeneric :
    (reportGeneric x context).Mirrors ρ (reportGeneric (ρ.operand x) context) c c' id := by
  have hgeneric : ((ρ.operand x).type.any fun t =>
      (c'.store.shape t).signature?.any fun g => !g.typeParams.isEmpty) =
      x.type.any fun t => (c.store.shape t).signature?.any fun g => !g.typeParams.isEmpty := by
    rw [operand_type, Option.any_map]
    simp only [h.shifted.shape h.ordered, signature?_ty, Option.any_map,
      signature, isEmpty_map]
  simp only [reportGeneric, mirrors_entities_bind, hgeneric, h.describe]
  split
  · exact mirrors_report h rfl rfl
  · exact .done h rfl

lemma mirrors_assignTyped : (assignTyped x t context).Mirrors ρ
    (assignTyped (ρ.operand x) (ρ.type t) context) c c' ρ.operand fun y _ => x.Old ρ → y.Old ρ := by
  refine (mirrors_probe h (h.shifted.assign h.ordered h.grown x t)).next fun v hd => ?_
  cases v with
  | ok _ => exact .pure hd rfl id
  | error r =>
    simp only [id_eq, mirrors_entities_bind, hd.describe, hd.typeText]
    exact mirrors_report_return hd rfl (·.invalidated)

lemma mirrors_assignConverted : (assignConverted x ot context).Mirrors ρ
    (assignConverted (ρ.operand x) (ot.map ρ.type) context) c c' ρ.operand
      fun y _ => x.Old ρ → y.Old ρ := by
  unfold assignConverted
  rw [operand_isInvalid]
  split
  · exact .pure h rfl id
  · refine (mirrors_reportGeneric h).next fun _ hd => ?_
    cases ot with
    | none => exact .pure hd rfl id
    | some t => exact mirrors_assignTyped hd

lemma mirrors_assignValue : (assignValue x ot context).Mirrors ρ
    (assignValue (ρ.operand x) (ot.map ρ.type) context) c c' ρ.operand
      fun y _ => x.Old ρ → y.Old ρ := by
  have huntyped : (ρ.operand x).type.filter c'.store.isUntyped =
      (x.type.filter c.store.isUntyped).map ρ.type := by
    rw [operand_type]
    cases x.type with
    | none => rfl
    | some t =>
      simp only [Option.map_some, Option.filter_some, h.shifted.isUntyped]
      split <;> rfl
  simp only [assignValue, mirrors_entities_bind, huntyped]
  cases x.type.filter c.store.isUntyped with
  | some old =>
    refine (mirrors_assignUntyped h).bind fun y d d' _ hd hy => (mirrors_assignConverted hd).mono ?_
    exact fun z _ _ hz hx => hz (hy hx)
  | none => exact mirrors_assignConverted h

/-- An assignment has the same outcome. What is assigned from an old type keeps an old type. -/
lemma mirrors_assignment : (assignment x ot context).Mirrors ρ
    (assignment (ρ.operand x) (ot.map ρ.type) context) c c' ρ.operand
      fun y _ => x.Old ρ → y.Old ρ := by
  refine (mirrors_singleValue h).bind fun y d d' _ hd hy => ?_
  rw [operand_mode]
  cases y.mode with
  | invalid => exact .pure hd rfl hy
  | noValue | typeExpr =>
    simp only [mirrors_entities_bind, hd.describe, hd.typeTextOf]
    exact mirrors_report_return hd rfl hy
  | _ => exact (mirrors_assignValue hd).mono fun z _ _ hz hx => hz (hy hx)

lemma mirrors_assignTo : (assignment x (some t) context).Mirrors ρ
    (assignment (ρ.operand x) (some (ρ.type t)) context) c c' ρ.operand
      fun y _ => x.Old ρ → y.Old ρ :=
  mirrors_assignment h

lemma mirrors_refuseConversion : (refuseConversion x t cause).Mirrors ρ
    (refuseConversion (ρ.operand x) (ρ.type t) cause) c c' ρ.operand := by
  simp only [refuseConversion, mirrors_entities_bind, h.describe, h.typeText]
  exact mirrors_refuse h rfl

lemma mirrors_finishConversion : (finishConversion b x t).Mirrors ρ
    (finishConversion b (ρ.operand x) (ρ.type t)) c c' ρ.operand := by
  have hlog : (x.expr.forM fun e => recordConversion ⟨e, t, x.mode.isConstant⟩).Mirrors ρ
      (x.expr.forM fun e => recordConversion ⟨e, ρ.type t, x.mode.isConstant⟩) c c' id := by
    cases x.expr with
    | none => exact .done h rfl
    | some e => exact mirrors_recordConversion h
  refine hlog.next fun _ hd => mirrors_entities_bind.mpr ?_
  exact (mirrors_onRecords hd).bind fun _ e e' _ he _ => .done he rfl

variable {v : Constant}

lemma mirrors_convertConstant : (convertConstant x v t).Mirrors ρ
    (convertConstant (ρ.operand x) v (ρ.type t)) c c' ρ.operand := by
  simp only [convertConstant, mirrors_entities_bind, h.shifted.convertConstant? h.ordered,
    operand_typeOrInvalid, h.shifted.isInteger h.ordered, h.typeText]
  cases c.store.convertConstant? x v t with
  | some w => exact mirrors_finishConversion h
  | none =>
    dsimp only
    split
    · exact mirrors_refuse h rfl
    · exact mirrors_refuseConversion h

lemma mirrors_convertToTypeParam : (convertToTypeParam x v t).Mirrors ρ
    (convertToTypeParam (ρ.operand x) v (ρ.type t)) c c' ρ.operand := by
  have hfind : ((c.store.terms t).map ρ.type).find?
      (fun u => (c'.store.convertConstant? (ρ.operand x) v u).isNone) =
      ((c.store.terms t).find? fun u => (c.store.convertConstant? x v u).isNone).map ρ.type := by
    rw [find?_map]
    simp only [Function.comp_def, h.shifted.convertConstant? h.ordered]
  simp only [convertToTypeParam, mirrors_entities_bind, h.shifted.terms h.ordered, hfind,
    isEmpty_map, h.describe, h.typeText]
  cases (c.store.terms t).find? fun u => (c.store.convertConstant? x v u).isNone with
  | some u =>
    simp only [Option.map_some, h.typeText]
    exact mirrors_refuseConversion h
  | none =>
    dsimp only [Option.map_none]
    split
    · exact mirrors_refuseConversion h
    · exact mirrors_finishConversion h

lemma mirrors_conversion : (conversion x t).Mirrors ρ (conversion (ρ.operand x) (ρ.type t)) c c'
    ρ.operand := by
  have hconvert : (probe (·.convert x t)).Mirrors ρ
      (probe (·.convert (ρ.operand x) (ρ.type t))) c c' id :=
    mirrors_probe h (h.shifted.convert h.ordered h.grown x t)
  simp only [conversion, mirrors_entities_bind, operand_mode,
    h.shifted.isConstType h.ordered, h.shifted.isTypeParam]
  cases x.mode.constant? with
  | none =>
    refine hconvert.next fun o hd => ?_
    cases o with
    | ok _ => exact mirrors_finishConversion hd
    | error cause => exact mirrors_refuseConversion hd
  | some v =>
    cases c.store.isConstType t with
    | true => exact mirrors_convertConstant h
    | false =>
      cases c.store.isTypeParam t with
      | true => exact mirrors_convertToTypeParam h
      | false =>
        refine hconvert.next fun o hd => ?_
        cases o with
        | ok _ => exact mirrors_finishConversion hd
        | error cause => exact mirrors_refuseConversion hd

end

end Pass

namespace Store

variable {d : Checker}

/-- Of new types, only such from a number on occur in the type. -/
def Fresh (s : Store) (ρ : Renumbering) (n : Nat) (t : TypeId) : Prop :=
  ∀ u, s.Occurs ρ t u → n ≤ u.index

lemma Fresh.mono (h : s.Fresh ρ n t) (hm : m ≤ n) : s.Fresh ρ m t :=
  fun u hu => hm.trans (h u hu)

lemma fresh_of_not_newType (ht : ¬ρ.NewType t) : s.Fresh ρ n t :=
  fun _ hu => absurd hu.newType ht

/-- What occurs in a type later on has occurred in it before. -/
lemma Occurs.of_steps (h : d.store.Occurs ρ t u) (hd : c.Steps d) (hc : c.store.Closed false)
    (hg : c.store.Grown ρ) (ht : c.store.HasType t) : c.store.Occurs ρ t u := by
  induction h with
  | self hnew => exact .self hnew
  | @part t k u hnew hk _ ih =>
    have hcomponents : d.store.components t = c.store.components t := by
      unfold components componentsOf
      rw [hd.type_eq ht]
      congr 1
      refine filterMap_congr fun o ho => ?_
      obtain ⟨v, hv⟩ := Option.isSome_iff_exists.mp (hg.member t hnew o ho).2
      rw [hv, hd.object_type hv]
    rw [hcomponents] at hk
    exact .part hnew hk (ih (hc.hasType_of_component hk))

lemma Fresh.steps (h : c.store.Fresh ρ n t) (hd : c.Steps d) (hc : c.store.Closed false)
    (hg : c.store.Grown ρ) (ht : c.store.HasType t) : d.store.Fresh ρ n t :=
  fun u hu => h u (hu.of_steps hd hc hg ht)

lemma Apart.steps (h : c.store.Apart ρ ts) (hd : c.Steps d)
    (hc : c.store.Closed false) (hg : c.store.Grown ρ) (hts : ∀ t ∈ ts, c.store.HasType t) :
    d.store.Apart ρ ts :=
  h.imp_of_mem fun ha hb hab u hu hv =>
    hab u (hu.of_steps hd hc hg (hts _ ha)) (hv.of_steps hd hc hg (hts _ hb))

lemma Grown.apart_of_fresh (hg : s.Grown ρ) (ht : t.index < n) (hu : s.Fresh ρ n u) :
    ∀ v, s.Occurs ρ t v → ¬s.Occurs ρ u v := by
  intro v hv hv'
  have := hg.index_le_of_occurs hv
  have := hu v hv'
  omega

/-- Parameters made one after the other, with types from a range of numbers, no new one twice. -/
structure Params (s : Store) (ρ : Renumbering) (n m : Nat) (os : List ObjectId) : Prop where
  member : ∀ o ∈ os, ρ.NewObject o ∧ ∃ t, (s.object o).type = some t ∧ t.index < m ∧ s.Fresh ρ n t
  apart : s.Apart ρ (os.filterMap fun o => (s.object o).type)

lemma Params.steps (h : c.store.Params ρ n m os) (hd : c.Steps d)
    (hc : c.store.Closed false) (hg : c.store.Grown ρ) : d.store.Params ρ n m os := by
  have htypes : (os.filterMap fun o => (d.store.object o).type) =
      os.filterMap fun o => (c.store.object o).type := by
    refine filterMap_congr fun o ho => ?_
    obtain ⟨-, t, ht, -⟩ := h.member o ho
    rw [ht, hd.object_type ht]
  refine ⟨fun o ho => ?_, ?_⟩
  · obtain ⟨hnew, t, ht, hin, hfresh⟩ := h.member o ho
    exact ⟨hnew, t, hd.object_type ht, hin, hfresh.steps hd hc hg (hc.object o t ht)⟩
  · rw [htypes]
    refine h.apart.steps hd hc hg fun t ht => ?_
    obtain ⟨o, ho, hot⟩ := mem_filterMap.mp ht
    exact hc.object o t hot

end Store

namespace Pass

section

variable (h : c.Mirrored ρ c') (hc : c.Closed false)
include h hc

variable {ty : Ty}

/-- A new type that is made of types that were made one after the other. -/
lemma mirrors_newType (hadmits : c.store.Admits false ty)
    (hmember : ∀ o ∈ ty.objectRefs, ρ.NewObject o ∧ (c.store.object o).type.isSome)
    (hresults : ∀ g, ty = .signature g → ρ.NewType g.results)
    (hapart : c.store.Apart ρ (c.store.componentsOf ty)) :
    (newType ty hty).Mirrors ρ (newType (ρ.ty ty) hty') c c' ρ.type fun u d =>
      ρ.NewType u ∧ u.index = c.store.types.size ∧ ∀ v, d.store.Occurs ρ u v →
        v = u ∨ c.store.OccursIn ρ (c.store.componentsOf ty) v := by
  have hgrown := h.grown.newType hc.store hadmits h.shifted.types_start hty hmember hresults hapart
  refine mirrors_build h (h.ordered.newType hty) hgrown h.shifted.newType
    (.newType h.shifted.types_start) h.shifted.nextType ⟨h.shifted.types_start, rfl, ?_⟩
  intro v hv
  cases hv with
  | self _ => exact .inl rfl
  | part _ hk hv =>
    change _ ∈ (Build.newType ty c.store).2.components ⟨c.store.types.size⟩ at hk
    rw [components_newType, if_pos rfl] at hk
    have hin := hasType_of_mem_componentsOf hc.store hadmits hk
    exact .inr ⟨_, hk, hv.of_newType hc.store hin⟩

lemma mirrors_newPlain (hobjects : ty.objectRefs = []) (hsig : ty.signature? = none)
    (hparts : ∀ u ∈ ty.typeRefs, c.store.HasType u ∧ c.store.Fresh ρ n u)
    (hapart : c.store.Apart ρ ty.typeRefs) (hn : n ≤ c.store.types.size) :
    (newType ty hty).Mirrors ρ (newType (ρ.ty ty) hty') c c' ρ.type fun u d =>
      d.store.Fresh ρ n u := by
  have hcomponents : c.store.componentsOf ty = ty.typeRefs := by simp [componentsOf, hobjects]
  have hadmits : c.store.Admits false ty :=
    admits_of_refs hsig (fun u hu => (hparts u hu).1) (by simp [hobjects])
  refine (mirrors_newType h hc hadmits (by simp [hobjects]) ?_ (hcomponents ▸ hapart)).mono ?_
  · rintro g rfl
    simp [Ty.signature?] at hsig
  · rintro u d - ⟨-, hindex, hoccurs⟩ v hv
    rcases hoccurs v hv with rfl | ⟨k, hk, hkv⟩
    · exact hindex ▸ hn
    · exact (hparts k (hcomponents ▸ hk)).2 v hkv

lemma mirrors_newElement (ht : c.store.HasType t) (hfresh : c.store.Fresh ρ n t)
    (hn : n ≤ c.store.types.size) (hrefs : ty.typeRefs = [t]) (hobjects : ty.objectRefs = [])
    (hsig : ty.signature? = none) :
    (newType ty hty).Mirrors ρ (newType (ρ.ty ty) hty') c c' ρ.type fun u d =>
      d.store.Fresh ρ n u :=
  mirrors_newPlain h hc hobjects hsig (by simpa [hrefs] using ⟨ht, hfresh⟩)
    (hrefs ▸ pairwise_singleton ..) hn

lemma mirrors_newTuple (hos : ∀ o ∈ os, c.store.HasObject o) (hparams : c.store.Params ρ n m os) :
    (newTuple os).Mirrors ρ (newTuple (os.map ρ.object)) c c' ρ.type fun u d =>
      ρ.NewType u ∧ u.index = c.store.types.size ∧
        ∀ v, d.store.Occurs ρ u v → v = u ∨ n ≤ v.index ∧ v.index < m := by
  have hadmits : c.store.Admits false (.tuple os) := admits_of_refs rfl (by simp [Ty.typeRefs]) hos
  refine (mirrors_newType h hc hadmits ?_ (by rintro g ⟨⟩) hparams.apart).mono ?_
  · intro o ho
    obtain ⟨hnew, u, hu, -⟩ := hparams.member o ho
    exact ⟨hnew, by rw [hu]; rfl⟩
  · rintro u d - ⟨hnew, hindex, hoccurs⟩
    refine ⟨hnew, hindex, fun v hv => (hoccurs v hv).imp_right ?_⟩
    rintro ⟨k, hk, hkv⟩
    obtain ⟨o, ho, hok⟩ := mem_filterMap.mp hk
    obtain ⟨-, t, ht, hbelow, hfresh⟩ := hparams.member o ho
    cases ht.symm.trans hok
    exact ⟨hfresh v hkv, lt_of_le_of_lt (h.grown.index_le_of_occurs hkv) hbelow⟩

/-- A pair whose second part is of an old type. -/
lemma mirrors_tupleOf (ht : c.store.HasType t) (hu : c.store.HasType u) (hold : ¬ρ.NewType u) :
    (tupleOf [t, u]).Mirrors ρ (tupleOf [ρ.type t, ρ.type u]) c c' ρ.type := by
  simp only [tupleOf, mapM_cons, mapM_nil, bind_assoc, pure_bind]
  have hmake : ∀ {d d' v}, d.Mirrored ρ d' → d.Closed false →
      d.store.HasType v → (newParam Span.dummy none "" (some v)).Mirrors ρ
        (newParam Span.dummy none "" (some (ρ.type v))) d d' ρ.object fun o e =>
          (ρ.NewObject o ∧ (e.store.object o).type = some v) ∧ e.Closed false ∧
            e.store.HasObject o :=
    fun hd hclosed hv => Mirrors.safe (mirrors_newParam hd) (safe_newParam hclosed (by simpa using hv))
  refine (hmake h hc ht).bind fun o d d' hd hmirrored ho => ?_
  refine (hmake hmirrored ho.2.1 (hu.steps hd.steps)).bind fun p e e' he hmirrored' hp => ?_
  have htype := he.steps.object_type ho.1.2
  have hparams : e.store.Params ρ 0 e.store.types.size [o, p] := by
    refine ⟨?_, ?_⟩
    · simp only [forall_mem_cons]
      refine ⟨⟨ho.1.1, t, htype, ht.steps (hd.trans he).steps, fun _ _ => Nat.zero_le _⟩,
        ⟨hp.1.1, u, hp.1.2, hu.steps (hd.trans he).steps, fun _ _ => Nat.zero_le _⟩, by simp⟩
    · simp only [filterMap_cons, filterMap_nil, htype, hp.1.2, Apart,
        pairwise_pair]
      exact fun v _ hv => hold hv.newType
  have hin : ∀ q ∈ [o, p], e.store.HasObject q := by simpa using ⟨ho.2.2.steps he.steps, hp.2.2⟩
  exact (mirrors_newTuple hmirrored' hp.2.1 hin hparams).trivial

variable {x : ScopeId}

/-- A signature whose results have been made after its parameters. -/
lemma mirrors_signature (hps : ∀ o ∈ ps, c.store.HasObject o) (hrs : ∀ o ∈ rs, c.store.HasObject o)
    (hparams : c.store.Params ρ n m ps) (hresults : c.store.Params ρ m c.store.types.size rs)
    (hn : n ≤ m) (hm : m ≤ c.store.types.size) :
    (do let params ← newTuple ps let results ← newTuple rs
        return (← newSignature { params, results, variadic }, x)).Mirrors ρ
      (do let params ← newTuple (ps.map ρ.object) let results ← newTuple (rs.map ρ.object)
          return (← newSignature { params, results, variadic }, ρ.scope x)) c c'
      (Prod.map ρ.type ρ.scope) fun r d =>
        ρ.NewType r.1 ∧ r.2 = x ∧ d.store.Fresh ρ n r.1 := by
  refine ((mirrors_newTuple h hc hps hparams).safe (safe_newTuple hc hps)).bind
    fun pt d d' hd hmirrored hpt => ?_
  obtain ⟨⟨-, hptindex, hptoccurs⟩, hclosed, hptin, -⟩ := hpt
  have hrs' : ∀ o ∈ rs, d.store.HasObject o := fun o ho => (hrs o ho).steps hd.steps
  refine ((mirrors_newTuple hmirrored hclosed hrs' (hresults.steps hd.steps hc.store h.grown)).safe
    (safe_newTuple hclosed hrs')).bind fun rt e e' he hmirrored' hrt => ?_
  obtain ⟨⟨hrtnew, hrtindex, hrtoccurs⟩, hclosed', hrtin, -⟩ := hrt
  have hptoccurs' : ∀ v, e.store.Occurs ρ pt v → v = pt ∨ n ≤ v.index ∧ v.index < m :=
    fun v hv => hptoccurs v (hv.of_steps he.steps hclosed.store hmirrored.grown hptin)
  have hptin' : pt.index < d.store.types.size := hptin
  have hadmits : e.store.Admits false (.signature { params := pt, results := rt, variadic }) :=
    ⟨by simpa [Ty.typeRefs] using ⟨hptin.steps he.steps, hrtin⟩, by simp [Ty.objectRefs], by simp⟩
  have hapart : ∀ v, e.store.Occurs ρ pt v → ¬e.store.Occurs ρ rt v := by
    intro v hv hv'
    have hleft := hptoccurs' v hv
    have hright := hrtoccurs v hv'
    rcases hleft with rfl | hleft <;> rcases hright with rfl | hright <;> omega
  refine (mirrors_newType hmirrored' hclosed' hadmits (by simp [Ty.objectRefs]) ?_ ?_).bind
    fun t f f' hf hmirrored'' ht => .pure hmirrored'' rfl ⟨ht.1, rfl, fun v hv => ?_⟩
  · rintro g ⟨⟩
    exact hrtnew
  · simpa [componentsOf, Ty.typeRefs, Ty.objectRefs, Apart] using hapart
  · have := he.steps.types_size_le
    rcases ht.2.2 v hv with rfl | ⟨k, hk, hkv⟩
    · omega
    · rcases (by simpa [componentsOf, Ty.typeRefs, Ty.objectRefs] using hk :
        k = pt ∨ k = rt) with rfl | rfl
      · rcases hptoccurs' v hkv with rfl | hrange <;> omega
      · rcases hrtoccurs v hkv with rfl | hrange <;> omega

omit hc

/-- A name denotes an old type. -/
lemma mirrors_resolveType {i : Ident} :
    i.resolveType.Mirrors ρ i.resolveType c c' ρ.type fun u _ => ¬ρ.NewType u := by
  have hinvalid : ¬ρ.NewType .invalid := not_newType_of_le_any (Nat.zero_le _)
  have hreport : ∀ {d d' p}, d.Mirrored ρ d' →
      (do report p i.span; pure .invalid : Pass TypeId).Mirrors ρ (do report p i.span; pure .invalid)
        d d' ρ.type fun u _ => ¬ρ.NewType u :=
    fun hd => (mirrors_report hd rfl rfl).next fun _ he =>
      .pure he type_invalid.symm hinvalid
  unfold Ident.resolveType
  split
  · exact hreport h
  · refine (mirrors_lookup h).bind fun o d d' _ hd _ => ?_
    cases o with
    | none => exact hreport hd
    | some o =>
      refine (mirrors_recordUse hd).bind fun _ e e' _ he _ => mirrors_entities_bind.mpr ?_
      simp only [he.shifted.isTypeName, he.shifted.name, he.shifted.objectType]
      cases hname : (e.store.object o).isTypeName with
      | false => exact hreport he
      | true =>
        -- No new object is the name of a type.
        have hold : ¬ρ.NewObject o := fun hnew => by simp [he.grown.value o hnew] at hname
        refine .pure he (getD_map_type _) ?_
        cases htype : (e.store.object o).type with
        | none => exact hinvalid
        | some u => exact he.grown.oldObject o hold u htype

lemma mirrors_declareParam {name : Option Ident}
    (hx : ρ.NewScope x) : (declareParam x visibleFrom name span t).Mirrors ρ
      (declareParam (ρ.scope x) visibleFrom name span (ρ.type t)) c c' ρ.object fun o d =>
        ρ.NewObject o ∧ (d.store.object o).type = some t := by
  simp only [declareParam, mirrors_current_bind, h.package]
  cases name with
  | none => exact mirrors_newParam h
  | some i =>
    refine Mirrors.bind (mirrors_newParam h) fun o d d' _ hd ho => ?_
    refine (mirrors_declare hd hx ho.1).bind fun _ e e' he hmirrored _ => ?_
    exact .pure hmirrored rfl ⟨ho.1, he.steps.object_type ho.2⟩

end

mutual

/-- A type expression denotes a type with a matching number, whose new types are made for it. -/
theorem mirrors_resolve (e : TypeExpr) {c c' : Checker} (h : c.Mirrored ρ c') (hc : c.Closed false)
    :
    e.resolve.Mirrors ρ e.resolve c c' ρ.type fun t d => d.store.Fresh ρ c.store.types.size t := by
  have hsize : ∀ {d}, c.Onward d → c.store.types.size ≤ d.store.types.size :=
    fun hd => hd.steps.types_size_le
  cases e with simp only [TypeExpr.resolve]
  | name span i => exact (mirrors_resolveType h).mono fun t d _ ht => fresh_of_not_newType ht
  | pointer span elem | slice span elem | chan span dir elem =>
    refine ((mirrors_resolve elem h hc).safe (safe_resolve hc elem elem.collects_false)).bind
      fun t d d' hd hmirrored ht => ?_
    exact mirrors_newElement hmirrored ht.2.1 ht.2.2 ht.1 (hsize hd) rfl rfl rfl
  | map span key value =>
    refine ((mirrors_resolve key h hc).safe (safe_resolve hc key key.collects_false)).bind
      fun k d d' hd hmirrored hk => ?_
    obtain ⟨hfresh, hclosed, hin⟩ := hk
    refine ((mirrors_resolve value hmirrored hclosed).safe
      (safe_resolve hclosed value value.collects_false)).bind fun t e e' he hmirrored' ht => ?_
    have hkey := hfresh.steps he.steps hclosed.store hmirrored.grown hin
    have hvalue := ht.1.mono (hsize hd)
    refine mirrors_newPlain hmirrored' ht.2.1 rfl rfl ?_ ?_ (hsize (hd.trans he))
    · simpa [Ty.typeRefs] using ⟨⟨hin.steps he.steps, hkey⟩, ht.2.2, hvalue⟩
    · -- The element was made after the key.
      simpa [Ty.typeRefs, Apart] using hmirrored'.grown.apart_of_fresh hin ht.1
  | func span sig =>
    exact (mirrors_resolveSig sig h hc).bind fun r d d' _ hd hr => .pure hd rfl hr.2.2

/-- A signature as written becomes a new type, and its scope is new. -/
theorem mirrors_resolveSig (sig : FuncSigOf TypeExpr) {c c' : Checker} (h : c.Mirrored ρ c')
    (hc : c.Closed false) :
    (resolveSig sig).Mirrors ρ (resolveSig sig) c c' (Prod.map ρ.type ρ.scope) fun r d =>
      ρ.NewType r.1 ∧ ρ.NewScope r.2 ∧ d.store.Fresh ρ c.store.types.size r.1 := by
  cases sig with
  | mk params results variadic span =>
    simp only [resolveSig, mirrors_current_bind, h.context, context]
    refine ((mirrors_newScope h hc.context.scope).safe (safe_newScope hc hc.context.scope)).bind
      fun x d d' hd hmirrored hx => ?_
    obtain ⟨⟨hnew, hin, -⟩, hclosed, -⟩ := hx
    refine ((mirrors_recordScope hmirrored).safe (safe_recordScope hclosed hin)).bind
      fun _ e e' he hmirrored' hrecorded => ?_
    obtain ⟨-, hclosed', -⟩ := hrecorded
    have hin' := hin.steps he.steps
    refine ((mirrors_resolveParams x hnew span.stop variadic params hmirrored' hclosed' hin').safe
      (safe_resolveParams hclosed' span.stop variadic params (paramsCollect_false params)
        hin')).bind fun ps f f' hf hmirroredf hps => ?_
    obtain ⟨hps, hclosedf, -, hpsin⟩ := hps
    refine ((mirrors_resolveParams x hnew span.stop false results hmirroredf hclosedf
      (hin'.steps hf.steps)).safe (safe_resolveParams hclosedf span.stop false results
        (paramsCollect_false results) (hin'.steps hf.steps))).bind
          fun rs g g' hg hmirroredg hrs => ?_
    obtain ⟨hrs, hclosedg, -, hrsin⟩ := hrs
    have hsize := (hd.trans he).steps.types_size_le
    refine (mirrors_signature hmirroredg hclosedg (fun o ho => (hpsin o ho).steps hg.steps) hrsin
      (hps.steps hg.steps hclosedf.store hmirroredf.grown) hrs hf.steps.types_size_le
      hg.steps.types_size_le).mono fun r k hk hr => ⟨hr.1, ?_, hr.2.2.mono hsize⟩
    exact hr.2.1 ▸ hnew

theorem mirrors_resolveParams (x : ScopeId) (hx : ρ.NewScope x) (visibleFrom : Nat)
    (variadic : Bool) (ps : List (ParamOf TypeExpr)) {c c' : Checker} (h : c.Mirrored ρ c')
    (hc : c.Closed false) (hin : c.store.HasScope x) :
    (resolveParams x visibleFrom variadic ps).Mirrors ρ
      (resolveParams (ρ.scope x) visibleFrom variadic ps) c c' (map ρ.object) fun os d =>
        d.store.Params ρ c.store.types.size d.store.types.size os := by
  cases ps with
  | nil =>
    simp only [resolveParams]
    exact .pure h rfl ⟨by simp, .nil⟩
  | cons p ps =>
    simp only [resolveParams]
    refine ((mirrors_resolveParam x hx visibleFrom _ p h hc).safe
      (safe_resolveParam hc visibleFrom _ p (paramCollects_false p) hin)).bind
      fun o d d' hd hmirrored ho => ?_
    obtain ⟨⟨hnew, t, ht, hfresh⟩, hclosed, -⟩ := ho
    have htin : d.store.HasType t := hclosed.store.object o t ht
    refine (mirrors_resolveParams x hx visibleFrom variadic ps hmirrored hclosed
      (hin.steps hd.steps)).bind fun os e e' he hmirrored' hos => .pure hmirrored' rfl ?_
    have hlater := hfresh.steps he.steps hclosed.store hmirrored.grown htin
    have htype := he.steps.object_type ht
    refine ⟨fun o' ho' => ?_, ?_⟩
    · rcases mem_cons.mp ho' with rfl | hrest
      · exact ⟨hnew, t, htype, htin.steps he.steps, hlater⟩
      · obtain ⟨hnew', u, hu, hbelow, hufresh⟩ := hos.member o' hrest
        exact ⟨hnew', u, hu, hbelow, hufresh.mono hd.steps.types_size_le⟩
    · rw [filterMap_cons, htype]
      refine pairwise_cons.mpr ⟨fun u hu => ?_, hos.apart⟩
      obtain ⟨o', ho', hu⟩ := mem_filterMap.mp hu
      obtain ⟨-, v, hv, -, hvfresh⟩ := hos.member o' ho'
      cases hv.symm.trans hu
      -- The types of later parameters were made after that of the first.
      exact hmirrored'.grown.apart_of_fresh htin hvfresh

theorem mirrors_resolveParam (x : ScopeId) (hx : ρ.NewScope x) (visibleFrom : Nat) (collects : Bool)
    (p : ParamOf TypeExpr) {c c' : Checker} (h : c.Mirrored ρ c') (hc : c.Closed false) :
    (resolveParam x visibleFrom collects p).Mirrors ρ
      (resolveParam (ρ.scope x) visibleFrom collects p) c c' ρ.object fun o d =>
        ρ.NewObject o ∧ ∃ t, (d.store.object o).type = some t ∧
          d.store.Fresh ρ c.store.types.size t := by
  have hdeclare : ∀ {name span u d d'}, d.Mirrored ρ d' → d.Closed false →
      d.store.HasType u → d.store.Fresh ρ c.store.types.size u →
      (declareParam x visibleFrom name span u).Mirrors ρ
        (declareParam (ρ.scope x) visibleFrom name span (ρ.type u)) d d' ρ.object fun o d =>
          ρ.NewObject o ∧ ∃ t, (d.store.object o).type = some t ∧
            d.store.Fresh ρ c.store.types.size t := by
    intro name span u d d' hd hclosed hu hfresh
    refine (mirrors_declareParam hd hx).mono fun o e he ho => ⟨ho.1, u, ho.2, ?_⟩
    exact hfresh.steps he.steps hclosed.store hd.grown hu
  cases p with
  | mk name type span =>
    simp only [resolveParam]
    refine ((mirrors_resolve type h hc).safe (safe_resolve hc type type.collects_false)).bind
      fun t d d' hd hmirrored ht => ?_
    obtain ⟨hfresh, hclosed, htin⟩ := ht
    cases collects with
    | true =>
      simp only [if_true]
      refine ((mirrors_newElement hmirrored hclosed htin hfresh hd.steps.types_size_le rfl rfl
        rfl).safe (safe_newSlice hclosed htin)).bind fun u e e' _ he hu => ?_
      exact hdeclare he hu.2.1 hu.2.2 hu.1
    | false =>
      simp only [Bool.false_eq_true, if_false, pure_bind]
      exact hdeclare hmirrored hclosed htin hfresh

end

end Pass

end GoCheck
