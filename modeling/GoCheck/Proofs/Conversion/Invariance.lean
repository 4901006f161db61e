import GoCheck.Proofs.Selection.IdenticalTypes

/-!
# Assignability respects identity

Identical types have the same methods and so implement the same interfaces. They can be put for each
other on either side of an assignment, where questions about terms are about the same type parameter
on both sides.
-/

namespace GoCheck

open List Build

namespace Store

variable {s : Store} {v t t' u x y : TypeId} {m c : ObjectId}

/-- A store on which comparisons of types give the answer of the rules of identity. -/
structure Comparable (s : Store) : Prop where
  names : s.NamesDistinct
  terms : s.TermsDistinct
  cycles : s.CyclesThroughMethods

/-- A store of entities of their sorts, where comparisons decide identity and searches end. -/
structure WellFormed (s : Store) : Prop extends s.WellSorted, s.Comparable where
  searches : ∀ t addressable name, (s.select? t addressable name).isSome = true

/-- A type has a method of the name and type of `m`: it lists it or a selector finds it. -/
inductive HasMethod (s : Store) (v : TypeId) (m : ObjectId) : Prop
  | listed {f : ObjectId} :
    s.shape v = .interface i → f ∈ i.methods → s.MethodsRelated s.Identical f m → HasMethod s v m
  | lent {f : ObjectId} :
    s.isInterface v = false → s.Lends v (s.object m).name f → s.TypesRelated s.Identical f m →
    HasMethod s v m

lemma typesRelated_trans (h : s.TypesRelated s.Identical a b)
    (h' : s.TypesRelated s.Identical b c) : s.TypesRelated s.Identical a c :=
  (h.comp h').mono fun _ _ ⟨_, hab, hbc⟩ => hab.trans hbc

lemma typesRelated_symm (h : s.TypesRelated s.Identical a b) :
    s.TypesRelated s.Identical b a :=
  h.flip.mono fun _ _ => Identical.symm

lemma exists_interface (h : s.isInterface t) : ∃ i, s.shape t = .interface i := by
  unfold isInterface at h
  cases hshape : s.shape t <;> simp_all [Ty.interface?]

lemma isInterface_eq_false_iff : s.isInterface v = false ↔ ∀ i, s.shape v ≠ .interface i := by
  unfold isInterface
  cases s.shape v <;> simp [Ty.interface?]

lemma WellSorted.isFaulty_eq (hs : s.WellSorted) (h : s.Identical x y) : s.isFaulty y = s.isFaulty x := by
  have hbase : ((s.shape y).pointerBase?.any s.isInvalid) =
      (s.shape x).pointerBase?.any s.isInvalid :=
    optionRel_any (fun _ _ => hs.isInvalid_eq) (hs.alike_shape h).pointerBase?
  rw [isFaulty, isFaulty, hs.isInvalid_eq h, hbase]

lemma HasMethod.of_related (h : s.HasMethod v m) (hm : s.MethodsRelated s.Identical m m') :
    s.HasMethod v m' := by
  cases h with
  | listed hshape hf hrel =>
    exact .listed hshape hf ⟨hrel.1.trans hm.1, typesRelated_trans hrel.2 hm.2⟩
  | lent hface hlends htypes => exact .lent hface (hm.1 ▸ hlends) (typesRelated_trans htypes hm.2)

namespace Comparable

variable (hs : s.Comparable)
include hs

lemma identical_iff : s.identical x y ↔ s.Identical x y :=
  identical_eq_true_iff hs.names hs.terms hs.cycles

lemma sameMethodType_iff : s.sameMethodType f m ↔ s.TypesRelated s.Identical f m := by
  unfold sameMethodType TypesRelated
  cases (s.object f).type with
  | none =>
    cases (s.object m).type with
    | none => exact ⟨fun _ => .none, fun _ => rfl⟩
    | some b => exact ⟨nofun, nofun⟩
  | some a =>
    cases (s.object m).type with
    | none => exact ⟨nofun, nofun⟩
    | some b =>
      rw [identicalOptional, hs.identical_iff]
      exact ⟨.some, fun h => by cases h; assumption⟩

lemma lackingInInterface?_eq_none_iff (hnames : (methods.map fun m => (s.object m).name).Nodup) :
    s.lackingInInterface? methods true m = none ↔
      ∃ f ∈ methods, s.MethodsRelated s.Identical f m := by
  unfold lackingInInterface?
  cases hfind : methods.find? fun f => (s.object f).name = (s.object m).name with
  | none =>
    simp only [if_true, reduceCtorEq, false_iff]
    rintro ⟨f, hf, hname, -⟩
    exact absurd hname (by simpa using find?_eq_none.mp hfind f hf)
  | some f =>
    have hf : f ∈ methods := mem_of_find?_eq_some hfind
    have hname : (s.object f).name = (s.object m).name := by simpa using find?_some hfind
    simp only [ite_eq_left_iff, reduceCtorEq, imp_false, not_not, hs.sameMethodType_iff]
    constructor
    · exact fun htypes => ⟨f, hf, hname, htypes⟩
    · rintro ⟨f', hf', hname', htypes⟩
      -- no other method has this name
      obtain rfl : f' = f := inj_on_of_nodup_map hnames hf' hf (hname'.trans hname.symm)
      exact htypes

lemma lackingInType?_eq_none_iff : s.lackingInType? v m = none ↔
      ∃ f, s.Lends v (s.object m).name f ∧ s.TypesRelated s.Identical f m := by
  unfold lackingInType? Lends
  cases hselect : s.select v false (s.object m).name with
  | entry f path b =>
    by_cases hfunc : (s.object f).isFunc
    · simp [hfunc, hs.sameMethodType_iff]
    · simp only [hfunc, Bool.false_eq_true, if_false, reduceCtorEq, Selection.entry.injEq,
        false_iff]
      rintro ⟨g, ⟨path', b', ⟨rfl, -, -⟩, hg⟩, -⟩
      exact hfunc hg
  | _ => simp

lemma lackingMethod?_eq_none_iff (ht : s.shape t = .interface i) :
    s.lackingMethod? v t true = none ↔ ∀ m ∈ i.methods, s.HasMethod v m := by
  by_cases hface : s.isInterface v
  · -- what an interface has, its list says
    obtain ⟨j, hj⟩ : ∃ j, s.shape v = .interface j := by
      unfold isInterface at hface
      cases hshape : s.shape v <;> simp_all [Ty.interface?]
    have hnames := hs.names _ _ hj
    simp only [lackingMethod?, ht, hj, findSome?_eq_none_iff,
      hs.lackingInInterface?_eq_none_iff hnames]
    refine forall₂_congr fun m _ => ⟨?_, ?_⟩
    · rintro ⟨f, hf, hrel⟩
      exact .listed hj hf hrel
    · rintro (⟨hshape, hf, hrel⟩ | ⟨hnot, -, -⟩)
      · cases hj.symm.trans hshape
        exact ⟨_, hf, hrel⟩
      · rw [hface] at hnot
        cases hnot
  · -- what any other type has, selectors say
    have hface' : s.isInterface v = false := by simpa using hface
    have hlacking : s.lackingMethod? v t true = i.methods.findSome? (s.lackingInType? v) := by
      have hshape := isInterface_eq_false_iff.mp hface'
      unfold lackingMethod?
      rw [ht]
      cases hv : s.shape v with
      | interface j => exact absurd hv (hshape j)
      | _ => rfl
    simp only [hlacking, findSome?_eq_none_iff, hs.lackingInType?_eq_none_iff]
    refine forall₂_congr fun m _ => ⟨?_, ?_⟩
    · rintro ⟨f, hlends, htypes⟩
      exact .lent hface' hlends htypes
    · rintro (⟨hshape, -, -⟩ | ⟨-, hlends, htypes⟩)
      · exact absurd hshape (isInterface_eq_false_iff.mp hface' _)
      · exact ⟨_, hlends, htypes⟩

/-- A type implements an interface without terms if it has the methods. Types with errors do all. -/
lemma implements_iff : s.implements v t ↔ s.isInvalid t ∨ s.isFaulty v ∨
      ∃ i, s.shape t = .interface i ∧ i.terms.isSome = false ∧ ∀ m ∈ i.methods, s.HasMethod v m := by
  unfold implements unsatisfied?
  by_cases hfaulty : s.isInvalid t ∨ s.isFaulty v
  · rw [if_pos (by simpa using hfaulty)]
    exact ⟨fun _ => hfaulty.imp_right .inl, fun _ => rfl⟩
  · rw [if_neg (by simpa using hfaulty)]
    rw [not_or] at hfaulty
    rw [or_iff_right hfaulty.1, or_iff_right hfaulty.2]
    cases hshape : s.shape t with
    | interface i =>
      simp only [Ty.interface.injEq, exists_eq_left']
      by_cases hterms : i.terms.isSome
      · simp [hterms]
      · by_cases hempty : i.methods = []
        · simp_all [InterfaceType.isEmpty]
        · have hne : i.isEmpty = false := by simp [InterfaceType.isEmpty, hempty]
          simp only [hterms, hne, Bool.false_eq_true, if_false, Option.isNone_map,
            Option.isNone_iff_eq_none, hs.lackingMethod?_eq_none_iff hshape, true_and]
    | _ => simp

/-- Satisfaction is transitive: a type that implements an interface implements whatever that interface
implements. -/
theorem implements_trans (ht : s.isInterface t = true) (hvt : s.implements v t = true)
    (htu : s.implements t u = true) : s.implements v u = true := by
  obtain ⟨i, hi⟩ := exists_interface ht
  have hvalid : s.isInvalid t = false ∧ s.isFaulty t = false := by
    simp [isFaulty, isInvalid, family?, hi, Ty.basic?, Ty.pointerBase?]
  rw [hs.implements_iff] at *
  simp only [hvalid, Bool.false_eq_true, false_or] at hvt htu
  rcases htu with hu | ⟨j, hj, hterms, htu⟩
  · exact .inl hu
  rcases hvt with hv | ⟨i', hi', -, hvt⟩
  · exact .inr (.inl hv)
  refine .inr (.inr ⟨j, hj, hterms, fun m hm => ?_⟩)
  obtain rfl := Ty.interface.inj (hi'.symm.trans hi)
  cases htu m hm with
  | listed hshape hf hrel =>
    obtain rfl := Ty.interface.inj (hi.symm.trans hshape)
    exact (hvt _ hf).of_related hrel
  | lent hface => exact absurd hi (isInterface_eq_false_iff.mp hface _)

end Comparable

namespace WellFormed

variable (hs : s.WellFormed)
include hs

lemma identical_eq (hx : s.Identical x x') (hy : s.Identical y y') :
    s.identical x' y' = s.identical x y := by
  rw [Bool.eq_iff_iff, hs.identical_iff, hs.identical_iff]
  exact ⟨fun h => hx.trans (h.trans hy.symm), fun h => hx.symm.trans (h.trans hy)⟩

lemma hasMethod_of_identical (h : s.HasMethod v m) (hv : s.Identical v v') : s.HasMethod v' m := by
  cases h with
  | listed hshape hf hrel =>
    have halike := hs.alike_shape hv
    rw [hshape] at halike
    obtain ⟨j, hshape', ⟨-, hmatch, -⟩, -⟩ := halike.exists_interface
    obtain ⟨f', hf', hrel'⟩ := hmatch _ hf
    refine .listed hshape' hf' ⟨hrel'.1.symm.trans hrel.1, ?_⟩
    exact typesRelated_trans (typesRelated_symm hrel'.2) hrel.2
  | lent hface hlends htypes =>
    obtain ⟨f', hlends', hrel⟩ := hlends.transfer hs.toWellSorted hs.names
      (fun t name => hs.searches t false name) hv
    have hface' : s.isInterface v' = false := by rw [hs.isInterface_eq hv, hface]
    exact .lent hface' hlends' (typesRelated_trans (typesRelated_symm hrel) htypes)

lemma implements_of_identical (h : s.implements v t) (hv : s.Identical v v')
    (ht : s.Identical t t') : s.implements v' t' := by
  rw [hs.toComparable.implements_iff] at h ⊢
  rw [hs.isInvalid_eq ht, hs.isFaulty_eq hv]
  refine h.imp_right (.imp_right ?_)
  rintro ⟨i, hshape, hterms, hmethods⟩
  have halike := hs.alike_shape ht
  rw [hshape] at halike
  obtain ⟨j, hshape', ⟨-, -, hmatch⟩, hterms'⟩ := halike.exists_interface
  refine ⟨j, hshape', hterms'.trans hterms, ?_⟩
  intro m' hm'
  obtain ⟨m, hm, hrel⟩ := hmatch m' hm'
  exact (hs.hasMethod_of_identical (hmethods m hm) hv).of_related hrel

lemma implements_eq (hv : s.Identical v v') (ht : s.Identical t t') :
    s.implements v' t' = s.implements v t := by
  rw [Bool.eq_iff_iff]
  exact ⟨fun h => hs.implements_of_identical h hv.symm ht.symm,
    fun h => hs.implements_of_identical h hv ht⟩

end WellFormed

/-- The types that a type refers to. -/
def references (s : Store) : Ty → List TypeId
  | .array _ t | .slice t | .pointer t | .chan _ t => [t]
  | .struct os | .tuple os => os.filterMap fun o => (s.object o).type
  | .signature f => [f.params, f.results]
  | .map k t => [k, t]
  | .interface i => i.methods.filterMap (fun m => (s.object m).type) ++ i.terms.getD []
  | .basic _ | .named _ | .typeParam _ => []

lemma mem_references (h : s.Refers x y) : y ∈ s.references (s.type x) := by
  rcases h with h | ⟨i, m, hi, hm, hy⟩ | ⟨i, ts, hi, hts, hy⟩
  · unfold RefersByPart at h
    generalize s.type x = a at h
    cases h with
    | field hf hy => exact mem_filterMap.mpr ⟨_, hf, hy⟩
    | var hv hy => exact mem_filterMap.mpr ⟨_, hv, hy⟩
    | _ => simp [references]
  · rw [hi]
    simp only [references, mem_append, mem_filterMap]
    exact .inl ⟨m, hm, hy⟩
  · rw [hi]
    simp [references, hts, hy]

/-- Where references lead to types made before, there are no cycles. -/
lemma cyclesThroughMethods_of_lt (h : ∀ {t u}, s.Refers t u → u.index < t.index) :
    s.CyclesThroughMethods where
  method := by
    apply not_transGen_of_measure (·.index)
    rintro t u (hpart | hterm)
    · exact h (.inl hpart)
    · exact h (.inr (.inr hterm))
  term t u hterm hback := by
    have hle : t.index ≤ u.index := by
      clear hterm
      induction hback with
      | refl => exact le_rfl
      | tail _ hlast ih => exact (h hlast).le.trans ih
    have hlt := h (.inr (.inr hterm))
    omega

/-- A type made of earlier types, without type parameters and terms. -/
def isGrounded (s : Store) (t : TypeId) : Bool :=
  (s.references (s.type t)).all (·.index < t.index) && match s.type t with
    | .interface i => i.terms.isNone && decide (i.methods.map fun m => (s.object m).name).Nodup
    | .typeParam _ => false
    | _ => true

section Grounded

variable (h : ∀ t, t.index < s.types.size → s.isGrounded t = true)
include h

lemma lt_of_refers (hr : s.Refers x y) : y.index < x.index := by
  have hmem := mem_references hr
  have hx : x.index < s.types.size := by
    refine lt_size_of_type_ne fun hx => ?_
    rw [hx] at hmem
    cases hmem
  have hall := (Bool.and_eq_true_iff.mp (h x hx)).1
  simpa using all_eq_true.mp hall y hmem

/-- An embedded type, or what an embedded pointer leads to, was made before. -/
lemma lt_of_embedsUnnamed (he : s.EmbedsUnnamed x y) : y.index < x.index := by
  obtain ⟨hnamed, i, p, he⟩ := he
  have hground := h x he.lt_size
  obtain ⟨fields, f, ft, hshape, hf, -, hft, hd⟩ := he
  have hbeneath : (s.type x).beneath? = none := by
    unfold isGrounded at hground
    cases hx : s.type x with
    | named n => exact absurd hx (hnamed n)
    | typeParam q => simp [hx] at hground
    | _ => rfl
  rw [shape_of_beneath_none hbeneath] at hshape
  have hpart : s.RefersByPart x ft := by
    unfold RefersByPart
    rw [hshape]
    exact .field (mem_of_getElem? hf) hft
  have hlt := lt_of_refers h (.inl hpart)
  unfold dereference at hd
  split at hd
  · -- the embedded field is a pointer, which was made after its base
    rename_i base hbase
    obtain ⟨rfl, -⟩ := Prod.mk.inj hd
    have hpart' : s.RefersByPart ft base := by
      unfold RefersByPart
      rw [hbase]
      exact .pointer
    exact (lt_of_refers h (.inl hpart')).trans hlt
  · obtain ⟨rfl, -⟩ := Prod.mk.inj hd
    exact hlt

lemma comparable_of_isGrounded : s.Comparable := by
  have hinterface t i (hi : s.type t = .interface i) :
      i.terms = none ∧ (i.methods.map fun m => (s.object m).name).Nodup := by
    have hground := h t (lt_size_of_interface hi)
    simpa [isGrounded, hi] using (Bool.and_eq_true_iff.mp hground).2
  refine ⟨fun t i hi => (hinterface t i hi).2, fun t i ts hi hts => ?_,
    cyclesThroughMethods_of_lt (lt_of_refers h)⟩
  rw [(hinterface t i hi).1] at hts
  cases hts

lemma searches_of_isGrounded (t : TypeId) (addressable : Bool) (name : String) :
    (s.select? t addressable name).isSome :=
  isSome_select? (not_transGen_of_measure (·.index) (lt_of_embedsUnnamed h)) t addressable name

end Grounded

end Store

/-! ## Assignability -/

/-- A question has a certain answer, whatever it has noted before. -/
def Probe.Decides (p : Probe Verdict) (b : Bool) : Prop := ∀ l, (p.run l).1.holds = b

namespace Probe.Decides

variable {p q : Probe Verdict}

protected theorem pure (r : Verdict) : Probe.Decides (pure r) r.holds := fun _ => rfl

lemma ite {c : Prop} [Decidable c] (hp : p.Decides a) (hq : q.Decides b) :
    Probe.Decides (if c then p else q) (if c then a else b) := by
  split
  · exact hp
  · exact hq

lemma mapError (h : p.Decides b) (f : Refusal → Refusal) :
    Probe.Decides (do return (← p).mapError f) b := by
  intro l
  rw [← h l]
  change Verdict.holds ((p.run l).1.mapError f) = _
  cases (p.run l).1 <;> rfl

lemma probeAll (h : ∀ t ∈ ts, (ask t).Decides (g t)) : (probeAll ask ts).Decides (ts.all g) := by
  induction ts with
  | nil => exact .pure _
  | cons t ts ih =>
    intro l
    have htail := ih fun u hu => h u (by simp [hu])
    rw [List.all_cons, ← h t (by simp) l, GoCheck.probeAll, StateT.run_bind]
    rcases (ask t).run l with ⟨_ | _, l₁⟩
    · rfl
    · exact (htail l₁).trans (Bool.true_and _).symm

lemma unsatisfied {f : Option Unsatisfied → Probe Verdict} {s : Store} {v t : TypeId}
    (h : (f (s.unsatisfied? v t)).Decides b) : Probe.Decides (s.probeUnsatisfied v t >>= f) b := by
  intro l
  obtain ⟨l₁, hl⟩ : ∃ l₁, (s.probeUnsatisfied v t >>= f).run l = (f (s.unsatisfied? v t)).run l₁ := by
    unfold Store.probeUnsatisfied
    rcases s.unsatisfied? v t with _ | _ | _ | _ <;> exact ⟨_, rfl⟩
  rw [hl]
  exact h l₁

end Probe.Decides

namespace Store

variable {s : Store} {v v' t t' x y : TypeId} {m : ObjectId} {o : Operand}

lemma isSome_heldBy? (c : Constant) (k : BasicKind) : (c.heldBy? k).isSome = c.fits k k.family := by
  unfold Constant.heldBy? Constant.fits
  cases c.represent k k.family <;> rfl

lemma isOk_represented (hk : s.type t = .basic k) :
    (s.represented o t).isOk = o.mode.constant?.any fun c => c.fits k k.family := by
  unfold represented
  rw [hk]
  cases o.mode.constant? with
  | none => rfl
  | some c =>
    rw [Option.any_some, ← isSome_heldBy?]
    cases hheld : c.heldBy? k <;> simp [Ty.basic?, hheld, Except.toBool]

lemma givesType_implicitBasic (old : TypeId) : givesType (s.implicitBasic o old t) =
      if o.mode.isConstant then (s.represented o (s.underlying t)).isOk
      else (s.type old).basic?.any (s.admitsUntyped · t) := by
  unfold implicitBasic
  split
  · cases s.represented o (s.underlying t) <;> rfl
  · split
    · rename_i hadmits
      exact hadmits.symm
    · rename_i hadmits
      simpa [givesType] using hadmits

namespace WellSorted

variable (hs : s.WellSorted)
include hs

lemma admitsUntyped_eq (ht : s.Identical t t') (k : BasicKind) :
    s.admitsUntyped k t' = s.admitsUntyped k t := by
  simp only [admitsUntyped, isBoolean, isNumeric, isString, hs.family?_eq ht]

lemma givesType_implicitBasic_eq (ht : s.Identical t t')
    (hk : s.shape t = .basic k) (hj : s.shape t' = .basic j) (old : TypeId) :
    givesType (s.implicitBasic o old t') = givesType (s.implicitBasic o old t) := by
  have halike := hs.alike_shape ht
  rw [hk, hj] at halike
  obtain ⟨_, hj', halias⟩ := halike.exists_basic
  cases hj'
  -- an alias has the range of the kind that it stands for
  have hfits : ∀ c : Constant, c.fits j j.family = c.fits k k.family := by
    intro c
    rw [← Constant.fits_resolveAlias c j, ← halias, Constant.fits_resolveAlias]
  rw [givesType_implicitBasic, givesType_implicitBasic, isOk_represented hk, isOk_represented hj]
  simp only [hfits, hs.admitsUntyped_eq ht]

/-- An operand takes on all or none of the types that are identical. -/
lemma givesType_implicit_eq (ht : s.Identical t t') :
    givesType (s.implicit o t') = givesType (s.implicit o t) := by
  by_cases hself : s.isTypeParam t ∨ s.isUntyped t
  · -- these are identical to themselves alone
    obtain rfl : t = t' := hself.elim ht.eq_of_isTypeParam (hs.eq_of_isUntyped ht)
    rfl
  · rw [not_or] at hself
    have hparam : ¬ s.isTypeParam t' := by rw [ht.isTypeParam_eq]; exact hself.1
    have huntyped : ¬ s.isUntyped t' := by rw [ht.isUntyped_eq]; exact hself.2
    unfold implicit implicitWith
    cases o.type with
    | none => rfl
    | some old =>
      simp only [if_neg hself.1, if_neg hself.2, if_neg hparam, if_neg huntyped,
        hs.isInvalid_eq ht, hs.hasNil_eq ht]
      split
      · rfl
      · split
        · split <;> rfl
        · -- from here on the form of the target decides
          have hbasic : ∀ k j, s.shape t = .basic k → s.shape t' = .basic j →
              givesType (s.implicitBasic o old t') = givesType (s.implicitBasic o old t) :=
            fun k j hk hj => hs.givesType_implicitBasic_eq ht hk hj old
          have halike := hs.alike_shape ht
          generalize s.shape t = a at halike hbasic
          generalize s.shape t' = b at halike hbasic
          cases ha : a.typeParam? with
          | none =>
            cases halike.sameForm ha with
            | basic hjk => exact hbasic _ _ rfl rfl
            | @interface i j hmethods hterms =>
              have hempty := Alike.isEmpty_eq halike
              simp only [hempty]
            | _ => rfl
          | some p =>
            cases a <;> cases ha
            rcases halike with rfl | hform
            · rfl
            · cases hform

end WellSorted

lemma WellSorted.asksForMethods_eq (hs : s.WellSorted) (ht : s.Identical t t') :
    s.asksForMethods t' = s.asksForMethods t := by
  rw [asksForMethods, asksForMethods, hs.isPlainInterface_eq ht,
    hs.isInterfacePointer_eq (hs.underlying_identical ht)]

lemma oneUnnamed_eq (hv : s.Identical v v') (ht : s.Identical t t') :
    s.oneUnnamed v' t' = s.oneUnnamed v t := by
  rw [oneUnnamed, oneUnnamed, hv.isNamed_eq, ht.isNamed_eq]

/-- An operand with an identical type is taken on alike. -/
lemma WellSorted.givesType_operand_eq (hs : s.WellSorted) (ho : o.type = some v)
    (hv : s.Identical v v') (t : TypeId) :
    givesType (s.implicit { o with type := some v' } t) = givesType (s.implicit o t) := by
  by_cases huntyped : s.isUntyped v
  · obtain rfl := hs.eq_of_isUntyped hv huntyped
    rw [← ho]
  · -- a typed operand stays as it is
    have htyped : ∀ {o u}, o.type = some u → s.isUntyped u = false →
        givesType (s.implicit o t) := by
      intro o u ho hu
      simp [implicit, implicitWith, ho, hu, givesType]
    have hv' : s.isUntyped v' = false := by simpa [hv.isUntyped_eq] using huntyped
    rw [htyped ho (by simpa using huntyped), htyped rfl hv']

namespace WellFormed

variable (hs : s.WellFormed)
include hs

/-- A verdict on channels goes over to identical types. -/
lemma assignChannel?_transfer (h : s.assignChannel? v t = some r)
    (hv : s.Identical v v') (ht : s.Identical t t') :
    ∃ r', s.assignChannel? v' t' = some r' ∧ r'.holds = r.holds := by
  unfold assignChannel? at h
  split at h
  · rename_i a d b hshape hshape'
    have halike := hs.alike_shape hv
    have halike' := hs.alike_shape ht
    rw [hshape] at halike
    rw [hshape'] at halike'
    obtain ⟨a', ha', ha⟩ := halike.exists_chan
    obtain ⟨b', hb', hb⟩ := halike'.exists_chan
    split at h
    · rename_i hident
      cases h
      have hident' : s.identical a' b' := by rw [hs.identical_eq ha hb, hident]
      simp only [assignChannel?, ha', hb', hident', if_true, oneUnnamed_eq hv ht]
      exact ⟨_, rfl, rfl⟩
    · cases h
  · cases h

lemma assignUntyped_eq (ho : o.type = some v) (hv : s.Identical v v') (ht : s.Identical t t') :
    (s.assignUntyped { o with type := some v' } t').holds = (s.assignUntyped o t).holds := by
  unfold assignUntyped
  by_cases hparam : s.isTypeParam t
  · obtain rfl := ht.eq_of_isTypeParam hparam
    simp only [hs.givesType_operand_eq ho hv]
  · have hparam' : ¬ s.isTypeParam t' := by rwa [ht.isTypeParam_eq]
    simp only [if_neg hparam, if_neg hparam', hs.givesType_operand_eq ho hv,
      hs.givesType_implicit_eq ht]

end WellFormed

/-- A value of an interface type needs an assertion, then channels and type parameters are tried. -/
lemma assignOther_eq (assign : Operand → TypeId → Probe Verdict) (o : Operand) (v t : TypeId) :
    s.assignOther assign o v t =
      let rest := (s.assignChannel? v t).elim (s.assignTerms assign o v t) pure
      if s.isPlainInterface v then s.probeUnsatisfied t v >>= fun reason => if reason.isNone then
            pure (.error { fault := .incompatibleAssign, cause := some "need type assertion" })
          else rest else rest := by
  unfold assignOther
  cases s.assignChannel? v t <;> rfl

section

variable (s) (assigns : Operand → TypeId → Bool) (o : Operand) (v t : TypeId)

/-- Whether all terms of a type parameter on either side are assignable. -/
def assignsTerms : Bool :=
  if !s.isNamed v && s.isTypeParam t then !(s.terms t).isEmpty && (s.terms t).all (assigns o)
  else if s.isTypeParam v && !s.isNamed t then
    !(s.terms v).isEmpty && (s.terms v).all fun u => assigns { o with type := some u } t
  else false

def assignsOther : Bool :=
  if s.isPlainInterface v && s.implements t v then false
  else (s.assignChannel? v t).elim (s.assignsTerms assigns o v t) Verdict.holds

def assignsTyped : Bool :=
  if s.identical (s.underlying v) (s.underlying t) && s.oneUnnamed v t &&
      !s.isTypeParam v && !s.isTypeParam t then true
  else if s.asksForMethods t && (s.implements v t || !s.isTypeParam v) then s.implements v t
  else s.assignsOther assigns o v t

/-- Assignability of an operand, given that to and from the terms of type parameters. -/
def assignsStep : Bool :=
  o.type.elim true fun v =>
    if o.isInvalid || t = .invalid || s.identical v t then true
    else if s.isUntyped (s.underlying v) then (s.assignUntyped o t).holds
    else s.assignsTyped assigns o v t

end

/-- Assignability, at most `n` type parameters deep. -/
def assignsWithin (s : Store) : Nat → Operand → TypeId → Bool
  | 0, _, _ => false
  | n + 1, o, t => s.assignsStep (s.assignsWithin n) o t

section

variable {assign : Operand → TypeId → Probe Verdict} {assigns : Operand → TypeId → Bool}
variable (h : ∀ o t, (assign o t).Decides (assigns o t)) (o : Operand) (v t : TypeId)
include h

lemma decides_assignTerms :
    (s.assignTerms assign o v t).Decides (s.assignsTerms assigns o v t) := by
  have hall b {p a} (hp : p.Decides a) :
      Probe.Decides (if b then pure (.error { fault := .incompatibleAssign }) else p) (!b && a) := by
    cases b
    · exact hp
    · exact .pure _
  refine .ite (hall _ (.probeAll fun u _ => (h o u).mapError _)) (.ite ?_ (.pure _))
  exact hall _ (.probeAll fun u _ => (h _ t).mapError _)

lemma decides_assignOther :
    (s.assignOther assign o v t).Decides (s.assignsOther assigns o v t) := by
  have hrest : Probe.Decides ((s.assignChannel? v t).elim (s.assignTerms assign o v t) pure)
      ((s.assignChannel? v t).elim (s.assignsTerms assigns o v t) Verdict.holds) := by
    cases s.assignChannel? v t with
    | none => exact decides_assignTerms h o v t
    | some r => exact .pure r
  rw [assignOther_eq, assignsOther]
  cases s.isPlainInterface v
  · exact hrest
  · exact .unsatisfied (.ite (.pure _) hrest)

lemma decides_assignTyped :
    (s.assignTyped assign o v t).Decides (s.assignsTyped assigns o v t) := by
  refine .ite (.pure _) ?_
  have hother := decides_assignOther (s := s) h o v t
  cases s.asksForMethods t
  · exact hother
  · refine .unsatisfied ?_
    rw [implements]
    cases s.unsatisfied? v t with
    | none => exact .pure _
    | some reason =>
      cases s.isTypeParam v
      · exact .pure _
      · exact hother

lemma decides_assignStep : (s.assignStep assign o t).Decides (s.assignsStep assigns o t) := by
  unfold assignStep assignsStep
  cases o.type with
  | none => exact .pure _
  | some v => exact .ite (.pure _) (.ite (.pure _) (decides_assignTyped h o v t))

end

lemma decides_assignWithin (s : Store) (n : Nat) :
    ∀ o t, (s.assignWithin n o t).Decides (s.assignsWithin n o t) := by
  induction n with
  | zero => exact fun _ _ => .pure _
  | succ n ih => exact fun o t => decides_assignStep ih o t

lemma assignable_eq (s : Store) (o : Operand) (t : TypeId) :
    s.assignable o t = s.assignsWithin s.termDepth o t :=
  s.decides_assignWithin s.termDepth o t []

lemma assignable_eq_step (s : Store) (o : Operand) (t : TypeId) :
    s.assignable o t = s.assignsStep (s.assignsWithin (2 * s.types.size + 1)) o t :=
  s.assignable_eq o t

/-- Assignability is the same for identical types of operand and target, the invalid type apart. -/
def Respects (s : Store) (assigns : Operand → TypeId → Bool) : Prop :=
  ∀ o v v' t t', o.type = some v → s.Identical v v' → s.Identical t t' →
    (t' = .invalid ↔ t = .invalid) → assigns { o with type := some v' } t' = assigns o t

section Respects

variable {assigns : Operand → TypeId → Bool} (hs : s.WellFormed) (h : s.Respects assigns)
variable (ho : o.type = some v) (hv : s.Identical v v') (ht : s.Identical t t')
include h ho hv ht

/-- Type parameters on either side are the same ones, and so are their terms. -/
lemma Respects.assignsTerms (hinvalid : t' = .invalid ↔ t = .invalid) :
    s.assignsTerms assigns { o with type := some v' } v' t' = s.assignsTerms assigns o v t := by
  unfold Store.assignsTerms
  rw [hv.isNamed_eq, ht.isNamed_eq, hv.isTypeParam_eq, ht.isTypeParam_eq]
  split
  · rename_i hto
    obtain rfl := ht.eq_of_isTypeParam (Bool.and_eq_true_iff.mp hto).2
    have hterm u : assigns { o with type := some v' } u = assigns o u :=
      h o v v' u u ho hv (.refl u) Iff.rfl
    rw [funext hterm]
  · split
    · rename_i hfrom
      obtain rfl := hv.eq_of_isTypeParam (Bool.and_eq_true_iff.mp hfrom).1
      have hterm u : assigns { o with type := some u } t' =
          assigns { o with type := some u } t :=
        h { o with type := some u } u u t t' rfl (.refl u) ht hinvalid
      simp only [hterm]
    · rfl

include hs

lemma Respects.assignsOther (hinvalid : t' = .invalid ↔ t = .invalid) :
    s.assignsOther assigns { o with type := some v' } v' t' = s.assignsOther assigns o v t := by
  unfold Store.assignsOther
  rw [hs.isPlainInterface_eq hv, hs.implements_eq ht hv, h.assignsTerms ho hv ht hinvalid]
  congr 1
  cases hc : s.assignChannel? v t with
  | some r =>
    obtain ⟨r', hc', hr⟩ := hs.assignChannel?_transfer hc hv ht
    rw [hc']
    exact hr
  | none =>
    cases hc' : s.assignChannel? v' t' with
    | some r' =>
      -- a verdict on the one side would be a verdict on the other side
      obtain ⟨r, hback, -⟩ := hs.assignChannel?_transfer hc' hv.symm ht.symm
      rw [hc] at hback
      cases hback
    | none => rfl

omit ho hv ht in
lemma Respects.assignsStep : s.Respects (s.assignsStep assigns) := by
  intro o v v' t t' ho hv ht hinvalid
  simp only [Store.assignsStep, ho, Option.elim_some, hinvalid, hs.identical_eq hv ht,
    (hs.underlying_identical hv).isUntyped_eq, hs.assignUntyped_eq ho hv ht, Store.assignsTyped,
    hs.identical_eq (hs.underlying_identical hv) (hs.underlying_identical ht),
    oneUnnamed_eq hv ht, hv.isTypeParam_eq, ht.isTypeParam_eq, hs.asksForMethods_eq ht,
    hs.implements_eq hv ht, h.assignsOther hs ho hv ht hinvalid]
  rfl

end Respects

lemma WellFormed.respects_assignsWithin (hs : s.WellFormed) (n : Nat) :
    s.Respects (s.assignsWithin n) := by
  induction n with
  | zero => exact fun _ _ _ _ _ _ _ _ _ => rfl
  | succ n ih => exact ih.assignsStep hs

/-- Two structs that embed `error`, and another interface with its method. -/
def errorsStore : Store :=
  (newType (.interface { methods := [⟨20⟩] }) (newType (.struct [⟨26⟩]) (newType (.struct [⟨26⟩])
    (newField "error" (some .error) true (Checker.start {}).store).2).2).2).2

lemma isGrounded_errorsStore (t : TypeId) (ht : t.index < errorsStore.types.size) :
    errorsStore.isGrounded t := by
  have hsize : errorsStore.types.size = 36 := by decide +kernel
  have hground : ∀ i < 36, errorsStore.isGrounded ⟨i⟩ := by decide +kernel
  exact hground t.index (hsize ▸ ht)

/-- A struct that embeds `error` implements `error`, and so the other interface with its method. -/
theorem errorsStore_implements_trans : errorsStore.implements ⟨33⟩ ⟨35⟩ = true :=
  (comparable_of_isGrounded isGrounded_errorsStore).implements_trans (t := .error) (by decide +kernel)
    (by decide +kernel) (by decide +kernel)

end Store

end GoCheck
