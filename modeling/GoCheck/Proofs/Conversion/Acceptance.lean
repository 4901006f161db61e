import GoCheck.Proofs.Assembly
import GoCheck.Proofs.Conversion.Assignments

/-!
# The places that take an untyped constant

An untyped constant is converted to the type that it takes on in a place, and this type is compared
with that of the place. The second decision repeats the first, except for an interface, which asks
for methods and terms that no basic type has.
-/

namespace GoCheck

open Operand Ty Pass

variable {c d : Checker} {s : Store} {x : Operand} {v : Constant} {k : BasicKind} {t : TypeId}
  {i : InterfaceType}

/-- An untyped constant, of another kind than that of `nil`. -/
structure Operand.IsUntypedConstant (s : Store) (x : Operand) (v : Constant) (k : BasicKind) : Prop where
  mode : x.mode = .constant v
  type : ∃ old, x.type = some old ∧ s.type old = .basic k
  untyped : k.isUntyped = true
  notNil : k ≠ .untypedNil

namespace Operand.IsUntypedConstant

lemma type_eq (hx : x.IsUntypedConstant s v k) (hold : x.type = some old) : s.type old = .basic k := by
  obtain ⟨t, ht, hbasic⟩ := hx.type
  cases hold.symm.trans ht
  exact hbasic

lemma isInvalid_eq (hx : x.IsUntypedConstant s v k) : x.isInvalid = false := by
  simp [isInvalid, hx.mode]

lemma isNil_eq (hx : x.IsUntypedConstant s v k) : x.isNil s = false := by
  simp [isNil, hx.mode]

lemma isUntyped_type (hx : x.IsUntypedConstant s v k) (hold : x.type = some old) :
    s.isUntyped old := by
  simp [Store.isUntyped, hx.type_eq hold, basic?, hx.untyped]

lemma defaultType_eq (hx : x.IsUntypedConstant s v k) (hold : x.type = some old) :
    s.defaultType old = .basic k.default := by
  simp [Store.defaultType, hx.type_eq hold, hx.untyped, hx.notNil]

end Operand.IsUntypedConstant

namespace Store

variable {y : Operand} {j : BasicKind}

/-- The basic type beneath a type represents a value. -/
def Represents (s : Store) (t : TypeId) (v : Constant) : Prop :=
  ∃ j, s.shape t = .basic j ∧ v.fits j j.family = true

/-- The interface beneath a type has no methods and no terms. -/
def IsUnrestricted (s : Store) (t : TypeId) : Prop :=
  ∃ i, s.shape t = .interface i ∧ i.methods = [] ∧ i.terms = none

/-- The places that take an untyped constant of a kind. -/
inductive Takes (s : Store) (v : Constant) (k : BasicKind) : Option TypeId → Prop
  /-- A place without a type, if the default type holds the value. -/
  | anyType : v.fits k.default k.default.family = true → s.Takes v k none
  | basic {t : TypeId} : s.Represents t v → s.Takes v k (some t)
  | interface {t : TypeId} : s.isTypeParam t = false → s.IsUnrestricted t →
      v.fits k.default k.default.family = true → s.Takes v k (some t)
  /-- A type parameter with terms, each of which takes the value. -/
  | typeParam {t : TypeId} : s.isTypeParam t = true → s.terms t ≠ [] →
      (∀ u ∈ s.terms t, s.Represents u v ∨ s.IsUnrestricted u) → s.Takes v k (some t)

lemma Ordered.shape_underlying (hs : s.Ordered) (t : TypeId) :
    s.shape (s.underlying t) = s.shape t := by
  rw [shape, hs.underlying_underlying, shape]

lemma Ordered.isTypeParam_underlying (hs : s.Ordered) (t : TypeId) :
    s.isTypeParam (s.underlying t) = false := by
  have hnone := hs.beneath_underlying t
  unfold isTypeParam
  cases htype : s.type (s.underlying t) <;> simp_all [beneath?, typeParam?]

/-- A type parameter with terms stands on the interface that lists them. -/
lemma Ordered.isInterface_of_terms (hs : s.Ordered) (h : s.terms t ≠ []) : s.isInterface t := by
  obtain ⟨p, hp, i, hi, -⟩ : ∃ p, (s.type t).typeParam? = some p ∧
      ∃ i, (s.shape p.bound).interface? = some i ∧ i.terms.isSome := by
    cases hterms : s.terms? t with
    | none => simp [terms, hterms] at h
    | some ts =>
      obtain ⟨p, hp, i, hi, hts⟩ := by simpa [terms?, Option.bind_eq_some_iff] using hterms
      exact ⟨p, hp, i, hi, by rw [hts]; rfl⟩
  have hparam : s.type t = .typeParam p := by cases htype : s.type t <;> simp_all [typeParam?]
  have hlt := hs.beneath t p.bound (by rw [hparam]; rfl)
  have hsize := lt_size_of_type_ne (by rw [hparam]; simp)
  have hunder : s.underlying t = s.underlying p.bound := by
    have hne : p.bound ≠ t := by
      rintro heq
      rw [heq] at hlt
      omega
    rw [underlying, underlyingWithin, hparam]
    simp only [beneath?, if_neg hne]
    exact hs.underlyingWithin_eq (by omega) (by omega)
  rw [isInterface, shape, hunder]
  exact Option.isSome_of_eq_some hi

lemma represents_iff_of_basic (h : s.shape t = .basic j) :
    s.Represents t v ↔ v.fits j j.family := by
  constructor
  · rintro ⟨i, hi, hfits⟩
    cases h.symm.trans hi
    exact hfits
  · exact fun hfits => ⟨j, h, hfits⟩

lemma isUnrestricted_iff_of_interface (h : s.shape t = .interface i) :
    s.IsUnrestricted t ↔ i.isEmpty := by
  simp [IsUnrestricted, h, InterfaceType.isEmpty]

lemma implicitBasic_ok_iff (hx : x.mode = .constant v) (h : s.shape t = .basic j) :
    (∃ i, s.implicitBasic x old t = .ok i) ↔ v.fits j j.family := by
  have hbasic : (s.type (s.underlying t)).basic? = some j := by
    rw [show s.type (s.underlying t) = .basic j from h]
    rfl
  rw [← isSome_heldBy?]
  cases hheld : v.heldBy? j <;>
    simp [implicitBasic, represented, hx, Mode.isConstant, Mode.constant?, hbasic, hheld]

/-- A constant is converted to what represents it, to a type parameter that admits it, or to
`any`. -/
lemma implicitWith_ok_iff (hx : x.IsUntypedConstant s v k) (ht : s.isUntyped t = false)
    (hvalid : s.isInvalid t = false) : (∃ i, s.implicitWith admits x t = .ok i) ↔ s.Represents t v ∨
      (s.isTypeParam t ∧ s.isInterface t ∧ s.terms t ≠ [] ∧
        ∀ u ∈ s.terms t, admits u) ∨ (s.isTypeParam t = false ∧ s.IsUnrestricted t) := by
  obtain ⟨old, hold, -⟩ := hx.type
  unfold implicitWith
  simp only [hold, hx.isInvalid_eq, hx.isUntyped_type hold, hvalid, ht, hx.isNil_eq, Bool.not_true,
    Bool.or_self, Bool.false_eq_true, if_false]
  cases hshape : s.shape t with
  | basic j =>
    have hplain : s.isInterface t = false := by simp [isInterface, hshape, interface?]
    have hrestricted : ¬ s.IsUnrestricted t := by simp [IsUnrestricted, hshape]
    simp only [hplain, hrestricted, represents_iff_of_basic hshape, Bool.false_eq_true, false_and,
      and_false, or_false]
    exact implicitBasic_ok_iff hx.mode hshape
  | interface i =>
    have hrepresents : ¬ s.Represents t v := by simp [Represents, hshape]
    have hface : s.isInterface t := by simp [isInterface, hshape, interface?]
    cases hparam : s.isTypeParam t with
    | true => simp [hrepresents, hface, ite_eq_iff]
    | false => simp [hrepresents, isUnrestricted_iff_of_interface hshape, ite_eq_iff]
  | _ => simp [Represents, IsUnrestricted, hshape, isInterface, interface?]

/-- A term admits the constants that the basic type beneath it represents, or all as `any`. -/
lemma Ordered.admitsTerm_iff (hs : s.Ordered) (hx : x.IsUntypedConstant s v k)
    (hu : s.isUntyped (s.underlying u) = false) (hvalid : s.isInvalid u = false) :
    s.admitsTerm x u ↔ s.Represents u v ∨ s.IsUnrestricted u := by
  have hvalid' : s.isInvalid (s.underlying u) = false := by
    rwa [isInvalid, family?, hs.shape_underlying]
  have hok : (∃ i, s.implicitWith (fun _ => false) x (s.underlying u) = .ok i) ↔
      s.Represents u v ∨ s.IsUnrestricted u := by
    rw [implicitWith_ok_iff hx hu hvalid']
    simp [hs.isTypeParam_underlying u, Represents, IsUnrestricted, hs.shape_underlying]
  rw [← hok, admitsTerm]
  obtain ⟨old, hold, -⟩ := hx.type
  cases himplicit : s.implicitWith (fun _ => false) x (s.underlying u) with
  | ok i => simpa [givesType] using isSome_type_of_implicitWith hold himplicit
  | error k => simp [givesType]

lemma identical_self (s : Store) (t : TypeId) : s.identical t t := by
  obtain ⟨n, hn⟩ : ∃ n, s.identityDepth = n + 1 :=
    Nat.exists_eq_add_one.mpr (by unfold identityDepth; positivity)
  simp [identical, identical?, hn, identicalWithin, identityStep]

lemma assignable_self (hy : y.type = some t) : s.assignable y t := by
  simp [assignable_eq_step, assignsStep, hy, identical_self]

lemma select_basic (h : s.type t = .basic j) (addressable : Bool) (name : String) :
    s.select t addressable name = .notFound := by
  have hsearch : s.searchLevels addressable name s.levelBound [⟨t, [], false, false⟩] [] =
      some .notFound := by
    have hscan : s.scanLevel name [⟨t, [], false, false⟩] ⟨[], none, []⟩ = .ok ⟨[], none, []⟩ := by
      simp only [scanLevel, scanCandidate, scanShape, h, shape_of_basic h]
      rfl
    rw [levelBound, searchLevels, hscan]
    exact searchLevels.eq_1 ..
  simp only [select, select?, h, selectFrom?, dereference, Bool.false_and, Bool.false_eq_true, if_false]
  rw [hsearch]
  split <;> rfl

/-- A basic type implements an interface only if this has no methods and no terms. -/
lemma unsatisfied?_basic_eq_none_iff (hb : s.type u = .basic j) (hj : j ≠ .invalid)
    (ht : s.shape t = .interface i) :
    s.unsatisfied? u t = none ↔ s.IsUnrestricted t := by
  have hvalid : s.isInvalid t = false := by simp [isInvalid, family?, ht, basic?]
  have hfaulty : s.isFaulty u = false := by
    simp [isFaulty, isInvalid_of_basic hb hj, shape_of_basic hb, pointerBase?]
  rw [isUnrestricted_iff_of_interface ht]
  simp only [unsatisfied?, hvalid, hfaulty, ht, Bool.or_self, Bool.false_eq_true, if_false]
  cases hterms : i.terms with
  | some ts => simp [InterfaceType.isEmpty, hterms]
  | none =>
    cases hmethods : i.methods with
    | nil => simp [InterfaceType.isEmpty, hterms, hmethods]
    | cons m ms =>
      -- the first method is lacking already
      have hlacking : s.lackingMethod? u t true = some (.missing m) := by
        simp [lackingMethod?, ht, shape_of_basic hb, hmethods, lackingInType?, select_basic hb]
      simp [InterfaceType.isEmpty, hterms, hmethods, hlacking]

lemma not_identical_of_basic (hb : s.type u = .basic j) (ht : ∀ k, s.type t ≠ .basic k) :
    s.identical u t = false := by
  rw [Bool.eq_false_iff]
  intro h
  obtain ⟨k, hk, -⟩ := alias_of_identical h hb
  exact ht k hk

/-- An interface takes a value of a basic type only if it has no methods and no terms. -/
lemma assignable_basic_iff (hs : s.HasBasics) (hb : s.type u = .basic j)
    (huntyped : j.isUntyped = false) (hj : j ≠ .invalid) (ht : s.isPlainInterface t)
    (hy : y.type = some u) (hvalid : y.isInvalid = false) :
    s.assignable y t ↔ s.IsUnrestricted t := by
  obtain ⟨hparam, hface⟩ : s.isTypeParam t = false ∧ s.isInterface t := by
    simpa [isPlainInterface] using ht
  obtain ⟨i, hi⟩ := exists_interface hface
  have hunder : s.underlying u = u :=
    underlyingWithin_of_beneath_none (by rw [hb]; rfl) _
  have hplace : t ≠ .invalid := by
    rintro rfl
    cases (shape_of_basic (hs .invalid)).symm.trans hi
  have hother := not_identical_of_basic hb fun k hk => by cases (shape_of_basic hk).symm.trans hi
  have hbeneath := not_identical_of_basic hb fun k hk => by cases hk.symm.trans hi
  have htyped : s.isUntyped u = false := by simp [isUntyped, hb, basic?, huntyped]
  have hbasic : s.isTypeParam u = false := by simp [isTypeParam, hb, typeParam?]
  rw [← unsatisfied?_basic_eq_none_iff hb hj hi, assignable_eq_step, assignsStep, hy]
  simp [hvalid, hplace, hother, hunder, htyped, assignsTyped, hbeneath, asksForMethods, ht, hbasic,
    implements]

end Store

namespace Pass

variable {ot : Option TypeId}

lemma isInvalid_assignTyped (hx : x.isInvalid = false) :
    ((assignTyped x t context).1 c).1.isInvalid = !c.store.assignable x t := by
  have hverdict : ((probe (·.assign x t)).1 c).1 = ((c.store.assign x t).run []).1 := rfl
  rw [assignTyped, bind_run, hverdict, Store.assignable]
  cases ((c.store.assign x t).run []).1 with
  | ok _ => exact hx
  | error r => rfl

lemma isInvalid_assignConverted (hx : x.isInvalid = false) :
    ((assignConverted x ot context).1 c).1.isInvalid = !ot.all (c.store.assignable x) := by
  cases ot with
  | none =>
    simp only [assignConverted, hx, Bool.false_eq_true, if_false, bind_run]
    exact hx
  | some t =>
    simp only [assignConverted, hx, Bool.false_eq_true, if_false, bind_run]
    rw [← store_reportGeneric x context c]
    exact isInvalid_assignTyped hx

section

variable (hnil : x.isNil c.store = false)
include hnil

lemma fst_assignUntyped_of_error {k : Fault}
    (h : c.store.implicit x (untypedTarget c.store x old ot) = .error k) :
    ((assignUntyped x old ot context).1 c).1 = x.invalidated := by
  simp only [assignUntyped, entities_bind_run, hnil, Bool.and_false, Bool.false_eq_true, if_false, h]
  rfl

lemma assignUntyped_of_ok (context : String) {i : Implicit}
    (h : c.store.implicit x (untypedTarget c.store x old ot) = .ok i) :
    ((assignUntyped x old ot context).1 c).1 =
        { x with mode := i.value.elim x.mode .constant, type := i.type } ∧
      ((assignUntyped x old ot context).1 c).2.store = c.store := by
  simp only [assignUntyped, entities_bind_run, hnil, Bool.and_false, Bool.false_eq_true, if_false, h]
  exact ⟨rfl, rfl⟩

end

/-- An untyped constant is taken if it can be converted and the place takes the converted value. -/
lemma isInvalid_assignment_iff (hx : x.mode = .constant v) (hold : x.type = some old)
    (huntyped : c.store.isUntyped old) :
    ((assignment x ot context).1 c).1.isInvalid = false ↔
      ∃ i, c.store.implicit x (untypedTarget c.store x old ot) = .ok i ∧
        ∀ t ∈ ot, c.store.assignable { x with
          mode := i.value.elim x.mode .constant, type := i.type } t := by
  have hnil : x.isNil c.store = false := by simp [isNil, hx]
  have hvalue : (assignment x ot context).1 c = (assignValue x ot context).1 c := by
    have hsingle : singleValue x = entities >>= fun _ => pure x := by simp [singleValue, hx]
    rw [assignment, hsingle, bind_assoc, entities_bind_run, pure_bind, hx]
  rw [hvalue, assignValue, entities_bind_run, hold, Option.filter_some, huntyped, if_pos rfl, bind_run]
  cases himplicit : c.store.implicit x (untypedTarget c.store x old ot) with
  | error k =>
    rw [fst_assignUntyped_of_error hnil himplicit, assignConverted_invalid rfl]
    simp [isInvalid, invalidated]
  | ok i =>
    obtain ⟨hy, hstore⟩ := assignUntyped_of_ok hnil context himplicit
    have hvalid : ({ x with mode := i.value.elim x.mode .constant, type := i.type } : Operand).isInvalid =
        false := by
      cases i.value <;> simp [isInvalid, hx]
    rw [hy, isInvalid_assignConverted hvalid, hstore]
    cases ot <;> simp

end Pass

namespace Store

lemma implicit_default_iff (hs : s.HasBasics) (hx : x.IsUntypedConstant s v k) :
    (∃ i, s.implicit x (.basic k.default) = .ok i) ↔ v.fits k.default k.default.family := by
  obtain ⟨hdefault, htyped⟩ := BasicKind.default_of_untyped hx.untyped hx.notNil
  have hbasic := hs k.default
  have hshape := shape_of_basic hbasic
  have huntyped : s.isUntyped (.basic k.default) = false := by
    simp [isUntyped, hbasic, basic?, htyped]
  rw [implicit, implicitWith_ok_iff hx huntyped (isInvalid_of_basic hbasic hdefault),
    represents_iff_of_basic hshape]
  simp [isInterface, IsUnrestricted, hshape, interface?]

/-- Places that are no interfaces take what can be converted to their types. -/
lemma Ordered.takes_iff_of_not_plain (hs : s.Ordered) (hx : x.IsUntypedConstant s v k)
    (ht : s.isUntyped t = false) (hvalid : s.isInvalid t = false) (hplain : s.isPlainInterface t = false)
    (hterms : ∀ u ∈ s.terms t, s.isUntyped (s.underlying u) = false ∧ s.isInvalid u = false) :
    s.Takes v k (some t) ↔ ∃ i, s.implicit x t = .ok i := by
  have hadmits := forall₂_congr fun u hu => hs.admitsTerm_iff hx (hterms u hu).1 (hterms u hu).2
  have hother : s.isTypeParam t = false → ¬ s.IsUnrestricted t := by
    rintro hparam ⟨i, hi, -⟩
    simp [isPlainInterface, hparam, isInterface, hi, interface?] at hplain
  rw [implicit, implicitWith_ok_iff hx ht hvalid, hadmits]
  constructor
  · rintro (_ | hrepresents | ⟨hparam, hface, -⟩ | ⟨hparam, hne, hall⟩)
    · exact .inl hrepresents
    · exact absurd hface (hother hparam)
    · exact .inr (.inl ⟨hparam, hs.isInterface_of_terms hne, hne, hall⟩)
  · rintro (hrepresents | ⟨hparam, -, hne, hall⟩ | ⟨hparam, hface⟩)
    · exact .basic hrepresents
    · exact .typeParam hparam hne hall
    · exact absurd hface (hother hparam)

lemma takes_iff_of_plain (hplain : s.isPlainInterface t) :
    s.Takes v k (some t) ↔ v.fits k.default k.default.family ∧ s.IsUnrestricted t := by
  obtain ⟨hparam, hface⟩ : s.isTypeParam t = false ∧ s.isInterface t := by
    simpa [isPlainInterface] using hplain
  constructor
  · rintro (_ | ⟨j, hj, -⟩ | ⟨-, hfree, hfits⟩ | ⟨hparam', -⟩)
    · simp [isInterface, hj, interface?] at hface
    · exact ⟨hfits, hfree⟩
    · simp [hparam] at hparam'
  · rintro ⟨hfits, hfree⟩
    exact .interface hparam hfree hfits

end Store

namespace BuiltSession

/-- In every state of a session and after any steps of a check, an untyped constant stays valid in
an assignment if and only if its place takes it: a place without a type and an interface without
methods and terms if the default type of the constant represents the value, a basic type if it
represents it, and a type parameter if it has terms that all do. -/
theorem constant_taken_iff (h : BuiltSession c) (hd : c.SafeSteps false d)
    (hx : x.IsUntypedConstant d.store v k) (ot : Option TypeId) (context : String)
    (hot : ∀ t ∈ ot, d.store.isUntyped t = false ∧ d.store.isInvalid t = false ∧
      ∀ u ∈ d.store.terms t, d.store.isUntyped (d.store.underlying u) = false ∧
        d.store.isInvalid u = false) :
    ((assignment x ot context).1 d).1.isInvalid = false ↔ d.store.Takes v k ot := by
  have hbasics : d.store.HasBasics := h.hasBasics hd
  have hordered : d.store.Ordered :=
    hd.keep_store (fun _ _ _ hs hstep => hs.construction hstep) h.closed h.ordered
  obtain ⟨old, hold, -⟩ := hx.type
  have huntyped := hx.isUntyped_type hold
  rw [isInvalid_assignment_iff hx.mode hold huntyped]
  cases ot with
  | none =>
    rw [untypedTarget, hx.defaultType_eq hold]
    simp only [Option.not_mem_none, false_imp_iff, implies_true, and_true]
    rw [Store.implicit_default_iff hbasics hx]
    exact ⟨.anyType, fun htakes => by cases htakes; assumption⟩
  | some t =>
    obtain ⟨ht, hvalid, hterms⟩ := hot t rfl
    simp only [Option.mem_some_iff, forall_eq']
    cases hplain : d.store.isPlainInterface t with
    | false =>
      have htarget : untypedTarget d.store x old (some t) = t := by
        simp [untypedTarget, hplain]
      rw [htarget, hordered.takes_iff_of_not_plain hx ht hvalid hplain hterms]
      -- the converted value has the type of the place
      refine exists_congr fun i => and_iff_left_of_imp fun himplicit => Store.assignable_self ?_
      exact Store.type_of_implicit hx.isInvalid_eq hold huntyped ht hvalid (.inr hplain) himplicit
    | true =>
      have htarget : untypedTarget d.store x old (some t) = .basic k.default := by
        simp [untypedTarget, hplain, hx.isNil_eq, hx.defaultType_eq hold]
      rw [htarget, Store.takes_iff_of_plain hplain, ← Store.implicit_default_iff hbasics hx,
        ← exists_and_right]
      -- the converted value has its default type
      refine exists_congr fun i => and_congr_right fun himplicit => ?_
      obtain ⟨hdefault, htyped⟩ := BasicKind.default_of_untyped hx.untyped hx.notNil
      have htype : i.type = some (.basic k.default) := by
        rw [← hx.defaultType_eq hold] at himplicit ⊢
        exact Store.type_of_implicit_default hx.isInvalid_eq hold huntyped hbasics himplicit
      refine Store.assignable_basic_iff hbasics (hbasics k.default) htyped hdefault hplain htype ?_
      cases i.value <;> simp [isInvalid, hx.mode]

/-- The entities after a host has made a type parameter that may stand for `int8` and `float64`. -/
def scaledStore : Store :=
  (Build.typeParam Span.dummy "T" 0 ⟨33⟩
    (Build.newType (.interface { terms := some [.basic .int8, .basic .float64] })
      (Checker.start {}).store).2).2

def scaledState : Checker := { Checker.start {} with store := scaledStore }

lemma scaledStore_assembled : scaledStore.Assembled := by
  refine (Store.Assembled.start.compose ⟨?_, ?_, by simp⟩ rfl rfl rfl).typeParam ?_
  all_goals decide +kernel

lemma scaledState_reached : BuiltSession scaledState := scaledStore_assembled.session

def untypedInt (i : Int64) : Operand := { mode := .constant (.small i), type := some (.basic .untypedInt) }

/-- The type parameter takes a number that both types represent, and not one outside `int8`. -/
theorem scaledState_takes :
    ((assignment (untypedInt 100) (some ⟨34⟩) "assignment").1 scaledState).1.isInvalid = false ∧
    ((assignment (untypedInt 200) (some ⟨34⟩) "assignment").1 scaledState).1.isInvalid = true := by
  refine ⟨?_, by decide +kernel⟩
  have hterms : scaledState.store.terms ⟨34⟩ = [.basic .int8, .basic .float64] := by decide +kernel
  have hbasic : scaledState.store.HasBasics := scaledState_reached.hasBasics (.refl _)
  refine (constant_taken_iff scaledState_reached (.refl _)
    ⟨rfl, ⟨_, rfl, hbasic .untypedInt⟩, rfl, by decide⟩ _ _ (by decide +kernel)).mpr
      (.typeParam (by decide +kernel) (by simp [hterms]) fun u hu => .inl ?_)
  rcases (by simpa [hterms] using hu : u = .basic .int8 ∨ u = .basic .float64) with rfl | rfl
  · exact ⟨.int8, Store.shape_of_basic (hbasic .int8), by decide +kernel⟩
  · exact ⟨.float64, Store.shape_of_basic (hbasic .float64), by decide +kernel⟩

end BuiltSession

end GoCheck
