import GoCheck.Proofs.Conversion.Acceptance

/-!
# The rules of assignability

Assignability is decided by a chain of questions, each of which may end it. None of them hides a
later one with another answer, so a value may be assigned if one of the rules says so.
-/

namespace GoCheck

open Store Ty

variable {i : InterfaceType}

namespace Store

variable {s : Store} {x : Operand} {t v : TypeId}

lemma underlying_of_isUntyped (h : s.isUntyped t) : s.underlying t = t := by
  obtain ⟨k, hk, -⟩ := isUntyped_iff.mp h
  exact underlyingWithin_of_beneath_none (by rw [hk]; rfl) _

lemma isUntyped_of_underlying (h : s.isUntyped (s.underlying t) = false) :
    s.isUntyped t = false := by
  rw [Bool.eq_false_iff]
  intro hu
  rw [underlying_of_isUntyped hu, hu] at h
  cases h

lemma givesType_iff : givesType r ↔ ∃ u w, r = .ok ⟨some u, w⟩ := by
  rcases r with _ | ⟨_ | u, w⟩ <;> simp [givesType]

/-- A term admits what can be converted to it. -/
lemma Ordered.admitsTerm_eq (hs : s.Ordered) (hnil : x.isNil s = false)
    (hu : s.isUntyped (s.underlying u) = false) (hp : s.isTypeParam u = false) :
    s.admitsTerm x u = givesType (s.implicit x u) := by
  have hfamily : s.family? (s.underlying u) = s.family? u := by
    rw [family?, hs.shape_underlying, family?]
  have hbasic old : givesType (s.implicitBasic x old (s.underlying u)) =
      givesType (s.implicitBasic x old u) := by
    simp only [givesType_implicitBasic, hs.underlying_underlying]
    rcases (s.type old).basic? with _ | k
    · rfl
    · cases k <;> simp [admitsUntyped, isBoolean, isNumeric, isString, hfamily]
  -- no type parameter lies beneath a term, so both conversions look at the same form
  unfold admitsTerm implicit implicitWith
  cases x.type with
  | none => rfl
  | some old =>
    simp only [isInvalid, hfamily, hnil, hu, isUntyped_of_underlying hu, hp, hs.shape_underlying,
      hs.isTypeParam_underlying, Bool.false_eq_true, if_false]
    split
    · rfl
    · cases s.shape u with
      | basic k => exact hbasic old
      | _ => rfl

lemma Ordered.hasNil_typeParam (hs : s.Ordered) (ht : s.isTypeParam t)
    (hne : s.terms t ≠ []) : s.hasNil t = (s.terms t).all s.hasNil := by
  obtain ⟨i, hi⟩ := exists_interface (hs.isInterface_of_terms hne)
  cases hts : s.terms? t with
  | none => simp [terms, hts] at hne
  | some ts => simp [hs.hasNil_eq t, hasNilStep, hi, ht, terms, hts]

/-- A type parameter takes on what each of its terms takes on. -/
lemma Ordered.givesType_typeParam (hs : s.Ordered) (hx : x.type = some v)
    (hv : s.isUntyped v) (hvalid : x.isInvalid = false) (ht : s.isTypeParam t)
    (hne : s.terms t ≠ []) (hterms : ∀ u ∈ s.terms t, s.isUntyped (s.underlying u) = false ∧
      s.isInvalid u = false ∧ s.isTypeParam u = false) :
    givesType (s.implicit x t) = (s.terms t).all fun u => givesType (s.implicit x u) := by
  obtain ⟨i, hi⟩ := exists_interface (hs.isInterface_of_terms hne)
  have hnone : (s.terms t).isEmpty = false := by simpa using hne
  have hinvalid : s.isInvalid t = false := by simp [isInvalid, family?, hi, basic?]
  have htyped : s.isUntyped t = false := by
    unfold isTypeParam at ht
    unfold isUntyped
    cases htype : s.type t <;> simp_all [typeParam?, basic?]
  -- `nil` asks whether the terms have a nil value, any other operand whether they admit it
  cases hnil : x.isNil s with
  | true =>
    have hterm : ∀ u ∈ s.terms t, s.hasNil u = givesType (s.implicit x u) := by
      intro u hu
      obtain ⟨hbeneath, hother, -⟩ := hterms u hu
      simp only [implicit, implicitWith, hx, hvalid, hv, hother, isUntyped_of_underlying hbeneath,
        hnil, Bool.not_true, Bool.or_self, Bool.false_eq_true, if_false, if_true]
      cases s.hasNil u <;> rfl
    rw [← all_congr hterm, ← hs.hasNil_typeParam ht hne]
    simp only [implicit, implicitWith, hx, hvalid, hv, hinvalid, htyped, hnil, Bool.not_true,
      Bool.or_self, Bool.false_eq_true, if_false, if_true]
    cases s.hasNil t <;> rfl
  | false =>
    rw [← all_congr fun u hu => hs.admitsTerm_eq hnil (hterms u hu).1 (hterms u hu).2.2]
    simp only [implicit, implicitWith, hx, hvalid, hv, hinvalid, htyped, hnil, hi, ht, hnone,
      Bool.not_true, Bool.not_false, Bool.true_and, Bool.or_self, Bool.false_eq_true, if_false, if_true]
    cases (s.terms t).all (s.admitsTerm x) <;> rfl

/-- The rules by which a value of a typed type may be assigned, type parameters apart. -/
inductive AssignableTo (s : Store) (v t : TypeId) : Prop
  | identical (h : s.identical v t = true)
  | underlying (h : s.identical (s.underlying v) (s.underlying t) = true)
      (hname : s.oneUnnamed v t = true)
  | interface {i : InterfaceType} (ht : s.shape t = .interface i) (hterms : i.terms = none)
      (h : s.implements v t = true)
  | channel {a b : TypeId} (hv : s.shape v = .chan .both a) (ht : s.shape t = .chan d b)
      (h : s.identical a b = true) (hname : s.oneUnnamed v t = true)

lemma holds_assignChannel?_iff : (s.assignChannel? v t).any Verdict.holds ↔
    ∃ d a b, s.shape v = .chan .both a ∧ s.shape t = .chan d b ∧ s.identical a b ∧
      s.oneUnnamed v t := by
  unfold assignChannel?
  split
  · rename_i a d b hv ht
    cases hab : s.identical a b <;> cases s.oneUnnamed v t <;> simp [Verdict.holds, hv, ht, hab]
  · rename_i hno
    refine iff_of_false (by simp) ?_
    rintro ⟨d, a, b, hv, ht, -⟩
    exact hno a d b hv ht

lemma assignChannel?_of_interface
    (h : s.shape v = .interface i ∨ s.shape t = .interface i) : s.assignChannel? v t = none := by
  unfold assignChannel?
  split
  · rename_i hv ht
    rcases h with h | h
    · cases hv.symm.trans h
    · cases ht.symm.trans h
  · rfl

/-- An interface with terms is implemented by types with errors alone. -/
lemma implements_of_terms (ht : s.shape t = .interface i)
    (hterms : i.terms ≠ none) : s.implements v t = s.isFaulty v := by
  have hvalid : s.isInvalid t = false := by simp [isInvalid, family?, ht, basic?]
  have hsome : i.terms.isSome := Option.isSome_iff_ne_none.mpr hterms
  unfold implements unsatisfied?
  simp only [hvalid, ht, hsome, if_true, Bool.false_or]
  cases s.isFaulty v <;> rfl

section

variable (hx : x.type = some v) (hvalid : x.isInvalid = false) (hplace : t ≠ .invalid)
variable (htyped : s.isUntyped (s.underlying v) = false) (hv : s.isTypeParam v = false)
variable (ht : s.isTypeParam t = false)
variable (hpointer : s.isInterfacePointer (s.underlying t) = false)
include hx hvalid hplace htyped hv ht hpointer

/-- The chain of questions, without type parameters. -/
lemma assignsStep_eq :
    s.assignsStep assigns x t = (s.identical v t ||
      s.identical (s.underlying v) (s.underlying t) && s.oneUnnamed v t ||
      s.isInterface t && s.implements v t || (s.assignChannel? v t).any Verdict.holds) := by
  have hrest : s.assignsOther assigns x v t = (s.assignChannel? v t).any Verdict.holds := by
    have hterms : s.assignsTerms assigns x v t = false := by simp [assignsTerms, hv, ht]
    unfold assignsOther
    rw [hterms]
    split
    · rename_i hcond
      have hface : s.isInterface v := by simp_all [isPlainInterface]
      obtain ⟨i, hi⟩ := exists_interface hface
      rw [assignChannel?_of_interface (.inl hi)]
      rfl
    · cases s.assignChannel? v t <;> rfl
  simp only [assignsStep, hx, Option.elim_some, hvalid, hplace, htyped, assignsTyped, hv, ht,
    asksForMethods, isPlainInterface, hpointer, hrest, decide_false, Bool.false_or, Bool.not_false,
    Bool.and_true, Bool.or_false, Bool.or_true, Bool.true_and, Bool.false_eq_true, if_false]
  -- no channel lies beneath an interface, so a refusal by one cannot hide that rule
  cases hface : s.isInterface t with
  | false => cases s.identical v t <;> cases s.identical (s.underlying v) (s.underlying t) <;>
      cases s.oneUnnamed v t <;> simp
  | true =>
    obtain ⟨i, hi⟩ := exists_interface hface
    rw [assignChannel?_of_interface (.inr hi)]
    cases s.identical v t <;> cases s.identical (s.underlying v) (s.underlying t) <;>
      cases s.oneUnnamed v t <;> simp

lemma assignable_iff_rules : s.assignable x t ↔
    s.AssignableTo v t ∨ s.isInterface t ∧ s.isFaulty v := by
  rw [assignable_eq_step, assignsStep_eq hx hvalid hplace htyped hv ht hpointer]
  simp only [Bool.or_eq_true, Bool.and_eq_true, holds_assignChannel?_iff]
  constructor
  · rintro (((h | ⟨h, hname⟩) | ⟨hface, h⟩) | ⟨d, a, b, ha, hb, h, hname⟩)
    · exact .inl (.identical h)
    · exact .inl (.underlying h hname)
    · obtain ⟨i, hi⟩ := exists_interface hface
      by_cases hterms : i.terms = none
      · exact .inl (.interface hi hterms h)
      · exact .inr ⟨hface, implements_of_terms hi hterms ▸ h⟩
    · exact .inl (.channel ha hb h hname)
  · rintro ((h | ⟨h, hname⟩ | ⟨hi, -, h⟩ | ⟨ha, hb, h, hname⟩) | ⟨hface, hfaulty⟩)
    · exact .inl (.inl (.inl h))
    · exact .inl (.inl (.inr ⟨h, hname⟩))
    · exact .inl (.inr ⟨by simp [isInterface, hi, interface?], h⟩)
    · exact .inr ⟨_, _, _, ha, hb, h, hname⟩
    · exact .inl (.inr ⟨hface, by simp [implements, unsatisfied?, hfaulty]⟩)

end

lemma assignsStep_congr (hto : ∀ u ∈ s.terms t, f x u = g x u)
    (hfrom : ∀ v ∈ x.type, ∀ u ∈ s.terms v,
      f { x with type := some u } t = g { x with type := some u } t) :
    s.assignsStep f x t = s.assignsStep g x t := by
  unfold assignsStep
  cases hx : x.type with
  | none => rfl
  | some v =>
    simp only [Option.elim_some, assignsTyped, assignsOther, assignsTerms, all_congr hto,
      all_congr (hfrom v hx)]

/-- No question about terms is left open: the answer is that of one step, with those for the
terms. -/
lemma Ordered.assignable_eq (hs : s.Ordered) (x : Operand) (t : TypeId) :
    s.assignable x t = s.assignsStep s.assignable x t := by
  rw [assignable_eq_step]
  have hdeep y u : s.assignsWithin (2 * s.types.size + 1) y u = s.assignable y u := by
    rw [Store.assignable_eq]
    refine (Shifted.descent (s := s) (p := s.assignsWithin) (f := id) (g := id) (fun _ _ x t ih => ?_)
      (by omega) (by unfold termDepth; omega) y u).symm
    exact assignsStep_congr
      (fun u hu => ih x u (Nat.add_lt_add_left (hs.place_lt_of_mem_terms hu) _))
      fun _ hv _ hu => ih _ t (Shifted.place_add_lt hs hv hu (.inl rfl))
  exact assignsStep_congr (fun u _ => hdeep x u) fun _ _ u _ => hdeep _ t

/-- A type without a name is no type parameter, nor is it identical to one. -/
lemma not_identical_of_isTypeParam (hv : s.isNamed v = false) (ht : s.isTypeParam t) :
    s.identical v t = false ∧ s.identical t v = false := by
  unfold isTypeParam at ht
  unfold isNamed at hv
  have hne : v ≠ t := by
    rintro rfl
    cases hty : s.type v <;> simp_all [Ty.isNamed, Ty.typeParam?]
  simp only [← Bool.not_eq_true]
  refine ⟨fun h => ?_, fun h => ?_⟩
  · obtain ⟨f, met, hrun⟩ := exists_step_of_identical h
    rw [identityStep, if_neg hne] at hrun
    cases htt : s.type t <;> rw [htt] at ht hrun <;> cases ht
    cases hty : s.type v <;> rw [hty] at hrun <;> cases hrun
  · rcases eq_or_of_identical h with rfl | ⟨-, -, hnone⟩
    · exact hne rfl
    · rw [hnone] at ht
      cases ht

section

variable (hs : s.Ordered) (hx : x.type = some v) (hvalid : x.isInvalid = false)
variable (hplace : t ≠ .invalid)
include hs hx hvalid hplace

lemma Ordered.assignable_to_typeParam (htyped : s.isUntyped (s.underlying v) = false)
    (hname : s.isNamed v = false) (hface : s.isInterface v = false)
    (ht : s.isTypeParam t) (hne : s.terms t ≠ []) :
    s.assignable x t ↔ ∀ u ∈ s.terms t, s.assignable x u := by
  obtain ⟨i, hi⟩ := exists_interface (hs.isInterface_of_terms hne)
  have hpointer : s.isInterfacePointer (s.underlying t) = false := by
    have hi' : s.type (s.underlying t) = .interface i := hi
    simp [isInterfacePointer, hi', pointerBase?]
  rw [hs.assignable_eq]
  simp [assignsStep, hx, hvalid, hplace, (not_identical_of_isTypeParam hname ht).1, htyped, assignsTyped,
    ht, asksForMethods, isPlainInterface, hpointer, assignsOther, hface,
    assignChannel?_of_interface (.inr hi), assignsTerms, hname, hne]

/-- A value of a type parameter's type may be assigned if one of each term may be. -/
lemma Ordered.assignable_of_typeParam (hv : s.isTypeParam v) (hne : s.terms v ≠ [])
    (hname : s.isNamed t = false) (hface : s.isInterface t = false) (hinvalid : s.isInvalid t = false) :
    s.assignable x t ↔ ∀ u ∈ s.terms v, s.assignable { x with type := some u } t := by
  obtain ⟨i, hi⟩ := exists_interface (hs.isInterface_of_terms hne)
  have huntyped : s.isUntyped (s.underlying v) = false := by
    have hi' : s.type (s.underlying v) = .interface i := hi
    simp [isUntyped, hi', Ty.basic?]
  have himplements : s.implements v t = false := by
    have hfaulty : s.isFaulty v = false := by
      simp [isFaulty, isInvalid, family?, hi, Ty.basic?, Ty.pointerBase?]
    unfold implements unsatisfied?
    rw [hinvalid, hfaulty]
    cases hshape : s.shape t <;> simp_all [isInterface, Ty.interface?]
  have hnamed : s.isNamed v := by
    unfold isTypeParam at hv
    unfold isNamed
    cases hty : s.type v <;> simp_all [Ty.isNamed, Ty.typeParam?]
  rw [hs.assignable_eq]
  simp [assignsStep, hx, hvalid, hplace, (not_identical_of_isTypeParam hname hv).2, huntyped, assignsTyped,
    hv, himplements, assignsOther, isPlainInterface,
    assignChannel?_of_interface (.inl hi), assignsTerms, hname, hnamed, hne]

end

end Store

variable {s : Store} {x : Operand} {t v : TypeId}

namespace Store.Assembled

open BuiltSession

/-- The entities with a defined type over that of untyped integers, and a type parameter that may stand
for it. -/
def looseStore : Store :=
  (Build.typeParam .dummy "P" 0 ⟨34⟩ (Build.newType (.interface { terms := some [⟨33⟩] })
    (Build.named .dummy "T" (.basic .untypedInt) (Checker.start {}).store).2).2).2

lemma looseStore_assembled : looseStore.Assembled := by
  refine ((Assembled.start.define _ _ ?_).compose ⟨?_, ?_, by simp⟩ rfl rfl rfl).typeParam ?_
  all_goals decide +kernel

end Store.Assembled

namespace BuiltSession

variable {c d : Checker}

lemma ordered_after (h : BuiltSession c) (hd : c.SafeSteps false d) : d.store.Ordered :=
  hd.keep_store (fun _ _ _ hs hstep => hs.construction hstep) h.closed h.ordered

/-- In every state of a session and after any steps of a check, a typed operand is assignable to a type
if one of the rules says so, or if it is a pointer to a type with errors and the target is an interface
of any kind. A type parameter takes what each of its terms takes, and what has its type may be assigned
where each term may be. -/
theorem typed_assignable_iff (h : BuiltSession c) (hd : c.SafeSteps false d) (hx : x.type = some v)
    (hvalid : x.isInvalid = false) (htyped : d.store.isUntyped (d.store.underlying v) = false)
    (hv : d.store.isInvalid v = false) (ht : d.store.isInvalid t = false) :
    (d.store.isTypeParam v = false → d.store.isTypeParam t = false →
      d.store.isInterfacePointer (d.store.underlying t) = false →
        (d.store.assignable x t = true ↔ d.store.AssignableTo v t ∨
          d.store.isInterface t = true ∧ (d.store.shape v).pointerBase?.any d.store.isInvalid = true)) ∧
    (d.store.isNamed v = false → d.store.isInterface v = false → d.store.isTypeParam t = true →
      d.store.terms t ≠ [] →
        (d.store.assignable x t = true ↔ ∀ u ∈ d.store.terms t, d.store.assignable x u = true)) ∧
    (d.store.isTypeParam v = true → d.store.terms v ≠ [] → d.store.isNamed t = false →
      d.store.isInterface t = false →
        (d.store.assignable x t = true ↔
          ∀ u ∈ d.store.terms v, d.store.assignable { x with type := some u } t = true)) := by
  have hs := h.ordered_after hd
  have hplace : t ≠ .invalid := by
    rintro rfl
    have hinvalid := shape_of_basic (h.hasBasics hd .invalid)
    simp [isInvalid, family?, TypeId.invalid, hinvalid, basic?, BasicKind.family] at ht
  refine ⟨fun hvp htp hpointer => ?_, fun hname hface => ?_, fun hp hne hname hface => ?_⟩
  · rw [assignable_iff_rules hx hvalid hplace htyped hvp htp hpointer, isFaulty, hv,
      Bool.false_or]
  · exact hs.assignable_to_typeParam hx hvalid hplace htyped hname hface
  · exact hs.assignable_of_typeParam hx hvalid hplace hp hne hname hface ht

/-- A variable of type `error` may be assigned to the interface beneath it; a type parameter does
not take a value of an unnamed type that no term takes. -/
theorem scaledState_typed_assignable :
    scaledState.store.AssignableTo .error ⟨30⟩ ∧
      scaledState.store.assignable { mode := .value, type := some ⟨29⟩ } ⟨34⟩ = false := by
  have hiff (v t : TypeId) := typed_assignable_iff (x := { mode := .value, type := some v }) (t := t)
    scaledState_reached (.refl _) rfl rfl
  constructor
  · have hrules := (hiff .error ⟨30⟩ (by decide +kernel) (by decide +kernel) (by decide +kernel)).1
      (by decide +kernel) (by decide +kernel) (by decide +kernel)
    exact (hrules.mp (by decide +kernel)).resolve_right (by decide +kernel)
  · have hterms := (hiff ⟨29⟩ ⟨34⟩ (by decide +kernel) (by decide +kernel) (by decide +kernel)).2.1
      (by decide +kernel) (by decide +kernel) (by decide +kernel) (by decide +kernel)
    rw [Bool.eq_false_iff, ne_eq, hterms]
    decide +kernel

/-- The entities with a pointer to the invalid type. -/
def faultyStore : Store := (Build.newType (.pointer .invalid) scaledStore).2

/-- The pointer is taken by an interface with terms, although no rule says so. -/
theorem faultyStore_assignable :
    faultyStore.assignable { mode := .value, type := some ⟨35⟩ } ⟨33⟩ = true ∧
      ¬ faultyStore.AssignableTo ⟨35⟩ ⟨33⟩ := by
  have hface : faultyStore.shape ⟨33⟩ = .interface { terms := some [.basic .int8, .basic .float64] } := by
    decide +kernel
  refine ⟨by decide +kernel, ?_⟩
  rintro (h | ⟨h, -⟩ | ⟨hi, hterms, -⟩ | ⟨-, hchan, -, -⟩)
  · revert h
    decide +kernel
  · revert h
    decide +kernel
  · obtain rfl := interface.inj (hface.symm.trans hi)
    cases hterms
  · cases hface.symm.trans hchan

/-- A value of a type that is not typed underneath is taken by any valid type. -/
theorem looseStore_assignable :
    Assembled.looseStore.assignable { mode := .value, type := some ⟨33⟩ } (.basic .string) = true ∧
      ¬ Assembled.looseStore.AssignableTo ⟨33⟩ (.basic .string) := by
  have hshape : Assembled.looseStore.shape (.basic .string) = .basic .string := by decide +kernel
  refine ⟨by decide +kernel, ?_⟩
  rintro (h | ⟨h, -⟩ | ⟨hi, -, -⟩ | ⟨-, hchan, -, -⟩)
  · revert h
    decide +kernel
  · revert h
    decide +kernel
  · cases hshape.symm.trans hi
  · cases hshape.symm.trans hchan

end BuiltSession

end GoCheck
