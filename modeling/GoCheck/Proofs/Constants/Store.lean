import GoCheck.Proofs.Constants.Fit
import GoCheck.Proofs.Conversion.Outcomes
import GoCheck.Proofs.Reach
import GoCheck.Proofs.Steps

/-!
# Typed constants in a store

A type holds a constant if the basic type beneath it does, and this stays so when the store grows. A
constant that is assigned to a type that has constants is held by it if it is held by its own.
-/

namespace GoCheck

open Ty

variable {x : Operand} {l : List String} {target : TypeId}

def Ty.named? : Ty → Option NamedType
  | .named n => some n
  | _ => none

namespace Store

variable {s s' : Store} {t : TypeId} {v : Constant} {k : BasicKind}

/-- A store that has grown: every type keeps what it stands on. -/
structure Extends (s s' : Store) : Prop where
  size : s.types.size ≤ s'.types.size
  basic : ∀ t, t.index < s.types.size → (s'.type t).basic? = (s.type t).basic?
  beneath : ∀ t, t.index < s.types.size → (s'.type t).beneath? = (s.type t).beneath?

lemma Extends.refl (s : Store) : s.Extends s := ⟨le_rfl, fun _ _ => rfl, fun _ _ => rfl⟩

lemma lt_size_of_beneath (h : (s.type t).beneath? = some u) : t.index < s.types.size := by
  refine lt_size_of_type_ne fun ht => ?_
  rw [ht] at h
  cases h

lemma lt_size_of_basic (h : (s.type t).basic? = some k) (hk : k ≠ .invalid) :
    t.index < s.types.size := by
  refine lt_size_of_type_ne fun ht => hk ?_
  rw [ht] at h
  exact (Option.some.inj h).symm

lemma underlyingWithin_of_beneath_none (h : (s.type t).beneath? = none) (n : Nat) :
    s.underlyingWithin n t = t := by
  cases n with
  | zero => rfl
  | succ n => simp [underlyingWithin, h]

/-- The way down to a type that stands on nothing stays the same, however far one may go. -/
lemma Extends.underlyingWithin_eq (h : s.Extends s') (hmn : m ≤ n)
    (hlt : (s.underlyingWithin m t).index < s.types.size)
    (hend : (s.type (s.underlyingWithin m t)).beneath? = none) :
    s'.underlyingWithin n t = s.underlyingWithin m t := by
  induction m generalizing n t with
  | zero => exact underlyingWithin_of_beneath_none ((h.beneath t hlt).trans hend) n
  | succ m ih =>
    cases hb : (s.type t).beneath? with
    | none =>
      rw [underlyingWithin_of_beneath_none hb] at hlt ⊢
      exact underlyingWithin_of_beneath_none ((h.beneath t hlt).trans hb) n
    | some u =>
      obtain ⟨n, rfl⟩ : ∃ i, n = i + 1 := ⟨n - 1, by omega⟩
      have hb' : (s'.type t).beneath? = some u := (h.beneath t (lt_size_of_beneath hb)).trans hb
      simp only [underlyingWithin, hb, hb'] at hlt hend ⊢
      split
      · rename_i hut
        rw [if_pos hut, hb] at hend
      · rename_i hut
        rw [if_neg hut] at hlt hend
        exact ih (by omega) hlt hend

lemma Extends.underlying_eq (h : s.Extends s') (hlt : (s.underlying t).index < s.types.size)
    (hend : (s.shape t).beneath? = none) : s'.underlying t = s.underlying t :=
  h.underlyingWithin_eq (by have := h.size; omega) hlt hend

lemma Extends.basic_shape (h : s.Extends s') (hk : (s.shape t).basic? = some k)
    (hne : k ≠ .invalid) : (s'.shape t).basic? = some k := by
  have hlt := lt_size_of_basic hk hne
  have hend : (s.shape t).beneath? = none := by
    cases hs : s.shape t <;> simp_all [basic?, beneath?]
  rw [shape, h.underlying_eq hlt hend, h.basic _ hlt]
  exact hk

lemma isUntyped_of_tuple? (h : (s.type t).tuple? = some vars) : s.isUntyped t = false := by
  unfold isUntyped
  cases hshape : s.type t <;> simp_all [tuple?, basic?]

lemma isUntyped_iff : s.isUntyped t ↔ ∃ k, s.type t = .basic k ∧ k.isUntyped := by
  unfold isUntyped
  cases s.type t <;> simp [basic?]

lemma Extends.isUntyped (h : s.Extends s') (ht : s.isUntyped t) : s'.isUntyped t := by
  obtain ⟨k, hk, hu⟩ := isUntyped_iff.mp ht
  have hne : k ≠ .invalid := by
    rintro rfl
    cases hu
  have hbasic : (s.type t).basic? = some k := by rw [hk]; rfl
  rw [Store.isUntyped, h.basic t (lt_size_of_basic hbasic hne), hbasic]
  exact hu

/-- A type holds a constant if it is untyped, if the constant is unknown or fits what is beneath
it. -/
def Holds (s : Store) (t : TypeId) (v : Constant) : Prop :=
  v.isUnknown = true ∨ s.isUntyped t = true ∨ ∃ k, s.shape t = .basic k ∧ v.fits k k.family = true

/-- A type that ends in something other than a basic type. -/
def IsComposite (s : Store) (t : TypeId) : Prop :=
  (s.shape t).basic? = none ∧ (s.shape t).beneath? = none

lemma basic?_eq_some {ty : Ty} : ty.basic? = some k ↔ ty = .basic k := by
  cases ty <;> simp [basic?]

lemma ne_invalid_of_fits (hv : v.isUnknown = false) (h : v.fits k k.family) : k ≠ .invalid := by
  rintro rfl
  simp [Constant.fits, Constant.represent, hv, BasicKind.family] at h

lemma Holds.extends (h : s.Holds t v) (hs : s.Extends s') : s'.Holds t v := by
  rcases h with hv | ht | ⟨k, hk, hfits⟩
  · exact .inl hv
  · exact .inr (.inl (hs.isUntyped ht))
  · cases hv : v.isUnknown with
    | true => exact .inl hv
    | false =>
      refine .inr (.inr ⟨k, ?_, hfits⟩)
      exact basic?_eq_some.mp (hs.basic_shape (basic?_eq_some.mpr hk) (ne_invalid_of_fits hv hfits))

lemma IsComposite.extends (h : s.IsComposite t) (hs : s.Extends s') : s'.IsComposite t := by
  have hlt : (s.underlying t).index < s.types.size := by
    refine lt_size_of_type_ne fun ht => ?_
    have hbasic := h.1
    rw [shape, ht] at hbasic
    cases hbasic
  unfold IsComposite shape
  rw [hs.underlying_eq hlt h.2, hs.basic _ hlt, hs.beneath _ hlt]
  exact h

lemma isComposite_of_isInterface (h : s.isInterface t) : s.IsComposite t := by
  unfold isInterface at h
  unfold IsComposite
  cases hs : s.shape t <;> simp_all [interface?, basic?, beneath?]

lemma shape_of_beneath_none (h : (s.type t).beneath? = none) : s.shape t = s.type t := by
  rw [shape, underlying, underlyingWithin_of_beneath_none h]

lemma isNamed_of_shape (h : s.shape t = .basic k) : s.isNamed t := by
  unfold isNamed
  cases hb : (s.type t).beneath? with
  | none =>
    rw [← shape_of_beneath_none hb, h]
    rfl
  | some u => cases ht : s.type t <;> simp_all [Ty.beneath?, Ty.isNamed]

lemma exists_shape_of_isConstType (h : s.isConstType t) :
    ∃ k, s.shape t = .basic k ∧ k.family.isConstant := by
  unfold isConstType family? at h
  cases hs : s.shape t <;> simp_all [basic?]

lemma isConstType_of_shape (h : s.shape t = .basic k) : s.isConstType t = k.family.isConstant := by
  simp [isConstType, family?, h, basic?]

lemma Extends.isConstType (h : s.Extends s') (ht : s.isConstType t) : s'.isConstType t := by
  obtain ⟨k, hk, hc⟩ := exists_shape_of_isConstType ht
  have hne : k ≠ .invalid := by
    rintro rfl
    cases hc
  have hk' := basic?_eq_some.mp (h.basic_shape (basic?_eq_some.mpr hk) hne)
  rw [isConstType_of_shape hk', hc]

lemma isInterface_eq_false_of_shape (h : s.shape t = .basic k) : s.isInterface t = false := by
  simp [isInterface, h, interface?]

lemma isPlainInterface_eq_false_of_shape (h : s.shape t = .basic k) :
    s.isPlainInterface t = false := by
  simp [isPlainInterface, isInterface_eq_false_of_shape h]

/-- Basic types have their numbers, names one type beneath them, and nothing stands on an untyped
one. -/
structure Arranged (s : Store) : Prop where
  basic : ∀ k, s.type (.basic k) = .basic k
  named : ∀ t u m n, s.type t = .named m → s.type u = .named n → m.object = n.object →
    m.underlying = n.underlying
  beneath : ∀ t u, (s.type t).beneath? = some u → s.isUntyped u = false

/-- Moreover, every constant with a known value has a type that holds it. -/
structure Orderly (s : Store) : Prop extends s.Arranged where
  const : ∀ o v, (s.object o).value? = some v → v.isUnknown = false →
    v.isRegular = true ∧ ∃ t, (s.object o).type = some t ∧ s.Holds t v

namespace Arranged

variable (hs : s.Arranged)
include hs

lemma shape_basic (k : BasicKind) : s.shape (.basic k) = .basic k := by
  rw [shape_of_beneath_none (by rw [hs.basic]; rfl), hs.basic]

lemma isUntyped_underlying (h : s.isUntyped t = false) : s.isUntyped (s.underlying t) = false := by
  have hwithin : ∀ n t, s.isUntyped t = false → s.isUntyped (s.underlyingWithin n t) = false := by
    intro n
    induction n with
    | zero => exact fun _ h => h
    | succ n ih =>
      intro t h
      cases hb : (s.type t).beneath? with
      | none => rwa [underlyingWithin_of_beneath_none hb]
      | some u =>
        simp only [underlyingWithin, hb]
        split
        · exact h
        · exact ih u (hs.beneath t u hb)
  exact hwithin _ t h

end Arranged

lemma exists_step_of_identical (h : s.identical t u) :
    ∃ (f : TypeId → TypeId → Compare Bool) (met : List (TypeId × TypeId)),
      (s.identityStep f t u).run [] = some (true, met) := by
  obtain ⟨n, hn⟩ : ∃ n, s.identityDepth = n + 1 :=
    Nat.exists_eq_add_one.mpr (by unfold identityDepth; positivity)
  have hrun : s.identical? t u = some true := by
    unfold identical at h
    cases hi : s.identical? t u <;> simp_all
  rw [identical?, hn] at hrun
  obtain ⟨⟨b, met⟩, hb, rfl⟩ := Option.map_eq_some_iff.mp hrun
  exact ⟨s.identicalWithin n, met, hb⟩

/-- What identity says of a basic, a defined type and a type parameter. -/
lemma eq_or_of_identical (h : s.identical t u) : t = u ∨
    (∀ k, s.type t = .basic k → ∃ j, s.type u = .basic j ∧ j.resolveAlias = k.resolveAlias) ∧
    (∀ m, s.type t = .named m → ∃ n, s.type u = .named n ∧ m.object = n.object) ∧
    (s.type t).typeParam? = none := by
  obtain ⟨f, met, hrun⟩ := exists_step_of_identical h
  by_cases htu : t = u
  · exact .inl htu
  · refine .inr ⟨fun k hk => ?_, fun m hm => ?_, ?_⟩
    · rw [identityStep, if_neg htu, hk] at hrun
      cases hu : s.type u with
      | basic j =>
        rw [hu] at hrun
        have hrun := congrArg Prod.fst (Option.some.inj hrun)
        exact ⟨j, rfl, (of_decide_eq_true hrun).symm⟩
      | _ =>
        rw [hu] at hrun
        cases hrun
    · rw [identityStep, if_neg htu, hm] at hrun
      cases hu : s.type u with
      | named n =>
        rw [hu] at hrun
        have hrun := congrArg Prod.fst (Option.some.inj hrun)
        exact ⟨n, rfl, of_decide_eq_true hrun⟩
      | _ =>
        rw [hu] at hrun
        cases hrun
    · cases ht : s.type t with
      | typeParam p =>
        rw [identityStep, if_neg htu, ht] at hrun
        cases hrun
      | _ => rfl

lemma alias_of_identical (h : s.identical t u) (hk : s.type t = .basic k) :
    ∃ j, s.type u = .basic j ∧ j.resolveAlias = k.resolveAlias := by
  rcases eq_or_of_identical h with rfl | ⟨hbasic, -, -⟩
  · exact ⟨k, hk, rfl⟩
  · exact hbasic k hk

/-- Types that stand on the same type have the same type at the bottom. -/
lemma underlying_eq_of_beneath (ht : (s.type t).beneath? = some w)
    (hu : (s.type u).beneath? = some w) : s.underlying t = s.underlying u := by
  have hstep : ∀ {v}, (s.type v).beneath? = some w →
      s.underlying v = if w = v then v else s.underlyingWithin s.types.size w := by
    intro v hv
    simp [underlying, underlyingWithin, hv]
  -- a type that stands on itself is at the bottom already
  have hloop : (s.type w).beneath? = some w → ∀ n, s.underlyingWithin n w = w := by
    intro hw n
    cases n with
    | zero => rfl
    | succ n => simp [underlyingWithin, hw]
  rw [hstep ht, hstep hu]
  by_cases hwt : w = t
  · subst hwt
    by_cases hwu : w = u
    · rw [hwu]
    · rw [if_pos rfl, if_neg hwu, hloop ht]
  · by_cases hwu : w = u
    · subst hwu
      rw [if_neg hwt, if_pos rfl, hloop hu]
    · rw [if_neg hwt, if_neg hwu]

/-- Types identical to one with a basic type beneath it have the same beneath them, but for
aliases. -/
lemma Arranged.shape_of_identical (hs : s.Arranged) (h : s.identical t u)
    (hk : s.shape t = .basic k) : ∃ j, s.shape u = .basic j ∧ j.resolveAlias = k.resolveAlias := by
  rcases eq_or_of_identical h with rfl | ⟨-, hnamed, hparam⟩
  · exact ⟨k, hk, rfl⟩
  · cases ht : s.type t with
    | named m =>
      obtain ⟨n, hn, ho⟩ := hnamed m ht
      have hbeneath : (s.type u).beneath? = some m.underlying := by
        rw [hn, hs.named t u m n ht hn ho]
        rfl
      have heq := underlying_eq_of_beneath (by rw [ht]; rfl) hbeneath
      refine ⟨k, ?_, rfl⟩
      rw [shape, ← heq]
      exact hk
    | typeParam p =>
      rw [ht] at hparam
      cases hparam
    | basic i =>
      obtain ⟨j, hj, halias⟩ := alias_of_identical h ht
      have hti : s.shape t = .basic i := by rw [shape_of_beneath_none (by rw [ht]; rfl), ht]
      have huj : s.shape u = .basic j := by rw [shape_of_beneath_none (by rw [hj]; rfl), hj]
      cases hti.symm.trans hk
      exact ⟨j, huj, halias⟩
    | _ =>
      rw [shape_of_beneath_none (by rw [ht]; rfl), ht] at hk
      cases hk

section

variable {assign : Operand → TypeId → Probe Verdict} {j : BasicKind} (hk : s.shape t = .basic k)
  (hj : s.shape target = .basic j)
include hk hj

omit hk in
lemma asksForMethods_eq_false : s.asksForMethods target = false := by
  have hpointer : s.isInterfacePointer (s.underlying target) = false := by
    rw [isInterfacePointer, show s.type (s.underlying target) = .basic j from hj]
    rfl
  simp [asksForMethods, isPlainInterface_eq_false_of_shape hj, hpointer]

lemma assignOther_ne_ok : ((s.assignOther assign x t target).run l).1 ≠ .ok () := by
  have hchannel : s.assignChannel? t target = none := by simp [assignChannel?, hk]
  simp [assignOther, isPlainInterface_eq_false_of_shape hk, hchannel, assignTerms,
    isNamed_of_shape hk, isNamed_of_shape hj]

/-- Values of basic types are assignable to one another only if the basic types agree. -/
lemma alias_of_assignTyped (h : ((s.assignTyped assign x t target).run l).1 = .ok ()) :
    j.resolveAlias = k.resolveAlias := by
  unfold assignTyped at h
  split at h
  · rename_i hcond
    simp only [Bool.and_eq_true] at hcond
    obtain ⟨i, hi, halias⟩ := alias_of_identical hcond.1.1.1 hk
    cases hj.symm.trans hi
    exact halias
  · rw [asksForMethods_eq_false hj] at h
    exact absurd h (assignOther_ne_ok hk hj)

end

namespace Arranged

variable (hs : s.Arranged)
include hs

/-- A typed constant that may be assigned to a type that has constants is held by it. -/
lemma holds_of_assign (hx : x.type = some t) (hvalid : x.isInvalid = false)
    (ht : s.isUntyped t = false) (hv : s.Holds t v) (htarget : s.isConstType target)
    (h : ((s.assign x target).run l).1 = .ok ()) : s.Holds target v := by
  rcases hv with hv | hu | ⟨k, hk, hfits⟩
  · exact .inl hv
  · rw [ht] at hu
    cases hu
  · obtain ⟨j, hj, hconst⟩ := exists_shape_of_isConstType htarget
    have halias : j.resolveAlias = k.resolveAlias := by
      replace h : ((s.assignStep (s.assignWithin (2 * s.types.size + 1)) x target).run l).1 = .ok () := h
      rw [assignStep, hx] at h
      simp only [hvalid, hs.isUntyped_underlying ht] at h
      split at h
      · rename_i hcond
        have hident : s.identical t target := by
          rcases (by simpa using hcond : target = .invalid ∨ s.identical t target) with
            rfl | hident
          · rw [TypeId.invalid, hs.shape_basic] at hj
            cases hj
            cases hconst
          · exact hident
        obtain ⟨i, hi, halias⟩ := hs.shape_of_identical hident hk
        cases hj.symm.trans hi
        exact halias
      · exact alias_of_assignTyped hk hj h
    refine .inr (.inr ⟨j, hj, ?_⟩)
    rw [← Constant.fits_resolveAlias, halias, Constant.fits_resolveAlias]
    exact hfits

end Arranged

lemma Step.type_cases (h : s.Step s') (t : TypeId) :
    s'.type t = s.type t ∨ s.types.size ≤ t.index ∧ (s'.type t).isNamed = false := by
  cases h with
  | newType ty hty =>
    rw [type_newType]
    split
    · rename_i ht
      exact .inr ⟨ht.ge, Ty.isNamed_of_isComposed hty⟩
    · exact .inl rfl
  | newScope | bind => exact .inl (by simp [type])
  | _ => exact .inl rfl

lemma Step.isUntyped_eq (h : s.Step s') (t : TypeId) : s'.isUntyped t = s.isUntyped t := by
  unfold isUntyped
  rcases h.type_cases t with ht | ⟨hle, hnamed⟩
  · rw [ht]
  · rw [type_of_size_le hle]
    cases ht : s'.type t with
    | basic k =>
      rw [ht] at hnamed
      cases hnamed
    | _ => rfl

lemma Arranged.step (hs : s.Arranged) (h : s.Step s') : s'.Arranged where
  basic k := by
    have hlast : (TypeId.basic .rune).index < s.types.size :=
      lt_size_of_type_ne (by rw [hs.basic]; simp)
    have hle : (TypeId.basic k).index ≤ (TypeId.basic .rune).index := by cases k <;> decide
    rw [h.type_eq (hle.trans_lt hlast), hs.basic]
  named t u m n ht hu ho := by
    rcases h.type_cases t with ht' | ⟨-, hnamed⟩
    · rcases h.type_cases u with hu' | ⟨-, hnamed⟩
      · exact hs.named t u m n (ht' ▸ ht) (hu' ▸ hu) ho
      · rw [hu] at hnamed
        cases hnamed
    · rw [ht] at hnamed
      cases hnamed
  beneath t u hu := by
    rw [h.isUntyped_eq]
    rcases h.type_cases t with ht | ⟨-, hnamed⟩
    · exact hs.beneath t u (ht ▸ hu)
    · cases ht : s'.type t <;> simp_all [Ty.beneath?, Ty.isNamed]

lemma orderly_of_forall_lt (hbasic : ∀ k, s.type (.basic k) = .basic k)
    (hnamed : ∀ i < s.types.size, ∀ j < s.types.size, ∀ m ∈ (s.type ⟨i⟩).named?,
      ∀ n ∈ (s.type ⟨j⟩).named?, m.object = n.object → m.underlying = n.underlying)
    (hbeneath : ∀ i < s.types.size, ∀ u ∈ (s.type ⟨i⟩).beneath?, s.isUntyped u = false)
    (hconst : ∀ i < s.objects.size, ∀ v ∈ (s.object ⟨i⟩).value?,
      v.isRegular ∧ (s.object ⟨i⟩).type.any s.isUntyped) : s.Orderly where
  basic := hbasic
  named t u m n ht hu ho := by
    have hlt := lt_size_of_type_ne (by rw [ht]; simp)
    have hlu := lt_size_of_type_ne (by rw [hu]; simp)
    exact hnamed t.index hlt u.index hlu m (by rw [ht]; rfl) n (by rw [hu]; rfl) ho
  beneath t u hu := hbeneath t.index (lt_size_of_beneath hu) u hu
  const o v hv _ := by
    have hlt := index_lt_of_object (P := (·.value? = some v)) (by simp [Object.value?]) hv
    obtain ⟨hregular, huntyped⟩ := hconst o.index hlt v hv
    obtain ⟨t, ht, hu⟩ := (Option.any_eq_true _ _).mp huntyped
    exact ⟨hregular, t, ht, .inr (.inl hu)⟩

lemma initial_orderly : initial.Orderly := by
  refine orderly_of_forall_lt initial_basic ?_ ?_ ?_
  all_goals decide +kernel

end Store

namespace Checker

variable {c d : Checker}

lemma Steps.extends (h : c.Steps d) : c.store.Extends d.store where
  size := h.types_size_le
  basic t ht := by rw [h.type_eq ht]
  beneath t ht := by rw [h.type_eq ht]

lemma Steps.isUntyped_eq (h : c.Steps d) (t : TypeId) : d.store.isUntyped t = c.store.isUntyped t :=
  h.keepStore (fun hs ht => (hs.isUntyped_eq t).trans ht) rfl

lemma Steps.arranged (h : c.Steps d) (hc : c.store.Arranged) : d.store.Arranged :=
  h.keepStore (fun hs ha => ha.step hs) hc

end Checker

end GoCheck
