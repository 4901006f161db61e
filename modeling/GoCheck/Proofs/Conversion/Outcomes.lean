import GoCheck.Conversion.Explicit
import Mathlib.Logic.Basic

/-!
# Outcomes of conversions

What an implicit conversion can give, said once for all its callers, and what kinds of faults the
questions about values and types are refused with.
-/

namespace GoCheck

def Fault.isCount : Fault → Bool
  | .wrongAssignCount | .wrongResultCount | .wrongArgCount => true
  | _ => false

/-- A problem that a value meets: an error, but not of declarations, names, counts or type
arguments. -/
structure Fault.OfValue (k : Fault) : Prop where
  isError : k.isWarning = false
  notRedeclaration : k != .duplicateDecl
  notUndeclared : k != .undeclaredName
  notCount : k.isCount = false
  notGeneric : k != .wrongTypeArgCount

namespace Store

variable {s : Store} {x : Operand} {t : TypeId} {k : Fault}
variable {i : Implicit}

/-- The outcomes of an implicit conversion of an operand to a type. -/
inductive Implicitly (s : Store) (x : Operand) (target : TypeId) : Implicit → Prop where
  /-- Typed operands stay as they are, and so do all where the target is invalid. -/
  | same : (∀ old, x.type = some old → x.isInvalid = true ∨ s.isUntyped old = false ∨
      s.isInvalid target = true) → Implicitly s x target ⟨x.type, none⟩
  /-- Between untyped types the larger one is taken on. -/
  | untyped {old m : TypeId} : x.isInvalid = false → x.type = some old → s.isUntyped old = true →
      s.isUntyped target = true → (m = old ∨ m = target) → Implicitly s x target ⟨some m, none⟩
  /-- A constant that the basic type beneath the target holds. -/
  | constant {old : TypeId} {v w : Constant} {k : BasicKind} : x.isInvalid = false →
      x.type = some old → s.isUntyped old = true → s.isInvalid target = false →
      s.isUntyped target = false → x.mode = .constant v → s.shape target = .basic k →
      v.heldBy? k = some w → Implicitly s x target ⟨some target, some w⟩
  /-- Other values, and `nil`, take on the target. -/
  | value {old : TypeId} : x.isInvalid = false → x.type = some old → s.isUntyped old = true →
      s.isInvalid target = false →
      (x.mode.isConstant = true → s.isTypeParam target = true ∧ s.isInterface target = true) →
      Implicitly s x target ⟨some target, none⟩
  /-- In an empty interface a value takes on its default type. -/
  | default {old : TypeId} : x.isInvalid = false → x.type = some old → s.isUntyped old = true →
      s.isPlainInterface target = true →
      Implicitly s x target ⟨some (s.defaultType old), none⟩

lemma eq_or_eq_of_largerUntyped? (h : s.largerUntyped? old target = some m) :
    m = old ∨ m = target := by
  unfold largerUntyped? at h
  split at h
  · exact .inl (Option.some.inj h).symm
  · split at h
    · split at h
      · have hm := (Option.some.inj h).symm
        split at hm
        · exact .inl hm
        · exact .inr hm
      · cases h
    · cases h

lemma represented_ok (h : s.represented x t = .ok w) :
    ∃ v k, x.mode = .constant v ∧ s.type t = .basic k ∧ v.heldBy? k = some w := by
  unfold represented at h
  cases hm : x.mode with
  | constant v =>
    cases ht : s.type t with
    | basic k =>
      cases hv : v.heldBy? k with
      | some w' =>
        obtain rfl : w' = w := by simpa [hm, ht, hv, Mode.constant?, Ty.basic?] using h
        exact ⟨v, k, rfl, rfl, hv⟩
      | none => simp [hm, ht, hv, Mode.constant?, Ty.basic?] at h
    | _ => simp [ht, Ty.basic?] at h
  | _ => simp [hm, Mode.constant?] at h

/-- An implicit conversion of an untyped operand to a type with a basic type beneath it. -/
lemma implicitly_of_implicitBasic (hvalid : x.isInvalid = false) (hx : x.type = some old)
    (hold : s.isUntyped old) (hi : s.isInvalid target = false)
    (hu : s.isUntyped target = false) (h : s.implicitBasic x old target = .ok i) :
    s.Implicitly x target i := by
  unfold implicitBasic at h
  split at h
  · cases hr : s.represented x (s.underlying target) with
    | error k =>
      rw [hr] at h
      cases h
    | ok w =>
      rw [hr] at h
      cases h
      obtain ⟨v, k, hm, hk, hw⟩ := represented_ok hr
      exact .constant hvalid hx hold hi hu hm hk hw
  · rename_i hconst
    split at h
    · cases h
      exact .value hvalid hx hold hi fun hc => absurd hc hconst
    · cases h

lemma isPlainInterface_of_shape (hshape : s.shape t = .interface it)
    (hp : s.isTypeParam t = false) : s.isPlainInterface t := by
  simp [isPlainInterface, isInterface, hshape, hp, Ty.interface?]

lemma isConstant_eq_false_of_isNil (h : x.isNil s) : x.mode.isConstant = false := by
  have hm : x.mode = .nilValue := by
    unfold Operand.isNil at h
    simp only [Bool.and_eq_true, decide_eq_true_eq] at h
    exact h.1
  rw [hm]
  rfl

lemma implicitly_of_implicitWith (h : s.implicitWith admits x target = .ok i) :
    s.Implicitly x target i := by
  unfold implicitWith at h
  cases hx : x.type with
  | none =>
    rw [hx] at h
    cases h
    have hsame : s.Implicitly x target ⟨x.type, none⟩ := .same (by simp [hx])
    rwa [hx] at hsame
  | some old =>
    simp only [hx] at h
    -- what is invalid or typed stays as it is; the rest goes by the target
    split at h
    · rename_i hcond
      cases h
      have hsame : s.Implicitly x target ⟨x.type, none⟩ := by
        refine .same fun old' hold => ?_
        cases hx.symm.trans hold
        simpa [or_assoc] using hcond
      rwa [hx] at hsame
    · rename_i hcond
      obtain ⟨⟨hvalid, hold⟩, hinv⟩ : (x.isInvalid = false ∧ s.isUntyped old) ∧
          s.isInvalid target = false := by simpa using hcond
      split at h
      · rename_i htarget
        split at h
        · rename_i m hm
          cases h
          exact .untyped hvalid hx hold htarget (eq_or_eq_of_largerUntyped? hm)
        · cases h
      · rename_i htarget
        split at h
        · rename_i hnil
          split at h
          · cases h
            -- `nil` is no constant, so no value has to fit
            refine .value hvalid hx hold hinv fun hc => ?_
            rw [isConstant_eq_false_of_isNil hnil] at hc
            cases hc
          · cases h
        · split at h
          · exact implicitly_of_implicitBasic hvalid hx hold hinv (by simpa using htarget) h
          · rename_i it hshape
            split at h
            · rename_i hp
              split at h
              · cases h
                refine .value hvalid hx hold hinv fun _ => ⟨hp, ?_⟩
                simp [isInterface, hshape, Ty.interface?]
              · cases h
            · rename_i hp
              split at h
              · cases h
                exact .default hvalid hx hold (isPlainInterface_of_shape hshape (by simpa using hp))
              · cases h
          · cases h

lemma isSome_type_of_implicitWith (hold : x.type = some old)
    (h : s.implicitWith admits x target = .ok i) : i.type.isSome := by
  cases implicitly_of_implicitWith h with
  | same => rw [hold]; rfl
  | _ => rfl

lemma implicitly_of_implicit (h : s.implicit x target = .ok i) : s.Implicitly x target i :=
  implicitly_of_implicitWith h

lemma misfit_ofValue (s : Store) (old new : TypeId) : (s.misfit old new).OfValue := by
  unfold misfit
  split
  · split <;> exact ⟨rfl, rfl, rfl, rfl, rfl⟩
  · exact ⟨rfl, rfl, rfl, rfl, rfl⟩

lemma represented_error (h : s.represented x t = .error k) : k.OfValue := by
  unfold represented at h
  split at h
  · split at h
    · cases h
    · cases h
      exact s.misfit_ofValue _ _
  · cases h
    exact ⟨rfl, rfl, rfl, rfl, rfl⟩

lemma implicitBasic_error (h : s.implicitBasic x old target = .error k) : k.OfValue := by
  unfold implicitBasic at h
  split at h
  · cases hr : s.represented x (s.underlying target) with
    | ok v =>
      rw [hr] at h
      cases h
    | error k' =>
      rw [hr] at h
      cases h
      exact represented_error hr
  · split at h
    · cases h
    · cases h
      exact ⟨rfl, rfl, rfl, rfl, rfl⟩

lemma implicit_error (h : s.implicit x target = .error k) : k.OfValue := by
  unfold implicit implicitWith at h
  repeat' split at h
  all_goals first
    | exact implicitBasic_error h
    | (cases h; exact ⟨rfl, rfl, rfl, rfl, rfl⟩)
    | cases h

/-- All refusals of a question are errors. -/
def RefusesByError (m : Probe Verdict) : Prop :=
  ∀ l r, (m.run l).1 = .error r → r.fault.OfValue

lemma RefusesByError.ok : RefusesByError (pure (.ok ())) := by
  intro l r h
  cases h

lemma RefusesByError.error (hr : r.fault.OfValue) : RefusesByError (pure (.error r)) := by
  intro l r' h
  cases h
  exact hr

lemma RefusesByError.mismatch : RefusesByError (pure (.error ⟨.incompatibleAssign, cause⟩)) :=
  .error ⟨rfl, rfl, rfl, rfl, rfl⟩

lemma RefusesByError.bind {m : Probe α} {f : α → Probe Verdict}
    (h : ∀ l, RefusesByError (f (m.run l).1)) : RefusesByError (m >>= f) :=
  fun l r hr => h l (m.run l).2 r hr

lemma RefusesByError.mapError {m : Probe Verdict} (h : RefusesByError m) (attempt : String) :
    RefusesByError (do return (← m).mapError (·.within attempt)) := by
  refine .bind fun l => ?_
  cases hm : (m.run l).1 with
  | ok u => exact .ok
  | error r => exact .error (h l r hm)

lemma RefusesByError.probeAll {ask : TypeId → Probe Verdict} (h : ∀ t, RefusesByError (ask t))
    (ts : List TypeId) : RefusesByError (probeAll ask ts) := by
  induction ts with
  | nil => exact .ok
  | cons t ts ih =>
    refine .bind fun l => ?_
    cases hm : ((ask t).run l).1 with
    | ok u => exact ih
    | error r => exact .error (h t l r hm)

section Assign

variable {assign : Operand → TypeId → Probe Verdict} (ih : ∀ x t, RefusesByError (assign x t))
include ih

lemma RefusesByError.assignTerms (x : Operand) (v t : TypeId) :
    RefusesByError (s.assignTerms assign x v t) := by
  unfold Store.assignTerms
  split
  · split
    · exact .mismatch
    · exact .probeAll (fun term => (ih x term).mapError _) _
  · split
    · split
      · exact .mismatch
      · exact .probeAll (fun term => (ih _ t).mapError _) _
    · exact .mismatch

lemma RefusesByError.assignOther (x : Operand) (v t : TypeId) :
    RefusesByError (s.assignOther assign x v t) := by
  have hrest : RefusesByError (s.assignTerms assign x v t) := .assignTerms ih x v t
  have hchannel : ∀ verdict, s.assignChannel? v t = some verdict →
      RefusesByError (pure verdict) := by
    intro verdict hv
    unfold assignChannel? at hv
    split at hv
    · split at hv
      · cases hv
        split
        · exact .ok
        · exact .error ⟨rfl, rfl, rfl, rfl, rfl⟩
      · cases hv
    · cases hv
  unfold Store.assignOther
  dsimp only
  cases hch : s.assignChannel? v t with
  | none =>
    split
    · refine .bind fun l => ?_
      split
      · exact .mismatch
      · exact hrest
    · exact hrest
  | some verdict =>
    split
    · refine .bind fun l => ?_
      split
      · exact .mismatch
      · exact hchannel verdict hch
    · exact hchannel verdict hch

lemma RefusesByError.assignTyped (x : Operand) (v t : TypeId) :
    RefusesByError (s.assignTyped assign x v t) := by
  unfold Store.assignTyped
  split
  · exact .ok
  · split
    · refine .bind fun l => ?_
      cases ((s.probeUnsatisfied v t).run l).1 with
      | none => exact .ok
      | some reason =>
        dsimp only
        split
        · exact .error ⟨rfl, rfl, rfl, rfl, rfl⟩
        · exact .assignOther ih x v t
    · exact .assignOther ih x v t

lemma RefusesByError.assignStep (x : Operand) (t : TypeId) :
    RefusesByError (s.assignStep assign x t) := by
  unfold Store.assignStep
  cases x.type with
  | none => exact .ok
  | some v =>
    dsimp only
    split
    · exact .ok
    · split
      · unfold assignUntyped
        dsimp only
        split
        · split
          · exact .ok
          · exact .mismatch
        · split
          · exact .ok
          · exact .mismatch
      · exact .assignTyped ih x v t

end Assign

lemma refusesByError_assign (s : Store) (x : Operand) (t : TypeId) :
    RefusesByError (s.assign x t) := by
  have hwithin : ∀ n x t, RefusesByError (s.assignWithin n x t) := by
    intro n
    induction n with
    | zero => exact fun _ _ => .mismatch
    | succ n ih => exact fun x t => .assignStep ih x t
  exact hwithin _ x t

end Store

end GoCheck
