import GoCheck.Proofs.Counts
import GoCheck.Proofs.Constants.Store
import GoCheck.Proofs.Construction

/-!
# The outcome of an assignment

A value is taken, or refused with one error and invalid from then on. A generic function without
type arguments is reported but stays valid. An untyped value that is taken has got the type of its
place, or its default type.
-/

namespace GoCheck

open Operand Checker

variable {c d : Checker} {x y : Operand} {t : TypeId} {p : Problem} {i : Implicit}

/-- A report that refuses a value: an error, but not that a generic function lacks type arguments. -/
def Diagnostic.refuses (d : Diagnostic) : Bool := d.isError && !d.isOf .wrongTypeArgCount

lemma Problem.refuses_report (span : Span) (herror : p.fault.isWarning = false)
    (hgeneric : p.fault != .wrongTypeArgCount) : (p.report span).refuses := by
  have herror' : (p.report span).isError := Pass.isError_report herror
  have hgeneric' : (p.report span).isOf .wrongTypeArgCount = false := by
    simpa [isOf_report] using hgeneric
  simp [Diagnostic.refuses, herror', hgeneric']

/-- The same entities, in the same place of the program, with the same bodies waiting. -/
structure Checker.Still (c d : Checker) : Prop where
  store : d.store = c.store
  context : d.context = c.context
  deferred : d.deferred = c.deferred

lemma Checker.Still.refl (c : Checker) : c.Still c := ⟨rfl, rfl, rfl⟩

lemma Checker.Still.trans (h : c.Still d) (h' : d.Still e) : c.Still e :=
  ⟨h'.store.trans h.store, h'.context.trans h.context, h'.deferred.trans h.deferred⟩

namespace Pass

variable {m : Pass Operand}
variable {context : String} {k : Nat} {P : Operand → Prop}

/-- A pass that reports nothing and stays where it is. -/
structure Silent (m : Pass α) (c : Checker) : Prop where
  still : c.Still (m.1 c).2
  sink : (m.1 c).2.sink = c.sink

/-- A pass that takes a value, with `P`, or refuses it with one error. It reports `n` generic
functions at most. -/
structure Judges (m : Pass Operand) (c : Checker) (n : Nat) (P : Operand → Prop) : Prop where
  still : c.Still (m.1 c).2
  refused : (m.emitted c).countP (·.refuses) = (m.1 c).1.isInvalid.toNat
  generic : (m.emitted c).countP (·.isOf .wrongTypeArgCount) ≤ n
  taken : (m.1 c).1.isInvalid = false → P (m.1 c).1

lemma Silent.bind {m : Pass α} (hm : m.Silent c)
    (hf : ∀ a d, c.Still d → (m.1 c).1 = a → (f a).Judges d n P) : (m >>= f).Judges c n P := by
  have hnext := hf _ _ hm.still rfl
  have hemitted : (m >>= f).emitted c = (f (m.1 c).1).emitted (m.1 c).2 := by
    rw [emitted_bind, emitted_eq_nil hm.sink, List.nil_append]
  exact ⟨hm.still.trans hnext.still, hemitted ▸ hnext.refused, hemitted ▸ hnext.generic, hnext.taken⟩

lemma Judges.mono (hm : m.Judges c n P) (h : ∀ y, P y → Q y) : m.Judges c n Q :=
  ⟨hm.still, hm.refused, hm.generic, fun hy => h _ (hm.taken hy)⟩

/-- A value that is taken may be judged again; one that is refused is left alone. -/
lemma Judges.bind {f : Operand → Pass Operand} (hm : m.Judges c 0 P)
    (hf : ∀ y d, c.Still d → y.isInvalid = false → P y → (f y).Judges d n Q)
    (hinvalid : ∀ y d, y.isInvalid → (f y).1 d = (y, d)) : (m >>= f).Judges c n Q := by
  have hgeneric := Nat.le_zero.mp hm.generic
  cases hy : (m.1 c).1.isInvalid with
  | false =>
    have hnext := hf _ _ hm.still hy (hm.taken hy)
    refine ⟨hm.still.trans hnext.still, ?_, ?_, hnext.taken⟩
    · rw [emitted_bind, List.countP_append, hm.refused, hnext.refused, hy, Bool.toNat_false,
        zero_add]
      rfl
    · rw [emitted_bind, List.countP_append, hgeneric, zero_add]
      exact hnext.generic
  | true =>
    have hend : (m >>= f).1 c = m.1 c := hinvalid _ _ hy
    have hemitted : (m >>= f).emitted c = m.emitted c := by rw [emitted, emitted, hend]
    refine ⟨hend ▸ hm.still, ?_, ?_, fun hvalid => ?_⟩
    · rw [hemitted, hend, hm.refused]
    · rw [hemitted, hgeneric]
      exact Nat.zero_le n
    · rw [hend, hy] at hvalid
      cases hvalid

lemma judges_pure (hx : x.isInvalid = false) (hP : P x) : (pure x : Pass Operand).Judges c 0 P := by
  have hnone : (pure x : Pass Operand).emitted c = [] := emitted_eq_nil rfl
  refine ⟨.refl c, ?_, by simp [hnone], fun _ => hP⟩
  rw [hnone]
  exact (congrArg Bool.toNat hx).symm

variable {span : Span}

/-- A value is refused with an error. -/
lemma judges_refuse (herror : p.fault.isWarning = false)
    (hgeneric : p.fault != .wrongTypeArgCount) :
    (do report p span; return x.invalidated).Judges c 0 P := by
  have hone : (do report p span; return x.invalidated : Pass Operand).emitted c = [p.report span] := by
    rw [emitted_bind, show (report p span).emitted c = _ from emitted_emit, emitted_eq_nil rfl]
    rfl
  refine ⟨⟨rfl, rfl, rfl⟩, ?_, ?_, fun h => ?_⟩
  · rw [hone]
    simp [Problem.refuses_report span herror hgeneric]
    rfl
  · rw [hone]
    simpa [Problem.isOf_report] using hgeneric
  · cases h

@[simp]
lemma judges_entities_bind : (entities >>= f).Judges c n P ↔ (f c.store).Judges c n P :=
  ⟨fun h => ⟨h.1, h.2, h.3, h.4⟩, fun h => ⟨h.1, h.2, h.3, h.4⟩⟩

lemma silent_logEvent {e : Event} : (logEvent e).Silent c := ⟨⟨rfl, rfl, rfl⟩, rfl⟩

lemma silent_onRecords {f : Records → Records} : (onRecords f).Silent c := ⟨⟨rfl, rfl, rfl⟩, rfl⟩

lemma exists_log_of_forM (l : List α) (f : α → Event) (c : Checker) :
    ∃ log, ((l.forM fun a => logEvent (f a)).1 c).2 = { c with log } := by
  induction l generalizing c with
  | nil => exact ⟨c.log, rfl⟩
  | cons a l ih => exact ih { c with log := c.log.push (f a) }

lemma silent_probe {ask : Store → Probe α} : (probe ask).Silent c := by
  obtain ⟨log, hlog⟩ := exists_log_of_forM ((ask c.store).run []).2 .missingMethod c
  have hstate : ((probe ask).1 c).2 = { c with log } := hlog
  exact ⟨hstate ▸ ⟨rfl, rfl, rfl⟩, by rw [hstate]⟩

lemma judges_singleValue (hx : x.isInvalid = false) :
    (singleValue x).Judges c 0 fun y => y = x := by
  simp only [singleValue, judges_entities_bind]
  split
  · exact judges_refuse rfl rfl
  · exact judges_pure hx rfl

lemma judges_applyImplicit (hx : x.isInvalid = false) :
    (applyImplicit x i).Judges c 0 fun y => y.type = i.type := by
  simp only [applyImplicit, judges_entities_bind]
  refine silent_onRecords.bind fun _ d _ _ => judges_pure ?_ rfl
  cases hv : i.value with
  | none => exact hx
  | some v => rfl

/-- An untyped operand takes on the type that its place asks for, or is refused. -/
lemma judges_assignUntyped (hx : x.isInvalid = false) :
    (assignUntyped x old ot context).Judges c 0 fun y => ∃ i,
      c.store.implicit x (untypedTarget c.store x old ot) = .ok i ∧ y.type = i.type ∧
        (ot = none → x.isNil c.store = false) := by
  simp only [assignUntyped, judges_entities_bind]
  split
  · exact judges_refuse rfl rfl
  · rename_i hnil
    cases himplicit : c.store.implicit x (untypedTarget c.store x old ot) with
    | ok i =>
      refine silent_logEvent.bind fun _ d _ _ => (judges_applyImplicit hx).mono fun y hy => ?_
      exact ⟨i, rfl, hy, fun hnone => by simpa [hnone] using hnil⟩
    | error k =>
      refine judges_refuse ?_ ?_
      · cases k <;> rfl
      · cases k <;> rfl

lemma judges_assignTyped (hx : x.isInvalid = false) :
    (assignTyped x t context).Judges c 0 fun y => y = x := by
  refine silent_probe.bind fun verdict d _ hverdict => ?_
  cases verdict with
  | ok _ => exact judges_pure hx rfl
  | error r =>
    have hfault := Store.refusesByError_assign c.store x t [] r hverdict
    simp only [judges_entities_bind]
    exact judges_refuse hfault.isError hfault.notGeneric

/-- A report about type arguments is an error, but none that refuses a value. -/
lemma Judges.after_report (hp : p.fault = .wrongTypeArgCount)
    (hm : ∀ d, c.Still d → m.Judges d 0 P) : (do report p span; m).Judges c 1 P := by
  have hgeneric : (p.report span).isOf .wrongTypeArgCount := by
    rw [Problem.isOf_report, hp]
    rfl
  have hnext := hm ((report p span).1 c).2 ⟨rfl, rfl, rfl⟩
  have hemitted : (do report p span; m).emitted c =
      p.report span :: m.emitted ((report p span).1 c).2 := by
    rw [emitted_bind, show (report p span).emitted c = _ from emitted_emit]
    rfl
  refine ⟨⟨hnext.still.store, hnext.still.context, hnext.still.deferred⟩, ?_, ?_, hnext.taken⟩
  · rw [hemitted, List.countP_cons_of_neg (by simp [Diagnostic.refuses, hgeneric]), hnext.refused]
    rfl
  · rw [hemitted, List.countP_cons_of_pos (p := fun d : Diagnostic => d.isOf .wrongTypeArgCount) hgeneric]
    exact Nat.succ_le_succ hnext.generic

lemma Judges.after_reportGeneric (hm : ∀ d, c.Still d → m.Judges d 0 P) :
    (do reportGeneric x context; m).Judges c 1 P := by
  simp only [reportGeneric, bind_assoc, judges_entities_bind]
  split
  · exact .after_report rfl hm
  · have hnext := hm c (.refl c)
    exact ⟨hnext.still, hnext.refused, Nat.le_succ_of_le hnext.generic, hnext.taken⟩

lemma judges_assignConverted (hx : x.isInvalid = false) :
    (assignConverted x ot context).Judges c 1 fun y => y = x := by
  cases ot with
  | none =>
    simp only [assignConverted, hx, Bool.false_eq_true, if_false]
    exact .after_reportGeneric fun d _ => judges_pure hx rfl
  | some t =>
    simp only [assignConverted, hx, Bool.false_eq_true, if_false]
    exact .after_reportGeneric fun d _ => judges_assignTyped hx

lemma assignConverted_invalid (hx : x.isInvalid) : (assignConverted x ot context).1 c = (x, c) := by
  simp only [assignConverted, hx, if_true]
  rfl

/-- A value that is taken, if it was untyped, has got the type of an implicit conversion. -/
def TakesOn (s : Store) (x : Operand) (ot : Option TypeId) (y : Operand) : Prop :=
  ∀ old, x.type = some old → s.isUntyped old = true →
    ∃ i, s.implicit x (untypedTarget s x old ot) = .ok i ∧ y.type = i.type ∧
      (ot = none → x.isNil s = false)

lemma judges_assignValue (hx : x.isInvalid = false) :
    (assignValue x ot context).Judges c 1 (TakesOn c.store x ot) := by
  simp only [assignValue, judges_entities_bind]
  cases hfilter : x.type.filter c.store.isUntyped with
  | some old =>
    obtain ⟨hold, -⟩ := Option.filter_eq_some_iff.mp hfilter
    refine (judges_assignUntyped hx).bind (fun y d _ hy hP => ?_) fun y d hy => assignConverted_invalid hy
    refine (judges_assignConverted hy).mono fun z hz old' hold' _ => ?_
    cases hold.symm.trans hold'
    exact hz ▸ hP
  | none =>
    refine (judges_assignConverted hx).mono fun y _ old hold huntyped => ?_
    simp [hold, huntyped] at hfilter

/-- An assignment judges a value as it is judged once it is known to be single. -/
lemma Judges.assignment (hx : x.isInvalid = false) (hpresentable : x.Presentable)
    (hvalue : ∀ d, c.Still d → (assignValue x ot context).Judges d 1 P) :
    (assignment x ot context).Judges c 1 P := by
  refine (judges_singleValue hx).bind (fun y d hd hy heq => ?_) fun y d hy => ?_
  · subst heq
    cases hmode : y.mode with
    | invalid => simp [isInvalid, hmode] at hy
    | noValue => exact absurd hmode hpresentable.1
    | typeExpr => exact absurd hmode hpresentable.2
    | _ => exact hvalue d hd
  · have hmode : y.mode = .invalid := by simpa [isInvalid] using hy
    simp only [hmode]
    rfl

lemma judges_assignment (hx : x.isInvalid = false) (hpresentable : x.Presentable) :
    (assignment x ot context).Judges c 1 (TakesOn c.store x ot) :=
  .assignment hx hpresentable fun _ hd => hd.store ▸ judges_assignValue hx

lemma assignment_invalid (hx : x.isInvalid) : (assignment x ot context).1 c = (x, c) := by
  have hmode : x.mode = .invalid := by simpa [isInvalid] using hx
  have hsingle : singleValue x = entities >>= fun _ => pure x := by simp [singleValue, hmode]
  rw [assignment, hsingle, bind_assoc]
  simp only [pure_bind, hmode]
  rfl

end Pass

lemma BasicKind.default_of_untyped {k : BasicKind} (h : k.isUntyped)
    (hne : k ≠ .untypedNil) : k.default ≠ .invalid ∧ k.default.isUntyped = false := by
  revert h hne
  cases k <;> decide

namespace Store

variable {s s' : Store} {k : BasicKind}

/-- Basic types are where they are predeclared. -/
def HasBasics (s : Store) : Prop := ∀ k, s.type (.basic k) = .basic k

lemma HasBasics.construction (hs : s.HasBasics) (hclosed : s.Closed false)
    (h : s.Construction s') : s'.HasBasics := by
  intro k
  cases h with
  | newType _ => exact (type_newType_of_lt (hclosed.hasType_basic k)).trans (hs k)
  | newObject _ _ => exact hs k
  | newScope start stop comment isFunc _ | bind _ _ => simpa [Store.type] using hs k
  | addPackage _ => exact hs k
  | setObject _ _ _ _ => exact hs k
  | addMethod t _ =>
    rw [type_modifyType, hs k]
    split <;> rfl

lemma shape_of_basic (h : s.type t = .basic k) : s.shape t = .basic k := by
  rw [shape_of_beneath_none (by rw [h]; rfl), h]

/-- The default type of an untyped type is a typed basic type, or that of `nil`. -/
lemma defaultType_of_untyped (hs : s.HasBasics) (hold : s.isUntyped old) :
    ∃ j, s.type (s.defaultType old) = .basic j ∧ j ≠ .invalid ∧
      (j.isUntyped → s.defaultType old = old) := by
  obtain ⟨k, hk, huntyped⟩ := isUntyped_iff.mp hold
  unfold defaultType
  simp only [hk]
  split
  · rename_i hcond
    obtain ⟨hvalid, htyped⟩ := BasicKind.default_of_untyped huntyped (by simpa [huntyped] using hcond)
    exact ⟨k.default, hs k.default, hvalid, fun hj => by rw [htyped] at hj; cases hj⟩
  · refine ⟨k, hk, ?_, fun _ => rfl⟩
    rintro rfl
    cases huntyped

/-- `nil` takes on the type of its place, whatever it is. -/
lemma type_of_implicit_nil (hnil : x.isNil s) (hu : s.isUntyped u = false)
    (hinvalid : s.isInvalid u = false) (h : s.implicit x u = .ok i) : i.type = some u := by
  have hmode : x.mode = .nilValue := by
    simp only [Operand.isNil, Bool.and_eq_true, decide_eq_true_eq] at hnil
    exact hnil.1
  cases hold : x.type with
  | none => simp [Operand.isNil, hold] at hnil
  | some old =>
    have huntyped : s.isUntyped old := by
      have hkind : (s.type old).basic? = some .untypedNil := by simpa [Operand.isNil, hmode, hold] using hnil
      rw [isUntyped, hkind]
      rfl
    unfold implicit implicitWith at h
    simp only [hold, Operand.isInvalid, hmode, huntyped, hinvalid, hu, hnil] at h
    by_cases hhas : s.hasNil u
    · obtain rfl : (⟨some u, none⟩ : Implicit) = i := by simpa [hhas] using h
      rfl
    · simp [hhas] at h

lemma isInvalid_of_basic (h : s.type t = .basic k) (hk : k ≠ .invalid) : s.isInvalid t = false := by
  simp only [isInvalid, family?, shape_of_basic h, Ty.basic?, Option.map_some, decide_eq_false_iff_not,
    Option.some.injEq]
  revert hk
  cases k <;> decide

section

variable (hx : x.isInvalid = false) (hold : x.type = some old) (huntyped : s.isUntyped old)
include hx hold huntyped

/-- A value that is converted to a type other than an interface takes on this type. -/
lemma type_of_implicit (hu : s.isUntyped u = false) (hinvalid : s.isInvalid u = false)
    (hplace : x.isNil s ∨ s.isPlainInterface u = false) (h : s.implicit x u = .ok i) :
    i.type = some u := by
  by_cases hnil : x.isNil s
  · exact type_of_implicit_nil hnil hu hinvalid h
  · cases implicitly_of_implicit h with
    | same hsame =>
      rcases hsame old hold with h' | h' | h'
      · simp [hx] at h'
      · simp [huntyped] at h'
      · simp [hinvalid] at h'
    | untyped _ _ _ hu' _ => simp [hu] at hu'
    | constant => rfl
    | value => rfl
    | default _ _ _ hplain => simp [hnil, hplain] at hplace

/-- A value that is converted to its default type takes on this type. -/
lemma type_of_implicit_default (hs : s.HasBasics) (h : s.implicit x (s.defaultType old) = .ok i) :
    i.type = some (s.defaultType old) := by
  obtain ⟨j, hj, hvalid, hnil⟩ := defaultType_of_untyped hs huntyped
  cases implicitly_of_implicit h with
  | same hsame =>
    rcases hsame old hold with h' | h' | h'
    · simp [hx] at h'
    · simp [huntyped] at h'
    · simp [isInvalid_of_basic hj hvalid] at h'
  | @untyped old' m _ hold' _ hu hm =>
    -- Only `nil` has an untyped default type, which is its own.
    cases hold.symm.trans hold'
    have hself := hnil (by simpa [isUntyped, hj, Ty.basic?] using hu)
    rcases hm with rfl | rfl
    · rw [hself]
    · rfl
  | constant => rfl
  | value => rfl
  | default _ _ _ hplain => simp [isPlainInterface_eq_false_of_shape (shape_of_basic hj)] at hplain

end

end Store

lemma BuiltSession.hasBasics (h : BuiltSession c) (hd : c.SafeSteps false d) :
    d.store.HasBasics := by
  have hall : ∀ k ∈ BasicKind.all, (Checker.start {}).store.type (.basic k) = .basic k := by
    decide +kernel
  have hstart : (Checker.start {}).store.HasBasics := fun k => hall k (by cases k <;> decide)
  have hkeep : ∀ s s' : Store, s.Closed false → s.HasBasics → s.Construction s' → s'.HasBasics :=
    fun s s' hclosed hs hstep => hs.construction hclosed hstep
  exact hd.keep_store hkeep h.closed (h.keep hstart hkeep)

namespace Pass

/-- An untyped value that is taken has got the type of its place, or its default type. -/
lemma TakesOn.type_eq (h : TakesOn c.store x ot y) (hs : c.store.HasBasics)
    (hx : x.isInvalid = false) (hold : x.type = some old)
    (huntyped : c.store.isUntyped old)
    (hot : ∀ u ∈ ot, c.store.isUntyped u = false ∧ c.store.isInvalid u = false) :
    (∃ u ∈ ot, (x.isNil c.store ∨ c.store.isPlainInterface u = false) ∧ y.type = some u) ∨
    (x.isNil c.store = false ∧ (∀ u ∈ ot, c.store.isPlainInterface u) ∧
      y.type = some (c.store.defaultType old)) := by
  obtain ⟨i, himplicit, htype, hnil⟩ := h old hold huntyped
  cases ot with
  | none =>
    refine .inr ⟨hnil rfl, by simp, ?_⟩
    rw [htype]
    exact Store.type_of_implicit_default hx hold huntyped hs himplicit
  | some u =>
    obtain ⟨hu, hinvalid⟩ := hot u rfl
    by_cases hplace : x.isNil c.store ∨ c.store.isPlainInterface u = false
    · have htarget : untypedTarget c.store x old (some u) = u := by
        rcases hplace with h' | h' <;> simp [untypedTarget, h']
      rw [htarget] at himplicit
      refine .inl ⟨u, rfl, hplace, ?_⟩
      rw [htype]
      exact Store.type_of_implicit hx hold huntyped hu hinvalid hplace himplicit
    · obtain ⟨hvalue, hplain⟩ : x.isNil c.store = false ∧ c.store.isPlainInterface u := by
        simpa using hplace
      have htarget : untypedTarget c.store x old (some u) = c.store.defaultType old := by
        simp [untypedTarget, hvalue, hplain]
      rw [htarget] at himplicit
      refine .inr ⟨hvalue, by simpa using hplain, ?_⟩
      rw [htype]
      exact Store.type_of_implicit_default hx hold huntyped hs himplicit

/-- In every state, an operand with a value is taken by an assignment, or refused by one error and
invalid. A report about type arguments, at most one, makes nothing invalid. With the basic types in
their places, an untyped operand that is taken has got the type of its place, or its default type if
it is not `nil` and its place is an interface or has no type. Entities and the place in the program
stay as they are. Nothing is done about an operand that was invalid before. -/
theorem assignment_outcome (c : Checker) (x : Operand) (ot : Option TypeId) (context : String) :
    (x.isInvalid = true → (assignment x ot context).1 c = (x, c)) ∧
    (x.mode.isValue = true →
      ((assignment x ot context).emitted c).countP (·.refuses) ≤ 1 ∧
      (((assignment x ot context).1 c).1.isInvalid = true ↔
        ∃ d ∈ (assignment x ot context).emitted c, d.refuses = true) ∧
      ((assignment x ot context).emitted c).countP (·.isOf .wrongTypeArgCount) ≤ 1 ∧
      (c.store.HasBasics → ((assignment x ot context).1 c).1.isInvalid = false →
        ∀ old, x.type = some old → c.store.isUntyped old = true →
        (∀ u ∈ ot, c.store.isUntyped u = false ∧ c.store.isInvalid u = false) →
        (∃ u ∈ ot, (x.isNil c.store = true ∨ c.store.isPlainInterface u = false) ∧
          ((assignment x ot context).1 c).1.type = some u) ∨
        (x.isNil c.store = false ∧ (∀ u ∈ ot, c.store.isPlainInterface u = true) ∧
          ((assignment x ot context).1 c).1.type = some (c.store.defaultType old))) ∧
      ((assignment x ot context).1 c).2.store = c.store ∧
      ((assignment x ot context).1 c).2.context = c.context) := by
  refine ⟨assignment_invalid, fun hvalue => ?_⟩
  have hx : x.isInvalid = false := by cases h : x.mode <;> simp_all [Mode.isValue, isInvalid]
  have hjudges : (assignment x ot context).Judges c 1 (TakesOn c.store x ot) :=
    judges_assignment hx ⟨by rintro h; simp [h, Mode.isValue] at hvalue,
      by rintro h; simp [h, Mode.isValue] at hvalue⟩
  refine ⟨?_, ?_, hjudges.generic, ?_, hjudges.still.store, hjudges.still.context⟩
  · rw [hjudges.refused]
    exact Bool.toNat_le _
  · rw [← List.countP_pos_iff, hjudges.refused]
    cases ((assignment x ot context).1 c).1.isInvalid <;> simp
  · intro hs hvalid old hold huntyped hot
    exact (hjudges.taken hvalid).type_eq hs hx hold huntyped hot

/-- A place of the type `any`, after a number has been assigned to it. -/
theorem assignment_outcome_any :
    BuiltSession (start {}) ∧
    (start {}).store.isPlainInterface .any = true ∧
    ((assignment { mode := .constant (.small 7), type := some (.basic .untypedInt) } (some .any)
      "assignment").1 (start {})).1.type = some (.basic .int) := by
  have hplain : (start {}).store.isPlainInterface .any = true := by decide +kernel
  have hplace : ∀ u ∈ some TypeId.any, (start {}).store.isUntyped u = false ∧
      (start {}).store.isInvalid u = false := by
    decide +kernel
  have hint : (start {}).store.defaultType (.basic .untypedInt) = .basic .int := by decide +kernel
  have houtcome := (assignment_outcome (start {})
    { mode := .constant (.small 7), type := some (.basic .untypedInt) } (some .any) "assignment").2 rfl
  obtain ⟨-, -, -, htype, -⟩ := houtcome
  rcases htype ((BuiltSession.start {}).hasBasics (.refl _)) (by decide +kernel) (.basic .untypedInt) rfl
    (by decide +kernel) hplace with ⟨u, hu, hother, -⟩ | ⟨-, -, hdefault⟩
  · obtain rfl : .any = u := Option.some.inj hu
    simp [hplain, isNil] at hother
  · exact ⟨.start {}, hplain, hdefault.trans (congrArg some hint)⟩

end Pass

end GoCheck
