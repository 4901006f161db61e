import GoCheck.Proofs.Course

/-!
# What stays

Types, the types of objects that have one, the values of constants, and bindings stay as they were.
All but the values are kept by every single step. A value is set only by the initialization of a
constant that the check has made itself.
-/

namespace GoCheck

open Store Checker Pass

variable {o : ObjectId} {name : String} {c d e : Checker} {m : Pass α}

namespace Store

variable {s s' : Store}

lemma find?_bind (h : (s.scope x).find? name = some o) :
    ((s.bind y p).2.scope x).find? name = some o := by
  simp only [bind]
  split
  · exact h
  · change ((s.modifyScope y _).scope x).find? name = some o
    rw [scope_modifyScope]
    split
    · simp only [Scope.find?] at h ⊢
      rw [List.lookup_append, h]
      rfl
    · exact h

lemma Step.find?_eq_some (h : s.Step s') (hx : (s.scope x).find? name = some o) :
    (s'.scope x).find? name = some o := by
  cases h with
  | newScope => rwa [Scope.find?, bindings_newScope]
  | bind => exact find?_bind hx
  | _ => exact hx

end Store

lemma Checker.Steps.find?_eq_some (h : c.Steps d) (hx : (c.store.scope x).find? name = some o) :
    (d.store.scope x).find? name = some o :=
  h.keepStore (fun hs hx => hs.find?_eq_some hx) hx

namespace Checker

lemma QuietStep.value?_eq (h : c.QuietStep W d) (ho : o.index < c.store.objects.size) :
    (d.store.object o).value? = (c.store.object o).value? := by
  cases h with
  | newObject ob => rw [object_newObject, if_neg (ne_of_lt ho)]
  | newScope => simp [Store.object]
  | bind x p => exact view_bind (fun _ _ => rfl) ..
  | setVisible p n =>
    exact view_modifyObject (g := Object.value?) (f := ({ · with visibleFrom := n }))
      (fun _ => rfl) o
  | setUsed p used => exact view_modifyObject (·.value?_setUsed used) o
  | _ => rfl

lemma QuietSteps.value?_eq (h : c.QuietSteps W d) (ho : o.index < c.store.objects.size) :
    (d.store.object o).value? = (c.store.object o).value? := by
  induction h with
  | refl => rfl
  | tail hsteps hstep ih =>
    have hsize := (QuietSteps.steps hsteps).objects_size_le
    exact (hstep.value?_eq (lt_of_lt_of_le ho hsize)).trans ih

/-- A later state in which the constants of a state have the values that they had. -/
structure SameValues (c d : Checker) : Prop where
  size : c.store.objects.size ≤ d.store.objects.size
  value : ∀ o, o.index < c.store.objects.size →
    (d.store.object o).value? = (c.store.object o).value?

lemma SameValues.refl (c : Checker) : c.SameValues c := ⟨le_rfl, fun _ _ => rfl⟩

lemma SameValues.later (hd : c.SameValues d) (hsteps : d.Steps e)
    (h : ∀ o, o.index < d.store.objects.size →
      (e.store.object o).value? = (d.store.object o).value?) : c.SameValues e :=
  ⟨le_trans hd.size hsteps.objects_size_le, fun o ho =>
    (h o (lt_of_lt_of_le ho hd.size)).trans (hd.value o ho)⟩

end Checker

namespace Pass

lemma sameValues_of_isQuiet (hm : m.IsQuiet fun _ => True) : m.Preserves c.SameValues :=
  preserves_of_state fun d hd => hd.later (m.2 d) fun _ ho => (hm d fun _ _ => ⟨⟩).value?_eq ho

lemma sameValues_of_objects (hm : ∀ d, (m.1 d).2.store.objects = d.store.objects) :
    m.Preserves c.SameValues :=
  preserves_of_state fun d hd => hd.later (m.2 d) fun o _ => by rw [Store.object, hm]; rfl

lemma sameValues_newConst {span : Span} {package : Option PackageId}
    : (newConst span package name t .unknown).Maintains c.SameValues
      fun o => ∀ v, (setValue o v).Preserves c.SameValues := by
  refine ⟨(sameValues_of_isQuiet .newConst).state, fun d hd v => ?_⟩
  refine preserves_of_state fun e he => ?_
  refine ⟨le_trans he.size ((setValue _ v).2 e).objects_size_le, fun o ho => ?_⟩
  refine (congrArg Object.value? ?_).trans (he.value o ho)
  have hne : ((newConst span package name t .unknown).1 d).1 ≠ o := by
    rintro rfl
    exact not_lt.mpr hd.size ho
  exact (object_modifyObject ..).trans (if_neg fun h => hne h.1)

lemma sameValues_discipline :
    Discipline c.SameValues (fun _ => True) (fun _ => True) fun _ => True where
  newIn _ _ _ := trivial
  quiet hm _ := sameValues_of_isQuiet hm
  restoreUse _ _ hd := (sameValues_of_isQuiet .setUsed).state _ hd
  giveType {o t} := preserves_of_state fun d hd => hd.later ((giveType o t).2 d) fun p _ =>
    view_modifyObject (·.value?_giveType t) p
  newConst := sameValues_newConst
  declare _ := sameValues_of_isQuiet (.declare trivial)
  emit _ _ _ _ := sameValues_of_objects fun _ => rfl
  report _ := sameValues_of_objects fun _ => rfl
  unpresentable _ _ _ := sameValues_of_objects fun _ => rfl
  implicit _ _ := (sameValues_of_objects fun _ => rfl).state _
  finish {x _ _ _} _ := sameValues_of_objects fun _ => by
    cases hx : x.expr <;> simp [finishConversion, Operand.withMode, hx] <;> rfl
  accept _ _ _ := trivial
  reject _ := trivial
  invalidated _ := trivial
  missing := trivial

lemma sameValues_governs : Regime.Governs c.SameValues
    (.plain c.SameValues (fun _ => True) (fun _ => True) fun _ => True) (fun _ => True)
    fun d => .sure (∀ _ ∈ d.body.stmts, True) :=
  Discipline.governs_all sameValues_discipline
    (fun hm => sameValues_of_objects fun d => (hm d).objects) (fun _ => trivial) trivial

variable {f : α → Pass β}

/-- A pass that leaves alone the values of the constants that there were before. -/
def KeepsValues (m : Pass α) : Prop :=
  ∀ c o, o.index < c.store.objects.size →
    ((m.1 c).2.store.object o).value? = (c.store.object o).value?

lemma keepsValues_of_isQuiet (hm : m.IsQuiet fun _ => True) : m.KeepsValues :=
  fun c _ ho => (hm c fun _ _ => ⟨⟩).value?_eq ho

lemma KeepsValues.bind (hm : m.KeepsValues) (hf : ∀ a, (f a).KeepsValues) :
    (m >>= f).KeepsValues := fun c o ho =>
  (hf _ _ o (lt_of_lt_of_le ho (m.2 c).objects_size_le)).trans (hm c o ho)

lemma keepsValues_newObject : (build (Build.newObject ob) h).KeepsValues := fun _ _ ho =>
  congrArg Object.value? ((object_newObject ..).trans (if_neg (ne_of_lt ho)))

lemma keepsValues_of_leads (h : ∀ c, m.LeadsTo c.SameValues c) : m.KeepsValues :=
  fun c o ho => (h c).state.value o ho

lemma keepsValues_declareNew
    (h : ∀ package, (new package).KeepsValues) : (declareNew new).KeepsValues := by
  refine .bind (keepsValues_of_isQuiet .current) fun c => (h _).bind fun o => ?_
  refine keepsValues_of_isQuiet (.bind ?_ .pure)
  exact .bind .current fun _ => .declare ⟨⟩

lemma keepsValues_function : (function sig body).KeepsValues :=
  keepsValues_of_leads fun c => Regime.Governs.function sameValues_governs (.refl c)
    (fun _ _ => trivial) (sigCollects_false sig)

lemma keepsValues_bodyOf : (bodyOf sig body).KeepsValues :=
  keepsValues_of_leads fun c => Regime.Governs.bodyOf sameValues_governs (.refl c)
    (fun _ _ => trivial) fun _ _ _ => trivial

lemma keepsValues_block : (block body).KeepsValues :=
  keepsValues_of_leads fun c => Regime.Governs.block sameValues_governs (.refl c) fun _ _ => trivial

end Pass

/-- Whatever is asked of a check in whatever state: objects keep a type, constants their values,
types stay what they are, and names stay bound to the same objects. -/
theorem Request.answer_permanent (r : Request) (c : Checker) :
    (∀ (o : ObjectId) (t : TypeId), (c.store.object o).type = some t →
      ((r.answer c).store.object o).type = some t) ∧
    (∀ o : ObjectId, o.index < c.store.objects.size →
      ((r.answer c).store.object o).value? = (c.store.object o).value?) ∧
    (∀ t : TypeId, t.index < c.store.types.size → (r.answer c).store.type t = c.store.type t) ∧
    (∀ (x : ScopeId) (name : String) (o : ObjectId), (c.store.scope x).find? name = some o →
      ((r.answer c).store.scope x).find? name = some o) := by
  have hsteps := r.steps c
  refine ⟨fun o t => hsteps.object_type, fun o ho => ?_, fun t => hsteps.type_eq,
    fun x name o => hsteps.find?_eq_some⟩
  cases r with
  | declareVar name t => exact keepsValues_declareNew (fun _ => keepsValues_newObject) c o ho
  | declareConst name t v =>
    exact keepsValues_declareNew (fun _ => keepsValues_newObject) c o ho
  | declareFunc name sig =>
    exact keepsValues_declareNew (fun _ => keepsValues_newObject) c o ho
  | declareType p =>
    refine keepsValues_of_isQuiet ?_ c o ho
    exact .bind .current fun _ => .declare ⟨⟩
  | checkFunc sig body => exact keepsValues_function c o ho
  | checkFuncBody sig body => exact keepsValues_bodyOf c o ho
  | checkBlock body => exact keepsValues_block c o ho

/-- `{ const true = false }`, which declares a predeclared name anew. -/
def redefinedTruth : Block where
  stmts := [.const ⟨2, 20⟩ [{
    names := [⟨some "true", ⟨8, 12⟩⟩]
    type := none
    values := [.ident ⟨0, ⟨15, 20⟩⟩ ⟨some "false", ⟨15, 20⟩⟩]
    span := ⟨8, 20⟩ }]]
  span := ⟨0, 22⟩

/-- It leaves the predeclared constant alone. -/
theorem Request.redefinedTruth_permanent : ((start {}).store.scope ⟨0⟩).find? "true" = some ⟨23⟩ ∧
    (((checkBlock redefinedTruth).answer (start {})).store.scope ⟨0⟩).find? "true" =
      some ⟨23⟩ ∧
    (((checkBlock redefinedTruth).answer (start {})).store.object ⟨23⟩).value? =
      some (.bool true) ∧
    (((checkBlock redefinedTruth).answer (start {})).store.object ⟨23⟩).type =
      some (.basic .untypedBool) := by
  have hbound : ((start {}).store.scope ⟨0⟩).find? "true" = some ⟨23⟩ := by decide +kernel
  have hvalue : ((start {}).store.object ⟨23⟩).value? = some (.bool true) := by decide +kernel
  have htype : ((start {}).store.object ⟨23⟩).type = some (.basic .untypedBool) := by decide +kernel
  obtain ⟨htypes, hvalues, -, hbindings⟩ :=
    answer_permanent (checkBlock redefinedTruth) (start {})
  exact ⟨hbound, hbindings _ _ _ hbound, (hvalues _ (by decide +kernel)).trans hvalue,
    htypes _ _ htype⟩

end GoCheck
