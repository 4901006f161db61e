import GoCheck.Proofs.Conversion.Assignments
import GoCheck.Proofs.Usage.Assignments
import GoCheck.Proofs.Usage.Unused

/-!
# Variables whose initialization fails

A variable whose initialization fails has a type afterwards and counts as used. Two failures are
overlooked: an untyped `nil` for a variable without a type, and a valid operand without a type.
Variables that are initialized together are all marked as soon as one fails, unless a second value
comes with an expression.
-/

namespace GoCheck

open Pass Checker Store

variable {s : Stmt}

/-- A failure that leaves a variable unused: a valid operand without a type, or `nil` for a variable
without one. -/
def Pass.overlooks (s : Store) (o : ObjectId) (x : Operand) : Bool :=
  !isFaulty x && (x.type.isNone || (s.object o).type.isNone && x.type = some (.basic .untypedNil))

/-- The initialization of a variable fails. A failure that is not looked after is not overlooked. -/
structure Checker.Refuses (c : Checker) (lookedAfter : Bool) (o : ObjectId) (x : Operand)
    (context : String) : Prop where
  isVar : (c.store.object o).isVar = true
  fails : ((initVar o x context).1 c).1 = none
  noticed : lookedAfter = false → overlooks c.store o x = false

/-- Of variables that are initialized in order, each with what a pass yields, one fails. -/
def FailsAmong (lookedAfter : Bool) (context : String) (o : ObjectId) :
    List ObjectId → List (Pass Operand) → Checker → Prop
  | v :: vs, m :: ms, c =>
    v = o ∧ (m.1 c).2.Refuses lookedAfter o (m.1 c).1 context ∨
      FailsAmong lookedAfter context o vs ms ((m >>= fun x => initVar v x context).1 c).2
  | _, _, _ => False

/-- A variable fails among others: by a wrong count, or because its value does not fit. -/
def FailsTogether (o : ObjectId) (vs : List ObjectId) (es : List Expr) (c : Checker) : Prop :=
  let r := (values (pending es) (vs.length = 2)).1 c
  o ∈ vs ∧ (r.2.store.object o).isVar = true ∧ (vs.length ≠ r.1.1.length ∨
    FailsAmong (!r.1.2) "assignment" o vs (r.1.1.map pure) r.2)

/-- Makes the variables of a specification, with their declared type. -/
def Pass.specVars (spec : Spec) : Pass (Option TypeId × List ObjectId) := do
  let declared ← spec.type.mapM (·.resolve)
  let package := (← current).package
  return (declared, ← spec.names.mapM fun i => newVar i.span (some package) i.text declared)

/-- Finds the targets of a short declaration and its variables. -/
def Pass.shortVars (scope : ScopeId) (lhs : List Expr) : Pass (List ShortTarget × List ObjectId) := do
  let targets ← shortTargets scope [] lhs
  return (targets, ← targetVars targets lhs)

/-- In a specification, the initialization of a variable fails. -/
def Spec.Fails (spec : Spec) (o : ObjectId) (c : Checker) : Prop :=
  let r := (specVars spec).1 c
  if 1 < r.1.2.length && spec.values.length = 1 then FailsTogether o r.1.2 spec.values r.2
  else FailsAmong false "variable declaration" o r.1.2 (spec.values.map (·.evalValue)) r.2

/-- The state in which a statement does its own work. -/
def Checker.entered (c : Checker) (s : Stmt) : Checker :=
  ((do note (.enterStmt s); traceLine fun _ => "stmt[ " ++ s.text ++ " ]"; indentTrace).1 c).2

/-- In the check of a statement, the initialization of a variable fails. -/
inductive Stmt.Fails (run : Deferred → Pass Unit) (o : ObjectId) : Stmt → Checker → Prop
  | var {span : Span} {l l' : List Spec} {spec : Spec} {c : Checker} :
      spec.Fails o ((l.forM varSpec).1 (c.entered (.var span (l ++ spec :: l')))).2 →
        Fails run o (.var span (l ++ spec :: l')) c
  | short {span : Span} {lhs rhs : List Expr} {scope : ScopeId} {c : Checker} :
      (c.entered (.short span lhs rhs)).context.scope = some scope →
      FailsTogether o ((shortVars scope lhs).1 (c.entered (.short span lhs rhs))).1.2 rhs
        ((shortVars scope lhs).1 (c.entered (.short span lhs rhs))).2 →
        Fails run o (.short span lhs rhs) c
  | block {span inner : Span} {l l' : List Stmt} {s : Stmt} {c : Checker} :
      s.Fails run o ((checkStmts run l).1 ((openScope inner).1
        (c.entered (.block span ⟨l ++ s :: l', inner⟩))).2).2 →
        Fails run o (.block span ⟨l ++ s :: l', inner⟩) c

lemma Checker.Uses.notMem_unusedVars {c : Checker} (hc : c.Uses o) (x : ScopeId) :
    o ∉ c.store.unusedVars x := by
  rw [unusedVars, unusedWithin_eq_flatMap]
  intro ho
  obtain ⟨y, -, hy⟩ := List.mem_flatMap.mp ho
  have hused := (mem_unusedHere_iff.mp hy).2.2
  rw [Checker.Uses] at hc
  simp [hc] at hused

namespace Pass

variable {c d : Checker} {o : ObjectId} {x : Operand}
variable {context : String} {vs : List ObjectId} {xs : List Operand} {es : List Expr} {b : Bool}

/-- A value that is taken keeps having a type. -/
lemma isSome_type_assignment (hx : x.isInvalid = false) (htype : x.type.isSome)
    (hy : ((assignment x ot context).1 c).1.isInvalid = false) :
    ((assignment x ot context).1 c).1.type.isSome := by
  obtain ⟨old, hold⟩ := Option.isSome_iff_exists.mp htype
  by_cases hpresentable : x.Presentable
  · cases huntyped : c.store.isUntyped old with
    | true =>
      obtain ⟨i, himplicit, htype, -⟩ := (judges_assignment hx hpresentable).taken hy old hold huntyped
      rw [htype]
      exact isSome_type_of_implicitWith hold himplicit
    | false =>
      have hjudges : (assignment x ot context).Judges c 1 (· = x) := by
        refine .assignment hx hpresentable fun d hd => ?_
        simp only [assignValue, judges_entities_bind, hd.store, hold, Option.filter_some, huntyped]
        exact judges_assignConverted hx
      rwa [hjudges.taken hy]
  · -- What has no value is reported, but stays as it is.
    have hsame : ((assignment x ot context).1 c).1 = x := by
      have hsingle : singleValue x = entities >>= fun _ => pure x := by
        cases hmode : x.mode <;> simp_all [singleValue, Operand.Presentable]
      rw [assignment, hsingle, bind_assoc]
      cases hmode : x.mode <;> simp_all [Operand.Presentable] <;> rfl
    rwa [hsame]

lemma isVar_steps (h : c.Steps d) (ho : (c.store.object o).isVar) : (d.store.object o).isVar :=
  (h.keepStore (fun hs ho => hs.keepVar ho) ⟨ho, rfl⟩).1

lemma isSome_type_steps (h : c.Steps d) (ho : (c.store.object o).type.isSome) :
    (d.store.object o).type.isSome := by
  obtain ⟨t, ht⟩ := Option.isSome_iff_exists.mp ho
  rw [h.object_type ht]
  rfl

lemma isSome_type_giveType (ho : (c.store.object o).isVar) :
    (((giveType o t).1 c).2.store.object o).type.isSome := by
  have hlt := index_lt_of_object (P := (·.isVar)) (by decide) ho
  have hobject := (object_modifyObject c.store o o (·.giveType t)).trans (if_pos ⟨rfl, hlt⟩)
  rw [show ((giveType o t).1 c).2.store.object o = _ from hobject, Object.giveType]
  cases (c.store.object o).type <;> rfl

lemma uses_initTyped (ho : (c.store.object o).isVar) (hx : x.isInvalid = false)
    (h : ((initTyped o t x context).1 c).1 = none) :
    x.type = none ∨ (initTyped o t x context).Uses o c := by
  rw [initTyped, bind_run] at h
  split at h
  · rename_i hy
    have hmark := uses_markUsed (isVar_steps ((assignment x (some t) context).2 c) ho)
    refine .inr (.after ?_)
    rw [if_pos hy]
    exact hmark.before fun _ _ _ hd => .pure hd trivial
  · rename_i hy
    refine .inl (Option.not_isSome_iff_eq_none.mp fun htype => ?_)
    have hsome := isSome_type_assignment hx htype (Bool.eq_false_iff.mpr hy)
    rw [show ((assignment x (some t) context).1 c).1.type = none from h] at hsome
    cases hsome

/-- After a failed initialization a variable has a type and is used, unless that is overlooked. -/
lemma initVar_eq_none (ho : (c.store.object o).isVar) (h : ((initVar o x context).1 c).1 = none) :
    (((initVar o x context).1 c).2.store.object o).type.isSome ∧
      (overlooks c.store o x ∨ ((initVar o x context).1 c).2.Uses o) := by
  rw [initVar, entities_bind_run] at h ⊢
  dsimp only at h ⊢
  split at h
  · rename_i hfault
    rw [if_pos hfault]
    have hvar := isVar_steps ((invalidateMissing o).2 c) ho
    exact ⟨isSome_type_steps ((markUsed o).2 _) (isSome_type_giveType ho),
      .inr (uses_markUsed hvar).state⟩
  · rename_i hfault
    obtain ⟨hx, -⟩ : isFaulty x = false ∧ _ := by simpa using hfault
    have hvalid : x.isInvalid = false := (Bool.or_eq_false_iff.mp hx).1
    have hmissing (htype : x.type = none) : overlooks c.store o x := by simp [overlooks, hx, htype]
    rw [if_neg hfault]
    cases hdeclared : (c.store.object o).type with
    | some t =>
      simp only [hdeclared] at h ⊢
      exact ⟨isSome_type_steps ((initTyped o t x context).2 c) (by simp [hdeclared]),
        (uses_initTyped ho hvalid h).imp hmissing (·.state)⟩
    | none =>
      simp only [hdeclared] at h ⊢
      split at h
      · rename_i hnil
        rw [if_pos hnil]
        refine ⟨isSome_type_giveType ho, .inl ?_⟩
        cases htype : x.type with
        | none => exact hmissing htype
        | some u => simp_all [overlooks, Operand.typeOrInvalid]
      · rename_i hnil
        rw [if_neg hnil]
        generalize c.store.defaultType x.typeOrInvalid = t at h ⊢
        rw [bind_run] at h ⊢
        have hvar := isVar_steps ((giveType o t).2 c) ho
        exact ⟨isSome_type_steps ((initTyped o t x context).2 _) (isSome_type_giveType ho),
          (uses_initTyped hvar hvalid h).imp hmissing (·.state)⟩

lemma uses_of_refuses (h : c.Refuses false o x context) : (initVar o x context).Uses o c :=
  ⟨(initVar_eq_none h.isVar h.fails).2.resolve_left (by simp [h.noticed rfl]), trivial⟩

/-- Of variables that have values of their own, one that fails is used. -/
lemma uses_initSeparately
    (h : FailsAmong false "variable declaration" o vs (es.map (·.evalValue)) c) :
    (initSeparately b vs es).Uses o c := by
  induction vs generalizing es c with
  | nil => cases es <;> cases h
  | cons v vs ih =>
    cases es with
    | nil => cases h
    | cons e es =>
      refine .after (.after ?_)
      rcases h with ⟨rfl, h⟩ | h
      · exact (Regime.initSeparately uses_regime (uses_of_refuses h).state (uses_sources es).eval
          (fun _ _ => trivial) (.inl trivial)).to
      · exact ih h

/-- If one of several variables fails, not all succeed. It is used unless that is overlooked. -/
lemma initEach_of_failsAmong (h : FailsAmong b context o vs (xs.map pure) c)
    (hlen : vs.length = xs.length) :
    ((initEach context vs xs).1 c).1 = false ∧ (b = false → (initEach context vs xs).Uses o c) := by
  induction vs generalizing xs c with
  | nil => cases xs <;> cases h
  | cons v vs ih =>
    cases xs with
    | nil => cases h
    | cons x xs =>
      have hresult : ((initEach context (v :: vs) (x :: xs)).1 c).1 =
          (((initVar v x context).1 c).1.isSome &&
            ((initEach context vs xs).1 ((initVar v x context).1 c).2).1) := rfl
      rw [hresult, Bool.and_eq_false_iff]
      rcases h with ⟨rfl, h⟩ | h
      · refine ⟨.inl (congrArg Option.isSome h.fails), ?_⟩
        rintro rfl
        exact (uses_of_refuses h).before fun _ _ _ hd => (Regime.initEach uses_regime hd
          (Nat.succ.inj hlen) (fun _ _ => trivial) fun _ _ => usage_value).before fun _ _ _ hd =>
            .pure hd trivial
      · have hrest := ih h (Nat.succ.inj hlen)
        exact ⟨.inr hrest.1, fun hb => .after ((hrest.2 hb).before fun _ _ _ hd =>
          .pure hd trivial)⟩

/-- A variable is used by what marks it among others. -/
lemma uses_forM {g : ObjectId → Pass PUnit} (hmem : o ∈ vs) (ho : (c.store.object o).isVar)
    (hg : ∀ v, ∀ d, d.Uses o ∨ v = o ∧ (d.store.object o).isVar → (g v).Uses o d) :
    (vs.forM g).Uses o c :=
  leads_forM_of_mem ho hmem
    (fun v _ d hd => ⟨isVar_steps ((g v).2 d) hd, trivial⟩) (fun d hd => hg o d (.inr ⟨rfl, hd⟩))
    fun v _ d hd => hg v d (.inl hd)

lemma uses_mark (h : c.Uses o ∨ v = o ∧ (c.store.object o).isVar) : (markUsed v).Uses o c := by
  rcases h with h | ⟨rfl, h⟩
  · exact ⟨(tacit_markUsed v).used o h, trivial⟩
  · exact uses_markUsed h

/-- Marks a variable and gives it the invalid type if it has none. -/
def settleVar (v : ObjectId) : Pass Unit := do
  markUsed v
  invalidateMissing v

lemma uses_settleVars (hmem : o ∈ vs) (ho : (c.store.object o).isVar) :
    (vs.forM settleVar).Uses o c :=
  uses_forM hmem ho fun _ _ hd => (uses_mark hd).before fun _ _ _ hd =>
    ⟨uses_discipline.giveType.state _ hd, trivial⟩

/-- Of variables that are initialized together, one that fails is used. -/
lemma uses_initVars (h : FailsTogether o vs es c) : (initVars vs es none).Uses o c := by
  refine .after ?_
  simp only [Option.isNone_none, Option.isSome_none, Bool.and_true, Bool.false_eq_true, if_false]
  unfold FailsTogether at h
  generalize (values (pending es) (vs.length = 2)).1 c = r at h ⊢
  obtain ⟨⟨xs, pair⟩, d⟩ := r
  obtain ⟨hmem, hvar, h⟩ := h
  dsimp only at hvar h ⊢
  split
  · -- All of them are marked because they differ from the values in number.
    refine (uses_settleVars hmem hvar).before fun _ _ _ hd => ?_
    split
    · exact .pure hd trivial
    · exact .entities (Regime.reportCounts uses_regime hd)
  · rename_i hlen
    have hlen : vs.length = xs.length := by simpa using hlen
    obtain ⟨hfalse, huses⟩ := initEach_of_failsAmong (h.resolve_left (absurd hlen)) hlen
    split
    · -- Nothing but the initializations themselves uses the variables of a pair.
      refine .after (.after ?_)
      exact (Regime.logEvent uses_regime (huses rfl).state).before fun _ _ _ hd =>
        (uses_sources es).pair hd (fun _ _ => trivial) fun _ _ => trivial
    · refine .after ?_
      rw [hfalse]
      exact uses_forM hmem (isVar_steps ((initEach _ _ _).2 d) hvar) fun v d hd => uses_mark hd

/-- In a specification, a variable that fails is used. -/
lemma uses_varSpec (h : spec.Fails o c) : (varSpec spec).Uses o c := by
  have hsplit : makeVars spec = (do
      let r ← specVars spec
      initSpec r.1.isNone r.2 spec.values
      if r.1.isNone || !spec.values.isEmpty then checkArity spec.names spec.values false
      return r.2) := rfl
  have hinit : (initSpec ((specVars spec).1 c).1.1.isNone ((specVars spec).1 c).1.2
      spec.values).Uses o ((specVars spec).1 c).2 := by
    unfold Spec.Fails at h
    unfold initSpec
    dsimp only at h
    split at h
    · rw [if_pos ‹_›]
      exact uses_initVars h
    · rw [if_neg ‹_›]
      exact uses_initSeparately h
  have hmake : (makeVars spec).Uses o c := by
    rw [hsplit]
    refine .after (hinit.before fun _ _ _ hd => ?_)
    split
    · exact (Regime.checkArity uses_regime hd).before fun _ _ _ hd => .pure hd trivial
    · exact .pure hd trivial
  exact hmake.before fun _ _ _ hd => uses_governs.declareSpec hd fun _ _ => ⟨trivial, fun _ => trivial⟩

section

variable {run : Deferred → Pass Unit}
variable (hrun : ∀ x c, c.Uses o → (run x).Uses o c)
include hrun

lemma uses_check (h : (s.act run).Uses o (c.entered s)) : (s.check run).Uses o c := by
  rw [Stmt.check_eq]
  refine .after (.after (.after (.deferredCount ?_)))
  refine h.before fun _ _ _ hd => ?_
  exact (uses_governs.runDeferred hd fun x c hc _ => hrun x c hc).before fun _ _ _ hd =>
    (Regime.unindentTrace uses_regime hd).before fun _ _ _ hd => uses_governs.note hd

lemma uses_checkStmts (h : (s.check run).Uses o ((checkStmts run l).1 c).2) :
    (checkStmts run (l ++ s :: l')).Uses o c := by
  have hforM ss : checkStmts run ss = ss.forM (·.check run) := by
    induction ss with
    | nil => rw [checkStmts]; rfl
    | cons s ss ih => rw [checkStmts, ih]; rfl
  rw [hforM] at h ⊢
  refine leads_forM_append h fun b _ d hd => ?_
  have hrest := uses_governs.checkStmts (fun x c hc _ => hrun x c hc) [b] (fun _ _ => trivial) hd
  rw [hforM] at hrest
  exact ⟨hrest.state, trivial⟩

/-- A variable whose initialization fails in a statement is used at its end. -/
lemma uses_of_fails (h : s.Fails run o c) : (s.check run).Uses o c := by
  induction h with
  | @var span l l' spec c h =>
    refine uses_check hrun ?_
    rw [Stmt.act]
    exact leads_forM_append (uses_varSpec h) fun spec _ d hd =>
      uses_governs.varSpec hd (uses_sources _) fun e _ => e.collects_false
  | @short span lhs rhs scope c hscope h =>
    refine uses_check hrun ?_
    rw [Stmt.act]
    refine .deferredCount (.current ?_)
    rw [hscope]
    have hinit : (shortInit scope lhs rhs).Uses o (c.entered (.short span lhs rhs)) :=
      .after (.after (.after ((uses_initVars h).before fun _ _ _ hd =>
        .pure hd trivial)))
    exact hinit.before fun _ _ _ hd =>
      (uses_governs.runDeferred hd fun x c hc _ => hrun x c hc).before fun _ _ _ hd =>
        uses_governs.declareShort hd trivial fun _ _ => ⟨trivial, fun _ => trivial⟩
  | @block span inner l l' s c _ ih =>
    refine uses_check hrun ?_
    rw [Stmt.act, enterBlock]
    refine .after ((uses_checkStmts hrun ih).before fun _ _ _ hd => ?_)
    exact uses_governs.closeScope hd

end

/-- If an initialization fails then the variable has a type afterwards, and it counts as used or the
failure is overlooked. A variable whose initialization fails in a declaration, in whatever
statements and blocks, is not among those reported at their end, if the failure is looked after or
not overlooked. -/
theorem unreported_of_initialization_failed {run : Deferred → Pass Unit}
    (hrun : run = checkLiteral ∨ ∃ n, run = literalBody n) :
    (∀ (c : Checker) (o : ObjectId) (x : Operand) (context : String),
      (c.store.object o).isVar = true → ((initVar o x context).1 c).1 = none →
        (((initVar o x context).1 c).2.store.object o).type.isSome = true ∧
          (overlooks c.store o x = true ∨ ((initVar o x context).1 c).2.Uses o)) ∧
    ∀ (l l' : List Stmt) (s : Stmt) (c : Checker) (o : ObjectId),
      s.Fails run o ((checkStmts run l).1 c).2 → ∀ x : ScopeId,
        o ∉ ((checkStmts run (l ++ s :: l')).1 c).2.store.unusedVars x := by
  refine ⟨fun c o x context => initVar_eq_none, fun l l' s c o h x => ?_⟩
  have hkeep (x : Deferred) (c : Checker) (hc : c.Uses o) : (run x).Uses o c := by
    rcases hrun with rfl | ⟨n, rfl⟩
    · exact uses_governs.checkLiteral hc fun _ _ => trivial
    · exact uses_governs.literalBody hc fun _ _ => trivial
  exact (uses_checkStmts hkeep (uses_of_fails hkeep h)).state.notMem_unusedVars x

/-- The specification `x = v`, perhaps with a type. -/
def sampleSpec (type : Option TypeExpr) (value : Expr) : Spec :=
  { names := [⟨some "x", ⟨4, 5⟩⟩], type, values := [value], span := ⟨4, 15⟩ }

/-- The specification `x int = "a"`. -/
def sampleMisfit : Spec :=
  sampleSpec (some (.name ⟨6, 9⟩ ⟨some "int", ⟨6, 9⟩⟩)) (.lit ⟨1, ⟨12, 15⟩⟩ .string (some "\"a\""))

/-- In `{ var x int = "a" }` a string does not fit an integer, but the variable is not reported. -/
theorem unreported_of_initialization_failed_sample :
    let s := Stmt.block ⟨0, 20⟩ ⟨[.var ⟨2, 18⟩ [sampleMisfit]], ⟨0, 20⟩⟩
    s.Fails checkLiteral ⟨26⟩ (start {}) ∧ ∀ x : ScopeId,
      ⟨26⟩ ∉ ((checkStmts checkLiteral [s]).1 (start {})).2.store.unusedVars x := by
  have hfails : (Stmt.block ⟨0, 20⟩ ⟨[.var ⟨2, 18⟩ [sampleMisfit]], ⟨0, 20⟩⟩).Fails checkLiteral ⟨26⟩
      (start {}) := by
    refine .block (l := []) (.var (l := []) ?_)
    unfold Spec.Fails
    rw [if_neg (by decide +kernel)]
    exact .inl ⟨by decide +kernel, by decide +kernel, by decide +kernel, fun _ => by decide +kernel⟩
  refine ⟨hfails, (unreported_of_initialization_failed (.inl rfl)).2 [] [] _ _ _ ?_⟩
  rw [checkStmts]
  exact hfails

/-- In `var x = nil` the initialization fails, and the variable is reported. -/
theorem unused_of_nil_initialization :
    let spec := sampleSpec none (sampleTarget "nil")
    let r := (sampleTarget "nil").evalValue.1 ((specVars spec).1 (start {})).2
    ((initVar ⟨26⟩ r.1 "variable declaration").1 r.2).1 = none ∧
      ⟨26⟩ ∈ ((checkStmts checkLiteral [.var ⟨0, 11⟩ [spec]]).1
        (start {})).2.store.unusedVars ⟨1⟩ := by
  decide +kernel

/-! ## Variables and values that differ in number -/

variable {c : Checker} {o : ObjectId} {lhs : List ObjectId} {xs : List Operand}

/-- The fault of values that differ from the variables in number. -/
def countFault (rhs : List Expr) (returning : Option Span) : Fault :=
  if returning.isSome then .wrongResultCount
  else if rhs.isEmpty then .invalidSyntaxTree else .wrongAssignCount

/-- The place of such a report, in the source of a return or at the first expression. -/
def countPlace? (lhs : List ObjectId) (rhs : List Expr) (xs : List Operand) :
    Option Span → Option Span
  | some span => some (surplusPlace xs lhs.length span)
  | none => rhs.head?.map Expr.span

lemma sink_settleVars (vs : List ObjectId) (c : Checker) : ((vs.forM settleVar).1 c).2.sink = c.sink := by
  induction vs generalizing c with
  | nil => rfl
  | cons v vs ih => exact ih _

/-- A variable is settled as soon as its turn has come. -/
lemma settled_of_mem (hmem : o ∈ lhs) (ho : (c.store.object o).isVar) :
    (((lhs.forM settleVar).1 c).2.store.object o).isUsed ∧
      (((lhs.forM settleVar).1 c).2.store.object o).type.isSome := by
  have htype : (lhs.forM settleVar).LeadsTo (fun d => (d.store.object o).type.isSome) c := by
    refine leads_forM_of_mem (J := fun d => (d.store.object o).isVar) ho hmem ?_ ?_ ?_
    · exact fun v _ d hd => ⟨isVar_steps ((settleVar v).2 d) hd, trivial⟩
    · exact fun d hd => ⟨isSome_type_giveType (isVar_steps ((markUsed o).2 d) hd), trivial⟩
    · exact fun v _ d hd => ⟨isSome_type_steps ((settleVar v).2 d) hd, trivial⟩
  exact ⟨(uses_settleVars hmem ho).state, htype.state⟩

lemma report_matches (p : Problem) (span : Span) : (p.report span).code = some p.fault.code ∧
      (p.report span).labels = [{ style := .primary, span }] :=
  ⟨rfl, rfl⟩

/-- What is left to report after the variables are settled. -/
def reportMismatch (lhs : List ObjectId) (rhs : List Expr) (xs : List Operand)
    (returning : Option Span) : Pass Unit := do
  let s ← entities
  match returning with
  | some span => emit (returnCountReport s span lhs xs)
  | none => reportCounts (lhs.head?.elim Span.dummy fun v => (s.object v).span) rhs lhs.length xs.length

lemma refuseInit_eq : refuseInit lhs rhs xs returning = (do
    lhs.forM settleVar
    if xs.any (·.isInvalid) then pure () else reportMismatch lhs rhs xs returning) := rfl

lemma store_reportMismatch (c : Checker) :
    ((reportMismatch lhs rhs xs returning).1 c).2.store = c.store := by
  cases returning with
  | some span => rfl
  | none => cases rhs <;> rfl

lemma emitted_reportMismatch (lhs : List ObjectId) (rhs : List Expr) (xs : List Operand)
    (returning : Option Span) (c : Checker) :
    ∃ d, (reportMismatch lhs rhs xs returning).emitted c = [d] ∧
      d.code = some (countFault rhs returning).code ∧
      ∀ span ∈ countPlace? lhs rhs xs returning, d.labels = [{ style := .primary, span }] := by
  rw [reportMismatch, emitted_entities_bind]
  cases returning with
  | some span =>
    refine ⟨_, emitted_emit, ?_⟩
    rw [returnCountReport_eq]
    simp only [Diagnostic.withNote, report_matches, countPlace?, Option.mem_some_iff, forall_eq']
    exact ⟨rfl, trivial⟩
  | none =>
    cases rhs with
    | nil =>
      refine ⟨_, emitted_emit, ?_⟩
      simp only [report_matches, countPlace?]
      exact ⟨rfl, fun _ h => nomatch h⟩
    | cons e rest =>
      refine ⟨_, emitted_emit, ?_⟩
      simp only [report_matches, countPlace?, List.head?_cons, Option.map_some, Option.mem_some_iff,
        forall_eq']
      exact ⟨rfl, trivial⟩

/-- If the values that the expressions give differ from the variables in number, an initialization
reports one thing more than their evaluation does, and nothing more if one of them is wrong. Every
variable counts as used and has a type afterwards, the one that it had if it had one. -/
theorem initVars_of_mismatch (c : Checker) (lhs : List ObjectId) (rhs : List Expr)
    (returning : Option Span) (hvars : ∀ v ∈ lhs, (c.store.object v).isVar = true) :
    let source := values (pending rhs) (lhs.length = 2 && returning.isNone)
    let xs := (source.1 c).1.1
    let after := ((initVars lhs rhs returning).1 c).2
    lhs.length ≠ xs.length →
      (if xs.any (·.isInvalid) then (initVars lhs rhs returning).emitted c = source.emitted c else
        ∃ d, (initVars lhs rhs returning).emitted c = source.emitted c ++ [d] ∧
          d.code = some (countFault rhs returning).code ∧
          ∀ span ∈ countPlace? lhs rhs xs returning, d.labels = [{ style := .primary, span }]) ∧
      ∀ v ∈ lhs, (after.store.object v).isUsed = true ∧ (after.store.object v).type.isSome = true ∧
        ∀ t ∈ (c.store.object v).type, (after.store.object v).type = some t := by
  intro source xs after hcount
  have hrun : initVars lhs rhs returning = source >>= fun r =>
      if lhs.length ≠ r.1.length then refuseInit lhs rhs r.1 returning else _ := rfl
  -- settling the variables reports nothing, so what is reported is the mismatch alone
  have hemitted : (initVars lhs rhs returning).emitted c = source.emitted c ++
      (if xs.any (·.isInvalid) then pure () else reportMismatch lhs rhs xs returning).emitted
        ((lhs.forM settleVar).1 (source.1 c).2).2 := by
    rw [hrun, emitted_bind, if_pos hcount, refuseInit_eq, emitted_bind,
      emitted_eq_nil (sink_settleVars lhs _), List.nil_append]
  have hstore : after.store = ((lhs.forM settleVar).1 (source.1 c).2).2.store := by
    change (((initVars lhs rhs returning).1 c).2).store = _
    rw [hrun, bind_run, if_pos hcount, refuseInit_eq, bind_run]
    split
    · rfl
    · exact store_reportMismatch _
  refine ⟨?_, fun v hv => ?_⟩
  · rw [hemitted]
    split
    · rw [emitted_eq_nil (m := pure ()) rfl, List.append_nil]
    · obtain ⟨d, hd, hcode⟩ := emitted_reportMismatch lhs rhs xs returning
        ((lhs.forM settleVar).1 (source.1 c).2).2
      exact ⟨d, by rw [hd], hcode⟩
  · obtain ⟨hused, htype⟩ := settled_of_mem hv (isVar_steps (source.2 c) (hvars v hv))
    rw [← hstore] at hused htype
    exact ⟨hused, htype, fun t ht => ((initVars lhs rhs returning).2 c).object_type ht⟩

/-- `1` and `2` for one variable: the assignment is reported once, and the variable is used. -/
theorem initVars_of_mismatch_sample :
    let c := ((specVars (sampleSpec none (sampleTarget "nil"))).1 (Checker.start {})).2
    let rhs := [Expr.lit ⟨1, ⟨8, 9⟩⟩ .int (some "1"), .lit ⟨2, ⟨11, 12⟩⟩ .int (some "2")]
    (((initVars [⟨26⟩] rhs none).1 c).2.store.object ⟨26⟩).isUsed = true ∧
      ((initVars [⟨26⟩] rhs none).emitted c).map (·.code) = [some Fault.wrongAssignCount.code] := by
  intro c rhs
  have hmismatch := initVars_of_mismatch c [⟨26⟩] rhs none (by decide +kernel) (by decide +kernel)
  exact ⟨(hmismatch.2 ⟨26⟩ (by simp)).1, by decide +kernel⟩

end Pass

end GoCheck
