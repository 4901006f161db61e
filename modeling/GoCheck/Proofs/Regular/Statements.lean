import GoCheck.Proofs.Regular.Expressions

/-!
# Regular statements

The checks of statements and of function bodies are regular. The names that a statement may find
undeclared are those in it, except that the base of a selector that is assigned to is evaluated once
more if the selector is no storage.
-/

namespace GoCheck

open Pass

variable {x : Operand} {lhs : List Expr} {inMap : Bool}

section

lemma Regular.initConst : Regular counts [] (initConst o x) := by
  refine .entities fun s => .ite .invalidateMissing (.ite ?_ ?_)
  · exact .before (.report rfl) fun _ => .invalidateMissing
  · exact .before (.optionForM fun _ => .giveType) fun _ =>
      .before .assignment fun _ => .optionForM fun _ => .setValue

lemma Regular.initTyped : Regular counts [] (initTyped o t x context) :=
  .before .assignment fun _ => .ite (.before .markUsed fun _ => .pure _) (.pure _)

lemma Regular.initVar : Regular counts [] (initVar o x context) := by
  refine .entities fun s => ?_
  apply Regular.ite
  · exact .before .invalidateMissing fun _ => .before .markUsed fun _ => .pure _
  · cases (s.object o).type with
    | some t => exact Regular.initTyped
    | none =>
      refine .ite ?_ (.before .giveType fun _ => .initTyped)
      exact .before (.report rfl) fun _ => .before .invalidateMissing fun _ => .pure _

lemma Regular.initEach : Regular counts [] (initEach context vs xs) := by
  induction vs generalizing xs with
  | nil => exact .pure _
  | cons v vs ih =>
    cases xs with
    | nil => exact .pure _
    | cons x xs => exact .before .initVar fun _ => ih.before fun _ => .pure _

variable {lhs : List ObjectId}

lemma Regular.recordPair {value ok : Option TypeId} :
    Regular counts [] (recordPair rhs value ok) := by
  unfold Pass.recordPair
  split
  · exact .before .tupleOf fun _ => .onRecords
  · exact .pure _

lemma Regular.reportCounts {targets values : Nat} :
    Regular true [] (reportCounts span rhs targets values) := by
  unfold Pass.reportCounts
  split <;> exact .report rfl

lemma isOf_returnCountReport {s : Store} {rhs : List Operand} (k : Fault) :
    (returnCountReport s span lhs rhs).isOf k = decide (.wrongResultCount = k) :=
  Problem.isOf_report (.returnCount (lhs.length < rhs.length)) .dummy k

lemma Regular.refuseVars : Regular counts [] (lhs.forM fun v => do
    Pass.markUsed v
    Pass.invalidateMissing v) :=
  .forM_silent fun _ => .before .markUsed fun _ => .invalidateMissing

lemma Regular.refuseInit {returning : Option Span} :
    Regular true [] (refuseInit lhs rhs xs returning) := by
  refine .before .refuseVars fun _ => .ite (.pure _) (.entities fun s => ?_)
  cases returning with
  | some span =>
    apply Regular.emit
    exact ⟨isOf_returnCountReport _, isOf_returnCountReport _, fun h => by cases h⟩
  | none => exact Regular.reportCounts

lemma Regular.initVars (lhs : List ObjectId) (rhs : List Expr) (returning : Option Span) :
    Regular true (exprsNames true rhs) (initVars lhs rhs returning) := by
  refine .after (.evalAll rhs _) fun ⟨xs, pair⟩ => ?_
  refine .ite .refuseInit ?_
  split
  · exact .before .initVar fun _ => .before .initVar fun _ =>
      .before (.log rfl) fun _ => .recordPair
  · exact .before .initEach fun _ => .ite (.pure _) (.forM_silent fun _ => .markUsed)

end

variable (l : Expr)

lemma Regular.evalTarget : Regular true (l.names true) (evalTarget l) := by
  have hrest (named? : Option ObjectId) : Regular true (l.names true) (Pass.entities >>= fun s =>
      l.evalValue >>= fun x =>
        (named?.forM fun o => Pass.setUsed o (s.object o).isUsed) >>= fun _ => Pure.pure x) :=
    .entities fun _ => .after (.evalValue l) fun _ =>
      .before (.optionForM fun _ => .setUsed) fun _ => .pure _
  unfold Pass.evalTarget
  split
  · exact .before .localVar? hrest
  · exact .before (.pure _) hrest

/-- The names in what is evaluated once more to report a target. -/
def baseNames : Expr → List Ident
  | .selector _ base _ => base.names true
  | _ => []

lemma targetNames_eq : targetNames true l = l.names true ++ baseNames l := by
  cases l <;> simp [targetNames, targetsNames, baseNames, Expr.names]

lemma Regular.refuseTarget {l : Expr} : Regular counts [] (if inMap then
    Pass.report (.fieldOfMapElement l.text) x.span else do
      Pass.report (.cannotAssignTo (← Pass.describe x)) x.span) :=
  .ite (.report rfl) (.before .describe fun _ => .report rfl)

lemma Regular.reportTarget : Regular true (baseNames l) (reportTarget l x) := by
  unfold Pass.reportTarget
  split
  · rename_i n base sel
    exact .after (.evalValue base) fun _ => .before (.pure _) fun _ => .refuseTarget
  · exact .silent (.before (.pure _) fun _ => .refuseTarget)

lemma Regular.storageType : Regular true (targetNames true l) (storageType l) := by
  rw [targetNames_eq]
  refine .bind (.evalTarget l) fun x => .ite (.silent (.pure _)) ?_
  split
  · exact .silent (.pure _)
  · exact .silent (.pure _)
  · exact .after (.reportTarget l) fun _ => .pure _

lemma Regular.targetType : Regular true (targetNames true l) (targetType l) := by
  unfold Pass.targetType
  split
  · exact .silent (.before .recordDef fun _ => .pure _)
  · exact .storageType l

lemma Regular.assignVar : Regular true (targetNames true l) (assignVar l x) := by
  apply Regular.ite
  · have huse : Regular true (l.names true) (Pass.useAll (GoCheck.pending [l])) :=
      Regular.useOne (Regular.eval l)
    exact (huse.weaken (names_sublist_targetNames true l)).after fun _ => .pure _
  · refine .after (.targetType l) fun t => .ite (.pure _) ?_
    exact .before .assignment fun _ => .pure _

lemma Regular.assignTargets (ls : List Expr) (xs : List Operand) :
    Regular true (targetsNames true ls) (assignTargets ls xs) := by
  induction ls generalizing xs with
  | nil => exact .silent (.pure _)
  | cons l ls ih =>
    rw [targetsNames_cons]
    cases xs with
    | nil => exact .silent (.pure _)
    | cons x xs => exact .bind (.assignVar l) fun _ => (ih xs).after fun _ => .pure _

lemma Regular.markTargets (ls : List Expr) : Regular counts [] (markTargets ls) := by
  refine .forM_silent fun e => ?_
  split
  · exact .before .localVar? fun _ => .optionForM fun _ => .markUsed
  · exact .pure _

lemma Regular.assignVars (ls rs : List Expr) :
    Regular true (exprsNames true rs ++ targetsNames true ls) (assignVars ls rs) := by
  refine .bind (.evalAll rs _) fun ⟨xs, pair⟩ => ?_
  apply Regular.ite
  · have huse := (Regular.useExprs ls).weaken (exprsNames_sublist_targetsNames true ls)
    exact huse.after fun _ => .ite (.pure _) Regular.reportCounts
  · split
    · rename_i l l' x y
      rw [targetsNames_cons]
      exact .bind (.assignVar l) fun _ => .after (.assignVar l') fun _ =>
        .before (.log rfl) fun _ => .recordPair
    · exact .after (.assignTargets ls xs) fun _ => .ite (.pure _) (.markTargets ls)

variable {s : ScopeId}

lemma Regular.declareAll : Regular counts [] (declareAll s n is os) := by
  induction is generalizing os with
  | nil => exact .pure _
  | cons i is ih =>
    cases os with
    | nil => exact .pure _
    | cons o os => exact .before .declare fun _ => ih

lemma Regular.checkArity : Regular true [] (checkArity names inits isConst) := by
  unfold Pass.checkArity
  split
  · exact .report rfl
  · exact .ite (.report rfl) (.pure _)
  · exact .pure _

lemma Regular.initSeparately (vs : List ObjectId) (es : List Expr) :
    Regular true (exprsNames true es) (initSeparately untyped vs es) := by
  induction vs generalizing es with
  | nil => exact .silent (.pure _)
  | cons v vs ih =>
    cases es with
    | nil =>
      refine .ite ?_ (ih [])
      exact .before .invalidateMissing fun _ => ih []
    | cons e es => exact .bind (.evalValue e) fun _ => Regular.initVar.discard.before fun _ => ih es

lemma Regular.initSpec (vs : List ObjectId) (es : List Expr) :
    Regular true (exprsNames true es) (initSpec untyped vs es) :=
  .ite (.initVars vs es none) (.initSeparately vs es)

lemma Regular.optionMapM (hf : ∀ e, Regular true e.names (f e))
    (type : Option TypeExpr) : Regular true (type.elim [] TypeExpr.names) (type.mapM f) := by
  cases type with
  | none => exact .pure _
  | some e => exact (hf e).after fun _ => .pure _

variable (spec : Spec)

lemma Regular.makeVars : Regular true (specNames true spec) (makeVars spec) := by
  obtain ⟨names, type, es, span⟩ := spec
  refine .bind (.optionMapM Regular.resolve type) fun declared => ?_
  refine .reading (fun _ _ => rfl) fun _ => ?_
  refine .before (.mapM_silent fun _ => Regular.newVar) fun vars => ?_
  refine .after (.initSpec vars es) fun _ => .ite ?_ (.pure _)
  exact .before .checkArity fun _ => .pure _

lemma Regular.declareSpec {spec : Spec} : Regular counts [] (declareSpec spec os) := by
  apply Regular.before
  · exact .reading (fun _ _ => rfl) fun _ => .pure _
  · intro s
    exact .declareAll

lemma Regular.varSpec : Regular true (specNames true spec) (varSpec spec) :=
  .after (.makeVars spec) fun _ => .declareSpec

lemma Regular.constType (type : TypeExpr) : Regular true type.names (constType type) := by
  refine .after (.resolve type) fun t => .entities fun s => .ite (.pure _) (.ite (.pure _) ?_)
  exact .refuse rfl

lemma Regular.initConsts (is : List Ident) (es : List Expr) :
    Regular true (exprsNames true es) (initConsts declared is es) := by
  induction is generalizing es with
  | nil => exact .silent (.pure _)
  | cons i is ih =>
    refine .reading (fun _ _ => rfl) fun _ => ?_
    refine .before .newConst fun o => ?_
    have hrest : Regular true (exprsNames true es.tail)
        (Pass.initConsts declared is es.tail >>= fun os => Pure.pure (o :: os)) :=
      (ih es.tail).after fun _ => .pure _
    cases es with
    | nil => exact .ite hrest (.before (.pure _) fun x => .before .initConst fun _ => hrest)
    | cons e es =>
      have hskip : (exprsNames true es).Sublist (exprsNames true (e :: es)) :=
        List.sublist_append_right ..
      refine .ite (hrest.weaken hskip) (.bind (.evalValue e) fun x => ?_)
      exact .before .initConst fun _ => hrest

lemma Regular.makeConsts : Regular true (specNames true spec) (makeConsts spec) := by
  obtain ⟨names, type, es, span⟩ := spec
  refine .bind (.optionMapM .constType type) fun declared => ?_
  exact .after (.initConsts names es) fun _ => .before .checkArity fun _ => .pure _

lemma Regular.constSpec : Regular true (specNames true spec) (constSpec spec) :=
  .after (.makeConsts spec) fun _ => .declareSpec

lemma Regular.specs
    (h : ∀ spec, Regular true (specNames true spec) (check spec)) (specs : List Spec) :
    Regular true (specsNames true specs) (specs.forM check) := by
  induction specs with
  | nil => exact .pure _
  | cons spec specs ih => exact (h spec).bind fun _ => ih

lemma Regular.shortName : Regular counts [] (shortName s e i) := by
  refine .reading (fun _ _ => rfl) fun _ => ?_
  split
  · refine .before .recordUse fun _ => .ite (.pure _) ?_
    exact .refuse rfl
  · exact .before .newVar fun _ => .before .recordDef fun _ => .pure _

lemma Regular.shortTargets (seen : List String) (es : List Expr) :
    Regular true (exprsNames true es) (shortTargets s seen es) := by
  induction es generalizing seen with
  | nil => exact .pure _
  | cons e es ih =>
    have hskip : (exprsNames true es).Sublist (exprsNames true (e :: es)) :=
      List.sublist_append_right ..
    unfold Pass.shortTargets
    split
    · -- only what is no name is evaluated
      have huse : Regular true (e.names true) (Pass.useAll (GoCheck.pending [e])) :=
        .useOne (.eval e)
      exact huse.bind fun _ => .before (.report rfl) fun _ => (ih seen).after fun _ => .pure _
    · refine .weaken (.ite ?_ (.before .shortName fun _ => ?_)) hskip
      · exact .before (.report rfl) fun _ => (ih seen).after fun _ => .pure _
      · exact (ih _).after fun _ => .pure _

lemma Regular.targetVars : Regular counts [] (targetVars ts es) := by
  induction ts generalizing es with
  | nil => exact .pure _
  | cons t ts ih =>
    cases es with
    | nil => exact .pure _
    | cons e es =>
      have hrest v : Regular counts [] (Pass.targetVars ts es >>= fun vs => Pure.pure (v :: vs)) :=
        ih.before fun _ => .pure _
      cases t with
      | fresh o | existing o => exact .before (.pure _) hrest
      | wrong => exact .reading (fun _ _ => rfl) fun _ => .before .newVar hrest

lemma Regular.shortInit (lhs rhs : List Expr) :
    Regular true (exprsNames true lhs ++ exprsNames true rhs) (shortInit s lhs rhs) := by
  refine .bind (.shortTargets [] lhs) fun ts => .before .targetVars fun vars => ?_
  exact .entities fun _ => .after (.initVars vars rhs none) fun _ => .pure _

lemma Regular.declareShort :
    Regular counts [] (declareShort s span lhs rhs ts new) :=
  .ite (.report rfl) (.before (.log rfl) fun _ => .forM_silent fun _ => .declare)

/-- The scope of a short declaration may be read before the bodies put off are counted. -/
lemma shortDecl_eq (run : Deferred → Pass Unit) (span : Span) (lhs rhs : List Expr) :
    shortDecl run span lhs rhs = current >>= fun c => match c.context.scope with
      | none => report .noScope span
      | some scope => deferredCount >>= fun top => shortInit scope lhs rhs >>= fun r =>
          runDeferred run top >>= fun _ => declareShort scope span lhs rhs r.1 r.2 := by
  apply Subtype.ext
  funext c
  have hrun : (shortDecl run span lhs rhs).1 c = (match c.context.scope with
      | none => report .noScope span
      | some scope => shortInit scope lhs rhs >>= fun r =>
          runDeferred run c.deferred.length >>= fun _ =>
            declareShort scope span lhs rhs r.1 r.2).1 c := rfl
  rw [hrun, current_bind_run]
  cases c.context.scope with
  | none => rfl
  | some scope => rfl

variable {run : Deferred → Pass Unit}

/-- The bodies that have been put off are checked by regular passes. -/
abbrev RegularBodies (run : Deferred → Pass Unit) : Prop :=
  ∀ d, Regular true (blockNames true d.body) (run d)

lemma Regular.shortDecl (hrun : RegularBodies run) (span : Span) (lhs rhs : List Expr) :
    Regular true (exprsNames true lhs ++ exprsNames true rhs) (shortDecl run span lhs rhs) := by
  rw [shortDecl_eq]
  refine .reading (fun _ _ => rfl) fun c => ?_
  cases c.context.scope with
  | none => exact .silent (.report rfl)
  | some scope =>
    have h : Regular true ((exprsNames true lhs ++ exprsNames true rhs) ++ []) (deferredCount >>=
        fun top => Pass.shortInit scope lhs rhs >>= fun r => runDeferred run top >>= fun _ =>
          Pass.declareShort scope span lhs rhs r.1 r.2) :=
      .settle hrun (.shortInit lhs rhs) fun _ => .declareShort
    rwa [List.append_nil] at h

lemma Regular.exprStmt (e : Expr) : Regular true (e.names true) (exprStmt e) := by
  refine .after (.eval e) fun ⟨x, cls⟩ => ?_
  dsimp only
  split
  · exact .pure _
  · exact .before .describe fun _ => .report rfl
  · exact .pure _
  · exact .before .describe fun _ => .report rfl

lemma plain_hiddenResult (name : String) (span other : Span) :
    (hiddenResult name span other).Plain counts := by
  have hplain : ((Problem.hiddenResult name).report span).Plain counts :=
    Problem.plain_report span rfl
  unfold hiddenResult
  by_cases hdummy : other.isDummy
  · rw [if_pos hdummy]
    exact ⟨hplain.undeclared, hplain.unused, hplain.count⟩
  · rw [if_neg hdummy]
    exact ⟨hplain.undeclared, hplain.unused, hplain.count⟩

lemma Regular.bareReturn :
    Regular counts [] (bareReturn span results) := by
  refine .forM_silent fun r => .entities fun s => .before .lookup fun found => ?_
  cases found with
  | none => exact .pure _
  | some other => exact .ite (.pure _) (.emit (plain_hiddenResult ..))

lemma Regular.returnStmt (span : Span) (es : List Expr) :
    Regular true (exprsNames true es) (returnStmt span es) := by
  refine .reading (fun _ _ => rfl) fun c => ?_
  cases c.context.sig with
  | none => exact .silent (.report rfl)
  | some sig => exact .ite (.silent .bareReturn) (.ite (.initVars _ es _) (.silent (.pure _)))

lemma Regular.openScope : Regular counts [] (openScope span) :=
  .reading (fun _ _ => rfl) fun _ =>
    .before .newScope fun _ => .before .recordScope fun _ => .move _

lemma Regular.closeScope : Regular counts [] closeScope :=
  .reading (fun _ _ => rfl) fun _ => .move _

lemma Regular.within {context : Context} (h : Regular counts is m) :
    Regular counts is (within context m) := by
  refine .reading (fun _ _ => rfl) fun _ => ?_
  exact .before (.move _) fun _ => h.after fun _ => .before (.move _) fun _ => .pure _

lemma Regular.observeStmt {s : Stmt} (hrun : RegularBodies run)
    (h : Regular true is m) : Regular true is (observeStmt run s m) := by
  have hsettle : Regular true (is ++ []) (deferredCount >>= fun top => m >>= fun _ =>
      runDeferred run top >>= fun _ => Pass.unindentTrace >>= fun _ => Pass.note (.leaveStmt s)) :=
    .settle hrun h fun _ => .before .unindentTrace fun _ => .note _
  rw [List.append_nil] at hsettle
  exact .before (.note _) fun _ => .before (.traceLine _) fun _ =>
    .before .indentTrace fun _ => hsettle

mutual

theorem Regular.act (hrun : RegularBodies run) (s : Stmt) :
    Regular true (s.names true) (s.act run) := by
  cases s with
  | empty span => exact .silent (.pure _)
  | block span body => exact .enterBlock hrun body
  | var span specs => exact .specs .varSpec specs
  | const span specs => exact .specs .constSpec specs
  | short span lhs rhs => exact .shortDecl hrun span lhs rhs
  | assign span lhs rhs => exact .assignVars lhs rhs
  | ret span es => exact .returnStmt span es
  | expr span e => exact .exprStmt e

theorem Regular.enterBlock (hrun : RegularBodies run) (b : BlockOf Stmt) :
    Regular true (blockNames true b) (enterBlock run b) := by
  cases b with
  | mk stmts span =>
    simp only [GoCheck.enterBlock, blockNames]
    exact .before .openScope fun _ =>
      .after (.checkStmts hrun stmts) fun _ => .closeScope

theorem Regular.checkStmts (hrun : RegularBodies run) (ss : List Stmt) :
    Regular true (stmtsNames true ss) (checkStmts run ss) := by
  cases ss with
  | nil =>
    simp only [GoCheck.checkStmts, stmtsNames]
    exact .pure _
  | cons s ss =>
    simp only [GoCheck.checkStmts, stmtsNames]
    rw [Stmt.check_eq]
    exact .bind (.observeStmt hrun (.act hrun s)) fun _ => .checkStmts hrun ss

end

lemma Regular.check (hrun : RegularBodies run) (s : Stmt) :
    Regular true (s.names true) (s.check run) := by
  rw [Stmt.check_eq]
  exact .observeStmt hrun (.act hrun s)

lemma Regular.functionBody (hrun : RegularBodies run) (title : String) (d : Deferred) :
    Regular true (blockNames true d.body) (functionBody run title d) := by
  obtain ⟨sig, scope, stmts, span⟩ := d
  have hreturn : Regular true [] (checkReturn sig ⟨stmts, span⟩) :=
    .entities fun _ => .ite (.report rfl) (.pure _)
  refine .before (.traceLine _) fun _ => .within ?_
  exact .after (.checkStmts hrun stmts) fun _ => hreturn.before fun _ => .usage _

lemma Regular.literalBody (n : Nat) (d : Deferred) :
    Regular true (blockNames true d.body) (literalBody n d) := by
  induction n generalizing d with
  | zero => exact .silent (.pure _)
  | succ n ih => exact .before (.note _) fun _ => .after (.functionBody ih _ d) fun _ => .note _

lemma Regular.checkLiteral (d : Deferred) :
    Regular true (blockNames true d.body) (checkLiteral d) :=
  .literalBody _ d

end GoCheck
