import GoCheck.Proofs.Course

/-!
# Regular passes

A pass is regular if it is put together from single steps and readings of the state. The
configuration only decides whether it traces and reports unused variables. It comes with the names
that it may find undeclared, as often as it looks them up; what it puts off counts in full.
-/

namespace GoCheck

variable {p : Problem} {id : Nat} {name : Option Ident} {i : Ident} {k l : Fault}

mutual

/-- The names in a type expression. -/
def TypeExpr.names : TypeExpr → List Ident
  | .name _ i => [i]
  | .pointer _ elem | .slice _ elem | .chan _ _ elem => elem.names
  | .map _ key value => key.names ++ value.names
  | .func _ sig => sigNames sig

def sigNames : FuncSigOf TypeExpr → List Ident
  | ⟨params, results, _, _⟩ => paramsNames params ++ paramsNames results

def paramsNames : List (ParamOf TypeExpr) → List Ident
  | [] => []
  | p :: ps => paramNames p ++ paramsNames ps

def paramNames : ParamOf TypeExpr → List Ident
  | ⟨_, type, _⟩ => type.names

end

mutual

/-- The names that an expression looks up, in order, also in literals; with `again`, twice in the
base of a selector as a target. -/
def Expr.names (again : Bool) : Expr → List Ident
  | .ident _ i => [i]
  | .lit .. => []
  | .paren _ e | .selector _ e _ | .unary _ _ e | .receive _ e => e.names again
  | .index _ e i => e.names again ++ i.names again
  | .call _ f args _ => f.names again ++ exprsNames again args
  | .assert _ e type => e.names again ++ type.names
  | .funcLit _ sig body => sigNames sig ++ blockNames again body

def exprsNames (again : Bool) : List Expr → List Ident
  | [] => []
  | e :: es => e.names again ++ exprsNames again es

/-- The names in the targets of an assignment. -/
def targetsNames (again : Bool) : List Expr → List Ident
  | [] => []
  | .selector _ base _ :: ls =>
    base.names again ++ (if again then base.names again else []) ++ targetsNames again ls
  | l :: ls => l.names again ++ targetsNames again ls

/-- The names in specifications. -/
def specsNames (again : Bool) : List (SpecOf Expr) → List Ident
  | [] => []
  | spec :: specs => specNames again spec ++ specsNames again specs

/-- The names in the type and the values of a specification. -/
def specNames (again : Bool) : SpecOf Expr → List Ident
  | ⟨_, type, values, _⟩ => type.elim [] TypeExpr.names ++ exprsNames again values

/-- The names in a statement. -/
def Stmt.names (again : Bool) : Stmt → List Ident
  | .empty _ => []
  | .block _ body => blockNames again body
  | .var _ specs | .const _ specs => specsNames again specs
  | .short _ lhs rhs => exprsNames again lhs ++ exprsNames again rhs
  | .assign _ lhs rhs => exprsNames again rhs ++ targetsNames again lhs
  | .ret _ values => exprsNames again values
  | .expr _ e => e.names again

def blockNames (again : Bool) : BlockOf Stmt → List Ident
  | ⟨stmts, _⟩ => stmtsNames again stmts

def stmtsNames (again : Bool) : List Stmt → List Ident
  | [] => []
  | s :: ss => s.names again ++ stmtsNames again ss

end

variable (again : Bool)

/-- The names in a target: with `again`, those in the base of a selector twice. -/
def targetNames (l : Expr) : List Ident := targetsNames again [l]

lemma targetsNames_cons (l : Expr) (ls : List Expr) :
    targetsNames again (l :: ls) = targetNames again l ++ targetsNames again ls := by
  cases l <;> simp [targetNames, targetsNames]

lemma names_sublist_targetNames (l : Expr) : (l.names again).Sublist (targetNames again l) := by
  cases l <;> simp [targetNames, targetsNames, Expr.names]

lemma exprsNames_sublist_targetsNames (ls : List Expr) :
    (exprsNames again ls).Sublist (targetsNames again ls) := by
  induction ls with
  | nil => exact .slnil
  | cons l ls ih =>
    rw [targetsNames_cons, exprsNames]
    exact (names_sublist_targetNames again l).append ih

def Diagnostic.isOf (d : Diagnostic) (k : Fault) : Bool := d.code = some k.code

/-- A report of a wrong number of values, results or arguments. -/
def Diagnostic.isCount (d : Diagnostic) : Bool :=
  d.isOf .wrongAssignCount || d.isOf .wrongResultCount || d.isOf .wrongArgCount

/-- A report of neither undeclared names nor unused variables, nor of counts unless allowed. -/
structure Diagnostic.Plain (counts : Bool) (d : Diagnostic) : Prop where
  undeclared : d.isOf .undeclaredName = false
  unused : d.isOf .unusedVar = false
  count : counts = false → d.isCount = false

/-- Faults whose reports are plain. -/
def Fault.isPlain (counts : Bool) (k : Fault) : Bool :=
  k != .undeclaredName && k != .unusedVar && (!k.isCount || counts)

lemma Fault.OfValue.isPlain (h : k.OfValue) : k.isPlain counts := by
  have hunused : k != .unusedVar := by
    apply bne_iff_ne.mpr
    rintro rfl
    cases h.isError
  simp [Fault.isPlain, hunused, h.notUndeclared, h.notCount]

namespace Problem

lemma isOf_report (p : Problem) (span : Span) (k : Fault) :
    (p.report span).isOf k = decide (p.fault = k) := by
  apply decide_eq_decide.mpr
  constructor
  · intro h
    exact Fault.code_inj (Option.some.inj h)
  · rintro rfl
    rfl

lemma isCount_report (p : Problem) (span : Span) : (p.report span).isCount = p.fault.isCount := by
  simp only [Diagnostic.isCount, isOf_report]
  cases p.fault <;> rfl

lemma plain_report (span : Span) (h : p.fault.isPlain counts) : (p.report span).Plain counts := by
  simp only [Fault.isPlain, Bool.and_eq_true, Bool.or_eq_true, Bool.not_eq_true', bne_iff_ne] at h
  obtain ⟨⟨hname, hused⟩, hcount⟩ := h
  refine ⟨?_, ?_, fun hno => ?_⟩
  · simpa [isOf_report] using hname
  · simpa [isOf_report] using hused
  · rw [isCount_report]
    simpa [hno] using hcount

end Problem

/-- States that look the same to a regular pass. -/
structure Checker.Alike (c d : Checker) : Prop where
  store : c.store = d.store
  package : c.package = d.package
  context : c.context = d.context
  deferred : c.deferred = d.deferred

open Pass

/-- Regular passes, with names they may find undeclared, and wrong counts if `counts` allows. -/
inductive Regular (counts : Bool) : {α : Type} → List Ident → Pass α → Prop where
  | pure (a : α) : Regular counts [] (Pure.pure a : Pass α)
  | bind {m : Pass α} {f : α → Pass β} :
      Regular counts is m → (∀ a, Regular counts js (f a)) → Regular counts (is ++ js) (m >>= f)
  | weaken {m : Pass α} :
      Regular counts is m → is.Sublist js → Regular counts js m
  /-- A reading of what alike states have in common. -/
  | read {f : Checker → Pass α} :
      (∀ c d, c.Alike d → f c = f d) → (∀ c, Regular counts is (f c)) →
      Regular counts is (current >>= f)
  /-- Changes of the entities and of what is recorded, each by itself. -/
  | build (b : Build α) (h : ∀ s : Store, s.Step (b s).2) :
      Regular counts [] (Pass.build b h)
  | store (f : Store → Store) (h : ∀ c : Checker, c.Step { c with store := f c.store }) :
      Regular counts [] (step (fun c => { c with store := f c.store }) h)
  | info (f : Info → Info) (h : ∀ c : Checker, c.Step { c with info := f c.info }) :
      Regular counts [] (step (fun c => { c with info := f c.info }) h)
  | emit : d.Plain counts → Regular counts [] (Pass.emit d)
  | undefined (i : Ident) : Regular counts [i] (report (.undefined i.text) i.span)
  /-- What the configuration turns on and off. -/
  | usage (scope : ScopeId) : Regular counts [] (checkUsage scope)
  | traceLine (line : Store → String) : Regular counts [] (Pass.traceLine line)
  | indentTrace : Regular counts [] Pass.indentTrace
  | unindentTrace : Regular counts [] Pass.unindentTrace
  | log : e.isTrace = false → Regular counts [] (logEvent e)
  | move (context : Context) : Regular counts [] (Pass.move context)
  | note (h : Happening) : Regular counts [] (Pass.note h)
  | defer (d : Deferred) : Regular counts (blockNames true d.body) (Pass.defer d)
  /-- A pass after which the bodies that it put off are checked. -/
  | settle {run : Deferred → Pass Unit} {m : Pass α}
      {f : α → Pass β} : (∀ d, Regular counts (blockNames true d.body) (run d)) →
      Regular counts is m → (∀ a, Regular counts js (f a)) →
      Regular counts (is ++ js)
        (deferredCount >>= fun top => m >>= fun a => runDeferred run top >>= fun _ => f a)

namespace Regular

lemma silent (hm : Regular counts [] m) : Regular counts is m := hm.weaken (List.nil_sublist is)

lemma before (hm : Regular counts [] m) (hf : ∀ a, Regular counts is (f a)) :
    Regular counts is (m >>= f) :=
  .bind hm hf

lemma after (hm : Regular counts is m) (hf : ∀ a, Regular counts [] (f a)) :
    Regular counts is (m >>= f) := by
  have h : Regular counts (is ++ []) (m >>= f) := .bind hm hf
  rwa [List.append_nil] at h

lemma ite {p : Prop} [Decidable p] {n : Pass α} (hm : Regular counts is m)
    (hn : Regular counts is n) : Regular counts is (if p then m else n) := by
  by_cases hp : p
  · rwa [if_pos hp]
  · rwa [if_neg hp]

lemma discard (hm : Regular counts is m) : Regular counts is (Functor.discard m) :=
  hm.after fun _ => .pure _

variable {l : List α}

lemma forM (h : ∀ a ∈ l, Regular counts (names a) (g a)) :
    Regular counts (l.flatMap names) (l.forM g) := by
  induction l with
  | nil => exact .pure _
  | cons a l ih => exact .bind (h a (by simp)) fun _ => ih fun b hb => h b (by simp [hb])

lemma forM_silent (h : ∀ a, Regular counts [] (g a)) : Regular counts [] (l.forM g) := by
  induction l with
  | nil => exact .pure _
  | cons a l ih => exact (h a).before fun _ => ih

lemma mapM (h : ∀ a ∈ l, Regular counts (names a) (f a)) :
    Regular counts (l.flatMap names) (l.mapM f) := by
  induction l with
  | nil => exact .pure _
  | cons a l ih =>
    rw [List.mapM_cons]
    have hrest := ih fun b hb => h b (by simp [hb])
    exact .bind (h a (by simp)) fun _ => hrest.after fun _ => .pure _

lemma mapM_silent (h : ∀ a, Regular counts [] (f a)) : Regular counts [] (l.mapM f) := by
  induction l with
  | nil => exact .pure _
  | cons a l ih =>
    rw [List.mapM_cons]
    exact (h a).before fun _ => ih.after fun _ => .pure _

lemma optionForM {o : Option α} (h : ∀ a, Regular counts [] (g a)) :
    Regular counts [] (o.forM g) := by
  cases o with
  | none => exact .pure _
  | some a => exact h a

lemma reading {f : Checker → Pass β} (hreads : ∀ c d : Checker,
      f { d with store := c.store, package := c.package, context := c.context } = f c)
    (hf : ∀ c, Regular counts is (f c)) : Regular counts is (current >>= f) := by
  refine .read (fun c d h => ?_) hf
  rw [← hreads, h.store, h.package, h.context]

lemma entities {f : Store → Pass β} (hf : ∀ s, Regular counts is (f s)) :
    Regular counts is (Pass.entities >>= f) := by
  have heq : Pass.entities >>= f = current >>= fun c => f c.store := rfl
  rw [heq]
  exact .reading (fun _ _ => rfl) fun c => hf c.store

end Regular

section

variable {ty : Ty} {type : Option TypeId} {o : ObjectId}

lemma Regular.newType {h : ty.isComposed} : Regular counts [] (newType ty h) := .build ..

lemma Regular.newVar : Regular counts [] (newVar span package text type) := .build ..

lemma Regular.newParam : Regular counts [] (newParam span package text type) := .build ..

lemma Regular.newConst : Regular counts [] (newConst span package text type v) :=
  .build ..

lemma Regular.newFunc : Regular counts [] (newFunc span package text type) := .build ..

lemma Regular.newScope : Regular counts [] (newScope parent span comment isFunc) :=
  .build ..

lemma Regular.bindIn : Regular counts [] (bindIn s o) := .build ..

lemma Regular.setUsed : Regular counts [] (setUsed o used) :=
  .store (·.modifyObject o (·.setUsed used)) _

lemma Regular.markUsed : Regular counts [] (markUsed o) := .setUsed

lemma Regular.giveType : Regular counts [] (giveType o t) :=
  .store (·.modifyObject o (·.giveType t)) _

lemma Regular.invalidateMissing : Regular counts [] (invalidateMissing o) := .giveType

lemma Regular.setValue : Regular counts [] (setValue o v) :=
  .store (·.modifyObject o (·.setValue v)) _

lemma Regular.setVisible : Regular counts [] (setVisible o n) :=
  .store (·.modifyObject o ({ · with visibleFrom := n })) _

lemma Regular.onRecords {g : Records → Records} : Regular counts [] (onRecords g) :=
  .info (fun i => { i with types := g i.types }) _

lemma Regular.recordFailed : Regular counts [] (recordFailed id) :=
  .info (fun i => { i with failed := id :: i.failed }) _

lemma Regular.recordConversion {x : Conversion} : Regular counts [] (recordConversion x) :=
  .info (fun i => { i with conversions := x :: i.conversions }) _

lemma Regular.recordDef {o : Option ObjectId} : Regular counts [] (recordDef span o) :=
  .info (fun i => { i with defs := i.defs.insert span o }) _

lemma Regular.recordUse : Regular counts [] (recordUse span o) :=
  .info (fun i => { i with uses := i.uses.insert span o }) _

lemma Regular.recordScope : Regular counts [] (recordScope span s) :=
  .info (fun i => { i with scopes := i.scopes.insert span s }) _

lemma Regular.report (h : p.fault.isPlain counts) : Regular counts [] (report p span) :=
  .emit (Problem.plain_report span h)

lemma Regular.refuse (h : p.fault.isPlain counts) :
    Regular counts [] (Pass.report p span >>= fun _ => Pure.pure a) :=
  .before (.report h) fun _ => .pure _

lemma Regular.probe_bind {ask : Store → Probe α}
    (h : ∀ s, Regular counts is (f ((ask s).run []).1)) : Regular counts is (probe ask >>= f) := by
  have heq : probe ask >>= f = Pass.entities >>= fun s =>
      (((ask s).run []).2.forM fun m => logEvent (.missingMethod m)) >>= fun _ =>
        f ((ask s).run []).1 := rfl
  rw [heq]
  exact .entities fun s => .before (.forM_silent fun _ => .log rfl) fun _ => h s

lemma Regular.describe {x : Operand} : Regular counts [] (describe x) :=
  .entities fun _ => .pure _

lemma Regular.typeText : Regular counts [] (typeText t) :=
  .entities fun _ => .pure _

lemma Regular.lookup : Regular counts [] (lookup text) :=
  .reading (fun _ _ => rfl) fun _ => .before (.note _) fun _ => .pure _

lemma Regular.isLocalVar : Regular counts [] (isLocalVar o) :=
  .reading (fun _ _ => rfl) fun _ => .pure _

lemma Regular.localVar? : Regular counts [] (localVar? i) := by
  refine .before .lookup fun o => ?_
  cases o with
  | none => exact .pure _
  | some o => exact .before .isLocalVar fun _ => .pure _

lemma plain_redeclaration (o other : Object) : (redeclaration o other).Plain counts := by
  have hplain : ((Problem.redeclared o.name).report o.span).Plain counts :=
    Problem.plain_report o.span rfl
  unfold redeclaration
  by_cases hdummy : other.span.isDummy
  · rwa [if_pos hdummy]
  · rw [if_neg hdummy]
    exact ⟨hplain.undeclared, hplain.unused, hplain.count⟩

lemma Regular.declare : Regular counts [] (declare s name o n) := by
  refine .entities fun store => ?_
  have hdef : Regular counts [] (name.forM fun i => Pass.recordDef i.span (some o)) :=
    .optionForM fun _ => .recordDef
  refine .ite (.before (.pure _) fun clash => ?_) (.before .bindIn fun clash => ?_)
  all_goals cases clash with
    | some other => exact .before (.emit (plain_redeclaration _ _)) fun _ => .note _
    | none => exact .ite hdef (.before .setVisible fun _ => hdef)

lemma Regular.tupleOf : Regular counts [] (tupleOf ts) :=
  .before (.mapM_silent fun _ => .newParam) fun _ => .newType

end

lemma Regular.resolveType : Regular counts [i] i.resolveType := by
  refine .ite (.silent (.before (.report rfl) fun _ => .pure _)) ?_
  refine .before .lookup fun o => ?_
  cases o with
  | none => exact .after (.undefined i) fun _ => .pure _
  | some o =>
    refine .silent (.before .recordUse fun _ => .entities fun s => .ite (.pure _) ?_)
    exact .refuse rfl

lemma Regular.declareParam : Regular counts [] (declareParam s n name span t) := by
  refine .reading (fun _ _ => rfl) fun _ => ?_
  cases name with
  | none => exact .newParam
  | some i => exact .before .newParam fun _ => .before .declare fun _ => .pure _

mutual

theorem Regular.resolve (e : TypeExpr) : Regular counts e.names e.resolve := by
  cases e with simp only [TypeExpr.resolve, TypeExpr.names]
  | name span i => exact .resolveType
  | pointer span elem | slice span elem | chan span dir elem =>
    exact .after (.resolve elem) fun _ => .newType
  | map span key value =>
    exact .bind (.resolve key) fun _ => .after (.resolve value) fun _ => .newType
  | func span sig => exact .after (.resolveSig sig) fun _ => .pure _

theorem Regular.resolveSig (sig : FuncSigOf TypeExpr) :
    Regular counts (sigNames sig) (resolveSig sig) := by
  cases sig with
  | mk params results variadic span =>
    simp only [GoCheck.resolveSig, sigNames]
    refine .reading (fun _ _ => rfl) fun _ => ?_
    refine .before .newScope fun s => .before .recordScope fun _ => ?_
    refine .bind (.resolveParams s span.stop variadic params) fun _ => ?_
    refine .after (.resolveParams s span.stop false results) fun _ => ?_
    refine .before .newType fun _ => .before .newType fun _ => ?_
    exact .before .newType fun _ => .pure _

theorem Regular.resolveParams (s : ScopeId) (n : Nat) (variadic : Bool)
    (ps : List (ParamOf TypeExpr)) :
    Regular counts (paramsNames ps) (resolveParams s n variadic ps) := by
  cases ps with
  | nil =>
    simp only [GoCheck.resolveParams, paramsNames]
    exact .pure _
  | cons p ps =>
    simp only [GoCheck.resolveParams, paramsNames]
    exact .bind (.resolveParam s n _ p) fun _ =>
      .after (.resolveParams s n variadic ps) fun _ => .pure _

theorem Regular.resolveParam (s : ScopeId) (n : Nat) (collects : Bool) (p : ParamOf TypeExpr) :
    Regular counts (paramNames p) (resolveParam s n collects p) := by
  cases p with
  | mk name type span =>
    simp only [GoCheck.resolveParam, paramNames]
    refine .after (.resolve type) fun t => .ite ?_ ?_
    · exact .before .newType fun _ => .declareParam
    · exact .before (.pure _) fun _ => .declareParam

end

end GoCheck

/-! ## Evaluations -/

namespace GoCheck

open Pass

variable {e : Expr} {ps : List Pending} {index p : Pending} {id : Nat}

section

lemma Regular.singleValue : Regular counts [] (singleValue x) :=
  .entities fun _ => .ite (.refuse rfl) (.pure _)

lemma Regular.applyImplicit {i : Implicit} : Regular counts [] (applyImplicit x i) :=
  .entities fun _ => .before .onRecords fun _ => .pure _

lemma Regular.convertUntyped : Regular counts [] (convertUntyped x t) := by
  refine .entities fun s => ?_
  cases hi : s.implicit x t with
  | ok i => exact .applyImplicit
  | error k => exact (Regular.report (Store.implicit_error hi).isPlain).before fun _ => .pure _

lemma Regular.represent : Regular counts [] (represent x t) := by
  refine .entities fun s => ?_
  cases hr : s.represented x t with
  | ok v => exact .pure _
  | error k => exact (Regular.report (Store.represented_error hr).isPlain).before fun _ => .pure _

lemma Regular.assignUntyped :
    Regular counts [] (assignUntyped x old ot context) := by
  refine .entities fun s => ?_
  apply Regular.ite
  · exact Regular.refuse rfl
  · dsimp only
    cases s.implicit x (untypedTarget s x old ot) with
    | ok i => exact .before (.log rfl) fun _ => .applyImplicit
    | error k => exact .refuse (by cases k <;> rfl)

lemma Regular.reportGeneric : Regular counts [] (reportGeneric x context) :=
  .entities fun _ => .ite (.report rfl) (.pure _)

lemma Regular.assignTyped : Regular counts [] (assignTyped x t context) := by
  refine .probe_bind fun s => ?_
  cases hverdict : ((s.assign x t).run []).1 with
  | ok _ => exact .pure _
  | error r =>
    -- the kind of the refusal is known from the question that was asked
    have hfault := Store.refusesByError_assign s x t [] r hverdict
    exact .entities fun _ => .refuse hfault.isPlain

lemma Regular.assignConverted : Regular counts [] (assignConverted x ot context) := by
  refine .ite (.pure _) (.before .reportGeneric fun _ => ?_)
  cases ot with
  | none => exact .pure _
  | some t => exact .assignTyped

lemma Regular.assignValue : Regular counts [] (assignValue x ot context) := by
  refine .entities fun s => ?_
  split
  · exact .before .assignUntyped fun _ => .assignConverted
  · exact .assignConverted

lemma Regular.assignment : Regular counts [] (assignment x ot context) := by
  refine .before .singleValue fun y => ?_
  have hrefuse : Regular counts [] (Pass.entities >>= fun s =>
      Pass.report (.cannotAssign (y.describe s) (s.typeTextOf ot) context) y.span >>= fun _ =>
        Pure.pure y) :=
    .entities fun _ => .refuse rfl
  cases y.mode with
  | invalid => exact .pure _
  | noValue => exact hrefuse
  | typeExpr => exact hrefuse
  | _ => exact .assignValue

lemma Regular.refuseConversion :
    Regular counts [] (refuseConversion x t cause) :=
  .entities fun _ => .refuse rfl

lemma Regular.finishConversion :
    Regular counts [] (finishConversion wasConstant x t) :=
  .before (.optionForM fun _ => .recordConversion) fun _ =>
    .entities fun _ => .before .onRecords fun _ => .pure _

lemma Regular.convertConstant : Regular counts [] (convertConstant x v t) := by
  refine .entities fun s => ?_
  cases s.convertConstant? x v t with
  | some w => exact .finishConversion
  | none => exact .ite (.refuse rfl) .refuseConversion

lemma Regular.convertToTypeParam : Regular counts [] (convertToTypeParam x v t) := by
  refine .entities fun s => ?_
  dsimp only
  cases (s.terms t).find? fun term => (s.convertConstant? x v term).isNone with
  | some term => exact .refuseConversion
  | none => exact .ite .refuseConversion .finishConversion

lemma Regular.conversion : Regular counts [] (conversion x t) := by
  refine .entities fun s => ?_
  split
  · exact .convertConstant
  · exact .convertToTypeParam
  · refine .probe_bind fun s' => ?_
    cases ((s'.convert x t).run []).1 with
    | ok _ => exact .finishConversion
    | error cause => exact .refuseConversion

end

section

lemma Regular.record : Regular counts [] (record id x) := by
  unfold Pass.record
  split
  · exact .recordFailed
  · exact .onRecords
  · exact .onRecords
  · exact .pure _

lemma Regular.conclude : Regular counts [] (conclude e outcome) :=
  .before .record fun _ => .before .unindentTrace fun _ =>
    .before (.traceLine _) fun _ => .pure _

lemma Regular.observe (h : Regular counts is eval) : Regular counts is (observe e eval) :=
  .before (.traceLine _) fun _ => .before .indentTrace fun _ => h.after fun _ => .conclude

lemma Regular.asExpression (h : Regular counts is m) : Regular counts is (asExpression m) :=
  h.after fun _ => .pure _

lemma Regular.asStatement (h : Regular counts is m) : Regular counts is (asStatement m) :=
  h.after fun _ => .pure _

lemma Regular.exclude : Regular counts [] (exclude x allowType) := by
  refine .entities fun s => ?_
  dsimp only
  split
  · rename_i p hp
    have hfault : p.fault.isPlain counts := by split at hp <;> cases hp <;> rfl
    exact .refuse hfault
  · exact .pure _

lemma Regular.value (h : Regular counts is eval) : Regular counts is (value eval) :=
  h.after fun _ => .before .exclude fun _ => .singleValue

lemma Regular.valueOrType (h : Regular counts is eval) : Regular counts is (valueOrType eval) :=
  h.after fun _ => .before .exclude fun _ => .singleValue

lemma Regular.noteUse {o : ObjectId} : Regular counts [] (noteUse o) :=
  .before .isLocalVar fun _ => .ite .markUsed (.pure _)

lemma Regular.name {i : Ident} : Regular counts [i] (name i) := by
  refine .ite (.silent (.refuse rfl)) ?_
  refine .before .lookup fun o => ?_
  cases o with
  | none => exact .after (.undefined i) fun _ => .pure _
  | some o =>
    refine .silent (.before .recordUse fun _ => .entities fun s => ?_)
    exact .before .noteUse fun _ => .ite (.pure _) (.pure _)

lemma Regular.literal {kind : LitKind} :
    Regular counts [] (literal kind raw span) :=
  .before (.note _) fun _ => .ite (.refuse rfl) (.pure _)

lemma Regular.functionLiteral :
    Regular counts (sigNames sig ++ blockNames true body) (functionLiteral sig body) :=
  .bind (.resolveSig sig) fun r => .after (.defer ⟨r.1, r.2, body⟩) fun _ => .pure _

lemma Regular.reportSelection {r : Selection} : Regular counts [] (reportSelection x t sel r) := by
  refine .entities fun s => ?_
  refine .ite (.pure _) (.report ?_)
  cases r with
  | notFound | entry => dsimp only; split <;> rfl
  | ambiguous => rfl
  | badReceiver => rfl

lemma Regular.select (h : Regular counts is eval) : Regular counts is (select eval sel) := by
  refine .after (.value h) fun x => ?_
  split
  · exact .pure _
  · exact .pure _
  · refine .entities fun s => ?_
    split
    · exact .before .recordUse fun _ => .pure _
    · exact .before .reportSelection fun _ => .pure _

lemma Regular.checkIndex {length : Option Nat} (h : Regular counts is eval) :
    Regular counts is (checkIndex eval length) := by
  refine .after (.value h) fun _ => .before .convertUntyped fun x => ?_
  refine .ite (.pure _) (.entities fun s => ?_)
  cases hp : indexProblem? s x length with
  | none => exact .pure _
  | some p => exact .report (by rw [indexProblem?_fault hp]; rfl)

lemma Regular.useOne (h : Regular counts is p.eval) :
    Regular counts is (Pass.useAll [p]) := by
  have hp : Regular counts is (if isBlank p.expr then Pure.pure () else Functor.discard p.eval) :=
    .ite (.silent (.pure _)) h.discard
  exact hp.after .pure

lemma Regular.indexInto (h : Regular counts is eval)
    (hindex : Regular counts js index.eval) : Regular counts (is ++ js) (indexInto eval index) := by
  refine .bind (.value h) fun x => ?_
  apply Regular.ite
  · exact .after (.useOne hindex) fun _ => .pure _
  · refine .entities fun s => ?_
    -- in each of the three cases the index is evaluated once
    cases indexing s x with
    | list mode elem length => exact .after (.checkIndex hindex) fun _ => .pure _
    | map key elem =>
      exact .after (.value hindex) fun _ => Regular.assignment.discard.before fun _ => .pure _
    | none => exact .before (.report rfl) fun _ => .after (.useOne hindex) fun _ => .pure _

lemma Regular.assertType {type : TypeExpr} (h : Regular counts is eval) :
    Regular counts (is ++ type.names) (assertType e eval type) := by
  refine .bind (.value h) fun x => ?_
  split
  · exact .silent (.pure _)
  · exact .silent (.pure _)
  · refine .entities fun s => .ite (.silent (.refuse rfl)) ?_
    refine .ite (.silent (.refuse rfl)) ?_
    refine .after (.resolve type) fun t => .entities fun s => .ite (.pure _) ?_
    split
    · exact .before (.log rfl) fun _ => .refuse rfl
    · exact .pure _

lemma Regular.receive (h : Regular counts is eval) : Regular counts is (receive eval) := by
  refine .after (.value h) fun x => .ite (.pure _) (.entities fun s => ?_)
  split
  · exact .refuse rfl
  · exact .pure _
  · exact .refuse rfl

lemma Regular.pointee : Regular counts [] (pointee x) := by
  refine .entities fun s => ?_
  split
  · exact .pure _
  · exact .refuse rfl

lemma Regular.indirection (h : Regular counts is eval) : Regular counts is (indirection eval) := by
  refine .after (.valueOrType h) fun x => ?_
  split
  · exact .pure _
  · exact .before .newType fun _ => .pure _
  · exact .pointee

lemma Regular.addressOf : Regular counts [] (addressOf x t) :=
  .ite (.before .newType fun _ => .pure _) (.before .describe fun _ => .refuse rfl)

lemma Regular.arithmetic : Regular counts [] (arithmetic e op x t) := by
  refine .entities fun s => .ite (.refuse rfl) ?_
  cases x.mode with
  | constant v => exact .ite (.pure _) (.ite (.pure _) .represent)
  | _ => exact .pure _

lemma Regular.unary (h : Regular counts is eval) : Regular counts is (unary e op eval) := by
  refine .ite (.indirection h) (.after (.value h) fun x => ?_)
  split
  · exact .pure _
  · exact .pure _
  · exact .ite .addressOf .arithmetic

end

section

variable (h : ∀ p ∈ ps, Regular counts (p.expr.names true) p.eval)
include h

lemma Regular.useAll : Regular counts (ps.flatMap (·.expr.names true)) (useAll ps) :=
  .forM fun p hp => .ite (.silent (.pure _)) (h p hp).discard

lemma Regular.values :
    Regular counts (ps.flatMap (·.expr.names true)) (values ps pair) := by
  unfold Pass.values
  split
  · rename_i p
    rw [List.flatMap_singleton]
    have hp := h p (by simp)
    refine hp.after fun _ => .before .exclude fun _ => .entities fun _ => ?_
    dsimp only
    split <;> exact .pure _
  · exact .after (.mapM fun p hp => .value (h p hp)) fun _ => .pure _

end

section

variable {func : Expr}

lemma Regular.assignEach :
    Regular counts [] (assignEach context xs ts) := by
  induction xs generalizing ts with
  | nil => exact .pure _
  | cons x xs ih =>
    cases ts with
    | nil => exact .pure _
    | cons t ts => exact Regular.assignment.discard.before fun _ => ih

lemma isOf_argumentCountReport {s : Store} (k : Fault) :
    (argumentCountReport s e func params variadic args n).isOf k = decide (.wrongArgCount = k) :=
  Problem.isOf_report (.argumentCount (n < args.length) func.text) .dummy k

lemma Regular.arguments {sig : Signature} :
    Regular true [] (arguments e func ps spread sig args) := by
  refine .entities fun s => ?_
  dsimp only
  split
  · exact Regular.assignEach
  · apply Regular.emit
    exact ⟨isOf_argumentCountReport _, isOf_argumentCountReport _, fun h => by cases h⟩
  · exact Regular.report rfl
  · exact Regular.report rfl

variable (h : ∀ p ∈ ps, Regular true (p.expr.names true) p.eval)
include h

lemma Regular.conversionCall :
    Regular true (ps.flatMap (·.expr.names true)) (conversionCall e x ps spread) := by
  have huse := Regular.useAll h
  unfold Pass.conversionCall
  split
  · exact .before .typeText fun _ => .refuse rfl
  · rename_i p
    rw [List.flatMap_singleton]
    refine .after (.value (h p (by simp))) fun y => .ite (.pure _) (.ite ?_ .conversion)
    exact .before .typeText fun _ => .refuse rfl
  · refine huse.after fun _ => .before .typeText fun _ => ?_
    exact .refuse rfl

lemma Regular.refuseCall {p : Problem} (hp : p.fault.isPlain true) :
    Regular true (ps.flatMap (·.expr.names true)) (refuseCall p span x ps) :=
  .before (.report hp) fun _ => .after (.useAll h) fun _ => .pure _

lemma Regular.callFunction :
    Regular true (ps.flatMap (·.expr.names true)) (callFunction e func x ps spread) := by
  refine .entities fun s => ?_
  split
  · exact .refuseCall h rfl
  · refine .ite (.refuseCall h rfl) (.after (.values h) fun _ => ?_)
    exact .before .arguments fun _ => .entities fun _ => .pure _

lemma Regular.call (func : Pending) (hfunc : Regular true (func.expr.names true) func.eval) :
    Regular true (func.expr.names true ++ ps.flatMap (·.expr.names true))
      (call e func ps spread) := by
  refine .bind (.valueOrType hfunc) fun x => ?_
  split
  · exact .after (.useAll h) fun _ => .pure _
  · exact .after (.conversionCall h) fun _ => .pure _
  · exact .after (.callFunction h) fun _ => .pure _

end

lemma flatMap_pending (again : Bool) (es : List Expr) :
    (pending es).flatMap (·.expr.names again) = exprsNames again es := by
  induction es with
  | nil => rfl
  | cons e es ih => rw [pending, List.flatMap_cons, ih, exprsNames]

mutual

theorem Regular.eval (e : Expr) : Regular true (e.names true) e.eval := by
  cases e with simp only [Expr.eval, Expr.names]
  | ident n i => exact .observe (.asExpression .name)
  | lit n kind raw => exact .observe (.asExpression .literal)
  | funcLit n sig body => exact .observe (.asExpression .functionLiteral)
  | paren n inner => exact .observe (.eval inner)
  | selector n base sel => exact .observe (.asExpression (.select (.eval base)))
  | index n base index => exact .observe (.asExpression (.indexInto (.eval base) (.eval index)))
  | call n func args spread =>
    rw [← flatMap_pending]
    exact .observe (.call (.pending args) ⟨func, func.eval⟩ (.eval func))
  | assert n base type => exact .observe (.asExpression (.assertType (.eval base)))
  | unary n op operand => exact .observe (.asExpression (.unary (.eval operand)))
  | receive n channel => exact .observe (.asStatement (.receive (.eval channel)))

theorem Regular.pending (es : List Expr) :
    ∀ p ∈ pending es, Regular true (p.expr.names true) p.eval := by
  cases es with
  | nil => simp [GoCheck.pending]
  | cons e es =>
    simp only [GoCheck.pending, List.forall_mem_cons]
    exact ⟨.eval e, .pending es⟩

end

lemma Regular.evalValue (e : Expr) : Regular true (e.names true) e.evalValue :=
  .value (.eval e)

lemma Regular.useExprs (es : List Expr) :
    Regular true (exprsNames true es) (Pass.useAll (GoCheck.pending es)) := by
  rw [← flatMap_pending]
  exact .useAll (.pending es)

lemma Regular.evalAll (es : List Expr) (pair : Bool) :
    Regular true (exprsNames true es) (Pass.values (GoCheck.pending es) pair) := by
  rw [← flatMap_pending]
  exact .values (.pending es)

end GoCheck
