import GoCheck.Proofs.Regime.Statements

/-!
# Evaluations and the course of a check

All that evaluations do beyond quiet steps: records change, objects without a type get one, new
constants get values, and bodies of function literals are put off in new scopes. A statement that is
no block evaluates its expressions, checks the bodies that it has put off, and then at most declares
names in the current scope; a block and a body have a scope of their own. Properties that depend on
this order are proved by induction on the course.
-/

namespace GoCheck

variable {c : Checker} {F : Frontier} {L : Limits} {e : Expr} {s : Store} {id : Nat}

/-- Where new objects and scopes begin. -/
structure Frontier where
  objects : Nat
  scopes : Nat

/-- What an evaluation is held to: constants from `objects` on get values, names are bound from
`scopes` on and in `home`, and literals are nested less than `depth` deep. -/
structure Limits extends Frontier where
  depth : Nat
  home : ScopeId → Prop

/-- Names may be bound in a scope. -/
def Limits.Binds (L : Limits) (x : ScopeId) : Prop := L.scopes ≤ x.index ∨ L.home x

/-- All that is made from now on lies beyond a frontier. -/
structure Store.Past (s : Store) (F : Frontier) : Prop where
  objects : F.objects ≤ s.objects.size
  scopes : F.scopes ≤ s.scopes.size

lemma Store.Past.newIn (h : s.Past L.toFrontier) : s.NewIn L.Binds :=
  fun _ hx => .inl (le_trans h.scopes hx)

lemma Store.Past.newIn_scopes (h : s.Past F) : s.NewIn (F.scopes ≤ ·.index) :=
  fun _ => le_trans h.scopes

namespace Checker

variable {d : Checker}

def frontier (c : Checker) : Frontier := ⟨c.store.objects.size, c.store.scopes.size⟩

lemma past_frontier (c : Checker) : c.store.Past c.frontier := ⟨le_rfl, le_rfl⟩

lemma Steps.past (h : c.Steps d) (hc : c.store.Past F) : d.store.Past F :=
  ⟨le_trans hc.objects h.objects_size_le, le_trans hc.scopes h.scopes_size_le⟩

/-- One step of an evaluation. -/
inductive Act (L : Limits) : Checker → Checker → Prop where
  | quiet {c d : Checker} : c.QuietStep L.Binds d → Act L c d
  | giveType (c : Checker) (o : ObjectId) (t : TypeId) :
      Act L c { c with store := c.store.modifyObject o (·.giveType t) }
  | setValue (c : Checker) (o : ObjectId) (v : Constant) : L.objects ≤ o.index →
      Act L c { c with store := c.store.modifyObject o (·.setValue v) }
  | records (c : Checker) (types : Records) : Act L c { c with info := { c.info with types } }
  | converted (c : Checker) (x : Conversion) :
      Act L c { c with info := { c.info with conversions := x :: c.info.conversions } }
  | putOff (c : Checker) (d : Deferred) : L.scopes ≤ d.scope.index →
      d.scope.index < c.store.scopes.size → blockDepth d.body < L.depth →
      Act L c { c with deferred := c.deferred ++ [d], history := c.history.push (.putOff d) }

/-- Any number of acts. -/
abbrev Acts (L : Limits) : Checker → Checker → Prop := Relation.ReflTransGen (Act L)

lemma QuietSteps.acts (h : c.QuietSteps L.Binds d) : c.Acts L d := h.lift id fun _ _ => .quiet

/-- The states that evaluations lead to from a state. -/
structure ActsTo (L : Limits) (c d : Checker) : Prop where
  past : d.store.Past L.toFrontier
  acts : c.Acts L d

end Checker

namespace Pass

variable {m : Pass α} {f : α → Pass β}

/-- A pass that makes only steps of evaluations. -/
def Evaluates (L : Limits) (m : Pass α) : Prop :=
  ∀ c : Checker, c.store.Past L.toFrontier → c.Acts L (m.1 c).2

lemma Evaluates.of_isQuiet (hm : m.IsQuiet L.Binds) : m.Evaluates L :=
  fun c hc => (hm c hc.newIn).acts

lemma Evaluates.bind (hm : m.Evaluates L) (hf : ∀ a, (f a).Evaluates L) : (m >>= f).Evaluates L :=
  fun c hc => (hm c hc).trans (hf _ _ ((m.2 c).past hc))

lemma Evaluates.preserves (hm : m.Evaluates L) : m.Preserves (c.ActsTo L) :=
  preserves_of_state fun d hd => ⟨(m.2 d).past hd.past, hd.acts.trans (hm d hd.past)⟩

lemma Evaluates.of_preserves (h : ∀ c : Checker, m.Preserves (c.ActsTo L)) : m.Evaluates L :=
  fun c hc => ((h c).state c ⟨hc, .refl⟩).acts

lemma acts_of_isQuiet (hm : m.IsQuiet L.Binds) : m.Preserves (c.ActsTo L) :=
  (Evaluates.of_isQuiet hm).preserves

section

lemma Evaluates.onRecords : (onRecords g).Evaluates L :=
  fun c _ => .single (.records c _)

lemma acts_applyImplicit : (applyImplicit x i).Preserves (c.ActsTo L) :=
  maintains_entities fun _ => Evaluates.onRecords.preserves.before fun _ => preserves_pure _

lemma acts_finishConversion : (finishConversion wasConstant x t).Preserves (c.ActsTo L) := by
  have hrecord {conv : Conversion} : (recordConversion conv).Evaluates L :=
    fun c _ => .single (.converted c conv)
  exact (preserves_optionForM fun _ => hrecord.preserves).before fun _ =>
    maintains_entities fun _ => Evaluates.onRecords.preserves.before fun _ => preserves_pure _

lemma acts_newConst {package : Option PackageId} {name : String}
    : (newConst span package name t .unknown).Maintains (c.ActsTo L)
      fun o => ∀ v, (setValue o v).Preserves (c.ActsTo L) := by
  refine ⟨(acts_of_isQuiet .newConst).state, fun d hd v => Evaluates.preserves ?_⟩
  exact fun e _ => .single (.setValue e _ v hd.past.objects)

lemma isRedeclaration_of_code {d : Diagnostic} {k : Fault} (h : d.code = some k.code)
    (hk : k ≠ .duplicateDecl) : d.isRedeclaration = false :=
  decide_eq_false fun hcode =>
    hk (Fault.code_inj (Option.some.inj (h.symm.trans hcode)))

/-- All that evaluations are made of leads to states that evaluations lead to. -/
lemma acts_discipline : Discipline (c.ActsTo L) L.Binds (fun _ => True) fun _ => True where
  newIn hd := hd.past.newIn
  quiet hm _ := acts_of_isQuiet hm
  restoreUse _ _ hd := (acts_of_isQuiet .setUsed).state _ hd
  giveType := Evaluates.preserves fun d _ => .single (.giveType d _ _)
  newConst := acts_newConst
  declare hx := acts_of_isQuiet (.declare hx)
  emit _ hcode hk _ := acts_of_isQuiet (.emit (isRedeclaration_of_code hcode hk))
  report hp := acts_of_isQuiet (.report (Bool.and_eq_true_iff.mp hp).2)
  unpresentable _ _ hp := acts_of_isQuiet (.report hp)
  implicit _ _ := acts_applyImplicit.state _
  finish _ := acts_finishConversion
  accept _ _ _ := trivial
  reject _ := trivial
  invalidated _ := trivial
  missing := trivial

lemma acts_record : (record id x).Preserves (c.ActsTo L) := by
  unfold record
  split
  · exact acts_of_isQuiet .recordFailed
  · exact Evaluates.onRecords.preserves
  · exact Evaluates.onRecords.preserves
  · exact preserves_pure _

lemma resolveSig_scope (sig : FuncSig) (c : Checker) :
    ((resolveSig sig).1 c).1.2.index = c.store.scopes.size := by
  obtain ⟨params, results, variadic, span⟩ := sig
  simp only [resolveSig]
  exact Store.newScope_index ..

lemma resolveSig_scope_lt (sig : FuncSig) (c : Checker) :
    ((resolveSig sig).1 c).1.2.index < ((resolveSig sig).1 c).2.store.scopes.size := by
  rw [resolveSig_scope]
  obtain ⟨params, results, variadic, span⟩ := sig
  obtain ⟨rest, hrest⟩ : ∃ rest, (resolveSig ⟨params, results, variadic, span⟩).1 c =
      (newScope c.context.scope span "function" true >>= rest).1 c := by
    rw [resolveSig, current_bind_run]
    exact ⟨_, rfl⟩
  rw [hrest, bind_run]
  refine lt_of_lt_of_le ?_ ((rest _).2 _).scopes_size_le
  exact lt_of_lt_of_eq (Nat.lt_succ_self _) Store.newScope_scopes_size.symm

lemma Evaluates.functionLiteral (h : blockDepth body < L.depth) :
    (functionLiteral sig body).Evaluates L := by
  intro c hc
  refine (IsQuiet.resolveSig sig c hc.newIn).acts.tail (.putOff _ _ ?_ ?_ h)
  · exact le_trans hc.scopes (le_of_eq (resolveSig_scope sig c).symm)
  · exact resolveSig_scope_lt sig c

end

lemma literalDepth_le_of_mem (h : exprsDepth es ≤ n) : ∀ e ∈ es, e.literalDepth ≤ n := by
  induction es with
  | nil => simp
  | cons e es ih =>
    simp only [exprsDepth, Nat.max_le] at h
    exact List.forall_mem_cons.mpr ⟨h.1, ih h.2⟩

lemma acts_regime :
    Regime (c.ActsTo L) (.plain (c.ActsTo L) L.Binds (fun _ => True) fun _ => True) :=
  Discipline.regime acts_discipline

/-- The evaluation of expressions in which literals are not nested too deep. -/
lemma acts_evaluates : Regime.Evaluates (c.ActsTo L)
    (.plain (c.ActsTo L) L.Binds (fun _ => True) fun _ => True) fun e => e.literalDepth ≤ L.depth where
  toRegime := acts_regime
  parts {e} he := by
    cases e with
    | index n base index => exact Nat.max_le.mp he
    | call n func args spread => exact ⟨(Nat.max_le.mp he).1, literalDepth_le_of_mem (Nat.max_le.mp he).2⟩
    | assert n base type => exact ⟨he, type.collects_false⟩
    | ident | lit | funcLit => trivial
    | _ => exact he
  record hc _ _ := ⟨acts_record.state _ hc, trivial⟩
  recordPair hc _ _ := ⟨Evaluates.onRecords.preserves.state _ hc, trivial⟩
  putOff he _ hc :=
    ⟨(Evaluates.functionLiteral he).preserves.state _ hc, fun _ _ => trivial, fun _ => trivial⟩
  given _ := trivial
  vouched _ := trivial

section

variable {spec : Spec}

lemma acts_sources (h : exprsDepth es ≤ L.depth) : Sources (c.ActsTo L)
    (.plain (c.ActsTo L) L.Binds (fun _ => True) fun _ => True) es :=
  Regime.Evaluates.sources acts_evaluates (literalDepth_le_of_mem h)

lemma Evaluates.of_always {Q : Checker → α → Fact} (h : ∀ c, m.Always (c.ActsTo L) (Q c)) :
    m.Evaluates L :=
  .of_preserves fun c => Always.preserves (h c)

lemma Evaluates.useAll (h : exprsDepth es ≤ L.depth) : (useAll (pending es)).Evaluates L :=
  .of_always fun _ _ hd => Regime.useAll hd (keeps_of_mem_pending (acts_sources h).eval)

lemma Evaluates.assignVars (hl : exprsDepth ls ≤ L.depth) (hr : exprsDepth rs ≤ L.depth) :
    (assignVars ls rs).Evaluates L :=
  .of_always fun _ _ hd => Regime.assignVars acts_regime hd
    (fun l hmem => Regime.Evaluates.target acts_evaluates (literalDepth_le_of_mem hl l hmem))
    (acts_sources hr)

lemma Evaluates.makeVars (h : exprsDepth spec.values ≤ L.depth) : (makeVars spec).Evaluates L :=
  .of_always fun _ _ hd =>
    Regime.makeVars acts_regime hd (acts_sources h) fun e _ => e.collects_false

lemma Evaluates.makeConsts (h : exprsDepth spec.values ≤ L.depth) : (makeConsts spec).Evaluates L :=
  .of_always fun _ _ hd =>
    Regime.makeConsts acts_regime hd (acts_sources h).eval fun e _ => e.collects_false

lemma Evaluates.shortInit (hl : exprsDepth ls ≤ L.depth) (hr : exprsDepth rs ≤ L.depth) :
    (shortInit x ls rs).Evaluates L :=
  .of_always fun _ _ hd =>
    Regime.shortInit acts_regime hd (acts_sources hl).eval (acts_sources hr)

lemma Evaluates.exprStmt (h : e.literalDepth ≤ L.depth) : (exprStmt e).Evaluates L :=
  .of_always fun _ _ hd =>
    Regime.exprStmt acts_regime hd (Regime.Evaluates.keeps acts_evaluates h)

lemma Evaluates.returnStmt (h : exprsDepth es ≤ L.depth) : (returnStmt span es).Evaluates L :=
  .of_always fun _ _ hd => Regime.returnStmt acts_regime hd (acts_sources h)

end

end Pass

end GoCheck

/-! ## The course of a check -/

namespace GoCheck

open List Checker Store

variable {c d f : Checker} {L : Limits} {F : Frontier} {spec : Spec} {inits : List Expr}
  {span : Span} {body : Block}

/-- What is to be checked. -/
inductive Task where
  | stmt (s : Stmt)
  /-- Statements in order. -/
  | stmts (ss : List Stmt)
  /-- The body of a function literal that was put off. -/
  | body (d : Deferred)
  /-- Bodies that were put off, in order. -/
  | bodies (ds : List Deferred)

def Stmt.isBlock : Stmt → Bool
  | .block .. => true
  | _ => false

namespace Checker

/-- Where a declaration binds its names. -/
def declarationScope (c : Checker) : ScopeId := c.context.scope.getD c.packageScope

/-- The state in which something more has been done. -/
def noted (c : Checker) (h : Happening) : Checker := { c with history := c.history.push h }

/-- What a statement is held to beyond a frontier. -/
def limits (c : Checker) (F : Frontier) (s : Stmt) : Limits :=
  { F with depth := s.literalDepth, home := (· = c.declarationScope) }

/-- How a check goes through what is to be checked. -/
inductive Course (F : Frontier) : Task → Checker → Checker → Prop where
  | nil (c : Checker) : Course F (.stmts []) c c
  | cons {c d e : Checker} :
      Course F (.stmt s) c d → Course F (.stmts ss) d e → Course F (.stmts (s :: ss)) c e
  /-- A block in a new scope inside the current one. -/
  | block {span : Span} {body : Block} {x : ScopeId} {c d e f : Checker} :
      (c.noted (.enterStmt (.block span body))).QuietSteps (F.scopes ≤ ·.index) d →
      F.scopes ≤ x.index → x.index < d.store.scopes.size →
      Course F (.stmts body.stmts) { d with context := { c.context with scope := some x } } e →
      { e with context := c.context }.QuietSteps (F.scopes ≤ ·.index) f →
      Course F (.stmt (.block span body)) c (f.noted (.leaveStmt (.block span body)))
  /-- Any other statement: its expressions, the bodies put off, and declarations. -/
  | plain {c d e f : Checker} : s.isBlock = false →
      (c.noted (.enterStmt s)).Acts (c.limits F s) d → d.deferred = c.deferred ++ ds →
      Course F (.bodies ds) d e →
      { e with deferred := c.deferred }.QuietSteps (c.limits F s).Binds f →
      Course F (.stmt s) c (f.noted (.leaveStmt s))
  /-- A body in the scope of its parameters. -/
  | body {c d e f : Checker} :
      F.scopes ≤ x.scope.index → (c.noted (.enterBody x)).QuietSteps (F.scopes ≤ ·.index) d →
      Course F (.stmts x.body.stmts) { d with context := ⟨some x.scope, some x.sig⟩ } e →
      e.QuietSteps (F.scopes ≤ ·.index) f →
      Course F (.body x) c ({ f with context := c.context }.noted (.leaveBody x))
  | none (c : Checker) : Course F (.bodies []) c c
  | next {c d e : Checker} :
      Course F (.body x) c d → Course F (.bodies ds) d e → Course F (.bodies (x :: ds)) c e

section

lemma QuietStep.context_eq (h : c.QuietStep W d) : d.context = c.context := by
  cases h <;> rfl

lemma QuietStep.deferred_eq (h : c.QuietStep W d) : d.deferred = c.deferred := by
  cases h <;> rfl

lemma QuietSteps.context_eq (h : c.QuietSteps W d) : d.context = c.context := by
  induction h with
  | refl => rfl
  | tail _ hstep ih => exact hstep.context_eq.trans ih

lemma QuietSteps.deferred_eq (h : c.QuietSteps W d) : d.deferred = c.deferred := by
  induction h with
  | refl => rfl
  | tail _ hstep ih => exact hstep.deferred_eq.trans ih

lemma QuietStep.steps (h : c.QuietStep W d) : c.Steps d := by
  cases h with
  | newType t ht => exact .single (.store (.newType _ t ht))
  | newObject o => exact .single (.store (.newObject _ o))
  | newScope => exact .single (.store (.newScope ..))
  | bind x o => exact .single (.store (.bind _ x o))
  | setVisible o n => exact .single (.store (.setVisible _ o n))
  | setUsed o used => exact .single (.store (.setUsed _ o used))
  | emit r => exact .single (.emit _ r)
  | log e => exact .single (.log _ e)
  | indent n => exact .single (.indent _ n)
  | failed id => exact .single (.failed _ id)
  | names defs uses scopes => exact .single (.names _ defs uses scopes)
  | lookup name => exact .single (.happen _ _)
  | literal kind raw => exact .single (.happen _ _)
  | clash x o other => exact .tail (.single (.emit _ _)) (.happen _ _)

lemma QuietSteps.steps (h : c.QuietSteps W d) : c.Steps d := by
  induction h with
  | refl => exact .refl c
  | tail _ hstep ih => exact ih.trans hstep.steps

lemma Act.steps (h : c.Act L d) : c.Steps d := by
  cases h with
  | quiet hq => exact hq.steps
  | giveType o t => exact .single (.store (.giveType _ o t))
  | setValue o v => exact .single (.store (.setValue _ o v))
  | records types => exact .single (.records _ types)
  | converted x => exact .single (.converted _ x)
  | putOff x => exact .single (.defer _ x)

lemma Acts.steps (h : c.Acts L d) : c.Steps d := by
  induction h with
  | refl => exact .refl c
  | tail _ hstep ih => exact ih.trans hstep.steps

lemma Act.context_eq (h : c.Act L d) : d.context = c.context := by
  cases h with
  | quiet hq => exact hq.context_eq
  | _ => rfl

lemma Acts.context_eq (h : c.Acts L d) : d.context = c.context := by
  induction h with
  | refl => rfl
  | tail _ hstep ih => exact hstep.context_eq.trans ih

/-- Steps stay in the same package and make no other. -/
lemma Steps.package_eq (h : c.Steps d) :
    d.package = c.package ∧ d.store.packages = c.store.packages := by
  refine h.keep (P := fun d => d.package = c.package ∧ d.store.packages = c.store.packages)
    (fun hstep hd => ?_) ⟨rfl, rfl⟩
  cases hstep with
  | store hs =>
    refine ⟨hd.1, Eq.trans ?_ hd.2⟩
    cases hs with
    | newScope parent =>
      simp only [Build.newScope]
      split
      · split <;> rfl
      · rfl
    | bind x o =>
      simp only [Store.bind]
      split <;> rfl
    | _ => rfl
  | _ => exact hd

lemma Steps.packageScope_eq (h : c.Steps d) : d.packageScope = c.packageScope := by
  simp only [packageScope, Store.package, h.package_eq]

lemma Acts.declarationScope_eq (h : c.Acts L d) : d.declarationScope = c.declarationScope := by
  simp only [declarationScope, h.context_eq, h.steps.packageScope_eq]

lemma QuietSteps.declarationScope_eq (h : c.QuietSteps W d) :
    d.declarationScope = c.declarationScope := by
  simp only [declarationScope, h.context_eq, h.steps.packageScope_eq]

/-- What an evaluation has put off comes after what was put off before. -/
lemma Acts.deferred_eq (h : c.Acts L d) : ∃ ds, d.deferred = c.deferred ++ ds ∧
    ∀ x ∈ ds, L.scopes ≤ x.scope.index ∧ x.scope.index < d.store.scopes.size ∧
      blockDepth x.body < L.depth := by
  induction h with
  | refl => exact ⟨[], by simp⟩
  | tail _ hstep ih =>
    obtain ⟨ds, hds, hall⟩ := ih
    have hsize := hstep.steps.scopes_size_le
    have hold : ∀ x ∈ ds, L.scopes ≤ x.scope.index ∧ x.scope.index < _ ∧
        blockDepth x.body < L.depth := fun x hx =>
      ⟨(hall x hx).1, lt_of_lt_of_le (hall x hx).2.1 hsize, (hall x hx).2.2⟩
    cases hstep with
    | quiet hq => exact ⟨ds, hq.deferred_eq.trans hds, hold⟩
    | putOff x hscope hlt hdepth =>
      refine ⟨ds ++ [x], by simp [hds], fun y hy => ?_⟩
      rcases mem_append.mp hy with hy | hy
      · exact hold y hy
      · obtain rfl := mem_singleton.mp hy
        exact ⟨hscope, hlt, hdepth⟩
    | _ => exact ⟨ds, hds, hold⟩

lemma Course.context_deferred_eq (h : Course F t c d) :
    d.context = c.context ∧ d.deferred = c.deferred := by
  induction h with
  | nil | none => exact ⟨rfl, rfl⟩
  | cons _ _ ih ih' => exact ⟨ih'.1.trans ih.1, ih'.2.trans ih.2⟩
  | block hopen _ _ _ hclose ih =>
    exact ⟨hclose.context_eq, hclose.deferred_eq.trans (ih.2.trans hopen.deferred_eq)⟩
  | plain _ hacts _ _ hdecl ih =>
    exact ⟨hdecl.context_eq.trans (ih.1.trans hacts.context_eq), hdecl.deferred_eq⟩
  | body _ hopen _ hclose ih => exact ⟨rfl, hclose.deferred_eq.trans (ih.2.trans hopen.deferred_eq)⟩
  | next _ _ ih ih' => exact ⟨ih'.1.trans ih.1, ih'.2.trans ih.2⟩

lemma Course.context_eq (h : Course F t c d) : d.context = c.context := h.context_deferred_eq.1

lemma Course.deferred_eq (h : Course F t c d) : d.deferred = c.deferred :=
  h.context_deferred_eq.2

lemma Course.steps (h : Course F t c d) : c.Steps d := by
  induction h with
  | nil c => exact .refl c
  | cons _ _ ih ih' | next _ _ ih ih' => exact ih.trans ih'
  | block hopen _ _ _ hclose ih =>
    refine .tail (.trans ?_ hclose.steps) (.happen _ _)
    refine .tail (.trans (.tail ?_ (.move _ _)) ih) (.move _ _)
    exact (Steps.single (.happen _ _)).trans hopen.steps
  | @plain s ds c d e f _ hacts hds hbodies hdecl ih =>
    refine .tail (.trans ?_ hdecl.steps) (.happen _ _)
    have hdrop : { e with deferred := c.deferred } =
        { e with deferred := e.deferred.take c.deferred.length } := by
      rw [hbodies.deferred_eq, hds, take_left]
    rw [hdrop]
    exact .tail (.trans ((Steps.single (.happen _ _)).trans hacts.steps) ih) (.drop _ _)
  | body _ hopen _ hclose ih =>
    refine .tail (.tail (.trans ?_ hclose.steps) (.move _ _)) (.happen _ _)
    exact .trans (.tail ((Steps.single (.happen _ _)).trans hopen.steps) (.move _ _)) ih
  | none c => exact .refl c

end

end Checker

namespace Pass

section

variable {x : ScopeId}

lemma IsQuiet.checkArity : (checkArity names inits isConst).IsQuiet W := by
  unfold Pass.checkArity
  split
  · exact .report rfl
  · exact .ite (.report rfl) (.pure _)
  · exact .pure _

lemma IsQuiet.declareAll (hx : W x) : (declareAll x n names os).IsQuiet W := by
  induction names generalizing os with
  | nil => exact .pure _
  | cons i is ih =>
    cases os with
    | nil => exact .pure _
    | cons o os => exact .bind (.declare hx) fun _ => ih

lemma declareSpec_quietSteps (hc : c.store.NewIn W) (hx : W c.declarationScope) :
    c.QuietSteps W ((declareSpec spec os).1 c).2 :=
  IsQuiet.declareAll hx c hc

lemma IsQuiet.constType {type : TypeExpr} : (constType type).IsQuiet W :=
  .bind (.resolve type) fun _ => .bind .entities fun _ =>
    .ite (.pure _) (.ite (.pure _) (.bind (.report rfl) .pure))

lemma IsQuiet.shortName {e : Expr} : (shortName x e i).IsQuiet W := by
  refine .bind .current fun c => ?_
  split
  · refine .bind .recordUse fun _ => .ite (.pure _) ?_
    exact .bind (.report rfl) .pure
  · exact .bind .newVar fun _ => .bind .recordDef .pure

lemma IsQuiet.targetVars : (targetVars ts es).IsQuiet W := by
  induction ts generalizing es with
  | nil => exact .pure _
  | cons t ts ih =>
    cases es with
    | nil => exact .pure _
    | cons e es =>
      have hrest v : (Pass.targetVars ts es >>= fun vs => Pure.pure (v :: vs)).IsQuiet W :=
        ih.bind .pure
      cases t with
      | wrong => exact .bind .current fun _ => .bind .newVar hrest
      | _ => exact .bind (.pure _) hrest

lemma IsQuiet.declareShort (hx : W x) : (declareShort x span lhs rhs targets new).IsQuiet W :=
  .ite (.report rfl) (.bind .logEvent fun _ => .forM fun _ _ => .declare hx)

lemma IsQuiet.bareReturn : (bareReturn span results).IsQuiet W := by
  refine .forM fun r _ => .bind .entities fun s => .bind .lookup fun o => ?_
  cases o with
  | none => exact .pure _
  | some other =>
    refine .ite (.pure _) (.emit ?_)
    unfold hiddenResult
    split <;> exact Problem.isRedeclaration_report .dummy rfl

lemma IsQuiet.checkReturn : (checkReturn sig body).IsQuiet W :=
  .bind .entities fun _ => .ite (.report rfl) (.pure _)

lemma IsQuiet.checkUsage : (checkUsage x).IsQuiet W :=
  .bind .current fun _ =>
    .ite (.forM fun _ _ => (.report rfl)) (.pure _)

end

section

variable {run : Deferred → Pass Unit} {k : Nat} {s : Stmt}

/-- A check of the bodies in which literals are nested less than `k` deep. -/
def ChecksBodies (run : Deferred → Pass Unit) (F : Frontier) (k : Nat) : Prop :=
  ∀ x c, blockDepth x.body < k → F.scopes ≤ x.scope.index → c.store.Past F →
    Course F (.body x) c ((run x).1 c).2

lemma ChecksBodies.forM (hrun : ChecksBodies run F k) (hc : c.store.Past F)
    (hds : ∀ x ∈ ds, F.scopes ≤ x.scope.index ∧ blockDepth x.body < k) :
    Course F (.bodies ds) c ((ds.forM run).1 c).2 := by
  induction ds generalizing c with
  | nil => exact .none c
  | cons x ds ih =>
    have hfirst := hrun x c (hds x (by simp)).2 (hds x (by simp)).1 hc
    exact .next hfirst (ih (hfirst.steps.past hc) fun y hy => hds y (by simp [hy]))

/-- The part of a statement between its two notes. -/
def Carries (F : Frontier) (s : Stmt) (c f : Checker) : Prop :=
  ∃ ds d e, c.Acts (c.limits F s) d ∧
    d.deferred = c.deferred ++ ds ∧ Course F (.bodies ds) d e ∧
    { e with deferred := c.deferred }.QuietSteps (c.limits F s).Binds f

/-- After an evaluation the bodies that it has put off are checked. -/
lemma course_runDeferred (hrun : ChecksBodies run F L.depth) (hL : L.scopes = F.scopes)
    (hd : d.store.Past F) (h : c.Acts L d) : ∃ ds e,
      d.deferred = c.deferred ++ ds ∧ Course F (.bodies ds) d e ∧
      ((runDeferred run c.deferred.length).1 d).2 = { e with deferred := c.deferred } := by
  obtain ⟨ds, hds, hall⟩ := h.deferred_eq
  have hcourse := hrun.forM hd fun x hx => ⟨hL ▸ (hall x hx).1, (hall x hx).2.2⟩
  refine ⟨ds, _, hds, hcourse, ?_⟩
  rw [runDeferred, current_bind_run, hds, drop_left, bind_run]
  have hdeferred := hcourse.deferred_eq.trans hds
  simp only [dropDeferred, step, hdeferred, take_left]

lemma carries_runDeferred (hrun : ChecksBodies run F k) (hs : s.literalDepth ≤ k)
    (hc : c.store.Past F) (h : c.Acts (c.limits F s) d) :
    Carries F s c ((runDeferred run c.deferred.length).1 d).2 := by
  have hbodies : ChecksBodies run F (c.limits F s).depth := fun x c hx =>
    hrun x c (lt_of_lt_of_le hx hs)
  obtain ⟨ds, e, hds, hcourse, hend⟩ := course_runDeferred hbodies rfl (h.steps.past hc) h
  exact ⟨ds, d, e, h, hds, hcourse, hend ▸ .refl⟩

lemma Carries.deferred_eq (h : Carries F s c d) : d.deferred = c.deferred := by
  obtain ⟨_, _, _, _, _, _, hquiet⟩ := h
  exact hquiet.deferred_eq

lemma Carries.quiet (h : Carries F s c d)
    (hq : d.QuietSteps (c.limits F s).Binds f) : Carries F s c f := by
  obtain ⟨ds, d, e, hacts, hds, hcourse, hquiet⟩ := h
  exact ⟨ds, d, e, hacts, hds, hcourse, hquiet.trans hq⟩

lemma runDeferred_of_length_eq (h : c.deferred.length = n) : (runDeferred run n).1 c = ((), c) := by
  subst h
  rw [runDeferred, current_bind_run, drop_length]
  change ((), { c with deferred := c.deferred.take c.deferred.length }) = ((), c)
  rw [take_length]

variable {specs : List Spec}

/-- A short declaration binds its names after the bodies in it have been checked. -/
lemma carries_shortDecl (hrun : ChecksBodies run F k)
    (hs : (Stmt.short span lhs rhs).literalDepth ≤ k) (hc : c.store.Past F) :
    Carries F (.short span lhs rhs) c ((shortDecl run span lhs rhs).1 c).2 := by
  rw [shortDecl, deferredCount, bind_assoc, current_bind_run, pure_bind, current_bind_run]
  cases hscope : c.context.scope with
  | none =>
    have hreport : (report .noScope span).IsQuiet (c.limits F (.short span lhs rhs)).Binds :=
      .report rfl
    exact ⟨[], c, c, .refl, by simp, .none c, hreport c (Past.newIn hc)⟩
  | some x =>
    have hhome : (c.limits F (.short span lhs rhs)).Binds x :=
      .inr (by simp [Checker.limits, Checker.declarationScope, hscope])
    obtain ⟨hl, hr⟩ : exprsDepth lhs ≤ (c.limits F (.short span lhs rhs)).depth ∧
        exprsDepth rhs ≤ (c.limits F (.short span lhs rhs)).depth :=
      Nat.max_le.mp (Nat.le_refl (Stmt.literalDepth (.short span lhs rhs)))
    have hinit := Evaluates.shortInit (x := x) hl hr c hc
    refine (carries_runDeferred hrun hs hc hinit).quiet (IsQuiet.declareShort hhome _ ?_)
    exact Past.newIn (((runDeferred run _).2 _).past (hinit.steps.past hc))

/-- The trace around a statement is quiet. -/
lemma observeStmt_quiet (run : Deferred → Pass Unit) (s : Stmt) (m : Pass Unit)
    (hc : c.store.NewIn W) : ∃ d f, (c.noted (.enterStmt s)).QuietSteps W d ∧
      ((m >>= fun _ => runDeferred run c.deferred.length).1 d).2.QuietSteps W f ∧
      ((observeStmt run s m).1 c).2 = f.noted (.leaveStmt s) := by
  let before : Pass Unit := do
    traceLine fun _ => "stmt[ " ++ s.text ++ " ]"
    indentTrace
  have hbefore : before.IsQuiet W := .bind IsQuiet.traceLine fun _ => IsQuiet.indentTrace
  have hquiet := hbefore (c.noted (.enterStmt s)) hc
  have hdeferred : (before.1 (c.noted (.enterStmt s))).2.deferred = c.deferred :=
    hquiet.deferred_eq
  refine ⟨_, _, hquiet, IsQuiet.unindentTrace _ ?_, ?_⟩
  · exact hc.of_size_le (hquiet.steps.trans (Pass.steps _ _)).scopes_size_le
  · rw [← hdeferred]
    rfl

/-- A statement that is no block, given what happens between its two notes. -/
lemma course_observeStmt (hs : s.isBlock = false) (hc : c.store.Past F)
    (hm : ∀ d, d.store.Past F → d.context = c.context →
      Carries F s d ((m >>= fun _ => runDeferred run d.deferred.length).1 d).2) :
    Course F (.stmt s) c ((observeStmt run s m).1 c).2 := by
  have hnew : c.store.NewIn (c.limits F s).Binds := Past.newIn hc
  obtain ⟨d, f, hbefore, hafter, hend⟩ := observeStmt_quiet run s m hnew
  have hlimits : d.limits F s = c.limits F s := by
    rw [limits, hbefore.declarationScope_eq]
    rfl
  have hdeferred := hbefore.deferred_eq
  have hpast : d.store.Past F := hbefore.steps.past hc
  have hcarries := (hdeferred ▸ hm d hpast hbefore.context_eq).quiet (hlimits ▸ hafter)
  obtain ⟨ds, d', e, hacts, hds, hcourse, hdecl⟩ := hcarries
  rw [hlimits] at hacts hdecl
  rw [hdeferred] at hds hdecl
  exact hend ▸ .plain hs (hbefore.acts.trans hacts) hds hcourse hdecl

/-- Specifications, each with its values and then its names. -/
lemma acts_specs {make : Spec → Pass (List ObjectId)}
    (hmake : ∀ spec ∈ specs, (make spec).Evaluates L) (hc : c.store.Past L.toFrontier)
    (hhome : L.home c.declarationScope) :
    c.Acts L ((specs.forM fun spec => make spec >>= declareSpec spec).1 c).2 := by
  induction specs generalizing c with
  | nil => exact .refl
  | cons spec specs ih =>
    have hvalues := hmake spec (by simp) c hc
    have hscope := hvalues.declarationScope_eq
    have hpast := hvalues.steps.past hc
    have hnames : ((make spec).1 c).2.QuietSteps L.Binds
        ((declareSpec spec ((make spec).1 c).1).1 ((make spec).1 c).2).2 :=
      declareSpec_quietSteps hpast.newIn (.inr (hscope ▸ hhome))
    refine hvalues.trans (hnames.acts.trans (ih (fun spec hspec => hmake spec (by simp [hspec])) ?_ ?_))
    · exact hnames.steps.past hpast
    · rw [hnames.declarationScope_eq, hscope]
      exact hhome

lemma exprsDepth_le_specsDepth (h : spec ∈ specs) :
    exprsDepth spec.values ≤ specsDepth specs := by
  induction specs with
  | nil => cases h
  | cons first specs ih =>
    have hfirst : specDepth first = exprsDepth first.values := by
      cases first
      rfl
    simp only [specsDepth, hfirst]
    rcases mem_cons.mp h with rfl | h
    · exact le_max_left ..
    · exact le_trans (ih h) (le_max_right ..)

/-- A new scope lies inside the current one. -/
lemma openScope_quiet (span : Span) (hc : c.store.NewIn W) : ∃ x d,
    c.QuietSteps W d ∧ x.index = c.store.scopes.size ∧ x.index < d.store.scopes.size ∧
      (d.store.scope x).parent = c.context.scope ∧
      ((openScope span).1 c).2 = { d with context := { c.context with scope := some x } } := by
  let made := (newScope c.context.scope span "block" false).1 c
  have hindex : made.1.index = c.store.scopes.size := newScope_index ..
  have hnew : c.QuietSteps W made.2 := .single (.newScope c span.start span.stop "block" false)
  have hrecord : (recordScope span made.1).IsQuiet W := .recordScope
  have hopened := hnew.trans (hrecord made.2 (hc.of_size_le hnew.steps.scopes_size_le))
  refine ⟨made.1, _, hopened, hindex, ?_, ?_, rfl⟩
  · exact lt_of_lt_of_eq (hindex ▸ Nat.lt_succ_self _) newScope_scopes_size.symm
  · exact (parent_newScope made.1).trans (if_pos hindex)

/-- A block opens a scope inside the current one and goes back to it in the end. -/
lemma course_enterBlock (body : Block) (hc : c.store.Past F) (hbody : ∀ d, d.store.Past F →
      Course F (.stmts body.stmts) d ((checkStmts run body.stmts).1 d).2) :
    ∃ x d e, c.QuietSteps (F.scopes ≤ ·.index) d ∧ F.scopes ≤ x.index ∧
      x.index < d.store.scopes.size ∧
      Course F (.stmts body.stmts) { d with context := { c.context with scope := some x } } e ∧
      ((enterBlock run body).1 c).2 = { e with context := c.context } := by
  obtain ⟨x, d, hquiet, hx, hlt, hparent, hopen⟩ := openScope_quiet body.span hc.newIn_scopes
  have hd : d.store.Past F := hquiet.steps.past hc
  have hcourse := hbody { d with context := { c.context with scope := some x } } hd
  have hback := hcourse.steps.parent_eq hlt
  refine ⟨x, d, _, hquiet, le_trans hc.scopes (le_of_eq hx.symm), hlt, hcourse, ?_⟩
  obtain ⟨stmts, span⟩ := body
  rw [enterBlock, bind_run, hopen, bind_run, closeScope, current_bind_run, hcourse.context_eq,
    Option.bind_some, hback, hparent]
  rfl

lemma course_block (hc : c.store.Past F) (hbody : ∀ d, d.store.Past F →
      Course F (.stmts body.stmts) d ((checkStmts run body.stmts).1 d).2) :
    Course F (.stmt (.block span body)) c
      ((observeStmt run (.block span body) (enterBlock run body)).1 c).2 := by
  obtain ⟨d, f, hbefore, hafter, hend⟩ :=
    observeStmt_quiet run (.block span body) (enterBlock run body) hc.newIn_scopes
  obtain ⟨x, d', e, hquiet, hx, hlt, hcourse, hblock⟩ :=
    course_enterBlock body (hbefore.steps.past hc) hbody
  have hcontext := hbefore.context_eq
  have hdeferred : e.deferred.length = c.deferred.length := by
    rw [hcourse.deferred_eq]
    exact congrArg List.length (hquiet.deferred_eq.trans hbefore.deferred_eq)
  rw [bind_run, hblock, runDeferred_of_length_eq (c := { e with context := d.context }) hdeferred,
    hcontext] at hafter
  rw [hcontext] at hcourse
  exact hend ▸ .block (hbefore.trans hquiet) hx hlt hcourse hafter

mutual

theorem course_check (s : Stmt) {c : Checker} (hrun : ChecksBodies run F k)
    (hk : s.literalDepth ≤ k) (hc : c.store.Past F) :
    Course F (.stmt s) c ((s.check run).1 c).2 := by
  have hplain {m} (hs : s.isBlock = false)
      (hm : ∀ d, d.store.Past F → d.Acts (d.limits F s) (m.1 d).2) :
      Course F (.stmt s) c ((observeStmt run s m).1 c).2 :=
    course_observeStmt hs hc fun d hd _ => carries_runDeferred hrun hk hd (hm d hd)
  cases s with rw [Stmt.check]
  | empty span => exact hplain rfl fun _ _ => .refl
  | block span body =>
    obtain ⟨stmts, span'⟩ := body
    exact course_block hc fun d hd => course_checkStmts stmts hrun hk hd
  | var span specs =>
    exact hplain rfl fun d hd =>
      acts_specs (fun spec hspec => .makeVars (exprsDepth_le_specsDepth hspec)) hd rfl
  | const span specs =>
    exact hplain rfl fun d hd =>
      acts_specs (fun spec hspec => .makeConsts (exprsDepth_le_specsDepth hspec)) hd rfl
  | short span lhs rhs =>
    refine course_observeStmt rfl hc fun d hd _ => ?_
    have hcarries := carries_shortDecl hrun hk hd
    rw [bind_run, runDeferred_of_length_eq (congrArg List.length hcarries.deferred_eq)]
    exact hcarries
  | assign span lhs rhs =>
    have hdepth := Nat.max_le.mp (Nat.le_refl (Stmt.literalDepth (.assign span lhs rhs)))
    exact hplain rfl fun d hd => Evaluates.assignVars hdepth.1 hdepth.2 d hd
  | ret span values => exact hplain rfl fun d hd => Evaluates.returnStmt le_rfl d hd
  | expr span e => exact hplain rfl fun d hd => Evaluates.exprStmt le_rfl d hd

theorem course_checkStmts (ss : List Stmt) {c : Checker} (hrun : ChecksBodies run F k)
    (hk : stmtsDepth ss ≤ k) (hc : c.store.Past F) :
    Course F (.stmts ss) c ((checkStmts run ss).1 c).2 := by
  cases ss with
  | nil => exact .nil c
  | cons s ss =>
    rw [checkStmts]
    simp only [stmtsDepth, Nat.max_le] at hk
    have hfirst := course_check s hrun hk.1 hc
    exact .cons hfirst (course_checkStmts ss hrun hk.2 (hfirst.steps.past hc))

end

lemma blockDepth_eq (body : Block) : blockDepth body = stmtsDepth body.stmts := by
  cases body
  rfl

lemma course_functionBody (hrun : ChecksBodies run F k) (title : String) (x : Deferred)
    (hk : blockDepth x.body ≤ k) (hc : c.store.Past F) : ∃ d e f,
      c.QuietSteps (F.scopes ≤ ·.index) d ∧
      Course F (.stmts x.body.stmts) { d with context := ⟨some x.scope, some x.sig⟩ } e ∧
      e.QuietSteps (F.scopes ≤ ·.index) f ∧
      ((functionBody run title x).1 c).2 = { f with context := c.context } := by
  let opening := traceLine fun s => "--- " ++ title ++ ": " ++ s.typeText x.sig
  let closing : Pass Unit := do
    checkReturn x.sig x.body
    checkUsage x.scope
  have hopen : c.QuietSteps (F.scopes ≤ ·.index) (opening.1 c).2 :=
    IsQuiet.traceLine c hc.newIn_scopes
  have hcontext := hopen.context_eq
  have hd := hopen.steps.past hc
  have hcourse := course_checkStmts x.body.stmts hrun (blockDepth_eq x.body ▸ hk)
    (c := { (opening.1 c).2 with context := ⟨some x.scope, some x.sig⟩ }) hd
  have hclosing : closing.IsQuiet (F.scopes ≤ ·.index) :=
    .bind .checkReturn fun _ => .checkUsage
  refine ⟨_, _, _, hopen, hcourse, hclosing _ ?_, ?_⟩
  · exact fun _ hx => le_trans hd.scopes (le_trans hcourse.steps.scopes_size_le hx)
  · rw [← hcontext]
    rfl

lemma checksBodies_literalBody (F : Frontier) (n : Nat) : ChecksBodies (literalBody n) F n := by
  induction n with
  | zero => exact fun _ _ h => absurd h (Nat.not_lt_zero _)
  | succ n ih =>
    intro x c hdepth hscope hc
    obtain ⟨d, e, f, hopen, hcourse, hclose, hend⟩ := course_functionBody ih "<function literal>" x
      (Nat.le_of_lt_succ hdepth) (c := c.noted (.enterBody x)) hc
    have hrun : ((literalBody (n + 1) x).1 c).2 =
        { f with context := c.context }.noted (.leaveBody x) :=
      congrArg (·.noted (.leaveBody x)) hend
    exact hrun ▸ .body hscope hopen hcourse hclose

lemma checksBodies_checkLiteral (F : Frontier) (k : Nat) : ChecksBodies checkLiteral F k :=
  fun x c _ hscope hc =>
    checksBodies_literalBody F (blockDepth x.body + 1) x c (Nat.lt_succ_self _) hscope hc

end

end Pass

end GoCheck
