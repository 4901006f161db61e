import GoCheck.Proofs.Quiet
import GoCheck.Proofs.Regime.Assignments

/-!
# Statements under a regime

What evaluations keep, statements keep as well, and so do bodies, and the checks that a host asks
for. A discipline is a regime in which nothing has to be known of types, objects and constants.
-/

namespace GoCheck

open Pass Store

variable {s : Stmt} {lhs rhs : List Expr} {new os : List ObjectId} {top n : Nat}

/-- What a statement is made of keeps a property, given which statements do. -/
def Stmt.KeepsParts (I : Checker → Prop) (N : Notions) (A : Stmt → Prop) : Stmt → Prop
  | .empty _ => True
  | .block _ body => ∀ s ∈ body.stmts, A s
  | .var _ specs | .const _ specs => ∀ spec ∈ specs,
    Sources I N spec.values ∧ ∀ e ∈ spec.type, e.collects N.strict = true
  | .short _ lhs rhs => (∀ e ∈ lhs, e.Keeps I N) ∧ Sources I N rhs
  | .assign _ lhs rhs => (∀ l ∈ lhs, l.KeepsTarget I N) ∧ Sources I N rhs
  | .ret _ es => Sources I N es
  | .expr _ e => e.Keeps I N

/-- What a statement is made of: expressions `A` and statements `B`. -/
def Stmt.HasParts (A : Expr → Prop) (B : Stmt → Prop) (strict : Bool) : Stmt → Prop
  | .empty _ => True
  | .block _ body => ∀ s ∈ body.stmts, B s
  | .var _ specs | .const _ specs => ∀ spec ∈ specs,
    (∀ e ∈ spec.values, A e) ∧ ∀ e ∈ spec.type, e.collects strict = true
  | .short _ lhs rhs | .assign _ lhs rhs => (∀ e ∈ lhs, A e) ∧ ∀ e ∈ rhs, A e
  | .ret _ es => ∀ e ∈ es, A e
  | .expr _ e => A e

namespace Regime

lemma Evaluates.keepsParts {B : Stmt → Prop} {A : Expr → Prop}
    (h : Evaluates I N A) (hs : s.HasParts A B N.strict) : s.KeepsParts I N B := by
  cases s with
  | empty span => trivial
  | block span body => exact hs
  | var span specs | const span specs =>
    exact fun spec hspec => ⟨h.sources (hs spec hspec).1, (hs spec hspec).2⟩
  | short span lhs rhs => exact ⟨fun e he => h.keeps (hs.1 e he), h.sources hs.2⟩
  | assign span lhs rhs => exact ⟨fun l hl => h.target (hs.1 l hl), h.sources hs.2⟩
  | ret span es => exact h.sources hs
  | expr span e => exact h.keeps hs

/-- The statements `A` are made of what keeps a property, and put off only bodies `B` of such
ones. -/
structure Governs (I : Checker → Prop) (N : Notions) (A : Stmt → Prop) (B : Deferred → Fact) : Prop
    extends Regime I N where
  parts : ∀ {s}, A s → s.KeepsParts I N A
  body : ∀ {c t s body}, (N.type t).At c →
    (N.scope s).At c → (∀ s ∈ body.stmts, A s) → (B ⟨t, s, body⟩).At c
  stmts : ∀ {c d}, (B d).At c → ∀ s ∈ d.body.stmts, A s
  deferred : ∀ {c d}, I c → d ∈ c.deferred → (B d).At c
  /-- Names may be bound where the check is, and in the package. -/
  here : ∀ {c x}, I c → x = c.packageScope ∨ c.context.scope = some x → (N.scope x).At c
  note : ∀ {c event}, I c → (Pass.note event).LeadsTo I c
  drop : ∀ {c top}, I c → (dropDeferred top).LeadsTo I c
  openScope : ∀ {c span}, I c → (Pass.openScope span).LeadsTo I c
  closeScope : ∀ {c}, I c → Pass.closeScope.LeadsTo I c
  enter : ∀ {c d}, I c → (B d).At c →
    (move { scope := some d.scope, sig := some d.sig }).LeadsTo I c
  resume : ∀ {c d}, I c → c.Steps d → I d → (move c.context).LeadsTo I d
  toPackage : ∀ {c}, I c → (move { c.context with scope := some c.packageScope }).LeadsTo I c
  newScopeInPackage : ∀ {c span text isFunc}, I c →
    (Pass.newScope (some c.packageScope) span text isFunc).Leads I c N.scope

namespace Governs

variable {I : Checker → Prop} {N : Notions} {A : Stmt → Prop} {B : Deferred → Fact}
variable (h : Governs I N A B) {c : Checker} (hc : I c) {span : Span} {spec : Spec}
include h hc

lemma declareSpec (hos : (Fact.all N.typed os).At c) : (Pass.declareSpec spec os).LeadsTo I c := by
  have hall {s n is os c} (hc : I c) (hs : (N.scope s).At c) (hos : (Fact.all N.typed os).At c) :
      (declareAll s n is os).LeadsTo I c := by
    induction is generalizing os c with
    | nil => exact .pure hc trivial
    | cons i is ih =>
      cases os with
      | nil => exact .pure hc trivial
      | cons o os =>
        obtain ⟨ho, hos⟩ := Fact.all_cons.mp hos
        exact (h.declare hc hs ho).before fun _ d hd hI => ih hI (hs.later hd) (hos.later hd)
  have hscope : (N.scope (c.context.scope.getD c.packageScope)).At c := by
    cases hs : c.context.scope with
    | none => exact h.here hc (.inl rfl)
    | some s => exact h.here hc (.inr hs)
  exact ⟨(hall hc hscope hos).state, trivial⟩

lemma varSpec (hspec : Sources I N spec.values)
    (htype : ∀ e ∈ spec.type, e.collects N.strict) : (Pass.varSpec spec).LeadsTo I c :=
  (h.makeVars hc hspec htype).bind fun _ _ _ hd hos => h.declareSpec hd hos

lemma constSpec (hes : ∀ e ∈ spec.values, e.Keeps I N)
    (htype : ∀ e ∈ spec.type, e.collects N.strict) : (Pass.constSpec spec).LeadsTo I c :=
  (h.makeConsts hc hes htype).bind fun _ _ _ hd hos => h.declareSpec hd hos

lemma declareShort {s : ScopeId} (hs : (N.scope s).At c) (hnew : (Fact.all N.typed new).At c) :
    (Pass.declareShort s span lhs rhs targets new).LeadsTo I c := by
  unfold Pass.declareShort
  split
  · exact (h.report hc rfl).to
  · refine (h.logEvent hc).before fun _ d hd hI => leads_forM hI fun v hv e he hI' => ?_
    exact h.declare hI' ((hs.later hd).later he) (((hnew v hv).later hd).later he)

section

variable {run : Deferred → Pass Unit}
variable (hrun : ∀ d c, I c → (B d).At c → (run d).LeadsTo I c)
include hrun

lemma runDeferred : (Pass.runDeferred run top).LeadsTo I c := by
  refine .current (LeadsTo.before ?_ fun _ _ _ hd => h.drop hd)
  exact leads_forM hc fun x hx d hd hI =>
    hrun x d hI ((h.deferred hc (List.mem_of_mem_drop hx)).later hd)

lemma shortDecl (hl : ∀ e ∈ lhs, e.Keeps I N) (hr : Sources I N rhs) :
    (Pass.shortDecl run span lhs rhs).LeadsTo I c := by
  refine .deferredCount (.current ?_)
  cases hscope : c.context.scope with
  | none => exact (h.report hc rfl).to
  | some scope =>
    have hs := h.here hc (.inr hscope)
    refine (h.shortInit hc hl hr).bind fun r d hd hI hnew => ?_
    exact (h.runDeferred hI hrun).before fun _ e he hI' =>
      h.declareShort hI' ((hs.later hd).later he) (hnew.later he)

lemma observeStmt {m : Pass Unit} (hm : ∀ d, I d → m.LeadsTo I d) :
    (Pass.observeStmt run s m).LeadsTo I c := by
  refine (h.note hc).before fun _ _ _ hc => (h.traceLine hc).before fun _ _ _ hc => ?_
  refine (h.indentTrace hc).before fun _ _ _ hc => .deferredCount ?_
  refine (hm _ hc).before fun _ _ _ hc => (h.runDeferred hc hrun).before fun _ _ _ hc => ?_
  exact (h.unindentTrace hc).before fun _ _ _ hc => h.note hc

omit h hrun hc

mutual

/-- A statement keeps the property, given that the bodies inside it do. -/
theorem act (h : Governs I N A B) (hrun : ∀ d c, I c → (B d).At c → (run d).LeadsTo I c) (s : Stmt)
    (hs : A s) {c : Checker} (hc : I c) : (s.act run).LeadsTo I c := by
  have hparts := h.parts hs
  cases s with
  | empty span => exact .pure hc trivial
  | block span body => exact enterBlock h hrun body hparts hc
  | var span specs =>
    exact leads_forM hc fun spec hspec _ _ hd =>
      h.varSpec hd (hparts spec hspec).1 (hparts spec hspec).2
  | const span specs =>
    exact leads_forM hc fun spec hspec _ _ hd =>
      h.constSpec hd (hparts spec hspec).1.eval (hparts spec hspec).2
  | short span lhs rhs => exact h.shortDecl hc hrun hparts.1 hparts.2
  | assign span lhs rhs => exact h.assignVars hc hparts.1 hparts.2
  | ret span es => exact h.returnStmt hc hparts
  | expr span e => exact h.exprStmt hc hparts

theorem enterBlock (h : Governs I N A B) (hrun : ∀ d c, I c → (B d).At c → (run d).LeadsTo I c)
    (b : BlockOf Stmt) (hb : ∀ s ∈ b.stmts, A s) {c : Checker} (hc : I c) :
    (GoCheck.enterBlock run b).LeadsTo I c := by
  cases b with
  | mk stmts span =>
    rw [GoCheck.enterBlock]
    refine (h.openScope hc).before fun _ _ _ hd => ?_
    exact (checkStmts h hrun stmts hb hd).before fun _ _ _ he => h.closeScope he

theorem checkStmts (h : Governs I N A B)
    (hrun : ∀ d c, I c → (B d).At c → (run d).LeadsTo I c) (ss : List Stmt)
    (hss : ∀ s ∈ ss, A s) {c : Checker} (hc : I c) : (GoCheck.checkStmts run ss).LeadsTo I c := by
  cases ss with
  | nil =>
    rw [GoCheck.checkStmts]
    exact .pure hc trivial
  | cons s ss =>
    rw [List.forall_mem_cons] at hss
    rw [GoCheck.checkStmts, Stmt.check_eq]
    exact (h.observeStmt hc hrun fun _ hd => act h hrun s hss.1 hd).before fun _ _ _ hd =>
      checkStmts h hrun ss hss.2 hd

end

include h hrun hc

lemma functionBody {title : String} {x : Deferred} (hx : (B x).At c) :
    (Pass.functionBody run title x).LeadsTo I c := by
  have hreturn {c} (hc : I c) : (checkReturn x.sig x.body).LeadsTo I c := by
    refine .entities ?_
    dsimp only
    split
    · exact (h.report hc rfl).to
    · exact .pure hc trivial
  have husage {c} (hc : I c) : (checkUsage x.scope).LeadsTo I c := by
    refine .current ?_
    split
    · exact leads_forM hc fun _ _ _ _ hd => (h.report hd rfl).to
    · exact .pure hc trivial
  refine (h.traceLine hc).before fun _ d hd hI => .current ?_
  refine (h.enter hI (hx.later hd)).before fun _ e he hI' => LeadsTo.before ?_ fun _ f hf hI'' =>
    (h.resume hI (he.trans hf) hI'').before fun _ _ _ hI => .pure hI trivial
  exact (h.checkStmts hrun x.body.stmts (h.stmts hx) hI').before fun _ _ _ hc =>
    (hreturn hc).before fun _ _ _ hc => husage hc

end

variable {x : Deferred}

lemma literalBody (hx : (B x).At c) : (Pass.literalBody n x).LeadsTo I c := by
  induction n generalizing x c with
  | zero => exact .pure hc trivial
  | succ n ih =>
    refine (h.note hc).before fun _ d hd hI => ?_
    exact (h.functionBody hI (fun _ _ hI hx => ih hI hx) (hx.later hd)).before fun _ _ _ he => h.note he

lemma checkLiteral (hx : (B x).At c) : (Pass.checkLiteral x).LeadsTo I c :=
  h.literalBody hc hx

section

variable {body : Block} (hbody : ∀ s ∈ body.stmts, A s)
include hbody

variable {sig : TypeId}

lemma bodyIn {scope : ScopeId} (hsig : (N.type sig).At c) (hscope : (N.scope scope).At c) :
    (Pass.bodyIn sig scope body).LeadsTo I c :=
  (h.functionBody hc (fun _ _ hc hx => h.checkLiteral hc hx) (h.body hsig hscope hbody)).before
    fun _ _ _ hd => h.runDeferred hd fun _ _ hc hx => h.checkLiteral hc hx

lemma function {sig : FuncSig} (hsig : sigCollects N.strict sig) :
    (Pass.function sig body).LeadsTo I c := by
  have hresolve : (within { c.context with scope := some c.packageScope }
      (GoCheck.resolveSig sig)).Leads I c fun r => (N.type r.1).and (N.scope r.2) := by
    refine .current ((h.toPackage hc).before fun _ d hd hI => ?_)
    refine (h.resolveSig sig hsig hI).bind fun r e he hI' hr => ?_
    exact (h.resume hc (hd.trans he) hI').before fun _ f hf hI => .pure hI (hr.later hf)
  refine .current (hresolve.bind fun r d _ hd hr => ?_)
  exact (h.bodyIn hd hbody hr.1 hr.2).before fun _ _ _ he => .pure he trivial

/-- Only a signature has to be a type of the regime: all else is refused. -/
lemma bodyOf (hsig : ∀ d, c.Steps d → (d.store.type sig).signature? ≠ none → (N.type sig).At d) :
    (Pass.bodyOf sig body).LeadsTo I c := by
  refine .current ((h.newScopeInPackage hc).bind fun scope d hd hI hs => ?_)
  refine .entities ?_
  cases hg : (d.store.type sig).signature? with
  | none => exact (h.report hI rfl).to
  | some g =>
    have hsig := hsig d hd (by simp [hg])
    refine Leads.before (leads_forM hI fun v hv e he hI' => ?_) fun _ e he hI' =>
      h.bodyIn hI' hbody (hsig.later he) (hs.later he)
    have hv : (N.typed v).At d := (List.mem_append.mp hv).elim (h.member hI) (h.member hI)
    split
    · exact .pure hI' trivial
    · exact h.declare hI' (hs.later he) (hv.later he)

lemma block : (Pass.block body).LeadsTo I c := by
  have hrun x c (hc : I c) (hx : (B x).At c) : (Pass.checkLiteral x).LeadsTo I c :=
    h.checkLiteral hc hx
  refine .deferredCount ?_
  exact (h.enterBlock hrun body hbody hc).before fun _ _ _ hd => h.runDeferred hd hrun

end

end Governs

end Regime

/-! ## Disciplines -/

variable {I : Checker → Prop} {W : ScopeId → Prop} {R Q : Operand → Prop}

/-- States with the same reports, where a variable that was used is used still. -/
structure Checker.Tacit (c d : Checker) : Prop where
  sink : d.sink = c.sink
  used : ∀ o, (c.store.object o).isUsed = true → (d.store.object o).isUsed = true

/-- States with the same objects and reports, the same records of types and bodies put off. -/
structure Checker.Level (c d : Checker) : Prop where
  objects : d.store.objects = c.store.objects
  sink : d.sink = c.sink
  types : d.info.types = c.info.types
  deferred : d.deferred = c.deferred

/-- States with the same objects and reports. -/
structure Checker.Idle (c d : Checker) : Prop where
  objects : d.store.objects = c.store.objects
  sink : d.sink = c.sink

lemma Object.isUsed_setUsed_true {ob : Object} (h : ob.isUsed) : (ob.setUsed true).isUsed := by
  unfold setUsed
  split
  · rfl
  · exact h

namespace Pass

variable {c d : Checker}

lemma tacit_of_objects (hsink : d.sink = c.sink)
    (hobjects : d.store.objects = c.store.objects) : c.Tacit d :=
  ⟨hsink, fun o h => by rwa [Store.object, hobjects]⟩

lemma tacit_newObject (ob : Object) :
    c.Tacit { c with store := (Build.newObject ob c.store).2 } := by
  refine ⟨rfl, fun o h => ?_⟩
  rw [object_newObject]
  split
  · rename_i ho
    rw [object_of_size_le (le_of_eq ho.symm)] at h
    cases h
  · exact h

lemma tacit_markUsed (o : ObjectId) : c.Tacit ((markUsed o).1 c).2 :=
  ⟨rfl, fun _ h => object_modifyObject_keep (P := (·.isUsed))
    (fun _ => Object.isUsed_setUsed_true) h⟩

end Pass

/-- A property `I` with `R` for the outcomes of evaluations, `Q` for values, and names bound in
`W`. -/
structure Discipline (I : Checker → Prop) (W : ScopeId → Prop) (R Q : Operand → Prop) : Prop where
  newIn : ∀ {c}, I c → c.store.NewIn W
  quiet : ∀ {α : Type} {m : Pass α}, m.IsQuiet W → (∀ c : Checker, c.Tacit (m.1 c).2) →
    m.Preserves I
  /-- A variable may count again as it did at an earlier time. -/
  restoreUse : ∀ {c d o}, I c → c.Steps d → I d →
    I ((Pass.setUsed o (c.store.object o).isUsed).1 d).2
  giveType : ∀ {o t}, (Pass.giveType o t).Preserves I
  /-- A constant that has just been made may be given a value. -/
  newConst : ∀ {span package name t},
    (Pass.newConst span package name t .unknown).Maintains I fun o => ∀ v, (setValue o v).Preserves I
  declare : ∀ {x name o n}, W x → (Pass.declare x name o n).Preserves I
  emit : ∀ {d : Diagnostic} (k : Fault), d.code = some k.code → k ≠ .duplicateDecl →
    k ≠ .incompatibleAssign → (Pass.emit d).Preserves I
  report : ∀ {p span}, p.isRoutine = true → (Pass.report p span).Preserves I
  /-- An operand that is refused after all. -/
  unpresentable : ∀ {x p span}, Q x →
    x.mode = .noValue ∨ x.mode = .typeExpr → p.fault != .duplicateDecl →
      (Pass.report p span).Preserves I
  /-- What a value takes on is recorded. -/
  implicit : ∀ {x t i c}, Q x → c.store.implicit x t = .ok i → I c → I ((applyImplicit x i).1 c).2
  finish : ∀ {x m t wasConstant}, Q x → (finishConversion wasConstant (x.withMode m) t).Preserves I
  /-- What is neither a type nor without a value is as good as evaluated for its value. -/
  accept : ∀ {x}, R x → x.mode ≠ .noValue → x.mode ≠ .typeExpr → Q x
  reject : ∀ {x}, R x → Q x.invalidated
  invalidated : ∀ {x}, Q x → Q x.invalidated
  missing : Q {}

/-- Nothing is known of types and objects. Names are bound in `W`, and values given if that keeps
`I`. -/
def Notions.plain (I : Checker → Prop) (W : ScopeId → Prop) (R Q : Operand → Prop) : Notions where
  type _ := .any
  place _ := .any
  object _ := .any
  scope x := .sure (W x)
  constant o := .sure (∀ v, (setValue o v).Preserves I)
  excused := .any
  given := R
  vouched := Q
  strict := false

lemma Pass.Maintains.outcome {m : Pass Evaluated} (h : m.Maintains I fun r => R r.1) :
    m.Always I fun r => (Notions.plain I W R Q).outcome r.1 :=
  fun c hc => ⟨h.state c hc, ⟨fun _ _ => trivial, fun _ => trivial⟩, h.result c hc⟩

namespace Discipline

variable {A : Stmt → Prop}

/-- A discipline is a regime in which only operands and scopes matter. -/
lemma regime (h : Discipline I W R Q) : Regime I (.plain I W R Q) := by
  have hstep {α : Type} {m : Pass α} {c} (hm : m.Preserves I) (hc : I c) :
      m.LeadsTo I c :=
    ⟨hm.state c hc, trivial⟩
  have hquiet {α} {m : Pass α} {c} (hm : m.IsQuiet W)
      (htacit : ∀ c : Checker, c.Tacit (m.1 c).2) (hc : I c) : m.LeadsTo I c :=
    hstep (h.quiet hm htacit) hc
  have hnewType {ty} {hty : ty.isComposed} {c} (hc : I c) :
      (Pass.newType ty hty).LeadsTo I c :=
    hquiet .newType (fun _ => tacit_of_objects rfl rfl) hc
  -- types carry no facts here, so what is asked of them is trivial
  exact {
    basic := fun _ _ => trivial
    noValue := fun _ => trivial
    error := fun _ => trivial
    part := fun _ _ => trivial
    defaultType := fun _ _ => trivial
    objectType := fun _ _ => trivial
    member := fun _ _ => ⟨trivial, fun _ => trivial⟩
    selected := fun _ _ => ⟨trivial, fun _ => trivial⟩
    found := fun _ _ => ⟨trivial, fun _ => trivial⟩
    excuse := fun _ _ _ => trivial
    invalid := fun _ _ => trivial
    place := fun _ _ => trivial
    nowhere := fun _ => trivial
    accept := h.accept
    reject := h.reject
    invalidated := h.invalidated
    missing := h.missing
    logEvent := hquiet .logEvent fun _ => tacit_of_objects rfl rfl
    noteLiteral := hquiet .noteLiteral fun _ => tacit_of_objects rfl rfl
    setIndent := hquiet .setIndent fun _ => tacit_of_objects rfl rfl
    emit := fun k hc hcode hdup hassign =>
      ⟨(h.emit k hcode hdup hassign).state _ hc, fun _ => trivial⟩
    report := fun hc hp => ⟨(h.report hp).state _ hc, fun _ => trivial⟩
    unpresentable := fun hc hx hmode hp => hstep (h.unpresentable hx hmode hp) hc
    newType := fun hc _ _ _ => hnewType hc
    newSignature := fun hc _ _ _ => hnewType hc
    newVar := fun hc _ =>
      ⟨(hquiet .newVar (fun _ => tacit_newObject _) hc).state, trivial,
        fun _ => ⟨trivial, fun _ => trivial⟩⟩
    newParam := fun hc _ =>
      ⟨(hquiet .newParam (fun _ => tacit_newObject _) hc).state, trivial, fun _ => trivial⟩
    newConst := fun hc _ => ⟨h.newConst.state _ hc, trivial, h.newConst.result _ hc⟩
    newScope := fun {c span text isFunc} hc => by
      have hnew : (current >>= fun c => Pass.newScope c.context.scope span text isFunc).Preserves I :=
        h.quiet (.newScope_bind (f := pure) fun _ _ => .pure _) fun _ =>
          tacit_of_objects rfl (newScope_objects ..)
      exact ⟨hnew.state c hc, h.newIn hc _ (le_of_eq (newScope_index ..).symm)⟩
    markUsed := fun hc _ => hquiet .markUsed (fun _ => tacit_markUsed _) hc
    restoreUse := fun hc hs hd _ => ⟨h.restoreUse hc hs hd, trivial⟩
    giveType := fun hc _ _ => ⟨h.giveType.state _ hc, trivial, fun _ => trivial⟩
    setValue := fun hc ho => hstep (ho _) hc
    declare := fun hc hx _ => hstep (h.declare hx) hc
    lookup := fun hc =>
      ⟨(hquiet .lookup (fun _ => tacit_of_objects rfl rfl) hc).state,
        fun _ _ => ⟨trivial, fun _ => trivial⟩⟩
    recordUse := fun hc _ => hquiet .recordUse (fun _ => tacit_of_objects rfl rfl) hc
    recordDef := fun hc _ => hquiet .recordDef (fun _ => tacit_of_objects rfl rfl) hc
    recordScope := fun hc _ => hquiet .recordScope (fun _ => tacit_of_objects rfl rfl) hc
    implicit := fun hc hx _ hi => ⟨h.implicit hx.2 hi hc, fun _ _ => trivial, fun _ => trivial⟩
    finish := fun hc hx _ _ => hstep (h.finish hx.2) hc
    failed := .inl fun _ _ => trivial }

/-- Where names may be bound anywhere, statements keep the property if their parts do. -/
lemma governs (h : Discipline I (fun _ => True) R Q)
    (hlevel : ∀ {α : Type} {m : Pass α}, (∀ c : Checker, c.Level (m.1 c).2) → m.Preserves I)
    (hparts : ∀ s, A s → s.KeepsParts I (.plain I (fun _ => True) R Q) A)
    (hdrop : ∀ top, (dropDeferred top).Preserves I)
    (hdeferred : ∀ c, I c → ∀ d ∈ c.deferred, ∀ s ∈ d.body.stmts, A s) :
    Regime.Governs I (.plain I (fun _ => True) R Q) A fun d => .sure (∀ s ∈ d.body.stmts, A s) := by
  have hstep {α : Type} {m : Pass α} {c : Checker} (hm : ∀ c : Checker, c.Level (m.1 c).2)
      (hc : I c) : m.LeadsTo I c :=
    ⟨(hlevel hm).state c hc, trivial⟩
  have hmove {context c} (hc : I c) : (move context).LeadsTo I c :=
    hstep (fun _ => ⟨rfl, rfl, rfl, rfl⟩) hc
  have hnewScope {parent span text isFunc}
      {c : Checker} (hc : I c) : (Pass.newScope parent span text isFunc).LeadsTo I c :=
    hstep (fun _ => ⟨newScope_objects .., rfl, rfl, rfl⟩) hc
  exact {
    toRegime := h.regime
    parts := hparts _
    body := fun _ _ hbody => hbody
    stmts := fun hd => hd
    deferred := fun hc hd => hdeferred _ hc _ hd
    here := fun _ _ => trivial
    note := hstep fun _ => ⟨rfl, rfl, rfl, rfl⟩
    drop := fun hc => ⟨(hdrop _).state _ hc, trivial⟩
    openScope := fun hc => .current ((hnewScope hc).before fun _ _ _ hd =>
      (h.regime.recordScope hd trivial).before fun _ _ _ he => hmove he)
    closeScope := fun hc => .current (hmove hc)
    enter := fun hc _ => hmove hc
    resume := fun _ _ hd => hmove hd
    toPackage := hmove
    newScopeInPackage := fun hc => ⟨(hnewScope hc).state, trivial⟩ }

section

variable (h : Discipline I (fun _ => True) R Q)
variable (hstill : ∀ {α : Type} {m : Pass α}, (∀ c : Checker, c.Idle (m.1 c).2) → m.Preserves I)
variable (hR : ∀ x, R x)
variable (hQ : ∀ {e t}, Q { mode := .value, expr := some e, type := t })
include h hstill hR hQ

/-- A property that objects and reports alone bear on is kept by every evaluation. -/
lemma evaluates_all : Regime.Evaluates I (.plain I (fun _ => True) R Q) fun _ => True where
  toRegime := h.regime
  parts {e} _ := by cases e <;> simp [Expr.HasParts, Notions.plain, TypeExpr.collects_false]
  record hc _ _ := by
    refine ⟨(hstill fun d => ?_).state _ hc, trivial⟩
    unfold Pass.record
    split <;> exact ⟨rfl, rfl⟩
  recordPair hc _ _ := ⟨(hstill fun _ => ⟨rfl, rfl⟩).state _ hc, trivial⟩
  putOff _ _ hc := h.regime.functionLiteral hc (sigCollects_false _) fun _ _ _ hd _ _ =>
    ⟨(hstill fun _ => ⟨rfl, rfl⟩).state _ hd, trivial⟩
  given _ := hR _
  vouched _ := hQ

lemma governs_all : Regime.Governs I (.plain I (fun _ => True) R Q) (fun _ => True)
    fun d => .sure (∀ _ ∈ d.body.stmts, True) :=
  h.governs (fun hm => hstill fun c => ⟨(hm c).objects, (hm c).sink⟩)
    (fun s _ => (h.evaluates_all hstill hR hQ).keepsParts (by
      cases s <;> simp [Stmt.HasParts, Notions.plain, TypeExpr.collects_false]))
    (fun _ => hstill fun _ => ⟨rfl, rfl⟩) fun _ _ _ _ _ _ => trivial

end

end Discipline

end GoCheck
