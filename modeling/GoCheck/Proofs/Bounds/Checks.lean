import GoCheck.Proofs.Bounds.Safe
import GoCheck.Proofs.Regime.Statements

/-!
# Checks stay within bounds

The states that safe steps lead to from a closed state are those of a regime in which types, objects
and scopes are known to exist. So every check makes safe steps.
-/

namespace GoCheck

open Notions Regime Records

variable {s : Store} {t : TypeId} {id : Nat} {strict : Bool} {c : Checker} {x : Operand} {e : Expr}
  {run : Deferred → Pass Unit} {i : Implicit}

namespace Records

variable {rs : Records}

/-- Records of types that exist. -/
def Within (rs : Records) (s : Store) : Prop := ∀ r ∈ rs, s.HasType r.2.type

variable {untyped : TypeId → Bool}

lemma Within.insert (h : rs.Within s) (hr : s.HasType r.type) :
    Within (Table.insert rs id r) s := by
  intro p hp
  rcases Pass.mem_insert hp with heq | hold
  · exact heq ▸ hr
  · exact h p hold

/-- A change of one record that keeps its type or gives it one that exists. -/
lemma Within.alter (h : rs.Within s)
    (hf : ∀ r, (f r).type = r.type ∨ s.HasType (f r).type) : Within (Table.alter rs id f) s := by
  intro p hp
  obtain ⟨q, hq, rfl⟩ := List.mem_map.mp hp
  split
  · rcases hf q.2 with hsame | hnew
    · exact hsame ▸ h q hq
    · exact hnew
  · exact h q hq

lemma Within.setType (h : rs.Within s) (ht : s.HasType t) : (rs.setType id t).Within s :=
  h.alter fun _ => .inr ht

lemma Within.setValue (h : rs.Within s) : (rs.setValue untyped id v).Within s := by
  refine h.alter fun r => .inl ?_
  split <;> rfl

lemma Within.retypeNode (h : rs.Within s) (ht : s.HasType t) (hparts : ∀ r, (parts r rs).Within s) :
    (rs.retypeNode untyped t id parts).Within s := by
  unfold Records.retypeNode
  split
  · exact h
  · split
    · exact (hparts _).setType ht
    · exact h

lemma Within.retype (h : rs.Within s) (ht : s.HasType t) :
    ∀ e, (rs.retype untyped t e).Within s := by
  intro e
  fun_induction Records.retype untyped t e rs with
  | case1 n inner rs ih => exact h.retypeNode ht fun _ => ih _ h
  | case2 n op operand rs ih =>
    refine h.retypeNode ht fun r => ?_
    cases op with
    | address => exact h
    | indirect => exact h
    | _ =>
      dsimp only
      split
      · exact h
      · exact ih _ h
  | case3 rs e _ _ => exact h.retypeNode ht fun _ => h

lemma Within.setPair (ht : s.HasType t) (e : Expr) (h : rs.Within s) :
    (rs.setPair t e).Within s := by
  fun_induction Records.setPair t e rs with
  | case1 n inner rs ih => exact ih (h.setType ht)
  | case2 rs e _ => exact h.setType ht

end Records

/-- An implicit conversion to a type that exists gives a type that exists. -/
lemma Store.Implicitly.hasType {target : TypeId}
    (h : s.Implicitly x target i) (hs : s.Closed strict) (hx : x.Within s) (ht : s.HasType target) :
    ∀ t ∈ i.type, s.HasType t := by
  intro t hi
  cases h with
  | same => exact hx t hi
  | untyped _ hold _ _ hm =>
    cases hi
    rcases hm with rfl | rfl
    · exact hx _ hold
    · exact ht
  | constant _ _ _ _ _ _ _ _ | value _ _ _ _ _ =>
    cases hi
    exact ht
  | default _ hold _ _ =>
    cases hi
    exact hs.hasType_defaultType (hx _ hold)

/-- A closed state that safe steps lead to. -/
structure Checker.SafeTo (strict : Bool) (c d : Checker) : Prop where
  steps : c.SafeSteps strict d
  closed : d.Closed strict

lemma Checker.Closed.here (hc : c.Closed strict) : c.SafeTo strict c :=
  ⟨.refl c, hc⟩

/-- Types, objects and scopes exist. -/
def Notions.existing (strict : Bool) : Notions where
  type t := ⟨fun c => c.store.HasType t, fun hd ht => ht.steps hd⟩
  place t := ⟨fun c => c.store.HasType t, fun hd ht => ht.steps hd⟩
  object o := ⟨fun c => c.store.HasObject o, fun hd ho => ho.steps hd⟩
  scope x := ⟨fun c => c.store.HasScope x, fun hd hx => hx.steps hd⟩
  constant o := ⟨fun c => c.store.HasObject o, fun hd ho => ho.steps hd⟩
  excused := .any
  given _ := True
  vouched _ := True
  strict

/-- A body that can be checked. -/
def Fact.body (strict : Bool) (x : Deferred) : Fact :=
  ⟨fun c => x.Within strict c.store, fun hd hx => hd.keepStore (fun hs hx => hx.step hs) hx⟩

namespace Pass

variable {m : Pass α} {d : Checker}

lemma Safe.leads (hm : m.Safe strict d T) (hd : c.SafeTo strict d)
    (hQ : ∀ a d, T a d.store → (Q a).At d) : m.Leads (c.SafeTo strict) d Q :=
  ⟨⟨hd.steps.trans hm.steps, hm.closed⟩, hQ _ _ hm.result⟩

lemma Safe.leadsTo (hm : m.Safe strict d T) (hd : c.SafeTo strict d) :
    m.LeadsTo (c.SafeTo strict) d :=
  hm.leads hd fun _ _ _ => .intro

lemma Safe.of_leads (hm : m.Leads (c.SafeTo strict) c Q) (hT : ∀ a d, (Q a).At d → T a d.store) :
    m.Safe strict c T :=
  ⟨hm.state.steps, hm.state.closed, hT _ _ hm.result⟩

lemma Safe.of_leadsTo (hm : m.LeadsTo (c.SafeTo strict) c) : m.Safe strict c :=
  .of_leads hm fun _ _ _ => .intro

section

variable (hc : c.Closed strict)
include hc

lemma safe_applyImplicit (hi : ∀ t ∈ i.type, c.store.HasType t) :
    (applyImplicit x i).Safe strict c fun y s => y.Within s := by
  simp only [applyImplicit, safe_entities_bind]
  have hrecords : (recordImplicit c.store.isUntyped x i c.info.types).Within c.store := by
    unfold recordImplicit
    split
    · exact hc.info.types
    · rename_i e _
      have hvalue : Within (i.value.elim c.info.types fun v =>
          c.info.types.setValue c.store.isUntyped e.id v) c.store := by
        cases i.value with
        | none => exact hc.info.types
        | some v => exact Within.setValue hc.info.types
      split
      · rename_i u hu
        split
        · exact hvalue.retype (hi u hu) e
        · exact hvalue
      · exact hvalue
  refine (safe_onRecords hc hrecords).bind fun _ d _ hd hstore => .pure hd ?_
  rw [hstore]
  exact hi

lemma safe_finishConversion (hx : x.Within c.store) (ht : c.store.HasType t) :
    (finishConversion b x t).Safe strict c fun y s => y.Within s := by
  have hlog : (x.expr.forM fun e => recordConversion ⟨e, t, x.mode.isConstant⟩).Safe strict c :=
    safe_optionForM hc fun e _ => (safe_recordConversion hc ht).trivial
  refine hlog.bind fun _ d hd hclosed _ => safe_entities_bind.mpr ?_
  have hrecords : (recordConverted d.store b x t d.info.types).Within d.store := by
    unfold recordConverted
    split
    · rename_i old e hold _
      split
      · refine Within.retype hclosed.info.types ?_ e
        unfold convertedType
        split
        · exact hclosed.store.hasType_defaultType ((hx old hold).steps hd)
        · split
          · exact (hx old hold).steps hd
          · exact ht.steps hd
      · exact hclosed.info.types
    · exact hclosed.info.types
  refine (safe_onRecords hclosed hrecords).bind fun _ f hf hclosedf hstore => .pure hclosedf ?_
  rintro u ⟨⟩
  exact (ht.steps hd).steps hf

lemma safe_record (hx : x.Within c.store) : (record id x).Safe strict c fun _ s => s = c.store := by
  have henter : ∀ t, c.store.HasType t →
      (onRecords (·.insert id ⟨x.mode, t⟩)).Safe strict c fun _ s => s = c.store :=
    fun t ht => safe_onRecords hc (Within.insert hc.info.types ht)
  unfold record
  split
  · exact safe_recordFailed hc
  · exact henter _ hc.store.hasType_noValue
  · rename_i u hu _ _
    exact henter u (hx u hu)
  · exact .pure hc rfl

end

/-- A new type other than a signature may be added if all that it refers to exists. -/
lemma admits_of_refs (hsig : ty.signature? = none)
    (hpart : ∀ u ∈ ty.typeRefs, s.HasType u) (hmember : ∀ o ∈ ty.objectRefs, s.HasObject o) :
    s.Admits strict ty := by
  refine ⟨hpart, hmember, fun _ sig hty => ?_⟩
  simp [hty, Ty.signature?] at hsig

lemma existing_typed (ho : c.store.HasObject o) : ((existing strict).typed o).At c :=
  ⟨ho, fun _ => trivial⟩

lemma existing_sound (hx : x.Within c.store) : ((existing strict).sound x).At c :=
  ⟨hx, fun _ => trivial⟩

lemma existing_value (hx : x.Within c.store) : ((existing strict).value x).At c :=
  ⟨existing_sound hx, trivial⟩

end Pass

open Pass

lemma safe_regime : Regime (c.SafeTo strict) (.existing strict) where
  basic hd _ := hd.closed.store.hasType_basic _
  noValue hd := hd.closed.store.hasType_noValue
  error hd := hd.closed.store.hasType_error
  part hd hu := hd.closed.store.part _ _ (Ty.mem_typeRefs_of_mem_typeParts hu)
  defaultType hd ht := hd.closed.store.hasType_defaultType ht
  objectType hd ht := hd.closed.store.object _ _ ht
  member hd ho := existing_typed (hd.closed.store.hasObject_of_mem_tupleVars ho)
  selected hd ho := existing_typed (hd.closed.store.hasObject_of_select ho)
  found hd ho := existing_typed (hd.closed.store.hasObject_of_find? ho)
  excuse _ _ _ := trivial
  invalid hd _ := hd.closed.store.hasType_basic .invalid
  place _ ht := ht
  nowhere hd := hd.closed.store.hasType_basic .invalid
  accept _ _ _ := trivial
  reject _ := trivial
  invalidated _ := trivial
  missing := trivial
  logEvent hd := (safe_logEvent hd.closed).leadsTo hd
  noteLiteral hd := (safe_note hd.closed).leadsTo hd
  setIndent hd := (safe_step hd.closed (.indent ..)).leadsTo hd
  emit _ hd _ _ _ := (safe_emit hd.closed).leads hd fun _ _ _ _ => trivial
  report hd _ := (safe_report hd.closed).leads hd fun _ _ _ _ => trivial
  unpresentable hd _ _ _ := (safe_report hd.closed).leadsTo hd
  newType hd hsig hparts hmembers :=
    (safe_newType hd.closed (admits_of_refs hsig hparts fun o ho => (hmembers o ho).1)).leads hd
      fun _ _ ht => ht.1
  -- signatures alone have a condition of their own: a variadic one has a last parameter
  newSignature hd hparams hresults hvariadic :=
    (safe_newType hd.closed ⟨by simpa [Ty.typeRefs] using ⟨hparams, hresults⟩, by simp [Ty.objectRefs],
      fun hstrict sig hsig hv => by
        cases hsig
        exact hvariadic hstrict hv⟩).leads hd fun _ _ ht => ht.1
  newVar hd ht := (safe_newVar hd.closed ht).leads hd fun _ _ ho => ⟨ho, fun _ => existing_typed ho⟩
  newParam hd ht := (safe_newParam hd.closed (Fact.opt_some ht)).leads hd fun _ _ ho =>
    existing_typed ho
  newConst hd ht := (safe_newConst hd.closed ht).leads hd fun _ _ ho => ⟨ho, ho⟩
  newScope hd := (safe_newScope hd.closed hd.closed.context.scope).leads hd fun _ _ hx => hx
  markUsed hd ho := (safe_markUsed hd.closed ho).leadsTo hd
  restoreUse _ _ hd ho := (safe_setUsed hd.closed ho).leadsTo hd
  giveType hd ho ht := by
    have hgive := (safe_giveType hd.closed ho ht).leadsTo hd
    exact ⟨hgive.state, existing_typed (ho.steps (Pass.steps _ _))⟩
  setValue hd ho := (safe_setValue hd.closed ho).leadsTo hd
  declare hd hx ho := (safe_declare hd.closed hx ho.1).leadsTo hd
  lookup hd := (safe_lookup hd.closed).leads hd fun _ _ ho o h => existing_typed (ho o h)
  recordUse hd ho := (safe_recordUse hd.closed ho).leadsTo hd
  recordDef hd ho := (safe_recordDef hd.closed ho).leadsTo hd
  recordScope hd hx := (safe_recordScope hd.closed hx).leadsTo hd
  implicit hd hx ht hi :=
    (safe_applyImplicit hd.closed ((Store.implicitly_of_implicit hi).hasType hd.closed.store hx.1.1
      ht)).leads hd fun _ _ hy => existing_sound hy
  finish {_ x m _ _} hd hx _ ht :=
    (safe_finishConversion (x := x.withMode m) hd.closed hx.1.1 ht).leadsTo hd
  failed := .inl fun _ _ => trivial

lemma collects_of_mem_exprs (h : exprsCollect strict es) : ∀ e ∈ es, e.collects strict := by
  induction es with
  | nil => simp
  | cons e es ih =>
    rw [exprsCollect, Bool.and_eq_true] at h
    exact List.forall_mem_cons.mpr ⟨h.1, ih h.2⟩

lemma collects_of_mem_block : blockCollects strict b ↔ ∀ s ∈ b.stmts, s.collects strict := by
  obtain ⟨stmts, span⟩ := b
  rw [blockCollects]
  induction stmts with
  | nil => simp [stmtsCollect]
  | cons s ss ih => simp [stmtsCollect, ih]

lemma safe_evaluates :
    Evaluates (c.SafeTo strict) (.existing strict) fun e => e.collects strict where
  toRegime := safe_regime
  parts {e} he := by
    cases e with
    | index n base index | assert n base type => exact Bool.and_eq_true_iff.mp he
    | call n func args spread =>
      rw [Expr.collects, Bool.and_eq_true] at he
      exact ⟨he.1, collects_of_mem_exprs he.2⟩
    | ident | lit | funcLit => trivial
    | _ => exact he
  record hd _ hx := (safe_record hd.closed hx.1).leadsTo hd
  recordPair {_ e _} hd _ ht :=
    (safe_onRecords hd.closed (Within.setPair ht e hd.closed.info.types)).leadsTo hd
  putOff {n sig body} he d hd := by
    rw [Expr.collects, Bool.and_eq_true] at he
    exact functionLiteral safe_regime hd he.1 fun t s f hf ht hs =>
      (safe_defer (d := ⟨t, s, body⟩) hf.closed ⟨ht, hs, he.2⟩).leadsTo hf
  given _ := trivial
  vouched _ := trivial

lemma safe_governs :
    Governs (c.SafeTo strict) (.existing strict) (fun s => s.collects strict)
      (.body strict) where
  toRegime := safe_regime
  parts {s} hs := by
    refine Evaluates.keepsParts safe_evaluates ?_
    cases s with
    | empty span => trivial
    | block span body => exact collects_of_mem_block.mp hs
    | var span specs | const span specs =>
      intro spec hspec
      obtain ⟨htype, hvalues⟩ := specCollects_iff.mp (specsCollect_iff.mp hs spec hspec)
      exact ⟨collects_of_mem_exprs hvalues, htype⟩
    | short span lhs rhs | assign span lhs rhs =>
      rw [Stmt.collects, Bool.and_eq_true] at hs
      exact ⟨collects_of_mem_exprs hs.1, collects_of_mem_exprs hs.2⟩
    | ret span es => exact collects_of_mem_exprs hs
    | expr span e => exact hs
  body ht hx hbody := ⟨ht, hx, collects_of_mem_block.mpr hbody⟩
  stmts hx := collects_of_mem_block.mp hx.collects
  deferred hd hx := hd.closed.deferred _ hx
  here hd hx := by
    rcases hx with rfl | hx
    · exact hd.closed.hasScope_packageScope
    · exact hd.closed.context.scope _ hx
  note hd := (safe_note hd.closed).leadsTo hd
  drop hd := (safe_dropDeferred hd.closed).leadsTo hd
  openScope hd := (safe_openScope hd.closed).leadsTo hd
  closeScope hd := (safe_closeScope hd.closed).leadsTo hd
  enter {_ x} hd hx := by
    refine (safe_move hd.closed (Context.within_some hx.scope ?_)).leadsTo hd
    rintro _ ⟨⟩
    exact hx.sig
  resume hd hs hf := (safe_move hf.closed (hd.closed.context.steps hs)).leadsTo hf
  toPackage hd := (safe_move hd.closed (Context.within_some hd.closed.hasScope_packageScope
    hd.closed.context.sig)).leadsTo hd
  newScopeInPackage hd := by
    refine (safe_newScope hd.closed ?_).leads hd fun _ _ hx => hx
    rintro _ ⟨⟩
    exact hd.closed.hasScope_packageScope

namespace Pass

variable {m : Pass Evaluated} {scope : ScopeId}

/-- An evaluation that is safe from every closed state. -/
def SafeEval (strict : Bool) (m : Pass Evaluated) : Prop :=
  ∀ c, c.Closed strict → m.Safe strict c fun r s => r.1.Within s

/-- A check of bodies that is safe from every closed state. -/
def SafeRun (strict : Bool) (run : Deferred → Pass Unit) : Prop :=
  ∀ x d, d.Closed strict → x.Within strict d.store → (run x).Safe strict d

lemma SafeEval.always (hm : SafeEval strict m) :
    m.Always (c.SafeTo strict) fun r => (existing strict).outcome r.1 :=
  fun d hd => (hm d hd.closed).leads hd fun _ _ hx => ⟨existing_sound hx, .intro⟩

lemma SafeRun.leads (hrun : SafeRun strict run) (x : Deferred)
    (d : Checker) (hd : c.SafeTo strict d) (hx : (Fact.body strict x).At d) :
    (run x).LeadsTo (c.SafeTo strict) d :=
  (hrun x d hd.closed hx).leadsTo hd

lemma safeEval_eval (e : Expr) (he : e.collects strict) : SafeEval strict e.eval :=
  fun _ hc => .of_leads (Evaluates.eval safe_evaluates e he _ hc.here) fun _ _ hx => hx.1.1

lemma safeRun_literalBody (n : Nat) : SafeRun strict (literalBody n) :=
  fun _ _ hd hx => .of_leadsTo (Governs.literalBody safe_governs hd.here hx)

lemma safeRun_checkLiteral : SafeRun strict checkLiteral :=
  fun _ _ hd hx => .of_leadsTo (Governs.checkLiteral safe_governs hd.here hx)

section

variable (hc : c.Closed strict)
include hc

lemma safe_newSlice (ht : c.store.HasType t) : (newSlice t).Safe strict c fun u s => s.HasType u :=
  .of_leads (Regime.newSlice safe_regime hc.here ht) fun _ _ ht => ht

lemma safe_newTuple (hvars : ∀ v ∈ vars, c.store.HasObject v) :
    (newTuple vars).Safe strict c fun u s => s.HasType u ∧ s.tupleVars u = vars :=
  .of_leads (Regime.newTuple safe_regime hc.here fun v hv => existing_typed (hvars v hv)) fun _ _ ht => ht.2

lemma safe_resolve (type : TypeExpr) (htype : type.collects strict) :
    type.resolve.Safe strict c fun t s => s.HasType t :=
  .of_leads (resolve safe_regime type htype hc.here) fun _ _ ht => ht

lemma safe_resolveSig (sig : FuncSig) (hsig : sigCollects strict sig) :
    (resolveSig sig).Safe strict c fun r s => s.HasType r.1 ∧ s.HasScope r.2 :=
  .of_leads (Regime.resolveSig safe_regime sig hsig hc.here) fun _ _ hr => hr

lemma safe_resolveParams (n : Nat) (variadic : Bool) (ps : List Param)
    (hps : paramsCollect strict ps) (hscope : c.store.HasScope scope) :
    (resolveParams scope n variadic ps).Safe strict c fun os s =>
      os.length = ps.length ∧ ∀ o ∈ os, s.HasObject o :=
  .of_leads (Regime.resolveParams safe_regime hscope n variadic ps hps hc.here) fun _ _ hos =>
    ⟨hos.2, fun o ho => (hos.1 o ho).1⟩

lemma safe_resolveParam (n : Nat) (collects : Bool) (p : Param)
    (hp : paramCollects strict p) (hscope : c.store.HasScope scope) :
    (resolveParam scope n collects p).Safe strict c fun o s => s.HasObject o :=
  .of_leads (Regime.resolveParam safe_regime hscope n collects p hp hc.here) fun _ _ ho => ho.1

lemma safe_declaredType {type : Option TypeExpr} {f : TypeExpr → Pass TypeId}
    (hf : ∀ e ∈ type, (f e).Safe strict c fun t s => s.HasType t) :
    (type.mapM f).Safe strict c fun r s => ∀ t ∈ r, s.HasType t :=
  .of_leads (leads_optionMapM hc.here fun e he => (hf e he).leads (Q := (existing strict).type)
    hc.here fun _ _ ht => ht) fun _ _ ht => ht

lemma safe_constType {type : TypeExpr} (htype : type.collects strict) :
    (constType type).Safe strict c fun t s => s.HasType t :=
  .of_leads (Regime.constType safe_regime hc.here htype) fun _ _ ht => ht

lemma safe_value (hm : SafeEval strict m) : (value m).Safe strict c fun y s => y.Within s :=
  .of_leads (Regime.value safe_regime hm.always _ hc.here) fun _ _ hy => hy.1.1

lemma safe_valueOrType (hm : SafeEval strict m) :
    (valueOrType m).Safe strict c fun y s => y.Within s :=
  .of_leads (Regime.valueOrType safe_regime hm.always _ hc.here) fun _ _ hy => hy.1

lemma safe_values (hps : ∀ p ∈ ps, SafeEval strict p.eval) :
    (values ps pair).Safe strict c fun r s => ∀ y ∈ r.1, y.Within s :=
  .of_leads (Regime.values safe_regime hc.here fun p hp => ⟨(hps p hp).always, fun _ => .intro⟩)
    fun _ _ hr y hy => (hr y hy).1.1

lemma safe_evalTarget (he : e.collects strict) :
    (evalTarget e).Safe strict c fun y s => y.Within s :=
  have hkeeps := Regime.Evaluates.keeps safe_evaluates he
  .of_leads (Regime.evalTarget safe_regime hc.here hkeeps) fun _ _ hy => hy.1

section

variable (hx : x.Within c.store)
include hx

lemma safe_initConst (ho : c.store.HasObject o) : (initConst o x).Safe strict c :=
  .of_leadsTo (Regime.initConst safe_regime hc.here (existing_value hx) ho ho).to

lemma safe_initVar (ho : c.store.HasObject o) :
    (initVar o x context).Safe strict c fun r s => ∀ u ∈ r, s.HasType u :=
  .of_leads (Regime.initVar safe_regime hc.here (existing_value hx) ho) fun _ _ hr => hr.2

lemma safe_assignVar (he : e.collects strict) :
    (assignVar e x).Safe strict c fun r s => ∀ t ∈ r, s.HasType t :=
  have htarget := Regime.Evaluates.target safe_evaluates he
  .of_leads (Regime.assignVar safe_regime hc.here htarget (existing_value hx)) fun _ _ hr => hr

end

lemma safe_varSpec (hspec : specCollects strict spec) :
    (varSpec spec).Safe strict c :=
  have hparts := specCollects_iff.mp hspec
  have hsources := Evaluates.sources safe_evaluates (collects_of_mem_exprs hparts.2)
  .of_leadsTo (Governs.varSpec safe_governs hc.here hsources hparts.1)

lemma safe_constSpec (hspec : specCollects strict spec) :
    (constSpec spec).Safe strict c :=
  have hparts := specCollects_iff.mp hspec
  .of_leadsTo (Governs.constSpec safe_governs hc.here
    (Evaluates.sources safe_evaluates (collects_of_mem_exprs hparts.2)).eval hparts.1)

omit hc in
/-- A target whose variable exists, if it has one. -/
def ShortTarget.Within (s : Store) : ShortTarget → Prop
  | .fresh o | .existing o => s.HasObject o
  | .wrong => True

omit hc in
lemma existing_target {target : ShortTarget} :
    ((existing strict).target target).At c ↔ target.Within c.store := by
  cases target <;> exact .rfl

lemma safe_shortName {i : Ident} : (shortName scope e i).Safe strict c fun t s => t.Within s :=
  .of_leads (Regime.shortName safe_regime hc.here) fun _ _ => existing_target.mp

lemma safe_shortTargets (hes : exprsCollect strict es) :
    (shortTargets scope seen es).Safe strict c fun ts s => ∀ t ∈ ts, t.Within s :=
  .of_leads (Regime.shortTargets safe_regime hc.here
    (Regime.Evaluates.sources safe_evaluates (collects_of_mem_exprs hes)).eval)
    fun _ _ hts t ht => existing_target.mp (hts.1 t ht)

lemma safe_targetVars (hts : ∀ t ∈ ts, t.Within c.store) :
    (targetVars ts es).Safe strict c fun os s => ∀ o ∈ os, s.HasObject o :=
  .of_leads (Regime.targetVars safe_regime hc.here fun t ht => existing_target.mpr (hts t ht))
    fun _ _ hos => hos.1

lemma safe_shortInit (hlhs : exprsCollect strict es) (hrhs : exprsCollect strict rhs) :
    (shortInit scope es rhs).Safe strict c fun r s => ∀ o ∈ r.2, s.HasObject o :=
  .of_leads (Regime.shortInit safe_regime hc.here
    (Regime.Evaluates.sources safe_evaluates (collects_of_mem_exprs hlhs)).eval
    (Regime.Evaluates.sources safe_evaluates (collects_of_mem_exprs hrhs))) fun _ _ hr o ho => (hr o ho).1

section

variable (hrun : SafeRun strict run)
include hrun

lemma safe_runDeferred : (runDeferred run top).Safe strict c :=
  .of_leadsTo (Governs.runDeferred safe_governs hc.here hrun.leads)

lemma safe_observeStmt {s : Stmt} {m : Pass Unit}
    (hm : ∀ d, d.Closed strict → m.Safe strict d fun _ _ => True) :
    (observeStmt run s m).Safe strict c :=
  .of_leadsTo (Governs.observeStmt safe_governs hc.here hrun.leads fun d hd =>
    (hm d hd.closed).leadsTo hd)

lemma safe_act (s : Stmt) (hs : s.collects strict) : (s.act run).Safe strict c :=
  .of_leadsTo (Governs.act safe_governs hrun.leads s hs hc.here)

lemma safe_functionBody {d : Deferred} (hd : d.Within strict c.store) :
    (functionBody run title d).Safe strict c :=
  .of_leadsTo (Governs.functionBody safe_governs hc.here hrun.leads hd)

end

lemma safe_declareInPackage (ho : c.store.HasObject o) :
    (declareInPackage o).Safe strict c :=
  safe_current_bind.mpr (safe_declare hc hc.hasScope_packageScope ho)

omit hc in
lemma safe_declareNew (hnew : ∀ p, (new p).Safe strict c fun o s => s.HasObject o) :
    (declareNew new).Safe strict c := by
  refine safe_current_bind.mpr ((hnew _).bind fun o d _ hd ho => ?_)
  exact (safe_declareInPackage hd ho).bind fun _ f _ hf _ => .pure hf .intro

variable (hbody : blockCollects strict body)
include hbody

lemma safe_bodyOf (hsig : c.store.HasType sig) : (bodyOf sig body).Safe strict c :=
  .of_leadsTo (Governs.bodyOf safe_governs hc.here (collects_of_mem_block.mp hbody) fun _ hd _ =>
    hsig.steps hd)

lemma safe_function (hsig : sigCollects strict sig) :
    (function sig body).Safe strict c :=
  .of_leadsTo (Governs.function safe_governs hc.here (collects_of_mem_block.mp hbody) hsig)

lemma safe_block : (block body).Safe strict c :=
  .of_leadsTo (Governs.block safe_governs hc.here (collects_of_mem_block.mp hbody))

end

end Pass

end GoCheck
