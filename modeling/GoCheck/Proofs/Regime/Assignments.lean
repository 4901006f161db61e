import GoCheck.Proofs.Regime.Expressions

/-!
# Initialization and assignment under a regime

What evaluations keep is kept by all that is done with their operands: variables and constants have
a type once they are initialized, and targets take values on. A missing value is reported only after
the fact.
-/

namespace GoCheck

open Pass List Notions GoCheck.Fact

variable {N : Notions} {l : Expr} {es inits : List Expr} {ts : List ShortTarget}
  {names is : List Ident} {isConst : Bool}

/-- Expressions whose values are given away, and the record of a pair of values. -/
structure Sources (I : Checker → Prop) (N : Notions) (es : List Expr) : Prop where
  eval : ∀ e ∈ es, e.Keeps I N
  pair : ∀ {c a b}, I c → (opt N.type a).At c →
    (opt N.type b).At c → (recordPair es a b).LeadsTo I c

/-- A target of an assignment. The base of a selector may be evaluated by itself. -/
structure Expr.KeepsTarget (I : Checker → Prop) (N : Notions) (l : Expr) : Prop where
  whole : l.Keeps I N
  base : ∀ n base sel, l = .selector n base sel → base.eval.Always I fun r => N.outcome r.1

namespace Regime.Evaluates

variable (h : Evaluates I N A)
include h

lemma sources (hes : ∀ e ∈ es, A e) : Sources I N es where
  eval e he := h.keeps (hes e he)
  pair {c a b} hc ha hb := by
    unfold Pass.recordPair
    split
    · rename_i e _ t u heq
      cases heq
      have hpair := all_cons.mpr ⟨ha t rfl, all_cons.mpr ⟨hb u rfl, all_nil⟩⟩
      exact (h.tupleOf hc hpair).bind fun _ _ _ hd ht => h.recordPair hd (hes e (by simp)) ht
    · exact .pure hc trivial

lemma target (hl : A l) : l.KeepsTarget I N where
  whole := h.keeps hl
  base n base sel heq := by
    subst heq
    exact h.eval base (h.parts hl)

end Regime.Evaluates

/-- The variable of a target of a short declaration, if it has one. -/
def Notions.target (N : Notions) : ShortTarget → Fact
  | .fresh o | .existing o => N.object o
  | .wrong => .any

lemma code_hiddenResult (name : String) (span other : Span) :
    (hiddenResult name span other).code = some Fault.outOfScopeResult.code := by
  unfold hiddenResult
  by_cases hdummy : other.isDummy
  · rw [if_pos hdummy]
    rfl
  · rw [if_neg hdummy]
    rfl

lemma isError_returnCountReport (s : Store) (span : Span) (lhs : List ObjectId)
    (rhs : List Operand) : (returnCountReport s span lhs rhs).isError := by
  simp only [returnCountReport, isError_withNote]
  exact isError_report rfl

lemma failed_reportCounts (span : Span) (rhs : List Expr) (n m : Nat) (c : Checker) :
    ((reportCounts span rhs n m).1 c).2.Failed := by
  unfold reportCounts
  split <;> exact failed_report rfl

/-- A name without a value is reported, unless a single value stands for all variables. -/
lemma failed_checkArity
    (hlt : inits.length < names.length) (h : isConst ∨ inits.length ≠ 1) (c : Checker) :
    ((checkArity names inits isConst).1 c).2.Failed := by
  unfold checkArity
  have hextra : inits[names.length]? = none := by
    rw [getElem?_eq_none_iff]
    omega
  obtain ⟨name, hname⟩ : ∃ name, names[inits.length]? = some name :=
    ⟨_, getElem?_eq_getElem hlt⟩
  have hcond : (isConst || decide (inits.length ≠ 1)) := by simpa using h
  simp only [hextra, hname, hcond, if_true]
  exact failed_report rfl

lemma mem_of_mem_newVars {s : Store} (h : o ∈ newVars s ts) : ShortTarget.fresh o ∈ ts := by
  obtain ⟨t, ht, ho⟩ := mem_filterMap.mp h
  cases t with
  | fresh o' =>
    dsimp only at ho
    split at ho
    · cases ho
    · cases ho
      exact ht
  | _ => cases ho

namespace Regime

variable (h : Regime I N) {c : Checker} (hc : I c)
variable {span : Span} {spec : Spec}
include h hc

lemma excused_of_isFaulty (hx : (N.sound x).At c) (hfaulty : isFaulty x) : N.excused.At c := by
  rcases Bool.or_eq_true_iff.mp hfaulty with hinvalid | htype
  · exact hx.2 (.inl (of_decide_eq_true hinvalid))
  · exact h.excuse hc (hx.1 _ (of_decide_eq_true htype)) (.inl rfl)

lemma excused_of_faulty (hx : (N.sound x).At c)
    (hfaulty : (isFaulty x || decide ((c.store.object o).type = some .invalid))) :
    N.excused.At c := by
  rcases Bool.or_eq_true_iff.mp hfaulty with hx' | hdeclared
  · exact h.excused_of_isFaulty hc hx hx'
  · exact h.excuse hc (h.objectType hc (of_decide_eq_true hdeclared)) (.inl rfl)

lemma initConst (hx : (N.value x).At c) (ho : (N.object o).At c) (hconst : (N.constant o).At c) :
    (Pass.initConst o x).Leads I c fun _ => N.typed o := by
  refine .entities ?_
  dsimp only
  split
  · exact h.invalidateMissing hc ho (h.excused_of_faulty hc hx.1 ‹_›)
  · split
    · exact (h.report hc rfl).bind fun _ d hd hI he =>
        h.invalidateMissing hI (ho.later hd) (he rfl)
    · have hgive : (x.type.forM (Pass.giveType o)).Leads I c fun _ => N.typed o := by
        cases htype : x.type with
        | none => exact .pure hc (typed_of_excused ho (hx.1.2 (.inr htype)))
        | some t => exact h.giveType hc ho (hx.1.1 t htype)
      refine hgive.bind fun _ d hd hI htyped => ?_
      have hplace : (N.type ((c.store.object o).type.getD x.typeOrInvalid)).At c := by
        cases htype : (c.store.object o).type with
        | none => exact h.typeOrInvalid hc hx.1
        | some t => exact h.objectType hc htype
      have hat := opt_some (h.place hI (hplace.later hd))
      refine (h.assignment hI (hx.later hd) hat).before fun y f hf hI' => ?_
      refine (leads_optionForM hI' fun v _ => h.setValue hI' ((hconst.later hd).later hf)).mono
        fun _ g hg _ _ => (htyped.later hf).later hg

lemma initTyped (hx : (N.value x).At c) (ho : (N.object o).At c) (ht : (N.place t).At c) :
    (initTyped o t x context).Leads I c (opt N.type) := by
  refine (h.assignment hc hx (opt_some ht)).bind fun y d hd hI hy => ?_
  split
  · exact (h.markUsed hI (ho.later hd)).before fun _ _ _ hI' => .pure hI' opt_none
  · exact .pure hI hy.1

lemma initVar (hx : (N.value x).At c) (ho : (N.object o).At c) :
    (initVar o x context).Leads I c fun r => (N.typed o).and (opt N.type r) := by
  refine .entities ?_
  dsimp only
  split
  · refine (h.invalidateMissing hc ho (h.excused_of_faulty hc hx.1 ‹_›)).bind fun _ d hd hI htyped => ?_
    exact (h.markUsed hI (ho.later hd)).before fun _ f hf hI' =>
      .pure hI' ⟨htyped.later hf, opt_none⟩
  · cases hdeclared : (c.store.object o).type with
    | some t =>
      have ht := h.place hc (h.objectType hc hdeclared)
      exact (h.initTyped hc hx ho ht).mono fun _ d hd _ hr =>
        ⟨(typed_of_type ho hdeclared).later hd, hr⟩
    | none =>
      dsimp only
      split
      · refine (h.report hc rfl).bind fun _ d hd hI he => ?_
        exact (h.invalidateMissing hI (ho.later hd) (he rfl)).bind fun _ _ _ hI' htyped =>
          .pure hI' ⟨htyped, opt_none⟩
      · have ht := h.defaultType hc (h.typeOrInvalid hc hx.1)
        refine (h.giveType hc ho ht).bind fun _ d hd hI htyped => ?_
        exact (h.initTyped hI (hx.later hd) (ho.later hd) (h.place hI (ht.later hd))).mono
          fun _ f hf _ hr => ⟨htyped.later hf, hr⟩

variable {vs : List ObjectId} {xs : List Operand}

lemma initEach (hlen : vs.length = xs.length) (hvs : (all N.object vs).At c)
    (hxs : (all N.value xs).At c) :
    (initEach context vs xs).Leads I c fun _ => all N.typed vs := by
  induction vs generalizing xs c with
  | nil => exact .pure hc all_nil
  | cons v vs ih =>
    cases xs with
    | nil => simp at hlen
    | cons x xs =>
      obtain ⟨hv, hvs⟩ := all_cons.mp hvs
      obtain ⟨hx, hxs⟩ := all_cons.mp hxs
      refine (h.initVar hc hx hv).bind fun _ d hd hI hr => ?_
      refine (ih hI (Nat.succ.inj hlen) (hvs.later hd) (hxs.later hd)).bind fun _ f hf hI' hrest => ?_
      exact .pure hI' (all_cons.mpr ⟨hr.1.later hf, hrest⟩)

lemma reportCounts : (Pass.reportCounts span es n k).LeadsTo I c := by
  unfold Pass.reportCounts
  split <;> exact (h.report hc rfl).to

variable {e : Expr}

/-- Values that differ in number from the variables are always reported. -/
lemma refuseInit (hlhs : (all N.object lhs).At c) (hxs : (all N.value xs).At c) :
    (Pass.refuseInit lhs es xs returning).Leads I c fun _ => all N.typed lhs := by
  have htyped {d} (hd : c.Steps d) (he : N.excused.At d) : (all N.typed lhs).At d :=
    fun v hv => typed_of_excused ((hlhs v hv).later hd) he
  have hexcused (he : N.excused.At c) :
      (Pass.refuseInit lhs es xs returning).Leads I c fun _ => all N.typed lhs := by
    have hvars : (lhs.forM fun v => do Pass.markUsed v; Pass.invalidateMissing v).LeadsTo I c :=
      leads_forM hc fun v hv d hd hI => (h.markUsed hI ((hlhs v hv).later hd)).before fun _ f hf hI' =>
        (h.invalidateMissing hI' (((hlhs v hv).later hd).later hf) (he.later (hd.trans hf))).to
    have hrest : (Pass.refuseInit lhs es xs returning).LeadsTo I c := by
      refine hvars.before fun _ d hd hI => ?_
      split
      · exact .pure hI trivial
      · refine .entities ?_
        cases returning with
        | some span => exact (h.emit .wrongResultCount hI rfl (by decide) (by decide)).to
        | none => exact h.reportCounts hI
    exact hrest.mono fun _ d hd _ _ => htyped hd (he.later hd)
  by_cases hany : xs.any (·.isInvalid)
  · obtain ⟨x, hx, hinvalid⟩ := any_eq_true.mp hany
    exact hexcused ((hxs x hx).1.2 (.inl (of_decide_eq_true hinvalid)))
  · refine h.late hc ?_ hexcused fun _ htyped v _ => htyped v
    refine failed_bind_of_forall fun _ d => ?_
    rw [if_neg hany]
    cases returning with
    | some span => exact failed_emit (isError_returnCountReport ..)
    | none => exact failed_reportCounts ..

lemma initVars (hes : Sources I N es) (hlhs : (all N.object lhs).At c) :
    (Pass.initVars lhs es returning).Leads I c fun _ => all N.typed lhs := by
  refine (h.values hc (keeps_of_mem_pending hes.eval)).bind fun r d hd hI hxs => ?_
  obtain ⟨xs, pair⟩ := r
  have hlhs := hlhs.later hd
  dsimp only at hxs ⊢
  split
  · exact h.refuseInit hI hlhs hxs
  · rename_i hlen
    split
    · obtain ⟨hx, hxs⟩ := all_cons.mp hxs
      obtain ⟨hy, -⟩ := all_cons.mp hxs
      obtain ⟨hv, hlhs⟩ := all_cons.mp hlhs
      obtain ⟨hw, -⟩ := all_cons.mp hlhs
      refine (h.initVar hI hx hv).bind fun a f hf hIf ha => ?_
      refine (h.initVar hIf (hy.later hf) (hw.later hf)).bind fun b g hg hIg hb => ?_
      refine (h.logEvent hIg).before fun _ k hk hIk => ?_
      have ha := (ha.later hg).later hk
      have hb := hb.later hk
      refine (hes.pair hIk ha.2 hb.2).mono fun _ n hn _ _ => ?_
      exact all_cons.mpr ⟨ha.1.later hn, all_cons.mpr ⟨hb.1.later hn, all_nil⟩⟩
    · refine (h.initEach hI (Decidable.of_not_not hlen) hlhs hxs).bind fun b f hf hIf htyped => ?_
      have hmark : (unless b do lhs.forM Pass.markUsed : Pass Unit).LeadsTo I f := by
        split
        · exact .pure hIf trivial
        · exact leads_forM hIf fun v hv g hg hIg => h.markUsed hIg (((hlhs v hv).later hf).later hg)
      exact hmark.mono fun _ g hg _ _ => htyped.later hg

lemma evalTarget (hl : l.Keeps I N) : (Pass.evalTarget l).Leads I c N.sound := by
  have hrest {d} named? (hd : I d)
      (hnamed : (opt N.object named?).At d) : (entities >>= fun s => l.evalValue >>= fun x =>
      (named?.forM fun o => Pass.setUsed o (s.object o).isUsed) >>= fun _ => pure x).Leads I d
        N.sound := by
    refine .entities ((h.value hl.eval _ hd).bind fun x f hf hI hx => ?_)
    exact (leads_optionForM hI fun o ho => h.restoreUse hd hf hI ((hnamed o ho).later hf)).before
      fun _ g hg hI' => .pure hI' (hx.1.later hg)
  unfold Pass.evalTarget
  split
  · exact (h.localVar? hc).bind fun named? _ _ hd hnamed => hrest named? hd hnamed
  · exact hrest none hc opt_none

lemma reportTarget (hl : l.KeepsTarget I N) : (Pass.reportTarget l x).LeadsTo I c := by
  have hrest {d : Checker} (hd : I d) (inMap : Bool) :
      (if inMap then Pass.report (.fieldOfMapElement l.text) x.span else do
        Pass.report (.cannotAssignTo (← describe x)) x.span).LeadsTo I d := by
    split
    · exact (h.report hd rfl).to
    · exact .describe (h.report hd rfl).to
  unfold Pass.reportTarget
  split
  · exact (h.value (hl.base _ _ _ rfl) _ hc).before fun _ _ _ hd => hrest hd _
  · exact hrest hc false

lemma targetType (hl : l.KeepsTarget I N) : (Pass.targetType l).Leads I c (opt N.place) := by
  unfold Pass.targetType
  split
  · exact (h.recordDef hc opt_none).before fun _ _ _ hd => .pure hd opt_none
  · refine (h.evalTarget hc hl.whole).bind fun x d _ hd hx => ?_
    have htype : (opt N.place x.type).At d := fun t ht => h.place hd (hx.1 t ht)
    split
    · exact .pure hd (opt_some (h.nowhere hd))
    · split
      · exact .pure hd htype
      · exact .pure hd htype
      · exact (h.reportTarget hd hl).before fun _ _ _ hI => .pure hI (opt_some (h.nowhere hI))

lemma assignVar (hl : l.KeepsTarget I N) (hx : (N.value x).At c) :
    (Pass.assignVar l x).Leads I c (opt N.type) := by
  unfold Pass.assignVar
  split
  · exact (useAll hc (keeps_of_mem_pending (by simpa using hl.whole))).before fun _ _ _ hd =>
      .pure hd opt_none
  · refine (h.targetType hc hl).bind fun t d hd hI ht => ?_
    split
    · exact .pure hI opt_none
    · refine (h.assignment hI (hx.later hd) ht).bind fun y f _ hf hy => .pure hf ?_
      split
      · exact opt_none
      · exact hy.1

lemma assignTargets (hls : ∀ l ∈ ls, l.KeepsTarget I N) (hxs : (all N.value xs).At c) :
    (assignTargets ls xs).LeadsTo I c := by
  induction ls generalizing xs c with
  | nil => exact .pure hc trivial
  | cons l ls ih =>
    cases xs with
    | nil => exact .pure hc trivial
    | cons x xs =>
      rw [forall_mem_cons] at hls
      obtain ⟨hx, hxs⟩ := all_cons.mp hxs
      exact (h.assignVar hc hls.1 hx).before fun _ d hd hI =>
        (ih hI hls.2 (hxs.later hd)).before fun _ _ _ hI' => .pure hI' trivial

lemma markTargets : (markTargets ls).LeadsTo I c := by
  refine leads_forM hc fun e _ d _ hd => ?_
  split
  · exact (h.localVar? hd).bind fun named? f _ hf hnamed =>
      leads_optionForM hf fun o ho => h.markUsed hf (hnamed o ho)
  · exact .pure hd trivial

lemma assignVars (hls : ∀ l ∈ ls, l.KeepsTarget I N) (hes : Sources I N es) :
    (assignVars ls es).LeadsTo I c := by
  refine (h.values hc (keeps_of_mem_pending hes.eval)).bind fun r d hd hI hxs => ?_
  obtain ⟨xs, pair⟩ := r
  dsimp only at hxs ⊢
  split
  · refine (useAll hI (keeps_of_mem_pending fun l hl => (hls l hl).whole)).before fun _ f _ hf => ?_
    split
    · exact .pure hf trivial
    · exact h.reportCounts hf
  · split
    · simp only [forall_mem_cons] at hls
      obtain ⟨hx, hxs⟩ := all_cons.mp hxs
      obtain ⟨hy, -⟩ := all_cons.mp hxs
      refine (h.assignVar hI hls.1 hx).bind fun a f hf hIf ha => ?_
      refine (h.assignVar hIf hls.2.1 (hy.later hf)).bind fun b g hg hIg hb => ?_
      exact (h.logEvent hIg).before fun _ k hk hIk =>
        hes.pair hIk ((ha.later hg).later hk) (hb.later hk)
    · refine (h.assignTargets hI hls hxs).before fun b f _ hf => ?_
      split
      · exact .pure hf trivial
      · exact h.markTargets hf

lemma checkArity : (Pass.checkArity names es isConst).LeadsTo I c := by
  unfold Pass.checkArity
  split
  · exact (h.report hc rfl).to
  · split
    · exact (h.report hc rfl).to
    · exact .pure hc trivial
  · exact .pure hc trivial

/-- With enough values, a declared type or an excuse, every variable has a type afterwards. -/
lemma initSeparately (hes : ∀ e ∈ es, e.Keeps I N) (hvs : (all N.object vs).At c)
    (hwhy : N.excused.At c ∨ vs.length ≤ es.length ∨ untyped = false ∧ (all N.typed vs).At c) :
    (initSeparately untyped vs es).Leads I c fun _ => all N.typed vs := by
  induction vs generalizing es c with
  | nil => exact .pure hc all_nil
  | cons v vs ih =>
    obtain ⟨hv, hvs⟩ := all_cons.mp hvs
    -- the variable has a type, and the same reason holds for the others
    have hrest {d es} (hd : c.Steps d) (hI : I d)
        (hes : ∀ e ∈ es, e.Keeps I N) (htyped : (N.typed v).At d)
        (hlen : vs.length + 1 ≤ es.length + 1 ∨ N.excused.At c ∨
          untyped = false ∧ (all N.typed (v :: vs)).At c) :
        (initSeparately untyped vs es).Leads I d fun _ => all N.typed (v :: vs) := by
      refine (ih hI hes (hvs.later hd) ?_).mono fun _ f hf _ hr =>
        all_cons.mpr ⟨htyped.later hf, hr⟩
      rcases hlen with hlen | he | hdeclared
      · exact .inr (.inl (Nat.le_of_succ_le_succ hlen))
      · exact .inl (he.later hd)
      · exact .inr (.inr ⟨hdeclared.1, (all_cons.mp hdeclared.2).2.later hd⟩)
    cases es with
    | nil =>
      rcases hwhy with he | hlen | hdeclared
      · unfold initSeparately
        split
        · exact (h.invalidateMissing hc hv he).bind fun _ d hd hI htyped =>
            hrest hd hI hes htyped (.inr (.inl he))
        · exact hrest (.refl c) hc hes (typed_of_excused hv he) (.inr (.inl he))
      · simp at hlen
      · obtain ⟨rfl, htyped⟩ := hdeclared
        exact hrest (.refl c) hc hes (all_cons.mp htyped).1 (.inr (.inr ⟨rfl, htyped⟩))
    | cons e es =>
      rw [forall_mem_cons] at hes
      refine (h.value hes.1.eval _ hc).bind fun x d hd hI hx => ?_
      refine ((h.initVar hI hx (hv.later hd)).bind fun _ _ _ hI' hr =>
        Leads.pure (Q := fun _ => N.typed v) hI' hr.1).bind fun _ f hf hI' htyped => ?_
      refine hrest (hd.trans hf) hI' hes.2 htyped ?_
      rcases hwhy with he | hlen | hdeclared
      · exact .inr (.inl he)
      · exact .inl hlen
      · exact .inr (.inr hdeclared)

lemma initSpec (hes : Sources I N es) (hvs : (all N.object vs).At c)
    (hwhy : N.excused.At c ∨ vs.length ≤ es.length ∨ 1 < vs.length ∧ es.length = 1 ∨
      untyped = false ∧ (all N.typed vs).At c) :
    (Pass.initSpec untyped vs es).Leads I c fun _ => all N.typed vs := by
  unfold Pass.initSpec
  split
  · exact h.initVars hc hes hvs
  · rename_i hcond
    refine h.initSeparately hc hes.eval hvs (hwhy.imp_right fun hwhy => hwhy.imp_right fun hwhy => ?_)
    exact hwhy.resolve_left fun hone => hcond (by simpa using hone)

lemma makeVars (hspec : Sources I N spec.values) (htype : ∀ e ∈ spec.type, e.collects N.strict) :
    (Pass.makeVars spec).Leads I c (all N.typed) := by
  refine (leads_optionMapM hc fun e he => h.resolve e (htype e he) hc).bind
    fun declared d _ hd hdeclared => .current ?_
  have hnew : (spec.names.mapM fun i => Pass.newVar i.span (some d.package) i.text declared).Leads I d
      fun vs => (all (fun o => (N.object o).and (.given (declared ≠ none) (N.typed o))) vs).and
        (.sure (vs.length = spec.names.length)) :=
    leads_mapM hd fun i _ _ he hI => h.newVar hI (hdeclared.later he)
  refine hnew.bind fun vs e _ he hvs => ?_
  obtain ⟨hvs, hlen⟩ := hvs
  change vs.length = spec.names.length at hlen
  have hobjects : (all N.object vs).At e := fun v hv => (hvs v hv).1
  have hrest (hwhy : N.excused.At e ∨ vs.length ≤ spec.values.length ∨
      1 < vs.length ∧ spec.values.length = 1 ∨
        declared.isNone = false ∧ (all N.typed vs).At e) : (do
      Pass.initSpec declared.isNone vs spec.values
      if declared.isNone || !spec.values.isEmpty then Pass.checkArity spec.names spec.values false
      return vs : Pass (List ObjectId)).Leads I e (all N.typed) := by
    refine (h.initSpec he hspec hobjects hwhy).bind fun _ f _ hf htyped => ?_
    split
    · exact (h.checkArity hf).before fun _ g hg hI => .pure hI (htyped.later hg)
    · exact .pure hf htyped
  -- values that are missing without a single value or a declared type in their place
  by_cases hmissing : spec.values.length < spec.names.length ∧ spec.values.length ≠ 1 ∧
      (declared.isNone || !spec.values.isEmpty)
  · simp only [hmissing.2.2, if_true] at hrest ⊢
    refine h.late he ?_ (fun hex => hrest (.inl hex)) fun _ htyped v _ => htyped v
    exact failed_bind_of_forall fun _ _ =>
      failed_bind (failed_checkArity hmissing.1 (.inr hmissing.2.1) _)
  · refine hrest (.inr ?_)
    by_cases hle : vs.length ≤ spec.values.length
    · exact .inl hle
    · by_cases hone : spec.values.length = 1
      · exact .inr (.inl ⟨by omega, hone⟩)
      · have hnone : (declared.isNone || !spec.values.isEmpty) = false := by
          by_contra hne
          exact hmissing ⟨by omega, hone, Bool.not_eq_false _ |>.mp hne⟩
        obtain ⟨hsome, -⟩ := Bool.or_eq_false_iff.mp hnone
        refine .inr (.inr ⟨hsome, fun v hv => (hvs v hv).2 ?_⟩)
        rintro rfl
        cases hsome

lemma constType {e : TypeExpr} (he : e.collects N.strict) :
    (constType e).Leads I c N.type := by
  refine (h.resolve e he hc).bind fun t d _ hd ht => .entities ?_
  split
  · exact .pure hd ht
  · split
    · rename_i hinvalid
      exact .pure hd (h.invalid hd (h.excuse hd ht (.inr hinvalid)))
    · exact h.refuseType hd rfl rfl

/-- With enough values, or with an excuse, every constant has a type afterwards. -/
lemma initConsts (hes : ∀ e ∈ es, e.Keeps I N)
    (hdeclared : (opt N.type declared).At c) (hwhy : N.excused.At c ∨ is.length ≤ es.length) :
    (initConsts declared is es).Leads I c (all N.typed) := by
  induction is generalizing es c with
  | nil => exact .pure hc all_nil
  | cons i is ih =>
    refine .current ((h.newConst hc hdeclared).bind fun o d hd hI ho => ?_)
    have hrest {f} (hf : c.Steps f) (hI : I f) (htyped : (N.typed o).At f) :
        (initConsts declared is es.tail >>= fun os => pure (o :: os)).Leads I f
          (all N.typed) := by
      refine Leads.bind (ih hI (fun e he => hes e (mem_of_mem_tail he)) (hdeclared.later hf) ?_)
        fun os g hg hI' hos => .pure hI' (all_cons.mpr ⟨htyped.later hg, hos⟩)
      refine hwhy.imp (·.later hf) fun hlen => ?_
      rw [length_tail]
      exact Nat.le_sub_of_add_le hlen
    split
    · rename_i hinvalid
      have hexcused := h.excuse hc (hdeclared _ hinvalid) (.inl rfl)
      exact hrest hd hI (typed_of_excused ho.1 (hexcused.later hd))
    · cases es with
      | nil =>
        obtain he | hlen := hwhy
        · have hmissing : (N.value {}).At d :=
            ⟨⟨opt_none, fun _ => he.later hd⟩, h.missing⟩
          exact (h.initConst hI hmissing ho.1 ho.2).bind fun _ f hf hI' htyped =>
            hrest (hd.trans hf) hI' htyped
        · simp at hlen
      | cons e es =>
        refine (h.value (hes e (by simp)).eval _ hI).bind fun x f hf hIf hx => ?_
        exact (h.initConst hIf hx (ho.1.later hf) (ho.2.later hf)).bind fun _ g hg hI' htyped =>
          hrest ((hd.trans hf).trans hg) hI' htyped

lemma makeConsts (hes : ∀ e ∈ spec.values, e.Keeps I N)
    (htype : ∀ e ∈ spec.type, e.collects N.strict) :
    (Pass.makeConsts spec).Leads I c (all N.typed) := by
  refine (leads_optionMapM hc fun e he => h.constType hc (htype e he)).bind
    fun declared d _ hd hdeclared => ?_
  have hrest (hwhy : N.excused.At d ∨ spec.names.length ≤ spec.values.length) : (do
      let consts ← Pass.initConsts declared spec.names spec.values
      Pass.checkArity spec.names spec.values true
      return consts : Pass (List ObjectId)).Leads I d (all N.typed) := by
    refine (h.initConsts hd hes hdeclared hwhy).bind fun os e _ he hos => ?_
    exact (h.checkArity he).before fun _ f hf hI => .pure hI (hos.later hf)
  by_cases hle : spec.names.length ≤ spec.values.length
  · exact hrest (.inr hle)
  · refine h.late hd ?_ (fun he => hrest (.inl he)) fun _ htyped o _ => htyped o
    exact failed_bind_of_forall fun _ _ =>
      failed_bind (failed_checkArity (Nat.lt_of_not_le hle) (.inl rfl) _)

lemma shortName : (shortName s e i).Leads I c N.target := by
  refine .current ?_
  split
  · rename_i other hother
    have ho := (h.found hc hother).1
    refine (h.recordUse hc ho).before fun _ d hd hI => ?_
    split
    · exact .pure hI (ho.later hd)
    · exact h.refuse hI rfl rfl fun _ _ _ _ => trivial
  · refine (h.newVar hc opt_none).bind fun o d _ hd ho => ?_
    exact (h.recordDef hd (opt_some ho.1)).before fun _ f hf hI => .pure hI (ho.1.later hf)

lemma shortTargets (hes : ∀ e ∈ es, e.Keeps I N) : (shortTargets s seen es).Leads I c fun ts =>
      (all N.target ts).and (.sure (ts.length = es.length)) := by
  induction es generalizing seen c with
  | nil => exact .pure hc ⟨all_nil, rfl⟩
  | cons e es ih =>
    rw [forall_mem_cons] at hes
    have hrest {d} (hd : I d) {seen} {target} (htarget : (N.target target).At d) :
        (shortTargets s seen es >>= fun ts => pure (target :: ts)).Leads I d fun ts =>
          (all N.target ts).and (.sure (ts.length = (e :: es).length)) :=
      (ih hd hes.2).bind fun _ f hf hI hts =>
        .pure hI ⟨all_cons.mpr ⟨htarget.later hf, hts.1⟩, congrArg (· + 1) hts.2⟩
    unfold shortTargets
    split
    · refine (useAll hc (keeps_of_mem_pending (by simpa using hes.1))).before fun _ d _ hd => ?_
      exact (h.report hd rfl).before fun _ _ _ hI => hrest hI trivial
    · split
      · exact (h.report hc rfl).before fun _ _ _ hI => hrest hI trivial
      · exact (h.shortName hc).bind fun _ _ _ hd ht => hrest hd ht

/-- The variables to initialize include the new ones. -/
lemma targetVars (hts : (all N.target ts).At c) :
    (targetVars ts es).Leads I c fun vs => (all N.object vs).and
      (.sure (ts.length = es.length → ∀ o, .fresh o ∈ ts → o ∈ vs)) := by
  induction ts generalizing es c with
  | nil => exact .pure hc ⟨all_nil, fun _ _ ho => nomatch ho⟩
  | cons t ts ih =>
    cases es with
    | nil => exact .pure hc ⟨all_nil, fun hlen => nomatch hlen⟩
    | cons e es =>
      obtain ⟨ht, hts⟩ := all_cons.mp hts
      have hrest {v d} (hd : c.Steps d) (hI : I d) (hv : (N.object v).At d)
          (hfresh : ∀ o, t = .fresh o → o = v) :
          (targetVars ts es >>= fun vs => pure (v :: vs)).Leads I d fun vs =>
            (all N.object vs).and
              (.sure ((t :: ts).length = (e :: es).length → ∀ o, .fresh o ∈ t :: ts → o ∈ vs)) := by
        refine Leads.bind (ih hI (hts.later hd)) fun vs f hf hI' hvs => ?_
        refine .pure hI' ⟨all_cons.mpr ⟨hv.later hf, hvs.1⟩, fun hlen o ho => ?_⟩
        rcases mem_cons.mp ho with ho | ho
        · rw [hfresh o ho.symm]
          exact mem_cons_self
        · exact mem_cons_of_mem _ (hvs.2 (Nat.succ.inj hlen) o ho)
      cases t with
      | fresh o =>
        refine hrest (.refl c) hc ht ?_
        rintro _ ⟨⟩
        rfl
      | existing o => exact hrest (.refl c) hc ht (by simp)
      | wrong =>
        refine .current ((h.newVar hc opt_none).bind fun v d hd hI hv => ?_)
        exact hrest hd hI hv.1 (by simp)

lemma shortInit {lhs : List Expr} (hl : ∀ e ∈ lhs, e.Keeps I N) (hr : Sources I N es) :
    (shortInit s lhs es).Leads I c fun r => all N.typed r.2 := by
  refine (h.shortTargets hc hl).bind fun targets d _ hd htargets => ?_
  refine (h.targetVars hd htargets.1).bind fun vars e _ he hvars => ?_
  refine .entities ((h.initVars he hr hvars.1).bind fun _ f _ hf htyped => .pure hf ?_)
  exact fun v hv => htyped v (hvars.2 htargets.2 v (mem_of_mem_newVars hv))

lemma exprStmt (he : e.Keeps I N) : (exprStmt e).LeadsTo I c := by
  refine (he.eval _ hc).before fun r d _ hd => ?_
  obtain ⟨x, cls⟩ := r
  dsimp only
  split
  · exact .pure hd trivial
  · exact .describe (h.report hd rfl).to
  · exact .pure hd trivial
  · exact .describe (h.report hd rfl).to

lemma bareReturn : (bareReturn span results).LeadsTo I c := by
  refine leads_forM hc fun r _ d _ hd => .entities ?_
  refine (h.lookup hd).before fun found f _ hf => ?_
  cases found with
  | none => exact .pure hf trivial
  | some other =>
    dsimp only
    split
    · exact .pure hf trivial
    · exact (h.emit _ hf (code_hiddenResult ..) (by decide) (by decide)).to

lemma returnStmt (hes : Sources I N es) : (returnStmt span es).LeadsTo I c := by
  refine .current ?_
  cases c.context.sig with
  | none => exact (h.report hc rfl).to
  | some sig =>
    have hresults : (all N.object ((c.store.type sig).signature?.elim []
        fun g => c.store.tupleVars g.results)).At c := by
      intro v hv
      cases hsig : (c.store.type sig).signature? with
      | none => simp [hsig] at hv
      | some g =>
        rw [hsig] at hv
        exact (h.member hc hv).1
    dsimp only
    split
    · exact h.bareReturn hc
    · split
      · exact (h.initVars hc hes hresults).to
      · exact .pure hc trivial

end Regime

end GoCheck
