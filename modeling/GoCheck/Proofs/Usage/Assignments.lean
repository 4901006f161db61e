import GoCheck.Proofs.Visibility.Scopes

/-!
# Targets of assignments

Naming a variable in order to assign to it is no use of it. But after an assignment has failed, the
variables that it was to change count as used. Only if a second value comes with an expression, a
target has to have a faulty value itself.
-/

namespace GoCheck

open Pass Checker Store List Regime Object

variable {y : Operand}

/-- A variable counts as used. -/
def Checker.Uses (o : ObjectId) (c : Checker) : Prop := (c.store.object o).isUsed = true

/-- After a pass from a state, a variable counts as used. -/
abbrev Pass.Uses {α : Type} (m : Pass α) (o : ObjectId) (c : Checker) : Prop :=
  m.LeadsTo (Checker.Uses o) c

namespace Object

variable {ob : Object}

lemma isVar_of_isUsed (h : ob.isUsed) : ob.isVar := by
  cases hob : ob.entity <;> simp_all [isUsed, isVar]

lemma isUsed_setUsed (h : ob.isVar) : (ob.setUsed used).isUsed = used := by
  cases hob : ob.entity <;> cases used <;> simp_all [isUsed, isVar, setUsed]

lemma isUsed_setValue (v : Constant) (h : ob.isUsed) : (ob.setValue v).isUsed := by
  cases hob : ob.entity <;> simp_all [isUsed, setValue]

end Object

variable {c d : Checker}

lemma Checker.Uses.of_objects (hc : c.Uses o) (h : d.store.objects = c.store.objects) :
    d.Uses o := by
  rwa [Uses, object, h]

namespace Pass

lemma uses_modifyObject (hf : ∀ ob, ob.isUsed → (f ob).isUsed)
    (p : ObjectId) (hc : c.Uses o) : Checker.Uses o { c with store := c.store.modifyObject p f } :=
  object_modifyObject_keep hf hc

lemma uses_of_objects {m : Pass α}
    (h : ∀ c, (m.1 c).2.store.objects = c.store.objects) : m.Preserves (Checker.Uses o) :=
  preserves_of_state fun c hc => hc.of_objects (h c)

lemma uses_bindIn : (bindIn x p).Preserves (Checker.Uses o) := by
  refine preserves_of_state fun c hc => ?_
  exact (view_bind (fun _ _ => rfl) c.store x p o).trans hc

lemma uses_onRecords {g : Records → Records} : (onRecords g).Preserves (Checker.Uses o) :=
  uses_of_objects fun _ => rfl

lemma uses_declare {name : Option Ident} {n : Nat} :
    (declare x name p n).Preserves (Checker.Uses o) := by
  have hdef : (name.forM fun i => recordDef i.span (some p)).Preserves (Checker.Uses o) :=
    preserves_optionForM fun _ => uses_of_objects fun _ => rfl
  have hvisible : (setVisible p n).Preserves (Checker.Uses o) :=
    preserves_of_state fun c hc =>
      uses_modifyObject (f := ({ · with visibleFrom := n })) (fun _ h => h) p hc
  refine maintains_entities fun s => ?_
  refine .ite ((preserves_pure _).before fun clash => ?_) (uses_bindIn.before fun clash => ?_)
  all_goals cases clash with
    | some other => exact (uses_of_objects fun _ => rfl).before fun _ => uses_of_objects fun _ => rfl
    | none => exact .ite hdef (hvisible.before fun _ => hdef)

end Pass

/-- What has been taken back of a used variable is its use, which is no change. -/
lemma uses_restoreUse (hc : c.Uses o) (hd : d.Uses o) :
    ((Pass.setUsed p (c.store.object p).isUsed).1 d).2.Uses o := by
  have hobject := object_modifyObject d.store p o (·.setUsed (c.store.object p).isUsed)
  rw [Checker.Uses]
  refine (congrArg isUsed hobject).trans ?_
  split
  · rename_i hp
    rw [hp.1, isUsed_setUsed (isVar_of_isUsed hd)]
    exact hc
  · exact hd

lemma uses_discipline :
    Discipline (Checker.Uses o) (fun _ => True) (fun _ => True) fun _ => True where
  newIn _ _ _ := trivial
  quiet _ hm := preserves_of_state fun c hc => (hm c).used o hc
  restoreUse hc _ hd := uses_restoreUse hc hd
  giveType {p t} := preserves_of_state fun c hc =>
    uses_modifyObject (f := (·.giveType t)) (fun _ h => h) p hc
  newConst := by
    refine ⟨fun c hc => (tacit_newObject _).used o hc, fun _ _ v => preserves_of_state fun d hd => ?_⟩
    exact uses_modifyObject (fun _ => isUsed_setValue v) _ hd
  declare _ := uses_declare
  emit _ _ _ _ := uses_of_objects fun _ => rfl
  report _ := uses_of_objects fun _ => rfl
  unpresentable _ _ _ := uses_of_objects fun _ => rfl
  implicit _ _ := Maintains.state (maintains_entities fun _ =>
    uses_onRecords.before fun _ => preserves_pure _) _
  finish _ := (preserves_optionForM fun _ => uses_of_objects fun _ => rfl).before fun _ =>
    maintains_entities fun _ => uses_onRecords.before fun _ => preserves_pure _
  accept _ _ _ := trivial
  reject _ := trivial
  invalidated _ := trivial
  missing := trivial

/-- Nothing is to be known of operands. -/
abbrev Notions.usage (o : ObjectId) : Notions :=
  .plain (Uses o) (fun _ => True) (fun _ => True) fun _ => True

lemma usage_sound : ((Notions.usage o).sound x).At c :=
  ⟨fun _ _ => trivial, fun _ => trivial⟩

lemma usage_value : ((Notions.usage o).value x).At c := ⟨usage_sound, trivial⟩

lemma uses_regime : Regime (Uses o) (.usage o) := Discipline.regime uses_discipline

lemma uses_evaluates : Evaluates (Uses o) (.usage o) fun _ => True :=
  Discipline.evaluates_all uses_discipline (fun hm => uses_of_objects fun c => (hm c).objects)
    (fun _ => trivial) trivial

lemma uses_governs : Governs (Uses o) (.usage o) (fun _ => True)
    fun d => .sure (∀ _ ∈ d.body.stmts, True) :=
  Discipline.governs_all uses_discipline (fun hm => uses_of_objects fun c => (hm c).objects)
    (fun _ => trivial) trivial

/-! ## Names of variables -/

variable {c d : Checker} {i : Ident} {o : ObjectId} {e : Expr} {m : Pass Evaluated}

/-- The state in which an expression is evaluated, after the line that a trace has for it. -/
def Checker.opened (c : Checker) (e : Expr) : Checker :=
  ((traceLine (fun _ => "expr[ " ++ e.text ++ " ]") >>= fun _ => indentTrace).1 c).2

namespace Pass

lemma opened_eq (c : Checker) (e : Expr) : ∃ log indent, c.opened e = { c with log, indent } := by
  obtain ⟨log, hlog⟩ := traceLine_run (fun _ => "expr[ " ++ e.text ++ " ]") c
  obtain ⟨indent, hindent⟩ := indentTrace_run { c with log }
  refine ⟨log, indent, ?_⟩
  rw [opened, bind_run, hlog, hindent]

/-- After an evaluation, only the records and the trace change. -/
lemma conclude_run (e : Expr) (r : Evaluated) (c : Checker) : ∃ info log indent,
    (conclude e r).1 c = (({ r.1 with expr := some e }, r.2), { c with info, log, indent }) := by
  obtain ⟨info, hinfo⟩ : ∃ info,
      ((record e.id { r.1 with expr := some e }).1 c).2 = { c with info } := by
    unfold record
    cases r.1.mode <;> cases r.1.type <;> exact ⟨_, rfl⟩
  obtain ⟨indent, hindent⟩ := unindentTrace_run { c with info }
  obtain ⟨log, hlog⟩ := traceLine_run (fun s => "=> " ++ { r.1 with expr := some e }.describe s)
    { c with info, indent }
  refine ⟨info, log, indent, ?_⟩
  rw [conclude, bind_run, hinfo, bind_run, hindent, bind_run, hlog]
  rfl

lemma observe_run (e : Expr) (m : Pass Evaluated) (c : Checker) : ∃ info log indent,
    (observe e m).1 c = (({ (m.1 (c.opened e)).1.1 with expr := some e }, (m.1 (c.opened e)).1.2),
      { (m.1 (c.opened e)).2 with info, log, indent }) :=
  conclude_run e _ _

lemma store_observe : ((observe e m).1 c).2.store = (m.1 (c.opened e)).2.store := by
  obtain ⟨info, log, indent, h⟩ := observe_run e m c
  rw [h]

lemma localVar?_eq (i : Ident) (c : Checker) : ((localVar? i).1 c).1 =
    ((lookup i.text).1 c).1.filter fun o => ((isLocalVar o).1 c).1 := by
  rw [localVar?, bind_run]
  cases ((lookup i.text).1 c).1 with
  | none => rfl
  | some o => rw [Option.filter_some]; rfl

lemma localVar?_run (i : Ident) (c : Checker) :
    ∃ history, (localVar? i).1 c = (((localVar? i).1 c).1, { c with history }) := by
  rw [localVar?, bind_run]
  cases ((lookup i.text).1 c).1 <;> exact ⟨_, rfl⟩

lemma store_noteUse (o : ObjectId) (c : Checker) : ((noteUse o).1 c).2.store =
    if ((isLocalVar o).1 c).1 then c.store.modifyObject o (·.setUsed true) else c.store := by
  rw [noteUse, bind_run]
  cases ((isLocalVar o).1 c).1 <;> rfl

/-- The evaluation of a name does what counting its variable as used does. -/
lemma store_name (hi : i.text ≠ "_") : ((name i).1 c).2.store =
    ((localVar? i).1 c).1.elim c.store (c.store.modifyObject · (·.setUsed true)) := by
  rw [localVar?_eq, name, if_neg hi, bind_run]
  cases ((lookup i.text).1 c).1 with
  | none => rfl
  | some o =>
    have hnote := store_noteUse o ((recordUse i.span o).1 ((lookup i.text).1 c).2).2
    dsimp only [bind_run, entities_bind_run]
    rw [Option.filter_some, apply_ite (Option.elim · _ _)]
    split <;> exact hnote

lemma store_eval_name (e : Expr) (he : e.unparen.ident? = some i) (hi : i.text ≠ "_")
    (c : Checker) : (e.eval.1 c).2.store =
      ((localVar? i).1 c).1.elim c.store (c.store.modifyObject · (·.setUsed true)) := by
  have hopened : (c.opened e).store = c.store := by
    obtain ⟨log, indent, h⟩ := opened_eq c e
    rw [h]
  have hlocal : ((localVar? i).1 (c.opened e)).1 = ((localVar? i).1 c).1 := by
    obtain ⟨log, indent, h⟩ := opened_eq c e
    rw [h, localVar?_eq, localVar?_eq]
    rfl
  -- parentheses are evaluated as what is inside, each time after another line of the trace
  rw [← hlocal, ← hopened]
  cases e with
  | ident n j =>
    cases he
    rw [Expr.eval, store_observe]
    exact store_name hi
  | paren n inner =>
    rw [Expr.eval, store_observe]
    exact store_eval_name inner he hi _
  | _ => cases he

end Pass

/-! ## Failed assignments -/

/-- A name stands for a variable of the package under check. -/
structure Checker.Denotes (c : Checker) (i : Ident) (o : ObjectId) : Prop where
  name : i.text ≠ "_"
  found : (c.context.scope.bind (c.store.resolve? · i.text)).map (·.2) = some o
  isVar : (c.store.object o).isVar = true
  package : (c.store.object o).package = some c.package

/-- The state after assignments one by one. -/
def Checker.assigned (c : Checker) (slots : List (Expr × Operand)) : Checker :=
  slots.foldl (fun d p => ((assignVar p.1 p.2).1 d).2) c

/-- An assignment fails at the target with a number: by a wrong count, or by a refused operand. -/
def Checker.FailsAt (c : Checker) (lhs : List Expr) (xs : List Operand) (k : Nat) : Prop :=
  lhs.length ≠ xs.length ∨ ∃ p ∈ (lhs.zip xs)[k]?,
    ((assignVar p.1 p.2).1 (c.assigned ((lhs.zip xs).take k))).1 = none

instance (c : Checker) (lhs : List Expr) (xs : List Operand) (k : Nat) :
    Decidable (c.FailsAt lhs xs k) :=
  inferInstanceAs (Decidable (_ ∨ _))

instance (c : Checker) (o : ObjectId) : Decidable (c.Uses o) := inferInstanceAs (Decidable (_ = true))

/-- A variable of a package stays one. -/
lemma Store.Step.keepVar {p : Option PackageId} {s s' : Store} {o : ObjectId} (h : s.Step s')
    (ho : (s.object o).isVar ∧ (s.object o).package = p) :
    (s'.object o).isVar ∧ (s'.object o).package = p := by
  have hlt := index_lt_of_object (P := (·.isVar)) (by decide) ho.1
  have hview : ((s'.object o).isVar, (s'.object o).package) =
      ((s.object o).isVar, (s.object o).package) := by
    refine h.view_eq (g := fun ob => (ob.isVar, ob.package)) (fun _ _ _ _ => rfl)
      (fun ob used => ?_) (fun ob v => ?_) hlt
    all_goals cases hob : ob.entity
    all_goals simp [Object.setUsed, Object.setValue, Object.isVar, hob]
  obtain ⟨hvar, hpackage⟩ := Prod.mk.inj hview
  exact ⟨hvar.trans ho.1, hpackage.trans ho.2⟩

namespace Checker

/-- Evaluations from a state bind names in new scopes only. -/
def reach (c : Checker) (n : Nat) : Limits := ⟨c.frontier, n, fun _ => False⟩

lemma Denotes.acts (hi : c.Denotes i o) (hc : c.WellScoped) (h : c.Acts (c.reach n) d) :
    d.Denotes i o := by
  have hvar := h.steps.keepStore (fun hs ho => hs.keepVar ho) ⟨hi.isVar, hi.package⟩
  refine ⟨hi.name, ?_, hvar.1, by rw [hvar.2, h.steps.package_eq.1]⟩
  rw [← hi.found, h.context_eq]
  cases hscope : c.context.scope with
  | none => rfl
  | some x =>
    refine congrArg (Option.map (·.2)) (resolve?_congr hc.nested (hc.here x hscope)
      le_rfl h.steps.scopes_size_le fun y hy => ⟨?_, h.steps.parent_eq hy⟩)
    have hold : ¬(c.reach n).Binds y := fun hbinds => hbinds.elim (not_le.mpr hy) id
    rw [Scope.find?, Scope.find?, h.bindings_eq hold]

end Checker

namespace Pass

variable {e : Expr} {lhs rhs : List Expr} {xs : List Operand} {k : Nat}

lemma uses_markUsed (ho : (c.store.object o).isVar) : (markUsed o).Uses o c := by
  have hlt := index_lt_of_object (P := (·.isVar)) (by decide) ho
  have hobject := object_modifyObject c.store o o (·.setUsed true)
  rw [if_pos ⟨rfl, hlt⟩] at hobject
  exact ⟨(congrArg isUsed hobject).trans (isUsed_setUsed ho), trivial⟩

lemma isLocalVar_eq_true (hvar : (c.store.object o).isVar)
    (hpackage : (c.store.object o).package = some c.package) : ((isLocalVar o).1 c).1 :=
  Bool.and_eq_true_iff.mpr ⟨hvar, decide_eq_true hpackage⟩

lemma localVar?_of_denotes (hi : c.Denotes i o) : ((localVar? i).1 c).1 = some o := by
  have hlookup : ((lookup i.text).1 c).1 = some o := hi.found
  rw [localVar?_eq, hlookup, Option.filter_some, if_pos (isLocalVar_eq_true hi.isVar hi.package)]

lemma uses_markTarget (hi : c.Denotes i o) :
    (localVar? i >>= fun named? => named?.forM markUsed).Uses o c := by
  obtain ⟨history, hrun⟩ := localVar?_run i c
  refine .after ?_
  rw [hrun, localVar?_of_denotes hi]
  exact uses_markUsed hi.isVar

lemma uses_eval (he : e.unparen.ident? = some i) (hi : c.Denotes i o) : e.eval.Uses o c := by
  refine ⟨?_, trivial⟩
  rw [Checker.Uses, store_eval_name e he hi.name, localVar?_of_denotes hi]
  exact (uses_markUsed hi.isVar).state

lemma mem_pending_of_mem (h : e ∈ es) : ⟨e, e.eval⟩ ∈ pending es := by
  induction es with
  | nil => cases h
  | cons f es ih =>
    rw [pending]
    rcases mem_cons.mp h with rfl | h
    · exact mem_cons_self
    · exact mem_cons_of_mem _ (ih h)

lemma uses_target (l : Expr) : l.KeepsTarget (Checker.Uses o) (.usage o) :=
  Evaluates.target uses_evaluates trivial

lemma uses_sources (es : List Expr) : Sources (Checker.Uses o) (.usage o) es :=
  Evaluates.sources uses_evaluates fun _ _ => trivial

/-- If one operand is refused then not all of them succeed. -/
lemma assignTargets_eq_false (h : c.FailsAt lhs xs k) (hlen : lhs.length = xs.length) :
    ((assignTargets lhs xs).1 c).1 = false := by
  obtain ⟨p, hp, hnone⟩ := h.resolve_left (absurd hlen)
  clear hlen h
  induction lhs generalizing c xs k with
  | nil => simp at hp
  | cons l ls ih =>
    cases xs with
    | nil => simp at hp
    | cons x xs =>
      cases k with
      | zero =>
        obtain rfl : (l, x) = p := by simpa using hp
        change (((assignVar l x).1 c).1.isSome && _) = false
        rw [show ((assignVar l x).1 c).1 = none from hnone]
        rfl
      | succ k =>
        change (_ && ((assignTargets ls xs).1 ((assignVar l x).1 c).2).1) = false
        rw [ih (by simpa using hp) hnone, Bool.and_false]

section

variable (hc : c.WellScoped) (hi : c.Denotes i o) (he : e.unparen.ident? = some i)
include hc hi he

lemma uses_useAll (hmem : e ∈ lhs) (hdepth : exprsDepth lhs ≤ n) (hd : c.ActsTo (c.reach n) d) :
    (useAll (pending lhs)).Uses o d := by
  have hkeeps := keeps_of_mem_pending (acts_sources (c := c) (L := c.reach n) hdepth).eval
  have hkeeps' := keeps_of_mem_pending (uses_sources (o := o) lhs).eval
  refine leads_forM_of_mem hd (mem_pending_of_mem hmem) (fun p hp d hd => ?_) (fun d hd => ?_)
    fun p hp d hd => ?_
  · exact ⟨(Regime.useAll hd (forall_mem_singleton.mpr (hkeeps p hp))).state, trivial⟩
  · have hblank : isBlank e = false := by simp [isBlank, blank?, he, hi.name]
    rw [hblank]
    exact (uses_eval he (hi.acts hc hd.acts)).discard
  · exact ⟨(Regime.useAll hd (forall_mem_singleton.mpr (hkeeps' p hp))).state, trivial⟩

lemma uses_markTargets (hmem : e ∈ lhs) (hd : c.ActsTo (c.reach n) d) :
    (markTargets lhs).Uses o d := by
  refine leads_forM_of_mem hd hmem (fun b _ d hd => ?_) (fun d hd => ?_) fun b _ d hd => ?_
  · have hone : (markTargets [b]).LeadsTo (c.ActsTo (c.reach n)) d := Regime.markTargets acts_regime hd
    exact ⟨hone.state, trivial⟩
  · rw [he]
    exact uses_markTarget (hi.acts hc hd.acts)
  · have hone : (markTargets [b]).Uses o d := Regime.markTargets uses_regime hd
    exact ⟨hone.state, trivial⟩

lemma uses_assignVar_of_isFaulty (hx : isFaulty x) (hdepth : e.literalDepth ≤ n)
    (hd : c.ActsTo (c.reach n) d) : (assignVar e x).Uses o d := by
  have huse := uses_useAll hc hi he (mem_singleton_self e)
    (Nat.max_le.mpr ⟨hdepth, Nat.zero_le _⟩) hd
  rw [assignVar, if_pos hx]
  exact huse.before fun _ _ _ hd => .pure hd trivial

/-- A faulty operand makes its target used, whichever of two targets it is for. -/
lemma uses_assignPair {l m : Expr} {f : Option TypeId → Option TypeId → Pass Unit}
    (hmem : [l, m][k]? = some e) (hx : ∃ z ∈ [x, y][k]?, isFaulty z)
    (hdepth : exprsDepth [l, m] ≤ n) (hd : c.ActsTo (c.reach n) d)
    (hf : ∀ a b, ∀ d, d.Uses o → (f a b).Uses o d) :
    (do f (← assignVar l x) (← assignVar m y)).Uses o d := by
  have hdepth := literalDepth_le_of_mem hdepth
  obtain ⟨z, hz, hfaulty⟩ := hx
  obtain _ | _ | k := k
  · obtain rfl : l = e := by simpa using hmem
    obtain rfl : x = z := by simpa using hz
    refine (uses_assignVar_of_isFaulty hc hi he hfaulty (hdepth l (by simp)) hd).before fun a _ _ hd => ?_
    exact (Regime.assignVar uses_regime hd (uses_target m) usage_value).before fun b d _ => hf a b d
  · obtain rfl : m = e := by simpa using hmem
    obtain rfl : y = z := by simpa using hz
    have hl : l.KeepsTarget (c.ActsTo (c.reach n)) _ :=
      Regime.Evaluates.target acts_evaluates (hdepth l (by simp))
    have hnext := Regime.assignVar acts_regime hd hl (x := x)
      ⟨⟨fun _ _ => trivial, fun _ => trivial⟩, trivial⟩
    refine .after (LeadsTo.before ?_ fun b d _ => hf _ b d)
    exact uses_assignVar_of_isFaulty hc hi he hfaulty (hdepth m (by simp)) hnext.state
  · simp at hmem

end

/-- A variable whose assignment fails counts as used, by a wrong count or a refused value, unless
the value comes with a second one and is not faulty itself. -/
theorem uses_of_assignment_failed {pair : Bool} (hc : c.WellScoped) (hmem : lhs[k]? = some e)
    (he : e.unparen.ident? = some i) (hi : c.Denotes i o)
    (hvalues : (values (pending rhs) (lhs.length = 2)).1 c = ((xs, pair), d))
    (hfail : d.FailsAt lhs xs k) (hpair : pair = true → ∃ x ∈ xs[k]?, isFaulty x = true) :
    ((assignVars lhs rhs).1 c).2.Uses o := by
  obtain ⟨n, hlhs, hrhs⟩ : ∃ n, exprsDepth lhs ≤ n ∧ exprsDepth rhs ≤ n :=
    ⟨_, Nat.le_max_left .., Nat.le_max_right ..⟩
  have he' := List.mem_of_getElem? hmem
  have hd : c.ActsTo (c.reach n) d := by
    have hleads : (values (pending rhs) (lhs.length = 2)).LeadsTo (c.ActsTo (c.reach n)) c :=
      (Regime.values acts_regime ⟨c.past_frontier, .refl⟩
        (keeps_of_mem_pending (acts_sources hrhs).eval)).to
    simpa only [hvalues] using hleads.state
  suffices huses : (assignVars lhs rhs).Uses o c from huses.state
  refine .after ?_
  rw [hvalues]
  dsimp only
  split
  · -- The targets are evaluated in place of being assigned to.
    refine (uses_useAll hc hi he he' hlhs hd).before fun _ _ _ hd => ?_
    split
    · exact .pure hd trivial
    · exact Regime.reportCounts uses_regime hd
  · rename_i hlen
    split
    · -- Nothing but the assignments themselves uses the targets of a pair.
      refine uses_assignPair hc hi he hmem (hpair rfl) hlhs hd fun a b d hd => ?_
      exact (Regime.logEvent uses_regime hd).before fun _ _ _ hd =>
        (uses_sources rhs).pair hd (fun _ _ => trivial) fun _ _ => trivial
    · -- All targets are marked as soon as one of them has failed.
      have hfalse := assignTargets_eq_false hfail (Decidable.not_not.mp hlen)
      have hready : (assignTargets lhs xs).LeadsTo (c.ActsTo (c.reach n)) d :=
        Regime.assignTargets acts_regime hd
          (fun l hl => Regime.Evaluates.target acts_evaluates (literalDepth_le_of_mem hlhs l hl))
          fun _ _ => ⟨⟨fun _ _ => trivial, fun _ => trivial⟩, trivial⟩
      refine .after ?_
      rw [hfalse]
      exact uses_markTargets hc hi he he' hready.state

/-- Declares a map `m` from strings to integers and a string `x` in the scope of the package. -/
def declareSamples : Pass Unit := do
  let t ← newType (.map (.basic .string) (.basic .int)) rfl
  let m ← newVar ⟨0, 1⟩ (some ⟨0⟩) "m" (some t)
  let x ← newVar ⟨2, 3⟩ (some ⟨0⟩) "x" (some (.basic .string))
  declare ⟨1⟩ none m 0
  declare ⟨1⟩ none x 0

/-- The state in which the samples are declared. -/
def samples : Checker := (declareSamples.1 (start {})).2

lemma wellScoped_samples : samples.WellScoped := by
  have hquiet : declareSamples.IsQuiet fun _ => True :=
    .bind .newType fun _ => .bind .newVar fun _ => .bind .newVar fun _ =>
      .bind (.declare trivial) fun _ => .declare trivial
  exact (hquiet _ fun _ _ => trivial).wellScoped (wellScoped_start {})

lemma denotes_samples : samples.Denotes ⟨some "x", ⟨4, 5⟩⟩ ⟨27⟩ :=
  ⟨by decide, by decide +kernel, by decide +kernel, by decide +kernel⟩

/-- The name of a variable, and the blank. -/
def sampleTarget (name : String) : Expr := .ident ⟨0, ⟨4, 5⟩⟩ ⟨some name, ⟨4, 5⟩⟩

/-- An element of the map. -/
def sampleElement : Expr :=
  .index ⟨1, ⟨9, 15⟩⟩ (.ident ⟨2, ⟨9, 10⟩⟩ ⟨some "m", ⟨9, 10⟩⟩)
    (.lit ⟨3, ⟨11, 14⟩⟩ .string (some "\"a\""))

/-- In `_, (x) = m["a"], m["a"]` an integer does not fit the string, which counts as used then. -/
theorem uses_of_assignment_failed_sample : samples.WellScoped ∧ samples.Denotes ⟨some "x", ⟨4, 5⟩⟩ ⟨27⟩ ∧
    ((assignVars [sampleTarget "_", .paren ⟨4, ⟨3, 6⟩⟩ (sampleTarget "x")]
      [sampleElement, sampleElement]).1 samples).2.Uses ⟨27⟩ := by
  refine ⟨wellScoped_samples, denotes_samples, ?_⟩
  apply uses_of_assignment_failed (k := 1) wellScoped_samples rfl rfl denotes_samples
    (Prod.mk.eta (p := (_, _))).symm
  · decide +kernel
  · decide +kernel

/-- In `x, _ = m["a"]` it does not fit either, but the string does not count as used. -/
theorem not_uses_of_pair_failed : samples.WellScoped ∧ samples.Denotes ⟨some "x", ⟨4, 5⟩⟩ ⟨27⟩ ∧
    let r := (values (pending [sampleElement]) true).1 samples
    r.2.FailsAt [sampleTarget "x", sampleTarget "_"] r.1.1 0 ∧
      ¬((assignVars [sampleTarget "x", sampleTarget "_"] [sampleElement]).1 samples).2.Uses ⟨27⟩ :=
  ⟨wellScoped_samples, denotes_samples, by decide +kernel, by decide +kernel⟩

end Pass

/-! ## Naming a target -/

/-- To count a variable as used and then as before restores it. -/
lemma Store.isUsed_restore (s : Store) (p o : ObjectId) :
    (((s.modifyObject p (·.setUsed true)).modifyObject p
      (·.setUsed (s.object p).isUsed)).object o).isUsed = (s.object o).isUsed := by
  have hsize : (s.modifyObject p (·.setUsed true)).objects.size = s.objects.size :=
    Array.size_modify
  rw [object_modifyObject, object_modifyObject, hsize]
  split
  · rename_i h
    rw [← h.1]
    cases hob : (s.object p).entity with
    | var _ _ used => cases used <;> simp [Object.setUsed, Object.isUsed, hob]
    | _ => simp [Object.setUsed, Object.isUsed, hob]
  · rfl

namespace Pass

lemma store_value (m : Pass Evaluated) (c : Checker) :
    ((value m).1 c).2.store = (m.1 c).2.store := by
  have hexclude x d : ((exclude x false).1 d).2.store = d.store := by
    rw [exclude, entities_bind_run]
    split <;> rfl
  have hsingle x d : ((singleValue x).1 d).2.store = d.store := by
    rw [singleValue, entities_bind_run]
    split <;> rfl
  exact (hsingle _ _).trans (hexclude _ _)

lemma isUsed_evalTarget (he : e.unparen.ident? = some i) (hi : i.text ≠ "_") :
    (((evalTarget e).1 c).2.store.object o).isUsed = (c.store.object o).isUsed := by
  obtain ⟨history, hrun⟩ := localVar?_run i c
  have hlocal : ((localVar? i).1 { c with history }).1 = ((localVar? i).1 c).1 := by
    rw [localVar?_eq, localVar?_eq]
    rfl
  have hstore := (store_value e.eval { c with history }).trans (store_eval_name e he hi _)
  rw [hlocal] at hstore
  rw [evalTarget, he, bind_run, hrun, entities_bind_run, bind_run]
  cases hnamed : ((localVar? i).1 c).1 with
  | none =>
    rw [hnamed] at hstore
    exact congrArg (·.object o |>.isUsed) hstore
  | some p =>
    -- what is written back was read before the evaluation, which sets no other flag
    rw [hnamed] at hstore
    change (((e.evalValue.1 { c with history }).2.store.modifyObject p
      (·.setUsed (c.store.object p).isUsed)).object o).isUsed = _
    rw [Expr.evalValue, hstore]
    exact isUsed_restore c.store p o

lemma store_storageType (he : e.unparen.ident?.isSome) :
    ((storageType e).1 c).2.store = ((evalTarget e).1 c).2.store := by
  have hreport x d : ((reportTarget e x).1 d).2.store = d.store := by
    cases e with
    | ident | paren => rfl
    | _ => cases he
  rw [storageType, bind_run]
  split
  · rfl
  · split
    · rfl
    · rfl
    · exact hreport _ _

lemma isUsed_targetType (he : e.unparen.ident? = some i) :
    (((targetType e).1 c).2.store.object o).isUsed = (c.store.object o).isUsed := by
  by_cases hi : i.text = "_"
  · rw [targetType, show blank? e = some i by simp [blank?, he, hi]]
    rfl
  · rw [targetType, show blank? e = none by simp [blank?, he, hi]]
    exact (congrArg (·.object o |>.isUsed) (store_storageType (by rw [he]; rfl))).trans
      (isUsed_evalTarget he hi)

end Pass

lemma uses_answer (r : Request) (hc : c.Uses o) : (r.answer c).Uses o := by
  have hdeclare {d} (hd : d.Uses o) p : ((declareInPackage p).1 d).2.Uses o := by
    have hkeep : (declare d.packageScope none p 0).Preserves (Uses o) := uses_declare
    exact hkeep.state d hd
  have hnew {new : Option PackageId → Pass ObjectId} {ob}
      (h : ((new (some c.package)).1 c).2 = { c with store := (Build.newObject ob c.store).2 }) :
      ((declareNew new).1 c).2.Uses o := by
    have hmade : ((new (some c.package)).1 c).2.Uses o := by
      rw [h]
      exact (tacit_newObject _).used o hc
    exact hdeclare hmade _
  cases r with
  | declareVar | declareConst | declareFunc => exact hnew rfl
  | declareType p => exact hdeclare hc p
  | checkFunc sig body =>
    exact (uses_governs.function hc (fun _ _ => trivial) (sigCollects_false sig)).state
  | checkFuncBody sig body =>
    exact (uses_governs.bodyOf hc (fun _ _ => trivial) fun _ _ _ => trivial).state
  | checkBlock body => exact (uses_governs.block hc fun _ _ => trivial).state

lemma uses_check (s : Stmt) (hc : c.Uses o) : ((s.check checkLiteral).1 c).2.Uses o := by
  rw [Stmt.check_eq]
  have hrun d c (hc : c.Uses o) : (checkLiteral d).Uses o c :=
    uses_governs.checkLiteral hc fun _ _ => trivial
  exact (uses_governs.observeStmt hc (fun d c hc _ => hrun d c hc) fun _ hd =>
    uses_governs.act (fun d c hc _ => hrun d c hc) s trivial hd).state

/-- No request and no statement takes back that a variable counts as used, and a name as a target,
in any parentheses, leaves all variables as they were. -/
theorem use_kept_and_target_no_use (c : Checker) (o : ObjectId) :
    (c.Uses o → (∀ r : Request, (r.answer c).Uses o) ∧
      ∀ s : Stmt, ((s.check checkLiteral).1 c).2.Uses o) ∧
    ∀ lhs : Expr, lhs.unparen.ident?.isSome →
      (((targetType lhs).1 c).2.store.object o).isUsed = (c.store.object o).isUsed := by
  refine ⟨fun hc => ⟨fun r => uses_answer r hc, fun s => uses_check s hc⟩, fun lhs h => ?_⟩
  obtain ⟨i, hi⟩ := Option.isSome_iff_exists.mp h
  exact isUsed_targetType hi

/-- A use of `x` is kept while `(x) = m["a"]` is checked, and the target alone is no use. -/
theorem use_kept_and_target_no_use_sample : let lhs := Expr.paren ⟨4, ⟨3, 6⟩⟩ (sampleTarget "x")
    let marked := ((markUsed ⟨27⟩).1 samples).2
    ((Request.checkBlock ⟨[.assign ⟨3, 15⟩ [lhs] [sampleElement]], ⟨2, 16⟩⟩).answer marked).Uses ⟨27⟩ ∧
      (samples.store.object ⟨27⟩).isUsed = false ∧
      (((targetType lhs).1 samples).2.store.object ⟨27⟩).isUsed = false := by
  have hunused : (samples.store.object ⟨27⟩).isUsed = false := by decide +kernel
  refine ⟨((use_kept_and_target_no_use _ _).1 (by decide +kernel)).1 _, hunused, ?_⟩
  exact ((use_kept_and_target_no_use samples ⟨27⟩).2 _ rfl).trans hunused

end GoCheck
