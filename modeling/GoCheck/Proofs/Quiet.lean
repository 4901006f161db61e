import GoCheck.Proofs.Conversion.Outcomes
import GoCheck.Proofs.Steps
import Mathlib.Logic.Relation

/-!
# Quiet passes

Most passes record nothing about expressions, put off no bodies and give no object a type or a
value. They make entities, look up and bind names, and report, in scopes that they are given or have
made.
-/

namespace GoCheck

variable {span : Span} {o : ObjectId} {n values id : Nat} {name : Option Ident} {p : Problem}
  {i : Ident} {s s' : Store}

/-- The scopes that are still to be made are among `W`. -/
def Store.NewIn (s : Store) (W : ScopeId → Prop) : Prop :=
  ∀ x : ScopeId, s.scopes.size ≤ x.index → W x

lemma Store.NewIn.of_size_le (h : s.NewIn W) (hle : s.scopes.size ≤ s'.scopes.size) : s'.NewIn W :=
  fun x hx => h x (Nat.le_trans hle hx)

/-- A report that some name is declared twice in a scope. -/
def Diagnostic.isRedeclaration (d : Diagnostic) : Bool := d.code = some Fault.duplicateDecl.code

lemma Fault.code_inj {k l : Fault} (h : k.code = l.code) : k = l := by
  have hlt (f : Fault) : f.ctorIdx < 45 := by cases f <;> decide
  have hcodes : ∀ i < 45, ∀ j < 45, (ofNat i).code = (ofNat j).code → ofNat i = ofNat j := by
    decide +kernel
  simpa only [ofNat_ctorIdx, h, forall_const] using hcodes _ (hlt k) _ (hlt l)

lemma Problem.isRedeclaration_report (span : Span) (h : p.fault != .duplicateDecl) :
    (p.report span).isRedeclaration = false :=
  decide_eq_false fun hcode =>
    bne_iff_ne.mp h (Fault.code_inj (Option.some.inj hcode))

namespace Checker

/-- A step that leaves alone the records, the bodies put off, the types and values of objects and
the place. New scopes lie in the current one, and names are bound or refused in the scopes `W`. -/
inductive QuietStep (W : ScopeId → Prop) : Checker → Checker → Prop where
  | newType (c : Checker) (t : Ty) : t.isComposed →
      QuietStep W c { c with store := (Build.newType t c.store).2 }
  | newObject (c : Checker) (o : Object) : (∀ v, o.value? = some v → v.isUnknown = true) →
      QuietStep W c { c with store := (Build.newObject o c.store).2 }
  | newScope (c : Checker) (start stop : Nat) (comment : String) (isFunc : Bool) :
      QuietStep W c
        { c with store := (Build.newScope c.context.scope start stop comment isFunc c.store).2 }
  | bind (c : Checker) (x : ScopeId) (o : ObjectId) : W x →
      QuietStep W c { c with store := (c.store.bind x o).2 }
  | setVisible (c : Checker) (o : ObjectId) (visibleFrom : Nat) :
      QuietStep W c { c with store := c.store.modifyObject o ({ · with visibleFrom }) }
  | setUsed (c : Checker) (o : ObjectId) (used : Bool) :
      QuietStep W c { c with store := c.store.modifyObject o (·.setUsed used) }
  | emit (c : Checker) (d : Diagnostic) : d.isRedeclaration = false →
      QuietStep W c { c with sink := c.sink.emit d }
  | log (c : Checker) (e : Event) : QuietStep W c { c with log := c.log.push e }
  | indent (c : Checker) (n : Nat) : QuietStep W c { c with indent := n }
  | failed (c : Checker) (id : Nat) :
      QuietStep W c { c with info := { c.info with failed := id :: c.info.failed } }
  | names (c : Checker) (defs : Table Span (Option ObjectId)) (uses : Table Span ObjectId)
      (scopes : Table Span ScopeId) :
      QuietStep W c { c with info := { c.info with defs, uses, scopes } }
  | lookup (c : Checker) (name : String) :
      QuietStep W c { c with
        history := c.history.push
          (.lookup c.context.scope name (c.context.scope.bind (c.store.resolve? · name))) }
  | literal (c : Checker) (kind : LitKind) (raw : String) :
      QuietStep W c { c with history := c.history.push (.literal kind raw) }
  | clash (c : Checker) (x : ScopeId) (o other : ObjectId) : W x →
      QuietStep W c { c with
        sink := c.sink.emit (Pass.redeclaration (c.store.object o) (c.store.object other))
        history := c.history.push (.clash x o other) }

abbrev QuietSteps (W : ScopeId → Prop) : Checker → Checker → Prop :=
  Relation.ReflTransGen (QuietStep W)

end Checker

namespace Pass

variable {m : Pass α} {f : α → Pass β} {c : Checker}

/-- A pass that makes only quiet steps, given that new scopes are among `W`. -/
def IsQuiet (W : ScopeId → Prop) (m : Pass α) : Prop :=
  ∀ c : Checker, c.store.NewIn W → c.QuietSteps W (m.1 c).2

lemma newIn_after (m : Pass α) (hc : c.store.NewIn W) : (m.1 c).2.store.NewIn W :=
  hc.of_size_le (m.2 c).scopes_size_le

lemma IsQuiet.pure (a : α) : (pure a : Pass α).IsQuiet W := fun _ _ => .refl

lemma IsQuiet.bind (hm : m.IsQuiet W) (hf : ∀ a, (f a).IsQuiet W) : (m >>= f).IsQuiet W :=
  fun c hc => (hm c hc).trans (hf _ _ (m.newIn_after hc))

lemma IsQuiet.current : current.IsQuiet W := fun _ _ => .refl

lemma IsQuiet.entities : entities.IsQuiet W := fun _ _ => .refl

variable {g : α → Pass PUnit} {l : List α}

lemma IsQuiet.forM (h : ∀ a ∈ l, (g a).IsQuiet W) : (l.forM g).IsQuiet W := by
  induction l with
  | nil => exact .pure _
  | cons a l ih => exact (h a (by simp)).bind fun _ => ih fun b hb => h b (by simp [hb])

lemma IsQuiet.optionForM {o : Option α} (h : ∀ a, (g a).IsQuiet W) : (o.forM g).IsQuiet W := by
  cases o with
  | none => exact .pure _
  | some a => exact h a

lemma IsQuiet.mapM (h : ∀ a, (f a).IsQuiet W) : (l.mapM f).IsQuiet W := by
  induction l with
  | nil => exact .pure _
  | cons a l ih =>
    rw [List.mapM_cons]
    exact (h a).bind fun _ => ih.bind .pure

lemma IsQuiet.ite {p : Prop} [Decidable p] {n : Pass α} (hm : m.IsQuiet W) (hn : n.IsQuiet W) :
    (if p then m else n).IsQuiet W := by
  split
  · exact hm
  · exact hn

lemma bind_run : (m >>= f).1 c = (f (m.1 c).1).1 (m.1 c).2 := rfl

lemma current_bind_run {f : Checker → Pass β} : (current >>= f).1 c = (f c).1 c := rfl

lemma traceLine_run (line : Store → String) (c : Checker) :
    ∃ log, ((traceLine line).1 c).2 = { c with log } := by
  rw [traceLine, current_bind_run]
  split
  · exact ⟨_, rfl⟩
  · exact ⟨c.log, rfl⟩

lemma indentTrace_run (c : Checker) : ∃ indent, (indentTrace.1 c).2 = { c with indent } := by
  rw [indentTrace, current_bind_run]
  split
  · exact ⟨_, rfl⟩
  · exact ⟨c.indent, rfl⟩

lemma unindentTrace_run (c : Checker) : ∃ indent, (unindentTrace.1 c).2 = { c with indent } := by
  rw [unindentTrace, current_bind_run]
  split
  · exact ⟨_, rfl⟩
  · exact ⟨c.indent, rfl⟩

lemma newScope_run : (newScope parent span comment isFunc).1 c =
      ((Build.newScope parent span.start span.stop comment isFunc c.store).1,
        { c with
          store := (Build.newScope parent span.start span.stop comment isFunc c.store).2 }) := rfl

lemma within_run {context : Context} : (within context m).1 c =
    ((m.1 { c with context }).1, { (m.1 { c with context }).2 with context := c.context }) := rfl

lemma entities_bind_run {f : Store → Pass β} : (entities >>= f).1 c = (f c.store).1 c := rfl

section

lemma IsQuiet.newType : (newType ty h).IsQuiet W :=
  fun c _ => .single (.newType c ty h)

lemma IsQuiet.newVar : (newVar span package text type).IsQuiet W :=
  fun c _ => .single (.newObject c _ fun _ hv => by cases hv)

lemma IsQuiet.newParam : (newParam span package text type).IsQuiet W :=
  fun c _ => .single (.newObject c _ fun _ hv => by cases hv)

lemma IsQuiet.newConst : (newConst span package text type .unknown).IsQuiet W := by
  refine fun c _ => .single (.newObject c _ fun v hv => ?_)
  cases hv
  rfl

variable {x : ScopeId}

lemma IsQuiet.bindIn (hx : W x) : (bindIn x o).IsQuiet W :=
  fun c _ => .single (.bind c x o hx)

lemma IsQuiet.setUsed : (setUsed o used).IsQuiet W :=
  fun c _ => .single (.setUsed c o used)

lemma IsQuiet.markUsed : (markUsed o).IsQuiet W := .setUsed

lemma IsQuiet.setVisible : (setVisible o n).IsQuiet W :=
  fun c _ => .single (.setVisible c o n)

lemma IsQuiet.recordFailed : (recordFailed id).IsQuiet W :=
  fun c _ => .single (.failed c id)

lemma IsQuiet.emit (h : d.isRedeclaration = false) : (emit d).IsQuiet W :=
  fun c _ => .single (.emit c d h)

lemma IsQuiet.report (h : p.fault != .duplicateDecl) : (report p span).IsQuiet W :=
  .emit (Problem.isRedeclaration_report span h)

lemma IsQuiet.refuse (h : p.fault != .duplicateDecl) :
    (Pass.report p span >>= fun _ => Pure.pure a).IsQuiet W :=
  .bind (.report h) .pure

lemma IsQuiet.logEvent : (logEvent e).IsQuiet W := fun c _ => .single (.log c e)

lemma IsQuiet.setIndent : (setIndent n).IsQuiet W := fun c _ => .single (.indent c n)

lemma IsQuiet.recordDef {o : Option ObjectId} : (recordDef span o).IsQuiet W :=
  fun c _ => .single (.names c ..)

lemma IsQuiet.recordUse : (recordUse span o).IsQuiet W := fun c _ => .single (.names c ..)

lemma IsQuiet.recordScope : (recordScope span x).IsQuiet W :=
  fun c _ => .single (.names c ..)

lemma IsQuiet.traceLine : (traceLine line).IsQuiet W :=
  .bind .current fun _ => .ite .logEvent (.pure _)

lemma IsQuiet.indentTrace : indentTrace.IsQuiet W :=
  .bind .current fun _ => .ite .setIndent (.pure _)

lemma IsQuiet.unindentTrace : unindentTrace.IsQuiet W :=
  .bind .current fun _ => .ite .setIndent (.pure _)

lemma IsQuiet.probe : (probe ask).IsQuiet W :=
  .bind .entities fun _ =>
    .bind (.forM fun _ _ => .logEvent) .pure

lemma IsQuiet.describe {x : Operand} : (describe x).IsQuiet W := fun _ _ => .refl

lemma IsQuiet.typeText : (typeText t).IsQuiet W := fun _ _ => .refl

lemma IsQuiet.lookup : (lookup text).IsQuiet W := fun c _ => .single (.lookup c text)

lemma IsQuiet.noteLiteral : (note (.literal kind raw)).IsQuiet W := fun c _ => .single (.literal c ..)

lemma IsQuiet.isLocalVar : (isLocalVar o).IsQuiet W := fun _ _ => .refl

lemma IsQuiet.localVar? : (localVar? i).IsQuiet W := by
  refine .bind .lookup fun o => ?_
  cases o with
  | none => exact .pure _
  | some o => exact .bind .isLocalVar .pure

lemma declare_of_isBlank (h : (c.store.object o).isBlank) :
    (declare x name o n).1 c = (name.forM fun i => recordDef i.span (some o)).1 c := by
  rw [declare, entities_bind_run, if_pos h, if_pos h]
  rfl

lemma declare_of_find?_eq_some (h : (c.store.object o).isBlank = false)
    (hfind : (c.store.scope x).find? (c.store.object o).name = some other) :
    (declare x name o n).1 c = ((), { c with
      sink := c.sink.emit (redeclaration (c.store.object o) (c.store.object other))
      history := c.history.push (.clash x o other) }) := by
  have hbind : (bindIn x o).1 c = (some other, c) := by
    simp only [bindIn, build, Check.build, StateT.run, Store.bind, hfind]
  rw [declare, entities_bind_run, if_neg (by simp [h]), bind_run, hbind]
  rfl

lemma declare_of_find?_eq_none (h : (c.store.object o).isBlank = false)
    (hfind : (c.store.scope x).find? (c.store.object o).name = none) :
    (declare x name o n).1 c = (do
      discard <| bindIn x o
      setVisible o n
      name.forM fun i => recordDef i.span (some o) : Pass Unit).1 c := by
  have hbind : ((bindIn x o).1 c).1 = none := by
    simp only [bindIn, build, Check.build, StateT.run, Store.bind, hfind]
  rw [declare, entities_bind_run, if_neg (by simp [h]), bind_run, hbind, if_neg (by simp [h])]
  rfl

lemma IsQuiet.declare (hx : W x) : (declare x name o n).IsQuiet W := by
  have hdef : (name.forM fun i => Pass.recordDef i.span (some o)).IsQuiet W :=
    .optionForM fun _ => .recordDef
  intro c hc
  cases hblank : (c.store.object o).isBlank with
  | true =>
    rw [declare_of_isBlank hblank]
    exact hdef c hc
  | false =>
    cases hfind : (c.store.scope x).find? (c.store.object o).name with
    | some other =>
      rw [declare_of_find?_eq_some hblank hfind]
      exact .single (.clash c x o other hx)
    | none =>
      rw [declare_of_find?_eq_none hblank hfind]
      have hbind : (discard (Pass.bindIn x o)).IsQuiet W := .bindIn hx
      exact hbind.bind (fun _ => .bind .setVisible fun _ => hdef) c hc

lemma IsQuiet.tupleOf : (tupleOf ts).IsQuiet W :=
  .bind (.mapM fun _ => .newParam) fun _ => .newType

lemma IsQuiet.newScope_bind {f : ScopeId → Pass α} (hf : ∀ x, W x → (f x).IsQuiet W) :
    (Pass.current >>= fun c => newScope c.context.scope span comment isFunc >>= f).IsQuiet W := by
  intro c hc
  have hnew : W ((newScope c.context.scope span comment isFunc).1 c).1 :=
    hc _ (Nat.le_of_eq (Store.newScope_index ..).symm)
  refine .head (.newScope c span.start span.stop comment isFunc) (hf _ hnew _ ?_)
  exact newIn_after (newScope c.context.scope span comment isFunc) hc

end

lemma IsQuiet.resolveType : i.resolveType.IsQuiet W := by
  refine .ite (.refuse rfl) ?_
  refine .bind .lookup fun o => ?_
  cases o with
  | none => exact .refuse rfl
  | some o =>
    refine .bind .recordUse fun _ => .bind .entities fun s => ?_
    exact .ite (.pure _) (.refuse rfl)

lemma IsQuiet.declareParam {x : ScopeId} (hx : W x) : (declareParam x n name span t).IsQuiet W := by
  refine .bind .current fun c => ?_
  cases name with
  | none => exact .newParam
  | some i => exact .bind .newParam fun _ => .bind (.declare hx) .pure

mutual

theorem IsQuiet.resolve (e : TypeExpr) : e.resolve.IsQuiet W := by
  cases e with simp only [TypeExpr.resolve]
  | name span i => exact .resolveType
  | pointer span elem | slice span elem | chan span dir elem =>
    exact .bind (.resolve elem) fun _ => .newType
  | map span key value =>
    exact .bind (.resolve key) fun _ => .bind (.resolve value) fun _ => .newType
  | func span sig => exact .bind (.resolveSig sig) .pure

theorem IsQuiet.resolveSig (sig : FuncSigOf TypeExpr) : (resolveSig sig).IsQuiet W := by
  cases sig with
  | mk params results variadic span =>
    simp only [GoCheck.resolveSig]
    refine .newScope_bind fun x hx => .bind .recordScope fun _ => ?_
    refine .bind (.resolveParams span.stop variadic params hx) fun _ => ?_
    refine .bind (.resolveParams span.stop false results hx) fun _ => ?_
    refine .bind .newType fun _ => .bind .newType fun _ => ?_
    exact .bind .newType .pure

theorem IsQuiet.resolveParams {x : ScopeId} (n : Nat) (variadic : Bool)
    (ps : List (ParamOf TypeExpr)) (hx : W x) : (resolveParams x n variadic ps).IsQuiet W := by
  cases ps with
  | nil =>
    simp only [GoCheck.resolveParams]
    exact .pure _
  | cons p ps =>
    simp only [GoCheck.resolveParams]
    exact .bind (.resolveParam n _ p hx) fun _ =>
      .bind (.resolveParams n variadic ps hx) .pure

theorem IsQuiet.resolveParam {x : ScopeId} (n : Nat) (collects : Bool) (p : ParamOf TypeExpr)
    (hx : W x) : (resolveParam x n collects p).IsQuiet W := by
  cases p with
  | mk name type span =>
    simp only [GoCheck.resolveParam]
    refine .bind (.resolve type) fun t => .ite ?_ ?_
    · exact .bind .newType fun _ => .declareParam hx
    · exact .bind (.pure _) fun _ => .declareParam hx

end

section

variable {x : Operand}

lemma IsQuiet.reportGeneric : (reportGeneric x context).IsQuiet W :=
  .bind .entities fun _ => .ite (.report rfl) (.pure _)

lemma store_reportGeneric (x : Operand) (context : String) (c : Checker) :
    ((reportGeneric x context).1 c).2.store = c.store := by
  obtain ⟨b, p, hrun⟩ : ∃ (b : Bool) (p : Problem), (reportGeneric x context).1 c =
      (if b then report p x.span else pure ()).1 c := ⟨_, _, rfl⟩
  rw [hrun]
  cases b <;> rfl

lemma IsQuiet.refuseConversion : (refuseConversion x t cause).IsQuiet W :=
  .bind .entities fun _ => .refuse rfl

lemma IsQuiet.noteUse : (noteUse o).IsQuiet W :=
  .bind .isLocalVar fun _ => .ite .markUsed (.pure _)

lemma IsQuiet.reportSelection {r : Selection} : (reportSelection x t sel r).IsQuiet W := by
  refine .bind .entities fun s => .ite (.pure _) ?_
  refine .report ?_
  cases r with
  | notFound | entry =>
    dsimp only
    split <;> rfl
  | ambiguous => rfl
  | badReceiver => rfl

lemma IsQuiet.pointee : (pointee x).IsQuiet W := by
  refine .bind .entities fun s => ?_
  split
  · exact .pure _
  · exact .refuse rfl

lemma IsQuiet.addressOf : (addressOf x t).IsQuiet W :=
  .ite (.bind .newType .pure) (.bind .describe fun _ => .refuse rfl)

lemma IsQuiet.reportCounts : (reportCounts span rhs targets values).IsQuiet W := by
  unfold Pass.reportCounts
  split <;> exact .report rfl

lemma isRedeclaration_returnCountReport :
    (returnCountReport s span lhs rhs).isRedeclaration = false :=
  Problem.isRedeclaration_report .dummy rfl

lemma IsQuiet.markTargets : (markTargets ls).IsQuiet W := by
  refine .forM fun e _ => ?_
  split
  · exact .bind .localVar? fun _ => .optionForM fun _ => .markUsed
  · exact .pure _

end

end Pass

end GoCheck
