import GoCheck.Proofs.Course

/-!
# Bodies that are put off

A function literal is evaluated without its body, which waits until the statement around it is
nearly done. As a grammar of what a check does: a statement puts off the bodies of its literals,
goes through them in the same order, and only then ends. So every body is checked exactly once. The
check of nested bodies satisfies the equation without a bound.
-/

namespace GoCheck

open List Checker Happening Nat

variable {c d : Checker} {L : Limits} {t : Task}

/-- Whether something is put off, begins or ends. -/
def Happening.isMilestone : Happening → Bool
  | .lookup .. | .clash .. | .literal .. => false
  | _ => true

def Happening.putOff? : Happening → Option Deferred
  | .putOff d => some d
  | _ => none

def Happening.entered? : Happening → Option Deferred
  | .enterBody d => some d
  | _ => none

namespace Task

/-- The bodies that a task begins with. -/
def waiting : Task → List Deferred
  | .stmt _ | .stmts _ => []
  | .body d => [d]
  | .bodies ds => ds

/-- What happens while a task is done, in this order. -/
inductive Trace : Task → List Happening → Prop where
  | nil : Trace (.stmts []) []
  | cons {l l' : List Happening} :
      Trace (.stmt s) l → Trace (.stmts ss) l' → Trace (.stmts (s :: ss)) (l ++ l')
  /-- A block goes through its statements. -/
  | block {span : Span} {body : Block} {l : List Happening} : Trace (.stmts body.stmts) l →
      Trace (.stmt (.block span body))
        (.enterStmt (.block span body) :: l ++ [.leaveStmt (.block span body)])
  /-- Any other statement puts off bodies and then goes through them in the same order. -/
  | plain {ds : List Deferred} {l : List Happening} : s.isBlock = false →
      Trace (.bodies ds) l →
      Trace (.stmt s) (.enterStmt s :: (ds.map .putOff ++ l) ++ [.leaveStmt s])
  /-- A body goes through its statements. -/
  | body {d : Deferred} {l : List Happening} : Trace (.stmts d.body.stmts) l →
      Trace (.body d) (.enterBody d :: l ++ [.leaveBody d])
  | none : Trace (.bodies []) []
  | next {d : Deferred} {ds : List Deferred} {l l' : List Happening} :
      Trace (.body d) l → Trace (.bodies ds) l' → Trace (.bodies (d :: ds)) (l ++ l')

/-- The bodies whose checks begin are those that were waiting and those that are put off. -/
lemma Trace.perm (h : t.Trace l) :
    (l.filterMap entered?).Perm (t.waiting ++ l.filterMap putOff?) := by
  induction h with
  | nil => exact .refl _
  | cons _ _ ih ih' => simpa [waiting] using ih.append ih'
  | block _ ih | body _ ih => simpa [waiting, filterMap_cons, entered?, putOff?] using ih
  | @plain s ds l _ _ ih =>
    have hentered : (ds.map putOff).filterMap entered? = [] := by
      simp [filterMap_eq_nil_iff, entered?]
    have hputOff : (ds.map putOff).filterMap putOff? = ds := by simp [Function.comp_def, putOff?]
    simp only [cons_append, filterMap_cons, filterMap_append, hentered, hputOff]
    simpa [waiting, entered?, putOff?] using ih
  | none => exact .refl _
  | @next d ds l l' _ _ ih ih' =>
    rw [filterMap_append, filterMap_append]
    exact (ih.append ih').trans ((perm_append_comm_assoc _ ds _).cons d)

end Task

namespace Checker

/-- What has happened to bodies and statements, oldest first. -/
def milestones (c : Checker) : List Happening := c.history.toList.filter isMilestone

/-- A task is done: all is back in place, and all happens in order, with each body checked once. -/
structure Completes (c : Checker) (t : Task) (d : Checker) : Prop where
  context : d.context = c.context
  deferred : d.deferred = c.deferred
  trace : ∃ l, d.milestones = c.milestones ++ l ∧ t.Trace l ∧
    (l.filterMap entered?).Perm (t.waiting ++ l.filterMap putOff?)

lemma Completes.of_eq (h : d.Completes t e) (hcontext : d.context = c.context)
    (hdeferred : d.deferred = c.deferred) (hmiles : d.milestones = c.milestones) :
    c.Completes t e :=
  ⟨h.context.trans hcontext, h.deferred.trans hdeferred, hmiles ▸ h.trace⟩

lemma milestones_noted (hh : h.isMilestone) : (c.noted h).milestones = c.milestones ++ [h] := by
  simp [milestones, noted, hh]

lemma QuietSteps.milestones_eq (h : c.QuietSteps W d) : d.milestones = c.milestones := by
  induction h with
  | refl => rfl
  | tail _ hstep ih =>
    refine Eq.trans ?_ ih
    cases hstep with
    | lookup name | clash x o other | literal kind raw => simp [milestones, isMilestone]
    | _ => rfl

/-- An evaluation does nothing of note but put off bodies. -/
lemma Acts.milestones_eq (h : c.Acts L d) : ∃ ds, d.deferred = c.deferred ++ ds ∧
    d.milestones = c.milestones ++ ds.map .putOff := by
  induction h with
  | refl => exact ⟨[], by simp⟩
  | tail _ hstep ih =>
    obtain ⟨ds, hds, hmiles⟩ := ih
    cases hstep with
    | quiet hq =>
      have hone := QuietSteps.milestones_eq (.single hq)
      exact ⟨ds, hq.deferred_eq.trans hds, hone.trans hmiles⟩
    | putOff x =>
      refine ⟨ds ++ [x], by simp [hds], ?_⟩
      rw [map_append, ← append_assoc, ← hmiles]
      simp [milestones, isMilestone]
    | _ => exact ⟨ds, hds, hmiles⟩

lemma Course.trace (h : Course F t c d) : ∃ l, d.milestones = c.milestones ++ l ∧ t.Trace l := by
  induction h with
  | nil => exact ⟨[], by simp, .nil⟩
  | cons _ _ ih ih' =>
    obtain ⟨l, hl, hfirst⟩ := ih
    obtain ⟨l', hl', hrest⟩ := ih'
    exact ⟨l ++ l', by rw [hl', hl, append_assoc], .cons hfirst hrest⟩
  | @block span body _ c d e f hopen _ _ _ hclose ih =>
    -- neither opening nor closing a scope is a milestone
    obtain ⟨l, hl, htrace⟩ := ih
    refine ⟨_, ?_, .block htrace⟩
    calc (f.noted _).milestones
      _ = e.milestones ++ [.leaveStmt (.block span body)] := by
        rw [milestones_noted rfl, hclose.milestones_eq]
        rfl
      _ = d.milestones ++ l ++ [.leaveStmt (.block span body)] := by
        rw [hl]
        rfl
      _ = _ := by
        rw [hopen.milestones_eq, milestones_noted rfl]
        simp
  | @plain s ds c d e f hs hacts hds _ hdecl ih =>
    obtain ⟨l, hl, htrace⟩ := ih
    obtain ⟨ds', hds', hmiles⟩ := hacts.milestones_eq
    obtain rfl : ds' = ds := append_cancel_left (hds'.symm.trans hds)
    refine ⟨_, ?_, .plain hs htrace⟩
    calc (f.noted _).milestones
      _ = e.milestones ++ [.leaveStmt s] := by
        rw [milestones_noted rfl, hdecl.milestones_eq]
        rfl
      _ = d.milestones ++ l ++ [.leaveStmt s] := by rw [hl]
      _ = _ := by
        rw [hmiles, milestones_noted rfl]
        simp
  | @body x c d e f _ hopen _ hclose ih =>
    obtain ⟨l, hl, htrace⟩ := ih
    refine ⟨_, ?_, .body htrace⟩
    calc ({ f with context := c.context }.noted _).milestones
      _ = f.milestones ++ [.leaveBody x] := milestones_noted rfl
      _ = d.milestones ++ l ++ [.leaveBody x] := by
        rw [hclose.milestones_eq, hl]
        rfl
      _ = _ := by
        rw [hopen.milestones_eq, milestones_noted rfl]
        simp
  | none => exact ⟨[], by simp, .none⟩
  | next _ _ ih ih' =>
    obtain ⟨l, hl, hfirst⟩ := ih
    obtain ⟨l', hl', hrest⟩ := ih'
    exact ⟨l ++ l', by rw [hl', hl, append_assoc], .next hfirst hrest⟩

lemma Course.completes (h : Course F t c d) : c.Completes t d := by
  obtain ⟨l, hl, htrace⟩ := h.trace
  exact ⟨h.context_eq, h.deferred_eq, l, hl, htrace, htrace.perm⟩

end Checker

mutual

/-- The bodies of the function literals in an expression, but not of those inside them. -/
def Expr.bodies : Expr → List Block
  | .ident .. | .lit .. => []
  | .funcLit _ _ body => [body]
  | .paren _ e | .selector _ e _ | .assert _ e _ | .unary _ _ e | .receive _ e => e.bodies
  | .index _ base index => base.bodies ++ index.bodies
  | .call _ func args _ => func.bodies ++ exprsBodies args

def exprsBodies : List Expr → List Block
  | [] => []
  | e :: es => e.bodies ++ exprsBodies es

end

namespace Pass

variable {run run' : Deferred → Pass Unit}

lemma past_zero (s : Store) : s.Past ⟨0, 0⟩ := ⟨zero_le _, zero_le _⟩

lemma runDeferred_congr (h : ∀ x ∈ c.deferred.drop n, run x = run' x) :
    (runDeferred run n).1 c = (runDeferred run' n).1 c := by
  have hforM : ∀ ds : List Deferred, (∀ x ∈ ds, run x = run' x) → ds.forM run = ds.forM run' := by
    intro ds hds
    induction ds with
    | nil => rfl
    | cons x ds ih =>
      change (run x >>= fun _ => ds.forM run) = (run' x >>= fun _ => ds.forM run')
      rw [hds x (by simp), ih fun y hy => hds y (by simp [hy])]
  rw [runDeferred, runDeferred, current_bind_run, current_bind_run, hforM _ h]

/-- Two checks of bodies do the same for a statement if they do so for the bodies it puts off. -/
lemma observeStmt_congr (h : ∀ c, ∀ x ∈ (m.1 c).2.deferred.drop c.deferred.length, run x = run' x) :
    observeStmt run s m = observeStmt run' s m := by
  refine Subtype.ext (funext fun c => ?_)
  let before : Pass Unit := do
    note (.enterStmt s)
    traceLine fun _ => "stmt[ " ++ s.text ++ " ]"
    indentTrace
  let after : Pass Unit := do
    unindentTrace
    note (.leaveStmt s)
  have hsplit (r : Deferred → Pass Unit) : (observeStmt r s m).1 c = after.1
      ((runDeferred r (before.1 c).2.deferred.length).1 (m.1 (before.1 c).2).2).2 := rfl
  rw [hsplit run, hsplit run', runDeferred_congr (h (before.1 c).2)]

variable {x : Deferred}

lemma blockDepth_lt_of_mem_drop (h : c.Acts L d)
    (hx : x ∈ d.deferred.drop c.deferred.length) : blockDepth x.body < L.depth := by
  obtain ⟨ds, hds, hall⟩ := h.deferred_eq
  rw [hds, drop_left] at hx
  exact (hall x hx).2.2

lemma drop_eq_nil (h : d.deferred = c.deferred) : d.deferred.drop c.deferred.length = [] := by
  rw [h, drop_length]

lemma shortDecl_congr {span : Span} (h : ∀ x, blockDepth x.body < k → run x = run' x)
    (hk : (Stmt.short span lhs rhs).literalDepth ≤ k) :
    shortDecl run span lhs rhs = shortDecl run' span lhs rhs := by
  refine Subtype.ext (funext fun c => ?_)
  simp only [shortDecl, deferredCount, bind_assoc, current_bind_run, pure_bind]
  cases c.context.scope with
  | none => rfl
  | some x =>
    have hinit := Evaluates.shortInit (L := ⟨⟨0, 0⟩, k, fun _ => False⟩) (x := x)
      (Nat.max_le.mp hk).1 (Nat.max_le.mp hk).2 c (past_zero _)
    have hsame := runDeferred_congr fun y hy => h y (blockDepth_lt_of_mem_drop hinit hy)
    rw [bind_run, bind_run, bind_run, bind_run, hsame]

mutual

/-- Checks of bodies that agree as deep as literals are nested in a statement do the same for it. -/
theorem check_congr (s : Stmt) (hrun : ChecksBodies run ⟨0, 0⟩ k)
    (h : ∀ x, blockDepth x.body < k → run x = run' x) (hk : s.literalDepth ≤ k) :
    s.check run = s.check run' := by
  -- what a statement puts off is nested less deeply than the statement
  have hacts {m} (hm : ∀ c, c.Acts (c.limits ⟨0, 0⟩ s) (m.1 c).2) :
      observeStmt run s m = observeStmt run' s m :=
    observeStmt_congr fun c x hx =>
      h x (lt_of_lt_of_le (blockDepth_lt_of_mem_drop (hm c) hx) hk)
  cases s with rw [Stmt.check, Stmt.check]
  | empty span => exact hacts fun c => .refl
  | block span body =>
    obtain ⟨stmts, span'⟩ := body
    have hsame : enterBlock run' ⟨stmts, span'⟩ = enterBlock run ⟨stmts, span'⟩ := by
      rw [enterBlock, enterBlock, checkStmts_congr stmts hrun h hk]
    rw [hsame]
    refine observeStmt_congr fun c x hx => ?_
    obtain ⟨y, d, e, hopen, -, -, hcourse, hend⟩ := course_enterBlock ⟨stmts, span'⟩ (past_zero c.store)
      fun d hd => course_checkStmts stmts hrun hk hd
    rw [hend, drop_eq_nil (hcourse.deferred_eq.trans hopen.deferred_eq)] at hx
    cases hx
  | var span specs =>
    refine hacts fun c => ?_
    exact acts_specs (fun spec hspec => .makeVars (exprsDepth_le_specsDepth hspec))
      (past_zero _) rfl
  | const span specs =>
    refine hacts fun c => ?_
    exact acts_specs (fun spec hspec => .makeConsts (exprsDepth_le_specsDepth hspec))
      (past_zero _) rfl
  | short span lhs rhs =>
    -- a short declaration checks the bodies itself, before it binds its names
    rw [← shortDecl_congr h hk]
    refine observeStmt_congr fun c x hx => ?_
    rw [drop_eq_nil (carries_shortDecl hrun hk (past_zero c.store)).deferred_eq] at hx
    cases hx
  | assign span lhs rhs =>
    have hdepth := Nat.max_le.mp (Nat.le_refl (Stmt.literalDepth (.assign span lhs rhs)))
    refine hacts fun c => ?_
    exact Evaluates.assignVars hdepth.1 hdepth.2 c (past_zero _)
  | ret span values =>
    refine hacts fun c => ?_
    exact Evaluates.returnStmt le_rfl c (past_zero _)
  | expr span e =>
    refine hacts fun c => ?_
    exact Evaluates.exprStmt le_rfl c (past_zero _)

theorem checkStmts_congr (ss : List Stmt) (hrun : ChecksBodies run ⟨0, 0⟩ k)
    (h : ∀ x, blockDepth x.body < k → run x = run' x) (hk : stmtsDepth ss ≤ k) :
    checkStmts run ss = checkStmts run' ss := by
  cases ss with
  | nil => rfl
  | cons s ss =>
    simp only [stmtsDepth, Nat.max_le] at hk
    rw [checkStmts, checkStmts, check_congr s hrun h hk.1, checkStmts_congr ss hrun h hk.2]

end

lemma functionBody_congr (hrun : ChecksBodies run ⟨0, 0⟩ k)
    (h : ∀ x, blockDepth x.body < k → run x = run' x) (hk : blockDepth x.body ≤ k) :
    functionBody run title x = functionBody run' title x := by
  rw [functionBody, functionBody, checkStmts_congr x.body.stmts hrun h (blockDepth_eq x.body ▸ hk)]

/-- The bound on the depth does not matter if it is not too small. -/
lemma literalBody_eq (hn : blockDepth x.body < n) (hn' : blockDepth x.body < n') :
    literalBody n x = literalBody n' x := by
  induction n generalizing n' x with
  | zero => cases hn
  | succ n ih =>
    cases n' with
    | zero => cases hn'
    | succ n' =>
      have hrun : ChecksBodies (literalBody n) ⟨0, 0⟩ (blockDepth x.body) := fun y c hy hscope hc =>
        checksBodies_literalBody _ n y c (lt_of_lt_of_le hy (le_of_lt_succ hn)) hscope hc
      have hsame y (hy : blockDepth y.body < blockDepth x.body) :
          literalBody n y = literalBody n' y :=
        ih (lt_of_lt_of_le hy (le_of_lt_succ hn))
          (lt_of_lt_of_le hy (le_of_lt_succ hn'))
      rw [literalBody, literalBody, functionBody_congr hrun hsame le_rfl]

lemma checkLiteral_eq (x : Deferred) : checkLiteral x = (do
    note (.enterBody x)
    functionBody checkLiteral "<function literal>" x
    note (.leaveBody x)) := by
  have hrun := checksBodies_literalBody ⟨0, 0⟩ (blockDepth x.body)
  have hsame y (hy : blockDepth y.body < blockDepth x.body) :
      literalBody (blockDepth x.body) y = checkLiteral y :=
    literalBody_eq hy (lt_succ_self _)
  rw [checkLiteral, literalBody, functionBody_congr hrun hsame le_rfl]

/-- A loop over the bodies that wait, from number `i` on, which asks each time for one more. -/
inductive Drains (run : Deferred → Pass Unit) : Nat → Checker → Checker → Prop where
  | done {c : Checker} : c.deferred.length ≤ i → Drains run i c c
  | next {x : Deferred} {c d : Checker} : c.deferred[i]? = some x →
      Drains run (i + 1) ((run x).1 c).2 d → Drains run i c d

/-- The loop ends and does what `runDeferred` does, since bodies leave nothing waiting. -/
lemma drains_runDeferred (n : Nat) (c : Checker) : ∃ d, Drains checkLiteral n c d ∧
    (runDeferred checkLiteral n).1 c = ((), { d with deferred := d.deferred.take n }) := by
  have hloop : ∀ ds i c, c.deferred.drop i = ds →
      Drains checkLiteral i c ((ds.forM checkLiteral).1 c).2 := by
    intro ds
    induction ds with
    | nil => exact fun i c hds => .done (drop_eq_nil_iff.mp hds)
    | cons x ds ih =>
      intro i c hds
      have hbody := checksBodies_checkLiteral ⟨0, 0⟩ _ x c (lt_succ_self _) (zero_le _)
        (past_zero _)
      refine .next ?_ (ih (i + 1) _ ?_)
      · rw [← head?_drop, hds]
        rfl
      · rw [hbody.deferred_eq, ← drop_drop, hds]
        rfl
  exact ⟨_, hloop _ n c rfl, rfl⟩

section

variable {m : Pass α} {f : α → Pass β} {eval : Pass Evaluated} {e func : Expr} {es : List Expr}
  {bs bs' : List Block} {x : Operand}

/-- A pass puts off bodies, in the order of the list, after those that wait. -/
def Puts (bs : List Block) (m : Pass α) : Prop :=
  ∀ c, (m.1 c).2.deferred.map (·.body) = c.deferred.map (·.body) ++ bs

lemma Puts.bind (hm : m.Puts bs) (hf : ∀ a, (f a).Puts bs') : (m >>= f).Puts (bs ++ bs') := by
  intro c
  rw [bind_run, hf, hm, append_assoc]

lemma Puts.before (hm : m.Puts bs) (hf : ∀ a, (f a).Puts []) : (m >>= f).Puts bs := by
  simpa using hm.bind hf

lemma puts_quiet (hm : m.IsQuiet fun _ => True) : m.Puts [] := fun c => by
  rw [(hm c fun _ _ => trivial).deferred_eq, append_nil]

/-- What an evaluation without literals may do puts off nothing. -/
lemma puts_nil (hm : m.Evaluates ⟨⟨0, 0⟩, 0, fun _ => True⟩) : m.Puts [] := fun c => by
  obtain ⟨ds, hds, hall⟩ := (hm c (past_zero _)).deferred_eq
  obtain rfl : ds = [] := eq_nil_iff_forall_not_mem.mpr fun x hx => not_lt_zero _ (hall x hx).2.2
  simp [hds]

lemma Puts.give (hm : m.Puts bs) (g : α → β) : (m >>= fun a => pure (g a)).Puts bs :=
  hm.before fun _ => puts_quiet (.pure _)

lemma always_pure (r : Evaluated) : (pure r : Pass Evaluated).Always (c.ActsTo L) fun r =>
    (Notions.plain (c.ActsTo L) L.Binds (fun _ => True) fun _ => True).outcome r.1 :=
  Maintains.outcome (preserves_pure r)

/-- What is done with the outcome of an evaluation puts off nothing more. -/
lemma Puts.op {g : Pass Evaluated → Pass α} (h : eval.Puts bs)
    (heq : g eval = eval >>= fun r => g (pure r))
    (hg : ∀ r, (g (pure r)).Evaluates ⟨⟨0, 0⟩, 0, fun _ => True⟩) : (g eval).Puts bs := by
  rw [heq]
  exact h.before fun r => puts_nil (hg r)

lemma Puts.value (h : eval.Puts bs) : (value eval).Puts bs :=
  h.op rfl fun r => .of_always fun _ => Regime.value acts_regime (always_pure r)

lemma Puts.observe (h : eval.Puts bs) : (observe e eval).Puts bs := by
  refine (puts_quiet .traceLine).bind fun _ => (puts_quiet .indentTrace).bind fun _ => ?_
  refine h.before fun r => puts_nil (.bind (.of_preserves fun _ => acts_record) fun _ => ?_)
  exact .of_isQuiet (.bind .unindentTrace fun _ => .bind .traceLine fun _ => .pure _)

lemma bodies_of_isBlank (h : isBlank e) : e.bodies = [] := by
  have hunparen (e : Expr) : e.unparen.bodies = e.bodies := by
    fun_induction Expr.unparen e with
    | case1 n inner ih => exact ih
    | case2 e he => rfl
  rw [← hunparen]
  unfold isBlank blank? at h
  cases hident : e.unparen <;> simp_all [Expr.ident?, Expr.bodies]

section

variable (hes : ∀ e ∈ es, e.eval.Puts e.bodies)
include hes

lemma puts_useAll : (useAll (pending es)).Puts (exprsBodies es) := by
  induction es with
  | nil => exact puts_quiet (.pure _)
  | cons e es ih =>
    rw [forall_mem_cons] at hes
    refine Puts.bind ?_ fun _ => ih hes.2
    dsimp only
    split
    · rw [bodies_of_isBlank ‹_›]
      exact puts_quiet (.pure _)
    · exact hes.1.give _

lemma puts_mapM : ((pending es).mapM fun p => value p.eval).Puts (exprsBodies es) := by
  induction es with
  | nil => exact puts_quiet (.pure _)
  | cons e es ih =>
    rw [forall_mem_cons] at hes
    rw [pending, mapM_cons]
    exact hes.1.value.bind fun _ => (ih hes.2).give _

lemma puts_values : (values (pending es) false).Puts (exprsBodies es) := by
  rcases es with _ | ⟨e, _ | ⟨e', es⟩⟩
  · exact (puts_mapM hes).give _
  · rw [exprsBodies, exprsBodies, append_nil]
    exact (hes e (by simp)).op (g := (values [⟨e, ·⟩] false)) rfl fun r => .of_always fun _ _ hd =>
      Regime.values acts_regime hd (by simpa using ⟨always_pure r, fun _ => trivial⟩)
  · exact (puts_mapM hes).give _

lemma puts_conversionCall : (conversionCall e x (pending es) spread).Puts (exprsBodies es) := by
  have hreport {p : String → Problem} {span t} (hp : ∀ text, (p text).fault != .duplicateDecl) :
      (do report (p (← typeText t)) span; return x.invalidated).Puts [] :=
    puts_quiet (.bind .typeText fun _ => .bind (.report (hp _)) fun _ => .pure _)
  rcases es with _ | ⟨e', _ | ⟨e'', es⟩⟩
  · exact hreport fun _ => rfl
  · rw [exprsBodies, exprsBodies, append_nil]
    exact (hes e' (by simp)).op (g := (conversionCall e x [⟨e', ·⟩] spread)) rfl fun r =>
      .of_always fun _ _ hd => Regime.conversionCall acts_regime hd
        (by simpa using ⟨always_pure r, fun _ => trivial⟩) ⟨fun _ _ => trivial, fun _ => trivial⟩
  · exact (puts_useAll hes).before fun _ => hreport fun _ => rfl

lemma puts_callFunction : (callFunction e func x (pending es) spread).Puts (exprsBodies es) := by
  have hrefuse {p span} (hp : p.fault != .duplicateDecl) :
      (refuseCall p span x (pending es)).Puts (exprsBodies es) :=
    (puts_quiet (.report hp)).bind fun _ => (puts_useAll hes).give _
  refine (puts_quiet .entities).bind fun s => ?_
  split
  · exact hrefuse rfl
  · split
    · exact hrefuse rfl
    · exact (puts_values hes).before fun r => Puts.before (puts_nil (.of_always fun _ _ hd =>
        Regime.arguments acts_regime hd fun _ _ => ⟨⟨fun _ _ => trivial, fun _ => trivial⟩, trivial⟩))
        fun _ => (puts_quiet .entities).give _

lemma puts_call (hf : eval.Puts bs) :
    (call e ⟨func, eval⟩ (pending es) spread).Puts (bs ++ exprsBodies es) := by
  have hfunc : (valueOrType eval).Puts bs :=
    hf.op rfl fun r => .of_always fun _ => Regime.valueOrType acts_regime (always_pure r)
  refine hfunc.bind fun x => ?_
  dsimp only
  split
  · exact (puts_useAll hes).give _
  · exact (puts_conversionCall hes).give _
  · exact (puts_callFunction hes).give _

end

lemma puts_indexInto (hb : eval.Puts bs) (hi : e.eval.Puts e.bodies) :
    (indexInto eval ⟨e, e.eval⟩).Puts (bs ++ e.bodies) := by
  have huse : (useAll [⟨e, e.eval⟩]).Puts e.bodies := by
    simpa [exprsBodies, pending] using puts_useAll (forall_mem_singleton.mpr hi)
  refine hb.value.bind fun x => ?_
  split
  · exact huse.give _
  · refine (puts_quiet .entities).bind fun s => ?_
    split
    · exact .give (hi.op (g := (checkIndex · _)) rfl fun r => .of_always fun _ _ hd =>
        Regime.checkIndex acts_regime (always_pure r) hd) _
    · exact hi.value.before fun y => .give (puts_nil (.of_always fun _ _ hd =>
        (Regime.assignment acts_regime hd ⟨⟨fun _ _ => trivial, fun _ => trivial⟩, trivial⟩
          fun _ _ => trivial).discard)) _
    · exact (puts_quiet (.report rfl)).bind fun _ => huse.give _

mutual

theorem puts_eval (e : Expr) : e.eval.Puts e.bodies := by
  cases e with rw [Expr.eval, Expr.bodies]
  | ident n i =>
    exact .observe (.give (puts_nil (.of_always fun _ _ => Regime.name acts_regime)) _)
  | lit n kind raw =>
    exact .observe (.give (puts_nil (.of_always fun _ _ hd => Regime.literal acts_regime hd)) _)
  | funcLit n sig body =>
    exact .observe (.give (Puts.bind (puts_quiet (.resolveSig sig)) fun _ =>
      Puts.give (fun _ => by simp [defer, step]) _) _)
  | paren n inner => exact (puts_eval inner).observe
  | selector n base sel =>
    exact .observe (.give ((puts_eval base).op (g := (select · sel)) rfl fun r =>
      .of_always fun _ => Regime.select acts_regime (always_pure r)) _)
  | index n base index => exact .observe (.give (puts_indexInto (puts_eval base) (puts_eval index)) _)
  | call n func args spread => exact .observe (puts_call (puts_evals args) (puts_eval func))
  | assert n base type =>
    exact .observe (.give ((puts_eval base).op (g := (assertType _ · type)) rfl fun r =>
      .of_always fun _ => Regime.assertType acts_regime (always_pure r) type.collects_false) _)
  | unary n op operand =>
    exact .observe (.give ((puts_eval operand).op (g := (unary _ op)) (by cases op <;> rfl)
      fun r => .of_always fun _ => Regime.unary acts_regime (always_pure r)) _)
  | receive n channel =>
    exact .observe (.give ((puts_eval channel).op (g := receive) rfl fun r =>
      .of_always fun _ => Regime.receive acts_regime (always_pure r)) _)

theorem puts_evals (es : List Expr) : ∀ e ∈ es, e.eval.Puts e.bodies := by
  cases es with
  | nil => simp
  | cons e es => exact forall_mem_cons.mpr ⟨puts_eval e, puts_evals es⟩

end

/-- The bodies are put off in the order in which they are written. -/
lemma putOff_eval (e : Expr) (c : Checker) : ∃ ds : List Deferred, ds.map (·.body) = e.bodies ∧
    (e.eval.1 c).2.deferred = c.deferred ++ ds ∧
    (e.eval.1 c).2.milestones = c.milestones ++ ds.map .putOff := by
  have hacts : e.eval.Evaluates ⟨⟨0, 0⟩, e.literalDepth, fun _ => True⟩ :=
    .of_always fun _ => Regime.Evaluates.eval acts_evaluates e le_rfl
  obtain ⟨ds, hds, hmiles⟩ := (hacts c (past_zero _)).milestones_eq
  refine ⟨ds, ?_, hds, hmiles⟩
  have hbodies := puts_eval e c
  rw [hds, map_append] at hbodies
  exact append_cancel_left hbodies

end

section

variable {body : Block}

lemma completes_bodyIn (hc : c.deferred = []) :
    c.Completes (.stmts body.stmts) ((bodyIn sig scope body).1 c).2 := by
  have hrun := checksBodies_checkLiteral ⟨0, 0⟩ (blockDepth body)
  obtain ⟨d, e, f, hopen, hcourse, hclose, hend⟩ := course_functionBody hrun "<function>"
    { sig, scope, body } le_rfl (past_zero c.store)
  obtain ⟨l, hl, htrace⟩ := hcourse.trace
  have hdeferred : f.deferred = c.deferred :=
    hclose.deferred_eq.trans (hcourse.deferred_eq.trans hopen.deferred_eq)
  have hlength : f.deferred.length = 0 := by rw [hdeferred, hc, length_nil]
  have hdone : ((bodyIn sig scope body).1 c).2 = { f with context := c.context } := by
    rw [bodyIn, bind_run, hend, runDeferred_of_length_eq (c := { f with context := c.context }) hlength]
  have hmiles : f.milestones = c.milestones ++ l := by
    rw [hclose.milestones_eq, hl, ← hopen.milestones_eq]
    rfl
  rw [hdone]
  exact ⟨rfl, hdeferred, l, hmiles, htrace, htrace.perm⟩

lemma completes_function {sig : FuncSig} (hc : c.deferred = []) :
    c.Completes (.stmts body.stmts) ((function sig body).1 c).2 := by
  rw [function, current_bind_run, bind_run, within_run]
  have hsig := IsQuiet.resolveSig sig { c with context := { c.context with scope := some c.packageScope } }
    fun _ _ => trivial
  generalize (resolveSig sig).1 { c with context := { c.context with scope := some c.packageScope } } =
    made at hsig
  obtain ⟨⟨t, scope⟩, d⟩ := made
  have hd := hsig.deferred_eq
  have hbody : { d with context := c.context }.Completes (.stmts body.stmts)
      ((bodyIn t scope body).1 { d with context := c.context }).2 := completes_bodyIn (hd.trans hc)
  exact hbody.of_eq rfl hd hsig.milestones_eq

/-- Without a signature there is nothing to check a body against. -/
lemma completes_bodyOf (hc : c.deferred = []) :
    c.Completes (.stmts (if (c.store.type sig).signature?.isSome then body.stmts else []))
      ((bodyOf sig body).1 c).2 := by
  rw [bodyOf, current_bind_run, bind_run, newScope_run, entities_bind_run]
  have htype : (Build.newScope (some c.packageScope) body.span.start body.span.stop "function" true
      c.store).2.type sig = c.store.type sig := by simp [Store.type]
  generalize Build.newScope (some c.packageScope) body.span.start body.span.stop "function" true
    c.store = made at htype ⊢
  obtain ⟨x, s⟩ := made
  dsimp only at htype ⊢
  rw [htype]
  cases (c.store.type sig).signature? with
  | none => exact ⟨rfl, rfl, [], by simp [milestones, report, emit, step], .nil, .refl _⟩
  | some g =>
    let params : Pass Unit := (s.tupleVars g.params ++ s.tupleVars g.results).forM fun v => do
      unless (s.object v).name.isEmpty do declare x none v body.span.start
    have hparams : { c with store := s }.QuietSteps (fun _ => True) (params.1 { c with store := s }).2 :=
      IsQuiet.forM (fun v _ => IsQuiet.ite (IsQuiet.pure _) (IsQuiet.declare trivial)) _
        fun _ _ => trivial
    have hbody : (params.1 { c with store := s }).2.Completes (.stmts body.stmts)
        ((bodyIn sig x body).1 (params.1 { c with store := s }).2).2 :=
      completes_bodyIn (hparams.deferred_eq.trans hc)
    exact hbody.of_eq hparams.context_eq hparams.deferred_eq hparams.milestones_eq

lemma completes_block : c.Completes (.stmts body.stmts) ((block body).1 c).2 := by
  have hrun := checksBodies_checkLiteral ⟨0, 0⟩ (blockDepth body)
  obtain ⟨x, d, e, hopen, -, -, hcourse, hend⟩ := course_enterBlock body (past_zero c.store)
    fun d hd => course_checkStmts body.stmts hrun (le_of_eq (blockDepth_eq body).symm) hd
  obtain ⟨l, hl, htrace⟩ := hcourse.trace
  have hdeferred : e.deferred = c.deferred := hcourse.deferred_eq.trans hopen.deferred_eq
  have hdone : ((block body).1 c).2 = { e with context := c.context } := by
    rw [block, deferredCount, bind_assoc, current_bind_run, pure_bind, bind_run, hend,
      runDeferred_of_length_eq (c := { e with context := c.context }) (congrArg List.length hdeferred)]
  have hmiles : e.milestones = c.milestones ++ l := by
    rw [hl, ← hopen.milestones_eq]
    rfl
  rw [hdone]
  exact ⟨rfl, hdeferred, l, hmiles, htrace, htrace.perm⟩

end

end Pass

lemma Request.deferred_eq_nil (r : Request) (hc : c.deferred = []) :
    (r.answer c).deferred = [] := by
  have hdeclare o d : ((Pass.declareInPackage o).1 d).2.deferred = d.deferred := by
    have hquiet : (Pass.declareInPackage o).IsQuiet fun _ => True :=
      .bind .current fun _ => .declare trivial
    exact (hquiet d fun _ _ => trivial).deferred_eq
  cases r with
  | declareVar name t | declareConst name t v | declareType o | declareFunc name sig =>
    exact (hdeclare _ _).trans hc
  | checkFunc sig body => exact (Pass.completes_function hc).deferred.trans hc
  | checkFuncBody sig body => exact (Pass.completes_bodyOf hc).deferred.trans hc
  | checkBlock body => exact Pass.completes_block.deferred.trans hc

lemma Session.deferred_eq_nil (h : Session host taken c) : c.deferred = [] := by
  induction h with
  | start => rfl
  | change _ _ ih => exact ih
  | move _ _ ih => exact ih
  | take _ ih => exact ih
  | ask _ _ ih => exact Request.deferred_eq_nil _ ih

namespace Check

open Pass

/-- `func() { func() { func() {} }() }()`: literals in literals. -/
def nestedLiterals : Block where
  stmts := [.expr ⟨2, 38⟩ (.call ⟨0, ⟨2, 38⟩⟩ (.funcLit ⟨1, ⟨2, 36⟩⟩ ⟨[], [], false, ⟨2, 8⟩⟩
    ⟨[.expr ⟨11, 34⟩ (.call ⟨2, ⟨11, 34⟩⟩ (.funcLit ⟨3, ⟨11, 32⟩⟩ ⟨[], [], false, ⟨11, 17⟩⟩
      ⟨[.expr ⟨20, 29⟩ (.funcLit ⟨4, ⟨20, 29⟩⟩ ⟨[], [], false, ⟨20, 26⟩⟩ ⟨[], ⟨27, 29⟩⟩)],
        ⟨18, 32⟩⟩) [] false)], ⟨9, 36⟩⟩) [] false)]
  span := ⟨0, 40⟩

end Check

end GoCheck
