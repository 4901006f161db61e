import GoCheck.Proofs.Regular.Statements

/-!
# The settings do not matter

A run with fewer settings is the same run with more of them, less the lines of the trace and the
reports of unused variables: every step of a check commutes with leaving these out.
-/

namespace GoCheck

open Checker Problem

variable {α : Type} {k : Config} {m : Pass α} {c : Checker} {l : List α}

/-- Settings that ask for nothing which others do not ask for. -/
structure Config.Within (k l : Config) : Prop where
  trace : k.trace = true → l.trace = true
  reportUnused : k.reportUnused = true → l.reportUnused = true

/-- Whether an entry of the log is made under these settings. -/
def Config.logs (k : Config) (e : Event) : Bool := k.trace || !e.isTrace

/-- Whether a report is made under these settings. -/
def Config.reports (k : Config) (d : Diagnostic) : Bool := k.reportUnused || !d.isOf .unusedVar

/-- The state as it is with fewer settings. -/
def Checker.under (k : Config) (c : Checker) : Checker :=
  { c with
    config := k
    indent := if k.trace then c.indent else 0
    log := c.log.filter k.logs
    sink := ⟨c.sink.reports.filter k.reports⟩ }

lemma Checker.under_alike (k : Config) (c : Checker) : (c.under k).Alike c := ⟨rfl, rfl, rfl, rfl⟩

lemma Checker.Steps.config_eq (h : c.Steps d) : d.config = c.config := by
  induction h with
  | refl => rfl
  | tail _ last ih =>
    rw [← ih]
    cases last <;> rfl

namespace Pass

variable {f : α → Pass β}

/-- A pass that does with fewer settings what it does with more. -/
def Indifferent (k : Config) (m : Pass α) : Prop :=
  ∀ c, k.Within c.config → m.1 (c.under k) = ((m.1 c).1, (m.1 c).2.under k)

lemma Indifferent.pure (a : α) : (pure a : Pass α).Indifferent k := fun _ _ => rfl

lemma Indifferent.bind (hm : m.Indifferent k) (hf : ∀ a, (f a).Indifferent k) :
    (m >>= f).Indifferent k := by
  intro c hc
  have hconfig : k.Within (m.1 c).2.config := by rwa [(m.2 c).config_eq]
  rw [bind_run, hm c hc, hf _ _ hconfig, bind_run]

lemma Indifferent.read {f : Checker → Pass α} (halike : ∀ c d, c.Alike d → f c = f d)
    (hf : ∀ c, (f c).Indifferent k) : (current >>= f).Indifferent k := by
  intro c hc
  rw [current_bind_run, current_bind_run, halike _ _ (c.under_alike k)]
  exact hf c c hc

lemma Indifferent.forM {g : α → Pass PUnit} (h : ∀ a, (g a).Indifferent k) :
    (l.forM g).Indifferent k := by
  induction l with
  | nil => exact .pure _
  | cons a l ih => exact (h a).bind fun _ => ih

lemma Indifferent.runDeferred {run : Deferred → Pass Unit} (h : ∀ d, (run d).Indifferent k)
    (top : Nat) : (runDeferred run top).Indifferent k := by
  apply Indifferent.read
  · intro c d halike
    rw [halike.deferred]
  · intro c
    have hdrop : (dropDeferred top).Indifferent k := fun _ _ => rfl
    exact .bind (.forM h) fun _ => hdrop

lemma Indifferent.emit (h : k.reports d) : (emit d).Indifferent k := by
  intro c _
  simp [Pass.emit, step, under, Sink.emit, h]

lemma Indifferent.logEvent (h : k.logs e) : (logEvent e).Indifferent k := by
  intro c _
  simp [Pass.logEvent, step, under, h]

/-- A pass that a setting turns on: where it is off it would leave nothing behind. -/
lemma Indifferent.setting {on : Config → Bool} {g : Checker → Pass Unit}
    (hwithin : ∀ l, k.Within l → on k → on l)
    (hon : on k → ∀ c, k.Within c.config →
      (g (c.under k)).1 (c.under k) = ((), ((g c).1 c).2.under k))
    (hoff : on k = false → ∀ c, ((g c).1 c).2.under k = c.under k) :
    (current >>= fun c => if on c.config then g c else Pure.pure ()).Indifferent k := by
  intro c hc
  rw [current_bind_run, current_bind_run]
  by_cases hk : on k
  · have hunder : on (c.under k).config := hk
    rw [if_pos hunder, if_pos (hwithin c.config hc hk)]
    exact hon hk c hc
  · have hunder : ¬ on (c.under k).config := hk
    rw [if_neg hunder]
    by_cases hset : on c.config
    · -- the pass is made on one side only, and what it leaves is left out
      rw [if_pos hset]
      exact Prod.ext rfl (hoff (by simpa using hk) c).symm
    · rw [if_neg hset]
      rfl

lemma Indifferent.traceLine (line : Store → String) : (traceLine line).Indifferent k := by
  apply Indifferent.setting (fun _ h => h.trace)
  · intro hk c hc
    have hindent : (c.under k).indent = c.indent := if_pos hk
    rw [hindent]
    exact Indifferent.logEvent (by simp [Config.logs, hk]) c hc
  · intro hk c
    simp [Pass.logEvent, step, under, Config.logs, Event.isTrace, hk]

lemma Indifferent.setIndent (next : Nat → Nat) : (current >>= fun c =>
    if c.config.trace then setIndent (next c.indent) else Pure.pure ()).Indifferent k := by
  apply Indifferent.setting (fun _ h => h.trace)
  · intro hk c _
    simp [Pass.setIndent, step, under, hk]
  · intro hk c
    simp [Pass.setIndent, step, under, hk]

/-- Reports that the settings turn off leave nothing behind. -/
lemma forM_emit_under {g : α → Diagnostic} (h : ∀ a, k.reports (g a) = false)
    (c : Checker) : ((l.forM fun a => emit (g a)).1 c).2.under k = c.under k := by
  induction l generalizing c with
  | nil => rfl
  | cons a l ih =>
    have hrun : ((a :: l).forM fun a => emit (g a)).1 c =
        (l.forM fun a => emit (g a)).1 { c with sink := c.sink.emit (g a) } := rfl
    rw [hrun, ih]
    simp [under, Sink.emit, h a]

lemma reports_unusedVariable (name : String) (span : Span) :
    k.reports ((unusedVariable name).report span) = k.reportUnused := by
  simp [Config.reports, isOf_report, fault]

lemma Indifferent.checkUsage (scope : ScopeId) : (checkUsage scope).Indifferent k := by
  apply Indifferent.setting (fun _ h => h.reportUnused)
  · intro hk c hc
    refine Indifferent.forM (fun o => ?_) c hc
    exact Indifferent.emit (by rw [reports_unusedVariable, hk])
  · intro hk c
    exact forM_emit_under (fun o => by rw [reports_unusedVariable, hk]) c

end Pass

open Pass

/-- Regular passes do with fewer settings what they do with more. -/
lemma Regular.indifferent {counts : Bool} (h : Regular counts is m) : m.Indifferent k := by
  induction h with
  | pure a => exact .pure a
  | bind _ _ ihm ihf => exact ihm.bind ihf
  | weaken _ _ ih => exact ih
  | read halike _ ih => exact .read halike ih
  | build b h | store f h | info f h | move context | note h | defer d => exact fun _ _ => rfl
  | emit hplain => exact .emit (by simp [Config.reports, hplain.unused])
  | undefined i => exact .emit (by simp [Config.reports, isOf_report, fault])
  | usage scope => exact .checkUsage scope
  | traceLine line => exact .traceLine line
  | indentTrace => exact .setIndent (· + 1)
  | unindentTrace => exact .setIndent (· - 1)
  | log hno => exact .logEvent (by simp [Config.logs, hno])
  | settle _ _ _ ihrun ihm ihf =>
    have hcount : deferredCount.Indifferent k := fun _ _ => rfl
    exact hcount.bind fun top => ihm.bind fun a =>
      .bind (.runDeferred ihrun top) fun _ => ihf a

lemma Regular.declareInPackage (o : ObjectId) : Regular true [] (declareInPackage o) :=
  .reading (fun _ _ => rfl) fun _ => Regular.declare

lemma Regular.declareNew
    (h : ∀ package, Regular true [] (new package)) : Regular true [] (declareNew new) :=
  .reading (fun _ _ => rfl) fun _ =>
    (h _).before fun o => .before (.declareInPackage o) fun _ => .pure _

lemma Indifferent.checkLiteral (d : Deferred) : (checkLiteral d).Indifferent k :=
  (Regular.checkLiteral d).indifferent

lemma Indifferent.bodyIn (sig : TypeId) (scope : ScopeId) (body : Block) :
    (bodyIn sig scope body).Indifferent k := by
  have hbody := Regular.functionBody Regular.checkLiteral "<function>" ⟨sig, scope, body⟩
  exact hbody.indifferent.bind fun _ => Indifferent.runDeferred Indifferent.checkLiteral 0

lemma Indifferent.bodyOf (sig : TypeId) (body : Block) : (bodyOf sig body).Indifferent k := by
  apply Indifferent.read
  · intro c d h
    rw [packageScope, packageScope, h.store, h.package]
  · intro c
    have hscope : Regular true [] (newScope (some c.packageScope) body.span "function" true) :=
      .newScope
    refine hscope.indifferent.bind fun scope => ?_
    have hentities : entities.Indifferent k := fun _ _ => rfl
    refine hentities.bind fun s => ?_
    cases (s.type sig).signature? with
    | none => exact (Regular.report rfl : Regular true [] _).indifferent
    | some g =>
      have hdeclare v : Regular true [] (if (s.object v).name.isEmpty then Pure.pure () else
          declare scope none v body.span.start) := .ite (.pure _) .declare
      exact (Indifferent.forM fun v => (hdeclare v).indifferent).bind fun _ =>
        Indifferent.bodyIn sig scope body

lemma Indifferent.function (sig : FuncSig) (body : Block) : (function sig body).Indifferent k := by
  apply Indifferent.read
  · intro c d h
    rw [packageScope, packageScope, h.store, h.package, h.context]
  · intro c
    have hsig : Regular true _ (within { c.context with scope := some c.packageScope }
      (resolveSig sig)) := .within (.resolveSig sig)
    exact hsig.indifferent.bind fun r => (Indifferent.bodyIn r.1 r.2 body).bind fun _ =>
      .pure _

lemma Indifferent.block (body : Block) : (block body).Indifferent k := by
  have hcount : deferredCount.Indifferent k := fun _ _ => rfl
  have hblock := Regular.enterBlock Regular.checkLiteral body
  exact hcount.bind fun top => hblock.indifferent.bind fun _ =>
    Indifferent.runDeferred Indifferent.checkLiteral top

lemma Pass.Indifferent.answer (hm : m.Indifferent k)
    (hc : k.Within c.config) : (m.run (c.under k)).2 = (m.run c).2.under k :=
  congrArg Prod.snd (hm c hc)

lemma Request.answer_under (r : Request) (hc : k.Within c.config) :
    r.answer (c.under k) = (r.answer c).under k := by
  cases r with
  | declareVar name t => exact (Regular.declareNew fun _ => .newParam).indifferent.answer hc
  | declareConst name t v => exact (Regular.declareNew fun _ => .newConst).indifferent.answer hc
  | declareType o => exact (Regular.declareInPackage o).indifferent.answer hc
  | declareFunc name sig => exact (Regular.declareNew fun _ => .newFunc).indifferent.answer hc
  | checkFunc sig body => exact (Indifferent.function sig body).answer hc
  | checkFuncBody sig body => exact (Indifferent.bodyOf sig body).answer hc
  | checkBlock body => exact (Indifferent.block body).answer hc

/-- A turn of a session. The changes that a host makes to the entities may depend on them. -/
inductive Turn where
  | change (edit : Store → Store)
  | move (context : Context)
  | take
  | ask (r : Request)

/-- What a session has led to: the reports that the host has taken, and the state. -/
structure Played where
  taken : List Diagnostic
  state : Checker

/-- One turn. -/
def Turn.play (p : Played) : Turn → Played
  | change edit => { p with state := { p.state with store := edit p.state.store } }
  | move context => { p with state := { p.state with context } }
  | take => ⟨p.taken ++ p.state.sink.reports.toList, { p.state with sink := {} }⟩
  | ask r => { p with state := r.answer p.state }

/-- A session, turn by turn. -/
def play (config : Config) (turns : List Turn) : Played := turns.foldl Turn.play ⟨[], .start config⟩

/-- Every session is a sequence of turns. -/
lemma Session.exists_turns
    (h : Session host taken c) : ∃ config turns, play config turns = ⟨taken, c⟩ := by
  have hlast (turn : Turn) p (h : ∃ config turns, play config turns = p) :
      ∃ config turns, play config turns = turn.play p := by
    obtain ⟨config, turns, rfl⟩ := h
    exact ⟨config, turns ++ [turn], by simp [play]⟩
  induction h with
  | start config => exact ⟨config, [], rfl⟩
  | @change taken c s _ _ ih => exact hlast (.change fun _ => s) _ ih
  | move context _ ih => exact hlast (.move context) _ ih
  | take _ ih => exact hlast .take _ ih
  | @ask taken c r _ _ ih => exact hlast (.ask r) _ ih

/-- What a session has led to, as it is with fewer settings. -/
def Played.under (k : Config) (p : Played) : Played := ⟨p.taken.filter k.reports, p.state.under k⟩

lemma Turn.config_play (t : Turn) (p : Played) : (t.play p).state.config = p.state.config := by
  cases t with
  | ask r => exact (r.steps p.state).config_eq
  | _ => rfl

lemma Turn.play_under (t : Turn) (hp : k.Within p.state.config) :
    t.play (p.under k) = (t.play p).under k := by
  cases t with
  | change edit => rfl
  | move context => rfl
  | take => simp [Turn.play, Played.under, under]
  | ask r => simp [Turn.play, Played.under, r.answer_under hp]

lemma play_within {l : Config} (h : k.Within l) (turns : List Turn) :
    play k turns = (play l turns).under k := by
  have hrun : ∀ p, k.Within p.state.config →
      turns.foldl Turn.play (p.under k) = (turns.foldl Turn.play p).under k := by
    induction turns with
    | nil => exact fun _ _ => rfl
    | cons t turns ih =>
      intro p hp
      rw [List.foldl_cons, List.foldl_cons, t.play_under hp]
      exact ih _ (by rwa [t.config_play])
  have hstart : (⟨[], .start k⟩ : Played) = Played.under k ⟨[], .start l⟩ := by
    simp [Played.under, under, start]
  rw [play, hstart]
  exact hrun _ h

lemma Config.Within.refl (k : Config) : k.Within k := ⟨id, id⟩

lemma play_self (k : Config) (turns : List Turn) : (play k turns).under k = play k turns :=
  (play_within (.refl k) turns).symm

lemma Config.logs_of_trace_eq_false (h : k.trace = false) : k.logs = fun e => !e.isTrace := by
  funext e
  simp [Config.logs, h]

lemma Config.reports_of_reportUnused_eq_false (h : k.reportUnused = false) :
    k.reports = fun d => !d.isOf .unusedVar := by
  funext d
  simp [Config.reports, h]

/-- The settings do not influence the verdict of a session. Without a trace only the depth and the
lines of the trace are gone; without the reports of unused variables only these reports are. -/
theorem play_independent_of_settings (turns : List Turn) : (∀ unused : Bool,
      let on := play ⟨true, unused⟩ turns
      let off := play ⟨false, unused⟩ turns
      off.taken = on.taken ∧
        off.state = { on.state with
          config := ⟨false, unused⟩
          indent := 0
          log := on.state.log.filter (!·.isTrace) }) ∧
    (∀ trace : Bool,
      let on := play ⟨trace, true⟩ turns
      let off := play ⟨trace, false⟩ turns
      off.taken = on.taken.filter (!·.isOf .unusedVar) ∧
        off.state = { on.state with
          config := ⟨trace, false⟩
          sink := ⟨on.state.sink.reports.filter (!·.isOf .unusedVar)⟩ }) := by
  constructor
  · intro unused on off
    have hwithin : Config.Within ⟨false, unused⟩ ⟨true, unused⟩ := ⟨fun _ => rfl, id⟩
    have hoff : off = on.under ⟨false, unused⟩ := play_within hwithin turns
    -- the run with a trace has no reports that these settings turn off
    have hself : on.under ⟨true, unused⟩ = on := play_self _ turns
    have htaken : on.taken.filter (Config.reports ⟨false, unused⟩) = on.taken :=
      congrArg Played.taken hself
    have hsink : (⟨on.state.sink.reports.filter (Config.reports ⟨false, unused⟩)⟩ : Sink) =
        on.state.sink := congrArg (·.state.sink) hself
    have hlogs : Config.logs ⟨false, unused⟩ = fun e => !e.isTrace :=
      Config.logs_of_trace_eq_false rfl
    rw [hoff]
    refine ⟨htaken, ?_⟩
    simp only [Played.under, under, hsink, hlogs]
    rfl
  · intro trace on off
    have hwithin : Config.Within ⟨trace, false⟩ ⟨trace, true⟩ := ⟨id, fun _ => rfl⟩
    have hoff : off = on.under ⟨trace, false⟩ := play_within hwithin turns
    have hself : on.under ⟨trace, true⟩ = on := play_self _ turns
    have hindent : (if trace then on.state.indent else 0) = on.state.indent :=
      congrArg (·.state.indent) hself
    have hlog : on.state.log.filter (Config.logs ⟨trace, false⟩) = on.state.log :=
      congrArg (·.state.log) hself
    have hreports : Config.reports ⟨trace, false⟩ = fun d => !d.isOf .unusedVar :=
      Config.reports_of_reportUnused_eq_false rfl
    rw [hoff]
    simp only [Played.under, under, hindent, hlog, hreports, and_self]

end GoCheck
