import GoCheck.Proofs.Visibility.Scopes

/-!
# What a short declaration sees and binds

A short declaration binds its names last, after its expressions have been evaluated and all function
literals in them have been checked. It binds those on its left that are neither blank nor bound in
the scope, each once, so none of them is refused.
-/

namespace GoCheck

open List Checker Pass

variable {name : String} {seen : List String} {vs : List ObjectId}

namespace Scope

variable {sc sc' : Scope} {seen : List String} {e : Expr} {i : Ident}

/-- A name that a declaration would bind. -/
def isFree (sc : Scope) (name : String) : Bool := name ≠ "_" && (sc.find? name).isNone

/-- The names that a short declaration declares: on its left, not blank, not bound, each once. -/
def newNames (sc : Scope) (lhs : List Expr) : List String :=
  ((lhs.filterMap (·.ident?)).map (·.text)).eraseDups.filter sc.isFree

/-- Those of these names that have not been seen. -/
def newNamesAfter (sc : Scope) (seen : List String) (lhs : List Expr) : List String :=
  (((lhs.filterMap (·.ident?)).map (·.text)).filter (!seen.contains ·)).eraseDups.filter sc.isFree

lemma newNamesAfter_nil (sc : Scope) (lhs : List Expr) :
    sc.newNamesAfter [] lhs = sc.newNames lhs := by
  have hall (names : List String) : names.filter (!([] : List String).contains ·) = names :=
    filter_eq_self.mpr (by simp)
  rw [newNamesAfter, hall, newNames]

lemma nodup_eraseDups (names : List String) : names.eraseDups.Nodup := by
  cases names with
  | nil => exact .nil
  | cons name names =>
    rw [eraseDups_cons, nodup_cons]
    exact ⟨by simp, nodup_eraseDups (names.filter fun other => !other == name)⟩
termination_by names.length
decreasing_by exact Nat.lt_succ_of_le (length_filter_le ..)

lemma nodup_newNames (sc : Scope) (lhs : List Expr) : (sc.newNames lhs).Nodup :=
  (nodup_eraseDups _).filter _

lemma isFree_of_mem_newNames (h : name ∈ sc.newNames es) : sc.isFree name :=
  (mem_filter.mp h).2

lemma isFree_of_bindings_eq {name other : String}
    (h : sc'.bindings = sc.bindings ++ [(other, o)]) (hne : name ≠ other)
    (hfree : sc.isFree name) : sc'.isFree name := by
  simp only [isFree, find?, h, lookup_append, lookup_cons, Bool.and_eq_true,
    Option.isNone_iff_eq_none] at hfree ⊢
  simp [hfree.1, hfree.2, beq_eq_false_iff_ne.mpr hne]

lemma isFree_congr (h : sc'.bindings = sc.bindings) : sc'.isFree = sc.isFree := by
  funext name
  simp only [isFree, find?, h]

lemma newNamesAfter_congr (h : sc'.bindings = sc.bindings) :
    sc'.newNamesAfter seen es = sc.newNamesAfter seen es := by
  rw [newNamesAfter, newNamesAfter, isFree_congr h]

lemma newNamesAfter_cons_of_none (h : e.ident? = none) :
    sc.newNamesAfter seen (e :: es) = sc.newNamesAfter seen es := by
  simp [newNamesAfter, h]

lemma newNamesAfter_cons_of_mem (h : e.ident? = some i) (hi : i.text ∈ seen) :
    sc.newNamesAfter seen (e :: es) = sc.newNamesAfter seen es := by
  simp [newNamesAfter, h, hi]

lemma newNamesAfter_cons_of_not_mem (h : e.ident? = some i) (hi : i.text ∉ seen) :
    sc.newNamesAfter seen (e :: es) =
      (if sc.isFree i.text then [i.text] else []) ++ sc.newNamesAfter (i.text :: seen) es := by
  have hfilter (names : List String) :
      (names.filter (!seen.contains ·)).filter (fun name => !name == i.text) =
        names.filter (!(i.text :: seen).contains ·) := by
    rw [filter_filter]
    exact filter_congr fun name _ => by simp only [contains_cons, Bool.not_or]
  simp only [newNamesAfter, filterMap_cons, h, map_cons]
  rw [filter_cons_of_pos (by simp [hi]), eraseDups_cons, hfilter, filter_cons]
  split <;> simp

lemma newNamesAfter_cons_seen (h : name ∈ seen) :
    sc.newNamesAfter (name :: seen) es = sc.newNamesAfter seen es := by
  have hfilter (names : List String) :
      names.filter (!(name :: seen).contains ·) = names.filter (!seen.contains ·) := by
    refine filter_congr fun other _ => ?_
    by_cases heq : other = name <;> simp [heq, h]
  rw [newNamesAfter, newNamesAfter, hfilter]

lemma newNamesAfter_cons_of_not_free (h : e.ident? = some i) (hi : sc.isFree i.text = false) :
    sc.newNamesAfter seen (e :: es) = sc.newNamesAfter (i.text :: seen) es := by
  by_cases hmem : i.text ∈ seen
  · rw [newNamesAfter_cons_of_mem h hmem, newNamesAfter_cons_seen hmem]
  · rw [newNamesAfter_cons_of_not_mem h hmem, hi]
    rfl

end Scope

namespace Pass

variable {c d : Checker} {x : ScopeId} {e : Expr} {i : Ident} {s : Store}

lemma shortName_of_taken (h : (c.store.scope x).find? i.text = some other)
    (o : ObjectId) : ((shortName x e i).1 c).1 ≠ .fresh o := by
  rw [shortName, current_bind_run, h]
  rw [bind_run]
  by_cases hvar : (c.store.object other).isVar
  · rw [if_pos hvar]
    nofun
  · rw [if_neg hvar]
    nofun

lemma shortName_of_free (h : (c.store.scope x).find? i.text = none) :
    ((shortName x e i).1 c).1 = .fresh ⟨c.store.objects.size⟩ ∧ ((shortName x e i).1 c).2.store =
        (Build.newVar i.span (some c.package) i.text none c.store).2 := by
  rw [shortName, current_bind_run, h]
  exact ⟨rfl, rfl⟩

lemma identity_shortName (h : (c.store.scope x).find? i.text = none) :
    (((shortName x e i).1 c).2.store.object ⟨c.store.objects.size⟩).identity = (i.text, true) ∧
      c.store.objects.size < ((shortName x e i).1 c).2.store.objects.size := by
  rw [(shortName_of_free h).2]
  exact ⟨congrArg Object.identity ((Store.object_newObject ..).trans (if_pos rfl)),
    by simp [Build.newVar, Build.newObject]⟩

lemma shortTargets_of_name (hi : e.ident? = some i)
    (hnew : ¬(i.text ≠ "_" && seen.contains i.text)) :
    (shortTargets x seen (e :: es)).1 c =
      (((shortName x e i).1 c).1 ::
          ((shortTargets x (i.text :: seen) es).1 ((shortName x e i).1 c).2).1,
        ((shortTargets x (i.text :: seen) es).1 ((shortName x e i).1 c).2).2) := by
  rw [shortTargets, hi]
  dsimp only
  rw [if_neg hnew]
  rfl

lemma newVars_cons_of_ne (h : ∀ o, t ≠ .fresh o) : newVars s (t :: ts) = newVars s ts := by
  cases t with
  | fresh o => exact absurd rfl (h o)
  | existing o => rfl
  | wrong => rfl

lemma newVars_cons_fresh : newVars s (.fresh o :: ts) =
      if (s.object o).isBlank then newVars s ts else o :: newVars s ts := by
  cases h : (s.object o).isBlank <;> simp [newVars, h]

/-- The variables that a short declaration binds are made for the new names, in order. -/
lemma madeWithin_shortTargets
    (hx : x.index < c.store.scopes.size) (hd : ((shortTargets x seen lhs).1 c).2.Steps d) :
    c.MadeWithin d true ((c.store.scope x).newNamesAfter seen lhs)
      (newVars d.store ((shortTargets x seen lhs).1 c).1) := by
  induction lhs generalizing seen c with
  | nil => exact .nil c d true
  | cons e es ih =>
    -- Nothing is bound in the scope until all targets are there.
    have hrest {c₁ seen} {L : Limits} (hacts : c.Acts L c₁)
        (hL : ¬L.Binds x) (hd : ((shortTargets x seen es).1 c₁).2.Steps d) :
        c₁.MadeWithin d true ((c.store.scope x).newNamesAfter seen es)
          (newVars d.store ((shortTargets x seen es).1 c₁).1) := by
      have hbindings := hacts.bindings_eq hL
      rw [← Scope.newNamesAfter_congr hbindings]
      exact ih (lt_of_lt_of_le hx hacts.steps.scopes_size_le) hd
    let L : Limits := { c.frontier with depth := e.literalDepth, home := fun _ => False }
    have hL : ¬L.Binds x := fun h => h.elim (not_le.mpr hx) id
    -- Targets that are no names, or names that occur again, are passed over.
    have hwrong {m : Pass Unit} (hskip : m.Evaluates L)
        (hrun : (shortTargets x seen (e :: es)).1 c =
          (.wrong :: ((shortTargets x seen es).1 (m.1 c).2).1,
            ((shortTargets x seen es).1 (m.1 c).2).2))
        (hnames : (c.store.scope x).newNamesAfter seen (e :: es) =
          (c.store.scope x).newNamesAfter seen es) :
        c.MadeWithin d true ((c.store.scope x).newNamesAfter seen (e :: es))
          (newVars d.store ((shortTargets x seen (e :: es)).1 c).1) := by
      have hacts := hskip c c.past_frontier
      rw [hrun] at hd ⊢
      rw [newVars_cons_of_ne (t := .wrong) fun _ => nofun, hnames]
      exact (hrest hacts hL hd).earlier hacts.steps
    cases hi : e.ident? with
    | none =>
      have hskip : (useAll (pending [e]) >>= fun _ =>
          report (.nonName e.text) e.span).Evaluates L :=
        .bind (.useAll (by simp [exprsDepth, L])) fun _ =>
          .of_isQuiet (.report rfl)
      refine hwrong hskip ?_ (Scope.newNamesAfter_cons_of_none hi)
      rw [shortTargets, hi]
      rfl
    | some i =>
      by_cases hagain : (i.text ≠ "_" && seen.contains i.text)
      · refine hwrong (m := report (.repeatedName i.text) e.span) (.of_isQuiet (.report rfl)) ?_
          (Scope.newNamesAfter_cons_of_mem hi (by simp_all))
        rw [shortTargets, hi]
        dsimp only
        rw [if_pos hagain]
        rfl
      · have hname : (shortName x e i).Evaluates L := .of_isQuiet .shortName
        have hacts := hname c c.past_frontier
        rw [shortTargets_of_name hi hagain] at hd ⊢
        have htail := hrest hacts hL hd
        cases hfind : (c.store.scope x).find? i.text with
        | some other =>
          rw [newVars_cons_of_ne (shortName_of_taken hfind),
            Scope.newNamesAfter_cons_of_not_free hi (by simp [Scope.isFree, hfind])]
          exact htail.earlier hacts.steps
        | none =>
          obtain ⟨hident, hsize⟩ := identity_shortName hfind
          have hsteps := (steps (shortTargets x (i.text :: seen) es) _).trans hd
          have hd' : (d.store.object ⟨c.store.objects.size⟩).name = i.text :=
            (hsteps.name_eq hsize).trans (congrArg Prod.fst hident)
          rw [(shortName_of_free hfind).1, newVars_cons_fresh]
          by_cases hblank : i.text = "_"
          · rw [if_pos (by simp [Object.isBlank, hd', hblank]),
              Scope.newNamesAfter_cons_of_not_free hi (by simp [Scope.isFree, hblank])]
            exact htail.earlier hacts.steps
          · rw [if_neg (by simp [Object.isBlank, hd', hblank]),
              Scope.newNamesAfter_cons_of_not_mem hi (by simp_all),
              if_pos (by simp [Scope.isFree, hblank, hfind])]
            exact htail.cons hident le_rfl hsize hsteps

/-- The variables that a short declaration binds once they are initialized. -/
lemma madeWithin_shortInit (lhs rhs : List Expr) (hx : x.index < c.store.scopes.size) :
    c.MadeWithin ((shortInit x lhs rhs).1 c).2 true ((c.store.scope x).newNames lhs)
      ((shortInit x lhs rhs).1 c).1.2 := by
  have hsteps := steps (targetVars ((shortTargets x [] lhs).1 c).1 lhs)
    ((shortTargets x [] lhs).1 c).2
  rw [← Scope.newNamesAfter_nil]
  exact (madeWithin_shortTargets hx hsteps).later (steps (initVars _ rhs none) _)

/-- Variables whose names are free and distinct are all bound. -/
lemma forM_declare_of_free {n : Nat} (hx : x.index < c.store.scopes.size)
    (hold : ∀ v ∈ vs, v.index < c.store.objects.size)
    (hfree : ∀ v ∈ vs, (c.store.scope x).isFree (c.store.object v).name)
    (hnodup : (vs.map fun v => (c.store.object v).name).Nodup) :
    (((vs.forM fun v => declare x none v n).1 c).2.store.scope x).bindings =
        (c.store.scope x).bindings ++ vs.map (fun v => ((c.store.object v).name, v)) ∧
      ((vs.forM fun v => declare x none v n).1 c).2.history = c.history ∧
      ((vs.forM fun v => declare x none v n).1 c).2.sink = c.sink := by
  induction vs generalizing c with
  | nil => exact ⟨(append_nil _).symm, rfl, rfl⟩
  | cons v vs ih =>
    obtain ⟨hv, hfree⟩ := forall_mem_cons.mp hfree
    obtain ⟨hvold, hold⟩ := forall_mem_cons.mp hold
    obtain ⟨hvnew, hnodup⟩ := nodup_cons.mp hnodup
    simp only [Scope.isFree, Bool.and_eq_true, decide_eq_true_eq, Option.isNone_iff_eq_none] at hv
    obtain ⟨hbindings, hhistory, hsink⟩ := declare_of_free none n hx (decide_eq_false hv.1) hv.2
    have hsteps := steps (declare x none v n) c
    have hnames w (hw : w ∈ vs) :
        (((declare x none v n).1 c).2.store.object w).name = (c.store.object w).name :=
      hsteps.name_eq (hold w hw)
    have hmap {β} (f : String → ObjectId → β) :
        (vs.map fun w => f (((declare x none v n).1 c).2.store.object w).name w) =
          vs.map fun w => f (c.store.object w).name w :=
      map_congr_left fun w hw => by rw [hnames w hw]
    have hrest := ih (lt_of_lt_of_le hx hsteps.scopes_size_le)
      (fun w hw => lt_of_lt_of_le (hold w hw) hsteps.objects_size_le) (fun w hw => ?_)
      ((hmap fun name _ => name) ▸ hnodup)
    · rw [hbindings, hmap Prod.mk, hhistory, hsink, append_assoc] at hrest
      exact hrest
    · rw [hnames w hw]
      refine Scope.isFree_of_bindings_eq hbindings (fun heq => hvnew ?_) (hfree w hw)
      exact mem_map.mpr ⟨w, hw, heq⟩

lemma declareShort_of_free (ts : List ShortTarget) (span : Span) (lhs rhs : List Expr)
    (hx : x.index < c.store.scopes.size)
    (hold : ∀ v ∈ vs, v.index < c.store.objects.size)
    (hfree : ∀ v ∈ vs, (c.store.scope x).isFree (c.store.object v).name)
    (hnodup : (vs.map fun v => (c.store.object v).name).Nodup) :
    (((declareShort x span lhs rhs ts vs).1 c).2.store.scope x).bindings =
        (c.store.scope x).bindings ++ vs.map (fun v => ((c.store.object v).name, v)) ∧
      ((declareShort x span lhs rhs ts vs).1 c).2.history = c.history ∧
      ∃ rs, ((declareShort x span lhs rhs ts vs).1 c).2.sink.reports.toList =
        c.sink.reports.toList ++ rs ∧ rs.countP (·.isRedeclaration) = 0 := by
  rw [declareShort]
  split
  · rename_i hnone
    have hvs : vs = [] := by
      simp only [Bool.and_eq_true, List.isEmpty_iff] at hnone
      exact hnone.1
    subst hvs
    refine ⟨(List.append_nil _).symm, rfl, [Problem.noNewVariables.report span], ?_, rfl⟩
    simp [report, emit, step, Sink.emit]
  · obtain ⟨hbindings, hhistory, hsink⟩ := forM_declare_of_free
      (c := { c with log := c.log.push (.shortDeclaration vs.length lhs.length) })
      (n := rhs.getLast?.elim span.stop (·.span.stop)) hx hold hfree hnodup
    exact ⟨hbindings, hhistory, [], (congrArg (·.reports.toList) hsink).trans (by simp), rfl⟩

end Pass

variable {c : Checker} {s : ScopeId}

lemma Checker.WellScoped.inside (hc : c.WellScoped) (hs : c.context.scope = some s) :
    c.Inside c.store.scopes.size c.store s where
  nested := hc.nested
  hangs _ hx hlt := absurd hlt (not_lt.mpr hx)
  here := ⟨s, hs, .inl rfl, hc.here s hs⟩
  agrees := .refl _ _
  size := le_rfl

/-- Before a short declaration binds its names, all in it is evaluated and checked in its scope. -/
lemma Pass.shortDecl_phases (span : Span) (lhs rhs : List Expr) (hc : c.WellScoped)
    (hs : c.context.scope = some s) : ∃ e ts new,
      c.Steps e ∧ e.WellScoped ∧ e.context = c.context ∧ e.deferred = c.deferred ∧
      e.Inside c.store.scopes.size c.store s ∧ c.Confined c.store.scopes.size c.store s e ∧
      c.MadeWithin e true ((c.store.scope s).newNames lhs) new ∧
      (shortDecl checkLiteral span lhs rhs).1 c = (declareShort s span lhs rhs ts new).1 e := by
  have hlt := hc.here s hs
  let L : Limits := { c.frontier with
    depth := max (exprsDepth lhs) (exprsDepth rhs), home := fun _ => False }
  have hL x (hx : L.Binds x) : c.store.scopes.size ≤ x.index := hx.elim id False.elim
  have hinit : c.Acts L ((shortInit s lhs rhs).1 c).2 :=
    Evaluates.shortInit (le_max_left ..) (le_max_right ..) c c.past_frontier
  have hmade := madeWithin_shortInit lhs rhs hlt
  obtain ⟨hd, hsees⟩ := hinit.confined hc.nested le_rfl hlt (hc.inside hs) hL
  obtain ⟨ds, e, hds, hcourse, hend⟩ := course_runDeferred
    (checksBodies_checkLiteral c.frontier L.depth) rfl (hinit.steps.past c.past_frontier) hinit
  have hready := hinit.ready (n := c.store.scopes.size) hds
  obtain ⟨he, hsees'⟩ := hcourse.confined hc.nested le_rfl hlt hd hready
  have hleft : c.deferred ⊆ e.deferred := by
    rw [hcourse.deferred_eq, hds]
    exact subset_append_left ..
  have hsteps := hend ▸ steps (runDeferred checkLiteral c.deferred.length) _
  refine ⟨{ e with deferred := c.deferred }, ((shortInit s lhs rhs).1 c).1.1,
    ((shortInit s lhs rhs).1 c).1.2, hinit.steps.trans hsteps, ?_,
    hcourse.context_eq.trans hinit.context_eq, rfl,
    ⟨⟨he.nested, he.hangs, he.here⟩, he.agrees, he.size⟩, hsees.trans hsees', hmade.later hsteps, ?_⟩
  · exact (hcourse.wellScoped (hinit.wellScoped hc) hready).dropped hleft
  · rw [shortDecl, deferredCount, bind_assoc, current_bind_run, pure_bind, current_bind_run, hs]
    rw [bind_run, bind_run, hend]

/-- A short declaration in a scope. Whatever is looked up for it, also in function literals, is
found as before from this scope, or in a scope opened since. In the end the new names are bound in
the scope, each to a new variable, and no other old scope has changed. No name has been refused in
an old scope, and each report of a name declared twice is that of a refused name. -/
theorem Check.shortDecl_binds_last (c : Checker) (s : ScopeId) (span : Span) (lhs rhs : List Expr)
    (hc : c.WellScoped) (hs : c.context.scope = some s) :
    ∃ (d : Checker) (l : List Happening) (rs : List Diagnostic) (new : List ObjectId),
      ((shortDecl checkLiteral span lhs rhs).1 c).2 = d ∧
      d.WellScoped ∧ d.context = c.context ∧ d.deferred = c.deferred ∧
      d.history.toList = c.history.toList ++ l ∧
      d.sink.reports.toList = c.sink.reports.toList ++ rs ∧
      (∀ x name found, .lookup x name found ∈ l →
        (found = c.store.resolve? s name ∨
          ∃ y o, found = some (y, o) ∧ c.store.scopes.size ≤ y.index) ∧
        (x = some s → found = c.store.resolve? s name)) ∧
      c.MadeWithin d true ((c.store.scope s).newNames lhs) new ∧
      (d.store.scope s).bindings =
        (c.store.scope s).bindings ++ new.map (fun v => ((d.store.object v).name, v)) ∧
      (∀ x : ScopeId, x.index < c.store.scopes.size → x ≠ s →
        (d.store.scope x).bindings = (c.store.scope x).bindings) ∧
      (∀ x o other, .clash x o other ∈ l → c.store.scopes.size ≤ x.index) ∧
      rs.countP (·.isRedeclaration) = l.countP (·.isClash) := by
  obtain ⟨e, ts, new, hsteps, hscoped, hcontext, hdeferred, hinside, hsees, hmade, hrun⟩ :=
    shortDecl_phases span lhs rhs hc hs
  obtain ⟨l, rs, hl, hrs, hwithin, hcount⟩ := hsees
  have hlt := hc.here s hs
  have hsame := (hinside.agrees s hlt).1
  have hnew : c.store.scopes.size ≤ e.store.scopes.size := hsteps.scopes_size_le
  -- The new names are free and distinct, so all of them are bound.
  have hfree : ∀ v ∈ new, (e.store.scope s).isFree (e.store.object v).name = true := by
    intro v hv
    rw [Scope.isFree_congr hsame]
    exact Scope.isFree_of_mem_newNames (hmade.names ▸ mem_map_of_mem hv)
  obtain ⟨hbindings, hhistory, rs', hrs', hcount'⟩ := declareShort_of_free ts span lhs
    rhs (Nat.lt_of_lt_of_le hlt hnew)
    (fun v hv => (hmade.made v hv).2) hfree (hmade.names ▸ Scope.nodup_newNames _ _)
  have hquiet : e.QuietSteps (fun x => x = s ∨ c.store.scopes.size ≤ x.index)
      ((declareShort s span lhs rhs ts new).1 e).2 :=
    IsQuiet.declareShort (.inl rfl) e fun x hx => .inr (Nat.le_trans hnew hx)
  have hmade' := hmade.later hquiet.steps
  refine ⟨_, l, rs ++ rs', new, congrArg Prod.snd hrun, hquiet.wellScoped hscoped,
    hquiet.context_eq.trans hcontext, hquiet.deferred_eq.trans hdeferred, ?_, ?_, ?_, hmade', ?_,
    fun x hx hne => ?_, ?_, ?_⟩
  · rw [hhistory, hl]
  · rw [hrs', hrs, append_assoc]
  · exact fun x name found hmem => hwithin _ hmem
  · rw [hbindings, hsame]
    congr 1
    exact map_congr_left fun v hv => by rw [hquiet.steps.name_eq (hmade.made v hv).2]
  · have hold : ¬(x = s ∨ c.store.scopes.size ≤ x.index) := not_or.mpr ⟨hne, Nat.not_le.mpr hx⟩
    exact (hquiet.bindings_eq hold).trans (hinside.agrees x hx).1
  · exact fun x o other hmem => hwithin _ hmem
  · rw [countP_append, hcount', hcount, Nat.add_zero]

/-- The left of `true, _, true := func() bool { return true }()`. -/
def shadowingTargets : List Expr :=
  [.ident ⟨0, ⟨0, 4⟩⟩ ⟨some "true", ⟨0, 4⟩⟩, .ident ⟨1, ⟨6, 7⟩⟩ ⟨some "_", ⟨6, 7⟩⟩,
    .ident ⟨2, ⟨9, 13⟩⟩ ⟨some "true", ⟨9, 13⟩⟩]

/-- The right of it. -/
def shadowingValues : List Expr :=
  [.call ⟨3, ⟨17, 46⟩⟩ (.funcLit ⟨4, ⟨17, 44⟩⟩
    ⟨[], [⟨none, .name ⟨24, 28⟩ ⟨some "bool", ⟨24, 28⟩⟩, ⟨24, 28⟩⟩], false, ⟨17, 28⟩⟩
    ⟨[.ret ⟨31, 42⟩ [.ident ⟨5, ⟨38, 42⟩⟩ ⟨some "true", ⟨38, 42⟩⟩]], ⟨29, 44⟩⟩) [] false]

/-- It declares the name once, in the scope of the package, and leaves the predeclared one alone. -/
theorem Check.shortDecl_shadowing : (start {}).WellScoped ∧
    (start {}).context.scope = some ⟨1⟩ ∧ ∃ d : Checker,
      ((shortDecl checkLiteral ⟨0, 46⟩ shadowingTargets shadowingValues).1
        (start {})).2 = d ∧
      (d.store.scope ⟨1⟩).bindings.map (·.1) = ["true"] ∧
      (d.store.scope ⟨0⟩).bindings = ((start {}).store.scope ⟨0⟩).bindings := by
  have hscope : (start {}).context.scope = some ⟨1⟩ := by decide +kernel
  have hempty : ((start {}).store.scope ⟨1⟩).bindings = [] := by decide +kernel
  have hsize : 0 < (start {}).store.scopes.size := by decide +kernel
  have hnames : ((start {}).store.scope ⟨1⟩).newNames shadowingTargets = ["true"] := by
    decide +kernel
  obtain ⟨d, -, -, new, hd, -, -, -, -, -, -, hmade, hbindings, hothers, -⟩ := shortDecl_binds_last
    (start {}) ⟨1⟩ ⟨0, 46⟩ shadowingTargets shadowingValues (wellScoped_start {}) hscope
  refine ⟨wellScoped_start {}, hscope, d, hd, ?_, hothers ⟨0⟩ hsize (by decide)⟩
  rw [hbindings, hempty, nil_append, map_map]
  exact hmade.names.trans hnames

end GoCheck
