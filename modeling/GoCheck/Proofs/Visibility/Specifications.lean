import GoCheck.Proofs.Visibility.ShortDeclarations

/-!
# What a declaration by specifications sees

A `var` or `const` declaration goes through its specifications in order; each evaluates its values
before it binds its names. The bodies of function literals in the values wait until the whole
declaration is done, so they see all the names that are declared in it.
-/

namespace GoCheck

open List Checker Pass

/-- The names of specifications, in order. -/
def declaredNames (specs : List Spec) : List String :=
  specs.flatMap fun spec => spec.names.map (·.text)

namespace Checker

variable {c d : Checker} {x : ScopeId}

/-- Of the given names, those neither blank nor bound in a scope have been bound in it to new
objects, from number `n` on, and all else in it is as before. -/
def Rebinds (c d : Checker) (x : ScopeId) (n : Nat) (names : List String) : Prop :=
  ∀ name,
    ((d.store.scope x).find? name = (c.store.scope x).find? name ∧
      (name ∈ names → name ≠ "_" → (c.store.scope x).find? name ≠ none)) ∨
    ((c.store.scope x).find? name = none ∧ name ∈ names ∧ name ≠ "_" ∧
      ∃ o, (d.store.scope x).find? name = some o ∧ n ≤ o.index)

lemma Rebinds.of_bindings_eq (h : (d.store.scope x).bindings = (c.store.scope x).bindings) :
    c.Rebinds d x n [] :=
  fun name => .inl ⟨by rw [Scope.find?, Scope.find?, h], nofun⟩

/-- An evaluation looks up names from where it stands. -/
lemma Acts.lookups_here {L : Limits} {l : List Happening} (h : c.Acts L d)
    (hl : d.history.toList = c.history.toList ++ l) {y : Option ScopeId} {name : String}
    (hmem : .lookup y name found ∈ l) :
    y = c.context.scope := by
  have hall : ∃ l', d.history.toList = c.history.toList ++ l' ∧
      ∀ y name found, .lookup y name found ∈ l' → y = c.context.scope := by
    clear hl
    induction h with
    | refl => exact ⟨[], by simp⟩
    | @tail d e hsteps hstep ih =>
      obtain ⟨l', hl', hhere⟩ := ih
      have hmore h (hh : ∀ y name found, h = .lookup y name found →
          y = c.context.scope) : ∃ l'', (d.history.push h).toList = c.history.toList ++ l'' ∧
            ∀ y name found, .lookup y name found ∈ l'' → y = c.context.scope := by
        refine ⟨l' ++ [h], by simp [hl'], fun y name found hmem => ?_⟩
        rcases mem_append.mp hmem with hmem | hmem
        · exact hhere y name found hmem
        · exact hh y name found (mem_singleton.mp hmem).symm
      cases hstep with
      | quiet hq =>
        cases hq with
        | lookup name =>
          refine hmore _ fun y name' found heq => ?_
          cases heq
          exact congrArg _ (Acts.context_eq hsteps)
        | clash | literal => exact hmore _ nofun
        | _ => exact ⟨l', hl', hhere⟩
      | putOff x => exact hmore _ nofun
      | _ => exact ⟨l', hl', hhere⟩
  obtain ⟨l', hl', hhere⟩ := hall
  obtain rfl : l' = l := append_cancel_left (hl'.symm.trans hl)
  exact hhere y name found hmem

lemma Rebinds.trans (h : c.Rebinds d x n names) (k : d.Rebinds e x n names') :
    c.Rebinds e x n (names ++ names') := by
  intro name
  rcases h name with ⟨hsame, hbound⟩ | ⟨hfree, hmem, hblank, o, ho, hn⟩ <;>
    rcases k name with ⟨hsame', hbound'⟩ | ⟨hfree', hmem', hblank', o', ho', hn'⟩
  · refine .inl ⟨hsame'.trans hsame, fun hmem hblank => ?_⟩
    rcases mem_append.mp hmem with hmem | hmem
    · exact hbound hmem hblank
    · exact hsame ▸ hbound' hmem hblank
  · exact .inr ⟨hsame ▸ hfree', mem_append_right _ hmem', hblank', o', ho', hn'⟩
  · exact .inr ⟨hfree, mem_append_left _ hmem, hblank, o, hsame'.trans ho, hn⟩
  · exact absurd (ho.symm.trans hfree') nofun

end Checker

namespace Pass

variable {c d : Checker} {x : ScopeId} {o : ObjectId}

/-- The declaration of an object binds its name if it is free, and notes nothing but a refusal. -/
lemma declare_rebinds (hx : x.index < c.store.scopes.size) (ho : n ≤ o.index) :
    c.Rebinds ((declare x i o m).1 c).2 x n [(c.store.object o).name] ∧
      ∃ l, ((declare x i o m).1 c).2.history.toList = c.history.toList ++ l ∧
        ∀ h ∈ l, h.isClash := by
  cases hblank : (c.store.object o).isBlank with
  | true =>
    rw [declare_of_isBlank hblank]
    have hname := of_decide_eq_true hblank
    have hstays name (hmem : name ∈ [(c.store.object o).name]) : name = "_" :=
      (mem_singleton.mp hmem).trans hname
    cases i <;> exact ⟨fun name => .inl ⟨rfl, fun hmem hne => absurd (hstays name hmem) hne⟩,
      [], (append_nil _).symm, by simp⟩
  | false =>
    cases hfind : (c.store.scope x).find? (c.store.object o).name with
    | some other =>
      rw [declare_of_find?_eq_some hblank hfind]
      refine ⟨fun name => .inl ⟨rfl, fun hmem _ => ?_⟩, [.clash x o other], by simp,
        by simp [Happening.isClash]⟩
      rw [mem_singleton.mp hmem, hfind]
      exact Option.some_ne_none other
    | none =>
      obtain ⟨hbindings, hhistory, -⟩ := declare_of_free i m hx hblank hfind
      refine ⟨fun name => ?_, [], by simp [hhistory], by simp⟩
      have hlookup : (((declare x i o m).1 c).2.store.scope x).find? name =
          ((c.store.scope x).find? name).or ([((c.store.object o).name, o)].lookup name) := by
        rw [Scope.find?, hbindings, lookup_append]
        rfl
      by_cases hname : name = (c.store.object o).name
      · subst hname
        refine .inr ⟨hfind, by simp, of_decide_eq_false hblank, o, ?_, ho⟩
        rw [hlookup, hfind]
        simp
      · refine .inl ⟨?_, fun hmem => absurd (mem_singleton.mp hmem) hname⟩
        rw [hlookup, lookup_cons, beq_eq_false_iff_ne.mpr hname]
        simp

lemma declareAll_rebinds (m n : Nat) (is : List Ident) (hx : x.index < c.store.scopes.size)
    (hos : ∀ o ∈ os, n ≤ o.index ∧ o.index < c.store.objects.size)
    (hnames : (os.map fun o => (c.store.object o).name) = is.map (·.text)) :
    c.Rebinds ((declareAll x m is os).1 c).2 x n (is.map (·.text)) ∧
      ∃ l, ((declareAll x m is os).1 c).2.history.toList = c.history.toList ++ l ∧
        ∀ h ∈ l, h.isClash := by
  induction is generalizing os c with
  | nil => exact ⟨.of_bindings_eq rfl, [], (append_nil _).symm, by simp⟩
  | cons i is ih =>
    cases os with
    | nil => cases hnames
    | cons o os =>
      obtain ⟨hname, hnames⟩ : (c.store.object o).name = i.text ∧ _ := List.cons.inj hnames
      obtain ⟨ho, hos⟩ := forall_mem_cons.mp hos
      have hsteps := steps (declare x (some i) o m) c
      obtain ⟨hfirst, l, hl, hclash⟩ := declare_rebinds hx ho.1
      obtain ⟨hrest, l', hl', hclash'⟩ := ih
        (lt_of_lt_of_le hx hsteps.scopes_size_le)
        (fun p hp => ⟨(hos p hp).1, lt_of_lt_of_le (hos p hp).2 hsteps.objects_size_le⟩)
        (hnames ▸ map_congr_left fun p hp => hsteps.name_eq (hos p hp).2)
      rw [hname] at hfirst
      refine ⟨hfirst.trans hrest, l ++ l', ?_, fun h hh => ?_⟩
      · rw [← append_assoc, ← hl]
        exact hl'
      · exact (mem_append.mp hh).elim (hclash h) (hclash' h)

/-- What the two kinds of specifications have in common. -/
structure Makes (make : Spec → Pass (List ObjectId)) (isVar : Bool) : Prop where
  evaluates : ∀ {spec} {L : Limits}, exprsDepth spec.values ≤ L.depth → (make spec).Evaluates L
  made : ∀ (spec : Spec) (c : Checker), c.MadeWithin ((make spec).1 c).2 isVar
    (spec.names.map (·.text)) ((make spec).1 c).1

lemma madeWithin_mapM_newVar (is : List Ident) (package : Option PackageId)
    (type : Option TypeId) (c : Checker) :
    c.MadeWithin ((is.mapM fun i => newVar i.span package i.text type).1 c).2 true
      (is.map (·.text)) ((is.mapM fun i => newVar i.span package i.text type).1 c).1 := by
  induction is generalizing c with
  | nil => exact .nil c c true
  | cons i is ih =>
    rw [mapM_cons]
    let made := (newVar i.span package i.text type).1 c
    refine MadeWithin.cons ?_ le_rfl ?_ (steps _ made.2) (ih made.2)
    · exact congrArg Object.identity ((Store.object_newObject ..).trans (if_pos rfl))
    · exact lt_of_lt_of_eq (Nat.lt_succ_self _) (Array.size_push _).symm

lemma makes_makeVars : Makes makeVars true where
  evaluates h := .makeVars h
  made spec c := by
    rw [makeVars, bind_run, current_bind_run, bind_run, bind_run]
    have hsteps := steps (spec.type.mapM fun e : TypeExpr => e.resolve) c
    generalize (spec.type.mapM fun e : TypeExpr => e.resolve).1 c = declared at hsteps ⊢
    have hmade := (madeWithin_mapM_newVar spec.names (some declared.2.package) declared.1
      declared.2).earlier hsteps
    split
    · exact (hmade.later (steps (initSpec ..) _)).later (steps (checkArity ..) _)
    · exact hmade.later (steps (initSpec ..) _)

variable (declared : Option TypeId)

lemma initConsts_cons (i : Ident) (is : List Ident) (es : List Expr) :
    ∃ init : ObjectId → Pass Unit, initConsts declared (i :: is) es = do
      let o ← newConst i.span (some (← current).package) i.text declared .unknown
      init o
      return o :: (← initConsts declared is es.tail) := by
  rw [initConsts]
  by_cases h : declared = some .invalid
  · exact ⟨fun _ => pure (), by simp [h]⟩
  · cases es with
    | nil => exact ⟨fun o => initConst o {}, by simp [h]⟩
    | cons e es => exact ⟨fun o => do initConst o (← e.evalValue), by simp [h]⟩

lemma madeWithin_initConsts (is : List Ident) (es : List Expr)
    (c : Checker) : c.MadeWithin ((initConsts declared is es).1 c).2 false (is.map (·.text))
      ((initConsts declared is es).1 c).1 := by
  induction is generalizing es c with
  | nil => exact .nil c c false
  | cons i is ih =>
    obtain ⟨init, hinit⟩ := initConsts_cons declared i is es
    rw [hinit, current_bind_run, bind_run]
    let made := (newConst i.span (some c.package) i.text declared .unknown).1 c
    have hsteps := steps (init made.1) made.2
    refine MadeWithin.cons ?_ le_rfl ?_
      (hsteps.trans (steps (initConsts declared is es.tail) _)) ((ih es.tail _).earlier hsteps)
    · exact congrArg Object.identity ((Store.object_newObject ..).trans (if_pos rfl))
    · exact lt_of_lt_of_eq (Nat.lt_succ_self _) (Array.size_push _).symm

lemma makes_makeConsts : Makes makeConsts false where
  evaluates h := .makeConsts h
  made spec c := by
    rw [makeConsts, bind_run, bind_run]
    have hsteps := steps (spec.type.mapM constType) c
    generalize (spec.type.mapM constType).1 c = declared at hsteps ⊢
    have hmade := (madeWithin_initConsts declared.1 spec.names spec.values declared.2).earlier hsteps
    exact hmade.later (steps (checkArity ..) _)

section

/-- A specification: what it makes and then binds. -/
lemma spec_phases (hmake : Makes make isVar) (spec : Spec) (hc : c.WellScoped)
    (hs : c.context.scope = some s) (hn : n ≤ c.store.objects.size) :
    ∃ l, ((make spec >>= declareSpec spec).1 c).2.history.toList = c.history.toList ++ l ∧
      (∀ x name found, .lookup x name found ∈ l →
        x = some s ∧ found = c.store.resolve? s name) ∧
      c.Rebinds ((make spec >>= declareSpec spec).1 c).2 s n (spec.names.map (·.text)) := by
  have hlt := hc.here s hs
  let L : Limits := { c.frontier with depth := exprsDepth spec.values, home := fun _ => False }
  have hL (x : ScopeId) (hx : L.Binds x) : c.store.scopes.size ≤ x.index := hx.elim id False.elim
  have hacts := hmake.evaluates (L := L) le_rfl c c.past_frontier
  have hmade := hmake.made spec c
  obtain ⟨-, l, rs, hl, -, hwithin, -⟩ :=
    hacts.confined hc.nested le_rfl hlt (hc.inside hs) hL
  have hscope : ((make spec).1 c).2.declarationScope = s := by
    rw [hacts.declarationScope_eq, Checker.declarationScope, hs, Option.getD_some]
  have hnames := declareAll_rebinds spec.span.stop n spec.names
    (lt_of_lt_of_le hlt hacts.steps.scopes_size_le)
    (fun o ho => ⟨le_trans hn (hmade.made o ho).1, (hmade.made o ho).2⟩) hmade.names
  obtain ⟨hrebinds, l', hl', hclash⟩ := hnames
  have hrun : ((make spec >>= declareSpec spec).1 c).2 =
      ((declareAll s spec.span.stop spec.names ((make spec).1 c).1).1 ((make spec).1 c).2).2 := by
    rw [← hscope]
    rfl
  rw [hrun]
  refine ⟨l ++ l', by rw [hl', hl, append_assoc], fun x name found hmem => ?_, ?_⟩
  · rcases mem_append.mp hmem with hmem | hmem
    · have hx := (hacts.lookups_here hl hmem).trans hs
      exact ⟨hx, (hwithin _ hmem).2 hx⟩
    · cases hclash _ hmem
  · have hsame := hacts.bindings_eq fun hx => not_lt.mpr (hL s hx) hlt
    exact (Checker.Rebinds.of_bindings_eq hsame).trans hrebinds

lemma acts_specs_here (hmake : Makes make isVar) (specs : List Spec)
    (hs : c.context.scope = some s) :
    c.Acts { c.frontier with depth := specsDepth specs, home := (· = s) }
      ((specs.forM fun spec => make spec >>= declareSpec spec).1 c).2 := by
  refine acts_specs (fun spec hspec => hmake.evaluates (exprsDepth_le_specsDepth hspec))
    c.past_frontier ?_
  rw [Checker.declarationScope, hs, Option.getD_some]

lemma rebinds_specs (hmake : Makes make isVar) (specs : List Spec) (hc : c.WellScoped)
    (hs : c.context.scope = some s) (hn : n ≤ c.store.objects.size) :
    c.Rebinds ((specs.forM fun spec => make spec >>= declareSpec spec).1 c).2 s n
      (declaredNames specs) := by
  induction specs generalizing c with
  | nil => exact .of_bindings_eq rfl
  | cons spec specs ih =>
    obtain ⟨-, -, -, hfirst⟩ := spec_phases hmake spec hc hs hn
    have hacts := acts_specs_here hmake [spec] hs
    refine hfirst.trans (ih (hacts.wellScoped hc) (hacts.context_eq ▸ hs) ?_)
    exact le_trans hn hacts.steps.objects_size_le

/-- What is found after specifications, from the scope in which they stand. -/
lemma resolve?_specs (hmake : Makes make isVar) (specs : List Spec) (hc : c.WellScoped)
    (hs : c.context.scope = some s)
    (hd : d = ((specs.forM fun spec => make spec >>= declareSpec spec).1 c).2) (name : String) :
    (name ∉ declaredNames specs ∨ name = "_" → d.store.resolve? s name = c.store.resolve? s name) ∧
    (name ∈ declaredNames specs → name ≠ "_" → ∃ o, d.store.resolve? s name = some (s, o) ∧
      ((c.store.scope s).find? name = some o ∨
        (c.store.scope s).find? name = none ∧ c.store.objects.size ≤ o.index)) := by
  have hlt := hc.here s hs
  have hacts := acts_specs_here hmake specs hs
  have hrebinds := rebinds_specs hmake specs hc hs le_rfl
  rw [← hd] at hacts hrebinds
  have hsize := hacts.steps.scopes_size_le
  have hafter := lt_of_lt_of_le hlt hsize
  have hsame (hfind : (d.store.scope s).find? name = (c.store.scope s).find? name) :
      d.store.resolve? s name = c.store.resolve? s name := by
    refine Store.resolve?_congr hc.nested hlt le_rfl hsize fun y hy => ?_
    refine ⟨?_, hacts.steps.parent_eq hy⟩
    by_cases hys : y = s
    · exact hys ▸ hfind
    · rw [Scope.find?, Scope.find?, hacts.bindings_eq fun h => h.elim (not_le.mpr hy) hys]
  rcases hrebinds name with ⟨hfind, hbound⟩ | ⟨hfree, hmem, hblank, o, ho, hnew⟩
  · refine ⟨fun _ => hsame hfind, fun hmem hblank => ?_⟩
    obtain ⟨o, ho⟩ := Option.ne_none_iff_exists'.mp (hbound hmem hblank)
    exact ⟨o, Store.resolve?_of_find?_eq_some hafter (hfind.trans ho), .inl ho⟩
  · refine ⟨fun h => ?_, fun _ _ => ?_⟩
    · exact h.elim (absurd hmem) fun heq => absurd heq hblank
    · exact ⟨o, Store.resolve?_of_find?_eq_some hafter ho, .inr ⟨hfree, hnew⟩⟩

/-- The bodies that wait after specifications see what there is then. -/
lemma lookups_after_specs (hmake : Makes make isVar) (specs : List Spec) (hc : c.WellScoped)
    (hs : c.context.scope = some s)
    (hd : d = ((specs.forM fun spec => make spec >>= declareSpec spec).1 c).2) :
    ∃ l, ((runDeferred checkLiteral c.deferred.length).1 d).2.history.toList =
        d.history.toList ++ l ∧ ∀ h ∈ l, h.Within c.store.scopes.size d.store s := by
  have hlt := hc.here s hs
  have hacts := acts_specs_here hmake specs hs
  rw [← hd] at hacts
  obtain ⟨ds, e, hds, hcourse, hend⟩ := course_runDeferred
    (checksBodies_checkLiteral c.frontier (specsDepth specs)) rfl
    (hacts.steps.past c.past_frontier) hacts
  have hunder := hacts.under (hc.inside hs).toUnder
  have hinside : d.Inside c.store.scopes.size d.store s :=
    ⟨hunder, .refl _ _, hacts.steps.scopes_size_le⟩
  obtain ⟨-, l, -, hl, -, hwithin, -⟩ := hcourse.confined hunder.nested
    hacts.steps.scopes_size_le hlt hinside (hacts.ready hds)
  exact ⟨l, hend ▸ hl, hwithin⟩

end

/-- The trace around a statement changes nothing but the log. -/
lemma observeStmt_run (run : Deferred → Pass Unit) (st : Stmt) (p : Pass Unit) (c : Checker) :
    ∃ log indent indent', ((observeStmt run st p).1 c).2 =
      { ((runDeferred run c.deferred.length).1
        (p.1 { c.noted (.enterStmt st) with log, indent }).2).2 with indent := indent' }.noted
        (.leaveStmt st) := by
  obtain ⟨log, hlog⟩ := traceLine_run (fun _ => "stmt[ " ++ st.text ++ " ]") (c.noted (.enterStmt st))
  obtain ⟨indent, hindent⟩ := indentTrace_run { c.noted (.enterStmt st) with log }
  obtain ⟨indent', hindent'⟩ := unindentTrace_run ((runDeferred run c.deferred.length).1
    (p.1 { c.noted (.enterStmt st) with log, indent }).2).2
  refine ⟨log, indent, indent', ?_⟩
  have hnote : ((note (.enterStmt st)).1 c).2 = c.noted (.enterStmt st) := rfl
  rw [observeStmt, bind_run, hnote, bind_run, hlog, bind_run, hindent, deferredCount, bind_assoc,
    current_bind_run, pure_bind, bind_run, bind_run, bind_run]
  exact congrArg (·.noted (.leaveStmt st)) hindent'

end Pass

/-- A `var` or `const` declaration in a scope. The values of a specification see what there was in
front of it. The bodies of function literals in them see what there is after the whole declaration,
or in a scope opened since: so each name of the declaration, now bound in the scope, to a new object
if it was not bound there before. -/
theorem Check.declaration_seen_in_bodies (c : Checker) (s : ScopeId) (span : Span)
    (specs : List Spec) (st : Stmt) (check : Spec → Pass Unit) (hc : c.WellScoped)
    (hs : c.context.scope = some s)
    (hst : (st = .var span specs ∧ check = varSpec) ∨
      (st = .const span specs ∧ check = constSpec)) :
    ∃ (before after d : Checker) (l : List Happening),
      before.store = c.store ∧ before.context = c.context ∧
      after = ((specs.forM check).1 before).2 ∧ d = ((st.check checkLiteral).1 c).2 ∧
      (∀ pre spec post, specs = pre ++ spec :: post → ∃ l,
        ((check spec).1 ((pre.forM check).1 before).2).2.history.toList =
          ((pre.forM check).1 before).2.history.toList ++ l ∧
        ∀ x name found, .lookup x name found ∈ l →
          x = some s ∧ found = ((pre.forM check).1 before).2.store.resolve? s name) ∧
      d.history.toList = after.history.toList ++ l ++ [.leaveStmt st] ∧
      (∀ x name found, .lookup x name found ∈ l →
        (found = after.store.resolve? s name ∨
          ∃ y o, found = some (y, o) ∧ c.store.scopes.size ≤ y.index) ∧
        (x = some s → found = after.store.resolve? s name)) ∧
      (∀ name, name ∉ declaredNames specs ∨ name = "_" →
        after.store.resolve? s name = c.store.resolve? s name) ∧
      (∀ name ∈ declaredNames specs, name ≠ "_" → ∃ o,
        after.store.resolve? s name = some (s, o) ∧
        ((c.store.scope s).find? name = some o ∨
          (c.store.scope s).find? name = none ∧ c.store.objects.size ≤ o.index)) := by
  -- the two kinds differ only in how the objects are made
  obtain ⟨make, isVar, hmake, rfl, hcheck⟩ : ∃ (make : Spec → Pass (List ObjectId)) (isVar : Bool),
      Makes make isVar ∧ check = (fun spec => make spec >>= declareSpec spec) ∧
      st.check checkLiteral = observeStmt checkLiteral st (specs.forM check) := by
    rcases hst with ⟨rfl, rfl⟩ | ⟨rfl, rfl⟩
    · exact ⟨makeVars, true, makes_makeVars, rfl, by rw [Stmt.check]⟩
    · exact ⟨makeConsts, false, makes_makeConsts, rfl, by rw [Stmt.check]⟩
  obtain ⟨log, indent, indent', hrun⟩ := observeStmt_run checkLiteral st
    (specs.forM fun spec => make spec >>= declareSpec spec) c
  let before : Checker := { c.noted (.enterStmt st) with log, indent }
  have hbefore : before.WellScoped := ⟨hc.nested, hc.here, hc.package, hc.waiting⟩
  obtain ⟨l, hl, hwithin⟩ := lookups_after_specs hmake specs hbefore hs rfl
  refine ⟨before, _, _, l, rfl, rfl, rfl, rfl, fun pre spec post _ => ?_, ?_,
    fun x name found hmem => hwithin _ hmem,
    fun name => (resolve?_specs hmake specs hbefore hs rfl name).1,
    fun name => (resolve?_specs hmake specs hbefore hs rfl name).2⟩
  · have hacts := acts_specs_here hmake pre (c := before) hs
    obtain ⟨l, hl, hseen, -⟩ := spec_phases hmake spec (hacts.wellScoped hbefore)
      (hacts.context_eq ▸ hs) (Nat.zero_le _)
    exact ⟨l, hl, hseen⟩
  · rw [hcheck, hrun, ← hl]
    exact Array.toList_push ..

/-- `var true = func() bool { return true }()` -/
def selfNamingSpec : Spec where
  names := [⟨some "true", ⟨4, 8⟩⟩]
  type := none
  values := [.call ⟨0, ⟨11, 41⟩⟩ (.funcLit ⟨1, ⟨11, 39⟩⟩
    ⟨[], [⟨none, .name ⟨18, 22⟩ ⟨some "bool", ⟨18, 22⟩⟩, ⟨18, 22⟩⟩], false, ⟨11, 22⟩⟩
    ⟨[.ret ⟨25, 36⟩ [.ident ⟨2, ⟨32, 36⟩⟩ ⟨some "true", ⟨32, 36⟩⟩]], ⟨23, 39⟩⟩) [] false]
  span := ⟨4, 41⟩

/-- Its declaration sees the predeclared constant before, and binds the name to a new variable. -/
theorem Check.selfNamingSpec_bound : (start {}).WellScoped ∧
    (start {}).context.scope = some ⟨1⟩ ∧ ∃ (after : Checker) (o : ObjectId),
      after.store.resolve? ⟨1⟩ "true" = some (⟨1⟩, o) ∧
      (start {}).store.objects.size ≤ o.index := by
  have hscope : (start {}).context.scope = some ⟨1⟩ := by decide +kernel
  have hfree : ((start {}).store.scope ⟨1⟩).find? "true" = none := by decide +kernel
  obtain ⟨-, after, -, -, -, -, -, -, -, -, -, -, hbound⟩ := declaration_seen_in_bodies
    (start {}) ⟨1⟩ ⟨0, 41⟩ [selfNamingSpec] _ _ (wellScoped_start {}) hscope
    (.inl ⟨rfl, rfl⟩)
  obtain ⟨o, ho, hold | ⟨-, hnew⟩⟩ := hbound "true" (by decide) (by decide)
  · cases hfree.symm.trans hold
  · exact ⟨wellScoped_start {}, hscope, after, o, ho, hnew⟩

/-- The lookup that has been made, if one has. -/
def Happening.lookup? : Happening → Option (String × Option (ScopeId × ObjectId))
  | .lookup _ name found => some (name, found)
  | _ => none

/-- The name denotes the predeclared constant before, but the body sees the new variable. -/
theorem Check.own_name_seen_in_body :
    (∃ o, (start {}).store.resolve? ⟨1⟩ "true" = some (⟨0⟩, o)) ∧
    ∃ x o, .lookup x "true" (some (⟨1⟩, o)) ∈
      (((Stmt.var ⟨0, 41⟩ [selfNamingSpec]).check checkLiteral).1
        (start {})).2.history.toList := by
  have hlookups : (((Stmt.var ⟨0, 41⟩ [selfNamingSpec]).check checkLiteral).1
      (start {})).2.history.toList.filterMap Happening.lookup? =
        [("bool", some (⟨0⟩, ⟨0⟩)), ("true", some (⟨1⟩, ⟨26⟩))] := by
    decide +kernel
  have hseen : ("true", some (⟨1⟩, ⟨26⟩)) ∈ (((Stmt.var ⟨0, 41⟩ [selfNamingSpec]).check
      checkLiteral).1 (start {})).2.history.toList.filterMap Happening.lookup? := by
    rw [hlookups]
    simp
  obtain ⟨h, hmem, hh⟩ := List.mem_filterMap.mp hseen
  refine ⟨⟨⟨23⟩, by decide +kernel⟩, ?_⟩
  cases h with
  | lookup x name found =>
    cases hh
    exact ⟨x, ⟨26⟩, hmem⟩
  | _ => cases hh

end GoCheck
