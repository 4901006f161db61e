import GoCheck.Proofs.Isolation.Expressions

/-!
# Statements side by side

Targets and statements in two states that differ in their numbers make the same reports. A check
initializes only its own objects, may assign to older ones without a visible change, and declares
new objects in new scopes.
-/

namespace GoCheck

open Renumbering List

variable {ρ : Renumbering} {span : Span} {vs results vars new : List ObjectId} {s : Store}
  {declared a b : Option TypeId}

namespace Pass

variable {c c' : Checker} {x y : Operand} {context : String}

lemma isFaulty_operand : isFaulty (ρ.operand x) = isFaulty x := by
  unfold isFaulty
  rw [operand_isInvalid, operand_type]
  simp

section

variable (h : c.Mirrored ρ c')
include h

lemma isFaulty_or_invalid :
    (isFaulty (ρ.operand x) || (c'.store.object (ρ.object o)).type = some .invalid : Bool) =
      (isFaulty x || (c.store.object o).type = some .invalid : Bool) := by
  rw [isFaulty_operand, h.shifted.objectType]
  simp

lemma mirrors_initConst (ho : ρ.NewObject o) :
    (initConst o x).Mirrors ρ (initConst (ρ.object o) (ρ.operand x)) c c' id := by
  simp only [initConst, mirrors_entities_bind, isFaulty_or_invalid h]
  split
  · exact mirrors_invalidateMissing h ho
  · rw [operand_mode]
    split
    · rw [h.describe]
      exact (mirrors_report h rfl rfl).next fun _ hd => mirrors_invalidateMissing hd ho
    · refine (mirrors_optionForM h fun t _ => mirrors_giveType h ho).next fun _ hd => ?_
      rw [h.shifted.objectType, operand_typeOrInvalid, Option.getD_map]
      refine (mirrors_assignTo hd).next fun y hf => ?_
      rw [operand_mode]
      cases y.mode.constant? with
      | none => exact .done hf rfl
      | some v => exact mirrors_setValue hf ho

lemma mirrors_initTyped : (initTyped o t x context).Mirrors ρ
      (initTyped (ρ.object o) (ρ.type t) (ρ.operand x) context) c c' (Option.map ρ.type)
        fun r _ => x.Old ρ → ∀ u ∈ r, ¬ρ.NewType u := by
  refine (mirrors_assignTo h).bind fun y d d' _ hd hy => ?_
  rw [operand_isInvalid]
  split
  · exact (mirrors_markUsed hd).next fun _ hf => .pure hf rfl (by simp)
  · exact .pure hd rfl fun hx => (hy hx).type

/-- A new variable is initialized alike. A value of an old type keeps an old type. -/
lemma mirrors_initVar (ho : ρ.NewObject o) :
    (initVar o x context).Mirrors ρ (initVar (ρ.object o) (ρ.operand x) context) c c'
      (Option.map ρ.type) fun r _ => x.Old ρ → ∀ u ∈ r, ¬ρ.NewType u := by
  simp only [initVar, mirrors_entities_bind, isFaulty_or_invalid h]
  split
  · refine (mirrors_invalidateMissing h ho).next fun _ hd => ?_
    exact (mirrors_markUsed hd).next fun _ hf => .pure hf rfl (by simp)
  · rw [h.shifted.objectType]
    cases (c.store.object o).type with
    | some t => exact mirrors_initTyped h
    | none =>
      rw [operand_typeOrInvalid]
      by_cases hnil : x.typeOrInvalid = .basic .untypedNil
      · rw [if_pos hnil, if_pos (type_eq_basic.mpr hnil)]
        refine (mirrors_report h rfl rfl).next fun _ hd => ?_
        exact (mirrors_invalidateMissing hd ho).next fun _ hf => .pure hf rfl (by simp)
      · rw [if_neg hnil, if_neg (mt type_eq_basic.mp hnil), h.shifted.defaultType]
        exact (mirrors_giveType h ho).next fun _ hd => mirrors_initTyped hd

variable {xs : List Operand} {lhs : List ObjectId}

lemma mirrors_initEach (hvs : ∀ v ∈ vs, ρ.NewObject v) :
    (initEach context vs xs).Mirrors ρ (initEach context (vs.map ρ.object) (xs.map ρ.operand)) c c'
      id := by
  induction vs generalizing c c' xs with
  | nil => exact .done h rfl
  | cons v vs ih =>
    cases xs with
    | nil => exact .done h rfl
    | cons x xs =>
      simp only [forall_mem_cons] at hvs
      refine (mirrors_initVar h hvs.1).next fun first hd => ?_
      refine Mirrors.bind (ih hd hvs.2) fun rest f f' _ hf _ => .pure hf ?_ .intro
      simp

lemma mirrors_reportCounts {targets values : Nat} (hspan : span' = span) :
    (reportCounts span rhs targets values).Mirrors ρ (reportCounts span' rhs targets values) c c'
      id := by
  subst hspan
  cases rhs with
  | nil | cons e rest => exact mirrors_report h rfl rfl

lemma returnCountReport_map :
    returnCountReport c'.store span (lhs.map ρ.object) (xs.map ρ.operand) =
      returnCountReport c.store span lhs xs := by
  have hhave : (xs.map ρ.operand).map (·.type) = (xs.map (·.type)).map (·.map ρ.type) := by simp
  have hwant : ((lhs.map ρ.object).map fun v => (c'.store.object v).type) =
      (lhs.map fun v => (c.store.object v).type).map (·.map ρ.type) := by
    simp [h.shifted.objectType]
  unfold returnCountReport
  rw [hhave, hwant, h.shifted.summary h.grown h.ordered, h.shifted.summary h.grown h.ordered,
    length_map, length_map, getElem?_map, getLast?_map]
  cases xs[lhs.length]? with
  | some extra => rfl
  | none => cases xs.getLast? <;> rfl

lemma mirrors_refuseInit (hlhs : ∀ v ∈ lhs, ρ.NewObject v) :
    (refuseInit lhs rhs xs returning).Mirrors ρ
      (refuseInit (lhs.map ρ.object) rhs (xs.map ρ.operand) returning) c c' id := by
  have hmark : (lhs.forM fun v => do markUsed v; invalidateMissing v).Mirrors ρ
      ((lhs.map ρ.object).forM fun v => do markUsed v; invalidateMissing v) c c' id :=
    mirrors_forM h .intro fun v hv d d' _ hd _ => (mirrors_markUsed hd).next
      fun _ hf => mirrors_invalidateMissing hf (hlhs v hv)
  have hinvalid : (xs.map ρ.operand).any (·.isInvalid) = xs.any (·.isInvalid) := any_map
  refine hmark.bind fun _ d d' _ hd _ => ?_
  rw [hinvalid]
  split
  · exact .done hd rfl
  · simp only [mirrors_entities_bind, returnCountReport_map hd, length_map]
    cases returning with
    | some span => exact mirrors_emit hd
    | none =>
      refine mirrors_reportCounts hd ?_
      cases lhs with
      | nil => rfl
      | cons v vs => exact hd.shifted.span v

lemma mirrors_initSingly (hnew : ∀ v ∈ lhs, ρ.NewObject v) :
    (initEach context lhs xs >>= fun ok => if ok then pure () else lhs.forM markUsed).Mirrors ρ
      (initEach context (lhs.map ρ.object) (xs.map ρ.operand) >>= fun ok =>
        if ok then pure () else (lhs.map ρ.object).forM markUsed) c c' id := by
  refine (mirrors_initEach h hnew).next fun ok hd => ?_
  cases ok with
  | true => exact .done hd rfl
  | false => exact mirrors_forM hd .intro fun v _ f f' _ hf _ => mirrors_markUsed hf

variable (hc : c.Closed false)
include hc

/-- The types of a pair are noted and recorded, where the second part is of an old type. -/
lemma mirrors_logPair {e e' : Event} (ha : ∀ t ∈ a, c.store.HasType t)
    (hb : ∀ t ∈ b, c.store.HasType t) (hold : ∀ t ∈ b, ¬ρ.NewType t) :
    (logEvent e >>= fun _ => recordPair rhs a b).Mirrors ρ
      (logEvent e' >>= fun _ => recordPair rhs (a.map ρ.type) (b.map ρ.type)) c c' id := by
  refine ((mirrors_logEvent h).safe (safe_logEvent hc)).bind fun _ d d' hd hmirrored hlogged => ?_
  rcases rhs with _ | ⟨e, rest⟩
  · exact .done hmirrored rfl
  · cases a with
    | none => exact .done hmirrored rfl
    | some t =>
      cases b with
      | none => exact .done hmirrored rfl
      | some u =>
        refine (mirrors_tupleOf hmirrored hlogged.2.1 ((ha t rfl).steps hd.steps)
          ((hb u rfl).steps hd.steps) (hold u rfl)).next fun p hf => ?_
        exact mirrors_onRecords hf

omit h hc in
/-- A pair goes to two places alike. -/
lemma mirrors_pair {e : Option TypeId → Option TypeId → Event} (hold : y.Old ρ)
    (hm : m.Mirrors ρ m' c c' (Option.map ρ.type) fun a d =>
      (x.Old ρ → ∀ t ∈ a, ¬ρ.NewType t) ∧ d.Closed false ∧ ∀ t ∈ a, d.store.HasType t)
    (hn : ∀ d d', c.Onward d → d.Mirrored ρ d' → d.Closed false →
      n.Mirrors ρ n' d d' (Option.map ρ.type) fun b f =>
        (y.Old ρ → ∀ t ∈ b, ¬ρ.NewType t) ∧ f.Closed false ∧ ∀ t ∈ b, f.store.HasType t) :
    (do let a ← m let b ← n
        logEvent (e a b)
        recordPair rhs a b).Mirrors ρ
      (do let a ← m' let b ← n'
          logEvent (e a b)
          recordPair rhs a b) c c' id := by
  refine hm.bind fun a d d' hd hmirrored ha => ?_
  refine (hn d d' hd hmirrored ha.2.1).bind fun b f f' hf hmirroredf hb => ?_
  exact mirrors_logPair hmirroredf hb.2.1 (fun t ht => (ha.2.2 t ht).steps hf.steps) hb.2.2
    (hb.1 hold)

lemma mirrors_initVars (hnew : ∀ v ∈ lhs, ρ.NewObject v) (hlhs : ∀ v ∈ lhs, c.store.HasObject v) :
    (initVars lhs rhs returning).Mirrors ρ (initVars (lhs.map ρ.object) rhs returning) c c' id := by
  unfold initVars
  rw [length_map]
  refine (mirrors_values h hc (repeats_pending rhs)).bind fun r d d' hd hmirrored hr => ?_
  obtain ⟨xs, pair⟩ := r
  obtain ⟨hold, hclosed, hxs⟩ := hr
  dsimp only [Prod.map, id_eq]
  rw [length_map]
  split
  · exact mirrors_refuseInit hmirrored hnew
  · cases pair with
    | false => exact mirrors_initSingly hmirrored hnew
    | true =>
      rcases lhs with _ | ⟨v, _ | ⟨w, _ | ⟨u, vs⟩⟩⟩
      any_goals exact mirrors_initSingly hmirrored hnew
      rcases xs with _ | ⟨x, _ | ⟨y, _ | ⟨z, zs⟩⟩⟩
      any_goals exact mirrors_initSingly hmirrored hnew
      simp only [forall_mem_cons] at hnew hlhs hxs
      refine mirrors_pair (hold rfl y (by simp)) ((mirrors_initVar hmirrored hnew.1).safe
        (safe_initVar hclosed hxs.1 (hlhs.1.steps hd.steps))) fun f f' hf hmirroredf hclosedf => ?_
      exact (mirrors_initVar hmirroredf hnew.2.1).safe (safe_initVar hclosedf
        (hxs.2.1.steps hf.steps) (hlhs.2.1.steps (hd.trans hf).steps))

/-- A target that is a variable of the check has been used alike before. -/
lemma mirrors_evalTarget : (evalTarget e).Mirrors ρ (evalTarget e) c c' ρ.operand := by
  have hrest : ∀ (named? : Option ObjectId) (d d' : Checker), d.Mirrored ρ d' → d.Closed false →
      (do let s ← entities let x ← e.evalValue
          named?.forM fun o => setUsed o (s.object o).isUsed
          return x : Pass Operand).Mirrors ρ
        (do let s ← entities let x ← e.evalValue
            (named?.map ρ.object).forM fun o => setUsed o (s.object o).isUsed
            return x : Pass Operand) d d' ρ.operand := by
    intro named? d d' hd hclosed
    rw [mirrors_entities_bind]
    refine (mirrors_evalValue hd hclosed).bind fun y f f' _ hf _ => ?_
    have hrestore : (named?.forM fun o => setUsed o (d.store.object o).isUsed).Mirrors ρ
        ((named?.map ρ.object).forM fun o => setUsed o (d'.store.object o).isUsed) f f' id := by
      refine mirrors_optionForM hf fun o _ => mirrors_setUsed hf fun hnew => ?_
      unfold Object.isUsed
      rw [hd.shifted.entity o hnew]
    exact hrestore.next fun _ hg => .done hg rfl
  unfold evalTarget
  cases e.unparen.ident? with
  | some i =>
    refine ((mirrors_localVar? h).safe (safe_localVar? hc)).bind fun o d d' _ hd ho => ?_
    exact hrest o d d' hd ho.2.1
  | none => exact hrest none c c' h hc

lemma mirrors_reportTarget :
    (reportTarget e x).Mirrors ρ (reportTarget e (ρ.operand x)) c c' id := by
  have hrest : ∀ (inMap : Bool) (d d' : Checker), d.Mirrored ρ d' →
      (do if inMap then report (.fieldOfMapElement e.text) x.span
          else report (.cannotAssignTo (← describe x)) x.span : Pass Unit).Mirrors ρ
        (do if inMap then report (.fieldOfMapElement e.text) (ρ.operand x).span
            else report (.cannotAssignTo (← describe (ρ.operand x))) (ρ.operand x).span : Pass Unit)
          d d' id := by
    intro inMap d d' hd
    cases inMap with
    | true => exact mirrors_report hd rfl rfl
    | false =>
      simp only [Bool.false_eq_true, if_false, mirrors_describe_bind, hd.describe]
      exact mirrors_report hd rfl rfl
  cases e with
  | selector n base sel =>
    unfold reportTarget
    simp only [pure_bind]
    exact (mirrors_evalValue h hc).bind fun y d d' _ hd _ => hrest _ d d' hd
  | _ => exact hrest false c c' h

lemma mirrors_storageType : (storageType e).Mirrors ρ (storageType e) c c' (Option.map ρ.type) := by
  refine ((mirrors_evalTarget h hc).safe (safe_evalTarget hc e.collects_false)).bind
    fun x d d' _ hd hx => ?_
  have hinvalid : some TypeId.invalid = Option.map ρ.type (some .invalid) := by simp
  rw [isFaulty_operand, operand_mode]
  split
  · exact .pure hd hinvalid .intro
  · have hreport : (do reportTarget e x; return some .invalid : Pass (Option TypeId)).Mirrors ρ
        (do reportTarget e (ρ.operand x); return some .invalid) d d' (Option.map ρ.type) :=
      (mirrors_reportTarget hd hx.2.1).next fun _ hf => .pure hf hinvalid .intro
    cases x.mode with
    | «variable» | mapIndex => exact .done hd rfl
    | _ => exact hreport

lemma mirrors_targetType : (targetType e).Mirrors ρ (targetType e) c c' (Option.map ρ.type) := by
  unfold targetType
  cases blank? e with
  | some i => exact (mirrors_recordDef h).next fun _ hd => .done hd rfl
  | none => exact mirrors_storageType h hc

/-- A value is assigned alike. One of an old type keeps an old type. -/
lemma mirrors_assignVar :
    (assignVar e x).Mirrors ρ (assignVar e (ρ.operand x)) c c' (Option.map ρ.type)
      fun r _ => x.Old ρ → ∀ u ∈ r, ¬ρ.NewType u := by
  unfold assignVar
  rw [isFaulty_operand]
  split
  · have huse := mirrors_useAll h hc (repeats_pending [e])
    exact huse.next fun _ hd => .pure hd rfl (by simp)
  · refine (mirrors_targetType h hc).next fun t hd => ?_
    by_cases hinvalid : t = some .invalid
    · rw [if_pos hinvalid, if_pos (map_type_eq_invalid.mpr hinvalid)]
      exact .pure hd rfl (by simp)
    · rw [if_neg hinvalid, if_neg (mt map_type_eq_invalid.mp hinvalid),
        Option.isNone_map]
      refine (mirrors_assignment hd).bind fun y f f' _ hf hy => .pure hf ?_ fun hx u hu => ?_
      · rw [operand_isInvalid]
        split <;> rfl
      · split at hu
        · cases hu
        · exact (hy hx).type u hu

lemma mirrors_assignTargets (hxs : ∀ x ∈ xs, x.Within c.store) :
    (assignTargets ls xs).Mirrors ρ (assignTargets ls (xs.map ρ.operand)) c c' id := by
  induction ls generalizing c c' xs with
  | nil => exact .done h rfl
  | cons l ls ih =>
    cases xs with
    | nil => exact .done h rfl
    | cons x xs =>
      simp only [forall_mem_cons] at hxs
      refine ((mirrors_assignVar h hc).safe (safe_assignVar hc hxs.1 l.collects_false)).bind
        fun first d d' hd hmirrored ha => ?_
      refine Mirrors.bind (ih hmirrored ha.2.1 fun y hy => (hxs.2 y hy).steps hd.steps)
        fun rest f f' _ hf _ => .pure hf ?_ .intro
      simp

omit hc in
lemma mirrors_markTargets : (markTargets ls).Mirrors ρ (markTargets ls) c c' id := by
  refine mirrors_forM_same h .intro fun e _ d d' _ hd _ => ?_
  cases e.unparen.ident? with
  | none => exact .done hd rfl
  | some i =>
    refine (mirrors_localVar? hd).next fun o hf => ?_
    exact mirrors_optionForM hf fun v _ => mirrors_markUsed hf

lemma mirrors_assignSingly (hxs : ∀ x ∈ xs, x.Within c.store) :
    (assignTargets ls xs >>= fun ok => if ok then pure () else markTargets ls).Mirrors ρ
      (assignTargets ls (xs.map ρ.operand) >>= fun ok => if ok then pure () else markTargets ls)
        c c' id := by
  refine (mirrors_assignTargets h hc hxs).next fun ok hd => ?_
  cases ok with
  | true => exact .done hd rfl
  | false => exact mirrors_markTargets hd

/-- Values are assigned alike, whatever they are assigned to. -/
lemma mirrors_assignVars {lhs rhs : List Expr} :
    (assignVars lhs rhs).Mirrors ρ (assignVars lhs rhs) c c' id := by
  refine (mirrors_values h hc (repeats_pending rhs)).bind fun r d d' hd hmirrored hr => ?_
  obtain ⟨xs, pair⟩ := r
  obtain ⟨hold, hclosed, hxs⟩ := hr
  have hinvalid : (xs.map ρ.operand).any (·.isInvalid) = xs.any (·.isInvalid) := any_map
  dsimp only [Prod.map, id_eq]
  rw [length_map, hinvalid]
  split
  · refine (mirrors_useAll hmirrored hclosed (repeats_pending lhs)).bind fun _ f f' _ hf _ => ?_
    split
    · exact .done hf rfl
    · exact mirrors_reportCounts hf rfl
  · cases pair with
    | false => exact mirrors_assignSingly hmirrored hclosed hxs
    | true =>
      -- only two values for two targets are dealt with together
      rcases lhs with _ | ⟨l, _ | ⟨m, _ | ⟨n, ls⟩⟩⟩
      any_goals exact mirrors_assignSingly hmirrored hclosed hxs
      rcases xs with _ | ⟨x, _ | ⟨y, _ | ⟨z, zs⟩⟩⟩
      any_goals exact mirrors_assignSingly hmirrored hclosed hxs
      simp only [forall_mem_cons] at hxs
      refine mirrors_pair (hold rfl y (by simp)) ((mirrors_assignVar hmirrored hclosed).safe
        (safe_assignVar hclosed hxs.1 l.collects_false)) fun f f' hf hmirroredf hclosedf => ?_
      exact (mirrors_assignVar hmirroredf hclosedf).safe
        (safe_assignVar hclosedf (hxs.2.1.steps hf.steps) m.collects_false)

end

end Pass

/-! ## Statements -/

/-- Inside a function whose signature and scope are new. -/
structure Checker.InFunction (ρ : Renumbering) (c : Checker) : Prop where
  scope : ∃ x, c.context.scope = some x ∧ ρ.NewScope x
  sig : ∃ t, c.context.sig = some t ∧ ρ.NewType t

lemma Checker.InFunction.onward {c d : Checker} (h : c.InFunction ρ) (hd : c.Onward d) :
    d.InFunction ρ := by
  constructor
  · rw [hd.context]
    exact h.scope
  · rw [hd.context]
    exact h.sig

lemma Store.Grown.newObject_of_find? {x : ScopeId} (hg : s.Grown ρ)
    (hx : ρ.NewScope x) (h : (s.scope x).find? name = some o) : ρ.NewObject o :=
  hg.bound x hx _ (mem_bindings_of_find? h)

lemma Store.Grown.newObject_of_mem_results
    (hg : s.Grown ρ) (ht : ρ.NewType t) (hsig : (s.type t).signature? = some g)
    (ho : o ∈ s.tupleVars g.results) : ρ.NewObject o := by
  have htype : s.type t = .signature g := by
    cases hty : s.type t <;> simp_all [Ty.signature?]
  have hmem := Ty.mem_objectRefs_of_mem_objectParts (mem_objectParts_of_mem_tupleVars ho)
  exact (hg.member _ (hg.results t g ht htype) o hmem).1

namespace Pass

variable {c c' : Checker} {x : ScopeId}

section

variable (h : c.Mirrored ρ c')
include h

lemma mirrors_checkArity {names : List Ident} {inits : List Expr} :
    (checkArity names inits isConst).Mirrors ρ (checkArity names inits isConst) c c' id := by
  unfold checkArity
  cases inits[names.length]? with
  | some extra => exact mirrors_report h rfl rfl
  | none =>
    cases names[inits.length]? with
    | none => exact .done h rfl
    | some i =>
      dsimp only
      split
      · exact mirrors_report h rfl rfl
      · exact .done h rfl

variable {os : List ObjectId}

lemma mirrors_declareAll (hx : ρ.NewScope x) (hos : ∀ o ∈ os, ρ.NewObject o) :
    (declareAll x visibleFrom is os).Mirrors ρ
      (declareAll (ρ.scope x) visibleFrom is (os.map ρ.object)) c c' id := by
  induction is generalizing c c' os with
  | nil => exact .done h rfl
  | cons i is ih =>
    cases os with
    | nil => exact .done h rfl
    | cons o os =>
      simp only [forall_mem_cons] at hos
      exact (mirrors_declare h hx hos.1).next fun _ hd => ih hd hos.2

variable {ts : List ShortTarget} {span : Span}

lemma mirrors_declareSpec (hinside : c.InFunction ρ) (hos : ∀ o ∈ os, ρ.NewObject o) :
    (declareSpec spec os).Mirrors ρ (declareSpec spec (os.map ρ.object)) c c' id := by
  obtain ⟨x, hx, hnew⟩ := hinside.scope
  simp only [declareSpec, declarationScope, bind_assoc, pure_bind, mirrors_current_bind, h.context,
    context, hx]
  exact mirrors_declareAll h hnew hos

variable (hc : c.Closed false)
include hc

lemma mirrors_initSeparately (hnew : ∀ v ∈ vs, ρ.NewObject v)
    (hvs : ∀ v ∈ vs, c.store.HasObject v) :
    (initSeparately untyped vs es).Mirrors ρ (initSeparately untyped (vs.map ρ.object) es) c c'
      id := by
  induction vs generalizing c c' es with
  | nil => exact .done h rfl
  | cons v vs ih =>
    simp only [forall_mem_cons] at hnew hvs
    have hlater : ∀ {d}, c.Onward d → ∀ w ∈ vs, d.store.HasObject w :=
      fun hd w hw => (hvs.2 w hw).steps hd.steps
    cases es with
    | nil =>
      cases untyped with
      | true =>
        refine ((mirrors_invalidateMissing h hnew.1).safe (safe_invalidateMissing hc hvs.1)).bind
          fun _ d d' hd hmirrored hclosed => ?_
        exact ih hmirrored hclosed.2.1 hnew.2 (hlater hd)
      | false => exact ih h hc hnew.2 hvs.2
    | cons e es =>
      refine (mirrors_evalValue h hc).bind fun x d d' hd hmirrored hx => ?_
      have hv := hvs.1.steps hd.steps
      refine ((mirrors_initVar hmirrored hnew.1).discard.safe
        (safe_initVar hx.1 hx.2 hv).discard).bind fun _ f f' hf hmirroredf hclosed => ?_
      exact ih hmirroredf hclosed.2.1 hnew.2 (hlater (hd.trans hf))

variable {values : List Expr}

lemma mirrors_initSpec (hnew : ∀ v ∈ vars, ρ.NewObject v)
    (hvars : ∀ v ∈ vars, c.store.HasObject v) :
    (initSpec untyped vars values).Mirrors ρ (initSpec untyped (vars.map ρ.object) values) c c'
      id := by
  unfold initSpec
  rw [length_map]
  split
  · exact mirrors_initVars h hc hnew hvars
  · exact mirrors_initSeparately h hc hnew hvars

omit hc in
lemma mirrors_declaredType {type : Option TypeExpr} {f : TypeExpr → Pass TypeId}
    (hf : ∀ e ∈ type, (f e).Mirrors ρ (f e) c c' ρ.type) :
    (type.mapM f).Mirrors ρ (type.mapM f) c c' (Option.map ρ.type) := by
  cases type with
  | none => exact .done h rfl
  | some e => exact (hf e rfl).next fun t hd => .done hd rfl

lemma mirrors_makeVars : (makeVars spec).Mirrors ρ (makeVars spec) c c' (map ρ.object) fun os _ =>
      ∀ o ∈ os, ρ.NewObject o := by
  have htype : (spec.type.mapM TypeExpr.resolve).Mirrors ρ (spec.type.mapM TypeExpr.resolve) c c'
      (Option.map ρ.type) :=
    mirrors_declaredType h fun e _ => (mirrors_resolve e h hc).trivial
  refine (htype.safe (safe_declaredType hc fun e _ => safe_resolve hc e e.collects_false)).bind
    fun declared d d' _ hd hdeclared => ?_
  rw [mirrors_current_bind, hd.package]
  have hvars : (spec.names.mapM fun i => newVar i.span (some d.package) i.text declared).Mirrors ρ
      (spec.names.mapM fun i => newVar i.span (some d.package) i.text (declared.map ρ.type)) d d'
        (map ρ.object) fun os _ => True ∧ ∀ o ∈ os, ρ.NewObject o :=
    mirrors_mapM_same hd .intro fun i _ f f' _ hf _ =>
      (mirrors_newVar hf).mono fun o _ _ ho => ⟨.intro, ho.1⟩
  have hsafe : (spec.names.mapM fun i => newVar i.span (some d.package) i.text declared).Safe false d
      fun os s => ∀ o ∈ os, s.HasObject o :=
    safe_mapM hdeclared.2.1 (fun _ {_ _} hf ho => ho.steps hf)
      fun i _ f hf hclosed => safe_newVar hclosed fun t ht => (hdeclared.2.2 t ht).steps hf
  refine (hvars.safe hsafe).bind fun vars f f' _ hf hmade => ?_
  obtain ⟨⟨-, hnew⟩, hclosed, hin⟩ := hmade
  rw [Option.isNone_map]
  refine (mirrors_initSpec hf hclosed hnew hin).next fun _ hg => ?_
  split
  · exact (mirrors_checkArity hg).next fun _ hk => .pure hk rfl hnew
  · exact .pure hg rfl hnew

lemma mirrors_varSpec (hinside : c.InFunction ρ) :
    (varSpec spec).Mirrors ρ (varSpec spec) c c' id :=
  (mirrors_makeVars h hc).bind fun _ _ _ hd hmirrored hos =>
    mirrors_declareSpec hmirrored (hinside.onward hd) hos

lemma mirrors_constType {type : TypeExpr} :
    (constType type).Mirrors ρ (constType type) c c' ρ.type := by
  refine (mirrors_resolve type h hc).next fun t hd => ?_
  simp only [mirrors_entities_bind, hd.shifted.isConstType hd.ordered,
    hd.shifted.isInvalid hd.ordered, hd.typeText]
  split
  · exact .done hd rfl
  · split
    · exact .pure hd type_invalid.symm .intro
    · exact mirrors_report_return hd type_invalid.symm .intro

lemma mirrors_initConsts (hdeclared : ∀ t ∈ declared, c.store.HasType t) :
    (initConsts declared is es).Mirrors ρ (initConsts (declared.map ρ.type) is es) c c'
      (map ρ.object) fun os _ => ∀ o ∈ os, ρ.NewObject o := by
  induction is generalizing c c' es with
  | nil => exact .pure h rfl (by simp)
  | cons i is ih =>
    simp only [initConsts, mirrors_current_bind, h.package]
    refine ((mirrors_newConst h).safe (safe_newConst hc hdeclared)).bind
      fun o d d' hd hmirrored ho => ?_
    obtain ⟨⟨hnew, -⟩, hclosed, hin⟩ := ho
    have hrest : ∀ f f', c.Onward f → f.Mirrored ρ f' → f.Closed false →
        (do return o :: (← initConsts declared is es.tail) : Pass (List ObjectId)).Mirrors ρ
          (do return ρ.object o :: (← initConsts (declared.map ρ.type) is es.tail)) f f'
            (map ρ.object) fun os _ => ∀ o ∈ os, ρ.NewObject o := by
      intro f f' hf hmirroredf hclosedf
      refine Mirrors.bind (ih hmirroredf hclosedf fun t ht => (hdeclared t ht).steps hf.steps)
        fun os g g' _ hg hos => .pure hg rfl ?_
      simpa using ⟨hnew, hos⟩
    by_cases hinvalid : declared = some .invalid
    · rw [if_pos hinvalid, if_pos (map_type_eq_invalid.mpr hinvalid)]
      exact hrest d d' hd hmirrored hclosed
    · rw [if_neg hinvalid, if_neg (mt map_type_eq_invalid.mp hinvalid)]
      cases es with
      | nil =>
        simp only [pure_bind]
        refine ((mirrors_initConst hmirrored hnew).safe
          (safe_initConst hclosed (by simp [Operand.Within]) hin)).bind
            fun _ f f' hf hmirroredf hclosedf => ?_
        exact hrest f f' (hd.trans hf) hmirroredf hclosedf.2.1
      | cons e es =>
        refine (mirrors_evalValue hmirrored hclosed).bind fun x f f' hf hmirroredf hx => ?_
        refine ((mirrors_initConst hmirroredf hnew).safe
          (safe_initConst hx.1 hx.2 (hin.steps hf.steps))).bind
            fun _ g g' hg hmirroredg hclosedg => ?_
        exact hrest g g' ((hd.trans hf).trans hg) hmirroredg hclosedg.2.1

lemma mirrors_makeConsts :
    (makeConsts spec).Mirrors ρ (makeConsts spec) c c' (map ρ.object) fun os _ =>
      ∀ o ∈ os, ρ.NewObject o := by
  have htype : (spec.type.mapM constType).Mirrors ρ (spec.type.mapM constType) c c'
      (Option.map ρ.type) :=
    mirrors_declaredType h fun e _ => mirrors_constType h hc
  refine (htype.safe (safe_declaredType hc fun e _ => safe_constType hc e.collects_false)).bind
    fun declared d d' _ hd hdeclared => ?_
  refine (mirrors_initConsts hd hdeclared.2.1 hdeclared.2.2).bind fun os f f' _ hf hos => ?_
  exact (mirrors_checkArity hf).next fun _ hg => .pure hg rfl hos

lemma mirrors_constSpec (hinside : c.InFunction ρ) :
    (constSpec spec).Mirrors ρ (constSpec spec) c c' id :=
  (mirrors_makeConsts h hc).bind fun _ _ _ hd hmirrored hos =>
    mirrors_declareSpec hmirrored (hinside.onward hd) hos

omit h hc

/-- A target whose variable is new, if it has one. -/
def ShortTarget.New (ρ : Renumbering) : ShortTarget → Prop
  | .fresh o | .existing o => ρ.NewObject o
  | .wrong => True

include h

/-- A name in a new scope stands for a new variable. -/
lemma mirrors_shortName (hx : ρ.NewScope x) :
    (shortName x e i).Mirrors ρ (shortName (ρ.scope x) e i) c c' ρ.target fun t _ =>
      ShortTarget.New ρ t := by
  simp only [shortName, mirrors_current_bind, h.shifted.find?, h.package]
  cases hfind : (c.store.scope x).find? i.text with
  | none =>
    refine Mirrors.bind ((mirrors_newVar h).mono fun o _ _ ho => ho.1) fun o d d' _ hd ho => ?_
    exact (mirrors_recordDef hd).next fun _ hf => .pure hf rfl ho
  | some other =>
    have hnew : ρ.NewObject other := h.grown.newObject_of_find? hx hfind
    simp only [Option.map_some, h.shifted.isVar]
    refine (mirrors_recordUse h).next fun _ hd => ?_
    split
    · exact .pure hd rfl hnew
    · exact mirrors_report_return hd rfl trivial

lemma mirrors_shortTargets (hc : c.Closed false) (hx : ρ.NewScope x) :
    (shortTargets x seen es).Mirrors ρ (shortTargets (ρ.scope x) seen es) c c' (map ρ.target)
      fun ts _ => ∀ t ∈ ts, ShortTarget.New ρ t := by
  induction es generalizing c c' seen with
  | nil =>
    unfold shortTargets
    exact .pure h rfl (by simp)
  | cons e es ih =>
    have hrest : ∀ d d' seen t, d.Mirrored ρ d' → d.Closed false → ShortTarget.New ρ t →
        (do return t :: (← shortTargets x seen es) : Pass (List ShortTarget)).Mirrors ρ
          (do return ρ.target t :: (← shortTargets (ρ.scope x) seen es)) d d' (map ρ.target)
            fun ts _ => ∀ t ∈ ts, ShortTarget.New ρ t := by
      intro d d' seen t hd hclosed ht
      refine Mirrors.bind (ih hd hclosed) fun ts f f' _ hf hts => .pure hf rfl ?_
      simpa using ⟨ht, hts⟩
    have hwrong : ∀ {d d' seen p}, d.Mirrored ρ d' → d.Closed false →
        (do report p e.span
            return .wrong :: (← shortTargets x seen es) : Pass (List ShortTarget)).Mirrors ρ
          (do report p e.span
              return .wrong :: (← shortTargets (ρ.scope x) seen es)) d d' (map ρ.target)
            fun ts _ => ∀ t ∈ ts, ShortTarget.New ρ t := by
      intro d d' seen p hd hclosed
      refine ((mirrors_report hd rfl rfl).safe (safe_report hclosed)).bind
        fun _ f f' _ hf hreported => ?_
      exact hrest f f' seen .wrong hf hreported.2.1 trivial
    unfold shortTargets
    cases e.ident? with
    | none =>
      have huse := mirrors_useAll h hc (repeats_pending [e])
      exact huse.bind fun _ d d' _ hd hclosed => hwrong hd hclosed
    | some i =>
      dsimp only
      split
      · exact hwrong h hc
      · refine ((mirrors_shortName h hx).safe (safe_shortName hc)).bind fun t d d' _ hd ht => ?_
        exact hrest d d' _ t hd ht.2.1 ht.1

lemma mirrors_targetVars (hts : ∀ t ∈ ts, ShortTarget.New ρ t) :
    (targetVars ts es).Mirrors ρ (targetVars (ts.map ρ.target) es) c c' (map ρ.object)
      fun os _ => ∀ o ∈ os, ρ.NewObject o := by
  induction ts generalizing c c' es with
  | nil => exact .pure h rfl (by simp)
  | cons t ts ih =>
    cases es with
    | nil => exact .pure h rfl (by simp)
    | cons e es =>
      simp only [forall_mem_cons] at hts
      have hrest : ∀ o d d', d.Mirrored ρ d' → ρ.NewObject o →
          (do return o :: (← targetVars ts es) : Pass (List ObjectId)).Mirrors ρ
            (do return ρ.object o :: (← targetVars (ts.map ρ.target) es)) d d' (map ρ.object)
              fun os _ => ∀ o ∈ os, ρ.NewObject o := by
        intro o d d' hd ho
        refine Mirrors.bind (ih hd hts.2) fun os f f' _ hf hos => .pure hf rfl ?_
        simpa using ⟨ho, hos⟩
      unfold targetVars
      cases t with
      | fresh o | existing o => exact hrest o c c' h hts.1
      | wrong =>
        simp only [map_cons, target, mirrors_current_bind, h.package]
        refine Mirrors.bind ((mirrors_newVar h).mono fun o _ _ ho => ho.1) fun o d d' _ hd ho => ?_
        exact hrest o d d' hd ho

lemma newVars_map : newVars c'.store (ts.map ρ.target) = (newVars c.store ts).map ρ.object := by
  unfold newVars
  rw [filterMap_map, map_filterMap]
  refine filterMap_congr fun t _ => ?_
  cases t with
  | fresh o =>
    simp only [Function.comp_apply, target, h.shifted.isBlank]
    split <;> rfl
  | existing o => rfl
  | wrong => rfl

omit h in
lemma newObject_of_mem_newVars (hts : ∀ t ∈ ts, ShortTarget.New ρ t)
    (ho : o ∈ newVars s ts) : ρ.NewObject o := by
  obtain ⟨t, ht, heq⟩ := mem_filterMap.mp ho
  cases t with
  | fresh o' =>
    dsimp only at heq
    split at heq
    · cases heq
    · cases heq
      exact hts _ ht
  | existing o' => cases heq
  | wrong => cases heq

variable {lhs : List Expr}

lemma mirrors_shortInit (hc : c.Closed false) (hx : ρ.NewScope x) :
    (shortInit x lhs rhs).Mirrors ρ (shortInit (ρ.scope x) lhs rhs) c c'
      (Prod.map (map ρ.target) (map ρ.object)) fun r _ => ∀ o ∈ r.2, ρ.NewObject o := by
  refine ((mirrors_shortTargets h hc hx).safe (safe_shortTargets hc (exprsCollect_false lhs))).bind
    fun targets d d' _ hd htargets => ?_
  obtain ⟨hnew, hclosed, hwithin⟩ := htargets
  refine ((mirrors_targetVars hd hnew).safe (safe_targetVars hclosed hwithin)).bind
    fun vars f f' _ hf hvars => ?_
  rw [mirrors_entities_bind, newVars_map hf]
  refine (mirrors_initVars hf hvars.2.1 hvars.1 hvars.2.2).next fun _ hg => ?_
  exact .pure hg rfl fun o ho => newObject_of_mem_newVars hnew ho

omit h in
lemma any_map_target (hp : ∀ t, p (ρ.target t) = p t) : (ts.map ρ.target).any p = ts.any p := by
  rw [any_map]
  exact congrArg ts.any (funext hp)

lemma mirrors_declareShort (hx : ρ.NewScope x)
    (hnew : ∀ o ∈ new, ρ.NewObject o) : (declareShort x span lhs rhs targets new).Mirrors ρ
      (declareShort (ρ.scope x) span lhs rhs (targets.map ρ.target) (new.map ρ.object)) c c' id := by
  unfold declareShort
  rw [any_map_target (fun t => by cases t <;> rfl), isEmpty_map, length_map]
  split
  · exact mirrors_report h rfl rfl
  · refine (mirrors_logEvent h).next fun _ hd => ?_
    exact mirrors_forM hd .intro fun v hv f f' _ hf _ => mirrors_declare hf hx (hnew v hv)

lemma mirrors_exprStmt (hc : c.Closed false) : (exprStmt e).Mirrors ρ (exprStmt e) c c' id := by
  refine ((repeats_eval e).run h hc).next fun r hd => ?_
  obtain ⟨x, cls⟩ := r
  dsimp only [evaluated]
  rw [operand_mode]
  cases x.mode with
  | invalid => exact .done hd rfl
  | typeExpr =>
    simp only [mirrors_describe_bind, hd.describe]
    exact mirrors_report hd rfl rfl
  | _ =>
    cases cls with
    | statement => exact .done hd rfl
    | _ =>
      simp only [mirrors_describe_bind, hd.describe]
      exact mirrors_report hd rfl rfl

lemma mirrors_bareReturn :
    (bareReturn span results).Mirrors ρ (bareReturn span (results.map ρ.object)) c c' id := by
  refine mirrors_forM h .intro fun r _ d d' _ hd _ => ?_
  simp only [mirrors_entities_bind, hd.shifted.name]
  refine (mirrors_lookup hd).next fun other hf => ?_
  cases other with
  | none => exact .done hf rfl
  | some other =>
    simp only [Option.map_some, hd.shifted.span]
    by_cases hsame : other = r
    · rw [if_pos hsame, if_pos (object_inj.mpr hsame)]
      exact .done hf rfl
    · rw [if_neg hsame, if_neg (mt object_inj.mp hsame)]
      exact mirrors_emit hf

/-- What is returned initializes the results of the new signature, which are new. -/
lemma mirrors_returnStmt (hc : c.Closed false) (hinside : c.InFunction ρ) :
    (returnStmt span values).Mirrors ρ (returnStmt span values) c c' id := by
  obtain ⟨t, ht, hnew⟩ := hinside.sig
  have hresults : (c'.store.type (ρ.type t)).signature?.elim [] (fun g => c'.store.tupleVars g.results) =
      ((c.store.type t).signature?.elim [] fun g => c.store.tupleVars g.results).map ρ.object := by
    rw [h.shifted.type, signature?_ty]
    cases (c.store.type t).signature? with
    | none => rfl
    | some g => exact h.shifted.tupleVars g.results
  have hnamed : ∀ os : List ObjectId,
      ((os.map ρ.object).head?.any fun r => !(c'.store.object r).name.isEmpty) =
        os.head?.any fun r => !(c.store.object r).name.isEmpty := by
    intro os
    cases os with
    | nil => rfl
    | cons o os => simp [h.shifted.name]
  simp only [returnStmt, mirrors_current_bind, h.context, context, ht, Option.map_some,
    hresults, hnamed, isEmpty_map]
  have hmade : ∀ o ∈ (c.store.type t).signature?.elim [] fun g => c.store.tupleVars g.results,
      ρ.NewObject o ∧ c.store.HasObject o := by
    intro o ho
    cases hsig : (c.store.type t).signature? with
    | none => simp [hsig] at ho
    | some g =>
      rw [hsig] at ho
      exact ⟨h.grown.newObject_of_mem_results hnew hsig ho, hc.store.hasObject_of_mem_tupleVars ho⟩
  revert hmade
  generalize (c.store.type t).signature?.elim [] (fun g => c.store.tupleVars g.results) = os
  intro hmade
  by_cases hbare : (values.isEmpty && os.head?.any fun r => !(c.store.object r).name.isEmpty)
  · rw [if_pos hbare, if_pos hbare]
    exact mirrors_bareReturn h
  · rw [if_neg hbare, if_neg hbare]
    by_cases hsome : (!values.isEmpty || !os.isEmpty)
    · rw [if_pos hsome, if_pos hsome]
      exact mirrors_initVars h hc (fun o ho => (hmade o ho).1) fun o ho => (hmade o ho).2
    · rw [if_neg hsome, if_neg hsome]
      exact .done h rfl

end

/-- A check of bodies that is safe, and does the same from two states that differ in their numbers. -/
structure RepeatsRun (ρ : Renumbering) (run : Deferred → Pass Unit) : Prop where
  safe : SafeRun false run
  mirrors : ∀ x d d', d.Mirrored ρ d' → d.Closed false →
    x.Within false d.store → ρ.NewType x.sig → ρ.NewScope x.scope →
    (run x).Mirrors ρ (run (ρ.deferred x)) d d' id

section

variable {run : Deferred → Pass Unit}

lemma mirrors_runDeferred_of_repeats (hrun : RepeatsRun ρ run) (h : c.Mirrored ρ c')
    (hc : c.Closed false) :
    (runDeferred run top).Mirrors ρ (runDeferred run top) c c' id fun _ d => d.Closed false := by
  refine ((mirrors_runDeferred h hc fun x d d' _ hclosed hd hx hsig hscope => ?_).safe
    (safe_runDeferred hc hrun.safe)).mono fun _ _ _ hr => hr.2.1
  exact ((hrun.mirrors x d d' hd hclosed hx hsig hscope).safe
    (hrun.safe x d hclosed hx)).mono fun _ _ _ hr => hr.2.1

lemma mirrors_shortDecl {lhs rhs : List Expr} (hrun : RepeatsRun ρ run)
    (h : c.Mirrored ρ c') (hc : c.Closed false) (hinside : c.InFunction ρ) :
    (shortDecl run span lhs rhs).Mirrors ρ (shortDecl run span lhs rhs) c c' id := by
  obtain ⟨x, hx, hnew⟩ := hinside.scope
  simp only [shortDecl, deferredCount, bind_assoc, pure_bind, mirrors_current_bind, h.context,
    context, hx, Option.map_some, h.deferred, length_map]
  refine ((mirrors_shortInit h hc hnew).safe (safe_shortInit hc (exprsCollect_false lhs)
    (exprsCollect_false rhs))).bind fun r d d' _ hd hr => ?_
  refine (mirrors_runDeferred_of_repeats hrun hd hr.2.1).next fun _ hf => ?_
  exact mirrors_declareShort hf hnew hr.1

lemma mirrors_observeStmt {s : Stmt} (hrun : RepeatsRun ρ run)
    (h : c.Mirrored ρ c') (hc : c.Closed false)
    (hsafe : ∀ d, d.Closed false → m.Safe false d)
    (hm : ∀ d d', c.Onward d → d.Mirrored ρ d' → d.Closed false → m.Mirrors ρ m d d' id) :
    (observeStmt run s m).Mirrors ρ (observeStmt run s m) c c' id := by
  refine ((mirrors_note h).safe (safe_note hc)).bind fun _ d d' hd hmd hcd => ?_
  refine ((mirrors_traceLine hmd).safe (safe_traceLine hcd.2.1)).bind fun _ f f' hf hmf hcf => ?_
  refine ((mirrors_indentTrace hmf).safe (safe_indentTrace hcf.2.1)).bind fun _ g g' hg hmg hcg => ?_
  simp only [deferredCount, bind_assoc, pure_bind, mirrors_current_bind, hmg.deferred,
    length_map]
  have honward := (hd.trans hf).trans hg
  refine ((hm g g' honward hmg hcg.2.1).safe (hsafe g hcg.2.1)).bind fun _ k k' _ hmk hck => ?_
  refine (mirrors_runDeferred_of_repeats hrun hmk hck.2.1).next fun _ hml => ?_
  exact (mirrors_unindentTrace hml).next fun _ hmn => mirrors_note hmn

mutual

/-- A statement inside a new function does the same from states that differ in their numbers. -/
theorem mirrors_act (s : Stmt) (hrun : RepeatsRun ρ run) {c c' : Checker} (h : c.Mirrored ρ c')
    (hc : c.Closed false) (hinside : c.InFunction ρ) : (s.act run).Mirrors ρ (s.act run) c c' id := by
  cases s with
  | empty span => exact .done h rfl
  | block span body => exact mirrors_enterBlock body hrun h hc hinside
  | var span specs =>
    refine (mirrors_forM_same (P := fun f => f.Closed false) h hc fun spec _ d d' hd hmd hcd => ?_).trivial
    exact ((mirrors_varSpec hmd hcd (hinside.onward hd)).safe
      (safe_varSpec hcd (specCollects_false spec))).mono fun _ _ _ hr => hr.2.1
  | const span specs =>
    refine (mirrors_forM_same (P := fun f => f.Closed false) h hc fun spec _ d d' hd hmd hcd => ?_).trivial
    exact ((mirrors_constSpec hmd hcd (hinside.onward hd)).safe
      (safe_constSpec hcd (specCollects_false spec))).mono fun _ _ _ hr => hr.2.1
  | short span lhs rhs => exact mirrors_shortDecl hrun h hc hinside
  | assign span lhs rhs => exact mirrors_assignVars h hc
  | ret span values => exact mirrors_returnStmt h hc hinside
  | expr span e => exact mirrors_exprStmt h hc

theorem mirrors_enterBlock (body : BlockOf Stmt) (hrun : RepeatsRun ρ run) {c c' : Checker}
    (h : c.Mirrored ρ c') (hc : c.Closed false) (hinside : c.InFunction ρ) :
    (enterBlock run body).Mirrors ρ (enterBlock run body) c c' id := by
  cases body with
  | mk stmts span =>
    simp only [enterBlock]
    refine mirrors_enclosed h hc fun x d d' hd hcontext hx hcd hmd => ?_
    refine (mirrors_checkStmts stmts hrun hmd hcd ⟨⟨x, ?_, hx⟩, ?_⟩).trivial
    · rw [hcontext]
    · rw [hcontext]
      exact hinside.sig

theorem mirrors_checkStmts (ss : List Stmt) (hrun : RepeatsRun ρ run) {c c' : Checker}
    (h : c.Mirrored ρ c') (hc : c.Closed false) (hinside : c.InFunction ρ) :
    (checkStmts run ss).Mirrors ρ (checkStmts run ss) c c' id fun _ d => d.Closed false := by
  cases ss with
  | nil =>
    simp only [checkStmts]
    exact .pure h rfl hc
  | cons s ss =>
    simp only [checkStmts, Stmt.check_eq]
    have hsafe (d : Checker) (hd : d.Closed false) := safe_act hd hrun.safe s s.collects_false
    refine ((mirrors_observeStmt hrun h hc hsafe fun d d' hd hmd hcd => mirrors_act s hrun hmd hcd
      (hinside.onward hd)).safe (safe_observeStmt hc hrun.safe hsafe)).bind fun _ d d' hd hmd hcd => ?_
    exact mirrors_checkStmts ss hrun hmd hcd.2.1 (hinside.onward hd)

end

end

end Pass

end GoCheck
