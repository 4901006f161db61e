import GoCheck.Proofs.Configuration
import GoCheck.Proofs.Isolation.Statements
import GoCheck.Proofs.Usage.Unused

/-!
# Function checks are isolated

A check of a function leaves behind types, objects and scopes, but those that were there before look
as they did. So a second check finds the same state, with other numbers for what it will make, and
reports the same.
-/

namespace GoCheck

open List Ty Renumbering Store

variable {ρ : Renumbering}

namespace Store

variable {s s' : Store} {x : ScopeId}

namespace Shifted

variable (h : s.Shifted ρ s')
include h

lemma isUsed (ho : ρ.NewObject o) : (s'.object (ρ.object o)).isUsed = (s.object o).isUsed := by
  unfold Object.isUsed
  rw [h.entity o ho]

lemma unusedHere (hg : s.Grown ρ) (hx : ρ.NewScope x) :
    s'.unusedHere (ρ.scope x) = (s.unusedHere x).map ρ.object := by
  have hunused : ((s'.scope (ρ.scope x)).bindings.map (·.2)).filter (fun o =>
        (s'.object o).isVar && !(s'.object o).isUsed) =
      (((s.scope x).bindings.map (·.2)).filter fun o =>
        (s.object o).isVar && !(s.object o).isUsed).map ρ.object := by
    rw [h.bindings, map_map, filter_map, filter_map, map_map]
    refine congrArg (List.map _) (filter_congr fun b hb => ?_)
    simp only [Function.comp_apply, h.isVar, h.isUsed (hg.bound x hx b hb)]
  simp only [Store.unusedHere, hunused]
  refine (map_mergeSort fun a _ b _ => ?_).symm
  rw [h.span, h.span]

lemma unusedWithin (hg : s.Grown ρ) (hx : ρ.NewScope x) (n : Nat) :
    s'.unusedWithin n (ρ.scope x) = (s.unusedWithin n x).map ρ.object := by
  induction n generalizing x with
  | zero => rfl
  | succ n ih =>
    simp only [unusedWithin, h.unusedHere hg hx, h.children x hx, filter_map,
      flatMap_map, map_append, map_flatMap, Function.comp_def, h.isFuncScope]
    congr 1
    refine flatMap_congr fun y hy => ih ?_
    exact le_of_lt (lt_of_le_of_lt hx (hg.child x hx y (mem_filter.mp hy).1))

lemma unusedVars (hg : s.Grown ρ) (hx : ρ.NewScope x) :
    s'.unusedVars (ρ.scope x) = (s.unusedVars x).map ρ.object := by
  have hinner : ∀ x, ρ.NewScope x → ∀ y ∈ (s.scope x).children, ρ.NewScope y ∧ x.index < y.index :=
    fun x hx y hy => ⟨le_of_lt (lt_of_le_of_lt hx (hg.child x hx y hy)), hg.child x hx y hy⟩
  unfold Store.unusedVars
  rw [h.unusedWithin hg hx, h.scopes_size, unusedWithin_eq hinner hx (n := s.scopes.size)]
  · omega
  · omega

end Shifted

end Store

namespace Pass

variable {c : Checker}

lemma mirrors_checkReturn (h : c.Mirrored ρ c') :
    (checkReturn sig body).Mirrors ρ (checkReturn (ρ.type sig) body) c c' id := by
  have hresults : ((c'.store.type (ρ.type sig)).signature?.any fun g =>
        !(c'.store.tupleVars g.results).isEmpty) =
      (c.store.type sig).signature?.any fun g => !(c.store.tupleVars g.results).isEmpty := by
    rw [h.shifted.type, Renumbering.signature?_ty]
    cases (c.store.type sig).signature? with
    | none => rfl
    | some g => simp [Renumbering.signature, h.shifted.tupleVars]
  simp only [checkReturn, mirrors_entities_bind, hresults]
  split
  · exact mirrors_report h rfl rfl
  · exact .done h rfl

lemma mirrors_checkUsage (h : c.Mirrored ρ c') (hx : ρ.NewScope x) :
    (checkUsage x).Mirrors ρ (checkUsage (ρ.scope x)) c c' id := by
  simp only [checkUsage, mirrors_current_bind, h.config, h.shifted.unusedVars h.grown hx]
  split
  · refine mirrors_forM h .intro fun o _ d d' _ hd _ => ?_
    rw [h.shifted.name, h.shifted.span]
    exact mirrors_report hd rfl rfl
  · exact .done h rfl

lemma mirrors_functionBody {x : Deferred} {run : Deferred → Pass Unit} (title : String)
    (hrun : RepeatsRun ρ run) (h : c.Mirrored ρ c') (hc : c.Closed false)
    (hx : x.Within false c.store) (hsig : ρ.NewType x.sig) (hscope : ρ.NewScope x.scope) :
    (functionBody run title x).Mirrors ρ (functionBody run title (ρ.deferred x)) c c' id := by
  refine ((mirrors_traceLine h).safe (safe_traceLine hc)).bind fun _ d d' _ hmd hcd => ?_
  obtain ⟨-, hclosed, hstore⟩ := hcd
  have hcontext : ({ scope := some x.scope, sig := some x.sig } : Context).Within d.store := by
    rw [hstore]
    constructor
    · rintro _ ⟨⟩
      exact hx.scope
    · rintro _ ⟨⟩
      exact hx.sig
  refine mirrors_within hmd rfl (fun e' he => ?_) fun _ {_ _} _ _ hQ => hQ
  have hinside : Checker.InFunction ρ
      { d with context := { scope := some x.scope, sig := some x.sig } } :=
    ⟨⟨x.scope, rfl, hscope⟩, x.sig, rfl, hsig⟩
  refine (mirrors_checkStmts x.body.stmts hrun he (safe_move hclosed hcontext).closed hinside).next
    fun _ hf => ?_
  exact (mirrors_checkReturn hf).next fun _ hg => mirrors_checkUsage hg hscope

lemma repeatsRun_literalBody (n : Nat) : RepeatsRun ρ (literalBody n) := by
  induction n with
  | zero => exact ⟨safeRun_literalBody 0, fun x d d' hd _ _ _ _ => .done hd rfl⟩
  | succ n ih =>
    refine ⟨safeRun_literalBody (n + 1), fun x d d' hd hclosed hx hsig hscope => ?_⟩
    refine ((mirrors_note hd).safe (safe_note hclosed)).bind fun _ f f' _ hf hcf => ?_
    obtain ⟨-, hclosed', hstore⟩ := hcf
    refine (mirrors_functionBody _ ih hf hclosed' (hstore ▸ hx) hsig hscope).next
      fun _ hg => mirrors_note hg

lemma repeatsRun_checkLiteral : RepeatsRun ρ checkLiteral where
  safe := safeRun_checkLiteral
  mirrors := fun x => (repeatsRun_literalBody (blockDepth x.body + 1)).mirrors x

lemma mirrors_bodyIn {scope : ScopeId} (h : c.Mirrored ρ c') (hc : c.Closed false)
    (hsig : ρ.NewType sig) (hsig' : c.store.HasType sig) (hscope : ρ.NewScope scope)
    (hscope' : c.store.HasScope scope) :
    (bodyIn sig scope body).Mirrors ρ (bodyIn (ρ.type sig) (ρ.scope scope) body) c c' id := by
  have hx : (⟨sig, scope, body⟩ : Deferred).Within false c.store :=
    ⟨hsig', hscope', blockCollects_false body⟩
  refine ((mirrors_functionBody "<function>" repeatsRun_checkLiteral h hc hx hsig
    hscope).safe (safe_functionBody hc safeRun_checkLiteral hx)).bind fun _ d d' _ hd hcd => ?_
  exact (mirrors_runDeferred_of_repeats repeatsRun_checkLiteral hd hcd.2.1).trivial

/-- A whole function does the same from two states that differ in their numbers. -/
lemma mirrors_function {sig : FuncSig} (h : c.Mirrored ρ c') (hc : c.Closed false) :
    (function sig body).Mirrors ρ (function sig body) c c' ρ.type := by
  have hcontext : ({ c.context with scope := some c.packageScope } : Context).Within c.store := by
    refine ⟨?_, hc.context.sig⟩
    rintro _ ⟨⟩
    exact hc.hasScope_packageScope
  have hsame : ({ c'.context with scope := some c'.packageScope } : Context) =
      ρ.context { c.context with scope := some c.packageScope } := by
    rw [h.packageScope hc, h.context]
    rfl
  simp only [function, mirrors_current_bind]
  have hsig : (within { c.context with scope := some c.packageScope } (resolveSig sig)).Mirrors ρ
      (within { c'.context with scope := some c'.packageScope } (resolveSig sig)) c c'
      (Prod.map ρ.type ρ.scope) fun r _ => ρ.NewType r.1 ∧ ρ.NewScope r.2 :=
    mirrors_within h hsame
      (fun d' hd => (mirrors_resolveSig sig hd (safe_move hc hcontext).closed).mono
        fun _ _ _ hr => ⟨hr.1, hr.2.1⟩)
      fun _ {_ _} _ _ hQ => hQ
  have hsafe : (within { c.context with scope := some c.packageScope } (resolveSig sig)).Safe false c
      fun r s => s.HasType r.1 ∧ s.HasScope r.2 :=
    safe_within hc hcontext (fun d _ hd => (safe_resolveSig hd sig (sigCollects_false sig)))
      fun r {_ _} hsteps hr => ⟨hr.1.steps hsteps, hr.2.steps hsteps⟩
  refine (hsig.safe hsafe).bind fun r d d' _ hd hr => ?_
  obtain ⟨⟨hnewType, hnewScope⟩, hclosed, hhasType, hhasScope⟩ := hr
  refine (mirrors_bodyIn hd hclosed hnewType hhasType hnewScope hhasScope).next
    fun _ he => .done he rfl

end Pass

/-! ## Sessions -/

variable {c : Checker}

namespace Renumbering

lemma map_type_of_old {ts : List TypeId} (h : ∀ t ∈ ts, ¬ρ.NewType t) : ts.map ρ.type = ts :=
  (map_congr_left fun t ht => type_of_not_new (h t ht)).trans (map_id' ts)

lemma map_object_of_old {os : List ObjectId} (h : ∀ o ∈ os, ¬ρ.NewObject o) :
    os.map ρ.object = os :=
  (map_congr_left fun o ho => object_of_not_new (h o ho)).trans (map_id' os)

lemma option_map_type_of_old {ot : Option TypeId} (h : ∀ t ∈ ot, ¬ρ.NewType t) :
    ot.map ρ.type = ot := by
  cases ot with
  | none => rfl
  | some t => exact congrArg some (type_of_not_new (h t rfl))

lemma option_map_scope_of_old {ox : Option ScopeId} (h : ∀ x ∈ ox, ¬ρ.NewScope x) :
    ox.map ρ.scope = ox := by
  cases ox with
  | none => rfl
  | some x => exact congrArg some (scope_of_not_new (h x rfl))

/-- A type that is made of old types and objects stays as it is. -/
lemma ty_of_old {a : Ty} (htypes : ∀ t ∈ a.typeRefs, ¬ρ.NewType t)
    (hobjects : ∀ o ∈ a.objectRefs, ¬ρ.NewObject o) : ρ.ty a = a := by
  cases a with
  | basic k => rfl
  | array n elem | slice elem | chan dir elem =>
    simp [ty, type_of_not_new (htypes elem (by simp [typeRefs]))]
  | struct fields => exact congrArg struct (map_object_of_old hobjects)
  | pointer base => simp [ty, type_of_not_new (htypes base (by simp [typeRefs]))]
  | tuple vars => exact congrArg tuple (map_object_of_old hobjects)
  | signature g =>
    have hparams := type_of_not_new (htypes g.params (by simp [typeRefs]))
    have hresults := type_of_not_new (htypes g.results (by simp [typeRefs]))
    have hothers : g.typeParams.map ρ.type = g.typeParams :=
      map_type_of_old fun t ht => htypes t (by simp [typeRefs, ht])
    simp [ty, signature, hparams, hresults, hothers]
  | interface i =>
    have hterms : i.terms.map (·.map ρ.type) = i.terms := by
      cases hi : i.terms with
      | none => rfl
      | some ts => exact congrArg some (map_type_of_old fun t ht => htypes t (by simp [typeRefs, hi, ht]))
    have hmethods : i.methods.map ρ.object = i.methods := map_object_of_old hobjects
    simp [ty, interface, hterms, hmethods]
  | map key elem =>
    have hkey := type_of_not_new (htypes key (by simp [typeRefs]))
    have helem := type_of_not_new (htypes elem (by simp [typeRefs]))
    simp [ty, hkey, helem]
  | named n =>
    have hunder := type_of_not_new (htypes n.underlying (by simp [typeRefs]))
    have hname := object_of_not_new (hobjects n.object (by simp [objectRefs]))
    have hmethods : n.methods.map ρ.object = n.methods :=
      map_object_of_old fun o ho => hobjects o (by simp [objectRefs, ho])
    simp [ty, hunder, hname, hmethods]
  | typeParam q =>
    have hbound := type_of_not_new (htypes q.bound (by simp [typeRefs]))
    have hname := object_of_not_new (hobjects q.object (by simp [objectRefs]))
    simp [ty, hbound, hname]

end Renumbering

namespace Store

variable {s s' : Store}

lemma Ordered.construction (hs : s.Ordered) (h : s.Construction s') : s'.Ordered := by
  cases h with
  | @newType ty hty =>
    refine ⟨fun t u hu => ?_, fun t i hi u hu => ?_, hs.parent⟩
    · rw [type_newType] at hu
      split at hu
      · rename_i heq
        exact heq ▸ hty.part u (mem_typeRefs_of_mem_typeParts (mem_typeParts_of_beneath? hu))
      · exact hs.beneath t u hu
    · rw [type_newType] at hi
      split at hi
      · rename_i heq
        exact heq ▸ hty.part u (by rw [hi]; exact hu)
      · exact hs.term t i hi u hu
  | newObject _ _ | addPackage _ | setObject _ _ _ _ => exact hs.keep (fun _ => rfl) fun _ => rfl
  | newScope start stop comment isFunc hparent => exact hs.newScope hparent
  | bind _ _ => exact hs.bind
  | @addMethod t m hm =>
    refine ⟨fun u v hv => hs.beneath u v ?_, fun u i hi => hs.term u i ?_, hs.parent⟩
    · rw [type_modifyType] at hv
      split at hv
      · cases hu : s.type u <;> simp_all [withMethod, beneath?]
      · exact hv
    · rw [type_modifyType] at hi
      split at hi
      · cases hu : s.type u <;> simp_all [withMethod]
      · exact hi

lemma ordered_of_forall_lt (hbeneath : ∀ i < s.types.size, ∀ u ∈ (s.type ⟨i⟩).beneath?, u.index < i)
    (hterm : ∀ i < s.types.size, ∀ j ∈ (s.type ⟨i⟩).interface?, ∀ u ∈ j.terms.getD [], u.index < i)
    (hparent : ∀ i < s.scopes.size, ∀ p ∈ (s.scope ⟨i⟩).parent, p.index < i) : s.Ordered where
  beneath t u hu := by
    rcases lt_or_ge t.index s.types.size with hlt | hge
    · exact hbeneath t.index hlt u hu
    · simp [type_of_size_le hge, beneath?] at hu
  term t j hj := by
    rcases lt_or_ge t.index s.types.size with hlt | hge
    · exact hterm t.index hlt j (by simp [hj, interface?])
    · simp [type_of_size_le hge] at hj
  parent x p hp := by
    rcases lt_or_ge x.index s.scopes.size with hlt | hge
    · exact hparent x.index hlt p hp
    · simp [scope_of_size_le hge] at hp

/-- The numbers that are taken on the way from one store to another. -/
def gap (s s' : Store) (hany : s.HasType .any) (huniverse : s.HasScope Build.universeScope) :
    Renumbering where
  types := ⟨s.types.size, s'.types.size - s.types.size⟩
  objects := ⟨s.objects.size, s'.objects.size - s.objects.size⟩
  scopes := ⟨s.scopes.size, s'.scopes.size - s.scopes.size⟩
  predeclared := hany
  outermost := huniverse

section

variable {x : ScopeId}

lemma not_newType_gap : ¬(gap s s' hany huniverse).NewType t ↔ s.HasType t :=
  not_le

lemma not_newObject_gap : ¬(gap s s' hany huniverse).NewObject o ↔ s.HasObject o :=
  not_le

lemma not_newScope_gap : ¬(gap s s' hany huniverse).NewScope x ↔ s.HasScope x :=
  not_le

/-- Nothing is made of new entities as long as there are none. -/
lemma grown_gap (hs : s.Closed false) : s.Grown (gap s s' hany huniverse) where
  unnamed t hnew ht := absurd hnew (not_newType_gap.mpr ht)
  value o hnew := by
    rw [object_of_size_le hnew]
    rfl
  oldPart t _ u hu := not_newType_gap.mpr (hs.part t u hu)
  oldMember t _ o ho := not_newObject_gap.mpr (hs.member t o ho)
  oldObject o _ t ht := not_newType_gap.mpr (hs.object o t ht)
  member t hnew o ho := by simp [type_of_size_le hnew, objectRefs] at ho
  results t g hnew hg := by simp [type_of_size_le hnew] at hg
  bound x hnew b hb := by simp [scope_of_size_le hnew, default] at hb
  child x hnew y hy := by simp [scope_of_size_le hnew, default] at hy
  early t hnew k hk := by
    simp [components, componentsOf, type_of_size_le hnew, typeRefs, objectRefs] at hk
  apart t hnew := by
    simp [components, componentsOf, type_of_size_le hnew, typeRefs, objectRefs, Apart]

lemma past_types (h : (gap s s' hany huniverse).NewType t) :
    s'.types.size ≤ ((gap s s' hany huniverse).type t).index :=
  Gap.le_skip h

lemma past_objects (h : (gap s s' hany huniverse).NewObject o) :
    s'.objects.size ≤ ((gap s s' hany huniverse).object o).index :=
  Gap.le_skip h

lemma past_scopes (h : (gap s s' hany huniverse).NewScope x) :
    s'.scopes.size ≤ ((gap s s' hany huniverse).scope x).index :=
  Gap.le_skip h

/-- A store that has grown is the one before it, shifted, if the older entities are as they were. -/
lemma Frame.shifted (h : s.Frame (gap s s' hany huniverse) s') (hs : s.Closed false)
    (htypes : s.types.size ≤ s'.types.size) (hobjects : s.objects.size ≤ s'.objects.size)
    (hscopes : s.scopes.size ≤ s'.scopes.size) (hpackages : s'.packages = s.packages) :
    s.Shifted (gap s s' hany huniverse) s' where
  types_start := le_rfl
  types_size := by simp [gap]; omega
  objects_start := le_rfl
  objects_size := by simp [gap]; omega
  scopes_start := le_rfl
  scopes_size := by simp [gap]; omega
  -- what is new lies beyond the end of both stores, and what is old refers to nothing new
  type t := by
    by_cases hnew : (gap s s' hany huniverse).NewType t
    · rw [type_of_size_le hnew, type_of_size_le (past_types hnew)]
      rfl
    · rw [type_of_not_new hnew, h.type t hnew, ty_of_old
        (fun u hu => not_newType_gap.mpr (hs.part t u hu))
        fun o ho => not_newObject_gap.mpr (hs.member t o ho)]
  object o := by
    by_cases hnew : (gap s s' hany huniverse).NewObject o
    · rw [object_of_size_le hnew, object_of_size_le (past_objects hnew)]
      rfl
    · have htype : (s.object o).outline.type.map (gap s s' hany huniverse).type =
          (s.object o).outline.type :=
        option_map_type_of_old fun t ht => not_newType_gap.mpr (hs.object o t ht)
      rw [object_of_not_new hnew, h.object o hnew, ob, htype]
  entity o hnew := by rw [object_of_size_le hnew, object_of_size_le (past_objects hnew)]
  scope x := by
    by_cases hnew : (gap s s' hany huniverse).NewScope x
    · rw [scope_of_size_le hnew, scope_of_size_le (past_scopes hnew)]
      rfl
    · have hparent : (s.scope x).outline.parent.map (gap s s' hany huniverse).scope =
          (s.scope x).outline.parent :=
        option_map_scope_of_old fun p hp => not_newScope_gap.mpr (hs.parent x p hp)
      have hbindings : (s.scope x).outline.bindings.map
          (fun b => (b.1, (gap s s' hany huniverse).object b.2)) = (s.scope x).outline.bindings := by
        refine (map_congr_left fun b hb => ?_).trans (map_id' _)
        rw [object_of_not_new (not_newObject_gap.mpr (hs.bound x b hb))]
      rw [scope_of_not_new hnew, h.scope x hnew, sc, hparent, hbindings]
  children x hnew := by
    rw [scope_of_size_le hnew, scope_of_size_le (past_scopes hnew)]
    rfl
  packages := hpackages
  packageScope p hp := not_newScope_gap.mpr (hs.package p hp)

end

end Store

namespace Checker

variable {d : Checker}

lemma Closed.hasScope_universe (hc : c.Closed false) : c.store.HasScope Build.universeScope :=
  Nat.lt_of_le_of_lt (Nat.zero_le _) hc.hasScope_packageScope

/-- The numbers that are taken on the way from one state to another. -/
def Closed.gap (hc : c.Closed false) (d : Checker) : Renumbering :=
  c.store.gap d.store hc.store.predeclared hc.hasScope_universe

/-- A state and a later one in its place, with the old entities, differ in their numbers alone. -/
lemma Mirrored.of_frame (hc : c.Closed false) (hordered : c.store.Ordered) (hwaits : c.deferred = [])
    (hsteps : c.Steps d) (hcontext : d.context = c.context) (hdone : d.deferred = [])
    (hframe : c.store.Frame (hc.gap d) d.store) : c.Mirrored (hc.gap d) d where
  ordered := hordered
  grown := grown_gap hc.store
  shifted := hframe.shifted hc.store hsteps.types_size_le hsteps.objects_size_le
    hsteps.scopes_size_le hsteps.package_eq.2
  package := hsteps.package_eq.1
  config := hsteps.config_eq
  context := by
    have hscope : c.context.scope.map (hc.gap d).scope = c.context.scope :=
      Renumbering.option_map_scope_of_old fun x hx =>
        not_newScope_gap.mpr (hc.context.scope x hx)
    have hsig : c.context.sig.map (hc.gap d).type = c.context.sig :=
      Renumbering.option_map_type_of_old fun t ht => not_newType_gap.mpr (hc.context.sig t ht)
    rw [hcontext, Renumbering.context, hscope, hsig]
  deferred := by rw [hwaits, hdone, map_nil]
  literal x hx := by simp [hwaits] at hx

end Checker

namespace Pass

/-- A function that is checked leaves the state as it was, up to the numbers that it has taken. -/
lemma mirrored_function {sig : FuncSig} (hc : c.Closed false)
    (hordered : c.store.Ordered) (hwaits : c.deferred = []) :
    c.Mirrored (hc.gap ((function sig body).1 c).2) ((function sig body).1 c).2 := by
  -- The state is its own mirror image as long as no number is taken.
  have hself : c.Mirrored (hc.gap c) c :=
    .of_frame hc hordered hwaits (.refl c) rfl hwaits (.refl ..)
  have hrun : (function sig body).Mirrors (hc.gap c) (function sig body) c c (hc.gap c).type :=
    mirrors_function hself hc
  have hdone : ((function sig body).1 c).2.deferred = [] :=
    (completes_function hwaits).deferred.trans hwaits
  exact .of_frame hc hordered hwaits ((function sig body).2 c) hrun.context hdone
    ⟨hrun.frame.type, hrun.frame.object, hrun.frame.scope⟩

lemma emitted_function_after (sig sig' : FuncSig) (body body' : Block) (hc : c.Closed false)
    (hordered : c.store.Ordered) (hwaits : c.deferred = []) :
    (function sig' body').emitted ((function sig body).1 c).2 = (function sig' body').emitted c :=
  (mirrors_function (mirrored_function hc hordered hwaits) hc).emitted

end Pass

namespace BuiltSession

lemma ordered (h : BuiltSession c) : c.store.Ordered := by
  refine h.keep ?_ fun s s' _ hs hstep => hs.construction hstep
  refine ordered_of_forall_lt ?_ ?_ ?_
  all_goals decide +kernel

/-- Function checks are isolated. In every state between the requests of a session, the check of a
function adds the same reports, whether or not another function is checked right before it. -/
theorem function_isolated (h : BuiltSession c) (sig sig' : FuncSig) (body body' : Block) :
    ∃ rs, ((Request.checkFunc sig' body').answer c).sink.reports.toList =
        c.sink.reports.toList ++ rs ∧
      ((Request.checkFunc sig' body').answer
          ((Request.checkFunc sig body).answer c)).sink.reports.toList =
        ((Request.checkFunc sig body).answer c).sink.reports.toList ++ rs := by
  refine ⟨(Pass.function sig' body').emitted c, Pass.reports_eq_append_emitted .., ?_⟩
  rw [← Pass.emitted_function_after sig sig' body body' h.closed h.ordered h.deferred_eq_nil]
  exact Pass.reports_eq_append_emitted ..

/-- The state after a host has defined a type over `float64` and declared a variable of it. -/
def thermostatState : Checker :=
  (Request.declareVar "limit" ⟨(Checker.start {}).store.types.size⟩).answer
    { Checker.start {} with
      store := (Build.named Span.dummy "Celsius" (.basic .float64) (Checker.start {}).store).2 }

/-- A body in which a function literal is given to the variable with a name. -/
def assignsLiteral (name : String) : Block :=
  let int : TypeExpr := .name ⟨6, 7⟩ ⟨some "int", ⟨6, 7⟩⟩
  let sig : FuncSig := ⟨[⟨some ⟨some "x", ⟨4, 5⟩⟩, int, ⟨4, 7⟩⟩], [], false, ⟨3, 8⟩⟩
  ⟨[.assign ⟨1, 10⟩ [.ident ⟨0, ⟨1, 2⟩⟩ ⟨some name, ⟨1, 2⟩⟩]
    [.funcLit ⟨1, ⟨3, 10⟩⟩ sig ⟨[], ⟨9, 10⟩⟩]], ⟨0, 11⟩⟩

/-- No parameters and no results. -/
def plainSig : FuncSig := ⟨[], [], false, ⟨0, 0⟩⟩

lemma thermostatState_reached : BuiltSession thermostatState := by
  have hstart : (Checker.start {}).Closed false := GuardedSession.start_closed {}
  have hnamed := Build.constructs_named Span.dummy "Celsius" hstart.store
    (hstart.store.hasType_basic .float64)
  exact ((BuiltSession.start {}).builds hnamed).ask (show HasType _ _ by decide +kernel)

/-- A literal is no value of the type of `limit`. That is reported likewise after another
function. -/
theorem thermostatState_functions_isolated :
    ((Request.checkFunc plainSig (assignsLiteral "limit")).answer
      thermostatState).sink.reports.map (·.code) = #[some 2000] ∧
    ((Request.checkFunc plainSig (assignsLiteral "missing")).answer
      thermostatState).sink.reports.map (·.code) = #[some 2200] ∧
    ∃ rs, ((Request.checkFunc plainSig (assignsLiteral "limit")).answer
        thermostatState).sink.reports.toList = thermostatState.sink.reports.toList ++ rs ∧
      ((Request.checkFunc plainSig (assignsLiteral "limit")).answer
          ((Request.checkFunc plainSig (assignsLiteral "missing")).answer
            thermostatState)).sink.reports.toList =
        ((Request.checkFunc plainSig (assignsLiteral "missing")).answer
          thermostatState).sink.reports.toList ++ rs :=
  ⟨by decide +kernel, by decide +kernel, function_isolated thermostatState_reached ..⟩

end BuiltSession

end GoCheck
