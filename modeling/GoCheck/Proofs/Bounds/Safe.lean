import GoCheck.Proofs.Bounds.Closed

/-!
# Passes that stay within bounds

A pass is safe from a closed state if it makes only steps with numbers of existing entities. The
numbers that it returns are then such numbers as well, so safe passes compose.
-/

namespace GoCheck

open List Store

variable {s : Store} {t : TypeId} {o : ObjectId} {x scope : ScopeId} {strict : Bool} {c d : Checker}
  {span : Span} {name : String} {k : Context} {id : Nat}

section

/-- A place in the program that exists. -/
structure Context.Within (k : Context) (s : Store) : Prop where
  scope : ∀ x ∈ k.scope, s.HasScope x
  sig : ∀ t ∈ k.sig, s.HasType t

/-- A body that can be checked: its signature and its scope exist. -/
structure Deferred.Within (d : Deferred) (strict : Bool) (s : Store) : Prop where
  sig : s.HasType d.sig
  scope : s.HasScope d.scope
  collects : blockCollects strict d.body = true

/-- Records about entities that exist. -/
structure Info.Within (info : Info) (s : Store) : Prop where
  types : ∀ r ∈ info.types, s.HasType r.2.type
  conversions : ∀ x ∈ info.conversions, s.HasType x.target
  defs : ∀ d ∈ info.defs, ∀ o ∈ d.2, s.HasObject o
  uses : ∀ u ∈ info.uses, s.HasObject u.2
  scopes : ∀ x ∈ info.scopes, s.HasScope x.2

lemma Context.within_some {sig : Option TypeId} (hx : s.HasScope x)
    (hsig : ∀ t ∈ sig, s.HasType t) : ({ scope := some x, sig } : Context).Within s := by
  refine ⟨?_, hsig⟩
  rintro _ ⟨⟩
  exact hx

lemma Context.Within.step (h : k.Within s) (hs : s.Step s') : k.Within s' :=
  ⟨fun x hx => (h.scope x hx).step hs, fun t ht => (h.sig t ht).step hs⟩

lemma Deferred.Within.step {d : Deferred} (h : d.Within strict s) (hs : s.Step s') : d.Within strict s' :=
  ⟨h.sig.step hs, h.scope.step hs, h.collects⟩

lemma Info.Within.step {info : Info} (h : info.Within s) (hs : s.Step s') : info.Within s' :=
  ⟨fun r hr => (h.types r hr).step hs, fun x hx => (h.conversions x hx).step hs,
    fun d hd o ho => (h.defs d hd o ho).step hs, fun u hu => (h.uses u hu).step hs,
    fun x hx => (h.scopes x hx).step hs⟩

end

namespace Checker

variable {e : Checker}

/-- Every number that the state holds is that of an existing entity. -/
structure Closed (c : Checker) (strict : Bool) : Prop where
  store : c.store.Closed strict
  package : c.store.HasPackage c.package
  context : c.context.Within c.store
  deferred : ∀ d ∈ c.deferred, d.Within strict c.store
  info : c.info.Within c.store

lemma Closed.hasScope_packageScope (hc : c.Closed strict) : c.store.HasScope c.packageScope :=
  hc.store.hasScope_package hc.package

/-- A step that is made with the numbers of existing entities. -/
inductive SafeStep (strict : Bool) : Checker → Checker → Prop where
  | store {c : Checker} {s : Store} : c.store.SafeStep strict s → SafeStep strict c { c with store := s }
  | emit (c : Checker) (d : Diagnostic) : SafeStep strict c { c with sink := c.sink.emit d }
  | log (c : Checker) (e : Event) : SafeStep strict c { c with log := c.log.push e }
  | indent (c : Checker) (n : Nat) : SafeStep strict c { c with indent := n }
  | info (c : Checker) (info : Info) : info.Within c.store → Step c { c with info } →
      SafeStep strict c { c with info }
  | move (c : Checker) {context : Context} : context.Within c.store →
      SafeStep strict c { c with context }
  | happen (c : Checker) (h : Happening) : SafeStep strict c { c with history := c.history.push h }
  | defer (c : Checker) {d : Deferred} : d.Within strict c.store →
      SafeStep strict c { c with deferred := c.deferred ++ [d], history := c.history.push (.putOff d) }
  | drop (c : Checker) (n : Nat) : SafeStep strict c { c with deferred := c.deferred.take n }

/-- Any number of safe steps. -/
inductive SafeSteps (strict : Bool) : Checker → Checker → Prop where
  | refl (c : Checker) : SafeSteps strict c c
  | tail {c d e : Checker} : SafeSteps strict c d → SafeStep strict d e → SafeSteps strict c e

lemma SafeStep.step (h : c.SafeStep strict d) : c.Step d := by
  cases h with
  | store hs => exact .store hs.step
  | emit d => exact .emit ..
  | log e => exact .log ..
  | indent n => exact .indent ..
  | info info _ hstep => exact hstep
  | move _ => exact .move ..
  | happen h => exact .happen ..
  | defer _ => exact .defer ..
  | drop n => exact .drop ..

lemma SafeStep.closed (h : c.SafeStep strict d) (hc : c.Closed strict) : d.Closed strict := by
  cases h with
  | @store s hs =>
    refine ⟨hs.closed hc.store, ?_, hc.context.step hs.step,
      fun d hd => (hc.deferred d hd).step hs.step, hc.info.step hs.step⟩
    show c.package.index < s.packages.size
    rw [hs.step.packages_eq]
    exact hc.package
  | emit d | log e | indent n | happen h =>
    exact ⟨hc.store, hc.package, hc.context, hc.deferred, hc.info⟩
  | info info hinfo _ => exact ⟨hc.store, hc.package, hc.context, hc.deferred, hinfo⟩
  | move hcontext => exact ⟨hc.store, hc.package, hcontext, hc.deferred, hc.info⟩
  | defer hd =>
    refine ⟨hc.store, hc.package, hc.context, fun d' hd' => ?_, hc.info⟩
    rcases mem_append.mp hd' with hold | hnew
    · exact hc.deferred d' hold
    · rw [mem_singleton.mp hnew]
      exact hd
  | drop n =>
    exact ⟨hc.store, hc.package, hc.context, fun d hd => hc.deferred d (mem_of_mem_take hd),
      hc.info⟩

namespace SafeSteps

lemma single (h : c.SafeStep strict d) : c.SafeSteps strict d := .tail (.refl c) h

lemma trans (h : c.SafeSteps strict d) (k : d.SafeSteps strict e) : c.SafeSteps strict e := by
  induction k with
  | refl => exact h
  | tail _ last ih => exact .tail ih last

lemma steps (h : c.SafeSteps strict d) : c.Steps d := by
  induction h with
  | refl => exact .refl _
  | tail _ last ih => exact .tail ih last.step

lemma closed (h : c.SafeSteps strict d) (hc : c.Closed strict) : d.Closed strict := by
  induction h with
  | refl => exact hc
  | tail _ last ih => exact last.closed ih

end SafeSteps

end Checker

lemma Store.HasType.steps (ht : c.store.HasType t) (h : c.Steps d) : d.store.HasType t :=
  h.keepStore (P := (·.HasType t)) (fun hs ht => ht.step hs) ht

lemma Store.HasScope.steps (hx : c.store.HasScope x) (h : c.Steps d) : d.store.HasScope x :=
  h.keepStore (P := (·.HasScope x)) (fun hs hx => hx.step hs) hx

lemma Context.Within.steps (hk : k.Within c.store) (h : c.Steps d) :
    k.Within d.store :=
  h.keepStore (fun hs hk => hk.step hs) hk

/-- An operand whose type exists, if it has one. -/
def Operand.Within (x : Operand) (s : Store) : Prop := ∀ t ∈ x.type, s.HasType t

lemma Operand.Within.steps {x : Operand} (hx : x.Within c.store) (h : c.Steps d) :
    x.Within d.store :=
  fun t ht => (hx t ht).steps h

lemma Operand.Within.hasType_typeOrInvalid {x : Operand} (hx : x.Within s)
    (hs : s.Closed strict) : s.HasType x.typeOrInvalid := by
  cases ht : x.type with
  | none =>
    rw [typeOrInvalid, ht]
    exact hs.hasType_basic .invalid
  | some t => simpa [typeOrInvalid, ht] using hx t ht

namespace Pass

variable {m : Pass α} {f : α → Pass β} {R : α → Store → Prop} {S : β → Store → Prop}

/-- From a state, a pass makes safe steps to a closed state, and `Q` holds of its outcome. -/
structure Safe (m : Pass α) (strict : Bool) (c : Checker)
    (Q : α → Store → Prop := fun _ _ => True) : Prop where
  steps : c.SafeSteps strict (m.1 c).2
  closed : (m.1 c).2.Closed strict
  result : Q (m.1 c).1 (m.1 c).2.store

lemma Safe.pure (hc : c.Closed strict) (ha : Q a c.store) : (pure a : Pass α).Safe strict c Q :=
  ⟨.refl c, hc, ha⟩

lemma Safe.bind (hm : m.Safe strict c R)
    (hf : ∀ a d, c.Steps d → d.Closed strict → R a d.store → (f a).Safe strict d S) :
    (m >>= f).Safe strict c S := by
  have hnext := hf _ _ hm.steps.steps hm.closed hm.result
  exact ⟨hm.steps.trans hnext.steps, hnext.closed, hnext.result⟩

lemma Safe.mono (hm : m.Safe strict c R)
    (h : ∀ a d, c.Steps d → d.Closed strict → R a d.store → Q a d.store) : m.Safe strict c Q :=
  ⟨hm.steps, hm.closed, h _ _ hm.steps.steps hm.closed hm.result⟩

lemma Safe.trivial (hm : m.Safe strict c R) : m.Safe strict c :=
  hm.mono fun _ _ _ _ _ => .intro

lemma Safe.discard (hm : m.Safe strict c R) : (Functor.discard m).Safe strict c :=
  hm.bind fun _ _ _ hd _ => .pure hd .intro

@[simp]
lemma safe_current_bind {f : Checker → Pass β} :
    (current >>= f).Safe strict c S ↔ (f c).Safe strict c S :=
  ⟨fun h => ⟨h.1, h.2, h.3⟩, fun h => ⟨h.1, h.2, h.3⟩⟩

@[simp]
lemma safe_entities_bind {f : Store → Pass β} :
    (entities >>= f).Safe strict c S ↔ (f c.store).Safe strict c S :=
  ⟨fun h => ⟨h.1, h.2, h.3⟩, fun h => ⟨h.1, h.2, h.3⟩⟩

lemma safe_optionForM {o : Option α} {g : α → Pass PUnit} (hc : c.Closed strict)
    (h : ∀ a ∈ o, (g a).Safe strict c) : (o.forM g).Safe strict c := by
  cases o with
  | none => exact .pure hc .intro
  | some a => exact h a rfl

/-- A pass for each member of a list, where further steps keep what is known of each outcome. -/
lemma safe_mapM {l : List α} (hc : c.Closed strict)
    (hkeep : ∀ b {d e : Checker}, d.Steps e → S b d.store → S b e.store)
    (h : ∀ a ∈ l, ∀ d, c.Steps d → d.Closed strict → (f a).Safe strict d S) :
    (l.mapM f).Safe strict c fun bs s => ∀ b ∈ bs, S b s := by
  induction l generalizing c with
  | nil => exact .pure hc (by simp)
  | cons a l ih =>
    rw [mapM_cons]
    refine (h a (by simp) c (.refl c) hc).bind fun b d hd hclosed hb => ?_
    have htail := ih hclosed fun a ha e he => h a (by simp [ha]) e (hd.trans he)
    refine htail.bind fun bs e he hclosed' hbs => .pure hclosed' ?_
    simpa using ⟨hkeep _ he hb, hbs⟩

lemma safe_step (hc : c.Closed strict)
    (hstep : c.SafeStep strict (g c)) : (step g h).Safe strict c fun _ s => s = (g c).store :=
  ⟨.single hstep, hstep.closed hc, rfl⟩

lemma safe_build (hc : c.Closed strict) (hstep : c.store.SafeStep strict (b c.store).2) :
    (build b h).Safe strict c fun a s => a = (b c.store).1 ∧ s = (b c.store).2 :=
  ⟨.single (.store hstep), Checker.SafeStep.closed (.store hstep) hc, rfl, rfl⟩

section

variable (hc : c.Closed strict)
include hc

lemma safe_emit : (emit r).Safe strict c fun _ s => s = c.store :=
  safe_step hc (.emit ..)

lemma safe_report : (report p span).Safe strict c fun _ s => s = c.store :=
  safe_emit hc

lemma safe_logEvent {e : Event} : (logEvent e).Safe strict c fun _ s => s = c.store :=
  safe_step hc (.log ..)

lemma safe_move (hk : k.Within c.store) : (move k).Safe strict c fun _ s => s = c.store :=
  safe_step hc (.move c hk)

lemma safe_note : (note h).Safe strict c fun _ s => s = c.store :=
  safe_step hc (.happen ..)

lemma safe_defer {d : Deferred} (hd : d.Within strict c.store) :
    (defer d).Safe strict c fun _ s => s = c.store :=
  safe_step hc (.defer c hd)

lemma safe_dropDeferred : (dropDeferred n).Safe strict c fun _ s => s = c.store :=
  safe_step hc (.drop ..)

lemma safe_onRecords (hg : ∀ r ∈ g c.info.types, c.store.HasType r.2.type) :
    (onRecords g).Safe strict c fun _ s => s = c.store :=
  safe_step hc (.info c _ ⟨hg, hc.info.conversions, hc.info.defs, hc.info.uses, hc.info.scopes⟩
    (.records ..))

lemma safe_recordFailed : (recordFailed id).Safe strict c fun _ s => s = c.store :=
  safe_step hc (.info c _
    ⟨hc.info.types, hc.info.conversions, hc.info.defs, hc.info.uses, hc.info.scopes⟩ (.failed ..))

lemma safe_recordConversion {x : Conversion} (hx : c.store.HasType x.target) :
    (recordConversion x).Safe strict c fun _ s => s = c.store := by
  have hconversions : ∀ y ∈ x :: c.info.conversions, c.store.HasType y.target := by
    intro y hy
    rcases mem_cons.mp hy with rfl | hy
    · exact hx
    · exact hc.info.conversions y hy
  exact safe_step hc (.info c _
    ⟨hc.info.types, hconversions, hc.info.defs, hc.info.uses, hc.info.scopes⟩ (.converted ..))

lemma safe_traceLine {line : Store → String} :
    (traceLine line).Safe strict c fun _ s => s = c.store := by
  simp only [traceLine, safe_current_bind]
  split
  · exact safe_logEvent hc
  · exact .pure hc rfl

lemma safe_indentTrace : indentTrace.Safe strict c fun _ s => s = c.store := by
  simp only [indentTrace, safe_current_bind]
  split
  · exact safe_step hc (.indent ..)
  · exact .pure hc rfl

lemma safe_newType (h : c.store.Admits strict ty) :
    (newType ty hty).Safe strict c fun t s => s.HasType t ∧ s.type t = ty := by
  refine (safe_build hc (.newType _ hty h)).mono fun t d _ _ hd => ?_
  rw [hd.1, hd.2, type_newType]
  simp [Build.newType, HasType]

lemma safe_newObject (hb : b = Build.newObject ob) (hparent : ob.parent = none)
    (hob : ∀ t ∈ ob.type, c.store.HasType t) : (build b h).Safe strict c fun o s => s.HasObject o := by
  subst hb
  refine (safe_build hc (.newObject _ hparent hob)).mono fun o d _ _ hd => ?_
  simp [hd.1, hd.2, Build.newObject, HasObject]

section

variable {package : Option PackageId} {ot : Option TypeId}
variable (hot : ∀ t ∈ ot, c.store.HasType t)
include hot

lemma safe_newVar : (newVar span package name ot).Safe strict c fun o s => s.HasObject o :=
  safe_newObject hc rfl rfl hot

lemma safe_newParam : (newParam span package name ot).Safe strict c fun o s => s.HasObject o :=
  safe_newObject hc rfl rfl hot

lemma safe_newConst : (newConst span package name ot v).Safe strict c fun o s => s.HasObject o :=
  safe_newObject hc rfl rfl hot

lemma safe_newFunc : (newFunc span package name ot).Safe strict c fun o s => s.HasObject o :=
  safe_newObject hc rfl rfl hot

end

lemma safe_newScope (hparent : ∀ p ∈ parent, c.store.HasScope p) :
    (newScope parent span comment isFunc).Safe strict c fun x s => s.HasScope x := by
  refine (safe_build hc (.newScope _ _ _ _ _ hparent)).mono fun x d _ _ hd => ?_
  rw [HasScope, hd.1, hd.2, newScope_index, newScope_scopes_size]
  exact Nat.lt_succ_self _

section

variable (ho : c.store.HasObject o)
include ho

lemma safe_setUsed : (setUsed o used).Safe strict c :=
  (safe_step hc (.store (.setUsed _ used ho))).trivial

lemma safe_markUsed : (markUsed o).Safe strict c := safe_setUsed hc ho

lemma safe_setVisible : (setVisible o visibleFrom).Safe strict c :=
  (safe_step hc (.store (.setVisible _ visibleFrom ho))).trivial

lemma safe_setValue : (setValue o v).Safe strict c :=
  (safe_step hc (.store (.setValue _ v ho))).trivial

lemma safe_giveType (ht : c.store.HasType t) : (giveType o t).Safe strict c :=
  (safe_step hc (.store (.giveType _ ho ht))).trivial

lemma safe_invalidateMissing : (invalidateMissing o).Safe strict c :=
  safe_giveType hc ho (hc.store.hasType_basic .invalid)

lemma safe_bindIn (hx : c.store.HasScope x) : (bindIn x o).Safe strict c :=
  (safe_build hc (.bind _ hx ho)).trivial

end

end

lemma mem_insert [BEq κ] {t : Table κ ν} {k : κ} {v : ν}
    (h : p ∈ t.insert k v) : p.2 = v ∨ p ∈ t := by
  rcases mem_cons.mp h with rfl | h
  · exact .inl rfl
  · exact .inr (mem_of_mem_filter h)

section

variable (hc : c.Closed strict)
include hc

lemma safe_recordDef {o : Option ObjectId} (ho : ∀ o' ∈ o, c.store.HasObject o') :
    (recordDef span o).Safe strict c fun _ s => s = c.store := by
  have hdefs : ∀ d ∈ c.info.defs.insert span o, ∀ o' ∈ d.2, c.store.HasObject o' := by
    intro d hd o' ho'
    rcases mem_insert hd with heq | hold
    · exact ho o' (heq ▸ ho')
    · exact hc.info.defs d hold o' ho'
  exact safe_step hc (.info c _
    ⟨hc.info.types, hc.info.conversions, hdefs, hc.info.uses, hc.info.scopes⟩
    (.names c _ c.info.uses c.info.scopes))

lemma safe_recordUse (ho : c.store.HasObject o) :
    (recordUse span o).Safe strict c fun _ s => s = c.store := by
  have huses : ∀ u ∈ c.info.uses.insert span o, c.store.HasObject u.2 := by
    intro u hu
    rcases mem_insert hu with heq | hold
    · exact heq ▸ ho
    · exact hc.info.uses u hold
  exact safe_step hc (.info c _
    ⟨hc.info.types, hc.info.conversions, hc.info.defs, huses, hc.info.scopes⟩
    (.names c c.info.defs _ c.info.scopes))

lemma safe_recordScope (hx : c.store.HasScope x) :
    (recordScope span x).Safe strict c fun _ s => s = c.store := by
  have hscopes : ∀ y ∈ c.info.scopes.insert span x, c.store.HasScope y.2 := by
    intro y hy
    rcases mem_insert hy with heq | hold
    · exact heq ▸ hx
    · exact hc.info.scopes y hold
  exact safe_step hc (.info c _
    ⟨hc.info.types, hc.info.conversions, hc.info.defs, hc.info.uses, hscopes⟩
    (.names c c.info.defs c.info.uses _))

lemma safe_lookup : (lookup name).Safe strict c fun o s => ∀ o' ∈ o, s.HasObject o' := by
  simp only [lookup, safe_current_bind]
  refine (safe_note hc).bind fun _ d _ hd hstore => .pure hd fun o ho => ?_
  obtain ⟨⟨y, o'⟩, hfound, rfl⟩ := Option.map_eq_some_iff.mp ho
  obtain ⟨x, -, hr⟩ := Option.bind_eq_some_iff.mp hfound
  rw [hstore]
  exact hc.store.hasObject_of_find? (find?_of_resolveWithin hr)

lemma safe_isLocalVar : (isLocalVar o).Safe strict c fun _ s => s = c.store := by
  simp only [isLocalVar, safe_current_bind]
  exact .pure hc rfl

lemma safe_localVar? : (localVar? i).Safe strict c fun o s => ∀ o' ∈ o, s.HasObject o' := by
  refine (safe_lookup hc).bind fun o d _ hd ho => ?_
  cases o with
  | none => exact .pure hd (by simp)
  | some o =>
    refine (safe_isLocalVar hd).bind fun isLocal e _ he hstore => .pure he fun o' ho' => ?_
    rw [hstore]
    refine ho o' ?_
    cases isLocal <;> simp_all

lemma safe_declare {name : Option Ident}
    (hscope : c.store.HasScope scope) (ho : c.store.HasObject o) :
    (declare scope name o visibleFrom).Safe strict c := by
  simp only [declare, safe_entities_bind]
  have hdef : ∀ {d}, c.Steps d → d.Closed strict →
      (name.forM fun i => recordDef i.span (some o)).Safe strict d := by
    intro d hd hclosed
    refine safe_optionForM hclosed fun i _ => (safe_recordDef hclosed ?_).trivial
    rintro _ ⟨⟩
    exact ho.steps hd
  by_cases hblank : (c.store.object o).isBlank
  · simpa [hblank] using hdef (.refl c) hc
  · simp only [hblank, Bool.false_eq_true, if_false]
    refine (safe_bindIn hc ho hscope).bind fun clash d hd hclosed _ => ?_
    cases clash with
    | some other => exact (safe_emit hclosed).bind fun _ e _ he _ => (safe_note he).trivial
    | none =>
      refine (safe_setVisible hclosed (ho.steps hd)).bind fun _ e he hclosed' _ => ?_
      exact hdef (hd.trans he) hclosed'

lemma safe_openScope : (openScope span).Safe strict c := by
  simp only [openScope, safe_current_bind]
  refine (safe_newScope hc hc.context.scope).bind fun x d hd hclosed hx => ?_
  refine (safe_recordScope hclosed hx).bind fun _ e _ he hstore => ?_
  have hcontext : ({ c.context with scope := some x } : Context).Within e.store := by
    rw [hstore]
    refine ⟨?_, fun t ht => (hc.context.sig t ht).steps hd⟩
    rintro _ ⟨⟩
    exact hx
  exact (safe_move he hcontext).trivial

lemma safe_closeScope : closeScope.Safe strict c := by
  simp only [closeScope, safe_current_bind]
  have hcontext : ({ c.context with
      scope := c.context.scope.bind fun x => (c.store.scope x).parent } : Context).Within c.store := by
    refine ⟨fun p hp => ?_, hc.context.sig⟩
    obtain ⟨x, -, hparent⟩ := Option.bind_eq_some_iff.mp hp
    exact hc.store.parent x p hparent
  exact (safe_move hc hcontext).trivial

lemma safe_within (hk : k.Within c.store)
    (hm : ∀ d, c.Steps d → d.Closed strict → m.Safe strict d Q)
    (hkeep : ∀ a {d e : Checker}, d.Steps e → Q a d.store → Q a e.store) :
    (within k m).Safe strict c Q := by
  simp only [within, safe_current_bind]
  refine (safe_move hc hk).bind fun _ d hd hclosed _ => ?_
  refine (hm d hd hclosed).bind fun a e he hclosed' hq => ?_
  refine (safe_move hclosed' (hc.context.steps (hd.trans he))).bind fun _ g hg hclosed'' _ => ?_
  exact .pure hclosed'' (hkeep a hg hq)

end

end Pass

end GoCheck
