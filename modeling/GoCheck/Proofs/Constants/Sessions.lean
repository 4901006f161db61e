import GoCheck.Proofs.Constants.Expressions

/-!
# Recorded constants fit their types

A constant gets a value only after that has been assigned to its type. So if the host declares no
constant that its type does not hold, a constant that is recorded with a type fits it, except for
arguments of conversions whose result is no constant.
-/

namespace GoCheck

open List Store Place Build Pass Object

variable {declared : Option TypeId} {v w : Constant} {lhs : List Expr} {ob : Object} {name : String}
  {isFunc : Bool} {s s' : Store}

def Place.objects : Set Place := Set.range object

@[simp]
lemma Place.object_mem_objects (o : ObjectId) : object o ∈ objects := ⟨o, rfl⟩

@[simp]
lemma Place.expr_notMem_objects (id : Nat) : expr id ∉ objects := by
  rintro ⟨o, ho⟩
  cases ho

lemma Object.value?_setValue
    (h : (ob.setValue v).value? = some w) : w = v ∨ ob.value? = some w := by
  cases hob : ob.entity <;> simp_all [setValue, value?]

namespace Pass

variable {c d f : Checker} {x y : Operand} {e : Expr} {o : ObjectId} {ids : List Nat}

lemma fits_giveType (hc : c.Fitting) : (giveType o t).Fits objects c fun _ d =>
    d.store = c.store.modifyObject o (·.giveType t) := by
  refine ⟨?_, ⟨fun _ _ _ ho => ho, fun p hp => absurd (object_mem_objects p) hp⟩, rfl⟩
  apply hc.of_values (steps (giveType o t) c) rfl rfl rfl
  intro p v hv _
  exact .inl ((view_modifyObject (·.value?_giveType t) p).symm.trans hv)

lemma fits_invalidateMissing (hc : c.Fitting) :
    (invalidateMissing o).Fits objects c :=
  (fits_giveType hc).trivial

/-- A constant may get a value that its type holds. -/
lemma fits_setValue (hc : c.Fitting) (ht : (c.store.object o).type = some t)
    (hregular : v.isRegular) (hholds : c.store.Holds t v) :
    (setValue o v).Fits ∅ c := by
  have htype (p : ObjectId) : ((c.store.modifyObject o (·.setValue v)).object p).type =
      (c.store.object p).type := by
    rw [object_modifyObject]
    split
    · exact type_setValue ..
    · rfl
  have hobject (p : ObjectId) (hp : p.index < c.store.objects.size) :
      p.index < (c.store.modifyObject o (·.setValue v)).objects.size := by
    simpa [modifyObject] using hp
  refine ⟨?_, ⟨fun _ _ _ ho => ho, fun p _ hp => ⟨hobject p hp, htype p⟩⟩, ⟨⟩⟩
  apply hc.of_values (steps (setValue o v) c) rfl rfl rfl
  intro p w hw _
  change ((c.store.modifyObject o (·.setValue v)).object p).value? = some w at hw
  rw [object_modifyObject] at hw
  split at hw
  · rename_i hp
    obtain ⟨rfl, -⟩ := hp
    -- Either the value is the one set, or the object is no constant.
    rcases value?_setValue hw with rfl | hold
    · have hsteps := steps (setValue o w) c
      exact .inr ⟨hregular, t, (htype o).trans ht, hholds.extends hsteps.extends⟩
    · exact .inl hold
  · exact .inl hw

/-- The type that a constant ends up with holds the value that has been assigned to it. -/
lemma holds_of_assigned
    (hx : x.Fits d.store) (ht : x.type = some t) (hy : y.mode = .constant w) (hf : d.Steps f)
    (hassigned : Assigned x (some (declared.getD t)) y d.store f.store)
    (hdeclared : ∀ u, declared = some u → d.store.isConstType u) :
    w.isRegular ∧ f.store.Holds (declared.getD t) w := by
  obtain ⟨hregular, hsame, hholds⟩ := hassigned w hy
  refine ⟨hregular, ?_⟩
  cases declared with
  | some u => exact hholds u rfl (hdeclared u rfl)
  | none =>
    cases hu : d.store.isUntyped t with
    | true => exact .inr (.inl (hf.isUntyped_eq t ▸ hu))
    | false =>
      -- A typed value is assigned as it is.
      obtain ⟨-, u, hu, hxholds⟩ := hx w (hsame t ht hu)
      cases ht.symm.trans hu
      exact hxholds.extends hf.extends

/-- A constant gets a value that its type holds, given that a declared type has constants. -/
lemma fits_initConst (hc : c.Fitting) (hx : x.Usable e c) (ho : o.index < c.store.objects.size)
    (hdeclared : ∀ u, (c.store.object o).type = some u → u = .invalid ∨ c.store.isConstType u) :
    (initConst o x).Fits objects c := by
  refine .entities ?_
  dsimp only
  split
  · exact fits_invalidateMissing hc
  rename_i hvalid
  split
  · refine .quietly (.report rfl) hc fun d _ _ _ hd => ?_
    exact fits_invalidateMissing hd
  rename_i hconst
  obtain ⟨v, hv⟩ : ∃ v, x.mode = .constant v := by
    cases hmode : x.mode with
    | constant v => exact ⟨v, rfl⟩
    | _ => simp [hmode, Mode.isConstant, Mode.constant?] at hconst
  obtain ⟨-, t, ht, -⟩ := hx.fits v hv
  rw [Operand.typeOrInvalid, ht, Option.getD_some]
  refine (fits_giveType hc).bind fun _ d hd hk hfit hstore => ?_
  have hxd : x.Usable e d := hx.keeps hd hk fun id _ => expr_notMem_objects id
  refine (fits_assignment hfit hxd).before (Set.empty_subset _) fun y f hf hkf hfitf hy => ?_
  cases hw : y.mode.constant? with
  | none => exact .pure hfitf ⟨⟩
  | some w =>
    -- The assignment has left the type of the object alone.
    have htype : (f.store.object o).type = some ((c.store.object o).type.getD t) := by
      have hod := Nat.lt_of_lt_of_le ho hd.objects_size_le
      rw [(hkf.object o (Set.notMem_empty _) hod).2, hstore, object_modifyObject,
        if_pos ⟨rfl, ho⟩, Object.giveType]
      cases (c.store.object o).type <;> rfl
    have hconstType : ∀ u, (c.store.object o).type = some u → d.store.isConstType u := by
      intro u hu
      rcases hdeclared u hu with rfl | hconstType
      · simp [hu] at hvalid
      · exact hd.extends.isConstType hconstType
    obtain ⟨hregular, hholds⟩ :=
      holds_of_assigned hxd.fits ht (Mode.constant?_eq_some.mp hw) hf hy hconstType
    exact (fits_setValue hfitf htype hregular hholds).widen (Set.empty_subset _)

lemma fits_initTyped (hc : c.Fitting) (hx : x.Usable e c) :
    (initTyped o t x context).Fits objects c := by
  refine (fits_assignment hc hx).before (Set.empty_subset _) fun y d _ _ hd _ => ?_
  split
  · refine .quietly .markUsed hd fun f _ _ _ hf => ?_
    exact .pure hf ⟨⟩
  · exact .pure hd ⟨⟩

lemma fits_initVar (hc : c.Fitting) (hx : x.Usable e c) :
    (initVar o x context).Fits objects c := by
  refine .entities ?_
  dsimp only
  split
  · refine (fits_invalidateMissing hc).bind fun _ d _ _ hd _ => ?_
    refine .quietly .markUsed hd fun f _ _ _ hf => ?_
    exact .pure hf ⟨⟩
  · cases (c.store.object o).type with
    | some t => exact fits_initTyped hc hx
    | none =>
      dsimp only
      split
      · refine .quietly (.report rfl) hc fun d _ _ _ hd => ?_
        exact (fits_invalidateMissing hd).bind fun _ f _ _ hf _ => .pure hf ⟨⟩
      · refine (fits_giveType hc).bind fun _ d hd hk hfit _ => ?_
        exact fits_initTyped hfit (hx.keeps hd hk fun id _ => expr_notMem_objects id)

lemma type_tupleOf (ts : List TypeId) (c : Checker) :
    ∃ vars, ((tupleOf ts).1 c).2.store.type ((tupleOf ts).1 c).1 = .tuple vars :=
  ⟨_, (type_newType ..).trans (if_pos rfl)⟩

/-- An expression that gives a pair is recorded with the type of a pair, which has no constants. -/
lemma fits_recordPair (hc : c.Fitting) : (recordPair rhs a b).Fits ∅ c := by
  unfold recordPair
  split
  · rename_i e _ a b _
    refine .quietly .tupleOf hc fun d hd _ _ hfit => ?_
    obtain ⟨vars, htuple⟩ := hd ▸ type_tupleOf [a, b] c
    generalize ((tupleOf [a, b]).1 c).1 = t at htuple
    have hshape : d.store.shape t = .tuple vars := by
      rw [shape_of_beneath_none (by rw [htuple]; rfl), htuple]
    have hchange {id r} (hr : (d.info.types.setPair t e).find? id = some r) :
        d.info.types.find? id = some r ∨ r.type = t := by
      rw [Records.find?_setPair] at hr
      split at hr
      · obtain ⟨r', -, rfl⟩ := Option.map_eq_some_iff.mp hr
        exact .inr rfl
      · exact .inl hr
    refine (fits_onRecords hfit (fun id r hr => ?_) fun id _ p hp => ?_).trivial
    · refine (hchange hr).imp_right ?_
      rintro rfl v _
      refine .inr (.inl ?_)
      rw [IsComposite, hshape]
      exact ⟨rfl, rfl⟩
    · obtain ⟨r, hr, hu, rfl⟩ := Records.open?_eq_some_iff.mp hp
      rcases hchange hr with hr | rfl
      · exact Records.open?_eq_some_iff.mpr ⟨r, hr, hu, rfl⟩
      · simp [isUntyped, htuple, Ty.basic?] at hu
  · exact .pure hc ⟨⟩

/-- Variables are initialized one by one, and the values of the others stay usable. -/
lemma fits_initEach (hc : c.Fitting) (hxs : ∀ x ∈ xs, x.UsableFrom ids c) :
    (initEach context vs xs).Fits objects c := by
  induction xs generalizing vs c with
  | nil => cases vs <;> exact .pure hc ⟨⟩
  | cons x xs ih =>
    cases vs with
    | nil => exact .pure hc ⟨⟩
    | cons v vs =>
      obtain ⟨e, hx, -⟩ := hxs x mem_cons_self
      refine (fits_initVar hc hx).bind fun _ d hd hk hfit _ => ?_
      refine (ih hfit fun y hy => ?_).bind fun _ f _ _ hf _ => .pure hf ⟨⟩
      exact (hxs y (mem_cons_of_mem _ hy)).keeps hd hk fun id _ => expr_notMem_objects id

lemma fits_refuseInit (hc : c.Fitting) :
    (refuseInit vs rhs xs returning).Fits objects c fun _ _ => True := by
  have hvars : (vs.forM fun v => do markUsed v; invalidateMissing v).Fits objects c := by
    refine fits_forM hc fun v _ d _ _ hd => ?_
    refine .quietly .markUsed hd fun f _ _ _ hf => ?_
    exact fits_invalidateMissing hf
  refine hvars.bind fun _ d _ _ hd _ => ?_
  split
  · exact .pure hd ⟨⟩
  · refine .entities ?_
    cases returning with
    | some span => exact .of_isQuiet (.emit isRedeclaration_returnCountReport) hd fun _ => ⟨⟩
    | none => exact .of_isQuiet .reportCounts hd fun _ => ⟨⟩

lemma fits_values_pending (hids : (exprsIds es).Nodup) (hc : c.Fitting) :
    (values (pending es) pair).Fits (exprs (exprsIds es)) c fun r d =>
      ∀ x ∈ r.1, x.UsableFrom (exprsIds es) d := by
  rw [← pendingIds_pending] at hids ⊢
  exact fits_values (faithful_pending es (pendingIds_pending es ▸ hids)) hids hc

lemma fits_useAll_pending (hids : (exprsIds es).Nodup) (hc : c.Fitting) :
    (useAll (pending es)).Fits (exprs (exprsIds es)) c := by
  rw [← pendingIds_pending]
  exact fits_useAll (faithful_pending es hids) hc

lemma fits_initVars (hids : (exprsIds rhs).Nodup) (hc : c.Fitting) :
    (initVars vs rhs returning).Fits (exprs (exprsIds rhs) ∪ objects) c := by
  refine (fits_values_pending hids hc).before Set.subset_union_left fun r d _ _ hd hr => ?_
  obtain ⟨xs, pair⟩ := r
  dsimp only at hr ⊢
  refine .widen ?_ Set.subset_union_right
  split
  · exact fits_refuseInit hd
  split
  · rename_i v w x y _
    obtain ⟨e, hx, -⟩ := hr x (by simp)
    refine (fits_initVar hd hx).bind fun a f hf hk hfit _ => ?_
    obtain ⟨e', hy, -⟩ := (hr y (by simp)).keeps hf hk fun id _ => expr_notMem_objects id
    refine (fits_initVar hfit hy).bind fun b g _ _ hg _ => ?_
    refine .quietly .logEvent hg fun k _ _ _ hk => ?_
    exact (fits_recordPair hk).widen (Set.empty_subset _)
  · refine (fits_initEach hd hr).bind fun ok f _ _ hf _ => ?_
    split
    · exact .pure hf ⟨⟩
    · exact .of_isQuiet (.forM fun _ _ => .markUsed) hf fun _ => ⟨⟩

section

variable {lhs : Expr} (hids : lhs.ids.Nodup) (hc : c.Fitting)
include hids hc

lemma fits_evalValue : lhs.evalValue.Fits (exprs lhs.ids) c :=
  (fits_value (faithful_eval lhs hids) hc).trivial

lemma fits_evalTarget : (evalTarget lhs).Fits (exprs lhs.ids) c := by
  have hrest (named? : Option ObjectId) {d : Checker} (hd : d.Fitting) :
      (entities >>= fun s => lhs.evalValue >>= fun x =>
        (named?.forM fun o => setUsed o (s.object o).isUsed) >>= fun _ => pure x).Fits
          (exprs lhs.ids) d := by
    refine .entities ?_
    refine (fits_evalValue hids hd).bind fun x f _ _ hf _ => ?_
    refine .quietly (.optionForM fun _ => .setUsed) hf fun g _ _ _ hg => ?_
    exact .pure hg ⟨⟩
  unfold evalTarget
  split
  · exact .quietly .localVar? hc fun d _ _ _ hd => hrest _ hd
  · exact hrest none hc

/-- The base of a selector is among its parts. -/
lemma fits_reportTarget : (reportTarget lhs x).Fits (exprs lhs.ids) c := by
  have hreport (inMap : Bool) {d : Checker} (hd : d.Fitting) :
      (if inMap then report (.fieldOfMapElement lhs.text) x.span
        else do report (.cannotAssignTo (← describe x)) x.span).Fits (exprs lhs.ids) d := by
    refine .of_isQuiet (.ite (.report rfl) ?_) hd fun _ => ⟨⟩
    exact .bind .describe fun _ => .report rfl
  unfold reportTarget
  split
  · rename_i n base sel
    have hbase := fits_evalValue (nodup_cons.mp hids).2 hc
    have hsub : base.ids ⊆ (Expr.selector n base sel).ids := subset_cons_self ..
    refine (hbase.widen (exprs_subset hsub)).bind fun y d _ _ hd _ => ?_
    exact hreport _ hd
  · exact hreport false hc

lemma fits_storageType : (storageType lhs).Fits (exprs lhs.ids) c := by
  refine (fits_evalTarget hids hc).bind fun x d _ _ hd _ => ?_
  split
  · exact .pure hd ⟨⟩
  · split
    · exact .pure hd ⟨⟩
    · exact .pure hd ⟨⟩
    · exact (fits_reportTarget hids hd).bind fun _ f _ _ hf _ => .pure hf ⟨⟩

lemma fits_targetType : (targetType lhs).Fits (exprs lhs.ids) c := by
  unfold targetType
  split
  · exact .of_isQuiet (.bind .recordDef .pure) hc fun _ => ⟨⟩
  · exact fits_storageType hids hc

/-- A target has other numbers than the value, which stays usable. -/
lemma fits_assignVar (hx : x.UsableFrom ids c) (hdisjoint : ids.Disjoint lhs.ids) :
    (assignVar lhs x).Fits (exprs lhs.ids) c := by
  unfold assignVar
  split
  · have huse : (useAll (pending [lhs])).Fits (exprs lhs.ids) c := by
      have hlist : exprsIds [lhs] = lhs.ids := append_nil _
      exact hlist ▸ fits_useAll_pending (hlist ▸ hids) hc
    exact huse.bind fun _ d _ _ hd _ => .pure hd ⟨⟩
  · refine (fits_targetType hids hc).bind fun t d hd hk hfit _ => ?_
    split
    · exact .pure hfit ⟨⟩
    · obtain ⟨e, hxd, -⟩ := hx.keeps hd hk fun id hid hmem =>
        hdisjoint hid (expr_mem_exprs.mp hmem)
      refine (fits_assignment hfit hxd).before (Set.empty_subset _) fun y f _ _ hf _ => ?_
      exact .pure hf ⟨⟩

end

lemma fits_assignTargets (hids : (exprsIds ls).Nodup)
    (hdisjoint : ids.Disjoint (exprsIds ls)) (hc : c.Fitting) (hxs : ∀ x ∈ xs, x.UsableFrom ids c) :
    (assignTargets ls xs).Fits (exprs (exprsIds ls)) c := by
  induction ls generalizing xs c with
  | nil => cases xs <;> exact .pure hc ⟨⟩
  | cons l ls ih =>
    cases xs with
    | nil => exact .pure hc ⟨⟩
    | cons x xs =>
      obtain ⟨hl, hls, -⟩ := nodup_append'.mp hids
      obtain ⟨hdl, hdls⟩ := disjoint_append_right.mp hdisjoint
      refine (fits_assignVar hl hc (hxs x mem_cons_self) hdl).before
        (exprs_subset (subset_append_left ..)) fun _ d hd hk hfit _ => ?_
      refine (ih hls hdls hfit fun y hy => ?_).before
        (exprs_subset (subset_append_right ..)) fun _ f _ _ hf _ => .pure hf ⟨⟩
      exact (hxs y (mem_cons_of_mem _ hy)).keeps hd hk fun id hid hmem =>
        hdl hid (expr_mem_exprs.mp hmem)

lemma fits_assignVars {lhs rhs : List Expr} (hids : (exprsIds lhs ++ exprsIds rhs).Nodup)
    (hc : c.Fitting) :
    (assignVars lhs rhs).Fits (exprs (exprsIds lhs ++ exprsIds rhs)) c := by
  obtain ⟨hl, hr, hdisjoint⟩ := nodup_append'.mp hids
  refine (fits_values_pending hr hc).before (exprs_subset (subset_append_right ..))
    fun r d _ _ hd hxs => ?_
  obtain ⟨xs, pair⟩ := r
  dsimp only at hxs ⊢
  -- From here on only the targets matter.
  refine .widen ?_
    (exprs_subset (subset_append_left ..))
  split
  · refine (fits_useAll_pending hl hd).bind fun _ f _ _ hf _ => ?_
    split
    · exact .pure hf ⟨⟩
    · exact .of_isQuiet .reportCounts hf fun _ => ⟨⟩
  split
  · rename_i l m x y _
    obtain ⟨hlids, hmids, -⟩ := nodup_append'.mp hl
    have hm : exprsIds [m] = m.ids := append_nil _
    obtain ⟨hdl, hdm⟩ := disjoint_append_right.mp hdisjoint.symm
    rw [hm] at hmids hdm
    refine (fits_assignVar hlids hd (hxs x (by simp)) hdl).before
      (exprs_subset (subset_append_left ..)) fun a f hf hk hfit _ => ?_
    have hy := (hxs y (by simp)).keeps hf hk fun id hid hmem =>
      hdl hid (expr_mem_exprs.mp hmem)
    refine (fits_assignVar hmids hfit hy hdm).before
      (exprs_subset (hm ▸ subset_append_right ..)) fun b g _ _ hg _ => ?_
    refine .quietly .logEvent hg fun k _ _ _ hk => ?_
    exact (fits_recordPair hk).widen (Set.empty_subset _)
  · refine (fits_assignTargets hl hdisjoint.symm hd hxs).bind fun ok f _ _ hf _ => ?_
    split
    · exact .pure hf ⟨⟩
    · exact .of_isQuiet .markTargets hf fun _ => ⟨⟩

/-! ## Sessions -/

variable {m : Pass α} {f : α → Pass β} {c : Checker} {run : Deferred → Pass Unit}

/-- A pass that leaves constants fitting. -/
abbrev KeepsFitting (m : Pass α) : Prop := m.Preserves Checker.Fitting

lemma Fits.fitting_bind (hm : m.Fits I c R)
    (hf : ∀ a d, c.Steps d → c.Keeps I d → d.Fitting → R a d → ((f a).1 d).2.Fitting) :
    ((m >>= f).1 c).2.Fitting :=
  hf _ _ (m.2 c) hm.2.1 hm.1 hm.2.2

lemma IsQuiet.keepsFitting (hm : m.IsQuiet fun _ => True) : m.KeepsFitting :=
  preserves_of_state fun c hc => hc.quiet (m.2 c) (hm.quiet c)

lemma KeepsFitting.note : (note h).KeepsFitting :=
  preserves_of_state fun _ hc => ⟨hc.orderly, hc.entry, hc.deferred⟩

variable {spec : Spec} {e : Expr} {x : ScopeId} {lhs : List Expr}

lemma KeepsFitting.move : (move context).KeepsFitting :=
  preserves_of_state fun _ hc => ⟨hc.orderly, hc.entry, hc.deferred⟩

variable {span : Span} {declared : Option TypeId}

lemma KeepsFitting.newScope {parent : Option ScopeId} :
    (newScope parent span comment isFunc).KeepsFitting := preserves_of_state fun c hc =>
  hc.quiet (steps _ c) (.of_objects_eq newScope_objects rfl rfl rfl)

lemma KeepsFitting.within (hm : m.KeepsFitting) : (within context m).KeepsFitting :=
  .before IsQuiet.current.keepsFitting fun _ => KeepsFitting.move.before fun _ =>
    hm.before fun _ => KeepsFitting.move.before fun _ => preserves_pure _

lemma KeepsFitting.initVars
    (hids : (exprsIds rhs).Nodup) : (initVars vs rhs returning).KeepsFitting :=
  preserves_of_state fun _ hc => (fits_initVars hids hc).1

lemma KeepsFitting.initSeparately (hids : (exprsIds es).Nodup) :
    (initSeparately untyped vs es).KeepsFitting := by
  induction vs generalizing es with
  | nil => exact preserves_pure _
  | cons v vs ih =>
    cases es with
    | nil =>
      have hmissing : (invalidateMissing v).KeepsFitting :=
        preserves_of_state fun _ hc => (fits_invalidateMissing hc).1
      exact Maintains.ite (hmissing.before fun _ => ih hids) (ih hids)
    | cons e es =>
      obtain ⟨he, hes, -⟩ := nodup_append'.mp hids
      refine preserves_of_state fun c hc => ?_
      apply (fits_value (faithful_eval e he) hc).fitting_bind
      intro x d _ _ hd hx
      apply (fits_initVar hd hx.usable).discard.fitting_bind
      intro _ f _ _ hf _
      exact (ih hes).state f hf

lemma specIds_eq (spec : Spec) : specIds spec = exprsIds spec.values := by
  cases spec
  rfl

lemma KeepsFitting.makeVars (hids : (specIds spec).Nodup) : (makeVars spec).KeepsFitting := by
  rw [specIds_eq] at hids
  have htype : (spec.type.mapM TypeExpr.resolve).KeepsFitting := by
    cases spec.type with
    | none => exact preserves_pure _
    | some e => exact (IsQuiet.resolve e).keepsFitting.before fun _ => preserves_pure _
  have harity : (checkArity spec.names spec.values false).KeepsFitting :=
    IsQuiet.checkArity.keepsFitting
  apply htype.before
  intro declared
  apply IsQuiet.current.keepsFitting.before
  intro _
  apply (IsQuiet.mapM fun _ => .newVar).keepsFitting.before
  intro vs
  apply Preserves.before
  · exact Maintains.ite (KeepsFitting.initVars hids) (KeepsFitting.initSeparately hids)
  · intro _
    exact Maintains.ite (harity.before fun _ => preserves_pure _) (preserves_pure _)

/-- A declared type of constants has constants, or it is invalid. -/
def ConstTypes (s : Store) (declared : Option TypeId) : Prop :=
  ∀ u, declared = some u → u = .invalid ∨ s.isConstType u = true

lemma ConstTypes.extends (h : ConstTypes s declared) (hs : s.Extends s') :
    ConstTypes s' declared :=
  fun u hu => (h u hu).imp_right hs.isConstType

lemma constTypes_constType (type : Option TypeExpr) (c : Checker) :
    ConstTypes ((type.mapM constType).1 c).2.store ((type.mapM constType).1 c).1 := by
  cases type with
  | none => exact fun _ hu => by cases hu
  | some e =>
    intro u hu
    cases hu
    change _ ∨ ((constType e).1 c).2.store.isConstType _
    rw [constType, bind_run, entities_bind_run]
    split
    · rename_i hconst
      exact .inr hconst
    · split <;> exact .inl rfl

lemma fits_newConst {package : Option PackageId} (hc : c.Fitting) :
    (newConst span package name declared .unknown).Fits ∅ c fun o d =>
      o.index < d.store.objects.size ∧ (d.store.object o).type = declared := by
  apply Fits.of_isQuiet .newConst hc
  intro _
  refine ⟨lt_of_lt_of_eq (Nat.lt_succ_self _) (Array.size_push _).symm, ?_⟩
  exact congrArg Object.type ((object_newObject ..).trans (if_pos rfl))

/-- The evaluation of its value leaves the type of a constant alone. -/
lemma fits_initNew (hc : c.Fitting) (hids : e.ids.Nodup)
    (ho : o.index < c.store.objects.size) (htype : (c.store.object o).type = declared)
    (hdeclared : ConstTypes c.store declared) :
    (e.evalValue >>= initConst o).Fits (Place.exprs e.ids ∪ Place.objects) c := by
  apply (fits_value (faithful_eval e hids) hc).before Set.subset_union_left
  intro x d hd hk hfit hx
  obtain ⟨hod, htyped⟩ := hk.object o (Place.object_notMem_exprs o e.ids) ho
  apply (fits_initConst hfit hx.usable hod _).widen Set.subset_union_right
  rw [htyped, htype]
  exact hdeclared.extends hd.extends

lemma fitting_initConsts (hids : (exprsIds es).Nodup) (hc : c.Fitting)
    (hdeclared : ConstTypes c.store declared) : ((initConsts declared names es).1 c).2.Fitting := by
  induction names generalizing es c with
  | nil => exact hc
  | cons i is ih =>
    have htail : (exprsIds es.tail).Nodup := by
      cases es with
      | nil => exact hids
      | cons e es => exact (nodup_append'.mp hids).2.1
    rw [initConsts, current_bind_run]
    apply (fits_newConst hc).fitting_bind
    intro o d hd _ hfit hnew
    -- Whatever happens to the first constant, types that have constants go on to have them.
    have hrest {f} (hdf : d.Steps f) (hf : f.Fitting) :
        ((initConsts declared is es.tail >>= fun os => pure (o :: os)).1 f).2.Fitting :=
      ih htail hf (hdeclared.extends (hd.trans hdf).extends)
    obtain ⟨ho, htype⟩ := hnew
    split
    · exact hrest (.refl d) hfit
    · cases es with
      | nil =>
        -- A missing value counts as one that is invalid.
        exact (fits_invalidateMissing hfit).fitting_bind fun _ f hf _ hfit' _ => hrest hf hfit'
      | cons e es =>
        have hinit := fits_initNew hfit (nodup_append'.mp hids).1 ho htype
          (hdeclared.extends hd.extends)
        exact hinit.fitting_bind fun _ f hf _ hfit' _ => hrest hf hfit'

lemma KeepsFitting.makeConsts (hids : (specIds spec).Nodup) : (makeConsts spec).KeepsFitting := by
  rw [specIds_eq] at hids
  have htype : (spec.type.mapM constType).KeepsFitting := by
    cases spec.type with
    | none => exact preserves_pure _
    | some e => exact IsQuiet.constType.keepsFitting.before fun _ => preserves_pure _
  refine preserves_of_state fun c hc => IsQuiet.checkArity.keepsFitting.state _ ?_
  exact fitting_initConsts hids (htype.state c hc) (constTypes_constType spec.type c)

lemma KeepsFitting.specs {make : Spec → Pass (List ObjectId)} {specs : List Spec}
    (hmake : ∀ spec, (specIds spec).Nodup → (make spec).KeepsFitting)
    (hids : (specsIds specs).Nodup) :
    (specs.forM fun spec => do declareSpec spec (← make spec)).KeepsFitting := by
  induction specs with
  | nil => exact preserves_pure _
  | cons spec specs ih =>
    obtain ⟨hspec, hspecs, -⟩ := nodup_append'.mp hids
    have hdeclare os : (declareSpec spec os).KeepsFitting := by
      apply IsQuiet.keepsFitting
      exact .bind (.bind IsQuiet.current IsQuiet.pure) fun _ => IsQuiet.declareAll ⟨⟩
    exact ((hmake spec hspec).before hdeclare).before fun _ => ih hspecs

lemma KeepsFitting.useAll (hids : (exprsIds es).Nodup) : (useAll (pending es)).KeepsFitting :=
  preserves_of_state fun _ hc => (fits_useAll_pending hids hc).1

lemma KeepsFitting.shortTargets
    (hids : (exprsIds lhs).Nodup) : (shortTargets x seen lhs).KeepsFitting := by
  induction lhs generalizing seen with
  | nil => exact preserves_pure _
  | cons e es ih =>
    obtain ⟨he, hes, -⟩ := nodup_append'.mp hids
    have hrest t seen : (Pass.shortTargets x seen es >>= fun ts => pure (t :: ts)).KeepsFitting :=
      (ih hes).before fun _ => preserves_pure _
    have hreport {problem} (h : problem.fault != .duplicateDecl) :
        (report problem e.span).KeepsFitting := (IsQuiet.report h).keepsFitting
    unfold Pass.shortTargets
    split
    · apply (KeepsFitting.useAll _).before
      · exact fun _ => (hreport rfl).before fun _ => hrest _ _
      · simpa [exprsIds] using he
    · apply Maintains.ite
      · exact (hreport rfl).before fun _ => hrest _ _
      · exact IsQuiet.shortName.keepsFitting.before fun _ => hrest _ _

lemma KeepsFitting.shortInit (hids : (exprsIds lhs ++ exprsIds rhs).Nodup) :
    (shortInit x lhs rhs).KeepsFitting := by
  obtain ⟨hl, hr, -⟩ := nodup_append'.mp hids
  apply (KeepsFitting.shortTargets hl).before
  intro targets
  apply IsQuiet.targetVars.keepsFitting.before
  intro vars
  apply IsQuiet.entities.keepsFitting.before
  intro s
  exact (KeepsFitting.initVars hr).before fun _ => preserves_pure _

lemma KeepsFitting.exprStmt (hids : e.ids.Nodup) : (exprStmt e).KeepsFitting := by
  have heval : e.eval.KeepsFitting :=
    preserves_of_state fun _ hc => (faithful_eval e hids _ hc).1
  apply heval.before
  intro r
  apply IsQuiet.keepsFitting
  have hdescribe {problem : String → Problem} (h : ∀ text, (problem text).fault != .duplicateDecl) :
      (describe r.1 >>= fun text => report (problem text) r.1.span).IsQuiet fun _ => True :=
    .bind IsQuiet.describe fun text => IsQuiet.report (h text)
  dsimp only
  split
  · exact .pure _
  · exact hdescribe fun _ => rfl
  · exact .pure _
  · exact hdescribe fun _ => rfl

lemma KeepsFitting.returnStmt {values : List Expr} (hids : (exprsIds values).Nodup) :
    (returnStmt span values).KeepsFitting := by
  apply IsQuiet.current.keepsFitting.before
  intro c
  cases c.context.sig with
  | none => exact (IsQuiet.report rfl).keepsFitting
  | some sig =>
    apply Maintains.ite
    · exact IsQuiet.bareReturn.keepsFitting
    · exact Maintains.ite (KeepsFitting.initVars hids) (preserves_pure _)

lemma KeepsFitting.openScope : (openScope span).KeepsFitting :=
  .before IsQuiet.current.keepsFitting fun _ => KeepsFitting.newScope.before fun _ =>
    .before IsQuiet.recordScope.keepsFitting fun _ => KeepsFitting.move

lemma KeepsFitting.closeScope : closeScope.KeepsFitting :=
  .before IsQuiet.current.keepsFitting fun _ => KeepsFitting.move

/-- A check of bodies that leaves constants fitting where numbers are distinct. -/
def KeepsInBodies (run : Deferred → Pass Unit) : Prop :=
  ∀ d, (blockIds d.body).Nodup → (run d).KeepsFitting

lemma KeepsFitting.runDeferred (hrun : KeepsInBodies run) : (runDeferred run top).KeepsFitting := by
  refine preserves_of_state fun c hc => ?_
  have hbodies : ((c.deferred.drop top).forM run).KeepsFitting :=
    preserves_forM fun d hd => hrun d (hc.deferred d (mem_of_mem_drop hd))
  exact (hbodies.state c hc).dropDeferred

lemma KeepsFitting.shortDecl (hrun : KeepsInBodies run)
    (hids : (exprsIds lhs ++ exprsIds rhs).Nodup) : (shortDecl run span lhs rhs).KeepsFitting := by
  apply (IsQuiet.current.bind fun _ => .pure _).keepsFitting.before
  intro top
  apply IsQuiet.current.keepsFitting.before
  intro c
  cases c.context.scope with
  | none => exact (IsQuiet.report rfl).keepsFitting
  | some scope =>
    apply (KeepsFitting.shortInit hids).before
    intro r
    apply (KeepsFitting.runDeferred hrun).before
    intro _
    exact (IsQuiet.declareShort ⟨⟩).keepsFitting

lemma KeepsFitting.observeStmt {s : Stmt} {m : Pass Unit} (hrun : KeepsInBodies run)
    (hm : m.KeepsFitting) : (observeStmt run s m).KeepsFitting := by
  apply KeepsFitting.note.before
  intro _
  apply IsQuiet.traceLine.keepsFitting.before
  intro _
  apply IsQuiet.indentTrace.keepsFitting.before
  intro _
  apply (IsQuiet.current.bind fun _ => .pure _).keepsFitting.before
  intro top
  apply hm.before
  intro _
  apply (KeepsFitting.runDeferred hrun).before
  intro _
  exact IsQuiet.unindentTrace.keepsFitting.before fun _ => KeepsFitting.note

mutual

theorem KeepsFitting.act (hrun : KeepsInBodies run) (s : Stmt) (hids : s.ids.Nodup) :
    (s.act run).KeepsFitting := by
  cases s with
  | empty span => exact preserves_pure _
  | block span body => exact .enterBlock hrun body hids
  | var span specs => exact .specs (fun _ => .makeVars) hids
  | const span specs => exact .specs (fun _ => .makeConsts) hids
  | short span lhs rhs => exact .shortDecl hrun hids
  | assign span lhs rhs => exact preserves_of_state fun _ hc => (fits_assignVars hids hc).1
  | ret span values => exact .returnStmt hids
  | expr span e => exact .exprStmt hids

theorem KeepsFitting.enterBlock (hrun : KeepsInBodies run) (body : BlockOf Stmt)
    (hids : (blockIds body).Nodup) : (enterBlock run body).KeepsFitting := by
  obtain ⟨stmts, span⟩ := body
  rw [GoCheck.enterBlock]
  apply KeepsFitting.openScope.before
  intro _
  exact (KeepsFitting.checkStmts hrun stmts hids).before fun _ => KeepsFitting.closeScope

theorem KeepsFitting.checkStmts (hrun : KeepsInBodies run) (ss : List Stmt)
    (hids : (stmtsIds ss).Nodup) : (checkStmts run ss).KeepsFitting := by
  cases ss with
  | nil => exact preserves_pure _
  | cons s ss =>
    rw [GoCheck.checkStmts, Stmt.check_eq]
    obtain ⟨hs, hss, -⟩ := nodup_append'.mp hids
    exact (KeepsFitting.observeStmt hrun (.act hrun s hs)).before fun _ =>
      KeepsFitting.checkStmts hrun ss hss

end

lemma KeepsFitting.functionBody {d : Deferred} (hrun : KeepsInBodies run)
    (hids : (blockIds d.body).Nodup) : (functionBody run title d).KeepsFitting := by
  have hstmts : (GoCheck.checkStmts run d.body.stmts).KeepsFitting := by
    apply KeepsFitting.checkStmts hrun
    cases hbody : d.body
    rwa [hbody] at hids
  apply IsQuiet.traceLine.keepsFitting.before
  intro _
  apply KeepsFitting.within
  apply hstmts.before
  intro _
  exact (IsQuiet.checkReturn.bind fun _ => .checkUsage).keepsFitting

lemma keepsInBodies_literalBody (n : Nat) : KeepsInBodies (literalBody n) := by
  induction n with
  | zero => exact fun _ _ => preserves_pure _
  | succ n ih =>
    intro d hids
    apply KeepsFitting.note.before
    intro _
    exact (KeepsFitting.functionBody ih hids).before fun _ => KeepsFitting.note

lemma keepsInBodies_checkLiteral : KeepsInBodies checkLiteral :=
  fun d => keepsInBodies_literalBody (blockDepth d.body + 1) d

/-! ## Sessions -/

variable {c : Checker}

/-- A new object leaves constants fitting, unless it is one that its type does not hold. -/
lemma fitting_newObject (hc : c.Fitting) (hob : ∀ v, ob.value? = some v →
      v.isRegular ∧ ∃ t, ob.type = some t ∧ c.store.Holds t v) :
    ((build (newObject ob) h).1 c).2.Fitting := by
  have hsteps := steps (build (newObject ob) h) c
  apply hc.of_values hsteps rfl rfl rfl
  intro o v hv _
  change ((newObject ob c.store).2.object o).value? = some v at hv
  change _ ∨ v.isRegular ∧ ∃ t, ((newObject ob c.store).2.object o).type = some t ∧ _
  rw [object_newObject] at hv ⊢
  split at hv
  · rename_i ho
    obtain ⟨hregular, t, ht, hholds⟩ := hob v hv
    rw [if_pos ho]
    exact .inr ⟨hregular, t, ht, hholds.extends hsteps.extends⟩
  · exact .inl hv

lemma fitting_declareNew
    (hnew : ((new (some c.package)).1 c).2.Fitting) : ((declareNew new).1 c).2.Fitting := by
  have hdeclare o : (declareInPackage o).KeepsFitting := by
    apply IsQuiet.keepsFitting
    exact .bind IsQuiet.current fun _ => IsQuiet.declare ⟨⟩
  exact (hdeclare _).state _ hnew

lemma KeepsFitting.bodyIn {scope : ScopeId} (hids : (blockIds body).Nodup) :
    (bodyIn sig scope body).KeepsFitting :=
  (KeepsFitting.functionBody keepsInBodies_checkLiteral hids).before fun _ =>
    KeepsFitting.runDeferred keepsInBodies_checkLiteral

lemma KeepsFitting.bodyOf (hids : (blockIds body).Nodup) : (bodyOf sig body).KeepsFitting := by
  apply IsQuiet.current.keepsFitting.before
  intro c
  apply KeepsFitting.newScope.before
  intro scope
  apply IsQuiet.entities.keepsFitting.before
  intro s
  split
  · exact (IsQuiet.report rfl).keepsFitting
  · apply Preserves.before
    · apply (IsQuiet.forM _).keepsFitting
      exact fun _ _ => .ite (.pure _) (.declare ⟨⟩)
    · exact fun _ => KeepsFitting.bodyIn hids

lemma KeepsFitting.function {sig : FuncSig} (hids : (blockIds body).Nodup) :
    (function sig body).KeepsFitting := by
  apply IsQuiet.current.keepsFitting.before
  intro c
  apply (KeepsFitting.within (IsQuiet.resolveSig sig).keepsFitting).before
  intro r
  exact (KeepsFitting.bodyIn hids).before fun _ => preserves_pure _

lemma KeepsFitting.block (hids : (blockIds body).Nodup) : (block body).KeepsFitting := by
  apply (IsQuiet.current.bind fun _ => .pure _).keepsFitting.before
  intro top
  apply (KeepsFitting.enterBlock keepsInBodies_checkLiteral body hids).before
  exact fun _ => KeepsFitting.runDeferred keepsInBodies_checkLiteral

end Pass

/-- The declaration of a constant that its type holds, or the check of a tree with distinct numbers,
by which expressions are recorded. -/
def Request.Fits (s : Store) : Request → Prop
  | declareConst _ t v => v.isRegular = true ∧ s.Holds t v
  | checkFunc _ body | checkFuncBody _ body | checkBlock body => (blockIds body).Nodup
  | declareVar .. | declareType _ | declareFunc .. => True

variable {c : Checker} {s : Store}

lemma Request.fitting {r : Request} (hc : c.Fitting) (hr : r.Fits c.store) :
    (r.answer c).Fitting := by
  cases r with
  | declareVar name t | declareFunc name sig =>
    apply fitting_declareNew
    exact fitting_newObject hc fun v hv => by cases hv
  | declareConst name t v =>
    apply fitting_declareNew
    apply fitting_newObject hc
    rintro _ ⟨⟩
    exact ⟨hr.1, t, rfl, hr.2⟩
  | declareType o =>
    apply (IsQuiet.keepsFitting _).state c hc
    exact .bind .current fun _ => .declare ⟨⟩
  | checkFunc sig body => exact (KeepsFitting.function hr).state c hc
  | checkFuncBody sig body => exact (KeepsFitting.bodyOf hr).state c hc
  | checkBlock body => exact (KeepsFitting.block hr).state c hc

lemma Store.Orderly.of_eq (hs : s.Orderly) (htypes : s'.types = s.types)
    (hobjects : s'.objects = s.objects) : s'.Orderly := by
  have htype t : s'.type t = s.type t := by rw [type, type, htypes]
  have hobject o : s'.object o = s.object o := by rw [object, object, hobjects]
  have hextends : s.Extends s' :=
    ⟨le_of_eq (congrArg Array.size htypes.symm), fun t _ => by rw [htype],
      fun t _ => by rw [htype]⟩
  refine ⟨⟨fun k => ?_, fun t u m n ht hu => ?_, fun t u hu => ?_⟩, fun o v hv hknown => ?_⟩
  · exact (htype _).trans (hs.basic k)
  · exact hs.named t u m n (htype t ▸ ht) (htype u ▸ hu)
  · rw [isUntyped, htype]
    exact hs.beneath t u (htype t ▸ hu)
  · obtain ⟨hregular, t, ht, hholds⟩ := hs.const o v (hobject o ▸ hv) hknown
    exact ⟨hregular, t, (hobject o).symm ▸ ht, hholds.extends hextends⟩

lemma Store.Orderly.newPackage (hs : s.Orderly) : ((newPackage path name).run s).2.Orderly := by
  have hscope : (newScope (some universeScope) 0 0 ("package " ++ path) false s).2.Orderly :=
    hs.of_eq newScope_types newScope_objects
  exact hscope.of_eq rfl rfl

/-- What a host may do: it leaves entities in order, and types go on holding what they hold. -/
structure Store.OrderlyChange (s s' : Store) : Prop where
  orderly : s'.Orderly
  holds : ∀ t v, s.Holds t v → s'.Holds t v
  composite : ∀ t, s.IsComposite t → s'.IsComposite t

lemma Checker.Fitting.orderlyChange (hc : c.Fitting) (h : c.store.OrderlyChange s) :
    { c with store := s }.Fitting := by
  refine ⟨h.orderly, fun id r hr v hv => ?_, hc.deferred⟩
  rcases hc.entry id r hr v hv with hholds | hcomposite | hexcused
  · exact .inl (h.holds _ _ hholds)
  · exact .inr (.inl (h.composite _ hcomposite))
  · exact .inr (.inr hexcused)

/-- A host that keeps entities in order and declares constants that their types hold. -/
def Host.orderly : Host where
  changes := OrderlyChange
  asks s r := r.Fits s

namespace Session

variable {taken : List Diagnostic} {c : Checker}

lemma start_fitting (config : Config) : (Checker.start config).Fitting where
  orderly := initial_orderly.newPackage
  entry id r hr := by cases hr
  deferred d hd := by cases hd

lemma fitting (h : Session .orderly taken c) : c.Fitting := by
  induction h with
  | start config => exact start_fitting config
  | change _ hchange ih => exact ih.orderlyChange hchange
  | move context _ ih | take _ ih => exact ⟨ih.orderly, ih.entry, ih.deferred⟩
  | ask _ hask ih => exact Request.fitting ih hask

/-- In a session with an orderly host, a constant that is recorded with a type that has a basic type
beneath it fits this basic type, unless it lends its value to the argument of a conversion whose
result is no constant and the type is a default type. -/
theorem recorded_fits (h : Session .orderly taken c) {id : Nat} {r : Recorded} {v : Constant}
    {k : BasicKind} (hr : c.info.types.find? id = some r) (hv : r.mode = .constant v)
    (htyped : c.store.isUntyped r.type = false) (hk : c.store.shape r.type = .basic k) :
    v.fits k k.family = true ∨ c.Excused id r.type := by
  rcases h.fitting.entry id r hr v hv with hholds | hcomposite | hexcused
  · rcases hholds with hunknown | huntyped | ⟨j, hj, hfits⟩
    · exact .inl (Constant.fits_of_isUnknown hunknown _)
    · rw [htyped] at huntyped
      cases huntyped
    · obtain rfl : k = j := Ty.basic.inj (hk.symm.trans hj)
      exact .inl hfits
  · have hnone := hcomposite.1
    rw [hk] at hnone
    cases hnone
  · exact .inr hexcused

/-- `{ _ = limit; _ = any(9223372036854775808) }` -/
def boxedLiteral : Block where
  stmts := [
    .assign ⟨2, 11⟩ [.ident ⟨0, ⟨2, 3⟩⟩ ⟨some "_", ⟨2, 3⟩⟩]
      [.ident ⟨1, ⟨6, 11⟩⟩ ⟨some "limit", ⟨6, 11⟩⟩],
    .assign ⟨13, 41⟩ [.ident ⟨2, ⟨13, 14⟩⟩ ⟨some "_", ⟨13, 14⟩⟩]
      [.call ⟨3, ⟨17, 41⟩⟩ (.ident ⟨4, ⟨17, 20⟩⟩ ⟨some "any", ⟨17, 20⟩⟩)
        [.lit ⟨5, ⟨21, 40⟩⟩ .int (some "9223372036854775808")] false]]
  span := ⟨0, 43⟩

/-- The state after the block has been checked, with a constant of a small type declared before. -/
def boxedState : Checker :=
  (Request.checkBlock boxedLiteral).answer
    ((Request.declareConst "limit" (.basic .uint8) (.small 255)).answer (.start {}))

lemma boxedState_reached : Session .orderly [] boxedState := by
  have hlimit : (Checker.start {}).store.Holds (.basic .uint8) (.small 255) :=
    .inr (.inr ⟨.uint8, (start_fitting {}).orderly.shape_basic .uint8, by decide⟩)
  have hconst : Session .orderly [] _ := (Session.start {}).ask
    (r := .declareConst "limit" (.basic .uint8) (.small 255)) ⟨rfl, hlimit⟩
  have hids : (blockIds boxedLiteral).Nodup := by decide
  exact hconst.ask (r := .checkBlock boxedLiteral) hids

/-- The use of the constant is recorded with a value that its type holds. -/
theorem boxedState_limit_fits :
    boxedState.info.types.find? 1 = some ⟨.constant (.small 255), .basic .uint8⟩ ∧
      (Constant.small 255).fits .uint8 BasicKind.uint8.family = true := by
  have hrecorded : boxedState.info.types.find? 1 =
      some ⟨.constant (.small 255), .basic .uint8⟩ := by decide +kernel
  have hshape := boxedState_reached.fitting.orderly.shape_basic .uint8
  have htyped : boxedState.store.isUntyped (.basic .uint8) = false := by
    rw [isUntyped, boxedState_reached.fitting.orderly.basic]
    rfl
  refine ⟨hrecorded, (recorded_fits boxedState_reached hrecorded rfl htyped hshape).resolve_right ?_⟩
  rintro ⟨conv, -, -, -, k, hk, ht⟩
  cases k <;> cases hk <;> cases ht

/-- The argument is recorded with the type `int`, which does not hold it; nothing is reported. -/
theorem boxedState_literal_unfit :
    Session .orderly [] boxedState ∧ boxedState.sink.reports = #[] ∧
      boxedState.info.types.find? 5 =
        some ⟨.constant (.big 9223372036854775808), .basic .int⟩ ∧
      boxedState.store.isUntyped (.basic .int) = false ∧
      boxedState.store.shape (.basic .int) = .basic .int ∧
      (Constant.big 9223372036854775808).fits .int BasicKind.int.family = false := by
  refine ⟨boxedState_reached, ?_⟩
  decide +kernel

end Session

end GoCheck
