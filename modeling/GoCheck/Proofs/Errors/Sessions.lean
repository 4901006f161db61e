import GoCheck.Proofs.Regime.Statements

/-!
# Nothing is invalid without an error

A state is settled if an error has been reported or nothing is invalid. These states are those of a
regime in which an error excuses everything, so sessions keep them if the host makes nothing
invalid.
-/

namespace GoCheck

open Notions Checker Regime Store Build

variable {c : Checker} {x : Operand} {i : Implicit} {ty : Ty}

/-- Nothing is invalid: the store is clean, and no expression has failed. -/
structure Checker.Sane (c : Checker) : Prop where
  clean : c.store.Clean
  failed : c.info.failed = []

/-- An error has been reported, or nothing is invalid. -/
def Checker.Settled (c : Checker) : Prop := c.Failed ∨ c.Sane

/-- An error has been reported, or the store has a property that steps keep. -/
def Fact.orError (P : Store → Prop) (hP : ∀ {c d : Checker}, c.Steps d → P c.store → P d.store) :
    Fact :=
  ⟨fun c => c.Failed ∨ P c.store, fun hd h => h.imp (·.steps hd) (hP hd)⟩

/-- Types are sound and objects exist, unless an error has been reported. -/
def Notions.orError : Notions where
  type t := .orError (·.Sound t) fun hd ht => ht.steps hd
  place _ := .any
  object o := .orError (·.HasObject o) fun hd ho => ho.steps hd
  scope _ := .any
  constant _ := .any
  excused := ⟨Failed, fun hd h => h.steps hd⟩
  given _ := True
  vouched _ := True
  strict := false

namespace Notions

lemma orError_typed (h : c.Failed ∨ c.store.Typed o) : (orError.typed o).At c := by
  rcases h with hfailed | ⟨t, ht⟩
  · exact typed_of_excused (.inl hfailed) hfailed
  · exact typed_of_type (.inr (Typed.hasObject ⟨t, ht⟩)) ht

lemma typed_of_orError (h : (orError.typed o).At c) (hc : ¬ c.Failed) : c.store.Typed o := by
  cases htype : (c.store.object o).type with
  | none => exact absurd (h.2 htype) hc
  | some t => exact ⟨t, htype⟩

lemma valid_of_orError (h : (orError.sound x).At c) (hc : ¬ c.Failed) :
    x.mode ≠ .invalid ∧ ∃ t, x.type = some t ∧ c.store.Sound t := by
  refine ⟨fun hmode => hc (h.2 (.inl hmode)), ?_⟩
  cases htype : x.type with
  | none => exact absurd (h.2 (.inr htype)) hc
  | some t => exact ⟨t, rfl, (h.1 t htype).resolve_left hc⟩

end Notions

lemma Store.Implicitly.sound {s : Store} {target : TypeId}
    (h : s.Implicitly x target i) (hs : s.Clean) (hx : ∃ t, x.type = some t ∧ s.Sound t) :
    ∃ t, i.type = some t ∧ s.Sound t := by
  obtain ⟨old, hold, hsound⟩ := hx
  cases h with
  | same => exact ⟨old, hold, hsound⟩
  | untyped _ _ hold' htarget hm =>
    rcases hm with rfl | rfl
    · exact ⟨_, rfl, sound_of_isUntyped hold'⟩
    · exact ⟨_, rfl, sound_of_isUntyped htarget⟩
  | constant _ _ _ hinv _ _ _ _ | value _ _ _ hinv _ =>
    exact ⟨target, rfl, sound_of_isInvalid_eq_false hinv⟩
  | default _ hold' _ _ =>
    cases hold.symm.trans hold'
    exact ⟨_, rfl, hs.sound_defaultType hsound⟩

namespace Pass

variable {m : Pass α}

lemma settles (hc : c.Settled) (hQ : ∀ a d, d.Failed → (Q a).At d)
    (hm : ¬ c.Failed → c.Sane → (m.1 c).2.Sane ∧ (Q (m.1 c).1).At (m.1 c).2) :
    m.Leads Settled c Q := by
  by_cases hfailed : c.Failed
  · exact ⟨.inl (hfailed.steps (m.2 c)), hQ _ _ (hfailed.steps (m.2 c))⟩
  · obtain ⟨hsane, hresult⟩ := hm hfailed (hc.resolve_left hfailed)
    exact ⟨.inr hsane, hresult⟩

lemma settles_to (hc : c.Settled) (hm : c.Sane → (m.1 c).2.Sane) : m.LeadsTo Settled c :=
  settles hc (fun _ _ _ => trivial) fun _ hsane => ⟨hm hsane, trivial⟩

/-- A change that leaves alone the entities and the list of failed expressions. -/
lemma settles_step (hc : c.Settled)
    (hstore : (g c).store = c.store) (hfailed : (g c).info.failed = c.info.failed) :
    (step g h).LeadsTo Settled c :=
  settles_to hc fun hsane => ⟨hstore ▸ hsane.clean, hfailed.trans hsane.failed⟩

lemma settles_emit (hc : c.Settled) : (emit r).LeadsTo Settled c :=
  settles_step hc rfl rfl

lemma settles_report (hc : c.Settled) : (report p span).LeadsTo Settled c :=
  settles_emit hc

lemma settles_build (hc : c.Settled)
    (hQ : ∀ a d, d.Failed → (Q a).At d) (hm : ¬ c.Failed → c.store.Clean → (b c.store).2.Clean ∧
      (Q (b c.store).1).At { c with store := (b c.store).2 }) :
    (build b h).Leads Settled c Q :=
  settles hc hQ fun hfailed hsane =>
    have hnew := hm hfailed hsane.clean
    ⟨⟨hnew.1, hsane.failed⟩, hnew.2⟩

lemma settles_newType (hc : c.Settled) (hparts : (Fact.all orError.type ty.typeParts).At c)
    (hmembers : (Fact.all orError.typed ty.objectParts).At c) :
    (newType ty hty).Leads Settled c orError.type := by
  refine settles_build hc (fun _ _ hd => .inl hd) fun hfailed hclean => ⟨?_, .inr ?_⟩
  · exact hclean.newType (fun u hu => (hparts u hu).resolve_left hfailed) fun o ho =>
      typed_of_orError (hmembers o ho) hfailed
  · show (Build.newType ty c.store).2.type ⟨c.store.types.size⟩ ≠ _
    rw [type_newType, if_pos rfl]
    rintro rfl
    cases hty

lemma settles_newObject (hb : b = newObject ob) (hc : c.Settled)
    (hob : (Fact.opt orError.type ob.type).At c) :
    (build b h).Leads Settled c fun o =>
      (orError.object o).and (.given (ob.type ≠ none) (orError.typed o)) := by
  subst hb
  refine settles_build hc (fun o d hd => ⟨.inl hd, fun _ => orError_typed (.inl hd)⟩)
    fun hfailed hclean => ⟨?_, .inr ?_, fun hsome => orError_typed (.inr ?_)⟩
  · exact hclean.newObject fun t ht => (hob t ht).resolve_left hfailed
  · simp [newObject, HasObject]
  · rw [typed_iff, object_newObject]
    simpa [newObject, Option.isSome_iff_ne_none] using hsome

lemma settles_setUsed (hc : c.Settled) : (setUsed o used).LeadsTo Settled c :=
  settles_to hc fun hs => ⟨hs.clean.modifyObject_of_type_eq (·.type_setUsed _), hs.failed⟩

lemma settles_lookup {name : String} (hc : c.Settled) :
    (lookup name).Leads Settled c (Fact.opt orError.typed) := by
  refine settles hc (fun _ _ hd _ _ => orError_typed (.inl hd)) fun _ hsane =>
    ⟨⟨hsane.clean, hsane.failed⟩, fun o ho => orError_typed (.inr ?_)⟩
  obtain ⟨⟨k', o'⟩, hfound, rfl⟩ := Option.map_eq_some_iff.mp ho
  obtain ⟨k, -, hr⟩ := Option.bind_eq_some_iff.mp hfound
  exact hsane.clean.typed_of_resolve? hr

/-- An object with a type may be declared. A name that is taken is reported. -/
lemma settles_declare {scope : ScopeId} {name : Option Ident} (hc : c.Settled)
    (ho : (orError.typed o).At c) : (declare scope name o n).LeadsTo Settled c := by
  have hdef {d : Checker} (hd : d.Settled) :
      (name.forM fun i => recordDef i.span (some o)).LeadsTo Settled d :=
    leads_optionForM hd fun _ _ => settles_step hd rfl rfl
  refine .entities ?_
  by_cases hblank : (c.store.object o).isBlank
  · simpa [hblank] using hdef hc
  · have hbind : (bindIn scope o).LeadsTo Settled c :=
      settles_build hc (fun _ _ _ => trivial) fun hfailed hclean =>
        ⟨hclean.bind (typed_of_orError ho hfailed), trivial⟩
    simp only [hblank, Bool.false_eq_true, if_false]
    refine hbind.before fun clash d _ hd => ?_
    cases clash with
    | some other => exact (settles_emit hd).before fun _ _ _ he => settles_step he rfl rfl
    | none =>
      have hvisible : (setVisible o n).LeadsTo Settled d :=
        settles_to hd fun hsane =>
          ⟨hsane.clean.modifyObject_of_type_eq fun _ => rfl, hsane.failed⟩
      exact hvisible.before fun _ _ _ he => hdef he

lemma settles_applyImplicit (hc : c.Settled)
    (hx : (orError.sound x).At c) (hi : c.store.Implicitly x t i) :
    (applyImplicit x i).Leads Settled c orError.sound := by
  have hinvalid (y : Operand) (d : Checker) (hd : d.Failed) : (orError.sound y).At d :=
    ⟨fun _ _ => .inl hd, fun _ => hd⟩
  refine settles hc hinvalid fun hfailed hsane => ⟨⟨hsane.clean, hsane.failed⟩, ?_⟩
  obtain ⟨hmode, htype⟩ := valid_of_orError hx hfailed
  obtain ⟨u, hu, hsound⟩ := hi.sound hsane.clean htype
  refine sound_of_type ?_ hu (.inr hsound)
  show i.value.elim x.mode Mode.constant ≠ .invalid
  cases i.value with
  | none => exact hmode
  | some v => simp

lemma settles_finishConversion (hc : c.Settled) :
    (finishConversion wasConstant x t).LeadsTo Settled c :=
  (leads_optionForM hc fun _ _ => settles_step hc rfl rfl).before fun _ _ _ hd =>
    .entities ((settles_step hd rfl rfl : (onRecords _).LeadsTo _ _).before
      fun _ _ _ he => .pure he trivial)

end Pass

open Pass

/-- Single steps with sound types and objects with types lead to settled states. -/
lemma settled_regime : Regime Settled orError where
  basic hc hk := hc.imp_right fun hs => hs.clean.sound_basic hk
  noValue hc := hc.imp_right fun hs => hs.clean.noValue
  error hc := hc.imp_right fun hs => hs.clean.error
  part hc hu := hc.imp_right fun hs => hs.clean.part _ _ hu
  defaultType hc ht := by
    rcases hc with hfailed | hs
    · exact .inl hfailed
    · exact ht.imp_right hs.clean.sound_defaultType
  objectType hc ht := hc.imp_right fun hs => hs.clean.object _ _ ht
  member hc ho := orError_typed (hc.imp_right fun hs => hs.clean.typed_of_mem_tupleVars ho)
  selected hc ho := orError_typed (hc.imp_right fun hs => hs.clean.typed_of_select ho)
  found hc ho := orError_typed (hc.imp_right fun hs => hs.clean.typed_of_find? ho)
  -- a sound type is not the invalid one, which is therefore met after an error only
  excuse hc ht hinvalid := by
    rcases hc with hfailed | hs
    · exact hfailed
    · refine ht.resolve_right fun hsound => ?_
      rcases hinvalid with rfl | hinvalid
      · exact hs.clean.ne_invalid hsound rfl
      · simp [hs.clean.isInvalid_eq_false hsound] at hinvalid
  invalid _ he := .inl he
  place _ _ := trivial
  nowhere _ := trivial
  accept _ _ _ := trivial
  reject _ := trivial
  invalidated _ := trivial
  missing := trivial
  logEvent hc := settles_step hc rfl rfl
  noteLiteral hc := settles_step hc rfl rfl
  setIndent hc := settles_step hc rfl rfl
  emit _ hc _ _ _ := ⟨(settles_emit hc).state, failed_emit⟩
  report hc _ := ⟨(settles_report hc).state, failed_report⟩
  unpresentable hc _ _ _ := settles_report hc
  newType hc _ hparts hmembers := settles_newType hc
    (fun u hu => hparts u (Ty.mem_typeRefs_of_mem_typeParts hu))
    fun o ho => hmembers o (Ty.mem_objectRefs_of_mem_objectParts ho)
  newSignature hc hparams hresults _ := settles_newType hc
    (Fact.all_cons.mpr ⟨hparams, Fact.all_cons.mpr ⟨hresults, Fact.all_nil⟩⟩) Fact.all_nil
  newVar hc ht := settles_newObject rfl hc ht
  newParam hc ht := (settles_newObject rfl hc (Fact.opt_some ht)).mono fun _ _ _ _ ho =>
    ho.2 (by simp)
  newConst hc ht := (settles_newObject rfl hc ht).mono fun _ _ _ _ ho => ⟨ho.1, trivial⟩
  newScope hc := settles_build hc (fun _ _ _ => trivial) fun _ hclean => ⟨hclean.newScope, trivial⟩
  markUsed hc _ := settles_setUsed hc
  restoreUse _ _ hd _ := settles_setUsed hd
  giveType hc ho ht := settles hc (fun _ _ hd => orError_typed (.inl hd)) fun hfailed hs =>
    ⟨⟨hs.clean.giveType (ht.resolve_left hfailed), hs.failed⟩,
      orError_typed (.inr (typed_giveType (ho.resolve_left hfailed)))⟩
  setValue hc _ := settles_to hc fun hs =>
    ⟨hs.clean.modifyObject_of_type_eq (·.type_setValue _), hs.failed⟩
  declare hc _ ho := settles_declare hc ho
  lookup hc := settles_lookup hc
  recordUse hc _ := settles_step hc rfl rfl
  recordDef hc _ := settles_step hc rfl rfl
  recordScope hc _ := settles_step hc rfl rfl
  implicit hc hx _ hi := settles_applyImplicit hc hx.1 (implicitly_of_implicit hi)
  finish hc _ _ _ := settles_finishConversion hc
  -- after an error every fact holds
  failed := .inr fun _ hfailed => ⟨.inl hfailed, fun _ => ⟨.inl hfailed, hfailed⟩⟩

/-- An expression without a valid operand comes with an error. -/
lemma settled_evaluates : Evaluates Settled orError fun _ => True where
  toRegime := settled_regime
  parts {e} _ := by cases e <;> simp [Expr.HasParts, orError, TypeExpr.collects_false]
  record {c e x} hc _ hx := by
    refine settles hc (fun _ _ _ => trivial) fun hfailed hs => ⟨?_, trivial⟩
    obtain ⟨hmode, t, ht, -⟩ := valid_of_orError hx hfailed
    unfold record
    cases hm : x.mode with
    | invalid => exact absurd hm hmode
    | noValue => exact ⟨hs.clean, hs.failed⟩
    | _ =>
      rw [ht]
      exact ⟨hs.clean, hs.failed⟩
  recordPair hc _ _ := settles_step hc rfl rfl
  putOff _ _ hc := functionLiteral settled_regime hc (sigCollects_false _) fun _ _ _ hd _ _ =>
    settles_step hd rfl rfl
  given _ := trivial
  vouched _ := trivial

lemma settled_governs :
    Governs Settled orError (fun _ => True) fun _ => .any where
  toRegime := settled_regime
  parts {s} _ := Evaluates.keepsParts settled_evaluates (by
    cases s <;> simp [Stmt.HasParts, orError, TypeExpr.collects_false])
  body _ _ _ := trivial
  stmts _ _ _ := trivial
  deferred _ _ := trivial
  here _ _ := trivial
  note hc := settles_step hc rfl rfl
  drop hc := settles_step hc rfl rfl
  openScope hc := .current ((newScope settled_regime hc).bind fun _ _ _ hd hs =>
    (recordScope settled_regime hd hs).before fun _ _ _ he => settles_step he rfl rfl)
  closeScope hc := .current (settles_step hc rfl rfl)
  enter hc _ := settles_step hc rfl rfl
  resume _ _ hd := settles_step hd rfl rfl
  toPackage hc := settles_step hc rfl rfl
  newScopeInPackage hc :=
    settles_build hc (fun _ _ _ => trivial) fun _ hclean => ⟨hclean.newScope, trivial⟩

/-! ## Sessions -/

/-- The declaration of an object with a valid type, or the check of any tree. -/
def Request.Sound (s : Store) : Request → Prop
  | declareVar _ t | declareConst _ t _ | declareFunc _ t => s.Sound t
  | declareType o => s.Typed o
  | checkFunc .. | checkFuncBody .. | checkBlock _ => True

/-- A request leaves nothing invalid, or an error is reported. -/
lemma Request.ensures {r : Request} (hc : c.Sane) (hr : r.Sound c.store) :
    (r.answer c).Failed ∨ (r.answer c).Sane := by
  have hsettled : c.Settled := .inr hc
  have hdeclare {d o} (hd : d.Settled) (ho : (Notions.orError.typed o).At d) :
      (Pass.declareInPackage o).LeadsTo Settled d :=
    .current (Pass.settles_declare hd ho)
  have hnew {new : Option PackageId → Pass ObjectId}
      (h : ∀ p, (new p).Leads Settled c Notions.orError.typed) :
      (Pass.declareNew new).LeadsTo Settled c :=
    .current ((h _).bind fun _ _ _ hd ho =>
      (hdeclare hd ho).before fun _ _ _ he => .pure he trivial)
  have htyped {b : Build ObjectId} {h : ∀ s : Store, s.Step (b s).2} {ob : Object} {t : TypeId}
      (hb : b = newObject ob) (hob : ob.type = some t) (ht : c.store.Sound t) :
      (Pass.build b h).Leads Settled c Notions.orError.typed := by
    refine (Pass.settles_newObject hb hsettled ?_).mono fun _ _ _ _ ho => ho.2 (by simp [hob])
    rw [hob]
    exact Fact.opt_some (.inr ht)
  cases r with
  | declareVar name t | declareConst name t v | declareFunc name sig =>
    exact (hnew fun _ => htyped rfl rfl hr).state
  | declareType o => exact (hdeclare hsettled (Notions.orError_typed (.inr hr))).state
  | checkFunc sig body =>
    exact (settled_governs.function hsettled (fun _ _ => trivial) (sigCollects_false sig)).state
  | checkFuncBody sig body =>
    refine (settled_governs.bodyOf hsettled (fun _ _ => trivial) fun d _ hsig => .inr ?_).state
    intro hinvalid
    exact hsig (by rw [hinvalid]; rfl)
  | checkBlock body => exact (settled_governs.block hsettled fun _ _ => trivial).state

namespace Store

variable {s s' : Store}

/-- What a host may do to the entities, even those of the check, as long as it makes nothing
invalid: it gives types and objects sound types, and names only objects with types. -/
structure HostChange (s s' : Store) : Prop where
  basic : ∀ k, s'.type (.basic k) = s.type (.basic k)
  sound : ∀ t, s.Sound t → s'.Sound t
  typed : ∀ o, s.Typed o → s'.Typed o
  part : ∀ t, s'.type t ≠ s.type t → ∀ u ∈ (s'.type t).typeParts, s'.Sound u
  member : ∀ t, s'.type t ≠ s.type t → ∀ o ∈ (s'.type t).objectParts, s'.Typed o
  object : ∀ o t, (s'.object o).type = some t → (s.object o).type = some t ∨ s'.Sound t
  bound : ∀ c, ∀ b ∈ (s'.scope c).bindings, b ∈ (s.scope c).bindings ∨ s'.Typed b.2

lemma Clean.hostChange (hs : s.Clean) (h : s.HostChange s') : s'.Clean := by
  refine ⟨fun k => (h.basic k).trans (hs.basic k), h.sound _ hs.noValue, h.sound _ hs.error,
    fun t u hu => ?_, fun t o ho => ?_, fun o t ht => ?_, fun c b hb => ?_⟩
  · by_cases hsame : s'.type t = s.type t
    · exact h.sound u (hs.part t u (hsame ▸ hu))
    · exact h.part t hsame u hu
  · by_cases hsame : s'.type t = s.type t
    · exact h.typed o (hs.member t o (hsame ▸ ho))
    · exact h.member t hsame o ho
  · rcases h.object o t ht with hold | hnew
    · exact h.sound t (hs.object o t hold)
    · exact hnew
  · rcases h.bound c b hb with hold | hnew
    · exact h.typed b.2 (hs.bound c b hold)
    · exact hnew

lemma HostChange.newType (hs : s.Clean) (hparts : ∀ u ∈ ty.typeParts, s.Sound u)
    (hmembers : ∀ o ∈ ty.objectParts, s.Typed o) : s.HostChange (newType ty s).2 := by
  have hclean := hs.newType hparts hmembers
  exact ⟨fun k => (hclean.basic k).trans (hs.basic k).symm, fun t ht => ht.newType,
    fun o ho => ho, fun t _ => hclean.part t, fun t _ => hclean.member t,
    fun o t ht => .inl ht, fun c b hb => .inl hb⟩

end Store

/-- A host that makes nothing invalid. -/
def Host.careful : Host where
  changes := Store.HostChange
  asks s r := r.Sound s

namespace Session

variable {taken : List Diagnostic} {c : Checker}

lemma start_sane (config : Config) : (Checker.start config).Sane :=
  ⟨Store.initial_clean.newPackage, rfl⟩

/-- Throughout a session an error is among the reports, or nothing is invalid. -/
lemma error_or_sane (h : Session .careful taken c) :
    (∃ d ∈ taken ++ c.sink.reports.toList, d.isError) ∨ c.Sane := by
  induction h with
  | start config => exact .inr (start_sane config)
  | change _ hchange ih => exact ih.imp_right fun hc => ⟨hc.clean.hostChange hchange, hc.failed⟩
  | move context _ ih => exact ih.imp_right fun hc => ⟨hc.clean, hc.failed⟩
  | take _ ih => exact ih.imp (by simp) fun hc => ⟨hc.clean, hc.failed⟩
  | @ask taken c r _ hask ih =>
    rcases ih with ⟨d, hd, herr⟩ | hc
    · refine .inl ⟨d, ?_, herr⟩
      rcases List.mem_append.mp hd with hd | hd
      · exact List.mem_append_left _ hd
      · have hmem := (r.steps c).mem_reports (by simpa using hd)
        exact List.mem_append_right _ (by simpa using hmem)
    · refine (Request.ensures hc hask).imp_left fun ⟨d, hd, herr⟩ => ⟨d, ?_, herr⟩
      exact List.mem_append_right _ (by simpa using hd)

/-- In a session with a careful host, no expression fails and no name denotes an object without a
valid type unless an error has been reported. -/
theorem error_of_invalid (h : Session .careful taken c)
    (hbad : c.info.failed ≠ [] ∨ ∃ k, ∃ b ∈ (c.store.scope k).bindings,
      ∀ t, (c.store.object b.2).type = some t → c.store.isInvalid t = true) :
    ∃ d ∈ taken ++ c.sink.reports.toList, d.isError = true := by
  rcases h.error_or_sane with herr | hc
  · exact herr
  · rcases hbad with hfailed | ⟨k, b, hb, hinvalid⟩
    · exact absurd hc.failed hfailed
    · obtain ⟨t, ht⟩ := hc.clean.bound k b hb
      have hsound := hc.clean.isInvalid_eq_false (hc.clean.object b.2 t ht)
      simp [hinvalid t ht] at hsound

/-- A block that declares a variable by a name that denotes nothing. -/
def undefinedNameBlock : Block where
  stmts := [.short ⟨2, 14⟩ [.ident ⟨0, ⟨2, 3⟩⟩ ⟨some "y", ⟨2, 3⟩⟩]
    [.ident ⟨1, ⟨7, 14⟩⟩ ⟨some "missing", ⟨7, 14⟩⟩]]
  span := ⟨0, 16⟩

/-- The state after a host has made a slice type. -/
def sliceState : Checker :=
  { Checker.start {} with
    store := (newType (.slice (.basic .int)) (Checker.start {}).store).2 }

/-- The state after a variable of that type has been declared and the block has been checked. -/
def undefinedNameState : Checker :=
  (Request.checkBlock undefinedNameBlock).answer
    ((Request.declareVar "xs" ⟨(Checker.start {}).store.types.size⟩).answer sliceState)

lemma sliceState_reached : Session .careful [] sliceState := by
  have hclean := (start_sane {}).clean
  refine .change (.start {}) (Store.HostChange.newType hclean ?_ (by simp [Ty.objectParts]))
  simpa [Ty.typeParts] using hclean.sound_basic (by decide)

theorem undefinedNameState_error :
    undefinedNameState.info.failed ≠ [] ∧
      ∃ d ∈ [] ++ undefinedNameState.sink.reports.toList, d.isError = true := by
  have hfailed : undefinedNameState.info.failed ≠ [] := by decide +kernel
  have hsound : sliceState.store.Sound ⟨(Checker.start {}).store.types.size⟩ := by decide +kernel
  have hvar := sliceState_reached.ask (r := .declareVar "xs" _) hsound
  have hblock := hvar.ask (r := .checkBlock undefinedNameBlock) trivial
  exact ⟨hfailed, error_of_invalid hblock (.inl hfailed)⟩

end Session

end GoCheck
