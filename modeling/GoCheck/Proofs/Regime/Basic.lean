import GoCheck.Proofs.Bounds.Closed
import GoCheck.Proofs.Conversion.Outcomes

/-!
# Regimes

Checks keep many properties of states for the same reason: they go on only with entities and
operands about which something is known, and few steps matter. A regime says which facts are to be
known, and that single steps made with such entities keep the property. That all checks keep it
follows once for all regimes.
-/

namespace GoCheck

open Pass GoCheck.Fact Store

variable {m : Pass α} {f : α → Pass β} {c d : Checker} {p : Problem} {x : Operand}

namespace Problem

/-- The problem of an operand that is a type or has no value. -/
def isRefusal : Problem → Bool
  | cannotAssign .. => true
  | _ => false

/-- A problem other than the refusal of an operand and the second declaration of a name. -/
def isRoutine (p : Problem) : Bool := !p.isRefusal && p.fault != .duplicateDecl

lemma isRoutine_of_fault (hrefusal : p.isRefusal = false)
    (hfault : p.fault != .duplicateDecl) : p.isRoutine := by
  rw [isRoutine, hrefusal, hfault]
  rfl

end Problem

/-- An error has been reported. -/
def Checker.Failed (c : Checker) : Prop := ∃ r ∈ c.sink.reports, r.isError = true

lemma Checker.Failed.steps (hc : c.Failed) (h : c.Steps d) : d.Failed := by
  obtain ⟨r, hr, he⟩ := hc
  exact ⟨r, h.mem_reports hr, he⟩

namespace Pass

@[simp]
lemma isError_withNote (r : Diagnostic) (n : String) : (r.withNote n).isError = r.isError := rfl

@[simp]
lemma isError_withLabel (r : Diagnostic) (l : Label) : (r.withLabel l).isError = r.isError := rfl

lemma isError_report (h : p.fault.isWarning = false) : (p.report span).isError := by
  simp only [Problem.report, Fault.report, isError_withLabel]
  simp [Fault.withMessage, Diagnostic.isError, Fault.severity, h]

lemma failed_emit (h : r.isError) : ((emit r).1 c).2.Failed :=
  ⟨r, Array.mem_push_self, h⟩

lemma failed_report (h : p.fault.isWarning = false) : ((report p span).1 c).2.Failed :=
  failed_emit (isError_report h)

lemma failed_bind (h : (m.1 c).2.Failed) : ((m >>= f).1 c).2.Failed :=
  h.steps ((f (m.1 c).1).2 _)

lemma failed_bind_of_forall (h : ∀ a d, ((f a).1 d).2.Failed) : ((m >>= f).1 c).2.Failed := h _ _

end Pass

/-- What is to be known of the entities and operands that a check goes on with. -/
structure Notions where
  type : TypeId → Fact
  /-- The types that values may be assigned to. -/
  place : TypeId → Fact
  object : ObjectId → Fact
  /-- The scopes in which names may be bound. -/
  scope : ScopeId → Fact
  /-- The constants that may be given a value. -/
  constant : ObjectId → Fact
  /-- Anything may be invalid. -/
  excused : Fact
  /-- What holds of the outcome of an evaluation. -/
  given : Operand → Prop
  /-- What holds of an operand that has been evaluated for its value. -/
  vouched : Operand → Prop
  /-- Whether variadic signatures have a parameter. -/
  strict : Bool

/-- A type is that of a tuple of variables. -/
def Fact.tuple (vars : List ObjectId) (t : TypeId) : Fact where
  At c := c.store.HasType t ∧ c.store.tupleVars t = vars
  kept hd h :=
    ⟨lt_of_lt_of_le h.1 hd.types_size_le, by rw [tupleVars, hd.type_eq h.1]; exact h.2⟩

namespace Notions

variable (N : Notions)

/-- An object has a type, unless that is excused. -/
def typed (o : ObjectId) : Fact where
  At c := (N.object o).At c ∧ ((c.store.object o).type = none → N.excused.At c)
  kept {c d} hd h := by
    refine ⟨h.1.later hd, fun hnone => (h.2 ?_).later hd⟩
    cases htype : (c.store.object o).type with
    | none => rfl
    | some t => cases (hd.object_type htype).symm.trans hnone

/-- An operand has a mode and a type, unless that is excused. -/
def sound (x : Operand) : Fact where
  At c := (∀ t ∈ x.type, (N.type t).At c) ∧ (x.mode = .invalid ∨ x.type = none → N.excused.At c)
  kept hd h := ⟨fun t ht => (h.1 t ht).later hd, fun hx => (h.2 hx).later hd⟩

/-- An operand that has been evaluated for its value. -/
def value (x : Operand) : Fact := (N.sound x).and (.sure (N.vouched x))

/-- The outcome of an evaluation. -/
def outcome (x : Operand) : Fact := (N.sound x).and (.sure (N.given x))

variable {N}

lemma typed_of_type (ho : (N.object o).At c) (ht : (c.store.object o).type = some t) :
    (N.typed o).At c :=
  ⟨ho, fun hnone => nomatch ht.symm.trans hnone⟩

lemma typed_of_excused (ho : (N.object o).At c) (he : N.excused.At c) : (N.typed o).At c :=
  ⟨ho, fun _ => he⟩

lemma sound_of_type (hm : x.mode ≠ .invalid) (hx : x.type = some t) (ht : (N.type t).At c) :
    (N.sound x).At c := by
  refine ⟨fun u hu => ?_, ?_⟩
  · cases hx.symm.trans hu
    exact ht
  · rintro (hmode | hnone)
    · exact absurd hmode hm
    · cases hx.symm.trans hnone

lemma sound_invalidated (hx : (N.sound x).At c) (he : N.excused.At c) :
    (N.sound x.invalidated).At c :=
  ⟨hx.1, fun _ => he⟩

lemma sound_of_faulty (hx : (N.sound x).At c) (h : x.isInvalid ∨ x.type = none) :
    (N.sound x.invalidated).At c :=
  sound_invalidated hx (hx.2 (h.imp_left of_decide_eq_true))

lemma sound_withMode {m : Mode} (hx : (N.sound x).At c) (hm : m ≠ .invalid) :
    (N.sound { x with mode := m, expr := e }).At c := by
  refine ⟨hx.1, ?_⟩
  rintro (hmode | hnone)
  · exact absurd hmode hm
  · exact hx.2 (.inr hnone)

end Notions

/-- A property of states that single steps with known entities keep, and what it says of them. -/
structure Regime (I : Checker → Prop) (N : Notions) : Prop where
  basic : ∀ {c k}, I c → k ≠ .invalid → (N.type (.basic k)).At c
  noValue : ∀ {c}, I c → (N.type .noValue).At c
  error : ∀ {c}, I c → (N.type .error).At c
  part : ∀ {c t u}, I c → u ∈ (c.store.type t).typeParts → (N.type u).At c
  defaultType : ∀ {c t}, I c → (N.type t).At c →
    (N.type (c.store.defaultType t)).At c
  objectType : ∀ {c o t}, I c → (c.store.object o).type = some t → (N.type t).At c
  member : ∀ {c t o}, I c → o ∈ c.store.tupleVars t → (N.typed o).At c
  selected : ∀ {c t addressable indirect name o path}, I c →
      c.store.select t addressable name = .entry o path indirect → (N.typed o).At c
  found : ∀ {c x name o}, I c → (c.store.scope x).find? name = some o → (N.typed o).At c
  /-- An invalid type is an excuse. -/
  excuse : ∀ {c t}, I c → (N.type t).At c →
    t = .invalid ∨ c.store.isInvalid t = true → N.excused.At c
  invalid : ∀ {c}, I c → N.excused.At c → (N.type .invalid).At c
  place : ∀ {c t}, I c → (N.type t).At c → (N.place t).At c
  nowhere : ∀ {c}, I c → (N.place .invalid).At c
  /-- What is neither a type nor without a value is as good as evaluated for its value. -/
  accept : ∀ {x}, N.given x → x.mode ≠ .noValue → x.mode ≠ .typeExpr → N.vouched x
  reject : ∀ {x}, N.given x → N.vouched x.invalidated
  invalidated : ∀ {x}, N.vouched x → N.vouched x.invalidated
  missing : N.vouched {}
  logEvent : ∀ {c e}, I c → (Pass.logEvent e).LeadsTo I c
  noteLiteral : ∀ {c kind raw}, I c → (Pass.note (.literal kind raw)).LeadsTo I c
  setIndent : ∀ {c n}, I c → (Pass.setIndent n).LeadsTo I c
  emit : ∀ {c : Checker} {d : Diagnostic} (k : Fault), I c → d.code = some k.code →
    k ≠ .duplicateDecl → k ≠ .incompatibleAssign →
      (Pass.emit d).Leads I c fun _ => .given (d.isError = true) N.excused
  report : ∀ {c p span}, I c → p.isRoutine = true →
    (Pass.report p span).Leads I c fun _ => .given (p.fault.isWarning = false) N.excused
  /-- An operand that is refused after all. -/
  unpresentable : ∀ {c x p span}, I c → N.vouched x →
    x.mode = .noValue ∨ x.mode = .typeExpr → p.fault != .duplicateDecl →
      (Pass.report p span).LeadsTo I c
  newType : ∀ {c ty} {hty : ty.isComposed}, I c → ty.signature? = none →
    (all N.type ty.typeRefs).At c → (all N.typed ty.objectRefs).At c →
      (Pass.newType ty hty).Leads I c N.type
  newSignature : ∀ {c params results variadic}, I c →
    (N.type params).At c → (N.type results).At c →
      (N.strict = true → variadic = true → c.store.tupleVars params ≠ []) →
        (Pass.newSignature { params, results, variadic }).Leads I c N.type
  newVar : ∀ {c span package name t}, I c → (opt N.type t).At c →
      (Pass.newVar span package name t).Leads I c fun o =>
        (N.object o).and (.given (t ≠ none) (N.typed o))
  newParam : ∀ {c span package name t}, I c → (N.type t).At c →
    (Pass.newParam span package name (some t)).Leads I c N.typed
  newConst : ∀ {c span package name t}, I c → (opt N.type t).At c →
      (Pass.newConst span package name t .unknown).Leads I c fun o => (N.object o).and (N.constant o)
  newScope : ∀ {c span text isFunc}, I c →
    (Pass.newScope c.context.scope span text isFunc).Leads I c N.scope
  markUsed : ∀ {c o}, I c → (N.object o).At c → (Pass.markUsed o).LeadsTo I c
  /-- A variable may count again as it did at an earlier time. -/
  restoreUse : ∀ {c d o}, I c → c.Steps d → I d → (N.object o).At d →
    (Pass.setUsed o (c.store.object o).isUsed).LeadsTo I d
  giveType : ∀ {c o t}, I c → (N.object o).At c →
    (N.type t).At c → (Pass.giveType o t).Leads I c fun _ => N.typed o
  setValue : ∀ {c o v}, I c → (N.constant o).At c → (Pass.setValue o v).LeadsTo I c
  declare : ∀ {c x name o n}, I c →
    (N.scope x).At c → (N.typed o).At c → (Pass.declare x name o n).LeadsTo I c
  lookup : ∀ {c name}, I c → (Pass.lookup name).Leads I c (opt N.typed)
  recordUse : ∀ {c span o}, I c → (N.object o).At c → (Pass.recordUse span o).LeadsTo I c
  recordDef : ∀ {c span o}, I c → (opt N.object o).At c → (Pass.recordDef span o).LeadsTo I c
  recordScope : ∀ {c span x}, I c → (N.scope x).At c → (Pass.recordScope span x).LeadsTo I c
  /-- What a value takes on is recorded. -/
  implicit : ∀ {c x t i}, I c → (N.value x).At c →
    (N.place t).At c → c.store.implicit x t = .ok i → (applyImplicit x i).Leads I c N.sound
  finish : ∀ {c x m t wasConstant}, I c →
    (N.value x).At c → m ≠ .invalid → (N.type t).At c →
      (finishConversion wasConstant (x.withMode m) t).LeadsTo I c
  /-- A report that comes late excuses as well. -/
  failed : (∀ c, I c → N.excused.At c) ∨
    ∀ c : Checker, c.Failed → I c ∧ ∀ o, (N.object o).At c ∧ N.excused.At c

namespace Regime

variable {N : Notions} (h : Regime I N) (hc : I c)
variable {i : Ident}
include h hc

/-- A report after which nothing is left to say. -/
lemma refuse (hp : p.isRoutine)
    (hw : p.fault.isWarning = false) (ha : ∀ d, c.Steps d → I d → N.excused.At d → (Q a).At d) :
    (do Pass.report p span; return a : Pass α).Leads I c Q :=
  (h.report hc hp).bind fun _ d hd hI he => .pure hI (ha d hd hI (he hw))

lemma refuseOperand (hp : p.isRoutine) (hw : p.fault.isWarning = false) (hx : (N.sound x).At c) :
    (do Pass.report p span; return x.invalidated : Pass Operand).Leads I c N.sound :=
  h.refuse hc hp hw fun _ hd _ he => Notions.sound_invalidated (hx.later hd) he

lemma refuseType (hp : p.isRoutine) (hw : p.fault.isWarning = false) :
    (do Pass.report p span; return .invalid : Pass TypeId).Leads I c N.type :=
  h.refuse hc hp hw fun _ _ hI he => h.invalid hI he

lemma late (hfailed : (m.1 c).2.Failed) (hm : N.excused.At c → m.Leads I c Q)
    (hQ : ∀ d, (∀ o, (N.typed o).At d) → (Q (m.1 c).1).At d) : m.Leads I c Q := by
  rcases h.failed with hexcused | hfail
  · exact hm (hexcused c hc)
  · obtain ⟨hI, he⟩ := hfail _ hfailed
    exact ⟨hI, hQ _ fun o => Notions.typed_of_excused (he o).1 (he o).2⟩

lemma typeOf (ho : (N.typed o).At c) : (N.type ((c.store.object o).type.getD .invalid)).At c := by
  cases htype : (c.store.object o).type with
  | none => exact h.invalid hc (ho.2 htype)
  | some t => exact h.objectType hc htype

lemma typeOrInvalid (hx : (N.sound x).At c) : (N.type x.typeOrInvalid).At c := by
  unfold Operand.typeOrInvalid
  cases htype : x.type with
  | none => exact h.invalid hc (hx.2 (.inr htype))
  | some t => exact hx.1 t htype

lemma invalidateMissing (ho : (N.object o).At c) (he : N.excused.At c) :
    (Pass.invalidateMissing o).Leads I c fun _ => N.typed o :=
  h.giveType hc ho (h.invalid hc he)

omit h in
lemma isLocalVar : (Pass.isLocalVar o).LeadsTo I c := ⟨hc, trivial⟩

lemma localVar? : (Pass.localVar? i).Leads I c (opt N.object) := by
  refine (h.lookup hc).bind fun found d _ hd hfound => ?_
  cases found with
  | none => exact .pure hd opt_none
  | some o =>
    refine (isLocalVar hd).before fun isLocal e he hI => .pure hI ?_
    split
    · exact opt_some ((hfound o rfl).1.later he)
    · exact opt_none

lemma traceLine : (Pass.traceLine line).LeadsTo I c := by
  refine .current ?_
  split
  · exact h.logEvent hc
  · exact .pure hc trivial

lemma indentTrace : Pass.indentTrace.LeadsTo I c := by
  refine .current ?_
  split
  · exact h.setIndent hc
  · exact .pure hc trivial

lemma unindentTrace : Pass.unindentTrace.LeadsTo I c := by
  refine .current ?_
  split
  · exact h.setIndent hc
  · exact .pure hc trivial

lemma probe_bind (hf : ∀ d, c.Steps d → I d → (f ((ask c.store).run []).1).Leads I d S) :
    (probe ask >>= f).Leads I c S := by
  have heq : probe ask >>= f = entities >>= fun s =>
      (((ask s).run []).2.forM fun m => Pass.logEvent (.missingMethod m)) >>= fun _ =>
        f ((ask s).run []).1 := rfl
  rw [heq]
  exact .entities ((leads_forM hc fun _ _ _ _ hd => h.logEvent hd).before fun _ d hd hI => hf d hd hI)

lemma singleValue (hx : (F x).At c)
    (hinvalid : ∀ d, c.Steps d → N.excused.At d → (F x.invalidated).At d) :
    (Pass.singleValue x).Leads I c F := by
  refine .entities ?_
  split
  · exact h.refuse hc rfl rfl fun d hd _ he => hinvalid d hd he
  · exact .pure hc hx

lemma singleValue_of_value (hx : (N.value x).At c) : (Pass.singleValue x).Leads I c N.value :=
  h.singleValue hc hx fun _ hd he =>
    ⟨Notions.sound_invalidated (hx.1.later hd) he, h.invalidated hx.2⟩

lemma convertUntyped (hx : (N.value x).At c) (ht : (N.place t).At c) :
    (Pass.convertUntyped x t).Leads I c N.sound := by
  refine .entities ?_
  cases hi : c.store.implicit x t with
  | ok i => exact h.implicit hc hx ht hi
  | error k =>
    have hk := implicit_error hi
    exact h.refuseOperand hc (Problem.isRoutine_of_fault rfl hk.2) hk.1 hx.1

lemma represent (hx : (N.sound x).At c) : (Pass.represent x t).Leads I c N.sound := by
  refine .entities ?_
  cases hr : c.store.represented x t with
  | ok v => exact .pure hc (Notions.sound_withMode hx (by simp))
  | error k =>
    have hk := represented_error hr
    exact h.refuseOperand hc (Problem.isRoutine_of_fault rfl hk.2) hk.1 hx

lemma assignUntyped (hx : (N.value x).At c) (hold : (N.type old).At c)
    (hot : (opt N.place ot).At c) : (Pass.assignUntyped x old ot context).Leads I c N.sound := by
  have hdefault := h.place hc (h.defaultType hc hold)
  have htarget : (N.place (untypedTarget c.store x old ot)).At c := by
    unfold untypedTarget
    cases ot with
    | none => exact hdefault
    | some t =>
      dsimp only
      split
      · exact hot t rfl
      · exact hdefault
  refine .entities ?_
  split
  · exact h.refuseOperand hc rfl rfl hx.1
  · dsimp only
    cases hi : c.store.implicit x (untypedTarget c.store x old ot) with
    | ok i =>
      -- the entry of the log leaves the entities as they are
      have hlog := h.logEvent (e := .untypedConversion (c.store.typeText old)
        (c.store.typeTextOf i.type)) hc
      have hnext := h.implicit hlog.state (hx.later (Pass.steps _ c)) (htarget.later (Pass.steps _ c)) hi
      exact ⟨hnext.state, hnext.result⟩
    | error k => exact h.refuseOperand hc (by cases k <;> rfl) (by cases k <;> rfl) hx.1

lemma assignConverted (hx : (N.sound x).At c) :
    (Pass.assignConverted x ot context).Leads I c N.sound := by
  have hgeneric : (reportGeneric x context).LeadsTo I c := by
    refine .entities ?_
    dsimp only
    split
    · exact (h.report hc rfl).to
    · exact .pure hc trivial
  unfold Pass.assignConverted
  split
  · exact .pure hc hx
  · refine hgeneric.before fun _ d hd hI => ?_
    cases ot with
    | none => exact .pure hI (hx.later hd)
    | some t =>
      refine h.probe_bind hI fun e he hI' => ?_
      have hx' := (hx.later hd).later he
      cases hverdict : ((d.store.assign x t).run []).1 with
      | ok _ => exact .pure hI' hx'
      | error r =>
        have hfault := refusesByError_assign d.store x t [] r hverdict
        refine .entities (h.refuseOperand hI' ?_ hfault.1 hx')
        exact Problem.isRoutine_of_fault rfl hfault.2

lemma assignValue (hx : (N.value x).At c) (hot : (opt N.place ot).At c) :
    (Pass.assignValue x ot context).Leads I c N.sound := by
  refine .entities ?_
  split
  · rename_i old hold
    have hold := hx.1.1 old (Option.filter_eq_some_iff.mp hold).1
    exact (h.assignUntyped hc hx hold hot).bind fun _ _ _ hd hy => h.assignConverted hd hy
  · exact h.assignConverted hc hx.1

lemma assignment (hx : (N.value x).At c) (hot : (opt N.place ot).At c) :
    (Pass.assignment x ot context).Leads I c N.sound := by
  refine (h.singleValue_of_value hc hx).bind fun y d hd hI hy => ?_
  have hrefuse {p : Problem} (hmode : y.mode = .noValue ∨ y.mode = .typeExpr)
      (hp : p.fault != .duplicateDecl) :
      (do Pass.report p y.span; return y : Pass Operand).Leads I d N.sound :=
    (h.unpresentable hI hy.2 hmode hp).before fun _ e he hI' => .pure hI' (hy.1.later he)
  cases hmode : y.mode with
  | invalid => exact .pure hI hy.1
  | noValue => exact .entities (hrefuse (.inl hmode) rfl)
  | typeExpr => exact .entities (hrefuse (.inr hmode) rfl)
  | _ => exact h.assignValue hI hy (hot.later hd)

lemma refuseConversion (hx : (N.sound x).At c) :
    (Pass.refuseConversion x t cause).Leads I c N.sound :=
  .entities (h.refuseOperand hc rfl rfl hx)

lemma finishConversion {m : Mode} (hx : (N.value x).At c) (hm : m ≠ .invalid)
    (ht : (N.type t).At c) :
    (Pass.finishConversion wasConstant (x.withMode m) t).Leads I c N.sound :=
  ⟨(h.finish hc hx hm ht).state, Notions.sound_of_type hm rfl (ht.later (Pass.steps _ c))⟩

/-- A conversion of a value gives an operand with a type. -/
lemma conversion (hx : (N.value x).At c) (ht : (N.type t).At c) :
    (Pass.conversion x t).Leads I c N.sound := by
  have hconstant (v : Constant) : (convertConstant x v t).Leads I c N.sound := by
    refine .entities ?_
    cases c.store.convertConstant? x v t with
    | some w => exact h.finishConversion hc hx (by simp) ht
    | none =>
      dsimp only
      split
      · exact h.refuseOperand hc rfl rfl hx.1
      · exact h.refuseConversion hc hx.1
  have hparam (v : Constant) : (convertToTypeParam x v t).Leads I c N.sound := by
    have hy : (N.sound (x.withMode .value)).At c := Notions.sound_withMode hx.1 (by simp)
    refine .entities ?_
    dsimp only
    cases (c.store.terms t).find? fun term => (c.store.convertConstant? x v term).isNone with
    | some term => exact h.refuseConversion hc hy
    | none =>
      dsimp only
      split
      · exact h.refuseConversion hc hy
      · exact h.finishConversion hc hx (by simp) ht
  refine .entities ?_
  split
  · exact hconstant _
  · exact hparam _
  · refine h.probe_bind hc fun d hd hI => ?_
    cases ((c.store.convert x t).run []).1 with
    | ok _ => exact h.finishConversion hI (hx.later hd) (by simp) (ht.later hd)
    | error cause => exact h.refuseConversion hI (hx.1.later hd)

lemma newPointer (ht : (N.type t).At c) : (Pass.newPointer t).Leads I c N.type :=
  h.newType hc rfl (all_cons.mpr ⟨ht, all_nil⟩) all_nil

lemma newSlice (ht : (N.type t).At c) : (Pass.newSlice t).Leads I c N.type :=
  h.newType hc rfl (all_cons.mpr ⟨ht, all_nil⟩) all_nil

lemma newTuple (hvars : (all N.typed vars).At c) :
    (Pass.newTuple vars).Leads I c fun t => (N.type t).and (.tuple vars t) := by
  have hnew : (Pass.newTuple vars).Leads I c N.type := h.newType hc rfl all_nil hvars
  refine ⟨hnew.state, hnew.result, ?_, ?_⟩
  · show c.store.types.size < (c.store.types.push (.tuple vars)).size
    simp
  · have htype : ((Pass.newTuple vars).1 c).2.store.type ((Pass.newTuple vars).1 c).1 =
        .tuple vars := by
      refine (type_newType c.store (.tuple vars) _).trans (if_pos rfl)
    rw [tupleVars, htype]
    rfl

lemma tupleOf (hts : (all N.type ts).At c) : (Pass.tupleOf ts).Leads I c N.type := by
  have hvars : (ts.mapM fun t => Pass.newParam Span.dummy none "" (some t)).Leads I c
      fun vars => (all N.typed vars).and (.sure (vars.length = ts.length)) :=
    leads_mapM hc fun t ht _ hd hI => h.newParam hI ((hts t ht).later hd)
  exact hvars.bind fun _ _ _ hd hvars => (h.newTuple hd hvars.1).mono fun _ _ _ _ ht => ht.1

lemma resolveType : i.resolveType.Leads I c N.type := by
  unfold Ident.resolveType
  split
  · exact h.refuseType hc rfl rfl
  · refine (h.lookup hc).bind fun found d _ hd hfound => ?_
    cases found with
    | none => exact h.refuseType hd rfl rfl
    | some o =>
      have ho := hfound o rfl
      refine (h.recordUse hd ho.1).before fun _ e he hI => .entities ?_
      dsimp only
      split
      · exact .pure hI (h.typeOf hI (ho.later he))
      · exact h.refuseType hI rfl rfl

lemma declareParam {name : Option Ident} (hs : (N.scope s).At c)
    (ht : (N.type t).At c) : (GoCheck.declareParam s n name span t).Leads I c N.typed := by
  refine .current ?_
  cases name with
  | none => exact h.newParam hc ht
  | some i =>
    refine (h.newParam hc ht).bind fun o d hd hI ho => ?_
    exact (h.declare hI (hs.later hd) ho).before fun _ e he hI' => .pure hI' (ho.later he)

omit h hc

mutual

/-- A type expression denotes a type about which the facts are known. -/
theorem resolve (h : Regime I N) (e : TypeExpr) (he : e.collects N.strict) {c : Checker}
    (hc : I c) : e.resolve.Leads I c N.type := by
  cases e with
  | name span i =>
    rw [TypeExpr.resolve]
    exact h.resolveType hc
  | pointer span elem =>
    rw [TypeExpr.resolve]
    exact (resolve h elem he hc).bind fun _ _ _ hd ht => h.newPointer hd ht
  | slice span elem =>
    rw [TypeExpr.resolve]
    exact (resolve h elem he hc).bind fun _ _ _ hd ht => h.newSlice hd ht
  | map span key value =>
    rw [TypeExpr.collects, Bool.and_eq_true] at he
    rw [TypeExpr.resolve]
    refine (resolve h key he.1 hc).bind fun k d _ hd hk => ?_
    refine (resolve h value he.2 hd).bind fun t e he hI ht => ?_
    refine h.newType hI rfl ?_ all_nil
    exact all_cons.mpr ⟨hk.later he, all_cons.mpr ⟨ht, all_nil⟩⟩
  | chan span dir elem =>
    rw [TypeExpr.resolve]
    exact (resolve h elem he hc).bind fun _ _ _ hd ht =>
      h.newType hd rfl (all_cons.mpr ⟨ht, all_nil⟩) all_nil
  | func span sig =>
    rw [TypeExpr.resolve]
    exact (resolveSig h sig he hc).bind fun _ _ _ hd hr => .pure hd hr.1

theorem resolveSig (h : Regime I N) (sig : FuncSigOf TypeExpr)
    (hsig : sigCollects N.strict sig) {c : Checker} (hc : I c) :
    (GoCheck.resolveSig sig).Leads I c fun r => (N.type r.1).and (N.scope r.2) := by
  cases sig with
  | mk params results variadic span =>
    rw [sigCollects, Bool.and_eq_true, Bool.and_eq_true] at hsig
    rw [GoCheck.resolveSig]
    refine .current ((h.newScope hc).bind fun s c₁ _ h₁ hs => ?_)
    refine (h.recordScope h₁ hs).before fun _ c₂ hs₂ h₂ => ?_
    have hs := hs.later hs₂
    refine (resolveParams h hs span.stop variadic params hsig.1.2 h₂).bind fun ps c₃ hs₃ h₃ hps => ?_
    have hs := hs.later hs₃
    refine (resolveParams h hs span.stop false results hsig.2 h₃).bind fun rs c₄ hs₄ h₄ hrs => ?_
    refine (h.newTuple h₄ (hps.1.later hs₄)).bind fun pt c₅ hs₅ h₅ hpt => ?_
    refine (h.newTuple h₅ (hrs.1.later hs₅)).bind fun rt c₆ hs₆ h₆ hrt => ?_
    refine (h.newSignature h₆ (hpt.1.later hs₆) hrt.1 fun hstrict hvariadic hnil => ?_).bind
      fun t c₇ hs₇ h₇ ht =>
        .pure h₇ ⟨ht, (((hs.later hs₄).later hs₅).later hs₆).later hs₇⟩
    -- a variadic signature has as many parameters in the store as are written
    obtain rfl : ps = [] := (hpt.2.later hs₆).2.symm.trans hnil
    have hempty : params = [] := List.length_eq_zero_iff.mp hps.2.symm
    simp [hstrict, hvariadic, hempty] at hsig

theorem resolveParams (h : Regime I N) {c : Checker} (hs : (N.scope s).At c) (n : Nat)
    (variadic : Bool) (ps : List (ParamOf TypeExpr)) (hps : paramsCollect N.strict ps)
    (hc : I c) : (GoCheck.resolveParams s n variadic ps).Leads I c
      fun os => (all N.typed os).and (.sure (os.length = ps.length)) := by
  cases ps with
  | nil =>
    rw [GoCheck.resolveParams]
    exact .pure hc ⟨all_nil, rfl⟩
  | cons p ps =>
    rw [paramsCollect, Bool.and_eq_true] at hps
    rw [GoCheck.resolveParams]
    refine (resolveParam h hs n _ p hps.1 hc).bind fun o d hd hI ho => ?_
    refine (resolveParams h (hs.later hd) n variadic ps hps.2 hI).bind fun os e he hI' hos => ?_
    exact .pure hI' ⟨all_cons.mpr ⟨ho.later he, hos.1⟩, congrArg (· + 1) hos.2⟩

theorem resolveParam (h : Regime I N) {c : Checker} (hs : (N.scope s).At c) (n : Nat)
    (collects : Bool) (p : ParamOf TypeExpr) (hp : paramCollects N.strict p) (hc : I c) :
    (GoCheck.resolveParam s n collects p).Leads I c N.typed := by
  cases p with
  | mk name type span =>
    rw [GoCheck.resolveParam]
    refine (resolve h type hp hc).bind fun t d hd hI ht => ?_
    split
    · exact (h.newSlice hI ht).bind fun u e he hI' hu =>
        h.declareParam hI' ((hs.later hd).later he) hu
    · rw [pure_bind]
      exact h.declareParam hI (hs.later hd) ht

end

end Regime

end GoCheck
