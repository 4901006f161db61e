import GoCheck.Proofs.Bounds.Checks

/-!
# Sessions stay within bounds

If a host uses only the numbers of entities that exist, then so does every check of any tree.
Members of lists are picked within the lists: the functions that pick them are equal to ones that
pick by bounded positions.
-/

namespace GoCheck

open List Pass

variable {s : Store}

namespace Pass

/-- Names and values that differ in number are reported at a bounded position. -/
def arityByPosition (names : List Ident) (inits : List Expr) (isConst : Bool) : Pass Unit :=
  if h : names.length < inits.length then
    report .extraValue (inits.get ⟨names.length, h⟩).span
  else if h : inits.length < names.length ∧ (isConst = true ∨ inits.length ≠ 1) then
    let name := names.get ⟨inits.length, h.1⟩
    report (.missingValue name.text) name.span
  else pure ()

lemma checkArity_eq (names : List Ident) (inits : List Expr) (isConst : Bool) :
    checkArity names inits isConst = arityByPosition names inits isConst := by
  unfold arityByPosition
  unfold checkArity
  by_cases hextra : names.length < inits.length
  · simp [hextra]
  · rw [dif_neg hextra, getElem?_eq_none (Nat.le_of_not_lt hextra)]
    by_cases hmissing : inits.length < names.length
    · rw [getElem?_eq_getElem hmissing]
      by_cases hcount : isConst ∨ inits.length ≠ 1
      · rw [dif_pos ⟨hmissing, hcount⟩]
        exact if_pos (by simpa using hcount)
      · rw [dif_neg fun h => hcount h.2]
        exact if_neg (by simpa using hcount)
    · rw [dif_neg fun h => hmissing h.1, getElem?_eq_none (Nat.le_of_not_lt hmissing)]

/-- The place of a wrong number of operands: the first one too many, else the last, else its own. -/
def surplusPlace (xs : List Operand) (n : Nat) (place : Span) : Span :=
  if h : n < xs.length then (xs.get ⟨n, h⟩).span
  else if h : 0 < xs.length then (xs.get ⟨xs.length - 1, Nat.sub_one_lt_of_lt h⟩).span
  else place

lemma surplusPlace_eq (xs : List Operand) (n : Nat) (place : Span) :
    surplusPlace xs n place = (xs[n]?.orElse fun _ => xs.getLast?).elim place Operand.span := by
  unfold surplusPlace
  by_cases hextra : n < xs.length
  · simp [hextra]
  · rw [dif_neg hextra, getElem?_eq_none (Nat.le_of_not_lt hextra)]
    by_cases hsome : 0 < xs.length
    · have hne : xs ≠ [] := ne_nil_of_length_pos hsome
      rw [dif_pos hsome, getLast?_eq_some_getLast hne, getLast_eq_getElem]
      rfl
    · obtain rfl : xs = [] := length_eq_zero_iff.mp (Nat.eq_zero_of_not_pos hsome)
      rfl

/-- A wrong number of returned values is reported at a bounded position. -/
lemma returnCountReport_eq (s : Store) (span : Span) (lhs : List ObjectId) (rhs : List Operand) :
    returnCountReport s span lhs rhs =
      (((Problem.returnCount (lhs.length < rhs.length)).report (surplusPlace rhs lhs.length span))
        |>.withNote ("have " ++ s.summary (rhs.map (·.type)) false)
        |>.withNote ("want " ++ s.summary (lhs.map fun v => (s.object v).type) false)) := by
  rw [surplusPlace_eq]
  unfold returnCountReport
  cases rhs[lhs.length]? <;> cases rhs.getLast? <;> rfl

/-- The report of a wrong number of arguments picks an argument by a bounded position. -/
lemma argumentCountReport_eq (s : Store) (e func : Expr) (params : List TypeId) (variadic : Bool)
    (args : List Operand) (expected : Nat) :
    argumentCountReport s e func params variadic args expected =
      (((Problem.argumentCount (expected < args.length) func.text).report
          (surplusPlace args expected e.span))
        |>.withNote ("have " ++ s.summary (args.map (·.type)) false)
        |>.withNote ("want " ++ s.summary (params.map some) variadic)) := by
  rw [surplusPlace_eq]
  unfold argumentCountReport
  cases args[expected]? <;> cases args.getLast? <;> rfl

lemma maintains_allValues (p : Pending) (pair : Bool) :
    (allValues p pair).Maintains (fun _ => True) fun r => r.2 → r.1.length = 2 := by
  have hany : ∀ {α} {m : Pass α}, m.Preserves fun _ => True :=
    preserves_of_state fun _ _ => trivial
  refine hany.before fun r => hany.before fun x => maintains_entities fun s => ?_
  dsimp only
  cases (if x.isInvalid then none else x.type.bind fun t => (s.type t).tuple?) with
  | some vars => exact maintains_pure fun h => nomatch h
  | none =>
    cases (if pair then secondType? x else none) with
    | some t => exact maintains_pure fun _ => rfl
    | none => exact maintains_pure fun h => nomatch h

lemma length_of_pair (h : ((values ps pair).1 c).1.2) :
    ps.length = 1 ∧ ((values ps pair).1 c).1.1.length = 2 := by
  rcases ps with _ | ⟨p, _ | ⟨q, ps⟩⟩
  · cases h
  · exact ⟨rfl, (maintains_allValues p pair).result c trivial h⟩
  · cases h

end Pass

/-- The plan for the arguments of a variadic call picks the last parameter by a bounded position. -/
def variadicPlan (s : Store) (params : List TypeId) (h : 0 < params.length) (nargs : Nat) :
    ArgumentPlan :=
  if nargs + 1 < params.length then .wrongCount (params.length - 1)
  else
    let last := params.get ⟨params.length - 1, Nat.sub_one_lt_of_lt h⟩
    .each (params.take (params.length - 1) ++
      List.replicate (nargs - (params.length - 1)) ((s.type last).sliceElem?.getD .invalid))

lemma planArguments_eq (s : Store) (params : List TypeId) (nexprs nargs : Nat)
    (h : 0 < params.length) :
    planArguments s params true false nexprs nargs = variadicPlan s params h nargs := by
  have hne : params ≠ [] := ne_nil_of_length_pos h
  have hlast : params.getLast? = some (params.get ⟨params.length - 1, Nat.sub_one_lt_of_lt h⟩) := by
    rw [getLast?_eq_some_getLast hne, getLast_eq_getElem]
    rfl
  simp only [planArguments, variadicPlan, hlast, Option.bind_some, dropLast_eq_take, length_take,
    Nat.min_eq_left (Nat.sub_le _ 1)]
  by_cases hfew : nargs + 1 < params.length
  · rw [if_pos hfew, if_pos (by omega)]
  · rw [if_neg hfew, if_neg (by omega)]

lemma Store.Closed.paramTypes_pos (hs : s.Closed true)
    (ht : s.type t = .signature sig) (hv : sig.variadic) :
    0 < (paramTypes s sig).length := by
  rw [paramTypes, length_map]
  exact length_pos_iff.mpr (hs.variadic rfl t sig ht hv)

/-! ## Sessions -/

namespace Store

variable {s s' : Store}

/-- What a host may do to the entities: it removes none, and what it makes or changes refers to
existing ones, strictly with a parameter in each variadic signature. -/
structure Growth (s : Store) (strict : Bool) (s' : Store) : Prop where
  types : s.types.size ≤ s'.types.size
  objects : s.objects.size ≤ s'.objects.size
  scopes : s.scopes.size ≤ s'.scopes.size
  packages : s.packages.size ≤ s'.packages.size
  part : ∀ t, s'.type t ≠ s.type t → ∀ u ∈ (s'.type t).typeRefs, s'.HasType u
  member : ∀ t, s'.type t ≠ s.type t → ∀ o ∈ (s'.type t).objectRefs, s'.HasObject o
  object : ∀ o, ∀ t ∈ (s'.object o).type, t ∈ (s.object o).type ∨ s'.HasType t
  home : ∀ o, ∀ x ∈ (s'.object o).parent, x ∈ (s.object o).parent ∨ s'.HasScope x
  parent : ∀ x, ∀ p ∈ (s'.scope x).parent, p ∈ (s.scope x).parent ∨ s'.HasScope p
  child : ∀ x, ∀ y ∈ (s'.scope x).children, y ∈ (s.scope x).children ∨ s'.HasScope y
  bound : ∀ x, ∀ b ∈ (s'.scope x).bindings, b ∈ (s.scope x).bindings ∨ s'.HasObject b.2
  package : ∀ p ∈ s'.packages, p ∈ s.packages ∨ s'.HasScope p.scope
  variadic : strict = true → ∀ t sig, s'.type t = .signature sig → sig.variadic = true →
    s'.tupleVars sig.params ≠ []

namespace Growth

variable (h : s.Growth strict s')
include h

lemma hasType (ht : s.HasType t) : s'.HasType t := lt_of_lt_of_le ht h.types

lemma hasObject (ho : s.HasObject o) : s'.HasObject o :=
  lt_of_lt_of_le ho h.objects

lemma hasScope (hx : s.HasScope x) : s'.HasScope x :=
  lt_of_lt_of_le hx h.scopes

lemma closed (hs : s.Closed strict) : s'.Closed strict where
  predeclared := h.hasType hs.predeclared
  part t u hu := by
    by_cases hsame : s'.type t = s.type t
    · exact h.hasType (hs.part t u (hsame ▸ hu))
    · exact h.part t hsame u hu
  member t o ho := by
    by_cases hsame : s'.type t = s.type t
    · exact h.hasObject (hs.member t o (hsame ▸ ho))
    · exact h.member t hsame o ho
  object o t ht := (h.object o t ht).elim (fun hold => h.hasType (hs.object o t hold)) id
  home o x hx := (h.home o x hx).elim (fun hold => h.hasScope (hs.home o x hold)) id
  parent x p hp := (h.parent x p hp).elim (fun hold => h.hasScope (hs.parent x p hold)) id
  child x y hy := (h.child x y hy).elim (fun hold => h.hasScope (hs.child x y hold)) id
  bound x b hb := (h.bound x b hb).elim (fun hold => h.hasObject (hs.bound x b hold)) id
  package p hp := (h.package p hp).elim (fun hold => h.hasScope (hs.package p hold)) id
  variadic := h.variadic

end Growth

/-- A safe step is a change that a host may make, too. -/
lemma SafeStep.growth (h : s.SafeStep strict s') (hs : s.Closed strict) : s.Growth strict s' := by
  have hclosed := h.closed hs
  have hstep := h.step
  exact {
    types := hstep.types_size_le
    objects := hstep.objects_size_le
    scopes := hstep.scopes_size_le
    packages := by rw [hstep.packages_eq]
    part := fun t _ => hclosed.part t
    member := fun t _ => hclosed.member t
    object := fun o t ht => .inr (hclosed.object o t ht)
    home := fun o x hx => .inr (hclosed.home o x hx)
    parent := fun x p hp => .inr (hclosed.parent x p hp)
    child := fun x y hy => .inr (hclosed.child x y hy)
    bound := fun x b hb => .inr (hclosed.bound x b hb)
    package := fun p hp => .inr (hclosed.package p hp)
    variadic := hclosed.variadic }

end Store

variable {c : Checker}

lemma Checker.Closed.growth (hc : c.Closed strict) (h : c.store.Growth strict s) :
    ({ c with store := s } : Checker).Closed strict where
  store := h.closed hc.store
  package := lt_of_lt_of_le hc.package h.packages
  context := ⟨fun x hx => h.hasScope (hc.context.scope x hx),
    fun t ht => h.hasType (hc.context.sig t ht)⟩
  deferred d hd := ⟨h.hasType (hc.deferred d hd).sig, h.hasScope (hc.deferred d hd).scope,
    (hc.deferred d hd).collects⟩
  info := ⟨fun r hr => h.hasType (hc.info.types r hr),
    fun x hx => h.hasType (hc.info.conversions x hx),
    fun d hd o ho => h.hasObject (hc.info.defs d hd o ho),
    fun u hu => h.hasObject (hc.info.uses u hu), fun x hx => h.hasScope (hc.info.scopes x hx)⟩

/-- A request about existing entities, strictly with a parameter in each variadic signature. -/
def Request.Within (strict : Bool) (s : Store) : Request → Prop
  | declareVar _ t | declareConst _ t _ | declareFunc _ t => s.HasType t
  | declareType o => s.HasObject o
  | checkFunc sig body => sigCollects strict sig = true ∧ blockCollects strict body = true
  | checkFuncBody sig body => s.HasType sig ∧ blockCollects strict body = true
  | checkBlock body => blockCollects strict body = true

lemma Request.safe {r : Request} (hc : c.Closed strict) (hr : r.Within strict c.store) :
    c.SafeSteps strict (r.answer c) := by
  have htype : ∀ {t}, c.store.HasType t → ∀ u ∈ some t, c.store.HasType u := by
    rintro t ht _ ⟨⟩
    exact ht
  cases r with
  | declareVar name t => exact (safe_declareNew fun p => safe_newParam hc (htype hr)).steps
  | declareConst name t v => exact (safe_declareNew fun p => safe_newConst hc (htype hr)).steps
  | declareType o => exact (safe_declareInPackage hc hr).steps
  | declareFunc name sig => exact (safe_declareNew fun p => safe_newFunc hc (htype hr)).steps
  | checkFunc sig body => exact (safe_function hc hr.2 hr.1).steps
  | checkFuncBody sig body => exact (safe_bodyOf hc hr.2 hr.1).steps
  | checkBlock body => exact (safe_block hc hr).steps

/-- The states of a session whose host uses the numbers of existing entities, strictly with a
parameter in each variadic signature. -/
inductive GuardedSession (strict : Bool) : List Diagnostic → Checker → Prop where
  | start (config : Config) : GuardedSession strict [] (.start config)
  | change {c : Checker} {s : Store} :
      GuardedSession strict taken c → c.store.Growth strict s →
        GuardedSession strict taken { c with store := s }
  | move {c : Checker} {context : Context} :
      GuardedSession strict taken c → context.Within c.store →
        GuardedSession strict taken { c with context }
  | take {c : Checker} :
      GuardedSession strict taken c →
        GuardedSession strict (taken ++ c.sink.reports.toList) { c with sink := {} }
  | ask {c : Checker} {r : Request} :
      GuardedSession strict taken c → r.Within strict c.store →
        GuardedSession strict taken (r.answer c)

namespace GuardedSession

variable {taken : List Diagnostic} {c : Checker}

lemma start_closed (config : Config) : (Checker.start config).Closed strict := by
  have hstore : (Checker.start {}).store.Closed strict := by
    refine Store.closed_of_forall_lt ?_ ?_ ?_ ?_ ?_ ?_ ?_ ?_ ?_ ?_
    all_goals decide +kernel
  have hscope : ∀ x ∈ (Checker.start {}).context.scope, (Checker.start {}).store.HasScope x := by
    decide +kernel
  exact {
    store := hstore
    package := show (Checker.start {}).store.HasPackage (Checker.start {}).package by decide +kernel
    context := ⟨hscope, by rintro t ⟨⟩⟩
    deferred := by rintro d ⟨⟩
    info := ⟨by rintro r ⟨⟩, by rintro x ⟨⟩, by rintro d ⟨⟩, by rintro u ⟨⟩, by rintro x ⟨⟩⟩ }

lemma closed (h : GuardedSession strict taken c) : c.Closed strict := by
  induction h with
  | start config => exact start_closed config
  | change _ hgrowth ih => exact ih.growth hgrowth
  | move _ hcontext ih => exact ⟨ih.store, ih.package, hcontext, ih.deferred, ih.info⟩
  | take _ ih => exact ⟨ih.store, ih.package, ih.context, ih.deferred, ih.info⟩
  | ask _ hr ih => exact (Request.safe ih hr).closed ih

/-- The state after a host has made a slice type and a variable of it has been declared. -/
def slicesState : Checker :=
  (Request.declareVar "xs" ⟨(Checker.start {}).store.types.size⟩).answer
    { Checker.start {} with
      store := (Build.newType (.slice (.basic .int)) (Checker.start {}).store).2 }

/-- It calls a variadic literal with two arguments, and has lists that differ in length. -/
def variadicRequest : Request :=
  let int : TypeExpr := .name ⟨0, 1⟩ ⟨some "int", ⟨0, 1⟩⟩
  let var (i : Nat) (name : String) : Expr := .ident ⟨i, ⟨i, i⟩⟩ ⟨some name, ⟨i, i⟩⟩
  let collect : FuncSig := ⟨[⟨some ⟨some "ys", ⟨2, 4⟩⟩, int, ⟨2, 8⟩⟩], [], true, ⟨1, 9⟩⟩
  .checkFunc ⟨[], [⟨none, int, ⟨0, 0⟩⟩, ⟨none, int, ⟨0, 0⟩⟩], false, ⟨0, 0⟩⟩
    ⟨[.short ⟨1, 12⟩ [var 20 "f"] [.funcLit ⟨21, ⟨10, 12⟩⟩ collect ⟨[], ⟨10, 12⟩⟩],
      .expr ⟨13, 20⟩ (.call ⟨22, ⟨13, 20⟩⟩ (var 23 "f") [var 24 "xs", var 25 "xs"] false),
      .assign ⟨21, 24⟩ [var 26 "xs", var 27 "xs"] [],
      .ret ⟨25, 30⟩ [var 28 "xs"]], ⟨0, 31⟩⟩

lemma slicesState_reached : GuardedSession true [] slicesState := by
  have hstart : (Checker.start {}).Closed true := start_closed {}
  have hadmits : (Checker.start {}).store.Admits true (.slice (.basic .int)) :=
    admits_of_refs rfl (by simpa [Ty.typeRefs] using hstart.store.hasType_basic .int)
      (by simp [Ty.objectRefs])
  have hslice : GuardedSession true [] { Checker.start {} with
      store := (Build.newType (.slice (.basic .int)) (Checker.start {}).store).2 } :=
    .change (.start {}) (Store.SafeStep.growth (.newType _ rfl hadmits) hstart.store)
  exact hslice.ask (show Store.HasType _ _ by decide +kernel)

end GuardedSession

end GoCheck
