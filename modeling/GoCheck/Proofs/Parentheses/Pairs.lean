import GoCheck.Proofs.Parentheses.Sessions

/-!
# Values that come with a second value

An element of a map, a type assertion and a received value come with a second value if there are two
places for them. The expression is recorded with the type of a pair in the end: what a value takes
on is recorded only where the record is untyped, and that of the expression has the type of the
element.
-/

namespace GoCheck

open Pass List Checker

variable {t : TypeId} {id : Nat} {r : Recorded} {c : Checker} {x : Operand} {e : Expr}

namespace Records

variable {rs : Records}

lemma find?_setValue_of_typed (v : Constant) (hr : rs.find? j = some r)
    (hu : untyped r.type = false) : (rs.setValue untyped id v).find? j = some r := by
  rw [find?_setValue, hr]
  simp [withValue, hu]

lemma find?_recordImplicit_of_typed (hr : rs.find? j = some r)
    (hu : untyped r.type = false) : (recordImplicit untyped x i rs).find? j = some r := by
  unfold recordImplicit
  cases x.expr with
  | none => exact hr
  | some e =>
    have hvalue : (i.value.elim rs fun v => rs.setValue untyped e.id v).find? j = some r := by
      cases i.value with
      | none => exact hr
      | some v => exact find?_setValue_of_typed v hr hu
    dsimp only
    split
    · split
      · exact find?_retype_of_typed e hvalue hu
      · exact hvalue
    · exact hvalue

end Records

lemma ids_subset_exprsIds (h : e ∈ es) : e.ids ⊆ exprsIds es := by
  induction es with
  | nil => cases h
  | cons e' es ih =>
    rw [exprsIds]
    rcases mem_cons.mp h with rfl | h
    · exact subset_append_left ..
    · exact List.Subset.trans (ih h) (subset_append_right ..)

/-- An expression is recorded with a type, which is not untyped. -/
def Checker.Typed (id : Nat) (r : Recorded) (c : Checker) : Prop :=
  c.info.types.find? id = some r ∧ c.store.isUntyped r.type = false

namespace Pass

variable {m : Pass α}

lemma typed_of_find? (h : c.Typed id r) (hr : (m.1 c).2.info.types.find? id = some r) :
    (m.1 c).2.Typed id r :=
  ⟨hr, ((m.2 c).isUntyped_eq _).trans h.2⟩

lemma typed_of_eq (h : ∀ c, (m.1 c).2.info.types = c.info.types) :
    m.Preserves (Typed id r) :=
  preserves_of_state fun c hc => typed_of_find? hc (by rw [h c]; exact hc.1)

lemma typed_finishConversion : (finishConversion wasConstant x t).Preserves (Typed id r) := by
  have hrecord : (x.expr.forM fun e => recordConversion ⟨e, t, x.mode.isConstant⟩).Preserves
      (Typed id r) :=
    preserves_optionForM fun _ => typed_of_eq fun _ => rfl
  refine hrecord.before fun _ => preserves_of_state fun c hc => typed_of_find? hc ?_
  change (recordConverted c.store wasConstant x t c.info.types).find? id = some r
  unfold recordConverted
  split
  · split
    · exact Records.find?_retype_of_typed _ hc.1 hc.2
    · exact hc.1
  · exact hc.1

/-- Whatever operands take on, what is recorded with a type stays as it is. -/
lemma typed_discipline :
    Discipline (Typed id r) (fun _ => True) (fun _ => True) fun _ => True where
  newIn _ _ _ := trivial
  quiet hm _ := typed_of_eq fun c => (hm.quiet c).types
  restoreUse _ _ hd := (typed_of_eq fun _ => rfl).state _ hd
  giveType := typed_of_eq fun _ => rfl
  newConst := ⟨(typed_of_eq fun _ => rfl).state, fun _ _ _ => typed_of_eq fun _ => rfl⟩
  declare _ := typed_of_eq fun c => ((IsQuiet.declare trivial).quiet c).types
  emit _ _ _ _ := typed_of_eq fun _ => rfl
  report _ := typed_of_eq fun _ => rfl
  unpresentable _ _ _ := typed_of_eq fun _ => rfl
  implicit {x _ i _} _ _ hc :=
    typed_of_find? (m := applyImplicit x i) hc (Records.find?_recordImplicit_of_typed hc.1 hc.2)
  finish _ := typed_finishConversion
  accept _ _ _ := trivial
  reject _ := trivial
  invalidated _ := trivial
  missing := trivial

/-- The evaluation of an expression enters records of its own numbers only. -/
lemma typed_evaluates : Regime.Evaluates (Typed id r)
    (.plain (Typed id r) (fun _ => True) (fun _ => True) fun _ => True) (id ∉ ·.ids) where
  toRegime := typed_discipline.regime
  parts {e} he := by
    cases e with
    | call n func args spread =>
      simp only [Expr.ids, mem_cons, mem_append, not_or] at he
      exact ⟨he.2.1, fun e hargs hid => he.2.2 (ids_subset_exprsIds hargs hid)⟩
    | _ => simp_all [Expr.HasParts, Expr.ids, Notions.plain, TypeExpr.collects_false]
  record {c e x} hc he _ := by
    refine ⟨typed_of_find? hc ?_, trivial⟩
    rw [types_record]
    cases x.recorded? with
    | none => exact hc.1
    | some r' =>
      have hne : id ≠ e.id := fun h => he (h ▸ e.id_mem_ids)
      exact (Table.find?_insert ..).trans ((if_neg hne).trans hc.1)
  recordPair {c e t} hc he _ :=
    ⟨typed_of_find? hc ((Records.find?_setPair_of_notMem e he).trans hc.1), trivial⟩
  putOff _ _ hc := typed_discipline.regime.functionLiteral hc (sigCollects_false _) fun _ _ _ hd _ _ =>
    ⟨(typed_of_eq fun _ => rfl).state _ hd, trivial⟩
  given _ := trivial
  vouched _ := trivial

lemma find?_observe {m : Pass Evaluated} (hr : ((observe e m).1 c).1.1.recorded? = some r) :
    ((observe e m).1 c).2.info.types.find? e.id = some r := by
  have h := concludes_observe e m c
  rw [h.types, ← h.entry, hr]
  exact (Table.find?_insert ..).trans (if_pos rfl)

/-- After an evaluation an expression and all that its parentheses enclose are recorded alike. -/
lemma find?_eval_of_mem_layers (e : Expr) {c : Checker} (hr : (e.eval.1 c).1.1.recorded? = some r)
    (hi : i ∈ e.layers) : (e.eval.1 c).2.info.types.find? i = some r := by
  cases e with rw [Expr.eval] at hr ⊢
  | paren n inner =>
    -- what is inside has been recorded before, and the record of the parentheses is another one
    have h := concludes_observe (.paren n inner) inner.eval c
    have hinner := h.entry.symm.trans hr
    rw [h.types, hinner]
    refine (Table.find?_insert ..).trans ?_
    split
    · rfl
    · rename_i hne
      exact find?_eval_of_mem_layers inner hinner ((mem_cons.mp hi).resolve_left hne)
  | _ =>
    obtain rfl := mem_singleton.mp hi
    exact find?_observe hr

end Pass

/-- The second value of an expression, which tells whether there is a first one. -/
def secondValue (e : Expr) : Operand :=
  { mode := .value, expr := some e, type := some (.basic .untypedBool) }

/-- Two places for a pair of values: in a short declaration, a specification, or an assignment. -/
inductive PairTargets
  | short (v w : ObjectId)
  | spec (untyped : Bool) (v w : ObjectId)
  | assigned (l m : Expr)

namespace PairTargets

/-- Puts the values of an expression into the places. -/
def run (ts : PairTargets) (e : Expr) : Pass Unit :=
  match ts with
  | short v w => initVars [v, w] [e] none
  | spec untyped v w => initSpec untyped [v, w] [e]
  | assigned l m => assignVars [l, m] [e]

def first (ts : PairTargets) (x : Operand) : Pass (Option TypeId) :=
  match ts with
  | short v _ | spec _ v _ => initVar v x "assignment"
  | assigned l _ => assignVar l x

def second (ts : PairTargets) (y : Operand) : Pass (Option TypeId) :=
  match ts with
  | short _ w | spec _ _ w => initVar w y "assignment"
  | assigned _ m => assignVar m y

def event (ts : PairTargets) (a b : Option TypeId) : Event :=
  match ts with
  | short .. | spec .. => .pairInitialized a b
  | assigned .. => .pairAssigned a b

def ids : PairTargets → List Nat
  | short .. | spec .. => []
  | assigned l m => l.ids ++ m.ids

variable {ts : PairTargets}

/-- What is recorded with a type stays as it is, whatever is put into the places. -/
lemma typed_slots (hc : c.Typed id r) (hid : id ∉ ts.ids) :
    ((ts.first x).1 c).2.Typed id r ∧ ((ts.second x).1 c).2.Typed id r := by
  have hvalue : ((Notions.plain (Typed id r) (fun _ => True) (fun _ => True)
      fun _ => True).value x).At c :=
    ⟨⟨fun _ _ => trivial, fun _ => trivial⟩, trivial⟩
  have hinit (v : ObjectId) : ((initVar v x "assignment").1 c).2.Typed id r :=
    (typed_discipline.regime.initVar hc hvalue trivial).state
  cases ts with
  | short v w | spec _ v w => exact ⟨hinit v, hinit w⟩
  | assigned l m =>
    rw [ids, mem_append, not_or] at hid
    have hassign (l : Expr) (hl : id ∉ l.ids) :=
      (typed_discipline.regime.assignVar hc (typed_evaluates.target hl) hvalue).state
    exact ⟨hassign l hid.1, hassign m hid.2⟩

/-- Puts two values of an expression into the places, and records a pair if both are taken. -/
def put (ts : PairTargets) (e : Expr) (x y : Operand) : Pass Unit := do
  let a ← ts.first x
  let b ← ts.second y
  logEvent (ts.event a b)
  recordPair [e] a b

section

variable (hx : (e.eval.1 c).1.1 = x) (hmode : x.mode = .mapIndex ∨ x.mode = .commaOk)
variable (ht : x.type = some t) (hsingle : ((e.eval.1 c).2.store.type t).tuple? = none)
include hx hmode ht hsingle

/-- An operand that comes with a second value is evaluated to both. -/
lemma values_pair :
    (values (pending [e]) true).1 c = (([x, secondValue e], true), (e.eval.1 c).2) := by
  have hexclude d : (exclude x false).1 d = (x, d) := by
    unfold exclude
    rcases hmode with h | h <;> rw [h] <;> rfl
  have hvalid : x.isInvalid = false := by
    rcases hmode with h | h <;> simp [Operand.isInvalid, h]
  have hsecond : secondType? x = some (.basic .untypedBool) := by
    rcases hmode with h | h <;> simp [secondType?, h]
  change (allValues ⟨e, e.eval⟩ true).1 c = _
  rw [allValues, bind_run, hx, bind_run, hexclude, entities_bind_run]
  simp only [hvalid, ht, hsecond, hsingle, Option.bind_some, Bool.false_eq_true, if_false, if_true]
  rfl

lemma run_eq : (ts.run e).1 c = (ts.put e x (secondValue e)).1 (e.eval.1 c).2 := by
  cases ts with
  | short | spec | assigned =>
    change (values (pending [e]) true >>= _).1 c = _
    rw [bind_run, values_pair hx hmode ht hsingle]
    rfl

end

/-- The type of a pair is that of a tuple of exactly its parts. -/
lemma tuple_of_pair (a b : TypeId) (c : Checker) : ∃ p q,
    ((tupleOf [a, b]).1 c).2.store.type ((tupleOf [a, b]).1 c).1 = .tuple [p, q] ∧
      (((tupleOf [a, b]).1 c).2.store.object p).type = some a ∧
      (((tupleOf [a, b]).1 c).2.store.object q).type = some b := by
  have hparam t d : (((newParam Span.dummy none "" (some t)).1 d).2.store.object
      ((newParam Span.dummy none "" (some t)).1 d).1).type = some t :=
    congrArg Object.type ((Store.object_newObject ..).trans (if_pos rfl))
  refine ⟨_, _, (Store.type_newType ..).trans (if_pos rfl), ?_, hparam b _⟩
  exact ((newParam Span.dummy none "" (some b)).2 _).object_type (hparam a c)

/-- Let an expression evaluate to an element of a map, to a type assertion or to a received value,
of a type that is neither untyped nor that of a tuple. Of two places, the first takes the value and
the second an untyped boolean. If both take them, the expression and all that its parentheses
enclose are recorded with the type of a tuple of what the places took; else their records stay as
the evaluation has left them. The boolean never changes the record of an expression with a type. -/
theorem pair_recorded (ts : PairTargets) (hx : (e.eval.1 c).1.1 = x)
    (hmode : x.mode = .mapIndex ∨ x.mode = .commaOk) (ht : x.type = some t)
    (htyped : (e.eval.1 c).2.store.isUntyped t = false)
    (hsingle : ((e.eval.1 c).2.store.type t).tuple? = none) :
    let one := (ts.first x).1 (e.eval.1 c).2
    let two := (ts.second (secondValue e)).1 one.2
    let after := ((ts.run e).1 c).2
    (ts.run e).1 c = (ts.put e x (secondValue e)).1 (e.eval.1 c).2 ∧
    (∀ a b, one.1 = some a → two.1 = some b → ∃ u p q, after.store.type u = .tuple [p, q] ∧
      (after.store.object p).type = some a ∧ (after.store.object q).type = some b ∧
      ∀ i ∈ e.layers, i ∉ ts.ids → after.info.types.find? i = some ⟨x.mode, u⟩) ∧
    (one.1 = none ∨ two.1 = none → after.info.types = two.2.info.types ∧
      ∀ i ∈ e.layers, i ∉ ts.ids → after.info.types.find? i = some ⟨x.mode, t⟩) ∧
    ∀ (d : Checker) (i : Nat) (r : Recorded), d.Typed i r → ∀ place context,
      ((assignment (secondValue e) place context).1 d).2.info.types.find? i = some r := by
  intro one two after
  have hrun : (ts.run e).1 c = (ts.put e x (secondValue e)).1 (e.eval.1 c).2 :=
    run_eq hx hmode ht hsingle
  have hafter : after =
      ((recordPair [e] one.1 two.1).1 ((logEvent (ts.event one.1 two.1)).1 two.2).2).2 := by
    change ((ts.run e).1 c).2 = _
    rw [hrun]
    rfl
  -- the record has a type, so neither place changes it, although the second value is untyped
  have hslots (i : Nat) (hi : i ∈ e.layers) (hid : i ∉ ts.ids) :
      two.2.info.types.find? i = some ⟨x.mode, t⟩ := by
    have hr : (e.eval.1 c).1.1.recorded? = some ⟨x.mode, t⟩ := by
      rw [hx]
      rcases hmode with h | h <;> simp [Operand.recorded?, h, ht]
    have hfirst : (e.eval.1 c).2.Typed i ⟨x.mode, t⟩ := ⟨find?_eval_of_mem_layers e hr hi, htyped⟩
    exact (typed_slots (typed_slots hfirst hid).1 hid).2.1
  refine ⟨hrun, fun a b ha hb => ?_, fun hnone => ?_, fun d i r hd place context => ?_⟩
  · rw [hafter, ha, hb]
    obtain ⟨p, q, htuple, hp, hq⟩ :=
      tuple_of_pair a b ((logEvent (ts.event (some a) (some b))).1 two.2).2
    refine ⟨_, p, q, htuple, hp, hq, fun i hi hid => ?_⟩
    refine (Records.find?_setPair e i).trans ((if_pos hi).trans ?_)
    exact congrArg (Option.map _) (hslots i hi hid)
  · have hsame : after.info.types = two.2.info.types := by
      rw [hafter]
      rcases hnone with h | h <;> rw [h]
      · rfl
      · cases one.1 <;> rfl
    exact ⟨hsame, fun i hi hid => by rw [hsame]; exact hslots i hi hid⟩
  · exact (typed_discipline.regime.assignment hd ⟨⟨fun _ _ => trivial, fun _ => trivial⟩, trivial⟩
      fun _ _ => trivial).state.1

/-- `(any(1).(int))` -/
def assertedAny : Expr :=
  .paren ⟨0, ⟨0, 14⟩⟩ (.assert ⟨1, ⟨1, 13⟩⟩ (.call ⟨2, ⟨1, 7⟩⟩ (.ident ⟨3, ⟨1, 4⟩⟩ ⟨some "any", ⟨1, 4⟩⟩)
    [.lit ⟨4, ⟨5, 6⟩⟩ .int (some "1")] false) (.name ⟨9, 12⟩ ⟨some "int", ⟨9, 12⟩⟩))

def blankTarget (id : Nat) : Expr := .ident ⟨id, ⟨20, 21⟩⟩ ⟨some "_", ⟨20, 21⟩⟩

/-- `_, _ = (any(1).(int))` -/
def blankTargets : PairTargets := .assigned (blankTarget 5) (blankTarget 6)

/-- Both values are taken, and the assertion and the parentheses are recorded with the type of a
pair. -/
theorem assertedAny_recorded :
    let after := ((blankTargets.run assertedAny).1 (.start {})).2
    ∃ u p q, after.store.type u = .tuple [p, q] ∧
      (after.store.object p).type = some (.basic .int) ∧
      (after.store.object q).type = some (.basic .bool) ∧
      ∀ i ∈ [0, 1], (after.info.types.find? i).map (·.type) = some u := by
  have hrecorded := pair_recorded (t := .basic .int) (c := .start {}) (e := assertedAny) blankTargets
    rfl (.inr (by decide +kernel)) (by decide +kernel) (by decide +kernel) (by decide +kernel)
  obtain ⟨u, p, q, htuple, hp, hq, hfind⟩ := hrecorded.2.1 (.basic .int) (.basic .bool)
    (by decide +kernel) (by decide +kernel)
  have hids : ∀ i ∈ [0, 1], i ∈ assertedAny.layers ∧ i ∉ blankTargets.ids := by decide
  refine ⟨u, p, q, htuple, hp, hq, fun i hi => ?_⟩
  rw [hfind i (hids i hi).1 (hids i hi).2]
  rfl

/-- A host has declared a variable `m` of a map type with a tuple of `int` and `string` as its
elements. -/
def tupleElements : Checker :=
  (Pass.run (do
    let t ← tupleOf [.basic .int, .basic .string]
    let t ← newType (.map (.basic .string) t) rfl
    declareNew fun package => newParam Span.dummy package "m" (some t))
    (.start {})).2

/-- In `m["k"]` the second value is the second part of the tuple. -/
theorem tupleElements_values :
    let e := Expr.index ⟨0, ⟨0, 6⟩⟩ (.ident ⟨1, ⟨0, 1⟩⟩ ⟨some "m", ⟨0, 1⟩⟩)
      (.lit ⟨2, ⟨2, 5⟩⟩ .string (some "\"k\""))
    (e.eval.1 tupleElements).1.1.mode = .mapIndex ∧
      (e.eval.1 tupleElements).1.1.type.any (e.eval.1 tupleElements).2.store.isUntyped = false ∧
      ((values (pending [e]) true).1 tupleElements).1.1.map (·.type) =
        [some (.basic .int), some (.basic .string)] := by
  decide +kernel

end PairTargets

end GoCheck
