import GoCheck.Proofs.Isolation.Values

/-!
# Expressions side by side

The evaluation of an expression from two states that differ in their numbers makes the same reports
and gives the same operand, up to the numbers.
-/

namespace GoCheck

open Renumbering List Option

variable {s : Store} {args : List Pending} {params ts : List TypeId} {span : Span}
  {func p : Pending}

def Renumbering.evaluated (ρ : Renumbering) (r : Evaluated) : Evaluated := (ρ.operand r.1, r.2)

variable {ρ : Renumbering}

namespace Pass

variable {c c' : Checker} {e : Expr} {m index : Pass Evaluated}

/-- An evaluation that is safe, and the same from states that differ in their numbers. -/
structure Repeats (ρ : Renumbering) (m : Pass Evaluated) : Prop where
  safe : SafeEval false m
  mirrors : ∀ c c', c.Mirrored ρ c' → c.Closed false → m.Mirrors ρ m c c' ρ.evaluated

lemma Repeats.run (hm : Repeats ρ m) (h : c.Mirrored ρ c') (hc : c.Closed false) :
    m.Mirrors ρ m c c' ρ.evaluated fun r d => d.Closed false ∧ r.1.Within d.store :=
  ((hm.mirrors c c' h hc).safe (hm.safe c hc)).mono fun _ _ _ hr => hr.2

section

variable (h : c.Mirrored ρ c')
include h

lemma mirrors_record : (record n x).Mirrors ρ (record n (ρ.operand x)) c c' id := by
  simp only [record, operand_mode, operand_type]
  cases x.mode with
  | invalid => exact mirrors_recordFailed h
  | noValue => exact mirrors_onRecords h
  | _ =>
    cases x.type with
    | none => exact .done h rfl
    | some t => exact mirrors_onRecords h

lemma mirrors_conclude :
    (conclude e r).Mirrors ρ (conclude e (ρ.evaluated r)) c c' ρ.evaluated := by
  refine (mirrors_record h).next fun _ hd => ?_
  refine (mirrors_unindentTrace hd).next fun _ hf => ?_
  exact (mirrors_traceLine hf).next fun _ hg => .done hg rfl

lemma mirrors_exclude :
    (exclude x allowType).Mirrors ρ (exclude (ρ.operand x) allowType) c c' ρ.operand := by
  simp only [exclude, mirrors_entities_bind, operand_mode, h.describe]
  cases x.mode with
  | noValue => cases allowType <;> exact mirrors_refuse h rfl
  | typeExpr =>
    cases allowType with
    | true => exact .done h rfl
    | false => exact mirrors_refuse h rfl
  | _ => exact .done h rfl

end

lemma mirrors_observe
    (hm : ∀ c c', c.Mirrored ρ c' → c.Closed false → m.Mirrors ρ m c c' ρ.evaluated) :
    ∀ c c', c.Mirrored ρ c' → c.Closed false →
      (observe e m).Mirrors ρ (observe e m) c c' ρ.evaluated := by
  intro c c' h hc
  refine ((mirrors_traceLine h).safe (safe_traceLine hc)).bind fun _ d d' _ hd hclosed => ?_
  refine ((mirrors_indentTrace hd).safe (safe_indentTrace hclosed.2.1)).bind
    fun _ f f' _ hf hclosed' => ?_
  exact (hm f f' hf hclosed'.2.1).next fun r hg => mirrors_conclude hg

section

variable {q : Pass Operand}
variable (hq : ∀ c c', c.Mirrored ρ c' → c.Closed false → q.Mirrors ρ q c c' ρ.operand)
include hq

lemma mirrors_asExpression (c c' : Checker) (h : c.Mirrored ρ c') (hc : c.Closed false) :
    (asExpression q).Mirrors ρ (asExpression q) c c' ρ.evaluated :=
  (hq c c' h hc).next fun _ hd => .done hd rfl

lemma mirrors_asStatement (c c' : Checker) (h : c.Mirrored ρ c') (hc : c.Closed false) :
    (asStatement q).Mirrors ρ (asStatement q) c c' ρ.evaluated :=
  (hq c c' h hc).next fun _ hd => .done hd rfl

end

section

variable (h : c.Mirrored ρ c') (hc : c.Closed false)
include h hc

lemma mirrors_admitted (hm : Repeats ρ m) (allowType : Bool) :
    (m >>= fun r => exclude r.1 allowType >>= singleValue).Mirrors ρ
      (m >>= fun r => exclude r.1 allowType >>= singleValue) c c' ρ.operand :=
  (hm.run h hc).next fun _ hd => (mirrors_exclude hd).next fun _ hf => (mirrors_singleValue hf).trivial

lemma mirrors_value (hm : Repeats ρ m) : (value m).Mirrors ρ (value m) c c' ρ.operand
    fun y d => d.Closed false ∧ y.Within d.store :=
  ((mirrors_admitted h hc hm false).safe (safe_value hc hm.safe)).mono fun _ _ _ hy => hy.2

lemma mirrors_valueOrType (hm : Repeats ρ m) :
    (valueOrType m).Mirrors ρ (valueOrType m) c c' ρ.operand
      fun y d => d.Closed false ∧ y.Within d.store :=
  ((mirrors_admitted h hc hm true).safe (safe_valueOrType hc hm.safe)).mono fun _ _ _ hy => hy.2

omit h hc in
lemma old_of_secondType? (hx : secondType? x = some t) : ¬ρ.NewType t := by
  unfold secondType? at hx
  split at hx
  · cases hx
    exact not_newType_basic _
  · cases hx
    exact not_newType_basic _
  · cases hx
    exact not_newType_of_le_any (by decide)
  · cases hx

variable {pair : Bool}

/-- The values of an expression are the same, and the second one of a pair is of an old type. -/
lemma mirrors_allValues (hp : Repeats ρ p.eval) :
    (allValues p pair).Mirrors ρ (allValues p pair) c c' (Prod.map (map ρ.operand) id)
      fun r _ => r.2 → ∀ y ∈ r.1.tail, y.Old ρ := by
  refine (hp.run h hc).next fun r hd => ?_
  refine (mirrors_exclude hd).bind fun x f f' _ hf _ => mirrors_entities_bind.mpr ?_
  have hvars : (if (ρ.operand x).isInvalid then none
      else (ρ.operand x).type.bind fun t => (f'.store.type t).tuple?) =
      (if x.isInvalid then none else x.type.bind fun t => (f.store.type t).tuple?).map
        (map ρ.object) := by
    rw [operand_isInvalid, operand_type]
    cases x.isInvalid with
    | true => rfl
    | false =>
      cases x.type with
      | none => rfl
      | some t => simp [hf.shifted.type]
  have hsecond : secondType? (ρ.operand x) = secondType? x := rfl
  simp only [hvars, hsecond]
  cases (if x.isInvalid then none else x.type.bind fun t => (f.store.type t).tuple?) with
  | some vars =>
    refine .pure hf ?_ (by simp)
    simp [operand, hf.shifted.objectType]
  | none =>
    cases hpair : (if pair then secondType? x else none) with
    | some t =>
      have hold : ¬ρ.NewType t := by
        split at hpair
        · exact old_of_secondType? hpair
        · cases hpair
      refine .pure hf ?_ fun _ => ?_
      · simp [operand, type_of_not_new hold]
      · simpa using ⟨by simp, by simpa using hold⟩
    | none => exact .pure hf rfl (by simp)

lemma mirrors_values (hps : ∀ p ∈ ps, Repeats ρ p.eval) :
    (values ps pair).Mirrors ρ (values ps pair) c c' (Prod.map (map ρ.operand) id)
      fun r d => (r.2 → ∀ y ∈ r.1.tail, y.Old ρ) ∧ d.Closed false ∧
        ∀ y ∈ r.1, y.Within d.store := by
  refine Mirrors.safe ?_ (safe_values hc fun p hp => (hps p hp).safe)
  have hmany : ((ps.mapM fun p => value p.eval) >>= fun xs => pure (xs, false)).Mirrors ρ
      ((ps.mapM fun p => value p.eval) >>= fun xs => pure (xs, false)) c c'
        (Prod.map (map ρ.operand) id) fun r _ => r.2 → ∀ y ∈ r.1.tail, y.Old ρ := by
    have hall := mirrors_mapM_same (T := fun _ : Operand => True) h hc
      fun p hp d d' _ hd hclosed => (mirrors_value hd hclosed (hps p hp)).mono
        fun _ _ _ hy => ⟨hy.1, .intro⟩
    exact hall.next fun xs hd => .pure hd rfl fun hpair => by cases hpair
  rcases ps with _ | ⟨p, _ | ⟨q, qs⟩⟩
  · exact hmany
  · exact mirrors_allValues h hc (hps p (by simp))
  · exact hmany

lemma mirrors_useAll (hps : ∀ p ∈ ps, Repeats ρ p.eval) :
    (useAll ps).Mirrors ρ (useAll ps) c c' id fun _ d => d.Closed false := by
  refine mirrors_forM_same h hc fun p hp d d' _ hd hclosed => ?_
  split
  · exact .pure hd rfl hclosed
  · exact ((hps p hp).run hd hclosed).bind fun _ f f' _ hf hr => .pure hf rfl hr.1

end

@[simp] lemma operand_failed : ρ.operand failed = failed := by
  simp [operand, failed]

section

variable (h : c.Mirrored ρ c')
include h

lemma mirrors_noteUse : (noteUse o).Mirrors ρ (noteUse (ρ.object o)) c c' id := by
  refine (mirrors_isLocalVar h).next fun isLocal hd => ?_
  cases isLocal with
  | true => exact mirrors_markUsed hd
  | false => exact .done hd rfl

lemma mirrors_name : (name i).Mirrors ρ (name i) c c' ρ.operand := by
  unfold name
  split
  · exact mirrors_report_return h operand_failed.symm .intro
  · refine (mirrors_lookup h).next fun o hd => ?_
    cases o with
    | none => exact mirrors_report_return hd operand_failed.symm .intro
    | some o =>
      refine (mirrors_recordUse hd).next fun _ hf => mirrors_entities_bind.mpr ?_
      refine (mirrors_noteUse hf).next fun _ hg => ?_
      simp only [hf.shifted.mode, hf.shifted.objectType, getD_map_type,
        type_eq_invalid]
      split
      · exact .pure hg operand_failed.symm .intro
      · exact .done hg rfl

lemma mirrors_literal :
    (literal kind raw span).Mirrors ρ (literal kind raw span) c c' ρ.operand := by
  refine (mirrors_note h).next fun _ hd => ?_
  dsimp only
  split
  · exact mirrors_report_return hd operand_failed.symm .intro
  · refine .pure hd ?_ .intro
    simp [operand]

lemma mirrors_functionLiteral (hc : c.Closed false) :
    (functionLiteral sig body).Mirrors ρ (functionLiteral sig body) c c' ρ.operand := by
  refine (mirrors_resolveSig sig h hc).bind fun r d d' _ hd hr => ?_
  refine (mirrors_defer hd hr.1 hr.2.1).next fun _ hf => .done hf rfl

lemma mirrors_reportSelection : (reportSelection x t sel r).Mirrors ρ
      (reportSelection (ρ.operand x) (ρ.type t) sel (ρ.selection r)) c c' id := by
  simp only [reportSelection, mirrors_entities_bind, h.shifted.isInvalid h.ordered, h.typeText,
    h.shifted.isInterfacePointer h.ordered, operand_exprText]
  split
  · exact .done h rfl
  · cases r <;> exact mirrors_report h rfl rfl

variable (hc : c.Closed false)
include hc

lemma mirrors_select (hbase : Repeats ρ base) :
    (select base sel).Mirrors ρ (select base sel) c c' ρ.operand := by
  refine (mirrors_value h hc hbase).bind fun x d d' _ hd _ => ?_
  rw [operand_isInvalid, operand_type]
  cases x.isInvalid with
  | true => exact .done hd rfl
  | false =>
    cases x.type with
    | none => exact .done hd rfl
    | some t =>
      have hselect : d'.store.select (ρ.type t) ((ρ.operand x).mode = .variable) sel.text =
          ρ.selection (d.store.select t (x.mode = .variable) sel.text) :=
        hd.shifted.select hd.ordered ..
      simp only [map_some, mirrors_entities_bind, hselect]
      cases d.store.select t (x.mode = .variable) sel.text with
      | entry o path indirect =>
        refine (mirrors_recordUse hd).next fun _ hf => .pure hf ?_ .intro
        simp only [hd.shifted.isVar, hd.shifted.objectType]
        rfl
      | _ => exact (mirrors_reportSelection hd).next fun _ hf => .done hf rfl

omit h hc

end

/-- What an operand can be indexed for does not depend on numbers. -/
lemma indexing_operand (h : s.Shifted ρ s') (hs : s.Ordered) :
    indexing s' (ρ.operand x) = ρ.indexing (indexing s x) := by
  unfold indexing
  rw [operand_typeOrInvalid, h.shape hs, operand_mode]
  cases s.shape x.typeOrInvalid with
  | basic k =>
    dsimp only [ty]
    split
    · simp [Renumbering.indexing]
    · rfl
  | pointer b =>
    dsimp only [ty]
    rw [h.shape hs]
    cases s.shape b <;> rfl
  | _ => rfl

section

variable (h : c.Mirrored ρ c')
include h

variable {length : Option Nat}

lemma indexProblem?_operand :
    indexProblem? c'.store (ρ.operand x) length = indexProblem? c.store x length := by
  have hinteger : (ρ.operand x).type.any c'.store.isInteger = x.type.any c.store.isInteger := by
    rw [operand_type, Option.any_map]
    simp only [h.shifted.isInteger h.ordered]
  unfold indexProblem?
  rw [hinteger, h.describe]
  rfl

variable (hc : c.Closed false)
include hc

lemma mirrors_checkIndex (hindex : Repeats ρ index) :
    (checkIndex index length).Mirrors ρ (checkIndex index length) c c' id := by
  refine (mirrors_value h hc hindex).next fun x hd => ?_
  have hconvert := mirrors_convertUntyped hd (x := x) (t := .basic .int)
  rw [type_basic] at hconvert
  refine hconvert.bind fun y f f' _ hf _ => ?_
  rw [operand_isInvalid]
  cases y.isInvalid with
  | true => exact .done hf rfl
  | false =>
    simp only [Bool.false_eq_true, if_false, mirrors_entities_bind, indexProblem?_operand hf]
    cases indexProblem? f.store y length with
    | none => exact .done hf rfl
    | some p => exact mirrors_report hf rfl rfl

lemma mirrors_indexInto {index : Pending} (hbase : Repeats ρ base) (hindex : Repeats ρ index.eval) :
    (indexInto base index).Mirrors ρ (indexInto base index) c c' ρ.operand := by
  refine (mirrors_value h hc hbase).bind fun x d d' _ hd hx => ?_
  have huse : ∀ {f f'}, f.Mirrored ρ f' → f.Closed false →
      (useAll [index]).Mirrors ρ (useAll [index]) f f' id fun _ g => g.Closed false :=
    fun hf hclosed => mirrors_useAll hf hclosed (by simpa using hindex)
  rw [operand_isInvalid]
  cases x.isInvalid with
  | true => exact (huse hd hx.1).next fun _ hf => .done hf rfl
  | false =>
    simp only [Bool.false_eq_true, if_false, mirrors_entities_bind,
      indexing_operand hd.shifted hd.ordered, hd.describe]
    cases indexing d.store x with
    | list mode elem length =>
      exact (mirrors_checkIndex hd hx.1 hindex).next fun _ hf => .done hf rfl
    | map key elem =>
      refine (mirrors_value hd hx.1 hindex).next fun y hf => ?_
      exact (mirrors_assignTo hf).discard.next fun _ hg => .done hg rfl
    | none =>
      refine ((mirrors_report hd rfl rfl).safe (safe_report hx.1)).bind
        fun _ f f' _ hf hclosed => ?_
      exact (huse hf hclosed.2.1).next fun _ hg => .done hg rfl

lemma mirrors_assertType {type : TypeExpr} (hbase : Repeats ρ base) :
    (assertType e base type).Mirrors ρ (assertType e base type) c c' ρ.operand := by
  refine (mirrors_value h hc hbase).bind fun x d d' _ hd hx => ?_
  rw [operand_isInvalid, operand_type]
  cases x.isInvalid with
  | true => exact .done hd rfl
  | false =>
    cases x.type with
    | none => exact .done hd rfl
    | some old =>
      simp only [map_some, mirrors_entities_bind, hd.shifted.isTypeParam,
        hd.shifted.isInterface hd.ordered, hd.describe]
      split
      · exact mirrors_refuse hd rfl
      · split
        · exact mirrors_refuse hd rfl
        · refine (mirrors_resolve type hd hx.1).bind fun t f f' _ hf _ => ?_
          simp only [mirrors_entities_bind, hf.shifted.isInvalid hf.ordered,
            hf.shifted.impossibleAssertion? hf.ordered]
          split
          · exact .done hf rfl
          · cases f.store.impossibleAssertion? old t with
            | none => exact .done hf rfl
            | some lacking =>
              simp only [map_some, hf.typeText, hf.shifted.lackingText hf.grown hf.ordered]
              refine (mirrors_logEvent hf).next fun _ hg => ?_
              exact mirrors_refuse hg rfl

lemma mirrors_receive (hm : Repeats ρ m) : (receive m).Mirrors ρ (receive m) c c' ρ.operand := by
  refine (mirrors_value h hc hm).bind fun x d d' _ hd _ => ?_
  rw [operand_isInvalid]
  cases x.isInvalid with
  | true => exact .done hd rfl
  | false =>
    simp only [Bool.false_eq_true, if_false, mirrors_entities_bind,
      operand_typeOrInvalid, hd.shifted.shape hd.ordered, hd.describe]
    cases d.store.shape x.typeOrInvalid with
    | chan dir elem =>
      cases dir with
      | send => exact mirrors_refuse hd rfl
      | _ => exact .done hd rfl
    | _ => exact mirrors_refuse hd rfl

omit hc in
lemma mirrors_pointee : (pointee x).Mirrors ρ (pointee (ρ.operand x)) c c' ρ.operand := by
  simp only [pointee, mirrors_entities_bind, operand_typeOrInvalid,
    h.shifted.shape h.ordered, h.describe]
  cases c.store.shape x.typeOrInvalid with
  | pointer b => exact .done h rfl
  | _ => exact mirrors_refuse h rfl

lemma mirrors_pointerTo (ht : c.store.HasType t) :
    (newPointer t).Mirrors ρ (newPointer (ρ.type t)) c c' ρ.type :=
  (mirrors_newElement h hc ht (fun _ _ => Nat.zero_le _) (Nat.zero_le _) rfl rfl rfl).trivial

lemma mirrors_indirection (hm : Repeats ρ m) :
    (indirection m).Mirrors ρ (indirection m) c c' ρ.operand := by
  refine (mirrors_valueOrType h hc hm).bind fun x d d' _ hd hx => ?_
  rw [operand_mode]
  cases x.mode with
  | invalid => exact .done hd rfl
  | typeExpr =>
    rw [operand_typeOrInvalid]
    have ht := hx.2.hasType_typeOrInvalid hx.1.store
    exact (mirrors_pointerTo hd hx.1 ht).next fun u hf => .done hf rfl
  | _ => exact mirrors_pointee hd

lemma mirrors_addressOf (ht : c.store.HasType t) :
    (addressOf x t).Mirrors ρ (addressOf (ρ.operand x) (ρ.type t)) c c' ρ.operand := by
  unfold addressOf
  by_cases hmode : x.mode = .variable
  · rw [if_pos hmode, if_pos (show (ρ.operand x).mode = .variable from hmode)]
    exact (mirrors_pointerTo h hc ht).next fun u hd => .done hd rfl
  · rw [if_neg hmode, if_neg (show (ρ.operand x).mode ≠ .variable from hmode),
      mirrors_describe_bind, h.describe]
    exact mirrors_refuse h rfl

omit hc in
lemma mirrors_arithmetic :
    (arithmetic e op x t).Mirrors ρ (arithmetic e op (ρ.operand x) (ρ.type t)) c c' ρ.operand := by
  have hdefined : definedOn c'.store op (ρ.type t) = definedOn c.store op t := by
    unfold definedOn
    rw [h.shifted.isBoolean h.ordered, h.shifted.isNumeric h.ordered]
  simp only [arithmetic, mirrors_entities_bind, hdefined, h.describe, operand_mode,
    h.shifted.isUntyped, h.shifted.underlying h.ordered]
  split
  · exact mirrors_refuse h rfl
  · cases x.mode with
    | constant v =>
      dsimp only
      split
      · exact .done h rfl
      · split
        · exact .done h rfl
        · exact mirrors_represent h
    | _ => exact .done h rfl

lemma mirrors_unary (hm : Repeats ρ m) :
    (unary e op m).Mirrors ρ (unary e op m) c c' ρ.operand := by
  unfold unary
  split
  · exact mirrors_indirection h hc hm
  · refine (mirrors_value h hc hm).bind fun x d d' _ hd hx => ?_
    rw [operand_isInvalid, operand_type]
    cases x.isInvalid with
    | true => exact .done hd rfl
    | false =>
      cases htype : x.type with
      | none => exact .done hd rfl
      | some t =>
        dsimp only [map_some]
        split
        · exact mirrors_addressOf hd hx.1 (hx.2 t htype)
        · exact mirrors_arithmetic hd

end

section

variable (h : s.Shifted ρ s')
include h

lemma paramTypes_signature :
    paramTypes s' (ρ.signature g) = (paramTypes s g).map ρ.type := by
  unfold paramTypes
  rw [signature, h.tupleVars, List.map_map, List.map_map]
  refine List.map_congr_left fun o _ => ?_
  simp [h.objectType]

/-- How arguments meet parameters does not depend on numbers. -/
lemma planArguments_map :
    planArguments s' (params.map ρ.type) variadic spread nexprs nargs =
      ρ.plan (planArguments s params variadic spread nexprs nargs) := by
  have hcount : matchCount (params.map ρ.type) nargs = ρ.plan (matchCount params nargs) := by
    unfold matchCount
    rw [length_map]
    split <;> rfl
  unfold planArguments
  cases variadic with
  | false =>
    cases spread with
    | false => exact hcount
    | true => rfl
  | true =>
    cases spread with
    | true =>
      dsimp only
      rw [hcount]
      split <;> rfl
    | false =>
      have helem : ((params.map ρ.type).getLast?.bind fun t => (s'.type t).sliceElem?) =
          (params.getLast?.bind fun t => (s.type t).sliceElem?).map ρ.type := by
        rw [getLast?_map]
        cases params.getLast? with
        | none => rfl
        | some t => simp [h.type]
      dsimp only
      rw [helem, ← map_dropLast, length_map, getD_map_type]
      split
      · rfl
      · simp [plan]

end

section

variable (h : c.Mirrored ρ c')
include h

variable {func : Expr}

lemma argumentCountReport_map {args : List Operand} :
    argumentCountReport c'.store e func (params.map ρ.type) variadic (args.map ρ.operand) expected =
      argumentCountReport c.store e func params variadic args expected := by
  have hhave : (args.map ρ.operand).map (·.type) = (args.map (·.type)).map (·.map ρ.type) := by simp
  have hwant : (params.map ρ.type).map some = (params.map some).map (·.map ρ.type) := by simp
  unfold argumentCountReport
  rw [hhave, hwant, h.shifted.summary h.grown h.ordered, h.shifted.summary h.grown h.ordered,
    getElem?_map, getLast?_map, length_map]
  cases args[expected]? with
  | some extra => rfl
  | none => cases args.getLast? <;> rfl

lemma mirrors_assignEach {context : String} :
    (assignEach context xs ts).Mirrors ρ (assignEach context (xs.map ρ.operand) (ts.map ρ.type)) c c'
      id := by
  induction xs generalizing c c' ts with
  | nil => exact .done h rfl
  | cons x xs ih =>
    cases ts with
    | nil => exact .done h rfl
    | cons t ts => exact (mirrors_assignTo h).discard.next fun _ hd => ih hd

lemma mirrors_arguments {args : List Operand} : (arguments e func exprs spread g args).Mirrors ρ
      (arguments e func exprs spread (ρ.signature g) (args.map ρ.operand)) c c' id := by
  simp only [arguments, mirrors_entities_bind, paramTypes_signature h.shifted, length_map,
    planArguments_map h.shifted, argumentCountReport_map h]
  dsimp only [signature]
  cases planArguments c.store (paramTypes c.store g) g.variadic spread exprs.length args.length with
  | each targets => exact mirrors_assignEach h
  | wrongCount expected => exact mirrors_emit h
  | spreadOfMany | spreadToNonVariadic => exact mirrors_report h rfl rfl

lemma callResult_operand :
    callResult c'.store (ρ.operand x) (ρ.type results) = ρ.operand (callResult c.store x results) := by
  unfold callResult
  rw [h.shifted.tupleVars]
  rcases c.store.tupleVars results with _ | ⟨v, _ | ⟨w, vs⟩⟩
  · simp [operand]
  · simp [operand, h.shifted.objectType]
  · simp [operand]

variable (hc : c.Closed false)
include hc

lemma mirrors_conversionCall (hargs : ∀ p ∈ args, Repeats ρ p.eval) :
    (conversionCall e x args spread).Mirrors ρ (conversionCall e (ρ.operand x) args spread) c c'
      ρ.operand := by
  rcases args with _ | ⟨arg, _ | ⟨arg', rest⟩⟩
  · simp only [conversionCall, mirrors_typeText_bind, operand_typeOrInvalid, h.typeText]
    exact mirrors_refuse h rfl
  · simp only [conversionCall, operand_typeOrInvalid]
    refine (mirrors_value h hc (hargs _ (by simp))).next fun y hd => ?_
    rw [operand_isInvalid]
    split
    · exact .done hd rfl
    · split
      · rw [mirrors_typeText_bind, hd.typeText]
        exact mirrors_refuse hd rfl
      · exact mirrors_conversion hd
  · simp only [conversionCall, operand_typeOrInvalid]
    refine (mirrors_useAll h hc hargs).next fun _ hd => ?_
    rw [mirrors_typeText_bind, hd.typeText]
    exact mirrors_refuse hd rfl

lemma mirrors_refuseCall {p : Problem} (hargs : ∀ p ∈ args, Repeats ρ p.eval) :
    (refuseCall p span x args).Mirrors ρ (refuseCall p span (ρ.operand x) args) c c' ρ.operand := by
  refine ((mirrors_report h rfl rfl).safe (safe_report hc)).bind fun _ d d' _ hd hclosed => ?_
  exact (mirrors_useAll hd hclosed.2.1 hargs).next fun _ hf => .done hf rfl

lemma mirrors_callFunction (hargs : ∀ p ∈ args, Repeats ρ p.eval) :
    (callFunction e func x args spread).Mirrors ρ (callFunction e func (ρ.operand x) args spread) c c'
      ρ.operand := by
  simp only [callFunction, mirrors_entities_bind, operand_typeOrInvalid,
    h.shifted.shape h.ordered, signature?_ty, h.describe]
  cases (c.store.shape x.typeOrInvalid).signature? with
  | none => exact mirrors_refuseCall h hc hargs
  | some g =>
    have hgeneric : (ρ.signature g).typeParams.isEmpty = g.typeParams.isEmpty := isEmpty_map
    simp only [map_some, hgeneric]
    split
    · exact mirrors_refuseCall h hc hargs
    · refine (mirrors_values h hc hargs).next fun r hd => ?_
      refine (mirrors_arguments hd).next fun _ hf => ?_
      rw [mirrors_entities_bind]
      exact .pure hf (callResult_operand hf) .intro

end

lemma mirrors_call
    (hfunc : Repeats ρ func.eval) (hargs : ∀ p ∈ args, Repeats ρ p.eval) (c c' : Checker)
    (h : c.Mirrored ρ c') (hc : c.Closed false) :
    (call e func args spread).Mirrors ρ (call e func args spread) c c' ρ.evaluated := by
  refine (mirrors_valueOrType h hc hfunc).bind fun x d d' _ hd hx => ?_
  rw [operand_mode]
  cases x.mode with
  | invalid => exact (mirrors_useAll hd hx.1 hargs).next fun _ hf => .done hf rfl
  | typeExpr => exact (mirrors_conversionCall hd hx.1 hargs).next fun y hf => .done hf rfl
  | _ => exact (mirrors_callFunction hd hx.1 hargs).next fun y hf => .done hf rfl

mutual

/-- The evaluation of an expression does the same from states that differ in their numbers. -/
theorem repeats_eval (e : Expr) : Repeats ρ e.eval := by
  refine ⟨safeEval_eval e e.collects_false, ?_⟩
  cases e with rw [Expr.eval]
  | ident n i => exact mirrors_observe (mirrors_asExpression fun c c' h _ => mirrors_name h)
  | lit n kind raw => exact mirrors_observe (mirrors_asExpression fun c c' h _ => mirrors_literal h)
  | funcLit n sig body =>
    exact mirrors_observe (mirrors_asExpression fun c c' h hc => mirrors_functionLiteral h hc)
  | paren n inner => exact mirrors_observe (repeats_eval inner).mirrors
  | selector n base sel =>
    exact mirrors_observe (mirrors_asExpression fun c c' h hc =>
      mirrors_select h hc (repeats_eval base))
  | index n base index =>
    exact mirrors_observe (mirrors_asExpression fun c c' h hc =>
      mirrors_indexInto h hc (repeats_eval base) (repeats_eval index))
  | call n func args spread =>
    exact mirrors_observe (mirrors_call (repeats_eval func) (repeats_pending args))
  | assert n base type =>
    exact mirrors_observe (mirrors_asExpression fun c c' h hc =>
      mirrors_assertType h hc (repeats_eval base))
  | unary n op operand =>
    exact mirrors_observe (mirrors_asExpression fun c c' h hc =>
      mirrors_unary h hc (repeats_eval operand))
  | receive n channel =>
    exact mirrors_observe (mirrors_asStatement fun c c' h hc =>
      mirrors_receive h hc (repeats_eval channel))

theorem repeats_pending (es : List Expr) : ∀ p ∈ pending es, Repeats ρ p.eval := by
  cases es with
  | nil => simp [pending]
  | cons e es =>
    simp only [pending, forall_mem_cons]
    exact ⟨repeats_eval e, repeats_pending es⟩

end

lemma mirrors_evalValue (h : c.Mirrored ρ c') (hc : c.Closed false) :
    e.evalValue.Mirrors ρ e.evalValue c c' ρ.operand fun y d => d.Closed false ∧ y.Within d.store :=
  mirrors_value h hc (repeats_eval e)

end Pass

end GoCheck
