import GoCheck.Proofs.Constants.Values
import GoCheck.Proofs.Course

/-!
# Constants in expressions

The evaluation of an expression touches only the records of the expression and its parts. Each form
of expression gives operands that agree with the records if its parts do and their numbers are
distinct. So all expressions do.
-/

namespace GoCheck

open List Operand Place Constant

variable {v : Constant} {span : Span} {func expr : Expr} {eval : Pass Evaluated}

/-- What a form of expression promises of its operand before it is recorded. -/
structure Operand.Formed (x : Operand) (e : Expr) (c : Checker) : Prop extends
    x.Proper c.store where
  agrees : x.isInvalid = false → x.type.isSome = true →
    x.Agrees c (e.carriers x.mode.isConstant).tail

lemma Expr.carriers_eq_cons (b : Bool) (e : Expr) : e.carriers b = e.id :: (e.carriers b).tail := by
  cases e <;> rfl

/-- As far as it is open, the record of an expression shows an operand. -/
structure Checker.Shows (c : Checker) (id : Nat) (x : Operand) : Prop where
  value : ∀ o, c.open? id = some o → o = x.mode.constant?
  closed : x.mode ≠ .noValue → ∀ t, x.type = some t → c.store.isUntyped t = false →
    c.open? id = none

namespace Pass

variable {c : Checker} {x : Operand} {e : Expr}

/-- An evaluation that touches only the records of its expression, with which its operand agrees. -/
def Faithful (e : Expr) (eval : Pass Evaluated) : Prop :=
  ∀ c, c.Fitting → eval.Fits (exprs e.ids) c fun r d => r.1.Kept e d

variable {id : Nat} {m : Pass Operand}

lemma fits_insert {m : Mode} (hc : c.Fitting) (hm : ∀ v, m = .constant v → c.store.Holds t v) :
    (onRecords (·.insert id ⟨m, t⟩)).Fits (exprs [id]) c fun _ d => d.store = c.store ∧
      d.open? id = if c.store.isUntyped t then some m.constant? else none := by
  have hfits := fits_onRecords (I := exprs [id]) (g := (·.insert id ⟨m, t⟩)) hc
    (fun j r hr => ?_) (fun j hj o ho => ?_)
  · refine hfits.mono fun _ d _ _ hd => ⟨hd.1, ?_⟩
    rw [Checker.open?, hd.1, hd.2, Records.open?, Table.find?_insert, if_pos rfl]
    rfl
  · rw [Table.find?_insert] at hr
    split at hr
    · cases hr
      exact .inr fun v hv => .inl (hm v hv)
    · exact .inl hr
  · have hne : j ≠ id := by simpa using hj
    rwa [Records.open?, Table.find?_insert, if_neg hne] at ho

/-- After the record, an expression is open only if the operand is untyped, and then with its
value. -/
lemma fits_record (hc : c.Fitting) (hx : x.Fits c.store) :
    (record id x).Fits (exprs [id]) c fun _ d =>
      x.isInvalid = false → x.type.isSome → d.Shows id x := by
  have henter : ∀ {t}, (∀ v, x.mode = .constant v → c.store.Holds t v) →
      (x.mode ≠ .noValue → x.type = some t) →
      (onRecords (·.insert id ⟨x.mode, t⟩)).Fits (exprs [id]) c fun _ d =>
        x.isInvalid = false → x.type.isSome → d.Shows id x := by
    intro t hholds htype
    refine (fits_insert hc hholds).mono fun _ d _ _ hd _ _ => ⟨fun o ho => ?_, ?_⟩
    · rw [hd.2] at ho
      split at ho
      · exact (Option.some.inj ho).symm
      · cases ho
    · intro hmode u hu huntyped
      cases (htype hmode).symm.trans hu
      rw [hd.2, if_neg (by simp [← hd.1, huntyped])]
  unfold record
  split
  · rename_i hmode
    refine .of_isQuiet .recordFailed hc fun _ hvalid => ?_
    simp [isInvalid, hmode] at hvalid
  · rename_i hmode
    refine henter (fun v hv => ?_) fun hne => absurd hmode hne
    rw [hmode] at hv
    cases hv
  · rename_i t htype _ _
    refine henter (fun v hv => ?_) fun _ => htype
    obtain ⟨-, u, hu, hholds⟩ := hx v hv
    cases htype.symm.trans hu
    exact hholds
  · rename_i htype _ _
    refine .pure hc fun _ hsome => ?_
    rw [htype] at hsome
    cases hsome

/-- The record makes the operand of a form that of its expression. -/
lemma fits_conclude (hc : c.Fitting) (hr : r.1.Formed e c) :
    (conclude e r).Fits (exprs e.ids) c fun r d => r.1.Kept e d := by
  have hsub : exprs [e.id] ⊆ exprs e.ids :=
    exprs_subset (by simpa using e.id_mem_ids)
  have hx : ({ r.1 with expr := some e } : Operand).Fits c.store := hr.fits
  refine (fits_record hc hx).before hsub fun _ d hd hk hfit hshows => ?_
  have hkept : ({ r.1 with expr := some e } : Operand).Kept e d := by
    refine ⟨⟨hr.fits.extends hd.extends, hr.pair⟩, rfl, fun hvalid htype id hid o ho => ?_,
      fun hvalid hmode t ht hu => ?_⟩
    · by_cases hself : id = e.id
      · exact (hshows hvalid htype).value o (hself ▸ ho)
      · have hold := hk.record id (by simpa using hself) o ho
        rw [Expr.carriers_eq_cons] at hid
        exact hr.agrees hvalid htype id ((mem_cons.mp hid).resolve_left hself) o hold
    · have htype : r.1.type.isSome := by simp [show r.1.type = some t from ht]
      exact (hshows hvalid htype).closed hmode t ht hu
  refine .quietly .unindentTrace hfit fun f _ hf hqf hfitf => ?_
  refine .quietly .traceLine hfitf fun g _ hg hqg hfitg => .pure hfitg ?_
  exact (hkept.keeps_empty hf (hqf.keeps hf ∅)).keeps_empty hg (hqg.keeps hg ∅)

lemma Faithful.observe (h : ∀ c, c.Fitting → eval.Fits (exprs e.ids) c fun r d => r.1.Formed e d) :
    Faithful e (Pass.observe e eval) := by
  intro c hc
  refine .quietly .traceLine hc fun d _ _ _ hd => ?_
  refine .quietly .indentTrace hd fun f _ _ _ hf => ?_
  exact (h f hf).bind fun r g _ _ hg hr => fits_conclude hg hr

lemma formed_of_proper (he : ∀ b, e.carriers b = [e.id]) (hx : x.Proper c.store) :
    x.Formed e c where
  toProper := hx
  agrees _ _ id hid := by
    rw [he] at hid
    cases hid

lemma fits_asExpression (h : m.Fits I c Q) : (asExpression m).Fits I c fun r d => Q r.1 d :=
  h.bind fun _ _ _ _ hd hx => .pure hd hx

lemma fits_asStatement (h : m.Fits I c Q) : (asStatement m).Fits I c fun r d => Q r.1 d :=
  h.bind fun _ _ _ _ hd hx => .pure hd hx

lemma fits_exclude (hc : c.Fitting) :
    (exclude x allowType).Fits I c fun y _ => y = x ∧ x.mode ≠ .noValue ∨ y = x.invalidated := by
  simp only [exclude, fits_entities_bind]
  cases hmode : x.mode <;> cases allowType <;> first
    | exact .pure hc (.inl ⟨rfl, by simp⟩)
    | exact .of_isQuiet (.refuse rfl) hc fun _ => .inr rfl

section

variable {eval : Pass Evaluated} (h : Faithful e eval) (hc : c.Fitting)
include h hc

lemma fits_excluded : (eval >>= fun r => exclude r.1 allowType).Fits (exprs e.ids) c fun x d =>
      x.Kept e d ∧ (x.isInvalid = false → x.mode ≠ .noValue) := by
  refine (h c hc).bind fun r d _ _ hd hr => ?_
  refine ((fits_exclude hd).mono fun x f hf hk hx => ?_).widen (Set.empty_subset _)
  rcases hx with ⟨rfl, hmode⟩ | rfl
  · exact ⟨hr.keeps_empty hf hk, fun _ => hmode⟩
  · exact ⟨hr.invalidated.keeps_empty hf hk, fun hvalid => by cases hvalid⟩

lemma fits_single (allowType : Bool) :
    ((eval >>= fun r => exclude r.1 allowType) >>= singleValue).Fits (exprs e.ids) c
      fun x d => x.Kept e d := by
  refine (fits_excluded h hc).bind fun x d _ _ hd hx => ?_
  refine ((fits_singleValue hd).mono fun y f hf hk hy => ?_).widen (Set.empty_subset _)
  rcases hy with rfl | rfl
  · exact hx.1.keeps_empty hf hk
  · exact hx.1.invalidated.keeps_empty hf hk

lemma fits_value : (value eval).Fits (exprs e.ids) c fun x d => x.Kept e d := by
  have hsingle := fits_single h hc false
  rwa [bind_assoc] at hsingle

lemma fits_valueOrType : (valueOrType eval).Fits (exprs e.ids) c fun x d => x.Kept e d := by
  have hsingle := fits_single h hc true
  rwa [bind_assoc] at hsingle

end

lemma isConstant_of_secondType? (h : secondType? x = some t) :
    x.isInvalid = false ∧ x.mode.constant? = none := by
  unfold secondType? at h
  unfold isInvalid
  cases hm : x.mode <;> simp_all [Mode.constant?]

/-- The values of an operand stand for its expression, whose record is closed or no constant. -/
lemma fits_allValues (pair : Bool) (hp : Faithful p.expr p.eval) (hc : c.Fitting) :
    (allValues p pair).Fits (exprs p.expr.ids) c fun r d => ∀ x ∈ r.1, x.Usable p.expr d := by
  unfold allValues
  rw [← bind_assoc]
  refine (fits_excluded hp hc).bind fun x d _ _ hd hx => .entities ?_
  obtain ⟨hkept, hmode⟩ := hx
  dsimp only
  split
  · rename_i vars hvars
    have hvalid : x.isInvalid = false := by
      cases hinvalid : x.isInvalid with
      | false => rfl
      | true => simp [hinvalid] at hvars
    rw [hvalid, if_neg (by simp)] at hvars
    obtain ⟨t, ht, htuple⟩ := Option.bind_eq_some_iff.mp hvars
    have hclosed := hkept.closed hvalid (hmode hvalid) t ht (Store.isUntyped_of_tuple? htuple)
    refine .pure hd fun y hy => ?_
    obtain ⟨v, -, rfl⟩ := mem_map.mp hy
    exact ⟨rfl, fits_of_isConstant_eq_false rfl, fun _ _ => .inl hclosed⟩
  · rename_i u _ hu
    have hsecond : secondType? x = some u := by
      cases pair with
      | true => exact hu
      | false => cases hu
    obtain ⟨hvalid, hplain⟩ := isConstant_of_secondType? hsecond
    have hagrees := hkept.agrees hvalid (hkept.pair (by simp [hsecond]))
    refine .pure hd fun y hy => ?_
    rcases mem_cons.mp hy with rfl | hy
    · exact hkept.usable
    · obtain rfl := mem_singleton.mp hy
      refine ⟨rfl, fits_of_isConstant_eq_false rfl, fun _ _ => .inr ?_⟩
      unfold Agrees Mode.isConstant at hagrees
      rw [hplain] at hagrees
      exact hagrees
  · refine .pure hd fun y hy => ?_
    obtain rfl := mem_singleton.mp hy
    exact hkept.usable

def pendingIds (ps : List Pending) : List Nat := ps.flatMap (·.expr.ids)

section

variable {ps : List Pending} (h : ∀ p ∈ ps, Faithful p.expr p.eval)
include h

lemma fits_useAll (hc : c.Fitting) :
    (useAll ps).Fits (exprs (pendingIds ps)) c := by
  refine fits_forM hc fun p hp d _ _ hd => ?_
  split
  · exact .pure hd ⟨⟩
  · refine (h p hp d hd).discard.widen (exprs_subset ?_)
    exact fun id hid => mem_flatMap.mpr ⟨p, hp, hid⟩

/-- Each of several values stands for its own expression. -/
lemma fits_mapM_value (hids : (pendingIds ps).Nodup) (hc : c.Fitting) :
    (ps.mapM fun p => value p.eval).Fits (exprs (pendingIds ps)) c fun xs d =>
      ∀ x ∈ xs, ∃ p ∈ ps, x.Usable p.expr d := by
  induction ps generalizing c with
  | nil => exact .pure hc (by simp)
  | cons p ps ih =>
    rw [mapM_cons]
    obtain ⟨-, hrest, hdisjoint⟩ := nodup_append'.mp hids
    have hp := h p mem_cons_self
    have hps : ∀ q ∈ ps, Faithful q.expr q.eval := fun q hq => h q (mem_cons_of_mem _ hq)
    refine (fits_value hp hc).before (exprs_subset (subset_append_left ..))
      fun x d _ _ hd hx => ?_
    refine (ih hps hrest hd).before (exprs_subset (subset_append_right ..))
      fun xs f hf hk hfit hxs => .pure hfit fun y hy => ?_
    rcases mem_cons.mp hy with rfl | hy
    · refine ⟨p, mem_cons_self, hx.usable.keeps hf hk fun id hid hmem => ?_⟩
      exact hdisjoint hid (expr_mem_exprs.mp hmem)
    · obtain ⟨q, hq, husable⟩ := hxs y hy
      exact ⟨q, mem_cons_of_mem _ hq, husable⟩

lemma fits_values (hids : (pendingIds ps).Nodup) (hc : c.Fitting) :
    (values ps pair).Fits (exprs (pendingIds ps)) c fun r d =>
      ∀ x ∈ r.1, x.UsableFrom (pendingIds ps) d := by
  unfold values
  split
  · rename_i p
    have hall := fits_allValues pair (h p (by simp)) hc
    refine (hall.widen (exprs_subset (by simp [pendingIds]))).mono fun r d _ _ hr x hx => ?_
    exact ⟨p.expr, hr x hx, by simp [pendingIds]⟩
  · refine (fits_mapM_value h hids hc).bind fun xs d _ _ hd hxs => .pure hd fun x hx => ?_
    obtain ⟨q, hq, husable⟩ := hxs x hx
    exact ⟨q.expr, husable, fun id hid => mem_flatMap.mpr ⟨q, hq, hid⟩⟩

end

end Pass

/-! ## Forms of expressions -/

variable {e : Expr} {eval : Pass Evaluated} {ps : List Pending} {spread : Bool}

lemma Object.mode_eq_constant {o : Object} :
    o.mode = .constant v ↔ o.value? = some v := by
  cases h : o.entity <;> simp [Object.mode, Object.value?, h]

namespace Pass

variable {c : Checker} {x : Operand}

lemma isRegular_of_isUnknown (h : v.isUnknown) : v.isRegular := by
  cases v <;> first | rfl | cases h

variable {s : Store}

lemma proper_of_object (hs : s.Orderly) {o : ObjectId} (ht : (s.object o).type = some t) :
    ({ mode := (s.object o).mode, type := (s.object o).type } : Operand).Proper s := by
  refine ⟨fun v hv => ?_, fun hpair => by simp [ht]⟩
  cases hknown : v.isUnknown with
  | true => exact ⟨isRegular_of_isUnknown hknown, t, ht, .inl hknown⟩
  | false => exact hs.const o v (Object.mode_eq_constant.mp hv) hknown

lemma proper_failed : failed.Proper s :=
  proper_of_isConstant_eq_false rfl rfl

lemma fits_name (hc : c.Fitting) : (name i).Fits I c fun x d => x.Proper d.store := by
  unfold name
  split
  · exact .of_isQuiet (.refuse rfl) hc fun _ => proper_failed
  · refine .quietly .lookup hc fun d _ _ _ hd => ?_
    cases ((lookup i.text).1 c).1 with
    | none => exact .of_isQuiet (.refuse rfl) hd fun _ => proper_failed
    | some o =>
      refine .quietly .recordUse hd fun f _ _ _ hf => .entities ?_
      refine .quietly .noteUse hf fun g _ hg _ hfit => ?_
      split
      · exact .pure hfit proper_failed
      · rename_i hvalid
        obtain ⟨t, ht⟩ : ∃ t, (f.store.object o).type = some t := by
          cases ht : (f.store.object o).type with
          | none => simp [ht] at hvalid
          | some t => exact ⟨t, rfl⟩
        have hproper := proper_of_object hf.orderly ht
        exact .pure hfit ⟨hproper.fits.extends hg.extends, hproper.pair⟩

lemma literalValue_regular (kind : LitKind) (raw : String) :
    (literalValue kind raw).1.isRegular ∧ (literalValue kind raw).2.isUntyped := by
  cases kind with
  | int => exact ⟨stable_isRegular.intChars _, rfl⟩
  | float => exact ⟨stable_isRegular.floatChars? _, rfl⟩
  | imaginary => exact ⟨stable_isRegular.imaginary _, rfl⟩
  | rune => exact ⟨stable_isRegular.rune _, rfl⟩
  | string => exact ⟨stable_isRegular.string _, rfl⟩

lemma fits_literal {kind : LitKind} (hc : c.Fitting) :
    (literal kind raw span).Fits I c fun x d => x.Proper d.store := by
  obtain ⟨hregular, huntyped⟩ := literalValue_regular kind (raw.getD "")
  refine .quietly .noteLiteral hc fun d _ _ _ hd => ?_
  dsimp only
  split
  · exact .of_isQuiet (.refuse rfl) hd fun _ => proper_failed
  · refine .pure hd ⟨?_, fun _ => rfl⟩
    rintro _ ⟨⟩
    refine ⟨hregular, _, rfl, .inr (.inl ?_)⟩
    exact Store.isUntyped_iff.mpr ⟨_, hd.orderly.basic _, huntyped⟩

lemma fits_functionLiteral (hc : c.Fitting) (hids : (blockIds body).Nodup) :
    (functionLiteral sig body).Fits I c fun x d => x.Proper d.store := by
  refine .quietly (.resolveSig sig) hc fun d _ _ _ hd => ?_
  refine (fits_defer hd hids).bind fun _ f _ _ hf _ => .pure hf ?_
  exact proper_of_isConstant_eq_false rfl rfl

section

variable (h : Faithful e eval) (hc : c.Fitting)
include h hc

lemma fits_select : (select eval sel).Fits (exprs e.ids) c fun x d => x.Proper d.store := by
  refine (fits_value h hc).bind fun x d _ _ hd _ => ?_
  split
  · exact .pure hd (proper_invalidated x)
  · exact .pure hd (proper_invalidated x)
  · refine .entities ?_
    split
    · refine .of_isQuiet (.bind .recordUse .pure) hd fun _ => ?_
      dsimp only
      split <;> exact proper_of_isConstant_eq_false rfl rfl
    · exact .of_isQuiet (.bind .reportSelection .pure) hd
        fun _ => proper_invalidated x

lemma fits_assertType {type : TypeExpr} :
    (assertType expr eval type).Fits (exprs e.ids) c fun x d => x.Proper d.store := by
  refine (fits_value h hc).bind fun x d _ _ hd _ => ?_
  have hrefuse {d : Checker} {m : Pass Unit} (hd : d.Fitting) (hm : m.IsQuiet fun _ => True) :
      (m >>= fun _ => pure x.invalidated).Fits (exprs e.ids) d
        fun x f => x.Proper f.store :=
    .of_isQuiet (hm.bind .pure) hd fun _ => proper_invalidated x
  split
  · exact .pure hd (proper_invalidated x)
  · exact .pure hd (proper_invalidated x)
  · refine .entities ?_
    split
    · exact hrefuse hd (.report rfl)
    split
    · exact hrefuse hd (.report rfl)
    refine .quietly (.resolve type) hd fun f _ _ _ hf => .entities ?_
    split
    · exact .pure hf (proper_invalidated x)
    split
    · exact .quietly .logEvent hf fun g _ _ _ hg => hrefuse hg (.report rfl)
    · exact .pure hf ⟨fits_of_isConstant_eq_false rfl, fun _ => rfl⟩

lemma fits_receive : (receive eval).Fits (exprs e.ids) c fun x d => x.Proper d.store := by
  refine (fits_value h hc).bind fun x d _ _ hd hx => ?_
  have hrefuse p (hp : p.fault != .duplicateDecl) :
      (report p x.span >>= fun _ => pure x.invalidated).Fits (exprs e.ids) d
        fun x f => x.Proper f.store :=
    .of_isQuiet (.bind (.report hp) .pure) hd
      fun _ => proper_invalidated x
  split
  · exact .pure hd hx.toProper
  · refine .entities ?_
    split
    · exact hrefuse _ rfl
    · exact .pure hd ⟨fits_of_isConstant_eq_false rfl, fun _ => rfl⟩
    · exact hrefuse _ rfl

lemma fits_indirection : (indirection eval).Fits (exprs e.ids) c fun x d => x.Proper d.store := by
  refine (fits_valueOrType h hc).bind fun x d _ _ hd hx => ?_
  split
  · exact .pure hd hx.toProper
  · rename_i hmode
    refine .quietly .newType hd fun f _ _ _ hf => .pure hf ?_
    exact proper_of_isConstant_eq_false (by simp only [hmode]; rfl)
      (by simp only [secondType?, hmode])
  · refine .of_isQuiet .pointee hd fun _ => ?_
    unfold pointee
    rw [entities_bind_run]
    split <;> exact proper_of_isConstant_eq_false rfl rfl

end

variable {operand : Expr} {length : Option Nat}

/-- The operand of a sign or negation lends its value to the result unless that is a constant. -/
lemma fits_arithmetic (hc : c.Fitting) (hx : x.Kept operand c) (hvalid : x.isInvalid = false)
    (ht : x.type = some t) (hop : op ≠ .address ∧ op ≠ .indirect) :
    (arithmetic (.unary n op operand) op x t).Fits I c fun y d =>
      y.Formed (.unary n op operand) d := by
  have hconstant {y d} (hy : y.Fits d.store) (hmode : y.mode.isConstant)
      (hpair : secondType? y = none) : y.Formed (.unary n op operand) d := by
    refine ⟨⟨hy, fun h => by rw [hpair] at h; cases h⟩, fun _ _ id hid => ?_⟩
    rw [hmode, Expr.carriers] at hid
    cases hid
  have hinvalid {d} : x.invalidated.Formed (.unary n op operand) d :=
    ⟨proper_invalidated x, fun hvalid => by cases hvalid⟩
  refine .entities ?_
  split
  · exact .of_isQuiet (.refuse rfl) hc fun _ => hinvalid
  · cases hmode : x.mode with
    | constant v =>
      obtain ⟨hregular, u, hu, hholds⟩ := hx.fits v hmode
      cases ht.symm.trans hu
      have hfolded := stable_isRegular.foldUnary op hregular
      dsimp only
      split
      · exact .pure hc (hconstant hx.fits (by rw [hmode]; rfl) (by simp [secondType?, hmode]))
      split
      · rename_i huntyped
        refine .pure hc (hconstant ?_ rfl rfl)
        rintro _ ⟨⟩
        exact ⟨hfolded, t, ht, .inr (.inl huntyped)⟩
      · refine .entities ?_
        cases hr : c.store.represented
            { x with mode := .constant (v.foldUnary op), expr := some (.unary n op operand) }
            (c.store.underlying t) with
        | ok w =>
          obtain ⟨v', k, hv', hk, hw⟩ := Store.represented_ok hr
          cases hv'
          obtain ⟨hregular', hfits⟩ := fits_held hfolded hw
          refine .pure hc (hconstant ?_ rfl rfl)
          rintro _ ⟨⟩
          exact ⟨hregular', t, ht, .inr (.inr ⟨k, hk, hfits⟩)⟩
        | error k =>
          have hfault := (Store.represented_error hr).2
          refine .of_isQuiet (.bind (.report hfault) fun _ => .pure _) hc fun _ => ?_
          exact ⟨proper_invalidated _, fun hvalid => by cases hvalid⟩
    | _ =>
      -- The result is a value, and so is the operand as far as records show.
      refine .pure hc ⟨proper_of_isConstant_eq_false rfl rfl, fun _ _ => ?_⟩
      have hagrees := hx.agrees hvalid (by simp [ht])
      rw [hmode] at hagrees
      unfold Agrees at hagrees ⊢
      rw [hmode] at hagrees
      simpa [Expr.carriers, withMode, Mode.isConstant, Mode.constant?, hop.1, hop.2] using hagrees

lemma fits_unary (h : Faithful operand eval) (hc : c.Fitting) :
    (unary (.unary n op operand) op eval).Fits (exprs operand.ids) c fun x d =>
      x.Formed (.unary n op operand) d := by
  have hformed {x : Operand} {d : Checker} (hop : op = .address ∨ op = .indirect)
      (hx : x.Proper d.store) : x.Formed (.unary n op operand) d := by
    refine ⟨hx, fun _ _ id hid => ?_⟩
    rcases hop with rfl | rfl <;> simp [Expr.carriers] at hid
  unfold unary
  split
  · rename_i hop
    exact (fits_indirection h hc).mono fun x d _ _ hx => hformed (.inr hop) hx
  · rename_i hop
    refine (fits_value h hc).bind fun x d _ _ hd hx => ?_
    split
    · exact .pure hd ⟨proper_invalidated x, fun hvalid => by cases hvalid⟩
    · exact .pure hd ⟨proper_invalidated x, fun hvalid => by cases hvalid⟩
    · rename_i t hvalid ht
      split
      · rename_i haddress
        refine .of_isQuiet .addressOf hd fun _ => hformed (.inl haddress) ?_
        unfold addressOf
        split <;> exact proper_of_isConstant_eq_false rfl rfl
      · rename_i haddress
        exact fits_arithmetic hd hx hvalid ht ⟨haddress, hop⟩

lemma indexing_list {m : Mode} {elem : TypeId} (h : indexing s x = .list m elem length) :
    m = .value ∨ m = .variable := by
  unfold indexing at h
  repeat' split at h
  all_goals first
    | (cases h; done)
    | (obtain ⟨rfl, -, -⟩ := Indexing.list.inj h
       first | exact .inl rfl | exact .inr rfl)

lemma fits_checkIndex (h : Faithful e eval) (hc : c.Fitting) :
    (checkIndex eval length).Fits (exprs e.ids) c := by
  refine (fits_value h hc).bind fun x d _ _ hd hx => ?_
  have hplain := Store.isPlainInterface_eq_false_of_shape (hd.orderly.shape_basic .int)
  refine (fits_convertUntyped hd hx.usable hplain).before (Set.empty_subset _) fun y f _ _ hf _ => ?_
  split
  · exact .pure hf ⟨⟩
  · refine .entities ?_
    cases hp : indexProblem? f.store y length with
    | none => exact .pure hf ⟨⟩
    | some p =>
      have hfault : p.fault != .duplicateDecl := by rw [indexProblem?_fault hp]; rfl
      exact .of_isQuiet (.report hfault) hf fun _ => ⟨⟩

lemma fits_indexInto (index : Pending) (hbase : Faithful e base)
    (hindex : Faithful index.expr index.eval) (hc : c.Fitting) :
    (indexInto base index).Fits (exprs (e.ids ++ index.expr.ids)) c
      fun x d => x.Proper d.store := by
  have hsub : exprs index.expr.ids ⊆ exprs (e.ids ++ index.expr.ids) :=
    exprs_subset (subset_append_right ..)
  have huse {d} (hd : d.Fitting) :
      (useAll [index]).Fits (exprs (e.ids ++ index.expr.ids)) d := by
    have hids : pendingIds [index] ⊆ index.expr.ids := by simp [pendingIds]
    exact (fits_useAll (by simpa using hindex) hd).widen
      (Set.Subset.trans (exprs_subset hids) hsub)
  refine (fits_value hbase hc).before (exprs_subset (subset_append_left ..))
    fun x d _ _ hd hx => ?_
  split
  · exact (huse hd).bind fun _ f hf _ hfit _ => .pure hfit ⟨hx.fits.extends hf.extends, hx.pair⟩
  · refine .entities ?_
    split
    · rename_i m elem length hlist
      refine ((fits_checkIndex hindex hd).widen hsub).bind fun _ f _ _ hf _ => .pure hf ?_
      rcases indexing_list hlist with rfl | rfl <;>
        exact proper_of_isConstant_eq_false rfl rfl
    · refine ((fits_value hindex hd).widen hsub).bind fun y f _ _ hf hy => ?_
      refine ((fits_assignment hf hy.usable).discard.widen (Set.empty_subset _)).bind
        fun _ g _ _ hg _ => .pure hg ?_
      exact ⟨fits_of_isConstant_eq_false rfl, fun _ => rfl⟩
    · refine .quietly (.report rfl) hd fun f _ _ _ hf => ?_
      exact (huse hf).bind fun _ g _ _ hg _ => .pure hg (proper_invalidated x)

/-- Operands are assigned one by one, and no assignment affects the others. -/
lemma fits_assignEach (hc : c.Fitting)
    (hxs : ∀ x ∈ xs, x.UsableFrom ids c) : (assignEach context xs ts).Fits ∅ c := by
  induction xs generalizing ts c with
  | nil => exact .pure hc ⟨⟩
  | cons x xs ih =>
    cases ts with
    | nil => exact .pure hc ⟨⟩
    | cons t ts =>
      obtain ⟨e, hx, -⟩ := hxs x mem_cons_self
      refine (fits_assignment hc hx).discard.bind fun _ d hd hk hfit _ => ih hfit fun y hy => ?_
      exact (hxs y (mem_cons_of_mem _ hy)).keeps hd hk fun _ _ => Set.notMem_empty _

lemma fits_arguments (hc : c.Fitting) (hxs : ∀ x ∈ xs, x.UsableFrom ids c) :
    (arguments e func ps spread sig xs).Fits ∅ c := by
  refine .entities ?_
  dsimp only
  split
  · exact fits_assignEach hc hxs
  · exact .of_isQuiet (.emit (Problem.isRedeclaration_report .dummy rfl)) hc fun _ => ⟨⟩
  · exact .of_isQuiet (.report rfl) hc fun _ => ⟨⟩
  · exact .of_isQuiet (.report rfl) hc fun _ => ⟨⟩

section

variable (h : ∀ p ∈ ps, Faithful p.expr p.eval) (hc : c.Fitting)
include h hc

lemma fits_refuseCall (hp : p.fault != .duplicateDecl) :
    (refuseCall p span x ps).Fits (exprs (pendingIds ps)) c fun y d => y.Proper d.store := by
  refine .quietly (.report hp) hc fun d _ _ _ hd => ?_
  exact (fits_useAll h hd).bind fun _ f _ _ hf _ => .pure hf (proper_invalidated x)

lemma fits_conversionCall : (conversionCall e x ps spread).Fits (exprs (pendingIds ps)) c
      fun y d => y.Proper d.store := by
  unfold conversionCall
  split
  · refine .of_isQuiet (.bind .typeText fun _ => .refuse rfl) hc fun _ => ?_
    exact proper_invalidated x
  · rename_i arg
    have hsub : exprs arg.expr.ids ⊆ exprs (pendingIds [arg]) :=
      exprs_subset (by simp [pendingIds])
    refine ((fits_value (h arg (by simp)) hc).widen hsub).bind fun y d _ _ hd hy => ?_
    split
    · exact .pure hd hy.toProper
    · rename_i hvalid
      split
      · exact .of_isQuiet (.bind .typeText fun _ => .refuse rfl) hd
          fun _ => proper_invalidated y
      · have hconv := fits_conversion (t := x.typeOrInvalid) hd hy.usable (by simpa using hvalid)
        refine (hconv.widen (Set.empty_subset _)).mono fun z f _ _ hz => ⟨hz.1, fun hpair => ?_⟩
        rw [hz.2] at hpair
        cases hpair
  · refine (fits_useAll h hc).bind fun _ d _ _ hd _ => ?_
    exact .of_isQuiet (.bind .typeText fun _ => .refuse rfl) hd
      fun _ => proper_invalidated x

lemma fits_callFunction (hids : (pendingIds ps).Nodup) :
    (callFunction e func x ps spread).Fits (exprs (pendingIds ps)) c
      fun y d => y.Proper d.store := by
  refine .entities ?_
  split
  · exact fits_refuseCall h hc rfl
  · split
    · exact fits_refuseCall h hc rfl
    · refine (fits_values h hids hc).bind fun r d _ _ hd hr => ?_
      refine ((fits_arguments hd hr).widen (Set.empty_subset _)).bind fun _ f _ _ hf _ => ?_
      refine .entities (.pure hf ?_)
      unfold callResult
      split <;> exact proper_of_isConstant_eq_false rfl rfl

lemma fits_call (func : Pending) (hfunc : Faithful func.expr func.eval)
    (hids : (pendingIds ps).Nodup) :
    (call e func ps spread).Fits (exprs (func.expr.ids ++ pendingIds ps)) c
      fun r d => r.1.Proper d.store := by
  have hsub : exprs (pendingIds ps) ⊆ exprs (func.expr.ids ++ pendingIds ps) :=
    exprs_subset (subset_append_right ..)
  refine (fits_valueOrType hfunc hc).before (exprs_subset (subset_append_left ..))
    fun x d _ _ hd hx => ?_
  split
  · refine ((fits_useAll h hd).widen hsub).bind fun _ f hf _ hfit _ => .pure hfit ?_
    exact ⟨hx.fits.extends hf.extends, hx.pair⟩
  · refine ((fits_conversionCall h hd).widen hsub).bind fun y f _ _ hf hy => .pure hf hy
  · refine ((fits_callFunction h hd hids).widen hsub).bind fun y f _ _ hf hy => .pure hf hy

end

lemma pendingIds_pending (es : List Expr) : pendingIds (pending es) = exprsIds es := by
  induction es with
  | nil => rfl
  | cons e es ih => simp [pending, pendingIds, exprsIds, ← ih]

/-- A form whose parts have other numbers and do not lend it their value. -/
lemma Faithful.observe_of_proper (he : ∀ b, e.carriers b = [e.id]) (hids : ids ⊆ e.ids)
    (h : ∀ c, c.Fitting → eval.Fits (exprs ids) c fun r d => r.1.Proper d.store) :
    Faithful e (Pass.observe e eval) := by
  refine .observe fun c hc => ((h c hc).widen (exprs_subset hids)).mono fun r d _ _ hr => ?_
  exact formed_of_proper he hr

mutual

/-- The operand of an expression agrees with what is recorded about it. -/
theorem faithful_eval (e : Expr) (hids : e.ids.Nodup) : Faithful e e.eval := by
  cases e with simp only [Expr.eval]
  | ident n i =>
    exact .observe_of_proper (fun _ => rfl) (nil_subset _) fun c hc =>
      fits_asExpression (fits_name hc)
  | lit n kind raw =>
    exact .observe_of_proper (fun _ => rfl) (nil_subset _) fun c hc =>
      fits_asExpression (fits_literal hc)
  | funcLit n sig body =>
    refine .observe_of_proper (fun _ => rfl) (nil_subset _) fun c hc => ?_
    exact fits_asExpression (fits_functionLiteral hc (nodup_cons.mp hids).2)
  | paren n inner =>
    -- here, and for unary operators, the part passes on its value
    have hinner := faithful_eval inner (nodup_cons.mp hids).2
    refine .observe fun c hc => ?_
    refine ((hinner c hc).widen (exprs_subset (subset_cons_self ..))).mono
      fun r d _ _ hr => ?_
    exact ⟨hr.toProper, hr.agrees⟩
  | selector n base sel =>
    have hbase := faithful_eval base (nodup_cons.mp hids).2
    exact .observe_of_proper (fun _ => rfl) (subset_cons_self ..) fun c hc =>
      fits_asExpression (fits_select hbase hc)
  | index n base index =>
    obtain ⟨hbaseIds, hindexIds, -⟩ := nodup_append'.mp (nodup_cons.mp hids).2
    have hbase := faithful_eval base hbaseIds
    have hindex := faithful_eval index hindexIds
    exact .observe_of_proper (fun _ => rfl) (subset_cons_self ..) fun c hc =>
      fits_asExpression (fits_indexInto ⟨index, index.eval⟩ hbase hindex hc)
  | call n func args spread =>
    obtain ⟨hfuncIds, hargsIds, -⟩ := nodup_append'.mp (nodup_cons.mp hids).2
    have hfunc := faithful_eval func hfuncIds
    have hargs := faithful_pending args hargsIds
    have hsub : func.ids ++ pendingIds (pending args) ⊆ (Expr.call n func args spread).ids := by
      rw [pendingIds_pending]
      exact subset_cons_self ..
    refine .observe_of_proper (fun _ => rfl) hsub fun c hc => ?_
    exact fits_call hargs hc ⟨func, func.eval⟩ hfunc ((pendingIds_pending args).symm ▸ hargsIds)
  | assert n base type =>
    have hbase := faithful_eval base (nodup_cons.mp hids).2
    exact .observe_of_proper (fun _ => rfl) (subset_cons_self ..) fun c hc =>
      fits_asExpression (fits_assertType hbase hc)
  | unary n op operand =>
    have hoperand := faithful_eval operand (nodup_cons.mp hids).2
    refine .observe fun c hc => ?_
    exact fits_asExpression ((fits_unary hoperand hc).widen
      (exprs_subset (subset_cons_self ..)))
  | receive n channel =>
    have hchannel := faithful_eval channel (nodup_cons.mp hids).2
    exact .observe_of_proper (fun _ => rfl) (subset_cons_self ..) fun c hc =>
      fits_asStatement (fits_receive hchannel hc)

theorem faithful_pending (es : List Expr) (hids : (exprsIds es).Nodup) :
    ∀ p ∈ pending es, Faithful p.expr p.eval := by
  cases es with
  | nil => simp [pending]
  | cons e es =>
    obtain ⟨hfirst, hrest, -⟩ := nodup_append'.mp hids
    have he := faithful_eval e hfirst
    have hes := faithful_pending es hrest
    intro p hp
    simp only [pending] at hp
    rcases mem_cons.mp hp with rfl | hp
    · exact he
    · exact hes p hp

end

end Pass

end GoCheck
