import GoCheck.Proofs.Regular.Statements

/-!
# Wrong counts

Where variables are initialized and targets are assigned to, a wrong number of values is reported
only if all of them could be evaluated. A wrong number of arguments is reported all the same, and
then none of them is checked.
-/

namespace GoCheck

open Pass List Checker

variable {α : Type} {m : Pass α} {E : Expr → Prop} {c : Checker} {e : Expr} {d : Diagnostic}
  {p : Problem} {xs : List Operand} {rhs : List Expr} {span : Span} {n : Nat}

namespace Pass

variable {f : α → Pass β}

/-- A pass whose reports of wrong counts come from evaluations of the expressions `E` on its way. -/
def CountsIn (E : Expr → Prop) (m : Pass α) : Prop :=
  ∀ c, ∀ d ∈ m.emitted c, d.isCount = true → ∃ e, E e ∧ ∃ c', c.Steps c' ∧ d ∈ e.eval.emitted c'

lemma CountsIn.of_sink_eq (h : ∀ c, (m.1 c).2.sink = c.sink) : m.CountsIn E := by
  intro c d hd
  rw [emitted_eq_nil (h c)] at hd
  cases hd

lemma CountsIn.pure (a : α) : (pure a : Pass α).CountsIn E := .of_sink_eq fun _ => rfl

lemma CountsIn.bind (hm : m.CountsIn E) (hf : ∀ a, (f a).CountsIn E) : (m >>= f).CountsIn E := by
  intro c d hd hcount
  rw [emitted_bind, mem_append] at hd
  rcases hd with hd | hd
  · exact hm c d hd hcount
  · obtain ⟨e, he, c', hsteps, hd'⟩ := hf _ _ d hd hcount
    exact ⟨e, he, c', (m.2 c).trans hsteps, hd'⟩

lemma CountsIn.ite {p : Prop} [Decidable p] {n : Pass α} (hm : m.CountsIn E) (hn : n.CountsIn E) :
    (if p then m else n).CountsIn E := by
  by_cases hp : p
  · rwa [if_pos hp]
  · rwa [if_neg hp]

lemma CountsIn.emit (h : d.isCount = false) : (emit d).CountsIn E := by
  intro c d' hd' hcount
  rw [emitted_emit, mem_singleton] at hd'
  rw [hd', h] at hcount
  cases hcount

lemma CountsIn.forM {l : List α} {g : α → Pass PUnit} (h : ∀ a ∈ l, (g a).CountsIn E) :
    (l.forM g).CountsIn E := by
  induction l with
  | nil => exact .pure _
  | cons a l ih => exact (h a (by simp)).bind fun _ => ih fun b hb => h b (by simp [hb])

lemma CountsIn.read {f : Checker → Pass β} (hf : ∀ c, (f c).CountsIn E) :
    (current >>= f).CountsIn E :=
  fun c => hf c c

lemma emitted_entities_bind {f : Store → Pass β} :
    (entities >>= f).emitted c = (f c.store).emitted c := rfl

lemma CountsIn.runDeferred {run : Deferred → Pass Unit} (h : ∀ d, (run d).CountsIn E)
    (top : Nat) : (runDeferred run top).CountsIn E := by
  apply CountsIn.read
  intro c
  have hdrop : (dropDeferred top).CountsIn E := CountsIn.of_sink_eq fun _ => rfl
  exact .bind (.forM fun d _ => h d) fun _ => hdrop

lemma CountsIn.eval (he : E e) : e.eval.CountsIn E :=
  fun c _ hd _ => ⟨e, he, c, .refl c, hd⟩

end Pass

open Pass

variable {is : List Ident}

/-- Regular passes without counts report no wrong counts. -/
lemma Regular.countsIn (h : Regular false is m) : m.CountsIn E := by
  have htrace {g : Checker → Pass Unit} (hg : ∀ c, (g c).CountsIn E) :
      (current >>= fun c => if c.config.trace then g c else Pure.pure ()).CountsIn E :=
    .read fun c => (hg c).ite (.pure _)
  induction h with
  | pure a => exact .pure a
  | bind _ _ ihm ihf => exact ihm.bind ihf
  | weaken _ _ ih => exact ih
  | read _ _ ih => exact .read ih
  | build b h | store f h | info f h => exact .of_sink_eq fun _ => rfl
  | emit hplain => exact .emit (hplain.count rfl)
  | undefined i => exact CountsIn.emit (by rw [Problem.isCount_report]; rfl)
  | usage scope =>
    apply CountsIn.read
    intro c
    refine .ite (CountsIn.forM fun o _ => ?_) (CountsIn.pure _)
    exact CountsIn.emit (by rw [Problem.isCount_report]; rfl)
  | traceLine line | indentTrace | unindentTrace => exact htrace fun _ => .of_sink_eq fun _ => rfl
  | log _ => exact .of_sink_eq fun _ => rfl
  | move context => exact .of_sink_eq fun _ => rfl
  | note h => exact .of_sink_eq fun _ => rfl
  | defer d => exact .of_sink_eq fun _ => rfl
  | settle _ _ _ ihrun ihm ihf =>
    have hcount : deferredCount.CountsIn E := .of_sink_eq fun _ => rfl
    exact hcount.bind fun top => ihm.bind fun a =>
      .bind (.runDeferred ihrun top) fun _ => ihf a

lemma Regular.isCount_eq_false (h : Regular false is m)
    (hd : d ∈ m.emitted c) : d.isCount = false := by
  cases hcount : d.isCount with
  | false => rfl
  | true =>
    obtain ⟨e, he, -⟩ := h.countsIn (E := fun _ => False) c d hd hcount
    exact he.elim

lemma emitted_initVars
    (h : ((values (pending rhs) (lhs.length = 2 && returning.isNone)).1 c).1.1.any (·.isInvalid)) :
    ∃ rest, (initVars lhs rhs returning).emitted c =
        (values (pending rhs) (lhs.length = 2 && returning.isNone)).emitted c ++ rest ∧
      ∀ d ∈ rest, d.isCount = false := by
  refine ⟨_, emitted_bind, fun d hd => ?_⟩
  generalize ((values (pending rhs) (lhs.length = 2 && returning.isNone)).1 c).1 = r at h hd
  obtain ⟨xs, pair⟩ := r
  refine Regular.isCount_eq_false (?_ : Regular false [] _) hd
  dsimp only
  by_cases hlen : lhs.length = xs.length
  · -- with as many values as variables nothing is counted
    rw [if_neg (not_not_intro hlen)]
    split
    · exact .before .initVar fun _ => .before .initVar fun _ =>
        .before (.log rfl) fun _ => .recordPair
    · exact .before .initEach fun _ =>
        .ite (.pure _) (.forM_silent fun _ => .markUsed)
  · -- the count is passed over because of the wrong value
    rw [if_pos hlen]
    have hrefuse : refuseInit lhs rhs xs returning = (lhs.forM fun v => do
        markUsed v
        invalidateMissing v) >>= fun _ => pure () := by
      simp only [refuseInit, if_pos h]
    rw [hrefuse]
    exact .before .refuseVars fun _ => .pure _

/-- The expressions evaluated for a target: itself, and the base of a selector that is no
storage. -/
def targetParts : Expr → List Expr
  | .selector n base sel => [.selector n base sel, base]
  | l => [l]

lemma mem_targetParts_self (l : Expr) : l ∈ targetParts l := by
  cases l <;> simp [targetParts]

lemma mem_pending {p : Pending} (h : p ∈ pending es) :
    p.expr ∈ es ∧ p.eval = p.expr.eval := by
  induction es with
  | nil => simp [pending] at h
  | cons e es ih =>
    rw [pending, mem_cons] at h
    rcases h with rfl | h
    · exact ⟨mem_cons_self, rfl⟩
    · exact ⟨mem_cons_of_mem e (ih h).1, (ih h).2⟩

section

variable {l : Expr} {ls : List Expr} {x : Operand}

lemma CountsIn.evalValue (h : E l) : l.evalValue.CountsIn E :=
  .bind (.eval h) fun _ => Regular.exclude.countsIn.bind fun _ => Regular.singleValue.countsIn

lemma CountsIn.useAll (h : ∀ l ∈ ls, E l) : (useAll (pending ls)).CountsIn E := by
  apply CountsIn.forM
  intro p hp
  obtain ⟨hmem, heval⟩ := mem_pending hp
  have hdiscard : (Functor.discard p.eval).CountsIn E := by
    rw [heval]
    exact .bind (.eval (h _ hmem)) .pure
  exact .ite (.pure _) hdiscard

lemma CountsIn.evalTarget (h : E l) : (evalTarget l).CountsIn E := by
  have hrest (named? : Option ObjectId) : (entities >>= fun s => l.evalValue >>= fun x =>
      (named?.forM fun o => setUsed o (s.object o).isUsed) >>= fun _ => Pure.pure x).CountsIn E := by
    have hentities : entities.CountsIn E := .of_sink_eq fun _ => rfl
    have hrestore (s : Store) :
        Regular false [] (named?.forM fun o => setUsed o (s.object o).isUsed) :=
      .optionForM fun _ => .setUsed
    exact hentities.bind fun s => (CountsIn.evalValue h).bind fun _ =>
      (hrestore s).countsIn.bind .pure
  unfold Pass.evalTarget
  split
  · exact Regular.localVar?.countsIn.bind hrest
  · exact .bind (.pure _) hrest

lemma CountsIn.reportTarget (h : ∀ e ∈ targetParts l, E e) : (reportTarget l x).CountsIn E := by
  unfold Pass.reportTarget
  split
  · rename_i n base sel
    have hbase : E base := h base (by simp [targetParts])
    exact (CountsIn.evalValue hbase).bind fun _ => (CountsIn.pure _).bind fun _ =>
      Regular.refuseTarget.countsIn
  · exact .bind (.pure _) fun _ => Regular.refuseTarget.countsIn

lemma CountsIn.targetType (h : ∀ e ∈ targetParts l, E e) : (targetType l).CountsIn E := by
  have hself : E l := h l (mem_targetParts_self l)
  have hstorage : (storageType l).CountsIn E := by
    refine (CountsIn.evalTarget hself).bind fun x => .ite (.pure _) ?_
    split
    · exact .pure _
    · exact .pure _
    · exact (CountsIn.reportTarget h).bind .pure
  unfold Pass.targetType
  split
  · exact Regular.recordDef.countsIn.bind .pure
  · exact hstorage

lemma CountsIn.assignVar (h : ∀ e ∈ targetParts l, E e) : (assignVar l x).CountsIn E := by
  have hself : E l := h l (mem_targetParts_self l)
  apply CountsIn.ite
  · exact (CountsIn.useAll (by simpa using hself)).bind CountsIn.pure
  · refine (CountsIn.targetType h).bind fun t => .ite (.pure _) ?_
    exact Regular.assignment.countsIn.bind .pure

lemma CountsIn.assignTargets (h : ∀ l ∈ ls, ∀ e ∈ targetParts l, E e) :
    (assignTargets ls xs).CountsIn E := by
  induction ls generalizing xs with
  | nil => exact .pure _
  | cons l ls ih =>
    rw [forall_mem_cons] at h
    cases xs with
    | nil => exact .pure _
    | cons x xs => exact (CountsIn.assignVar h.1).bind fun _ => (ih h.2).bind .pure

end

/-- Once a value is wrong, an assignment reports only the wrong counts that its targets meet. -/
lemma emitted_assignVars (h : ((values (pending rhs) (lhs.length = 2)).1 c).1.1.any (·.isInvalid)) :
    ∃ rest, (assignVars lhs rhs).emitted c =
        (values (pending rhs) (lhs.length = 2)).emitted c ++ rest ∧ ∀ d ∈ rest, d.isCount →
        ∃ l ∈ lhs, ∃ e ∈ targetParts l, ∃ c', c.Steps c' ∧ d ∈ e.eval.emitted c' := by
  refine ⟨_, emitted_bind, fun d hd hcount => ?_⟩
  have hsteps := (values (pending rhs) (lhs.length = 2)).2 c
  generalize (values (pending rhs) (lhs.length = 2)).1 c = r at h hd hsteps
  obtain ⟨⟨xs, pair⟩, c'⟩ := r
  let E (e : Expr) : Prop := ∃ l ∈ lhs, e ∈ targetParts l
  have hparts : ∀ l ∈ lhs, ∀ e ∈ targetParts l, E e := fun l hl e he => ⟨l, hl, he⟩
  have huse := CountsIn.useAll fun l hl => hparts l hl l (mem_targetParts_self l)
  dsimp only at h hd hsteps
  suffices hrest : ∃ e, E e ∧ ∃ c'', c'.Steps c'' ∧ d ∈ e.eval.emitted c'' by
    obtain ⟨e, ⟨l, hl, he⟩, c'', hafter, hd'⟩ := hrest
    exact ⟨l, hl, e, he, c'', hsteps.trans hafter, hd'⟩
  refine (?_ : CountsIn E _) c' d hd hcount
  by_cases hlen : lhs.length = xs.length
  · rw [if_neg (not_not_intro hlen)]
    split
    · rename_i l l' x y
      have hl := hparts l (by simp)
      have hl' := hparts l' (by simp)
      exact (CountsIn.assignVar hl).bind fun _ => (CountsIn.assignVar hl').bind fun _ =>
        .bind (.of_sink_eq fun _ => rfl) fun _ => Regular.recordPair.countsIn
    · exact (CountsIn.assignTargets hparts).bind fun _ =>
        .ite (.pure _) (Regular.markTargets lhs).countsIn
  · -- the count is passed over because of the wrong value
    rw [if_pos hlen]
    simp only [if_pos h]
    exact huse.bind .pure

lemma isCount_argumentCountReport :
    (argumentCountReport s e func params variadic args n).isCount := by
  simp [Diagnostic.isCount, isOf_argumentCountReport]

/-- The arguments of a call are reported to be too many or too few exactly if they are, wrong or
not. -/
lemma exists_isCount_arguments_iff {exprs : List Pending} :
    (∃ d ∈ (arguments e func exprs spread sig xs).emitted c, d.isCount) ↔
      ∃ n, planArguments c.store (paramTypes c.store sig) sig.variadic spread exprs.length
        xs.length = .wrongCount n := by
  have hnone {m : Pass Unit} (h : Regular false [] m) : ¬ ∃ d ∈ m.emitted c, d.isCount := by
    rintro ⟨d, hd, hcount⟩
    rw [h.isCount_eq_false hd] at hcount
    cases hcount
  rw [arguments, emitted_entities_bind]
  dsimp only
  cases planArguments c.store (paramTypes c.store sig) sig.variadic spread exprs.length
    xs.length with
  | each targets => simpa using hnone .assignEach
  | wrongCount n =>
    have hmem : (emit (argumentCountReport c.store e func (paramTypes c.store sig) sig.variadic xs
        n)).emitted c = [argumentCountReport c.store e func (paramTypes c.store sig) sig.variadic
          xs n] := emitted_emit
    simp [hmem, isCount_argumentCountReport]
  | spreadOfMany | spreadToNonVariadic => simpa using hnone (.report rfl)

/-- If one of its values is wrong, an initialization reports no wrong count once they are evaluated,
and an assignment reports none unless the evaluation of a target does. But the arguments of a call
are reported to be too many or too few whenever they are. -/
theorem counts_after_invalid (c : Checker) :
    (∀ (lhs : List ObjectId) (rhs : List Expr) (returning : Option Span),
      ((values (pending rhs) (lhs.length = 2 && returning.isNone)).1 c).1.1.any (·.isInvalid) →
      ∃ rest, (initVars lhs rhs returning).emitted c =
          (values (pending rhs) (lhs.length = 2 && returning.isNone)).emitted c ++ rest ∧
        ∀ d ∈ rest, d.isCount = false) ∧
    (∀ lhs rhs : List Expr,
      ((values (pending rhs) (lhs.length = 2)).1 c).1.1.any (·.isInvalid) →
      ∃ rest, (assignVars lhs rhs).emitted c =
          (values (pending rhs) (lhs.length = 2)).emitted c ++ rest ∧
        ∀ d ∈ rest, d.isCount = true →
          ∃ l ∈ lhs, ∃ e ∈ targetParts l, ∃ c', c.Steps c' ∧ d ∈ e.eval.emitted c') ∧
    (∀ (e func : Expr) (exprs : List Pending) (spread : Bool) (sig : Signature)
        (xs : List Operand),
      (∃ d ∈ (arguments e func exprs spread sig xs).emitted c, d.isCount = true) ↔
        ∃ n, planArguments c.store (paramTypes c.store sig) sig.variadic spread exprs.length
          xs.length = .wrongCount n) :=
  ⟨fun _ _ _ => emitted_initVars, fun _ _ => emitted_assignVars,
    fun _ _ _ _ _ _ => exists_isCount_arguments_iff⟩

/-- A name that nothing declares. -/
def missingName : Expr := .ident ⟨1, ⟨10, 17⟩⟩ ⟨some "missing", ⟨10, 17⟩⟩

/-- Three values of which the first is not declared, for two variables. -/
theorem missingName_counts :
    ((values (pending [missingName, missingName, missingName]) true).1 (.start {})).1.1.any
        (·.isInvalid) = true ∧
      ∃ rest, (initVars [⟨0⟩, ⟨1⟩] [missingName, missingName, missingName] none).emitted
          (.start {}) =
        (values (pending [missingName, missingName, missingName]) true).emitted (.start {}) ++ rest ∧
          ∀ d ∈ rest, d.isCount = false := by
  have hinvalid : ((values (pending [missingName, missingName, missingName]) true).1
      (.start {})).1.1.any (·.isInvalid) = true := by decide +kernel
  exact ⟨hinvalid, (counts_after_invalid _).1 [⟨0⟩, ⟨1⟩] _ none hinvalid⟩

/-- `func() {}(missing)` -/
def callWithMissing : Expr :=
  .call ⟨0, ⟨0, 18⟩⟩ (.funcLit ⟨2, ⟨0, 9⟩⟩ ⟨[], [], false, ⟨0, 6⟩⟩ ⟨[], ⟨7, 9⟩⟩) [missingName] false

/-- The argument of the call is wrong, and yet it is reported to be one too many. -/
theorem callWithMissing_counts :
    ((values (pending [missingName]) false).1 (.start {})).1.1.any (·.isInvalid) = true ∧
      (callWithMissing.eval.emitted (.start {})).map (·.code) =
        [some Fault.undeclaredName.code, some Fault.wrongArgCount.code] := by
  decide +kernel

/-! ## Arguments and parameters -/

/-- The type that the argument in a place is assigned to, from the variadic parameter on its element
type. -/
def argumentTarget (s : Store) (params : List TypeId) (collects : Bool) (k : Nat) : TypeId :=
  if collects = true ∧ params.length - 1 ≤ k then
    (params.getLast?.bind fun t => (s.type t).sliceElem?).getD .invalid
  else params.getD k .invalid

/-- A slice in place of arguments is refused: no variadic signature, or one expression with several
values. -/
def SpreadRefused (variadic spread : Bool) (nexprs nargs : Nat) : Prop :=
  spread = true ∧ (variadic = false ∨ nexprs = 1 ∧ 1 < nargs)

/-- There are too few or too many arguments. -/
def WrongCount (npars : Nat) (variadic spread : Bool) (nexprs nargs : Nat) : Prop :=
  ¬SpreadRefused variadic spread nexprs nargs ∧
    if variadic = true ∧ spread = false then nargs < npars - 1 else nargs ≠ npars

variable {s : Store} {params : List TypeId} {n : Nat}

lemma map_argumentTarget (hn : n ≤ params.length) :
    (range n).map (argumentTarget s params false) = params.take n := by
  refine ext_getElem (by simp [hn]) fun k hk hk' => ?_
  have hlt : k < params.length := by simp at hk'; omega
  simp [argumentTarget, hlt]

lemma map_argumentTarget_collects (hn : params.length - 1 ≤ n) :
    (range n).map (argumentTarget s params true) = params.dropLast ++
      replicate (n - params.dropLast.length)
        ((params.getLast?.bind fun t => (s.type t).sliceElem?).getD .invalid) := by
  refine ext_getElem (by simp; omega) fun k hk hk' => ?_
  by_cases hlast : params.length - 1 ≤ k
  · simp [argumentTarget, hlast]
  · have hlt := not_le.mp hlast
    simp [argumentTarget, hlast, hlt, (by omega : k < params.length)]

lemma planArguments_eq_wrongCount_iff :
    (∃ k, planArguments s params variadic spread nexprs nargs = .wrongCount k) ↔
      WrongCount params.length variadic spread nexprs nargs := by
  -- a fixed number, a slice for no slice, a least number, and the slice itself
  cases variadic <;> cases spread
  · by_cases h : nargs = params.length <;> simp [planArguments, matchCount, WrongCount,
      SpreadRefused, h]
  · simp [planArguments, WrongCount, SpreadRefused]
  · by_cases h : nargs < params.length - 1 <;> simp [planArguments, WrongCount, SpreadRefused, h]
  · by_cases hmany : nexprs = 1 ∧ 1 < nargs
    · simp [planArguments, WrongCount, SpreadRefused, hmany]
    · have hplan : planArguments s params true true nexprs nargs = matchCount params nargs :=
        if_neg (by simpa using hmany)
      by_cases h : nargs = params.length <;> simp_all [matchCount, WrongCount, SpreadRefused]

lemma planArguments_of_not_wrongCount
    (hcount : ¬WrongCount params.length variadic spread nexprs nargs)
    (hspread : ¬SpreadRefused variadic spread nexprs nargs) :
    planArguments s params variadic spread nexprs nargs =
      .each ((range nargs).map (argumentTarget s params (variadic && !spread))) := by
  have hright := fun h => hcount ⟨hspread, h⟩
  cases variadic <;> cases spread
  · obtain rfl : nargs = params.length := by simpa using hright
    simp [planArguments, matchCount, map_argumentTarget]
  · exact absurd ⟨rfl, .inl rfl⟩ hspread
  · have hle : params.length - 1 ≤ nargs := by simpa using hright
    simp [planArguments, map_argumentTarget_collects hle, hle]
  · obtain rfl : nargs = params.length := by simpa using hright
    simp_all [planArguments, matchCount, map_argumentTarget, SpreadRefused]

namespace Pass

variable {context : String} {sig : Signature} {c : Checker}

lemma assignEach_map (f : Nat → TypeId) (xs : List Operand) (k : Nat) :
    assignEach context xs ((range' k xs.length).map f) =
      (xs.zipIdx k).forM fun p => discard <| assignment p.1 (some (f p.2)) context := by
  induction xs generalizing k with
  | nil => rfl
  | cons x xs ih =>
    rw [length_cons, range'_succ, map_cons, assignEach, ih]
    rfl

/-- Arguments that are right in number are assigned to the types for their places. A wrong number is
reported exactly if there are too few or too many, and then nothing else is done. -/
theorem arguments_assigned (c : Checker) (e func : Expr) (exprs : List Pending) (spread : Bool)
    (sig : Signature) (args : List Operand) :
    let params := paramTypes c.store sig
    let refused := SpreadRefused sig.variadic spread exprs.length args.length
    let wrong := WrongCount params.length sig.variadic spread exprs.length args.length
    let check := arguments e func exprs spread sig args
    (¬wrong → ¬refused → check.1 c = (args.zipIdx.forM fun p => discard <| assignment p.1
      (some (argumentTarget c.store params (sig.variadic && !spread) p.2))
      ("argument to " ++ func.text)).1 c) ∧
    ((∃ d ∈ check.emitted c, d.isOf .wrongArgCount) ↔ wrong) ∧
    (wrong → ∃ d, d.isOf .wrongArgCount ∧ check.1 c = (emit d).1 c) := by
  intro params refused wrong check
  have hreport (h : wrong) : ∃ d, d.isOf .wrongArgCount ∧ check.1 c = (emit d).1 c := by
    obtain ⟨n, hplan⟩ := (planArguments_eq_wrongCount_iff (s := c.store)).mpr h
    refine ⟨argumentCountReport c.store e func params sig.variadic args n, ?_, ?_⟩
    · rw [isOf_argumentCountReport]
      rfl
    · simp only [check, arguments, entities_bind_run, params, hplan]
  refine ⟨fun h hspread => ?_, ⟨?_, fun h => ?_⟩, hreport⟩
  · have hplan := planArguments_of_not_wrongCount (s := c.store) h hspread
    simp only [check, arguments, entities_bind_run, params, hplan, range_eq_range',
      assignEach_map]
  · rintro ⟨d, hd, hof⟩
    refine planArguments_eq_wrongCount_iff.mp (exists_isCount_arguments_iff.mp ⟨d, hd, ?_⟩)
    simp [Diagnostic.isCount, hof]
  · obtain ⟨d, hof, hrun⟩ := hreport h
    have hd : check.emitted c = [d] := by
      rw [emitted, hrun]
      exact emitted_emit
    exact ⟨d, hd ▸ mem_singleton_self d, hof⟩

end Pass

/-! ## Operands that checks assign -/

/-- The report that an operand cannot be assigned because it is a type or has no value. -/
def Diagnostic.RefusesOperand (d : Diagnostic) : Prop :=
  d.isOf .incompatibleAssign = true ∧
    ∃ x type context, d.message = (Problem.cannotAssign x type context).message

/-- An operand that is neither a type nor without a value. An invalid one has been reported. -/
def Operand.Presentable (x : Operand) : Prop := x.mode ≠ .noValue ∧ x.mode ≠ .typeExpr

lemma Operand.presentable_invalidated (x : Operand) : x.invalidated.Presentable := by
  constructor <;> intro h <;> cases h

namespace Diagnostic

lemma not_refusesOperand_of_isOf (h : d.isOf k)
    (hk : k ≠ .incompatibleAssign) : ¬ d.RefusesOperand := by
  rintro ⟨hcode, -⟩
  have hcodes := (of_decide_eq_true h).symm.trans (of_decide_eq_true hcode)
  exact hk (Fault.code_inj (Option.some.inj hcodes))

end Diagnostic

namespace Problem

/-- Of a value that its target cannot take, only the refusal says that it cannot be assigned. -/
lemma message_of_incompatibleAssign (h : p.fault = .incompatibleAssign) :
    p.isRefusal ∨
      ∃ x text, p.message = "cannot convert " ++ x ++ text ∨ p.message = "cannot use " ++ x ++ text := by
  cases p with
  | cannotAssign => exact .inl rfl
  | misfit kind x type =>
    obtain rfl : kind = .incompatibleAssign := h
    exact .inr ⟨x, " to type " ++ type, .inl (String.append_assoc ..)⟩
  | cannotUse kind x type context cause =>
    have hmessage : (cannotUse kind x type context cause).message =
        "cannot use " ++ x ++ " as " ++ type ++ " value in " ++ context ++ causeText cause := rfl
    refine .inr ⟨x, " as " ++ type ++ " value in " ++ context ++ causeText cause, .inr ?_⟩
    simp only [hmessage, String.append_assoc]
  | cannotUseUntyped kind x type context =>
    obtain ⟨rest, hmessage⟩ : ∃ rest, (cannotUseUntyped kind x type context).message =
        "cannot use " ++ x ++ " as " ++ type ++ " value in " ++ context ++ rest := ⟨_, rfl⟩
    refine .inr ⟨x, " as " ++ type ++ " value in " ++ context ++ rest, .inr ?_⟩
    simp only [hmessage, String.append_assoc]
  | _ => cases h

lemma refusesOperand_report_iff (p : Problem) (span : Span) :
    (p.report span).RefusesOperand ↔ p.isRefusal := by
  constructor
  · rintro ⟨hcode, x, type, context, hmessage⟩
    have hfault : p.fault = .incompatibleAssign := by simpa [isOf_report] using hcode
    replace hmessage : p.message = "cannot assign " ++ x ++ " to " ++ type ++ " in " ++ context :=
      hmessage
    rcases message_of_incompatibleAssign hfault with h | ⟨y, text, h | h⟩
    · exact h
    -- the words differ at the verb
    · simpa using congrArg String.toList (h.symm.trans hmessage)
    · simpa using congrArg String.toList (h.symm.trans hmessage)
  · intro h
    cases p with
    | cannotAssign x type context => exact ⟨rfl, x, type, context, rfl⟩
    | _ => cases h

end Problem

/-- From a certain number on, no report refuses an operand. -/
def Checker.Unrefusing (start : Nat) (c : Checker) : Prop :=
  ∀ d ∈ c.sink.reports.toList.drop start, ¬ d.RefusesOperand

namespace Pass

variable {α : Type} {m : Pass α} {start : Nat}

/-- A pass of which only the reports matter. -/
abbrev Spares (start : Nat) (m : Pass α) : Prop := m.Preserves (Unrefusing start)

lemma Spares.not_refusesOperand (h : ∀ start, m.Spares start)
    (hd : d ∈ m.emitted c) : ¬ d.RefusesOperand := by
  refine (h c.sink.reports.size).state c (fun d' hd' => ?_) d hd
  simp [← Array.length_toList] at hd'

lemma spares_of_sink_eq (h : ∀ c, (m.1 c).2.sink = c.sink) : m.Spares start := by
  apply preserves_of_state
  intro c hc
  rwa [Unrefusing, h c]

lemma spares_emit (h : ¬ d.RefusesOperand) : (emit d).Spares start := by
  apply preserves_of_state
  intro c hc d' hd'
  have hreports : ((emit d).1 c).2.sink.reports.toList = c.sink.reports.toList ++ [d] := by
    simp [emit, step, Sink.emit]
  rw [hreports, drop_append, mem_append] at hd'
  rcases hd' with hd' | hd'
  · exact hc d' hd'
  · rwa [mem_singleton.mp (mem_of_mem_drop hd')]

lemma spares_report (h : p.isRefusal = false) : (report p span).Spares start :=
  spares_emit (by simp [Problem.refusesOperand_report_iff, h])

end Pass

/-! ## Statements -/

variable {x : Operand} {context : String}

variable {start : Nat}

namespace Pass

lemma mem_emitted_report {f : Unit → Pass β} (c : Checker) :
    p.report span ∈ (report p span >>= f).emitted c := by
  have hreport : (report p span).emitted c = [p.report span] := emitted_emit
  simp [emitted_bind, hreport]

/-- An operand that is a type or has no value counts as a single value, and is refused. -/
lemma exists_refusesOperand_assignment (hx : x.mode = .noValue ∨ x.mode = .typeExpr)
    (c : Checker) : ∃ d ∈ (assignment x ot context).emitted c, d.RefusesOperand := by
  have hsingle : singleValue x = entities >>= fun _ => pure x := by
    rcases hx with h | h <;> simp [singleValue, h]
  have hmem : (Problem.cannotAssign (x.describe c.store) (c.store.typeTextOf ot) context).report
      x.span ∈ (assignment x ot context).emitted c := by
    rw [assignment, hsingle, bind_assoc, emitted_entities_bind, pure_bind]
    rcases hx with h | h <;> simp only [h] <;> rw [emitted_entities_bind] <;>
      exact mem_emitted_report c
  exact ⟨_, hmem, (Problem.refusesOperand_report_iff _ _).mpr rfl⟩

lemma spares_onRecords : (onRecords g).Spares start :=
  spares_of_sink_eq fun _ => rfl

end Pass

open Pass

lemma isOf_redeclaration (ob other : Object) : (redeclaration ob other).isOf .duplicateDecl := by
  unfold redeclaration
  by_cases hdummy : other.span.isDummy
  · rw [if_pos hdummy]
    rfl
  · rw [if_neg hdummy]
    rfl

lemma spares_declare {s : ScopeId} {name : Option Ident} : (declare s name o n).Spares start := by
  have hdef : (name.forM fun i => recordDef i.span (some o)).Spares start :=
    preserves_optionForM fun _ => spares_of_sink_eq fun _ => rfl
  have hbind : (bindIn s o).Spares start := spares_of_sink_eq fun _ => rfl
  have hvisible : (setVisible o n).Spares start := spares_of_sink_eq fun _ => rfl
  refine maintains_entities fun store => ?_
  refine .ite ((preserves_pure _).before fun clash => ?_) (hbind.before fun clash => ?_)
  all_goals cases clash with
    | some other =>
      have hclash : (redeclaration (store.object o) (store.object other)).isOf .duplicateDecl :=
        isOf_redeclaration ..
      have hemit : (emit (redeclaration (store.object o) (store.object other))).Spares start :=
        spares_emit (Diagnostic.not_refusesOperand_of_isOf hclash (by decide))
      exact hemit.before fun _ => spares_of_sink_eq fun _ => rfl
    | none => exact .ite hdef (hvisible.before fun _ => hdef)

/-- Evaluations for values give operands that are neither types nor without a value. -/
lemma unrefusing_discipline :
    Discipline (Unrefusing start) (fun _ => True) (fun _ => True) Operand.Presentable where
  newIn _ _ _ := trivial
  quiet _ hm := spares_of_sink_eq fun c => (hm c).sink
  restoreUse _ _ hd := (spares_of_sink_eq fun _ => rfl).state _ hd
  giveType := spares_of_sink_eq fun _ => rfl
  newConst := ⟨(spares_of_sink_eq fun _ => rfl).state, fun _ _ _ => spares_of_sink_eq fun _ => rfl⟩
  declare _ := spares_declare
  emit _ hcode _ hk :=
    spares_emit (Diagnostic.not_refusesOperand_of_isOf (decide_eq_true hcode) hk)
  report hp := spares_report (Bool.not_eq_true' _ |>.mp (Bool.and_eq_true_iff.mp hp).1)
  unpresentable hx hmode := (hmode.elim hx.1 hx.2).elim
  implicit _ _ := Maintains.state (maintains_entities fun _ =>
    spares_onRecords.before fun _ => preserves_pure _) _
  finish _ := (preserves_optionForM fun _ => spares_of_sink_eq fun _ => rfl).before fun _ =>
    maintains_entities fun _ => spares_onRecords.before fun _ => preserves_pure _
  accept _ hvalue htype := ⟨hvalue, htype⟩
  reject _ := Operand.presentable_invalidated _
  invalidated _ := Operand.presentable_invalidated _
  missing := by constructor <;> intro h <;> cases h

/-- What is to be known of operands. -/
abbrev presentable (start : Nat) : Notions :=
  .plain (Unrefusing start) (fun _ => True) (fun _ => True) Operand.Presentable

lemma unrefusing_governs :
    Regime.Governs (Unrefusing start) (presentable start) (fun _ => True)
      fun d => .sure (∀ _ ∈ d.body.stmts, True) :=
  Discipline.governs_all unrefusing_discipline (fun hm => spares_of_sink_eq fun c => (hm c).sink)
    (fun _ => trivial) ⟨nofun, nofun⟩

namespace Pass

lemma spares_assignment (hx : x.Presentable) : (assignment x ot context).Spares start :=
  Always.preserves fun _ hc => (Discipline.regime unrefusing_discipline).assignment hc
    ⟨⟨fun _ _ => trivial, fun _ => trivial⟩, hx⟩ fun _ _ => trivial

lemma spares_function (sig : FuncSig) (body : Block) : (function sig body).Spares start :=
  Always.preserves fun _ hc =>
    Regime.Governs.function unrefusing_governs hc (fun _ _ => trivial) (sigCollects_false sig)

lemma spares_bodyOf (sig : TypeId) (body : Block) : (bodyOf sig body).Spares start :=
  Always.preserves fun _ hc =>
    Regime.Governs.bodyOf unrefusing_governs hc (fun _ _ => trivial) fun _ _ _ => trivial

lemma spares_block (body : Block) : (block body).Spares start :=
  Always.preserves fun _ hc => Regime.Governs.block unrefusing_governs hc fun _ _ => trivial

end Pass

/-- An assignment refuses an operand exactly if it is a type or has no value, and never does in a
check of a function, a body or a block. -/
theorem assigned_operands_presentable (c : Checker) :
    (∀ (x : Operand) (t : Option TypeId) (context : String),
      (∃ d ∈ (assignment x t context).emitted c, d.RefusesOperand) ↔
        x.mode = .noValue ∨ x.mode = .typeExpr) ∧
    (∀ (sig : FuncSig) (body : Block), ∀ d ∈ (function sig body).emitted c, ¬ d.RefusesOperand) ∧
    (∀ (sig : TypeId) (body : Block), ∀ d ∈ (bodyOf sig body).emitted c, ¬ d.RefusesOperand) ∧
    (∀ body : Block, ∀ d ∈ (block body).emitted c, ¬ d.RefusesOperand) := by
  refine ⟨fun x t context => ⟨?_, fun hx => exists_refusesOperand_assignment hx c⟩, ?_, ?_, ?_⟩
  · rintro ⟨d, hd, hrefuses⟩
    apply Classical.byContradiction
    intro hx
    exact Spares.not_refusesOperand (fun _ => spares_assignment (not_or.mp hx)) hd hrefuses
  · exact fun sig body d => Spares.not_refusesOperand fun _ => spares_function sig body
  · exact fun sig body d => Spares.not_refusesOperand fun _ => spares_bodyOf sig body
  · exact fun body d => Spares.not_refusesOperand fun _ => spares_block body

end GoCheck
