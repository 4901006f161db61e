import GoCheck.Proofs.Conversion.Assignments
import GoCheck.Proofs.Usage.Assignments

/-!
# Errors are reported once

The invalid operand stands for an error that has been reported. Whatever is built around it is
invalid as well, without another report, and so is what is initialized with it or assigned from it.
-/

namespace GoCheck

open Pass

variable {c : Checker} {e b : Expr} {es : List Expr} {x : Operand} {m : Pass Evaluated}

/-- The operand of an expression, and its index or arguments. -/
def Expr.parts? : Expr → Option (Expr × List Expr)
  | .paren _ b | .selector _ b _ | .assert _ b _ | .unary _ _ b | .receive _ b => some (b, [])
  | .index _ b k => some (b, [k])
  | .call _ func args _ => some (func, args)
  | .ident .. | .lit .. | .funcLit .. => none

/-- Expressions evaluate without a report, one after the other. Blanks are passed over. -/
def Unreported : List Expr → Checker → Prop
  | [], _ => True
  | e :: es, c => if isBlank e then Unreported es c else
    e.eval.emitted c = [] ∧ Unreported es (e.eval.1 c).2

/-- An expression is built around a name, with indices and arguments that evaluate without a
report. -/
inductive Around (i : Ident) : Expr → Checker → Prop where
  | name (n : Node) (c : Checker) : Around i (.ident n i) c
  | part {e b : Expr} {es : List Expr} {c : Checker} : e.parts? = some (b, es) →
      Around i b (c.opened e) → Unreported es (b.eval.1 (c.opened e)).2 → Around i e c

/-- A name stands for an object of invalid type. -/
def Checker.NamesInvalid (c : Checker) (i : Ident) : Prop :=
  i.text ≠ "_" ∧ ∃ o, (c.context.scope.bind (c.store.resolve? · i.text)).map (·.2) = some o ∧
    (c.store.object o).type.getD .invalid = .invalid

namespace Pass

lemma emitted_useAll (h : Unreported es c) : (useAll (pending es)).emitted c = [] := by
  induction es generalizing c with
  | nil => exact emitted_eq_nil rfl
  | cons e es ih =>
    rw [Unreported] at h
    have hcons : useAll (pending (e :: es)) =
        (if isBlank e then pure () else discard e.eval) >>= fun _ => useAll (pending es) := by
      rw [pending]
      rfl
    rw [hcons, emitted_bind]
    split at h
    · rename_i hblank
      rw [if_pos hblank]
      exact List.append_eq_nil_iff.mpr ⟨emitted_eq_nil rfl, ih h⟩
    · rename_i hblank
      rw [if_neg hblank]
      exact List.append_eq_nil_iff.mpr ⟨h.1, ih h.2⟩

lemma run_of_isInvalid (allowType : Bool) (hx : x.isInvalid) (c : Checker) :
    (exclude x allowType >>= singleValue).1 c = (x, c) := by
  obtain ⟨mode⟩ := x
  obtain rfl : mode = .invalid := of_decide_eq_true hx
  cases allowType <;> rfl

variable (h : (m.1 c).1.1.isInvalid)
include h

lemma value_of_isInvalid : (value m).1 c = ((m.1 c).1.1, (m.1 c).2) := by
  rw [value, bind_run]
  exact run_of_isInvalid false h _

lemma valueOrType_of_isInvalid : (valueOrType m).1 c = ((m.1 c).1.1, (m.1 c).2) := by
  rw [valueOrType, bind_run]
  exact run_of_isInvalid true h _

lemma select_of_isInvalid : (select m sel).1 c = ((m.1 c).1.1.invalidated, (m.1 c).2) := by
  rw [select, bind_run, value_of_isInvalid h]
  rw [h]
  rfl

lemma indexInto_of_isInvalid :
    (indexInto m p).1 c = ((m.1 c).1.1, ((useAll [p]).1 (m.1 c).2).2) := by
  rw [indexInto, bind_run, value_of_isInvalid h]
  rw [if_pos h]
  rfl

lemma assertType_of_isInvalid : (assertType e m t).1 c = ((m.1 c).1.1.invalidated, (m.1 c).2) := by
  rw [assertType, bind_run, value_of_isInvalid h]
  rw [h]
  rfl

lemma receive_of_isInvalid : (receive m).1 c = ((m.1 c).1.1, (m.1 c).2) := by
  rw [receive, bind_run, value_of_isInvalid h]
  rw [if_pos h]
  rfl

lemma call_of_isInvalid :
    (call e ⟨f, m⟩ args spread).1 c = (((m.1 c).1.1, .statement), ((useAll args).1 (m.1 c).2).2) := by
  rw [call, bind_run, valueOrType_of_isInvalid h]
  rw [of_decide_eq_true h]
  rfl

lemma unary_of_isInvalid : ∃ r, r.isInvalid ∧ (unary e op m).1 c = (r, (m.1 c).2) := by
  -- an indirection may be of a type, so its operand is evaluated in another way
  by_cases hop : op = .indirect
  · refine ⟨_, h, ?_⟩
    rw [unary, if_pos hop, indirection, bind_run, valueOrType_of_isInvalid h]
    rw [of_decide_eq_true h]
    rfl
  · refine ⟨(m.1 c).1.1.invalidated, rfl, ?_⟩
    rw [unary, if_neg hop, bind_run, value_of_isInvalid h]
    rw [h]
    rfl

omit h

/-- Around an invalid operand only the other parts are evaluated. -/
lemma eval_of_parts? (he : e.parts? = some (b, es))
    (hb : (b.eval.1 (c.opened e)).1.1.isInvalid) : (e.eval.1 c).1.1.isInvalid ∧
      (e.eval.1 c).2.sink = ((useAll (pending es)).1 (b.eval.1 (c.opened e)).2).2.sink := by
  have hobserve {m r} (hr : r.isInvalid)
      (hm : ((m.1 (c.opened e)).1.1, (m.1 (c.opened e)).2) =
        (r, ((useAll (pending es)).1 (b.eval.1 (c.opened e)).2).2)) :
      ((observe e m).1 c).1.1.isInvalid ∧ ((observe e m).1 c).2.sink =
        ((useAll (pending es)).1 (b.eval.1 (c.opened e)).2).2.sink := by
    obtain ⟨info, log, indent, hrun⟩ := observe_run e m c
    obtain ⟨hx, hd⟩ := Prod.mk.inj hm
    rw [hrun, ← hd]
    exact ⟨(congrArg Operand.isInvalid hx).trans hr, rfl⟩
  cases e <;> cases he <;> rw [Expr.eval]
  case paren => exact hobserve hb rfl
  case selector => exact hobserve rfl (select_of_isInvalid hb)
  case index => exact hobserve hb (indexInto_of_isInvalid hb)
  case call =>
    refine hobserve hb ?_
    rw [call_of_isInvalid hb]
  case assert => exact hobserve rfl (assertType_of_isInvalid hb)
  case unary n op =>
    obtain ⟨r, hr, hrun⟩ := unary_of_isInvalid hb
    exact hobserve hr hrun
  case receive => exact hobserve hb (receive_of_isInvalid hb)

lemma name_of_namesInvalid (hi : c.NamesInvalid i) :
    ((name i).1 c).1 = failed ∧ ((name i).1 c).2.sink = c.sink := by
  obtain ⟨hname, o, hfound, htype⟩ := hi
  have hnote d : ((noteUse o).1 d).2.sink = d.sink := by
    rw [noteUse, bind_run]
    cases ((isLocalVar o).1 d).1 <;> rfl
  have hlookup : ((lookup i.text).1 c).1 = some o := hfound
  rw [name, if_neg hname, bind_run, hlookup]
  dsimp only [bind_run, entities_bind_run]
  split
  · exact ⟨rfl, hnote _⟩
  · rename_i hvalid
    exact absurd htype hvalid

lemma eval_of_around (he : Around i e c) (hi : c.NamesInvalid i) :
    e.eval.emitted c = [] ∧ (e.eval.1 c).1.1.isInvalid := by
  have hopened (c : Checker) (e : Expr) (hi : c.NamesInvalid i) :
      (c.opened e).NamesInvalid i ∧ (c.opened e).sink = c.sink := by
    obtain ⟨log, indent, h⟩ := opened_eq c e
    rw [h]
    exact ⟨hi, rfl⟩
  -- from the name outward; a part is evaluated in the state that its whole has been opened in
  induction he with
  | name n c =>
    obtain ⟨hnames, hsink⟩ := hopened c (.ident n i) hi
    obtain ⟨hfailed, hkept⟩ := name_of_namesInvalid hnames
    obtain ⟨info, log, indent, hrun⟩ := observe_run (.ident n i) (asExpression (name i)) c
    rw [Expr.eval]
    refine ⟨emitted_eq_nil ?_, ?_⟩ <;> rw [hrun]
    · exact hkept.trans hsink
    · exact congrArg Operand.isInvalid hfailed
  | @part e b es c hparts _ huse ih =>
    obtain ⟨hnames, hsink⟩ := hopened c e hi
    obtain ⟨hsilent, hinvalid⟩ := ih hnames
    obtain ⟨hx, hafter⟩ := eval_of_parts? hparts hinvalid
    refine ⟨emitted_eq_of_append ?_, hx⟩
    rw [hafter, reports_eq_append_emitted (useAll _), emitted_useAll huse,
      reports_eq_append_emitted b.eval, hsilent, hsink, List.append_nil]

end Pass

/-- What is built around a name for an object of invalid type is invalid without a report, and so is
what is initialized with it or assigned from it. -/
theorem around_invalid_silent (hi : c.NamesInvalid i) (he : Around i e c) :
    e.eval.emitted c = [] ∧ (e.eval.1 c).1.1.isInvalid ∧
      ∀ d o t context,
        let x := (e.eval.1 c).1.1
        (initVar o x context).emitted d = [] ∧ (initConst o x).emitted d = [] ∧
          (assignment x t context).emitted d = [] := by
  obtain ⟨hsilent, hinvalid⟩ := eval_of_around he hi
  refine ⟨hsilent, hinvalid, fun d o t context => ?_⟩
  have hfaulty : isFaulty (e.eval.1 c).1.1 := by rw [isFaulty, hinvalid]; rfl
  refine ⟨emitted_eq_nil ?_, emitted_eq_nil ?_, emitted_eq_nil ?_⟩
  · rw [initVar, entities_bind_run]
    rw [hfaulty]
    rfl
  · rw [initConst, entities_bind_run]
    rw [hfaulty]
    rfl
  · rw [assignment_invalid hinvalid]

/-- A package with a variable `v` of invalid type. -/
def invalidSample : Checker := ((Check.declareVar "v" .invalid).run (Checker.start {})).2

/-- The expression `-v.f("a")[0]`. -/
def invalidNest : Expr :=
  let v := Expr.ident ⟨1, ⟨1, 2⟩⟩ ⟨some "v", ⟨1, 2⟩⟩
  let call := Expr.call ⟨3, ⟨1, 9⟩⟩ (.selector ⟨2, ⟨1, 4⟩⟩ v ⟨some "f", ⟨3, 4⟩⟩)
    [.lit ⟨4, ⟨5, 8⟩⟩ .string (some "\"a\"")] false
  .unary ⟨0, ⟨0, 12⟩⟩ .minus (.index ⟨5, ⟨1, 12⟩⟩ call (.lit ⟨6, ⟨10, 11⟩⟩ .int (some "0")))

theorem around_invalid_silent_sample : invalidNest.eval.emitted invalidSample = [] ∧
    (invalidNest.eval.1 invalidSample).1.1.isInvalid := by
  have hi : invalidSample.NamesInvalid ⟨some "v", ⟨1, 2⟩⟩ :=
    ⟨by decide, ⟨26⟩, by decide +kernel, by decide +kernel⟩
  have hlit {n k raw c}
      (h : (Expr.lit n k (some raw)).eval.emitted c = []) : Unreported [.lit n k (some raw)] c :=
    ⟨h, trivial⟩
  have he : Around ⟨some "v", ⟨1, 2⟩⟩ invalidNest invalidSample := by
    refine .part rfl (.part rfl (.part rfl (.part rfl (.name _ _) trivial) (hlit ?_)) (hlit ?_)) trivial
    · decide +kernel
    · decide +kernel
  obtain ⟨hsilent, hinvalid, -⟩ := around_invalid_silent hi he
  exact ⟨hsilent, hinvalid⟩

end GoCheck
