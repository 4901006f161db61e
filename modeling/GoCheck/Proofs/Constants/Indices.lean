import GoCheck.Proofs.Conversion.Acceptance

/-!
# Constant indices

A constant index is accepted if it denotes an integer from zero up to the length, except that a
typed constant in another form than that of integers, which only a host can make, counts as zero.
-/

namespace GoCheck

open Pass Constant Store

/-- An array, a pointer to an array or a constant string of a length. -/
inductive Store.HasLength (s : Store) (x : Operand) : Nat → Prop
  | array : s.shape x.typeOrInvalid = .array n elem → HasLength s x n
  | pointer {base elem : TypeId} : s.shape x.typeOrInvalid = .pointer base →
      s.shape base = .array n elem → HasLength s x n
  | string {text : String} : s.shape x.typeOrInvalid = .basic k →
      k.family = .string → x.mode = .constant (.string text) → HasLength s x text.utf8ByteSize

namespace Constant

variable {v : Constant} {a : ℚ}

/-- A number is an integer that a signed index can be. -/
def IsPosition (a b : ℚ) (i : Int) : Prop := a = i ∧ b = 0 ∧ 0 ≤ i ∧ i ≤ 2 ^ 63 - 1

lemma sign_of_exactRat? (h : v.exactRat? = some a) : v.sign = a.num.sign := by
  cases v with
  | small i | big i | ratio q =>
    cases h
    simp [sign]
  | _ => cases h

lemma HasParts.sign_neg_iff (h : v.HasParts a 0) : v.sign < 0 ↔ a < 0 := by
  rw [← Rat.num_neg]
  generalize hb : (0 : ℚ) = b at h
  cases h with
  | real h => rw [sign_of_exactRat? h, Int.sign_neg_iff]
  | complex hre him =>
    subst hb
    rw [sign, sign_of_exactRat? hre, sign_of_exactRat? him, ← Int.sign_eq_neg_one_iff_neg]
    split_ifs <;> simp_all

/-- What the check of a constant index asks for before it compares the index with the length. -/
lemma HasParts.isPosition_iff (h : v.HasParts a b) (hkept : v.Kept) :
    (¬v.sign < 0 ∧ v.fits .int .integer) ↔ ∃ i, IsPosition a b i := by
  have hfits : v.fits .int .integer ↔
      b = 0 ∧ a.den = 1 ∧ BasicKind.int.includes a.num := by
    change v.fits .int (BasicKind.family .int) ↔ _
    rw [fits, h.represent_eq hkept rfl]
    split <;> simp_all
  rw [hfits]
  constructor
  · rintro ⟨hsign, rfl, hden, hin⟩
    have hvalue : a = a.num := ((Rat.den_eq_one_iff a).mp hden).symm
    refine ⟨a.num, hvalue, rfl, ?_, ((includes_iff rfl).mp hin).2⟩
    exact Rat.num_nonneg.mpr (not_lt.mp fun hneg => hsign (h.sign_neg_iff.mpr hneg))
  · rintro ⟨i, rfl, rfl, hnonneg, hle⟩
    have hleast : -2 ^ 63 ≤ i := by omega
    refine ⟨fun hneg => ?_, rfl, Rat.den_intCast i, (includes_iff rfl).mpr ?_⟩
    · exact absurd (h.sign_neg_iff.mp hneg) (not_lt.mpr (by exact_mod_cast hnonneg))
    · rw [Rat.num_intCast]
      exact ⟨hleast, hle⟩

/-- A constant in the form of integers is read as the index that it denotes, others as zero. -/
lemma HasParts.int64?_eq (h : v.HasParts a b) (hkept : v.Kept) (hi : IsPosition a b i) :
    ((v.int64?).getD 0).toInt = if v.kind = .int then i else 0 := by
  obtain ⟨hvalue, -, hnonneg, hle⟩ := hi
  cases h with
  | complex => rfl
  | real h =>
    cases v with
    | small j =>
      obtain rfl : j.toInt = i := by exact_mod_cast (Option.some.inj h).trans hvalue
      rfl
    | big j =>
      obtain rfl : j = i := by exact_mod_cast (Option.some.inj h).trans hvalue
      exact absurd ⟨by omega, by omega⟩ hkept
    | ratio q => rfl
    | _ => cases h

end Constant

namespace Pass

variable {s : Store} {x : Operand} {v : Constant} {a : ℚ}

lemma indexProblem?_eq_none_iff (hx : x.mode = .constant v) (htype : x.type.any s.isInteger)
    (h : v.HasParts a b) (hkept : v.Kept) : indexProblem? s x (some n) = none ↔
      ∃ i, IsPosition a b i ∧ (if v.kind = .int then i else 0) < n := by
  have hposition := h.isPosition_iff hkept
  simp only [indexProblem?, htype, hx, Bool.not_true, Bool.false_eq_true, if_false, h.isUnknown]
  by_cases hok : ¬v.sign < 0 ∧ v.fits .int .integer
  · obtain ⟨i, hi⟩ := hposition.mp hok
    have hone : (∃ j, IsPosition a b j ∧ (if v.kind = .int then j else 0) < n) ↔
        (if v.kind = .int then i else 0) < n := by
      refine ⟨?_, fun hlt => ⟨i, hi, hlt⟩⟩
      rintro ⟨j, hj, hlt⟩
      obtain rfl : j = i := by exact_mod_cast hj.1.symm.trans hi.1
      exact hlt
    have hnonneg : 0 ≤ if v.kind = .int then i else 0 := by split <;> simp [hi.2.2.1]
    rw [if_neg hok.1, hok.2, h.int64?_eq hkept hi, hone]
    generalize (if v.kind = .int then i else 0) = k at hnonneg
    simp [hnonneg]
  · have hnone : ¬∃ i, IsPosition a b i ∧ (if v.kind = .int then i else 0) < n := by
      rintro ⟨i, hi, -⟩
      exact hok (hposition.mpr ⟨i, hi⟩)
    rw [iff_false_right hnone]
    rw [not_and_or, not_not] at hok
    rcases hok with hsign | hfits
    · simp [hsign]
    · split <;> simp_all

lemma isWarning_indexProblem?
    (h : indexProblem? s x length = some p) : p.fault.isWarning = false := by
  unfold indexProblem? at h
  repeat' split at h
  all_goals first
    | (cases h; rfl)
    | cases h
    | skip
  obtain ⟨n, -, h⟩ := Option.bind_eq_some_iff.mp h
  split at h
  · cases h
    rfl
  · cases h

lemma implicit_int (hs : s.HasBasics) (hx : x.mode = .constant v) (ht : x.type = some t)
    (hu : s.isUntyped t) : ∃ k, s.implicit x (.basic .int) =
      (v.heldBy? .int).elim (.error k) fun w => .ok ⟨some (.basic .int), some w⟩ := by
  have hint := hs .int
  have hunder : s.underlying (.basic .int) = .basic .int :=
    underlyingWithin_of_beneath_none (by rw [hint]; rfl) _
  have hvalid := isInvalid_of_basic hint (by decide)
  have htyped : s.isUntyped (.basic .int) = false := by rw [isUntyped, hint]; rfl
  refine ⟨s.misfit t (.basic .int), ?_⟩
  simp only [implicit, implicitWith, ht, hu, hvalid, htyped, Operand.isInvalid,
    Operand.isNil, hx, shape_of_basic hint, implicitBasic, represented, hunder, hint]
  cases hheld : v.heldBy? .int <;>
    simp [Mode.constant?, Mode.isConstant, Ty.basic?, Operand.typeOrInvalid, ht, hheld]

variable {c : Checker} {y : Operand}

/-- What is done with an index once it has been evaluated. -/
def judge (y : Operand) (n : Nat) : Pass Unit := do
  let x ← convertUntyped y (.basic .int)
  unless x.isInvalid do
    (indexProblem? (← entities) x (some n)).forM fun p => report p x.span

lemma emitted_judge_of_error (h : c.store.implicit y (.basic .int) = .error k) :
    ∃ r, (judge y n).emitted c = [r] ∧ r.isError := by
  obtain ⟨value, type, hrun⟩ : ∃ value type, (convertUntyped y (.basic .int)).1 c =
      (y.invalidated, ((report (.misfit k value type) y.span).1 c).2) := by
    rw [convertUntyped, entities_bind_run, h]
    exact ⟨_, _, rfl⟩
  refine ⟨(Problem.misfit k value type).report y.span, ?_,
    isError_report (implicit_error h).isError⟩
  rw [judge, emitted, bind_run, hrun]
  exact emitted_emit

/-- Once a constant has the type of an index, it is reported once unless it is in range. -/
lemma emitted_judge_of_ok (h : c.store.implicit y (.basic .int) = .ok i)
    (hx : { y with mode := i.value.elim y.mode .constant, type := i.type } = x)
    (hmode : x.mode = .constant v) (htype : x.type.any c.store.isInteger)
    (hparts : v.HasParts a b) (hkept : v.Kept) :
    ((judge y n).emitted c = [] ↔
      ∃ i, IsPosition a b i ∧ (if v.kind = .int then i else 0) < n) ∧
    ((judge y n).emitted c ≠ [] → ∃ r, (judge y n).emitted c = [r] ∧ r.isError) := by
  obtain ⟨info, hrun⟩ : ∃ info, (convertUntyped y (.basic .int)).1 c = (x, { c with info }) := by
    subst hx
    rw [convertUntyped, entities_bind_run, h]
    exact ⟨_, rfl⟩
  have hforM (o : Option Problem) : (o.forM fun p => report p x.span).emitted { c with info } =
      (o.map (·.report x.span)).toList := by
    cases o with
    | none => exact emitted_eq_nil rfl
    | some p => exact emitted_emit
  have hemitted : (judge y n).emitted c =
      ((indexProblem? c.store x (some n)).map (·.report x.span)).toList := by
    rw [judge, emitted, bind_run, hrun]
    rw [if_neg (by simp [Operand.isInvalid, hmode])]
    exact hforM _
  rw [hemitted, ← indexProblem?_eq_none_iff hmode htype hparts hkept]
  cases hproblem : indexProblem? c.store x (some n) with
  | none => simp
  | some p => exact ⟨by simp, fun _ => ⟨_, rfl, isError_report (isWarning_indexProblem? hproblem)⟩⟩

/-- An untyped constant becomes an `int` first, if it is one at all. -/
lemma emitted_judge_of_isUntyped (hs : c.store.HasBasics) (hy : y.mode = .constant v)
    (ht : y.type = some t) (hu : c.store.isUntyped t) (h : v.HasParts a b) (hkept : v.Kept) :
    ((judge y n).emitted c = [] ↔ ∃ i, IsPosition a b i ∧ i < n) ∧
    ((judge y n).emitted c ≠ [] → ∃ r, (judge y n).emitted c = [r] ∧ r.isError) := by
  obtain ⟨k, himplicit⟩ := implicit_int hs hy ht hu
  rw [heldBy?, h.represent_eq hkept rfl] at himplicit
  by_cases hin : b = 0 ∧ a.den = 1 ∧ BasicKind.int.includes a.num
  · rw [if_pos hin] at himplicit
    obtain ⟨rfl, hden, -⟩ := hin
    obtain ⟨hkind, hkept', hexact⟩ := ofInt_kept a.num
    rw [(Rat.den_eq_one_iff a).mp hden] at hexact
    have hinteger : c.store.isInteger (.basic .int) := by
      rw [isInteger, family?, shape_of_basic (hs .int)]
      rfl
    have hjudged := emitted_judge_of_ok (n := n) himplicit rfl rfl hinteger (.real hexact) hkept'
    rwa [hkind] at hjudged
  · -- what is no `int` is refused by the conversion, and never compared with the length
    rw [if_neg hin] at himplicit
    obtain ⟨r, hr, herror⟩ := emitted_judge_of_error (n := n) himplicit
    rw [hr]
    refine ⟨iff_of_false (List.cons_ne_nil r []) ?_, fun _ => ⟨r, rfl, herror⟩⟩
    rintro ⟨i, ⟨rfl, rfl, hnonneg, hle⟩, -⟩
    refine hin ⟨rfl, Rat.den_intCast i, (includes_iff rfl).mpr ?_⟩
    rw [Rat.num_intCast]
    omega

lemma indexing_of_hasLength (h : s.HasLength x n) :
    ∃ mode elem, indexing s x = .list mode elem (some n) := by
  cases h with
  | array h =>
    simp only [indexing, h]
    exact ⟨_, _, rfl⟩
  | pointer h h' =>
    simp only [indexing, h, h']
    exact ⟨_, _, rfl⟩
  | string h hk hmode =>
    simp only [indexing, h, hk, hmode, if_true]
    exact ⟨_, _, rfl⟩

end Pass

/-- Nothing is reported about a constant index exactly if it denotes an integer that is no less than
zero, less than the length and of 64 bits with the sign, and else one error is. Only a typed constant
that is not in the form of integers is compared with the length as if it were zero. -/
theorem constant_index_checked {c d d' : Checker} {base : Pass Evaluated} {index : Pending}
    {x y : Operand} {n : Nat} {t : TypeId} {v : Constant} {a b : ℚ}
    (hbase : (value base).1 c = (x, d)) (hvalid : x.isInvalid = false)
    (hlength : d.store.HasLength x n) (hindex : (value index.eval).1 d = (y, d'))
    (hs : d'.store.HasBasics) (hy : y.mode = .constant v) (ht : y.type = some t)
    (htype : d'.store.isUntypedNumeric t ∨ d'.store.isInteger t)
    (h : v.HasParts a b) (hkept : v.Kept) :
    ∃ rest, (indexInto base index).emitted c =
        (value base).emitted c ++ ((value index.eval).emitted d ++ rest) ∧
      (rest = [] ↔ ∃ i, IsPosition a b i ∧
        (if v.kind = .int ∨ d'.store.isUntyped t then i else 0) < n) ∧
      (rest ≠ [] → ∃ r, rest = [r] ∧ r.isError) := by
  refine ⟨(judge y n).emitted d', ?_, ?_⟩
  · obtain ⟨mode, elem, hlist⟩ := indexing_of_hasLength hlength
    rw [indexInto, emitted_bind, hbase]
    congr 1
    dsimp only
    rw [if_neg (by simp [hvalid]), emitted_entities_bind, hlist]
    have hjudge : checkIndex index.eval (some n) = value index.eval >>= (judge · n) := rfl
    rw [emitted_bind, hjudge, emitted_bind, hindex, emitted_eq_nil (m := pure _) rfl, List.append_nil]
  by_cases huntyped : d'.store.isUntyped t
  · simp only [huntyped, or_true, if_true]
    exact emitted_judge_of_isUntyped hs hy ht huntyped h hkept
  · have hinteger : d'.store.isInteger t := by
      refine htype.resolve_left fun hnumeric => huntyped ?_
      obtain ⟨k, hk, hboth⟩ := (Option.any_eq_true _ _).mp hnumeric
      exact (Option.any_eq_true _ _).mpr ⟨k, hk, (Bool.and_eq_true_iff.mp hboth).1⟩
    have himplicit : d'.store.implicit y (.basic .int) = .ok ⟨some t, none⟩ := by
      simp [implicit, implicitWith, ht, huntyped]
    simp only [huntyped, Bool.false_eq_true, or_false]
    exact emitted_judge_of_ok himplicit (by rw [← ht]; rfl) hy (by rw [ht]; exact hinteger) h hkept

/-- In `"ab"[2]` the index is reported. -/
theorem constant_index_checked_text :
    let text : Operand := { mode := .constant (.string "ab"), type := some (.basic .untypedString) }
    let index : Pending :=
      ⟨.lit ⟨1, ⟨5, 6⟩⟩ .int (some "2"), pure (BuiltSession.untypedInt 2, .expression)⟩
    ∃ r, (indexInto (pure (text, .expression)) index).emitted (.start {}) = [r] ∧ r.isError := by
  intro text index
  have hs : (Checker.start {}).store.HasBasics := (BuiltSession.start {}).hasBasics (.refl _)
  have hlength : (Checker.start {}).store.HasLength text "ab".utf8ByteSize :=
    .string (shape_of_basic (hs .untypedString)) rfl rfl
  have hnumeric : (Checker.start {}).store.isUntypedNumeric (.basic .untypedInt) := by
    decide +kernel
  have hindex : (value index.eval).1 (.start {}) = (BuiltSession.untypedInt 2, .start {}) := rfl
  have hbase : (value (pure (text, .expression))).1 (.start {}) = (text, .start {}) := rfl
  obtain ⟨rest, hall, hiff, herror⟩ :=
    constant_index_checked hbase rfl hlength hindex hs rfl rfl (.inl hnumeric) (.real rfl) trivial
  rw [hall]
  refine herror fun hnone => ?_
  obtain ⟨i, ⟨hi, -⟩, hlt⟩ := hiff.mp hnone
  obtain rfl : 2 = i := by exact_mod_cast hi
  revert hlt
  decide

/-- With a host's constant `c` of type `int`, kept as the fraction 3/1, nothing is reported about
`"ab"[c]`. -/
theorem fraction_index_unchecked :
    let c := ((Check.declareConst "c" (.basic .int) (.ratio 3)).run (Checker.start {})).2
    let index := Expr.ident ⟨1, ⟨5, 6⟩⟩ ⟨some "c", ⟨5, 6⟩⟩
    let text := Expr.lit ⟨2, ⟨0, 4⟩⟩ .string (some "\"ab\"")
    (index.eval.1 c).1.1.mode = .constant (.ratio 3) ∧ (index.eval.1 c).1.1.type = some (.basic .int) ∧
      (text.eval.1 c).1.1.mode = .constant (.string "ab") ∧
      (Expr.index ⟨0, ⟨0, 7⟩⟩ text index).eval.emitted c = [] := by
  decide +kernel

end GoCheck
