import GoCheck.Proofs.Regular.Statements

/-!
# Undeclared names

An undeclared name is reported where it is written, once for each time that it is looked up: once,
or again in the base of a selector as a target if that is no storage. The proof keeps an account for
one place in the program. What a pass puts off is paid for at once, so bodies are checked for free
when the statement is done.
-/

namespace GoCheck

open List

/-- A report that the name at a place is not declared. -/
def Diagnostic.isUndeclaredAt (span : Span) (d : Diagnostic) : Bool :=
  d.isOf .undeclaredName && d.primarySpan? = some span

/-- How often names are written at a place. -/
def namesAt (span : Span) (is : List Ident) : Nat := is.countP (·.span = span)

/-- How often names are written at a place in bodies that have been put off. -/
def namesPutOff (span : Span) (ds : List Deferred) : Nat :=
  namesAt span (ds.flatMap fun d => blockNames true d.body)

lemma namesAt_append (span : Span) (is js : List Ident) :
    namesAt span (is ++ js) = namesAt span is + namesAt span js :=
  countP_append

lemma namesPutOff_append (span : Span) (ds es : List Deferred) :
    namesPutOff span (ds ++ es) = namesPutOff span ds + namesPutOff span es := by
  rw [namesPutOff, flatMap_append, namesAt_append]
  rfl

namespace Pass

variable {α : Type} {m : Pass α} {f : α → Pass β} {span : Span}

/-- A pass that reports undeclared names at a place `n` times at most, with those in bodies put
off. -/
def Spends (span : Span) (n : Nat) (m : Pass α) : Prop :=
  ∀ c, ∃ ds, (m.1 c).2.deferred = c.deferred ++ ds ∧
    (m.emitted c).countP (·.isUndeclaredAt span) + namesPutOff span ds ≤ n

lemma spends_of_eq (h : ∀ c, (m.1 c).2.deferred = c.deferred ∧ (m.1 c).2.sink = c.sink) :
    m.Spends span 0 := by
  intro c
  refine ⟨[], by simp [(h c).1], ?_⟩
  rw [emitted_eq_nil (h c).2]
  exact le_refl 0

lemma spends_pure (a : α) : (pure a : Pass α).Spends span 0 := spends_of_eq fun _ => ⟨rfl, rfl⟩

lemma Spends.mono (h : m.Spends span n) (hle : n ≤ k) : m.Spends span k := by
  intro c
  obtain ⟨ds, hds, hcount⟩ := h c
  exact ⟨ds, hds, le_trans hcount hle⟩

lemma Spends.bind (hm : m.Spends span n) (hf : ∀ a, (f a).Spends span k) :
    (m >>= f).Spends span (n + k) := by
  intro c
  obtain ⟨ds, hds, hm⟩ := hm c
  obtain ⟨es, hes, hf⟩ := hf (m.1 c).1 (m.1 c).2
  refine ⟨ds ++ es, ?_, ?_⟩
  · rw [bind_run, hes, hds, append_assoc]
  · rw [emitted_bind, countP_append, namesPutOff_append]
    omega

lemma spends_emit (h : d.isOf .undeclaredName = false) : (emit d).Spends span 0 := by
  intro c
  refine ⟨[], by simp [emit, step], ?_⟩
  rw [emitted_emit, countP_singleton, Diagnostic.isUndeclaredAt, h]
  exact le_refl 0

lemma spends_forM {l : List α} {g : α → Pass PUnit} (h : ∀ a, (g a).Spends span 0) :
    (l.forM g).Spends span 0 := by
  induction l with
  | nil => exact spends_pure _
  | cons a l ih => exact (h a).bind fun _ => ih

lemma spends_undefined (i : Ident) :
    (report (.undefined i.text) i.span).Spends span (namesAt span [i]) := by
  intro c
  refine ⟨[], by simp [report, emit, step], ?_⟩
  have hemitted : (report (.undefined i.text) i.span).emitted c =
      [(Problem.undefined i.text).report i.span] := emitted_emit
  have hplace : ((Problem.undefined i.text).report i.span).isUndeclaredAt span =
      decide (i.span = span) := by
    rw [Diagnostic.isUndeclaredAt, Problem.isOf_report]
    simp [Problem.fault, Problem.report, Fault.report, Fault.withMessage, Diagnostic.withLabel,
      Diagnostic.primarySpan?]
  rw [hemitted, countP_singleton, hplace]
  simp [namesAt, namesPutOff]

lemma spends_checkUsage (scope : ScopeId) : (checkUsage scope).Spends span 0 := by
  intro c
  have hall : ((c.store.unusedVars scope).forM fun o =>
      report (.unusedVariable (c.store.object o).name) (c.store.object o).span).Spends span 0 :=
    spends_forM fun _ => spends_emit (by simp [Problem.isOf_report, Problem.fault])
  by_cases hset : c.config.reportUnused
  · have hrun : (checkUsage scope).1 c = ((c.store.unusedVars scope).forM fun o =>
        report (.unusedVariable (c.store.object o).name) (c.store.object o).span).1 c := by
      rw [checkUsage, current_bind_run, if_pos hset]
    simpa only [emitted, hrun] using hall c
  · have hrun : (checkUsage scope).1 c = (pure () : Pass Unit).1 c := by
      rw [checkUsage, current_bind_run, if_neg hset]
    simpa only [emitted, hrun] using spends_pure () c

lemma spends_trace {g : Checker → Pass Unit}
    (hg : ∀ c, ((g c).1 c).2.deferred = c.deferred ∧ ((g c).1 c).2.sink = c.sink) :
    (current >>= fun c => if c.config.trace then g c else pure ()).Spends span 0 := by
  apply spends_of_eq
  intro c
  rw [current_bind_run]
  by_cases hset : c.config.trace
  · rw [if_pos hset]
    exact hg c
  · rw [if_neg hset]
    exact ⟨rfl, rfl⟩

variable {run : Deferred → Pass Unit}

lemma spends_bodies (hrun : ∀ d, (run d).Spends span (namesAt span (blockNames true d.body)))
    (ds : List Deferred) : (ds.forM run).Spends span (namesPutOff span ds) := by
  induction ds with
  | nil => exact spends_pure _
  | cons d ds ih =>
    have hsplit : namesPutOff span (d :: ds) =
        namesAt span (blockNames true d.body) + namesPutOff span ds :=
      namesPutOff_append span [d] ds ▸ by simp [namesPutOff]
    rw [hsplit]
    exact (hrun d).bind fun _ => ih

/-- The bodies put off by a pass have been paid for when they are checked. -/
lemma spends_settle (hrun : ∀ d, (run d).Spends span (namesAt span (blockNames true d.body)))
    (hm : m.Spends span n) : (deferredCount >>= fun top => m >>= fun a =>
      runDeferred run top >>= fun _ => pure a).Spends span n := by
  intro c
  obtain ⟨ds, hds, hcount⟩ := hm c
  -- the bodies that are checked are those that `m` has put off
  have hdrop : (m.1 c).2.deferred.drop c.deferred.length = ds := by rw [hds, drop_left]
  obtain ⟨es, hes, hbodies⟩ := spends_bodies hrun ds (m.1 c).2
  have hstate : ((deferredCount >>= fun top => m >>= fun a =>
      runDeferred run top >>= fun _ => pure a).1 c).2 =
      { ((ds.forM run).1 (m.1 c).2).2 with
        deferred := ((ds.forM run).1 (m.1 c).2).2.deferred.take c.deferred.length } := by
    rw [← hdrop]
    rfl
  have hemitted : (deferredCount >>= fun top => m >>= fun a =>
      runDeferred run top >>= fun _ => pure a).emitted c =
        m.emitted c ++ (ds.forM run).emitted (m.1 c).2 := by
    apply emitted_eq_of_append
    rw [hstate, ← append_assoc, ← reports_eq_append_emitted m c]
    exact reports_eq_append_emitted (ds.forM run) (m.1 c).2
  refine ⟨[], ?_, ?_⟩
  · rw [hstate, append_nil, hes, hds, append_assoc, take_left]
  · have hnone : namesPutOff span [] = 0 := rfl
    rw [hemitted, countP_append, hnone]
    omega

end Pass

open Pass

/-- Regular passes report undeclared names no more often than they look up names. -/
lemma Regular.spends {counts : Bool} {α : Type} {m : Pass α}
    (h : Regular counts is m) (span : Span) : m.Spends span (namesAt span is) := by
  induction h with
  | pure a => exact spends_pure a
  | bind _ _ ihm ihf =>
    rw [namesAt_append]
    exact ihm.bind ihf
  | weaken _ hsub ih => exact ih.mono hsub.countP_le
  | read _ _ ih => exact fun c => ih c c
  | build b h | store f h | info f h => exact spends_of_eq fun _ => ⟨rfl, rfl⟩
  | emit hplain => exact spends_emit hplain.undeclared
  | undefined i => exact spends_undefined i
  | usage scope => exact spends_checkUsage scope
  | traceLine line | indentTrace | unindentTrace => exact spends_trace fun _ => ⟨rfl, rfl⟩
  | log _ => exact spends_of_eq fun _ => ⟨rfl, rfl⟩
  | move context => exact spends_of_eq fun _ => ⟨rfl, rfl⟩
  | note h => exact spends_of_eq fun _ => ⟨rfl, rfl⟩
  | defer d =>
    intro c
    -- nothing is reported yet: the names in the body stay open until it is checked
    refine ⟨[d], rfl, ?_⟩
    rw [emitted_eq_nil rfl]
    simp [namesPutOff]
  | @settle α β is js run m f _ _ _ ihrun ihm ihf =>
    rw [namesAt_append]
    exact (spends_settle ihrun ihm).bind ihf

/-- The names in a statement looked up more than once: in the base of a selector as a target. -/
def Stmt.reread (s : Stmt) : List Ident := (s.names true).diff (s.names false)

lemma namesAt_le_add_diff (span : Span) (is js : List Ident) :
    namesAt span is ≤ namesAt span js + namesAt span (is.diff js) := by
  have hle : (is : Multiset Ident) ≤ js + (is - js) := Multiset.le_add_sub
  have hcount := Multiset.countP_le_of_le (·.span = span) hle
  rw [Multiset.countP_add, Multiset.coe_sub] at hcount
  simpa only [Multiset.coe_countP, namesAt] using hcount

lemma namesAt_eq_count (span : Span) (is : List Ident) :
    namesAt span is = (is.map (·.span)).count span := by
  rw [count_eq_countP, countP_map]
  rfl

/-- In the check of a statement whose names are at different places, an undeclared name is reported
at most as often as it is looked up: once, unless it is in the base of a selector that is assigned
to. -/
theorem Stmt.undeclared_reported_once {s : Stmt} (hplaces : ((s.names false).map (·.span)).Nodup)
    (c : Checker) (span : Span) :
    ((s.check checkLiteral).emitted c).countP (·.isUndeclaredAt span) ≤
        namesAt span (s.names true) ∧
      (span ∉ s.reread.map (·.span) →
        ((s.check checkLiteral).emitted c).countP (·.isUndeclaredAt span) ≤ 1) := by
  obtain ⟨ds, -, hcount⟩ := (Regular.check .checkLiteral s).spends span c
  have hle : ((s.check checkLiteral).emitted c).countP (·.isUndeclaredAt span) ≤
      namesAt span (s.names true) := by omega
  refine ⟨hle, fun hspan => ?_⟩
  -- what is looked up at a place is what is written there, and what is looked up again
  have honce : namesAt span (s.names false) ≤ 1 := by
    rw [namesAt_eq_count]
    exact List.nodup_iff_count_le_one.mp hplaces span
  have hreread : namesAt span s.reread = 0 := by
    rw [namesAt_eq_count]
    exact List.count_eq_zero_of_not_mem hspan
  have hnames := namesAt_le_add_diff span (s.names true) (s.names false)
  rw [Stmt.reread] at hreread
  omega

/-- The type `map[string]struct{ f int }`. -/
def mapOfStructs : Build TypeId := do
  let f ← Build.newField "f" (some (.basic .int)) false
  let elem ← Build.newType (.struct [f])
  Build.newType (.map (.basic .string) elem)

/-- A state with a variable `m` of that type. -/
def structMapState : Checker :=
  let made := (Check.build mapOfStructs).run (.start {})
  (Request.declareVar "m" made.1).answer made.2

/-- `m[missing].f, _ = 1, absent` -/
def elementFieldAssignment : Stmt :=
  .assign ⟨0, 29⟩
    [.selector ⟨0, ⟨0, 12⟩⟩
      (.index ⟨1, ⟨0, 10⟩⟩ (.ident ⟨2, ⟨0, 1⟩⟩ ⟨some "m", ⟨0, 1⟩⟩)
        (.ident ⟨3, ⟨2, 9⟩⟩ ⟨some "missing", ⟨2, 9⟩⟩)) ⟨some "f", ⟨11, 12⟩⟩,
      .ident ⟨4, ⟨14, 15⟩⟩ ⟨some "_", ⟨14, 15⟩⟩]
    [.lit ⟨5, ⟨18, 19⟩⟩ .int (some "1"), .ident ⟨6, ⟨21, 27⟩⟩ ⟨some "absent", ⟨21, 27⟩⟩]

/-- The value that is not declared is reported once. -/
theorem elementFieldAssignment_absent :
    ((elementFieldAssignment.names false).map (·.span)).Nodup ∧
      (⟨21, 27⟩ : Span) ∉ elementFieldAssignment.reread.map (·.span) ∧
      ((elementFieldAssignment.check checkLiteral).emitted structMapState).countP
        (·.isUndeclaredAt ⟨21, 27⟩) = 1 := by
  have hplaces : ((elementFieldAssignment.names false).map (·.span)).Nodup := by decide
  have hspan : (⟨21, 27⟩ : Span) ∉ elementFieldAssignment.reread.map (·.span) := by decide
  refine ⟨hplaces, hspan, Nat.le_antisymm ?_ ?_⟩
  · exact (Stmt.undeclared_reported_once hplaces structMapState ⟨21, 27⟩).2 hspan
  · decide +kernel

/-- The index in the base of the target is reported twice, although its name is written once. -/
theorem elementFieldAssignment_missing :
    ((elementFieldAssignment.names false).map (·.span)).Nodup ∧
      ((elementFieldAssignment.check checkLiteral).emitted structMapState).countP
        (·.isUndeclaredAt ⟨2, 9⟩) = 2 := by
  decide +kernel

end GoCheck
