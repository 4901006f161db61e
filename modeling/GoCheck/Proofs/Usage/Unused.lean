import GoCheck.Proofs.Visibility.Tree
import Mathlib.Data.Set.Card

/-!
# Reports of unused variables

The unused variables of a body are those of its scopes, from the outside in. The scopes of the body
are met once, since scopes form a tree, and a scope has a variable once, since names are distinct.
-/

namespace GoCheck

open List Pass

namespace Store

variable {s s' : Store} {x y : ScopeId}

/-- The blocks in a scope, without function literals. -/
def innerBlocks (s : Store) (x : ScopeId) : List ScopeId :=
  (s.scope x).children.filter fun y => !(s.scope y).isFunc

/-- A scope is `x` or is reached from it without going into a function literal. -/
def InBody (s : Store) (x y : ScopeId) : Prop := Relation.ReflTransGen (· ∈ s.innerBlocks ·) y x

/-- The scopes of a body, from the outside in, at most `n` blocks deep. -/
def bodyWithin (s : Store) : Nat → ScopeId → List ScopeId
  | 0, _ => []
  | n + 1, x => x :: (s.innerBlocks x).flatMap (s.bodyWithin n)

lemma unusedWithin_eq_flatMap (n : Nat) (x : ScopeId) :
    s.unusedWithin n x = (s.bodyWithin n x).flatMap s.unusedHere := by
  induction n generalizing x with
  | zero => rfl
  | succ n ih =>
    simp only [unusedWithin, bodyWithin, flatMap_cons, flatMap_assoc, funext ih, innerBlocks]

lemma unusedWithin_of_size_le (hx : s.scopes.size ≤ x.index) (n : Nat) : s.unusedWithin n x = [] := by
  cases n with
  | zero => rfl
  | succ n => simp [unusedWithin, unusedHere, scope_of_size_le hx, default]

/-- Where inner blocks have greater numbers, a search need not go deeper than there are numbers
left. -/
lemma unusedWithin_eq {P : ScopeId → Prop}
    (hinner : ∀ x, P x → ∀ y ∈ (s.scope x).children, P y ∧ x.index < y.index) (hx : P x)
    (hm : s.scopes.size ≤ x.index + m) (hn : s.scopes.size ≤ x.index + n) :
    s.unusedWithin m x = s.unusedWithin n x := by
  induction m generalizing x n with
  | zero => rw [unusedWithin_of_size_le (x := x) hm, unusedWithin_of_size_le (x := x) hm]
  | succ m ih =>
    cases n with
    | zero => rw [unusedWithin_of_size_le (x := x) hn, unusedWithin_of_size_le (x := x) hn]
    | succ n =>
      simp only [unusedWithin]
      congr 1
      refine flatMap_congr fun y hy => ?_
      obtain ⟨hy, hlater⟩ := hinner x hx y (mem_filter.mp hy).1
      exact ih hy (by omega) (by omega)

lemma InBody.of_mem_bodyWithin (h : y ∈ s.bodyWithin n x) : s.InBody x y := by
  induction n generalizing x with
  | zero => simp [bodyWithin] at h
  | succ n ih =>
    rcases mem_cons.mp h with rfl | h
    · exact .refl
    · obtain ⟨z, hz, hy⟩ := mem_flatMap.mp h
      exact .tail (ih hy) hz

namespace IsTree

variable (hs : s.IsTree)
include hs

lemma index_lt_of_child (hy : y ∈ (s.scope x).children) : x.index < y.index :=
  hs.nested y x (hs.parent x y hy).1

lemma encloses_of_inBody (h : s.InBody x y) : s.Encloses x y :=
  Relation.ReflTransGen.mono (fun _ _ hblock => (hs.parent _ _ (mem_filter.mp hblock).1).1) _ _ h

lemma nodup_children (x : ScopeId) : (s.scope x).children.Nodup :=
  nodup_iff_count_eq_one.mpr fun y hy => hs.listed y x (hs.parent x y hy).1 (hs.parent x y hy).2

/-- No scope lies in two scopes of the same scope. -/
lemma eq_of_encloses (ha : a ∈ (s.scope x).children) (hb : b ∈ (s.scope x).children)
    (hay : s.Encloses a y) (hby : s.Encloses b y) : a = b := by
  have hsibling : ∀ a b, a ∈ (s.scope x).children → b ∈ (s.scope x).children → s.Encloses a b →
      a = b := by
    intro a b ha hb hab
    rcases encloses_iff.mp hab with rfl | ⟨p, hp, hout⟩
    · rfl
    · obtain rfl := Option.some.inj ((hs.parent x b hb).1.symm.trans hp)
      exact absurd (hout.index_le hs.nested) (Nat.not_le.mpr (hs.index_lt_of_child ha))
  have huniq : Relator.RightUnique fun a b : ScopeId => (s.scope a).parent = some b :=
    fun _ _ _ h h' => Option.some.inj (h.symm.trans h')
  rcases hay.total_of_right_unique huniq hby with h | h
  · exact (hsibling b a hb ha h).symm
  · exact hsibling a b ha hb h

lemma nodup_bodyWithin (n : Nat) (x : ScopeId) : (s.bodyWithin n x).Nodup := by
  induction n generalizing x with
  | zero => exact nodup_nil
  | succ n ih =>
    refine nodup_cons.mpr ⟨fun hx => ?_, nodup_flatMap.mpr ⟨fun y _ => ih y, ?_⟩⟩
    · obtain ⟨y, hy, hx⟩ := mem_flatMap.mp hx
      have hle := (hs.encloses_of_inBody (.of_mem_bodyWithin hx)).index_le hs.nested
      exact absurd hle (Nat.not_le.mpr (hs.index_lt_of_child (mem_filter.mp hy).1))
    · refine ((hs.nodup_children x).filter _).imp_of_mem fun ha hb hne z hza hzb => hne ?_
      exact hs.eq_of_encloses (mem_filter.mp ha).1 (mem_filter.mp hb).1
        (hs.encloses_of_inBody (.of_mem_bodyWithin hza))
        (hs.encloses_of_inBody (.of_mem_bodyWithin hzb))

lemma mem_bodyWithin_iff (hclosed : s.Closed false) (hx : s.HasScope x)
    (hn : s.scopes.size ≤ x.index + n) : y ∈ s.bodyWithin n x ↔ s.InBody x y := by
  refine ⟨.of_mem_bodyWithin, fun h => ?_⟩
  induction n generalizing x with
  | zero => exact absurd hn (Nat.not_le.mpr hx)
  | succ n ih =>
    rcases Relation.ReflTransGen.cases_tail h with rfl | ⟨z, hzy, hz⟩
    · exact mem_cons_self
    · have hchild := (mem_filter.mp hz).1
      have hlater := hs.index_lt_of_child hchild
      exact mem_cons_of_mem _
        (mem_flatMap.mpr ⟨z, hz, ih (hclosed.child x z hchild) (by omega) hzy⟩)

/-- The variables of a scope come first, then those of each block in it. -/
lemma unusedVars_eq (x : ScopeId) :
    s.unusedVars x = s.unusedHere x ++ (s.innerBlocks x).flatMap s.unusedVars := by
  have hinner : ∀ x, True → ∀ y ∈ (s.scope x).children, True ∧ x.index < y.index :=
    fun _ _ _ hy => ⟨trivial, hs.index_lt_of_child hy⟩
  calc s.unusedVars x = s.unusedWithin (s.scopes.size + 1) x :=
        unusedWithin_eq hinner trivial (by omega) (by omega)
    _ = _ := rfl

end IsTree

/-- A scope has a variable that is not used. -/
def LeavesUnused (s : Store) (x : ScopeId) (o : ObjectId) : Prop :=
  (∃ name, (name, o) ∈ (s.scope x).bindings) ∧ (s.object o).isVar = true ∧
    (s.object o).isUsed = false

lemma mem_unusedHere_iff : o ∈ s.unusedHere x ↔ s.LeavesUnused x o := by
  simp [unusedHere, LeavesUnused]

lemma pairwise_unusedHere (s : Store) (x : ScopeId) : (s.unusedHere x).Pairwise fun a b =>
    (s.object a).span.start ≤ (s.object b).span.start := by
  refine (pairwise_mergeSort ?_ ?_ _).imp fun h => of_decide_eq_true h
  · intro a b c hab hbc
    simp only [decide_eq_true_eq] at hab hbc ⊢
    omega
  · intro a b
    simp only [Bool.or_eq_true, decide_eq_true_eq]
    omega

lemma IsTree.nodup_unusedHere (hs : s.IsTree) (x : ScopeId) : (s.unusedHere x).Nodup := by
  have hnames : ((s.scope x).bindings.map (·.2)).map (fun o => (s.object o).name) =
      (s.scope x).bindings.map (·.1) := by
    rw [map_map]
    exact map_congr_left (hs.named x)
  have hbound : ((s.scope x).bindings.map (·.2)).Nodup :=
    .of_map _ (hnames ▸ hs.distinct x)
  exact (mergeSort_perm _ _).nodup_iff.mpr (hbound.filter _)

/-- A variable is listed as often as there are scopes of the body that have it. -/
lemma IsTree.count_unusedVars (hs : s.IsTree) (hclosed : s.Closed false) (hx : s.HasScope x)
    (o : ObjectId) :
    (s.unusedVars x).count o = {y | s.InBody x y ∧ s.LeavesUnused y o}.ncard := by
  have hbody : {y | s.InBody x y ∧ s.LeavesUnused y o} =
      ((s.bodyWithin s.scopes.size x).filter (o ∈ s.unusedHere ·)).toFinset := by
    ext y
    simp [hs.mem_bodyWithin_iff hclosed hx, mem_unusedHere_iff]
  have hcount : ∀ l : List ScopeId,
      (l.flatMap s.unusedHere).count o = (l.filter (o ∈ s.unusedHere ·)).length := by
    intro l
    induction l with
    | nil => rfl
    | cons y l ih =>
      rw [flatMap_cons, count_append, ih, (hs.nodup_unusedHere y).count, filter_cons]
      by_cases ho : o ∈ s.unusedHere y
      · simp [ho, Nat.add_comm]
      · simp [ho]
  rw [unusedVars, unusedWithin_eq_flatMap, hcount, hbody, Set.ncard_coe_finset,
    toFinset_card_of_nodup ((hs.nodup_bodyWithin _ _).filter _)]

/-- Variables that start in different places have only one order. -/
lemma unusedHere_eq_of_perm (hobject : s'.object = s.object)
    (hperm : (s'.scope x).bindings ~ (s.scope x).bindings)
    (hstart : (s.unusedHere x).Pairwise fun a b =>
      (s.object a).span.start ≠ (s.object b).span.start) :
    s'.unusedHere x = s.unusedHere x := by
  have hsame : s'.unusedHere x ~ s.unusedHere x := by
    simp only [unusedHere, hobject]
    exact (mergeSort_perm _ _).trans (((hperm.map _).filter _).trans (mergeSort_perm _ _).symm)
  have hsorted := s'.pairwise_unusedHere x
  rw [hobject] at hsorted
  refine hsame.eq_of_pairwise (fun a b ha hb hab hba => ?_) hsorted (s.pairwise_unusedHere x)
  by_contra hne
  have hsymm : Std.Symm fun a b : ObjectId =>
      (s.object a).span.start ≠ (s.object b).span.start := ⟨fun _ _ h => h.symm⟩
  exact hstart.forall (hsame.mem_iff.mp ha) hb hne (Nat.le_antisymm hab hba)

lemma unusedVars_eq_of_perm (hsize : s'.scopes.size = s.scopes.size)
    (hobject : s'.object = s.object)
    (hscope : ∀ y, (s'.scope y).children = (s.scope y).children ∧
      (s'.scope y).isFunc = (s.scope y).isFunc ∧ (s'.scope y).bindings ~ (s.scope y).bindings)
    (hstart : ∀ y, s.InBody x y → (s.unusedHere y).Pairwise fun a b =>
      (s.object a).span.start ≠ (s.object b).span.start) :
    s'.unusedVars x = s.unusedVars x := by
  have hbody : ∀ n x, s'.bodyWithin n x = s.bodyWithin n x := by
    intro n
    induction n with
    | zero => exact fun _ => rfl
    | succ n ih =>
      intro x
      simp only [bodyWithin, innerBlocks, (hscope _).1, (hscope _).2.1, funext ih]
  rw [unusedVars, unusedVars, hsize, unusedWithin_eq_flatMap, unusedWithin_eq_flatMap, hbody]
  exact flatMap_congr fun y hy =>
    unusedHere_eq_of_perm hobject (hscope y).2.2 (hstart y (.of_mem_bodyWithin hy))

/-- The scopes in a scope are listed in the order in which they were made. -/
def ListsInOrder (s : Store) : Prop :=
  ∀ x, (s.scope x).children.Pairwise (·.index < ·.index)

lemma ListsInOrder.construction (hs : s.ListsInOrder) (hclosed : s.Closed false)
    (h : s.Construction s') : s'.ListsInOrder := by
  cases h with
  | newType _ | addPackage _ | addMethod t _ | newObject _ _ | setObject _ _ _ _ => exact hs
  | newScope start stop comment isFunc hparent =>
    intro x
    rw [children_newScope hparent]
    split
    · refine pairwise_append.mpr ⟨hs x, pairwise_singleton _ _, fun y hy z hz => ?_⟩
      rw [mem_singleton.mp hz]
      exact hclosed.child x y hy
    · exact hs x
  | bind _ _ =>
    intro x
    rw [children_bind]
    exact hs x

end Store

lemma Pass.run_forM_emit (f : α → Diagnostic) (l : List α) (c : Checker) :
    ((l.forM fun a => emit (f a)).1 c).2 =
      { c with sink := ⟨c.sink.reports ++ (l.map f).toArray⟩ } := by
  induction l generalizing c with
  | nil => exact congrArg (fun r => { c with sink := ⟨r⟩ }) (Array.append_empty).symm
  | cons a l ih => exact (ih _).trans (by simp [emit, step, Sink.emit])

namespace BuiltSession

variable {c d : Checker} {x : ScopeId}

/-- The report of an unused variable. -/
def unusedReport (s : Store) (o : ObjectId) : Diagnostic :=
  (Problem.unusedVariable (s.object o).name).report (s.object o).span

lemma run_checkUsage (hunused : d.config.reportUnused = true) :
    ((checkUsage x).1 d).2 = { d with sink :=
      ⟨d.sink.reports ++ ((d.store.unusedVars x).map (unusedReport d.store)).toArray⟩ } := by
  rw [checkUsage, current_bind_run, if_pos hunused]
  exact run_forM_emit _ _ d

/-- The check for unused variables, whichever these are, adds warnings to the reports and does
nothing else. There is one for each scope of the body that has the variable, so exactly one for a
variable of one scope, and none for anything else. Those of a scope come first, by where they start,
then those of each block in it, oldest first. If the variables of a scope start in different places,
nothing depends on the order in which scopes list their names. -/
theorem unused_variables_reported (h : BuiltSession c) (hd : c.SafeSteps false d)
    (hx : d.store.HasScope x) (hunused : d.config.reportUnused = true) :
    ((checkUsage x).1 d).2 = { d with sink :=
      ⟨d.sink.reports ++ ((d.store.unusedVars x).map (unusedReport d.store)).toArray⟩ } ∧
    (∀ o, (unusedReport d.store o).isWarning = true) ∧
    (∀ o, (d.store.unusedVars x).count o =
      {y | d.store.InBody x y ∧ d.store.LeavesUnused y o}.ncard) ∧
    (∀ o, (∃! y, d.store.InBody x y ∧ d.store.LeavesUnused y o) →
      (d.store.unusedVars x).count o = 1) ∧
    (∀ y, d.store.unusedVars y =
      d.store.unusedHere y ++ (d.store.innerBlocks y).flatMap d.store.unusedVars) ∧
    (∀ y, (d.store.innerBlocks y).Pairwise (·.index < ·.index) ∧ (d.store.unusedHere y).Pairwise
      fun a b => (d.store.object a).span.start ≤ (d.store.object b).span.start) ∧
    ∀ s' : Store, s'.scopes.size = d.store.scopes.size → s'.object = d.store.object →
      (∀ y, (s'.scope y).children = (d.store.scope y).children ∧
        (s'.scope y).isFunc = (d.store.scope y).isFunc ∧
        (s'.scope y).bindings ~ (d.store.scope y).bindings) →
      (∀ y, d.store.InBody x y → (d.store.unusedHere y).Pairwise fun a b =>
        (d.store.object a).span.start ≠ (d.store.object b).span.start) →
      ((checkUsage x).1 { d with store := s' }).2.sink = ((checkUsage x).1 d).2.sink := by
  have htree := h.isTree hd
  have hclosed := (hd.closed h.closed).store
  have hcount := htree.count_unusedVars hclosed hx
  -- blocks are listed oldest first at the start, and no construction changes this
  have hkeep : ∀ s s' : Store, s.Closed false → s.ListsInOrder → s.Construction s' → s'.ListsInOrder :=
    fun s s' hclosed hs hstep => hs.construction hclosed hstep
  have horder : d.store.ListsInOrder := by
    refine hd.keep_store hkeep h.closed (h.keep (fun y => ?_) hkeep)
    rcases lt_or_ge y.index (Checker.start {}).store.scopes.size with hlt | hge
    · have hstart : ∀ i < (Checker.start {}).store.scopes.size,
          ((Checker.start {}).store.scope ⟨i⟩).children.Pairwise (·.index < ·.index) := by
        decide +kernel
      exact hstart _ hlt
    · simp [Store.scope_of_size_le hge, default]
  refine ⟨run_checkUsage hunused, fun _ => rfl, hcount, fun o ho => ?_,
    htree.unusedVars_eq, fun y => ⟨(horder y).filter _, d.store.pairwise_unusedHere y⟩, ?_⟩
  · obtain ⟨y, hy, honly⟩ := ho
    rw [hcount, Set.ncard_eq_one]
    exact ⟨y, Set.eq_singleton_iff_unique_mem.mpr ⟨hy, honly⟩⟩
  · intro s' hsize hobject hscope hstart
    have hvars := Store.unusedVars_eq_of_perm hsize hobject hscope hstart
    have hreport : unusedReport s' = unusedReport d.store := by
      funext o
      rw [unusedReport, hobject]
      rfl
    rw [run_checkUsage hunused, run_checkUsage (d := { d with store := s' }) hunused]
    simp only [hvars, hreport]

/-- The library with its variable marked as unused. -/
def unusedLibrary : Checker :=
  { libraryState with store := libraryState.store.modifyObject libraryVar (·.setUsed false) }

theorem unusedLibrary_reported : (unusedLibrary.store.unusedVars ⟨2⟩).count libraryVar = 1 ∧
    ((checkUsage ⟨2⟩).1 unusedLibrary).2.sink.reports =
      #[unusedReport unusedLibrary.store libraryVar] := by
  have hsteps : libraryState.SafeSteps false unusedLibrary :=
    .single (.store (.setUsed _ false (by decide +kernel)))
  have hvars : unusedLibrary.store.unusedVars ⟨2⟩ = [libraryVar] := by decide +kernel
  obtain ⟨hrun, -⟩ := unused_variables_reported libraryState_reached hsteps (x := ⟨2⟩)
    (by decide +kernel) (by decide +kernel)
  have hnone : unusedLibrary.sink.reports = #[] := by decide +kernel
  exact ⟨by simp [hvars], by simp [hrun, hvars, hnone]⟩

end BuiltSession

end GoCheck
