import GoCheck.Proofs.Construction
import GoCheck.Proofs.Visibility.Scopes

/-!
# The tree of scopes

A scope lies in an older one, which alone lists it among its children unless it is the outermost
scope. A scope has at most one object for a name, and it bears this name. So the search for a name
outward ends, with what the nearest scope around has for it.
-/

namespace GoCheck

open List Build Store

variable {parent : Option ScopeId} {comment : String} {isFunc : Bool} {start : Nat}

namespace Store

variable {s s' : Store} {x y p : ScopeId}

lemma name_object_bind (s : Store) (x : ScopeId) (o o' : ObjectId) :
    ((s.bind x o).2.object o').name = (s.object o').name := by
  simp only [bind]
  split
  · rfl
  · exact object_modifyObject_keep (P := fun ob => ob.name = (s.object o').name) (fun _ h => h) rfl

/-- The scopes of a store form a tree. The outermost scope does not list its children. -/
structure IsTree (s : Store) : Prop where
  nested : s.Nested
  listed : ∀ x p, (s.scope x).parent = some p → p ≠ universeScope →
    (s.scope p).children.count x = 1
  parent : ∀ p, ∀ x ∈ (s.scope p).children, (s.scope x).parent = some p ∧ p ≠ universeScope
  named : ∀ x, ∀ b ∈ (s.scope x).bindings, (s.object b.2).name = b.1
  distinct : ∀ x, ((s.scope x).bindings.map (·.1)).Nodup

namespace IsTree

variable (hs : s.IsTree)
include hs

/-- Nothing changes for a tree if scopes stay and bound objects keep their names. -/
lemma of_scope_eq (hscope : ∀ x, s'.scope x = s.scope x)
    (hname : ∀ x, ∀ b ∈ (s.scope x).bindings, (s'.object b.2).name = (s.object b.2).name) :
    s'.IsTree where
  nested x p hp := hs.nested x p (hscope x ▸ hp)
  listed x p hp hne := by
    rw [hscope] at hp ⊢
    exact hs.listed x p hp hne
  parent p x hx := by
    rw [hscope] at hx ⊢
    exact hs.parent p x hx
  named x b hb := by
    rw [hscope] at hb
    rw [hname x b hb]
    exact hs.named x b hb
  distinct x := by
    rw [hscope]
    exact hs.distinct x

lemma newScope (hclosed : s.Closed false) (hparent : ∀ p ∈ parent, s.HasScope p) :
    (Build.newScope parent start stop comment isFunc s).2.IsTree where
  nested := hs.nested.newScope parent hparent start stop comment isFunc
  listed x p hp hne := by
    rw [children_newScope hparent]
    rw [parent_newScope] at hp
    split at hp
    · rename_i hx
      obtain rfl : x = ⟨s.scopes.size⟩ := congrArg ScopeId.mk hx
      have hfresh : (s.scope p).children.count ⟨s.scopes.size⟩ = 0 :=
        count_eq_zero.mpr fun hmem => lt_irrefl _ (hclosed.child p _ hmem)
      rw [if_pos ⟨hp, hne⟩, count_append, hfresh, count_singleton_self]
    · rename_i hx
      have hother : List.count x [⟨s.scopes.size⟩] = 0 :=
        count_eq_zero.mpr fun hmem => hx (congrArg ScopeId.index (mem_singleton.mp hmem))
      split
      · rw [count_append, hother, hs.listed x p hp hne]
      · exact hs.listed x p hp hne
  parent p x hx := by
    have hold : x ∈ (s.scope p).children → ((Build.newScope parent start stop comment isFunc
        s).2.scope x).parent = some p ∧ p ≠ Build.universeScope := by
      intro hmem
      rw [parent_newScope, if_neg (ne_of_lt (hclosed.child p x hmem))]
      exact hs.parent p x hmem
    rw [children_newScope hparent] at hx
    split at hx
    · rename_i hp
      rcases mem_append.mp hx with hmem | hnew
      · exact hold hmem
      · obtain rfl := mem_singleton.mp hnew
        rw [parent_newScope, if_pos rfl]
        exact hp
    · exact hold hx
  named x b hb := by
    rw [bindings_newScope] at hb
    simpa [object] using hs.named x b hb
  distinct x := by
    rw [bindings_newScope]
    exact hs.distinct x

lemma bind : (s.bind x o).2.IsTree where
  nested := hs.nested.bind x o
  listed y p hp hne := by
    rw [parent_bind] at hp
    rw [children_bind]
    exact hs.listed y p hp hne
  parent p y hy := by
    rw [children_bind] at hy
    rw [parent_bind]
    exact hs.parent p y hy
  named y b hb := by
    rw [name_object_bind]
    rw [scope_bind] at hb
    split at hb
    · rcases mem_append.mp hb with hold | hnew
      · exact hs.named y b hold
      · rw [mem_singleton.mp hnew]
    · exact hs.named y b hb
  distinct y := by
    rw [scope_bind]
    split
    · rename_i hfree
      obtain ⟨hnone, rfl, -⟩ := hfree
      -- The name is free, so it is none of those that the scope has.
      have hnew : (s.object o).name ∉ (s.scope x).bindings.map (·.1) := by
        intro hmem
        obtain ⟨b, hb, hname⟩ := mem_map.mp hmem
        have hdiffers := lookup_eq_none_iff.mp hnone b hb
        simp [hname] at hdiffers
      simp only [map_append, map_cons, map_nil]
      exact nodup_append.mpr ⟨hs.distinct x, nodup_singleton _, by
        rintro a ha b hb rfl
        exact hnew (mem_singleton.mp hb ▸ ha)⟩
    · exact hs.distinct y

lemma construction (hclosed : s.Closed false) (h : s.Construction s') : s'.IsTree := by
  cases h with
  | newType _ | addPackage _ | addMethod t _ => exact hs.of_scope_eq (fun _ => rfl) fun _ _ _ => rfl
  | newObject _ _ =>
    refine hs.of_scope_eq (fun _ => rfl) fun x b hb => ?_
    rw [object_newObject, if_neg (ne_of_lt (hclosed.bound x b hb))]
  | newScope start stop comment isFunc hparent => exact hs.newScope hclosed hparent
  | bind _ _ => exact hs.bind
  | setObject _ hname _ _ =>
    refine hs.of_scope_eq (fun _ => rfl) fun x b _ => ?_
    exact object_modifyObject_keep (fun ob hob => (hname ob).trans hob) rfl

end IsTree

/-- Only the scopes in a store matter. -/
lemma isTree_of_forall_lt (hnested : ∀ i < s.scopes.size, ∀ p ∈ (s.scope ⟨i⟩).parent, p.index < i)
    (hlisted : ∀ i < s.scopes.size, ∀ p ∈ (s.scope ⟨i⟩).parent, p ≠ universeScope →
      (s.scope p).children.count ⟨i⟩ = 1)
    (hparent : ∀ i < s.scopes.size, ∀ x ∈ (s.scope ⟨i⟩).children,
      (s.scope x).parent = some ⟨i⟩ ∧ (⟨i⟩ : ScopeId) ≠ universeScope)
    (hnamed : ∀ i < s.scopes.size, ∀ b ∈ (s.scope ⟨i⟩).bindings, (s.object b.2).name = b.1)
    (hdistinct : ∀ i < s.scopes.size, ((s.scope ⟨i⟩).bindings.map (·.1)).Nodup) : s.IsTree := by
  have hcases : ∀ x, x.index < s.scopes.size ∨ s.scope x = default := fun x =>
    (lt_or_ge x.index s.scopes.size).imp_right scope_of_size_le
  refine ⟨fun x p hp => ?_, fun x p hp => ?_, fun p x hx => ?_, fun x b hb => ?_, fun x => ?_⟩
  · rcases hcases x with hlt | hnone
    · exact hnested x.index hlt p hp
    · simp [hnone] at hp
  · rcases hcases x with hlt | hnone
    · exact hlisted x.index hlt p hp
    · simp [hnone] at hp
  · rcases hcases p with hlt | hnone
    · exact hparent p.index hlt x hx
    · simp [hnone, default] at hx
  · rcases hcases x with hlt | hnone
    · exact hnamed x.index hlt b hb
    · simp [hnone, default] at hb
  · rcases hcases x with hlt | hnone
    · exact hdistinct x.index hlt
    · simp [hnone, default]

/-- A scope is another one or lies around it. -/
def Encloses (s : Store) (y x : ScopeId) : Prop :=
  Relation.ReflTransGen (fun a b => (s.scope a).parent = some b) x y

/-- The nearest scope around `x` that has a name: every other one with the name lies around it. -/
structure IsNearest (s : Store) (x : ScopeId) (name : String) (y : ScopeId) (o : ObjectId) : Prop where
  encloses : s.Encloses y x
  bound : (s.scope y).find? name = some o
  nearest : ∀ z, s.Encloses z x → ((s.scope z).find? name).isSome = true → s.Encloses z y

lemma encloses_iff : s.Encloses y x ↔ x = y ∨ ∃ p, (s.scope x).parent = some p ∧ s.Encloses y p :=
  Relation.ReflTransGen.cases_head_iff

/-- Seen from a scope that does not have the name, the nearest scope is that seen from its parent. -/
lemma isNearest_iff_of_none (h : (s.scope x).find? name = none) :
    s.IsNearest x name y o ↔ ∃ p, (s.scope x).parent = some p ∧ s.IsNearest p name y o := by
  constructor
  · intro hn
    rcases encloses_iff.mp hn.encloses with rfl | ⟨p, hp, hrest⟩
    · cases h.symm.trans hn.bound
    · exact ⟨p, hp, hrest, hn.bound, fun z hz => hn.nearest z (encloses_iff.mpr (.inr ⟨p, hp, hz⟩))⟩
  · rintro ⟨p, hp, hn⟩
    refine ⟨encloses_iff.mpr (.inr ⟨p, hp, hn.encloses⟩), hn.bound, fun z hz hbound => ?_⟩
    rcases encloses_iff.mp hz with rfl | ⟨q, hq, hrest⟩
    · simp [h] at hbound
    · cases hp.symm.trans hq
      exact hn.nearest z hrest hbound

section

variable (hs : s.Nested)
include hs

lemma Encloses.index_le (h : s.Encloses y x) : y.index ≤ x.index := by
  induction h with
  | refl => exact le_rfl
  | tail _ hstep ih => exact le_trans (le_of_lt (hs _ _ hstep)) ih

lemma Encloses.antisymm (h : s.Encloses y x) (h' : s.Encloses x y) : x = y :=
  congrArg ScopeId.mk (le_antisymm (h'.index_le hs) (h.index_le hs))

lemma isNearest_iff_of_some (h : (s.scope x).find? name = some o') :
    s.IsNearest x name y o ↔ x = y ∧ o' = o := by
  constructor
  · intro hn
    obtain rfl := hn.encloses.antisymm hs (hn.nearest x .refl (by simp [h]))
    exact ⟨rfl, Option.some.inj (h.symm.trans hn.bound)⟩
  · rintro ⟨rfl, rfl⟩
    exact ⟨.refl, h, fun z hz _ => hz⟩

lemma wellFounded_parent : WellFounded fun p x : ScopeId => (s.scope x).parent = some p :=
  Subrelation.wf (fun {p x} h => hs x p h) (measure ScopeId.index).wf

/-- A search stops in a scope that has the name and goes on outward from any other. -/
lemma resolve?_eq (x : ScopeId) (name : String) : s.resolve? x name =
    (((s.scope x).find? name).map fun o => (x, o)).or
      ((s.scope x).parent.bind fun p => s.resolve? p name) := by
  unfold resolve?
  rcases lt_or_ge x.index s.scopes.size with hlt | hge
  · obtain ⟨n, hn⟩ : ∃ n, s.scopes.size = n + 1 := ⟨s.scopes.size - 1, by omega⟩
    rw [hn, resolveWithin]
    cases (s.scope x).find? name with
    | some o => rfl
    | none =>
      cases hp : (s.scope x).parent with
      | none => rfl
      | some p =>
        have hsmall := hs x p hp
        exact resolveWithin_eq hs (by omega) (by omega)
  · cases hn : s.scopes.size with
    | zero | succ n => simp [resolveWithin, scope_of_size_le hge, Scope.find?, default]

lemma resolve?_eq_some_iff : s.resolve? x name = some (y, o) ↔ s.IsNearest x name y o := by
  induction x using (wellFounded_parent hs).induction with
  | _ x ih =>
    rw [resolve?_eq hs]
    cases hfind : (s.scope x).find? name with
    | some o' =>
      rw [isNearest_iff_of_some hs hfind]
      simp
    | none =>
      rw [isNearest_iff_of_none hfind]
      cases hp : (s.scope x).parent with
      | none => simp
      | some p => simpa using ih p hp

lemma resolve?_eq_none_iff :
    s.resolve? x name = none ↔ ∀ y, s.Encloses y x → (s.scope y).find? name = none := by
  induction x using (wellFounded_parent hs).induction with
  | _ x ih =>
    rw [resolve?_eq hs]
    simp only [encloses_iff (x := x), Option.or_eq_none_iff, Option.map_eq_none_iff]
    cases hp : (s.scope x).parent with
    | none => simp
    | some p => simp [ih p hp, or_imp, forall_and]

end

lemma fst_bind (s : Store) (x : ScopeId) (o : ObjectId) :
    (s.bind x o).1 = (s.scope x).find? (s.object o).name := by
  simp only [bind]
  split <;> simp_all

lemma snd_bind_of_taken (h : (s.bind x o).1 = some other) : (s.bind x o).2 = s := by
  rw [fst_bind] at h
  simp only [bind, h]

lemma find?_bind_self (hx : s.HasScope x) :
    ((s.bind x o).2.scope x).find? (s.object o).name = some ((s.bind x o).1.getD o) := by
  cases hfind : (s.scope x).find? (s.object o).name with
  | some other =>
    have htaken : (s.bind x o).1 = some other := (fst_bind s x o).trans hfind
    rw [snd_bind_of_taken htaken, hfind, htaken]
    rfl
  | none =>
    rw [scope_bind, if_pos ⟨hfind, rfl, hx⟩, fst_bind, hfind]
    have hold : (s.scope x).bindings.lookup (s.object o).name = none := hfind
    simp [Scope.find?, lookup_append, hold]

end Store

namespace BuiltSession

variable {c d : Checker}

lemma isTree (h : BuiltSession c) (hd : c.SafeSteps false d) : d.store.IsTree := by
  have hkeep : ∀ s s' : Store, s.Closed false → s.IsTree → s.Construction s' → s'.IsTree :=
    fun s s' hclosed hs hstep => hs.construction hclosed hstep
  refine hd.keep_store hkeep h.closed (h.keep (isTree_of_forall_lt ?_ ?_ ?_ ?_ ?_) hkeep)
  all_goals decide +kernel

lemma wellScoped (h : BuiltSession c) (hd : c.SafeSteps false d) : d.WellScoped := by
  have hclosed := hd.closed h.closed
  exact ⟨(h.isTree hd).nested, hclosed.context.scope, hclosed.hasScope_packageScope,
    fun x hx => (hclosed.deferred x hx).scope⟩

/-- Between the requests of a session and after any steps of a check, scopes form a tree. A search
for a name goes outward scope by scope to the end, and finds what the nearest scope with the name
has. An insertion under a name that is taken changes nothing and tells who has the name. -/
theorem scopes_form_tree (h : BuiltSession c) (hd : c.SafeSteps false d) :
    d.store.IsTree ∧
    WellFounded (fun p x : ScopeId => (d.store.scope x).parent = some p) ∧
    (∀ x name, d.store.resolve? x name =
      (((d.store.scope x).find? name).map fun o => (x, o)).or
        ((d.store.scope x).parent.bind fun p => d.store.resolve? p name)) ∧
    (∀ x name y o, d.store.resolve? x name = some (y, o) ↔ d.store.IsNearest x name y o) ∧
    (∀ x name, d.store.resolve? x name = none ↔
      ∀ y, d.store.Encloses y x → (d.store.scope y).find? name = none) ∧
    ∀ x o, (d.store.bind x o).1 = (d.store.scope x).find? (d.store.object o).name ∧
      (∀ other, (d.store.bind x o).1 = some other → (d.store.bind x o).2 = d.store) ∧
      (d.store.HasScope x → ((d.store.bind x o).2.scope x).find? (d.store.object o).name =
        some ((d.store.bind x o).1.getD o)) := by
  have htree := h.isTree hd
  exact ⟨htree, wellFounded_parent htree.nested, resolve?_eq htree.nested,
    fun _ _ _ _ => resolve?_eq_some_iff htree.nested,
    fun _ _ => resolve?_eq_none_iff htree.nested,
    fun x o => ⟨fst_bind d.store x o, fun _ => snd_bind_of_taken, find?_bind_self⟩⟩

/-- The entities after a host has made a package and a variable `n`. -/
def libraryStore : Store :=
  (newParam Span.dummy none "n" (some (.basic .int))
    (newPackage "lib" "lib" (Checker.start {}).store).2).2

/-- The variable `n`. -/
def libraryVar : ObjectId := ⟨libraryStore.objects.size - 1⟩

/-- The host has declared the variable in the package, and has made two nested scopes in it. -/
def libraryState : Checker :=
  { Checker.start {} with
    store := (newScope (some ⟨3⟩) 1 8 "block" false
      (newScope (some ⟨2⟩) 0 9 "block" false (libraryStore.bind ⟨2⟩ libraryVar).2).2).2 }

lemma libraryState_reached : BuiltSession libraryState := by
  have hvar : Construction (newPackage "lib" "lib" (Checker.start {}).store).2
      libraryStore := by
    refine .newObject _ rfl fun t ht => ?_
    cases ht
    decide +kernel
  have hbind : libraryStore.Construction (libraryStore.bind ⟨2⟩ libraryVar).2 :=
    .bind _ (by decide +kernel) (by decide +kernel)
  have hinner : ∀ p ∈ some (⟨2⟩ : ScopeId), (libraryStore.bind ⟨2⟩ libraryVar).2.HasScope p := by
    decide +kernel
  have hinnermost : ∀ p ∈ some (⟨3⟩ : ScopeId), (newScope (some ⟨2⟩) 0 9 "block" false
      (libraryStore.bind ⟨2⟩ libraryVar).2).2.HasScope p := by
    decide +kernel
  have hpackage := constructs_newPackage "lib" "lib" (s := (Checker.start {}).store)
    (by decide +kernel)
  exact (BuiltSession.start {}).builds ((((hpackage.tail hvar).tail hbind).tail
    (.newScope _ 0 9 "block" false hinner)).tail (.newScope _ 1 8 "block" false hinnermost))

def checkedLibrary : Checker := (Request.checkBlock ⟨[], ⟨20, 30⟩⟩).answer libraryState

/-- From the innermost scope `n` is that of the library, also after a check, and is taken there. -/
theorem checkedLibrary_nearest :
    checkedLibrary.store.IsNearest ⟨4⟩ "n" ⟨2⟩ libraryVar ∧
      (checkedLibrary.store.scope ⟨2⟩).children.count ⟨3⟩ = 1 ∧
      (checkedLibrary.store.bind ⟨2⟩ libraryVar).2 = checkedLibrary.store := by
  have hsteps : libraryState.SafeSteps false checkedLibrary :=
    Request.safe (r := .checkBlock ⟨[], ⟨20, 30⟩⟩) libraryState_reached.closed rfl
  obtain ⟨htree, -, -, hnearest, -, hbind⟩ := scopes_form_tree libraryState_reached hsteps
  refine ⟨(hnearest ..).mp (by decide +kernel), htree.listed ⟨3⟩ ⟨2⟩ (by decide +kernel) (by decide), ?_⟩
  exact (hbind ⟨2⟩ libraryVar).2.1 libraryVar (by decide +kernel)

end BuiltSession

end GoCheck
