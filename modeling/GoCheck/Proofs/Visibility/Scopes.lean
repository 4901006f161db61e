import GoCheck.Proofs.Course

/-!
# What is seen from inside

The scopes that are made while expressions are evaluated and bodies are checked lie inside the scope
where this began. From them a name is found either in a new scope or just as from the old one, so
lookups and refused declarations are accounted for by induction on the course of the check.
-/

namespace GoCheck

open List Store Happening Option

variable {s : Store} {home x : ScopeId} {c d : Checker} {L : Limits} {F : Frontier} {t : Task}

namespace Store

variable {s' : Store}

/-- Every scope lies in an older one, if in any. -/
def Nested (s : Store) : Prop := ∀ x p, (s.scope x).parent = some p → p.index < x.index

/-- The first `n` scopes have the same bindings and lie in the same scopes. -/
def AgreesBelow (s : Store) (n : Nat) (s' : Store) : Prop :=
  ∀ x, x.index < n → (s'.scope x).bindings = (s.scope x).bindings ∧
    (s'.scope x).parent = (s.scope x).parent

/-- From the `n`-th on, every scope lies in `home` or in another one of these. -/
def HangsOn (s : Store) (n : Nat) (home : ScopeId) : Prop :=
  ∀ x, n ≤ x.index → x.index < s.scopes.size →
    ∃ p, (s.scope x).parent = some p ∧ (p = home ∨ n ≤ p.index)

lemma AgreesBelow.refl (s : Store) (n : Nat) : s.AgreesBelow n s := fun _ _ => ⟨rfl, rfl⟩

lemma AgreesBelow.trans (h : s.AgreesBelow n s') (k : s'.AgreesBelow n s'') :
    s.AgreesBelow n s'' :=
  fun x hx => ⟨(k x hx).1.trans (h x hx).1, (k x hx).2.trans (h x hx).2⟩

lemma Nested.newScope (hs : s.Nested) (parent : Option ScopeId)
    (hparent : ∀ p, parent = some p → p.index < s.scopes.size) (start stop : Nat) (comment : String)
    (isFunc : Bool) : (Build.newScope parent start stop comment isFunc s).2.Nested := by
  intro x p hp
  rw [parent_newScope] at hp
  split at hp
  · rename_i hx
    exact hx ▸ hparent p hp
  · exact hs x p hp

lemma Nested.bind (hs : s.Nested) (x : ScopeId) (o : ObjectId) : (s.bind x o).2.Nested :=
  fun y p hp => hs y p (parent_bind s x y o ▸ hp)

/-- The bound on the number of scopes on the way does not matter if scopes are nested. -/
lemma resolveWithin_eq (hs : s.Nested) (hn : x.index < n) (hm : x.index < m) :
    s.resolveWithin name n x = s.resolveWithin name m x := by
  induction n generalizing m x with
  | zero => cases hn
  | succ n ih =>
    cases m with
    | zero => cases hm
    | succ m =>
      rw [resolveWithin, resolveWithin]
      cases (s.scope x).find? name with
      | some o => rfl
      | none =>
        cases hp : (s.scope x).parent with
        | none => rfl
        | some p =>
          have hlt := hs x p hp
          exact ih (by omega) (by omega)

/-- Lookups of a name from old scopes find what they found before if it is bound there as before. -/
lemma resolve?_congr (hs : s.Nested) (hx : x.index < n) (hn : n ≤ s.scopes.size)
    (hn' : n ≤ s'.scopes.size) (h : ∀ y, y.index < n →
      (s'.scope y).find? name = (s.scope y).find? name ∧ (s'.scope y).parent = (s.scope y).parent) :
    s'.resolve? x name = s.resolve? x name := by
  have hwithin : ∀ k, s'.resolveWithin name k x = s.resolveWithin name k x := by
    intro k
    induction k generalizing x with
    | zero => rfl
    | succ k ih =>
      obtain ⟨hfind, hparent⟩ := h x hx
      rw [resolveWithin, resolveWithin, hfind, hparent]
      cases (s.scope x).find? name with
      | some o => rfl
      | none =>
        cases hp : (s.scope x).parent with
        | none => rfl
        | some p => exact ih (lt_trans (hs x p hp) hx)
  rw [resolve?, resolve?, hwithin]
  exact resolveWithin_eq hs (lt_of_lt_of_le hx hn') (lt_of_lt_of_le hx hn)

lemma resolve?_of_find?_eq_some (hx : x.index < s.scopes.size)
    (h : (s.scope x).find? name = some o) : s.resolve? x name = some (x, o) := by
  obtain ⟨m, hm⟩ : ∃ m, s.scopes.size = m + 1 := ⟨s.scopes.size - 1, by omega⟩
  rw [resolve?, hm, resolveWithin, h]

/-- From a new scope a name is found in a new scope, or as from the old scope around it. -/
lemma resolve?_of_hangsOn (hs : s.Nested) (h : s.HangsOn n home) (hx : x = home ∨ n ≤ x.index)
    (hlt : x.index < s.scopes.size) : s.resolve? x name = s.resolve? home name ∨
      ∃ y o, s.resolve? x name = some (y, o) ∧ n ≤ y.index := by
  have hwithin : ∀ k, x.index < k → s.resolveWithin name k x = s.resolve? home name ∨
      ∃ y o, s.resolveWithin name k x = some (y, o) ∧ n ≤ y.index := by
    intro k hk
    induction k generalizing x with
    | zero => cases hk
    | succ k ih =>
      rcases hx with rfl | hx
      · exact .inl (resolveWithin_eq hs hk hlt)
      · obtain ⟨p, hp, hchain⟩ := h x hx hlt
        rw [resolveWithin]
        cases (s.scope x).find? name with
        | some o => exact .inr ⟨x, o, rfl, hx⟩
        | none =>
          have hsmall := hs x p hp
          rw [hp]
          exact ih hchain (by omega) (by omega)
  exact hwithin _ hlt

end Store

/-- From inside `home`, while the first `n` scopes are as in `s`, names are found as from there or
are new. -/
def Happening.Within (n : Nat) (s : Store) (home : ScopeId) : Happening → Prop
  | .lookup x name found =>
    (found = s.resolve? home name ∨ ∃ y o, found = some (y, o) ∧ n ≤ y.index) ∧
      (x = some home → found = s.resolve? home name)
  | .clash x _ _ => n ≤ x.index
  | _ => True

def Happening.isClash : Happening → Bool
  | .clash .. => true
  | _ => false

lemma isRedeclaration_redeclaration (o other : Object) :
    (Pass.redeclaration o other).isRedeclaration := by
  simp only [Pass.redeclaration]
  split <;> rfl

namespace Checker

/-- A check that stands in `home` or in a new scope inside it. -/
structure Under (c : Checker) (n : Nat) (home : ScopeId) : Prop where
  nested : c.store.Nested
  hangs : c.store.HangsOn n home
  here : ∃ x, c.context.scope = some x ∧ (x = home ∨ n ≤ x.index) ∧ x.index < c.store.scopes.size

/-- Such a check, as long as the first `n` scopes are as in `s`. -/
structure Inside (c : Checker) (n : Nat) (s : Store) (home : ScopeId) : Prop
    extends c.Under n home where
  agrees : s.AgreesBelow n c.store
  size : n ≤ c.store.scopes.size

/-- What is seen and refused in between is inside `home`, and each report is of one refusal. -/
def Confined (c : Checker) (n : Nat) (s : Store) (home : ScopeId) (d : Checker) : Prop :=
  ∃ l rs, d.history.toList = c.history.toList ++ l ∧
    d.sink.reports.toList = c.sink.reports.toList ++ rs ∧ (∀ h ∈ l, h.Within n s home) ∧
    rs.countP (·.isRedeclaration) = l.countP (·.isClash)

lemma Confined.refl (c : Checker) : c.Confined n s home c := ⟨[], [], by simp⟩

lemma Confined.trans (h : c.Confined n s home d) (k : d.Confined n s home e) :
    c.Confined n s home e := by
  obtain ⟨l, rs, hl, hrs, hwithin, hcount⟩ := h
  obtain ⟨l', rs', hl', hrs', hwithin', hcount'⟩ := k
  refine ⟨l ++ l', rs ++ rs', by rw [hl', hl, append_assoc], by rw [hrs', hrs, append_assoc],
    fun h hh => ?_, ?_⟩
  · exact (mem_append.mp hh).elim (hwithin h) (hwithin' h)
  · rw [countP_append, countP_append, hcount, hcount']

lemma Confined.of_eq (hh : d.history = c.history) (hs : d.sink = c.sink) : c.Confined n s home d :=
  ⟨[], [], by simp [hh], by simp [hs], by simp, by simp⟩

lemma confined_noted (hh : h.Within n s home) (hclash : h.isClash = false) :
    c.Confined n s home (c.noted h) :=
  ⟨[h], [], by simp [noted], by simp [noted], by simpa using hh, by simp [hclash]⟩

lemma Under.of_eq (hc : c.Under n home)
    (hparent : ∀ x, (d.store.scope x).parent = (c.store.scope x).parent)
    (hsize : d.store.scopes.size = c.store.scopes.size) (hcontext : d.context = c.context) :
    d.Under n home where
  nested x p hp := hc.nested x p (hparent x ▸ hp)
  hangs x hx hlt := hparent x ▸ hc.hangs x hx (hsize ▸ hlt)
  here := by
    rw [hcontext, hsize]
    exact hc.here

/-- A new scope lies in the current one. -/
lemma Under.newScope (hc : c.Under n home) (start stop : Nat) (comment : String) (isFunc : Bool) :
    { c with
      store := (Build.newScope c.context.scope start stop comment isFunc c.store).2 }.Under n home := by
  obtain ⟨y, hy, hplace, hlt⟩ := hc.here
  refine ⟨?_, fun x hx hltx => ?_, y, hy, hplace, ?_⟩
  · exact hc.nested.newScope _ (fun p hp => some.inj (hy.symm.trans hp) ▸ hlt) start stop comment
      isFunc
  · rw [newScope_scopes_size] at hltx
    rw [parent_newScope]
    split
    · exact ⟨y, hy, hplace⟩
    · exact hc.hangs x hx (by omega)
  · rw [newScope_scopes_size]
    omega

lemma QuietStep.under (h : c.QuietStep W d) (hc : c.Under n home) : d.Under n home := by
  cases h with
  | newScope start stop comment isFunc => exact hc.newScope start stop comment isFunc
  | bind x o => exact hc.of_eq (fun y => parent_bind ..) (bind_scopes_size ..) rfl
  | _ => exact hc.of_eq (fun _ => rfl) rfl rfl

lemma Act.under (h : c.Act L d) (hc : c.Under n home) : d.Under n home := by
  cases h with
  | quiet hq => exact hq.under hc
  | _ => exact hc.of_eq (fun _ => rfl) rfl rfl

lemma Acts.under (h : c.Acts L d) (hc : c.Under n home) : d.Under n home := by
  induction h with
  | refl => exact hc
  | tail _ hstep ih => exact hstep.under ih

lemma QuietStep.bindings_eq (h : c.QuietStep W d) (hx : ¬W x) :
    (d.store.scope x).bindings = (c.store.scope x).bindings := by
  cases h with
  | newScope => exact bindings_newScope x
  | bind y o hy =>
    have hne : y ≠ x := fun heq => hx (heq ▸ hy)
    simp only [Store.bind]
    split
    · rfl
    · change ((c.store.modifyScope y _).scope x).bindings = _
      rw [scope_modifyScope, if_neg fun h => hne h.1]
  | _ => rfl

lemma Act.bindings_eq (h : c.Act L d) (hx : ¬L.Binds x) :
    (d.store.scope x).bindings = (c.store.scope x).bindings := by
  cases h with
  | quiet hq => exact hq.bindings_eq hx
  | _ => rfl

lemma QuietSteps.bindings_eq (h : c.QuietSteps W d) (hx : ¬W x) :
    (d.store.scope x).bindings = (c.store.scope x).bindings := by
  induction h with
  | refl => rfl
  | tail _ hstep ih => exact (hstep.bindings_eq hx).trans ih

lemma Acts.bindings_eq (h : c.Acts L d) (hx : ¬L.Binds x) :
    (d.store.scope x).bindings = (c.store.scope x).bindings := by
  induction h with
  | refl => rfl
  | tail _ hstep ih => exact (hstep.bindings_eq hx).trans ih

lemma Inside.noted (hc : c.Inside n s home) (h : Happening) : (c.noted h).Inside n s home :=
  ⟨⟨hc.nested, hc.hangs, hc.here⟩, hc.agrees, hc.size⟩

lemma Inside.moved (hc : c.Inside n s home) (context : Context) (hx : context.scope = some x)
    (hplace : x = home ∨ n ≤ x.index) (hlt : x.index < c.store.scopes.size) :
    { c with context }.Inside n s home where
  nested := hc.nested
  hangs := hc.hangs
  here := ⟨x, hx, hplace, hlt⟩
  agrees := hc.agrees
  size := hc.size

/-- Steps that bind names in new scopes only keep the old ones as they are. -/
lemma Inside.steps (hc : c.Inside n s home) (h : c.Steps d) (hunder : d.Under n home)
    (hbindings : ∀ x, x.index < n →
      (d.store.scope x).bindings = (c.store.scope x).bindings) : d.Inside n s home where
  toUnder := hunder
  agrees := hc.agrees.trans fun x hx =>
    ⟨hbindings x hx, h.parent_eq (lt_of_lt_of_le hx hc.size)⟩
  size := le_trans hc.size h.scopes_size_le

section

variable (hs : s.Nested) (hn : n ≤ s.scopes.size) (hhome : home.index < n)
include hs hn hhome

/-- A lookup from inside finds what was to be seen. -/
lemma Inside.lookup (hc : c.Inside n s home) (name : String) :
    (lookup c.context.scope name (c.context.scope.bind (c.store.resolve? · name))).Within
      n s home := by
  have hold : c.store.resolve? home name = s.resolve? home name :=
    resolve?_congr hs hhome hn hc.size fun y hy =>
      ⟨by rw [Scope.find?, Scope.find?, (hc.agrees y hy).1], (hc.agrees y hy).2⟩
  obtain ⟨x, hx, hplace, hlt⟩ := hc.here
  rw [hx]
  constructor
  · rw [← hold]
    exact resolve?_of_hangsOn hc.nested hc.hangs hplace hlt
  · rintro ⟨⟩
    exact hold

lemma QuietStep.confined (h : c.QuietStep W d) (hc : c.Inside n s home)
    (hW : ∀ x, W x → n ≤ x.index) : d.Inside n s home ∧ c.Confined n s home d := by
  refine ⟨hc.steps h.steps (h.under hc.toUnder) fun x hx =>
    h.bindings_eq fun hWx => not_lt.mpr (hW x hWx) hx, ?_⟩
  cases h with
  | lookup name => exact confined_noted (hc.lookup hs hn hhome name) rfl
  | literal kind raw => exact confined_noted .intro rfl
  | clash x o other hx =>
    have hr := isRedeclaration_redeclaration (c.store.object o) (c.store.object other)
    refine ⟨[.clash x o other], [Pass.redeclaration (c.store.object o) (c.store.object other)],
      by simp, by simp [Sink.emit], by simpa [Within] using hW x hx, ?_⟩
    simp [hr, isClash]
  | emit r hr => exact ⟨[], [r], by simp, by simp [Sink.emit], by simp, by simp [hr]⟩
  | _ => exact .of_eq rfl rfl

lemma QuietSteps.confined (h : c.QuietSteps W d) (hc : c.Inside n s home)
    (hW : ∀ x, W x → n ≤ x.index) : d.Inside n s home ∧ c.Confined n s home d := by
  induction h with
  | refl => exact ⟨hc, .refl c⟩
  | tail _ hstep ih =>
    obtain ⟨hd, hconfined⟩ := ih
    obtain ⟨he, hconfined'⟩ := hstep.confined hs hn hhome hd hW
    exact ⟨he, hconfined.trans hconfined'⟩

/-- An evaluation that binds names in new scopes only stays inside. -/
lemma Acts.confined (h : c.Acts L d) (hc : c.Inside n s home)
    (hL : ∀ x, L.Binds x → n ≤ x.index) : d.Inside n s home ∧ c.Confined n s home d := by
  induction h with
  | refl => exact ⟨hc, .refl c⟩
  | @tail d e _ hstep ih =>
    obtain ⟨hd, hconfined⟩ := ih
    have hone : e.Inside n s home ∧ d.Confined n s home e := by
      refine ⟨hd.steps hstep.steps (hstep.under hd.toUnder) fun x hx =>
        hstep.bindings_eq fun hLx => not_lt.mpr (hL x hLx) hx, ?_⟩
      cases hstep with
      | quiet hq => exact (hq.confined hs hn hhome hd hL).2
      | putOff x => exact ⟨[.putOff x], [], by simp, by simp, by simp [Within],
        by simp [isClash]⟩
      | _ => exact .of_eq rfl rfl
    exact ⟨hone.1, hconfined.trans hone.2⟩

end

end Checker

/-- What a task counts on: statements in a scope from the `n`-th on, and the scopes of bodies. -/
def Task.Ready (n : Nat) (c : Checker) : Task → Prop
  | .stmt _ | .stmts _ => ∀ x, c.context.scope = some x → n ≤ x.index
  | .body d => d.scope.index < c.store.scopes.size
  | .bodies ds => ∀ d ∈ ds, d.scope.index < c.store.scopes.size

namespace Checker

lemma Acts.ready (h : c.Acts L d)
    (hds : d.deferred = c.deferred ++ ds) : Task.Ready n d (.bodies ds) := by
  obtain ⟨ds', hds', hall⟩ := h.deferred_eq
  obtain rfl : ds' = ds := append_cancel_left (hds'.symm.trans hds)
  exact fun y hy => (hall y hy).2.1

/-- A check of bodies, and of statements in new scopes, stays inside. -/
lemma Course.confined (h : Course F t c d) (hs : s.Nested) (hn : F.scopes ≤ s.scopes.size)
    (hhome : home.index < F.scopes) (hc : c.Inside F.scopes s home) (ht : t.Ready F.scopes c) :
    d.Inside F.scopes s home ∧ c.Confined F.scopes s home d := by
  induction h with
  | nil c | none c => exact ⟨hc, .refl c⟩
  | cons hfirst hrest ih ih' =>
    obtain ⟨hd, hconfined⟩ := ih hc ht
    obtain ⟨he, hconfined'⟩ := ih' hd fun x hx => ht x (hfirst.context_eq ▸ hx)
    exact ⟨he, hconfined.trans hconfined'⟩
  | @block _ _ x c d e f hopen hx hlt hcourse hclose ih =>
    obtain ⟨y, hy, hplace, hlty⟩ := hc.here
    obtain ⟨hd, hbefore⟩ := hopen.confined hs hn hhome (hc.noted _) fun _ => id
    obtain ⟨he, hwithin⟩ := ih (hd.moved _ rfl (.inr hx) hlt) fun _ hy => some.inj hy ▸ hx
    have hsize := le_trans hopen.steps.scopes_size_le hcourse.steps.scopes_size_le
    obtain ⟨hf, hafter⟩ := hclose.confined hs hn hhome
      (he.moved c.context hy hplace (lt_of_lt_of_le hlty hsize)) fun _ => id
    refine ⟨hf.noted _, Confined.trans (confined_noted (by trivial) rfl) (hbefore.trans ?_)⟩
    exact Confined.trans hwithin (Confined.trans hafter (confined_noted (by trivial) rfl))
  | @plain st ds c d e f _ hacts hds hcourse hdecl ih =>
    -- Statements inside declare in the scope where they stand, which is new.
    obtain ⟨x, hx, -, -⟩ := hc.here
    have hbinds y (hy : (c.limits F st).Binds y) : F.scopes ≤ y.index := by
      rcases hy with hy | hy
      · exact hy
      · have hyx : y = x := by rw [hy, declarationScope, hx, getD_some]
        exact hyx ▸ ht x hx
    obtain ⟨hd, hbefore⟩ := hacts.confined hs hn hhome (hc.noted _) hbinds
    obtain ⟨he, hwithin⟩ := ih hd (hacts.ready hds)
    obtain ⟨hf, hafter⟩ := hdecl.confined hs hn hhome
      ⟨⟨he.nested, he.hangs, he.here⟩, he.agrees, he.size⟩ hbinds
    refine ⟨hf.noted _, Confined.trans (confined_noted (by trivial) rfl) (hbefore.trans ?_)⟩
    exact Confined.trans hwithin (Confined.trans hafter (confined_noted (by trivial) rfl))
  | @body x c d e f hx hopen hcourse hclose ih =>
    obtain ⟨y, hy, hplace, hlty⟩ := hc.here
    obtain ⟨hd, hbefore⟩ := hopen.confined hs hn hhome (hc.noted _) fun _ => id
    have hlt := lt_of_lt_of_le ht hopen.steps.scopes_size_le
    obtain ⟨he, hwithin⟩ := ih (hd.moved _ rfl (.inr hx) hlt) fun _ hy => some.inj hy ▸ hx
    obtain ⟨hf, hafter⟩ := hclose.confined hs hn hhome he fun _ => id
    have hsize := le_trans hopen.steps.scopes_size_le
      (le_trans hcourse.steps.scopes_size_le hclose.steps.scopes_size_le)
    refine ⟨(hf.moved c.context hy hplace (lt_of_lt_of_le hlty hsize)).noted _, ?_⟩
    refine Confined.trans (confined_noted (by trivial) rfl) (hbefore.trans (Confined.trans hwithin ?_))
    exact hafter.trans (confined_noted (by trivial) rfl)
  | next hfirst hrest ih ih' =>
    obtain ⟨hd, hconfined⟩ := ih hc (ht _ (by simp))
    obtain ⟨he, hconfined'⟩ := ih' hd fun y hy =>
      lt_of_lt_of_le (ht y (mem_cons_of_mem _ hy)) hfirst.steps.scopes_size_le
    exact ⟨he, hconfined.trans hconfined'⟩

/-! ## Placement and bindings -/

variable {c d : Checker} {L : Limits} {F : Frontier} {t : Task}

/-- All scopes that the state refers to are there, and each lies in an older one. -/
structure WellScoped (c : Checker) : Prop where
  nested : c.store.Nested
  here : ∀ x, c.context.scope = some x → x.index < c.store.scopes.size
  package : c.packageScope.index < c.store.scopes.size
  waiting : ∀ x ∈ c.deferred, x.scope.index < c.store.scopes.size

lemma WellScoped.of_steps (hc : c.WellScoped) (h : c.Steps d) (hnested : d.store.Nested)
    (hcontext : d.context = c.context)
    (hdeferred : ∀ x ∈ d.deferred, x ∈ c.deferred ∨ x.scope.index < d.store.scopes.size) :
    d.WellScoped where
  nested := hnested
  here x hx := lt_of_lt_of_le (hc.here x (hcontext ▸ hx)) h.scopes_size_le
  package := h.packageScope_eq ▸ lt_of_lt_of_le hc.package h.scopes_size_le
  waiting x hx := (hdeferred x hx).elim
    (fun hx => lt_of_lt_of_le (hc.waiting x hx) h.scopes_size_le) id

lemma WellScoped.moved (hc : c.WellScoped) (context : Context)
    (h : ∀ x, context.scope = some x → x.index < c.store.scopes.size) :
    { c with context }.WellScoped :=
  ⟨hc.nested, h, hc.package, hc.waiting⟩

lemma WellScoped.noted (hc : c.WellScoped) (h : Happening) : (c.noted h).WellScoped :=
  ⟨hc.nested, hc.here, hc.package, hc.waiting⟩

lemma WellScoped.dropped (hc : c.WellScoped) (h : ds ⊆ c.deferred) :
    { c with deferred := ds }.WellScoped :=
  ⟨hc.nested, hc.here, hc.package, fun x hx => hc.waiting x (h hx)⟩

lemma QuietStep.wellScoped (h : c.QuietStep W d) (hc : c.WellScoped) : d.WellScoped := by
  refine hc.of_steps h.steps ?_ h.context_eq fun x hx => .inl (h.deferred_eq ▸ hx)
  cases h with
  | newScope start stop comment isFunc => exact hc.nested.newScope _ hc.here start stop comment isFunc
  | bind x o => exact hc.nested.bind x o
  | _ => exact hc.nested

lemma QuietSteps.wellScoped (h : c.QuietSteps W d) (hc : c.WellScoped) : d.WellScoped := by
  induction h with
  | refl => exact hc
  | tail _ hstep ih => exact hstep.wellScoped ih

lemma Acts.wellScoped (h : c.Acts L d) (hc : c.WellScoped) : d.WellScoped := by
  induction h with
  | refl => exact hc
  | tail _ hstep ih =>
    cases hstep with
    | quiet hq => exact hq.wellScoped ih
    | putOff x hscope hlt hdepth =>
      refine ⟨ih.nested, ih.here, ih.package, fun y hy => ?_⟩
      rcases mem_append.mp hy with hy | hy
      · exact ih.waiting y hy
      · exact mem_singleton.mp hy ▸ hlt
    | _ => exact ⟨ih.nested, ih.here, ih.package, ih.waiting⟩

/-- A check in whatever scope keeps all scopes in place. -/
lemma Course.wellScoped (h : Course F t c d) (hc : c.WellScoped) (ht : t.Ready 0 c) :
    d.WellScoped := by
  induction h with
  | nil => exact hc
  | cons _ _ ih ih' => exact ih' (ih hc ht) fun _ _ => Nat.zero_le _
  | @block _ _ x c d e f hopen _ hlt hcourse hclose ih =>
    have hd := hopen.wellScoped (hc.noted _)
    have he := ih (hd.moved _ fun _ hy => some.inj hy ▸ hlt) fun _ _ => Nat.zero_le _
    have hsize := le_trans hopen.steps.scopes_size_le hcourse.steps.scopes_size_le
    have hback := he.moved c.context fun y hy => lt_of_lt_of_le (hc.here y hy) hsize
    exact (hclose.wellScoped hback).noted _
  | @plain st ds c d e f _ hacts hds hcourse hdecl ih =>
    have hd := hacts.wellScoped (hc.noted _)
    have he := ih hd (hacts.ready hds)
    have hleft : c.deferred ⊆ e.deferred := by
      rw [hcourse.deferred_eq, hds]
      exact subset_append_left ..
    exact (hdecl.wellScoped (he.dropped hleft)).noted _
  | @body x c d e f _ hopen hcourse hclose ih =>
    have hd := hopen.wellScoped (hc.noted _)
    have hlt := lt_of_lt_of_le ht hopen.steps.scopes_size_le
    have he := ih (hd.moved _ fun _ hy => some.inj hy ▸ hlt) fun _ _ => Nat.zero_le _
    have hsize := le_trans hopen.steps.scopes_size_le
      (le_trans hcourse.steps.scopes_size_le hclose.steps.scopes_size_le)
    have hback := (hclose.wellScoped he).moved c.context fun y hy =>
      lt_of_lt_of_le (hc.here y hy) hsize
    exact hback.noted _
  | none => exact hc
  | next hfirst _ ih ih' =>
    refine ih' (ih hc (ht _ (by simp))) fun y hy => ?_
    exact lt_of_lt_of_le (ht y (by simp [hy])) hfirst.steps.scopes_size_le

variable (config : Config)

lemma parents_start : (start config).store.scopes.toList.map (·.parent) = [none, some ⟨0⟩] := by
  change (start {}).store.scopes.toList.map (·.parent) = _
  decide +kernel

lemma packageScope_start : (start config).packageScope = ⟨1⟩ := by
  change (start {}).packageScope = _
  decide +kernel

/-- At the start there are the scopes of the universe and of the package. -/
lemma wellScoped_start : (start config).WellScoped := by
  have hparents := parents_start config
  have hsize : (start config).store.scopes.size = 2 := by simpa using congrArg length hparents
  have hpackage := packageScope_start config
  refine ⟨fun x p hp => ?_, fun x hx => ?_, ?_, by simp [start]⟩
  · have hget : ((start config).store.scopes.toList.map (·.parent))[x.index]?.getD none = some p := by
      rw [← hp, Store.scope, getElem?_map, ← Array.getElem?_toList]
      cases (start config).store.scopes.toList[x.index]? <;> rfl
    rw [hparents] at hget
    obtain ⟨_ | _ | i⟩ := x
    · cases hget
    · cases hget
      exact Nat.zero_lt_one
    · cases hget
  · have hx' : x = (start config).packageScope := (some.inj hx).symm
    rw [hx', hpackage, hsize]
    exact Nat.one_lt_two
  · rw [hpackage, hsize]
    exact Nat.one_lt_two

end Checker

/-! ## Bindings -/

variable {o : ObjectId}

/-- What never changes about an object: its name, and whether it is a variable. -/
def Object.identity (o : Object) : String × Bool := (o.name, o.isVar)

namespace Store

variable {s s' : Store} {y : ScopeId}

lemma Step.identity_eq (h : s.Step s') (ho : o.index < s.objects.size) :
    (s'.object o).identity = (s.object o).identity := by
  refine h.view_eq (fun _ _ _ _ => rfl) (fun ob used => ?_) (fun ob v => ?_) ho
  all_goals cases hob : ob.entity
  all_goals simp [Object.setUsed, Object.setValue, Object.identity, Object.isVar, hob]

lemma bindings_bind_of_free (hx : x.index < s.scopes.size)
    (hfree : (s.scope x).find? (s.object o).name = none) :
    ((s.bind x o).2.scope x).bindings = (s.scope x).bindings ++ [((s.object o).name, o)] := by
  simp only [bind, hfree]
  change ((s.modifyScope x _).scope x).bindings = _
  rw [scope_modifyScope, if_pos ⟨rfl, hx⟩]

end Store

namespace Checker

variable {d : Checker} {names : List String}

lemma Steps.identity_eq (h : c.Steps d) (ho : o.index < c.store.objects.size) :
    (d.store.object o).identity = (c.store.object o).identity :=
  h.view_eq (·.objects_size_le) (fun hs ho => hs.identity_eq ho) ho

lemma Steps.name_eq (h : c.Steps d) (ho : o.index < c.store.objects.size) :
    (d.store.object o).name = (c.store.object o).name :=
  congrArg Prod.fst (h.identity_eq ho)

lemma Steps.isVar_eq (h : c.Steps d) (ho : o.index < c.store.objects.size) :
    (d.store.object o).isVar = (c.store.object o).isVar :=
  congrArg Prod.snd (h.identity_eq ho)

/-- Different objects of the given names, made between two states, all or none of them variables. -/
structure MadeWithin (c d : Checker) (isVar : Bool) (names : List String) (os : List ObjectId) :
    Prop where
  names : os.map (fun o => (d.store.object o).name) = names
  kind : ∀ o ∈ os, (d.store.object o).isVar = isVar
  made : ∀ o ∈ os, c.store.objects.size ≤ o.index ∧ o.index < d.store.objects.size
  nodup : os.Nodup

lemma MadeWithin.nil (c d : Checker) (isVar : Bool) : c.MadeWithin d isVar [] [] :=
  ⟨rfl, by simp, by simp, .nil⟩

lemma MadeWithin.cons (hname : (d.store.object o).identity = (name, isVar))
    (hc : c.store.objects.size ≤ o.index) (ho : o.index < d.store.objects.size) (hde : d.Steps e)
    (h : d.MadeWithin e isVar names os) : c.MadeWithin e isVar (name :: names) (o :: os) where
  names := by rw [map_cons, h.names, (hde.name_eq ho).trans (congrArg Prod.fst hname)]
  kind := forall_mem_cons.mpr ⟨(hde.isVar_eq ho).trans (congrArg Prod.snd hname), h.kind⟩
  made := by
    refine forall_mem_cons.mpr ⟨⟨hc, lt_of_lt_of_le ho hde.objects_size_le⟩, fun p hp => ?_⟩
    exact ⟨le_trans (le_trans hc (le_of_lt ho)) (h.made p hp).1, (h.made p hp).2⟩
  nodup := by
    refine nodup_cons.mpr ⟨fun hmem => ?_, h.nodup⟩
    exact not_le.mpr ho (h.made o hmem).1

lemma MadeWithin.earlier (h : d.MadeWithin e isVar names os) (hcd : c.Steps d) :
    c.MadeWithin e isVar names os where
  names := h.names
  kind := h.kind
  made o ho := ⟨le_trans hcd.objects_size_le (h.made o ho).1, (h.made o ho).2⟩
  nodup := h.nodup

lemma MadeWithin.later (h : c.MadeWithin d isVar names os) (hde : d.Steps e) :
    c.MadeWithin e isVar names os where
  names := by
    rw [← h.names]
    exact map_congr_left fun o ho => hde.name_eq (h.made o ho).2
  kind o ho := (hde.isVar_eq (h.made o ho).2).trans (h.kind o ho)
  made o ho := ⟨(h.made o ho).1, lt_of_lt_of_le (h.made o ho).2 hde.objects_size_le⟩
  nodup := h.nodup

end Checker

namespace Pass

lemma declare_of_free (name : Option Ident) (n : Nat) (hx : x.index < c.store.scopes.size)
    (hblank : (c.store.object o).isBlank = false)
    (hfree : (c.store.scope x).find? (c.store.object o).name = none) :
    (((declare x name o n).1 c).2.store.scope x).bindings =
        (c.store.scope x).bindings ++ [((c.store.object o).name, o)] ∧
      ((declare x name o n).1 c).2.history = c.history ∧
      ((declare x name o n).1 c).2.sink = c.sink := by
  rw [declare_of_find?_eq_none hblank hfree]
  have hbind := Store.bindings_bind_of_free hx hfree
  cases name <;> exact ⟨hbind, rfl, rfl⟩

end Pass

end GoCheck
