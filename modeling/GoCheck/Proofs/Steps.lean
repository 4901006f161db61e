import GoCheck.Check.Program
import Mathlib.Logic.Basic

/-!
# What a check keeps

A pass changes the state of a check by steps alone, so what every step keeps is kept by any pass. In
a session a host and a check take turns on one state.
-/

namespace GoCheck

open Build List

variable {t : TypeId} {β α : Type} {g : Object → β} {P : Checker → Prop}

namespace Object

variable (o : Object) (used : Bool) (v : Constant)

@[simp] lemma value?_setUsed : (o.setUsed used).value? = o.value? := by
  cases h : o.entity <;> simp [setUsed, value?, h]

@[simp] lemma type_setUsed : (o.setUsed used).type = o.type := by
  cases h : o.entity <;> simp [setUsed, h]

@[simp] lemma parent_setUsed : (o.setUsed used).parent = o.parent := by
  cases h : o.entity <;> simp [setUsed, h]

@[simp] lemma type_setValue : (o.setValue v).type = o.type := by
  cases h : o.entity <;> simp [setValue, h]

@[simp] lemma parent_setValue : (o.setValue v).parent = o.parent := by
  cases h : o.entity <;> simp [setValue, h]

@[simp] lemma value?_giveType (t : TypeId) : (o.giveType t).value? = o.value? := rfl

lemma type_giveType_eq_some : (o.giveType t).type = some u ↔
    o.type = some u ∨ o.type = none ∧ t = u := by
  cases h : o.type <;> simp [giveType, h]

end Object

lemma Ty.isNamed_of_isComposed {ty : Ty} (h : ty.isComposed) : ty.isNamed = false := by
  cases ty <;> first | rfl | cases h

namespace Store

variable {s s' : Store} {o : ObjectId}

lemma getD_modify (xs : Array α) (i j : Nat) (f : α → α) (d : α) : (xs.modify i f)[j]?.getD d =
      if i = j ∧ i < xs.size then f (xs[j]?.getD d) else xs[j]?.getD d := by
  rw [Array.getElem?_modify]
  by_cases hij : i = j
  · subst hij
    by_cases hi : i < xs.size <;> simp [hi]
  · simp [hij]

lemma object_modifyObject (s : Store) (o o' : ObjectId) (f : Object → Object) :
    (s.modifyObject o f).object o' =
      if o = o' ∧ o.index < s.objects.size then f (s.object o') else s.object o' := by
  obtain ⟨i⟩ := o
  obtain ⟨j⟩ := o'
  simpa [object, modifyObject] using getD_modify s.objects i j f default

variable {P : Object → Prop}

lemma object_modifyObject_keep (hf : ∀ ob, P ob → P (f ob)) (h : P (s.object o')) :
    P ((s.modifyObject o f).object o') := by
  rw [object_modifyObject]
  split
  · exact hf _ h
  · exact h

lemma view_modifyObject (hf : ∀ ob, g (f ob) = g ob) (o' : ObjectId) :
    g ((s.modifyObject o f).object o') = g (s.object o') :=
  object_modifyObject_keep (fun ob h => (hf ob).trans h) rfl

lemma index_lt_of_object (hdefault : ¬P default) (h : P (s.object o)) :
    o.index < s.objects.size := by
  refine Nat.not_le.mp fun hle => hdefault ?_
  rwa [object, Array.getElem?_eq_none hle] at h

lemma object_newObject (s : Store) (ob : Object) (o : ObjectId) :
    (newObject ob s).2.object o = if o.index = s.objects.size then ob else s.object o := by
  simp only [newObject, object, Array.getElem?_push]
  split <;> rfl

lemma type_newType (s : Store) (ty : Ty) (t : TypeId) :
    (newType ty s).2.type t = if t.index = s.types.size then ty else s.type t := by
  simp only [newType, type, Array.getElem?_push]
  split <;> rfl

lemma type_newType_of_lt (ht : t.index < s.types.size) : (newType ty s).2.type t = s.type t := by
  rw [type_newType, if_neg]
  omega

lemma scope_modifyScope (s : Store) (c d : ScopeId) (f : Scope → Scope) :
    (s.modifyScope c f).scope d =
      if c = d ∧ c.index < s.scopes.size then f (s.scope d) else s.scope d := by
  obtain ⟨i⟩ := c
  obtain ⟨j⟩ := d
  simpa [scope, modifyScope] using getD_modify s.scopes i j f default

variable {c d : ScopeId}

@[simp]
lemma newScope_types : (newScope parent start stop comment isFunc s).2.types = s.types := by
  simp only [newScope]
  split
  · split <;> rfl
  · rfl

@[simp]
lemma newScope_objects : (newScope parent start stop comment isFunc s).2.objects = s.objects := by
  simp only [newScope]
  split
  · split <;> rfl
  · rfl

/-- A new scope is added, and the scope around it only gets a child. -/
lemma view_newScope {g : Scope → β} (hg : ∀ sc l, g { sc with children := l } = g sc)
    (d : ScopeId) : g ((newScope parent start stop comment isFunc s).2.scope d) =
      if d.index = s.scopes.size then
        g { parent, start, stop, comment := if isFunc then "function" else comment, isFunc }
      else g (s.scope d) := by
  have hpush : ∀ sc, g (({ s with scopes := s.scopes.push sc } : Store).scope d) =
      if d.index = s.scopes.size then g sc else g (s.scope d) := fun sc => by
    simp only [scope, Array.getElem?_push]
    split <;> rfl
  simp only [newScope]
  split
  · split
    · exact hpush _
    · rw [scope_modifyScope, apply_ite g, hg, ite_self]
      exact hpush _
  · exact hpush _

lemma bindings_newScope (d : ScopeId) :
    ((newScope parent start stop comment isFunc s).2.scope d).bindings =
      (s.scope d).bindings := by
  rw [view_newScope (g := Scope.bindings) fun _ _ => rfl]
  split
  · rename_i hd
    simp [scope, hd, default]
  · rfl

lemma parent_newScope (d : ScopeId) :
    ((newScope parent start stop comment isFunc s).2.scope d).parent =
      if d.index = s.scopes.size then parent else (s.scope d).parent :=
  view_newScope (fun _ _ => rfl) d

@[simp]
lemma parent_bind (s : Store) (c d : ScopeId) (o : ObjectId) :
    ((s.bind c o).2.scope d).parent = (s.scope d).parent := by
  simp only [bind]
  split
  · rfl
  · change ((s.modifyScope c _).scope d).parent = _
    rw [scope_modifyScope, apply_ite Scope.parent, ite_self]

@[simp]
lemma bind_types (s : Store) (c : ScopeId) (o : ObjectId) : (s.bind c o).2.types = s.types := by
  simp only [bind]
  split <;> rfl

lemma view_bind (h : ∀ ob p, g { ob with parent := p } = g ob) (s : Store)
    (c : ScopeId) (o o' : ObjectId) : g ((s.bind c o).2.object o') = g (s.object o') := by
  simp only [bind]
  split
  · rfl
  · exact view_modifyObject (fun ob => h ob _) o'

@[simp]
lemma type_object_bind (s : Store) (c : ScopeId) (o o' : ObjectId) :
    ((s.bind c o).2.object o').type = (s.object o').type :=
  view_bind (fun _ _ => rfl) ..

lemma bindings_bind (h : b ∈ ((s.bind c o).2.scope d).bindings) :
    b ∈ (s.scope d).bindings ∨ b.2 = o := by
  simp only [bind] at h
  split at h
  · exact .inl h
  · replace h : b ∈ ((s.modifyScope c _).scope d).bindings := h
    rw [scope_modifyScope] at h
    split at h
    · rcases mem_append.mp h with h | h
      · exact .inl h
      · exact .inr (by rw [mem_singleton.mp h])
    · exact .inl h

lemma Step.types_size_le (h : s.Step s') : s.types.size ≤ s'.types.size := by
  cases h with
  | newType => simp [Build.newType]
  | newScope => simp
  | bind => simp
  | _ => exact Nat.le_refl _

lemma bind_objects_size (s : Store) (c : ScopeId) (o : ObjectId) :
    (s.bind c o).2.objects.size = s.objects.size := by
  simp only [bind]
  split
  · rfl
  · simp [modifyObject, modifyScope]

lemma Step.objects_size_le (h : s.Step s') : s.objects.size ≤ s'.objects.size := by
  cases h with
  | newObject => simp [Build.newObject]
  | newScope => simp
  | bind => simp [bind_objects_size]
  | newType => exact Nat.le_refl _
  | _ => simp [modifyObject]

lemma newScope_index (parent : Option ScopeId) (start stop : Nat) (comment : String)
    (isFunc : Bool) (s : Store) :
    (newScope parent start stop comment isFunc s).1.index = s.scopes.size := by
  simp only [newScope]
  split
  · split <;> rfl
  · rfl

lemma newScope_scopes_size :
    (newScope parent start stop comment isFunc s).2.scopes.size = s.scopes.size + 1 := by
  simp only [newScope]
  split
  · split <;> simp [modifyScope]
  · simp

lemma bind_scopes_size (s : Store) (c : ScopeId) (o : ObjectId) :
    (s.bind c o).2.scopes.size = s.scopes.size := by
  simp only [bind]
  split
  · rfl
  · simp [modifyObject, modifyScope]

lemma Step.scopes_size_le (h : s.Step s') : s.scopes.size ≤ s'.scopes.size := by
  cases h with
  | newScope => simp [newScope_scopes_size]
  | bind => simp [bind_scopes_size]
  | _ => exact Nat.le_refl _

lemma Step.parent_eq (h : s.Step s') (hd : d.index < s.scopes.size) :
    (s'.scope d).parent = (s.scope d).parent := by
  cases h with
  | newScope => rw [parent_newScope, if_neg (Nat.ne_of_lt hd)]
  | bind => exact parent_bind ..
  | _ => rfl

lemma Step.type_eq (h : s.Step s') (ht : t.index < s.types.size) : s'.type t = s.type t := by
  cases h with
  | newType => exact type_newType_of_lt ht
  | newScope => simp [type]
  | bind => simp [type]
  | _ => rfl

lemma Step.view_eq (h : s.Step s')
    (hplace : ∀ ob p n t, g { ob with parent := p, visibleFrom := n, type := t } = g ob)
    (hused : ∀ ob used, g (ob.setUsed used) = g ob) (hvalue : ∀ ob v, g (ob.setValue v) = g ob)
    (ho : o.index < s.objects.size) : g (s'.object o) = g (s.object o) := by
  cases h with
  | newType => rfl
  | newObject ob => rw [object_newObject, if_neg (Nat.ne_of_lt ho)]
  | newScope => simp [object]
  | bind => exact view_bind (fun ob p => hplace ob p _ _) ..
  | setVisible p n => exact view_modifyObject (fun ob => hplace ob _ n _) o
  | setUsed p used => exact view_modifyObject (hused · used) o
  | giveType p t => exact view_modifyObject (fun ob => hplace ob _ _ _) o
  | setValue p v => exact view_modifyObject (hvalue · v) o

lemma Step.object_type (h : s.Step s') (ho : (s.object o).type = some t) :
    (s'.object o).type = some t := by
  cases h with
  | newType => exact ho
  | newObject ob =>
    have hlt := index_lt_of_object (P := (·.type = some t)) (by simp) ho
    rwa [object_newObject, if_neg (Nat.ne_of_lt hlt)]
  | newScope => simpa [object] using ho
  | bind => simpa using ho
  | setVisible o' n =>
    exact object_modifyObject_keep (P := fun ob => ob.type = some t) (fun _ hob => hob) ho
  | setUsed o' used | setValue o' v =>
    exact object_modifyObject_keep (P := fun ob => ob.type = some t) (fun ob hob => by simpa) ho
  | giveType o' u =>
    exact object_modifyObject_keep (fun ob hob => ob.type_giveType_eq_some.mpr (.inl hob)) ho

end Store

namespace Checker

variable {c d : Checker} {o : ObjectId} {r : Diagnostic}

lemma Steps.keep (hP : ∀ {c d}, c.Step d → P c → P d) (h : c.Steps d) (hc : P c) : P d := by
  induction h with
  | refl => exact hc
  | tail _ hstep ih => exact hP hstep ih

lemma Steps.keepStore {P : Store → Prop} (hP : ∀ {s s'}, s.Step s' → P s → P s')
    (h : c.Steps d) (hc : P c.store) : P d.store := by
  refine h.keep (P := fun c => P c.store) (fun hstep hc => ?_) hc
  cases hstep with
  | store hs => exact hP hs hc
  | _ => exact hc

lemma Steps.objects_size_le (h : c.Steps d) : c.store.objects.size ≤ d.store.objects.size :=
  h.keepStore (fun hs hle => Nat.le_trans hle hs.objects_size_le) (Nat.le_refl _)

lemma Steps.types_size_le (h : c.Steps d) : c.store.types.size ≤ d.store.types.size :=
  h.keepStore (fun hs hle => Nat.le_trans hle hs.types_size_le) (Nat.le_refl _)

lemma Steps.scopes_size_le (h : c.Steps d) : c.store.scopes.size ≤ d.store.scopes.size :=
  h.keepStore (fun hs hle => Nat.le_trans hle hs.scopes_size_le) (Nat.le_refl _)

/-- What no step changes about an entity that exists. -/
lemma Steps.view_eq {f : Store → Nat} {g : Store → β} (h : c.Steps d)
    (hf : ∀ {s s'}, s.Step s' → f s ≤ f s')
    (hg : ∀ {s s'}, s.Step s' → i < f s → g s' = g s) (hi : i < f c.store) :
    g d.store = g c.store := by
  have hkeep := h.keepStore (P := fun s => i < f s ∧ g s = g c.store)
      (fun hs hc => ⟨Nat.lt_of_lt_of_le hc.1 (hf hs), (hg hs hc.1).trans hc.2⟩) ⟨hi, rfl⟩
  exact hkeep.2

lemma Steps.parent_eq {x : ScopeId} (h : c.Steps d) (hx : x.index < c.store.scopes.size) :
    (d.store.scope x).parent = (c.store.scope x).parent :=
  h.view_eq (·.scopes_size_le) (fun hs hx => hs.parent_eq hx) hx

lemma Steps.type_eq (h : c.Steps d) (ht : t.index < c.store.types.size) :
    d.store.type t = c.store.type t :=
  h.view_eq (·.types_size_le) (fun hs ht => hs.type_eq ht) ht

lemma Steps.object_type (h : c.Steps d) (ho : (c.store.object o).type = some t) :
    (d.store.object o).type = some t :=
  h.keepStore (fun hs ho => hs.object_type ho) ho

lemma Steps.mem_reports (h : c.Steps d) (hr : r ∈ c.sink.reports) : r ∈ d.sink.reports := by
  refine h.keep (P := fun c => r ∈ c.sink.reports) (fun hstep hr => ?_) hr
  cases hstep with
  | emit => exact Array.mem_push_of_mem _ hr
  | _ => exact hr

lemma Steps.reports_append (h : c.Steps d) :
    ∃ rs, d.sink.reports.toList = c.sink.reports.toList ++ rs := by
  induction h with
  | refl => exact ⟨[], by simp⟩
  | tail _ last ih =>
    obtain ⟨rs, hrs⟩ := ih
    cases last with
    | emit r => exact ⟨rs ++ [r], by simp [Sink.emit, hrs]⟩
    | _ => exact ⟨rs, hrs⟩

end Checker

lemma Pass.steps (m : Pass α) (c : Checker) : c.Steps (m.1 c).2 := m.2 c

instance : LawfulMonad Pass :=
  LawfulMonad.mk' Pass (fun _ => rfl) (fun _ _ => rfl) (fun _ _ _ => rfl)

namespace Pass

variable {m : Pass α} {c : Checker}

/-- The reports that a pass adds. -/
def emitted (m : Pass α) (c : Checker) : List Diagnostic :=
  (m.1 c).2.sink.reports.toList.drop c.sink.reports.size

lemma emitted_eq_of_append
    (h : (m.1 c).2.sink.reports.toList = c.sink.reports.toList ++ rs) : m.emitted c = rs := by
  rw [emitted, h, ← Array.length_toList, drop_left]

lemma reports_eq_append_emitted (m : Pass α) (c : Checker) :
    (m.1 c).2.sink.reports.toList = c.sink.reports.toList ++ m.emitted c := by
  obtain ⟨rs, hrs⟩ := (m.2 c).reports_append
  rw [emitted_eq_of_append hrs, hrs]

lemma emitted_bind : (m >>= f).emitted c = m.emitted c ++ (f (m.1 c).1).emitted (m.1 c).2 := by
  apply emitted_eq_of_append
  rw [← append_assoc, ← reports_eq_append_emitted m c]
  exact reports_eq_append_emitted (f (m.1 c).1) (m.1 c).2

lemma emitted_eq_nil (h : (m.1 c).2.sink = c.sink) : m.emitted c = [] :=
  emitted_eq_of_append (by rw [h, append_nil])

lemma emitted_emit {d : Diagnostic} : (emit d).emitted c = [d] :=
  emitted_eq_of_append (by simp [emit, step, Sink.emit])

end Pass

/-! ## Sessions -/

/-- What a host asks of a check. -/
inductive Request where
  | declareVar (name : String) (type : TypeId)
  | declareConst (name : String) (type : TypeId) (value : Constant)
  | declareType (typeName : ObjectId)
  | declareFunc (name : String) (sig : TypeId)
  | checkFunc (sig : FuncSig) (body : Block)
  | checkFuncBody (sig : TypeId) (body : Block)
  | checkBlock (body : Block)

lemma Pass.steps_run (m : Pass α) (c : Checker) : c.Steps (m.run.run c).2 := m.2 c

namespace Request

/-- The state once a request is answered. -/
def answer : Request → Checker → Checker
  | declareVar name t, c => ((Check.declareVar name t).run c).2
  | declareConst name t v, c => ((Check.declareConst name t v).run c).2
  | declareType o, c => ((Check.declareType o).run c).2
  | declareFunc name sig, c => ((Check.declareFunc name sig).run c).2
  | checkFunc sig body, c => ((Check.checkFunc sig body).run c).2
  | checkFuncBody sig body, c => ((Check.checkFuncBody sig body).run c).2
  | checkBlock body, c => ((Check.checkBlock body).run c).2

lemma steps (r : Request) (c : Checker) : c.Steps (r.answer c) := by
  cases r <;> exact Pass.steps_run _ c

end Request

/-- What a host is held to: the changes that it makes by itself, and its requests. -/
structure Host where
  changes : Store → Store → Prop
  asks : Store → Request → Prop

/-- The states that a session with a host reaches, along with the reports that the host has taken. -/
inductive Session (host : Host) : List Diagnostic → Checker → Prop where
  | start (config : Config) : Session host [] (.start config)
  | change :
      Session host taken c → host.changes c.store s → Session host taken { c with store := s }
  | move (context : Context) :
      Session host taken c → Session host taken { c with context }
  | take :
      Session host taken c → Session host (taken ++ c.sink.reports.toList) { c with sink := {} }
  | ask :
      Session host taken c → host.asks c.store r → Session host taken (r.answer c)

/-! ## Invariants -/

namespace Pass

variable {m n : Pass α} {f : α → Pass β}

/-- From states with a property, a pass leads to such states and to results with `Q`. -/
structure Maintains (I : Checker → Prop) (Q : α → Prop) (m : Pass α) : Prop where
  state : ∀ c, I c → I (m.1 c).2
  result : ∀ c, I c → Q (m.1 c).1

/-- A pass that maintains a property, whatever its results. -/
abbrev Preserves (I : Checker → Prop) (m : Pass α) : Prop := m.Maintains I fun _ => True

lemma preserves_of_state (h : ∀ c, I c → I (m.1 c).2) : m.Preserves I := ⟨h, fun _ _ => trivial⟩

lemma maintains_pure (ha : Q a) : (pure a : Pass α).Maintains I Q :=
  ⟨fun _ hc => hc, fun _ _ => ha⟩

lemma preserves_pure (a : α) : (pure a : Pass α).Preserves I := maintains_pure trivial

lemma Maintains.bind (hm : m.Maintains I Q) (hf : ∀ a, Q a → (f a).Maintains I R) :
    (m >>= f).Maintains I R :=
  ⟨fun c hc => (hf _ (hm.result c hc)).state _ (hm.state c hc),
    fun c hc => (hf _ (hm.result c hc)).result _ (hm.state c hc)⟩

lemma Maintains.before (hm : m.Maintains I Q) (hf : ∀ a, (f a).Maintains I R) :
    (m >>= f).Maintains I R :=
  hm.bind fun a _ => hf a

lemma Preserves.before (hm : m.Preserves I) (hf : ∀ a, (f a).Maintains I R) :
    (m >>= f).Maintains I R :=
  Maintains.before hm hf

lemma Maintains.ite [Decidable p] (hm : m.Maintains I Q)
    (hn : n.Maintains I Q) : (if p then m else n).Maintains I Q := by
  by_cases hp : p
  · rwa [if_pos hp]
  · rwa [if_neg hp]

lemma preserves_optionForM {o : Option α} {g : α → Pass PUnit} (h : ∀ a, (g a).Preserves I) :
    (o.forM g).Preserves I := by
  cases o with
  | none => exact preserves_pure _
  | some a => exact h a

lemma preserves_forM {l : List α} {g : α → Pass PUnit} (h : ∀ a ∈ l, (g a).Preserves I) :
    (l.forM g).Preserves I := by
  induction l with
  | nil => exact preserves_pure _
  | cons a l ih =>
    exact (h a mem_cons_self).before fun _ => ih fun b hb => h b (mem_cons_of_mem _ hb)

lemma maintains_current {f : Checker → Pass β} (hf : ∀ c, I c → (f c).Maintains I R) :
    (current >>= f).Maintains I R :=
  ⟨fun c hc => (hf c hc).state c hc, fun c hc => (hf c hc).result c hc⟩

lemma maintains_entities {f : Store → Pass β} (hf : ∀ s, (f s).Maintains I R) :
    (entities >>= f).Maintains I R :=
  ⟨fun c hc => (hf c.store).state c hc, fun c hc => (hf c.store).result c hc⟩

end Pass

/-! ## Facts about states -/

variable {c d : Checker} {l : List α}

/-- Something about the state of a check that no step takes back. -/
structure Fact where
  At : Checker → Prop
  kept : ∀ {c d}, c.Steps d → At c → At d

namespace Fact

lemma At.later {F : Fact} (h : F.At c) (hd : c.Steps d) : F.At d := F.kept hd h

/-- What does not depend on the state. -/
def sure (P : Prop) : Fact := ⟨fun _ => P, fun _ h => h⟩

def any : Fact := sure True

def and (F G : Fact) : Fact :=
  ⟨fun c => F.At c ∧ G.At c, fun hd h => ⟨h.1.later hd, h.2.later hd⟩⟩

/-- A fact under a condition. -/
def given (P : Prop) (F : Fact) : Fact := ⟨fun c => P → F.At c, fun hd h hp => (h hp).later hd⟩

/-- A fact about each member of a list. -/
def all (F : α → Fact) (l : List α) : Fact :=
  ⟨fun c => ∀ a ∈ l, (F a).At c, fun hd h a ha => (h a ha).later hd⟩

/-- A fact about what there is, if there is anything. -/
def opt (F : α → Fact) (o : Option α) : Fact :=
  ⟨fun c => ∀ a ∈ o, (F a).At c, fun hd h a ha => (h a ha).later hd⟩

variable {F : α → Fact}

lemma all_nil : (all F []).At c := fun _ h => nomatch h

lemma all_cons : (all F (a :: l)).At c ↔ (F a).At c ∧ (all F l).At c := forall_mem_cons

lemma opt_none : (opt F none).At c := fun _ h => nomatch h

lemma opt_some (h : (F a).At c) : (opt F (some a)).At c := by
  rintro _ ⟨⟩
  exact h

end Fact

namespace Pass

variable {m : Pass α} {f : α → Pass β}

/-- From a state, a pass leads to one with the property `I`, and `Q` holds of its result. -/
structure Leads (m : Pass α) (I : Checker → Prop) (c : Checker) (Q : α → Fact) : Prop where
  state : I (m.1 c).2
  result : (Q (m.1 c).1).At (m.1 c).2

/-- The same with nothing known of the result. -/
abbrev LeadsTo (m : Pass α) (I : Checker → Prop) (c : Checker) : Prop := m.Leads I c fun _ => .any

/-- The same from every state with the property. -/
abbrev Always (m : Pass α) (I : Checker → Prop) (Q : α → Fact) : Prop :=
  ∀ c, I c → m.Leads I c Q

lemma Leads.pure (hc : I c) (ha : (Q a).At c) : (pure a : Pass α).Leads I c Q := ⟨hc, ha⟩

lemma Leads.bind (hm : m.Leads I c R)
    (hf : ∀ a d, c.Steps d → I d → (R a).At d → (f a).Leads I d S) : (m >>= f).Leads I c S :=
  have hnext := hf _ _ (m.2 c) hm.state hm.result
  ⟨hnext.state, hnext.result⟩

lemma Leads.before (hm : m.Leads I c R) (hf : ∀ a d, c.Steps d → I d → (f a).Leads I d S) :
    (m >>= f).Leads I c S :=
  hm.bind fun a d hd hI _ => hf a d hd hI

lemma LeadsTo.before (hm : m.LeadsTo I c) (hf : ∀ a d, c.Steps d → I d → (f a).Leads I d S) :
    (m >>= f).Leads I c S :=
  Leads.before hm hf

lemma Leads.mono (hm : m.Leads I c R) (h : ∀ a d, c.Steps d → I d → (R a).At d → (Q a).At d) :
    m.Leads I c Q :=
  ⟨hm.state, h _ _ (m.2 c) hm.state hm.result⟩

lemma Leads.to (hm : m.Leads I c R) : m.LeadsTo I c := ⟨hm.state, trivial⟩

lemma Leads.discard (hm : m.Leads I c R) : (Functor.discard m).LeadsTo I c :=
  hm.before fun _ _ _ hd => .pure hd trivial

lemma Leads.after (h : (f (m.1 c).1).Leads I (m.1 c).2 S) : (m >>= f).Leads I c S := ⟨h.1, h.2⟩

lemma Leads.current {f : Checker → Pass β} (h : (f c).Leads I c S) : (current >>= f).Leads I c S :=
  .after h

lemma Leads.entities {f : Store → Pass β} (h : (f c.store).Leads I c S) :
    (entities >>= f).Leads I c S :=
  .after h

lemma Leads.describe {f : String → Pass β}
    (h : (f (x.describe c.store)).Leads I c S) : (describe x >>= f).Leads I c S :=
  .after h

lemma Leads.typeText {f : String → Pass β}
    (h : (f (c.store.typeText t)).Leads I c S) : (typeText t >>= f).Leads I c S :=
  .after h

lemma Leads.deferredCount {f : Nat → Pass β} (h : (f c.deferred.length).Leads I c S) :
    (deferredCount >>= f).Leads I c S :=
  .after h

variable {g : α → Pass PUnit}

lemma leads_forM (hc : I c) (h : ∀ a ∈ l, ∀ d, c.Steps d → I d → (g a).LeadsTo I d) :
    (l.forM g).LeadsTo I c := by
  induction l generalizing c with
  | nil => exact .pure hc trivial
  | cons a l ih =>
    refine (h a (by simp) c (.refl c) hc).before fun _ d hd hI => ih hI fun b hb e he => ?_
    exact h b (by simp [hb]) e (hd.trans he)

lemma leads_forM_append (h : (g a).LeadsTo I ((l.forM g).1 c).2)
    (hg : ∀ b ∈ l', ∀ d, I d → (g b).LeadsTo I d) : ((l ++ a :: l').forM g).LeadsTo I c := by
  induction l generalizing c with
  | nil => exact h.before fun _ d _ hd => leads_forM hd fun b hb e _ he => hg b hb e he
  | cons b l ih => exact .after (ih h)

/-- Passes before it may keep another property, on which it depends. -/
lemma leads_forM_of_mem (hc : J c) (ha : a ∈ l)
    (hJ : ∀ b ∈ l, ∀ d, J d → (g b).LeadsTo J d) (h : ∀ d, J d → (g a).LeadsTo I d)
    (hI : ∀ b ∈ l, ∀ d, I d → (g b).LeadsTo I d) : (l.forM g).LeadsTo I c := by
  obtain ⟨l, l', rfl⟩ := append_of_mem ha
  have hready : (l.forM g).LeadsTo J c := leads_forM hc fun b hb d _ => hJ b (by simp [hb]) d
  exact leads_forM_append (h _ hready.state) fun b hb => hI b (by simp [hb])

variable {o : Option α}

lemma leads_optionForM (hc : I c) (h : ∀ a ∈ o, (g a).LeadsTo I c) : (o.forM g).LeadsTo I c := by
  cases o with
  | none => exact .pure hc trivial
  | some a => exact h a rfl

lemma leads_mapM (hc : I c) (h : ∀ a ∈ l, ∀ d, c.Steps d → I d → (f a).Leads I d S) :
    (l.mapM f).Leads I c fun bs => (Fact.all S bs).and (.sure (bs.length = l.length)) := by
  induction l generalizing c with
  | nil => exact .pure hc ⟨Fact.all_nil, rfl⟩
  | cons a l ih =>
    rw [mapM_cons]
    refine (h a (by simp) c (.refl c) hc).bind fun b d hd hI hb => ?_
    have htail := ih hI fun a ha e he => h a (by simp [ha]) e (hd.trans he)
    refine htail.bind fun bs e he hI' hbs => .pure hI' ⟨Fact.all_cons.mpr ⟨hb.later he, hbs.1⟩, ?_⟩
    exact congrArg (· + 1) hbs.2

lemma leads_optionMapM (hc : I c) (h : ∀ a ∈ o, (f a).Leads I c S) :
    (o.mapM f).Leads I c (Fact.opt S) := by
  cases o with
  | none => exact .pure hc Fact.opt_none
  | some a => exact (h a rfl).bind fun _ _ _ hd hb => .pure hd (Fact.opt_some hb)

lemma Always.preserves (hm : m.Always I Q) : m.Preserves I :=
  preserves_of_state fun c hc => (hm c hc).state

end Pass

end GoCheck
