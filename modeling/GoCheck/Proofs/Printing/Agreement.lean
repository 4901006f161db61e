import GoCheck.Proofs.Printing.Types
import GoCheck.Proofs.Visibility.Tree

/-!
# The text of a type and of its expression

A type expression makes the types that it is written with, one after the other, so its type is written
like the expression, with parentheses where the expression needs them to be read in the same way.
-/

namespace GoCheck

open Pass List Option Store

variable {s : Store} {name : String} {c d : Checker} {os : List ObjectId}

/-- The type that an object names, if it is the name of a type. -/
def Store.typeName? (s : Store) (o : ObjectId) : Option TypeId :=
  if (s.object o).isTypeName then (s.object o).type else none

/-- The predeclared type of a name. -/
def predeclared? (name : String) : Option TypeId :=
  ((initial.scope Build.universeScope).find? name).bind initial.typeName?

/-- The type that a name denotes where a check is. -/
def Checker.denoted? (c : Checker) (name : String) : Option TypeId :=
  (c.context.scope.bind (c.store.resolve? · name)).bind fun found => c.store.typeName? found.2

namespace Store

variable {s' : Store}

/-- Whether a type is shown by a name other than that of the empty interface. -/
def isNamedAs (s : Store) (t : TypeId) (name : String) : Bool :=
  t ≠ .any && t.index < s.types.size && match s.type t with
    | .basic k => k.name = name
    | .named n => n.object.index < s.objects.size && (s.object n.object).name = name
    | _ => false

lemma showsName_of_isNamedAs (h : s.isNamedAs t name) : s.ShowsName t name := by
  simp only [isNamedAs, Bool.and_eq_true, decide_eq_true_eq, ne_eq] at h
  obtain ⟨⟨hne, hlt⟩, hty⟩ := h
  split at hty
  · rename_i k hk
    obtain rfl := of_decide_eq_true hty
    exact .basic hk hne hlt
  · rename_i n hn
    simp only [Bool.and_eq_true, decide_eq_true_eq] at hty
    obtain ⟨hobject, rfl⟩ := hty
    exact .named hn hne hobject
  · cases hty

lemma ShowsName.type_any (h : s.ShowsName .any name) : s.type .any = .interface {} := by
  generalize hany : TypeId.any = t at h
  cases h with
  | any hty => exact hty
  | basic _ hne _ | named _ hne _ => exact absurd hany.symm hne

/-- A host gives types more methods, but no other name. -/
lemma ShowsName.construction (h : s.ShowsName t name) (hstep : s.Construction s') :
    s'.ShowsName t name := by
  cases hstep with
  | newType _ =>
    refine h.of_kept (type_newType_of_lt h.lt) ?_ fun o ho => ⟨ho, rfl⟩
    simp [Build.newType]
  | @newObject ob _ _ =>
    refine h.of_kept rfl le_rfl fun o ho => ⟨?_, ?_⟩
    · simpa [Build.newObject] using Nat.lt_succ_of_lt ho
    · rw [object_newObject, if_neg (ne_of_lt ho)]
  | newScope start stop comment isFunc _ =>
    exact h.of_kept (by simp [type]) (by simp) fun o ho => ⟨by simpa using ho, by simp [object]⟩
  | addPackage _ => exact h.of_kept rfl le_rfl fun o ho => ⟨ho, rfl⟩
  | @bind x o _ _ =>
    refine h.of_kept (by simp [type]) (by simp) fun p hp => ⟨?_, name_object_bind s x o p⟩
    rwa [bind_objects_size]
  | @setObject o f _ hname _ _ =>
    refine h.of_kept rfl le_rfl fun p hp => ⟨by simpa [modifyObject] using hp, ?_⟩
    exact object_modifyObject_keep (P := fun ob => ob.name = (s.object p).name)
      (fun ob hob => (hname ob).trans hob) rfl
  | @addMethod u m _ =>
    have htype := type_modifyType s u t (Ty.withMethod m)
    cases h with
    | any hty => exact .any (by rw [htype, hty]; split <;> rfl)
    | basic hty hne hlt =>
      refine .basic ?_ hne (by simpa [modifyType] using hlt)
      rw [htype, hty]
      split <;> rfl
    | @named _ n hty hne hlt =>
      rw [hty] at htype
      split at htype
      · exact ShowsName.named (n := { n with methods := n.methods ++ [m] }) htype hne hlt
      · exact .named htype hne hlt

end Store

lemma showsName_of_predeclared? (h : predeclared? name = some t) :
    name ≠ "_" ∧ name ≠ "<unknown>" ∧ (Checker.start {}).store.ShowsName t name := by
  have hall : ∀ b ∈ (initial.scope Build.universeScope).bindings,
      ∀ t ∈ initial.typeName? b.2, b.1 ≠ "_" ∧ b.1 ≠ "<unknown>" ∧
        ((t = .any ∧ b.1 = "any") ∨ (Checker.start {}).store.isNamedAs t b.1) := by
    decide +kernel
  obtain ⟨o, hfind, ht⟩ := bind_eq_some_iff.mp h
  obtain ⟨hblank, hunknown, ⟨rfl, rfl⟩ | hnamed⟩ := hall _ (mem_bindings_of_find? hfind) t ht
  · exact ⟨hblank, hunknown, .any (by decide +kernel)⟩
  · exact ⟨hblank, hunknown, showsName_of_isNamedAs hnamed⟩

lemma BuiltSession.showsName (h : BuiltSession c)
    (hd : c.SafeSteps false d) (ht : (Checker.start {}).store.ShowsName t name) :
    d.store.ShowsName t name := by
  have hkeep : ∀ s s' : Store, s.Closed false → s.ShowsName t name → s.Construction s' →
      s'.ShowsName t name := fun _ _ _ hs hstep => hs.construction hstep
  exact hd.keep_store hkeep h.closed (h.keep ht hkeep)

namespace Checker

lemma Steps.isTypeName (h : c.Steps d) (ho : (c.store.object o).isTypeName) :
    (d.store.object o).isTypeName := by
  refine h.keepStore (P := fun s => (s.object o).isTypeName) (fun {s s'} hs ho => ?_) ho
  have hlt := index_lt_of_object (P := (·.isTypeName)) (by simp [default, Object.isTypeName]) ho
  refine Eq.trans (hs.view_eq (fun _ _ _ _ => rfl) (fun ob used => ?_) (fun ob v => ?_) hlt) ho
  all_goals cases hob : ob.entity
  all_goals simp [Object.setUsed, Object.setValue, Object.isTypeName, hob]

lemma Steps.typeName? (h : c.Steps d) (ho : c.store.typeName? o = some t) :
    d.store.typeName? o = some t := by
  simp only [Store.typeName?, ite_none_right_eq_some] at ho ⊢
  exact ⟨h.isTypeName ho.1, h.object_type ho.2⟩

/-- From a state, one gets to another by binding names in new scopes alone. -/
abbrev Widens (c d : Checker) : Prop := c.QuietSteps (c.store.scopes.size ≤ ·.index) d

lemma Widens.after {m : Pass α} (h : c.Widens d)
    (hm : m.IsQuiet (c.store.scopes.size ≤ ·.index)) : c.Widens (m.1 d).2 :=
  h.trans (hm d fun _ hx => le_trans h.steps.scopes_size_le hx)

lemma Widens.denoted? (h : c.Widens d) (hc : c.WellScoped) (hname : c.denoted? name = some t) :
    d.denoted? name = some t := by
  obtain ⟨⟨x, o⟩, hfound, ho⟩ := bind_eq_some_iff.mp hname
  refine bind_eq_some_iff.mpr ⟨(x, o), ?_, h.steps.typeName? ho⟩
  rw [h.context_eq]
  cases hscope : c.context.scope with
  | none => simp [hscope] at hfound
  | some y =>
    rw [hscope] at hfound
    rw [← hfound]
    refine resolve?_congr hc.nested (hc.here y hscope) le_rfl h.steps.scopes_size_le ?_
    intro z hz
    refine ⟨?_, h.steps.parent_eq hz⟩
    rw [Scope.find?, h.bindings_eq (not_le.mpr hz), Scope.find?]

end Checker

namespace Store

lemma Spells.weaken (h : s.Spells t text lo hi) (hle : hi ≤ hi') : s.Spells t text lo hi' := by
  cases h with
  | name ht hlo => exact .name ht (le_trans hlo hle)
  | pointer ht hu hlt => exact .pointer ht hu (lt_of_lt_of_le hlt hle)
  | slice ht hu hlt => exact .slice ht hu (lt_of_lt_of_le hlt hle)
  | map ht hu hv hlt => exact .map ht hu hv (lt_of_lt_of_le hlt hle)
  | chan ht hu hlt => exact .chan ht hu (lt_of_lt_of_le hlt hle)
  | func ht hsig hp hr hps hrs hlt => exact .func ht hsig hp hr hps hrs (lt_of_lt_of_le hlt hle)

lemma SpellsVars.weaken (hle : hi ≤ hi') : ∀ {variadic os texts lo}, s.SpellsVars variadic os texts lo hi →
      s.SpellsVars variadic os texts lo hi'
  | _, _, _, _, .nil hlo => .nil (le_trans hlo hle)
  | _, _, _, _, .cons hlast ho ht hos => .cons hlast ho ht (hos.weaken hle)
  | _, _, _, _, .last ho ht hu => .last ho ht (hu.weaken hle)

/-- A variable before others. It is the last one of a variadic list only if there are no others. -/
lemma SpellsVars.before (h : s.SpellsVars (variadic && os.isEmpty) [o] [text] lo mid)
    (hos : s.SpellsVars variadic os texts mid hi) :
    s.SpellsVars variadic (o :: os) (text :: texts) lo hi := by
  generalize hcollects : (variadic && os.isEmpty) = collects at h
  cases h with
  | cons hlast ho ht hnil =>
    exact .cons (by simpa [hcollects] using hlast) ho (ht.weaken hnil.le) hos
  | last ho ht hu =>
    rw [Bool.and_eq_true, List.isEmpty_iff] at hcollects
    obtain ⟨rfl, rfl⟩ := hcollects
    cases hos with
    | nil hle => exact .last ho ht (hu.weaken hle)

lemma SpellsVars.typed (h : s.SpellsVars variadic [o] texts lo hi) :
    ∃ t, (s.object o).type = some t := by
  cases h with
  | cons _ ho _ _ => exact ⟨_, ho⟩
  | last ho _ _ => exact ⟨_, ho⟩

lemma isReceive_of_showsName (h : s.ShowsName t text) : s.isReceive t = false := by
  cases h with
  | any hty | basic hty _ _ | named hty _ _ => simp [isReceive, hty, Ty.chan?]

end Store

/-- A state in which a new type has been made. -/
structure Checker.Makes (d : Checker) (ty : Ty) (r : TypeId × Checker) : Prop where
  steps : d.Steps r.2
  index : r.1.index = d.store.types.size
  type : r.2.store.type r.1 = ty
  size : r.2.store.types.size = d.store.types.size + 1

lemma Checker.Makes.lt (h : d.Makes ty r) : r.1.index < r.2.store.types.size := by
  rw [h.index, h.size]
  exact Nat.lt_succ_self _

/-- In a state, a name denotes a type that is shown by it. -/
def Checker.Knows (c : Checker) (i : Ident) : Prop :=
  i.text ≠ "_" ∧ ∃ t, c.denoted? i.text = some t ∧ c.store.ShowsName t i.text

/-- A state in which a type expression has become a type, written like the expression. -/
structure Checker.Understands (d : Checker) (text : String) (receive : Bool) (r : TypeId × Checker) :
    Prop where
  spells : r.2.store.Spells r.1 text d.store.types.size r.2.store.types.size
  receive : r.2.store.isReceive r.1 = receive

/-- A state in which parameters have been made, with texts and names. -/
structure Checker.Lists (d : Checker) (variadic : Bool) (texts names : List String)
    (r : List ObjectId × Checker) : Prop where
  spells : r.2.store.SpellsVars variadic r.1 texts d.store.types.size r.2.store.types.size
  names : r.1.map (fun o => (r.2.store.object o).name) = names

namespace Pass

variable {i : Ident} {x : ScopeId}

lemma makes_newType (ty : Ty) (h : ty.isComposed) (d : Checker) :
    d.Makes ty ((newType ty h).1 d) where
  steps := (newType ty h).2 d
  index := rfl
  type := (type_newType d.store ty _).trans (if_pos rfl)
  size := Array.size_push _

/-- A name that is in sight gives its type, and makes nothing. -/
lemma resolveType_of_denoted? (hblank : i.text ≠ "_") (h : d.denoted? i.text = some t) :
    (i.resolveType.1 d).1 = t ∧ (i.resolveType.1 d).2.store = d.store := by
  obtain ⟨⟨x, o⟩, hfound, ho⟩ := bind_eq_some_iff.mp h
  simp only [typeName?, ite_none_right_eq_some] at ho
  have hlookup : ((lookup i.text).1 d).1 = some o := congrArg (Option.map Prod.snd) hfound
  have hstore : ((recordUse i.span o).1 ((lookup i.text).1 d).2).2.store = d.store := rfl
  rw [Ident.resolveType, if_neg hblank, bind_run, hlookup]
  rw [bind_run, entities_bind_run, hstore, if_pos ho.1, ho.2]
  exact ⟨rfl, rfl⟩

/-- Two tuples and then the signature that refers to them. -/
lemma understands_signature (hps : d.store.SpellsVars variadic ps params lo mid)
    (hrs : d.store.SpellsVars false rs results mid d.store.types.size) (hrun : (do
      let params ← newTuple ps let results ← newTuple rs
      return (← newSignature { params, results, variadic }, x) : Pass (TypeId × ScopeId)).1 d = r) :
    r.2.store.Spells r.1.1 ("func(" ++ commaSeparated params ++ ")" ++
      resultsText (d.store.singleUnnamed rs) results) lo r.2.store.types.size ∧
      r.2.store.isReceive r.1.1 = false := by
  let p := (newTuple ps).1 d
  let q := (newTuple rs).1 p.2
  let f := (newSignature { params := p.1, results := q.1, variadic }).1 q.2
  have hp : d.Makes (.tuple ps) p := makes_newType ..
  have hq : p.2.Makes (.tuple rs) q := makes_newType ..
  have hf : q.2.Makes (.signature { params := p.1, results := q.1, variadic }) f := makes_newType ..
  obtain rfl : ((f.1, x), f.2) = r := hrun
  have hsteps := (hp.steps.trans hq.steps).trans hf.steps
  refine ⟨?_, by simp [isReceive, hf.type, Ty.chan?]⟩
  rw [← hsteps.singleUnnamed_eq hrs]
  refine .func hf.type rfl ?_ ?_ (hsteps.spellsVars hps) ((hsteps.spellsVars hrs).weaken ?_) ?_
  · exact (hq.steps.trans hf.steps).type_of_ne hp.type (by simp)
  · exact hf.steps.type_of_ne hq.type (by simp)
  · dsimp only
    rw [hf.index]
    exact (hp.steps.trans hq.steps).types_size_le
  · dsimp only
    rw [hf.index, hf.size]
    exact Nat.lt_succ_self _

lemma object_newParam (span : Span) (package : Option PackageId) (name : String) (t : TypeId)
    (d : Checker) : (((newParam span package name (some t)).1 d).2.store.object
        ((newParam span package name (some t)).1 d).1).type = some t ∧
      (((newParam span package name (some t)).1 d).2.store.object
        ((newParam span package name (some t)).1 d).1).name = name := by
  have hobject := object_newObject d.store
    { entity := .var false false true, span, package, name, type := some t } ⟨d.store.objects.size⟩
  rw [if_pos rfl] at hobject
  exact ⟨congrArg Object.type hobject, congrArg Object.name hobject⟩

/-- A parameter is shown with its name before its type. -/
lemma spells_declareParam (x : ScopeId) (n : Nat) (name : Option Ident) (span : Span)
    (collects : Bool)
    (ht : if collects then ∃ u, d.store.type t = .slice u ∧ d.store.Spells u text lo d.store.types.size
      else d.store.Spells t text lo d.store.types.size)
    (hrun : (declareParam x n name span t).1 d = r) : r.2.store.SpellsVars collects [r.1]
        [if collects then paramLabel name ++ "..." ++ text else paramLabel name ++ text] lo
        r.2.store.types.size ∧ (r.2.store.object r.1).name = name.elim "" Ident.text := by
  have hsteps : d.Steps r.2 := hrun ▸ (declareParam x n name span t).2 d
  have hobject : (r.2.store.object r.1).type = some t ∧
      (r.2.store.object r.1).name = name.elim "" Ident.text := by
    subst hrun
    cases name with
    | none => exact object_newParam ..
    | some i =>
      have hnew := object_newParam i.span (some d.package) i.text t d
      have hdeclared := (declare x (some i) ((newParam i.span (some d.package) i.text (some t)).1 d).1
        n).2 ((newParam i.span (some d.package) i.text (some t)).1 d).2
      exact ⟨hdeclared.object_type hnew.1, (hdeclared.name_of_type hnew.1).trans hnew.2⟩
  have hlabel : (r.2.store.object r.1).label = paramLabel name := by
    rw [Object.label, hobject.2, paramLabel]
    cases name <;> rfl
  refine ⟨?_, hobject.2⟩
  rw [← hlabel]
  cases collects with
  | true =>
    obtain ⟨u, hu, htext⟩ := ht
    exact .last hobject.1 (hsteps.type_of_ne hu (by simp))
      ((hsteps.spells htext).weaken hsteps.types_size_le)
  | false => exact .cons rfl hobject.1 ((hsteps.spells ht).weaken hsteps.types_size_le) (.nil le_rfl)

/-- The names of parameters tell whether a single result has none. -/
lemma singleUnnamed_of_names
    (h : os.map (fun o => (s.object o).name) = ps.map fun p => p.name.elim "" Ident.text) :
    s.singleUnnamed os = singleUnlabelled ps := by
  rcases ps with - | ⟨p, - | ⟨q, ps⟩⟩ <;> rcases os with - | ⟨o, - | ⟨o', os⟩⟩ <;>
    simp_all [singleUnnamed, singleUnlabelled]

end Pass

mutual

/-- A type expression whose names are in sight becomes a type that is written like the expression. -/
theorem TypeExpr.spells_resolve (e : TypeExpr) {c d : Checker} (hc : c.WellScoped) (hd : c.Widens d)
    (hnames : ∀ i ∈ e.names, c.Knows i) : d.Understands e.spelling e.isReceive (e.resolve.1 d) := by
  cases e with
  | name span i =>
    obtain ⟨hblank, t, hdenoted, hshows⟩ := hnames i (by simp [TypeExpr.names])
    obtain ⟨htype, hstore⟩ := resolveType_of_denoted? hblank (hd.denoted? hc hdenoted)
    have hshows' := hd.steps.showsName hshows
    rw [TypeExpr.resolve, TypeExpr.spelling]
    constructor
    · rw [htype, hstore]
      exact .name hshows' le_rfl
    · rw [htype, hstore, isReceive_of_showsName hshows']
      rfl
  | pointer span elem =>
    have helem := TypeExpr.spells_resolve elem hc hd hnames
    have hmade := makes_newType (.pointer (elem.resolve.1 d).1) rfl (elem.resolve.1 d).2
    rw [TypeExpr.resolve, bind_run, TypeExpr.spelling]
    refine ⟨.pointer hmade.type (hmade.steps.spells ?_) hmade.lt, ?_⟩
    · exact helem.spells
    · simp [isReceive, newPointer, hmade.type, Ty.chan?, TypeExpr.isReceive]
  | slice span elem =>
    have helem := TypeExpr.spells_resolve elem hc hd hnames
    have hmade := makes_newType (.slice (elem.resolve.1 d).1) rfl (elem.resolve.1 d).2
    rw [TypeExpr.resolve, bind_run, TypeExpr.spelling]
    refine ⟨.slice hmade.type (hmade.steps.spells ?_) hmade.lt, ?_⟩
    · exact helem.spells
    · simp [isReceive, newSlice, hmade.type, Ty.chan?, TypeExpr.isReceive]
  | map span key value =>
    rw [TypeExpr.names, forall_mem_append] at hnames
    -- the key comes first, and is still written alike once the value has been resolved
    have hkey := TypeExpr.spells_resolve key hc hd hnames.1
    have hd' := hd.after (.resolve key)
    have hvalue := TypeExpr.spells_resolve value hc hd' hnames.2
    have hlater := value.resolve.2 (key.resolve.1 d).2
    have hmade := makes_newType (.map (key.resolve.1 d).1 (value.resolve.1 (key.resolve.1 d).2).1) rfl
      (value.resolve.1 (key.resolve.1 d).2).2
    rw [TypeExpr.resolve, bind_run, bind_run, TypeExpr.spelling]
    refine ⟨.map hmade.type (hmade.steps.spells (hlater.spells hkey.spells))
      (hmade.steps.spells ?_) hmade.lt, ?_⟩
    · exact hvalue.spells
    · simp [isReceive, newMap, hmade.type, Ty.chan?, TypeExpr.isReceive]
  | chan span dir elem =>
    have helem := TypeExpr.spells_resolve elem hc hd hnames
    have hmade := makes_newType (.chan dir (elem.resolve.1 d).1) rfl (elem.resolve.1 d).2
    -- parentheses depend on whether the element is a channel to receive from
    rw [TypeExpr.resolve, bind_run, TypeExpr.spelling, ← helem.receive,
      ← hmade.steps.isReceive_eq helem.spells.lt]
    refine ⟨.chan hmade.type (hmade.steps.spells ?_) hmade.lt, ?_⟩
    · exact helem.spells
    · simp only [isReceive, newChan, hmade.type, Ty.chan?, any_some]
      cases dir <;> rfl
  | func span sig =>
    rw [TypeExpr.resolve, TypeExpr.spelling]
    exact spells_resolveSig sig hc hd hnames

theorem spells_resolveSig (sig : FuncSigOf TypeExpr) {c d : Checker} (hc : c.WellScoped)
    (hd : c.Widens d) (hnames : ∀ i ∈ sigNames sig, c.Knows i) :
    d.Understands (sigSpelling sig) false
      (((resolveSig sig).1 d).1.1, ((resolveSig sig).1 d).2) := by
  cases sig with
  | mk params results variadic span =>
    rw [sigNames, forall_mem_append] at hnames
    -- The scope for the parameters is new, so that their names hide none of those in sight.
    let open? := (newScope d.context.scope span "function" true).1 d
    let start := ((recordScope span open?.1).1 open?.2).2
    have hstart : c.Widens start :=
      Checker.Widens.after (hd.tail (.newScope d span.start span.stop "function" true))
        .recordScope
    have hx : c.store.scopes.size ≤ open?.1.index :=
      le_trans hd.steps.scopes_size_le (le_of_eq (newScope_index ..).symm)
    have hsize : start.store.types.size = d.store.types.size := congrArg Array.size newScope_types
    let ps := (resolveParams open?.1 span.stop variadic params).1 start
    have hps : start.Lists variadic (paramSpellings variadic params) _ ps :=
      spells_resolveParams open?.1 span.stop variadic params hc hstart hx hnames.1
    let rs := (resolveParams open?.1 span.stop false results).1 ps.2
    have hrs : ps.2.Lists false (paramSpellings false results) _ rs :=
      spells_resolveParams open?.1 span.stop false results hc
        (hstart.after (.resolveParams span.stop variadic params hx)) hx hnames.2
    have hlater : ps.2.Steps rs.2 := (resolveParams open?.1 span.stop false results).2 ps.2
    have hsig := understands_signature (x := open?.1) (hlater.spellsVars hps.spells) hrs.spells rfl
    rw [hsize, singleUnnamed_of_names hrs.names] at hsig
    rw [sigSpelling]
    exact ⟨hsig.1, hsig.2⟩

theorem spells_resolveParams (x : ScopeId) (n : Nat) (variadic : Bool)
    (ps : List (ParamOf TypeExpr)) {c d : Checker} (hc : c.WellScoped) (hd : c.Widens d)
    (hx : c.store.scopes.size ≤ x.index) (hnames : ∀ i ∈ paramsNames ps, c.Knows i) :
    d.Lists variadic (paramSpellings variadic ps) (ps.map fun p => p.name.elim "" Ident.text)
      ((resolveParams x n variadic ps).1 d) := by
  cases ps with
  | nil =>
    rw [resolveParams, paramSpellings]
    exact ⟨.nil le_rfl, rfl⟩
  | cons p ps =>
    rw [paramsNames, forall_mem_append] at hnames
    have hp := spells_resolveParam x n (variadic && ps.isEmpty) p hc hd hnames.1
    have hd' := hd.after (.resolveParam n (variadic && ps.isEmpty) p hx)
    have hps := spells_resolveParams x n variadic ps hc hd' hx hnames.2
    have hlater := (resolveParams x n variadic ps).2 ((resolveParam x n (variadic && ps.isEmpty) p).1 d).2
    have hempty := congrArg List.isEmpty hps.names
    rw [isEmpty_map, isEmpty_map] at hempty
    obtain ⟨t, ht⟩ := hp.spells.typed
    rw [resolveParams, bind_run, bind_run, paramSpellings]
    refine ⟨.before ?_ hps.spells, ?_⟩
    · rw [hempty]
      exact hlater.spellsVars hp.spells
    · refine cons_eq_cons.mpr ⟨(hlater.name_of_type ht).trans ?_, hps.names⟩
      exact head_eq_of_cons_eq hp.names

theorem spells_resolveParam (x : ScopeId) (n : Nat) (collects : Bool) (p : ParamOf TypeExpr)
    {c d : Checker} (hc : c.WellScoped) (hd : c.Widens d) (hnames : ∀ i ∈ paramNames p, c.Knows i) :
    d.Lists collects [paramSpelling collects p] [p.name.elim "" Ident.text]
      ([((resolveParam x n collects p).1 d).1], ((resolveParam x n collects p).1 d).2) := by
  cases p with
  | mk name type span =>
    have htype := TypeExpr.spells_resolve type hc hd hnames
    have hmade := makes_newType (.slice (type.resolve.1 d).1) rfl (type.resolve.1 d).2
    rw [resolveParam, bind_run, paramSpelling]
    cases collects with
    | true =>
      have hslice := (hmade.steps.spells htype.spells).weaken hmade.steps.types_size_le
      have hparam := spells_declareParam x n name span true ⟨_, hmade.type, hslice⟩ rfl
      exact ⟨hparam.1, congrArg ([·]) hparam.2⟩
    | false =>
      have hparam := spells_declareParam x n name span false htype.spells rfl
      exact ⟨hparam.1, congrArg ([·]) hparam.2⟩

end

namespace BuiltSession

/-- In a state of a session, or in the middle of a check, a type expression whose names denote the
predeclared types of these names gets the type that is printed like the expression, with parentheses
around a channel for receiving that another channel transports. So the text of the type is that of
the expression exactly if there is no such channel. -/
theorem typeText_resolve (h : BuiltSession c) (hd : c.SafeSteps false d) (e : TypeExpr)
    (hnames : ∀ i ∈ e.names,
      (predeclared? i.text).isSome = true ∧ d.denoted? i.text = predeclared? i.text) :
    (e.resolve.1 d).2.store.typeText (e.resolve.1 d).1 = e.spelling ∧
    ((∀ i ∈ e.labels, i.IsSpelled) →
      ((e.resolve.1 d).2.store.typeText (e.resolve.1 d).1 = e.text ↔ e.bareReceives = 0)) := by
  have hshown : ∀ i ∈ e.names, ∃ t, d.denoted? i.text = some t ∧ i.text ≠ "_" ∧
      i.text ≠ "<unknown>" ∧ d.store.ShowsName t i.text := by
    intro i hi
    obtain ⟨hsome, hdenoted⟩ := hnames i hi
    obtain ⟨t, ht⟩ := Option.isSome_iff_exists.mp hsome
    obtain ⟨hblank, hunknown, hstart⟩ := showsName_of_predeclared? ht
    exact ⟨t, hdenoted.trans ht, hblank, hunknown, h.showsName hd hstart⟩
  have hany : d.store.ShowsName .any "any" := h.showsName hd (.any (by decide +kernel))
  have hspells := e.spells_resolve (h.wellScoped hd) .refl fun i hi => by
    obtain ⟨t, hdenoted, hblank, -, ht⟩ := hshown i hi
    exact ⟨hblank, t, hdenoted, ht⟩
  have htext : (e.resolve.1 d).2.store.typeText (e.resolve.1 d).1 = e.spelling :=
    hspells.spells.typeText_eq ((e.resolve.2 d).showsName hany).type_any (Nat.le_refl _)
  refine ⟨htext, fun hlabels => ?_⟩
  rw [htext]
  refine TypeExpr.spelling_eq_text_iff (fun i hi => ?_) hlabels
  obtain ⟨-, -, -, hunknown, -⟩ := hshown i hi
  cases hname : i.name with
  | none => exact absurd (by simp [Ident.text, hname]) hunknown
  | some n => rfl

/-- The type `func(in <-chan int, rest ...map[string]*any) (n int, err error)`. -/
def drainType : TypeExpr :=
  .func ⟨0, 61⟩
    { params := [⟨some ⟨some "in", ⟨5, 7⟩⟩,
          .chan ⟨8, 18⟩ .recv (.name ⟨15, 18⟩ ⟨some "int", ⟨15, 18⟩⟩), ⟨5, 18⟩⟩,
        ⟨some ⟨some "rest", ⟨20, 24⟩⟩,
          .map ⟨28, 42⟩ (.name ⟨32, 38⟩ ⟨some "string", ⟨32, 38⟩⟩)
            (.pointer ⟨39, 43⟩ (.name ⟨40, 43⟩ ⟨some "any", ⟨40, 43⟩⟩)), ⟨20, 43⟩⟩]
      results := [⟨some ⟨some "n", ⟨46, 47⟩⟩, .name ⟨48, 51⟩ ⟨some "int", ⟨48, 51⟩⟩, ⟨46, 51⟩⟩,
        ⟨some ⟨some "err", ⟨53, 56⟩⟩, .name ⟨57, 62⟩ ⟨some "error", ⟨57, 62⟩⟩, ⟨53, 62⟩⟩]
      variadic := true
      span := ⟨4, 62⟩ }

theorem drainType_typeText : (∀ i ∈ drainType.names, (predeclared? i.text).isSome = true ∧
      (Checker.start {}).denoted? i.text = predeclared? i.text) ∧
    (∀ i ∈ drainType.labels, i.IsSpelled) ∧ drainType.bareReceives = 0 ∧
    (drainType.resolve.1 (.start {})).2.store.typeText (drainType.resolve.1 (.start {})).1 =
      drainType.text ∧
    drainType.text = "func(in <-chan int, rest ...map[string]*any) (n int, err error)" := by
  have hnames : ∀ i ∈ drainType.names, (predeclared? i.text).isSome = true ∧
      (Checker.start {}).denoted? i.text = predeclared? i.text := by decide +kernel
  have hlabels : ∀ i ∈ drainType.labels, i.IsSpelled := by
    simp [drainType, TypeExpr.labels, sigLabels, paramsLabels, paramLabels, Ident.IsSpelled]
  have hbare : drainType.bareReceives = 0 := by decide +kernel
  obtain ⟨-, htext⟩ := typeText_resolve (.start {}) (.refl _) drainType hnames
  exact ⟨hnames, hlabels, hbare, (htext hlabels).mpr hbare, by decide +kernel⟩

/-- The type of channels that transport channels for receiving, `chan (<-chan int)`. -/
def relayType : TypeExpr :=
  .chan ⟨0, 18⟩ .both (.chan ⟨6, 16⟩ .recv (.name ⟨13, 16⟩ ⟨some "int", ⟨13, 16⟩⟩))

/-- As an expression it is written without parentheses, and as a type with them. -/
theorem relayType_typeText_ne : (∀ i ∈ relayType.names, (predeclared? i.text).isSome = true ∧
      (Checker.start {}).denoted? i.text = predeclared? i.text) ∧
    relayType.text = "chan <-chan int" ∧
    (relayType.resolve.1 (.start {})).2.store.typeText (relayType.resolve.1 (.start {})).1 =
      "chan (<-chan int)" := by
  decide +kernel

end BuiltSession

end GoCheck
