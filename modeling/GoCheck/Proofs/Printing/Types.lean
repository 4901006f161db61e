import GoCheck.Proofs.Regular.Expressions
import GoCheck.Proofs.Visibility.Scopes

/-!
# How types are written

The text of a type expression is without parentheses, but a channel of channels for receiving needs
them. The text of a type is put together from the texts of its parts, as long as no type without a
name occurs twice. None does if the parts have been made one after the other, each in an interval of
the numbers of types.
-/

namespace GoCheck

open String Store

variable {results : List String} {rs : List ObjectId} {ty : Ty} {n : Nat}

/-- A channel for receiving only. -/
def TypeExpr.isReceive : TypeExpr → Bool
  | .chan _ .recv _ => true
  | _ => false

/-- The name of a parameter as it stands before the type. -/
def paramLabel (name : Option Ident) : String :=
  name.elim "" fun i => if i.text.isEmpty then "" else i.text ++ " "

def singleUnlabelled : List (ParamOf TypeExpr) → Bool
  | [p] => (p.name.elim "" Ident.text).isEmpty
  | _ => false

mutual

/-- A type expression as its type is written. -/
def TypeExpr.spelling : TypeExpr → String
  | .name _ i => i.text
  | .pointer _ elem => "*" ++ elem.spelling
  | .slice _ elem => "[]" ++ elem.spelling
  | .map _ key value => "map[" ++ key.spelling ++ "]" ++ value.spelling
  | .chan _ dir elem =>
    dir.text ++ if dir = .both && elem.isReceive then "(" ++ elem.spelling ++ ")" else elem.spelling
  | .func _ sig => sigSpelling sig

/-- A signature as its type is written. -/
def sigSpelling : FuncSigOf TypeExpr → String
  | ⟨params, results, variadic, _⟩ =>
    "func(" ++ commaSeparated (paramSpellings variadic params) ++ ")" ++
      resultsText (singleUnlabelled results) (paramSpellings false results)

/-- The parameters of a list; the last of a variadic list is marked by dots. -/
def paramSpellings (variadic : Bool) : List (ParamOf TypeExpr) → List String
  | [] => []
  | p :: ps => paramSpelling (variadic && ps.isEmpty) p :: paramSpellings variadic ps

/-- A parameter, with a mark before its type if it collects the remaining arguments. -/
def paramSpelling (collects : Bool) : ParamOf TypeExpr → String
  | ⟨name, t, _⟩ =>
    if collects then paramLabel name ++ "..." ++ t.spelling else paramLabel name ++ t.spelling

end

mutual

/-- The number of channels of both directions that stand right before a channel for receiving. -/
def TypeExpr.bareReceives : TypeExpr → Nat
  | .name .. => 0
  | .pointer _ elem | .slice _ elem => elem.bareReceives
  | .map _ key value => key.bareReceives + value.bareReceives
  | .chan _ dir elem => elem.bareReceives + if dir = .both && elem.isReceive then 1 else 0
  | .func _ sig => sigBareReceives sig

def sigBareReceives : FuncSigOf TypeExpr → Nat
  | ⟨params, results, _, _⟩ => paramsBareReceives params + paramsBareReceives results

def paramsBareReceives : List (ParamOf TypeExpr) → Nat
  | [] => 0
  | p :: ps => paramBareReceives p + paramsBareReceives ps

def paramBareReceives : ParamOf TypeExpr → Nat
  | ⟨_, t, _⟩ => t.bareReceives

end

mutual

/-- The names of parameters in a type expression. -/
def TypeExpr.labels : TypeExpr → List Ident
  | .name .. => []
  | .pointer _ elem | .slice _ elem | .chan _ _ elem => elem.labels
  | .map _ key value => key.labels ++ value.labels
  | .func _ sig => sigLabels sig

def sigLabels : FuncSigOf TypeExpr → List Ident
  | ⟨params, results, _, _⟩ => paramsLabels params ++ paramsLabels results

def paramsLabels : List (ParamOf TypeExpr) → List Ident
  | [] => []
  | p :: ps => paramLabels p ++ paramsLabels ps

def paramLabels : ParamOf TypeExpr → List Ident
  | ⟨name, t, _⟩ => name.toList ++ t.labels

end

/-- A name that is there, and not empty. -/
def Ident.IsSpelled (i : Ident) : Prop := ∃ n, i.name = some n ∧ n ≠ ""

namespace Ident

variable {i : Ident}

lemma text_eq_shown (h : i.name.isSome) : i.text = i.shown := by
  cases hname : i.name with
  | none => simp [hname] at h
  | some n => simp [text, shown, hname]

lemma IsSpelled.text_ne (h : i.IsSpelled) : i.text ≠ "" := by
  obtain ⟨n, hn, hne⟩ := h
  simpa [text, hn] using hne

lemma IsSpelled.text_eq (h : i.IsSpelled) : i.text = i.shown := by
  obtain ⟨n, hn, -⟩ := h
  exact text_eq_shown (by simp [hn])

end Ident

/-- A text that is longer than another one by `k` characters, and is the other one if `k` is zero. -/
structure LongerBy (k : Nat) (x y : String) : Prop where
  length : x.length = y.length + k
  eq : k = 0 → x = y

lemma LongerBy.refl (x : String) : LongerBy 0 x x := ⟨rfl, fun _ => rfl⟩

lemma LongerBy.append (h : LongerBy k x y)
    (h' : LongerBy l x' y') : LongerBy (k + l) (x ++ x') (y ++ y') where
  length := by
    rw [length_append, length_append, h.length, h'.length]
    omega
  eq hzero := by rw [h.eq (by omega), h'.eq (by omega)]

variable {x : String} {xs : List String}

lemma LongerBy.prepend (h : LongerBy k x y) (z : String) : LongerBy k (z ++ x) (z ++ y) := by
  simpa using (LongerBy.refl z).append h

lemma LongerBy.parens (h : LongerBy k x y) : LongerBy (k + 2) ("(" ++ x ++ ")") y where
  length := by
    rw [length_append, length_append, h.length]
    change 1 + (y.length + k) + 1 = _
    omega
  eq hzero := absurd hzero (by omega)

/-- As many texts that are longer by `k` characters altogether. -/
structure AllLongerBy (k : Nat) (xs ys : List String) : Prop where
  length : xs.length = ys.length
  total : (commaSeparated xs).length = (commaSeparated ys).length + k
  eq : k = 0 → xs = ys

lemma length_commaSeparated_cons (x : String) (xs : List String) :
    (commaSeparated (x :: xs)).length =
      x.length + (commaSeparated xs).length + if xs.length = 0 then 0 else 2 := by
  unfold commaSeparated
  cases xs with
  | nil => simp
  | cons y ys =>
    have hcomma : ", ".length = 2 := rfl
    rw [intercalate_cons_cons, length_append, length_append, hcomma,
      if_neg (by simp)]
    omega

lemma AllLongerBy.cons (hs : AllLongerBy l xs ys) (h : LongerBy k x y) :
    AllLongerBy (k + l) (x :: xs) (y :: ys) where
  length := by simp [hs.length]
  total := by
    rw [length_commaSeparated_cons, length_commaSeparated_cons, h.length, hs.total, hs.length]
    omega
  eq hzero := by rw [h.eq (by omega), hs.eq (by omega)]

lemma AllLongerBy.commaSeparated (h : AllLongerBy k xs ys) :
    LongerBy k (commaSeparated xs) (commaSeparated ys) :=
  ⟨h.total, fun hzero => by rw [h.eq hzero]⟩

lemma AllLongerBy.resultsText (h : AllLongerBy k xs ys) (single : Bool) :
    LongerBy k (resultsText single xs) (resultsText single ys) := by
  have hparens : LongerBy k (" (" ++ GoCheck.commaSeparated xs ++ ")")
      (" (" ++ GoCheck.commaSeparated ys ++ ")") := by
    simpa using (h.commaSeparated.prepend " (").append (.refl ")")
  have hlength := h.length
  cases xs with
  | nil =>
    obtain rfl : ys = [] := List.length_eq_zero_iff.mp hlength.symm
    exact ⟨by simpa using h.total.symm, fun _ => rfl⟩
  | cons x xs =>
    cases ys with
    | nil => cases hlength
    | cons y ys =>
      cases xs with
      | nil =>
        obtain rfl : ys = [] := by simpa using hlength.symm
        cases single with
        | true =>
          have hsingle : LongerBy k x y :=
            ⟨by simpa [GoCheck.commaSeparated] using h.total, fun hzero => (List.cons.inj (h.eq hzero)).1⟩
          exact hsingle.prepend " "
        | false => exact hparens
      | cons x' xs =>
        cases ys with
        | nil => simp at hlength
        | cons y' ys => cases single <;> exact hparens

lemma paramLabel_eq (h : ∀ i ∈ name, i.IsSpelled) :
    paramLabel name = name.elim "" fun i => i.shown ++ " " := by
  cases name with
  | none => rfl
  | some i =>
    have hspelled := h i rfl
    simp [paramLabel, hspelled.text_ne, ← hspelled.text_eq]

lemma paramText_eq (mark : String) (name : Option Ident) (type : TypeExpr) (span : Span) :
    paramText mark ⟨name, type, span⟩ =
      (name.elim "" fun i => i.shown ++ " ") ++ mark ++ type.text := by
  cases name <;> simp [paramText]

lemma singleUnlabelled_eq {params results : List (ParamOf TypeExpr)}
    (h : ∀ i ∈ paramsLabels results, i.IsSpelled) :
    singleUnlabelled results = (FuncSigOf.mk params results variadic span).singleUnnamed := by
  cases results with
  | nil => rfl
  | cons p ps =>
    cases ps with
    | cons => rfl
    | nil =>
      obtain ⟨name, type, pspan⟩ := p
      cases name with
      | none => rfl
      | some i =>
        have hspelled : i.IsSpelled := h i (by simp [paramsLabels, paramLabels])
        simp [singleUnlabelled, FuncSigOf.singleUnnamed, hspelled.text_ne]

mutual

/-- Every place where parentheses are missing adds two characters. -/
theorem TypeExpr.spelling_longer (e : TypeExpr) (hnames : ∀ i ∈ e.names, i.name.isSome)
    (hlabels : ∀ i ∈ e.labels, i.IsSpelled) : LongerBy (2 * e.bareReceives) e.spelling e.text := by
  cases e with
    simp only [TypeExpr.spelling, TypeExpr.text, TypeExpr.bareReceives, TypeExpr.names,
      TypeExpr.labels] at hnames hlabels ⊢
  | name span i =>
    rw [Ident.text_eq_shown (hnames i (by simp))]
    exact .refl _
  | pointer span elem => exact (elem.spelling_longer hnames hlabels).prepend "*"
  | slice span elem => exact (elem.spelling_longer hnames hlabels).prepend "[]"
  | map span key value =>
    rw [List.forall_mem_append] at hnames hlabels
    rw [Nat.mul_add]
    have hkey := (key.spelling_longer hnames.1 hlabels.1).prepend "map["
    exact (hkey.append (.refl "]")).append (value.spelling_longer hnames.2 hlabels.2)
  | chan span dir elem =>
    have helem := elem.spelling_longer hnames hlabels
    split
    · exact helem.parens.prepend dir.text
    · exact helem.prepend dir.text
  | func span sig => exact sigSpelling_longer sig hnames hlabels

theorem sigSpelling_longer (sig : FuncSigOf TypeExpr) (hnames : ∀ i ∈ sigNames sig, i.name.isSome)
    (hlabels : ∀ i ∈ sigLabels sig, i.IsSpelled) :
    LongerBy (2 * sigBareReceives sig) (sigSpelling sig) (sigText sig) := by
  cases sig with
  | mk params results variadic span =>
    simp only [sigNames, sigLabels, List.forall_mem_append] at hnames hlabels
    simp only [sigSpelling, sigText, sigBareReceives, Nat.mul_add]
    rw [singleUnlabelled_eq hlabels.2]
    have hparams := (paramSpellings_longer variadic params hnames.1 hlabels.1).commaSeparated
    have hresults := paramSpellings_longer false results hnames.2 hlabels.2
    exact ((hparams.prepend "func(").append (.refl ")")).append (hresults.resultsText _)

theorem paramSpellings_longer (variadic : Bool) (ps : List (ParamOf TypeExpr))
    (hnames : ∀ i ∈ paramsNames ps, i.name.isSome) (hlabels : ∀ i ∈ paramsLabels ps, i.IsSpelled) :
    AllLongerBy (2 * paramsBareReceives ps) (paramSpellings variadic ps) (paramTexts variadic ps) := by
  cases ps with
  | nil =>
    simp only [paramSpellings, paramTexts, paramsBareReceives]
    exact ⟨rfl, rfl, fun _ => rfl⟩
  | cons p ps =>
    simp only [paramsNames, paramsLabels, List.forall_mem_append] at hnames hlabels
    simp only [paramSpellings, paramTexts, paramsBareReceives, Nat.mul_add]
    exact (paramSpellings_longer variadic ps hnames.2 hlabels.2).cons
      (paramSpelling_longer _ p hnames.1 hlabels.1)

theorem paramSpelling_longer (collects : Bool) (p : ParamOf TypeExpr)
    (hnames : ∀ i ∈ paramNames p, i.name.isSome)
    (hlabels : ∀ i ∈ paramLabels p, i.IsSpelled) :
    LongerBy (2 * paramBareReceives p) (paramSpelling collects p)
      (paramText (if collects then "..." else "") p) := by
  cases p with
  | mk name type span =>
    simp only [paramNames, paramLabels, List.forall_mem_append, Option.mem_toList] at hnames hlabels
    simp only [paramSpelling, paramBareReceives]
    have htype := type.spelling_longer hnames hlabels.2
    rw [paramLabel_eq hlabels.1, paramText_eq]
    cases collects with
    | true => exact htype.prepend _
    | false => simpa using htype.prepend _

end

/-- The two texts agree if and only if no parentheses are missing. -/
lemma TypeExpr.spelling_eq_text_iff {e : TypeExpr} (hnames : ∀ i ∈ e.names, i.name.isSome)
    (hlabels : ∀ i ∈ e.labels, i.IsSpelled) : e.spelling = e.text ↔ e.bareReceives = 0 := by
  have hlonger := e.spelling_longer hnames hlabels
  constructor
  · intro heq
    have hlength := hlonger.length
    rw [heq] at hlength
    omega
  · intro hzero
    exact hlonger.eq (by omega)

/-! ## Types -/

variable {c d : Checker} {t u : TypeId} {o : ObjectId} {s : Store}

/-- The name of a parameter as it stands before the type. -/
def Object.label (ob : Object) : String := if ob.name.isEmpty then "" else ob.name ++ " "

namespace Store

/-- The types that are shown by a name. -/
inductive ShowsName (s : Store) : TypeId → String → Prop
  | any : s.type .any = .interface {} → s.ShowsName .any "any"
  | basic {t : TypeId} {k : BasicKind} : s.type t = .basic k → t ≠ .any → t.index < s.types.size →
      s.ShowsName t k.name
  | named {t : TypeId} {n : NamedType} : s.type t = .named n → t ≠ .any →
      n.object.index < s.objects.size → s.ShowsName t (s.object n.object).name

def isReceive (s : Store) (t : TypeId) : Bool := (s.type t).chan?.any (·.1 = .recv)

def singleUnnamed (s : Store) : List ObjectId → Bool
  | [v] => (s.object v).name.isEmpty
  | _ => false

mutual

/-- A type is written as a text. Its types without names are those from `lo` up to `hi`, in the
order of writing, a whole after its parts. -/
inductive Spells (s : Store) : TypeId → String → Nat → Nat → Prop
  | name {t : TypeId} {text : String} {lo hi : Nat} : s.ShowsName t text → lo ≤ hi →
      s.Spells t text lo hi
  | pointer {t u : TypeId} {text : String} {lo hi : Nat} : s.type t = .pointer u →
      s.Spells u text lo t.index → t.index < hi → s.Spells t ("*" ++ text) lo hi
  | slice {t u : TypeId} {text : String} {lo hi : Nat} : s.type t = .slice u →
      s.Spells u text lo t.index → t.index < hi → s.Spells t ("[]" ++ text) lo hi
  | map {t u v : TypeId} {key elem : String} {lo mid hi : Nat} : s.type t = .map u v →
      s.Spells u key lo mid → s.Spells v elem mid t.index → t.index < hi →
      s.Spells t ("map[" ++ key ++ "]" ++ elem) lo hi
  | chan {t u : TypeId} {dir : ChanDir} {text : String} {lo hi : Nat} : s.type t = .chan dir u →
      s.Spells u text lo t.index → t.index < hi →
      s.Spells t (dir.text ++ if dir = .both && s.isReceive u then "(" ++ text ++ ")" else text) lo hi
  | func {t : TypeId} {sig : Signature} {ps rs : List ObjectId} {params results : List String}
      {lo mid hi : Nat} : s.type t = .signature sig → sig.typeParams = [] →
      s.type sig.params = .tuple ps → s.type sig.results = .tuple rs →
      s.SpellsVars sig.variadic ps params lo mid → s.SpellsVars false rs results mid t.index →
      t.index < hi →
      s.Spells t ("func(" ++ commaSeparated params ++ ")" ++
        resultsText (s.singleUnnamed rs) results) lo hi

/-- Variables are written as texts. The last one of a variadic list shows its elements. -/
inductive SpellsVars (s : Store) : Bool → List ObjectId → List String → Nat → Nat → Prop
  | nil {variadic : Bool} {lo hi : Nat} : lo ≤ hi → s.SpellsVars variadic [] [] lo hi
  | cons {variadic : Bool} {o : ObjectId} {os : List ObjectId} {t : TypeId} {text : String}
      {texts : List String} {lo mid hi : Nat} : (variadic && os.isEmpty) = false →
      (s.object o).type = some t → s.Spells t text lo mid → s.SpellsVars variadic os texts mid hi →
      s.SpellsVars variadic (o :: os) (((s.object o).label ++ text) :: texts) lo hi
  | last {o : ObjectId} {t u : TypeId} {text : String} {lo hi : Nat} :
      (s.object o).type = some t → s.type t = .slice u → s.Spells u text lo hi →
      s.SpellsVars true [o] [(s.object o).label ++ "..." ++ text] lo hi

end

mutual

theorem Spells.le : ∀ {t text lo hi}, s.Spells t text lo hi → lo ≤ hi
  | _, _, _, _, .name _ h => h
  | _, _, _, _, .pointer _ h hlt => le_trans h.le (le_of_lt hlt)
  | _, _, _, _, .slice _ h hlt => le_trans h.le (le_of_lt hlt)
  | _, _, _, _, .map _ h h' hlt => le_trans (le_trans h.le h'.le) (le_of_lt hlt)
  | _, _, _, _, .chan _ h hlt => le_trans h.le (le_of_lt hlt)
  | _, _, _, _, .func _ _ _ _ h h' hlt => le_trans (le_trans h.le h'.le) (le_of_lt hlt)

theorem SpellsVars.le : ∀ {variadic os texts lo hi}, s.SpellsVars variadic os texts lo hi → lo ≤ hi
  | _, _, _, _, _, .nil h => h
  | _, _, _, _, _, .cons _ _ h h' => le_trans h.le h'.le
  | _, _, _, _, _, .last _ _ h => h.le

end

lemma ShowsName.lt (h : s.ShowsName t text) : t.index < s.types.size := by
  cases h with
  | any h | named h _ _ => exact lt_size_of_type_ne (by rw [h]; simp)
  | basic _ _ h => exact h

/-- Types are shown by names that depend on little else. -/
lemma ShowsName.of_kept {s' : Store} (h : s.ShowsName t text) (htype : s'.type t = s.type t)
    (hsize : s.types.size ≤ s'.types.size) (hobject : ∀ o, o.index < s.objects.size →
      o.index < s'.objects.size ∧ (s'.object o).name = (s.object o).name) : s'.ShowsName t text := by
  cases h with
  | any hty => exact .any (htype.trans hty)
  | basic hty hne hlt => exact .basic (htype.trans hty) hne (lt_of_lt_of_le hlt hsize)
  | named hty hne hlt =>
    rw [← (hobject _ hlt).2]
    exact .named (htype.trans hty) hne (hobject _ hlt).1

lemma Spells.lt (h : s.Spells t text lo hi) : t.index < s.types.size := by
  cases h with
  | name h _ => exact h.lt
  | pointer h _ _ | slice h _ _ | map h _ _ _ | chan h _ _ | func h _ _ _ _ _ _ =>
    exact lt_size_of_type_ne (by rw [h]; simp)

end Store

namespace Checker.Steps

variable (h : c.Steps d)
include h

lemma type_of_ne (ht : c.store.type t = ty) (hne : ty ≠ .basic .invalid) :
    d.store.type t = ty :=
  (h.type_eq (lt_size_of_type_ne (ht ▸ hne))).trans ht

lemma name_of_type (ho : (c.store.object o).type = some t) :
    (d.store.object o).name = (c.store.object o).name := by
  exact h.name_eq (index_lt_of_object (P := (·.type = some t)) (by simp) ho)

lemma label_eq (ho : (c.store.object o).type = some t) :
    (d.store.object o).label = (c.store.object o).label := by
  rw [Object.label, h.name_of_type ho, Object.label]

lemma singleUnnamed_eq (hos : c.store.SpellsVars false os texts lo hi) :
    d.store.singleUnnamed os = c.store.singleUnnamed os := by
  cases hos with
  | nil => rfl
  | @cons _ o os _ _ _ _ _ _ _ ho _ _ =>
    cases os with
    | nil => rw [singleUnnamed, h.name_of_type ho, singleUnnamed]
    | cons => rfl

lemma showsName (ht : c.store.ShowsName t text) : d.store.ShowsName t text :=
  ht.of_kept (h.type_eq ht.lt) h.types_size_le fun _ ho =>
    ⟨lt_of_lt_of_le ho h.objects_size_le, h.name_eq ho⟩

lemma isReceive_eq (hu : u.index < c.store.types.size) :
    d.store.isReceive u = c.store.isReceive u := by
  rw [isReceive, h.type_eq hu, isReceive]

mutual

/-- A type is written in the same way after any steps of a check. -/
theorem spells : ∀ {t text lo hi}, c.store.Spells t text lo hi → d.store.Spells t text lo hi
  | _, _, _, _, .name ht hle => .name (h.showsName ht) hle
  | _, _, _, _, .pointer ht hu hlt => .pointer (h.type_of_ne ht (by simp)) (spells hu) hlt
  | _, _, _, _, .slice ht hu hlt => .slice (h.type_of_ne ht (by simp)) (spells hu) hlt
  | _, _, _, _, .map ht hu hv hlt => .map (h.type_of_ne ht (by simp)) (spells hu) (spells hv) hlt
  | _, _, _, _, .chan ht hu hlt => by
    rw [← h.isReceive_eq hu.lt]
    exact .chan (h.type_of_ne ht (by simp)) (spells hu) hlt
  | _, _, _, _, .func ht hsig hp hr hps hrs hlt => by
    rw [← h.singleUnnamed_eq hrs]
    exact .func (h.type_of_ne ht (by simp)) hsig (h.type_of_ne hp (by simp))
      (h.type_of_ne hr (by simp)) (spellsVars hps) (spellsVars hrs) hlt

theorem spellsVars : ∀ {variadic os texts lo hi},
    c.store.SpellsVars variadic os texts lo hi → d.store.SpellsVars variadic os texts lo hi
  | _, _, _, _, _, .nil hle => .nil hle
  | _, _, _, _, _, .cons hlast ho ht hos => by
    rw [← h.label_eq ho]
    exact .cons hlast (h.object_type ho) (spells ht) (spellsVars hos)
  | _, _, _, _, _, .last ho ht hu => by
    rw [← h.label_eq ho]
    exact .last (h.object_type ho) (h.type_of_ne ht (by simp)) (spells hu)

end

end Checker.Steps

namespace Printing

variable {β : Type} {p : Printing α}

/-- If no type from `lo` up to `hi` has been written out, this gives `a`, and writes out no
others. -/
def Gives (p : Printing α) (lo hi : Nat) (a : α) : Prop :=
  ∀ met, (∀ t ∈ met, ¬(lo ≤ t.index ∧ t.index < hi)) →
    ∃ met', p.run met = (a, met') ∧ ∀ t ∈ met', t ∈ met ∨ (lo ≤ t.index ∧ t.index < hi)

lemma gives_pure (a : α) (lo hi : Nat) : Gives (pure a) lo hi a :=
  fun met _ => ⟨met, rfl, fun _ ht => .inl ht⟩

/-- What is printed first does not stand in the way of what is printed next. -/
lemma Gives.bind (hp : Gives p lo mid a) (hf : Gives (f a) mid hi b) (hlo : lo ≤ mid)
    (hhi : mid ≤ hi) : Gives (p >>= f) lo hi b := by
  intro met hmet
  obtain ⟨met₁, hrun₁, hmet₁⟩ := hp met fun t ht hin => hmet t ht ⟨hin.1, by omega⟩
  have hfree : ∀ t ∈ met₁, ¬(mid ≤ t.index ∧ t.index < hi) := by
    intro t ht hin
    rcases hmet₁ t ht with hold | hnew
    · exact hmet t hold ⟨by omega, hin.2⟩
    · omega
  obtain ⟨met₂, hrun₂, hmet₂⟩ := hf met₁ hfree
  refine ⟨met₂, ?_, fun t ht => ?_⟩
  · rw [StateT.run_bind, hrun₁]
    exact hrun₂
  · rcases hmet₂ t ht with hold | hnew
    · exact (hmet₁ t hold).imp_right fun hin => ⟨hin.1, by omega⟩
    · exact .inr ⟨by omega, hnew.2⟩

lemma Gives.map (hp : Gives p lo hi a) (g : α → β) (hle : lo ≤ hi) :
    Gives (p >>= fun x => pure (g x)) lo hi (g a) :=
  hp.bind (gives_pure _ _ _) hle le_rfl

end Printing

namespace Store

open Printing

variable {p : Option TypeId → Printing String}

/-- A type that is met for the first time is written out. -/
lemma gives_printStep (hany : t ≠ .any) (hnamed : s.isNamed t = false) (hle : lo ≤ t.index)
    (hlt : t.index < hi) (h : Gives (s.printForm p t) lo t.index text) :
    Gives (s.printStep p (some t)) lo hi text := by
  intro met hmet
  have hnew : t ∉ met := fun ht => hmet t ht ⟨hle, hlt⟩
  obtain ⟨met', hrun, hmet'⟩ := h (t :: met) fun u hu hin => by
    rcases List.mem_cons.mp hu with rfl | hold
    · omega
    · exact hmet u hold ⟨hin.1, by omega⟩
  refine ⟨met', ?_, fun u hu => ?_⟩
  · simpa [printStep, hany, hnamed, hnew] using hrun
  · rcases hmet' u hu with hu | hin
    · rcases List.mem_cons.mp hu with rfl | hold
      · exact .inr ⟨hle, hlt⟩
      · exact .inl hold
    · exact .inr ⟨hin.1, by omega⟩

lemma ShowsName.gives (h : s.ShowsName t text) : Gives (s.printStep p (some t)) lo hi text := by
  have hprint : s.printStep p (some t) = pure text := by
    cases h with
    | any _ => simp [printStep]
    | basic ht hany _ | named ht hany _ =>
      simp [printStep, hany, isNamed, ht, Ty.isNamed, printForm]
  rw [hprint]
  exact gives_pure text lo hi

lemma gives_printVar (ho : (s.object o).type = some t) (ht : Gives (p (some t)) lo hi text)
    (hle : lo ≤ hi) : Gives (s.printVar p false o) lo hi ((s.object o).label ++ text) := by
  simp only [printVar, ho]
  exact ht.map _ hle

/-- The last variable of a variadic list is written with the elements of its type. -/
lemma gives_printVar_last (ho : (s.object o).type = some t) (ht : s.type t = .slice u)
    (hu : Gives (p (some u)) lo hi text) (hle : lo ≤ hi) :
    Gives (s.printVar p true o) lo hi ((s.object o).label ++ "..." ++ text) := by
  simp only [printVar, ho, Option.bind_some, ht, Ty.sliceElem?]
  exact hu.map _ hle

lemma gives_printTuple
    (ht : s.type t = .tuple os) (h : Gives (s.printVars p variadic os) lo hi texts) (hle : lo ≤ hi) :
    Gives (s.printTuple p t variadic) lo hi ("(" ++ commaSeparated texts ++ ")") := by
  simp only [printTuple, tupleVars, ht, Ty.tuple?, Option.getD_some]
  exact h.map _ hle

lemma printVars_single (v : ObjectId) (met : List TypeId) : (s.printVars p false [v]).run met =
      ([(s.object v).label ++ ((p (s.object v).type).run met).1], ((p (s.object v).type).run met).2) := by
  simp [printVars, printVar, Object.label]
  rfl

/-- The results of a signature stand in parentheses, unless there is one without a name. -/
lemma gives_printResults (ht : s.type t = .tuple rs)
    (hrs : s.SpellsVars false rs results lo hi) (h : Gives (s.printVars p false rs) lo hi results) :
    Gives (s.printResults p t) lo hi (resultsText (s.singleUnnamed rs) results) := by
  have hvars : s.tupleVars t = rs := by simp [tupleVars, ht, Ty.tuple?]
  have htuple : Gives (s.printTuple p t false >>= fun text => pure (" " ++ text)) lo hi
      (" (" ++ commaSeparated results ++ ")") := by
    rw [show " (" ++ commaSeparated results ++ ")" = " " ++ ("(" ++ commaSeparated results ++ ")") by
      simp [← String.append_assoc]]
    exact (gives_printTuple ht h hrs.le).map _ hrs.le
  unfold printResults
  rw [hvars]
  cases hrs with
  | nil => exact gives_pure _ _ _
  | @cons _ v vs _ text texts _ _ _ _ _ _ hvs =>
    cases hvs with
    | cons => exact htuple
    | nil =>
      by_cases hname : (s.object v).name.isEmpty
      · have hlabel : (s.object v).label = "" := by simp [Object.label, hname]
        simp only [hname, if_true, singleUnnamed, resultsText, hlabel]
        intro met hmet
        obtain ⟨met', hrun, hmet'⟩ := h met hmet
        rw [printVars_single, hlabel] at hrun
        obtain ⟨htexts, rfl⟩ := Prod.mk.inj hrun
        refine ⟨_, ?_, hmet'⟩
        rw [← (List.cons.inj htexts).1]
        simp
        rfl
      · simp only [hname, singleUnnamed]
        exact htuple

lemma gives_printWithin (hany : s.type .any = .interface {})
    (ht : s.type t = ty) (hnamed : ty.isNamed = false) (hne : ty ≠ .interface {})
    (hle : lo ≤ t.index) (hlt : t.index < hi)
    (h : Gives (s.printForm (s.printWithin n) t) lo t.index text) :
    Gives (s.printWithin (n + 1) (some t)) lo hi text := by
  refine gives_printStep ?_ (by rw [isNamed, ht, hnamed]) hle hlt h
  rintro rfl
  exact hne (ht.symm.trans hany)

mutual

/-- Printing a type gives its text if it goes deep enough. -/
theorem Spells.gives (hany : s.type .any = .interface {}) : ∀ {t text lo hi},
    s.Spells t text lo hi → ∀ n, hi - lo < n → Gives (s.printWithin n (some t)) lo hi text
  | _, _, _, _, .name h _, n + 1, _ => h.gives
  | _, _, _, _, .pointer ht hu hlt, n + 1, hn => by
    have hle := hu.le
    refine gives_printWithin hany ht rfl (by simp) hle hlt ?_
    simp only [printForm, ht]
    exact (Spells.gives hany hu n (by omega)).map _ hle
  | _, _, _, _, .slice ht hu hlt, n + 1, hn => by
    have hle := hu.le
    refine gives_printWithin hany ht rfl (by simp) hle hlt ?_
    simp only [printForm, ht]
    exact (Spells.gives hany hu n (by omega)).map _ hle
  | _, _, _, _, .map ht hu hv hlt, n + 1, hn => by
    have hlo := hu.le
    have hhi := hv.le
    refine gives_printWithin hany ht rfl (by simp) (le_trans hlo hhi) hlt ?_
    simp only [printForm, ht]
    exact (Spells.gives hany hu n (by omega)).bind
      ((Spells.gives hany hv n (by omega)).map _ hhi) hlo hhi
  | _, _, _, _, .chan ht hu hlt, n + 1, hn => by
    have hle := hu.le
    refine gives_printWithin hany ht rfl (by simp) hle hlt ?_
    simp only [printForm, ht]
    exact (Spells.gives hany hu n (by omega)).map _ hle
  | _, _, _, _, .func ht hsig hp hr hps hrs hlt, n + 1, hn => by
    have hlo := hps.le
    have hhi := hrs.le
    refine gives_printWithin hany ht rfl (by simp) (le_trans hlo hhi) hlt ?_
    have hparams := gives_printTuple hp (SpellsVars.gives hany hps n (by omega)) hlo
    have hresults := gives_printResults hr hrs (SpellsVars.gives hany hrs n (by omega))
    rw [show ∀ a b, "func(" ++ a ++ ")" ++ b = "func" ++ ("" ++ ("(" ++ a ++ ")") ++ b) from
      fun a b => by simp [← String.append_assoc]]
    simp only [printForm, ht, printSignature, Ty.signature?, hsig, List.isEmpty_nil, if_true, pure_bind]
    exact (hparams.bind (hresults.map _ hhi) hlo hhi).map _ (le_trans hlo hhi)

theorem SpellsVars.gives (hany : s.type .any = .interface {}) :
    ∀ {variadic os texts lo hi}, s.SpellsVars variadic os texts lo hi →
      ∀ n, hi - lo < n → Gives (s.printVars (s.printWithin n) variadic os) lo hi texts
  | _, _, _, _, _, .nil _, n, _ => gives_pure _ _ _
  | _, _, _, _, _, .cons hlast ho ht hos, n, hn => by
    have hlo := ht.le
    have hhi := hos.le
    simp only [printVars, hlast]
    exact (gives_printVar ho (Spells.gives hany ht n (by omega)) hlo).bind
      ((SpellsVars.gives hany hos n (by omega)).map _ hhi) hlo hhi
  | _, _, _, _, _, .last ho ht hu, n, hn => by
    have hle := hu.le
    simp only [printVars, List.isEmpty_nil, Bool.and_true, pure_bind]
    exact (gives_printVar_last ho ht (Spells.gives hany hu n hn) hle).map _ hle

end

lemma Spells.typeText_eq (h : s.Spells t text lo hi) (hany : s.type .any = .interface {})
    (hsize : hi ≤ s.types.size) : s.typeText t = text := by
  obtain ⟨met', hrun, -⟩ := h.gives hany (s.types.size + 2) (by omega) [] (by simp)
  rw [typeText, typeTextOf, hrun]

end Store

end GoCheck
