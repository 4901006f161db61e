import GoCheck.Type.Identity
import Mathlib.Data.List.Forall2
import Mathlib.Logic.Relation

/-!
# The rules of type identity

Type identity without a comparison: the largest relation that the rules of identity allow. It holds
of recursive types that no finite derivation could relate.
-/

namespace GoCheck

open List Option Relation

/-- Two lists of one length such that each entry of either has a related one in the other. -/
def Matched {α : Type} (R : α → α → Prop) (as bs : List α) : Prop :=
  as.length = bs.length ∧ (∀ a ∈ as, ∃ b ∈ bs, R a b) ∧ ∀ b ∈ bs, ∃ a ∈ as, R a b

namespace Matched

variable {as bs : List α}

lemma mono (hRS : ∀ a b, R a b → S a b) (h : Matched R as bs) : Matched S as bs := by
  obtain ⟨hlen, hl, hr⟩ := h
  refine ⟨hlen, fun a ha => ?_, fun b hb => ?_⟩
  · obtain ⟨b, hb, hab⟩ := hl a ha
    exact ⟨b, hb, hRS a b hab⟩
  · obtain ⟨a, ha, hab⟩ := hr b hb
    exact ⟨a, ha, hRS a b hab⟩

lemma flip (h : Matched R as bs) : Matched (fun b a => R a b) bs as :=
  ⟨h.1.symm, h.2.2, h.2.1⟩

lemma comp (h : Matched R as bs) (h' : Matched S bs cs) : Matched (Comp R S) as cs := by
  obtain ⟨hlen, hl, hr⟩ := h
  obtain ⟨hlen', hl', hr'⟩ := h'
  refine ⟨hlen.trans hlen', fun a ha => ?_, fun c hc => ?_⟩
  · obtain ⟨b, hb, hab⟩ := hl a ha
    obtain ⟨c, hc, hbc⟩ := hl' b hb
    exact ⟨c, hc, b, hab, hbc⟩
  · obtain ⟨b, hb, hbc⟩ := hr' c hc
    obtain ⟨a, ha, hab⟩ := hr b hb
    exact ⟨a, ha, b, hab, hbc⟩

/-- In lists of one length related entries on one side suffice, if none is related to two others. -/
lemma of_left (hlen : as.length = bs.length) (hinj : as.Pairwise fun a a' => ∀ b, R a b → ¬ R a' b)
    (h : ∀ a ∈ as, ∃ b ∈ bs, R a b) : Matched R as bs := by
  refine ⟨hlen, h, ?_⟩
  induction as generalizing bs with
  | nil =>
    obtain rfl := length_eq_zero_iff.mp hlen.symm
    simp
  | cons a as ih =>
    obtain ⟨hhead, htail⟩ := pairwise_cons.mp hinj
    obtain ⟨b, hb, hab⟩ := h a (by simp)
    obtain ⟨l, r, rfl⟩ := append_of_mem hb
    -- the entry related to `a` is used up, the others cover the rest
    have hrest : ∀ a' ∈ as, ∃ b' ∈ l ++ r, R a' b' := by
      intro a' ha'
      obtain ⟨b', hb', hab'⟩ := h a' (by simp [ha'])
      have hne : b' ≠ b := by
        rintro rfl
        exact hhead a' ha' b' hab hab'
      exact ⟨b', by simpa [hne] using hb', hab'⟩
    have hlen' : as.length = (l ++ r).length := by simp at hlen ⊢; omega
    have hih := ih hlen' htail hrest
    intro b' hb'
    by_cases hbb : b' = b
    · subst hbb
      exact ⟨a, by simp, hab⟩
    · obtain ⟨a', ha', hab'⟩ := hih b' (by simpa [hbb] using hb')
      exact ⟨a', by simp [ha'], hab'⟩

end Matched

section Optional

variable {p q : Option α}

lemma optionRel_mono (hRS : ∀ a b, R a b → S a b) (h : Rel R o p) : Rel S o p := by
  cases h with
  | some h => exact .some (hRS _ _ h)
  | none => exact .none

lemma optionRel_flip (h : Rel R o p) : Rel (fun b a => R a b) p o := by
  cases h with
  | some h => exact .some h
  | none => exact .none

lemma optionRel_comp (h : Rel R o p) (h' : Rel S p q) :
    Rel (Comp R S) o q := by
  cases h with
  | some h => cases h' with | some h' => exact .some ⟨_, h, h'⟩
  | none => cases h' with | none => exact .none

end Optional

namespace Store

variable {s : Store}

/-- Two objects of related types, or both without a type. -/
def TypesRelated (s : Store) (R : TypeId → TypeId → Prop) (a b : ObjectId) : Prop :=
  Rel R (s.object a).type (s.object b).type

/-- Two fields of one name and related types, both embedded or not. -/
def FieldsRelated (s : Store) (R : TypeId → TypeId → Prop) (a b : ObjectId) : Prop :=
  (s.object a).name = (s.object b).name ∧ (s.object a).isEmbedded = (s.object b).isEmbedded ∧
    s.TypesRelated R a b

/-- Two methods of one name and related types. -/
def MethodsRelated (s : Store) (R : TypeId → TypeId → Prop) (a b : ObjectId) : Prop :=
  (s.object a).name = (s.object b).name ∧ s.TypesRelated R a b

/-- Types of the same form whose parts are related. A type parameter has no form of its own. -/
inductive SameForm (s : Store) (R : TypeId → TypeId → Prop) : Ty → Ty → Prop
  | basic :
    j.resolveAlias = k.resolveAlias → SameForm s R (.basic j) (.basic k)
  | array {a b : TypeId} : R a b → SameForm s R (.array n a) (.array n b)
  | slice {a b : TypeId} : R a b → SameForm s R (.slice a) (.slice b)
  | struct :
    Forall₂ (s.FieldsRelated R) as bs → SameForm s R (.struct as) (.struct bs)
  | pointer {a b : TypeId} : R a b → SameForm s R (.pointer a) (.pointer b)
  | tuple :
    Forall₂ (s.TypesRelated R) as bs → SameForm s R (.tuple as) (.tuple bs)
  | signature :
    f.typeParams.length = g.typeParams.length → f.variadic = g.variadic →
    R f.params g.params → R f.results g.results → SameForm s R (.signature f) (.signature g)
  | interface :
    Matched (s.MethodsRelated R) i.methods j.methods → Rel (Matched R) i.terms j.terms →
    SameForm s R (.interface i) (.interface j)
  | map {k l a b : TypeId} : R k l → R a b → SameForm s R (.map k a) (.map l b)
  | chan {a b : TypeId} : R a b → SameForm s R (.chan d a) (.chan d b)
  | named : m.object = n.object → SameForm s R (.named m) (.named n)

/-- The rules of identity: a type is identical to itself and to types of the same form. -/
def IdentityRule (s : Store) (R : TypeId → TypeId → Prop) (x y : TypeId) : Prop :=
  x = y ∨ s.SameForm R (s.type x) (s.type y)

/-- Type identity: the largest relation that keeps to the rules. -/
def Identical (s : Store) (x y : TypeId) : Prop :=
  ∃ R : TypeId → TypeId → Prop, (∀ a b, R a b → s.IdentityRule R a b) ∧ R x y

lemma TypesRelated.mono (hR : ∀ x y, R x y → R' x y) (h : s.TypesRelated R a b) :
    s.TypesRelated R' a b :=
  optionRel_mono hR h

lemma MethodsRelated.mono (hR : ∀ x y, R x y → R' x y) (h : s.MethodsRelated R a b) :
    s.MethodsRelated R' a b :=
  ⟨h.1, h.2.mono hR⟩

lemma SameForm.mono (hR : ∀ x y, R x y → R' x y) (h : s.SameForm R t u) :
    s.SameForm R' t u := by
  cases h with
  | basic h => exact .basic h
  | array h => exact .array (hR _ _ h)
  | slice h => exact .slice (hR _ _ h)
  | struct h => exact .struct (h.imp fun _ _ h => ⟨h.1, h.2.1, h.2.2.mono hR⟩)
  | pointer h => exact .pointer (hR _ _ h)
  | tuple h => exact .tuple (h.imp fun _ _ h => h.mono hR)
  | signature hl hv hp hr => exact .signature hl hv (hR _ _ hp) (hR _ _ hr)
  | interface hm ht =>
    exact .interface (hm.mono fun _ _ h => h.mono hR) (optionRel_mono (fun _ _ h => h.mono hR) ht)
  | map hk he => exact .map (hR _ _ hk) (hR _ _ he)
  | chan h => exact .chan (hR _ _ h)
  | named h => exact .named h

lemma IdentityRule.mono (hR : ∀ x y, R x y → R' x y) (h : s.IdentityRule R x y) :
    s.IdentityRule R' x y :=
  h.imp_right fun h => h.mono hR

lemma Identical.of_closed (hR : ∀ a b, R a b → s.IdentityRule R a b) (h : R x y) :
    s.Identical x y :=
  ⟨R, hR, h⟩

lemma Identical.rule (h : s.Identical x y) : s.IdentityRule s.Identical x y := by
  obtain ⟨R, hR, hxy⟩ := h
  exact (hR x y hxy).mono fun a b hab => .of_closed hR hab

lemma Identical.refl (x : TypeId) : s.Identical x x :=
  .of_closed (fun _ _ h => .inl h) rfl

lemma TypesRelated.flip (h : s.TypesRelated R a b) : s.TypesRelated (fun x y => R y x) b a :=
  optionRel_flip h

lemma SameForm.flip (h : s.SameForm R t u) : s.SameForm (fun x y => R y x) u t := by
  cases h with
  | basic h => exact .basic h.symm
  | array h => exact .array h
  | slice h => exact .slice h
  | struct h => exact .struct (h.flip.imp fun _ _ (h : s.FieldsRelated R _ _) =>
      ⟨h.1.symm, h.2.1.symm, h.2.2.flip⟩)
  | pointer h => exact .pointer h
  | tuple h => exact .tuple (h.flip.imp fun _ _ (h : s.TypesRelated R _ _) => h.flip)
  | signature hl hv hp hr => exact .signature hl.symm hv.symm hp hr
  | interface hm ht =>
    exact .interface (hm.flip.mono fun _ _ h => ⟨h.1.symm, h.2.flip⟩)
      (optionRel_mono (fun _ _ h => h.flip) (optionRel_flip ht))
  | map hk he => exact .map hk he
  | chan h => exact .chan h
  | named h => exact .named h.symm

lemma Identical.symm (h : s.Identical x y) : s.Identical y x := by
  refine .of_closed (R := fun a b => s.Identical b a) (fun a b hab => ?_) h
  rcases hab.rule with rfl | hf
  · exact .inl rfl
  · exact .inr hf.flip

lemma TypesRelated.comp (h : s.TypesRelated R a b) (h' : s.TypesRelated R' b c) :
    s.TypesRelated (Comp R R') a c :=
  optionRel_comp h h'

lemma forall₂_comp (hPQ : ∀ a b c, P a b → Q b c → S a c) (h : Forall₂ P as bs)
    (h' : Forall₂ Q bs cs) : Forall₂ S as cs := by
  induction h generalizing cs with
  | nil =>
    cases h'
    exact .nil
  | cons hab _ ih =>
    cases h' with
    | cons hbc h' => exact .cons (hPQ _ _ _ hab hbc) (ih h')

lemma SameForm.comp (h : s.SameForm R t u) (h' : s.SameForm R' u v) :
    s.SameForm (Comp R R') t v := by
  cases h with
  | basic h => cases h' with | basic h' => exact .basic (h.trans h')
  | array h => cases h' with | array h' => exact .array ⟨_, h, h'⟩
  | slice h => cases h' with | slice h' => exact .slice ⟨_, h, h'⟩
  | struct h =>
    cases h' with
    | struct h' =>
      refine .struct (forall₂_comp (fun a b c hab hbc => ?_) h h')
      exact ⟨hab.1.trans hbc.1, hab.2.1.trans hbc.2.1, hab.2.2.comp hbc.2.2⟩
  | pointer h => cases h' with | pointer h' => exact .pointer ⟨_, h, h'⟩
  | tuple h =>
    cases h' with
    | tuple h' => exact .tuple (forall₂_comp (fun a b c hab hbc => hab.comp hbc) h h')
  | signature hl hv hp hr =>
    cases h' with
    | signature hl' hv' hp' hr' =>
      exact .signature (hl.trans hl') (hv.trans hv') ⟨_, hp, hp'⟩ ⟨_, hr, hr'⟩
  | interface hm ht =>
    cases h' with
    | interface hm' ht' =>
      refine .interface ((hm.comp hm').mono ?_) (optionRel_mono ?_ (optionRel_comp ht ht'))
      · rintro a c ⟨b, hab, hbc⟩
        exact ⟨hab.1.trans hbc.1, hab.2.comp hbc.2⟩
      · rintro as cs ⟨bs, h, h'⟩
        exact h.comp h'
  | map hk he => cases h' with | map hk' he' => exact .map ⟨_, hk, hk'⟩ ⟨_, he, he'⟩
  | chan h => cases h' with | chan h' => exact .chan ⟨_, h, h'⟩
  | named h => cases h' with | named h' => exact .named (h.trans h')

lemma Identical.trans (h : s.Identical x y) (h' : s.Identical y z) : s.Identical x z := by
  refine .of_closed (R := Comp s.Identical s.Identical) ?_ ⟨y, h, h'⟩
  rintro a c ⟨b, hab, hbc⟩
  rcases hab.rule with rfl | hf
  · exact hbc.rule.mono fun u v huv => ⟨u, .refl u, huv⟩
  · rcases hbc.rule with rfl | hf'
    · exact hab.rule.mono fun u v huv => ⟨v, huv, .refl v⟩
    · exact .inr (hf.comp hf')

lemma identical_equivalence (s : Store) : Equivalence s.Identical :=
  ⟨.refl, .symm, .trans⟩

/-- The parts of a type: elements, bases, keys, types of fields and variables. -/
inductive HasPart (s : Store) : Ty → TypeId → Prop
  | array {t : TypeId} : HasPart s (.array n t) t
  | slice {t : TypeId} : HasPart s (.slice t) t
  | field {t : TypeId} :
    f ∈ fields → (s.object f).type = some t → HasPart s (.struct fields) t
  | pointer {t : TypeId} : HasPart s (.pointer t) t
  | var {t : TypeId} :
    v ∈ vars → (s.object v).type = some t → HasPart s (.tuple vars) t
  | params : HasPart s (.signature f) f.params
  | results : HasPart s (.signature f) f.results
  | key {k t : TypeId} : HasPart s (.map k t) k
  | elem {k t : TypeId} : HasPart s (.map k t) t
  | chan {t : TypeId} : HasPart s (.chan d t) t

/-- A type is a part of another one. -/
def RefersByPart (s : Store) (t u : TypeId) : Prop := s.HasPart (s.type t) u

/-- A type is that of a method of an interface. -/
def RefersByMethod (s : Store) (t u : TypeId) : Prop :=
  ∃ i m, s.type t = .interface i ∧ m ∈ i.methods ∧ (s.object m).type = some u

/-- A type is a term of an interface. -/
def RefersByTerm (s : Store) (t u : TypeId) : Prop :=
  ∃ i ts, s.type t = .interface i ∧ i.terms = some ts ∧ u ∈ ts

/-- By a part, a method or a term. -/
def Refers (s : Store) (t u : TypeId) : Prop :=
  s.RefersByPart t u ∨ s.RefersByMethod t u ∨ s.RefersByTerm t u

lemma not_refers_of_basic {k : BasicKind} {t u : TypeId} (ht : s.type t = .basic k) :
    ¬ s.Refers t u := by
  rintro (h | ⟨i, m, hi, -⟩ | ⟨i, ts, hi, -⟩)
  · unfold RefersByPart at h
    rw [ht] at h
    cases h
  · simp [ht] at hi
  · simp [ht] at hi

/-- Methods of an interface differ in their names. -/
def NamesDistinct (s : Store) : Prop :=
  ∀ t i, s.type t = .interface i → (i.methods.map fun m => (s.object m).name).Nodup

/-- No interface has two identical terms. -/
def TermsDistinct (s : Store) : Prop :=
  ∀ t i ts, s.type t = .interface i → i.terms = some ts → ts.Pairwise fun a b => ¬ s.Identical a b

/-- Every cycle of references goes through a method of an interface, and none through a term. -/
structure CyclesThroughMethods (s : Store) : Prop where
  method : ∀ t, ¬ TransGen (fun t u => s.RefersByPart t u ∨ s.RefersByTerm t u) t t
  term : ∀ t u, s.RefersByTerm t u → ¬ ReflTransGen s.Refers u t

end Store

end GoCheck

/-! ## What is compared of two types -/

namespace GoCheck

open List

variable {p : Prop}

/-- What is compared of two types: a difference that shows at once, or two types. -/
inductive Part where
  | differ
  | pair (a b : TypeId)

namespace Part

def compare (f : TypeId → TypeId → Compare Bool) : Part → Compare Bool
  | differ => pure false
  | pair a b => f a b

def Holds (R : TypeId → TypeId → Prop) : Part → Prop
  | differ => False
  | pair a b => R a b

lemma Holds.mono {R R' : TypeId → TypeId → Prop} (hR : ∀ a b, R a b → R' a b) {p : Part}
    (h : p.Holds R) : p.Holds R' := by
  cases p with
  | differ => exact h
  | pair a b => exact hR a b h

/-- The parts of types that meet a condition; otherwise they differ. -/
def given (p : Prop) [Decidable p] (ps : List Part) : List Part := if p then ps else [differ]

/-- The part that two optional types make. -/
def optional : Option TypeId → Option TypeId → List Part
  | some a, some b => [pair a b]
  | none, none => []
  | _, _ => [differ]

end Part

namespace Store

variable {s : Store}

def objectParts (s : Store) (a b : ObjectId) : List Part :=
  Part.optional (s.object a).type (s.object b).type

/-- The types of two fields that agree in name and embedding. -/
def fieldParts (s : Store) (a b : ObjectId) : List Part :=
  Part.given ((s.object a).name = (s.object b).name ∧
    (s.object a).isEmbedded = (s.object b).isEmbedded) (s.objectParts a b)

/-- What is compared of two types that are not both interfaces, in the order of the comparison. -/
def parts (s : Store) : Ty → Ty → List Part
  | .basic j, .basic k => Part.given (j.resolveAlias = k.resolveAlias) []
  | .array m a, .array n b => Part.given (m = n) [.pair a b]
  | .slice a, .slice b => [.pair a b]
  | .struct as, .struct bs =>
    Part.given (as.length = bs.length) (zipWith s.fieldParts as bs).flatten
  | .pointer a, .pointer b => [.pair a b]
  | .tuple as, .tuple bs => Part.given (as.length = bs.length) (zipWith s.objectParts as bs).flatten
  | .signature f, .signature g =>
    Part.given (f.typeParams.length = g.typeParams.length ∧ f.variadic = g.variadic)
      [.pair f.params g.params, .pair f.results g.results]
  | .map k a, .map l b => [.pair k l, .pair a b]
  | .chan d a, .chan e b => Part.given (d = e) [.pair a b]
  | .named m, .named n => Part.given (m.object = n.object) []
  | _, _ => [.differ]

def compareParts (f : TypeId → TypeId → Compare Bool) (ps : List Part) : Compare Bool :=
  ps.allM (Part.compare f)

lemma compareParts_nil : compareParts f [] = pure true := rfl

lemma compareParts_append (ps qs : List Part) :
    compareParts f (ps ++ qs) = (do if ← compareParts f ps then compareParts f qs else pure false) := by
  induction ps with
  | nil => simp [compareParts]
  | cons p ps ih =>
    simp only [compareParts, cons_append, allM, bind_assoc] at ih ⊢
    congr 1
    funext c
    cases c <;> simp [ih]

lemma compareParts_pair (a b : TypeId) : compareParts f [.pair a b] = f a b := by
  simp only [compareParts, allM, Part.compare]
  refine Eq.trans ?_ (bind_pure _)
  congr 1
  funext c
  cases c <;> rfl

lemma compareParts_two (a b c d : TypeId) :
    compareParts f [.pair a b, .pair c d] = (do if ← f a b then f c d else pure false) := by
  have h := compareParts_append (f := f) [.pair a b] [.pair c d]
  simpa only [compareParts_pair, singleton_append] using h

lemma compareParts_differ : compareParts f [.differ] = pure false := by
  simp [compareParts, Part.compare]

lemma compareParts_given (p : Prop) [Decidable p] (ps : List Part) :
    compareParts f (Part.given p ps) = if p then compareParts f ps else pure false := by
  unfold Part.given
  split
  · rfl
  · exact compareParts_differ

lemma compareObjectTypes_eq (a b : ObjectId) :
    s.compareObjectTypes f a b = compareParts f (s.objectParts a b) := by
  unfold compareObjectTypes compareOptional objectParts Part.optional
  cases (s.object a).type <;> cases (s.object b).type <;>
    simp [compareParts_nil, compareParts_pair, compareParts_differ]

lemma compareFields_eq (a b : ObjectId) :
    s.compareFields f a b = compareParts f (s.fieldParts a b) := by
  unfold compareFields fieldParts
  rw [compareParts_given, compareObjectTypes_eq]

variable {k : α → α → List Part}

lemma allPairs_eq (hg : ∀ a b, g a b = compareParts f (k a b))
    (as bs : List α) : allPairs g as bs = compareParts f (zipWith k as bs).flatten := by
  induction as generalizing bs with
  | nil => rfl
  | cons a as ih =>
    cases bs with
    | nil => rfl
    | cons b bs =>
      simp only [allPairs, zipWith_cons_cons, flatten_cons, compareParts_append, hg, ih]

lemma interfaces_or (s : Store) (x y : TypeId) :
    (∃ i j, s.type x = .interface i ∧ s.type y = .interface j) ∨
      ∀ i j, s.type x = .interface i → s.type y ≠ .interface j := by
  by_cases h : ∃ i j, s.type x = .interface i ∧ s.type y = .interface j
  · exact .inl h
  · exact .inr fun i j hx hy => h ⟨i, j, hx, hy⟩

/-- Of two different types, not both interfaces, the parts are compared up to the first
difference. -/
lemma identityStep_eq_compareParts (hne : x ≠ y)
    (hni : ∀ i j, s.type x = .interface i → s.type y ≠ .interface j) :
    s.identityStep f x y = compareParts f (s.parts (s.type x) (s.type y)) := by
  unfold identityStep
  rw [if_neg hne]
  generalize s.type x = t, s.type y = u at hni
  cases t <;> cases u <;> try exact compareParts_differ.symm
  case basic.basic j k =>
    simp only [parts, compareParts_given, compareParts_nil]
    split <;> simp_all
  case array.array m a n b => simp only [parts, compareParts_given, compareParts_pair]
  case slice.slice a b => exact (compareParts_pair a b).symm
  case struct.struct as bs =>
    simp only [parts, compareParts_given, allPairs_eq (compareFields_eq)]
  case pointer.pointer a b => exact (compareParts_pair a b).symm
  case tuple.tuple as bs =>
    simp only [parts, compareParts_given, allPairs_eq (compareObjectTypes_eq)]
  case signature.signature a b =>
    simp only [parts, compareParts_given, compareParts_two]
    by_cases h : a.typeParams.length = b.typeParams.length ∧ a.variadic = b.variadic
    · simp [h]
    · rw [if_neg h, if_pos (by simpa using not_and_or.mp h)]
  case interface.interface i j => exact absurd rfl (hni i j rfl)
  case map.map k a l b => exact (compareParts_two k l a b).symm
  case chan.chan d a e b => simp only [parts, compareParts_given, compareParts_pair]
  case named.named m n =>
    simp only [parts, compareParts_given, compareParts_nil]
    split <;> simp_all

lemma holds_given [Decidable p] : (∀ q ∈ Part.given p ps, q.Holds R) ↔ p ∧ ∀ q ∈ ps, q.Holds R := by
  unfold Part.given
  split
  · rename_i hp
    simp [hp]
  · rename_i hp
    simp [hp, Part.Holds]

lemma holds_objectParts {a b : ObjectId} :
    (∀ p ∈ s.objectParts a b, p.Holds R) ↔ s.TypesRelated R a b := by
  unfold objectParts Part.optional TypesRelated
  cases (s.object a).type <;> cases (s.object b).type <;> simp [Part.Holds]

lemma holds_fieldParts {a b : ObjectId} :
    (∀ p ∈ s.fieldParts a b, p.Holds R) ↔ s.FieldsRelated R a b := by
  unfold fieldParts FieldsRelated
  rw [holds_given, holds_objectParts, and_assoc]

variable {as bs : List α}

lemma holds_flatten (hk : ∀ {a b}, (∀ p ∈ k a b, p.Holds R) ↔ Q a b) :
    (as.length = bs.length ∧ ∀ p ∈ (zipWith k as bs).flatten, p.Holds R) ↔
      Forall₂ Q as bs := by
  induction as generalizing bs with
  | nil => cases bs <;> simp
  | cons a as ih =>
    cases bs with
    | nil => simp
    | cons b bs =>
      rw [forall₂_cons, ← ih, ← hk]
      simp only [length_cons, Nat.add_right_cancel_iff, zipWith_cons_cons,
        flatten_cons, mem_append]
      constructor
      · rintro ⟨hlen, h⟩
        exact ⟨fun p hp => h p (.inl hp), hlen, fun p hp => h p (.inr hp)⟩
      · rintro ⟨h, hlen, h'⟩
        exact ⟨hlen, fun p hp => hp.elim (h p) (h' p)⟩

/-- Types that are not both interfaces have the same form if their parts are related. -/
lemma sameForm_iff_parts (hni : ∀ i j, t = .interface i → u ≠ .interface j) :
    s.SameForm R t u ↔ ∀ p ∈ s.parts t u, p.Holds R := by
  constructor
  · intro h
    cases h with
    | basic h | named h => exact holds_given.mpr ⟨h, by simp⟩
    | array h => exact holds_given.mpr ⟨rfl, by simpa [Part.Holds] using h⟩
    | slice h => simpa [parts, Part.Holds] using h
    | struct h => exact holds_given.mpr ((holds_flatten holds_fieldParts).mpr h)
    | pointer h => simpa [parts, Part.Holds] using h
    | tuple h => exact holds_given.mpr ((holds_flatten holds_objectParts).mpr h)
    | signature hl hv hp hr =>
      exact holds_given.mpr ⟨⟨hl, hv⟩, by simpa [Part.Holds] using ⟨hp, hr⟩⟩
    | interface _ _ => exact absurd rfl (hni _ _ rfl)
    | map hk he => simpa [parts, Part.Holds] using ⟨hk, he⟩
    | chan h => exact holds_given.mpr ⟨rfl, by simpa [Part.Holds] using h⟩
  · intro h
    cases t <;> cases u <;> try exact (h .differ (mem_singleton_self _)).elim
    case basic.basic j k => exact .basic (holds_given.mp h).1
    case array.array m a n b =>
      obtain ⟨rfl, hp⟩ := holds_given.mp h
      exact .array (hp (.pair a b) (mem_singleton_self _))
    case slice.slice a b => exact .slice (h (.pair a b) (by simp [parts]))
    case struct.struct as bs =>
      exact .struct ((holds_flatten holds_fieldParts).mp (holds_given.mp h))
    case pointer.pointer a b => exact .pointer (h (.pair a b) (by simp [parts]))
    case tuple.tuple as bs =>
      exact .tuple ((holds_flatten holds_objectParts).mp (holds_given.mp h))
    case signature.signature f g =>
      obtain ⟨⟨hl, hv⟩, h⟩ := holds_given.mp h
      exact .signature hl hv (h (.pair f.params g.params) (by simp))
        (h (.pair f.results g.results) (by simp))
    case map.map k a l b =>
      exact .map (h (.pair k l) (by simp [parts])) (h (.pair a b) (by simp [parts]))
    case chan.chan d a e b =>
      obtain ⟨rfl, hp⟩ := holds_given.mp h
      exact .chan (hp (.pair a b) (mem_singleton_self _))
    case named.named m n => exact .named (holds_given.mp h).1

lemma pair_notMem_differ : Part.pair a b ∉ [Part.differ] := by simp

lemma pair_mem_of_mem_given [Decidable p] (h : .pair a b ∈ Part.given p ps) :
    .pair a b ∈ ps := by
  unfold Part.given at h
  split at h
  · exact h
  · exact absurd h pair_notMem_differ

lemma type_of_mem_objectParts {o o' : ObjectId} (h : .pair a b ∈ s.objectParts o o') :
    (s.object o).type = some a := by
  unfold objectParts Part.optional at h
  cases ho : (s.object o).type <;> cases ho' : (s.object o').type <;> simp [ho, ho'] at h
  simp [h.1]

lemma exists_mem_of_mem_flatten {p : Part} (h : p ∈ (zipWith k as bs).flatten) :
    ∃ a ∈ as, ∃ b, p ∈ k a b := by
  induction as generalizing bs with
  | nil => simp at h
  | cons a as ih =>
    cases bs with
    | nil => simp at h
    | cons b bs =>
      rw [zipWith_cons_cons, flatten_cons] at h
      rcases mem_append.mp h with h | h
      · exact ⟨a, by simp, b, h⟩
      · obtain ⟨a', ha', hk⟩ := ih h
        exact ⟨a', by simp [ha'], hk⟩

/-- What is compared are parts of the first type. -/
lemma hasPart_of_mem_parts (h : .pair a b ∈ s.parts t u) : s.HasPart t a := by
  cases t <;> cases u <;> try exact absurd h pair_notMem_differ
  case basic.basic j k => exact absurd (pair_mem_of_mem_given h) not_mem_nil
  case array.array m c n d =>
    cases mem_singleton.mp (pair_mem_of_mem_given h)
    exact .array
  case slice.slice c d =>
    cases mem_singleton.mp h
    exact .slice
  case struct.struct as bs =>
    obtain ⟨o, ho, o', hp⟩ := exists_mem_of_mem_flatten (pair_mem_of_mem_given h)
    exact .field ho (type_of_mem_objectParts (pair_mem_of_mem_given hp))
  case pointer.pointer c d =>
    cases mem_singleton.mp h
    exact .pointer
  case tuple.tuple as bs =>
    obtain ⟨o, ho, o', hp⟩ := exists_mem_of_mem_flatten (pair_mem_of_mem_given h)
    exact .var ho (type_of_mem_objectParts hp)
  case signature.signature f g =>
    rcases mem_cons.mp (pair_mem_of_mem_given h) with h | h
    · cases h
      exact .params
    · cases mem_singleton.mp h
      exact .results
  case map.map k c l d =>
    rcases mem_cons.mp h with h | h
    · cases h
      exact .key
    · cases mem_singleton.mp h
      exact .elem
  case chan.chan d c e d' =>
    cases mem_singleton.mp (pair_mem_of_mem_given h)
    exact .chan
  case named.named m n => exact absurd (pair_mem_of_mem_given h) not_mem_nil

end Store

end GoCheck
