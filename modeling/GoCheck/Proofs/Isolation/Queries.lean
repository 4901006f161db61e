import GoCheck.Proofs.Identity.Depth
import GoCheck.Proofs.Isolation.Shifted
import GoCheck.Proofs.Visibility.Scopes

/-!
# Questions to shifted stores

A shifted store gives the same answers as the store it comes from, with new numbers. A search may be
longer there, since there are more types, but finds nothing else.
-/

namespace GoCheck

open Renumbering Option List Compare

namespace Store

variable {ρ : Renumbering} {s s' : Store} {t u : TypeId} {n : Nat}

/-- The way down from a type is no longer than its number. -/
lemma Ordered.underlyingWithin_eq (hs : s.Ordered) (hm : t.index < m) (hn : t.index < n) :
    s.underlyingWithin m t = s.underlyingWithin n t := by
  induction m generalizing n t with
  | zero => omega
  | succ m ih =>
    obtain ⟨n, rfl⟩ : ∃ i, n = i + 1 := ⟨n - 1, by omega⟩
    simp only [underlyingWithin]
    cases hb : (s.type t).beneath? with
    | none => rfl
    | some u =>
      have hlt := hs.beneath t u hb
      dsimp only
      rw [ih (t := u) (by omega) (n := n) (by omega)]

lemma Ordered.index_underlyingWithin_le (hs : s.Ordered) (n : Nat) (t : TypeId) :
    (s.underlyingWithin n t).index ≤ t.index := by
  induction n generalizing t with
  | zero => exact le_rfl
  | succ n ih =>
    simp only [underlyingWithin]
    cases hb : (s.type t).beneath? with
    | none => exact le_rfl
    | some u =>
      have hlt := hs.beneath t u hb
      dsimp only
      split
      · exact Nat.le_refl _
      · exact (ih u).trans (Nat.le_of_lt hlt)

/-- The terms of a type parameter are earlier types. -/
lemma Ordered.index_lt_of_mem_terms (hs : s.Ordered) (hu : u ∈ s.terms t) :
    u.index < t.index ∧ t.index < s.types.size := by
  unfold terms at hu
  obtain ⟨ts, h⟩ : ∃ ts, s.terms? t = some ts := by
    cases h : s.terms? t <;> simp_all
  rw [h, getD_some] at hu
  unfold terms? at h
  simp only [bind_eq_bind, bind_eq_some_iff] at h
  obtain ⟨q, hq, i, hi, hts⟩ := h
  have hparam : s.type t = .typeParam q := by
    cases ht : s.type t <;> simp_all [Ty.typeParam?]
  have hiface : s.type (s.underlying q.bound) = .interface i := by
    rw [shape] at hi
    cases hshape : s.type (s.underlying q.bound) <;> simp_all [Ty.interface?]
  have hterm := hs.term _ i hiface u (by simpa [hts] using hu)
  have hunder := hs.index_underlyingWithin_le (s.types.size + 1) q.bound
  have hbound := hs.beneath t q.bound (by rw [hparam]; rfl)
  have hlt := lt_size_of_type_ne (by rw [hparam]; simp)
  change (s.underlying q.bound).index ≤ _ at hunder
  omega

namespace Shifted

variable (h : s.Shifted ρ s')
include h

lemma size_le : s.types.size ≤ s'.types.size := by
  have := h.types_size
  omega

lemma tupleVars (t : TypeId) : s'.tupleVars (ρ.type t) = (s.tupleVars t).map ρ.object := by
  unfold Store.tupleVars
  rw [h.type, tuple?_ty]
  cases (s.type t).tuple? <;> rfl

lemma isNamed (t : TypeId) : s'.isNamed (ρ.type t) = s.isNamed t := by
  unfold Store.isNamed
  rw [h.type, isNamed_ty]

lemma isUntyped (t : TypeId) : s'.isUntyped (ρ.type t) = s.isUntyped t := by
  unfold Store.isUntyped
  rw [h.type, basic?_ty]

lemma isUntypedNumeric (t : TypeId) : s'.isUntypedNumeric (ρ.type t) = s.isUntypedNumeric t := by
  unfold Store.isUntypedNumeric
  rw [h.type, basic?_ty]

lemma isTypeParam (t : TypeId) : s'.isTypeParam (ρ.type t) = s.isTypeParam t := by
  unfold Store.isTypeParam
  rw [h.type, typeParam?_ty, isSome_map]

lemma defaultType (t : TypeId) : s'.defaultType (ρ.type t) = ρ.type (s.defaultType t) := by
  unfold Store.defaultType
  rw [h.type]
  cases s.type t with
  | basic k =>
    dsimp only [ty]
    split
    · exact (type_basic _).symm
    · rfl
  | _ => rfl

lemma underlyingWithin (n : Nat) (t : TypeId) :
    s'.underlyingWithin n (ρ.type t) = ρ.type (s.underlyingWithin n t) := by
  induction n generalizing t with
  | zero => rfl
  | succ n ih =>
    simp only [Store.underlyingWithin, h.type, beneath?_ty]
    cases (s.type t).beneath? with
    | none => rfl
    | some u =>
      simp only [map_some, type_inj, ih]
      split <;> rfl

variable (hs : s.Ordered)
include hs

lemma underlying (t : TypeId) : s'.underlying (ρ.type t) = ρ.type (s.underlying t) := by
  unfold Store.underlying
  rw [h.underlyingWithin]
  rcases lt_or_ge t.index s.types.size with hlt | hge
  · have := h.size_le
    rw [hs.underlyingWithin_eq (m := s'.types.size + 1) (n := s.types.size + 1) (by omega) (by omega)]
  · simp [Store.underlyingWithin, type_of_size_le hge, Ty.beneath?]

lemma shape (t : TypeId) : s'.shape (ρ.type t) = ρ.ty (s.shape t) := by
  unfold Store.shape
  rw [h.underlying hs, h.type]

lemma family? (t : TypeId) : s'.family? (ρ.type t) = s.family? t := by
  unfold Store.family?
  rw [h.shape hs, basic?_ty]

lemma isInvalid (t : TypeId) : s'.isInvalid (ρ.type t) = s.isInvalid t := by
  simp only [Store.isInvalid, h.family? hs]

lemma isBoolean (t : TypeId) : s'.isBoolean (ρ.type t) = s.isBoolean t := by
  simp only [Store.isBoolean, h.family? hs]

lemma isInteger (t : TypeId) : s'.isInteger (ρ.type t) = s.isInteger t := by
  simp only [Store.isInteger, h.family? hs]

lemma isFloat (t : TypeId) : s'.isFloat (ρ.type t) = s.isFloat t := by
  simp only [Store.isFloat, h.family? hs]

lemma isComplex (t : TypeId) : s'.isComplex (ρ.type t) = s.isComplex t := by
  simp only [Store.isComplex, h.family? hs]

lemma isNumeric (t : TypeId) : s'.isNumeric (ρ.type t) = s.isNumeric t := by
  simp only [Store.isNumeric, h.family? hs]

lemma isString (t : TypeId) : s'.isString (ρ.type t) = s.isString t := by
  simp only [Store.isString, h.family? hs]

lemma isConstType (t : TypeId) : s'.isConstType (ρ.type t) = s.isConstType t := by
  simp only [Store.isConstType, h.family? hs]

lemma isInterface (t : TypeId) : s'.isInterface (ρ.type t) = s.isInterface t := by
  unfold Store.isInterface
  rw [h.shape hs, interface?_ty, isSome_map]

lemma isPlainInterface (t : TypeId) : s'.isPlainInterface (ρ.type t) = s.isPlainInterface t := by
  simp only [Store.isPlainInterface, h.isTypeParam, h.isInterface hs]

lemma isInterfacePointer (t : TypeId) :
    s'.isInterfacePointer (ρ.type t) = s.isInterfacePointer t := by
  unfold Store.isInterfacePointer
  rw [h.type, pointerBase?_ty]
  cases (s.type t).pointerBase? with
  | none => rfl
  | some base => exact h.isInterface hs base

lemma formWord (t : TypeId) : s'.formWord (ρ.type t) = s.formWord t := by
  unfold Store.formWord
  rw [h.shape hs]
  cases s.shape t <;> rfl

lemma terms? (t : TypeId) : s'.terms? (ρ.type t) = (s.terms? t).map (·.map ρ.type) := by
  unfold Store.terms?
  rw [h.type, typeParam?_ty]
  cases (s.type t).typeParam? with
  | none => rfl
  | some q =>
    simp only [map_some, bind_eq_bind, bind_some, h.shape hs, interface?_ty]
    cases (s.shape q.bound).interface? <;> rfl

lemma terms (t : TypeId) : s'.terms (ρ.type t) = (s.terms t).map ρ.type := by
  unfold Store.terms
  rw [h.terms? hs]
  cases s.terms? t <;> rfl

lemma isEmpty_terms (t : TypeId) : (s'.terms (ρ.type t)).isEmpty = (s.terms t).isEmpty := by
  rw [h.terms hs, List.isEmpty_map]

end Shifted

lemma all_congr {l : List α} {f g : α → Bool} (h : ∀ a ∈ l, f a = g a) : l.all f = l.all g := by
  rw [Bool.eq_iff_iff, List.all_eq_true, List.all_eq_true]
  exact forall₂_congr fun a ha => by rw [h a ha]

lemma hasNilStep_congr {f g : TypeId → Bool} (h : ∀ u ∈ s.terms t, f u = g u) :
    s.hasNilStep f t = s.hasNilStep g t := by
  unfold terms at h
  unfold hasNilStep
  cases hterms : s.terms? t with
  | none => rfl
  | some ts =>
    rw [hterms] at h
    have hall : ts.all f = ts.all g := all_congr h
    simp only [hall]

lemma Ordered.hasNilWithin_eq (hs : s.Ordered) (hm : t.index < m) (hn : t.index < n) :
    s.hasNilWithin m t = s.hasNilWithin n t := by
  induction m generalizing n t with
  | zero => omega
  | succ m ih =>
    obtain ⟨n, rfl⟩ : ∃ i, n = i + 1 := ⟨n - 1, by omega⟩
    refine hasNilStep_congr fun u hu => ?_
    have := (hs.index_lt_of_mem_terms hu).1
    exact ih (by omega) (by omega)

lemma Ordered.hasNil_eq (hs : s.Ordered) (t : TypeId) : s.hasNil t = s.hasNilStep s.hasNil t := by
  refine hasNilStep_congr fun u hu => ?_
  have := hs.index_lt_of_mem_terms hu
  exact hs.hasNilWithin_eq (by omega) (by omega)

lemma Shifted.hasNilWithin (h : s.Shifted ρ s') (hs : s.Ordered) (n : Nat) (t : TypeId) :
    s'.hasNilWithin n (ρ.type t) = s.hasNilWithin n t := by
  induction n generalizing t with
  | zero => rfl
  | succ n ih =>
    simp only [Store.hasNilWithin, hasNilStep, h.shape hs, h.isTypeParam, h.terms? hs]
    cases s.shape t with
    | interface i =>
      dsimp only [ty]
      cases s.terms? t with
      | none => rfl
      | some ts => simp only [map_some, List.all_map, Function.comp_def, ih]
    | _ => rfl

lemma Shifted.hasNil (h : s.Shifted ρ s') (hs : s.Ordered) (t : TypeId) :
    s'.hasNil (ρ.type t) = s.hasNil t := by
  unfold Store.hasNil
  rw [h.hasNilWithin hs]
  rcases lt_or_ge t.index s.types.size with hlt | hge
  · have := h.size_le
    exact hs.hasNilWithin_eq (by omega) (by omega)
  · simp [Store.hasNilWithin, hasNilStep, shape_of_size_le hge]

lemma Shifted.resolveWithin (h : s.Shifted ρ s') (name : String) (n : Nat) (x : ScopeId) :
    s'.resolveWithin name n (ρ.scope x) =
      (s.resolveWithin name n x).map fun r => (ρ.scope r.1, ρ.object r.2) := by
  induction n generalizing x with
  | zero => rfl
  | succ n ih =>
    simp only [Store.resolveWithin, h.find?, h.parent]
    cases (s.scope x).find? name with
    | some o => rfl
    | none =>
      cases (s.scope x).parent with
      | none => rfl
      | some p => exact ih p

/-- A name denotes the same object. -/
lemma Shifted.resolve? (h : s.Shifted ρ s') (hs : s.Ordered) (x : ScopeId) (name : String) :
    s'.resolve? (ρ.scope x) name =
      (s.resolve? x name).map fun r => (ρ.scope r.1, ρ.object r.2) := by
  have hsize := h.scopes_size
  unfold Store.resolve?
  rw [h.resolveWithin]
  rcases lt_or_ge x.index s.scopes.size with hlt | hge
  · rw [resolveWithin_eq hs.parent (by omega) hlt]
  · have hscope : s.scope x = default := by simp [Store.scope, Array.getElem?_eq_none hge]
    have hnone : ∀ n, s.resolveWithin name n x = none := by
      intro n
      cases n with
      | zero => rfl
      | succ n => simp [Store.resolveWithin, hscope, Scope.find?, default]
    rw [hnone, hnone]

end Store

/-! ## Comparisons and searches -/

variable {ρ : Renumbering} {s s' : Store} {t u x y : TypeId} {n : Nat}

namespace Renumbering

variable (ρ)

def pair (p : TypeId × TypeId) : TypeId × TypeId := (ρ.type p.1, ρ.type p.2)

/-- The answer of a comparison, with new numbers in the pairs met. -/
def answer (r : Bool × List (TypeId × TypeId)) : Bool × List (TypeId × TypeId) :=
  (r.1, r.2.map ρ.pair)

/-- What is compared of two types, with new numbers. -/
def part : Part → Part
  | .differ => .differ
  | .pair a b => .pair (ρ.type a) (ρ.type b)

variable {ρ}

lemma pair_inj : ρ.pair p = ρ.pair q ↔ p = q := by
  obtain ⟨a, b⟩ := p
  obtain ⟨c, d⟩ := q
  simp [pair]

lemma pair_mem_map {met : List (TypeId × TypeId)} : ρ.pair p ∈ met.map ρ.pair ↔ p ∈ met := by
  simp [pair_inj]

end Renumbering

/-- A comparison gives the same answer from the same pairs with new numbers. -/
def Compare.Renumbered (ρ : Renumbering) (c c' : Compare Bool) : Prop :=
  ∀ met, c'.run (met.map ρ.pair) = (c.run met).map ρ.answer

namespace Compare.Renumbered

variable {c c' : Compare Bool}

lemma pure (b : Bool) : Renumbered ρ (pure b) (pure b) := fun _ => rfl

lemma bind (hc : Renumbered ρ c c')
    (hk : ∀ b, Renumbered ρ (k b) (k' b)) : Renumbered ρ (c >>= k) (c' >>= k') := by
  intro met
  rw [StateT.run_bind, StateT.run_bind, hc met]
  cases c.run met with
  | none => rfl
  | some r => exact hk r.1 r.2

variable {as : List α} {f : α → α}

lemma anyM (hg : ∀ a ∈ as, Renumbered ρ (g a) (g' (f a))) :
    Renumbered ρ (as.anyM g) ((as.map f).anyM g') := by
  induction as with
  | nil => exact .pure false
  | cons a as ih =>
    rw [map_cons, List.anyM, List.anyM]
    refine (hg a (by simp)).bind fun b => ?_
    cases b with
    | true => exact .pure true
    | false => exact ih fun a ha => hg a (by simp [ha])

lemma allM (hg : ∀ a ∈ as, Renumbered ρ (g a) (g' (f a))) :
    Renumbered ρ (as.allM g) ((as.map f).allM g') := by
  simp only [allM_eq_not_anyM_not, map_eq_pure_bind]
  exact (anyM fun a ha => (hg a ha).bind fun _ => .pure _).bind fun _ => .pure _

lemma separately (hc : Renumbered ρ c c') : Renumbered ρ c.separately c'.separately := by
  intro met
  have hstart := hc []
  simp only [Compare.separately, StateT.run] at hstart ⊢
  rw [show List.map ρ.pair [] = [] from rfl] at hstart
  rw [hstart]
  cases c [] <;> rfl

end Compare.Renumbered

namespace Store.Shifted

section Identity

variable {f f' : TypeId → TypeId → Compare Bool} (h : s.Shifted ρ s')
include h

lemma objectParts (a b : ObjectId) :
    s'.objectParts (ρ.object a) (ρ.object b) = (s.objectParts a b).map ρ.part := by
  unfold Store.objectParts
  rw [h.objectType, h.objectType]
  cases (s.object a).type <;> cases (s.object b).type <;> rfl

lemma fieldParts (a b : ObjectId) :
    s'.fieldParts (ρ.object a) (ρ.object b) = (s.fieldParts a b).map ρ.part := by
  unfold Store.fieldParts Part.given
  rw [h.name, h.name, h.isEmbedded, h.isEmbedded, h.objectParts]
  split <;> rfl

/-- The parts of two types are compared in the same order. -/
lemma parts (a b : Ty) : s'.parts (ρ.ty a) (ρ.ty b) = (s.parts a b).map ρ.part := by
  have hgiven : ∀ p [Decidable p] ps,
      (Part.given p ps).map ρ.part = Part.given p (ps.map ρ.part) := by
    intro p _ ps
    unfold Part.given
    split <;> rfl
  cases a <;> cases b <;> try rfl
  case struct.struct as bs =>
    simp only [ty, Store.parts, hgiven, length_map, zipWith_map,
      map_flatten, map_zipWith, h.fieldParts]
  case tuple.tuple as bs =>
    simp only [ty, Store.parts, hgiven, length_map, zipWith_map,
      map_flatten, map_zipWith, h.objectParts]
  case basic.basic j k => exact (hgiven _ []).symm
  case array.array m a n b => exact (hgiven _ [.pair a b]).symm
  case signature.signature f g =>
    simp only [ty, Store.parts, hgiven, signature, length_map]
    rfl
  case chan.chan d a e b => exact (hgiven _ [.pair a b]).symm
  case named.named m n =>
    simp only [ty, Store.parts, hgiven, object_inj]
    rfl

variable (hf : ∀ a b, Renumbered ρ (f a b) (f' (ρ.type a) (ρ.type b)))
include hf

omit h in
lemma compareParts (ps : List Part) :
    Renumbered ρ (Store.compareParts f ps) (Store.compareParts f' (ps.map ρ.part)) := by
  refine .allM fun p _ => ?_
  cases p with
  | differ => exact .pure false
  | pair a b => exact hf a b

lemma compareMethods (a b : ObjectId) : Renumbered ρ (s.compareMethods f a b)
    (s'.compareMethods f' (ρ.object a) (ρ.object b)) := by
  unfold Store.compareMethods
  rw [h.name, h.name]
  split
  · rw [compareObjectTypes_eq, compareObjectTypes_eq, h.objectParts]
    exact compareParts hf _
  · exact .pure false

omit h in
lemma compareTerms (ts us : Option (List TypeId)) :
    Renumbered ρ (Store.compareTerms f ts us)
      (Store.compareTerms f' (ts.map (·.map ρ.type)) (us.map (·.map ρ.type))) := by
  cases ts with
  | none =>
    cases us with
    | none => exact .pure true
    | some _ => exact .pure false
  | some as =>
    cases us with
    | none => exact .pure false
    | some bs =>
      simp only [Store.compareTerms, map_some, length_map]
      split
      · exact .allM fun a _ => .anyM fun b _ => (hf a b).separately
      · exact .pure false

lemma compareInterfaces (i j : InterfaceType) : Renumbered ρ (s.compareInterfaces f x y i j)
      (s'.compareInterfaces f' (ρ.type x) (ρ.type y) (ρ.interface i) (ρ.interface j)) := by
  intro met
  have hmethods : Renumbered ρ
      (i.methods.allM fun a => j.methods.anyM fun c => s.compareMethods f a c)
      ((i.methods.map ρ.object).allM fun a =>
        (j.methods.map ρ.object).anyM fun c => s'.compareMethods f' a c) :=
    .allM fun a _ => .anyM fun c _ => h.compareMethods hf a c
  rw [run_compareInterfaces, run_compareInterfaces]
  simp only [interface, length_map]
  split
  · rw [compareTerms hf i.terms j.terms met]
    cases (Store.compareTerms f i.terms j.terms).run met with
    | none => rfl
    | some r =>
      obtain ⟨b, met₁⟩ := r
      have hmem : (ρ.type x, ρ.type y) ∈ met₁.map ρ.pair ↔ (x, y) ∈ met₁ :=
        pair_mem_map (p := (x, y))
      simp only [map_some, bind_some, answer]
      split
      · rfl
      · rw [if_congr hmem rfl rfl]
        split
        · rfl
        · exact hmethods ((x, y) :: met₁)
  · rfl

lemma identityStep (x y : TypeId) :
    Renumbered ρ (s.identityStep f x y) (s'.identityStep f' (ρ.type x) (ρ.type y)) := by
  by_cases hxy : x = y
  · rw [Store.identityStep, Store.identityStep, if_pos hxy, if_pos (by rw [hxy])]
    exact .pure true
  · have hxy' : ρ.type x ≠ ρ.type y := fun heq => hxy (type_inj.mp heq)
    rcases s.interfaces_or x y with ⟨i, j, hx, hy⟩ | hni
    · have hx' : s'.type (ρ.type x) = .interface (ρ.interface i) := by rw [h.type, hx]; rfl
      have hy' : s'.type (ρ.type y) = .interface (ρ.interface j) := by rw [h.type, hy]; rfl
      simp only [Store.identityStep, if_neg hxy, if_neg hxy', hx, hy, hx', hy']
      exact h.compareInterfaces hf i j
    · have hni' : ∀ i j, s'.type (ρ.type x) = .interface i → s'.type (ρ.type y) ≠ .interface j := by
        intro i j hx hy
        rw [h.type] at hx hy
        cases htx : s.type x <;> simp_all [ty]
        cases hty : s.type y <;> simp_all
      rw [identityStep_eq_compareParts hxy hni, identityStep_eq_compareParts hxy' hni', h.type,
        h.type, h.parts]
      exact compareParts hf _

end Identity

variable (h : s.Shifted ρ s')
include h

lemma identicalWithin (n : Nat) (x y : TypeId) : Renumbered ρ (s.identicalWithin n x y)
    (s'.identicalWithin n (ρ.type x) (ρ.type y)) := by
  induction n generalizing x y with
  | zero => exact fun _ => rfl
  | succ n ih => exact h.identityStep ih x y

lemma identical (x y : TypeId) : s'.identical (ρ.type x) (ρ.type y) = s.identical x y := by
  have hdepth : s.identityDepth ≤ s'.identityDepth := by
    have hpairs := Nat.succ_le_succ (Nat.mul_le_mul h.size_le h.size_le)
    exact Nat.mul_le_mul (Nat.mul_le_mul hpairs hpairs) hpairs
  have hrun := h.identicalWithin s'.identityDepth x y []
  rw [map_nil] at hrun
  unfold Store.identical Store.identical?
  rw [hrun, run_identicalWithin_eq hdepth]
  cases (s.identicalWithin s.identityDepth x y).run [] <;> rfl

lemma identicalOptional (x y : Option TypeId) :
    s'.identicalOptional (x.map ρ.type) (y.map ρ.type) = s.identicalOptional x y := by
  cases x <;> cases y
  · rfl
  · rfl
  · rfl
  · exact h.identical _ _

lemma dereference (t : TypeId) : s'.dereference (ρ.type t) =
    (ρ.type (s.dereference t).1, (s.dereference t).2) := by
  unfold Store.dereference
  rw [h.type]
  cases s.type t <;> rfl

lemma findNamed (name : String) (i : Nat) (os : List ObjectId) :
    s'.findNamed name i (os.map ρ.object) =
      (s.findNamed name i os).map fun e => (e.1, ρ.object e.2) := by
  induction os generalizing i with
  | nil => rfl
  | cons o os ih =>
    simp only [map_cons, Store.findNamed, h.name, ih]
    split <;> rfl

omit h in
lemma noteFound (c : Candidate) (i : Nat) (o : ObjectId) (st : LevelState) :
    Store.noteFound (ρ.candidate c) i (ρ.object o) (ρ.level st) =
      (Store.noteFound c i o st).map ρ.level := by
  simp only [Store.noteFound, candidate, level, isSome_map]
  split <;> rfl

lemma embeddedBy (c : Candidate) (i : Nat) (f : ObjectId) :
    s'.embeddedBy (ρ.candidate c) i (ρ.object f) = (s.embeddedBy c i f).map ρ.candidate := by
  unfold Store.embeddedBy
  rw [h.isEmbedded, h.objectType]
  cases (s.object f).isEmbedded <;> cases (s.object f).type with
  | none => rfl
  | some t =>
    simp only [map_some, h.dereference]
    rfl

lemma scanFields (name : String) (c : Candidate) (i : Nat) (fs : List ObjectId)
    (st : LevelState) : s'.scanFields name (ρ.candidate c) i (fs.map ρ.object) (ρ.level st) =
      (s.scanFields name c i fs st).map ρ.level := by
  induction fs generalizing i st with
  | nil => rfl
  | cons f fs ih =>
    simp only [map_cons, Store.scanFields, h.name]
    split
    · rw [noteFound]
      cases Store.noteFound c i f st with
      | error path => rfl
      | ok st' => exact ih (i + 1) st'
    · have hnext : { ρ.level st with
          next := if (ρ.level st).found.isSome then (ρ.level st).next
            else (ρ.level st).next ++ (s'.embeddedBy (ρ.candidate c) i (ρ.object f)).toList } =
          ρ.level { st with
            next := if st.found.isSome then st.next
              else st.next ++ (s.embeddedBy c i f).toList } := by
        simp only [level, isSome_map, h.embeddedBy]
        split
        · rfl
        · cases s.embeddedBy c i f <;> simp
      rw [hnext]
      exact ih (i + 1) _

variable (hs : s.Ordered)
include hs

lemma scanShape (name : String) (c : Candidate) (st : LevelState) :
    s'.scanShape name (ρ.candidate c) (ρ.level st) = (s.scanShape name c st).map ρ.level := by
  unfold Store.scanShape
  rw [show (ρ.candidate c).type = ρ.type c.type from rfl, h.shape hs]
  cases s.shape c.type with
  | struct fields => exact h.scanFields name c 0 fields st
  | interface i =>
    dsimp only [ty, interface]
    rw [h.findNamed]
    cases s.findNamed name 0 i.methods with
    | none => rfl
    | some e => exact noteFound c e.1 e.2 st
  | _ => rfl

lemma scanCandidate (name : String) (c : Candidate) (st : LevelState) :
    s'.scanCandidate name (ρ.candidate c) (ρ.level st) =
      (s.scanCandidate name c st).map ρ.level := by
  have hshape := h.scanShape hs name c
  unfold Store.scanCandidate
  rw [show (ρ.candidate c).type = ρ.type c.type from rfl, h.type]
  cases s.type c.type with
  | named m =>
    have hseen : (ρ.level st).seen.contains (ρ.type c.type) = st.seen.contains c.type := by
      rw [Bool.eq_iff_iff]
      simp [level]
    dsimp only [ty]
    rw [hseen, h.findNamed]
    split
    · rfl
    · cases s.findNamed name 0 m.methods with
      | none => exact hshape { st with seen := c.type :: st.seen }
      | some e => exact noteFound c e.1 e.2 { st with seen := c.type :: st.seen }
  | _ => exact hshape st

lemma scanLevel (name : String) (cs : List Candidate) (st : LevelState) :
    s'.scanLevel name (cs.map ρ.candidate) (ρ.level st) = (s.scanLevel name cs st).map ρ.level := by
  induction cs generalizing st with
  | nil => rfl
  | cons c cs ih =>
    simp only [map_cons, Store.scanLevel]
    rw [h.scanCandidate hs]
    cases s.scanCandidate name c st with
    | error path => rfl
    | ok st' => exact ih st'

omit h hs in
lemma hasCandidate (cs : List Candidate) (t : TypeId) :
    GoCheck.hasCandidate (cs.map ρ.candidate) (ρ.type t) = GoCheck.hasCandidate cs t := by
  simp only [GoCheck.hasCandidate, List.any_map, Function.comp_def, candidate, type_inj]

omit h hs in
lemma mergeCandidates (cs : List Candidate) : GoCheck.mergeCandidates (cs.map ρ.candidate) =
      (GoCheck.mergeCandidates cs).map ρ.candidate := by
  induction cs using List.reverseRecOn with
  | nil => rfl
  | append_singleton cs c ih =>
    rw [List.map_append, List.map_singleton, mergeCandidates_concat, mergeCandidates_concat, ih,
      show (ρ.candidate c).type = ρ.type c.type from rfl, hasCandidate]
    split
    · rw [List.map_map, List.map_map]
      refine List.map_congr_left fun d _ => ?_
      simp only [Function.comp_apply, candidate, type_inj]
      split <;> rfl
    · rw [List.map_append, List.map_singleton]

omit hs in
lemma selectionOf (addressable : Bool) (o : ObjectId) (path : List Nat) (indirect : Bool) :
    s'.selectionOf addressable (ρ.object o, path, indirect) =
      ρ.selection (s.selectionOf addressable (o, path, indirect)) := by
  simp only [Store.selectionOf, h.hasPointerReceiver]
  split <;> rfl

lemma searchLevels (addressable : Bool) (name : String) (n : Nat) (cs : List Candidate)
    (seen : List TypeId) :
    s'.searchLevels addressable name n (cs.map ρ.candidate) (seen.map ρ.type) =
      (s.searchLevels addressable name n cs seen).map ρ.selection := by
  induction n generalizing cs seen with
  | zero => cases cs <;> simp [Store.searchLevels, selection]
  | succ n ih =>
    cases cs with
    | nil => simp [Store.searchLevels, selection]
    | cons c cs =>
      have hscan := h.scanLevel hs name (c :: cs) ⟨[], none, seen⟩
      rw [map_cons, Store.searchLevels, Store.searchLevels]
      rw [map_cons] at hscan
      change s'.scanLevel name _ ⟨[], none, seen.map ρ.type⟩ = _ at hscan
      rw [hscan]
      cases s.scanLevel name (c :: cs) ⟨[], none, seen⟩ with
      | error path => rfl
      | ok st =>
        obtain ⟨next, found, seen'⟩ := st
        cases found with
        | some found => exact congrArg some (h.selectionOf addressable found.1 found.2.1 found.2.2)
        | none =>
          simp only [Except.map, level, map_none, mergeCandidates]
          exact ih _ _

lemma selectFrom? (t : TypeId) (addressable : Bool) (name : String) :
    s'.selectFrom? (ρ.type t) addressable name =
      (s.selectFrom? t addressable name).map ρ.selection := by
  have hbound : s.levelBound ≤ s'.levelBound :=
    Nat.succ_le_succ (Nat.mul_le_mul (Nat.succ_le_succ h.size_le) (Nat.succ_le_succ h.size_le))
  unfold Store.selectFrom?
  rw [h.dereference]
  dsimp only
  rw [h.isInterface hs]
  split
  · rfl
  · refine (h.searchLevels hs addressable name s'.levelBound [⟨_, [], _, false⟩] []).trans ?_
    rw [searchLevels_eq hbound]

omit hs in
lemma withoutMethods (r : Selection) :
    s'.withoutMethods (ρ.selection r) = ρ.selection (s.withoutMethods r) := by
  cases r with
  | entry o path indirect =>
    simp only [selection, Store.withoutMethods, h.isFunc]
    split <;> rfl
  | _ => rfl

lemma select? (t : TypeId) (addressable : Bool) (name : String) :
    s'.select? (ρ.type t) addressable name = (s.select? t addressable name).map ρ.selection := by
  unfold Store.select?
  split
  · rfl
  · rw [h.type]
    cases s.type t with
    | named m =>
      dsimp only [ty]
      rw [h.type]
      cases s.type m.underlying with
      | pointer base =>
        dsimp only [ty]
        rw [h.selectFrom? hs, Option.map_map, Option.map_map]
        exact congrArg (Option.map · _) (funext h.withoutMethods)
      | _ => exact h.selectFrom? hs t addressable name
    | _ => exact h.selectFrom? hs t addressable name

lemma select (t : TypeId) (addressable : Bool) (name : String) :
    s'.select (ρ.type t) addressable name = ρ.selection (s.select t addressable name) := by
  unfold Store.select
  rw [h.select? hs]
  cases s.select? t addressable name <;> rfl

omit hs in
lemma sameMethodType (a b : ObjectId) :
    s'.sameMethodType (ρ.object a) (ρ.object b) = s.sameMethodType a b := by
  unfold Store.sameMethodType
  rw [h.objectType, h.objectType, h.identicalOptional]

omit hs in
lemma lackingInInterface? (methods : List ObjectId) (static : Bool) (m : ObjectId) :
    s'.lackingInInterface? (methods.map ρ.object) static (ρ.object m) =
      (s.lackingInInterface? methods static m).map ρ.lacking := by
  have hfind : (methods.map ρ.object).find?
      (fun f => (s'.object f).name = (s'.object (ρ.object m)).name) =
      (methods.find? fun f => (s.object f).name = (s.object m).name).map ρ.object := by
    rw [find?_map]
    simp only [Function.comp_def, h.name]
  unfold Store.lackingInInterface?
  rw [hfind]
  cases methods.find? fun f => (s.object f).name = (s.object m).name with
  | none =>
    dsimp only [map_none]
    split <;> rfl
  | some f =>
    dsimp only [map_some]
    rw [h.sameMethodType]
    split <;> rfl

lemma lackingInType? (t : TypeId) (m : ObjectId) :
    s'.lackingInType? (ρ.type t) (ρ.object m) = (s.lackingInType? t m).map ρ.lacking := by
  unfold Store.lackingInType?
  rw [h.name, h.select hs]
  cases s.select t false (s.object m).name with
  | entry f path indirect =>
    dsimp only [selection]
    rw [h.isFunc, h.sameMethodType]
    split
    · split <;> rfl
    · rfl
  | _ => rfl

lemma lackingMethod? (t iface : TypeId) (static : Bool) :
    s'.lackingMethod? (ρ.type t) (ρ.type iface) static =
      (s.lackingMethod? t iface static).map ρ.lacking := by
  have hfirst : ∀ (g g' : ObjectId → Option Lacking), (∀ m, g' (ρ.object m) = (g m).map ρ.lacking) →
      ∀ ms : List ObjectId, (ms.map ρ.object).findSome? g' = (ms.findSome? g).map ρ.lacking := by
    intro g g' hg ms
    induction ms with
    | nil => rfl
    | cons m ms ih =>
      rw [map_cons, findSome?_cons, findSome?_cons, hg]
      cases g m with
      | none => exact ih
      | some _ => rfl
  unfold Store.lackingMethod?
  rw [h.shape hs, h.shape hs]
  cases s.shape iface with
  | interface i =>
    cases s.shape t with
    | interface found => exact hfirst _ _ (h.lackingInInterface? found.methods static) i.methods
    | _ => exact hfirst _ _ (h.lackingInType? hs t) i.methods
  | _ => rfl

lemma impossibleAssertion? (iface t : TypeId) : s'.impossibleAssertion? (ρ.type iface) (ρ.type t) =
      (s.impossibleAssertion? iface t).map ρ.lacking := by
  unfold Store.impossibleAssertion?
  rw [h.isInterface hs, h.lackingMethod? hs]
  split <;> rfl

lemma isFaulty (t : TypeId) : s'.isFaulty (ρ.type t) = s.isFaulty t := by
  unfold Store.isFaulty
  rw [h.isInvalid hs, h.shape hs, pointerBase?_ty]
  cases (s.shape t).pointerBase? with
  | none => rfl
  | some base => rw [map_some, any_some, any_some, h.isInvalid hs]

lemma unsatisfied? (v t : TypeId) :
    s'.unsatisfied? (ρ.type v) (ρ.type t) = (s.unsatisfied? v t).map ρ.unsatisfied := by
  unfold Store.unsatisfied?
  rw [h.isInvalid hs, h.isFaulty hs, h.shape hs]
  split
  · rfl
  · cases s.shape t with
    | interface i =>
      dsimp only [ty]
      rw [isEmpty_interface, h.lackingMethod? hs]
      simp only [interface, isSome_map]
      split
      · rfl
      · split
        · rfl
        · cases s.lackingMethod? v t true <;> rfl
    | _ => rfl

end Store.Shifted

end GoCheck
