import GoCheck.Proofs.Constants.Store
import GoCheck.Proofs.Identity.Decision
import GoCheck.Proofs.Selection.Agreement

/-!
# Questions about identical types

A type that is written twice is made twice. In a store whose entities are of their sorts, questions
about the form of a type have the same answer for identical types, and selectors lead through them
side by side. Only the position of a method in an interface may differ.
-/

namespace GoCheck

open Option BasicKind

namespace BasicKind

lemma family_resolveAlias (k : BasicKind) : k.resolveAlias.family = k.family := by
  cases k <;> rfl

lemma isUntyped_resolveAlias (k : BasicKind) : k.resolveAlias.isUntyped = k.isUntyped := by
  cases k <;> rfl

/-- Only the two aliases share a kind with another kind, and these are kinds of typed integers. -/
lemma eq_of_resolveAlias {j k : BasicKind} (h : j.resolveAlias = k.resolveAlias)
    (hk : k.isUntyped ∨ k.family = .invalid) : j = k := by
  have hself : ∀ i : BasicKind, i.isUntyped ∨ i.family = .invalid → i.resolveAlias = i := by
    intro i hi
    cases i with
    | byte | rune => simp [isUntyped, family] at hi
    | _ => rfl
  have hj : j.isUntyped ∨ j.family = .invalid := by
    rw [← isUntyped_resolveAlias, ← family_resolveAlias, h, isUntyped_resolveAlias,
      family_resolveAlias]
    exact hk
  rw [← hself j hj, ← hself k hk, h]

end BasicKind

namespace Object

/-- For a function, whether it needs a pointer to its receiver. -/
def receiver? (ob : Object) : Option Bool :=
  match ob.entity with
  | .func pointerReceiver => some pointerReceiver
  | _ => none

lemma isFunc_eq (ob : Object) : ob.isFunc = ob.receiver?.isSome := by
  unfold isFunc receiver?
  cases ob.entity <;> rfl

lemma hasPointerReceiver_eq (ob : Object) : ob.hasPointerReceiver = ob.receiver?.getD false := by
  unfold hasPointerReceiver receiver?
  rcases ob.entity with _ | _ | _ | (_ | _) | _ <;> rfl

end Object

section Optional

variable {o o' : Option α}

lemma optionRel_isSome (h : Rel R o o') : o'.isSome = o.isSome := by
  cases h <;> rfl

lemma optionRel_any (hp : ∀ a b, R a b → p b = p a) (h : Rel R o o') : o'.any p = o.any p := by
  cases h with
  | some hab => exact hp _ _ hab
  | none => rfl

end Optional

namespace Store

variable {s : Store} {y : TypeId} {a b : Ty} {i : InterfaceType}

/-- The same type, or identical parts in one form; unlike `SameForm` for type parameters too. -/
def Alike (s : Store) (a b : Ty) : Prop := a = b ∨ s.SameForm s.Identical a b

lemma Identical.alike (h : s.Identical x y) : s.Alike (s.type x) (s.type y) :=
  h.rule.imp_left (congrArg s.type)

lemma typesRelated_refl (o : ObjectId) : s.TypesRelated s.Identical o o := by
  unfold TypesRelated
  cases (s.object o).type with
  | none => exact .none
  | some t => exact .some (.refl t)

lemma sameForm_refl (ha : a.typeParam? = none) : s.SameForm s.Identical a a := by
  have hmatched : ∀ {α} {P : α → α → Prop} (as : List α), (∀ a, P a a) → Matched P as as :=
    fun as hP => ⟨rfl, fun a ha => ⟨a, ha, hP a⟩, fun a ha => ⟨a, ha, hP a⟩⟩
  cases a with
  | basic k => exact .basic rfl
  | array n t => exact .array (.refl t)
  | slice t => exact .slice (.refl t)
  | struct fields =>
    exact .struct (List.forall₂_same.mpr fun f _ => ⟨rfl, rfl, typesRelated_refl f⟩)
  | pointer t => exact .pointer (.refl t)
  | tuple vars => exact .tuple (List.forall₂_same.mpr fun v _ => typesRelated_refl v)
  | signature f => exact .signature rfl rfl (.refl _) (.refl _)
  | interface i =>
    refine .interface (hmatched _ fun m => ⟨rfl, typesRelated_refl m⟩) ?_
    cases i.terms with
    | none => exact .none
    | some ts => exact .some (hmatched ts .refl)
  | map k t => exact .map (.refl k) (.refl t)
  | chan d t => exact .chan (.refl t)
  | named n => exact .named rfl
  | typeParam p => cases ha

namespace Alike

variable (h : s.Alike a b)
include h

lemma sameForm (ha : a.typeParam? = none) : s.SameForm s.Identical a b := by
  rcases h with rfl | h
  · exact sameForm_refl ha
  · exact h

lemma isNamed_eq : b.isNamed = a.isNamed := by
  rcases h with rfl | h
  · rfl
  · cases h <;> rfl

lemma typeParam?_eq : b.typeParam? = a.typeParam? := by
  rcases h with rfl | h
  · rfl
  · cases h <;> rfl

lemma beneath?_eq_none (ha : a.beneath? = none) : b.beneath? = none := by
  rcases h with rfl | h
  · exact ha
  · cases h with
    | named _ => cases ha
    | _ => rfl

lemma map_basic?_eq (hf : ∀ k, f k.resolveAlias = f k) : b.basic?.map f = a.basic?.map f := by
  rcases h with rfl | h
  · rfl
  · cases h with
    | @basic j k hjk =>
      have hkind : f k = f j := by rw [← hf k, ← hjk, hf j]
      exact congrArg some hkind
    | _ => rfl

lemma isUntyped_eq : b.basic?.any (·.isUntyped) = a.basic?.any (·.isUntyped) := by
  simpa [any_map] using congrArg (·.any id) (h.map_basic?_eq isUntyped_resolveAlias)

lemma family_eq : b.basic?.map (·.family) = a.basic?.map (·.family) :=
  h.map_basic?_eq family_resolveAlias

lemma isSome_interface?_eq : b.interface?.isSome = a.interface?.isSome := by
  rcases h with rfl | h
  · rfl
  · cases h <;> rfl

lemma pointerBase? : Rel s.Identical a.pointerBase? b.pointerBase? := by
  cases ha : a.typeParam? with
  | none =>
    cases h.sameForm ha with
    | pointer hbase => exact .some hbase
    | _ => exact .none
  | some p =>
    rcases h with rfl | h
    · cases a <;> cases ha
      exact .none
    · cases h <;> cases ha

omit h in
lemma exists_struct (h : s.Alike (.struct fields) b) :
    ∃ fields', b = .struct fields' ∧ List.Forall₂ (s.FieldsRelated s.Identical) fields fields' := by
  cases h.sameForm rfl with
  | struct hfields => exact ⟨_, rfl, hfields⟩

omit h in
lemma exists_interface (h : s.Alike (.interface i) b) :
    ∃ j, b = .interface j ∧ Matched (s.MethodsRelated s.Identical) i.methods j.methods ∧
      j.terms.isSome = i.terms.isSome := by
  cases h.sameForm rfl with
  | interface hmethods hterms => exact ⟨_, rfl, hmethods, optionRel_isSome hterms⟩

omit h in
lemma isEmpty_eq (h : s.Alike (.interface i) (.interface j)) : j.isEmpty = i.isEmpty := by
  cases h.sameForm rfl with
  | interface hmethods hterms =>
    have hlen := hmethods.1
    have hnone : j.terms.isNone = i.terms.isNone := by
      rw [← not_isSome, ← not_isSome, optionRel_isSome hterms]
    have hmethods : j.methods.isEmpty = i.methods.isEmpty := by
      cases hi : i.methods <;> cases hj : j.methods <;> simp_all
    rw [InterfaceType.isEmpty, InterfaceType.isEmpty, hmethods, hnone]

omit h in
lemma exists_chan (h : s.Alike (.chan d t) b) : ∃ u, b = .chan d u ∧ s.Identical t u := by
  cases h.sameForm rfl with
  | chan helem => exact ⟨_, rfl, helem⟩

omit h in
lemma exists_basic (h : s.Alike (.basic k) b) :
    ∃ j, b = .basic j ∧ k.resolveAlias = j.resolveAlias := by
  cases h.sameForm rfl with
  | basic hjk => exact ⟨_, rfl, hjk⟩

end Alike

/-- Whether fields are no functions, and methods of interfaces functions that need no pointer. -/
def fills (s : Store) : Ty → Bool
  | .struct fields => fields.all fun f => (s.object f).receiver? = none
  | .interface i => i.methods.all fun m => (s.object m).receiver? = some false
  | _ => true

/-- Identity does not look at the numbers of basic types, at definitions or at the sorts of fields. If
these differed, other questions would tell identical types apart. -/
structure WellSorted (s : Store) : Prop where
  /-- The first type is the invalid one. -/
  invalid : s.type .invalid = .basic .invalid
  /-- A basic type is made once. -/
  basic : ∀ t k, t.index < s.types.size → s.type t = .basic k → t = .basic k
  /-- A type name stands for one defined type. -/
  named : ∀ t u m n, s.type t = .named m → s.type u = .named n → m.object = n.object → t = u
  fills : ∀ t, s.fills (s.type t) = true

lemma Identical.eq_of_isTypeParam (h : s.Identical x y) (hx : s.isTypeParam x) : x = y := by
  rcases h.rule with heq | hform
  · exact heq
  · unfold isTypeParam at hx
    cases hxt : s.type x with
    | typeParam p =>
      rw [hxt] at hform
      cases hform
    | _ =>
      rw [hxt] at hx
      cases hx

lemma Identical.isNamed_eq (h : s.Identical x y) : s.isNamed y = s.isNamed x := h.alike.isNamed_eq

lemma Identical.isTypeParam_eq (h : s.Identical x y) : s.isTypeParam y = s.isTypeParam x :=
  congrArg isSome h.alike.typeParam?_eq

lemma Identical.isUntyped_eq (h : s.Identical x y) : s.isUntyped y = s.isUntyped x :=
  h.alike.isUntyped_eq

namespace WellSorted

variable (hs : s.WellSorted)
include hs

lemma receiver_field (h : s.type t = .struct fields) (hf : f ∈ fields) :
    (s.object f).receiver? = none := by
  have hall := hs.fills t
  rw [h] at hall
  simpa using List.all_eq_true.mp hall f hf

lemma receiver_method (h : s.type t = .interface i) (hm : m ∈ i.methods) :
    (s.object m).receiver? = some false := by
  have hall := hs.fills t
  rw [h] at hall
  simpa using List.all_eq_true.mp hall m hm

lemma type_eq_of_named (h : s.Identical x y) (hx : s.type x = .named n) : s.type y = .named n := by
  rcases h.rule with rfl | hform
  · exact hx
  · cases hy : s.type y with
    | named n' =>
      rw [hx, hy] at hform
      cases hform with
      | named hobject =>
        obtain rfl := hs.named x y n n' hx hy hobject
        exact hy.symm.trans hx
    | _ =>
      rw [hx, hy] at hform
      cases hform

/-- Identical types stand on identical types. -/
lemma underlying_identical (h : s.Identical x y) :
    s.Identical (s.underlying x) (s.underlying y) := by
  cases hx : (s.type x).beneath? with
  | none =>
    have hy := h.alike.beneath?_eq_none hx
    rw [underlying, underlying, underlyingWithin_of_beneath_none hx,
      underlyingWithin_of_beneath_none hy]
    exact h
  | some u =>
    -- of the types that stand on another one, only defined types are identical to others
    have hy : (s.type y).beneath? = some u := by
      rcases h.rule with rfl | hform
      · exact hx
      · cases hxt : s.type x with
        | named n =>
          rw [hs.type_eq_of_named h hxt, ← hxt]
          exact hx
        | typeParam p =>
          rw [hxt] at hform
          cases hform
        | _ =>
          rw [hxt] at hx
          cases hx
    rw [underlying_eq_of_beneath hx hy]
    exact .refl _

lemma alike_shape (h : s.Identical x y) : s.Alike (s.shape x) (s.shape y) :=
  (hs.underlying_identical h).alike

lemma family?_eq (h : s.Identical x y) : s.family? y = s.family? x := (hs.alike_shape h).family_eq

lemma isInvalid_eq (h : s.Identical x y) : s.isInvalid y = s.isInvalid x := by
  rw [isInvalid, isInvalid, hs.family?_eq h]

lemma isInterface_eq (h : s.Identical x y) : s.isInterface y = s.isInterface x :=
  (hs.alike_shape h).isSome_interface?_eq

lemma isPlainInterface_eq (h : s.Identical x y) : s.isPlainInterface y = s.isPlainInterface x := by
  rw [isPlainInterface, isPlainInterface, h.isTypeParam_eq, hs.isInterface_eq h]

lemma isInterfacePointer_eq (h : s.Identical x y) :
    s.isInterfacePointer y = s.isInterfacePointer x :=
  optionRel_any (fun _ _ => hs.isInterface_eq) h.alike.pointerBase?

/-- No untyped type is made a second time. -/
lemma eq_of_alias (hx : s.isUntyped x) (h : ∀ k, s.type x = .basic k →
      ∃ j, s.type y = .basic j ∧ j.resolveAlias = k.resolveAlias) : x = y := by
  obtain ⟨k, hk, huntyped⟩ := isUntyped_iff.mp hx
  obtain ⟨j, hj, hjk⟩ := h k hk
  obtain rfl : j = k := eq_of_resolveAlias hjk (.inl huntyped)
  -- untyped kinds are not the kind of numbers without a type, so both are in the store
  have hne : j ≠ .invalid := by
    rintro rfl
    cases huntyped
  have hlt : ∀ {t}, s.type t = .basic j → t.index < s.types.size :=
    fun ht => lt_size_of_basic (by rw [ht]; rfl) hne
  rw [hs.basic x j (hlt hk) hk, hs.basic y j (hlt hj) hj]

lemma eq_of_isUntyped (h : s.Identical x y) (hx : s.isUntyped x) : x = y := by
  refine hs.eq_of_alias hx fun k hk => ?_
  have halike := h.alike
  rw [hk] at halike
  obtain ⟨j, hj, hjk⟩ := halike.exists_basic
  exact ⟨j, hj, hjk.symm⟩

lemma eq_invalid (h : s.Identical x y) (hx : x = .invalid) (hy : y.index < s.types.size) :
    y = .invalid := by
  subst hx
  have halike := h.alike
  rw [hs.invalid] at halike
  obtain ⟨j, hj, hjk⟩ := halike.exists_basic
  obtain rfl : j = .invalid := eq_of_resolveAlias hjk.symm (.inr rfl)
  exact hs.basic y _ hy hj

lemma hasNil_eq (h : s.Identical x y) : s.hasNil y = s.hasNil x := by
  by_cases hparam : s.isTypeParam x
  · rw [h.eq_of_isTypeParam hparam]
  · have hparam' : ¬ s.isTypeParam y := by rwa [h.isTypeParam_eq]
    have halike := hs.alike_shape h
    simp only [hasNil, hasNilWithin, hasNilStep, if_neg hparam, if_neg hparam']
    generalize s.shape x = a at halike
    generalize s.shape y = b at halike
    rcases halike with rfl | hform
    · rfl
    · cases hform <;> rfl

end WellSorted

end Store

end GoCheck

/-! ## Selectors -/

namespace GoCheck

open List

variable {os : List ObjectId}

/-- What is related to an entry of a list stands at the same position. -/
lemma forall₂_getElem? {i : Nat}
    (h : Forall₂ R as bs) (ha : as[i]? = some a) : ∃ b, bs[i]? = some b ∧ R a b := by
  induction h generalizing i with
  | nil => cases ha
  | cons hab _ ih =>
    cases i with
    | zero =>
      cases ha
      exact ⟨_, rfl, hab⟩
    | succ i => exact ih ha

lemma optionRel_some {o : Option α} (h : Option.Rel R (some a) o) : ∃ b, o = some b ∧ R a b := by
  cases h with
  | some hab => exact ⟨_, rfl, hab⟩

namespace Store

variable {s : Store}

/-- Two fields, or two methods, that are called in the same way and have identical types. -/
structure EntriesRelated (s : Store) (o o' : ObjectId) : Prop where
  receiver : (s.object o').receiver? = (s.object o).receiver?
  types : s.TypesRelated s.Identical o o'

lemma EntriesRelated.refl (o : ObjectId) : s.EntriesRelated o o :=
  ⟨rfl, typesRelated_refl o⟩

/-- Where names are distinct, the only object of a name is the first one. -/
lemma exists_firstNamed (hnames : (os.map fun m => (s.object m).name).Nodup)
    (ho : o ∈ os) (hname : (s.object o).name = name) : ∃ i, s.FirstNamed name os i o := by
  obtain ⟨i, hi⟩ := List.getElem?_of_mem ho
  refine ⟨i, hi, hname, ?_⟩
  intro j hj o' ho' hname'
  have hlt : i < os.length := (List.getElem?_eq_some_iff.mp hi).1
  have heq : (os.map fun m => (s.object m).name)[j]? = (os.map fun m => (s.object m).name)[i]? := by
    simp [hi, ho', hname, hname']
  have := (List.getElem?_inj (by simpa using hj.trans hlt) hnames).mp heq
  omega

lemma FirstNamed.mem (h : s.FirstNamed name os i o) : o ∈ os :=
  mem_of_getElem? h.1

/-- Pointers to identical types, or identical types that are no pointers. -/
lemma dereference_identical (h : s.Identical t t') (hd : s.dereference t = (u, p)) :
    ∃ u', s.dereference t' = (u', p) ∧ s.Identical u u' := by
  have heq : ∀ t, s.dereference t =
      ((s.type t).pointerBase?.getD t, (s.type t).pointerBase?.isSome) := by
    intro t
    unfold dereference
    cases s.type t <;> rfl
  have hbase := h.alike.pointerBase?
  rw [heq] at hd ⊢
  cases hd
  refine ⟨_, congrArg (Prod.mk _) (optionRel_isSome hbase), ?_⟩
  generalize (s.type t).pointerBase? = a at hbase
  generalize (s.type t').pointerBase? = a' at hbase
  cases hbase with
  | some hab => exact hab
  | none => exact h

section WellSorted

variable (hs : s.WellSorted)
include hs

lemma Embeds.transfer (he : s.Embeds u i p w) (h : s.Identical u u') :
    ∃ w', s.Embeds u' i p w' ∧ s.Identical w w' := by
  obtain ⟨fields, f, ft, hshape, hf, hembedded, hft, hd⟩ := he
  have halike := hs.alike_shape h
  rw [hshape] at halike
  obtain ⟨fields', hshape', hfields⟩ := halike.exists_struct
  obtain ⟨f', hf', -, hembedded', htypes⟩ := forall₂_getElem? hfields hf
  rw [TypesRelated, hft] at htypes
  obtain ⟨ft', hft', hident⟩ := optionRel_some htypes
  obtain ⟨w', hd', hw⟩ := dereference_identical hident hd
  exact ⟨w', ⟨fields', f', ft', hshape', hf', hembedded' ▸ hembedded, hft', hd'⟩, hw⟩

lemma Leads.transfer (hl : s.Leads u path b w) (h : s.Identical u u') :
    ∃ w', s.Leads u' path b w' ∧ s.Identical w w' := by
  induction hl with
  | start => exact ⟨u', .start, h⟩
  | embed _ he ih =>
    obtain ⟨v', hl', hv⟩ := ih
    obtain ⟨w', he', hw⟩ := he.transfer hs hv
    exact ⟨w', hl'.embed he', hw⟩

lemma LacksMethod.transfer (hl : s.LacksMethod name w) (h : s.Identical w w') :
    s.LacksMethod name w' :=
  fun n hn => hl n (hs.type_eq_of_named h.symm hn)

/-- A field of a name stands in all identical types at the same position. -/
lemma Owns.transfer_field (hl : s.LacksMethod name w)
    (hshape : s.shape w = .struct fields) (hf : fields[i]? = some o)
    (hname : (s.object o).name = name) (h : s.Identical w w') :
    ∃ o', s.Owns name w' i o' ∧ s.EntriesRelated o o' := by
  have halike := hs.alike_shape h
  rw [hshape] at halike
  obtain ⟨fields', hshape', hfields⟩ := halike.exists_struct
  obtain ⟨f', hf', hname', -, htypes⟩ := forall₂_getElem? hfields hf
  refine ⟨f', .field (hl.transfer hs h) hshape' hf' (hname' ▸ hname), ?_, htypes⟩
  rw [hs.receiver_field hshape (mem_of_getElem? hf), hs.receiver_field hshape' (mem_of_getElem? hf')]

/-- A name stands for a field or method of the same sort in all identical types. -/
lemma Owns.transfer (hnames : s.NamesDistinct) (ho : s.Owns name w i o) (h : s.Identical w w') :
    ∃ i' o', s.Owns name w' i' o' ∧ s.EntriesRelated o o' := by
  cases ho with
  | method ht hf => exact ⟨i, o, .method (hs.type_eq_of_named h ht) hf, .refl o⟩
  | field hl hshape hf hname =>
    obtain ⟨o', ho', hrel⟩ := Owns.transfer_field hs hl hshape hf hname h
    exact ⟨i, o', ho', hrel⟩
  | @interfaceMethod iface _ _ hl hshape hf =>
    have halike := hs.alike_shape h
    rw [hshape] at halike
    obtain ⟨iface', hshape', ⟨-, hmatch, -⟩, -⟩ := halike.exists_interface
    obtain ⟨m', hm', hname', htypes⟩ := hmatch o hf.mem
    -- the other interface may list its methods in another order
    obtain ⟨i', hf'⟩ := exists_firstNamed (hnames _ _ hshape') hm' (hname' ▸ hf.2.1)
    refine ⟨i', m', .interfaceMethod (hl.transfer hs h) hshape' hf', ?_, htypes⟩
    rw [hs.receiver_method hshape hf.mem, hs.receiver_method hshape' hm']

omit hs in
/-- A type has several fields or methods of a name only as fields of a struct. -/
lemma Owns.eq_or_struct (ho : s.Owns name w i o) (ho' : s.Owns name w j o') :
    i = j ∨ ∃ fields, s.LacksMethod name w ∧ s.shape w = .struct fields ∧
      fields[i]? = some o ∧ (s.object o).name = name ∧
      fields[j]? = some o' ∧ (s.object o').name = name := by
  cases ho with
  | method ht hf =>
    cases ho' with
    | method ht' hf' =>
      cases ht.symm.trans ht'
      exact .inl (hf.unique hf').1
    | field hl _ _ _ | interfaceMethod hl _ _ => exact absurd hl (hf.not_lacksMethod ht)
  | field hl hshape hf hname =>
    cases ho' with
    | method ht' hf' => exact absurd hl (hf'.not_lacksMethod ht')
    | field _ hshape' hf' hname' =>
      cases hshape.symm.trans hshape'
      exact .inr ⟨_, hl, hshape, hf, hname, hf', hname'⟩
    | interfaceMethod _ hshape' _ => simp [hshape] at hshape'
  | interfaceMethod hl hshape hf =>
    cases ho' with
    | method ht' hf' => exact absurd hl (hf'.not_lacksMethod ht')
    | field _ hshape' _ _ => simp [hshape] at hshape'
    | interfaceMethod _ hshape' hf' =>
      cases hshape.symm.trans hshape'
      exact .inl (hf.unique hf').1

lemma Owns.eq_of_once (honce : ∀ i j o o', s.Owns name w i o → s.Owns name w j o' → i = j)
    (h : s.Identical w w') (ho : s.Owns name w' i o) (ho' : s.Owns name w' j o') : i = j := by
  rcases ho.eq_or_struct ho' with heq | ⟨fields, hl, hshape, hf, hname, hf', hname'⟩
  · exact heq
  · obtain ⟨_, hw, -⟩ := Owns.transfer_field hs hl hshape hf hname h.symm
    obtain ⟨_, hw', -⟩ := Owns.transfer_field hs hl hshape hf' hname' h.symm
    exact honce _ _ _ _ hw hw'

end WellSorted

lemma selects_concat_iff :
    s.Selects t name (path ++ [i]) o b ↔ ∃ u p b' w, s.dereference t = (u, p) ∧
      ¬ (p ∧ s.isInterface u) ∧ s.Leads u path b' w ∧ s.Owns name w i o ∧
      b = (p || b') := by
  constructor
  · intro h
    generalize hq : path ++ [i] = q at h
    cases h with
    | intro hd hi hl ho =>
      obtain ⟨rfl, hlast⟩ := append_inj' hq rfl
      obtain rfl := singleton_inj.mp hlast
      exact ⟨_, _, _, _, hd, hi, hl, ho, rfl⟩
  · rintro ⟨u, p, b', w, hd, hi, hl, ho, rfl⟩
    exact .intro hd hi hl ho

lemma Selects.exists_concat (h : s.Selects t name path o b) : ∃ q i, path = q ++ [i] := by
  cases h with
  | intro _ _ _ _ => exact ⟨_, _, rfl⟩

section WellSorted

variable (hs : s.WellSorted) (hnames : s.NamesDistinct) (h : s.Identical t t')
include hs hnames h

lemma Selects.transfer (hsel : s.Selects t name (path ++ [i]) o b) :
    ∃ i' o', s.Selects t' name (path ++ [i']) o' b ∧ s.EntriesRelated o o' := by
  obtain ⟨u, p, b', w, hd, hi, hl, ho, rfl⟩ := selects_concat_iff.mp hsel
  obtain ⟨u', hd', hu⟩ := dereference_identical h hd
  obtain ⟨w', hl', hw⟩ := hl.transfer hs hu
  obtain ⟨i', o', ho', hrel⟩ := ho.transfer hs hnames hw
  have hi' : ¬ (p ∧ s.isInterface u') := by rwa [hs.isInterface_eq hu]
  exact ⟨i', o', .intro hd' hi' hl' ho', hrel⟩

lemma SelectsFirst.transfer (hsel : s.SelectsFirst t name (path ++ [i]) o b) :
    ∃ i' o', s.SelectsFirst t' name (path ++ [i']) o' b ∧ s.EntriesRelated o o' := by
  obtain ⟨i', o', hsel', hrel⟩ := hsel.1.transfer hs hnames h
  refine ⟨i', o', ⟨hsel', ?_⟩, hrel⟩
  intro path' o₂ b₂ hother
  obtain ⟨q, j, rfl⟩ := hother.exists_concat
  obtain ⟨j', _, hback, -⟩ := hother.transfer hs hnames h.symm
  simpa using hsel.2 _ _ _ hback

/-- The only path to a name has its only counterpart from an identical type. -/
lemma SelectsOnly.transfer (hsel : s.SelectsOnly t name path o b) :
    ∃ path' o', s.SelectsOnly t' name path' o' b ∧ s.EntriesRelated o o' := by
  obtain ⟨q, i, rfl⟩ := hsel.1.1.exists_concat
  obtain ⟨i', o', hfirst, hrel⟩ := hsel.1.transfer hs hnames h
  refine ⟨q ++ [i'], o', ⟨hfirst, ?_⟩, hrel⟩
  intro path₂ o₂ b₂ hother
  obtain ⟨q₂, j, rfl⟩ := hother.1.exists_concat
  -- another path goes back along the same fields, so it ends at the same type
  obtain ⟨j', _, hback, -⟩ := hother.transfer hs hnames h.symm
  obtain ⟨rfl, -⟩ := append_inj' (hsel.2 _ _ _ hback) rfl
  obtain ⟨u, p, _, w, hd, hi, hl, -, -⟩ := selects_concat_iff.mp hsel.1.1
  obtain ⟨u', _, _, w', hd', -, hl', ho', -⟩ := selects_concat_iff.mp hfirst.1
  obtain ⟨u₂, _, _, w₂, hd₂, -, hl₂, ho₂, -⟩ := selects_concat_iff.mp hother.1
  cases hd'.symm.trans hd₂
  obtain ⟨-, rfl⟩ := hl'.unique hl₂
  have hw : s.Identical w w' := by
    obtain ⟨u₁, hd₁, hu⟩ := dereference_identical h hd
    cases hd'.symm.trans hd₁
    obtain ⟨w₁, hl₁, hw⟩ := hl.transfer hs hu
    obtain ⟨-, rfl⟩ := hl'.unique hl₁
    exact hw
  have honce : ∀ i₁ j₁ o₁ o₁', s.Owns name w i₁ o₁ → s.Owns name w j₁ o₁' → i₁ = j₁ := by
    have hlast : ∀ {i₁ o₁}, s.Owns name w i₁ o₁ → i₁ = i := by
      intro i₁ o₁ ho₁
      have hsel₁ : s.Selects t name (q₂ ++ [i₁]) o₁ _ := .intro hd hi hl ho₁
      have hfirst₁ : s.SelectsFirst t name (q₂ ++ [i₁]) o₁ _ :=
        ⟨hsel₁, fun path' o' b' hp => by simpa using hsel.1.2 path' o' b' hp⟩
      simpa using hsel.2 _ _ _ hfirst₁
    intro i₁ j₁ o₁ o₁' hi₁ hj₁
    rw [hlast hi₁, hlast hj₁]
  rw [Owns.eq_of_once hs honce hw ho₂ ho']

end WellSorted

/-- A type that is no interface has a method under a name. -/
def Lends (s : Store) (t : TypeId) (name : String) (f : ObjectId) : Prop :=
  ∃ path b, s.select t false name = .entry f path b ∧ (s.object f).isFunc = true

lemma lends_iff (hends : (s.select? t false name).isSome) :
    s.Lends t name o ↔ name ≠ "_" ∧ s.definedPointer? t = none ∧ (s.object o).isFunc ∧
      ∃ path b, s.SelectsOnly t name path o b ∧
        ¬ ((s.object o).hasPointerReceiver ∧ b = false) := by
  by_cases hname : name = "_"
  · simp [Lends, select, select?, hname]
  · obtain ⟨r, hr⟩ := Option.isSome_iff_exists.mp hends
    have hselect : s.select t false name = r := by rw [select, hr, Option.getD_some]
    rw [select?_eq hname] at hr
    cases hpointer : s.definedPointer? t with
    | none =>
      have hanswer := answers_of_selectFrom? (by simpa [hpointer] using hr)
      simp only [Lends, hselect, hanswer.eq_entry_iff, ne_eq, hname, not_false_eq_true, true_and,
        and_true]
      constructor
      · rintro ⟨path, b, hentry, hfunc⟩
        exact ⟨hfunc, path, b, hentry⟩
      · rintro ⟨hfunc, path, b, hentry⟩
        exact ⟨path, b, hentry, hfunc⟩
    | some u =>
      -- a defined pointer type has no methods
      simp only [reduceCtorEq, false_and, and_false, iff_false]
      rintro ⟨path, b, hentry, hfunc⟩
      rw [hpointer] at hr
      obtain ⟨r', -, rfl⟩ := Option.map_eq_some_iff.mp hr
      exact (withoutMethods_eq_entry_iff.mp (hselect.symm.trans hentry)).2 hfunc

lemma definedPointer?_eq_none (hs : s.WellSorted) (h : s.Identical t t')
    (ht : s.definedPointer? t = none) : s.definedPointer? t' = none := by
  cases hn : s.type t' with
  | named n =>
    have heq : s.type t = .named n := hs.type_eq_of_named h.symm hn
    unfold definedPointer? at ht ⊢
    rwa [hn, ← heq]
  | _ => simp [definedPointer?, hn]

lemma Lends.transfer (hs : s.WellSorted) (hnames : s.NamesDistinct)
    (hends : ∀ t name, (s.select? t false name).isSome) (h : s.Identical t t')
    (hlends : s.Lends t name o) : ∃ o', s.Lends t' name o' ∧ s.TypesRelated s.Identical o o' := by
  obtain ⟨hname, hpointer, hfunc, path, b, hsel, hreceiver⟩ := (lends_iff (hends t name)).mp hlends
  obtain ⟨path', o', hsel', hrel⟩ := hsel.transfer hs hnames h
  refine ⟨o', (lends_iff (hends t' name)).mpr ⟨hname, ?_, ?_, path', b, hsel', ?_⟩, hrel.types⟩
  · exact definedPointer?_eq_none hs h hpointer
  · rwa [Object.isFunc_eq, hrel.receiver, ← Object.isFunc_eq]
  · rwa [Object.hasPointerReceiver_eq, hrel.receiver, ← Object.hasPointerReceiver_eq]

end Store

end GoCheck
