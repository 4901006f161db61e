import GoCheck.Type.Query
import Mathlib.Data.Finset.Card

/-!
# How far references lead

A store is finite, so a search that follows references between its types ends unless it goes in a
circle. The number of types that lie ahead of a type measures how far it can still go.
-/

namespace GoCheck

open Finset Relation

namespace Store

variable {s : Store} {t : TypeId}

lemma type_of_size_le (h : s.types.size ≤ t.index) : s.type t = .basic .invalid := by
  simp [type, h]
  rfl

lemma object_of_size_le (h : s.objects.size ≤ o.index) : s.object o = default := by
  simp [object, Array.getElem?_eq_none h]

lemma scope_of_size_le (h : s.scopes.size ≤ x.index) : s.scope x = default := by
  simp [scope, Array.getElem?_eq_none h]

lemma lt_size_of_type_ne (h : s.type t ≠ .basic .invalid) : t.index < s.types.size := by
  by_contra hle
  exact h (type_of_size_le (by omega))

/-- Fewer members of a finite set have a property if one of them has lost it. -/
lemma card_filter_lt {U : Finset ι} {p q : ι → Prop} [DecidablePred p]
    [DecidablePred q] {i : ι} (h : ∀ j, q j → p j) (hi : i ∈ U) (hp : p i) (hq : ¬q i) :
    (U.filter q).card < (U.filter p).card := by
  refine card_lt_card ⟨monotone_filter_right U fun j _ => h j, fun hsub => hq ?_⟩
  exact (mem_filter.mp (hsub (mem_filter.mpr ⟨hi, hp⟩))).2

open Classical in
/-- The types of a store that a relation leads to, the start included. -/
noncomputable def reach (s : Store) (r : TypeId → TypeId → Prop) (t : TypeId) : Finset Nat :=
  (range s.types.size).filter fun i => ReflTransGen r t ⟨i⟩

lemma mem_reach : i ∈ s.reach r t ↔ i < s.types.size ∧ ReflTransGen r t ⟨i⟩ := by
  classical simp [reach]

/-- How many types a relation leads to. -/
noncomputable def rank (s : Store) (r : TypeId → TypeId → Prop) (t : TypeId) : Nat :=
  (s.reach r t).card

lemma rank_le_size (s : Store) (r : TypeId → TypeId → Prop) (t : TypeId) :
    s.rank r t ≤ s.types.size := by
  have hsub : s.reach r t ⊆ range s.types.size :=
    fun i hi => mem_range.mpr (mem_reach.mp hi).1
  exact (card_le_card hsub).trans_eq (card_range _)

lemma reach_mono (h : r t u) : s.reach r u ⊆ s.reach r t := by
  intro i hi
  obtain ⟨hlt, hreach⟩ := mem_reach.mp hi
  exact mem_reach.mpr ⟨hlt, .head h hreach⟩

lemma rank_mono (h : r t u) : s.rank r u ≤ s.rank r t := card_le_card (reach_mono h)

lemma rank_lt (h : r t u) (ht : t.index < s.types.size)
    (hback : ¬ ReflTransGen r u t) : s.rank r u < s.rank r t := by
  refine card_lt_card ⟨reach_mono h, fun hsub => ?_⟩
  have htt : t.index ∈ s.reach r t := mem_reach.mpr ⟨ht, .refl⟩
  exact hback (mem_reach.mp (hsub htt)).2

/-- A number that gets smaller along a relation rules out circles. -/
lemma not_transGen_of_measure (m : TypeId → Nat) (h : ∀ {t u}, r t u → m u < m t) (t : TypeId) :
    ¬ TransGen r t t := by
  intro ht
  have hlt : ∀ {u}, TransGen r t u → m u < m t := by
    intro u htu
    induction htu with
    | single hr => exact h hr
    | tail _ hr ih => exact (h hr).trans ih
  exact lt_irrefl _ (hlt ht)

end Store

end GoCheck
