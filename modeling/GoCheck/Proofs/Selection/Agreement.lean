import GoCheck.Proofs.Reach
import GoCheck.Proofs.Selection.LevelSearch
import Mathlib.Tactic.IntervalCases

/-!
# Selectors name what lies at the least depth

The search for a selector ends, since a level either searches a defined type for the first time or
leads on through types that do not embed each other in a circle. Its answer is what the embedding
paths say.
-/

namespace GoCheck

open Finset

variable {path : List Nat}

namespace Store

variable {s : Store} {t : TypeId} {n : Nat} {cs : List Candidate}

lemma shape_of_size_le (h : s.types.size ≤ t.index) : s.shape t = .basic .invalid := by
  have ht := type_of_size_le h
  have hu : s.underlying t = t := by simp [underlying, underlyingWithin, ht, Ty.beneath?]
  rw [shape, hu, ht]

lemma Embeds.lt_size (h : s.Embeds t i p u) : t.index < s.types.size := by
  obtain ⟨fields, f, ft, hs, -⟩ := h
  by_contra hle
  rw [shape_of_size_le (by omega)] at hs
  cases hs

lemma lt_size_of_isDefined (h : s.isDefined t) : t.index < s.types.size := by
  by_contra hle
  obtain ⟨n, ht⟩ := isDefined_iff.mp h
  rw [type_of_size_le (by omega)] at ht
  cases ht

lemma CyclesNamed.rank_lt (hs : s.CyclesNamed) (h : s.EmbedsUnnamed t u) :
    s.rank s.EmbedsUnnamed u < s.rank s.EmbedsUnnamed t := by
  obtain ⟨-, i, p, he⟩ := id h
  exact Store.rank_lt h he.lt_size fun hback => hs t (.head' h hback)

/-- The number of defined types that have not been searched. -/
def unsearched (s : Store) (seen : List TypeId) : Nat :=
  ((range s.types.size).filter fun i => s.isDefined ⟨i⟩ = true ∧ ⟨i⟩ ∉ seen).card

lemma unsearched_le_size (s : Store) (seen : List TypeId) : s.unsearched seen ≤ s.types.size := by
  exact (card_filter_le _ _).trans_eq (card_range _)

lemma unsearched_mono (h : ∀ v ∈ seen, v ∈ seen') : s.unsearched seen' ≤ s.unsearched seen :=
  card_le_card (monotone_filter_right _ fun _ _ => .imp_right (mt (h _)))

lemma unsearched_lt (h : ∀ v ∈ seen, v ∈ seen') (hd : s.isDefined t) (ht : t ∉ seen)
    (ht' : t ∈ seen') : s.unsearched seen' < s.unsearched seen :=
  card_filter_lt (fun _ => .imp_right (mt (h _))) (mem_range.mpr (lt_size_of_isDefined hd))
    ⟨hd, ht⟩ fun hnot => hnot.2 ht'

/-- A level without hits leaves less to search: a new defined type, or candidates of lower rank. -/
lemma searchLevels_next (hrank : ∀ c ∈ cs, s.rank s.EmbedsUnnamed c.type ≤ k)
    (hdown : ∀ c ∈ cs, ∀ v, s.EmbedsUnnamed c.type v →
      s.rank s.EmbedsUnnamed v < s.rank s.EmbedsUnnamed c.type)
    (hn : s.unsearched seen * (s.types.size + 1) + k < n + 1) :
    mergeCandidates ((s.active seen cs).flatMap s.embeddedIn) = [] ∨
      ∃ k', (∀ d ∈ mergeCandidates ((s.active seen cs).flatMap s.embeddedIn),
          s.rank s.EmbedsUnnamed d.type ≤ k') ∧
        s.unsearched (s.seenAfter seen cs) * (s.types.size + 1) + k' < n := by
  have hmono : ∀ v ∈ seen, v ∈ s.seenAfter seen cs := fun v hv => mem_seenAfter.mpr (.inl hv)
  by_cases hnew : ∃ d ∈ s.active seen cs, s.isDefined d.type
  · -- A defined type is searched for the first time; the ranks start anew.
    obtain ⟨d, hd, hdef⟩ := hnew
    obtain ⟨hdc, hns⟩ := List.mem_filter.mp hd
    have hlt : s.unsearched (s.seenAfter seen cs) < s.unsearched seen := by
      refine unsearched_lt hmono hdef ?_ (mem_seenAfter.mpr (.inr ⟨hdef, d, hdc, rfl⟩))
      simpa [isSearched, hdef] using hns
    refine .inr ⟨_, fun d _ => s.rank_le_size _ d.type, ?_⟩
    have := Nat.mul_le_mul_right (s.types.size + 1) (Nat.succ_le_of_lt hlt)
    rw [Nat.succ_mul] at this
    omega
  · -- All candidates lead on through other types, so the ranks go down.
    have hlower : ∀ d ∈ mergeCandidates ((s.active seen cs).flatMap s.embeddedIn),
        s.rank s.EmbedsUnnamed d.type < k := by
      intro d hd
      obtain ⟨l, e, r, hcs, -, rfl⟩ := mergeCandidates_spec hd
      obtain ⟨a, ha, hea⟩ := List.mem_flatMap.mp
        (show e ∈ (s.active seen cs).flatMap s.embeddedIn by simp [hcs])
      obtain ⟨i, p, he, -⟩ := mem_embeddedIn.mp hea
      have hac : a ∈ cs := (List.mem_filter.mp ha).1
      have hun : s.EmbedsUnnamed a.type e.type :=
        ⟨fun n ht => hnew ⟨a, ha, isDefined_iff.mpr ⟨n, ht⟩⟩, i, p, he⟩
      exact lt_of_lt_of_le (hdown a hac _ hun) (hrank a hac)
    have hle := Nat.mul_le_mul_right (s.types.size + 1) (s.unsearched_mono hmono)
    rcases Nat.eq_zero_or_pos k with rfl | hpos
    · exact .inl (List.eq_nil_iff_forall_not_mem.mpr fun d hd => Nat.not_lt_zero _ (hlower d hd))
    · exact .inr ⟨k - 1, fun d hd => Nat.le_sub_one_of_lt (hlower d hd), by omega⟩

lemma searched_lt_levelBound (s : Store) :
    s.unsearched [] * (s.types.size + 1) + s.types.size < s.levelBound := by
  have := Nat.mul_le_mul_right (s.types.size + 1) (s.unsearched_le_size [])
  unfold levelBound
  rw [Nat.succ_mul s.types.size]
  omega

/-- The search ends if the bound exceeds what the unsearched types and the candidates allow for. -/
lemma searchLevels_ends (hs : s.CyclesNamed) (hnd : (cs.map (·.type)).Nodup)
    (hrank : ∀ c ∈ cs, s.rank s.EmbedsUnnamed c.type ≤ k)
    (hn : s.unsearched seen * (s.types.size + 1) + k < n) :
    ∃ r, s.searchLevels addressable name n cs seen = some r := by
  induction n generalizing k cs seen with
  | zero => omega
  | succ n ih =>
    cases cs with
    | nil => exact ⟨_, rfl⟩
    | cons c cs =>
      have hscan := s.scanLevel_scanned name (c :: cs) [] ⟨[], none, seen⟩ hnd rfl
      unfold searchLevels
      split
      · exact ⟨_, rfl⟩
      · exact ⟨_, rfl⟩
      · rename_i next seen' hres
        rw [hres] at hscan
        obtain ⟨htally, hseen, hnext⟩ := hscan
        have hnext' := hnext (htally.found_eq_none.mp rfl)
        dsimp only at hseen hnext'
        rw [List.nil_append] at hnext'
        subst hseen hnext'
        rcases searchLevels_next hrank (fun c _ v => hs.rank_lt) hn with hnone | ⟨k', hk', hn'⟩
        · exact ⟨_, by rw [hnone, searchLevels]⟩
        · exact ih (nodup_mergeCandidates _) hk' hn'

lemma answers_of_selectFrom? (h : s.selectFrom? t addressable name = some r) :
    s.Answers t addressable name r := by
  rcases hd : s.dereference t with ⟨u, p⟩
  unfold selectFrom? at h
  simp only [hd] at h
  split at h
  · rename_i hi
    cases h
    refine .notFound ?_
    rintro _ _ _ ⟨hd', hi', -, -⟩
    cases hd.symm.trans hd'
    exact hi' (Bool.and_eq_true_iff.mp hi)
  · rename_i hi
    exact searchLevels_answers hd (fun hp => hi (Bool.and_eq_true_iff.mpr hp)) .start barren_zero h

/-- From a type that is no defined pointer type, the search ends with the answer of the paths. -/
lemma selectFrom?_answers (hs : s.CyclesNamed) (t : TypeId) (addressable : Bool) (name : String) :
    ∃ r, s.selectFrom? t addressable name = some r ∧ s.Answers t addressable name r := by
  have hends : ∃ r, s.selectFrom? t addressable name = some r := by
    unfold selectFrom?
    simp only
    split
    · exact ⟨_, rfl⟩
    · exact searchLevels_ends hs (List.nodup_singleton _) (fun c _ => s.rank_le_size _ c.type)
        s.searched_lt_levelBound
  obtain ⟨r, hr⟩ := hends
  exact ⟨r, hr, answers_of_selectFrom? hr⟩

lemma SelectsOnly.unique
    (h : s.SelectsOnly t name path o b) (h' : s.SelectsOnly t name path' o' b') :
    path = path' ∧ o = o' ∧ b = b' := by
  obtain rfl := h'.2 _ _ _ h.1
  exact ⟨rfl, h.1.1.unique h'.1.1⟩

section Exact

variable (h : s.Answers t addressable name r)
include h

lemma Answers.eq_notFound_iff : r = .notFound ↔ ∀ path o b, ¬ s.Selects t name path o b := by
  cases h with
  | notFound hno => exact ⟨fun _ => hno, fun _ => rfl⟩
  | ambiguous hf _ _ => exact ⟨nofun, fun hno => absurd hf.1 (hno _ _ _)⟩
  | badReceiver hf _ | entry hf _ => exact ⟨nofun, fun hno => absurd hf.1.1 (hno _ _ _)⟩

lemma Answers.eq_ambiguous_iff :
    (∃ path, r = .ambiguous path) ↔ ∃ path o b path' o' b', s.SelectsFirst t name path o b ∧
      s.SelectsFirst t name path' o' b' ∧ path ≠ path' := by
  constructor
  · rintro ⟨path, rfl⟩
    cases h with
    | ambiguous hf hf' hne => exact ⟨_, _, _, _, _, _, hf, hf', hne⟩
  · rintro ⟨path, o, b, path', o', b', hf, hf', hne⟩
    cases h with
    | notFound hno => exact absurd hf.1 (hno _ _ _)
    | ambiguous _ _ _ => exact ⟨_, rfl⟩
    | badReceiver ho _ | entry ho _ =>
      exact absurd ((ho.2 _ _ _ hf).trans (ho.2 _ _ _ hf').symm) hne

lemma Answers.eq_entry_iff :
    r = .entry o path b ↔ s.SelectsOnly t name path o b ∧
      ¬ ((s.object o).hasPointerReceiver ∧ b = false ∧ addressable = false) := by
  constructor
  · rintro rfl
    cases h with
    | entry ho hr =>
      refine ⟨ho, ?_⟩
      rintro ⟨hp, hb, ha⟩
      simp [hp, hb, ha] at hr
  · rintro ⟨ho, hr⟩
    cases h with
    | notFound hno => exact absurd ho.1.1 (hno _ _ _)
    | ambiguous hf hf' hne => exact absurd ((ho.2 _ _ _ hf).trans (ho.2 _ _ _ hf').symm) hne
    | badReceiver ho' hr' =>
      obtain ⟨rfl, rfl, rfl⟩ := ho.unique ho'
      exact absurd (by simpa [and_assoc] using hr') hr
    | entry ho' _ =>
      obtain ⟨rfl, rfl, rfl⟩ := ho.unique ho'
      rfl

lemma Answers.eq_badReceiver_iff : r = .badReceiver ↔ ∃ path o b, s.SelectsOnly t name path o b ∧
      (s.object o).hasPointerReceiver ∧ b = false ∧ addressable = false := by
  constructor
  · rintro rfl
    cases h with
    | badReceiver ho hr => exact ⟨_, _, _, ho, by simpa [and_assoc] using hr⟩
  · rintro ⟨path, o, b, ho, hp, hb, ha⟩
    cases h with
    | notFound hno => exact absurd ho.1.1 (hno _ _ _)
    | ambiguous hf hf' hne => exact absurd ((ho.2 _ _ _ hf).trans (ho.2 _ _ _ hf').symm) hne
    | badReceiver _ _ => rfl
    | entry ho' hr =>
      obtain ⟨rfl, rfl, rfl⟩ := ho.unique ho'
      simp [hp, hb, ha] at hr

end Exact

/-- The pointer type beneath a defined pointer type. -/
def definedPointer? (s : Store) (t : TypeId) : Option TypeId :=
  match s.type t with
  | .named n =>
    match s.type n.underlying with
    | .pointer _ => some n.underlying
    | _ => none
  | _ => none

/-- Where a selector starts: at the pointer type beneath a defined one. -/
def selectorBase (s : Store) (t : TypeId) : TypeId := (s.definedPointer? t).getD t

lemma select?_eq (hname : name ≠ "_") : s.select? t addressable name =
      match s.definedPointer? t with
      | some u => (s.selectFrom? u false name).map s.withoutMethods
      | none => s.selectFrom? t addressable name := by
  unfold select? definedPointer?
  rw [if_neg hname]
  cases s.type t with
  | named n => cases hu : s.type n.underlying <;> simp [hu]
  | _ => rfl

lemma exists_pointer_of_definedPointer? (h : s.definedPointer? t = some u) :
    ∃ base, s.dereference u = (base, true) := by
  unfold definedPointer? at h
  cases ht : s.type t <;> rw [ht] at h <;> try cases h
  rename_i n
  cases hu : s.type n.underlying <;> simp only [hu] at h <;> try cases h
  rename_i base
  exact ⟨base, by simp [dereference, hu]⟩

lemma Selects.indirect_of_pointer (hd : s.dereference t = (base, true))
    (h : s.Selects t name path o b) : b := by
  cases h with
  | intro hd' _ _ _ =>
    cases hd.symm.trans hd'
    rfl

lemma withoutMethods_eq_notFound_iff : s.withoutMethods r = .notFound ↔
      r = .notFound ∨ ∃ o path b, r = .entry o path b ∧ (s.object o).isFunc := by
  cases r with
  | entry o path b => by_cases hf : (s.object o).isFunc <;> simp [withoutMethods, hf]
  | _ => simp [withoutMethods]

lemma withoutMethods_eq_entry_iff :
    s.withoutMethods r = .entry o path b ↔ r = .entry o path b ∧ ¬ (s.object o).isFunc := by
  cases r with
  | entry o' path' b' =>
    by_cases hf : (s.object o').isFunc
    · simp only [withoutMethods, if_pos hf, Selection.entry.injEq, reduceCtorEq, false_iff]
      rintro ⟨⟨rfl, -, -⟩, hn⟩
      exact hn hf
    · simp only [withoutMethods, if_neg hf, Selection.entry.injEq, iff_self_and]
      rintro ⟨rfl, -, -⟩
      exact hf
  | _ => simp [withoutMethods]

lemma withoutMethods_eq_iff (hnone : r' ≠ .notFound) (hentry : ∀ o path b, r' ≠ .entry o path b) :
    s.withoutMethods r = r' ↔ r = r' := by
  cases r with
  | entry o path b =>
    by_cases hf : (s.object o).isFunc <;> simp [withoutMethods, hf, hnone.symm, (hentry _ _ _).symm]
  | _ => simp [withoutMethods]

lemma isSome_select? (hs : s.CyclesNamed) (t : TypeId) (addressable : Bool) (name : String) :
    (s.select? t addressable name).isSome := by
  by_cases hname : name = "_"
  · simp [select?, hname]
  · rw [select?_eq hname]
    cases s.definedPointer? t with
    | none =>
      obtain ⟨r, hr, -⟩ := selectFrom?_answers hs t addressable name
      simp [hr]
    | some u =>
      obtain ⟨r, hr, -⟩ := selectFrom?_answers hs u false name
      simp [hr]

/-- What a selector names is a field or method of some type. -/
lemma exists_owns_of_select (h : s.select t addressable name = .entry o path b) :
    ∃ u i, s.Owns name u i o := by
  have howns : ∀ {u addressable}, s.selectFrom? u addressable name = some (.entry o path b) →
      ∃ v i, s.Owns name v i o := by
    intro u addressable hu
    obtain ⟨⟨⟨⟨-, -, -, ho⟩, -⟩, -⟩, -⟩ := (answers_of_selectFrom? hu).eq_entry_iff.mp rfl
    exact ⟨_, _, ho⟩
  by_cases hname : name = "_"
  · simp [select, select?, hname] at h
  · rw [select, select?_eq hname] at h
    cases hdp : s.definedPointer? t with
    | none =>
      cases hr : s.selectFrom? t addressable name with
      | none => simp [hdp, hr] at h
      | some r =>
        obtain rfl : r = .entry o path b := by simpa [hdp, hr] using h
        exact howns hr
    | some u =>
      cases hr : s.selectFrom? u false name with
      | none => simp [hdp, hr] at h
      | some r =>
        have hw : s.withoutMethods r = .entry o path b := by simpa [hdp, hr] using h
        obtain ⟨rfl, -⟩ := withoutMethods_eq_entry_iff.mp hw
        exact howns hr

/-- A selector names what the embedding paths say. The search for it ends. It finds nothing if no
path leads to the name, it is ambiguous if two paths of the least length do, and otherwise it gives
the field or method at the end of the only one; a method that needs a pointer to its receiver is
refused to a value without an address. A defined pointer type is searched as the pointer beneath it,
and lends no methods. -/
theorem select_agrees_with_paths (hs : s.CyclesNamed) (hname : name ≠ "_") (t : TypeId)
    (addressable : Bool) :
    s.select? t addressable name = some (s.select t addressable name) ∧
    (s.select t addressable name = .notFound ↔
      (∀ path o b, ¬ s.Selects (s.selectorBase t) name path o b) ∨
      ((s.definedPointer? t).isSome ∧
        ∃ path o b, s.SelectsOnly (s.selectorBase t) name path o b ∧
          (s.object o).isFunc = true)) ∧
    ((∃ path, s.select t addressable name = .ambiguous path) ↔
      ∃ path o b path' o' b', s.SelectsFirst (s.selectorBase t) name path o b ∧
        s.SelectsFirst (s.selectorBase t) name path' o' b' ∧ path ≠ path') ∧
    (∀ path o b, s.select t addressable name = .entry o path b ↔
      s.SelectsOnly (s.selectorBase t) name path o b ∧
      ¬ ((s.object o).hasPointerReceiver = true ∧ b = false ∧ addressable = false) ∧
      ¬ ((s.definedPointer? t).isSome ∧ (s.object o).isFunc = true)) ∧
    (s.select t addressable name = .badReceiver ↔
      ∃ path o b, s.SelectsOnly (s.selectorBase t) name path o b ∧
        (s.object o).hasPointerReceiver = true ∧ b = false ∧ addressable = false) := by
  cases hdp : s.definedPointer? t with
  | none =>
    have hbase : s.selectorBase t = t := by simp [selectorBase, hdp]
    obtain ⟨r, hr, ha⟩ := selectFrom?_answers hs t addressable name
    have hsel : s.select? t addressable name = some r := by simp [select?_eq hname, hdp, hr]
    have hval : s.select t addressable name = r := by simp [select, hsel]
    rw [hval, hbase]
    refine ⟨hsel, ?_, ha.eq_ambiguous_iff, fun path o b => ?_, ha.eq_badReceiver_iff⟩
    · simpa using ha.eq_notFound_iff
    · simpa using ha.eq_entry_iff
  | some u =>
    have hbase : s.selectorBase t = u := by simp [selectorBase, hdp]
    obtain ⟨base, hd⟩ := exists_pointer_of_definedPointer? hdp
    -- behind a pointer every method may be called, so the missing address makes no difference
    have hdirect : ∀ {path o b}, s.SelectsOnly u name path o b → b ≠ false :=
      fun ho => by simp [ho.1.1.indirect_of_pointer hd]
    obtain ⟨r, hr, ha⟩ := selectFrom?_answers hs u false name
    have hsel : s.select? t addressable name = some (s.withoutMethods r) := by
      simp [select?_eq hname, hdp, hr]
    have hval : s.select t addressable name = s.withoutMethods r := by simp [select, hsel]
    rw [hval, hbase]
    refine ⟨hsel, ?_, ?_, fun path o b => ?_, ?_⟩
    · rw [withoutMethods_eq_notFound_iff, ha.eq_notFound_iff]
      refine or_congr_right ⟨?_, ?_⟩
      · rintro ⟨o, path, b, he, hf⟩
        exact ⟨rfl, path, o, b, (ha.eq_entry_iff.mp he).1, hf⟩
      · rintro ⟨-, path, o, b, ho, hf⟩
        exact ⟨o, path, b, ha.eq_entry_iff.mpr ⟨ho, fun h => hdirect ho h.2.1⟩, hf⟩
    · simpa [withoutMethods_eq_iff] using ha.eq_ambiguous_iff
    · rw [withoutMethods_eq_entry_iff, ha.eq_entry_iff]
      constructor
      · rintro ⟨⟨ho, -⟩, hf⟩
        exact ⟨ho, fun h => hdirect ho h.2.1, fun h => hf h.2⟩
      · rintro ⟨ho, -, hf⟩
        exact ⟨⟨ho, fun h => hdirect ho h.2.1⟩, fun h => hf ⟨rfl, h⟩⟩
    · refine (withoutMethods_eq_iff (by simp) (by simp)).trans (ha.eq_badReceiver_iff.trans ?_)
      constructor
      · rintro ⟨path, o, b, ho, -, hb, -⟩
        exact absurd hb (hdirect ho)
      · rintro ⟨path, o, b, ho, -, hb, -⟩
        exact absurd hb (hdirect ho)

/-- A node that embeds a pointer to a node, and a struct without a name that holds its size. -/
def nodeStore : Store where
  types := #[.struct [⟨1⟩, ⟨2⟩], .named { object := ⟨0⟩, underlying := ⟨0⟩ }, .pointer ⟨1⟩,
    .struct [⟨3⟩], .basic .int]
  objects := #[{ entity := .typeName, name := "Node", type := some ⟨1⟩ },
    { entity := .var true true false, name := "Node", type := some ⟨2⟩ },
    { entity := .var true true false, name := "base", type := some ⟨3⟩ },
    { entity := .var false true false, name := "size", type := some ⟨4⟩ }]

/-- Only the struct beneath a node embeds anything, and not itself. -/
lemma nodeStore_cyclesNamed : nodeStore.CyclesNamed := by
  refine not_transGen_of_measure (fun t => if t = ⟨0⟩ then 1 else 0) ?_
  rintro ⟨t⟩ u ⟨hn, i, p, hu⟩
  have ht : t < 5 := hu.lt_size
  obtain ⟨fields, f, ft, hs, hf, he, hft, hd⟩ := hu
  interval_cases t
  · cases hs
    rcases i with _ | _ | _ <;> simp at hf <;> subst hf <;> cases hft <;> cases hd <;> decide
  · exact absurd rfl (hn _)
  · cases hs
  · cases hs
    rcases i with _ | _ <;> simp at hf
    subst hf
    cases he
  · cases hs

/-- The size of a node is that of the struct it embeds; the node it points to lies deeper. -/
theorem nodeStore_selects_size :
    nodeStore.CyclesNamed ∧ "size" ≠ "_" ∧
      nodeStore.SelectsOnly ⟨1⟩ "size" [1, 0] ⟨3⟩ false ∧
      (∀ path o b, ¬ nodeStore.Selects ⟨1⟩ "length" path o b) :=
  ⟨nodeStore_cyclesNamed, by decide,
    (((select_agrees_with_paths nodeStore_cyclesNamed (by decide) ⟨1⟩ false).2.2.2.1 _ _ _).mp
      (by decide)).1,
    ((select_agrees_with_paths nodeStore_cyclesNamed (by decide) ⟨1⟩ false).2.1.mp
      (by decide)).resolve_right fun h => absurd h.1 (by decide)⟩

/-- A method called `m` that is in the list of a defined type twice. -/
def repeatedMethodStore : Store where
  types := #[.struct [], .named { object := ⟨0⟩, underlying := ⟨0⟩, methods := [⟨1⟩, ⟨2⟩] }]
  objects := #[{ entity := .typeName, name := "T", type := some ⟨1⟩ },
    { entity := .func false, name := "m" }, { entity := .func false, name := "m" }]

/-- Of two methods of one name in a defined type the first is selected, although both are at depth
one. -/
theorem select_repeated_method :
    repeatedMethodStore.CyclesNamed ∧
      (∃ n, repeatedMethodStore.type ⟨1⟩ = .named n ∧
        n.methods[0]? = some ⟨1⟩ ∧ (repeatedMethodStore.object ⟨1⟩).name = "m" ∧
        n.methods[1]? = some ⟨2⟩ ∧ (repeatedMethodStore.object ⟨2⟩).name = "m") ∧
      (∀ path, repeatedMethodStore.select ⟨1⟩ true "m" ≠ .ambiguous path) ∧
      repeatedMethodStore.select ⟨1⟩ true "m" = .entry ⟨1⟩ [0] false := by
  have hsel : repeatedMethodStore.select ⟨1⟩ true "m" = .entry ⟨1⟩ [0] false := by decide
  refine ⟨not_transGen_of_measure (fun _ => 0) ?_, ⟨_, rfl, rfl, rfl, rfl, rfl⟩, ?_, hsel⟩
  · rintro ⟨t⟩ u ⟨hn, i, p, hu⟩
    have ht : t < 2 := hu.lt_size
    obtain ⟨fields, f, ft, hs, hf, -⟩ := hu
    interval_cases t
    · obtain rfl := Ty.struct.inj hs
      cases hf
    · exact absurd rfl (hn _)
  · intro path
    rw [hsel]
    nofun

end Store

end GoCheck

/-! ## The bound on the levels of a search -/

namespace GoCheck

open List

namespace Store

variable {s : Store} {t : TypeId} {n : Nat}
variable {c : Candidate} {cs : List Candidate} {path : List Nat}

/-- Without a hit, a search goes on with what the candidates embed. -/
lemma searchLevels_of_no_hits (hnd : ((c :: cs).map (·.type)).Nodup)
    (hhits : (s.active seen (c :: cs)).flatMap (s.hitsIn name) = []) :
    s.searchLevels addressable name (m + 1) (c :: cs) seen = s.searchLevels addressable name m
        (mergeCandidates ((s.active seen (c :: cs)).flatMap s.embeddedIn))
        (s.seenAfter seen (c :: cs)) := by
  have hscan := s.scanLevel_scanned name (c :: cs) [] ⟨[], none, seen⟩ hnd rfl
  rw [searchLevels]
  cases hres : s.scanLevel name (c :: cs) ⟨[], none, seen⟩ with
  | error path =>
    rw [hres] at hscan
    obtain ⟨⟨a, ha, -⟩, -⟩ := hscan
    simp [hhits] at ha
  | ok st =>
    obtain ⟨next, found, seen'⟩ := st
    rw [hres] at hscan
    obtain ⟨htally, hseen, hnext⟩ := hscan
    obtain rfl : found = none := htally.found_eq_none.mpr (by simpa using hhits)
    dsimp only at hseen hnext
    rw [hseen, hnext (by simpa using hhits), nil_append]

/-- With a hit, the answer does not depend on the levels that are left. -/
lemma searchLevels_of_hits (hnd : ((c :: cs).map (·.type)).Nodup)
    (hhits : (s.active seen (c :: cs)).flatMap (s.hitsIn name) ≠ []) :
    ∃ r, ∀ m, s.searchLevels addressable name (m + 1) (c :: cs) seen = some r := by
  have hscan := s.scanLevel_scanned name (c :: cs) [] ⟨[], none, seen⟩ hnd rfl
  cases hres : s.scanLevel name (c :: cs) ⟨[], none, seen⟩ with
  | error path => exact ⟨.ambiguous path, fun m => by rw [searchLevels, hres]⟩
  | ok st =>
    obtain ⟨next, found, seen'⟩ := st
    rw [hres] at hscan
    cases found with
    | some found => exact ⟨s.selectionOf addressable found, fun m => by rw [searchLevels, hres]⟩
    | none => exact absurd (hscan.1.found_eq_none.mp rfl) (by simpa using hhits)

lemma searchLevels_mono (hmn : m ≤ n) (h : s.searchLevels addressable name m cs seen = some r) :
    s.searchLevels addressable name n cs seen = some r := by
  induction m generalizing n cs seen with
  | zero =>
    cases cs with
    | nil =>
      rw [searchLevels] at h ⊢
      exact h
    | cons c cs => cases h
  | succ m ih =>
    cases cs with
    | nil =>
      rw [searchLevels] at h ⊢
      exact h
    | cons c cs =>
      obtain ⟨n, rfl⟩ : ∃ i, n = i + 1 := ⟨n - 1, by omega⟩
      rw [searchLevels] at h ⊢
      cases hres : s.scanLevel name (c :: cs) ⟨[], none, seen⟩ with
      | error path =>
        rw [hres] at h
        exact h
      | ok st =>
        obtain ⟨next, found, seen'⟩ := st
        rw [hres] at h
        cases found with
        | some found => exact h
        | none => exact ih (by omega) h

/-- A path that cannot be shortened has no more steps than there are types. -/
lemma Direct.length_le (hl : s.Leads u path b v) (hd : s.Direct u path v) :
    path.length ≤ s.types.size := by
  classical
  -- The types at a smaller depth than a given one.
  let above (k : Nat) : Finset Nat :=
    (Finset.range s.types.size).filter fun i => ∃ q b, s.Leads u q b ⟨i⟩ ∧ q.length < k
  have hmono : ∀ k, above k ⊆ above (k + 1) := by
    intro k i hi
    obtain ⟨hlt, q, b, hq, hk⟩ := Finset.mem_filter.mp hi
    exact Finset.mem_filter.mpr ⟨hlt, q, b, hq, by omega⟩
  have hcount : path.length ≤ (above path.length).card := by
    induction hl with
    | start => exact Nat.zero_le _
    | @embed path b w i p v hl he ih =>
      have hdw : s.Direct u path w := hd.init he
      have hnew : (above path.length).card < (above (path.length + 1)).card := by
        refine Finset.card_lt_card ⟨hmono _, fun hsub => ?_⟩
        have hmem : w.index ∈ above (path.length + 1) :=
          Finset.mem_filter.mpr ⟨Finset.mem_range.mpr he.lt_size, path, b, hl, by omega⟩
        obtain ⟨-, q, b', hq, hk⟩ := Finset.mem_filter.mp (hsub hmem)
        have := hdw q b' hq
        omega
      have := ih hdw
      rw [length_append, length_singleton]
      omega
  exact hcount.trans ((Finset.card_filter_le _ _).trans_eq (Finset.card_range _))

/-- A search that meets no hit and has no candidates left after at most `n` levels. -/
inductive Starves (s : Store) (name : String) : Nat → List Candidate → List TypeId → Prop where
  | empty {n : Nat} {seen : List TypeId} : Starves s name n [] seen
  | next {n : Nat} {c : Candidate} {cs : List Candidate} {seen : List TypeId} :
      (s.active seen (c :: cs)).flatMap (s.hitsIn name) = [] →
      Starves s name n (mergeCandidates ((s.active seen (c :: cs)).flatMap s.embeddedIn))
        (s.seenAfter seen (c :: cs)) →
      Starves s name (n + 1) (c :: cs) seen

/-- A search that ends has found something within as many levels as types, or has run out. -/
lemma found_or_starves (h : s.Level u p k cs seen) (hb : s.Barren u name k)
    (hr : s.searchLevels addressable name n cs seen = some r) : (k ≤ s.types.size ∧
      ∀ m, s.types.size < m + k → s.searchLevels addressable name m cs seen = some r) ∨
    s.Starves name n cs seen := by
  induction n generalizing k cs seen with
  | zero =>
    cases cs with
    | nil => exact .inr .empty
    | cons c cs => cases hr
  | succ n ih =>
    cases cs with
    | nil => exact .inr .empty
    | cons c cs =>
      by_cases hhits : (s.active seen (c :: cs)).flatMap (s.hitsIn name) = []
      · rw [searchLevels_of_no_hits h.nodup hhits] at hr
        refine (ih h.next (h.barren_succ hb hhits) hr).imp
          (fun hfound => ⟨by omega, fun m hm => ?_⟩) (.next hhits)
        obtain ⟨m, rfl⟩ : ∃ i, m = i + 1 := ⟨m - 1, by omega⟩
        rw [searchLevels_of_no_hits h.nodup hhits]
        exact hfound.2 m (by omega)
      · obtain ⟨a, ha⟩ := exists_mem_of_ne_nil _ hhits
        obtain ⟨hmem, howns⟩ := owns_of_mem_hits ha
        obtain ⟨b, hl, -, hlen⟩ := h.sound a.candidate hmem
        have hk : k ≤ s.types.size := hlen ▸ Direct.length_le hl (hb.direct howns hlen)
        obtain ⟨r', hr'⟩ : ∃ r, ∀ m, s.searchLevels addressable name (m + 1) (c :: cs) seen = some r :=
          searchLevels_of_hits h.nodup hhits
        cases hr.symm.trans (hr' n)
        refine .inl ⟨hk, fun m hm => ?_⟩
        obtain ⟨m, rfl⟩ : ∃ i, m = i + 1 := ⟨m - 1, by omega⟩
        exact hr' m

/-- Below the candidates of such a search, structs without names do not embed each other forever. -/
lemma Starves.acc (h : s.Starves name n cs seen) (hc : c ∈ cs) :
    Acc (fun u t => s.EmbedsUnnamed t u) c.type := by
  induction h generalizing c with
  | empty => simp at hc
  | @next n d cs seen hhits _ ih =>
    refine .intro _ fun u hu => ?_
    obtain ⟨hunnamed, i, p, he⟩ := hu
    have hactive : c ∈ s.active seen (d :: cs) := by
      refine mem_filter.mpr ⟨hc, ?_⟩
      have hdef : s.isDefined c.type = false := by
        rw [Bool.eq_false_iff]
        intro hdef
        obtain ⟨n, hn⟩ := isDefined_iff.mp hdef
        exact hunnamed n hn
      simp [isSearched, hdef]
    have hmem : (⟨u, c.path ++ [i], c.indirect || p, c.multiple⟩ : Candidate) ∈
        (s.active seen (d :: cs)).flatMap s.embeddedIn :=
      mem_flatMap.mpr ⟨c, hactive, mem_embeddedIn.mpr ⟨i, p, he, rfl⟩⟩
    have hmerged := (hasCandidate_mergeCandidates _ u).trans (hasCandidate_iff.mpr ⟨_, hmem, rfl⟩)
    obtain ⟨e, hmem', rfl⟩ := hasCandidate_iff.mp hmerged
    exact ih hmem'

lemma not_transGen_of_acc {r : TypeId → TypeId → Prop} (h : Acc (fun u t => r t u) t) :
    ¬Relation.TransGen r t t := by
  induction h with
  | intro t _ ih =>
    intro hloop
    obtain ⟨u, htu, hut⟩ := Relation.TransGen.head'_iff.mp hloop
    exact ih u htu (.tail' hut htu)

/-- A search that runs out does so within the levels that unsearched types and candidates allow. -/
lemma Starves.searchLevels_eq (h : s.Starves name n cs seen) (hnd : (cs.map (·.type)).Nodup)
    (hrank : ∀ c ∈ cs, s.rank s.EmbedsUnnamed c.type ≤ k)
    (hm : s.unsearched seen * (s.types.size + 1) + k < m) :
    s.searchLevels addressable name m cs seen = some .notFound := by
  induction h generalizing k m with
  | empty => rw [searchLevels]
  | @next n c cs seen hhits hrest ih =>
    obtain ⟨m, rfl⟩ : ∃ i, m = i + 1 := ⟨m - 1, by omega⟩
    rw [searchLevels_of_no_hits hnd hhits]
    have hall : s.Starves name (n + 1) (c :: cs) seen := .next hhits hrest
    have hdown : ∀ d ∈ c :: cs, ∀ v, s.EmbedsUnnamed d.type v →
        s.rank s.EmbedsUnnamed v < s.rank s.EmbedsUnnamed d.type := by
      -- What a candidate embeds does not lead back to it.
      intro d hd v hun
      obtain ⟨-, i, p, he⟩ := id hun
      exact Store.rank_lt hun he.lt_size fun hback =>
        not_transGen_of_acc (hall.acc hd) (.head' hun hback)
    rcases searchLevels_next hrank hdown hm with hnone | ⟨k', hk', hm'⟩
    · rw [hnone, searchLevels]
    · exact ih (nodup_mergeCandidates _) hk' hm'

/-- More levels than the bound give no other answer. -/
lemma searchLevels_eq (hn : s.levelBound ≤ n) (u : TypeId) (p addressable : Bool)
    (name : String) : s.searchLevels addressable name n [⟨u, [], p, false⟩] [] =
      s.searchLevels addressable name s.levelBound [⟨u, [], p, false⟩] [] := by
  cases hrun : s.searchLevels addressable name n [⟨u, [], p, false⟩] [] with
  | none =>
    cases hbound : s.searchLevels addressable name s.levelBound [⟨u, [], p, false⟩] [] with
    | none => rfl
    | some r => exact hrun.symm.trans (searchLevels_mono hn hbound)
  | some r =>
    have hsize : s.types.size < s.levelBound := by
      have := Nat.le_mul_self (s.types.size + 1)
      unfold levelBound
      omega
    rcases found_or_starves .start barren_zero hrun with hfound | hstarves
    · exact (hfound.2 _ hsize).symm
    · have hends : s.searchLevels addressable name s.levelBound [⟨u, [], p, false⟩] [] =
          some .notFound :=
        hstarves.searchLevels_eq (nodup_singleton _) (fun c _ => s.rank_le_size _ c.type)
          s.searched_lt_levelBound
      rw [hends, ← hrun, searchLevels_mono hn hends]

end Store

end GoCheck
