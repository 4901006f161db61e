import GoCheck.Proofs.Conversion.Assignability

/-!
# Recursions over types end

Printing writes out a type without a name once, so it goes no deeper than there are types. Questions
about a type parameter go on to its terms, which are earlier types. Both are compared with
themselves, cut off elsewhere, in a store that is shifted by nothing.
-/

namespace GoCheck

open List Build Store

namespace Store

variable {s : Store} {t u : TypeId}

section

variable (hs : s.Closed false) (huniverse : s.HasScope universeScope)

/-- The renumbering that moves nothing. -/
def Closed.still : Renumbering := s.gap s hs.predeclared huniverse

lemma type_still (t : TypeId) : (hs.still huniverse).type t = t := by
  simp [Closed.still, gap, Renumbering.type, Gap.skip]

lemma operand_still (x : Operand) : (hs.still huniverse).operand x = x := by
  have htype : (hs.still huniverse).type = id := funext (type_still hs huniverse)
  simp [Renumbering.operand, htype]

lemma shifted_still : s.Shifted (hs.still huniverse) s :=
  Frame.shifted ⟨fun _ _ => rfl, fun _ _ => rfl, fun _ _ => rfl⟩ hs le_rfl le_rfl le_rfl rfl

/-- With no numbers moved, two printings that correspond give the same text and go on from the same
types written out. -/
lemma run_eq_of_writes (h : s.Writes (hs.still huniverse) ts k q q') (hk : s.unwritten V ≤ k)
    (hts : ∀ t ∈ ts, s.HasType t) :
    q'.run V = q.run V ∧ V ⊆ (q.run V).2 ∧ (V.Nodup → (q.run V).2.Nodup) := by
  have hmap (l : List TypeId) : l.map (hs.still huniverse).type = l :=
    (map_congr_left fun t _ => type_still hs huniverse t).trans (map_id' l)
  have hnone : ∀ u, s.OccursIn (hs.still huniverse) ts u → u ∉ V := by
    rintro u ⟨t, ht, hu⟩
    exact absurd hu.newType (not_le.mpr (hts t ht))
  obtain ⟨htext, hstate, hgrows, -, honce⟩ := h V hk hnone
  rw [hmap] at htext hstate
  rw [hmap] at hstate
  exact ⟨Prod.ext htext hstate, hgrows, honce⟩

end

/-- The printing of types, as deep as it goes. -/
def print (s : Store) : Option TypeId → Printing String := s.printWithin (s.types.size + 2)

/-- Printing a type of a closed store ends, whatever cycles there are: no call is made deeper than
there are types, so nothing depends on what would answer it. Let `V` be the types without names
that have been written out. They are written out once, since `V` only grows and has no repetitions;
a type in `V` is shown by its number, and any other is put there and written out. -/
theorem Closed.printing_ends (hs : s.Closed false) (huniverse : s.HasScope universeScope)
    (ht : s.HasType t) (V : List TypeId) :
    s.typeText t = ((s.print (some t)).run []).1 ∧
    (∀ n, s.types.size < n → ∀ p, (s.printStep^[n] p (some t)).run V = (s.print (some t)).run V) ∧
    V ⊆ ((s.print (some t)).run V).2 ∧ (V.Nodup → ((s.print (some t)).run V).2.Nodup) ∧
    (t ≠ .any → s.isNamed t = false → t ∈ ((s.print (some t)).run V).2 ∧
      (s.print (some t)).run V =
        if t ∈ V then (s!"type#{t.index}", V) else (s.printForm s.print t).run (t :: V)) := by
  have hshifted := shifted_still hs huniverse
  have hgrown : s.Grown (hs.still huniverse) := grown_gap hs
  have hmap (u : Option TypeId) : u.map (hs.still huniverse).type = u := by
    cases u <;> simp [type_still]
  have hdeep n (hn : s.types.size < n) p (u : Option TypeId) :
      s.Writes (hs.still huniverse) u.toList s.types.size (s.print u) (s.printStep^[n] p u) := by
    have hwrites := writes_printStep_iterate hgrown hshifted (fun _ => pure "") p
      (show s.types.size < s.types.size + 2 by omega) hn u
    rwa [← printWithin_eq_iterate, hmap] at hwrites
  have hrun n (hn : s.types.size < n) p := run_eq_of_writes hs huniverse
    (hdeep n hn p (some t)) (s.unwritten_le V) (by simpa using ht)
  refine ⟨rfl, fun n hn p => (hrun n hn p).1, (hrun _ (Nat.lt_succ_self _) s.print).2.1,
    (hrun _ (Nat.lt_succ_self _) s.print).2.2, fun hany hnamed => ?_⟩
  have hstep : (s.print (some t)).run V =
      if t ∈ V then (s!"type#{t.index}", V) else (s.printForm s.print t).run (t :: V) := by
    have hnext : s.printStep^[s.types.size + 3] (fun _ => pure "") = s.printStep s.print := by
      rw [Function.iterate_succ_apply', ← printWithin_eq_iterate]
      rfl
    rw [← (hrun (s.types.size + 3) (by omega) fun _ => pure "").1, hnext, printStep, if_neg hany]
    simp only [hnamed]
    exact run_once t _ V
  refine ⟨?_, hstep⟩
  rw [hstep]
  split
  · assumption
  · -- the type is put down before its parts are written, and nothing is taken out again
    have hself (u : Option TypeId) : s.Writes (hs.still huniverse) u.toList s.types.size
        (s.print u) (s.print (u.map (hs.still huniverse).type)) := by
      rw [hmap]
      have hself := hdeep (s.types.size + 2) (by omega) (fun _ => pure "") u
      rwa [← printWithin_eq_iterate] at hself
    have hparts : ∀ k ∈ s.components t, s.HasType k := fun k hk => hs.hasType_of_component hk
    have hform := writes_printForm hgrown hshifted hself t
    exact (run_eq_of_writes hs huniverse hform (s.unwritten_le _) hparts).2.1 mem_cons_self

/-- Pointers to nodes that hold the pointer to the next one. -/
def ringStore : Store :=
  ((do
    let next ← newField "next" (some ⟨34⟩) false
    let node ← newType (.struct [next])
    newType (.pointer node) : Build TypeId).run (Checker.start {}).store).2

lemma ringStore_closed : ringStore.Closed false := by
  refine closed_of_forall_lt ?_ ?_ ?_ ?_ ?_ ?_ ?_ ?_ ?_ ?_
  all_goals decide +kernel

theorem ringStore_printing_ends : ringStore.typeText ⟨34⟩ = "*struct\x7bnext type#34\x7d" ∧
    (⟨34⟩ ∈ ((ringStore.print (some ⟨34⟩)).run []).2 ∧ (ringStore.print (some ⟨34⟩)).run [] =
      if (⟨34⟩ : TypeId) ∈ [] then ("type#34", [])
      else (ringStore.printForm ringStore.print ⟨34⟩).run [⟨34⟩]) := by
  obtain ⟨-, -, -, -, hunnamed⟩ :=
    Closed.printing_ends ringStore_closed (t := ⟨34⟩) (by decide +kernel) (by decide +kernel) []
  exact ⟨by decide +kernel, hunnamed (by decide) (by decide +kernel)⟩

/-- The recursion in which `step` asks for the values at `calls` ends, with the values `f`. -/
structure EndsWith {α β : Type} (calls : α → α → Prop) (step : (α → β) → α → β) (f : α → β) :
    Prop where
  wf : WellFounded calls
  asks : ∀ g h a, (∀ b, calls b a → g b = h b) → step g a = step h a
  gives : ∀ a, f a = step f a

/-- The questions about an operand and a type that one is led to: the type, the type of the operand
or both are replaced by a term. -/
inductive TermCall (s : Store) : Operand × TypeId → Operand × TypeId → Prop
  | target {t u : TypeId} : u ∈ s.terms t → TermCall s (x, u) (x, t)
  | operand {v t u w : TypeId} : v ∈ x.type → u ∈ s.terms v →
      w = t ∨ w ∈ s.terms t → TermCall s ({ x with type := some u }, w) (x, t)

lemma isTypeParam_of_mem_terms (hu : u ∈ s.terms t) : s.isTypeParam t = true := by
  cases ht : s.type t <;> simp_all [terms, terms?, isTypeParam, Ty.typeParam?]

namespace Ordered

variable (hs : s.Ordered)
include hs

lemma endsWith_hasNil : EndsWith (· ∈ s.terms ·) s.hasNilStep s.hasNil where
  wf := Subrelation.wf (fun hu => (hs.index_lt_of_mem_terms hu).1) (measure TypeId.index).wf
  asks _ _ _ h := hasNilStep_congr h
  gives := hs.hasNil_eq

lemma endsWith_implicit (x : Operand) : EndsWith (fun u t => ∃ w ∈ s.terms t, u = s.underlying w)
    (fun f => s.implicitWith (fun w => givesType (f (s.underlying w))) x) (s.implicit x) where
  wf := by
    refine Subrelation.wf ?_ (measure TypeId.index).wf
    rintro _ t ⟨w, hw, rfl⟩
    exact (hs.index_underlyingWithin_le _ w).trans_lt (hs.index_lt_of_mem_terms hw).1
  asks g h t hcalls := by
    have hall : ((s.terms t).all fun w => givesType (g (s.underlying w))) =
        (s.terms t).all fun w => givesType (h (s.underlying w)) :=
      all_congr fun w hw => by rw [hcalls _ ⟨w, hw, rfl⟩]
    simp only [implicitWith, hall]
  gives t := by
    -- the type beneath a term is no type parameter, so its own terms are not asked for
    have hadmits : s.admitsTerm x = fun w => givesType (s.implicit x (s.underlying w)) := by
      funext w
      simp only [admitsTerm, implicit, implicitWith, hs.isTypeParam_underlying, Bool.false_eq_true,
        if_false]
    rw [← hadmits]
    rfl

variable (hclosed : s.Closed false) (huniverse : s.HasScope universeScope)
include hclosed huniverse

/-- A question asked to a bounded depth, of which a step asks about terms only. -/
lemma endsWith_within {step : (Operand → TypeId → β) → Operand → TypeId → β}
    (within : Nat → Operand → TypeId → β) (hwithin : ∀ n, within (n + 1) = step (within n))
    (hstep : ∀ {g h : Operand → TypeId → β} {x : Operand} {t},
      (∀ u ∈ s.terms t, h ((hclosed.still huniverse).operand x)
        ((hclosed.still huniverse).type u) = g x u) →
      (∀ v ∈ x.type, ∀ u ∈ s.terms v, ∀ w, w = t ∨ w ∈ s.terms t →
        h ((hclosed.still huniverse).operand { x with type := some u })
          ((hclosed.still huniverse).type w) = g { x with type := some u } w) →
      step h ((hclosed.still huniverse).operand x) ((hclosed.still huniverse).type t) =
        step g x t) :
    EndsWith s.TermCall (fun f a => step (fun x t => f (x, t)) a.1 a.2)
      fun a => within s.termDepth a.1 a.2 := by
  simp only [operand_still, type_still] at hstep
  have hlower : ∀ {b a}, s.TermCall b a → s.place b.1.typeOrInvalid + s.place b.2 <
      s.place a.1.typeOrInvalid + s.place a.2 := by
    rintro _ _ (hu | ⟨hv, hu, hw⟩)
    · exact Nat.add_lt_add_left (hs.place_lt_of_mem_terms hu) _
    · exact Shifted.place_add_lt hs hv hu hw
  refine ⟨Subrelation.wf hlower
    (measure fun a : Operand × TypeId => s.place a.1.typeOrInvalid + s.place a.2).wf,
    fun g h a hcalls => ?_, fun a => ?_⟩
  · exact hstep (fun u hu => hcalls _ (.target hu)) fun v hv u hu w hw => hcalls _ (.operand hv hu hw)
  · change within s.termDepth a.1 a.2 = step (within s.termDepth) a.1 a.2
    rw [← hwithin]
    have hdeep : 2 * s.types.size < s.termDepth := by simp [termDepth]
    refine Shifted.descent (s := s) (p := within) (q := within) (f := id) (g := id) ?_
      (Nat.lt_succ_of_lt hdeep) hdeep a.1 a.2
    intro n m x t ih
    rw [hwithin n, hwithin m]
    exact hstep (fun u hu => ih x u (hlower (.target hu))) fun v hv u hu w hw =>
      ih _ w (hlower (.operand (x := x) hv hu hw))

lemma endsWith_assign : EndsWith s.TermCall (fun f a => s.assignStep (fun x t => f (x, t)) a.1 a.2)
    fun a => s.assign a.1 a.2 :=
  hs.endsWith_within hclosed huniverse s.assignWithin (fun _ => rfl) fun hto hfrom =>
    (shifted_still hclosed huniverse).assignStep hs (grown_gap hclosed) hto fun v hv u hu =>
      hfrom v hv u hu _ (.inl rfl)

lemma endsWith_convert :
    EndsWith s.TermCall (fun f a => s.convertStep (fun x t => f (x, t)) a.1 a.2)
      fun a => s.convert a.1 a.2 :=
  hs.endsWith_within hclosed huniverse s.convertWithin (fun _ => rfl)
    ((shifted_still hclosed huniverse).convertStep hs (grown_gap hclosed))

end Ordered

end Store

namespace BuiltSession

variable {c d : Checker}

/-- In a store that a session has built, the terms of a type parameter, and what lies beneath them,
are earlier types. So the questions that go on to terms end, for all operands and types: whether a
type has a nil value, which type an operand takes on, whether it is assignable and whether it can be
converted. -/
theorem term_recursions_end (h : BuiltSession c) (hd : c.SafeSteps false d) :
    (∀ t, ∀ u ∈ d.store.terms t, d.store.isTypeParam t = true ∧ u.index < t.index ∧
      (d.store.underlying u).index ≤ u.index) ∧
    EndsWith (· ∈ d.store.terms ·) d.store.hasNilStep d.store.hasNil ∧
    (∀ x, EndsWith (fun u t => ∃ w ∈ d.store.terms t, u = d.store.underlying w)
      (fun f => d.store.implicitWith (fun w => givesType (f (d.store.underlying w))) x)
      (d.store.implicit x)) ∧
    EndsWith d.store.TermCall (fun f a => d.store.assignStep (fun x t => f (x, t)) a.1 a.2)
      (fun a => d.store.assign a.1 a.2) ∧
    EndsWith d.store.TermCall (fun f a => d.store.convertStep (fun x t => f (x, t)) a.1 a.2)
      fun a => d.store.convert a.1 a.2 := by
  have hordered := h.ordered_after hd
  have hclosed := hd.closed h.closed
  exact ⟨fun t u hu => ⟨isTypeParam_of_mem_terms hu, (hordered.index_lt_of_mem_terms hu).1,
      hordered.index_underlyingWithin_le _ u⟩,
    hordered.endsWith_hasNil, hordered.endsWith_implicit,
    hordered.endsWith_assign hclosed.store hclosed.hasScope_universe,
    hordered.endsWith_convert hclosed.store hclosed.hasScope_universe⟩

/-- Assignments to the type parameter of this state go on to its terms. -/
theorem scaledState_recursions_end : scaledState.store.terms ⟨34⟩ = [.basic .int8, .basic .float64] ∧
    ∀ x, scaledState.store.assign x ⟨34⟩ = scaledState.store.assignStep scaledState.store.assign x ⟨34⟩ :=
  ⟨by decide +kernel, fun x =>
    (term_recursions_end scaledState_reached (.refl _)).2.2.2.1.gives (x, ⟨34⟩)⟩

end BuiltSession

end GoCheck
