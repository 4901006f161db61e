import GoCheck.Proofs.Conversion.Invariance
import GoCheck.Proofs.Isolation.Queries

/-!
# Texts and conversions in shifted stores

A type of a shifted store has the same text: only a type without a name that occurs twice shows its
number, and new types do not. Conversions and assignments have the same outcome, with the same
texts.
-/

namespace GoCheck

open Renumbering List Option

namespace Store

variable {ρ : Renumbering} {s s' : Store} {t u : TypeId} {k : Nat} {ts ts₁ : List TypeId}

/-- How many types of the store have not been written out. -/
def unwritten (s : Store) (V : List TypeId) : Nat :=
  ((Finset.range s.types.size).filter fun i => (⟨i⟩ : TypeId) ∉ V).card

lemma unwritten_le (s : Store) (V : List TypeId) : s.unwritten V ≤ s.types.size :=
  (Finset.card_filter_le _ _).trans_eq (Finset.card_range _)

lemma unwritten_mono (h : V ⊆ W) : s.unwritten W ≤ s.unwritten V :=
  Finset.card_le_card (Finset.monotone_filter_right _ fun _ _ => mt (h ·))

lemma unwritten_lt (ht : s.HasType t) (hV : t ∉ V) : s.unwritten (t :: V) < s.unwritten V :=
  card_filter_lt (fun _ => mt (mem_cons_of_mem _)) (Finset.mem_range.mpr ht) hV
    (not_not_intro mem_cons_self)

def OccursIn (s : Store) (ρ : Renumbering) (ts : List TypeId) (u : TypeId) : Prop :=
  ∃ t ∈ ts, s.Occurs ρ t u

/-- Two printings after the same types, up to numbers, give the same text. They write out new types
of `ts` only. -/
structure Written (s : Store) (ρ : Renumbering) (ts V : List TypeId) (q q' : Printing α) : Prop where
  text : (q'.run (V.map ρ.type)).1 = (q.run V).1
  state : (q'.run (V.map ρ.type)).2 = (q.run V).2.map ρ.type
  grows : V ⊆ (q.run V).2
  fresh : ∀ u ∈ (q.run V).2, ρ.NewType u → u ∈ V ∨ s.OccursIn ρ ts u
  once : V.Nodup → (q.run V).2.Nodup

/-- Two printings give the same text if at most `k` types are left, among them all that occur in
`ts`. -/
def Writes (s : Store) (ρ : Renumbering) (ts : List TypeId) (k : Nat) (q q' : Printing α) : Prop :=
  ∀ V, s.unwritten V ≤ k → (∀ u, s.OccursIn ρ ts u → u ∉ V) → s.Written ρ ts V q q'

lemma Apart.not_occursIn (h : s.Apart ρ (ts₁ ++ ts₂)) (h₁ : s.OccursIn ρ ts₁ u) :
    ¬s.OccursIn ρ ts₂ u := by
  rintro ⟨b, hb, hbu⟩
  obtain ⟨a, ha, hau⟩ := h₁
  exact (pairwise_append.mp h).2.2 a ha b hb u hau hbu

namespace Writes

variable {q : Printing α}

lemma pure (a : α) : s.Writes ρ ts k (pure a) (pure a) :=
  fun _ _ _ => ⟨rfl, rfl, fun _ h => h, fun _ h _ => .inl h, id⟩

lemma mono (h : s.Writes ρ ts₁ k q q') (hts : ∀ u, s.OccursIn ρ ts₁ u → s.OccursIn ρ ts₂ u) :
    s.Writes ρ ts₂ k q q' := by
  intro V hk hV
  obtain ⟨htext, hstate, hgrows, hfresh, honce⟩ := h V hk fun u hu => hV u (hts u hu)
  exact ⟨htext, hstate, hgrows, fun u hu hnew => (hfresh u hu hnew).imp_right (hts u), honce⟩

lemma bind (hq : s.Writes ρ ts₁ k q q') (hf : ∀ a, s.Writes ρ ts₂ k (f a) (f' a))
    (hapart : s.Apart ρ (ts₁ ++ ts₂)) : s.Writes ρ (ts₁ ++ ts₂) k (q >>= f) (q' >>= f') := by
  intro V hk hV
  have hleft : ∀ u, s.OccursIn ρ ts₁ u → s.OccursIn ρ (ts₁ ++ ts₂) u :=
    fun u ⟨t, ht, hu⟩ => ⟨t, mem_append_left _ ht, hu⟩
  have hright : ∀ u, s.OccursIn ρ ts₂ u → s.OccursIn ρ (ts₁ ++ ts₂) u :=
    fun u ⟨t, ht, hu⟩ => ⟨t, mem_append_right _ ht, hu⟩
  obtain ⟨htext, hstate, hgrows, hfresh, honce⟩ := hq V hk fun u hu => hV u (hleft u hu)
  -- What is written out second does not occur in what was written out first.
  have hunused : ∀ u, s.OccursIn ρ ts₂ u → u ∉ (q.run V).2 := by
    intro u hu hmem
    have hnew : ρ.NewType u := hu.elim fun t ht => ht.2.newType_right
    rcases hfresh u hmem hnew with hold | hfirst
    · exact hV u (hright u hu) hold
    · exact hapart.not_occursIn hfirst hu
  obtain ⟨htext', hstate', hgrows', hfresh', honce'⟩ :=
    hf (q.run V).1 (q.run V).2 ((unwritten_mono hgrows).trans hk) hunused
  have hrun : (q' >>= f').run (V.map ρ.type) = (f' (q.run V).1).run ((q.run V).2.map ρ.type) := by
    change (f' (q'.run (V.map ρ.type)).1).run (q'.run (V.map ρ.type)).2 = _
    rw [htext, hstate]
  refine ⟨by rw [hrun]; exact htext', by rw [hrun]; exact hstate',
    fun u hu => hgrows' (hgrows hu), fun u hu hnew => ?_, fun hnodup => honce' (honce hnodup)⟩
  rcases hfresh' u hu hnew with hfirst | hsecond
  · exact (hfresh u hfirst hnew).imp_right (hleft u)
  · exact .inr (hright u hsecond)

lemma map (hq : s.Writes ρ ts k q q') (g : α → β) : s.Writes ρ ts k (g <$> q) (g <$> q') := by
  intro V hk hV
  obtain ⟨htext, hstate, hgrows, hfresh, honce⟩ := hq V hk hV
  exact ⟨congrArg g htext, hstate, hgrows, hfresh, honce⟩

lemma mapM {g g' : γ → Printing β} {parts : γ → List TypeId} {as : List γ}
    (hg : ∀ a ∈ as, s.Writes ρ (parts a) k (g a) (g' (r a)))
    (hapart : s.Apart ρ (as.flatMap parts)) :
    s.Writes ρ (as.flatMap parts) k (as.mapM g) ((as.map r).mapM g') := by
  induction as with
  | nil => exact .pure []
  | cons a as ih =>
    rw [flatMap_cons] at hapart ⊢
    rw [map_cons, mapM_cons, mapM_cons]
    refine (hg a (by simp)).bind (fun b => ?_) hapart
    have hrest := ih (fun a ha => hg a (by simp [ha])) (pairwise_append.mp hapart).2.1
    simpa using hrest.map (b :: ·)

lemma mapM_types {g g' : TypeId → Printing β} (hg : ∀ t ∈ ts, s.Writes ρ [t] k (g t) (g' (ρ.type t)))
    (hapart : s.Apart ρ ts) : s.Writes ρ ts k (ts.mapM g) ((ts.map ρ.type).mapM g') := by
  have hparts := flatMap_singleton' ts
  have hall := Writes.mapM hg (by rwa [hparts])
  rwa [hparts] at hall

lemma bind_pure (hq : s.Writes ρ ts k q q') (g : α → β) :
    s.Writes ρ ts k (q >>= fun a => Pure.pure (g a)) (q' >>= fun a => Pure.pure (g a)) := by
  rw [bind_pure_comp, bind_pure_comp]
  exact hq.map g

lemma whole (hs : s.Grown ρ) (hq : s.Writes ρ (s.components t) k q q') : s.Writes ρ [t] k q q' :=
  hq.mono fun _ ⟨_, hk, hu⟩ => ⟨t, mem_singleton_self t, hs.occurs_of_component hk hu⟩

end Writes

lemma Apart.perm (h : s.Apart ρ ts₁) (hperm : ts₁.Perm ts₂) : s.Apart ρ ts₂ :=
  (hperm.pairwise_iff fun hab u hb ha => hab u ha hb).mp h

section Forms

variable {p p' : Option TypeId → Printing String} (hs : s.Grown ρ) (h : s.Shifted ρ s')
variable (hp : ∀ t, s.Writes ρ t.toList k (p t) (p' (t.map ρ.type)))
include hs h hp

lemma writes_printVar (variadic : Bool) (o : ObjectId) :
    s.Writes ρ (s.object o).type.toList k (s.printVar p variadic o)
      (s'.printVar p' variadic (ρ.object o)) := by
  have hplain := hp (s.object o).type
  unfold printVar
  dsimp only
  rw [h.name, h.objectType]
  cases htype : (s.object o).type with
  | none =>
    rw [htype] at hplain
    cases variadic <;> exact hplain.bind_pure _
  | some t =>
    rw [htype] at hplain
    simp only [map_some, bind_some, h.type, sliceElem?_ty]
    cases helem : (s.type t).sliceElem? with
    | none => cases variadic <;> exact hplain.bind_pure _
    | some elem =>
      cases variadic with
      | false => exact hplain.bind_pure _
      | true =>
        have hpart : elem ∈ s.components t := by
          refine mem_append_left _ ?_
          cases ht : s.type t <;> simp_all [Ty.sliceElem?, Ty.typeRefs]
        refine ((hp (some elem)).bind_pure _).mono ?_
        rintro u ⟨w, hw, hu⟩
        obtain rfl : w = elem := by simpa using hw
        exact ⟨t, by simp, hs.occurs_of_component hpart hu⟩

lemma writes_printVars (variadic : Bool) (os : List ObjectId)
    (hapart : s.Apart ρ (os.flatMap fun o => (s.object o).type.toList)) :
    s.Writes ρ (os.flatMap fun o => (s.object o).type.toList) k (s.printVars p variadic os)
      (s'.printVars p' variadic (os.map ρ.object)) := by
  induction os with
  | nil => exact .pure []
  | cons o os ih =>
    rw [flatMap_cons] at hapart ⊢
    simp only [map_cons, printVars, isEmpty_map]
    refine (writes_printVar hs h hp _ o).bind (fun first => ?_) hapart
    exact (ih (pairwise_append.mp hapart).2.1).bind_pure _

lemma writes_printTuple (t : TypeId) (variadic : Bool) :
    s.Writes ρ (s.components t) k (s.printTuple p t variadic)
      (s'.printTuple p' (ρ.type t) variadic) := by
  have hvars : s.tupleVars t = [] ∨
      (s.tupleVars t).flatMap (fun o => (s.object o).type.toList) = s.components t := by
    unfold tupleVars components componentsOf
    cases s.type t with
    | tuple vars => exact .inr (filterMap_eq_flatMap_toList _ _).symm
    | _ => exact .inl rfl
  unfold printTuple
  rw [h.tupleVars]
  refine .bind_pure ?_ _
  rcases hvars with hnone | hall
  · rw [hnone]
    exact .pure []
  · rw [← hall]
    exact writes_printVars hs h hp variadic _ (hall ▸ hs.apart_components t)

lemma writes_printTypeParam (t : TypeId) :
    s.Writes ρ [t] k (s.printTypeParam p t) (s'.printTypeParam p' (ρ.type t)) := by
  unfold printTypeParam
  rw [h.type, typeParam?_ty]
  cases hq : (s.type t).typeParam? with
  | none => exact (hp (some t)).bind_pure _
  | some q =>
    have hparam : s.type t = .typeParam q := by
      cases ht : s.type t <;> simp_all [Ty.typeParam?]
    have hin : s.HasType t := lt_size_of_type_ne (by rw [hparam]; simp)
    have hnone : ∀ u, ¬s.Occurs ρ t u :=
      fun u => hs.not_occurs_of_isNamed hin (by rw [isNamed, hparam]; rfl)
    have hbound : q.bound ∈ s.components t := by
      simp [components, componentsOf, hparam, Ty.typeRefs]
    -- A type parameter has a name, so nothing that is new occurs in it or in its bound.
    have hapart : s.Apart ρ ([t] ++ [q.bound]) := by simp [Apart, hnone]
    refine Writes.mono ((hp (some t)).bind (fun name => (hp (some q.bound)).bind_pure _) hapart) ?_
    rintro u ⟨w, hw, hu⟩
    rcases mem_append.mp hw with hw | hw
    · exact ⟨w, hw, hu⟩
    · obtain rfl := mem_singleton.mp hw
      exact ⟨t, by simp, hs.occurs_of_component hbound hu⟩

lemma writes_printResults (t : TypeId) :
    s.Writes ρ (s.components t) k (s.printResults p t) (s'.printResults p' (ρ.type t)) := by
  have htuple := (writes_printTuple hs h hp t false).bind_pure (" " ++ ·)
  unfold printResults
  rw [h.tupleVars]
  cases hvars : s.tupleVars t with
  | nil => exact .pure ""
  | cons o os =>
    cases os with
    | cons _ _ => exact htuple
    | nil =>
      dsimp only [List.map]
      rw [h.name, h.objectType]
      split
      · refine ((hp (s.object o).type).bind_pure _).mono ?_
        rintro u ⟨w, hw, hu⟩
        refine ⟨w, mem_append_right _ (mem_filterMap.mpr ⟨o, ?_, by simpa using hw⟩), hu⟩
        unfold tupleVars at hvars
        cases ht : s.type t <;> simp_all [Ty.tuple?, Ty.objectRefs]
      · exact htuple

lemma writes_printSignature (t : TypeId) :
    s.Writes ρ (s.components t) k (s.printSignature p t) (s'.printSignature p' (ρ.type t)) := by
  unfold printSignature
  rw [h.type, signature?_ty]
  cases hsig : (s.type t).signature? with
  | none => exact .pure ""
  | some g =>
    have hcomponents : s.components t = g.params :: g.results :: g.typeParams := by
      cases ht : s.type t <;>
        simp_all [Ty.signature?, components, componentsOf, Ty.typeRefs, Ty.objectRefs]
    have hperm : (s.components t).Perm (g.typeParams ++ ([g.params] ++ [g.results])) := by
      rw [hcomponents]
      change ([g.params, g.results] ++ g.typeParams).Perm _
      exact perm_append_comm
    have hapart := (hs.apart_components t).perm hperm
    have hrest : ∀ generic, s.Writes ρ ([g.params] ++ [g.results]) k
        (do
          let params ← s.printTuple p g.params g.variadic
          let results ← s.printResults p g.results
          Pure.pure (generic ++ params ++ results))
        (do
          let params ← s'.printTuple p' (ρ.type g.params) g.variadic
          let results ← s'.printResults p' (ρ.type g.results)
          Pure.pure (generic ++ params ++ results)) := fun generic =>
      ((writes_printTuple hs h hp g.params g.variadic).whole hs).bind
        (fun params => ((writes_printResults hs h hp g.results).whole hs).bind_pure _)
        (pairwise_append.mp hapart).2.1
    suffices hwrites : s.Writes ρ (g.typeParams ++ ([g.params] ++ [g.results])) k _ _ by
      refine hwrites.mono ?_
      rintro u ⟨w, hw, hu⟩
      exact ⟨w, hperm.mem_iff.mpr hw, hu⟩
    simp only [map_some, signature, isEmpty_map, pure_bind]
    split
    · refine (hrest "").mono ?_
      rintro u ⟨w, hw, hu⟩
      exact ⟨w, mem_append_right _ hw, hu⟩
    · exact (Writes.mapM_types (fun a _ => writes_printTypeParam hs h hp a)
        (pairwise_append.mp hapart).1).bind (fun ps => hrest _) hapart

omit hs in
lemma writes_printField (o : ObjectId) :
    s.Writes ρ (s.object o).type.toList k (s.printField p o) (s'.printField p' (ρ.object o)) := by
  unfold printField
  dsimp only
  rw [h.name, h.objectType, h.isEmbedded]
  exact (hp _).bind_pure _

lemma writes_printMethod (o : ObjectId) :
    s.Writes ρ (s.object o).type.toList k (s.printMethod p o) (s'.printMethod p' (ρ.object o)) := by
  unfold printMethod
  dsimp only
  rw [h.name, h.objectType]
  cases (s.object o).type with
  | none => exact .pure _
  | some sig => exact ((writes_printSignature hs h hp sig).whole hs).bind_pure _

lemma writes_printInterface {i : InterfaceType} (ht : s.type t = .interface i) :
    s.Writes ρ (s.components t) k (s.printInterface p i)
      (s'.printInterface p' (ρ.interface i)) := by
  have hperm : (s.components t).Perm
      (i.methods.flatMap (fun o => (s.object o).type.toList) ++ i.terms.getD []) := by
    rw [components, componentsOf, ht, ← filterMap_eq_flatMap_toList]
    exact perm_append_comm
  have hapart := (hs.apart_components t).perm hperm
  have hmethods :=
    Writes.mapM (fun a _ => writes_printMethod hs h hp a) (pairwise_append.mp hapart).1
  suffices hwrites : s.Writes ρ (i.methods.flatMap (fun o => (s.object o).type.toList) ++
      i.terms.getD []) k _ _ by
    refine hwrites.mono ?_
    rintro u ⟨w, hw, hu⟩
    exact ⟨w, hperm.mem_iff.mpr hw, hu⟩
  refine hmethods.bind (fun methods => ?_) hapart
  have hright := (pairwise_append.mp hapart).2.1
  dsimp only [interface]
  cases hi : i.terms with
  | none => exact .pure _
  | some ts =>
    rw [hi] at hright
    have hterms : s.Writes ρ ts k (ts.mapM fun t => p (some t))
        ((ts.map ρ.type).mapM fun t => p' (some t)) :=
      Writes.mapM_types (fun a _ => hp (some a)) hright
    simp only [map_some, pure_bind]
    exact hterms.bind_pure _

/-- Types are written out alike if their parts are. -/
lemma writes_printForm (t : TypeId) :
    s.Writes ρ (s.components t) k (s.printForm p t) (s'.printForm p' (ρ.type t)) := by
  have hapart := hs.apart_components t
  -- the forms with one part, whatever is written around it
  have hpart : ∀ e, (s.type t).typeRefs = [e] → (s.type t).objectRefs = [] → ∀ g : String → String,
      s.Writes ρ (s.components t) k (p (some e) >>= fun a => Pure.pure (g a))
        (p' (some (ρ.type e)) >>= fun a => Pure.pure (g a)) := by
    intro e htypes hobjects g
    rw [components, componentsOf, htypes, hobjects]
    exact (hp (some e)).bind_pure g
  unfold printForm
  rw [h.type]
  cases ht : s.type t with
  | basic b => exact .pure _
  | array n elem | slice elem => exact hpart elem (by rw [ht]; rfl) (by rw [ht]; rfl) _
  | pointer base => exact hpart base (by rw [ht]; rfl) (by rw [ht]; rfl) _
  | chan dir elem =>
    dsimp only [ty]
    rw [h.type, chan?_ty, Option.any_map]
    exact hpart elem (by rw [ht]; rfl) (by rw [ht]; rfl) _
  | struct fields =>
    refine .bind_pure ?_ _
    have hfields : s.components t = fields.flatMap fun o => (s.object o).type.toList := by
      rw [components, componentsOf, ht, ← List.filterMap_eq_flatMap_toList]
      rfl
    rw [hfields] at hapart ⊢
    exact Writes.mapM (fun a _ => writes_printField h hp a) hapart
  | tuple vars => exact writes_printTuple hs h hp t false
  | signature g => exact (writes_printSignature hs h hp t).bind_pure _
  | interface i => exact writes_printInterface hs h hp ht
  | map key elem =>
    have hmap : s.components t = [key] ++ [elem] := by
      rw [components, componentsOf, ht]
      rfl
    rw [hmap] at hapart ⊢
    exact (hp (some key)).bind (fun _ => (hp (some elem)).bind_pure _) hapart
  | named n =>
    dsimp only [ty]
    rw [h.name]
    exact .pure _
  | typeParam q =>
    dsimp only [ty]
    rw [h.name]
    exact .pure _

end Forms

section

variable (hs : s.Grown ρ) (h : s.Shifted ρ s')
include hs h

omit hs h in
lemma run_once (t : TypeId) (q : Printing String) (V : List TypeId) :
    StateT.run (do
      if (← get).contains t then return s!"type#{t.index}"
      modify (t :: ·)
      q) V = if t ∈ V then (s!"type#{t.index}", V) else q.run (t :: V) := by
  by_cases hmem : t ∈ V
  · simp only [StateT.run_bind, StateT.run_get, pure_bind, hmem, contains_eq_mem, decide_true,
      if_true]
    rfl
  · simp only [StateT.run_bind, StateT.run_get, pure_bind, hmem, contains_eq_mem, decide_false,
      Bool.false_eq_true, if_false]
    rfl

omit h in
/-- A type is written out, unless it has been before; then it is an old one. -/
lemma writes_once {q q' : Printing String} (hin : s.HasType t)
    (hq : ∀ j, j < k → s.Writes ρ (s.components t) j q q') :
    s.Writes ρ [t] k
      (do
        if (← get).contains t then return s!"type#{t.index}"
        modify (t :: ·)
        q)
      (do
        if (← get).contains (ρ.type t) then return s!"type#{(ρ.type t).index}"
        modify (ρ.type t :: ·)
        q') := by
  intro V hk hV
  have hmap : ρ.type t ∈ V.map ρ.type ↔ t ∈ V := by simp
  by_cases hmem : t ∈ V
  · -- only old types are written out twice, and these keep the number that is shown
    have hold : ρ.type t = t :=
      type_of_not_new fun hnew => hV t ⟨t, by simp, .self hnew⟩ hmem
    constructor <;> rw [run_once t q V, if_pos hmem]
    · rw [run_once, if_pos (hmap.mpr hmem), hold]
    · rw [run_once, if_pos (hmap.mpr hmem)]
    · exact fun _ hu => hu
    · exact fun u hu _ => .inl hu
    · exact id
  · have hparts : ∀ u, s.OccursIn ρ (s.components t) u → u ∉ t :: V := by
      rintro u ⟨w, hw, hu⟩ hmem
      rcases mem_cons.mp hmem with rfl | hwritten
      · exact hs.not_occurs_of_component hw hu
      · exact hV u ⟨t, by simp, hs.occurs_of_component hw hu⟩ hwritten
    obtain ⟨htext, hstate, hgrows, hfresh, honce⟩ :=
      hq _ (lt_of_lt_of_le (unwritten_lt hin hmem) hk) (t :: V) le_rfl hparts
    constructor <;> rw [run_once t q V, if_neg hmem]
    · rw [run_once, if_neg (mt hmap.mp hmem)]
      exact htext
    · rw [run_once, if_neg (mt hmap.mp hmem)]
      exact hstate
    · exact fun u hu => hgrows (mem_cons_of_mem _ hu)
    · intro u hu hnew
      rcases hfresh u hu hnew with hbefore | ⟨w, hw, hwu⟩
      · rcases mem_cons.mp hbefore with rfl | hwritten
        · exact .inr ⟨u, by simp, .self hnew⟩
        · exact .inl hwritten
      · exact .inr ⟨t, by simp, hs.occurs_of_component hw hwu⟩
    · exact fun hnodup => honce (nodup_cons.mpr ⟨hmem, hnodup⟩)

/-- A type is printed alike if its parts are. -/
lemma writes_printStep
    (hp : ∀ j, j < k → ∀ t, s.Writes ρ t.toList j (p t) (p' (t.map ρ.type))) (t : Option TypeId) :
    s.Writes ρ t.toList k (s.printStep p t) (s'.printStep p' (t.map ρ.type)) := by
  cases t with
  | none => exact .pure _
  | some t =>
    simp only [map_some, printStep, h.isNamed, type_eq_any]
    split
    · exact .pure _
    · by_cases hnamed : s.isNamed t
      · -- The name of a type does not depend on its parts.
        rw [if_pos hnamed, if_pos hnamed, printForm, printForm, h.type]
        unfold isNamed at hnamed
        cases ht : s.type t <;> simp_all [Ty.isNamed, ty, h.name] <;> exact .pure _
      · rw [if_neg hnamed, if_neg hnamed]
        have hin : s.HasType t := lt_size_of_type_ne fun hbasic => hnamed (by
          rw [isNamed, hbasic]
          rfl)
        exact writes_once hs hin fun j hj => writes_printForm hs h (hp j hj) t

/-- Deep enough, it does not matter what stands in for the levels below. -/
lemma writes_printStep_iterate (p p' : Option TypeId → Printing String) (hn : k < n) (hm : k < m)
    (t : Option TypeId) :
    s.Writes ρ t.toList k (s.printStep^[n] p t) (s'.printStep^[m] p' (t.map ρ.type)) := by
  induction k using Nat.strong_induction_on generalizing n m t with
  | _ k ih =>
    obtain ⟨n, rfl⟩ : ∃ i, n = i + 1 := ⟨n - 1, by omega⟩
    obtain ⟨m, rfl⟩ : ∃ i, m = i + 1 := ⟨m - 1, by omega⟩
    rw [Function.iterate_succ_apply', Function.iterate_succ_apply']
    exact writes_printStep hs h (fun j hj t => ih j hj (by omega) (by omega) t) t

omit hs h in
lemma printWithin_eq_iterate (n : Nat) : s.printWithin n = s.printStep^[n] fun _ => pure "" := by
  induction n with
  | zero => rfl
  | succ n ih =>
    rw [Function.iterate_succ_apply', ← ih]
    rfl

end

namespace Shifted

variable (h : s.Shifted ρ s') (hg : s.Grown ρ)
include h hg

lemma typeTextOf (t : Option TypeId) : s'.typeTextOf (t.map ρ.type) = s.typeTextOf t := by
  have hwrites := writes_printStep_iterate hg h (k := s.types.size) (n := s.types.size + 2)
    (m := s'.types.size + 2) (fun _ => pure "") (fun _ => pure "") (by omega)
    (by have := h.size_le; omega) t
  rw [Store.typeTextOf, printWithin_eq_iterate, Store.typeTextOf, printWithin_eq_iterate]
  exact (hwrites [] (s.unwritten_le []) fun _ _ => not_mem_nil).text

lemma typeText (t : TypeId) : s'.typeText (ρ.type t) = s.typeText t := h.typeTextOf hg (some t)

variable (hs : s.Ordered)
include hs

lemma summaryEntry (variadicLast : Bool) (t : Option TypeId) :
    s'.summaryEntry variadicLast (t.map ρ.type) = s.summaryEntry variadicLast t := by
  unfold Store.summaryEntry
  cases t with
  | none => rfl
  | some t =>
    dsimp only [map_some]
    rw [h.isInvalid hs, h.typeText hg, h.type]
    split
    · rfl
    · cases s.type t with
      | slice elem =>
        dsimp only [ty]
        rw [h.typeText hg]
      | _ => rfl

lemma summaryEntries (variadic : Bool) (types : List (Option TypeId)) :
    s'.summaryEntries variadic (types.map (·.map ρ.type)) = s.summaryEntries variadic types := by
  induction types with
  | nil => rfl
  | cons t ts ih =>
    rw [map_cons, Store.summaryEntries, Store.summaryEntries, ih, h.summaryEntry hg hs, isEmpty_map]

lemma summary (types : List (Option TypeId)) (variadic : Bool) :
    s'.summary (types.map (·.map ρ.type)) variadic = s.summary types variadic := by
  rw [Store.summary, h.summaryEntries hg hs]
  rfl

omit hs in
lemma methodText (m : ObjectId) : s'.methodText (ρ.object m) = s.methodText m := by
  unfold Store.methodText
  dsimp only
  rw [h.name, h.objectType, h.typeTextOf hg]

omit hg in
lemma selectsField (t : TypeId) (name : String) :
    s'.selectsField (ρ.type t) name = s.selectsField t name := by
  unfold Store.selectsField
  rw [h.select hs]
  cases s.select t true name with
  | entry o path indirect => exact h.isVar o
  | _ => rfl

lemma lackingText (v : TypeId) (l : Lacking) :
    s'.lackingText (ρ.type v) (ρ.lacking l) = s.lackingText v l := by
  unfold Store.lackingText
  cases l with dsimp only [lacking]
  | wrongType want found => rw [h.name, h.methodText hg, h.methodText hg]
  | pointerReceiver m => rw [h.name]
  | missing m => rw [h.name, h.isInterfacePointer hs, h.selectsField hs, h.typeText hg]

lemma unsatisfiedText (v t : TypeId) (r : Unsatisfied) :
    s'.unsatisfiedText (ρ.type v) (ρ.type t) (ρ.unsatisfied r) = s.unsatisfiedText v t r := by
  cases r with
  | notInterface =>
    simp only [unsatisfied, Store.unsatisfiedText, h.typeText hg, h.underlying hs,
      h.isInterfacePointer hs]
  | constraint => simp only [unsatisfied, Store.unsatisfiedText, h.typeText hg]
  | lacking l => simp only [unsatisfied, Store.unsatisfiedText, h.typeText hg, h.lackingText hg hs]

variable (x : Operand)

omit hg hs in
lemma isNil : (ρ.operand x).isNil s' = x.isNil s := by
  unfold Operand.isNil
  rw [operand_mode, operand_type, Option.any_map]
  simp only [h.type, basic?_ty]

omit hs in
lemma describeNil (t : Option TypeId) :
    Operand.describeNil s' (t.map ρ.type) = Operand.describeNil s t := by
  cases t with
  | none => rfl
  | some t => simp only [Operand.describeNil, map_some, type_eq_invalid, h.isUntyped, h.typeText hg]

omit hg in
lemma formBefore (t : TypeId) : Operand.formBefore s' (ρ.type t) = Operand.formBefore s t := by
  unfold Operand.formBefore
  rw [h.type, h.formWord hs, h.shape hs, basic?_ty]
  cases s.type t <;> rfl

lemma describeType (t : TypeId) :
    Operand.describeType s' (ρ.type t) = Operand.describeType s t := by
  unfold Operand.describeType
  rw [h.formBefore hs, h.typeText hg, h.type, typeParam?_ty]
  simp only [type_eq_invalid]
  cases (s.type t).typeParam? with
  | none => rfl
  | some q => simp only [map_some, h.typeText hg]

lemma describeParts (expr : String) :
    (ρ.operand x).describeParts s' expr = x.describeParts s expr := by
  have hshown : (ρ.operand x).shownType? = x.shownType?.map ρ.type := by
    unfold Operand.shownType?
    rw [operand_mode]
    cases x.mode <;> rfl
  unfold Operand.describeParts
  rw [hshown, operand_mode]
  cases x.shownType? with
  | none => rfl
  | some t =>
    dsimp only [map_some]
    rw [h.type, h.describeType hg hs]
    cases s.type t <;> rfl

lemma describe : (ρ.operand x).describe s' = x.describe s := by
  unfold Operand.describe
  simp only [operand_mode, operand_type, operand_expr,
    operand_exprText, h.describeNil hg, h.describeParts hg hs, h.typeTextOf hg]

end Shifted

/-! ## Conversions -/

variable {ρ : Renumbering} {s s' : Store} {t u : TypeId} {x : Operand}

/-- The place of a type in the store; types that are not in it come last. -/
def place (s : Store) (t : TypeId) : Nat := min t.index s.types.size

lemma place_le (s : Store) (t : TypeId) : s.place t ≤ s.types.size := Nat.min_le_right _ _

lemma Ordered.place_lt_of_mem_terms (hs : s.Ordered) (hu : u ∈ s.terms t) :
    s.place u < s.place t := by
  have := hs.index_lt_of_mem_terms hu
  unfold place
  omega

namespace Shifted

variable (h : s.Shifted ρ s') (hs : s.Ordered)
include h hs

lemma misfit (old new : TypeId) : s'.misfit (ρ.type old) (ρ.type new) = s.misfit old new := by
  simp only [Store.misfit, h.isNumeric hs, h.isInteger hs]

lemma represented (x : Operand) (t : TypeId) :
    s'.represented (ρ.operand x) (ρ.type t) = s.represented x t := by
  simp only [Store.represented, operand_mode, operand_typeOrInvalid, h.type, basic?_ty, h.misfit hs]

omit hs in
lemma largerUntyped? (t u : TypeId) :
    s'.largerUntyped? (ρ.type t) (ρ.type u) = (s.largerUntyped? t u).map ρ.type := by
  simp only [Store.largerUntyped?, type_inj, h.type, h.isUntypedNumeric]
  split
  · rfl
  · cases s.type t with
    | basic j =>
      cases s.type u with
      | basic k =>
        dsimp only [ty]
        split
        · split <;> rfl
        · rfl
      | _ => rfl
    | _ => rfl

lemma admitsUntyped (k : BasicKind) (t : TypeId) :
    s'.admitsUntyped k (ρ.type t) = s.admitsUntyped k t := by
  unfold Store.admitsUntyped
  rw [h.isBoolean hs, h.isNumeric hs, h.isString hs]

lemma implicitBasic (x : Operand) (old t : TypeId) :
    s'.implicitBasic (ρ.operand x) (ρ.type old) (ρ.type t) =
      (s.implicitBasic x old t).map ρ.implicit := by
  unfold Store.implicitBasic
  rw [operand_mode, h.underlying hs, h.represented hs, h.type, basic?_ty]
  simp only [h.admitsUntyped hs]
  split
  · cases s.represented x (s.underlying t) <;> rfl
  · split <;> rfl

lemma implicitWith (hadmits : ∀ t, admits' (ρ.type t) = admits t)
    (x : Operand) (t : TypeId) : s'.implicitWith admits' (ρ.operand x) (ρ.type t) =
      (s.implicitWith admits x t).map ρ.implicit := by
  unfold Store.implicitWith
  rw [operand_type, operand_isInvalid, h.isNil]
  cases x.type with
  | none => rfl
  | some v =>
    simp only [Option.map_some, h.isUntyped, h.isInvalid hs, h.largerUntyped?, h.hasNil hs,
      h.shape hs, h.terms hs, h.isTypeParam, List.isEmpty_map, List.all_map, Function.comp_def,
      hadmits, h.defaultType, h.implicitBasic hs]
    split
    · rfl
    · split
      · cases s.largerUntyped? v t <;> rfl
      · split
        · split <;> rfl
        · cases s.shape t with
          | interface i =>
            dsimp only [ty]
            rw [isEmpty_interface]
            split
            · split <;> rfl
            · split <;> rfl
          | _ => rfl

omit h hs in
lemma givesType (r : Except Fault Implicit) :
    Store.givesType (r.map ρ.implicit) = Store.givesType r := by
  cases r with
  | error _ => rfl
  | ok i => exact isSome_map

lemma admitsTerm (x : Operand) (t : TypeId) :
    s'.admitsTerm (ρ.operand x) (ρ.type t) = s.admitsTerm x t := by
  unfold Store.admitsTerm
  rw [h.underlying hs, h.implicitWith hs (fun _ => rfl), givesType]

lemma implicit (x : Operand) (t : TypeId) :
    s'.implicit (ρ.operand x) (ρ.type t) = (s.implicit x t).map ρ.implicit :=
  h.implicitWith hs (h.admitsTerm hs x) x t

lemma probeUnsatisfied (v t : TypeId) : s'.probeUnsatisfied (ρ.type v) (ρ.type t) =
    (fun r => r.map ρ.unsatisfied) <$> s.probeUnsatisfied v t := by
  unfold Store.probeUnsatisfied
  rw [h.unsatisfied? hs]
  cases hr : s.unsatisfied? v t with
  | none => rfl
  | some r =>
    cases r with
    | lacking l =>
      have hname : (s'.object (ρ.lacking l).method).name = (s.object l.method).name := by
        cases l <;> exact h.name _
      simp only [map_some, unsatisfied, hname]
      rfl
    | _ => rfl

lemma probeUnsatisfied_bind (v t : TypeId) (f : Option Unsatisfied → Probe β) :
    s'.probeUnsatisfied (ρ.type v) (ρ.type t) >>= f =
      s.probeUnsatisfied v t >>= fun r => f (r.map ρ.unsatisfied) := by
  rw [h.probeUnsatisfied hs, bind_map_left]

lemma assignUntyped (x : Operand) (t : TypeId) :
    s'.assignUntyped (ρ.operand x) (ρ.type t) = s.assignUntyped x t := by
  simp only [Store.assignUntyped, h.isTypeParam, h.terms hs, List.isEmpty_map, List.all_map,
    Function.comp_def, h.implicit hs, givesType]

omit hs in
lemma oneUnnamed (v t : TypeId) : s'.oneUnnamed (ρ.type v) (ρ.type t) = s.oneUnnamed v t := by
  simp only [Store.oneUnnamed, h.isNamed]

lemma asksForMethods (t : TypeId) : s'.asksForMethods (ρ.type t) = s.asksForMethods t := by
  simp only [Store.asksForMethods, h.isPlainInterface hs, h.underlying hs, h.isInterfacePointer hs]

lemma assignChannel? (v t : TypeId) :
    s'.assignChannel? (ρ.type v) (ρ.type t) = s.assignChannel? v t := by
  unfold Store.assignChannel?
  rw [h.shape hs, h.shape hs, h.oneUnnamed]
  cases s.shape v with
  | chan dir a =>
    cases dir <;> cases s.shape t <;> try rfl
    dsimp only [ty]
    rw [h.identical]
  | _ => rfl

variable {ts : List TypeId}

omit h hs in
lemma probeAll (hask : ∀ t ∈ ts, ask' (ρ.type t) = ask t) :
    GoCheck.probeAll ask' (ts.map ρ.type) = GoCheck.probeAll ask ts := by
  induction ts with
  | nil => rfl
  | cons t ts ih =>
    rw [map_cons, GoCheck.probeAll, GoCheck.probeAll, hask t (by simp),
      ih fun u hu => hask u (by simp [hu])]

section Assign

variable (hg : s.Grown ρ) {assign assign' : Operand → TypeId → Probe Verdict}
variable (hto : ∀ u ∈ s.terms t, assign' (ρ.operand x) (ρ.type u) = assign x u)
variable (hfrom : ∀ u ∈ s.terms v,
  assign' (ρ.operand { x with type := some u }) (ρ.type t) = assign { x with type := some u } t)
include hg hto hfrom

lemma assignTerms : s'.assignTerms assign' (ρ.operand x) (ρ.type v) (ρ.type t) =
    s.assignTerms assign x v t := by
  simp only [Store.assignTerms, h.isNamed, h.isTypeParam, h.terms hs, isEmpty_map]
  split
  · split
    · rfl
    · refine probeAll fun u hu => ?_
      rw [hto u hu, h.typeText hg, h.typeText hg, h.typeText hg]
  · split
    · split
      · rfl
      · refine probeAll fun u hu => ?_
        rw [← hfrom u hu, h.typeText hg, h.typeText hg, h.typeText hg]
        rfl
    · rfl

lemma assignOther : s'.assignOther assign' (ρ.operand x) (ρ.type v) (ρ.type t) =
    s.assignOther assign x v t := by
  rw [assignOther_eq, assignOther_eq, h.assignTerms hs hg hto hfrom, h.assignChannel? hs,
    h.isPlainInterface hs]
  simp only [h.probeUnsatisfied_bind hs, isNone_map]

lemma assignTyped : s'.assignTyped assign' (ρ.operand x) (ρ.type v) (ρ.type t) =
    s.assignTyped assign x v t := by
  unfold Store.assignTyped
  rw [h.assignOther hs hg hto hfrom]
  simp only [h.underlying hs, h.identical, h.oneUnnamed, h.isTypeParam, h.asksForMethods hs,
    h.probeUnsatisfied_bind hs]
  split
  · rfl
  · split
    · congr 1
      funext r
      cases r with
      | none => rfl
      | some r => simp only [map_some, h.unsatisfiedText hg hs]
    · rfl

end Assign

variable (hg : s.Grown ρ)
include hg

lemma assignStep {assign assign' : Operand → TypeId → Probe Verdict}
    (hto : ∀ u ∈ s.terms t, assign' (ρ.operand x) (ρ.type u) = assign x u)
    (hfrom : ∀ v ∈ x.type, ∀ u ∈ s.terms v,
      assign' (ρ.operand { x with type := some u }) (ρ.type t) =
        assign { x with type := some u } t) :
    s'.assignStep assign' (ρ.operand x) (ρ.type t) = s.assignStep assign x t := by
  unfold Store.assignStep
  rw [operand_type, operand_isInvalid]
  cases hx : x.type with
  | none => rfl
  | some v =>
    simp only [map_some, type_eq_invalid, h.identical, h.underlying hs,
      h.isUntyped, h.assignUntyped hs, h.assignTyped hs hg hto (hfrom v hx)]

omit h hs hg in
/-- Questions that have the same answer, deep enough, if those about lower types have it. -/
lemma descent {β : Type} {p q : Nat → Operand → TypeId → β} {f : Operand → Operand}
    {g : TypeId → TypeId} (hstep : ∀ n m x t, (∀ y u, s.place y.typeOrInvalid + s.place u <
        s.place x.typeOrInvalid + s.place t → q m (f y) (g u) = p n y u) →
      q (m + 1) (f x) (g t) = p (n + 1) x t) (hn : 2 * s.types.size < n)
    (hm : 2 * s.types.size < m) (x : Operand) (t : TypeId) : q m (f x) (g t) = p n x t := by
  have hdeep : ∀ n m x t, s.place x.typeOrInvalid + s.place t < n →
      s.place x.typeOrInvalid + s.place t < m → q m (f x) (g t) = p n x t := by
    intro n
    induction n with
    | zero => omega
    | succ n ih =>
      intro m x t hn hm
      obtain ⟨m, rfl⟩ : ∃ i, m = i + 1 := ⟨m - 1, by omega⟩
      exact hstep n m x t fun y u hlt => ih m y u (by omega) (by omega)
  have := s.place_le x.typeOrInvalid
  have := s.place_le t
  exact hdeep n m x t (by omega) (by omega)

omit hs hg in
lemma lt_termDepth : 2 * s.types.size < s.termDepth ∧ 2 * s.types.size < s'.termDepth := by
  have := h.size_le
  unfold termDepth
  omega

omit h hg in
lemma place_add_lt (hv : v ∈ x.type) (hu : u ∈ s.terms v)
    (hw : w = t ∨ w ∈ s.terms t) : s.place u + s.place w < s.place x.typeOrInvalid + s.place t := by
  have hlt := hs.place_lt_of_mem_terms hu
  have hx : x.typeOrInvalid = v := by simp [Operand.typeOrInvalid, mem_def.mp hv]
  rw [hx]
  rcases hw with rfl | hw
  · omega
  · have := hs.place_lt_of_mem_terms hw
    omega

lemma assign (x : Operand) (t : TypeId) : s'.assign (ρ.operand x) (ρ.type t) = s.assign x t :=
  descent (fun _ _ x t ih => h.assignStep hs hg
    (fun u hu => ih x u (Nat.add_lt_add_left (hs.place_lt_of_mem_terms hu) _))
    fun _ hv _ hu => ih _ t (place_add_lt hs hv hu (.inl rfl)))
    h.lt_termDepth.1 h.lt_termDepth.2 x t

omit hg in
lemma convertConstant? (x : Operand) (c : Constant) (t : TypeId) :
    s'.convertConstant? (ρ.operand x) c (ρ.type t) = s.convertConstant? x c t := by
  unfold Store.convertConstant?
  rw [h.shape hs, basic?_ty, operand_type, h.isString hs]
  cases x.type with
  | none => rfl
  | some v => simp only [map_some, bind_eq_bind, bind_some, h.isInteger hs]

omit hg in
lemma isBytesOrRunes (t : TypeId) : s'.isBytesOrRunes (ρ.type t) = s.isBytesOrRunes t := by
  unfold Store.isBytesOrRunes
  rw [h.shape hs]
  cases s.shape t with
  | slice elem =>
    dsimp only [ty]
    rw [h.shape hs, basic?_ty]
  | _ => rfl

omit hg in
lemma convertsPointer (v t : TypeId) :
    s'.convertsPointer (ρ.type v) (ρ.type t) = s.convertsPointer v t := by
  unfold Store.convertsPointer
  rw [h.type, h.type]
  cases s.type v with
  | pointer a =>
    cases s.type t with
    | pointer b => simp only [ty, h.underlying hs, h.identical, h.isTypeParam]
    | _ => rfl
  | _ => rfl

omit hg in
lemma arrayElem? (t : TypeId) : s'.arrayElem? (ρ.type t) = (s.arrayElem? t).map ρ.type := by
  unfold Store.arrayElem?
  rw [h.shape hs]
  cases s.shape t with
  | pointer base =>
    dsimp only [ty]
    rw [h.shape hs, array?_ty]
    cases (s.shape base).array? <;> rfl
  | _ => rfl

omit hg in
lemma convertsSlice (v t : TypeId) :
    s'.convertsSlice (ρ.type v) (ρ.type t) = s.convertsSlice v t := by
  unfold Store.convertsSlice
  rw [h.shape hs, h.arrayElem? hs]
  cases s.shape v with
  | slice elem =>
    cases s.arrayElem? t with
    | none => rfl
    | some e => exact h.identical elem e
  | _ => rfl

omit hg in
lemma convertsPlainly (v t : TypeId) :
    s'.convertsPlainly (ρ.type v) (ρ.type t) = s.convertsPlainly v t := by
  simp only [Store.convertsPlainly, Store.convertsBasic, Store.isIntegerOrFloat, h.underlying hs,
    h.identical, h.isTypeParam, h.convertsPointer hs, h.isInteger hs, h.isFloat hs, h.isComplex hs,
    h.isString hs, h.isBytesOrRunes hs, h.convertsSlice hs]

omit h hs hg in
lemma convertAll (hask : ∀ t ∈ ts, ask' (ρ.type t) = ask t) :
    Store.convertAll ask' (ts.map ρ.type) = Store.convertAll ask ts := by
  induction ts with
  | nil => rfl
  | cons t ts ih =>
    rw [map_cons, Store.convertAll, Store.convertAll, hask t (by simp),
      ih fun u hu => hask u (by simp [hu])]

omit hs in
lemma termText (t : TypeId) (of : Option TypeId) :
    s'.termText (ρ.type t) (of.map ρ.type) = s.termText t of := by
  cases of with
  | none => simp only [Store.termText, map_none, elim_none, h.typeText hg]
  | some p => simp only [Store.termText, map_some, elim_some, h.typeText hg]

omit hg in
lemma lacksTerms (v t : TypeId) : s'.lacksTerms (ρ.type v) (ρ.type t) = s.lacksTerms v t := by
  simp only [Store.lacksTerms, h.isTypeParam, h.isEmpty_terms hs]

lemma convertTerms {convert convert' : Operand → TypeId → Probe Outcome}
    (hto : ∀ u ∈ s.terms t, convert' (ρ.operand x) (ρ.type u) = convert x u)
    (hfrom : ∀ u ∈ s.terms v,
      convert' (ρ.operand { x with type := some u }) (ρ.type t) = convert { x with type := some u } t)
    (hboth : ∀ u ∈ s.terms v, ∀ w ∈ s.terms t,
      convert' (ρ.operand { x with type := some u }) (ρ.type w) =
        convert { x with type := some u } w) :
    s'.convertTerms convert' (ρ.operand x) (ρ.type v) (ρ.type t) = s.convertTerms convert x v t := by
  simp only [Store.convertTerms, h.isTypeParam, h.terms hs]
  cases hv : s.isTypeParam v with
  | true =>
    cases ht : s.isTypeParam t with
    | true =>
      refine convertAll fun a ha => convertAll fun b hb => ?_
      rw [← hboth a ha b hb, ← h.termText hg, ← h.termText hg]
      rfl
    | false =>
      refine convertAll fun a ha => ?_
      rw [← hfrom a ha, ← h.termText hg, ← h.termText hg]
      rfl
  | false =>
    cases ht : s.isTypeParam t with
    | true =>
      refine convertAll fun b hb => ?_
      rw [← hto b hb, ← h.termText hg, ← h.termText hg]
      rfl
    | false => rfl

lemma convertStep {convert convert' : Operand → TypeId → Probe Outcome}
    (hto : ∀ u ∈ s.terms t, convert' (ρ.operand x) (ρ.type u) = convert x u)
    (hfrom : ∀ v ∈ x.type, ∀ u ∈ s.terms v, ∀ w, w = t ∨ w ∈ s.terms t →
      convert' (ρ.operand { x with type := some u }) (ρ.type w) =
        convert { x with type := some u } w) :
    s'.convertStep convert' (ρ.operand x) (ρ.type t) = s.convertStep convert x t := by
  unfold Store.convertStep
  rw [h.assign hs hg]
  congr 1
  funext verdict
  cases verdict with
  | ok _ => rfl
  | error r =>
    rw [operand_type]
    cases hx : x.type with
    | none => rfl
    | some v =>
      have hterms := h.convertTerms hs hg hto (fun u hu => hfrom v hx u hu t (.inl rfl))
        fun u hu w hw => hfrom v hx u hu w (.inr hw)
      simp only [map_some, h.convertsPlainly hs, h.lacksTerms hs, hterms]

lemma convert (x : Operand) (t : TypeId) : s'.convert (ρ.operand x) (ρ.type t) = s.convert x t :=
  descent (fun _ _ x _ ih => h.convertStep hs hg
    (fun u hu => ih x u (Nat.add_lt_add_left (hs.place_lt_of_mem_terms hu) _))
    fun _ hv _ hu w hw => ih _ w (place_add_lt hs hv hu hw))
    h.lt_termDepth.1 h.lt_termDepth.2 x t

end Shifted

end Store

end GoCheck
