import GoCheck.Proofs.Identity.Decision

/-!
# The depth of comparisons

The comparison of two types need not end, since a host may make types that contain themselves. But
if it ends, it keeps within the depth allowed for it: a pair can return only when pairs of
interfaces have been met in between or a term has been entered, and after a term only pairs are left
that take fewer levels.
-/

namespace GoCheck

open Option Finset Compare Nat

variable {as : List α}

namespace Store

variable {s : Store} {f g : TypeId → TypeId → Compare Bool} {c c' : Compare Bool} {x y : TypeId}
  {met met' : List (TypeId × TypeId)}

/-- Pairs met at a later time: no pair has been added, or fewer are left. -/
def Later (s : Store) (met met' : List (TypeId × TypeId)) : Prop :=
  met' = met ∨ s.unmet met' < s.unmet met

lemma Later.refl : s.Later met met := .inl rfl

lemma Later.trans (h : s.Later met met₁) (h' : s.Later met₁ met') : s.Later met met' := by
  rcases h with rfl | h
  · exact h'
  · rcases h' with rfl | h'
    · exact .inr h
    · exact .inr (lt_trans h' h)

/-- At two types `f` gives up and `g` does not: terms, or types that are compared later. -/
def Stalls (s : Store) (f g : TypeId → TypeId → Compare Bool) (met : List (TypeId × TypeId)) : Prop :=
  ∃ a b met', (f a b).run met' = none ∧ ((g a b).run met').isSome = true ∧
    (met' = [] ∨ s.Later met met')

lemma Stalls.of_later (h : s.Later met met₁) (hf : s.Stalls f g met₁) : s.Stalls f g met := by
  obtain ⟨a, b, met', hnone, hsome, hmet⟩ := hf
  exact ⟨a, b, met', hnone, hsome, hmet.imp_right h.trans⟩

/-- A comparison answers as a deeper one, unless it gives up where the deeper one does not. -/
structure Tracks (s : Store) (f g : TypeId → TypeId → Compare Bool) (c c' : Compare Bool)
    (met : List (TypeId × TypeId)) : Prop where
  same : ∀ r, c.run met = some r → c'.run met = some r
  later : ∀ b met', c'.run met = some (b, met') → s.Later met met'
  stalls : c.run met = none → (c'.run met).isSome = true → s.Stalls f g met

namespace Tracks

lemma pure (b : Bool) : s.Tracks f g (pure b) (pure b) met :=
  ⟨fun _ h => h, fun _ _ h => .inl (run_pure_eq_some.mp h).2, nofun⟩

lemma bind (hc : s.Tracks f g c c' met)
    (hk : ∀ b met₁, c'.run met = some (b, met₁) → s.Tracks f g (k b) (k' b) met₁) :
    s.Tracks f g (c >>= k) (c' >>= k') met where
  same := by
    rintro ⟨b, met'⟩ h
    obtain ⟨a, met₁, ha, hrest⟩ := run_bind_eq_some.mp h
    have ha' := hc.same _ ha
    exact run_bind_eq_some.mpr ⟨a, met₁, ha', (hk a met₁ ha').same _ hrest⟩
  later b met' h := by
    obtain ⟨a, met₁, ha, hrest⟩ := run_bind_eq_some.mp h
    exact (hc.later a met₁ ha).trans ((hk a met₁ ha).later b met' hrest)
  stalls hnone hsome := by
    obtain ⟨⟨b, met'⟩, hrun⟩ := isSome_iff_exists.mp hsome
    obtain ⟨a, met₁, ha, hrest⟩ := run_bind_eq_some.mp hrun
    cases hfirst : c.run met with
    | none => exact hc.stalls hfirst (by rw [ha]; rfl)
    | some r =>
      cases (hc.same r hfirst).symm.trans ha
      have hlast : (k a).run met₁ = none := by
        rw [StateT.run_bind, hfirst] at hnone
        exact hnone
      exact ((hk a met₁ ha).stalls hlast (by rw [hrest]; rfl)).of_later (hc.later a met₁ ha)

lemma anyM (hh : ∀ a ∈ as, ∀ met₁, s.Tracks f g (h a) (h' a) met₁) :
    s.Tracks f g (as.anyM h) (as.anyM h') met := by
  induction as generalizing met with
  | nil => exact .pure false
  | cons a as ih =>
    rw [List.anyM, List.anyM]
    refine (hh a (by simp) met).bind fun b met₁ _ => ?_
    cases b with
    | true => exact .pure true
    | false => exact ih fun a ha => hh a (by simp [ha])

lemma allM (hh : ∀ a ∈ as, ∀ met₁, s.Tracks f g (h a) (h' a) met₁) :
    s.Tracks f g (as.allM h) (as.allM h') met := by
  simp only [List.allM_eq_not_anyM_not, map_eq_pure_bind]
  exact (anyM fun a ha met₁ => (hh a ha met₁).bind fun _ _ _ => .pure _).bind fun _ _ _ => .pure _

end Tracks

section Step

variable (hsame : ∀ a b met r, (f a b).run met = some r → (g a b).run met = some r)
variable (hlater : ∀ a b met c met', (g a b).run met = some (c, met') → s.Later met met')
include hsame

lemma tracks_separately (a b : TypeId) :
    s.Tracks f g (f a b).separately (g a b).separately met where
  same := by
    rintro ⟨r, met'⟩ h
    obtain ⟨rfl, met₁, hrun⟩ := run_separately_eq_some.mp h
    exact run_separately_eq_some.mpr ⟨rfl, met₁, hsame _ _ _ _ hrun⟩
  later r met' h := .inl (run_separately_eq_some.mp h).1
  stalls hnone hsome := by
    obtain ⟨⟨r, met'⟩, hrun⟩ := isSome_iff_exists.mp hsome
    obtain ⟨rfl, met₁, hrun⟩ := run_separately_eq_some.mp hrun
    refine ⟨a, b, [], ?_, by rw [hrun]; rfl, .inl rfl⟩
    exact map_eq_none_iff.mp hnone

lemma tracks_compareTerms (ts us : Option (List TypeId)) :
    s.Tracks f g (compareTerms f ts us) (compareTerms g ts us) met := by
  unfold compareTerms
  split
  · exact .pure true
  · split
    · exact .allM fun a _ _ => .anyM fun b _ _ => tracks_separately hsame a b
    · exact .pure false
  · exact .pure false

include hlater

lemma tracks_pair (a b : TypeId) : s.Tracks f g (f a b) (g a b) met where
  same := hsame a b met
  later := hlater a b met
  stalls hnone hsome := ⟨a, b, met, hnone, hsome, .inr .refl⟩

lemma tracks_compareParts (ps : List Part) :
    s.Tracks f g (compareParts f ps) (compareParts g ps) met := by
  refine .allM fun p _ met₁ => ?_
  cases p with
  | differ => exact .pure false
  | pair a b => exact tracks_pair hsame hlater a b

lemma tracks_compareMethods (a b : ObjectId) :
    s.Tracks f g (s.compareMethods f a b) (s.compareMethods g a b) met := by
  unfold compareMethods
  split
  · rw [compareObjectTypes_eq, compareObjectTypes_eq]
    exact tracks_compareParts hsame hlater _
  · exact .pure false

/-- Two interfaces. The pair is noted first, so that fewer pairs are left from then on. -/
lemma tracks_compareInterfaces (i j : InterfaceType) (hx : x.index < s.types.size)
    (hy : y.index < s.types.size) :
    s.Tracks f g (s.compareInterfaces f x y i j) (s.compareInterfaces g x y i j) met := by
  let methods (f : TypeId → TypeId → Compare Bool) (b : Bool) : Compare Bool := fun met₁ =>
    if b = false then some (false, met₁)
    else if (x, y) ∈ met₁ then some (true, met₁)
    else (i.methods.allM fun a => j.methods.anyM fun c => s.compareMethods f a c).run
      ((x, y) :: met₁)
  have hmethods : ∀ b met₁, s.Tracks f g (methods f b) (methods g b) met₁ := by
    intro b met₁
    by_cases hb : b = false
    · subst hb
      exact .pure false
    · by_cases hmem : (x, y) ∈ met₁
      · have hanswer : ∀ f, (methods f b).run met₁ = some (true, met₁) := fun f => by
          simp [methods, StateT.run, hb, hmem]
        exact ⟨fun r hr => by rw [hanswer] at hr ⊢; exact hr,
          fun c met' hr => by rw [hanswer] at hr; cases hr; exact .refl,
          fun hr => by simp [hanswer] at hr⟩
      · -- the pair is met from here on, which is what the depth is measured by
        have hnoted : s.Later met₁ ((x, y) :: met₁) :=
          .inr (s.unmet_lt (List.subset_cons_self _ _) hx hy hmem List.mem_cons_self)
        have hall : s.Tracks f g
            (i.methods.allM fun a => j.methods.anyM fun c => s.compareMethods f a c)
            (i.methods.allM fun a => j.methods.anyM fun c => s.compareMethods g a c)
            ((x, y) :: met₁) :=
          .allM fun a _ _ => .anyM fun c _ _ => tracks_compareMethods hsame hlater a c
        have hanswer : ∀ f, (methods f b).run met₁ =
            (i.methods.allM fun a => j.methods.anyM fun c => s.compareMethods f a c).run
              ((x, y) :: met₁) := fun f => by
          simp [methods, StateT.run, hb, hmem]
        constructor
        · simpa only [hanswer] using hall.same
        · intro c met' hr
          rw [hanswer] at hr
          exact hnoted.trans (hall.later c met' hr)
        · intro hnone hsome
          rw [hanswer] at hnone hsome
          exact (hall.stalls hnone hsome).of_later hnoted
  have hrun : ∀ f, (s.compareInterfaces f x y i j).run met =
      if i.methods.length = j.methods.length then
        (compareTerms f i.terms j.terms >>= methods f).run met
      else some (false, met) := fun f => run_compareInterfaces
  have hterms : s.Tracks f g (compareTerms f i.terms j.terms) (compareTerms g i.terms j.terms) met :=
    tracks_compareTerms hsame i.terms j.terms
  have hboth := hterms.bind fun b met₁ _ => hmethods b met₁
  by_cases hlen : i.methods.length = j.methods.length
  · simp only [hlen, if_true] at hrun
    exact ⟨by simpa only [hrun] using hboth.same, by simpa only [hrun] using hboth.later,
      by simpa only [hrun] using hboth.stalls⟩
  · simp only [hlen, if_false] at hrun
    exact ⟨fun r hr => by rw [hrun] at hr ⊢; exact hr,
      fun c met' hr => by rw [hrun] at hr; cases hr; exact .refl,
      fun hr => by simp [hrun] at hr⟩

lemma tracks_identityStep (x y : TypeId) (met : List (TypeId × TypeId)) :
    s.Tracks f g (s.identityStep f x y) (s.identityStep g x y) met := by
  by_cases hxy : x = y
  · rw [identityStep, identityStep, if_pos hxy, if_pos hxy]
    exact .pure true
  · rcases s.interfaces_or x y with ⟨i, j, hx, hy⟩ | hni
    · simp only [identityStep, if_neg hxy, hx, hy]
      exact tracks_compareInterfaces hsame hlater i j (lt_size_of_interface hx)
        (lt_size_of_interface hy)
    · rw [identityStep_eq_compareParts hxy hni, identityStep_eq_compareParts hxy hni]
      exact tracks_compareParts hsame hlater _

end Step

lemma later_identicalWithin (n : Nat) (x y : TypeId) (met : List (TypeId × TypeId)) (b : Bool)
    (met' : List (TypeId × TypeId)) (h : (s.identicalWithin n x y).run met = some (b, met')) :
    s.Later met met' := by
  induction n generalizing x y met b met' with
  | zero => cases h
  | succ n ih => exact (tracks_identityStep (fun _ _ _ _ h => h) ih x y met).later b met' h

lemma run_identicalWithin_succ (n : Nat) (x y : TypeId) (met : List (TypeId × TypeId))
    (r : Bool × List (TypeId × TypeId)) (h : (s.identicalWithin n x y).run met = some r) :
    (s.identicalWithin (n + 1) x y).run met = some r := by
  induction n generalizing x y met r with
  | zero => cases h
  | succ n ih => exact (tracks_identityStep ih (later_identicalWithin _) x y met).same r h

lemma run_identicalWithin_mono (hmn : m ≤ n) (h : (s.identicalWithin m x y).run met = some r) :
    (s.identicalWithin n x y).run met = some r := by
  induction hmn with
  | refl => exact h
  | step _ ih => exact run_identicalWithin_succ _ _ _ _ _ ih

/-- A comparison takes `d + 1` levels and no fewer. -/
structure EndsAt (s : Store) (d : Nat) (x y : TypeId) (met : List (TypeId × TypeId)) : Prop where
  undecided : (s.identicalWithin d x y).run met = none
  ends : ((s.identicalWithin (d + 1) x y).run met).isSome = true

/-- The pairs of types of the store whose comparison ends within a depth. -/
def ended (s : Store) (d : Nat) (met : List (TypeId × TypeId)) : Finset (Nat × Nat) :=
  (range s.types.size ×ˢ range s.types.size).filter
    fun p => ((s.identicalWithin d ⟨p.1⟩ ⟨p.2⟩).run met).isSome = true

lemma mem_ended : p ∈ s.ended d met ↔ (p.1 < s.types.size ∧ p.2 < s.types.size) ∧
      ((s.identicalWithin d ⟨p.1⟩ ⟨p.2⟩).run met).isSome := by
  simp [ended]

lemma card_ended_le (s : Store) (d : Nat) (met : List (TypeId × TypeId)) :
    (s.ended d met).card ≤ s.types.size * s.types.size := by
  refine (card_filter_le _ _).trans_eq ?_
  rw [card_product, card_range]

lemma ended_subset (s : Store) (d : Nat) (met : List (TypeId × TypeId)) :
    s.ended d met ⊆ s.ended (d + 1) met := by
  intro p hp
  obtain ⟨hin, hsome⟩ := mem_ended.mp hp
  obtain ⟨r, hr⟩ := isSome_iff_exists.mp hsome
  exact mem_ended.mpr ⟨hin, by rw [run_identicalWithin_succ _ _ _ _ _ hr]; rfl⟩

lemma EndsAt.card_lt (h : s.EndsAt d x y met) (hx : x.index < s.types.size)
    (hy : y.index < s.types.size) : (s.ended d met).card < (s.ended (d + 1) met).card := by
  refine card_lt_card ⟨ended_subset s d met, fun hsub => ?_⟩
  have hmem : (x.index, y.index) ∈ s.ended (d + 1) met := mem_ended.mpr ⟨⟨hx, hy⟩, h.ends⟩
  have hbefore := (mem_ended.mp (hsub hmem)).2
  have hopen := h.undecided
  simp [hopen] at hbefore

lemma identityStep_congr (h : ¬(x.index < s.types.size ∧ y.index < s.types.size)) :
    s.identityStep f x y = s.identityStep g x y := by
  unfold identityStep
  split
  · rfl
  · rcases lt_or_ge x.index s.types.size with hx | hx
    · have hy : s.type y = .basic .invalid := type_of_size_le (by omega)
      rw [hy]
      cases s.type x <;> rfl
    · rw [type_of_size_le hx]
      cases s.type y <;> rfl

lemma EndsAt.lt_size (h : s.EndsAt (d + 1) x y met) :
    x.index < s.types.size ∧ y.index < s.types.size := by
  by_contra hout
  have hopen := h.undecided
  have hends := h.ends
  rw [identicalWithin, identityStep_congr hout] at hopen
  rw [identicalWithin, hopen] at hends
  cases hends

lemma EndsAt.exists_part (h : s.EndsAt (d + 1) x y met) :
    ∃ a b met', s.EndsAt d a b met' ∧ (met' = [] ∨ s.Later met met') := by
  obtain ⟨a, b, met', hnone, hsome, hmet⟩ :=
    (tracks_identityStep (run_identicalWithin_succ d) (later_identicalWithin _) x y met).stalls
      h.undecided h.ends
  exact ⟨a, b, met', ⟨hnone, hsome⟩, hmet⟩

/-- The levels of a comparison: pairs that end from the start, pairs not met, pairs that end now. -/
lemma EndsAt.le_measure (h : s.EndsAt d x y met) :
    d ≤ (s.types.size * s.types.size + 1) * (s.types.size * s.types.size + 1) *
        (s.ended d []).card +
      (s.types.size * s.types.size + 1) * s.unmet met + (s.ended (d + 1) met).card := by
  induction d generalizing x y met with
  | zero => exact zero_le _
  | succ d ih =>
    obtain ⟨a, b, met', hpart, hmet⟩ := h.exists_part
    have hle := ih hpart
    have hlt := h.card_lt h.lt_size.1 h.lt_size.2
    have hstart := card_le_card (s.ended_subset d [])
    have hpairs := s.card_ended_le (d + 1) met'
    have hunmet := s.unmet_le met'
    generalize s.types.size * s.types.size = q at *
    have hstart' := mul_le_mul_left ((q + 1) * (q + 1)) hstart
    rcases hmet with rfl | rfl | hless
    · -- A term: the pairs that end from the start are fewer by this one.
      by_cases hin : a.index < s.types.size ∧ b.index < s.types.size
      · have hfewer := mul_le_mul_left ((q + 1) * (q + 1))
          (succ_le_of_lt (hpart.card_lt hin.1 hin.2))
        have hrest := mul_le_mul_left (q + 1) hunmet
        have hsquare : (q + 1) * q + q + 1 = (q + 1) * (q + 1) := by ring
        rw [mul_succ] at hfewer
        omega
      · cases d with
        | zero => omega
        | succ d => exact absurd hpart.lt_size hin
    · omega
    · have hfewer := mul_le_mul_left (q + 1) (succ_le_of_lt hless)
      rw [mul_succ] at hfewer
      omega

lemma EndsAt.lt_identityDepth (h : s.EndsAt d x y []) : d < s.identityDepth := by
  have hle := h.le_measure
  have hstart := s.card_ended_le d []
  have hpairs := s.card_ended_le (d + 1) []
  have hunmet := s.unmet_le []
  unfold identityDepth
  generalize s.types.size * s.types.size = q at *
  have hstart' := mul_le_mul_left ((q + 1) * (q + 1)) hstart
  have hunmet' := mul_le_mul_left (q + 1) hunmet
  have hcube : (q + 1) * (q + 1) * q + (q + 1) * q + q + 1 = (q + 1) * (q + 1) * (q + 1) := by ring
  dsimp only
  omega

/-- A depth greater than the one allowed gives no other answer. -/
lemma run_identicalWithin_eq (hn : s.identityDepth ≤ n) (x y : TypeId) :
    (s.identicalWithin n x y).run [] = (s.identicalWithin s.identityDepth x y).run [] := by
  cases hrun : (s.identicalWithin n x y).run [] with
  | none =>
    cases hdepth : (s.identicalWithin s.identityDepth x y).run [] with
    | none => rfl
    | some r => exact (hrun.symm.trans (run_identicalWithin_mono hn hdepth))
  | some r =>
    have hends : ∃ m, ((s.identicalWithin m x y).run []).isSome := ⟨n, by rw [hrun]; rfl⟩
    obtain ⟨d, hd⟩ : ∃ d, Nat.find hends = d + 1 := by
      refine Nat.exists_eq_succ_of_ne_zero fun hzero => ?_
      have hspec := Nat.find_spec hends
      rw [hzero] at hspec
      cases hspec
    have hat : s.EndsAt d x y [] := by
      refine ⟨?_, hd ▸ Nat.find_spec hends⟩
      have hmin := Nat.find_min hends (m := d) (by omega)
      simpa using hmin
    obtain ⟨r', hr'⟩ := isSome_iff_exists.mp hat.ends
    have hdepth := run_identicalWithin_mono hat.lt_identityDepth hr'
    rw [hdepth, ← hrun, run_identicalWithin_mono hn hdepth]

end Store

end GoCheck
