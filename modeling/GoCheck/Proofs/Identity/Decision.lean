import GoCheck.Proofs.Identity.Rules
import GoCheck.Proofs.Reach
import Mathlib.Data.Finset.Prod
import Mathlib.Tactic.IntervalCases
import Mathlib.Tactic.Ring

/-!
# Comparison decides identity

A comparison that answers true has gone through the methods of each pair of interfaces that it
added, so all it accepted keeps to the rules of identity. And it ends: a term is not left for good,
a method is followed only after a new pair has been noted, and other references lead on without a
circle.
-/

namespace GoCheck

open List Option Compare

variable {met met' : List (TypeId × TypeId)} {b : Bool} {f : TypeId → TypeId → Compare Bool}
  {cs : List TypeId} {a : ObjectId} {i j : InterfaceType}

namespace Compare

lemma run_pure_eq_some {a a' : α} :
    (pure a : Compare α).run met = some (a', met') ↔ a' = a ∧ met' = met := by
  simp [eq_comm]

lemma run_bind_eq_some {c : Compare α} {b : β} : (c >>= g).run met = some (b, met') ↔
      ∃ a met₁, c.run met = some (a, met₁) ∧ (g a).run met₁ = some (b, met') := by
  simp [bind_eq_some_iff]

lemma run_separately_eq_some {c : Compare Bool} : c.separately.run met = some (b, met') ↔
      met' = met ∧ ∃ met₁, c.run [] = some (b, met₁) := by
  constructor
  · intro h
    obtain ⟨⟨c, met₁⟩, hrun, heq⟩ := map_eq_some_iff.mp h
    cases heq
    exact ⟨rfl, met₁, hrun⟩
  · rintro ⟨rfl, met₁, hrun⟩
    exact map_eq_some_iff.mpr ⟨_, hrun, rfl⟩

lemma run_allM_cons_eq_some {as : List γ} {g : γ → Compare Bool} {a : γ} :
    ((a :: as).allM g).run met = some (b, met') ↔ (g a).run met = some (false, met') ∧ b = false ∨
        ∃ met₁, (g a).run met = some (true, met₁) ∧ (as.allM g).run met₁ = some (b, met') := by
  rw [allM, run_bind_eq_some, Bool.exists_bool]
  simp

lemma run_anyM_cons_eq_some {as : List γ} {g : γ → Compare Bool} {a : γ} :
    ((a :: as).anyM g).run met = some (b, met') ↔ (g a).run met = some (true, met') ∧ b ∨
        ∃ met₁, (g a).run met = some (false, met₁) ∧ (as.anyM g).run met₁ = some (b, met') := by
  rw [anyM, run_bind_eq_some, Bool.exists_bool, or_comm]
  simp

end Compare

namespace Store

variable {s : Store} {n : Nat} {x y : TypeId} {as cs : List TypeId}

/-- A comparison at most `n` deep accepts two types and has met no other pairs than those given. -/
def Accepted (s : Store) (n : Nat) (pairs : List (TypeId × TypeId)) (x y : TypeId) : Prop :=
  ∃ k ≤ n, ∃ met met', (s.identicalWithin k x y).run met = some (true, met') ∧ met' ⊆ pairs

lemma Accepted.mono (hn : n ≤ n') (hp : pairs ⊆ pairs') (h : s.Accepted n pairs x y) :
    s.Accepted n' pairs' x y := by
  obtain ⟨k, hk, met, met', hrun, hsub⟩ := h
  exact ⟨k, Nat.le_trans hk hn, met, met', hrun, Subset.trans hsub hp⟩

/-- Two interfaces with related methods. -/
def MethodsAgree (s : Store) (R : TypeId → TypeId → Prop) (x y : TypeId) : Prop :=
  ∃ i j, s.type x = .interface i ∧ s.type y = .interface j ∧
    Matched (s.MethodsRelated R) i.methods j.methods

lemma MethodsAgree.mono (hR : ∀ a b, R a b → R' a b)
    (h : s.MethodsAgree R x y) : s.MethodsAgree R' x y := by
  obtain ⟨i, j, hi, hj, hm⟩ := h
  exact ⟨i, j, hi, hj, hm.mono fun _ _ hab => hab.mono hR⟩

/-- Pairs that were met before, or interfaces whose methods have been compared since. -/
def Justified (s : Store) (n : Nat) (met met' : List (TypeId × TypeId)) : Prop :=
  ∀ p ∈ met', p ∈ met ∨ s.MethodsAgree (s.Accepted n met') p.1 p.2

lemma Justified.refl : s.Justified n met met := fun _ hp => .inl hp

lemma Justified.mono (hn : n ≤ n') (h : s.Justified n met met') : s.Justified n' met met' :=
  fun p hp => (h p hp).imp_right (.mono fun _ _ => .mono hn (Subset.refl _))

lemma Justified.trans (h : s.Justified n met met₁) (hsub : met₁ ⊆ met')
    (h' : s.Justified n met₁ met') : s.Justified n met met' := by
  intro p hp
  rcases h' p hp with hp₁ | hagree
  · exact (h p hp₁).imp_right (.mono fun _ _ => .mono (Nat.le_refl _) hsub)
  · exact .inr hagree

/-- What a comparison finds out about a condition: it adds to the pairs met, true means that the
condition holds under them, and false that it does not hold of identity. -/
structure Finds (s : Store) (n : Nat) (Φ : (TypeId → TypeId → Prop) → Prop)
    (met : List (TypeId × TypeId)) (b : Bool) (met' : List (TypeId × TypeId)) : Prop where
  grows : met ⊆ met'
  justified : b = true → s.Justified n met met'
  accepts : b = true → ∀ pairs, met' ⊆ pairs → Φ (s.Accepted n pairs)
  refuses : b = false → ¬ Φ s.Identical

lemma Finds.of_true (h : ∀ R, Φ R) : s.Finds n Φ met true met :=
  ⟨Subset.refl _, fun _ => .refl, fun _ _ _ => h _, nofun⟩

lemma Finds.of_false (h : ∀ R, ¬ Φ R) : s.Finds n Φ met false met :=
  ⟨Subset.refl _, nofun, nofun, fun _ => h _⟩

lemma Finds.congr (hΦ : ∀ R, Φ R ↔ Ψ R) (h : s.Finds n Φ met b met') : s.Finds n Ψ met b met' :=
  ⟨h.grows, h.justified, fun hb pairs hp => (hΦ _).mp (h.accepts hb pairs hp),
    fun hb hid => h.refuses hb ((hΦ _).mpr hid)⟩

lemma finds_allM {g : α → Compare Bool} {Ψ : α → (TypeId → TypeId → Prop) → Prop} {as : List α}
    (hg : ∀ a ∈ as, ∀ {met b met'}, (g a).run met = some (b, met') → s.Finds n (Ψ a) met b met')
    (h : (as.allM g).run met = some (b, met')) :
    s.Finds n (fun R => ∀ a ∈ as, Ψ a R) met b met' := by
  induction as generalizing met with
  | nil =>
    cases h
    exact .of_true (by simp)
  | cons a as ih =>
    rcases run_allM_cons_eq_some.mp h with ⟨ha, rfl⟩ | ⟨met₁, ha, has⟩
    · have hfa := hg a (by simp) ha
      exact ⟨hfa.grows, nofun, nofun, fun _ hall => hfa.refuses rfl (hall a (by simp))⟩
    · have hfa := hg a (by simp) ha
      have hfas := ih (fun c hc => hg c (by simp [hc])) has
      refine ⟨Subset.trans hfa.grows hfas.grows,
        fun hb => (hfa.justified rfl).trans hfas.grows (hfas.justified hb), ?_, ?_⟩
      · intro hb pairs hp c hc
        rcases mem_cons.mp hc with rfl | hc
        · exact hfa.accepts rfl pairs (Subset.trans hfas.grows hp)
        · exact hfas.accepts hb pairs hp c hc
      · exact fun hb hall => hfas.refuses hb fun c hc => hall c (by simp [hc])

lemma run_compareInterfaces :
    (s.compareInterfaces f x y i j).run met = if i.methods.length = j.methods.length then
        ((compareTerms f i.terms j.terms).run met).bind fun (c, met₁) =>
          if c = false then some (false, met₁) else if (x, y) ∈ met₁ then some (true, met₁)
          else (i.methods.allM fun a => j.methods.anyM fun c => s.compareMethods f a c).run
            ((x, y) :: met₁) else some (false, met) := by
  unfold compareInterfaces
  by_cases hlen : i.methods.length = j.methods.length
  · rw [if_neg (not_not_intro hlen), if_pos hlen, StateT.run_bind]
    refine congrArg (Option.bind _) (funext ?_)
    rintro ⟨c, met₁⟩
    cases c with
    | false => rfl
    | true =>
      by_cases hmem : (x, y) ∈ met₁
      · simp [hmem]
      · simp [hmem]
  · rw [if_pos hlen, if_neg hlen]
    rfl

section Step

variable (hf : ∀ {a b met c met'}, (f a b).run met = some (c, met') → s.Finds n (fun R => R a b) met c met')
include hf

lemma finds_compareParts {ps : List Part} (h : (compareParts f ps).run met = some (b, met')) :
    s.Finds n (fun R => ∀ p ∈ ps, p.Holds R) met b met' := by
  refine finds_allM (fun p _ met c met' hp => ?_) h
  cases p with
  | differ =>
    cases hp
    exact .of_false fun _ h => h
  | pair a b => exact hf hp

lemma finds_compareMethods {a c : ObjectId}
    (h : (s.compareMethods f a c).run met = some (b, met')) :
    s.Finds n (fun R => s.MethodsRelated R a c) met b met' := by
  unfold compareMethods at h
  split at h
  · rename_i hname
    rw [compareObjectTypes_eq] at h
    exact (finds_compareParts hf h).congr fun R => by simp [MethodsRelated, hname, holds_objectParts]
  · rename_i hname
    cases h
    exact .of_false fun _ h => hname h.1

/-- Among methods with different names, only one is compared in earnest, so pairs met do no harm. -/
lemma finds_anyMethod {cs : List ObjectId} (hcs : (cs.map fun m => (s.object m).name).Nodup)
    (h : (cs.anyM fun c => s.compareMethods f a c).run met = some (b, met')) :
    s.Finds n (fun R => ∃ c ∈ cs, s.MethodsRelated R a c) met b met' := by
  induction cs generalizing met with
  | nil =>
    cases h
    exact .of_false (by simp)
  | cons c cs ih =>
    obtain ⟨hnot, hcs⟩ := nodup_cons.mp hcs
    rcases run_anyM_cons_eq_some.mp h with ⟨hc, rfl⟩ | ⟨met₁, hc, hrest⟩
    · have hfc := finds_compareMethods hf hc
      exact ⟨hfc.grows, hfc.justified,
        fun hb pairs hp => ⟨c, by simp, hfc.accepts hb pairs hp⟩, nofun⟩
    · have hfc := finds_compareMethods hf hc
      have hfr := ih hcs hrest
      have hrefuses : b = false → ¬ ∃ d ∈ c :: cs, s.MethodsRelated s.Identical a d := by
        rintro hb ⟨d, hd, had⟩
        rcases mem_cons.mp hd with rfl | hd
        · exact hfc.refuses rfl had
        · exact hfr.refuses hb ⟨d, hd, had⟩
      by_cases hname : (s.object a).name = (s.object c).name
      · have hb : b ≠ true := by
          intro hb
          obtain ⟨d, hd, had⟩ := hfr.accepts hb met' (Subset.refl _)
          exact hnot (mem_map.mpr ⟨d, hd, had.1.symm.trans hname⟩)
        exact ⟨Subset.trans hfc.grows hfr.grows, fun h => absurd h hb, fun h => absurd h hb, hrefuses⟩
      · rw [compareMethods, if_neg hname] at hc
        obtain ⟨-, rfl⟩ := run_pure_eq_some.mp hc
        refine ⟨hfr.grows, hfr.justified, fun hb pairs hp => ?_, hrefuses⟩
        obtain ⟨d, hd, had⟩ := hfr.accepts hb pairs hp
        exact ⟨d, by simp [hd], had⟩

lemma finds_methods {as cs : List ObjectId} (hcs : (cs.map fun m => (s.object m).name).Nodup)
    (h : (as.allM fun a => cs.anyM fun c => s.compareMethods f a c).run met = some (b, met')) :
    s.Finds n (fun R => ∀ a ∈ as, ∃ c ∈ cs, s.MethodsRelated R a c) met b met' :=
  finds_allM (fun _ _ _ _ _ ha => finds_anyMethod hf hcs ha) h

/-- Terms are compared from the start, so that a comparison of terms leaves no pairs behind. -/
lemma run_anyTerm {a : TypeId}
    (h : (cs.anyM fun c => (f a c).separately).run met = some (b, met')) :
    met' = met ∧ (b → ∃ c ∈ cs, ∃ met₁, (f a c).run [] = some (true, met₁)) ∧
      (b = false → ∀ c ∈ cs, ¬ s.Identical a c) := by
  induction cs generalizing met with
  | nil =>
    cases h
    exact ⟨rfl, nofun, by simp⟩
  | cons c cs ih =>
    rcases run_anyM_cons_eq_some.mp h with ⟨hc, rfl⟩ | ⟨met₁, hc, hrest⟩
    · obtain ⟨rfl, hrun⟩ := run_separately_eq_some.mp hc
      exact ⟨rfl, fun _ => ⟨c, by simp, hrun⟩, nofun⟩
    · obtain ⟨rfl, met₂, hrun⟩ := run_separately_eq_some.mp hc
      obtain ⟨rfl, htrue, hfalse⟩ := ih hrest
      refine ⟨rfl, fun hb => ?_, fun hb d hd => ?_⟩
      · obtain ⟨d, hd, hrun⟩ := htrue hb
        exact ⟨d, by simp [hd], hrun⟩
      · rcases mem_cons.mp hd with rfl | hd
        · exact (hf hrun).refuses rfl
        · exact hfalse hb d hd

lemma run_allTerms
    (h : (as.allM fun a => cs.anyM fun c => (f a c).separately).run met = some (b, met')) :
    met' = met ∧ (b → ∀ a ∈ as, ∃ c ∈ cs, ∃ met₁, (f a c).run [] = some (true, met₁)) ∧
      (b = false → ¬ ∀ a ∈ as, ∃ c ∈ cs, s.Identical a c) := by
  induction as generalizing met with
  | nil =>
    cases h
    exact ⟨rfl, by simp, nofun⟩
  | cons a as ih =>
    rcases run_allM_cons_eq_some.mp h with ⟨ha, rfl⟩ | ⟨met₁, ha, has⟩
    · obtain ⟨rfl, -, hfalse⟩ := run_anyTerm hf ha
      refine ⟨rfl, nofun, fun _ hall => ?_⟩
      obtain ⟨c, hc, hac⟩ := hall a (by simp)
      exact hfalse rfl c hc hac
    · obtain ⟨rfl, htrue, -⟩ := run_anyTerm hf ha
      obtain ⟨rfl, htrue', hfalse'⟩ := ih has
      refine ⟨rfl, fun hb => ?_, fun hb hall => hfalse' hb fun d hd => hall d (by simp [hd])⟩
      intro d hd
      rcases mem_cons.mp hd with rfl | hd
      · exact htrue rfl
      · exact htrue' hb d hd

/-- Two lists of terms of one length, each of the first accepted together with one of the second. -/
lemma run_compareTerms (h : (compareTerms f ts us).run met = some (b, met')) : met' = met ∧
      (b → Rel (fun as cs => as.length = cs.length ∧
        ∀ a ∈ as, ∃ c ∈ cs, ∃ met₁, (f a c).run [] = some (true, met₁)) ts us) ∧
      (b = false → ¬ Rel (Matched s.Identical) ts us) := by
  cases ts with
  | none =>
    cases us with
    | none =>
      cases h
      exact ⟨rfl, fun _ => .none, nofun⟩
    | some cs =>
      cases h
      exact ⟨rfl, nofun, fun _ => nofun⟩
  | some as =>
    cases us with
    | none =>
      cases h
      exact ⟨rfl, nofun, fun _ => nofun⟩
    | some cs =>
      simp only [compareTerms] at h
      split at h
      · rename_i hlen
        obtain ⟨rfl, htrue, hfalse⟩ := run_allTerms hf h
        refine ⟨rfl, fun hb => .some ⟨hlen, htrue hb⟩, fun hb hrel => ?_⟩
        cases hrel with
        | some hm => exact hfalse hb hm.2.1
      · rename_i hlen
        cases h
        refine ⟨rfl, nofun, fun _ hrel => ?_⟩
        cases hrel with
        | some hm => exact hlen hm.1

/-- A comparison of two interfaces that succeeds has noted the pair, unless it was met before. -/
lemma finds_compareInterfaces (hnames : s.NamesDistinct)
    (hx : s.type x = .interface i) (hy : s.type y = .interface j)
    (h : (s.compareInterfaces f x y i j).run met = some (b, met')) : met ⊆ met' ∧
      (b → s.Justified n met met' ∧ (x, y) ∈ met' ∧
        Rel (fun as cs => as.length = cs.length ∧
          ∀ a ∈ as, ∃ c ∈ cs, ∃ met₁, (f a c).run [] = some (true, met₁)) i.terms j.terms) ∧
      (b = false → ¬ s.SameForm s.Identical (.interface i) (.interface j)) := by
  rw [run_compareInterfaces] at h
  split at h
  · rename_i hlen
    obtain ⟨⟨c, met₁⟩, hterms, h⟩ := bind_eq_some_iff.mp h
    obtain ⟨rfl, htrue, hfalse⟩ := run_compareTerms hf hterms
    cases c with
    | false =>
      cases h
      refine ⟨Subset.refl _, nofun, fun _ hsame => ?_⟩
      cases hsame with
      | interface _ ht => exact hfalse rfl ht
    | true =>
      by_cases hmem : (x, y) ∈ met₁
      · simp only [hmem] at h
        cases h
        exact ⟨Subset.refl _, fun _ => ⟨.refl, hmem, htrue rfl⟩, nofun⟩
      · simp only [hmem] at h
        have hfind := finds_methods hf (hnames y j hy) h
        have hxy : (x, y) ∈ met' := hfind.grows (by simp)
        refine ⟨Subset.trans (subset_cons_self _ _) hfind.grows, fun hb => ⟨?_, hxy, htrue rfl⟩, ?_⟩
        · -- the pair itself is justified by the methods that have just been compared
          intro p hp
          rcases hfind.justified hb p hp with hp | hagree
          · rcases mem_cons.mp hp with rfl | hp
            · refine .inr ⟨i, j, hx, hy, .of_left hlen ?_ ?_⟩
              · exact (pairwise_map.mp (hnames x i hx)).imp
                  fun hne c hac hac' => hne (hac.1.trans hac'.1.symm)
              · exact hfind.accepts hb met' (Subset.refl _)
            · exact .inl hp
          · exact .inr hagree
        · intro hb hsame
          cases hsame with
          | interface hm _ => exact hfind.refuses hb hm.2.1
  · rename_i hlen
    cases h
    refine ⟨Subset.refl _, nofun, fun _ hsame => ?_⟩
    cases hsame with
    | interface hm _ => exact hlen hm.1

end Step

lemma Finds.of_run (hrun : (s.identicalWithin n x y).run met = some (b, met'))
    (hgrows : met ⊆ met') (hjust : b → s.Justified n met met')
    (hrefuses : b = false → ¬ s.Identical x y) : s.Finds n (fun R => R x y) met b met' :=
  ⟨hgrows, hjust, fun hb _ hp => ⟨n, Nat.le_refl n, met, met', hb ▸ hrun, hp⟩, hrefuses⟩

/-- What a comparison finds out. The pairs that a deeper one adds are justified even if it fails. -/
lemma identicalWithin_finds (hnames : s.NamesDistinct)
    (h : (s.identicalWithin n x y).run met = some (b, met')) :
    s.Finds n (fun R => R x y) met b met' := by
  induction n generalizing x y met b met' with
  | zero => cases h
  | succ n ih =>
    have hstep : (s.identityStep (s.identicalWithin n) x y).run met = some (b, met') := h
    by_cases hxy : x = y
    · rw [identityStep, if_pos hxy] at hstep
      cases hstep
      exact .of_run h (Subset.refl _) (fun _ => .refl) nofun
    · rcases s.interfaces_or x y with ⟨i, j, hx, hy⟩ | hni
      · simp only [identityStep, if_neg hxy, hx, hy] at hstep
        obtain ⟨hgrows, htrue, hfalse⟩ := finds_compareInterfaces ih hnames hx hy hstep
        refine .of_run h hgrows (fun hb => (htrue hb).1.mono (Nat.le_succ n)) fun hb hid => ?_
        rcases hid.rule with heq | hsame
        · exact hxy heq
        · exact hfalse hb (by rwa [hx, hy] at hsame)
      · rw [identityStep_eq_compareParts hxy hni] at hstep
        have hfind := finds_compareParts ih hstep
        refine .of_run h hfind.grows (fun hb => (hfind.justified hb).mono (Nat.le_succ n))
          fun hb hid => ?_
        rcases hid.rule with heq | hsame
        · exact hxy heq
        · exact hfind.refuses hb ((sameForm_iff_parts hni).mp hsame)

/-- Terms that are pairwise not identical match an equally long list that has them all. -/
lemma matched_of_terms (hlen : as.length = cs.length)
    (has : as.Pairwise fun a c => ¬ s.Identical a c) (h : ∀ a ∈ as, ∃ c ∈ cs, s.Identical a c) :
    Matched s.Identical as cs :=
  .of_left hlen (has.imp fun hne _ hac hac' => hne (hac.trans hac'.symm)) h

/-- A comparison from the start accepts identical types only, as every pair it relies on has been
compared. -/
lemma identical_of_run (hnames : s.NamesDistinct) (hterms : s.TermsDistinct)
    (h : (s.identicalWithin n x y).run [] = some (true, met')) : s.Identical x y := by
  induction n using Nat.strongRecOn generalizing x y met' with
  | ind n ih =>
    have hjust := (identicalWithin_finds hnames h).justified rfl
    -- with the identical pairs, the accepted ones are closed under the rules
    refine .of_closed (R := fun a b => s.Accepted n met' a b ∨ s.Identical a b) ?_
      (.inl ⟨n, Nat.le_refl n, [], met', h, Subset.refl _⟩)
    rintro a c (⟨k, hk, met₁, met₂, hrun, hsub⟩ | hid)
    · cases k with
      | zero => cases hrun
      | succ k =>
        have hstep : (s.identityStep (s.identicalWithin k) a c).run met₁ = some (true, met₂) := hrun
        have hfind : ∀ {a c met d met'}, (s.identicalWithin k a c).run met = some (d, met') →
            s.Finds k (fun R => R a c) met d met' := fun h => identicalWithin_finds hnames h
        by_cases hac : a = c
        · exact .inl hac
        · refine .inr ?_
          rcases s.interfaces_or a c with ⟨i, j, hi, hj⟩ | hni
          · simp only [identityStep, if_neg hac, hi, hj] at hstep
            obtain ⟨-, htrue, -⟩ := finds_compareInterfaces hfind hnames hi hj hstep
            obtain ⟨-, hmem, hts⟩ := htrue rfl
            obtain ⟨i', j', hi', hj', hm⟩ := (hjust (a, c) (hsub hmem)).resolve_left (by simp)
            cases hi.symm.trans hi'
            cases hj.symm.trans hj'
            rw [hi, hj]
            refine .interface (hm.mono fun _ _ h => h.mono fun _ _ => .inl) ?_
            generalize hti : i.terms = ti, htj : j.terms = tj at hts
            cases hts with
            | none => exact .none
            | some hts =>
              -- terms are compared from the start, so only the induction says what that means
              obtain ⟨hlen, hall⟩ := hts
              have hmatch := matched_of_terms hlen (hterms a i _ hi hti) fun a' ha' => by
                obtain ⟨c', hc', met₃, hrun'⟩ := hall a' ha'
                exact ⟨c', hc', ih k (by omega) hrun'⟩
              exact .some (hmatch.mono fun _ _ => .inr)
          · rw [identityStep_eq_compareParts hac hni] at hstep
            have hparts := (finds_compareParts hfind hstep).accepts rfl met' hsub
            refine (sameForm_iff_parts hni).mpr fun p hp => (hparts p hp).mono fun _ _ h => ?_
            exact .inl (h.mono (by omega) (Subset.refl _))
    · exact hid.rule.mono fun _ _ => .inr

end Store

end GoCheck

/-! ## Comparisons end -/

namespace GoCheck

open List Nat

variable {met met' : List (TypeId × TypeId)} {i : InterfaceType}

/-- A comparison ends, and has only added to the pairs met. -/
def Compare.Ends (c : Compare Bool) (met : List (TypeId × TypeId)) : Prop :=
  ∃ b met', c.run met = some (b, met') ∧ met ⊆ met'

namespace Compare

lemma Ends.pure (b : Bool) : Ends (Pure.pure b) met := ⟨b, met, rfl, Subset.refl _⟩

variable {c : Compare Bool}

lemma Ends.separately (h : c.Ends []) : c.separately.Ends met := by
  obtain ⟨b, met₁, hrun, -⟩ := h
  exact ⟨b, met, run_separately_eq_some.mpr ⟨rfl, met₁, hrun⟩, Subset.refl _⟩

lemma Ends.bind {k : Bool → Compare Bool} (hc : c.Ends met)
    (hk : ∀ b met₁, met ⊆ met₁ → (k b).Ends met₁) : (c >>= k).Ends met := by
  obtain ⟨b, met₁, hb, hsub⟩ := hc
  obtain ⟨b', met', hb', hsub'⟩ := hk b met₁ hsub
  exact ⟨b', met', run_bind_eq_some.mpr ⟨b, met₁, hb, hb'⟩, Subset.trans hsub hsub'⟩

lemma Ends.anyM {as : List α}
    (hg : ∀ a ∈ as, ∀ met₁, met ⊆ met₁ → (g a).Ends met₁) : Ends (as.anyM g) met := by
  induction as generalizing met with
  | nil => exact .pure false
  | cons a as ih =>
    refine (hg a (by simp) met (Subset.refl _)).bind fun b met₁ hsub => ?_
    cases b with
    | true => exact .pure true
    | false => exact ih fun c hc met₂ h => hg c (by simp [hc]) met₂ (Subset.trans hsub h)

lemma Ends.allM {as : List α}
    (hg : ∀ a ∈ as, ∀ met₁, met ⊆ met₁ → (g a).Ends met₁) : Ends (as.allM g) met := by
  simp only [allM_eq_not_anyM_not, map_eq_pure_bind]
  exact (anyM fun a ha met₁ h => (hg a ha met₁ h).bind fun _ _ _ => .pure _).bind
    fun _ _ _ => .pure _

end Compare

namespace Store

variable {s : Store} {x y : TypeId} {n : Nat}

/-- The number of pairs of types that have not been met. -/
def unmet (s : Store) (met : List (TypeId × TypeId)) : Nat :=
  ((Finset.range s.types.size ×ˢ Finset.range s.types.size).filter
    fun p => ((⟨p.1⟩, ⟨p.2⟩) : TypeId × TypeId) ∉ met).card

lemma unmet_le (s : Store) (met : List (TypeId × TypeId)) :
    s.unmet met ≤ s.types.size * s.types.size := by
  refine (Finset.card_filter_le _ _).trans_eq ?_
  rw [Finset.card_product, Finset.card_range]

lemma unmet_mono (h : met ⊆ met') : s.unmet met' ≤ s.unmet met :=
  Finset.card_le_card (Finset.monotone_filter_right _ fun _ _ => mt (h ·))

lemma unmet_lt (h : met ⊆ met') (hx : x.index < s.types.size) (hy : y.index < s.types.size)
    (hnew : (x, y) ∉ met) (hmet : (x, y) ∈ met') : s.unmet met' < s.unmet met :=
  card_filter_lt (i := (x.index, y.index)) (fun _ => mt (h ·)) (by simp [hx, hy]) hnew
    (not_not_intro hmet)

/-- How deep a comparison can still go: by references, then by pairs not met, then by parts. -/
noncomputable def weight (s : Store) (x : TypeId) (met : List (TypeId × TypeId)) : Nat :=
  s.rank s.Refers x * ((s.types.size * s.types.size + 1) * (s.types.size + 1)) +
    (s.unmet met * (s.types.size + 1) + s.rank s.RefersByPart x)

lemma RefersByPart.lt_size (h : s.RefersByPart x t) : x.index < s.types.size := by
  refine lt_size_of_type_ne fun he => ?_
  unfold RefersByPart at h
  rw [he] at h
  cases h

lemma lt_size_of_interface (h : s.type x = .interface i) :
    x.index < s.types.size :=
  lt_size_of_type_ne (by simp [h])

lemma CyclesThroughMethods.weight_part (hs : s.CyclesThroughMethods) (h : s.RefersByPart x t)
    (hsub : met ⊆ met') : s.weight t met' < s.weight x met := by
  have hback : ¬ Relation.ReflTransGen s.RefersByPart t x := fun hback =>
    hs.method x (Relation.TransGen.mono (fun _ _ hp => Or.inl hp) x x (.head' h hback))
  have hpart : s.rank s.RefersByPart t < s.rank s.RefersByPart x := rank_lt h h.lt_size hback
  have hrefers : s.rank s.Refers t ≤ s.rank s.Refers x := rank_mono (.inl h)
  have hunmet := mul_le_mul_right (s.types.size + 1) (s.unmet_mono hsub)
  have := mul_le_mul_right ((s.types.size * s.types.size + 1) * (s.types.size + 1)) hrefers
  unfold weight
  omega

lemma weight_method (h : s.RefersByMethod x t) (hy : y.index < s.types.size) (hsub : met ⊆ met')
    (hnew : (x, y) ∉ met) (hmet : (x, y) ∈ met') : s.weight t met' < s.weight x met := by
  obtain ⟨i, m, hi, -⟩ := id h
  have hrefers : s.rank s.Refers t ≤ s.rank s.Refers x := rank_mono (.inr (.inl h))
  have hunmet := mul_le_mul_right (s.types.size + 1)
    (succ_le_of_lt (s.unmet_lt hsub (lt_size_of_interface hi) hy hnew hmet))
  rw [succ_mul] at hunmet
  have := mul_le_mul_right ((s.types.size * s.types.size + 1) * (s.types.size + 1)) hrefers
  have := s.rank_le_size s.RefersByPart t
  unfold weight
  omega

/-- After a term, both the pairs met and the parts are counted anew. -/
lemma unmet_add_rank_lt (s : Store) (met : List (TypeId × TypeId)) (t : TypeId) :
    s.unmet met * (s.types.size + 1) + s.rank s.RefersByPart t <
      (s.types.size * s.types.size + 1) * (s.types.size + 1) := by
  have := mul_le_mul_right (s.types.size + 1) (s.unmet_le met)
  have := s.rank_le_size s.RefersByPart t
  rw [succ_mul]
  omega

lemma CyclesThroughMethods.weight_term (hs : s.CyclesThroughMethods) (h : s.RefersByTerm x t)
    (met met' : List (TypeId × TypeId)) : s.weight t met' < s.weight x met := by
  obtain ⟨i, ts, hi, -⟩ := id h
  have hrefers := rank_lt (.inr (.inr h)) (lt_size_of_interface hi) (hs.term x t h)
  have := mul_le_mul_right ((s.types.size * s.types.size + 1) * (s.types.size + 1))
    (succ_le_of_lt hrefers)
  rw [succ_mul] at this
  have := s.unmet_add_rank_lt met' t
  unfold weight
  omega

lemma weight_lt_identityDepth (s : Store) (x : TypeId) : s.weight x [] < s.identityDepth := by
  have hrank := Nat.mul_le_mul_right ((s.types.size * s.types.size + 1) * (s.types.size + 1))
    (s.rank_le_size s.Refers x)
  have hrest := s.unmet_add_rank_lt [] x
  have hle : s.types.size + 1 ≤ s.types.size * s.types.size + 1 :=
    Nat.succ_le_succ (Nat.le_mul_self _)
  unfold weight identityDepth
  generalize s.types.size * s.types.size + 1 = q at *
  generalize s.types.size = k at *
  calc _ < k * (q * (k + 1)) + q * (k + 1) := by omega
    _ = (k + 1) * (k + 1) * q := by ring
    _ ≤ q * q * q := Nat.mul_le_mul_right q (Nat.mul_le_mul hle hle)

variable {f : TypeId → TypeId → Compare Bool}

lemma ends_compareParts {ps : List Part}
    (hf : ∀ a b, .pair a b ∈ ps → ∀ met₁, met ⊆ met₁ → (f a b).Ends met₁) :
    (compareParts f ps).Ends met := by
  refine .allM fun p hp met₁ hsub => ?_
  cases p with
  | differ => exact .pure false
  | pair a b => exact hf a b hp met₁ hsub

lemma ends_compareMethods {a c : ObjectId}
    (hf : ∀ t u, (s.object a).type = some t → (f t u).Ends met) :
    (s.compareMethods f a c).Ends met := by
  unfold compareMethods
  split
  · unfold compareObjectTypes compareOptional
    cases ha : (s.object a).type <;> cases (s.object c).type
    · exact .pure true
    · exact .pure false
    · exact .pure false
    · exact hf _ _ ha
  · exact .pure false

lemma ends_compareTerms {ts us : Option (List TypeId)}
    (hf : ∀ as, ts = some as → ∀ a ∈ as, ∀ c, (f a c).Ends []) :
    (compareTerms f ts us).Ends met := by
  unfold compareTerms
  split
  · exact .pure true
  · rename_i as cs
    split
    · exact .allM fun a ha _ _ => .anyM fun c _ _ _ => (hf as rfl a ha c).separately
    · exact .pure false
  · exact .pure false

lemma ends_compareInterfaces {i j : InterfaceType}
    (hterms : (compareTerms f i.terms j.terms).Ends met)
    (hmethods : (x, y) ∉ met → ∀ m ∈ i.methods, ∀ t u, (s.object m).type = some t →
      ∀ met₁, (x, y) :: met ⊆ met₁ → (f t u).Ends met₁) :
    (s.compareInterfaces f x y i j).Ends met := by
  unfold Compare.Ends
  rw [run_compareInterfaces]
  split
  · obtain ⟨c, met₁, hrun, hsub⟩ := hterms
    rw [hrun, Option.bind_some]
    cases c with
    | false => exact ⟨false, met₁, rfl, hsub⟩
    | true =>
      by_cases hmem : (x, y) ∈ met₁
      · exact ⟨true, met₁, by simp [hmem], hsub⟩
      · have hall : Compare.Ends
            (i.methods.allM fun a => j.methods.anyM fun c => s.compareMethods f a c)
            ((x, y) :: met₁) := by
          refine .allM fun m hm met₂ hsub₂ => .anyM fun c _ met₃ hsub₃ => ?_
          refine ends_compareMethods fun t u ht => ?_
          refine hmethods (fun h => hmem (hsub h)) m hm t u ht met₃ ?_
          exact Subset.trans (cons_subset_cons _ hsub) (Subset.trans hsub₂ hsub₃)
        obtain ⟨b, met', hrun', hsub'⟩ := hall
        refine ⟨b, met', by simpa [hmem] using hrun', ?_⟩
        exact Subset.trans hsub (Subset.trans (subset_cons_self _ _) hsub')
  · exact ⟨false, met, rfl, Subset.refl _⟩

/-- A comparison ends if it may go deeper than its weight. -/
lemma identicalWithin_ends (hs : s.CyclesThroughMethods) (h : s.weight x met < n) :
    (s.identicalWithin n x y).Ends met := by
  induction n generalizing x y met with
  | zero => omega
  | succ n ih =>
    change (s.identityStep (s.identicalWithin n) x y).Ends met
    by_cases hxy : x = y
    · rw [identityStep, if_pos hxy]
      exact .pure true
    · rcases s.interfaces_or x y with ⟨i, j, hx, hy⟩ | hni
      · simp only [identityStep, if_neg hxy, hx, hy]
        refine ends_compareInterfaces ?_ fun hnew m hm t u ht met₁ hsub => ih ?_
        · refine ends_compareTerms fun as has a ha c => ih ?_
          have := hs.weight_term ⟨i, as, hx, has, ha⟩ met []
          omega
        · have := weight_method ⟨i, m, hx, hm, ht⟩ (lt_size_of_interface hy)
            (fun p hp => hsub (mem_cons_of_mem _ hp)) hnew (hsub mem_cons_self)
          omega
      · rw [identityStep_eq_compareParts hxy hni]
        refine ends_compareParts fun a b hab met₁ hsub => ih ?_
        have := hs.weight_part (hasPart_of_mem_parts hab) hsub
        omega

lemma exists_run_identicalWithin (hcycles : s.CyclesThroughMethods) (x y : TypeId) :
    ∃ b met, (s.identicalWithin s.identityDepth x y).run [] = some (b, met) := by
  obtain ⟨b, met, hrun, -⟩ := identicalWithin_ends hcycles (s.weight_lt_identityDepth x)
  exact ⟨b, met, hrun⟩

lemma identical_eq_true_iff (hnames : s.NamesDistinct) (hterms : s.TermsDistinct)
    (hcycles : s.CyclesThroughMethods) : s.identical x y ↔ s.Identical x y := by
  obtain ⟨b, met, hrun⟩ := exists_run_identicalWithin hcycles x y
  have hb : s.identical x y = b := by simp [identical, identical?, hrun]
  rw [hb]
  cases b with
  | true => exact ⟨fun _ => identical_of_run hnames hterms hrun, fun _ => rfl⟩
  | false => exact ⟨nofun, fun h => absurd h ((identicalWithin_finds hnames hrun).refuses rfl)⟩

/-- Comparison decides identity: it ends, it answers true for those types that the largest relation
under the rules relates, and so it is an equivalence. -/
theorem identical_iff_rules (hnames : s.NamesDistinct) (hterms : s.TermsDistinct)
    (hcycles : s.CyclesThroughMethods) :
    (∀ x y, s.identical? x y = some (s.identical x y)) ∧
      (∀ x y, s.identical x y = true ↔ s.Identical x y) ∧
      Equivalence fun x y => s.identical x y = true := by
  have hsome : ∀ x y, s.identical? x y = some (s.identical x y) := by
    intro x y
    obtain ⟨b, met, hrun⟩ := exists_run_identicalWithin hcycles x y
    simp [identical, identical?, hrun]
  have hiff : ∀ x y, s.identical x y = true ↔ s.Identical x y :=
    fun _ _ => identical_eq_true_iff hnames hterms hcycles
  refine ⟨hsome, hiff, ?_⟩
  simpa only [hiff] using s.identical_equivalence

/-- Interfaces with a method that returns them, and constraints that list their terms in another
order. -/
def selfReturningStore : Store where
  types := #[.tuple [], .tuple [⟨0⟩], .signature { params := ⟨0⟩, results := ⟨1⟩ },
    .interface { methods := [⟨1⟩] }, .tuple [⟨2⟩], .signature { params := ⟨0⟩, results := ⟨4⟩ },
    .interface { methods := [⟨3⟩] }, .basic .int, .basic .string,
    .interface { terms := some [⟨7⟩, ⟨8⟩] }, .interface { terms := some [⟨8⟩, ⟨7⟩] }]
  objects := #[{ entity := .var false false true, name := "", type := some ⟨3⟩ },
    { entity := .func false, name := "next", type := some ⟨2⟩ },
    { entity := .var false false true, name := "", type := some ⟨6⟩ },
    { entity := .func false, name := "next", type := some ⟨5⟩ }]

/-- A number that gets smaller along all references of the store but those by methods. -/
def selfReturningStore.height (t : TypeId) : Nat :=
  [0, 1, 2, 0, 1, 2, 0, 0, 0, 1, 1].getD t.index 0

namespace selfReturningStore

lemma height_lt_of_part (h : selfReturningStore.RefersByPart t u) :
    height u < height t := by
  obtain ⟨t⟩ := t
  have ht : t < 11 := h.lt_size
  interval_cases t <;> cases h <;> try decide
  · rename_i hv ho
    cases hv
  all_goals
    rename_i hv ho
    obtain rfl := mem_singleton.mp hv
    cases ho
    decide

lemma term_cases (h : selfReturningStore.RefersByTerm t u) :
    (t = ⟨9⟩ ∨ t = ⟨10⟩) ∧ (u = ⟨7⟩ ∨ u = ⟨8⟩) := by
  obtain ⟨t⟩ := t
  obtain ⟨i, ts, hi, hts, hu⟩ := h
  have ht : t < 11 := lt_size_of_interface hi
  interval_cases t <;> cases hi <;> cases hts <;> simp at hu ⊢ <;> tauto

lemma namesDistinct : selfReturningStore.NamesDistinct := by
  rintro ⟨t⟩ i hi
  have ht : t < 11 := lt_size_of_interface hi
  interval_cases t <;> cases hi <;> simp

lemma int_ne_string : ¬ selfReturningStore.Identical ⟨7⟩ ⟨8⟩ := by
  intro h
  rcases h.rule with heq | hsame
  · cases heq
  · cases hsame with
    | basic hk => cases hk

lemma termsDistinct : selfReturningStore.TermsDistinct := by
  rintro ⟨t⟩ i ts hi hts
  have ht : t < 11 := lt_size_of_interface hi
  interval_cases t <;> cases hi <;> cases hts
  · simpa using int_ne_string
  · simpa using fun h => int_ne_string (Identical.symm h)

lemma cyclesThroughMethods : selfReturningStore.CyclesThroughMethods where
  method := by
    refine not_transGen_of_measure height ?_
    rintro t u (h | h)
    · exact height_lt_of_part h
    · obtain ⟨rfl | rfl, rfl | rfl⟩ := term_cases h <;> decide
  term := by
    intro t u h hback
    obtain ⟨ht, hu⟩ := term_cases h
    rcases hback.cases_head with rfl | ⟨v, hv, -⟩
    · rcases ht with rfl | rfl <;> simp at hu
    · rcases hu with rfl | rfl
      · exact not_refers_of_basic rfl hv
      · exact not_refers_of_basic rfl hv

end selfReturningStore

/-- Recursive interfaces are told to be identical, and constraints by their terms. -/
theorem selfReturningStore_identical :
    selfReturningStore.NamesDistinct ∧ selfReturningStore.TermsDistinct ∧
      selfReturningStore.CyclesThroughMethods ∧
      selfReturningStore.Identical ⟨3⟩ ⟨6⟩ ∧ selfReturningStore.Identical ⟨9⟩ ⟨10⟩ ∧
      ¬ selfReturningStore.Identical ⟨3⟩ ⟨9⟩ := by
  obtain ⟨-, hiff, -⟩ := identical_iff_rules selfReturningStore.namesDistinct
    selfReturningStore.termsDistinct selfReturningStore.cyclesThroughMethods
  refine ⟨selfReturningStore.namesDistinct, selfReturningStore.termsDistinct,
    selfReturningStore.cyclesThroughMethods, (hiff _ _).mp ?_, (hiff _ _).mp ?_, ?_⟩
  · decide +kernel
  · decide +kernel
  · rw [← hiff]
    decide +kernel

lemma identical?_eq_some (hnames : s.NamesDistinct) (hterms : s.TermsDistinct)
    (h : s.identical? x y = some b) : b ↔ s.Identical x y := by
  obtain ⟨⟨b, met⟩, hrun, rfl⟩ := Option.map_eq_some_iff.mp h
  cases b with
  | true => exact iff_of_true rfl (identical_of_run hnames hterms hrun)
  | false => exact iff_of_false (by simp) ((identicalWithin_finds hnames hrun).refuses rfl)

/-- Comparison is symmetric where it ends both ways, if no interface repeats the name of a method or
a term. -/
theorem identicalOptional_comm (hnames : s.NamesDistinct) (hterms : s.TermsDistinct)
    {x y : Option TypeId}
    (hends : ∀ a ∈ x, ∀ b ∈ y, (s.identical? a b).isSome = true ∧ (s.identical? b a).isSome = true) :
    s.identicalOptional x y = s.identicalOptional y x := by
  cases x with
  | none => cases y <;> rfl
  | some a =>
    cases y with
    | none => rfl
    | some b =>
      obtain ⟨hab, hba⟩ := hends a rfl b rfl
      obtain ⟨c, hc⟩ := Option.isSome_iff_exists.mp hab
      obtain ⟨d, hd⟩ := Option.isSome_iff_exists.mp hba
      simp only [identicalOptional, identical, hc, hd, Option.getD_some]
      rw [Bool.eq_iff_iff, identical?_eq_some hnames hterms hc, identical?_eq_some hnames hterms hd]
      exact ⟨.symm, .symm⟩

/-- Constraints that list the same terms in a different order are compared both ways. -/
theorem selfReturningStore_comm :
    selfReturningStore.identicalOptional (some ⟨9⟩) (some ⟨10⟩) =
      selfReturningStore.identicalOptional (some ⟨10⟩) (some ⟨9⟩) := by
  refine identicalOptional_comm selfReturningStore.namesDistinct selfReturningStore.termsDistinct ?_
  rintro _ ⟨⟩ _ ⟨⟩
  decide +kernel

/-- Two constraints of two terms, one of which lists a term twice. -/
def repeatedTermStore : Store where
  types := #[.basic .int, .basic .string, .interface { terms := some [⟨0⟩, ⟨0⟩] },
    .interface { terms := some [⟨0⟩, ⟨1⟩] }]
  objects := #[]

/-- Every term of the first constraint is a term of the second, but not the other way round. -/
theorem repeatedTermStore_not_comm :
    repeatedTermStore.identical? ⟨2⟩ ⟨3⟩ = some true ∧
      repeatedTermStore.identical? ⟨3⟩ ⟨2⟩ = some false := by
  decide +kernel

end Store

end GoCheck
