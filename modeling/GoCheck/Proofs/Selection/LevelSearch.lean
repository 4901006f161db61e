import GoCheck.Proofs.Selection.LevelScan
import Mathlib.Data.Nat.Find

/-!
# The search level by level

The candidates of a level stand for the paths of one length. A type that can be reached by fewer
steps has been searched in vain before. Every other type is among the candidates, with its path if
this is the only one.
-/

namespace GoCheck

open List Bool

variable {d c : Candidate} {a : Hit}

namespace Store

variable {s : Store}
variable {cs : List Candidate} {path : List Nat}

/-- The level of depth `k` in a search from `u`. -/
structure Level (s : Store) (u : TypeId) (p : Bool) (k : Nat) (cs : List Candidate)
    (seen : List TypeId) : Prop where
  nodup : (cs.map (·.type)).Nodup
  /-- A candidate is the end of a path of length `k`. -/
  sound : ∀ c ∈ cs, ∃ b, s.Leads u c.path b c.type ∧ c.indirect = (p || b) ∧ c.path.length = k
  /-- A type at depth `k` is a candidate, and a single path leads to it unless it is marked. -/
  complete : ∀ path b v, s.Leads u path b v → path.length = k → s.Direct u path v →
    ∃ c ∈ cs, c.type = v ∧ (c.multiple = false → c.path = path)
  /-- Several paths lead to a marked candidate. -/
  several : ∀ c ∈ cs, c.multiple = true →
    ∃ path b, path ≠ c.path ∧ s.Leads u path b c.type ∧ path.length = k
  /-- The types searched before lie at smaller depths. -/
  searched : ∀ v ∈ seen, ∃ path b, s.Leads u path b v ∧ path.length < k

/-- Nothing of the name lies at a depth smaller than `k`. -/
def Barren (s : Store) (u : TypeId) (name : String) (k : Nat) : Prop :=
  ∀ path b v i o, s.Leads u path b v → s.Owns name v i o → k ≤ path.length

lemma Level.start : s.Level u p 0 [⟨u, [], p, false⟩] [] where
  nodup := by simp
  sound := by
    intro c hc
    obtain rfl := mem_singleton.mp hc
    exact ⟨false, .start, by simp, rfl⟩
  complete := by
    intro path b v hl hlen _
    obtain rfl := length_eq_zero_iff.mp hlen
    obtain ⟨-, rfl⟩ := leads_nil_iff.mp hl
    exact ⟨_, mem_singleton_self _, rfl, fun _ => rfl⟩
  several := by
    intro c hc hm
    obtain rfl := mem_singleton.mp hc
    simp at hm
  searched := by simp

lemma barren_zero : s.Barren u name 0 := fun _ _ _ _ _ _ _ => Nat.zero_le _

lemma Barren.direct (hb : s.Barren u name k) (ho : s.Owns name v i o)
    (hlen : path.length = k) : s.Direct u path v :=
  fun path' b' hl => hlen ▸ hb path' b' v i o hl ho

lemma exists_of_mem_next (hd : d ∈ (s.active seen cs).flatMap s.embeddedIn) :
    ∃ c ∈ cs, ∃ i p₁, s.Embeds c.type i p₁ d.type ∧
      d = ⟨d.type, c.path ++ [i], c.indirect || p₁, c.multiple⟩ := by
  obtain ⟨c, hc, hdc⟩ := mem_flatMap.mp hd
  obtain ⟨i, p₁, he, heq⟩ := mem_embeddedIn.mp hdc
  exact ⟨c, (mem_filter.mp hc).1, i, p₁, he, heq⟩

lemma owns_of_mem_hits (ha : a ∈ (s.active seen cs).flatMap (s.hitsIn name)) :
    a.candidate ∈ cs ∧ s.Owns name a.candidate.type a.index a.object := by
  obtain ⟨c, hc, hac⟩ := mem_flatMap.mp ha
  obtain ⟨⟨i, o⟩, he, rfl⟩ := mem_map.mp hac
  exact ⟨(mem_filter.mp hc).1, mem_ownEntries.mp he⟩

namespace Level

variable (h : s.Level u p k cs seen)
include h

lemma mem_active (hc : c ∈ cs) (hlen : path.length = k)
    (hd : s.Direct u path c.type) : c ∈ s.active seen cs := by
  refine mem_filter.mpr ⟨hc, ?_⟩
  rw [not_eq_true', isSearched, and_eq_false_iff]
  right
  rw [eq_false_iff]
  intro hmem
  obtain ⟨path', b', hl, hlt⟩ := h.searched c.type (by simpa using hmem)
  have := hd path' b' hl
  omega

lemma nodup_paths : (cs.map (·.path)).Nodup := by
  refine List.Nodup.map_on ?_ h.nodup.of_map
  intro c hc d hd hpath
  obtain ⟨b, hl, -⟩ := h.sound c hc
  obtain ⟨b', hl', -⟩ := h.sound d hd
  rw [← hpath] at hl'
  exact inj_on_of_nodup_map h.nodup hc hd (hl.unique hl').2

lemma nodup_active_paths : ((s.active seen cs).map (·.path)).Nodup :=
  h.nodup_paths.sublist (filter_sublist.map _)

lemma nodup_next : (((s.active seen cs).flatMap s.embeddedIn).map (·.path)).Nodup := by
  rw [map_flatMap, nodup_flatMap]
  refine ⟨fun c _ => nodup_embeddedIn, ?_⟩
  refine (pairwise_map.mp h.nodup_active_paths).imp ?_
  intro c d hne q hq hq'
  obtain ⟨e, he, rfl⟩ := mem_map.mp hq
  obtain ⟨e', he', hpath⟩ := mem_map.mp hq'
  obtain ⟨i, p₁, -, hc⟩ := mem_embeddedIn.mp he
  obtain ⟨j, p₂, -, hd⟩ := mem_embeddedIn.mp he'
  rw [hc, hd] at hpath
  exact hne (append_inj' hpath rfl).1.symm

lemma next_leads (hd : d ∈ (s.active seen cs).flatMap s.embeddedIn) :
    ∃ b, s.Leads u d.path b d.type ∧ d.indirect = (p || b) ∧ d.path.length = k + 1 := by
  obtain ⟨c, hc, i, p₁, he, heq⟩ := exists_of_mem_next hd
  obtain ⟨b, hl, hind, hlen⟩ := h.sound c hc
  refine ⟨b || p₁, ?_, ?_, ?_⟩
  · rw [heq]
    exact hl.embed he
  · rw [heq, hind, Bool.or_assoc]
  · rw [heq]
    simp [hlen]

lemma next_several (hd : d ∈ (s.active seen cs).flatMap s.embeddedIn) (hm : d.multiple) :
    ∃ path b, path ≠ d.path ∧ s.Leads u path b d.type ∧ path.length = k + 1 := by
  obtain ⟨c, hc, i, p₁, he, heq⟩ := exists_of_mem_next hd
  rw [heq] at hm
  obtain ⟨path, b, hne, hl, hlen⟩ := h.several c hc hm
  refine ⟨path ++ [i], b || p₁, ?_, hl.embed he, by simp [hlen]⟩
  rw [heq]
  intro hpath
  exact hne (append_inj' hpath rfl).1

/-- A type at the next depth is embedded in a candidate, at the end of its path unless it is
marked. -/
lemma next_complete (hl : s.Leads u path b v) (hlen : path.length = k + 1)
    (hd : s.Direct u path v) : ∃ d ∈ (s.active seen cs).flatMap s.embeddedIn,
      d.type = v ∧ (d.multiple = false → d.path = path) := by
  cases hl with
  | start => simp at hlen
  | @embed path b w i p₁ v hl he =>
    have hlen' : path.length = k := by simpa using hlen
    have hd' := hd.init he
    obtain ⟨c, hc, rfl, hpath⟩ := h.complete path b w hl hlen' hd'
    refine ⟨⟨v, c.path ++ [i], c.indirect || p₁, c.multiple⟩, ?_, rfl, ?_⟩
    · exact mem_flatMap.mpr
        ⟨c, h.mem_active hc hlen' hd', mem_embeddedIn.mpr ⟨i, p₁, he, rfl⟩⟩
    · intro hm
      exact congrArg (· ++ [i]) (hpath hm)

/-- The next level: the merged candidates that a level embeds. -/
lemma next : s.Level u p (k + 1) (mergeCandidates ((s.active seen cs).flatMap s.embeddedIn))
      (s.seenAfter seen cs) where
  nodup := nodup_mergeCandidates _
  sound := by
    intro m hm
    obtain ⟨l, c, r, hcs, -, rfl⟩ := mergeCandidates_spec hm
    exact h.next_leads (d := c) (by simp [hcs])
  complete := by
    intro path b v hl hlen hd
    obtain ⟨d, hmem, rfl, hpath⟩ := h.next_complete hl hlen hd
    obtain ⟨m, hm, hmt⟩ := hasCandidate_iff.mp
      ((hasCandidate_mergeCandidates _ _).trans (hasCandidate_iff.mpr ⟨d, hmem, rfl⟩))
    refine ⟨m, hm, hmt, ?_⟩
    obtain ⟨l, c, r, hcs, hfirst, rfl⟩ := mergeCandidates_spec hm
    intro hmult
    -- Unmarked, the first candidate of the type is its only one, so it is `d`.
    obtain ⟨hcm, hr⟩ := or_eq_false_iff.mp hmult
    rw [hcs, mem_append, mem_cons] at hmem
    rcases hmem with hmem | rfl | hmem
    · exact absurd hmt.symm (hfirst d hmem)
    · exact hpath hcm
    · exact absurd (hasCandidate_iff.mpr ⟨d, hmem, hmt.symm⟩) (eq_false_iff.mp hr)
  several := by
    intro m hm hmult
    obtain ⟨l, c, r, hcs, -, rfl⟩ := mergeCandidates_spec hm
    have hc : c ∈ (s.active seen cs).flatMap s.embeddedIn := by simp [hcs]
    rcases or_eq_true_iff.mp hmult with hcm | hr
    · obtain ⟨path, b, hne, hl, hlen⟩ := h.next_several hc hcm
      exact ⟨path, b, hne, hl, hlen⟩
    · obtain ⟨d, hd, hdt⟩ := hasCandidate_iff.mp hr
      obtain ⟨b, hl, -, hlen⟩ := h.next_leads (d := d) (by simp [hcs, hd])
      have hnd := h.nodup_next
      rw [hcs, map_append, map_cons] at hnd
      have hne := (nodup_cons.mp (nodup_append.mp hnd).2.1).1
      refine ⟨d.path, b, ?_, hdt ▸ hl, hlen⟩
      intro hpath
      exact hne (hpath ▸ mem_map_of_mem hd)
  searched := by
    intro v hv
    rcases mem_seenAfter.mp hv with hv | ⟨-, c, hc, rfl⟩
    · obtain ⟨path, b, hl, hlt⟩ := h.searched v hv
      exact ⟨path, b, hl, by omega⟩
    · obtain ⟨b, hl, -, hlen⟩ := h.sound c hc
      exact ⟨c.path, b, hl, by omega⟩

/-- Different hits have different paths. -/
lemma nodup_hits (name : String) : (((s.active seen cs).flatMap (s.hitsIn name)).map Hit.path).Nodup := by
  rw [map_flatMap, nodup_flatMap]
  constructor
  · intro c _
    have hpaths : (s.hitsIn name c).map Hit.path =
        ((s.ownEntries name c.type).map (·.1)).map fun i => c.path ++ [i] := by
      simp [hitsIn, Hit.path]
    rw [hpaths]
    refine nodup_ownEntries.map ?_
    intro i j hij
    simpa using hij
  · refine (pairwise_map.mp h.nodup_active_paths).imp ?_
    intro c d hne q hq hq'
    obtain ⟨a, ha, rfl⟩ := mem_map.mp hq
    obtain ⟨a', ha', hpath⟩ := mem_map.mp hq'
    obtain ⟨e, -, rfl⟩ := mem_map.mp ha
    obtain ⟨e', -, rfl⟩ := mem_map.mp ha'
    exact hne (append_inj' hpath rfl).1.symm

/-- Whatever of the name lies at the depth of a level is among its hits. -/
lemma hit_of_owns (hb : s.Barren u name k) (hl : s.Leads u path b v)
    (hlen : path.length = k) (ho : s.Owns name v i o) :
    ∃ a ∈ (s.active seen cs).flatMap (s.hitsIn name),
      a.candidate.type = v ∧ a.index = i ∧ a.object = o ∧
        (a.candidate.multiple = false → a.candidate.path = path) := by
  have hd := hb.direct ho hlen
  obtain ⟨c, hc, rfl, hpath⟩ := h.complete path b v hl hlen hd
  refine ⟨⟨c, i, o⟩, ?_, rfl, rfl, rfl, hpath⟩
  exact mem_flatMap.mpr ⟨c, h.mem_active hc hlen hd,
    mem_map.mpr ⟨(i, o), mem_ownEntries.mpr ho, rfl⟩⟩

/-- Where a level has no hits, nothing of the name lies at its depth either. -/
lemma barren_succ (hb : s.Barren u name k)
    (hhits : (s.active seen cs).flatMap (s.hitsIn name) = []) : s.Barren u name (k + 1) := by
  intro path b v i o hl ho
  have hle := hb _ _ _ _ _ hl ho
  by_contra hlt
  obtain ⟨a, ha, -⟩ := h.hit_of_owns hb hl (by omega) ho
  simp [hhits] at ha

end Level

/-- What paths say about an answer: none, several of least length, or one, to the answer or a method
refused. -/
inductive Answers (s : Store) (t : TypeId) (addressable : Bool) (name : String) : Selection → Prop
  | notFound : (∀ path o b, ¬ s.Selects t name path o b) → Answers s t addressable name .notFound
  | ambiguous {path path' : List Nat} {o o' : ObjectId} {b b' : Bool} :
    s.SelectsFirst t name path o b → s.SelectsFirst t name path' o' b' → path ≠ path' →
    Answers s t addressable name (.ambiguous path)
  | badReceiver {path : List Nat} {o : ObjectId} {b : Bool} :
    s.SelectsOnly t name path o b →
    ((s.object o).hasPointerReceiver && !b && !addressable) = true →
    Answers s t addressable name .badReceiver
  | entry {path : List Nat} {o : ObjectId} {b : Bool} :
    s.SelectsOnly t name path o b →
    ((s.object o).hasPointerReceiver && !b && !addressable) = false →
    Answers s t addressable name (.entry o path b)

lemma SelectsOnly.answers (h : s.SelectsOnly t name path o b) :
    s.Answers t addressable name (s.selectionOf addressable (o, path, b)) := by
  unfold selectionOf
  dsimp only
  split
  · rename_i hbad
    exact .badReceiver h hbad
  · rename_i hbad
    exact .entry h (eq_false_iff.mpr hbad)

section AnswersOfLevel

variable (hd : s.dereference t = (u, p)) (hi : ¬ (p ∧ s.isInterface u))
variable (h : s.Level u p k cs seen) (hb : s.Barren u name k)
include hd hi

/-- A path at the least depth at which something of the name lies. -/
lemma selectsFirst_of_leads (hb : s.Barren u name k)
    (hl : s.Leads u path b v) (hlen : path.length = k) (ho : s.Owns name v i o) :
    s.SelectsFirst t name (path ++ [i]) o (p || b) := by
  refine ⟨.intro hd hi hl ho, ?_⟩
  intro path' o' b' h'
  cases h' with
  | intro hd' _ hl' ho' =>
    cases hd.symm.trans hd'
    have := hb _ _ _ _ _ hl' ho'
    simp only [length_append, length_singleton]
    omega

include h hb

lemma selectsFirst_of_hit (ha : a ∈ (s.active seen cs).flatMap (s.hitsIn name)) :
    s.SelectsFirst t name a.path a.object a.candidate.indirect := by
  obtain ⟨hc, ho⟩ := owns_of_mem_hits ha
  obtain ⟨b, hl, hind, hlen⟩ := h.sound _ hc
  rw [hind]
  exact selectsFirst_of_leads hd hi hb hl hlen ho

/-- Two hits, or one in a marked candidate: beside any path there is another one of least length. -/
lemma exists_other_path (q : List Nat)
    (hmany : 2 ≤ ((s.active seen cs).flatMap (s.hitsIn name)).length ∨
      ∃ a ∈ (s.active seen cs).flatMap (s.hitsIn name), a.candidate.multiple) :
    ∃ path o b, s.SelectsFirst t name path o b ∧ q ≠ path := by
  rcases hmany with hlen | ⟨a, ha, hm⟩
  · have hnd := h.nodup_hits name
    have hfirst := fun a => selectsFirst_of_hit hd hi h hb (a := a)
    match hhits : (s.active seen cs).flatMap (s.hitsIn name), hlen with
    | a₁ :: a₂ :: _, _ =>
      rw [hhits] at hnd hfirst
      have hne : a₁.path ≠ a₂.path := by
        intro heq
        simp [heq] at hnd
      by_cases heq : q = a₁.path
      · exact ⟨_, _, _, hfirst a₂ (by simp), heq ▸ hne⟩
      · exact ⟨_, _, _, hfirst a₁ (by simp), heq⟩
  · obtain ⟨hc, ho⟩ := owns_of_mem_hits ha
    obtain ⟨path, b, hne, hl, hlen⟩ := h.several _ hc hm
    by_cases heq : q = a.path
    · refine ⟨_, _, _, selectsFirst_of_leads hd hi hb hl hlen ho, ?_⟩
      rw [heq]
      intro hpath
      exact hne (append_inj' hpath rfl).1.symm
    · exact ⟨_, _, _, selectsFirst_of_hit hd hi h hb ha, heq⟩

/-- A single hit in an unmarked candidate is the only one. -/
lemma selectsOnly_of_hit (hhits : (s.active seen cs).flatMap (s.hitsIn name) = [a])
    (hm : a.candidate.multiple = false) :
    s.SelectsOnly t name a.path a.object a.candidate.indirect := by
  have hmem : a ∈ (s.active seen cs).flatMap (s.hitsIn name) := by simp [hhits]
  have ha := selectsFirst_of_hit hd hi h hb hmem
  refine ⟨ha, ?_⟩
  intro path' o' b' h'
  have hlen := h'.2 _ _ _ ha.1
  cases h'.1 with
  | @intro u' p' path b v i o hd' _ hl ho =>
    cases hd.symm.trans hd'
    obtain ⟨hc, -⟩ := owns_of_mem_hits hmem
    obtain ⟨-, -, -, hlen'⟩ := h.sound _ hc
    have hle := hb _ _ _ _ _ hl ho
    have hk : path.length = k := by
      simp only [Hit.path, length_append, length_singleton] at hlen
      omega
    obtain ⟨a', ha', -, rfl, -, hpath⟩ := h.hit_of_owns hb hl hk ho
    rw [hhits, mem_singleton] at ha'
    subst ha'
    rw [Hit.path, hpath hm]

end AnswersOfLevel

/-- No path is as long as the depth of an empty level without being longer than it need be. -/
lemma Level.not_direct (h : s.Level u p k [] seen) (hl : s.Leads u path b v)
    (hlen : k ≤ path.length) : ¬ s.Direct u path v := by
  intro hd
  induction hl with
  | start =>
    obtain ⟨c, hc, -⟩ := h.complete [] false u .start (by simp at hlen ⊢; omega) hd
    simp at hc
  | @embed path b w i p₁ v hl he ih =>
    by_cases hk : k ≤ path.length
    · exact ih hk (hd.init he)
    · obtain ⟨c, hc, -⟩ := h.complete _ _ v (hl.embed he) (by simp at hlen ⊢; omega) hd
      simp at hc

/-- Every type that can be reached can be reached by a path that cannot be shortened. -/
lemma Leads.exists_direct (hl : s.Leads u path b v) :
    ∃ path' b', s.Leads u path' b' v ∧ s.Direct u path' v := by
  classical
  have hex : ∃ n, ∃ path' b', s.Leads u path' b' v ∧ path'.length = n := ⟨_, path, b, hl, rfl⟩
  obtain ⟨path', b', hl', hlen⟩ := Nat.find_spec hex
  refine ⟨path', b', hl', ?_⟩
  intro path'' b'' hl''
  rw [hlen]
  exact Nat.find_min' hex ⟨path'', b'', hl'', rfl⟩

lemma Level.notFound (hd : s.dereference t = (u, p)) (h : s.Level u p k [] seen)
    (hb : s.Barren u name k) : s.Answers t addressable name .notFound := by
  refine .notFound ?_
  rintro _ _ _ ⟨hd', _, hl, ho⟩
  cases hd.symm.trans hd'
  obtain ⟨path, b, hl', hdir⟩ := hl.exists_direct
  exact h.not_direct hl' (hb _ _ _ _ _ hl' ho) hdir

/-- The answer of a search agrees with the paths to the name. -/
lemma searchLevels_answers (hd : s.dereference t = (u, p))
    (hi : ¬ (p ∧ s.isInterface u)) (h : s.Level u p k cs seen)
    (hb : s.Barren u name k) (hr : s.searchLevels addressable name n cs seen = some r) :
    s.Answers t addressable name r := by
  -- The bound on the levels goes down as the depth goes up.
  induction n generalizing k cs seen with
  | zero =>
    cases cs with
    | nil =>
      cases hr
      exact h.notFound hd hb
    | cons c cs => cases hr
  | succ n ih =>
    cases cs with
    | nil =>
      cases hr
      exact h.notFound hd hb
    | cons c cs =>
      have hscan := s.scanLevel_scanned name (c :: cs) [] ⟨[], none, seen⟩ h.nodup rfl
      unfold searchLevels at hr
      split at hr
      · rename_i path hres
        cases hr
        rw [hres] at hscan
        obtain ⟨⟨a, ha, rfl⟩, hmany⟩ := hscan
        obtain ⟨path', o', b', hother, hne⟩ := exists_other_path hd hi h hb a.path hmany
        exact .ambiguous (selectsFirst_of_hit hd hi h hb ha) hother hne
      · rename_i next found seen' hres
        cases hr
        rw [hres] at hscan
        obtain ⟨htally, -⟩ := hscan
        rw [nil_append] at htally
        match hhits : (s.active seen (c :: cs)).flatMap (s.hitsIn name) with
        | [] =>
          rw [hhits] at htally
          cases htally
        | [a] =>
          rw [hhits] at htally
          obtain ⟨hm, hfound⟩ := htally
          cases hfound
          exact (selectsOnly_of_hit hd hi h hb hhits hm).answers
        | _ :: _ :: _ =>
          rw [hhits] at htally
          exact htally.elim
      · rename_i next seen' hres
        rw [hres] at hscan
        obtain ⟨htally, hseen, hnext⟩ := hscan
        rw [nil_append] at htally hnext
        have hnone := htally.found_eq_none.mp rfl
        have hnext' := hnext hnone
        dsimp only at hseen hnext'
        rw [nil_append] at hnext'
        rw [hseen, hnext'] at hr
        exact ih h.next (h.barren_succ hb hnone) hr

end Store

end GoCheck
