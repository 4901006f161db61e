import GoCheck.Selection.Lookup
import Mathlib.Data.List.Induction
import Mathlib.Data.List.Nodup
import Mathlib.Logic.Relation

/-!
# Embedding paths and levels of a search

A selector names a field or method at the end of a path through embedded fields. A search scans
level by level: a hit is a field or method of the name in a candidate that has not been searched,
and two hits, or one in a candidate that several paths lead to, are an answer.
-/

namespace GoCheck

open List Store

variable {n : NamedType}

namespace Store

variable {s : Store}

/-- The struct beneath `t` embeds `u` by its field at position `i`, as a pointer or not. -/
def Embeds (s : Store) (t : TypeId) (i : Nat) (pointer : Bool) (u : TypeId) : Prop :=
  ∃ fields f ft, s.shape t = .struct fields ∧ fields[i]? = some f ∧
    (s.object f).isEmbedded = true ∧ (s.object f).type = some ft ∧ s.dereference ft = (u, pointer)

/-- Embedded fields at the positions of a path lead from `t` to a type, perhaps through a
pointer. -/
inductive Leads (s : Store) (t : TypeId) : List Nat → Bool → TypeId → Prop
  | start : Leads s t [] false t
  | embed {path : List Nat} {b : Bool} {u : TypeId} {i : Nat} {p : Bool} {v : TypeId} :
    Leads s t path b u → s.Embeds u i p v → Leads s t (path ++ [i]) (b || p) v

lemma Embeds.unique (h : s.Embeds u i p v) (h' : s.Embeds u i p' v') :
    p = p' ∧ v = v' := by
  obtain ⟨fields, f, ft, hs, hf, -, ht, hd⟩ := h
  obtain ⟨fields', f', ft', hs', hf', -, ht', hd'⟩ := h'
  obtain rfl : fields = fields' := by simpa using hs.symm.trans hs'
  cases hf.symm.trans hf'
  cases ht.symm.trans ht'
  have heq := hd.symm.trans hd'
  exact ⟨congrArg Prod.snd heq, congrArg Prod.fst heq⟩

lemma leads_nil_iff : s.Leads t [] b u ↔ b = false ∧ u = t := by
  constructor
  · intro h
    generalize hp : ([] : List Nat) = q at h
    cases h with
    | start => exact ⟨rfl, rfl⟩
    | embed _ _ => simp at hp
  · rintro ⟨rfl, rfl⟩
    exact .start

lemma leads_concat_iff : s.Leads t (path ++ [i]) b v ↔
      ∃ b' u p, s.Leads t path b' u ∧ s.Embeds u i p v ∧ b = (b' || p) := by
  constructor
  · intro h
    generalize hp : path ++ [i] = q at h
    cases h with
    | start => simp at hp
    | embed hl he =>
      obtain ⟨rfl, hi⟩ := append_inj' hp rfl
      obtain rfl : i = _ := by simpa using hi
      exact ⟨_, _, _, hl, he, rfl⟩
  · rintro ⟨b', u, p, hl, he, rfl⟩
    exact .embed hl he

lemma Leads.unique (h : s.Leads t path b u) (h' : s.Leads t path b' v) : b = b' ∧ u = v := by
  induction h generalizing b' v with
  | start =>
    obtain ⟨rfl, rfl⟩ := leads_nil_iff.mp h'
    exact ⟨rfl, rfl⟩
  | embed _ he ih =>
    obtain ⟨b₁, u₁, p₁, hl₁, he₁, rfl⟩ := leads_concat_iff.mp h'
    obtain ⟨rfl, rfl⟩ := ih hl₁
    obtain ⟨rfl, rfl⟩ := he.unique he₁
    exact ⟨rfl, rfl⟩

/-- No shorter path leads to the type at the end of a path. -/
def Direct (s : Store) (t : TypeId) (path : List Nat) (u : TypeId) : Prop :=
  ∀ path' b', s.Leads t path' b' u → path.length ≤ path'.length

lemma Direct.init (h : s.Direct t (path ++ [i]) v) (he : s.Embeds u i p v) : s.Direct t path u := by
  intro path' b' hl
  have := h _ _ (hl.embed he)
  simpa using this

/-- `o` is the first of a list of objects to have a name, at position `i`. -/
def FirstNamed (s : Store) (name : String) (os : List ObjectId) (i : Nat) (o : ObjectId) : Prop :=
  os[i]? = some o ∧ (s.object o).name = name ∧
    ∀ j < i, ∀ o', os[j]? = some o' → (s.object o').name ≠ name

/-- A type that is no defined type, or one without a method of a name. -/
def LacksMethod (s : Store) (name : String) (t : TypeId) : Prop :=
  ∀ n, s.type t = .named n → ∀ m ∈ n.methods, (s.object m).name ≠ name

/-- The field or method `o` at position `i` of `t` itself. Methods of a defined type hide fields. -/
inductive Owns (s : Store) (name : String) (t : TypeId) : Nat → ObjectId → Prop
  | method {n : NamedType} {i : Nat} {m : ObjectId} :
    s.type t = .named n → s.FirstNamed name n.methods i m → Owns s name t i m
  | field {i : Nat} {f : ObjectId} :
    s.LacksMethod name t → s.shape t = .struct fields → fields[i]? = some f →
    (s.object f).name = name → Owns s name t i f
  | interfaceMethod {i : Nat} {m : ObjectId} :
    s.LacksMethod name t → s.shape t = .interface iface → s.FirstNamed name iface.methods i m →
    Owns s name t i m

/-- A path from a type to a field or method, perhaps through a pointer, but not one to an
interface. -/
inductive Selects (s : Store) (t : TypeId) (name : String) : List Nat → ObjectId → Bool → Prop
  | intro {u : TypeId} {pointer : Bool} {path : List Nat} {b : Bool} {v : TypeId} {i : Nat}
      {o : ObjectId} :
    s.dereference t = (u, pointer) → ¬ (pointer = true ∧ s.isInterface u = true) →
    s.Leads u path b v → s.Owns name v i o → Selects s t name (path ++ [i]) o (pointer || b)

/-- A path to a field or method of a name, of the least length of all of them. -/
def SelectsFirst (s : Store) (t : TypeId) (name : String) (path : List Nat) (o : ObjectId)
    (indirect : Bool) : Prop :=
  s.Selects t name path o indirect ∧
    ∀ path' o' b', s.Selects t name path' o' b' → path.length ≤ path'.length

/-- The only path of the least length to a field or method of a name. -/
def SelectsOnly (s : Store) (t : TypeId) (name : String) (path : List Nat) (o : ObjectId)
    (indirect : Bool) : Prop :=
  s.SelectsFirst t name path o indirect ∧
    ∀ path' o' b', s.SelectsFirst t name path' o' b' → path' = path

lemma FirstNamed.unique (h : s.FirstNamed name os i o)
    (h' : s.FirstNamed name os j o') : i = j ∧ o = o' := by
  obtain ⟨hi, hn, hlt⟩ := h
  obtain ⟨hj, hn', hlt'⟩ := h'
  have hij : i = j := by
    rcases Nat.lt_trichotomy i j with hij | hij | hij
    · exact absurd hn (hlt' i hij o hi)
    · exact hij
    · exact absurd hn' (hlt j hij o' hj)
  subst hij
  exact ⟨rfl, Option.some.inj (hi.symm.trans hj)⟩

lemma FirstNamed.not_lacksMethod (ht : s.type t = .named n)
    (h : s.FirstNamed name n.methods i o) : ¬ s.LacksMethod name t :=
  fun hl => hl n ht o (mem_of_getElem? h.1) h.2.1

/-- At a position a type has at most one field or method of a name. -/
lemma Owns.unique (h : s.Owns name t i o) (h' : s.Owns name t i o') : o = o' := by
  cases h with
  | method ht hf =>
    cases h' with
    | method ht' hf' =>
      cases ht.symm.trans ht'
      exact (hf.unique hf').2
    | field hl _ _ _ | interfaceMethod hl _ _ => exact absurd hl (hf.not_lacksMethod ht)
  | field hl hs hf hn =>
    cases h' with
    | method ht' hf' => exact absurd hl (hf'.not_lacksMethod ht')
    | field _ hs' hf' _ =>
      cases hs.symm.trans hs'
      exact Option.some.inj (hf.symm.trans hf')
    | interfaceMethod _ hs' _ => simp [hs] at hs'
  | interfaceMethod hl hs hf =>
    cases h' with
    | method ht' hf' => exact absurd hl (hf'.not_lacksMethod ht')
    | field _ hs' _ _ => simp [hs] at hs'
    | interfaceMethod _ hs' hf' =>
      cases hs.symm.trans hs'
      exact (hf.unique hf').2

lemma Selects.unique (h : s.Selects t name path o b) (h' : s.Selects t name path o' b') :
    o = o' ∧ b = b' := by
  cases h with
  | intro hd _ hl ho =>
    generalize hq : _ ++ [_] = q at h'
    cases h' with
    | intro hd' _ hl' ho' =>
      obtain ⟨rfl, hi⟩ := append_inj' hq rfl
      obtain rfl := singleton_inj.mp hi
      cases hd.symm.trans hd'
      obtain ⟨rfl, rfl⟩ := hl.unique hl'
      exact ⟨ho.unique ho', rfl⟩

/-- A type without a name of its own embeds another type. -/
def EmbedsUnnamed (s : Store) (t u : TypeId) : Prop :=
  (∀ n, s.type t ≠ .named n) ∧ ∃ i p, s.Embeds t i p u

/-- Every cycle of embedded types goes through a defined type: there is none among the others. -/
def CyclesNamed (s : Store) : Prop := ∀ t, ¬ Relation.TransGen s.EmbedsUnnamed t t

end Store

/-! ## One level of a search -/

variable {s : Store} {c d : Candidate} {st : LevelState} {cs : List Candidate}

/-- A field or method found in a candidate. -/
structure Hit where
  candidate : Candidate
  index : Nat
  object : ObjectId

/-- The embedded fields on the way, and the entry last. -/
def Hit.path (h : Hit) : List Nat := h.candidate.path ++ [h.index]

namespace Store

/-- The objects of a name in a list, with their positions counted from `i`. -/
def namedFrom (s : Store) (name : String) : Nat → List ObjectId → List (Nat × ObjectId)
  | _, [] => []
  | i, o :: os =>
    if (s.object o).name = name then (i, o) :: s.namedFrom name (i + 1) os
    else s.namedFrom name (i + 1) os

/-- The candidates that the embedded fields of a list lead to, with positions counted from `i`. -/
def embeddedFrom (s : Store) (c : Candidate) : Nat → List ObjectId → List Candidate
  | _, [] => []
  | i, f :: fs => (s.embeddedBy c i f).toList ++ s.embeddedFrom c (i + 1) fs

/-- The fields or methods of a name beneath a type. -/
def shapeEntries (s : Store) (name : String) (t : TypeId) : List (Nat × ObjectId) :=
  match s.shape t with
  | .struct fields => s.namedFrom name 0 fields
  | .interface iface => (s.findNamed name 0 iface.methods).toList
  | _ => []

/-- The fields and methods of a name that a type has by itself. -/
def ownEntries (s : Store) (name : String) (t : TypeId) : List (Nat × ObjectId) :=
  match s.type t with
  | .named n =>
    match s.findNamed name 0 n.methods with
    | some e => [e]
    | none => s.shapeEntries name t
  | _ => s.shapeEntries name t

/-- What a candidate has for a name. -/
def hitsIn (s : Store) (name : String) (c : Candidate) : List Hit :=
  (s.ownEntries name c.type).map fun e => ⟨c, e.1, e.2⟩

/-- The candidates that a candidate embeds. -/
def embeddedIn (s : Store) (c : Candidate) : List Candidate :=
  match s.shape c.type with
  | .struct fields => s.embeddedFrom c 0 fields
  | _ => []

lemma getElem?_cons_sub {a b : α} : i ≤ j ∧ (a :: l)[j - i]? = some b ↔
      j = i ∧ a = b ∨ i + 1 ≤ j ∧ l[j - (i + 1)]? = some b := by
  rcases Nat.lt_trichotomy j i with hlt | rfl | hlt
  · omega
  · simp only [Nat.le_refl, Nat.sub_self, getElem?_cons_zero, Option.some.injEq, true_and,
      Nat.not_succ_le_self, false_and, or_false]
  · rw [show j - i = j - (i + 1) + 1 by omega, getElem?_cons_succ]
    simp [Nat.succ_le_of_lt hlt, Nat.le_of_lt hlt, Nat.ne_of_gt hlt]

lemma mem_namedFrom : (j, o) ∈ s.namedFrom name i os ↔
      (i ≤ j ∧ os[j - i]? = some o) ∧ (s.object o).name = name := by
  induction os generalizing i with
  | nil => simp [namedFrom]
  | cons a os ih =>
    rw [getElem?_cons_sub, or_and_right, ← ih, namedFrom]
    split
    · rename_i ha
      rw [mem_cons, Prod.mk.injEq]
      refine or_congr_left ⟨?_, fun h => ⟨h.1.1, h.1.2.symm⟩⟩
      rintro ⟨rfl, rfl⟩
      exact ⟨⟨rfl, rfl⟩, ha⟩
    · rename_i ha
      refine (or_iff_right ?_).symm
      rintro ⟨⟨-, rfl⟩, hname⟩
      exact ha hname

lemma nodup_namedFrom (os : List ObjectId) : ((s.namedFrom name i os).map (·.1)).Nodup := by
  induction os generalizing i with
  | nil => simp [namedFrom]
  | cons a os ih =>
    unfold namedFrom
    split
    · rw [map_cons, nodup_cons]
      refine ⟨?_, ih⟩
      intro hmem
      obtain ⟨⟨j, o⟩, he, hj⟩ := mem_map.mp hmem
      have := (mem_namedFrom.mp he).1.1
      simp at hj
      omega
    · exact ih

lemma findNamed_eq_some :
    s.findNamed name i os = some (j, o) ↔ i ≤ j ∧ s.FirstNamed name os (j - i) o := by
  -- positions are counted from `i`, so those in the tail from `i + 1`
  induction os generalizing i with
  | nil => simp [findNamed, FirstNamed]
  | cons a os ih =>
    unfold findNamed
    split
    · rename_i ha
      constructor
      · intro h
        cases h
        simp [FirstNamed, ha]
      · rintro ⟨hle, hget, -, hfirst⟩
        have hji : j = i := by
          by_contra hne
          exact hfirst 0 (by omega) a rfl ha
        subst hji
        simp at hget
        rw [hget]
    · rename_i ha
      rw [ih]
      constructor
      · rintro ⟨hle, hget, hname, hfirst⟩
        refine ⟨by omega, ?_, hname, ?_⟩
        · rw [show j - i = (j - (i + 1)) + 1 by omega]
          simpa using hget
        · intro k hk o' ho'
          cases k with
          | zero =>
            simp at ho'
            exact ho' ▸ ha
          | succ k => exact hfirst k (by omega) o' (by simpa using ho')
      · rintro ⟨hle, hget, hname, hfirst⟩
        have hne : j ≠ i := by
          rintro rfl
          simp at hget
          exact ha (hget ▸ hname)
        refine ⟨by omega, ?_, hname, ?_⟩
        · rw [show j - i = (j - (i + 1)) + 1 by omega] at hget
          simpa using hget
        · intro k hk o' ho'
          exact hfirst (k + 1) (by omega) o' (by simpa using ho')

lemma findNamed_zero_eq_some : s.findNamed name 0 os = some (j, o) ↔ s.FirstNamed name os j o := by
  rw [findNamed_eq_some]
  simp

lemma findNamed_eq_none : s.findNamed name i os = none ↔ ∀ m ∈ os, (s.object m).name ≠ name := by
  induction os generalizing i with
  | nil => simp [findNamed]
  | cons a os ih =>
    unfold findNamed
    split
    · rename_i ha
      simp [ha]
    · rename_i ha
      simp [ih, ha]

lemma lacksMethod_of_findNamed (ht : s.type t = .named n)
    (h : s.findNamed name 0 n.methods = none) : s.LacksMethod name t := by
  intro n' ht' m hm
  cases ht.symm.trans ht'
  exact findNamed_eq_none.mp h m hm

lemma mem_shapeEntries : (j, o) ∈ s.shapeEntries name t ↔
      (∃ fields, s.shape t = .struct fields ∧ fields[j]? = some o ∧ (s.object o).name = name) ∨
      ∃ iface, s.shape t = .interface iface ∧ s.FirstNamed name iface.methods j o := by
  unfold shapeEntries
  split
  · rename_i fields hs
    rw [mem_namedFrom]
    simp [hs]
  · rename_i iface hs
    rw [Option.mem_toList, findNamed_zero_eq_some]
    simp [hs]
  · rename_i hstruct hiface
    simp only [not_mem_nil, false_iff, not_or, not_exists, not_and]
    exact ⟨fun fields hs => absurd hs (hstruct fields), fun iface hs => absurd hs (hiface iface)⟩

lemma owns_of_mem_shapeEntries (hl : s.LacksMethod name t) (h : (j, o) ∈ s.shapeEntries name t) :
    s.Owns name t j o := by
  rcases mem_shapeEntries.mp h with ⟨fields, hs, hf, hn⟩ | ⟨iface, hs, hf⟩
  · exact .field hl hs hf hn
  · exact .interfaceMethod hl hs hf

lemma Owns.mem_shapeEntries (hl : s.LacksMethod name t) (h : s.Owns name t j o) :
    (j, o) ∈ s.shapeEntries name t := by
  cases h with
  | method ht hf => exact absurd hl (hf.not_lacksMethod ht)
  | field _ hs hf hn => exact Store.mem_shapeEntries.mpr (.inl ⟨_, hs, hf, hn⟩)
  | interfaceMethod _ hs hf => exact Store.mem_shapeEntries.mpr (.inr ⟨_, hs, hf⟩)

/-- The entries of a type are the fields and methods it owns. -/
lemma mem_ownEntries : (j, o) ∈ s.ownEntries name t ↔ s.Owns name t j o := by
  unfold ownEntries
  split
  · rename_i n ht
    split
    · rename_i e he
      obtain ⟨k, m⟩ := e
      have hf := findNamed_zero_eq_some.mp he
      rw [mem_singleton, Prod.mk.injEq]
      constructor
      · rintro ⟨rfl, rfl⟩
        exact .method ht hf
      · intro h
        cases h with
        | method ht' hf' =>
          cases ht.symm.trans ht'
          exact hf'.unique hf
        | field hl _ _ _ | interfaceMethod hl _ _ => exact absurd hl (hf.not_lacksMethod ht)
    · rename_i he
      have hl := lacksMethod_of_findNamed ht he
      exact ⟨owns_of_mem_shapeEntries hl, Owns.mem_shapeEntries hl⟩
  · rename_i hn
    have hl : s.LacksMethod name t := fun n ht => absurd ht (hn n)
    exact ⟨owns_of_mem_shapeEntries hl, Owns.mem_shapeEntries hl⟩

lemma nodup_shapeEntries : ((s.shapeEntries name t).map (·.1)).Nodup := by
  unfold shapeEntries
  split
  · exact nodup_namedFrom _
  · cases s.findNamed name 0 _ <;> simp
  · simp

lemma nodup_ownEntries : ((s.ownEntries name t).map (·.1)).Nodup := by
  unfold ownEntries
  split
  · split
    · simp
    · exact nodup_shapeEntries
  · exact nodup_shapeEntries

lemma embeddedBy_eq_some : s.embeddedBy c i f = some d ↔
      ∃ ft p, (s.object f).isEmbedded ∧ (s.object f).type = some ft ∧
        s.dereference ft = (d.type, p) ∧
        d = ⟨d.type, c.path ++ [i], c.indirect || p, c.multiple⟩ := by
  unfold embeddedBy
  split
  · rename_i ft he ht
    rcases hd : s.dereference ft with ⟨u, p⟩
    constructor
    · intro h
      cases h
      exact ⟨ft, p, he, ht, hd, rfl⟩
    · rintro ⟨ft', p', -, ht', hd', hc⟩
      cases ht.symm.trans ht'
      obtain ⟨hu, rfl⟩ := Prod.mk.inj (hd.symm.trans hd')
      rw [hc, ← hu]
  · rename_i hno
    constructor
    · intro h
      cases h
    · rintro ⟨ft, -, he, ht, -⟩
      exact absurd ht (hno ft he)

lemma mem_embeddedFrom : d ∈ s.embeddedFrom c i fs ↔
      ∃ j f, (i ≤ j ∧ fs[j - i]? = some f) ∧ s.embeddedBy c j f = some d := by
  induction fs generalizing i with
  | nil => simp [embeddedFrom]
  | cons a fs ih =>
    simp only [getElem?_cons_sub, or_and_right, exists_or, ← ih, embeddedFrom, mem_append,
      Option.mem_toList]
    simp

/-- The candidates that a candidate embeds are the ends of its path continued by a step. -/
lemma mem_embeddedIn : d ∈ s.embeddedIn c ↔ ∃ i p, s.Embeds c.type i p d.type ∧
        d = ⟨d.type, c.path ++ [i], c.indirect || p, c.multiple⟩ := by
  unfold embeddedIn
  split
  · rename_i fields hs
    rw [mem_embeddedFrom]
    constructor
    · rintro ⟨j, f, ⟨-, hget⟩, hd⟩
      obtain ⟨ft, p, he, ht, hdr, hc⟩ := embeddedBy_eq_some.mp hd
      exact ⟨j, p, ⟨fields, f, ft, hs, hget, he, ht, hdr⟩, hc⟩
    · rintro ⟨j, p, ⟨fields', f, ft, hs', hget, he, ht, hdr⟩, hc⟩
      cases hs.symm.trans hs'
      exact ⟨j, f, ⟨Nat.zero_le j, hget⟩, embeddedBy_eq_some.mpr ⟨ft, p, he, ht, hdr, hc⟩⟩
  · rename_i hno
    simp only [not_mem_nil, false_iff]
    rintro ⟨j, p, ⟨fields, f, ft, hs, -⟩, -⟩
    exact hno fields hs

lemma nodup_embeddedFrom (fs : List ObjectId) : ((s.embeddedFrom c i fs).map (·.path)).Nodup := by
  induction fs generalizing i with
  | nil => simp [embeddedFrom]
  | cons a fs ih =>
    unfold embeddedFrom
    cases hd : s.embeddedBy c i a with
    | none => simpa using ih
    | some d =>
      obtain ⟨ft, p, -, -, -, hc⟩ := embeddedBy_eq_some.mp hd
      rw [Option.toList_some, singleton_append, map_cons, nodup_cons]
      refine ⟨?_, ih⟩
      intro hmem
      obtain ⟨d', hd', hpath⟩ := mem_map.mp hmem
      obtain ⟨j, f, ⟨hle, -⟩, he⟩ := mem_embeddedFrom.mp hd'
      obtain ⟨ft', p', -, -, -, hc'⟩ := embeddedBy_eq_some.mp he
      rw [hc, hc'] at hpath
      have hji : j = i := by simpa using hpath
      omega

lemma nodup_embeddedIn : ((s.embeddedIn c).map (·.path)).Nodup := by
  unfold embeddedIn
  split
  · exact nodup_embeddedFrom _
  · simp

end Store

/-- The state of a scan after the given hits: none, or one in an unmarked candidate. -/
def Tally (hs : List Hit) (st : LevelState) : Prop :=
  match hs with
  | [] => st.found = none
  | [h] => h.candidate.multiple = false ∧ st.found = some (h.object, h.path, h.candidate.indirect)
  | _ => False

/-- The outcome of a scan over hits: an answer if too many, else a state. Without hits candidates
are added. -/
def Scanned (hs₀ hs : List Hit) (st : LevelState) (next : List Candidate) (seen : List TypeId) :
    Except (List Nat) LevelState → Prop
  | .ok st' =>
    Tally (hs₀ ++ hs) st' ∧ st'.seen = seen ∧ (hs₀ ++ hs = [] → st'.next = st.next ++ next)
  | .error path =>
    (∃ h ∈ hs, path = h.path) ∧
      (2 ≤ (hs₀ ++ hs).length ∨ ∃ h ∈ hs₀ ++ hs, h.candidate.multiple = true)

section Scan

lemma Tally.found_eq_none (h : Tally hs st) : st.found = none ↔ hs = [] := by
  match hs with
  | [] => simpa [Tally] using h
  | [a] =>
    have := h.2
    simp [this]
  | _ :: _ :: _ => exact h.elim

lemma Scanned.nothing (h : Tally hs₀ st) : Scanned hs₀ [] st [] st.seen (.ok st) := by
  refine ⟨?_, rfl, ?_⟩
  · rwa [append_nil]
  · intro _
    rw [append_nil]

lemma Scanned.bind {f : LevelState → Except (List Nat) LevelState}
    (h : Scanned hs₀ hs₁ st next₁ seen₁ r)
    (hf : ∀ st', Tally (hs₀ ++ hs₁) st' → st'.seen = seen₁ →
      Scanned (hs₀ ++ hs₁) hs₂ st' next₂ seen₂ (f st')) :
    Scanned hs₀ (hs₁ ++ hs₂) st (next₁ ++ next₂) seen₂ (r >>= f) := by
  cases r with
  | error path =>
    obtain ⟨⟨a, ha, hpath⟩, hmany⟩ := h
    refine ⟨⟨a, mem_append_left _ ha, hpath⟩, ?_⟩
    rcases hmany with hlen | ⟨a', ha', hm⟩
    · left
      simp only [length_append] at hlen ⊢
      omega
    · right
      refine ⟨a', ?_, hm⟩
      rw [← append_assoc]
      exact mem_append_left _ ha'
  | ok st' =>
    obtain ⟨htally, hseen, hnext⟩ := h
    change Scanned hs₀ (hs₁ ++ hs₂) st (next₁ ++ next₂) seen₂ (f st')
    have h' := hf st' htally hseen
    cases hr : f st' with
    | error path =>
      rw [hr] at h'
      obtain ⟨⟨a, ha, hpath⟩, hmany⟩ := h'
      rw [append_assoc] at hmany
      exact ⟨⟨a, mem_append_right _ ha, hpath⟩, hmany⟩
    | ok st'' =>
      rw [hr] at h'
      obtain ⟨htally', hseen', hnext'⟩ := h'
      rw [append_assoc] at htally' hnext'
      refine ⟨htally', hseen', ?_⟩
      intro hnil
      rw [hnext' hnil, hnext (append_eq_nil_iff.mp (by rwa [append_assoc])).1,
        append_assoc]

lemma scanned_noteFound (c : Candidate) (i : Nat) (o : ObjectId) (next : List Candidate)
    (h : Tally hs₀ st) : Scanned hs₀ [⟨c, i, o⟩] st next st.seen (noteFound c i o st) := by
  have hfound := h.found_eq_none
  unfold noteFound
  by_cases hm : c.multiple
  · simp only [hm, Bool.true_or, ↓reduceIte]
    exact ⟨⟨_, mem_singleton_self _, rfl⟩, .inr ⟨_, mem_append_right _
      (mem_singleton_self _), hm⟩⟩
  · simp only [hm, Bool.false_or]
    cases hf : st.found with
    | some e =>
      simp only [Option.isSome_some, ↓reduceIte]
      refine ⟨⟨_, mem_singleton_self _, rfl⟩, .inl ?_⟩
      have hne : hs₀ ≠ [] := fun hnil => by simp [hfound.mpr hnil] at hf
      have := length_pos_iff.mpr hne
      simp only [length_append, length_singleton]
      omega
    | none =>
      obtain rfl := hfound.mp hf
      refine ⟨⟨?_, rfl⟩, rfl, ?_⟩
      · simpa using hm
      · intro hnil
        simp at hnil

/-- The fields of a struct. Embedded ones count for the next level while no field has the name. -/
lemma scanned_scanFields (fs : List ObjectId) (i : Nat) (h : Tally hs₀ st) :
    Scanned hs₀ ((s.namedFrom name i fs).map fun e => ⟨c, e.1, e.2⟩) st (s.embeddedFrom c i fs)
      st.seen (s.scanFields name c i fs st) := by
  induction fs generalizing i hs₀ st with
  | nil => exact .nothing h
  | cons f fs ih =>
    by_cases hname : (s.object f).name = name
    · simp only [scanFields, namedFrom, embeddedFrom, if_pos hname]
      have hnote := scanned_noteFound c i f (s.embeddedBy c i f).toList h
      exact hnote.bind fun st' htally hseen => hseen ▸ ih (i + 1) htally
    · simp only [scanFields, namedFrom, embeddedFrom, if_neg hname]
      -- The state with the embedded field added has met the same hits.
      have hstep : Scanned hs₀ [] st (s.embeddedBy c i f).toList st.seen (.ok
          { st with next := if st.found.isSome then st.next
                            else st.next ++ (s.embeddedBy c i f).toList }) := by
        rw [← append_nil hs₀] at h
        refine ⟨?_, rfl, ?_⟩
        · simpa [Tally] using h
        · intro hnil
          have hfound := h.found_eq_none.mpr hnil
          simp [hfound]
      exact hstep.bind fun st' htally hseen => hseen ▸ ih (i + 1) htally

lemma scanned_scanShape (s : Store) (name : String) (c : Candidate) (h : Tally hs₀ st) :
    Scanned hs₀ ((s.shapeEntries name c.type).map fun e => ⟨c, e.1, e.2⟩) st (s.embeddedIn c)
      st.seen (s.scanShape name c st) := by
  unfold scanShape shapeEntries embeddedIn
  cases s.shape c.type with
  | struct fields => exact scanned_scanFields fields 0 h
  | interface iface =>
    dsimp only
    cases s.findNamed name 0 iface.methods with
    | some e => exact scanned_noteFound c e.1 e.2 [] h
    | none => exact .nothing h
  | _ => exact .nothing h

end Scan

namespace Store

def isDefined (s : Store) (t : TypeId) : Bool := s.type t matches .named _

/-- A defined type that an earlier level has searched. -/
def isSearched (s : Store) (seen : List TypeId) (c : Candidate) : Bool :=
  s.isDefined c.type && seen.contains c.type

/-- The candidates of a level that have not been searched before. -/
def active (s : Store) (seen : List TypeId) (cs : List Candidate) : List Candidate :=
  cs.filter fun c => !s.isSearched seen c

/-- The defined types searched after a candidate. -/
def seenWith (s : Store) (seen : List TypeId) (c : Candidate) : List TypeId :=
  if s.isDefined c.type && !seen.contains c.type then c.type :: seen else seen

lemma isDefined_iff : s.isDefined t ↔ ∃ n, s.type t = .named n := by
  unfold isDefined
  cases s.type t <;> simp

lemma mem_seenWith : t ∈ s.seenWith seen c ↔ t ∈ seen ∨ (s.isDefined t ∧ t = c.type) := by
  unfold seenWith
  split
  · rename_i hc
    rw [mem_cons]
    constructor
    · rintro (rfl | ht)
      · exact .inr ⟨(Bool.and_eq_true_iff.mp hc).1, rfl⟩
      · exact .inl ht
    · rintro (ht | ⟨-, rfl⟩)
      · exact .inr ht
      · exact .inl rfl
  · rename_i hc
    constructor
    · exact .inl
    · rintro (ht | ⟨hd, rfl⟩)
      · exact ht
      · simpa [hd] using hc

/-- A candidate that was searched before has no hits, any other has those of its type. -/
lemma scanCandidate_scanned (s : Store) (name : String) (c : Candidate) (h : Tally hs₀ st) :
    Scanned hs₀ (if s.isSearched st.seen c then [] else s.hitsIn name c) st
      (if s.isSearched st.seen c then [] else s.embeddedIn c) (s.seenWith st.seen c)
      (s.scanCandidate name c st) := by
  unfold scanCandidate isSearched seenWith hitsIn ownEntries
  cases ht : s.type c.type with
  | named n =>
    have hd : s.isDefined c.type := isDefined_iff.mpr ⟨n, ht⟩
    simp only [hd, Bool.true_and]
    cases hs : st.seen.contains c.type with
    | true => exact .nothing h
    | false =>
      have h' : Tally hs₀ { st with seen := c.type :: st.seen } := by simpa [Tally] using h
      simp only [Bool.false_eq_true, ↓reduceIte, Bool.not_false]
      cases hfind : s.findNamed name 0 n.methods with
      | some e => simpa [Scanned] using scanned_noteFound c e.1 e.2 (s.embeddedIn c) h'
      | none => simpa [Scanned] using scanned_scanShape s name c h'
  | _ =>
    have hd : s.isDefined c.type = false := by simp [isDefined, ht]
    simp only [hd, Bool.false_and, Bool.false_eq_true, ↓reduceIte]
    exact scanned_scanShape s name c h

/-- The defined types searched after a level. -/
def seenAfter (s : Store) : List TypeId → List Candidate → List TypeId
  | seen, [] => seen
  | seen, c :: cs => s.seenAfter (s.seenWith seen c) cs

lemma mem_seenAfter :
    t ∈ s.seenAfter seen cs ↔ t ∈ seen ∨ (s.isDefined t ∧ ∃ c ∈ cs, t = c.type) := by
  induction cs generalizing seen with
  | nil => simp [seenAfter]
  | cons c cs ih =>
    unfold seenAfter
    rw [ih, mem_seenWith]
    simp only [mem_cons, exists_eq_or_imp]
    tauto

lemma isSearched_seenWith (h : d.type ≠ c.type) :
    s.isSearched (s.seenWith seen c) d = s.isSearched seen d := by
  have hmem : d.type ∈ s.seenWith seen c ↔ d.type ∈ seen := by
    rw [mem_seenWith]
    simp [h]
  unfold isSearched
  congr 1
  rw [Bool.eq_iff_iff]
  simpa using hmem

/-- A level of different types: hits and the next level come from candidates not yet searched. -/
lemma scanLevel_scanned (s : Store) (name : String) (cs : List Candidate) (hs₀ : List Hit)
    (st : LevelState) (hnd : (cs.map (·.type)).Nodup) (h : Tally hs₀ st) :
    Scanned hs₀ ((s.active st.seen cs).flatMap (s.hitsIn name)) st
      ((s.active st.seen cs).flatMap s.embeddedIn) (s.seenAfter st.seen cs)
      (s.scanLevel name cs st) := by
  induction cs generalizing hs₀ st with
  | nil => exact .nothing h
  | cons c cs ih =>
    rw [map_cons, nodup_cons] at hnd
    have hrest : s.active (s.seenWith st.seen c) cs = s.active st.seen cs := by
      refine filter_congr fun d hd => ?_
      rw [isSearched_seenWith]
      intro heq
      exact hnd.1 (heq ▸ mem_map_of_mem hd)
    have hfirst := scanCandidate_scanned s name c h
    unfold scanLevel seenAfter
    have hall := hfirst.bind fun st' htally hseen => by
      have := ih _ _ hnd.2 htally
      rwa [hseen, hrest] at this
    by_cases hc : s.isSearched st.seen c
    · simpa [active, filter_cons, hc] using hall
    · simpa [active, filter_cons, hc] using hall

end Store

section Merge

lemma hasCandidate_iff : hasCandidate cs t ↔ ∃ c ∈ cs, c.type = t := by
  simp [hasCandidate]

lemma mergeCandidates_concat (cs : List Candidate) (c : Candidate) : mergeCandidates (cs ++ [c]) =
      if hasCandidate (mergeCandidates cs) c.type then
        (mergeCandidates cs).map fun d => if d.type = c.type then { d with multiple := true } else d
      else mergeCandidates cs ++ [c] := by
  unfold mergeCandidates
  rw [foldl_append]
  rfl

lemma map_type_mark (ms : List Candidate) :
    (ms.map fun d => if d.type = c.type then { d with multiple := true } else d).map (·.type) =
      ms.map (·.type) := by
  rw [map_map]
  refine map_congr_left fun d _ => ?_
  by_cases hd : d.type = c.type <;> simp [hd]

/-- Merging neither loses a type nor adds one. -/
lemma hasCandidate_mergeCandidates (cs : List Candidate) (t : TypeId) :
    hasCandidate (mergeCandidates cs) t = hasCandidate cs t := by
  induction cs using reverseRecOn with
  | nil => rfl
  | append_singleton cs c ih =>
    have happ : hasCandidate (cs ++ [c]) t = (hasCandidate cs t || decide (c.type = t)) := by
      simp [hasCandidate]
    have htypes : ∀ ms ms', ms.map (·.type) = ms'.map (·.type) →
        hasCandidate ms t = hasCandidate ms' t := by
      intro ms ms' h
      have := congrArg (any · fun u => decide (u = t)) h
      simpa [hasCandidate, any_map, Function.comp_def] using this
    rw [mergeCandidates_concat, happ]
    split
    · rename_i hc
      rw [htypes _ _ (map_type_mark _), ih]
      by_cases ht : c.type = t
      · subst ht
        simp [← ih, hc]
      · simp [ht]
    · have happ' : hasCandidate (mergeCandidates cs ++ [c]) t =
          (hasCandidate (mergeCandidates cs) t || decide (c.type = t)) := by
        simp [hasCandidate]
      rw [happ', ih]

lemma nodup_mergeCandidates (cs : List Candidate) : ((mergeCandidates cs).map (·.type)).Nodup := by
  induction cs using reverseRecOn with
  | nil => simp [mergeCandidates]
  | append_singleton cs c ih =>
    rw [mergeCandidates_concat]
    split
    · rwa [map_type_mark]
    · rename_i hc
      rw [map_append, map_singleton, nodup_append]
      refine ⟨ih, nodup_singleton _, ?_⟩
      rintro u hu v hv rfl
      obtain rfl := mem_singleton.mp hv
      obtain ⟨d, hd, hdt⟩ := mem_map.mp hu
      exact hc (hasCandidate_iff.mpr ⟨d, hd, hdt⟩)

/-- A merged candidate is the first of its type, marked if its type occurs again. -/
lemma mergeCandidates_spec (hm : m ∈ mergeCandidates cs) :
    ∃ l c r, cs = l ++ c :: r ∧ (∀ d ∈ l, d.type ≠ c.type) ∧
      m = { c with multiple := c.multiple || hasCandidate r c.type } := by
  induction cs using reverseRecOn generalizing m with
  | nil => simp [mergeCandidates] at hm
  | append_singleton cs a ih =>
    rw [mergeCandidates_concat] at hm
    split at hm
    · obtain ⟨d, hd, rfl⟩ := mem_map.mp hm
      obtain ⟨l, c, r, rfl, hl, rfl⟩ := ih hd
      refine ⟨l, c, r ++ [a], by simp, hl, ?_⟩
      by_cases hac : c.type = a.type
      · simp [hasCandidate, hac]
      · simp [hasCandidate, hac, Ne.symm hac]
    · rename_i hnew
      rcases mem_append.mp hm with hold | hnew'
      · obtain ⟨l, c, r, rfl, hl, rfl⟩ := ih hold
        refine ⟨l, c, r ++ [a], by simp, hl, ?_⟩
        have hac : a.type ≠ c.type := by
          intro heq
          exact hnew (hasCandidate_iff.mpr ⟨_, hold, heq.symm⟩)
        simp [hasCandidate, hac]
      · obtain rfl := mem_singleton.mp hnew'
        refine ⟨cs, m, [], rfl, ?_, by simp [hasCandidate]⟩
        intro d hd heq
        rw [hasCandidate_mergeCandidates] at hnew
        exact hnew (hasCandidate_iff.mpr ⟨d, hd, heq⟩)

end Merge

end GoCheck
