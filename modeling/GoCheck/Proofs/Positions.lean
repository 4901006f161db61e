import GoCheck.Source.File
import Mathlib.Algebra.BigOperators.Group.List.Basic
import Mathlib.Order.Nat

/-!
# Positions identify files

Each file is laid out after the end of the one before, with a position between them that belongs to
neither. So a position lies in one file at most, also the position after its last octet.
-/

namespace GoCheck

open List

/-- A position of the file, its end included. -/
def SourceFile.Holds (f : SourceFile) (pos : Nat) : Prop := f.span.start ≤ pos ∧ pos ≤ f.span.stop

namespace SourceMap

variable {m : SourceMap} {f : SourceFile}

/-- The last position that is taken by files with given names and texts. -/
def extent : List (String × String) → Nat
  | [] => 0
  | file :: rest => file.2.utf8ByteSize + 1 + extent rest

/-- The files that have been added, one after the other in the positions from one on. -/
structure LaidOut (m : SourceMap) (added : List (String × String)) : Prop where
  files : m.files.map (fun f => (f.name, f.source)) = added
  next : m.nextBase = extent added + 1
  within : ∀ f ∈ m.files, 0 < f.base ∧ f.span.stop ≤ extent added
  apart : m.files.Pairwise fun f g => f.span.stop < g.base

lemma extent_append (added : List (String × String)) (name source : String) :
    extent (added ++ [(name, source)]) = extent added + 1 + source.utf8ByteSize := by
  induction added with
  | nil =>
    simp only [nil_append, extent]
    omega
  | cons file rest ih =>
    rw [cons_append, extent, extent, ih]
    omega

/-- One more file begins after the gap and takes as many positions as its text has octets. -/
lemma LaidOut.add (h : m.LaidOut added) (name source : String) :
    (m.add name source).2.LaidOut (added ++ [(name, source)]) := by
  have hstop : (m.add name source).1.span.stop = extent (added ++ [(name, source)]) := by
    rw [extent_append, ← h.next]
    rfl
  refine ⟨?_, ?_, fun f hf => ?_, ?_⟩
  · simp [SourceMap.add, h.files]
  · rw [← hstop]
    simp [nextBase, SourceMap.add]
  · rcases mem_append.mp hf with hold | hnew
    · have := h.within f hold
      rw [extent_append]
      omega
    · obtain rfl := mem_singleton.mp hnew
      exact ⟨h.next ▸ Nat.succ_pos _, le_of_eq hstop⟩
  · refine pairwise_append.mpr ⟨h.apart, pairwise_singleton .., fun f hf g hg => ?_⟩
    obtain rfl := mem_singleton.mp hg
    exact h.next ▸ Nat.lt_succ_of_le (h.within f hf).2

lemma laidOut_ofFiles (added : List (String × String)) : (ofFiles added).LaidOut added := by
  have hfold : ∀ rest m before, LaidOut m before →
      LaidOut (rest.foldl (fun m f => (m.add f.1 f.2).2) m) (before ++ rest) := by
    intro rest
    induction rest with
    | nil =>
      intro m before h
      rwa [append_nil]
    | cons f rest ih =>
      intro m before h
      rw [append_cons]
      exact ih _ _ (h.add f.1 f.2)
  exact hfold added {} [] ⟨rfl, rfl, by simp, .nil⟩

lemma LaidOut.disjoint (h : m.LaidOut added) :
    m.files.Pairwise fun f g => ∀ pos, f.Holds pos → ¬g.Holds pos :=
  h.apart.imp fun hlt _ hf hg => not_lt.mpr (le_trans hg.1 hf.2) hlt

/-- A file is found by each of its positions, since no file before it has that position. -/
lemma fileAt?_of_holds {files : List SourceFile}
    (h : files.Pairwise fun f g => ∀ pos, f.Holds pos → ¬g.Holds pos) (hf : f ∈ files)
    (hpos : f.Holds pos) : fileAt? ⟨files⟩ pos = some f := by
  induction files with
  | nil => cases hf
  | cons g files ih =>
    rw [pairwise_cons] at h
    unfold fileAt?
    rcases mem_cons.mp hf with rfl | hrest
    · exact find?_cons_of_pos (decide_eq_true hpos)
    · rw [find?_cons_of_neg]
      · exact ih h.2 hrest
      · simpa using fun hstart hstop => h.1 f hrest pos ⟨hstart, hstop⟩ hpos

/-- Files whose texts and gaps leave no position beyond 32 bits lie apart from each other and from
position zero. A span that begins in a file or at its end is found to be in that file, at the right
offset, and a span that begins elsewhere in none. -/
theorem positions_identify_files (added : List (String × String)) (hsize : extent added < 2 ^ 32) :
    (ofFiles added).files.map (fun f => (f.name, f.source)) = added ∧
    (ofFiles added).files.Pairwise (fun f g => ∀ pos, f.Holds pos → ¬g.Holds pos) ∧
    (∀ f ∈ (ofFiles added).files, ¬f.Holds 0 ∧ f.span = ⟨f.base, f.base + f.source.utf8ByteSize⟩ ∧
      f.span.stop < 2 ^ 32 ∧
      ∀ offset ≤ f.source.utf8ByteSize, ∀ span : Span, span.start = f.base + offset →
        (ofFiles added).fileAt? span.start = some f ∧ f.localOffset span.start = offset) ∧
    ∀ span : Span, (∀ f ∈ (ofFiles added).files, ¬f.Holds span.start) →
      (ofFiles added).fileAt? span.start = none := by
  have h := laidOut_ofFiles added
  refine ⟨h.files, h.disjoint, fun f hf => ?_, fun span hnone => ?_⟩
  · obtain ⟨hbase, hstop⟩ := h.within f hf
    refine ⟨fun hzero => not_lt.mpr hzero.1 hbase, rfl, lt_of_le_of_lt hstop hsize,
      fun offset hoffset span hspan => ?_⟩
    rw [hspan]
    refine ⟨fileAt?_of_holds h.disjoint hf ⟨Nat.le_add_right .., Nat.add_le_add_left hoffset _⟩, ?_⟩
    exact Nat.add_sub_cancel_left ..
  · refine find?_eq_none.mpr fun f hf hpos => hnone f hf ?_
    simpa [SourceFile.Holds] using hpos

/-- The end of an empty file between two others is in no other file. -/
theorem positions_identify_empty_file :
    extent [("a", "xy"), ("b", ""), ("c", "z")] < 2 ^ 32 ∧
      ((ofFiles [("a", "xy"), ("b", ""), ("c", "z")]).fileAt? 4).map (·.name) = some "b" := by
  have hsize : extent [("a", "xy"), ("b", ""), ("c", "z")] < 2 ^ 32 := by decide
  have hfile := (positions_identify_files _ hsize).2.2.1 ⟨1, "b", "", 4⟩ (.tail _ (.head _))
  exact ⟨hsize, congrArg _ (hfile.2.2.2 0 le_rfl ⟨4, 4⟩ rfl).1⟩

end SourceMap

end GoCheck
