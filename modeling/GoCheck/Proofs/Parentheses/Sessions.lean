import GoCheck.Proofs.Constants.Sessions
import GoCheck.Proofs.Parentheses.Records

/-!
# Recorded parentheses

An evaluation records an expression last; in parentheses, what is inside has been recorded just
before. So in every session about a program whose expressions have distinct numbers, parentheses are
recorded with the type and mode of what is inside. Only the value of a constant with a type may
differ.
-/

namespace GoCheck

open Operand Checker Regime Records List Pass

/-- The records of parentheses in `S` match those inside, and bodies put off are of the program. -/
structure Checker.TransparentOn (P : List Paren) (S : Nat → Prop) (c : Checker) : Prop where
  records : c.info.types.Agree c.store.isUntyped P S
  deferred : ∀ d ∈ c.deferred, Embedded P (blockIds d.body) (blockParens d.body)

/-- The records of parentheses match those inside. -/
abbrev Checker.Transparent (P : List Paren) (c : Checker) : Prop := c.TransparentOn P fun _ => True

lemma Checker.TransparentOn.of_eq {c d : Checker} (hc : c.TransparentOn P S)
    (hs : c.Steps d) (htypes : d.info.types = c.info.types) (hdeferred : d.deferred = c.deferred) :
    d.TransparentOn P S := by
  have huntyped := funext hs.isUntyped_eq
  refine ⟨?_, ?_⟩
  · rw [huntyped, htypes]
    exact hc.records
  · rw [hdeferred]
    exact hc.deferred

/-- An operand that stands for an expression as a whole, if for any. -/
def Operand.Rooted (P : List Paren) (x : Operand) : Prop :=
  ∀ e, x.expr = some e → Embedded P e.ids e.parens

/-- What is recorded about the expression of an operand. -/
def Operand.recorded? (x : Operand) : Option Recorded :=
  match x.mode, x.type with
  | .invalid, _ => none
  | .noValue, _ => some ⟨.noValue, .noValue⟩
  | m, some t => some ⟨m, t⟩
  | _, none => none

namespace Pass

variable {m : Pass α} {x : Operand} {e : Expr}

lemma transparent_of_eq (htypes : ∀ c, (m.1 c).2.info.types = c.info.types)
    (hdeferred : ∀ c, (m.1 c).2.deferred = c.deferred) : m.Preserves (Transparent P) :=
  preserves_of_state fun c hc => hc.of_eq (m.2 c) (htypes c) (hdeferred c)

lemma transparent_of_isQuiet (hm : m.IsQuiet fun _ => True) : m.Preserves (Transparent P) :=
  transparent_of_eq (fun c => (hm.quiet c).types) fun c => (hm.quiet c).deferred

variable {c : Checker} {m : Pass Evaluated}

lemma transparent_onRecords (hc : c.Transparent P)
    (hg : (g c.info.types).Agree c.store.isUntyped P S) : ((onRecords g).1 c).2.TransparentOn P S :=
  ⟨hg, hc.deferred⟩

/-- What an operand takes on is recorded for its expression as a whole. -/
lemma transparent_applyImplicit (hx : x.Rooted P)
    (hi : c.store.Implicitly x target i) (hc : c.Transparent P) :
    ((applyImplicit x i).1 c).2.Transparent P := by
  apply transparent_onRecords hc
  unfold recordImplicit
  cases hexpr : x.expr with
  | none => exact hc.records
  | some e =>
    have he := hx e hexpr
    have hretype u : ((if some u ≠ x.type then
        c.info.types.retype c.store.isUntyped u e else c.info.types)).Agree c.store.isUntyped P
          fun _ => True := by
      split
      · exact agree_retype_whole he hc.records
      · exact hc.records
    cases hi with
    | same =>
      cases htype : x.type with
      | none => exact hc.records
      | some u => simpa [htype] using hretype u
    | untyped | value | default => exact hretype _
    | constant hvalid hold huntyped hvalidTarget htyped =>
      -- a constant that changes takes on a type at the same time
      have hne : some target ≠ x.type := by
        rw [hold]
        rintro ⟨⟩
        rw [huntyped] at htyped
        cases htyped
      simp only [Option.elim, if_pos hne]
      exact agree_retype_setValue he hc.records htyped

lemma transparent_finishConversion (hx : x.Rooted P) :
    (finishConversion wasConstant x t).Preserves (Transparent P) := by
  have hrecord : (x.expr.forM fun e => recordConversion ⟨e, t, x.mode.isConstant⟩).Preserves
      (Transparent P) :=
    preserves_optionForM fun _ => transparent_of_eq (fun _ => rfl) fun _ => rfl
  refine hrecord.before fun _ => preserves_of_state fun c hc => ?_
  refine transparent_onRecords hc ?_
  unfold recordConverted
  split
  · rename_i old e htype hexpr
    split
    · exact agree_retype_whole (hx e hexpr) hc.records
    · exact hc.records
  · exact hc.records

/-- An evaluation that records its expression last, unless it fails. Until then the parentheses
around it may have an older record. -/
structure Settles (P : List Paren) (e : Expr) (m : Pass Evaluated) : Prop where
  expr : ∀ c, (m.1 c).1.1.expr = some e
  failed : ∀ c, c.Transparent P → (m.1 c).1.1.recorded? = none → (m.1 c).2.Transparent P
  recorded : ∀ c, c.Transparent P → ∀ r, (m.1 c).1.1.recorded? = some r →
    (m.1 c).2.TransparentOn P (· ≠ e.id) ∧ (m.1 c).2.info.types.find? e.id = some r

lemma types_record (id : Nat) (x : Operand) (c : Checker) : ((record id x).1 c).2.info.types =
      x.recorded?.elim c.info.types fun r => c.info.types.insert id r := by
  unfold record recorded?
  cases x.mode <;> cases x.type <;> rfl

lemma deferred_record (id : Nat) (x : Operand) (c : Checker) :
    ((record id x).1 c).2.deferred = c.deferred := by
  unfold record
  cases x.mode <;> cases x.type <;> rfl

/-- What an observed evaluation has done once the evaluation itself has run on `c`. -/
structure Concludes (e : Expr) (m : Pass Evaluated) (c : Checker) (r : Evaluated × Checker) :
    Prop where
  steps : (m.1 c).2.Steps r.2
  entry : r.1.1.recorded? = (m.1 c).1.1.recorded?
  types : r.2.info.types = (m.1 c).1.1.recorded?.elim (m.1 c).2.info.types
    fun recorded => (m.1 c).2.info.types.insert e.id recorded
  deferred : r.2.deferred = (m.1 c).2.deferred

/-- An observed evaluation records its outcome after everything else. -/
lemma concludes_observe (e : Expr) (m : Pass Evaluated) (c : Checker) : Concludes e m
    ((traceLine (fun _ => "expr[ " ++ e.text ++ " ]") >>= fun _ => indentTrace).1 c).2
    ((observe e m).1 c) := by
  have hafter (x : Operand) (d : Checker) :
      d.Quiet ((unindentTrace >>= fun _ => traceLine fun s => "=> " ++ x.describe s).1 d).2 :=
    IsQuiet.quiet (.bind .unindentTrace fun _ => IsQuiet.traceLine) d
  refine ⟨(conclude e _).2 _, rfl, ?_, ?_⟩
  · exact (hafter _ _).types.trans (types_record e.id _ _)
  · exact (hafter _ _).deferred.trans (deferred_record e.id _ _)

lemma exists_concludes_observe (e : Expr) (m : Pass Evaluated) (hc : c.Transparent P) :
    ∃ d, d.Transparent P ∧ Concludes e m d ((observe e m).1 c) :=
  ⟨_, (transparent_of_isQuiet (.bind .traceLine fun _ => .indentTrace)).state c hc,
    concludes_observe e m c⟩

namespace Concludes

variable {m : Pass Evaluated} {c : Checker} {r : Evaluated × Checker}

lemma transparent (h : Concludes e m c r) (hnone : r.1.1.recorded? = none)
    (hc : (m.1 c).2.TransparentOn P S) : r.2.TransparentOn P S := by
  have htypes := h.types
  rw [← h.entry, hnone] at htypes
  exact hc.of_eq h.steps htypes h.deferred

lemma settled (h : Concludes e m c r) (hsome : r.1.1.recorded? = some recorded)
    (hdeferred : (m.1 c).2.TransparentOn P S)
    (hagree : Agree (m.1 c).2.store.isUntyped P (· ≠ e.id)
      ((m.1 c).2.info.types.insert e.id recorded)) :
    r.2.TransparentOn P (· ≠ e.id) ∧ r.2.info.types.find? e.id = some recorded := by
  have htypes : r.2.info.types = (m.1 c).2.info.types.insert e.id recorded := by
    rw [h.types, ← h.entry, hsome]
    rfl
  have huntyped := funext h.steps.isUntyped_eq
  refine ⟨⟨?_, ?_⟩, ?_⟩
  · rw [htypes, huntyped]
    exact hagree
  · rw [h.deferred]
    exact hdeferred.deferred
  · rw [htypes, Table.find?_insert, if_pos rfl]

end Concludes

/-- What is not in parentheses is recorded after its parts have been. -/
lemma settles_observe (he : e.Lies P) (hparen : e.isParen = false)
    (hm : m.Always (Transparent P) F) : (observe e m).Settles P e := by
  refine ⟨fun c => rfl, fun c hc hnone => ?_, fun c hc r hr => ?_⟩
  · obtain ⟨d, hd, hconcludes⟩ := exists_concludes_observe e m hc
    exact hconcludes.transparent hnone (hm d hd).state
  · obtain ⟨d, hd, hconcludes⟩ := exists_concludes_observe e m hc
    have htransparent := (hm d hd).state
    refine hconcludes.settled hr htransparent ?_
    exact agree_insert (fun p hp => he.outer_ne_id hparen hp) htransparent.records

/-- Parentheses are recorded just after what is inside, as the same. -/
lemma settles_observe_paren {inner : Expr} (he : (Expr.paren n inner).Lies P)
    (hm : m.Settles P inner) : (observe (.paren n inner) m).Settles P (.paren n inner) := by
  refine ⟨fun c => rfl, fun c hc hnone => ?_, fun c hc r hr => ?_⟩
  · obtain ⟨d, hd, hconcludes⟩ := exists_concludes_observe (.paren n inner) m hc
    exact hconcludes.transparent hnone (hm.failed d hd (hconcludes.entry ▸ hnone))
  · obtain ⟨d, hd, hconcludes⟩ := exists_concludes_observe (.paren n inner) m hc
    obtain ⟨htransparent, hinner⟩ := hm.recorded d hd r (hconcludes.entry ▸ hr)
    exact hconcludes.settled hr htransparent
      (agree_insert_paren he htransparent.records hinner)

/-- Once an expression that nothing encloses is evaluated, all parentheses are settled. -/
lemma Settles.maintains (h : m.Settles P e) (he : Embedded P e.ids e.parens) :
    m.Maintains (Transparent P) fun r => r.1.Rooted P := by
  refine ⟨fun c hc => ?_, fun c hc e' he' => ?_⟩
  · cases hentry : (m.1 c).1.1.recorded? with
    | none => exact h.failed c hc hentry
    | some r =>
      have hsettled := (h.recorded c hc r hentry).1
      refine ⟨fun p hp _ => ?_, hsettled.deferred⟩
      exact hsettled.records p hp (he.inner_ne_id hp)
  · cases (h.expr c).symm.trans he'
    exact he

/-- What is recorded for an operand is recorded for its expression as a whole. -/
lemma transparent_discipline :
    Discipline (Transparent P) (fun _ => True) (Rooted P) (Rooted P) where
  newIn _ _ _ := trivial
  quiet hm _ := transparent_of_isQuiet hm
  restoreUse _ _ hd := (transparent_of_isQuiet .setUsed).state _ hd
  giveType := transparent_of_eq (fun _ => rfl) fun _ => rfl
  newConst := by
    refine ⟨(transparent_of_isQuiet .newConst).state, fun _ _ _ => ?_⟩
    exact transparent_of_eq (fun _ => rfl) fun _ => rfl
  declare _ := transparent_of_isQuiet (.declare trivial)
  emit _ _ _ _ := transparent_of_eq (fun _ => rfl) fun _ => rfl
  report _ := transparent_of_eq (fun _ => rfl) fun _ => rfl
  unpresentable _ _ _ := transparent_of_eq (fun _ => rfl) fun _ => rfl
  implicit hx hi hc := transparent_applyImplicit hx (Store.implicitly_of_implicit hi) hc
  finish hx := transparent_finishConversion hx
  accept hx _ _ := hx
  reject hx := hx
  invalidated hx := hx
  missing := fun _ he => nomatch he

/-- What is to be known of operands. -/
abbrev rooted (P : List Paren) : Notions :=
  .plain (Transparent P) (fun _ => True) (Rooted P) (Rooted P)

lemma Settles.keeps (h : m.Settles P e) (he : Embedded P e.ids e.parens) :
    Pending.Keeps (Transparent P) (rooted P) ⟨e, m⟩ := by
  refine ⟨(h.maintains he).outcome, fun t => ?_⟩
  rintro _ ⟨⟩
  exact he

mutual

/-- Every evaluation of an expression records it last. -/
theorem settles_eval {e : Expr} (he : e.Lies P) : e.eval.Settles P e := by
  have hd : Regime (Transparent P) (rooted P) := transparent_discipline.regime
  have hparts := he.parts
  cases e with rw [Expr.eval]
  | ident n i => exact settles_observe he rfl (Evaluates.asExpression fun _ hc => hd.name hc)
  | lit n kind raw =>
    exact settles_observe he rfl (Evaluates.asExpression fun _ hc => hd.literal hc)
  | funcLit n sig body =>
    refine settles_observe he rfl (Evaluates.asExpression fun _ hc =>
      hd.functionLiteral hc (sigCollects_false sig) fun _ _ c hc _ _ => ?_)
    refine ⟨⟨hc.records, fun d hd => ?_⟩, trivial⟩
    rcases List.mem_append.mp hd with hd | hd
    · exact hc.deferred d hd
    · rw [List.mem_singleton.mp hd]
      exact hparts
  | paren n inner => exact settles_observe_paren he (settles_eval he.lies_inner)
  | selector n base sel =>
    exact settles_observe he rfl (Evaluates.asExpression
      (hd.select ((settles_eval hparts.lies).keeps hparts).eval))
  | index n base index =>
    have hbase := hparts.left index.in_of_mem_parens
    have hindex := hparts.right base.in_of_mem_parens
    exact settles_observe he rfl (Evaluates.asExpression fun _ hc =>
      hd.indexInto hc ((settles_eval hbase.lies).keeps hbase).eval
        ((settles_eval hindex.lies).keeps hindex))
  | call n func args spread =>
    have hfunc := hparts.left (in_of_mem_exprsParens args)
    exact settles_observe he rfl fun _ hc =>
      hd.call hc (transparent_pending (hparts.right func.in_of_mem_parens))
        ((settles_eval hfunc.lies).keeps hfunc).eval
  | assert n base type =>
    exact settles_observe he rfl (Evaluates.asExpression
      (hd.assertType ((settles_eval hparts.lies).keeps hparts).eval type.collects_false))
  | unary n op operand =>
    exact settles_observe he rfl (Evaluates.asExpression
      (hd.unary ((settles_eval hparts.lies).keeps hparts).eval))
  | receive n channel =>
    exact settles_observe he rfl (Evaluates.asStatement
      (hd.receive ((settles_eval hparts.lies).keeps hparts).eval))

theorem transparent_pending (h : Embedded P (exprsIds es) (exprsParens es)) :
    ∀ p ∈ pending es, p.Keeps (Transparent P) (rooted P) := by
  cases es with
  | nil => simp [pending]
  | cons e es =>
    simp only [pending, List.forall_mem_cons]
    exact ⟨(settles_eval h.head.lies).keeps h.head, transparent_pending h.tail⟩

end

lemma transparent_eval (he : Embedded P e.ids e.parens) :
    e.Keeps (Transparent P) (rooted P) :=
  (settles_eval he.lies).keeps he

/-! ## Sessions -/

/-- The type of a pair is given to an expression and to what is inside its parentheses alike. -/
lemma transparent_recordPair (h : Embedded P (exprsIds es) (exprsParens es)) :
    (recordPair es a b).Preserves (Transparent P) := by
  unfold recordPair
  split
  · rename_i e rest a b heq
    cases heq
    apply preserves_of_state
    intro c hc
    have hquiet : (tupleOf [a, b]).Preserves (Transparent P) :=
      transparent_of_isQuiet .tupleOf
    have htuple := hquiet.state c hc
    obtain ⟨vars, hvars⟩ := type_tupleOf [a, b] c
    have htyped : ((tupleOf [a, b]).1 c).2.store.isUntyped ((tupleOf [a, b]).1 c).1 = false := by
      apply Store.isUntyped_of_tuple?
      rw [hvars]
      rfl
    have hagree := Records.agree_setPair htyped h.head.lies (fun _ _ => trivial) htuple.records
    refine transparent_onRecords htuple fun p hp _ => ?_
    exact hagree p hp ⟨trivial, h.head.inner_ne_id hp⟩
  · exact preserves_pure _

lemma transparent_sources (h : Embedded P (exprsIds es) (exprsParens es)) :
    Sources (Transparent P) (rooted P) es :=
  ⟨fun _ he => transparent_eval (h.of_mem he), fun hc _ _ =>
    ⟨(transparent_recordPair h).state _ hc, trivial⟩⟩

lemma embedded_values (h : Embedded P (specsIds specs) (specsParens specs)) :
    ∀ spec ∈ specs, Embedded P (exprsIds spec.values) (exprsParens spec.values) := by
  induction specs with
  | nil => exact fun _ hspec => nomatch hspec
  | cons spec specs ih =>
    rw [List.forall_mem_cons]
    refine ⟨?_, ih (h.right (in_of_mem_specParens spec))⟩
    have hspec := h.left (in_of_mem_specsParens specs)
    cases spec
    exact hspec

lemma embedded_of_mem_stmts (h : Embedded P (stmtsIds ss) (stmtsParens ss)) :
    ∀ s ∈ ss, Embedded P s.ids s.parens := by
  induction ss with
  | nil => exact fun _ hs => nomatch hs
  | cons s ss ih =>
    rw [List.forall_mem_cons]
    exact ⟨h.left (in_of_mem_stmtsParens ss), ih (h.right s.in_of_mem_parens)⟩

lemma embedded_of_mem_block (h : Embedded P (blockIds b) (blockParens b)) :
    ∀ s ∈ b.stmts, Embedded P s.ids s.parens := by
  cases b
  exact embedded_of_mem_stmts h

/-- The statements of a program hold its expressions, and the bodies put off are of its literals. -/
lemma transparent_governs : Regime.Governs (Transparent P) (rooted P)
    (fun s => Embedded P s.ids s.parens)
    fun d => .sure (∀ s ∈ d.body.stmts, Embedded P s.ids s.parens) := by
  refine transparent_discipline.governs
    (fun hm => transparent_of_eq (fun c => (hm c).types) fun c => (hm c).deferred) (fun s h => ?_)
    (fun _ => preserves_of_state fun c hc =>
      ⟨hc.records, fun d hd => hc.deferred d (List.mem_of_mem_take hd)⟩)
    fun c hc d hd => embedded_of_mem_block (hc.deferred d hd)
  cases s with
  | empty span => trivial
  | block span body => exact embedded_of_mem_block h
  | var span specs | const span specs =>
    exact fun spec hspec => ⟨transparent_sources (embedded_values h spec hspec),
      fun e _ => e.collects_false⟩
  | short span lhs rhs =>
    have hl := h.left (in_of_mem_exprsParens rhs)
    exact ⟨(transparent_sources hl).eval, transparent_sources (h.right (in_of_mem_exprsParens lhs))⟩
  | assign span lhs rhs =>
    have hl := h.left (in_of_mem_exprsParens rhs)
    refine ⟨fun l hmem => ⟨(transparent_sources hl).eval l hmem, ?_⟩,
      transparent_sources (h.right (in_of_mem_exprsParens lhs))⟩
    rintro n base sel rfl
    exact (transparent_eval (hl.of_mem hmem).lies.parts).eval
  | ret span es => exact transparent_sources h
  | expr span e => exact transparent_eval h

section

variable (h : Embedded P (blockIds body) (blockParens body))
include h

lemma transparent_function : (function sig body).Preserves (Transparent P) :=
  Always.preserves fun _ hc =>
    Regime.Governs.function transparent_governs hc (embedded_of_mem_block h) (sigCollects_false sig)

lemma transparent_bodyOf : (bodyOf sig body).Preserves (Transparent P) :=
  Always.preserves fun _ hc =>
    Regime.Governs.bodyOf transparent_governs hc (embedded_of_mem_block h) fun _ _ _ => trivial

lemma transparent_block : (block body).Preserves (Transparent P) :=
  Always.preserves fun _ hc =>
    Regime.Governs.block transparent_governs hc (embedded_of_mem_block h)

end

end Pass

/-! ## Sessions -/

variable (program : List Block)

/-- A request that has no tree checked but those of a program. -/
def Request.About : Request → Prop
  | checkFunc _ body | checkFuncBody _ body | checkBlock body => body ∈ program
  | declareVar .. | declareConst .. | declareType _ | declareFunc .. => True

/-- A host that checks the trees of a program, and leaves types typed or untyped as they are. -/
def Host.about : Host where
  changes s s' := ∀ t, s'.isUntyped t = s.isUntyped t
  asks _ r := r.About program

abbrev programParens : List Paren := program.flatMap blockParens

/-- The trees of a program whose expressions have distinct numbers are parts of it. -/
lemma embedded_of_mem {program : List Block} (hids : (program.flatMap blockIds).Nodup) :
    ∀ body ∈ program, Embedded (programParens program) (blockIds body) (blockParens body) := by
  -- by induction on the trees that are left, which together are a part of the program
  have hrest (rest : List Block)
      (h : Embedded (programParens program) (rest.flatMap blockIds) (rest.flatMap blockParens)) :
      ∀ body ∈ rest, Embedded (programParens program) (blockIds body) (blockParens body) := by
    induction rest with
    | nil => exact fun _ hbody => nomatch hbody
    | cons body rest ih =>
      have hin : ∀ p ∈ rest.flatMap blockParens, p.In (rest.flatMap blockIds) := by
        intro p hp
        obtain ⟨b, hb, hpb⟩ := mem_flatMap.mp hp
        refine (in_of_mem_blockParens b p hpb).mono fun id hid => ?_
        exact mem_flatMap.mpr ⟨b, hb, hid⟩
      rw [flatMap_cons, flatMap_cons] at h
      rw [forall_mem_cons]
      exact ⟨h.left hin, ih (h.right (in_of_mem_blockParens body))⟩
  exact hrest program ⟨hids, fun _ hp => hp, fun _ hp _ => hp, fun _ hp _ => hp⟩

/-- A request about a program keeps the records of parentheses and of what is inside alike. -/
lemma Request.transparent {program : List Block} (hids : (program.flatMap blockIds).Nodup)
    {r : Request} (hr : r.About program) (hc : c.Transparent (programParens program)) :
    (r.answer c).Transparent (programParens program) := by
  have hdeclare o :
      (Pass.declareInPackage o).Preserves (Checker.Transparent (programParens program)) :=
    maintains_current fun _ _ => transparent_of_isQuiet (.declare trivial)
  have hnew {new : Option PackageId → Pass ObjectId}
      (h : ∀ p, (new p).Preserves (Checker.Transparent (programParens program))) :
      (Pass.declareNew new).Preserves (Checker.Transparent (programParens program)) :=
    maintains_current fun c _ => (h _).before fun o => (hdeclare o).before fun _ =>
      preserves_pure _
  cases r with
  | declareVar name t => exact (hnew fun _ => transparent_of_isQuiet .newParam).state c hc
  | declareConst name t v | declareFunc name sig =>
    exact (hnew fun _ => transparent_of_eq (fun _ => rfl) fun _ => rfl).state c hc
  | declareType o => exact (hdeclare o).state c hc
  | checkFunc sig body => exact (transparent_function (embedded_of_mem hids body hr)).state c hc
  | checkFuncBody sig body => exact (transparent_bodyOf (embedded_of_mem hids body hr)).state c hc
  | checkBlock body => exact (transparent_block (embedded_of_mem hids body hr)).state c hc

namespace Session

variable {program : List Block} {taken : List Diagnostic} {c : Checker}

lemma transparent (hids : (program.flatMap blockIds).Nodup)
    (h : Session (.about program) taken c) : c.Transparent (programParens program) := by
  induction h with
  | start config => exact ⟨fun _ _ _ _ hr => (nomatch hr), fun _ hd => (nomatch hd)⟩
  | @change taken c s _ hchange ih =>
    have huntyped := funext hchange
    refine ⟨?_, ih.deferred⟩
    change c.info.types.Agree s.isUntyped _ _
    rw [huntyped]
    exact ih.records
  | move context _ ih | take _ ih => exact ⟨ih.records, ih.deferred⟩
  | ask _ hask ih => exact Request.transparent hids hask ih

/-- In a session about a program whose expressions have distinct numbers, whenever parentheses are
recorded, what is inside is recorded with the same type, and with the same mode unless both are
constants with a type. -/
theorem parentheses_recorded (hids : (program.flatMap blockIds).Nodup)
    (h : Session (.about program) taken c) {p : Paren} (hp : p ∈ program.flatMap blockParens)
    {r : Recorded} (hr : c.info.types.find? p.outer = some r) :
    ∃ r', c.info.types.find? p.inner = some r' ∧ r'.type = r.type ∧
      (r'.mode = r.mode ∨ c.store.isUntyped r.type = false ∧ r.mode.isConstant = true ∧
        r'.mode.isConstant = true) := by
  obtain ⟨r', hr', htype, hmode⟩ := (h.transparent hids).records p hp trivial r hr
  exact ⟨r', hr', htype.symm, hmode.imp_left Eq.symm⟩

/-- `{ var _ float32 = (0.1) }` -/
def roundedLiteral : Block where
  stmts := [.var ⟨2, 23⟩ [{
    names := [⟨some "_", ⟨6, 7⟩⟩]
    type := some (.name ⟨8, 15⟩ ⟨some "float32", ⟨8, 15⟩⟩)
    values := [.paren ⟨0, ⟨18, 23⟩⟩ (.lit ⟨1, ⟨19, 22⟩⟩ .float (some "0.1"))]
    span := ⟨6, 23⟩ }]]
  span := ⟨0, 25⟩

/-- The state after the check. -/
def roundedState : Checker := (Request.checkBlock roundedLiteral).answer (.start {})

lemma roundedState_reached : Session (.about [roundedLiteral]) [] roundedState := by
  have hbody : roundedLiteral ∈ [roundedLiteral] := mem_singleton.mpr rfl
  exact (Session.start {}).ask hbody

/-- The parentheses and the literal inside are recorded with the same type. -/
theorem roundedState_literal_typed :
    ∃ r', roundedState.info.types.find? 1 = some r' ∧ r'.type = .basic .float32 := by
  have hids : ([roundedLiteral].flatMap blockIds).Nodup := by decide
  have hparen : ⟨0, 1⟩ ∈ [roundedLiteral].flatMap blockParens := by decide
  have hrecorded : roundedState.info.types.find? 0 =
      some ⟨.constant (.ratio (13421773 / 134217728)), .basic .float32⟩ := by decide +kernel
  obtain ⟨r', hr', htype, -⟩ := parentheses_recorded hids roundedState_reached hparen hrecorded
  exact ⟨r', hr', htype⟩

/-- The parentheses have the rounded value, the literal the one as written; nothing is reported. -/
theorem roundedState_parentheses_differ :
    Session (.about [roundedLiteral]) [] roundedState ∧ roundedState.sink.reports = #[] ∧
      ([roundedLiteral].flatMap blockIds).Nodup ∧
      ⟨0, 1⟩ ∈ [roundedLiteral].flatMap blockParens ∧
      roundedState.info.types.find? 0 =
        some ⟨.constant (.ratio (13421773 / 134217728)), .basic .float32⟩ ∧
      roundedState.info.types.find? 1 = some ⟨.constant (.ratio (1 / 10)), .basic .float32⟩ := by
  refine ⟨roundedState_reached, ?_⟩
  decide +kernel

end Session

end GoCheck
