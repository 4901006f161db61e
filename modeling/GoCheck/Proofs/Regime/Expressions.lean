import GoCheck.Proofs.Regime.Basic

/-!
# Evaluation under a regime

Each form of expression keeps the property of a regime if the evaluations of its parts do, and gives
an operand with a type that the regime vouches for. What is left to show is how they are recorded.
-/

namespace GoCheck

open Pass List Notions GoCheck.Fact

variable {length : Option Nat} {I : Checker → Prop} {N : Notions} {e : Expr} {elem : TypeId}

/-- An expression whose evaluation keeps the property, and whose further values can be counted on. -/
structure Pending.Keeps (I : Checker → Prop) (N : Notions) (p : Pending) : Prop where
  eval : p.eval.Always I fun r => N.outcome r.1
  value : ∀ t, N.vouched { mode := .value, expr := some p.expr, type := t }

/-- An expression whose own evaluation keeps the property. -/
abbrev Expr.Keeps (I : Checker → Prop) (N : Notions) (e : Expr) : Prop :=
  Pending.Keeps I N ⟨e, e.eval⟩

lemma keeps_of_mem_pending (h : ∀ e ∈ es, e.Keeps I N) : ∀ p ∈ pending es, p.Keeps I N := by
  induction es with
  | nil => simp [pending]
  | cons e es ih =>
    rw [forall_mem_cons] at h
    rw [pending, forall_mem_cons]
    exact ⟨h.1, ih h.2⟩

variable {p : Problem}

lemma indexProblem?_fault (h : indexProblem? s x length = some p) : p.fault = .invalidIndex := by
  have hbound : ∀ {i : Int} {v : Constant}, (length.bind fun n =>
      if 0 ≤ i && n ≤ i.toNat then some (Problem.indexOutOfBounds v.text n) else none) = some p →
        p.fault = .invalidIndex := by
    intro i v hp
    obtain ⟨n, -, hn⟩ := Option.bind_eq_some_iff.mp hp
    split at hn
    · cases hn
      rfl
    · cases hn
  unfold indexProblem? at h
  repeat' split at h
  all_goals first
    | exact hbound h
    | (cases h <;> rfl)

lemma isRoutine_of_indexProblem? (h : indexProblem? s x length = some p) : p.isRoutine := by
  have hfault := indexProblem?_fault h
  refine Problem.isRoutine_of_fault ?_ (by rw [hfault]; rfl)
  cases p with
  | cannotAssign => cases hfault
  | _ => rfl

lemma Object.mode_ne_invalid (o : Object) : o.mode ≠ .invalid := by
  unfold Object.mode
  cases o.entity <;> simp

namespace Regime

variable {span : Span} {o : ObjectId} {i : Ident}

variable (h : Regime I N) {c : Checker} (hc : I c)
include h hc

lemma exclude (hx : (N.outcome x).At c) : (exclude x allowType).Leads I c
    fun y => (N.sound y).and (.sure (allowType = false → N.vouched y)) := by
  refine .entities ?_
  dsimp only
  split
  · rename_i p hp
    refine h.refuse hc ?_ ?_ fun _ hd _ he =>
      ⟨sound_invalidated (hx.1.later hd) he, fun _ => h.reject hx.2⟩
    · split at hp <;> cases hp <;> rfl
    · split at hp <;> cases hp <;> rfl
  · rename_i hp
    refine .pure hc ⟨hx.1, fun hallow => h.accept hx.2 ?_ ?_⟩
    · intro hmode
      simp [hmode, hallow] at hp
    · intro hmode
      simp [hmode, hallow] at hp

lemma refuseName {p : Problem} (hp : p.isRoutine) (hw : p.fault.isWarning = false) :
    (do Pass.report p span; return Pass.failed : Pass Operand).Leads I c N.sound :=
  h.refuse hc hp hw fun _ _ hI he => ⟨opt_some (h.invalid hI he), fun _ => he⟩

lemma name : (Pass.name i).Leads I c N.sound := by
  unfold Pass.name
  split
  · exact h.refuseName hc rfl rfl
  · refine (h.lookup hc).bind fun found d _ hd hfound => ?_
    cases found with
    | none => exact h.refuseName hd rfl rfl
    | some o =>
      have ho := hfound o rfl
      refine (h.recordUse hd ho.1).before fun _ f hf hI => .entities ?_
      have ho := ho.later hf
      have huse : (noteUse o).LeadsTo I f := by
        refine (isLocalVar hI).before fun isLocal g hg hI' => ?_
        split
        · exact h.markUsed hI' (ho.1.later hg)
        · exact .pure hI' trivial
      refine huse.before fun _ g hg hI' => ?_
      have ht := h.typeOf hI ho
      split
      · -- the object has no valid type
        rename_i hinvalid
        have he := (h.excuse hI ht (.inl hinvalid)).later hg
        exact .pure hI' ⟨opt_some (h.invalid hI' he), fun _ => he⟩
      · rename_i hvalid
        cases htype : (f.store.object o).type with
        | none => exact absurd (by rw [htype]; rfl) hvalid
        | some t =>
          rw [htype] at ht
          exact .pure hI' (sound_of_type (Object.mode_ne_invalid _) rfl (ht.later hg))

lemma literal : (Pass.literal kind raw span).Leads I c N.sound := by
  refine (h.noteLiteral hc).before fun _ d _ hd => ?_
  dsimp only
  split
  · exact h.refuseName hd rfl rfl
  · refine .pure hd (sound_of_type (by simp) rfl (h.basic hd ?_))
    cases kind <;> simp [literalValue]

lemma functionLiteral (hsig : sigCollects N.strict sig)
    (hdefer : ∀ t s d, I d → (N.type t).At d → (N.scope s).At d → (defer ⟨t, s, body⟩).LeadsTo I d) :
    (functionLiteral sig body).Leads I c N.sound := by
  refine (h.resolveSig sig hsig hc).bind fun r d _ hd hr => ?_
  refine (hdefer r.1 r.2 d hd hr.1 hr.2).before fun _ f hf hI => .pure hI ?_
  exact sound_of_type (by simp) rfl (hr.1.later hf)

lemma reportSelection (ht : (N.type t).At c) :
    (reportSelection x t sel r).Leads I c fun _ => N.excused := by
  refine .entities ?_
  split
  · rename_i hinvalid
    exact .pure hc (h.excuse hc ht (.inr hinvalid))
  · cases r with
    | notFound | entry =>
      dsimp only
      split <;> exact (h.report hc rfl).mono fun _ _ _ _ he => he rfl
    | ambiguous => exact (h.report hc rfl).mono fun _ _ _ _ he => he rfl
    | badReceiver => exact (h.report hc rfl).mono fun _ _ _ _ he => he rfl

lemma shapePart (hu : u ∈ (c.store.shape t).typeParts) : (N.type u).At c :=
  h.part hc hu

lemma indexing_list (hidx : indexing c.store x = .list mode elem length) :
    mode ≠ .invalid ∧ (N.type elem).At c := by
  unfold indexing at hidx
  split at hidx
  · split at hidx
    · obtain ⟨rfl, rfl, -⟩ := Indexing.list.inj hidx
      exact ⟨by simp, h.basic hc (by decide)⟩
    · cases hidx
  · rename_i hshape
    obtain ⟨rfl, rfl, -⟩ := Indexing.list.inj hidx
    exact ⟨by split <;> simp, h.shapePart hc (by rw [hshape]; exact mem_singleton_self _)⟩
  · split at hidx
    · rename_i hshape
      obtain ⟨rfl, rfl, -⟩ := Indexing.list.inj hidx
      exact ⟨by simp, h.shapePart hc (by rw [hshape]; exact mem_singleton_self _)⟩
    · cases hidx
  · rename_i hshape
    obtain ⟨rfl, rfl, -⟩ := Indexing.list.inj hidx
    exact ⟨by simp, h.shapePart hc (by rw [hshape]; exact mem_singleton_self _)⟩
  · cases hidx
  · cases hidx

lemma indexing_map (hidx : indexing c.store x = .map key elem) :
    (N.type key).At c ∧ (N.type elem).At c := by
  unfold indexing at hidx
  split at hidx <;> (try split at hidx) <;> try cases hidx
  rename_i hshape
  constructor <;> exact h.shapePart hc (by rw [hshape]; simp [Ty.typeParts])

section

omit hc
variable {eval : Pass Evaluated} (heval : eval.Always I fun r => N.outcome r.1)
include heval

lemma value : (value eval).Always I N.value := fun _ hc =>
  (heval _ hc).bind fun _ _ _ hd hx => (h.exclude hd hx).bind fun _ _ _ hd hx =>
    h.singleValue_of_value hd ⟨hx.1, hx.2 rfl⟩

lemma valueOrType : (valueOrType eval).Always I N.sound := fun _ hc =>
  (heval _ hc).bind fun _ _ _ hd hx => (h.exclude hd hx).bind fun _ _ _ hd hx =>
    h.singleValue hd hx.1 fun _ hd he => sound_invalidated (hx.1.later hd) he

lemma select : (select eval sel).Always I N.sound := by
  intro c hc
  refine (h.value heval _ hc).bind fun x d _ hd hx => ?_
  split
  · exact .pure hd (sound_of_faulty hx.1 (.inl ‹_›))
  · exact .pure hd (sound_of_faulty hx.1 (.inr ‹_›))
  · rename_i t _ ht
    refine .entities ?_
    split
    · rename_i hsel
      have ho := h.selected hd hsel
      refine (h.recordUse hd ho.1).before fun _ f hf hI => .pure hI (At.later ?_ hf)
      refine ⟨fun u hu => h.objectType hd hu, ?_⟩
      rintro (hmode | hnone)
      · dsimp only at hmode
        split at hmode <;> cases hmode
      · exact ho.2 hnone
    · refine (h.reportSelection hd (hx.1.1 t ht)).bind fun _ f hf hI he => .pure hI ?_
      exact sound_invalidated (hx.1.later hf) he

lemma checkIndex (hc : I c) : (checkIndex eval length).LeadsTo I c := by
  refine (h.value heval _ hc).bind fun x d _ hd hx => ?_
  refine (h.convertUntyped hd hx (h.place hd (h.basic hd (by decide)))).before fun y f _ hf => ?_
  split
  · exact .pure hf trivial
  · refine .entities ?_
    cases hp : indexProblem? f.store y length with
    | none => exact .pure hf trivial
    | some p => exact (h.report hf (isRoutine_of_indexProblem? hp)).to

lemma assertType {type : TypeExpr} (htype : type.collects N.strict) :
    (assertType e eval type).Always I N.sound := by
  intro c hc
  refine (h.value heval _ hc).bind fun x d _ hd hx => ?_
  split
  · exact .pure hd (sound_of_faulty hx.1 (.inl ‹_›))
  · exact .pure hd (sound_of_faulty hx.1 (.inr ‹_›))
  · refine .entities ?_
    split
    · exact h.refuseOperand hd rfl rfl hx.1
    · split
      · exact h.refuseOperand hd rfl rfl hx.1
      · refine (h.resolve type htype hd).bind fun t f hf hI ht => .entities ?_
        have hx := hx.1.later hf
        split
        · rename_i hinvalid
          exact .pure hI (sound_invalidated hx (h.excuse hI ht (.inr hinvalid)))
        · split
          · exact (h.logEvent hI).before fun _ g hg hI' => h.refuseOperand hI' rfl rfl (hx.later hg)
          · exact .pure hI (sound_of_type (by simp) rfl ht)

lemma receive : (receive eval).Always I N.sound := by
  intro c hc
  refine (h.value heval _ hc).bind fun x d _ hd hx => ?_
  split
  · exact .pure hd hx.1
  · refine .entities ?_
    split
    · exact h.refuseOperand hd rfl rfl hx.1
    · rename_i hshape
      refine .pure hd (sound_of_type (by simp) rfl (h.shapePart hd (t := x.typeOrInvalid) ?_))
      rw [hshape]
      exact mem_singleton_self _
    · exact h.refuseOperand hd rfl rfl hx.1

lemma indirection : (indirection eval).Always I N.sound := by
  intro c hc
  refine (h.valueOrType heval _ hc).bind fun x d _ hd hx => ?_
  split
  · exact .pure hd hx
  · rename_i hmode
    refine (h.newPointer hd (h.typeOrInvalid hd hx)).bind fun u f _ hf hu => .pure hf ?_
    exact sound_of_type (by simp [hmode]) rfl hu
  · refine .entities ?_
    split
    · rename_i hshape
      refine .pure hd (sound_of_type (by simp) rfl (h.shapePart hd (t := x.typeOrInvalid) ?_))
      rw [hshape]
      exact mem_singleton_self _
    · exact h.refuseOperand hd rfl rfl hx

omit heval in
lemma addressOf (hc : I c) (hx : (N.sound x).At c) (ht : (N.type t).At c) :
    (Pass.addressOf x t).Leads I c N.sound := by
  unfold Pass.addressOf
  split
  · exact (h.newPointer hc ht).bind fun u d _ hd hu => .pure hd (sound_of_type (by simp) rfl hu)
  · exact .describe (h.refuseOperand hc rfl rfl hx)

omit heval in
lemma arithmetic (hc : I c) (hx : (N.sound x).At c) :
    (arithmetic e op x t).Leads I c N.sound := by
  refine .entities ?_
  split
  · exact h.refuseOperand hc rfl rfl hx
  · split
    · have hfold v : (N.sound { x with mode := .constant v, expr := some e }).At c :=
        sound_withMode hx (by simp)
      split
      · exact .pure hc hx
      · dsimp only
        split
        · exact .pure hc (hfold _)
        · exact h.represent hc (hfold _)
    · exact .pure hc (sound_withMode hx (by simp))

lemma unary : (Pass.unary e op eval).Always I N.sound := by
  intro c hc
  unfold Pass.unary
  split
  · exact h.indirection heval _ hc
  · refine (h.value heval _ hc).bind fun x d _ hd hx => ?_
    split
    · exact .pure hd (sound_of_faulty hx.1 (.inl ‹_›))
    · exact .pure hd (sound_of_faulty hx.1 (.inr ‹_›))
    · rename_i t _ ht
      split
      · exact h.addressOf hd hx.1 (hx.1.1 t ht)
      · exact h.arithmetic hd hx.1

end

section

variable {p : Pending} {ps : List Pending}

omit h in
lemma useAll (hps : ∀ p ∈ ps, p.Keeps I N) : (useAll ps).LeadsTo I c := by
  refine leads_forM hc fun p hp d _ hd => ?_
  split
  · exact .pure hd trivial
  · exact ((hps p hp).eval _ hd).discard

lemma indexInto (heval : eval.Always I fun r => N.outcome r.1)
    (hindex : p.Keeps I N) : (Pass.indexInto eval p).Leads I c N.sound := by
  have huse {d} (hd : I d) : (Pass.useAll [p]).LeadsTo I d :=
    useAll hd (by simpa using hindex)
  refine (h.value heval _ hc).bind fun x d _ hd hx => ?_
  split
  · exact (huse hd).before fun _ f hf hI => .pure hI (hx.1.later hf)
  · refine .entities ?_
    cases hidx : indexing d.store x with
    | list mode elem length =>
      obtain ⟨hmode, helem⟩ := h.indexing_list hd hidx
      refine (h.checkIndex hindex.eval hd).before fun _ f hf hI => .pure hI ?_
      exact sound_of_type hmode rfl (helem.later hf)
    | map key elem =>
      obtain ⟨hkey, helem⟩ := h.indexing_map hd hidx
      refine (h.value hindex.eval _ hd).bind fun y f hf hI hy => ?_
      have hplace := opt_some (h.place hI (hkey.later hf))
      refine (h.assignment hI hy hplace).discard.before fun _ g hg hI' => .pure hI' ?_
      exact sound_of_type (by simp) rfl ((helem.later hf).later hg)
    | none =>
      refine (h.report hd rfl).bind fun _ f hf hI he => ?_
      refine (huse hI).before fun _ g hg hI' => .pure hI' ?_
      exact sound_invalidated ((hx.1.later hf).later hg) (At.later (he rfl) hg)

lemma secondType (ht : secondType? x = some t) : (N.type t).At c := by
  unfold secondType? at ht
  split at ht
  · cases ht
    exact h.basic hc (by decide)
  · cases ht
    exact h.basic hc (by decide)
  · cases ht
    exact h.error hc
  · cases ht

/-- All values of expressions can be counted on: those of a call, and a second value. -/
lemma values (hps : ∀ p ∈ ps, p.Keeps I N) :
    (Pass.values ps pair).Leads I c fun r => all N.value r.1 := by
  unfold Pass.values
  split
  · rename_i p
    have hp := hps p (by simp)
    refine (hp.eval _ hc).bind fun _ d _ hd hx => (h.exclude hd hx).bind fun x f _ hf hx => ?_
    refine .entities ?_
    dsimp only
    split
    · rename_i vars hvars
      refine .pure hf fun y hy => ?_
      obtain ⟨v, hv, rfl⟩ := mem_map.mp hy
      split at hvars
      · cases hvars
      · obtain ⟨t, -, htuple⟩ := Option.bind_eq_some_iff.mp hvars
        have htyped := h.member hf (t := t) (o := v) (by simpa [Store.tupleVars, htuple] using hv)
        refine ⟨⟨fun u hu => h.objectType hf hu, ?_⟩, hp.value _⟩
        rintro (hmode | hnone)
        · cases hmode
        · exact htyped.2 hnone
    · rename_i u _ hu
      refine .pure hf (all_cons.mpr ⟨⟨hx.1, hx.2 rfl⟩, all_cons.mpr ⟨?_, all_nil⟩⟩)
      refine ⟨sound_of_type (by simp) rfl ?_, hp.value _⟩
      cases pair with
      | true => exact h.secondType hf hu
      | false => cases hu
    · exact .pure hf (all_cons.mpr ⟨⟨hx.1, hx.2 rfl⟩, all_nil⟩)
  · exact (leads_mapM hc fun p hp _ _ hd => h.value (hps p hp).eval _ hd).bind
      fun _ _ _ hd hxs => .pure hd hxs.1

lemma assignEach (hxs : (all N.value xs).At c)
    (hts : (all N.place ts).At c) : (assignEach context xs ts).LeadsTo I c := by
  induction xs generalizing c ts with
  | nil => exact .pure hc trivial
  | cons x xs ih =>
    cases ts with
    | nil => exact .pure hc trivial
    | cons t ts =>
      obtain ⟨hx, hxs⟩ := all_cons.mp hxs
      obtain ⟨ht, hts⟩ := all_cons.mp hts
      exact (h.assignment hc hx (opt_some ht)).discard.before fun _ d hd hI =>
        ih hI (hxs.later hd) (hts.later hd)

/-- The types that arguments are assigned to. -/
lemma planArguments (hparams : (all N.type params).At c)
    (hplan : GoCheck.planArguments c.store params variadic spread nexprs nargs = .each targets) :
    (all N.place targets).At c := by
  have hcount : matchCount params nargs = .each targets → (all N.place targets).At c := by
    intro hcount
    unfold matchCount at hcount
    split at hcount
    · cases hcount
      exact fun t ht => h.place hc (hparams t ht)
    · cases hcount
  unfold GoCheck.planArguments at hplan
  split at hplan
  · split at hplan
    · cases hplan
    · exact hcount hplan
  · dsimp only at hplan
    split at hplan
    · cases hplan
    · cases hplan
      intro t ht
      rcases mem_append.mp ht with ht | ht
      · exact h.place hc (hparams t (dropLast_subset _ ht))
      · rw [eq_of_mem_replicate ht]
        cases hlast : params.getLast?.bind fun t => (c.store.type t).sliceElem? with
        | none => exact h.nowhere hc
        | some elem =>
          obtain ⟨last, -, hslice⟩ := Option.bind_eq_some_iff.mp hlast
          refine h.place hc (h.part hc (t := last) ?_)
          cases hty : c.store.type last <;> simp_all [Ty.sliceElem?, Ty.typeParts]
  · cases hplan
  · exact hcount hplan

lemma arguments (hargs : (all N.value args).At c) :
    (arguments e func ps spread sig args).LeadsTo I c := by
  have hparams : (all N.type (paramTypes c.store sig)).At c := by
    intro t ht
    obtain ⟨v, hv, rfl⟩ := mem_map.mp ht
    exact h.typeOf hc (h.member hc hv)
  refine .entities ?_
  dsimp only
  split
  · rename_i hplan
    exact h.assignEach hc hargs (h.planArguments hc hparams hplan)
  · exact (h.emit .wrongArgCount hc rfl (by decide) (by decide)).to
  · exact (h.report hc rfl).to
  · exact (h.report hc rfl).to

lemma callResult (hresults : (N.type results).At c) :
    (N.sound (Pass.callResult c.store x results)).At c := by
  unfold Pass.callResult
  split
  · exact sound_of_type (by simp) rfl (h.noValue hc)
  · rename_i v hv
    have htyped := h.member hc (t := results) (o := v) (by simp [hv])
    refine ⟨fun u hu => h.objectType hc hu, ?_⟩
    rintro (hmode | hnone)
    · cases hmode
    · exact htyped.2 hnone
  · exact sound_of_type (by simp) rfl hresults

variable (hps : ∀ p ∈ ps, p.Keeps I N)
include hps

lemma conversionCall (hx : (N.sound x).At c) :
    (Pass.conversionCall e x ps spread).Leads I c N.sound := by
  unfold Pass.conversionCall
  split
  · exact .typeText (h.refuseOperand hc rfl rfl hx)
  · rename_i p
    refine (h.value (hps p (by simp)).eval _ hc).bind fun y d hd hI hy => ?_
    split
    · exact .pure hI hy.1
    · split
      · exact .typeText (h.refuseOperand hI rfl rfl hy.1)
      · exact h.conversion hI hy (h.typeOrInvalid hI (hx.later hd))
  · refine (useAll hc hps).before fun _ d hd hI => ?_
    exact .typeText (h.refuseOperand hI rfl rfl (hx.later hd))

lemma callFunction (hx : (N.sound x).At c) :
    (callFunction e func x ps spread).Leads I c N.sound := by
  have hrefuse {q span} (hq : q.isRoutine)
      (hw : q.fault.isWarning = false) : (refuseCall q span x ps).Leads I c N.sound := by
    refine (h.report hc hq).bind fun _ d hd hI he => ?_
    refine (useAll hI hps).before fun _ f hf hI' => .pure hI' ?_
    exact sound_invalidated ((hx.later hd).later hf) (At.later (he hw) hf)
  refine .entities ?_
  split
  · exact hrefuse rfl rfl
  · rename_i sig hsig
    split
    · exact hrefuse rfl rfl
    · have hresults : (N.type sig.results).At c := by
        refine h.shapePart hc (t := x.typeOrInvalid) ?_
        cases hshape : c.store.shape x.typeOrInvalid <;> simp_all [Ty.signature?, Ty.typeParts]
      refine (h.values hc hps).bind fun r d hd hI hr => ?_
      refine (h.arguments hI hr).before fun _ f hf hI' => .entities ?_
      exact .pure hI' (h.callResult hI' ((hresults.later hd).later hf))

lemma call (hfunc : p.eval.Always I fun r => N.outcome r.1) :
    (call e p ps spread).Leads I c fun r => N.sound r.1 := by
  refine (h.valueOrType hfunc _ hc).bind fun x d _ hd hx => ?_
  split
  · exact (useAll hd hps).before fun _ f hf hI => .pure hI (hx.later hf)
  · exact (h.conversionCall hd hps hx).bind fun _ _ _ hf hy => .pure hf hy
  · exact (h.callFunction hd hps hx).bind fun _ _ _ hf hy => .pure hf hy

end

end Regime

/-- What an expression is made of. -/
def Expr.HasParts (A : Expr → Prop) (strict : Bool) : Expr → Prop
  | .ident .. | .lit .. | .funcLit .. => True
  | .paren _ e | .selector _ e _ | .unary _ _ e | .receive _ e => A e
  | .index _ e i => A e ∧ A i
  | .call _ f args _ => A f ∧ ∀ e ∈ args, A e
  | .assert _ e type => A e ∧ type.collects strict = true

/-- The expressions `A` are made of such expressions, and records and bodies of them keep a
property. -/
structure Regime.Evaluates (I : Checker → Prop) (N : Notions) (A : Expr → Prop) : Prop
    extends Regime I N where
  parts : ∀ {e}, A e → e.HasParts A N.strict
  record : ∀ {c e x}, I c → A e → (N.sound x).At c → (Pass.record e.id x).LeadsTo I c
  recordPair : ∀ {c e t}, I c → A e → (N.type t).At c →
    (onRecords (Records.setPair t e)).LeadsTo I c
  putOff : ∀ {n : Node} {sig : FuncSig} {body : Block}, A (.funcLit n sig body) →
    (Pass.functionLiteral sig body).Always I N.sound
  given : ∀ {e : Expr} {x : Operand}, A e → N.given { x with expr := some e }
  vouched : ∀ {e t}, A e → N.vouched { mode := .value, expr := some e, type := t }

namespace Regime.Evaluates

variable {m : Pass Operand}

lemma observe (h : Evaluates I N A) (he : A e) (heval : eval.Always I fun r => N.sound r.1) :
    (Pass.observe e eval).Always I fun r => N.outcome r.1 := by
  intro c hc
  refine (h.traceLine hc).before fun _ d _ hd => (h.indentTrace hd).before fun _ f _ hf => ?_
  refine (heval _ hf).bind fun r g _ hg hr => ?_
  have hx : (N.sound { r.1 with expr := some e }).At g := hr
  refine (h.record hg he hx).before fun _ k hk hI => (h.unindentTrace hI).before fun _ l hl hI => ?_
  refine (h.traceLine hI).before fun _ m hm hI => .pure hI ⟨?_, h.given he⟩
  exact ((hx.later hk).later hl).later hm

lemma asExpression (hm : m.Always I N.sound) :
    (asExpression m).Always I fun r => N.sound r.1 :=
  fun c hc => (hm c hc).bind fun _ _ _ hd hx => .pure hd hx

lemma asStatement (hm : m.Always I N.sound) : (asStatement m).Always I fun r => N.sound r.1 :=
  fun c hc => (hm c hc).bind fun _ _ _ hd hx => .pure hd hx

mutual

theorem eval (h : Evaluates I N A) (e : Expr) (he : A e) :
    e.eval.Always I fun r => N.outcome r.1 := by
  have hparts := h.parts he
  cases e with rw [Expr.eval]
  | ident n i => exact h.observe he (asExpression fun _ hc => h.name hc)
  | lit n kind raw => exact h.observe he (asExpression fun _ hc => h.literal hc)
  | funcLit n sig body => exact h.observe he (asExpression (h.putOff he))
  | paren n inner =>
    exact h.observe he fun _ hc => (eval h inner hparts _ hc).mono fun _ _ _ _ hr => hr.1
  | selector n base sel => exact h.observe he (asExpression (h.select (eval h base hparts)))
  | index n base index =>
    have hindex : Pending.Keeps I N ⟨index, index.eval⟩ :=
      ⟨eval h index hparts.2, fun _ => h.vouched hparts.2⟩
    exact h.observe he (asExpression fun _ hc => h.indexInto hc (eval h base hparts.1) hindex)
  | call n func args spread =>
    exact h.observe he fun _ hc => h.call hc (evals h args hparts.2) (eval h func hparts.1)
  | assert n base type =>
    exact h.observe he (asExpression (h.assertType (eval h base hparts.1) hparts.2))
  | unary n op operand => exact h.observe he (asExpression (h.unary (eval h operand hparts)))
  | receive n channel => exact h.observe he (asStatement (h.receive (eval h channel hparts)))

theorem evals (h : Evaluates I N A) (es : List Expr) (hes : ∀ e ∈ es, A e) :
    ∀ p ∈ pending es, p.Keeps I N := by
  cases es with
  | nil => simp [pending]
  | cons e es =>
    rw [forall_mem_cons] at hes
    rw [pending, forall_mem_cons]
    exact ⟨⟨eval h e hes.1, fun _ => h.vouched hes.1⟩, evals h es hes.2⟩

end

lemma keeps (h : Evaluates I N A) (he : A e) : e.Keeps I N :=
  ⟨h.eval e he, fun _ => h.vouched he⟩

end Regime.Evaluates

end GoCheck
