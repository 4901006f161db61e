import GoCheck.Proofs.Constants.Fitting

/-!
# Records of parentheses

An expression in parentheses is recorded under the number of the parentheses and under its own.
Later changes start at an expression as a whole and go inward, so both records change alike. Only
the value of a constant is set for the outermost parentheses alone.
-/

namespace GoCheck

open List

variable {ps' : List Paren} {e : Expr} {p : Paren} {rs' rs : Records}

/-- The numbers of an expression in parentheses and of the expression inside. -/
structure Paren where
  outer : Nat
  inner : Nat
  deriving DecidableEq

mutual

/-- The parentheses in an expression, those in function literals included. -/
def Expr.parens : Expr → List Paren
  | .ident .. | .lit .. => []
  | .paren n e => ⟨n.id, e.id⟩ :: e.parens
  | .selector _ e _ | .assert _ e _ | .unary _ _ e | .receive _ e => e.parens
  | .index _ e i => e.parens ++ i.parens
  | .call _ f args _ => f.parens ++ exprsParens args
  | .funcLit _ _ body => blockParens body

def exprsParens : List Expr → List Paren
  | [] => []
  | e :: es => e.parens ++ exprsParens es

def specsParens : List (SpecOf Expr) → List Paren
  | [] => []
  | spec :: specs => specParens spec ++ specsParens specs

def specParens : SpecOf Expr → List Paren
  | ⟨_, _, values, _⟩ => exprsParens values

/-- The parentheses in a statement. -/
def Stmt.parens : Stmt → List Paren
  | .empty _ => []
  | .block _ body => blockParens body
  | .var _ specs | .const _ specs => specsParens specs
  | .short _ lhs rhs | .assign _ lhs rhs => exprsParens lhs ++ exprsParens rhs
  | .ret _ values => exprsParens values
  | .expr _ e => e.parens

def blockParens : BlockOf Stmt → List Paren
  | ⟨stmts, _⟩ => stmtsParens stmts

def stmtsParens : List Stmt → List Paren
  | [] => []
  | s :: ss => s.parens ++ stmtsParens ss

end

/-- Both numbers of parentheses are among certain ones. -/
def Paren.In (p : Paren) (ids : List Nat) : Prop := p.outer ∈ ids ∧ p.inner ∈ ids

lemma Paren.In.mono (h : p.In ids) (hsub : ids ⊆ ids') : p.In ids' :=
  ⟨hsub h.1, hsub h.2⟩

lemma Paren.in_append (h : ∀ p ∈ ps, p.In ids)
    (h' : ∀ p ∈ ps', p.In ids') : ∀ p ∈ ps ++ ps', p.In (ids ++ ids') := by
  intro p hp
  rcases mem_append.mp hp with hp | hp
  · exact (h p hp).mono (subset_append_left ..)
  · exact (h' p hp).mono (subset_append_right ..)

mutual

/-- The numbers of parentheses are those of expressions. -/
theorem Expr.in_of_mem_parens (e : Expr) : ∀ p ∈ e.parens, p.In e.ids := by
  have hcons {ids : List Nat} (id : Nat) {ps : List Paren} (h : ∀ p ∈ ps, p.In ids) :
      ∀ p ∈ ps, p.In (id :: ids) :=
    fun p hp => (h p hp).mono (subset_cons_self ..)
  cases e with
  | ident n i | lit n kind raw => simp [Expr.parens]
  | paren n inner =>
    simp only [Expr.parens, Expr.ids, forall_mem_cons]
    refine ⟨⟨mem_cons_self, mem_cons_of_mem _ inner.id_mem_ids⟩, ?_⟩
    exact hcons n.id inner.in_of_mem_parens
  | selector n e sel => simpa only [Expr.parens, Expr.ids] using hcons n.id e.in_of_mem_parens
  | assert n e type => simpa only [Expr.parens, Expr.ids] using hcons n.id e.in_of_mem_parens
  | unary n op e => simpa only [Expr.parens, Expr.ids] using hcons n.id e.in_of_mem_parens
  | receive n e => simpa only [Expr.parens, Expr.ids] using hcons n.id e.in_of_mem_parens
  | index n e i =>
    simpa only [Expr.parens, Expr.ids] using
      hcons n.id (Paren.in_append e.in_of_mem_parens i.in_of_mem_parens)
  | call n f args spread =>
    simpa only [Expr.parens, Expr.ids] using
      hcons n.id (Paren.in_append f.in_of_mem_parens (in_of_mem_exprsParens args))
  | funcLit n sig body =>
    simpa only [Expr.parens, Expr.ids] using hcons n.id (in_of_mem_blockParens body)

theorem in_of_mem_exprsParens (es : List Expr) : ∀ p ∈ exprsParens es, p.In (exprsIds es) := by
  cases es with
  | nil => simp [exprsParens]
  | cons e es =>
    simpa only [exprsParens, exprsIds] using
      Paren.in_append e.in_of_mem_parens (in_of_mem_exprsParens es)

theorem in_of_mem_specsParens (specs : List (SpecOf Expr)) :
    ∀ p ∈ specsParens specs, p.In (specsIds specs) := by
  cases specs with
  | nil => simp [specsParens]
  | cons spec specs =>
    simpa only [specsParens, specsIds] using
      Paren.in_append (in_of_mem_specParens spec) (in_of_mem_specsParens specs)

theorem in_of_mem_specParens (spec : SpecOf Expr) : ∀ p ∈ specParens spec, p.In (specIds spec) := by
  cases spec with
  | mk names type values span => simpa only [specParens, specIds] using in_of_mem_exprsParens values

theorem Stmt.in_of_mem_parens (s : Stmt) : ∀ p ∈ s.parens, p.In s.ids := by
  cases s with
  | empty span => simp [Stmt.parens]
  | block span body => simpa only [Stmt.parens, Stmt.ids] using in_of_mem_blockParens body
  | var span specs | const span specs =>
    simpa only [Stmt.parens, Stmt.ids] using in_of_mem_specsParens specs
  | short span lhs rhs =>
    simpa only [Stmt.parens, Stmt.ids] using
      Paren.in_append (in_of_mem_exprsParens lhs) (in_of_mem_exprsParens rhs)
  | assign span lhs rhs =>
    simpa only [Stmt.parens, Stmt.ids] using
      Paren.in_append (in_of_mem_exprsParens lhs) (in_of_mem_exprsParens rhs)
  | ret span values => simpa only [Stmt.parens, Stmt.ids] using in_of_mem_exprsParens values
  | expr span e => simpa only [Stmt.parens, Stmt.ids] using e.in_of_mem_parens

theorem in_of_mem_blockParens (b : BlockOf Stmt) : ∀ p ∈ blockParens b, p.In (blockIds b) := by
  cases b with
  | mk stmts span => simpa only [blockParens, blockIds] using in_of_mem_stmtsParens stmts

theorem in_of_mem_stmtsParens (ss : List Stmt) : ∀ p ∈ stmtsParens ss, p.In (stmtsIds ss) := by
  cases ss with
  | nil => simp [stmtsParens]
  | cons s ss =>
    simpa only [stmtsParens, stmtsIds] using
      Paren.in_append s.in_of_mem_parens (in_of_mem_stmtsParens ss)

end

/-- A part of a program with the parentheses `P`: its numbers `ids` are distinct, and parentheses
about them are its own. -/
structure Embedded (P : List Paren) (ids : List Nat) (ps : List Paren) : Prop where
  nodup : ids.Nodup
  among : ∀ p ∈ ps, p ∈ P
  outer : ∀ p ∈ P, p.outer ∈ ids → p ∈ ps
  inner : ∀ p ∈ P, p.inner ∈ ids → p ∈ ps

namespace Embedded

lemma left (h : Embedded P (ids ++ ids') (ps ++ ps')) (hps' : ∀ p ∈ ps', p.In ids') :
    Embedded P ids ps := by
  obtain ⟨hnodup, -, hdisjoint⟩ := nodup_append'.mp h.nodup
  refine ⟨hnodup, fun p hp => h.among p (mem_append_left _ hp), fun p hp hid => ?_,
    fun p hp hid => ?_⟩
  · refine (mem_append.mp (h.outer p hp (mem_append_left _ hid))).resolve_right ?_
    exact fun hp' => hdisjoint hid (hps' p hp').1
  · refine (mem_append.mp (h.inner p hp (mem_append_left _ hid))).resolve_right ?_
    exact fun hp' => hdisjoint hid (hps' p hp').2

lemma comm (h : Embedded P (ids ++ ids') (ps ++ ps')) : Embedded P (ids' ++ ids) (ps' ++ ps) := by
  obtain ⟨hnodup, hamong, houter, hinner⟩ := h
  refine ⟨nodup_append_comm.mp hnodup, ?_, ?_, ?_⟩ <;> simp_all [or_comm]

lemma right (h : Embedded P (ids ++ ids') (ps ++ ps')) (hps : ∀ p ∈ ps, p.In ids) :
    Embedded P ids' ps' :=
  left h.comm hps

variable {es : List Expr}

lemma head (h : Embedded P (exprsIds (e :: es)) (exprsParens (e :: es))) :
    Embedded P e.ids e.parens :=
  h.left (in_of_mem_exprsParens es)

lemma tail (h : Embedded P (exprsIds (e :: es)) (exprsParens (e :: es))) :
    Embedded P (exprsIds es) (exprsParens es) :=
  h.right e.in_of_mem_parens

lemma of_mem (h : Embedded P (exprsIds es) (exprsParens es)) (he : e ∈ es) :
    Embedded P e.ids e.parens := by
  induction es with
  | nil => cases he
  | cons e' es ih =>
    rcases mem_cons.mp he with rfl | he
    · exact h.head
    · exact ih h.tail he

end Embedded

/-- An expression in a program with the parentheses `P`. Some of them may enclose it as a whole. -/
structure Expr.Lies (P : List Paren) (e : Expr) : Prop where
  nodup : e.ids.Nodup
  among : ∀ p ∈ e.parens, p ∈ P
  outer : ∀ p ∈ P, p.outer ∈ e.ids → p ∈ e.parens
  inner : ∀ p ∈ P, p.inner ∈ e.ids → p ∈ e.parens ∨ p.inner = e.id

namespace Expr

variable {inner : Expr} {n : Node}

lemma ids_eq_cons (e : Expr) : e.ids = e.id :: e.ids.tail := by
  cases e <;> simp [ids, id, node]

lemma id_notMem_tail (h : e.ids.Nodup) : e.id ∉ e.ids.tail := by
  rw [ids_eq_cons] at h
  exact (nodup_cons.mp h).1

def isParen : Expr → Bool
  | paren .. => true
  | _ => false

lemma in_tail_of_mem_parens (he : e.isParen = false) : ∀ p ∈ e.parens, p.In e.ids.tail := by
  cases e with
  | paren => cases he
  | ident | lit => exact fun _ hp => nomatch hp
  | selector n e sel => exact e.in_of_mem_parens
  | assert n e type => exact e.in_of_mem_parens
  | unary n op e => exact e.in_of_mem_parens
  | receive n e => exact e.in_of_mem_parens
  | index n e i => exact Paren.in_append e.in_of_mem_parens i.in_of_mem_parens
  | call n f args spread => exact Paren.in_append f.in_of_mem_parens (in_of_mem_exprsParens args)
  | funcLit n sig body => exact in_of_mem_blockParens body

lemma inner_ne_id (hnodup : e.ids.Nodup) (hp : p ∈ e.parens) : p.inner ≠ e.id := by
  have htail : p.inner ∈ e.ids.tail := by
    cases e with
    | paren n inner =>
      rw [parens, mem_cons] at hp
      rcases hp with rfl | hp
      · exact inner.id_mem_ids
      · exact (inner.in_of_mem_parens p hp).2
    | _ => exact (in_tail_of_mem_parens rfl p hp).2
  intro hid
  exact id_notMem_tail hnodup (hid ▸ htail)

namespace Lies

lemma parts (h : e.Lies P) : Embedded P e.ids.tail e.parens := by
  have hmem {id} (hid : id ∈ e.ids.tail) : id ∈ e.ids := mem_of_mem_tail hid
  refine ⟨h.nodup.tail, h.among, fun p hp hid => h.outer p hp (hmem hid), fun p hp hid => ?_⟩
  refine (h.inner p hp (hmem hid)).resolve_right fun hself => ?_
  exact id_notMem_tail h.nodup (hself ▸ hid)

lemma outer_ne_id (h : e.Lies P) (he : e.isParen = false) (hp : p ∈ P) : p.outer ≠ e.id := by
  intro hid
  have hmem : p ∈ e.parens := h.outer p hp (hid ▸ e.id_mem_ids)
  exact id_notMem_tail h.nodup (hid ▸ (in_tail_of_mem_parens he p hmem).1)

section

variable (h : (paren n inner).Lies P)
include h

lemma id_notMem_inner : n.id ∉ inner.ids := (nodup_cons.mp h.nodup).1

lemma inner_id_ne : inner.id ≠ n.id := fun hid => h.id_notMem_inner (hid ▸ inner.id_mem_ids)

lemma eq_of_outer (hp : p ∈ P) (hid : p.outer = n.id) : p = ⟨n.id, inner.id⟩ := by
  have hmem := h.outer p hp (hid ▸ mem_cons_self)
  refine (mem_cons.mp hmem).resolve_right fun hinner => ?_
  exact h.id_notMem_inner (hid ▸ (inner.in_of_mem_parens p hinner).1)

lemma eq_of_inner (hp : p ∈ P) (hid : p.inner = inner.id) : p = ⟨n.id, inner.id⟩ := by
  have hmem : p ∈ (paren n inner).parens := by
    refine (h.inner p hp ?_).resolve_right fun hself => h.inner_id_ne (hid.symm.trans hself)
    exact hid ▸ mem_cons_of_mem _ inner.id_mem_ids
  refine (mem_cons.mp hmem).resolve_right fun hinner => ?_
  exact inner_ne_id (nodup_cons.mp h.nodup).2 hinner hid

lemma lies_inner : inner.Lies P := by
  have hmem {id} (hid : id ∈ inner.ids) : id ∈ (paren n inner).ids :=
    mem_cons_of_mem _ hid
  have hne {id} (hid : id ∈ inner.ids) : id ≠ n.id := fun heq => h.id_notMem_inner (heq ▸ hid)
  refine ⟨(nodup_cons.mp h.nodup).2, fun p hp => h.among p (mem_cons_of_mem _ hp),
    fun p hp hid => ?_, fun p hp hid => ?_⟩
  · refine (mem_cons.mp (h.outer p hp (hmem hid))).resolve_left fun heq => ?_
    exact hne hid (congrArg Paren.outer heq)
  · rcases h.inner p hp (hmem hid) with hp | hself
    · exact (mem_cons.mp hp).symm.imp_right fun heq => congrArg Paren.inner heq
    · exact absurd hself (hne hid)

end

end Lies

end Expr

namespace Embedded

lemma lies (h : Embedded P e.ids e.parens) : e.Lies P :=
  ⟨h.nodup, h.among, h.outer, fun p hp hid => .inl (h.inner p hp hid)⟩

lemma inner_ne_id (h : Embedded P e.ids e.parens) (hp : p ∈ P) : p.inner ≠ e.id := by
  intro hid
  exact e.inner_ne_id h.nodup (h.inner p hp (hid ▸ e.id_mem_ids)) hid

end Embedded

/-! ## Records -/

/-- The records of parentheses and inside: the same type and mode, but for values of typed
constants. -/
def Recorded.Matches (untyped : TypeId → Bool) (r r' : Recorded) : Prop :=
  r.type = r'.type ∧ (r.mode = r'.mode ∨
    untyped r.type = false ∧ r.mode.isConstant = true ∧ r'.mode.isConstant = true)

namespace Records

variable {S : Nat → Prop} {t : TypeId} {rs : Records} {e inner : Expr} {n : Node} {id : Nat}
  {r : Recorded}

/-- The records of parentheses match those of the expressions inside, for expressions among `S`. -/
def Agree (untyped : TypeId → Bool) (P : List Paren) (S : Nat → Prop) (rs : Records) : Prop :=
  ∀ p ∈ P, S p.inner → ∀ r, rs.find? p.outer = some r →
    ∃ r', rs.find? p.inner = some r' ∧ r.Matches untyped r'

/-- A change of the record of what is no parentheses matters only to what encloses it. -/
lemma Agree.congr (h : rs.Agree untyped P S)
    (hS : ∀ p ∈ P, S' p.inner → S p.inner ∧ rs'.find? p.outer = rs.find? p.outer ∧
      rs'.find? p.inner = rs.find? p.inner) : rs'.Agree untyped P S' := by
  intro p hp hpS r hr
  obtain ⟨hin, houter, hinner⟩ := hS p hp hpS
  rw [houter] at hr
  rw [hinner]
  exact h p hp hin r hr

lemma agree_insert (hout : ∀ p ∈ P, p.outer ≠ id) (h : rs.Agree untyped P fun _ => True) :
    Agree untyped P (· ≠ id) (rs.insert id r) := by
  refine h.congr fun p hp hne => ⟨trivial, ?_, ?_⟩
  · rw [Table.find?_insert, if_neg (hout p hp)]
  · rw [Table.find?_insert, if_neg hne]

/-- The record of parentheses is entered after that of the expression inside. -/
lemma agree_insert_paren (he : (Expr.paren n inner).Lies P)
    (h : rs.Agree untyped P (· ≠ inner.id)) (hr : rs.find? inner.id = some r) :
    Agree untyped P (· ≠ n.id) (rs.insert n.id r) := by
  intro p hp hne r₁ hr₁
  rw [Table.find?_insert] at hr₁
  rw [Table.find?_insert, if_neg hne]
  by_cases hid : p.outer = n.id
  · rw [if_pos hid] at hr₁
    obtain rfl := he.eq_of_outer hp hid
    exact ⟨r, hr, by cases hr₁; exact ⟨rfl, .inl rfl⟩⟩
  · rw [if_neg hid] at hr₁
    refine h p hp (fun hinner => hid ?_) r₁ hr₁
    rw [he.eq_of_inner hp hinner]

lemma agree_setType (hout : ∀ p ∈ P, p.outer ≠ id) (h : rs.Agree untyped P S) :
    (rs.setType id t).Agree untyped P fun i => S i ∧ i ≠ id := by
  refine h.congr fun p hp ⟨hpS, hne⟩ => ⟨hpS, ?_, ?_⟩
  · rw [find?_setType, if_neg (hout p hp)]
  · rw [find?_setType, if_neg hne]

/-- The type of parentheses changes along with that of the expression inside. -/
lemma agree_setType_paren (he : (Expr.paren n inner).Lies P)
    (h : rs.Agree untyped P fun i => S i ∧ i ≠ inner.id)
    (hself : ∀ r, rs.find? n.id = some r → ∃ r', rs.find? inner.id = some r' ∧
      Recorded.Matches untyped { r with type := t } r') :
    (rs.setType n.id t).Agree untyped P fun i => S i ∧ i ≠ n.id := by
  rintro p hp ⟨hpS, hne⟩ r₁ hr₁
  rw [find?_setType] at hr₁
  rw [find?_setType, if_neg hne]
  by_cases hid : p.outer = n.id
  · obtain rfl := he.eq_of_outer hp hid
    rw [if_pos rfl, Option.map_eq_some_iff] at hr₁
    obtain ⟨r, hr, rfl⟩ := hr₁
    exact hself r hr
  · rw [if_neg hid] at hr₁
    refine h p hp ⟨hpS, fun hinner => hid ?_⟩ r₁ hr₁
    rw [he.eq_of_inner hp hinner]

/-- The operand of a unary operation is left alone, or takes on the type as well. -/
lemma retype_unary (rs : Records) (untyped : TypeId → Bool) (t : TypeId) (n : Node) (op : UnaryOp)
    (operand : Expr) : ∃ parts,
    rs.retype untyped t (.unary n op operand) = rs.retypeNode untyped t n.id parts ∧
      ∀ r, parts r rs = rs ∨ parts r rs = rs.retype untyped t operand := by
  simp only [retype]
  refine ⟨_, rfl, fun r => ?_⟩
  cases op with
  | address | indirect => exact .inl rfl
  | _ =>
    cases hmode : r.mode.isConstant with
    | true => exact .inl rfl
    | false => exact .inr rfl

/-- A change of type reaches only the parts of an expression, and of these the untyped ones. -/
lemma retyped_ids (e : Expr) : Retyped untyped t e.ids rs (rs.retype untyped t e) := by
  cases e with
  | paren n inner =>
    simp only [retype, Expr.ids]
    exact retyped_retypeNode fun _ _ _ => retyped_ids inner
  | unary n op operand =>
    obtain ⟨parts, heq, hparts⟩ := retype_unary rs untyped t n op operand
    rw [heq, Expr.ids]
    refine retyped_retypeNode fun r _ _ => ?_
    rcases hparts r with hsame | hoperand
    · rw [hsame]
      exact .refl
    · rw [hoperand]
      exact retyped_ids operand
  | _ =>
    simp only [retype, Expr.ids]
    exact retyped_retypeNode fun _ _ _ => .refl

lemma find?_retype_of_notMem (e : Expr) (hj : j ∉ e.ids) :
    (rs.retype untyped t e).find? j = rs.find? j :=
  (retyped_ids e j).resolve_right fun h => hj h.1

lemma find?_retype_of_typed (e : Expr) (hr : rs.find? j = some r) (hu : untyped r.type = false) :
    (rs.retype untyped t e).find? j = some r := by
  rcases retyped_ids e j with hsame | ⟨-, r', hr', hu', -⟩
  · exact hsame.trans hr
  · cases hr.symm.trans hr'
    simp [hu] at hu'

/-- An untyped expression takes on the type. -/
lemma find?_retype_self (he : e.ids.Nodup) (hr : rs.find? e.id = some r) (hu : untyped r.type) :
    (rs.retype untyped t e).find? e.id = some { r with type := t } := by
  have hnode (parts : Recorded → Records → Records)
      (hparts : (parts r rs).find? e.id = rs.find? e.id) :
      (rs.retypeNode untyped t e.id parts).find? e.id = some { r with type := t } := by
    rw [retypeNode, hr]
    dsimp only
    rw [if_pos hu, find?_setType, if_pos rfl, hparts, hr]
    rfl
  have hid := Expr.id_notMem_tail he
  cases e with
  | paren n inner =>
    simp only [retype]
    exact hnode _ (find?_retype_of_notMem inner hid)
  | unary n op operand =>
    obtain ⟨parts, heq, hparts⟩ := retype_unary rs untyped t n op operand
    rw [heq]
    refine hnode parts ?_
    rcases hparts r with hsame | hoperand
    · rw [hsame]
    · rw [hoperand]
      exact find?_retype_of_notMem operand hid
  | _ =>
    simp only [retype]
    exact hnode _ rfl

lemma Agree.of_untyped (h : rs.Agree untyped P S) (hp : p ∈ P) (hS : S p.inner)
    (hr : rs.find? p.outer = some r) (hu : untyped r.type) :
    ∃ r', rs.find? p.inner = some r' ∧ untyped r'.type ∧ r.mode = r'.mode := by
  obtain ⟨r', hr', htype, hmode⟩ := h p hp hS r hr
  refine ⟨r', hr', htype ▸ hu, hmode.resolve_right fun htyped => ?_⟩
  rw [hu] at htyped
  cases htyped.1

/-- A change of the type of an expression keeps records in agreement, but for what encloses it. -/
lemma agree_retype {e : Expr} (he : e.Lies P) (hS : ∀ p ∈ e.parens, S p.inner)
    (h : rs.Agree untyped P S) :
    (rs.retype untyped t e).Agree untyped P fun i => S i ∧ i ≠ e.id := by
  have hweaken : rs.Agree untyped P fun i => S i ∧ i ≠ e.id :=
    h.congr fun p _ hp => ⟨hp.1, rfl, rfl⟩
  -- a typed or missing record stops the change
  have hnode (parts : Recorded → Records → Records)
      (hparts : ∀ r, rs.find? e.id = some r → untyped r.type →
        ((parts r rs).setType e.id t).Agree untyped P fun i => S i ∧ i ≠ e.id) :
      (rs.retypeNode untyped t e.id parts).Agree untyped P fun i => S i ∧ i ≠ e.id := by
    unfold retypeNode
    split
    · exact hweaken
    · rename_i r hr
      split
      · exact hparts r hr ‹_›
      · exact hweaken
  cases e with
  | paren n inner =>
    simp only [retype]
    refine hnode _ fun r hr hu => ?_
    have hinner := agree_retype he.lies_inner (fun p hp => hS p (List.mem_cons_of_mem _ hp)) h
    refine agree_setType_paren he hinner fun r₁ hr₁ => ?_
    have hkept : (rs.retype untyped t inner).find? n.id = rs.find? n.id :=
      find?_retype_of_notMem inner he.id_notMem_inner
    cases hr.symm.trans (hkept.symm.trans hr₁)
    obtain ⟨r', hr', hu', hmode⟩ := h.of_untyped
      (he.among _ List.mem_cons_self) (hS _ List.mem_cons_self) hr hu
    exact ⟨_, find?_retype_self he.lies_inner.nodup hr' hu', rfl, .inl hmode⟩
  | unary n op operand =>
    obtain ⟨parts, heq, hparts⟩ := retype_unary rs untyped t n op operand
    rw [heq]
    refine hnode parts fun r _ _ => agree_setType (fun p hp => he.outer_ne_id rfl hp) ?_
    rcases hparts r with hsame | hoperand
    · rwa [hsame]
    · rw [hoperand]
      have hpart := he.parts
      exact (agree_retype hpart.lies hS h).congr fun p hp hpS =>
        ⟨⟨hpS, hpart.inner_ne_id hp⟩, rfl, rfl⟩
  | _ =>
    simp only [retype]
    exact hnode _ fun _ _ _ => agree_setType (fun p hp => he.outer_ne_id rfl hp) h

section

variable {v : Constant} (he : Embedded P e.ids e.parens) (h : rs.Agree untyped P fun _ => True)
include he h

lemma agree_retype_whole : (rs.retype untyped t e).Agree untyped P fun _ => True :=
  (agree_retype he.lies (fun _ _ => trivial) h).congr fun _ hp _ =>
    ⟨⟨trivial, he.inner_ne_id hp⟩, rfl, rfl⟩

omit he in
lemma agree_retype_setValue_of_open?_eq_none (hopen : rs.open? untyped e.id = none) :
    ((rs.setValue untyped e.id v).retype untyped t e).Agree untyped P fun _ => True := by
  have hsame := find?_setValue_of_open?_eq_none (v := v) hopen
  have hopen' : (rs.setValue untyped e.id v).open? untyped e.id = none := by rwa [open?, hsame]
  rw [retype_of_open?_eq_none e hopen']
  exact h.congr fun p _ _ => ⟨trivial, hsame _, hsame _⟩

/-- A constant that takes on a type takes on its value only in the outermost parentheses. -/
lemma agree_retype_setValue (ht : untyped t = false) :
    ((rs.setValue untyped e.id v).retype untyped t e).Agree untyped P fun _ => True := by
  have hother {j} (hj : j ≠ e.id) : (rs.setValue untyped e.id v).find? j = rs.find? j := by
    rw [find?_setValue, if_neg hj]
  cases hopen : rs.open? untyped e.id with
  | none => exact agree_retype_setValue_of_open?_eq_none h hopen
  | some o =>
    obtain ⟨r, hr, hu, -⟩ := open?_eq_some_iff.mp hopen
    cases e with
    | paren n inner =>
      have hlies := he.lies
      -- of the other parentheses, none shows the value
      have hvalue : (rs.setValue untyped n.id v).Agree untyped P (· ≠ inner.id) := by
        refine h.congr fun p hp hne => ⟨trivial, hother fun hid => hne ?_, hother ?_⟩
        · exact congrArg Paren.inner (hlies.eq_of_outer hp hid)
        · exact he.inner_ne_id hp
      have hinner : ((rs.setValue untyped n.id v).retype untyped t inner).Agree untyped P
          fun i => i ≠ inner.id ∧ i ≠ inner.id :=
        agree_retype hlies.lies_inner (fun p hp => inner.inner_ne_id hlies.lies_inner.nodup hp) hvalue
      have hself : (rs.setValue untyped n.id v).find? n.id = some (withValue untyped v r) := by
        rw [find?_setValue, if_pos rfl, show rs.find? n.id = some r from hr]
        rfl
      have hstep : (rs.setValue untyped n.id v).retype untyped t (.paren n inner) =
          ((rs.setValue untyped n.id v).retype untyped t inner).setType n.id t := by
        simp only [retype, retypeNode, hself, withValue_type, hu, if_pos]
      change ((rs.setValue untyped n.id v).retype untyped t (.paren n inner)).Agree untyped P _
      rw [hstep]
      refine (agree_setType_paren (S := fun _ => True) hlies ?_ fun r₁ hr₁ => ?_).congr
        fun p hp _ => ⟨⟨trivial, he.inner_ne_id hp⟩, rfl, rfl⟩
      · exact hinner.congr fun p _ hne => ⟨⟨hne.2, hne.2⟩, rfl, rfl⟩
      · rw [find?_retype_of_notMem inner hlies.id_notMem_inner, hself] at hr₁
        cases hr₁
        obtain ⟨r', hr', hu', hmode⟩ := h.of_untyped (p := ⟨n.id, inner.id⟩)
          (he.among _ List.mem_cons_self) trivial hr hu
        have hr'' : (rs.setValue untyped n.id v).find? inner.id = some r' :=
          (hother hlies.inner_id_ne).trans hr'
        refine ⟨_, find?_retype_self hlies.lies_inner.nodup hr'' hu', rfl, ?_⟩
        cases hconst : r.mode.isConstant with
        | false =>
          have hkept : withValue untyped v r = r := by simp [withValue, hconst]
          exact .inl (by rw [hkept]; exact hmode)
        | true => exact .inr ⟨ht, by simp [withValue_isConstant, hconst], by simp [← hmode, hconst]⟩
    | _ =>
      -- nothing encloses the expression, and it encloses nothing
      apply agree_retype_whole he
      exact h.congr fun p hp _ =>
        ⟨trivial, hother (he.lies.outer_ne_id rfl hp), hother (he.inner_ne_id hp)⟩

end

lemma find?_setPair_of_notMem (e : Expr) (hj : j ∉ e.ids) :
    (rs.setPair t e).find? j = rs.find? j := by
  rw [find?_setPair, if_neg fun h => hj (e.layers_subset h)]

/-- Parentheses and what they enclose take on the type of a pair together. -/
lemma agree_setPair {e : Expr} {rs : Records} {S : Nat → Prop} (ht : untyped t = false)
    (he : e.Lies P) (hS : ∀ p ∈ e.parens, S p.inner) (h : rs.Agree untyped P S) :
    (rs.setPair t e).Agree untyped P fun i => S i ∧ i ≠ e.id := by
  cases e with
  | paren n inner =>
    simp only [setPair]
    have hnodup := he.lies_inner.nodup
    have hfirst : (rs.setType n.id t).Agree untyped P fun i => S i ∧ i ≠ n.id ∧ i ≠ inner.id := by
      refine h.congr ?_
      rintro p hp ⟨hpS, hn, hinner⟩
      refine ⟨hpS, ?_, ?_⟩
      · rw [find?_setType, if_neg fun hid => hinner (congrArg Paren.inner (he.eq_of_outer hp hid))]
      · rw [find?_setType, if_neg hn]
    have hrest := agree_setPair ht he.lies_inner (fun p hp => ?_) hfirst
    · rintro p hp ⟨hpS, hn⟩ r₁ hr₁
      by_cases hid : p.inner = inner.id
      · -- the parentheses themselves
        obtain rfl := he.eq_of_inner hp hid
        rw [find?_setPair_of_notMem inner he.id_notMem_inner, find?_setType, if_pos rfl,
          Option.map_eq_some_iff] at hr₁
        obtain ⟨r, hr, rfl⟩ := hr₁
        obtain ⟨r', hr', -, hmode⟩ := h ⟨n.id, inner.id⟩ hp hpS r hr
        refine ⟨{ r' with type := t }, ?_, rfl, hmode.imp_right fun hm => ⟨ht, hm.2⟩⟩
        rw [find?_setPair, if_pos inner.id_mem_layers, find?_setType, if_neg he.inner_id_ne, hr']
        rfl
      · exact hrest p hp ⟨⟨hpS, hn, hid⟩, hid⟩ r₁ hr₁
    · refine ⟨hS p (List.mem_cons_of_mem _ hp), fun hid => ?_, inner.inner_ne_id hnodup hp⟩
      exact he.id_notMem_inner (hid ▸ (inner.in_of_mem_parens p hp).2)
  | _ =>
    simp only [setPair]
    exact agree_setType (fun p hp => he.outer_ne_id rfl hp) h

end Records

end GoCheck
