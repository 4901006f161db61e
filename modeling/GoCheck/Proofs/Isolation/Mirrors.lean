import GoCheck.Proofs.Isolation.Conversions

/-!
# Checks side by side

One check is run from two states, the second one with new numbers because other entities have been
made before. The two runs make the same reports and end in states that differ in their numbers
alone.
-/

namespace GoCheck

open Renumbering List Store

variable {c c' d d' : Checker} {span span' : Span} {o o' : ObjectId} {name : String}
  {x x' : ScopeId} {ρ : Renumbering} {n top i' : Nat}

namespace Checker

variable {e : Checker}

/-- The second state is the first with new numbers. The check itself has put off what waits. -/
structure Mirrored (ρ : Renumbering) (c c' : Checker) : Prop where
  ordered : c.store.Ordered
  grown : c.store.Grown ρ
  shifted : c.store.Shifted ρ c'.store
  package : c'.package = c.package
  config : c'.config = c.config
  context : c'.context = ρ.context c.context
  deferred : c'.deferred = c.deferred.map ρ.deferred
  literal : ∀ d ∈ c.deferred, ρ.NewType d.sig ∧ ρ.NewScope d.scope

/-- A later state in the same place of the program. -/
structure Onward (c d : Checker) : Prop where
  steps : c.Steps d
  context : d.context = c.context

lemma Onward.refl (c : Checker) : c.Onward c := ⟨.refl c, rfl⟩

lemma Onward.trans (h : c.Onward d) (k : d.Onward e) : c.Onward e :=
  ⟨h.steps.trans k.steps, k.context.trans h.context⟩

/-- A check cannot tell two states apart if they differ in records and history alone. -/
structure Indistinct (c d : Checker) : Prop where
  store : d.store = c.store
  package : d.package = c.package
  config : d.config = c.config
  context : d.context = c.context
  deferred : d.deferred = c.deferred
  sink : d.sink = c.sink

lemma Mirrored.indistinct (h : c.Mirrored ρ c') (hd : c.Indistinct d) (hd' : c'.Indistinct d') :
    d.Mirrored ρ d' where
  ordered := hd.store ▸ h.ordered
  grown := hd.store ▸ h.grown
  shifted := by
    rw [hd.store, hd'.store]
    exact h.shifted
  package := by rw [hd.package, hd'.package, h.package]
  config := by rw [hd.config, hd'.config, h.config]
  context := by rw [hd.context, hd'.context, h.context]
  deferred := by rw [hd.deferred, hd'.deferred, h.deferred]
  literal := hd.deferred ▸ h.literal

lemma Mirrored.store (h : c.Mirrored ρ c') (hordered : s.Ordered)
    (hgrown : s.Grown ρ) (hshifted : s.Shifted ρ s') :
    ({ c with store := s } : Checker).Mirrored ρ { c' with store := s' } :=
  ⟨hordered, hgrown, hshifted, h.package, h.config, h.context, h.deferred, h.literal⟩

lemma Mirrored.move (h : c.Mirrored ρ c') (hk : k' = ρ.context k) :
    ({ c with context := k } : Checker).Mirrored ρ { c' with context := k' } :=
  ⟨h.ordered, h.grown, h.shifted, h.package, h.config, hk, h.deferred, h.literal⟩

lemma Mirrored.packageScope (h : c.Mirrored ρ c') (hc : c.Closed false) :
    c'.packageScope = ρ.scope c.packageScope := by
  have hpackage : c.store.package c.package ∈ c.store.packages := by
    unfold Store.package
    rw [Array.getElem?_eq_getElem hc.package]
    exact Array.getElem_mem hc.package
  have hold := h.shifted.packageScope _ hpackage
  unfold Checker.packageScope
  rw [scope_of_not_new hold, h.package, Store.package, h.shifted.packages]
  rfl

end Checker

namespace Pass

variable {α : Type} {m m' : Pass α} {f : α → Pass β} {T : α → Store → Prop}

/-- A pass does from the second state what another does from the first, with `r` for the outcome and
`Q`. -/
structure Follows (ρ : Renumbering) (m m' : Pass α) (c c' : Checker) (r : α → α)
    (Q : α → Checker → Prop := fun _ _ => True) : Prop where
  after : (m.1 c).2.Mirrored ρ (m'.1 c').2
  emitted : m'.emitted c' = m.emitted c
  outcome : (m'.1 c').1 = r (m.1 c).1
  frame : c.store.Frame ρ (m.1 c).2.store
  known : Q (m.1 c).1 (m.1 c).2

/-- Passes that follow each other, and return to the place in the program where they began. -/
structure Mirrors (ρ : Renumbering) (m m' : Pass α) (c c' : Checker) (r : α → α)
    (Q : α → Checker → Prop := fun _ _ => True) : Prop extends Follows ρ m m' c c' r Q where
  context : (m.1 c).2.context = c.context

lemma Follows.bind (hm : m.Follows ρ m' c c' r R)
    (hf : ∀ a d d', c.Steps d → d.Mirrored ρ d' → R a d → (f a).Follows ρ (f' (r a)) d d' w S) :
    (m >>= f).Follows ρ (m' >>= f') c c' w S := by
  have hnext := hf _ _ _ (m.2 c) hm.after hm.known
  have hrun : (m' >>= f').1 c' = (f' (r (m.1 c).1)).1 (m'.1 c').2 := by
    rw [← hm.outcome]
    rfl
  have hemitted : (m' >>= f').emitted c' = (m >>= f).emitted c := by
    rw [emitted_bind, emitted_bind, hm.emitted, hm.outcome, hnext.emitted]
  exact ⟨hrun ▸ hnext.after, hemitted, hrun ▸ hnext.outcome, hm.frame.trans hnext.frame, hnext.known⟩

lemma Follows.mono (hm : m.Follows ρ m' c c' r R) (h : ∀ a d, R a d → Q a d) :
    m.Follows ρ m' c c' r Q :=
  { hm with known := h _ _ hm.known }

lemma Follows.safe (hm : m.Follows ρ m' c c' r R) (hsafe : m.Safe false c T) :
    m.Follows ρ m' c c' r fun a d => R a d ∧ d.Closed false ∧ T a d.store :=
  { hm with known := ⟨hm.known, hsafe.closed, hsafe.result⟩ }

namespace Mirrors

lemma pure (h : c.Mirrored ρ c') (ha : a' = r a) (hQ : Q a c) :
    (pure a : Pass α).Mirrors ρ (pure a') c c' r Q where
  after := h
  emitted := by rw [emitted_eq_nil rfl, emitted_eq_nil rfl]
  outcome := ha
  frame := .refl ..
  known := hQ
  context := rfl

lemma done (h : c.Mirrored ρ c') (ha : a' = r a) :
    (Pure.pure a : Pass α).Mirrors ρ (Pure.pure a') c c' r :=
  .pure h ha .intro

/-- The second of two passes may count on what is known after the first. -/
lemma bind (hm : m.Mirrors ρ m' c c' r R)
    (hf : ∀ a d d', c.Onward d → d.Mirrored ρ d' → R a d → (f a).Mirrors ρ (f' (r a)) d d' w S) :
    (m >>= f).Mirrors ρ (m' >>= f') c c' w S := by
  have hstays : m.Follows ρ m' c c' r fun a d => d.context = c.context ∧ R a d :=
    ⟨hm.after, hm.emitted, hm.outcome, hm.frame, hm.context, hm.known⟩
  refine ⟨hstays.bind fun a d d' hd hmirrored hR => ?_, ?_⟩
  · exact (hf a d d' ⟨hd, hR.1⟩ hmirrored hR.2).toFollows
  · exact (hf _ _ _ ⟨m.2 c, hm.context⟩ hm.after hm.known).context.trans hm.context

lemma next (hm : m.Mirrors ρ m' c c' r R)
    (hf : ∀ {d d'} a, d.Mirrored ρ d' → (f a).Mirrors ρ (f' (r a)) d d' w S) :
    (m >>= f).Mirrors ρ (m' >>= f') c c' w S :=
  hm.bind fun a _ _ _ hd _ => hf a hd

lemma safe (hm : m.Mirrors ρ m' c c' r R) (hsafe : m.Safe false c T) :
    m.Mirrors ρ m' c c' r fun a d => R a d ∧ d.Closed false ∧ T a d.store :=
  ⟨hm.toFollows.safe hsafe, hm.context⟩

lemma mono (hm : m.Mirrors ρ m' c c' r R) (h : ∀ a d, c.Onward d → R a d → Q a d) :
    m.Mirrors ρ m' c c' r Q :=
  { hm with known := h _ _ ⟨m.2 c, hm.context⟩ hm.known }

lemma trivial (hm : m.Mirrors ρ m' c c' r R) : m.Mirrors ρ m' c c' r :=
  hm.mono fun _ _ _ _ => .intro

lemma discard (hm : m.Mirrors ρ m' c c' r R) :
    (Functor.discard m).Mirrors ρ (Functor.discard m') c c' id :=
  hm.next fun _ h => .done h rfl

end Mirrors

@[simp]
lemma mirrors_current_bind {f f' : Checker → Pass β} :
    (current >>= f).Mirrors ρ (current >>= f') c c' w S ↔ (f c).Mirrors ρ (f' c') c c' w S :=
  ⟨fun h => ⟨⟨h.1.1, h.1.2, h.1.3, h.1.4, h.1.5⟩, h.2⟩,
    fun h => ⟨⟨h.1.1, h.1.2, h.1.3, h.1.4, h.1.5⟩, h.2⟩⟩

@[simp]
lemma mirrors_entities_bind {f f' : Store → Pass β} :
    (entities >>= f).Mirrors ρ (entities >>= f') c c' w S ↔
      (f c.store).Mirrors ρ (f' c'.store) c c' w S :=
  ⟨fun h => ⟨⟨h.1.1, h.1.2, h.1.3, h.1.4, h.1.5⟩, h.2⟩,
    fun h => ⟨⟨h.1.1, h.1.2, h.1.3, h.1.4, h.1.5⟩, h.2⟩⟩

@[simp]
lemma mirrors_describe_bind {x x' : Operand} {f f' : String → Pass β} :
    (describe x >>= f).Mirrors ρ (describe x' >>= f') c c' w S ↔
      (f (x.describe c.store)).Mirrors ρ (f' (x'.describe c'.store)) c c' w S := by
  rw [describe, bind_assoc, describe, bind_assoc, mirrors_entities_bind, pure_bind, pure_bind]

@[simp]
lemma mirrors_typeText_bind {f f' : String → Pass β} :
    (typeText t >>= f).Mirrors ρ (typeText t' >>= f') c c' w S ↔
      (f (c.store.typeText t)).Mirrors ρ (f' (c'.store.typeText t')) c c' w S := by
  rw [typeText, bind_assoc, typeText, bind_assoc, mirrors_entities_bind, pure_bind, pure_bind]

variable {P : Checker → Prop} {g : α → Pass PUnit} {l : List α}

lemma mirrors_forM (h : c.Mirrored ρ c') (hP : P c)
    (hg : ∀ a ∈ l, ∀ d d', c.Onward d → d.Mirrored ρ d' → P d →
      (g a).Mirrors ρ (g' (r a)) d d' id fun _ e => P e) :
    (l.forM g).Mirrors ρ ((l.map r).forM g') c c' id fun _ e => P e := by
  induction l generalizing c c' with
  | nil => exact .pure h rfl hP
  | cons a l ih =>
    refine (hg a (by simp) c c' (.refl c) h hP).bind fun _ d d' hd hmirrored hPd => ?_
    refine ih hmirrored hPd fun b hb e e' he => ?_
    exact hg b (by simp [hb]) e e' (hd.trans he)

lemma mirrors_forM_same (h : c.Mirrored ρ c') (hP : P c)
    (hg : ∀ a ∈ l, ∀ d d', c.Onward d → d.Mirrored ρ d' → P d →
      (g a).Mirrors ρ (g' a) d d' id fun _ e => P e) :
    (l.forM g).Mirrors ρ (l.forM g') c c' id fun _ e => P e := by
  have hall := mirrors_forM (r := id) h hP hg
  rwa [map_id] at hall

lemma mirrors_optionForM {o : Option α} (h : c.Mirrored ρ c')
    (hg : ∀ a ∈ o, (g a).Mirrors ρ (g' (r a)) c c' id) :
    (o.forM g).Mirrors ρ ((o.map r).forM g') c c' id := by
  cases o with
  | none => exact .done h rfl
  | some a => exact hg a rfl

variable {T : β → Prop}

lemma mirrors_mapM (h : c.Mirrored ρ c') (hP : P c)
    (hf : ∀ a ∈ l, ∀ d d', c.Onward d → d.Mirrored ρ d' → P d →
      (f a).Mirrors ρ (f' (r a)) d d' w fun b e => P e ∧ T b) :
    (l.mapM f).Mirrors ρ ((l.map r).mapM f') c c' (List.map w) fun bs e => P e ∧ ∀ b ∈ bs, T b := by
  induction l generalizing c c' with
  | nil => exact .pure h rfl ⟨hP, by simp⟩
  | cons a l ih =>
    rw [map_cons, mapM_cons, mapM_cons]
    refine (hf a (by simp) c c' (.refl c) h hP).bind fun b d d' hd hmirrored hb => ?_
    have htail := ih hmirrored hb.1 fun b hb e e' he => hf b (by simp [hb]) e e' (hd.trans he)
    refine htail.bind fun bs e e' he hmirrored' hbs => .pure hmirrored' rfl ⟨hbs.1, ?_⟩
    simpa using ⟨hb.2, hbs.2⟩

lemma mirrors_mapM_same (h : c.Mirrored ρ c')
    (hP : P c) (hf : ∀ a ∈ l, ∀ d d', c.Onward d → d.Mirrored ρ d' → P d →
      (f a).Mirrors ρ (f' a) d d' w fun b e => P e ∧ T b) :
    (l.mapM f).Mirrors ρ (l.mapM f') c c' (List.map w) fun bs e => P e ∧ ∀ b ∈ bs, T b := by
  have hall := mirrors_mapM (r := id) h hP hf
  rwa [map_id] at hall

section

variable (h : c.Mirrored ρ c')
include h

variable {g : Checker → Checker}

variable {hg : ∀ c : Checker, c.Step (g c)}

omit h in
lemma mirrors_step (hsink : (g c).sink = c.sink) (hsink' : (g' c').sink = c'.sink)
    (hstore : (g c).store = c.store) (hcontext : (g c).context = c.context)
    (hafter : (g c).Mirrored ρ (g' c')) :
    (step g hg).Mirrors ρ (step g' hg') c c' id fun _ d => d.store = c.store where
  after := hafter
  emitted := (emitted_eq_nil hsink').trans (emitted_eq_nil hsink).symm
  outcome := rfl
  frame := by
    change c.store.Frame ρ (g c).store
    rw [hstore]
    exact .refl ..
  known := hstore
  context := hcontext

lemma mirrors_indistinct (hd : c.Indistinct (g c) ∧ c'.Indistinct (g' c')) :
    (step g hg).Mirrors ρ (step g' hg') c c' id fun _ d => d.store = c.store :=
  mirrors_step hd.1.sink hd.2.sink hd.1.store hd.1.context (h.indistinct hd.1 hd.2)

lemma mirrors_logEvent {e e' : Event} : (logEvent e).Mirrors ρ (logEvent e') c c' id :=
  (mirrors_indistinct h (by repeat' constructor)).trivial

lemma mirrors_note {x x' : Happening} : (note x).Mirrors ρ (note x') c c' id :=
  (mirrors_indistinct h (by repeat' constructor)).trivial

lemma mirrors_setIndent : (setIndent n).Mirrors ρ (setIndent n') c c' id :=
  (mirrors_indistinct h (by repeat' constructor)).trivial

lemma mirrors_onRecords {g g' : Records → Records} :
    (onRecords g).Mirrors ρ (onRecords g') c c' id :=
  (mirrors_indistinct h (by repeat' constructor)).trivial

lemma mirrors_recordFailed : (recordFailed i).Mirrors ρ (recordFailed i') c c' id :=
  (mirrors_indistinct h (by repeat' constructor)).trivial

lemma mirrors_recordConversion {x x' : Conversion} :
    (recordConversion x).Mirrors ρ (recordConversion x') c c' id :=
  (mirrors_indistinct h (by repeat' constructor)).trivial

lemma mirrors_recordDef {o o' : Option ObjectId} :
    (recordDef span o).Mirrors ρ (recordDef span o') c c' id :=
  (mirrors_indistinct h (by repeat' constructor)).trivial

lemma mirrors_recordUse : (recordUse span o).Mirrors ρ (recordUse span o') c c' id :=
  (mirrors_indistinct h (by repeat' constructor)).trivial

lemma mirrors_recordScope :
    (recordScope span x).Mirrors ρ (recordScope span x') c c' id fun _ d => d.store = c.store :=
  mirrors_indistinct h (by repeat' constructor)

lemma mirrors_emit {x : Diagnostic} : (emit x).Mirrors ρ (emit x) c c' id where
  after := ⟨h.ordered, h.grown, h.shifted, h.package, h.config, h.context, h.deferred, h.literal⟩
  emitted := by rw [emitted_emit, emitted_emit]
  outcome := rfl
  frame := .refl ..
  known := .intro
  context := rfl

lemma mirrors_report (hp : p' = p) (hspan : span' = span) :
    (report p span).Mirrors ρ (report p' span') c c' id := by
  subst hp hspan
  exact mirrors_emit h

lemma mirrors_defer {x : Deferred} (hsig : ρ.NewType x.sig) (hscope : ρ.NewScope x.scope) :
    (defer x).Mirrors ρ (defer (ρ.deferred x)) c c' id :=
  .trivial <| mirrors_step rfl rfl rfl rfl {
    h with
    deferred := by
      change c'.deferred ++ [_] = (c.deferred ++ [_]).map _
      rw [h.deferred, map_append]
      rfl
    literal := fun y hy => by
      rcases mem_append.mp hy with hold | hnew
      · exact h.literal y hold
      · rw [mem_singleton.mp hnew]
        exact ⟨hsig, hscope⟩ }

lemma mirrors_dropDeferred : (dropDeferred n).Mirrors ρ (dropDeferred n) c c' id :=
  .trivial <| mirrors_step rfl rfl rfl rfl { h with
    deferred := by
      change c'.deferred.take n = (c.deferred.take n).map _
      rw [h.deferred, map_take]
    literal := fun y hy => h.literal y (mem_of_mem_take hy) }

lemma mirrors_traceLine {line line' : Store → String} :
    (traceLine line).Mirrors ρ (traceLine line') c c' id := by
  simp only [traceLine, mirrors_current_bind, h.config]
  split
  · exact mirrors_logEvent h
  · exact .done h rfl

lemma mirrors_indentTrace : indentTrace.Mirrors ρ indentTrace c c' id := by
  simp only [indentTrace, mirrors_current_bind, h.config]
  split
  · exact mirrors_setIndent h
  · exact .done h rfl

lemma mirrors_unindentTrace : unindentTrace.Mirrors ρ unindentTrace c c' id := by
  simp only [unindentTrace, mirrors_current_bind, h.config]
  split
  · exact mirrors_setIndent h
  · exact .done h rfl

lemma mirrors_probe {ask ask' : Store → Probe α} (hask : ask' c'.store = ask c.store) :
    (probe ask).Mirrors ρ (probe ask') c c' id := by
  simp only [probe, mirrors_entities_bind, hask]
  have hlog : (((ask c.store).run []).2.forM fun x => logEvent (.missingMethod x)).Mirrors ρ
      (((ask c.store).run []).2.forM fun x => logEvent (.missingMethod x)) c c' id :=
    mirrors_forM_same h .intro fun x _ d d' _ hd _ => mirrors_logEvent hd
  exact hlog.next fun _ hd => .done hd rfl

end

lemma mirrors_build (h : c.Mirrored ρ c') (hordered : (b c.store).2.Ordered)
    (hgrown : (b c.store).2.Grown ρ) (hshifted : (b c.store).2.Shifted ρ (b' c'.store).2)
    (hframe : c.store.Frame ρ (b c.store).2) (ha : (b' c'.store).1 = r (b c.store).1)
    (hQ : Q (b c.store).1 { c with store := (b c.store).2 }) :
    (build b hb).Mirrors ρ (build b' hb') c c' r Q where
  after := h.store hordered hgrown hshifted
  emitted := (emitted_eq_nil rfl).trans (emitted_eq_nil rfl).symm
  outcome := ha
  frame := hframe
  known := hQ
  context := rfl

section

variable (h : c.Mirrored ρ c')
include h

/-- Changes of an object that match: of a new object, or one that cannot be seen. -/
lemma mirrors_modifyObject {g g' : Object → Object}
    {hstep : ∀ c : Checker, c.Step { c with store := c.store.modifyObject o g }}
    {hstep' : ∀ c : Checker, c.Step { c with store := c.store.modifyObject (ρ.object o) g' }}
    (hs : c.store.Step (c.store.modifyObject o g)) (hname : ∀ ob, (g ob).isTypeName = ob.isTypeName)
    (hnew : ρ.NewObject o ∨ ∀ ob, (g ob).outline = ob.outline)
    (houtline : ∀ ob ob', ob'.outline = ρ.ob ob.outline → (g' ob').outline = ρ.ob (g ob).outline)
    (hentity : ρ.NewObject o → ∀ ob ob', ob'.entity = ob.entity →
      (g' ob').entity = (g ob).entity) : (step _ hstep).Mirrors ρ (step _ hstep') c c' id where
  after := by
    have htype : ρ.NewObject o ∨ ∀ ob, (g ob).type = ob.type := by
      refine hnew.imp_right fun hsame ob => ?_
      exact (congrArg Object.type (hsame ob) :)
    have hextended : c.store.Extended ρ (c.store.modifyObject o g) := .modifyObject hs hname htype
    refine h.store ?_ ?_ (h.shifted.modifyObject houtline hentity)
    · exact h.ordered.keep (fun _ => rfl) fun _ => rfl
    · exact h.grown.extended hextended (fun _ _ _ hb => .inl hb) fun _ _ _ hy => .inl hy
  emitted := (emitted_eq_nil rfl).trans (emitted_eq_nil rfl).symm
  outcome := rfl
  frame := .modifyObject hnew
  known := .intro
  context := rfl

lemma mirrors_setUsed {used used' : Bool} (hused : ρ.NewObject o → used' = used) :
    (setUsed o used).Mirrors ρ (setUsed (ρ.object o) used') c c' id := by
  refine mirrors_modifyObject h (.setUsed ..) ?_ (.inr fun ob => Object.outline_setUsed used) ?_ ?_
  · intro ob
    cases hob : ob.entity <;> simp [Object.setUsed, Object.isTypeName, hob]
  · intro ob ob' hob
    rw [Object.outline_setUsed, Object.outline_setUsed, hob]
  · intro hnew ob ob' hob
    rw [hused hnew]
    unfold Object.setUsed
    rw [hob]
    cases ob.entity <;> simp_all

lemma mirrors_markUsed : (markUsed o).Mirrors ρ (markUsed (ρ.object o)) c c' id :=
  mirrors_setUsed h fun _ => rfl

lemma mirrors_giveType (ho : ρ.NewObject o) :
    (giveType o t).Mirrors ρ (giveType (ρ.object o) (ρ.type t)) c c' id := by
  refine mirrors_modifyObject h (.giveType ..) (fun _ => rfl) (.inl ho) ?_ fun _ _ _ hob => hob
  intro ob ob' hob
  have hgiven : (ob.type.map ρ.type <|> some (ρ.type t)) = (ob.type <|> some t).map ρ.type := by
    cases ob.type <;> rfl
  simp only [Object.outline, Renumbering.ob, Object.mk.injEq] at hob
  simp only [Object.giveType, Object.outline, Renumbering.ob, hob, hgiven]

lemma mirrors_invalidateMissing (ho : ρ.NewObject o) :
    (invalidateMissing o).Mirrors ρ (invalidateMissing (ρ.object o)) c c' id := by
  have hgive := mirrors_giveType h ho (t := .invalid)
  rwa [type_invalid] at hgive

lemma mirrors_setValue (ho : ρ.NewObject o) :
    (setValue o v).Mirrors ρ (setValue (ρ.object o) v) c c' id := by
  refine mirrors_modifyObject h (.setValue ..) ?_ (.inl ho) ?_ ?_
  · intro ob
    cases hob : ob.entity <;> simp [Object.setValue, Object.isTypeName, hob]
  · intro ob ob' hob
    simp only [Object.outline, Renumbering.ob, Object.mk.injEq] at hob
    unfold Object.setValue
    cases hold : ob.entity <;> cases hnew : ob'.entity <;>
      simp_all [Entity.bare, Object.outline, Renumbering.ob]
  · intro _ ob ob' hob
    unfold Object.setValue
    rw [hob]
    cases ob.entity <;> simp_all

variable {visibleFrom : Nat}

lemma mirrors_setVisible :
    (setVisible o visibleFrom).Mirrors ρ (setVisible (ρ.object o) visibleFrom) c c' id :=
  mirrors_modifyObject h (.setVisible ..) (fun _ => rfl) (.inr fun _ => rfl)
    (fun _ _ hob => hob) fun _ _ _ hob => hob

lemma mirrors_newObject {hb : ∀ s : Store, s.Step (b s).2}
    {hb' : ∀ s : Store, s.Step (b' s).2} {ob ob' : Object} (hbuild : b = Build.newObject ob)
    (hbuild' : b' = Build.newObject ob') (hname : ob.isTypeName = false)
    (hob : ob'.outline = ρ.ob ob.outline) (hentity : ob'.entity = ob.entity) :
    (build b hb).Mirrors ρ (build b' hb') c c' ρ.object fun o d =>
      ρ.NewObject o ∧ (d.store.object o).type = ob.type := by
  subst hbuild hbuild'
  refine mirrors_build h ?_ ?_ (h.shifted.newObject hob hentity) (.newObject h.shifted.objects_start)
    h.shifted.nextObject ⟨h.shifted.objects_start, ?_⟩
  · exact h.ordered.keep (fun _ => rfl) fun _ => rfl
  · exact h.grown.extended (.newObject h.shifted.objects_start hname) (fun _ _ _ hb => .inl hb)
      fun _ _ _ hy => .inl hy
  · change ((Build.newObject ob c.store).2.object ⟨c.store.objects.size⟩).type = ob.type
    rw [object_newObject, if_pos rfl]

section

variable {package : Option PackageId} {ot : Option TypeId}

lemma mirrors_newVar : (newVar span package name ot).Mirrors ρ
    (newVar span package name (ot.map ρ.type)) c c' ρ.object fun o d =>
      ρ.NewObject o ∧ (d.store.object o).type = ot :=
  mirrors_newObject h rfl rfl rfl rfl rfl

lemma mirrors_newParam : (newParam span package name ot).Mirrors ρ
    (newParam span package name (ot.map ρ.type)) c c' ρ.object fun o d =>
      ρ.NewObject o ∧ (d.store.object o).type = ot :=
  mirrors_newObject h rfl rfl rfl rfl rfl

lemma mirrors_newConst : (newConst span package name ot v).Mirrors ρ
    (newConst span package name (ot.map ρ.type) v) c c' ρ.object fun o d =>
      ρ.NewObject o ∧ (d.store.object o).type = ot :=
  mirrors_newObject h rfl rfl rfl rfl rfl

end

lemma mirrors_newScope
    (hparent : ∀ p ∈ parent, c.store.HasScope p) : (newScope parent span comment isFunc).Mirrors ρ
      (newScope (parent.map ρ.scope) span comment isFunc) c c' ρ.scope fun x d =>
        ρ.NewScope x ∧ d.store.HasScope x ∧ (d.store.scope x).parent = parent := by
  have hindex : ∀ (s : Store) p, (Build.newScope p span.start span.stop comment isFunc s).1 =
      ⟨s.scopes.size⟩ := fun s p => congrArg ScopeId.mk (newScope_index ..)
  have hchild : ∀ x y, y ∈ ((Build.newScope parent span.start span.stop comment isFunc
      c.store).2.scope x).children → y ∈ (c.store.scope x).children ∨ x.index < y.index := by
    intro x y hy
    rw [scope_newScope hparent] at hy
    split at hy
    · cases hy
    · split at hy
      · rename_i hx
        rcases mem_append.mp hy with hold | hnew
        · exact .inl hold
        · rw [mem_singleton.mp hnew]
          exact .inr (hparent x hx.1)
      · exact .inl hy
  refine mirrors_build h (h.ordered.newScope hparent) ?_ (h.shifted.newScope hparent)
    (.newScope hparent h.shifted.scopes_start) ?_ ?_
  · refine h.grown.extended .newScope (fun x _ b hb => .inl ?_) fun x _ y hy => hchild x y hy
    rwa [bindings_newScope] at hb
  · rw [hindex, hindex, h.shifted.nextScope]
  · rw [hindex]
    refine ⟨h.shifted.scopes_start, ?_, ?_⟩
    · change c.store.scopes.size < (Build.newScope ..).2.scopes.size
      rw [newScope_scopes_size]
      exact Nat.lt_succ_self _
    · change ((Build.newScope ..).2.scope _).parent = parent
      rw [parent_newScope, if_pos rfl]

lemma mirrors_bindIn (hx : ρ.NewScope x) (ho : ρ.NewObject o) :
    (bindIn x o).Mirrors ρ (bindIn (ρ.scope x) (ρ.object o)) c c' (Option.map ρ.object) := by
  refine mirrors_build h h.ordered.bind ?_ (h.shifted.bind x o) (.bind hx) (h.shifted.bind_fst x o)
    .intro
  refine h.grown.extended .bind (fun y _ b hb => ?_) fun y _ z hz => .inl ?_
  · rcases bindings_bind hb with hold | hnew
    · exact .inl hold
    · exact .inr (hnew ▸ ho)
  · rwa [children_bind] at hz

lemma mirrors_lookup : (lookup name).Mirrors ρ (lookup name) c c' (Option.map ρ.object) := by
  have hfound : (c'.context.scope.bind (c'.store.resolve? · name)) =
      (c.context.scope.bind (c.store.resolve? · name)).map fun r => (ρ.scope r.1, ρ.object r.2) := by
    rw [h.context, context]
    cases c.context.scope with
    | none => rfl
    | some x => exact h.shifted.resolve? h.ordered x name
  simp only [lookup, mirrors_current_bind, hfound]
  refine (mirrors_note h).next fun _ hd => .pure hd ?_ .intro
  rw [Option.map_map, Option.map_map]
  rfl

lemma mirrors_isLocalVar : (isLocalVar o).Mirrors ρ (isLocalVar (ρ.object o)) c c' id := by
  simp only [isLocalVar, mirrors_current_bind]
  refine .pure h ?_ .intro
  rw [h.shifted.isVar, h.shifted.package, h.package]
  rfl

lemma mirrors_localVar? : (localVar? i).Mirrors ρ (localVar? i) c c' (Option.map ρ.object) := by
  refine (mirrors_lookup h).next fun o hd => ?_
  cases o with
  | none => exact .done hd rfl
  | some o =>
    refine (mirrors_isLocalVar hd).next fun isLocal he => .pure he ?_ .intro
    cases isLocal <;> rfl

omit h in
lemma redeclaration_eq {o other o' other' : Object} (hname : o'.name = o.name)
    (hspan : o'.span = o.span) (hname' : other'.name = other.name)
    (hspan' : other'.span = other.span) : redeclaration o' other' = redeclaration o other := by
  unfold redeclaration
  rw [hname, hspan, hname', hspan']

lemma mirrors_declare {name : Option Ident} (hx : ρ.NewScope x) (ho : ρ.NewObject o) :
    (declare x name o visibleFrom).Mirrors ρ (declare (ρ.scope x) name (ρ.object o) visibleFrom) c c'
      id := by
  have hdef : ∀ {d d'}, d.Mirrored ρ d' →
      (name.forM fun i => recordDef i.span (some o)).Mirrors ρ
        (name.forM fun i => recordDef i.span (some (ρ.object o))) d d' id := by
    intro d d' hd
    cases name with
    | none => exact .done hd rfl
    | some i => exact mirrors_recordDef hd
  simp only [declare, mirrors_entities_bind, h.shifted.isBlank]
  cases hblank : (c.store.object o).isBlank with
  | true => simpa using hdef h
  | false =>
    simp only [Bool.false_eq_true, if_false]
    refine (mirrors_bindIn h hx ho).next fun clash hd => ?_
    cases clash with
    | some other =>
      simp only [Option.map_some]
      rw [redeclaration_eq (h.shifted.name o) (h.shifted.span o) (h.shifted.name other)
        (h.shifted.span other)]
      exact (mirrors_emit hd).next fun _ he => mirrors_note he
    | none => exact (mirrors_setVisible hd).next fun _ he => hdef he

lemma mirrors_within (hk : k' = ρ.context k)
    (hm : ∀ d', ({ c with context := k } : Checker).Mirrored ρ d' →
      m.Mirrors ρ m' { c with context := k } d' r Q)
    (hQ : ∀ a {d e : Checker}, d.Steps e → e.store = d.store → Q a d → Q a e) :
    (within k m).Mirrors ρ (within k' m') c c' r Q := by
  have hinner := hm { c' with context := k' } (h.move hk)
  exact {
    after := hinner.after.move h.context
    emitted := hinner.emitted
    outcome := hinner.outcome
    frame := hinner.frame
    known := hQ _ (.single (.move ..)) rfl hinner.known
    context := rfl }

lemma follows_move (hk : k' = ρ.context k) :
    (move k).Follows ρ (move k') c c' id fun _ d => d.context = k ∧ d.store = c.store where
  after := h.move hk
  emitted := (emitted_eq_nil rfl).trans (emitted_eq_nil rfl).symm
  outcome := rfl
  frame := .refl ..
  known := ⟨rfl, rfl⟩

omit h in
lemma follows_current_bind {f f' : Checker → Pass β} (hf : (f c).Follows ρ (f' c') c c' w S) :
    (current >>= f).Follows ρ (current >>= f') c c' w S :=
  ⟨hf.after, hf.emitted, hf.outcome, hf.frame, hf.known⟩

lemma follows_openScope (hc : c.Closed false) :
    (openScope span).Follows ρ (openScope span) c c' id fun _ d => ∃ x,
      d.context = { c.context with scope := some x } ∧ ρ.NewScope x ∧ d.store.HasScope x ∧
        (d.store.scope x).parent = c.context.scope := by
  refine follows_current_bind ?_
  rw [h.context]
  refine (mirrors_newScope h hc.context.scope).toFollows.bind fun x d d' _ hd hx => ?_
  refine (mirrors_recordScope hd).toFollows.bind fun _ e e' _ he hstore => ?_
  refine (follows_move he rfl).mono fun _ g hg => ⟨x, hg.1, hx.1, ?_⟩
  rw [hg.2, hstore]
  exact hx.2

lemma follows_closeScope : closeScope.Follows ρ closeScope c c' id fun _ d =>
    d.context = { c.context with scope := c.context.scope.bind fun x => (c.store.scope x).parent } := by
  refine follows_current_bind ((follows_move h ?_).mono fun _ d hd => hd.1)
  rw [h.context]
  cases hscope : c.context.scope with
  | none => simp [context, hscope]
  | some x => simp [context, hscope, h.shifted.parent]

lemma mirrors_enclosed {m m' : Pass Unit} (hc : c.Closed false)
    (hm : ∀ x d d', c.Steps d → d.context = { c.context with scope := some x } → ρ.NewScope x →
      d.Closed false → d.Mirrored ρ d' → m.Mirrors ρ m' d d' id) :
    (do openScope span; m; closeScope).Mirrors ρ (do openScope span; m'; closeScope) c c' id := by
  have hall : (do openScope span; m; closeScope).Follows ρ (do openScope span; m'; closeScope) c c'
      id fun _ d => d.context = c.context := by
    refine ((follows_openScope h hc).safe (safe_openScope hc)).bind
      fun _ d d' hd hmirrored hopened => ?_
    obtain ⟨⟨x, hcontext, hnew, hx, hparent⟩, hclosed, -⟩ := hopened
    have hinner := hm x d d' hd hcontext hnew hclosed hmirrored
    have hstays : m.Follows ρ m' d d' id fun _ e => e.context = d.context :=
      { hinner with known := hinner.context }
    refine hstays.bind fun _ e e' he hmirrored' hsame => ?_
    refine (follows_closeScope hmirrored').mono fun _ g hg => ?_
    -- The scope was made inside the one that the block stands in, and has stayed there.
    rw [hg, hsame, hcontext]
    simp only [Option.bind_some, he.parent_eq hx, hparent]
  exact ⟨hall.mono fun _ _ _ => .intro, hall.known⟩

/-- The bodies put off since a place are checked in order. -/
lemma mirrors_runDeferred {run : Deferred → Pass Unit} (hc : c.Closed false)
    (hrun : ∀ x d d', c.Onward d → d.Closed false → d.Mirrored ρ d' → x.Within false d.store →
      ρ.NewType x.sig → ρ.NewScope x.scope →
      (run x).Mirrors ρ (run (ρ.deferred x)) d d' id fun _ e => e.Closed false) :
    (runDeferred run top).Mirrors ρ (runDeferred run top) c c' id := by
  simp only [runDeferred, mirrors_current_bind, h.deferred, ← map_drop]
  have hall : ((c.deferred.drop top).forM run).Mirrors ρ
      (((c.deferred.drop top).map ρ.deferred).forM run) c c' id fun _ e => e.Closed false := by
    refine mirrors_forM h hc fun x hx d d' hd hmirrored hclosed => ?_
    have hmem := mem_of_mem_drop hx
    have hwithin := hd.steps.keepStore (fun hs hx => hx.step hs) (hc.deferred x hmem)
    exact hrun x d d' hd hclosed hmirrored hwithin (h.literal x hmem).1 (h.literal x hmem).2
  exact hall.next fun _ hd => mirrors_dropDeferred hd

end

end Pass

end GoCheck
