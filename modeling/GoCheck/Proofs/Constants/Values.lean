import GoCheck.Proofs.Constants.Fitting

/-!
# Assignments and conversions of constants

An untyped constant takes on a type only after it has been found to fit, with all expressions that
lend it its value, except for the argument of a conversion whose result is no constant.
-/

namespace GoCheck

open Option Store Operand Constant Records

variable {v : Constant} {s s' : Store}

namespace Pass

variable {c d : Checker} {x y : Operand} {e : Expr}

lemma fits_onRecords_id (hc : c.Fitting)
    (hg : ∀ id, (g c.info.types).find? id = c.info.types.find? id) :
    (onRecords g).Fits ∅ c fun _ d => d.store = c.store := by
  have hfits := fits_onRecords (I := ∅) (g := g) hc (fun id r hr => .inl (hg id ▸ hr))
    (fun id _ o ho => by rwa [open?, hg id] at ho)
  exact hfits.mono fun _ _ _ _ hd => hd.1

lemma isSome_of_agrees (h : x.Agrees c (e.carriers x.mode.isConstant)) :
    ∀ id ∈ e.carriers x.mode.isConstant, ∀ o, c.info.types.open? c.store.isUntyped id = some o →
      o.isSome = x.mode.isConstant := by
  intro id hid o ho
  rw [h id hid o ho]
  rfl

lemma fits_retype (hc : c.Fitting)
    (h : c.open? e.id = none ∨ x.Agrees c (e.carriers x.mode.isConstant))
    (hsuits : ∀ id ∈ e.carriers x.mode.isConstant, ∀ m, m.constant? = x.mode.constant? →
      c.Suits id ⟨m, t⟩) :
    (onRecords (retype c.store.isUntyped t e)).Fits ∅ c fun _ d => d.store = c.store := by
  rcases h with h | h
  · exact fits_onRecords_id hc fun id => by rw [retype_of_open?_eq_none e h]
  have hretyped := retyped_retype (t := t) e (isSome_of_agrees h)
  have hfits := fits_onRecords (I := ∅) (g := retype c.store.isUntyped t e) hc
    (fun id r hr => ?_) (fun id _ o ho => hretyped.open? ho)
  · exact hfits.mono fun _ _ _ _ hd => hd.1
  · rcases hretyped id with hsame | ⟨hid, r', hr', hu, hnew⟩
    · exact .inl (hsame ▸ hr)
    · cases hnew.symm.trans hr
      refine .inr (hsuits id hid r'.mode ?_)
      exact h id hid _ (open?_eq_some_iff.mpr ⟨r', hr', hu, rfl⟩)

variable {v w : Constant} {s : Store} {m : Mode}

/-- A constant takes on a type that holds it, and with it the value that is held. -/
lemma fits_setValue_retype (hc : c.Fitting)
    (h : c.open? e.id = none ∨ x.Agrees c (e.carriers x.mode.isConstant))
    (hv : x.mode = .constant v) (hregular : v.isRegular) (hk : c.store.shape t = .basic k)
    (hw : v.heldBy? k = some w) (ht : c.store.isUntyped t = false) :
    (onRecords fun rs => (rs.setValue c.store.isUntyped e.id w).retype c.store.isUntyped t e).Fits
      ∅ c fun _ d => d.store = c.store := by
  rcases h with h | h
  · refine fits_onRecords_id hc fun id => ?_
    have hsame := find?_setValue_of_open?_eq_none (v := w) h
    have hclosed : (c.info.types.setValue c.store.isUntyped e.id w).open? c.store.isUntyped e.id =
        none := by rwa [open?, hsame]
    rw [retype_of_open?_eq_none e hclosed, hsame]
  have hsome := isSome_of_agrees h
  have hfits := fits_onRecords (I := ∅)
    (g := fun rs => (rs.setValue c.store.isUntyped e.id w).retype c.store.isUntyped t e) hc
    (fun id r hr => ?_) (fun id _ o ho => open?_retype_setValue ht e hsome ho)
  · exact hfits.mono fun _ _ _ _ hd => hd.1
  · rcases find?_retype_setValue ht e hsome hr with hsame | ⟨hid, rfl, r', hr', hu, hmode⟩
    · exact .inl hsame
    · have hvalue := h id hid _ (open?_eq_some_iff.mpr ⟨r', hr', hu, rfl⟩)
      refine .inr fun u hu => .inl (.inr (.inr ⟨k, hk, ?_⟩))
      rcases hmode with hmode | hmode
      · -- An expression inside keeps the value as it was.
        obtain rfl : u = v := by
          rw [← hmode, hu, hv] at hvalue
          exact Option.some.inj hvalue
        exact fits_of_heldBy? hw
      · cases hmode.symm.trans hu
        exact (fits_held hregular hw).2

lemma recordImplicit_same (untyped : TypeId → Bool) (rs : Records) :
    recordImplicit untyped x ⟨x.type, none⟩ rs = rs := by
  unfold recordImplicit
  cases x.expr with
  | none => rfl
  | some e => cases x.type <;> simp

/-- Implicit conversions keep constants fitting, unless one gets its default type unchecked. -/
lemma fits_recordImplicit (hc : c.Fitting) (hx : x.Usable e c) (hi : c.store.Implicitly x target i)
    (hplain : x.mode.isConstant → c.store.isPlainInterface target = false) :
    (onRecords (recordImplicit c.store.isUntyped x i)).Fits ∅ c fun _ d => d.store = c.store := by
  -- Where no value changes, only the new type matters.
  have hretype : ∀ {t}, x.isInvalid = false → x.type.isSome →
      (∀ id ∈ e.carriers x.mode.isConstant, ∀ m, m.constant? = x.mode.constant? →
        c.Suits id ⟨m, t⟩) →
      (onRecords (recordImplicit c.store.isUntyped x ⟨some t, none⟩)).Fits ∅ c
        fun _ d => d.store = c.store := by
    intro t hvalid htype hsuits
    have hg : recordImplicit c.store.isUntyped x ⟨some t, none⟩ =
        fun rs => if some t ≠ x.type then rs.retype c.store.isUntyped t e else rs := by
      funext rs
      simp [recordImplicit, hx.expr]
    rw [hg]
    by_cases hne : some t ≠ x.type
    · simp only [if_pos hne]
      exact fits_retype hc (hx.agrees hvalid htype) hsuits
    · simp only [if_neg hne]
      exact fits_onRecords_id hc fun _ => rfl
  cases hi with
  | same => exact fits_onRecords_id hc fun _ => by rw [recordImplicit_same]
  | untyped hvalid hold hu htarget hm =>
    refine hretype hvalid (by simp [hold]) fun id _ m _ v _ => .inl (.inr (.inl ?_))
    rcases hm with rfl | rfl
    · exact hu
    · exact htarget
  | @constant old v w k hvalid hold hu _ htarget hv hk hw =>
    have hne : some target ≠ x.type := by
      rw [hold]
      rintro ⟨⟩
      rw [hu] at htarget
      cases htarget
    have hg : recordImplicit c.store.isUntyped x ⟨some target, some w⟩ = fun rs =>
        (rs.setValue c.store.isUntyped e.id w).retype c.store.isUntyped target e := by
      funext rs
      simp only [recordImplicit, hx.expr, elim_some]
      exact if_pos hne
    rw [hg]
    have hagrees := hx.agrees hvalid (by simp [hold])
    exact fits_setValue_retype hc hagrees hv (hx.fits v hv).1 hk hw htarget
  | value hvalid hold _ _ hconst =>
    refine hretype hvalid (by simp [hold]) fun id _ m hm v hv => .inr (.inl ?_)
    obtain rfl : m = .constant v := hv
    refine isComposite_of_isInterface (hconst ?_).2
    rw [Mode.isConstant, ← hm]
    rfl
  | default hvalid hold _ hinterface =>
    refine hretype hvalid (by simp [hold]) fun id _ m hm v hv => ?_
    obtain rfl : m = .constant v := hv
    have hconst : x.mode.isConstant := by
      rw [Mode.isConstant, ← hm]
      rfl
    rw [hplain hconst] at hinterface
    cases hinterface

lemma fits_applyImplicit (hc : c.Fitting) (hx : x.Usable e c) (hi : c.store.Implicitly x target i)
    (hplain : x.mode.isConstant → c.store.isPlainInterface target = false) :
    (applyImplicit x i).Fits ∅ c fun y d => d.store = c.store ∧
      y = { x with mode := i.value.elim x.mode .constant, type := i.type } := by
  refine .entities ?_
  refine (fits_recordImplicit hc hx hi hplain).bind fun _ d _ _ hfit hstore => ?_
  exact .pure hfit ⟨hstore, rfl⟩

lemma fits_convertUntyped (hc : c.Fitting) (hx : x.Usable e c)
    (hplain : c.store.isPlainInterface t = false) :
    (convertUntyped x t).Fits ∅ c := by
  refine .entities ?_
  cases hi : c.store.implicit x t with
  | ok i =>
    have himplicitly := implicitly_of_implicit hi
    exact (fits_applyImplicit hc hx himplicitly fun _ => hplain).trivial
  | error k =>
    have hfault := (implicit_error hi).2
    exact .of_isQuiet (.bind (.report hfault) .pure) hc fun _ => ⟨⟩

/-- An assigned constant is the operand's if that was typed, and a declared type for constants holds
it. -/
def Assigned (x : Operand) (ot : Option TypeId) (y : Operand) (s s' : Store) : Prop :=
  ∀ w, y.mode = .constant w → w.isRegular = true ∧
    (∀ t, x.type = some t → s.isUntyped t = false → x.mode = .constant w) ∧
    ∀ t, ot = some t → s.isConstType t = true → s'.Holds t w

lemma assigned_of_isConstant_eq_false (h : y.mode.isConstant = false) :
    Assigned x ot y s s' := by
  intro w hw
  rw [hw] at h
  cases h

lemma Assigned.extends (h : Assigned x ot y s s') (hs : s'.Extends s'') :
    Assigned x ot y s s'' := by
  intro w hw
  obtain ⟨hregular, hsame, hholds⟩ := h w hw
  exact ⟨hregular, hsame, fun t ht hconst => (hholds t ht hconst).extends hs⟩

lemma Assigned.since (h : Assigned x ot y d.store s) (hd : c.Steps d) :
    Assigned x ot y c.store s := by
  intro w hw
  obtain ⟨hregular, hsame, hholds⟩ := h w hw
  refine ⟨hregular, fun t ht hu => hsame t ht (hd.isUntyped_eq t ▸ hu), fun t ht hconst => ?_⟩
  exact hholds t ht (hd.extends.isConstType hconst)

lemma untypedTarget_eq (h : s.isConstType t) : untypedTarget s x old (some t) = t := by
  obtain ⟨k, hk, -⟩ := exists_shape_of_isConstType h
  simp [untypedTarget, isPlainInterface_eq_false_of_shape hk]

/-- A constant is never asked to take on an interface. -/
lemma isPlainInterface_untypedTarget (hs : c.store.Arranged) (hx : x.mode.isConstant)
    (hold : c.store.isUntyped old) :
    c.store.isPlainInterface (untypedTarget c.store x old ot) = false := by
  have hdefault : c.store.isPlainInterface (c.store.defaultType old) = false := by
    obtain ⟨k, hk, hu⟩ := isUntyped_iff.mp hold
    have hshape : ∃ j, c.store.shape (c.store.defaultType old) = .basic j := by
      unfold defaultType
      rw [hk]
      dsimp only
      split
      · exact ⟨_, hs.shape_basic _⟩
      · exact ⟨k, by rw [shape_of_beneath_none (by rw [hk]; rfl), hk]⟩
    obtain ⟨j, hj⟩ := hshape
    exact isPlainInterface_eq_false_of_shape hj
  unfold untypedTarget
  split
  · split
    · rename_i t hcond
      have hnil : x.isNil c.store = false := by
        by_contra hnil
        rw [isConstant_eq_false_of_isNil (by simpa using hnil)] at hx
        cases hx
      simpa [hnil] using hcond
    · exact hdefault
  · exact hdefault

lemma isInvalid_eq_false_of_isConstType (h : s.isConstType t) : s.isInvalid t = false := by
  obtain ⟨k, hk, hconst⟩ := exists_shape_of_isConstType h
  have hne : k.family ≠ .invalid := by
    intro hk
    rw [hk] at hconst
    cases hconst
  simpa [Store.isInvalid, Store.family?, hk, Ty.basic?] using hne

/-- A type that has constants holds the constant that has taken it on. -/
lemma assigned_of_implicitly (hs : c.store.Arranged) (hx : x.Fits c.store)
    (hvalid : x.isInvalid = false) (hold : x.type = some old) (hu : c.store.isUntyped old)
    (hi : c.store.Implicitly x (untypedTarget c.store x old ot) i) :
    Assigned x ot { x with mode := i.value.elim x.mode .constant, type := i.type }
      c.store c.store := by
  intro w hw
  -- The operand is untyped.
  have hsame : ∀ t, x.type = some t → c.store.isUntyped t = false → x.mode = .constant w := by
    rintro t ht htyped
    rw [Option.some.inj (ht.symm.trans hold), hu] at htyped
    cases htyped
  cases hi with
  | same h =>
    refine ⟨(hx w hw).1, hsame, ?_⟩
    rintro t rfl hconst
    rw [untypedTarget_eq hconst] at h
    rcases h old hold with hbad | hbad | hbad
    · rw [hvalid] at hbad
      cases hbad
    · rw [hu] at hbad
      cases hbad
    · rw [isInvalid_eq_false_of_isConstType hconst] at hbad
      cases hbad
  | untyped _ _ _ htarget _ =>
    refine ⟨(hx w hw).1, hsame, ?_⟩
    rintro t rfl hconst
    rw [untypedTarget_eq hconst] at htarget
    exact .inr (.inl htarget)
  | constant _ _ _ _ _ hv hk hheld =>
    cases hw
    obtain ⟨hregular, hfits⟩ := fits_held (hx _ hv).1 hheld
    refine ⟨hregular, hsame, ?_⟩
    rintro t rfl hconst
    rw [untypedTarget_eq hconst] at hk
    exact .inr (.inr ⟨_, hk, hfits⟩)
  | value _ _ _ _ hparam =>
    refine ⟨(hx w hw).1, hsame, ?_⟩
    rintro t rfl hconst
    have hmode : x.mode = .constant w := hw
    have hinterface := (hparam (by rw [hmode]; rfl)).2
    obtain ⟨k, hk, -⟩ := exists_shape_of_isConstType hconst
    rw [untypedTarget_eq hconst, isInterface_eq_false_of_shape hk] at hinterface
    cases hinterface
  | default _ _ _ hinterface =>
    have hmode : x.mode = .constant w := hw
    rw [isPlainInterface_untypedTarget hs (by rw [hmode]; rfl) hu] at hinterface
    cases hinterface

lemma fits_assignUntyped (hc : c.Fitting) (hx : x.Usable e c) (hvalid : x.isInvalid = false)
    (hold : x.type = some old) (hu : c.store.isUntyped old) :
    (assignUntyped x old ot context).Fits ∅ c fun y d => Assigned x ot y c.store d.store := by
  have hrefuse p (hp : p.fault != .duplicateDecl) :
      (report p x.span >>= fun _ => pure x.invalidated).Fits ∅ c
        fun y d => Assigned x ot y c.store d.store :=
    .of_isQuiet (.bind (.report hp) .pure) hc
      fun _ => assigned_of_isConstant_eq_false rfl
  refine .entities ?_
  split
  · exact hrefuse _ rfl
  · dsimp only
    cases hi : c.store.implicit x (untypedTarget c.store x old ot) with
    | error k => exact hrefuse _ (by cases k <;> rfl)
    | ok i =>
      have himplicitly := implicitly_of_implicit hi
      have hassigned := assigned_of_implicitly hc.orderly.toArranged hx.fits hvalid hold hu
        himplicitly
      have hplain (hconst : x.mode.isConstant) :
          c.store.isPlainInterface (untypedTarget c.store x old ot) = false :=
        isPlainInterface_untypedTarget hc.orderly.toArranged hconst hu
      refine .quietly .logEvent hc fun d hd hsteps hq hfit => ?_
      have hstore : d.store = c.store := hd ▸ rfl
      have hxd : x.Usable e d := hx.keeps_empty hsteps (hq.keeps hsteps ∅)
      rw [← hstore] at himplicitly hplain
      refine (fits_applyImplicit hfit hxd himplicitly hplain).mono fun y f _ _ hy => ?_
      obtain ⟨hstore', rfl⟩ := hy
      rwa [hstore', hstore]

lemma fits_assignTyped (hc : c.Fitting) : (assignTyped x t context).Fits ∅ c fun y _ =>
    y = x ∧ ((c.store.assign x t).run []).1 = .ok () ∨ y = x.invalidated := by
  refine .quietly .probe hc fun d _ _ _ hfit => ?_
  have hverdict : ((probe (·.assign x t)).1 c).1 = ((c.store.assign x t).run []).1 := rfl
  rw [hverdict]
  cases hrun : ((c.store.assign x t).run []).1 with
  | ok u => exact .pure hfit (.inl ⟨rfl, rfl⟩)
  | error r =>
    have hfault := (refusesByError_assign _ _ _ _ _ hrun).2
    refine .of_isQuiet ?_ hfit fun _ => .inr rfl
    exact .bind .entities fun _ => .bind (.report hfault) .pure

/-- A check of types leaves an operand as it is, or refuses it. -/
lemma fits_assignConverted (hc : c.Fitting) (hvalid : x.isInvalid = false) :
    (assignConverted x ot context).Fits ∅ c fun y _ =>
      y = x ∧ (∀ t, ot = some t → ((c.store.assign x t).run []).1 = .ok ()) ∨
      y = x.invalidated := by
  unfold assignConverted
  rw [hvalid]
  refine .quietly .reportGeneric hc fun d hd _ _ hfit => ?_
  have hstore : d.store = c.store := hd ▸ store_reportGeneric x context c
  cases ot with
  | none => exact .pure hfit (.inl ⟨rfl, by simp⟩)
  | some t =>
    refine (fits_assignTyped hfit).mono fun y f _ _ hy => hy.imp_left fun hy => ⟨hy.1, ?_⟩
    rintro _ ⟨⟩
    exact hstore ▸ hy.2

lemma fits_assignValue (hc : c.Fitting) (hx : x.Usable e c) (hvalid : x.isInvalid = false) :
    (assignValue x ot context).Fits ∅ c fun y d => Assigned x ot y c.store d.store := by
  refine .entities ?_
  split
  · rename_i old hfilter
    obtain ⟨hold, hu⟩ := filter_eq_some_iff.mp hfilter
    refine (fits_assignUntyped hc hx hvalid hold hu).bind fun y d hd _ hfit hy => ?_
    cases hinvalid : y.isInvalid with
    | true =>
      unfold assignConverted
      rw [hinvalid]
      exact .pure hfit hy
    | false =>
      refine (fits_assignConverted hfit hinvalid).mono fun z f hf _ hz => ?_
      rcases hz with ⟨rfl, -⟩ | rfl
      · exact hy.extends hf.extends
      · exact assigned_of_isConstant_eq_false rfl
  · rename_i hfilter
    refine (fits_assignConverted hc hvalid).mono fun y d hd _ hy => ?_
    rcases hy with ⟨rfl, hassign⟩ | rfl
    · intro w hw
      obtain ⟨hregular, old, hold, hholds⟩ := hx.fits w hw
      have hu : c.store.isUntyped old = false := by
        cases hu : c.store.isUntyped old with
        | false => rfl
        | true =>
          rw [filter_eq_some_iff.mpr ⟨hold, hu⟩] at hfilter
          cases hfilter
      refine ⟨hregular, fun _ _ _ => hw, fun t ht hconst => ?_⟩
      have hfinal := hc.orderly.toArranged.holds_of_assign hold hvalid hu hholds hconst
        (hassign t ht)
      exact hfinal.extends hd.extends
    · exact assigned_of_isConstant_eq_false rfl

lemma fits_singleValue (hc : c.Fitting) :
    (singleValue x).Fits I c fun y _ => y = x ∨ y = x.invalidated := by
  refine .entities ?_
  split
  · exact .of_isQuiet (.refuse rfl) hc fun _ => .inr rfl
  · exact .pure hc (.inl rfl)

/-- What is assigned to a type that has constants is held by it. -/
lemma fits_assignment (hc : c.Fitting) (hx : x.Usable e c) :
    (assignment x ot context).Fits ∅ c fun y d => Assigned x ot y c.store d.store := by
  refine (fits_singleValue hc).bind fun y d hd hk hfit hy => ?_
  have hkept : y.Usable e d := by
    rcases hy with rfl | rfl
    · exact hx.keeps_empty hd hk
    · exact hx.invalidated.keeps_empty hd hk
  have hrefuse (hconst : y.mode.isConstant = false) : (entities >>= fun s =>
      report (.cannotAssign (y.describe s) (s.typeTextOf ot) context) y.span >>= fun _ =>
        pure y).Fits ∅ d fun z f => Assigned x ot z c.store f.store :=
    .of_isQuiet (.bind .entities fun _ => .refuse rfl)
      hfit fun _ => assigned_of_isConstant_eq_false hconst
  split
  · rename_i hmode
    exact .pure hfit (assigned_of_isConstant_eq_false (by rw [hmode]; rfl))
  · rename_i hmode
    exact hrefuse (by rw [hmode]; rfl)
  · rename_i hmode
    exact hrefuse (by rw [hmode]; rfl)
  · rename_i hvalid _ _
    have hvalid : y.isInvalid = false := by simpa [Operand.isInvalid] using hvalid
    -- An operand that is valid now has not been refused.
    obtain rfl : y = x := hy.resolve_right fun hy => by rw [hy] at hvalid; cases hvalid
    exact (fits_assignValue hfit hkept hvalid).mono fun z f _ _ hz => hz.since hd

lemma defaultType_cases (hold : s.isUntyped old) :
    (∃ k : BasicKind, k.isUntyped ∧ s.defaultType old = .basic k.default) ∨
      s.defaultType old = old := by
  obtain ⟨k, hk, hu⟩ := isUntyped_iff.mp hold
  unfold defaultType
  rw [hk]
  dsimp only
  split
  · exact .inl ⟨k, hu, rfl⟩
  · exact .inr rfl

/-- What an untyped constant needs of the type it takes on by a conversion. -/
def Converted (s : Store) (m : Mode) (u : Constant) (t : TypeId) : Prop :=
  s.Holds t u ∨ m.isConstant = false ∧ ∃ k : BasicKind, k.isUntyped = true ∧ t = .basic k.default

/-- The end of a conversion: an untyped argument takes on a type that holds it, or no constant
results. -/
lemma fits_finishConversion (hc : c.Fitting) (hx : x.Usable e c) (hvalid : x.isInvalid = false)
    (hm : ∀ w, m = .constant w → w.isRegular ∧ c.store.Holds t w)
    (hu : ∀ u old, x.mode = .constant u → x.type = some old → c.store.isUntyped old →
      Converted c.store m u (convertedType c.store b (x.withMode m) old t)) :
    (finishConversion b (x.withMode m) t).Fits ∅ c fun y d => y.Fits d.store ∧ y.mode = m := by
  unfold finishConversion
  have hexpr : (x.withMode m).expr = some e := hx.expr
  rw [hexpr]
  refine (fits_recordConversion hc).bind fun _ d hd hk hfit hrec => ?_
  obtain ⟨hstore, hconv⟩ := hrec
  refine .entities ?_
  have hrecords : (onRecords (recordConverted d.store b (x.withMode m) t)).Fits ∅ d
      fun _ f => f.store = d.store := by
    rw [← hstore] at hu
    have hxd := hx.keeps_empty hd hk
    -- only the record of an untyped argument changes
    cases htype : x.type with
    | none => exact fits_onRecords_id hfit (by simp [recordConverted, withMode, htype])
    | some old =>
      cases hold : d.store.isUntyped old with
      | false =>
        exact fits_onRecords_id hfit (by simp [recordConverted, withMode, htype, hold,
          hx.expr])
      | true =>
        have hg : recordConverted d.store b (x.withMode m) t = retype d.store.isUntyped
            (convertedType d.store b (x.withMode m) old t) e := by
          funext rs
          simp only [recordConverted, withMode, htype, hx.expr, hold, if_true]
        rw [hg]
        refine fits_retype hfit (hxd.agrees hvalid (by simp [htype])) fun id hid m' hm' v hv => ?_
        obtain rfl : m' = .constant v := hv
        have hv : x.mode = .constant v := Mode.constant?_eq_some.mp hm'.symm
        rcases hu v old hv htype hold with hholds | ⟨hplain, hdefault⟩
        · exact .inl hholds
        · rw [hv] at hid
          exact .inr (.inr ⟨_, hconv, hplain, hid, hdefault⟩)
  refine hrecords.bind fun _ f _ _ hfit' hstore' => .pure hfit' ⟨?_, rfl⟩
  intro w hw
  obtain ⟨hregular, hholds⟩ := hm w hw
  exact ⟨hregular, t, rfl, by rwa [hstore', hstore]⟩

/-- A converted constant is held by its type, and the argument too unless a number became a
string. -/
lemma holds_of_convertConstant? (hv : v.isRegular)
    (h : s.convertConstant? x v t = some w) : w.isRegular ∧ s.Holds t w ∧
      (s.Holds t v ∨ ∃ old, x.type = some old ∧ s.isInteger old ∧ s.isString t) := by
  obtain ⟨k, hk, hw⟩ := bind_eq_some_iff.mp h
  have hshape := basic?_eq_some.mp hk
  split at hw
  · rename_i w' hheld
    cases hw
    obtain ⟨hregular, hfits⟩ := fits_held hv hheld
    exact ⟨hregular, .inr (.inr ⟨k, hshape, hfits⟩),
      .inl (.inr (.inr ⟨k, hshape, fits_of_heldBy? hheld⟩))⟩
  · obtain ⟨old, hold, hw⟩ := bind_eq_some_iff.mp hw
    split at hw
    · rename_i hcond
      rw [Bool.and_eq_true] at hcond
      cases hw
      have hfamily : k.family = .string := by simpa [isString, family?, hk] using hcond.2
      refine ⟨rfl, .inr (.inr ⟨k, hshape, ?_⟩), .inr ⟨old, hold, hcond.1, hcond.2⟩⟩
      rw [hfamily]
      rfl
    · cases hw

lemma fits_refuseConversion (hc : c.Fitting) :
    (refuseConversion x t cause).Fits ∅ c fun y d => y.Fits d.store ∧ secondType? y = none := by
  refine .of_isQuiet .refuseConversion hc fun _ => ⟨?_, rfl⟩
  exact fits_of_isConstant_eq_false rfl

lemma fits_convertConstant (hc : c.Fitting) (hx : x.Usable e c)
    (hv : x.mode = .constant v) (ht : c.store.isConstType t) :
    (convertConstant x v t).Fits ∅ c fun y d => y.Fits d.store ∧ secondType? y = none := by
  refine .entities ?_
  cases hw : c.store.convertConstant? x v t with
  | none =>
    dsimp only
    split
    · refine .of_isQuiet (.refuse rfl) hc fun _ => ⟨?_, rfl⟩
      exact Operand.fits_of_isConstant_eq_false rfl
    · exact fits_refuseConversion hc
  | some w =>
    obtain ⟨hregular, hholds, harg⟩ := holds_of_convertConstant? (hx.fits v hv).1 hw
    have hfinish : (finishConversion true (x.withMode (.constant w)) t).Fits ∅ c
        fun y d => y.Fits d.store ∧ y.mode = .constant w := by
      refine fits_finishConversion hc hx (by simp [Operand.isInvalid, hv]) ?_ ?_
      · rintro _ ⟨⟩
        exact ⟨hregular, hholds⟩
      · intro u old hu hold huntyped
        cases hv.symm.trans hu
        obtain ⟨k, hk, -⟩ := exists_shape_of_isConstType ht
        have hplain := isPlainInterface_eq_false_of_shape hk
        simp only [convertedType, hplain, ht, Bool.not_true, Bool.and_false, Bool.or_self,
          Bool.false_eq_true, if_false]
        split
        · -- A number turned into a string stays untyped.
          exact .inl (.inr (.inl huntyped))
        · rename_i hstay
          refine .inl (harg.resolve_right ?_)
          rintro ⟨old', hold', hinteger, hstring⟩
          cases hold.symm.trans hold'
          exact hstay (by simp [Operand.withMode, Mode.isConstant, Mode.constant?, hinteger, hstring])
    exact hfinish.mono fun y d _ _ hy => ⟨hy.1, by simp [secondType?, hy.2]⟩

/-- An untyped argument of a conversion to a type without constants takes on its default type. -/
lemma converted_default (hm : m.isConstant = false)
    (hold : c.store.isUntyped old) (ht : c.store.isConstType t = false) :
    Converted c.store m u (convertedType c.store true (x.withMode m) old t) := by
  have hdefault : convertedType c.store true (x.withMode m) old t = c.store.defaultType old := by
    simp [convertedType, ht]
  rw [hdefault]
  rcases defaultType_cases hold with hbasic | hsame
  · exact .inr ⟨hm, hbasic⟩
  · rw [hsame]
    exact .inl (.inr (.inl hold))

lemma fits_convertToTypeParam (hc : c.Fitting) (hx : x.Usable e c)
    (hvalid : x.isInvalid = false) (ht : c.store.isConstType t = false) :
    (convertToTypeParam x v t).Fits ∅ c fun y d => y.Fits d.store ∧ secondType? y = none := by
  refine .entities ?_
  dsimp only
  split
  · exact fits_refuseConversion hc
  · split
    · exact fits_refuseConversion hc
    · have hfinish := fits_finishConversion (m := .value) (b := true) (t := t) hc hx hvalid
        (fun w hw => by cases hw) fun u old _ _ hold => converted_default rfl hold ht
      exact hfinish.mono fun y d _ _ hy => ⟨hy.1, by simp [secondType?, hy.2]⟩

lemma store_probe (ask : Store → Probe α) (c : Checker) : ((probe ask).1 c).2.store = c.store := by
  have hlog (missing : List String) (c : Checker) :
      ((missing.forM fun m => logEvent (.missingMethod m)).1 c).2.store = c.store := by
    induction missing generalizing c with
    | nil => rfl
    | cons m missing ih => exact ih _
  exact hlog _ c

lemma fits_conversion (hc : c.Fitting) (hx : x.Usable e c) (hvalid : x.isInvalid = false) :
    (conversion x t).Fits ∅ c fun y d => y.Fits d.store ∧ secondType? y = none := by
  refine .entities ?_
  split
  · rename_i v hv ht
    exact fits_convertConstant hc hx (Mode.constant?_eq_some.mp hv) ht
  · rename_i v _ ht _
    exact fits_convertToTypeParam hc hx hvalid ht
  · rename_i hconst hparam
    refine .quietly .probe hc fun d hd hsteps hq hfit => ?_
    have hxd := hx.keeps_empty hsteps (hq.keeps hsteps ∅)
    cases ((probe (·.convert x t)).1 c).1 with
    | error cause => exact fits_refuseConversion hfit
    | ok u =>
      have hstore : d.store = c.store := hd ▸ store_probe _ c
      have hfinish := fits_finishConversion (m := .value) (b := x.mode.constant?.isSome) (t := t)
        hfit hxd hvalid (fun w hw => by cases hw) ?_
      · exact hfinish.mono fun y d _ _ hy => ⟨hy.1, by simp [secondType?, hy.2]⟩
      · intro u old hu _ hold
        have hsome : x.mode.constant? = some u := by rw [hu]; rfl
        have hconst : c.store.isConstType t = false := by
          cases ht : c.store.isConstType t with
          | false => rfl
          | true => exact (hconst u hsome ht).elim
        rw [hsome]
        exact converted_default rfl hold (by rwa [hstore])

end Pass

end GoCheck
