import GoCheck.Proofs.Constants.Forms
import GoCheck.Proofs.Steps
import Mathlib.Algebra.Order.Ring.Nat

/-!
# Integer, imaginary and string literals

An integer literal is a numeral, with a mark of its radix unless it is decimal, but a sign is read
before the digits, too. A zero after an underscore makes the rest of an imaginary literal octal. A
string literal is a sequence of characters and escapes that stand for octets.
-/

namespace GoCheck.Literal

open List Constant

/-- The letters that name a radix after a zero. -/
def radixMarks : List (Char × Nat) :=
  [('x', 16), ('X', 16), ('o', 8), ('O', 8), ('b', 2), ('B', 2)]

/-- An integer literal with a sign before its digits, and the number that the digits stand for. -/
inductive IntForm (sign : Sign) : List Char → Nat → Prop
  | decimal : Numeral 10 ds n →
      (sign.chars ++ ds).head? ≠ some '0' ∨ sign.chars ++ ds = ['0'] → IntForm sign (sign.chars ++ ds) n
  | octal : Numeral 8 ds n → IntForm sign ('0' :: (sign.chars ++ ds)) n
  | marked : (mark, radix) ∈ radixMarks →
      Numeral radix ds n → IntForm sign ('0' :: mark :: (sign.chars ++ ds)) n

variable {sign : Sign} {cs ds : List Char} {c : Char}

lemma splitRadix_decimal (h : cs.head? ≠ some '0' ∨ cs = ['0']) : splitRadix cs = (cs, 10) := by
  unfold splitRadix
  split <;> simp_all

lemma splitRadix_marked (h : (mark, radix) ∈ radixMarks) :
    splitRadix ('0' :: mark :: cs) = (cs, radix) := by
  simp only [radixMarks, mem_cons, Prod.mk.injEq, not_mem_nil, or_false] at h
  rcases h with ⟨rfl, rfl⟩ | ⟨rfl, rfl⟩ | ⟨rfl, rfl⟩ | ⟨rfl, rfl⟩ | ⟨rfl, rfl⟩ | ⟨rfl, rfl⟩ <;> rfl

lemma splitRadix_octal (h : c ∉ radixMarks.map (·.1)) :
    splitRadix ('0' :: c :: cs) = (c :: cs, 8) := by
  simp only [radixMarks, map_cons, map_nil, mem_cons, not_mem_nil, or_false, not_or] at h
  unfold splitRadix
  split <;> simp_all

lemma radix_le_of_mem (h : (mark, radix) ∈ radixMarks) : radix ≤ 16 := by
  have hall : ∀ p ∈ radixMarks, p.2 ≤ 16 := by decide
  exact hall _ h

lemma notMem_radixMarks (sign : Sign) (h : Numeral 8 ds n)
    (hc : (sign.chars ++ ds).head? = some c) : c ∉ radixMarks.map (·.1) := by
  rcases mem_append.mp (mem_of_head? hc) with hsign | hdigit
  · cases sign with
    | none => cases hsign
    | plus | minus =>
      rw [mem_singleton.mp hsign]
      decide
  · exact notMem_of_numeral (by decide) rfl h hdigit

/-- A literal is read as its number, with its sign. -/
lemma intChars_of_form (h : IntForm sign (dropUnderscores cs) n) :
    intChars cs = .ofInt (sign.apply n) := by
  have hread {radix} (hradix : radix ≤ 16) {ds} (hds : Numeral radix ds n) :
      readInt radix (sign.chars ++ ds) = some (sign.apply n) :=
    (readInt_eq_some_iff hradix).mpr ⟨sign, ds, n, rfl, hds, rfl⟩
  unfold intChars
  generalize dropUnderscores cs = cs' at h ⊢
  cases h with
  | decimal hds hzero => rw [splitRadix_decimal hzero]; simp only [hread (by decide) hds]
  | @octal ds hds hn =>
    cases hchars : sign.chars ++ ds with
    | nil => exact absurd (append_eq_nil_iff.mp hchars).2 hn.1
    | cons c rest =>
      rw [splitRadix_octal (notMem_radixMarks sign hn (by simp [hchars])), ← hchars]
      simp only [hread (by decide) hn]
  | marked hmark hds =>
    rw [splitRadix_marked hmark]
    simp only [hread (radix_le_of_mem hmark) hds]

/-- Whatever is read as an integer is a literal, perhaps with a sign. -/
lemma exists_form (h : intChars cs ≠ .unknown) :
    ∃ (sign : Sign) (n : Nat), IntForm sign (dropUnderscores cs) n := by
  have hread {radix : Nat} {ds : List Char} (hsplit : splitRadix (dropUnderscores cs) = (ds, radix))
      (hradix : radix ≤ 16) : ∃ (sign : Sign) (ds' : List Char) (n : Nat),
        ds = sign.chars ++ ds' ∧ Numeral radix ds' n := by
    unfold intChars at h
    rw [hsplit] at h
    cases hi : readInt radix ds with
    | none => simp [hi] at h
    | some i =>
      obtain ⟨sign, ds', n, hds, hn, -⟩ := (readInt_eq_some_iff hradix).mp hi
      exact ⟨sign, ds', n, hds, hn⟩
  generalize dropUnderscores cs = cs' at hread ⊢
  by_cases hzero : cs'.head? ≠ some '0' ∨ cs' = ['0']
  · obtain ⟨sign, ds, n, rfl, hn⟩ := hread (splitRadix_decimal hzero) (by decide)
    exact ⟨sign, n, .decimal hn hzero⟩
  · rw [not_or, not_not] at hzero
    obtain ⟨rest, rfl⟩ := head?_eq_some_iff.mp hzero.1
    cases rest with
    | nil => exact absurd rfl hzero.2
    | cons c rest =>
      by_cases hmark : c ∈ radixMarks.map (·.1)
      · obtain ⟨p, hp, rfl⟩ := mem_map.mp hmark
        obtain ⟨sign, ds, n, rfl, hn⟩ := hread (splitRadix_marked hp) (radix_le_of_mem hp)
        exact ⟨sign, n, .marked hp hn⟩
      · obtain ⟨sign, ds, n, hds, hn⟩ := hread (splitRadix_octal hmark) (by decide)
        rw [hds]
        exact ⟨sign, n, .octal hn⟩

lemma intChars_cases (cs : List Char) : intChars cs = .unknown ∨ ∃ i, intChars cs = .ofInt i := by
  unfold intChars
  split
  split
  · exact .inr ⟨_, rfl⟩
  · exact .inl rfl

lemma ofInt_ne_unknown (i : Int) : ofInt i ≠ .unknown := by
  unfold ofInt
  split <;> simp

variable (s : String)

/-- An integer literal is read as its number: one of 64 bits if it is in their range, and else one of
any size. -/
theorem int_of_form (n : Nat) (h : IntForm .none (dropUnderscores s.toList) n) :
    if n < 2 ^ 63 then ∃ i : Int64, i.toInt = n ∧ int s = .small i else int s = .big n := by
  have hint : int s = .ofInt (Sign.none.apply n) := intChars_of_form h
  have hrange : fitsInt64 n = decide (n < 2 ^ 63) := by
    have h63 : Number.twoPow 63 = 2 ^ 63 := rfl
    rw [fitsInt64, Number.fitsSigned, decide_eq_decide, h63]
    omega
  have happly : Sign.none.apply n = n := rfl
  rw [hint, happly, ofInt, hrange]
  split
  · rename_i hn
    refine ⟨Int64.ofInt n, ?_, if_pos (decide_eq_true hn)⟩
    exact Int64.toInt_ofInt_of_le (by omega) (by omega)
  · rename_i hn
    exact if_neg fun h => hn (of_decide_eq_true h)

/-- The literal `0x_fF`. -/
theorem int_of_form_hex : IntForm .none (dropUnderscores "0x_fF".toList) 255 ∧ int "0x_fF" = .small 255 := by
  have hform : IntForm .none (dropUnderscores "0x_fF".toList) 255 :=
    @IntForm.marked .none 'x' 16 ['f', 'F'] 255 (by decide)
      ⟨by decide, [15, 15], by decide, by decide⟩
  obtain ⟨i, hi, hint⟩ := (if_pos (by decide)).mp (int_of_form "0x_fF" 255 hform)
  obtain rfl : i = 255 := Int64.toInt.inj (hi.trans (by decide))
  exact ⟨hform, hint⟩

open Pass in
/-- Of what is no literal, only digits with a sign are read. What is not read is reported. -/
theorem int_of_no_form (h : ∀ n, ¬IntForm .none (dropUnderscores s.toList) n) :
    (int s = .unknown ∨ ∃ (sign : Sign) (n : Nat), sign ≠ .none ∧
      IntForm sign (dropUnderscores s.toList) n ∧ int s = .ofInt (sign.apply n)) ∧
    ∀ (span : Span) (c : Checker), (literal .int (some s) span).emitted c =
      if int s = .unknown then [(Problem.malformedConstant s).report span] else [] := by
  refine ⟨or_iff_not_imp_left.mpr fun hknown => ?_, fun span c => ?_⟩
  · obtain ⟨sign, n, hform⟩ := exists_form hknown
    refine ⟨sign, n, ?_, hform, intChars_of_form hform⟩
    rintro rfl
    exact h n hform
  · have hunknown : (int s).isUnknown = decide (int s = .unknown) := by
      cases int s <;> simp [isUnknown, kind]
    unfold literal
    rw [emitted_bind, emitted_eq_nil rfl, nil_append]
    simp only [Option.getD_some, literalValue, hunknown, decide_eq_true_eq]
    split
    · rw [emitted_bind, report, emitted_emit, emitted_eq_nil rfl, append_nil]
    · exact emitted_eq_nil rfl

/-- The text `08`, which is no octal literal. -/
theorem int_of_no_form_octal : (∀ n, ¬IntForm .none (dropUnderscores "08".toList) n) ∧
    int "08" = .unknown ∧ ∀ (span : Span) (c : Checker),
      (Pass.literal .int (some "08") span).emitted c =
        [(Problem.malformedConstant "08").report span] := by
  have hunknown : int "08" = .unknown := by decide
  have hform : ∀ n, ¬IntForm .none (dropUnderscores "08".toList) n := fun n hn =>
    ofInt_ne_unknown _ ((intChars_of_form hn).symm.trans hunknown)
  refine ⟨hform, hunknown, fun span c => ?_⟩
  rw [(int_of_no_form "08" hform).2, if_pos hunknown]

/-- There is no sign in a literal. -/
lemma IntForm.notMem (h : IntForm .none cs n) (hc : c ∈ cs) : c ∉ ['+', '-'] := by
  cases h with
  | decimal hn => exact notMem_signs (by decide) hn hc
  | octal hn =>
    rcases mem_cons.mp hc with rfl | hc
    · decide
    · exact notMem_signs (by decide) hn hc
  | marked hmark hn =>
    have hmarks : ∀ p ∈ radixMarks, p.1 ∉ ['+', '-'] := by decide
    rcases mem_cons.mp hc with rfl | hc
    · decide
    rcases mem_cons.mp hc with rfl | hc
    · exact hmarks _ hmark
    · exact notMem_signs (radix_le_of_mem hmark) hn hc

/-- A sign after the mark of an octal number is read. -/
theorem int_octal_sign : (∀ n, ¬Numeral 10 (dropUnderscores "0-7".toList) n) ∧
    (∀ n, ¬IntForm .none (dropUnderscores "0-7".toList) n) ∧ int "0-7" = .small (-7) := by
  have hchars : dropUnderscores "0-7".toList = ['0', '-', '7'] := by decide
  rw [hchars]
  refine ⟨fun n hn => ?_, fun n hn => ?_, by decide⟩
  · exact notMem_signs (by decide) hn (c := '-') (by simp) (by simp)
  · exact hn.notMem (c := '-') (by simp) (by simp)

/-- The digits that are read as an integer: those after the zeros at the start. -/
def significant (cs : List Char) : List Char := dropUnderscores (cs.dropWhile (· = '0'))

lemma readDigitsFrom_significant (cs : List Char) :
    readDigitsFrom 10 0 (dropUnderscores cs) = readDigitsFrom 10 0 (significant cs) := by
  induction cs with
  | nil => rfl
  | cons c cs ih =>
    by_cases hc : c = '0'
    · subst hc
      exact ih
    · rw [significant, dropWhile_cons_of_neg (by simpa using hc)]

/-- An imaginary literal of digits alone. -/
lemma imaginary_of_digits (h : Numeral 10 (dropUnderscores s.toList) n) :
    imaginary (s ++ "i") = .complex (.small 0) (
      if intChars (s.toList.dropWhile (· = '0')) = .unknown then .small 0
      else intChars (s.toList.dropWhile (· = '0'))) := by
  have hdigits : (s.toList.all fun c => (digit? 10 c).isSome || c = '_') := by
    rw [all_eq_true]
    intro c hc
    by_cases hunder : c = '_'
    · simp [hunder]
    · have hmem : c ∈ dropUnderscores s.toList := mem_filter.mpr ⟨hc, by simpa using hunder⟩
      obtain ⟨-, ds, hds, -⟩ := h
      obtain ⟨d, -, hd⟩ := mem_map.mp (hds ▸ mem_map_of_mem hmem)
      simp [(digit?_eq_some_iff (by decide)).mpr ⟨d.isLt, hd.symm⟩]
  have hpart : imaginary? (s ++ "i") = (imaginaryPart? s.toList).map .ofImaginary := by
    simp [imaginary?]
  rw [imaginary, hpart, imaginaryPart?, if_pos hdigits]
  have hint := intChars_cases (s.toList.dropWhile (· = '0'))
  generalize intChars (s.toList.dropWhile (· = '0')) = v at hint ⊢
  rcases hint with rfl | ⟨i, rfl⟩
  · rfl
  · rw [if_neg (ofInt_ne_unknown i), ofInt]
    cases fitsInt64 i <;> rfl

/-- Digits are no literal with a zero at its start unless what follows is octal. -/
lemma numeral_eight_of_form (hne : rest ≠ [])
    (h : Numeral 10 ('0' :: rest) n) (hform : IntForm sign ('0' :: rest) m) :
    ∃ m, Numeral 8 rest m := by
  have hdigit {c} (hc : c ∈ rest) : c ∉ '+' :: '-' :: radixMarks.map (·.1) :=
    notMem_of_numeral (by decide) rfl h (mem_cons_of_mem _ hc)
  generalize hcs : '0' :: rest = cs at hform
  cases hform with
  | decimal hn hzero => simp [← hcs, hne] at hzero
  | @octal ds m hn =>
    obtain rfl : rest = sign.chars ++ ds := (cons.inj hcs).2
    cases sign with
    | none => exact ⟨m, hn⟩
    | plus => exact absurd (by simp) (hdigit (c := '+') (by simp [Sign.chars]))
    | minus => exact absurd (by simp) (hdigit (c := '-') (by simp [Sign.chars]))
  | @marked mark radix ds m hmark hn =>
    obtain rfl : rest = mark :: (sign.chars ++ ds) := (cons.inj hcs).2
    have hmem := mem_map_of_mem (f := (·.1)) hmark
    exact absurd (mem_cons_of_mem _ (mem_cons_of_mem _ hmem)) (hdigit mem_cons_self)

/-- Digits before the mark of an imaginary literal are read as a decimal number, unless a zero that
is not at the start has digits after it. These are octal then, or zero if they cannot be. -/
theorem imaginary_of_numeral (n : Nat) (h : Numeral 10 (dropUnderscores s.toList) n) :
    ((significant s.toList).head? ≠ some '0' ∨ significant s.toList = ['0'] →
      imaginary (s ++ "i") = .complex (.small 0) (.ofInt n)) ∧
    ∀ rest, significant s.toList = '0' :: rest → rest ≠ [] →
      (∀ m, Numeral 8 rest m → imaginary (s ++ "i") = .complex (.small 0) (.ofInt m)) ∧
      ((∀ m, ¬Numeral 8 rest m) → imaginary (s ++ "i") = .complex (.small 0) (.small 0)) := by
  have hread : readDigitsFrom 10 0 (significant s.toList) = some n := by
    rw [← readDigitsFrom_significant, readDigitsFrom_eq_some_iff (by decide)]
    exact h.2
  have hnumeral (hne : significant s.toList ≠ []) : Numeral 10 (significant s.toList) n :=
    ⟨hne, (readDigitsFrom_eq_some_iff (by decide)).mp hread⟩
  have hknown {m : Nat} (hform : IntForm .none (significant s.toList) m) :
      imaginary (s ++ "i") = .complex (.small 0) (.ofInt m) := by
    rw [imaginary_of_digits s h, intChars_of_form hform, if_neg (ofInt_ne_unknown _)]
    rfl
  refine ⟨fun hzero => ?_, fun rest hrest hne => ⟨fun m hm => ?_, fun hm => ?_⟩⟩
  · by_cases hne : significant s.toList = []
    · obtain rfl : 0 = n := by simpa [hne, readDigitsFrom] using hread
      have hempty : intChars (s.toList.dropWhile (· = '0')) = .unknown := by
        rw [intChars, show dropUnderscores _ = [] from hne]
        rfl
      rw [imaginary_of_digits s h, if_pos hempty]
      rfl
    · have hform : IntForm .none (Sign.none.chars ++ significant s.toList) n :=
        .decimal (hnumeral hne) hzero
      exact hknown hform
  · have hform : IntForm .none ('0' :: (Sign.none.chars ++ rest)) m := .octal hm
    exact hknown (hrest ▸ hform)
  · rw [imaginary_of_digits s h, if_pos]
    by_contra hknown
    obtain ⟨sign, m, hform⟩ := exists_form hknown
    change IntForm sign (significant s.toList) m at hform
    rw [hrest] at hform
    obtain ⟨m, hm'⟩ := numeral_eight_of_form hne (hrest ▸ hnumeral (by simp [hrest])) hform
    exact hm m hm'

/-- The literal `00_10i`. -/
theorem imaginary_of_numeral_ten :
    Numeral 10 (dropUnderscores "00_10".toList) 10 ∧
      imaginary "00_10i" = .complex (.small 0) (.small 10) := by
  have hnumeral : Numeral 10 (dropUnderscores "00_10".toList) 10 :=
    ⟨by decide, [0, 0, 1, 0], by decide, by decide⟩
  exact ⟨hnumeral, (imaginary_of_numeral "00_10" 10 hnumeral).1 (by decide)⟩

/-- In `0_08i` the digits stand for eight, but are read as zero; those of `0_010i` are read as
eight. -/
theorem imaginary_zero_after_underscore :
    Numeral 10 (dropUnderscores "0_08".toList) 8 ∧
      imaginary "0_08i" = .complex (.small 0) (.small 0) ∧
      imaginary "0_010i" = .complex (.small 0) (.small 8) :=
  ⟨⟨by decide, [0, 0, 8], by decide, by decide⟩, by decide, by decide⟩

end GoCheck.Literal

/-! ## String literals -/

namespace GoCheck.Literal

open Text List Option

/-- The letters of the short escapes in a string literal and the characters they stand for. -/
def shortEscapes : List (Char × Char) :=
  [('a', Char.ofNat 7), ('b', Char.ofNat 8), ('f', Char.ofNat 12), ('n', '\n'), ('r', '\r'),
    ('t', '\t'), ('v', Char.ofNat 11), ('\\', '\\'), ('"', '"')]

/-- An item between the quotes of a string literal and the octets that it stands for. -/
inductive Item : List Char → List UInt8 → Prop
  | plain : c ≠ '\\' → Item [c] (encodeChar c)
  | short : (letter, c) ∈ shortEscapes → Item ['\\', letter] (encodeChar c)
  | hex : Numeral 16 ds n → ds.length = 2 →
      Item ('\\' :: 'x' :: ds) [n.toUInt8]
  | octal : Numeral 8 ds n → ds.length = 3 → n ≤ 255 →
      Item ('\\' :: ds) [n.toUInt8]
  | scalar :
      (letter, width) ∈ [('u', 4), ('U', 8)] → Numeral 16 ds c.toNat → ds.length = width →
        Item ('\\' :: letter :: ds) (encodeChar c)

/-- A sequence of items. -/
inductive Items : List Char → List UInt8 → Prop
  | nil : Items [] []
  | cons {bs bs' : List UInt8} :
      Item cs bs → Items cs' bs' → Items (cs ++ cs') (bs ++ bs')

def Escaped.octets : Escaped → List UInt8
  | char c => encodeChar c
  | octet b => [b]

variable {cs ds rest : List Char} {bs : List UInt8} {c : Char} {count : Nat}

lemma takeDigits_append (hradix : radix ≤ 16) (h : Numeral radix ds n)
    (hlength : ds.length = count) : takeDigits radix count (ds ++ rest) = some (n, rest) := by
  subst hlength
  rw [takeDigits, if_pos (by simp), take_left, drop_left, (readNat_eq_some_iff hradix).mpr h]
  rfl

lemma numeral_of_takeDigits (hradix : radix ≤ 16) (h : takeDigits radix count cs = some (n, rest)) :
    ∃ ds, cs = ds ++ rest ∧ Numeral radix ds n ∧ ds.length = count := by
  unfold takeDigits at h
  split at h
  · rename_i hle
    obtain ⟨m, hm, heq⟩ := map_eq_some_iff.mp h
    cases heq
    exact ⟨cs.take count, (take_append_drop ..).symm, (readNat_eq_some_iff hradix).mp hm,
      length_take_of_le hle⟩
  · cases h

lemma charOfCode?_eq_some_iff : charOfCode? n = some c ↔ c.toNat = n := by
  constructor
  · intro h
    by_cases hn : n.isValidChar
    · rw [charOfCode?, dif_pos hn] at h
      cases h
      rfl
    · rw [charOfCode?, dif_neg hn] at h
      cases h
  · rintro rfl
    exact dif_pos c.valid

lemma escape?_octal (h : c ∉ ['a', 'b', 'f', 'n', 'r', 't', 'v', '\\', '"', 'x', 'u', 'U']) :
    escape? '"' (c :: cs) = (takeDigits 8 3 (c :: cs)).bind fun p =>
      if p.1 ≤ 255 then some (.octet p.1.toUInt8, p.2) else none := by
  simp only [mem_cons, not_mem_nil, or_false, not_or] at h
  have hshort : shortEscape? c = none := by
    unfold shortEscape?
    split <;> simp_all
  simp only [escape?, hshort, h, if_false]

/-- An escape is read as what it stands for, whatever follows it. -/
lemma escape?_of_item (h : Item ('\\' :: cs) bs) :
    ∃ e, e.octets = bs ∧ ∀ rest, escape? '"' (cs ++ rest) = some (e, rest) := by
  cases h with
  | plain hc => exact absurd rfl hc
  | short hmem =>
    simp only [shortEscapes, mem_cons, Prod.mk.injEq, not_mem_nil, or_false] at hmem
    rcases hmem with ⟨rfl, rfl⟩ | ⟨rfl, rfl⟩ | ⟨rfl, rfl⟩ | ⟨rfl, rfl⟩ | ⟨rfl, rfl⟩ | ⟨rfl, rfl⟩ |
      ⟨rfl, rfl⟩ | ⟨rfl, rfl⟩ | ⟨rfl, rfl⟩ <;> exact ⟨.char _, rfl, fun _ => rfl⟩
  | @hex ds n hn hlength =>
    refine ⟨.octet n.toUInt8, rfl, fun rest => ?_⟩
    have htake : takeDigits 16 2 (ds ++ rest) = some (n, rest) :=
      takeDigits_append (by decide) hn hlength
    show Option.map _ (takeDigits 16 2 (ds ++ rest)) = _
    rw [htake]
    rfl
  | @octal _ n hn hlength hle =>
    refine ⟨.octet n.toUInt8, rfl, fun rest => ?_⟩
    have htake : takeDigits 8 3 (cs ++ rest) = some (n, rest) :=
      takeDigits_append (by decide) hn hlength
    cases cs with
    | nil => cases hlength
    | cons c cs =>
      rw [cons_append, escape?_octal (notMem_of_numeral (by decide) rfl hn mem_cons_self),
        ← cons_append, htake]
      exact if_pos hle
  | @scalar letter width ds c hmem hn hlength =>
    refine ⟨.char c, rfl, fun rest => ?_⟩
    have htake : takeDigits 16 width (ds ++ rest) = some (c.toNat, rest) :=
      takeDigits_append (by decide) hn hlength
    have hread : escape? '"' (letter :: (ds ++ rest)) =
        (takeDigits 16 width (ds ++ rest)).bind fun p => (charOfCode? p.1).map (.char ·, p.2) := by
      simp only [mem_cons, Prod.mk.injEq, not_mem_nil, or_false] at hmem
      rcases hmem with ⟨rfl, rfl⟩ | ⟨rfl, rfl⟩ <;> rfl
    rw [cons_append, hread, htake, bind_some, charOfCode?_eq_some_iff.mpr rfl]
    rfl

lemma mem_shortEscapes (h : shortEscape? c = some e) : (c, e) ∈ shortEscapes := by
  unfold shortEscape? at h
  split at h <;> cases h <;> decide

/-- Whatever is read as an escape is one. -/
lemma item_of_escape? (h : escape? '"' cs = some (e, rest)) :
    ∃ pre, cs = pre ++ rest ∧ Item ('\\' :: pre) e.octets := by
  cases cs with
  | nil => cases h
  | cons c cs =>
    cases hshort : shortEscape? c with
    | some e' =>
      simp only [escape?, hshort] at h
      cases h
      exact ⟨[c], rfl, .short (mem_shortEscapes hshort)⟩
    | none =>
      simp only [escape?, hshort] at h
      split at h
      · rename_i hquote
        cases h
        exact ⟨[c], rfl, .short (hquote ▸ by decide)⟩
      split at h
      · rename_i hx
        obtain ⟨⟨n, tail⟩, htake, heq⟩ := map_eq_some_iff.mp h
        cases heq
        obtain ⟨ds, rfl, hn, hlength⟩ := numeral_of_takeDigits (by decide) htake
        exact ⟨c :: ds, rfl, hx ▸ .hex hn hlength⟩
      -- code points of either width are read alike
      have hscalar {width} (hmem : (c, width) ∈ [('u', 4), ('U', 8)])
          (h : ((takeDigits 16 width cs).bind fun p => (charOfCode? p.1).map (.char ·, p.2)) =
            some (e, rest)) : ∃ pre, c :: cs = pre ++ rest ∧ Item ('\\' :: pre) e.octets := by
        obtain ⟨⟨n, tail⟩, htake, hcode⟩ := bind_eq_some_iff.mp h
        obtain ⟨ds, rfl, hn, hlength⟩ := numeral_of_takeDigits (by decide) htake
        obtain ⟨d, hd, heq⟩ := map_eq_some_iff.mp hcode
        cases heq
        exact ⟨c :: ds, rfl, .scalar hmem (charOfCode?_eq_some_iff.mp hd ▸ hn) hlength⟩
      split at h
      · rename_i hu
        exact hscalar (by simp [hu]) h
      split at h
      · rename_i hU
        exact hscalar (by simp [hU]) h
      · obtain ⟨⟨n, tail⟩, htake, hle⟩ := bind_eq_some_iff.mp h
        obtain ⟨ds, hds, hn, hlength⟩ := numeral_of_takeDigits (by decide) htake
        dsimp only at hle
        split at hle
        · rename_i hbound
          cases hle
          exact ⟨ds, hds, .octal hn hlength hbound⟩
        · cases hle

lemma Item.ne_nil (h : Item cs bs) : cs ≠ [] := by
  cases h <;> exact cons_ne_nil _ _

lemma Item.not_isPrefix (h : Item cs bs) (hrest : escape? '"' rest = none) :
    ¬cs <+: '\\' :: rest := by
  rintro ⟨tail, heq⟩
  cases cs with
  | nil => exact h.ne_nil rfl
  | cons c cs =>
    cases heq
    obtain ⟨e, -, he⟩ := escape?_of_item h
    cases hrest.symm.trans (he tail)

/-- What is read from the characters, whatever bound there is for the number of items. -/
def Reads (cs : List Char) (o : Option (List UInt8)) : Prop :=
  ∀ fuel, cs.length ≤ fuel → octetsWithin fuel cs = o

lemma octetsWithin_escape : octetsWithin (fuel + 1) ('\\' :: cs) =
    (escape? '"' cs).bind fun p => (octetsWithin fuel p.2).map (p.1.octets ++ ·) := by
  rw [octetsWithin]
  cases escape? '"' cs with
  | none => rfl
  | some p =>
    obtain ⟨e, rest⟩ := p
    cases e <;> rfl

lemma Item.octetsWithin_append (h : Item cs bs) :
    octetsWithin (fuel + 1) (cs ++ rest) = (octetsWithin fuel rest).map (bs ++ ·) := by
  have hescape {cs} (h : Item ('\\' :: cs) bs) :
      octetsWithin (fuel + 1) ('\\' :: cs ++ rest) = (octetsWithin fuel rest).map (bs ++ ·) := by
    obtain ⟨e, rfl, he⟩ := escape?_of_item h
    rw [cons_append, octetsWithin_escape, he]
    rfl
  cases h with
  | plain hc =>
    rw [singleton_append, octetsWithin]
    exact hc
  | short hmem => exact hescape (.short hmem)
  | hex hn hlength => exact hescape (.hex hn hlength)
  | octal hn hlength hle => exact hescape (.octal hn hlength hle)
  | scalar hmem hn hlength => exact hescape (.scalar hmem hn hlength)

variable {o : Option (List UInt8)}

lemma Item.reads (h : Item cs bs) (hrest : Reads rest o) :
    Reads (cs ++ rest) (o.map (bs ++ ·)) := by
  intro fuel hfuel
  have hpos := length_pos_iff.mpr h.ne_nil
  rw [length_append] at hfuel
  obtain ⟨fuel, rfl⟩ := Nat.exists_eq_succ_of_ne_zero (n := fuel) (by omega)
  rw [h.octetsWithin_append, hrest fuel (by omega)]

lemma Items.reads (h : Items cs bs) (hrest : Reads rest o) :
    Reads (cs ++ rest) (o.map (bs ++ ·)) := by
  induction h with
  | nil => cases o <;> exact hrest
  | cons hitem _ ih =>
    have hreads := hitem.reads ih
    rw [← append_assoc, Option.map_map] at hreads
    simpa only [Function.comp_def, append_assoc] using hreads

lemma reads_none (h : ∀ item octets, Item item octets → ¬item <+: '\\' :: rest) :
    Reads ('\\' :: rest) none := by
  intro fuel hfuel
  obtain ⟨fuel, rfl⟩ := Nat.exists_eq_succ_of_ne_zero (n := fuel) (by rintro rfl; cases hfuel)
  rw [octetsWithin_escape]
  cases hescape : escape? '"' rest with
  | none => rfl
  | some p =>
    obtain ⟨e, tail⟩ := p
    obtain ⟨pre, rfl, hitem⟩ := item_of_escape? hescape
    exact absurd ⟨tail, rfl⟩ (h _ _ hitem)

lemma string_quoted (body : List Char) : string (String.ofList ('"' :: (body ++ ['"']))) =
    (octets? body).elim .unknown fun bs => .string (decodeLossy bs) := by
  have hquoted : unquote? '"' ('"' :: (body ++ ['"'])) = some body := by simp [unquote?]
  have hraw : unquote? (Char.ofNat 0x60) ('"' :: (body ++ ['"'])) = none := rfl
  rw [string, String.toList_ofList, hraw, hquoted]
  cases hoctets : octets? body <;> simp [hoctets]

/-- Items between quotes are read as the text of their octets. If a backslash after them starts no
escape, the literal is not known. -/
theorem string_of_items (h : Items cs bs) :
    string (String.ofList ('"' :: (cs ++ ['"']))) = .string (decodeLossy bs) ∧
    ∀ rest, (∀ item octets, Item item octets → ¬item <+: '\\' :: rest) →
      string (String.ofList ('"' :: (cs ++ '\\' :: rest ++ ['"']))) = .unknown := by
  have hnil : Reads [] (some []) := fun fuel _ => by cases fuel <;> rfl
  have hread : octets? cs = some bs := by
    have hreads := h.reads hnil cs.length (by simp)
    rwa [append_nil, Option.map_some, append_nil] at hreads
  refine ⟨by rw [string_quoted, hread]; rfl, fun rest hrest => ?_⟩
  have hunread : octets? (cs ++ '\\' :: rest) = none := h.reads (reads_none hrest) _ le_rfl
  rw [string_quoted, hunread]
  rfl

/-- Two octets that make up one character, and then an octal number that is no octet. -/
theorem string_of_items_accent :
    Items ['\\', 'x', 'c', '3', '\\', '2', '5', '1'] [0xc3, 0xa9] ∧
      string "\"\\xc3\\251\"" = .string (String.ofList [Char.ofNat 0xe9]) ∧
      string "\"\\xc3\\251\\400\"" = .unknown := by
  have hhex : Item ['\\', 'x', 'c', '3'] [0xc3] :=
    @Item.hex ['c', '3'] 0xc3 ⟨by decide, [12, 3], by decide, by decide⟩ rfl
  have hoctal : Item ['\\', '2', '5', '1'] [0xa9] :=
    @Item.octal ['2', '5', '1'] 0xa9 ⟨by decide, [2, 5, 1], by decide, by decide⟩ rfl (by decide)
  have hitems : Items ['\\', 'x', 'c', '3', '\\', '2', '5', '1'] [0xc3, 0xa9] :=
    .cons hhex (.cons hoctal .nil)
  refine ⟨hitems, (string_of_items hitems).1.trans (by decide), ?_⟩
  exact (string_of_items hitems).2 ['4', '0', '0'] fun _ _ hitem => hitem.not_isPrefix rfl

end GoCheck.Literal
