import Mathlib.Tactic.NormNum
import OnshapeExport.Parameters

/-!
# NumberText

What a text of a number says: its sign, its digits and its unit.

* `trim_eq_iff` — a trimmed text is what is left between the white space at both ends.
* `parseDecimalRational_eq_some` — exactly the numerals are read, with white space around them.
* `parseQuantity_eq_ok` — exactly the numerals with a unit of the dimension or none are read.
-/

namespace OnshapeExport
namespace Parameters

open CacheModel Catalogs Decimals

/-! ## White space -/

def Blank (cs : List Char) : Prop := ∀ c ∈ cs, isWhiteSpace c = true

theorem Blank.append {cs ds : List Char} (hc : Blank cs) (hd : Blank ds) : Blank (cs ++ ds) := by
  intro c h
  obtain h | h := List.mem_append.mp h
  · exact hc c h
  · exact hd c h

theorem blank_nil : Blank [] := fun _ h => absurd h List.not_mem_nil

/-- Nothing at the ends is white space. -/
structure Trimmed (cs : List Char) : Prop where
  first : ∀ c ∈ cs.head?, isWhiteSpace c = false
  last : ∀ c ∈ cs.getLast?, isWhiteSpace c = false

theorem rdropWhile_append_right {p : Char → Bool} {as bs : List Char} (hb : ∀ c ∈ bs, p c = true)
    (ha : ∀ c ∈ as.getLast?, p c = false) : (as ++ bs).rdropWhile p = as := by
  rw [List.rdropWhile, List.reverse_append,
    List.dropWhile_append_of_pos (fun c hc => hb c (List.mem_reverse.mp hc))]
  cases has : as.reverse with
  | nil =>
    rw [List.reverse_eq_nil_iff] at has
    rw [has]
    rfl
  | cons c rest =>
    have hc : p c = false := by
      apply ha c
      rw [← List.head?_reverse, has]
      rfl
    rw [List.dropWhile_cons_of_neg (by simp [hc]), ← has, List.reverse_reverse]

theorem rdropWhile_of_last {p : Char → Bool} {cs : List Char}
    (h : ∀ c ∈ cs.getLast?, p c = false) : cs.rdropWhile p = cs := by
  have hself := rdropWhile_append_right (fun _ hc => absurd hc List.not_mem_nil) h
  rwa [List.append_nil] at hself

theorem rtakeWhile_append_right {p : Char → Bool} {as bs : List Char} (hb : ∀ c ∈ bs, p c = true)
    (ha : ∀ c ∈ as.getLast?, p c = false) : (as ++ bs).rtakeWhile p = bs := by
  have hsplit := @List.rdropWhile_append_rtakeWhile _ p (as ++ bs)
  rw [rdropWhile_append_right hb ha] at hsplit
  exact List.append_cancel_left hsplit

theorem trim_append {before cs after : List Char} (hb : Blank before) (ha : Blank after)
    (h : Trimmed cs) : trim (before ++ (cs ++ after)) = cs := by
  rw [trim, List.dropWhile_append_of_pos hb]
  cases cs with
  | nil =>
    have hdrop : after.dropWhile isWhiteSpace = [] := List.dropWhile_eq_nil_iff.mpr ha
    rw [List.nil_append, hdrop, List.rdropWhile_nil]
  | cons c cs =>
    have hc : isWhiteSpace c = false := h.first c rfl
    rw [List.cons_append, List.dropWhile_cons_of_neg (by simp [hc]), ← List.cons_append]
    exact rdropWhile_append_right ha h.last

theorem trimmed_trim (cs : List Char) : Trimmed (trim cs) where
  last := by
    intro c hc
    have hself : (trim cs).rdropWhile isWhiteSpace = trim cs := List.rdropWhile_idempotent _ _
    have hne : trim cs ≠ [] := by
      intro h
      rw [h] at hc
      exact absurd hc (by simp)
    have hlast := List.rdropWhile_eq_self_iff.mp hself hne
    rw [List.getLast?_eq_some_getLast hne, Option.mem_some_iff] at hc
    rw [← hc]
    simpa using hlast
  first := by
    intro c hc
    have hpre : trim cs <+: cs.dropWhile isWhiteSpace := List.rdropWhile_prefix _ _
    obtain ⟨rest, hrest⟩ := hpre
    have hhead : (cs.dropWhile isWhiteSpace).head? = some c := by
      rw [← hrest]
      rw [List.head?_append, Option.mem_def.mp hc]
      rfl
    have hnot := List.head?_dropWhile_not isWhiteSpace cs
    rw [hhead] at hnot
    simpa using hnot

theorem trim_split (cs : List Char) :
    ∃ before after, Blank before ∧ Blank after ∧ cs = before ++ (trim cs ++ after) := by
  refine ⟨cs.takeWhile isWhiteSpace, (cs.dropWhile isWhiteSpace).rtakeWhile isWhiteSpace,
    fun c hc => List.mem_takeWhile_imp hc, fun c hc => List.mem_rtakeWhile_imp hc, ?_⟩
  rw [trim, List.rdropWhile_append_rtakeWhile, List.takeWhile_append_dropWhile]

theorem trim_eq_iff {cs core : List Char} (h : Trimmed core) : trim cs = core ↔
    ∃ before after, Blank before ∧ Blank after ∧ cs = before ++ (core ++ after) := by
  constructor
  · rintro rfl
    exact trim_split cs
  · rintro ⟨before, after, hb, ha, rfl⟩
    exact trim_append hb ha h

theorem trim_trimmed {cs : List Char} (h : Trimmed cs) : trim cs = cs :=
  (trim_eq_iff h).mpr ⟨[], [], blank_nil, blank_nil, by simp⟩

/-! ## Characters of a numeral -/

theorem not_isWhiteSpace {c : Char} (hl : 33 ≤ c.toNat) (hu : c.toNat ≤ 126) :
    isWhiteSpace c = false := by
  simp only [isWhiteSpace, Bool.or_eq_false_iff, Bool.and_eq_false_iff, decide_eq_false_iff_not]
  omega

theorem digit_range {c : Char} (h : c.isDigit = true) : 48 ≤ c.toNat ∧ c.toNat ≤ 57 := by
  simp only [Char.isDigit, Bool.and_eq_true, decide_eq_true_eq] at h
  exact h

theorem alpha_range {c : Char} (h : c.isAlpha = true) : 65 ≤ c.toNat ∧ c.toNat ≤ 122 := by
  have hcase : c.isUpper = true ∨ c.isLower = true := Bool.or_eq_true_iff.mp h
  rcases hcase with hcase | hcase
  · have hrange : 65 ≤ c.toNat ∧ c.toNat ≤ 90 := of_decide_eq_true hcase
    omega
  · have hends := Bool.and_eq_true_iff.mp hcase
    have hrange : 97 ≤ c.toNat ∧ c.toNat ≤ 122 :=
      ⟨of_decide_eq_true hends.1, of_decide_eq_true hends.2⟩
    omega

theorem trimmed_of_range {cs : List Char} (h : ∀ c ∈ cs, 33 ≤ c.toNat ∧ c.toNat ≤ 126) :
    Trimmed cs where
  first c hc := not_isWhiteSpace (h c (List.mem_of_head? hc)).1 (h c (List.mem_of_head? hc)).2
  last c hc :=
    not_isWhiteSpace (h c (List.mem_of_getLast? hc)).1 (h c (List.mem_of_getLast? hc)).2

/-- The characters of a numeral come before the letters. -/
theorem numeral_range (n : Numeral) : ∀ c ∈ n.chars, 43 ≤ c.toNat ∧ c.toNat ≤ 57 := by
  intro c hc
  have hdigit (h : c ∈ n.integer ++ n.fraction.getD []) : 43 ≤ c.toNat ∧ c.toNat ≤ 57 := by
    have := digit_range (n.isDigit c h)
    omega
  obtain hs | hc := List.mem_append.mp hc
  · cases hsign : n.sign with
    | none => rw [hsign] at hs; exact absurd hs List.not_mem_nil
    | plus => rw [hsign] at hs; rw [List.mem_singleton.mp hs]; decide
    | minus => rw [hsign] at hs; rw [List.mem_singleton.mp hs]; decide
  · obtain hi | hf := List.mem_append.mp hc
    · exact hdigit (List.mem_append_left _ hi)
    · cases hfraction : n.fraction with
      | none => rw [hfraction] at hf; exact absurd hf List.not_mem_nil
      | some fraction =>
        rw [hfraction] at hf hdigit
        obtain rfl | hf := List.mem_cons.mp hf
        · decide
        · exact hdigit (List.mem_append_right _ hf)

theorem trimmed_numeral (n : Numeral) : Trimmed n.chars := by
  apply trimmed_of_range
  intro c hc
  have := numeral_range n c hc
  omega

theorem chars_ne_nil (n : Numeral) : n.chars ≠ [] := by
  intro h
  obtain ⟨-, hbody⟩ := List.append_eq_nil_iff.mp h
  obtain ⟨hi, hf⟩ := List.append_eq_nil_iff.mp hbody
  apply n.nonempty
  cases hfraction : n.fraction with
  | none => rw [hi]; rfl
  | some fraction => rw [hfraction] at hf; exact absurd hf (List.cons_ne_nil _ _)

theorem not_isAlpha_numeral (n : Numeral) : ∀ c ∈ n.chars, c.isAlpha = false := by
  intro c hc
  rw [Bool.eq_false_iff]
  intro h
  have := numeral_range n c hc
  have := alpha_range h
  omega

/-! ## Numbers without a unit -/

theorem splitSign_split (cs : List Char) : cs = (splitSign cs).1.chars ++ (splitSign cs).2 := by
  unfold splitSign
  split <;> rfl

theorem splitSign_chars (s : Sign) {unsigned : List Char}
    (h : ∀ c ∈ unsigned.head?, c ≠ '-' ∧ c ≠ '+') :
    splitSign (s.chars ++ unsigned) = (s, unsigned) := by
  cases s with
  | plus => rfl
  | minus => rfl
  | none =>
    cases unsigned with
    | nil => rfl
    | cons c cs =>
      obtain ⟨hminus, hplus⟩ := h c rfl
      rw [Sign.chars, List.nil_append]
      unfold splitSign
      split
      · rename_i he
        exact absurd (List.cons.inj he).1 hminus
      · rename_i he
        exact absurd (List.cons.inj he).1 hplus
      · rfl

theorem splitPoint_eq_some {unsigned integer fractional : List Char}
    (h : splitPoint unsigned = some (integer, fractional)) :
    ∃ fraction : Option (List Char), fraction.getD [] = fractional ∧
      unsigned = integer ++ Numeral.fractionChars fraction := by
  have hjoin : ['.'].intercalate (unsigned.splitOn '.') = unsigned := List.intercalate_splitOn '.'
  unfold splitPoint at h
  split at h
  · rename_i i hs
    obtain ⟨rfl, rfl⟩ := Prod.mk.inj (Option.some.inj h)
    rw [hs] at hjoin
    exact ⟨none, rfl, by simpa [Numeral.fractionChars] using hjoin.symm⟩
  · rename_i i f hs
    obtain ⟨rfl, rfl⟩ := Prod.mk.inj (Option.some.inj h)
    rw [hs] at hjoin
    exact ⟨some f, rfl, by simpa [Numeral.fractionChars, List.intercalate] using hjoin.symm⟩
  · simp at h

theorem splitPoint_chars (n : Numeral) :
    splitPoint (n.integer ++ Numeral.fractionChars n.fraction) =
      some (n.integer, n.fraction.getD []) := by
  have hpoint (h : '.' ∈ n.integer ++ n.fraction.getD []) : False :=
    absurd (n.isDigit '.' h) (by decide)
  have hi : '.' ∉ n.integer := fun h => hpoint (List.mem_append_left _ h)
  cases hfraction : n.fraction with
  | none =>
    rw [Numeral.fractionChars, List.append_nil, splitPoint, List.splitOn_eq_singleton hi]
    rfl
  | some fraction =>
    have hf : '.' ∉ fraction := by
      intro h
      rw [hfraction] at hpoint
      exact hpoint (List.mem_append_right _ h)
    rw [Numeral.fractionChars, splitPoint, List.splitOn_append_cons_self_of_not_mem hi,
      List.splitOn_eq_singleton hf]
    rfl

theorem unsigned_head (n : Numeral) :
    ∀ c ∈ (n.integer ++ Numeral.fractionChars n.fraction).head?, c ≠ '-' ∧ c ≠ '+' := by
  intro c hc
  have hne (hd : c.isDigit = true) : c ≠ '-' ∧ c ≠ '+' := by
    constructor
    · rintro rfl
      exact absurd hd (by decide)
    · rintro rfl
      exact absurd hd (by decide)
  obtain hi | hf := List.mem_append.mp (List.mem_of_head? hc)
  · exact hne (n.isDigit c (List.mem_append_left _ hi))
  · cases hfraction : n.fraction with
    | none => rw [hfraction] at hf; exact absurd hf List.not_mem_nil
    | some fraction =>
      rw [hfraction] at hf
      obtain rfl | hf := List.mem_cons.mp hf
      · decide
      · exact hne (n.isDigit c (List.mem_append_right _ (by rw [hfraction]; exact hf)))

/-- Exactly the numerals are read, at the place where the fraction's length as 32 bits puts the
point. -/
theorem parseDecimalRational_eq_some {cs : List Char} {q : ℚ} : parseDecimalRational cs = some q ↔
    ∃ n : Numeral, trim cs = n.chars ∧ n.valueAt (asU32 n.places) = q := by
  constructor
  · intro h
    unfold parseDecimalRational at h
    have hsign := splitSign_split (trim cs)
    generalize splitSign (trim cs) = r at h hsign
    obtain ⟨sign, unsigned⟩ := r
    simp only at h hsign
    split at h
    · cases h
    · rename_i integer fractional hpoint
      obtain ⟨fraction, rfl, hunsigned⟩ := splitPoint_eq_some hpoint
      split at h
      · cases h
      · rename_i hne
        split at h
        · cases h
        · rename_i hdigits
          simp only [Bool.not_eq_true', not_or, Bool.not_eq_false, List.all_eq_true] at hdigits
          refine ⟨⟨sign, integer, fraction, fun c hc => ?_, fun he => ?_⟩, ?_, ?_⟩
          · obtain hc | hc := List.mem_append.mp hc
            · exact hdigits.1 c hc
            · exact hdigits.2 c hc
          · exact hne (List.append_eq_nil_iff.mp he)
          · rw [hsign, hunsigned]
            rfl
          · exact Option.some.inj h
  · rintro ⟨n, hn, rfl⟩
    unfold parseDecimalRational
    rw [hn, Numeral.chars, splitSign_chars n.sign (unsigned_head n)]
    simp only [splitPoint_chars]
    have hdigits : n.integer.all Char.isDigit = true ∧
        (n.fraction.getD []).all Char.isDigit = true := by
      simp only [List.all_eq_true]
      exact ⟨fun c hc => n.isDigit c (List.mem_append_left _ hc),
        fun c hc => n.isDigit c (List.mem_append_right _ hc)⟩
    rw [if_neg fun h => n.nonempty (List.append_eq_nil_iff.mpr h), if_neg (by simp [hdigits])]
    rfl

theorem parseDecimalRational_chars (n : Numeral) :
    parseDecimalRational n.chars = some (n.valueAt (asU32 n.places)) :=
  parseDecimalRational_eq_some.mpr ⟨n, trim_trimmed (trimmed_numeral n), rfl⟩

/-! ## Decimals that end -/

theorem whole_chars {q : ℚ} (hr : q.num.natAbs % q.den = 0) :
    rationalDecimalString q =
      some ((Sign.of q).chars ++ Nat.toDigits 10 (q.num.natAbs / q.den)) := by
  have hden : q.den = 1 :=
    Nat.Coprime.eq_one_of_dvd (Nat.Coprime.symm q.reduced) (Nat.dvd_of_mod_eq_zero hr)
  have hstrip : stripTen q.den = 1 := by
    rw [hden]
    rfl
  unfold rationalDecimalString
  simp only [hstrip, ne_eq, not_true_eq_false, if_false]
  rw [if_pos hr]
  by_cases hi : q.num.natAbs / q.den = 0
  · have hnum : ¬ q.num < 0 := by
      rw [hden, Nat.div_one] at hi
      omega
    rw [if_pos hi, hi, Sign.of, if_neg hnum]
    rfl
  · rw [if_neg hi, Sign.of]
    split <;> rfl

theorem fraction_chars {q : ℚ} (ht : Terminating q.den) (hr : q.num.natAbs % q.den ≠ 0) :
    rationalDecimalString q =
      some ((Sign.of q).chars ++ (Nat.toDigits 10 (q.num.natAbs / q.den) ++
        '.' :: fractionDigits q.den q.den (q.num.natAbs % q.den))) := by
  have hd : 0 < q.den := q.den_pos
  have hlt : q.num.natAbs % q.den < q.den := Nat.mod_lt _ hd
  obtain ⟨⟨-, hvalue, hlast⟩, -⟩ :=
    fractionDigits_spec hlt ((ht.dvd_self hd).mul_right _) le_rfl
  generalize hfs : fractionDigits q.den q.den (q.num.natAbs % q.den) = fs at hvalue hlast
  have hne : fs ≠ [] := by
    rintro rfl
    rw [digits_nil, zero_mul, List.length_nil, pow_zero, mul_one] at hvalue
    exact hr hvalue.symm
  have hend : fs.getLast hne ≠ '0' := by
    rw [List.getLast?_eq_some_getLast hne] at hlast
    exact fun h => hlast (congrArg some h)
  have hself : fs.rdropWhile (· = '0') = fs := by
    rw [List.rdropWhile_eq_self_iff]
    intro _
    simpa using hend
  have hall : ¬ fs.all (· = '0') = true := by
    rw [List.all_eq_true]
    intro h
    exact hend (by simpa using h _ (List.getLast_mem hne))
  unfold rationalDecimalString
  simp only [(stripTen_eq_one hd).mpr ht, ne_eq, not_true_eq_false, if_false, hr, hfs, hself]
  rw [if_neg fun h => hall h.2.2, Sign.of]
  split <;> rfl

/-- A decimal that ends is written as a numeral of its value, with as many digits after the point
as its denominator asks for. -/
theorem rationalDecimalString_eq_some {q : ℚ} (ht : Terminating q.den) :
    ∃ n : Numeral, rationalDecimalString q = some n.chars ∧ n.value = q ∧
      ∀ m, n.places ≤ m ↔ q.den ∣ 10 ^ m := by
  have hd : 0 < q.den := q.den_pos
  have hq := Sign.of_apply q
  have hsplit : q.den * (q.num.natAbs / q.den) + q.num.natAbs % q.den = q.num.natAbs :=
    Nat.div_add_mod _ _
  have hint : ∀ c ∈ Nat.toDigits 10 (q.num.natAbs / q.den), c.isDigit = true :=
    fun c hc => Nat.isDigit_of_mem_toDigits (by decide) (by decide) hc
  by_cases hr : q.num.natAbs % q.den = 0
  · have hden : q.den = 1 :=
      Nat.Coprime.eq_one_of_dvd (Nat.Coprime.symm q.reduced) (Nat.dvd_of_mod_eq_zero hr)
    let n : Numeral := ⟨Sign.of q, Nat.toDigits 10 (q.num.natAbs / q.den), none,
      by simpa using hint, by simp⟩
    refine ⟨n, ?_, ?_, fun m => ?_⟩
    · rw [whole_chars hr]
      simp [n, Numeral.chars, Numeral.fractionChars]
    · rw [hden] at hq
      simpa [n, Numeral.value, Numeral.valueAt, Numeral.places, digits_toDigits, hden] using hq
    · rw [hden]
      simp [n, Numeral.places]
  · have hlt : q.num.natAbs % q.den < q.den := Nat.mod_lt _ hd
    have hcop : Nat.Coprime (q.num.natAbs % q.den) q.den := by
      rw [Nat.Coprime, ← Nat.gcd_rec, Nat.gcd_comm]
      exact q.reduced
    obtain ⟨⟨hdigits, hvalue, -⟩, -⟩ :=
      fractionDigits_spec hlt ((ht.dvd_self hd).mul_right _) le_rfl
    have hplaces := fun m => fractionDigits_length_le (n := m) hlt hcop ht
    have hwrite := fraction_chars ht hr
    generalize fractionDigits q.den q.den (q.num.natAbs % q.den) = fs at *
    let n : Numeral := ⟨Sign.of q, Nat.toDigits 10 (q.num.natAbs / q.den), some fs, fun c hc => by
      obtain hc | hc := List.mem_append.mp hc
      · exact hint c hc
      · exact hdigits c hc, by simp⟩
    refine ⟨n, hwrite, ?_, hplaces⟩
    have hnumber : (digits (Nat.toDigits 10 (q.num.natAbs / q.den) ++ fs) : ℚ) / 10 ^ fs.length =
        q.num.natAbs / q.den := by
      have hd' : (q.den : ℚ) ≠ 0 := by exact_mod_cast hd.ne'
      rw [div_eq_div_iff (pow_ne_zero _ (by norm_num)) hd', digits_append, digits_toDigits]
      have hnat : (q.num.natAbs / q.den * 10 ^ fs.length + digits fs) * q.den =
          q.num.natAbs * 10 ^ fs.length := by
        calc (q.num.natAbs / q.den * 10 ^ fs.length + digits fs) * q.den
            = q.num.natAbs / q.den * 10 ^ fs.length * q.den + digits fs * q.den := add_mul _ _ _
          _ = (q.den * (q.num.natAbs / q.den) + q.num.natAbs % q.den) * 10 ^ fs.length := by
            rw [hvalue]
            ring
          _ = q.num.natAbs * 10 ^ fs.length := by rw [hsplit]
      exact_mod_cast hnat
    simp only [n, Numeral.value, Numeral.valueAt, Numeral.places, Option.getD_some]
    rw [hnumber]
    exact hq

theorem rationalDecimalString_eq_none {q : ℚ} :
    rationalDecimalString q = none ↔ ¬ Terminating q.den := by
  constructor
  · intro h ht
    obtain ⟨n, hn, -, -⟩ := rationalDecimalString_eq_some ht
    rw [hn] at h
    cases h
  · intro ht
    unfold rationalDecimalString
    rw [if_pos fun h => ht ((stripTen_eq_one q.den_pos).mp h)]

/-! ## Numbers with a unit -/

namespace QuantityUnit

theorem fromAbbreviation_abbreviation (u : QuantityUnit) :
    fromAbbreviation u.abbreviation = some u := by
  cases u <;> rfl

theorem abbreviation_fromAbbreviation {s : String} {u : QuantityUnit}
    (h : fromAbbreviation s = some u) : s = u.abbreviation := by
  unfold fromAbbreviation at h
  split at h <;> cases h <;> rfl

theorem abbreviation_injective {u v : QuantityUnit} (h : u.abbreviation = v.abbreviation) :
    u = v := by
  have hu := fromAbbreviation_abbreviation u
  rw [h, fromAbbreviation_abbreviation v] at hu
  exact (Option.some.inj hu).symm

theorem isAlpha_abbreviation (u : QuantityUnit) :
    ∀ c ∈ u.abbreviation.toList, c.isAlpha = true :=
  List.all_eq_true.mp (by cases u <;> decide)

theorem abbreviation_ne_nil (u : QuantityUnit) : u.abbreviation.toList ≠ [] := by
  cases u <;> decide

end QuantityUnit

/-- A text that gives a number: the numeral and the unit it may be given in, with white space
around them. -/
structure NumberText where
  before : List Char
  number : Numeral
  between : List Char
  unit : Option QuantityUnit
  after : List Char
  blankBefore : Blank before
  blankBetween : Blank between
  blankAfter : Blank after

namespace NumberText

def unitChars : Option QuantityUnit → List Char
  | none => []
  | some u => u.abbreviation.toList

def chars (t : NumberText) : List Char :=
  t.before ++ (t.number.chars ++ (t.between ++ (unitChars t.unit ++ t.after)))

/-- The number that is read. -/
def read (t : NumberText) : ℚ := t.number.valueAt (asU32 t.number.places)

theorem trim_chars {t : NumberText} (h : t.unit = none) : trim t.chars = t.number.chars := by
  have hblank : Blank (t.between ++ (unitChars t.unit ++ t.after)) := by
    rw [h]
    exact t.blankBetween.append (blank_nil.append t.blankAfter)
  exact trim_append t.blankBefore hblank (trimmed_numeral t.number)

end NumberText

theorem parseDecimalRational_iff {cs : List Char} {q : ℚ} : parseDecimalRational cs = some q ↔
    ∃ t : NumberText, t.unit = none ∧ t.chars = cs ∧ t.read = q := by
  rw [parseDecimalRational_eq_some]
  constructor
  · rintro ⟨n, hn, hq⟩
    obtain ⟨before, after, hb, ha, hcs⟩ := trim_split cs
    rw [hn] at hcs
    exact ⟨⟨before, n, [], none, after, hb, blank_nil, ha⟩, rfl, hcs.symm, hq⟩
  · rintro ⟨t, ht, rfl, hq⟩
    exact ⟨t.number, NumberText.trim_chars ht, hq⟩

theorem last_numeral_blank (n : Numeral) {w : List Char} (hw : Blank w) :
    ∀ c ∈ (n.chars ++ w).getLast?, c.isAlpha = false := by
  intro c hc
  obtain h | h := List.mem_append.mp (List.mem_of_getLast? hc)
  · exact not_isAlpha_numeral n c h
  · rw [Bool.eq_false_iff]
    intro halpha
    have hrange := alpha_range halpha
    have := not_isWhiteSpace (c := c) (by omega) (by omega)
    rw [hw c h] at this
    cases this

/-- The letters at the end of a text with a unit are the unit. -/
theorem trailingQuantityUnit_unit (n : Numeral) {w : List Char} (hw : Blank w) (u : QuantityUnit) :
    trailingQuantityUnit (n.chars ++ (w ++ u.abbreviation.toList)) =
      some (n.chars ++ w, u.abbreviation.toList) := by
  have hlast : ∀ c ∈ (n.chars ++ w ++ u.abbreviation.toList).getLast?, isWhiteSpace c = false := by
    intro c hc
    rw [List.getLast?_append_of_ne_nil _ u.abbreviation_ne_nil] at hc
    have hrange := alpha_range (u.isAlpha_abbreviation c (List.mem_of_getLast? hc))
    exact not_isWhiteSpace (by omega) (by omega)
  have hself := rdropWhile_of_last hlast
  unfold trailingQuantityUnit
  rw [← List.append_assoc, hself]
  simp only [rtakeWhile_append_right u.isAlpha_abbreviation (last_numeral_blank n hw),
    rdropWhile_append_right u.isAlpha_abbreviation (last_numeral_blank n hw)]
  split
  · rename_i h
    exact absurd h u.abbreviation_ne_nil
  · rfl

theorem trailingQuantityUnit_none (n : Numeral) : trailingQuantityUnit n.chars = none := by
  have htake : n.chars.rtakeWhile Char.isAlpha = [] := by
    rw [List.rtakeWhile_eq_nil_iff]
    intro hne
    rw [Bool.not_eq_true]
    exact not_isAlpha_numeral n _ (List.getLast_mem hne)
  unfold trailingQuantityUnit
  simp only [rdropWhile_of_last (trimmed_numeral n).last, htake]

theorem trailingQuantityUnit_eq_some {cs start unit : List Char} (hcs : Trimmed cs)
    (h : trailingQuantityUnit cs = some (start, unit)) : cs = start ++ unit := by
  have hself := rdropWhile_of_last hcs.last
  unfold trailingQuantityUnit at h
  simp only [hself] at h
  split at h
  · cases h
  · obtain ⟨rfl, rfl⟩ := Prod.mk.inj (Option.some.inj h)
    exact (List.rdropWhile_append_rtakeWhile).symm

/-- The number and the unit that `parseQuantity` goes on with. -/
theorem parseQuantity_of_parts {cs number : List Char} {defaultUnit unit : QuantityUnit}
    (hparts : (trailingQuantityUnit (trim cs) = none ∧ number = trim cs ∧ unit = defaultUnit) ∨
      ∃ start abbreviation, trailingQuantityUnit (trim cs) = some (start, abbreviation) ∧
        start ≠ [] ∧ QuantityUnit.fromAbbreviation (String.ofList abbreviation) = some unit ∧
        number = trim start) :
    parseQuantity cs defaultUnit =
      if unit.dimension ≠ defaultUnit.dimension then .error .incompatibleUnit
      else match parseDecimalRational number with
        | none => .error .number
        | some q => .ok (q, unit) := by
  unfold parseQuantity
  obtain ⟨htrailing, rfl, rfl⟩ | ⟨start, abbreviation, htrailing, hne, hunit, rfl⟩ := hparts
  · simp only [htrailing, Except.bind, bind, ne_eq, not_true_eq_false, if_false]
    cases parseDecimalRational (trim cs) <;> rfl
  · simp only [htrailing, hne, hunit, Except.bind, bind, if_false]
    split
    · rfl
    · cases parseDecimalRational (trim start) <;> rfl

/-- A quantity that is read has these parts. -/
theorem parseQuantity_parts {cs : List Char} {defaultUnit u : QuantityUnit} {q : ℚ}
    (h : parseQuantity cs defaultUnit = .ok (q, u)) :
    (trailingQuantityUnit (trim cs) = none ∧ u = defaultUnit ∧
      parseDecimalRational (trim cs) = some q) ∨
    ∃ start abbreviation, trailingQuantityUnit (trim cs) = some (start, abbreviation) ∧
      QuantityUnit.fromAbbreviation (String.ofList abbreviation) = some u ∧
      u.dimension = defaultUnit.dimension ∧ parseDecimalRational (trim start) = some q := by
  cases htrailing : trailingQuantityUnit (trim cs) with
  | none =>
    rw [parseQuantity_of_parts (.inl ⟨htrailing, rfl, rfl⟩), if_neg (by simp)] at h
    cases hq : parseDecimalRational (trim cs) with
    | none => rw [hq] at h; cases h
    | some q' =>
      rw [hq] at h
      obtain ⟨rfl, rfl⟩ := Prod.mk.inj (Except.ok.inj h)
      exact .inl ⟨rfl, rfl, rfl⟩
  | some parts =>
    obtain ⟨start, abbreviation⟩ := parts
    right
    by_cases hne : start = []
    · unfold parseQuantity at h
      simp [htrailing, hne, bind, Except.bind] at h
    · cases hunit : QuantityUnit.fromAbbreviation (String.ofList abbreviation) with
      | none =>
        unfold parseQuantity at h
        simp [htrailing, hne, hunit, bind, Except.bind] at h
      | some unit =>
        rw [parseQuantity_of_parts (.inr ⟨start, abbreviation, htrailing, hne, hunit, rfl⟩)] at h
        split at h
        · cases h
        · rename_i hdim
          cases hq : parseDecimalRational (trim start) with
          | none => rw [hq] at h; cases h
          | some q' =>
            rw [hq] at h
            obtain ⟨rfl, rfl⟩ := Prod.mk.inj (Except.ok.inj h)
            exact ⟨start, abbreviation, rfl, hunit, not_not.mp hdim, hq⟩

/-- What is given is in a unit of the dimension, or leaves the unit out. -/
theorem parseQuantity_eq_ok {cs : List Char} {defaultUnit u : QuantityUnit} {q : ℚ} :
    parseQuantity cs defaultUnit = .ok (q, u) ↔
      ∃ t : NumberText, (∀ v ∈ t.unit, v.dimension = defaultUnit.dimension) ∧ t.chars = cs ∧
        t.unit.getD defaultUnit = u ∧ t.read = q := by
  obtain ⟨before, after, hb, ha, hcs⟩ := trim_split cs
  constructor
  · intro h
    obtain ⟨-, rfl, hq⟩ | ⟨start, abbreviation, htrailing, hunit, hdim, hq⟩ :=
      parseQuantity_parts h
    · obtain ⟨n, hn, hread⟩ := parseDecimalRational_eq_some.mp hq
      rw [trim_trimmed (trimmed_trim cs)] at hn
      refine ⟨⟨before, n, [], none, after, hb, blank_nil, ha⟩, by simp, ?_, rfl, hread⟩
      rw [hcs, hn]
      rfl
    · have hparts := trailingQuantityUnit_eq_some (trimmed_trim cs) htrailing
      obtain ⟨n, hn, hread⟩ := parseDecimalRational_eq_some.mp hq
      rw [trim_trimmed (trimmed_trim start)] at hn
      obtain ⟨first, between, hfirst, hbetween, hstart⟩ := trim_split start
      refine ⟨⟨before ++ first, n, between, some u, after, hb.append hfirst, hbetween, ha⟩,
        ?_, ?_, rfl, hread⟩
      · intro v hv
        rw [← Option.mem_some_iff.mp hv]
        exact hdim
      · have habbreviation : abbreviation = u.abbreviation.toList := by
          rw [← QuantityUnit.abbreviation_fromAbbreviation hunit, String.toList_ofList]
        rw [hcs, hparts, hstart, hn, habbreviation]
        simp [NumberText.chars, NumberText.unitChars]
  · rintro ⟨t, hdim, rfl, rfl, rfl⟩
    cases hunit : t.unit with
    | none =>
      have htrim := NumberText.trim_chars hunit
      have htrailing : trailingQuantityUnit (trim t.chars) = none := by
        rw [htrim]
        exact trailingQuantityUnit_none t.number
      rw [parseQuantity_of_parts (.inl ⟨htrailing, rfl, rfl⟩), if_neg (by simp), htrim,
        parseDecimalRational_chars]
      rfl
    | some v =>
      have htrimmed : Trimmed (t.number.chars ++ (t.between ++ v.abbreviation.toList)) := by
        constructor
        · intro c hc
          rw [List.head?_append_of_ne_nil _ (chars_ne_nil t.number)] at hc
          exact (trimmed_numeral t.number).first c hc
        · intro c hc
          rw [← List.append_assoc, List.getLast?_append_of_ne_nil _ v.abbreviation_ne_nil] at hc
          have hrange := alpha_range (v.isAlpha_abbreviation c (List.mem_of_getLast? hc))
          exact not_isWhiteSpace (by omega) (by omega)
      have htrim : trim t.chars = t.number.chars ++ (t.between ++ v.abbreviation.toList) := by
        have h := trim_append t.blankBefore t.blankAfter htrimmed
        rw [← h]
        simp [NumberText.chars, NumberText.unitChars, hunit]
      have htrailing := trailingQuantityUnit_unit t.number t.blankBetween v
      rw [← htrim] at htrailing
      have hstart : trim (t.number.chars ++ t.between) = t.number.chars := by
        have h := trim_append blank_nil t.blankBetween (trimmed_numeral t.number)
        exact h
      have hunit' : QuantityUnit.fromAbbreviation (String.ofList v.abbreviation.toList) =
          some v := by
        rw [String.ofList_toList]
        exact v.fromAbbreviation_abbreviation
      rw [parseQuantity_of_parts (.inr ⟨_, _, htrailing,
        fun h => chars_ne_nil t.number (List.append_eq_nil_iff.mp h).1, hunit', rfl⟩),
        if_neg (not_not.mpr (hdim v (by rw [hunit]; rfl))), hstart, parseDecimalRational_chars]
      rfl

end Parameters
end OnshapeExport
