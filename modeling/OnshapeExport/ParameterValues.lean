import OnshapeExport.ConfigurationEncoding
import OnshapeExport.NumberText

/-!
# ParameterValues

What the check of submitted values makes of each of them.

* `Amount` — what the text of a number says, in metres or in the unit of an angle.
* `readValue_number` — a number is read from exactly the texts that fit the parameter.
* `readValue_ne_none` — no decimal that is expected to end fails to.
* `validateValues_eq_ok` — when the values are accepted, and what is stored under every name.
-/

namespace OnshapeExport
namespace Parameters

open CacheModel Catalogs Decimals Encoding Json

theorem toString_int_injective {a b : Int} (h : toString a = toString b) : a = b := by
  have hread := parseBigInt_toString a
  rw [h, parseBigInt_toString] at hread
  exact (Option.some.inj hread).symm

/-! ## Amounts -/

/-- A rational in metres, in the unit of an angle, or without a unit. -/
structure Amount where
  value : ℚ
  unit : Option QuantityUnit

namespace Amount

def typed (a : Amount) : CanonicalParameterValue :=
  let (numerator, denominator) := rationalParts a.value
  match a.unit with
  | none => .number numerator denominator
  | some u => .quantity u.dimension numerator denominator u.abbreviation

def decimal (a : Amount) : List Char := (rationalDecimalString a.value).getD []

def text (a : Amount) : String :=
  match a.unit with
  | none => String.ofList a.decimal
  | some u => String.ofList a.decimal ++ " " ++ u.abbreviation

theorem typed_injective {a a' : Amount} (h : a.typed = a'.typed) : a = a' := by
  obtain ⟨q, unit⟩ := a
  obtain ⟨q', unit'⟩ := a'
  have hvalue (hn : toString q.num = toString q'.num) (hd : toString q.den = toString q'.den) :
      q = q' := Rat.ext (toString_int_injective hn)
        (Int.ofNat.inj (toString_int_injective (a := q.den) (b := q'.den) hd))
  cases unit with
  | none =>
    cases unit' with
    | none =>
      injection h with hn hd
      rw [hvalue hn hd]
    | some u' => cases h
  | some u =>
    cases unit' with
    | none => cases h
    | some u' =>
      injection h with _ hn hd hu
      rw [hvalue hn hd, QuantityUnit.abbreviation_injective hu]

end Amount

namespace QuantityUnit

/-- What a number in the unit is multiplied with. -/
def scale (u : QuantityUnit) : ℚ := u.lengthMetersFactor.getD 1

/-- The unit that the value is kept in. -/
def canonical (u : QuantityUnit) : QuantityUnit :=
  match u.dimension with
  | .length => .meter
  | .angle => u

@[simp] theorem canonical_dimension (u : QuantityUnit) : u.canonical.dimension = u.dimension := by
  cases u <;> rfl

@[simp] theorem canonical_canonical (u : QuantityUnit) : u.canonical.canonical = u.canonical := by
  cases u <;> rfl

@[simp] theorem scale_canonical (u : QuantityUnit) : u.canonical.scale = 1 := by
  cases u <;> rfl

theorem terminating_scale (u : QuantityUnit) : Terminating u.scale.den := by
  have hscale (n : Nat) (a : ℤ) (b : Nat) (hb : b ∣ 10 ^ n) (h : u.scale = (a : ℚ) / b) :
      Terminating u.scale.den := by
    rw [h]
    exact Terminating.div ⟨n, hb⟩ a
  cases u with
  | millimeter => exact hscale 3 1 1000 (by decide) rfl
  | centimeter => exact hscale 2 1 100 (by decide) rfl
  | meter => exact ⟨0, one_dvd _⟩
  | inch => exact hscale 4 127 5000 (by decide) rfl
  | foot => exact hscale 4 381 1250 (by decide) rfl
  | degree => exact ⟨0, one_dvd _⟩
  | radian => exact ⟨0, one_dvd _⟩

end QuantityUnit

theorem canonicalQuantityValue_eq (q : ℚ) (u : QuantityUnit) :
    canonicalQuantityValue q u = some ⟨q * u.scale, u.canonical⟩ := by
  cases u <;> simp [canonicalQuantityValue, QuantityUnit.dimension, QuantityUnit.scale,
    QuantityUnit.canonical, QuantityUnit.lengthMetersFactor]

theorem Amount.decimal_eq {a : Amount} (h : Terminating a.value.den) :
    rationalDecimalString a.value = some a.decimal := by
  obtain ⟨n, hn, -, -⟩ := rationalDecimalString_eq_some h
  rw [Amount.decimal, hn]
  rfl

/-! ## The text of a number -/

namespace NumberText

/-- The text may be given where the unit, or that there is none, is the parameter's. -/
def Fits (measure : Option QuantityUnit) (t : NumberText) : Prop :=
  match measure with
  | none => t.unit = none
  | some defaultUnit => ∀ u ∈ t.unit, u.dimension = defaultUnit.dimension

/-- What the text says when its numeral stands for a number. -/
def amountOf (measure : Option QuantityUnit) (t : NumberText) (number : ℚ) : Amount :=
  match measure with
  | none => ⟨number, none⟩
  | some defaultUnit =>
    let u := t.unit.getD defaultUnit
    ⟨number * u.scale, some u.canonical⟩

theorem terminating_amountOf (measure : Option QuantityUnit) (t : NumberText) (k : Nat) :
    Terminating (t.amountOf measure (t.number.valueAt k)).value.den := by
  have hnumber := t.number.terminating_valueAt k
  cases measure with
  | none => exact hnumber
  | some defaultUnit =>
    exact (hnumber.mul (QuantityUnit.terminating_scale _)).of_dvd (Rat.mul_den_dvd _ _)

end NumberText

/-- A number has no unit, or one of those that are supported. -/
def Parameter.Supported (p : Parameter) : Prop := p.units.isSome = true → p.quantityUnit.isSome = true

theorem readUnitless_eq_ok {p : Parameter} {s : String}
    {r : CanonicalParameterValue × String} :
    canonicalizeUnitlessNumber p s = some (.ok r) ↔ ∃ t : NumberText, t.Fits none ∧
      t.chars = s.toList ∧ ((t.amountOf none t.read).typed, (t.amountOf none t.read).text) = r := by
  have hamount (t : NumberText) : rationalDecimalString t.read =
      some (t.amountOf none t.read).decimal :=
    Amount.decimal_eq (t.terminating_amountOf none _)
  unfold canonicalizeUnitlessNumber
  constructor
  · intro h
    cases hq : parseDecimalRational s.toList with
    | none => rw [hq] at h; cases h
    | some q =>
      obtain ⟨t, hunit, hchars, rfl⟩ := parseDecimalRational_iff.mp hq
      simp only [hq, hamount t, Option.bind_eq_bind, Option.bind_some] at h
      exact ⟨t, hunit, hchars, Except.ok.inj (Option.some.inj h)⟩
  · rintro ⟨t, hunit, hchars, rfl⟩
    have hq := parseDecimalRational_iff.mpr ⟨t, hunit, hchars, rfl⟩
    simp only [hq, hamount t, Option.bind_eq_bind, Option.bind_some]
    rfl

theorem readDimensioned_eq_ok {p : Parameter} {s : String} {defaultUnit : QuantityUnit}
    (hp : p.quantityUnit = some defaultUnit) {r : CanonicalParameterValue × String} :
    canonicalizeDimensionedNumber p s = some (.ok r) ↔ ∃ t : NumberText,
      t.Fits (some defaultUnit) ∧ t.chars = s.toList ∧
        ((t.amountOf (some defaultUnit) t.read).typed,
          (t.amountOf (some defaultUnit) t.read).text) = r := by
  have hamount (t : NumberText) :
      rationalDecimalString (t.read * (t.unit.getD defaultUnit).scale) =
        some (t.amountOf (some defaultUnit) t.read).decimal :=
    Amount.decimal_eq (t.terminating_amountOf (some defaultUnit) _)
  unfold canonicalizeDimensionedNumber
  simp only [hp]
  constructor
  · intro h
    cases hq : parseQuantity s.toList defaultUnit with
    | error e => rw [hq] at h; cases h
    | ok parts =>
      obtain ⟨q, u⟩ := parts
      obtain ⟨t, hfits, hchars, rfl, rfl⟩ := parseQuantity_eq_ok.mp hq
      simp only [hq, canonicalQuantityValue_eq, hamount t, Option.bind_eq_bind, Option.bind_some]
        at h
      exact ⟨t, hfits, hchars, Except.ok.inj (Option.some.inj h)⟩
  · rintro ⟨t, hfits, hchars, rfl⟩
    have hq := parseQuantity_eq_ok.mpr ⟨t, hfits, hchars, rfl, rfl⟩
    simp only [hq, canonicalQuantityValue_eq, hamount t, Option.bind_eq_bind, Option.bind_some]
    rfl

theorem quantityUnit_of_unitless {p : Parameter} (h : p.units = none) : p.quantityUnit = none := by
  rw [Parameter.quantityUnit, h]
  rfl

/-- A number is read from exactly the texts that fit the parameter. -/
theorem readValue_number {p : Parameter} (hk : p.kind = .number) {s : String}
    {r : CanonicalParameterValue × String} :
    readValue p s = some (.ok r) ↔ p.Supported ∧ ∃ t : NumberText, t.Fits p.quantityUnit ∧
      t.chars = s.toList ∧
        ((t.amountOf p.quantityUnit t.read).typed, (t.amountOf p.quantityUnit t.read).text) = r := by
  rw [readValue, hk, Parameter.Supported]
  cases hu : p.units with
  | none =>
    have hnone : p.quantityUnit = none := by
      rw [Parameter.quantityUnit, hu]
      rfl
    rw [hnone]
    exact readUnitless_eq_ok.trans (by simp)
  | some unit =>
    cases hdefault : p.quantityUnit with
    | none => simp [canonicalizeDimensionedNumber, hdefault]
    | some defaultUnit => exact (readDimensioned_eq_ok hdefault).trans (by simp)

/-- The texts that stand for a boolean. -/
def spellings : Bool → List String
  | true => ["true", "on", "1"]
  | false => ["false", "0"]

theorem readValue_boolean {p : Parameter} (hk : p.kind = .boolean) {s : String}
    {r : CanonicalParameterValue × String} :
    readValue p s = some (.ok r) ↔ ∃ b, s ∈ spellings b ∧ (.boolean b, toString b) = r := by
  have hread (b : Bool) (hs : s ∈ spellings b) :
      readValue p s = some (.ok (.boolean b, toString b)) := by
    rw [readValue, hk]
    cases b with
    | true =>
      simp only [spellings, List.mem_cons, List.not_mem_nil, or_false] at hs
      obtain rfl | rfl | rfl := hs <;> rfl
    | false =>
      simp only [spellings, List.mem_cons, List.not_mem_nil, or_false] at hs
      obtain rfl | rfl := hs <;> rfl
  constructor
  · intro h
    by_cases hs : s ∈ ["true", "false", "on", "0", "1"]
    · obtain ⟨b, hb⟩ : ∃ b, s ∈ spellings b := by
        simp only [List.mem_cons, List.not_mem_nil, or_false] at hs
        obtain rfl | rfl | rfl | rfl | rfl := hs
        · exact ⟨true, by simp [spellings]⟩
        · exact ⟨false, by simp [spellings]⟩
        · exact ⟨true, by simp [spellings]⟩
        · exact ⟨false, by simp [spellings]⟩
        · exact ⟨true, by simp [spellings]⟩
      rw [hread b hb] at h
      exact ⟨b, hb, Except.ok.inj (Option.some.inj h)⟩
    · rw [readValue, hk] at h
      simp only [hs, if_false] at h
      cases h
  · rintro ⟨b, hs, rfl⟩
    exact hread b hs

theorem readValue_text {p : Parameter} (hk : p.kind = .text) {s : String}
    {r : CanonicalParameterValue × String} :
    readValue p s = some (.ok r) ↔ (.text s, s) = r := by
  rw [readValue, hk]
  simp

theorem readValue_enum {p : Parameter} (hk : p.kind = .enum) {s : String}
    {r : CanonicalParameterValue × String} :
    readValue p s = some (.ok r) ↔
      (∃ option ∈ p.options, option.value = s) ∧ (.enum s, s) = r := by
  rw [readValue, hk]
  by_cases h : ∃ option ∈ p.options, option.value = s
  · simp [h]
  · simp [h]

theorem readValue_unsupported {p : Parameter} (hk : p.kind = .unsupported) (s : String)
    (r : CanonicalParameterValue × String) : readValue p s ≠ some (.ok r) := by
  rw [readValue, hk]
  simp

theorem readUnitless_ne_none (p : Parameter) (s : String) :
    canonicalizeUnitlessNumber p s ≠ none := by
  cases hq : parseDecimalRational s.toList with
  | none => simp [canonicalizeUnitlessNumber, hq]
  | some q =>
    obtain ⟨t, hunit, hchars, -⟩ := parseDecimalRational_iff.mp hq
    rw [readUnitless_eq_ok.mpr ⟨t, hunit, hchars, rfl⟩]
    exact Option.some_ne_none _

theorem readDimensioned_ne_none (p : Parameter) (s : String) :
    canonicalizeDimensionedNumber p s ≠ none := by
  cases hp : p.quantityUnit with
  | none => simp [canonicalizeDimensionedNumber, hp]
  | some defaultUnit =>
    cases hq : parseQuantity s.toList defaultUnit with
    | error e => simp [canonicalizeDimensionedNumber, hp, hq]
    | ok parts =>
      obtain ⟨t, hfits, hchars, -, -⟩ := (parseQuantity_eq_ok (u := parts.2)).mp hq
      rw [(readDimensioned_eq_ok hp).mpr ⟨t, hfits, hchars, rfl⟩]
      exact Option.some_ne_none _

/-- No decimal that is expected to end fails to. -/
theorem readValue_ne_none (p : Parameter) (s : String) : readValue p s ≠ none := by
  rw [readValue]
  cases p.kind with
  | text => exact Option.some_ne_none _
  | unsupported => exact Option.some_ne_none _
  | enum =>
    dsimp only
    split <;> exact Option.some_ne_none _
  | boolean =>
    dsimp only
    split <;> exact Option.some_ne_none _
  | number =>
    dsimp only
    split
    · exact readDimensioned_ne_none p s
    · exact readUnitless_ne_none p s

/-! ## What is read back -/

/-- The text that is kept is a function of what is typed. -/
theorem text_of_typed {p : Parameter} {s s' : String}
    {r r' : CanonicalParameterValue × String} (h : readValue p s = some (.ok r))
    (h' : readValue p s' = some (.ok r')) (htyped : r.1 = r'.1) : r.2 = r'.2 := by
  cases hk : p.kind with
  | text =>
    rw [readValue_text hk] at h h'
    subst h h'
    injection htyped
  | enum =>
    rw [readValue_enum hk] at h h'
    obtain ⟨-, rfl⟩ := h
    obtain ⟨-, rfl⟩ := h'
    injection htyped
  | boolean =>
    rw [readValue_boolean hk] at h h'
    obtain ⟨b, -, rfl⟩ := h
    obtain ⟨b', -, rfl⟩ := h'
    injection htyped with hb
    exact congrArg toString hb
  | number =>
    rw [readValue_number hk] at h h'
    obtain ⟨-, t, -, -, rfl⟩ := h
    obtain ⟨-, t', -, -, rfl⟩ := h'
    exact congrArg Amount.text (Amount.typed_injective htyped)
  | unsupported => exact absurd h (readValue_unsupported hk s r)

/-- The most digits after a point that a fraction's length as 32 bits counts. -/
def mostPlaces : Nat := 2 ^ 32 - 1

/-- A value with no more decimal places than are counted. -/
def Amount.Short (a : Amount) : Prop := a.value.den ∣ 10 ^ mostPlaces

theorem valueAt_asU32 {n : Numeral} (hplaces : ∀ m, n.places ≤ m ↔ n.value.den ∣ 10 ^ m) :
    n.valueAt (asU32 n.places) = n.value ↔ n.value.den ∣ 10 ^ mostPlaces := by
  have hcount : asU32 n.places = n.places ↔ n.places ≤ mostPlaces := by
    rw [asU32, mostPlaces]
    omega
  rw [← hplaces mostPlaces, ← hcount]
  constructor
  · intro h
    by_cases hd : digits (n.integer ++ n.fraction.getD []) = 0
    · have hzero : n.value = 0 := by
        rw [Numeral.value, Numeral.valueAt, hd, Nat.cast_zero, zero_div]
        cases n.sign <;> rfl
      have hnone : n.places ≤ 0 := (hplaces 0).mpr (by rw [hzero]; exact one_dvd _)
      rw [asU32]
      omega
    · have hpow : ((10 : ℚ) ^ asU32 n.places) = 10 ^ n.places := by
        have hd' : (digits (n.integer ++ n.fraction.getD []) : ℚ) ≠ 0 := by exact_mod_cast hd
        have hdiv : (digits (n.integer ++ n.fraction.getD []) : ℚ) / 10 ^ asU32 n.places =
            digits (n.integer ++ n.fraction.getD []) / 10 ^ n.places := by
          simp only [Numeral.value, Numeral.valueAt] at h
          cases hs : n.sign with
          | none => rw [hs] at h; exact h
          | plus => rw [hs] at h; exact h
          | minus => rw [hs] at h; exact neg_inj.mp h
        have hten (k : Nat) : (10 : ℚ) ^ k ≠ 0 := pow_ne_zero k (by norm_num)
        rw [div_eq_div_iff (hten _) (hten _)] at hdiv
        exact (mul_left_cancel₀ hd' hdiv).symm
      exact pow_right_injective₀ (by norm_num : (0 : ℚ) < 10) (by norm_num) hpow
  · intro h
    rw [h]
    rfl

/-- The numeral and the unit that an amount is written with. -/
theorem text_amountOf {measure : Option QuantityUnit} {t : NumberText} (ht : t.Fits measure) :
    let a := t.amountOf measure t.read
    ∃ t' : NumberText, t'.Fits measure ∧ t'.chars = a.text.toList ∧
      (∀ q, t'.amountOf measure q = ⟨q, a.unit⟩) ∧ t'.number.value = a.value ∧
      ∀ m, t'.number.places ≤ m ↔ a.value.den ∣ 10 ^ m := by
  intro a
  obtain ⟨n, hn, hvalue, hplaces⟩ :=
    rationalDecimalString_eq_some (t.terminating_amountOf measure (asU32 t.number.places))
  have hdecimal : a.decimal = n.chars := by
    have h := Amount.decimal_eq (a := a) (t.terminating_amountOf measure _)
    exact Option.some.inj (h.symm.trans hn)
  have hblank : Blank [' '] := by
    intro c hc
    rw [List.mem_singleton.mp hc]
    rfl
  cases measure with
  | none =>
    refine ⟨⟨[], n, [], none, [], blank_nil, blank_nil, blank_nil⟩, rfl, ?_, fun _ => rfl,
      hvalue, hplaces⟩
    have htext : a.text = String.ofList a.decimal := rfl
    rw [htext, hdecimal, String.toList_ofList]
    simp [NumberText.chars, NumberText.unitChars]
  | some defaultUnit =>
    let u := (t.unit.getD defaultUnit).canonical
    refine ⟨⟨[], n, [' '], some u, [], blank_nil, hblank, blank_nil⟩, ?_, ?_, fun q => ?_,
      hvalue, hplaces⟩
    · intro v hv
      rw [← Option.mem_some_iff.mp hv, QuantityUnit.canonical_dimension]
      cases hunit : t.unit with
      | none => rfl
      | some w => exact ht w (by rw [hunit]; rfl)
    · have htext : a.text = String.ofList a.decimal ++ " " ++ u.abbreviation := rfl
      rw [htext, hdecimal]
      simp [NumberText.chars, NumberText.unitChars]
    · have hunit : a.unit = some u := rfl
      rw [hunit]
      simp only [NumberText.amountOf, Option.getD_some, u, QuantityUnit.scale_canonical, mul_one,
        QuantityUnit.canonical_canonical]

/-- A number that is kept is read as what was typed exactly if its decimal is short enough. -/
theorem readNumber_again {p : Parameter} (hk : p.kind = .number) {s : String}
    {r : CanonicalParameterValue × String} (h : readValue p s = some (.ok r)) :
    readValue p r.2 = some (.ok r) ↔ ∀ a : Amount, a.typed = r.1 → a.Short := by
  obtain ⟨hs, t, ht, -, rfl⟩ := (readValue_number hk).mp h
  obtain ⟨t', hfits, hchars, hamount, hvalue, hplaces⟩ := text_amountOf ht
  have hread := (readValue_number hk).mpr ⟨hs, t', hfits, hchars, rfl⟩
  have hshort : t'.number.valueAt (asU32 t'.number.places) = t'.number.value ↔
      (t.amountOf p.quantityUnit t.read).Short := by
    rw [Amount.Short, ← hvalue]
    rw [← hvalue] at hplaces
    exact valueAt_asU32 hplaces
  rw [hread]
  constructor
  · intro he a ha
    have htyped := congrArg Prod.fst (Except.ok.inj (Option.some.inj he))
    rw [Amount.typed_injective ha, ← hshort, hvalue]
    have heq := Amount.typed_injective htyped
    rw [hamount] at heq
    exact congrArg Amount.value heq
  · intro hall
    have heq := hshort.mpr (hall _ rfl)
    have hsame : t'.amountOf p.quantityUnit t'.read = t.amountOf p.quantityUnit t.read := by
      rw [hamount, NumberText.read, heq, hvalue]
    rw [hsame]

/-- What is kept of another kind is read as what was typed. -/
theorem readOther_again {p : Parameter} (hk : p.kind ≠ .number) {s : String}
    {r : CanonicalParameterValue × String} (h : readValue p s = some (.ok r)) :
    readValue p r.2 = some (.ok r) := by
  cases hkind : p.kind with
  | number => exact absurd hkind hk
  | unsupported => exact absurd h (readValue_unsupported hkind s r)
  | text =>
    rw [readValue_text hkind] at h
    subst h
    exact (readValue_text hkind).mpr rfl
  | enum =>
    rw [readValue_enum hkind] at h
    obtain ⟨hoption, rfl⟩ := h
    exact (readValue_enum hkind).mpr ⟨hoption, rfl⟩
  | boolean =>
    rw [readValue_boolean hkind] at h
    obtain ⟨b, -, rfl⟩ := h
    exact (readValue_boolean hkind).mpr ⟨b, by cases b <;> decide, rfl⟩

end Parameters
end OnshapeExport
