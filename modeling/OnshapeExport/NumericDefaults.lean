import OnshapeExport.Canonicalization
import OnshapeExport.ParameterNormalization

/-!
# NumericDefaults

Which defaults that are numbers can be used: the parameter is a number, and nothing submitted
gives the default.

* `Says` — the number that a decimal says: a float is the double nearest to it.
* `Prints` — how a number is printed, as a numeral or with an exponent.
* `default_usable_iff` — a default can be used exactly if it is printed without an exponent and
  nothing makes the parameter a boolean.
-/

namespace OnshapeExport
namespace Parameters

open CacheModel Catalogs Decimals Encoding Json

/-! ## Printed numbers -/

/-- The finite values of a double. -/
def IsDouble (x : ℚ) : Prop :=
  ∃ m e : ℤ, |m| < 2 ^ 53 ∧ -1074 ≤ e ∧ e ≤ 971 ∧ x = m * (2 : ℚ) ^ e

def Nearest (q x : ℚ) : Prop := IsDouble x ∧ ∀ y, IsDouble y → |q - x| ≤ |q - y|

def Says (q : ℚ) : Number → Prop
  | .int n => q = n
  | .float s => Nearest q s.value

/-- A number is printed as a numeral that says it, or with an exponent. -/
inductive Prints (numberText : Number → String) (n : Number) : Prop
  | plain (m : Numeral) (htext : numberText n = String.ofList m.chars)
      (hplaces : m.places < 2 ^ 32) (hsaid : Says m.value n)
  | exponential (m e : Numeral) (htext : numberText n = String.ofList (m.chars ++ 'e' :: e.chars))

theorem numeral_toString (z : Int) :
    ∃ m : Numeral, toString z = String.ofList m.chars ∧ m.value = z ∧ m.places < 2 ^ 32 := by
  have hone : (z : ℚ).den = 1 := Rat.den_intCast z
  have hnum : (z : ℚ).num = z := Rat.num_intCast z
  obtain ⟨m, hm, hvalue, hplaces⟩ := rationalDecimalString_eq_some (q := z) ⟨0, by simp [hone]⟩
  have hwhole := whole_chars (q := z) (by rw [hone]; exact Nat.mod_one _)
  refine ⟨m, ?_, hvalue, ?_⟩
  · have hchars := Option.some.inj (hm.symm.trans hwhole)
    rw [hchars, ← String.toList_inj, String.toList_ofList, toList_toString, hone, Nat.div_one,
      Sign.of, hnum]
    split <;> rfl
  · have hzero : m.places ≤ 0 := (hplaces 0).mpr (by simp [hone])
    omega

/-- The `e` of an exponent is no part of a unit, for a digit or a point comes last. -/
theorem exponential_ne (m e : Numeral) (t : NumberText) : t.chars ≠ m.chars ++ 'e' :: e.chars := by
  intro h
  have hvisible {c : Char} (hc : 43 ≤ c.toNat ∧ c.toNat ≤ 57) : isWhiteSpace c = false :=
    not_isWhiteSpace (by omega) (by omega)
  have hend : ∀ c ∈ t.chars.getLast?, 43 ≤ c.toNat ∧ c.toNat ≤ 57 := by
    intro c hc
    rw [h, List.getLast?_append_of_ne_nil _ (List.cons_ne_nil _ _), List.getLast?_cons_of_ne_nil
      (chars_ne_nil e)] at hc
    exact numeral_range e c (List.mem_of_getLast? hc)
  cases hafter : t.after.getLast? with
  | some c =>
    have hlast : t.chars.getLast? = some c := by
      simp [NumberText.chars, List.getLast?_append, hafter]
    have hblank := t.blankAfter c (List.mem_of_getLast? hafter)
    rw [hvisible (hend c hlast)] at hblank
    cases hblank
  | none =>
    rw [List.getLast?_eq_none_iff] at hafter
    cases hunit : t.unit with
    | some u =>
      obtain ⟨c, hc⟩ : ∃ c, u.abbreviation.toList.getLast? = some c :=
        ⟨_, List.getLast?_eq_some_getLast u.abbreviation_ne_nil⟩
      have hlast : t.chars.getLast? = some c := by
        simp [NumberText.chars, NumberText.unitChars, List.getLast?_append, hafter, hunit, hc]
      have hletter := alpha_range (u.isAlpha_abbreviation c (List.mem_of_getLast? hc))
      have hnumeral := hend c hlast
      omega
    | none =>
      have hmem : 'e' ∈ t.chars := by
        rw [h]
        exact List.mem_append_right _ List.mem_cons_self
      rw [NumberText.chars, hunit, hafter, NumberText.unitChars] at hmem
      simp only [List.append_nil, List.mem_append] at hmem
      rcases hmem with hblank | hnumeral | hblank
      · exact absurd (t.blankBefore _ hblank) (by decide)
      · exact absurd (numeral_range t.number _ hnumeral) (by decide)
      · exact absurd (t.blankBetween _ hblank) (by decide)

/-! ## The default of a parameter -/

theorem normalizeDefaultValue_plain {numberText : Number → String} {n : Number} {m : Numeral}
    (htext : numberText n = String.ofList m.chars) (hplaces : m.places < 2 ^ 32)
    (isInteger : Bool) :
    ∃ m' : Numeral, normalizeDefaultValue numberText (some (.number n)) isInteger =
      some (String.ofList m'.chars) ∧ m'.places < 2 ^ 32 ∧ m'.value = m.value := by
  have hread : parseDecimalRational (String.ofList m.chars).toList = some m.value := by
    rw [String.toList_ofList, parseDecimalRational_chars, asU32, Nat.mod_eq_of_lt hplaces]
    rfl
  simp only [normalizeDefaultValue, Option.bind_some, valueToString, htext, Option.map_some, hread]
  by_cases hinteger : isInteger = true ∧ m.value.den = 1
  · obtain ⟨m', hm', hvalue, hplaces'⟩ := numeral_toString m.value.num
    rw [if_pos hinteger, hm']
    refine ⟨m', rfl, hplaces', hvalue.trans ?_⟩
    exact Rat.coe_int_num_of_den_eq_one hinteger.2
  · rw [if_neg hinteger]
    exact ⟨m, rfl, hplaces, rfl⟩

theorem normalizeDefaultValue_exponential {numberText : Number → String} {n : Number}
    {m e : Numeral} (htext : numberText n = String.ofList (m.chars ++ 'e' :: e.chars))
    (isInteger : Bool) :
    normalizeDefaultValue numberText (some (.number n)) isInteger =
      some (String.ofList (m.chars ++ 'e' :: e.chars)) := by
  have hread : parseDecimalRational (String.ofList (m.chars ++ 'e' :: e.chars)).toList = none := by
    rw [String.toList_ofList, Option.eq_none_iff_forall_ne_some]
    intro q hq
    obtain ⟨t, -, ht, -⟩ := parseDecimalRational_iff.mp hq
    exact exponential_ne m e t ht
  simp only [normalizeDefaultValue, Option.bind_some, valueToString, htext, Option.map_some, hread]

/-! ## Usable defaults -/

/-- The value of a number in the unit of the parameter, in metres when it is a length. -/
def Parameter.amount (p : Parameter) (q : ℚ) : Amount :=
  match p.quantityUnit with
  | none => ⟨q, none⟩
  | some u => ⟨q * u.scale, some u.canonical⟩

/-- The parameter is a number, and where no text is submitted for it the value is the default. -/
structure Usable (p : Parameter) (n : Number) : Prop where
  kind : p.kind = .number
  value : ∀ (schema : ParameterSchema) (submitted : SortedMap String) (allowUnknown : Bool),
    p ∈ schema.parameters → schema.known.Nodup →
    (∀ s, submitted.get? p.id = some s → s = "") →
    (allowUnknown = true ∨ ∀ name ∈ keys submitted.members, name ∈ schema.known) →
    (∀ q ∈ schema.parameters, q.id ≠ p.id → q.Accepts submitted) →
    ∃ v q, validateValues schema submitted allowUnknown = some (.ok v) ∧ Says q n ∧
      v.typedValues.get? p.id = some (p.amount q).typed

theorem valueIn_default {p : Parameter} {submitted : SortedMap String}
    (h : ∀ s, submitted.get? p.id = some s → s = "") : p.valueIn submitted = p.defaultValue := by
  rw [Parameter.valueIn]
  cases hget : submitted.get? p.id with
  | none => rfl
  | some s =>
    rw [h s hget]
    rfl

theorem amountOf_bare (p : Parameter) (m : Numeral) :
    (bare m).amountOf p.quantityUnit (bare m).read = p.amount (bare m).read := by
  unfold Parameter.amount NumberText.amountOf
  cases p.quantityUnit <;> rfl

theorem usable_of_numeral {p : Parameter} {n : Number} (hk : p.kind = .number) (hs : p.Supported)
    {m : Numeral} (hdefault : p.defaultValue = some (String.ofList m.chars))
    (hplaces : m.places < 2 ^ 32) (hsaid : Says m.value n) : Usable p n := by
  refine ⟨hk, fun schema submitted allowUnknown hp hids hnone hnames hothers => ?_⟩
  have hv : p.valueIn submitted = some (String.ofList m.chars) := by
    rw [valueIn_default hnone, hdefault]
  have hchars : (bare m).chars = (String.ofList m.chars).toList := by
    rw [bare_chars, String.toList_ofList]
  have hfits : (bare m).Fits p.quantityUnit := by
    unfold NumberText.Fits
    cases p.quantityUnit with
    | none => rfl
    | some u => exact fun _ h => by cases h
  have haccepts : ∀ q ∈ schema.parameters, q.Accepts submitted := by
    intro q hq
    by_cases hid : q.id = p.id
    · have hsame : q = p := List.inj_on_of_nodup_map hids hq hp hid
      rw [hsame]
      exact (accepts_number hk hs hv).mpr ⟨bare m, hfits, hchars⟩
    · exact hothers q hq hid
  obtain ⟨v, hok⟩ := accepted_iff.mpr ⟨hnames, haccepts⟩
  obtain ⟨-, -, hget⟩ := validateValues_eq_ok.mp hok
  refine ⟨v, m.value, hok, hsaid, ?_⟩
  have hread : (bare m).read = m.value := read_eq_value hplaces
  rw [(hget p.id).2, entryOf_known (List.mem_map_of_mem hp), lastEntry_of_mem hids hp,
    entry_number hk hs hv hfits hchars, amountOf_bare, hread]
  rfl

/-- The schema of a parameter alone. -/
def loneSchema (p : Parameter) : ParameterSchema where
  schemaVersion := schemaVersion
  source := ⟨"d", "v", "e", .partStudio, none⟩
  parameters := [p]

theorem Usable.text {p : Parameter} {n : Number} (h : Usable p n) {s : String}
    (hdefault : p.defaultValue = some s) : ∃ t : NumberText, t.chars = s.toList := by
  have hnone : ∀ s, (SortedMap.empty : SortedMap String).get? p.id = some s → s = "" :=
    fun s hs => by cases hs
  obtain ⟨v, -, hok, -⟩ := h.value (loneSchema p) .empty true List.mem_cons_self
    (List.nodup_singleton _) hnone (.inl rfl)
    fun q hq hid => absurd (congrArg Parameter.id (List.mem_singleton.mp hq)) hid
  have haccepts := (accepted_iff.mp ⟨v, hok⟩).2 p List.mem_cons_self
  have hv : p.valueIn SortedMap.empty = some s := by
    rw [valueIn_default hnone, hdefault]
  obtain ⟨r, hr⟩ := haccepts.read s hv
  obtain ⟨-, t, -, ht, -⟩ := (readValue_number h.kind).mp hr
  exact ⟨t, ht⟩

/-- What a parameter's kind and default come from. -/
theorem normalizeParameter_fields {numberText : Number → String} {object : List (String × Value)}
    {p : Parameter} (h : normalizeParameter numberText (.object object) = some p) :
    p.kind = kindOf object p.options (typeHint object (messageOf object)) p.defaultValue ∧
      p.defaultValue = normalizeDefaultValue numberText (rawDefault (messageOf object))
        (isIntegerParameter object (messageOf object)) := by
  obtain ⟨id, -, hp⟩ := Option.bind_eq_some_iff.mp h
  obtain rfl := Option.some.inj hp
  exact ⟨rfl, rfl⟩

/-- A parameter without options is a number when its default is a numeral, unless something makes
it a boolean. -/
theorem kindOf_numeral {object : List (String × Value)} {hint : String} {m : Numeral} :
    kindOf object [] hint (some (String.ofList m.chars)) = .number ↔
      contains hint "bool" = false ∧ ∀ e ∈ object, isBool e.2 = false := by
  have hread : (parseDecimalRational m.chars).isSome = true := by
    rw [parseDecimalRational_chars]
    rfl
  have hflag : (contains hint "bool" || object.any fun e => isBool e.2) = false ↔
      contains hint "bool" = false ∧ ∀ e ∈ object, isBool e.2 = false := by
    simp [List.any_eq_false]
  rw [← hflag]
  cases hb : (contains hint "bool" || object.any fun e => isBool e.2) with
  | true => simp [kindOf, hb]
  | false => simp [kindOf, hb, String.toList_ofList, hread]

/-- A default that is a number can be used exactly if neither the hint of the type nor a member of
the object makes the parameter a boolean, and the number is printed without an exponent. -/
theorem default_usable_iff {numberText : Number → String} {object : List (String × Value)}
    {n : Number} {p : Parameter}
    (hp : normalizeParameter numberText (.object object) = some p) (hoptions : p.options = [])
    (hunits : p.Supported) (hdefault : rawDefault (messageOf object) = some (.number n))
    (hprints : Prints numberText n) :
    Usable p n ↔ contains (typeHint object (messageOf object)) "bool" = false ∧
      (∀ e ∈ object, isBool e.2 = false) ∧
      ∃ m : Numeral, numberText n = String.ofList m.chars := by
  obtain ⟨hkind, hvalue⟩ := normalizeParameter_fields hp
  rw [hoptions] at hkind
  rw [hdefault] at hvalue
  cases hprints with
  | plain m htext hplaces hsaid =>
    obtain ⟨m', hm', hplaces', hvalue'⟩ := normalizeDefaultValue_plain htext hplaces
      (isIntegerParameter object (messageOf object))
    rw [hm'] at hvalue
    rw [hvalue] at hkind
    have hnumber : kindOf object [] (typeHint object (messageOf object))
        (some (String.ofList m'.chars)) = .number ↔ _ := kindOf_numeral
    constructor
    · intro husable
      obtain ⟨hhint, hmembers⟩ := hnumber.mp (hkind.symm.trans husable.kind)
      exact ⟨hhint, hmembers, m, htext⟩
    · rintro ⟨hhint, hmembers, -⟩
      exact usable_of_numeral (hkind.trans (hnumber.mpr ⟨hhint, hmembers⟩)) hunits hvalue hplaces'
        (hvalue' ▸ hsaid)
  | exponential m e htext =>
    rw [normalizeDefaultValue_exponential htext] at hvalue
    constructor
    · intro husable
      obtain ⟨t, ht⟩ := husable.text hvalue
      rw [String.toList_ofList] at ht
      exact absurd ht (exponential_ne m e t)
    · rintro ⟨-, -, m', hm'⟩
      rw [htext] at hm'
      have hchars := congrArg String.toList hm'
      rw [String.toList_ofList, String.toList_ofList] at hchars
      exact absurd ((bare_chars m').trans hchars.symm) (exponential_ne m e (bare m'))

/-! ### Defaults that cannot be used -/

/-- The double that is read from `1e-7`. -/
def tenMillionth : Number := .float (.rat (944473296573929 / 2 ^ 73))

/-- Integers as they are printed, and the one float. -/
def sampleText : Number → String
  | .int n => toString n
  | .float _ => "1e-7"

/-- A size with a default, and a member of its own. -/
def sizeObject (n : Number) (member : String × Value) : List (String × Value) :=
  [("defaultValue", .number n), ("parameterId", .string "size"), member,
   ("type", .string "BTMParameterQuantity")]

/-- A three can be used. -/
theorem default_usable_three : ∃ p,
    normalizeParameter sampleText (.object (sizeObject (.int 3) ("name", .string "Size"))) =
      some p ∧ Usable p (.int 3) := by
  obtain ⟨m, htext, hvalue, hplaces⟩ := numeral_toString 3
  have hprints : Prints sampleText (.int 3) := .plain m htext hplaces hvalue
  have hmembers : ∀ e ∈ sizeObject (.int 3) ("name", .string "Size"), isBool e.2 = false := by
    intro e he
    simp only [sizeObject, List.mem_cons, List.not_mem_nil, or_false] at he
    obtain rfl | rfl | rfl | rfl := he <;> rfl
  obtain ⟨p, hp⟩ : ∃ p, normalizeParameter sampleText
      (.object (sizeObject (.int 3) ("name", .string "Size"))) = some p := ⟨_, rfl⟩
  have hunits : p.units = none := by
    obtain rfl := Option.some.inj hp
    rfl
  have hoptions : p.options = [] := by
    obtain rfl := Option.some.inj hp
    rfl
  have hsupported : p.Supported := fun h => by
    rw [hunits] at h
    cases h
  exact ⟨p, hp, (default_usable_iff hp hoptions hsupported rfl hprints).mpr
    ⟨by decide +kernel, hmembers, m, htext⟩⟩

/-- A three of an object that says whether it is required cannot be used, and neither can a
quantity of `1e-7`. -/
theorem default_not_usable : (∃ p,
    normalizeParameter sampleText (.object (sizeObject (.int 3) ("required", .bool true))) =
      some p ∧ p.options = [] ∧ p.units = none ∧ p.kind = .boolean ∧ ¬ Usable p (.int 3)) ∧
    ∃ p, normalizeParameter sampleText
      (.object (sizeObject tenMillionth ("name", .string "Size"))) = some p ∧
      p.options = [] ∧ p.units = none ∧ p.kind = .unsupported ∧ ¬ Usable p tenMillionth := by
  refine ⟨⟨_, rfl, rfl, rfl, rfl, fun h => ?_⟩, ⟨_, rfl, rfl, rfl, rfl, fun h => ?_⟩⟩
  · cases h.kind
  · cases h.kind

end Parameters
end OnshapeExport
