import OnshapeExport.ValidatedValues

/-!
# Canonicalization

Submitted texts and the values they are kept as.

* `numbers_identified` — the texts a number accepts, and when two of them are kept as one value.
* `replayed_iff` — when the kept values are checked again with the same result.
* `values_of_typedValues` — the kept texts are a function of the typed values.
-/

namespace OnshapeExport
namespace Parameters

open CacheModel Catalogs Decimals Encoding Json

/-! ## What is kept for a parameter -/

theorem lastEntry_of_last {submitted : SortedMap String} {ps after : List Parameter}
    {p : Parameter} (h : p.id ∉ after.map Parameter.id) :
    lastEntry submitted p.id (ps ++ p :: after) =
      (p.entry submitted).or (lastEntry submitted p.id ps) := by
  have hafter : lastEntry submitted p.id after = none := by
    induction after with
    | nil => rfl
    | cons q after ih =>
      rw [List.map_cons, List.mem_cons, not_or] at h
      rw [lastEntry, ih h.2, if_neg (Ne.symm h.1)]
      rfl
  induction ps with
  | nil => simp [lastEntry, hafter]
  | cons q ps ih =>
    rw [List.cons_append, lastEntry, ih, lastEntry]
    cases p.entry submitted <;> simp

theorem mem_of_lastEntry {submitted : SortedMap String} {key : String} {ps : List Parameter}
    {r : Entry} (h : lastEntry submitted key ps = some r) :
    ∃ p ∈ ps, p.id = key ∧ p.entry submitted = some r := by
  induction ps with
  | nil => cases h
  | cons q ps ih =>
    rw [lastEntry, Option.or_eq_some_iff] at h
    obtain h | ⟨-, h⟩ := h
    · obtain ⟨p, hp, hid, hentry⟩ := ih h
      exact ⟨p, List.mem_cons_of_mem _ hp, hid, hentry⟩
    · split at h
      · rename_i hid
        exact ⟨q, List.mem_cons_self, hid, h⟩
      · cases h

theorem lastEntry_of_mem {submitted : SortedMap String} {ps : List Parameter} {p : Parameter}
    (hids : (ps.map Parameter.id).Nodup) (hp : p ∈ ps) :
    lastEntry submitted p.id ps = p.entry submitted := by
  obtain ⟨before, after, rfl⟩ := List.append_of_mem hp
  rw [List.map_append, List.map_cons, List.nodup_append] at hids
  obtain ⟨-, hafter, hdisjoint⟩ := hids
  rw [lastEntry_of_last (List.nodup_cons.mp hafter).1]
  cases hbefore : lastEntry submitted p.id before with
  | none => exact Option.or_none
  | some r =>
    obtain ⟨q, hq, hid, -⟩ := mem_of_lastEntry hbefore
    exact absurd hid (hdisjoint _ (List.mem_map_of_mem hq) _ List.mem_cons_self)

/-- A name that a parameter has is not one of the unknown names. -/
theorem entryOf_known {schema : ParameterSchema} {submitted : SortedMap String}
    {allowUnknown : Bool} {key : String} (h : key ∈ schema.known) :
    entryOf schema submitted allowUnknown key =
      lastEntry submitted key schema.parameters := by
  have hunknown (value : String) : unknownEntry schema.known key value = none := by
    rw [unknownEntry, if_pos (.inl h)]
  rw [entryOf]
  cases allowUnknown with
  | false => rfl
  | true =>
    cases submitted.get? key with
    | none => rfl
    | some value =>
      rw [if_pos rfl, Option.bind_some, hunknown]
      rfl

theorem entryOf_unknown {schema : ParameterSchema} {submitted : SortedMap String}
    {allowUnknown : Bool} {key : String} (h : key ∉ schema.known) :
    entryOf schema submitted allowUnknown key =
      if allowUnknown then (submitted.get? key).bind (unknownEntry schema.known key) else none := by
  have hnone : lastEntry submitted key schema.parameters = none := by
    rw [Option.eq_none_iff_forall_ne_some]
    intro r hr
    obtain ⟨p, hp, hid, -⟩ := mem_of_lastEntry hr
    exact h (List.mem_map.mpr ⟨p, hp, hid⟩)
  rw [entryOf, hnone, Option.or_none]

theorem unknownEntry_eq_some {known : List String} {key value : String} {r : Entry} :
    unknownEntry known key value = some r ↔
      key ∉ known ∧ value ≠ "" ∧ (.text value, value) = r := by
  rw [unknownEntry]
  split
  · rename_i h
    simp only [reduceCtorEq, false_iff, not_and]
    intro hk hv
    exact absurd h (not_or.mpr ⟨hk, hv⟩)
  · rename_i h
    rw [not_or] at h
    rw [Option.some.injEq]
    simp only [h, not_false_eq_true, true_and, ne_eq]

/-! ## Numbers -/

/-- What a text of a number denotes: the rational in metres, or in its unit. -/
def NumberText.denotes (measure : Option QuantityUnit) (t : NumberText) : Amount :=
  t.amountOf measure t.number.value

theorem read_eq_value {t : NumberText} (h : t.number.places < 2 ^ 32) :
    t.read = t.number.value := by
  rw [NumberText.read, asU32, Nat.mod_eq_of_lt h]
  rfl

theorem entry_number {p : Parameter} (hk : p.kind = .number) (hs : p.Supported)
    {submitted : SortedMap String} {s : String} (hv : p.valueIn submitted = some s)
    {t : NumberText} (ht : t.Fits p.quantityUnit) (hchars : t.chars = s.toList) :
    p.entry submitted = some ((t.amountOf p.quantityUnit t.read).typed,
      (t.amountOf p.quantityUnit t.read).text) :=
  entry_eq_some.mpr ⟨s, hv, (readValue_number hk).mpr ⟨hs, t, ht, hchars, rfl⟩⟩

theorem accepts_number {p : Parameter} (hk : p.kind = .number) (hs : p.Supported)
    {submitted : SortedMap String} {s : String} (hv : p.valueIn submitted = some s) :
    p.Accepts submitted ↔ ∃ t : NumberText, t.Fits p.quantityUnit ∧ t.chars = s.toList := by
  constructor
  · intro h
    obtain ⟨r, hr⟩ := h.read s hv
    obtain ⟨-, t, ht, hchars, -⟩ := (readValue_number hk).mp hr
    exact ⟨t, ht, hchars⟩
  · rintro ⟨t, ht, hchars⟩
    refine ⟨by rw [hk]; decide, fun hnone => ?_, fun s' hs' => ?_⟩
    · rw [hv] at hnone
      cases hnone
    · rw [hv, Option.some.injEq] at hs'
      subst hs'
      exact ⟨_, (readValue_number hk).mpr ⟨hs, t, ht, hchars, rfl⟩⟩

/-- Texts of a number are kept as one value exactly if they denote the same, and the texts that are
accepted are the numerals with white space and a unit of the parameter's dimension. -/
theorem numbers_identified (schema : ParameterSchema) (allowUnknown : Bool) :
    (∀ submitted, validateValues schema submitted allowUnknown ≠ none) ∧
    (∀ cs q, parseDecimalRational cs = some q → rationalDecimalString q ≠ none) ∧
    (∀ submitted, (∃ v, validateValues schema submitted allowUnknown = some (.ok v)) ↔
      (allowUnknown = true ∨ ∀ name ∈ keys submitted.members, name ∈ schema.known) ∧
        ∀ p ∈ schema.parameters, p.Accepts submitted) ∧
    (∀ p : Parameter, p.kind = .number → p.Supported → ∀ submitted s,
      p.valueIn submitted = some s →
        (p.Accepts submitted ↔
          ∃ t : NumberText, t.Fits p.quantityUnit ∧ t.chars = s.toList)) ∧
    ∀ before p after, schema.parameters = before ++ p :: after →
      p.id ∉ after.map Parameter.id → p.kind = .number → p.Supported →
      ∀ submitted submitted' v v',
        validateValues schema submitted allowUnknown = some (.ok v) →
        validateValues schema submitted' allowUnknown = some (.ok v') →
      ∀ s s', p.valueIn submitted = some s → p.valueIn submitted' = some s' →
      ∀ t t' : NumberText, t.Fits p.quantityUnit → t.chars = s.toList →
        t'.Fits p.quantityUnit → t'.chars = s'.toList →
        t.number.places < 2 ^ 32 → t'.number.places < 2 ^ 32 →
        (v.typedValues.get? p.id = v'.typedValues.get? p.id ↔
          t.denotes p.quantityUnit = t'.denotes p.quantityUnit) := by
  refine ⟨fun submitted => validateValues_ne_none schema submitted allowUnknown, ?_,
    fun submitted => accepted_iff, ?_, ?_⟩
  · intro cs q hq hnone
    obtain ⟨t, -, -, rfl⟩ := parseDecimalRational_iff.mp hq
    exact rationalDecimalString_eq_none.mp hnone (t.number.terminating_valueAt _)
  · intro p hk hs submitted s hv
    exact accepts_number hk hs hv
  · intro before p after hps hlast hk hs submitted submitted' v v' hok hok' s s' hv hv' t t'
      ht hchars ht' hchars' hplaces hplaces'
    have hmem : p.id ∈ schema.known := by
      rw [ParameterSchema.known, hps]
      simp
    have hkept {submitted : SortedMap String} {v : ValidatedConfiguration}
        (hok : validateValues schema submitted allowUnknown = some (.ok v)) {s : String}
        (hv : p.valueIn submitted = some s) {t : NumberText} (ht : t.Fits p.quantityUnit)
        (hchars : t.chars = s.toList) (hplaces : t.number.places < 2 ^ 32) :
        v.typedValues.get? p.id = some (t.denotes p.quantityUnit).typed := by
      obtain ⟨-, -, hget⟩ := validateValues_eq_ok.mp hok
      rw [(hget p.id).2, entryOf_known hmem, hps, lastEntry_of_last hlast,
        entry_number hk hs hv ht hchars, read_eq_value hplaces]
      rfl
    rw [hkept hok hv ht hchars hplaces, hkept hok' hv' ht' hchars' hplaces']
    constructor
    · intro h
      exact Amount.typed_injective (Option.some.inj h)
    · intro h
      rw [h]

/-! ## Kept values, checked again -/

theorem text_eq_empty {p : Parameter} {s : String} {r : Entry}
    (h : readValue p s = some (.ok r)) (hempty : r.2 = "") : s = "" := by
  cases hk : p.kind with
  | unsupported => exact absurd h (readValue_unsupported hk s r)
  | text =>
    rw [readValue_text hk] at h
    subst h
    exact hempty
  | enum =>
    rw [readValue_enum hk] at h
    obtain ⟨-, rfl⟩ := h
    exact hempty
  | boolean =>
    rw [readValue_boolean hk] at h
    obtain ⟨b, -, rfl⟩ := h
    cases b <;> exact absurd hempty (by decide)
  | number =>
    obtain ⟨-, t, ht, -, rfl⟩ := (readValue_number hk).mp h
    obtain ⟨t', -, hchars, -⟩ := text_amountOf ht
    have htext : (t.amountOf p.quantityUnit t.read).text = "" := hempty
    rw [htext] at hchars
    obtain ⟨-, hrest⟩ := List.append_eq_nil_iff.mp hchars
    exact absurd (List.append_eq_nil_iff.mp hrest).1 (chars_ne_nil t'.number)

/-- The parameter finds the text that was kept for it. -/
theorem valueIn_kept {p : Parameter} {submitted values : SortedMap String}
    (h : p.Accepts submitted)
    (hget : values.get? p.id = (p.entry submitted).map Prod.snd) :
    p.valueIn values = (p.entry submitted).map Prod.snd := by
  cases hv : p.valueIn submitted with
  | none =>
    have hentry : p.entry submitted = none := by
      rw [Parameter.entry, hv]
      rfl
    have hdefault : p.defaultValue = none := by
      rw [Parameter.valueIn, Option.or_eq_none_iff] at hv
      exact hv.2
    rw [Parameter.valueIn, hget, hentry, hdefault]
    rfl
  | some s =>
    obtain ⟨r, hr⟩ := h.read s hv
    have hentry := entry_eq_some.mpr ⟨s, hv, hr⟩
    rw [Parameter.valueIn, hget, hentry]
    by_cases hempty : r.2 = ""
    · -- Only a default can be empty, and it is read again.
      have hs := text_eq_empty hr hempty
      rw [Parameter.valueIn, Option.or_eq_some_iff] at hv
      obtain hv | ⟨-, hv⟩ := hv
      · rw [Option.filter_eq_some_iff, hs] at hv
        simp at hv
      · simp [hempty, hv, hs, Option.filter]
    · simp [hempty]

/-- The kept values are checked with the same result exactly if every kept text is read as what was
typed. -/
theorem validateValues_again {schema : ParameterSchema} (hids : schema.known.Nodup)
    {submitted : SortedMap String} {allowUnknown : Bool} {v : ValidatedConfiguration}
    (hok : validateValues schema submitted allowUnknown = some (.ok v)) :
    validateValues schema v.values allowUnknown = some (.ok v) ↔
      ∀ p ∈ schema.parameters, ∀ r, p.entry submitted = some r →
        readValue p r.2 = some (.ok r) := by
  obtain ⟨-, haccepts, hget⟩ := validateValues_eq_ok.mp hok
  have hkept (p : Parameter) (hp : p ∈ schema.parameters) :
      entryOf schema submitted allowUnknown p.id = p.entry submitted := by
    rw [entryOf_known (List.mem_map_of_mem hp), lastEntry_of_mem hids hp]
  have hvalueIn (p : Parameter) (hp : p ∈ schema.parameters) :
      p.valueIn v.values = (p.entry submitted).map Prod.snd := by
    apply valueIn_kept (haccepts p hp)
    rw [(hget p.id).1, hkept p hp]
  constructor
  · intro hagain p hp r hr
    obtain ⟨-, haccepts', hget'⟩ := validateValues_eq_ok.mp hagain
    have hv : p.valueIn v.values = some r.2 := by
      rw [hvalueIn p hp, hr]
      rfl
    obtain ⟨r', hr'⟩ := (haccepts' p hp).read r.2 hv
    have hentry := entry_eq_some.mpr ⟨r.2, hv, hr'⟩
    have hlookup : entryOf schema v.values allowUnknown p.id = some r' := by
      rw [entryOf_known (List.mem_map_of_mem hp), lastEntry_of_mem hids hp, hentry]
    have htext := (hget p.id).1
    have htyped := (hget p.id).2
    rw [(hget' p.id).1, hlookup, hkept p hp, hr] at htext
    rw [(hget' p.id).2, hlookup, hkept p hp, hr] at htyped
    rw [hr', Prod.ext (Option.some.inj htyped) (Option.some.inj htext)]
  · intro hread
    have hentry (p : Parameter) (hp : p ∈ schema.parameters) :
        p.entry v.values = p.entry submitted := by
      cases hr : p.entry submitted with
      | none =>
        rw [Parameter.entry, hvalueIn p hp, hr]
        rfl
      | some r =>
        exact entry_eq_some.mpr ⟨r.2, by rw [hvalueIn p hp, hr]; rfl, hread p hp r hr⟩
    have hentryOf (key : String) :
        entryOf schema v.values allowUnknown key = entryOf schema submitted allowUnknown key := by
      by_cases hk : key ∈ schema.known
      · obtain ⟨p, hp, rfl⟩ := List.mem_map.mp hk
        rw [hkept p hp, entryOf_known hk, lastEntry_of_mem hids hp, hentry p hp]
      · have hunknown := (hget key).1
        rw [entryOf_unknown hk] at hunknown ⊢
        rw [entryOf_unknown hk]
        cases allowUnknown with
        | false => rfl
        | true =>
          rw [if_pos rfl] at hunknown ⊢
          rw [if_pos rfl, hunknown]
          cases hsubmitted : submitted.get? key with
          | none => rfl
          | some value =>
            rw [Option.bind_some]
            cases hr : unknownEntry schema.known key value with
            | none => rfl
            | some r =>
              obtain ⟨-, -, rfl⟩ := unknownEntry_eq_some.mp hr
              exact hr
    refine validateValues_eq_ok.mpr ⟨?_, fun p hp => ?_, fun key => ?_⟩
    · cases allowUnknown with
      | true => exact .inl rfl
      | false =>
        right
        intro key hkey
        by_contra hk
        have h := (hget key).1
        rw [entryOf_unknown hk] at h
        exact get?_eq_none.mp h hkey
    · have h := haccepts p hp
      refine ⟨h.supported, fun hnone => ?_, fun s hs => ?_⟩
      · apply h.present
        rw [hvalueIn p hp, Option.map_eq_none_iff] at hnone
        cases hv : p.valueIn submitted with
        | none => rfl
        | some s =>
          obtain ⟨r, hr⟩ := h.read s hv
          rw [entry_eq_some.mpr ⟨s, hv, hr⟩] at hnone
          cases hnone
      · rw [hvalueIn p hp, Option.map_eq_some_iff] at hs
        obtain ⟨r, hr, rfl⟩ := hs
        exact ⟨r, hread p hp r hr⟩
    · rw [hentryOf key]
      exact hget key

/-- Under a name the kept text is a function of the typed value. -/
theorem entryOf_text {schema : ParameterSchema} (hids : schema.known.Nodup)
    {submitted submitted' : SortedMap String} {allowUnknown : Bool} {key : String} {r r' : Entry}
    (h : entryOf schema submitted allowUnknown key = some r)
    (h' : entryOf schema submitted' allowUnknown key = some r') (htyped : r.1 = r'.1) :
    r.2 = r'.2 := by
  by_cases hk : key ∈ schema.known
  · obtain ⟨p, hp, rfl⟩ := List.mem_map.mp hk
    rw [entryOf_known hk, lastEntry_of_mem hids hp] at h h'
    obtain ⟨s, -, hs⟩ := entry_eq_some.mp h
    obtain ⟨s', -, hs'⟩ := entry_eq_some.mp h'
    exact text_of_typed hs hs' htyped
  · rw [entryOf_unknown hk] at h h'
    cases allowUnknown with
    | false => cases h
    | true =>
      obtain ⟨value, -, hvalue⟩ := Option.bind_eq_some_iff.mp h
      obtain ⟨value', -, hvalue'⟩ := Option.bind_eq_some_iff.mp h'
      obtain ⟨-, -, rfl⟩ := unknownEntry_eq_some.mp hvalue
      obtain ⟨-, -, rfl⟩ := unknownEntry_eq_some.mp hvalue'
      injection htyped

/-- Values that are typed alike are kept as the same texts. -/
theorem values_of_typedValues {schema : ParameterSchema} (hids : schema.known.Nodup)
    {submitted submitted' : SortedMap String} {allowUnknown : Bool} {v v' : ValidatedConfiguration}
    (hok : validateValues schema submitted allowUnknown = some (.ok v))
    (hok' : validateValues schema submitted' allowUnknown = some (.ok v'))
    (h : v.typedValues = v'.typedValues) : v.values = v'.values := by
  obtain ⟨-, -, hget⟩ := validateValues_eq_ok.mp hok
  obtain ⟨-, -, hget'⟩ := validateValues_eq_ok.mp hok'
  refine SortedMap.ext fun key => ?_
  have htyped : (entryOf schema submitted allowUnknown key).map Prod.fst =
      (entryOf schema submitted' allowUnknown key).map Prod.fst := by
    rw [← (hget key).2, ← (hget' key).2, h]
  rw [(hget key).1, (hget' key).1]
  cases he : entryOf schema submitted allowUnknown key with
  | none =>
    rw [he, Option.map_none, eq_comm, Option.map_eq_none_iff] at htyped
    rw [htyped]
  | some r =>
    cases he' : entryOf schema submitted' allowUnknown key with
    | none =>
      rw [he, he'] at htyped
      cases htyped
    | some r' =>
      rw [he, he'] at htyped
      exact congrArg some (entryOf_text hids he he' (Option.some.inj htyped))

/-! ### A number with too many places -/

/-- A point, zeros and a one. -/
def tiny (zeros : Nat) : Numeral where
  sign := .none
  integer := ['0']
  fraction := some (List.replicate zeros '0' ++ ['1'])
  isDigit := by
    intro c hc
    simp only [Option.getD_some, List.mem_append, List.mem_singleton, List.mem_replicate] at hc
    obtain rfl | ⟨-, rfl⟩ | rfl := hc <;> decide
  nonempty := by simp

theorem tiny_places (zeros : Nat) : (tiny zeros).places = zeros + 1 := by
  simp [tiny, Numeral.places]

theorem tiny_value (zeros : Nat) : (tiny zeros).value = 1 / 10 ^ (zeros + 1) := by
  have hdigits : digits (['0'] ++ (List.replicate zeros '0' ++ ['1'])) = 1 := by
    have hzeros : digits (['0'] ++ List.replicate zeros '0') = 0 := by
      have hrep : ['0'] ++ List.replicate zeros '0' = List.replicate (zeros + 1) '0' := rfl
      rw [hrep]
      generalize zeros + 1 = n
      induction n with
      | zero => rfl
      | succ n ih =>
        rw [List.replicate_succ', digits_append, ih]
        rfl
    rw [← List.append_assoc, digits_append, hzeros]
    rfl
  rw [Numeral.value, tiny_places]
  simp only [Numeral.valueAt, tiny, Option.getD_some, hdigits, Nat.cast_one]
  rfl

/-- A thousandth of a decimal has more places. -/
theorem thousandth_places (k : Nat) : ¬ ((1 / 10 ^ k : ℚ) * (1 / 1000)).den ∣ 10 ^ k := by
  have hvalue : (1 / 10 ^ k : ℚ) * (1 / 1000) = ((10 ^ (k + 3) : Nat) : ℚ)⁻¹ := by
    rw [Nat.cast_pow, Nat.cast_ofNat, pow_add, mul_inv, one_div]
    norm_num
  rw [hvalue, Rat.inv_natCast_den_of_pos (by positivity),
    Nat.pow_dvd_pow_iff_le_right (by decide)]
  omega

def lengthParameter : Parameter where
  id := "length"
  label := "Length"
  description := none
  kind := .number
  required := true
  defaultValue := none
  options := []
  hidden := false
  visibilityCondition := none
  precision := none
  widget := none
  units := some "millimeter"
  raw := .null

def lengthSchema : ParameterSchema where
  schemaVersion := schemaVersion
  source := ⟨"d", "v", "e", .partStudio, none⟩
  parameters := [lengthParameter]

/-- A numeral alone, without a unit. -/
def bare (n : Numeral) : NumberText :=
  ⟨[], n, [], none, [], blank_nil, blank_nil, blank_nil⟩

def submittedLength (n : Numeral) : SortedMap String :=
  SortedMap.empty.insert "length" (String.ofList n.chars)

theorem bare_chars (n : Numeral) : (bare n).chars = n.chars := by
  simp [bare, NumberText.chars, NumberText.unitChars]

theorem bare_fits (n : Numeral) : (bare n).Fits lengthParameter.quantityUnit := by
  intro u hu
  cases hu

theorem valueIn_length (n : Numeral) :
    lengthParameter.valueIn (submittedLength n) = some (String.ofList n.chars) := by
  have hne : String.ofList n.chars ≠ "" := by
    intro h
    have := congrArg String.toList h
    rw [String.toList_ofList] at this
    exact chars_ne_nil n this
  rw [Parameter.valueIn, submittedLength, SortedMap.get?_insert]
  simp [lengthParameter, hne]

theorem length_accepted (n : Numeral) :
    ∃ v, validateValues lengthSchema (submittedLength n) false = some (.ok v) := by
  refine accepted_iff.mpr ⟨.inr fun name hname => hname, fun p hp => ?_⟩
  rw [List.mem_singleton.mp hp]
  exact (accepts_number rfl (fun _ => rfl) (valueIn_length n)).mpr
    ⟨bare n, bare_fits n, by rw [bare_chars, String.toList_ofList]⟩

end Parameters
end OnshapeExport
