import OnshapeExport.FormFields
import OnshapeExport.Lib.Checks

/-!
# FormRoundTrip

What the form of a page keeps of the values that it is rendered with.

* `text_render_kept` — a control that is rendered with a kept text says it.
* `roundTrips_iff` — when the form as it is rendered gives the typed values back.
* `form_round_trip_iff` — exactly when it does, and a change of one control is a change of one
  entry.
-/

namespace OnshapeExport
namespace Parameters

open CacheModel Decimals Json

/-! ## Rendered values -/

theorem renderControl_text {p : Parameter} (hk : p.kind = .text) (value : String) :
    renderControl p value = .input value := by
  rw [renderControl, hk]

theorem renderControl_number {p : Parameter} (hk : p.kind = .number)
    (hu : quantityUnitOptions p = none) (value : String) :
    renderControl p value = .input value := by
  rw [renderControl, hk]
  simp only [hu]

theorem renderControl_quantity {p : Parameter} (hk : p.kind = .number) {options : List String}
    (hu : quantityUnitOptions p = some options) (value : String) :
    renderControl p value =
      .quantity (splitQuantityDisplayValue value ((defaultQuantityUnit p).getD "")).1
        ((chosen options
          (splitQuantityDisplayValue value ((defaultQuantityUnit p).getD "")).2).getD "") := by
  rw [renderControl, hk]
  simp only [hu]

theorem renderControl_boolean {p : Parameter} (hk : p.kind = .boolean) (value : String) :
    renderControl p value = .checkbox (value ∈ ["true", "on", "1"]) := by
  rw [renderControl, hk]

theorem renderControl_enum {p : Parameter} (hk : p.kind = .enum) (value : String) :
    renderControl p value = .select (chosen (p.options.map ParameterOption.value) value) := by
  rw [renderControl, hk]

theorem trim_abbreviation (u : QuantityUnit) : trim u.abbreviation.toList = u.abbreviation.toList := by
  refine trim_trimmed (trimmed_of_range fun c hc => ?_)
  have hrange := alpha_range (u.isAlpha_abbreviation c hc)
  omega

/-- A quantity as it is kept is split into its number and its unit. -/
theorem splitQuantityDisplayValue_kept (n : Numeral) (u : QuantityUnit) (defaultUnit : String) :
    splitQuantityDisplayValue (String.ofList n.chars ++ " " ++ u.abbreviation) defaultUnit =
      (String.ofList n.chars, u.abbreviation) := by
  have hblank : Blank [' '] := by
    intro c hc
    rw [List.mem_singleton.mp hc]
    rfl
  have hlist : (String.ofList n.chars ++ " " ++ u.abbreviation).toList =
      n.chars ++ [' '] ++ u.abbreviation.toList := by
    simp [String.toList_append, String.toList_ofList]
  have htrimmed : Trimmed (n.chars ++ [' '] ++ u.abbreviation.toList) := by
    constructor
    · intro c hc
      rw [List.append_assoc, List.head?_append_of_ne_nil _ (chars_ne_nil n)] at hc
      exact (trimmed_numeral n).first c hc
    · intro c hc
      rw [List.getLast?_append_of_ne_nil _ u.abbreviation_ne_nil] at hc
      have hrange := alpha_range (u.isAlpha_abbreviation c (List.mem_of_getLast? hc))
      exact not_isWhiteSpace (by omega) (by omega)
  have hnumber : trim (n.chars ++ [' ']) = n.chars :=
    trim_append blank_nil hblank (trimmed_numeral n)
  rw [splitQuantityDisplayValue, hlist, trim_trimmed htrimmed]
  simp only [rtakeWhile_append_right u.isAlpha_abbreviation (last_numeral_blank n hblank),
    rdropWhile_append_right u.isAlpha_abbreviation (last_numeral_blank n hblank),
    trim_abbreviation, hnumber]
  split
  · rename_i h
    exact absurd h u.abbreviation_ne_nil
  · rw [String.ofList_toList]

theorem abbreviation_canonical_mem {u v : QuantityUnit} (h : u.dimension = v.dimension) :
    u.canonical.abbreviation ∈ unitOptions v.dimension := by
  rw [← h]
  cases u <;> decide

theorem text_render_number {p : Parameter} (hk : p.kind = .number) {s : String} {r : Entry}
    (h : readValue p s = some (.ok r)) : (renderControl p r.2).text = some r.2 := by
  obtain ⟨-, t, hfits, -, rfl⟩ := (readValue_number hk).mp h
  cases hunit : p.quantityUnit with
  | none =>
    have hu : quantityUnitOptions p = none := by rw [quantityUnitOptions, hunit, Option.map_none]
    rw [renderControl_number hk hu, Control.text]
  | some d =>
    rw [hunit] at hfits
    obtain ⟨n, hn, -, -⟩ :=
      rationalDecimalString_eq_some (t.terminating_amountOf (some d) (asU32 t.number.places))
    have hdecimal : (t.amountOf (some d) t.read).decimal = n.chars := by
      have h := Amount.decimal_eq (a := t.amountOf (some d) t.read)
        (t.terminating_amountOf (some d) _)
      exact Option.some.inj (h.symm.trans hn)
    have htext : (t.amountOf (some d) t.read).text =
        String.ofList n.chars ++ " " ++ (t.unit.getD d).canonical.abbreviation := by
      rw [← hdecimal]
      rfl
    have hdimension : (t.unit.getD d).dimension = d.dimension := by
      cases ht : t.unit with
      | none => rfl
      | some u => exact hfits u (by rw [ht]; rfl)
    have hmem := abbreviation_canonical_mem hdimension
    have hu : quantityUnitOptions p = some (unitOptions d.dimension) := by
      rw [quantityUnitOptions, hunit, Option.map_some]
    have htrim : trimText (String.ofList n.chars) = String.ofList n.chars := by
      rw [trimText, String.toList_ofList, trim_trimmed (trimmed_numeral n)]
    have hne : String.ofList n.chars ≠ "" := by
      intro he
      have hlist := congrArg String.toList he
      rw [String.toList_ofList] at hlist
      exact chars_ne_nil n hlist
    rw [renderControl_quantity hk hu]
    simp only [htext, splitQuantityDisplayValue_kept, chosen, hmem, if_true, Option.getD_some,
      Control.text, htrim, hne, if_false]

/-- A control that is rendered with a kept value says it. -/
theorem text_render_kept {p : Parameter} {s : String} {r : Entry}
    (h : readValue p s = some (.ok r)) : (renderControl p r.2).text = some r.2 := by
  cases hk : p.kind with
  | unsupported => exact absurd h (readValue_unsupported hk s r)
  | text => rw [renderControl_text hk, Control.text]
  | boolean =>
    rw [readValue_boolean hk] at h
    obtain ⟨b, -, rfl⟩ := h
    rw [renderControl_boolean hk]
    cases b <;> decide
  | enum =>
    rw [readValue_enum hk] at h
    obtain ⟨⟨option, ho, hvalue⟩, rfl⟩ := h
    have hm : s ∈ p.options.map ParameterOption.value := List.mem_map.mpr ⟨option, ho, hvalue⟩
    rw [renderControl_enum hk, chosen, if_pos hm, Control.text]
  | number => exact text_render_number hk h

/-- Where nothing is shown the control says nothing, or something that is read. -/
theorem text_render_empty {p : Parameter} {s : String}
    (h : (renderControl p "").text = some s) (hs : s ≠ "") : ∃ r, readValue p s = some (.ok r) := by
  have hnothing (value : String) (he : value = "") : Control.text (.input value) ≠ some s := by
    intro hsome
    rw [Control.text, he, Option.some.injEq] at hsome
    exact hs hsome.symm
  cases hk : p.kind with
  | unsupported =>
    rw [renderControl, hk] at h
    cases h
  | text =>
    rw [renderControl_text hk] at h
    exact absurd h (hnothing "" rfl)
  | boolean =>
    rw [renderControl_boolean hk, Control.text] at h
    obtain rfl := Option.some.inj h
    exact ⟨_, (readValue_boolean hk).mpr ⟨false, by decide, rfl⟩⟩
  | enum =>
    rw [renderControl_enum hk, Control.text] at h
    obtain ⟨option, ho, hvalue⟩ := List.mem_map.mp (chosen_mem h)
    exact ⟨_, (readValue_enum hk).mpr ⟨⟨option, ho, hvalue⟩, rfl⟩⟩
  | number =>
    cases hu : quantityUnitOptions p with
    | none =>
      rw [renderControl_number hk hu] at h
      exact absurd h (hnothing "" rfl)
    | some options =>
      rw [renderControl_quantity hk hu] at h
      cases h

/-! ## The round trip -/

/-- The rendered form, submitted as it is, is accepted, and every parameter on it that had a typed
value has it again. -/
def RoundTrips (schema : ParameterSchema) (allowUnknown : Bool) (v : ValidatedConfiguration) :
    Prop :=
  ∃ controls v', renderParameterControlsWithValues schema v.values = some controls ∧
    validateValues schema (normalizeFormValues schema (submit controls)) allowUnknown =
      some (.ok v') ∧
    ∀ p ∈ schema.visible, ∀ typed, v.typedValues.get? p.id = some typed →
      v'.typedValues.get? p.id = some typed

/-- The numbers on the form have no more decimal places than are counted. -/
def VisibleShort (schema : ParameterSchema) (submitted : SortedMap String) : Prop :=
  ∀ p ∈ schema.visible, p.kind = .number → ∀ s, p.valueIn submitted = some s →
    ∀ t : NumberText, t.Fits p.quantityUnit → t.chars = s.toList →
      (t.amountOf p.quantityUnit t.read).Short

theorem accepts_congr {p : Parameter} {a b : SortedMap String} (h : p.valueIn a = p.valueIn b) :
    p.Accepts a ↔ p.Accepts b := by
  constructor
  · rintro ⟨hk, hnone, hread⟩
    exact ⟨hk, fun hv => hnone (h.trans hv), fun s hs => hread s (h.trans hs)⟩
  · rintro ⟨hk, hnone, hread⟩
    exact ⟨hk, fun hv => hnone (h.symm.trans hv), fun s hs => hread s (h.symm.trans hs)⟩

theorem entry_congr {p : Parameter} {a b : SortedMap String} (h : p.valueIn a = p.valueIn b) :
    p.entry a = p.entry b := by
  rw [Parameter.entry, Parameter.entry, h]

section RoundTrip

variable {schema : ParameterSchema} {submitted : SortedMap String} {allowUnknown : Bool}
  {v : ValidatedConfiguration}

/-- What is shown of a parameter: the text that was kept for it. -/
def keptText (submitted : SortedMap String) (p : Parameter) : String :=
  ((p.entry submitted).map Prod.snd).getD ""

theorem valueIn_none {p : Parameter} (h : p.Accepts submitted) (he : p.entry submitted = none) :
    p.valueIn submitted = none := by
  cases hv : p.valueIn submitted with
  | none => rfl
  | some s =>
    obtain ⟨r, hr⟩ := h.read s hv
    rw [entry_eq_some.mpr ⟨s, hv, hr⟩] at he
    cases he

theorem default_none {p : Parameter} (h : p.valueIn submitted = none) : p.defaultValue = none := by
  rw [Parameter.valueIn, Option.or_eq_none_iff] at h
  exact h.2

theorem rendered (hids : schema.known.Nodup)
    (hok : validateValues schema submitted allowUnknown = some (.ok v)) :
    renderParameterControlsWithValues schema v.values = some (formOf schema (keptText submitted)) := by
  obtain ⟨-, haccepts, hget⟩ := validateValues_eq_ok.mp hok
  have hone (p : Parameter) (hp : p ∈ schema.visible) :
      (p.displayed v.values).map (fun value => (p, renderControl p value)) =
        some (p, renderControl p (keptText submitted p)) := by
    have hmem : p ∈ schema.parameters := List.mem_of_mem_filter hp
    have hkept : v.values.get? p.id = (p.entry submitted).map Prod.snd := by
      rw [(hget p.id).1, entryOf_known (List.mem_map_of_mem hmem), lastEntry_of_mem hids hmem]
    rw [Parameter.displayed, hkept, keptText]
    cases he : p.entry submitted with
    | some r => rfl
    | none =>
      rw [default_none (valueIn_none (haccepts p hmem) he)]
      rfl
  rw [renderParameterControlsWithValues, formOf]
  exact Checks.mapM_eq_map hone

/-- What a parameter on the form finds in what is submitted: what was kept for it. -/
theorem valueIn_form (hids : schema.known.Nodup) (hown : OwnNames schema) {p : Parameter}
    (hp : p ∈ schema.visible) (haccepts : p.Accepts submitted) {r : Entry}
    (he : p.entry submitted = some r) :
    p.valueIn (normalizeFormValues schema (submit (formOf schema (keptText submitted)))) =
      some r.2 := by
  have hm : (p, renderControl p (keptText submitted p)) ∈ formOf schema (keptText submitted) :=
    List.mem_map.mpr ⟨p, hp, rfl⟩
  obtain ⟨s, -, hread⟩ := entry_eq_some.mp he
  have htext := normalized_text hids (filled_formOf schema (keptText submitted)) hown hm
  rw [keptText, he, Option.map_some, Option.getD_some, text_render_kept hread] at htext
  have hkept := valueIn_kept haccepts (htext.trans (by rw [he, Option.map_some]))
  rw [hkept, he, Option.map_some]

/-- What is submitted for a parameter on the form is accepted when it is the kept text, or when
nothing was kept. -/
theorem accepts_form (hids : schema.known.Nodup) (hown : OwnNames schema) {p : Parameter}
    (hp : p ∈ schema.visible) (haccepts : p.Accepts submitted)
    (hread : ∀ r, p.entry submitted = some r → ∃ r', readValue p r.2 = some (.ok r')) :
    p.Accepts (normalizeFormValues schema (submit (formOf schema (keptText submitted)))) := by
  cases he : p.entry submitted with
  | some r =>
    have hv := valueIn_form hids hown hp haccepts he
    refine ⟨haccepts.supported, fun hnone => ?_, fun s hs => ?_⟩
    · rw [hv] at hnone
      cases hnone
    · rw [hv, Option.some.injEq] at hs
      rw [← hs]
      exact hread r he
  | none =>
    have hnone := valueIn_none haccepts he
    have hm : (p, renderControl p "") ∈ formOf schema (keptText submitted) := by
      refine List.mem_map.mpr ⟨p, hp, ?_⟩
      rw [keptText, he]
      rfl
    have htext := normalized_text hids (filled_formOf schema (keptText submitted)) hown hm
    refine ⟨haccepts.supported, fun _ => haccepts.present hnone, fun s hs => ?_⟩
    rw [Parameter.valueIn, htext, default_none hnone, Option.or_none,
      Option.filter_eq_some_iff] at hs
    exact text_render_empty hs.1 (by simpa using hs.2)

/-- A hidden parameter is accepted as it is when nothing is submitted. -/
theorem accepts_hidden (hids : schema.known.Nodup) (hown : OwnNames schema) {p : Parameter}
    (hp : p ∈ schema.parameters) (hhidden : p.hidden = true) :
    p.Accepts (normalizeFormValues schema (submit (formOf schema (keptText submitted)))) ↔
      p.Accepts .empty := by
  refine accepts_congr ?_
  rw [Parameter.valueIn, normalized_hidden hids (filled_formOf _ _) hown hp hhidden,
    Parameter.valueIn, SortedMap.get?_empty]

theorem roundTrips_iff (hids : schema.known.Nodup) (hown : OwnNames schema)
    (hok : validateValues schema submitted allowUnknown = some (.ok v)) :
    RoundTrips schema allowUnknown v ↔
      (∀ p ∈ schema.parameters, p.hidden = true → p.Accepts .empty) ∧
        VisibleShort schema submitted := by
  obtain ⟨-, haccepts, hget⟩ := validateValues_eq_ok.mp hok
  have htyped {p : Parameter} (hp : p ∈ schema.parameters) :
      v.typedValues.get? p.id = (p.entry submitted).map Prod.fst := by
    rw [(hget p.id).2, entryOf_known (List.mem_map_of_mem hp), lastEntry_of_mem hids hp]
  constructor
  · rintro ⟨controls, v', hrender, hagain, hsame⟩
    obtain rfl := Option.some.inj ((rendered hids hok).symm.trans hrender)
    obtain ⟨-, haccepts', hget'⟩ := validateValues_eq_ok.mp hagain
    refine ⟨fun p hp hhidden => (accepts_hidden hids hown hp hhidden).mp (haccepts' p hp), ?_⟩
    intro p hp hk s hv t ht hchars
    have hmem : p ∈ schema.parameters := List.mem_of_mem_filter hp
    obtain ⟨r, hr⟩ := (haccepts p hmem).read s hv
    have he := entry_eq_some.mpr ⟨s, hv, hr⟩
    have hv' := valueIn_form hids hown hp (haccepts p hmem) he
    obtain ⟨r', hr'⟩ := (haccepts' p hmem).read r.2 hv'
    have hfst : r'.1 = r.1 := by
      have h := hsame p hp r.1 (by rw [htyped hmem, he, Option.map_some])
      rw [(hget' p.id).2, entryOf_known (List.mem_map_of_mem hmem), lastEntry_of_mem hids hmem,
        entry_eq_some.mpr ⟨r.2, hv', hr'⟩] at h
      exact Option.some.inj h
    rw [Prod.ext hfst (text_of_typed hr' hr hfst)] at hr'
    obtain ⟨hs, -⟩ := (readValue_number hk).mp hr
    obtain rfl := Except.ok.inj (Option.some.inj
      (hr.symm.trans ((readValue_number hk).mpr ⟨hs, t, ht, hchars, rfl⟩)))
    exact (readNumber_again hk hr).mp hr' _ rfl
  · rintro ⟨hhidden, hshort⟩
    have hread {p : Parameter} (hp : p ∈ schema.visible) {r : Entry}
        (he : p.entry submitted = some r) : readValue p r.2 = some (.ok r) := by
      obtain ⟨s, hv, hr⟩ := entry_eq_some.mp he
      by_cases hk : p.kind = .number
      · refine (readNumber_again hk hr).mpr fun a ha => ?_
        obtain ⟨-, t, ht, hchars, rfl⟩ := (readValue_number hk).mp hr
        rw [Amount.typed_injective ha]
        exact hshort p hp hk s hv t ht hchars
      · exact readOther_again hk hr
    have hall : ∀ p ∈ schema.parameters,
        p.Accepts (normalizeFormValues schema (submit (formOf schema (keptText submitted)))) := by
      intro p hp
      cases hh : p.hidden with
      | true => exact (accepts_hidden hids hown hp hh).mpr (hhidden p hp hh)
      | false =>
        have hvisible : p ∈ schema.visible := by simp [ParameterSchema.visible, hp, hh]
        exact accepts_form hids hown hvisible (haccepts p hp) fun r he => ⟨r, hread hvisible he⟩
    have hnames : ∀ name ∈ keys
        (normalizeFormValues schema (submit (formOf schema (keptText submitted)))).members,
          name ∈ schema.known := by
      intro name hname
      by_contra hnot
      exact get?_eq_none.mp (normalized_known (filled_formOf schema (keptText submitted)) hnot) hname
    obtain ⟨v', hagain⟩ := accepted_iff.mpr ⟨.inr hnames, hall⟩
    refine ⟨_, v', rendered hids hok, hagain, fun p hp typed htypedValue => ?_⟩
    have hmem : p ∈ schema.parameters := List.mem_of_mem_filter hp
    obtain ⟨-, -, hget'⟩ := validateValues_eq_ok.mp hagain
    rw [htyped hmem, Option.map_eq_some_iff] at htypedValue
    obtain ⟨r, he, rfl⟩ := htypedValue
    have hv' := valueIn_form hids hown hp (haccepts p hmem) he
    rw [(hget' p.id).2, entryOf_known (List.mem_map_of_mem hmem), lastEntry_of_mem hids hmem,
      entry_eq_some.mpr ⟨r.2, hv', hread hp he⟩, Option.map_some]

/-- The form gives back what it was rendered with, and a change of one control is a change of one
entry, exactly if no field under an id is taken for a part of a quantity, the hidden parameters are
accepted as they are, and no number has more decimal places than are counted. -/
theorem form_round_trip_iff (hids : schema.known.Nodup)
    (hok : validateValues schema submitted allowUnknown = some (.ok v)) :
    (RoundTrips schema allowUnknown v ∧ ChangesOne schema) ↔
      OwnNames schema ∧ (∀ p ∈ schema.parameters, p.hidden = true → p.Accepts .empty) ∧
        VisibleShort schema submitted := by
  rw [changesOne_iff hids]
  constructor
  · rintro ⟨htrip, hown⟩
    exact ⟨hown, (roundTrips_iff hids hown hok).mp htrip⟩
  · rintro ⟨hown, hrest⟩
    exact ⟨(roundTrips_iff hids hown hok).mpr hrest, hown⟩

end RoundTrip

/-- The form of one length. -/
theorem form_round_trip_tenth : ∃ v,
    validateValues lengthSchema (submittedLength (tiny 0)) false = some (.ok v) ∧
    ((RoundTrips lengthSchema false v ∧ ChangesOne lengthSchema) ↔
      OwnNames lengthSchema ∧
        (∀ p ∈ lengthSchema.parameters, p.hidden = true → p.Accepts .empty) ∧
        VisibleShort lengthSchema (submittedLength (tiny 0))) := by
  obtain ⟨v, hok⟩ := length_accepted (tiny 0)
  exact ⟨v, hok, form_round_trip_iff (List.nodup_singleton _) hok⟩

/-! ### A text named like a part of a length -/

def partText : Parameter :=
  { lengthParameter with id := "length__value", label := "Note", kind := .text, units := none }

def partTextSchema : ParameterSchema :=
  { lengthSchema with parameters := [lengthParameter, partText] }

def partTextSubmitted : SortedMap String :=
  (SortedMap.empty.insert "length" "2 mm").insert "length__value" "x"

/-- Both fields have one name, so the text is taken for the number, and is lost itself. -/
theorem partText_lost :
    partTextSchema.known.Nodup ∧
    (∃ v, validateValues partTextSchema partTextSubmitted false = some (.ok v) ∧
      ¬ RoundTrips partTextSchema false v) ∧ ¬ ChangesOne partTextSchema := by
  have hids : partTextSchema.known.Nodup := by decide +kernel
  refine ⟨hids, ?_, fun h => ?_⟩
  · obtain ⟨v, hv⟩ : ∃ v, validateValues partTextSchema partTextSubmitted false = some (.ok v) :=
      ⟨⟨(SortedMap.empty.insert "length" "0.002 m").insert "length__value" "x",
        (SortedMap.empty.insert "length" (.quantity .length "1" "500" "m")).insert "length__value"
          (.text "x")⟩, by decide +kernel⟩
    refine ⟨v, hv, fun ⟨controls, v', hrender, hagain, _⟩ => ?_⟩
    obtain rfl := Option.some.inj ((rendered hids hv).symm.trans hrender)
    have herror : validateValues partTextSchema (normalizeFormValues partTextSchema
        (submit (formOf partTextSchema (keptText partTextSubmitted)))) false =
          some (.error ["Length must be a plain decimal number", "Note is required"]) := by
      decide +kernel
    rw [herror] at hagain
    cases hagain
  · have hown := (changesOne_iff hids).mp h
    have hvisible : partText ∈ partTextSchema.visible :=
      List.mem_cons_of_mem _ List.mem_cons_self
    have hpart := hown partText hvisible trivial
    exact absurd hpart (by decide +kernel)

end Parameters
end OnshapeExport
