import OnshapeExport.ParameterForm

/-!
# FormFields

What the fields of a form come to, whatever the user has put into its controls.

* `Filled` — the controls in some state that the user can bring them to.
* `normalized_text` — every parameter gets what its control says, if no name of a field is taken
  for a part of a quantity.
* `changesOne_iff` — that condition is the one under which a change of one control is a change of
  one entry.
-/

namespace OnshapeExport
namespace Parameters

open CacheModel Decimals Json

/-! ## Names -/

theorem endsWith_append (s ending : String) : endsWith (s ++ ending) ending = true := by
  rw [endsWith, List.isSuffixOf_iff_suffix, String.toList_append]
  exact List.suffix_append _ _

theorem isPartName_valueName (id : String) : isPartName (valueName id) = true := by
  rw [isPartName, valueName, endsWith_append]
  rfl

theorem isPartName_unitName (id : String) : isPartName (unitName id) = true := by
  rw [isPartName, unitName, endsWith_append, Bool.or_true]

theorem valueName_injective {a b : String} (h : valueName a = valueName b) : a = b :=
  String.append_left_inj _ |>.mp h

theorem unitName_injective {a b : String} (h : unitName a = unitName b) : a = b :=
  String.append_left_inj _ |>.mp h

theorem valueName_ne_unitName (a b : String) : valueName a ≠ unitName b := by
  intro h
  have hlast := congrArg (fun s => s.toList.getLast?) h
  simp [valueName, unitName, String.toList_append, List.getLast?_append] at hlast

/-! ## States of the controls -/

/-- The states that a control of the parameter can be brought to. -/
inductive Allows (p : Parameter) : Control → Prop
  | text (hk : p.kind = .text) (value : String) : Allows p (.input value)
  | number (hk : p.kind = .number) (hu : quantityUnitOptions p = none) (value : String) :
      Allows p (.input value)
  | quantity (hk : p.kind = .number) {options : List String}
      (hu : quantityUnitOptions p = some options) (value : String) {unit : String}
      (hm : unit ∈ options) : Allows p (.quantity value unit)
  | boolean (hk : p.kind = .boolean) (checked : Bool) : Allows p (.checkbox checked)
  | option (hk : p.kind = .enum) {value : String}
      (hm : value ∈ p.options.map ParameterOption.value) : Allows p (.select (some value))
  | noOption (hk : p.kind = .enum) (ho : p.options = []) : Allows p (.select none)
  | unsupported (hk : p.kind = .unsupported) (value : String) : Allows p (.disabled value)

/-- What the control says: a quantity without a number says nothing. -/
def Control.text : Control → Option String
  | .input value => some value
  | .quantity value unit =>
    if trimText value = "" then none else some (trimText value ++ " " ++ unit)
  | .checkbox checked => some (toString checked)
  | .select value => value
  | .disabled _ => none

/-- The control has a field under the id of the parameter. -/
def Parameter.OwnField (p : Parameter) : Prop :=
  match p.kind with
  | .text | .boolean => True
  | .number => quantityUnitOptions p = none
  | .enum => p.options ≠ []
  | .unsupported => False

structure Filled (schema : ParameterSchema) (controls : Controls) : Prop where
  parameters : controls.map Prod.fst = schema.visible
  allows : ∀ e ∈ controls, Allows e.1 e.2

/-- No field under an id is taken for a part of a quantity. -/
def OwnNames (schema : ParameterSchema) : Prop :=
  ∀ p ∈ schema.visible, p.OwnField → isPartName p.id = false

/-- The fields of a control: one name, the id; the two of a quantity; or none. -/
theorem Allows.fields {p : Parameter} {c : Control} (h : Allows p c) :
    (p.OwnField ∧ (p.kind = .number → quantityUnitOptions p = none) ∧
        (∀ f ∈ c.fields p.id, f.1 = p.id) ∧
        ∃ value, c.text = some value ∧ Json.get? (c.fields p.id).reverse p.id = some value) ∨
      (∃ options value unit, p.kind = .number ∧ quantityUnitOptions p = some options ∧
        unit ∈ options ∧ c = .quantity value unit) ∨
      (¬ p.OwnField ∧ (p.kind = .number → quantityUnitOptions p = none) ∧ c.fields p.id = [] ∧
        c.text = none) := by
  cases h with
  | text hk value =>
    refine .inl ⟨by simp [Parameter.OwnField, hk], by simp [hk], by simp [Control.fields], value,
      rfl, ?_⟩
    simp [Control.fields, get?_cons]
  | number hk hu value =>
    refine .inl ⟨by simp [Parameter.OwnField, hk, hu], fun _ => hu, by simp [Control.fields],
      value, rfl, ?_⟩
    simp [Control.fields, get?_cons]
  | quantity hk hu value hm => exact .inr (.inl ⟨_, value, _, hk, hu, hm, rfl⟩)
  | boolean hk checked =>
    refine .inl ⟨by simp [Parameter.OwnField, hk], by simp [hk], ?_, _, rfl, ?_⟩
    · cases checked <;> simp [Control.fields]
    · cases checked <;> simp [Control.fields, get?_cons] <;> rfl
  | option hk hm =>
    refine .inl ⟨?_, by simp [hk], by simp [Control.fields], _, rfl, ?_⟩
    · rw [Parameter.OwnField, hk]
      rintro ho
      rw [ho] at hm
      cases hm
    · simp [Control.fields, get?_cons]
  | noOption hk ho =>
    exact .inr (.inr ⟨by simp [Parameter.OwnField, hk, ho], by simp [hk], rfl, rfl⟩)
  | unsupported hk value =>
    exact .inr (.inr ⟨by simp [Parameter.OwnField, hk], by simp [hk], rfl, rfl⟩)

/-! ## Fields by name -/

/-- A field has the id of its parameter for a name, or it is a part of that id. -/
theorem Allows.name {p : Parameter} {c : Control} (h : Allows p c) {f : String × String}
    (hf : f ∈ c.fields p.id) :
    (p.OwnField ∧ f.1 = p.id) ∨ f.1 = valueName p.id ∨ f.1 = unitName p.id := by
  rcases h.fields with ⟨hown, -, hnames, -⟩ | ⟨options, value, unit, -, -, -, rfl⟩ |
    ⟨-, -, hnil, -⟩
  · exact .inl ⟨hown, hnames f hf⟩
  · simp only [Control.fields, List.mem_cons, List.not_mem_nil, or_false] at hf
    obtain rfl | rfl := hf
    · exact .inr (.inl rfl)
    · exact .inr (.inr rfl)
  · rw [hnil] at hf
    cases hf

theorem get?_eq_none_of_names {fields : List (String × String)} {name : String}
    (h : ∀ f ∈ fields, f.1 ≠ name) : Json.get? fields.reverse name = none := by
  rw [get?_eq_none]
  intro hm
  obtain ⟨f, hf, he⟩ := List.mem_map.mp hm
  exact h f (List.mem_reverse.mp hf) he

theorem submit_eq_none {controls : Controls} {name : String}
    (h : ∀ e ∈ controls, ∀ f ∈ e.2.fields e.1.id, f.1 ≠ name) :
    (submit controls).get? name = none := by
  rw [submit, SortedMap.get?_ofList]
  refine get?_eq_none_of_names fun f hf => ?_
  obtain ⟨e, he, hf⟩ := List.mem_flatMap.mp hf
  exact h e he f hf

/-- A name that one control only has fields of. -/
theorem submit_of_mem {controls : Controls} (hids : (controls.map fun e => e.1.id).Nodup)
    {p : Parameter} {c : Control} (hm : (p, c) ∈ controls) {name : String}
    (h : ∀ e ∈ controls, e.1.id ≠ p.id → ∀ f ∈ e.2.fields e.1.id, f.1 ≠ name) :
    (submit controls).get? name = Json.get? (c.fields p.id).reverse name := by
  obtain ⟨before, after, rfl⟩ := List.append_of_mem hm
  rw [List.map_append, List.map_cons, List.nodup_append] at hids
  obtain ⟨-, hafter, hdisjoint⟩ := hids
  have hother {l : Controls} (hl : ∀ e ∈ l, e ∈ before ++ (p, c) :: after)
      (hne : ∀ e ∈ l, e.1.id ≠ p.id) : Json.get? (fieldsOf l).reverse name = none := by
    refine get?_eq_none_of_names fun f hf => ?_
    obtain ⟨e, he, hf⟩ := List.mem_flatMap.mp hf
    exact h e (hl e he) (hne e he) f hf
  have hbefore : Json.get? (fieldsOf before).reverse name = none :=
    hother (fun e he => List.mem_append_left _ he) fun e he hid =>
      hdisjoint _ (List.mem_map_of_mem he) _ List.mem_cons_self hid
  have hafter : Json.get? (fieldsOf after).reverse name = none :=
    hother (fun e he => List.mem_append_right _ (List.mem_cons_of_mem _ he)) fun e he hid =>
      (List.nodup_cons.mp hafter).1 (hid ▸ List.mem_map_of_mem he)
  have hsplit : (fieldsOf (before ++ (p, c) :: after)).reverse =
      (fieldsOf after).reverse ++ ((c.fields p.id).reverse ++ (fieldsOf before).reverse) := by
    simp [fieldsOf]
  rw [submit, SortedMap.get?_ofList, hsplit, get?_append, get?_append, hafter, hbefore]
  simp

/-! ## Normalized entries -/

section Normalized

variable {raw m : SortedMap String}

theorem normalizeQuantity_other {p : Parameter} {key : String} (h : p.id ≠ key) :
    (normalizeQuantity raw m p).get? key = m.get? key := by
  unfold normalizeQuantity
  split
  · rfl
  · split
    · rfl
    · split
      · rw [SortedMap.get?_remove, if_neg h]
      · rw [SortedMap.get?_insert, if_neg h]

theorem foldl_normalizeQuantity {ps : List Parameter} {key : String}
    (h : key ∉ ps.map Parameter.id) : (ps.foldl (normalizeQuantity raw) m).get? key = m.get? key := by
  induction ps generalizing m with
  | nil => rfl
  | cons p ps ih =>
    rw [List.map_cons, List.mem_cons, not_or] at h
    rw [List.foldl_cons, ih h.2, normalizeQuantity_other (Ne.symm h.1)]

/-- What is kept of the fields before the quantities are put together. -/
def keptFields (raw : SortedMap String) : SortedMap String :=
  raw.filterKeys fun name => !isPartName name

theorem normalizeFormValues_of_mem (raw : SortedMap String) {schema : ParameterSchema} (hids : schema.known.Nodup)
    {p : Parameter} (hp : p ∈ schema.parameters) :
    ∃ before : SortedMap String, before.get? p.id = (keptFields raw).get? p.id ∧
      (normalizeFormValues schema raw).get? p.id = (normalizeQuantity raw before p).get? p.id := by
  obtain ⟨before, after, hps⟩ := List.append_of_mem hp
  rw [ParameterSchema.known, hps, List.map_append, List.map_cons, List.nodup_append] at hids
  obtain ⟨-, hafter, hdisjoint⟩ := hids
  refine ⟨before.foldl (normalizeQuantity raw) (keptFields raw), ?_, ?_⟩
  · refine foldl_normalizeQuantity fun hm => ?_
    exact hdisjoint _ hm _ List.mem_cons_self rfl
  · rw [normalizeFormValues, hps, List.foldl_append, List.foldl_cons,
      foldl_normalizeQuantity (List.nodup_cons.mp hafter).1]
    rfl

/-- A parameter that is no quantity gets the field under its id. -/
theorem normalized_single {schema : ParameterSchema} (hids : schema.known.Nodup) {p : Parameter}
    (hp : p ∈ schema.parameters) (hq : p.kind = .number → quantityUnitOptions p = none) :
    (normalizeFormValues schema raw).get? p.id = (keptFields raw).get? p.id := by
  obtain ⟨before, hbefore, hget⟩ := normalizeFormValues_of_mem raw hids hp
  have hskip : p.kind ≠ .number ∨ quantityUnitOptions p = none := by
    by_cases hk : p.kind = .number
    · exact .inr (hq hk)
    · exact .inl hk
  rw [hget, normalizeQuantity, if_pos hskip, hbefore]

/-- A quantity whose number is not submitted gets the field under its id as well. -/
theorem normalized_missing {schema : ParameterSchema} (hids : schema.known.Nodup) {p : Parameter}
    (hp : p ∈ schema.parameters) (hvalue : raw.get? (valueName p.id) = none) :
    (normalizeFormValues schema raw).get? p.id = (keptFields raw).get? p.id := by
  obtain ⟨before, hbefore, hget⟩ := normalizeFormValues_of_mem raw hids hp
  rw [hget, ← hbefore, normalizeQuantity, hvalue]
  split <;> rfl

theorem unitOptions_trimmed {p : Parameter} {options : List String} {unit : String}
    (h : quantityUnitOptions p = some options) (hm : unit ∈ options) :
    trimText unit = unit ∧ unit ≠ "" := by
  have hall : ∀ u ∈ lengthUnitOptions ++ angleUnitOptions, trimText u = u ∧ u ≠ "" := by
    decide +kernel
  obtain ⟨u, -, rfl⟩ := Option.map_eq_some_iff.mp h
  refine hall unit (List.mem_append.mpr ?_)
  cases hd : u.dimension <;> rw [hd, unitOptions] at hm
  · exact .inl hm
  · exact .inr hm

/-- A quantity is put together from its two fields. -/
theorem normalized_quantity {schema : ParameterSchema} (hids : schema.known.Nodup) {p : Parameter}
    (hp : p ∈ schema.parameters) (hk : p.kind = .number) {options : List String}
    (hu : quantityUnitOptions p = some options) {value unit : String} (hm : unit ∈ options)
    (hvalue : raw.get? (valueName p.id) = some value)
    (hunit : raw.get? (unitName p.id) = some unit) :
    (normalizeFormValues schema raw).get? p.id = (Control.quantity value unit).text := by
  obtain ⟨before, -, hget⟩ := normalizeFormValues_of_mem raw hids hp
  have hskip : ¬ (p.kind ≠ .number ∨ quantityUnitOptions p = none) := by simp [hk, hu]
  obtain ⟨htrim, hne⟩ := unitOptions_trimmed hu hm
  rw [hget, normalizeQuantity, if_neg hskip, hvalue, hunit]
  simp only [Option.map_some, htrim, Control.text]
  split
  · simp
  · simp [Option.filter, hne]

end Normalized

section Form

variable {schema : ParameterSchema} {controls : Controls}

theorem Filled.mem (h : Filled schema controls) {e : Parameter × Control} (he : e ∈ controls) :
    e.1 ∈ schema.parameters ∧ e.1.hidden = false := by
  have hm : e.1 ∈ schema.visible := by
    rw [← h.parameters]
    exact List.mem_map_of_mem he
  simpa [ParameterSchema.visible] using hm

theorem Filled.ids (h : Filled schema controls) (hids : schema.known.Nodup) :
    (controls.map fun e => e.1.id).Nodup := by
  have hmap : (controls.map fun e => e.1.id) = schema.visible.map Parameter.id := by
    rw [← h.parameters, List.map_map]
    rfl
  rw [hmap]
  exact hids.sublist (List.filter_sublist.map _)

/-- With names of its own a parameter's fields are not those of another. -/
theorem Filled.apart (h : Filled schema controls) (hown : OwnNames schema)
    {e : Parameter × Control} (he : e ∈ controls) {f : String × String}
    (hf : f ∈ e.2.fields e.1.id) {id : String} (hid : e.1.id ≠ id) :
    (isPartName id = false → f.1 ≠ id) ∧ f.1 ≠ valueName id ∧ f.1 ≠ unitName id := by
  rcases (h.allows e he).name hf with ⟨hfield, hname⟩ | hname | hname
  · have hpart : isPartName f.1 = false := by
      rw [hname]
      refine hown e.1 ?_ hfield
      rw [← h.parameters]
      exact List.mem_map_of_mem he
    refine ⟨fun _ => by rwa [hname], fun hv => ?_, fun hu => ?_⟩
    · rw [hv, isPartName_valueName] at hpart
      cases hpart
    · rw [hu, isPartName_unitName] at hpart
      cases hpart
  · rw [hname]
    refine ⟨fun hpart hv => ?_, fun hv => hid (valueName_injective hv), valueName_ne_unitName _ _⟩
    rw [← hv, isPartName_valueName] at hpart
    cases hpart
  · rw [hname]
    refine ⟨fun hpart hv => ?_, Ne.symm (valueName_ne_unitName _ _),
      fun hv => hid (unitName_injective hv)⟩
    rw [← hv, isPartName_unitName] at hpart
    cases hpart

/-- Every parameter gets what its control says. -/
theorem normalized_text (hids : schema.known.Nodup) (h : Filled schema controls)
    (hown : OwnNames schema) {p : Parameter} {c : Control} (hm : (p, c) ∈ controls) :
    (normalizeFormValues schema (submit controls)).get? p.id = c.text := by
  obtain ⟨hp, hvisible⟩ := h.mem hm
  have hmem : p ∈ schema.visible := by
    rw [← h.parameters]
    exact List.mem_map_of_mem hm
  have hcontrol := h.allows _ hm
  rcases hcontrol.fields with ⟨hfield, hq, hnames, value, htext, hget⟩ |
    ⟨options, value, unit, hk, hu, hunit, rfl⟩ | ⟨-, hq, hnil, htext⟩
  · have hpart := hown p hmem hfield
    rw [normalized_single hids hp hq, keptFields, SortedMap.get?_filterKeys, hpart,
      submit_of_mem (h.ids hids) hm fun e he hid f hf => (h.apart hown he hf hid).1 hpart, hget,
      htext]
    rfl
  · refine normalized_quantity hids hp hk hu hunit ?_ ?_
    · rw [submit_of_mem (h.ids hids) hm fun e he hid f hf => (h.apart hown he hf hid).2.1]
      simp [Control.fields, get?_cons, Ne.symm (valueName_ne_unitName p.id p.id)]
    · rw [submit_of_mem (h.ids hids) hm fun e he hid f hf => (h.apart hown he hf hid).2.2]
      simp [Control.fields, get?_cons]
  · rw [normalized_single hids hp hq, keptFields, SortedMap.get?_filterKeys, htext]
    split
    · rename_i hpart
      rw [Bool.not_eq_true'] at hpart
      rw [submit_of_mem (h.ids hids) hm fun e he hid f hf => (h.apart hown he hf hid).1 hpart, hnil]
      rfl
    · rfl

/-- A hidden parameter gets nothing. -/
theorem normalized_hidden (hids : schema.known.Nodup) (h : Filled schema controls)
    (hown : OwnNames schema) {p : Parameter} (hp : p ∈ schema.parameters)
    (hhidden : p.hidden = true) :
    (normalizeFormValues schema (submit controls)).get? p.id = none := by
  have hother : ∀ e ∈ controls, e.1.id ≠ p.id := by
    intro e he hid
    obtain ⟨hmem, hvisible⟩ := h.mem he
    have hsame : e.1 = p := List.inj_on_of_nodup_map hids hmem hp hid
    rw [hsame, hhidden] at hvisible
    cases hvisible
  have hvalue : (submit controls).get? (valueName p.id) = none :=
    submit_eq_none fun e he f hf => (h.apart hown he hf (hother e he)).2.1
  rw [normalized_missing hids hp hvalue, keptFields, SortedMap.get?_filterKeys]
  split
  · rename_i hpart
    rw [Bool.not_eq_true'] at hpart
    exact submit_eq_none fun e he f hf => (h.apart hown he hf (hother e he)).1 hpart
  · rfl

/-- Only parameters get something. -/
theorem normalized_known (h : Filled schema controls) {key : String} (hkey : key ∉ schema.known) :
    (normalizeFormValues schema (submit controls)).get? key = none := by
  rw [normalizeFormValues, foldl_normalizeQuantity hkey, SortedMap.get?_filterKeys]
  split
  · rename_i hpart
    rw [Bool.not_eq_true'] at hpart
    refine submit_eq_none fun e he f hf hname => ?_
    rcases (h.allows e he).name hf with ⟨-, hid⟩ | hid | hid
    · exact hkey (hname ▸ hid ▸ List.mem_map_of_mem (h.mem he).1)
    · rw [← hname, hid, isPartName_valueName] at hpart
      cases hpart
    · rw [← hname, hid, isPartName_unitName] at hpart
      cases hpart
  · rfl

/-! ## Changes -/

theorem chosen_mem {options : List String} {selected value : String}
    (h : chosen options selected = some value) : value ∈ options := by
  rw [chosen] at h
  split at h
  · rename_i hm
    rwa [← Option.some.inj h]
  · exact List.mem_of_mem_head? h

theorem chosen_eq_none {options : List String} {selected : String} :
    chosen options selected = none ↔ options = [] := by
  rw [chosen]
  split
  · rename_i hm
    simp only [reduceCtorEq, false_iff]
    rintro rfl
    cases hm
  · exact List.head?_eq_none_iff

theorem chosen_getD_mem {options : List String} (hne : options ≠ []) (selected : String) :
    (chosen options selected).getD "" ∈ options := by
  cases hc : chosen options selected with
  | none => exact absurd (chosen_eq_none.mp hc) hne
  | some unit => exact chosen_mem hc

theorem allows_render (p : Parameter) (value : String) : Allows p (renderControl p value) := by
  unfold renderControl
  split
  · rename_i hk
    exact .text hk value
  · rename_i hk
    split
    · rename_i options hu
      have hne : options ≠ [] := by
        obtain ⟨u, -, rfl⟩ := Option.map_eq_some_iff.mp hu
        cases u.dimension <;> simp [unitOptions, lengthUnitOptions, angleUnitOptions]
      exact .quantity hk hu _ (chosen_getD_mem hne _)
    · rename_i hu
      exact .number hk hu value
  · rename_i hk
    exact .boolean hk _
  · rename_i hk
    cases hc : chosen (p.options.map ParameterOption.value) value with
    | none => exact .noOption hk (List.map_eq_nil_iff.mp (chosen_eq_none.mp hc))
    | some option => exact .option hk (chosen_mem hc)
  · rename_i hk
    exact .unsupported hk value

/-- The form with a control for every parameter that is not hidden, each showing some value. -/
def formOf (schema : ParameterSchema) (value : Parameter → String) : Controls :=
  schema.visible.map fun p => (p, renderControl p (value p))

theorem filled_formOf (schema : ParameterSchema) (value : Parameter → String) :
    Filled schema (formOf schema value) := by
  refine ⟨?_, fun e he => ?_⟩
  · rw [formOf, List.map_map]
    exact List.map_id _
  · obtain ⟨p, -, rfl⟩ := List.mem_map.mp he
    exact allows_render p (value p)

/-- The form after the user has brought the control of a parameter to another state. -/
def change (controls : Controls) (id : String) (c : Control) : Controls :=
  controls.map fun e => if e.1.id = id then (e.1, c) else e

/-- A change of one control is a change of one entry: it gets what the control says. -/
def ChangesOne (schema : ParameterSchema) : Prop :=
  ∀ controls, Filled schema controls → ∀ p c c', (p, c) ∈ controls → Allows p c' →
    (normalizeFormValues schema (submit (change controls p.id c'))).get? p.id = c'.text ∧
    ∀ q ∈ schema.parameters, q.id ≠ p.id →
      (normalizeFormValues schema (submit (change controls p.id c'))).get? q.id =
        (normalizeFormValues schema (submit controls)).get? q.id

theorem Filled.change (hids : schema.known.Nodup) (h : Filled schema controls) {p : Parameter}
    {c c' : Control} (hm : (p, c) ∈ controls) (hc' : Allows p c') :
    Filled schema (change controls p.id c') := by
  refine ⟨?_, fun e he => ?_⟩
  · rw [← h.parameters, Parameters.change, List.map_map]
    refine List.map_congr_left fun e _ => ?_
    rw [Function.comp_apply]
    split <;> rfl
  · obtain ⟨e', he', rfl⟩ := List.mem_map.mp he
    split
    · rename_i hid
      have hsame : e'.1 = p := List.inj_on_of_nodup_map hids (h.mem he').1 (h.mem hm).1 hid
      rw [hsame]
      exact hc'
    · exact h.allows e' he'

theorem changesOne_iff (hids : schema.known.Nodup) : ChangesOne schema ↔ OwnNames schema := by
  constructor
  · intro h p hp hfield
    by_contra hpart
    rw [Bool.not_eq_false] at hpart
    have hfilled := filled_formOf schema fun _ => ""
    have hm : (p, renderControl p "") ∈ formOf schema fun _ => "" :=
      List.mem_map.mpr ⟨p, hp, rfl⟩
    have hmem := (hfilled.mem hm).1
    have htext := (h _ hfilled p _ _ hm (allows_render p "")).1
    rcases (allows_render p "").fields with ⟨-, hq, -, value, hvalue, -⟩ |
      ⟨options, value, unit, hk, hu, -, -⟩ | ⟨hnot, -⟩
    · rw [normalized_single hids hmem hq, keptFields, SortedMap.get?_filterKeys, hpart, hvalue]
        at htext
      cases htext
    · rw [Parameter.OwnField, hk] at hfield
      rw [hu] at hfield
      cases hfield
    · exact hnot hfield
  · intro hown controls h p c c' hm hc'
    have hchanged := h.change hids hm hc'
    have hmem : (p, c') ∈ Parameters.change controls p.id c' :=
      List.mem_map.mpr ⟨(p, c), hm, if_pos rfl⟩
    refine ⟨normalized_text hids hchanged hown hmem, fun q hq hid => ?_⟩
    cases hhidden : q.hidden with
    | true =>
      rw [normalized_hidden hids hchanged hown hq hhidden, normalized_hidden hids h hown hq hhidden]
    | false =>
      have hvisible : q ∈ controls.map Prod.fst := by
        rw [h.parameters]
        simp [ParameterSchema.visible, hq, hhidden]
      obtain ⟨⟨q', cq⟩, hcq, rfl⟩ := List.mem_map.mp hvisible
      have hsame : (q', cq) ∈ Parameters.change controls p.id c' :=
        List.mem_map.mpr ⟨(q', cq), hcq, if_neg hid⟩
      rw [normalized_text hids hchanged hown hsame, normalized_text hids h hown hcq]

end Form

end Parameters
end OnshapeExport
