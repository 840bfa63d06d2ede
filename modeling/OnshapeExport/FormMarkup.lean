import OnshapeExport.Lib.JsonText
import OnshapeExport.Lib.Markup
import OnshapeExport.FormFields

/-!
# FormMarkup

The markup of the form of a model page, as `main.rs` writes it. Ids, labels, descriptions, options
and values come from Onshape and from users, and are escaped.

* `renderParameterControlsWithValues` — the text that is written.
* `controlPieces` — the elements and the texts that a control is meant to consist of.
* `renders_control` — a control is written as its pieces, with the fields of `ParameterForm`.
* `controls_markup` — a reader of the markup finds these pieces and fields, and nothing else.
-/

namespace OnshapeExport
namespace Page

open Json Markup Parameters Transducer

/-! ## What is written -/

def replace (c : Char) (written : String) (value : String) : String :=
  String.ofList (value.toList.flatMap fun d => if d = c then written.toList else [d])

/-- The ampersand comes first. -/
def escapeHtml (value : String) : String :=
  replace '\'' "&#39;" (replace '"' "&quot;" (replace '>' "&gt;" (replace '<' "&lt;"
    (replace '&' "&amp;" value))))

def numberStep : Option Nat → String
  | some 0 => "1"
  | some precision => "0." ++ String.ofList (List.replicate (precision - 1) '0') ++ "1"
  | none => "any"

mutual

/-- The members in the order in which they are serialized. -/
def conditionValue : ParameterVisibilityCondition → Value
  | .all conditions =>
    .object [("kind", .string "all"), ("conditions", .array (conditionValues conditions))]
  | .any conditions =>
    .object [("kind", .string "any"), ("conditions", .array (conditionValues conditions))]
  | .equal parameterId values =>
    .object [("kind", .string "equal"), ("parameterId", .string parameterId),
      ("values", .array (values.map .string))]

def conditionValues : List ParameterVisibilityCondition → List Value
  | [] => []
  | condition :: conditions => conditionValue condition :: conditionValues conditions

end

def conditionJson (condition : ParameterVisibilityCondition) : String :=
  String.ofList (conditionValue condition).chars

def renderVisibilityConditionAttribute (condition : ParameterVisibilityCondition) : String :=
  let value := escapeHtml (conditionJson condition)
  s!" data-visibility-condition=\"{value}\""

/-- An option; its value and its label are not escaped yet. -/
def renderOption (displayValue : String) (option : String × String) : String :=
  let selected := if option.1 = displayValue then " selected" else ""
  let value := escapeHtml option.1
  let label := escapeHtml option.2
  s!"<option value=\"{value}\"{selected}>{label}</option>"

def renderOptions (displayValue : String) (options : List (String × String)) : String :=
  String.join (options.map (renderOption displayValue))

def ofOption (o : ParameterOption) : String × String := (o.value, o.label)

/-- The label of a unit is the unit. -/
def ofUnit (unit : String) : String × String := (unit, unit)

def renderInput (p : Parameter) (displayValue : String) : String :=
  let id := escapeHtml p.id
  let label := escapeHtml p.label
  let required := if p.required then " required" else ""
  match p.kind with
  | .text =>
    let value := escapeHtml displayValue
    if p.widget = some "textarea" then
      s!"<textarea id=\"{id}\" name=\"{id}\"{required}>{value}</textarea>"
    else s!"<input id=\"{id}\" name=\"{id}\" value=\"{value}\"{required}>"
  | .number =>
    match quantityUnitOptions p with
    | some units =>
      let (numberValue, selectedUnit) :=
        splitQuantityDisplayValue displayValue ((defaultQuantityUnit p).getD "")
      let options := renderOptions selectedUnit (units.map ofUnit)
      let value := escapeHtml numberValue
      s!"<span class=\"quantity-control\"><input id=\"{id}\" name=\"{id}__value\" " ++
        s!"value=\"{value}\" inputmode=\"decimal\"{required}><select id=\"{id}-unit\" " ++
        s!"name=\"{id}__unit\" aria-label=\"{label} unit\">{options}</select></span>"
    | none =>
      let inputType := if p.widget = some "range" then "range" else "number"
      let step := numberStep p.precision
      let value := escapeHtml displayValue
      s!"<input id=\"{id}\" name=\"{id}\" type=\"{inputType}\" step=\"{step}\" " ++
        s!"value=\"{value}\"{required}>"
  | .boolean =>
    let checked := if displayValue ∈ ["true", "on", "1"] then " checked" else ""
    s!"<input type=\"hidden\" name=\"{id}\" value=\"false\"><input id=\"{id}\" name=\"{id}\" " ++
      s!"type=\"checkbox\" value=\"true\"{checked}>"
  | .enum =>
    let options := renderOptions displayValue (p.options.map ofOption)
    s!"<select id=\"{id}\" name=\"{id}\"{required}>{options}</select>"
  | .unsupported =>
    let value := escapeHtml displayValue
    s!"<input id=\"{id}\" name=\"{id}\" value=\"{value}\" disabled " ++
      s!"title=\"Unsupported parameter type\">"

def renderParameterControl (p : Parameter) (displayValue : String) : String :=
  let id := escapeHtml p.id
  let label := escapeHtml p.label
  let visibilityCondition :=
    (p.visibilityCondition.map renderVisibilityConditionAttribute).getD ""
  let help := (p.description.map fun description =>
    let description := escapeHtml description
    s!"<small>{description}</small>").getD ""
  let input := renderInput p displayValue
  s!"<p class=\"parameter-control\" data-parameter-id=\"{id}\"{visibilityCondition}>" ++
    s!"<label class=\"parameter-label\" for=\"{id}\">{label}</label>" ++
    s!"<span class=\"parameter-value\">{input}{help}</span></p>"

/-- `none` stands for the panic of a default value. -/
def renderParameterControlsWithValues (schema : ParameterSchema) (values : SortedMap String) :
    Option String :=
  if schema.parameters.isEmpty then
    some "<p>This model does not expose configurable parameters.</p>"
  else
    (schema.visible.mapM fun p =>
      (Parameter.displayed p values).map (renderParameterControl p)).map fun controls =>
        let controls := String.join controls
        if controls = "" then
          "<p>This model does not expose public configurable parameters.</p>"
        else controls

/-! ## What is meant -/

def inputPieces (p : Parameter) (displayValue : String) : List Piece :=
  let required := flag "required" p.required
  match p.kind with
  | .text =>
    if p.widget = some "textarea" then
      element "textarea" ([("id", some p.id), ("name", some p.id)] ++ required)
        (chars displayValue)
    else [.start "input" ([("id", some p.id), ("name", some p.id), ("value", some displayValue)] ++
      required)]
  | .number =>
    match quantityUnitOptions p with
    | some units =>
      let (numberValue, selectedUnit) :=
        splitQuantityDisplayValue displayValue ((defaultQuantityUnit p).getD "")
      element "span" [("class", some "quantity-control")]
        (.start "input" ([("id", some p.id), ("name", some (valueName p.id)),
            ("value", some numberValue), ("inputmode", some "decimal")] ++ required) ::
          element "select" [("id", some (p.id ++ "-unit")), ("name", some (unitName p.id)),
              ("aria-label", some (p.label ++ " unit"))]
            ((units.map ofUnit).flatMap fun o => optionElement o.1 o.2 (o.1 = selectedUnit)))
    | none => [.start "input" ([("id", some p.id), ("name", some p.id),
        ("type", some (if p.widget = some "range" then "range" else "number")),
        ("step", some (numberStep p.precision)), ("value", some displayValue)] ++ required)]
  | .boolean => [.start "input" [("type", some "hidden"), ("name", some p.id),
      ("value", some "false")], .start "input" ([("id", some p.id), ("name", some p.id),
      ("type", some "checkbox"), ("value", some "true")] ++
      flag "checked" (displayValue ∈ ["true", "on", "1"]))]
  | .enum => element "select" ([("id", some p.id), ("name", some p.id)] ++ required)
      ((p.options.map ofOption).flatMap fun o => optionElement o.1 o.2 (o.1 = displayValue))
  | .unsupported => [.start "input" [("id", some p.id), ("name", some p.id),
      ("value", some displayValue), ("disabled", none),
      ("title", some "Unsupported parameter type")]]

def helpPieces (p : Parameter) : List Piece :=
  (p.description.map fun description => element "small" [] (chars description)).getD []

def conditionAttribute (p : Parameter) : Attributes :=
  (p.visibilityCondition.map fun condition =>
    [("data-visibility-condition", some (conditionJson condition))]).getD []

def controlPieces (p : Parameter) (displayValue : String) : List Piece :=
  element "p" ([("class", some "parameter-control"), ("data-parameter-id", some p.id)] ++
      conditionAttribute p)
    (element "label" [("class", some "parameter-label"), ("for", some p.id)] (chars p.label) ++
      element "span" [("class", some "parameter-value")]
        (inputPieces p displayValue ++ helpPieces p))

/-! ## Texts as pieces -/

theorem toString_text (s : String) : toString s = s := rfl

theorem toList_replace (c : Char) (written value : String) : (replace c written value).toList =
    value.toList.flatMap fun d => if d = c then written.toList else [d] := by
  rw [replace, String.toList_ofList]

/-- The replacements one after the other are the references of the characters. -/
theorem toList_escapeHtml (value : String) : (escapeHtml value).toList = escape value.toList := by
  simp only [escapeHtml, toList_replace, List.flatMap_assoc, escape]
  refine List.flatMap_congr fun c _ => ?_
  by_cases hamp : c = '&'
  · subst hamp
    decide
  · by_cases hlt : c = '<'
    · subst hlt
      decide
    · by_cases hgt : c = '>'
      · subst hgt
        decide
      · by_cases hquote : c = '"'
        · subst hquote
          decide
        · by_cases hsingle : c = '\''
          · subst hsingle
            decide
          · simp [Markup.escapeChar, reference, hamp, hlt, hgt, hquote, hsingle]

/-- The text is that of the pieces. -/
structure Writes (s : String) (pieces : List Piece) : Prop where
  text : s.toList = write pieces
  named : NamedPieces pieces

theorem Writes.append {s t : String} {pieces rest : List Piece} (h : Writes s pieces)
    (h' : Writes t rest) : Writes (s ++ t) (pieces ++ rest) where
  text := by rw [String.toList_append, h.text, h'.text, write_append]
  named := h.named.append h'.named

theorem Writes.nil : Writes "" [] := ⟨rfl, named_nil⟩

theorem Writes.join {α : Type} {f : α → String} {g : α → List Piece} {l : List α}
    (h : ∀ a ∈ l, Writes (f a) (g a)) : Writes (String.join (l.map f)) (l.flatMap g) := by
  induction l with
  | nil => exact .nil
  | cons a l ih =>
    rw [List.map_cons, String.join_cons, List.flatMap_cons]
    exact (h a List.mem_cons_self).append (ih fun b hb => h b (List.mem_cons_of_mem _ hb))

theorem toList_flag (name written : String) (hwritten : written = " " ++ name)
    (on : Prop) [Decidable on] :
    (if on then written else "").toList = (flag name on).flatMap writeAttribute := by
  by_cases h : on <;> simp [flag, writeAttribute, String.toList_append, h, hwritten]

theorem writes_option (displayValue : String) (o : String × String) :
    Writes (renderOption displayValue o) (optionElement o.1 o.2 (o.1 = displayValue)) where
  text := by
    have hselected := toList_flag "selected" " selected" rfl (o.1 = displayValue)
    unfold renderOption
    simp only [String.toList_append, toString_text, hselected, toList_escapeHtml]
    simp [optionElement, element, Piece.write, writeAttribute]
  named := by
    have hvalue : Attributes.Named [("value", some o.1)] := .of_keys ["value"] rfl (by decide)
    exact named_element (by decide) (hvalue.append (named_flag (by decide))) (named_chars o.2)

theorem writes_options (displayValue : String) (options : List (String × String)) :
    Writes (renderOptions displayValue options)
      (options.flatMap fun o => optionElement o.1 o.2 (o.1 = displayValue)) :=
  .join fun o _ => writes_option displayValue o

/-! ## Controls -/

section Controls

variable (p : Parameter) (displayValue : String)

theorem toList_required : (if p.required then " required" else "").toList =
    (flag "required" p.required).flatMap writeAttribute := by
  have h := toList_flag "required" " required" rfl (p.required = true)
  rwa [Bool.decide_eq_true] at h

theorem named_required : (flag "required" p.required).Named := named_flag (by decide)

theorem writes_text (hk : p.kind = .text) :
    Writes (renderInput p displayValue) (inputPieces p displayValue) := by
  by_cases hw : p.widget = some "textarea"
  · constructor
    · unfold renderInput inputPieces
      simp only [hk, if_pos hw, String.toList_append, toString_text, toList_required,
        toList_escapeHtml]
      simp [element, Piece.write, writeAttribute]
    · simp only [inputPieces, hk, if_pos hw]
      refine named_element (by decide) (.append ?_ (named_required p)) (named_chars _)
      exact .of_keys ["id", "name"] rfl (by decide)
  · constructor
    · unfold renderInput inputPieces
      simp only [hk, if_neg hw, String.toList_append, toString_text, toList_required,
        toList_escapeHtml]
      simp [Piece.write, writeAttribute]
    · simp only [inputPieces, hk, if_neg hw]
      refine named_start (by decide) (.append ?_ (named_required p))
      exact .of_keys ["id", "name", "value"] rfl (by decide)

theorem toList_inputType : escape (if p.widget = some "range" then "range" else "number").toList =
    (if p.widget = some "range" then "range" else "number").toList := by
  split <;> decide

theorem escape_numberStep (precision : Option Nat) :
    escape (numberStep precision).toList = (numberStep precision).toList := by
  have hzeros : ∀ n, escape (List.replicate n '0') = List.replicate n '0' := by
    intro n
    induction n with
    | zero => rfl
    | succ n ih =>
      rw [List.replicate_succ, escape, List.flatMap_cons]
      exact congrArg (['0'] ++ ·) ih
  match precision with
  | none => decide
  | some 0 => decide
  | some (n + 1) => 
    simp only [numberStep, String.toList_append, String.toList_ofList, escape_append, hzeros]
    rfl

theorem writes_number (hk : p.kind = .number) (hu : quantityUnitOptions p = none) :
    Writes (renderInput p displayValue) (inputPieces p displayValue) := by
  constructor
  · unfold renderInput inputPieces
    simp only [hk, hu, String.toList_append, toString_text, toList_required, toList_escapeHtml]
    simp [Piece.write, writeAttribute, toList_inputType, escape_numberStep]
  · simp only [inputPieces, hk, hu]
    refine named_start (by decide) (.append ?_ (named_required p))
    exact .of_keys ["id", "name", "type", "step", "value"] rfl (by decide)

theorem writes_quantity (hk : p.kind = .number) {units : List String}
    (hu : quantityUnitOptions p = some units) :
    Writes (renderInput p displayValue) (inputPieces p displayValue) := by
  have hoptions := writes_options
    (splitQuantityDisplayValue displayValue ((defaultQuantityUnit p).getD "")).2 (units.map ofUnit)
  constructor
  · unfold renderInput inputPieces
    simp only [hk, hu, String.toList_append, toString_text, toList_required, toList_escapeHtml,
      hoptions.text, element, write_cons, write_append, write_nil, Piece.write,
      List.flatMap_append, List.flatMap_cons, List.flatMap_nil, writeAttribute, valueName, unitName,
      escape_append, escape_plain "quantity-control" (by decide), escape_plain "decimal" (by decide),
      escape_plain "__value" (by decide), escape_plain "__unit" (by decide),
      escape_plain "-unit" (by decide), escape_plain " unit" (by decide)]
    simp
  · simp only [inputPieces, hk, hu]
    refine named_element (by decide) (.of_keys ["class"] rfl (by decide)) ?_
    refine named_start_cons (by decide) (.append ?_ (named_required p))
      (named_element (by decide) ?_ hoptions.named)
    · exact .of_keys ["id", "name", "value", "inputmode"] rfl (by decide)
    · exact .of_keys ["id", "name", "aria-label"] rfl (by decide)

theorem writes_boolean (hk : p.kind = .boolean) :
    Writes (renderInput p displayValue) (inputPieces p displayValue) := by
  have hchecked := toList_flag "checked" " checked" rfl
    (displayValue ∈ ["true", "on", "1"])
  constructor
  · unfold renderInput inputPieces
    simp only [hk, String.toList_append, toString_text, hchecked, toList_escapeHtml, write_cons,
      write_nil, Piece.write, List.flatMap_append, List.flatMap_cons, List.flatMap_nil,
      writeAttribute, escape_plain "hidden" (by decide), escape_plain "false" (by decide),
      escape_plain "checkbox" (by decide), escape_plain "true" (by decide)]
    simp
  · simp only [inputPieces, hk]
    refine named_start_cons (by decide) ?_
      (named_start (by decide) (.append ?_ (named_flag (by decide))))
    · exact .of_keys ["type", "name", "value"] rfl (by decide)
    · exact .of_keys ["id", "name", "type", "value"] rfl (by decide)

theorem writes_enum (hk : p.kind = .enum) :
    Writes (renderInput p displayValue) (inputPieces p displayValue) := by
  have hoptions := writes_options displayValue (p.options.map ofOption)
  constructor
  · unfold renderInput inputPieces
    simp only [hk, String.toList_append, toString_text, toList_required, toList_escapeHtml,
      hoptions.text, element, write_cons, write_append, write_nil, Piece.write,
      List.flatMap_append, List.flatMap_cons, List.flatMap_nil, writeAttribute]
    simp
  · simp only [inputPieces, hk]
    refine named_element (by decide) (.append ?_ (named_required p)) hoptions.named
    exact .of_keys ["id", "name"] rfl (by decide)

theorem writes_unsupported (hk : p.kind = .unsupported) :
    Writes (renderInput p displayValue) (inputPieces p displayValue) := by
  constructor
  · unfold renderInput inputPieces
    simp only [hk, String.toList_append, toString_text, toList_escapeHtml, write_cons, write_nil,
      Piece.write, List.flatMap_cons, List.flatMap_nil, writeAttribute,
      escape_plain "Unsupported parameter type" (by decide)]
    simp
  · simp only [inputPieces, hk]
    refine named_start (by decide) ?_
    exact .of_keys ["id", "name", "value", "disabled", "title"] rfl (by decide)

theorem writes_input : Writes (renderInput p displayValue) (inputPieces p displayValue) := by
  cases hk : p.kind with
  | text => exact writes_text p displayValue hk
  | number =>
    cases hu : quantityUnitOptions p with
    | none => exact writes_number p displayValue hk hu
    | some units => exact writes_quantity p displayValue hk hu
  | boolean => exact writes_boolean p displayValue hk
  | enum => exact writes_enum p displayValue hk
  | unsupported => exact writes_unsupported p displayValue hk

theorem writes_help : Writes ((p.description.map fun description =>
      let description := escapeHtml description
      s!"<small>{description}</small>").getD "") (helpPieces p) := by
  unfold helpPieces
  cases p.description with
  | none => exact .nil
  | some description =>
    refine ⟨?_, named_element (by decide) (.of_keys [] rfl (by decide)) (named_chars _)⟩
    simp only [Option.map_some, Option.getD_some, String.toList_append, toString_text,
      toList_escapeHtml, element, write_cons, write_append, write_nil, write_chars, Piece.write,
      List.flatMap_nil]
    simp

theorem toList_attribute (condition : ParameterVisibilityCondition) :
    (renderVisibilityConditionAttribute condition).toList =
      writeAttribute ("data-visibility-condition", some (conditionJson condition)) := by
  unfold renderVisibilityConditionAttribute
  simp only [String.toList_append, toString_text, toList_escapeHtml, writeAttribute]
  simp

theorem toList_condition :
    ((p.visibilityCondition.map renderVisibilityConditionAttribute).getD "").toList =
      (conditionAttribute p).flatMap writeAttribute := by
  unfold conditionAttribute
  cases p.visibilityCondition with
  | none => rfl
  | some condition =>
    rw [Option.map_some, Option.getD_some, toList_attribute, Option.map_some, Option.getD_some,
      List.flatMap_cons, List.flatMap_nil, List.append_nil]

theorem named_condition : (conditionAttribute p).Named := by
  unfold conditionAttribute
  cases p.visibilityCondition with
  | none => exact .of_keys [] rfl (by decide)
  | some condition => exact .of_keys ["data-visibility-condition"] rfl (by decide)

theorem writes_control :
    Writes (renderParameterControl p displayValue) (controlPieces p displayValue) := by
  have hinput := writes_input p displayValue
  have hhelp := writes_help p
  constructor
  · unfold renderParameterControl controlPieces
    simp only [String.toList_append, toString_text, toList_escapeHtml, toList_condition,
      hinput.text, element, write_cons, write_append, write_nil, write_chars, Piece.write,
      List.flatMap_append, List.flatMap_cons, List.flatMap_nil, writeAttribute, ← hhelp.text,
      escape_plain "parameter-control" (by decide), escape_plain "parameter-label" (by decide),
      escape_plain "parameter-value" (by decide)]
    simp
  · refine named_element (by decide) (.append ?_ (named_condition p)) (.append ?_ ?_)
    · exact .of_keys ["class", "data-parameter-id"] rfl (by decide)
    · exact named_element (by decide) (.of_keys ["class", "for"] rfl (by decide)) (named_chars _)
    · exact named_element (by decide) (.of_keys ["class"] rfl (by decide))
        (hinput.named.append hhelp.named)

/-! ## Fields -/

theorem lookup_flag (attributes : Attributes) {name key : String} (h : name ≠ key) (on : Bool) :
    Attributes.get? (attributes ++ flag name on) key = attributes.get? key := by
  unfold Attributes.get? flag
  split
  · rw [List.lookup_append]
    have hnone : List.lookup key [(name, (none : Option String))] = none := by
      simp [List.lookup_cons, List.lookup_nil, beq_eq_false_iff_ne.mpr (Ne.symm h)]
    rw [hnone, Option.or_none]
  · rw [List.append_nil]

/-- Of the attributes of a control, `required` makes no difference. -/
theorem entry_required (attributes : Attributes) (value : Option String) :
    entry (attributes ++ flag "required" p.required) value = entry attributes value := by
  unfold entry
  rw [lookup_flag _ (by decide), lookup_flag _ (by decide)]

theorem inputEntry_required (attributes : Attributes) :
    inputEntry (attributes ++ flag "required" p.required) = inputEntry attributes := by
  unfold inputEntry
  rw [lookup_flag _ (by decide), lookup_flag _ (by decide), lookup_flag _ (by decide),
    entry_required]

/-- The pieces of the input have the fields of the control. -/
def FieldsOf (p : Parameter) (displayValue : String) : Prop :=
  Reads formStep .nothing (inputPieces p displayValue) .nothing
    ((renderControl p displayValue).fields p.id)

theorem fields_text (hk : p.kind = .text) : FieldsOf p displayValue := by
  unfold FieldsOf
  simp only [inputPieces, renderControl, hk, Control.fields]
  split
  · have hread := reads_textarea ([("id", some p.id), ("name", some p.id)] ++
      flag "required" p.required) displayValue
    rw [entry_required] at hread
    exact hread
  · have hread := reads_input ([("id", some p.id), ("name", some p.id),
      ("value", some displayValue)] ++ flag "required" p.required)
    rw [inputEntry_required] at hread
    exact hread

theorem fields_number (hk : p.kind = .number) (hu : quantityUnitOptions p = none) :
    FieldsOf p displayValue := by
  unfold FieldsOf
  simp only [inputPieces, renderControl, hk, hu, Control.fields]
  have hread := reads_input ([("id", some p.id), ("name", some p.id),
    ("type", some (if p.widget = some "range" then "range" else "number")),
    ("step", some (numberStep p.precision)), ("value", some displayValue)] ++
    flag "required" p.required)
  rw [inputEntry_required] at hread
  have hentry : inputEntry [("id", some p.id), ("name", some p.id),
      ("type", some (if p.widget = some "range" then "range" else "number")),
      ("step", some (numberStep p.precision)), ("value", some displayValue)] =
      [(p.id, displayValue)] := by
    by_cases hw : p.widget = some "range"
    · rw [if_pos hw]
      rfl
    · rw [if_neg hw]
      rfl
  rwa [hentry] at hread

theorem map_ofUnit (units : List String) : (units.map ofUnit).map Prod.fst = units := by
  rw [List.map_map]
  exact List.map_id' units

/-- The value of a select is the one that `ParameterForm` takes. -/
theorem chosen_eq (options : List (String × String)) (wanted : String) :
    (if wanted ∈ options.map Prod.fst then some wanted else options.head?.map Prod.fst) =
      chosen (options.map Prod.fst) wanted := by
  rw [chosen, List.head?_map]

theorem units_ne_nil {units : List String} (hu : quantityUnitOptions p = some units) :
    units ≠ [] := by
  obtain ⟨unit, -, rfl⟩ := Option.map_eq_some_iff.mp hu
  cases unit.dimension <;> simp [unitOptions, lengthUnitOptions, angleUnitOptions]

theorem fields_quantity (hk : p.kind = .number) {units : List String}
    (hu : quantityUnitOptions p = some units) : FieldsOf p displayValue := by
  unfold FieldsOf
  simp only [inputPieces, renderControl, hk, hu, Control.fields]
  generalize splitQuantityDisplayValue displayValue ((defaultQuantityUnit p).getD "") = split
  have hinput := reads_input ([("id", some p.id), ("name", some (valueName p.id)),
    ("value", some split.1), ("inputmode", some "decimal")] ++ flag "required" p.required)
  have hselect := reads_select ([("id", some (p.id ++ "-unit")),
    ("name", some (unitName p.id)), ("aria-label", some (p.label ++ " unit"))])
    (units.map ofUnit) split.2
  rw [inputEntry_required] at hinput
  rw [chosen_eq, map_ofUnit] at hselect
  have hchosen : chosen units split.2 = some ((chosen units split.2).getD "") := by
    cases hc : chosen units split.2 with
    | none => exact absurd (chosen_eq_none.mp hc) (units_ne_nil p hu)
    | some unit => rfl
  rw [hchosen] at hselect
  exact reads_element (by decide) (hinput.append hselect)

theorem fields_boolean (hk : p.kind = .boolean) : FieldsOf p displayValue := by
  unfold FieldsOf
  simp only [inputPieces, renderControl, hk, Control.fields]
  have hhidden := reads_input ([("type", some "hidden"), ("name", some p.id),
    ("value", some "false")])
  have hbox := reads_input ([("id", some p.id), ("name", some p.id),
    ("type", some "checkbox"), ("value", some "true")] ++
    flag "checked" (displayValue ∈ ["true", "on", "1"]))
  cases hchecked : decide (displayValue ∈ ["true", "on", "1"]) with
  | true =>
    rw [hchecked] at hbox
    exact hhidden.append hbox
  | false =>
    rw [hchecked] at hbox
    exact hhidden.append hbox

theorem fields_enum (hk : p.kind = .enum) : FieldsOf p displayValue := by
  unfold FieldsOf
  simp only [inputPieces, renderControl, hk, Control.fields]
  have hselect := reads_select ([("id", some p.id), ("name", some p.id)] ++
    flag "required" p.required) (p.options.map ofOption) displayValue
  have hvalues : (p.options.map ofOption).map Prod.fst = p.options.map ParameterOption.value := by
    rw [List.map_map]
    rfl
  rw [entry_required, chosen_eq, hvalues] at hselect
  have hentry : ∀ value : Option String, entry [("id", some p.id), ("name", some p.id)] value =
      value.toList.map fun value => (p.id, value) := by
    intro value
    cases value <;> rfl
  rwa [hentry] at hselect

theorem fields_unsupported (hk : p.kind = .unsupported) : FieldsOf p displayValue := by
  unfold FieldsOf
  simp only [inputPieces, renderControl, hk, Control.fields]
  exact reads_input _

theorem fields_input : FieldsOf p displayValue := by
  cases hk : p.kind with
  | text => exact fields_text p displayValue hk
  | number =>
    cases hu : quantityUnitOptions p with
    | none => exact fields_number p displayValue hk hu
    | some units => exact fields_quantity p displayValue hk hu
  | boolean => exact fields_boolean p displayValue hk
  | enum => exact fields_enum p displayValue hk
  | unsupported => exact fields_unsupported p displayValue hk

theorem fields_help : Reads formStep .nothing (helpPieces p) .nothing [] := by
  unfold helpPieces
  cases p.description with
  | none => exact .nil
  | some description => exact reads_element (by decide) (reads_chars description)

theorem fields_control : Reads formStep .nothing (controlPieces p displayValue) .nothing
    ((renderControl p displayValue).fields p.id) := by
  have hinput := (fields_input p displayValue).append (fields_help p)
  rw [List.append_nil] at hinput
  exact reads_element (by decide) (.silently (reads_element (by decide) (reads_chars p.label))
    (reads_element (by decide) hinput))

end Controls

/-! ## The form -/

/-- The parameters that are shown, each with the text that its control shows. -/
def shownParameters (schema : ParameterSchema) (values : SortedMap String) :
    Option (List (Parameter × String)) :=
  schema.visible.mapM fun p => (Parameter.displayed p values).map fun value => (p, value)

/-- What the form says when there is nothing to show. -/
def notice (schema : ParameterSchema) : String :=
  if schema.parameters.isEmpty then "This model does not expose configurable parameters."
  else "This model does not expose public configurable parameters."

def formPieces (schema : ParameterSchema) (shown : List (Parameter × String)) : List Piece :=
  if shown.isEmpty then element "p" [] (chars (notice schema))
  else shown.flatMap fun e => controlPieces e.1 e.2

section Form

variable (schema : ParameterSchema) (values : SortedMap String)

theorem mapM_displayed {β : Type} (f : Parameter → String → β) (l : List Parameter) :
    (l.mapM fun p => (Parameter.displayed p values).map (f p)) =
      (l.mapM fun p => (Parameter.displayed p values).map fun value => (p, value)).map
        (List.map fun e => f e.1 e.2) := by
  induction l with
  | nil => rfl
  | cons p l ih =>
    rw [List.mapM_cons, List.mapM_cons, ih]
    cases Parameter.displayed p values with
    | none => rfl
    | some value =>
      cases l.mapM fun p => (Parameter.displayed p values).map fun value => (p, value) <;> rfl

theorem controls_eq : Parameters.renderParameterControlsWithValues schema values =
    (shownParameters schema values).map
      (List.map fun e => (e.1, renderControl e.1 e.2)) :=
  mapM_displayed values (fun p value => (p, renderControl p value)) _

theorem control_ne (p : Parameter) (displayValue : String) :
    renderParameterControl p displayValue ≠ "" := by
  intro h
  have htext := (writes_control p displayValue).text
  rw [h] at htext
  cases htext

theorem join_ne {e : Parameter × String} {shown : List (Parameter × String)} :
    String.join ((e :: shown).map fun e => renderParameterControl e.1 e.2) ≠ "" := by
  intro h
  have hlist := congrArg String.toList h
  rw [List.map_cons, String.join_cons, String.toList_append, String.toList_empty,
    List.append_eq_nil_iff] at hlist
  exact control_ne e.1 e.2 (String.toList_injective hlist.1)

/-- The text of the form, from what is shown. -/
def formText (shown : List (Parameter × String)) : String :=
  let controls := String.join (shown.map fun e => renderParameterControl e.1 e.2)
  if controls = "" then "<p>This model does not expose public configurable parameters.</p>"
  else controls

theorem writes_notice (text : String) (h : text.toList.all (fun c => (reference c).isNone) = true) :
    Writes ("<p>" ++ text ++ "</p>") (element "p" [] (chars text)) where
  text := by
    simp only [String.toList_append, element, write_cons, write_append, write_nil, write_chars,
      Piece.write, List.flatMap_nil, escape_plain text h]
    simp
  named := named_element (by decide) (.of_keys [] rfl (by decide)) (named_chars _)

theorem writes_form (shown : List (Parameter × String)) (h : schema.parameters ≠ []) :
    Writes (formText shown) (formPieces schema shown) := by
  cases shown with
  | nil =>
    have hnotice := writes_notice "This model does not expose public configurable parameters."
      (by decide +kernel)
    have hempty : schema.parameters.isEmpty = false := by
      cases hp : schema.parameters with
      | nil => exact absurd hp h
      | cons p ps => rfl
    simpa [formText, formPieces, notice, hempty] using hnotice
  | cons e shown =>
    unfold formText formPieces
    rw [if_neg join_ne, if_neg (by simp)]
    exact .join fun e _ => writes_control e.1 e.2

theorem fields_form (shown : List (Parameter × String)) : fields (formPieces schema shown) =
    fieldsOf (shown.map fun e => (e.1, renderControl e.1 e.2)) := by
  unfold formPieces
  cases shown with
  | nil => exact fields_of_reads (reads_element (by decide) (reads_chars _))
  | cons e shown =>
    rw [if_neg (by simp)]
    refine fields_of_reads (s := .nothing) ?_
    induction e :: shown with
    | nil => exact .nil
    | cons e shown ih => exact (fields_control e.1 e.2).append ih

theorem text_eq : renderParameterControlsWithValues schema values =
    if schema.parameters.isEmpty then
      some "<p>This model does not expose configurable parameters.</p>"
    else (shownParameters schema values).map formText := by
  unfold renderParameterControlsWithValues
  split
  · rfl
  · rw [mapM_displayed, Option.map_map]
    rfl

theorem read_text : (renderParameterControlsWithValues schema values).map
      (fun text => read text.toList) =
    (shownParameters schema values).map fun shown => some (formPieces schema shown) := by
  rw [text_eq]
  split
  · rename_i hempty
    have hnone : schema.parameters = [] := List.isEmpty_iff.mp hempty
    have hshown : shownParameters schema values = some [] := by
      simp [shownParameters, ParameterSchema.visible, hnone]
    have hnotice := writes_notice "This model does not expose configurable parameters."
      (by decide +kernel)
    have hpieces : formPieces schema [] =
        element "p" [] (chars "This model does not expose configurable parameters.") := by
      simp [formPieces, notice, hempty]
    rw [hshown, Option.map_some, Option.map_some, hpieces, ← read_write hnotice.named,
      ← hnotice.text]
    rfl
  · rename_i hempty
    rw [Option.map_map]
    refine Option.map_congr fun shown _ => ?_
    have hwrites := writes_form schema shown (fun h => hempty (List.isEmpty_iff.mpr h))
    rw [Function.comp_apply, hwrites.text, read_write hwrites.named]

/-- A reader of the form's markup finds the elements that are meant, with every text and every value
as it is, and so the names and the values of the controls, whatever characters they have. -/
theorem controls_markup :
    (renderParameterControlsWithValues schema values).map (fun text => read text.toList) =
        (shownParameters schema values).map (fun shown => some (formPieces schema shown)) ∧
      (renderParameterControlsWithValues schema values).map
          (fun text => (read text.toList).map fields) =
        (Parameters.renderParameterControlsWithValues schema values).map
          fun controls => some (fieldsOf controls) := by
  have hread := read_text schema values
  refine ⟨hread, ?_⟩
  have hfields := congrArg (Option.map (Option.map fields)) hread
  rw [Option.map_map, Option.map_map] at hfields
  rw [controls_eq, Option.map_map]
  refine hfields.trans (Option.map_congr fun shown _ => ?_)
  rw [Function.comp_apply, Option.map_some, fields_form, Function.comp_apply]

end Form

end Page
end OnshapeExport
