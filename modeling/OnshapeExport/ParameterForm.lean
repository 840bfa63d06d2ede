import OnshapeExport.Canonicalization

/-!
# ParameterForm

The form of a model page in `main.rs`: the controls that are rendered for the parameters, the
fields that a browser submits for them, and how the fields become values again. Of the markup the
names, the values and what is selected or checked are kept.

* `renderParameterControlsWithValues` — the control of every parameter that is not hidden.
* `Control.fields` — what is submitted for a control, in the order of the markup.
* `normalizeFormValues` — the values by parameter; a quantity has two fields.
-/

namespace OnshapeExport
namespace Parameters

open CacheModel Decimals Json

/-! ## Units to choose from -/

def lengthUnitOptions : List String := ["mm", "cm", "m", "in", "ft"]

def angleUnitOptions : List String := ["deg", "rad"]

def unitOptions : QuantityDimension → List String
  | .length => lengthUnitOptions
  | .angle => angleUnitOptions

def quantityUnitOptions (p : Parameter) : Option (List String) :=
  p.quantityUnit.map fun unit => unitOptions unit.dimension

def defaultQuantityUnit (p : Parameter) : Option String :=
  p.quantityUnit.map QuantityUnit.abbreviation

/-! ## What is shown -/

/-- `none` stands for the panic. -/
def Parameter.configurationValue (p : Parameter) (value : String) : Option String :=
  match parseDecimalRational value.toList with
  | none => some value
  | some number =>
    (rationalDecimalString number).map fun number =>
      match p.quantityUnit with
      | some unit => String.ofList number ++ " " ++ unit.abbreviation
      | none => String.ofList number

/-- The value of the parameter, else its default, else nothing. -/
def Parameter.displayed (p : Parameter) (values : SortedMap String) : Option String :=
  match values.get? p.id, p.defaultValue with
  | some value, _ => some value
  | none, some value => p.configurationValue value
  | none, none => some ""

def splitQuantityDisplayValue (value defaultUnit : String) : String × String :=
  let trimmed := trim value.toList
  match trim (trimmed.rtakeWhile Char.isAlpha) with
  | [] => (String.ofList trimmed, defaultUnit)
  | unit => (String.ofList (trim (trimmed.rdropWhile Char.isAlpha)), String.ofList unit)

/-! ## Controls -/

/-- A control as the user sees it. A select is told by the value of the chosen option. -/
inductive Control where
  | input (value : String)
  | quantity (value unit : String)
  | checkbox (checked : Bool)
  | select (value : Option String)
  | disabled (value : String)
deriving DecidableEq

/-- A browser chooses the selected option, and the first one when there is none. -/
def chosen (options : List String) (selected : String) : Option String :=
  if selected ∈ options then some selected else options.head?

def renderControl (p : Parameter) (displayValue : String) : Control :=
  match p.kind with
  | .text => .input displayValue
  | .number =>
    match quantityUnitOptions p with
    | some options =>
      let (value, unit) := splitQuantityDisplayValue displayValue ((defaultQuantityUnit p).getD "")
      .quantity value ((chosen options unit).getD "")
    | none => .input displayValue
  | .boolean => .checkbox (displayValue ∈ ["true", "on", "1"])
  | .enum => .select (chosen (p.options.map ParameterOption.value) displayValue)
  | .unsupported => .disabled displayValue

abbrev Controls := List (Parameter × Control)

def ParameterSchema.visible (schema : ParameterSchema) : List Parameter :=
  schema.parameters.filter fun p => !p.hidden

def renderParameterControlsWithValues (schema : ParameterSchema) (values : SortedMap String) :
    Option Controls :=
  schema.visible.mapM fun p => (p.displayed values).map fun value => (p, renderControl p value)

/-! ## Fields -/

def valueName (id : String) : String := id ++ "__value"

def unitName (id : String) : String := id ++ "__unit"

/-- The hidden field of a checkbox comes first. -/
def Control.fields (id : String) : Control → List (String × String)
  | .input value => [(id, value)]
  | .quantity value unit => [(valueName id, value), (unitName id, unit)]
  | .checkbox checked => (id, "false") :: if checked then [(id, "true")] else []
  | .select value => value.toList.map fun value => (id, value)
  | .disabled _ => []

def fieldsOf (controls : Controls) : List (String × String) :=
  controls.flatMap fun e => e.2.fields e.1.id

/-- The last field of a name counts. -/
def submit (controls : Controls) : SortedMap String := .ofList (fieldsOf controls).reverse

/-! ## Values -/

def endsWith (s ending : String) : Bool := ending.toList.isSuffixOf s.toList

def isPartName (name : String) : Bool := endsWith name "__value" || endsWith name "__unit"

def trimText (s : String) : String := String.ofList (trim s.toList)

def normalizeQuantity (raw normalized : SortedMap String) (p : Parameter) : SortedMap String :=
  if p.kind ≠ .number ∨ quantityUnitOptions p = none then normalized
  else
    match (raw.get? (valueName p.id)).map trimText with
    | none => normalized
    | some value =>
      if value = "" then normalized.remove p.id
      else
        let unit := ((((raw.get? (unitName p.id)).map trimText).filter fun unit => unit ≠ "").or
          (defaultQuantityUnit p)).getD ""
        normalized.insert p.id (value ++ " " ++ unit)

def normalizeFormValues (schema : ParameterSchema) (raw : SortedMap String) : SortedMap String :=
  schema.parameters.foldl (normalizeQuantity raw) (raw.filterKeys fun name => !isPartName name)

end Parameters
end OnshapeExport
