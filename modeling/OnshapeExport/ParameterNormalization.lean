import OnshapeExport.Parameters

/-!
# ParameterNormalization

How `parameters.rs` reads the parameters of a configuration out of what Onshape answers. The text
that a number is printed as is a parameter.

* `normalizeVisibilityCondition` — a tree of conditions, or none where a node is not understood.
* `normalizeParameter` — one parameter: its kind, its options and its default.
* `normalizeConfiguration` — all of them; `applyOverrides` is what the catalog says on top.
-/

namespace OnshapeExport
namespace Parameters

open CacheModel Catalogs Decimals Json

/-! ## Texts -/

def toAsciiLowercase (s : String) : String := String.ofList (s.toList.map Char.toLower)

def toAsciiUppercase (s : String) : String := String.ofList (s.toList.map Char.toUpper)

/-- `str::contains`. -/
def contains (s needle : String) : Bool :=
  s.toList.tails.any fun rest => needle.toList.isPrefixOf rest

def asObject : Value → Option (List (String × Value))
  | .object members => some members
  | _ => none

def asArray : Value → Option (List Value)
  | .array items => some items
  | _ => none

def asBool : Value → Option Bool
  | .bool b => some b
  | _ => none

def asText : Value → Option String
  | .string s => some s
  | _ => none

/-- The members of the object under `message`, or the members themselves. -/
def messageOf (object : List (String × Value)) : List (String × Value) :=
  ((get? object "message").bind asObject).getD object

def firstText (object : List (String × Value)) (names : List String) : Option String :=
  (names.filterMap (get? object)).findSome? asText

section Normalize

variable (numberText : Number → String)

def valueToString : Value → Option String
  | .string value => some value
  | .number value => some (numberText value)
  | .bool value => some (toString value)
  | _ => none

def firstString (object : List (String × Value)) (names : List String) : Option String :=
  (names.filterMap (get? object)).findSome? (valueToString numberText)

/-! ## Visibility -/

def visibilityConditionValues (value : Value) (inArray : Bool) : Option (List String) :=
  let values :=
    match inArray, value with
    | true, .array items => items.mapM (valueToString numberText)
    | _, _ => (valueToString numberText value).map fun text => [text]
  values.filter fun values => values ≠ []

def normalizeEqualVisibilityCondition (message : List (String × Value)) :
    Except Unit (Option ParameterVisibilityCondition) :=
  match firstString numberText message ["parameterId"], get? message "value" with
  | some parameterId, some value =>
    let inArray := ((get? message "inArray").bind asBool).getD false
    match visibilityConditionValues numberText value inArray with
    | some values => .ok (some (.equal parameterId values))
    | none => .error ()
  | _, _ => .error ()

def visibilityTypeHint (object message : List (String × Value)) : String :=
  toAsciiLowercase (((firstText object ["typeName", "type"]).or
    (firstText message ["typeName", "type"])).getD "")

def hasKey (members : List (String × Value)) (key : String) : Bool := (get? members key).isSome

def isLogicalCondition (object message : List (String × Value)) : Bool :=
  contains (visibilityTypeHint object message) "visibilitylogical" ||
    (hasKey message "operation" && hasKey message "children")

def isEqualCondition (object message : List (String × Value)) : Bool :=
  contains (visibilityTypeHint object message) "visibilityonequal" ||
    (hasKey message "parameterId" && hasKey message "value")

/-- What the conditions of the children come to. -/
def joinConditions (operation : String) (conditions : List ParameterVisibilityCondition) :
    Except Unit (Option ParameterVisibilityCondition) :=
  if conditions = [] then .ok none
  else if operation = "AND" then .ok (some (.all conditions))
  else if operation = "OR" then .ok (some (.any conditions))
  else .error ()

theorem sizeOf_get? {members : List (String × Value)} {key : String} {v : Value}
    (h : get? members key = some v) : sizeOf v < sizeOf members := by
  have hmem := List.sizeOf_lt_of_mem (mem_of_get? h)
  simp only [Prod.mk.sizeOf_spec] at hmem
  omega

theorem sizeOf_messageOf (object : List (String × Value)) :
    sizeOf (messageOf object) ≤ sizeOf object := by
  rw [messageOf]
  cases hm : get? object "message" with
  | none => simp
  | some v =>
    have hlt := sizeOf_get? hm
    cases v with
    | object members =>
      simp only [Value.object.sizeOf_spec] at hlt
      simp only [Option.bind_some, asObject, Option.getD_some]
      omega
    | _ => simp [asObject]

/-- The children of a logical condition. -/
def childrenOf (message : List (String × Value)) : Option (List Value) :=
  (get? message "children").bind asArray

theorem sizeOf_childrenOf {message : List (String × Value)} {children : List Value}
    (h : childrenOf message = some children) : sizeOf children < sizeOf message := by
  rw [childrenOf] at h
  obtain ⟨v, hv, hchildren⟩ := Option.bind_eq_some_iff.mp h
  have hlt := sizeOf_get? hv
  cases v with
  | array items =>
    obtain rfl := Option.some.inj hchildren
    simp only [Value.array.sizeOf_spec] at hlt
    omega
  | _ => cases hchildren

mutual

def normalizeVisibilityConditionResult (v : Value) :
    Except Unit (Option ParameterVisibilityCondition) :=
  match v with
  | .object object =>
    let message := messageOf object
    if message = [] then .ok none
    else if isLogicalCondition object message then
      match (firstText message ["operation"]).map toAsciiUppercase,
          _hchildren : childrenOf message with
      | some operation, some children => normalizeChildren operation children []
      | _, _ => .error ()
    else if isEqualCondition object message then
      normalizeEqualVisibilityCondition numberText message
    else .error ()
  | _ => .error ()
termination_by sizeOf v
decreasing_by
  have hchild := sizeOf_childrenOf _hchildren
  have hmessage : sizeOf message ≤ sizeOf object := sizeOf_messageOf object
  simp only [Value.object.sizeOf_spec]
  omega

/-- The loop over the children: an alternative without a condition is always met. -/
def normalizeChildren (operation : String) (children : List Value)
    (conditions : List ParameterVisibilityCondition) :
    Except Unit (Option ParameterVisibilityCondition) :=
  match children with
  | [] => joinConditions operation conditions
  | child :: children =>
    match normalizeVisibilityConditionResult child with
    | .error () => .error ()
    | .ok (some condition) => normalizeChildren operation children (conditions ++ [condition])
    | .ok none =>
      if operation = "OR" then .ok none else normalizeChildren operation children conditions
termination_by sizeOf children

end

def normalizeVisibilityCondition (v : Value) : Option ParameterVisibilityCondition :=
  match normalizeVisibilityConditionResult numberText v with
  | .ok condition => condition
  | .error () => none

/-! ## Options -/

def optionOf (item : Value) : Option ParameterOption :=
  match valueToString numberText item with
  | some text => some ⟨text, text⟩
  | none => do
    let object ← asObject item
    let message := messageOf object
    let value ← firstString numberText message ["option", "value", "id", "message"]
    let label := (firstString numberText message
      ["optionName", "label", "name", "displayName"]).getD value
    return ⟨value, label⟩

/-- The options of the object and of its message, in the order they are looked for. -/
def extractOptions (value : Value) : List ParameterOption :=
  match value with
  | .object object =>
    let message := (get? object "message").bind asObject
    let arrays := [get? object "options", get? object "items",
      message.bind fun message => get? message "options",
      message.bind fun message => get? message "items"]
    ((arrays.filterMap id).filterMap asArray).flatten.filterMap (optionOf numberText)
  | _ => []

/-! ## Parameters -/

def rangeAndDefaultMessage (message : List (String × Value)) : Option (List (String × Value)) :=
  (((get? message "rangeAndDefault").bind asObject).bind fun range => get? range "message").bind
    asObject

/-- A whole number is written without a fraction where an integer is asked for. -/
def normalizeDefaultValue (value : Option Value) (isInteger : Bool) : Option String :=
  (value.bind (valueToString numberText)).map fun text =>
    match parseDecimalRational text.toList with
    | some number => if isInteger ∧ number.den = 1 then toString number.num else text
    | none => text

def typeHint (object message : List (String × Value)) : String :=
  toAsciiLowercase (((firstText object ["typeName", "parameterType", "type"]).or
    (firstText message ["typeName", "parameterType", "quantityType", "type"])).getD "")

def isIntegerParameter (object message : List (String × Value)) : Bool :=
  contains (typeHint object message) "integer" ||
    firstText message ["quantityType"] = some "INTEGER"

def rawDefault (message : List (String × Value)) : Option Value :=
  (((get? message "defaultValue").or (get? message "default")).or (get? message "value")).or
    ((rangeAndDefaultMessage message).bind fun range => get? range "defaultValue")

def unitsOf (message : List (String × Value)) : Option String :=
  (((rangeAndDefaultMessage message).bind fun range => get? range "units").bind
    (valueToString numberText)).filter fun units => units ≠ ""

def isBool : Value → Bool
  | .bool _ => true
  | _ => false

def kindOf (object : List (String × Value)) (options : List ParameterOption)
    (typeHint : String) (defaultValue : Option String) : ParameterKind :=
  if options ≠ [] then .enum
  else if contains typeHint "bool" || object.any (fun m => isBool m.2) then .boolean
  else if contains typeHint "double" || contains typeHint "number" ||
      contains typeHint "integer" || contains typeHint "real" || contains typeHint "length" ||
      contains typeHint "angle" ||
      defaultValue.any (fun value => (parseDecimalRational value.toList).isSome) then .number
  else if contains typeHint "string" || contains typeHint "text" then .text
  else .unsupported

def normalizeParameter (value : Value) : Option Parameter := do
  let object ← asObject value
  let message := messageOf object
  let id ← firstString numberText message ["parameterId", "id", "messageId"]
  let label := (firstString numberText message ["parameterName", "name", "label"]).getD id
  let hint := typeHint object message
  let isInteger := isIntegerParameter object message
  let options := extractOptions numberText value
  let defaultValue := normalizeDefaultValue numberText (rawDefault message) isInteger
  return {
    id := id
    label := label
    description := firstString numberText message ["description", "helpText"]
    kind := kindOf object options hint defaultValue
    required := ((get? message "required").bind asBool).getD false
    defaultValue := defaultValue
    options := options
    hidden := false
    visibilityCondition := ((get? message "visibilityCondition").or
      (get? object "visibilityCondition")).bind (normalizeVisibilityCondition numberText)
    precision := if isInteger then some 0 else none
    widget := none
    units := unitsOf numberText message
    raw := value }

/-! ## Configurations -/

mutual

/-- The first array of parameters, in the object itself or below one of its members. -/
def findParameterArray : Value → Option (List Value)
  | .object members =>
    ((((get? members "configurationParameters").or (get? members "parameters")).bind asArray)).or
      (findInMembers members)
  | _ => none

def findInMembers : List (String × Value) → Option (List Value)
  | [] => none
  | (_, v) :: members => (findParameterArray v).or (findInMembers members)

end

def normalizeConfiguration (source : OnshapeSource) (raw : Value) : ParameterSchema where
  schemaVersion := schemaVersion
  source := source
  parameters := ((findParameterArray raw).getD []).filterMap (normalizeParameter numberText)

end Normalize

/-! ## Overrides -/

def Parameter.override (p : Parameter) (o : ParameterOverride) : Parameter :=
  { p with
    label := o.label.getD p.label
    description := o.description.or p.description
    hidden := o.hidden || p.hidden
    precision := o.precision.or p.precision
    widget := o.widget.or p.widget }

def applyOverrides (schema : ParameterSchema) (overrides : List (String × ParameterOverride)) :
    ParameterSchema :=
  { schema with
    parameters := schema.parameters.map fun p =>
      match get? overrides p.id with
      | none => p
      | some o => p.override o }

end Parameters
end OnshapeExport
