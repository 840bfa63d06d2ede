import Mathlib.Data.List.DropRight
import OnshapeExport.CacheModel
import OnshapeExport.Catalog
import OnshapeExport.Lib.Decimal
import OnshapeExport.Lib.SortedMap

/-!
# Parameters

The parameters of a model and the check of submitted values, as in `parameters.rs`. A number is
read as an exact rational and written as a decimal; where the source expects a decimal to end, a
`none` stands for the panic.

* `ParameterSchema`, `Parameter` — the normalized parameters.
* `parseDecimalRational`, `rationalDecimalString` — decimals, read and written.
* `parseQuantity`, `canonicalQuantityValue` — numbers with units.
* `validateValues` — the check; `readValue` is what it makes of one text.
-/

namespace OnshapeExport
namespace Parameters

open CacheModel Catalogs Decimals Json

def schemaVersion : Nat := 4

inductive ParameterKind where
  | text | number | boolean | enum | unsupported
deriving DecidableEq, Repr

structure ParameterOption where
  value : String
  label : String
deriving DecidableEq, Repr

inductive ParameterVisibilityCondition where
  | all (conditions : List ParameterVisibilityCondition)
  | any (conditions : List ParameterVisibilityCondition)
  | equal (parameterId : String) (values : List String)

structure Parameter where
  id : String
  label : String
  description : Option String
  kind : ParameterKind
  required : Bool
  defaultValue : Option String
  options : List ParameterOption
  hidden : Bool
  visibilityCondition : Option ParameterVisibilityCondition
  precision : Option Nat
  widget : Option String
  units : Option String
  raw : Value

structure ParameterSchema where
  schemaVersion : Nat
  source : OnshapeSource
  parameters : List Parameter

structure ValidatedConfiguration where
  values : SortedMap String
  typedValues : SortedMap CanonicalParameterValue
deriving DecidableEq

/-! ## Decimals -/

/-- `str::trim`. -/
def trim (cs : List Char) : List Char := (cs.dropWhile isWhiteSpace).rdropWhile isWhiteSpace

/-- `fractional.len() as u32`. -/
def asU32 (n : Nat) : Nat := n % 2 ^ 32

def splitSign : List Char → Sign × List Char
  | '-' :: unsigned => (.minus, unsigned)
  | '+' :: unsigned => (.plus, unsigned)
  | unsigned => (.none, unsigned)

/-- The integer and the fraction, split at the point. -/
def splitPoint (unsigned : List Char) : Option (List Char × List Char) :=
  match unsigned.splitOn '.' with
  | [integer] => some (integer, [])
  | [integer, fractional] => some (integer, fractional)
  | _ => none

def parseDecimalRational (value : List Char) : Option ℚ :=
  let (sign, unsigned) := splitSign (trim value)
  match splitPoint unsigned with
  | none => none
  | some (integer, fractional) =>
    if integer = [] ∧ fractional = [] then none
    else if !integer.all Char.isDigit ∨ !fractional.all Char.isDigit then none
    else some (sign.apply (digits (integer ++ fractional) / 10 ^ asU32 fractional.length))

def rationalParts (value : ℚ) : String × String := (toString value.num, toString value.den)

/-- The loop divides the remainder until nothing is left of it. -/
def rationalDecimalString (value : ℚ) : Option (List Char) :=
  if stripTen value.den ≠ 1 then none
  else
    let sign := if value.num < 0 then ['-'] else []
    let integer := value.num.natAbs / value.den
    let remainder := value.num.natAbs % value.den
    if remainder = 0 then
      if integer = 0 then some ['0'] else some (sign ++ Nat.toDigits 10 integer)
    else
      let fractional := (fractionDigits value.den value.den remainder).rdropWhile (· = '0')
      if integer = 0 ∧ sign = ['-'] ∧ fractional.all (· = '0') then some ['0']
      else some (sign ++ (Nat.toDigits 10 integer ++ '.' :: fractional))

/-! ## Units -/

inductive QuantityUnit where
  | millimeter | centimeter | meter | inch | foot | degree | radian
deriving DecidableEq, Repr

namespace QuantityUnit

def fromOnshapeUnit : String → Option QuantityUnit
  | "millimeter" => some .millimeter
  | "centimeter" => some .centimeter
  | "meter" => some .meter
  | "inch" => some .inch
  | "foot" => some .foot
  | "degree" => some .degree
  | "radian" => some .radian
  | _ => none

def abbreviation : QuantityUnit → String
  | .millimeter => "mm"
  | .centimeter => "cm"
  | .meter => "m"
  | .inch => "in"
  | .foot => "ft"
  | .degree => "deg"
  | .radian => "rad"

def fromAbbreviation : String → Option QuantityUnit
  | "mm" => some .millimeter
  | "cm" => some .centimeter
  | "m" => some .meter
  | "in" => some .inch
  | "ft" => some .foot
  | "deg" => some .degree
  | "rad" => some .radian
  | _ => none

def dimension : QuantityUnit → QuantityDimension
  | .millimeter | .centimeter | .meter | .inch | .foot => .length
  | .degree | .radian => .angle

def lengthMetersFactor : QuantityUnit → Option ℚ
  | .millimeter => some (1 / 1000)
  | .centimeter => some (1 / 100)
  | .meter => some 1
  | .inch => some (127 / 5000)
  | .foot => some (381 / 1250)
  | .degree | .radian => none

end QuantityUnit

inductive QuantityParseError where
  | number | unknownUnit | incompatibleUnit
deriving DecidableEq, Repr

/-- The text before the letters at its end, and the letters. -/
def trailingQuantityUnit (value : List Char) : Option (List Char × List Char) :=
  let trimmed := value.rdropWhile isWhiteSpace
  match trimmed.rtakeWhile Char.isAlpha with
  | [] => none
  | unit => some (trimmed.rdropWhile Char.isAlpha, unit)

def parseQuantity (value : List Char) (defaultUnit : QuantityUnit) :
    Except QuantityParseError (ℚ × QuantityUnit) := do
  let trimmed := trim value
  let (number, unit) ←
    match trailingQuantityUnit trimmed with
    | some (start, unit) =>
      if start = [] then .error .number
      else
        match QuantityUnit.fromAbbreviation (String.ofList unit) with
        | none => .error .unknownUnit
        | some unit => .ok (trim start, unit)
    | none => .ok (trimmed, defaultUnit)
  if unit.dimension ≠ defaultUnit.dimension then throw .incompatibleUnit
  match parseDecimalRational number with
  | none => throw .number
  | some number => return (number, unit)

structure CanonicalQuantity where
  value : ℚ
  unit : QuantityUnit

/-- `none` is a length without a factor. -/
def canonicalQuantityValue (value : ℚ) (unit : QuantityUnit) : Option CanonicalQuantity :=
  match unit.dimension with
  | .length => unit.lengthMetersFactor.map fun factor => ⟨value * factor, .meter⟩
  | .angle => some ⟨value, unit⟩

def quantityErrorMessage (p : Parameter) (error : QuantityParseError)
    (dimension : QuantityDimension) : String :=
  match error, dimension with
  | .number, _ => p.label ++ " must be a plain decimal number"
  | .unknownUnit, _ => p.label ++ " has an unknown unit"
  | .incompatibleUnit, .length => p.label ++ " must use a length unit"
  | .incompatibleUnit, .angle => p.label ++ " must use an angle unit"

def Parameter.quantityUnit (p : Parameter) : Option QuantityUnit :=
  p.units.bind QuantityUnit.fromOnshapeUnit

/-! ## One value -/

/-- What is made of a text: a typed value and the text it is normalized to, or an error. -/
abbrev Reading := Except String (CanonicalParameterValue × String)

def canonicalizeDimensionedNumber (p : Parameter) (value : String) : Option Reading :=
  match p.quantityUnit with
  | none => some (.error (p.label ++ " uses an unsupported unit"))
  | some defaultUnit =>
    match parseQuantity value.toList defaultUnit with
    | .error e => some (.error (quantityErrorMessage p e defaultUnit.dimension))
    | .ok (number, unit) => do
      let canonical ← canonicalQuantityValue number unit
      let decimal ← rationalDecimalString canonical.value
      let (numerator, denominator) := rationalParts canonical.value
      return .ok (.quantity canonical.unit.dimension numerator denominator
        canonical.unit.abbreviation, String.ofList decimal ++ " " ++ canonical.unit.abbreviation)

def canonicalizeUnitlessNumber (p : Parameter) (value : String) : Option Reading :=
  match parseDecimalRational value.toList with
  | none => some (.error (p.label ++ " must be a plain decimal number"))
  | some number => do
    let normalized ← rationalDecimalString number
    let (numerator, denominator) := rationalParts number
    return .ok (.number numerator denominator, String.ofList normalized)

def normalizeBool (value : String) : String :=
  if value = "on" ∨ value = "1" then "true" else if value = "0" then "false" else value

def readValue (p : Parameter) (value : String) : Option Reading :=
  match p.kind with
  | .text => some (.ok (.text value, value))
  | .number =>
    if p.units.isSome then canonicalizeDimensionedNumber p value
    else canonicalizeUnitlessNumber p value
  | .boolean =>
    if value ∈ ["true", "false", "on", "0", "1"] then
      let normalized := normalizeBool value
      some (.ok (.boolean (normalized = "true"), normalized))
    else some (.error (p.label ++ " must be a boolean"))
  | .enum =>
    if p.options.any fun option => option.value = value then some (.ok (.enum value, value))
    else some (.error (p.label ++ " has an invalid option"))
  | .unsupported =>
    some (.error (p.label ++ " (" ++ p.id ++ ") uses an unsupported parameter type"))

/-! ## The check -/

/-- The text that counts for a parameter: an empty one is as good as none. -/
def Parameter.valueIn (p : Parameter) (submitted : SortedMap String) : Option String :=
  ((submitted.get? p.id).filter fun value => value ≠ "").or p.defaultValue

structure Validation where
  errors : List String
  values : SortedMap String
  typedValues : SortedMap CanonicalParameterValue

def validateParameter (submitted : SortedMap String) (s : Validation) (p : Parameter) :
    Option Validation :=
  if p.kind = .unsupported then
    some { s with errors := s.errors ++
      [p.label ++ " (" ++ p.id ++ ") uses an unsupported parameter type"] }
  else
    match p.valueIn submitted with
    | some value =>
      (readValue p value).map fun
        | .ok (typed, normalized) => { s with
            values := s.values.insert p.id normalized
            typedValues := s.typedValues.insert p.id typed }
        | .error e => { s with errors := s.errors ++ [e] }
    | none =>
      if p.required then some { s with errors := s.errors ++ [p.label ++ " is required"] }
      else some s

def ParameterSchema.known (schema : ParameterSchema) : List String :=
  schema.parameters.map Parameter.id

/-- A submitted value of no parameter is kept as a text. -/
def keepUnknown (known : List String) (s : Validation) (entry : String × String) : Validation :=
  if entry.1 ∈ known ∨ entry.2 = "" then s
  else { s with
    values := s.values.insert entry.1 entry.2
    typedValues := s.typedValues.insert entry.1 (.text entry.2) }

def validateValues (schema : ParameterSchema) (submitted : SortedMap String)
    (allowUnknown : Bool) : Option (Except (List String) ValidatedConfiguration) := do
  let unknown := (keys submitted.members).filter fun name => name ∉ schema.known
  let errors := if allowUnknown then [] else unknown.map fun name => "unknown parameter: " ++ name
  let s ← schema.parameters.foldlM (validateParameter submitted) ⟨errors, .empty, .empty⟩
  let s := if allowUnknown then submitted.members.foldl (keepUnknown schema.known) s else s
  return if s.errors = [] then .ok ⟨s.values, s.typedValues⟩ else .error s.errors

end Parameters
end OnshapeExport
