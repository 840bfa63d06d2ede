import OnshapeExport.CacheModel
import OnshapeExport.Lib.JsonCodec
import OnshapeExport.Lib.Table
import OnshapeExport.ParseJson

/-!
# ConfigurationEncoding

The evidence of `configuration_encoding.rs` that a configuration was encoded by Onshape: the
context and the request recomputed from the arguments of a call, the stored row, and the check
that the row is about them. `url::Url` stands behind `canonical_origin`, which is a parameter.

* `expected` — what a call recomputes.
* `validateRecord` — the check of a row, stored or fresh.
* `validateRecord_ok` — what an accepted row hands out.
-/

namespace OnshapeExport
namespace Encoding

open CacheKey CacheModel Catalogs Json OnshapeApi Relational Selection

def contextDomain : String := "onshape-export-configuration-encoding-context-v1"
def evidenceLimit : Nat := 65536
def parameterSchemaVersion : Nat := 4

def apiBaselineSha256 : String :=
  "eadcea471568f8737f51fffe794dae51b72c35a700d4a7ac11c98fd345ef2eed"

def failure (code : String) : ApiFailure :=
  (ApiFailure.new .operationalApiContractFailure code).operation "encodingValidation"

structure EncodingResolution where
  handoff : EncodingHandoff
  identity : EncodedConfigurationIdentity
deriving DecidableEq, Repr

/-! ## The context -/

structure EncodingContext where
  contextSchemaVersion : Nat
  apiOrigin : String
  apiMajorVersion : Nat
  openApiSha256 : String
  operationId : String
  method : String
  pathTemplate : String
  documentId : String
  versionId : String
  resolvedMicroversionId : String
  elementId : String
  elementKind : String
  linkDocumentId : Option String
  query : String
  configCanonicalizationVersion : Nat
  parameterSchemaVersion : Nat
deriving DecidableEq, Repr

open Fields in
/-- The query holds the version only. -/
def EncodingContext.fields : Fields EncodingContext :=
  ((required "contextSchemaVersion" (.unsigned 32)).and <| (required "apiOrigin" .str).and <|
    (required "apiMajorVersion" (.unsigned 32)).and <| (required "openApiSha256" .str).and <|
    (required "operationId" .str).and <| (required "method" .str).and <|
    (required "pathTemplate" .str).and <| (required "documentId" .str).and <|
    (required "versionId" .str).and <| (required "resolvedMicroversionId" .str).and <|
    (required "elementId" .str).and <| (required "elementKind" .str).and <|
    (nullable "linkDocumentId" .str).and <|
    (required "query" (.record true (required "versionId" .str))).and <|
    (required "configCanonicalizationVersion" (.unsigned 32)).and
      (required "parameterSchemaVersion" (.unsigned 32))).iso
    (fun (a, b, c, d, e, f, g, h, i, j, k, l, m, n, o, p) =>
      ⟨a, b, c, d, e, f, g, h, i, j, k, l, m, n, o, p⟩)
    (fun x => (x.contextSchemaVersion, x.apiOrigin, x.apiMajorVersion, x.openApiSha256,
      x.operationId, x.method, x.pathTemplate, x.documentId, x.versionId,
      x.resolvedMicroversionId, x.elementId, x.elementKind, x.linkDocumentId, x.query,
      x.configCanonicalizationVersion, x.parameterSchemaVersion))
    fun _ => rfl

def EncodingContext.codec : Codec EncodingContext := .record true EncodingContext.fields

theorem fits_context {c : EncodingContext} :
    EncodingContext.codec.Fits c ↔ c.contextSchemaVersion < 2 ^ 32 ∧ c.apiMajorVersion < 2 ^ 32 ∧
      c.configCanonicalizationVersion < 2 ^ 32 ∧ c.parameterSchemaVersion < 2 ^ 32 := by
  simp only [EncodingContext.codec, EncodingContext.fields, fits_record, fits_iso, fits_and,
    fits_required, fits_nullable, fits_str, fits_unsigned, enc_str_ne_null, true_and, and_true,
    ne_eq, not_false_eq_true, implies_true]
  constructor
  · rintro ⟨⟨h1, -⟩, ⟨h2, -⟩, ⟨h3, -⟩, h4, -⟩
    exact ⟨h1, h2, h3, h4⟩
  · rintro ⟨h1, h2, h3, h4⟩
    exact ⟨⟨h1, by omega⟩, ⟨h2, by omega⟩, ⟨h3, by omega⟩, h4, by omega⟩

def validateSource (source : ResolvedOnshapeSourceIdentity) : Except ApiFailure Unit :=
  if source.linkDocumentId.isSome || !([source.documentId, source.versionId,
      source.microversionId, source.elementId].all boundedVisibleAscii) then
    .error (failure "invalid_encoding_source")
  else .ok ()

section Context

variable (canonicalOrigin : String → Except ApiFailure String)

def context (origin : String) (source : ResolvedOnshapeSourceIdentity) :
    Except ApiFailure EncodingContext := do
  validateSource source
  let canonical ← canonicalOrigin origin
  if canonical ≠ origin then throw (failure "noncanonical_encoding_origin")
  return {
    contextSchemaVersion := 1
    apiOrigin := origin
    apiMajorVersion := 16
    openApiSha256 := apiBaselineSha256
    operationId := "encodeConfigurationMap"
    method := "POST"
    pathTemplate := "/api/v16/elements/d/\x7bdid\x7d/e/\x7beid\x7d/configurationencodings"
    documentId := source.documentId
    versionId := source.versionId
    resolvedMicroversionId := source.microversionId
    elementId := source.elementId
    elementKind := source.elementKind.key
    linkDocumentId := none
    query := source.versionId
    configCanonicalizationVersion := canonicalizationVersion
    parameterSchemaVersion := parameterSchemaVersion }

end Context

/-! ## Typed values -/

/-- The typed values of a configuration, by parameter. -/
abbrev TypedValues := List (String × CanonicalParameterValue)

def QuantityDimension.codec : Codec QuantityDimension :=
  .enum (fun | .length => "length" | .angle => "angle") [.length, .angle]
    (by rintro (_ | _) <;> simp) (by rintro (_ | _) (_ | _) <;> simp)

open Fields in
def CanonicalParameterValue.codec : Codec CanonicalParameterValue :=
  .tagged "kind" false
    (((Variants.case "text" (required "value" .str)).or <|
      (Variants.case "number"
        ((required "numerator" .str).and (required "denominator" .str))).or <|
      (Variants.case "quantity"
        ((required "dimension" QuantityDimension.codec).and <| (required "numerator" .str).and <|
          (required "denominator" .str).and (required "unit" .str))).or <|
      (Variants.case "boolean" (required "value" .bool)).or
        (Variants.case "enum" (required "value" .str))).iso
      (fun
        | .inl value => .text value
        | .inr (.inl (n, d)) => .number n d
        | .inr (.inr (.inl (dimension, n, d, unit))) => .quantity dimension n d unit
        | .inr (.inr (.inr (.inl value))) => .boolean value
        | .inr (.inr (.inr (.inr value))) => .enum value)
      (fun
        | .text value => .inl value
        | .number n d => .inr (.inl (n, d))
        | .quantity dimension n d unit => .inr (.inr (.inl (dimension, n, d, unit)))
        | .boolean value => .inr (.inr (.inr (.inl value)))
        | .enum value => .inr (.inr (.inr (.inr value))))
      (by rintro (_ | _ | _ | _ | _) <;> rfl))

def typedCodec : Codec TypedValues := .map CanonicalParameterValue.codec

/-- `BigUint::from_str_radix`. -/
def parseBigUint (digits : List Char) : Option Nat :=
  let digits :=
    match digits with
    | '+' :: rest => if rest.head? = some '+' then digits else rest
    | _ => digits
  if digits = [] ∨ digits.head? = some '_' ∨ !digits.all (fun c => c.isDigit || c = '_') then none
  else some (Nat.ofDigitChars 10 (digits.filter (· ≠ '_')) 0)

/-- `BigInt::from_str_radix`. -/
def parseBigInt (s : String) : Option Int :=
  match s.toList with
  | '-' :: rest => (parseBigUint (if rest.head? = some '+' then '-' :: rest else rest)).map fun n => -n
  | digits => (parseBigUint digits).map fun n => n

/-- Digits without a sign and without underscores are read as they stand. -/
theorem parseBigUint_digits {cs : List Char} (hne : cs ≠ []) (h : ∀ c ∈ cs, c.isDigit = true) :
    parseBigUint cs = some (Nat.ofDigitChars 10 cs 0) := by
  have hunder : ∀ c ∈ cs, c ≠ '_' := by
    rintro c hc rfl
    exact absurd (h _ hc) (by decide)
  have hfilter : cs.filter (· ≠ '_') = cs := by
    rw [List.filter_eq_self]
    simpa using hunder
  have hall : cs.all (fun c => c.isDigit || c = '_') = true := by
    rw [List.all_eq_true]
    intro c hc
    rw [h c hc, Bool.true_or]
  have hhead : cs.head? ≠ some '_' := fun he => hunder _ (List.mem_of_head? he) rfl
  unfold parseBigUint
  split
  · exact absurd (h _ List.mem_cons_self) (by decide)
  · simp only [hfilter, hall, hhead, hne, Bool.not_true, Bool.false_eq_true, or_self, if_false]

theorem toList_toString (z : Int) : (toString z).toList =
    if z < 0 then '-' :: Nat.toDigits 10 z.natAbs else Nat.toDigits 10 z.natAbs := by
  cases z with
  | ofNat n => exact String.toList_ofList
  | negSucc n =>
    rw [if_pos (Int.negSucc_lt_zero n)]
    exact String.toList_append.trans (congrArg (['-'] ++ ·) String.toList_ofList)

theorem parseBigInt_toString (z : Int) : parseBigInt (toString z) = some z := by
  have hdigit : ∀ c ∈ Nat.toDigits 10 z.natAbs, c.isDigit = true :=
    fun c hc => Nat.isDigit_of_mem_toDigits (by decide) (by decide) hc
  have hread : parseBigUint (Nat.toDigits 10 z.natAbs) = some z.natAbs := by
    rw [parseBigUint_digits Nat.toDigits_ne_nil hdigit, Nat.ofDigitChars_ten_toDigits]
  have hnot (x : Char) (hx : x.isDigit = false) : (Nat.toDigits 10 z.natAbs).head? ≠ some x := by
    intro h
    rw [hdigit x (List.mem_of_head? h)] at hx
    cases hx
  have hlist := toList_toString z
  unfold parseBigInt
  split
  · rename_i rest hrest
    rw [hrest] at hlist
    split at hlist
    · rename_i hz
      rw [(List.cons.inj hlist).2, if_neg (hnot '+' rfl), hread]
      have hneg : -(z.natAbs : Int) = z := by omega
      exact congrArg some hneg
    · exact absurd (by rw [← hlist]; rfl) (hnot '-' rfl)
  · rename_i hrest
    split at hlist
    · exact absurd hlist (hrest _)
    · rename_i hz
      rw [hlist, hread]
      have habs : (z.natAbs : Int) = z := by omega
      exact congrArg some habs

/-- A reduced fraction in lowest terms, printed as `BigRational` prints it. -/
def validateRational (numerator denominator : String) : Except ApiFailure Unit :=
  match parseBigInt numerator, parseBigInt denominator with
  | some n, some d =>
    if d ≤ 0 then .error (failure "invalid_encoding_rational")
    else if toString (n / (n.gcd d : Int)) ≠ numerator ∨
        toString (d / (n.gcd d : Int)) ≠ denominator then
      .error (failure "noncanonical_encoding_rational")
    else .ok ()
  | _, _ => .error (failure "invalid_encoding_rational")

def validateTypedValue : CanonicalParameterValue → Except ApiFailure Unit
  | .number numerator denominator => validateRational numerator denominator
  | .quantity dimension numerator denominator unit =>
    if (dimension = .length ∧ unit = "m") ∨
        (dimension = .angle ∧ (unit = "deg" ∨ unit = "rad")) then
      validateRational numerator denominator
    else .error (failure "invalid_encoding_quantity_unit")
  | _ => .ok ()

def validateTypedValues (typed : TypedValues) : Except ApiFailure Unit :=
  typed.forM fun m => validateTypedValue m.2

def fractionExpression (numerator denominator : String) : String :=
  "(" ++ numerator ++ "/" ++ denominator ++ ")"

def encodingRequestValues (typed : TypedValues) : List (String × String) :=
  typed.map fun m => (m.1,
    match m.2 with
    | .text value => value
    | .enum value => value
    | .boolean value => toString value
    | .number numerator denominator => fractionExpression numerator denominator
    | .quantity _ numerator denominator unit =>
      fractionExpression numerator denominator ++ " " ++ unit)

def requestBody (typed : TypedValues) : Value :=
  .ofFields [("parameters", .array ((encodingRequestValues typed).map fun m =>
    .ofFields [("parameterId", .string m.1), ("parameterValue", .string m.2)]))]

/-! ## What a call recomputes -/

structure Expected where
  sourceHash : String
  configHash : String
  contextHash : String
  context : EncodingContext
  request : Value
deriving DecidableEq

/-- What an encoding is stored under. -/
structure EncodingKey where
  sourceHash : String
  configHash : String
  encodingContextHash : String
deriving DecidableEq, Repr

def Expected.key (e : Expected) : EncodingKey := ⟨e.sourceHash, e.configHash, e.contextHash⟩

variable (digests : Digests) (hashes : ExportHashes)
  (canonicalOrigin : String → Except ApiFailure String)

def expected (origin : String) (source : ResolvedOnshapeSourceIdentity) (typed : TypedValues) :
    Except ApiFailure Expected := do
  validateTypedValues typed
  let _ ← parseJson digests.text (canonicalJson digests (typedCodec.enc typed)) evidenceLimit
  let context ← context canonicalOrigin origin source
  let sourceHash := hashes.sourceHash source.payload
  let request := requestBody typed
  -- the evidence stored with the row has to pass the reader too
  let _ ← parseJson digests.text (canonicalJson digests request) evidenceLimit
  return {
    sourceHash := sourceHash
    configHash := hashes.configHash
      ⟨canonicalizationVersion, sourceHash, parameterSchemaVersion, typed⟩
    contextHash := hashJson digests contextDomain (EncodingContext.codec.enc context)
    context := context
    request := request }

/-! ## The stored row -/

structure ConfigurationEncodingRecord where
  sourceHash : String
  configHash : String
  encodingContextHash : String
  encodingContextJson : String
  encodedId : String
  queryParam : String
  requestJson : String
  responseJson : String
deriving DecidableEq, Repr

def ConfigurationEncodingRecord.key (r : ConfigurationEncodingRecord) : EncodingKey :=
  ⟨r.sourceHash, r.configHash, r.encodingContextHash⟩

instance : Schema ConfigurationEncodingRecord EncodingKey where
  key := ConfigurationEncodingRecord.key
  clash a b := a.key = b.key
  clash_of_key h := h
  clash_symm h := h.symm

instance : DecidableRel (Schema.clash (α := ConfigurationEncodingRecord)) :=
  fun a b => inferInstanceAs (Decidable (a.key = b.key))

structure ConfigurationSelection where
  sourceHash : String
  configHash : String
  valuesJson : String
  validationJson : String
deriving DecidableEq, Repr

def ConfigurationSelection.key (r : ConfigurationSelection) : String × String :=
  (r.sourceHash, r.configHash)

instance : Schema ConfigurationSelection (String × String) where
  key := ConfigurationSelection.key
  clash a b := a.key = b.key
  clash_of_key h := h
  clash_symm h := h.symm

instance : DecidableRel (Schema.clash (α := ConfigurationSelection)) :=
  fun a b => inferInstanceAs (Decidable (a.key = b.key))

/-! ## Validation -/

def asStr : Value → Option String
  | .string s => some s
  | _ => none

def responseIdentity (response : Value) (requireQuery : Bool) :
    Except ApiFailure EncodedConfigurationIdentity :=
  match response with
  | .object members =>
    match ((get? members "encodedId").bind asStr).filter boundedVisibleAscii with
    | none => .error (failure "invalid_encoding_encoded_id")
    | some encodedId =>
      let queryParam := ((get? members "queryParam").bind asStr).filter fun value =>
        value ≠ "" && value.toList.all isAsciiGraphic
      if requireQuery && queryParam.isNone then .error (failure "invalid_encoding_query_param")
      else .ok ⟨encodedId, queryParam.getD ""⟩
  | _ => .error (failure "invalid_encoding_response")

def validateRecord (record : ConfigurationEncodingRecord) (e : Expected) (requireQuery : Bool) :
    Except ApiFailure EncodingResolution := do
  let storedContext ← parseJson digests.text record.encodingContextJson evidenceLimit
  match EncodingContext.codec.dec storedContext with
  | none => .error (failure "invalid_encoding_context")
  | some decoded =>
    if decoded ≠ e.context ∨ storedContext ≠ EncodingContext.codec.enc e.context ∨
        hashJson digests contextDomain (EncodingContext.codec.enc decoded) ≠
          record.encodingContextHash ∨
        record.sourceHash ≠ e.sourceHash ∨ record.configHash ≠ e.configHash ∨
        record.encodingContextHash ≠ e.contextHash then
      .error (failure "encoding_context_mismatch")
    else do
      let request ← parseJson digests.text record.requestJson evidenceLimit
      if request ≠ e.request then .error (failure "encoding_request_mismatch")
      else do
        let response ← parseJson digests.text record.responseJson evidenceLimit
        let identity ← responseIdentity response requireQuery
        if record.encodedId ≠ identity.encodedId ∨
            (requireQuery ∧ record.queryParam ≠ identity.queryParam) then
          .error (failure "encoding_response_mismatch")
        else
          .ok ⟨⟨e.sourceHash, e.configHash, e.contextHash, identity.encodedId⟩, identity⟩

/-- What a resolution is about. -/
def EncodingResolution.key (r : EncodingResolution) : EncodingKey :=
  ⟨r.handoff.sourceHash, r.handoff.configHash, r.handoff.encodingContextHash⟩

theorem bind_eq_ok {α β : Type} {x : Except ApiFailure α} {f : α → Except ApiFailure β} {b : β} :
    (x >>= f) = .ok b ↔ ∃ a, x = .ok a ∧ f a = .ok b := by
  cases x with
  | error e => simp [bind, Except.bind]
  | ok a => simp [bind, Except.bind]

/-- An accepted row is stored under the recomputed key, and its encoded id is handed out. -/
theorem validateRecord_ok {record : ConfigurationEncodingRecord} {e : Expected}
    {requireQuery : Bool} {r : EncodingResolution}
    (h : validateRecord digests record e requireQuery = .ok r) :
    record.key = e.key ∧ r.key = e.key ∧ r.handoff.encodedId = record.encodedId := by
  unfold validateRecord at h
  obtain ⟨storedContext, -, h⟩ := bind_eq_ok.mp h
  split at h
  · cases h
  · split at h
    · cases h
    · rename_i hctx
      simp only [not_or, not_not] at hctx
      obtain ⟨-, -, -, hs, hc, hx⟩ := hctx
      obtain ⟨request, -, h⟩ := bind_eq_ok.mp h
      split at h
      · cases h
      · obtain ⟨response, -, h⟩ := bind_eq_ok.mp h
        obtain ⟨identity, -, h⟩ := bind_eq_ok.mp h
        split at h
        · cases h
        · rename_i hid
          simp only [not_or, not_not] at hid
          cases h
          exact ⟨by simp [ConfigurationEncodingRecord.key, Expected.key, hs, hc, hx], rfl,
            hid.1.symm⟩

end Encoding
end OnshapeExport
