import OnshapeExport.GeneratorProtocol
import OnshapeExport.Lib.Checks
import OnshapeExport.ParseJson

/-!
# GeneratorValidation

The checks of `generator_protocol.rs` and the identities its documents carry. A document is
accepted when its fields are within their bounds and it carries the hash of everything else in it.

* `InputManifest.validate`, `GeneratorRequest.validate`, `GeneratorResult.validate`.
* `manifest_ok`, `request_ok` — what accepted documents satisfy.
-/

namespace OnshapeExport
namespace Protocol

open CacheKey Checks Json

def maxInputObjects : Nat := 256
def maxDiagnostics : Nat := 64
def maxErrors : Nat := 64
def maxIdentityLength : Nat := 256
def maxPathLength : Nat := 1024
def maxPathSegments : Nat := 64
def maxPathSegmentLength : Nat := 255
def maxDisplayLength : Nat := 1024
def maxReasonLength : Nat := 2048
def maxCodeLength : Nat := 128
def maxMessageLength : Nat := 2048
def maxContextEntries : Nat := 16
def maxContextKeyLength : Nat := 64
def maxContextValueLength : Nat := 512
def maxOccurrenceSegments : Nat := 64
def maxSafeJsonInteger : Nat := 9007199254740991

inductive ProtocolError where
  | documentTooLarge (document : String) (limit : Nat)
  | invalidJson (document message : String)
  | invalid (message : String)
  | identity (message : String)
deriving DecidableEq, Repr

abbrev Checked := Except ProtocolError Unit

/-- `ensure`, with the text of the error. -/
def require (p : Prop) [Decidable p] (message : String) : Checked := ensure p (.invalid message)

@[simp] theorem require_ok {p : Prop} [Decidable p] {message : String} :
    require p message = .ok () ↔ p := ensure_ok

/-! ## Strings -/

def isAsciiGraphic (c : Char) : Bool := 33 ≤ c.toNat && c.toNat ≤ 126

def isAsciiAlphanumeric (c : Char) : Bool :=
  ('a' ≤ c && c ≤ 'z') || ('A' ≤ c && c ≤ 'Z') || ('0' ≤ c && c ≤ '9')

/-- `char::is_control`. -/
def isControl (c : Char) : Bool := c.toNat < 32 || (127 ≤ c.toNat && c.toNat ≤ 159)

/-- A string of 1 to `limit` visible ASCII characters. -/
def visible (limit : Nat) (value : String) : Bool :=
  value ≠ "" && value.utf8ByteSize ≤ limit && value.toList.all isAsciiGraphic

def validateVersion (version : Nat) (field : String) : Checked :=
  require (version = protocolVersion) ("unsupported " ++ field ++ ": " ++ toString version)

def validateIdentityWithLimit (value : String) (limit : Nat) (field : String) : Checked :=
  require (visible limit value)
    (field ++ " must contain 1 to " ++ toString limit ++ " visible ASCII characters")

def validateIdentity (value field : String) : Checked :=
  validateIdentityWithLimit value maxIdentityLength field

def validateOptionalIdentity (value : Option String) (field : String) : Checked :=
  whenSome (fun value => validateIdentity value field) value

def isSha256 (value : String) : Bool :=
  value.utf8ByteSize = 64 &&
    value.toList.all fun c => ('0' ≤ c && c ≤ '9') || ('a' ≤ c && c ≤ 'f')

def validateSha256 (value field : String) : Checked :=
  require (isSha256 value) (field ++ " must be a lowercase 64-character SHA-256 value")

def validateByteLength (value : Nat) (field : String) : Checked :=
  require (0 < value ∧ value ≤ maxSafeJsonInteger)
    (field ++ " must be between 1 and " ++ toString maxSafeJsonInteger)

def isMediaTypeCharacter (c : Char) : Bool :=
  isAsciiAlphanumeric c || c ∈ ['!', '#', '$', '&', '^', '_', '.', '+', '-']

def isMediaType (value : String) : Bool :=
  match value.toList.splitOn '/' with
  | [typeName, subtype] =>
    typeName ≠ [] && subtype ≠ [] && typeName.all isMediaTypeCharacter &&
      subtype.all isMediaTypeCharacter
  | _ => false

def validateMediaType (value field : String) : Checked :=
  require (isMediaType value) (field ++ " must be a media type without parameters")

def isPathSegment (segment : List Char) : Bool :=
  segment ≠ [] && segment.length ≤ maxPathSegmentLength &&
    segment.head?.any isAsciiAlphanumeric &&
    segment.all fun c => isAsciiAlphanumeric c || c ∈ ['.', '_', '-']

def validateRelativePath (value field : String) : Checked := do
  require (value ≠ "" ∧ value.utf8ByteSize ≤ maxPathLength ∧
      value.toList.all (fun c => c.toNat < 128))
    (field ++ " must be a non-empty ASCII path of at most " ++ toString maxPathLength ++ " bytes")
  let segments := value.toList.splitOn '/'
  require (segments.length ≤ maxPathSegments)
    (field ++ " exceeds " ++ toString maxPathSegments ++ " path segments")
  require (segments.all isPathSegment)
    (field ++ " contains an invalid path segment; use ASCII letters, numbers, dot, " ++
      "underscore, or hyphen")

def isUnderDirectory (path directory : String) : Bool :=
  let rest := path.toList.drop directory.toList.length
  directory.toList.isPrefixOf path.toList && rest.head? = some '/' && 1 < rest.length

def validateText (value : String) (limit : Nat) (field : String) : Checked :=
  require (value ≠ "" ∧ value.toList.length ≤ limit ∧ value.toList.all (fun c => !isControl c))
    (field ++ " must contain 1 to " ++ toString limit ++ " non-control characters")

def validateOptionalDisplay (value : Option String) (field : String) : Checked :=
  whenSome (fun value => validateText value maxDisplayLength field) value

/-- The escapes of a JSON Pointer. -/
def validatePointer (field : String) : List Char → Checked
  | [] => .ok ()
  | c :: rest => do
    require (¬(c.toNat < 32 ∨ c.toNat = 127)) (field ++ " must not contain control characters")
    match c, rest with
    | '~', e :: rest => do
      require (e = '0' ∨ e = '1') (field ++ " contains an invalid JSON Pointer escape")
      validatePointer field rest
    | '~', [] => .error (.invalid (field ++ " contains an invalid JSON Pointer escape"))
    | _, rest => validatePointer field rest

def validateJsonPointer (value field : String) : Checked := do
  require (value.utf8ByteSize ≤ maxPathLength ∧ (value = "" ∨ value.toList.head? = some '/'))
    (field ++ " must be an empty JSON Pointer or start with slash")
  validatePointer field value.toList

/-! ## The input manifest -/

def FileContent.validate (c : FileContent) (field : String) : Checked := do
  validateIdentity c.contentIdentity (field ++ ".contentIdentity")
  validateRelativePath c.path (field ++ ".path")
  validateSha256 c.sha256 (field ++ ".sha256")
  validateByteLength c.byteLength (field ++ ".byteLength")
  validateMediaType c.mediaType (field ++ ".mediaType")
  validateIdentity c.detectedKindIdentity (field ++ ".detectedKindIdentity")

def ObjectMapping.validate (m : ObjectMapping) (field : String) : Checked := do
  if m.status = .proven then do
    require m.evidence.isSome (field ++ ".evidence is required for a proven mapping")
    require m.reason.isNone (field ++ ".reason is not allowed for a proven mapping")
  else require m.reason.isSome (field ++ ".reason is required when mapping is not proven")
  whenSome (fun evidence : MappingEvidence => do
    validateIdentity evidence.classification (field ++ ".evidence.classification")
    validateIdentity evidence.evidenceIdentity (field ++ ".evidence.evidenceIdentity")) m.evidence
  whenSome (fun reason => validateText reason maxReasonLength (field ++ ".reason")) m.reason

structure InputSetIdentityPayload where
  protocolVersion : Nat
  manifestVersion : Nat
  objects : List InputObject

structure ManifestIdentityPayload where
  protocolVersion : Nat
  manifestVersion : Nat
  inputSetIdentity : Option String
  requirementsIdentity : String
  sourceIdentity : String
  configurationIdentity : String
  export_ : ExportInput
  decision : ManifestDecision
  objects : List InputObject

structure InvocationIdentityPayload where
  protocolVersion : Nat
  expectedIdentities : IdentityBindings
  inputManifest : ManifestReference
  settings : SettingsInput
  output : OutputDeclaration

open Fields in
def InputSetIdentityPayload.codec : Codec InputSetIdentityPayload :=
  .record false (((required "protocolVersion" (.unsigned 32)).and <|
    (required "manifestVersion" (.unsigned 32)).and
      (required "objects" (.list InputObject.codec))).iso
    (fun (a, b, c) => ⟨a, b, c⟩) (fun x => (x.protocolVersion, x.manifestVersion, x.objects))
    fun _ => rfl)

theorem decision_disjoint_objects :
    ∀ name ∈ (Fields.required "decision" ManifestDecision.codec).names,
      name ∉ (Fields.required "objects" (.list InputObject.codec)).names :=
  Fields.required_disjoint _ _ (by decide)

open Fields in
def ManifestIdentityPayload.codec : Codec ManifestIdentityPayload :=
  .record false (((required "documentType" (oneName "inputManifest")).and <|
    (required "protocolVersion" (.unsigned 32)).and <|
    (required "manifestVersion" (.unsigned 32)).and <|
    (optional "inputSetIdentity" .str true).and <| (required "requirementsIdentity" .str).and <|
    (required "sourceIdentity" .str).and <| (required "configurationIdentity" .str).and <|
    (required "export" ExportInput.codec).and <|
    (required "decision" ManifestDecision.codec).and
      (required "objects" (.list InputObject.codec)) decision_disjoint_objects).iso
    (fun (_, a, b, c, d, e, f, g, h, i) => ⟨a, b, c, d, e, f, g, h, i⟩)
    (fun x => ((), x.protocolVersion, x.manifestVersion, x.inputSetIdentity,
      x.requirementsIdentity, x.sourceIdentity, x.configurationIdentity, x.export_, x.decision,
      x.objects)) fun _ => rfl)

theorem settings_disjoint_output :
    ∀ name ∈ (Fields.required "settings" SettingsInput.codec).names,
      name ∉ (Fields.required "output" OutputDeclaration.codec).names :=
  Fields.required_disjoint _ _ (by decide)

open Fields in
def InvocationIdentityPayload.codec : Codec InvocationIdentityPayload :=
  .record false (((required "documentType" (oneName "generatorRequest")).and <|
    (required "protocolVersion" (.unsigned 32)).and <|
    (required "expectedIdentities" IdentityBindings.codec).and <|
    (required "inputManifest" ManifestReference.codec).and <|
    (required "settings" SettingsInput.codec).and
      (required "output" OutputDeclaration.codec) settings_disjoint_output).iso
    (fun (_, a, b, c, d, e) => ⟨a, b, c, d, e⟩)
    (fun x => ((), x.protocolVersion, x.expectedIdentities, x.inputManifest, x.settings, x.output))
    fun _ => rfl)

section Identities

variable (digests : Digests)

def InputManifest.computedInputSetIdentity (m : InputManifest) : Option String :=
  if m.decision.status = .unavailable then none
  else
    some (hashJson digests "generator-input-set-v1" (InputSetIdentityPayload.codec.enc
      { protocolVersion := m.protocolVersion
        manifestVersion := m.manifestVersion
        objects := m.objects }))

def InputManifest.payload (m : InputManifest) : ManifestIdentityPayload where
  protocolVersion := m.protocolVersion
  manifestVersion := m.manifestVersion
  inputSetIdentity := m.inputSetIdentity
  requirementsIdentity := m.requirementsIdentity
  sourceIdentity := m.sourceIdentity
  configurationIdentity := m.configurationIdentity
  export_ := m.export_
  decision := m.decision
  objects := m.objects

def InputManifest.computedManifestIdentity (m : InputManifest) : String :=
  hashJson digests "generator-input-manifest-v1" (ManifestIdentityPayload.codec.enc m.payload)

def GeneratorRequest.payload (r : GeneratorRequest) : InvocationIdentityPayload where
  protocolVersion := r.protocolVersion
  expectedIdentities := r.expectedIdentities
  inputManifest := r.inputManifest
  settings := r.settings
  output := r.output

def GeneratorRequest.computedInvocationIdentity (r : GeneratorRequest) : String :=
  hashJson digests "generator-invocation-v1" (InvocationIdentityPayload.codec.enc r.payload)

/-! The checks of a manifest, in their order. -/

def validateExport (e : ExportInput) : Checked := do
  if e.observationStatus = .proven then
    require e.observationEvidenceIdentity.isSome
      "export.observationEvidenceIdentity is required when observationStatus is proven"
  else
    require e.observationEvidenceIdentity.isNone
      "export.observationEvidenceIdentity is only allowed when observationStatus is proven"
  validateOptionalIdentity e.observationEvidenceIdentity "export.observationEvidenceIdentity"

def validateDecision (m : InputManifest) : Checked := do
  if m.decision.status = .available then do
    require m.decision.reason.isNone "decision.reason is not allowed for an available manifest"
    require (m.objects ≠ []) "an available manifest must contain at least one object"
    require (m.export_.observationStatus = .proven)
      "an available manifest requires a proven export observation"
    require m.inputSetIdentity.isSome "an available manifest requires inputSetIdentity"
  else do
    require m.decision.reason.isSome "an unavailable manifest requires decision.reason"
    require m.inputSetIdentity.isNone
      "an unavailable manifest must not declare inputSetIdentity"
  whenSome (fun reason => validateText reason maxReasonLength "decision.reason") m.decision.reason

def validateOccurrencePath (path : List String) (field : String) : Checked := do
  require (path ≠ [] ∧ path.length ≤ maxOccurrenceSegments)
    (field ++ ".occurrencePath must contain 1 to " ++ toString maxOccurrenceSegments ++
      " segments")
  each (fun i segment =>
    validateIdentity segment (field ++ ".occurrencePath[" ++ toString i ++ "]")) 0 path

/-- The checks of one object apart from those that compare it with the others. -/
def InputObject.validate (o : InputObject) (status : ManifestStatus) (field : String) :
    Checked := do
  o.mapping.validate (field ++ ".mapping")
  if status = .available then
    require (o.mapping.status = .proven)
      (field ++ " is not proven and cannot be used by an invocation")
  validateOptionalIdentity o.sourceObjectIdentity (field ++ ".sourceObjectIdentity")
  validateOptionalIdentity o.producerResultIdentity (field ++ ".producerResultIdentity")
  validateOptionalIdentity o.parentObjectIdentity (field ++ ".parentObjectIdentity")
  validateOptionalDisplay o.sourceFilename (field ++ ".sourceFilename")
  validateOptionalDisplay o.displayName (field ++ ".displayName")
  whenSome (fun path => validateOccurrencePath path field) o.occurrencePath

/-- The loop over the objects, with the identities and the paths seen so far. -/
def validateObjects (status : ManifestStatus) :
    Nat → List String → List String → List InputObject → Checked
  | _, _, _, [] => .ok ()
  | index, identities, paths, o :: objects => do
    let field := "objects[" ++ toString index ++ "]"
    validateIdentity o.objectIdentity (field ++ ".objectIdentity")
    require (o.objectIdentity ∉ identities)
      ("duplicate input object identity: " ++ o.objectIdentity)
    o.retainedContent.validate (field ++ ".retainedContent")
    require (isUnderDirectory o.retainedContent.path "inputs")
      (field ++ ".retainedContent.path must be beneath inputs/")
    require (o.retainedContent.path ∉ paths)
      ("duplicate retained-content path: " ++ o.retainedContent.path)
    o.validate status field
    validateObjects status (index + 1) (o.objectIdentity :: identities)
      (o.retainedContent.path :: paths) objects

/-- The walk up the parents of an object. Every turn meets a new object, so there are no more
turns than objects. -/
def walkParents (objects : List InputObject) : Nat → List String → Option String → Checked
  | _, _, none => .ok ()
  | 0, _, some identity => .error (.invalid ("input object parent cycle includes " ++ identity))
  | fuel + 1, visited, some identity => do
    require (identity ∉ visited) ("input object parent cycle includes " ++ identity)
    walkParents objects fuel (identity :: visited)
      ((objects.find? fun o => o.objectIdentity = identity).bind InputObject.parentObjectIdentity)

def validateParents (objects : List InputObject) : Checked :=
  each (fun _ o => do
    whenSome (fun parent => require (∃ p ∈ objects, p.objectIdentity = parent)
      ("input object " ++ o.objectIdentity ++ " references missing parent " ++ parent))
      o.parentObjectIdentity
    walkParents objects (objects.length + 1) [] (some o.objectIdentity)) 0 objects

def InputManifest.validate (m : InputManifest) : Checked := do
  validateVersion m.protocolVersion "input manifest protocolVersion"
  require (m.manifestVersion = inputManifestVersion)
    ("unsupported input manifest version: " ++ toString m.manifestVersion)
  validateSha256 m.manifestIdentity "manifestIdentity"
  validateIdentity m.requirementsIdentity "requirementsIdentity"
  validateIdentity m.sourceIdentity "sourceIdentity"
  validateIdentity m.configurationIdentity "configurationIdentity"
  validateIdentity m.export_.kindIdentity "export.kindIdentity"
  validateIdentity m.export_.schemaIdentity "export.schemaIdentity"
  validateExport m.export_
  require (m.objects.length ≤ maxInputObjects)
    ("input manifest exceeds " ++ toString maxInputObjects ++ " objects")
  validateDecision m
  validateObjects m.decision.status 0 [] [] m.objects
  require (m.decision.status ≠ .available ∨ ∃ o ∈ m.objects, o.role = .rawGeometry)
    "an available manifest requires at least one rawGeometry object"
  validateParents m.objects
  require (m.inputSetIdentity = m.computedInputSetIdentity digests)
    "inputSetIdentity does not match the ordered input objects"
  require (m.manifestIdentity = m.computedManifestIdentity digests)
    "manifestIdentity does not match the input manifest"

/-! ## The request -/

def IdentityBindings.validate (b : IdentityBindings) (field : String) : Checked := do
  each (fun _ (p : String × String) => validateIdentity p.2 (field ++ "." ++ p.1)) 0
    [("packageIdentity", b.packageIdentity), ("buildIdentity", b.buildIdentity),
     ("binaryIdentity", b.binaryIdentity), ("dialectIdentity", b.dialectIdentity),
     ("inputKindIdentity", b.inputKindIdentity), ("inputSchemaIdentity", b.inputSchemaIdentity),
     ("settingsIdentity", b.settingsIdentity),
     ("settingsSchemaIdentity", b.settingsSchemaIdentity),
     ("provenanceSetIdentity", b.provenanceSetIdentity),
     ("normalizationIdentity", b.normalizationIdentity),
     ("validationIdentity", b.validationIdentity)]
  require (b.capabilityIdentities.length ≤ maxInputObjects)
    (field ++ ".capabilityIdentities exceeds " ++ toString maxInputObjects ++ " entries")
  each (fun i identity =>
    validateIdentity identity (field ++ ".capabilityIdentities[" ++ toString i ++ "]")) 0
    b.capabilityIdentities
  require (b.capabilityIdentities.IsChain (· < ·))
    (field ++ ".capabilityIdentities must be unique and sorted lexicographically")

def GeneratorRequest.validate (r : GeneratorRequest) : Checked := do
  validateVersion r.protocolVersion "generator request protocolVersion"
  validateSha256 r.invocationIdentity "invocationIdentity"
  r.expectedIdentities.validate "expectedIdentities"
  validateRelativePath r.inputManifest.path "inputManifest.path"
  require (isUnderDirectory r.inputManifest.path "inputs")
    "inputManifest.path must be beneath inputs/"
  validateSha256 r.inputManifest.manifestIdentity "inputManifest.manifestIdentity"
  validateSha256 r.inputManifest.inputSetIdentity "inputManifest.inputSetIdentity"
  validateIdentity r.settings.settingsIdentity "settings.settingsIdentity"
  validateIdentity r.settings.schemaIdentity "settings.schemaIdentity"
  r.settings.content.validate "settings.content"
  require (isUnderDirectory r.settings.content.path "inputs")
    "settings.content.path must be beneath inputs/"
  require (r.settings.content.path ≠ r.inputManifest.path)
    "settings.content.path must differ from inputManifest.path"
  validateIdentity r.output.outputIdentity "output.outputIdentity"
  validateRelativePath r.output.path "output.path"
  require (isUnderDirectory r.output.path "outputs") "output.path must be beneath outputs/"
  validateMediaType r.output.mediaType "output.mediaType"
  validateByteLength r.output.maxByteLength "output.maxByteLength"
  require (r.expectedIdentities.settingsIdentity = r.settings.settingsIdentity)
    "expectedIdentities.settingsIdentity does not match settings.settingsIdentity"
  require (r.expectedIdentities.settingsSchemaIdentity = r.settings.schemaIdentity)
    "expectedIdentities.settingsSchemaIdentity does not match settings.schemaIdentity"
  require (r.invocationIdentity = r.computedInvocationIdentity digests)
    "invocationIdentity does not match the generator request"

def GeneratorRequest.validateWithManifest (r : GeneratorRequest) (manifest : InputManifest) :
    Checked := do
  r.validate digests
  manifest.validate digests
  require (manifest.decision.status = .available)
    "an unavailable input manifest cannot be invoked"
  require (r.inputManifest.manifestIdentity = manifest.manifestIdentity)
    "request manifestIdentity does not match the input manifest"
  require (∀ o ∈ manifest.objects, o.retainedContent.path ≠ r.inputManifest.path)
    "inputManifest.path must differ from every retained-content path"
  require (manifest.inputSetIdentity = some r.inputManifest.inputSetIdentity)
    "request inputSetIdentity does not match the input manifest"
  require (r.expectedIdentities.inputKindIdentity = manifest.export_.kindIdentity)
    "expected inputKindIdentity does not match the input manifest"
  require (r.expectedIdentities.inputSchemaIdentity = manifest.export_.schemaIdentity)
    "expected inputSchemaIdentity does not match the input manifest"
  require (∀ o ∈ manifest.objects, o.retainedContent.path ≠ r.settings.content.path)
    "settings.content.path must differ from every retained-content path"

/-! ## The result -/

def validateContext (field : String) : Nat → List String → List DiagnosticContext → Checked
  | _, _, [] => .ok ()
  | index, keys, item :: context => do
    validateIdentityWithLimit item.key maxContextKeyLength
      (field ++ ".context[" ++ toString index ++ "].key")
    validateText item.value maxContextValueLength
      (field ++ ".context[" ++ toString index ++ "].value")
    require (item.key ∉ keys) (field ++ ".context contains duplicate key " ++ item.key)
    validateContext field (index + 1) (item.key :: keys) context

def isCodeCharacter (c : Char) : Bool :=
  ('a' ≤ c && c ≤ 'z') || ('0' ≤ c && c ≤ '9') || c = '_' || c = '-'

def validateReportEntry (code message : String) (instancePath : Option String)
    (context : List DiagnosticContext) (field : String) : Checked := do
  require (code ≠ "" ∧ code.utf8ByteSize ≤ maxCodeLength ∧ code.toList.all isCodeCharacter)
    (field ++ ".code must contain 1 to " ++ toString maxCodeLength ++
      " lowercase ASCII code characters")
  validateText message maxMessageLength (field ++ ".message")
  whenSome (fun path => validateJsonPointer path (field ++ ".instancePath")) instancePath
  require (context.length ≤ maxContextEntries)
    (field ++ ".context exceeds " ++ toString maxContextEntries ++ " entries")
  validateContext field 0 [] context

def GeneratedOutput.validate (o : GeneratedOutput) : Checked := do
  validateIdentity o.outputIdentity "output.outputIdentity"
  validateRelativePath o.path "output.path"
  require (isUnderDirectory o.path "outputs") "output.path must be beneath outputs/"
  validateMediaType o.mediaType "output.mediaType"
  validateByteLength o.byteLength "output.byteLength"
  validateSha256 o.sha256 "output.sha256"

def GeneratorResult.validate (r : GeneratorResult) : Checked := do
  validateVersion r.protocolVersion "generator result protocolVersion"
  whenSome (fun identity => validateSha256 identity "invocationIdentity") r.invocationIdentity
  whenSome (fun identities => IdentityBindings.validate identities "reportedIdentities")
    r.reportedIdentities
  require (r.diagnostics.length ≤ maxDiagnostics)
    ("diagnostics exceeds " ++ toString maxDiagnostics ++ " entries")
  require (r.errors.length ≤ maxErrors) ("errors exceeds " ++ toString maxErrors ++ " entries")
  each (fun i (d : Diagnostic) => validateReportEntry d.code d.message d.instancePath d.context
    ("diagnostics[" ++ toString i ++ "]")) 0 r.diagnostics
  each (fun i (e : StructuredError) => validateReportEntry e.code e.message e.instancePath
    e.context ("errors[" ++ toString i ++ "]")) 0 r.errors
  whenSome GeneratedOutput.validate r.output
  match r.status with
  | .success => do
    require r.invocationIdentity.isSome "a success result requires invocationIdentity"
    require r.reportedIdentities.isSome "a success result requires reportedIdentities"
    require r.output.isSome "a success result requires output"
    require (r.errors = []) "a success result must not contain errors"
  | .failure => do
    require r.output.isNone "a failure result must not contain output"
    require (r.errors ≠ []) "a failure result requires at least one structured error"

def GeneratorResult.validateAgainstRequest (r : GeneratorResult) (request : GeneratorRequest) :
    Checked := do
  request.validate digests
  r.validate
  whenSome (fun identity => require (identity = request.invocationIdentity)
    "result invocationIdentity does not match the request") r.invocationIdentity
  whenSome (fun identities => require (identities = request.expectedIdentities)
    "result identities do not match the request") r.reportedIdentities
  if r.status = .success then
    whenSome (fun output : GeneratedOutput => do
      require (output.outputIdentity = request.output.outputIdentity ∧
          output.path = request.output.path ∧ output.mediaType = request.output.mediaType)
        "success result output declaration does not match the request"
      require (output.byteLength ≤ request.output.maxByteLength)
        "success result output exceeds the request byte limit") r.output

/-! ## What accepted documents satisfy -/

variable {digests : Digests}

theorem version_ok {version : Nat} {field : String} :
    validateVersion version field = .ok () ↔ version = protocolVersion := require_ok

theorem byteLength_ok {value : Nat} {field : String} :
    validateByteLength value field = .ok () ↔ 0 < value ∧ value ≤ maxSafeJsonInteger := require_ok

theorem fileContent_ok {c : FileContent} {field : String} (h : c.validate field = .ok ()) :
    c.byteLength ≤ maxSafeJsonInteger := by
  simp only [FileContent.validate, seq_ok, byteLength_ok] at h
  exact h.2.2.2.1.2

theorem validateObjects_lengths {status : ManifestStatus} {objects : List InputObject} :
    ∀ {index : Nat} {identities paths : List String},
      validateObjects status index identities paths objects = .ok () →
        ∀ o ∈ objects, o.retainedContent.byteLength ≤ maxSafeJsonInteger := by
  induction objects with
  | nil => intro _ _ _ _ o ho; cases ho
  | cons b objects ih =>
    intro index identities paths h o ho
    simp only [validateObjects, seq_ok] at h
    obtain ⟨-, -, hcontent, -, -, -, hrest⟩ := h
    obtain rfl | ho := List.mem_cons.mp ho
    · exact fileContent_ok hcontent
    · exact ih hrest o ho

/-- The integers of an accepted manifest fit, and it carries its identity. -/
theorem manifest_ok {m : InputManifest} (h : m.validate digests = .ok ()) :
    InputManifest.codec.Fits m ∧ m.manifestIdentity = m.computedManifestIdentity digests := by
  simp only [InputManifest.validate, seq_ok, require_ok, version_ok] at h
  obtain ⟨hv, hmv, -, -, -, -, -, -, -, -, -, hobjects, -, -, -, hidentity⟩ := h
  refine ⟨fits_inputManifest.mpr ⟨?_, ?_, fun o ho => ?_⟩, hidentity⟩
  · rw [hv]; decide
  · rw [hmv]; decide
  · have := validateObjects_lengths hobjects o ho
    simp only [maxSafeJsonInteger] at this
    omega

/-- The integers of an accepted request fit, and it carries its identity. -/
theorem request_ok {r : GeneratorRequest} (h : r.validate digests = .ok ()) :
    GeneratorRequest.codec.Fits r ∧ r.invocationIdentity = r.computedInvocationIdentity digests := by
  simp only [GeneratorRequest.validate, seq_ok, require_ok, version_ok, byteLength_ok] at h
  obtain ⟨hv, -, -, -, -, -, -, -, -, hcontent, -, -, -, -, -, -, hmax, -, -, hidentity⟩ := h
  refine ⟨fits_generatorRequest.mpr ⟨?_, ?_, ?_⟩, hidentity⟩
  · rw [hv]; decide
  · have := fileContent_ok hcontent
    simp only [maxSafeJsonInteger] at this
    omega
  · have := hmax.2
    simp only [maxSafeJsonInteger] at this
    omega

/-! ## Identities cover every field -/

theorem payload_fits {m : InputManifest} (h : InputManifest.codec.Fits m) :
    ManifestIdentityPayload.codec.Fits m.payload := by
  obtain ⟨hv, hmv, hobjects⟩ := fits_inputManifest.mp h
  simp only [ManifestIdentityPayload.codec, ExportInput.codec, ManifestDecision.codec,
    InputManifest.payload, fits_record, fits_iso, fits_and, fits_required, fits_optional,
    fits_oneName, fits_str, fits_unsigned, fits_list, fits_inputObject, fits_groupingPolicy,
    fits_mappingStatus, fits_manifestStatus, enc_str_ne_null, true_and, and_true, ne_eq,
    not_false_eq_true, implies_true]
  exact ⟨⟨hv, by omega⟩, ⟨hmv, by omega⟩, hobjects⟩

theorem invocationPayload_fits {r : GeneratorRequest} (h : GeneratorRequest.codec.Fits r) :
    InvocationIdentityPayload.codec.Fits r.payload := by
  obtain ⟨hv, hcontent, hmax⟩ := fits_generatorRequest.mp h
  simp only [InvocationIdentityPayload.codec, ManifestReference.codec, SettingsInput.codec,
    OutputDeclaration.codec, GeneratorRequest.payload, fits_record, fits_iso, fits_and,
    fits_required, fits_oneName, fits_str, fits_unsigned, fits_bindings, fits_fileContent,
    true_and, and_self]
  exact ⟨⟨hv, by omega⟩, hcontent, hmax⟩

theorem manifest_eq_of_identity {m m' : InputManifest} (ht : digests.text.Faithful)
    (hc : CollisionFree digests) (h : m.validate digests = .ok ())
    (h' : m'.validate digests = .ok ()) (he : m.manifestIdentity = m'.manifestIdentity) :
    m = m' := by
  obtain ⟨hf, hi⟩ := manifest_ok h
  obtain ⟨hf', hi'⟩ := manifest_ok h'
  have hpf := payload_fits hf
  have hpf' := payload_fits hf'
  have hhash : hashJson digests _ _ = hashJson digests _ _ := (hi.symm.trans he).trans hi'
  have henc := hashJson_inj digests ht hc (ManifestIdentityPayload.codec.canonical _ hpf)
    (ManifestIdentityPayload.codec.canonical _ hpf') hhash
  have hp := ManifestIdentityPayload.codec.enc_inj hpf hpf' henc
  cases m
  cases m'
  simp only [InputManifest.payload, ManifestIdentityPayload.mk.injEq] at hp
  obtain ⟨rfl, rfl, rfl, rfl, rfl, rfl, rfl, rfl, rfl⟩ := hp
  simp only at he
  rw [he]

theorem request_eq_of_identity {r r' : GeneratorRequest} (ht : digests.text.Faithful)
    (hc : CollisionFree digests) (h : r.validate digests = .ok ())
    (h' : r'.validate digests = .ok ()) (he : r.invocationIdentity = r'.invocationIdentity) :
    r = r' := by
  obtain ⟨hf, hi⟩ := request_ok h
  obtain ⟨hf', hi'⟩ := request_ok h'
  have hpf := invocationPayload_fits hf
  have hpf' := invocationPayload_fits hf'
  have hhash : hashJson digests _ _ = hashJson digests _ _ := (hi.symm.trans he).trans hi'
  have henc := hashJson_inj digests ht hc (InvocationIdentityPayload.codec.canonical _ hpf)
    (InvocationIdentityPayload.codec.canonical _ hpf') hhash
  have hp := InvocationIdentityPayload.codec.enc_inj hpf hpf' henc
  cases r
  cases r'
  simp only [GeneratorRequest.payload, InvocationIdentityPayload.mk.injEq] at hp
  obtain ⟨rfl, rfl, rfl, rfl, rfl⟩ := hp
  simp only at he
  rw [he]

end Identities

end Protocol
end OnshapeExport
