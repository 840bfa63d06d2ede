import OnshapeExport.Lib.JsonCodec

/-!
# GeneratorProtocol

The documents of `generator_protocol.rs`: the input manifest, the request to the generator and its
result, as values of JSON. An option that is not there is left out.
-/

namespace OnshapeExport
namespace Protocol

open Json

def protocolVersion : Nat := 1
def inputManifestVersion : Nat := 1

/-! ## Enumerations -/

inductive ManifestStatus where
  | available | unavailable
deriving DecidableEq, Repr

inductive GroupingPolicy where
  | grouped | individual
deriving DecidableEq, Repr

inductive MappingStatus where
  | proven | unproven | missing | duplicate | ambiguous
deriving DecidableEq, Repr

inductive InputRole where
  | rawGeometry | auxiliaryGeometry
deriving DecidableEq, Repr

inductive ResultStatus where
  | success | failure
deriving DecidableEq, Repr

inductive DiagnosticSeverity where
  | info | warning
deriving DecidableEq, Repr

inductive ErrorCategory where
  | malformedRequest | unsupportedRequest | invalidInput | generationFailed | internalError
deriving DecidableEq, Repr

def InputRole.key : InputRole → String
  | .rawGeometry => "rawGeometry"
  | .auxiliaryGeometry => "auxiliaryGeometry"

def ManifestStatus.codec : Codec ManifestStatus :=
  .enum (fun | .available => "available" | .unavailable => "unavailable")
    [.available, .unavailable] (by rintro (_ | _) <;> simp) (by rintro (_ | _) (_ | _) <;> simp)

def GroupingPolicy.codec : Codec GroupingPolicy :=
  .enum (fun | .grouped => "grouped" | .individual => "individual") [.grouped, .individual]
    (by rintro (_ | _) <;> simp) (by rintro (_ | _) (_ | _) <;> simp)

def MappingStatus.codec : Codec MappingStatus :=
  .enum (fun
      | .proven => "proven"
      | .unproven => "unproven"
      | .missing => "missing"
      | .duplicate => "duplicate"
      | .ambiguous => "ambiguous")
    [.proven, .unproven, .missing, .duplicate, .ambiguous]
    (by rintro (_ | _ | _ | _ | _) <;> simp)
    (by rintro (_ | _ | _ | _ | _) (_ | _ | _ | _ | _) <;> simp)

def InputRole.codec : Codec InputRole :=
  .enum InputRole.key [.rawGeometry, .auxiliaryGeometry] (by rintro (_ | _) <;> simp)
    (by rintro (_ | _) (_ | _) <;> simp [InputRole.key])

def ResultStatus.codec : Codec ResultStatus :=
  .enum (fun | .success => "success" | .failure => "failure") [.success, .failure]
    (by rintro (_ | _) <;> simp) (by rintro (_ | _) (_ | _) <;> simp)

def DiagnosticSeverity.codec : Codec DiagnosticSeverity :=
  .enum (fun | .info => "info" | .warning => "warning") [.info, .warning]
    (by rintro (_ | _) <;> simp) (by rintro (_ | _) (_ | _) <;> simp)

def ErrorCategory.codec : Codec ErrorCategory :=
  .enum (fun
      | .malformedRequest => "malformedRequest"
      | .unsupportedRequest => "unsupportedRequest"
      | .invalidInput => "invalidInput"
      | .generationFailed => "generationFailed"
      | .internalError => "internalError")
    [.malformedRequest, .unsupportedRequest, .invalidInput, .generationFailed, .internalError]
    (by rintro (_ | _ | _ | _ | _) <;> simp)
    (by rintro (_ | _ | _ | _ | _) (_ | _ | _ | _ | _) <;> simp)

/-- An enumeration of one name: a document type or the only role of an output. -/
def oneName (name : String) : Codec Unit :=
  .enum (fun _ => name) [()] (by simp) (by simp)

/-! ## The input manifest -/

structure FileContent where
  contentIdentity : String
  path : String
  sha256 : String
  byteLength : Nat
  mediaType : String
  detectedKindIdentity : String
deriving DecidableEq, Repr

structure MappingEvidence where
  classification : String
  evidenceIdentity : String
deriving DecidableEq, Repr

structure ObjectMapping where
  status : MappingStatus
  evidence : Option MappingEvidence
  reason : Option String
deriving DecidableEq, Repr

structure InputObject where
  objectIdentity : String
  role : InputRole
  retainedContent : FileContent
  mapping : ObjectMapping
  sourceObjectIdentity : Option String
  occurrencePath : Option (List String)
  producerResultIdentity : Option String
  sourceFilename : Option String
  displayName : Option String
  parentObjectIdentity : Option String
deriving DecidableEq, Repr

structure ExportInput where
  kindIdentity : String
  schemaIdentity : String
  groupingPolicy : GroupingPolicy
  observationStatus : MappingStatus
  observationEvidenceIdentity : Option String
deriving DecidableEq, Repr

structure ManifestDecision where
  status : ManifestStatus
  reason : Option String
deriving DecidableEq, Repr

structure InputManifest where
  protocolVersion : Nat
  manifestVersion : Nat
  manifestIdentity : String
  inputSetIdentity : Option String
  requirementsIdentity : String
  sourceIdentity : String
  configurationIdentity : String
  export_ : ExportInput
  decision : ManifestDecision
  objects : List InputObject
deriving DecidableEq, Repr

open Fields in
def FileContent.codec : Codec FileContent :=
  .record true (((required "contentIdentity" .str).and <| (required "path" .str).and <|
    (required "sha256" .str).and <| (required "byteLength" (.unsigned 64)).and <|
    (required "mediaType" .str).and (required "detectedKindIdentity" .str)).iso
    (fun (a, b, c, d, e, f) => ⟨a, b, c, d, e, f⟩)
    (fun x => (x.contentIdentity, x.path, x.sha256, x.byteLength, x.mediaType,
      x.detectedKindIdentity)) fun _ => rfl)

open Fields in
def MappingEvidence.codec : Codec MappingEvidence :=
  .record true (((required "classification" .str).and (required "evidenceIdentity" .str)).iso
    (fun (a, b) => ⟨a, b⟩) (fun x => (x.classification, x.evidenceIdentity)) fun _ => rfl)

open Fields in
def ObjectMapping.codec : Codec ObjectMapping :=
  .record true (((required "status" MappingStatus.codec).and <|
    (optional "evidence" MappingEvidence.codec true).and (optional "reason" .str true)).iso
    (fun (a, b, c) => ⟨a, b, c⟩) (fun x => (x.status, x.evidence, x.reason)) fun _ => rfl)

open Fields in
def InputObject.codec : Codec InputObject :=
  .record true (((required "objectIdentity" .str).and <| (required "role" InputRole.codec).and <|
    (required "retainedContent" FileContent.codec).and <|
    (required "mapping" ObjectMapping.codec).and <|
    (optional "sourceObjectIdentity" .str true).and <|
    (optional "occurrencePath" (.list .str) true).and <|
    (optional "producerResultIdentity" .str true).and <|
    (optional "sourceFilename" .str true).and <| (optional "displayName" .str true).and
      (optional "parentObjectIdentity" .str true)).iso
    (fun (a, b, c, d, e, f, g, h, i, j) => ⟨a, b, c, d, e, f, g, h, i, j⟩)
    (fun x => (x.objectIdentity, x.role, x.retainedContent, x.mapping, x.sourceObjectIdentity,
      x.occurrencePath, x.producerResultIdentity, x.sourceFilename, x.displayName,
      x.parentObjectIdentity)) fun _ => rfl)

open Fields in
def ExportInput.codec : Codec ExportInput :=
  .record true (((required "kindIdentity" .str).and <| (required "schemaIdentity" .str).and <|
    (required "groupingPolicy" GroupingPolicy.codec).and <|
    (required "observationStatus" MappingStatus.codec).and
      (optional "observationEvidenceIdentity" .str true)).iso
    (fun (a, b, c, d, e) => ⟨a, b, c, d, e⟩)
    (fun x => (x.kindIdentity, x.schemaIdentity, x.groupingPolicy, x.observationStatus,
      x.observationEvidenceIdentity)) fun _ => rfl)

open Fields in
def ManifestDecision.codec : Codec ManifestDecision :=
  .record true (((required "status" ManifestStatus.codec).and (optional "reason" .str true)).iso
    (fun (a, b) => ⟨a, b⟩) (fun x => (x.status, x.reason)) fun _ => rfl)

open Fields in
def InputManifest.codec : Codec InputManifest :=
  .record true (((required "documentType" (oneName "inputManifest")).and <|
    (required "protocolVersion" (.unsigned 32)).and <|
    (required "manifestVersion" (.unsigned 32)).and <| (required "manifestIdentity" .str).and <|
    (optional "inputSetIdentity" .str true).and <| (required "requirementsIdentity" .str).and <|
    (required "sourceIdentity" .str).and <| (required "configurationIdentity" .str).and <|
    (required "export" ExportInput.codec).and <|
    (required "decision" ManifestDecision.codec).and
      (required "objects" (.list InputObject.codec))).iso
    (fun (_, a, b, c, d, e, f, g, h, i, j) => ⟨a, b, c, d, e, f, g, h, i, j⟩)
    (fun x => ((), x.protocolVersion, x.manifestVersion, x.manifestIdentity, x.inputSetIdentity,
      x.requirementsIdentity, x.sourceIdentity, x.configurationIdentity, x.export_, x.decision,
      x.objects)) fun _ => rfl)

/-! ## The request -/

structure IdentityBindings where
  packageIdentity : String
  buildIdentity : String
  binaryIdentity : String
  dialectIdentity : String
  capabilityIdentities : List String
  inputKindIdentity : String
  inputSchemaIdentity : String
  settingsIdentity : String
  settingsSchemaIdentity : String
  provenanceSetIdentity : String
  normalizationIdentity : String
  validationIdentity : String
deriving DecidableEq, Repr

structure ManifestReference where
  path : String
  manifestIdentity : String
  inputSetIdentity : String
deriving DecidableEq, Repr

structure SettingsInput where
  settingsIdentity : String
  schemaIdentity : String
  content : FileContent
deriving DecidableEq, Repr

structure OutputDeclaration where
  outputIdentity : String
  path : String
  mediaType : String
  maxByteLength : Nat
deriving DecidableEq, Repr

structure GeneratorRequest where
  protocolVersion : Nat
  invocationIdentity : String
  expectedIdentities : IdentityBindings
  inputManifest : ManifestReference
  settings : SettingsInput
  output : OutputDeclaration
deriving DecidableEq, Repr

open Fields in
def IdentityBindings.codec : Codec IdentityBindings :=
  .record true (((required "packageIdentity" .str).and <| (required "buildIdentity" .str).and <|
    (required "binaryIdentity" .str).and <| (required "dialectIdentity" .str).and <|
    (required "capabilityIdentities" (.list .str)).and <|
    (required "inputKindIdentity" .str).and <| (required "inputSchemaIdentity" .str).and <|
    (required "settingsIdentity" .str).and <| (required "settingsSchemaIdentity" .str).and <|
    (required "provenanceSetIdentity" .str).and <| (required "normalizationIdentity" .str).and
      (required "validationIdentity" .str)).iso
    (fun (a, b, c, d, e, f, g, h, i, j, k, l) => ⟨a, b, c, d, e, f, g, h, i, j, k, l⟩)
    (fun x => (x.packageIdentity, x.buildIdentity, x.binaryIdentity, x.dialectIdentity,
      x.capabilityIdentities, x.inputKindIdentity, x.inputSchemaIdentity, x.settingsIdentity,
      x.settingsSchemaIdentity, x.provenanceSetIdentity, x.normalizationIdentity,
      x.validationIdentity)) fun _ => rfl)

open Fields in
def ManifestReference.codec : Codec ManifestReference :=
  .record true (((required "path" .str).and <| (required "manifestIdentity" .str).and
      (required "inputSetIdentity" .str)).iso
    (fun (a, b, c) => ⟨a, b, c⟩) (fun x => (x.path, x.manifestIdentity, x.inputSetIdentity))
    fun _ => rfl)

open Fields in
def SettingsInput.codec : Codec SettingsInput :=
  .record true (((required "settingsIdentity" .str).and <| (required "schemaIdentity" .str).and
      (required "content" FileContent.codec)).iso
    (fun (a, b, c) => ⟨a, b, c⟩) (fun x => (x.settingsIdentity, x.schemaIdentity, x.content))
    fun _ => rfl)

open Fields in
def OutputDeclaration.codec : Codec OutputDeclaration :=
  .record true (((required "outputIdentity" .str).and <|
    (required "role" (oneName "generatedProject")).and <| (required "path" .str).and <|
    (required "mediaType" .str).and (required "maxByteLength" (.unsigned 64))).iso
    (fun (a, _, b, c, d) => ⟨a, b, c, d⟩)
    (fun x => (x.outputIdentity, (), x.path, x.mediaType, x.maxByteLength)) fun _ => rfl)

open Fields in
def GeneratorRequest.codec : Codec GeneratorRequest :=
  .record true (((required "documentType" (oneName "generatorRequest")).and <|
    (required "protocolVersion" (.unsigned 32)).and <|
    (required "invocationIdentity" .str).and <|
    (required "expectedIdentities" IdentityBindings.codec).and <|
    (required "inputManifest" ManifestReference.codec).and <|
    (required "settings" SettingsInput.codec).and
      (required "output" OutputDeclaration.codec)).iso
    (fun (_, a, b, c, d, e, f) => ⟨a, b, c, d, e, f⟩)
    (fun x => ((), x.protocolVersion, x.invocationIdentity, x.expectedIdentities,
      x.inputManifest, x.settings, x.output)) fun _ => rfl)

/-! ## The result -/

structure DiagnosticContext where
  key : String
  value : String
deriving DecidableEq, Repr

structure Diagnostic where
  severity : DiagnosticSeverity
  code : String
  message : String
  instancePath : Option String
  context : List DiagnosticContext
deriving DecidableEq, Repr

structure StructuredError where
  category : ErrorCategory
  code : String
  message : String
  instancePath : Option String
  context : List DiagnosticContext
deriving DecidableEq, Repr

structure GeneratedOutput where
  outputIdentity : String
  path : String
  mediaType : String
  byteLength : Nat
  sha256 : String
deriving DecidableEq, Repr

structure GeneratorResult where
  protocolVersion : Nat
  status : ResultStatus
  invocationIdentity : Option String
  reportedIdentities : Option IdentityBindings
  output : Option GeneratedOutput
  diagnostics : List Diagnostic
  errors : List StructuredError
deriving DecidableEq, Repr

open Fields in
def DiagnosticContext.codec : Codec DiagnosticContext :=
  .record true (((required "key" .str).and (required "value" .str)).iso
    (fun (a, b) => ⟨a, b⟩) (fun x => (x.key, x.value)) fun _ => rfl)

open Fields in
def Diagnostic.codec : Codec Diagnostic :=
  .record true (((required "severity" DiagnosticSeverity.codec).and <|
    (required "code" .str).and <| (required "message" .str).and <|
    (optional "instancePath" .str true).and
      (required "context" (.list DiagnosticContext.codec))).iso
    (fun (a, b, c, d, e) => ⟨a, b, c, d, e⟩)
    (fun x => (x.severity, x.code, x.message, x.instancePath, x.context)) fun _ => rfl)

open Fields in
def StructuredError.codec : Codec StructuredError :=
  .record true (((required "category" ErrorCategory.codec).and <|
    (required "code" .str).and <| (required "message" .str).and <|
    (optional "instancePath" .str true).and
      (required "context" (.list DiagnosticContext.codec))).iso
    (fun (a, b, c, d, e) => ⟨a, b, c, d, e⟩)
    (fun x => (x.category, x.code, x.message, x.instancePath, x.context)) fun _ => rfl)

open Fields in
def GeneratedOutput.codec : Codec GeneratedOutput :=
  .record true (((required "outputIdentity" .str).and <|
    (required "role" (oneName "generatedProject")).and <| (required "path" .str).and <|
    (required "mediaType" .str).and <| (required "byteLength" (.unsigned 64)).and
      (required "sha256" .str)).iso
    (fun (a, _, b, c, d, e) => ⟨a, b, c, d, e⟩)
    (fun x => (x.outputIdentity, (), x.path, x.mediaType, x.byteLength, x.sha256)) fun _ => rfl)

open Fields in
def GeneratorResult.codec : Codec GeneratorResult :=
  .record true (((required "documentType" (oneName "generatorResult")).and <|
    (required "protocolVersion" (.unsigned 32)).and <|
    (required "status" ResultStatus.codec).and <|
    (optional "invocationIdentity" .str true).and <|
    (optional "reportedIdentities" IdentityBindings.codec true).and <|
    (optional "output" GeneratedOutput.codec true).and <|
    (required "diagnostics" (.list Diagnostic.codec)).and
      (required "errors" (.list StructuredError.codec))).iso
    (fun (_, a, b, c, d, e, f, g) => ⟨a, b, c, d, e, f, g⟩)
    (fun x => ((), x.protocolVersion, x.status, x.invocationIdentity, x.reportedIdentities,
      x.output, x.diagnostics, x.errors)) fun _ => rfl)

/-! ## Integers that fit -/

@[simp] theorem fits_oneName (name : String) (u : Unit) : (oneName name).Fits u := trivial

@[simp] theorem fits_manifestStatus (s : ManifestStatus) : ManifestStatus.codec.Fits s := trivial

@[simp] theorem fits_groupingPolicy (p : GroupingPolicy) : GroupingPolicy.codec.Fits p := trivial

@[simp] theorem fits_mappingStatus (s : MappingStatus) : MappingStatus.codec.Fits s := trivial

@[simp] theorem fits_inputRole (r : InputRole) : InputRole.codec.Fits r := trivial

@[simp] theorem fits_resultStatus (s : ResultStatus) : ResultStatus.codec.Fits s := trivial

@[simp] theorem fits_severity (s : DiagnosticSeverity) : DiagnosticSeverity.codec.Fits s := trivial

@[simp] theorem fits_category (c : ErrorCategory) : ErrorCategory.codec.Fits c := trivial

@[simp] theorem fits_fileContent {c : FileContent} :
    FileContent.codec.Fits c ↔ c.byteLength < 2 ^ 64 := by
  simp [FileContent.codec]

@[simp] theorem fits_mapping (m : ObjectMapping) : ObjectMapping.codec.Fits m := by
  simp [ObjectMapping.codec, MappingEvidence.codec]

@[simp] theorem fits_inputObject {o : InputObject} :
    InputObject.codec.Fits o ↔ o.retainedContent.byteLength < 2 ^ 64 := by
  simp [InputObject.codec]

theorem fits_inputManifest {m : InputManifest} :
    InputManifest.codec.Fits m ↔ m.protocolVersion < 2 ^ 32 ∧ m.manifestVersion < 2 ^ 32 ∧
      ∀ o ∈ m.objects, o.retainedContent.byteLength < 2 ^ 64 := by
  simp only [InputManifest.codec, ExportInput.codec, ManifestDecision.codec, fits_record,
    fits_iso, fits_and, fits_required, fits_optional, fits_oneName, fits_str, fits_unsigned,
    fits_list, fits_inputObject, fits_groupingPolicy, fits_mappingStatus, fits_manifestStatus,
    enc_str_ne_null, true_and, and_true, ne_eq, not_false_eq_true, implies_true]
  constructor
  · rintro ⟨⟨h1, -⟩, ⟨h2, -⟩, h3⟩
    exact ⟨h1, h2, h3⟩
  · rintro ⟨h1, h2, h3⟩
    exact ⟨⟨h1, by omega⟩, ⟨h2, by omega⟩, h3⟩

@[simp] theorem fits_bindings (b : IdentityBindings) : IdentityBindings.codec.Fits b := by
  simp [IdentityBindings.codec]

theorem fits_generatorRequest {r : GeneratorRequest} :
    GeneratorRequest.codec.Fits r ↔ r.protocolVersion < 2 ^ 32 ∧
      r.settings.content.byteLength < 2 ^ 64 ∧ r.output.maxByteLength < 2 ^ 64 := by
  simp only [GeneratorRequest.codec, ManifestReference.codec, SettingsInput.codec,
    OutputDeclaration.codec, fits_record, fits_iso, fits_and, fits_required, fits_oneName,
    fits_str, fits_unsigned, fits_bindings, fits_fileContent, true_and, and_self]
  constructor
  · rintro ⟨⟨h1, -⟩, h2, h3⟩
    exact ⟨h1, h2, h3⟩
  · rintro ⟨h1, h2, h3⟩
    exact ⟨⟨h1, by omega⟩, h2, h3⟩

theorem fits_generatorResult {r : GeneratorResult} :
    GeneratorResult.codec.Fits r ↔ r.protocolVersion < 2 ^ 32 ∧
      ∀ o ∈ r.output, o.byteLength < 2 ^ 64 := by
  simp only [GeneratorResult.codec, GeneratedOutput.codec, Diagnostic.codec,
    StructuredError.codec, DiagnosticContext.codec, fits_record, fits_iso, fits_and,
    fits_required, fits_optional, fits_oneName, fits_str, fits_unsigned, fits_list, fits_bindings,
    fits_resultStatus, fits_severity, fits_category, enc_str_ne_null, enc_record_ne_null, true_and,
    and_true, and_self, ne_eq, not_false_eq_true, implies_true, Option.mem_def]
  constructor
  · rintro ⟨⟨h1, -⟩, -, h2⟩
    exact ⟨h1, h2⟩
  · rintro ⟨h1, h2⟩
    exact ⟨⟨h1, by omega⟩, by simp [IdentityBindings.codec], h2⟩

end Protocol
end OnshapeExport
