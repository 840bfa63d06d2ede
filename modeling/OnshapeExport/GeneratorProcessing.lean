import OnshapeExport.DeployedGenerator
import OnshapeExport.GeneratorSettings

/-!
# GeneratorProcessing

The recipe of `generator_processing.rs`: how it is prepared from a manifest and its settings, and
how a stored one is reopened. The document of the settings schema is a parameter.

* `prepareGeneratorProcessing` — the checks, then `assemble` for the recipe and what it derives.
* `reopenGeneratorProcessing` — a stored recipe is prepared again from its own parts.
-/

namespace OnshapeExport
namespace Processing

open Annotation CacheKey Checks Deployed Json OnshapeApi Protocol

def recipeVersion : Nat := 1
def recipeLimit : Nat := 16777216

/-! ## Documents -/

structure GeneratorCompatibilityIdentity where
  protocolVersion : Nat
  dialectIdentity : String
  capabilityIdentities : List String
  inputKindIdentity : String
  inputSchemaIdentity : String
  settingsSchemaIdentity : String
deriving DecidableEq, Repr

inductive GeneratorCompatibilityDecision where
  | supported
  | unsupported (field : String)
deriving DecidableEq, Repr

structure GeneratorProcessingRecipe where
  recipeVersion : Nat
  deployedGeneratorIdentity : String
  compatibility : GeneratorCompatibilityIdentity
  compatibilityDecision : GeneratorCompatibilityDecision
  compatibilityDecisionIdentity : String
  inputManifest : InputManifest
  settings : GeneratorSettingsV2
  settingsIdentity : String
  settingsSchemaIdentity : String
  invocation : GeneratorRequest
deriving DecidableEq

structure GeneratorProcessingProtocolInputs where
  manifestPath : String
  settingsContentIdentity : String
  settingsPath : String
  settingsMediaType : String
  settingsDetectedKindIdentity : String
  output : OutputDeclaration
deriving DecidableEq, Repr

structure GeneratorProcessingOccurrence where
  occurrenceIdentity : String
  occurrenceOrder : Nat
  objectIdentity : String
  contentIdentity : String
  contentSha256 : String
  contentByteLength : Nat
  stagedPath : String
  transportRole : String
  displayName : Option String
  mappingJson : String
  provenanceJson : String
  placementJson : String
deriving DecidableEq, Repr

structure PreparedGeneratorProcessing where
  processingHash : String
  recipeJson : String
  recipe : GeneratorProcessingRecipe
  occurrences : List GeneratorProcessingOccurrence
deriving DecidableEq

inductive ProcessingError where
  | message (text : String)
  | api (failure : ApiFailure)
  | json
deriving DecidableEq, Repr

open Fields in
def GeneratorCompatibilityIdentity.codec : Codec GeneratorCompatibilityIdentity :=
  .record true (((required "protocolVersion" (.unsigned 32)).and <|
    (required "dialectIdentity" .str).and <| (required "capabilityIdentities" (.list .str)).and <|
    (required "inputKindIdentity" .str).and <| (required "inputSchemaIdentity" .str).and
      (required "settingsSchemaIdentity" .str)).iso
    (fun (a, b, c, d, e, f) => ⟨a, b, c, d, e, f⟩)
    (fun x => (x.protocolVersion, x.dialectIdentity, x.capabilityIdentities, x.inputKindIdentity,
      x.inputSchemaIdentity, x.settingsSchemaIdentity)) fun _ => rfl)

open Fields in
def GeneratorCompatibilityDecision.codec : Codec GeneratorCompatibilityDecision :=
  .tagged "status" true
    (((Variants.case "supported" unit).or (Variants.case "unsupported"
        (required "field" .str))).iso
      (fun
        | .inl _ => .supported
        | .inr field => .unsupported field)
      (fun
        | .supported => .inl ()
        | .unsupported field => .inr field)
      (by rintro (_ | _) <;> rfl))

open Fields in
def GeneratorProcessingRecipe.codec : Codec GeneratorProcessingRecipe :=
  .record true (((required "recipeVersion" (.unsigned 32)).and <|
    (required "deployedGeneratorIdentity" .str).and <|
    (required "compatibility" GeneratorCompatibilityIdentity.codec).and <|
    (required "compatibilityDecision" GeneratorCompatibilityDecision.codec).and <|
    (required "compatibilityDecisionIdentity" .str).and <|
    (required "inputManifest" InputManifest.codec).and <|
    (required "settings" GeneratorSettingsV2.codec).and <|
    (required "settingsIdentity" .str).and <| (required "settingsSchemaIdentity" .str).and
      (required "invocation" GeneratorRequest.codec)).iso
    (fun (a, b, c, d, e, f, g, h, i, j) => ⟨a, b, c, d, e, f, g, h, i, j⟩)
    (fun x => (x.recipeVersion, x.deployedGeneratorIdentity, x.compatibility,
      x.compatibilityDecision, x.compatibilityDecisionIdentity, x.inputManifest, x.settings,
      x.settingsIdentity, x.settingsSchemaIdentity, x.invocation)) fun _ => rfl)

/-! ## Payloads of the derived identities -/

structure CompatibilityDecisionIdentityPayload where
  compatibility : GeneratorCompatibilityIdentity
  decision : GeneratorCompatibilityDecision

open Fields in
def CompatibilityDecisionIdentityPayload.codec : Codec CompatibilityDecisionIdentityPayload :=
  .record false (((required "compatibility" GeneratorCompatibilityIdentity.codec).and
      (required "decision" GeneratorCompatibilityDecision.codec)).iso
    (fun (a, b) => ⟨a, b⟩) (fun x => (x.compatibility, x.decision)) fun _ => rfl)

structure OccurrenceIdentityPayload where
  processingHash : String
  occurrenceOrder : Nat
  objectIdentity : String
  stagedPath : String

open Fields in
def OccurrenceIdentityPayload.codec : Codec OccurrenceIdentityPayload :=
  .record false (((required "processingHash" .str).and <|
    (required "occurrenceOrder" (.unsigned 64)).and <| (required "objectIdentity" .str).and
      (required "stagedPath" .str)).iso
    (fun (a, b, c, d) => ⟨a, b, c, d⟩)
    (fun x => (x.processingHash, x.occurrenceOrder, x.objectIdentity, x.stagedPath))
    fun _ => rfl)

structure OccurrenceProvenance where
  sourceObjectIdentity : Option String
  occurrencePath : Option (List String)
  producerResultIdentity : Option String
  sourceFilename : Option String
  parentObjectIdentity : Option String

open Fields in
/-- What is not there is written as a null. -/
def OccurrenceProvenance.codec : Codec OccurrenceProvenance :=
  .record false (((nullable "sourceObjectIdentity" .str).and <|
    (nullable "occurrencePath" (.list .str)).and <|
    (nullable "producerResultIdentity" .str).and <| (nullable "sourceFilename" .str).and
      (nullable "parentObjectIdentity" .str)).iso
    (fun (a, b, c, d, e) => ⟨a, b, c, d, e⟩)
    (fun x => (x.sourceObjectIdentity, x.occurrencePath, x.producerResultIdentity,
      x.sourceFilename, x.parentObjectIdentity)) fun _ => rfl)

/-! ## Preparing -/

section Prepare

variable (digests : Digests) (sizes : Sizes) (schema : Value)

def orElse {ε α : Type} (x : Except ε α) (text : String) : Except ProcessingError α :=
  x.mapError fun _ => .message text

def insist (p : Prop) [Decidable p] (text : String) : Except ProcessingError Unit :=
  ensure p (.message text)

def generatorProcessingHash (recipe : GeneratorProcessingRecipe) : String :=
  hashJson digests "generator-processing-recipe-v1" (GeneratorProcessingRecipe.codec.enc recipe)

def occurrence (processingHash : String) (order : Nat) (object : InputObject)
    (placement : GeneratorSettingsPlacementV2) : GeneratorProcessingOccurrence where
  occurrenceIdentity := hashJson digests "generator-processing-occurrence-v1"
    (OccurrenceIdentityPayload.codec.enc
      ⟨processingHash, order, object.objectIdentity, object.retainedContent.path⟩)
  occurrenceOrder := order
  objectIdentity := object.objectIdentity
  contentIdentity := object.retainedContent.contentIdentity
  contentSha256 := object.retainedContent.sha256
  contentByteLength := object.retainedContent.byteLength
  stagedPath := object.retainedContent.path
  transportRole := object.role.key
  displayName := object.displayName
  mappingJson := canonicalJson digests (ObjectMapping.codec.enc object.mapping)
  provenanceJson := canonicalJson digests (OccurrenceProvenance.codec.enc
    ⟨object.sourceObjectIdentity, object.occurrencePath, object.producerResultIdentity,
      object.sourceFilename, object.parentObjectIdentity⟩)
  placementJson := canonicalJson digests (GeneratorSettingsPlacementV2.codec.enc placement)

def deriveOccurrences (processingHash : String) (recipe : GeneratorProcessingRecipe) :
    List GeneratorProcessingOccurrence :=
  (recipe.inputManifest.objects.zip recipe.settings.placements).zipIdx.map fun (p, order) =>
    occurrence digests processingHash order p.1 p.2

/-- A prepared recipe is determined by the recipe. -/
def finishRecipe (recipe : GeneratorProcessingRecipe) : PreparedGeneratorProcessing :=
  let processingHash := generatorProcessingHash digests recipe
  { processingHash := processingHash
    recipeJson := canonicalJson digests (GeneratorProcessingRecipe.codec.enc recipe)
    recipe := recipe
    occurrences := deriveOccurrences digests processingHash recipe }

def compatibilityIdentity (c : GeneratorCompatibilityRequest) : GeneratorCompatibilityIdentity :=
  ⟨c.protocolVersion, c.dialectIdentity, c.capabilityIdentities, c.inputKindIdentity,
    c.inputSchemaIdentity, c.settingsSchemaIdentity⟩

def compatibilityDecision (generator : DeployedGenerator) (c : GeneratorCompatibilityRequest) :
    Except ProcessingError GeneratorCompatibilityDecision :=
  match generator.ensureCompatible c with
  | .ok () => .ok .supported
  | .error (.unsupportedCombination field) => .ok (.unsupported field)
  | .error (.configInvalid _) => .error (.message "could not evaluate generator compatibility")

/-- The invocation without its identity. -/
def invocationOf (generator : DeployedGenerator) (compatibility : GeneratorCompatibilityRequest)
    (manifest : InputManifest) (inputSetIdentity settingsIdentity settingsSchemaIdentity : String)
    (settingsJson : String) (inputs : GeneratorProcessingProtocolInputs) : GeneratorRequest where
  protocolVersion := compatibility.protocolVersion
  invocationIdentity := ""
  expectedIdentities := generator.identityBindings settingsIdentity
  inputManifest := ⟨inputs.manifestPath, manifest.manifestIdentity, inputSetIdentity⟩
  settings := ⟨settingsIdentity, settingsSchemaIdentity,
    { contentIdentity := inputs.settingsContentIdentity
      path := inputs.settingsPath
      sha256 := digests.sha256 settingsJson
      byteLength := settingsJson.utf8ByteSize
      mediaType := inputs.settingsMediaType
      detectedKindIdentity := inputs.settingsDetectedKindIdentity }⟩
  output := inputs.output

/-- Everything after the checks of the manifest and the settings. -/
def assemble (generator : DeployedGenerator) (compatibility : GeneratorCompatibilityRequest)
    (manifest : InputManifest) (settings : GeneratorSettingsV2)
    (inputs : GeneratorProcessingProtocolInputs) :
    Except ProcessingError PreparedGeneratorProcessing := do
  let settingsSchemaIdentity := generatorSettingsV2SchemaIdentity digests schema
  insist (settingsSchemaIdentity = compatibility.settingsSchemaIdentity)
    "implemented settings schema does not match the compatibility request"
  let settingsIdentity ← orElse (generatorSettingsV2Identity digests sizes settings)
    "could not identify generator settings"
  let settingsJson ← orElse (generatorSettingsV2CanonicalJson digests sizes settings)
    "could not serialize generator settings"
  let decision ← compatibilityDecision generator compatibility
  match manifest.inputSetIdentity with
  | none => throw (.message "available manifest has no input-set identity")
  | some inputSetIdentity =>
    let draft := invocationOf digests generator compatibility manifest inputSetIdentity
      settingsIdentity settingsSchemaIdentity settingsJson inputs
    let invocation := { draft with
      invocationIdentity := draft.computedInvocationIdentity digests }
    orElse (invocation.validateWithManifest digests manifest) "invalid generator invocation"
    return finishRecipe digests
      { recipeVersion := recipeVersion
        deployedGeneratorIdentity := generator.staticIdentity digests
        compatibility := compatibilityIdentity compatibility
        compatibilityDecision := decision
        compatibilityDecisionIdentity := hashJson digests "generator-compatibility-decision-v1"
          (CompatibilityDecisionIdentityPayload.codec.enc
            ⟨compatibilityIdentity compatibility, decision⟩)
        inputManifest := manifest
        settings := settings
        settingsIdentity := settingsIdentity
        settingsSchemaIdentity := settingsSchemaIdentity
        invocation := invocation }

/-- The checks of the manifest and of the settings against it. -/
def checkInputs (compatibility : GeneratorCompatibilityRequest) (manifest : InputManifest)
    (settings : GeneratorSettingsV2) (expected : List ExpectedPlacementSummaryV2) :
    Except ProcessingError Unit := do
  orElse (manifest.validate digests) "invalid generator input manifest"
  insist (manifest.decision.status = .available)
    "generator processing requires an available input manifest"
  insist (manifest.export_.kindIdentity = compatibility.inputKindIdentity)
    "manifest input kind does not match the compatibility request"
  insist (manifest.export_.schemaIdentity = compatibility.inputSchemaIdentity)
    "manifest input schema does not match the compatibility request"
  insist ((expected.map fun e => (e.objectIdentity, e.transportRole)) =
      manifest.objects.map fun o => (o.objectIdentity, o.role))
    "expected placements must match manifest object identity, role, and order"
  orElse (validateSettingsContextV2 sizes settings expected) "invalid generator settings context"

def prepareGeneratorProcessing (generator : DeployedGenerator)
    (compatibility : GeneratorCompatibilityRequest) (manifest : InputManifest)
    (settings : GeneratorSettingsV2) (expected : List ExpectedPlacementSummaryV2)
    (inputs : GeneratorProcessingProtocolInputs) :
    Except ProcessingError PreparedGeneratorProcessing := do
  let normalized := normalizeGeneratorSettingsV2 settings
  checkInputs digests sizes compatibility manifest normalized expected
  assemble digests sizes schema generator compatibility manifest normalized inputs

/-! ## Reopening -/

/-- `from_value`: a document of the right shape. -/
def decode {α : Type} (c : Codec α) (v : Value) : Except ProcessingError α :=
  match c.dec v with
  | some a => .ok a
  | none => .error .json

/-- The placements that are expected of a stored recipe are its own. -/
def storedPlacements (recipe : GeneratorProcessingRecipe) : List ExpectedPlacementSummaryV2 :=
  (recipe.inputManifest.objects.zip recipe.settings.placements).map fun (object, placement) =>
    ⟨object.objectIdentity, object.role, placement.matrix⟩

def storedCompatibility (recipe : GeneratorProcessingRecipe) : GeneratorCompatibilityRequest :=
  let c := recipe.compatibility
  ⟨c.protocolVersion, c.dialectIdentity, c.capabilityIdentities, c.inputKindIdentity,
    c.inputSchemaIdentity, c.settingsSchemaIdentity⟩

def storedInputs (recipe : GeneratorProcessingRecipe) : GeneratorProcessingProtocolInputs :=
  let content := recipe.invocation.settings.content
  { manifestPath := recipe.invocation.inputManifest.path
    settingsContentIdentity := content.contentIdentity
    settingsPath := content.path
    settingsMediaType := content.mediaType
    settingsDetectedKindIdentity := content.detectedKindIdentity
    output := recipe.invocation.output }

def reopenGeneratorProcessing (generator : DeployedGenerator)
    (processingHash recipeJson : String) :
    Except ProcessingError PreparedGeneratorProcessing := do
  let value ← (parseJson digests.text recipeJson recipeLimit).mapError .api
  let recipe ← decode GeneratorProcessingRecipe.codec value
  insist (recipe.deployedGeneratorIdentity = generator.staticIdentity digests ∧
      recipe.recipeVersion = recipeVersion ∧ recipe.compatibilityDecision = .supported)
    "stored generator recipe does not match the supported deployment"
  insist (recipe.inputManifest.objects.length = recipe.settings.placements.length)
    "stored generator placement order is incomplete"
  let prepared ← prepareGeneratorProcessing digests sizes schema generator
    (storedCompatibility recipe) recipe.inputManifest recipe.settings (storedPlacements recipe)
    (storedInputs recipe)
  insist (prepared.processingHash = processingHash ∧ prepared.recipeJson = recipeJson)
    "stored generator recipe integrity mismatch"
  return prepared

end Prepare

end Processing
end OnshapeExport
