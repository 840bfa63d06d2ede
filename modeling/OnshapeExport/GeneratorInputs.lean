import OnshapeExport.GeneratorRunner
import OnshapeExport.GeometryAcquisition
import OnshapeExport.SettingsCompilation

/-!
# GeneratorInputs

How `generator_inputs.rs` makes the inputs of a generator from acquired geometry: a manifest with
one object for every object of the plan, and settings with its placement.

* `allocateRetainedPaths` — the paths of the objects, from their positions and identities.
* `constructGeneratorInputs` — the manifest, the settings and their checks.
* `ConstructedGeneratorInputs.validateRequest` — the check of a request for them.
-/

namespace OnshapeExport

/-! ## Documents of the protocol -/

namespace Protocol

open CacheKey Checks Json

def maxRequestBytes : Nat := 1048576
def maxInputManifestBytes : Nat := 1048576

section Documents

variable (digests : Digests)

/-- `parse_json`. -/
def parseDocument {α : Type} (c : Codec α) (limit : Nat) (document : String) (bytes : ByteArray) :
    Except ProtocolError α := do
  ensure (bytes.size ≤ limit) (.documentTooLarge document limit)
  match Runner.fromSlice digests.text c bytes with
  | none => throw (.invalidJson document "")
  | some a => return a

def parseRequest (bytes : ByteArray) : Except ProtocolError GeneratorRequest := do
  let request ← parseDocument digests GeneratorRequest.codec maxRequestBytes "generator request" bytes
  request.validate digests
  return request

def parseInputManifest (bytes : ByteArray) : Except ProtocolError InputManifest := do
  let manifest ← parseDocument digests InputManifest.codec maxInputManifestBytes "input manifest" bytes
  manifest.validate digests
  return manifest

end Documents

end Protocol

namespace Construction

open CacheKey CacheModel Checks Json
open Annotation (AnnotationError ExpectedPlacementSummaryV2 GeneratorSettings GeneratorSettingsBlocker
  GeneratorSettingsV2 Sizes buildGeneratorSettings generatorSettingsV2CanonicalJson
  generatorSettingsV2Identity generatorSettingsV2SchemaIdentity normalizeGeneratorSettingsV2
  settingsV2SchemaVersion validateNormalizedGeneratorSettingsV2 validateSettingsContextV2)
open Geometry (AcquiredGeometry OccurrencePayloadBinding RetainedPayload TrustedAcquisitionPlan
  acquisitionEvidenceIdentity validateAcquisitionHandoff)
open OnshapeApi (ApiFailure)
open Protocol
open Selection (ResolvedSelectionObject ResolvedSelectionPlan authoringDocument)

structure GeneratorInputPolicy where
  requirementsIdentity : String
  inputKindIdentity : String
  inputSchemaIdentity : String
  detectedKindIdentity : String
  mediaType : String
deriving DecidableEq, Repr

structure ConstructedGeneratorInputs where
  manifest : InputManifest
  settings : GeneratorSettingsV2
  expectedPlacements : List ExpectedPlacementSummaryV2
  settingsIdentity : String
  settingsSchemaIdentity : String
  settingsBytes : String
  acquired : AcquiredGeometry

/-- Selected by the position in the manifest. -/
def ConstructedGeneratorInputs.payload (inputs : ConstructedGeneratorInputs) (position : Nat) :
    Option RetainedPayload :=
  inputs.acquired.bindings[position]?.map OccurrencePayloadBinding.retainedPayload

/-- The errors of `anyhow`; `panicked` is an index out of range. -/
inductive ConstructionError where
  | handoff (e : ApiFailure)
  | protocol (e : ProtocolError)
  | authoring (e : AnnotationError)
  | message (text : String)
  | panicked

/-! ## Paths -/

/-- `{position:03}`. -/
def paddedPosition (position : Nat) : String :=
  String.ofList ((toString position).toList.leftpad 3 '0')

def retainedPath (position : Nat) (identity : String) : String :=
  "inputs/geometry-v1/" ++ paddedPosition position ++ "-" ++ identity ++ ".3mf"

def validateAllocatedPaths (paths : List String) : Except ConstructionError Unit :=
  let text := "allocated retained paths must be unique and beneath inputs/"
  eachNew (fun _ path => do
      (validateRelativePath path "retainedContent.path").mapError .protocol
      ensure ("inputs/".toList.isPrefixOf path.toList = true) (.message text)) id
    (fun _ _ => .message text) (fun _ _ => .ok ()) 0 [] paths

def allocateRetainedPaths (identities : List String) : Except ConstructionError (List String) := do
  ensure (1 ≤ identities.length ∧ identities.length ≤ maxInputObjects)
    (.message "path allocation requires 1 to 256 manifest objects")
  let text := "path allocation requires unique lowercase SHA-256 object identities"
  eachNew (fun _ identity => ensure (OnshapeApi.isSha256 identity = true) (.message text)) id
    (fun _ _ => .message text) (fun _ _ => .ok ()) 0 [] identities
  let paths := identities.zipIdx.map fun (identity, position) => retainedPath position identity
  validateAllocatedPaths paths
  return paths

/-! ## Identities -/

section Construct

variable (digests : Digests) (sizes : Sizes) (hashes : ExportHashes) (schema : Value)

def manifestObjectIdentity (planLocalObjectIdentity : String) : String :=
  hashJson digests "onshape-export-manifest-object-v1"
    (.ofFields [("planLocalObjectIdentity", .string planLocalObjectIdentity)])

def contentIdentity (payload : RetainedPayload) : String :=
  hashJson digests "onshape-export-retained-geometry-content-v1"
    (.ofFields [("sha256", .string payload.sha256), ("byteLength", .number (.int payload.byteLength))])

/-- Every object has evidence. -/
def observationIdentity (objects : List InputObject) : String :=
  hashJson digests "onshape-export-geometry-observation-v1" (.array (objects.map fun o =>
    .ofFields [("objectIdentity", .string o.objectIdentity),
      ("evidenceIdentity", .string ((o.mapping.evidence.map MappingEvidence.evidenceIdentity).getD ""))]))

/-! ## The manifest -/

def inputObject (policy : GeneratorInputPolicy) (object : ResolvedSelectionObject)
    (binding : OccurrencePayloadBinding) (identity path : String) : InputObject where
  objectIdentity := identity
  role := object.annotation.role.transportRole
  retainedContent :=
    { contentIdentity := contentIdentity digests binding.retainedPayload
      path := path
      sha256 := binding.retainedPayload.sha256
      byteLength := binding.retainedPayload.byteLength
      mediaType := policy.mediaType
      detectedKindIdentity := policy.detectedKindIdentity }
  mapping :=
    { status := .proven
      evidence := some ⟨"immutable-leaf-causal-acquisition-v1",
        acquisitionEvidenceIdentity digests binding.acquisitionEvidence⟩
      reason := none }
  sourceObjectIdentity := some object.planLocalObjectIdentity
  occurrencePath := none
  producerResultIdentity := none
  sourceFilename := none
  displayName := some object.displayName
  parentObjectIdentity := none

def inputObjects (policy : GeneratorInputPolicy) (acquired : AcquiredGeometry)
    (identities paths : List String) : List InputObject :=
  ((acquired.plan.objects.zip acquired.bindings).zip (identities.zip paths)).map
    fun ((object, binding), (identity, path)) =>
      inputObject digests policy object binding identity path

/-- The manifest of the objects, with the identities that are computed from it. -/
def inputManifest (policy : GeneratorInputPolicy) (plan : ResolvedSelectionPlan)
    (objects : List InputObject) : InputManifest :=
  let draft : InputManifest :=
    { protocolVersion := protocolVersion
      manifestVersion := inputManifestVersion
      manifestIdentity := ""
      inputSetIdentity := none
      requirementsIdentity := policy.requirementsIdentity
      sourceIdentity := hashes.sourceHash (Geometry.source plan).payload
      configurationIdentity := plan.root.configurationIdentity
      export_ :=
        { kindIdentity := policy.inputKindIdentity
          schemaIdentity := policy.inputSchemaIdentity
          groupingPolicy := .individual
          observationStatus := .proven
          observationEvidenceIdentity := some (observationIdentity digests objects) }
      decision := ⟨.available, none⟩
      objects := objects }
  let manifest := { draft with inputSetIdentity := draft.computedInputSetIdentity digests }
  { manifest with manifestIdentity := manifest.computedManifestIdentity digests }

/-! ## The settings -/

def generatorSettings (plan : ResolvedSelectionPlan) (identities : List String)
    (blockers : List GeneratorSettingsBlocker) : GeneratorSettingsV2 where
  schemaVersion := settingsV2SchemaVersion
  blockers := blockers
  placements := (plan.objects.zip identities).map fun (object, identity) =>
    ⟨identity, object.expectedNeutralPlacementMatrix.1⟩

def expectedPlacements (plan : ResolvedSelectionPlan) (manifest : InputManifest) :
    List ExpectedPlacementSummaryV2 :=
  (plan.objects.zip manifest.objects).map fun (planned, object) =>
    ⟨object.objectIdentity, object.role, planned.expectedNeutralPlacementMatrix.1⟩

/-! ## The construction -/

def validateConstruction (manifest : InputManifest) (settings : GeneratorSettingsV2)
    (expected : List ExpectedPlacementSummaryV2) : Except ConstructionError Unit := do
  let _ ← (parseInputManifest digests
    (canonicalJson digests (InputManifest.codec.enc manifest)).toByteArray).mapError .protocol
  ensure ((expected.map fun e => (e.objectIdentity, e.transportRole)) =
      manifest.objects.map fun o => (o.objectIdentity, o.role))
    (.message "expected placement summary does not match manifest order, identity, and role")
  (validateNormalizedGeneratorSettingsV2 sizes
    (normalizeGeneratorSettingsV2 settings)).mapError .authoring
  (validateSettingsContextV2 sizes settings expected).mapError .authoring

def constructGeneratorInputs (trusted : TrustedAcquisitionPlan) (acquired : AcquiredGeometry)
    (policy : GeneratorInputPolicy) : Except ConstructionError ConstructedGeneratorInputs := do
  (validateAcquisitionHandoff digests sizes trusted acquired).mapError .handoff
  each (fun _ (p : String × String) => (validateIdentity p.2 p.1).mapError .protocol) 0
    [("requirementsIdentity", policy.requirementsIdentity),
     ("inputKindIdentity", policy.inputKindIdentity),
     ("inputSchemaIdentity", policy.inputSchemaIdentity),
     ("detectedKindIdentity", policy.detectedKindIdentity)]
  let plan := acquired.plan
  let identities := plan.objects.map fun o => manifestObjectIdentity digests o.planLocalObjectIdentity
  let paths ← allocateRetainedPaths identities
  let manifest := inputManifest digests hashes policy plan
    (inputObjects digests policy acquired identities paths)
  match buildGeneratorSettings sizes (authoringDocument plan.objects) identities with
  | none => throw .panicked
  | some built => do
    let built ← built.mapError .authoring
    let expected := expectedPlacements plan manifest
    let settings := normalizeGeneratorSettingsV2 (generatorSettings plan identities built.blockers)
    validateConstruction digests sizes manifest settings expected
    let settingsIdentity ← (generatorSettingsV2Identity digests sizes settings).mapError .authoring
    let settingsBytes ←
      (generatorSettingsV2CanonicalJson digests sizes settings).mapError .authoring
    return { manifest := manifest
             settings := settings
             expectedPlacements := expected
             settingsIdentity := settingsIdentity
             settingsSchemaIdentity := generatorSettingsV2SchemaIdentity digests schema
             settingsBytes := settingsBytes
             acquired := acquired }

def ConstructedGeneratorInputs.validateRequest (inputs : ConstructedGeneratorInputs)
    (request : GeneratorRequest) : Except ConstructionError Unit := do
  validateConstruction digests sizes inputs.manifest inputs.settings inputs.expectedPlacements
  let _ ← (parseRequest digests
    (canonicalJson digests (GeneratorRequest.codec.enc request)).toByteArray).mapError .protocol
  (request.validateWithManifest digests inputs.manifest).mapError .protocol
  ensure (request.settings.settingsIdentity = inputs.settingsIdentity ∧
      request.settings.schemaIdentity = inputs.settingsSchemaIdentity ∧
      request.settings.content.sha256 = digests.sha256 inputs.settingsBytes ∧
      request.settings.content.byteLength = inputs.settingsBytes.utf8ByteSize)
    (.message "request settings do not match the constructed canonical settings")

end Construct

end Construction
end OnshapeExport
