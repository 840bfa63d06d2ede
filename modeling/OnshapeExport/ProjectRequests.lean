import OnshapeExport.Canonicalization
import OnshapeExport.GeneratorProcessing
import OnshapeExport.GeneratorPublication

/-!
# ProjectRequests

The requests of `bambu_project.rs`: what `enqueue` freezes, how it is identified and where its
output goes. Whether the release is configured, the sources and the database are asked of the
service.

* `profileIdentity`, `catalogIdentity` — the policies a request is frozen under.
* `ProjectJob.identity` — the hash of a request without its own identity.
* `freeze` — the request of a model, a configuration and selectors.
* `request_of_configHash` — one request for a configuration.
-/

namespace OnshapeExport
namespace Projects

open CacheKey CacheModel Catalogs Checks Deployed Json OnshapeApi Parameters Processing Protocol
  GeneratorPublication Selection

def requestLimit : Nat := 131072
def maxGeometryFileBytes : Nat := 16777216
def maxGeometryTotalBytes : Nat := 67108864
def maxOutputBytes : Nat := 33554432

inductive ProjectError where
  | failure (category code : String)
  | message (text : String)
deriving DecidableEq, Repr

structure ProjectJob where
  modelSlug : String
  sourceHash : String
  configHash : String
  values : SortedMap String
  selectors : List SelectionSelector
  generatorStaticIdentity : String
  policyIdentity : String
  catalogIdentity : String
  requestIdentity : String
deriving DecidableEq

/-! ## Documents -/

def selectorDocument : SelectionSelector → Value
  | .part partId => .ofFields [("partId", .string partId)]
  | .occurrence occurrencePath =>
    .ofFields [("occurrencePath", .array (occurrencePath.map .string))]

def optionDocument : Option String → Value
  | none => .null
  | some s => .string s

def sourceDocument (s : OnshapeSource) : Value :=
  .ofFields ([("documentId", .string s.documentId), ("versionId", .string s.versionId),
    ("elementId", .string s.elementId), ("elementKind", .string s.elementKind.key)] ++
    s.linkDocumentId.toList.map fun link => ("linkDocumentId", .string link))

def overrideDocument (o : ParameterOverride) : Value :=
  .ofFields [("label", optionDocument o.label), ("description", optionDocument o.description),
    ("hidden", .bool o.hidden),
    ("precision", match o.precision with
      | none => .null
      | some n => .number (.int n)),
    ("widget", optionDocument o.widget)]

def policyDocument (p : ParameterPolicy) : Value :=
  .ofFields [("source", .string "onshape"), ("allowUnknown", .bool p.allowUnknown),
    ("autoRefresh", .bool p.autoRefresh)]

def ProjectJob.document (r : ProjectJob) : Value :=
  .ofFields [("modelSlug", .string r.modelSlug), ("sourceHash", .string r.sourceHash),
    ("configHash", .string r.configHash),
    ("values", .object (r.values.members.map fun m => (m.1, .string m.2))),
    ("selectors", .array (r.selectors.map selectorDocument)),
    ("generatorStaticIdentity", .string r.generatorStaticIdentity),
    ("policyIdentity", .string r.policyIdentity),
    ("catalogIdentity", .string r.catalogIdentity),
    ("requestIdentity", .string r.requestIdentity)]

/-! ## The deployment -/

structure GeneratorInputPolicy where
  requirementsIdentity : String
  inputKindIdentity : String
  inputSchemaIdentity : String
  detectedKindIdentity : String
  mediaType : String
deriving DecidableEq, Repr

def inputPolicy (g : DeployedGenerator) : GeneratorInputPolicy where
  requirementsIdentity := "onshape-export-bambu-mvp-v1"
  inputKindIdentity := g.document.inputKindIdentity
  inputSchemaIdentity := g.document.inputSchemaIdentity
  detectedKindIdentity := g.document.inputKindIdentity
  mediaType := "model/3mf"

def compatibility (g : DeployedGenerator) : GeneratorCompatibilityRequest where
  protocolVersion := g.document.protocolVersion
  dialectIdentity := g.document.dialectIdentity
  capabilityIdentities := g.document.capabilityIdentities
  inputKindIdentity := g.document.inputKindIdentity
  inputSchemaIdentity := g.document.inputSchemaIdentity
  settingsSchemaIdentity := g.document.settingsSchemaIdentity

def protocolInputs (g : DeployedGenerator) : GeneratorProcessingProtocolInputs where
  manifestPath := "inputs/manifest.json"
  settingsContentIdentity := "onshape-export-generator-settings-v2"
  settingsPath := "inputs/settings.json"
  settingsMediaType := "application/json"
  settingsDetectedKindIdentity := g.document.settingsSchemaIdentity
  output := ⟨"onshape-export-bambu-project-output-v1", "outputs/project.3mf", "model/3mf",
    maxOutputBytes⟩

section Identities

variable (digests : Digests)

def profileIdentity (g : DeployedGenerator) : String :=
  let policy := inputPolicy g
  let compatible := compatibility g
  let protocol := protocolInputs g
  hashJson digests "onshape-export-bambu-project-policy-v1" <| .ofFields
    [("requirementsIdentity", .string policy.requirementsIdentity),
     ("inputKindIdentity", .string policy.inputKindIdentity),
     ("inputSchemaIdentity", .string policy.inputSchemaIdentity),
     ("detectedKindIdentity", .string policy.detectedKindIdentity),
     ("mediaType", .string policy.mediaType),
     ("maxGeometryFileBytes", .number (.int maxGeometryFileBytes)),
     ("maxGeometryTotalBytes", .number (.int maxGeometryTotalBytes)),
     ("protocolVersion", .number (.int compatible.protocolVersion)),
     ("dialectIdentity", .string compatible.dialectIdentity),
     ("capabilityIdentities", .array (compatible.capabilityIdentities.map .string)),
     ("settingsSchemaIdentity", .string compatible.settingsSchemaIdentity),
     ("manifestPath", .string protocol.manifestPath),
     ("settingsContentIdentity", .string protocol.settingsContentIdentity),
     ("settingsPath", .string protocol.settingsPath),
     ("settingsMediaType", .string protocol.settingsMediaType),
     ("settingsDetectedKindIdentity", .string protocol.settingsDetectedKindIdentity),
     ("output", OutputDeclaration.codec.enc protocol.output)]

def catalogIdentity (m : Model) : String :=
  hashJson digests "onshape-export-bambu-project-catalog-v1" <| .ofFields
    [("slug", .string m.slug), ("published", .bool m.published),
     ("source", sourceDocument m.onshape),
     ("project", match m.exports.bambuProject with
       | none => .null
       | some project =>
         .ofFields [("selectors", .array (project.selectors.map selectorDocument))]),
     ("parameterPolicy", policyDocument m.parameterPolicy),
     ("parameterOverrides", .ofFields
       (m.parameterOverrides.map fun o => (o.1, overrideDocument o.2)))]

namespace ProjectJob

def identity (r : ProjectJob) : String :=
  hashJson digests "onshape-export-bambu-project-request-v1"
    { r with requestIdentity := "" }.document

def canonicalJson (r : ProjectJob) : Except ProjectError String :=
  let json := CacheKey.canonicalJson digests r.document
  if requestLimit < json.utf8ByteSize then
    .error (.message "project request exceeds its bound")
  else .ok json

end ProjectJob

/-! ## Freezing -/

def apiFailure (e : ApiFailure) : ProjectError :=
  match e.kind with
  | .invalidSelection => .failure "invalid_selection" "selection_invalid"
  | .unavailableSourceState => .failure "unavailable_source_state" "selected_source_unavailable"
  | .authenticationFailure => .failure "operational_failure" "onshape_authentication"
  | .transportFailure => .failure "operational_failure" "onshape_transport"
  | .operationalTimeoutFailure => .failure "operational_failure" "acquisition_timeout"
  | .operationalTranslationFailure => .failure "operational_failure" "translation_failed"
  | .operationalHttpFailure => .failure "operational_failure" "onshape_http"
  | .operationalApiContractFailure => .failure "operational_failure" "onshape_contract"

def validateSelectors (m : Model) (selectors : List SelectionSelector) :
    Except ProjectError Unit := do
  match m.exports.bambuProject with
  | none => throw (.failure "unavailable_source_state" "project_not_enabled")
  | some project =>
    if project.selectors ≠ selectors then
      throw (.failure "invalid_selection" "catalog_selection_mismatch")
    (m.selectionRequest "preflight" selectors).preflight.mapError apiFailure
    if m.onshape.linkDocumentId.isSome then
      throw (.failure "unavailable_source_state" "linked_source_unsupported")

/-- What the service answers to an `enqueue`. -/
structure Answers where
  configured : Option DeployedGenerator
  outputRoot : Bool
  sourceHash : Option String
  persisted : Bool

def orFailure {α : Type} (answer : Option α) (category code : String) : Except ProjectError α :=
  match answer with
  | none => .error (.failure category code)
  | some a => .ok a

variable (hashes : ExportHashes)

/-- `configuration_hash`. -/
def configurationHash (sourceHash : String) (v : ValidatedConfiguration) : String :=
  hashes.configHash ⟨canonicalizationVersion, sourceHash, Parameters.schemaVersion,
    v.typedValues.members⟩

def frozenRequest (generator : DeployedGenerator) (sourceHash : String) (m : Model)
    (v : ValidatedConfiguration) (selectors : List SelectionSelector) : ProjectJob :=
  let draft : ProjectJob := {
    modelSlug := m.slug
    sourceHash := sourceHash
    configHash := configurationHash hashes sourceHash v
    values := v.values
    selectors := selectors
    generatorStaticIdentity := generator.staticIdentity digests
    policyIdentity := profileIdentity digests generator
    catalogIdentity := catalogIdentity digests m
    requestIdentity := "" }
  { draft with requestIdentity := draft.identity digests }

/-- The request that `enqueue` stores, and its text. -/
def freeze (answers : Answers) (m : Model) (v : ValidatedConfiguration)
    (selectors : List SelectionSelector) : Except ProjectError (ProjectJob × String) := do
  let generator ← orFailure answers.configured "deployment_unavailable"
    "approved_generator_unavailable"
  validateSelectors m selectors
  ensure (answers.outputRoot = true)
    (.failure "deployment_unavailable" "output_retention_unavailable")
  let sourceHash ← orFailure answers.sourceHash "operational_failure" "source_resolution_failed"
  ensure (answers.persisted = true)
    (.failure "operational_failure" "configuration_persistence_failed")
  let request := frozenRequest digests hashes generator sourceHash m v selectors
  let json ← request.canonicalJson digests
  return (request, json)

end Identities

def workKey (requestIdentity : String) : String := "bambu-project-v1:" ++ requestIdentity

/-- `to_string` writes the values as the text of an object. -/
def target (jsonText : Value → String) (r : ProjectJob) (g : DeployedGenerator)
    (producingJobKey : Option String) : GeneratorPublicationTarget where
  modelSlug := r.modelSlug
  outputKind := slicerProject g.document.dialectIdentity
  format := "project_3mf"
  logicalPath := r.modelSlug ++ "-bambu-project.3mf"
  producingJobKey := producingJobKey
  parameterSchemaVersion := Parameters.schemaVersion
  configValuesJson := jsonText (.object (r.values.members.map fun m => (m.1, .string m.2)))

/-! ## One request for a configuration -/

section Requests

variable {digests : Digests} {hashes : ExportHashes}

theorem orFailure_ok {α : Type} {answer : Option α} {category code : String} {a : α} :
    orFailure answer category code = .ok a ↔ answer = some a := by
  cases answer <;> simp [orFailure]

theorem freeze_ok {answers : Answers} {m : Model} {v : ValidatedConfiguration}
    {selectors : List SelectionSelector} {r : ProjectJob} {json : String}
    (h : freeze digests hashes answers m v selectors = .ok (r, json)) :
    ∃ generator sourceHash, answers.configured = some generator ∧
      answers.sourceHash = some sourceHash ∧
      r = frozenRequest digests hashes generator sourceHash m v selectors := by
  obtain ⟨generator, hgenerator, h⟩ := bind_ok.mp h
  obtain ⟨-, h⟩ := seq_ok.mp h
  obtain ⟨-, h⟩ := seq_ok.mp h
  obtain ⟨sourceHash, hsource, h⟩ := bind_ok.mp h
  obtain ⟨-, h⟩ := seq_ok.mp h
  obtain ⟨json', -, h⟩ := bind_ok.mp h
  obtain ⟨rfl, -⟩ := Prod.mk.inj (Except.ok.inj h)
  exact ⟨generator, sourceHash, orFailure_ok.mp hgenerator, orFailure_ok.mp hsource, rfl⟩

theorem frozenRequest_eq (hinj : Function.Injective hashes.configHash) {schema : ParameterSchema}
    (hids : schema.known.Nodup) {submitted submitted' : SortedMap String} {allowUnknown : Bool}
    {v v' : ValidatedConfiguration}
    (hok : validateValues schema submitted allowUnknown = some (.ok v))
    (hok' : validateValues schema submitted' allowUnknown = some (.ok v'))
    {generator : DeployedGenerator} {sourceHash : String} {m : Model}
    {selectors : List SelectionSelector}
    (h : configurationHash hashes sourceHash v = configurationHash hashes sourceHash v') :
    frozenRequest digests hashes generator sourceHash m v selectors =
      frozenRequest digests hashes generator sourceHash m v' selectors := by
  have hpayload := hinj h
  injection hpayload with _ _ _ htyped
  have htyped' : v.typedValues = v'.typedValues :=
    SortedMap.ext fun key => congrArg (Json.get? · key) htyped
  have hvalues := values_of_typedValues hids hok hok' htyped'
  have hv : v = v' := by
    cases v
    cases v'
    rw [ValidatedConfiguration.mk.injEq]
    exact ⟨hvalues, htyped'⟩
  rw [hv]

variable (digests hashes) in
/-- Values that are typed alike are kept alike, and under one model, source and deployment a
configuration has one request and one publication. -/
def SameRequest (v v' : ValidatedConfiguration) : Prop :=
  (v.typedValues = v'.typedValues → v.values = v'.values) ∧
  ∀ answers answers' : Answers, answers.configured = answers'.configured →
    answers.sourceHash = answers'.sourceHash → ∀ m selectors r json r' json',
    freeze digests hashes answers m v selectors = .ok (r, json) →
    freeze digests hashes answers' m v' selectors = .ok (r', json') →
    r.configHash = r'.configHash →
      r.requestIdentity = r'.requestIdentity ∧
      ∀ jsonText g,
        target jsonText r g (some (workKey r.requestIdentity)) =
          target jsonText r' g (some (workKey r'.requestIdentity))

theorem request_of_configHash (hinj : Function.Injective hashes.configHash)
    {schema : ParameterSchema} (hids : schema.known.Nodup)
    {submitted submitted' : SortedMap String} {allowUnknown : Bool} {v v' : ValidatedConfiguration}
    (hok : validateValues schema submitted allowUnknown = some (.ok v))
    (hok' : validateValues schema submitted' allowUnknown = some (.ok v')) :
    SameRequest digests hashes v v' := by
  refine ⟨values_of_typedValues hids hok hok', ?_⟩
  intro answers answers' hconfigured hsource m selectors r json r' json' hr hr' hconfig
  obtain ⟨generator, sourceHash, hgenerator, hhash, rfl⟩ := freeze_ok hr
  obtain ⟨generator', sourceHash', hgenerator', hhash', rfl⟩ := freeze_ok hr'
  rw [hconfigured, hgenerator', Option.some.injEq] at hgenerator
  rw [hsource, hhash', Option.some.injEq] at hhash
  subst hgenerator hhash
  rw [frozenRequest_eq hinj hids hok hok' hconfig]
  exact ⟨rfl, fun _ _ => rfl⟩

/-- The fields of a typed value, its kind first. -/
def valueFields : CanonicalParameterValue → List String
  | .text value => ["t", value]
  | .number n d => ["n", n, d]
  | .quantity .length n d unit => ["l", n, d, unit]
  | .quantity .angle n d unit => ["a", n, d, unit]
  | .boolean true => ["true"]
  | .boolean false => ["false"]
  | .enum value => ["e", value]

theorem valueFields_injective : Function.Injective valueFields := by
  rintro (a | ⟨n, d⟩ | ⟨_ | _, n, d, u⟩ | (_ | _) | a)
    (b | ⟨n', d'⟩ | ⟨_ | _, n', d', u'⟩ | (_ | _) | b) <;> simp [valueFields]

/-- A stand-in for the hash of a configuration. -/
def joinConfig (p : ConfigHashPayload) : String :=
  joinFields [natField p.canonicalizationVersion, p.sourceHash, natField p.parameterSchemaVersion,
    joinFields (p.typedValues.map fun m => joinFields (m.1 :: valueFields m.2))]

theorem joinConfig_injective : Function.Injective joinConfig := by
  intro p p' h
  have hlist := joinFields_injective h
  simp only [List.cons.injEq, and_true] at hlist
  obtain ⟨hversion, hsource, hschema, htyped⟩ := hlist
  have hmember : Function.Injective fun m : String × CanonicalParameterValue =>
      joinFields (m.1 :: valueFields m.2) := by
    rintro ⟨k, x⟩ ⟨k', x'⟩ hm
    obtain ⟨hk, hx⟩ := List.cons.inj (joinFields_injective hm)
    exact Prod.ext hk (valueFields_injective hx)
  have hmembers := List.map_injective_iff.mpr hmember (joinFields_injective htyped)
  have hversion' := natField_injective hversion
  have hschema' := natField_injective hschema
  cases p
  cases p'
  rw [ConfigHashPayload.mk.injEq]
  exact ⟨hversion', hsource, hschema', hmembers⟩

def joinHashes : ExportHashes where
  sourceHash _ := ""
  configHash := joinConfig
  optionsHash _ _ _ := ""
  requestHash _ := ""
  postprocessHash _ := ""

/-- A tenth written in two ways has one request. -/
theorem request_of_tenths : ∃ v v',
    validateValues lengthSchema (submittedLength (tiny 0)) false = some (.ok v) ∧
    validateValues lengthSchema (submittedLength { tiny 0 with sign := .plus }) false =
      some (.ok v') ∧
    ∀ digests, SameRequest digests joinHashes v v' := by
  obtain ⟨v, hok⟩ := length_accepted (tiny 0)
  obtain ⟨v', hok'⟩ := length_accepted { tiny 0 with sign := .plus }
  have hids : lengthSchema.known.Nodup := List.nodup_singleton _
  exact ⟨v, v', hok, hok', fun _ => request_of_configHash joinConfig_injective hids hok hok'⟩

end Requests

end Projects
end OnshapeExport
