import OnshapeExport.AcquisitionRuns
import OnshapeExport.FailurePositions
import OnshapeExport.InputsConstruction

/-!
# RunnerPreflight

From accepted geometry to an invocation: what is constructed of it is prepared for every request
that the deployed generator supports, and the runner finds nothing wrong with what was prepared.

* `preflight` — the checks of `generator_runner.rs` before a root is made.
* `ValidInputs`, `invocation_valid` — what an invocation is given, and its checks.
* `prepare_ok`, `preflight_ok` — what is prepared passes the preflight.
* `geometry_runnable` — the whole way.
-/

namespace OnshapeExport

namespace Runner

open Annotation CacheKey Checks Construction Deployed Json Processing Protocol

section Preflight

variable (digests : Digests) (sizes : Annotation.Sizes)

/-- Settings are compared as floats are: without the signs of zeros. -/
def preflight (generator : DeployedGenerator) (inputs : Construction.ConstructedGeneratorInputs)
    (prepared : PreparedGeneratorProcessing) :
    Except GeneratorRunnerError (GeneratorRequest × Layout) := do
  let recipe := prepared.recipe
  ensure (recipe.compatibilityDecision = .supported) .unsupportedCombination
  (generator.ensureCompatible (storedCompatibility recipe)).mapError
    fun _ => GeneratorRunnerError.unsupportedCombination
  let request := recipe.invocation
  ensure (recipe.deployedGeneratorIdentity = generator.staticIdentity digests ∧
      recipe.inputManifest = inputs.manifest ∧
      normalizeGeneratorSettingsV2 recipe.settings = normalizeGeneratorSettingsV2 inputs.settings ∧
      recipe.settingsIdentity = inputs.settingsIdentity ∧
      recipe.settingsSchemaIdentity = inputs.settingsSchemaIdentity ∧
      request.protocolVersion = generator.document.protocolVersion ∧
      request.expectedIdentities = generator.identityBindings inputs.settingsIdentity)
    .invalidInvocation
  (inputs.validateRequest digests sizes request).mapError
    fun _ => GeneratorRunnerError.invalidInvocation
  let layout ← Layout.new inputs.manifest request
  return (request, layout)

end Preflight

end Runner

namespace Construction

open Annotation CacheKey CacheModel Checks Deployed Json Processing Protocol Selection
open Geometry (AcquiredGeometry TrustedAcquisitionPlan validateAcquisitionHandoff)
open Relational
open Runner (Layout Separate declaredPaths pathOf preflight)

/-! ## The inputs of the protocol -/

/-- Paths and identities that an invocation can be given. -/
structure ValidInputs (inputs : GeneratorProcessingProtocolInputs) : Prop where
  manifestPath : ∀ field, validateRelativePath inputs.manifestPath field = .ok ()
  manifestUnder : isUnderDirectory inputs.manifestPath "inputs" = true
  contentIdentity : visible Protocol.maxIdentityLength inputs.settingsContentIdentity = true
  settingsPath : ∀ field, validateRelativePath inputs.settingsPath field = .ok ()
  settingsUnder : isUnderDirectory inputs.settingsPath "inputs" = true
  settingsMedia : isMediaType inputs.settingsMediaType = true
  detectedKind : visible Protocol.maxIdentityLength inputs.settingsDetectedKindIdentity = true
  output : visible Protocol.maxIdentityLength inputs.output.outputIdentity = true
  outputPath : ∀ field, validateRelativePath inputs.output.path field = .ok ()
  outputUnder : isUnderDirectory inputs.output.path "outputs" = true
  outputMedia : isMediaType inputs.output.mediaType = true
  outputLength : 0 < inputs.output.maxByteLength ∧
    inputs.output.maxByteLength ≤ maxSafeJsonInteger

/-- The paths of an invocation, apart from those of the runner. -/
def invocationPaths (manifest : InputManifest) (inputs : GeneratorProcessingProtocolInputs) :
    List String :=
  [inputs.manifestPath, inputs.settingsPath, inputs.output.path] ++
    manifest.objects.map fun o => o.retainedContent.path

theorem pathOf_under {path directory : String} (hplain : '/' ∉ directory.toList)
    (h : isUnderDirectory path directory = true) :
    ∃ rest, rest ≠ [] ∧ pathOf path = directory :: rest := by
  obtain ⟨rest, hne, hpath⟩ := underDirectory_iff.mp h
  refine ⟨(rest.splitOn '/').map String.ofList, ?_, ?_⟩
  · simp [List.splitOn_ne_nil]
  · rw [pathOf, hpath, List.splitOn_append_cons_self_of_not_mem hplain, List.map_cons,
      String.ofList_toList]

/-- A file of the runner is neither above nor below a path of an invocation. -/
theorem apart_of_under {name path directory : String} (hplain : '/' ∉ directory.toList)
    (hname : pathOf name = [name]) (hne : name ≠ directory)
    (h : isUnderDirectory path directory = true) :
    name ≠ path ∧ ¬ Runner.Above (pathOf name) (pathOf path) ∧
      ¬ Runner.Above (pathOf path) (pathOf name) := by
  obtain ⟨rest, hrest, hpath⟩ := pathOf_under hplain h
  rw [hname, hpath]
  refine ⟨?_, ?_, ?_⟩
  · rintro rfl
    rw [hname] at hpath
    exact hne (List.cons.inj hpath).1
  · rintro ⟨hle, -⟩
    exact hne (List.cons_prefix_cons.mp hle).1
  · rintro ⟨hle, -⟩
    exact hne (List.cons_prefix_cons.mp hle).1.symm

/-- A path beneath one of the directories of an invocation. -/
def Beneath (path : String) : Prop :=
  isUnderDirectory path "inputs" = true ∨ isUnderDirectory path "outputs" = true

theorem apart_of_beneath {path : String} (h : Beneath path) :
    (∀ name ∈ [Runner.requestPath, Runner.resultPath], name ≠ path ∧
      ¬ Runner.Above (pathOf name) (pathOf path) ∧ ¬ Runner.Above (pathOf path) (pathOf name)) := by
  have hinputs : '/' ∉ "inputs".toList := by decide
  have houtputs : '/' ∉ "outputs".toList := by decide
  have hrequest : pathOf Runner.requestPath = [Runner.requestPath] := by decide +kernel
  have hresult : pathOf Runner.resultPath = [Runner.resultPath] := by decide +kernel
  intro name hname
  rcases List.mem_cons.mp hname with rfl | hname
  · rcases h with h | h
    · exact apart_of_under hinputs hrequest (by decide) h
    · exact apart_of_under houtputs hrequest (by decide) h
  · rw [List.mem_singleton.mp hname]
    rcases h with h | h
    · exact apart_of_under hinputs hresult (by decide) h
    · exact apart_of_under houtputs hresult (by decide) h

/-- The files of the runner stay apart from the paths of an invocation. -/
theorem separate_runner {paths : List String} (h : Separate paths)
    (hbeneath : ∀ p ∈ paths, Beneath p) :
    Separate (Runner.requestPath :: Runner.resultPath :: paths) := by
  obtain ⟨hn, habove⟩ := h
  have hapart := fun p hp => apart_of_beneath (hbeneath p hp)
  have hrunner : ∀ p ∈ [Runner.requestPath, Runner.resultPath],
      ∀ q ∈ [Runner.requestPath, Runner.resultPath], ¬ Runner.Above (pathOf p) (pathOf q) := by
    decide +kernel
  have hsplit : ∀ p ∈ Runner.requestPath :: Runner.resultPath :: paths,
      p ∈ [Runner.requestPath, Runner.resultPath] ∨ p ∈ paths := by
    intro p hp
    rw [← List.mem_append]
    exact hp
  refine ⟨?_, fun p hp q hq => ?_⟩
  · rw [List.nodup_cons, List.nodup_cons, List.mem_cons, not_or]
    exact ⟨⟨by decide, fun hmem => (hapart _ hmem _ (by simp)).1 rfl⟩,
      fun hmem => (hapart _ hmem _ (by simp)).1 rfl, hn⟩
  · rcases hsplit p hp with hp | hp <;> rcases hsplit q hq with hq | hq
    · exact hrunner p hp q hq
    · exact (hapart q hq p hp).2.1
    · exact (hapart p hp q hq).2.2
    · exact habove p hp q hq

/-! ## The request -/

section Request

variable {digests : Digests} {sizes : Annotation.Sizes} {hashes : ExportHashes} {schema : Value}
  {policy : GeneratorInputPolicy} {acquired : AcquiredGeometry} {generator : DeployedGenerator}
  {inputs : GeneratorProcessingProtocolInputs}

/-- The identities of a deployed generator. -/
structure ValidDocument (d : DeployedGeneratorDocument) : Prop where
  version : d.protocolVersion = protocolVersion
  identities : ∀ p ∈ [d.packageIdentity, d.buildIdentity, d.binaryIdentity, d.dialectIdentity,
    d.inputKindIdentity, d.inputSchemaIdentity, d.settingsSchemaIdentity, d.provenanceSetIdentity,
    d.normalizationIdentity, d.validationIdentity], visible Protocol.maxIdentityLength p = true
  count : d.capabilityIdentities.length ≤ maxInputObjects
  capabilities : ∀ p ∈ d.capabilityIdentities, visible Protocol.maxIdentityLength p = true
  sorted : d.capabilityIdentities.IsChain (· < ·)

theorem document_valid (generator : DeployedGenerator) : ValidDocument generator.document := by
  have hvalid := generator.valid
  simp only [DeployedGeneratorDocument.validate, seq_ok, Deployed.ensureConfig, ensure_ok] at hvalid
  obtain ⟨-, hversion, hidentities, -, -, hcount, hcapabilities, hsorted⟩ := hvalid
  have hidentities := (each_ok_mem (P := fun p : String × String =>
    visible Protocol.maxIdentityLength p.2 = true) fun _ _ => ensure_ok).mp hidentities
  have hcapabilities := (each_ok_mem (P := fun identity =>
    visible Protocol.maxIdentityLength identity = true) fun _ _ => ensure_ok).mp hcapabilities
  refine ⟨hversion, ?_, hcount, hcapabilities, hsorted⟩
  simpa only [List.forall_mem_cons, List.not_mem_nil, false_implies, implies_true,
    and_true] using hidentities

/-- The identities that an invocation is bound to are valid, as the document of the generator is. -/
theorem bindings_valid {settingsIdentity : String}
    (hsettings : visible Protocol.maxIdentityLength settingsIdentity = true) (field : String) :
    (generator.identityBindings settingsIdentity).validate field = .ok () := by
  have hdocument := document_valid generator
  refine seq_ok.mpr ⟨?_, seq_ok.mpr ⟨Protocol.require_ok.mpr hdocument.count, seq_ok.mpr ⟨?_, ?_⟩⟩⟩
  · refine (each_ok_mem (P := fun p : String × String =>
      visible Protocol.maxIdentityLength p.2 = true) fun _ _ => identity_ok).mpr ?_
    have hidentities := hdocument.identities
    simp only [List.forall_mem_cons, List.not_mem_nil, false_implies, implies_true,
      and_true] at hidentities ⊢
    obtain ⟨h1, h2, h3, h4, h5, h6, h7, h8, h9, h10⟩ := hidentities
    exact ⟨h1, h2, h3, h4, h5, h6, hsettings, h7, h8, h9, h10⟩
  · exact (each_ok_mem (P := fun identity => visible Protocol.maxIdentityLength identity = true)
      fun _ _ => identity_ok).mpr hdocument.capabilities
  · exact Protocol.require_ok.mpr hdocument.sorted

variable (digests generator inputs) in
/-- The invocation that is prepared of a manifest and settings. -/
def preparedInvocation (compatibility : GeneratorCompatibilityRequest) (manifest : InputManifest)
    (inputSetIdentity settingsIdentity settingsSchemaIdentity settingsJson : String) :
    GeneratorRequest :=
  let draft := invocationOf digests generator compatibility manifest inputSetIdentity
    settingsIdentity settingsSchemaIdentity settingsJson inputs
  { draft with invocationIdentity := draft.computedInvocationIdentity digests }

/-- What an invocation is prepared of. -/
structure Invocable (digests : Digests) (generator : DeployedGenerator)
    (compatibility : GeneratorCompatibilityRequest) (manifest : InputManifest)
    (inputs : GeneratorProcessingProtocolInputs) : Prop where
  compatible : generator.ensureCompatible compatibility = .ok ()
  valid : manifest.validate digests = .ok ()
  available : manifest.decision.status = .available
  kind : manifest.export_.kindIdentity = compatibility.inputKindIdentity
  schema : manifest.export_.schemaIdentity = compatibility.inputSchemaIdentity
  given : ValidInputs inputs
  separate : Separate (invocationPaths manifest inputs)

theorem Invocable.version {compatibility : GeneratorCompatibilityRequest} {manifest : InputManifest}
    (h : Invocable digests generator compatibility manifest inputs) :
    compatibility.protocolVersion = protocolVersion := by
  rw [ensureCompatible_ok.mp h.compatible]
  exact (document_valid generator).version

theorem Invocable.settingsSchema {compatibility : GeneratorCompatibilityRequest}
    {manifest : InputManifest}
    (h : Invocable digests generator compatibility manifest inputs) :
    compatibility.settingsSchemaIdentity = generator.document.settingsSchemaIdentity ∧
      visible Protocol.maxIdentityLength compatibility.settingsSchemaIdentity = true := by
  rw [ensureCompatible_ok.mp h.compatible]
  exact ⟨rfl, (document_valid generator).identities _ (by simp)⟩

theorem Invocable.inputSet {compatibility : GeneratorCompatibilityRequest}
    {manifest : InputManifest} (hx : Hexadecimal digests)
    (h : Invocable digests generator compatibility manifest inputs) :
    ∃ set, manifest.inputSetIdentity = some set ∧ OnshapeApi.isSha256 set = true := by
  have hvalid := h.valid
  simp only [InputManifest.validate, seq_ok, Protocol.require_ok] at hvalid
  obtain ⟨-, -, -, -, -, -, -, -, -, -, -, -, -, -, hset, -⟩ := hvalid
  rw [hset, InputManifest.computedInputSetIdentity, h.available, if_neg nofun]
  exact ⟨_, rfl, hx _⟩

/-- The invocation passes the checks of a request and of one beside its manifest. -/
theorem invocation_valid {compatibility : GeneratorCompatibilityRequest} {manifest : InputManifest}
    (hx : Hexadecimal digests) (h : Invocable digests generator compatibility manifest inputs)
    {set settingsIdentity settingsJson : String} (hset : manifest.inputSetIdentity = some set)
    (hidentity : visible Protocol.maxIdentityLength settingsIdentity = true)
    (hjson : settingsJson ≠ "") (hsize : settingsJson.utf8ByteSize ≤ maxDocumentBytes) :
    (preparedInvocation digests generator inputs compatibility manifest set settingsIdentity
      compatibility.settingsSchemaIdentity settingsJson).validateWithManifest digests manifest =
        .ok () := by
  obtain ⟨hn, -⟩ := h.separate
  simp only [invocationPaths, List.cons_append, List.nil_append, List.nodup_cons, List.mem_cons,
    not_or, List.mem_map, not_exists, not_and] at hn
  obtain ⟨⟨hpaths, -, hmanifestPath⟩, ⟨-, hsettingsPath⟩, -⟩ := hn
  have hmanifestIdentity : OnshapeApi.isSha256 manifest.manifestIdentity = true := by
    have hvalid := h.valid
    simp only [InputManifest.validate, seq_ok] at hvalid
    exact Protocol.require_ok.mp hvalid.2.2.1
  have hsetSha : OnshapeApi.isSha256 set = true := by
    obtain ⟨set', hset', hsha⟩ := h.inputSet hx
    rw [hset, Option.some.injEq] at hset'
    rw [hset']
    exact hsha
  obtain ⟨hschema, hschemaVisible⟩ := h.settingsSchema
  have hcontent (field : String) : FileContent.validate
      { contentIdentity := inputs.settingsContentIdentity
        path := inputs.settingsPath
        sha256 := digests.sha256 settingsJson
        byteLength := settingsJson.utf8ByteSize
        mediaType := inputs.settingsMediaType
        detectedKindIdentity := inputs.settingsDetectedKindIdentity } field = .ok () := by
    simp only [FileContent.validate, seq_ok, byteLength_ok]
    refine ⟨identity_ok.mpr h.given.contentIdentity, h.given.settingsPath _,
      Protocol.require_ok.mpr (hx _), ⟨?_, ?_⟩, Protocol.require_ok.mpr h.given.settingsMedia,
      identity_ok.mpr h.given.detectedKind⟩
    · exact Nat.pos_of_ne_zero fun hzero => hjson (String.utf8ByteSize_eq_zero_iff.mp hzero)
    · simp only [maxDocumentBytes, maxSafeJsonInteger] at hsize ⊢
      omega
  have hrequest : (preparedInvocation digests generator inputs compatibility manifest set
      settingsIdentity compatibility.settingsSchemaIdentity settingsJson).validate digests =
        .ok () := by
    simp only [GeneratorRequest.validate, seq_ok, Protocol.require_ok, version_ok, byteLength_ok]
    refine ⟨h.version, Protocol.require_ok.mpr (hx _), bindings_valid hidentity _,
      h.given.manifestPath _, h.given.manifestUnder, Protocol.require_ok.mpr hmanifestIdentity,
      Protocol.require_ok.mpr hsetSha, identity_ok.mpr hidentity, identity_ok.mpr hschemaVisible,
      hcontent _, h.given.settingsUnder, Ne.symm hpaths, identity_ok.mpr h.given.output,
      h.given.outputPath _, h.given.outputUnder, Protocol.require_ok.mpr h.given.outputMedia,
      h.given.outputLength, rfl, hschema.symm, rfl⟩
  simp only [GeneratorRequest.validateWithManifest, seq_ok, Protocol.require_ok]
  refine ⟨hrequest, h.valid, h.available, rfl, hmanifestPath, hset, ?_, ?_, hsettingsPath⟩
  · rw [h.kind, ensureCompatible_ok.mp h.compatible]
    rfl
  · rw [h.schema, ensureCompatible_ok.mp h.compatible]
    rfl

/-! ## Preparing and the preflight -/

variable (digests hashes schema policy acquired generator inputs) in
/-- The recipe that is prepared of a construction. -/
def preparedRecipe (compatibility : GeneratorCompatibilityRequest) (set : String) :
    GeneratorProcessingRecipe :=
  let constructed := constructedInputs digests hashes policy acquired schema
  { recipeVersion := recipeVersion
    deployedGeneratorIdentity := generator.staticIdentity digests
    compatibility := compatibilityIdentity compatibility
    compatibilityDecision := .supported
    compatibilityDecisionIdentity := hashJson digests "generator-compatibility-decision-v1"
      (CompatibilityDecisionIdentityPayload.codec.enc
        ⟨compatibilityIdentity compatibility, .supported⟩)
    inputManifest := constructed.manifest
    settings := constructed.settings
    settingsIdentity := constructed.settingsIdentity
    settingsSchemaIdentity := constructed.settingsSchemaIdentity
    invocation := preparedInvocation digests generator inputs compatibility constructed.manifest set
      constructed.settingsIdentity constructed.settingsSchemaIdentity constructed.settingsBytes }

section Prepared

variable {compatibility : GeneratorCompatibilityRequest} {set : String}

theorem prepare_ok (hx : Hexadecimal digests) (hprint : ∀ v, digests.text.print v ≠ "")
    (h : HandedOver digests sizes acquired)
    (ha : Allocatable (manifestIdentities digests acquired.plan))
    (hlimits : WithinLimits digests sizes hashes policy acquired)
    (hinvocable : Invocable digests generator compatibility
      (constructedManifest digests hashes policy acquired) inputs)
    (hschema : compatibility.settingsSchemaIdentity =
      generatorSettingsV2SchemaIdentity digests schema)
    (hset : (constructedManifest digests hashes policy acquired).inputSetIdentity = some set) :
    let constructed := constructedInputs digests hashes policy acquired schema
    prepareGeneratorProcessing digests sizes schema generator compatibility constructed.manifest
        constructed.settings constructed.expectedPlacements inputs =
      .ok (finishRecipe digests (preparedRecipe digests hashes schema policy acquired generator
        inputs compatibility set)) := by
  have hsettings := settings_valid h ha hlimits.blockers hlimits.settings
  obtain ⟨hidentity, hbytes⟩ := settings_identity h hsettings
  have hsettled : normalizeGeneratorSettingsV2 (constructedInputs digests hashes policy acquired
      schema).settings = plannedSettings digests acquired.plan :=
    normalize_of_settled (plannedSettings_settled h)
  have hdecision : compatibilityDecision generator compatibility = .ok .supported := by
    rw [compatibilityDecision, hinvocable.compatible]
  have hsettingsIdentity : visible Protocol.maxIdentityLength
      (constructedInputs digests hashes policy acquired schema).settingsIdentity = true :=
    visible_of_sha256 (hx _)
  have hinvocation := invocation_valid hx hinvocable hset hsettingsIdentity
    (hprint (GeneratorSettingsV2.codec.enc (plannedSettings digests acquired.plan)))
    hlimits.settingsText
  rw [hschema] at hinvocation
  refine seq_ok.mpr ⟨?_, ?_⟩
  · simp only [checkInputs, seq_ok, orElse_ok, insist_ok]
    refine ⟨hinvocable.valid, rfl, hinvocable.kind, hinvocable.schema, expected_summary h, ?_⟩
    rw [hsettled]
    exact settings_context h ha hsettings
  · rw [hsettled]
    refine seq_ok.mpr ⟨insist_ok.mpr hschema.symm, bind_ok.mpr ⟨_, orElse_ok.mpr hidentity,
      bind_ok.mpr ⟨_, orElse_ok.mpr hbytes, bind_ok.mpr ⟨_, hdecision, ?_⟩⟩⟩⟩
    rw [show (constructedInputs digests hashes policy acquired schema).manifest.inputSetIdentity =
      some set from hset]
    exact seq_ok.mpr ⟨orElse_ok.mpr hinvocation, rfl⟩

theorem paths_beneath (h : HandedOver digests sizes acquired) (hinputs : ValidInputs inputs) :
    ∀ path ∈ invocationPaths (constructedManifest digests hashes policy acquired) inputs,
      Beneath path := by
  intro path hpath
  rcases List.mem_append.mp hpath with hpath | hpath
  · simp only [List.mem_cons, List.not_mem_nil, or_false] at hpath
    rcases hpath with rfl | rfl | rfl
    · exact .inl hinputs.manifestUnder
    · exact .inl hinputs.settingsUnder
    · exact .inr hinputs.outputUnder
  · obtain ⟨made, hmade, rfl⟩ := List.mem_map.mp hpath
    obtain ⟨i, hi⟩ := List.getElem?_of_mem hmade
    obtain ⟨o, b, -, -, -, rfl⟩ := manifestObjects_at h hi
    exact .inl (retainedPath_under i _)

/-- What is prepared of a construction passes the preflight when its request is short enough. -/
theorem preflight_ok (ht : digests.text.Faithful) (hx : Hexadecimal digests)
    (hprint : ∀ v, digests.text.print v ≠ "") (h : HandedOver digests sizes acquired)
    (ha : Allocatable (manifestIdentities digests acquired.plan))
    (hlimits : WithinLimits digests sizes hashes policy acquired)
    (hinvocable : Invocable digests generator compatibility
      (constructedManifest digests hashes policy acquired) inputs)
    (hschema : compatibility.settingsSchemaIdentity =
      generatorSettingsV2SchemaIdentity digests schema)
    (hset : (constructedManifest digests hashes policy acquired).inputSetIdentity = some set) :
    let recipe :=
      preparedRecipe digests hashes schema policy acquired generator inputs compatibility set
    (canonicalJson digests (GeneratorRequest.codec.enc recipe.invocation)).utf8ByteSize ≤
        maxRequestBytes →
      ∃ layout, Layout.new recipe.inputManifest recipe.invocation = .ok layout ∧
        preflight digests sizes generator (constructedInputs digests hashes policy acquired schema)
          (finishRecipe digests recipe) = .ok (recipe.invocation, layout) := by
  intro recipe hrequest
  have hsettingsIdentity : visible Protocol.maxIdentityLength
      (constructedInputs digests hashes policy acquired schema).settingsIdentity = true :=
    visible_of_sha256 (hx _)
  have hinvocation : recipe.invocation.validateWithManifest digests
      (constructedManifest digests hashes policy acquired) = .ok () := by
    have hvalid := invocation_valid hx hinvocable hset hsettingsIdentity
      (hprint (GeneratorSettingsV2.codec.enc (plannedSettings digests acquired.plan)))
      hlimits.settingsText
    rw [hschema] at hvalid
    exact hvalid
  have hvalid : recipe.invocation.validate digests = .ok () := (seq_ok.mp hinvocation).1
  have hparsed : parseDocument digests GeneratorRequest.codec maxRequestBytes "generator request"
      _ = .ok _ := parseDocument_canonical ht (request_ok hvalid).1 hrequest
  have hchecked : (constructedInputs digests hashes policy acquired schema).validateRequest digests
      sizes recipe.invocation = .ok () := by
    refine seq_ok.mpr ⟨construction_valid ht h ha hlimits hinvocable.valid, ?_⟩
    refine bind_ok.mpr ⟨recipe.invocation, mapError_ok.mpr ?_, ?_⟩
    · exact bind_ok.mpr ⟨_, hparsed, seq_ok.mpr ⟨hvalid, rfl⟩⟩
    · exact seq_ok.mpr ⟨mapError_ok.mpr hinvocation, ensure_ok.mpr ⟨rfl, rfl, rfl, rfl⟩⟩
  have hseparate : Separate (declaredPaths recipe.inputManifest recipe.invocation) :=
    separate_runner hinvocable.separate (paths_beneath h hinvocable.given)
  obtain ⟨layout, hlayout⟩ := Runner.layout_new_iff.mpr hseparate
  have hversion : compatibility.protocolVersion = generator.document.protocolVersion := by
    rw [ensureCompatible_ok.mp hinvocable.compatible]
  refine ⟨layout, hlayout, ?_⟩
  refine seq_ok.mpr ⟨ensure_ok.mpr rfl, seq_ok.mpr ⟨mapError_ok.mpr hinvocable.compatible, ?_⟩⟩
  refine seq_ok.mpr ⟨ensure_ok.mpr ⟨rfl, rfl, rfl, rfl, rfl, hversion, rfl⟩, seq_ok.mpr ⟨?_, ?_⟩⟩
  · exact mapError_ok.mpr hchecked
  · exact bind_ok.mpr ⟨layout, hlayout, rfl⟩

end Prepared

/-! ## From geometry to an invocation -/

/-- The objects, the placements and the payloads of a construction come from the objects of the plan
at their positions. -/
structure FromPlan (digests : Digests) (policy : GeneratorInputPolicy) (acquired : AcquiredGeometry)
    (inputs : ConstructedGeneratorInputs) : Prop where
  objects : inputs.manifest.objects.length = acquired.plan.objects.length
  placements : inputs.settings.placements.length = acquired.plan.objects.length
  at_ : ∀ i o, acquired.plan.objects[i]? = some o → ∃ b, acquired.bindings[i]? = some b ∧
    b.planLocalObjectIdentity = o.planLocalObjectIdentity ∧
    inputs.manifest.objects[i]? = some (inputObject digests policy o b
      (manifestObjectIdentity digests o.planLocalObjectIdentity)
      (retainedPath i (manifestObjectIdentity digests o.planLocalObjectIdentity))) ∧
    inputs.settings.placements[i]? = some ⟨manifestObjectIdentity digests o.planLocalObjectIdentity,
      o.expectedNeutralPlacementMatrix.1⟩ ∧
    inputs.payload i = some b.retainedPayload

theorem constructed_fromPlan (h : HandedOver digests sizes acquired) :
    FromPlan digests policy acquired (constructedInputs digests hashes policy acquired schema) := by
  have hplacements : (plannedSettings digests acquired.plan).placements = _ :=
    plannedSettings_placements acquired.plan
  refine ⟨manifestObjects_length h, ?_, fun i o ho => ?_⟩
  · rw [show (constructedInputs digests hashes policy acquired schema).settings.placements = _ from
      hplacements, List.length_map]
  · obtain ⟨b, hb, hpayload⟩ := h.binding ho
    refine ⟨b, hb, hpayload.object, manifestObjects_getElem? ho hb, ?_, ?_⟩
    · rw [show (constructedInputs digests hashes policy acquired schema).settings.placements = _ from
        hplacements, List.getElem?_map, ho, Option.map_some]
    · show acquired.bindings[i]?.map _ = _
      rw [hb, Option.map_some]

/-- Accepted geometry whose root has a configuration of at most 256 bytes is constructed object by
object. What is constructed is prepared for every request that the generator supports and that names
its kind and its schemas, with valid inputs whose paths keep apart, and then the runner accepts it
unless its request is too long a document. -/
theorem geometry_runnable {canonicalOrigin : String → Except OnshapeApi.ApiFailure String}
    {origin : String} {db : Encoding.Database} {trusted : TrustedAcquisitionPlan}
    (ht : digests.text.Faithful) (hx : Hexadecimal digests)
    (hprint : ∀ v, digests.text.print v ≠ "")
    (hsource : ∀ p, OnshapeApi.isSha256 (hashes.sourceHash p) = true)
    (hrecord : Geometry.validateRecord digests sizes hashes canonicalOrigin origin db
      trusted.record = .ok ())
    (hhandoff : validateAcquisitionHandoff digests sizes trusted acquired = .ok ())
    (hprintable : ∃ o ∈ acquired.plan.objects, o.annotation.role = .printable)
    (hc : ManifestCollisionFree digests acquired.plan.objects) (hpolicy : policy.Valid)
    (hlimits : WithinLimits digests sizes hashes policy acquired)
    (hconfiguration : acquired.plan.root.configurationIdentity.utf8ByteSize ≤ 256) :
    ∃ inputs,
      constructGeneratorInputs digests sizes hashes schema trusted acquired policy = .ok inputs ∧
      FromPlan digests policy acquired inputs ∧
      ∀ generator compatibility given, generator.ensureCompatible compatibility = .ok () →
        compatibility.inputKindIdentity = policy.inputKindIdentity →
        compatibility.inputSchemaIdentity = policy.inputSchemaIdentity →
        compatibility.settingsSchemaIdentity = generatorSettingsV2SchemaIdentity digests schema →
        ValidInputs given → Separate (invocationPaths inputs.manifest given) →
        ∃ prepared,
          prepareGeneratorProcessing digests sizes schema generator compatibility inputs.manifest
            inputs.settings inputs.expectedPlacements given = .ok prepared ∧
          ((canonicalJson digests (GeneratorRequest.codec.enc
              prepared.recipe.invocation)).utf8ByteSize ≤ maxRequestBytes →
            ∃ layout, Layout.new inputs.manifest prepared.recipe.invocation = .ok layout ∧
              preflight digests sizes generator inputs prepared =
                .ok (prepared.recipe.invocation, layout)) := by
  have h : HandedOver digests sizes acquired := handedOver_of hrecord hhandoff
  have ha := allocatable ht hx h hc
  have hvalid := (manifest_valid hx hsource hpolicy h ha hprintable).mpr hconfiguration
  have hconstruct : constructGeneratorInputs digests sizes hashes schema trusted acquired policy =
      .ok (constructedInputs digests hashes policy acquired schema) :=
    (construct_iff ht hx hsource h hhandoff hpolicy hprintable hc hlimits).mpr
      ⟨hconfiguration, rfl⟩
  refine ⟨_, hconstruct, constructed_fromPlan h, ?_⟩
  intro generator compatibility given hcompatible hkind hschema hsettings hgiven hseparate
  have hinvocable : Invocable digests generator compatibility
      (constructedManifest digests hashes policy acquired) given :=
    ⟨hcompatible, hvalid, rfl, hkind.symm, hschema.symm, hgiven, hseparate⟩
  obtain ⟨set, hset, -⟩ := hinvocable.inputSet hx
  refine ⟨_, prepare_ok hx hprint h ha hlimits hinvocable hsettings hset, fun hrequest => ?_⟩
  exact preflight_ok ht hx hprint h ha hlimits hinvocable hsettings hset hrequest

end Request

/-! ## A part with a configuration of any length -/

def runnableLeaf (configuration : String) : ConfiguredLeaf := ⟨"d", "m", "e", configuration, "p"⟩

def runnableObject (configuration : String) : ResolvedSelectionObject where
  planLocalObjectIdentity := recipeHash
  selector := partSelector (runnableLeaf configuration)
  configuredLeaf := runnableLeaf configuration
  displayName := "n"
  annotation := ⟨.printable, none, []⟩
  expectedNeutralPlacementMatrix := normalizeMatrix identityPlacement

def runnablePlan (configuration : String) : ResolvedSelectionPlan :=
  ⟨⟨"d", "v", "m", "e", .partStudio, configuration⟩, recipeHash, [runnableObject configuration],
    recipeHash⟩

def runnableHandoff : EncodingHandoff := ⟨recipeHash, recipeHash, recipeHash, "x"⟩

def runnableHashes : ExportHashes where
  sourceHash _ := recipeHash
  configHash _ := recipeHash
  optionsHash _ _ _ := recipeHash
  requestHash _ := recipeHash
  postprocessHash _ := recipeHash

def runnableRecord (configuration : String) : Geometry.ProvenanceRecord :=
  Geometry.finishRecord recipeDigests runnableHandoff Geometry.recordingContext
    (runnablePlan configuration)

def runnableEncoding : Encoding.ConfigurationEncodingRecord :=
  { Geometry.recordingEncoding false with
    sourceHash := recipeHash
    configHash := recipeHash
    encodingContextHash := recipeHash }

def runnableSelection : Encoding.ConfigurationSelection :=
  { Geometry.recordingSelection false with
    sourceHash := recipeHash
    configHash := recipeHash }

def runnableDatabase : Encoding.Database :=
  ⟨⟨[runnableEncoding], List.pairwise_singleton _ _⟩,
    ⟨[runnableSelection], List.pairwise_singleton _ _⟩⟩

def runnableExpected : Encoding.Expected where
  sourceHash := recipeHash
  configHash := recipeHash
  contextHash := recipeHash
  context := Geometry.recordingContext
  request := Encoding.requestBody (Geometry.recordingTyped false)

theorem runnableHash : hashJson recipeDigests Encoding.contextDomain
    (Encoding.EncodingContext.codec.enc Geometry.recordingContext) = recipeHash := rfl

def runnablePolicy : GeneratorInputPolicy := ⟨"r", "k", "i", "k", "model/3mf"⟩

def runnableBinding (configuration : String) : Geometry.OccurrencePayloadBinding :=
  let planned := Geometry.binding runnableHandoff (runnablePlan configuration).root 0
    (runnableObject configuration)
  Geometry.occurrence planned ⟨0, 1, recipeHash⟩
    { requestContract := (runnableRecord configuration).requestContract
      representation := planned.representation
      configurationRequestValue := planned.configurationRequestValue
      documentId := "d"
      versionId := "v"
      configuredLeaf := planned.configuredLeaf
      createRequestPath := OnshapeApi.geometryCreatePath "d" "v" "e"
      createRequestQuery := []
      createRequestBody := OnshapeApi.geometryCreateBody planned.configurationRequestValue "p"
      createTranslationId := "t"
      terminalTranslationId := "t"
      externalDataId := "x"
      downloadDocumentId := "d"
      transportMedia := "model/3mf"
      byteLength := 1
      sha256 := recipeHash }

def runnableGeometry (configuration : String) : AcquiredGeometry :=
  let binding := runnableBinding configuration
  ⟨runnablePlan configuration, (runnableRecord configuration).provenanceIdentity, [binding],
    [(0, Geometry.acquisitionEvidenceIdentity recipeDigests binding.acquisitionEvidence)]⟩

def runnableInputs (mediaType : String) : GeneratorProcessingProtocolInputs :=
  { recipeInputs with output := { recipeInputs.output with mediaType := mediaType } }

/-- What is prepared of one part. -/
def runnablePrepared (mediaType : String) : PreparedGeneratorProcessing :=
  finishRecipe recipeDigests (preparedRecipe recipeDigests runnableHashes .null runnablePolicy
    (runnableGeometry "c") recipeGenerator (runnableInputs mediaType) recipeCompatibility
    recipeHash)

def repeated (length : Nat) : String := String.ofList (List.replicate length 'c')

theorem repeated_bounded {length : Nat} (hpos : 0 < length) (hle : 4 * length ≤ 4096) :
    OnshapeApi.boundedVisibleAscii (repeated length) = true := by
  have hsize := utf8ByteSize_ofList_le (List.replicate length 'c')
  have hne : List.replicate length 'c' ≠ [] := by
    rw [Ne, List.replicate_eq_nil_iff]
    omega
  have hc : OnshapeApi.isAsciiGraphic 'c' = true := by decide
  rw [List.length_replicate] at hsize
  simp only [OnshapeApi.boundedVisibleAscii, repeated, Bool.and_eq_true,
    String.toList_ofList, List.all_replicate, hc]
  refine ⟨⟨decide_eq_true ?_, decide_eq_true (hsize.trans hle)⟩, by simp⟩
  intro h
  exact hne (String.ofList_eq_empty_iff.mp h)

/-- A configuration that a plan can have and a manifest cannot. -/
def longConfiguration : String := repeated 257

/-- The documents of a plan with a configuration are short enough. -/
structure RunnableSizes (configuration : String) : Prop where
  planSize : 4 * (Value.ofFields [("domain", .string planDomain),
    ("payload", PlanPayload.codec.enc (runnablePlan configuration).payload)]).room ≤ maxPlanBytes
  stored : 4 * (Geometry.ProvenanceRecord.codec.enc (runnableRecord configuration)).room ≤
    Geometry.recordLimit
  hashed : 4 * (Geometry.hashedPayload (runnableRecord configuration)).room ≤ Geometry.recordLimit
  manifest : 4 * (InputManifest.codec.enc (constructedManifest recipeDigests runnableHashes
    runnablePolicy (runnableGeometry configuration))).room ≤ maxInputManifestBytes
  settings : 4 * (GeneratorSettingsV2.codec.enc
    (plannedSettings recipeDigests (runnablePlan configuration))).room ≤ maxDocumentBytes

theorem relativePath_of {path : String} (h : validateRelativePath path "" = .ok ())
    (field : String) : validateRelativePath path field = .ok () := by
  simp only [validateRelativePath, seq_ok, Protocol.require_ok] at h ⊢
  exact h

/-- What is evaluated of the part. -/
structure RunnableEvaluated : Prop where
  hash : OnshapeApi.isSha256 recipeHash = true
  rigid : properRigid (normalizeMatrix identityPlacement) = true
  last : (lastRow (normalizeMatrix identityPlacement)).map Scalar.value = [0, 0, 0, 1]
  zeros : ∀ s ∈ (normalizeMatrix identityPlacement).1, s ≠ .negZero
  same : sameMatrix (normalizeMatrix identityPlacement) identityPlacement = true
  visible : ∀ value ∈ ["d", "v", "m", "e", "p", "c", "t", "x"],
    OnshapeApi.boundedVisibleAscii value = true
  name : isDisplayName "n" = true
  shape : Encoding.validateShape runnableHandoff = .ok ()
  policy : runnablePolicy.Valid
  inputs : ValidInputs recipeInputs
  separate : (invocationPaths (constructedManifest recipeDigests runnableHashes runnablePolicy
    (runnableGeometry "c")) recipeInputs).Nodup
  above : ∀ p ∈ invocationPaths (constructedManifest recipeDigests runnableHashes runnablePolicy
      (runnableGeometry "c")) recipeInputs, ∀ q ∈ invocationPaths (constructedManifest recipeDigests
        runnableHashes runnablePolicy (runnableGeometry "c")) recipeInputs,
    ¬ Runner.Above (pathOf p) (pathOf q)
  compatible : recipeGenerator.ensureCompatible recipeCompatibility = .ok ()
  media : isMediaType "model/3mf" = true
  request : 4 * (GeneratorRequest.codec.enc
    (runnablePrepared "model/3mf").recipe.invocation).room ≤ maxRequestBytes
  longer : ¬ longConfiguration.utf8ByteSize ≤ Protocol.maxIdentityLength
  short : RunnableSizes "c"
  long : RunnableSizes longConfiguration

theorem runnable_evaluated : RunnableEvaluated where
  hash := by decide +kernel
  rigid := by decide +kernel
  last := by decide +kernel
  zeros := by decide +kernel
  same := by decide +kernel
  visible := by decide +kernel
  name := by decide +kernel
  shape := by decide +kernel
  policy := by constructor <;> decide +kernel
  inputs := {
    manifestPath := relativePath_of (by decide +kernel)
    manifestUnder := by decide +kernel
    contentIdentity := by decide +kernel
    settingsPath := relativePath_of (by decide +kernel)
    settingsUnder := by decide +kernel
    settingsMedia := by decide +kernel
    detectedKind := by decide +kernel
    output := by decide +kernel
    outputPath := relativePath_of (by decide +kernel)
    outputUnder := by decide +kernel
    outputMedia := by decide +kernel
    outputLength := by decide +kernel }
  separate := by decide +kernel
  above := by decide +kernel
  compatible := by decide +kernel
  media := by decide +kernel
  request := by decide +kernel
  longer := by decide +kernel
  short := by constructor <;> decide +kernel
  long := by constructor <;> decide +kernel

theorem recipeDigests_hexadecimal : Hexadecimal recipeDigests := fun _ => runnable_evaluated.hash

/-- A configuration that a plan may have, with documents that are short enough. -/
structure RunnableConfiguration (configuration : String) : Prop where
  bounded : OnshapeApi.boundedVisibleAscii configuration = true
  sizes : RunnableSizes configuration

theorem shortRunnable : RunnableConfiguration "c" :=
  ⟨runnable_evaluated.visible _ (by simp), runnable_evaluated.short⟩

theorem longRunnable : RunnableConfiguration longConfiguration :=
  ⟨repeated_bounded (by decide) (by decide), runnable_evaluated.long⟩

theorem runnable_selector {configuration : String} :
    selectorMatches (runnablePlan configuration).root (runnableObject configuration) = true := by
  simp [selectorMatches, runnablePlan, runnableObject, runnableLeaf, partSelector,
    runnable_evaluated.same]

section Runnable

variable {configuration : String}

theorem runnable_context :
    Encoding.context .ok "o" (Geometry.source (runnablePlan configuration)) =
      .ok Geometry.recordingContext :=
  Geometry.recording_evaluated.context

theorem runnable_leaf (h : RunnableConfiguration configuration) :
    leafBounded (runnableLeaf configuration) = true ∧
      rootBounded (runnablePlan configuration).root = true := by
  have hshort := runnable_evaluated.visible
  simp only [List.forall_mem_cons, List.not_mem_nil, false_implies, implies_true, and_true]
    at hshort
  obtain ⟨hd, hv, hm, he, hp, -⟩ := hshort
  simp only [leafBounded, runnableLeaf, rootBounded, runnablePlan, List.all_cons, List.all_nil,
    hd, hv, hm, he, hp, h.bounded, Bool.and_self, and_self]

theorem runnable_document (h : RunnableConfiguration configuration) :
    validateAuthoringDocument recipeSizes (authoringDocument (runnablePlan configuration).objects) =
      .ok () := by
  have hshort : ∀ value ∈ ["d", "v", "m", "e", "p", "c", "t", "x"],
      visible maxSourceValueBytes value = true := runnable_evaluated.visible
  simp only [List.forall_mem_cons, List.not_mem_nil, false_implies, implies_true, and_true]
    at hshort
  obtain ⟨hd, -, hm, he, hp, -⟩ := hshort
  have hname := runnable_evaluated.name
  have hobject : (AuthoringObject.mk (partSelector (runnableLeaf configuration)) "n"
      ⟨.printable, none, []⟩).validate 0 = .ok () := by
    refine seq_ok.mpr ⟨seq_ok.mpr ⟨?_, seq_ok.mpr ⟨?_, seq_ok.mpr ⟨?_, seq_ok.mpr ⟨?_, ?_⟩⟩⟩⟩,
      seq_ok.mpr ⟨validateDisplayName_ok.mpr hname, rfl⟩⟩
    · exact Annotation.require_ok.mpr hp
    · exact Annotation.require_ok.mpr hd
    · exact Annotation.require_ok.mpr hm
    · exact Annotation.require_ok.mpr he
    · exact Annotation.require_ok.mpr h.bounded
  have hcount : 1 ≤ maxObjects := by decide
  refine seq_ok.mpr ⟨ensure_ok.mpr (Nat.zero_le _), seq_ok.mpr ⟨?_, seq_ok.mpr ⟨?_,
    seq_ok.mpr ⟨?_, rfl⟩⟩⟩⟩
  · exact Annotation.require_ok.mpr rfl
  · exact Annotation.require_ok.mpr hcount
  · exact seq_ok.mpr ⟨hobject, seq_ok.mpr ⟨ensure_ok.mpr List.not_mem_nil, rfl⟩⟩

/-- One object agrees with itself. -/
theorem runnable_authoring (h : RunnableConfiguration configuration) :
    validateAuthoringContext recipeDigests recipeSizes
      (authoringDocument (runnablePlan configuration).objects)
      (authoringContext recipeDigests ((runnablePlan configuration).objects.map fun o =>
        (o.selector, o.configuredLeaf))) = .ok () := by
  refine (validateAuthoringContext_ok (runnable_document h) rfl).mpr ⟨?_, ?_, ?_⟩
  · intro i a ha
    cases i with
    | succ i => cases ha
    | zero =>
      obtain rfl := Option.some.inj ha
      exact ⟨rfl, rfl, canonicalText_print_ne _⟩
  · intro a ha b hb _
    rw [List.mem_singleton.mp ha, List.mem_singleton.mp hb]
  · intro a ha b hb _ _ _
    rw [List.mem_singleton.mp ha, List.mem_singleton.mp hb]

theorem runnable_retained (h : RunnableConfiguration configuration) :
    Retained recipeDigests recipeSizes (runnablePlan configuration) where
  nonempty := Nat.le_refl 1
  count := by show 1 ≤ maxSelectors; decide
  root := (runnable_leaf h).2
  planSha256 := runnable_evaluated.hash
  authoringSha256 := runnable_evaluated.hash
  objects o ho := by
    rw [List.mem_singleton.mp ho]
    exact ⟨(runnable_leaf h).1, rfl, rfl, runnable_evaluated.hash, runnable_evaluated.rigid,
      runnable_evaluated.last, runnable_evaluated.zeros, runnable_selector,
      rfl⟩
  distinct := List.nodup_singleton _
  context := runnable_authoring h
  authoring := Geometry.authoringDocumentIdentity_of (runnable_document h)
  identity := Geometry.computedPlanIdentity_of ((canonicalText_size _).trans h.sizes.planSize)

/-- The stored encoding, whatever the configuration of the root. -/
theorem runnable_handoff : Encoding.validateHandoff recipeDigests runnableHashes .ok "o"
    runnableDatabase (Geometry.source (runnablePlan configuration)) runnableHandoff = .ok () := by
  have hfits := Geometry.recordingTyped_fits false
  have htyped : Encoding.storedTypedValues recipeDigests runnableDatabase recipeHash recipeHash =
      .ok (Geometry.recordingTyped false) := by
    have hselection : runnableDatabase.selections.find? (recipeHash, recipeHash) =
        some runnableSelection := Table.find?_of_mem (r := runnableSelection) List.mem_cons_self
    simp only [Encoding.storedTypedValues, hselection]
    refine bind_ok.mpr ⟨_, Geometry.recording_values false, ?_⟩
    simp only [Encoding.typedCodec.dec_enc _ hfits]
    exact if_neg fun h => h rfl
  have hexpected : Encoding.expected recipeDigests runnableHashes .ok "o"
      (Geometry.source (runnablePlan configuration)) (Geometry.recordingTyped false) =
        .ok runnableExpected := by
    refine seq_ok.mpr ⟨rfl, bind_ok.mpr ⟨_, Geometry.recording_values false, ?_⟩⟩
    exact bind_ok.mpr ⟨_, runnable_context, bind_ok.mpr ⟨_, Geometry.recording_request false, rfl⟩⟩
  have hrow : runnableDatabase.encodings.find? runnableExpected.key = some runnableEncoding :=
    Table.find?_of_mem (r := runnableEncoding) List.mem_cons_self
  have hrecord : Encoding.validateRecord recipeDigests runnableEncoding runnableExpected false =
      .ok ⟨runnableHandoff, ⟨"x", ""⟩⟩ := by
    refine bind_ok.mpr ⟨_, Geometry.recording_context, ?_⟩
    simp only [Encoding.EncodingContext.codec.dec_enc _ Geometry.recordingContext_fits]
    rw [if_neg (by simp [runnableExpected, runnableEncoding, runnableHash])]
    refine bind_ok.mpr ⟨_, Geometry.recording_request false, ?_⟩
    rw [if_neg (fun h => h rfl)]
    refine bind_ok.mpr ⟨_, Geometry.recording_response false,
      bind_ok.mpr ⟨_, Geometry.recording_evaluated.identity false, ?_⟩⟩
    rw [if_neg (by simp [runnableEncoding, Geometry.recordingEncoding])]
    rfl
  refine seq_ok.mpr ⟨runnable_evaluated.shape, bind_ok.mpr ⟨_, htyped, ?_⟩⟩
  refine bind_ok.mpr ⟨_, hexpected, seq_ok.mpr ⟨ensure_ok.mpr rfl, ?_⟩⟩
  simp only [hrow]
  exact bind_ok.mpr ⟨_, hrecord, ensure_ok.mpr rfl⟩

theorem runnable_record (h : RunnableConfiguration configuration) :
    Geometry.validateRecord recipeDigests recipeSizes runnableHashes .ok "o" runnableDatabase
      (runnableRecord configuration) = .ok () :=
  Geometry.finishRecord_valid canonicalText_faithful recipeDigests_hexadecimal runnable_context
    (runnable_retained h) runnable_handoff
    ⟨(canonicalText_size _).trans h.sizes.stored, (canonicalText_size _).trans h.sizes.hashed⟩

theorem runnable_acquired (h : RunnableConfiguration configuration) :
    validateAcquisitionHandoff recipeDigests recipeSizes ⟨runnableRecord configuration⟩
      (runnableGeometry configuration) = .ok () := by
  have hretained := (retainedPlan_ok recipeDigests recipeSizes).mpr (runnable_retained h)
  have hx := runnable_evaluated.visible "x" (by simp)
  have ht := runnable_evaluated.visible "t" (by simp)
  have hlength : (1 : Nat) ≠ 0 ∧ 1 ≤ 134217728 := by decide
  have hbinding : Geometry.validateBinding (runnableRecord configuration)
      (runnableBinding configuration) (Geometry.binding runnableHandoff
        (runnablePlan configuration).root 0 (runnableObject configuration)) = .ok () :=
    ensure_ok.mpr ⟨rfl, rfl, rfl, rfl, rfl, rfl, rfl, rfl, rfl, rfl, rfl, hx,
      ht, rfl, rfl, rfl, rfl, rfl, hlength.1, hlength.2, runnable_evaluated.hash⟩
  have hacquired : Geometry.validateAcquired (runnableRecord configuration)
      [runnableBinding configuration] = .ok () :=
    seq_ok.mpr ⟨ensure_ok.mpr rfl, seq_ok.mpr ⟨hbinding, rfl⟩⟩
  let trusted : TrustedAcquisitionPlan := ⟨runnableRecord configuration⟩
  have haccepted : validateAcquisitionHandoff recipeDigests recipeSizes trusted _ = .ok () :=
    Geometry.handoff_accepted hretained hacquired
  exact haccepted

theorem runnable_limits (h : RunnableConfiguration configuration) :
    WithinLimits recipeDigests recipeSizes runnableHashes runnablePolicy
      (runnableGeometry configuration) where
  manifest := (canonicalText_size _).trans h.sizes.manifest
  blockers := Nat.zero_le _
  settings := Nat.zero_le _
  settingsText := (canonicalText_size _).trans h.sizes.settings

theorem runnable_collisionFree :
    ManifestCollisionFree recipeDigests (runnablePlan configuration).objects := by
  intro o ho o' ho' _
  rw [List.mem_singleton.mp ho, List.mem_singleton.mp ho']

end Runnable

/-! ## A request that is too long -/

theorem mediaType_le_request {digests : Digests} (ht : digests.text = canonicalText)
    (request : GeneratorRequest) : request.output.mediaType.toList.length ≤
      (canonicalJson digests (GeneratorRequest.codec.enc request)).utf8ByteSize := by
  have hstring := string_length_le request.output.mediaType
  have hmedia : (Value.string request.output.mediaType).chars.length ≤
      (OutputDeclaration.codec.enc request.output).chars.length :=
    member_length_le (k := "mediaType") (List.mem_cons_of_mem _ (List.mem_cons_of_mem _
      (List.mem_cons_of_mem _ List.mem_cons_self)))
  have houtput : (OutputDeclaration.codec.enc request.output).chars.length ≤
      (GeneratorRequest.codec.enc request).chars.length :=
    member_length_le (k := "output") (List.mem_of_getElem? (i := 6) rfl)
  have htext := length_toList_le (canonicalText.print (GeneratorRequest.codec.enc request))
  rw [canonicalText, String.toList_ofList] at htext
  rw [canonicalJson, ht]
  exact (hstring.trans (hmedia.trans houtput)).trans htext

theorem preflight_request {digests : Digests} {sizes : Annotation.Sizes}
    {generator : DeployedGenerator} {inputs : ConstructedGeneratorInputs}
    {prepared : PreparedGeneratorProcessing} {result : GeneratorRequest × Layout}
    (h : preflight digests sizes generator inputs prepared = .ok result) :
    (canonicalJson digests (GeneratorRequest.codec.enc prepared.recipe.invocation)).utf8ByteSize ≤
      maxRequestBytes := by
  obtain ⟨-, h⟩ := seq_ok.mp h
  obtain ⟨-, h⟩ := seq_ok.mp h
  obtain ⟨-, h⟩ := seq_ok.mp h
  obtain ⟨hchecked, -⟩ := seq_ok.mp h
  obtain ⟨-, hchecked⟩ := seq_ok.mp (mapError_ok.mp hchecked)
  obtain ⟨request, hparsed, -⟩ := bind_ok.mp hchecked
  obtain ⟨_, hdocument, -⟩ := bind_ok.mp (mapError_ok.mp hparsed)
  obtain ⟨hsize, -⟩ := seq_ok.mp hdocument
  exact ensure_ok.mp hsize

theorem runnableInputs_valid {mediaType : String} (h : isMediaType mediaType = true) :
    ValidInputs (runnableInputs mediaType) :=
  { runnable_evaluated.inputs with outputMedia := h }

theorem runnable_separate (mediaType : String) :
    Separate (invocationPaths (constructedManifest recipeDigests runnableHashes runnablePolicy
      (runnableGeometry "c")) (runnableInputs mediaType)) := by
  exact ⟨runnable_evaluated.separate, runnable_evaluated.above⟩

/-- Media types have no bound of their own. -/
def mediaTypeOf (length : Nat) : String := String.ofList ('a' :: '/' :: List.replicate length 'b')

theorem mediaTypeOf_valid {length : Nat} (h : 0 < length) :
    isMediaType (mediaTypeOf length) = true := by
  have hrest : '/' ∉ List.replicate length 'b' := by
    intro hmem
    exact absurd (List.eq_of_mem_replicate hmem) (by decide)
  have hcons : 'a' :: '/' :: List.replicate length 'b' =
      ['a'] ++ '/' :: List.replicate length 'b' := rfl
  have hsplit : (mediaTypeOf length).toList.splitOn '/' = [['a'], List.replicate length 'b'] := by
    rw [mediaTypeOf, String.toList_ofList, hcons,
      List.splitOn_append_cons_self_of_not_mem (by simp), List.splitOn_eq_singleton hrest]
  have hb : isMediaTypeCharacter 'b' = true := by decide
  have ha : isMediaTypeCharacter 'a' = true := by decide
  rw [isMediaType, hsplit]
  simp [ha, hb, Nat.pos_iff_ne_zero.mp h]

theorem runnable_invocable {mediaType : String} (h : isMediaType mediaType = true) :
    Invocable recipeDigests recipeGenerator recipeCompatibility
      (constructedManifest recipeDigests runnableHashes runnablePolicy (runnableGeometry "c"))
      (runnableInputs mediaType) := by
  have hgiven := handedOver_of (runnable_record shortRunnable) (runnable_acquired shortRunnable)
  have ha := allocatable canonicalText_faithful recipeDigests_hexadecimal hgiven
    runnable_collisionFree
  have hvalid : (constructedManifest recipeDigests runnableHashes runnablePolicy
      (runnableGeometry "c")).validate recipeDigests = .ok () :=
    (manifest_valid recipeDigests_hexadecimal (fun _ => runnable_evaluated.hash) runnable_evaluated.policy
      hgiven ha ⟨_, List.mem_cons_self, rfl⟩).mpr (by decide)
  exact ⟨runnable_evaluated.compatible, hvalid, rfl, rfl, rfl, runnableInputs_valid h, runnable_separate _⟩

theorem runnable_prepared {mediaType : String} (h : isMediaType mediaType = true) :
    let inputs := constructedInputs recipeDigests runnableHashes runnablePolicy
      (runnableGeometry "c") .null
    prepareGeneratorProcessing recipeDigests recipeSizes .null recipeGenerator recipeCompatibility
      inputs.manifest inputs.settings inputs.expectedPlacements (runnableInputs mediaType) =
        .ok (runnablePrepared mediaType) := by
  have hgiven := handedOver_of (runnable_record shortRunnable) (runnable_acquired shortRunnable)
  have ha := allocatable canonicalText_faithful recipeDigests_hexadecimal hgiven
    runnable_collisionFree
  exact prepare_ok recipeDigests_hexadecimal canonicalText_print_ne hgiven ha
    (runnable_limits shortRunnable) (runnable_invocable h) rfl rfl

/-- The media type of a request that passes the preflight is no longer than the request may be. -/
theorem runnable_mediaType {mediaType : String} {inputs : ConstructedGeneratorInputs}
    {result : GeneratorRequest × Layout}
    (h : preflight recipeDigests recipeSizes recipeGenerator inputs (runnablePrepared mediaType) =
      .ok result) : mediaType.toList.length ≤ maxRequestBytes := by
  have hsize := preflight_request h
  have htext : recipeDigests.text = canonicalText := rfl
  have hmedia := mediaType_le_request htext (runnablePrepared mediaType).recipe.invocation
  have houtput : (runnablePrepared mediaType).recipe.invocation.output.mediaType = mediaType := rfl
  rw [houtput] at hmedia
  exact hmedia.trans hsize

theorem runnable_constructed {inputs : ConstructedGeneratorInputs} (schema : Value)
    {configuration : String} (h : RunnableConfiguration configuration) :
    constructGeneratorInputs recipeDigests recipeSizes runnableHashes schema
        ⟨runnableRecord configuration⟩ (runnableGeometry configuration) runnablePolicy =
          .ok inputs ↔
      configuration.utf8ByteSize ≤ Protocol.maxIdentityLength ∧
        inputs = constructedInputs recipeDigests runnableHashes runnablePolicy
          (runnableGeometry configuration) schema := by
  have hacquired := runnable_acquired h
  have hsource : ∀ p, OnshapeApi.isSha256 (runnableHashes.sourceHash p) = true :=
    fun _ => runnable_evaluated.hash
  exact construct_iff canonicalText_faithful recipeDigests_hexadecimal hsource
    (handedOver_of (runnable_record h) hacquired) hacquired runnable_evaluated.policy
    ⟨_, List.mem_cons_self, rfl⟩ runnable_collisionFree (runnable_limits h)

/-- The part with a short configuration is constructed, prepared and invoked. -/
theorem geometry_runnable_part :
    ∃ inputs prepared layout,
      constructGeneratorInputs recipeDigests recipeSizes runnableHashes .null ⟨runnableRecord "c"⟩
        (runnableGeometry "c") runnablePolicy = .ok inputs ∧
      FromPlan recipeDigests runnablePolicy (runnableGeometry "c") inputs ∧
      prepareGeneratorProcessing recipeDigests recipeSizes .null recipeGenerator
        recipeCompatibility inputs.manifest inputs.settings inputs.expectedPlacements
        (runnableInputs "model/3mf") = .ok prepared ∧
      preflight recipeDigests recipeSizes recipeGenerator inputs prepared =
        .ok (prepared.recipe.invocation, layout) := by
  have hmedia := runnable_evaluated.media
  have hinvocable := runnable_invocable hmedia
  have hsize := runnable_evaluated.request
  have hlength : ("c" : String).utf8ByteSize ≤ 256 := by decide
  obtain ⟨inputs, hconstruct, hplan, hprepare⟩ := @geometry_runnable _ _ _ .null _ _ _ _ _ _
    canonicalText_faithful recipeDigests_hexadecimal canonicalText_print_ne
    (fun _ => runnable_evaluated.hash) (runnable_record shortRunnable) (runnable_acquired shortRunnable)
    ⟨_, List.mem_cons_self, rfl⟩ runnable_collisionFree runnable_evaluated.policy
    (runnable_limits shortRunnable) hlength
  obtain ⟨-, rfl⟩ := (runnable_constructed .null shortRunnable).mp hconstruct
  obtain ⟨prepared, hprepared, hpreflight⟩ := hprepare recipeGenerator recipeCompatibility
    (runnableInputs "model/3mf") hinvocable.compatible rfl rfl rfl hinvocable.given
    hinvocable.separate
  obtain rfl := Except.ok.inj (hprepared.symm.trans (runnable_prepared hmedia))
  obtain ⟨layout, -, hpreflight⟩ := hpreflight ((canonicalText_size _).trans hsize)
  exact ⟨_, _, layout, hconstruct, hplan, hprepared, hpreflight⟩

/-- A part with a configuration of 257 bytes is accepted, and nothing is constructed of it. Of the
part with the short configuration a request is prepared whose media type is as long as a request may
be, and it does not pass the preflight. -/
theorem accepted_geometry_refused :
    (Geometry.validateRecord recipeDigests recipeSizes runnableHashes .ok "o" runnableDatabase
        (runnableRecord longConfiguration) = .ok () ∧
      validateAcquisitionHandoff recipeDigests recipeSizes ⟨runnableRecord longConfiguration⟩
        (runnableGeometry longConfiguration) = .ok () ∧
      (∃ o ∈ (runnablePlan longConfiguration).objects, o.annotation.role = .printable) ∧
      runnablePolicy.Valid ∧
      WithinLimits recipeDigests recipeSizes runnableHashes runnablePolicy
        (runnableGeometry longConfiguration) ∧
      ∀ schema inputs, constructGeneratorInputs recipeDigests recipeSizes runnableHashes schema
        ⟨runnableRecord longConfiguration⟩ (runnableGeometry longConfiguration) runnablePolicy ≠
          .ok inputs) ∧
    ∃ inputs prepared,
      constructGeneratorInputs recipeDigests recipeSizes runnableHashes .null ⟨runnableRecord "c"⟩
        (runnableGeometry "c") runnablePolicy = .ok inputs ∧
      recipeGenerator.ensureCompatible recipeCompatibility = .ok () ∧
      ValidInputs (runnableInputs (mediaTypeOf maxRequestBytes)) ∧
      Separate (invocationPaths inputs.manifest (runnableInputs (mediaTypeOf maxRequestBytes))) ∧
      prepareGeneratorProcessing recipeDigests recipeSizes .null recipeGenerator
        recipeCompatibility inputs.manifest inputs.settings inputs.expectedPlacements
        (runnableInputs (mediaTypeOf maxRequestBytes)) = .ok prepared ∧
      ∀ result,
        preflight recipeDigests recipeSizes recipeGenerator inputs prepared ≠ .ok result := by
  constructor
  · refine ⟨runnable_record longRunnable, runnable_acquired longRunnable,
      ⟨_, List.mem_cons_self, rfl⟩, runnable_evaluated.policy, runnable_limits longRunnable, ?_⟩
    intro schema inputs hconstruct
    obtain ⟨hlength, -⟩ := (runnable_constructed schema longRunnable).mp hconstruct
    exact runnable_evaluated.longer hlength
  · have hlength : ("c" : String).utf8ByteSize ≤ 256 := by decide
    have hmedia : isMediaType (mediaTypeOf maxRequestBytes) = true :=
      mediaTypeOf_valid (by decide)
    have hinvocable := runnable_invocable hmedia
    refine ⟨_, _, (runnable_constructed .null shortRunnable).mpr ⟨hlength, rfl⟩,
      hinvocable.compatible, hinvocable.given, hinvocable.separate, runnable_prepared hmedia, ?_⟩
    intro result hresult
    have hsize := runnable_mediaType hresult
    have hlonger : (mediaTypeOf maxRequestBytes).toList.length = maxRequestBytes + 2 := by
      rw [mediaTypeOf, String.toList_ofList, List.length_cons, List.length_cons,
        List.length_replicate]
    rw [hlonger] at hsize
    omega

end Construction
end OnshapeExport
