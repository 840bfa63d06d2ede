import OnshapeExport.GeneratorProcessing

/-!
# RecipeReopening

Reopening a stored recipe undoes preparing it: the recipe is read back as it was written, and
preparing it again from its own parts gives the same recipe, because its settings are normalized
and its placements are the ones that were expected.

* `prepare_stored` — a recipe is prepared from its own parts.
* `reopen_prepared` — the two directions.
-/

namespace OnshapeExport
namespace Processing

open Annotation CacheKey Checks Deployed Json OnshapeApi Protocol

section Reopen

variable {digests : Digests} {sizes : Sizes} {schema : Value}

@[simp] theorem orElse_ok {ε α : Type} {x : Except ε α} {text : String} {a : α} :
    orElse x text = .ok a ↔ x = .ok a := mapError_ok

@[simp] theorem insist_ok {p : Prop} [Decidable p] {text : String} :
    insist p text = .ok () ↔ p := ensure_ok

/-! ## A recipe is prepared from its own parts -/

/-- The placements that settings hold for the objects of a manifest. -/
def held (manifest : InputManifest) (settings : GeneratorSettingsV2) :
    List ExpectedPlacementSummaryV2 :=
  (manifest.objects.zip settings.placements).map fun (object, placement) =>
    ⟨object.objectIdentity, object.role, placement.matrix⟩

theorem held_summary {manifest : InputManifest} {settings : GeneratorSettingsV2}
    (hlen : manifest.objects.length = settings.placements.length) :
    ((held manifest settings).map fun e => (e.objectIdentity, e.transportRole)) =
      manifest.objects.map fun o => (o.objectIdentity, o.role) := by
  have hfst := List.map_fst_zip hlen.le
  conv_rhs => rw [← hfst, List.map_map]
  rw [held, List.map_map]
  rfl

/-- What the blockers are compared with is read off the identities and the roles. -/
theorem summaries_eq {a b : List ExpectedPlacementSummaryV2}
    (h : (a.map fun e => (e.objectIdentity, e.transportRole)) =
      b.map fun e => (e.objectIdentity, e.transportRole)) :
    (a.map fun e => (⟨e.objectIdentity, e.transportRole⟩ : ManifestObjectSummary)) =
      b.map fun e => ⟨e.objectIdentity, e.transportRole⟩ := by
  have := congrArg (List.map fun p : String × InputRole => (⟨p.1, p.2⟩ : ManifestObjectSummary)) h
  simpa only [List.map_map, Function.comp_def] using this

/-- The checks of a recipe's manifest and settings pass with the placements the settings hold, when
they passed with those that were expected. -/
theorem checkInputs_held {compatibility : GeneratorCompatibilityRequest}
    {manifest : InputManifest} {settings : GeneratorSettingsV2}
    {expected : List ExpectedPlacementSummaryV2} (hs : Settled settings)
    (h : checkInputs digests sizes compatibility manifest settings expected = .ok ()) :
    manifest.objects.length = settings.placements.length ∧
      checkInputs digests sizes compatibility manifest settings (held manifest settings) =
        .ok () := by
  simp only [checkInputs, seq_ok, orElse_ok, insist_ok] at h ⊢
  obtain ⟨hmanifest, havailable, hkind, hschema, hexpected, hcontext⟩ := h
  obtain ⟨hvalid, hlength, hblockers, hplacements⟩ := (settingsContextV2_ok hs).mp hcontext
  have hlen : manifest.objects.length = settings.placements.length := by
    have := congrArg List.length hexpected
    simp only [List.length_map] at this
    omega
  have hsummary := held_summary hlen
  have hheld : settings.placements.length = (held manifest settings).length := by
    rw [held, List.length_map, List.length_zip, hlen, Nat.min_self]
  refine ⟨hlen, hmanifest, havailable, hkind, hschema, hsummary,
    (settingsContextV2_ok hs).mpr ⟨hvalid, hheld, ?_, fun p hp => ?_⟩⟩
  · rw [summaries_eq (hsummary.trans hexpected.symm)]
    exact hblockers
  · obtain ⟨i, hi⟩ := List.getElem?_of_mem hp
    obtain ⟨hplacement, he⟩ := List.getElem?_zip_eq_some.mp hi
    rw [held, List.getElem?_map, Option.map_eq_some_iff] at he
    obtain ⟨⟨object, placement⟩, hzip, he⟩ := he
    obtain ⟨hobject, hplacement'⟩ := List.getElem?_zip_eq_some.mp hzip
    rw [hplacement] at hplacement'
    obtain rfl := Option.some.inj hplacement'
    -- the placement that was expected at this position has the identity of the object
    have hi' : i < expected.length := by
      rw [← hlength]
      exact (List.getElem?_eq_some_iff.mp hplacement).1
    have hold := hplacements (p.1, expected[i]) (List.mem_of_getElem?
      (List.getElem?_zip_eq_some.mpr ⟨hplacement, List.getElem?_eq_getElem hi'⟩))
    have hidentity : (expected[i]).objectIdentity = object.objectIdentity := by
      have := congrArg (fun l => l[i]?) hexpected
      simp only [List.getElem?_map, hobject, List.getElem?_eq_getElem hi', Option.map_some,
        Option.some.injEq, Prod.mk.injEq] at this
      exact this.1
    have hmem : p.1 ∈ settings.placements := List.mem_of_getElem? hplacement
    have hmatrix : settleMatrix p.1.matrix = p.1.matrix := settleMatrix_eq (hs p.1 hmem)
    rw [Expected, ← he]
    refine ⟨hold.1.trans hidentity, ?_, ?_⟩
    · rw [hmatrix]
      exact (settingsV2_ok hvalid).2 p.1 hmem
    · rw [hmatrix]

/-- What a prepared recipe keeps of what it was prepared from. -/
structure Assembled (digests : Digests) (generator : DeployedGenerator)
    (compatibility : GeneratorCompatibilityRequest) (manifest : InputManifest)
    (settings : GeneratorSettingsV2) (inputs : GeneratorProcessingProtocolInputs)
    (recipe : GeneratorProcessingRecipe) : Prop where
  version_eq : recipe.recipeVersion = Processing.recipeVersion
  generator_eq : recipe.deployedGeneratorIdentity = generator.staticIdentity digests
  compatibility_eq : storedCompatibility recipe = compatibility
  manifest_eq : recipe.inputManifest = manifest
  settings_eq : recipe.settings = settings
  inputs_eq : storedInputs recipe = inputs
  protocol_eq : recipe.compatibility.protocolVersion = recipe.invocation.protocolVersion
  invocation_valid : recipe.invocation.validateWithManifest digests manifest = .ok ()

theorem assemble_ok {generator : DeployedGenerator}
    {compatibility : GeneratorCompatibilityRequest} {manifest : InputManifest}
    {settings : GeneratorSettingsV2} {inputs : GeneratorProcessingProtocolInputs}
    {prepared : PreparedGeneratorProcessing}
    (h : assemble digests sizes schema generator compatibility manifest settings inputs =
      .ok prepared) :
    prepared = finishRecipe digests prepared.recipe ∧
      Assembled digests generator compatibility manifest settings inputs prepared.recipe := by
  obtain ⟨-, h⟩ := seq_ok.mp h
  obtain ⟨settingsIdentity, -, h⟩ := bind_ok.mp h
  obtain ⟨settingsJson, -, h⟩ := bind_ok.mp h
  obtain ⟨decision, -, h⟩ := bind_ok.mp h
  split at h
  · cases h
  · obtain ⟨hinvocation, h⟩ := seq_ok.mp h
    cases h
    exact ⟨rfl, rfl, rfl, rfl, rfl, rfl, rfl, rfl, orElse_ok.mp hinvocation⟩

/-- A prepared recipe is written without loss. -/
theorem recipe_fits {generator : DeployedGenerator}
    {compatibility : GeneratorCompatibilityRequest} {manifest : InputManifest}
    {settings : GeneratorSettingsV2} {inputs : GeneratorProcessingProtocolInputs}
    {recipe : GeneratorProcessingRecipe} (hs : Settled settings)
    (hv : validateNormalizedGeneratorSettingsV2 sizes settings = .ok ())
    (h : Assembled digests generator compatibility manifest settings inputs recipe) :
    GeneratorProcessingRecipe.codec.Fits recipe := by
  have hinvocation := h.invocation_valid
  simp only [GeneratorRequest.validateWithManifest, seq_ok] at hinvocation
  obtain ⟨hrequest, hmanifest, -⟩ := hinvocation
  have hrequestFits := (request_ok hrequest).1
  have hversion : recipe.compatibility.protocolVersion < 2 ^ 32 := by
    rw [h.protocol_eq]
    exact (fits_generatorRequest.mp hrequestFits).1
  have hsettings : GeneratorSettingsV2.codec.Fits recipe.settings := by
    rw [h.settings_eq, fits_settingsV2, (settingsV2_ok hv).1]
    exact ⟨by decide, hs⟩
  have hdecision : GeneratorCompatibilityDecision.codec.Fits recipe.compatibilityDecision := by
    cases recipe.compatibilityDecision <;> trivial
  have hcompatibility : GeneratorCompatibilityIdentity.codec.Fits recipe.compatibility := by
    simp only [GeneratorCompatibilityIdentity.codec, fits_record, fits_iso, fits_and,
      fits_required, fits_unsigned, fits_str, fits_list, implies_true, and_true]
    exact ⟨hversion, by omega⟩
  have hmanifestFits : InputManifest.codec.Fits recipe.inputManifest := by
    rw [h.manifest_eq]
    exact (manifest_ok hmanifest).1
  simp only [GeneratorProcessingRecipe.codec, fits_record, fits_iso, fits_and, fits_required,
    fits_unsigned, fits_str, true_and, h.version_eq]
  exact ⟨by decide, hcompatibility, hdecision, hmanifestFits, hsettings, hrequestFits⟩

/-- A recipe is prepared again from its own parts. -/
theorem prepare_stored {generator : DeployedGenerator}
    {compatibility : GeneratorCompatibilityRequest} {manifest : InputManifest}
    {settings : GeneratorSettingsV2} {expected : List ExpectedPlacementSummaryV2}
    {inputs : GeneratorProcessingProtocolInputs} {prepared : PreparedGeneratorProcessing}
    (h : prepareGeneratorProcessing digests sizes schema generator compatibility manifest settings
      expected inputs = .ok prepared) :
    GeneratorProcessingRecipe.codec.Fits prepared.recipe ∧
      prepared = finishRecipe digests prepared.recipe ∧
      prepared.recipe.deployedGeneratorIdentity = generator.staticIdentity digests ∧
      prepared.recipe.recipeVersion = recipeVersion ∧
      prepared.recipe.inputManifest.objects.length = prepared.recipe.settings.placements.length ∧
      prepareGeneratorProcessing digests sizes schema generator
        (storedCompatibility prepared.recipe) prepared.recipe.inputManifest
        prepared.recipe.settings (storedPlacements prepared.recipe)
        (storedInputs prepared.recipe) = .ok prepared := by
  obtain ⟨hcheck, hassemble⟩ := seq_ok.mp h
  have hs := settled_normalize settings
  obtain ⟨hlen, hheld⟩ := checkInputs_held hs hcheck
  obtain ⟨hfinish, ha⟩ := assemble_ok hassemble
  have hvalid : validateNormalizedGeneratorSettingsV2 sizes
      (normalizeGeneratorSettingsV2 settings) = .ok () := by
    simp only [checkInputs, seq_ok, orElse_ok] at hcheck
    exact ((settingsContextV2_ok hs).mp hcheck.2.2.2.2.2).1
  refine ⟨recipe_fits hs hvalid ha, hfinish, ha.generator_eq, ha.version_eq, ?_, ?_⟩
  · rw [ha.manifest_eq, ha.settings_eq]
    exact hlen
  · have hstored : storedPlacements prepared.recipe =
        held manifest (normalizeGeneratorSettingsV2 settings) := by
      rw [storedPlacements, ha.manifest_eq, ha.settings_eq]
      rfl
    rw [prepareGeneratorProcessing, hstored, ha.compatibility_eq, ha.manifest_eq, ha.settings_eq, ha.inputs_eq,
      normalize_of_settled hs]
    exact seq_ok.mpr ⟨hheld, hassemble⟩

/-! ## Reopening undoes preparing -/

/-- Reopening a supported recipe within the bounds of the reader gives back what was prepared, and
what reopening gives is the text and the hash it was asked for. -/
theorem reopen_prepared (digests : Digests) (sizes : Sizes) (schema : Value)
    (ht : digests.text.Faithful) (generator : DeployedGenerator) :
    (∀ compatibility manifest settings expected inputs prepared,
      prepareGeneratorProcessing digests sizes schema generator compatibility manifest settings
        expected inputs = .ok prepared →
      prepared.recipe.compatibilityDecision = .supported →
      prepared.recipeJson.utf8ByteSize ≤ recipeLimit →
      Bounded (GeneratorProcessingRecipe.codec.enc prepared.recipe) →
      reopenGeneratorProcessing digests sizes schema generator prepared.processingHash
        prepared.recipeJson = .ok prepared) ∧
    (∀ processingHash recipeJson reopened,
      reopenGeneratorProcessing digests sizes schema generator processingHash recipeJson =
        .ok reopened →
      reopened.recipeJson = recipeJson ∧ reopened.processingHash = processingHash) := by
  refine ⟨?_, ?_⟩
  · intro compatibility manifest settings expected inputs prepared h hsupported hsize hbounded
    obtain ⟨hfits, hfinish, hgenerator, hversion, hlen, hstored⟩ := prepare_stored h
    have hjson : prepared.recipeJson =
        canonicalJson digests (GeneratorProcessingRecipe.codec.enc prepared.recipe) :=
      congrArg PreparedGeneratorProcessing.recipeJson hfinish
    have hread : parseJson digests.text prepared.recipeJson recipeLimit =
        .ok (GeneratorProcessingRecipe.codec.enc prepared.recipe) := by
      refine parseJson_ok.mpr ⟨hsize, ?_, hbounded⟩
      rw [hjson]
      exact ht _ (GeneratorProcessingRecipe.codec.canonical _ hfits)
    have hdecode : decode GeneratorProcessingRecipe.codec
        (GeneratorProcessingRecipe.codec.enc prepared.recipe) = .ok prepared.recipe := by
      rw [decode, GeneratorProcessingRecipe.codec.dec_enc _ hfits]
    refine bind_ok.mpr ⟨_, mapError_ok.mpr hread, bind_ok.mpr ⟨_, hdecode, seq_ok.mpr ⟨?_, ?_⟩⟩⟩
    · exact insist_ok.mpr ⟨hgenerator, hversion, hsupported⟩
    · refine seq_ok.mpr ⟨insist_ok.mpr hlen, bind_ok.mpr ⟨prepared, hstored, ?_⟩⟩
      exact seq_ok.mpr ⟨insist_ok.mpr ⟨rfl, rfl⟩, rfl⟩
  · intro processingHash recipeJson reopened h
    obtain ⟨value, -, h⟩ := bind_ok.mp h
    obtain ⟨recipe, -, h⟩ := bind_ok.mp h
    obtain ⟨-, h⟩ := seq_ok.mp h
    obtain ⟨-, h⟩ := seq_ok.mp h
    obtain ⟨prepared, -, h⟩ := bind_ok.mp h
    obtain ⟨hsame, h⟩ := seq_ok.mp h
    cases h
    exact (insist_ok.mp hsame).symm

end Reopen

/-! ## A recipe of one object -/

def recipeHash : String := String.ofList (List.replicate 64 'b')

/-- A stand-in with one hash. -/
def recipeDigests : Digests := ⟨canonicalText, fun _ => recipeHash⟩

def recipeSizes : Sizes := ⟨fun _ => 0, fun _ => 0, fun _ => 0⟩

def recipeDocument : DeployedGeneratorDocument where
  executablePath := "/g"
  packageIdentity := "p"
  packageSha256 := recipeHash
  buildIdentity := "b"
  binaryIdentity := "y"
  binarySha256 := recipeHash
  protocolVersion := 1
  dialectIdentity := "d"
  capabilityIdentities := ["a", "c"]
  inputKindIdentity := "k"
  inputSchemaIdentity := "i"
  settingsSchemaIdentity := recipeHash
  provenanceSetIdentity := "s"
  normalizationIdentity := "n"
  validationIdentity := "v"

def recipeGenerator : DeployedGenerator := ⟨recipeDocument, by decide +kernel⟩

def recipeCompatibility : GeneratorCompatibilityRequest :=
  ⟨1, "d", ["a", "c"], "k", "i", recipeHash⟩

def recipeObject : InputObject where
  objectIdentity := "o"
  role := .rawGeometry
  retainedContent := ⟨"o", "inputs/o", recipeHash, 1, "model/step", "step"⟩
  mapping := ⟨.proven, some ⟨"exact", "e"⟩, none⟩
  sourceObjectIdentity := none
  occurrencePath := none
  producerResultIdentity := none
  sourceFilename := none
  displayName := some "n"
  parentObjectIdentity := none

def recipeManifest : InputManifest where
  protocolVersion := 1
  manifestVersion := 1
  manifestIdentity := recipeHash
  inputSetIdentity := some recipeHash
  requirementsIdentity := "r"
  sourceIdentity := "s"
  configurationIdentity := "c"
  export_ := ⟨"k", "i", .individual, .proven, some "e"⟩
  decision := ⟨.available, none⟩
  objects := [recipeObject]

/-- A translation by minus zero, which is settled. -/
def signedMatrix : List Scalar :=
  [.rat 1, .rat 0, .rat 0, .negZero, .rat 0, .rat 1, .rat 0, .rat 0, .rat 0, .rat 0, .rat 1,
    .rat 0, .rat 0, .rat 0, .rat 0, .rat 1]

def recipeSettings : GeneratorSettingsV2 := ⟨2, [], [⟨"o", signedMatrix⟩]⟩

def recipeInputs : GeneratorProcessingProtocolInputs :=
  ⟨"inputs/manifest", "t", "inputs/settings", "application/json", "json",
    ⟨"o", "outputs/o", "model/3mf", 1000⟩⟩

/-- What is prepared from them. -/
def recipePrepared : Except ProcessingError PreparedGeneratorProcessing :=
  prepareGeneratorProcessing recipeDigests recipeSizes .null recipeGenerator recipeCompatibility
    recipeManifest recipeSettings [⟨"o", .rawGeometry, signedMatrix⟩] recipeInputs

def recipeInvocation : GeneratorRequest where
  protocolVersion := 1
  invocationIdentity := recipeHash
  expectedIdentities := recipeGenerator.identityBindings recipeHash
  inputManifest := ⟨"inputs/manifest", recipeHash, recipeHash⟩
  settings := ⟨recipeHash, recipeHash,
    ⟨"t", "inputs/settings", recipeHash, 114, "application/json", "json"⟩⟩
  output := ⟨"o", "outputs/o", "model/3mf", 1000⟩

def sampleRecipe : GeneratorProcessingRecipe where
  recipeVersion := 1
  deployedGeneratorIdentity := recipeHash
  compatibility := ⟨1, "d", ["a", "c"], "k", "i", recipeHash⟩
  compatibilityDecision := .supported
  compatibilityDecisionIdentity := recipeHash
  inputManifest := recipeManifest
  settings := normalizeGeneratorSettingsV2 recipeSettings
  settingsIdentity := recipeHash
  settingsSchemaIdentity := recipeHash
  invocation := recipeInvocation

theorem recipePrepared_recipe :
    recipePrepared.map PreparedGeneratorProcessing.recipe = .ok sampleRecipe := by
  decide +kernel

theorem recipePrepared_eq : recipePrepared = .ok (finishRecipe recipeDigests sampleRecipe) := by
  have h := recipePrepared_recipe
  cases hp : recipePrepared with
  | error e =>
    rw [hp] at h
    cases h
  | ok prepared =>
    rw [hp] at h
    have hrecipe : prepared.recipe = sampleRecipe := Except.ok.inj h
    rw [(prepare_stored hp).2.1, hrecipe]

/-- A recipe of one object, with a zero that loses its sign, is reopened. -/
theorem reopen_prepared_sample :
    reopenGeneratorProcessing recipeDigests recipeSizes .null recipeGenerator
      (finishRecipe recipeDigests sampleRecipe).processingHash
      (finishRecipe recipeDigests sampleRecipe).recipeJson =
        .ok (finishRecipe recipeDigests sampleRecipe) := by
  have hroom : 4 * (GeneratorProcessingRecipe.codec.enc sampleRecipe).room ≤ recipeLimit := by
    decide +kernel
  have hbounded : Bounded (GeneratorProcessingRecipe.codec.enc sampleRecipe) := by decide +kernel
  have hsize : (finishRecipe recipeDigests sampleRecipe).recipeJson.utf8ByteSize ≤ recipeLimit :=
    (canonicalText_size (GeneratorProcessingRecipe.codec.enc sampleRecipe)).trans hroom
  exact (reopen_prepared recipeDigests recipeSizes .null canonicalText_faithful
    recipeGenerator).1 _ _ _ _ _ _ recipePrepared_eq rfl hsize hbounded

end Processing
end OnshapeExport
