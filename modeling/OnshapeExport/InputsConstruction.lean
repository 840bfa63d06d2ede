import OnshapeExport.ManifestConstruction

/-!
# InputsConstruction

The settings that are made of accepted geometry, and the construction as a whole. It fails for
accepted geometry only where the configuration of the root is too long for the manifest.

* `plannedSettings`, `settings_valid` — the settings of a plan and their checks.
* `construction_valid` — the checks that the construction and its consumers make.
* `construct_iff` — when the construction succeeds, and what it gives.
-/

namespace OnshapeExport
namespace Construction

open Annotation CacheKey CacheModel Checks Json Protocol Selection
open Geometry (AcquiredGeometry OccurrencePayloadBinding TrustedAcquisitionPlan
  validateAcquisitionHandoff)

section Settings

variable {digests : Digests} {sizes : Annotation.Sizes} {hashes : ExportHashes}
  {policy : GeneratorInputPolicy} {acquired : AcquiredGeometry}

/-! ## The settings -/

theorem plan_aligned (h : HandedOver digests sizes acquired)
    (ha : Allocatable (manifestIdentities digests acquired.plan)) :
    Aligned sizes (authoringDocument acquired.plan.objects)
      (manifestIdentities digests acquired.plan) := by
  refine ⟨(seq_ok.mp h.retained.context).1, ?_, fun identity hmem => ?_, ha.distinct⟩
  · rw [manifestIdentities, authoringDocument, List.length_map, List.length_map]
  · exact visible_of_sha256 (ha.sha256 identity hmem)

variable (digests) in
/-- What the blockers of a plan compile to. -/
def plannedBlockers (plan : ResolvedSelectionPlan) : GeneratorSettings :=
  compiled (authoringDocument plan.objects).objects (manifestIdentities digests plan)

variable (digests) in
/-- The settings of a plan. -/
def plannedSettings (plan : ResolvedSelectionPlan) : GeneratorSettingsV2 :=
  generatorSettings plan (manifestIdentities digests plan) (plannedBlockers digests plan).blockers

theorem plannedSettings_placements (plan : ResolvedSelectionPlan) :
    (plannedSettings digests plan).placements = plan.objects.map fun o =>
      ⟨manifestObjectIdentity digests o.planLocalObjectIdentity,
        o.expectedNeutralPlacementMatrix.1⟩ := by
  rw [plannedSettings, generatorSettings, manifestIdentities, ← List.map_prod_left_eq_zip,
    List.map_map]
  rfl

theorem plannedSettings_settled (h : HandedOver digests sizes acquired) :
    Settled (plannedSettings digests acquired.plan) := by
  intro p hp
  rw [plannedSettings_placements] at hp
  obtain ⟨o, ho, rfl⟩ := List.mem_map.mp hp
  exact (h.retained.objects o ho).zeros

theorem matrix_isPlacement {root : SelectionRoot} {o : ResolvedSelectionObject}
    (h : RetainedObject digests root o) : IsPlacement o.expectedNeutralPlacementMatrix.1 :=
  ⟨o.expectedNeutralPlacementMatrix.2, h.last⟩

/-- The settings pass their own checks when their documents are short enough. -/
theorem settings_valid (h : HandedOver digests sizes acquired)
    (ha : Allocatable (manifestIdentities digests acquired.plan))
    (hblockers : sizes.generatorSettings (plannedBlockers digests acquired.plan) ≤ maxDocumentBytes)
    (hsettings : sizes.generatorSettingsV2 (plannedSettings digests acquired.plan) ≤
      maxDocumentBytes) :
    validateNormalizedGeneratorSettingsV2 sizes (plannedSettings digests acquired.plan) =
      .ok () := by
  have haligned := plan_aligned h ha
  have hplacements : (plannedSettings digests acquired.plan).placements = _ :=
    plannedSettings_placements acquired.plan
  have hcount : acquired.plan.objects.length ≤ 256 := h.retained.count
  refine seq_ok.mpr ⟨ensure_ok.mpr hsettings, seq_ok.mpr ⟨require_ok.mpr rfl, seq_ok.mpr ⟨?_, ?_⟩⟩⟩
  · exact (validate_compiled haligned).mpr hblockers
  · rw [hplacements]
    refine seq_ok.mpr ⟨require_ok.mpr ?_, ?_⟩
    · rw [List.length_map]
      exact hcount
    · refine (eachNew_ok_mem (P := fun p : GeneratorSettingsPlacementV2 =>
        visible Annotation.maxIdentityLength p.objectIdentity = true ∧ IsPlacement p.matrix)
        fun _ _ => and_congr Annotation.require_ok validateMatrix_ok).mpr ⟨fun p hp => ?_, ?_⟩
      · obtain ⟨o, ho, rfl⟩ := List.mem_map.mp hp
        refine ⟨visible_of_sha256 (ha.sha256 _ (List.mem_map_of_mem ho)), ?_⟩
        exact matrix_isPlacement (h.retained.objects o ho)
      · rw [List.map_map]
        exact ha.distinct

/-! ## The placements that are expected -/

theorem expectedPlacements_eq (h : HandedOver digests sizes acquired) :
    expectedPlacements acquired.plan (constructedManifest digests hashes policy acquired) =
      acquired.plan.objects.map fun o =>
        ⟨manifestObjectIdentity digests o.planLocalObjectIdentity, o.annotation.role.transportRole,
          o.expectedNeutralPlacementMatrix.1⟩ :=
  zip_map_eq_of_forall₂ (manifestObjects_made h) fun _ _ ⟨_, _, hmade⟩ => hmade ▸ rfl

theorem expected_summary (h : HandedOver digests sizes acquired) :
    ((expectedPlacements acquired.plan (constructedManifest digests hashes policy acquired)).map
      fun e => (e.objectIdentity, e.transportRole)) =
    (constructedManifest digests hashes policy acquired).objects.map
      fun o => (o.objectIdentity, o.role) := by
  rw [expectedPlacements_eq h, List.map_map]
  exact (map_eq_of_forall₂ (manifestObjects_made h) fun _ _ ⟨_, _, hmade⟩ => hmade ▸ rfl).symm

theorem expected_manifest (h : HandedOver digests sizes acquired) :
    ((expectedPlacements acquired.plan (constructedManifest digests hashes policy acquired)).map
      fun e => (⟨e.objectIdentity, e.transportRole⟩ : ManifestObjectSummary)) =
    manifestSummary (authoringDocument acquired.plan.objects)
      (manifestIdentities digests acquired.plan) := by
  rw [expectedPlacements_eq h, List.map_map, manifestSummary, manifestIdentities, authoringDocument,
    List.zip_map', List.map_map]
  rfl

/-- The settings stand beside the placements that are expected of the manifest. -/
theorem settings_context (h : HandedOver digests sizes acquired)
    (ha : Allocatable (manifestIdentities digests acquired.plan))
    (hvalid : validateNormalizedGeneratorSettingsV2 sizes (plannedSettings digests acquired.plan) =
      .ok ()) :
    validateSettingsContextV2 sizes (plannedSettings digests acquired.plan)
      (expectedPlacements acquired.plan (constructedManifest digests hashes policy acquired)) =
        .ok () := by
  have haligned := plan_aligned h ha
  have hblockers : validateGeneratorSettings sizes (plannedBlockers digests acquired.plan) =
      .ok () := by
    obtain ⟨-, hvalid⟩ := seq_ok.mp hvalid
    obtain ⟨-, hvalid⟩ := seq_ok.mp hvalid
    exact (seq_ok.mp hvalid).1
  refine (settingsContextV2_ok (plannedSettings_settled h)).mpr ⟨hvalid, ?_, ?_, fun p hp => ?_⟩
  · rw [expectedPlacements_eq h, plannedSettings_placements, List.length_map, List.length_map]
  · rw [expected_manifest h]
    exact validate_context haligned hblockers
  · rw [expectedPlacements_eq h, plannedSettings_placements, List.zip_map'] at hp
    obtain ⟨o, ho, rfl⟩ := List.mem_map.mp hp
    have hretained := h.retained.objects o ho
    have hmatrix : settleMatrix o.expectedNeutralPlacementMatrix.1 =
        o.expectedNeutralPlacementMatrix.1 := settleMatrix_eq hretained.zeros
    refine ⟨rfl, ?_, ?_⟩
    · rw [hmatrix]
      exact matrix_isPlacement hretained
    · rw [hmatrix]

/-! ## The construction -/

variable (digests sizes hashes policy acquired) in
/-- The documents of a construction stay within their limits. -/
structure WithinLimits : Prop where
  manifest : (canonicalJson digests (InputManifest.codec.enc
    (constructedManifest digests hashes policy acquired))).utf8ByteSize ≤ maxInputManifestBytes
  blockers : sizes.generatorSettings (plannedBlockers digests acquired.plan) ≤ maxDocumentBytes
  settings : sizes.generatorSettingsV2 (plannedSettings digests acquired.plan) ≤ maxDocumentBytes
  settingsText : (canonicalJson digests (GeneratorSettingsV2.codec.enc
    (plannedSettings digests acquired.plan))).utf8ByteSize ≤ maxDocumentBytes

/-- A valid manifest beside the settings of its plan passes every check of a construction. -/
theorem construction_valid (ht : digests.text.Faithful) (h : HandedOver digests sizes acquired)
    (ha : Allocatable (manifestIdentities digests acquired.plan))
    (hlimits : WithinLimits digests sizes hashes policy acquired)
    (hmanifest : (constructedManifest digests hashes policy acquired).validate digests = .ok ()) :
    validateConstruction digests sizes (constructedManifest digests hashes policy acquired)
      (plannedSettings digests acquired.plan)
      (expectedPlacements acquired.plan (constructedManifest digests hashes policy acquired)) =
        .ok () := by
  have hsettings := settings_valid h ha hlimits.blockers hlimits.settings
  have hparsed : parseDocument digests InputManifest.codec maxInputManifestBytes "input manifest"
      _ = .ok _ := parseDocument_canonical ht (manifest_ok hmanifest).1 hlimits.manifest
  refine bind_ok.mpr ⟨constructedManifest digests hashes policy acquired, mapError_ok.mpr ?_, ?_⟩
  · exact bind_ok.mpr ⟨_, hparsed, seq_ok.mpr ⟨hmanifest, rfl⟩⟩
  · refine seq_ok.mpr ⟨ensure_ok.mpr (expected_summary h), seq_ok.mpr ⟨mapError_ok.mpr ?_, ?_⟩⟩
    · rw [normalize_of_settled (plannedSettings_settled h)]
      exact hsettings
    · exact mapError_ok.mpr (settings_context h ha hsettings)

theorem settings_identity (h : HandedOver digests sizes acquired)
    (hvalid : validateNormalizedGeneratorSettingsV2 sizes (plannedSettings digests acquired.plan) =
      .ok ()) :
    generatorSettingsV2Identity digests sizes (plannedSettings digests acquired.plan) =
        .ok (hashJson digests "onshape-export-generator-settings-v2"
          (GeneratorSettingsV2.codec.enc (plannedSettings digests acquired.plan))) ∧
      generatorSettingsV2CanonicalJson digests sizes (plannedSettings digests acquired.plan) =
        .ok (canonicalJson digests
          (GeneratorSettingsV2.codec.enc (plannedSettings digests acquired.plan))) := by
  rw [generatorSettingsV2Identity, generatorSettingsV2CanonicalJson]
  simp only [normalize_of_settled (plannedSettings_settled h)]
  exact ⟨seq_ok.mpr ⟨hvalid, rfl⟩, seq_ok.mpr ⟨hvalid, rfl⟩⟩

variable (digests hashes policy acquired) in
/-- What is constructed of accepted geometry. -/
def constructedInputs (schema : Value) : ConstructedGeneratorInputs where
  manifest := constructedManifest digests hashes policy acquired
  settings := plannedSettings digests acquired.plan
  expectedPlacements :=
    expectedPlacements acquired.plan (constructedManifest digests hashes policy acquired)
  settingsIdentity := hashJson digests "onshape-export-generator-settings-v2"
    (GeneratorSettingsV2.codec.enc (plannedSettings digests acquired.plan))
  settingsSchemaIdentity := generatorSettingsV2SchemaIdentity digests schema
  settingsBytes := canonicalJson digests
    (GeneratorSettingsV2.codec.enc (plannedSettings digests acquired.plan))
  acquired := acquired

variable {schema : Value} {trusted : TrustedAcquisitionPlan}

theorem policy_valid (hpolicy : policy.Valid) :
    each (fun _ (p : String × String) =>
        (Protocol.validateIdentity p.2 p.1).mapError ConstructionError.protocol) 0
      [("requirementsIdentity", policy.requirementsIdentity),
       ("inputKindIdentity", policy.inputKindIdentity),
       ("inputSchemaIdentity", policy.inputSchemaIdentity),
       ("detectedKindIdentity", policy.detectedKindIdentity)] = .ok () := by
  refine (each_ok_mem (P := fun p : String × String =>
    visible Protocol.maxIdentityLength p.2 = true) fun _ _ => ?_).mpr ?_
  · rw [mapError_ok, identity_ok]
  · simp only [List.forall_mem_cons, List.not_mem_nil, false_implies, implies_true, and_true]
    exact ⟨hpolicy.requirements, hpolicy.inputKind, hpolicy.inputSchema, hpolicy.detectedKind⟩

/-- The construction is left with the checks of its manifest and its settings. -/
theorem construct_eq (h : HandedOver digests sizes acquired)
    (hhandoff : validateAcquisitionHandoff digests sizes trusted acquired = .ok ())
    (hpolicy : policy.Valid) (ha : Allocatable (manifestIdentities digests acquired.plan))
    (hlimits : WithinLimits digests sizes hashes policy acquired)
    {inputs : ConstructedGeneratorInputs} :
    constructGeneratorInputs digests sizes hashes schema trusted acquired policy = .ok inputs ↔
      validateConstruction digests sizes (constructedManifest digests hashes policy acquired)
        (plannedSettings digests acquired.plan)
        (expectedPlacements acquired.plan (constructedManifest digests hashes policy acquired)) =
          .ok () ∧ inputs = constructedInputs digests hashes policy acquired schema := by
  have haligned := plan_aligned h ha
  have hsettings := settings_valid h ha hlimits.blockers hlimits.settings
  obtain ⟨hidentity, hbytes⟩ := settings_identity h hsettings
  have hblockers : finishSettings sizes (plannedBlockers digests acquired.plan).blockers =
      .ok (plannedBlockers digests acquired.plan) :=
    finishSettings_ok.mpr ⟨rfl, (validate_compiled haligned).mpr hlimits.blockers⟩
  have hpaths : allocateRetainedPaths (acquired.plan.objects.map fun o =>
      manifestObjectIdentity digests o.planLocalObjectIdentity) = .ok _ := allocate_ok ha
  have hbuilt : buildGeneratorSettings sizes (authoringDocument acquired.plan.objects)
      (acquired.plan.objects.map fun o =>
        manifestObjectIdentity digests o.planLocalObjectIdentity) =
      some (.ok (plannedBlockers digests acquired.plan)) := by
    rw [← hblockers]
    exact build_eq haligned
  have hsettled : normalizeGeneratorSettingsV2 (generatorSettings acquired.plan
      (acquired.plan.objects.map fun o =>
        manifestObjectIdentity digests o.planLocalObjectIdentity)
      (plannedBlockers digests acquired.plan).blockers) = plannedSettings digests acquired.plan :=
    normalize_of_settled (plannedSettings_settled h)
  constructor
  · intro hc
    obtain ⟨-, hc⟩ := seq_ok.mp hc
    obtain ⟨-, hc⟩ := seq_ok.mp hc
    obtain ⟨paths, hp, hc⟩ := bind_ok.mp hc
    rw [hpaths, Except.ok.injEq] at hp
    subst hp
    simp only [hbuilt] at hc
    obtain ⟨built, hb, hc⟩ := bind_ok.mp hc
    cases hb
    obtain ⟨hvalid, hc⟩ := seq_ok.mp hc
    obtain ⟨settingsIdentity, hi, hc⟩ := bind_ok.mp hc
    obtain ⟨settingsBytes, hs, hc⟩ := bind_ok.mp hc
    rw [hsettled] at hvalid hi hs hc
    rw [hidentity] at hi
    rw [hbytes] at hs
    cases hi
    cases hs
    cases hc
    exact ⟨hvalid, rfl⟩
  · rintro ⟨hvalid, rfl⟩
    refine seq_ok.mpr ⟨mapError_ok.mpr hhandoff, seq_ok.mpr ⟨policy_valid hpolicy, ?_⟩⟩
    refine bind_ok.mpr ⟨_, hpaths, ?_⟩
    simp only [hbuilt]
    refine bind_ok.mpr ⟨_, rfl, ?_⟩
    rw [hsettled]
    refine seq_ok.mpr ⟨hvalid, bind_ok.mpr ⟨_, ?_, bind_ok.mpr ⟨_, ?_, rfl⟩⟩⟩
    · rw [hidentity]
      rfl
    · rw [hbytes]
      rfl

theorem constructedManifest_fits (h : HandedOver digests sizes acquired) :
    InputManifest.codec.Fits (constructedManifest digests hashes policy acquired) := by
  refine fits_inputManifest.mpr ⟨show 1 < 2 ^ 32 by decide, show 1 < 2 ^ 32 by decide,
    fun made hmade => ?_⟩
  obtain ⟨i, hi⟩ := List.getElem?_of_mem hmade
  obtain ⟨o, b, -, -, hpayload, rfl⟩ := manifestObjects_at h hi
  have hbounded := hpayload.bounded
  simp only [OnshapeApi.geometryDownloadLimit] at hbounded
  show b.retainedPayload.byteLength < 2 ^ 64
  omega

/-- A construction is checked with its manifest. -/
theorem manifest_of_construction (ht : digests.text.Faithful) (h : HandedOver digests sizes acquired)
    {settings : GeneratorSettingsV2} {expected : List ExpectedPlacementSummaryV2}
    (hlimit : (canonicalJson digests (InputManifest.codec.enc
      (constructedManifest digests hashes policy acquired))).utf8ByteSize ≤ maxInputManifestBytes)
    (hvalid : validateConstruction digests sizes (constructedManifest digests hashes policy acquired)
      settings expected = .ok ()) :
    (constructedManifest digests hashes policy acquired).validate digests = .ok () := by
  have hparsed : parseDocument digests InputManifest.codec maxInputManifestBytes "input manifest"
      _ = .ok _ := parseDocument_canonical ht (constructedManifest_fits h) hlimit
  obtain ⟨manifest, hparse, -⟩ := bind_ok.mp hvalid
  obtain ⟨parsed, hdocument, hparse⟩ := bind_ok.mp (mapError_ok.mp hparse)
  rw [hparsed, Except.ok.injEq] at hdocument
  subst hdocument
  exact (seq_ok.mp hparse).1

/-- Accepted geometry is constructed exactly when the configuration of its root is an identity of
the protocol, and then into the manifest and the settings of its plan. -/
theorem construct_iff (ht : digests.text.Faithful) (hx : Hexadecimal digests)
    (hsource : ∀ p, OnshapeApi.isSha256 (hashes.sourceHash p) = true)
    (h : HandedOver digests sizes acquired)
    (hhandoff : validateAcquisitionHandoff digests sizes trusted acquired = .ok ())
    (hpolicy : policy.Valid)
    (hprintable : ∃ o ∈ acquired.plan.objects, o.annotation.role = .printable)
    (hc : ManifestCollisionFree digests acquired.plan.objects)
    (hlimits : WithinLimits digests sizes hashes policy acquired)
    {inputs : ConstructedGeneratorInputs} :
    constructGeneratorInputs digests sizes hashes schema trusted acquired policy = .ok inputs ↔
      acquired.plan.root.configurationIdentity.utf8ByteSize ≤ Protocol.maxIdentityLength ∧
        inputs = constructedInputs digests hashes policy acquired schema := by
  have ha := allocatable ht hx h hc
  rw [construct_eq h hhandoff hpolicy ha hlimits, ← manifest_valid hx hsource hpolicy h ha hprintable]
  refine and_congr_left fun _ => ⟨fun hvalid => ?_, fun hmanifest => ?_⟩
  · exact manifest_of_construction ht h hlimits.manifest hvalid
  · exact construction_valid ht h ha hlimits hmanifest

end Settings

end Construction
end OnshapeExport
