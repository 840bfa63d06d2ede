import OnshapeExport.ExportQueue

/-!
# Exports

What an export of a catalog model is called: the requests of `onshape.rs`, and how
`refresh_preview` and `refresh_download` of `main.rs` derive the hashes they publish under.

* `sourceIdentity` — the configured source, with its version resolved to a microversion.
* `exportRequest` — the request, which keeps the version.
* `refresh` — the publication of one export.
-/

namespace OnshapeExport
namespace Exports

open CacheModel Catalogs ExportQueue Publishing

/-- What a download or a preview of a model is. -/
inductive Output where
  | preview
  | download (format : DownloadFormat)
deriving DecidableEq, Repr

/-! ## Identities -/

/-- `resolve_source_identity`, given the microversion each version of a document resolves to. -/
def sourceIdentity (microversion : String → String → String) (source : OnshapeSource) :
    ResolvedOnshapeSourceIdentity where
  documentId := source.documentId
  versionId := source.versionId
  microversionId := microversion source.documentId source.versionId
  elementId := source.elementId
  elementKind := source.elementKind
  linkDocumentId := source.linkDocumentId

def elementCollection : ElementKind → String
  | .partStudio => "partstudios"
  | .assembly => "assemblies"

def exportPathParams (source : OnshapeSource) : Members :=
  [("collection", elementCollection source.elementKind), ("did", source.documentId),
   ("vid", source.versionId), ("eid", source.elementId)]

def exportFlags : Members :=
  [("grouping", "true"), ("storeInDocument", "false"), ("notifyUser", "false"),
   ("triggerAutoDownload", "false")]

def buildPreviewGlbExportRequest (apiHostClass : String) (source : OnshapeSource)
    (configuration : EncodedConfigurationIdentity) (resolution : PreviewResolution) :
    RequestIdentity where
  apiHostClass := apiHostClass
  apiSpecVersion := none
  operation := "create-" ++ source.elementKind.key ++ "-gltf-export"
  method := "POST"
  pathTemplate := "/api/\x7bcollection\x7d/d/\x7bdid\x7d/v/\x7bvid\x7d/e/\x7beid\x7d/export/gltf"
  pathParams := exportPathParams source
  query := []
  body := [("advancedParams.configuration", configuration.encodedId),
    ("meshParams.resolution", resolution.asOnshapeStr)] ++ exportFlags
  encodedConfiguration := some configuration
  defaultsPolicyVersion := "preview-gltf-defaults-v2"
  requestBuilderVersion := "preview-gltf-request-v1"

def buildStepExportRequest (apiHostClass : String) (source : OnshapeSource)
    (configuration : EncodedConfigurationIdentity) (options : DownloadOptions) :
    RequestIdentity where
  apiHostClass := apiHostClass
  apiSpecVersion := none
  operation := "create-step-export"
  method := "POST"
  pathTemplate := "/api/\x7bcollection\x7d/d/\x7bdid\x7d/v/\x7bvid\x7d/e/\x7beid\x7d/export/step"
  pathParams := exportPathParams source
  query := []
  body := [("advancedParams.configuration", configuration.encodedId),
    ("stepVersionString", options.stepVersionString.asOnshapeStr)] ++ exportFlags
  encodedConfiguration := some configuration
  defaultsPolicyVersion := "step-export-defaults-v2"
  requestBuilderVersion := "step-export-request-v2"

def translationOptions (format : DownloadFormat) (options : DownloadOptions) : Members :=
  match format with
  | .step => []
  | .stl => [("resolution", options.stlResolution.asOnshapeStr),
      ("stlMode", options.stlMode.asOnshapeStr)]
  | .threeMf => [("resolution", options.threeMfResolution.asOnshapeStr)]

def buildTranslationExportRequest (apiHostClass : String) (source : OnshapeSource)
    (configuration : EncodedConfigurationIdentity) (format : DownloadFormat)
    (options : DownloadOptions) : RequestIdentity where
  apiHostClass := apiHostClass
  apiSpecVersion := none
  operation := "create-" ++ format.slug ++ "-translation"
  method := "POST"
  pathTemplate := "/api/\x7bcollection\x7d/d/\x7bdid\x7d/v/\x7bvid\x7d/e/\x7beid\x7d/translations"
  pathParams := exportPathParams source
  query := []
  body := [("formatName", format.label), ("configuration", configuration.encodedId)] ++
    exportFlags ++ translationOptions format options
  encodedConfiguration := some configuration
  defaultsPolicyVersion := "translation-export-defaults-v3"
  requestBuilderVersion := "translation-export-request-v3"

def exportRequest (apiHostClass : String) (m : Model)
    (configuration : EncodedConfigurationIdentity) : Output → RequestIdentity
  | .preview =>
    buildPreviewGlbExportRequest apiHostClass m.onshape configuration m.exports.previewResolution
  | .download .step =>
    buildStepExportRequest apiHostClass m.onshape configuration m.exports.downloadOptions
  | .download format =>
    buildTranslationExportRequest apiHostClass m.onshape configuration format
      m.exports.downloadOptions

section Hashes

variable (hashes : ExportHashes)

/-- `preview_options_hash` and `download_options_hash`. -/
def exportOptionsHash (m : Model) : Output → String
  | .preview => hashes.optionsHash "glb" "mesh-grouped-v3"
      [("resolution", m.exports.previewResolution.asOnshapeStr)]
  | .download .step => hashes.optionsHash "step" "step-grouped-v2"
      [("stepVersionString", m.exports.downloadOptions.stepVersionString.asOnshapeStr),
       ("grouping", "true")]
  | .download .stl => hashes.optionsHash "stl" "stl-mesh-grouped-v2"
      [("resolution", m.exports.downloadOptions.stlResolution.asOnshapeStr),
       ("stlMode", m.exports.downloadOptions.stlMode.asOnshapeStr), ("grouping", "true")]
  | .download .threeMf => hashes.optionsHash "3mf" "3mf-mesh-grouped-v2"
      [("resolution", m.exports.downloadOptions.threeMfResolution.asOnshapeStr),
       ("grouping", "true")]

def postprocessPolicy : Output → Members
  | .preview => [("acceptedInputShapes",
      "direct_glb,direct_gltf_json,zip_single_glb,zip_single_gltf_asset_set"),
      ("allowPartialMultiGltfPreviewFallback", "false")]
  | .download .step => [("strategy", "step_zip_detection"), ("format", "step"),
      ("contentType", "model/step"),
      ("acceptedInputShapes", "direct_step,zip_single_step,zip_step_package")]
  | .download .stl => [("strategy", "identity"), ("format", "stl"), ("contentType", "model/stl"),
      ("acceptedInputShapes", "requested_format_bytes")]
  | .download .threeMf => [("strategy", "identity"), ("format", "3mf"),
      ("contentType", "model/3mf"), ("acceptedInputShapes", "requested_format_bytes")]

def postprocessIdentity (output : Output) (rawPayloadHash : String) : PostprocessIdentity where
  rawPayloadHash := rawPayloadHash
  processorName := if output = .preview then "preview_extract" else "download_realize"
  processorVersion := "2"
  policy := postprocessPolicy output

/-- What Onshape and the post-processing made of one export. -/
structure Produced where
  configuration : EncodedConfigurationIdentity
  rawPayloadHash : String
  primary : OutputFile
  sidecars : List OutputFile
deriving DecidableEq, Repr

/-- `output_kind`. -/
def Output.kind : Output → String
  | .preview => "preview_glb"
  | .download format => format.slug

/-- A preview may come as a text document with its buffers beside it. -/
def Output.format (output : Output) (primary : OutputFile) : String :=
  match output with
  | .preview => if primary.contentType = "model/gltf-binary" then "glb" else "gltf"
  | .download format => format.slug

variable (microversion : String → String → String)

def modelSourceHash (m : Model) : String :=
  hashes.sourceHash (sourceIdentity microversion m.onshape).payload

/-- `configuration_hash`. -/
def configurationHash (sourceHash : String)
    (typedValues : List (String × CanonicalParameterValue)) : String :=
  hashes.configHash ⟨canonicalizationVersion, sourceHash, schemaVersion.toNat, typedValues⟩

/-- The publication that `refresh_preview` or `refresh_download` makes of an export, for the job
`enqueue_preview` or `enqueue_download` queued. -/
def refresh (artifactSetHash : ArtifactSetIdentity → String) (apiHostClass : String) (m : Model)
    (typedValues : List (String × CanonicalParameterValue)) (configValuesJson : String)
    (output : Output) (produced : Produced) : Publication :=
  let sourceHash := modelSourceHash hashes microversion m
  let requestHash := hashes.requestHash
    (exportRequest apiHostClass m produced.configuration output)
  let exported : ExportOutput :=
    { modelSlug := m.slug
      sourceHash := sourceHash
      configHash := configurationHash hashes sourceHash typedValues
      optionsHash := exportOptionsHash hashes m output
      outputKind := output.kind
      format := output.format produced.primary
      rawPayloadHash := produced.rawPayloadHash
      postprocessHash := hashes.postprocessHash
        (postprocessIdentity output produced.rawPayloadHash)
      configValuesJson := configValuesJson
      primary := produced.primary
      sidecars := produced.sidecars }
  exported.publication artifactSetHash requestHash (exportJobKey requestHash)

end Hashes

end Exports
end OnshapeExport
