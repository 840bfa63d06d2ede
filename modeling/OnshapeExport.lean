import OnshapeExport.Lib.Table
import OnshapeExport.Lib.Trace
import OnshapeExport.Jobs
import OnshapeExport.Fencing
import OnshapeExport.Artifacts
import OnshapeExport.Publication
import OnshapeExport.Replacement
import OnshapeExport.Withdrawal
import OnshapeExport.CacheModel
import OnshapeExport.ExportQueue
import OnshapeExport.StuckExport
import OnshapeExport.Recipes
import OnshapeExport.GeneratorArtifacts
import OnshapeExport.GeneratorLifecycle
import OnshapeExport.OnshapeApi
import OnshapeExport.SelectionRequest
import OnshapeExport.Catalog
import OnshapeExport.Exports
import OnshapeExport.GeneratorPublication
import OnshapeExport.ModelPublications
import OnshapeExport.Isolation
import OnshapeExport.JobQueue
import OnshapeExport.RecipeImmutability
import OnshapeExport.Lib.Json
import OnshapeExport.Lib.JsonCodec
import OnshapeExport.Lib.JsonText
import OnshapeExport.ParseJson
import OnshapeExport.ConfigurationEncoding
import OnshapeExport.EncodingAgreement
import OnshapeExport.Lib.Checks
import OnshapeExport.GeneratorProtocol
import OnshapeExport.GeneratorValidation
import OnshapeExport.Annotation
import OnshapeExport.SelectionPlan
import OnshapeExport.Provenance
import OnshapeExport.Identities
import OnshapeExport.SelectionResolution
import OnshapeExport.PlanAcceptance
import OnshapeExport.GeneratorSettings
import OnshapeExport.DeployedGenerator
import OnshapeExport.GeneratorProcessing
import OnshapeExport.RecipeReopening
import OnshapeExport.Lib.JsonShape
import OnshapeExport.Planning
import OnshapeExport.RecordShape
import OnshapeExport.PlanRecording
import OnshapeExport.TranslationResume
import OnshapeExport.Translations
import OnshapeExport.Lib.Decimal
import OnshapeExport.Lib.SortedMap
import OnshapeExport.Parameters
import OnshapeExport.NumberText
import OnshapeExport.ParameterValues
import OnshapeExport.ValidatedValues
import OnshapeExport.Canonicalization
import OnshapeExport.EncodingAcceptance
import OnshapeExport.ProjectRequests
import OnshapeExport.ParameterNormalization
import OnshapeExport.VisibilityConditions
import OnshapeExport.CatalogStore
import OnshapeExport.CatalogRoundTrip
import OnshapeExport.CatalogRows
import OnshapeExport.ServedSchemas
import OnshapeExport.Lib.Phases
import OnshapeExport.AssemblyPhases
import OnshapeExport.AssemblyClassification
import OnshapeExport.AssemblyProjections
import OnshapeExport.NumericDefaults
import OnshapeExport.ParameterForm
import OnshapeExport.FormFields
import OnshapeExport.FormRoundTrip
import OnshapeExport.GeneratorRunner
import OnshapeExport.Lib.FileTree
import OnshapeExport.RunnerLayout
import OnshapeExport.OutputCheckpoints
import OnshapeExport.CheckpointRuns
import OnshapeExport.BoundedJson
import OnshapeExport.Lib.PercentEncoding
import OnshapeExport.RequestPaths
import OnshapeExport.NameAnnotation
import OnshapeExport.SettingsCompilation
import OnshapeExport.Lib.FirstSeen
import OnshapeExport.FailurePositions
import OnshapeExport.Lib.Memo
import OnshapeExport.GeometryAcquisition
import OnshapeExport.AcquisitionRuns
import OnshapeExport.Lib.ByteStream
import OnshapeExport.ChunkedBody
import OnshapeExport.ChunkedReading
import OnshapeExport.ChunkExtensions
import OnshapeExport.ChunkedFraming
import OnshapeExport.Lib.TwoRuns
import OnshapeExport.RowOrder
import OnshapeExport.GeneratorInputs
import OnshapeExport.ManifestConstruction
import OnshapeExport.InputsConstruction
import OnshapeExport.RunnerPreflight
import OnshapeExport.Lib.LinkWalk
import OnshapeExport.ParentForest
import OnshapeExport.MediaTypes
import OnshapeExport.Lib.Upsert
import OnshapeExport.SourceAliases
import OnshapeExport.CarrierGroups
import OnshapeExport.CarrierJoins
import OnshapeExport.AcquisitionLookups
import OnshapeExport.Lib.UrlPaths
import OnshapeExport.GltfPreviews
import OnshapeExport.SelfContainedPreviews
import OnshapeExport.ProjectRecords
import OnshapeExport.ProjectExecution
import OnshapeExport.ProjectRecovery
import OnshapeExport.Postprocessing
import OnshapeExport.Lib.ContentStore
import OnshapeExport.ExportPipeline
import OnshapeExport.ExportProvenance
import OnshapeExport.ExportIntegrity
import OnshapeExport.ExportSoundness
import OnshapeExport.Lib.Progress
import OnshapeExport.ExportRecovery
import OnshapeExport.Lib.Transducer
import OnshapeExport.Lib.Markup
import OnshapeExport.FormMarkup
import OnshapeExport.ContentDisposition
import OnshapeExport.ArtifactStatus
import OnshapeExport.Lib.Effects
import OnshapeExport.Lib.Paging
import OnshapeExport.Lib.References
import OnshapeExport.Maintenance
import OnshapeExport.MaintenanceReset
