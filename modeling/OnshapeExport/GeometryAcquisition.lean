import OnshapeExport.Lib.Memo
import OnshapeExport.PlanRecording
import OnshapeExport.RequestPaths

/-!
# GeometryAcquisition

How `onshape_geometry.rs` acquires the geometry of a recorded plan: after one check of the version
every configured leaf is translated and downloaded, and every binding of the record gets the
payload of its leaf. What Onshape answers, and at which of its checks a run finds that a deadline
has passed, are given with the run.

* `acquireLeaf` — one translation: created, polled until it is done, downloaded and retained.
* `acquireWithTiming` — the loop over the bindings.
* `validateAcquired`, `validateAcquisitionHandoff` — what is checked of the result, here and by
  its consumer.
-/

namespace OnshapeExport

namespace OnshapeApi

open Json

def geometryCreateBody (configuration part : String) : Value :=
  .ofFields [("formatName", .string "3MF"), ("storeInDocument", .bool false),
    ("notifyUser", .bool false), ("triggerAutoDownload", .bool false),
    ("configuration", .string configuration), ("partIds", .string part), ("grouping", .bool true),
    ("resolution", .string "fine")]

def geometryDownloadLimit : Nat := 134217728

/-- A download. An empty one and a longer one are refused where it is read. -/
structure GeometryDownload where
  bytes : List UInt8
  transportMedia : String
  nonempty : bytes ≠ []
  bounded : bytes.length ≤ geometryDownloadLimit

end OnshapeApi

namespace Geometry

open Annotation CacheKey CacheModel Checks Encoding Json Memoized OnshapeApi Relational Selection

def timeout : ApiFailure := .new .operationalTimeoutFailure "acquisition_deadline"

/-! ## One leaf -/

/-- A retained payload; the reference is the number of the call that stored it. -/
structure RetainedPayload where
  storageReference : Nat
  byteLength : Nat
  sha256 : String
deriving DecidableEq

structure AcquisitionEvidence where
  requestContract : String
  representation : Representation
  configurationRequestValue : String
  documentId : String
  versionId : String
  configuredLeaf : ConfiguredLeaf
  createRequestPath : String
  createRequestQuery : List (String × String)
  createRequestBody : Value
  createTranslationId : String
  terminalTranslationId : String
  externalDataId : String
  downloadDocumentId : String
  transportMedia : String
  byteLength : Nat
  sha256 : String

/-- Where a call of `acquire_leaf` looks at its deadlines. -/
inductive LeafCheck where
  | started
  | created
  | waiting (poll : Nat)
  | woken (poll : Nat)
  | polled (poll : Nat)
  | translated
  | downloaded
  | hashed
  | retained
  | finished
deriving DecidableEq

/-- What happens during one call of `acquire_leaf`. -/
structure LeafAnswers where
  create (document version element configuration part : String) : Except ApiFailure Value
  poll (polls : Nat) (id : String) : Except ApiFailure Value
  download (document id : String) : Except ApiFailure GeometryDownload
  retain : Except ApiFailure Unit
  late : LeafCheck → Bool

def ensureTime (late : Bool) : Except ApiFailure Unit := ensure (late = false) timeout

def echoes (obj : Selection.Members) (field expected : String) : Except ApiFailure Unit :=
  match get? obj field with
  | none => .ok ()
  | some _ => do
    let echoed ← requiredAscii obj field
    ensure (echoed = expected) (invariant "translation_source_echo")

/-- The identity and the state of a translation. -/
def translation (value : Value) (plan : ResolvedSelectionPlan) (leaf : ConfiguredLeaf)
    (expectedId : Option String) : Except ApiFailure (String × String) :=
  match value with
  | .object obj => do
    let id ← requiredAscii obj "id"
    let state ← requiredAscii obj "requestState"
    ensure ((∀ expected ∈ expectedId, expected = id) ∧ state ∈ ["ACTIVE", "DONE", "FAILED"])
      (invariant "translation_identity_state")
    echoes obj "documentId" plan.root.documentId
    echoes obj "requestElementId" leaf.elementId
    echoes obj "versionId" plan.root.versionId
    echoes obj "resultDocumentId" plan.root.documentId
    return (id, state)
  | _ => .error (invariant "translation_shape")

def terminalExternalData (value : Value) : Except ApiFailure String :=
  match value with
  | .object obj =>
    match get? obj "resultExternalDataIds" with
    | some (.array [result]) =>
      match asStr result with
      | some id => do
        ensure (boundedVisibleAscii id = true) (invariant "translation_result_id")
        match get? obj "resultElementIds" with
        | none | some .null | some (.array []) => return id
        | some _ => throw (invariant "translation_result_elements")
      | none => .error (invariant "translation_result_id")
    | _ => .error (invariant "translation_result_cardinality")
  | _ => .error (invariant "translation_shape")

section Leaf

variable (hashBytes : List UInt8 → String) (maxPolls : Nat) (plan : ResolvedSelectionPlan)

/-- The loop over the states of a translation, after some polls. -/
def pollLoop (answers : LeafAnswers) (leaf : ConfiguredLeaf) (createId : String) (polls : Nat) :
    Nat → Value → String → Except ApiFailure Value
  | left, value, state =>
    if state = "FAILED" then .error (.new .operationalTranslationFailure "translation_failed")
    else if state = "DONE" then .ok value
    else
      match left with
      | 0 => .error timeout
      | left + 1 => do
        ensureTime (answers.late (.waiting polls))
        ensureTime (answers.late (.woken polls))
        let value ← answers.poll polls createId
        ensureTime (answers.late (.polled polls))
        let (_, next) ← translation value plan leaf (some createId)
        pollLoop answers leaf createId (polls + 1) left value next

/-- A call, with its number and its answers. -/
def acquireLeaf (answers : LeafAnswers) (call : Nat) (binding : ProvenanceBinding) :
    Except ApiFailure (RetainedPayload × AcquisitionEvidence) := do
  let leaf := binding.configuredLeaf
  ensureTime (answers.late .started)
  let value ← answers.create plan.root.documentId plan.root.versionId leaf.elementId
    binding.configurationRequestValue leaf.partId
  ensureTime (answers.late .created)
  let (createId, state) ← translation value plan leaf none
  let value ← pollLoop plan answers leaf createId 0 maxPolls value state
  let externalDataId ← terminalExternalData value
  ensureTime (answers.late .translated)
  let downloaded ← answers.download plan.root.documentId externalDataId
  ensureTime (answers.late .downloaded)
  let byteLength := downloaded.bytes.length
  let sha256 := hashBytes downloaded.bytes
  ensureTime (answers.late .hashed)
  answers.retain
  ensureTime (answers.late .retained)
  let evidence : AcquisitionEvidence :=
    { requestContract := contract
      representation := binding.representation
      configurationRequestValue := binding.configurationRequestValue
      documentId := plan.root.documentId
      versionId := plan.root.versionId
      configuredLeaf := leaf
      createRequestPath := geometryCreatePath plan.root.documentId plan.root.versionId leaf.elementId
      createRequestQuery := []
      createRequestBody := geometryCreateBody binding.configurationRequestValue leaf.partId
      createTranslationId := createId
      terminalTranslationId := createId
      externalDataId := externalDataId
      downloadDocumentId := plan.root.documentId
      transportMedia := downloaded.transportMedia
      byteLength := byteLength
      sha256 := sha256 }
  ensureTime (answers.late .finished)
  return (⟨call, byteLength, sha256⟩, evidence)

end Leaf

/-! ## All bindings -/

structure OccurrencePayloadBinding where
  position : Nat
  planLocalObjectIdentity : String
  configuredLeaf : ConfiguredLeaf
  retainedPayload : RetainedPayload
  acquisitionEvidence : AcquisitionEvidence

structure AcquiredGeometry where
  plan : ResolvedSelectionPlan
  provenanceIdentity : String
  bindings : List OccurrencePayloadBinding
  retentionProof : List (Nat × String)

def evidenceValue (e : AcquisitionEvidence) : Value :=
  .ofFields [("requestContract", .string e.requestContract),
    ("representation", Representation.codec.enc e.representation),
    ("configurationRequestValue", .string e.configurationRequestValue),
    ("documentId", .string e.documentId), ("versionId", .string e.versionId),
    ("configuredLeaf", ConfiguredLeaf.codec.enc e.configuredLeaf),
    ("createRequestPath", .string e.createRequestPath),
    ("createRequestQuery", .ofFields (e.createRequestQuery.map fun (k, v) => (k, .string v))),
    ("createRequestBody", e.createRequestBody),
    ("createTranslationId", .string e.createTranslationId),
    ("terminalTranslationId", .string e.terminalTranslationId),
    ("externalDataId", .string e.externalDataId),
    ("downloadDocumentId", .string e.downloadDocumentId),
    ("transportMedia", .string e.transportMedia),
    ("byteLength", .number (.int e.byteLength)), ("sha256", .string e.sha256)]

/-- Where the whole acquisition looks at its deadline. -/
inductive PlanCheck where
  | started
  | resolved
  | binding (bindings : Nat)
  | acquired
  | finished
deriving DecidableEq

/-- What happens during one acquisition: the answers of every call by its number. -/
structure Remote where
  onshape : Onshape
  leaf : Nat → LeafAnswers
  late : PlanCheck → Bool

/-- What an acquisition has done before its end: its calls with their results, and the bindings. -/
structure Progress where
  memo : Memo ProvenanceBinding ConfiguredLeaf (RetainedPayload × AcquisitionEvidence)
  bindings : List OccurrencePayloadBinding

structure Acquisition where
  calls : List ProvenanceBinding
  result : Except ApiFailure AcquiredGeometry

section Acquiring

variable (digests : Digests) (hashBytes : List UInt8 → String) (maxPolls : Nat)

def acquisitionEvidenceIdentity (e : AcquisitionEvidence) : String :=
  hashJson digests "onshape-export-geometry-acquisition-evidence-v1" (evidenceValue e)

def occurrence (binding : ProvenanceBinding) (payload : RetainedPayload)
    (evidence : AcquisitionEvidence) : OccurrencePayloadBinding where
  position := binding.position
  planLocalObjectIdentity := binding.planLocalObjectIdentity
  configuredLeaf := binding.configuredLeaf
  retainedPayload := payload
  acquisitionEvidence := evidence

/-- The checks of one binding against the record. -/
def validateBinding (record : ProvenanceRecord) (binding : OccurrencePayloadBinding)
    (planned : ProvenanceBinding) : Except ApiFailure Unit :=
  let evidence := binding.acquisitionEvidence
  ensure (binding.position = planned.position ∧
      binding.planLocalObjectIdentity = planned.planLocalObjectIdentity ∧
      binding.configuredLeaf = planned.configuredLeaf ∧
      evidence.configuredLeaf = planned.configuredLeaf ∧
      evidence.configurationRequestValue = planned.configurationRequestValue ∧
      evidence.representation = planned.representation ∧
      evidence.requestContract = record.requestContract ∧
      evidence.documentId = record.plan.root.documentId ∧
      evidence.versionId = record.plan.root.versionId ∧
      evidence.downloadDocumentId = record.plan.root.documentId ∧
      evidence.createTranslationId = evidence.terminalTranslationId ∧
      boundedVisibleAscii evidence.externalDataId = true ∧
      boundedVisibleAscii evidence.createTranslationId = true ∧
      evidence.createRequestPath = geometryCreatePath evidence.documentId evidence.versionId
        binding.configuredLeaf.elementId ∧
      evidence.createRequestQuery = [] ∧
      evidence.createRequestBody = geometryCreateBody planned.configurationRequestValue
        planned.configuredLeaf.partId ∧
      evidence.byteLength = binding.retainedPayload.byteLength ∧
      evidence.sha256 = binding.retainedPayload.sha256 ∧
      evidence.byteLength ≠ 0 ∧ evidence.byteLength ≤ 134217728 ∧ isSha256 evidence.sha256 = true)
    ((invariant "acquisition_handoff_mismatch").position planned.position)

def validateAcquired (record : ProvenanceRecord) (bindings : List OccurrencePayloadBinding) :
    Except ApiFailure Unit := do
  ensure (bindings.length = record.bindings.length) (invariant "acquisition_handoff_cardinality")
  each (fun _ (p : OccurrencePayloadBinding × ProvenanceBinding) => validateBinding record p.1 p.2)
    0 (bindings.zip record.bindings)

/-- Plans are compared as floats are: without the signs of zeros. -/
def validateAcquisitionHandoff (sizes : Sizes) (trusted : TrustedAcquisitionPlan)
    (acquired : AcquiredGeometry) : Except ApiFailure Unit := do
  validateRetainedPlan digests sizes acquired.plan
  ensure (settlePlan acquired.plan = settlePlan trusted.record.plan ∧
      acquired.provenanceIdentity = trusted.record.provenanceIdentity ∧
      acquired.retentionProof.length = acquired.bindings.length)
    (invariant "acquisition_handoff_proof")
  validateAcquired trusted.record acquired.bindings
  each (fun _ (p : OccurrencePayloadBinding × (Nat × String)) =>
    ensure (p.2.1 = p.1.retainedPayload.storageReference ∧
        p.2.2 = acquisitionEvidenceIdentity digests p.1.acquisitionEvidence)
      ((invariant "acquisition_handoff_proof").position p.1.position)) 0
    (acquired.bindings.zip acquired.retentionProof)

/-- A call of `acquire_leaf` by its number. -/
def leafCall (plan : ResolvedSelectionPlan) (remote : Remote) (n : Nat)
    (binding : ProvenanceBinding) : Except ApiFailure (RetainedPayload × AcquisitionEvidence) :=
  acquireLeaf hashBytes maxPolls plan (remote.leaf n) n binding

/-- One turn of the loop, after some bindings. -/
def acquireBinding (plan : ResolvedSelectionPlan) (remote : Remote) (binding : ProvenanceBinding)
    (p : Progress) : Progress × Option ApiFailure :=
  if remote.late (.binding p.bindings.length) then (p, some timeout)
  else
    match p.memo.fill ProvenanceBinding.configuredLeaf (leafCall hashBytes maxPolls plan remote)
        binding with
    | (memo, some e) => ({ p with memo := memo }, some (e.position binding.position))
    | (memo, none) =>
      match memo.known.lookup binding.configuredLeaf with
      | none => ({ p with memo := memo }, some (invariant "acquisition_binding_missing"))
      | some (payload, evidence) =>
        if evidence.configurationRequestValue ≠ binding.configurationRequestValue ∨
            evidence.representation ≠ binding.representation then
          ({ p with memo := memo }, some (invariant "acquisition_reuse_conflict"))
        else (⟨memo, p.bindings ++ [occurrence binding payload evidence]⟩, none)

def acquireBindings (plan : ResolvedSelectionPlan) (remote : Remote) :
    List ProvenanceBinding → Progress → Progress × Option ApiFailure
  | [], p => (p, none)
  | binding :: rest, p =>
    match acquireBinding hashBytes maxPolls plan remote binding p with
    | (p, some e) => (p, some e)
    | (p, none) => acquireBindings plan remote rest p

/-- The end of an acquisition whose bindings all have a payload. -/
def finishAcquisition (record : ProvenanceRecord) (remote : Remote)
    (bindings : List OccurrencePayloadBinding) : Except ApiFailure AcquiredGeometry := do
  ensureTime (remote.late .acquired)
  validateAcquired record bindings
  let proof := bindings.map fun binding =>
    (binding.retainedPayload.storageReference,
      acquisitionEvidenceIdentity digests binding.acquisitionEvidence)
  let result : AcquiredGeometry := ⟨record.plan, record.provenanceIdentity, bindings, proof⟩
  ensureTime (remote.late .finished)
  return result

section Trusted

variable (sizes : Sizes) (hashes : ExportHashes)
  (canonicalOrigin : String → Except ApiFailure String) (origin : String) (db : Database)
  (table : Table AcquisitionRow)

/-- Before the first leaf: the record is read again, and the version is still the one of its plan. -/
def checkVersion (trusted : TrustedAcquisitionPlan) (remote : Remote) :
    Except ApiFailure ProvenanceRecord := do
  let checked ← readAssociation digests sizes hashes canonicalOrigin origin db table
    trusted.record.plan.planIdentity trusted.record.provenanceIdentity
  let stored ← boundedCanonical digests (ProvenanceRecord.codec.enc checked.record)
  let handed ← boundedCanonical digests (ProvenanceRecord.codec.enc trusted.record)
  ensure (stored = handed) (invariant "provenance_handle_mismatch")
  let record := checked.record
  ensureTime (remote.late .started)
  let microversion ← resolveVersion remote.onshape record.plan.root.documentId
    record.plan.root.versionId
  ensureTime (remote.late .resolved)
  ensure (microversion = record.plan.root.documentMicroversion ∧
      ∀ object ∈ record.plan.objects,
        object.configuredLeaf.documentId = record.plan.root.documentId ∧
          object.configuredLeaf.documentMicroversion = microversion)
    (.new .unavailableSourceState "acquisition_snapshot_mismatch")
  return record

def acquireWithTiming (trusted : TrustedAcquisitionPlan) (remote : Remote) : Acquisition :=
  match checkVersion digests sizes hashes canonicalOrigin origin db table trusted remote with
  | .error e => ⟨[], .error e⟩
  | .ok record =>
    match acquireBindings hashBytes maxPolls record.plan remote record.bindings ⟨.empty, []⟩ with
    | (p, some e) => ⟨p.memo.calls, .error e⟩
    | (p, none) => ⟨p.memo.calls, finishAcquisition digests record remote p.bindings⟩

end Trusted

end Acquiring

end Geometry
end OnshapeExport
