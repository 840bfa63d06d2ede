import OnshapeExport.Planning
import OnshapeExport.RecordShape

/-!
# PlanRecording

How `onshape_geometry.rs` records a plan: the record of the plan and of the request it was made
for, its check, and the table of associations it is stored in and read back from. Runs on one
database and one origin take their steps in any order; each asks Onshape for itself.

* `planInvocation` — the record of a run, and `validateRecord` its check.
* `recordAcquisitionProvenance`, `readAssociation` — the two statements about the table.
* `step` — one step of one run.
* `recorded` — what a run returns.
-/

namespace OnshapeExport
namespace Geometry

open Annotation CacheKey CacheModel Checks Encoding Json OnshapeApi Relational Selection

/-! ## The record of a run -/

/-- A row of `acquisition_plan_provenance`; the schema version is always 1. -/
structure AcquisitionRow where
  planIdentity : String
  provenanceIdentity : String
  recordJson : String
deriving DecidableEq, Repr

instance : Schema AcquisitionRow String where
  key := AcquisitionRow.planIdentity
  clash a b := a.planIdentity = b.planIdentity
  clash_of_key h := h
  clash_symm h := h.symm

instance : DecidableRel (Schema.clash (α := AcquisitionRow)) :=
  fun a b => inferInstanceAs (Decidable (a.planIdentity = b.planIdentity))

structure TrustedAcquisitionPlan where
  record : ProvenanceRecord
deriving DecidableEq

def source (plan : ResolvedSelectionPlan) : ResolvedOnshapeSourceIdentity where
  documentId := plan.root.documentId
  versionId := plan.root.versionId
  microversionId := plan.root.documentMicroversion
  elementId := plan.root.elementId
  elementKind := plan.root.elementKind.catalogKind
  linkDocumentId := none

/-- What the binding of an object is, from the encoding and the plan of its record. -/
def binding (encoding : EncodingHandoff) (root : SelectionRoot) (position : Nat)
    (object : ResolvedSelectionObject) : ProvenanceBinding :=
  let (representation, value) : Representation × String :=
    match root.elementKind with
    | .partStudio => (.partStudioOriginalEncoding, encoding.encodedId)
    | .assembly => (.assemblyLeafFullConfiguration, object.configuredLeaf.configurationIdentity)
  { position := position
    planLocalObjectIdentity := object.planLocalObjectIdentity
    selector := object.selector
    configuredLeaf := object.configuredLeaf
    representation := representation
    configurationRequestValue := value }

/-- A record without its identity. -/
def draftRecord (encoding : EncodingHandoff) (encodingContext : EncodingContext)
    (plan : ResolvedSelectionPlan) : ProvenanceRecord where
  provenanceSchemaVersion := 1
  requestContract := contract
  configurationEncoding := encoding
  encodingContext := encodingContext
  plan := plan
  bindings := plan.objects.zipIdx.map fun (object, position) =>
    binding encoding plan.root position object
  provenanceIdentity := ""

/-- A plan is for the invocation. -/
def forInvocation (request : SelectionRequest) (plan : ResolvedSelectionPlan) : Bool :=
  plan.root.documentId = request.documentId && plan.root.versionId = request.versionId &&
    plan.root.elementId = request.elementId && plan.root.elementKind = request.elementKind &&
    plan.objects.length = request.selectors.length &&
    (plan.objects.zip request.selectors).all fun (object, requested) =>
      selects object.selector requested

section Recording

variable (digests : Digests) (sizes : Sizes) (hashes : ExportHashes)
  (canonicalOrigin : String → Except ApiFailure String) (origin : String) (db : Database)

def validateRecord (record : ProvenanceRecord) : Except ApiFailure Unit := do
  validateRetainedPlan digests sizes record.plan
  ensure (record.provenanceSchemaVersion = 1 ∧ record.requestContract = contract ∧
    isSha256 record.provenanceIdentity = true) (invariant "provenance_record_identity")
  let identity ← record.identity digests
  ensure (identity = record.provenanceIdentity ∧
    record.bindings.length = record.plan.objects.length) (invariant "provenance_record_identity")
  let expected ← context canonicalOrigin origin (source record.plan)
  ensure (record.encodingContext = expected) (invariant "provenance_context_mismatch")
  (validateHandoff digests hashes canonicalOrigin origin db (source record.plan)
    record.configurationEncoding).mapError fun _ => invariant "provenance_handoff_mismatch"
  each (fun position (p : ProvenanceBinding × ResolvedSelectionObject) =>
    ensure (p.1 = binding record.configurationEncoding record.plan.root position p.2)
      ((invariant "provenance_binding_mismatch").position position)) 0
    (record.bindings.zip record.plan.objects)

/-- The run up to its record: `record_planning_invocation` before it writes. -/
def planInvocation (onshape : Onshape) (request : SelectionRequest) :
    Except ApiFailure ProvenanceRecord := do
  request.preflight
  let handoff := request.configurationEncoding
  match db.encodings.find? (handoffKey handoff) with
  | none => throw (invariant "provenance_encoding_missing")
  | some cached =>
    let contextValue ← parseJson digests.text cached.encodingContextJson smallResponseLimit
    match EncodingContext.codec.dec contextValue with
    | none => throw (invariant "provenance_encoding_context")
    | some originalContext =>
      ensure (EncodingContext.codec.enc originalContext = contextValue)
        (invariant "provenance_encoding_context")
      let plan ← planSelection digests sizes hashes canonicalOrigin origin db onshape request
      ensure (forInvocation request plan = true) (invariant "provenance_invocation_mismatch")
      let draft := draftRecord handoff originalContext plan
      let identity ← draft.identity digests
      let record := { draft with provenanceIdentity := identity }
      validateRecord digests sizes hashes canonicalOrigin origin db record
      let _ ← boundedCanonical digests (ProvenanceRecord.codec.enc record)
      return record

def rowOf (record : ProvenanceRecord) : AcquisitionRow where
  planIdentity := record.plan.planIdentity
  provenanceIdentity := record.provenanceIdentity
  recordJson := canonicalJson digests (ProvenanceRecord.codec.enc record)

/-! ## The table of associations -/

/-- One transaction: the row is inserted unless its plan has one, and compared with the one that is
there. A conflict rolls back. -/
def recordAcquisitionProvenance (table : Table AcquisitionRow) (row : AcquisitionRow) :
    Option (Table AcquisitionRow) :=
  let table := (table.insertOrIgnore row).2
  if table.find? row.planIdentity = some row then some table else none

def readAssociation (table : Table AcquisitionRow) (planIdentity provenanceIdentity : String) :
    Except ApiFailure TrustedAcquisitionPlan :=
  match table.find? planIdentity with
  | none => .error (invariant "provenance_association_missing")
  | some row => do
    let value ← (parseJson digests.text row.recordJson recordLimit).mapError fun _ =>
      invariant "provenance_record_json"
    match ProvenanceRecord.codec.dec value with
    | none => throw (invariant "provenance_record_shape")
    | some record =>
      ensure (record.plan.planIdentity = planIdentity ∧
        record.provenanceIdentity = provenanceIdentity ∧
        row.provenanceIdentity = provenanceIdentity) (invariant "provenance_association_mismatch")
      let json ← boundedCanonical digests (ProvenanceRecord.codec.enc record)
      ensure (json = row.recordJson) (invariant "provenance_association_mismatch")
      validateRecord digests sizes hashes canonicalOrigin origin db record
      return ⟨record⟩

/-! ## Runs -/

/-- Where a run is: before its plan, before it writes, before it reads back, and at its end. -/
inductive Phase where
  | planning
  | planned (record : ProvenanceRecord)
  | recorded (record : ProvenanceRecord)
  | done (result : Except ApiFailure TrustedAcquisitionPlan)

structure Run where
  request : SelectionRequest
  onshape : Onshape
  phase : Phase

def Run.advance (r : Run) (table : Table AcquisitionRow) : Run × Table AcquisitionRow :=
  match r.phase with
  | .planning =>
    match planInvocation digests sizes hashes canonicalOrigin origin db r.onshape r.request with
    | .ok record => ({ r with phase := .planned record }, table)
    | .error e => ({ r with phase := .done (.error e) }, table)
  | .planned record =>
    match recordAcquisitionProvenance table (rowOf digests record) with
    | some table => ({ r with phase := .recorded record }, table)
    | none =>
      ({ r with phase := .done (.error (invariant "provenance_recording_failed")) }, table)
  | .recorded record =>
    ({ r with phase := .done (readAssociation digests sizes hashes canonicalOrigin origin db table
        record.plan.planIdentity record.provenanceIdentity) }, table)
  | .done _ => (r, table)

structure World where
  table : Table AcquisitionRow
  runs : List Run

inductive Op where
  | start (request : SelectionRequest) (onshape : Onshape)
  | step (run : Nat)

def step (w : World) : Op → World
  | .start request onshape => { w with runs := w.runs ++ [⟨request, onshape, .planning⟩] }
  | .step i =>
    match w.runs[i]? with
    | none => w
    | some r =>
      let (r, table) := r.advance digests sizes hashes canonicalOrigin origin db w.table
      ⟨table, w.runs.set i r⟩

/-! ## Records that fit -/

/-- The record of a plan, with its identity. -/
def finishRecord (handoff : EncodingHandoff) (c : EncodingContext) (plan : ResolvedSelectionPlan) :
    ProvenanceRecord :=
  { draftRecord handoff c plan with
    provenanceIdentity := hashJson digests provenanceDomain
      (ProvenancePayload.codec.enc (draftRecord handoff c plan).payload) }

/-- What is hashed of a record. -/
def hashedPayload (record : ProvenanceRecord) : Value :=
  .ofFields [("domain", .string provenanceDomain),
    ("payload", ProvenancePayload.codec.enc record.payload)]

/-- A record is within the byte bound as it is stored and as it is hashed. -/
structure FitsBound (record : ProvenanceRecord) : Prop where
  stored : (canonicalJson digests (ProvenanceRecord.codec.enc record)).utf8ByteSize ≤ recordLimit
  hashed : (canonicalJson digests (hashedPayload record)).utf8ByteSize ≤ recordLimit

@[simp] theorem finishRecord_plan (handoff : EncodingHandoff) (c : EncodingContext)
    (plan : ResolvedSelectionPlan) : (finishRecord digests handoff c plan).plan = plan := rfl

@[simp] theorem finishRecord_handoff (handoff : EncodingHandoff) (c : EncodingContext)
    (plan : ResolvedSelectionPlan) :
    (finishRecord digests handoff c plan).configurationEncoding = handoff := rfl

variable {digests sizes hashes canonicalOrigin origin db}

theorem context_fits {s : ResolvedOnshapeSourceIdentity} {c : EncodingContext}
    (h : context canonicalOrigin origin s = .ok c) : EncodingContext.codec.Fits c := by
  obtain ⟨-, h⟩ := seq_ok.mp h
  obtain ⟨canonical, -, h⟩ := bind_ok.mp h
  split at h
  · cases h
  · cases h
    refine fits_context.mpr ⟨?_, ?_, ?_, ?_⟩
    · exact (by decide : 1 < 2 ^ 32)
    · exact (by decide : 16 < 2 ^ 32)
    · exact (by decide : canonicalizationVersion < 2 ^ 32)
    · exact (by decide : parameterSchemaVersion < 2 ^ 32)

theorem fits_provenanceRecord {r : ProvenanceRecord} :
    ProvenanceRecord.codec.Fits r ↔ ProvenancePayload.codec.Fits r.payload := by
  simp only [ProvenanceRecord.codec, ProvenancePayload.codec, fits_record, fits_iso, fits_and,
    fits_required, fits_str, and_true]
  rfl

theorem draft_positions {handoff : EncodingHandoff} {c : EncodingContext}
    {plan : ResolvedSelectionPlan} {b : ProvenanceBinding}
    (hb : b ∈ (draftRecord handoff c plan).bindings) :
    ∃ i o, plan.objects[i]? = some o ∧ b = binding handoff plan.root i o := by
  obtain ⟨⟨o, i⟩, hmem, rfl⟩ := List.mem_map.mp hb
  exact ⟨i, o, List.mem_zipIdx_iff_getElem?.mp hmem, rfl⟩

theorem binding_selector (handoff : EncodingHandoff) (r : SelectionRoot) (i : Nat)
    (o : ResolvedSelectionObject) : (binding handoff r i o).selector = o.selector := by
  unfold binding
  split
  rfl

theorem binding_position (handoff : EncodingHandoff) (r : SelectionRoot) (i : Nat)
    (o : ResolvedSelectionObject) : (binding handoff r i o).position = i := by
  unfold binding
  split
  rfl

/-- The record of an accepted plan is written without loss. -/
theorem finishRecord_fits {handoff : EncodingHandoff} {c : EncodingContext}
    {plan : ResolvedSelectionPlan} (hc : EncodingContext.codec.Fits c)
    (hp : Retained digests sizes plan) :
    ProvenanceRecord.codec.Fits (finishRecord digests handoff c plan) := by
  refine fits_provenanceRecord.mpr (payload_fits.mpr ⟨(by decide : 1 < 2 ^ 32), hc, ?_,
    fun b hb => ?_⟩)
  · exact fits_plan.mpr fun o ho => (hp.objects o ho).zeros
  · obtain ⟨i, o, hi, rfl⟩ := draft_positions (c := c) hb
    have hlt := (List.getElem?_eq_some_iff.mp hi).1
    have hcount := hp.count
    rw [binding_position]
    simp only [maxSelectors] at hcount
    omega

theorem finishRecord_slim (handoff : EncodingHandoff) (c : EncodingContext)
    {plan : ResolvedSelectionPlan} (hp : Retained digests sizes plan) :
    SlimRecord maxArrayEntries (finishRecord digests handoff c plan).plan
      (finishRecord digests handoff c plan).bindings := by
  have hcount : plan.objects.length ≤ 256 := hp.count
  refine ⟨hcount, fun o ho => slim_of_retained hp ho, ?_, fun b hb => ?_⟩
  · show (List.map _ plan.objects.zipIdx).length ≤ 256
    rw [List.length_map, List.length_zipIdx]
    exact hcount
  · obtain ⟨i, o, hi, rfl⟩ := draft_positions (c := c) hb
    rw [binding_selector]
    exact (slim_of_retained hp (List.mem_of_getElem? hi)).path

/-- The record of an accepted plan passes the reader, as it is stored and as it is hashed. -/
theorem finishRecord_canonical {handoff : EncodingHandoff} {c : EncodingContext}
    {plan : ResolvedSelectionPlan} (ht : digests.text.Faithful)
    (hc : EncodingContext.codec.Fits c) (hp : Retained digests sizes plan)
    (hfit : FitsBound digests (finishRecord digests handoff c plan)) :
    boundedCanonical digests (ProvenanceRecord.codec.enc (finishRecord digests handoff c plan)) =
        .ok (canonicalJson digests
          (ProvenanceRecord.codec.enc (finishRecord digests handoff c plan))) ∧
      (finishRecord digests handoff c plan).identity digests =
        .ok (finishRecord digests handoff c plan).provenanceIdentity := by
  have hf : ProvenanceRecord.codec.Fits (finishRecord digests handoff c plan) :=
    finishRecord_fits hc hp
  have hslim := finishRecord_slim handoff c hp
  have hcanonical := ProvenanceRecord.codec.canonical _ hf
  have hpayload : (hashedPayload (finishRecord digests handoff c plan)).Canonical :=
    canonical_preimage (ProvenancePayload.codec.canonical _ (fits_provenanceRecord.mp hf))
  refine ⟨boundedCanonical_of_parsed digests hfit.stored
    (parseJson_ok.mpr ⟨hfit.stored, ht _ hcanonical, record_bounded hslim⟩), ?_⟩
  have hhashed := boundedCanonical_of_parsed digests hfit.hashed
    (parseJson_ok.mpr ⟨hfit.hashed, ht _ hpayload, payload_bounded hslim⟩)
  exact bind_ok.mpr ⟨_, hhashed, rfl⟩

/-- The bindings of a draft are those its check expects. -/
theorem draft_bindings (handoff : EncodingHandoff) (c : EncodingContext)
    (plan : ResolvedSelectionPlan) :
    each (fun position (p : ProvenanceBinding × ResolvedSelectionObject) =>
      ensure (p.1 = binding handoff plan.root position p.2)
        ((invariant "provenance_binding_mismatch").position position)) 0
      ((draftRecord handoff c plan).bindings.zip plan.objects) = .ok () := by
  refine each_ok.mpr fun i p hp => ensure_ok.mpr ?_
  obtain ⟨hb, ho⟩ := List.getElem?_zip_eq_some.mp hp
  have hb : (plan.objects.zipIdx.map fun (object, position) =>
      binding handoff plan.root position object)[i]? = some p.1 := hb
  rw [List.getElem?_map, List.getElem?_zipIdx, ho] at hb
  simpa using hb.symm

/-- The record of an accepted plan with a stored encoding passes its check. -/
theorem finishRecord_valid {handoff : EncodingHandoff} {c : EncodingContext}
    {plan : ResolvedSelectionPlan} (ht : digests.text.Faithful) (hx : Hexadecimal digests)
    (hc : context canonicalOrigin origin (source plan) = .ok c)
    (hp : Retained digests sizes plan)
    (hh : validateHandoff digests hashes canonicalOrigin origin db (source plan) handoff = .ok ())
    (hfit : FitsBound digests (finishRecord digests handoff c plan)) :
    validateRecord digests sizes hashes canonicalOrigin origin db
      (finishRecord digests handoff c plan) = .ok () := by
  obtain ⟨-, hidentity⟩ := finishRecord_canonical ht (context_fits hc) hp hfit
  have hlength : (finishRecord digests handoff c plan).bindings.length = plan.objects.length := by
    show (List.map _ plan.objects.zipIdx).length = plan.objects.length
    rw [List.length_map, List.length_zipIdx]
  refine seq_ok.mpr ⟨(retainedPlan_ok digests sizes).mpr hp, seq_ok.mpr ⟨?_, ?_⟩⟩
  · exact ensure_ok.mpr ⟨rfl, rfl, hx _⟩
  refine bind_ok.mpr ⟨_, hidentity, seq_ok.mpr ⟨ensure_ok.mpr ⟨rfl, hlength⟩, ?_⟩⟩
  refine bind_ok.mpr ⟨c, hc, seq_ok.mpr ⟨ensure_ok.mpr rfl, seq_ok.mpr ⟨?_, ?_⟩⟩⟩
  · exact mapError_ok.mpr hh
  · exact draft_bindings handoff c plan

/-- The plan of a request is for it. -/
theorem plan_forInvocation {request : SelectionRequest} {mid : String} {root : SelectionRoot}
    {candidates : List Candidate} {authored : List AuthoringObject} {plan : ResolvedSelectionPlan}
    (hb : Built digests sizes root candidates authored plan)
    (hp : Projects request mid root candidates) :
    source plan = requestSource request mid ∧ forInvocation request plan = true := by
  obtain ⟨configuration, hroot⟩ := hp.root
  have hplan : plan.root = Selection.root request mid configuration := hb.root.trans hroot
  have hselectors : plan.objects.map ResolvedSelectionObject.selector =
      candidates.map Candidate.selector := by
    have := congrArg (List.map fun p : AuthoringSelector × ConfiguredLeaf => p.1) hb.leaves
    simpa only [List.map_map, Function.comp_def] using this
  have hall := hp.selectors
  rw [← hselectors, List.forall₂_map_left_iff] at hall
  refine ⟨?_, ?_⟩
  · simp [source, hplan, requestSource, Selection.root]
  · have hzip : ∀ p ∈ plan.objects.zip request.selectors,
        selects p.1.selector p.2 = true := fun p hm => List.forall₂_zip hall hm
    simp only [forInvocation, hplan, Selection.root, hall.length_eq, decide_true, Bool.true_and,
      List.all_eq_true]
    exact hzip

/-- A run whose plan succeeds has its record, when the record fits. -/
theorem planInvocation_of {onshape : Onshape} {request : SelectionRequest}
    {plan : ResolvedSelectionPlan} (ht : digests.text.Faithful) (hx : Hexadecimal digests)
    (hplan : planSelection digests sizes hashes canonicalOrigin origin db onshape request =
      .ok plan) (hcollision : CollisionFreeOn digests plan.objects)
    (hfit : ∀ c, context canonicalOrigin origin (source plan) = .ok c →
      FitsBound digests (finishRecord digests request.configurationEncoding c plan)) :
    ∃ c, context canonicalOrigin origin (source plan) = .ok c ∧
      planInvocation digests sizes hashes canonicalOrigin origin db onshape request =
        .ok (finishRecord digests request.configurationEncoding c plan) := by
  obtain ⟨mid, root, candidates, hpre, hmid, hhandoff, hresolves, hprojects, hconstruct⟩ :=
    planSelection_ok hplan
  obtain ⟨-, -, -, -, hlo, hhi, -, -⟩ := preflight_ok hpre
  have hlength := hresolves.length
  have hretained := (retainedPlan_ok digests sizes).mp (constructPlan_retained ht hx
    hresolves.bounded (by omega) (by omega) hresolves.sound hconstruct hcollision)
  obtain ⟨authored, hbuilt⟩ := constructPlan_built hconstruct
  obtain ⟨hsource, hfor⟩ := plan_forInvocation hbuilt hprojects
  rw [← hsource] at hhandoff
  obtain ⟨record, c, hrow, hc, hparse, hdec⟩ := validateHandoff_ok hhandoff
  obtain ⟨hcanonical, hidentity⟩ := finishRecord_canonical ht (context_fits hc) hretained (hfit c hc)
  have hvalid := finishRecord_valid ht hx hc hretained hhandoff (hfit c hc)
  refine ⟨c, hc, seq_ok.mpr ⟨hpre, ?_⟩⟩
  simp only [hrow]
  refine bind_ok.mpr ⟨_, hparse, ?_⟩
  simp only [hdec]
  refine seq_ok.mpr ⟨ensure_ok.mpr trivial, bind_ok.mpr ⟨plan, hplan, ?_⟩⟩
  refine seq_ok.mpr ⟨ensure_ok.mpr hfor, bind_ok.mpr ⟨_, hidentity, ?_⟩⟩
  exact seq_ok.mpr ⟨hvalid, bind_ok.mpr ⟨_, hcanonical, rfl⟩⟩

/-! ## What a record is -/

/-- What a run has made sure of before it writes its record. -/
structure Made (digests : Digests) (sizes : Sizes) (hashes : ExportHashes)
    (canonicalOrigin : String → Except ApiFailure String) (origin : String) (db : Database)
    (handoff : EncodingHandoff) (record : ProvenanceRecord) : Prop where
  finished : record = finishRecord digests handoff record.encodingContext record.plan
  context_eq : context canonicalOrigin origin (source record.plan) = .ok record.encodingContext
  retained : Retained digests sizes record.plan
  valid : validateRecord digests sizes hashes canonicalOrigin origin db record = .ok ()
  canonical : boundedCanonical digests (ProvenanceRecord.codec.enc record) =
    .ok (canonicalJson digests (ProvenanceRecord.codec.enc record))
  size : (canonicalJson digests (ProvenanceRecord.codec.enc record)).utf8ByteSize ≤ recordLimit
  structured : Bounded (ProvenanceRecord.codec.enc record)

/-- What the check of a record says of its plan and its context. -/
theorem validateRecord_ok {record : ProvenanceRecord}
    (h : validateRecord digests sizes hashes canonicalOrigin origin db record = .ok ()) :
    Retained digests sizes record.plan ∧
      context canonicalOrigin origin (source record.plan) = .ok record.encodingContext := by
  obtain ⟨hplan, h⟩ := seq_ok.mp h
  obtain ⟨-, h⟩ := seq_ok.mp h
  obtain ⟨identity, -, h⟩ := bind_ok.mp h
  obtain ⟨-, h⟩ := seq_ok.mp h
  obtain ⟨expected, hc, h⟩ := bind_ok.mp h
  obtain ⟨hsame, -⟩ := seq_ok.mp h
  rw [ensure_ok.mp hsame]
  exact ⟨(retainedPlan_ok digests sizes).mp hplan, hc⟩

/-- A canonical document that passes the reader is within its bounds. -/
theorem boundedCanonical_bounds {v : Value} {json : String} (ht : digests.text.Faithful)
    (hv : v.Canonical) (h : boundedCanonical digests v = .ok json) :
    json = canonicalJson digests v ∧ (canonicalJson digests v).utf8ByteSize ≤ recordLimit ∧
      Bounded v := by
  have hjson := boundedCanonical_ok digests h
  simp only [boundedCanonical] at h
  split at h
  · cases h
  · split at h
    · rename_i w hw
      obtain ⟨hsize, hread, hbounded⟩ := parseJson_ok.mp hw
      have hv := ht v hv
      rw [canonicalJson, hv, Option.some.injEq] at hread
      exact ⟨hjson, hsize, hread ▸ hbounded⟩
    · cases h

theorem planInvocation_ok {onshape : Onshape} {request : SelectionRequest}
    {record : ProvenanceRecord} (ht : digests.text.Faithful)
    (h : planInvocation digests sizes hashes canonicalOrigin origin db onshape request =
      .ok record) :
    Made digests sizes hashes canonicalOrigin origin db request.configurationEncoding record ∧
      planSelection digests sizes hashes canonicalOrigin origin db onshape request =
        .ok record.plan := by
  obtain ⟨-, h⟩ := seq_ok.mp h
  dsimp only at h
  split at h
  · cases h
  · obtain ⟨contextValue, -, h⟩ := bind_ok.mp h
    split at h
    · cases h
    · rename_i originalContext hdec
      obtain ⟨-, h⟩ := seq_ok.mp h
      obtain ⟨plan, hplan, h⟩ := bind_ok.mp h
      obtain ⟨-, h⟩ := seq_ok.mp h
      obtain ⟨identity, hidentity, h⟩ := bind_ok.mp h
      obtain ⟨hvalid, h⟩ := seq_ok.mp h
      obtain ⟨json, hcanonical, h⟩ := bind_ok.mp h
      obtain ⟨hretained, hc⟩ := validateRecord_ok hvalid
      have hfinished : { draftRecord request.configurationEncoding originalContext plan with
          provenanceIdentity := identity } =
            finishRecord digests request.configurationEncoding originalContext plan := by
        rw [identity_ok digests hidentity]
        rfl
      rw [hfinished] at h hvalid hcanonical
      have hf : ProvenanceRecord.codec.Fits
          (finishRecord digests request.configurationEncoding originalContext plan) :=
        finishRecord_fits (context_fits hc) hretained
      obtain ⟨hjson, hsize, hbounded⟩ :=
        boundedCanonical_bounds ht (ProvenanceRecord.codec.canonical _ hf) hcanonical
      cases h
      exact ⟨⟨rfl, hc, hretained, hvalid, hjson ▸ hcanonical, hsize, hbounded⟩, hplan⟩

theorem Made.fits {handoff : EncodingHandoff} {record : ProvenanceRecord}
    (h : Made digests sizes hashes canonicalOrigin origin db handoff record) :
    ProvenanceRecord.codec.Fits record := by
  rw [h.finished]
  exact finishRecord_fits (context_fits h.context_eq) h.retained

theorem Made.handoff {handoff : EncodingHandoff} {record : ProvenanceRecord}
    (h : Made digests sizes hashes canonicalOrigin origin db handoff record) :
    record.configurationEncoding = handoff := by
  rw [h.finished]
  rfl

variable (digests) in
/-- The handoff of a stored record. -/
def rowHandoff (row : AcquisitionRow) : Option EncodingHandoff :=
  ((digests.text.read row.recordJson).bind ProvenanceRecord.codec.dec).map
    ProvenanceRecord.configurationEncoding

theorem Made.rowHandoff {handoff : EncodingHandoff} {record : ProvenanceRecord}
    (ht : digests.text.Faithful)
    (h : Made digests sizes hashes canonicalOrigin origin db handoff record) :
    rowHandoff digests (rowOf digests record) = some handoff := by
  have hread : digests.text.read (rowOf digests record).recordJson =
      some (ProvenanceRecord.codec.enc record) :=
    ht _ (ProvenanceRecord.codec.canonical _ h.fits)
  rw [Geometry.rowHandoff, hread, Option.bind_some, ProvenanceRecord.codec.dec_enc _ h.fits,
    Option.map_some, h.handoff]

/-- A stored record is read back as it was made. -/
theorem Made.read {handoff : EncodingHandoff} {record : ProvenanceRecord}
    (ht : digests.text.Faithful)
    (h : Made digests sizes hashes canonicalOrigin origin db handoff record)
    {table : Table AcquisitionRow}
    (hrow : table.find? record.plan.planIdentity = some (rowOf digests record)) :
    readAssociation digests sizes hashes canonicalOrigin origin db table record.plan.planIdentity
      record.provenanceIdentity = .ok ⟨record⟩ := by
  have hread : parseJson digests.text (rowOf digests record).recordJson recordLimit =
      .ok (ProvenanceRecord.codec.enc record) :=
    parseJson_ok.mpr ⟨h.size, ht _ (ProvenanceRecord.codec.canonical _ h.fits), h.structured⟩
  rw [readAssociation, hrow]
  refine bind_ok.mpr ⟨_, mapError_ok.mpr hread, ?_⟩
  simp only [ProvenanceRecord.codec.dec_enc _ h.fits]
  refine seq_ok.mpr ⟨ensure_ok.mpr ⟨trivial, trivial, rfl⟩, bind_ok.mpr ⟨_, h.canonical, ?_⟩⟩
  exact seq_ok.mpr ⟨ensure_ok.mpr rfl, seq_ok.mpr ⟨h.valid, rfl⟩⟩

/-- Two records for one handoff and one plan are the same. -/
theorem Made.unique {handoff : EncodingHandoff} {record record' : ProvenanceRecord}
    (h : Made digests sizes hashes canonicalOrigin origin db handoff record)
    (h' : Made digests sizes hashes canonicalOrigin origin db handoff record')
    (he : record.plan = record'.plan) : record = record' := by
  have hc := h.context_eq
  rw [he, h'.context_eq] at hc
  rw [h.finished, h'.finished, he, Except.ok.inj hc]

/-! ## Every run in every order -/

/-- The first row of a plan stays, and the statement succeeds when it is the row of the run. -/
theorem recordAcquisitionProvenance_cases (table : Table AcquisitionRow) (row : AcquisitionRow) :
    (∃ table', recordAcquisitionProvenance table row = some table' ∧
      table'.find? row.planIdentity = some row ∧
      (∀ key other, table.find? key = some other → table'.find? key = some other) ∧
      ∀ other ∈ table'.rows, other ∈ table.rows ∨ other = row) ∨
    (recordAcquisitionProvenance table row = none ∧
      ∃ other, table.find? row.planIdentity = some other ∧ other ≠ row) := by
  have hfind : (table.insertOrIgnore row).2.find? row.planIdentity =
      some ((table.find? row.planIdentity).getD row) := by
    have := (Table.insertOrIgnore_keyed (fun a b h => h) table row).2 row.planIdentity
    rwa [if_pos (show Schema.key row = row.planIdentity from rfl)] at this
  unfold recordAcquisitionProvenance
  dsimp only
  split
  · rename_i hrow
    exact .inl ⟨_, rfl, hrow, fun key other h => Table.find?_insertOrIgnore h,
      fun other ho => Table.mem_insertOrIgnore ho⟩
  · rename_i hrow
    refine .inr ⟨rfl, ?_⟩
    rw [hfind, Option.some.injEq] at hrow
    cases ho : table.find? row.planIdentity with
    | none => exact absurd (by rw [ho]; rfl) hrow
    | some other =>
      rw [ho] at hrow
      exact ⟨other, rfl, hrow⟩

variable (digests sizes hashes canonicalOrigin origin db) in
/-- Where a run is, its record was made for its request; one that has written it finds its row
stored; one that has failed was refused before, or found another row. -/
def PhaseInv (table : Table AcquisitionRow) (r : Run) : Prop :=
  let made := planInvocation digests sizes hashes canonicalOrigin origin db r.onshape r.request
  match r.phase with
  | .planning => True
  | .planned record => made = .ok record
  | .recorded record =>
    made = .ok record ∧ table.find? record.plan.planIdentity = some (rowOf digests record)
  | .done result =>
    (∃ e, made = .error e ∧ result = .error e) ∨
    ∃ record row, made = .ok record ∧ table.find? record.plan.planIdentity = some row ∧
      (row = rowOf digests record ∧ result = .ok ⟨record⟩ ∨
        row ≠ rowOf digests record ∧
          result = .error (invariant "provenance_recording_failed"))

variable (digests sizes hashes canonicalOrigin origin db) in
structure WorldInv (w : World) : Prop where
  rows : ∀ row ∈ w.table.rows, ∃ r ∈ w.runs, ∃ record,
    planInvocation digests sizes hashes canonicalOrigin origin db r.onshape r.request =
      .ok record ∧ row = rowOf digests record
  phases : ∀ r ∈ w.runs, PhaseInv digests sizes hashes canonicalOrigin origin db w.table r

/-- Rows stay as they are. -/
def Grows (table table' : Table AcquisitionRow) : Prop :=
  ∀ key row, table.find? key = some row → table'.find? key = some row

theorem PhaseInv.mono {table table' : Table AcquisitionRow} {r : Run} (hg : Grows table table')
    (h : PhaseInv digests sizes hashes canonicalOrigin origin db table r) :
    PhaseInv digests sizes hashes canonicalOrigin origin db table' r := by
  unfold PhaseInv at h ⊢
  dsimp only at h ⊢
  split at h
  · trivial
  · exact h
  · exact ⟨h.1, hg _ _ h.2⟩
  · obtain h | ⟨record, row, hmade, hrow, h⟩ := h
    · exact .inl h
    · exact .inr ⟨record, row, hmade, hg _ _ hrow, h⟩

variable (digests sizes hashes canonicalOrigin origin db) in
/-- A step of a run keeps its invariant and every row, and writes its own row at most. -/
structure Advances (table : Table AcquisitionRow) (r : Run) (next : Run × Table AcquisitionRow) :
    Prop where
  request : next.1.request = r.request
  onshape : next.1.onshape = r.onshape
  grows : Grows table next.2
  phase : PhaseInv digests sizes hashes canonicalOrigin origin db next.2 next.1
  rows : ∀ row ∈ next.2.rows, row ∈ table.rows ∨ ∃ record,
    planInvocation digests sizes hashes canonicalOrigin origin db r.onshape r.request =
      .ok record ∧ row = rowOf digests record

theorem advance_inv (ht : digests.text.Faithful) {table : Table AcquisitionRow} {r : Run}
    (h : PhaseInv digests sizes hashes canonicalOrigin origin db table r) :
    Advances digests sizes hashes canonicalOrigin origin db table r
      (r.advance digests sizes hashes canonicalOrigin origin db table) := by
  have hrefl : Grows table table := fun _ _ h => h
  obtain ⟨request, onshape, phase⟩ := r
  cases phase with
  | planning =>
    cases hmade : planInvocation digests sizes hashes canonicalOrigin origin db onshape request with
    | ok record =>
      simp only [Run.advance, hmade]
      exact ⟨rfl, rfl, hrefl, hmade, fun row hr => .inl hr⟩
    | error e =>
      simp only [Run.advance, hmade]
      exact ⟨rfl, rfl, hrefl, .inl ⟨e, hmade, rfl⟩, fun row hr => .inl hr⟩
  | planned record =>
    have hmade : planInvocation digests sizes hashes canonicalOrigin origin db onshape request =
      .ok record := h
    obtain ⟨table', hrecord, hfind, hgrows, hrows⟩ | ⟨hrecord, other, hother, hne⟩ :=
      recordAcquisitionProvenance_cases table (rowOf digests record)
    · simp only [Run.advance, hrecord]
      refine ⟨rfl, rfl, hgrows, ⟨hmade, hfind⟩, fun row hr => ?_⟩
      exact (hrows row hr).imp_right fun he => ⟨record, hmade, he⟩
    · simp only [Run.advance, hrecord]
      exact ⟨rfl, rfl, hrefl, .inr ⟨record, other, hmade, hother, .inr ⟨hne, rfl⟩⟩,
        fun row hr => .inl hr⟩
  | recorded record =>
    obtain ⟨hmade, hrow⟩ : planInvocation digests sizes hashes canonicalOrigin origin db onshape
      request = .ok record ∧ table.find? record.plan.planIdentity = some (rowOf digests record) := h
    have hread := (planInvocation_ok ht hmade).1.read ht hrow
    simp only [Run.advance, hread]
    exact ⟨rfl, rfl, hrefl, .inr ⟨record, _, hmade, hrow, .inl ⟨rfl, rfl⟩⟩, fun row hr => .inl hr⟩
  | done result => exact ⟨rfl, rfl, hrefl, h, fun row hr => .inl hr⟩

theorem step_inv (ht : digests.text.Faithful) (w : World) (op : Op)
    (h : WorldInv digests sizes hashes canonicalOrigin origin db w) :
    Grows w.table (step digests sizes hashes canonicalOrigin origin db w op).table ∧
      WorldInv digests sizes hashes canonicalOrigin origin db
        (step digests sizes hashes canonicalOrigin origin db w op) := by
  cases op with
  | start request onshape =>
    refine ⟨fun _ _ h => h, fun row hr => ?_, fun r hr => ?_⟩
    · obtain ⟨r, hmem, hmade⟩ := h.rows row hr
      exact ⟨r, List.mem_append_left _ hmem, hmade⟩
    · obtain hr | hr := List.mem_append.mp hr
      · exact h.phases r hr
      · rw [List.mem_singleton.mp hr]
        trivial
  | step i =>
    unfold step
    dsimp only
    split
    · exact ⟨fun _ _ h => h, h⟩
    · rename_i r hi
      have hmem := List.mem_of_getElem? hi
      have hadvance := advance_inv ht (h.phases r hmem)
      obtain ⟨hrequest, honshape, hgrows, hphase, hrows⟩ := hadvance
      refine ⟨hgrows, fun row hr => ?_, fun r' hr' => ?_⟩
      · -- a run keeps its request, so that the rows of a run stay the rows of one
        have hlt := (List.getElem?_eq_some_iff.mp hi).1
        have hset := List.mem_set hlt (a :=
          (r.advance digests sizes hashes canonicalOrigin origin db w.table).1)
        obtain hold | ⟨record, hmade, he⟩ := hrows row hr
        · obtain ⟨r', hmem', record, hmade, he⟩ := h.rows row hold
          obtain ⟨j, hj⟩ := List.getElem?_of_mem hmem'
          by_cases hij : i = j
          · subst hij
            rw [hi] at hj
            obtain rfl := Option.some.inj hj
            exact ⟨_, hset, record, by rw [hrequest, honshape]; exact hmade, he⟩
          · refine ⟨r', List.mem_of_getElem? (i := j) ?_, record, hmade, he⟩
            rw [List.getElem?_set_ne hij]
            exact hj
        · exact ⟨_, hset, record, by rw [hrequest, honshape]; exact hmade, he⟩
      · obtain hr' | rfl := List.mem_or_eq_of_mem_set hr'
        · exact (h.phases r' hr').mono hgrows
        · exact hphase

/-- How many steps a run has taken. -/
def Phase.rank : Phase → Nat
  | .planning => 0
  | .planned _ => 1
  | .recorded _ => 2
  | .done _ => 3

theorem advance_rank (table : Table AcquisitionRow) (r : Run) :
    min 3 (r.phase.rank + 1) ≤
      (r.advance digests sizes hashes canonicalOrigin origin db table).1.phase.rank := by
  unfold Run.advance
  split <;> rename_i hphase
  · split <;> simp [Phase.rank, hphase]
  · split <;> simp [Phase.rank, hphase]
  · simp [Phase.rank, hphase]
  · simp [Phase.rank, hphase]

theorem step_rank {w : World} {i : Nat} {r : Run} (hi : w.runs[i]? = some r) :
    ∃ r', (step digests sizes hashes canonicalOrigin origin db w (.step i)).runs[i]? = some r' ∧
      min 3 (r.phase.rank + 1) ≤ r'.phase.rank := by
  have hlt := (List.getElem?_eq_some_iff.mp hi).1
  refine ⟨(r.advance digests sizes hashes canonicalOrigin origin db w.table).1, ?_,
    advance_rank w.table r⟩
  simp only [step, hi]
  exact List.getElem?_set_self hlt

theorem done_of_rank {phase : Phase} (h : 3 ≤ phase.rank) : ∃ result, phase = .done result := by
  cases phase with
  | done result => exact ⟨result, rfl⟩
  | planning => simp [Phase.rank] at h
  | planned record => simp [Phase.rank] at h
  | recorded record => simp [Phase.rank] at h

variable (digests sizes hashes canonicalOrigin origin db) in
/-- The texts that are hashed for the plans of the runs. -/
def HashedText (w : World) (text : String) : Prop :=
  ∃ r ∈ w.runs, ∃ plan,
    planSelection digests sizes hashes canonicalOrigin origin db r.onshape r.request = .ok plan ∧
      (text = planText digests plan.payload ∨ ∃ o ∈ plan.objects, text = objectText digests o)

variable (digests sizes hashes canonicalOrigin origin db) in
/-- No two of these texts have one hash. -/
def NoCollision (w : World) : Prop :=
  ∀ s t, HashedText digests sizes hashes canonicalOrigin origin db w s →
    HashedText digests sizes hashes canonicalOrigin origin db w t →
      digests.sha256 s = digests.sha256 t → s = t

/-- A row for the handoff of a run is the row of its record. -/
theorem row_of_handoff (ht : digests.text.Faithful) {w : World}
    (hn : NoCollision digests sizes hashes canonicalOrigin origin db w)
    (hinv : WorldInv digests sizes hashes canonicalOrigin origin db w) {r : Run} (hr : r ∈ w.runs)
    {record : ProvenanceRecord}
    (hmade : planInvocation digests sizes hashes canonicalOrigin origin db r.onshape r.request =
      .ok record) {row : AcquisitionRow}
    (hrow : w.table.find? record.plan.planIdentity = some row)
    (hhandoff : rowHandoff digests row = some r.request.configurationEncoding) :
    row = rowOf digests record := by
  obtain ⟨r', hr', record', hmade', rfl⟩ := hinv.rows row (Table.find?_mem hrow)
  obtain ⟨hm, hplan⟩ := planInvocation_ok ht hmade
  obtain ⟨hm', hplan'⟩ := planInvocation_ok ht hmade'
  have hidentity : record'.plan.planIdentity = record.plan.planIdentity := Table.find?_key hrow
  have hsame : r'.request.configurationEncoding = r.request.configurationEncoding := by
    rw [hm'.rowHandoff ht] at hhandoff
    exact Option.some.inj hhandoff
  have hplans : record'.plan = record.plan := by
    refine plan_eq_of_text ht hm'.retained hm.retained (hn _ _ ?_ ?_) hidentity
    · exact ⟨r', hr', _, hplan', .inl rfl⟩
    · exact ⟨r, hr, _, hplan, .inl rfl⟩
  rw [hsame] at hm'
  rw [hm'.unique hm hplans]

variable (digests sizes hashes canonicalOrigin origin db) in
/-- Recording plans, by any number of runs on one database in any order of their steps. A run whose
plan succeeds and whose record fits finds the row of its plan stored at its end: made for its
handoff, it returns its plan and its handoff, made for another it fails, and it returns nothing
else. A row that is stored stays, and a run is at its end after three steps. -/
theorem plan_recorded (ht : digests.text.Faithful) (hx : Hexadecimal digests) (ops : List Op)
    (hn : NoCollision digests sizes hashes canonicalOrigin origin db
      (Trace.run (step digests sizes hashes canonicalOrigin origin db) ⟨.empty, []⟩ ops)) :
    let w := Trace.run (step digests sizes hashes canonicalOrigin origin db) ⟨.empty, []⟩ ops
    (∀ r ∈ w.runs, ∀ plan,
      planSelection digests sizes hashes canonicalOrigin origin db r.onshape r.request = .ok plan →
      (∀ c, context canonicalOrigin origin (source plan) = .ok c →
        FitsBound digests (finishRecord digests r.request.configurationEncoding c plan)) →
      ∀ result, r.phase = .done result →
        ∃ row, w.table.find? plan.planIdentity = some row ∧
          (rowHandoff digests row = some r.request.configurationEncoding →
            ∃ record, result = .ok ⟨record⟩ ∧ record.plan = plan ∧
              record.configurationEncoding = r.request.configurationEncoding) ∧
          (rowHandoff digests row ≠ some r.request.configurationEncoding →
            result = .error (invariant "provenance_recording_failed"))) ∧
    (∀ later key row, w.table.find? key = some row →
      (Trace.run (step digests sizes hashes canonicalOrigin origin db) w later).table.find? key =
        some row) ∧
    ∀ i, i < w.runs.length → ∃ r result,
      (Trace.run (step digests sizes hashes canonicalOrigin origin db) w
        [.step i, .step i, .step i]).runs[i]? = some r ∧ r.phase = .done result := by
  intro w
  have hinv : WorldInv digests sizes hashes canonicalOrigin origin db w :=
    Trace.run_inv ⟨nofun, nofun⟩ (fun w op h => (step_inv ht w op h).2) ops
  refine ⟨fun r hr plan hplan hfit result hdone => ?_, fun later key row hrow => ?_,
    fun i hi => ?_⟩
  · have hcollision : CollisionFreeOn digests plan.objects := fun o ho o' ho' =>
      hn _ _ ⟨r, hr, plan, hplan, .inr ⟨o, ho, rfl⟩⟩ ⟨r, hr, plan, hplan, .inr ⟨o', ho', rfl⟩⟩
    obtain ⟨c, hc, hmade⟩ := planInvocation_of ht hx hplan hcollision hfit
    have hphase := hinv.phases r hr
    unfold PhaseInv at hphase
    rw [hdone, hmade] at hphase
    obtain ⟨e, he, -⟩ | ⟨record, row, he, hrow, h⟩ := hphase
    · cases he
    · cases he
      refine ⟨row, hrow, fun hhandoff => ?_, fun hother => ?_⟩
      · have hsame := row_of_handoff ht hn hinv hr hmade hrow hhandoff
        obtain ⟨-, hresult⟩ | ⟨hne, -⟩ := h
        · exact ⟨_, hresult, rfl, rfl⟩
        · exact absurd hsame hne
      · obtain ⟨rfl, -⟩ | ⟨-, hresult⟩ := h
        · exact absurd ((planInvocation_ok ht hmade).1.rowHandoff ht) hother
        · exact hresult
  · have hboth : Grows w.table
          (Trace.run (step digests sizes hashes canonicalOrigin origin db) w later).table ∧
        WorldInv digests sizes hashes canonicalOrigin origin db
          (Trace.run (step digests sizes hashes canonicalOrigin origin db) w later) := by
      refine Trace.run_inv (I := fun w' => Grows w.table w'.table ∧
        WorldInv digests sizes hashes canonicalOrigin origin db w') ⟨fun _ _ h => h, hinv⟩ ?_ later
      intro w' op h
      obtain ⟨hg, hw⟩ := step_inv ht w' op h.2
      exact ⟨fun key row hr => hg key row (h.1 key row hr), hw⟩
    exact hboth.1 key row hrow
  · obtain ⟨r₁, h₁, hrank₁⟩ := step_rank (List.getElem?_eq_getElem hi)
    obtain ⟨r₂, h₂, hrank₂⟩ := step_rank h₁
    obtain ⟨r₃, h₃, hrank₃⟩ := step_rank h₂
    obtain ⟨result, hresult⟩ := done_of_rank (show 3 ≤ r₃.phase.rank by omega)
    exact ⟨r₃, result, h₃, hresult⟩

/-! ## Two runs for one plan -/

variable (digests sizes hashes canonicalOrigin origin db) in
/-- A run by itself. -/
def alone (request : SelectionRequest) (onshape : Onshape) : World :=
  Trace.run (step digests sizes hashes canonicalOrigin origin db) ⟨.empty, []⟩
    [.start request onshape, .step 0, .step 0, .step 0]

theorem alone_recorded (ht : digests.text.Faithful) {request : SelectionRequest}
    {onshape : Onshape} {record : ProvenanceRecord}
    (hmade : planInvocation digests sizes hashes canonicalOrigin origin db onshape request =
      .ok record) :
    (alone digests sizes hashes canonicalOrigin origin db request onshape).runs =
      [⟨request, onshape, .done (.ok ⟨record⟩)⟩] := by
  obtain ⟨table, hrecord, hfind, -, -⟩ | ⟨-, other, hother, -⟩ :=
    recordAcquisitionProvenance_cases .empty (rowOf digests record)
  · have hread := (planInvocation_ok ht hmade).1.read ht hfind
    simp [alone, Trace.run, step, Run.advance, hmade, hrecord, hread]
  · cases hother

variable (digests sizes hashes canonicalOrigin origin db) in
/-- A run that comes after another has written its record. -/
def second (request request' : SelectionRequest) (onshape onshape' : Onshape) : World :=
  Trace.run (step digests sizes hashes canonicalOrigin origin db) ⟨.empty, []⟩
    [.start request onshape, .start request' onshape', .step 0, .step 0, .step 1, .step 1]

/-- Of two handoffs for one plan, the second is refused. -/
theorem second_refused (ht : digests.text.Faithful) {request request' : SelectionRequest}
    {onshape onshape' : Onshape} {record record' : ProvenanceRecord}
    (hmade : planInvocation digests sizes hashes canonicalOrigin origin db onshape request =
      .ok record)
    (hmade' : planInvocation digests sizes hashes canonicalOrigin origin db onshape' request' =
      .ok record')
    (hplan : record'.plan = record.plan)
    (hne : request.configurationEncoding ≠ request'.configurationEncoding) :
    (second digests sizes hashes canonicalOrigin origin db request request' onshape
        onshape').runs =
      [⟨request, onshape, .recorded record⟩,
        ⟨request', onshape', .done (.error (invariant "provenance_recording_failed"))⟩] := by
  have hrows : rowOf digests record ≠ rowOf digests record' := by
    intro h
    have hhandoff := congrArg (rowHandoff digests) h
    rw [(planInvocation_ok ht hmade).1.rowHandoff ht, (planInvocation_ok ht hmade').1.rowHandoff ht,
      Option.some.injEq] at hhandoff
    exact hne hhandoff
  obtain ⟨table, hrecord, hfind, -, -⟩ | ⟨-, other, hother, -⟩ :=
    recordAcquisitionProvenance_cases .empty (rowOf digests record)
  · have hfind : table.find? (rowOf digests record').planIdentity = some (rowOf digests record) := by
      rw [rowOf, hplan]
      exact hfind
    obtain ⟨table', -, hown, hgrows, -⟩ | ⟨hrefused, -⟩ :=
      recordAcquisitionProvenance_cases table (rowOf digests record')
    · rw [hgrows _ _ hfind] at hown
      exact absurd (Option.some.inj hown) hrows
    · simp [second, Trace.run, step, Run.advance, hmade, hmade', hrecord, hrefused]
  · cases hother

end Recording

/-! ## Two encodings of one plan -/

def recordingId (c : Char) : String := String.ofList (List.replicate 64 c)

def standInPreimage (x : String × Value × Char) : Value :=
  .ofFields [("domain", .string x.1), ("payload", x.2.1)]

/-- A stand-in for SHA-256: the samples have hashes of their own, and all other texts have one. -/
@[irreducible] def standInHash (samples : List (String × Value × Char)) (text : String) : String :=
  match samples.find? fun x => canonicalText.print (standInPreimage x) = text with
  | some x => recordingId x.2.2
  | none => recordingId '0'

theorem standIn_hash {samples : List (String × Value × Char)}
    (hcanonical : ∀ x ∈ samples, x.2.1.Canonical)
    (hd : samples.Pairwise fun x y => x.1 = y.1 → x.2.1 = y.2.1 → False)
    {x : String × Value × Char} (hx : x ∈ samples) :
    hashJson ⟨canonicalText, standInHash samples⟩ x.1 x.2.1 = recordingId x.2.2 := by
  have heq {y : String × Value × Char} (hy : y ∈ samples)
      (h : canonicalText.print (standInPreimage y) = canonicalText.print (standInPreimage x)) :
      y = x := by
    have hv := canonicalText_faithful.print_inj (canonical_preimage (hcanonical y hy))
      (canonical_preimage (hcanonical x hx)) h
    have hdomain := Value.get?_of_ofFields_eq (by simp) (by simp) hv "domain"
    have hpayload := Value.get?_of_ofFields_eq (by simp) (by simp) hv "payload"
    by_contra hne
    have : Std.Symm fun x y : String × Value × Char => x.1 = y.1 → x.2.1 = y.2.1 → False :=
      ⟨fun _ _ h h1 h2 => h h1.symm h2.symm⟩
    refine hd.forall hy hx hne ?_ ?_
    · simpa [get?, List.lookup_cons, List.lookup_nil] using hdomain
    · simpa [get?, List.lookup_cons, List.lookup_nil] using hpayload
  show standInHash samples (canonicalText.print (standInPreimage x)) = _
  rw [standInHash]
  split
  · rename_i y hy
    have htext : canonicalText.print (standInPreimage y) =
        canonicalText.print (standInPreimage x) := by simpa using List.find?_some hy
    rw [heq (List.mem_of_find?_eq_some hy) htext]
  · rename_i hnone
    exact absurd (List.find?_eq_none.mp hnone x hx) (by simp)

theorem standIn_hexadecimal {samples : List (String × Value × Char)}
    (h : ∀ c ∈ samples.map (fun x => x.2.2) ++ ['0'], isSha256 (recordingId c) = true) :
    Hexadecimal ⟨canonicalText, standInHash samples⟩ := by
  intro text
  show isSha256 (standInHash samples text) = true
  rw [standInHash]
  split
  · rename_i x hx
    exact h _ (List.mem_append_left _
      (List.mem_map_of_mem (f := fun x : String × Value × Char => x.2.2) (List.mem_of_find?_eq_some hx)))
  · exact h '0' (List.mem_append_right _ (List.mem_singleton_self '0'))

def recordingContext : EncodingContext where
  contextSchemaVersion := 1
  apiOrigin := "o"
  apiMajorVersion := 16
  openApiSha256 := apiBaselineSha256
  operationId := "encodeConfigurationMap"
  method := "POST"
  pathTemplate := "/api/v16/elements/d/\x7bdid\x7d/e/\x7beid\x7d/configurationencodings"
  documentId := "d"
  versionId := "v"
  resolvedMicroversionId := "m"
  elementId := "e"
  elementKind := "part_studio"
  linkDocumentId := none
  query := "v"
  configCanonicalizationVersion := canonicalizationVersion
  parameterSchemaVersion := parameterSchemaVersion

/-- The configuration that leaves an option out, and the one that gives it its default. -/
def recordingTyped (explicit : Bool) : TypedValues :=
  if explicit then [("option", .boolean false)] else []

def recordingHandoff (explicit : Bool) : EncodingHandoff where
  sourceHash := recordingId '1'
  configHash := recordingId (if explicit then '3' else '2')
  encodingContextHash := recordingId 'c'
  encodedId := if explicit then "y" else "x"

def recordingHashes : ExportHashes where
  sourceHash _ := recordingId '1'
  configHash p := recordingId (if p.typedValues = [] then '2' else '3')
  optionsHash _ _ _ := ""
  requestHash _ := ""
  postprocessHash _ := ""

def recordingObject : ResolvedSelectionObject where
  planLocalObjectIdentity := recordingId 'd'
  selector := partSelector oneLeaf
  configuredLeaf := oneLeaf
  displayName := "n"
  annotation := ⟨.printable, none, []⟩
  expectedNeutralPlacementMatrix := normalizeMatrix identityPlacement

def recordingPlan : ResolvedSelectionPlan :=
  ⟨partRoot, recordingId 'e', [recordingObject], recordingId 'f'⟩

def recordingDraft (explicit : Bool) : ProvenanceRecord :=
  draftRecord (recordingHandoff explicit) recordingContext recordingPlan

/-- What is hashed in the two runs, with the domain and a character for the hash of each. -/
def recordingSamples : List (String × Value × Char) :=
  [(contextDomain, EncodingContext.codec.enc recordingContext, 'c'),
   ("onshape-export-selection-plan-object-v1",
      ObjectIdentity.codec.enc ⟨partSelector oneLeaf, oneLeaf⟩, 'd'),
   ("onshape-export-authoring-document-v1",
      AuthoringDocument.codec.enc (authoringDocument recordingPlan.objects), 'e'),
   (planDomain, PlanPayload.codec.enc recordingPlan.payload, 'f'),
   (provenanceDomain, ProvenancePayload.codec.enc (recordingDraft false).payload, 'a'),
   (provenanceDomain, ProvenancePayload.codec.enc (recordingDraft true).payload, 'b')]

def recordingDigests : Digests := ⟨canonicalText, standInHash recordingSamples⟩

theorem recordingSamples_canonical : ∀ x ∈ recordingSamples, x.2.1.Canonical := by
  have hplan : PlanPayload.codec.Fits recordingPlan.payload := planPayload_fits (by decide)
  have hrecord (explicit : Bool) :
      ProvenancePayload.codec.Fits (recordingDraft explicit).payload := by
    refine Geometry.payload_fits.mpr ⟨?_, fits_context.mpr ?_, fits_plan.mpr ?_, ?_⟩
    · decide +revert
    · decide +revert
    · decide +revert
    · decide +revert
  intro x hx
  simp only [recordingSamples, List.mem_cons, List.not_mem_nil, or_false] at hx
  obtain rfl | rfl | rfl | rfl | rfl | rfl := hx
  · exact EncodingContext.codec.canonical _ (fits_context.mpr (by decide))
  · exact ObjectIdentity.codec.canonical _ (by simp [ObjectIdentity.codec])
  · exact AuthoringDocument.codec.canonical _ (by simp [AuthoringDocument.codec, authoringDocument])
  · exact PlanPayload.codec.canonical _ hplan
  · exact ProvenancePayload.codec.canonical _ (hrecord false)
  · exact ProvenancePayload.codec.canonical _ (hrecord true)

def recordingResponse (explicit : Bool) : Value :=
  .ofFields [("encodedId", .string (recordingHandoff explicit).encodedId)]

def recordingOnshape : Onshape where
  version _ _ := .ok (.object [("documentId", .string "d"), ("id", .string "v"),
    ("microversion", .string "m")])
  parts _ _ _ _ := .ok (.array [partRow])
  assembly _ _ _ _ := .ok .null

def recordingRequest (explicit : Bool) : SelectionRequest :=
  ⟨"d", "v", "e", .partStudio, recordingHandoff explicit, [.part "p"]⟩

/-- What is evaluated of the two runs: the documents fit and are not too deep, and the functions of
the planner that look at the request, the answers and the one object return what they should. -/
structure RecordingEvaluated : Prop where
  payload : ProvenancePayload.codec.enc (recordingDraft false).payload ≠
    ProvenancePayload.codec.enc (recordingDraft true).payload
  hexadecimal : (['c', 'd', 'e', 'f', 'a', 'b'] ++ ['0']).all (fun c => isSha256 (recordingId c)) =
    true
  config : (recordingHandoff false).configHash ≠ (recordingHandoff true).configHash
  planId : recordingId 'f' ≠ recordingId 'd'
  context : context .ok "o" (requestSource (recordingRequest false) "m") = .ok recordingContext
  values : ∀ explicit, 4 * (typedCodec.enc (recordingTyped explicit)).room ≤ evidenceLimit ∧
    Bounded (typedCodec.enc (recordingTyped explicit))
  request : ∀ explicit, 4 * (requestBody (recordingTyped explicit)).room ≤ evidenceLimit ∧
    Bounded (requestBody (recordingTyped explicit))
  response : ∀ explicit, 4 * (recordingResponse explicit).room ≤ evidenceLimit ∧
    Bounded (recordingResponse explicit)
  contextSize : 4 * (EncodingContext.codec.enc recordingContext).room ≤ evidenceLimit ∧
    Bounded (EncodingContext.codec.enc recordingContext)
  planSize : 4 * (Value.ofFields [("domain", .string planDomain),
    ("payload", PlanPayload.codec.enc recordingPlan.payload)]).room ≤ maxPlanBytes
  stored : ∀ explicit, 4 * (ProvenanceRecord.codec.enc { recordingDraft explicit with
    provenanceIdentity := recordingId (if explicit then 'b' else 'a') }).room ≤ recordLimit
  hashed : ∀ explicit, 4 * (hashedPayload { recordingDraft explicit with
    provenanceIdentity := recordingId (if explicit then 'b' else 'a') }).room ≤ recordLimit
  identity : ∀ explicit, responseIdentity (recordingResponse explicit) false =
    .ok ⟨(recordingHandoff explicit).encodedId, ""⟩
  shape : ∀ explicit, validateShape (recordingHandoff explicit) = .ok ()
  preflight : ∀ explicit, (recordingRequest explicit).preflight = .ok ()
  version : ∀ explicit, resolveVersion recordingOnshape (recordingRequest explicit).documentId
    (recordingRequest explicit).versionId = .ok "m"
  resolved : ∀ explicit, resolveSelection recordingOnshape (recordingRequest explicit) "m" =
    .ok (partRoot, [oneCandidate (partSelector oneLeaf)])
  authored : authorCandidates recordingDigests [oneCandidate (partSelector oneLeaf)] =
    .ok [oneAuthored (partSelector oneLeaf)]
  document : validateAuthoringDocument noSizes (authoringDocument recordingPlan.objects) = .ok ()
  authoring : validateAuthoringContext recordingDigests noSizes
    ⟨1, [oneAuthored (partSelector oneLeaf)]⟩
    (candidateContext recordingDigests [oneCandidate (partSelector oneLeaf)]) = .ok ()

theorem recording_evaluated : RecordingEvaluated where
  payload := by decide +kernel
  hexadecimal := by decide +kernel
  config := by decide +kernel
  planId := by decide +kernel
  context := by decide +kernel
  values := by decide +kernel
  request := by decide +kernel
  response := by decide +kernel
  contextSize := by decide +kernel
  planSize := by decide +kernel
  stored := by decide +kernel
  hashed := by decide +kernel
  identity := by decide +kernel
  shape := by decide +kernel
  preflight := by decide +kernel
  version := by decide +kernel
  resolved := by decide +kernel
  authored := by decide +kernel
  document := by decide +kernel
  authoring := by decide +kernel

theorem recordingSamples_distinct :
    recordingSamples.Pairwise fun x y => x.1 = y.1 → x.2.1 = y.2.1 → False := by
  simp [recordingSamples, contextDomain, planDomain, provenanceDomain, recording_evaluated.payload]

theorem recording_hash {x : String × Value × Char} (hx : x ∈ recordingSamples) :
    hashJson recordingDigests x.1 x.2.1 = recordingId x.2.2 :=
  standIn_hash recordingSamples_canonical recordingSamples_distinct hx

theorem recordingDigests_hexadecimal : Hexadecimal recordingDigests := by
  refine standIn_hexadecimal fun c hc => ?_
  have hchars : recordingSamples.map (fun x => x.2.2) = ['c', 'd', 'e', 'f', 'a', 'b'] := rfl
  rw [hchars] at hc
  exact List.all_eq_true.mp recording_evaluated.hexadecimal c hc

def recordingEncoding (explicit : Bool) : ConfigurationEncodingRecord where
  sourceHash := (recordingHandoff explicit).sourceHash
  configHash := (recordingHandoff explicit).configHash
  encodingContextHash := (recordingHandoff explicit).encodingContextHash
  encodingContextJson := canonicalText.print (EncodingContext.codec.enc recordingContext)
  encodedId := (recordingHandoff explicit).encodedId
  queryParam := ""
  requestJson := canonicalText.print (requestBody (recordingTyped explicit))
  responseJson := canonicalText.print (recordingResponse explicit)

def recordingSelection (explicit : Bool) : ConfigurationSelection where
  sourceHash := (recordingHandoff explicit).sourceHash
  configHash := (recordingHandoff explicit).configHash
  valuesJson := canonicalText.print (typedCodec.enc (recordingTyped explicit))
  validationJson := ""

def recordingDatabase : Database where
  encodings := ⟨[recordingEncoding false, recordingEncoding true], List.pairwise_pair.mpr
    fun h => recording_evaluated.config (congrArg EncodingKey.configHash h)⟩
  selections := ⟨[recordingSelection false, recordingSelection true], List.pairwise_pair.mpr
    fun h => recording_evaluated.config (congrArg Prod.snd h)⟩

/-- A document that fits is read back from its text. -/
theorem parse_print {v : Value} {limit : Nat} (hv : v.Canonical) (hs : 4 * v.room ≤ limit)
    (hb : Bounded v) : parseJson canonicalText (canonicalText.print v) limit = .ok v :=
  parseJson_ok.mpr ⟨(canonicalText_size v).trans hs, canonicalText_faithful v hv, hb⟩

theorem recordingTyped_fits (explicit : Bool) : typedCodec.Fits (recordingTyped explicit) := by
  cases explicit
  · exact fits_map.mpr ⟨by simp [recordingTyped, Sorted, keys], by simp [recordingTyped]⟩
  · refine fits_map.mpr ⟨by simp [recordingTyped, Sorted, keys], fun m hm => ?_⟩
    simp only [recordingTyped, if_true, List.mem_singleton] at hm
    subst hm
    trivial

theorem recording_values (explicit : Bool) :
    parseJson canonicalText (canonicalText.print (typedCodec.enc (recordingTyped explicit)))
      evidenceLimit = .ok (typedCodec.enc (recordingTyped explicit)) := by
  obtain ⟨hroom, hbounded⟩ := recording_evaluated.values explicit
  exact parse_print (typedCodec.canonical _ (recordingTyped_fits explicit)) hroom hbounded

theorem requestBody_canonical (typed : TypedValues) : (requestBody typed).Canonical := by
  refine Value.canonical_ofFields (by simp) fun m hm => ?_
  rw [List.mem_singleton.mp hm, Value.Canonical, Value.canonicalItems_iff]
  intro v hv
  obtain ⟨entry, -, rfl⟩ := List.mem_map.mp hv
  refine Value.canonical_ofFields (by simp) fun x hx => ?_
  simp only [List.mem_cons, List.not_mem_nil, or_false] at hx
  obtain rfl | rfl := hx <;> trivial

theorem recording_request (explicit : Bool) :
    parseJson canonicalText (canonicalText.print (requestBody (recordingTyped explicit)))
      evidenceLimit = .ok (requestBody (recordingTyped explicit)) := by
  obtain ⟨hroom, hbounded⟩ := recording_evaluated.request explicit
  exact parse_print (requestBody_canonical _) hroom hbounded

theorem recording_response (explicit : Bool) :
    parseJson canonicalText (canonicalText.print (recordingResponse explicit)) evidenceLimit =
      .ok (recordingResponse explicit) := by
  obtain ⟨hroom, hbounded⟩ := recording_evaluated.response explicit
  refine parse_print (Value.canonical_ofFields (by simp) fun m hm => ?_) hroom hbounded
  rw [List.mem_singleton.mp hm]
  trivial

theorem recordingContext_fits : EncodingContext.codec.Fits recordingContext :=
  fits_context.mpr (by decide)

theorem recording_context : parseJson canonicalText
    (canonicalText.print (EncodingContext.codec.enc recordingContext)) evidenceLimit =
      .ok (EncodingContext.codec.enc recordingContext) :=
  parse_print (EncodingContext.codec.canonical _ recordingContext_fits)
    recording_evaluated.contextSize.1 recording_evaluated.contextSize.2

def recordingExpected (explicit : Bool) : Expected where
  sourceHash := recordingId '1'
  configHash := (recordingHandoff explicit).configHash
  contextHash := recordingId 'c'
  context := recordingContext
  request := requestBody (recordingTyped explicit)

theorem recording_expected (explicit : Bool) :
    expected recordingDigests recordingHashes .ok "o"
      (requestSource (recordingRequest explicit) "m") (recordingTyped explicit) =
        .ok (recordingExpected explicit) := by
  have htyped : ∀ explicit, validateTypedValues (recordingTyped explicit) = .ok () := by decide
  have hhash : hashJson recordingDigests contextDomain
      (EncodingContext.codec.enc recordingContext) = recordingId 'c' :=
    recording_hash (x := (_, _, _)) (List.getElem_mem (n := 0) (by decide))
  have hcontext : context .ok "o" (requestSource (recordingRequest explicit) "m") =
      .ok recordingContext := recording_evaluated.context
  have hconfig : recordingHashes.configHash ⟨canonicalizationVersion, recordingId '1',
      parameterSchemaVersion, recordingTyped explicit⟩ = (recordingHandoff explicit).configHash := by
    cases explicit <;> rfl
  refine seq_ok.mpr ⟨htyped explicit, bind_ok.mpr ⟨_, recording_values explicit, ?_⟩⟩
  refine bind_ok.mpr ⟨_, hcontext, bind_ok.mpr ⟨_, recording_request explicit, ?_⟩⟩
  rw [recordingExpected, ← hhash, ← hconfig]
  rfl

theorem recording_record (explicit : Bool) :
    Encoding.validateRecord recordingDigests (recordingEncoding explicit)
      (recordingExpected explicit) false =
        .ok ⟨recordingHandoff explicit, ⟨(recordingHandoff explicit).encodedId, ""⟩⟩ := by
  have hhash : hashJson recordingDigests contextDomain
      (EncodingContext.codec.enc recordingContext) = recordingId 'c' :=
    recording_hash (x := (_, _, _)) (List.getElem_mem (n := 0) (by decide))
  refine bind_ok.mpr ⟨_, recording_context, ?_⟩
  simp only [EncodingContext.codec.dec_enc _ recordingContext_fits]
  have hmatches : ¬(recordingContext ≠ (recordingExpected explicit).context ∨
      EncodingContext.codec.enc recordingContext ≠
        EncodingContext.codec.enc (recordingExpected explicit).context ∨
      hashJson recordingDigests contextDomain (EncodingContext.codec.enc recordingContext) ≠
        (recordingEncoding explicit).encodingContextHash ∨
      (recordingEncoding explicit).sourceHash ≠ (recordingExpected explicit).sourceHash ∨
      (recordingEncoding explicit).configHash ≠ (recordingExpected explicit).configHash ∨
      (recordingEncoding explicit).encodingContextHash ≠
        (recordingExpected explicit).contextHash) := by
    rw [hhash]
    simp [recordingExpected, recordingEncoding, recordingHandoff]
  rw [if_neg hmatches]
  refine bind_ok.mpr ⟨_, recording_request explicit, ?_⟩
  rw [if_neg (fun h => h rfl)]
  refine bind_ok.mpr ⟨_, recording_response explicit, bind_ok.mpr ⟨_, recording_evaluated.identity explicit, ?_⟩⟩
  rw [if_neg (by simp [recordingEncoding])]
  rfl

theorem recording_handoff (explicit : Bool) :
    validateHandoff recordingDigests recordingHashes .ok "o" recordingDatabase
      (requestSource (recordingRequest explicit) "m") (recordingHandoff explicit) = .ok () := by
  have hselection : recordingDatabase.selections.find? ((recordingHandoff explicit).sourceHash,
      (recordingHandoff explicit).configHash) = some (recordingSelection explicit) := by
    refine Table.find?_of_mem (r := recordingSelection explicit) ?_
    cases explicit <;> simp [recordingDatabase]
  have hrow : recordingDatabase.encodings.find? (recordingExpected explicit).key =
      some (recordingEncoding explicit) := by
    refine Table.find?_of_mem (r := recordingEncoding explicit) ?_
    cases explicit <;> simp [recordingDatabase]
  have htyped : storedTypedValues recordingDigests recordingDatabase
      (recordingHandoff explicit).sourceHash (recordingHandoff explicit).configHash =
        .ok (recordingTyped explicit) := by
    simp only [storedTypedValues, hselection]
    refine bind_ok.mpr ⟨_, recording_values explicit, ?_⟩
    simp only [typedCodec.dec_enc _ (recordingTyped_fits explicit)]
    exact if_neg fun h => h rfl
  have hvalid := recording_record explicit
  refine seq_ok.mpr ⟨recording_evaluated.shape explicit, bind_ok.mpr ⟨_, htyped, ?_⟩⟩
  refine bind_ok.mpr ⟨_, recording_expected explicit, seq_ok.mpr ⟨ensure_ok.mpr rfl, ?_⟩⟩
  simp only [hrow]
  exact bind_ok.mpr ⟨_, hvalid, ensure_ok.mpr rfl⟩

theorem planText_hash (digests : Digests) (payload : PlanPayload) :
    digests.sha256 (planText digests payload) =
      hashJson digests planDomain (PlanPayload.codec.enc payload) := rfl

theorem objectText_hash (digests : Digests) (o : ResolvedSelectionObject) :
    digests.sha256 (objectText digests o) =
      objectIdentity digests o.selector o.configuredLeaf := rfl

theorem computedPlanIdentity_of {digests : Digests} {payload : PlanPayload}
    (h : (planText digests payload).utf8ByteSize ≤ maxPlanBytes) :
    computedPlanIdentity digests payload =
      some (hashJson digests planDomain (PlanPayload.codec.enc payload)) := if_pos h

theorem authoringDocumentIdentity_of {digests : Digests} {sizes : Sizes}
    {document : AuthoringDocument} (h : validateAuthoringDocument sizes document = .ok ()) :
    authoringDocumentIdentity digests sizes document =
      .ok (hashJson digests "onshape-export-authoring-document-v1"
        (AuthoringDocument.codec.enc document)) :=
  seq_ok.mpr ⟨h, rfl⟩

theorem recording_object : objectIdentity recordingDigests (partSelector oneLeaf) oneLeaf =
    recordingId 'd' :=
  recording_hash (x := (_, _, _)) (List.getElem_mem (n := 1) (by decide))

theorem recording_planHash : hashJson recordingDigests planDomain
    (PlanPayload.codec.enc recordingPlan.payload) = recordingId 'f' :=
  recording_hash (x := (_, _, _)) (List.getElem_mem (n := 3) (by decide))

/-- Both configurations have the answer that the one plan is made from. -/
theorem recording_plan (explicit : Bool) :
    planSelection recordingDigests noSizes recordingHashes .ok "o" recordingDatabase
      recordingOnshape (recordingRequest explicit) = .ok recordingPlan := by
  have hauthoring : hashJson recordingDigests "onshape-export-authoring-document-v1"
      (AuthoringDocument.codec.enc (authoringDocument recordingPlan.objects)) = recordingId 'e' :=
    recording_hash (x := (_, _, _)) (List.getElem_mem (n := 2) (by decide))
  have hobject : planObject recordingDigests (oneCandidate (partSelector oneLeaf))
      (oneAuthored (partSelector oneLeaf)) = recordingObject := by
    rw [recordingObject, ← recording_object]
    rfl
  have hobjects : List.zipWith (planObject recordingDigests)
      [oneCandidate (partSelector oneLeaf)] [oneAuthored (partSelector oneLeaf)] =
        recordingPlan.objects := congrArg (fun o => [o]) hobject
  have hidentity : authoringDocumentIdentity recordingDigests noSizes
      ⟨1, [oneAuthored (partSelector oneLeaf)]⟩ = .ok (recordingId 'e') := by
    rw [← hauthoring]
    exact authoringDocumentIdentity_of recording_evaluated.document
  have hsize : (planText recordingDigests recordingPlan.payload).utf8ByteSize ≤ maxPlanBytes :=
    (canonicalText_size _).trans recording_evaluated.planSize
  have hplan : computedPlanIdentity recordingDigests
      ⟨partRoot, recordingId 'e', recordingPlan.objects⟩ = some (recordingId 'f') := by
    rw [← recording_planHash]
    exact computedPlanIdentity_of hsize
  rw [← hobjects] at hplan
  have hconstruct := constructPlan_of recording_evaluated.authored recording_evaluated.authoring
    hidentity hplan
  rw [hobjects] at hconstruct
  refine seq_ok.mpr ⟨recording_evaluated.preflight explicit,
    bind_ok.mpr ⟨_, recording_evaluated.version explicit, ?_⟩⟩
  refine seq_ok.mpr ⟨recording_handoff explicit, bind_ok.mpr ⟨_, recording_evaluated.resolved explicit, ?_⟩⟩
  exact hconstruct

theorem recording_finish (explicit : Bool) :
    finishRecord recordingDigests (recordingHandoff explicit) recordingContext recordingPlan =
      { recordingDraft explicit with
        provenanceIdentity := recordingId (if explicit then 'b' else 'a') } := by
  have hhash : hashJson recordingDigests provenanceDomain
      (ProvenancePayload.codec.enc (recordingDraft explicit).payload) =
        recordingId (if explicit then 'b' else 'a') := by
    cases explicit
    · exact recording_hash (x := (_, _, _)) (List.getElem_mem (n := 4) (by decide))
    · exact recording_hash (x := (_, _, _)) (List.getElem_mem (n := 5) (by decide))
  rw [← hhash]
  rfl

theorem recording_fits (explicit : Bool) (c : EncodingContext)
    (h : context .ok "o" (source recordingPlan) = .ok c) :
    FitsBound recordingDigests (finishRecord recordingDigests (recordingHandoff explicit) c
      recordingPlan) := by
  have hsource : context .ok "o" (source recordingPlan) = .ok recordingContext :=
    recording_evaluated.context
  obtain rfl := Except.ok.inj (hsource.symm.trans h)
  rw [recording_finish]
  exact ⟨(canonicalText_size _).trans (recording_evaluated.stored explicit),
    (canonicalText_size _).trans (recording_evaluated.hashed explicit)⟩

/-- Each run has a record for its own handoff. -/
theorem recording_made (explicit : Bool) :
    planInvocation recordingDigests noSizes recordingHashes .ok "o" recordingDatabase
      recordingOnshape (recordingRequest explicit) =
        .ok (finishRecord recordingDigests (recordingHandoff explicit) recordingContext
          recordingPlan) := by
  have hcollision : CollisionFreeOn recordingDigests recordingPlan.objects := by
    intro o ho o' ho' _
    rw [List.mem_singleton.mp ho, List.mem_singleton.mp ho']
  obtain ⟨c, hc, hmade⟩ := planInvocation_of canonicalText_faithful recordingDigests_hexadecimal
    (recording_plan explicit) hcollision (recording_fits explicit)
  have hsource : context .ok "o" (source recordingPlan) = .ok recordingContext :=
    recording_evaluated.context
  obtain rfl := Except.ok.inj (hsource.symm.trans hc)
  exact hmade

theorem recording_noCollision {w : World}
    (h : ∀ r ∈ w.runs, r.onshape = recordingOnshape ∧ ∃ explicit,
      r.request = recordingRequest explicit) :
    NoCollision recordingDigests noSizes recordingHashes .ok "o" recordingDatabase w := by
  have htexts {text : String}
      (ht : HashedText recordingDigests noSizes recordingHashes .ok "o" recordingDatabase w text) :
      text = planText recordingDigests recordingPlan.payload ∨
        text = objectText recordingDigests recordingObject := by
    obtain ⟨r, hr, plan, hplan, ht⟩ := ht
    obtain ⟨honshape, explicit, hrequest⟩ := h r hr
    rw [honshape, hrequest, recording_plan explicit] at hplan
    obtain rfl := Except.ok.inj hplan
    obtain ht | ⟨o, ho, ht⟩ := ht
    · exact .inl ht
    · rw [List.mem_singleton.mp ho] at ht
      exact .inr ht
  have hplan : recordingDigests.sha256 (planText recordingDigests recordingPlan.payload) =
      recordingId 'f' := (planText_hash _ _).trans recording_planHash
  have hobject : recordingDigests.sha256 (objectText recordingDigests recordingObject) =
      recordingId 'd' := (objectText_hash _ _).trans recording_object
  intro s t hs ht he
  obtain rfl | rfl := htexts hs <;> obtain rfl | rfl := htexts ht
  · rfl
  · rw [hplan, hobject] at he
    exact absurd he recording_evaluated.planId
  · rw [hplan, hobject] at he
    exact absurd he.symm recording_evaluated.planId
  · rfl

/-- The run that leaves the option out records its plan, and the run that gives the option its
default, with the same plan and a record that fits, is refused. -/
theorem plan_recorded_conflict : ∃ w : World,
    w = Trace.run (step recordingDigests noSizes recordingHashes .ok "o" recordingDatabase)
      ⟨.empty, []⟩ [.start (recordingRequest false) recordingOnshape,
        .start (recordingRequest true) recordingOnshape, .step 0, .step 0, .step 1, .step 1] ∧
      recordingDigests.text.Faithful ∧ Hexadecimal recordingDigests ∧
      NoCollision recordingDigests noSizes recordingHashes .ok "o" recordingDatabase w ∧
      ∃ r ∈ w.runs,
        planSelection recordingDigests noSizes recordingHashes .ok "o" recordingDatabase r.onshape
          r.request = .ok recordingPlan ∧
        (∀ c, context .ok "o" (source recordingPlan) = .ok c →
          FitsBound recordingDigests
            (finishRecord recordingDigests r.request.configurationEncoding c recordingPlan)) ∧
        r.phase = .done (.error (invariant "provenance_recording_failed")) := by
  have hne : (recordingRequest false).configurationEncoding ≠
      (recordingRequest true).configurationEncoding :=
    fun h => recording_evaluated.config (congrArg EncodingHandoff.configHash h)
  have hruns := second_refused canonicalText_faithful (recording_made false) (recording_made true)
    (by simp only [finishRecord_plan]) hne
  refine ⟨second recordingDigests noSizes recordingHashes .ok "o" recordingDatabase
    (recordingRequest false) (recordingRequest true) recordingOnshape recordingOnshape, rfl,
    canonicalText_faithful, recordingDigests_hexadecimal, recording_noCollision ?_, ?_⟩
  · intro r hr
    rw [hruns, List.mem_pair] at hr
    obtain rfl | rfl := hr
    · exact ⟨rfl, false, rfl⟩
    · exact ⟨rfl, true, rfl⟩
  · rw [hruns]
    exact ⟨_, List.mem_cons_of_mem _ (List.mem_singleton_self _), recording_plan true,
      recording_fits true, rfl⟩

/-- A run by itself returns its plan for its handoff. -/
theorem plan_recorded_sample : ∃ record,
    (alone recordingDigests noSizes recordingHashes .ok "o" recordingDatabase
      (recordingRequest true) recordingOnshape).runs =
        [⟨recordingRequest true, recordingOnshape, .done (.ok ⟨record⟩)⟩] ∧
      record.plan = recordingPlan ∧ record.configurationEncoding = recordingHandoff true := by
  have hruns := alone_recorded canonicalText_faithful (recording_made true)
  refine ⟨_, hruns, ?_⟩
  have hn : NoCollision recordingDigests noSizes recordingHashes .ok "o" recordingDatabase
      (alone recordingDigests noSizes recordingHashes .ok "o" recordingDatabase
        (recordingRequest true) recordingOnshape) := by
    refine recording_noCollision fun r hr => ?_
    rw [hruns, List.mem_singleton] at hr
    rw [hr]
    exact ⟨rfl, true, rfl⟩
  have hall := (plan_recorded recordingDigests noSizes recordingHashes .ok "o" recordingDatabase
    canonicalText_faithful recordingDigests_hexadecimal _ hn).1
  rw [← alone, hruns] at hall
  obtain ⟨row, -, hsame, hother⟩ := hall _ (List.mem_singleton_self _) _ (recording_plan true)
    (recording_fits true) _ rfl
  by_cases hhandoff : rowHandoff recordingDigests row = some (recordingHandoff true)
  · obtain ⟨record, hresult, hplan, hencoding⟩ := hsame hhandoff
    cases hresult
    exact ⟨hplan, hencoding⟩
  · cases hother hhandoff

end Geometry
end OnshapeExport
