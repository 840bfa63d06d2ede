import OnshapeExport.ConfigurationEncoding
import OnshapeExport.Jobs
import OnshapeExport.Lib.Trace

/-!
# Translations

How `execute_staged_export_request` of `main.rs` goes through the translations of one export
request: a completed one is downloaded, an unfinished one is polled, and a new one is started when
there is neither. Executions follow one another, and each may stop at any point.

* `TranslationRecord`, `RawPayloadRecord`, `RawPayloadSource` — the rows, and the statements.
* `pollTranslation` — the polls of a translation, up to its final state.
* `Phase` — where an execution is; `advance` — what it does next.
* `step` — executions one after the other, with what they do in a log.
-/

namespace OnshapeExport
namespace Translations

open CacheKey Encoding Jobs Json Relational

/-! ## Rows -/

structure TranslationRecord where
  translationId : String
  requestHash : String
  state : String
  startResponseJson : Option String
  finalResponseJson : Option String
  pollStateJson : Option String
  resultExternalDataIdsJson : Option String
  resultElementIdsJson : Option String
  responseHash : Option String
  failureReason : Option String
  createdAt : Timestamp
  updatedAt : Timestamp
deriving DecidableEq, Repr

instance : Schema TranslationRecord String where
  key := TranslationRecord.translationId
  clash a b := a.translationId = b.translationId
  clash_of_key h := h
  clash_symm h := h.symm

instance : DecidableRel (Schema.clash (α := TranslationRecord)) :=
  fun a b => inferInstanceAs (Decidable (a.translationId = b.translationId))

structure RawPayloadRecord where
  rawPayloadHash : String
  objectKey : String
  contentType : Option String
  byteLen : Nat
  headersJson : String
  originalFilename : Option String
  filenameSource : Option String
  detectedKind : String
  zipManifestJson : Option String
deriving DecidableEq, Repr

/-- `object_key` is unique as well. -/
instance : Schema RawPayloadRecord String where
  key := RawPayloadRecord.rawPayloadHash
  clash a b := a.rawPayloadHash = b.rawPayloadHash ∨ a.objectKey = b.objectKey
  clash_of_key := .inl
  clash_symm h := h.imp Eq.symm Eq.symm

instance : DecidableRel (Schema.clash (α := RawPayloadRecord)) :=
  fun a b => inferInstanceAs
    (Decidable (a.rawPayloadHash = b.rawPayloadHash ∨ a.objectKey = b.objectKey))

structure RawPayloadSource where
  requestHash : String
  translationId : Option String
  externalDataId : Option String
  resultIndex : Option Int
  responseHeadersJson : String
  etag : Option String
  rawPayloadHash : String
deriving DecidableEq, Repr

/-- The columns of `raw_payload_sources_identity_idx`. -/
structure SourceKey where
  requestHash : String
  translationId : String
  externalDataId : String
  resultIndex : Int
deriving DecidableEq, Repr

def sourceKey (requestHash : String) (translationId externalDataId : Option String)
    (resultIndex : Option Int) : SourceKey :=
  ⟨requestHash, translationId.getD "", externalDataId.getD "", resultIndex.getD (-1)⟩

def RawPayloadSource.key (r : RawPayloadSource) : SourceKey :=
  sourceKey r.requestHash r.translationId r.externalDataId r.resultIndex

instance : Schema RawPayloadSource SourceKey where
  key := RawPayloadSource.key
  clash a b := a.key = b.key
  clash_of_key h := h
  clash_symm h := h.symm

instance : DecidableRel (Schema.clash (α := RawPayloadSource)) :=
  fun a b => inferInstanceAs (Decidable (a.key = b.key))

structure Tables where
  translations : Table TranslationRecord
  rawPayloads : Table RawPayloadRecord
  rawPayloadSources : Table RawPayloadSource

/-! ## Statements -/

/-- `ORDER BY updated_at DESC, created_at DESC, translation_id DESC`. -/
def newer (a b : TranslationRecord) : Bool :=
  b.updatedAt < a.updatedAt || a.updatedAt = b.updatedAt &&
    (b.createdAt < a.createdAt || a.createdAt = b.createdAt && b.translationId < a.translationId)

def newest (rows : List TranslationRecord) : Option TranslationRecord :=
  rows.foldl (fun best r =>
    match best with
    | none => some r
    | some b => if newer r b then some r else some b) none

/-- The translations of a request. -/
def ofRequest (requestHash : String) (t : Table TranslationRecord) : List TranslationRecord :=
  t.rows.filter fun r => r.requestHash = requestHash

def latestTranslationForRequest (requestHash : String) (t : Table TranslationRecord) :
    Option TranslationRecord :=
  newest (ofRequest requestHash t)

def completed (r : TranslationRecord) : Bool := r.state = "DONE" && r.finalResponseJson.isSome

def latestCompletedTranslationForRequest (requestHash : String) (t : Table TranslationRecord) :
    Option TranslationRecord :=
  newest ((ofRequest requestHash t).filter completed)

structure StartedTranslation where
  translationId : String
  state : String
  responseJson : String
deriving DecidableEq, Repr

structure PolledTranslation where
  state : String
  finalResponseJson : String
  pollStateJson : String
  resultExternalDataIds : List String
  resultElementIds : List String
  failureReason : Option String
deriving DecidableEq, Repr

structure DownloadedExternalData where
  bytes : List UInt8
  contentType : Option String
  responseHeadersJson : String
  originalFilename : Option String
  filenameSource : Option String
  etag : Option String
deriving DecidableEq, Repr

def startedRow (now : Timestamp) (requestHash : String) (s : StartedTranslation) :
    TranslationRecord where
  translationId := s.translationId
  requestHash := requestHash
  state := s.state
  startResponseJson := some s.responseJson
  finalResponseJson := none
  pollStateJson := none
  resultExternalDataIdsJson := none
  resultElementIdsJson := none
  responseHash := none
  failureReason := none
  createdAt := now
  updatedAt := now

/-- `ON CONFLICT(translation_id) DO UPDATE`: what it leaves of a row that is there. -/
def restartedRow (now : Timestamp) (requestHash : String) (s : StartedTranslation)
    (r : TranslationRecord) : TranslationRecord :=
  { r with requestHash := requestHash, state := s.state, startResponseJson := some s.responseJson,
           updatedAt := now }

def insertTranslationStart (now : Timestamp) (requestHash : String) (s : StartedTranslation)
    (t : Table TranslationRecord) : Table TranslationRecord :=
  match t.insert? (startedRow now requestHash s) with
  | some t => t
  | none => t.update (fun r => r.translationId = s.translationId) (restartedRow now requestHash s)
      ⟨fun _ => rfl, fun _ _ => .rfl⟩

variable (text : JsonText)

def finalRow (now : Timestamp) (p : PolledTranslation) (responseHash : String)
    (r : TranslationRecord) : TranslationRecord :=
  { r with
    state := p.state
    finalResponseJson := some p.finalResponseJson
    pollStateJson := some p.pollStateJson
    resultExternalDataIdsJson := some (text.print ((Codec.list .str).enc p.resultExternalDataIds))
    resultElementIdsJson := some (text.print ((Codec.list .str).enc p.resultElementIds))
    responseHash := some responseHash
    failureReason := p.failureReason
    updatedAt := now }

def updateTranslationFinal (now : Timestamp) (translationId : String) (p : PolledTranslation)
    (responseHash : String) (t : Table TranslationRecord) : Table TranslationRecord :=
  t.update (fun r => r.translationId = translationId) (finalRow text now p responseHash)
    ⟨fun _ => rfl, fun _ _ => .rfl⟩

/-- `ON CONFLICT(raw_payload_hash) DO NOTHING`; another row with the object key is an error. -/
def insertRawPayloadIfAbsent (r : RawPayloadRecord) (t : Table RawPayloadRecord) :
    Option (Table RawPayloadRecord) :=
  if (t.find? r.rawPayloadHash).isSome then some t else t.insert? r

def rawPayloadHashForSource (t : Table RawPayloadSource) (key : SourceKey) : Option String :=
  (t.find? key).map RawPayloadSource.rawPayloadHash

/-! ## Answers of the service -/

def firstString (response : Value) (names : List String) : Option String :=
  match response with
  | .object members => (names.filterMap (get? members)).findSome? asStr
  | _ => none

def arrayStrings (response : Value) (name : String) : List String :=
  match response with
  | .object members =>
    match get? members name with
    | some (.array items) => items.filterMap asStr
    | _ => []
  | _ => []

def parseStartedTranslation (operation : String) (response : Value) :
    Except String StartedTranslation :=
  match firstString response ["id", "translationId"] with
  | none => .error ("Onshape " ++ operation ++ " response did not include a translation id")
  | some translationId => .ok
      { translationId := translationId
        state := (firstString response ["requestState", "state"]).getD "ACTIVE"
        responseJson := text.print response }

def parsePolledTranslation (response : Value) : Except String PolledTranslation :=
  match firstString response ["requestState", "state"] with
  | none => .error "Onshape translation poll response did not include a state"
  | some state => .ok
      { state := state
        finalResponseJson := text.print response
        pollStateJson := text.print response
        resultExternalDataIds := arrayStrings response "resultExternalDataIds"
        resultElementIds := arrayStrings response "resultElementIds"
        failureReason :=
          firstString response ["failureReason", "failureMessage", "message", "errorMessage"] }

/-- The number of delays between two polls. -/
def pollAttempts : Nat := 8

/-- The polls, each with its answer, until one is final. -/
def pollTranslation (documentId : String) :
    Nat → List (Except String Value) → Except String PolledTranslation
  | 0, _ => .error ("Onshape translation timed out for document " ++ documentId)
  | _ + 1, [] => .error "the request was not answered"
  | attempts + 1, answer :: answers => do
    let polled ← parsePolledTranslation text (← answer)
    if polled.state = "DONE" ∨ polled.state = "FAILED" then return polled
    else pollTranslation documentId attempts answers

def PolledTranslation.singleExternalDataId (p : PolledTranslation) : Except String String :=
  match p.resultExternalDataIds with
  | [externalDataId] => .ok externalDataId
  | [] => .error "Onshape translation completed without external data"
  | ids => .error ("Onshape translation returned " ++ toString ids.length ++
      " downloadable results; expected exactly one")

def parseJsonStringVec (json : String) : Except String (List String) :=
  match (text.read json).bind (Codec.list .str).dec with
  | some ids => .ok ids
  | none => .error "invalid JSON"

def persistedResultExternalDataId (r : TranslationRecord) : Except String String := do
  match ← parseJsonStringVec text (r.resultExternalDataIdsJson.getD "[]") with
  | [externalDataId] => .ok externalDataId
  | [] => .error ("persisted Onshape translation " ++ r.translationId ++
      " completed without external data")
  | ids => .error ("persisted Onshape translation " ++ r.translationId ++ " returned " ++
      toString ids.length ++ " downloadable results; expected exactly one")

variable (digests : Digests)

def responseShapeVersion : Nat := 1

def readJson (json : String) : Except String Value :=
  match text.read json with
  | some value => .ok value
  | none => .error "invalid JSON"

def translationResponseHash (translationId startResponseJson finalResponseJson pollStateJson :
    String) : Except String String := do
  let startResponse ← readJson text startResponseJson
  let finalResponse ← readJson text finalResponseJson
  let pollState ← readJson text pollStateJson
  return hashJson digests "response-v2" (.ofFields
    [("translationId", .string translationId), ("startResponse", startResponse),
     ("finalResponse", finalResponse), ("pollState", pollState),
     ("responseShapeVersion", .number (.int responseShapeVersion))])

/-! ## Executions -/

/-- What raw payloads are looked into with: SHA-256, the kind of a file, and the inventory of a ZIP
archive. -/
structure Inspection where
  hexSha256 : List UInt8 → String
  detectKind : List UInt8 → String
  zipInventory : List UInt8 → Except String (Option String)

def rawPayloadObjectKey (rawPayloadHash : String) : String :=
  "onshape/raw/v2/" ++ String.ofList (rawPayloadHash.toList.take 2) ++ "/" ++ rawPayloadHash ++
    "/payload.bin"

/-- A translation of the request and its one result. -/
structure Result where
  translationId : String
  externalDataId : String
deriving DecidableEq, Repr

/-- What an execution does next. -/
inductive Phase where
  | idle
  /-- A completed translation was found. -/
  | found (t : TranslationRecord)
  /-- Its payload is not linked. -/
  | resuming (t : TranslationRecord)
  /-- There is no completed translation. -/
  | unfinished
  | starting
  | started (s : StartedTranslation)
  | polling (translationId startResponseJson : String) (fresh : Bool)
  | polled (translationId : String) (p : PolledTranslation) (responseHash : String) (fresh : Bool)
  | checking (r : Result)
  | downloading (r : Result)
  | storing (r : Result) (d : DownloadedExternalData)
  | inserting (r : Result) (d : DownloadedExternalData) (zipManifestJson : Option String)
  | linking (r : Result) (d : DownloadedExternalData)
  | comparing (r : Result) (rawPayloadHash : String)
  /-- A link was read. -/
  | linked (rawPayloadHash : String)

/-- What the service and the storage answer in a step. A step takes the answer it asks for. -/
structure Answers where
  start : Except String Value
  polls : List (Except String Value)
  download : Except String DownloadedExternalData
  put : Except String Unit

inductive Event where
  /-- A translation is asked for, with the rows of the request at that time. -/
  | startIssued (rows : List TranslationRecord)
  | finalRecorded (translationId state : String)
  | returned (result : Except String String)
deriving DecidableEq

/-- A canonical export request, as far as the executions read it. -/
structure ExportRequest where
  requestHash : String
  operation : String
  documentId : Option String

def ExportRequest.document (request : ExportRequest) : Except String String :=
  match request.documentId with
  | some documentId => .ok documentId
  | none => .error "canonical export request did not include document id"

def ExportRequest.sourceKey (request : ExportRequest) (r : Result) : SourceKey :=
  Translations.sourceKey request.requestHash (some r.translationId) (some r.externalDataId) (some 0)

/-- What a step leaves: the next phase, the tables, and what it did. -/
structure Outcome where
  phase : Phase
  tables : Tables
  events : List Event

def finish (tables : Tables) (result : Except String String) : Outcome :=
  ⟨.idle, tables, [.returned result]⟩

def proceed (tables : Tables) (phase : Phase) : Outcome := ⟨phase, tables, []⟩

/-- A link that is there is returned, and its result is fetched otherwise. -/
def lookUp (request : ExportRequest) (tables : Tables) (r : Result) (missing : Phase) : Outcome :=
  match rawPayloadHashForSource tables.rawPayloadSources (request.sourceKey r) with
  | some rawPayloadHash => proceed tables (.linked rawPayloadHash)
  | none => proceed tables missing

def failureText (translationId : String) (p : PolledTranslation) : String :=
  "Onshape translation " ++ translationId ++ " failed: " ++
    p.failureReason.getD p.finalResponseJson

def unresumable (t : TranslationRecord) : String :=
  "persisted Onshape translation " ++ t.translationId ++ " is not resumable: " ++ t.state ++
    (t.failureReason.map fun reason => ": " ++ reason).getD ""

def rawPayloadRow (inspection : Inspection) (d : DownloadedExternalData)
    (zipManifestJson : Option String) : RawPayloadRecord where
  rawPayloadHash := inspection.hexSha256 d.bytes
  objectKey := rawPayloadObjectKey (inspection.hexSha256 d.bytes)
  contentType := d.contentType
  byteLen := d.bytes.length
  headersJson := d.responseHeadersJson
  originalFilename := d.originalFilename
  filenameSource := d.filenameSource
  detectedKind := inspection.detectKind d.bytes
  zipManifestJson := zipManifestJson

def sourceRow (inspection : Inspection) (request : ExportRequest) (r : Result)
    (d : DownloadedExternalData) : RawPayloadSource where
  requestHash := request.requestHash
  translationId := some r.translationId
  externalDataId := some r.externalDataId
  resultIndex := some 0
  responseHeadersJson := d.responseHeadersJson
  etag := d.etag
  rawPayloadHash := inspection.hexSha256 d.bytes

variable (inspection : Inspection) (request : ExportRequest)

/-- The next step of an execution: one statement, or one call and what follows it. -/
def advance (now : Timestamp) (answers : Answers) (tables : Tables) : Phase → Outcome
  | .idle =>
    match latestCompletedTranslationForRequest request.requestHash tables.translations with
    | some t => proceed tables (.found t)
    | none => proceed tables .unfinished
  | .found t =>
    match persistedResultExternalDataId text t with
    | .error e => finish tables (.error e)
    | .ok externalDataId => lookUp request tables ⟨t.translationId, externalDataId⟩ (.resuming t)
  | .resuming t =>
    if t.state ≠ "DONE" then finish tables (.error (unresumable t))
    else
      match persistedResultExternalDataId text t with
      | .error e => finish tables (.error e)
      | .ok externalDataId =>
        let r : Result := ⟨t.translationId, externalDataId⟩
        lookUp request tables r (.downloading r)
  | .unfinished =>
    match latestTranslationForRequest request.requestHash tables.translations with
    | none => proceed tables .starting
    | some t =>
      if t.finalResponseJson.isSome then proceed tables .starting
      else proceed tables (.polling t.translationId (t.startResponseJson.getD "\x7b\x7d") false)
  | .starting =>
    let issued : Event := .startIssued (ofRequest request.requestHash tables.translations)
    match answers.start >>= parseStartedTranslation text request.operation with
    | .error e => ⟨.idle, tables, [issued, .returned (.error e)]⟩
    | .ok s => ⟨.started s, tables, [issued]⟩
  | .started s =>
    proceed { tables with
      translations := insertTranslationStart now request.requestHash s tables.translations }
      (.polling s.translationId s.responseJson true)
  | .polling translationId startResponseJson fresh =>
    let answer : Except String (PolledTranslation × String) := do
      let p ← pollTranslation text (← request.document) pollAttempts answers.polls
      let responseHash ← translationResponseHash text digests translationId startResponseJson
        p.finalResponseJson p.pollStateJson
      return (p, responseHash)
    match answer with
    | .error e => finish tables (.error e)
    | .ok (p, responseHash) => proceed tables (.polled translationId p responseHash fresh)
  | .polled translationId p responseHash fresh =>
    let tables := { tables with
      translations := updateTranslationFinal text now translationId p responseHash
        tables.translations }
    let recorded : Event := .finalRecorded translationId p.state
    if p.state ≠ "DONE" then
      ⟨.idle, tables, [recorded, .returned (.error (failureText translationId p))]⟩
    else
      match p.singleExternalDataId with
      | .error e => ⟨.idle, tables, [recorded, .returned (.error e)]⟩
      | .ok externalDataId =>
        -- a translation of this execution has no payload that could be linked
        let r : Result := ⟨translationId, externalDataId⟩
        ⟨if fresh then .downloading r else .checking r, tables, [recorded]⟩
  | .checking r => lookUp request tables r (.downloading r)
  | .downloading r =>
    match request.document, answers.download with
    | .error e, _ => finish tables (.error e)
    | .ok _, .error e => finish tables (.error e)
    | .ok _, .ok d => proceed tables (.storing r d)
  | .storing r d =>
    match inspection.zipInventory d.bytes, answers.put with
    | .error e, _ => finish tables (.error e)
    | .ok _, .error e => finish tables (.error e)
    | .ok zipManifestJson, .ok _ => proceed tables (.inserting r d zipManifestJson)
  | .inserting r d zipManifestJson =>
    match insertRawPayloadIfAbsent (rawPayloadRow inspection d zipManifestJson)
      tables.rawPayloads with
    | none => finish tables (.error "UNIQUE constraint failed: raw_payloads.object_key")
    | some rawPayloads => proceed { tables with rawPayloads := rawPayloads } (.linking r d)
  | .linking r d =>
    let row := sourceRow inspection request r d
    match tables.rawPayloadSources.insert? row with
    | some rawPayloadSources =>
      finish { tables with rawPayloadSources := rawPayloadSources } (.ok row.rawPayloadHash)
    | none => proceed tables (.comparing r row.rawPayloadHash)
  | .comparing r rawPayloadHash =>
    if rawPayloadHashForSource tables.rawPayloadSources (request.sourceKey r) =
        some rawPayloadHash then
      finish tables (.ok rawPayloadHash)
    else
      finish tables
        (.error "raw payload source mapping already exists with a different payload hash")
  | .linked rawPayloadHash =>
    if (tables.rawPayloads.find? rawPayloadHash).isSome then finish tables (.ok rawPayloadHash)
    else finish tables (.error
      ("raw payload source mapping points to missing payload record " ++ rawPayloadHash))

structure World where
  clock : Timestamp
  tables : Tables
  phase : Phase
  log : List Event

/-- The execution takes a step, the first one when there is none, or it stops where it is. -/
inductive Op where
  | advance (now : Timestamp) (answers : Answers)
  | crash

/-- The clock of the database moves on from statement to statement. -/
def Op.After (clock : Timestamp) : Op → Prop
  | .advance now _ => clock < now
  | .crash => True

def step (w : World) : Op → World
  | .advance now answers =>
    let o := advance text digests inspection request now answers w.tables w.phase
    ⟨now, o.tables, o.phase, w.log ++ o.events⟩
  | .crash => { w with phase := .idle }

end Translations
end OnshapeExport
