import OnshapeExport.EncodingAgreement
import OnshapeExport.PlanAcceptance

/-!
# Planning

`plan_selection` of `onshape_selection.rs`: a request with its stored encoding is planned from the
answers of Onshape. The stored encodings are those of `configuration_encoding.rs`.

* `validateHandoff` — the stored encoding a request refers to.
* `planSelection` — the version, the encoding, the responses, and the plan of them.
* `planSelection_ok` — what a plan has in common with its request.
-/

namespace OnshapeExport

/-! ## The stored encoding -/

namespace Encoding

open CacheKey CacheModel Checks Json OnshapeApi Relational Selection

def validateShape (handoff : EncodingHandoff) : Except ApiFailure Unit :=
  ensure (isSha256 handoff.sourceHash = true ∧ isSha256 handoff.configHash = true ∧
      isSha256 handoff.encodingContextHash = true ∧ boundedVisibleAscii handoff.encodedId = true)
    (.new .invalidSelection "invalid_encoding_handoff")

def handoffKey (handoff : EncodingHandoff) : EncodingKey :=
  ⟨handoff.sourceHash, handoff.configHash, handoff.encodingContextHash⟩

section Handoff

variable (digests : Digests) (hashes : ExportHashes)
  (canonicalOrigin : String → Except ApiFailure String) (origin : String)

def validateHandoff (db : Database) (source : ResolvedOnshapeSourceIdentity)
    (handoff : EncodingHandoff) : Except ApiFailure Unit := do
  validateShape handoff
  let typed ← storedTypedValues digests db handoff.sourceHash handoff.configHash
  let e ← expected digests hashes canonicalOrigin origin source typed
  ensure (handoffKey handoff = e.key) (failure "encoding_handoff_binding_mismatch")
  match db.encodings.find? e.key with
  | none => throw (failure "encoding_handoff_cache_missing")
  | some record =>
    let validated ← validateRecord digests record e false
    ensure (validated.handoff = handoff) (failure "encoding_handoff_encoded_id_mismatch")

variable {digests hashes canonicalOrigin origin}

theorem expected_context {source : ResolvedOnshapeSourceIdentity} {typed : TypedValues}
    {e : Expected} (h : expected digests hashes canonicalOrigin origin source typed = .ok e) :
    context canonicalOrigin origin source = .ok e.context := by
  obtain ⟨-, h⟩ := seq_ok.mp h
  obtain ⟨-, -, h⟩ := bind_ok.mp h
  obtain ⟨c, hc, h⟩ := bind_ok.mp h
  obtain ⟨-, -, h⟩ := bind_ok.mp h
  cases h
  exact hc

theorem validateRecord_context {record : ConfigurationEncodingRecord} {e : Expected}
    {requireQuery : Bool} {r : EncodingResolution}
    (h : validateRecord digests record e requireQuery = .ok r) :
    parseJson digests.text record.encodingContextJson evidenceLimit =
        .ok (EncodingContext.codec.enc e.context) ∧
      EncodingContext.codec.dec (EncodingContext.codec.enc e.context) = some e.context := by
  obtain ⟨storedContext, hparse, h⟩ := bind_ok.mp h
  split at h
  · cases h
  · rename_i decoded hdecoded
    split at h
    · cases h
    · rename_i hsame
      simp only [not_or, not_not] at hsame
      obtain ⟨hdec, hstored, -⟩ := hsame
      rw [hstored] at hparse hdecoded
      rw [hdec] at hdecoded
      exact ⟨hparse, hdecoded⟩

/-- An accepted handoff has a row whose context is the one of its source. -/
theorem validateHandoff_ok {db : Database} {source : ResolvedOnshapeSourceIdentity}
    {handoff : EncodingHandoff}
    (h : validateHandoff digests hashes canonicalOrigin origin db source handoff = .ok ()) :
    ∃ record c, db.encodings.find? (handoffKey handoff) = some record ∧
      context canonicalOrigin origin source = .ok c ∧
      parseJson digests.text record.encodingContextJson evidenceLimit =
        .ok (EncodingContext.codec.enc c) ∧
      EncodingContext.codec.dec (EncodingContext.codec.enc c) = some c := by
  obtain ⟨-, h⟩ := seq_ok.mp h
  obtain ⟨typed, -, h⟩ := bind_ok.mp h
  obtain ⟨e, he, h⟩ := bind_ok.mp h
  obtain ⟨hkey, h⟩ := seq_ok.mp h
  rw [ensure_ok.mp hkey]
  split at h
  · cases h
  · rename_i record hrow
    obtain ⟨validated, hvalid, -⟩ := bind_ok.mp h
    obtain ⟨hparse, hdec⟩ := validateRecord_context hvalid
    exact ⟨record, e.context, hrow, expected_context he, hparse, hdec⟩

end Handoff

end Encoding

/-! ## The planner -/

namespace Selection

open Annotation CacheKey CacheModel Catalogs Checks Encoding Json OnshapeApi

def requiredAscii (obj : Members) (field : String) : Except ApiFailure String :=
  match (get? obj field).bind asStr with
  | some value =>
    if boundedVisibleAscii value then .ok value
    else .error (operational "invalid_required_source_value")
  | none => .error (operational "invalid_required_source_value")

/-- What Onshape answers during one run. A run asks nothing twice. -/
structure Onshape where
  version (documentId versionId : String) : Except ApiFailure Value
  parts (document microversion element configuration : String) : Except ApiFailure Value
  assembly (document microversion element configuration : String) : Except ApiFailure Value

def resolveVersion (onshape : Onshape) (documentId versionId : String) :
    Except ApiFailure String := do
  match ← onshape.version documentId versionId with
  | .object members =>
    let document ← (requiredAscii members "documentId").mapError (·.operation "getVersion")
    let version ← (requiredAscii members "id").mapError (·.operation "getVersion")
    let microversion ← (requiredAscii members "microversion").mapError (·.operation "getVersion")
    ensure (document = documentId ∧ version = versionId)
      ((operational "version_resource_mismatch").operation "getVersion")
    return microversion
  | _ => throw ((operational "invalid_version").operation "getVersion")

def positionIfMissing (e : ApiFailure) (position : Nat) : ApiFailure :=
  { e with diagnostics := e.diagnostics.map fun d =>
      { d with selectorPosition := d.selectorPosition.or (some position) } }

def SelectionElementKind.catalogKind : SelectionElementKind → ElementKind
  | .partStudio => .partStudio
  | .assembly => .assembly

def requestSource (request : SelectionRequest) (microversion : String) :
    ResolvedOnshapeSourceIdentity where
  documentId := request.documentId
  versionId := request.versionId
  microversionId := microversion
  elementId := request.elementId
  elementKind := request.elementKind.catalogKind
  linkDocumentId := none

/-- The carriers of an assembly, each asked for when the ones before it are resolved. -/
def askCarriers (onshape : Onshape) : List CarrierGroup → List Candidate →
    Except ApiFailure (List Candidate)
  | [], candidates => .ok candidates
  | group :: groups, candidates => do
    let key := group.key
    let first := group.positions.headD 0
    let response ← (onshape.parts key.documentId key.microversion key.elementId
      key.configuration).mapError (·.position first)
    let candidates ← (resolveCarrier response group candidates).mapError fun e =>
      (positionIfMissing e first).operation "getPartsWMVE"
    askCarriers onshape groups candidates

def resolveSelection (onshape : Onshape) (request : SelectionRequest) (microversion : String) :
    Except ApiFailure (SelectionRoot × List Candidate) :=
  let configuration := request.configurationEncoding.encodedId
  match request.elementKind with
  | .partStudio => do
    let response ← onshape.parts request.documentId microversion request.elementId configuration
    (resolvePartStudio request microversion response).mapError (·.operation "getPartsWMVE")
  | .assembly => do
    let response ← onshape.assembly request.documentId microversion request.elementId configuration
    let assembly ← (resolveAssembly request microversion response).mapError
      (·.operation "getAssemblyDefinition")
    let candidates ← askCarriers onshape assembly.carriers assembly.candidates
    return (assembly.root, candidates)

section Planner

variable (digests : Digests) (sizes : Sizes) (hashes : ExportHashes)
  (canonicalOrigin : String → Except ApiFailure String) (origin : String)

def planSelection (db : Database) (onshape : Onshape) (request : SelectionRequest) :
    Except ApiFailure ResolvedSelectionPlan := do
  request.preflight
  let microversion ← resolveVersion onshape request.documentId request.versionId
  validateHandoff digests hashes canonicalOrigin origin db (requestSource request microversion)
    request.configurationEncoding
  let (root, candidates) ← resolveSelection onshape request microversion
  constructPlan digests sizes root candidates

end Planner

/-! ## What a plan has in common with its request -/

/-- A selector of a plan is for the selector of the request. -/
def selects : AuthoringSelector → SelectionSelector → Bool
  | .partStudioPart _ _ _ _ partId, .part selected => partId = selected
  | .assemblyOccurrence _ _ _ _ path, .occurrence selected => path = selected
  | _, _ => false

/-- The root is that of the request, and the candidates are for its selectors in their order. -/
structure Projects (request : SelectionRequest) (mid : String) (root : SelectionRoot)
    (candidates : List Candidate) : Prop where
  root : ∃ configuration, root = Selection.root request mid configuration
  selectors : List.Forall₂ (fun (c : AuthoringSelector) s => selects c s = true)
    (candidates.map Candidate.selector) request.selectors

theorem requiredAscii_ok {obj : Members} {field value : String}
    (h : requiredAscii obj field = .ok value) : boundedVisibleAscii value = true := by
  unfold requiredAscii at h
  split at h
  · split at h
    · rename_i hb
      cases h
      exact hb
    · cases h
  · cases h

theorem resolveVersion_ok {onshape : Onshape} {documentId versionId mid : String}
    (h : resolveVersion onshape documentId versionId = .ok mid) :
    boundedVisibleAscii mid = true := by
  obtain ⟨value, -, h⟩ := bind_ok.mp h
  split at h
  · obtain ⟨document, -, h⟩ := bind_ok.mp h
    obtain ⟨version, -, h⟩ := bind_ok.mp h
    obtain ⟨microversion, hm, h⟩ := bind_ok.mp h
    obtain ⟨-, h⟩ := seq_ok.mp h
    cases h
    exact requiredAscii_ok (mapError_ok.mp hm)
  · cases h

/-- Every row of an index is there under its own key. -/
theorem indexRows_key {κ : Type} [DecidableEq κ] {key : Members → Except ApiFailure κ}
    {rows : List Value} {index result : List (κ × Members)}
    (hi : ∀ entry ∈ index, key entry.2 = .ok entry.1) (h : indexRows key index rows = .ok result) :
    ∀ entry ∈ result, key entry.2 = .ok entry.1 := by
  induction rows generalizing index with
  | nil =>
    cases h
    exact hi
  | cons row rows ih =>
    obtain ⟨obj, -, h⟩ := bind_ok.mp h
    obtain ⟨k, hk, h⟩ := bind_ok.mp h
    obtain ⟨-, h⟩ := seq_ok.mp h
    refine ih ?_ h
    intro entry he
    obtain he | he := List.mem_append.mp he
    · exact hi entry he
    · rw [List.mem_singleton.mp he]
      exact hk

theorem lookupRow_key {κ : Type} [DecidableEq κ] {key : Members → Except ApiFailure κ}
    {rows : List Value} {index : List (κ × Members)} (h : indexRows key [] rows = .ok index)
    {k : κ} {obj : Members} (hl : lookupRow index k = some obj) : key obj = .ok k := by
  obtain ⟨entry, hfind, rfl⟩ := Option.map_eq_some_iff.mp hl
  have hk : entry.1 = k := by simpa using List.find?_some hfind
  rw [← hk]
  exact indexRows_key (by simp) h entry (List.mem_of_find?_eq_some hfind)

theorem forall₂_of_getElem? {α β : Type} {R : α → β → Prop} {as : List α} {bs : List β}
    (hl : as.length = bs.length)
    (h : ∀ (i : Nat) (a : α) (b : β), as[i]? = some a → bs[i]? = some b → R a b) : List.Forall₂ R as bs := by
  refine List.forall₂_iff_get.mpr ⟨hl, fun i ha hb => ?_⟩
  exact h i _ _ (List.getElem?_eq_getElem ha) (List.getElem?_eq_getElem hb)

theorem resolvePartStudio_projects {request : SelectionRequest} {mid : String} {response : Value}
    {root : SelectionRoot} {candidates : List Candidate}
    (h : resolvePartStudio request mid response = .ok (root, candidates)) :
    Projects request mid root candidates := by
  obtain ⟨rows, -, h⟩ := bind_ok.mp h
  obtain ⟨index, hindex, h⟩ := bind_ok.mp h
  obtain ⟨selected, hselected, h⟩ := bind_ok.mp h
  obtain ⟨identities, hidentities, h⟩ := bind_ok.mp h
  obtain ⟨-, h⟩ := seq_ok.mp h
  obtain ⟨states, -, h⟩ := bind_ok.mp h
  obtain ⟨-, h⟩ := seq_ok.mp h
  obtain ⟨made, hmade, h⟩ := bind_ok.mp h
  cases h
  have hlen := traverse_length hselected
  have hlen' := traverse_length hidentities
  have hmadeLen := traverse_length hmade
  rw [List.length_zip] at hmadeLen
  refine ⟨⟨_, rfl⟩, forall₂_of_getElem? (by rw [List.length_map]; omega) ?_⟩
  intro i selector s hi hs
  rw [List.getElem?_map, Option.map_eq_some_iff] at hi
  obtain ⟨c, hc, rfl⟩ := hi
  obtain ⟨⟨obj, configuration⟩, hzip, hf⟩ := traverse_getElem? hmade hc
  obtain ⟨hobj, -⟩ := List.getElem?_zip_eq_some.mp hzip
  obtain ⟨s', hs', hrow⟩ := traverse_getElem? hselected hobj
  rw [hs] at hs'
  obtain rfl := Option.some.inj hs'
  obtain ⟨name, -, hf⟩ := bind_ok.mp hf
  obtain ⟨description, -, hf⟩ := bind_ok.mp hf
  obtain ⟨partId, hpart, hf⟩ := bind_ok.mp hf
  cases hf
  cases s with
  | occurrence path => cases hrow
  | part selectedId =>
    simp only at hrow
    split at hrow
    · rename_i found hfound
      cases hrow
      have hkey := lookupRow_key hindex hfound
      rw [hpart] at hkey
      simpa [selects, partSelector] using Except.ok.inj hkey
    · cases hrow

theorem resolveAssembly_projects {request : SelectionRequest} {mid : String} {response : Value}
    {assembly : AssemblyResolution} (h : resolveAssembly request mid response = .ok assembly) :
    Projects request mid assembly.root assembly.candidates := by
  obtain ⟨envelope, -, h⟩ := bind_ok.mp h
  obtain ⟨row, -, h⟩ := bind_ok.mp h
  obtain ⟨d, -, h⟩ := bind_ok.mp h
  obtain ⟨m, -, h⟩ := bind_ok.mp h
  obtain ⟨e, -, h⟩ := bind_ok.mp h
  obtain ⟨configuration, -, h⟩ := bind_ok.mp h
  obtain ⟨instances, -, h⟩ := bind_ok.mp h
  obtain ⟨occurrences, -, h⟩ := bind_ok.mp h
  obtain ⟨-, -, h⟩ := bind_ok.mp h
  obtain ⟨-, -, h⟩ := bind_ok.mp h
  obtain ⟨parts, -, h⟩ := bind_ok.mp h
  obtain ⟨-, h⟩ := seq_ok.mp h
  obtain ⟨instanceIndex, -, h⟩ := bind_ok.mp h
  obtain ⟨occurrenceIndex, -, h⟩ := bind_ok.mp h
  obtain ⟨exclusions, -, h⟩ := bind_ok.mp h
  obtain ⟨selected, hselected, h⟩ := bind_ok.mp h
  obtain ⟨paths, hpaths, h⟩ := bind_ok.mp h
  obtain ⟨-, h⟩ := seq_ok.mp h
  obtain ⟨⟨leaves, matrices⟩, hprojected, h⟩ := bind_ok.mp h
  obtain ⟨-, h⟩ := seq_ok.mp h
  cases h
  have hlen := joinSelected_length hselected
  have hpathsLen := traverse_length hpaths
  obtain ⟨hleavesLen, hmatricesLen, -, -⟩ := projectSelected_ok hprojected
  refine ⟨⟨_, rfl⟩, forall₂_of_getElem? ?_ ?_⟩
  · rw [List.length_map, List.length_map, List.length_zip, List.length_zip]
    omega
  intro i selector s hi hs
  rw [List.map_map, List.getElem?_map, Option.map_eq_some_iff] at hi
  obtain ⟨⟨path, leaf, matrix⟩, hzip, rfl⟩ := hi
  obtain ⟨hpath, -⟩ := List.getElem?_zip_eq_some.mp hzip
  obtain ⟨s', hs', hf⟩ := traverse_getElem? hpaths hpath
  rw [hs] at hs'
  obtain rfl := Option.some.inj hs'
  cases s with
  | part partId => cases hf
  | occurrence selectedPath =>
    cases hf
    simp [selects]

theorem askCarriers_core {onshape : Onshape} {groups : List CarrierGroup}
    {candidates candidates' : List Candidate}
    (h : askCarriers onshape groups candidates = .ok candidates') :
    candidates'.map Candidate.core = candidates.map Candidate.core := by
  induction groups generalizing candidates with
  | nil =>
    cases h
    rfl
  | cons group groups ih =>
    obtain ⟨response, -, h⟩ := bind_ok.mp h
    obtain ⟨next, hnext, h⟩ := bind_ok.mp h
    rw [ih h, resolveCarrier_core (mapError_ok.mp hnext)]

theorem Projects.of_core {request : SelectionRequest} {mid : String} {root : SelectionRoot}
    {candidates candidates' : List Candidate} (h : Projects request mid root candidates)
    (hcore : candidates'.map Candidate.core = candidates.map Candidate.core) :
    Projects request mid root candidates' := by
  have hselectors := congrArg (List.map fun c : ConfiguredLeaf × AuthoringSelector ×
    PlacementMatrix => c.2.1) hcore
  simp only [List.map_map] at hselectors
  exact ⟨h.root, hselectors ▸ h.selectors⟩

variable {digests : Digests} {sizes : Sizes} {hashes : ExportHashes}
  {canonicalOrigin : String → Except ApiFailure String} {origin : String}

theorem resolveSelection_ok {onshape : Onshape} {request : SelectionRequest} {mid : String}
    {root : SelectionRoot} {candidates : List Candidate} (hp : request.preflight = .ok ())
    (hmid : boundedVisibleAscii mid = true)
    (h : resolveSelection onshape request mid = .ok (root, candidates)) :
    Resolves digests request root candidates ∧ Projects request mid root candidates := by
  unfold resolveSelection at h
  split at h
  · obtain ⟨response, -, h⟩ := bind_ok.mp h
    rw [mapError_ok] at h
    exact ⟨resolvePartStudio_sound hp hmid h, resolvePartStudio_projects h⟩
  · obtain ⟨response, -, h⟩ := bind_ok.mp h
    obtain ⟨assembly, hassembly, h⟩ := bind_ok.mp h
    obtain ⟨made, hmade, h⟩ := bind_ok.mp h
    cases h
    rw [mapError_ok] at hassembly
    have hcore := askCarriers_core hmade
    exact ⟨(resolveAssembly_sound hp hmid hassembly).of_core hcore,
      (resolveAssembly_projects hassembly).of_core hcore⟩

/-- A plan is for the document, the version, the element and the selectors of its request, its
encoding is stored for it, and it is built of sound candidates. -/
theorem planSelection_ok {db : Database} {onshape : Onshape} {request : SelectionRequest}
    {plan : ResolvedSelectionPlan}
    (h : planSelection digests sizes hashes canonicalOrigin origin db onshape request =
      .ok plan) :
    ∃ mid root candidates, request.preflight = .ok () ∧ boundedVisibleAscii mid = true ∧
      validateHandoff digests hashes canonicalOrigin origin db (requestSource request mid)
        request.configurationEncoding = .ok () ∧
      Resolves digests request root candidates ∧ Projects request mid root candidates ∧
      constructPlan digests sizes root candidates = .ok plan := by
  obtain ⟨hp, h⟩ := seq_ok.mp h
  obtain ⟨mid, hmid, h⟩ := bind_ok.mp h
  obtain ⟨hhandoff, h⟩ := seq_ok.mp h
  obtain ⟨⟨root, candidates⟩, hresolved, h⟩ := bind_ok.mp h
  have hmid := resolveVersion_ok hmid
  have hsound : Resolves digests request root candidates ∧ Projects request mid root candidates :=
    resolveSelection_ok hp hmid hresolved
  obtain ⟨hresolves, hprojects⟩ := hsound
  exact ⟨mid, root, candidates, hp, hmid, hhandoff, hresolves, hprojects, h⟩

end Selection
end OnshapeExport
