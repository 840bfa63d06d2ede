import OnshapeExport.ConfigurationEncoding
import OnshapeExport.Lib.Trace

/-!
# EncodingAgreement

`resolve`, `resolve_for_hashes` and `resolve_for_export` of `configuration_encoding.rs`, called by
any number of callers at once. A call stops between any two statements and requests; a statement
may fail, or take effect while its answer is lost. A call that is never stepped again has crashed.

* `Call.advance` — one statement or request of one call.
* `advance_inv`  — what a call relies on is kept by its own step, and `CallInv.mono` by the others.
* `encoding_agreement` — the stored evidence is written once, every success is about it, and only
  a call that saw none asks for an encoding.
-/

namespace OnshapeExport
namespace Encoding

open CacheKey CacheModel Catalogs Json OnshapeApi Relational Selection

structure Database where
  encodings : Table ConfigurationEncodingRecord
  selections : Table ConfigurationSelection

inductive Entry where
  | resolve (source : OnshapeSource) (typed : TypedValues)
  | resolveForHashes (source : OnshapeSource) (typed : TypedValues)
      (sourceHash configHash : String)
  | resolveForExport (source : OnshapeSource) (resolved : ResolvedOnshapeSourceIdentity)
      (typed : TypedValues) (sourceHash configHash : String)

def Entry.source : Entry → OnshapeSource
  | .resolve source _ => source
  | .resolveForHashes source _ _ _ => source
  | .resolveForExport source _ _ _ _ => source

def Entry.typed : Entry → TypedValues
  | .resolve _ typed => typed
  | .resolveForHashes _ typed _ _ => typed
  | .resolveForExport _ _ typed _ _ => typed

/-- The hashes the caller is bound to. -/
def Entry.bound : Entry → Option (String × String)
  | .resolve _ _ => none
  | .resolveForHashes _ _ sourceHash configHash => some (sourceHash, configHash)
  | .resolveForExport _ _ _ sourceHash configHash => some (sourceHash, configHash)

def Entry.requireQuery : Entry → Bool
  | .resolve _ _ => false
  | _ => true

/-- The evidence the typed selection is retained for. -/
inductive Found where
  | hit (validated : EncodingResolution)
  | fresh (record : ConfigurationEncodingRecord) (validated : EncodingResolution)

/-- What a call does next. -/
inductive Phase where
  | exportRead (e : Expected)
  | version
  | read (e : Expected)
  | encode (e : Expected)
  | retain (e : Expected) (found : Found)
  | reread (e : Expected) (found : Found)
  | insert (e : Expected) (record : ConfigurationEncodingRecord) (validated : EncodingResolution)
  | winner (e : Expected) (validated : EncodingResolution)
  | done (result : Except ApiFailure EncodingResolution)

inductive Event where
  | read (row : Option ConfigurationEncodingRecord)
  | encode

structure Call where
  entry : Entry
  phase : Phase
  /-- The rows read and the encodings asked for, the last one first. -/
  log : List Event

inductive Statement where
  | answered | lost | failed
deriving DecidableEq

/-- What the world answers to a call. -/
inductive Answer where
  | version (microversion : Except ApiFailure String)
  | encode (response : Except ApiFailure Value)
  | statement (s : Statement)

section Calls

variable (digests : Digests) (hashes : ExportHashes)
  (canonicalOrigin : String → Except ApiFailure String) (origin : String)

/-- The checks of `resolve_inner` before it resolves the version. -/
def coordinate (entry : Entry) : Phase :=
  let source := entry.source
  match validateTypedValues entry.typed with
  | .error e => .done (.error e)
  | .ok () =>
    match parseJson digests.text (canonicalJson digests (typedCodec.enc entry.typed))
      evidenceLimit with
    | .error e => .done (.error e)
    | .ok _ =>
      if source.linkDocumentId.isSome || !([source.documentId, source.versionId,
          source.elementId].all boundedVisibleAscii) then
        .done (.error (failure "invalid_encoding_source"))
      else .version

def begin (entry : Entry) : Phase :=
  match entry with
  | .resolveForExport source resolved typed sourceHash configHash =>
    if resolved.documentId ≠ source.documentId ∨ resolved.versionId ≠ source.versionId ∨
        resolved.elementId ≠ source.elementId ∨
        resolved.elementKind.key ≠ source.elementKind.key ∨
        resolved.linkDocumentId ≠ source.linkDocumentId then
      .done (.error (failure "encoding_export_source_mismatch"))
    else
      match expected digests hashes canonicalOrigin origin resolved typed with
      | .error e => .done (.error e)
      | .ok e =>
        if e.sourceHash ≠ sourceHash ∨ e.configHash ≠ configHash then
          .done (.error (failure "encoding_export_binding_mismatch"))
        else .exportRead e
  | entry => coordinate digests entry

def resolvedSource (source : OnshapeSource) (microversion : String) :
    ResolvedOnshapeSourceIdentity where
  documentId := source.documentId
  versionId := source.versionId
  microversionId := microversion
  elementId := source.elementId
  elementKind := source.elementKind
  linkDocumentId := none

def selectionOf (e : Expected) (typed : TypedValues) : ConfigurationSelection where
  sourceHash := e.sourceHash
  configHash := e.configHash
  valuesJson := canonicalJson digests (typedCodec.enc typed)
  validationJson := canonicalJson digests (.ofFields
    [("parameterSchemaVersion", .number (.int parameterSchemaVersion)),
     ("requestValues", .object ((encodingRequestValues typed).map fun m => (m.1, .string m.2)))])

def storedTypedValues (db : Database) (sourceHash configHash : String) :
    Except ApiFailure TypedValues :=
  match db.selections.find? (sourceHash, configHash) with
  | none => .error (failure "encoding_selection_missing")
  | some selection => do
    let raw ← parseJson digests.text selection.valuesJson evidenceLimit
    match typedCodec.dec raw with
    | none => .error (failure "invalid_encoding_typed_values")
    | some typed =>
      if typedCodec.enc typed ≠ raw then .error (failure "invalid_encoding_typed_values")
      else .ok typed

/-- The row that a fresh response makes. -/
def freshRecord (e : Expected) (identity : EncodedConfigurationIdentity) (response : Value) :
    ConfigurationEncodingRecord where
  sourceHash := e.sourceHash
  configHash := e.configHash
  encodingContextHash := e.contextHash
  encodingContextJson := canonicalJson digests (EncodingContext.codec.enc e.context)
  encodedId := identity.encodedId
  queryParam := identity.queryParam
  requestJson := canonicalJson digests e.request
  responseJson := canonicalJson digests response

def Call.to (c : Call) (phase : Phase) : Call := { c with phase := phase }

def Call.fail (c : Call) (code : String) : Call := c.to (.done (.error (failure code)))

def Call.note (c : Call) (e : Event) : Call := { c with log := e :: c.log }

/-- A row that is there is validated, and nothing else is tried. -/
def Call.found (c : Call) (e : Expected) (row : ConfigurationEncodingRecord) : Call :=
  match validateRecord digests row e c.entry.requireQuery with
  | .error err => c.to (.done (.error err))
  | .ok validated => c.to (.retain e (.hit validated))

/-- One statement or request of a call. -/
def Call.advance (c : Call) (db : Database) (answer : Answer) : Call × Database :=
  match c.phase, answer with
  | .exportRead e, .statement .answered =>
    let row := db.encodings.find? e.key
    let c := c.note (.read row)
    match row with
    | some row => (c.found digests e row, db)
    | none => (c.to (coordinate digests c.entry), db)
  | .exportRead _, .statement _ => (c.fail "encoding_cache_read_failed", db)
  | .version, .version (.error err) => (c.to (.done (.error err)), db)
  | .version, .version (.ok microversion) =>
    match expected digests hashes canonicalOrigin origin
      (resolvedSource c.entry.source microversion) c.entry.typed with
    | .error err => (c.to (.done (.error err)), db)
    | .ok e =>
      if ∃ b ∈ c.entry.bound, e.sourceHash ≠ b.1 ∨ e.configHash ≠ b.2 then
        (c.fail "encoding_coordinator_binding_mismatch", db)
      else (c.to (.read e), db)
  | .read e, .statement .answered =>
    let row := db.encodings.find? e.key
    let c := c.note (.read row)
    match row with
    | some row => (c.found digests e row, db)
    | none => (c.to (.encode e), db)
  | .read _, .statement _ => (c.fail "encoding_cache_read_failed", db)
  | .encode e, .encode response =>
    let c := c.note .encode
    match response with
    | .error err => (c.to (.done (.error err)), db)
    | .ok response =>
      match responseIdentity response c.entry.requireQuery with
      | .error err => (c.to (.done (.error err)), db)
      | .ok identity =>
        let record := freshRecord digests e identity response
        -- fresh evidence passes the check of stored evidence before it is stored
        match validateRecord digests record e c.entry.requireQuery with
        | .error err => (c.to (.done (.error err)), db)
        | .ok validated => (c.to (.retain e (.fresh record validated)), db)
  | .retain e found, .statement s =>
    let selections :=
      if s = .failed then db.selections
      else (db.selections.insertOrIgnore (selectionOf digests e c.entry.typed)).2
    let db := { db with selections := selections }
    if s = .answered then (c.to (.reread e found), db)
    else (c.fail "encoding_selection_insert_failed", db)
  | .reread e found, .statement .answered =>
    match storedTypedValues digests db e.sourceHash e.configHash with
    | .error err => (c.to (.done (.error err)), db)
    | .ok typed =>
      if typed ≠ c.entry.typed then (c.fail "encoding_selection_evidence_conflict", db)
      else
        match found with
        | .hit validated => (c.to (.done (.ok validated)), db)
        | .fresh record validated => (c.to (.insert e record validated), db)
  | .reread _ _, .statement _ => (c.fail "encoding_selection_read_failed", db)
  | .insert e record validated, .statement s =>
    let r := db.encodings.insertOrIgnore record
    let db := if s = .failed then db else { db with encodings := r.2 }
    if s = .answered then
      if r.1 then (c.to (.done (.ok validated)), db) else (c.to (.winner e validated), db)
    else (c.fail "encoding_cache_insert_failed", db)
  | .winner e validated, .statement .answered =>
    let row := db.encodings.find? e.key
    let c := c.note (.read row)
    match row with
    | none => (c.fail "encoding_cache_conflict_missing", db)
    | some row =>
      match validateRecord digests row e c.entry.requireQuery with
      | .error err => (c.to (.done (.error err)), db)
      | .ok winner =>
        if winner.handoff.encodedId ≠ validated.handoff.encodedId ∨
            (c.entry.requireQuery ∧ winner.identity.queryParam ≠ validated.identity.queryParam)
        then (c.fail "encoding_concurrent_evidence_conflict", db)
        else (c.to (.done (.ok winner)), db)
  | .winner _ _, .statement _ => (c.fail "encoding_cache_read_failed", db)
  | _, _ => (c, db)

structure World where
  db : Database
  calls : List Call

inductive Op where
  | start (entry : Entry)
  | step (call : Nat) (answer : Answer)

def step (w : World) : Op → World
  | .start entry =>
    { w with calls := w.calls ++
        [⟨entry, begin digests hashes canonicalOrigin origin entry, []⟩] }
  | .step i answer =>
    match w.calls[i]? with
    | none => w
    | some c =>
      let (c, db) := c.advance digests hashes canonicalOrigin origin w.db answer
      ⟨db, w.calls.set i c⟩

/-! ## What a call relies on -/

/-- Stored evidence stays as it is. -/
def Grows (db db' : Database) : Prop :=
  ∀ key row, db.encodings.find? key = some row → db'.encodings.find? key = some row

theorem Grows.refl (db : Database) : Grows db db := fun _ _ h => h

theorem Grows.trans {db db' db'' : Database} (h : Grows db db') (h' : Grows db' db'') :
    Grows db db'' := fun key row hr => h' key row (h key row hr)

/-- What is expected was recomputed from the arguments of the call, for some microversion of its
element. -/
def Recomputed (entry : Entry) (e : Expected) : Prop :=
  ∃ resolved : ResolvedOnshapeSourceIdentity,
    resolved.documentId = entry.source.documentId ∧
      resolved.versionId = entry.source.versionId ∧
      resolved.elementId = entry.source.elementId ∧
      resolved.elementKind = entry.source.elementKind ∧
      expected digests hashes canonicalOrigin origin resolved entry.typed = .ok e

/-- The stored row of the key passes the check of the call and gives this resolution. -/
def Stored (db : Database) (entry : Entry) (e : Expected) (v : EncodingResolution) : Prop :=
  ∃ row, db.encodings.find? e.key = some row ∧
    validateRecord digests row e entry.requireQuery = .ok v

def FoundInv (db : Database) (entry : Entry) (e : Expected) : Found → Prop
  | .hit v => Stored digests db entry e v
  | .fresh record v => validateRecord digests record e entry.requireQuery = .ok v

def PhaseInv (db : Database) (entry : Entry) : Phase → Prop
  | .exportRead e | .read e | .encode e | .winner e _ =>
    Recomputed digests hashes canonicalOrigin origin entry e
  | .retain e found | .reread e found =>
    Recomputed digests hashes canonicalOrigin origin entry e ∧ FoundInv digests db entry e found
  | .insert e record v =>
    Recomputed digests hashes canonicalOrigin origin entry e ∧
      FoundInv digests db entry e (.fresh record v)
  | .done (.ok v) =>
    ∃ e, Recomputed digests hashes canonicalOrigin origin entry e ∧ Stored digests db entry e v
  | .version | .done (.error _) => True

/-- The phases from which an encoding may still be asked for. -/
def Phase.MayEncode : Phase → Prop
  | .exportRead _ | .version | .read _ | .encode _ => True
  | _ => False

def NoRow (log : List Event) : Prop := ∀ row, .read (some row) ∉ log

/-- No encoding was asked for after a row had been read. -/
def EncodesUnseen (log : List Event) : Prop :=
  ∀ newer older, log = newer ++ .encode :: older → NoRow older

structure CallInv (db : Database) (c : Call) : Prop where
  phase : PhaseInv digests hashes canonicalOrigin origin db c.entry c.phase
  unseen : c.phase.MayEncode → NoRow c.log
  encodes : EncodesUnseen c.log

variable {digests hashes canonicalOrigin origin}

theorem Stored.mono {db db' : Database} (hg : Grows db db') {entry : Entry} {e : Expected}
    {v : EncodingResolution} (h : Stored digests db entry e v) : Stored digests db' entry e v := by
  obtain ⟨row, hrow, hv⟩ := h
  exact ⟨row, hg _ _ hrow, hv⟩

theorem FoundInv.mono {db db' : Database} (hg : Grows db db') {entry : Entry} {e : Expected}
    {found : Found} (h : FoundInv digests db entry e found) : FoundInv digests db' entry e found := by
  cases found with
  | hit v => exact Stored.mono hg h
  | fresh record v => exact h

/-- The steps of the other calls leave a call what it relies on. -/
theorem CallInv.mono {db db' : Database} (hg : Grows db db') {c : Call}
    (h : CallInv digests hashes canonicalOrigin origin db c) :
    CallInv digests hashes canonicalOrigin origin db' c := by
  refine ⟨?_, h.unseen, h.encodes⟩
  have hp := h.phase
  cases hc : c.phase with
  | exportRead e => rw [hc] at hp; exact hp
  | version => trivial
  | read e => rw [hc] at hp; exact hp
  | encode e => rw [hc] at hp; exact hp
  | retain e found => rw [hc] at hp; exact ⟨hp.1, hp.2.mono hg⟩
  | reread e found => rw [hc] at hp; exact ⟨hp.1, hp.2.mono hg⟩
  | insert e record v => rw [hc] at hp; exact hp
  | winner e v => rw [hc] at hp; exact hp
  | done result =>
    cases result with
    | error e => trivial
    | ok v =>
      rw [hc] at hp
      obtain ⟨e, he, hs⟩ := hp
      exact ⟨e, he, hs.mono hg⟩

theorem encodesUnseen_read {log : List Event} (h : EncodesUnseen log)
    (row : Option ConfigurationEncodingRecord) : EncodesUnseen (.read row :: log) := by
  intro newer older he
  cases newer with
  | nil => cases he
  | cons e newer => exact h newer older (List.cons.inj he).2

theorem encodesUnseen_encode {log : List Event} (h : EncodesUnseen log) (hn : NoRow log) :
    EncodesUnseen (.encode :: log) := by
  intro newer older he
  cases newer with
  | nil => rw [← (List.cons.inj he).2]; exact hn
  | cons e newer => exact h newer older (List.cons.inj he).2

theorem noRow_read_none {log : List Event} (h : NoRow log) : NoRow (.read none :: log) := by
  intro row hm
  obtain hm | hm := List.mem_cons.mp hm
  · cases hm
  · exact h row hm

section Advance

variable {db : Database} {c : Call} {e : Expected}

/-- A call that ended with an error relies on nothing. -/
theorem inv_error {err : ApiFailure} (hl : EncodesUnseen c.log) :
    CallInv digests hashes canonicalOrigin origin db (c.to (.done (.error err))) :=
  ⟨trivial, fun h => h.elim, hl⟩

theorem inv_found {row : ConfigurationEncodingRecord}
    (he : Recomputed digests hashes canonicalOrigin origin c.entry e)
    (hrow : db.encodings.find? e.key = some row) (hl : EncodesUnseen c.log) :
    CallInv digests hashes canonicalOrigin origin db (c.found digests e row) := by
  unfold Call.found
  split
  · exact inv_error hl
  · rename_i v hv
    exact ⟨⟨he, row, hrow, hv⟩, fun h => h.elim, hl⟩

theorem inv_coordinate (hn : NoRow c.log) (hl : EncodesUnseen c.log) :
    CallInv digests hashes canonicalOrigin origin db (c.to (coordinate digests c.entry)) := by
  simp only [coordinate]
  split
  · exact inv_error hl
  · split
    · exact inv_error hl
    · split
      · exact inv_error hl
      · exact ⟨trivial, fun _ => hn, hl⟩

theorem inv_begin (entry : Entry) : CallInv digests hashes canonicalOrigin origin db
    ⟨entry, begin digests hashes canonicalOrigin origin entry, []⟩ := by
  have hn : NoRow [] := fun _ h => by cases h
  have hl : EncodesUnseen [] := fun newer _ he => by cases newer <;> cases he
  cases entry with
  | resolve source typed => exact inv_coordinate (c := ⟨.resolve source typed, .version, []⟩) hn hl
  | resolveForHashes source typed sourceHash configHash =>
    exact inv_coordinate
      (c := ⟨.resolveForHashes source typed sourceHash configHash, .version, []⟩) hn hl
  | resolveForExport source resolved typed sourceHash configHash =>
    have herr : ∀ err, CallInv digests hashes canonicalOrigin origin db
        ⟨.resolveForExport source resolved typed sourceHash configHash, .done (.error err), []⟩ :=
      fun _ => ⟨trivial, fun h => h.elim, hl⟩
    simp only [begin]
    split
    · exact herr _
    · rename_i hsource
      simp only [not_or, not_not] at hsource
      obtain ⟨hd, hv, he, hk, -⟩ := hsource
      split
      · exact herr _
      · rename_i e hexp
        split
        · exact herr _
        · refine ⟨⟨resolved, hd, hv, he, ?_, hexp⟩, fun _ => hn, hl⟩
          revert hk
          simp only [Entry.source]
          cases resolved.elementKind <;> cases source.elementKind <;> simp [ElementKind.key]

theorem grows_insert {record : ConfigurationEncodingRecord} :
    Grows db { db with encodings := (db.encodings.insertOrIgnore record).2 } :=
  fun _ _ h => Table.find?_insertOrIgnore h

/-- What an insertion that went through leaves: the row was not there, and is now. -/
theorem find?_of_inserted {record : ConfigurationEncodingRecord}
    (h : (db.encodings.insertOrIgnore record).1 = true) :
    (db.encodings.insertOrIgnore record).2.find? record.key = some record := by
  obtain ⟨h1, h2⟩ := Table.insertOrIgnore_keyed (fun _ _ hc => hc) db.encodings record
  have hnone : db.encodings.find? record.key = none := by
    rw [h1] at h
    exact Option.isNone_iff_eq_none.mp h
  have h := h2 record.key
  rw [if_pos (show Schema.key record = record.key from rfl), hnone] at h
  exact h

/-- One step of a call keeps the stored evidence and what the call relies on. -/
theorem advance_inv (answer : Answer)
    (h : CallInv digests hashes canonicalOrigin origin db c) :
    Grows db (c.advance digests hashes canonicalOrigin origin db answer).2 ∧
      CallInv digests hashes canonicalOrigin origin
        (c.advance digests hashes canonicalOrigin origin db answer).2
        (c.advance digests hashes canonicalOrigin origin db answer).1 := by
  obtain ⟨hp, hu, hl⟩ := h
  unfold Call.advance
  split
  · -- `resolve_for_export` looks for active evidence first
    rename_i e hc
    rw [hc] at hp hu
    have hn : NoRow c.log := hu trivial
    refine ⟨?_, ?_⟩
    · dsimp only; split <;> exact Grows.refl db
    · dsimp only
      split
      · rename_i row hrow
        exact inv_found hp hrow (encodesUnseen_read hl _)
      · rename_i hrow
        rw [hrow]
        exact inv_coordinate (noRow_read_none hn) (encodesUnseen_read hl _)
  · exact ⟨Grows.refl db, inv_error hl⟩
  · exact ⟨Grows.refl db, inv_error hl⟩
  · -- the version is resolved, and everything expected is recomputed
    rename_i microversion hc
    rw [hc] at hu
    split
    · exact ⟨Grows.refl db, inv_error hl⟩
    · rename_i e hexp
      split
      · exact ⟨Grows.refl db, inv_error hl⟩
      · exact ⟨Grows.refl db, ⟨_, rfl, rfl, rfl, rfl, hexp⟩, fun _ => hu trivial, hl⟩
  · rename_i e hc
    rw [hc] at hp hu
    have hn : NoRow c.log := hu trivial
    refine ⟨?_, ?_⟩
    · dsimp only; split <;> exact Grows.refl db
    · dsimp only
      split
      · rename_i row hrow
        exact inv_found hp hrow (encodesUnseen_read hl _)
      · rename_i hrow
        rw [hrow]
        exact ⟨hp, fun _ => noRow_read_none hn, encodesUnseen_read hl _⟩
  · exact ⟨Grows.refl db, inv_error hl⟩
  · -- the encoding is asked for: no row has been read so far
    rename_i e response hc
    rw [hc] at hp hu
    have hl' : EncodesUnseen (c.note .encode).log := encodesUnseen_encode hl (hu trivial)
    dsimp only
    split
    · exact ⟨Grows.refl db, inv_error hl'⟩
    · split
      · exact ⟨Grows.refl db, inv_error hl'⟩
      · split
        · exact ⟨Grows.refl db, inv_error hl'⟩
        · rename_i v hv
          exact ⟨Grows.refl db, ⟨hp, hv⟩, fun h => h.elim, hl'⟩
  · -- the typed selection is retained
    rename_i e found s hc
    rw [hc] at hp
    dsimp only
    split
    · exact ⟨Grows.refl db, ⟨hp.1, hp.2.mono (Grows.refl db)⟩, fun h => h.elim, hl⟩
    · exact ⟨Grows.refl db, inv_error hl⟩
  · rename_i e found hc
    rw [hc] at hp
    split
    · exact ⟨Grows.refl db, inv_error hl⟩
    · split
      · exact ⟨Grows.refl db, inv_error hl⟩
      · split
        · exact ⟨Grows.refl db, ⟨e, hp⟩, fun h => h.elim, hl⟩
        · exact ⟨Grows.refl db, hp, fun h => h.elim, hl⟩
  · exact ⟨Grows.refl db, inv_error hl⟩
  · -- the row is inserted unless another call was faster
    rename_i e record v s hc
    rw [hc] at hp
    obtain ⟨he, hv⟩ := hp
    have hg : Grows db (if s = .failed then db
        else { db with encodings := (db.encodings.insertOrIgnore record).2 }) := by
      split
      · exact Grows.refl db
      · exact grows_insert
    dsimp only
    split
    · rename_i hs
      subst hs
      split
      · rename_i hi
        refine ⟨hg, ⟨e, he, record, ?_, hv⟩, fun h => h.elim, hl⟩
        rw [← (validateRecord_ok digests hv).1]
        exact find?_of_inserted hi
      · exact ⟨hg, he, fun h => h.elim, hl⟩
    · exact ⟨hg, inv_error hl⟩
  · -- the winner's row is read back
    rename_i e v hc
    rw [hc] at hp
    dsimp only
    split
    · exact ⟨Grows.refl db, inv_error (encodesUnseen_read hl _)⟩
    · rename_i row hrow
      split
      · exact ⟨Grows.refl db, inv_error (encodesUnseen_read hl _)⟩
      · rename_i winner hw
        split
        · exact ⟨Grows.refl db, inv_error (encodesUnseen_read hl _)⟩
        · exact ⟨Grows.refl db, ⟨e, hp, row, hrow, hw⟩, fun h => h.elim,
            encodesUnseen_read hl _⟩
  · exact ⟨Grows.refl db, inv_error hl⟩
  · exact ⟨Grows.refl db, hp, hu, hl⟩

end Advance

/-! ## Runs -/

variable (digests hashes canonicalOrigin origin) in
def WorldInv (w : World) : Prop :=
  ∀ c ∈ w.calls, CallInv digests hashes canonicalOrigin origin w.db c

theorem step_grows (w : World) (op : Op) (h : WorldInv digests hashes canonicalOrigin origin w) :
    Grows w.db (step digests hashes canonicalOrigin origin w op).db ∧
      WorldInv digests hashes canonicalOrigin origin
        (step digests hashes canonicalOrigin origin w op) := by
  cases op with
  | start entry =>
    refine ⟨Grows.refl w.db, fun c hc => ?_⟩
    obtain hc | hc := List.mem_append.mp hc
    · exact h c hc
    · rw [List.mem_singleton.mp hc]
      exact inv_begin entry
  | step i answer =>
    unfold step
    dsimp only
    split
    · exact ⟨Grows.refl w.db, h⟩
    · rename_i c hi
      obtain ⟨hg, hc⟩ := advance_inv answer (h c (List.mem_of_getElem? hi))
      refine ⟨hg, fun c' hc' => ?_⟩
      obtain hc' | rfl := List.mem_or_eq_of_mem_set hc'
      · exact (h c' hc').mono hg
      · exact hc

variable (digests hashes canonicalOrigin origin) in
/-- The evidence of `configuration_encoding.rs` under any interleaving of any number of calls,
over any stored rows: a stored row is never overwritten; a success is about the stored row of its
key, which passes the check against what the call recomputes; successes of one key agree; and an
encoding is asked for only by a call that has seen no row. -/
theorem encoding_agreement (db : Database) (ops : List Op) :
    let w := Trace.run (step digests hashes canonicalOrigin origin) ⟨db, []⟩ ops
    (∀ later key row, w.db.encodings.find? key = some row →
        (Trace.run (step digests hashes canonicalOrigin origin) w later).db.encodings.find? key =
          some row) ∧
      (∀ c ∈ w.calls, ∀ v, c.phase = .done (.ok v) →
        ∃ e row, Recomputed digests hashes canonicalOrigin origin c.entry e ∧ v.key = e.key ∧
          w.db.encodings.find? v.key = some row ∧
          validateRecord digests row e c.entry.requireQuery = .ok v ∧
          v.handoff.encodedId = row.encodedId) ∧
      (∀ c ∈ w.calls, ∀ c' ∈ w.calls, ∀ v v', c.phase = .done (.ok v) →
        c'.phase = .done (.ok v') → v.key = v'.key →
          v.handoff.encodedId = v'.handoff.encodedId) ∧
      ∀ c ∈ w.calls, EncodesUnseen c.log := by
  intro w
  have hinv : WorldInv digests hashes canonicalOrigin origin w :=
    Trace.run_inv (fun c hc => by cases hc) (fun w op h => (step_grows w op h).2) ops
  have hsuccess : ∀ c ∈ w.calls, ∀ v, c.phase = .done (.ok v) →
      ∃ e row, Recomputed digests hashes canonicalOrigin origin c.entry e ∧ v.key = e.key ∧
        w.db.encodings.find? v.key = some row ∧
        validateRecord digests row e c.entry.requireQuery = .ok v ∧
        v.handoff.encodedId = row.encodedId := by
    intro c hc v hv
    have hp := (hinv c hc).phase
    rw [hv] at hp
    obtain ⟨e, he, row, hrow, hvalid⟩ := hp
    obtain ⟨-, hkey, hid⟩ := validateRecord_ok digests hvalid
    exact ⟨e, row, he, hkey, by rw [hkey]; exact hrow, hvalid, hid⟩
  refine ⟨?_, hsuccess, ?_, fun c hc => (hinv c hc).encodes⟩
  · intro later key row hrow
    have hboth : Grows w.db (Trace.run (step digests hashes canonicalOrigin origin) w later).db ∧
        WorldInv digests hashes canonicalOrigin origin
          (Trace.run (step digests hashes canonicalOrigin origin) w later) := by
      refine Trace.run_inv (I := fun w' => Grows w.db w'.db ∧
        WorldInv digests hashes canonicalOrigin origin w') ⟨Grows.refl w.db, hinv⟩ ?_ later
      intro w' op h
      obtain ⟨hg, hw⟩ := step_grows w' op h.2
      exact ⟨h.1.trans hg, hw⟩
    exact hboth.1 key row hrow
  · intro c hc c' hc' v v' hv hv' hkey
    obtain ⟨-, row, -, -, hrow, -, hid⟩ := hsuccess c hc v hv
    obtain ⟨-, row', -, -, hrow', -, hid'⟩ := hsuccess c' hc' v' hv'
    rw [hkey, hrow'] at hrow
    rw [hid, hid', Option.some.inj hrow]

end Calls

end Encoding
end OnshapeExport
