import OnshapeExport.ExportIntegrity
import OnshapeExport.TranslationResume

/-!
# ExportSoundness

What every call leaves behind for the next one, wherever it stops: a translation that can be picked
up, payloads that are stored before they are on record, and files of known sets. It takes an
Onshape whose finished translations have one result, and a bucket that nobody else writes to.

* `Resumable`, `PayloadStored`, `FilesKnown` — the three facts.
* `Sound` — what holds of the tables and the bucket; `work_sound` is that a step keeps it.
* `run_sound` — it holds after every run.
-/

namespace OnshapeExport
namespace Pipeline

open Artifacts CacheModel Checks ContentStore Exports ExportQueue Json Postprocess Preview
open Relational Trace Translations

/-! ## Translations -/

def Readable (text : JsonText) (json : String) : Prop := (text.read json).isSome

instance (text : JsonText) (json : String) : Decidable (Readable text json) :=
  inferInstanceAs (Decidable (_ = true))

/-- A translation that is completed has one result, and one that is not can be polled. -/
structure Resumable (text : JsonText) (row : TranslationRecord) : Prop where
  started : ∃ json, row.startResponseJson = some json ∧ Readable text json
  result : completed row = true →
    ∃ externalDataId, persistedResultExternalDataId text row = .ok externalDataId

/-- What Onshape answers: a translation that is started is not done, and one that is done has one
result. -/
structure Regular (text : JsonText) (replies : Replies) : Prop where
  start : ∀ operation s, replies.start >>= parseStartedTranslation text operation = .ok s →
    Readable text s.responseJson ∧ s.state ≠ "DONE"
  polls : ∀ documentId p,
    pollTranslation text documentId pollAttempts replies.polls = .ok p → p.state = "DONE" →
      ∃ externalDataId, p.resultExternalDataIds = [externalDataId]

/-- What a fetch has seen to. -/
def ResumeFact (text : JsonText) : Translations.Phase → Prop
  | .started s => Readable text s.responseJson ∧ s.state ≠ "DONE"
  | .polled _ p _ _ => p.state = "DONE" →
      ∃ externalDataId, p.resultExternalDataIds = [externalDataId]
  | _ => True

section Translations

variable {text : JsonText} {t : Translations.Tables} {now : Timestamp}

theorem resumable_started {requestHash : String} {s : StartedTranslation}
    (hs : Readable text s.responseJson ∧ s.state ≠ "DONE")
    (h : ∀ row ∈ t.translations.rows, Resumable text row) :
    ∀ row ∈ (insertTranslationStart now requestHash s t.translations).rows,
      Resumable text row := by
  intro row hrow
  unfold insertTranslationStart at hrow
  split at hrow
  · rename_i translations hinsert
    rw [(Table.insert?_eq_some hinsert).1, List.mem_append, List.mem_singleton] at hrow
    rcases hrow with hrow | rfl
    · exact h row hrow
    · exact ⟨⟨_, rfl, hs.1⟩, fun hdone => by simp [completed, startedRow] at hdone⟩
  · obtain ⟨old, hold, rfl⟩ := Table.mem_update.mp hrow
    split
    · refine ⟨⟨_, rfl, hs.1⟩, fun hdone => ?_⟩
      simp [completed, restartedRow, hs.2] at hdone
    · exact h old hold

theorem singleExternalDataId_ok {p : PolledTranslation} {externalDataId : String}
    (h : p.resultExternalDataIds = [externalDataId]) :
    p.singleExternalDataId = .ok externalDataId := by
  simp only [PolledTranslation.singleExternalDataId, h]

theorem resumable_polled (ht : text.Faithful) (now : Timestamp)
    (translationId responseHash : String)
    {p : PolledTranslation}
    (hp : p.state = "DONE" → ∃ externalDataId, p.resultExternalDataIds = [externalDataId])
    (h : ∀ row ∈ t.translations.rows, Resumable text row) :
    ∀ row ∈ (updateTranslationFinal text now translationId p responseHash t.translations).rows,
      Resumable text row := by
  intro row hrow
  obtain ⟨old, hold, rfl⟩ := Table.mem_update.mp hrow
  split
  · refine ⟨(h old hold).started, fun hdone => ?_⟩
    have hstate : p.state = "DONE" := by
      simp only [completed, finalRow, Bool.and_eq_true] at hdone
      exact of_decide_eq_true hdone.1
    obtain ⟨externalDataId, hids⟩ := hp hstate
    exact ⟨externalDataId, persisted_finalRow ht (singleExternalDataId_ok hids)⟩
  · exact h old hold

/-- A step of a fetch leaves translations that can be picked up. -/
theorem advance_resumable {c : Setup} (now : Timestamp) (request : Translations.ExportRequest)
    {replies : Replies}
    {phase : Translations.Phase} (ht : c.text.Faithful) (hregular : Regular c.text replies)
    (hphase : ResumeFact c.text phase) (h : ∀ row ∈ t.translations.rows, Resumable c.text row) :
    let o := advance c.text c.digests c.inspection request now replies.answers t phase
    (∀ row ∈ o.tables.translations.rows, Resumable c.text row) ∧ ResumeFact c.text o.phase := by
  have hlookUp : ∀ {result missing}, ResumeFact c.text missing →
      (∀ row ∈ (lookUp request t result missing).tables.translations.rows,
        Resumable c.text row) ∧ ResumeFact c.text (lookUp request t result missing).phase := by
    intro result missing hmissing
    unfold lookUp
    split
    · exact ⟨h, trivial⟩
    · exact ⟨h, hmissing⟩
  cases phase with
  | idle =>
    simp only [advance]
    split <;> exact ⟨h, trivial⟩
  | found translation =>
    simp only [advance]
    split
    · exact ⟨h, trivial⟩
    · exact hlookUp trivial
  | resuming translation =>
    simp only [advance]
    split
    · exact ⟨h, trivial⟩
    · split
      · exact ⟨h, trivial⟩
      · exact hlookUp trivial
  | unfinished =>
    simp only [advance]
    split
    · exact ⟨h, trivial⟩
    · split <;> exact ⟨h, trivial⟩
  | starting =>
    simp only [advance]
    split
    · exact ⟨h, trivial⟩
    · rename_i s hs
      exact ⟨h, hregular.start _ s hs⟩
  | started s => exact ⟨resumable_started hphase h, trivial⟩
  | polling translationId startResponseJson fresh =>
    simp only [advance]
    split
    · exact ⟨h, trivial⟩
    · rename_i p responseHash hpolled
      refine ⟨h, fun hdone => ?_⟩
      obtain ⟨documentId, -, hpolled⟩ := bind_ok.mp hpolled
      obtain ⟨p', hpoll, hpolled⟩ := bind_ok.mp hpolled
      obtain ⟨hash, -, hpolled⟩ := bind_ok.mp hpolled
      cases hpolled
      exact hregular.polls documentId p hpoll hdone
  | polled translationId p responseHash fresh =>
    have hrows := resumable_polled ht now translationId responseHash hphase h
    simp only [advance]
    split
    · exact ⟨hrows, trivial⟩
    · split
      · exact ⟨hrows, trivial⟩
      · refine ⟨hrows, ?_⟩
        split <;> trivial
  | checking result => exact hlookUp trivial
  | downloading result =>
    simp only [advance]
    split <;> exact ⟨h, trivial⟩
  | storing result d =>
    simp only [advance]
    split <;> exact ⟨h, trivial⟩
  | inserting result d zipManifestJson =>
    simp only [advance]
    split <;> exact ⟨h, trivial⟩
  | linking result d =>
    simp only [advance]
    split <;> exact ⟨h, trivial⟩
  | comparing result rawPayloadHash =>
    simp only [advance]
    split <;> exact ⟨h, trivial⟩
  | linked rawPayloadHash =>
    simp only [advance]
    split <;> exact ⟨h, trivial⟩

end Translations

/-! ## Payloads -/

/-- The bytes of the payload are stored under its key. -/
def PayloadStored (c : Setup) (bucket : Bucket) (rawPayloadHash : String) : Prop :=
  ∃ object, bucket (rawPayloadObjectKey rawPayloadHash) = some object ∧
    c.hexSha256 object.bytes = rawPayloadHash

def KeepsPayloads (c : Setup) (bucket bucket' : Bucket) : Prop :=
  ∀ rawPayloadHash, PayloadStored c bucket rawPayloadHash → PayloadStored c bucket' rawPayloadHash

/-- A payload is stored before it is put on record. -/
def StoreFact (c : Setup) (bucket : Bucket) : Translations.Phase → Prop
  | .inserting _ d _ => PayloadStored c bucket (c.hexSha256 (bytesOf d.bytes))
  | _ => True

theorem payloadPath_injective (before between after : String) :
    Function.Injective fun h : String =>
      before ++ String.ofList (h.toList.take 2) ++ between ++ h ++ after := by
  intro a b h
  have hl := congrArg String.toList h
  simp only [String.toList_append, String.toList_ofList, List.append_assoc] at hl
  have hrest := List.append_cancel_left hl
  have hlength : a.toList.length = b.toList.length := by
    have hlengths := congrArg List.length hrest
    simp only [List.length_append, List.length_take] at hlengths
    omega
  have htake : (a.toList.take 2).length = (b.toList.take 2).length := by
    rw [List.length_take, List.length_take, hlength]
  have hpayload := List.append_cancel_left (List.append_inj hrest htake).2
  exact String.toList_injective (List.append_cancel_right hpayload)

theorem rawPayloadObjectKey_injective : Function.Injective rawPayloadObjectKey :=
  payloadPath_injective "onshape/raw/v2/" "/" "/payload.bin"

section Payloads

variable {c : Setup} {bucket bucket' : Bucket}

theorem keepsPayloads_refl : KeepsPayloads c bucket bucket := fun _ h => h

theorem StoreFact.keep {phase : Translations.Phase} (h : StoreFact c bucket phase)
    (hk : KeepsPayloads c bucket bucket') : StoreFact c bucket' phase := by
  cases phase with
  | inserting result d zipManifestJson => exact hk _ h
  | _ => trivial

theorem keepsPayloads_served {put : PutReply} {key : String} {object : StoredObject}
    (hkey : Served key) : KeepsPayloads c bucket (putBytes put key object bucket) := by
  rintro hash ⟨stored, hstored, hhash⟩
  refine ⟨stored, ?_, hhash⟩
  have hne : rawPayloadObjectKey hash ≠ key := by
    rintro rfl
    exact rawPayloadObjectKey_not_served hash hkey
  unfold putBytes
  split
  · rw [Store.put, write_of_ne _ hne]
    exact hstored
  · exact hstored

/-- Another write of a payload is of the same bytes, or of bytes with the same hash. -/
theorem keepsPayloads_payload {put : PutReply} (d : DownloadedExternalData) :
    KeepsPayloads c bucket (putBytes put (rawPayloadObjectKey (c.hexSha256 (bytesOf d.bytes)))
      (payloadObject d) bucket) := by
  rintro hash ⟨stored, hstored, hhash⟩
  unfold putBytes
  split
  · by_cases he : rawPayloadObjectKey hash =
        rawPayloadObjectKey (c.hexSha256 (bytesOf d.bytes))
    · refine ⟨payloadObject d, ?_, (rawPayloadObjectKey_injective he).symm⟩
      rw [he]
      exact put_self _ _ _
    · refine ⟨stored, ?_, hhash⟩
      rw [Store.put, write_of_ne _ he]
      exact hstored
  · exact ⟨stored, hstored, hhash⟩

theorem fetchedBucket_keeps {replies : Replies} {phase : Translations.Phase} :
    KeepsPayloads c bucket (fetchedBucket c replies phase bucket) := by
  unfold fetchedBucket
  split
  · split
    · exact keepsPayloads_refl
    · exact keepsPayloads_payload _
  · exact keepsPayloads_refl

/-- Only an insertion puts a payload on record. -/
theorem advance_rawPayloads {request : Translations.ExportRequest} {now : Timestamp}
    {answers : Answers} {t : Translations.Tables} {phase : Translations.Phase}
    (h : ∀ result d zipManifestJson, phase ≠ .inserting result d zipManifestJson) :
    (advance c.text c.digests c.inspection request now answers t phase).tables.rawPayloads =
      t.rawPayloads := by
  cases phase <;> simp only [advance, lookUp, proceed, Translations.finish]
  case inserting => exact absurd rfl (h _ _ _)
  all_goals repeat' split
  all_goals rfl

theorem mem_insertRawPayload {row a : RawPayloadRecord} {t t' : Table RawPayloadRecord}
    (h : insertRawPayloadIfAbsent row t = some t') (ha : a ∈ t'.rows) : a ∈ t.rows ∨ a = row := by
  unfold insertRawPayloadIfAbsent at h
  split at h
  · cases h
    exact .inl ha
  · rw [(Table.insert?_eq_some h).1, List.mem_append, List.mem_singleton] at ha
    exact ha

theorem advance_payloads (request : Translations.ExportRequest) (now : Timestamp)
    (answers : Answers) {t : Translations.Tables} {phase : Translations.Phase}
    (hphase : StoreFact c bucket phase)
    (h : ∀ row ∈ t.rawPayloads.rows, PayloadStored c bucket row.rawPayloadHash) :
    ∀ row ∈ (advance c.text c.digests c.inspection request now answers t
      phase).tables.rawPayloads.rows, PayloadStored c bucket row.rawPayloadHash := by
  by_cases hinserting : ∃ result d zipManifestJson, phase = .inserting result d zipManifestJson
  · obtain ⟨result, d, zipManifestJson, rfl⟩ := hinserting
    simp only [advance]
    split
    · exact h
    · rename_i rawPayloads hinsert
      intro row hrow
      rcases mem_insertRawPayload hinsert hrow with hold | rfl
      · exact h row hold
      · exact hphase
  · rw [advance_rawPayloads fun result d zipManifestJson he =>
      hinserting ⟨result, d, zipManifestJson, he⟩]
    exact h

/-- What follows on the write of a payload. -/
theorem fetched_storeFact {request : Translations.ExportRequest} {replies : Replies}
    {t : Translations.Tables} {phase : Translations.Phase} :
    StoreFact c (fetchedBucket c replies phase bucket)
      (advance c.text c.digests c.inspection request replies.now replies.answers t phase).phase := by
  cases phase with
  | storing result d =>
    simp only [advance]
    split
    · trivial
    · trivial
    · rename_i zipManifestJson _ hzip hput
      have hwritten : replies.put.written = true := by
        cases hreply : replies.put with
        | stored => rfl
        | failed written error =>
          simp only [Replies.answers, PutReply.result, hreply] at hput
          cases hput
      have hinventory : c.zipInventoryJson (bytesOf d.bytes) = .ok zipManifestJson := hzip
      refine ⟨payloadObject d, ?_, rfl⟩
      simp only [fetchedBucket, hinventory, putBytes, hwritten, if_true]
      exact put_self _ _ _
  | _ =>
    simp only [advance, lookUp, proceed, Translations.finish]
    repeat' split
    all_goals trivial

end Payloads

/-! ## Files -/

/-- A file on record is of a set on record. -/
def FilesKnown (t : ArtifactTables) : Prop :=
  ∀ f ∈ t.files.rows, (t.sets.find? f.artifactSetHash).isSome

section Files

variable {t t' : ArtifactTables}

theorem filesKnown_updateSets {q : ArtifactSet → Bool} {f : ArtifactSet → ArtifactSet}
    {hf : Preserves f} (h : FilesKnown t) : FilesKnown (t.updateSets q f hf) := by
  intro file hfile
  rw [find?_updateSets, Option.isSome_map]
  exact h file hfile

theorem publishes_filesKnown {now : Timestamp} {p : Publishing.Publication}
    {phase phase' : Publishing.Phase} {stmt : Publishing.Stmt}
    (hp : Publishing.Publishes now p t phase stmt phase' t') (h : FilesKnown t) :
    FilesKnown t' := by
  cases hp with
  | staged hstage =>
    obtain ⟨-, hstage⟩ := stageArtifact_ok hstage
    obtain ⟨hsets, -, hrows⟩ := stageArtifactInner_ok hstage
    intro file hfile
    rw [hsets]
    split
    · rfl
    · rename_i hkey
      rw [hrows, List.mem_append, List.mem_filter] at hfile
      rcases hfile with hfile | hfile
      · exact h file hfile.1
      · exact absurd (p.ownFiles file hfile) hkey
  | marked => exact filesKnown_updateSets h
  | recorded => exact filesKnown_updateSets h
  | superseded => exact filesKnown_updateSets h
  | rejected => exact h
  | uploaded => exact h
  | broken => exact h
  | crashed => exact h
  | waits => exact h

end Files

/-! ## The invariant -/

/-- What a call has seen to besides. -/
def PhaseSound (c : Setup) (bucket : Bucket) : Phase → Prop
  | .fetching phase => ResumeFact c.text phase ∧ StoreFact c bucket phase
  | _ => True

structure Sound (c : Setup) (s : Shared) : Prop where
  translations : ∀ row ∈ s.tables.translations.rows, Resumable c.text row
  payloads : ∀ row ∈ s.tables.rawPayloads.rows, PayloadStored c s.bucket row.rawPayloadHash
  files : FilesKnown s.artifacts

structure Leaves (c : Setup) (s : Shared) (phase' : Phase) (s' : Shared) : Prop where
  sound : Sound c s'
  keeps : KeepsPayloads c s.bucket s'.bucket
  phase : PhaseSound c s'.bucket phase'

section Calls

variable {c : Setup} {D : String → List UInt8 → Prop} {J : Refresh → Prop} {r : Refresh}
  {s s' : Shared} {phase phase' : Phase} {replies : Replies}

theorem PhaseSound.keep {bucket bucket' : Bucket} (h : PhaseSound c bucket phase)
    (hk : KeepsPayloads c bucket bucket') : PhaseSound c bucket' phase := by
  cases phase with
  | fetching phase => exact ⟨h.1, h.2.keep hk⟩
  | _ => trivial

theorem Sound.of_keeps (h : Sound c s) (htables : s'.tables = s.tables)
    (hfiles : FilesKnown s'.artifacts) (hkeeps : KeepsPayloads c s.bucket s'.bucket) :
    Sound c s' :=
  ⟨by rw [htables]; exact h.translations,
    fun row hrow => hkeeps _ (h.payloads row (by rwa [htables] at hrow)), hfiles⟩

theorem Leaves.quiet (h : Sound c s) (htables : s'.tables = s.tables)
    (hartifacts : s'.artifacts = s.artifacts) (hbucket : s'.bucket = s.bucket)
    (hphase : PhaseSound c s.bucket phase') : Leaves c s phase' s' := by
  have hkeeps : KeepsPayloads c s.bucket s'.bucket := by
    rw [hbucket]
    exact keepsPayloads_refl
  refine ⟨h.of_keeps htables (by rw [hartifacts]; exact h.files) hkeeps, hkeeps, ?_⟩
  exact hphase.keep hkeeps

theorem fetch_leaves {translation : Translations.Phase} (ht : c.text.Faithful)
    (hregular : Regular c.text replies) (h : Sound c s)
    (hphase : PhaseSound c s.bucket (.fetching translation)) :
    Leaves c s (fetch c replies r s translation).1 (fetch c replies r s translation).2 := by
  obtain ⟨hresume, hstore⟩ := hphase
  have hkeeps : KeepsPayloads c s.bucket (fetchedBucket c replies translation s.bucket) :=
    fetchedBucket_keeps
  have hresumable := advance_resumable replies.now (r.request c) ht hregular
    hresume h.translations
  have hpayloads := advance_payloads (r.request c) replies.now replies.answers (hstore.keep hkeeps) fun row hrow => hkeeps _ (h.payloads row hrow)
  refine ⟨⟨hresumable.1, hpayloads, h.files⟩, hkeeps, ?_⟩
  simp only [fetch, afterFetch]
  split
  · trivial
  · trivial
  · exact ⟨hresumable.2, fetched_storeFact⟩

theorem publishStep_keeps (replies : Replies) (r : Refresh) (s : Shared) (rawPayloadHash : String)
    (d : Derived) (upload : Upload) :
    KeepsPayloads c s.bucket (publishStep c replies r s rawPayloadHash d upload).2.bucket := by
  cases upload with
  | staging =>
    simp only [publishStep]
    split <;> exact keepsPayloads_refl
  | uploading done =>
    simp only [publishStep]
    split
    · exact keepsPayloads_refl
    · split <;> exact keepsPayloads_served served_objectKey
  | verifying done =>
    simp only [publishStep]
    split
    · exact keepsPayloads_refl
    · split <;> exact keepsPayloads_refl
  | failing error => exact keepsPayloads_refl
  | superseding => exact keepsPayloads_refl

theorem work_leaves (replies : Replies) (ht : c.text.Faithful) (hregular : Regular c.text replies) (h : Sound c s)
    (hfact : WorkFact c D s.tables r phase) (hphase : PhaseSound c s.bucket phase) :
    Leaves c s (work c replies r s phase).1 (work c replies r s phase).2 := by
  cases phase with
  | requested =>
    simp only [work]
    split
    · exact .quiet h rfl rfl rfl ⟨trivial, trivial⟩
    · exact .quiet h rfl rfl rfl trivial
  | fetching translation => exact fetch_leaves ht hregular h hphase
  | recording hash => exact .quiet h rfl rfl rfl trivial
  | loading hash =>
    simp only [work]
    split <;> exact .quiet h rfl rfl rfl trivial
  | reading hash objectKey =>
    simp only [work]
    split <;> exact .quiet h rfl rfl rfl trivial
  | transitioning hash derived =>
    simp only [work]
    split <;> exact .quiet h rfl rfl rfl trivial
  | publishing hash d upload =>
    obtain ⟨-, -, hwithin⟩ := hfact
    have hstep := publishStep_publishes (c := c) replies r s hash hwithin
    obtain ⟨stmt, hstatement⟩ := hstep.statement
    have hkeeps := publishStep_keeps (c := c) replies r s hash d upload
    refine ⟨h.of_keeps hstep.tables (publishes_filesKnown hstatement h.files) hkeeps, hkeeps, ?_⟩
    rcases hstep.goesOn with ⟨upload', hphase', -⟩ | ⟨result, hphase'⟩
    · rw [work, hphase']
      trivial
    · rw [work, hphase']
      trivial
  | returned result => exact .quiet h rfl rfl rfl trivial
  | gone => exact .quiet h rfl rfl rfl trivial

end Calls

/-! ## Runs -/

section Runs

variable (c : Setup) (D : String → List UInt8 → Prop) (J : Refresh → Prop)

/-- Onshape is regular, and nobody else writes to the bucket. -/
def Undisturbed (s : State) : Op → Prop
  | .work i replies => InScope c D J s (.work i replies) ∧ Regular c.text replies
  | .overwrite _ _ => False
  | op => InScope c D J s op

structure AllSound (s : State) : Prop where
  intact : Intact c D J s
  sound : Sound c s.shared
  phases : ∀ w ∈ s.workers, PhaseSound c s.shared.bucket w.phase

variable {c D J} {s : State} {ops : List Op}

theorem Undisturbed.admissible {op : Op} (h : Undisturbed c D J s op) :
    Admissible c D J s op := by
  cases op with
  | call r => exact ⟨h, fun _ _ hop => by cases hop⟩
  | work i replies => exact ⟨h.1, fun _ _ hop => by cases hop⟩
  | stop i => exact ⟨h, fun _ _ hop => by cases hop⟩
  | supersedeSet => exact ⟨h, fun _ _ hop => by cases hop⟩
  | overwrite => exact h.elim

theorem step_allSound {op : Op} (ht : c.text.Faithful) (hfree : CollisionFree c D)
    (hop : Undisturbed c D J s op) (h : AllSound c D J s) : AllSound c D J (step c s op) := by
  have hadmissible := hop.admissible
  have hintact := (step_intact hfree (step_inv hadmissible.1 h.intact.traced) hadmissible.2
    h.intact).1
  cases op with
  | call r =>
    refine ⟨hintact, h.sound, fun w hw => ?_⟩
    rcases List.mem_append.mp hw with hw | hw
    · exact h.phases w hw
    · rw [List.mem_singleton.mp hw]
      trivial
  | work i replies =>
    simp only [step] at hintact ⊢
    cases hworker : s.workers[i]? with
    | none => exact h
    | some w =>
      simp only [hworker] at hintact
      have hw := List.mem_of_getElem? hworker
      have hleaves := work_leaves replies ht hop.2 h.sound
        (h.intact.traced.workers w hw).2 (h.phases w hw)
      refine ⟨hintact, hleaves.sound, fun w' hw' => ?_⟩
      rcases List.mem_or_eq_of_mem_set hw' with hold | rfl
      · exact (h.phases w' hold).keep hleaves.keeps
      · exact hleaves.phase
  | stop i =>
    simp only [step] at hintact ⊢
    cases hworker : s.workers[i]? with
    | none => exact h
    | some w =>
      simp only [hworker] at hintact
      refine ⟨hintact, h.sound, fun w' hw' => ?_⟩
      rcases List.mem_or_eq_of_mem_set hw' with hold | rfl
      · exact h.phases w' hold
      · trivial
  | supersedeSet now artifactSetHash by_ reason =>
    refine ⟨hintact, ⟨h.sound.translations, h.sound.payloads, ?_⟩, h.phases⟩
    exact filesKnown_updateSets h.sound.files
  | overwrite key object => exact hop.elim

theorem allSound_empty : AllSound c D J .empty where
  intact := intact_empty
  sound := ⟨(fun _ h => by cases h), (fun _ h => by cases h), (fun _ h => by cases h)⟩
  phases := fun _ h => by cases h

theorem run_allSound (ht : c.text.Faithful) (hfree : CollisionFree c D)
    (hops : Along (step c) (Undisturbed c D J) .empty ops) :
    AllSound c D J (run (step c) .empty ops) :=
  (always_of_step allSound_empty (fun _ _ h hop => step_allSound ht hfree hop h) hops).last

end Runs

end Pipeline
end OnshapeExport
