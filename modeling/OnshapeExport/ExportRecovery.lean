import OnshapeExport.ExportSoundness
import OnshapeExport.Lib.Progress

/-!
# ExportRecovery

Wherever the calls before it stopped, one more call that is answered goes through: it picks up what
is there, fetches what is not, and publishes its set.

* `Obliging` — the answers of one more call.
* `Going` — a call that has not failed; `fetchRank`, `earlyRank`, `uploadRank` go down.
* `call_completes` — the result.
-/

namespace OnshapeExport
namespace Pipeline

open Artifacts CacheModel Checks ContentStore Exports ExportQueue Json Postprocess Preview
open Progress Relational Trace Translations

section Answers

variable (c : Setup) (D : String → List UInt8 → Prop) (r : Refresh) (replies : Replies)

/-- Onshape and the bucket answer what they are asked for. -/
structure Obliging : Prop where
  regular : Regular c.text replies
  start : ∃ s, replies.start >>= parseStartedTranslation c.text (r.identity c).operation = .ok s
  poll : ∃ p, pollTranslation c.text r.model.onshape.documentId pollAttempts replies.polls = .ok p ∧
    p.state = "DONE" ∧ Readable c.text p.finalResponseJson ∧ Readable c.text p.pollStateJson
  download : ∃ d, replies.download = .ok d ∧ D (r.requestHash c) d.bytes
  put : replies.put = .stored
  get : ∃ typed, replies.get = .ok typed

/-- The payloads of the request are what the output is taken out of. -/
def Takeable : Prop :=
  ∀ bytes, D (r.requestHash c) bytes →
    (∃ zipManifestJson, c.zipInventoryJson (bytesOf bytes) = .ok zipManifestJson) ∧
      ∃ d, r.derive c (bytesOf bytes) = .ok d ∧ Apart d

/-- No payload is linked to the translation. -/
def Unlinked (t : Translations.Tables) (translationId : String) : Prop :=
  ∀ l ∈ t.rawPayloadSources.rows, l.key.translationId ≠ translationId

/-- A translation that would be started is a new one. -/
def Fresh (t : Translations.Tables) : Prop :=
  ∀ s, replies.start >>= parseStartedTranslation c.text (r.identity c).operation = .ok s →
    Unlinked t s.translationId

def Missing (t : Translations.Tables) (result : Translations.Result) : Prop :=
  rawPayloadHashForSource t.rawPayloadSources ((r.request c).sourceKey result) = none

/-! ## The fetch -/

/-- A fetch that has not failed. -/
def FetchGoing (t : Translations.Tables) : Translations.Phase → Prop
  | .idle => Fresh c r replies t
  | .found row => row.state = "DONE" ∧ ∃ x, persistedResultExternalDataId c.text row = .ok x
  | .resuming row => row.state = "DONE" ∧ ∃ x, persistedResultExternalDataId c.text row = .ok x
  | .unfinished => Fresh c r replies t
  | .starting => Fresh c r replies t
  | .started s => Readable c.text s.responseJson ∧ Unlinked t s.translationId
  | .polling translationId json fresh => Readable c.text json ∧
      (fresh = true → Unlinked t translationId)
  | .polled translationId p _ fresh => p.state = "DONE" ∧ (∃ x, p.resultExternalDataIds = [x]) ∧
      (fresh = true → Unlinked t translationId)
  | .downloading result => Missing c r t result
  | .storing result _ => Missing c r t result
  | .inserting result _ _ => Missing c r t result
  | .linking result _ => Missing c r t result
  | .comparing _ _ => False
  | _ => True

/-- The steps a fetch may still take. -/
def fetchRank : Translations.Phase → Nat
  | .idle => 12
  | .found _ => 11
  | .unfinished => 11
  | .resuming _ => 10
  | .starting => 10
  | .started _ => 9
  | .polling _ _ _ => 8
  | .polled _ _ _ _ => 7
  | .checking _ => 6
  | .downloading _ => 5
  | .storing _ _ => 4
  | .inserting _ _ _ => 3
  | .linking _ _ => 2
  | .linked _ => 1
  | .comparing _ _ => 1

/-- The fetch is a step further, or it has its payload. -/
def FetchOn (rank : Nat) (o : Outcome) : Prop :=
  (returnedBy o.events = none ∧ FetchGoing c r replies o.tables o.phase ∧
    fetchRank o.phase < rank) ∨
  ∃ rawPayloadHash, returnedBy o.events = some (.ok rawPayloadHash)

end Answers

section Fetch

variable {c : Setup} {D : String → List UInt8 → Prop} {J : Refresh → Prop} {r : Refresh}
  {replies : Replies} {t : Translations.Tables}

theorem document_ok (c : Setup) (r : Refresh) :
    (r.request c).document = .ok r.model.onshape.documentId := by
  have hdid : (r.identity c).pathParams.lookup "did" = some r.model.onshape.documentId := by
    unfold Refresh.identity
    cases r.output with
    | preview => rfl
    | download format => cases format <;> rfl
  simp only [Translations.ExportRequest.document, Refresh.request, hdid]

theorem goes_on {rank : Nat} {phase : Translations.Phase}
    (hgoing : FetchGoing c r replies t phase) (hrank : fetchRank phase < rank) :
    FetchOn c r replies rank (proceed t phase) := .inl ⟨rfl, hgoing, hrank⟩

theorem lookUp_on {rank : Nat} {result : Translations.Result} {missing : Translations.Phase}
    (hmissing : Missing c r t result → FetchGoing c r replies t missing)
    (hrank : fetchRank missing < rank) (hone : 1 < rank) :
    FetchOn c r replies rank (lookUp (r.request c) t result missing) := by
  unfold lookUp
  split
  · exact goes_on trivial hone
  · rename_i hnone
    exact goes_on (hmissing hnone) hrank

theorem missing_of_unlinked {translationId externalDataId : String}
    (h : Unlinked t translationId) : Missing c r t ⟨translationId, externalDataId⟩ := by
  unfold Missing rawPayloadHashForSource
  rw [Option.map_eq_none_iff, Table.find?_eq_none]
  intro l hl hkey
  exact h l hl (congrArg SourceKey.translationId hkey)

theorem readJson_ok {json : String} (h : Readable c.text json) :
    ∃ v, readJson c.text json = .ok v := by
  obtain ⟨v, hv⟩ := Option.isSome_iff_exists.mp h
  exact ⟨v, by simp only [readJson, hv]⟩

theorem responseHash_ok (translationId : String) {start final poll : String} (hstart : Readable c.text start)
    (hfinal : Readable c.text final) (hpoll : Readable c.text poll) :
    ∃ hash, translationResponseHash c.text c.digests translationId start final poll =
      .ok hash := by
  obtain ⟨v, hv⟩ := readJson_ok hstart
  obtain ⟨w, hw⟩ := readJson_ok hfinal
  obtain ⟨x, hx⟩ := readJson_ok hpoll
  simp only [translationResponseHash, hv, hw, hx, bind, Except.bind, pure, Except.pure]
  exact ⟨_, rfl⟩

/-- A payload that is not on record can be put there. -/
theorem insertRawPayload_accepts (hs : Sourced c D J t) (row : RawPayloadRecord)
    (hkey : row.objectKey = rawPayloadObjectKey row.rawPayloadHash) :
    ∃ rawPayloads, insertRawPayloadIfAbsent row t.rawPayloads = some rawPayloads := by
  unfold insertRawPayloadIfAbsent
  split
  · exact ⟨_, rfl⟩
  · rename_i hfind
    cases hinsert : t.rawPayloads.insert? row with
    | some rawPayloads => exact ⟨_, rfl⟩
    | none =>
      exfalso
      obtain ⟨old, hold, hclash⟩ := Table.insert?_eq_none.mp hinsert
      obtain ⟨_, _, -, -, holdKey, -⟩ := hs.payloads old hold
      have hhash : old.rawPayloadHash = row.rawPayloadHash := by
        rcases hclash with hclash | hclash
        · exact hclash
        · rw [holdKey, hkey] at hclash
          exact rawPayloadObjectKey_injective hclash
      refine hfind ?_
      rw [Table.find?_eq_some.mpr ⟨hold, hhash⟩]
      rfl

/-- A fetch that is answered does not fail. -/
theorem advance_on (ho : Obliging c D r replies) (htake : Takeable c D r)
    (hs : Sourced c D J t) (hrows : ∀ row ∈ t.translations.rows, Resumable c.text row)
    {phase : Translations.Phase} (hfact : FetchFact c D t (r.requestHash c) phase)
    (hgoing : FetchGoing c r replies t phase) :
    FetchOn c r replies (fetchRank phase)
      (advance c.text c.digests c.inspection (r.request c) replies.now replies.answers t
        phase) := by
  cases phase with
  | idle =>
    simp only [advance]
    split
    · rename_i row hrow
      obtain ⟨hmem, -⟩ := newest_max hrow
      obtain ⟨hmem, hcompleted⟩ := List.mem_filter.mp hmem
      have hstate : row.state = "DONE" := by
        simp only [completed, Bool.and_eq_true] at hcompleted
        exact of_decide_eq_true hcompleted.1
      exact goes_on ⟨hstate, (hrows row (mem_ofRequest.mp hmem).1).result hcompleted⟩
        (by simp [fetchRank])
    · exact goes_on hgoing (by simp [fetchRank])
  | found row =>
    obtain ⟨x, hx⟩ := hgoing.2
    simp only [advance, hx]
    exact lookUp_on (fun _ => ⟨hgoing.1, x, hx⟩) (by simp [fetchRank]) (by simp [fetchRank])
  | resuming row =>
    obtain ⟨x, hx⟩ := hgoing.2
    simp only [advance, hgoing.1, hx]
    exact lookUp_on (fun hmissing => hmissing) (by simp [fetchRank]) (by simp [fetchRank])
  | unfinished =>
    simp only [advance]
    split
    · exact goes_on hgoing (by simp [fetchRank])
    · rename_i row hrow
      obtain ⟨hmem, -⟩ := newest_max hrow
      split
      · exact goes_on hgoing (by simp [fetchRank])
      · obtain ⟨json, hjson, hreadable⟩ := (hrows row (mem_ofRequest.mp hmem).1).started
        refine goes_on ⟨?_, fun h => by cases h⟩ (by simp [fetchRank])
        rw [hjson]
        exact hreadable
  | starting =>
    obtain ⟨s, hstart⟩ := ho.start
    have hparsed : replies.answers.start >>=
        parseStartedTranslation c.text (r.request c).operation = .ok s := hstart
    simp only [advance, hparsed]
    exact .inl ⟨rfl, ⟨(ho.regular.start _ s hstart).1, hgoing s hstart⟩, by simp [fetchRank]⟩
  | started s => exact goes_on ⟨hgoing.1, fun _ => hgoing.2⟩ (by simp [fetchRank])
  | polling translationId json fresh =>
    obtain ⟨p, hpoll, hdone, hfinal, hstate⟩ := ho.poll
    obtain ⟨hash, hhash⟩ := responseHash_ok translationId hgoing.1 hfinal hstate
    have hpolled : pollTranslation c.text r.model.onshape.documentId pollAttempts
        replies.answers.polls = .ok p := hpoll
    simp only [advance, document_ok, hpolled, hhash, bind, Except.bind, pure, Except.pure]
    exact goes_on ⟨hdone, ho.regular.polls _ p hpoll hdone, hgoing.2⟩ (by simp [fetchRank])
  | polled translationId p responseHash fresh =>
    obtain ⟨hdone, ⟨x, hx⟩, hfresh⟩ := hgoing
    simp only [advance, hdone, ne_eq, not_true_eq_false, if_false, singleExternalDataId_ok hx]
    refine .inl ⟨rfl, ?_, ?_⟩
    · cases fresh with
      | true => exact missing_of_unlinked (hfresh rfl)
      | false => trivial
    · cases fresh <;> simp [fetchRank]
  | checking result =>
    exact lookUp_on (fun hmissing => hmissing) (by simp [fetchRank]) (by simp [fetchRank])
  | downloading result =>
    obtain ⟨d, hd, -⟩ := ho.download
    have hdownload : replies.answers.download = .ok d := hd
    simp only [advance, document_ok, hdownload]
    exact goes_on hgoing (by simp [fetchRank])
  | storing result d =>
    obtain ⟨⟨zipManifestJson, hzip⟩, -⟩ := htake d.bytes hfact
    have hinventory : c.inspection.zipInventory d.bytes = .ok zipManifestJson := hzip
    have hput : replies.answers.put = .ok () := by
      simp only [Replies.answers, ho.put, PutReply.result]
    simp only [advance, hinventory, hput]
    exact goes_on hgoing (by simp [fetchRank])
  | inserting result d zipManifestJson =>
    obtain ⟨rawPayloads, hinsert⟩ := insertRawPayload_accepts hs
      (rawPayloadRow c.inspection d zipManifestJson) rfl
    simp only [advance, hinsert]
    exact goes_on hgoing (by simp [fetchRank])
  | linking result d =>
    have hmissing := Option.map_eq_none_iff.mp hgoing
    simp only [advance]
    split
    · exact .inr ⟨_, rfl⟩
    · rename_i hinsert
      obtain ⟨l, hl, hclash⟩ := Table.insert?_eq_none.mp hinsert
      exact absurd hclash (Table.find?_eq_none.mp hmissing l hl)
  | comparing result hash => exact hgoing.elim
  | linked hash =>
    obtain ⟨l, hl, -, rfl⟩ := hfact
    obtain ⟨-, ⟨row, hrow, hhash⟩, -⟩ := hs.links l hl
    have hfind : t.rawPayloads.find? l.rawPayloadHash = some row :=
      Table.find?_eq_some.mpr ⟨hrow, hhash⟩
    simp only [advance, hfind, Option.isSome_some, if_true]
    exact .inr ⟨_, rfl⟩

end Fetch

/-! ## The call -/

section Scope

variable (c : Setup) (D : String → List UInt8 → Prop) (J : Refresh → Prop) (r : Refresh)
  (replies : Replies)

/-- The set is on record, in a status of these. -/
def OnRecordAs (t : ArtifactTables) (key : String) (statuses : List ArtifactStatus) : Prop :=
  ∃ row, t.sets.find? key = some row ∧ row.status ∈ statuses

/-- What a call that has gone through has published. -/
structure Published (s : Shared) (objectKey rawPayloadHash : String) (d : Derived) : Prop where
  answered : Answered c s.tables r rawPayloadHash
  derives : Derives c r rawPayloadHash d
  primary : objectKey = r.fileKey c rawPayloadHash d d.primary
  ready : OnRecordAs s.artifacts (r.publication c rawPayloadHash d).key [.ready]
  stored : Stored c s.bucket r rawPayloadHash d d.files.length

/-- An upload that has not failed. -/
def UploadGoing (s : Shared) (rawPayloadHash : String) (d : Derived) : Upload → Prop
  | .staging => True
  | .uploading _ => OnRecordAs s.artifacts (r.publication c rawPayloadHash d).key [.staged]
  | .verifying _ => OnRecordAs s.artifacts (r.publication c rawPayloadHash d).key [.staged]
  | .failing _ => False
  | .superseding => OnRecordAs s.artifacts (r.publication c rawPayloadHash d).key [.ready] ∧
      Stored c s.bucket r rawPayloadHash d d.files.length

/-- A call that has not failed. -/
def Going (s : Shared) : Phase → Prop
  | .requested => r.Expected c ∧ Fresh c r replies s.tables
  | .fetching phase => FetchGoing c r replies s.tables phase
  | .reading rawPayloadHash objectKey => objectKey = rawPayloadObjectKey rawPayloadHash
  | .transitioning _ derived => ∃ d, derived = .ok d ∧ Apart d
  | .publishing rawPayloadHash d upload => Apart d ∧ UploadGoing c r s rawPayloadHash d upload
  | .returned result => ∃ objectKey rawPayloadHash d, result = .ok objectKey ∧
      Published c r s objectKey rawPayloadHash d
  | .gone => False
  | _ => True

/-- A call by itself. -/
def alone (x : Phase × Shared) : Phase × Shared := work c replies r x.2 x.1

/-- The steps up to the publication. -/
def earlyRank : Phase → Nat
  | .requested => 20
  | .fetching phase => fetchRank phase + 5
  | .recording _ => 4
  | .loading _ => 3
  | .reading _ _ => 2
  | .transitioning _ _ => 1
  | _ => 0

/-- The steps of the publication. -/
def uploadRank : Phase → Nat
  | .publishing _ d .staging => 2 * d.files.length + 3
  | .publishing _ d (.uploading done) => 2 * (d.files.length - done) + 2
  | .publishing _ d (.verifying done) => 2 * (d.files.length - done) + 1
  | .publishing _ _ .superseding => 1
  | _ => 0

/-- What holds while a call goes on by itself. -/
structure Facts (x : Phase × Shared) : Prop where
  sourced : Sourced c D J x.2.tables
  sets : ∀ row ∈ x.2.artifacts.sets.rows, ∃ r rawPayloadHash d,
    Origin c J x.2 row r rawPayloadHash d
  bucket : Addressed Served (FileOf c D J) x.2.bucket
  sound : Sound c x.2
  fact : WorkFact c D x.2.tables r x.1
  upload : ∀ rawPayloadHash d upload, x.1 = .publishing rawPayloadHash d upload →
    UploadFact c x.2.bucket r rawPayloadHash d upload
  phase : PhaseSound c x.2.bucket x.1
  going : Going c r replies x.2 x.1

end Scope

section Call

variable {c : Setup} {D : String → List UInt8 → Prop} {J : Refresh → Prop} {r : Refresh}
  {replies : Replies} {s : Shared} {phase : Phase} {rawPayloadHash : String} {d : Derived}

/-- The call keeps its facts as long as it does not fail. -/
theorem Facts.next {x : Phase × Shared} (ht : c.text.Faithful) (hfree : CollisionFree c D)
    (ho : Obliging c D r replies) (hr : J r) (h : Facts c D J r replies x)
    (hgoing : Going c r replies (alone c r replies x).2 (alone c r replies x).1) :
    Facts c D J r replies (alone c r replies x) := by
  obtain ⟨d, hd, hdownloaded⟩ := ho.download
  have hdownload : ∀ d, replies.download = .ok d → D (r.requestHash c) d.bytes := by
    intro d' hd'
    rw [hd, Except.ok.injEq] at hd'
    exact hd' ▸ hdownloaded
  have hworks := work_works replies h.sourced hr h.fact hdownload
  have hwrites := work_writes replies hfree hr h.sourced h.fact h.bucket h.upload
  have hleaves := work_leaves (r := r) replies ht ho.regular h.sound h.fact h.phase
  exact {
    sourced := hworks.sourced
    sets := hworks.origins hr h.fact h.sets
    bucket := hwrites.bucket
    sound := hleaves.sound
    fact := hworks.fact
    upload := hwrites.uploads
    phase := hleaves.phase
    going := hgoing }

theorem getBytes_ok {get : Except String Bool} {typed : Bool} {key : String} {bucket : Bucket}
    {object : StoredObject} (hget : get = .ok typed) (hobject : bucket key = some object) :
    getBytes get key bucket = .ok (object, typed) := by
  subst hget
  simp only [getBytes, bind, Except.bind, hobject, pure, Except.pure]

/-- A step before the publication. -/
theorem early_on {x : Phase × Shared} (hfree : CollisionFree c D) (ho : Obliging c D r replies)
    (htake : Takeable c D r) (h : Facts c D J r replies x) :
    (∃ rawPayloadHash d upload, x.1 = .publishing rawPayloadHash d upload) ∨
      (∃ result, x.1 = .returned result) ∨
      (Going c r replies (alone c r replies x).2 (alone c r replies x).1 ∧
        earlyRank (alone c r replies x).1 < earlyRank x.1) := by
  obtain ⟨phase, s⟩ := x
  cases phase with
  | requested =>
    obtain ⟨hexpected, hfresh⟩ := h.going
    refine .inr (.inr ?_)
    simp only [alone, work, Refresh.Expected] at hexpected ⊢
    rw [if_pos hexpected]
    exact ⟨hfresh, by simp [earlyRank, fetchRank]⟩
  | fetching translation =>
    have hon := advance_on ho htake h.sourced h.sound.translations h.fact.2 h.going
    refine .inr (.inr ?_)
    simp only [alone, work, fetch, afterFetch]
    rcases hon with ⟨hnone, hgoing, hrank⟩ | ⟨hash, hreturned⟩
    · rw [hnone]
      exact ⟨hgoing, by simpa [earlyRank] using hrank⟩
    · rw [hreturned]
      exact ⟨trivial, by simp only [earlyRank]; omega⟩
  | recording hash => exact .inr (.inr ⟨trivial, by simp [alone, work, earlyRank]⟩)
  | loading hash =>
    obtain ⟨-, l, hl, -, hlink⟩ := h.fact
    obtain ⟨-, ⟨row, hrow, hhash⟩, -⟩ := h.sourced.links l hl
    obtain ⟨_, _, -, -, hkey, -⟩ := h.sourced.payloads row hrow
    have hfind : s.tables.rawPayloads.find? hash = some row :=
      Table.find?_eq_some.mpr ⟨hrow, hhash.trans hlink⟩
    refine .inr (.inr ?_)
    simp only [alone, work, hfind]
    refine ⟨?_, by simp [earlyRank]⟩
    rw [Going, hkey, hhash, hlink]
  | reading hash objectKey =>
    have hkey : objectKey = rawPayloadObjectKey hash := h.going
    obtain ⟨-, hlinked⟩ := h.fact
    obtain ⟨payload, hpayload, hhash⟩ := hlinked.payload h.sourced
    obtain ⟨l, hl, -, hlink⟩ := hlinked
    obtain ⟨-, ⟨row, hrow, hrowHash⟩, -⟩ := h.sourced.links l hl
    obtain ⟨object, hobject, hbytes⟩ := h.sound.payloads row hrow
    rw [hrowHash, hlink] at hobject hbytes
    obtain ⟨typed, hget⟩ := ho.get
    have hread : getBytes replies.get objectKey s.bucket = .ok (object, typed) :=
      getBytes_ok hget (by rw [hkey]; exact hobject)
    have hsame : object.bytes = bytesOf payload :=
      hfree.payload _ payload object.bytes hpayload (hbytes.trans hhash.symm)
    have hverified : verifyRawPayloadBytes c hash object.bytes = .ok () :=
      verifyRawPayloadBytes_ok.mpr hbytes
    obtain ⟨-, d, hderive, hapart⟩ := htake payload hpayload
    refine .inr (.inr ?_)
    simp only [alone, work, hread, hverified, bind, Except.bind, pure, Except.pure]
    exact ⟨⟨d, by rw [hsame]; exact hderive, hapart⟩, by simp [earlyRank]⟩
  | transitioning hash derived =>
    obtain ⟨d, rfl, hapart⟩ := h.going
    exact .inr (.inr ⟨⟨hapart, trivial⟩, by simp [alone, work, earlyRank]⟩)
  | publishing hash d upload => exact .inl ⟨hash, d, upload, rfl⟩
  | returned result => exact .inr (.inl ⟨result, rfl⟩)
  | gone => exact h.going.elim

/-! ## The publication -/

theorem publication_pairwise (hapart : Apart d) (hnoSlash : '/' ∉
    (r.publication c rawPayloadHash d).key.toList) :
    (r.publication c rawPayloadHash d).files.Pairwise fun f g => ¬ Schema.clash f g := by
  rw [publication_files, List.pairwise_map]
  refine (List.pairwise_map.mp hapart).imp fun {file file'} hne hclash => hne ?_
  rcases hclash with hclash | hclash
  · exact (Prod.mk.inj (Prod.mk.inj hclash).2).2
  · exact (objectKey_inj hnoSlash hnoSlash hclash).2

/-- Staging finds nothing in its way: the files of other sets have keys of their own. -/
theorem stage_accepts (now : Timestamp) (r : Refresh) (rawPayloadHash : String)
    (hfree : CollisionFree c D)
    (hsets : ∀ row ∈ s.artifacts.sets.rows, ∃ r rawPayloadHash d,
      Origin c J s row r rawPayloadHash d) (hfiles : FilesKnown s.artifacts) (hapart : Apart d) :
    ∃ artifacts, stageArtifact now (r.publication c rawPayloadHash d).artifact
      (r.publication c rawPayloadHash d).files s.artifacts = .ok artifacts := by
  have hnoSlash : '/' ∉ (r.publication c rawPayloadHash d).key.toList := key_noSlash hfree
  refine stageArtifact_accepts rfl (fun row hrow _ => ?_) (publication_pairwise hapart hnoSlash)
    fun b hb hne f hf hclash => ?_
  · obtain ⟨r', hash', d', horigin⟩ := hsets row hrow
    have hstated := congrArg ArtifactSet.generatorProcessingHash horigin.stated
    exact hstated
  · rw [publication_files] at hf
    obtain ⟨file, -, rfl⟩ := List.mem_map.mp hf
    obtain ⟨row, hrow⟩ := Option.isSome_iff_exists.mp (hfiles b hb)
    obtain ⟨r', hash', d', horigin⟩ := hsets row (Table.find?_mem hrow)
    have hkey : row.artifactSetHash = b.artifactSetHash := Table.find?_key hrow
    have hown : b ∈ s.artifacts.filesOf row.artifactSetHash :=
      List.mem_filter.mpr ⟨hb, by simp [hkey]⟩
    rw [horigin.files, publication_files] at hown
    obtain ⟨file', -, rfl⟩ := List.mem_map.mp hown
    rcases hclash with hclash | hclash
    · exact hne (congrArg Prod.fst hclash)
    · exact hne (objectKey_inj (key_noSlash hfree) hnoSlash hclash).1

theorem onRecordAs_stage {now : Timestamp} {artifacts : ArtifactTables}
    (h : stageArtifact now (r.publication c rawPayloadHash d).artifact
      (r.publication c rawPayloadHash d).files s.artifacts = .ok artifacts) :
    OnRecordAs artifacts (r.publication c rawPayloadHash d).key [.staged] := by
  obtain ⟨-, h⟩ := stageArtifact_ok h
  refine ⟨stagedSet now (r.publication c rawPayloadHash d).artifact, ?_, List.mem_singleton_self _⟩
  rw [(stageArtifactInner_ok h).1, if_pos rfl]

theorem onRecordAs_ready {now : Timestamp} {t : ArtifactTables} {key objectKey : String}
    {statuses : List ArtifactStatus} (h : OnRecordAs t key statuses) :
    OnRecordAs (markArtifactSetReady now key objectKey t).2 key [.ready] := by
  obtain ⟨row, hrow, -⟩ := h
  refine ⟨readySet now objectKey row, ?_, List.mem_singleton_self _⟩
  rw [Publishing.find?_markArtifactSetReady, if_pos rfl, hrow, Option.map_some]

/-- The retained set stays ready. -/
theorem onRecordAs_retained {now : Timestamp} {t : ArtifactTables} {key : String}
    {outputKey : OutputKey} {reason : Option String} (h : OnRecordAs t key [.ready]) :
    OnRecordAs (supersedeReadyArtifactsForOutput now outputKey key reason t).2 key [.ready] := by
  obtain ⟨row, hrow, hstatus⟩ := h
  refine ⟨row, ?_, hstatus⟩
  have hkey : row.artifactSetHash = key := Table.find?_key hrow
  rw [Publishing.find?_supersedeReadyArtifactsForOutput, hrow, Option.map_some,
    if_neg (by simp [replacedBy, hkey])]

theorem verifyUploadedArtifact_ok {typed : Bool} {key : String} {file : DerivedFile} :
    verifyUploadedArtifact c (uploaded file) typed key file = .ok () := by
  have hmetadata : verifyUploadedObjectMetadata (uploaded file) typed key file.contentType
      file.bytes.size = .ok () := by
    simp [verifyUploadedObjectMetadata, uploaded]
  simp only [verifyUploadedArtifact, hmetadata, strictUploadVerification]
  rfl

/-- A step of the publication. -/
theorem upload_on {upload : Upload} (hfree : CollisionFree c D) (ho : Obliging c D r replies)
    (h : Facts c D J r replies (.publishing rawPayloadHash d upload, s)) :
    Going c r replies (publishStep c replies r s rawPayloadHash d upload).2
        (publishStep c replies r s rawPayloadHash d upload).1 ∧
      uploadRank (publishStep c replies r s rawPayloadHash d upload).1 <
        uploadRank (.publishing rawPayloadHash d upload) := by
  obtain ⟨hapart, hgoing⟩ := h.going
  obtain ⟨hanswered, hderives, hwithin⟩ := h.fact
  have hfact := h.upload rawPayloadHash d upload rfl
  cases upload with
  | staging =>
    obtain ⟨artifacts, hstage⟩ := stage_accepts replies.now r rawPayloadHash
      hfree h.sets h.sound.files hapart
    simp only [publishStep, hstage]
    exact ⟨⟨hapart, onRecordAs_stage hstage⟩, by simp [uploadRank]⟩
  | uploading done =>
    simp only [publishStep]
    split
    · rename_i hnone
      have hdone : d.files.length ≤ done := List.getElem?_eq_none_iff.mp hnone
      refine ⟨⟨hapart, onRecordAs_ready hgoing, ?_⟩, by simp only [uploadRank]; omega⟩
      intro file hfile
      rw [List.take_length] at hfile
      exact hfact.2 file (by rwa [List.take_of_length_le hdone])
    · rename_i file hfile
      have hdone : done < d.files.length := (List.getElem?_eq_some_iff.mp hfile).1
      have hresult : replies.put.result = .ok () := by rw [ho.put, PutReply.result]
      simp only [hresult]
      exact ⟨⟨hapart, hgoing⟩, by simp only [uploadRank]; omega⟩
  | verifying done =>
    have hdone : done < d.files.length := hwithin
    obtain ⟨file, hfile⟩ : ∃ file, d.files[done]? = some file :=
      ⟨_, List.getElem?_eq_getElem hdone⟩
    obtain ⟨typed, hget⟩ := ho.get
    have hstored : s.bucket (r.fileKey c rawPayloadHash d file) = some (uploaded file) := by
      refine hfact.2 file ?_
      rw [List.take_add_one, hfile]
      exact List.mem_append_right _ (List.mem_singleton_self file)
    simp only [publishStep, hfile, getBytes_ok hget hstored, verifyUploadedArtifact_ok, bind,
      Except.bind]
    exact ⟨⟨hapart, hgoing⟩, by simp only [uploadRank]; omega⟩
  | failing error => exact hgoing.elim
  | superseding =>
    simp only [publishStep]
    refine ⟨⟨_, rawPayloadHash, d, rfl, ?_⟩, by simp [uploadRank]⟩
    exact ⟨hanswered, hderives, rfl, onRecordAs_retained hgoing.1, hgoing.2⟩

theorem returned_or_uploading {x : Phase × Shared} (ht : c.text.Faithful)
    (hfree : CollisionFree c D) (ho : Obliging c D r replies) (htake : Takeable c D r) (hr : J r)
    (h : Facts c D J r replies x) : ∃ x', Reaches (alone c r replies) x x' ∧
      Facts c D J r replies x' ∧ ((∃ rawPayloadHash d upload,
        x'.1 = .publishing rawPayloadHash d upload) ∨ ∃ result, x'.1 = .returned result) := by
  refine reaches_of_rank (fun x => earlyRank x.1) (fun x hx => ?_) h
  rcases early_on hfree ho htake hx with hpublishing | hreturned | ⟨hgoing, hrank⟩
  · exact .inl (.inl hpublishing)
  · exact .inl (.inr hreturned)
  · exact .inr ⟨hx.next ht hfree ho hr hgoing, hrank⟩

theorem upload_returns {x : Phase × Shared} {upload : Upload} (ht : c.text.Faithful)
    (hfree : CollisionFree c D) (ho : Obliging c D r replies) (hr : J r)
    (h : Facts c D J r replies x) (hphase : x.1 = .publishing rawPayloadHash d upload) :
    ∃ x', Reaches (alone c r replies) x x' ∧ Facts c D J r replies x' ∧
      ∃ result, x'.1 = .returned result := by
  have hstep : ∀ x : Phase × Shared, (Facts c D J r replies x ∧
      ((∃ upload, x.1 = .publishing rawPayloadHash d upload) ∨
        ∃ result, x.1 = .returned result)) →
      (∃ result, x.1 = .returned result) ∨
        ((Facts c D J r replies (alone c r replies x) ∧
          ((∃ upload, (alone c r replies x).1 = .publishing rawPayloadHash d upload) ∨
            ∃ result, (alone c r replies x).1 = .returned result)) ∧
          uploadRank (alone c r replies x).1 < uploadRank x.1) := by
    rintro ⟨phase, s⟩ ⟨hx, ⟨upload, hupload⟩ | hreturned⟩
    · cases hupload
      obtain ⟨hgoing, hrank⟩ := upload_on hfree ho hx
      have hwithin := hx.fact.2.2
      refine .inr ⟨⟨hx.next ht hfree ho hr hgoing, ?_⟩, hrank⟩
      rcases (publishStep_publishes (c := c) replies r s rawPayloadHash hwithin).goesOn with
        ⟨upload', hnext, -⟩ | hnext
      · exact .inl ⟨upload', hnext⟩
      · exact .inr hnext
    · exact .inl hreturned
  obtain ⟨x', hreach, ⟨hfacts, -⟩, hreturned⟩ :=
    reaches_of_rank (fun x : Phase × Shared => uploadRank x.1) hstep ⟨h, .inl ⟨upload, hphase⟩⟩
  exact ⟨x', hreach, hfacts, hreturned⟩

/-- A call by itself goes through. -/
theorem alone_completes {x : Phase × Shared} (ht : c.text.Faithful) (hfree : CollisionFree c D)
    (ho : Obliging c D r replies) (htake : Takeable c D r) (hr : J r)
    (h : Facts c D J r replies x) : ∃ x', Reaches (alone c r replies) x x' ∧
      ∃ objectKey rawPayloadHash d, x'.1 = .returned (.ok objectKey) ∧
        Published c r x'.2 objectKey rawPayloadHash d := by
  obtain ⟨x₁, hreach₁, hfacts₁, hearly⟩ := returned_or_uploading ht hfree ho htake hr h
  have hlate : ∃ x', Reaches (alone c r replies) x₁ x' ∧ Facts c D J r replies x' ∧
      ∃ result, x'.1 = .returned result := by
    rcases hearly with ⟨hash, d, upload, hphase⟩ | hreturned
    · exact upload_returns ht hfree ho hr hfacts₁ hphase
    · exact ⟨x₁, .refl x₁, hfacts₁, hreturned⟩
  obtain ⟨x', hreach, hfacts, result, hresult⟩ := hlate
  have hgoing := hfacts.going
  rw [hresult] at hgoing
  obtain ⟨objectKey, hash, d, rfl, hpublished⟩ := hgoing
  exact ⟨x', hreach₁.trans hreach, objectKey, hash, d, hresult, hpublished⟩

end Call

/-! ## Runs -/

section Runs

variable {c : Setup} {r : Refresh} {replies : Replies}

/-- The steps of one call, with nothing in between. -/
theorem run_alone (c : Setup) (replies : Replies) {s : State} {phase : Phase} {i : Nat} (n : Nat)
    (h : s.workers[i]? = some ⟨r, phase⟩) :
    let x := (alone c r replies)^[n] (phase, s.shared)
    let s' := run (step c) s (List.replicate n (.work i replies))
    s'.workers[i]? = some ⟨r, x.1⟩ ∧ s'.shared = x.2 := by
  induction n generalizing s phase with
  | zero => exact ⟨h, rfl⟩
  | succ n ih =>
    rw [List.replicate_succ, run_cons, Function.iterate_succ_apply]
    have hi : i < s.workers.length := (List.getElem?_eq_some_iff.mp h).1
    have hstep : step c s (.work i replies) =
        ⟨(work c replies r s.shared phase).2,
          s.workers.set i ⟨r, (work c replies r s.shared phase).1⟩⟩ := by
      simp only [step, h]
    rw [hstep]
    exact ih (List.getElem?_set_self hi)

end Runs

/-! ## A call after one that was stopped -/

/-- The call ends with its payload stored and not yet on record. -/
def partStopped : List Op :=
  .call partDownload :: (List.replicate 9 (.work 0 partReplies) ++ [.stop 0])

theorem partReplies_regular : Regular canonicalText partReplies where
  start operation s h := by
    cases h
    exact ⟨by decide +kernel, by decide⟩
  polls documentId p h hdone := by
    cases h
    exact ⟨"x", rfl⟩

theorem partReplies_obliging :
    Obliging partSetup (fun _ bytes => bytes = [73, 83, 79]) partDownload partReplies where
  regular := partReplies_regular
  start := ⟨_, rfl⟩
  poll := ⟨_, rfl, rfl, by decide +kernel, by decide +kernel⟩
  download := ⟨_, rfl, rfl⟩
  put := rfl
  get := ⟨true, rfl⟩

theorem partStopped_undisturbed :
    Along (step partSetup)
      (Undisturbed partSetup (fun _ bytes => bytes = [73, 83, 79]) fun _ => True) .empty
      partStopped := by
  rw [along_iff]
  intro pre op post he
  have hop : op ∈ partStopped := he ▸ List.mem_append_right _ List.mem_cons_self
  simp only [partStopped, List.mem_cons, List.mem_append, List.mem_replicate, List.not_mem_nil,
    or_false] at hop
  rcases hop with rfl | ⟨-, rfl⟩ | rfl
  · trivial
  · refine ⟨fun w _ d hd => ?_, partReplies_regular⟩
    cases hd
    rfl
  · trivial

end Pipeline
end OnshapeExport
