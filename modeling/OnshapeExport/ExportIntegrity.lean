import OnshapeExport.ExportProvenance

/-!
# ExportIntegrity

The objects that artifacts are served from, which downloads are told to cache for good. A key of
theirs names a set and a file, and a set names its payload, so whoever uploads an object uploads
what is there. Others may do what they like to the payloads, but not to these objects.

* `FileOf` — what is uploaded under a key; `fileOf_unique` is that it is one object.
* `Intact` — the invariant, `step_intact` is that an operation keeps it.
* `served_objects_immutable`, `ready_sets_stored` — the results.
-/

namespace OnshapeExport
namespace Pipeline

open Artifacts CacheModel Checks ContentStore Exports ExportQueue Postprocess Preview Relational
open Trace
open Translations (rawPayloadObjectKey)

/-! ## Keys -/

/-- Artifacts are served from the object. -/
def Served (key : String) : Prop :=
  "previews/v2/".toList <+: key.toList ∨ "artifacts/v2/".toList <+: key.toList

instance (key : String) : Decidable (Served key) := inferInstanceAs (Decidable (_ ∨ _))

section Keys

variable {kind kind' set set' name name' : String}

theorem toList_objectKey : (objectKey kind set name).toList =
    (if kind = "preview_glb" then "previews/v2/" else "artifacts/v2/").toList ++
      (set.toList ++ '/' :: name.toList) := by
  unfold objectKey
  split <;> simp

theorem served_objectKey : Served (objectKey kind set name) := by
  unfold Served
  rw [toList_objectKey]
  split
  · exact .inl (List.prefix_append ..)
  · exact .inr (List.prefix_append ..)

/-- A key names the set and the file. -/
theorem objectKey_inj (hset : '/' ∉ set.toList) (hset' : '/' ∉ set'.toList)
    (h : objectKey kind set name = objectKey kind' set' name') : set = set' ∧ name = name' := by
  have hl := congrArg String.toList h
  rw [toList_objectKey, toList_objectKey] at hl
  have hrest : set.toList ++ '/' :: name.toList = set'.toList ++ '/' :: name'.toList := by
    split at hl <;> split at hl
    · exact List.append_cancel_left hl
    · simp at hl
    · simp at hl
    · exact List.append_cancel_left hl
  obtain ⟨hsets, hnames⟩ := separated_inj hset hset' hrest
  exact ⟨String.toList_injective hsets, String.toList_injective hnames⟩

end Keys

/-! ## What is uploaded -/

section Scope

variable (c : Setup) (D : String → List UInt8 → Prop) (J : Refresh → Prop)

/-- SHA-256 tells the downloaded payloads from everything else, and sets apart, and writes no
slash. -/
structure CollisionFree : Prop where
  payload : ∀ requestHash a b, D requestHash a → c.hexSha256 b = c.hexSha256 (bytesOf a) → b = bytesOf a
  sets : Function.Injective c.artifactSetHash
  noSlash : ∀ identity, '/' ∉ (c.artifactSetHash identity).toList

/-- No two files of an export are uploaded under one key. -/
def Apart (d : Derived) : Prop := (d.files.map DerivedFile.logicalPath).Nodup

def uploaded (file : DerivedFile) : StoredObject := ⟨file.bytes, file.contentType⟩

/-- The object of a file that is taken out of a downloaded payload. -/
def FileOf (key : String) (object : StoredObject) : Prop :=
  ∃ r bytes d file, J r ∧ D (r.requestHash c) bytes ∧ r.derive c (bytesOf bytes) = .ok d ∧
    Apart d ∧ file ∈ d.files ∧ key = r.fileKey c (c.hexSha256 (bytesOf bytes)) d file ∧
    object = uploaded file

/-- The models of one source have one name. -/
def OneName : Prop :=
  ∀ r r', J r → J r' →
    modelSourceHash c.hashes c.microversion r.model =
      modelSourceHash c.hashes c.microversion r'.model → r.model.slug = r'.model.slug

end Scope

section Derivations

variable {c : Setup} {D : String → List UInt8 → Prop} {J : Refresh → Prop} {r r' : Refresh}
  {d d' : Derived} {rawPayloadHash rawPayloadHash' : String}

theorem kind_injective : Function.Injective Output.kind := by
  intro a b h
  cases a with
  | preview =>
    cases b with
    | preview => rfl
    | download format => cases format <;> simp [Output.kind, Catalogs.DownloadFormat.slug] at h
  | download format =>
    cases b with
    | preview => cases format <;> simp [Output.kind, Catalogs.DownloadFormat.slug] at h
    | download format' =>
      cases format <;> cases format' <;>
        first
          | rfl
          | simp [Output.kind, Catalogs.DownloadFormat.slug] at h

/-- Equal set hashes are of one output of one payload of one source. -/
theorem same_set (hfree : CollisionFree c D)
    (h : (r.publication c rawPayloadHash d).key = (r'.publication c rawPayloadHash' d').key) :
    r.output = r'.output ∧ rawPayloadHash = rawPayloadHash' ∧
      modelSourceHash c.hashes c.microversion r.model =
        modelSourceHash c.hashes c.microversion r'.model := by
  have hidentity := hfree.sets h
  simp only [ExportOutput.identity, ArtifactSetIdentity.mk.injEq, Option.some.injEq] at hidentity
  exact ⟨kind_injective hidentity.2.1, hidentity.2.2.2.2.2.2.2.1, hidentity.2.2.2.1⟩

theorem key_noSlash (hfree : CollisionFree c D) :
    '/' ∉ (r.publication c rawPayloadHash d).key.toList := hfree.noSlash _

/-- The name of a model is not looked at but for the name of a download. -/
theorem download_object (slug slug' : String) (format : Catalogs.DownloadFormat)
    (unzip : ByteArray → Except Failure (List ZipEntry)) (bytes : ByteArray) :
    (downloadArtifactFromOnshapeBytes unzip slug format bytes).map
        (fun a => (a.bytes, a.contentType)) =
      (downloadArtifactFromOnshapeBytes unzip slug' format bytes).map
        (fun a => (a.bytes, a.contentType)) := by
  unfold downloadArtifactFromOnshapeBytes
  by_cases hstep : format = .step
  · simp only [if_pos hstep, stepArtifactFromOnshapeBytes]
    by_cases hzip : startsWith bytes zipMagic = false
    · rw [if_pos hzip, if_pos hzip]
      rfl
    · rw [if_neg hzip, if_neg hzip]
      cases (unzip bytes).mapError ("reading zipped STEP download payload" :: ·) with
      | error e => rfl
      | ok entries =>
        cases hfiles : zipFileEntryIndices entries with
        | error e => simp only [bind, Except.bind, hfiles, Except.map]
        | ok files =>
          simp only [bind, Except.bind, hfiles]
          split
          · split
            · rfl
            · cases safeZipAssetName _ <;> rfl
          · rfl
  · rw [if_neg hstep, if_neg hstep]
    rfl

theorem map_ok {α β : Type} {x : Except Failure α} {f : α → β} {b : β} (h : x.map f = .ok b) :
    ∃ a, x = .ok a ∧ f a = b := by
  cases x with
  | error e => cases h
  | ok a => exact ⟨a, rfl, Except.ok.inj h⟩

theorem derive_objects {slug slug' : String} {output : Output} {bytes : ByteArray}
    {fromSlice : ByteArray → Option Json.Value}
    {unzip : ByteArray → Except Failure (List ZipEntry)}
    (h : derive fromSlice unzip slug output bytes = .ok d)
    (h' : derive fromSlice unzip slug' output bytes = .ok d') (hapart : Apart d)
    {file file' : DerivedFile} (hfile : file ∈ d.files) (hfile' : file' ∈ d'.files)
    (hpath : file.logicalPath = file'.logicalPath) : uploaded file = uploaded file' := by
  cases output with
  | preview =>
    have hd : d = d' := Except.ok.inj (h.symm.trans h')
    subst hd
    rw [List.inj_on_of_nodup_map hapart hfile hfile' hpath]
  | download format =>
    obtain ⟨a, ha, rfl⟩ := map_ok h
    obtain ⟨a', ha', rfl⟩ := map_ok h'
    have hobject := download_object slug slug' format unzip bytes
    rw [ha, ha'] at hobject
    obtain ⟨hbytes, htype⟩ := Prod.mk.inj (Except.ok.inj hobject)
    rw [List.mem_singleton.mp hfile, List.mem_singleton.mp hfile']
    exact congrArg₂ StoredObject.mk hbytes htype

theorem derived_payload {t : Translations.Tables} {requestHash : String}
    (hfree : CollisionFree c D) (hs : Sourced c D J t) (hlinked : Linked t requestHash rawPayloadHash)
    (h : Derives c r rawPayloadHash d) : ∃ bytes, D requestHash bytes ∧
      c.hexSha256 (bytesOf bytes) = rawPayloadHash ∧ r.derive c (bytesOf bytes) = .ok d := by
  obtain ⟨payload, hpayload, hhash⟩ := hlinked.payload hs
  obtain ⟨bytes, hbytes, hderive⟩ := h
  have hsame : bytes = bytesOf payload := hfree.payload _ payload bytes hpayload
    (by rw [hbytes, hhash])
  exact ⟨payload, hpayload, hhash, hsame ▸ hderive⟩

/-- A key is of one object. -/
theorem fileOf_unique (hfree : CollisionFree c D) : Determined Served (FileOf c D J) := by
  rintro key object object' -
    ⟨r, bytes, d, file, -, hbytes, hderive, hapart, hfile, hkey, rfl⟩
    ⟨r', bytes', d', file', -, -, hderive', -, hfile', hkey', rfl⟩
  obtain ⟨hset, hpath⟩ := objectKey_inj (key_noSlash hfree) (key_noSlash hfree)
    (hkey.symm.trans hkey')
  obtain ⟨houtput, hhash, -⟩ := same_set hfree hset
  rw [hfree.payload _ bytes (bytesOf bytes') hbytes hhash.symm] at hderive'
  unfold Refresh.derive at hderive hderive'
  rw [← houtput] at hderive'
  exact derive_objects hderive hderive' hapart hfile hfile' hpath

/-- One set is published with one list of files. -/
theorem same_files {t t' : Translations.Tables} {requestHash requestHash' : String}
    (hfree : CollisionFree c D) (hname : OneName c J) (hr : J r) (hr' : J r')
    (hs : Sourced c D J t) (hlinked : Linked t requestHash rawPayloadHash)
    (hs' : Sourced c D J t') (hlinked' : Linked t' requestHash' rawPayloadHash')
    (hd : Derives c r rawPayloadHash d) (hd' : Derives c r' rawPayloadHash' d')
    (h : (r.publication c rawPayloadHash d).key = (r'.publication c rawPayloadHash' d').key) :
    (r.publication c rawPayloadHash d).files = (r'.publication c rawPayloadHash' d').files := by
  obtain ⟨houtput, rfl, hsource⟩ := same_set hfree h
  obtain ⟨bytes, hbytes, hhash, hderive⟩ := derived_payload hfree hs hlinked hd
  obtain ⟨bytes', -, hhash', hderive'⟩ := derived_payload hfree hs' hlinked' hd'
  rw [hfree.payload _ bytes (bytesOf bytes') hbytes (hhash'.trans hhash.symm)] at hderive'
  unfold Refresh.derive at hderive hderive'
  rw [← houtput, ← hname r r' hr hr' hsource] at hderive'
  cases hderive.symm.trans hderive'
  simp only [publication_files, Refresh.fileKey, h, houtput]

end Derivations

/-! ## The invariant -/

section Scope

variable (c : Setup) (D : String → List UInt8 → Prop) (J : Refresh → Prop)

/-- The first files are stored. -/
def Stored (bucket : Bucket) (r : Refresh) (rawPayloadHash : String) (d : Derived) (count : Nat) :
    Prop :=
  ∀ file ∈ d.files.take count, bucket (r.fileKey c rawPayloadHash d file) = some (uploaded file)

def UploadFact (bucket : Bucket) (r : Refresh) (rawPayloadHash : String) (d : Derived) :
    Upload → Prop
  | .uploading done => Apart d ∧ Stored c bucket r rawPayloadHash d done
  | .verifying done => Apart d ∧ Stored c bucket r rawPayloadHash d (done + 1)
  | _ => True

/-- The object of a file on record is there, as it is recorded. -/
def Backed (bucket : Bucket) (f : ArtifactFile) : Prop :=
  ∃ object, bucket f.objectKey = some object ∧ (object.bytes.size : Int) = f.byteLen ∧
    c.hexSha256 object.bytes = f.sha256 ∧ object.contentType = f.contentType

structure Intact (s : State) : Prop where
  traced : Inv c D J s
  bucket : Addressed Served (FileOf c D J) s.shared.bucket
  uploads : ∀ w ∈ s.workers, ∀ rawPayloadHash d upload,
    w.phase = .publishing rawPayloadHash d upload →
      UploadFact c s.shared.bucket w.refresh rawPayloadHash d upload

/-- What a step does to the bucket. -/
structure Writes (r : Refresh) (s : Shared) (phase' : Phase) (s' : Shared) : Prop where
  bucket : Addressed Served (FileOf c D J) s'.bucket
  keeps : Keeps Served s.bucket s'.bucket
  uploads : ∀ rawPayloadHash d upload, phase' = .publishing rawPayloadHash d upload →
    UploadFact c s'.bucket r rawPayloadHash d upload

end Scope

variable {c : Setup} {D : String → List UInt8 → Prop} {J : Refresh → Prop}

section Calls

variable {r : Refresh} {s s' : Shared} {phase phase' : Phase} {replies : Replies}
  {rawPayloadHash : String} {d : Derived} {bucket bucket' : Bucket}

theorem Stored.keep {count : Nat} (h : Stored c bucket r rawPayloadHash d count)
    (hk : Keeps Served bucket bucket') : Stored c bucket' r rawPayloadHash d count :=
  fun file hfile => hk _ _ served_objectKey (h file hfile)

theorem UploadFact.keep {upload : Upload} (h : UploadFact c bucket r rawPayloadHash d upload)
    (hk : Keeps Served bucket bucket') : UploadFact c bucket' r rawPayloadHash d upload := by
  cases upload with
  | uploading done => exact ⟨h.1, h.2.keep hk⟩
  | verifying done => exact ⟨h.1, h.2.keep hk⟩
  | _ => trivial

theorem rawPayloadObjectKey_not_served (h : String) : ¬ Served (rawPayloadObjectKey h) := by
  unfold Served rawPayloadObjectKey
  simp only [String.toList_append, List.append_assoc]
  rintro (⟨_, h⟩ | ⟨_, h⟩)
  · cases h
  · cases h

theorem putBytes_served (put : PutReply) {key : String} {object : StoredObject}
    (hfree : CollisionFree c D) (hobject : Served key → FileOf c D J key object)
    (h : Addressed Served (FileOf c D J) bucket) :
    Addressed Served (FileOf c D J) (putBytes put key object bucket) ∧
      Keeps Served bucket (putBytes put key object bucket) := by
  unfold putBytes
  split
  · exact ⟨addressed_put hobject h, keeps_put (fileOf_unique hfree) hobject h⟩
  · exact ⟨h, .refl _⟩

/-- A step that leaves the bucket alone and uploads nothing. -/
theorem Writes.quiet (h : Addressed Served (FileOf c D J) s.bucket) (hs : s'.bucket = s.bucket)
    (hphase : ∀ hash d upload, phase' = .publishing hash d upload →
      UploadFact c s.bucket r hash d upload) : Writes c D J r s phase' s' := by
  refine ⟨by rwa [hs], by rw [hs]; exact .refl _, fun hash d upload hupload => ?_⟩
  rw [hs]
  exact hphase hash d upload hupload

theorem fetch_writes {translation : Translations.Phase} (hfree : CollisionFree c D)
    (h : Addressed Served (FileOf c D J) s.bucket) :
    Writes c D J r s (fetch c replies r s translation).1 (fetch c replies r s translation).2 := by
  have hbucket : Addressed Served (FileOf c D J) (fetchedBucket c replies translation s.bucket) ∧
      Keeps Served s.bucket (fetchedBucket c replies translation s.bucket) := by
    unfold fetchedBucket
    split
    · split
      · exact ⟨h, .refl _⟩
      · exact putBytes_served _ hfree
          (fun hserved => absurd hserved (rawPayloadObjectKey_not_served _)) h
    · exact ⟨h, .refl _⟩
  refine ⟨hbucket.1, hbucket.2, fun hash d upload hphase => ?_⟩
  simp only [fetch, afterFetch] at hphase
  split at hphase <;> cases hphase

/-- What is staged has a key for each file. -/
theorem apart_of_staged {now : Timestamp} {t t' : ArtifactTables}
    (h : stageArtifact now (r.publication c rawPayloadHash d).artifact
      (r.publication c rawPayloadHash d).files t = .ok t') : Apart d := by
  obtain ⟨-, h⟩ := stageArtifact_ok h
  obtain ⟨-, -, hrows⟩ := stageArtifactInner_ok h
  have hunique := t'.files.unique
  rw [hrows, List.pairwise_append, publication_files, List.pairwise_map] at hunique
  refine List.pairwise_map.mpr (hunique.2.1.imp fun hclash hpath => hclash (.inr ?_))
  simp only [Refresh.fileKey, hpath]

theorem publishStep_writes {upload : Upload} (hfree : CollisionFree c D) (hr : J r)
    (hs : Sourced c D J s.tables) (hanswered : Answered c s.tables r rawPayloadHash)
    (hderives : Derives c r rawPayloadHash d)
    (h : Addressed Served (FileOf c D J) s.bucket)
    (hfact : UploadFact c s.bucket r rawPayloadHash d upload) :
    Writes c D J r s (publishStep c replies r s rawPayloadHash d upload).1
      (publishStep c replies r s rawPayloadHash d upload).2 := by
  cases upload with
  | staging =>
    simp only [publishStep]
    split
    · exact .quiet h rfl fun _ _ _ hphase => by cases hphase
    · rename_i artifacts hstage
      refine .quiet h rfl fun hash d' upload hphase => ?_
      cases hphase
      exact ⟨apart_of_staged hstage, fun file hfile => by simp at hfile⟩
  | uploading done =>
    obtain ⟨hapart, hstored⟩ := hfact
    simp only [publishStep]
    split
    · exact .quiet h rfl fun _ _ _ hphase => by cases hphase; trivial
    · rename_i file hfile
      obtain ⟨bytes, hbytes, rfl, hderive⟩ := derived_payload hfree hs hanswered.2 hderives
      have hobject : FileOf c D J (r.fileKey c (c.hexSha256 (bytesOf bytes)) d file)
          (uploaded file) :=
        ⟨r, bytes, d, file, hr, hbytes, hderive, hapart, List.mem_of_getElem? hfile, rfl, rfl⟩
      obtain ⟨hbucket, hkeeps⟩ := putBytes_served replies.put hfree (fun _ => hobject) h
      split
      · exact ⟨hbucket, hkeeps, fun _ _ _ hphase => by cases hphase; trivial⟩
      · rename_i hput
        refine ⟨hbucket, hkeeps, fun hash d' upload hphase => ?_⟩
        cases hphase
        refine ⟨hapart, fun other hother => ?_⟩
        rw [List.take_add_one, hfile, List.mem_append] at hother
        rcases hother with hother | hother
        · exact hstored.keep hkeeps other hother
        · cases List.mem_singleton.mp hother
          have hwritten : replies.put.written = true := by
            cases hreply : replies.put with
            | stored => rfl
            | failed written error =>
              rw [hreply] at hput
              cases hput
          simp only [putBytes, hwritten, if_true]
          exact put_self _ _ _
  | verifying done =>
    obtain ⟨hapart, hstored⟩ := hfact
    simp only [publishStep]
    split
    · rename_i hfile
      refine .quiet h rfl fun hash d' upload hphase => ?_
      cases hphase
      refine ⟨hapart, fun file hmem => hstored file ?_⟩
      rw [List.take_add_one]
      exact List.mem_append_left _ hmem
    · split
      · exact .quiet h rfl fun _ _ _ hphase => by cases hphase; trivial
      · refine .quiet h rfl fun hash d' upload hphase => ?_
        cases hphase
        exact ⟨hapart, hstored⟩
  | failing error => exact .quiet h rfl fun _ _ _ hphase => by cases hphase
  | superseding => exact .quiet h rfl fun _ _ _ hphase => by cases hphase

theorem work_writes (replies : Replies) (hfree : CollisionFree c D) (hr : J r) (hs : Sourced c D J s.tables)
    (hfact : WorkFact c D s.tables r phase) (h : Addressed Served (FileOf c D J) s.bucket)
    (hupload : ∀ hash d upload, phase = .publishing hash d upload →
      UploadFact c s.bucket r hash d upload) :
    Writes c D J r s (work c replies r s phase).1 (work c replies r s phase).2 := by
  cases phase with
  | requested =>
    simp only [work]
    split <;> exact .quiet h rfl fun _ _ _ hphase => by cases hphase
  | fetching translation => exact fetch_writes hfree h
  | recording hash => exact .quiet h rfl fun _ _ _ hphase => by cases hphase
  | loading hash =>
    simp only [work]
    split <;> exact .quiet h rfl fun _ _ _ hphase => by cases hphase
  | reading hash objectKey =>
    simp only [work]
    split <;> exact .quiet h rfl fun _ _ _ hphase => by cases hphase
  | transitioning hash derived =>
    simp only [work]
    split
    · exact .quiet h rfl fun _ _ _ hphase => by cases hphase
    · exact .quiet h rfl fun _ _ _ hphase => by cases hphase; trivial
  | publishing hash d upload =>
    obtain ⟨hanswered, hderives, -⟩ := hfact
    exact publishStep_writes hfree hr hs hanswered hderives h (hupload hash d upload rfl)
  | returned result => exact .quiet h rfl fun _ _ _ hphase => by cases hphase
  | gone => exact .quiet h rfl fun _ _ _ hphase => by cases hphase

end Calls

/-! ## Operations -/

section Operations

variable {s : State}

theorem Intact.of_workers {s' : State} (h : Intact c D J s) (htraced : Inv c D J s')
    (hbucket : Addressed Served (FileOf c D J) s'.shared.bucket)
    (hkeeps : Keeps Served s.shared.bucket s'.shared.bucket)
    (hworkers : ∀ w ∈ s'.workers, w ∈ s.workers ∨ ∀ hash d upload,
      w.phase = .publishing hash d upload →
        UploadFact c s'.shared.bucket w.refresh hash d upload) : Intact c D J s' := by
  refine ⟨htraced, hbucket, fun w hw hash d upload hphase => ?_⟩
  rcases hworkers w hw with hold | hnew
  · exact (h.uploads w hold hash d upload hphase).keep hkeeps
  · exact hnew hash d upload hphase

/-- An operation keeps what artifacts are served from, unless others write there. -/
theorem step_intact {op : Op} (hfree : CollisionFree c D) (htraced : Inv c D J (step c s op))
    (huntouched : ∀ key object, op = .overwrite key object → ¬ Served key)
    (h : Intact c D J s) :
    Intact c D J (step c s op) ∧ Keeps Served s.shared.bucket (step c s op).shared.bucket := by
  cases op with
  | call r =>
    refine ⟨h.of_workers htraced h.bucket (.refl _) fun w hw => ?_, .refl _⟩
    rcases List.mem_append.mp hw with hw | hw
    · exact .inl hw
    · rw [List.mem_singleton.mp hw]
      exact .inr fun _ _ _ hphase => by cases hphase
  | work i replies =>
    simp only [step] at htraced ⊢
    cases hworker : s.workers[i]? with
    | none => exact ⟨h, .refl _⟩
    | some w =>
      simp only [hworker] at htraced ⊢
      have hw := List.mem_of_getElem? hworker
      obtain ⟨hr, hfact⟩ := h.traced.workers w hw
      have hwrites := work_writes replies hfree hr h.traced.sourced hfact h.bucket
        fun hash d upload hphase => h.uploads w hw hash d upload hphase
      refine ⟨h.of_workers htraced hwrites.bucket hwrites.keeps fun w' hw' => ?_, hwrites.keeps⟩
      rcases List.mem_or_eq_of_mem_set hw' with hold | rfl
      · exact .inl hold
      · exact .inr hwrites.uploads
  | stop i =>
    simp only [step] at htraced ⊢
    cases hworker : s.workers[i]? with
    | none => exact ⟨h, .refl _⟩
    | some w =>
      simp only [hworker] at htraced ⊢
      refine ⟨h.of_workers htraced h.bucket (.refl _) fun w' hw' => ?_, .refl _⟩
      rcases List.mem_or_eq_of_mem_set hw' with hold | rfl
      · exact .inl hold
      · exact .inr fun _ _ _ hphase => by cases hphase
  | supersedeSet now artifactSetHash by_ reason =>
    exact ⟨h.of_workers htraced h.bucket (.refl _) fun w hw => .inl hw, .refl _⟩
  | overwrite key object =>
    have hkey : ¬ Served key := huntouched key object rfl
    have hkeeps : Keeps Served s.shared.bucket (step c s (.overwrite key object)).shared.bucket :=
      keeps_write object hkey
    exact ⟨h.of_workers htraced (addressed_write object hkey h.bucket) hkeeps fun w hw => .inl hw,
      hkeeps⟩

/-! ## Ready sets -/

/-- The files of every ready set are there. -/
def ReadyBacked (c : Setup) (s : Shared) : Prop :=
  ∀ row ∈ s.artifacts.sets.rows, row.status = .ready →
    ∀ f ∈ s.artifacts.filesOf row.artifactSetHash, Backed c s.bucket f

/-- The row was ready before, with the same files. -/
def WasReady (t t' : ArtifactTables) (row : ArtifactSet) : Prop :=
  ∃ row₀ ∈ t.sets.rows, row₀.status = .ready ∧ row₀.artifactSetHash = row.artifactSetHash ∧
    t'.filesOf row.artifactSetHash = t.filesOf row.artifactSetHash

theorem wasReady_updateSets {t : ArtifactTables} {row : ArtifactSet} {q : ArtifactSet → Bool}
    {f : ArtifactSet → ArtifactSet} {hf : Preserves f} (hstatus : ∀ row, (f row).status ≠ .ready)
    (hrow : row ∈ (t.updateSets q f hf).sets.rows) (hready : row.status = .ready) :
    WasReady t (t.updateSets q f hf) row := by
  have hupdated : row ∈ (t.sets.update q f hf).rows := hrow
  obtain ⟨row₀, hrow₀, rfl⟩ := Table.mem_update.mp hupdated
  by_cases hq : q row₀ = true
  · rw [if_pos hq] at hready
    exact absurd hready (hstatus row₀)
  · rw [if_neg hq] at hready ⊢
    exact ⟨row₀, hrow₀, hready, rfl, rfl⟩

/-- A set is made ready by an attempt that has uploaded its files. -/
theorem publishes_ready {now : Timestamp} {p : Publishing.Publication} {t t' : ArtifactTables}
    {phase phase' : Publishing.Phase} {stmt : Publishing.Stmt} {row : ArtifactSet}
    (hp : Publishing.Publishes now p t phase stmt phase' t') (hrow : row ∈ t'.sets.rows)
    (hready : row.status = .ready) :
    WasReady t t' row ∨ (phase = .uploading p.files.length ∧ row.artifactSetHash = p.key ∧
      t'.filesOf row.artifactSetHash = t.filesOf row.artifactSetHash ∧
        ∃ row₀ ∈ t.sets.rows, row₀.artifactSetHash = row.artifactSetHash) := by
  have hsame : t' = t → WasReady t t' row := by
    rintro rfl
    exact ⟨row, hrow, hready, rfl, rfl⟩
  cases hp with
  | staged hstage =>
    obtain ⟨-, hstage⟩ := stageArtifact_ok hstage
    have hfiles := filesOf_stage p.ownFiles hstage row.artifactSetHash
    have hfind : t'.sets.find? row.artifactSetHash = some row := Table.find?_of_mem hrow
    rw [(stageArtifactInner_ok hstage).1] at hfind
    by_cases hkey : row.artifactSetHash = p.artifact.artifactKey
    · rw [if_pos hkey] at hfind
      cases hfind
      cases hready
    · rw [if_neg hkey] at hfind hfiles
      exact .inl ⟨row, Table.find?_mem hfind, hready, rfl, hfiles⟩
  | marked =>
    have hupdated : row ∈ (t.sets.update (isSet p.key)
      (readySet now p.artifact.objectKey) ⟨fun _ => rfl, fun _ _ => .rfl⟩).rows := hrow
    obtain ⟨row₀, hrow₀, rfl⟩ := Table.mem_update.mp hupdated
    by_cases hset : isSet p.key row₀ = true
    · rw [if_pos hset]
      exact .inr ⟨rfl, of_decide_eq_true hset, rfl, row₀, hrow₀, rfl⟩
    · rw [if_neg hset] at hready ⊢
      exact .inl ⟨row₀, hrow₀, hready, rfl, rfl⟩
  | recorded =>
    exact .inl (wasReady_updateSets (fun _ hstatus => by cases hstatus) hrow hready)
  | superseded =>
    exact .inl (wasReady_updateSets (fun _ hstatus => by cases hstatus) hrow hready)
  | rejected => exact .inl (hsame rfl)
  | uploaded => exact .inl (hsame rfl)
  | broken => exact .inl (hsame rfl)
  | crashed => exact .inl (hsame rfl)
  | waits => exact .inl (hsame rfl)

theorem Inv.served {row : ArtifactSet} {f : ArtifactFile} (h : Inv c D J s)
    (hrow : row ∈ s.shared.artifacts.sets.rows)
    (hf : f ∈ s.shared.artifacts.filesOf row.artifactSetHash) : Served f.objectKey := by
  obtain ⟨r, hash, d, horigin⟩ := h.sets row hrow
  rw [horigin.files, publication_files] at hf
  obtain ⟨file, -, rfl⟩ := List.mem_map.mp hf
  exact served_objectKey

theorem backed_wasReady {s' : Shared} {row : ArtifactSet} (h : Inv c D J s)
    (hkeeps : Keeps Served s.shared.bucket s'.bucket) (hbacked : ReadyBacked c s.shared)
    (hwas : WasReady s.shared.artifacts s'.artifacts row) {f : ArtifactFile}
    (hf : f ∈ s'.artifacts.filesOf row.artifactSetHash) : Backed c s'.bucket f := by
  obtain ⟨row₀, hrow₀, hready, hkey, hfiles⟩ := hwas
  rw [hfiles, ← hkey] at hf
  obtain ⟨object, hobject, hdescribes⟩ := hbacked row₀ hrow₀ hready f hf
  exact ⟨object, hkeeps _ _ (h.served hrow₀ hf) hobject, hdescribes⟩

/-- The uploads of an attempt that is about to mark its set ready. -/
theorem backed_of_stored {bucket : Bucket} {r : Refresh} {hash : String} {d : Derived}
    {upload : Upload} (hfact : UploadFact c bucket r hash d upload)
    (hwithin : upload.Within d.files.length)
    (hattempt : upload.attempt = .uploading (r.publication c hash d).files.length)
    {f : ArtifactFile} (hf : f ∈ (r.publication c hash d).files) : Backed c bucket f := by
  rw [publication_files_length] at hattempt
  rw [publication_files] at hf
  obtain ⟨file, hfile, rfl⟩ := List.mem_map.mp hf
  cases upload with
  | uploading done =>
    cases hattempt
    refine ⟨uploaded file, hfact.2 file ?_, rfl, rfl, rfl⟩
    rwa [List.take_length]
  | verifying done =>
    cases hattempt
    exact absurd hwithin (Nat.lt_irrefl _)
  | staging => cases hattempt
  | failing error => cases hattempt
  | superseding => cases hattempt

theorem work_backed {w : Worker} {replies : Replies} (hname : OneName c J)
    (hfree : CollisionFree c D) (h : Intact c D J s) (hw : w ∈ s.workers)
    (hdownload : ∀ d, replies.download = .ok d → D (w.refresh.requestHash c) d.bytes)
    (hbacked : ReadyBacked c s.shared)
    (hkeeps : Keeps Served s.shared.bucket
      (work c replies w.refresh s.shared w.phase).2.bucket) :
    ReadyBacked c (work c replies w.refresh s.shared w.phase).2 := by
  obtain ⟨hr, hfact⟩ := h.traced.workers w hw
  have hworks := work_works replies h.traced.sourced hr hfact hdownload
  intro row hrow hready f hf
  rcases hworks.artifacts with hsame | ⟨hash, d, upload, stmt, hphase, hpublishes⟩
  · rw [hsame] at hrow
    refine backed_wasReady h.traced hkeeps hbacked ⟨row, hrow, hready, rfl, ?_⟩ hf
    rw [hsame]
  · rcases publishes_ready hpublishes hrow hready with hwas | ⟨hattempt, hkey, hfiles, row₀, hrow₀,
      hkey₀⟩
    · exact backed_wasReady h.traced hkeeps hbacked hwas hf
    · rw [hphase] at hfact
      obtain ⟨hanswered, hderives, hwithin⟩ := hfact
      obtain ⟨r', hash', d', horigin⟩ := h.traced.sets row₀ hrow₀
      have hkeys : (r'.publication c hash' d').key = (w.refresh.publication c hash d).key :=
        (key_of_described horigin.stated).symm.trans (hkey₀.trans hkey)
      have hsame := same_files hfree hname horigin.called hr h.traced.sourced horigin.answered.2
        h.traced.sourced hanswered.2 horigin.derives hderives hkeys
      rw [hfiles, ← hkey₀, horigin.files, hsame] at hf
      obtain ⟨object, hobject, hdescribes⟩ := backed_of_stored
        (h.uploads w hw hash d upload hphase) hwithin hattempt hf
      refine ⟨object, hkeeps _ _ ?_ hobject, hdescribes⟩
      rw [publication_files] at hf
      obtain ⟨file, -, rfl⟩ := List.mem_map.mp hf
      exact served_objectKey

theorem step_backed {op : Op} (hname : OneName c J) (hfree : CollisionFree c D)
    (hscope : InScope c D J s op) (h : Intact c D J s) (hkeeps : Keeps Served s.shared.bucket (step c s op).shared.bucket)
    (hbacked : ReadyBacked c s.shared) : ReadyBacked c (step c s op).shared := by
  cases op with
  | call r => exact hbacked
  | work i replies =>
    simp only [step] at hkeeps ⊢
    cases hworker : s.workers[i]? with
    | none => exact hbacked
    | some w =>
      simp only [hworker] at hkeeps
      exact work_backed hname hfree h (List.mem_of_getElem? hworker)
        (fun d hd => hscope w hworker d hd) hbacked hkeeps
  | stop i =>
    simp only [step]
    split <;> exact hbacked
  | supersedeSet now artifactSetHash by_ reason =>
    intro row hrow hready f hf
    refine backed_wasReady h.traced hkeeps hbacked ?_ hf
    exact wasReady_updateSets (fun _ hstatus => by cases hstatus) hrow hready
  | overwrite key object =>
    intro row hrow hready f hf
    exact backed_wasReady h.traced hkeeps hbacked ⟨row, hrow, hready, rfl, rfl⟩ hf

end Operations

/-! ## Runs -/

section Runs

variable {s : State} {ops : List Op}

/-- What is downloaded and called is in the scope, and others keep off what is served. -/
def Admissible (c : Setup) (D : String → List UInt8 → Prop) (J : Refresh → Prop) (s : State)
    (op : Op) : Prop :=
  InScope c D J s op ∧ ∀ key object, op = .overwrite key object → ¬ Served key

theorem run_intact (hfree : CollisionFree c D)
    (hops : Along (step c) (Admissible c D J) s ops) (h : Intact c D J s) :
    Intact c D J (run (step c) s ops) ∧
      Keeps Served s.shared.bucket (run (step c) s ops).shared.bucket := by
  induction ops generalizing s with
  | nil => exact ⟨h, .refl _⟩
  | cons op ops ih =>
    obtain ⟨⟨hscope, huntouched⟩, hops⟩ := hops
    obtain ⟨hstep, hkeeps⟩ := step_intact hfree (step_inv hscope h.traced) huntouched h
    obtain ⟨hrun, hrest⟩ := ih hops hstep
    exact ⟨hrun, hkeeps.trans hrest⟩

theorem run_backed (hname : OneName c J) (hfree : CollisionFree c D)
    (hops : Along (step c) (Admissible c D J) s ops) (h : Intact c D J s)
    (hb : ReadyBacked c s.shared) : ReadyBacked c (run (step c) s ops).shared := by
  induction ops generalizing s with
  | nil => exact hb
  | cons op ops ih =>
    obtain ⟨⟨hscope, huntouched⟩, hops⟩ := hops
    obtain ⟨hstep, hkeeps⟩ := step_intact hfree (step_inv hscope h.traced) huntouched h
    exact ih hops hstep (step_backed hname hfree hscope h hkeeps hb)

theorem intact_empty : Intact c D J .empty where
  traced := inv_empty
  bucket := addressed_empty
  uploads := fun _ h => by cases h

/-- Nobody but the calls writes to what artifacts are served from. -/
def Untouched (ops : List Op) : Prop := ∀ key object, Op.overwrite key object ∈ ops → ¬ Served key

theorem along_admissible (c : Setup) (huntouched : Untouched ops) :
    Along (step c) (Admissible c (downloadedIn c ops) (calledIn ops)) .empty ops := by
  have hscope := along_iff.mp (along_inScope c ops)
  rw [along_iff]
  rintro pre op post he
  refine ⟨hscope pre op post he, fun key object hop => huntouched key object ?_⟩
  rw [he, hop]
  exact List.mem_append_right _ List.mem_cons_self

/-- An object that artifacts are served from is never another one later, as the downloads promise,
whatever else the calls do and whatever others do to the payloads. -/
theorem served_objects_immutable (c : Setup) (ops later : List Op)
    (hfree : CollisionFree c (downloadedIn c (ops ++ later))) (huntouched : Untouched (ops ++ later))
    {key : String} {object : StoredObject} (hserved : Served key)
    (h : (run (step c) .empty ops).shared.bucket key = some object) :
    (run (step c) .empty (ops ++ later)).shared.bucket key = some object := by
  obtain ⟨hops, hlater⟩ := (along_admissible c huntouched).of_append
  have hbefore := run_intact hfree hops intact_empty
  have hafter := run_intact hfree hlater hbefore.1
  rw [run_append]
  exact hafter.2 key object hserved h

/-- A set that is ready at some time has its files in the bucket from then on, each with the length,
the hash and the content type on record. -/
theorem ready_sets_stored (c : Setup) (ops later : List Op)
    (hfree : CollisionFree c (downloadedIn c (ops ++ later))) (huntouched : Untouched (ops ++ later))
    (hname : OneName c (calledIn (ops ++ later))) :
    ∀ row ∈ (run (step c) .empty ops).shared.artifacts.sets.rows, row.status = .ready →
      ∀ f ∈ (run (step c) .empty ops).shared.artifacts.filesOf row.artifactSetHash,
        Backed c (run (step c) .empty (ops ++ later)).shared.bucket f := by
  obtain ⟨hops, -⟩ := (along_admissible c huntouched).of_append
  have hbefore := run_intact hfree hops intact_empty
  have hbacked := run_backed hname hfree hops intact_empty fun _ hrow => by cases hrow
  intro row hrow hready f hf
  obtain ⟨object, hobject, hdescribes⟩ := hbacked row hrow hready f hf
  refine ⟨object, ?_, hdescribes⟩
  exact served_objects_immutable c ops later hfree huntouched
    (hbefore.1.traced.served hrow hf) hobject

end Runs

/-! ## A download, twice -/

def partModel : Catalogs.Model where
  catalogSchemaVersion := 1
  entryVersion := 1
  slug := "part"
  name := "Part"
  description := ""
  published := true
  tags := []
  thumbnail := none
  onshape := ⟨"d", "v", "e", .partStudio, none⟩
  exports := ⟨[.step], .coarse, ⟨.ap242, .coarse, .binary, .coarse⟩, none⟩
  parameterPolicy := ⟨false, false⟩
  parameterPresets := []
  parameterOverrides := []

def partDownload : Refresh := ⟨partModel, [], "\x7b\x7d", .download .step, ⟨"c", "c"⟩, some "v"⟩

def partHashes : ExportHashes where
  sourceHash p := p.documentId
  configHash _ := "config"
  optionsHash format _ _ := format
  requestHash r := (r.pathParams.lookup "vid").getD ""
  postprocessHash i := i.rawPayloadHash

/-- Texts stand for their own hashes. -/
def partSetup : Setup where
  text := Json.canonicalText
  digests := ⟨Json.canonicalText, fun _ => "r"⟩
  hexSha256 bytes := String.ofList (bytes.data.toList.map fun b => Char.ofNat b.toNat)
  fromSlice _ := none
  unzip _ := .error ["not an archive"]
  hashes := partHashes
  artifactSetHash := joinArtifactSet
  microversion _ versionId := versionId
  apiHostClass := "cloud"

def partReplies : Replies where
  now := 1
  start := .ok (.object [("id", .string "t")])
  polls := [.ok (.object [("requestState", .string "DONE"),
    ("resultExternalDataIds", .array [.string "x"])])]
  download := .ok ⟨[73, 83, 79], none, "\x7b\x7d", none, none, none⟩
  put := .stored
  get := .ok true

/-- The download is called for and made. -/
def partRun (i : Nat) : List Op := .call partDownload :: List.replicate 20 (.work i partReplies)

/-- It is called for again, and then its payload is lost. -/
def partAgain : List Op := partRun 1 ++ [.overwrite "onshape/raw/v2/IS/ISO/payload.bin" none]

theorem byteChar_injective : Function.Injective fun b : UInt8 => Char.ofNat b.toNat := by
  intro a b h
  have hvalid : ∀ x : UInt8, (Char.ofNat x.toNat).toNat = x.toNat := by
    intro x
    have hx := x.toNat_lt
    rw [Char.toNat_ofNat, if_pos (.inl (by omega))]
  have hnat : a.toNat = b.toNat := by
    rw [← hvalid a, ← hvalid b]
    exact congrArg Char.toNat h
  exact UInt8.toNat_inj.mp hnat

theorem partSetup_collisionFree (D : String → List UInt8 → Prop) : CollisionFree partSetup D where
  payload requestHash a b _ h := by
    have hchars := List.map_injective_iff.mpr byteChar_injective (String.ofList_injective h)
    exact congrArg ByteArray.mk (Array.toList_inj.mp hchars)
  sets := joinArtifactSet_injective
  noSlash i := slash_notMem_joinFields _

theorem partRun_untouched : Untouched (partRun 0 ++ partAgain) := by
  intro key object hmem
  simp only [partRun, partAgain, List.replicate, List.cons_append, List.nil_append,
    List.mem_cons, List.not_mem_nil, or_false, reduceCtorEq, false_or, Op.overwrite.injEq] at hmem
  rw [hmem.1]
  decide +kernel

def partKey : String := "artifacts/v2/#.step.step.d.config.step.=v.=ISO.ISO../part-step.step"

/-- The download is served as it was, called for again and without its payload. -/
theorem served_objects_immutable_part :
    (run (step partSetup) .empty (partRun 0)).shared.bucket partKey =
        some ⟨bytesOf [73, 83, 79], "model/step"⟩ ∧
      (run (step partSetup) .empty (partRun 0 ++ partAgain)).shared.bucket partKey =
        some ⟨bytesOf [73, 83, 79], "model/step"⟩ := by
  have hstored : (run (step partSetup) .empty (partRun 0)).shared.bucket partKey =
      some ⟨bytesOf [73, 83, 79], "model/step"⟩ := by decide +kernel
  have hserved : Served partKey := by decide +kernel
  exact ⟨hstored, served_objects_immutable partSetup (partRun 0) partAgain
    (partSetup_collisionFree _) partRun_untouched hserved hstored⟩

theorem ready_sets_stored_part :
    (run (step partSetup) .empty (partRun 0)).shared.artifacts.sets.rows.map
        ArtifactSet.status = [.ready] ∧
      ∀ row ∈ (run (step partSetup) .empty (partRun 0)).shared.artifacts.sets.rows,
        row.status = .ready →
        ∀ f ∈ (run (step partSetup) .empty (partRun 0)).shared.artifacts.filesOf
            row.artifactSetHash,
          Backed partSetup (run (step partSetup) .empty (partRun 0 ++ partAgain)).shared.bucket f := by
  have hname : OneName partSetup (calledIn (partRun 0 ++ partAgain)) := by
    have hcalled : ∀ r, calledIn (partRun 0 ++ partAgain) r → r = partDownload := by
      intro r hr
      simpa [calledIn, partRun, partAgain, List.replicate] using hr
    intro r r' hr hr' _
    rw [hcalled r hr, hcalled r' hr']
  exact ⟨by decide +kernel, ready_sets_stored partSetup (partRun 0) partAgain
    (partSetup_collisionFree _) partRun_untouched hname⟩

end Pipeline
end OnshapeExport
