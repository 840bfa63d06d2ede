import OnshapeExport.ExportPipeline
import OnshapeExport.Lib.Trace

/-!
# ExportProvenance

What is published comes from the request it is published for: every set of artifacts on record was
taken out of a payload that Onshape answered the very request with. It holds in every run, whatever
becomes of the objects of the bucket in between.

* `advance_traced` — what a step of the fetch records.
* `Origin` — where a set of artifacts comes from.
* `work_inv`, `step_inv` — a step of a call, and an operation of the service.
-/

namespace OnshapeExport
namespace Pipeline

open Artifacts CacheKey CacheModel Checks ContentStore Encoding Exports ExportQueue Json
open Postprocess Preview Relational Trace Translations

section Scope

-- the payloads that were downloaded for a request, and the calls that were made
variable (c : Setup) (D : String → List UInt8 → Prop) (J : Refresh → Prop)

/-! ## The fetch -/

/-- The payload of a row was downloaded. -/
def Recorded (row : RawPayloadRecord) : Prop :=
  ∃ requestHash bytes, D requestHash bytes ∧ row.rawPayloadHash = c.hexSha256 (bytesOf bytes) ∧
    row.objectKey = rawPayloadObjectKey row.rawPayloadHash ∧ row.byteLen = bytes.length

def OnRecord (t : Translations.Tables) (rawPayloadHash : String) : Prop :=
  ∃ row ∈ t.rawPayloads.rows, row.rawPayloadHash = rawPayloadHash

/-- A payload is linked to a translation of the request. -/
def Linked (t : Translations.Tables) (requestHash rawPayloadHash : String) : Prop :=
  ∃ l ∈ t.rawPayloadSources.rows, l.requestHash = requestHash ∧ l.rawPayloadHash = rawPayloadHash

structure Sourced (t : Translations.Tables) : Prop where
  payloads : ∀ row ∈ t.rawPayloads.rows, Recorded c D row
  links : ∀ l ∈ t.rawPayloadSources.rows,
    (∃ r, J r ∧ l.requestHash = r.requestHash c) ∧ OnRecord t l.rawPayloadHash ∧
      ∃ bytes, D l.requestHash bytes ∧ c.hexSha256 (bytesOf bytes) = l.rawPayloadHash

/-- Payloads and their links stay as they are recorded. -/
structure Grows (t t' : Translations.Tables) : Prop where
  payloads : ∀ row ∈ t.rawPayloads.rows, row ∈ t'.rawPayloads.rows
  links : ∀ l ∈ t.rawPayloadSources.rows, l ∈ t'.rawPayloadSources.rows

/-- What a fetch has seen to. -/
def FetchFact (t : Translations.Tables) (requestHash : String) : Translations.Phase → Prop
  | .storing _ d => D requestHash d.bytes
  | .inserting _ d _ => D requestHash d.bytes
  | .linking _ d => D requestHash d.bytes ∧ OnRecord t (c.hexSha256 (bytesOf d.bytes))
  | .linked rawPayloadHash => Linked t requestHash rawPayloadHash
  | _ => True

structure Traced (t : Translations.Tables) (requestHash : String) (o : Outcome) : Prop where
  sourced : Sourced c D J o.tables
  grows : Grows t o.tables
  fact : FetchFact c D o.tables requestHash o.phase
  returned : ∀ h, returnedBy o.events = some (.ok h) → Linked o.tables requestHash h

end Scope

variable {c : Setup} {D : String → List UInt8 → Prop} {J : Refresh → Prop}

section Fetch

variable {t t' t'' : Translations.Tables} {requestHash rawPayloadHash : String}

theorem Grows.refl (t : Translations.Tables) : Grows t t := ⟨fun _ h => h, fun _ h => h⟩

theorem Grows.trans (h : Grows t t') (h' : Grows t' t'') : Grows t t'' :=
  ⟨fun row hrow => h'.payloads row (h.payloads row hrow),
    fun l hl => h'.links l (h.links l hl)⟩

theorem OnRecord.grow (h : OnRecord t rawPayloadHash) (hg : Grows t t') :
    OnRecord t' rawPayloadHash := by
  obtain ⟨row, hrow, hhash⟩ := h
  exact ⟨row, hg.payloads row hrow, hhash⟩

theorem Linked.grow (h : Linked t requestHash rawPayloadHash) (hg : Grows t t') :
    Linked t' requestHash rawPayloadHash := by
  obtain ⟨l, hl, hlink⟩ := h
  exact ⟨l, hg.links l hl, hlink⟩

theorem FetchFact.grow {phase : Translations.Phase} (h : FetchFact c D t requestHash phase)
    (hg : Grows t t') : FetchFact c D t' requestHash phase := by
  cases phase with
  | linking r d => exact ⟨h.1, h.2.grow hg⟩
  | linked hash => exact Linked.grow h hg
  | _ => exact h

/-- The payload of a link was downloaded for its request. -/
theorem Linked.payload (h : Linked t requestHash rawPayloadHash) (hs : Sourced c D J t) :
    ∃ bytes, D requestHash bytes ∧ c.hexSha256 (bytesOf bytes) = rawPayloadHash := by
  obtain ⟨l, hl, rfl, rfl⟩ := h
  exact (hs.links l hl).2.2

theorem traced_proceed {phase : Translations.Phase} (hs : Sourced c D J t)
    (hfact : FetchFact c D t requestHash phase) :
    Traced c D J t requestHash (proceed t phase) :=
  ⟨hs, .refl t, hfact, fun _ h => by cases h⟩

theorem traced_error (e : String) (hs : Sourced c D J t) :
    Traced c D J t requestHash (Translations.finish t (.error e)) :=
  ⟨hs, .refl t, trivial, fun _ h => by cases h⟩

theorem traced_ok (hs : Sourced c D J t) (hlink : Linked t requestHash rawPayloadHash) :
    Traced c D J t requestHash (Translations.finish t (.ok rawPayloadHash)) := by
  refine ⟨hs, .refl t, trivial, fun h hok => ?_⟩
  cases hok
  exact hlink

/-- What the rows of the translations are does not matter. -/
theorem traced_translations {translations : Table TranslationRecord}
    {phase : Translations.Phase} {events : List Translations.Event} (hs : Sourced c D J t)
    (hfact : FetchFact c D t requestHash phase) (hevents : ∀ h, returnedBy events ≠ some (.ok h)) :
    Traced c D J t requestHash ⟨phase, { t with translations := translations }, events⟩ := by
  have hgrows : Grows t { t with translations := translations } := ⟨fun _ h => h, fun _ h => h⟩
  exact ⟨⟨hs.payloads, hs.links⟩, hgrows, hfact.grow hgrows, fun h hok => absurd hok (hevents h)⟩

theorem linked_of_lookup {request : Translations.ExportRequest} {result : Translations.Result}
    (h : rawPayloadHashForSource t.rawPayloadSources (request.sourceKey result) =
      some rawPayloadHash) : Linked t request.requestHash rawPayloadHash := by
  obtain ⟨l, hl, hhash⟩ := Option.map_eq_some_iff.mp h
  have hkey : l.key = request.sourceKey result := Table.find?_key hl
  exact ⟨l, Table.find?_mem hl, congrArg SourceKey.requestHash hkey, hhash⟩

theorem traced_lookUp (request : Translations.ExportRequest) {result : Translations.Result}
    {missing : Translations.Phase} (hs : Sourced c D J t)
    (hmissing : FetchFact c D t request.requestHash missing) :
    Traced c D J t request.requestHash (lookUp request t result missing) := by
  unfold lookUp
  split
  · rename_i hash hlookup
    exact traced_proceed hs (linked_of_lookup hlookup)
  · exact traced_proceed hs hmissing

theorem traced_insert {row : RawPayloadRecord} {rawPayloads : Table RawPayloadRecord}
    (hs : Sourced c D J t) (hrow : Recorded c D row)
    (h : insertRawPayloadIfAbsent row t.rawPayloads = some rawPayloads) :
    Sourced c D J { t with rawPayloads := rawPayloads } ∧
      Grows t { t with rawPayloads := rawPayloads } ∧
      OnRecord { t with rawPayloads := rawPayloads } row.rawPayloadHash := by
  unfold insertRawPayloadIfAbsent at h
  split at h
  · rename_i hfound
    cases h
    obtain ⟨found, hfound⟩ := Option.isSome_iff_exists.mp hfound
    exact ⟨hs, .refl t, found, Table.find?_mem hfound, Table.find?_key hfound⟩
  · obtain ⟨hrows, -⟩ := Table.insert?_eq_some h
    have hgrows : Grows t { t with rawPayloads := rawPayloads } := by
      refine ⟨fun a ha => ?_, fun _ hl => hl⟩
      simp only [hrows]
      exact List.mem_append_left _ ha
    refine ⟨⟨fun a ha => ?_, fun l hl => ?_⟩, hgrows, row, ?_, rfl⟩
    · simp only [hrows] at ha
      rcases List.mem_append.mp ha with ha | ha
      · exact hs.payloads a ha
      · rw [List.mem_singleton.mp ha]
        exact hrow
    · obtain ⟨hcalled, hrecord, hpayload⟩ := hs.links l hl
      exact ⟨hcalled, hrecord.grow hgrows, hpayload⟩
    · simp only [hrows]
      exact List.mem_append_right _ (List.mem_singleton_self row)

theorem traced_link {row : RawPayloadSource} {rawPayloadSources : Table RawPayloadSource}
    (hs : Sourced c D J t) (hrequest : ∃ r, J r ∧ row.requestHash = r.requestHash c)
    (hrecord : OnRecord t row.rawPayloadHash)
    (hpayload : ∃ bytes, D row.requestHash bytes ∧ c.hexSha256 (bytesOf bytes) = row.rawPayloadHash)
    (h : t.rawPayloadSources.insert? row = some rawPayloadSources) :
    Traced c D J t row.requestHash
      (Translations.finish { t with rawPayloadSources := rawPayloadSources }
        (.ok row.rawPayloadHash)) := by
  obtain ⟨hrows, -⟩ := Table.insert?_eq_some h
  have hgrows : Grows t { t with rawPayloadSources := rawPayloadSources } := by
    refine ⟨fun _ hrow => hrow, fun l hl => ?_⟩
    simp only [hrows]
    exact List.mem_append_left _ hl
  refine ⟨⟨hs.payloads, fun l hl => ?_⟩, hgrows, trivial, fun hash hok => ?_⟩
  · have hl' : l ∈ t.rawPayloadSources.rows ++ [row] := by
      rw [← hrows]
      exact hl
    rcases List.mem_append.mp hl' with hl | hl
    · obtain ⟨hcalled, hrecord, hpayload⟩ := hs.links l hl
      exact ⟨hcalled, hrecord.grow hgrows, hpayload⟩
    · rw [List.mem_singleton.mp hl]
      exact ⟨hrequest, hrecord.grow hgrows, hpayload⟩
  · cases hok
    refine ⟨row, ?_, rfl, rfl⟩
    simp only [Translations.finish, hrows]
    exact List.mem_append_right _ (List.mem_singleton_self row)

/-- What a step of the fetch records, and what it returns. -/
theorem advance_traced {r : Refresh} (now : Timestamp) (answers : Answers)
    {phase : Translations.Phase} (hs : Sourced c D J t) (hr : J r)
    (hfact : FetchFact c D t (r.requestHash c) phase)
    (hdownload : ∀ d, answers.download = .ok d → D (r.requestHash c) d.bytes) :
    Traced c D J t (r.requestHash c)
      (advance c.text c.digests c.inspection (r.request c) now answers t phase) := by
  cases phase with
  | idle =>
    simp only [advance]
    split <;> exact traced_proceed hs trivial
  | found translation =>
    simp only [advance]
    split
    · exact traced_error _ hs
    · exact traced_lookUp (r.request c) hs trivial
  | resuming translation =>
    simp only [advance]
    split
    · exact traced_error _ hs
    · split
      · exact traced_error _ hs
      · exact traced_lookUp (r.request c) hs trivial
  | unfinished =>
    simp only [advance]
    split
    · exact traced_proceed hs trivial
    · split <;> exact traced_proceed hs trivial
  | starting =>
    simp only [advance]
    split <;> exact ⟨hs, .refl t, trivial, fun _ h => by cases h⟩
  | started s =>
    exact traced_translations hs trivial fun _ h => by cases h
  | polling translationId startResponseJson fresh =>
    simp only [advance]
    split
    · exact traced_error _ hs
    · exact traced_proceed hs trivial
  | polled translationId p responseHash fresh =>
    simp only [advance]
    split
    · exact traced_translations hs trivial fun _ h => by cases h
    · split
      · exact traced_translations hs trivial fun _ h => by cases h
      · refine traced_translations hs ?_ fun _ h => by cases h
        split <;> trivial
  | checking result =>
    exact traced_lookUp (r.request c) hs trivial
  | downloading result =>
    simp only [advance]
    split
    · exact traced_error _ hs
    · exact traced_error _ hs
    · rename_i d _ hd
      exact traced_proceed hs (hdownload d hd)
  | storing result d =>
    simp only [advance]
    split
    · exact traced_error _ hs
    · exact traced_error _ hs
    · exact traced_proceed hs hfact
  | inserting result d zipManifestJson =>
    simp only [advance]
    split
    · exact traced_error _ hs
    · rename_i rawPayloads hinsert
      obtain ⟨hs', hgrows, hrecord⟩ := traced_insert hs ⟨_, d.bytes, hfact, rfl, rfl, rfl⟩ hinsert
      exact ⟨hs', hgrows, ⟨hfact, hrecord⟩, fun _ h => by cases h⟩
  | linking result d =>
    simp only [advance]
    split
    · rename_i rawPayloadSources hinsert
      exact traced_link hs ⟨r, hr, rfl⟩ hfact.2 ⟨d.bytes, hfact.1, rfl⟩ hinsert
    · exact traced_proceed hs trivial
  | comparing result rawPayloadHash =>
    simp only [advance]
    split
    · rename_i hlookup
      exact traced_ok hs (linked_of_lookup hlookup)
    · exact traced_error _ hs
  | linked rawPayloadHash =>
    simp only [advance]
    split
    · exact traced_ok hs hfact
    · exact traced_error _ hs

end Fetch

/-! ## Sets of artifacts -/

/-- A row without its status and its times. -/
def described (row : ArtifactSet) : ArtifactSet :=
  { row with
    status := .staged
    primaryObjectKey := none
    createdAt := 0
    updatedAt := 0
    supersededAt := none
    supersededBy := none
    supersessionReason := none }

section Described

variable {now : Timestamp} {p : Publishing.Publication} {t t' : ArtifactTables}
  {phase phase' : Publishing.Phase} {stmt : Publishing.Stmt} {row : ArtifactSet}

theorem key_of_described {row row' : ArtifactSet} (h : described row = described row') :
    row.artifactSetHash = row'.artifactSetHash := by
  have hkey := congrArg ArtifactSet.artifactSetHash h
  exact hkey

/-- The row says what a row before it said, with the same files. -/
def Continues (t t' : ArtifactTables) (row : ArtifactSet) : Prop :=
  ∃ row₀ ∈ t.sets.rows, described row = described row₀ ∧
    t'.filesOf row.artifactSetHash = t.filesOf row.artifactSetHash

theorem continues_self (hrow : row ∈ t.sets.rows) : Continues t t row := ⟨row, hrow, rfl, rfl⟩

theorem continues_updateSets {q : ArtifactSet → Bool} {f : ArtifactSet → ArtifactSet}
    {hf : Preserves f} (hdescribed : ∀ row, described (f row) = described row)
    (hrow : row ∈ (t.updateSets q f hf).sets.rows) : Continues t (t.updateSets q f hf) row := by
  have hupdated : row ∈ (t.sets.update q f hf).rows := hrow
  obtain ⟨row₀, hrow₀, rfl⟩ := Table.mem_update.mp hupdated
  refine ⟨row₀, hrow₀, ?_, rfl⟩
  split
  · exact hdescribed row₀
  · rfl

theorem publishes_described (hp : Publishing.Publishes now p t phase stmt phase' t')
    (hrow : row ∈ t'.sets.rows) :
    Continues t t' row ∨
      (described row = described (stagedSet 0 p.artifact) ∧
        t'.filesOf row.artifactSetHash = p.files) := by
  cases hp with
  | staged hstage =>
    obtain ⟨-, hstage⟩ := stageArtifact_ok hstage
    have hfiles := filesOf_stage p.ownFiles hstage row.artifactSetHash
    have hfind : t'.sets.find? row.artifactSetHash = some row := Table.find?_of_mem hrow
    rw [(stageArtifactInner_ok hstage).1] at hfind
    by_cases hkey : row.artifactSetHash = p.artifact.artifactKey
    · rw [if_pos hkey] at hfind hfiles
      cases hfind
      exact .inr ⟨rfl, hfiles⟩
    · rw [if_neg hkey] at hfind hfiles
      exact .inl ⟨row, Table.find?_mem hfind, rfl, hfiles⟩
  | marked => exact .inl (continues_updateSets (fun _ => rfl) hrow)
  | recorded => exact .inl (continues_updateSets (fun _ => rfl) hrow)
  | superseded => exact .inl (continues_updateSets (fun _ => rfl) hrow)
  | rejected => exact .inl (continues_self hrow)
  | uploaded => exact .inl (continues_self hrow)
  | broken => exact .inl (continues_self hrow)
  | crashed => exact .inl (continues_self hrow)
  | waits => exact .inl (continues_self hrow)

end Described

/-! ## Calls -/

section Scope

variable (c : Setup) (D : String → List UInt8 → Prop) (J : Refresh → Prop)

/-- The request is the one that the call was queued for. -/
def Refresh.Expected (r : Refresh) : Prop :=
  ∀ expected ∈ r.expectedRequestHash, r.requestHash c = expected

/-- The files are taken out of bytes with the hash of the payload. -/
def Derives (r : Refresh) (rawPayloadHash : String) (d : Derived) : Prop :=
  ∃ bytes, c.hexSha256 bytes = rawPayloadHash ∧ r.derive c bytes = .ok d

/-- The payload is one that the request was answered with. -/
def Answered (t : Translations.Tables) (r : Refresh) (rawPayloadHash : String) : Prop :=
  r.Expected c ∧ Linked t (r.requestHash c) rawPayloadHash

/-- What a call has seen to. -/
def WorkFact (t : Translations.Tables) (r : Refresh) : Phase → Prop
  | .fetching phase => r.Expected c ∧ FetchFact c D t (r.requestHash c) phase
  | .recording rawPayloadHash => Answered c t r rawPayloadHash
  | .loading rawPayloadHash => Answered c t r rawPayloadHash
  | .reading rawPayloadHash _ => Answered c t r rawPayloadHash
  | .transitioning rawPayloadHash derived => Answered c t r rawPayloadHash ∧
      ∃ bytes, c.hexSha256 bytes = rawPayloadHash ∧ derived = r.derive c bytes
  | .publishing rawPayloadHash d upload => Answered c t r rawPayloadHash ∧
      Derives c r rawPayloadHash d ∧ upload.Within d.files.length
  | _ => True

/-- Where a set of artifacts comes from. -/
structure Origin (s : Shared) (row : ArtifactSet) (r : Refresh) (rawPayloadHash : String)
    (d : Derived) : Prop where
  called : J r
  answered : Answered c s.tables r rawPayloadHash
  derives : Derives c r rawPayloadHash d
  stated : described row = described (stagedSet 0 (r.publication c rawPayloadHash d).artifact)
  files : s.artifacts.filesOf row.artifactSetHash = (r.publication c rawPayloadHash d).files

structure Inv (s : State) : Prop where
  sourced : Sourced c D J s.shared.tables
  sets : ∀ row ∈ s.shared.artifacts.sets.rows, ∃ r rawPayloadHash d,
    Origin c J s.shared row r rawPayloadHash d
  workers : ∀ w ∈ s.workers, J w.refresh ∧ WorkFact c D s.shared.tables w.refresh w.phase

/-- What a step of a call leaves. -/
structure Works (now : Timestamp) (r : Refresh) (s : Shared) (phase phase' : Phase)
    (s' : Shared) : Prop where
  sourced : Sourced c D J s'.tables
  grows : Grows s.tables s'.tables
  fact : WorkFact c D s'.tables r phase'
  artifacts : s'.artifacts = s.artifacts ∨ ∃ rawPayloadHash d upload stmt,
    phase = .publishing rawPayloadHash d upload ∧
      Publishing.Publishes now (r.publication c rawPayloadHash d) s.artifacts upload.attempt stmt
        phase'.attempt s'.artifacts

end Scope

section Calls

variable {r : Refresh} {s s' : Shared} {phase phase' : Phase} {replies : Replies}

theorem WorkFact.grow {t t' : Translations.Tables} (h : WorkFact c D t r phase) (hg : Grows t t') :
    WorkFact c D t' r phase := by
  cases phase with
  | fetching phase => exact ⟨h.1, h.2.grow hg⟩
  | recording => exact ⟨h.1, h.2.grow hg⟩
  | loading => exact ⟨h.1, h.2.grow hg⟩
  | reading => exact ⟨h.1, h.2.grow hg⟩
  | transitioning => exact ⟨⟨h.1.1, h.1.2.grow hg⟩, h.2⟩
  | publishing => exact ⟨⟨h.1.1, h.1.2.grow hg⟩, h.2⟩
  | _ => trivial

/-- A step that touches neither the payloads nor the sets. -/
theorem Works.quiet {now : Timestamp} (hs : Sourced c D J s.tables) (htables : s'.tables = s.tables)
    (hartifacts : s'.artifacts = s.artifacts) (hfact : WorkFact c D s.tables r phase') :
    Works c D J now r s phase phase' s' :=
  ⟨by rwa [htables], by rw [htables]; exact .refl _, by rwa [htables], .inl hartifacts⟩

theorem verifyRawPayloadBytes_ok {rawPayloadHash : String} {bytes : ByteArray} :
    verifyRawPayloadBytes c rawPayloadHash bytes = .ok () ↔ c.hexSha256 bytes = rawPayloadHash :=
  Checks.ensure_ok

theorem fetch_works {translation : Translations.Phase} (hs : Sourced c D J s.tables) (hr : J r)
    (hfact : WorkFact c D s.tables r (.fetching translation))
    (hdownload : ∀ d, replies.download = .ok d → D (r.requestHash c) d.bytes) :
    Works c D J replies.now r s (.fetching translation) (fetch c replies r s translation).1
      (fetch c replies r s translation).2 := by
  obtain ⟨hexpected, hfact⟩ := hfact
  have htraced := advance_traced replies.now replies.answers hs hr hfact
    hdownload
  refine ⟨htraced.sourced, htraced.grows, ?_, .inl rfl⟩
  simp only [fetch, afterFetch]
  split
  · rename_i hash hreturned
    exact ⟨hexpected, htraced.returned hash hreturned⟩
  · trivial
  · exact ⟨hexpected, htraced.fact⟩

theorem work_works (replies : Replies) (hs : Sourced c D J s.tables) (hr : J r) (hfact : WorkFact c D s.tables r phase)
    (hdownload : ∀ d, replies.download = .ok d → D (r.requestHash c) d.bytes) :
    Works c D J replies.now r s phase (work c replies r s phase).1 (work c replies r s phase).2 := by
  cases phase with
  | requested =>
    simp only [work]
    split
    · rename_i hexpected
      exact .quiet hs rfl rfl ⟨hexpected, trivial⟩
    · exact .quiet hs rfl rfl trivial
  | fetching translation => exact fetch_works hs hr hfact hdownload
  | recording hash => exact .quiet hs rfl rfl hfact
  | loading hash =>
    simp only [work]
    split
    · exact .quiet hs rfl rfl trivial
    · exact .quiet hs rfl rfl hfact
  | reading hash objectKey =>
    simp only [work]
    split
    · exact .quiet hs rfl rfl trivial
    · rename_i bytes hverified
      obtain ⟨⟨object, typed⟩, -, hverified⟩ := bind_ok.mp hverified
      obtain ⟨hbytes, hverified⟩ := seq_ok.mp hverified
      cases hverified
      exact .quiet hs rfl rfl ⟨hfact, object.bytes, verifyRawPayloadBytes_ok.mp hbytes, rfl⟩
  | transitioning hash derived =>
    obtain ⟨hanswered, bytes, hbytes, hderived⟩ := hfact
    simp only [work]
    split
    · exact .quiet hs rfl rfl trivial
    · exact .quiet hs rfl rfl ⟨hanswered, ⟨bytes, hbytes, hderived.symm⟩, trivial⟩
  | publishing hash d upload =>
    obtain ⟨hanswered, hderives, hwithin⟩ := hfact
    have hstep := publishStep_publishes (c := c) replies r s hash hwithin
    obtain ⟨stmt, hstatement⟩ := hstep.statement
    refine ⟨?_, ?_, ?_, .inr ⟨hash, d, upload, stmt, rfl, hstatement⟩⟩
    · rw [work, hstep.tables]
      exact hs
    · rw [work, hstep.tables]
      exact .refl _
    · rw [work, hstep.tables]
      rcases hstep.goesOn with ⟨upload', hphase, hwithin'⟩ | ⟨result, hphase⟩
      · rw [hphase]
        exact ⟨hanswered, hderives, hwithin'⟩
      · rw [hphase]
        trivial
  | returned result => exact .quiet hs rfl rfl trivial
  | gone => exact .quiet hs rfl rfl trivial

end Calls

/-! ## Runs -/

section Runs

variable {s : State}

theorem Origin.keep {s s' : Shared} {row row₀ : ArtifactSet} {r : Refresh} {rawPayloadHash : String}
    {d : Derived} (h : Origin c J s row₀ r rawPayloadHash d) (hg : Grows s.tables s'.tables)
    (hrow : described row = described row₀)
    (hfiles : s'.artifacts.filesOf row.artifactSetHash = s.artifacts.filesOf row.artifactSetHash) :
    Origin c J s' row r rawPayloadHash d := by
  refine ⟨h.called, ⟨h.answered.1, h.answered.2.grow hg⟩, h.derives, hrow.trans h.stated, ?_⟩
  rw [hfiles, key_of_described hrow, h.files]

/-- Every set comes from somewhere when every row continues one that did. -/
theorem origins_continue {s s' : Shared} (hg : Grows s.tables s'.tables)
    (h : ∀ row ∈ s.artifacts.sets.rows, ∃ r rawPayloadHash d, Origin c J s row r rawPayloadHash d)
    {row : ArtifactSet} (hrow : Continues s.artifacts s'.artifacts row) :
    ∃ r rawPayloadHash d, Origin c J s' row r rawPayloadHash d := by
  obtain ⟨row₀, hrow₀, hdescribed, hfiles⟩ := hrow
  obtain ⟨r, hash, d, horigin⟩ := h row₀ hrow₀
  exact ⟨r, hash, d, horigin.keep hg hdescribed hfiles⟩

theorem Works.origins {now : Timestamp} {r : Refresh} {s s' : Shared} {phase phase' : Phase}
    (h : Works c D J now r s phase phase' s') (hr : J r) (hfact : WorkFact c D s.tables r phase)
    (hsets : ∀ row ∈ s.artifacts.sets.rows, ∃ r rawPayloadHash d,
      Origin c J s row r rawPayloadHash d) :
    ∀ row ∈ s'.artifacts.sets.rows, ∃ r rawPayloadHash d, Origin c J s' row r rawPayloadHash d := by
  intro row hrow
  rcases h.artifacts with hsame | ⟨hash, d, upload, stmt, rfl, hpublishes⟩
  · rw [hsame] at hrow
    refine origins_continue h.grows hsets ?_
    rw [hsame]
    exact continues_self hrow
  · rcases publishes_described hpublishes hrow with hcontinues | ⟨hdescribed, hfiles⟩
    · exact origins_continue h.grows hsets hcontinues
    · obtain ⟨hanswered, hderives, -⟩ := hfact
      exact ⟨r, hash, d, hr, ⟨hanswered.1, hanswered.2.grow h.grows⟩, hderives, hdescribed, hfiles⟩

/-- The call is one of those that are made, and the payload one of those of its request. -/
def InScope (c : Setup) (D : String → List UInt8 → Prop) (J : Refresh → Prop) (s : State) :
    Op → Prop
  | .call r => J r
  | .work i replies => ∀ w ∈ s.workers[i]?, ∀ d, replies.download = .ok d →
      D (w.refresh.requestHash c) d.bytes
  | _ => True

theorem Inv.of_workers {s' : State} (h : Inv c D J s) (hshared : s'.shared = s.shared)
    (hworkers : ∀ w ∈ s'.workers, w ∈ s.workers ∨
      (J w.refresh ∧ WorkFact c D s.shared.tables w.refresh w.phase)) : Inv c D J s' := by
  refine ⟨by rw [hshared]; exact h.sourced, by rw [hshared]; exact h.sets, fun w hw => ?_⟩
  rw [hshared]
  rcases hworkers w hw with hold | hnew
  · exact h.workers w hold
  · exact hnew

theorem step_inv {op : Op} (hscope : InScope c D J s op)
    (h : Inv c D J s) : Inv c D J (step c s op) := by
  cases op with
  | call r =>
    refine h.of_workers rfl fun w hw => ?_
    rcases List.mem_append.mp hw with hw | hw
    · exact .inl hw
    · rw [List.mem_singleton.mp hw]
      exact .inr ⟨hscope, trivial⟩
  | work i replies =>
    simp only [step]
    cases hworker : s.workers[i]? with
    | none => exact h
    | some w =>
      obtain ⟨hr, hfact⟩ := h.workers w (List.mem_of_getElem? hworker)
      have hworks := work_works replies h.sourced hr hfact
        fun d hd => hscope w hworker d hd
      refine ⟨hworks.sourced, hworks.origins hr hfact h.sets, fun w' hw' => ?_⟩
      rcases List.mem_or_eq_of_mem_set hw' with hold | rfl
      · obtain ⟨hr', hfact'⟩ := h.workers w' hold
        exact ⟨hr', hfact'.grow hworks.grows⟩
      · exact ⟨hr, hworks.fact⟩
  | stop i =>
    simp only [step]
    cases hworker : s.workers[i]? with
    | none => exact h
    | some w =>
      refine h.of_workers rfl fun w' hw' => ?_
      rcases List.mem_or_eq_of_mem_set hw' with hold | rfl
      · exact .inl hold
      · exact .inr ⟨(h.workers w (List.mem_of_getElem? hworker)).1, trivial⟩
  | supersedeSet now artifactSetHash by_ reason =>
    refine ⟨h.sourced, fun row hrow => ?_, h.workers⟩
    have hgrows : Grows s.shared.tables
        (step c s (.supersedeSet now artifactSetHash by_ reason)).shared.tables := .refl _
    exact origins_continue hgrows h.sets (continues_updateSets (fun _ => rfl) hrow)
  | overwrite key object =>
    refine ⟨h.sourced, fun row hrow => ?_, h.workers⟩
    have hgrows : Grows s.shared.tables (step c s (.overwrite key object)).shared.tables := .refl _
    exact origins_continue hgrows h.sets (continues_self hrow)

/-- A payload that a call of the request was given in the run. -/
def downloadedIn (c : Setup) (ops : List Op) (requestHash : String) (bytes : List UInt8) : Prop :=
  ∃ pre i replies post w d, ops = pre ++ .work i replies :: post ∧
    (run (step c) .empty pre).workers[i]? = some w ∧ w.refresh.requestHash c = requestHash ∧
    replies.download = .ok d ∧ d.bytes = bytes

/-- A call that was made in the run. -/
def calledIn (ops : List Op) (r : Refresh) : Prop := Op.call r ∈ ops

theorem inv_empty : Inv c D J .empty where
  sourced := ⟨(fun _ h => by cases h), (fun _ h => by cases h)⟩
  sets := fun _ h => by cases h
  workers := fun _ h => by cases h

theorem along_inScope (c : Setup) (ops : List Op) :
    Along (step c) (InScope c (downloadedIn c ops) (calledIn ops)) .empty ops := by
  rw [along_iff]
  rintro pre op post rfl
  cases op with
  | call r => exact List.mem_append_right _ List.mem_cons_self
  | work i replies => exact fun w hw d hd => ⟨pre, i, replies, post, w, d, rfl, hw, rfl, hd, rfl⟩
  | _ => trivial

theorem run_inv (c : Setup) (ops : List Op) :
    Inv c (downloadedIn c ops) (calledIn ops) (run (step c) .empty ops) :=
  (always_of_step inv_empty (fun _ _ h hscope => step_inv hscope h) (along_inScope c ops)).last

/-- What a set of artifacts on record is worth. -/
structure Provenance (c : Setup) (ops : List Op) (s : Shared) (row : ArtifactSet) (r : Refresh)
    (d : Derived) : Prop where
  called : Op.call r ∈ ops
  expected : ∀ expected ∈ r.expectedRequestHash, r.requestHash c = expected
  /-- The payload was downloaded for the request and linked to it, and the files are taken out of
  it. -/
  payload : ∃ payload bytes, downloadedIn c ops (r.requestHash c) payload ∧
    c.hexSha256 bytes = c.hexSha256 (bytesOf payload) ∧ r.derive c bytes = .ok d ∧
    row.rawPayloadHash = some (c.hexSha256 bytes) ∧
    Linked s.tables (r.requestHash c) (c.hexSha256 bytes) ∧
    row.artifactSetHash = (r.publication c (c.hexSha256 bytes) d).key
  requestHash : row.requestHash = some (r.requestHash c)
  outputKind : row.outputKind = r.output.kind
  /-- The files on record are the derived ones. -/
  files : s.artifacts.filesOf row.artifactSetHash = d.files.map fun file =>
    ⟨row.artifactSetHash, file.role, file.logicalPath, file.originalPath,
      objectKey row.outputKind row.artifactSetHash file.logicalPath, file.contentType,
      file.bytes.size, c.hexSha256 file.bytes, "\x7b\x7d"⟩
  wellFormed : WellFormed c.fromSlice r.output d

/-- Whatever calls are made in whatever order, however they end and whatever becomes of the bucket,
a set of artifacts is on record only with the files that are taken out of a payload of its request,
as it was downloaded. -/
theorem published_provenance (c : Setup) (ops : List Op) :
    let s := (run (step c) .empty ops).shared
    ∀ row ∈ s.artifacts.sets.rows, ∃ r d, Provenance c ops s row r d := by
  intro s row hrow
  have hinv := run_inv c ops
  obtain ⟨r, hash, d, horigin⟩ := hinv.sets row hrow
  obtain ⟨bytes, rfl, hderive⟩ := horigin.derives
  obtain ⟨payload, hpayload, hhash⟩ := horigin.answered.2.payload hinv.sourced
  have hstated := horigin.stated
  refine ⟨r, d, ?_⟩
  exact {
    called := horigin.called
    expected := horigin.answered.1
    payload := ⟨payload, bytes, hpayload, hhash.symm, hderive,
      congrArg ArtifactSet.rawPayloadHash hstated, horigin.answered.2, key_of_described hstated⟩
    requestHash := congrArg ArtifactSet.requestHash hstated
    outputKind := congrArg ArtifactSet.outputKind hstated
    files := by
      have hkind : row.outputKind = r.output.kind := congrArg ArtifactSet.outputKind hstated
      rw [horigin.files, publication_files, hkind, key_of_described hstated]
      rfl
    wellFormed := derived_wellFormed hderive }

end Runs

end Pipeline
end OnshapeExport
