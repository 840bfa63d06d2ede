import OnshapeExport.GeneratorLifecycle
import OnshapeExport.ProjectExecution

/-!
# ProjectRecovery

What holds of a project request over every interleaving of its executions: it is bound once, what is
published for it is what it is bound to, and an execution that found it bound asks nothing of
Onshape or of the generator.

* `Backed` — what an execution publishes, and the row that vouches for it.
* `Stage.Sound`, `ExecutionInv`, `Inv` — the invariants of a stage, an execution and a state.
* `Later`, `Follows`, `work_follows` — what one step of one execution does to the others.
* `recovery` — the protocol.
-/

namespace OnshapeExport
namespace Projects

open Artifacts (ArtifactSet ArtifactTables)
open CacheKey Checks Checkpoints Deployed GeneratorArtifacts GeneratorPublication Json Processing
  Protocol Relational Runner Trace

section Recovery

variable (p : Primitives)

/-! ## What is published -/

/-- The recipe of a prepared one is on record. -/
def Kept (s : State) (prepared : PreparedGeneratorProcessing) : Prop :=
  ∃ row, s.database.recipes.recipes.find? prepared.processingHash = some row ∧
    row.recipeJson = prepared.recipeJson

/-- What is published for a request: an accepted output of the recipe that its row is bound to, and
of the checkpoint that its row is bound to. -/
structure Backed (s : State) (requestIdentity : String) (prepared : PreparedGeneratorProcessing)
    (output : VerifiedGeneratorOutput) : Prop where
  row : ∃ row, s.requests.find? requestIdentity = some row ∧
    row.processingHash = some prepared.processingHash ∧
    row.outputSnapshotIdentity = some (checkpointIdentity p.digests (receiptOf output))
  recipe : Kept s prepared
  accepted : Accepted p.digests p.fileSha256 prepared output

/-- The declarations of a file are those of the bytes. -/
def Declares (file : GeneratorArtifactFile) (output : VerifiedGeneratorOutput) : Prop :=
  file.sha256 = p.fileSha256 output.bytes ∧ file.byteLen = output.bytes.size

/-- A set on record was staged for a request, and is what the request is bound to. -/
def Vouched (s : State) (set : ArtifactSet) (file : GeneratorArtifactFile) : Prop :=
  ∃ requestIdentity prepared output, Backed p s requestIdentity prepared output ∧
    set.metadataJson.producingJobKey = some (workKey requestIdentity) ∧
    set.generatorProcessingHash = some prepared.processingHash ∧ Declares p file output

/-! ## Invariants -/

/-- What was read of a bound row was prepared again from its recipe. -/
def Reopened (s : State) (stored : BambuProjectRequestRecord)
    (prepared : PreparedGeneratorProcessing) : Prop :=
  stored.processingHash = some prepared.processingHash ∧ Kept s prepared

/-- The output that is bound next was accepted, and its checkpoint is its own. -/
def Retained (prepared : PreparedGeneratorProcessing) (output : VerifiedGeneratorOutput)
    (snapshot : String) : Prop :=
  Accepted p.digests p.fileSha256 prepared output ∧
    snapshot = checkpointIdentity p.digests (receiptOf output)

/-- The set a reconciliation has in hand, as it was staged for the request. -/
def Found (s : State) (requestIdentity : String) (set : ArtifactSet)
    (file : GeneratorArtifactFile) : Prop :=
  (∃ r row, s.database.artifacts.sets.find? set.artifactSetHash = some r ∧
    fixedColumns r = fixedColumns set ∧
    s.database.artifacts.filesOf set.artifactSetHash = [row] ∧ storedFile row = file) ∧
  set.generatorProcessingHash ≠ none ∧
  set.metadataJson.producingJobKey = some (workKey requestIdentity)

/-- What holds in a stage of an execution that has read a row. -/
def Stage.Sound (s : State) (requestIdentity : String) (calls : List Call)
    (stored : BambuProjectRequestRecord) : Stage → Prop
  | .check => calls = []
  | .reopen hash => calls = [] ∧ stored.processingHash = some hash
  | .reconcile prepared => calls = [] ∧ Reopened s stored prepared
  | .verify prepared set file =>
    calls = [] ∧ Reopened s stored prepared ∧ Found s requestIdentity set file
  | .checkpoint prepared => calls = [] ∧ Reopened s stored prepared
  | .plan | .acquire _ | .generate _ | .retain _ _ => stored.processingHash = none
  | .insertRecipe prepared output snapshot =>
    stored.processingHash = none ∧ Retained p prepared output snapshot
  | .bind prepared output snapshot =>
    stored.processingHash = none ∧ Retained p prepared output snapshot ∧ Kept s prepared
  | .publish prepared output | .store prepared output _ =>
    (stored.processingHash ≠ none → calls = []) ∧ Backed p s requestIdentity prepared output

/-- What an execution has read is an earlier state of the row of its request. -/
structure Reading (s : State) (e : Execution) : Prop where
  unread : e.stored = none → e.calls = []
  read : ∀ stored, e.stored = some stored →
    e.request.canonicalJson p.digests = .ok stored.requestJson ∧
    e.producingJobKey = workKey e.request.requestIdentity ∧
    (stored.processingHash.isSome = stored.outputSnapshotIdentity.isSome) ∧
    ∃ row, s.requests.find? e.request.requestIdentity = some row ∧ Grown stored row
  quiet : ∀ stored, e.stored = some stored → stored.processingHash ≠ none → e.calls = []

/-- What holds of an execution. -/
structure ExecutionInv (s : State) (e : Execution) : Prop extends Reading p s e where
  started : e.phase = .started → e.calls = []
  stage : ∀ generator stage, e.phase = .running generator stage →
    ∃ stored, e.stored = some stored ∧
      stage.Sound p s e.request.requestIdentity e.calls stored

/-- What holds in every state. -/
structure Inv (s : State) : Prop where
  paired : ∀ k row, s.requests.find? k = some row →
    row.processingHash.isSome = row.outputSnapshotIdentity.isSome
  executions : ∀ e ∈ s.executions, ExecutionInv p s e
  sets : ∀ h set, s.database.artifacts.sets.find? h = some set →
    set.generatorProcessingHash ≠ none →
    ∃ row, s.database.artifacts.filesOf h = [row] ∧ Vouched p s set (storedFile row)

/-! ## Later states -/

/-- What a step leaves of the rows that are there. -/
structure Later (s s' : State) : Prop where
  requests : GrownTable s.requests s'.requests
  recipes : ∀ h row, s.database.recipes.recipes.find? h = some row →
    s'.database.recipes.recipes.find? h = some row
  sets : ∀ h r, s.database.artifacts.sets.find? h = some r → r.generatorProcessingHash ≠ none →
    ∃ r', s'.database.artifacts.sets.find? h = some r' ∧ fixedColumns r' = fixedColumns r ∧
      s'.database.artifacts.filesOf h = s.database.artifacts.filesOf h

variable {p} {s s' : State}

theorem generator_eq_of_fixed {r r' : ArtifactSet} (h : fixedColumns r' = fixedColumns r) :
    r'.generatorProcessingHash = r.generatorProcessingHash := by
  have hcolumn := congrArg ArtifactSet.generatorProcessingHash h
  exact hcolumn

theorem metadata_eq_of_fixed {r r' : ArtifactSet} (h : fixedColumns r' = fixedColumns r) :
    r'.metadataJson = r.metadataJson := by
  have hcolumn := congrArg ArtifactSet.metadataJson h
  exact hcolumn

theorem Later.refl (s : State) : Later s s where
  requests := .refl _
  recipes _ _ h := h
  sets _ r hr _ := ⟨r, hr, rfl, rfl⟩

theorem Later.trans {s'' : State} (h : Later s s') (h' : Later s' s'') : Later s s'' where
  requests := h.requests.trans h'.requests
  recipes k row hrow := h'.recipes k row (h.recipes k row hrow)
  sets k r hr hgen := by
    obtain ⟨r', hr', hfixed, hfiles⟩ := h.sets k r hr hgen
    have hgen' : r'.generatorProcessingHash ≠ none := by
      rw [generator_eq_of_fixed hfixed]
      exact hgen
    obtain ⟨r'', hr'', hfixed', hfiles'⟩ := h'.sets k r' hr' hgen'
    exact ⟨r'', hr'', hfixed'.trans hfixed, hfiles'.trans hfiles⟩

theorem Kept.later {prepared : PreparedGeneratorProcessing} (hl : Later s s')
    (h : Kept s prepared) : Kept s' prepared := by
  obtain ⟨row, hrow, hjson⟩ := h
  exact ⟨row, hl.recipes _ row hrow, hjson⟩

theorem Backed.later {requestIdentity : String} {prepared : PreparedGeneratorProcessing}
    {output : VerifiedGeneratorOutput} (hl : Later s s')
    (h : Backed p s requestIdentity prepared output) :
    Backed p s' requestIdentity prepared output where
  row := by
    obtain ⟨row, hrow, hhash, hsnapshot⟩ := h.row
    obtain ⟨row', hrow', hgrown⟩ := hl.requests _ row hrow
    exact ⟨row', hrow', hgrown.processingHash _ hhash, hgrown.snapshot _ hsnapshot⟩
  recipe := h.recipe.later hl
  accepted := h.accepted

theorem Found.later {requestIdentity : String} {set : ArtifactSet} {file : GeneratorArtifactFile}
    (hl : Later s s') (h : Found s requestIdentity set file) : Found s' requestIdentity set file := by
  obtain ⟨⟨r, row, hr, hfixed, hfiles, hfile⟩, hgen, hkey⟩ := h
  have hgen' : r.generatorProcessingHash ≠ none := by
    rw [generator_eq_of_fixed hfixed]
    exact hgen
  obtain ⟨r', hr', hfixed', hfiles'⟩ := hl.sets _ r hr hgen'
  exact ⟨⟨r', row, hr', hfixed'.trans hfixed, hfiles'.trans hfiles, hfile⟩, hgen, hkey⟩

theorem Vouched.later {set : ArtifactSet} {file : GeneratorArtifactFile} (hl : Later s s')
    (h : Vouched p s set file) : Vouched p s' set file := by
  obtain ⟨requestIdentity, prepared, output, hbacked, hrest⟩ := h
  exact ⟨requestIdentity, prepared, output, hbacked.later hl, hrest⟩

theorem Stage.Sound.later {requestIdentity : String} {calls : List Call}
    {stored : BambuProjectRequestRecord} {stage : Stage} (hl : Later s s')
    (h : stage.Sound p s requestIdentity calls stored) :
    stage.Sound p s' requestIdentity calls stored := by
  cases stage with
  | check => exact h
  | reopen => exact h
  | reconcile => exact ⟨h.1, h.2.1, h.2.2.later hl⟩
  | verify => exact ⟨h.1, ⟨h.2.1.1, h.2.1.2.later hl⟩, h.2.2.later hl⟩
  | checkpoint => exact ⟨h.1, h.2.1, h.2.2.later hl⟩
  | plan => exact h
  | acquire => exact h
  | generate => exact h
  | retain => exact h
  | insertRecipe => exact h
  | bind => exact ⟨h.1, h.2.1, h.2.2.later hl⟩
  | publish => exact ⟨h.1, h.2.later hl⟩
  | store => exact ⟨h.1, h.2.later hl⟩

theorem Reading.later {e : Execution} (hl : Later s s') (h : Reading p s e) : Reading p s' e where
  unread := h.unread
  read stored hstored := by
    obtain ⟨hjson, hkey, hpaired, row, hrow, hgrown⟩ := h.read stored hstored
    obtain ⟨row', hrow', hgrown'⟩ := hl.requests _ row hrow
    exact ⟨hjson, hkey, hpaired, row', hrow', hgrown.trans hgrown'⟩
  quiet := h.quiet

theorem ExecutionInv.later {e : Execution} (hl : Later s s') (h : ExecutionInv p s e) :
    ExecutionInv p s' e where
  toReading := h.toReading.later hl
  started := h.started
  stage generator stage hphase := by
    obtain ⟨stored, hstored, hsound⟩ := h.stage generator stage hphase
    exact ⟨stored, hstored, hsound.later hl⟩

/-! ## The next stage -/

variable {e : Execution} {generator : DeployedGenerator} {stored : BambuProjectRequestRecord}

theorem Reading.answer (h : Reading p s e) (answer : Except ProjectError Unit) :
    ExecutionInv p s (e.answer answer) where
  unread := h.unread
  read := h.read
  quiet := h.quiet
  started hphase := by cases hphase
  stage _ _ hphase := by cases hphase

theorem Reading.go (h : Reading p s e) (hstored : e.stored = some stored) {stage : Stage}
    (hsound : stage.Sound p s e.request.requestIdentity e.calls stored) :
    ExecutionInv p s (e.go generator stage) where
  unread := h.unread
  read := h.read
  quiet := h.quiet
  started hphase := by cases hphase
  stage _ _ hphase := by
    cases hphase
    exact ⟨stored, hstored, hsound⟩

theorem Reading.next (h : Reading p s e) (hstored : e.stored = some stored)
    {x : Except ProjectError Stage}
    (hsound : ∀ stage, x = .ok stage → stage.Sound p s e.request.requestIdentity e.calls stored) :
    ExecutionInv p s (e.next generator x) := by
  cases x with
  | error error => exact h.answer _
  | ok stage => exact h.go hstored (hsound stage rfl)

/-- Only what found its row unbound makes calls. -/
theorem Reading.call (h : Reading p s e) (hstored : e.stored = some stored)
    (hfresh : stored.processingHash = none) (call : Call) : Reading p s (e.call call) where
  unread hnone := by
    rw [show e.stored = none from hnone] at hstored
    cases hstored
  read := h.read
  quiet stored' hstored' hbound := by
    rw [show e.stored = some stored' from hstored', Option.some.injEq] at hstored
    rw [hstored, hfresh] at hbound
    exact absurd rfl hbound

/-! ## What a step leaves -/

/-- A step of an execution in a state that is left in order. -/
structure Follows (p : Primitives) (s : State) (out : State × Execution) : Prop where
  later : Later s out.1
  execution : ExecutionInv p out.1 out.2
  paired : ∀ k row, out.1.requests.find? k = some row →
    row.processingHash.isSome = row.outputSnapshotIdentity.isSome
  sets : ∀ h set, out.1.database.artifacts.sets.find? h = some set →
    set.generatorProcessingHash ≠ none →
    ∃ row, out.1.database.artifacts.filesOf h = [row] ∧ Vouched p out.1 set (storedFile row)
  executions : out.1.executions = s.executions

/-- A step that writes nothing. -/
theorem follows_stay (hi : Inv p s) (he : ExecutionInv p s e) : Follows p s (s, e) where
  later := .refl s
  execution := he
  paired := hi.paired
  sets := hi.sets
  executions := rfl

theorem later_apply (op : GeneratorArtifacts.Op) : Later s (s.apply p op) where
  requests := .refl _
  recipes _ _ hrow := apply_recipes op hrow
  sets _ _ hr hgen := apply_frozen op hr hgen

/-- The sets of a state stay vouched for, if the ones that are new are. -/
theorem sets_apply (hi : Inv p s) (op : GeneratorArtifacts.Op)
    (hnew : ∀ h set row, s.database.artifacts.sets.find? h = none →
      (s.apply p op).database.artifacts.sets.find? h = some set →
      set.generatorProcessingHash ≠ none →
      (s.apply p op).database.artifacts.filesOf h = [row] → ∀ now prepared artifact file,
      op = .stageOrResume now prepared artifact [file] →
      set = generatorSet p.artifacts now prepared artifact → storedFile row = file →
      Vouched p (s.apply p op) set (storedFile row)) :
    ∀ h set, (s.apply p op).database.artifacts.sets.find? h = some set →
      set.generatorProcessingHash ≠ none →
      ∃ row, (s.apply p op).database.artifacts.filesOf h = [row] ∧
        Vouched p (s.apply p op) set (storedFile row) := by
  intro h set hset hgen
  have hwrites := apply_writes p.artifacts s.database op
  cases hold : s.database.artifacts.sets.find? h with
  | none =>
    obtain ⟨now, prepared, artifact, file, hop, hmade, row, hrow, hfile⟩ :=
      apply_new hold hset hgen
    exact ⟨row, hrow, hnew h set row hold hset hgen hrow now prepared artifact file hop hmade hfile⟩
  | some r =>
    obtain ⟨r', hr', heq⟩ := hwrites.generator_eq hold
    have hsame := hr'.symm.trans hset
    cases hsame
    have hgen' : r.generatorProcessingHash ≠ none := heq ▸ hgen
    obtain ⟨row, hrow, requestIdentity, prepared, output, hbacked, hkey, hhash, hdeclares⟩ :=
      hi.sets h r hold hgen'
    obtain ⟨q, hq, hfixed, hfiles⟩ := @apply_frozen p.artifacts _ op _ _ hold hgen'
    have hsame := hq.symm.trans hset
    cases hsame
    refine ⟨row, hfiles.trans hrow, requestIdentity, prepared, output,
      hbacked.later (later_apply op), ?_, ?_, hdeclares⟩
    · rw [metadata_eq_of_fixed hfixed]
      exact hkey
    · rw [generator_eq_of_fixed hfixed]
      exact hhash

/-- A call that stages nothing. -/
theorem follows_apply (hi : Inv p s) {op : GeneratorArtifacts.Op}
    (hop : ∀ now prepared artifact files, op ≠ .stageOrResume now prepared artifact files)
    (he : ExecutionInv p s e) : Follows p s (s.apply p op, e) where
  later := later_apply op
  execution := he.later (later_apply op)
  paired := hi.paired
  sets := sets_apply hi op fun _ _ _ _ _ _ _ now prepared artifact file heq =>
    absurd heq (hop now prepared artifact [file])
  executions := rfl

theorem recordVerificationFailure_ne {now : Timestamp} {status : Artifacts.ArtifactStatus}
    {h : String} {updatedAt : Timestamp} :
    ∀ now' prepared artifact files, recordVerificationFailure now status h updatedAt ≠
      .stageOrResume now' prepared artifact files := by
  intro now' prepared artifact files
  unfold recordVerificationFailure
  split
  · intro heq
    cases heq
  · intro heq
    cases heq

/-- A completion is one call. -/
theorem completeSet_fst (s : State) (e : Execution) (generator : DeployedGenerator)
    (prepared : PreparedGeneratorProcessing) (r : Replies) :
    ∃ kind format key, (completeSet p s e generator prepared r).1 =
      s.apply p (.complete r.readyAt r.supersededAt (recorded p.digests prepared) kind format key) := by
  refine ⟨(publicationOf p e.request generator e.producingJobKey).outputKind,
    (publicationOf p e.request generator e.producingJobKey).format,
    generatorPublicationObjectKey p.artifacts (recorded p.digests prepared)
      (publicationOf p e.request generator e.producingJobKey), ?_⟩
  unfold completeSet State.apply GeneratorArtifacts.step
  simp only [Op.apply]
  split
  · rename_i hc
    rw [hc]
  · rename_i hc
    rw [hc]

theorem follows_complete (hi : Inv p s) (he : ExecutionInv p s e) (e' : Execution)
    (generator : DeployedGenerator) (prepared : PreparedGeneratorProcessing) (r : Replies) :
    Follows p s ((completeSet p s e' generator prepared r).1, e) := by
  obtain ⟨kind, format, key, hfst⟩ :=
    completeSet_fst (p := p) s e' generator prepared r
  rw [hfst]
  exact follows_apply hi (fun _ _ _ _ heq => by cases heq) he

/-! ## The stages -/

/-- What an execution reads, it reads before it has made a call. -/
theorem begin_execution (hi : Inv p s) (he : ExecutionInv p s e) (hstarted : e.phase = .started)
    (r : Replies) : ExecutionInv p s (beginExecution p s e r) := by
  unfold beginExecution
  split
  · exact he.toReading.answer _
  · rename_i generator hprofile
    split
    · exact he.toReading.answer _
    · split
      · exact he.toReading.answer _
      · rename_i stored hread
        obtain ⟨generator', -, hprofile⟩ := bind_ok.mp hprofile
        obtain ⟨-, hprofile⟩ := seq_ok.mp hprofile
        obtain ⟨hkey, -⟩ := seq_ok.mp hprofile
        obtain ⟨row, hrow, hread⟩ := bind_ok.mp hread
        obtain ⟨json, hjson, hread⟩ := bind_ok.mp hread
        obtain ⟨hsame, hread⟩ := seq_ok.mp hread
        obtain ⟨-, hread⟩ := seq_ok.mp hread
        cases hread
        have hrow := orFailure_ok.mp hrow
        have hcalls := he.started hstarted
        refine Reading.go ?_ rfl hcalls
        exact {
          unread := fun hnone => by cases hnone
          read := fun stored' hstored' => by
            cases hstored'
            refine ⟨?_, ensure_ok.mp hkey, hi.paired _ _ hrow, stored, hrow, .refl stored⟩
            rw [ensure_ok.mp hsame]
            exact hjson
          quiet := fun _ _ _ => hcalls }

/-- A bound row is reopened, an unbound one is planned. -/
theorem branch_sound (hcalls : e.calls = []) {r : Replies} {stage : Stage}
    (h : branch p e stored s.models r = .ok stage) :
    stage.Sound p s e.request.requestIdentity e.calls stored := by
  obtain ⟨current, -, h⟩ := bind_ok.mp h
  cases hhash : stored.processingHash with
  | some hash =>
    rw [hhash] at h
    cases h
    exact ⟨hcalls, hhash⟩
  | none =>
    rw [hhash] at h
    obtain ⟨-, h⟩ := seq_ok.mp h
    obtain ⟨-, h⟩ := seq_ok.mp h
    cases h
    exact hhash

/-- A recipe is the one it was stored as. -/
theorem reopenRecorded_ok {hash : String} {prepared : PreparedGeneratorProcessing}
    (h : reopenRecorded p.digests p.sizes p.settingsSchema generator hash s.database.recipes =
      .ok prepared) : prepared.processingHash = hash ∧ Kept s prepared := by
  unfold reopenRecorded at h
  split at h
  · cases h
  · rename_i row hrow
    obtain ⟨prepared', hreopen, h⟩ := bind_ok.mp h
    obtain ⟨-, h⟩ := seq_ok.mp h
    cases h
    have hreopen := mapError_ok.mp hreopen
    obtain ⟨value, -, hreopen⟩ := bind_ok.mp hreopen
    obtain ⟨recipe, -, hreopen⟩ := bind_ok.mp hreopen
    obtain ⟨-, hreopen⟩ := seq_ok.mp hreopen
    obtain ⟨-, hreopen⟩ := seq_ok.mp hreopen
    obtain ⟨prepared', -, hreopen⟩ := bind_ok.mp hreopen
    obtain ⟨hsame, hreopen⟩ := seq_ok.mp hreopen
    cases hreopen
    obtain ⟨hhash, hjson⟩ := ensure_ok.mp hsame
    exact ⟨hhash, row, hhash.symm ▸ hrow, hjson.symm⟩

theorem reopen_sound (hcalls : e.calls = []) {hash : String}
    (hhash : stored.processingHash = some hash) {r : Replies} {stage : Stage}
    (h : reopenStage p s e generator hash r = .ok stage) :
    stage.Sound p s e.request.requestIdentity e.calls stored := by
  obtain ⟨-, h⟩ := seq_ok.mp h
  obtain ⟨prepared, hreopen, h⟩ := bind_ok.mp h
  obtain ⟨-, h⟩ := seq_ok.mp h
  cases h
  obtain ⟨hsame, hkept⟩ := reopenRecorded_ok (mapError_ok.mp hreopen)
  exact ⟨hcalls, hsame.symm ▸ hhash, hkept⟩

theorem reconcilable_some {prepared : PreparedGeneratorProcessing} {set : ArtifactSet}
    {file : GeneratorArtifactFile} {publication : GeneratorPublicationTarget}
    (h : reconcilable p generator prepared publication s.database = some (set, file)) :
    loadGeneratorArtifact p.artifacts (recorded p.digests prepared) publication.outputKind
      publication.format s.database.recipes s.database.artifacts = .ok (some (set, file)) ∧
    set.metadataJson = ⟨publication.modelSlug, publication.producingJobKey,
      some publication.parameterSchemaVersion, some publication.configValuesJson⟩ := by
  unfold reconcilable at h
  split at h
  · cases h
  · split at h
    · rename_i set' file' hload
      split at h
      · cases h
      · rename_i hmetadata
        split at h
        · cases h
        · split at h
          · split at h
            · cases h
              exact ⟨hload, not_not.mp hmetadata⟩
            · cases h
          · cases h
    · cases h

theorem reconcile_sound (hcalls : e.calls = []) {prepared : PreparedGeneratorProcessing}
    (hkey : e.producingJobKey = workKey e.request.requestIdentity)
    (hreopened : Reopened s stored prepared) (r : Replies) :
    (reconcileStage p s e generator prepared r).Sound p s e.request.requestIdentity e.calls
      stored := by
  unfold reconcileStage
  split
  · exact ⟨hcalls, hreopened⟩
  · split
    · rename_i set file hfound
      obtain ⟨hload, hmetadata⟩ := reconcilable_some hfound
      obtain ⟨hset, hloadable, -, row, hrow, hfile, -, -⟩ := loadGeneratorArtifact_some _ hload
      have hhash := Table.find?_key hset
      obtain ⟨hgen, -, -, -⟩ := loadable_generator _ hloadable
      refine ⟨hcalls, hreopened, ⟨set, row, ?_, rfl, ?_, hfile.symm⟩, ?_, ?_⟩
      · rw [← hhash] at hset
        exact hset
      · rw [← hhash] at hrow
        exact hrow
      · rw [hgen]
        exact Option.some_ne_none _
      · rw [hmetadata]
        exact congrArg some hkey
    · exact ⟨hcalls, hreopened⟩

/-- What a checkpoint is reopened as is what the row vouches for. -/
theorem checkpoint_sound (he : Reading p s e) (hstored : e.stored = some stored)
    (hcalls : e.calls = []) {prepared : PreparedGeneratorProcessing}
    (hreopened : Reopened s stored prepared) {r : Replies} {stage : Stage}
    (h : checkpointStage p stored prepared r = .ok stage) :
    stage.Sound p s e.request.requestIdentity e.calls stored := by
  obtain ⟨snapshot, hsnapshot, h⟩ := bind_ok.mp h
  obtain ⟨-, h⟩ := seq_ok.mp h
  obtain ⟨output, hopened, h⟩ := bind_ok.mp h
  cases h
  obtain ⟨haccepted, d, -, hholds⟩ := reopen_ok (mapError_ok.mp hopened)
  obtain ⟨-, -, -, row, hrow, hgrown⟩ := he.read stored hstored
  refine ⟨fun _ => hcalls, ⟨row, hrow, hgrown.processingHash _ hreopened.1, ?_⟩, hreopened.2,
    haccepted⟩
  rw [hholds.identity]
  exact hgrown.snapshot _ (orFailure_ok.mp hsnapshot)

theorem persist_ok {prepared : PreparedGeneratorProcessing} {output : VerifiedGeneratorOutput}
    {r : Replies} {snapshot : String} (h : persist p r prepared output = .ok snapshot) :
    Retained p prepared output snapshot := by
  obtain ⟨hpasses, h⟩ := seq_ok.mp h
  obtain ⟨hmeasured, h⟩ := seq_ok.mp h
  obtain ⟨-, h⟩ := seq_ok.mp h
  cases h
  obtain ⟨-, hpasses⟩ := seq_ok.mp hpasses
  obtain ⟨hvalid, -⟩ := seq_ok.mp hpasses
  exact ⟨accepted_iff.mpr ⟨hvalid, hmeasured⟩, rfl⟩

/-- A step that leaves the artifacts as they are. -/
theorem follows_write (hi : Inv p s) (hl : Later s s')
    (hartifacts : s'.database.artifacts = s.database.artifacts)
    (hexecutions : s'.executions = s.executions)
    (hpaired : ∀ k row, s'.requests.find? k = some row →
      row.processingHash.isSome = row.outputSnapshotIdentity.isSome)
    (he : ExecutionInv p s' e) : Follows p s (s', e) where
  later := hl
  execution := he
  paired := hpaired
  sets h set hset hgen := by
    simp only [hartifacts] at hset ⊢
    obtain ⟨row, hrow, hvouched⟩ := hi.sets h set hset hgen
    exact ⟨row, hrow, hvouched.later hl⟩
  executions := hexecutions

theorem insertRecipeRow_ok {prepared : PreparedGeneratorProcessing} {r : Replies} {inserted : Bool}
    {recipes : Recipes.RecipeTables}
    (h : insertRecipeRow p s prepared r = .ok (inserted, recipes)) :
    Recipes.insertGeneratorProcessingRecipe (recorded p.digests prepared) s.database.recipes =
      .ok (inserted, recipes) := by
  obtain ⟨-, h⟩ := seq_ok.mp h
  exact mapError_ok.mp h

/-- A recipe is on record before a row is bound to it. -/
theorem follows_insertRecipe (hi : Inv p s) (he : Reading p s e) (hstored : e.stored = some stored)
    {prepared : PreparedGeneratorProcessing} {output : VerifiedGeneratorOutput} {snapshot : String}
    (hfresh : stored.processingHash = none) (hretained : Retained p prepared output snapshot)
    {r : Replies} {inserted : Bool} {recipes : Recipes.RecipeTables}
    (h : insertRecipeRow p s prepared r = .ok (inserted, recipes)) :
    Follows p s ({ s with database := ⟨recipes, s.database.artifacts⟩ },
      e.go generator (.bind prepared output snapshot)) := by
  have hins := insertRecipeRow_ok h
  obtain ⟨inputSetIdentity, -, -, hrow, -⟩ := Recipes.insertGeneratorProcessingRecipe_ok hins
  have hl : Later s { s with database := ⟨recipes, s.database.artifacts⟩ } :=
    { requests := .refl _
      recipes := fun k row hold => Recipes.recipe_stays hins hold
      sets := fun k set hset _ => ⟨set, hset, rfl, rfl⟩ }
  refine follows_write hi hl rfl rfl hi.paired ((he.later hl).go hstored ?_)
  exact ⟨hfresh, hretained, _, hrow, rfl⟩

/-- A row is bound once, to an output that was accepted. -/
theorem follows_bind (hi : Inv p s) (he : Reading p s e) (hstored : e.stored = some stored)
    {prepared : PreparedGeneratorProcessing} {output : VerifiedGeneratorOutput} {snapshot : String}
    (hfresh : stored.processingHash = none) (hretained : Retained p prepared output snapshot)
    (hkept : Kept s prepared) {r : Replies} {requests : Table BambuProjectRequestRecord}
    (h : bindRow p s e prepared snapshot r = .ok requests) :
    Follows p s ({ s with requests := requests }, e.go generator (.publish prepared output)) := by
  obtain ⟨json, -, h⟩ := bind_ok.mp h
  obtain ⟨-, h⟩ := seq_ok.mp h
  have hbind := mapError_ok.mp h
  obtain ⟨row, hrow, -, -, -, hfind⟩ := bindTransaction_ok hbind
  have hl : Later s { s with requests := requests } :=
    { requests := grown_bind hbind
      recipes := fun _ _ hold => hold
      sets := fun k set hset _ => ⟨set, hset, rfl, rfl⟩ }
  refine follows_write hi hl rfl rfl ?_ ((he.later hl).go hstored ?_)
  · intro k row' hrow'
    simp only [hfind] at hrow'
    split at hrow'
    · cases hrow'
      rfl
    · exact hi.paired k row' hrow'
  · refine ⟨fun hbound => absurd hfresh hbound, ⟨_, (hfind _).trans (if_pos rfl), rfl, ?_⟩,
      hkept.later hl, hretained.1⟩
    rw [← hretained.2]
    rfl

theorem retainCandidate_ok {prepared : PreparedGeneratorProcessing}
    {output : VerifiedGeneratorOutput} {candidate : MeasuredCandidate} {r : Replies}
    (h : retainCandidate p r prepared output = .ok candidate) :
    candidate.sha256 = p.fileSha256 output.bytes ∧ candidate.byteLen = output.bytes.size := by
  unfold retainCandidate at h
  obtain ⟨-, h⟩ := seq_ok.mp h
  obtain ⟨-, h⟩ := seq_ok.mp h
  obtain ⟨-, h⟩ := seq_ok.mp h
  split at h
  · cases h
  · obtain ⟨-, h⟩ := seq_ok.mp h
    obtain ⟨-, h⟩ := seq_ok.mp h
    obtain ⟨-, h⟩ := seq_ok.mp h
    cases h
    exact ⟨rfl, rfl⟩

/-- What a publication stages is what it was given. -/
theorem publishStage_cases (s : State) (e : Execution) (generator : DeployedGenerator)
    (prepared : PreparedGeneratorProcessing) (output : VerifiedGeneratorOutput) (r : Replies) :
    (∃ error, publishStage p s e generator prepared output r = (s, .error error)) ∨
    ∃ candidate answer, candidate.sha256 = p.fileSha256 output.bytes ∧
      candidate.byteLen = output.bytes.size ∧
      publishStage p s e generator prepared output r =
        (s.apply p (.stageOrResume r.stagedAt (recorded p.digests prepared)
          (stageFor p.artifacts (recorded p.digests prepared)
            (publicationOf p e.request generator e.producingJobKey) candidate)
          [fileFor p.artifacts (recorded p.digests prepared)
            (publicationOf p e.request generator e.producingJobKey) candidate]), answer) ∧
      ∀ stage, answer = .ok stage → ∃ state, stage = .store prepared output state := by
  unfold publishStage
  simp only
  split
  · rename_i error _
    exact .inl ⟨error, rfl⟩
  · rename_i candidate hcandidate
    split
    · exact .inl ⟨publicationFailed, rfl⟩
    · obtain ⟨-, hcandidate⟩ := seq_ok.mp hcandidate
      obtain ⟨hsha, hlen⟩ := retainCandidate_ok hcandidate
      refine .inr ⟨candidate, ?_⟩
      simp only [State.apply, GeneratorArtifacts.step, Op.apply]
      split
      · rename_i hstaged
        refine ⟨.error publicationFailed, hsha, hlen, ?_, fun stage heq => by cases heq⟩
        rw [hstaged]
      · rename_i state db hstaged
        refine ⟨.ok (.store prepared output state), hsha, hlen, ?_, ?_⟩
        · rw [hstaged]
        · intro stage heq
          cases heq
          exact ⟨state, rfl⟩

theorem follows_publish (hi : Inv p s) (he : Reading p s e) (hstored : e.stored = some stored)
    (hkey : e.producingJobKey = workKey e.request.requestIdentity)
    {prepared : PreparedGeneratorProcessing} {output : VerifiedGeneratorOutput}
    (hquiet : stored.processingHash ≠ none → e.calls = [])
    (hbacked : Backed p s e.request.requestIdentity prepared output) (r : Replies) :
    Follows p s ((publishStage p s e generator prepared output r).1,
      e.next generator (publishStage p s e generator prepared output r).2) := by
  obtain ⟨error, hout⟩ | ⟨candidate, answer, hsha, hlen, hout, hanswer⟩ :=
    publishStage_cases (p := p) s e generator prepared output r
  · rw [hout]
    exact follows_stay hi (he.answer _)
  · rw [hout]
    generalize hop : Op.stageOrResume r.stagedAt (recorded p.digests prepared)
      (stageFor p.artifacts (recorded p.digests prepared)
        (publicationOf p e.request generator e.producingJobKey) candidate)
      [fileFor p.artifacts (recorded p.digests prepared)
        (publicationOf p e.request generator e.producingJobKey) candidate] = op
    have hl : Later s (s.apply p op) := later_apply op
    refine ⟨hl, (he.later hl).next hstored ?_, hi.paired, ?_, rfl⟩
    · intro stage heq
      obtain ⟨state, rfl⟩ := hanswer stage heq
      exact ⟨hquiet, hbacked.later hl⟩
    · refine sets_apply hi op ?_
      intro h set row _ _ _ _ now prepared' artifact file heq hset hrow
      rw [← hop] at heq
      cases heq
      refine ⟨e.request.requestIdentity, prepared, output, hbacked.later hl, ?_, ?_, ?_⟩
      · rw [hset]
        exact congrArg some hkey
      · rw [hset]
        rfl
      · rw [hrow]
        exact ⟨hsha, congrArg (fun n : Nat => (n : Int)) hlen⟩

theorem follows_verify (hi : Inv p s) (he : Reading p s e) (hstored : e.stored = some stored)
    (hcalls : e.calls = []) {prepared : PreparedGeneratorProcessing} {set : ArtifactSet}
    (hreopened : Reopened s stored prepared) (r : Replies) :
    Follows p s (verifyStage p s e generator prepared set r) := by
  have hcheckpoint : ExecutionInv p s (e.go generator (.checkpoint prepared)) :=
    he.go hstored ⟨hcalls, hreopened⟩
  unfold verifyStage
  split
  · exact follows_stay hi hcheckpoint
  · split
    · exact follows_apply hi recordVerificationFailure_ne hcheckpoint
    · split
      · rename_i s' hc
        have hf := follows_complete hi (he.answer (.ok ())) e generator prepared r
        rw [hc] at hf
        exact hf
      · rename_i s' hc
        have hf := follows_complete hi hcheckpoint e generator prepared r
        rw [hc] at hf
        exact hf

theorem follows_store (hi : Inv p s) (he : Reading p s e) {prepared : PreparedGeneratorProcessing}
    (state : GeneratorArtifactState) (r : Replies) :
    Follows p s ((storeStage p s e generator prepared state r).1,
      e.answer (storeStage p s e generator prepared state r).2) := by
  unfold storeStage
  split
  · exact follows_stay hi (he.answer _)
  · split
    · exact follows_apply hi recordVerificationFailure_ne (he.answer _)
    · split
      · exact follows_apply hi (fun _ _ _ _ heq => by cases heq) (he.answer _)
      · split
        · rename_i s' hc
          have hf := follows_complete hi (he.answer (.ok ())) e generator prepared r
          rw [hc] at hf
          exact hf
        · rename_i s' hc
          have hf := follows_complete hi (he.answer (.error publicationFailed)) e generator prepared r
          rw [hc] at hf
          exact hf

theorem Reading.finish (he : Reading p s e) {phase : Phase} (hstarted : phase ≠ .started)
    (hrunning : ∀ generator stage, phase ≠ .running generator stage) :
    ExecutionInv p s { e with phase := phase } where
  unread := he.unread
  read := he.read
  quiet := he.quiet
  started hphase := absurd hphase hstarted
  stage generator stage hphase := absurd hphase (hrunning generator stage)

theorem follows_end (hi : Inv p s) (he : Reading p s e) (answer : Except ProjectError Unit)
    (r : Replies) : Follows p s (endExecution s e answer r) := by
  have hfinish : ∀ {s' : State} {answer' : Except ProjectError Unit}, Later s s' →
      ExecutionInv p s' { e with phase := .finished answer' } := fun hl =>
    (he.later hl).finish (fun heq => by cases heq) fun _ _ heq => by cases heq
  have hrecord : ∀ category code, ∀ answer' : Except ProjectError Unit, Follows p s
      ({ s with requests :=
          recordBambuProjectFailure e.request.requestIdentity category code s.requests },
        { e with phase := .finished answer' }) := by
    intro category code answer'
    have hl : Later s { s with requests :=
        recordBambuProjectFailure e.request.requestIdentity category code s.requests } :=
      { requests := grown_record
        recipes := fun _ _ hold => hold
        sets := fun k set hset _ => ⟨set, hset, rfl, rfl⟩ }
    refine follows_write hi hl rfl rfl ?_ (hfinish hl)
    intro k row hrow
    simp only [recordBambuProjectFailure, find?_updateRequest] at hrow
    cases hold : s.requests.find? k with
    | none =>
      rw [hold] at hrow
      cases hrow
    | some old =>
      rw [hold] at hrow
      have hpaired := hi.paired k old hold
      simp only [Option.map_some, Option.some.injEq] at hrow
      subst hrow
      split
      · exact hpaired
      · exact hpaired
  unfold endExecution
  simp only
  split
  · exact follows_stay hi (hfinish (.refl s))
  · split
    · split
      · exact hrecord _ _ _
      · exact hrecord _ _ _
    · exact hrecord _ _ _

theorem work_follows (hi : Inv p s) (he : ExecutionInv p s e) (r : Replies) :
    Follows p s (work p s e r) := by
  unfold work
  split
  · rename_i hphase
    exact follows_stay hi (begin_execution hi he hphase r)
  · rename_i generator stage hphase
    obtain ⟨stored, hstored, hsound⟩ := he.stage generator stage hphase
    have hread := he.toReading
    obtain ⟨-, hkey, -, -⟩ := hread.read stored hstored
    rw [hstored]
    simp only
    unfold advance
    cases stage with
    | check =>
      exact follows_stay hi (hread.next hstored fun stage h => branch_sound hsound h)
    | reopen hash =>
      exact follows_stay hi (hread.next hstored fun stage h => reopen_sound hsound.1 hsound.2 h)
    | reconcile prepared =>
      exact follows_stay hi (hread.go hstored (reconcile_sound hsound.1 hkey hsound.2 r))
    | verify prepared set file =>
      exact follows_verify hi hread hstored hsound.1 hsound.2.1 r
    | checkpoint prepared =>
      exact follows_stay hi
        (hread.next hstored fun stage h => checkpoint_sound hread hstored hsound.1 hsound.2 h)
    | plan =>
      refine follows_stay hi ((hread.call hstored hsound .plan).next hstored fun stage h => ?_)
      obtain ⟨trusted, -, h⟩ := bind_ok.mp h
      obtain ⟨-, h⟩ := seq_ok.mp h
      cases h
      exact hsound
    | acquire trusted =>
      simp only
      split
      · exact follows_stay hi (hread.answer _)
      · refine follows_stay hi ((hread.call hstored hsound .acquire).next hstored fun stage h => ?_)
        obtain ⟨acquired, -, h⟩ := bind_ok.mp h
        obtain ⟨prepared, -, h⟩ := bind_ok.mp h
        cases h
        exact hsound
    | generate prepared =>
      refine follows_stay hi ((hread.call hstored hsound .generate).next hstored fun stage h => ?_)
      cases hr : r.generated with
      | error error =>
        rw [hr] at h
        cases h
      | ok output =>
        rw [hr] at h
        cases h
        exact hsound
    | retain prepared output =>
      refine follows_stay hi (hread.next hstored fun stage h => ?_)
      obtain ⟨snapshot, hpersist, h⟩ := bind_ok.mp h
      obtain ⟨-, h⟩ := seq_ok.mp h
      cases h
      exact ⟨hsound, persist_ok (mapError_ok.mp hpersist)⟩
    | insertRecipe prepared output snapshot =>
      simp only
      split
      · exact follows_stay hi (hread.answer _)
      · rename_i inserted recipes hins
        exact follows_insertRecipe hi hread hstored hsound.1 hsound.2 hins
    | bind prepared output snapshot =>
      simp only
      split
      · exact follows_stay hi (hread.answer _)
      · rename_i requests hbind
        exact follows_bind hi hread hstored hsound.1 hsound.2.1 hsound.2.2 hbind
    | publish prepared output =>
      exact follows_publish hi hread hstored hkey hsound.1 hsound.2 r
    | store prepared output state =>
      exact follows_store hi hread state r
  · exact follows_end hi he.toReading _ r
  · exact follows_stay hi he
  · exact follows_stay hi he

/-! ## Steps -/

theorem later_put (i : Nat) (e' : Execution) : Later s (s.put i e') where
  requests := .refl _
  recipes _ _ h := h
  sets _ r hr _ := ⟨r, hr, rfl, rfl⟩

/-- The state after a step of an execution. -/
theorem inv_put (hi : Inv p s) {out : State × Execution} (hf : Follows p s out) (i : Nat) :
    Inv p (out.1.put i out.2) where
  paired := hf.paired
  executions e' he' := by
    simp only [State.put, hf.executions] at he'
    rcases List.mem_or_eq_of_mem_set he' with hold | rfl
    · exact ((hi.executions e' hold).later hf.later).later (later_put i _)
    · exact hf.execution.later (later_put i _)
  sets h set hset hgen := by
    obtain ⟨row, hrow, hvouched⟩ := hf.sets h set hset hgen
    exact ⟨row, hrow, hvouched.later (later_put i _)⟩

/-- A step that leaves the tables and the executions as they are. -/
theorem inv_kept (hi : Inv p s) (hl : Later s s') (hrequests : s'.requests = s.requests)
    (hartifacts : s'.database.artifacts = s.database.artifacts)
    (hexecutions : ∀ e ∈ s'.executions, e ∈ s.executions ∨ e.stored = none ∧ e.calls = [] ∧
      e.phase = .started) : Inv p s' where
  paired := by
    rw [hrequests]
    exact hi.paired
  executions e' he' := by
    rcases hexecutions e' he' with hold | ⟨hstored, hcalls, hphase⟩
    · exact (hi.executions e' hold).later hl
    · exact {
        unread := fun _ => hcalls
        read := fun stored h => by
          rw [hstored] at h
          cases h
        quiet := fun _ _ _ => hcalls
        started := fun _ => hcalls
        stage := fun generator stage h => by
          rw [hphase] at h
          cases h }
  sets h set hset hgen := by
    simp only [hartifacts] at hset ⊢
    obtain ⟨row, hrow, hvouched⟩ := hi.sets h set hset hgen
    exact ⟨row, hrow, hvouched.later hl⟩

theorem step_inv (hi : Inv p s) (action : Action) :
    Inv p (step p s action) ∧ Later s (step p s action) := by
  cases action with
  | replaceCatalog models =>
    have hl : Later s { s with models := models } := ⟨.refl _, fun _ _ h => h, fun _ r hr _ =>
      ⟨r, hr, rfl, rfl⟩⟩
    exact ⟨inv_kept hi hl rfl rfl fun _ h => .inl h, hl⟩
  | deploy configured =>
    have hl : Later s { s with configured := configured } := ⟨.refl _, fun _ _ h => h,
      fun _ r hr _ => ⟨r, hr, rfl, rfl⟩⟩
    exact ⟨inv_kept hi hl rfl rfl fun _ h => .inl h, hl⟩
  | enqueue answers model validated selectors =>
    simp only [step]
    split
    · exact ⟨hi, .refl s⟩
    · split
      · exact ⟨hi, .refl s⟩
      · rename_i requests hinsert
        obtain ⟨hgrown, hrows⟩ := grown_insert hinsert
        have hl : Later s { s with requests := requests } := ⟨hgrown, fun _ _ h => h,
          fun _ r hr _ => ⟨r, hr, rfl, rfl⟩⟩
        refine ⟨?_, hl⟩
        exact {
          paired := fun k row hrow => by
            rcases hrows k row hrow with hold | rfl
            · exact hi.paired k row hold
            · rfl
          executions := fun e he => (hi.executions e he).later hl
          sets := fun h set hset hgen => by
            obtain ⟨row, hrow, hvouched⟩ := hi.sets h set hset hgen
            exact ⟨row, hrow, hvouched.later hl⟩ }
  | start request producingJobKey =>
    have hl : Later s (step p s (.start request producingJobKey)) := ⟨.refl _, fun _ _ h => h,
      fun _ r hr _ => ⟨r, hr, rfl, rfl⟩⟩
    refine ⟨inv_kept hi hl rfl rfl fun e he => ?_, hl⟩
    rcases List.mem_append.mp he with hold | hnew
    · exact .inl hold
    · rw [List.mem_singleton.mp hnew]
      exact .inr ⟨rfl, rfl, rfl⟩
  | work i r =>
    simp only [step]
    split
    · exact ⟨hi, .refl s⟩
    · rename_i e he
      have hf := work_follows hi (hi.executions e (List.mem_of_getElem? he)) r
      exact ⟨inv_put hi hf i, hf.later.trans (later_put i _)⟩
  | crash i =>
    simp only [step]
    split
    · exact ⟨hi, .refl s⟩
    · rename_i e he
      have hread := (hi.executions e (List.mem_of_getElem? he)).toReading
      have hf : Follows p s (s, { e with phase := .crashed }) := follows_stay hi
        (hread.finish (fun heq => by cases heq) fun _ _ heq => by cases heq)
      exact ⟨inv_put hi hf i, later_put i _⟩
  | stageArtifact now publication =>
    have hl : Later s (s.apply p (.stageArtifact now publication)) := later_apply _
    refine ⟨?_, hl⟩
    exact {
      paired := hi.paired
      executions := fun e he => (hi.executions e he).later hl
      sets := sets_apply hi _ fun _ _ _ _ _ _ _ _ _ _ _ heq => by cases heq }

/-! ## Reading after the binding -/

@[simp] theorem go_request (stage : Stage) : (e.go generator stage).request = e.request := rfl

@[simp] theorem go_stored (stage : Stage) : (e.go generator stage).stored = e.stored := rfl

@[simp] theorem answer_request (answer : Except ProjectError Unit) :
    (e.answer answer).request = e.request := rfl

@[simp] theorem answer_stored (answer : Except ProjectError Unit) :
    (e.answer answer).stored = e.stored := rfl

@[simp] theorem call_request (call : Call) : (e.call call).request = e.request := rfl

@[simp] theorem call_stored (call : Call) : (e.call call).stored = e.stored := rfl

@[simp] theorem next_request (x : Except ProjectError Stage) :
    (e.next generator x).request = e.request := by
  cases x with
  | error error => rfl
  | ok stage => rfl

@[simp] theorem next_stored (x : Except ProjectError Stage) :
    (e.next generator x).stored = e.stored := by
  cases x with
  | error error => rfl
  | ok stage => rfl

theorem begin_stored (r : Replies) : (beginExecution p s e r).request = e.request ∧
    ((beginExecution p s e r).stored = e.stored ∨
      ∃ row, s.requests.find? e.request.requestIdentity = some row ∧
        (beginExecution p s e r).stored = some row) := by
  unfold beginExecution
  split
  · exact ⟨rfl, .inl rfl⟩
  · split
    · exact ⟨rfl, .inl rfl⟩
    · split
      · exact ⟨rfl, .inl rfl⟩
      · rename_i stored hread
        obtain ⟨row, hrow, hread⟩ := bind_ok.mp hread
        obtain ⟨json, -, hread⟩ := bind_ok.mp hread
        obtain ⟨-, hread⟩ := seq_ok.mp hread
        obtain ⟨-, hread⟩ := seq_ok.mp hread
        cases hread
        exact ⟨rfl, .inr ⟨stored, orFailure_ok.mp hrow, rfl⟩⟩

theorem advance_stored (stored : BambuProjectRequestRecord) (stage : Stage) (r : Replies) :
    (advance p s e generator stored r stage).2.request = e.request ∧
      (advance p s e generator stored r stage).2.stored = e.stored := by
  unfold advance
  cases stage with
  | verify prepared set file =>
    simp only [verifyStage]
    split
    · exact ⟨rfl, rfl⟩
    · split
      · exact ⟨rfl, rfl⟩
      · split
        · exact ⟨rfl, rfl⟩
        · exact ⟨rfl, rfl⟩
  | acquire trusted =>
    simp only
    split
    · exact ⟨rfl, rfl⟩
    · simp
  | insertRecipe prepared output snapshot =>
    simp only
    split
    · exact ⟨rfl, rfl⟩
    · exact ⟨rfl, rfl⟩
  | bind prepared output snapshot =>
    simp only
    split
    · exact ⟨rfl, rfl⟩
    · exact ⟨rfl, rfl⟩
  | _ => simp

/-- An execution reads its row in its first step, and never again. -/
theorem work_stored (r : Replies) : (work p s e r).2.request = e.request ∧
    ((work p s e r).2.stored = e.stored ∨
      ∃ row, s.requests.find? e.request.requestIdentity = some row ∧
        (work p s e r).2.stored = some row) := by
  unfold work
  split
  · exact begin_stored r
  · cases hstored : e.stored with
    | none => exact ⟨rfl, .inl hstored⟩
    | some stored =>
      obtain ⟨hrequest, hkept⟩ := advance_stored (p := p) (s := s) (e := e) stored _ r
      exact ⟨hrequest, .inl (hkept.trans hstored)⟩
  · unfold endExecution
    simp only
    split
    · exact ⟨rfl, .inl rfl⟩
    · split
      · split
        · exact ⟨rfl, .inl rfl⟩
        · exact ⟨rfl, .inl rfl⟩
      · exact ⟨rfl, .inl rfl⟩
  · exact ⟨rfl, .inl rfl⟩
  · exact ⟨rfl, .inl rfl⟩

/-- What an execution has read of a bound row is bound. -/
structure ReadsBound (i : Nat) (requestIdentity : String) (s : State) : Prop where
  row : ∃ row, s.requests.find? requestIdentity = some row ∧ row.processingHash ≠ none
  execution : ∃ e, s.executions[i]? = some e ∧ e.request.requestIdentity = requestIdentity ∧
    ∀ stored, e.stored = some stored → stored.processingHash ≠ none

theorem step_readsBound {i : Nat} {requestIdentity : String} (hi : Inv p s)
    (h : ReadsBound i requestIdentity s) (action : Action) :
    ReadsBound i requestIdentity (step p s action) := by
  obtain ⟨⟨row, hrow, hbound⟩, e, he, hrequest, hread⟩ := h
  obtain ⟨-, hl⟩ := step_inv hi action
  refine ⟨?_, ?_⟩
  · obtain ⟨row', hrow', hgrown⟩ := hl.requests _ row hrow
    obtain ⟨hash, hhash⟩ := Option.ne_none_iff_exists'.mp hbound
    refine ⟨row', hrow', ?_⟩
    rw [hgrown.processingHash hash hhash]
    exact Option.some_ne_none hash
  · cases action with
    | replaceCatalog => exact ⟨e, he, hrequest, hread⟩
    | deploy => exact ⟨e, he, hrequest, hread⟩
    | enqueue =>
      simp only [step]
      split
      · exact ⟨e, he, hrequest, hread⟩
      · split
        · exact ⟨e, he, hrequest, hread⟩
        · exact ⟨e, he, hrequest, hread⟩
    | start =>
      refine ⟨e, ?_, hrequest, hread⟩
      exact List.getElem?_append_left (List.getElem?_eq_some_iff.mp he).1 ▸ he
    | work j r =>
      simp only [step]
      split
      · exact ⟨e, he, hrequest, hread⟩
      · rename_i e' he'
        have hf := work_follows hi (hi.executions e' (List.mem_of_getElem? he')) r
        by_cases hij : j = i
        · subst hij
          have hsame := he'.symm.trans he
          cases hsame
          obtain ⟨hkept, hstored⟩ := work_stored (p := p) (s := s) (e := e) r
          refine ⟨(work p s e r).2, ?_, hkept ▸ hrequest, fun stored h => ?_⟩
          · simp only [State.put, hf.executions]
            exact List.getElem?_set_self (List.getElem?_eq_some_iff.mp he).1
          · rcases hstored with hsame | ⟨row', hrow', hnew⟩
            · exact hread stored (hsame.symm.trans h)
            · rw [hrequest, hrow] at hrow'
              rw [hnew] at h
              cases hrow'
              cases h
              exact hbound
        · refine ⟨e, ?_, hrequest, hread⟩
          simp only [State.put, hf.executions]
          rw [List.getElem?_set_ne hij]
          exact he
    | crash j =>
      simp only [step]
      split
      · exact ⟨e, he, hrequest, hread⟩
      · rename_i e' he'
        by_cases hij : j = i
        · subst hij
          have hsame := he'.symm.trans he
          cases hsame
          refine ⟨{ e with phase := .crashed }, ?_, hrequest, hread⟩
          simp only [State.put]
          exact List.getElem?_set_self (List.getElem?_eq_some_iff.mp he).1
        · refine ⟨e, ?_, hrequest, hread⟩
          simp only [State.put]
          rw [List.getElem?_set_ne hij]
          exact he
    | stageArtifact => exact ⟨e, he, hrequest, hread⟩

/-! ## Runs -/

theorem inv_initial (configured : Option DeployedGenerator) (models : List Catalogs.Model) :
    Inv p (initial configured models) where
  paired _ _ hrow := by cases hrow
  executions _ he := by cases he
  sets _ _ hset := by cases hset

theorem run_inv_later (hi : Inv p s) (actions : List Action) :
    Inv p (run (step p) s actions) ∧ Later s (run (step p) s actions) :=
  run_inv (I := fun t => Inv p t ∧ Later s t) ⟨hi, .refl s⟩
    (fun _ action ht => ⟨(step_inv ht.1 action).1, ht.2.trans (step_inv ht.1 action).2⟩) actions

theorem run_readsBound {i : Nat} {requestIdentity : String} (hi : Inv p s)
    (h : ReadsBound i requestIdentity s) (actions : List Action) :
    ReadsBound i requestIdentity (run (step p) s actions) :=
  (run_inv (I := fun t => Inv p t ∧ ReadsBound i requestIdentity t) ⟨hi, h⟩
    (fun _ action ht => ⟨(step_inv ht.1 action).1, step_readsBound ht.1 ht.2 action⟩) actions).2

/-- A request has one output: a later one is of the same recipe and, unforged, the same. -/
theorem Backed.same {requestIdentity : String} {prepared prepared' : PreparedGeneratorProcessing}
    {output output' : VerifiedGeneratorOutput} (hl : Later s s')
    (h : Backed p s requestIdentity prepared output)
    (h' : Backed p s' requestIdentity prepared' output') :
    prepared'.processingHash = prepared.processingHash ∧
      prepared'.recipeJson = prepared.recipeJson ∧
      (Unforged p.digests p.fileSha256 output → output' = output) := by
  have hlater := h.later hl
  obtain ⟨row, hrow, hhash, hsnapshot⟩ := hlater.row
  obtain ⟨row', hrow', hhash', hsnapshot'⟩ := h'.row
  rw [hrow] at hrow'
  cases hrow'
  have hprocessing : prepared'.processingHash = prepared.processingHash :=
    Option.some.inj (hhash'.symm.trans hhash)
  refine ⟨hprocessing, ?_, fun hu => ?_⟩
  · obtain ⟨recipe, hrecipe, hjson⟩ := hlater.recipe
    obtain ⟨recipe', hrecipe', hjson'⟩ := h'.recipe
    rw [hprocessing, hrecipe] at hrecipe'
    cases hrecipe'
    exact hjson'.symm.trans hjson
  · exact stored_eq hu h.accepted h'.accepted (Option.some.inj (hsnapshot'.symm.trans hsnapshot))

/-- What an execution is about to make public. -/
def Execution.publishing (e : Execution) :
    Option (PreparedGeneratorProcessing × VerifiedGeneratorOutput) :=
  match e.phase with
  | .running _ (.publish prepared output) => some (prepared, output)
  | .running _ (.store prepared output _) => some (prepared, output)
  | _ => none

theorem ExecutionInv.publishing (he : ExecutionInv p s e) {prepared : PreparedGeneratorProcessing}
    {output : VerifiedGeneratorOutput} (h : e.publishing = some (prepared, output)) :
    Backed p s e.request.requestIdentity prepared output := by
  unfold Execution.publishing at h
  split at h
  · rename_i hphase
    cases h
    obtain ⟨stored, -, -, hbacked⟩ := he.stage _ _ hphase
    exact hbacked
  · rename_i hphase
    cases h
    obtain ⟨stored, -, -, hbacked⟩ := he.stage _ _ hphase
    exact hbacked
  · cases h

end Recovery

/-- What holds of the requests, from a state to a later one. -/
structure Recovers (p : Primitives) (s s' : State) : Prop where
  /-- A row is bound to a recipe just when it is bound to a checkpoint. -/
  paired : ∀ k row, s'.requests.find? k = some row →
    row.processingHash.isSome = row.outputSnapshotIdentity.isSome
  /-- The text of a row never changes, nor what it is bound to. -/
  bound : GrownTable s.requests s'.requests
  /-- What is published is the accepted output that the row of the request is bound to. -/
  published : ∀ e ∈ s'.executions, ∀ prepared output, e.publishing = some (prepared, output) →
    Backed p s' e.request.requestIdentity prepared output
  /-- So is every set of a generator on record. -/
  sets : ∀ h set, s'.database.artifacts.sets.find? h = some set →
    set.generatorProcessingHash ≠ none →
    ∃ row, s'.database.artifacts.filesOf h = [row] ∧ Vouched p s' set (storedFile row)
  /-- It is one recipe and one output for good. -/
  same : ∀ requestIdentity prepared output prepared' output',
    Backed p s requestIdentity prepared output → Backed p s' requestIdentity prepared' output' →
    prepared'.processingHash = prepared.processingHash ∧
      prepared'.recipeJson = prepared.recipeJson ∧
      (Unforged p.digests p.fileSha256 output → output' = output)
  /-- Whoever reads a bound row never asks for anything. -/
  quiet : ∀ (i : Nat) (e : Execution) row, s.executions[i]? = some e → e.stored = none →
    s.requests.find? e.request.requestIdentity = some row → row.processingHash ≠ none →
    ∃ e', s'.executions[i]? = some e' ∧ e'.calls = []

/-- Any number of executions of any requests, one durable step after the other in any order, with
crashes and failures between any two, over any catalogs and deployments. -/
theorem project_recovery (p : Primitives) (configured : Option DeployedGenerator)
    (models : List Catalogs.Model) (actions actions' : List Action) :
    Recovers p (run (step p) (initial configured models) actions)
      (run (step p) (initial configured models) (actions ++ actions')) := by
  obtain ⟨hi, -⟩ := run_inv_later (p := p) (inv_initial configured models) actions
  rw [run_append]
  generalize run (step p) (initial configured models) actions = s at hi ⊢
  obtain ⟨hi', hl⟩ := run_inv_later hi actions'
  refine ⟨hi'.paired, hl.requests, ?_, hi'.sets, ?_, ?_⟩
  · intro e he prepared output h
    exact (hi'.executions e he).publishing h
  · intro requestIdentity prepared output prepared' output' h h'
    exact h.same hl h'
  · intro i e row he hunread hrow hbound
    have hreads : ReadsBound i e.request.requestIdentity s :=
      ⟨⟨row, hrow, hbound⟩, e, he, rfl, fun stored h => by rw [hunread] at h; cases h⟩
    obtain ⟨-, e', he', -, hread⟩ := run_readsBound hi hreads actions'
    have hreading := (hi'.executions e' (List.mem_of_getElem? he')).toReading
    refine ⟨e', he', ?_⟩
    cases hstored : e'.stored with
    | none => exact hreading.unread hstored
    | some stored => exact hreading.quiet stored hstored (hread stored hstored)

end Projects
end OnshapeExport
