import OnshapeExport.Artifacts
import OnshapeExport.Lib.Trace

/-!
# Publication

How `refresh_preview` and `refresh_download` publish a set: `stage_artifact`, then one upload and
verification a file, then `mark_artifact_set_ready` and `supersede_ready_artifacts_for_output`; a
failed upload runs `mark_artifact_upload_failed` instead. Each is a statement of its own, and any
number of attempts take their statements in any order.

* `publish` — the next statement of one attempt; `publish_spec` says all it can do.
* `turn`, `step` — one statement of one of the attempts, or `supersede_artifact_set`.

`Publishers` also remembers what no table records: which files were verified since their set was
last staged, which attempt marked a set ready, and which attempts took a ready set back.
-/

namespace OnshapeExport
namespace Publishing

open Relational Artifacts

/-- What an attempt publishes. The files it stages are recorded under its own set. -/
structure Publication where
  artifact : ArtifactUpsert
  files : List ArtifactFile
  ownFiles : ∀ f ∈ files, f.artifactSetHash = artifact.artifactKey

abbrev Publication.key (p : Publication) : String := p.artifact.artifactKey

/-- A publication with one file of its own. -/
def Publication.single (a : ArtifactUpsert) (role logicalPath contentType sha256 : String)
    (byteLen : Int) : Publication where
  artifact := a
  files := [⟨a.artifactKey, role, logicalPath, none, a.objectKey, contentType, byteLen, sha256,
    "{}"⟩]
  ownFiles f hf := by rw [List.mem_singleton.mp hf]

/-- A download of one output whose set hash ends in the name of its request. -/
def stepExport (request : String) : Publication :=
  .single ⟨"set-" ++ request, "demo", "config", "step", "step",
    "artifacts/v2/set-" ++ request ++ "/demo-step.step", some ("work-v2:export:" ++ request),
    "source", "options", some request, some ("raw-" ++ request), some "post", none, 2, "{}"⟩
    "download" "demo-step.step" "model/step" "sha" 10

/-- Where an attempt stands between its statements. -/
inductive Phase where
  | pending
  | uploading (done : Nat)
  | uploadFailed
  | superseding
  | finished
  | failed
  | crashed
deriving DecidableEq, Repr

inductive Stmt where
  | stage
  | upload (ok : Bool)
  | markUploadFailed
  | markReady
  | supersede
  | crash
deriving DecidableEq, Repr

/-- The attempt takes the statement if it is its next one, and waits otherwise. -/
def publish (now : Timestamp) (p : Publication) (t : ArtifactTables) :
    Phase → Stmt → Phase × ArtifactTables
  | .pending, .stage =>
    match stageArtifact now p.artifact p.files t with
    | .error _ => (.failed, t)
    | .ok t' => (.uploading 0, t')
  | .uploading done, .upload ok =>
    if done < p.files.length then (if ok then .uploading (done + 1) else .uploadFailed, t)
    else (.uploading done, t)
  | .uploading done, .markReady =>
    if done = p.files.length then
      (.superseding, (markArtifactSetReady now p.key p.artifact.objectKey t).2)
    else (.uploading done, t)
  | .uploadFailed, .markUploadFailed =>
    (.failed, (transitionArtifactSetStatus now p.key .uploadFailed t).2)
  | .superseding, .supersede =>
    (.finished, (supersedeReadyArtifactsForOutput now p.artifact.outputKey p.key
      (some "replaced") t).2)
  | .pending, .crash => (.crashed, t)
  | .uploading _, .crash => (.crashed, t)
  | .uploadFailed, .crash => (.crashed, t)
  | .superseding, .crash => (.crashed, t)
  | phase, _ => (phase, t)

/-- All a statement of an attempt can do, guards included. -/
inductive Publishes (now : Timestamp) (p : Publication) (t : ArtifactTables) :
    Phase → Stmt → Phase → ArtifactTables → Prop where
  | staged {t'} : stageArtifact now p.artifact p.files t = .ok t' →
      Publishes now p t .pending .stage (.uploading 0) t'
  | rejected : Publishes now p t .pending .stage .failed t
  | uploaded {done} : done < p.files.length →
      Publishes now p t (.uploading done) (.upload true) (.uploading (done + 1)) t
  | broken {done} : done < p.files.length →
      Publishes now p t (.uploading done) (.upload false) .uploadFailed t
  | marked : Publishes now p t (.uploading p.files.length) .markReady .superseding
      (markArtifactSetReady now p.key p.artifact.objectKey t).2
  | recorded : Publishes now p t .uploadFailed .markUploadFailed .failed
      (transitionArtifactSetStatus now p.key .uploadFailed t).2
  | superseded : Publishes now p t .superseding .supersede .finished
      (supersedeReadyArtifactsForOutput now p.artifact.outputKey p.key (some "replaced") t).2
  | crashed {phase} : phase ≠ .finished → phase ≠ .failed →
      Publishes now p t phase .crash .crashed t
  | waits {phase stmt} : Publishes now p t phase stmt phase t

theorem publish_spec (now : Timestamp) (p : Publication) (t : ArtifactTables) (phase : Phase)
    (stmt : Stmt) :
    Publishes now p t phase stmt (publish now p t phase stmt).1 (publish now p t phase stmt).2 := by
  unfold publish
  split
  · split
    · exact .rejected
    · rename_i h; exact .staged h
  · rename_i done ok
    split
    · rename_i h
      cases ok
      · exact .broken h
      · exact .uploaded h
    · exact .waits
  · split
    · rename_i h; rw [h]; exact .marked
    · exact .waits
  · exact .recorded
  · exact .superseded
  all_goals first
    | exact .waits
    | exact .crashed (by simp) (by simp)

/-- A finished attempt takes no more statements. -/
theorem Publishes.of_finished {now : Timestamp} {p : Publication} {t t' : ArtifactTables}
    {phase : Phase} {stmt : Stmt} (h : Publishes now p t .finished stmt phase t') :
    phase = .finished ∧ t' = t := by
  cases h with
  | crashed hne => exact absurd rfl hne
  | waits => exact ⟨rfl, rfl⟩

/-- Between its staging and its mark. -/
def Phase.Open (phase : Phase) : Prop := (∃ done, phase = .uploading done) ∨ phase = .uploadFailed

/-! ## Attempts side by side -/

structure Attempt where
  pub : Publication
  phase : Phase
  withdrew : Bool

structure Publishers where
  tables : ArtifactTables
  attempts : List Attempt
  verified : List ArtifactFile
  markedBy : List (String × Nat)

def start (t : ArtifactTables) (pubs : List Publication) : Publishers :=
  ⟨t, pubs.map fun p => ⟨p, .pending, false⟩, [], []⟩

/-- The attempt that last marked the set ready, if it went on to finish. -/
def finishedMarker (s : Publishers) (artifactSetHash : String) : Option Nat :=
  (s.markedBy.lookup artifactSetHash).filter fun j =>
    (s.attempts[j]?).any fun a => a.phase = .finished

def isReady (t : ArtifactTables) (artifactSetHash : String) : Bool :=
  (t.sets.find? artifactSetHash).any fun r => r.status = .ready

/-- Going to `t` takes away a ready set that a finished attempt other than `i` made ready. -/
def withdraws (s : Publishers) (i : Nat) (t : ArtifactTables) : Bool :=
  s.tables.sets.rows.any fun r =>
    isReady s.tables r.artifactSetHash && !isReady t r.artifactSetHash &&
      (finishedMarker s r.artifactSetHash).any fun j => j ≠ i

/-- Staging forgets what was verified of the set; an upload that succeeds adds its file. -/
def noteVerified (p : Publication) (verified : List ArtifactFile) :
    Phase → Phase → List ArtifactFile
  | .pending, .uploading _ => verified.filter fun f => f.artifactSetHash ≠ p.key
  | .uploading done, .uploading done' =>
    if done' = done + 1 then (p.files[done]?).toList ++ verified else verified
  | _, _ => verified

def noteMarked (p : Publication) (i : Nat) (markedBy : List (String × Nat)) :
    Phase → Phase → List (String × Nat)
  | .uploading _, .superseding => (p.key, i) :: markedBy
  | _, _ => markedBy

structure Turn where
  attempt : Nat
  now : Timestamp
  stmt : Stmt
deriving DecidableEq, Repr

def turn (s : Publishers) (o : Turn) : Publishers :=
  match s.attempts[o.attempt]? with
  | none => s
  | some a =>
    let out := publish o.now a.pub s.tables a.phase o.stmt
    { tables := out.2
      attempts := s.attempts.set o.attempt
        ⟨a.pub, out.1, a.withdrew || withdraws s o.attempt out.2⟩
      verified := noteVerified a.pub s.verified a.phase out.1
      markedBy := noteMarked a.pub o.attempt s.markedBy a.phase out.1 }

inductive Op where
  | turn (o : Turn)
  | supersedeSet (now : Timestamp) (artifactSetHash : String)
      (supersededBy supersessionReason : Option String)
deriving DecidableEq, Repr

def step (s : Publishers) : Op → Publishers
  | .turn o => turn s o
  | .supersedeSet now artifactSetHash by_ reason =>
    { s with tables := (supersedeArtifactSet now artifactSetHash by_ reason s.tables).2 }

/-! ## What the statements do to a row -/

section Rows

variable {now : Timestamp} {t : ArtifactTables} {k h : String}

theorem find?_markArtifactSetReady (objectKey : String) :
    (markArtifactSetReady now h objectKey t).2.sets.find? k =
      if k = h then (t.sets.find? k).map (readySet now objectKey) else t.sets.find? k := by
  simp only [markArtifactSetReady, find?_updateSets]
  cases hf : t.sets.find? k with
  | none => simp
  | some r =>
    have hk : r.artifactSetHash = k := Table.find?_key hf
    by_cases hh : k = h <;> simp [isSet, hk, hh]

theorem find?_transitionArtifactSetStatus (status : ArtifactStatus) :
    (transitionArtifactSetStatus now h status t).2.sets.find? k =
      if k = h then (t.sets.find? k).map fun r => { r with status := status, updatedAt := now }
      else t.sets.find? k := by
  simp only [transitionArtifactSetStatus, find?_updateSets]
  cases hf : t.sets.find? k with
  | none => simp
  | some r =>
    have hk : r.artifactSetHash = k := Table.find?_key hf
    by_cases hh : k = h <;> simp [isSet, hk, hh]

theorem find?_supersedeReadyArtifactsForOutput (key : OutputKey) (reason : Option String) :
    (supersedeReadyArtifactsForOutput now key h reason t).2.sets.find? k =
      (t.sets.find? k).map fun r =>
        if replacedBy key h r then supersededSet now (some h) reason r else r := by
  simp only [supersedeReadyArtifactsForOutput, find?_updateSets]

theorem find?_supersedeArtifactSet (by_ reason : Option String) :
    (supersedeArtifactSet now h by_ reason t).2.sets.find? k =
      if k = h then (t.sets.find? k).map fun r =>
        if r.status ≠ .superseded then supersededSet now by_ reason r else r
      else t.sets.find? k := by
  simp only [supersedeArtifactSet, find?_updateSets]
  cases hf : t.sets.find? k with
  | none => simp
  | some r =>
    have hk : r.artifactSetHash = k := Table.find?_key hf
    by_cases hh : k = h <;> simp [isSet, hk, hh]

/-- A statement of an attempt reaches the row of another set only by superseding it. -/
theorem Publishes.foreign {p : Publication} {t' : ArtifactTables} {phase phase' : Phase}
    {stmt : Stmt} (hp : Publishes now p t phase stmt phase' t') (hk : k ≠ p.key) :
    t'.sets.find? k = t.sets.find? k ∨
      phase = .superseding ∧ phase' = .finished ∧
        t'.sets.find? k = (t.sets.find? k).map fun r =>
          if replacedBy p.artifact.outputKey p.key r
          then supersededSet now (some p.key) (some "replaced") r else r := by
  cases hp with
  | staged hs =>
    left
    obtain ⟨-, hs⟩ := stageArtifact_ok hs
    rw [(stageArtifactInner_ok hs).1, if_neg hk]
  | marked => left; rw [find?_markArtifactSetReady, if_neg hk]
  | recorded => left; rw [find?_transitionArtifactSetStatus, if_neg hk]
  | superseded => exact .inr ⟨rfl, rfl, find?_supersedeReadyArtifactsForOutput _ _⟩
  | rejected => exact .inl rfl
  | uploaded => exact .inl rfl
  | broken => exact .inl rfl
  | crashed => exact .inl rfl
  | waits => exact .inl rfl

end Rows

/-! ## What a statement leaves as it was -/

section Statements

variable {now : Timestamp} {p : Publication} {t t' : ArtifactTables} {phase phase' : Phase}
  {stmt : Stmt}

/-- The attempt has just staged its set. -/
def Stages (phase phase' : Phase) : Prop := phase = .pending ∧ ∃ done, phase' = .uploading done

theorem Publishes.stmt_of_stages (hp : Publishes now p t phase stmt phase' t')
    (h : Stages phase phase') : stmt = .stage := by
  obtain ⟨rfl, done, rfl⟩ := h
  cases hp
  rfl

theorem Publishes.open_of_open (hp : Publishes now p t phase stmt phase' t')
    (ho : phase'.Open) : phase.Open ∨ Stages phase phase' := by
  cases hp with
  | staged => exact .inr ⟨rfl, _, rfl⟩
  | uploaded => exact .inl (.inl ⟨_, rfl⟩)
  | broken => exact .inl (.inl ⟨_, rfl⟩)
  | waits => exact .inl ho
  | rejected => rcases ho with ⟨_, h⟩ | h <;> cases h
  | marked => rcases ho with ⟨_, h⟩ | h <;> cases h
  | recorded => rcases ho with ⟨_, h⟩ | h <;> cases h
  | superseded => rcases ho with ⟨_, h⟩ | h <;> cases h
  | crashed => rcases ho with ⟨_, h⟩ | h <;> cases h

/-- Rows of another set change only when they are ready; the own row changes only while the
attempt has it open or stages it. -/
theorem Publishes.row_eq (hp : Publishes now p t phase stmt phase' t') {k : String}
    (hk : k = p.key → ¬ phase.Open ∧ ¬ Stages phase phase') {r : ArtifactSet}
    (hr : t.sets.find? k = some r) (hst : k = p.key ∨ r.status ≠ .ready) :
    t'.sets.find? k = some r := by
  by_cases he : k = p.key
  · obtain ⟨hopen, hstage⟩ := hk he
    cases hp with
    | superseded =>
      have hkk : r.artifactSetHash = k := Table.find?_key hr
      rw [find?_supersedeReadyArtifactsForOutput, hr, Option.map_some,
        if_neg (by simp [replacedBy, hkk, he])]
    | staged => exact absurd ⟨rfl, _, rfl⟩ hstage
    | marked => exact absurd (.inl ⟨_, rfl⟩) hopen
    | recorded => exact absurd (.inr rfl) hopen
    | rejected => exact hr
    | uploaded => exact hr
    | broken => exact hr
    | crashed => exact hr
    | waits => exact hr
  · rcases hp.foreign he with h | ⟨-, -, h⟩
    · exact h.trans hr
    · rw [h, hr, Option.map_some, if_neg (by simp [replacedBy, hst.resolve_left he])]

theorem Publishes.tables_eq (hp : Publishes now p t phase stmt phase' t') (hopen : phase.Open)
    (ho : phase'.Open) : t' = t := by
  cases hp with
  | uploaded => rfl
  | broken => rfl
  | crashed => rfl
  | waits => rfl
  | staged => rcases hopen with ⟨_, h⟩ | h <;> cases h
  | rejected => rcases hopen with ⟨_, h⟩ | h <;> cases h
  | marked => rcases ho with ⟨_, h⟩ | h <;> cases h
  | recorded => rcases ho with ⟨_, h⟩ | h <;> cases h
  | superseded => rcases hopen with ⟨_, h⟩ | h <;> cases h

/-- An attempt that has not staged its set, or is done with it, changes no table. -/
theorem Publishes.tables_eq_of_idle (hp : Publishes now p t phase stmt phase' t')
    (hopen : ¬ phase.Open) (hsup : phase ≠ .superseding) (hstage : ¬ Stages phase phase') :
    t' = t := by
  cases hp with
  | staged => exact absurd ⟨rfl, _, rfl⟩ hstage
  | marked => exact absurd (.inl ⟨_, rfl⟩) hopen
  | recorded => exact absurd (.inr rfl) hopen
  | superseded => exact absurd rfl hsup
  | rejected => rfl
  | uploaded => rfl
  | broken => rfl
  | crashed => rfl
  | waits => rfl

/-- The request of a row is that of the last staging. -/
theorem Publishes.requestHash_eq (hp : Publishes now p t phase stmt phase' t') {k : String}
    {row' : ArtifactSet} (hr : t'.sets.find? k = some row') :
    (k = p.key ∧ row'.requestHash = p.artifact.requestHash) ∨
      ∃ row, t.sets.find? k = some row ∧ row'.requestHash = row.requestHash := by
  cases hp with
  | staged hs =>
    obtain ⟨-, hs⟩ := stageArtifact_ok hs
    rw [(stageArtifactInner_ok hs).1] at hr
    split at hr
    · rename_i hk
      cases hr
      exact .inl ⟨hk, rfl⟩
    · exact .inr ⟨row', hr, rfl⟩
  | marked =>
    rw [find?_markArtifactSetReady] at hr
    split at hr
    · obtain ⟨row, hrow, rfl⟩ := Option.map_eq_some_iff.mp hr
      exact .inr ⟨row, hrow, rfl⟩
    · exact .inr ⟨row', hr, rfl⟩
  | recorded =>
    rw [find?_transitionArtifactSetStatus] at hr
    split at hr
    · obtain ⟨row, hrow, rfl⟩ := Option.map_eq_some_iff.mp hr
      exact .inr ⟨row, hrow, rfl⟩
    · exact .inr ⟨row', hr, rfl⟩
  | superseded =>
    rw [find?_supersedeReadyArtifactsForOutput] at hr
    obtain ⟨row, hrow, he⟩ := Option.map_eq_some_iff.mp hr
    refine .inr ⟨row, hrow, ?_⟩
    split at he <;> subst he <;> rfl
  | rejected => exact .inr ⟨row', hr, rfl⟩
  | uploaded => exact .inr ⟨row', hr, rfl⟩
  | broken => exact .inr ⟨row', hr, rfl⟩
  | crashed => exact .inr ⟨row', hr, rfl⟩
  | waits => exact .inr ⟨row', hr, rfl⟩

/-- A ready row stays, unless the publication replaces it or works on the row itself. -/
theorem Publishes.ready_stays (hp : Publishes now p t phase stmt phase' t') {k : String}
    {row : ArtifactSet} (hr : t.sets.find? k = some row) (hst : row.status = .ready) :
    (∃ row', t'.sets.find? k = some row' ∧ row'.requestHash = row.requestHash ∧
        row'.status = .ready) ∨
      (k = p.key ∧ (Stages phase phase' ∨ phase = .uploadFailed)) ∨
      (phase = .superseding ∧ stmt = .supersede ∧
        replacedBy p.artifact.outputKey p.key row = true) := by
  cases hp with
  | staged hs =>
    obtain ⟨-, hs⟩ := stageArtifact_ok hs
    by_cases hk : k = p.key
    · exact .inr (.inl ⟨hk, .inl ⟨rfl, _, rfl⟩⟩)
    · exact .inl ⟨row, by rw [(stageArtifactInner_ok hs).1, if_neg hk]; exact hr, rfl, hst⟩
  | marked =>
    by_cases hk : k = p.key
    · exact .inl ⟨readySet now p.artifact.objectKey row,
        by rw [find?_markArtifactSetReady, if_pos hk, hr, Option.map_some], rfl, rfl⟩
    · exact .inl ⟨row, by rw [find?_markArtifactSetReady, if_neg hk]; exact hr, rfl, hst⟩
  | recorded =>
    by_cases hk : k = p.key
    · exact .inr (.inl ⟨hk, .inr rfl⟩)
    · exact .inl ⟨row, by rw [find?_transitionArtifactSetStatus, if_neg hk]; exact hr, rfl, hst⟩
  | superseded =>
    by_cases hrep : replacedBy p.artifact.outputKey p.key row = true
    · exact .inr (.inr ⟨rfl, rfl, hrep⟩)
    · refine .inl ⟨row, ?_, rfl, hst⟩
      rw [find?_supersedeReadyArtifactsForOutput, hr, Option.map_some, if_neg hrep]
  | rejected => exact .inl ⟨row, hr, rfl, hst⟩
  | uploaded => exact .inl ⟨row, hr, rfl, hst⟩
  | broken => exact .inl ⟨row, hr, rfl, hst⟩
  | crashed => exact .inl ⟨row, hr, rfl, hst⟩
  | waits => exact .inl ⟨row, hr, rfl, hst⟩

end Statements

/-! ## One turn -/

section Turn

variable {s : Publishers} {o : Turn} {a : Attempt}

theorem turn_none (h : s.attempts[o.attempt]? = none) : turn s o = s := by
  rw [turn, h]

/-- A turn runs one statement of one attempt and leaves every other attempt as it is. -/
theorem turn_some (h : s.attempts[o.attempt]? = some a) :
    ∃ a', a'.pub = a.pub ∧
      Publishes o.now a.pub s.tables a.phase o.stmt a'.phase (turn s o).tables ∧
      (∀ i, (turn s o).attempts[i]? = if i = o.attempt then some a' else s.attempts[i]?) ∧
      a'.withdrew = (a.withdrew || withdraws s o.attempt (turn s o).tables) ∧
      (turn s o).verified = noteVerified a.pub s.verified a.phase a'.phase ∧
      (turn s o).markedBy = noteMarked a.pub o.attempt s.markedBy a.phase a'.phase := by
  let out := publish o.now a.pub s.tables a.phase o.stmt
  refine ⟨⟨a.pub, out.1, a.withdrew || withdraws s o.attempt out.2⟩, rfl, ?_⟩
  rw [turn, h]
  refine ⟨publish_spec .., fun i => ?_, rfl, rfl, rfl⟩
  rw [List.getElem?_set]
  by_cases hi : i = o.attempt
  · rw [if_pos hi.symm, if_pos (List.getElem?_eq_some_iff.mp h).1, if_pos hi]
  · rw [if_neg (Ne.symm hi), if_neg hi]

/-- The mark of an attempt whose files are all verified takes place. -/
theorem turn_markReady {i : Nat} (now : Timestamp) (h : s.attempts[i]? = some a)
    (hphase : a.phase = .uploading a.pub.files.length) :
    (turn s ⟨i, now, .markReady⟩).tables =
        (markArtifactSetReady now a.pub.key a.pub.artifact.objectKey s.tables).2 ∧
      ∃ a', (turn s ⟨i, now, .markReady⟩).attempts[i]? = some a' ∧ a'.pub = a.pub ∧
        a'.phase = .superseding := by
  rw [turn, h]
  simp only [hphase, publish, if_true]
  exact ⟨trivial, _, List.getElem?_set_self (List.getElem?_eq_some_iff.mp h).1, rfl, rfl⟩

theorem turn_pub (i : Nat) :
    ((turn s o).attempts[i]?).map Attempt.pub = (s.attempts[i]?).map Attempt.pub := by
  cases h : s.attempts[o.attempt]? with
  | none => rw [turn_none h]
  | some a =>
    obtain ⟨a', hpub, -, hget, -⟩ := turn_some h
    rw [hget]
    split
    · rename_i hi
      rw [hi, h, Option.map_some, Option.map_some, hpub]
    · rfl

theorem withdraws_self (i : Nat) : withdraws s i s.tables = false := by
  simp [withdraws, List.any_eq_false]

/-- Nothing is withdrawn when every ready set stays ready, but for sets no finished attempt made
ready. -/
theorem withdraws_eq_false {i : Nat} {t : ArtifactTables}
    (h : ∀ k, isReady s.tables k = true → isReady t k = true ∨ finishedMarker s k = none) :
    withdraws s i t = false := by
  rw [withdraws, List.any_eq_false]
  intro r _ hw
  simp only [Bool.and_eq_true, Bool.not_eq_true'] at hw
  rcases h _ hw.1.1 with hr | hr
  · rw [hr] at hw; exact absurd hw.1.2 (by simp)
  · rw [hr] at hw; exact absurd hw.2 (by simp)

theorem isReady_iff {t : ArtifactTables} {k : String} :
    isReady t k = true ↔ ∃ r, t.sets.find? k = some r ∧ r.status = .ready := by
  simp [isReady, Option.any_eq_true]

end Turn

end Publishing
end OnshapeExport
