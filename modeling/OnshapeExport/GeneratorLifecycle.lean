import OnshapeExport.GeneratorArtifacts

/-!
# GeneratorLifecycle

What holds of the generator's artifact sets over every interleaving of the five calls.

* `readyVersion_guard` — a withdrawal that names the version it observed only ends the ready
  period it observed.
* `generator_lifecycle` — one ready set an output, superseded for good, columns and file frozen,
  and nothing written by a call that fails.
-/

namespace OnshapeExport
namespace GeneratorArtifacts

open Relational Artifacts CacheModel Publishing Recipes Trace

/-! ## What a call does to a generator row -/

/-- All a call can do to the row of a generator set. -/
inductive Moves (r : ArtifactSet) : ArtifactSet → Prop where
  | stays : Moves r r
  | advanced {now : Timestamp} {status : ArtifactStatus} :
      r.status ≠ .superseded → r.Unsuperseded → Moves r (advancedSet now status r)
  | superseded {now : Timestamp} {by_ reason : Option String} :
      r.status = .ready → Moves r (supersededSet now by_ reason r)

section Writes

variable {t t' : ArtifactTables} {h : String} {r : ArtifactSet}

theorem find?_advanceSets {now : Timestamp} {status : ArtifactStatus} {p : ArtifactSet → Bool} :
    (advanceSets now status p t).sets.find? h =
      (t.sets.find? h).map fun r => if p r then advancedSet now status r else r :=
  find?_updateSets h

theorem isPending_spec (hp : isPending r = true) : r.status ≠ .superseded ∧ r.Unsuperseded := by
  simp only [isPending, Bool.and_eq_true, Bool.or_eq_true, decide_eq_true_eq] at hp
  refine ⟨?_, hp.2⟩
  intro hs
  simp [hs] at hp

/-- The row of the completed set, and the rows it replaces. -/
theorem find?_completed {readyAt supersededAt : Timestamp} {record : ArtifactSet}
    (hrec : t.sets.find? record.artifactSetHash = some record) (hp : isPending record = true)
    (hr : t.sets.find? h = some r) :
    (supersedeReadyArtifactsForOutput supersededAt record.outputKey record.artifactSetHash
      (some "replaced") (advanceSets readyAt .ready
        (fun r => isSet record.artifactSetHash r && isPending r) t)).2.sets.find? h =
      some (if h = record.artifactSetHash then advancedSet readyAt .ready r
        else if r.outputKey = record.outputKey ∧ r.status = .ready then
          supersededSet supersededAt (some record.artifactSetHash) (some "replaced") r
        else r) := by
  have hkey : r.artifactSetHash = h := Table.find?_key hr
  rw [find?_supersedeReadyArtifactsForOutput, find?_advanceSets, hr]
  simp only [Option.map_some]
  by_cases hh : h = record.artifactSetHash
  · subst hh
    rw [hrec] at hr
    cases hr
    simp [isSet, hp, replacedBy, advancedSet]
  · have hne : isSet record.artifactSetHash r = false := by simpa [isSet, hkey] using hh
    rw [if_neg hh]
    simp only [hne, Bool.false_and, Bool.false_eq_true, if_false, replacedBy, hkey, ne_eq, hh,
      not_false_eq_true, decide_true, Bool.and_true, Bool.and_eq_true, decide_eq_true_eq]

theorem Writes.moves (hw : Writes t t') (hr : t.sets.find? h = some r)
    (hgen : r.generatorProcessingHash ≠ none) :
    ∃ r', t'.sets.find? h = some r' ∧ Moves r r' ∧ t'.filesOf h = t.filesOf h := by
  cases hw with
  | nothing => exact ⟨r, hr, .stays, rfl⟩
  | @inserted row _ _ hnone _ _ _ hsets hfiles =>
    have hne : ¬ h = row.artifactSetHash := by
      intro he
      rw [he, hnone] at hr
      cases hr
    rw [hsets, hfiles, if_neg hne, if_neg hne]
    exact ⟨r, hr, .stays, rfl⟩
  | @failed now p hp =>
    rw [find?_advanceSets, hr]
    by_cases hpr : p r = true
    · exact ⟨_, by rw [Option.map_some, if_pos hpr], .advanced (hp r hpr).1 (hp r hpr).2, rfl⟩
    · exact ⟨_, by rw [Option.map_some, if_neg hpr], .stays, rfl⟩
  | completed hrec _ hp =>
    refine ⟨_, find?_completed hrec hp hr, ?_, rfl⟩
    split
    · rename_i hh
      rw [hh, hrec] at hr
      cases hr
      exact .advanced (isPending_spec hp).1 (isPending_spec hp).2
    · split
      · rename_i hready
        exact .superseded hready.2
      · exact .stays
  | @staged now p _ hs =>
    obtain ⟨-, hs⟩ := stageArtifact_ok hs
    obtain ⟨hsets, hordinary, -⟩ := stageArtifactInner_ok hs
    -- the export path stages over ordinary sets only
    have hne : ¬ h = p.artifact.artifactKey := by
      intro he
      exact hgen (hordinary r (he ▸ hr))
    rw [hsets, filesOf_stage p.ownFiles hs, if_neg hne, if_neg hne]
    exact ⟨r, hr, .stays, rfl⟩

theorem Moves.generator_eq {r' : ArtifactSet} (hm : Moves r r') :
    r'.generatorProcessingHash = r.generatorProcessingHash := by
  cases hm <;> rfl

/-- A set stays the generator's, or stays an ordinary one. -/
theorem Writes.generator_eq (hw : Writes t t') (hr : t.sets.find? h = some r) :
    ∃ r', t'.sets.find? h = some r' ∧ r'.generatorProcessingHash = r.generatorProcessingHash := by
  by_cases hgen : r.generatorProcessingHash = none
  · cases hw with
    | nothing => exact ⟨r, hr, rfl⟩
    | @inserted row _ _ hnone _ _ _ hsets _ =>
      have hne : ¬ h = row.artifactSetHash := by
        intro he
        rw [he, hnone] at hr
        cases hr
      exact ⟨r, by rw [hsets, if_neg hne, hr], rfl⟩
    | failed =>
      rw [find?_advanceSets, hr]
      refine ⟨_, rfl, ?_⟩
      simp only
      split <;> rfl
    | completed hrec _ hp =>
      refine ⟨_, find?_completed hrec hp hr, ?_⟩
      split
      · rfl
      · split <;> rfl
    | @staged now p _ hs =>
      obtain ⟨hord, hs⟩ := stageArtifact_ok hs
      rw [(stageArtifactInner_ok hs).1]
      split
      · exact ⟨_, rfl, by rw [hgen]; exact hord⟩
      · exact ⟨r, hr, rfl⟩
  · obtain ⟨r', hr', hm, -⟩ := hw.moves hr hgen
    exact ⟨r', hr', hm.generator_eq⟩

/-- A generator row was there before the call, or the call staged it. -/
theorem Writes.origin {r' : ArtifactSet} (hw : Writes t t') (hr' : t'.sets.find? h = some r')
    (hgen : r'.generatorProcessingHash ≠ none) :
    (∃ r, t.sets.find? h = some r ∧ r.generatorProcessingHash ≠ none) ∨
      r'.status = .staged ∧ r'.Unsuperseded ∧ ∃ file, t'.filesOf h = [file] := by
  cases hr : t.sets.find? h with
  | some r =>
    obtain ⟨r'', hr'', hgen''⟩ := hw.generator_eq hr
    rw [hr'] at hr''
    cases hr''
    exact .inl ⟨r, rfl, hgen'' ▸ hgen⟩
  | none =>
    right
    cases hw with
    | nothing => rw [hr] at hr'; cases hr'
    | @inserted row file _ hnone _ hst hcols hsets hfiles =>
      rw [hsets] at hr'
      split at hr'
      · rename_i he
        cases hr'
        exact ⟨hst, hcols, file, by rw [hfiles, if_pos he]⟩
      · rw [hr] at hr'; cases hr'
    | failed => rw [find?_advanceSets, hr] at hr'; cases hr'
    | completed =>
      rw [find?_supersedeReadyArtifactsForOutput, find?_advanceSets, hr] at hr'
      cases hr'
    | staged hs =>
      obtain ⟨hord, hs⟩ := stageArtifact_ok hs
      rw [(stageArtifactInner_ok hs).1] at hr'
      split at hr'
      · cases hr'; exact absurd hord hgen
      · rw [hr] at hr'; cases hr'

end Writes

/-! ## The version of a ready period -/

/-- A later state of a set: superseded, or with a larger version. -/
def Later : Option ArtifactSet → Option ArtifactSet → Prop
  | some r, some r' => r.status ≠ .superseded ∧ (r'.status = .superseded ∨ r.updatedAt < r'.updatedAt)
  | _, _ => False

theorem Later.irrefl (o : Option ArtifactSet) : ¬ Later o o := by
  cases o with
  | none => exact id
  | some r =>
    intro hl
    obtain ⟨hne, hs | hlt⟩ := hl
    · exact hne hs
    · exact Int.lt_irrefl _ hlt

theorem Later.trans {a b c : Option ArtifactSet} (hab : Later a b) (hbc : Later b c) :
    Later a c := by
  cases a with
  | none => exact hab
  | some r =>
    cases b with
    | none => exact hab.elim
    | some r' =>
      cases c with
      | none => exact hbc
      | some r'' =>
        obtain ⟨hne, h⟩ := hab
        obtain ⟨hne', h'⟩ := hbc
        exact ⟨hne, h'.imp_right fun hlt => Int.lt_trans (h.resolve_left hne') hlt⟩

theorem Moves.later {r r' : ArtifactSet} (hm : Moves r r') :
    some r' = some r ∨ Later (some r) (some r') := by
  cases hm with
  | stays => exact .inl rfl
  | advanced hne =>
    refine .inr ⟨hne, .inr ?_⟩
    exact Int.lt_of_lt_of_le (Int.lt_succ _) (Int.le_max_right _ _)
  | superseded hready => exact .inr ⟨by simp [hready], .inl rfl⟩

section Guard

variable {hashes : GeneratorHashes} {db : Database} {ops : List Op} {h : String} {r : ArtifactSet}

theorem run_generator_eq (hr : db.artifacts.sets.find? h = some r) (ops : List Op) :
    ∃ r', (run (step hashes) db ops).artifacts.sets.find? h = some r' ∧
      r'.generatorProcessingHash = r.generatorProcessingHash := by
  refine run_inv (I := fun s : Database => ∃ r', s.artifacts.sets.find? h = some r' ∧
    r'.generatorProcessingHash = r.generatorProcessingHash) ⟨r, hr, rfl⟩ ?_ ops
  rintro s op ⟨r', hr', hgen⟩
  obtain ⟨r'', hr'', hgen'⟩ := (apply_writes hashes s op).generator_eq hr'
  exact ⟨r'', hr'', hgen'.trans hgen⟩

/-- A set that reads the same version, and is not superseded, has not changed in between. -/
theorem always_row_eq (hr : db.artifacts.sets.find? h = some r)
    (hgen : r.generatorProcessingHash ≠ none) {r' : ArtifactSet}
    (hr' : (run (step hashes) db ops).artifacts.sets.find? h = some r')
    (hst : r'.status ≠ .superseded) (hversion : r'.updatedAt = r.updatedAt) :
    Always (step hashes) (fun s => s.artifacts.sets.find? h = some r) db ops := by
  have hinv : ∀ (s : Database) (op : Op),
      (∃ q, s.artifacts.sets.find? h = some q ∧ q.generatorProcessingHash ≠ none) →
      ∃ q, (step hashes s op).artifacts.sets.find? h = some q ∧ q.generatorProcessingHash ≠ none := by
    rintro s op ⟨q, hq, hg⟩
    obtain ⟨q', hq', hg'⟩ := (apply_writes hashes s op).generator_eq hq
    exact ⟨q', hq', hg' ▸ hg⟩
  have hstep : ∀ (s : Database) (op : Op),
      (∃ q, s.artifacts.sets.find? h = some q ∧ q.generatorProcessingHash ≠ none) →
      (step hashes s op).artifacts.sets.find? h = s.artifacts.sets.find? h ∨
        Later (s.artifacts.sets.find? h) ((step hashes s op).artifacts.sets.find? h) := by
    rintro s op ⟨q, hq, hg⟩
    obtain ⟨q', hq', hm, -⟩ := (apply_writes hashes s op).moves hq hg
    rw [hq, hq']
    exact hm.later
  have hend : (run (step hashes) db ops).artifacts.sets.find? h = db.artifacts.sets.find? h := by
    rcases run_forward (f := fun s : Database => s.artifacts.sets.find? h) @Later.trans hinv hstep
      ⟨r, hr, hgen⟩ ops with he | hl
    · exact he
    · rw [hr, hr'] at hl
      obtain ⟨-, hs | hlt⟩ := hl
      · exact absurd hs hst
      · exact absurd hlt (by rw [hversion]; exact Int.lt_irrefl _)
  have hall := always_unchanged (f := fun s : Database => s.artifacts.sets.find? h) Later.irrefl
    @Later.trans hinv hstep ⟨r, hr, hgen⟩ hend
  rwa [hr] at hall

theorem isObserved_key {expected : Timestamp} (hp : isObserved h expected r = true) :
    r.artifactSetHash = h := by
  simp only [isObserved, isSet, Bool.and_eq_true, decide_eq_true_eq] at hp
  exact hp.1.1.1.1

theorem failReady_eq_true {t : ArtifactTables} {now expected : Timestamp}
    (hf : (failReadyGeneratorVerification now h expected t).1 = true) :
    ∃ r, t.sets.find? h = some r ∧ r.generatorProcessingHash ≠ none ∧ r.status = .ready ∧
      r.updatedAt = expected := by
  simp only [failReadyGeneratorVerification, beq_iff_eq] at hf
  obtain ⟨r, hr, hp⟩ := (Table.affected_eq_one fun r => isObserved_key).mp hf
  simp only [isObserved, Bool.and_eq_true, decide_eq_true_eq] at hp
  exact ⟨r, hr, by simpa [Option.isSome_iff_ne_none] using hp.1.1.1.2, hp.1.1.2, hp.1.2⟩

/-- A withdrawal that does not succeed changes nothing. -/
theorem failReady_eq_false {t : ArtifactTables} {now expected : Timestamp}
    (hf : (failReadyGeneratorVerification now h expected t).1 = false) :
    failReadyGeneratorVerification now h expected t = (false, t) := by
  refine Prod.ext hf ?_
  simp only [failReadyGeneratorVerification, beq_eq_false_iff_ne, ne_eq] at hf ⊢
  rw [Table.affected_eq_one fun r => isObserved_key] at hf
  have hno : ∀ q ∈ t.sets.rows, isObserved h expected q = false := by
    intro q hq
    rw [Bool.eq_false_iff]
    intro hp
    exact hf ⟨q, isObserved_key hp ▸ Table.find?_of_mem hq, hp⟩
  simp only [advanceSets, ArtifactTables.updateSets, Table.update_eq_self hno]

theorem find?_failGeneratorArtifact {t : ArtifactTables} {now : Timestamp} {k : String}
    (hr : t.sets.find? h = some r) (hready : r.status = .ready) :
    (failGeneratorArtifact now k t).2.sets.find? h = some r := by
  simp only [failGeneratorArtifact, find?_advanceSets, hr, Option.map_some]
  rw [if_neg (by simp [isPending, hready])]

end Guard

/-- A set made ready at 5, with version 6. -/
def publishedPlate : Database := run (step plateHashes) .empty (publishPlate 5 "a")

def publishedRow : ArtifactSet :=
  advancedSet 5 .ready (generatorSet plateHashes 5 (platePrepared "a") (plateStage "a"))

def repairPlate : List Op :=
  [.failReadyVerification 5 (plateHash "a") 6, .complete 5 5 (platePrepared "a")
    "slicer_project:bambu" "project_3mf" (plateStage "a").objectKey]

/-- Of a set read as ready: a withdrawal with the version read only succeeds while the row is the
one read, it changes nothing once the set has left `ready`, however often it was completed again,
and the failure of a pending worker never touches a ready set. -/
theorem readyVersion_guard (hashes : GeneratorHashes) (db : Database) (ops : List Op) {h : String}
    {r : ArtifactSet} (hr : db.artifacts.sets.find? h = some r) (hready : r.status = .ready) :
    (∀ now, (failReadyGeneratorVerification now h r.updatedAt
        (run (step hashes) db ops).artifacts).1 = true →
      Always (step hashes) (fun s => s.artifacts.sets.find? h = some r) db ops) ∧
    (∀ pre, pre <+: ops → isReady (run (step hashes) db pre).artifacts h = false →
      ∀ now, failReadyGeneratorVerification now h r.updatedAt (run (step hashes) db ops).artifacts =
        (false, (run (step hashes) db ops).artifacts)) ∧
    ∀ now k k', isReady (run (step hashes) db ops).artifacts k = true →
      (failGeneratorArtifact now k' (run (step hashes) db ops).artifacts).2.sets.find? k =
        (run (step hashes) db ops).artifacts.sets.find? k := by
  have hguard : ∀ now, (failReadyGeneratorVerification now h r.updatedAt
      (run (step hashes) db ops).artifacts).1 = true →
      Always (step hashes) (fun s => s.artifacts.sets.find? h = some r) db ops := by
    intro now hf
    obtain ⟨r', hr', hgen', hst, hversion⟩ := failReady_eq_true hf
    obtain ⟨r'', hr'', hgen⟩ : ∃ r'',
        (run (step hashes) db ops).artifacts.sets.find? h = some r'' ∧
          r''.generatorProcessingHash = r.generatorProcessingHash := run_generator_eq hr ops
    rw [hr'] at hr''
    cases hr''
    exact always_row_eq hr (hgen ▸ hgen') hr' (by simp [hst]) hversion
  refine ⟨hguard, ?_, ?_⟩
  · intro pre hpre hleft now
    apply failReady_eq_false
    rw [Bool.eq_false_iff]
    intro hf
    have hrow := always_iff.mp (hguard now hf) pre hpre
    simp only [isReady, hrow, Option.any_some, hready, decide_true, Bool.true_eq_false] at hleft
  · intro now k k' hk
    obtain ⟨q, hq, hst⟩ := isReady_iff.mp hk
    rw [find?_failGeneratorArtifact hq hst, hq]

/-- A withdrawal and a repair within the millisecond of the reading: the version of the reading is
gone. -/
theorem readyVersion_guard_repaired :
    isReady (run (step plateHashes) publishedPlate repairPlate).artifacts (plateHash "a") =
        true ∧
      ∀ now, failReadyGeneratorVerification now (plateHash "a") 6
          (run (step plateHashes) publishedPlate repairPlate).artifacts =
        (false, (run (step plateHashes) publishedPlate repairPlate).artifacts) := by
  have hrow : publishedPlate.artifacts.sets.find? (plateHash "a") = some publishedRow := by
    decide +kernel
  have hready : publishedRow.status = .ready := rfl
  have hversion : publishedRow.updatedAt = 6 := by decide
  have hleft : isReady (run (step plateHashes) publishedPlate
      [.failReadyVerification 5 (plateHash "a") 6]).artifacts (plateHash "a") = false := by
    decide +kernel
  have hguard := (readyVersion_guard plateHashes publishedPlate repairPlate hrow
    hready).2.1 [.failReadyVerification 5 (plateHash "a") 6] ⟨_, rfl⟩ hleft
  rw [hversion] at hguard
  exact ⟨by decide +kernel, hguard⟩

/-! ## The lifecycle -/

/-- What holds of the generator sets of every reachable state. -/
structure Lifecycle (t : ArtifactTables) : Prop where
  oneReady : ∀ h h' r r', t.sets.find? h = some r → t.sets.find? h' = some r' →
    r.generatorProcessingHash ≠ none → r'.generatorProcessingHash ≠ none →
    r.status = .ready → r'.status = .ready → r.outputKey = r'.outputKey → h = h'
  columns : ∀ h r, t.sets.find? h = some r → r.generatorProcessingHash ≠ none →
    r.status ≠ .superseded → r.Unsuperseded
  oneFile : ∀ h r, t.sets.find? h = some r → r.generatorProcessingHash ≠ none →
    ∃ file, t.filesOf h = [file]

theorem lifecycle_empty : Lifecycle .empty where
  oneReady _ _ _ _ hr := by cases hr
  columns _ _ hr := by cases hr
  oneFile _ _ hr := by cases hr

section Steps

variable {t t' : ArtifactTables} {h : String} {r : ArtifactSet}

/-- A generator set that is ready was so before the call, or the call left no other set of its
output ready. -/
theorem Writes.ready (hw : Writes t t') (hr : t'.sets.find? h = some r)
    (hgen : r.generatorProcessingHash ≠ none) (hready : r.status = .ready) :
    t.sets.find? h = some r ∨
      ∀ h' r', t'.sets.find? h' = some r' → r'.status = .ready → r'.outputKey = r.outputKey →
        h' = h := by
  cases hw with
  | nothing => exact .inl hr
  | inserted _ _ hst _ hsets _ =>
    rw [hsets] at hr
    split at hr
    · cases hr
      rw [hst] at hready
      cases hready
    · exact .inl hr
  | failed =>
    left
    rw [find?_advanceSets] at hr
    obtain ⟨q, hq, he⟩ := Option.map_eq_some_iff.mp hr
    split at he
    · subst he; cases hready
    · rw [hq, he]
  | @completed readyAt supersededAt record hrec _ hp =>
    obtain ⟨q, hq⟩ : ∃ q, t.sets.find? h = some q := by
      rw [find?_supersedeReadyArtifactsForOutput, find?_advanceSets] at hr
      simp only [Option.map_map, Option.map_eq_some_iff] at hr
      obtain ⟨q, hq, -⟩ := hr
      exact ⟨q, hq⟩
    rw [find?_completed hrec hp hq, Option.some.injEq] at hr
    by_cases hh : h = record.artifactSetHash
    · right
      rw [if_pos hh] at hr
      rw [hh, hrec] at hq
      cases hq
      subst hr
      intro h' r' hr' hready' hkey
      by_contra hne
      obtain ⟨q', hq'⟩ : ∃ q', t.sets.find? h' = some q' := by
        rw [find?_supersedeReadyArtifactsForOutput, find?_advanceSets] at hr'
        simp only [Option.map_map, Option.map_eq_some_iff] at hr'
        obtain ⟨q', hq', -⟩ := hr'
        exact ⟨q', hq'⟩
      rw [find?_completed hrec hp hq', Option.some.injEq, if_neg (hh ▸ hne)] at hr'
      split at hr'
      · subst hr'; cases hready'
      · rename_i hno
        subst hr'
        exact hno ⟨hkey, hready'⟩
    · left
      rw [if_neg hh] at hr
      split at hr
      · subst hr; cases hready
      · rw [hq, hr]
  | staged hs =>
    left
    obtain ⟨hord, hs⟩ := stageArtifact_ok hs
    rw [(stageArtifactInner_ok hs).1] at hr
    split at hr
    · cases hr; exact absurd hord hgen
    · exact hr

theorem Moves.columns {r' : ArtifactSet} (hm : Moves r r')
    (hcols : r.status ≠ .superseded → r.Unsuperseded) (hst : r'.status ≠ .superseded) :
    r'.Unsuperseded := by
  cases hm with
  | stays => exact hcols hst
  | advanced hne hu => exact hu
  | superseded => exact absurd rfl hst

theorem lifecycle_writes (hl : Lifecycle t) (hw : Writes t t') : Lifecycle t' where
  oneReady h h' r r' hr hr' hgen hgen' hready hready' hkey := by
    rcases hw.ready hr hgen hready with hold | hlast
    · rcases hw.ready hr' hgen' hready' with hold' | hlast'
      · exact hl.oneReady h h' r r' hold hold' hgen hgen' hready hready' hkey
      · exact hlast' h r hr hready hkey
    · exact (hlast h' r' hr' hready' hkey.symm).symm
  columns h r hr hgen hst := by
    rcases hw.origin hr hgen with ⟨q, hq, hqgen⟩ | ⟨-, hcols, -⟩
    · obtain ⟨q', hq', hm, -⟩ := hw.moves hq hqgen
      rw [hr] at hq'
      cases hq'
      exact hm.columns (hl.columns h q hq hqgen) hst
    · exact hcols
  oneFile h r hr hgen := by
    rcases hw.origin hr hgen with ⟨q, hq, hqgen⟩ | ⟨-, -, hfile⟩
    · obtain ⟨-, -, -, hfiles⟩ := hw.moves hq hqgen
      rw [hfiles]
      exact hl.oneFile h q hq hqgen
    · exact hfile

/-- A row without its status, its version and its supersession. -/
def fixedColumns (r : ArtifactSet) : ArtifactSet :=
  { r with status := .staged, updatedAt := 0, supersededAt := none, supersededBy := none,
           supersessionReason := none }

theorem Moves.fixedColumns_eq {r' : ArtifactSet} (hm : Moves r r') :
    fixedColumns r' = fixedColumns r := by
  cases hm <;> rfl

theorem Moves.of_superseded {r' : ArtifactSet} (hm : Moves r r') (hst : r.status = .superseded) :
    r' = r := by
  cases hm with
  | stays => rfl
  | advanced hne => exact absurd hst hne
  | superseded hready =>
    rw [hst] at hready
    cases hready

end Steps

/-! ## What a call leaves of the rows that are there -/

section Rows

variable {hashes : GeneratorHashes} {db : Database}

/-- What a staging adds is the set and the file it was given. -/
theorem stageTransaction_new {now : Timestamp} {prepared : PreparedGeneratorProcessing}
    {artifact : GeneratorArtifactStage} {file : GeneratorArtifactFile} {recipes : RecipeTables}
    {t t' : ArtifactTables} {state : GeneratorArtifactState} {h : String} {r : ArtifactSet}
    (hs : stageTransaction hashes now prepared artifact file recipes t = .ok (state, t'))
    (hnone : t.sets.find? h = none) (hr : t'.sets.find? h = some r) :
    r = generatorSet hashes now prepared artifact ∧ ∃ row, t'.filesOf h = [row] ∧
      storedFile row = file := by
  unfold stageTransaction at hs
  simp only at hs
  split at hs
  · cases hs
  · rename_i files hfiles
    split at hs
    · cases hs
    · cases hs
    · rename_i record stored hload
      split at hs
      · cases hs
      · rename_i hsame
        cases hs
        obtain ⟨-, -, -, row, hrow, hstored, -⟩ := loadGeneratorArtifact_some hashes hload
        rw [(Table.insertOrIgnore_keyed (fun _ _ hc => hc) t.sets _).2 h] at hr
        split at hr
        · rename_i hkey
          rw [hnone] at hr
          refine ⟨(Option.some.inj hr).symm, row, ?_, ?_⟩
          · rw [← hkey]
            exact hrow
          · rw [← hstored]
            exact not_not.mp fun hne => hsame (.inr (.inr hne))
        · rw [hnone] at hr
          cases hr

/-- A generator set that a call adds was staged by it. -/
theorem apply_new {op : Op} {h : String} {r : ArtifactSet}
    (hnone : db.artifacts.sets.find? h = none)
    (hr : (step hashes db op).artifacts.sets.find? h = some r)
    (hgen : r.generatorProcessingHash ≠ none) :
    ∃ now prepared artifact file, op = .stageOrResume now prepared artifact [file] ∧
      r = generatorSet hashes now prepared artifact ∧
      ∃ row, (step hashes db op).artifacts.filesOf h = [row] ∧ storedFile row = file := by
  cases op with
  | stageOrResume now prepared artifact files =>
    revert hr
    simp only [step, Op.apply, stageOrResumeGeneratorArtifact]
    split
    · rename_i file _
      split
      · intro hr
        rw [hnone] at hr
        cases hr
      · split
        · intro hr
          rw [hnone] at hr
          cases hr
        · split
          · intro hr
            rw [hnone] at hr
            cases hr
          · rename_i hs
            intro hr
            obtain ⟨hset, hfile⟩ := stageTransaction_new hs hnone hr
            exact ⟨now, prepared, artifact, file, rfl, hset, hfile⟩
    · intro hr
      rw [hnone] at hr
      cases hr
  | fail now k =>
    simp only [step, Op.apply, failGeneratorArtifact, find?_advanceSets, hnone] at hr
    cases hr
  | failReadyVerification now k expected =>
    simp only [step, Op.apply, failReadyGeneratorVerification, find?_advanceSets, hnone] at hr
    cases hr
  | complete readyAt supersededAt prepared outputKind format objectKey =>
    exfalso
    revert hr
    simp only [step, Op.apply, completeGeneratorArtifact]
    split
    · intro hr
      rw [hnone] at hr
      cases hr
    · rename_i done t' hc
      intro hr
      unfold completeTransaction at hc
      split at hc
      · cases hc
      · cases hc
        rw [hnone] at hr
        cases hr
      · simp only at hc
        split at hc
        · cases hc
        · split at hc
          · cases hc
            rw [find?_supersedeReadyArtifactsForOutput, find?_advanceSets, hnone] at hr
            cases hr
          · cases hc
            rw [hnone] at hr
            cases hr
  | stageArtifact now p =>
    exfalso
    revert hr
    simp only [step, Op.apply]
    split
    · intro hr
      rw [hnone] at hr
      cases hr
    · rename_i hs
      intro hr
      obtain ⟨hord, hs⟩ := stageArtifact_ok hs
      rw [(stageArtifactInner_ok hs).1] at hr
      split at hr
      · cases hr
        exact hgen hord
      · rw [hnone] at hr
        cases hr

/-- No call changes a recipe that is there. -/
theorem apply_recipes (op : Op) {h : String} {row : RecipeRow}
    (hrow : db.recipes.recipes.find? h = some row) :
    (step hashes db op).recipes.recipes.find? h = some row := by
  cases op with
  | stageOrResume now prepared artifact files =>
    simp only [step, Op.apply, stageOrResumeGeneratorArtifact]
    split
    · split
      · exact hrow
      · split
        · exact hrow
        · rename_i hins
          split
          · exact recipe_stays hins hrow
          · exact recipe_stays hins hrow
    · exact hrow
  | fail => exact hrow
  | failReadyVerification => exact hrow
  | complete =>
    simp only [step, Op.apply, completeGeneratorArtifact]
    split
    · exact hrow
    · exact hrow
  | stageArtifact =>
    simp only [step, Op.apply]
    split
    · exact hrow
    · exact hrow

/-- A generator row from one call to the next. -/
theorem apply_frozen (op : Op) {h : String} {r : ArtifactSet}
    (hr : db.artifacts.sets.find? h = some r) (hgen : r.generatorProcessingHash ≠ none) :
    ∃ r', (step hashes db op).artifacts.sets.find? h = some r' ∧ fixedColumns r' = fixedColumns r ∧
      (step hashes db op).artifacts.filesOf h = db.artifacts.filesOf h := by
  obtain ⟨r', hr', hm, hfiles⟩ := (apply_writes hashes db op).moves hr hgen
  exact ⟨r', hr', hm.fixedColumns_eq, hfiles⟩

end Rows

section Runs

variable {hashes : GeneratorHashes} {db : Database} {h : String} {r : ArtifactSet}

theorem run_lifecycle (ops : List Op) : Lifecycle (run (step hashes) .empty ops).artifacts :=
  run_inv (I := fun s : Database => Lifecycle s.artifacts) lifecycle_empty
    (fun s op hl => lifecycle_writes hl (apply_writes hashes s op)) ops

/-- A generator row from here on. -/
theorem run_frozen (hr : db.artifacts.sets.find? h = some r)
    (hgen : r.generatorProcessingHash ≠ none) (ops : List Op) :
    ∃ r', (run (step hashes) db ops).artifacts.sets.find? h = some r' ∧
      fixedColumns r' = fixedColumns r ∧ (r.status = .superseded → r' = r) ∧
      (run (step hashes) db ops).artifacts.filesOf h = db.artifacts.filesOf h := by
  let Kept := fun s : Database => ∃ r', s.artifacts.sets.find? h = some r' ∧
    r'.generatorProcessingHash ≠ none ∧ fixedColumns r' = fixedColumns r ∧
    (r.status = .superseded → r' = r) ∧ s.artifacts.filesOf h = db.artifacts.filesOf h
  have hstep : ∀ s op, Kept s → Kept (step hashes s op) := by
    rintro s op ⟨q, hq, hqgen, hfixed, hsup, hfiles⟩
    obtain ⟨q', hq', hm, hfiles'⟩ := (apply_writes hashes s op).moves hq hqgen
    refine ⟨q', hq', hm.generator_eq ▸ hqgen, hm.fixedColumns_eq.trans hfixed, ?_,
      hfiles'.trans hfiles⟩
    intro hst
    have hqr := hsup hst
    exact (hm.of_superseded (hqr ▸ hst)).trans hqr
  obtain ⟨r', hr', -, hrest⟩ := run_inv (I := Kept) ⟨r, hr, hgen, rfl, fun _ => rfl, rfl⟩ hstep ops
  exact ⟨r', hr', hrest⟩

/-- A call that fails leaves the artifact tables alone, even where it has committed a recipe. -/
theorem apply_error {op : Op} {e : DbError} (he : (op.apply hashes db).1 = .error e) :
    (op.apply hashes db).2.artifacts = db.artifacts := by
  cases op with
  | stageOrResume now prepared artifact files =>
    revert he
    simp only [Op.apply, stageOrResumeGeneratorArtifact]
    split
    · split
      · intro _; rfl
      · split
        · intro _; rfl
        · split
          · intro _; rfl
          · intro he; cases he
    · intro _; rfl
  | fail => cases he
  | failReadyVerification => cases he
  | complete =>
    revert he
    simp only [Op.apply, completeGeneratorArtifact]
    split
    · intro _; rfl
    · intro he; cases he
  | stageArtifact =>
    revert he
    simp only [Op.apply]
    split
    · intro _; rfl
    · intro he; cases he

end Runs

/-- Over every interleaving of the calls: at most one generator set of an output is ready; the
supersession columns of a set that is not superseded are `NULL`; a generator set keeps its one
file and every other column for good, and nothing changes once it is superseded; and a call that
fails writes no artifact table. -/
theorem generator_lifecycle (hashes : GeneratorHashes) (ops : List Op) :
    let t := (run (step hashes) .empty ops).artifacts
    (∀ h h' r r', t.sets.find? h = some r → t.sets.find? h' = some r' →
      r.generatorProcessingHash ≠ none → r'.generatorProcessingHash ≠ none →
      r.status = .ready → r'.status = .ready → r.outputKey = r'.outputKey → h = h') ∧
    (∀ h r, t.sets.find? h = some r → r.generatorProcessingHash ≠ none →
      r.status ≠ .superseded → r.Unsuperseded) ∧
    (∀ h r, t.sets.find? h = some r → r.generatorProcessingHash ≠ none →
      ∃ file, t.filesOf h = [file] ∧ ∀ ops', ∃ r',
        (run (step hashes) .empty (ops ++ ops')).artifacts.sets.find? h = some r' ∧
        (run (step hashes) .empty (ops ++ ops')).artifacts.filesOf h = [file] ∧
        fixedColumns r' = fixedColumns r ∧ (r.status = .superseded → r' = r)) ∧
    ∀ op e, (op.apply hashes (run (step hashes) .empty ops)).1 = .error e →
      (step hashes (run (step hashes) .empty ops) op).artifacts = t := by
  intro t
  have hl : Lifecycle t := run_lifecycle ops
  refine ⟨hl.oneReady, hl.columns, ?_, fun op e he => apply_error he⟩
  intro h r hr hgen
  obtain ⟨file, hfile⟩ := hl.oneFile h r hr hgen
  refine ⟨file, hfile, fun ops' => ?_⟩
  obtain ⟨r', hr', hfixed, hsup, hfiles⟩ := @run_frozen hashes _ _ _ hr hgen ops'
  rw [run_append]
  exact ⟨r', hr', hfiles.trans hfile, hfixed, hsup⟩

/-- A second recipe of the output supersedes the first. -/
example : (run (step plateHashes) .empty (publishPlate 5 "a" ++ publishPlate 7 "b")
    |>.artifacts.sets.rows.map fun r => (r.status, r.supersededAt)) =
    [(.superseded, some 7), (.ready, none)] := by decide +kernel

end GeneratorArtifacts
end OnshapeExport
