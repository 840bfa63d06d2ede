import OnshapeExport.ExportQueue

/-!
# StuckExport

A plain enqueue leaves a `ready` job alone, so a ready job has to have a ready artifact. Jobs and
artifacts are two tables, and a statement on one of them can break this.

A request is relied on (`Relied`) when its job is ready, or an execution of it has its ready set
and is on the way to `finish_job`.

* `noStuckExport_iff` — an enqueue starts a missing export exactly if every ready job has its set.
* `always_noStuckExport` — along every run that takes no ready set from a request relied on.
* `stuck_run` — two requests for one output: the second publication leaves the first job ready
  and its set superseded.
-/

namespace OnshapeExport
namespace ExportQueue

open Relational Jobs Artifacts Publishing CacheModel Trace

def HasReady (t : ArtifactTables) (requestHash : String) : Prop :=
  ∃ k row, t.sets.find? k = some row ∧ row.requestHash = some requestHash ∧ row.status = .ready

/-- Without a ready set, a plain enqueue leaves the job of the request queued or running. -/
def NoStuckExport (s : ExportState) : Prop :=
  ∀ r now jobKind payloadJson, latestReadyArtifactForRequest r s.tables = none →
    ∃ job, (enqueueJob now (exportJobKey r) jobKind payloadJson s.jobs).2.find?
        (exportJobKey r) = some job ∧ (job.status = .queued ∨ job.status = .running)

def ReadyHasArtifact (s : ExportState) : Prop :=
  ∀ r job, s.jobs.find? (exportJobKey r) = some job → job.status = .ready → HasReady s.tables r

theorem latest_eq_none {t : ArtifactTables} {r : String} :
    latestReadyArtifactForRequest r t = none ↔ ¬ HasReady t r := by
  rw [HasReady, ← latestReadyArtifactForRequest_isSome, Option.not_isSome_iff_eq_none]

theorem noStuckExport_iff {s : ExportState} : NoStuckExport s ↔ ReadyHasArtifact s := by
  constructor
  · intro h r job hjob hst
    by_contra hnone
    obtain ⟨job', hjob', hst'⟩ := h r 0 "" "" (latest_eq_none.mpr hnone)
    rw [enqueueJob, find?_enqueueJobInner, if_pos rfl, hjob] at hjob'
    simp only [requeueable, hst, Option.some.injEq] at hjob'
    simp at hjob'
    subst hjob'
    rw [hst] at hst'
    rcases hst' with h | h <;> cases h
  · intro h r now kind payload hnone
    rw [latest_eq_none] at hnone
    rw [enqueueJob, find?_enqueueJobInner, if_pos rfl]
    refine ⟨_, rfl, ?_⟩
    cases hjob : s.jobs.find? (exportJobKey r) with
    | none => exact .inl rfl
    | some job =>
      have hkey : job.workKey = exportJobKey r := Table.find?_key hjob
      simp only
      split
      · exact .inl rfl
      · rename_i hreq
        cases hst : job.status with
        | queued => exact .inl rfl
        | running => exact .inr rfl
        | ready => exact absurd (h r job hjob hst) hnone
        | failed => simp [requeueable, hst, hkey] at hreq
        | superseded => simp [requeueable, hst, hkey] at hreq

/-! ## Requests relied on -/

/-- The execution has its ready set and goes on to `finish_job`. -/
def Progress.Relies (progress : Progress) : Prop :=
  (∃ p, progress = .publishing p .superseding) ∨ progress = .succeeded

/-- Between the staging of the set and the end of the publication. -/
def Progress.Holds (progress : Progress) : Prop :=
  ∃ p phase, progress = .publishing p phase ∧ (phase.Open ∨ phase = .superseding)

section

variable (payloadRequest : String → Option String)

def Relied (s : ExportState) (r : String) : Prop :=
  (∃ job, s.jobs.find? (exportJobKey r) = some job ∧ job.status = .ready) ∨
    ∃ (i : Nat) (e : Execution), s.executions[i]? = some e ∧
      e.request payloadRequest = some r ∧ e.progress.Relies

/-- The operation takes no ready set away from a request relied on:
an execution stages only while its job is not ready and no other execution of the job is between
its staging, or its finding a ready set, and `finish_job`;
a publication replaces no ready set of another request relied on;
the operator supersedes no ready set of a request relied on. -/
def Allowed (s : ExportState) : Op payloadRequest → Prop
  | .execution i (.publish _ .stage) =>
    ∀ e p r, s.executions[i]? = some e → e.progress = .publishing p .pending →
      e.request payloadRequest = some r →
      (∀ job, s.jobs.find? (exportJobKey r) = some job → job.status ≠ .ready) ∧
        ∀ (j : Nat) (e' : Execution), j ≠ i → s.executions[j]? = some e' →
          e'.request payloadRequest = some r → ¬ e'.progress.Holds ∧ ¬ e'.progress.Relies
  | .execution i (.publish _ .supersede) =>
    ∀ e p, s.executions[i]? = some e → e.progress = .publishing p .superseding →
      ∀ k row r, s.tables.sets.find? k = some row →
        replacedBy p.artifact.outputKey p.key row = true → row.requestHash = some r →
        e.request payloadRequest ≠ some r → ¬ Relied payloadRequest s r
  | .supersedeArtifact _ k =>
    ∀ row r, s.tables.sets.find? k = some row → row.status = .ready → row.requestHash = some r →
      ¬ Relied payloadRequest s r
  | _ => True

end

/-! ## The invariant -/

section

variable {artifactSetHash : ArtifactSetIdentity → String} {payloadRequest : String → Option String}

structure QueueInv (artifactSetHash : ArtifactSetIdentity → String)
    (payloadRequest : String → Option String) (s : ExportState) : Prop where
  /-- A job is keyed by the request of its payload, and so is what was claimed of it. -/
  jobs : ∀ k job, s.jobs.find? k = some job →
    ∃ r, k = exportJobKey r ∧ payloadRequest job.payloadJson = some r
  executions : ∀ (i : Nat) (e : Execution), s.executions[i]? = some e →
    ∃ r, e.lease.workKey = exportJobKey r ∧ e.request payloadRequest = some r
  publications : ∀ (i : Nat) (e : Execution) p phase, s.executions[i]? = some e →
    e.progress = .publishing p phase → phase ≠ .finished ∧
    ∃ (o : ExportOutput) (r : String), e.request payloadRequest = some r ∧
      p = o.publication artifactSetHash r e.lease.workKey
  /-- The hash of a set covers its request. -/
  rows : ∀ k row, s.tables.sets.find? k = some row →
    ∃ identity, k = artifactSetHash identity ∧ row.requestHash = identity.requestHash
  opened : ∀ (i : Nat) (e : Execution) p phase, s.executions[i]? = some e →
    e.progress = .publishing p phase → phase.Open →
    ∃ row, s.tables.sets.find? p.key = some row ∧ row.status ≠ .ready
  marked : ∀ (i : Nat) (e : Execution) p, s.executions[i]? = some e →
    e.progress = .publishing p .superseding →
    ∃ row, s.tables.sets.find? p.key = some row ∧ row.status = .ready
  alone : ∀ (i j : Nat) (e e' : Execution), s.executions[i]? = some e →
    s.executions[j]? = some e' → e.request payloadRequest = e'.request payloadRequest →
    e.progress.Holds → e'.progress.Holds → i = j
  relied : ∀ r, Relied payloadRequest s r → HasReady s.tables r

theorem QueueInv.readyHasArtifact {s : ExportState} (h : QueueInv artifactSetHash payloadRequest s) :
    ReadyHasArtifact s :=
  fun r job hjob hst => h.relied r (.inl ⟨job, hjob, hst⟩)

/-- The row of a publication's set carries the request of its execution. -/
theorem QueueInv.row_request {s : ExportState} (hinj : Function.Injective artifactSetHash)
    (h : QueueInv artifactSetHash payloadRequest s) {i : Nat} {e : Execution} {p : Publication}
    {phase : Phase} {r : String} {row : ArtifactSet} (he : s.executions[i]? = some e)
    (hprog : e.progress = .publishing p phase) (hreq : e.request payloadRequest = some r)
    (hrow : s.tables.sets.find? p.key = some row) : row.requestHash = some r := by
  obtain ⟨-, o, r', hreq', hpub⟩ := h.publications i e p phase he hprog
  obtain ⟨identity, hid, hr⟩ := h.rows _ row hrow
  have hkey : artifactSetHash (o.identity r') = artifactSetHash identity := by
    rw [← hid, hpub]; rfl
  rw [hr, ← hinj hkey, ← hreq, hreq']; rfl

theorem inv_empty : QueueInv artifactSetHash payloadRequest .empty where
  jobs k job h := by cases h
  executions i e h := by simp [ExportState.empty] at h
  publications i e p phase h := by simp [ExportState.empty] at h
  rows k row h := by cases h
  opened i e p phase h := by simp [ExportState.empty] at h
  marked i e p h := by simp [ExportState.empty] at h
  alone i j e e' h := by simp [ExportState.empty] at h
  relied r h := by
    rcases h with ⟨job, h, -⟩ | ⟨i, e, h, -⟩
    · cases h
    · simp [ExportState.empty] at h

/-! ## Operations that leave the artifacts alone -/

/-- An execution whose set, if it relies on one, is ready, and that has none open. -/
structure Fresh (artifactSetHash : ArtifactSetIdentity → String)
    (payloadRequest : String → Option String) (t : ArtifactTables) (e : Execution) : Prop where
  keyed : ∃ r, e.lease.workKey = exportJobKey r ∧ e.request payloadRequest = some r
  idle : ¬ e.progress.Holds
  publication : ∀ p phase, e.progress = .publishing p phase → phase ≠ .finished ∧
    ∃ (o : ExportOutput) (r : String), e.request payloadRequest = some r ∧
      p = o.publication artifactSetHash r e.lease.workKey
  ready : ∀ r, e.request payloadRequest = some r → e.progress.Relies → HasReady t r

theorem Fresh.of_neither {t : ArtifactTables} {e : Execution}
    (hkeyed : ∃ r, e.lease.workKey = exportJobKey r ∧ e.request payloadRequest = some r)
    (hpub : ∀ p phase, e.progress ≠ .publishing p phase) (hsucc : e.progress ≠ .succeeded) :
    Fresh artifactSetHash payloadRequest t e where
  keyed := hkeyed
  idle := by rintro ⟨p, phase, h, -⟩; exact hpub p phase h
  publication p phase h := absurd h (hpub p phase)
  ready r _ h := by
    rcases h with ⟨p, h⟩ | h
    · exact absurd h (hpub p _)
    · exact absurd h hsucc

theorem QueueInv.quiet {s s' : ExportState} (h : QueueInv artifactSetHash payloadRequest s)
    (htab : s'.tables = s.tables)
    (hjobs : ∀ k job, s'.jobs.find? k = some job →
      ∃ r, k = exportJobKey r ∧ payloadRequest job.payloadJson = some r)
    (hready : ∀ r job, s'.jobs.find? (exportJobKey r) = some job → job.status = .ready →
      Relied payloadRequest s r)
    (hexec : ∀ (i : Nat) (e : Execution), s'.executions[i]? = some e →
      s.executions[i]? = some e ∨ Fresh artifactSetHash payloadRequest s.tables e) :
    QueueInv artifactSetHash payloadRequest s' where
  jobs := hjobs
  executions i e he := by
    rcases hexec i e he with he | hf
    · exact h.executions i e he
    · exact hf.keyed
  publications i e p phase he hp := by
    rcases hexec i e he with he | hf
    · exact h.publications i e p phase he hp
    · exact hf.publication p phase hp
  rows := by rw [htab]; exact h.rows
  opened i e p phase he hp ho := by
    rw [htab]
    rcases hexec i e he with he | hf
    · exact h.opened i e p phase he hp ho
    · exact absurd ⟨p, phase, hp, .inl ho⟩ hf.idle
  marked i e p he hp := by
    rw [htab]
    rcases hexec i e he with he | hf
    · exact h.marked i e p he hp
    · exact absurd ⟨p, _, hp, .inr rfl⟩ hf.idle
  alone i j e e' he he' hreq ho ho' := by
    rcases hexec i e he with he | hf
    · rcases hexec j e' he' with he' | hf'
      · exact h.alone i j e e' he he' hreq ho ho'
      · exact absurd ho' hf'.idle
    · exact absurd ho hf.idle
  relied r hr := by
    rw [htab]
    rcases hr with ⟨job, hjob, hst⟩ | ⟨i, e, he, hreq, hrel⟩
    · exact h.relied r (hready r job hjob hst)
    · rcases hexec i e he with he | hf
      · exact h.relied r (.inr ⟨i, e, he, hreq, hrel⟩)
      · exact hf.ready r hreq hrel

/-- The statements of the queue, when an enqueue carries the request of its key. -/
theorem queueOp_inv {s : ExportState} (h : QueueInv artifactSetHash payloadRequest s)
    (now : Timestamp) (op : QueueOp)
    (henq : ∀ k kind payload, op = .enqueue k kind payload ∨ op = .forceEnqueue k kind payload →
      ∃ r, k = exportJobKey r ∧ payloadRequest payload = some r) :
    QueueInv artifactSetHash payloadRequest { s with jobs := op.apply now s.jobs } := by
  refine h.quiet rfl (fun k job hjob => ?_) (fun r job hjob hst => ?_) fun i e he => .inl he
  · rcases QueueOp.find?_apply hjob with hjob | ⟨-, ⟨job', hjob', hp⟩ | ⟨kind, hk⟩⟩
    · exact h.jobs k job hjob
    · rw [hp]; exact h.jobs k job' hjob'
    · exact henq k kind _ hk
  · exact .inl ⟨job, QueueOp.find?_of_busy hjob (.inr hst), hst⟩

theorem claim_inv {s : ExportState} (h : QueueInv artifactSetHash payloadRequest s)
    (now : Timestamp) (tie : Nat) :
    QueueInv artifactSetHash payloadRequest
      (step artifactSetHash payloadRequest s (.claim now tie)) := by
  cases hn : nextJob now tie s.jobs with
  | none => simp only [step, claimNextJob_none leaseSeconds hn]; exact h
  | some row =>
    have hfst := claimNextJob_fst leaseSeconds hn
    obtain ⟨hrow, -⟩ := nextJob_mem hn
    obtain ⟨r, hr, hpay⟩ := h.jobs _ row hrow
    have hstep : step artifactSetHash payloadRequest s (.claim now tie) =
        { s with jobs := (claimNextJob now leaseSeconds tie s.jobs).2,
                 executions := s.executions ++
                   [⟨(claimed now leaseSeconds row).lease, .claimed⟩] } := by
      simp only [step]
      split <;> rename_i heq <;> rw [heq] at hfst <;> cases hfst
      rw [heq]
    rw [hstep]
    refine h.quiet rfl (fun k job hjob => ?_) (fun q job hjob hst => ?_) fun i e he => ?_
    · rw [find?_claimNextJob leaseSeconds hn] at hjob
      split at hjob
      · rename_i hk
        cases hjob
        exact ⟨r, hk.trans hr, hpay⟩
      · exact h.jobs k job hjob
    · rw [find?_claimNextJob leaseSeconds hn] at hjob
      split at hjob
      · cases hjob; cases hst
      · exact .inl ⟨job, hjob, hst⟩
    · rw [List.getElem?_append] at he
      split at he
      · exact .inl he
      · rw [List.getElem?_singleton] at he
        split at he
        · cases he
          exact .inr (.of_neither ⟨r, hr, hpay⟩ (fun p phase hp => by cases hp)
            (fun hp => by cases hp))
        · cases he

/-! ## A statement of a publication -/

theorem getElem?_set_some {α : Type} {l : List α} {i j : Nat} {x y : α}
    (h : (l.set i x)[j]? = some y) : (j = i ∧ y = x) ∨ (j ≠ i ∧ l[j]? = some y) := by
  rw [List.getElem?_set] at h
  split at h
  · rename_i hi
    split at h
    · cases h; exact .inl ⟨hi.symm, rfl⟩
    · cases h
  · rename_i hi; exact .inr ⟨fun he => hi he.symm, h⟩

theorem afterPublish_publishing {p q : Publication} {phase phase' : Phase}
    (h : afterPublish p phase = .publishing q phase') :
    q = p ∧ phase = phase' ∧ phase' ≠ .finished := by
  cases phase <;> cases h <;> exact ⟨rfl, rfl, by simp⟩

theorem afterPublish_relies {p : Publication} {phase : Phase}
    (h : (afterPublish p phase).Relies) : phase = .superseding ∨ phase = .finished := by
  rcases h with ⟨q, h⟩ | h
  · exact .inl (afterPublish_publishing h).2.1
  · cases phase <;> cases h
    exact .inr rfl

theorem afterPublish_holds {p : Publication} {phase : Phase}
    (h : (afterPublish p phase).Holds) : phase.Open ∨ phase = .superseding := by
  obtain ⟨q, phase', h, ho⟩ := h
  rw [(afterPublish_publishing h).2.1]; exact ho

/-- What a statement can do to the ready sets of its own request and of the others. -/
theorem publish_inv {s : ExportState} (hinj : Function.Injective artifactSetHash)
    (h : QueueInv artifactSetHash payloadRequest s) {i : Nat} {e : Execution} {now : Timestamp}
    {p : Publication} {phase phase' : Phase} {stmt : Stmt} {t' : ArtifactTables}
    (he : s.executions[i]? = some e) (hprog : e.progress = .publishing p phase)
    (ha : Allowed payloadRequest s (.execution i (.publish now stmt)))
    (hp : Publishes now p s.tables phase stmt phase' t') :
    QueueInv artifactSetHash payloadRequest
      ⟨s.jobs, t', s.executions.set i ⟨e.lease, afterPublish p phase'⟩⟩ := by
  obtain ⟨hunfin, o, r, hreq, hpub⟩ := h.publications i e p phase he hprog
  have hkey : p.key = artifactSetHash (o.identity r) := by rw [hpub]; rfl
  have hpr : p.artifact.requestHash = some r := by rw [hpub]; rfl
  have hrow : ∀ row, s.tables.sets.find? p.key = some row → row.requestHash = some r :=
    fun row hrow => h.row_request hinj he hprog hreq hrow
  have hstage : Stages phase phase' →
      (∀ job, s.jobs.find? (exportJobKey r) = some job → job.status ≠ .ready) ∧
        ∀ (j : Nat) (e' : Execution), j ≠ i → s.executions[j]? = some e' →
          e'.request payloadRequest = some r → ¬ e'.progress.Holds ∧ ¬ e'.progress.Relies := by
    intro hs
    have hst := hp.stmt_of_stages hs
    subst hst
    rw [hs.1] at hprog
    exact ha e p r he hprog hreq
  have hreplace : phase = .superseding → stmt = .supersede → ∀ k row q,
      s.tables.sets.find? k = some row → replacedBy p.artifact.outputKey p.key row = true →
      row.requestHash = some q → q ≠ r → ¬ Relied payloadRequest s q := by
    intro hph hst k row q hk hrep hrq hne
    subst hst
    rw [hph] at hprog
    exact ha e p he hprog k row q hk hrep hrq fun heq => hne (by rw [hreq] at heq; cases heq; rfl)
  have hholds : phase.Open ∨ phase = .superseding → e.progress.Holds := fun ho =>
    ⟨p, phase, hprog, ho⟩
  -- another execution with a set open or marked: either it is of another request, or this
  -- statement changes nothing
  have hother : ∀ (j : Nat) (e' : Execution), j ≠ i → s.executions[j]? = some e' →
      e'.progress.Holds → t' = s.tables ∨ e'.request payloadRequest ≠ some r := by
    intro j e' hj he' ho
    by_cases hr : e'.request payloadRequest = some r
    · left
      have hidle : ¬ (phase.Open ∨ phase = .superseding) := fun hx =>
        hj (h.alone j i e' e he' he (hr.trans hreq.symm) ho (hholds hx))
      refine hp.tables_eq_of_idle (fun hx => hidle (.inl hx)) (fun hx => hidle (.inr hx))
        fun hs => ?_
      exact ((hstage hs).2 j e' hj he' hr).1 ho
    · exact .inr hr
  have hkeyne : ∀ (j : Nat) (e' : Execution) p' ph, s.executions[j]? = some e' →
      e'.progress = .publishing p' ph → e'.request payloadRequest ≠ some r → p'.key ≠ p.key := by
    intro j e' p' ph he' hprog' hr heq
    obtain ⟨-, o', r', hreq', hpub'⟩ := h.publications j e' p' ph he' hprog'
    have hid : artifactSetHash (o'.identity r') = artifactSetHash (o.identity r) := by
      rw [← hkey, ← heq, hpub']; rfl
    have := congrArg ArtifactSetIdentity.requestHash (hinj hid)
    exact hr (hreq'.trans this)
  have hnew : (afterPublish p phase').Holds → e.progress.Holds ∨ Stages phase phase' := by
    intro ho
    rcases afterPublish_holds ho with ho | rfl
    · exact (hp.open_of_open ho).imp (fun ho => hholds (.inl ho)) id
    · cases hp with
      | marked => exact .inl (hholds (.inl (.inl ⟨_, rfl⟩)))
      | waits => exact .inl (hholds (.inr rfl))
  have hkeep : ∀ q, Relied payloadRequest s q → HasReady t' q := by
    intro q hq
    obtain ⟨k, row, hk, hrq, hst⟩ := h.relied q hq
    rcases hp.ready_stays hk hst with ⟨row', hr', hrq', hst'⟩ | ⟨rfl, hs | hfail⟩ | ⟨hph, hstm, hrep⟩
    · exact ⟨k, row', hr', hrq'.trans hrq, hst'⟩
    · -- nobody relies on the set that is staged
      have hqr : q = r := by rw [hrow row hk] at hrq; cases hrq; rfl
      subst hqr
      rcases hq with ⟨job, hjob, hjst⟩ | ⟨j, e', he', hreq', hrel⟩
      · exact absurd hjst ((hstage hs).1 job hjob)
      · by_cases hj : j = i
        · subst hj
          rw [he] at he'
          cases he'
          rw [hprog, hs.1] at hrel
          rcases hrel with ⟨_, hrel⟩ | hrel <;> cases hrel
        · exact absurd hrel ((hstage hs).2 j e' hj he' hreq').2
    · obtain ⟨row', hr', hst'⟩ := h.opened i e p phase he hprog (.inr hfail)
      rw [hk] at hr'
      cases hr'
      exact absurd hst hst'
    · by_cases hqr : q = r
      · -- the publication retains its own set
        subst hqr
        rw [hph] at hprog hp
        obtain ⟨own, hown, host⟩ := h.marked i e p he hprog
        have hkk : own.artifactSetHash = p.key := Table.find?_key hown
        rcases hp.ready_stays hown host with ⟨row', hr', hrq', hst'⟩ | ⟨-, hs | hs⟩ | ⟨-, -, hrep'⟩
        · exact ⟨_, row', hr', hrq'.trans (hrow own hown), hst'⟩
        · cases hs.1
        · cases hs
        · simp [replacedBy, hkk] at hrep'
      · exact absurd hq (hreplace hph hstm k row q hk hrep hrq hqr)
  refine ⟨h.jobs, fun j e' he' => ?_, fun j e' p' ph he' hpr' => ?_, fun k row hk => ?_,
    fun j e' p' ph he' hpr' ho => ?_, fun j e' p' he' hpr' => ?_,
    fun j k e1 e2 h1 h2 hreq12 ho1 ho2 => ?_, fun q hq => ?_⟩
  · rcases getElem?_set_some he' with ⟨-, rfl⟩ | ⟨-, he'⟩
    · exact h.executions i e he
    · exact h.executions j e' he'
  · rcases getElem?_set_some he' with ⟨-, rfl⟩ | ⟨-, he'⟩
    · obtain ⟨rfl, -, hne⟩ := afterPublish_publishing hpr'
      exact ⟨hne, o, r, hreq, hpub⟩
    · exact h.publications j e' p' ph he' hpr'
  · rcases hp.requestHash_eq hk with ⟨rfl, hr⟩ | ⟨row0, hrow0, hr⟩
    · exact ⟨o.identity r, hkey, by rw [hr, hpr]; rfl⟩
    · obtain ⟨identity, hid, hr0⟩ := h.rows k row0 hrow0
      exact ⟨identity, hid, hr.trans hr0⟩
  · rcases getElem?_set_some he' with ⟨-, rfl⟩ | ⟨hj, he'⟩
    · obtain ⟨rfl, rfl, -⟩ := afterPublish_publishing hpr'
      rcases hp.open_of_open ho with hopen | ⟨rfl, done, rfl⟩
      · rw [hp.tables_eq hopen ho]
        exact h.opened i e _ phase he hprog hopen
      · cases hp with
        | staged hs =>
          obtain ⟨-, hs⟩ := stageArtifact_ok hs
          exact ⟨stagedSet now p'.artifact, by rw [(stageArtifactInner_ok hs).1, if_pos rfl],
            by simp [stagedSet]⟩
    · obtain ⟨row, hrow', hst⟩ := h.opened j e' p' ph he' hpr' ho
      rcases hother j e' hj he' ⟨p', ph, hpr', .inl ho⟩ with ht | hr
      · rw [ht]; exact ⟨row, hrow', hst⟩
      · exact ⟨row, hp.row_eq (fun hk => absurd hk (hkeyne j e' p' ph he' hpr' hr)) hrow'
          (.inr hst), hst⟩
  · rcases getElem?_set_some he' with ⟨-, rfl⟩ | ⟨hj, he'⟩
    · obtain ⟨rfl, rfl, -⟩ := afterPublish_publishing hpr'
      cases hp with
      | marked =>
        obtain ⟨row, hrow', -⟩ := h.opened i e _ _ he hprog (.inl ⟨_, rfl⟩)
        exact ⟨readySet now p'.artifact.objectKey row,
          by rw [find?_markArtifactSetReady, if_pos rfl, hrow', Option.map_some], rfl⟩
      | waits => exact h.marked i e _ he hprog
    · obtain ⟨row, hrow', hst⟩ := h.marked j e' p' he' hpr'
      rcases hother j e' hj he' ⟨p', _, hpr', .inr rfl⟩ with ht | hr
      · rw [ht]; exact ⟨row, hrow', hst⟩
      · rcases hp.ready_stays hrow' hst with ⟨row', hr', -, hst'⟩ | ⟨hk, -⟩ | ⟨hph, hstm, hrep⟩
        · exact ⟨row', hr', hst'⟩
        · exact absurd hk (hkeyne j e' p' _ he' hpr' hr)
        · -- a request relied on is not replaced
          obtain ⟨-, o', r', hreq', -⟩ := h.publications j e' p' _ he' hpr'
          refine absurd ?_ (hreplace hph hstm _ row r' hrow' hrep
            (h.row_request hinj he' hpr' hreq' hrow') fun heq => hr (heq ▸ hreq'))
          exact .inr ⟨j, e', he', hreq', .inl ⟨p', hpr'⟩⟩
  · rcases getElem?_set_some h1 with ⟨rfl, rfl⟩ | ⟨hj, hj1⟩ <;>
      rcases getElem?_set_some h2 with ⟨rfl, rfl⟩ | ⟨hk, hk2⟩
    · rfl
    · have hr : e2.request payloadRequest = some r := hreq12.symm.trans hreq
      rcases hnew ho1 with ho | hs
      · exact h.alone j k e e2 he hk2 (hreq.trans hr.symm) ho ho2
      · exact absurd ho2 ((hstage hs).2 k e2 hk hk2 hr).1
    · have hr : e1.request payloadRequest = some r := hreq12.trans hreq
      rcases hnew ho2 with ho | hs
      · exact h.alone j k e1 e hj1 he (hr.trans hreq.symm) ho1 ho
      · exact absurd ho1 ((hstage hs).2 j e1 hj hj1 hr).1
    · exact h.alone j k e1 e2 hj1 hk2 hreq12 ho1 ho2
  · rcases hq with hjob | ⟨j, e', he', hreq', hrel⟩
    · exact hkeep q (.inl hjob)
    · rcases getElem?_set_some he' with ⟨rfl, rfl⟩ | ⟨-, he'⟩
      · have hqr : r = q := by
          have := hreq.symm.trans hreq'
          cases this; rfl
        subst hqr
        rcases afterPublish_relies hrel with rfl | rfl
        · cases hp with
          | marked =>
            obtain ⟨row, hrow', -⟩ := h.opened j e p _ he hprog (.inl ⟨_, rfl⟩)
            exact ⟨p.key, readySet now p.artifact.objectKey row,
              by rw [find?_markArtifactSetReady, if_pos rfl, hrow', Option.map_some],
              hrow row hrow', rfl⟩
          | waits => exact hkeep r (.inr ⟨j, e, he, hreq, .inl ⟨p, hprog⟩⟩)
        · cases hp with
          | superseded => exact hkeep r (.inr ⟨j, e, he, hreq, .inl ⟨p, hprog⟩⟩)
          | waits => exact absurd rfl hunfin
      · exact hkeep q (.inr ⟨j, e', he', hreq', hrel⟩)

/-! ## The other steps of an execution -/

theorem QueueInv.set_quiet {s : ExportState} (h : QueueInv artifactSetHash payloadRequest s)
    {i : Nat} {e' : Execution} {jobs : JobTable}
    (hjobs : ∀ k job, jobs.find? k = some job →
      ∃ r, k = exportJobKey r ∧ payloadRequest job.payloadJson = some r)
    (hready : ∀ r job, jobs.find? (exportJobKey r) = some job → job.status = .ready →
      Relied payloadRequest s r)
    (hfresh : Fresh artifactSetHash payloadRequest s.tables e') :
    QueueInv artifactSetHash payloadRequest ⟨jobs, s.tables, s.executions.set i e'⟩ := by
  refine h.quiet rfl hjobs hready fun j e hj => ?_
  rcases getElem?_set_some hj with ⟨-, rfl⟩ | ⟨-, hj⟩
  · exact .inr hfresh
  · exact .inl hj

/-- A call with the lease of an execution leaves a job ready that was ready before, or that the
execution finishes. -/
theorem leaseCall_jobs {s : ExportState} (h : QueueInv artifactSetHash payloadRequest s)
    (now : Timestamp) (c : LeaseCall) (workKey : String) (attempt : Nat) :
    (∀ k job, (c.apply now workKey attempt s.jobs).2.find? k = some job →
      ∃ r, k = exportJobKey r ∧ payloadRequest job.payloadJson = some r) ∧
    ∀ r job, (c.apply now workKey attempt s.jobs).2.find? (exportJobKey r) = some job →
      job.status = .ready →
      Relied payloadRequest s r ∨ exportJobKey r = workKey ∧ ∃ job', job = c.assign now job' := by
  constructor
  · intro k job hjob
    rw [LeaseCall.find?_apply, Option.map_eq_some_iff] at hjob
    obtain ⟨job', hjob', he⟩ := hjob
    obtain ⟨r, hr, hp⟩ := h.jobs k job' hjob'
    refine ⟨r, hr, ?_⟩
    split at he
    · subst he; rw [LeaseCall.assign_payloadJson]; exact hp
    · subst he; exact hp
  · intro r job hjob hst
    rw [LeaseCall.find?_apply, Option.map_eq_some_iff] at hjob
    obtain ⟨job', hjob', he⟩ := hjob
    split at he
    · rename_i hheld
      have hk : job'.workKey = exportJobKey r := Table.find?_key hjob'
      simp only [heldBy, Bool.and_eq_true, decide_eq_true_eq] at hheld
      exact .inr ⟨hk.symm.trans hheld.1.1, job', he.symm⟩
    · subst he; exact .inl (.inl ⟨job', hjob', hst⟩)

theorem execution_inv {s : ExportState} (hinj : Function.Injective artifactSetHash)
    (h : QueueInv artifactSetHash payloadRequest s) {i : Nat} {e : Execution} {op : ExecOp}
    (he : s.executions[i]? = some e) (ha : Allowed payloadRequest s (.execution i op)) :
    QueueInv artifactSetHash payloadRequest
      ⟨(execute artifactSetHash payloadRequest s.jobs s.tables e op).2.1,
        (execute artifactSetHash payloadRequest s.jobs s.tables e op).2.2,
        s.executions.set i
          ⟨e.lease, (execute artifactSetHash payloadRequest s.jobs s.tables e op).1⟩⟩ := by
  have hkeyed := h.executions i e he
  have hjob : ∀ r job, s.jobs.find? (exportJobKey r) = some job → job.status = .ready →
      Relied payloadRequest s r := fun r job hj hst => .inl ⟨job, hj, hst⟩
  have hplain : ∀ progress : Progress, (∀ p phase, progress ≠ .publishing p phase) →
      progress ≠ .succeeded →
      QueueInv artifactSetHash payloadRequest
        ⟨s.jobs, s.tables, s.executions.set i ⟨e.lease, progress⟩⟩ := fun progress hp hs =>
    h.set_quiet h.jobs hjob (.of_neither hkeyed hp hs)
  unfold execute
  split
  · -- the ready lookup
    unfold checked
    split
    · exact hplain .erred (fun _ _ hp => by cases hp) (fun hs => by cases hs)
    · rename_i r hr
      split
      · rename_i hready
        refine h.set_quiet h.jobs hjob ⟨hkeyed, ?_, fun p phase hp => (by cases hp), ?_⟩
        · rintro ⟨p, phase, hp, -⟩; cases hp
        · intro q hq _
          rw [show (⟨e.lease, Progress.succeeded⟩ : Execution).request payloadRequest = some r
            from hr] at hq
          cases hq
          exact latestReadyArtifactForRequest_isSome.mp hready
      · exact hplain .preparing (fun _ _ hp => by cases hp) (fun hs => by cases hs)
  · exact hplain .erred (fun _ _ hp => by cases hp) (fun hs => by cases hs)
  · exact hplain .erred (fun _ _ hp => by cases hp) (fun hs => by cases hs)
  · rename_i o _
    split
    · exact hplain .erred (fun _ _ hp => by cases hp) (fun hs => by cases hs)
    · rename_i r hr
      refine h.set_quiet h.jobs hjob ⟨hkeyed, ?_, fun p phase hp => ?_, ?_⟩
      · rintro ⟨p, phase, hp, ho | ho⟩
        · cases hp; rcases ho with ⟨_, ho⟩ | ho <;> cases ho
        · cases hp; cases ho
      · cases hp; exact ⟨by simp, o, r, hr, rfl⟩
      · rintro q - (⟨p, hp⟩ | hp) <;> cases hp
  · rename_i p phase now stmt hprog
    exact publish_inv hinj h he hprog ha (publish_spec now p s.tables phase stmt)
  · rename_i now hprog
    obtain ⟨hjobs, hready⟩ := leaseCall_jobs h now (.finish .ready none) e.lease.workKey
      e.lease.attempt
    refine h.set_quiet hjobs (fun r job hj hst => ?_)
      (.of_neither hkeyed (fun _ _ hp => by cases hp) fun hs => by cases hs)
    rcases hready r job hj hst with hrel | ⟨hk, -⟩
    · exact hrel
    · -- the execution that finishes the job relies on its request
      obtain ⟨r', hr', hreq⟩ := hkeyed
      have : r = r' := exportJobKey_injective (hk.trans hr')
      subst this
      exact .inr ⟨i, e, he, hreq, .inr hprog⟩
  · rename_i now summary delay hprog
    obtain ⟨hjobs, hready⟩ := leaseCall_jobs h now (.fail summary delay) e.lease.workKey
      e.lease.attempt
    refine h.set_quiet hjobs (fun r job hj hst => ?_)
      (.of_neither hkeyed (fun _ _ hp => by cases hp) fun hs => by cases hs)
    rcases hready r job hj hst with hrel | ⟨-, job', rfl⟩
    · exact hrel
    · simp only [LeaseCall.assign, failedJob] at hst
      split at hst <;> cases hst
  · exact hplain .gone (fun _ _ hp => by cases hp) (fun hs => by cases hs)
  · -- nothing to do: the execution stays as it is
    refine h.quiet rfl h.jobs hjob fun j e' hj => ?_
    rcases getElem?_set_some hj with ⟨rfl, rfl⟩ | ⟨-, hj⟩
    · exact .inl he
    · exact .inl hj

theorem supersedeArtifact_inv {s : ExportState} (hinj : Function.Injective artifactSetHash)
    (h : QueueInv artifactSetHash payloadRequest s) {now : Timestamp} {k : String}
    (ha : Allowed payloadRequest s (.supersedeArtifact now k)) :
    QueueInv artifactSetHash payloadRequest
      { s with tables := (supersedeArtifactSet now k none none s.tables).2 } := by
  -- a row stays as it is, or is superseded
  have hfind : ∀ k' row', (supersedeArtifactSet now k none none s.tables).2.sets.find? k' =
      some row' → ∃ row, s.tables.sets.find? k' = some row ∧ row'.requestHash = row.requestHash ∧
        (row' = row ∨ row'.status = .superseded) := by
    intro k' row' hr
    rw [find?_supersedeArtifactSet] at hr
    split at hr
    · obtain ⟨row, hrow, he⟩ := Option.map_eq_some_iff.mp hr
      refine ⟨row, hrow, ?_⟩
      split at he
      · subst he; exact ⟨rfl, .inr rfl⟩
      · subst he; exact ⟨rfl, .inl rfl⟩
    · exact ⟨row', hr, rfl, .inl rfl⟩
  have hkeep : ∀ r, Relied payloadRequest s r → ∀ k' row, s.tables.sets.find? k' = some row →
      row.requestHash = some r → row.status = .ready →
      (supersedeArtifactSet now k none none s.tables).2.sets.find? k' = some row := by
    intro r hrel k' row hrow hrq hst
    rw [find?_supersedeArtifactSet, if_neg]
    · exact hrow
    · rintro rfl; exact ha row r hrow hst hrq hrel
  refine ⟨h.jobs, h.executions, h.publications, fun k' row' hr => ?_,
    fun i e p phase he hp ho => ?_, fun i e p he hp => ?_, h.alone, fun r hr => ?_⟩
  · obtain ⟨row, hrow, hrq, -⟩ := hfind k' row' hr
    obtain ⟨identity, hid, hr0⟩ := h.rows k' row hrow
    exact ⟨identity, hid, hrq.trans hr0⟩
  · obtain ⟨row, hrow, hst⟩ := h.opened i e p phase he hp ho
    simp only [find?_supersedeArtifactSet, hrow, Option.map_some]
    split
    · refine ⟨_, rfl, ?_⟩
      split
      · simp [supersededSet]
      · exact hst
    · exact ⟨row, rfl, hst⟩
  · obtain ⟨row, hrow, hst⟩ := h.marked i e p he hp
    obtain ⟨-, o, r, hreq, -⟩ := h.publications i e p _ he hp
    exact ⟨row, hkeep r (.inr ⟨i, e, he, hreq, .inl ⟨p, hp⟩⟩) _ row hrow
      (h.row_request hinj he hp hreq hrow) hst, hst⟩
  · obtain ⟨k', row, hrow, hrq, hst⟩ := h.relied r hr
    exact ⟨k', row, hkeep r hr k' row hrow hrq hst, hrq, hst⟩

/-! ## Runs -/

theorem step_inv (hinj : Function.Injective artifactSetHash) (s : ExportState)
    (op : Op payloadRequest) (h : QueueInv artifactSetHash payloadRequest s)
    (ha : Allowed payloadRequest s op) :
    QueueInv artifactSetHash payloadRequest (step artifactSetHash payloadRequest s op) := by
  cases op with
  | enqueue now e =>
    refine queueOp_inv h now (.enqueue (exportJobKey e.requestHash) e.jobKind e.payloadJson)
      fun k kind payload hop => ?_
    rcases hop with hop | hop <;> cases hop
    exact ⟨e.requestHash, rfl, e.carries⟩
  | retry now scope =>
    refine queueOp_inv h now scope.toQueueOp fun k kind payload hop => ?_
    cases scope <;> rcases hop with hop | hop <;> cases hop
  | claim now tie => exact claim_inv h now tie
  | execution i op =>
    simp only [step]
    split
    · exact h
    · rename_i e he
      exact execution_inv hinj h he ha
  | supersedeArtifact now k => exact supersedeArtifact_inv hinj h ha
  | supersedeJob now k =>
    refine queueOp_inv h now (.supersedeReady k) fun k' kind payload hop => ?_
    rcases hop with hop | hop <;> cases hop

end

theorem always_noStuckExport (artifactSetHash : ArtifactSetIdentity → String)
    (payloadRequest : String → Option String) (hinj : Function.Injective artifactSetHash)
    (ops : List (Op payloadRequest))
    (h : Along (step artifactSetHash payloadRequest) (Allowed payloadRequest) .empty ops) :
    Always (step artifactSetHash payloadRequest) NoStuckExport .empty ops :=
  (always_of_step inv_empty (step_inv hinj) h).imp fun _ h =>
    noStuckExport_iff.mpr h.readyHasArtifact

/-! ## Two requests for one output -/

/-- A download job payload, and a reader of the two payloads below. -/
def downloadPayload (r : String) : String :=
  "\x7b\"kind\":\"download_export\",\"request_hash\":\"" ++ r ++ "\"\x7d"

def readDownloadPayload (payload : String) : Option String :=
  if payload = downloadPayload "r1" then some "r1"
  else if payload = downloadPayload "r2" then some "r2" else none

def downloadRequest1 : ExportRequest readDownloadPayload :=
  ⟨"r1", "download_export", downloadPayload "r1", by decide⟩

def downloadRequest2 : ExportRequest readDownloadPayload :=
  ⟨"r2", "download_export", downloadPayload "r2", by decide⟩

def stepOutput : ExportOutput :=
  ⟨"demo", "source", "config", "options", "step", "step", "raw", "post", "[]",
    ⟨"download", "demo-step.step", none, "model/step", 10, "sha"⟩, []⟩

/-- A request is enqueued and its job executed, as the execution at place `i`. -/
def exportRun (e : ExportRequest readDownloadPayload) (i : Nat) :
    List (Op readDownloadPayload) :=
  [.enqueue 0 e, .claim 1 0, .execution i .check, .execution i (.prepare stepOutput),
   .execution i (.publish 2 .stage), .execution i (.publish 3 (.upload true)),
   .execution i (.publish 4 .markReady), .execution i (.publish 5 .supersede),
   .execution i (.finish 6)]

theorem always_noStuckExport_one :
    Along (step joinArtifactSet readDownloadPayload) (Allowed readDownloadPayload) .empty
        (exportRun downloadRequest1 0) ∧
      Always (step joinArtifactSet readDownloadPayload) NoStuckExport .empty
        (exportRun downloadRequest1 0) := by
  have h : Along (step joinArtifactSet readDownloadPayload) (Allowed readDownloadPayload) .empty
      (exportRun downloadRequest1 0) := by
    refine ⟨trivial, trivial, trivial, trivial, fun e p r he hp hr => ⟨fun job hjob => ?_,
      fun j e' hj he' => ?_⟩, trivial, trivial, fun e p he hp k row r hrow hrep hrq hne => ?_,
      trivial, trivial⟩
    · have hrun : ∀ job ∈ (run (step joinArtifactSet readDownloadPayload) .empty
          ((exportRun downloadRequest1 0).take 4)).jobs.rows, job.status ≠ .ready := by decide
      exact hrun job (Table.find?_mem hjob)
    · have hlen : (run (step joinArtifactSet readDownloadPayload) .empty
          ((exportRun downloadRequest1 0).take 4)).executions.length = 1 := by decide
      have := (List.getElem?_eq_some_iff.mp he').1
      exact absurd (show j < 1 from hlen ▸ this) (by omega)
    · have hreq : ∀ e ∈ (run (step joinArtifactSet readDownloadPayload) .empty
          ((exportRun downloadRequest1 0).take 7)).executions,
          e.request readDownloadPayload = some "r1" := by decide
      have hrows : ∀ row ∈ (run (step joinArtifactSet readDownloadPayload) .empty
          ((exportRun downloadRequest1 0).take 7)).tables.sets.rows,
          row.requestHash = some "r1" := by decide
      have h1 := hreq e (List.mem_of_getElem? he)
      have h2 := hrows row (Table.find?_mem hrow)
      exact absurd (h1.trans (h2.symm.trans hrq)) hne
  exact ⟨h, always_noStuckExport _ _ joinArtifactSet_injective _ h⟩

theorem stuck_run : ¬ ∀ (artifactSetHash : ArtifactSetIdentity → String)
    (payloadRequest : String → Option String), Function.Injective artifactSetHash →
    ∀ ops : List (Op payloadRequest),
      Always (step artifactSetHash payloadRequest) NoStuckExport .empty ops := by
  intro h
  have hrun := noStuckExport_iff.mp (h joinArtifactSet readDownloadPayload
    joinArtifactSet_injective (exportRun downloadRequest1 0 ++ exportRun downloadRequest2 1)).last
  have hready : ((run (step joinArtifactSet readDownloadPayload) .empty
      (exportRun downloadRequest1 0 ++ exportRun downloadRequest2 1)).jobs.find?
        (exportJobKey "r1")).any (fun job => job.status = .ready) = true := by decide
  obtain ⟨job, hjob, hst⟩ := (Option.any_eq_true _ _).mp hready
  obtain ⟨k, row, hrow, hrq, hrst⟩ := hrun "r1" job hjob (by simpa using hst)
  have hnone : ∀ row ∈ (run (step joinArtifactSet readDownloadPayload) .empty
      (exportRun downloadRequest1 0 ++ exportRun downloadRequest2 1)).tables.sets.rows,
      row.requestHash = some "r1" → row.status ≠ .ready := by decide
  exact hnone row (Table.find?_mem hrow) hrq hrst

end ExportQueue
end OnshapeExport
