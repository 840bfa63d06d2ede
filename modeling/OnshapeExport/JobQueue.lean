import OnshapeExport.Jobs
import OnshapeExport.Lib.Trace

/-!
# JobQueue

The rows of `jobs` under any interleaving of the queue's statements. `finish_job` records `ready` or
`superseded`, and a lease length is not negative, as with every caller.

* `Becomes`, `step_row` — all that one statement can make of a row.
* `job_rows` — the shape of a row, and who may touch a running one.
* `attempts_bounded_iff` — attempts stay within `max_attempts` for as long as no lease of a last
  attempt runs out before a claim: a claim reads no bound.
-/

namespace OnshapeExport
namespace Jobs

open Relational Trace

/-- How a worker finishes a job. -/
inductive FinishStatus where
  | ready
  | superseded
deriving DecidableEq, Repr

def FinishStatus.status : FinishStatus → JobStatus
  | .ready => .ready
  | .superseded => .superseded

inductive Op where
  | queue (now : Timestamp) (op : QueueOp)
  | claim (now : Timestamp) (leaseSeconds : Nat) (tie : Nat)
  | extend (now : Timestamp) (workKey : String) (attempt leaseSeconds : Nat)
  | finish (now : Timestamp) (workKey : String) (attempt : Nat) (status : FinishStatus)
      (errorSummary : Option String)
  | fail (now : Timestamp) (workKey : String) (attempt : Nat) (errorSummary : String)
      (retryDelaySeconds : Int)
deriving DecidableEq, Repr

def step (t : JobTable) : Op → JobTable
  | .queue now op => op.apply now t
  | .claim now leaseSeconds tie => (claimNextJob now leaseSeconds tie t).2
  | .extend now k a leaseSeconds => (extendJobLease now k a leaseSeconds t).2
  | .finish now k a status summary => (finishJob now k a status.status summary t).2
  | .fail now k a summary delay => (recordJobFailure now k a summary delay t).2

/-- All that a statement can make of a row. -/
inductive Becomes : Op → Job → Job → Prop where
  | same {op : Op} {r : Job} : Becomes op r r
  | enqueued {now : Timestamp} {kind payload : String} {r : Job} :
      r.status = .failed ∨ r.status = .superseded →
      Becomes (.queue now (.enqueue r.workKey kind payload)) r
        { requeued now r with jobKind := kind, payloadJson := payload }
  | forced {now : Timestamp} {kind payload : String} {r : Job} :
      r.status = .failed ∨ r.status = .superseded ∨ r.status = .ready →
      Becomes (.queue now (.forceEnqueue r.workKey kind payload)) r
        { requeued now r with jobKind := kind, payloadJson := payload }
  | retried {now : Timestamp} {op : QueueOp} {r : Job} : r.status = .failed →
      op = .retryAll ∨ op = .retryOne r.workKey ∨ op = .retryKind r.jobKind →
      Becomes (.queue now op) r (requeued now r)
  | withdrawn {now : Timestamp} {r : Job} : r.status = .ready →
      Becomes (.queue now (.supersedeReady r.workKey)) r
        { r with status := .superseded, leaseUntil := none, nextRetryAt := none, updatedAt := now }
  | claimed {now : Timestamp} {secs tie : Nat} {r : Job} : claimable now r = true →
      Becomes (.claim now secs tie) r (claimed now secs r)
  | extended {now : Timestamp} {secs : Nat} {r : Job} : r.status = .running →
      Becomes (.extend now r.workKey r.attempt secs) r (extendedJob now secs r)
  | finished {now : Timestamp} {status : FinishStatus} {summary : Option String} {r : Job} :
      r.status = .running →
      Becomes (.finish now r.workKey r.attempt status summary) r
        (finishedJob now status.status summary r)
  | failed {now : Timestamp} {summary : String} {delay : Int} {r : Job} : r.status = .running →
      Becomes (.fail now r.workKey r.attempt summary delay) r (failedJob now summary delay r)

section Step

variable {t : JobTable} {op : Op} {k : String} {r : Job}

theorem enqueue_row (now : Timestamp) (k' kind payload : String) (force : Bool)
    (hr : t.find? k = some r) :
    ∃ r', (enqueueJobInner now k' kind payload force t).2.find? k = some r' ∧
      (r' = r ∨ k' = r.workKey ∧
        (r.status = .failed ∨ r.status = .superseded ∨ force = true ∧ r.status = .ready) ∧
        r' = { requeued now r with jobKind := kind, payloadJson := payload }) := by
  have hkey : r.workKey = k := Table.find?_key hr
  rw [find?_enqueueJobInner]
  by_cases hk : k = k'
  · subst hk
    simp only [if_true, hr]
    by_cases hq : requeueable k force r = true
    · refine ⟨_, rfl, .inr ⟨hkey.symm, ?_, by rw [if_pos hq]⟩⟩
      simp only [requeueable, Bool.and_eq_true, Bool.or_eq_true, decide_eq_true_eq] at hq
      obtain ⟨-, hq⟩ := hq
      tauto
    · exact ⟨_, rfl, .inl (if_neg hq)⟩
  · exact ⟨r, by rw [if_neg hk]; exact hr, .inl rfl⟩

theorem retry_row {now : Timestamp} {q : QueueOp} {p : Job → Bool} (hr : t.find? k = some r)
    (hp : p r = true → q = .retryAll ∨ q = .retryOne r.workKey ∨ q = .retryKind r.jobKind) :
    ∃ r', (retryWhere now p t).2.find? k = some r' ∧ Becomes (.queue now q) r r' := by
  simp only [retryWhere, Table.find?_update, hr, Option.map_some]
  refine ⟨_, rfl, ?_⟩
  split
  · rename_i hq
    simp only [Bool.and_eq_true, decide_eq_true_eq] at hq
    exact .retried hq.1.2 (hp hq.1.1)
  · exact .same

theorem lease_row {now : Timestamp} {k' : String} {a : Nat} {c : LeaseCall}
    (hr : t.find? k = some r)
    (hb : r.status = .running → r.workKey = k' → r.attempt = a → Becomes op r (c.assign now r)) :
    ∃ r', (c.apply now k' a t).2.find? k = some r' ∧ Becomes op r r' := by
  rw [LeaseCall.find?_apply, hr, Option.map_some]
  refine ⟨_, rfl, ?_⟩
  split
  · rename_i hh
    simp only [heldBy, Bool.and_eq_true, decide_eq_true_eq] at hh
    exact hb hh.2 hh.1.1 hh.1.2
  · exact .same

/-- No statement removes a row, and it becomes only what its guards let it become. -/
theorem step_row (op : Op) (hr : t.find? k = some r) :
    ∃ r', (step t op).find? k = some r' ∧ Becomes op r r' := by
  cases op with
  | queue now q =>
    cases q with
    | enqueue k' kind payload =>
      obtain ⟨r', hr', he⟩ := enqueue_row now k' kind payload false hr
      refine ⟨r', hr', ?_⟩
      rcases he with rfl | ⟨rfl, hst, rfl⟩
      · exact .same
      · exact .enqueued (by simpa using hst)
    | forceEnqueue k' kind payload =>
      obtain ⟨r', hr', he⟩ := enqueue_row now k' kind payload true hr
      refine ⟨r', hr', ?_⟩
      rcases he with rfl | ⟨rfl, hst, rfl⟩
      · exact .same
      · exact .forced (by simpa using hst)
    | supersedeReady k' =>
      simp only [step, QueueOp.apply, supersedeReadyJob, Table.find?_update, hr, Option.map_some]
      refine ⟨_, rfl, ?_⟩
      split
      · rename_i hq
        simp only [Bool.and_eq_true, decide_eq_true_eq] at hq
        obtain ⟨rfl, hst⟩ := hq
        exact .withdrawn hst
      · exact .same
    | retryAll => exact retry_row hr fun _ => .inl rfl
    | retryOne k' =>
      exact retry_row hr fun h => .inr (.inl (by rw [of_decide_eq_true h]))
    | retryKind kind =>
      exact retry_row hr fun h => .inr (.inr (by rw [of_decide_eq_true h]))
  | claim now secs tie =>
    cases hn : nextJob now tie t with
    | none => exact ⟨r, by rw [step, claimNextJob_none secs hn]; exact hr, .same⟩
    | some row =>
      obtain ⟨hrow, hc⟩ := nextJob_mem hn
      rw [step, find?_claimNextJob secs hn]
      by_cases hk : k = row.workKey
      · rw [hk, hrow] at hr
        cases hr
        exact ⟨_, if_pos hk, .claimed hc⟩
      · exact ⟨r, by rw [if_neg hk]; exact hr, .same⟩
  | extend now k' a secs =>
    refine lease_row (c := .extend secs) hr fun hst hk ha => ?_
    subst hk
    subst ha
    exact .extended hst
  | finish now k' a status summary =>
    refine lease_row (c := .finish status.status summary) hr fun hst hk ha => ?_
    subst hk
    subst ha
    exact .finished hst
  | fail now k' a summary delay =>
    refine lease_row (c := .fail summary delay) hr fun hst hk ha => ?_
    subst hk
    subst ha
    exact .failed hst

/-- A row that was not there is a fresh one. -/
theorem step_new (h : t.find? k = none) (hr : (step t op).find? k = some r) :
    ∃ now kind payload, r = newJob now k kind payload ∧
      (op = .queue now (.enqueue k kind payload) ∨ op = .queue now (.forceEnqueue k kind payload)) := by
  have henq : ∀ {now : Timestamp} {k' kind payload : String} {force : Bool},
      (enqueueJobInner now k' kind payload force t).2.find? k = some r →
      k = k' ∧ r = newJob now k kind payload := by
    intro now k' kind payload force he
    rw [find?_enqueueJobInner] at he
    split at he
    · rename_i hk
      subst hk
      rw [h] at he
      exact ⟨rfl, (Option.some.inj he).symm⟩
    · rw [h] at he; cases he
  have hcall : ∀ {now : Timestamp} {k' : String} {a : Nat} (c : LeaseCall),
      (c.apply now k' a t).2.find? k ≠ some r := by
    intro now k' a c
    rw [LeaseCall.find?_apply, h]
    simp
  have hretry : ∀ {now : Timestamp} {p : Job → Bool}, (retryWhere now p t).2.find? k ≠ some r := by
    intro now p
    simp [retryWhere, Table.find?_update, h]
  cases op with
  | queue now q =>
    cases q with
    | enqueue k' kind payload =>
      obtain ⟨rfl, rfl⟩ := henq hr
      exact ⟨now, kind, payload, rfl, .inl rfl⟩
    | forceEnqueue k' kind payload =>
      obtain ⟨rfl, rfl⟩ := henq hr
      exact ⟨now, kind, payload, rfl, .inr rfl⟩
    | supersedeReady k' =>
      simp [step, QueueOp.apply, supersedeReadyJob, Table.find?_update, h] at hr
    | retryAll => exact absurd hr hretry
    | retryOne k' => exact absurd hr hretry
    | retryKind kind => exact absurd hr hretry
  | claim now secs tie =>
    cases hn : nextJob now tie t with
    | none =>
      rw [step, claimNextJob_none secs hn, h] at hr
      cases hr
    | some row =>
      rw [step, find?_claimNextJob secs hn] at hr
      split at hr
      · rename_i hk
        rw [hk, (nextJob_mem hn).1] at h
        cases h
      · rw [h] at hr; cases hr
  | extend now k' a secs => exact absurd hr (hcall (.extend secs))
  | finish now k' a status summary => exact absurd hr (hcall (.finish status.status summary))
  | fail now k' a summary delay => exact absurd hr (hcall (.fail summary delay))

/-- What holds of fresh rows and of whatever a row becomes holds of every row after a step. -/
theorem step_rows {Q : Job → Prop} (hnew : ∀ now k kind payload, Q (newJob now k kind payload))
    (hrow : ∀ r r', t.find? r.workKey = some r → Becomes op r r' → Q r → Q r')
    (h : ∀ k r, t.find? k = some r → Q r) : ∀ k r, (step t op).find? k = some r → Q r := by
  intro k r hr
  cases hf : t.find? k with
  | none =>
    obtain ⟨now, kind, payload, rfl, -⟩ := step_new hf hr
    exact hnew now k kind payload
  | some r₀ =>
    obtain ⟨r', hr', hb⟩ := step_row op hf
    rw [hr] at hr'
    cases hr'
    have hkey : r₀.workKey = k := Table.find?_key hf
    exact hrow r₀ r (by rw [hkey]; exact hf) hb (h k r₀ hf)

end Step

/-! ## The shape of the rows -/

def Op.now : Op → Timestamp
  | .queue now _ => now
  | .claim now _ _ => now
  | .extend now _ _ _ => now
  | .finish now _ _ _ _ => now
  | .fail now _ _ _ _ => now

structure RowShape (r : Job) : Prop where
  lease : r.leaseUntil.isSome = true ↔ r.status = .running
  retry : r.nextRetryAt ≠ none → r.status = .queued ∨ r.status = .running

structure WellFormed (t : JobTable) : Prop where
  oneRow : (t.rows.map Job.workKey).Nodup
  shape : ∀ k r, t.find? k = some r → RowShape r

/-- The call ends the attempt the row runs under. -/
def Op.ends (r : Job) : Op → Prop
  | .finish _ k a _ _ => k = r.workKey ∧ a = r.attempt
  | .fail _ k a _ _ => k = r.workKey ∧ a = r.attempt
  | _ => False

/-- What a statement leaves to a running row: while its lease lasts, only the call that ends its
attempt changes what it is; no statement without a lease touches it at all. -/
structure Respects (t : JobTable) (op : Op) : Prop where
  held : ∀ k r, t.find? k = some r → r.status = .running →
    (∀ until_, r.leaseUntil = some until_ → op.now < until_) →
    op.ends r ∨ ∃ r', (step t op).find? k = some r' ∧ r'.status = r.status ∧
      r'.jobKind = r.jobKind ∧ r'.payloadJson = r.payloadJson
  undisturbed : ∀ now q, op = .queue now q → ∀ k r, t.find? k = some r → r.status = .running →
    (step t op).find? k = some r
  enqueue : ∀ now k' kind payload, op = .queue now (.enqueue k' kind payload) →
    ∀ k r, t.find? k = some r → r.status ≠ .failed → r.status ≠ .superseded →
      (step t op).find? k = some r

theorem shape_newJob (now : Timestamp) (k kind payload : String) :
    RowShape (newJob now k kind payload) := by
  constructor <;> simp [newJob]

theorem secondsFrom_natCast (now : Timestamp) (secs : Nat) :
    secondsFrom now secs = some (now + 1000 * secs) := by
  rw [secondsFrom, if_pos (Int.natCast_nonneg secs)]

theorem Becomes.shape {op : Op} {r r' : Job} (hb : Becomes op r r') (h : RowShape r) :
    RowShape r' := by
  cases hb with
  | same => exact h
  | enqueued => constructor <;> simp [requeued]
  | forced => constructor <;> simp [requeued]
  | retried => constructor <;> simp [requeued]
  | withdrawn => constructor <;> simp
  | claimed => constructor <;> simp [Jobs.claimed, secondsFrom_natCast]
  | extended hst => constructor <;> simp [extendedJob, secondsFrom_natCast, hst]
  | @finished _ status => constructor <;> cases status <;> simp [finishedJob, FinishStatus.status]
  | failed =>
    constructor
    · simp only [failedJob]
      split <;> simp
    · simp only [failedJob]
      split <;> simp

theorem wellFormed_step {t : JobTable} (op : Op) (h : WellFormed t) : WellFormed (step t op) where
  oneRow := List.pairwise_map.mpr (step t op).unique
  shape := step_rows shape_newJob (fun _ _ _ hb => hb.shape) h.shape

theorem wellFormed_empty : WellFormed (.empty : JobTable) where
  oneRow := List.nodup_nil
  shape k r hr := by simp at hr

/-- A statement without a lease leaves a running row alone. -/
theorem Becomes.of_running {now : Timestamp} {q : QueueOp} {r r' : Job}
    (hb : Becomes (.queue now q) r r') (hst : r.status = .running) : r' = r := by
  cases hb with
  | same => rfl
  | enqueued h => rcases h with h | h <;> rw [hst] at h <;> cases h
  | forced h => rcases h with h | h | h <;> rw [hst] at h <;> cases h
  | retried h => rw [hst] at h; cases h
  | withdrawn h => rw [hst] at h; cases h

theorem respects (t : JobTable) (op : Op) : Respects t op where
  held k r hr hst hlease := by
    obtain ⟨r', hr', hb⟩ := step_row op hr
    cases hb with
    | same => exact .inr ⟨r, hr', rfl, rfl, rfl⟩
    | enqueued h => rcases h with h | h <;> rw [hst] at h <;> cases h
    | forced h => rcases h with h | h | h <;> rw [hst] at h <;> cases h
    | retried h => rw [hst] at h; cases h
    | withdrawn h => rw [hst] at h; cases h
    | claimed h =>
      -- a claim takes a running row only once its lease is over
      simp only [claimable, hst] at h
      split at h
      · cases h
      · rename_i until_ hu
        have hlt := hlease until_ hu
        simp only [decide_eq_true_eq] at h
        exact absurd h (Int.not_le.mpr hlt)
    | extended => exact .inr ⟨_, hr', rfl, rfl, rfl⟩
    | finished => exact .inl ⟨rfl, rfl⟩
    | failed => exact .inl ⟨rfl, rfl⟩
  undisturbed now q hop k r hr hst := by
    subst hop
    obtain ⟨r', hr', hb⟩ := step_row (.queue now q) hr
    rw [hr', hb.of_running hst]
  enqueue now k' kind payload hop k r hr hf hs := by
    subst hop
    obtain ⟨r', hr', hb⟩ := step_row (.queue now (.enqueue k' kind payload)) hr
    cases hb with
    | same => exact hr'
    | enqueued h => exact absurd h (by simp [hf, hs])
    | retried _ h => rcases h with h | h | h <;> cases h

/-- The rows of `jobs` along any interleaving. -/
theorem job_rows (ops : List Op) :
    Always step WellFormed .empty ops ∧ Along step Respects .empty ops := by
  constructor
  · exact always_of_step (P := fun _ _ => True) wellFormed_empty (fun t op h _ => wellFormed_step op h)
      along_true
  · exact along_of_forall respects

/-! ## The attempt bound -/

def Bounded (t : JobTable) : Prop := ∀ k r, t.find? k = some r → r.attempt ≤ r.maxAttempts

/-- The lease of the row's last allowed attempt has run out. -/
def Exhausted (now : Timestamp) (r : Job) : Prop :=
  r.status = .running ∧ r.maxAttempts ≤ r.attempt ∧
    ∃ until_, r.leaseUntil = some until_ ∧ until_ ≤ now

/-- A claim makes an end of the rows whose last attempt is over. -/
def Retires (t : JobTable) : Op → Prop
  | .claim now secs tie => ∀ k r, t.find? k = some r → Exhausted now r →
    ∃ r', (step t (.claim now secs tie)).find? k = some r' ∧ r'.status = .failed
  | _ => True

/-- An enqueue or a retry that may put the row back to attempt zero. -/
def Op.restarts (k : String) : Op → Bool
  | .queue _ (.enqueue k' _ _) => k' = k
  | .queue _ (.forceEnqueue k' _ _) => k' = k
  | .queue _ .retryAll => true
  | .queue _ (.retryOne k') => k' = k
  | .queue _ (.retryKind _) => true
  | _ => false

/-- The statement hands out a lease of the row. -/
def handsOut (k : String) (t : JobTable) : Op → Bool
  | .claim now _ tie => (nextJob now tie t).any fun r => r.workKey = k
  | _ => false

/-- How often a run hands out a lease of the row. -/
def executions (k : String) : JobTable → List Op → Nat
  | _, [] => 0
  | t, op :: ops => (if handsOut k t op then 1 else 0) + executions k (step t op) ops

/-- Attempts stay within their bound: in every row, at every claim, and counted between two
enqueues or retries. -/
structure AttemptBound (ops : List Op) : Prop where
  bounded : Always step Bounded .empty ops
  retires : Along step Retires .empty ops
  executions : ∀ before during after k r, ops = before ++ during ++ after →
    (∀ op ∈ during, op.restarts k = false) →
    (run step .empty (before ++ during)).find? k = some r →
    executions k (run step .empty before) during ≤ r.maxAttempts

/-- No claim comes while the lease of a last attempt has run out. -/
def NoneExhausted (t : JobTable) : Op → Prop
  | .claim now _ _ => ∀ k r, t.find? k = some r → ¬ Exhausted now r
  | _ => True

/-- Attempts are left in a queued row. -/
structure AttemptsLeft (r : Job) : Prop where
  positive : 0 < r.maxAttempts
  bound : r.attempt ≤ r.maxAttempts
  queued : r.status = .queued → r.attempt < r.maxAttempts

theorem Becomes.attemptsLeft {t : JobTable} {op : Op} {r r' : Job} (hn : NoneExhausted t op)
    (hr : t.find? r.workKey = some r) (hb : Becomes op r r') (h : AttemptsLeft r) :
    AttemptsLeft r' := by
  obtain ⟨hpos, hbound, hqueued⟩ := h
  cases hb with
  | same => exact ⟨hpos, hbound, hqueued⟩
  | enqueued => exact ⟨hpos, Nat.zero_le _, fun _ => hpos⟩
  | forced => exact ⟨hpos, Nat.zero_le _, fun _ => hpos⟩
  | retried => exact ⟨hpos, Nat.zero_le _, fun _ => hpos⟩
  | withdrawn => exact ⟨hpos, hbound, fun h => by cases h⟩
  | @claimed now secs tie _ hc =>
    have hlt : r.attempt < r.maxAttempts := by
      unfold claimable at hc
      split at hc
      · rename_i hst
        exact hqueued hst
      · rename_i hst
        split at hc
        · cases hc
        · rename_i until_ hu
          by_contra hge
          exact hn _ r hr ⟨hst, by omega, until_, hu, of_decide_eq_true hc⟩
      · cases hc
    exact ⟨hpos, hlt, fun h => by cases h⟩
  | extended hst =>
    refine ⟨hpos, hbound, fun h => ?_⟩
    have : r.status = .queued := h
    rw [hst] at this
    cases this
  | @finished _ status =>
    refine ⟨hpos, hbound, fun h => ?_⟩
    cases status <;> cases h
  | failed =>
    refine ⟨hpos, hbound, fun h => ?_⟩
    simp only [failedJob] at h ⊢
    split at h
    · cases h
    · omega

def attemptOf (t : JobTable) (k : String) : Nat := (t.find? k).elim 0 Job.attempt

/-- Without an enqueue or a retry of the row, only a claim changes its attempt. -/
theorem attemptOf_of_noClaim {t : JobTable} {op : Op} {k : String} (h : op.restarts k = false)
    (hclaim : ∀ now secs tie, op ≠ .claim now secs tie) :
    attemptOf (step t op) k = attemptOf t k := by
  unfold attemptOf
  cases hf : t.find? k with
  | none =>
    cases hs : (step t op).find? k with
    | none => rfl
    | some r =>
      obtain ⟨now, kind, payload, rfl, -⟩ := step_new hf hs
      rfl
  | some r =>
    have hkey : r.workKey = k := Table.find?_key hf
    subst hkey
    obtain ⟨r', hr', hb⟩ := step_row op hf
    rw [hr']
    cases hb with
    | same => rfl
    | enqueued => simp [Op.restarts] at h
    | forced => simp [Op.restarts] at h
    | retried _ hop =>
      rcases hop with rfl | rfl | rfl <;> simp [Op.restarts] at h
    | withdrawn => rfl
    | claimed => exact absurd rfl (hclaim _ _ _)
    | extended => rfl
    | finished => rfl
    | failed => rfl

/-- Every lease handed out adds one to the attempt. -/
theorem attemptOf_step {t : JobTable} {op : Op} {k : String} (h : op.restarts k = false) :
    attemptOf (step t op) k = attemptOf t k + if handsOut k t op then 1 else 0 := by
  cases op with
  | claim now secs tie =>
    unfold attemptOf
    cases hn : nextJob now tie t with
    | none => simp [step, claimNextJob_none _ hn, handsOut, hn]
    | some row =>
      rw [step, find?_claimNextJob _ hn]
      simp only [handsOut, hn, Option.any_some]
      by_cases hk : k = row.workKey
      · subst hk
        simp [(nextJob_mem hn).1, claimed]
      · simp [hk, Ne.symm hk]
  | extend => simpa [handsOut] using attemptOf_of_noClaim h (by simp)
  | finish => simpa [handsOut] using attemptOf_of_noClaim h (by simp)
  | fail => simpa [handsOut] using attemptOf_of_noClaim h (by simp)
  | queue => simpa [handsOut] using attemptOf_of_noClaim h (by simp)

/-- Between two enqueues or retries the attempt counts the leases. -/
theorem attemptOf_run {t : JobTable} {ops : List Op} {k : String}
    (h : ∀ op ∈ ops, op.restarts k = false) :
    attemptOf (run step t ops) k = attemptOf t k + executions k t ops := by
  induction ops generalizing t with
  | nil => rfl
  | cons op ops ih =>
    rw [run_cons, ih fun o ho => h o (List.mem_cons_of_mem _ ho),
      attemptOf_step (h op List.mem_cons_self), executions, Nat.add_assoc]

theorem retires_of_noneExhausted {t : JobTable} {op : Op} (h : NoneExhausted t op) :
    Retires t op := by
  cases op with
  | claim now secs tie => exact fun k r hr he => absurd he (h k r hr)
  | queue => trivial
  | extend => trivial
  | finish => trivial
  | fail => trivial

/-- A claim hands a row out or leaves it, so it makes an end of none. -/
theorem noneExhausted_of_retires {t : JobTable} {op : Op} (h : Retires t op) :
    NoneExhausted t op := by
  cases op with
  | claim now secs tie =>
    intro k r hr he
    obtain ⟨r', hr', hfailed⟩ := h k r hr he
    obtain ⟨r'', hr'', hb⟩ := step_row (.claim now secs tie) hr
    rw [hr'] at hr''
    cases hr''
    cases hb with
    | same => rw [he.1] at hfailed; cases hfailed
    | claimed => cases hfailed
  | queue => trivial
  | extend => trivial
  | finish => trivial
  | fail => trivial

/-- The attempt bound holds of a run exactly when no claim of it comes while a last attempt's lease
has run out. -/
theorem attempts_bounded_iff (ops : List Op) :
    AttemptBound ops ↔ Along step NoneExhausted .empty ops := by
  constructor
  · intro h
    exact h.retires.imp fun _ _ => noneExhausted_of_retires
  · intro h
    have hleft : Always step (fun t => ∀ k r, t.find? k = some r → AttemptsLeft r) .empty ops := by
      refine always_of_step (P := NoneExhausted) ?_ ?_ h
      · intro k r hr
        simp at hr
      · intro t op hall hn
        refine step_rows ?_ (fun r r' hr hb => hb.attemptsLeft hn hr) hall
        intro now k kind payload
        constructor <;> simp [newJob]
    have hbounded : Always step Bounded .empty ops :=
      hleft.imp fun t ht k r hr => (ht k r hr).bound
    refine ⟨hbounded, h.imp fun _ _ => retires_of_noneExhausted, ?_⟩
    intro before during after k r hops hrestarts hr
    have hprefix : before ++ during <+: ops := ⟨after, hops.symm⟩
    have hle : r.attempt ≤ r.maxAttempts := always_iff.mp hbounded _ hprefix k r hr
    have hcount := attemptOf_run (t := run step .empty before) hrestarts
    rw [← run_append] at hcount
    have hattempt : attemptOf (run step .empty (before ++ during)) k = r.attempt := by
      simp [attemptOf, hr]
    omega

/-- A worker that crashes on every attempt: each lease runs out and is handed out again. -/
def crashingRun : List Op :=
  [.queue 0 (.enqueue "k" "export" "p"), .claim 0 900 0, .claim 1000000 900 0, .claim 2000000 900 0,
   .claim 3000000 900 0]

theorem fourth_attempt_run : ¬ ∀ ops, AttemptBound ops := by
  intro h
  have hbound := (h crashingRun).bounded.last "k"
    ⟨"k", "export", .running, "p", none, 4, 3, some 3900000, none, 0, 3000000⟩ (by decide)
  simp at hbound

end Jobs
end OnshapeExport
