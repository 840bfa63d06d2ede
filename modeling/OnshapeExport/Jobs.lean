import OnshapeExport.Lib.Table

/-!
# Jobs

The `jobs` table of `db.rs` and its statements. Every statement takes the reading of the clock it
runs under (`now`); a timestamp is a number of milliseconds, which orders as the ISO text does.

* `enqueueJobInner`, `claimNextJob`, `supersedeReadyJob` and the `retryFailedJob` family drive the
  queue.
* `extendJobLease`, `finishJob` and `recordJobFailure` are the calls a worker makes with the
  work key and attempt number of its lease (`LeaseCall`).
-/

namespace OnshapeExport

open Relational

/-- `strftime('%Y-%m-%dT%H:%M:%fZ', …)`, in milliseconds. -/
abbrev Timestamp := Int

namespace Jobs

inductive JobStatus where
  | queued
  | running
  | ready
  | failed
  | superseded
deriving DecidableEq, Repr

/-- A row of `jobs`. `work_key` is `UNIQUE` and stands for the row id. -/
structure Job where
  workKey : String
  jobKind : String
  status : JobStatus
  payloadJson : String
  errorSummary : Option String
  attempt : Nat
  maxAttempts : Nat
  leaseUntil : Option Timestamp
  nextRetryAt : Option Timestamp
  createdAt : Timestamp
  updatedAt : Timestamp
deriving DecidableEq, Repr

instance : Schema Job String where
  key := Job.workKey
  clash a b := a.workKey = b.workKey
  clash_of_key h := h
  clash_symm h := h.symm

instance : DecidableRel (Schema.clash (α := Job)) := fun a b =>
  inferInstanceAs (Decidable (a.workKey = b.workKey))

abbrev JobTable := Table Job

/-- What `claim_next_job` returns of the row it took. -/
structure JobLease where
  workKey : String
  jobKind : String
  payloadJson : String
  attempt : Nat
  maxAttempts : Nat
deriving DecidableEq, Repr

/-- `strftime(…, 'now', '+' || ? || ' seconds')`: a negative number makes the modifier malformed
and the result `NULL`. -/
def secondsFrom (now : Timestamp) (seconds : Int) : Option Timestamp :=
  if 0 ≤ seconds then some (now + 1000 * seconds) else none

/-! ## The queue -/

/-- The assignments that put a row back to the start of the queue. -/
def requeued (now : Timestamp) (r : Job) : Job :=
  { r with status := .queued, errorSummary := none, attempt := 0, leaseUntil := none,
           nextRetryAt := none, updatedAt := now }

def newJob (now : Timestamp) (workKey jobKind payloadJson : String) : Job where
  workKey := workKey
  jobKind := jobKind
  status := .queued
  payloadJson := payloadJson
  errorSummary := none
  attempt := 0
  maxAttempts := 3
  leaseUntil := none
  nextRetryAt := none
  createdAt := now
  updatedAt := now

/-- The rows the `DO UPDATE` of an enqueue may take back. -/
def requeueable (workKey : String) (forceReady : Bool) (r : Job) : Bool :=
  r.workKey = workKey &&
    (r.status = .failed || r.status = .superseded || forceReady && r.status = .ready)

def enqueueJobInner (now : Timestamp) (workKey jobKind payloadJson : String) (forceReady : Bool)
    (t : JobTable) : Bool × JobTable :=
  match t.insert? (newJob now workKey jobKind payloadJson) with
  | some t' => (true, t')
  | none =>
    (t.affected (requeueable workKey forceReady) == 1,
     t.update (requeueable workKey forceReady)
       (fun r => { requeued now r with jobKind := jobKind, payloadJson := payloadJson })
       ⟨fun _ => rfl, fun _ _ => .rfl⟩)

def enqueueJob (now : Timestamp) (workKey jobKind payloadJson : String) (t : JobTable) :
    Bool × JobTable :=
  enqueueJobInner now workKey jobKind payloadJson false t

def forceEnqueueJob (now : Timestamp) (workKey jobKind payloadJson : String) (t : JobTable) :
    Bool × JobTable :=
  enqueueJobInner now workKey jobKind payloadJson true t

/-- The `WHERE` of `claim_next_job`; a `NULL` deadline is never past. -/
def claimable (now : Timestamp) (r : Job) : Bool :=
  match r.status with
  | .queued => match r.nextRetryAt with
    | none => true
    | some at_ => at_ ≤ now
  | .running => match r.leaseUntil with
    | none => false
    | some until_ => until_ ≤ now
  | _ => false

/-- The `ORDER BY` of `claim_next_job`. -/
def claimOrder (r : Job) : Nat × Timestamp × Timestamp :=
  (if r.status = .queued then 0 else 1, r.nextRetryAt.getD r.createdAt, r.createdAt)

def claimsBefore (a b : Job) : Bool :=
  let x := claimOrder a
  let y := claimOrder b
  x.1 < y.1 || x.1 = y.1 && (x.2.1 < y.2.1 || x.2.1 = y.2.1 && x.2.2 < y.2.2)

/-- The rows `LIMIT 1` may return: more than one only when they tie in the `ORDER BY`. -/
def nextJobs (now : Timestamp) (t : JobTable) : List Job :=
  let candidates := t.rows.filter (claimable now)
  candidates.filter fun r => !candidates.any fun r' => claimsBefore r' r

def claimed (now : Timestamp) (leaseSeconds : Int) (r : Job) : Job :=
  { r with status := .running, attempt := r.attempt + 1, leaseUntil := secondsFrom now leaseSeconds,
           updatedAt := now }

def Job.lease (r : Job) : JobLease :=
  ⟨r.workKey, r.jobKind, r.payloadJson, r.attempt, r.maxAttempts⟩

/-- `tie` picks among the rows that tie, which SQLite leaves open. -/
def nextJob (now : Timestamp) (tie : Nat) (t : JobTable) : Option Job :=
  let next := nextJobs now t
  next[tie % next.length]?

def claimNextJob (now : Timestamp) (leaseSeconds : Int) (tie : Nat) (t : JobTable) :
    Option JobLease × JobTable :=
  match nextJob now tie t with
  | none => (none, t)
  | some r =>
    (some (claimed now leaseSeconds r).lease,
     t.update (fun r' => r'.workKey = r.workKey) (claimed now leaseSeconds)
       ⟨fun _ => rfl, fun _ _ => .rfl⟩)

def supersedeReadyJob (now : Timestamp) (workKey : String) (t : JobTable) : Bool × JobTable :=
  let p : Job → Bool := fun r => r.workKey = workKey && r.status = .ready
  (t.affected p == 1,
   t.update p (fun r => { r with status := .superseded, leaseUntil := none, nextRetryAt := none,
                                 updatedAt := now })
     ⟨fun _ => rfl, fun _ _ => .rfl⟩)

/-- The shared statement of the retries: failed rows that carry a payload. -/
def retryWhere (now : Timestamp) (p : Job → Bool) (t : JobTable) : Nat × JobTable :=
  let q : Job → Bool := fun r => p r && r.status = .failed && r.payloadJson ≠ "{}"
  (t.affected q, t.update q (requeued now) ⟨fun _ => rfl, fun _ _ => .rfl⟩)

def retryFailedJobs (now : Timestamp) (t : JobTable) : Nat × JobTable :=
  retryWhere now (fun _ => true) t

def retryFailedJob (now : Timestamp) (workKey : String) (t : JobTable) : Bool × JobTable :=
  let (n, t') := retryWhere now (fun r => r.workKey = workKey) t
  (n == 1, t')

def retryFailedJobsByKind (now : Timestamp) (jobKind : String) (t : JobTable) : Nat × JobTable :=
  retryWhere now (fun r => r.jobKind = jobKind) t

/-! ## Calls with a lease -/

/-- The `WHERE` shared by the calls a worker makes with its lease. -/
def heldBy (workKey : String) (attempt : Nat) (r : Job) : Bool :=
  r.workKey = workKey && r.attempt = attempt && r.status = .running

def extendedJob (now : Timestamp) (leaseSeconds : Int) (r : Job) : Job :=
  { r with leaseUntil := secondsFrom now leaseSeconds }

def extendJobLease (now : Timestamp) (workKey : String) (attempt : Nat) (leaseSeconds : Int)
    (t : JobTable) : Bool × JobTable :=
  (t.affected (heldBy workKey attempt) == 1,
   t.update (heldBy workKey attempt) (extendedJob now leaseSeconds)
     ⟨fun _ => rfl, fun _ _ => .rfl⟩)

def finishedJob (now : Timestamp) (status : JobStatus) (errorSummary : Option String) (r : Job) :
    Job :=
  { r with status := status, errorSummary := errorSummary, leaseUntil := none,
           nextRetryAt := none, updatedAt := now }

def finishJob (now : Timestamp) (workKey : String) (attempt : Nat) (status : JobStatus)
    (errorSummary : Option String) (t : JobTable) : Bool × JobTable :=
  (t.affected (heldBy workKey attempt) == 1,
   t.update (heldBy workKey attempt) (finishedJob now status errorSummary)
     ⟨fun _ => rfl, fun _ _ => .rfl⟩)

def failedJob (now : Timestamp) (errorSummary : String) (retryDelaySeconds : Int) (r : Job) : Job :=
  { r with
    status := if r.maxAttempts ≤ r.attempt then .failed else .queued
    errorSummary := some errorSummary
    leaseUntil := none
    nextRetryAt :=
      if r.maxAttempts ≤ r.attempt then none else secondsFrom now (max retryDelaySeconds 0)
    updatedAt := now }

def recordJobFailure (now : Timestamp) (workKey : String) (attempt : Nat) (errorSummary : String)
    (retryDelaySeconds : Int) (t : JobTable) : Bool × JobTable :=
  (t.affected (heldBy workKey attempt) == 1,
   t.update (heldBy workKey attempt) (failedJob now errorSummary retryDelaySeconds)
     ⟨fun _ => rfl, fun _ _ => .rfl⟩)

/-- A call a worker makes with the work key and attempt of its lease. -/
inductive LeaseCall where
  | extend (leaseSeconds : Int)
  | finish (status : JobStatus) (errorSummary : Option String)
  | fail (errorSummary : String) (retryDelaySeconds : Int)
deriving DecidableEq, Repr

def LeaseCall.apply (now : Timestamp) (workKey : String) (attempt : Nat) :
    LeaseCall → JobTable → Bool × JobTable
  | .extend leaseSeconds => extendJobLease now workKey attempt leaseSeconds
  | .finish status summary => finishJob now workKey attempt status summary
  | .fail summary delay => recordJobFailure now workKey attempt summary delay

/-- What a call assigns to the row it holds. -/
def LeaseCall.assign (now : Timestamp) : LeaseCall → Job → Job
  | .extend leaseSeconds => extendedJob now leaseSeconds
  | .finish status summary => finishedJob now status summary
  | .fail summary delay => failedJob now summary delay

/-- The statements made without a lease, the claim apart. -/
inductive QueueOp where
  | enqueue (workKey jobKind payloadJson : String)
  | forceEnqueue (workKey jobKind payloadJson : String)
  | supersedeReady (workKey : String)
  | retryAll
  | retryOne (workKey : String)
  | retryKind (jobKind : String)
deriving DecidableEq, Repr

def QueueOp.apply (now : Timestamp) : QueueOp → JobTable → JobTable
  | .enqueue k kind payload, t => (enqueueJob now k kind payload t).2
  | .forceEnqueue k kind payload, t => (forceEnqueueJob now k kind payload t).2
  | .supersedeReady k, t => (supersedeReadyJob now k t).2
  | .retryAll, t => (retryFailedJobs now t).2
  | .retryOne k, t => (retryFailedJob now k t).2
  | .retryKind kind, t => (retryFailedJobsByKind now kind t).2

/-! ## What one statement does to one row -/

/-- An enqueue leaves a queued row, or the row it found. -/
theorem find?_enqueueJobInner (now : Timestamp) (k kind payload : String) (force : Bool)
    (t : JobTable) (k' : String) :
    (enqueueJobInner now k kind payload force t).2.find? k' =
      if k' = k then
        some (match t.find? k with
          | none => newJob now k kind payload
          | some r => if requeueable k force r
            then { requeued now r with jobKind := kind, payloadJson := payload } else r)
      else t.find? k' := by
  unfold enqueueJobInner
  cases hi : t.insert? (newJob now k kind payload) with
  | some t' =>
    have hnone : t.find? k = none := by
      rw [Table.find?_eq_none]
      exact fun r hr hk => (Table.insert?_eq_some hi).2 r hr hk
    simp only [Table.find?_of_insert? hi, hnone]
    by_cases hk : k' = k
    · subst hk; exact (if_pos rfl).trans (if_pos rfl).symm
    · rw [if_neg hk]
      exact if_neg fun h => hk h.symm
  | none =>
    obtain ⟨r, hr, hc⟩ := Table.insert?_eq_none.mp hi
    have hfind : t.find? k = some r := Table.find?_eq_some.mpr ⟨hr, hc⟩
    simp only [Table.find?_update]
    by_cases hk : k' = k
    · subst hk; simp only [hfind, Option.map_some, if_true]
    · rw [if_neg hk]
      cases h : t.find? k' with
      | none => rfl
      | some r' =>
        have hr' : r'.workKey = k' := Table.find?_key h
        simp [requeueable, hr', hk]

theorem find?_queueUpdate {t : JobTable} {p : Job → Bool} {f : Job → Job} {hf : Preserves f}
    {k : String} {r : Job} (h : (t.update p f hf).find? k = some r) :
    ∃ r', t.find? k = some r' ∧ (r = r' ∨ r = f r') := by
  rw [Table.find?_update, Option.map_eq_some_iff] at h
  obtain ⟨r', hr', he⟩ := h
  refine ⟨r', hr', ?_⟩
  split at he
  · exact .inr he.symm
  · exact .inl he.symm

/-- What a statement without a lease leaves in a row: the row it found, the row it found back at
the start of the queue or superseded, or an enqueued payload. -/
theorem QueueOp.find?_apply {now : Timestamp} {op : QueueOp} {t : JobTable} {k : String} {r : Job}
    (h : (op.apply now t).find? k = some r) :
    t.find? k = some r ∨
      (r.status = .queued ∨ r.status = .superseded) ∧
        ((∃ r', t.find? k = some r' ∧ r.payloadJson = r'.payloadJson) ∨
          ∃ kind, op = .enqueue k kind r.payloadJson ∨ op = .forceEnqueue k kind r.payloadJson) := by
  have hretry : ∀ {p : Job → Bool}, (retryWhere now p t).2.find? k = some r →
      t.find? k = some r ∨ (r.status = .queued ∨ r.status = .superseded) ∧
        ∃ r', t.find? k = some r' ∧ r.payloadJson = r'.payloadJson := by
    intro p hp
    simp only [retryWhere] at hp
    obtain ⟨r', hr', rfl | rfl⟩ := find?_queueUpdate hp
    · exact .inl hr'
    · exact .inr ⟨.inl rfl, r', hr', rfl⟩
  have henq : ∀ {k' kind payload : String} {force : Bool},
      (enqueueJobInner now k' kind payload force t).2.find? k = some r →
      t.find? k = some r ∨ r.status = .queued ∧ k = k' ∧ r.payloadJson = payload := by
    intro k' kind payload force he
    rw [find?_enqueueJobInner] at he
    split at he
    · rename_i hk
      subst hk
      cases hf : t.find? k with
      | none => rw [hf] at he; cases he; exact .inr ⟨rfl, rfl, rfl⟩
      | some r' =>
        rw [hf] at he
        simp only [Option.some.injEq] at he
        split at he
        · subst he; exact .inr ⟨rfl, rfl, rfl⟩
        · subst he; exact .inl rfl
    · exact .inl he
  cases op with
  | enqueue k' kind payload =>
    rcases henq h with h | ⟨hs, rfl, hp⟩
    · exact .inl h
    · exact .inr ⟨.inl hs, .inr ⟨kind, .inl (by rw [hp])⟩⟩
  | forceEnqueue k' kind payload =>
    rcases henq h with h | ⟨hs, rfl, hp⟩
    · exact .inl h
    · exact .inr ⟨.inl hs, .inr ⟨kind, .inr (by rw [hp])⟩⟩
  | supersedeReady k' =>
    simp only [QueueOp.apply, supersedeReadyJob] at h
    obtain ⟨r', hr', rfl | rfl⟩ := find?_queueUpdate h
    · exact .inl hr'
    · exact .inr ⟨.inr rfl, .inl ⟨r', hr', rfl⟩⟩
  | retryAll => exact (hretry h).imp id fun h => ⟨h.1, .inl h.2⟩
  | retryOne k' => exact (hretry h).imp id fun h => ⟨h.1, .inl h.2⟩
  | retryKind kind => exact (hretry h).imp id fun h => ⟨h.1, .inl h.2⟩

/-- A statement without a lease never leaves a row running or ready that it changed. -/
theorem QueueOp.find?_of_busy {now : Timestamp} {op : QueueOp} {t : JobTable} {k : String} {r : Job}
    (h : (op.apply now t).find? k = some r) (hr : r.status = .running ∨ r.status = .ready) :
    t.find? k = some r := by
  rcases QueueOp.find?_apply h with h | ⟨hs, -⟩
  · exact h
  · rcases hr with hr | hr <;> rw [hr] at hs <;> rcases hs with hs | hs <;> cases hs

/-- A call with a lease succeeds exactly when the row runs under that attempt number. -/
theorem LeaseCall.apply_eq_true {now : Timestamp} {c : LeaseCall} {k : String} {a : Nat}
    {t : JobTable} : (c.apply now k a t).1 = true ↔
      ∃ r, t.find? k = some r ∧ r.attempt = a ∧ r.status = .running := by
  have hp : ∀ r : Job, heldBy k a r = true → r.workKey = k := by
    intro r h; simp only [heldBy, Bool.and_eq_true, decide_eq_true_eq] at h; exact h.1.1
  have key : (t.affected (heldBy k a) == 1) = true ↔
      ∃ r, t.find? k = some r ∧ r.attempt = a ∧ r.status = .running := by
    rw [beq_iff_eq, Table.affected_eq_one hp]
    constructor
    · rintro ⟨r, hr, hh⟩
      simp only [heldBy, Bool.and_eq_true, decide_eq_true_eq] at hh
      exact ⟨r, hr, hh.1.2, hh.2⟩
    · rintro ⟨r, hr, ha, hs⟩
      have hk : r.workKey = k := Table.find?_key hr
      exact ⟨r, hr, by simp [heldBy, ha, hs, hk]⟩
  cases c <;> exact key

theorem LeaseCall.find?_apply (now : Timestamp) (c : LeaseCall) (k : String) (a : Nat)
    (t : JobTable) (k' : String) : (c.apply now k a t).2.find? k' =
      (t.find? k').map fun r => if heldBy k a r then c.assign now r else r := by
  cases c with
  | extend secs =>
    exact Table.find?_update (f := extendedJob now secs) ⟨fun _ => rfl, fun _ _ => .rfl⟩ k'
  | finish status summary =>
    exact Table.find?_update (f := finishedJob now status summary)
      ⟨fun _ => rfl, fun _ _ => .rfl⟩ k'
  | fail summary delay =>
    exact Table.find?_update (f := failedJob now summary delay) ⟨fun _ => rfl, fun _ _ => .rfl⟩ k'

@[simp] theorem LeaseCall.assign_attempt (now : Timestamp) (c : LeaseCall) (r : Job) :
    (c.assign now r).attempt = r.attempt := by cases c <;> rfl

@[simp] theorem LeaseCall.assign_payloadJson (now : Timestamp) (c : LeaseCall) (r : Job) :
    (c.assign now r).payloadJson = r.payloadJson := by cases c <;> rfl

/-- A call with a lease leaves a row running only under the attempt it ran under before. -/
theorem LeaseCall.running {now : Timestamp} {c : LeaseCall} {k : String} {a : Nat} {t : JobTable}
    {k' : String} {r : Job} (h : (c.apply now k a t).2.find? k' = some r)
    (hr : r.status = .running) :
    ∃ r', t.find? k' = some r' ∧ r'.status = .running ∧ r'.attempt = r.attempt := by
  rw [LeaseCall.find?_apply, Option.map_eq_some_iff] at h
  obtain ⟨r', hr', he⟩ := h
  refine ⟨r', hr', ?_⟩
  split at he
  · rename_i hh
    subst he
    simp only [heldBy, Bool.and_eq_true, decide_eq_true_eq] at hh
    exact ⟨hh.2, (LeaseCall.assign_attempt now c r').symm⟩
  · subst he; exact ⟨hr, rfl⟩

theorem nextJob_mem {now : Timestamp} {tie : Nat} {t : JobTable} {r : Job}
    (h : nextJob now tie t = some r) : t.find? r.workKey = some r ∧ claimable now r = true := by
  have hmem : r ∈ t.rows.filter (claimable now) :=
    (List.mem_filter.mp (List.mem_of_getElem? h)).1
  obtain ⟨hr, hc⟩ := List.mem_filter.mp hmem
  exact ⟨Table.find?_of_mem hr, hc⟩

theorem claimNextJob_none {now : Timestamp} (secs : Int) {tie : Nat} {t : JobTable}
    (h : nextJob now tie t = none) : claimNextJob now secs tie t = (none, t) := by
  rw [claimNextJob, h]

theorem claimNextJob_fst {now : Timestamp} (secs : Int) {tie : Nat} {t : JobTable} {r : Job}
    (h : nextJob now tie t = some r) :
    (claimNextJob now secs tie t).1 = some (claimed now secs r).lease := by
  rw [claimNextJob, h]

/-- A claim starts the next attempt of the row it takes and leaves every other row. -/
theorem find?_claimNextJob {now : Timestamp} (secs : Int) {tie : Nat} {t : JobTable} {r : Job}
    (h : nextJob now tie t = some r) (k : String) :
    (claimNextJob now secs tie t).2.find? k =
      if k = r.workKey then some (claimed now secs r) else t.find? k := by
  have hfind := (nextJob_mem h).1
  rw [claimNextJob, h]
  simp only [Table.find?_update]
  by_cases hk : k = r.workKey
  · subst hk; simp [hfind]
  · rw [if_neg hk]
    cases h' : t.find? k with
    | none => rfl
    | some r' =>
      have hr' : r'.workKey = k := Table.find?_key h'
      simp [hr', hk]

end Jobs
end OnshapeExport
