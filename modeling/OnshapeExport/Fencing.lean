import OnshapeExport.Jobs
import OnshapeExport.Lib.Trace

/-!
# Fencing

Any number of workers over the jobs table. `claims` logs every lease in the order it was handed
out; a worker names its lease by its place there and may go on calling with it until it lets go.

The attempt number is the fencing token, and `requeued` sets it back to zero, so a lease can come
to carry the number of a later run.

* `fenced_iff_noReissue` — a run is fenced exactly when no claim hands out again an attempt number
  that a worker still holds for that row.
* `stale_finish_run` — an expired worker finishes the run of another one.
-/

namespace OnshapeExport
namespace Fencing

open Relational Jobs Trace

/-- A lease and whether its worker may still call with it. -/
structure Held where
  lease : JobLease
  live : Bool
deriving DecidableEq, Repr

structure Workers where
  jobs : JobTable
  claims : List Held

def start (jobs : JobTable) : Workers := ⟨jobs, []⟩

inductive Op where
  | queue (now : Timestamp) (op : QueueOp)
  | claim (now : Timestamp) (leaseSeconds : Int) (tie : Nat)
  | call (now : Timestamp) (i : Nat) (c : LeaseCall)
  | letGo (i : Nat)
deriving DecidableEq, Repr

def step (s : Workers) : Op → Workers
  | .queue now op => { s with jobs := op.apply now s.jobs }
  | .claim now leaseSeconds tie =>
    match claimNextJob now leaseSeconds tie s.jobs with
    | (some lease, jobs) => ⟨jobs, s.claims ++ [⟨lease, true⟩]⟩
    | (none, jobs) => { s with jobs := jobs }
  | .call now i c =>
    match s.claims[i]? with
    | some ⟨lease, true⟩ =>
      { s with jobs := (c.apply now lease.workKey lease.attempt s.jobs).2 }
    | _ => s
  | .letGo i => { s with claims := s.claims.modify i fun h => { h with live := false } }

/-- The lease at place `i` is the last claim of its row. -/
def LastClaim (claims : List Held) (i : Nat) (lease : JobLease) : Prop :=
  ∀ j h, claims[j]? = some h → h.lease.workKey = lease.workKey → j ≤ i

/-- A call made with a lease succeeds only if the lease is the last claim of its row. -/
def Fenced (s : Workers) : Prop :=
  ∀ i lease, s.claims[i]? = some ⟨lease, true⟩ → ∀ now (c : LeaseCall),
    (c.apply now lease.workKey lease.attempt s.jobs).1 = true → LastClaim s.claims i lease

/-- The row a claim takes is not about to start an attempt that a held lease of it carries. -/
def NoReissue (s : Workers) : Op → Prop
  | .claim now _ tie =>
    ∀ r, nextJob now tie s.jobs = some r →
      ∀ h ∈ s.claims, h.live = true → h.lease.workKey = r.workKey →
        h.lease.attempt ≠ r.attempt + 1
  | _ => True

/-- The row of a lease runs under the attempt of the lease. -/
def Running (jobs : JobTable) (lease : JobLease) : Prop :=
  ∃ r, jobs.find? lease.workKey = some r ∧ r.attempt = lease.attempt ∧ r.status = .running

theorem fenced_iff {s : Workers} : Fenced s ↔
    ∀ i lease, s.claims[i]? = some ⟨lease, true⟩ → Running s.jobs lease →
      LastClaim s.claims i lease := by
  constructor
  · intro h i lease hi hr
    exact h i lease hi 0 (.extend 0) (LeaseCall.apply_eq_true.mpr hr)
  · intro h i lease hi now c hc
    exact h i lease hi (LeaseCall.apply_eq_true.mp hc)

theorem fenced_start (jobs : JobTable) : Fenced (start jobs) := by
  intro i lease hi
  simp [start] at hi

/-! ## One step -/

/-- What a successful claim does to the fleet: its row runs under the new lease, the other rows
are as before, and the lease is logged last. -/
theorem step_claim_some {s : Workers} {now : Timestamp} (secs : Int) {tie : Nat} {r : Job}
    (h : nextJob now tie s.jobs = some r) :
    (step s (.claim now secs tie)).claims = s.claims ++ [⟨(claimed now secs r).lease, true⟩] ∧
      Running (step s (.claim now secs tie)).jobs (claimed now secs r).lease ∧
      ∀ k, k ≠ r.workKey → (step s (.claim now secs tie)).jobs.find? k = s.jobs.find? k := by
  have hstep : step s (.claim now secs tie) =
      ⟨(claimNextJob now secs tie s.jobs).2,
        s.claims ++ [⟨(claimed now secs r).lease, true⟩]⟩ := by
    have hfst := claimNextJob_fst secs h
    simp only [step]
    split <;> rename_i heq <;> rw [heq] at hfst <;> cases hfst
    rw [heq]
  rw [hstep]
  refine ⟨rfl, ⟨claimed now secs r, ?_, rfl, rfl⟩, fun k hk => ?_⟩
  · exact (find?_claimNextJob secs h _).trans (if_pos rfl)
  · exact (find?_claimNextJob secs h k).trans (if_neg hk)

theorem step_claim_none {s : Workers} {now : Timestamp} {secs : Int} {tie : Nat}
    (h : nextJob now tie s.jobs = none) : step s (.claim now secs tie) = s := by
  simp only [step, claimNextJob_none secs h]

theorem fenced_of_running {s : Workers} {jobs : JobTable} (hs : Fenced s)
    (h : ∀ lease, Running jobs lease → Running s.jobs lease) : Fenced { s with jobs := jobs } := by
  rw [fenced_iff] at hs ⊢
  exact fun i lease hi hr => hs i lease hi (h lease hr)

theorem step_fenced (s : Workers) (op : Op) (hs : Fenced s) (hn : NoReissue s op) :
    Fenced (step s op) := by
  cases op with
  | queue now op =>
    refine fenced_of_running hs fun lease hr => ?_
    obtain ⟨r, hr, ha, hst⟩ := hr
    exact ⟨r, QueueOp.find?_of_busy hr (.inl hst), ha, hst⟩
  | call now i c =>
    simp only [step]
    split
    · refine fenced_of_running hs fun lease hr => ?_
      obtain ⟨r, hr, ha, hst⟩ := hr
      obtain ⟨r', hr', hst', ha'⟩ := LeaseCall.running hr hst
      exact ⟨r', hr', ha'.trans ha, hst'⟩
    · exact hs
  | letGo i =>
    rw [fenced_iff] at hs ⊢
    -- letting go changes no lease of the log
    have hget : ∀ (j : Nat) (h : Held), (s.claims.modify i fun h => { h with live := false })[j]? = some h →
        ∃ h', s.claims[j]? = some h' ∧ h'.lease = h.lease ∧ (h.live = true → h' = h) := by
      intro j h hj
      rw [List.getElem?_modify, Option.map_eq_map, Option.map_eq_some_iff] at hj
      obtain ⟨h', hj', he⟩ := hj
      refine ⟨h', hj', ?_, ?_⟩
      · split at he <;> subst he <;> rfl
      · intro hlive
        split at he
        · subst he; cases hlive
        · exact he
    intro j lease hj hr k h hk hkey
    obtain ⟨h', hj', -, he⟩ := hget j _ hj
    rw [he rfl] at hj'
    obtain ⟨h'', hk', hl, -⟩ := hget k _ hk
    exact hs j lease hj' hr k h'' hk' (by rw [hl]; exact hkey)
  | claim now secs tie =>
    cases hc : nextJob now tie s.jobs with
    | none => rw [step_claim_none hc]; exact hs
    | some row =>
      obtain ⟨hclaims, hnew, hother⟩ := step_claim_some secs hc
      rw [fenced_iff] at hs ⊢
      intro i lease hi hr j h hj hkey
      rw [hclaims] at hi hj
      have hjle : j ≤ s.claims.length := by
        have := (List.getElem?_eq_some_iff.mp hj).1
        simp at this; omega
      rw [List.getElem?_append] at hi
      split at hi
      · -- an earlier lease: it is of another row, since its attempt is not the new one
        have hmem := List.mem_of_getElem? hi
        by_cases hk : lease.workKey = row.workKey
        · obtain ⟨r, hr, ha, -⟩ := hr
          obtain ⟨r', hr', ha', -⟩ := hnew
          rw [hk] at hr
          cases hr'.symm.trans hr
          exact absurd (ha.symm.trans ha') (hn row hc _ hmem rfl hk)
        · have hr' : Running s.jobs lease := by
            obtain ⟨r, hr, ha, hst⟩ := hr
            exact ⟨r, by rw [← hother _ hk]; exact hr, ha, hst⟩
          rw [List.getElem?_append] at hj
          split at hj
          · exact hs i lease hi hr' j h hj hkey
          · rw [List.getElem?_singleton] at hj
            split at hj
            · cases hj; exact absurd hkey.symm hk
            · cases hj
      · omega

/-- A reissued attempt number lets the lease that carries it reach the new run. -/
theorem noReissue_of_fenced (s : Workers) (op : Op) (hs : Fenced (step s op)) :
    NoReissue s op := by
  cases op with
  | claim now secs tie =>
    intro row hc h hmem hlive hkey hatt
    obtain ⟨hclaims, hnew, -⟩ := step_claim_some secs hc
    obtain ⟨i, hi⟩ := List.mem_iff_getElem?.mp hmem
    have hlt : i < s.claims.length := (List.getElem?_eq_some_iff.mp hi).1
    have hi' : (step s (.claim now secs tie)).claims[i]? = some ⟨h.lease, true⟩ := by
      rw [hclaims, List.getElem?_append_left hlt, hi, ← hlive]
    have hrun : Running (step s (.claim now secs tie)).jobs h.lease := by
      obtain ⟨r, hr, ha, hst⟩ := hnew
      exact ⟨r, by rw [hkey]; exact hr, ha.trans hatt.symm, hst⟩
    have hlast := fenced_iff.mp hs i h.lease hi' hrun s.claims.length
      ⟨(claimed now secs row).lease, true⟩ (by rw [hclaims]; simp) hkey.symm
    omega
  | queue => trivial
  | call => trivial
  | letGo => trivial

/-! ## Runs -/

theorem fenced_iff_noReissue (jobs : JobTable) (ops : List Op) :
    Always step Fenced (start jobs) ops ↔ Along step NoReissue (start jobs) ops := by
  constructor
  · generalize start jobs = s
    intro h
    induction ops generalizing s with
    | nil => trivial
    | cons op ops ih => exact ⟨noReissue_of_fenced s op h.2.head, ih _ h.2⟩
  · exact always_of_step (fenced_start jobs) step_fenced

/-- The first worker's lease expires, the second worker takes over and finishes, the job is put
back by force and a third worker starts it: the first worker holds attempt 1 of the row again. -/
def staleRun : List Op :=
  [.queue 0 (.enqueue "work-v2:export:r" "export" "p"),
   .claim 0 900 0,
   .claim 1000000 900 0,
   .call 1000001 1 (.finish .ready none),
   .queue 1000002 (.forceEnqueue "work-v2:export:r" "export" "p"),
   .claim 1000003 900 0]

theorem stale_finish_run : ¬ ∀ (jobs : JobTable) (ops : List Op),
    Always step Fenced (start jobs) ops := by
  intro h
  have hs := (h .empty staleRun).last
  have hlast := hs 0 ⟨"work-v2:export:r", "export", "p", 1, 3⟩ (by decide) 1000004
    (.finish .ready none) (by decide) 2 ⟨⟨"work-v2:export:r", "export", "p", 1, 3⟩, true⟩
    (by decide) rfl
  omega

end Fencing
end OnshapeExport
