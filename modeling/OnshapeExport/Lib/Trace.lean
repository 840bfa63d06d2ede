import Mathlib.Data.List.Infix

/-!
# Lib.Trace

Runs of a machine given by a total step function `step : σ → ι → σ`, where an operation `ι` also
carries whatever the environment chose (clock readings, failures, who runs next). A run is a list
of operations, so a statement about every list of operations is one about every interleaving.

* `Always` — a property of every state a run passes through.
* `Along`  — a condition every operation of a run meets in the state it runs in.
* `always_of_step` — the invariant rule, under a condition on the operations.
* `run_rel` — what relates a state to every later one.
* `always_unchanged` — a record that only moves forward and ends where it was has not moved.
-/

namespace Trace

variable {σ ι : Type} (step : σ → ι → σ)

def run (s : σ) (ops : List ι) : σ := ops.foldl step s

/-- Every state the run passes through satisfies `Q`, the first and the last one included. -/
def Always (Q : σ → Prop) : σ → List ι → Prop
  | s, [] => Q s
  | s, op :: ops => Q s ∧ Always Q (step s op) ops

/-- Every operation of the run satisfies `P` in the state it runs in. -/
def Along (P : σ → ι → Prop) : σ → List ι → Prop
  | _, [] => True
  | s, op :: ops => P s op ∧ Along P (step s op) ops

variable {step} {P : σ → ι → Prop} {Q I : σ → Prop} {s : σ} {ops : List ι}

@[simp] theorem run_nil : run step s [] = s := rfl

@[simp] theorem run_cons (op : ι) : run step s (op :: ops) = run step (step s op) ops := rfl

theorem run_append (ops' : List ι) :
    run step s (ops ++ ops') = run step (run step s ops) ops' := by
  simp [run, List.foldl_append]

theorem Always.head (h : Always step Q s ops) : Q s := by
  cases ops with
  | nil => exact h
  | cons op ops => exact h.1

theorem Always.imp {Q' : σ → Prop} (hq : ∀ s, Q s → Q' s) (h : Always step Q s ops) :
    Always step Q' s ops := by
  induction ops generalizing s with
  | nil => exact hq _ h
  | cons op ops ih => exact ⟨hq _ h.1, ih h.2⟩

/-- `Always` read prefix by prefix. -/
theorem always_iff : Always step Q s ops ↔ ∀ pre, pre <+: ops → Q (run step s pre) := by
  induction ops generalizing s with
  | nil =>
    constructor
    · intro h pre hp
      rw [List.prefix_nil.mp hp]; exact h
    · intro h; exact h [] List.prefix_rfl
  | cons op ops ih =>
    constructor
    · rintro ⟨h0, h⟩ pre hp
      cases pre with
      | nil => exact h0
      | cons o pre =>
        obtain ⟨rfl, hp'⟩ := List.cons_prefix_cons.mp hp
        exact ih.mp h pre hp'
    · intro h
      refine ⟨h [] (List.nil_prefix), ih.mpr fun pre hp => ?_⟩
      exact h (op :: pre) (List.cons_prefix_cons.mpr ⟨rfl, hp⟩)

theorem Always.last (h : Always step Q s ops) : Q (run step s ops) :=
  always_iff.mp h ops List.prefix_rfl

theorem along_of_forall (h : ∀ s op, P s op) : Along step P s ops := by
  induction ops generalizing s with
  | nil => trivial
  | cons op ops ih => exact ⟨h s op, ih⟩

theorem along_true : Along step (fun _ _ => True) s ops := along_of_forall fun _ _ => trivial

theorem Along.imp {P' : σ → ι → Prop} (hp : ∀ s op, P s op → P' s op) (h : Along step P s ops) :
    Along step P' s ops := by
  induction ops generalizing s with
  | nil => trivial
  | cons op ops ih => exact ⟨hp s op h.1, ih h.2⟩

/-- A condition met along a run is met along every stretch of it. -/
theorem Along.of_append {ops' : List ι} (h : Along step P s (ops ++ ops')) :
    Along step P s ops ∧ Along step P (run step s ops) ops' := by
  induction ops generalizing s with
  | nil => exact ⟨trivial, h⟩
  | cons op ops ih => exact ⟨⟨h.1, (ih h.2).1⟩, (ih h.2).2⟩

/-- `Along` read operation by operation. -/
theorem along_iff : Along step P s ops ↔
    ∀ pre op post, ops = pre ++ op :: post → P (run step s pre) op := by
  constructor
  · rintro h pre op post rfl
    exact h.of_append.2.1
  · intro h
    induction ops generalizing s with
    | nil => trivial
    | cons op ops ih =>
      refine ⟨h [] op ops rfl, ih fun pre op' post he => ?_⟩
      exact h (op :: pre) op' post (by rw [he, List.cons_append])

/-- The invariant rule: what holds at the start and is kept by every operation that meets the
condition holds in every state of a run whose operations all meet it. -/
theorem always_of_step (h0 : I s) (hstep : ∀ s op, I s → P s op → I (step s op))
    (hp : Along step P s ops) : Always step I s ops := by
  induction ops generalizing s with
  | nil => exact h0
  | cons op ops ih => exact ⟨h0, ih (hstep s op h0 hp.1) hp.2⟩

/-- The invariant rule without a condition on the operations. -/
theorem run_inv (h0 : I s) (hstep : ∀ s op, I s → I (step s op)) (ops : List ι) :
    I (run step s ops) :=
  (always_of_step (P := fun _ _ => True) h0 (fun s op h _ => hstep s op h) along_true).last

/-- A reflexive and transitive relation kept by every step relates a state to every later one. -/
theorem run_rel {R : σ → σ → Prop} (hrefl : ∀ s, R s s)
    (htrans : ∀ {a b c}, R a b → R b c → R a c) (hstep : ∀ s op, R s (step s op)) (s : σ)
    (ops : List ι) : R s (run step s ops) := by
  induction ops generalizing s with
  | nil => exact hrefl s
  | cons op ops ih => exact htrans (hstep s op) (ih _)

/-- What holds at the end and not at the start became true at some step. -/
theorem exists_turning {Q : σ → Prop} (h0 : ¬ Q s) (h1 : Q (run step s ops)) :
    ∃ pre op post, ops = pre ++ op :: post ∧ ¬ Q (run step s pre) ∧
      Q (step (run step s pre) op) := by
  induction ops generalizing s with
  | nil => exact absurd h1 h0
  | cons op ops ih =>
    by_cases hq : Q (step s op)
    · exact ⟨[], op, ops, rfl, h0, hq⟩
    · obtain ⟨pre, op', post, rfl, hpre, hpost⟩ := ih hq h1
      exact ⟨op :: pre, op', post, rfl, hpre, hpost⟩

/-! ## Records that only move forward -/

section Forward

variable {α : Type} {f : σ → α} {lt : α → α → Prop}

theorem run_forward (htrans : ∀ {a b c}, lt a b → lt b c → lt a c)
    (hinv : ∀ s op, I s → I (step s op))
    (hstep : ∀ s op, I s → f (step s op) = f s ∨ lt (f s) (f (step s op))) (h0 : I s)
    (ops : List ι) : f (run step s ops) = f s ∨ lt (f s) (f (run step s ops)) := by
  induction ops generalizing s with
  | nil => exact .inl rfl
  | cons op ops ih =>
    have hlast := ih (hinv s op h0)
    rw [run_cons]
    rcases hstep s op h0 with h | h
    · rw [← h]; exact hlast
    · refine .inr ?_
      rcases hlast with h' | h'
      · rw [h']; exact h
      · exact htrans h h'

/-- A version number in the record makes a comparison with an old reading safe: the record cannot
have left that reading and come back to it. -/
theorem always_unchanged (hirr : ∀ a, ¬ lt a a) (htrans : ∀ {a b c}, lt a b → lt b c → lt a c)
    (hinv : ∀ s op, I s → I (step s op))
    (hstep : ∀ s op, I s → f (step s op) = f s ∨ lt (f s) (f (step s op))) (h0 : I s)
    (hend : f (run step s ops) = f s) : Always step (fun s' => f s' = f s) s ops := by
  induction ops generalizing s with
  | nil => exact rfl
  | cons op ops ih =>
    refine ⟨rfl, ?_⟩
    rw [run_cons] at hend
    have hlast : f (run step (step s op) ops) = f (step s op) ∨
        lt (f (step s op)) (f (run step (step s op) ops)) :=
      run_forward @htrans hinv hstep (hinv s op h0) ops
    have hop : f (step s op) = f s := by
      rcases hstep s op h0 with h | h
      · exact h
      · exfalso
        rcases hlast with h' | h'
        · rw [← h', hend] at h; exact hirr _ h
        · rw [hend] at h'; exact hirr _ (htrans h h')
    have := ih (hinv s op h0) (hend.trans hop.symm)
    rwa [hop] at this

end Forward

end Trace
