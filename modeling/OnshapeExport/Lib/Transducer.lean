import Mathlib.Data.List.Basic

/-!
# Lib.Transducer

A machine that reads symbols one after the other and writes some for each: the writing is what it
was before, and what is written for the rest.

* `run` — the state that is reached, and all that is written.
* `Reads` — a run as a relation, which `Reads.append` puts together; `Reads.silently` and
  `Reads.skip` are for symbols for which nothing is written.
* `reads_each` — a run that adds to the state what each of some words stands for.
-/

namespace Transducer

variable {σ α β : Type*}

def run (step : σ → α → σ × List β) (s : σ) : List α → σ × List β
  | [] => (s, [])
  | a :: as =>
    let rest := run step (step s a).1 as
    (rest.1, (step s a).2 ++ rest.2)

/-- From `s` the symbols are read up to `t`, and `bs` is written. -/
def Reads (step : σ → α → σ × List β) (s : σ) (as : List α) (t : σ) (bs : List β) : Prop :=
  run step s as = (t, bs)

section Runs

variable {step : σ → α → σ × List β} {s t u : σ} {as as' : List α} {bs bs' : List β}

theorem Reads.nil : Reads step s [] s [] := rfl

theorem Reads.one {a : α} (h : step s a = (t, bs)) : Reads step s [a] t bs := by
  unfold Reads
  rw [run, h]
  simp only [run, List.append_nil]

theorem Reads.append (h : Reads step s as t bs) (h' : Reads step t as' u bs') :
    Reads step s (as ++ as') u (bs ++ bs') := by
  unfold Reads at *
  induction as generalizing s bs with
  | nil =>
    cases h
    rw [List.nil_append, List.nil_append, h']
  | cons a as ih =>
    simp only [run, Prod.mk.injEq] at h
    obtain ⟨hstate, rfl⟩ := h
    have hrest := ih (Prod.ext hstate rfl)
    simp only [List.cons_append, run, hrest, List.append_assoc]

/-- Symbols for which nothing is written. -/
theorem Reads.silently (h : Reads step s as t []) (h' : Reads step t as' u bs) :
    Reads step s (as ++ as') u bs := h.append h'

theorem Reads.skip {a : α} (h : step s a = (t, [])) (h' : Reads step t as u bs) :
    Reads step s (a :: as) u bs := Reads.silently (.one h) h'

/-- A state that holds what has been read, and words that each add one thing to it. -/
theorem reads_each {γ : Type*} {state : List γ → σ} (word : γ → List α) {cs : List γ}
    (h : ∀ done, ∀ c ∈ cs, Reads step (state done) (word c) (state (done ++ [c])) [])
    (done : List γ) : Reads step (state done) (cs.flatMap word) (state (done ++ cs)) [] := by
  induction cs generalizing done with
  | nil =>
    rw [List.append_nil]
    exact .nil
  | cons c cs ih =>
    have hrest := ih (fun done d hd => h done d (List.mem_cons_of_mem _ hd)) (done ++ [c])
    rw [List.append_assoc, List.singleton_append] at hrest
    exact (h done c List.mem_cons_self).silently hrest

theorem reads_added (state : List α → σ) {cs : List α}
    (h : ∀ done, ∀ c ∈ cs, step (state done) c = (state (done ++ [c]), [])) (done : List α) :
    Reads step (state done) cs (state (done ++ cs)) [] := by
  have hread := reads_each (fun c => [c]) (fun done c hc => Reads.one (h done c hc)) done
  rwa [List.flatMap_singleton'] at hread

end Runs

end Transducer
