import Mathlib.Logic.Function.Iterate
import Mathlib.Order.Basic

/-!
# Lib.Progress

A machine with one thing to do next, run by itself: an invariant that a step keeps, and a rank that
it lowers until the machine is where it should get to.

* `Reaches` — the machine gets from one state to the other.
* `reaches_of_rank` — it gets to the goal when the rank goes down on the way.
-/

namespace Progress

variable {σ : Type} (step : σ → σ)

/-- Some number of steps leads from `s` to `s'`. -/
def Reaches (s s' : σ) : Prop := ∃ n, step^[n] s = s'

variable {step} {s s' s'' : σ}

theorem Reaches.refl (s : σ) : Reaches step s s := ⟨0, rfl⟩

theorem Reaches.trans (h : Reaches step s s') (h' : Reaches step s' s'') : Reaches step s s'' := by
  obtain ⟨n, rfl⟩ := h
  obtain ⟨m, rfl⟩ := h'
  exact ⟨m + n, Function.iterate_add_apply step m n s⟩

theorem Reaches.after (h : Reaches step (step s) s') : Reaches step s s' := by
  obtain ⟨n, rfl⟩ := h
  exact ⟨n + 1, Function.iterate_succ_apply step n s⟩

/-- A rank that every step on the way lowers leads to the goal. -/
theorem reaches_of_rank {I Q : σ → Prop} (rank : σ → Nat)
    (h : ∀ s, I s → Q s ∨ (I (step s) ∧ rank (step s) < rank s)) (hs : I s) :
    ∃ s', Reaches step s s' ∧ I s' ∧ Q s' := by
  induction hn : rank s using Nat.strongRecOn generalizing s with
  | ind n ih =>
    rcases h s hs with hgoal | ⟨hnext, hlower⟩
    · exact ⟨s, .refl s, hs, hgoal⟩
    · obtain ⟨s', hreach, hs', hgoal⟩ := ih (rank (step s)) (hn ▸ hlower) hnext rfl
      exact ⟨s', hreach.after, hs', hgoal⟩

end Progress
