import Mathlib.Data.List.Perm.Basic
import OnshapeExport.Lib.Checks

/-!
# Lib.TwoRuns

Two runs of one fallible computation on related inputs. They agree when both fail with one error,
or both succeed with related results.

* `Agrees` — the agreement of two runs; `bind`, `traverse`, `ensure` and `mapError` keep it.
* `FailsOnly` — a computation with one error; two of these agree when they succeed together.
* `Agrees.traverse_perm` — a loop with one error over the elements in another order.
-/

namespace TwoRuns

open Checks

variable {ε α β γ δ : Type}

inductive Agrees (R : α → β → Prop) : Except ε α → Except ε β → Prop
  | ok {a : α} {b : β} : R a b → Agrees R (.ok a) (.ok b)
  | error (e : ε) : Agrees R (.error e) (.error e)

section Agrees

variable {R : α → β → Prop} {S : γ → δ → Prop} {x : Except ε α} {y : Except ε β}

theorem agrees_refl {R : α → α → Prop} (hR : ∀ a, R a a) (x : Except ε α) : Agrees R x x := by
  cases x with
  | error e => exact .error e
  | ok a => exact .ok (hR a)

theorem agrees_of_eq {x y : Except ε α} (h : x = y) : Agrees Eq x y :=
  h ▸ agrees_refl (fun _ => rfl) x

theorem Agrees.eq {x y : Except ε α} (h : Agrees Eq x y) : x = y := by
  cases h with
  | error e => rfl
  | ok hab => rw [hab]

theorem Agrees.bind {f : α → Except ε γ} {g : β → Except ε δ} (h : Agrees R x y)
    (hf : ∀ a b, R a b → Agrees S (f a) (g b)) : Agrees S (x >>= f) (y >>= g) := by
  cases h with
  | error e => exact .error e
  | ok hab => exact hf _ _ hab

/-- The first steps are one computation. -/
theorem Agrees.same {f : α → Except ε γ} {g : α → Except ε δ} {x x' : Except ε α} (h : x = x')
    (hf : ∀ a, Agrees S (f a) (g a)) : Agrees S (x >>= f) (x' >>= g) :=
  (agrees_of_eq h).bind fun a _ hab => hab ▸ hf a

theorem Agrees.mapError {ε' : Type} (f : ε → ε') (h : Agrees R x y) :
    Agrees R (x.mapError f) (y.mapError f) := by
  cases h with
  | error e => exact .error (f e)
  | ok hab => exact .ok hab

theorem agrees_ensure {p q : Prop} [Decidable p] [Decidable q] (h : p ↔ q) (e : ε) :
    Agrees Eq (ensure p e) (ensure q e) := by
  refine agrees_of_eq ?_
  simp only [ensure, h]

theorem agrees_traverse {f : Nat → α → Except ε γ} {g : Nat → β → Except ε δ}
    (hf : ∀ n a b, R a b → Agrees S (f n a) (g n b)) {l : List α} {l' : List β}
    (h : List.Forall₂ R l l') (n : Nat) :
    Agrees (List.Forall₂ S) (traverse f n l) (traverse g n l') := by
  induction h generalizing n with
  | nil => exact .ok .nil
  | cons hab _ ih =>
    refine (hf n _ _ hab).bind fun c d hcd => (ih (n + 1)).bind fun cs ds hcds => ?_
    exact .ok (.cons hcd hcds)

end Agrees

/-! ## Computations with one error -/

def FailsOnly (e : ε) (x : Except ε α) : Prop := ∀ e', x = .error e' → e' = e

section FailsOnly

variable {e : ε} {R : α → β → Prop} {x : Except ε α} {y : Except ε β}

theorem FailsOnly.agrees (hx : FailsOnly e x) (hy : FailsOnly e y)
    (h : ∀ a, x = .ok a → ∃ b, y = .ok b ∧ R a b) (h' : ∀ b, y = .ok b → ∃ a, x = .ok a) :
    Agrees R x y := by
  cases x with
  | ok a =>
    obtain ⟨b, rfl, hab⟩ := h a rfl
    exact .ok hab
  | error ex =>
    obtain rfl := hx ex rfl
    cases y with
    | ok b =>
      obtain ⟨a, ha⟩ := h' b rfl
      cases ha
    | error ey =>
      obtain rfl := hy ey rfl
      exact .error ey

theorem failsOnly_traverse {f : α → Except ε γ} (hf : ∀ a, FailsOnly e (f a)) (n : Nat)
    (l : List α) : FailsOnly e (traverse (fun _ a => f a) n l) := by
  induction l generalizing n with
  | nil =>
    intro e' he
    cases he
  | cons a l ih =>
    intro e' he
    obtain he | ⟨c, -, he⟩ := bind_error.mp he
    · exact hf a e' he
    · obtain he | ⟨cs, -, he⟩ := bind_error.mp he
      · exact ih (n + 1) e' he
      · cases he

/-- One error, so it does not matter which element fails first. -/
theorem agrees_traverse_perm {f : α → Except ε γ} (hf : ∀ a, FailsOnly e (f a)) {l l' : List α}
    (h : l.Perm l') (n : Nat) :
    Agrees List.Perm (traverse (fun _ a => f a) n l) (traverse (fun _ a => f a) n l') := by
  have hmove : ∀ {l l' : List α} {r : List γ}, l.Perm l' →
      traverse (fun _ a => f a) n l = .ok r →
        ∃ r', traverse (fun _ a => f a) n l' = .ok r' ∧ r.Perm r' := by
    intro l l' r h hr
    obtain ⟨r', hr', hp⟩ := List.perm_comp_forall₂ h.symm (traverse_forall₂.mp hr)
    exact ⟨r', traverse_forall₂.mpr hr', hp.symm⟩
  refine (failsOnly_traverse hf n l).agrees (failsOnly_traverse hf n l') (fun r hr => hmove h hr)
    fun r hr => ?_
  obtain ⟨r', hr', -⟩ := hmove h.symm hr
  exact ⟨r', hr'⟩

end FailsOnly

end TwoRuns
