import Mathlib.Data.Finset.Card
import Mathlib.Logic.Relation

/-!
# Lib.LinkWalk

A walk along links, where every element has at most one successor, that refuses to meet an element
twice.

* `Ends` — the walk ends after so many turns, with the element it met again if there is one.
* `ends_of_finite` — over finitely many elements with a successor, every walk ends.
* `ends_none_iff` — a walk ends without a repetition exactly when its links lead to an end.
-/

namespace OnshapeExport
namespace LinkWalk

open Relation

variable {α : Type*}

/-- The walk at `current`, after the elements `seen`. -/
inductive Ends (next : α → Option α) : List α → Option α → Nat → Option α → Prop where
  | out (seen : List α) : Ends next seen none 0 none
  | again {seen : List α} {x : α} (h : x ∈ seen) : Ends next seen (some x) 1 (some x)
  | turn {seen : List α} {x : α} {turns : Nat} {outcome : Option α} (h : x ∉ seen)
      (rest : Ends next (x :: seen) (next x) turns outcome) :
      Ends next seen (some x) (turns + 1) outcome

def Link (next : α → Option α) (x y : α) : Prop := next x = some y

variable {next : α → Option α}

theorem ends_unique {seen : List α} {current : Option α} {m n : Nat} {a b : Option α}
    (h : Ends next seen current m a) (k : Ends next seen current n b) : m = n ∧ a = b := by
  induction h generalizing n b with
  | out seen =>
    cases k
    exact ⟨rfl, rfl⟩
  | again h =>
    cases k with
    | again => exact ⟨rfl, rfl⟩
    | turn hnot => exact absurd h hnot
  | turn h rest ih =>
    cases k with
    | again hmem => exact absurd hmem h
    | turn _ rest' =>
      obtain ⟨hm, ha⟩ := ih rest'
      exact ⟨by omega, ha⟩

/-! ## Termination -/

/-- The measure is the number of elements with a successor that were not met yet. -/
theorem ends_within [DecidableEq α] {s : Finset α} (hs : ∀ x, x ∉ s → next x = none) :
    ∀ (left : Nat) (seen : List α) (current : Option α), (s \ seen.toFinset).card = left →
      ∃ turns ≤ left + 1, ∃ outcome, Ends next seen current turns outcome := by
  intro left
  induction left using Nat.strong_induction_on with
  | _ left ih =>
    intro seen current hleft
    cases current with
    | none => exact ⟨0, by omega, none, .out seen⟩
    | some x =>
      by_cases hseen : x ∈ seen
      · exact ⟨1, by omega, some x, .again hseen⟩
      by_cases hx : x ∈ s
      · have hlt : (s \ (x :: seen).toFinset).card < left := by
          rw [← hleft]
          refine Finset.card_lt_card ⟨?_, ?_⟩
          · intro y hy
            simp only [Finset.mem_sdiff, List.mem_toFinset, List.mem_cons, not_or] at hy ⊢
            exact ⟨hy.1, hy.2.2⟩
          · intro hsub
            have hback := @hsub x (by simp [hx, hseen])
            simp at hback
        obtain ⟨turns, hturns, outcome, hends⟩ := ih _ hlt (x :: seen) (next x) rfl
        exact ⟨turns + 1, by omega, outcome, .turn hseen hends⟩
      · have hends : Ends next (x :: seen) (next x) 0 none := by
          rw [hs x hx]
          exact .out _
        exact ⟨1, by omega, none, .turn hseen hends⟩

theorem ends_of_finite [DecidableEq α] {s : Finset α} (hs : ∀ x, x ∉ s → next x = none)
    (current : Option α) :
    ∃ turns ≤ s.card + 1, ∃ outcome, Ends next [] current turns outcome := by
  refine ends_within hs _ [] current ?_
  simp

/-! ## Cycles -/

/-- There is one way on from every element, so what a cycle reaches lies on a cycle. -/
theorem on_cycle_of_reach {x y : α} (hcycle : TransGen (Link next) x x)
    (h : ReflTransGen (Link next) x y) : TransGen (Link next) y y := by
  induction h with
  | refl => exact hcycle
  | @tail y z _ hyz ih =>
    obtain ⟨w, hyw, hwy⟩ := TransGen.head'_iff.mp ih
    have hw : w = z := Option.some.inj (hyw.symm.trans hyz)
    rw [hw] at hwy
    exact TransGen.tail' hwy hyz

theorem not_on_cycle_of_end {x : α} (h : next x = none) : ¬TransGen (Link next) x x := by
  intro hcycle
  obtain ⟨y, hxy, _⟩ := TransGen.head'_iff.mp hcycle
  rw [Link, h] at hxy
  cases hxy

theorem reaches_end {seen : List α} {current : Option α} {turns : Nat}
    (h : Ends next seen current turns none) {x : α} (hx : current = some x) :
    ∃ y, ReflTransGen (Link next) x y ∧ next y = none := by
  generalize hout : (none : Option α) = outcome at h
  induction h generalizing x with
  | out => cases hx
  | again => cases hout
  | @turn seen z turns outcome hseen rest ih =>
    cases hx
    cases hnext : next z with
    | none => exact ⟨z, .refl, hnext.trans hout⟩
    | some y =>
      obtain ⟨root, hreach, hroot⟩ := ih hnext hout
      exact ⟨root, .head hnext hreach, hroot⟩

/-- The elements met lead to the current one, so an element met again lies on a cycle. -/
theorem reaches_cycle {seen : List α} {current : Option α} {turns : Nat} {y : α}
    (h : Ends next seen current turns (some y)) {x : α} (hx : current = some x)
    (hseen : ∀ z ∈ seen, TransGen (Link next) z x) :
    ReflTransGen (Link next) x y ∧ TransGen (Link next) y y := by
  generalize hout : some y = outcome at h
  induction h generalizing x with
  | out => cases hx
  | again hmem =>
    cases hx
    cases hout
    exact ⟨.refl, hseen _ hmem⟩
  | @turn seen z turns outcome hnot rest ih =>
    cases hx
    cases hnext : next z with
    | none =>
      rw [hnext] at rest
      cases rest
      cases hout
    | some w =>
      have hlink : Link next z w := hnext
      have hpast : ∀ v ∈ z :: seen, TransGen (Link next) v w := by
        intro v hv
        rcases List.mem_cons.mp hv with rfl | hv
        · exact .single hlink
        · exact (hseen v hv).tail hlink
      obtain ⟨hreach, hcycle⟩ := ih hnext hpast hout
      exact ⟨.head hlink hreach, hcycle⟩

/-- An end is the last element there is on a walk. -/
theorem reaches_end_of_reach {x y root : α} (hroot : next root = none)
    (hx : ReflTransGen (Link next) x root) (hxy : ReflTransGen (Link next) x y) :
    ReflTransGen (Link next) y root := by
  have htotal : ReflTransGen (Link next) root y ∨ ReflTransGen (Link next) y root :=
    ReflTransGen.total_of_right_unique
      (fun _ _ _ ha hb => Option.some.inj (ha.symm.trans hb)) hx hxy
  rcases htotal with hry | hyr
  · rcases ReflTransGen.cases_head hry with heq | ⟨w, hw, _⟩
    · rw [heq]
    · rw [Link, hroot] at hw
      cases hw
  · exact hyr

theorem ends_none_iff {x : α} {turns : Nat} {outcome : Option α}
    (h : Ends next [] (some x) turns outcome) :
    outcome = none ↔ ∃ y, ReflTransGen (Link next) x y ∧ next y = none := by
  constructor
  · intro hnone
    rw [hnone] at h
    exact reaches_end h rfl
  · intro hend
    obtain ⟨y, hxy, hy⟩ := hend
    cases outcome with
    | none => rfl
    | some z =>
      -- The repetition closes a cycle, and the end lies beyond it.
      obtain ⟨hxz, hz⟩ := reaches_cycle h rfl (by simp)
      have hzy := reaches_end_of_reach hy hxy hxz
      exact absurd (on_cycle_of_reach hz hzy) (not_on_cycle_of_end hy)

theorem ends_none_iff_acyclic {x : α} {turns : Nat} {outcome : Option α}
    (h : Ends next [] (some x) turns outcome) :
    outcome = none ↔ ∀ y, ReflTransGen (Link next) x y → ¬TransGen (Link next) y y := by
  constructor
  · intro hnone y hxy hcycle
    obtain ⟨root, hroot, hend⟩ := (ends_none_iff h).mp hnone
    have hyr := reaches_end_of_reach hend hroot hxy
    exact not_on_cycle_of_end hend (on_cycle_of_reach hcycle hyr)
  · intro hacyclic
    cases outcome with
    | none => rfl
    | some z =>
      obtain ⟨hxz, hz⟩ := reaches_cycle h rfl (by simp)
      exact absurd hz (hacyclic z hxz)

end LinkWalk
end OnshapeExport
