import Mathlib.Data.List.Pairwise
import Mathlib.Order.Lattice

/-!
# Lib.Paging

A listing that comes in pages, read by someone who removes what each page lists before asking for
the next one. What the listing has passed does not come again, so that the loop is right only when
whatever was passed was listed.

* `Honest` — what a paged listing promises: a page lists what is there, the last page leaves
  nothing out, and a token passes nothing that was not listed.
* `Unpassed` — the invariant of the loop: nothing that is left was passed.
* `Honest.last` and `Honest.remaining_lt` — the last page lists all that is left, and every other
  one leaves less.
* `pageAfter` — the pages of a sorted list, with the last key as the token.
-/

namespace Paging

structure Page (κ τ : Type) where
  contents : List κ
  truncated : Bool
  next : Option τ

variable {κ τ : Type}

/-- The keys are all from a finite list. -/
def Within (keys : List κ) (stored : κ → Bool) : Prop := ∀ k, stored k = true → k ∈ keys

/-- What is promised of the pages while only some keys are stored. The relation says which keys a
token has passed. -/
structure Honest (keys : List κ) (list : (κ → Bool) → Option τ → Page κ τ)
    (passed : Option τ → κ → Prop) : Prop where
  start : ∀ k, ¬ passed none k
  listed : ∀ stored token k, k ∈ (list stored token).contents →
    stored k = true
  complete : ∀ stored token k, Within keys stored → (list stored token).truncated = false →
    stored k = true → passed token k ∨ k ∈ (list stored token).contents
  onward : ∀ stored token k, Within keys stored → (list stored token).truncated = true →
    stored k = true → passed (list stored token).next k →
      passed token k ∨ k ∈ (list stored token).contents
  progress : ∀ stored token, Within keys stored → (list stored token).truncated = true →
    (list stored token).contents ≠ []

/-- Nothing that is stored was passed. -/
def Unpassed (passed : Option τ → κ → Prop) (token : Option τ) (stored : κ → Bool) : Prop :=
  ∀ k, stored k = true → ¬ passed token k

section Removals

/-- Nothing is passed in the beginning. -/
theorem Honest.unpassed_none {keys : List κ} {list : (κ → Bool) → Option τ → Page κ τ}
    {passed : Option τ → κ → Prop} (h : Honest keys list passed) (stored : κ → Bool) :
    Unpassed passed none stored :=
  fun k _ => h.start k

variable [DecidableEq κ]

/-- What is left without some of the keys. -/
def without (stored : κ → Bool) (removed : List κ) : κ → Bool :=
  fun k => stored k && decide (k ∉ removed)

theorem without_eq_true {stored : κ → Bool} {removed : List κ} {k : κ} :
    without stored removed k = true ↔ stored k = true ∧ k ∉ removed := by
  simp [without]

/-- How much is left. -/
def remaining (keys : List κ) (stored : κ → Bool) : Nat := (keys.filter stored).length

variable {keys : List κ} {stored : κ → Bool} {list : (κ → Bool) → Option τ → Page κ τ}
  {passed : Option τ → κ → Prop} {token : Option τ}

theorem Within.without (h : Within keys stored) (removed : List κ) :
    Within keys (without stored removed) :=
  fun k hk => h k (without_eq_true.mp hk).1

theorem Honest.unpassed_next (h : Honest keys list passed) (hwithin : Within keys stored)
    (htruncated : (list stored token).truncated = true) (hunpassed : Unpassed passed token stored) :
    Unpassed passed (list stored token).next
      (Paging.without stored (list stored token).contents) := by
  intro k hk hpassed
  obtain ⟨hstored, hnot⟩ := without_eq_true.mp hk
  rcases h.onward stored token k hwithin htruncated hstored hpassed with hbefore | hlisted
  · exact hunpassed k hstored hbefore
  · exact hnot hlisted

/-- After the last page nothing is left. -/
theorem Honest.last (h : Honest keys list passed) (hwithin : Within keys stored)
    (hlast : (list stored token).truncated = false) (hunpassed : Unpassed passed token stored)
    (k : κ) : Paging.without stored (list stored token).contents k = false := by
  cases hk : Paging.without stored (list stored token).contents k with
  | false => rfl
  | true =>
    obtain ⟨hstored, hnot⟩ := without_eq_true.mp hk
    rcases h.complete stored token k hwithin hlast hstored with hbefore | hlisted
    · exact absurd hbefore (hunpassed k hstored)
    · exact absurd hlisted hnot

/-- A page that is not the last one leaves less. -/
theorem Honest.remaining_lt (h : Honest keys list passed) (hwithin : Within keys stored)
    (htruncated : (list stored token).truncated = true) :
    remaining keys (Paging.without stored (list stored token).contents) <
      remaining keys stored := by
  obtain ⟨k, hk⟩ := List.exists_mem_of_ne_nil _ (h.progress stored token hwithin htruncated)
  have hstored := h.listed stored token k hk
  have hfilter : keys.filter (Paging.without stored (list stored token).contents) =
      (keys.filter stored).filter fun k => decide (k ∉ (list stored token).contents) := by
    rw [List.filter_filter]
    exact List.filter_congr fun k _ => by rw [Paging.without, Bool.and_comm]
  rw [remaining, remaining, hfilter]
  refine List.length_filter_lt_length_iff_exists.mpr ⟨k, ?_, by simpa using hk⟩
  exact List.mem_filter.mpr ⟨hwithin k hstored, hstored⟩

end Removals

/-! ## Pages of a sorted list -/

section Sorted

variable [LinearOrder κ]

/-- The keys after the one of the token, some at a time. -/
def pageAfter (size : Nat) (keys : List κ) (stored : κ → Bool) (token : Option κ) : Page κ κ :=
  let rest := keys.filter fun k => stored k && token.all fun t => decide (t < k)
  ⟨rest.take size, decide (size < rest.length), (rest.take size).getLast?⟩

/-- The token passes the keys up to it. -/
def UpTo (token : Option κ) (k : κ) : Prop := ∃ t, token = some t ∧ k ≤ t

theorem upTo_or_after (token : Option κ) (k : κ) :
    UpTo token k ∨ (token.all fun t => decide (t < k)) = true := by
  cases token with
  | none => exact .inr rfl
  | some t =>
    rcases le_or_gt k t with h | h
    · exact .inl ⟨t, rfl, h⟩
    · exact .inr (decide_eq_true h)

theorem pageAfter_honest {size : Nat} (hsize : 0 < size) {keys : List κ}
    (hsorted : keys.Pairwise (· < ·)) : Honest keys (pageAfter size keys) UpTo where
  start := by
    rintro k ⟨t, ht, -⟩
    cases ht
  listed := by
    intro stored token k hk
    have hrest := (List.mem_filter.mp (List.mem_of_mem_take hk)).2
    exact (Bool.and_eq_true_iff.mp hrest).1
  complete := by
    intro stored token k hwithin hlast hstored
    refine (upTo_or_after token k).imp_right fun hafter => ?_
    have hall : (pageAfter size keys stored token).contents =
        keys.filter fun k => stored k && token.all fun t => decide (t < k) :=
      List.take_of_length_le (Nat.le_of_not_lt (of_decide_eq_false (p := _ < _) hlast))
    rw [hall]
    exact List.mem_filter.mpr ⟨hwithin k hstored, Bool.and_eq_true_iff.mpr ⟨hstored, hafter⟩⟩
  onward := by
    rintro stored token k hwithin _ hstored ⟨t, ht, hkt⟩
    refine (upTo_or_after token k).imp_right fun hafter => ?_
    have hmem : k ∈ keys.filter fun k => stored k && token.all fun t => decide (t < k) :=
      List.mem_filter.mpr ⟨hwithin k hstored, Bool.and_eq_true_iff.mpr ⟨hstored, hafter⟩⟩
    have hrest := hsorted.filter fun k => stored k && token.all fun t => decide (t < k)
    rw [← List.take_append_drop size (keys.filter _)] at hmem hrest
    rcases List.mem_append.mp hmem with htaken | hdropped
    · exact htaken
    · -- what comes on a later page is above the token
      have hlt := (List.pairwise_append.mp hrest).2.2 t (List.mem_of_getLast? ht) k hdropped
      exact absurd hkt (not_le.mpr hlt)
  progress := by
    intro stored token _ htruncated hnil
    have hlong := of_decide_eq_true htruncated
    rcases List.take_eq_nil_iff.mp hnil with hzero | hrest
    · exact absurd hzero (Nat.ne_of_gt hsize)
    · rw [hrest] at hlong
      exact absurd hlong (Nat.not_lt_zero _)

end Sorted

end Paging
