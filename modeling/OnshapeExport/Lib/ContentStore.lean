import Mathlib.Order.Defs.PartialOrder

/-!
# Lib.ContentStore

Stores that write over what is there, with keys that say what may be under them. When a key of
some region allows one value only, writing over it changes nothing.

* `Store.put` — writes a value, whatever was there.
* `Addressed` — every value of the region is one that its key allows.
* `Keeps` — what a later store still has of the region.
* `keeps_put` — a write of what is allowed keeps everything.
* `separated_inj` — a key made of two parts gives both back.
-/

namespace ContentStore

variable {κ α : Type}

/-- What is stored under each key. -/
abbrev Store (κ α : Type) := κ → Option α

/-- Nothing is stored. -/
def Store.empty : Store κ α := fun _ => none

/-- Every value stored in the region is one that its key allows. -/
def Addressed (region : κ → Prop) (allows : κ → α → Prop) (s : Store κ α) : Prop :=
  ∀ k a, region k → s k = some a → allows k a

/-- A key of the region allows one value at most. -/
def Determined (region : κ → Prop) (allows : κ → α → Prop) : Prop :=
  ∀ k a b, region k → allows k a → allows k b → a = b

/-- The values of the region are all there later on, as they were. -/
def Keeps (region : κ → Prop) (s s' : Store κ α) : Prop :=
  ∀ k a, region k → s k = some a → s' k = some a

variable {region : κ → Prop} {allows : κ → α → Prop} {s s' s'' : Store κ α}

theorem addressed_empty : Addressed region allows (Store.empty : Store κ α) := by
  intro k a _ h
  cases h

theorem Keeps.refl (s : Store κ α) : Keeps region s s := fun _ _ _ h => h

theorem Keeps.trans (h : Keeps region s s') (h' : Keeps region s' s'') : Keeps region s s'' :=
  fun k a hk ha => h' k a hk (h k a hk ha)

section Writes

variable [DecidableEq κ]

/-- The value is stored under the key, or with no value the key is deleted. -/
def Store.write (s : Store κ α) (k : κ) (a : Option α) : Store κ α :=
  fun k' => if k' = k then a else s k'

def Store.put (s : Store κ α) (k : κ) (a : α) : Store κ α := s.write k (some a)

@[simp] theorem put_self (s : Store κ α) (k : κ) (a : α) : s.put k a k = some a := by
  simp [Store.put, Store.write]

theorem write_of_ne {k k' : κ} (a : Option α) (h : k' ≠ k) : s.write k a k' = s k' := by
  simp [Store.write, h]

/-- A write outside the region is not seen in it. -/
theorem addressed_write {k : κ} (a : Option α) (hk : ¬ region k) (h : Addressed region allows s) :
    Addressed region allows (s.write k a) := by
  intro k' b hk' hb
  have hne : k' ≠ k := by
    rintro rfl
    exact hk hk'
  rw [write_of_ne a hne] at hb
  exact h k' b hk' hb

theorem keeps_write {k : κ} (a : Option α) (hk : ¬ region k) : Keeps region s (s.write k a) := by
  intro k' b hk' hb
  have hne : k' ≠ k := by
    rintro rfl
    exact hk hk'
  rw [write_of_ne a hne]
  exact hb

theorem addressed_put {k : κ} {a : α} (ha : region k → allows k a)
    (h : Addressed region allows s) : Addressed region allows (s.put k a) := by
  intro k' b hk' hb
  by_cases he : k' = k
  · subst he
    rw [put_self, Option.some.injEq] at hb
    exact hb ▸ ha hk'
  · rw [Store.put, write_of_ne _ he] at hb
    exact h k' b hk' hb

/-- What is there is what is written. -/
theorem keeps_put {k : κ} {a : α} (hd : Determined region allows) (ha : region k → allows k a)
    (h : Addressed region allows s) : Keeps region s (s.put k a) := by
  intro k' b hk' hb
  by_cases he : k' = k
  · subst he
    rw [put_self, hd k' a b hk' (ha hk') (h k' b hk' hb)]
  · rw [Store.put, write_of_ne _ he]
    exact hb

end Writes

/-- Two parts with a separator between them, where the first part has none. -/
theorem separated_inj {sep : α} {a a' b b' : List α} (ha : sep ∉ a) (ha' : sep ∉ a')
    (h : a ++ sep :: b = a' ++ sep :: b') : a = a' ∧ b = b' := by
  induction a generalizing a' with
  | nil =>
    cases a' with
    | nil => exact ⟨rfl, List.tail_eq_of_cons_eq h⟩
    | cons x a' =>
      simp only [List.nil_append, List.cons_append, List.cons.injEq] at h
      exact absurd (h.1 ▸ List.mem_cons_self) ha'
  | cons x a ih =>
    cases a' with
    | nil =>
      simp only [List.nil_append, List.cons_append, List.cons.injEq] at h
      exact absurd (h.1 ▸ List.mem_cons_self) ha
    | cons y a' =>
      simp only [List.cons_append, List.cons.injEq] at h
      obtain ⟨hrest, hb⟩ := ih (fun hm => ha (List.mem_cons_of_mem _ hm))
        (fun hm => ha' (List.mem_cons_of_mem _ hm)) h.2
      exact ⟨by rw [h.1, hrest], hb⟩

end ContentStore
