import Mathlib.Data.List.Induction
import Mathlib.Data.List.Nodup

/-!
# Lib.Memo

A loop over a list that calls a function once for each key and remembers what it returned. A call
may fail, and the loop ends there.

* `firsts` — the elements whose key no element before them has.
* `Memo.fill` — one turn: the function is called unless the key is known.
* `Remembers` — what is remembered after the turns of a list; `fill_cases` is that a turn keeps it.
-/

namespace Memoized

variable {α β κ ε : Type} [DecidableEq κ]

/-! ## First elements -/

def firsts (key : α → κ) (l : List α) : List α :=
  l.foldl (fun seen a => if key a ∈ seen.map key then seen else seen ++ [a]) []

variable {key : α → κ}

@[simp] theorem firsts_nil : firsts key [] = [] := rfl

theorem firsts_step (l : List α) (a : α) : firsts key (l ++ [a]) =
    if key a ∈ (firsts key l).map key then firsts key l else firsts key l ++ [a] := by
  rw [firsts, List.foldl_append]
  rfl

/-- Every key has a first element. -/
theorem mem_keys_firsts {l : List α} {k : κ} :
    k ∈ (firsts key l).map key ↔ k ∈ l.map key := by
  induction l using List.reverseRecOn with
  | nil => rfl
  | append_singleton l a ih =>
    rw [firsts_step, List.map_append, List.mem_append, ← ih]
    by_cases ha : key a ∈ (firsts key l).map key
    · rw [if_pos ha]
      refine ⟨.inl, fun h => h.elim id fun hk => ?_⟩
      rw [List.map_singleton, List.mem_singleton] at hk
      exact hk ▸ ha
    · rw [if_neg ha, List.map_append, List.mem_append]

theorem firsts_concat (l : List α) (a : α) : firsts key (l ++ [a]) =
    if key a ∈ l.map key then firsts key l else firsts key l ++ [a] := by
  rw [firsts_step]
  simp only [mem_keys_firsts]

/-- No two first elements have one key. -/
theorem keys_firsts_nodup (l : List α) : ((firsts key l).map key).Nodup := by
  induction l using List.reverseRecOn with
  | nil => exact List.nodup_nil
  | append_singleton l a ih =>
    rw [firsts_step]
    by_cases ha : key a ∈ (firsts key l).map key
    · rw [if_pos ha]
      exact ih
    · rw [if_neg ha, List.map_append, List.map_singleton]
      exact List.nodup_append.mpr ⟨ih, List.nodup_singleton _, fun k hk k' hk' he => by
        rw [List.mem_singleton.mp hk'] at he
        exact ha (he ▸ hk)⟩

/-- First elements stand in the order of the list. -/
theorem firsts_sublist (l : List α) : (firsts key l).Sublist l := by
  induction l using List.reverseRecOn with
  | nil => exact List.Sublist.refl []
  | append_singleton l a ih =>
    rw [firsts_step]
    by_cases ha : key a ∈ (firsts key l).map key
    · rw [if_pos ha]
      exact ih.trans (List.sublist_append_left l [a])
    · rw [if_neg ha]
      exact ih.append (List.Sublist.refl [a])

/-! ## The loop -/

/-- The elements the function was called on, and what it returned for the key of each. -/
structure Memo (α κ β : Type) where
  calls : List α
  known : List (κ × β)

def Memo.empty : Memo α κ β := ⟨[], []⟩

variable (act : Nat → α → Except ε β) (key)

/-- One turn; a call is given how many there were before it. -/
def Memo.fill (m : Memo α κ β) (a : α) : Memo α κ β × Option ε :=
  if (m.known.lookup (key a)).isSome then (m, none)
  else
    match act m.calls.length a with
    | .error e => ({ m with calls := m.calls ++ [a] }, some e)
    | .ok b => (⟨m.calls ++ [a], m.known ++ [(key a, b)]⟩, none)

/-- After the turns of a list every first element was called on, successfully. -/
structure Remembers (seen : List α) (m : Memo α κ β) : Prop where
  calls : m.calls = firsts key seen
  keys : m.known.map Prod.fst = m.calls.map key
  answers : ∀ i a, m.calls[i]? = some a →
    ∃ b, act i a = .ok b ∧ m.known[i]? = some (key a, b)

variable {act key}

theorem remembers_empty : Remembers key act [] (Memo.empty : Memo α κ β) :=
  ⟨rfl, rfl, nofun⟩

theorem lookup_eq_none {known : List (κ × β)} {k : κ} :
    known.lookup k = none ↔ k ∉ known.map Prod.fst := by
  rw [List.lookup_eq_none_iff]
  constructor
  · intro h hmem
    obtain ⟨p, hp, rfl⟩ := List.mem_map.mp hmem
    simpa using h p hp
  · intro h p hp
    simp only [bne_iff_ne, ne_eq]
    exact fun he => h (List.mem_map.mpr ⟨p, hp, he.symm⟩)

theorem lookup_concat {known : List (κ × β)} {k k' : κ} {b : β} :
    (known ++ [(k', b)]).lookup k =
      (known.lookup k).or (if k = k' then some b else none) := by
  rw [List.lookup_append]
  congr 1
  by_cases h : k = k'
  · rw [if_pos h, List.lookup_cons, h, beq_self_eq_true]
  · rw [if_neg h, List.lookup_cons, beq_false_of_ne h]
    rfl

/-- A remembered answer is one of a call. -/
theorem lookup_getElem? {known : List (κ × β)} {k : κ} {b : β} (h : known.lookup k = some b) :
    ∃ i : Nat, known[i]? = some (k, b) := by
  obtain ⟨before, after, he, -⟩ := List.lookup_eq_some_iff.mp h
  refine ⟨before.length, ?_⟩
  rw [he, List.getElem?_append_right (Nat.le_refl _), Nat.sub_self, List.getElem?_cons_zero]

theorem Remembers.call_of_lookup {seen : List α} {m : Memo α κ β} (h : Remembers key act seen m)
    {k : κ} {b : β} (hk : m.known.lookup k = some b) :
    ∃ i first, m.calls[i]? = some first ∧ key first = k ∧ act i first = .ok b := by
  obtain ⟨i, hi⟩ := lookup_getElem? hk
  have hkeys := congrArg (·[i]?) h.keys
  simp only [List.getElem?_map, hi, Option.map_some] at hkeys
  obtain ⟨first, hfirst, hkey⟩ := Option.map_eq_some_iff.mp hkeys.symm
  obtain ⟨b', hact, hknown⟩ := h.answers i first hfirst
  rw [hi, Option.some.injEq, Prod.mk.injEq] at hknown
  exact ⟨i, first, hfirst, hkey, hknown.2 ▸ hact⟩

theorem Remembers.lookup_eq_none {seen : List α} {m : Memo α κ β} (h : Remembers key act seen m)
    {k : κ} : m.known.lookup k = none ↔ k ∉ seen.map key := by
  rw [Memoized.lookup_eq_none, h.keys, h.calls, mem_keys_firsts]

theorem Remembers.seen {seen : List α} {m : Memo α κ β} (h : Remembers key act seen m) {a : α}
    (ha : key a ∈ seen.map key) : Remembers key act (seen ++ [a]) m :=
  ⟨by rw [firsts_concat, if_pos ha, h.calls], h.keys, h.answers⟩

theorem Remembers.called {seen : List α} {m : Memo α κ β} (h : Remembers key act seen m) {a : α}
    {b : β} (ha : key a ∉ seen.map key) (hact : act m.calls.length a = .ok b) :
    Remembers key act (seen ++ [a]) ⟨m.calls ++ [a], m.known ++ [(key a, b)]⟩ := by
  have hlength : m.known.length = m.calls.length := by
    rw [← List.length_map (f := Prod.fst), h.keys, List.length_map]
  refine ⟨by rw [firsts_concat, if_neg ha, ← h.calls], by simp [h.keys], fun i a' hi => ?_⟩
  rcases Nat.lt_trichotomy i m.calls.length with hlt | rfl | hgt
  · rw [List.getElem?_append_left hlt] at hi
    rw [List.getElem?_append_left (hlength ▸ hlt)]
    exact h.answers i a' hi
  · rw [List.getElem?_append_right (Nat.le_refl _), Nat.sub_self, List.getElem?_cons_zero,
      Option.some.injEq] at hi
    rw [List.getElem?_append_right (Nat.le_of_eq hlength), hlength, Nat.sub_self, ← hi]
    exact ⟨b, hact, rfl⟩
  · rw [List.getElem?_eq_none (by simp; omega)] at hi
    cases hi

/-- A turn fails in the call for a new key, or leaves the answer for the key of its element
remembered, with all there was. -/
theorem fill_cases {seen : List α} {m : Memo α κ β} (h : Remembers key act seen m) (a : α) :
    (∃ e, m.fill key act a = ({ m with calls := m.calls ++ [a] }, some e) ∧
      key a ∉ seen.map key ∧ act m.calls.length a = .error e ∧
      m.calls ++ [a] = firsts key (seen ++ [a])) ∨
    ∃ m' b, m.fill key act a = (m', none) ∧ Remembers key act (seen ++ [a]) m' ∧
      m'.known.lookup (key a) = some b ∧
      ∀ k b', m.known.lookup k = some b' → m'.known.lookup k = some b' := by
  unfold Memo.fill
  cases hknown : m.known.lookup (key a) with
  | some b =>
    have ha : key a ∈ seen.map key := by
      by_contra ha
      rw [h.lookup_eq_none.mpr ha] at hknown
      cases hknown
    exact .inr ⟨m, b, rfl, h.seen ha, hknown, fun _ _ h => h⟩
  | none =>
    have ha := h.lookup_eq_none.mp hknown
    simp only [Option.isSome_none, Bool.false_eq_true, ↓reduceIte]
    cases hact : act m.calls.length a with
    | error e => exact .inl ⟨e, rfl, ha, rfl, by rw [firsts_concat, if_neg ha, h.calls]⟩
    | ok b =>
      refine .inr ⟨_, b, rfl, h.called ha hact, ?_, fun k b' hk => ?_⟩
      · rw [lookup_concat, hknown, if_pos rfl]
        rfl
      · rw [lookup_concat, hk]
        rfl

end Memoized
