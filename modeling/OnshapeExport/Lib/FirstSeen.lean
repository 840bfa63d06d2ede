import Mathlib.Data.List.Basic
import Mathlib.Order.Bounds.Basic

/-!
# Lib.FirstSeen

A loop over a list that remembers where every key came first, and the lowest of those places whose
element says something else than a later one of its key.

* `noteFirst` — one turn of the loop.
* `Notes` — what is remembered after some turns; `notes_step` is that a turn keeps it.
* `Contested` — the first place of a key that a later element disagrees with.
* `contested_iff` — nothing is contested when all elements of a key say the same.
-/

namespace FirstSeen

variable {α β κ : Type}

def lower (lowest : Option Nat) (first : Nat) : Option Nat :=
  some (lowest.elim first fun old => min old first)

/-- The element at a place is looked up by its key: a new key is remembered, and one that is known
is compared with its first element. -/
def noteFirst [DecidableEq κ] [DecidableEq β] (entries : List α) (key : α → Option κ) (content : α → β) (firsts : List (κ × Nat))
    (lowest : Option Nat) (place : Nat) (a : α) : List (κ × Nat) × Option Nat :=
  match key a with
  | none => (firsts, lowest)
  | some k =>
    match firsts.lookup k with
    | none => ((k, place) :: firsts, lowest)
    | some first =>
      if (entries[first]?).any fun b => content b ≠ content a then (firsts, lower lowest first)
      else (firsts, lowest)

/-! ## Lowest places -/

/-- The lowest of some places, if there is one. -/
def IsLowest (places : Set Nat) : Option Nat → Prop
  | none => places = ∅
  | some p => IsLeast places p

theorem isLowest_lower {places : Set Nat} {lowest : Option Nat} (h : IsLowest places lowest)
    (first : Nat) : IsLowest (insert first places) (lower lowest first) := by
  cases lowest with
  | none =>
    obtain rfl : places = ∅ := h
    refine ⟨Set.mem_insert first ∅, fun p hp => ?_⟩
    rcases hp with rfl | hp
    · exact Nat.le_refl _
    · cases hp
  | some old =>
    obtain ⟨hmem, hle⟩ := h
    refine ⟨?_, fun p hp => ?_⟩
    · rcases Nat.le_total old first with ho | ho
      · exact .inr (by simpa [Nat.min_eq_left ho] using hmem)
      · exact .inl (Nat.min_eq_right ho)
    · rcases hp with rfl | hp
      · exact Nat.min_le_right _ _
      · exact (Nat.min_le_left _ _).trans (hle hp)

theorem isLowest_eq_some {places : Set Nat} {lowest : Option Nat} (h : IsLowest places lowest)
    {p : Nat} : lowest = some p ↔ IsLeast places p := by
  cases lowest with
  | none =>
    obtain rfl : places = ∅ := h
    exact iff_of_false nofun fun hp => hp.1
  | some q =>
    rw [Option.some.injEq]
    exact ⟨fun he => he ▸ h, fun hp => h.unique hp⟩

theorem isLowest_isSome {places : Set Nat} {lowest : Option Nat} (h : IsLowest places lowest) :
    (∃ p, lowest = some p) ↔ ∃ p, p ∈ places := by
  cases lowest with
  | none =>
    obtain rfl : places = ∅ := h
    exact iff_of_false nofun fun ⟨_, hp⟩ => hp
  | some q => exact iff_of_true ⟨q, rfl⟩ ⟨q, h.1⟩

/-! ## First places -/

section First

variable (entries : List α) (key : α → Option κ) (content : α → β)

/-- The first place of a key. -/
def IsFirst (k : κ) (place : Nat) : Prop :=
  (∃ a, entries[place]? = some a ∧ key a = some k) ∧
    ∀ (j : Nat) (b : α), entries[j]? = some b → key b = some k → place ≤ j

/-- The first place of a key of which one of the first elements says something else. -/
def ContestedBefore (n place : Nat) : Prop :=
  ∃ k a, IsFirst entries key k place ∧ entries[place]? = some a ∧
    ∃ (j : Nat) (b : α), j < n ∧ entries[j]? = some b ∧ key b = some k ∧ content b ≠ content a

def Contested (place : Nat) : Prop :=
  ∃ k a, IsFirst entries key k place ∧ entries[place]? = some a ∧
    ∃ (j : Nat) (b : α), entries[j]? = some b ∧ key b = some k ∧ content b ≠ content a

/-- What is remembered of the first elements: where their keys came first. -/
def Notes [DecidableEq κ] (n : Nat) (firsts : List (κ × Nat)) : Prop :=
  ∀ k place, firsts.lookup k = some place ↔ IsFirst entries key k place ∧ place < n

variable {entries key content}

theorem IsFirst.unique {k : κ} {i j : Nat} (hi : IsFirst entries key k i)
    (hj : IsFirst entries key k j) : i = j := by
  obtain ⟨⟨a, ha, hka⟩, hi⟩ := hi
  obtain ⟨⟨b, hb, hkb⟩, hj⟩ := hj
  exact Nat.le_antisymm (hi j b hb hkb) (hj i a ha hka)

/-- Every key that is there comes first somewhere. -/
theorem exists_first {i : Nat} {a : α} {k : κ} (ha : entries[i]? = some a) (hk : key a = some k) :
    ∃ place, place ≤ i ∧ IsFirst entries key k place := by
  induction i using Nat.strong_induction_on generalizing a with
  | _ i ih =>
    by_cases h : ∃ (j : Nat) (b : α), j < i ∧ entries[j]? = some b ∧ key b = some k
    · obtain ⟨j, b, hj, hb, hkb⟩ := h
      obtain ⟨place, hle, hfirst⟩ := ih j hj hb hkb
      exact ⟨place, by omega, hfirst⟩
    · refine ⟨i, Nat.le_refl i, ⟨a, ha, hk⟩, fun j b hb hkb => ?_⟩
      by_contra hlt
      exact h ⟨j, b, by omega, hb, hkb⟩

theorem notes_start [DecidableEq κ] : Notes entries key 0 [] :=
  fun _ _ => ⟨nofun, fun h => absurd h.2 (Nat.not_lt_zero _)⟩

theorem contested_start (place : Nat) : ¬ ContestedBefore entries key content 0 place := by
  rintro ⟨-, -, -, -, j, -, hj, -⟩
  exact Nat.not_lt_zero j hj

theorem contestedBefore_length {place : Nat} :
    ContestedBefore entries key content entries.length place ↔ Contested entries key content place := by
  constructor
  · rintro ⟨k, a, hfirst, ha, j, b, -, hb⟩
    exact ⟨k, a, hfirst, ha, j, b, hb⟩
  · rintro ⟨k, a, hfirst, ha, j, b, hb, hrest⟩
    obtain ⟨hj, -⟩ := List.getElem?_eq_some_iff.mp hb
    exact ⟨k, a, hfirst, ha, j, b, hj, hb, hrest⟩

/-- The turn of an element contests the first place of its key, or nothing. -/
theorem contested_succ {n : Nat} {a : α} (ha : entries[n]? = some a) {place : Nat} :
    ContestedBefore entries key content (n + 1) place ↔ ContestedBefore entries key content n place ∨
      ∃ k b, key a = some k ∧ IsFirst entries key k place ∧ entries[place]? = some b ∧
        content b ≠ content a := by
  constructor
  · rintro ⟨k, b, hfirst, hb, j, c, hj, hc, hk, hne⟩
    by_cases hjn : j < n
    · exact .inl ⟨k, b, hfirst, hb, j, c, hjn, hc, hk, hne⟩
    · obtain rfl : j = n := by omega
      rw [ha, Option.some.injEq] at hc
      subst hc
      exact .inr ⟨k, b, hk, hfirst, hb, hne.symm⟩
  · rintro (⟨k, b, hfirst, hb, j, c, hj, hrest⟩ | ⟨k, b, hk, hfirst, hb, hne⟩)
    · exact ⟨k, b, hfirst, hb, j, c, by omega, hrest⟩
    · exact ⟨k, b, hfirst, hb, n, a, by omega, ha, hk, hne.symm⟩

section Notes

variable [DecidableEq κ] [DecidableEq β] {n : Nat} {firsts : List (κ × Nat)} {lowest : Option Nat}
  {a : α}

/-- No key comes first at an element that has none, or one that came before. -/
theorem notes_same (hnotes : Notes entries key n firsts) (h : ∀ k, ¬ IsFirst entries key k n) :
    Notes entries key (n + 1) firsts := by
  intro k place
  rw [hnotes k place]
  refine and_congr_right fun hfirst => ⟨fun hlt => by omega, fun hlt => ?_⟩
  have hne : place ≠ n := by
    rintro rfl
    exact h k hfirst
  omega

/-- A new key is remembered with its place. -/
theorem notes_new (hnotes : Notes entries key n firsts) {k : κ} (hfirst : IsFirst entries key k n)
    (ha : entries[n]? = some a) (hk : key a = some k) :
    Notes entries key (n + 1) ((k, n) :: firsts) := by
  intro k' place
  by_cases hkk : k' = k
  · subst hkk
    rw [List.lookup_cons_self, Option.some.injEq]
    constructor
    · rintro rfl
      exact ⟨hfirst, Nat.lt_succ_self n⟩
    · rintro ⟨hplace, -⟩
      exact hfirst.unique hplace
  · have hb : (k' == k) = false := by simpa using hkk
    rw [List.lookup_cons, hb]
    simp only
    rw [hnotes k' place]
    refine and_congr_right fun hplace => ⟨fun hlt => by omega, fun hlt => ?_⟩
    have hne : place ≠ n := by
      rintro rfl
      obtain ⟨⟨c, hc, hkc⟩, -⟩ := hplace
      rw [ha, Option.some.injEq] at hc
      subst hc
      rw [hk, Option.some.injEq] at hkc
      exact hkk hkc.symm
    omega

/-- A turn keeps the notes, and adds the first place of its key when that becomes contested. -/
theorem notes_step {others : Set Nat} (ha : entries[n]? = some a)
    (hnotes : Notes entries key n firsts)
    (hlowest : IsLowest ({p | ContestedBefore entries key content n p} ∪ others) lowest) :
    Notes entries key (n + 1) (noteFirst entries key content firsts lowest n a).1 ∧
      IsLowest ({p | ContestedBefore entries key content (n + 1) p} ∪ others)
        (noteFirst entries key content firsts lowest n a).2 := by
  have hsame (h : ∀ p k b, key a = some k → IsFirst entries key k p → entries[p]? = some b →
      content b = content a) : {p | ContestedBefore entries key content (n + 1) p} =
        {p | ContestedBefore entries key content n p} := by
    refine Set.ext fun p => (contested_succ ha).trans (or_iff_left ?_)
    rintro ⟨k, b, hk, hfirst, hb, hne⟩
    exact hne (h p k b hk hfirst hb)
  unfold noteFirst
  cases hk : key a with
  | none =>
    refine ⟨notes_same hnotes fun k hfirst => ?_, ?_⟩
    · obtain ⟨⟨c, hc, hkc⟩, -⟩ := hfirst
      rw [ha, Option.some.injEq] at hc
      rw [← hc, hk] at hkc
      cases hkc
    · rw [hsame fun p k b hk' => by rw [hk] at hk'; cases hk']
      exact hlowest
  | some k =>
    dsimp only
    cases hl : firsts.lookup k with
    | none =>
      obtain ⟨place, hle, hfirst⟩ := exists_first ha hk
      obtain rfl : place = n := by
        by_contra hne
        rw [(hnotes k place).mpr ⟨hfirst, by omega⟩] at hl
        cases hl
      refine ⟨notes_new hnotes hfirst ha hk, ?_⟩
      rw [hsame fun p k' b hk' hp hb => ?_]
      · exact hlowest
      · rw [hk, Option.some.injEq] at hk'
        subst hk'
        obtain rfl := hfirst.unique hp
        rw [ha, Option.some.injEq] at hb
        rw [hb]
    | some first =>
      obtain ⟨hfirst, hlt⟩ := (hnotes k first).mp hl
      have hnone : ∀ k', ¬ IsFirst entries key k' n := by
        rintro k' hn
        obtain ⟨c, hc, hkc⟩ := hn.1
        rw [ha, Option.some.injEq] at hc
        rw [← hc, hk, Option.some.injEq] at hkc
        subst hkc
        have := hn.unique hfirst
        omega
      obtain ⟨b, hb, hkb⟩ := hfirst.1
      dsimp only
      rw [hb, Option.any_some]
      by_cases hne : content b = content a
      · rw [if_neg (by simpa using hne)]
        refine ⟨notes_same hnotes hnone, ?_⟩
        rw [hsame fun p k' c hk' hp hc => ?_]
        · exact hlowest
        · rw [hk, Option.some.injEq] at hk'
          subst hk'
          obtain rfl := hfirst.unique hp
          rw [hb, Option.some.injEq] at hc
          rw [← hc, hne]
      · rw [if_pos (by simpa using hne)]
        refine ⟨notes_same hnotes hnone, ?_⟩
        have hinsert : {p | ContestedBefore entries key content (n + 1) p} ∪ others =
            insert first ({p | ContestedBefore entries key content n p} ∪ others) := by
          ext p
          rw [Set.mem_union, Set.mem_ofPred_eq, contested_succ ha, Set.mem_insert_iff,
            Set.mem_union, Set.mem_ofPred_eq]
          have hplace : (∃ k b, key a = some k ∧ IsFirst entries key k p ∧ entries[p]? = some b ∧
              content b ≠ content a) ↔ p = first := by
            constructor
            · rintro ⟨k', c, hk', hp, -, -⟩
              rw [hk, Option.some.injEq] at hk'
              subst hk'
              exact hp.unique hfirst
            · rintro rfl
              exact ⟨k, b, hk, hfirst, hb, hne⟩
          rw [hplace]
          tauto
        rw [hinsert]
        exact isLowest_lower hlowest first

end Notes

/-- Nothing is contested when all elements of a key say the same. -/
theorem contested_iff : (∃ place, Contested entries key content place) ↔
    ¬ ∀ a ∈ entries, ∀ b ∈ entries, ∀ k, key a = some k → key b = some k →
      content a = content b := by
  constructor
  · rintro ⟨place, k, a, ⟨⟨a', ha', hka⟩, -⟩, ha, j, b, hb, hkb, hne⟩ h
    rw [ha, Option.some.injEq] at ha'
    subst ha'
    exact hne (h b (List.mem_of_getElem? hb) a (List.mem_of_getElem? ha) k hkb hka)
  · intro h
    by_contra hnone
    refine h fun a ha b hb k hka hkb => ?_
    obtain ⟨i, hi⟩ := List.getElem?_of_mem ha
    obtain ⟨j, hj⟩ := List.getElem?_of_mem hb
    obtain ⟨place, -, hfirst⟩ := exists_first hi hka
    obtain ⟨c, hc, -⟩ := hfirst.1
    -- both say what the first element of the key says
    have hsame : ∀ (l : Nat) (d : α), entries[l]? = some d → key d = some k →
        content d = content c := by
      intro l d hd hkd
      by_contra hne
      exact hnone ⟨place, k, c, hfirst, hc, l, d, hd, hkd, hne⟩
    rw [hsame i a hi hka, hsame j b hj hkb]

end First

/-- A loop over a list with its places keeps what every turn keeps. -/
theorem foldl_zipIdx {σ : Type} {entries : List α} {f : σ → α × Nat → σ} {holds : Nat → σ → Prop}
    {s : σ} (hs : holds 0 s)
    (hstep : ∀ n a s, entries[n]? = some a → holds n s → holds (n + 1) (f s (a, n))) :
    holds entries.length (entries.zipIdx.foldl f s) := by
  have hrest : ∀ (rest before : List α) (s : σ), entries = before ++ rest → holds before.length s →
      holds entries.length ((rest.zipIdx before.length).foldl f s) := by
    intro rest
    induction rest with
    | nil =>
      rintro before s rfl hb
      rw [List.append_nil]
      exact hb
    | cons a rest ih =>
      intro before s he hb
      have ha : entries[before.length]? = some a := by simp [he]
      have hnext := hstep before.length a s ha hb
      have := ih (before ++ [a]) (f s (a, before.length)) (by simp [he])
        (by rw [List.length_append, List.length_singleton]; exact hnext)
      rw [List.length_append, List.length_singleton] at this
      exact this
  exact hrest entries [] s rfl hs

end FirstSeen
