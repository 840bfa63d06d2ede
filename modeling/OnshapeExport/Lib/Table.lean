import Mathlib.Data.List.Find
import Mathlib.Data.List.Pairwise

/-!
# Lib.Table

Relational tables with uniqueness constraints. A `Schema` names the primary key of a row and
when two rows break a `UNIQUE` constraint of the table; a `Table` carries the proof that no two
of its rows do, so a statement can only build tables that a database would accept.

* `insert?` fails when the new row breaks a constraint, `insertOrIgnore` then leaves the table
  alone, `update` and `delete` are the `WHERE` statements.
* `find?_update`, `find?_of_insert?`, `find?_delete` say what a lookup by key reads afterwards.
* `Agree` — two tables have the same rows of a kind; an insertion that could only clash with rows
  of the kind then goes the same way in both.
-/

namespace Relational

/-- The constraints of a table: its primary key and its `UNIQUE` clashes. -/
class Schema (α : Type) (κ : outParam Type) where
  key : α → κ
  clash : α → α → Prop
  clash_of_key : ∀ {a b : α}, key a = key b → clash a b
  clash_symm : ∀ {a b : α}, clash a b → clash b a

structure Table (α : Type) {κ : Type} [Schema α κ] where
  rows : List α
  unique : rows.Pairwise fun a b => ¬ Schema.clash a b

/-- An assignment to columns outside every constraint. -/
structure Preserves {α κ : Type} [Schema α κ] (f : α → α) : Prop where
  key : ∀ a, Schema.key (f a) = Schema.key a
  clash : ∀ a b, Schema.clash (f a) b ↔ Schema.clash a b

namespace Table

variable {α κ : Type} [Schema α κ]

def empty : Table α := ⟨[], .nil⟩

theorem not_clash {t : Table α} {a b : α} (ha : a ∈ t.rows) (hb : b ∈ t.rows) (hne : a ≠ b) :
    ¬ Schema.clash a b :=
  haveI : Std.Symm fun a b : α => ¬ Schema.clash a b := ⟨fun _ _ h hc => h (Schema.clash_symm hc)⟩
  t.unique.forall ha hb hne

section Lookup

variable [DecidableEq κ]

/-- `SELECT … WHERE key = k`. -/
def find? (t : Table α) (k : κ) : Option α := t.rows.find? fun r => Schema.key r = k

theorem find?_eq_some {t : Table α} {k : κ} {r : α} :
    t.find? k = some r ↔ r ∈ t.rows ∧ Schema.key r = k := by
  constructor
  · intro h
    exact ⟨List.mem_of_find?_eq_some h, by simpa using List.find?_some h⟩
  · rintro ⟨hr, hk⟩
    obtain ⟨r', hr'⟩ : ∃ r', t.find? k = some r' := by
      rw [← Option.isSome_iff_exists, find?, List.find?_isSome]
      exact ⟨r, hr, by simpa using hk⟩
    have hmem := List.mem_of_find?_eq_some hr'
    have hk' : Schema.key r' = k := by simpa using List.find?_some hr'
    by_cases he : r' = r
    · rw [hr', he]
    · -- two rows of one key break the constraint
      exact absurd (Schema.clash_of_key (hk'.trans hk.symm)) (not_clash hmem hr he)

theorem find?_eq_none {t : Table α} {k : κ} :
    t.find? k = none ↔ ∀ r ∈ t.rows, Schema.key r ≠ k := by
  simp [find?, List.find?_eq_none]

theorem find?_mem {t : Table α} {k : κ} {r : α} (h : t.find? k = some r) : r ∈ t.rows :=
  (find?_eq_some.mp h).1

theorem find?_key {t : Table α} {k : κ} {r : α} (h : t.find? k = some r) : Schema.key r = k :=
  (find?_eq_some.mp h).2

theorem find?_of_mem {t : Table α} {r : α} (h : r ∈ t.rows) : t.find? (Schema.key r) = some r :=
  find?_eq_some.mpr ⟨h, rfl⟩

@[simp] theorem find?_empty (k : κ) : (empty : Table α).find? k = none := rfl

end Lookup

/-- `UPDATE … SET f WHERE p`. -/
def update (t : Table α) (p : α → Bool) (f : α → α) (hf : Preserves f) : Table α where
  rows := t.rows.map fun r => if p r then f r else r
  unique := by
    refine List.pairwise_map.mpr (t.unique.imp ?_)
    intro a b hab hc
    apply hab
    split at hc <;> split at hc
    · exact Schema.clash_symm ((hf.clash _ _).mp (Schema.clash_symm ((hf.clash _ _).mp hc)))
    · exact (hf.clash _ _).mp hc
    · exact Schema.clash_symm ((hf.clash _ _).mp (Schema.clash_symm hc))
    · exact hc

/-- `rows_affected` of a statement restricted by `p`. -/
def affected (t : Table α) (p : α → Bool) : Nat := t.rows.countP p

/-- `DELETE … WHERE p`. -/
def delete (t : Table α) (p : α → Bool) : Table α where
  rows := t.rows.filter fun r => !p r
  unique := t.unique.filter _

section Insert

variable [DecidableRel (Schema.clash (α := α))]

/-- `INSERT`: `none` when the row breaks a constraint. -/
def insert? (t : Table α) (r : α) : Option (Table α) :=
  if h : ∀ a ∈ t.rows, ¬ Schema.clash a r then
    some ⟨t.rows ++ [r], by
      rw [List.pairwise_append]
      exact ⟨t.unique, by simp, fun a ha b hb => by
        rw [List.mem_singleton] at hb; subst hb; exact h a ha⟩⟩
  else none

/-- `INSERT … ON CONFLICT DO NOTHING`, with whether a row was inserted. -/
def insertOrIgnore (t : Table α) (r : α) : Bool × Table α :=
  match t.insert? r with
  | some t' => (true, t')
  | none => (false, t)

theorem insert?_eq_some {t t' : Table α} {r : α} (h : t.insert? r = some t') :
    t'.rows = t.rows ++ [r] ∧ ∀ a ∈ t.rows, ¬ Schema.clash a r := by
  unfold insert? at h
  split at h
  · rename_i hc; cases h; exact ⟨rfl, hc⟩
  · cases h

theorem insert?_eq_none {t : Table α} {r : α} :
    t.insert? r = none ↔ ∃ a ∈ t.rows, Schema.clash a r := by
  unfold insert?
  split <;> simp_all

theorem find?_of_insert? [DecidableEq κ] {t t' : Table α} {r : α} (h : t.insert? r = some t')
    (k : κ) : t'.find? k = if Schema.key r = k then some r else t.find? k := by
  obtain ⟨hr, hc⟩ := insert?_eq_some h
  have hold : ∀ a ∈ t.rows, Schema.key a ≠ Schema.key r := fun a ha he =>
    hc a ha (Schema.clash_of_key he)
  simp only [find?, hr, List.find?_append]
  by_cases hk : Schema.key r = k
  · have : List.find? (fun a => decide (Schema.key a = k)) t.rows = none := by
      rw [List.find?_eq_none]
      intro a ha
      simpa [← hk] using hold a ha
    simp [this, hk]
  · simp [hk]

theorem mem_insertOrIgnore {t : Table α} {r a : α} (h : a ∈ (t.insertOrIgnore r).2.rows) :
    a ∈ t.rows ∨ a = r := by
  unfold insertOrIgnore at h
  split at h
  · rename_i hi
    rw [(insert?_eq_some hi).1, List.mem_append, List.mem_singleton] at h
    exact h
  · exact .inl h

theorem mem_insertOrIgnore_of_mem {t : Table α} {r a : α} (h : a ∈ t.rows) :
    a ∈ (t.insertOrIgnore r).2.rows := by
  unfold insertOrIgnore
  split
  · rename_i hi
    rw [(insert?_eq_some hi).1]
    exact List.mem_append_left _ h
  · exact h

/-- Either the row is in afterwards, or one it clashes with was there. -/
theorem self_mem_insertOrIgnore (t : Table α) (r : α) :
    r ∈ (t.insertOrIgnore r).2.rows ∨ ∃ a ∈ t.rows, Schema.clash a r := by
  unfold insertOrIgnore
  split
  · rename_i hi
    rw [(insert?_eq_some hi).1]
    exact .inl (List.mem_append_right _ (List.mem_singleton_self r))
  · rename_i hi
    exact .inr (insert?_eq_none.mp hi)

/-- `INSERT … ON CONFLICT DO NOTHING` never changes a row that is there. -/
theorem find?_insertOrIgnore [DecidableEq κ] {t : Table α} {r a : α} {k : κ}
    (h : t.find? k = some a) : (t.insertOrIgnore r).2.find? k = some a := by
  unfold insertOrIgnore
  split
  · rename_i t' hi
    rw [find?_of_insert? hi]
    split
    · rename_i hk
      have hc : Schema.clash a r := Schema.clash_of_key ((find?_key h).trans hk.symm)
      exact absurd hc ((insert?_eq_some hi).2 a (find?_mem h))
    · exact h
  · exact h

/-- Where only rows of one key clash, the row of a key is the first one inserted. -/
theorem insertOrIgnore_keyed [DecidableEq κ]
    (hkey : ∀ a b : α, Schema.clash a b → Schema.key a = Schema.key b) (t : Table α) (r : α) :
    (t.insertOrIgnore r).1 = (t.find? (Schema.key r)).isNone ∧
      ∀ k, (t.insertOrIgnore r).2.find? k =
        if Schema.key r = k then some ((t.find? k).getD r) else t.find? k := by
  unfold insertOrIgnore
  cases hi : t.insert? r with
  | some t' =>
    have hnone : t.find? (Schema.key r) = none := by
      rw [find?_eq_none]
      exact fun a ha he => (insert?_eq_some hi).2 a ha (Schema.clash_of_key he)
    refine ⟨by simp [hnone], fun k => ?_⟩
    rw [find?_of_insert? hi]
    by_cases hk : Schema.key r = k
    · rw [if_pos hk, if_pos hk, ← hk, hnone]; rfl
    · rw [if_neg hk, if_neg hk]
  | none =>
    obtain ⟨a, ha, hc⟩ := insert?_eq_none.mp hi
    have hsome : t.find? (Schema.key r) = some a := find?_eq_some.mpr ⟨ha, hkey a r hc⟩
    refine ⟨by simp [hsome], fun k => ?_⟩
    by_cases hk : Schema.key r = k
    · rw [if_pos hk, ← hk, hsome]; rfl
    · rw [if_neg hk]

end Insert

section Reads

variable [DecidableEq κ]

theorem find?_update {t : Table α} {p : α → Bool} {f : α → α} (hf : Preserves f) (k : κ) :
    (t.update p f hf).find? k = (t.find? k).map fun r => if p r then f r else r := by
  have hkey : ∀ r : α, Schema.key (if p r then f r else r) = Schema.key r := by
    intro r; split
    · exact hf.key r
    · rfl
  simp only [find?, update, List.find?_map]
  congr 1
  exact List.find?_congr fun r _ => by simp [hkey]

theorem find?_delete {t : Table α} {p : α → Bool} (k : κ) :
    (t.delete p).find? k = (t.find? k).filter fun r => !p r := by
  cases h : t.find? k with
  | none =>
    simp only [Option.filter_none]
    rw [find?_eq_none] at h ⊢
    intro r hr
    exact h r (List.mem_filter.mp hr).1
  | some r =>
    obtain ⟨hm, hk⟩ := find?_eq_some.mp h
    by_cases hp : p r = true
    · simp only [Option.filter_some, hp, Bool.not_true, Bool.false_eq_true, if_false]
      rw [find?_eq_none]
      intro a ha hka
      obtain ⟨ham, hpa⟩ := List.mem_filter.mp ha
      have : t.find? k = some a := find?_eq_some.mpr ⟨ham, hka⟩
      rw [h] at this; cases this
      simp [hp] at hpa
    · simp only [Option.filter_some, hp, Bool.not_false, if_true]
      exact find?_eq_some.mpr ⟨List.mem_filter.mpr ⟨hm, by simpa using hp⟩, hk⟩

omit [DecidableEq κ] in
theorem mem_update {t : Table α} {p : α → Bool} {f : α → α} {hf : Preserves f} {r : α} :
    r ∈ (t.update p f hf).rows ↔ ∃ a ∈ t.rows, (if p a then f a else a) = r := by
  simp [update]

/-- A statement that names a key changes the row of that key. -/
theorem mem_update_key {t : Table α} {p : α → Bool} {f : α → α} {hf : Preserves f} {k : κ} {a r : α}
    (hp : ∀ r, p r = true ↔ Schema.key r = k) (ha : a ∈ t.rows) (hk : Schema.key a = k) :
    r ∈ (t.update p f hf).rows ↔ r ∈ t.rows ∧ Schema.key r ≠ k ∨ r = f a := by
  rw [mem_update]
  constructor
  · rintro ⟨b, hb, rfl⟩
    by_cases hkb : Schema.key b = k
    · have hsame := (find?_eq_some.mpr ⟨hb, hkb⟩).symm.trans (find?_eq_some.mpr ⟨ha, hk⟩)
      rw [if_pos ((hp b).mpr hkb), Option.some.inj hsame]
      exact .inr rfl
    · rw [if_neg (fun h => hkb ((hp b).mp h))]
      exact .inl ⟨hb, hkb⟩
  · rintro (⟨hr, hkr⟩ | rfl)
    · exact ⟨r, hr, if_neg fun h => hkr ((hp r).mp h)⟩
    · exact ⟨a, ha, if_pos ((hp a).mpr hk)⟩

omit [DecidableEq κ] in
/-- A statement that matches no row changes nothing. -/
theorem update_eq_self {t : Table α} {p : α → Bool} {f : α → α} {hf : Preserves f}
    (h : ∀ r ∈ t.rows, p r = false) : t.update p f hf = t := by
  have hrows : (t.update p f hf).rows = t.rows := by
    simp only [update]
    rw [List.map_congr_left (g := id) fun r hr => by simp [h r hr], List.map_id]
  cases t
  simp only [update, mk.injEq] at hrows ⊢
  exact hrows

/-- A statement that names a key touches one row exactly when the row is there and matches. -/
theorem affected_eq_one {t : Table α} {p : α → Bool} {k : κ}
    (hp : ∀ r, p r = true → Schema.key r = k) :
    t.affected p = 1 ↔ ∃ r, t.find? k = some r ∧ p r = true := by
  have hle : t.affected p ≤ 1 := by
    rw [affected, List.countP_eq_length_filter]
    have hpw := t.unique.filter p
    match hl : t.rows.filter p with
    | [] => simp
    | [_] => simp
    | a :: b :: rest =>
      rw [hl] at hpw
      have ha : p a = true := by
        have : a ∈ t.rows.filter p := by simp [hl]
        exact (List.mem_filter.mp this).2
      have hb : p b = true := by
        have : b ∈ t.rows.filter p := by simp [hl]
        exact (List.mem_filter.mp this).2
      have hab := List.rel_of_pairwise_cons hpw (List.mem_cons_self)
      exact absurd (Schema.clash_of_key ((hp a ha).trans (hp b hb).symm)) hab
  constructor
  · intro h
    have hpos : 0 < t.rows.countP p := by rw [affected] at h; omega
    obtain ⟨r, hr, hpr⟩ := List.countP_pos_iff.mp hpos
    exact ⟨r, find?_eq_some.mpr ⟨hr, hp r hpr⟩, hpr⟩
  · rintro ⟨r, hr, hpr⟩
    have hpos : 0 < t.rows.countP p := List.countP_pos_iff.mpr ⟨r, find?_mem hr, hpr⟩
    rw [affected] at hle ⊢
    omega

end Reads

/-! ## Tables that agree on some rows -/

def Agree (q : α → Bool) (t t' : Table α) : Prop := t.rows.filter q = t'.rows.filter q

section Agree

variable {q : α → Bool} {t t' : Table α} {r : α}

theorem Agree.refl (t : Table α) : Agree q t t := rfl

theorem Agree.trans {t'' : Table α} (h : Agree q t t') (h' : Agree q t' t'') : Agree q t t'' :=
  Eq.trans h h'

theorem Agree.mem (h : Agree q t t') (hr : r ∈ t.rows) (hq : q r = true) : r ∈ t'.rows := by
  have : r ∈ t.rows.filter q := List.mem_filter.mpr ⟨hr, hq⟩
  rw [h] at this
  exact (List.mem_filter.mp this).1

theorem Agree.delete {p : α → Bool} (h : Agree q t t') : Agree q (t.delete p) (t'.delete p) := by
  simp only [Agree, Table.delete, List.filter_filter, Bool.and_comm (q _)]
  rw [← List.filter_filter, ← List.filter_filter, h]

theorem agree_delete {p : α → Bool} (hp : ∀ a, q a = true → p a = false) :
    Agree q t (t.delete p) := by
  simp only [Agree, Table.delete, List.filter_filter]
  refine (List.filter_congr fun a _ => ?_).symm
  cases hq : q a with
  | false => rfl
  | true => simp [hp a hq]

variable [DecidableRel (Schema.clash (α := α))]

theorem agree_insert? {t₁ : Table α} (h : t.insert? r = some t₁) (hq : q r = false) :
    Agree q t t₁ := by
  simp [Agree, (insert?_eq_some h).1, List.filter_append, hq]

theorem agree_insertOrIgnore (hq : q r = false) : Agree q t (t.insertOrIgnore r).2 := by
  unfold insertOrIgnore
  split
  · rename_i h
    exact agree_insert? h hq
  · rfl

/-- An insertion goes the same way in two tables that agree on the rows it could clash with. -/
theorem Agree.insert? (h : Agree q t t') (hc : ∀ a ∈ t.rows, Schema.clash a r → q a = true)
    (hc' : ∀ a ∈ t'.rows, Schema.clash a r → q a = true) :
    (t.insert? r = none ∧ t'.insert? r = none) ∨
      ∃ t₁ t₁', t.insert? r = some t₁ ∧ t'.insert? r = some t₁' ∧ Agree q t₁ t₁' := by
  cases hi : t.insert? r with
  | none =>
    obtain ⟨a, ha, hclash⟩ := insert?_eq_none.mp hi
    exact .inl ⟨rfl, insert?_eq_none.mpr ⟨a, h.mem ha (hc a ha hclash), hclash⟩⟩
  | some t₁ =>
    cases hi' : t'.insert? r with
    | none =>
      obtain ⟨a, ha, hclash⟩ := insert?_eq_none.mp hi'
      exact absurd hclash ((insert?_eq_some hi).2 a (Agree.mem h.symm ha (hc' a ha hclash)))
    | some t₁' =>
      refine .inr ⟨t₁, t₁', rfl, rfl, ?_⟩
      rw [Agree, (insert?_eq_some hi).1, (insert?_eq_some hi').1, List.filter_append,
        List.filter_append, h]

theorem Agree.insertOrIgnore (h : Agree q t t')
    (hc : ∀ a ∈ t.rows, Schema.clash a r → q a = true)
    (hc' : ∀ a ∈ t'.rows, Schema.clash a r → q a = true) :
    Agree q (t.insertOrIgnore r).2 (t'.insertOrIgnore r).2 := by
  unfold Table.insertOrIgnore
  rcases h.insert? hc hc' with ⟨hi, hi'⟩ | ⟨t₁, t₁', hi, hi', hagree⟩
  · rw [hi, hi']; exact h
  · rw [hi, hi']; exact hagree

end Agree

end Table
end Relational
