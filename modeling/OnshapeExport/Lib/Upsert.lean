import OnshapeExport.Lib.Table

/-!
# Lib.Upsert

`INSERT … ON CONFLICT(key) DO UPDATE` over a table with further constraints. The conflict with the
row of the same key is resolved first; any other conflict fails the statement.

* `update?`, `upsert?` — the statements, `none` when a constraint breaks.
* `find?_of_upsert?` — what a lookup by key reads afterwards.
* `upsert?_eq_none` — when the statement fails.
-/

namespace Relational
namespace Table

variable {α κ : Type} [Schema α κ]

/-- An assignment that leaves the constraints of the row as they are. -/
def KeepsRow (f : α → α) (a : α) : Prop :=
  Schema.key (f a) = Schema.key a ∧ ∀ b, Schema.clash (f a) b ↔ Schema.clash a b

section Statements

variable [DecidableEq κ] [DecidableRel (Schema.clash (α := α))]

/-- `UPDATE … SET f WHERE key = k`: `none` when a constraint breaks. -/
def update? (t : Table α) (k : κ) (f : α → α) : Option (Table α) :=
  if h : (t.rows.map fun a => if Schema.key a = k then f a else a).Pairwise
      fun a b => ¬ Schema.clash a b then
    some ⟨_, h⟩
  else none

/-- The row of the key of `r` changed by `f`, or `r` inserted if there is none. -/
def upsert? (t : Table α) (r : α) (f : α → α) : Option (Table α) :=
  match t.find? (Schema.key r) with
  | some _ => t.update? (Schema.key r) f
  | none => t.insert? r

theorem update?_of_keeps {t : Table α} {k : κ} {f : α → α}
    (hf : ∀ a ∈ t.rows, Schema.key a = k → KeepsRow f a) :
    ∃ t', t.update? k f = some t' ∧
      t'.rows = t.rows.map fun a => if Schema.key a = k then f a else a := by
  have hunique : (t.rows.map fun a => if Schema.key a = k then f a else a).Pairwise
      fun a b => ¬ Schema.clash a b := by
    rw [List.pairwise_map]
    refine t.unique.imp_of_mem ?_
    intro a b ha hb hab hclash
    apply hab
    have hleft : ∀ c, Schema.clash (if Schema.key a = k then f a else a) c → Schema.clash a c := by
      intro c hc
      split at hc
      · rename_i hk
        exact ((hf a ha hk).2 c).mp hc
      · exact hc
    have hright : ∀ c, Schema.clash (if Schema.key b = k then f b else b) c → Schema.clash b c := by
      intro c hc
      split at hc
      · rename_i hk
        exact ((hf b hb hk).2 c).mp hc
      · exact hc
    exact Schema.clash_symm (hright a (Schema.clash_symm (hleft _ hclash)))
  exact ⟨⟨_, hunique⟩, dif_pos hunique, rfl⟩

theorem find?_of_upsert? {t t' : Table α} {r : α} {f : α → α}
    (hf : ∀ a ∈ t.rows, Schema.key a = Schema.key r → KeepsRow f a)
    (h : t.upsert? r f = some t') (k : κ) :
    t'.find? k = if Schema.key r = k then some ((t.find? k).elim r f) else t.find? k := by
  unfold upsert? at h
  split at h
  · rename_i a ha
    obtain ⟨t'', ht'', hrows⟩ := update?_of_keeps hf
    rw [h] at ht''
    cases ht''
    by_cases hk : Schema.key r = k
    · rw [if_pos hk, ← hk, ha]
      obtain ⟨hmem, hkey⟩ := find?_eq_some.mp ha
      rw [find?_eq_some, hrows]
      refine ⟨List.mem_map.mpr ⟨a, hmem, if_pos hkey⟩, ?_⟩
      exact (hf a hmem hkey).1.trans hkey
    · rw [if_neg hk]
      cases hfind : t.find? k with
      | none =>
        rw [find?_eq_none] at hfind ⊢
        intro b hb hbk
        rw [hrows] at hb
        obtain ⟨c, hc, rfl⟩ := List.mem_map.mp hb
        split at hbk
        · rename_i hck
          rw [(hf c hc hck).1] at hbk
          exact hfind c hc hbk
        · exact hfind c hc hbk
      | some b =>
        obtain ⟨hb, hbk⟩ := find?_eq_some.mp hfind
        rw [find?_eq_some, hrows]
        refine ⟨List.mem_map.mpr ⟨b, hb, if_neg fun hbr => hk (hbr.symm.trans hbk)⟩, hbk⟩
  · rename_i hnone
    rw [find?_of_insert? h]
    by_cases hk : Schema.key r = k
    · rw [if_pos hk, if_pos hk, ← hk, hnone]
      rfl
    · rw [if_neg hk, if_neg hk]

theorem upsert?_eq_none {t : Table α} {r : α} {f : α → α}
    (hf : ∀ a ∈ t.rows, Schema.key a = Schema.key r → KeepsRow f a) :
    t.upsert? r f = none ↔
      t.find? (Schema.key r) = none ∧ ∃ a ∈ t.rows, Schema.clash a r := by
  unfold upsert?
  split
  · rename_i a ha
    obtain ⟨t', ht', _⟩ := update?_of_keeps hf
    rw [ht']
    simp [ha]
  · rename_i hnone
    rw [insert?_eq_none]
    simp [hnone]

/-- Where only rows of one key clash, the statement never fails. -/
theorem exists_upsert? {t : Table α} {r : α} {f : α → α}
    (hkey : ∀ a b : α, Schema.clash a b → Schema.key a = Schema.key b)
    (hf : ∀ a ∈ t.rows, Schema.key a = Schema.key r → KeepsRow f a) :
    ∃ t', t.upsert? r f = some t' := by
  cases h : t.upsert? r f with
  | some t' => exact ⟨t', rfl⟩
  | none =>
    obtain ⟨hnone, a, ha, hclash⟩ := (upsert?_eq_none hf).mp h
    exact absurd (hkey a r hclash) (find?_eq_none.mp hnone a ha)

end Statements

end Table
end Relational
