import OnshapeExport.Recipes
import OnshapeExport.Lib.Trace

/-!
# RecipeImmutability

`insert_generator_processing_recipe_fields` called by anyone with anything, one transaction after
the other. Occurrence rows that clash are skipped and the rows of the hash compared afterwards, so a
call answers `Ok` only for what is stored. The comparison does not ask what was stored before: a
call that brings all stored occurrences and more of them extends the recipe.

* `insertFields_ok` — what a call that succeeds has found and left.
* `insertFields_repeat`, `insertFields_conflict` — an exact repeat, and rows that are taken.
* `kept_iff`, `immutable_iff` — nothing stored changes exactly when no call extends a recipe.
-/

namespace OnshapeExport
namespace Recipes

open Relational Trace

/-- The arguments of a call; the hash of the recipe is bound in every occurrence. -/
structure RecipeInsert where
  recipe : RecipeRow
  occurrences : List OccurrenceRow
  own : ∀ o ∈ occurrences, o.processingHash = recipe.processingHash

abbrev RecipeInsert.hash (c : RecipeInsert) : String := c.recipe.processingHash

def RecipeInsert.call (c : RecipeInsert) (t : RecipeTables) :
    Except DbError (Bool × RecipeTables) :=
  insertGeneratorProcessingRecipeFields c.recipe c.occurrences t

/-- A transaction that fails leaves the tables as they were. -/
def transact (t : RecipeTables) (c : RecipeInsert) : RecipeTables :=
  match c.call t with
  | .error _ => t
  | .ok (_, t') => t'

/-- The rows of every stored recipe are still what they were. -/
def Kept (t t' : RecipeTables) : Prop :=
  ∀ h row, t.recipes.find? h = some row →
    t'.recipes.find? h = some row ∧ t'.occurrencesOf h = t.occurrencesOf h

theorem Kept.refl (t : RecipeTables) : Kept t t := fun _ _ hrow => ⟨hrow, rfl⟩

theorem Kept.trans {t t' t'' : RecipeTables} (h₁ : Kept t t') (h₂ : Kept t' t'') : Kept t t'' := by
  intro h row hrow
  obtain ⟨hrow', hocc⟩ := h₁ h row hrow
  obtain ⟨hrow'', hocc'⟩ := h₂ h row hrow'
  exact ⟨hrow'', hocc'.trans hocc⟩

/-! ## One call -/

section Call

variable {t t' : RecipeTables} {c : RecipeInsert} {inserted : Bool}

theorem mem_occurrencesOf {h : String} {o : OccurrenceRow} :
    o ∈ t.occurrencesOf h ↔ o ∈ t.occurrences.rows ∧ o.processingHash = h := by
  simp [RecipeTables.occurrencesOf, List.mem_insertionSort]

theorem mem_insertOccurrences_of_mem {rows : List OccurrenceRow} {u : Table OccurrenceRow}
    {o : OccurrenceRow} (h : o ∈ u.rows) : o ∈ (insertOccurrences rows u).rows := by
  induction rows generalizing u with
  | nil => exact h
  | cons r rows ih => exact ih (Table.mem_insertOrIgnore_of_mem h)

theorem insertFields_ok (h : c.call t = .ok (inserted, t')) :
    inserted = (t.recipes.find? c.hash).isNone ∧
      t'.recipes = (t.recipes.insertOrIgnore c.recipe).2 ∧
      t'.occurrences = insertOccurrences c.occurrences t.occurrences ∧
      t'.recipes.find? c.hash = some c.recipe ∧ t'.occurrencesOf c.hash = c.occurrences := by
  simp only [RecipeInsert.call, insertGeneratorProcessingRecipeFields] at h
  split at h
  · cases h
  · rename_i hrow
    split at h
    · cases h
    · rename_i hocc
      cases h
      refine ⟨?_, rfl, rfl, not_not.mp hrow, not_not.mp hocc⟩
      exact (Table.insertOrIgnore_keyed (fun _ _ hc => hc) t.recipes c.recipe).1

/-- The rows of other recipes are never touched. -/
theorem occurrencesOf_other (h : c.call t = .ok (inserted, t')) {k : String} (hk : k ≠ c.hash) :
    t'.occurrencesOf k = t.occurrencesOf k := by
  obtain ⟨-, -, hocc, -, -⟩ := insertFields_ok h
  have hagree : Table.Agree (fun o => decide (o.processingHash = k)) t.occurrences
      (insertOccurrences c.occurrences t.occurrences) := by
    refine agree_insertOccurrences _ fun o ho => ?_
    rw [c.own o ho]
    exact decide_eq_false hk.symm
  rw [RecipeTables.occurrencesOf, RecipeTables.occurrencesOf, hocc]
  exact congrArg _ hagree.symm

/-- What a call that succeeds changes of the stored rows is the occurrences of its own recipe. -/
theorem kept_of_ok (h : c.call t = .ok (inserted, t')) :
    Kept t t' ↔ ∀ row, t.recipes.find? c.hash = some row → t.occurrencesOf c.hash = c.occurrences := by
  obtain ⟨-, hrec, -, hfind, hocc⟩ := insertFields_ok h
  constructor
  · intro hkept row hrow
    rw [← (hkept c.hash row hrow).2, hocc]
  · intro hsame k row hrow
    refine ⟨by rw [hrec]; exact Table.find?_insertOrIgnore hrow, ?_⟩
    by_cases hk : k = c.hash
    · subst hk
      rw [hocc, hsame row hrow]
    · exact occurrencesOf_other h hk

theorem transact_ok (h : c.call t = .ok (inserted, t')) : transact t c = t' := by
  rw [transact, h]

theorem transact_error {e : DbError} (h : c.call t = .error e) : transact t c = t := by
  rw [transact, h]

/-- Occurrences that are stored already are skipped. -/
theorem insertOccurrences_stored {rows : List OccurrenceRow} {u : Table OccurrenceRow}
    (h : ∀ o ∈ rows, o ∈ u.rows) : insertOccurrences rows u = u := by
  induction rows generalizing u with
  | nil => rfl
  | cons r rows ih =>
    have hskip : (u.insertOrIgnore r).2 = u := by
      have hnone : u.insert? r = none :=
        Table.insert?_eq_none.mpr ⟨r, h r List.mem_cons_self, Schema.clash_of_key rfl⟩
      rw [Table.insertOrIgnore, hnone]
    simp only [insertOccurrences, List.foldl_cons, hskip]
    exact ih fun o ho => h o (List.mem_cons_of_mem _ ho)

theorem insertOrIgnore_stored {row : RecipeRow} {u : Table RecipeRow}
    (h : u.find? row.processingHash = some row) : u.insertOrIgnore row = (false, u) := by
  have hnone : u.insert? row = none := Table.insert?_eq_none.mpr ⟨row, Table.find?_mem h, rfl⟩
  rw [Table.insertOrIgnore, hnone]

/-- An exact repeat answers that nothing was inserted, and inserts nothing. -/
theorem insertFields_repeat (hrow : t.recipes.find? c.hash = some c.recipe)
    (hocc : t.occurrencesOf c.hash = c.occurrences) : c.call t = .ok (false, t) := by
  have hstored : ∀ o ∈ c.occurrences, o ∈ t.occurrences.rows := by
    intro o ho
    rw [← hocc] at ho
    exact (mem_occurrencesOf.mp ho).1
  simp only [RecipeInsert.call, insertGeneratorProcessingRecipeFields, insertOrIgnore_stored hrow,
    insertOccurrences_stored hstored]
  rw [if_neg (not_not.mpr hrow), if_neg (not_not.mpr hocc)]

/-- Two rows of the argument that clash, or one that clashes with a row that is not in the
argument, make the call fail. -/
theorem insertFields_conflict (h : c.call t = .ok (inserted, t')) :
    (c.occurrences.Pairwise fun a b => ¬ Schema.clash a b) ∧
      ∀ o ∈ c.occurrences, ∀ a ∈ t.occurrences.rows, Schema.clash a o → a = o := by
  obtain ⟨-, -, hins, -, hocc⟩ := insertFields_ok h
  have hmem : ∀ o ∈ c.occurrences, o ∈ t'.occurrences.rows := by
    intro o ho
    rw [← hocc] at ho
    exact (mem_occurrencesOf.mp ho).1
  constructor
  · have hpw := t'.occurrences.unique.filter fun r => decide (r.processingHash = c.hash)
    rw [← hocc]
    refine (List.perm_insertionSort _ _).symm.pairwise hpw ?_
    intro a b hab hba
    exact hab (Schema.clash_symm hba)
  · intro o ho a ha hc
    by_contra hne
    have ha' : a ∈ t'.occurrences.rows := by
      rw [hins]
      exact mem_insertOccurrences_of_mem ha
    exact Table.not_clash ha' (hmem o ho) hne hc

end Call

/-! ## When a call extends a recipe -/

section Extends

variable {t t' : RecipeTables} {c : RecipeInsert} {inserted : Bool}

/-- The recipe is stored with fewer occurrences than the call brings, and nothing is in the way of
the others: the call brings all that are stored, in order, and no row clashes with a new one. -/
structure Extends (t : RecipeTables) (c : RecipeInsert) : Prop where
  stored : t.recipes.find? c.hash = some c.recipe
  more : t.occurrencesOf c.hash ≠ c.occurrences
  all : ∀ o ∈ t.occurrencesOf c.hash, o ∈ c.occurrences
  ordered : c.occurrences.Pairwise fun a b => a.occurrenceOrder ≤ b.occurrenceOrder
  distinct : c.occurrences.Pairwise fun a b => ¬ Schema.clash a b
  free : ∀ o ∈ c.occurrences, ∀ a ∈ t.occurrences.rows, Schema.clash a o → a = o

theorem occurrencesOf_sorted (t : RecipeTables) (h : String) :
    (t.occurrencesOf h).Pairwise fun a b => a.occurrenceOrder ≤ b.occurrenceOrder :=
  List.pairwise_insertionSort _ _

/-- Rows that clash with nothing but themselves all get in. -/
theorem mem_insertOccurrences_free {rows : List OccurrenceRow} {u : Table OccurrenceRow}
    (hd : rows.Pairwise fun a b => ¬ Schema.clash a b)
    (hf : ∀ o ∈ rows, ∀ a ∈ u.rows, Schema.clash a o → a = o) {o : OccurrenceRow} (ho : o ∈ rows) :
    o ∈ (insertOccurrences rows u).rows := by
  induction rows generalizing u with
  | nil => cases ho
  | cons r rows ih =>
    obtain ⟨hr, hd⟩ := List.pairwise_cons.mp hd
    have hself : r ∈ (u.insertOrIgnore r).2.rows := by
      rcases Table.self_mem_insertOrIgnore u r with h | ⟨a, ha, hc⟩
      · exact h
      · rw [hf r List.mem_cons_self a ha hc] at ha
        exact Table.mem_insertOrIgnore_of_mem ha
    rcases List.mem_cons.mp ho with rfl | ho
    · show o ∈ (insertOccurrences rows (u.insertOrIgnore o).2).rows
      exact mem_insertOccurrences_of_mem hself
    · refine ih hd ?_ ho
      intro o' ho' a ha hc
      rcases Table.mem_insertOrIgnore ha with ha | rfl
      · exact hf o' (List.mem_cons_of_mem _ ho') a ha hc
      · exact absurd hc (hr o' ho')

/-- A call that extends a recipe is answered `Ok`. -/
theorem call_of_extends (h : Extends t c) : ∃ t', c.call t = .ok (false, t') := by
  let after : RecipeTables := ⟨t.recipes, insertOccurrences c.occurrences t.occurrences⟩
  have hmem : ∀ o, o ∈ after.occurrencesOf c.hash ↔ o ∈ c.occurrences := by
    intro o
    rw [mem_occurrencesOf]
    constructor
    · rintro ⟨ho, hown⟩
      rcases mem_insertOccurrences ho with ho | ho
      · exact h.all o (mem_occurrencesOf.mpr ⟨ho, hown⟩)
      · exact ho
    · intro ho
      exact ⟨mem_insertOccurrences_free h.distinct h.free ho, c.own o ho⟩
  have hnodup : ∀ {l : List OccurrenceRow}, (l.Pairwise fun a b => ¬ Schema.clash a b) →
      l.Nodup := by
    intro l hl
    exact hl.imp fun hc he => hc (Schema.clash_of_key (congrArg Schema.key he))
  have hdistinct : (after.occurrencesOf c.hash).Pairwise fun a b => ¬ Schema.clash a b := by
    refine (List.perm_insertionSort _ _).symm.pairwise (after.occurrences.unique.filter _) ?_
    intro a b hab hba
    exact hab (Schema.clash_symm hba)
  have hperm : (after.occurrencesOf c.hash).Perm c.occurrences :=
    (List.perm_ext_iff_of_nodup (hnodup hdistinct) (hnodup h.distinct)).mpr hmem
  have hocc : after.occurrencesOf c.hash = c.occurrences := by
    refine hperm.eq_of_pairwise ?_ (occurrencesOf_sorted after c.hash) h.ordered
    intro a b ha hb hab hba
    -- the order is unique within a recipe
    have horder : a.occurrenceOrder = b.occurrenceOrder := Int.le_antisymm hab hba
    have ha' := mem_occurrencesOf.mp ha
    have hb' := mem_occurrencesOf.mp ((hmem b).mpr hb)
    by_contra hne
    exact Table.not_clash ha'.1 hb'.1 hne (.inr ⟨ha'.2.trans hb'.2.symm, .inl horder⟩)
  refine ⟨after, ?_⟩
  simp only [RecipeInsert.call, insertGeneratorProcessingRecipeFields,
    insertOrIgnore_stored h.stored]
  rw [if_neg (not_not.mpr h.stored), if_neg (not_not.mpr hocc)]

/-- A call changes rows that are stored exactly when it extends a recipe. -/
theorem kept_iff (t : RecipeTables) (c : RecipeInsert) : Kept t (transact t c) ↔ ¬ Extends t c := by
  constructor
  · intro hkept h
    obtain ⟨t', hok⟩ := call_of_extends h
    rw [transact_ok hok, kept_of_ok hok] at hkept
    exact h.more (hkept _ h.stored)
  · intro hext
    cases hcall : c.call t with
    | error e => rw [transact_error hcall]; exact .refl t
    | ok out =>
      obtain ⟨inserted, t'⟩ := out
      rw [transact_ok hcall, kept_of_ok hcall]
      obtain ⟨-, hrec, hins, hfind, hocc⟩ := insertFields_ok hcall
      obtain ⟨hdistinct, hfree⟩ := insertFields_conflict hcall
      intro row hrow
      by_contra hmore
      have hstored : t.recipes.find? c.hash = some c.recipe := by
        have hstays : t'.recipes.find? c.hash = some row := by
          rw [hrec]; exact Table.find?_insertOrIgnore hrow
        rw [hrow, ← hstays, hfind]
      refine hext ⟨hstored, hmore, ?_, ?_, hdistinct, hfree⟩
      · intro o ho
        obtain ⟨ho, hown⟩ := mem_occurrencesOf.mp ho
        rw [← hocc, mem_occurrencesOf, hins]
        exact ⟨mem_insertOccurrences_of_mem ho, hown⟩
      · rw [← hocc]
        exact occurrencesOf_sorted t' c.hash

end Extends

/-! ## Runs -/

/-- What a call answers, and what it answers it for. -/
structure Answers (t : RecipeTables) (c : RecipeInsert) : Prop where
  exact : ∀ inserted, c.call t = .ok (inserted, transact t c) →
    (transact t c).recipes.find? c.hash = some c.recipe ∧
      (transact t c).occurrencesOf c.hash = c.occurrences
  unchanged : ∀ e, c.call t = .error e → transact t c = t
  taken : (∃ o ∈ c.occurrences, ∃ a ∈ t.occurrences.rows, Schema.clash a o ∧ a ≠ o) →
    ∃ e, c.call t = .error e
  repeated : ¬ (c.occurrences.Pairwise fun a b => ¬ Schema.clash a b) → ∃ e, c.call t = .error e
  again : t.recipes.find? c.hash = some c.recipe → t.occurrencesOf c.hash = c.occurrences →
    c.call t = .ok (false, t)

theorem answers (t : RecipeTables) (c : RecipeInsert) : Answers t c := by
  have herror : (∀ inserted t', c.call t ≠ .ok (inserted, t')) → ∃ e, c.call t = .error e := by
    intro h
    cases hcall : c.call t with
    | error e => exact ⟨e, rfl⟩
    | ok out => exact absurd hcall (h out.1 out.2)
  constructor
  · intro inserted h
    exact (insertFields_ok h).2.2.2
  · intro e h
    exact transact_error h
  · rintro ⟨o, ho, a, ha, hc, hne⟩
    exact herror fun inserted t' h => hne ((insertFields_conflict h).2 o ho a ha hc)
  · intro hd
    exact herror fun inserted t' h => hd (insertFields_conflict h).1
  · exact fun hrow hocc => insertFields_repeat hrow hocc

/-- Recipes are immutable along a run: what is stored once stays as it was, and every call answers
for what it left. -/
structure Immutable (calls : List RecipeInsert) : Prop where
  kept : ∀ before during after, calls = before ++ during ++ after →
    Kept (run transact .empty before) (run transact .empty (before ++ during))
  answers : Along transact Answers .empty calls

theorem immutable_iff (calls : List RecipeInsert) :
    Immutable calls ↔ Along transact (fun t c => ¬ Extends t c) .empty calls := by
  constructor
  · intro h
    rw [along_iff]
    rintro before c after rfl
    have hkept := h.kept before [c] after (by simp)
    rw [run_append] at hkept
    exact (kept_iff _ c).mp hkept
  · intro h
    refine ⟨?_, along_of_forall answers⟩
    intro before during after hcalls
    rw [hcalls] at h
    have hduring := h.of_append.1.of_append.2
    rw [run_append]
    clear h hcalls
    generalize run transact .empty before = t at hduring
    induction during generalizing t with
    | nil => exact .refl t
    | cons c during ih => exact ((kept_iff t c).mpr hduring.1).trans (ih _ hduring.2)

/-! ## A recipe that is extended -/

def sampleRecipeRow : RecipeRow :=
  ⟨"recipe", 1, "generator", "manifest", "inputs", "settings", "schema", "decision", "supported",
    "{}"⟩

def sampleOccurrence (occurrenceIdentity : String) (order : Int) : OccurrenceRow :=
  ⟨occurrenceIdentity, "recipe", order, "object-" ++ occurrenceIdentity, "content", "sha", 10,
    "inputs/" ++ occurrenceIdentity, "model", none, "{}", "{}", "{}"⟩

/-- The sample recipe with one occurrence. -/
def firstInsert : RecipeInsert :=
  ⟨sampleRecipeRow, [sampleOccurrence "a" 0], by decide⟩

/-- The same recipe with a second one. -/
def secondInsert : RecipeInsert :=
  ⟨sampleRecipeRow, [sampleOccurrence "a" 0, sampleOccurrence "b" 1], by decide⟩

theorem extended_recipe_run : ¬ ∀ calls, Immutable calls := by
  intro h
  have hkept := (h [firstInsert, secondInsert]).kept [firstInsert] [secondInsert] [] rfl
  have hocc := (hkept "recipe" sampleRecipeRow (by decide +kernel)).2
  have hlength := congrArg List.length hocc
  revert hlength
  decide +kernel

end Recipes
end OnshapeExport
