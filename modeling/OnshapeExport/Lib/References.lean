import Mathlib.Data.List.Basic

/-!
# Lib.References

Tables that refer to each other, and the deletion of all rows of some of them, one table after the
other. A table cannot be emptied while a row elsewhere refers to one of its rows; it always can
when the tables that refer to it are emptied before it.

* `deleteAll` and `clear` — the deletion of one table and of several.
* `ChildrenFirst` — an order of the tables in which nothing is in the way.
* `clear_childrenFirst` — in such an order everything is deleted, and nothing else.
-/

namespace References

/-- The tables by their names. -/
abbrev Tables (ν ρ : Type) := ν → List ρ

/-- A row of the child can refer to a row of the parent. -/
structure Reference (ν ρ : Type) where
  child : ν
  parent : ν
  refers : ρ → ρ → Bool

variable {ν ρ : Type} [DecidableEq ν]

/-- A row of another table refers to a row of this one. -/
def referenced (references : List (Reference ν ρ)) (tables : Tables ν ρ) (table : ν) : Bool :=
  references.any fun r => decide (r.parent = table) && decide (r.child ≠ table) &&
    (tables r.child).any fun row => (tables table).any fun target => r.refers row target

def deleteAll (references : List (Reference ν ρ)) (tables : Tables ν ρ) (table : ν) :
    Option (Tables ν ρ) :=
  if referenced references tables table then none
  else some fun name => if name = table then [] else tables name

def clear (references : List (Reference ν ρ)) : Tables ν ρ → List ν → Option (Tables ν ρ)
  | tables, [] => some tables
  | tables, table :: rest =>
    (deleteAll references tables table).bind fun tables => clear references tables rest

/-- Whatever refers to a table comes before it. -/
def ChildrenFirst (references : List (Reference ν ρ)) : List ν → List ν → Prop
  | _, [] => True
  | done, table :: rest =>
    (∀ r ∈ references, r.parent = table → r.child = table ∨ r.child ∈ done) ∧
      ChildrenFirst references (table :: done) rest

instance decidableChildrenFirst (references : List (Reference ν ρ)) :
    (done tables : List ν) → Decidable (ChildrenFirst references done tables)
  | _, [] => .isTrue trivial
  | done, table :: rest =>
    have := decidableChildrenFirst references (table :: done) rest
    inferInstanceAs (Decidable (_ ∧ _))

variable {references : List (Reference ν ρ)} {tables : Tables ν ρ} {done : List ν}

/-- Nothing refers to a table once the tables are empty that could. -/
theorem referenced_eq_false {table : ν} (hdone : ∀ name ∈ done, tables name = [])
    (h : ∀ r ∈ references, r.parent = table → r.child = table ∨ r.child ∈ done) :
    referenced references tables table = false := by
  refine List.any_eq_false.mpr fun r hr hrefers => ?_
  simp only [Bool.and_eq_true, decide_eq_true_eq] at hrefers
  obtain ⟨⟨hparent, hchild⟩, hrow⟩ := hrefers
  rcases h r hr hparent with hself | hbefore
  · exact hchild hself
  · rw [hdone _ hbefore] at hrow
    cases hrow

theorem clear_childrenFirst {names : List ν} (hdone : ∀ name ∈ done, tables name = [])
    (h : ChildrenFirst references done names) :
    clear references tables names = some fun name => if name ∈ names then [] else tables name := by
  induction names generalizing done tables with
  | nil => simp [clear]
  | cons table rest ih =>
    obtain ⟨hfirst, hrest⟩ := h
    have hdeleted : deleteAll references tables table =
        some fun name => if name = table then [] else tables name := by
      rw [deleteAll, referenced_eq_false hdone hfirst]
      rfl
    have hempty : ∀ name ∈ table :: done, (if name = table then [] else tables name) = [] := by
      intro name hname
      rcases List.mem_cons.mp hname with heq | hbefore
      · rw [if_pos heq]
      · rw [hdone name hbefore, ite_self]
    rw [clear, hdeleted, Option.bind_some, ih hempty hrest]
    refine congrArg some (funext fun name => ?_)
    by_cases hname : name = table
    · simp [hname]
    · simp [hname]

end References
