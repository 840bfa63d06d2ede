import OnshapeExport.Lib.Json

/-!
# Lib.SortedMap

Finite maps from strings. A map carries the proof that its entries are in the order of their keys,
so that maps with the same entries are equal, whatever order the entries came in.

* `get?_insert`, `get?_remove` — what is read after a change.
* `ext` — a map is told by what is read from it.
* `ofList` — the map of some entries, the first one of a key counting.
-/

namespace Json

theorem get?_cons {α : Type} (key : String) (v : α) (members : List (String × α)) (x : String) :
    get? ((key, v) :: members) x = if key = x then some v else get? members x := by
  by_cases he : key = x
  · subst he
    simp [get?]
  · have hb : (x == key) = false := by simpa using Ne.symm he
    simp [get?, List.lookup_cons, List.lookup_nil, hb, he]

structure SortedMap (α : Type) where
  members : List (String × α)
  sorted : Sorted members
deriving DecidableEq

namespace SortedMap

variable {α β : Type}

def get? (m : SortedMap α) (key : String) : Option α := Json.get? m.members key

def empty : SortedMap α := ⟨[], List.Pairwise.nil⟩

/-- The entries with the one of a key set. -/
def insertMember (key : String) (v : α) : List (String × α) → List (String × α)
  | [] => [(key, v)]
  | (k, w) :: members =>
    if key < k then (key, v) :: (k, w) :: members
    else if key = k then (key, v) :: members
    else (k, w) :: insertMember key v members

theorem keys_insertMember (key : String) (v : α) (members : List (String × α)) {x : String}
    (hx : x ∈ keys (insertMember key v members)) : x = key ∨ x ∈ keys members := by
  induction members with
  | nil =>
    rw [insertMember, keys_cons, keys_nil, List.mem_singleton] at hx
    exact .inl hx
  | cons m members ih =>
    obtain ⟨k, w⟩ := m
    rw [insertMember] at hx
    split at hx
    · rw [keys_cons, List.mem_cons] at hx
      exact hx
    · split at hx
      · rename_i he
        rw [keys_cons, List.mem_cons] at hx
        exact hx.imp_right fun h => List.mem_cons_of_mem _ h
      · rw [keys_cons, List.mem_cons] at hx
        obtain rfl | hx := hx
        · exact .inr List.mem_cons_self
        · exact (ih hx).imp_right fun h => List.mem_cons_of_mem _ h

theorem sorted_insertMember (key : String) (v : α) {members : List (String × α)}
    (h : Sorted members) : Sorted (insertMember key v members) := by
  induction members with
  | nil => exact List.pairwise_singleton _ _
  | cons m members ih =>
    obtain ⟨k, w⟩ := m
    rw [Sorted, keys_cons, List.pairwise_cons] at h
    rw [insertMember]
    split
    · rename_i hlt
      rw [Sorted, keys_cons, List.pairwise_cons, keys_cons, List.pairwise_cons]
      refine ⟨fun x hx => ?_, h⟩
      obtain rfl | hx := List.mem_cons.mp hx
      · exact hlt
      · exact hlt.trans (h.1 x hx)
    · rename_i hlt
      split
      · rename_i he
        rw [Sorted, keys_cons, List.pairwise_cons, he]
        exact h
      · rename_i hne
        rw [Sorted, keys_cons, List.pairwise_cons]
        refine ⟨fun x hx => ?_, ih h.2⟩
        obtain rfl | hx := keys_insertMember key v members hx
        · exact lt_of_le_of_ne (not_lt.mp hlt) (Ne.symm hne)
        · exact h.1 x hx

theorem get?_insertMember (key : String) (v : α) (members : List (String × α)) (x : String) :
    Json.get? (insertMember key v members) x =
      if key = x then some v else Json.get? members x := by
  induction members with
  | nil => exact get?_cons key v [] x
  | cons m members ih =>
    obtain ⟨k, w⟩ := m
    rw [insertMember]
    split
    · exact get?_cons key v _ x
    · split
      · rename_i he
        rw [get?_cons, get?_cons, he]
        split <;> rfl
      · rename_i hne
        rw [get?_cons, get?_cons, ih]
        by_cases hk : key = x
        · rw [if_pos hk, if_neg (fun h => hne (hk.trans h.symm)), if_pos hk]
        · rw [if_neg hk, if_neg hk]

def insert (m : SortedMap α) (key : String) (v : α) : SortedMap α :=
  ⟨insertMember key v m.members, sorted_insertMember key v m.sorted⟩

def remove (m : SortedMap α) (key : String) : SortedMap α where
  members := m.members.filter fun e => e.1 ≠ key
  sorted := by
    have hsub : (keys (m.members.filter fun e => e.1 ≠ key)).Sublist (keys m.members) :=
      List.filter_sublist.map _
    exact m.sorted.sublist hsub

@[simp] theorem get?_empty (key : String) : (empty : SortedMap α).get? key = none := rfl

@[simp] theorem get?_insert (m : SortedMap α) (key : String) (v : α) (x : String) :
    (m.insert key v).get? x = if key = x then some v else m.get? x :=
  get?_insertMember key v m.members x

theorem get?_eq_some {m : SortedMap α} {key : String} {v : α} :
    m.get? key = some v ↔ (key, v) ∈ m.members :=
  ⟨mem_of_get?, get?_of_mem m.sorted.nodup⟩

@[simp] theorem get?_remove (m : SortedMap α) (key x : String) :
    (m.remove key).get? x = if key = x then none else m.get? x := by
  apply Option.ext
  intro v
  rw [get?_eq_some]
  by_cases hk : key = x
  · subst hk
    simp [remove]
  · rw [if_neg hk, get?_eq_some]
    simp [remove, Ne.symm hk]

/-- A map is told by what is read from it. -/
@[ext]
theorem ext {m m' : SortedMap α} (h : ∀ key, m.get? key = m'.get? key) : m = m' := by
  have hmem (e : String × α) : e ∈ m.members ↔ e ∈ m'.members := by
    obtain ⟨k, v⟩ := e
    rw [← get?_eq_some, ← get?_eq_some, h]
  have hnodup (m : SortedMap α) : m.members.Nodup := m.sorted.nodup.of_map
  have hperm : m.members.Perm m'.members :=
    (List.perm_ext_iff_of_nodup (hnodup m) (hnodup m')).mpr hmem
  have hlt (m : SortedMap α) : m.members.Pairwise fun a b => a.1 < b.1 :=
    List.pairwise_map.mp m.sorted
  have heq : m.members = m'.members :=
    hperm.eq_of_pairwise (fun a b _ _ hab hba => absurd hab (lt_asymm hba)) (hlt m) (hlt m')
  cases m
  cases m'
  simp only at heq
  subst heq
  rfl

/-- The map of some entries, the first one of a key counting. -/
def ofList (entries : List (String × α)) : SortedMap α :=
  entries.foldr (fun e m => m.insert e.1 e.2) empty

@[simp] theorem get?_ofList (entries : List (String × α)) (key : String) :
    (ofList entries).get? key = Json.get? entries key := by
  induction entries with
  | nil => rfl
  | cons e entries ih =>
    obtain ⟨k, v⟩ := e
    rw [ofList, List.foldr_cons, get?_insert, get?_cons, ← ih]
    rfl

/-- The entries whose keys are kept. -/
def filterKeys (keep : String → Bool) (m : SortedMap α) : SortedMap α where
  members := m.members.filter fun e => keep e.1
  sorted := by
    have hsub : (keys (m.members.filter fun e => keep e.1)).Sublist (keys m.members) :=
      List.filter_sublist.map _
    exact m.sorted.sublist hsub

@[simp] theorem get?_filterKeys (keep : String → Bool) (m : SortedMap α) (x : String) :
    (m.filterKeys keep).get? x = if keep x = true then m.get? x else none := by
  apply Option.ext
  intro v
  by_cases hk : keep x = true
  · rw [if_pos hk, get?_eq_some, get?_eq_some]
    simp [filterKeys, hk]
  · rw [if_neg hk, get?_eq_some]
    simp [filterKeys, hk]

/-- The map with every value changed. -/
def map (f : α → β) (m : SortedMap α) : SortedMap β where
  members := m.members.map fun e => (e.1, f e.2)
  sorted := by
    have hk : keys (m.members.map fun e => (e.1, f e.2)) = keys m.members := by simp [keys]
    rw [Sorted, hk]
    exact m.sorted

end SortedMap

end Json
