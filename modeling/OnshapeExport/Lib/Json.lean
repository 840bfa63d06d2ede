import Mathlib.Algebra.Ring.Int.Defs
import Mathlib.Algebra.Ring.Nat
import Mathlib.Data.List.Sort
import Mathlib.Data.Rat.Defs
import Mathlib.Data.String.Basic

/-!
# Lib.Json

JSON values. The members of an object are kept in the order of their keys, so that equal objects
are equal lists; a reader hands them over in that order as well, whatever the text had.

* `Value.Canonical` — keys are in order and distinct at every level, and a number with an integer
  value is an integer.
* `Value.ofFields` — the object of a list of fields in any order.
-/

namespace Json

/-- A finite binary floating-point number: its exact value, or the zero with a minus sign. -/
inductive Scalar where
  | rat (q : ℚ)
  | negZero
deriving DecidableEq

/-- The numeric value, which is what comparisons and arithmetic see. -/
def Scalar.value : Scalar → ℚ
  | .rat q => q
  | .negZero => 0

/-- The scalar without the sign of a zero. -/
def Scalar.settle : Scalar → Scalar
  | .rat q => .rat q
  | .negZero => .rat 0

theorem Scalar.settle_ne (s : Scalar) : s.settle ≠ .negZero := by
  cases s <;> simp [Scalar.settle]

theorem Scalar.settle_eq {s : Scalar} (h : s ≠ .negZero) : s.settle = s := by
  cases s with
  | rat q => rfl
  | negZero => exact absurd rfl h

/-- A number as a reader tells it apart: an integer that fits 64 bits, or a float. -/
inductive Number where
  | int (n : Int)
  | float (s : Scalar)
deriving DecidableEq

def inIntRange (n : Int) : Bool := -(2 ^ 63) ≤ n && n < 2 ^ 64

/-- A scalar as its text reads back. -/
def Scalar.number : Scalar → Number
  | .rat q => if q.den = 1 ∧ inIntRange q.num then .int q.num else .float (.rat q)
  | .negZero => .int 0

def Number.scalar : Number → Scalar
  | .int n => .rat n
  | .float s => s

def Number.Canonical : Number → Prop
  | .int n => inIntRange n = true
  | .float s => s ≠ .negZero ∧ s.number = .float s

inductive Value where
  | null
  | bool (b : Bool)
  | number (n : Number)
  | string (s : String)
  | array (items : List Value)
  | object (members : List (String × Value))

/-! ## Equality -/

mutual

def Value.beq : Value → Value → Bool
  | .null, .null => true
  | .bool a, .bool b => a = b
  | .number a, .number b => a = b
  | .string a, .string b => a = b
  | .array a, .array b => Value.beqItems a b
  | .object a, .object b => Value.beqMembers a b
  | _, _ => false

def Value.beqItems : List Value → List Value → Bool
  | [], [] => true
  | v :: vs, w :: ws => v.beq w && Value.beqItems vs ws
  | _, _ => false

def Value.beqMembers : List (String × Value) → List (String × Value) → Bool
  | [], [] => true
  | (k, v) :: vs, (l, w) :: ws => decide (k = l) && v.beq w && Value.beqMembers vs ws
  | _, _ => false

end

mutual

theorem Value.beq_iff : ∀ v w : Value, v.beq w = true ↔ v = w
  | .null, w => by cases w <;> simp [Value.beq]
  | .bool a, w => by cases w <;> simp [Value.beq]
  | .number a, w => by cases w <;> simp [Value.beq]
  | .string a, w => by cases w <;> simp [Value.beq]
  | .array a, w => by cases w <;> simp [Value.beq, Value.beqItems_iff a]
  | .object a, w => by cases w <;> simp [Value.beq, Value.beqMembers_iff a]

theorem Value.beqItems_iff : ∀ vs ws : List Value, Value.beqItems vs ws = true ↔ vs = ws
  | [], ws => by cases ws <;> simp [Value.beqItems]
  | v :: vs, ws => by cases ws <;> simp [Value.beqItems, Value.beq_iff v, Value.beqItems_iff vs]

theorem Value.beqMembers_iff :
    ∀ vs ws : List (String × Value), Value.beqMembers vs ws = true ↔ vs = ws
  | [], ws => by cases ws <;> simp [Value.beqMembers]
  | (k, v) :: vs, ws => by
    cases ws with
    | nil => simp [Value.beqMembers]
    | cons w ws =>
      simp [Value.beqMembers, Value.beq_iff v, Value.beqMembers_iff vs, Prod.ext_iff, and_assoc]

end

instance : DecidableEq Value := fun v w => decidable_of_iff _ (Value.beq_iff v w)

/-! ## Members -/

section Members

variable {α : Type}

/-- The order of the members of an object. -/
def keyLE (a b : String × α) : Prop := a.1 ≤ b.1

instance : DecidableRel (keyLE (α := α)) := fun a b => inferInstanceAs (Decidable (a.1 ≤ b.1))

def sortMembers (members : List (String × α)) : List (String × α) := members.insertionSort keyLE

/-- The value of a key: `Map::get`. -/
def get? (members : List (String × α)) (key : String) : Option α := members.lookup key

def keys (members : List (String × α)) : List String := members.map Prod.fst

@[simp] theorem keys_nil : keys ([] : List (String × α)) = [] := rfl

@[simp] theorem keys_cons (m : String × α) (members : List (String × α)) :
    keys (m :: members) = m.1 :: keys members := rfl

@[simp] theorem keys_append (a b : List (String × α)) : keys (a ++ b) = keys a ++ keys b := by
  simp [keys]

/-- Distinct keys, in order. -/
def Sorted (members : List (String × α)) : Prop := (keys members).Pairwise (· < ·)

instance (members : List (String × α)) : Decidable (Sorted members) :=
  inferInstanceAs (Decidable (List.Pairwise _ _))

theorem get?_eq_none {members : List (String × α)} {key : String} :
    get? members key = none ↔ key ∉ keys members := by
  induction members with
  | nil => simp [get?]
  | cons m members ih =>
    by_cases hk : key = m.1
    · subst hk
      simp [get?, List.lookup_cons, List.lookup_nil]
    · have hb : (key == m.1) = false := by simpa using hk
      rw [keys_cons, List.mem_cons, not_or, ← ih]
      simp [get?, List.lookup_cons, List.lookup_nil, hb, hk]

theorem mem_of_get? {members : List (String × α)} {key : String} {v : α}
    (h : get? members key = some v) : (key, v) ∈ members := by
  induction members with
  | nil => simp [get?] at h
  | cons m members ih =>
    obtain ⟨k, w⟩ := m
    by_cases hk : key = k
    · subst hk
      simp only [get?, List.lookup_cons_self, Option.some.injEq] at h
      subst h
      exact List.mem_cons_self
    · have : (key == k) = false := by simpa using hk
      simp only [get?, List.lookup_cons, List.lookup_nil, this] at h
      exact List.mem_cons_of_mem _ (ih h)

theorem get?_of_mem {members : List (String × α)} {key : String} {v : α}
    (hn : (keys members).Nodup) (h : (key, v) ∈ members) : get? members key = some v := by
  induction members with
  | nil => cases h
  | cons m members ih =>
    obtain ⟨k, w⟩ := m
    rw [keys_cons, List.nodup_cons] at hn
    obtain heq | hm := List.mem_cons.mp h
    · obtain ⟨rfl, rfl⟩ := Prod.mk.inj heq
      simp [get?]
    · have hne : key ≠ k := by
        rintro rfl
        exact hn.1 (List.mem_map.mpr ⟨(key, v), hm, rfl⟩)
      have : (key == k) = false := by simpa using hne
      simp only [get?, List.lookup_cons, List.lookup_nil, this]
      exact ih hn.2 hm

theorem get?_append (a b : List (String × α)) (key : String) :
    get? (a ++ b) key = (get? a key).or (get? b key) := by
  simp [get?, List.lookup_append]

theorem get?_perm {a b : List (String × α)} (hn : (keys a).Nodup) (hp : a.Perm b) (key : String) :
    get? a key = get? b key := by
  have hnb : (keys b).Nodup := (hp.map Prod.fst).nodup_iff.mp hn
  cases ha : get? a key with
  | some v => exact (get?_of_mem hnb (hp.subset (mem_of_get? ha))).symm
  | none =>
    rw [get?_eq_none] at ha
    exact (get?_eq_none.mpr fun hm => ha ((hp.map Prod.fst).symm.subset hm)).symm

theorem Sorted.nodup {members : List (String × α)} (h : Sorted members) : (keys members).Nodup :=
  List.Pairwise.imp (fun hlt => ne_of_lt hlt) h

theorem sortMembers_perm (members : List (String × α)) : (sortMembers members).Perm members :=
  List.perm_insertionSort _ _

theorem sorted_sortMembers {members : List (String × α)} (hn : (keys members).Nodup) :
    Sorted (sortMembers members) := by
  have hnodup : (keys (sortMembers members)).Nodup :=
    ((sortMembers_perm members).map Prod.fst).nodup_iff.mpr hn
  have hle : (keys (sortMembers members)).Pairwise (· ≤ ·) := by
    have : IsTrans (String × α) keyLE := ⟨fun _ _ _ => le_trans⟩
    have : Std.Total (keyLE (α := α)) := ⟨fun a b => le_total a.1 b.1⟩
    exact List.pairwise_map.mpr (List.pairwise_insertionSort keyLE members)
  exact (hle.and hnodup).imp fun h => lt_of_le_of_ne h.1 h.2

theorem get?_sortMembers {members : List (String × α)} (hn : (keys members).Nodup)
    (key : String) : get? (sortMembers members) key = get? members key :=
  (get?_perm hn (sortMembers_perm members).symm key).symm

end Members

/-- The object of some fields: `to_value` of a record. -/
def Value.ofFields (fields : List (String × Value)) : Value := .object (sortMembers fields)

/-- Equal objects have equal fields. -/
theorem Value.get?_of_ofFields_eq {a b : List (String × Value)} (ha : (keys a).Nodup)
    (hb : (keys b).Nodup) (h : Value.ofFields a = Value.ofFields b) (key : String) :
    get? a key = get? b key := by
  rw [← get?_sortMembers ha, ← get?_sortMembers hb, Value.object.inj h]

/-! ## Distinct keys -/

mutual

/-- Whether no object has a key twice. -/
def Value.distinct : Value → Bool
  | .array items => Value.distinctItems items
  | .object members => decide (keys members).Nodup && Value.distinctMembers members
  | _ => true

def Value.distinctItems : List Value → Bool
  | [] => true
  | v :: vs => v.distinct && Value.distinctItems vs

def Value.distinctMembers : List (String × Value) → Bool
  | [] => true
  | (_, v) :: vs => v.distinct && Value.distinctMembers vs

end

/-! ## Canonical values -/

mutual

def Value.Canonical : Value → Prop
  | .null => True
  | .bool _ => True
  | .number n => n.Canonical
  | .string _ => True
  | .array items => Value.CanonicalItems items
  | .object members => Sorted members ∧ Value.CanonicalMembers members

def Value.CanonicalItems : List Value → Prop
  | [] => True
  | v :: vs => v.Canonical ∧ Value.CanonicalItems vs

def Value.CanonicalMembers : List (String × Value) → Prop
  | [] => True
  | (_, v) :: vs => v.Canonical ∧ Value.CanonicalMembers vs

end

theorem Value.canonicalItems_iff (items : List Value) :
    Value.CanonicalItems items ↔ ∀ v ∈ items, v.Canonical := by
  induction items with
  | nil => simp [Value.CanonicalItems]
  | cons v vs ih => simp [Value.CanonicalItems, ih]

theorem Value.canonicalMembers_iff (members : List (String × Value)) :
    Value.CanonicalMembers members ↔ ∀ m ∈ members, m.2.Canonical := by
  induction members with
  | nil => simp [Value.CanonicalMembers]
  | cons m members ih => obtain ⟨k, v⟩ := m; simp [Value.CanonicalMembers, ih]

theorem Value.canonical_ofFields {fields : List (String × Value)} (hn : (keys fields).Nodup)
    (h : ∀ m ∈ fields, m.2.Canonical) : (Value.ofFields fields).Canonical := by
  refine ⟨sorted_sortMembers hn, (Value.canonicalMembers_iff _).mpr fun m hm => ?_⟩
  exact h m ((sortMembers_perm fields).subset hm)

theorem Scalar.number_settle (s : Scalar) : s.settle.number = s.number := by
  cases s with
  | rat q => rfl
  | negZero => simp [Scalar.settle, Scalar.number, inIntRange]

theorem Scalar.number_scalar {s : Scalar} (h : s ≠ .negZero) : s.number.scalar = s := by
  cases s with
  | negZero => exact absurd rfl h
  | rat q =>
    simp only [Scalar.number]
    split
    · rename_i hq
      simp only [Number.scalar, Scalar.rat.injEq]
      exact (Rat.den_eq_one_iff q).mp hq.1
    · rfl

theorem Scalar.number_canonical {s : Scalar} (h : s ≠ .negZero) : s.number.Canonical := by
  cases s with
  | negZero => exact absurd rfl h
  | rat q =>
    simp only [Scalar.number]
    split
    · rename_i hq
      exact hq.2
    · rename_i hq
      exact ⟨by simp, by simp only [Scalar.number, if_neg hq]⟩

end Json
