import Mathlib.Data.List.Forall2

/-!
# Lib.Checks

Validators as chains of checks that stop at the first error. Acceptance of a chain is the
conjunction of its conditions, and acceptance of a loop is acceptance of every turn.
-/

namespace Checks

variable {ε α β : Type}

def ensure (p : Prop) [Decidable p] (e : ε) : Except ε Unit := if p then .ok () else .error e

theorem exists_of_forall₂ {R : α → β → Prop} {l : List α} {r : List β} (h : List.Forall₂ R l r)
    {a : α} (ha : a ∈ l) : ∃ b ∈ r, R a b := by
  induction h with
  | nil => cases ha
  | cons hab _ ih =>
    rcases List.mem_cons.mp ha with rfl | ha
    · exact ⟨_, List.mem_cons_self, hab⟩
    · obtain ⟨b, hb, hr⟩ := ih ha
      exact ⟨b, List.mem_cons_of_mem _ hb, hr⟩

theorem map_eq_of_forall₂ {γ : Type} {R : α → β → Prop} {l : List α} {r : List β} {f : β → γ}
    {g : α → γ} (h : List.Forall₂ R l r) (hfg : ∀ a b, R a b → f b = g a) : r.map f = l.map g := by
  induction h with
  | nil => rfl
  | cons hab _ ih => rw [List.map_cons, List.map_cons, hfg _ _ hab, ih]

theorem zip_map_eq_of_forall₂ {γ : Type} {R : α → β → Prop} {l : List α} {r : List β}
    {f : α × β → γ} {g : α → γ} (h : List.Forall₂ R l r) (hfg : ∀ a b, R a b → f (a, b) = g a) :
    (l.zip r).map f = l.map g := by
  induction h with
  | nil => rfl
  | cons hab _ ih => rw [List.zip_cons_cons, List.map_cons, List.map_cons, hfg _ _ hab, ih]

theorem mapM_eq_map {f : α → Option β} {g : α → β} {l : List α}
    (h : ∀ a ∈ l, f a = some (g a)) : l.mapM f = some (l.map g) := by
  induction l with
  | nil => rfl
  | cons a l ih =>
    have ha := h a List.mem_cons_self
    have hl := ih fun b hb => h b (List.mem_cons_of_mem _ hb)
    simp [List.mapM_cons, ha, hl]

/-- A check of every element, with its position. -/
def each (check : Nat → α → Except ε Unit) : Nat → List α → Except ε Unit
  | _, [] => .ok ()
  | i, a :: l => do
    check i a
    each check (i + 1) l

/-- The results of a computation on every element, with its position. -/
def traverse (f : Nat → α → Except ε β) : Nat → List α → Except ε (List β)
  | _, [] => .ok []
  | i, a :: l => do
    let b ← f i a
    let bs ← traverse f (i + 1) l
    return b :: bs

/-- A loop that refuses a key it has seen: a check of every element before its key is looked up,
and one after. -/
def eachNew {κ : Type} [DecidableEq κ] (before : Nat → α → Except ε Unit) (key : α → κ)
    (duplicate : Nat → α → ε) (after : Nat → α → Except ε Unit) :
    Nat → List κ → List α → Except ε Unit
  | _, _, [] => .ok ()
  | i, seen, a :: l => do
    before i a
    ensure (key a ∉ seen) (duplicate i a)
    after i a
    eachNew before key duplicate after (i + 1) (key a :: seen) l

/-- A check of a value that may be missing. -/
def whenSome (check : α → Except ε Unit) : Option α → Except ε Unit
  | none => .ok ()
  | some a => check a

theorem bind_ok {x : Except ε α} {f : α → Except ε β} {b : β} :
    (x >>= f) = .ok b ↔ ∃ a, x = .ok a ∧ f a = .ok b := by
  cases x with
  | error e => simp [bind, Except.bind]
  | ok a => simp [bind, Except.bind]

@[simp] theorem seq_ok {x : Except ε Unit} {y : Except ε β} {b : β} :
    (do x; y) = .ok b ↔ x = .ok () ∧ y = .ok b := by
  rw [bind_ok]
  constructor
  · rintro ⟨⟨⟩, hx, hy⟩
    exact ⟨hx, hy⟩
  · rintro ⟨hx, hy⟩
    exact ⟨(), hx, hy⟩

@[simp] theorem ensure_ok {p : Prop} [Decidable p] {e : ε} : ensure p e = .ok () ↔ p := by
  unfold ensure
  split <;> simp_all

@[simp] theorem mapError_ok {ε' : Type} {x : Except ε α} {f : ε → ε'} {a : α} :
    x.mapError f = .ok a ↔ x = .ok a := by
  cases x with
  | error e => simp [Except.mapError]
  | ok b => simp [Except.mapError]

@[simp] theorem whenSome_ok {check : α → Except ε Unit} {o : Option α} :
    whenSome check o = .ok () ↔ ∀ a ∈ o, check a = .ok () := by
  cases o with
  | none => simp [whenSome]
  | some a => simp [whenSome]

theorem bind_error {x : Except ε α} {f : α → Except ε β} {e : ε} :
    (x >>= f) = .error e ↔ x = .error e ∨ ∃ a, x = .ok a ∧ f a = .error e := by
  cases x with
  | error e' => simp [bind, Except.bind]
  | ok a => simp [bind, Except.bind]

theorem ensure_error {p : Prop} [Decidable p] {e e' : ε} :
    ensure p e = .error e' ↔ ¬ p ∧ e = e' := by
  unfold ensure
  split <;> simp_all

theorem mapError_error {ε' : Type} {x : Except ε α} {f : ε → ε'} {e' : ε'} :
    x.mapError f = .error e' ↔ ∃ e, x = .error e ∧ f e = e' := by
  cases x with
  | error e => simp [Except.mapError]
  | ok b => simp [Except.mapError]

theorem each_ok {check : Nat → α → Except ε Unit} {l : List α} {n : Nat} :
    each check n l = .ok () ↔ ∀ i a, l[i]? = some a → check (n + i) a = .ok () := by
  induction l generalizing n with
  | nil => simp [each]
  | cons b l ih =>
    rw [each, seq_ok, ih]
    constructor
    · rintro ⟨hb, hl⟩ i a ha
      cases i with
      | zero =>
        simp only [List.getElem?_cons_zero, Option.some.injEq] at ha
        subst ha
        exact hb
      | succ i =>
        rw [List.getElem?_cons_succ] at ha
        have := hl i a ha
        rwa [show n + 1 + i = n + (i + 1) by omega] at this
    · intro h
      refine ⟨h 0 b rfl, fun i a ha => ?_⟩
      rw [show n + 1 + i = n + (i + 1) by omega]
      exact h (i + 1) a (by rw [List.getElem?_cons_succ]; exact ha)

/-- A check whose outcome does not depend on the position. -/
theorem each_ok_mem {check : Nat → α → Except ε Unit} {P : α → Prop} {l : List α} {n : Nat}
    (hP : ∀ i a, check i a = .ok () ↔ P a) : each check n l = .ok () ↔ ∀ a ∈ l, P a := by
  rw [each_ok]
  constructor
  · intro h a ha
    obtain ⟨i, hi⟩ := List.getElem?_of_mem ha
    exact (hP _ a).mp (h i a hi)
  · intro h i a ha
    exact (hP _ a).mpr (h a (List.mem_of_getElem? ha))

theorem traverse_length {f : Nat → α → Except ε β} {l : List α} {n : Nat} {r : List β}
    (h : traverse f n l = .ok r) : r.length = l.length := by
  induction l generalizing n r with
  | nil =>
    cases h
    rfl
  | cons a l ih =>
    obtain ⟨b, -, h⟩ := bind_ok.mp h
    obtain ⟨bs, hbs, h⟩ := bind_ok.mp h
    cases h
    simp [ih hbs]

/-- A loop fails at the first element that fails. -/
theorem each_error {check : Nat → α → Except ε Unit} {l : List α} {n : Nat} {e : ε}
    (h : each check n l = .error e) :
    ∃ i a, l[i]? = some a ∧ check (n + i) a = .error e ∧
      ∀ j b, j < i → l[j]? = some b → check (n + j) b = .ok () := by
  induction l generalizing n with
  | nil => cases h
  | cons a l ih =>
    rcases bind_error.mp h with h | ⟨u, ha, h⟩
    · exact ⟨0, a, rfl, h, fun j b hj => absurd hj (Nat.not_lt_zero j)⟩
    · obtain ⟨i, b, hb, hcheck, hbefore⟩ := ih h
      refine ⟨i + 1, b, by rw [List.getElem?_cons_succ]; exact hb, ?_, fun j c hj hc => ?_⟩
      · rwa [show n + (i + 1) = n + 1 + i by omega]
      · cases j with
        | zero =>
          simp only [List.getElem?_cons_zero, Option.some.injEq] at hc
          subst hc
          exact ha
        | succ j =>
          rw [List.getElem?_cons_succ] at hc
          rw [show n + (j + 1) = n + 1 + j by omega]
          exact hbefore j c (by omega) hc

/-- Every result comes from the element at its position. -/
theorem traverse_getElem? {f : Nat → α → Except ε β} {l : List α} {n : Nat} {r : List β}
    (h : traverse f n l = .ok r) {i : Nat} {b : β} (hb : r[i]? = some b) :
    ∃ a, l[i]? = some a ∧ f (n + i) a = .ok b := by
  induction l generalizing n r i with
  | nil =>
    cases h
    simp at hb
  | cons a l ih =>
    obtain ⟨c, hc, h⟩ := bind_ok.mp h
    obtain ⟨bs, hbs, h⟩ := bind_ok.mp h
    cases h
    cases i with
    | zero =>
      simp only [List.getElem?_cons_zero, Option.some.injEq] at hb
      subst hb
      exact ⟨a, rfl, hc⟩
    | succ i =>
      rw [List.getElem?_cons_succ] at hb
      obtain ⟨a', ha', hf⟩ := ih hbs hb
      refine ⟨a', by rw [List.getElem?_cons_succ]; exact ha', ?_⟩
      rwa [show n + (i + 1) = n + 1 + i by omega]

theorem traverse_mem {f : Nat → α → Except ε β} {l : List α} {n : Nat} {r : List β}
    (h : traverse f n l = .ok r) {b : β} (hb : b ∈ r) : ∃ i, ∃ a ∈ l, f i a = .ok b := by
  obtain ⟨i, hi⟩ := List.getElem?_of_mem hb
  obtain ⟨a, ha, hf⟩ := traverse_getElem? h hi
  exact ⟨n + i, a, List.mem_of_getElem? ha, hf⟩

/-- A loop that does not look at the position. -/
theorem traverse_forall₂ {f : α → Except ε β} {n : Nat} {l : List α} {r : List β} :
    traverse (fun _ a => f a) n l = .ok r ↔ List.Forall₂ (fun a b => f a = .ok b) l r := by
  induction l generalizing n r with
  | nil =>
    rw [traverse, List.forall₂_nil_left_iff]
    exact ⟨fun h => (Except.ok.inj h).symm, fun h => by rw [h]⟩
  | cons a l ih =>
    rw [traverse, bind_ok]
    constructor
    · rintro ⟨b, hb, h⟩
      obtain ⟨bs, hbs, h⟩ := bind_ok.mp h
      cases h
      exact .cons hb (ih.mp hbs)
    · intro h
      cases h with
      | cons hb hbs => exact ⟨_, hb, bind_ok.mpr ⟨_, ih.mpr hbs, rfl⟩⟩

theorem eachNew_seen {κ : Type} [DecidableEq κ] {before after : Nat → α → Except ε Unit}
    {key : α → κ} {duplicate : Nat → α → ε} {l : List α} {n : Nat} {seen : List κ} :
    eachNew before key duplicate after n seen l = .ok () ↔
      (∀ i a, l[i]? = some a → before (n + i) a = .ok () ∧ after (n + i) a = .ok ()) ∧
        (l.map key).Nodup ∧ ∀ a ∈ l, key a ∉ seen := by
  induction l generalizing n seen with
  | nil => simp [eachNew]
  | cons b l ih =>
    simp only [eachNew, seq_ok, ensure_ok, ih, List.map_cons, List.nodup_cons, List.mem_map,
      List.mem_cons, not_or, not_exists, not_and, forall_eq_or_imp]
    constructor
    · rintro ⟨hb, hs, ha, hall, hn, hseen⟩
      refine ⟨fun i a hi => ?_, ⟨fun x hx hk => (hseen x hx).1 hk, hn⟩, hs, fun x hx =>
        (hseen x hx).2⟩
      cases i with
      | zero =>
        simp only [List.getElem?_cons_zero, Option.some.injEq] at hi
        subst hi
        exact ⟨hb, ha⟩
      | succ i =>
        rw [List.getElem?_cons_succ] at hi
        have := hall i a hi
        rwa [show n + 1 + i = n + (i + 1) by omega] at this
    · rintro ⟨hall, ⟨hne, hn⟩, hs, hseen⟩
      have h0 := hall 0 b rfl
      refine ⟨h0.1, hs, h0.2, fun i a hi => ?_, hn, fun x hx => ⟨hne x hx, hseen x hx⟩⟩
      rw [show n + 1 + i = n + (i + 1) by omega]
      exact hall (i + 1) a (by rw [List.getElem?_cons_succ]; exact hi)

/-- Acceptance of a loop over distinct keys. -/
theorem eachNew_ok {κ : Type} [DecidableEq κ] {before after : Nat → α → Except ε Unit}
    {key : α → κ} {duplicate : Nat → α → ε} {l : List α} {n : Nat} :
    eachNew before key duplicate after n [] l = .ok () ↔
      (∀ i a, l[i]? = some a → before (n + i) a = .ok () ∧ after (n + i) a = .ok ()) ∧
        (l.map key).Nodup := by
  rw [eachNew_seen]
  simp

/-- A loop whose outcome does not depend on the position. -/
theorem eachNew_ok_mem {κ : Type} [DecidableEq κ] {before after : Nat → α → Except ε Unit}
    {key : α → κ} {duplicate : Nat → α → ε} {P : α → Prop} {l : List α} {n : Nat}
    (hP : ∀ i a, before i a = .ok () ∧ after i a = .ok () ↔ P a) :
    eachNew before key duplicate after n [] l = .ok () ↔ (∀ a ∈ l, P a) ∧ (l.map key).Nodup := by
  rw [eachNew_ok]
  refine and_congr_left fun _ => ⟨fun h a ha => ?_, fun h i a ha => ?_⟩
  · obtain ⟨i, hi⟩ := List.getElem?_of_mem ha
    exact (hP _ a).mp (h i a hi)
  · exact (hP _ a).mpr (h a (List.mem_of_getElem? ha))

end Checks
