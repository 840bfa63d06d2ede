import Mathlib.Control.Lawful

/-!
# Lib.Effects

Programs that work on a state and may fail. A failure does not undo anything: the state stays what
the program has made of it.

* `outcome` — what a program returns, and the state that it leaves.
* `Moves` — the states before and after are related, however the program ends.
* `Succeeds` — the program does not fail, and what holds then.
-/

namespace Effects

abbrev Effect (σ ε α : Type) := ExceptT ε (StateM σ) α

variable {σ ε α β : Type}

def outcome (x : Effect σ ε α) (s : σ) : Except ε α × σ := x.run.run s

@[simp] theorem outcome_pure (a : α) (s : σ) :
    outcome (pure a : Effect σ ε α) s = (.ok a, s) := rfl

@[simp] theorem outcome_throw (e : ε) (s : σ) :
    outcome (throw e : Effect σ ε α) s = (.error e, s) := rfl

@[simp] theorem outcome_get (s : σ) : outcome (get : Effect σ ε σ) s = (.ok s, s) := rfl

@[simp] theorem outcome_modify (f : σ → σ) (s : σ) :
    outcome (modify f : Effect σ ε PUnit) s = (.ok ⟨⟩, f s) := rfl

theorem outcome_bind (x : Effect σ ε α) (f : α → Effect σ ε β) (s : σ) :
    outcome (x >>= f) s = match outcome x s with
      | (.ok a, s') => outcome (f a) s'
      | (.error e, s') => (.error e, s') := by
  simp only [outcome, ExceptT.run_bind, StateT.run_bind]
  rcases x.run.run s with ⟨_ | _, s'⟩ <;> rfl

/-- A result that does not depend on the state. -/
def ofResult (r : Except ε α) : Effect σ ε α := ExceptT.mk (pure r)

@[simp] theorem outcome_ofResult (r : Except ε α) (s : σ) :
    outcome (ofResult r : Effect σ ε α) s = (r, s) := rfl

/-- The error is another one, and the state the same. -/
def mapFailure (f : ε → ε) (x : Effect σ ε α) : Effect σ ε α := ExceptT.adapt f x

theorem outcome_mapFailure (f : ε → ε) (x : Effect σ ε α) (s : σ) :
    outcome (mapFailure f x) s = ((outcome x s).1.mapError f, (outcome x s).2) := rfl

/-- The program is run on a condition only. -/
def onlyIf (c : Bool) (x : Effect σ ε Unit) : Effect σ ε Unit := if c then x else pure ()

@[simp] theorem onlyIf_false (x : Effect σ ε Unit) : onlyIf false x = pure () := rfl

/-! ## However it ends -/

def Moves (R : σ → σ → Prop) (x : Effect σ ε α) : Prop := ∀ s, R s (outcome x s).2

section Moving

variable {R : σ → σ → Prop} {x : Effect σ ε α} {f : α → Effect σ ε β}

theorem moves_pure (h : ∀ s, R s s) (a : α) : Moves R (pure a : Effect σ ε α) := h

theorem moves_throw (h : ∀ s, R s s) (e : ε) : Moves R (throw e : Effect σ ε α) := h

theorem moves_ofResult (h : ∀ s, R s s) (r : Except ε α) : Moves R (ofResult r : Effect σ ε α) := h

theorem moves_mapFailure (hx : Moves R x) (g : ε → ε) : Moves R (mapFailure g x) := hx

theorem moves_modify {g : σ → σ} (h : ∀ s, R s (g s)) :
    Moves R (modify g : Effect σ ε PUnit) := h

theorem moves_get (h : ∀ s, R s s) : Moves R (get : Effect σ ε σ) := h

theorem Moves.bind (htrans : ∀ {s s' s''}, R s s' → R s' s'' → R s s'') (hx : Moves R x)
    (hf : ∀ a, Moves R (f a)) : Moves R (x >>= f) := by
  intro s
  have hfirst := hx s
  rw [outcome_bind]
  rcases hout : outcome x s with ⟨_ | a, s'⟩
  · rwa [hout] at hfirst
  · rw [hout] at hfirst
    exact htrans hfirst (hf a s')

theorem moves_onlyIf {c : Bool} {y : Effect σ ε Unit} (hrefl : ∀ s, R s s)
    (h : c = true → Moves R y) : Moves R (onlyIf c y) := by
  cases c with
  | false => exact moves_pure hrefl _
  | true => exact h rfl

end Moving

/-! ## When it does not fail -/

/-- The program does not fail, and `P` holds. -/
def Succeeds (x : Effect σ ε α) (s : σ) (P : α → σ → Prop) : Prop :=
  ∃ a s', outcome x s = (.ok a, s') ∧ P a s'

section Succeeding

variable {x : Effect σ ε α} {f : α → Effect σ ε β} {s : σ} {P : α → σ → Prop} {Q : β → σ → Prop}

theorem succeeds_pure {a : α} (h : P a s) : Succeeds (pure a : Effect σ ε α) s P := ⟨a, s, rfl, h⟩

theorem succeeds_ofResult {r : Except ε α} {a : α} (hr : r = .ok a) (h : P a s) :
    Succeeds (ofResult r : Effect σ ε α) s P := ⟨a, s, by rw [outcome_ofResult, hr], h⟩

theorem succeeds_modify {g : σ → σ} {Q : PUnit → σ → Prop} (h : Q ⟨⟩ (g s)) :
    Succeeds (modify g : Effect σ ε PUnit) s Q := ⟨⟨⟩, g s, rfl, h⟩

theorem succeeds_mapFailure {g : ε → ε} (h : Succeeds x s P) : Succeeds (mapFailure g x) s P := by
  obtain ⟨a, s', hout, hp⟩ := h
  exact ⟨a, s', by rw [outcome_mapFailure, hout]; rfl, hp⟩

theorem succeeds_onlyIf {c : Bool} {y : Effect σ ε Unit} {Q : Unit → σ → Prop}
    (h : c = true → Succeeds y s Q) (h' : c = false → Q () s) : Succeeds (onlyIf c y) s Q := by
  cases c with
  | false => exact succeeds_pure (h' rfl)
  | true => exact h rfl

theorem Succeeds.imp {P' : α → σ → Prop} (h : Succeeds x s P) (himp : ∀ a s', P a s' → P' a s') :
    Succeeds x s P' := by
  obtain ⟨a, s', hout, hp⟩ := h
  exact ⟨a, s', hout, himp a s' hp⟩

theorem Succeeds.bind (hx : Succeeds x s P) (hf : ∀ a s', P a s' → Succeeds (f a) s' Q) :
    Succeeds (x >>= f) s Q := by
  obtain ⟨a, s', hout, hp⟩ := hx
  obtain ⟨b, s'', hrest, hq⟩ := hf a s' hp
  exact ⟨b, s'', by rw [outcome_bind, hout]; exact hrest, hq⟩

/-! The first step alone, when what it does is known. -/

theorem succeeds_after_ofResult {r : Except ε α} {a : α} (hr : r = .ok a)
    (h : Succeeds (f a) s Q) : Succeeds (ofResult r >>= f) s Q := by
  obtain ⟨b, s', hout, hq⟩ := h
  refine ⟨b, s', ?_, hq⟩
  rw [outcome_bind, outcome_ofResult, hr]
  exact hout

theorem succeeds_after_get {f : σ → Effect σ ε β} (h : Succeeds (f s) s Q) :
    Succeeds (get >>= f) s Q := by
  obtain ⟨b, s', hout, hq⟩ := h
  refine ⟨b, s', ?_, hq⟩
  rw [outcome_bind, outcome_get]
  exact hout

theorem succeeds_after_modify {g : σ → σ} {f : PUnit → Effect σ ε β}
    (h : Succeeds (f ⟨⟩) (g s) Q) : Succeeds (modify g >>= f) s Q := by
  obtain ⟨b, s', hout, hq⟩ := h
  refine ⟨b, s', ?_, hq⟩
  rw [outcome_bind, outcome_modify]
  exact hout

end Succeeding

end Effects
