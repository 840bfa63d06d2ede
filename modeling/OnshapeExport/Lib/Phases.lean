import OnshapeExport.Lib.Checks

/-!
# Lib.Phases

Validators that go through phases. A phase looks at all positions of a list before it says
anything: a malformed element comes before one that is well formed but not available, and of each
kind the first position is reported. A later phase is not reached while an earlier one has a defect.

* `Reports` — the defect that a list of phases reports; `reports_unique` — there is one at most.
* `Runs` — a computation that fails with this defect and succeeds when every phase is clean.
* `Runs.check`, `Runs.classify` — the rules for one phase, without and with positions.
-/

namespace Phases

open Checks

inductive Defect where
  | malformed (position : Option Nat)
  | unavailable (position : Nat)
deriving DecidableEq

/-- What may be wrong in a phase: as a whole, and at a position. -/
structure Phase where
  malformed : Prop
  malformedAt : Nat → Prop
  unavailableAt : Nat → Prop

/-- A phase without positions. -/
def Phase.whole (malformed : Prop) : Phase := ⟨malformed, fun _ => False, fun _ => False⟩

/-- A phase that looks at positions only. -/
def Phase.positions (malformedAt unavailableAt : Nat → Prop) : Phase :=
  ⟨False, malformedAt, unavailableAt⟩

structure Phase.Clean (ph : Phase) : Prop where
  malformed : ¬ ph.malformed
  malformedAt : ∀ p, ¬ ph.malformedAt p
  unavailableAt : ∀ p, ¬ ph.unavailableAt p

inductive Phase.Reports (ph : Phase) : Defect → Prop
  | malformed (h : ph.malformed) : ph.Reports (.malformed none)
  | malformedAt {p : Nat} (h : ¬ ph.malformed) (hp : ph.malformedAt p)
      (hfirst : ∀ q < p, ¬ ph.malformedAt q) : ph.Reports (.malformed (some p))
  | unavailableAt {p : Nat} (h : ¬ ph.malformed) (hall : ∀ q, ¬ ph.malformedAt q)
      (hp : ph.unavailableAt p) (hfirst : ∀ q < p, ¬ ph.unavailableAt q) :
      ph.Reports (.unavailable p)

/-- The first phase that is not clean reports. -/
def Reports (phases : List Phase) (d : Defect) : Prop :=
  ∃ before ph after, phases = before ++ ph :: after ∧ (∀ q ∈ before, q.Clean) ∧ ph.Reports d

theorem Phase.Reports.not_clean {ph : Phase} {d : Defect} (h : ph.Reports d) : ¬ ph.Clean := by
  intro hclean
  cases h with
  | malformed h => exact hclean.malformed h
  | malformedAt _ hp _ => exact hclean.malformedAt _ hp
  | unavailableAt _ _ hp _ => exact hclean.unavailableAt _ hp

theorem Phase.Reports.unique {ph : Phase} {d d' : Defect} (h : ph.Reports d) (h' : ph.Reports d') :
    d = d' := by
  cases h with
  | malformed h =>
    cases h' with
    | malformed => rfl
    | malformedAt hn => exact absurd h hn
    | unavailableAt hn => exact absurd h hn
  | @malformedAt p h hp hfirst =>
    cases h' with
    | malformed hm => exact absurd hm h
    | @malformedAt q _ hq hfirst' =>
      obtain hlt | rfl | hlt := Nat.lt_trichotomy p q
      · exact absurd hp (hfirst' p hlt)
      · rfl
      · exact absurd hq (hfirst q hlt)
    | unavailableAt _ hall => exact absurd hp (hall p)
  | @unavailableAt p h hall hp hfirst =>
    cases h' with
    | malformed hm => exact absurd hm h
    | malformedAt _ hq => exact absurd hq (hall _)
    | @unavailableAt q _ _ hq hfirst' =>
      obtain hlt | rfl | hlt := Nat.lt_trichotomy p q
      · exact absurd hp (hfirst' p hlt)
      · rfl
      · exact absurd hq (hfirst q hlt)

theorem reports_cons {ph : Phase} {phases : List Phase} {d : Defect} :
    Reports (ph :: phases) d ↔ ph.Reports d ∨ ph.Clean ∧ Reports phases d := by
  constructor
  · rintro ⟨before, ph', after, he, hbefore, hd⟩
    cases before with
    | nil =>
      obtain ⟨rfl, -⟩ := List.cons.inj he
      exact .inl hd
    | cons q before =>
      obtain ⟨rfl, rfl⟩ := List.cons.inj he
      exact .inr ⟨hbefore _ List.mem_cons_self,
        before, ph', after, rfl, fun x hx => hbefore x (List.mem_cons_of_mem _ hx), hd⟩
  · rintro (hd | ⟨hclean, before, ph', after, rfl, hbefore, hd⟩)
    · exact ⟨[], ph, phases, rfl, fun x hx => absurd hx List.not_mem_nil, hd⟩
    · refine ⟨ph :: before, ph', after, rfl, fun x hx => ?_, hd⟩
      rcases List.mem_cons.mp hx with rfl | hx
      · exact hclean
      · exact hbefore x hx

theorem Reports.not_clean {phases : List Phase} {d : Defect} (h : Reports phases d) :
    ¬ ∀ ph ∈ phases, ph.Clean := by
  obtain ⟨before, ph, after, rfl, -, hd⟩ := h
  exact fun hall => hd.not_clean (hall ph (List.mem_append_right _ List.mem_cons_self))

theorem reports_unique {phases : List Phase} {d d' : Defect} (h : Reports phases d)
    (h' : Reports phases d') : d = d' := by
  induction phases with
  | nil =>
    obtain ⟨before, ph, after, he, -⟩ := h
    simp at he
  | cons ph phases ih =>
    rcases reports_cons.mp h with hd | ⟨hclean, hd⟩ <;>
      rcases reports_cons.mp h' with hd' | ⟨hclean', hd'⟩
    · exact hd.unique hd'
    · exact absurd hclean' hd.not_clean
    · exact absurd hclean hd'.not_clean
    · exact ih hd hd'

/-! ## Computations -/

section Runs

variable {ε α β γ : Type} {report : Defect → ε}

/-- The computation fails with the defect that the phases report, and ends with `post` when they
are all clean. -/
def Runs (report : Defect → ε) (phases : List Phase) (x : Except ε α) (post : α → Prop) : Prop :=
  match x with
  | .ok a => (∀ ph ∈ phases, ph.Clean) ∧ post a
  | .error e => ∃ d, e = report d ∧ Reports phases d

theorem Runs.pure {post : α → Prop} {a : α} (h : post a) : Runs report [] (.ok a) post :=
  ⟨fun _ hph => absurd hph List.not_mem_nil, h⟩

theorem Runs.cons {ph : Phase} {phases : List Phase} {x : Except ε α} {post : α → Prop}
    (hclean : ph.Clean) (h : Runs report phases x post) : Runs report (ph :: phases) x post := by
  cases x with
  | ok a =>
    refine ⟨fun q hq => ?_, h.2⟩
    rcases List.mem_cons.mp hq with rfl | hq
    · exact hclean
    · exact h.1 q hq
  | error e =>
    obtain ⟨d, he, hd⟩ := h
    exact ⟨d, he, reports_cons.mpr (.inr ⟨hclean, hd⟩)⟩

theorem Runs.reported {ph : Phase} {phases : List Phase} {d : Defect} {post : α → Prop}
    (h : ph.Reports d) : Runs report (ph :: phases) (.error (report d)) post :=
  ⟨d, rfl, reports_cons.mpr (.inl h)⟩

theorem Runs.bind {phases phases' : List Phase} {x : Except ε α} {f : α → Except ε β}
    {post : α → Prop} {post' : β → Prop} (hx : Runs report phases x post)
    (hf : ∀ a, post a → Runs report phases' (f a) post') :
    Runs report (phases ++ phases') (x >>= f) post' := by
  cases x with
  | ok a =>
    obtain ⟨hclean, ha⟩ := hx
    have hrest := hf a ha
    change Runs report (phases ++ phases') (f a) post'
    clear hf
    induction phases with
    | nil => exact hrest
    | cons ph phases ih =>
      exact .cons (hclean ph List.mem_cons_self)
        (ih fun q hq => hclean q (List.mem_cons_of_mem _ hq))
  | error e =>
    obtain ⟨d, he, before, ph, after, rfl, hbefore, hd⟩ := hx
    exact ⟨d, he, before, ph, after ++ phases', by simp, hbefore, hd⟩

/-- A phase without positions. -/
theorem Runs.check {P : Prop} {phases : List Phase} {x : Except ε α} {f : α → Except ε β}
    {post : β → Prop} (hok : ∀ a, x = .ok a → ¬ P ∧ Runs report phases (f a) post)
    (herror : ∀ e, x = .error e → e = report (.malformed none) ∧ P) :
    Runs report (Phase.whole P :: phases) (x >>= f) post := by
  cases hx : x with
  | ok a =>
    obtain ⟨hP, hrest⟩ := hok a hx
    exact .cons ⟨hP, fun _ h => h, fun _ h => h⟩ hrest
  | error e =>
    obtain ⟨rfl, hP⟩ := herror e hx
    exact .reported (.malformed hP)

theorem traverse_error {f : Nat → α → Except ε β} {l : List α} {n : Nat} {e : ε}
    (h : traverse f n l = .error e) :
    ∃ i a, l[i]? = some a ∧ f (n + i) a = .error e ∧
      ∀ j < i, ∀ b, l[j]? = some b → ∃ c, f (n + j) b = .ok c := by
  induction l generalizing n with
  | nil => cases h
  | cons a l ih =>
    rw [Checks.traverse] at h
    cases ha : f n a with
    | error e' =>
      rw [ha] at h
      obtain rfl : e' = e := Except.error.inj h
      exact ⟨0, a, rfl, ha, fun j hj => absurd hj (by omega)⟩
    | ok b =>
      rw [ha] at h
      have hrest : traverse f (n + 1) l = .error e := by
        cases hl : traverse f (n + 1) l with
        | ok bs =>
          rw [hl] at h
          cases h
        | error e' =>
          rw [hl] at h
          exact congrArg Except.error (Except.error.inj h)
      obtain ⟨i, a', hi, he, hbefore⟩ := ih hrest
      refine ⟨i + 1, a', by rw [List.getElem?_cons_succ]; exact hi, ?_, fun j hj c hc => ?_⟩
      · rwa [show n + (i + 1) = n + 1 + i by omega]
      · cases j with
        | zero =>
          obtain rfl : a = c := by simpa using hc
          exact ⟨b, ha⟩
        | succ j =>
          rw [List.getElem?_cons_succ] at hc
          rw [show n + (j + 1) = n + 1 + j by omega]
          exact hbefore j (by omega) c hc

/-- A phase that reads something at every position and then looks whether it is good. -/
theorem Runs.classify {ph : Phase} {phases : List Phase} {f : Nat → α → Except ε β}
    {good : β → Bool} {gate : List β → Except ε Unit} {l : List α}
    {k : List β → Except ε γ} {post : γ → Prop}
    (hgate : ∀ bs, gate bs =
      match (bs.map good).findIdx? (· = false) with
      | some p => .error (report (.unavailable p))
      | none => .ok ())
    (hwhole : ¬ ph.malformed)
    (hone : ∀ p a, l[p]? = some a →
      (∃ b, f p a = .ok b ∧ ¬ ph.malformedAt p ∧ (ph.unavailableAt p ↔ good b = false)) ∨
        f p a = .error (report (.malformed (some p))) ∧ ph.malformedAt p)
    (hout : ∀ p, l.length ≤ p → ¬ ph.malformedAt p ∧ ¬ ph.unavailableAt p)
    (hk : ∀ bs, bs.length = l.length →
      (∀ p a b, l[p]? = some a → bs[p]? = some b → f p a = .ok b ∧ good b = true) →
        Runs report phases (k bs) post) :
    Runs report (ph :: phases) (do
      let bs ← traverse f 0 l
      gate bs
      k bs) post := by
  cases ht : traverse f 0 l with
  | error e =>
    obtain ⟨p, a, ha, he, hbefore⟩ := traverse_error ht
    rw [Nat.zero_add] at he
    rcases hone p a ha with ⟨b, hb, -, -⟩ | ⟨he', hp⟩
    · rw [hb] at he
      cases he
    · obtain rfl := Except.error.inj (he.symm.trans he')
      refine .reported (.malformedAt hwhole hp fun q hq => ?_)
      obtain ⟨a', ha'⟩ : ∃ a', l[q]? = some a' := by
        have hlt : p < l.length := (List.getElem?_eq_some_iff.mp ha).1
        exact ⟨l[q], List.getElem?_eq_getElem (by omega)⟩
      obtain ⟨c, hc⟩ := hbefore q hq a' ha'
      rw [Nat.zero_add] at hc
      rcases hone q a' ha' with ⟨b, -, hq', -⟩ | ⟨he'', -⟩
      · exact hq'
      · rw [hc] at he''
        cases he''
  | ok bs =>
    have hlength := traverse_length ht
    have hread : ∀ p a b, l[p]? = some a → bs[p]? = some b → f p a = .ok b := by
      intro p a b ha hb
      obtain ⟨a', ha', hf⟩ := traverse_getElem? ht hb
      rw [ha] at ha'
      rw [Option.some.inj ha']
      simpa using hf
    have hwell : ∀ p, ¬ ph.malformedAt p := by
      intro p
      by_cases hp : p < l.length
      · have hb := hread p l[p] bs[p] (List.getElem?_eq_getElem hp) (List.getElem?_eq_getElem _)
        rcases hone p l[p] (List.getElem?_eq_getElem hp) with ⟨_, -, hq, -⟩ | ⟨he, -⟩
        · exact hq
        · rw [hb] at he
          cases he
      · exact (hout p (by omega)).1
    have hstate : ∀ p b, bs[p]? = some b → (ph.unavailableAt p ↔ good b = false) := by
      intro p b hb
      have hp : p < l.length := by
        rw [← hlength]
        exact (List.getElem?_eq_some_iff.mp hb).1
      have hf := hread p l[p] b (List.getElem?_eq_getElem hp) hb
      rcases hone p l[p] (List.getElem?_eq_getElem hp) with ⟨b', hb', -, hu⟩ | ⟨he, -⟩
      · obtain rfl := Except.ok.inj (hf.symm.trans hb')
        exact hu
      · rw [hf] at he
        cases he
    change Runs report (ph :: phases) (gate bs >>= fun _ => k bs) post
    rw [hgate]
    cases hfind : (bs.map good).findIdx? (· = false) with
    | some p =>
      obtain ⟨hp, hbad, hfirst⟩ := List.findIdx?_eq_some_iff_getElem.mp hfind
      rw [List.length_map] at hp
      have hgood : good bs[p] = false := by simpa using hbad
      refine .reported (.unavailableAt hwhole hwell
        ((hstate p bs[p] (List.getElem?_eq_getElem hp)).mpr hgood) fun q hq hu => ?_)
      have hq' : q < bs.length := by omega
      have hnot := hfirst q hq
      have hgood' := (hstate q bs[q] (List.getElem?_eq_getElem hq')).mp hu
      simp [hgood'] at hnot
    | none =>
      have hall : ∀ b ∈ bs, good b = true := by
        intro b hb
        have hnot := List.findIdx?_eq_none_iff.mp hfind (good b) (List.mem_map.mpr ⟨b, hb, rfl⟩)
        simpa using hnot
      refine .cons ⟨hwhole, hwell, fun p hu => ?_⟩ (hk bs hlength fun p a b ha hb =>
        ⟨hread p a b ha hb, hall b (List.mem_of_getElem? hb)⟩)
      by_cases hp : p < bs.length
      · have hgood := (hstate p bs[p] (List.getElem?_eq_getElem hp)).mp hu
        rw [hall _ (List.getElem_mem hp)] at hgood
        cases hgood
      · exact (hout p (by omega)).2 hu

/-- A phase that only reads something at every position. -/
theorem Runs.read {ph : Phase} {phases : List Phase} {f : Nat → α → Except ε β} {l : List α}
    {k : List β → Except ε γ} {post : γ → Prop} (hwhole : ¬ ph.malformed)
    (hone : ∀ p a, l[p]? = some a →
      (∃ b, f p a = .ok b ∧ ¬ ph.malformedAt p) ∨
        f p a = .error (report (.malformed (some p))) ∧ ph.malformedAt p)
    (hout : ∀ p, l.length ≤ p → ¬ ph.malformedAt p) (hnever : ∀ p, ¬ ph.unavailableAt p)
    (hk : ∀ bs, bs.length = l.length →
      (∀ p a b, l[p]? = some a → bs[p]? = some b → f p a = .ok b) →
        Runs report phases (k bs) post) :
    Runs report (ph :: phases) (traverse f 0 l >>= k) post := by
  have hgate (bs : List β) : (.ok () : Except ε Unit) =
      match (bs.map fun _ => true).findIdx? (· = false) with
      | some p => .error (report (.unavailable p))
      | none => .ok () := by
    have hnone : (bs.map fun _ => true).findIdx? (· = false) = none := by
      rw [List.findIdx?_eq_none_iff]
      rintro x hx
      obtain ⟨_, -, rfl⟩ := List.mem_map.mp hx
      rfl
    rw [hnone]
  have hrun : Runs report (ph :: phases) (do
      let bs ← traverse f 0 l
      (.ok () : Except ε Unit)
      k bs) post := by
    refine Runs.classify hgate hwhole (fun p a ha => ?_) (fun p hp => ⟨hout p hp, hnever p⟩)
      fun bs hlength hall => hk bs hlength fun p a b ha hb => (hall p a b ha hb).1
    exact (hone p a ha).imp_left fun ⟨b, hb, hp⟩ =>
      ⟨b, hb, hp, fun hu => absurd hu (hnever p), fun hf => by cases hf⟩
  exact hrun

end Runs

end Phases
