import OnshapeExport.Publication

/-!
# Withdrawal

What a ready set promises while any number of publications run, fail and crash, and an operator
supersedes sets: its files were verified, it carries no trace of a supersession, and no attempt
that fails takes it away.

Staging and marking a set carry no guard on its status or on who staged it, so this holds only of
runs where nobody else works on a set that is being published (`Exclusive`).

* `always_sound` — the promise along every exclusive run from the empty tables.
* `unsound_runs` — one run against each of its three parts.
-/

namespace OnshapeExport
namespace Publishing

open Relational Artifacts Trace

/-- Every file of a ready set was uploaded and verified since the set was last staged. -/
def ReadyVerified (s : Publishers) : Prop :=
  ∀ k r, s.tables.sets.find? k = some r → r.status = .ready →
    ∀ f ∈ s.tables.filesOf k, f ∈ s.verified

def ReadyUnsuperseded (s : Publishers) : Prop :=
  ∀ k r, s.tables.sets.find? k = some r → r.status = .ready → r.Unsuperseded

/-- No attempt that failed or crashed took away a set that another finished one made ready. -/
def FailureKeeps (s : Publishers) : Prop :=
  ∀ a ∈ s.attempts, a.withdrew = true → a.phase ≠ .failed ∧ a.phase ≠ .crashed

structure Sound (s : Publishers) : Prop where
  verified : ReadyVerified s
  unsuperseded : ReadyUnsuperseded s
  kept : FailureKeeps s

/-- A set is staged only when no finished publication has it ready and no other attempt has it
open, and superseded by hand only when no attempt has it open. -/
def Exclusive (s : Publishers) : Op → Prop
  | .turn o => o.stmt = .stage → ∀ a, s.attempts[o.attempt]? = some a → a.phase = .pending →
      (isReady s.tables a.pub.key = true → finishedMarker s a.pub.key = none) ∧
      ∀ (j : Nat) (b : Attempt), s.attempts[j]? = some b → b.pub.key = a.pub.key → ¬ b.phase.Open
  | .supersedeSet _ k _ _ => ∀ b ∈ s.attempts, b.pub.key = k → ¬ b.phase.Open

/-- The row and the files of an attempt that has its set open. -/
structure Attempt.Owns (s : Publishers) (a : Attempt) : Prop where
  staged : ∃ r, s.tables.sets.find? a.pub.key = some r ∧ r.status = .staged
  files : s.tables.filesOf a.pub.key = a.pub.files
  uploaded : ∀ done, a.phase = .uploading done → ∀ f ∈ a.pub.files.take done, f ∈ s.verified

structure PublishersInv (s : Publishers) : Prop where
  clean : ∀ k r, s.tables.sets.find? k = some r → r.status ≠ .superseded → r.Unsuperseded
  owns : ∀ (i : Nat) (a : Attempt), s.attempts[i]? = some a → a.phase.Open → a.Owns s
  alone : ∀ (i j : Nat) (a b : Attempt), s.attempts[i]? = some a → s.attempts[j]? = some b →
    a.phase.Open → b.phase.Open → a.pub.key = b.pub.key → i = j
  verified : ∀ k r, s.tables.sets.find? k = some r → r.status = .ready →
    ∀ f ∈ s.tables.filesOf k, f ∈ s.verified
  withdrew : ∀ (i : Nat) (a : Attempt), s.attempts[i]? = some a → a.withdrew = true →
    a.phase = .finished

theorem PublishersInv.sound {s : Publishers} (h : PublishersInv s) : Sound s where
  verified := h.verified
  unsuperseded k r hr hst := h.clean k r hr (by rw [hst]; simp)
  kept a ha hw := by
    obtain ⟨i, hi⟩ := List.mem_iff_getElem?.mp ha
    rw [h.withdrew i a hi hw]
    exact ⟨by simp, by simp⟩

theorem inv_start (pubs : List Publication) : PublishersInv (start .empty pubs) := by
  have hpending : ∀ (i : Nat) (a : Attempt), (start .empty pubs).attempts[i]? = some a →
      a.phase = .pending ∧ a.withdrew = false := by
    intro i a hi
    simp only [start, List.getElem?_map, Option.map_eq_some_iff] at hi
    obtain ⟨p, -, rfl⟩ := hi
    exact ⟨rfl, rfl⟩
  have hnot : ∀ (i : Nat) (a : Attempt), (start .empty pubs).attempts[i]? = some a →
      ¬ a.phase.Open := by
    intro i a hi ho
    rw [(hpending i a hi).1] at ho
    rcases ho with ⟨_, ho⟩ | ho <;> cases ho
  refine ⟨?_, fun i a hi ho => absurd ho (hnot i a hi),
    fun i j a b hi _ ho => absurd ho (hnot i a hi), ?_, fun i a hi hw => ?_⟩
  · intro k r hr; cases hr
  · intro k r hr; cases hr
  · rw [(hpending i a hi).2] at hw; cases hw

/-! ## What a statement leaves as it was -/

section Statements

variable {now : Timestamp} {p : Publication} {t t' : ArtifactTables} {phase phase' : Phase}
  {stmt : Stmt}

theorem Publishes.filesOf_eq (hp : Publishes now p t phase stmt phase' t') {k : String}
    (hk : k = p.key → ¬ Stages phase phase') : t'.filesOf k = t.filesOf k := by
  cases hp with
  | staged hs =>
    obtain ⟨-, hs⟩ := stageArtifact_ok hs
    rw [filesOf_stage p.ownFiles hs, if_neg fun he => hk he ⟨rfl, _, rfl⟩]
  | rejected => rfl
  | uploaded => rfl
  | broken => rfl
  | marked => rfl
  | recorded => rfl
  | superseded => rfl
  | crashed => rfl
  | waits => rfl

theorem Publishes.mem_noteVerified (hp : Publishes now p t phase stmt phase' t')
    {verified : List ArtifactFile} {f : ArtifactFile}
    (hf : f.artifactSetHash = p.key → ¬ Stages phase phase') (h : f ∈ verified) :
    f ∈ noteVerified p verified phase phase' := by
  cases hp with
  | staged =>
    refine List.mem_filter.mpr ⟨h, ?_⟩
    simpa using fun he => hf he ⟨rfl, _, rfl⟩
  | uploaded =>
    rw [noteVerified, if_pos rfl]
    exact List.mem_append_right _ h
  | waits =>
    cases phase with
    | uploading done => rw [noteVerified, if_neg (by omega)]; exact h
    | pending => exact h
    | uploadFailed => exact h
    | superseding => exact h
    | finished => exact h
    | failed => exact h
    | crashed => exact h
  | crashed => cases phase <;> exact h
  | rejected => exact h
  | broken => exact h
  | marked => exact h
  | recorded => exact h
  | superseded => exact h

/-- The files an attempt has uploaded are noted as verified. -/
theorem Publishes.uploaded_noted {done : Nat}
    (hp : Publishes now p t phase stmt (.uploading done) t') {verified : List ArtifactFile}
    (h : ∀ done, phase = .uploading done → ∀ f ∈ p.files.take done, f ∈ verified) :
    ∀ f ∈ p.files.take done, f ∈ noteVerified p verified phase (.uploading done) := by
  cases hp with
  | staged => simp
  | uploaded =>
    intro f hf
    rw [List.take_add_one, List.mem_append] at hf
    rw [noteVerified, if_pos rfl, List.mem_append]
    exact hf.symm.imp id (h _ rfl f)
  | waits =>
    intro f hf
    rw [noteVerified, if_neg (by omega)]
    exact h _ rfl f hf

end Statements

/-! ## The step -/

section Step

variable {s : Publishers} {o : Turn} {a a' : Attempt} {t' : ArtifactTables}

theorem Attempt.Owns.of_keeps {s s' : Publishers} {b : Attempt} (h : b.Owns s)
    (hrow : ∀ r, s.tables.sets.find? b.pub.key = some r → r.status = .staged →
      s'.tables.sets.find? b.pub.key = some r)
    (hfiles : s'.tables.filesOf b.pub.key = s.tables.filesOf b.pub.key)
    (hver : ∀ f ∈ b.pub.files, f ∈ s.verified → f ∈ s'.verified) : b.Owns s' where
  staged := by
    obtain ⟨r, hr, hst⟩ := h.staged
    exact ⟨r, hrow r hr hst, hst⟩
  files := hfiles.trans h.files
  uploaded done hph f hf := hver f (List.mem_of_mem_take hf) (h.uploaded done hph f hf)

/-- The running attempt owns its set after a statement that leaves the set open. -/
theorem owns_turn (ha' : a'.pub = a.pub)
    (hp : Publishes o.now a.pub s.tables a.phase o.stmt a'.phase (turn s o).tables)
    (hver : (turn s o).verified = noteVerified a.pub s.verified a.phase a'.phase)
    (h : a.phase.Open → a.Owns s) (ho : a'.phase.Open) : a'.Owns (turn s o) := by
  have hup : ∀ done, a'.phase = .uploading done → ∀ f ∈ a'.pub.files.take done,
      f ∈ (turn s o).verified := by
    intro done hd
    rw [hver, ha', hd]
    rw [hd] at hp
    exact hp.uploaded_noted fun done hd => (h (.inl ⟨_, hd⟩)).uploaded done hd
  rcases hp.open_of_open ho with hopen | hstage
  · have hown := h hopen
    have ht := hp.tables_eq hopen ho
    exact ⟨by rw [ht, ha']; exact hown.staged, by rw [ht, ha']; exact hown.files, hup⟩
  · -- a fresh staging
    obtain ⟨hpend, done, hd⟩ := hstage
    rw [hpend, hd] at hp
    refine ⟨?_, ?_, hup⟩ <;> rw [ha'] <;> generalize (turn s o).tables = t' at hp ⊢ <;>
      generalize o.stmt = st at hp
    · cases hp with
      | staged hs =>
        obtain ⟨-, hs⟩ := stageArtifact_ok hs
        exact ⟨stagedSet o.now a.pub.artifact, by rw [(stageArtifactInner_ok hs).1, if_pos rfl],
          rfl⟩
    · cases hp with
      | staged hs =>
        obtain ⟨-, hs⟩ := stageArtifact_ok hs
        rw [filesOf_stage a.pub.ownFiles hs, if_pos rfl]

/-- A row that is not superseded after a statement carries no trace of a supersession. -/
theorem clean_publishes {now : Timestamp} {p : Publication} {t t' : ArtifactTables}
    {phase phase' : Phase} {stmt : Stmt} (hp : Publishes now p t phase stmt phase' t')
    (hclean : ∀ k r, t.sets.find? k = some r → r.status ≠ .superseded → r.Unsuperseded)
    (hopen : phase.Open → ∃ r, t.sets.find? p.key = some r ∧ r.status = .staged) :
    ∀ k r, t'.sets.find? k = some r → r.status ≠ .superseded → r.Unsuperseded := by
  intro k r hr hst
  cases hp with
  | staged hs =>
    obtain ⟨-, hs⟩ := stageArtifact_ok hs
    rw [(stageArtifactInner_ok hs).1] at hr
    split at hr
    · cases hr; exact ⟨rfl, rfl, rfl⟩
    · exact hclean k r hr hst
  | marked =>
    rw [find?_markArtifactSetReady] at hr
    split at hr
    · rename_i hk
      obtain ⟨r0, hr0, hst0⟩ := hopen (.inl ⟨_, rfl⟩)
      rw [hk, hr0] at hr
      cases hr
      exact hclean _ r0 hr0 (by rw [hst0]; simp)
    · exact hclean k r hr hst
  | recorded =>
    rw [find?_transitionArtifactSetStatus] at hr
    split at hr
    · rename_i hk
      obtain ⟨r0, hr0, hst0⟩ := hopen (.inr rfl)
      rw [hk, hr0] at hr
      cases hr
      exact hclean _ r0 hr0 (by rw [hst0]; simp)
    · exact hclean k r hr hst
  | superseded =>
    rw [find?_supersedeReadyArtifactsForOutput, Option.map_eq_some_iff] at hr
    obtain ⟨r0, hr0, he⟩ := hr
    split at he
    · subst he; exact absurd rfl hst
    · subst he; exact hclean k r0 hr0 hst
  | rejected => exact hclean k r hr hst
  | uploaded => exact hclean k r hr hst
  | broken => exact hclean k r hr hst
  | crashed => exact hclean k r hr hst
  | waits => exact hclean k r hr hst

/-- A statement that does not finish its attempt withdraws nothing, if it stages over no finished
publication and finds the set it has open staged. -/
theorem withdraws_publishes {i : Nat} {now : Timestamp} {p : Publication} {phase phase' : Phase}
    {stmt : Stmt} (hp : Publishes now p s.tables phase stmt phase' t') (hfin : phase' ≠ .finished)
    (hopen : phase.Open → ∃ r, s.tables.sets.find? p.key = some r ∧ r.status = .staged)
    (hstage : Stages phase phase' → isReady s.tables p.key = true → finishedMarker s p.key = none) :
    withdraws s i t' = false := by
  refine withdraws_eq_false fun k hk => ?_
  obtain ⟨r, hr, hst⟩ := isReady_iff.mp hk
  by_cases he : k = p.key
  · subst he
    cases hp with
    | staged => exact .inr (hstage ⟨rfl, _, rfl⟩ hk)
    | marked =>
      refine .inl (isReady_iff.mpr ⟨readySet now p.artifact.objectKey r, ?_, rfl⟩)
      rw [find?_markArtifactSetReady, if_pos rfl, hr, Option.map_some]
    | recorded =>
      obtain ⟨r0, hr0, hst0⟩ := hopen (.inr rfl)
      rw [hr] at hr0; cases hr0
      rw [hst] at hst0; cases hst0
    | superseded => exact absurd rfl hfin
    | rejected => exact .inl hk
    | uploaded => exact .inl hk
    | broken => exact .inl hk
    | crashed => exact .inl hk
    | waits => exact .inl hk
  · rcases hp.foreign he with h | ⟨-, h, -⟩
    · exact .inl (isReady_iff.mpr ⟨r, h.trans hr, hst⟩)
    · exact absurd h hfin

/-- A set that is ready after a statement was ready before, or its attempt just marked it. -/
theorem Publishes.ready_of_ready {now : Timestamp} {p : Publication} {t t' : ArtifactTables}
    {phase phase' : Phase} {stmt : Stmt} (hp : Publishes now p t phase stmt phase' t')
    {k : String} {r : ArtifactSet} (hr : t'.sets.find? k = some r) (hst : r.status = .ready) :
    (k = p.key ∧ phase = .uploading p.files.length) ∨
      ((k = p.key → ¬ Stages phase phase') ∧
        ∃ r, t.sets.find? k = some r ∧ r.status = .ready) := by
  by_cases he : k = p.key
  · cases hp with
    | staged hs =>
      obtain ⟨-, hs⟩ := stageArtifact_ok hs
      rw [(stageArtifactInner_ok hs).1, if_pos he] at hr
      cases hr; cases hst
    | marked => exact .inl ⟨he, rfl⟩
    | recorded =>
      rw [find?_transitionArtifactSetStatus, if_pos he, Option.map_eq_some_iff] at hr
      obtain ⟨r0, -, rfl⟩ := hr
      cases hst
    | superseded =>
      rw [find?_supersedeReadyArtifactsForOutput, Option.map_eq_some_iff] at hr
      obtain ⟨r0, hr0, heq⟩ := hr
      refine .inr ⟨fun _ h => (by cases h.1), r0, hr0, ?_⟩
      split at heq
      · subst heq; cases hst
      · subst heq; exact hst
    | rejected => exact .inr ⟨fun _ ⟨_, _, h⟩ => (by cases h), r, hr, hst⟩
    | uploaded => exact .inr ⟨fun _ ⟨h, _⟩ => (by cases h), r, hr, hst⟩
    | broken => exact .inr ⟨fun _ ⟨h, _⟩ => (by cases h), r, hr, hst⟩
    | crashed => exact .inr ⟨fun _ ⟨_, _, h⟩ => (by cases h), r, hr, hst⟩
    | waits => exact .inr ⟨fun _ ⟨h, _, h'⟩ => (by cases h.symm.trans h'), r, hr, hst⟩
  · refine .inr ⟨fun h => absurd h he, ?_⟩
    rcases hp.foreign he with h | ⟨-, -, h⟩
    · exact ⟨r, h.symm.trans hr, hst⟩
    · rw [hr] at h
      obtain ⟨r0, hr0, heq⟩ := Option.map_eq_some_iff.mp h.symm
      refine ⟨r0, hr0, ?_⟩
      split at heq
      · subst heq; cases hst
      · subst heq; exact hst

theorem turn_inv (o : Turn) (h : PublishersInv s) (he : Exclusive s (.turn o)) : PublishersInv (turn s o) := by
  cases ha : s.attempts[o.attempt]? with
  | none => rw [turn_none ha]; exact h
  | some a =>
    obtain ⟨a', hpub, hp, hget, hwith, hver, -⟩ := turn_some ha
    have hown : a.phase.Open → ∃ r, s.tables.sets.find? a.pub.key = some r ∧ r.status = .staged :=
      fun ho => (h.owns _ a ha ho).staged
    -- nobody else has open a set that this statement works on
    have hfree : ∀ (j : Nat) (b : Attempt), j ≠ o.attempt → s.attempts[j]? = some b →
        b.phase.Open → b.pub.key = a.pub.key →
        ¬ a.phase.Open ∧ ¬ Stages a.phase a'.phase := by
      intro j b hj hb hbo hkey
      refine ⟨fun hao => hj (h.alone j _ b a hb ha hbo hao hkey), fun hs => ?_⟩
      exact (he (hp.stmt_of_stages hs) a ha hs.1).2 j b hb hkey hbo
    refine ⟨clean_publishes hp h.clean hown, fun i b hb hbo => ?_,
      fun i j b c hb hc hbo hco hkey => ?_, fun k r hr hst f hf => ?_, fun i b hb hw => ?_⟩
    · rw [hget] at hb
      split at hb
      · cases hb
        exact owns_turn hpub hp hver (h.owns _ a ha) hbo
      · rename_i hi
        have hb' := h.owns i b hb hbo
        have hk := hfree i b hi hb hbo
        refine hb'.of_keeps (fun r hr hst => hp.row_eq hk hr (.inr (by rw [hst]; simp)))
          (hp.filesOf_eq fun he => (hk he).2) fun f hf hv => ?_
        rw [hver]
        exact hp.mem_noteVerified (fun he => (hk ((b.pub.ownFiles f hf).symm.trans he)).2) hv
    · rw [hget] at hb hc
      split at hb <;> split at hc
      · rename_i hi hj; rw [hi, hj]
      · rename_i hi hj
        cases hb
        rw [hpub] at hkey
        have hk := hfree j c hj hc hco hkey.symm
        exact absurd (hp.open_of_open hbo) (fun h => h.elim hk.1 hk.2)
      · rename_i hi hj
        cases hc
        rw [hpub] at hkey
        have hk := hfree i b hi hb hbo hkey
        exact absurd (hp.open_of_open hco) (fun h => h.elim hk.1 hk.2)
      · exact h.alone i j b c hb hc hbo hco hkey
    · rw [hver]
      rcases hp.ready_of_ready hr hst with ⟨hk, hph⟩ | ⟨hk, r0, hr0, hst0⟩
      · have hao : a.phase.Open := .inl ⟨_, hph⟩
        have hns : ¬ Stages a.phase a'.phase := fun hs => by
          rw [hs.1] at hph; cases hph
        have hmine := h.owns _ a ha hao
        rw [hp.filesOf_eq (fun _ => hns), hk, hmine.files] at hf
        refine hp.mem_noteVerified (fun _ => hns) (hmine.uploaded _ hph f ?_)
        rw [List.take_length]; exact hf
      · rw [hp.filesOf_eq hk] at hf
        have hfk : f.artifactSetHash = k := by
          simpa using (List.mem_filter.mp hf).2
        exact hp.mem_noteVerified (fun he => hk (hfk.symm.trans he)) (h.verified k r0 hr0 hst0 f hf)
    · rw [hget] at hb
      split at hb
      · cases hb
        rw [hwith, Bool.or_eq_true] at hw
        rcases hw with hw | hw
        · -- a finished attempt waits for ever
          have hfin := h.withdrew _ a ha hw
          rw [hfin] at hp
          exact hp.of_finished.1
        · by_contra hne
          rw [withdraws_publishes hp hne hown fun hs =>
            (he (hp.stmt_of_stages hs) a ha hs.1).1] at hw
          cases hw
      · exact h.withdrew i b hb hw

theorem supersedeSet_inv {now : Timestamp} {k : String} {by_ reason : Option String} (h : PublishersInv s)
    (he : Exclusive s (.supersedeSet now k by_ reason)) :
    PublishersInv (step s (.supersedeSet now k by_ reason)) := by
  refine ⟨fun k' r hr hst => ?_, fun i b hb hbo => ?_, h.alone, fun k' r hr hst => ?_, h.withdrew⟩
  · simp only [step] at hr
    rw [find?_supersedeArtifactSet] at hr
    split at hr
    · obtain ⟨r0, hr0, heq⟩ := Option.map_eq_some_iff.mp hr
      split at heq
      · subst heq; exact absurd rfl hst
      · subst heq; exact h.clean k' r0 hr0 hst
    · exact h.clean k' r hr hst
  · refine (h.owns i b hb hbo).of_keeps (fun r hr hst => ?_) rfl fun f _ hv => hv
    simp only [step]
    rw [find?_supersedeArtifactSet, if_neg fun hk => he b (List.mem_of_getElem? hb) hk hbo]
    exact hr
  · simp only [step] at hr
    rw [find?_supersedeArtifactSet] at hr
    split at hr
    · obtain ⟨r0, hr0, heq⟩ := Option.map_eq_some_iff.mp hr
      split at heq
      · subst heq; cases hst
      · subst heq; exact h.verified k' r0 hr0 hst
    · exact h.verified k' r hr hst

theorem step_inv (s : Publishers) (op : Op) (h : PublishersInv s) (he : Exclusive s op) :
    PublishersInv (step s op) := by
  cases op with
  | turn o => exact turn_inv o h he
  | supersedeSet => exact supersedeSet_inv h he

end Step

theorem always_sound (pubs : List Publication) (ops : List Op)
    (h : Along step Exclusive (start .empty pubs) ops) :
    Always step Sound (start .empty pubs) ops :=
  (always_of_step (inv_start pubs) step_inv h).imp fun _ => PublishersInv.sound

/-- One attempt that stages, uploads, marks and supersedes. -/
def aloneRun : List Op :=
  [.turn ⟨0, 0, .stage⟩, .turn ⟨0, 1, .upload true⟩, .turn ⟨0, 2, .markReady⟩,
   .turn ⟨0, 3, .supersede⟩]

theorem always_sound_alone :
    Along step Exclusive (start .empty [stepExport "r1"]) aloneRun ∧
      Always step Sound (start .empty [stepExport "r1"]) aloneRun := by
  have h : Along step Exclusive (start .empty [stepExport "r1"]) aloneRun := by
    refine ⟨fun _ a _ _ => ⟨fun _ => rfl, fun j b hb _ hbo => ?_⟩, ?_, ?_, ?_, trivial⟩ <;>
      try (intro hs; cases hs)
    simp only [start, List.getElem?_map, Option.map_eq_some_iff] at hb
    obtain ⟨p, -, rfl⟩ := hb
    rcases hbo with ⟨_, h⟩ | h <;> cases h
  exact ⟨h, always_sound _ _ h⟩

/-! ## Two attempts on one set -/

/-- The second attempt stages the set again before the first one marks it ready. -/
def restagedRun : List Op :=
  [.turn ⟨0, 0, .stage⟩, .turn ⟨0, 1, .upload true⟩, .turn ⟨1, 2, .stage⟩,
   .turn ⟨0, 3, .markReady⟩]

/-- The set is superseded by hand before its attempt marks it ready. -/
def revivedRun : List Op :=
  [.turn ⟨0, 0, .stage⟩, .turn ⟨0, 1, .upload true⟩, .supersedeSet 2 "set-r1" none none,
   .turn ⟨0, 3, .markReady⟩]

/-- The second attempt stages the finished set again and its upload fails. -/
def withdrawnRun : List Op :=
  [.turn ⟨0, 0, .stage⟩, .turn ⟨0, 1, .upload true⟩, .turn ⟨0, 2, .markReady⟩,
   .turn ⟨0, 3, .supersede⟩, .turn ⟨1, 4, .stage⟩, .turn ⟨1, 5, .upload false⟩,
   .turn ⟨1, 6, .markUploadFailed⟩]

theorem unsound_runs :
    (¬ ∀ pubs ops, Always step ReadyVerified (start .empty pubs) ops) ∧
    (¬ ∀ pubs ops, Always step ReadyUnsuperseded (start .empty pubs) ops) ∧
    ¬ ∀ pubs ops, Always step FailureKeeps (start .empty pubs) ops := by
  refine ⟨fun h => ?_, fun h => ?_, fun h => ?_⟩
  · have hrun := (h [stepExport "r1", stepExport "r1"] restagedRun).last
    obtain ⟨r, hr, hst⟩ := isReady_iff.mp (show isReady (run step (start .empty
      [stepExport "r1", stepExport "r1"]) restagedRun).tables "set-r1" = true by decide)
    exact absurd (hrun "set-r1" r hr hst) (by decide)
  · have hrun := (h [stepExport "r1"] revivedRun).last
    obtain ⟨r, hr, hst⟩ := (Option.any_eq_true _ _).mp (show ((run step (start .empty
      [stepExport "r1"]) revivedRun).tables.sets.find? "set-r1").any
        (fun r => r.status = .ready && !decide r.Unsuperseded) = true by decide)
    simp only [Bool.and_eq_true, decide_eq_true_eq, Bool.not_eq_true', decide_eq_false_iff_not]
      at hst
    exact hst.2 (hrun "set-r1" r hr hst.1)
  · have hrun := (h [stepExport "r1", stepExport "r1"] withdrawnRun).last
    exact absurd hrun (show ¬ ∀ a ∈ (run step (start .empty
      [stepExport "r1", stepExport "r1"]) withdrawnRun).attempts,
        a.withdrew = true → a.phase ≠ .failed ∧ a.phase ≠ .crashed by decide)

end Publishing
end OnshapeExport
