import OnshapeExport.Publication

/-!
# Replacement

Several publications of one output: distinct sets that share an output key, so that each of them,
once ready, supersedes the others. Marking a set ready and superseding the rest are two statements.

* `oneReady_iff_marksLast` — when all have finished, exactly one of the sets is ready and it has
  replaced every other one if and only if one of the publications marked its set ready after all
  the others had finished.
* `both_superseded_run` — two publications that supersede each other: nothing stays ready.
-/

namespace OnshapeExport
namespace Publishing

open Relational Artifacts Trace

/-- Exactly one set of the output is ready, it was published, and every other published set and
every other set that was ready in `t0` is superseded. -/
def OneReady (t0 : ArtifactTables) (pubs : List Publication) (key : OutputKey)
    (t : ArtifactTables) : Prop :=
  ∃ p ∈ pubs,
    (∃ r, t.sets.find? p.key = some r ∧ r.outputKey = key ∧ r.status = .ready) ∧
    (∀ k r, t.sets.find? k = some r → r.outputKey = key → r.status = .ready → k = p.key) ∧
    ∀ k, k ≠ p.key →
      (k ∈ pubs.map Publication.key ∨
        ∃ r, t0.sets.find? k = some r ∧ r.outputKey = key ∧ r.status = .ready) →
      ∃ r, t.sets.find? k = some r ∧ r.status = .superseded

/-- Some publication marks its set ready in a state where all the others have finished. -/
def MarksLast (s0 : Publishers) (ops : List Turn) : Prop :=
  ∃ pre i now post, ops = pre ++ ⟨i, now, .markReady⟩ :: post ∧
    (∃ a, (run turn s0 pre).attempts[i]? = some a ∧
      a.phase = .uploading a.pub.files.length) ∧
    ∀ j a, j ≠ i → (run turn s0 pre).attempts[j]? = some a → a.phase = .finished

/-- The set was published under the output: it is ready, or was superseded since. -/
def Published (key : OutputKey) (t : ArtifactTables) (k : String) : Prop :=
  ∃ r, t.sets.find? k = some r ∧ r.outputKey = key ∧ (r.status = .ready ∨ r.status = .superseded)

def Superseded (key : OutputKey) (t : ArtifactTables) (k : String) : Prop :=
  ∃ r, t.sets.find? k = some r ∧ r.outputKey = key ∧ r.status = .superseded

def Ready (key : OutputKey) (t : ArtifactTables) (k : String) : Prop :=
  ∃ r, t.sets.find? k = some r ∧ r.outputKey = key ∧ r.status = .ready

section Statements

variable {now : Timestamp} {p : Publication} {t t' : ArtifactTables} {phase phase' : Phase}
  {stmt : Stmt} {key : OutputKey} {k : String}

theorem Publishes.published (hp : Publishes now p t phase stmt phase' t') (hk : k ≠ p.key)
    (h : Published key t k) : Published key t' k := by
  obtain ⟨r, hr, hkey, hst⟩ := h
  rcases hp.foreign hk with he | ⟨-, -, he⟩
  · exact ⟨r, he.trans hr, hkey, hst⟩
  · rw [hr, Option.map_some] at he
    refine ⟨_, he, ?_, ?_⟩ <;> split
    · exact hkey
    · exact hkey
    · exact .inr rfl
    · exact hst

theorem Publishes.superseded_stays (hp : Publishes now p t phase stmt phase' t')
    (hk : k ≠ p.key) (h : Superseded key t k) : Superseded key t' k := by
  obtain ⟨r, hr, hkey, hst⟩ := h
  rcases hp.foreign hk with he | ⟨-, -, he⟩
  · exact ⟨r, he.trans hr, hkey, hst⟩
  · rw [hr, Option.map_some, if_neg (by simp [replacedBy, hst])] at he
    exact ⟨r, he, hkey, hst⟩

/-- The row of an attempt that is uploading carries the attempt's output. -/
theorem Publishes.own_written {done : Nat}
    (hp : Publishes now p t phase stmt (.uploading done) t') (hkey : p.artifact.outputKey = key)
    (h : (∃ done, phase = .uploading done) →
      ∃ r, t.sets.find? p.key = some r ∧ r.outputKey = key) :
    ∃ r, t'.sets.find? p.key = some r ∧ r.outputKey = key := by
  cases hp with
  | staged hs =>
    obtain ⟨-, hs⟩ := stageArtifact_ok hs
    exact ⟨stagedSet now p.artifact, by rw [(stageArtifactInner_ok hs).1, if_pos rfl], hkey⟩
  | uploaded => exact h ⟨_, rfl⟩
  | waits => exact h ⟨_, rfl⟩

/-- The row of an attempt past its mark is ready, or was superseded since. -/
theorem Publishes.own_marked (hp : Publishes now p t phase stmt phase' t')
    (hphase : phase' = .superseding ∨ phase' = .finished)
    (hw : (∃ done, phase = .uploading done) →
      ∃ r, t.sets.find? p.key = some r ∧ r.outputKey = key)
    (hm : phase = .superseding ∨ phase = .finished → Published key t p.key) :
    Published key t' p.key := by
  cases hp with
  | marked =>
    obtain ⟨r, hr, hrk⟩ := hw ⟨_, rfl⟩
    refine ⟨readySet now p.artifact.objectKey r, ?_, hrk, .inl rfl⟩
    rw [find?_markArtifactSetReady, if_pos rfl, hr, Option.map_some]
  | superseded =>
    obtain ⟨r, hr, hrk, hst⟩ := hm (.inl rfl)
    have hkk : r.artifactSetHash = p.key := Table.find?_key hr
    refine ⟨r, ?_, hrk, hst⟩
    rw [find?_supersedeReadyArtifactsForOutput, hr, Option.map_some,
      if_neg (by simp [replacedBy, hkk])]
  | waits => exact hm hphase
  | staged => rcases hphase with h | h <;> cases h
  | rejected => rcases hphase with h | h <;> cases h
  | uploaded => rcases hphase with h | h <;> cases h
  | broken => rcases hphase with h | h <;> cases h
  | recorded => rcases hphase with h | h <;> cases h
  | crashed => rcases hphase with h | h <;> cases h

/-- The supersede statement leaves its output no ready set but its own. -/
theorem supersede_others (hkey : p.artifact.outputKey = key) {r : ArtifactSet}
    (hr : (supersedeReadyArtifactsForOutput now p.artifact.outputKey p.key (some "replaced")
      t).2.sets.find? k = some r) (hk : r.outputKey = key) (hst : r.status = .ready) :
    k = p.key := by
  rw [find?_supersedeReadyArtifactsForOutput, Option.map_eq_some_iff] at hr
  obtain ⟨r', hr', he⟩ := hr
  have hkk : r'.artifactSetHash = k := Table.find?_key hr'
  split at he
  · subst he; cases hst
  · rename_i hn
    subst he
    by_contra hne
    exact hn (by simp [replacedBy, hkey, hk, hst, hkk, hne])

theorem supersede_published (now : Timestamp) (hkey : p.artifact.outputKey = key) (hk : k ≠ p.key)
    (h : Published key t k) :
    Superseded key (supersedeReadyArtifactsForOutput now p.artifact.outputKey p.key
      (some "replaced") t).2 k := by
  obtain ⟨r, hr, hrk, hst⟩ := h
  have hkk : r.artifactSetHash = k := Table.find?_key hr
  refine ⟨_, by rw [find?_supersedeReadyArtifactsForOutput, hr, Option.map_some], ?_, ?_⟩ <;> split
  · exact hrk
  · exact hrk
  · rfl
  · rename_i hn
    rcases hst with hst | hst
    · exact absurd (by simp [replacedBy, hkey, hrk, hst, hkk, hk]) hn
    · exact hst

theorem supersede_own (h : Ready key t p.key) :
    Ready key (supersedeReadyArtifactsForOutput now p.artifact.outputKey p.key
      (some "replaced") t).2 p.key := by
  obtain ⟨r, hr, hrk, hst⟩ := h
  have hkk : r.artifactSetHash = p.key := Table.find?_key hr
  refine ⟨r, ?_, hrk, hst⟩
  rw [find?_supersedeReadyArtifactsForOutput, hr, Option.map_some,
    if_neg (by simp [replacedBy, hkk])]

end Statements

/-! ## The publications of one output -/

section Output

variable {t0 : ArtifactTables} {pubs : List Publication} {key : OutputKey}

/-- What every state reached from `start t0 pubs` keeps. -/
structure Sharing (t0 : ArtifactTables) (pubs : List Publication) (key : OutputKey)
    (s : Publishers) : Prop where
  pubs_eq : s.attempts.map Attempt.pub = pubs
  written : ∀ (i : Nat) (a : Attempt), s.attempts[i]? = some a →
    (∃ done, a.phase = .uploading done) →
    ∃ r, s.tables.sets.find? a.pub.key = some r ∧ r.outputKey = key
  marked : ∀ (i : Nat) (a : Attempt), s.attempts[i]? = some a →
    a.phase = .superseding ∨ a.phase = .finished → Published key s.tables a.pub.key
  earlier : ∀ k, k ∉ pubs.map Publication.key → Ready key t0 k → Published key s.tables k

variable (hkey : ∀ p ∈ pubs, p.artifact.outputKey = key)
  (hdist : (pubs.map Publication.key).Nodup)

theorem sharing_start : Sharing t0 pubs key (start t0 pubs) where
  pubs_eq := by simp [start, Function.comp_def]
  written i a hi hp := by
    simp only [start, List.getElem?_map, Option.map_eq_some_iff] at hi
    obtain ⟨p, -, rfl⟩ := hi
    obtain ⟨done, hd⟩ := hp
    cases hd
  marked i a hi hp := by
    simp only [start, List.getElem?_map, Option.map_eq_some_iff] at hi
    obtain ⟨p, -, rfl⟩ := hi
    rcases hp with hp | hp <;> cases hp
  earlier k _ h := by
    obtain ⟨r, hr, hk, hst⟩ := h
    exact ⟨r, hr, hk, .inl hst⟩

theorem Sharing.getElem {s : Publishers} (h : Sharing t0 pubs key s) {i : Nat} {a : Attempt}
    (ha : s.attempts[i]? = some a) : pubs[i]? = some a.pub := by
  rw [← h.pubs_eq, List.getElem?_map, ha]; rfl

include hdist in
theorem Sharing.keys_ne {s : Publishers} (h : Sharing t0 pubs key s) {i j : Nat} {a b : Attempt}
    (ha : s.attempts[i]? = some a) (hb : s.attempts[j]? = some b) (hij : i ≠ j) :
    a.pub.key ≠ b.pub.key := by
  intro he
  have hi : (pubs.map Publication.key)[i]? = some a.pub.key := by
    rw [List.getElem?_map, h.getElem ha]; rfl
  have hj : (pubs.map Publication.key)[j]? = some a.pub.key := by
    rw [List.getElem?_map, h.getElem hb, he]; rfl
  exact hij ((List.getElem?_inj (List.getElem?_eq_some_iff.mp hi).1 hdist).mp (hi.trans hj.symm))

include hkey in
theorem Sharing.outputKey {s : Publishers} (h : Sharing t0 pubs key s) {i : Nat} {a : Attempt}
    (ha : s.attempts[i]? = some a) : a.pub.artifact.outputKey = key :=
  hkey _ (List.mem_of_getElem? (h.getElem ha))

include hkey hdist in
theorem turn_sharing (s : Publishers) (o : Turn) (h : Sharing t0 pubs key s) :
    Sharing t0 pubs key (turn s o) := by
  cases ha : s.attempts[o.attempt]? with
  | none => rw [turn_none ha]; exact h
  | some a =>
    obtain ⟨a', hpub, hp, hget, -⟩ := turn_some ha
    refine ⟨?_, fun i b hb hup => ?_, fun i b hb hph => ?_, fun k hk hr => ?_⟩
    · rw [← h.pubs_eq]
      refine List.ext_getElem? fun i => ?_
      rw [List.getElem?_map, List.getElem?_map, turn_pub]
    · rw [hget] at hb
      split at hb
      · cases hb
        obtain ⟨done, hd⟩ := hup
        rw [hd] at hp
        rw [hpub]
        exact hp.own_written (h.outputKey hkey ha) (h.written _ a ha)
      · rename_i hi
        obtain ⟨r, hr, hrk⟩ := h.written i b hb hup
        rcases hp.foreign (h.keys_ne hdist hb ha hi) with he | ⟨-, -, he⟩
        · exact ⟨r, he.trans hr, hrk⟩
        · rw [hr, Option.map_some] at he
          exact ⟨_, he, by split <;> exact hrk⟩
    · rw [hget] at hb
      split at hb
      · cases hb
        rw [hpub]
        exact hp.own_marked hph (h.written _ a ha) (h.marked _ a ha)
      · rename_i hi
        exact hp.published (h.keys_ne hdist hb ha hi) (h.marked i b hb hph)
    · have hne : k ≠ a.pub.key := by
        rintro rfl
        exact hk (List.mem_map.mpr ⟨a.pub, List.mem_of_getElem? (h.getElem ha), rfl⟩)
      exact hp.published hne (h.earlier k hk hr)

/-! ### A set that another publication overtakes -/

/-- Attempt `i` has marked its set, and the set is superseded if attempt `j` has finished. -/
structure Overtaken (key : OutputKey) (i j : Nat) (s : Publishers) (a : Attempt) : Prop where
  attempt : s.attempts[i]? = some a
  phase : a.phase = .superseding ∨ a.phase = .finished ∨ a.phase = .crashed
  published : Published key s.tables a.pub.key
  superseded : ∀ b, s.attempts[j]? = some b → b.phase = .finished →
    Superseded key s.tables a.pub.key

/-- From its mark on an attempt leaves its own row alone. -/
theorem Publishes.own_settled {now : Timestamp} {p : Publication} {t t' : ArtifactTables}
    {phase phase' : Phase} {stmt : Stmt} (hp : Publishes now p t phase stmt phase' t')
    (hphase : phase = .superseding ∨ phase = .finished ∨ phase = .crashed) :
    (phase' = .superseding ∨ phase' = .finished ∨ phase' = .crashed) ∧
      t'.sets.find? p.key = t.sets.find? p.key := by
  cases hp with
  | superseded =>
    refine ⟨.inr (.inl rfl), ?_⟩
    rw [find?_supersedeReadyArtifactsForOutput]
    cases hf : t.sets.find? p.key with
    | none => rfl
    | some r =>
      have hkk : r.artifactSetHash = p.key := Table.find?_key hf
      rw [Option.map_some, if_neg (by simp [replacedBy, hkk])]
  | crashed => exact ⟨.inr (.inr rfl), rfl⟩
  | waits => exact ⟨hphase, rfl⟩
  | staged => rcases hphase with h | h | h <;> cases h
  | rejected => rcases hphase with h | h | h <;> cases h
  | uploaded => rcases hphase with h | h | h <;> cases h
  | broken => rcases hphase with h | h | h <;> cases h
  | marked => rcases hphase with h | h | h <;> cases h
  | recorded => rcases hphase with h | h | h <;> cases h

include hkey hdist in
theorem turn_overtaken {s : Publishers} (o : Turn) {i j : Nat} {a : Attempt} (hij : i ≠ j)
    (hs : Sharing t0 pubs key s) (h : Overtaken key i j s a) :
    ∃ a', Overtaken key i j (turn s o) a' := by
  cases hb : s.attempts[o.attempt]? with
  | none => rw [turn_none hb]; exact ⟨a, h⟩
  | some b =>
    obtain ⟨b', hpub, hp, hget, -⟩ := turn_some hb
    by_cases hi : i = o.attempt
    · -- the attempt's own statements leave its row alone, and the other attempt as it is
      have hab : b = a := by rw [← hi, h.attempt] at hb; cases hb; rfl
      subst hab
      obtain ⟨hphase, hrow⟩ := hp.own_settled h.phase
      have hj : j ≠ o.attempt := fun he => hij (hi.trans he.symm)
      refine ⟨b', ⟨by rw [hget, if_pos hi], hphase, ?_, fun c hc hfin => ?_⟩⟩
      · rw [Published, hpub, hrow]; exact h.published
      · rw [hget, if_neg hj] at hc
        rw [Superseded, hpub, hrow]; exact h.superseded c hc hfin
    · have hne := hs.keys_ne hdist h.attempt hb hi
      refine ⟨a, ⟨by rw [hget, if_neg hi]; exact h.attempt, h.phase, hp.published hne h.published,
        fun c hc hfin => ?_⟩⟩
      rw [hget] at hc
      split at hc
      · rename_i hj
        cases hc
        -- the other attempt finishes here, or had finished before
        by_cases hbf : b.phase = .finished
        · exact hp.superseded_stays hne (h.superseded b (hj ▸ hb) hbf)
        · generalize b.phase = ph at hp hbf
          generalize o.stmt = st at hp
          rw [hfin] at hp
          generalize (turn s o).tables = t' at hp ⊢
          cases hp with
          | superseded => exact supersede_published o.now (hs.outputKey hkey hb) hne h.published
          | waits => exact absurd rfl hbf
      · exact hp.superseded_stays hne (h.superseded c hc hfin)

/-! ### A set marked after all the others have finished -/

/-- Attempt `i` marked its set with all the others finished: its set is the ready one, and once
`i` has finished it is the only one. -/
structure Last (t0 : ArtifactTables) (pubs : List Publication) (key : OutputKey) (i : Nat)
    (s : Publishers) (a : Attempt) : Prop where
  attempt : s.attempts[i]? = some a
  phase : a.phase = .superseding ∨ a.phase = .finished ∨ a.phase = .crashed
  others : ∀ (j : Nat) (b : Attempt), j ≠ i → s.attempts[j]? = some b → b.phase = .finished
  ready : Ready key s.tables a.pub.key
  alone : a.phase = .finished → OneReady t0 pubs key s.tables

include hkey in
theorem turn_last {s : Publishers} (o : Turn) {i : Nat} {a : Attempt}
    (hs : Sharing t0 pubs key s) (h : Last t0 pubs key i s a) :
    ∃ a', Last t0 pubs key i (turn s o) a' := by
  cases hb : s.attempts[o.attempt]? with
  | none => rw [turn_none hb]; exact ⟨a, h⟩
  | some b =>
    obtain ⟨b', hpub, hp, hget, -⟩ := turn_some hb
    by_cases hi : i = o.attempt
    · have hab : b = a := by rw [← hi, h.attempt] at hb; cases hb; rfl
      subst hab
      obtain ⟨hphase, hrow⟩ := hp.own_settled h.phase
      refine ⟨b', ⟨by rw [hget, if_pos hi], hphase, fun j c hj hc => ?_, ?_, fun hfin => ?_⟩⟩
      · rw [hget, if_neg (fun he => hj (he.trans hi.symm))] at hc
        exact h.others j c hj hc
      · rw [Ready, hpub, hrow]; exact h.ready
      · by_cases hbf : b.phase = .finished
        · rw [hbf] at hp
          rw [hp.of_finished.2]
          exact h.alone hbf
        · have hmem := List.mem_of_getElem? (hs.getElem hb)
          have hready := h.ready
          generalize hph : b.phase = ph at hp hbf
          generalize o.stmt = st at hp
          rw [hfin] at hp
          generalize (turn s o).tables = t' at hp ⊢
          cases hp with
          | waits => exact absurd rfl hbf
          | superseded =>
            refine ⟨b.pub, hmem, supersede_own hready, fun k r hr hk hst =>
              supersede_others (hs.outputKey hkey hb) hr hk hst, fun k hk hold => ?_⟩
            have hpubd : Published key s.tables k := by
              by_cases hkp : k ∈ pubs.map Publication.key
              · -- another publication's set: its attempt has finished
                obtain ⟨q, hq, rfl⟩ := List.mem_map.mp hkp
                obtain ⟨j, hj⟩ := List.mem_iff_getElem?.mp hq
                have hlen : s.attempts.length = pubs.length := by
                  rw [← hs.pubs_eq, List.length_map]
                obtain ⟨c, hc⟩ : ∃ c, s.attempts[j]? = some c :=
                  ⟨_, List.getElem?_eq_getElem
                    (by rw [hlen]; exact (List.getElem?_eq_some_iff.mp hj).1)⟩
                have hcq : c.pub = q := by
                  have := hs.getElem hc
                  rw [hj] at this; cases this; rfl
                have hji : j ≠ i := by
                  rintro rfl
                  rw [h.attempt] at hc; cases hc
                  exact hk (by rw [hcq])
                rw [← hcq]
                exact hs.marked j c hc (.inr (h.others j c hji hc))
              · exact hs.earlier k hkp (hold.resolve_left hkp)
            obtain ⟨r, hr, -, hst⟩ := supersede_published o.now (hs.outputKey hkey hb) hk
              hpubd
            exact ⟨r, hr, hst⟩
    · -- the attempt that runs has finished and only waits
      have hbf := h.others _ b (Ne.symm hi) hb
      rw [hbf] at hp
      obtain ⟨hph, ht⟩ := hp.of_finished
      refine ⟨a, ⟨by rw [hget, if_neg hi]; exact h.attempt, h.phase, fun j c hj hc => ?_,
        by rw [ht]; exact h.ready, fun hf => by rw [ht]; exact h.alone hf⟩⟩
      rw [hget] at hc
      split at hc
      · cases hc; exact hph
      · exact h.others j c hj hc

/-! ### The whole run -/

include hkey hdist in
theorem run_sharing (ops : List Turn) : Sharing t0 pubs key (run turn (start t0 pubs) ops) :=
  run_inv sharing_start (turn_sharing hkey hdist) ops

include hkey hdist in
theorem run_overtaken {s : Publishers} (ops : List Turn) {i j : Nat} {a : Attempt} (hij : i ≠ j)
    (hs : Sharing t0 pubs key s) (h : Overtaken key i j s a) :
    ∃ a', Overtaken key i j (run turn s ops) a' := by
  exact (run_inv (I := fun s => Sharing t0 pubs key s ∧ ∃ a, Overtaken key i j s a) ⟨hs, a, h⟩
    (fun s o ⟨hs, a, h⟩ =>
      ⟨turn_sharing hkey hdist s o hs, turn_overtaken hkey hdist o hij hs h⟩) ops).2

include hkey hdist in
theorem run_last {s : Publishers} (ops : List Turn) {i : Nat} {a : Attempt}
    (hs : Sharing t0 pubs key s) (h : Last t0 pubs key i s a) :
    ∃ a', Last t0 pubs key i (run turn s ops) a' := by
  exact (run_inv (I := fun s => Sharing t0 pubs key s ∧ ∃ a, Last t0 pubs key i s a) ⟨hs, a, h⟩
    (fun s o ⟨hs, a, h⟩ =>
      ⟨turn_sharing hkey hdist s o hs, turn_last hkey o hs h⟩) ops).2

include hkey hdist in
/-- What the mark of attempt `i` leaves: its set is ready and the attempt is about to supersede. -/
theorem mark_ready {s : Publishers} (hs : Sharing t0 pubs key s) {i : Nat} {a : Attempt}
    (now : Timestamp) (ha : s.attempts[i]? = some a)
    (hphase : a.phase = .uploading a.pub.files.length) :
    Sharing t0 pubs key (turn s ⟨i, now, .markReady⟩) ∧
      ∃ a', (turn s ⟨i, now, .markReady⟩).attempts[i]? = some a' ∧ a'.phase = .superseding ∧
        Ready key (turn s ⟨i, now, .markReady⟩).tables a'.pub.key := by
  obtain ⟨htab, a', ha', hpub, hphase'⟩ := turn_markReady now ha hphase
  obtain ⟨r, hr, hrk⟩ := hs.written i a ha ⟨_, hphase⟩
  refine ⟨turn_sharing hkey hdist s _ hs, a', ha', hphase',
    readySet now a.pub.artifact.objectKey r, ?_, hrk, rfl⟩
  rw [htab, hpub, find?_markArtifactSetReady, if_pos rfl, hr, Option.map_some]

theorem Sharing.attempt_of {s : Publishers} (h : Sharing t0 pubs key s) {i : Nat}
    {p : Publication} (hi : pubs[i]? = some p) :
    ∃ a, s.attempts[i]? = some a ∧ a.pub = p := by
  rw [← h.pubs_eq, List.getElem?_map, Option.map_eq_some_iff] at hi
  exact hi

end Output

/-- A turn of another attempt leaves this one as it is. -/
theorem turn_other {s : Publishers} {o : Turn} {j : Nat} (hj : j ≠ o.attempt) :
    (turn s o).attempts[j]? = s.attempts[j]? := by
  cases hb : s.attempts[o.attempt]? with
  | none => rw [turn_none hb]
  | some b =>
    obtain ⟨b', -, -, hget, -⟩ := turn_some hb
    rw [hget, if_neg hj]

/-- An attempt comes to its supersede statement by marking its set ready. -/
theorem turn_marks {s : Publishers} {o : Turn} {i : Nat}
    (h0 : ¬ ∃ a, s.attempts[i]? = some a ∧ (a.phase = .superseding ∨ a.phase = .finished))
    (h1 : ∃ a, (turn s o).attempts[i]? = some a ∧
      (a.phase = .superseding ∨ a.phase = .finished)) :
    o = ⟨i, o.now, .markReady⟩ ∧
      ∃ a, s.attempts[i]? = some a ∧ a.phase = .uploading a.pub.files.length := by
  obtain ⟨a1, ha1, hph1⟩ := h1
  cases hb : s.attempts[o.attempt]? with
  | none => rw [turn_none hb] at ha1; exact absurd ⟨a1, ha1, hph1⟩ h0
  | some b =>
    obtain ⟨b', -, hp, hget, -⟩ := turn_some hb
    rw [hget] at ha1
    split at ha1
    · rename_i hi
      subst hi
      cases ha1
      have hnot : ¬ (b.phase = .superseding ∨ b.phase = .finished) := fun h => h0 ⟨b, hb, h⟩
      obtain ⟨j, now, stmt⟩ := o
      simp only at hp hb hnot ⊢
      generalize hpb : b.phase = ph at hp hnot
      generalize a1.phase = ph' at hp hph1
      generalize (turn s ⟨j, now, stmt⟩).tables = t' at hp
      cases hp with
      | marked => exact ⟨rfl, b, hb, hpb⟩
      | superseded => exact absurd (.inl rfl) hnot
      | waits => exact absurd hph1 hnot
      | staged => rcases hph1 with h | h <;> cases h
      | rejected => rcases hph1 with h | h <;> cases h
      | uploaded => rcases hph1 with h | h <;> cases h
      | broken => rcases hph1 with h | h <;> cases h
      | recorded => rcases hph1 with h | h <;> cases h
      | crashed => rcases hph1 with h | h <;> cases h
    · exact absurd ⟨a1, ha1, hph1⟩ h0

theorem oneReady_iff_marksLast (t0 : ArtifactTables) (pubs : List Publication) (key : OutputKey)
    (ops : List Turn) (hkey : ∀ p ∈ pubs, p.artifact.outputKey = key)
    (hdist : (pubs.map Publication.key).Nodup)
    (hfin : ∀ a ∈ (run turn (start t0 pubs) ops).attempts, a.phase = .finished) :
    OneReady t0 pubs key (run turn (start t0 pubs) ops).tables ↔
      MarksLast (start t0 pubs) ops := by
  constructor
  · rintro ⟨p, hp, ⟨r, hr, -, hst⟩, -, -⟩
    obtain ⟨i, hi⟩ := List.mem_iff_getElem?.mp hp
    have hend : Sharing t0 pubs key (run turn (start t0 pubs) ops) := run_sharing hkey hdist ops
    -- the attempt of the ready set came to its mark at some step
    have h0 : ¬ ∃ a, (start t0 pubs).attempts[i]? = some a ∧
        (a.phase = .superseding ∨ a.phase = .finished) := by
      rintro ⟨a, ha, hph⟩
      simp only [start, List.getElem?_map, Option.map_eq_some_iff] at ha
      obtain ⟨q, -, rfl⟩ := ha
      rcases hph with h | h <;> cases h
    have h1 : ∃ a, (run turn (start t0 pubs) ops).attempts[i]? = some a ∧
        (a.phase = .superseding ∨ a.phase = .finished) := by
      obtain ⟨a, ha, -⟩ := hend.attempt_of hi
      exact ⟨a, ha, .inr (hfin a (List.mem_of_getElem? ha))⟩
    obtain ⟨pre, o, post, hops, hpre, hpost⟩ :=
      exists_turning (Q := fun s : Publishers => ∃ a, s.attempts[i]? = some a ∧
        (a.phase = .superseding ∨ a.phase = .finished)) h0 h1
    obtain ⟨ho, a, ha, hphase⟩ := turn_marks hpre hpost
    rw [ho] at hops
    refine ⟨pre, i, o.now, post, hops, ⟨a, ha, hphase⟩, fun j b hj hb => ?_⟩
    by_contra hnot
    -- an attempt still to finish would supersede the set
    obtain ⟨hs1, a1, ha1, hphase1, hready⟩ :=
      mark_ready hkey hdist (run_sharing hkey hdist pre) o.now ha hphase
    have hover : Overtaken key i j (turn (run turn (start t0 pubs) pre) ⟨i, o.now, .markReady⟩)
        a1 := by
      refine ⟨ha1, .inl hphase1, ?_, fun c hc hfc => ?_⟩
      · obtain ⟨r, hr, hk, hst⟩ := hready
        exact ⟨r, hr, hk, .inl hst⟩
      · rw [turn_other hj, hb] at hc
        cases hc
        exact absurd hfc hnot
    obtain ⟨a2, h2⟩ := run_overtaken hkey hdist post (Ne.symm hj) hs1 hover
    rw [← run_cons, ← run_append, ← hops] at h2
    obtain ⟨c, hc, -⟩ := hend.attempt_of ((run_sharing hkey hdist pre).getElem hb)
    obtain ⟨r2, hr2, -, hst2⟩ := h2.superseded c hc (hfin c (List.mem_of_getElem? hc))
    have hpub : a2.pub = p := by
      have := hend.getElem h2.attempt
      rw [hi] at this; cases this; rfl
    rw [hpub, hr] at hr2
    cases hr2
    rw [hst] at hst2
    cases hst2
  · rintro ⟨pre, i, now, post, hops, ⟨a, ha, hphase⟩, hothers⟩
    obtain ⟨hs1, a1, ha1, hphase1, hready⟩ :=
      mark_ready hkey hdist (run_sharing hkey hdist pre) now ha hphase
    have hlast : Last t0 pubs key i (turn (run turn (start t0 pubs) pre) ⟨i, now, .markReady⟩)
        a1 := by
      refine ⟨ha1, .inl hphase1, fun j b hj hb => ?_, hready, fun hf => ?_⟩
      · rw [turn_other hj] at hb
        exact hothers j b hj hb
      · rw [hphase1] at hf; cases hf
    obtain ⟨a2, h2⟩ := run_last hkey hdist post hs1 hlast
    rw [← run_cons, ← run_append, ← hops] at h2
    exact h2.alone (hfin a2 (List.mem_of_getElem? h2.attempt))


/-! ### Two exports of one output -/

def stepOutput : OutputKey := ⟨"source", "config", "options", "step"⟩

def inTurn (i : Nat) : List Turn :=
  [⟨i, 0, .stage⟩, ⟨i, 1, .upload true⟩, ⟨i, 2, .markReady⟩, ⟨i, 3, .supersede⟩]

theorem oneReady_iff_marksLast_inTurn :
    (∀ p ∈ [stepExport "r1", stepExport "r2"], p.artifact.outputKey = stepOutput) ∧
      (OneReady .empty [stepExport "r1", stepExport "r2"] stepOutput
          (run turn (start .empty [stepExport "r1", stepExport "r2"])
            (inTurn 0 ++ inTurn 1)).tables ↔
        MarksLast (start .empty [stepExport "r1", stepExport "r2"]) (inTurn 0 ++ inTurn 1)) :=
  ⟨by decide, oneReady_iff_marksLast .empty [stepExport "r1", stepExport "r2"] stepOutput
    (inTurn 0 ++ inTurn 1) (by decide) (by decide) (by decide)⟩

/-- Both publications mark their sets before either supersedes: each supersedes the other's. -/
def crossing : List Turn :=
  [⟨0, 0, .stage⟩, ⟨1, 0, .stage⟩, ⟨0, 1, .upload true⟩, ⟨1, 1, .upload true⟩,
   ⟨0, 2, .markReady⟩, ⟨1, 2, .markReady⟩, ⟨0, 3, .supersede⟩, ⟨1, 3, .supersede⟩]

theorem both_superseded_run : ¬ ∀ (t0 : ArtifactTables) (pubs : List Publication)
    (key : OutputKey) (ops : List Turn), pubs ≠ [] →
    (∀ p ∈ pubs, p.artifact.outputKey = key) → (pubs.map Publication.key).Nodup →
    (∀ a ∈ (run turn (start t0 pubs) ops).attempts, a.phase = .finished) →
    OneReady t0 pubs key (run turn (start t0 pubs) ops).tables := by
  intro h
  obtain ⟨p, hp, ⟨r, hr, -, hst⟩, -⟩ := h .empty [stepExport "r1", stepExport "r2"] stepOutput
    crossing (by decide) (by decide) (by decide) (by decide)
  have hnone : ∀ r ∈ (run turn (start .empty [stepExport "r1", stepExport "r2"])
      crossing).tables.sets.rows, r.status = .superseded := by decide
  rw [hnone r (Table.find?_mem hr)] at hst
  cases hst

end Publishing
end OnshapeExport
