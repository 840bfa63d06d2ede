import OnshapeExport.Lib.Trace
import OnshapeExport.OutputCheckpoints
import Mathlib.Logic.Function.Basic

/-!
# CheckpointRuns

Any number of `persist` calls on one root, one file operation after the other, with failures and
crashes between any two. A call fills a temporary directory and renames it to the name of its
receipt; what it finds at that name it reopens and never writes.

* `step` — one operation of one call; `rename` is that of the file system, which replaces a
  directory that is empty.
* `Next`, `act_next` — all one call can do to the root.
* `Retained`, `retained_step` — what holds of the calls that are under way, and of their answers.
* `persist_completes` — a call that is alone and meets no failure names its output.
* `checkpoints` — a destination is never replaced, and what was persisted reopens.
-/

namespace OnshapeExport
namespace Checkpoints

open CacheKey Checks Json OnshapeApi Processing Protocol Runner Trace

/-- How far a call is. -/
inductive Phase where
  | created
  | copying (count : Nat)
  | copied
  | describing (count : Nat)
  | described
  | vacant
  | renamed
  | returned (answer : Except CheckpointError String)
  | crashed

/-- One call of `persist`. -/
structure Worker where
  output : VerifiedGeneratorOutput
  prepared : PreparedGeneratorProcessing
  temporary : String
  phase : Phase

structure State where
  root : Root
  workers : List Worker

def initial (root : Root) : State := ⟨root, []⟩

/-- The chunk of a `work` bounds what a read or a write moves. -/
inductive Action where
  | start (output : VerifiedGeneratorOutput) (prepared : PreparedGeneratorProcessing)
      (suffix : String)
  | work (worker : Nat) (chunk : Nat)
  | fail (worker : Nat)
  | crash (worker : Nat)

def temporaryName (suffix : String) : String := "accepted-" ++ suffix

section Step

variable (digests : Digests) (fileSha256 : ByteArray → String)

def Worker.identity (wk : Worker) : String := checkpointIdentity digests (receiptOf wk.output)

/-- What the temporary directory holds in a phase. -/
def written (output : VerifiedGeneratorOutput) : Phase → List (String × Node)
  | .copying count => [("output.bin", .file ⟨true, output.bytes.extract 0 count⟩)]
  | .copied => [("output.bin", .file ⟨true, output.bytes⟩)]
  | .describing count => [("output.bin", .file ⟨true, output.bytes⟩),
      ("receipt.json", .file ⟨true, (receiptBytes digests (receiptOf output)).extract 0 count⟩)]
  | .described | .vacant => (sealedDirectory digests output).nodes
  | _ => []

/-- The checks of a call before it writes. -/
def passes (root : Root) (output : VerifiedGeneratorOutput)
    (prepared : PreparedGeneratorProcessing) : Except CheckpointError Unit := do
  rootCheck root
  validate digests (receiptOf output) prepared
  ensure ((receiptBytes digests (receiptOf output)).size ≤ receiptLimit)
    (.message "output checkpoint receipt exceeds its bound")

/-- `rename`: a directory gives way when it is empty, and nothing else does. -/
def rename (entries : String → Option Entry) (source destination : String) :
    Option (String → Option Entry) :=
  let moved := Function.update (Function.update entries source none) destination (entries source)
  match entries source, entries destination with
  | none, _ => none
  | some _, none => some moved
  | some _, some (.directory ⟨_, []⟩) => some moved
  | some _, some _ => none

def State.put (s : State) (i : Nat) (wk : Worker) (phase : Phase)
    (entries : String → Option Entry) : State where
  root := { s.root with entries := entries }
  workers := s.workers.set i { wk with phase := phase }

/-- The call goes on to a phase, with its temporary directory. -/
def advance (s : State) (i : Nat) (wk : Worker) (phase : Phase) : State :=
  s.put i wk phase (Function.update s.root.entries wk.temporary
    (some (.directory ⟨true, written digests wk.output phase⟩)))

/-- The call returns, and its temporary directory is removed. -/
def finish (s : State) (i : Nat) (wk : Worker) (answer : Except CheckpointError String) : State :=
  s.put i wk (.returned answer) (Function.update s.root.entries wk.temporary none)

/-- The call reopens what it found at its destination. -/
def reuse (s : State) (i : Nat) (wk : Worker) : State :=
  finish s i wk ((reopen digests fileSha256 s.root (wk.identity digests) wk.prepared).map
    fun _ => wk.identity digests)

/-- A rename that failed: the destination is reopened if something is there. -/
def renameFailed (s : State) (i : Nat) (wk : Worker) : State :=
  if s.root.entries (wk.identity digests) = none then finish s i wk (.error .io)
  else reuse digests fileSha256 s i wk

/-- The next operation of a call. -/
def act (s : State) (i : Nat) (wk : Worker) (chunk : Nat) : State :=
  match wk.phase with
  | .created => advance digests s i wk (.copying 0)
  | .copying count =>
    if count < wk.output.bytes.size then
      let next := min (count + chunk + 1) wk.output.bytes.size
      if ∃ declared ∈ wk.output.result.output, next ≤ declared.byteLength then
        advance digests s i wk (.copying next)
      else finish s i wk (.error .io)
    else
      match measureCopy fileSha256 (receiptOf wk.output) wk.output.bytes with
      | .error e => finish s i wk (.error e)
      | .ok () => advance digests s i wk .copied
  | .copied => advance digests s i wk (.describing 0)
  | .describing count =>
    let size := (receiptBytes digests (receiptOf wk.output)).size
    if count < size then advance digests s i wk (.describing (min (count + chunk + 1) size))
    else advance digests s i wk .described
  | .described =>
    if s.root.entries (wk.identity digests) = none then advance digests s i wk .vacant
    else reuse digests fileSha256 s i wk
  | .vacant =>
    match rename s.root.entries wk.temporary (wk.identity digests) with
    | some entries => s.put i wk .renamed entries
    | none => renameFailed digests fileSha256 s i wk
  | .renamed => s.put i wk (.returned (.ok (wk.identity digests))) s.root.entries
  | .returned _ | .crashed => s

/-- The next operation of a call fails. -/
def actFails (s : State) (i : Nat) (wk : Worker) : State :=
  match wk.phase with
  | .vacant => renameFailed digests fileSha256 s i wk
  | .renamed => s.put i wk (.returned (.error .io)) s.root.entries
  | .returned _ | .crashed => s
  | _ => finish s i wk (.error .io)

/-- The call is no more; its temporary directory stays. -/
def actCrashes (s : State) (i : Nat) (wk : Worker) : State :=
  match wk.phase with
  | .returned _ => s
  | _ => s.put i wk .crashed s.root.entries

def step (s : State) : Action → State
  | .start output prepared suffix =>
    let name := temporaryName suffix
    -- the name of a temporary directory is a new one
    if (s.root.entries name).isSome ∨ ∃ wk ∈ s.workers, wk.temporary = name then s
    else
      match passes digests s.root output prepared with
      | .error e => ⟨s.root, s.workers ++ [⟨output, prepared, name, .returned (.error e)⟩]⟩
      | .ok () =>
        let entries := Function.update s.root.entries name (some (.directory ⟨true, []⟩))
        ⟨{ s.root with entries := entries }, s.workers ++ [⟨output, prepared, name, .created⟩]⟩
  | .work i chunk =>
    match s.workers[i]? with
    | none => s
    | some wk => act digests fileSha256 s i wk chunk
  | .fail i =>
    match s.workers[i]? with
    | none => s
    | some wk => actFails digests fileSha256 s i wk
  | .crash i =>
    match s.workers[i]? with
    | none => s
    | some wk => actCrashes s i wk

end Step

/-! ## What one call can do -/

/-- The call has its temporary directory. -/
def Phase.active : Phase → Bool
  | .renamed | .returned _ | .crashed => false
  | _ => true

/-- The bytes are copied and were measured. -/
def Phase.measured : Phase → Bool
  | .copied | .describing _ | .described | .vacant | .renamed | .returned (.ok _) => true
  | _ => false

/-- The call has passed its checks, and has not failed since. -/
def Phase.Begun : Phase → Prop
  | .returned (.error _) | .crashed => False
  | _ => True

section Moves

variable (digests : Digests) (fileSha256 : ByteArray → String)

/-- All one operation of a call can do: the phase and the entries it leaves. -/
inductive Next (s : State) (wk : Worker) : Phase → (String → Option Entry) → Prop where
  | advanced {phase : Phase} : wk.phase.active = true → phase.active = true →
      (phase.measured = true → wk.phase.measured = true ∨
        measureCopy fileSha256 (receiptOf wk.output) wk.output.bytes = .ok ()) →
      (phase = .vacant → s.root.entries (wk.identity digests) = none) →
      Next s wk phase (Function.update s.root.entries wk.temporary
        (some (.directory ⟨true, written digests wk.output phase⟩)))
  | refused {e : CheckpointError} : wk.phase.active = true →
      Next s wk (.returned (.error e)) (Function.update s.root.entries wk.temporary none)
  | reused {output : VerifiedGeneratorOutput} : wk.phase.active = true →
      wk.phase.measured = true →
      reopen digests fileSha256 s.root (wk.identity digests) wk.prepared = .ok output →
      Next s wk (.returned (.ok (wk.identity digests)))
        (Function.update s.root.entries wk.temporary none)
  | renamed {entries : String → Option Entry} : wk.phase = .vacant →
      rename s.root.entries wk.temporary (wk.identity digests) = some entries →
      Next s wk .renamed entries
  | settled {answer : Except CheckpointError String} : wk.phase = .renamed →
      (∀ identity, answer = .ok identity → identity = wk.identity digests) →
      Next s wk (.returned answer) s.root.entries
  | crashed : Next s wk .crashed s.root.entries
  | stays : Next s wk wk.phase s.root.entries

variable {digests fileSha256}
variable {s : State} {i : Nat} {wk : Worker}

theorem put_self (h : s.workers[i]? = some wk) : s.put i wk wk.phase s.root.entries = s := by
  obtain ⟨hi, hget⟩ := List.getElem?_eq_some_iff.mp h
  simp only [State.put]
  rw [← hget, List.set_getElem_self]

theorem reuse_next (hactive : wk.phase.active = true) (hmeasured : wk.phase.measured = true) :
    ∃ phase entries,
    reuse digests fileSha256 s i wk = s.put i wk phase entries ∧
      Next digests fileSha256 s wk phase entries := by
  unfold reuse finish
  cases hr : reopen digests fileSha256 s.root (wk.identity digests) wk.prepared with
  | error e => exact ⟨_, _, rfl, .refused hactive⟩
  | ok output => exact ⟨_, _, rfl, .reused hactive hmeasured hr⟩

theorem renameFailed_next (hp : wk.phase = .vacant) : ∃ phase entries,
    renameFailed digests fileSha256 s i wk = s.put i wk phase entries ∧
      Next digests fileSha256 s wk phase entries := by
  unfold renameFailed
  have hactive : wk.phase.active = true := by rw [hp]; rfl
  split
  · exact ⟨_, _, rfl, .refused hactive⟩
  · exact reuse_next hactive (by rw [hp]; rfl)

theorem act_next (h : s.workers[i]? = some wk) (chunk : Nat) : ∃ phase entries,
    act digests fileSha256 s i wk chunk = s.put i wk phase entries ∧
      Next digests fileSha256 s wk phase entries := by
  unfold act
  split
  · rename_i hp
    exact ⟨_, _, rfl, .advanced (by rw [hp]; rfl) rfl nofun nofun⟩
  · rename_i count hp
    have hactive : wk.phase.active = true := by rw [hp]; rfl
    split
    · dsimp only
      split
      · exact ⟨_, _, rfl, .advanced hactive rfl nofun nofun⟩
      · exact ⟨_, _, rfl, .refused hactive⟩
    · split
      · exact ⟨_, _, rfl, .refused hactive⟩
      · rename_i hm
        exact ⟨_, _, rfl, .advanced hactive rfl (fun _ => .inr hm) nofun⟩
  · rename_i hp
    exact ⟨_, _, rfl, .advanced (by rw [hp]; rfl) rfl (fun _ => .inl (by rw [hp]; rfl)) nofun⟩
  · rename_i count hp
    have hactive : wk.phase.active = true := by rw [hp]; rfl
    have hmeasured : wk.phase.measured = true := by rw [hp]; rfl
    dsimp only
    split
    · exact ⟨_, _, rfl, .advanced hactive rfl (fun _ => .inl hmeasured) nofun⟩
    · exact ⟨_, _, rfl, .advanced hactive rfl (fun _ => .inl hmeasured) nofun⟩
  · rename_i hp
    have hactive : wk.phase.active = true := by rw [hp]; rfl
    split
    · rename_i hnone
      exact ⟨_, _, rfl, .advanced hactive rfl (fun _ => .inl (by rw [hp]; rfl)) fun _ => hnone⟩
    · exact reuse_next hactive (by rw [hp]; rfl)
  · rename_i hp
    split
    · rename_i entries hr
      exact ⟨_, _, rfl, .renamed hp hr⟩
    · exact renameFailed_next hp
  · rename_i hp
    refine ⟨_, _, rfl, .settled hp fun identity he => ?_⟩
    cases he
    rfl
  · exact ⟨_, _, (put_self h).symm, .stays⟩
  · exact ⟨_, _, (put_self h).symm, .stays⟩

theorem actFails_next (h : s.workers[i]? = some wk) : ∃ phase entries,
    actFails digests fileSha256 s i wk = s.put i wk phase entries ∧
      Next digests fileSha256 s wk phase entries := by
  unfold actFails
  split
  · rename_i hp
    exact renameFailed_next hp
  · rename_i hp
    exact ⟨_, _, rfl, .settled hp nofun⟩
  · exact ⟨_, _, (put_self h).symm, .stays⟩
  · exact ⟨_, _, (put_self h).symm, .stays⟩
  · rename_i hvacant hrenamed hreturned hcrashed
    refine ⟨_, _, rfl, .refused ?_⟩
    cases hp : wk.phase with
    | renamed => exact absurd hp hrenamed
    | returned answer => exact absurd hp (hreturned answer)
    | crashed => exact absurd hp hcrashed
    | _ => rfl

theorem actCrashes_next (h : s.workers[i]? = some wk) : ∃ phase entries,
    actCrashes s i wk = s.put i wk phase entries ∧ Next digests fileSha256 s wk phase entries := by
  unfold actCrashes
  split
  · exact ⟨_, _, (put_self h).symm, .stays⟩
  · exact ⟨_, _, rfl, .crashed⟩

variable (digests fileSha256) in
/-- All a step can do: nothing, the start of a call, or an operation of one. -/
inductive Steps (s : State) : State → Prop where
  | idle : Steps s s
  | started {wk : Worker} {entries : String → Option Entry} :
      (∃ suffix, wk.temporary = temporaryName suffix) → s.root.entries wk.temporary = none →
      (∀ other ∈ s.workers, other.temporary ≠ wk.temporary) →
      (wk.phase = .created ∧ passes digests s.root wk.output wk.prepared = .ok () ∧
          entries = Function.update s.root.entries wk.temporary (some (.directory ⟨true, []⟩)) ∨
        (∃ e, wk.phase = .returned (.error e)) ∧ entries = s.root.entries) →
      Steps s ⟨{ s.root with entries := entries }, s.workers ++ [wk]⟩
  | moved {i : Nat} {wk : Worker} {phase : Phase} {entries : String → Option Entry} :
      s.workers[i]? = some wk → Next digests fileSha256 s wk phase entries →
      Steps s (s.put i wk phase entries)

theorem steps_moved {s' : State} (h : s.workers[i]? = some wk)
    (hn : ∃ phase entries, s' = s.put i wk phase entries ∧
      Next digests fileSha256 s wk phase entries) : Steps digests fileSha256 s s' := by
  obtain ⟨phase, entries, rfl, hn⟩ := hn
  exact .moved h hn

variable (digests fileSha256) in
theorem step_cases (s : State) (action : Action) :
    Steps digests fileSha256 s (step digests fileSha256 s action) := by
  cases action with
  | start output prepared suffix =>
    simp only [step]
    split
    · exact .idle
    · rename_i hfresh
      simp only [not_or, Bool.not_eq_true, Option.isSome_eq_false_iff, Option.isNone_iff_eq_none,
        not_exists, not_and] at hfresh
      split
      · exact @Steps.started _ _ _ ⟨output, prepared, temporaryName suffix, .returned (.error _)⟩ _
          ⟨suffix, rfl⟩ hfresh.1 hfresh.2 (.inr ⟨⟨_, rfl⟩, rfl⟩)
      · rename_i hpassed
        exact @Steps.started _ _ _ ⟨output, prepared, temporaryName suffix, .created⟩ _
          ⟨suffix, rfl⟩ hfresh.1 hfresh.2 (.inl ⟨rfl, hpassed, rfl⟩)
  | work i chunk =>
    simp only [step]
    split
    · exact .idle
    · rename_i wk h
      exact steps_moved h (act_next h chunk)
  | fail i =>
    simp only [step]
    split
    · exact .idle
    · rename_i wk h
      exact steps_moved h (actFails_next h)
  | crash i =>
    simp only [step]
    split
    · exact .idle
    · rename_i wk h
      exact steps_moved h (actCrashes_next h)

end Moves

/-! ## What holds of the calls -/

section Invariant

variable (digests : Digests) (fileSha256 : ByteArray → String)

/-- A checkpoint of the recipe is kept under the name. -/
def Stored (root : Root) (prepared : PreparedGeneratorProcessing) (identity : String) : Prop :=
  ∃ d output, root.entries identity = some (.directory d) ∧ Holds digests identity output d ∧
    Accepted digests fileSha256 prepared output

structure Retained (s : State) : Prop where
  named : ∀ wk ∈ s.workers, ∃ suffix, wk.temporary = temporaryName suffix
  distinct : (s.workers.map Worker.temporary).Nodup
  passed : ∀ wk ∈ s.workers, wk.phase.Begun →
    passes digests s.root wk.output wk.prepared = .ok ()
  temporary : ∀ wk ∈ s.workers, wk.phase.active = true → s.root.entries wk.temporary =
    some (.directory ⟨true, written digests wk.output wk.phase⟩)
  measured : ∀ wk ∈ s.workers, wk.phase.measured = true →
    measureCopy fileSha256 (receiptOf wk.output) wk.output.bytes = .ok ()
  /-- What has come to a destination since it was seen vacant is not empty. -/
  vacant : ∀ wk ∈ s.workers, wk.phase = .vacant → ∀ e,
    s.root.entries (wk.identity digests) = some e → ∃ d, e = .directory d ∧ d.nodes ≠ []
  stored : ∀ wk ∈ s.workers, ∀ identity,
    (wk.phase = .renamed ∧ identity = wk.identity digests ∨
      wk.phase = .returned (.ok identity)) →
    identity = wk.identity digests ∧ Stored digests fileSha256 s.root wk.prepared identity

variable {digests fileSha256}

theorem retained_initial (root : Root) : Retained digests fileSha256 (initial root) where
  named _ h := absurd h List.not_mem_nil
  distinct := List.nodup_nil
  passed _ h := absurd h List.not_mem_nil
  temporary _ h := absurd h List.not_mem_nil
  measured _ h := absurd h List.not_mem_nil
  vacant _ h := absurd h List.not_mem_nil
  stored _ h := absurd h List.not_mem_nil

/-- The name of a receipt is not that of a temporary directory. -/
theorem isSha256_ne_temporary {name suffix : String} (h : OnshapeApi.isSha256 name = true) :
    name ≠ temporaryName suffix := by
  rintro rfl
  simp only [OnshapeApi.isSha256, temporaryName, Bool.and_eq_true, List.all_eq_true,
    String.toList_append] at h
  have := h.2 'p' (by simp)
  simp [isHexDigit] at this

theorem identity_sha256 (hhex : ∀ text, OnshapeApi.isSha256 (digests.sha256 text) = true)
    (wk : Worker) : OnshapeApi.isSha256 (wk.identity digests) = true := hhex _

theorem mem_set {l : List Worker} {i : Nat} {a b : Worker} (h : b ∈ l.set i a) :
    b = a ∨ ∃ j, j ≠ i ∧ l[j]? = some b := by
  obtain ⟨j, hj⟩ := List.getElem?_of_mem h
  by_cases hi : i = j
  · subst hi
    rw [List.getElem?_set_self' ] at hj
    cases hl : l[i]? with
    | none => rw [hl] at hj; cases hj
    | some c =>
      rw [hl] at hj
      cases hj
      exact .inl rfl
  · rw [List.getElem?_set_ne hi] at hj
    exact .inr ⟨j, fun h => hi h.symm, hj⟩

section Step

variable {s s' : State} {i : Nat} {wk : Worker} {phase : Phase}
  {entries : String → Option Entry}

/-- Two calls have two temporary directories. -/
theorem Retained.other (hr : Retained digests fileSha256 s) (h : s.workers[i]? = some wk)
    {j : Nat} {other : Worker} (hj : j ≠ i) (ho : s.workers[j]? = some other) :
    other.temporary ≠ wk.temporary := by
  intro he
  have hmap : ∀ {k : Nat} {w : Worker}, s.workers[k]? = some w →
      (s.workers.map Worker.temporary)[k]? = some w.temporary := by
    intro k w hw
    rw [List.getElem?_map, hw]
    rfl
  obtain ⟨hlt, hget⟩ := List.getElem?_eq_some_iff.mp (hmap h)
  obtain ⟨hlt', hget'⟩ := List.getElem?_eq_some_iff.mp (hmap ho)
  exact hj ((hr.distinct.getElem_inj_iff).mp (by rw [hget, hget', he]))

theorem rename_some {source destination : String} {entries moved : String → Option Entry}
    (h : rename entries source destination = some moved) :
    moved = Function.update (Function.update entries source none) destination (entries source) ∧
      (entries destination = none ∨ ∃ d, entries destination = some (.directory d) ∧
        d.nodes = []) := by
  unfold rename at h
  dsimp only at h
  split at h
  · cases h
  · rename_i hd
    cases h
    exact ⟨rfl, .inl hd⟩
  · rename_i isPrivate _ hd
    cases h
    exact ⟨rfl, .inr ⟨_, hd, rfl⟩⟩
  · cases h

/-- An operation leaves what has another name than its call's temporary directory, but for a
destination that was vacant. -/
theorem Next.keeps (hr : Retained digests fileSha256 s) (h : wk ∈ s.workers)
    (hn : Next digests fileSha256 s wk phase entries) {name : String}
    (hname : name ≠ wk.temporary) :
    entries name = s.root.entries name ∨
      (wk.phase = .vacant ∧ name = wk.identity digests ∧ s.root.entries name = none ∧
        entries name = some (.directory (sealedDirectory digests wk.output))) := by
  cases hn with
  | advanced => exact .inl (Function.update_of_ne hname _ _)
  | refused => exact .inl (Function.update_of_ne hname _ _)
  | reused => exact .inl (Function.update_of_ne hname _ _)
  | settled => exact .inl rfl
  | crashed => exact .inl rfl
  | stays => exact .inl rfl
  | renamed hp hmoved =>
    obtain ⟨rfl, hdestination⟩ := rename_some hmoved
    by_cases hi : name = wk.identity digests
    · right
      subst hi
      have hempty : s.root.entries (wk.identity digests) = none := by
        rcases hdestination with hnone | ⟨d, hd, hnodes⟩
        · exact hnone
        · obtain ⟨d', he, hne⟩ := hr.vacant wk h hp _ hd
          cases he
          exact absurd hnodes hne
      refine ⟨hp, rfl, hempty, ?_⟩
      rw [Function.update_self, hr.temporary wk h (by rw [hp]; rfl), hp]
      rfl
    · left
      rw [Function.update_of_ne hi, Function.update_of_ne hname]

/-- A step leaves what is in the root under the name of a receipt. -/
theorem Steps.kept (hr : Retained digests fileSha256 s) (hs : Steps digests fileSha256 s s')
    {name : String} {e : Entry} (hsha : OnshapeApi.isSha256 name = true)
    (he : s.root.entries name = some e) : s'.root.entries name = some e := by
  cases hs with
  | idle => exact he
  | started hnamed hnone hfresh hcase =>
    obtain ⟨suffix, hsuffix⟩ := hnamed
    rcases hcase with ⟨-, -, rfl⟩ | ⟨-, rfl⟩
    · simp only
      rw [Function.update_of_ne (hsuffix ▸ isSha256_ne_temporary hsha), he]
    · exact he
  | moved h hn =>
    have hmem := List.mem_of_getElem? h
    obtain ⟨suffix, hsuffix⟩ := hr.named _ hmem
    rcases hn.keeps hr hmem (hsuffix ▸ isSha256_ne_temporary hsha) with hkeep | ⟨-, -, hnone, -⟩
    · exact hkeep.trans he
    · rw [he] at hnone
      cases hnone

/-- What comes to be under the name of a receipt is not empty. -/
theorem Steps.appears (hr : Retained digests fileSha256 s) (hs : Steps digests fileSha256 s s')
    {name : String} {e : Entry} (hsha : OnshapeApi.isSha256 name = true)
    (he : s'.root.entries name = some e) :
    s.root.entries name = some e ∨ ∃ d, e = .directory d ∧ d.nodes ≠ [] := by
  cases hs with
  | idle => exact .inl he
  | started hnamed hnone hfresh hcase =>
    obtain ⟨suffix, hsuffix⟩ := hnamed
    rcases hcase with ⟨-, -, rfl⟩ | ⟨-, rfl⟩
    · simp only at he
      rw [Function.update_of_ne (hsuffix ▸ isSha256_ne_temporary hsha)] at he
      exact .inl he
    · exact .inl he
  | moved h hn =>
    have hmem := List.mem_of_getElem? h
    obtain ⟨suffix, hsuffix⟩ := hr.named _ hmem
    rcases hn.keeps hr hmem (hsuffix ▸ isSha256_ne_temporary hsha) with hkeep | ⟨-, -, -, hsealed⟩
    · exact .inl (hkeep.symm.trans he)
    · cases hsealed.symm.trans he
      exact .inr ⟨_, rfl, by simp [sealedDirectory]⟩

theorem Stored.kept {prepared : PreparedGeneratorProcessing} {identity : String}
    (hr : Retained digests fileSha256 s) (hs : Steps digests fileSha256 s s')
    (hsha : OnshapeApi.isSha256 identity = true)
    (h : Stored digests fileSha256 s.root prepared identity) :
    Stored digests fileSha256 s'.root prepared identity := by
  obtain ⟨d, output, hd, hholds, haccepted⟩ := h
  exact ⟨d, output, hs.kept hr hsha hd, hholds, haccepted⟩

/-! ### A step keeps the invariant -/

theorem retained_started {wk : Worker} {entries : String → Option Entry}
    (hr : Retained digests fileSha256 s)
    (hs : Steps digests fileSha256 s ⟨{ s.root with entries := entries }, s.workers ++ [wk]⟩)
    (hnamed : ∃ suffix, wk.temporary = temporaryName suffix)
    (hfresh : ∀ other ∈ s.workers, other.temporary ≠ wk.temporary)
    (hcase : wk.phase = .created ∧ passes digests s.root wk.output wk.prepared = .ok () ∧
          entries = Function.update s.root.entries wk.temporary (some (.directory ⟨true, []⟩)) ∨
        (∃ e, wk.phase = .returned (.error e)) ∧ entries = s.root.entries)
    (hhex : ∀ text, OnshapeApi.isSha256 (digests.sha256 text) = true) :
    Retained digests fileSha256 ⟨{ s.root with entries := entries }, s.workers ++ [wk]⟩ := by
  have hmem : ∀ {P : Worker → Prop}, (∀ w ∈ s.workers, P w) → P wk →
      ∀ w ∈ s.workers ++ [wk], P w := by
    intro P hP hwk w hw
    rcases List.mem_append.mp hw with h | h
    · exact hP w h
    · rw [List.mem_singleton.mp h]
      exact hwk
  have hphase : wk.phase = .created ∨ ∃ e, wk.phase = .returned (.error e) :=
    hcase.imp (fun h => h.1) fun h => h.1
  have hother : ∀ other ∈ s.workers, entries other.temporary = s.root.entries other.temporary := by
    intro other ho
    rcases hcase with ⟨-, -, rfl⟩ | ⟨-, rfl⟩
    · exact Function.update_of_ne (hfresh other ho) _ _
    · rfl
  refine ⟨?_, ?_, ?_, ?_, ?_, ?_, ?_⟩
  · exact hmem hr.named hnamed
  · rw [List.map_append, List.nodup_append]
    refine ⟨hr.distinct, by simp, fun a ha b hb => ?_⟩
    obtain ⟨other, ho, rfl⟩ := List.mem_map.mp ha
    rw [List.map_singleton, List.mem_singleton] at hb
    rw [hb]
    exact hfresh other ho
  · refine hmem hr.passed fun hbegun => ?_
    rcases hcase with ⟨-, hpassed, -⟩ | ⟨⟨e, he⟩, -⟩
    · exact hpassed
    · rw [he] at hbegun
      exact hbegun.elim
  · refine hmem (fun w hw hactive => (hother w hw).trans (hr.temporary w hw hactive)) ?_
    intro hactive
    rcases hcase with ⟨hp, -, rfl⟩ | ⟨⟨e, he⟩, -⟩
    · rw [hp]
      exact Function.update_self _ _ _
    · rw [he] at hactive
      cases hactive
  · refine hmem hr.measured fun hmeasured => ?_
    rcases hphase with hp | ⟨e, hp⟩ <;> rw [hp] at hmeasured <;> cases hmeasured
  · refine hmem (fun w hw hp e he => ?_) fun hp => ?_
    · rcases hs.appears hr (identity_sha256 hhex w) he with h | h
      · exact hr.vacant w hw hp e h
      · exact h
    · rcases hphase with h | ⟨e, h⟩ <;> rw [h] at hp <;> cases hp
  · refine hmem (fun w hw identity hp => ?_) fun identity hp => ?_
    · obtain ⟨rfl, hstored⟩ := hr.stored w hw identity hp
      exact ⟨rfl, hstored.kept hr hs (identity_sha256 hhex w)⟩
    · rcases hphase with h | ⟨e, h⟩ <;> rcases hp with ⟨hp, -⟩ | hp <;> cases h.symm.trans hp

theorem Next.begun (hn : Next digests fileSha256 s wk phase entries) (h : phase.Begun) :
    wk.phase.Begun := by
  have hactive : ∀ {p : Phase}, p.active = true → p.Begun := by
    intro p hp
    cases p <;> trivial
  cases hn with
  | advanced ha => exact hactive ha
  | refused => exact h.elim
  | reused ha => exact hactive ha
  | renamed hp => rw [hp]; trivial
  | settled hp => rw [hp]; trivial
  | crashed => exact h.elim
  | stays => exact h

theorem Retained.accepted (hr : Retained digests fileSha256 s) (h : wk ∈ s.workers)
    (hbegun : wk.phase.Begun) (hmeasured : wk.phase.measured = true) :
    Accepted digests fileSha256 wk.prepared wk.output := by
  have hpassed := hr.passed wk h hbegun
  simp only [passes, seq_ok] at hpassed
  exact accepted_iff.mpr ⟨hpassed.2.1, hr.measured wk h hmeasured⟩

/-- What a call that is done leaves under its name. -/
theorem Next.stored (hr : Retained digests fileSha256 s) (h : s.workers[i]? = some wk)
    (hn : Next digests fileSha256 s wk phase entries)
    (hhex : ∀ text, OnshapeApi.isSha256 (digests.sha256 text) = true) {identity : String}
    (hp : phase = .renamed ∧ identity = wk.identity digests ∨ phase = .returned (.ok identity)) :
    identity = wk.identity digests ∧
      Stored digests fileSha256 { s.root with entries := entries } wk.prepared identity := by
  have hmem := List.mem_of_getElem? h
  have hs := Steps.moved h hn
  have hsha := identity_sha256 hhex wk
  cases hn with
  | advanced _ hactive =>
    rcases hp with ⟨rfl, -⟩ | rfl <;> cases hactive
  | refused =>
    rcases hp with ⟨hp, -⟩ | hp <;> cases hp
  | reused _ _ hreopen =>
    rcases hp with ⟨hp, -⟩ | hp
    · cases hp
    · cases hp
      obtain ⟨haccepted, d, hd, hholds⟩ := reopen_ok hreopen
      exact ⟨rfl, Stored.kept hr hs hsha ⟨d, _, hd, hholds, haccepted⟩⟩
  | renamed hvacant hmoved =>
    rcases hp with ⟨-, rfl⟩ | hp
    · refine ⟨rfl, sealedDirectory digests wk.output, wk.output, ?_, holds_sealed _, ?_⟩
      · obtain ⟨rfl, -⟩ := rename_some hmoved
        simp only
        rw [Function.update_self, hr.temporary wk hmem (by rw [hvacant]; rfl), hvacant]
        rfl
      · exact hr.accepted hmem (by rw [hvacant]; trivial) (by rw [hvacant]; rfl)
    · cases hp
  | settled hrenamed hanswer =>
    rcases hp with ⟨hp, -⟩ | hp
    · cases hp
    · cases hp
      obtain rfl := hanswer identity rfl
      exact hr.stored wk hmem _ (.inl ⟨hrenamed, rfl⟩)
  | crashed =>
    rcases hp with ⟨hp, -⟩ | hp <;> cases hp
  | stays => exact hr.stored wk hmem identity hp

theorem retained_moved (hr : Retained digests fileSha256 s) (h : s.workers[i]? = some wk)
    (hn : Next digests fileSha256 s wk phase entries)
    (hhex : ∀ text, OnshapeApi.isSha256 (digests.sha256 text) = true) :
    Retained digests fileSha256 (s.put i wk phase entries) := by
  have hmem := List.mem_of_getElem? h
  have hs := Steps.moved h hn
  have hset : ∀ {P : Worker → Prop},
      (∀ j w, j ≠ i → s.workers[j]? = some w → P w) → P { wk with phase := phase } →
        ∀ w ∈ (s.put i wk phase entries).workers, P w := by
    intro P hP hwk w hw
    rcases mem_set hw with rfl | ⟨j, hj, hw⟩
    · exact hwk
    · exact hP j w hj hw
  have hkeep : ∀ {P : Worker → Prop}, (∀ w ∈ s.workers, P w) →
      ∀ j w, j ≠ i → s.workers[j]? = some w → P w :=
    fun hP _ w _ hw => hP w (List.mem_of_getElem? hw)
  refine ⟨?_, ?_, ?_, ?_, ?_, ?_, ?_⟩
  · exact hset (hkeep hr.named) (hr.named wk hmem)
  · have hmap : (s.put i wk phase entries).workers.map Worker.temporary =
        s.workers.map Worker.temporary := by
      obtain ⟨hi, hget⟩ := List.getElem?_eq_some_iff.mp h
      rw [State.put, List.map_set, ← hget]
      have hself : (s.workers.map Worker.temporary).get ⟨i, by simpa using hi⟩ =
          s.workers[i].temporary := List.getElem_map ..
      rw [← hself]
      exact List.set_getElem_self _
    rw [hmap]
    exact hr.distinct
  · exact hset (hkeep hr.passed) fun hbegun => hr.passed wk hmem (hn.begun hbegun)
  · refine hset (fun j w hj hw hactive => ?_) fun hactive => ?_
    · have hw' := hr.temporary w (List.mem_of_getElem? hw) hactive
      rcases hn.keeps hr hmem (hr.other h hj hw) with hsame | ⟨-, -, hnone, -⟩
      · exact hsame.trans hw'
      · rw [hw'] at hnone
        cases hnone
    · cases hn with
      | advanced => exact Function.update_self _ _ _
      | stays => exact hr.temporary wk hmem hactive
      | refused => cases hactive
      | reused => cases hactive
      | renamed => cases hactive
      | settled => cases hactive
      | crashed => cases hactive
  · refine hset (hkeep hr.measured) fun hmeasured => ?_
    cases hn with
    | advanced _ _ hm => exact (hm hmeasured).elim (hr.measured wk hmem) id
    | stays => exact hr.measured wk hmem hmeasured
    | refused => cases hmeasured
    | reused _ hm => exact hr.measured wk hmem hm
    | renamed hp => exact hr.measured wk hmem (by rw [hp]; rfl)
    | settled hp => exact hr.measured wk hmem (by rw [hp]; rfl)
    | crashed => cases hmeasured
  · refine hset (fun j w _ hw hp e he => ?_) fun hp e he => ?_
    · rcases hs.appears hr (identity_sha256 hhex w) he with hbefore | hnew
      · exact hr.vacant w (List.mem_of_getElem? hw) hp e hbefore
      · exact hnew
    · rcases hs.appears hr (identity_sha256 hhex wk) he with hbefore | hnew
      · cases hn with
        | advanced _ _ _ hv => rw [hv hp] at hbefore; cases hbefore
        | stays => exact hr.vacant wk hmem hp e hbefore
        | refused => cases hp
        | reused => cases hp
        | renamed => cases hp
        | settled => cases hp
        | crashed => cases hp
      · exact hnew
  · refine hset (fun j w _ hw identity hp => ?_) fun identity hp => ?_
    · obtain ⟨rfl, hstored⟩ := hr.stored w (List.mem_of_getElem? hw) identity hp
      exact ⟨rfl, hstored.kept hr hs (identity_sha256 hhex w)⟩
    · exact hn.stored hr h hhex hp

theorem retained_step (hr : Retained digests fileSha256 s)
    (hhex : ∀ text, OnshapeApi.isSha256 (digests.sha256 text) = true) (action : Action) :
    Retained digests fileSha256 (step digests fileSha256 s action) := by
  have hs := step_cases digests fileSha256 s action
  generalize step digests fileSha256 s action = s' at hs ⊢
  cases hs with
  | idle => exact hr
  | started hnamed hnone hfresh hcase =>
    exact retained_started hr (.started hnamed hnone hfresh hcase) hnamed hfresh hcase hhex
  | moved h hn => exact retained_moved hr h hn hhex

end Step

/-! ## Runs -/

section Run

variable {s : State}

theorem run_retained (hr : Retained digests fileSha256 s)
    (hhex : ∀ text, OnshapeApi.isSha256 (digests.sha256 text) = true) (actions : List Action) :
    Retained digests fileSha256 (run (step digests fileSha256) s actions) :=
  run_inv hr (fun _ action hr => retained_step hr hhex action) actions

theorem run_kept (hr : Retained digests fileSha256 s)
    (hhex : ∀ text, OnshapeApi.isSha256 (digests.sha256 text) = true) {name : String} {e : Entry}
    (hsha : OnshapeApi.isSha256 name = true) (he : s.root.entries name = some e)
    (actions : List Action) :
    (run (step digests fileSha256) s actions).root.entries name = some e := by
  refine (run_inv (I := fun s => Retained digests fileSha256 s ∧ s.root.entries name = some e)
    ⟨hr, he⟩ ?_ actions).2
  rintro t action ⟨ht, hentry⟩
  exact ⟨retained_step ht hhex action, (step_cases digests fileSha256 t action).kept ht hsha hentry⟩

theorem step_accepted (s : State) (action : Action) :
    (step digests fileSha256 s action).root.accepted = s.root.accepted := by
  have hs := step_cases digests fileSha256 s action
  generalize step digests fileSha256 s action = s' at hs ⊢
  cases hs <;> rfl

theorem run_accepted (s : State) (actions : List Action) :
    (run (step digests fileSha256) s actions).root.accepted = s.root.accepted :=
  run_inv (I := fun t => t.root.accepted = s.root.accepted) rfl
    (fun t action ht => (step_accepted t action).trans ht) actions

end Run

/-! ## A call that is alone -/

section Alone

variable {s : State} {i : Nat} {wk : Worker}

/-- The operations that are left to a call, at most. -/
def rank (digests : Digests) (output : VerifiedGeneratorOutput) : Phase → Nat
  | .created => 7 + (receiptBytes digests (receiptOf output)).size + output.bytes.size
  | .copying count =>
    6 + (receiptBytes digests (receiptOf output)).size + (output.bytes.size - count)
  | .copied => 5 + (receiptBytes digests (receiptOf output)).size
  | .describing count => 4 + ((receiptBytes digests (receiptOf output)).size - count)
  | .described => 3
  | .vacant => 2
  | .renamed => 1
  | .returned _ | .crashed => 0

/-- A call that meets neither a failure nor a checkpoint of its name. -/
structure Alone (digests : Digests) (fileSha256 : ByteArray → String) (s : State) (i : Nat)
    (wk : Worker) : Prop where
  worker : s.workers[i]? = some wk
  retained : Retained digests fileSha256 s
  accepted : Accepted digests fileSha256 wk.prepared wk.output
  begun : wk.phase.Begun
  vacant : wk.phase.active = true → s.root.entries (wk.identity digests) = none
  written : wk.phase.active = false →
    s.root.entries (wk.identity digests) = some (.directory (sealedDirectory digests wk.output))

theorem put_worker (h : s.workers[i]? = some wk) (phase : Phase)
    (entries : String → Option Entry) :
    (s.put i wk phase entries).workers[i]? = some { wk with phase := phase } := by
  obtain ⟨hi, -⟩ := List.getElem?_eq_some_iff.mp h
  rw [State.put, List.getElem?_set_self hi]

theorem Alone.advance (ha : Alone digests fileSha256 s i wk)
    (hhex : ∀ text, OnshapeApi.isSha256 (digests.sha256 text) = true) {phase : Phase}
    (hactive : wk.phase.active = true) (hphase : phase.active = true)
    (hn : Next digests fileSha256 s wk phase (Function.update s.root.entries wk.temporary
      (some (.directory ⟨true, Checkpoints.written digests wk.output phase⟩)))) :
    Alone digests fileSha256 (Checkpoints.advance digests s i wk phase) i
      { wk with phase := phase } where
  worker := put_worker ha.worker _ _
  retained := retained_moved ha.retained ha.worker hn hhex
  accepted := ha.accepted
  begun := by cases phase <;> trivial
  vacant _ := by
    obtain ⟨suffix, hsuffix⟩ := ha.retained.named wk (List.mem_of_getElem? ha.worker)
    have hname : wk.identity digests ≠ wk.temporary :=
      hsuffix ▸ isSha256_ne_temporary (identity_sha256 hhex wk)
    exact (Function.update_of_ne hname _ _).trans (ha.vacant hactive)
  written h := by rw [hphase] at h; cases h

/-- A call that is alone comes closer to its end with every operation. -/
theorem Alone.act (ha : Alone digests fileSha256 s i wk)
    (hhex : ∀ text, OnshapeApi.isSha256 (digests.sha256 text) = true) (chunk : Nat) :
    ∃ phase, Alone digests fileSha256 (act digests fileSha256 s i wk chunk) i
        { wk with phase := phase } ∧
      rank digests wk.output phase ≤ rank digests wk.output wk.phase - 1 := by
  obtain ⟨declared, hdeclared, hmeasures⟩ := ha.accepted.measured
  have hmeasure := (accepted_iff.mp ha.accepted).2
  cases hp : wk.phase with
  | created =>
    have hactive : wk.phase.active = true := by rw [hp]; rfl
    refine ⟨.copying 0, ?_, ?_⟩
    · rw [Checkpoints.act, hp]
      exact ha.advance hhex hactive rfl (.advanced hactive rfl nofun nofun)
    · simp only [rank]
      omega
  | copying count =>
    have hactive : wk.phase.active = true := by rw [hp]; rfl
    by_cases hlt : count < wk.output.bytes.size
    · have hfits : ∃ d ∈ wk.output.result.output,
          min (count + chunk + 1) wk.output.bytes.size ≤ d.byteLength :=
        ⟨declared, hdeclared, by rw [← hmeasures.1]; exact Nat.min_le_right _ _⟩
      refine ⟨.copying (min (count + chunk + 1) wk.output.bytes.size), ?_, ?_⟩
      · simp only [Checkpoints.act, hp, if_pos hlt, if_pos hfits]
        exact ha.advance hhex hactive rfl (.advanced hactive rfl nofun nofun)
      · simp only [rank]
        omega
    · refine ⟨.copied, ?_, ?_⟩
      · simp only [Checkpoints.act, hp, if_neg hlt, hmeasure]
        exact ha.advance hhex hactive rfl (.advanced hactive rfl (fun _ => .inr hmeasure) nofun)
      · simp only [rank]
        omega
  | copied =>
    have hactive : wk.phase.active = true := by rw [hp]; rfl
    refine ⟨.describing 0, ?_, ?_⟩
    · rw [Checkpoints.act, hp]
      exact ha.advance hhex hactive rfl (.advanced hactive rfl (fun _ => .inr hmeasure) nofun)
    · simp only [rank]
      omega
  | describing count =>
    have hactive : wk.phase.active = true := by rw [hp]; rfl
    by_cases hlt : count < (receiptBytes digests (receiptOf wk.output)).size
    · refine ⟨.describing (min (count + chunk + 1)
        (receiptBytes digests (receiptOf wk.output)).size), ?_, ?_⟩
      · simp only [Checkpoints.act, hp, if_pos hlt]
        exact ha.advance hhex hactive rfl (.advanced hactive rfl (fun _ => .inr hmeasure) nofun)
      · simp only [rank]
        omega
    · refine ⟨.described, ?_, ?_⟩
      · simp only [Checkpoints.act, hp, if_neg hlt]
        exact ha.advance hhex hactive rfl (.advanced hactive rfl (fun _ => .inr hmeasure) nofun)
      · simp only [rank]
        omega
  | described =>
    have hactive : wk.phase.active = true := by rw [hp]; rfl
    have hvacant := ha.vacant hactive
    refine ⟨.vacant, ?_, ?_⟩
    · simp only [Checkpoints.act, hp, if_pos hvacant]
      exact ha.advance hhex hactive rfl
        (.advanced hactive rfl (fun _ => .inr hmeasure) fun _ => hvacant)
    · simp only [rank]
      omega
  | vacant =>
    have hactive : wk.phase.active = true := by rw [hp]; rfl
    have hvacant := ha.vacant hactive
    have htemporary := ha.retained.temporary wk (List.mem_of_getElem? ha.worker) hactive
    rw [hp] at htemporary
    have hmoved : rename s.root.entries wk.temporary (wk.identity digests) =
        some (Function.update (Function.update s.root.entries wk.temporary none)
          (wk.identity digests) (s.root.entries wk.temporary)) := by
      simp only [rename, htemporary, hvacant]
    refine ⟨.renamed, ?_, ?_⟩
    · simp only [Checkpoints.act, hp, hmoved]
      exact {
        worker := put_worker ha.worker _ _
        retained := retained_moved ha.retained ha.worker (.renamed hp hmoved) hhex
        accepted := ha.accepted
        begun := trivial
        vacant := nofun
        written := fun _ => (Function.update_self _ _ _).trans htemporary }
    · simp only [rank]
      omega
  | renamed =>
    have hinactive : wk.phase.active = false := by rw [hp]; rfl
    refine ⟨.returned (.ok (wk.identity digests)), ?_, ?_⟩
    · simp only [Checkpoints.act, hp]
      refine {
        worker := put_worker ha.worker _ _
        retained := retained_moved ha.retained ha.worker (.settled hp fun identity he => ?_) hhex
        accepted := ha.accepted
        begun := trivial
        vacant := nofun
        written := fun _ => ha.written hinactive }
      cases he
      rfl
    · simp only [rank]
      omega
  | returned answer =>
    refine ⟨wk.phase, ?_, by rw [hp]; simp [rank]⟩
    simp only [Checkpoints.act, hp]
    rw [← hp]
    exact ha
  | crashed =>
    have hbegun := ha.begun
    rw [hp] at hbegun
    exact hbegun.elim

theorem Alone.works (ha : Alone digests fileSha256 s i wk)
    (hhex : ∀ text, OnshapeApi.isSha256 (digests.sha256 text) = true) (chunks : List Nat) :
    ∃ phase, Alone digests fileSha256
        (run (step digests fileSha256) s (chunks.map (Action.work i))) i
        { wk with phase := phase } ∧
      rank digests wk.output phase ≤ rank digests wk.output wk.phase - chunks.length := by
  induction chunks generalizing s wk with
  | nil => exact ⟨wk.phase, ha, by simp⟩
  | cons chunk chunks ih =>
    obtain ⟨phase, hact, hrank⟩ := ha.act hhex chunk
    have hstep : step digests fileSha256 s (.work i chunk) =
        Checkpoints.act digests fileSha256 s i wk chunk := by simp only [step, ha.worker]
    obtain ⟨phase', hrest, hrank'⟩ := ih hact
    refine ⟨phase', ?_, ?_⟩
    · rw [List.map_cons, run_cons, hstep]
      exact hrest
    · simp only [List.length_cons] at hrank' ⊢
      omega

/-- A call with no operation left has named its output. -/
theorem Alone.done (ha : Alone digests fileSha256 s i wk)
    (hrank : rank digests wk.output wk.phase = 0) :
    wk.phase = .returned (.ok (wk.identity digests)) := by
  have hbegun := ha.begun
  cases hp : wk.phase with
  | returned answer =>
    rw [hp] at hbegun
    cases answer with
    | error e => exact hbegun.elim
    | ok identity =>
      obtain ⟨rfl, -⟩ := ha.retained.stored wk (List.mem_of_getElem? ha.worker) identity (.inr hp)
      rfl
  | crashed =>
    rw [hp] at hbegun
    exact hbegun.elim
  | _ =>
    rw [hp] at hrank
    simp only [rank] at hrank
    omega

/-- However its reads and writes are cut, a call that is alone names its output, and the name
reopens as it. -/
theorem persist_completes {output : VerifiedGeneratorOutput}
    {prepared : PreparedGeneratorProcessing} {suffix : String} {chunks : List Nat}
    (ht : digests.text.Faithful)
    (hhex : ∀ text, OnshapeApi.isSha256 (digests.sha256 text) = true)
    (hr : Retained digests fileSha256 s) (hroot : s.root.accepted = true)
    (haccepted : Accepted digests fileSha256 prepared output)
    (hlimit : (receiptBytes digests (receiptOf output)).size ≤ receiptLimit)
    (hbounded : Bounded (Receipt.codec.enc (receiptOf output)))
    (hfresh : s.root.entries (temporaryName suffix) = none ∧
      ∀ wk ∈ s.workers, wk.temporary ≠ temporaryName suffix)
    (hvacant : s.root.entries (checkpointIdentity digests (receiptOf output)) = none)
    (hchunks : output.bytes.size + (receiptBytes digests (receiptOf output)).size + 7 ≤
      chunks.length) :
    ∃ s' wk, s' = run (step digests fileSha256) s
        (.start output prepared suffix :: chunks.map (Action.work s.workers.length)) ∧
      s'.workers[s.workers.length]? = some wk ∧ wk.output = output ∧
      wk.phase = .returned (.ok (checkpointIdentity digests (receiptOf output))) ∧
      reopen digests fileSha256 s'.root (checkpointIdentity digests (receiptOf output)) prepared =
        .ok output := by
  have hpassed : passes digests s.root output prepared = .ok () := by
    simp only [passes, rootCheck, seq_ok, ensure_ok]
    exact ⟨hroot, (accepted_iff.mp haccepted).1, hlimit⟩
  have hnew : ¬ ((s.root.entries (temporaryName suffix)).isSome = true ∨
      ∃ wk ∈ s.workers, wk.temporary = temporaryName suffix) := by
    rintro (h | ⟨wk, hwk, he⟩)
    · rw [hfresh.1] at h
      cases h
    · exact hfresh.2 wk hwk he
  have hstart := retained_step hr hhex (.start output prepared suffix)
  have ha : Alone digests fileSha256 (step digests fileSha256 s (.start output prepared suffix))
      s.workers.length ⟨output, prepared, temporaryName suffix, .created⟩ := by
    refine { worker := ?_, retained := hstart, accepted := haccepted, begun := trivial,
             vacant := fun _ => ?_, written := fun h => ?_ }
    · simp only [step, if_neg hnew, hpassed]
      exact List.getElem?_concat_length
    · simp only [step, if_neg hnew, hpassed]
      exact (Function.update_of_ne (isSha256_ne_temporary (hhex _)) _ _).trans hvacant
    · cases h
  obtain ⟨phase, hdone, hrank⟩ := ha.works hhex chunks
  have hcreated : rank digests output .created ≤ chunks.length := by
    simp only [rank]
    omega
  have hzero : rank digests output phase = 0 := by
    have hle : rank digests output phase ≤ rank digests output .created - chunks.length := hrank
    omega
  have hphase := hdone.done hzero
  refine ⟨_, _, rfl, hdone.worker, rfl, hphase, ?_⟩
  refine reopen_holds ht haccepted hlimit hbounded ?_ (hhex _) (hdone.written ?_)
    (holds_sealed output)
  · rw [run_cons, run_accepted, step_accepted]
    exact hroot
  · rw [show phase = _ from hphase]
    rfl

end Alone

end Invariant

/-! ## Checkpoints -/

section Main

variable (digests : Digests) (fileSha256 : ByteArray → String)

/-- No other receipt has the name of an output's, and no other bytes have the hash of its bytes.
A hash of fixed length cannot tell all texts apart, so this is asked of the output at hand. -/
def Unforged (output : VerifiedGeneratorOutput) : Prop :=
  (∀ receipt, checkpointIdentity digests receipt = checkpointIdentity digests (receiptOf output) →
    receipt = receiptOf output) ∧
  ∀ bytes, fileSha256 bytes = fileSha256 output.bytes → bytes = output.bytes

/-- A `persist` that is alone on a healthy root names what was accepted, and the name reopens. -/
def Completes : Prop :=
  ∀ reads tree manifest layout prepared code output,
    Layout.new manifest prepared.recipe.invocation = .ok layout →
    acceptFinal digests fileSha256 reads tree layout prepared.recipe.invocation prepared code =
      .ok output →
    (receiptBytes digests (receiptOf output)).size ≤ receiptLimit →
    Bounded (Receipt.codec.enc (receiptOf output)) →
    ∀ (root : Root) (actions : List Action) (s : State),
      s = run (step digests fileSha256) (initial root) actions → root.accepted = true →
      ∀ suffix, s.root.entries (temporaryName suffix) = none →
        (∀ wk ∈ s.workers, wk.temporary ≠ temporaryName suffix) →
        s.root.entries (checkpointIdentity digests (receiptOf output)) = none →
        ∀ chunks : List Nat, output.bytes.size +
            (receiptBytes digests (receiptOf output)).size + 7 ≤ chunks.length →
          ∃ s' wk, s' = run (step digests fileSha256) s
              (.start output prepared suffix :: chunks.map (Action.work s.workers.length)) ∧
            s'.workers[s.workers.length]? = some wk ∧ wk.output = output ∧
            wk.phase = .returned (.ok (checkpointIdentity digests (receiptOf output))) ∧
            reopen digests fileSha256 s'.root (checkpointIdentity digests (receiptOf output))
              prepared = .ok output

/-- What holds of any calls on one root, with failures and crashes, from any files. -/
structure Checkpointed (root : Root) (actions : List Action) : Prop where
  kept : ∀ pre, pre <+: actions → ∀ name e, OnshapeApi.isSha256 name = true →
    (run (step digests fileSha256) (initial root) pre).root.entries name = some e →
    (run (step digests fileSha256) (initial root) actions).root.entries name = some e
  identity : ∀ wk ∈ (run (step digests fileSha256) (initial root) actions).workers,
    ∀ wk' ∈ (run (step digests fileSha256) (initial root) actions).workers, ∀ identity identity',
    wk.phase = .returned (.ok identity) → wk'.phase = .returned (.ok identity') →
    (wk.output = wk'.output → identity = identity') ∧
      (Unforged digests fileSha256 wk.output → identity = identity' →
        receiptOf wk.output = receiptOf wk'.output)
  reopens : ∀ wk ∈ (run (step digests fileSha256) (initial root) actions).workers, ∀ identity,
    wk.phase = .returned (.ok identity) → Unforged digests fileSha256 wk.output →
    Bounded (Receipt.codec.enc (receiptOf wk.output)) →
    reopen digests fileSha256 (run (step digests fileSha256) (initial root) actions).root identity
      wk.prepared = .ok wk.output

variable {digests fileSha256}

/-- Unforged, the output that is stored under a name is the one that has the name. -/
theorem stored_eq {prepared prepared' : PreparedGeneratorProcessing}
    {output stored : VerifiedGeneratorOutput} (hu : Unforged digests fileSha256 output)
    (haccepted : Accepted digests fileSha256 prepared output)
    (hstored : Accepted digests fileSha256 prepared' stored)
    (he : checkpointIdentity digests (receiptOf stored) =
      checkpointIdentity digests (receiptOf output)) : stored = output := by
  have hreceipt := hu.1 _ he
  obtain ⟨declared, hd, -, hsha⟩ := haccepted.measured
  obtain ⟨declared', hd', -, hsha'⟩ := hstored.measured
  cases stored with
  | mk result invocation processing bytes =>
    cases output with
    | mk result' invocation' processing' bytes' =>
      simp only [receiptOf, Receipt.mk.injEq, true_and] at hreceipt
      obtain ⟨rfl, rfl, rfl⟩ := hreceipt
      simp only at hd hd' hsha hsha'
      rw [hd, Option.some.injEq] at hd'
      subst hd'
      rw [hu.2 bytes (hsha'.trans hsha.symm)]

theorem checkpointed (ht : digests.text.Faithful)
    (hhex : ∀ text, OnshapeApi.isSha256 (digests.sha256 text) = true) (root : Root)
    (actions : List Action) : Checkpointed digests fileSha256 root actions := by
  have hr : Retained digests fileSha256 (run (step digests fileSha256) (initial root) actions) :=
    run_retained (retained_initial root) hhex actions
  refine ⟨?_, ?_, ?_⟩
  · rintro pre ⟨post, rfl⟩ name e hsha he
    rw [run_append]
    exact run_kept (run_retained (retained_initial root) hhex pre) hhex hsha he post
  · intro wk hwk wk' hwk' identity identity' hp hp'
    obtain ⟨rfl, -⟩ := hr.stored wk hwk identity (.inr hp)
    obtain ⟨rfl, -⟩ := hr.stored wk' hwk' identity' (.inr hp')
    exact ⟨fun he => by rw [Worker.identity, Worker.identity, he],
      fun hu he => (hu.1 _ he.symm).symm⟩
  · intro wk hwk identity hp hu hbounded
    obtain ⟨rfl, d, stored, hd, hholds, hstored⟩ := hr.stored wk hwk identity (.inr hp)
    have haccepted := hr.accepted hwk (by rw [hp]; trivial) (by rw [hp]; rfl)
    have hpassed := hr.passed wk hwk (by rw [hp]; trivial)
    simp only [passes, rootCheck, seq_ok, ensure_ok] at hpassed
    obtain ⟨hroot, -, hlimit⟩ := hpassed
    obtain rfl := stored_eq hu haccepted hstored hholds.identity
    exact reopen_holds ht haccepted hlimit hbounded hroot (identity_sha256 hhex wk) hd hholds

/-- A hash that is the same for every text. -/
def oneHash : String := String.ofList (List.replicate 64 'c')

theorem oneHash_sha256 : OnshapeApi.isSha256 oneHash = true := by decide +kernel

end Main

end Checkpoints
end OnshapeExport
