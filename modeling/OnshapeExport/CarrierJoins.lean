import OnshapeExport.CarrierGroups

/-!
# CarrierJoins

`resolve_carrier` with the writes it makes to the candidates, and the responses of all carriers in
any order.

* `resolveCarrierWrites` — the function over the candidates as state: a failure keeps what was
  written before it.
* `resolveCarrierWrites_eq` — nothing is written before a failure.
* `resolveCarrier_fills` — a success fills the positions of its group, each from its row, and no
  other.
* `carriers_joined` — every candidate of a resolved assembly is filled once.
-/

namespace OnshapeExport
namespace Selection

open Checks Json OnshapeApi

/-! ## Writes -/

/-- A computation that writes candidates and may fail. -/
abbrev Joining := ExceptT ApiFailure (StateM (List Candidate))

def writeCarriers : List (Nat × String × String) → Joining Unit
  | [] => pure ()
  | m :: metadata => do
    modify (setCarrier · m)
    writeCarriers metadata

/-- `?` on a result that no write went into. -/
def attempt {α : Type} (x : Except ApiFailure α) : Joining α := ExceptT.mk (pure x)

def resolveCarrierWrites (response : Value) (group : CarrierGroup) : Joining Unit := do
  let rows ← attempt (items response)
  let index ← attempt (indexRows carrierRowKey [] rows)
  let candidates ← get
  let joined ← attempt (traverse (fun _ p => do
    let candidate ← match candidates[p]? with
      | some c => .ok c
      | none => .error malformed
    let l := candidate.leaf
    match lookupRow index (l.elementId, l.documentMicroversion, l.partId) with
    | none => throw (malformed.position p)
    | some obj =>
      let _ ← positioned p (sourceString obj "configurationId")
      return (p, obj)) 0 group.positions)
  let states ← attempt (traverse (fun _ (p, obj) => positioned p (solidState obj)) 0 joined)
  match states.findIdx? (· = false) with
  | some i => throw (unavailable (joined.map Prod.fst |>.getD i 0))
  | none =>
    let metadata ← attempt (traverse (fun _ (p, obj) => do
      let name ← positioned p (string obj "name")
      let description ← positioned p (string obj "description")
      return (p, name, description)) 0 joined)
    writeCarriers metadata

theorem writeCarriers_run (metadata : List (Nat × String × String)) (candidates : List Candidate) :
    (writeCarriers metadata).run.run candidates =
      (.ok (), metadata.foldl setCarrier candidates) := by
  induction metadata generalizing candidates with
  | nil => rfl
  | cons m metadata ih => exact ih (setCarrier candidates m)

/-- What a computation leaves behind that writes at its end. -/
def committed (candidates : List Candidate) :
    Except ApiFailure (List Candidate) → Except ApiFailure Unit × List Candidate
  | .ok candidates' => (.ok (), candidates')
  | .error e => (.error e, candidates)

theorem attempt_bind {α : Type} {candidates : List Candidate} (x : Except ApiFailure α)
    {f : α → Joining Unit} {g : α → Except ApiFailure (List Candidate)}
    (h : ∀ a, (f a).run.run candidates = committed candidates (g a)) :
    (attempt x >>= f).run.run candidates = committed candidates (x >>= g) := by
  cases x with
  | error e => rfl
  | ok a => exact h a

theorem get_bind (candidates : List Candidate) (f : List Candidate → Joining Unit) :
    ((get : Joining (List Candidate)) >>= f).run.run candidates =
      (f candidates).run.run candidates := rfl

theorem resolveCarrierWrites_eq (response : Value) (group : CarrierGroup)
    (candidates : List Candidate) :
    (resolveCarrierWrites response group).run.run candidates =
      committed candidates (resolveCarrier response group candidates) := by
  unfold resolveCarrierWrites resolveCarrier
  refine attempt_bind _ fun rows => attempt_bind _ fun index => ?_
  refine (get_bind candidates _).trans ?_
  refine attempt_bind _ fun joined => attempt_bind _ fun states => ?_
  cases states.findIdx? (· = false) with
  | some i => rfl
  | none => exact attempt_bind _ fun metadata => writeCarriers_run metadata candidates

/-! ## What a success writes -/

/-- The row of a leaf in a response: there is one row of each key, and it is the one read. -/
structure FilledFrom (response : Value) (c c' : Candidate) : Prop where
  rest : c' = { c with name := c'.name, description := c'.description }
  row : ∃ rows obj, items response = .ok rows ∧
    Keyed (fun obj k => carrierRowKey obj = .ok k) rows ∧
    RowAt (fun obj k => carrierRowKey obj = .ok k) rows
      (c.leaf.elementId, c.leaf.documentMicroversion, c.leaf.partId) obj ∧
    string obj "name" = .ok c'.name ∧ string obj "description" = .ok c'.description

/-- Exactly the candidates at some positions are filled. -/
structure Fills (response : Value) (positions : List Nat) (candidates candidates' : List Candidate) :
    Prop where
  filled : ∀ p ∈ positions, ∃ c c', candidates[p]? = some c ∧ candidates'[p]? = some c' ∧
    FilledFrom response c c'
  others : ∀ p, p ∉ positions → candidates'[p]? = candidates[p]?

theorem foldl_setCarrier_others {metadata : List (Nat × String × String)} {p : Nat}
    (h : p ∉ metadata.map Prod.fst) (candidates : List Candidate) :
    (metadata.foldl setCarrier candidates)[p]? = candidates[p]? := by
  induction metadata generalizing candidates with
  | nil => rfl
  | cons m metadata ih =>
    rw [List.map_cons, List.mem_cons, not_or] at h
    rw [List.foldl_cons, ih h.2, setCarrier, List.getElem?_modify_ne _ _ (Ne.symm h.1)]

theorem foldl_setCarrier_at {metadata : List (Nat × String × String)}
    (hnodup : (metadata.map Prod.fst).Nodup) {p : Nat} {name description : String}
    (h : (p, name, description) ∈ metadata) (candidates : List Candidate) :
    (metadata.foldl setCarrier candidates)[p]? =
      candidates[p]?.map fun c => { c with name := name, description := description } := by
  induction metadata generalizing candidates with
  | nil => cases h
  | cons m metadata ih =>
    rw [List.map_cons, List.nodup_cons] at hnodup
    rw [List.foldl_cons]
    rcases List.mem_cons.mp h with rfl | h
    · rw [foldl_setCarrier_others hnodup.1, setCarrier, List.getElem?_modify_eq]
      rfl
    · have hne : m.1 ≠ p := by
        intro heq
        rw [heq] at hnodup
        exact hnodup.1 (List.mem_map_of_mem (f := Prod.fst) h)
      rw [ih hnodup.2 h, setCarrier, List.getElem?_modify_ne _ _ hne]

/-- One row of a join: the position, and the members read for it. -/
def JoinsRow (index : List ((String × String × String) × Members)) (candidates : List Candidate)
    (p : Nat) (joined : Nat × Members) : Prop :=
  joined.1 = p ∧ ∃ c, candidates[p]? = some c ∧
    lookupRow index (c.leaf.elementId, c.leaf.documentMicroversion, c.leaf.partId) =
      some joined.2

theorem resolveCarrier_fills {response : Value} {group : CarrierGroup}
    {candidates candidates' : List Candidate} (hnodup : group.positions.Nodup)
    (h : resolveCarrier response group candidates = .ok candidates') :
    Fills response group.positions candidates candidates' := by
  obtain ⟨rows, hrows, h⟩ := bind_ok.mp h
  obtain ⟨index, hindex, h⟩ := bind_ok.mp h
  obtain ⟨joined, hjoined, h⟩ := bind_ok.mp h
  obtain ⟨states, _, h⟩ := bind_ok.mp h
  have hkeys : Keys carrierRowKey fun obj k => carrierRowKey obj = .ok k :=
    ⟨fun _ _ => Iff.rfl, malforms_carrierRowKey⟩
  obtain ⟨hkeyed, hlookup⟩ := indexRows_ok hkeys hindex
  have hjoins : List.Forall₂ (JoinsRow index candidates) group.positions joined := by
    refine (traverse_forall₂.mp hjoined).imp fun p row hrow => ?_
    cases hcandidate : candidates[p]? with
    | none =>
      simp only [hcandidate] at hrow
      cases hrow
    | some c =>
      simp only [hcandidate] at hrow
      obtain ⟨_, hc, hrow⟩ := bind_ok.mp hrow
      cases hc
      cases hobj : lookupRow index (c.leaf.elementId, c.leaf.documentMicroversion, c.leaf.partId) with
      | none =>
        simp only [hobj] at hrow
        cases hrow
      | some obj =>
        simp only [hobj] at hrow
        obtain ⟨_, _, hrow⟩ := bind_ok.mp hrow
        cases hrow
        exact ⟨rfl, c, hcandidate, hobj⟩
  split at h
  · cases h
  · obtain ⟨metadata, hmetadata, h⟩ := bind_ok.mp h
    cases h
    have hread : List.Forall₂ (fun (row : Nat × Members) (m : Nat × String × String) =>
        m.1 = row.1 ∧ string row.2 "name" = .ok m.2.1 ∧ string row.2 "description" = .ok m.2.2)
        joined metadata := by
      refine (traverse_forall₂.mp hmetadata).imp fun row m hm => ?_
      obtain ⟨name, hname, hm⟩ := bind_ok.mp hm
      obtain ⟨description, hdescription, hm⟩ := bind_ok.mp hm
      cases hm
      exact ⟨rfl, mapError_ok.mp hname, mapError_ok.mp hdescription⟩
    have hpositions : metadata.map Prod.fst = group.positions := by
      rw [map_eq_of_forall₂ hread fun _ _ hm => hm.1, map_eq_of_forall₂ hjoins fun _ _ hm => hm.1,
        List.map_id']
    rw [← hpositions] at hnodup
    constructor
    · intro p hp
      obtain ⟨⟨p', obj⟩, hrow, hp', c, hc, hobj⟩ := exists_of_forall₂ hjoins hp
      obtain ⟨⟨p'', name, description⟩, hm, hp'', hname, hdescription⟩ :=
        exists_of_forall₂ hread hrow
      obtain rfl : p' = p := hp'
      obtain rfl : p'' = p' := hp''
      refine ⟨c, { c with name := name, description := description }, hc, ?_, rfl, ?_⟩
      · rw [foldl_setCarrier_at hnodup hm, hc, Option.map_some]
      · exact ⟨rows, obj, hrows, hkeyed, (hlookup _ _).mp hobj, hname, hdescription⟩
    · intro p hp
      rw [← hpositions] at hp
      exact foldl_setCarrier_others hp candidates

/-- A response fills exactly its group, or nothing. -/
theorem resolveCarrier_atomic {group : CarrierGroup} (hnodup : group.positions.Nodup)
    (response : Value) (candidates : List Candidate) :
    (∃ candidates', (resolveCarrierWrites response group).run.run candidates = (.ok (), candidates') ∧
        Fills response group.positions candidates candidates') ∨
      ∃ e, (resolveCarrierWrites response group).run.run candidates = (.error e, candidates) := by
  rw [resolveCarrierWrites_eq]
  cases h : resolveCarrier response group candidates with
  | ok candidates' => exact .inl ⟨candidates', rfl, resolveCarrier_fills hnodup h⟩
  | error e => exact .inr ⟨e, rfl⟩

/-! ## Responses in any order -/

/-- The results of some responses, and the candidates after them. -/
def joinAll : List (CarrierGroup × Value) → List Candidate →
    List (Except ApiFailure Unit) × List Candidate
  | [], candidates => ([], candidates)
  | (group, response) :: steps, candidates =>
    let run := (resolveCarrierWrites response group).run.run candidates
    let rest := joinAll steps run.2
    (run.1 :: rest.1, rest.2)

theorem joinAll_cons {group : CarrierGroup} {response : Value} {candidates next : List Candidate}
    {result : Except ApiFailure Unit}
    (h : (resolveCarrierWrites response group).run.run candidates = (result, next))
    (steps : List (CarrierGroup × Value)) :
    joinAll ((group, response) :: steps) candidates =
      (result :: (joinAll steps next).1, (joinAll steps next).2) := by
  rw [joinAll, h]

/-- The groups of some responses have no position in common. -/
def Apart (steps : List (CarrierGroup × Value)) : Prop :=
  (∀ step ∈ steps, step.1.positions.Nodup) ∧
    steps.Pairwise fun s t => ∀ p ∈ s.1.positions, p ∉ t.1.positions

/-- What a response with a result leaves of its positions. -/
structure Settled (result : Except ApiFailure Unit) (step : CarrierGroup × Value)
    (candidates candidates' : List Candidate) : Prop where
  filled : result = .ok () → ∀ p ∈ step.1.positions, ∃ c c', candidates[p]? = some c ∧
    candidates'[p]? = some c' ∧ FilledFrom step.2 c c'
  kept : ∀ e, result = .error e → ∀ p ∈ step.1.positions, candidates'[p]? = candidates[p]?

theorem joinAll_others {steps : List (CarrierGroup × Value)} (hsteps : Apart steps)
    (candidates : List Candidate) {p : Nat} (hp : ∀ step ∈ steps, p ∉ step.1.positions) :
    (joinAll steps candidates).2[p]? = candidates[p]? := by
  induction steps generalizing candidates with
  | nil => rfl
  | cons step steps ih =>
    obtain ⟨group, response⟩ := step
    obtain ⟨hnodup, hnodups⟩ := List.forall_mem_cons.mp hsteps.1
    obtain ⟨hnot, hnots⟩ := List.forall_mem_cons.mp hp
    have hrest : Apart steps := ⟨hnodups, (List.pairwise_cons.mp hsteps.2).2⟩
    rcases resolveCarrier_atomic hnodup response candidates with ⟨next, hrun, hfills⟩ | ⟨e, hrun⟩
    · rw [joinAll_cons hrun]
      exact (ih hrest next hnots).trans (hfills.others p hnot)
    · rw [joinAll_cons hrun]
      exact ih hrest candidates hnots

theorem Settled.of_same {result : Except ApiFailure Unit} {step : CarrierGroup × Value}
    {candidates next final : List Candidate} (h : Settled result step next final)
    (hsame : ∀ p ∈ step.1.positions, next[p]? = candidates[p]?) :
    Settled result step candidates final where
  filled hresult p hp := by
    rw [← hsame p hp]
    exact h.filled hresult p hp
  kept e hresult p hp := by
    rw [← hsame p hp]
    exact h.kept e hresult p hp

theorem joinAll_length (steps : List (CarrierGroup × Value)) (candidates : List Candidate) :
    (joinAll steps candidates).1.length = steps.length := by
  induction steps generalizing candidates with
  | nil => rfl
  | cons step steps ih => simp [joinAll, ih]

/-- Every response leaves the positions of its group filled or as they were, whatever the order:
no other response touches them. -/
theorem joinAll_settles {steps : List (CarrierGroup × Value)} (hsteps : Apart steps)
    (candidates : List Candidate) {i : Nat} {result : Except ApiFailure Unit}
    {step : CarrierGroup × Value} (hresult : (joinAll steps candidates).1[i]? = some result)
    (hstep : steps[i]? = some step) :
    Settled result step candidates (joinAll steps candidates).2 := by
  induction steps generalizing candidates i with
  | nil => simp at hstep
  | cons first steps ih =>
    obtain ⟨group, response⟩ := first
    obtain ⟨hnodup, hnodups⟩ := List.forall_mem_cons.mp hsteps.1
    obtain ⟨hapart, haparts⟩ := List.pairwise_cons.mp hsteps.2
    have hrest : Apart steps := ⟨hnodups, haparts⟩
    have hlater (next : List Candidate) : ∀ p ∈ group.positions,
        (joinAll steps next).2[p]? = next[p]? :=
      fun p hp => joinAll_others hrest next fun s hs => hapart s hs p hp
    rcases resolveCarrier_atomic hnodup response candidates with ⟨next, hrun, hfills⟩ | ⟨e, hrun⟩
    · rw [joinAll_cons hrun] at hresult ⊢
      cases i with
      | zero =>
        cases hresult
        cases hstep
        refine ⟨fun _ p hp => ?_, fun e he => by cases he⟩
        obtain ⟨c, c', hc, hc', hfilled⟩ := hfills.filled p hp
        exact ⟨c, c', hc, (hlater next p hp).trans hc', hfilled⟩
      | succ i =>
        refine (ih hrest next hresult hstep).of_same fun p hp => hfills.others p fun hmem => ?_
        exact hapart step (List.mem_of_getElem? hstep) p hmem hp
    · rw [joinAll_cons hrun] at hresult ⊢
      cases i with
      | zero =>
        cases hresult
        cases hstep
        exact ⟨fun h => (by cases h), fun _ _ p hp => hlater candidates p hp⟩
      | succ i => exact ih hrest candidates hresult hstep

/-! ## The planner -/

/-- The planner asks for the carriers in order, and stops at the first failure. -/
theorem askCarriers_joins {onshape : Onshape} {groups : List CarrierGroup}
    {candidates candidates' : List Candidate}
    (h : askCarriers onshape groups candidates = .ok candidates') :
    ∃ steps, steps.map Prod.fst = groups ∧
      joinAll steps candidates = (steps.map fun _ => .ok (), candidates') := by
  induction groups generalizing candidates with
  | nil =>
    cases h
    exact ⟨[], rfl, rfl⟩
  | cons group groups ih =>
    obtain ⟨response, _, h⟩ := bind_ok.mp h
    obtain ⟨next, hnext, h⟩ := bind_ok.mp h
    obtain ⟨steps, hsteps, hrun⟩ := ih h
    have hfirst : (resolveCarrierWrites response group).run.run candidates = (.ok (), next) := by
      rw [resolveCarrierWrites_eq, mapError_ok.mp hnext]
      rfl
    refine ⟨(group, response) :: steps, by rw [List.map_cons, hsteps], ?_⟩
    rw [joinAll_cons hfirst, hrun, List.map_cons]

/-! ## Every candidate is filled once -/

theorem apart_of_perm {keys : List CarrierKey} {groups : List CarrierGroup}
    (h : Partition keys groups) {steps : List (CarrierGroup × Value)}
    (hperm : (steps.map Prod.fst).Perm groups) : Apart steps := by
  constructor
  · intro step hstep
    have hmem := hperm.mem_iff.mp (List.mem_map_of_mem (f := Prod.fst) hstep)
    exact (h.increasing _ hmem).imp fun hlt => Nat.ne_of_lt hlt
  · have hsymm : ∀ {a b : CarrierGroup}, (∀ p ∈ a.positions, p ∉ b.positions) →
        ∀ p ∈ b.positions, p ∉ a.positions := fun hab p hp hp' => hab p hp' hp
    have hpairwise := (hperm.pairwise_iff hsymm).mpr h.disjoint
    exact List.pairwise_map.mp hpairwise

theorem joined_of_all {keys : List CarrierKey} {groups : List CarrierGroup}
    (h : Partition keys groups) {steps : List (CarrierGroup × Value)}
    (hperm : (steps.map Prod.fst).Perm groups) {candidates : List Candidate}
    (hresults : ∀ result ∈ (joinAll steps candidates).1, result = .ok ()) {p : Nat}
    (hp : p < keys.length) :
    ∃ step ∈ steps, p ∈ step.1.positions ∧ ∃ c c', candidates[p]? = some c ∧
      (joinAll steps candidates).2[p]? = some c' ∧ FilledFrom step.2 c c' := by
  obtain ⟨g, ⟨hg, hpg⟩, _⟩ := h.exists_unique hp
  obtain ⟨step, hstep, rfl⟩ := List.mem_map.mp (hperm.mem_iff.mpr hg)
  obtain ⟨i, hi⟩ := List.getElem?_of_mem hstep
  have hbound : i < (joinAll steps candidates).1.length := by
    rw [joinAll_length]
    exact (List.getElem?_eq_some_iff.mp hi).1
  have hresult := List.getElem?_eq_getElem hbound
  have hsettled := joinAll_settles (apart_of_perm h hperm) candidates hresult hi
  exact ⟨step, hstep, hpg, hsettled.filled (hresults _ (List.getElem_mem hbound)) p hpg⟩

/-- The carriers of a resolved assembly partition its positions; each response fills its group or
nothing; and whatever the order of the responses, the positions written are all positions, each
once. -/
theorem carriers_joined {request : SelectionRequest} {mid : String} {response : Value}
    {assembly : AssemblyResolution} (h : resolveAssembly request mid response = .ok assembly) :
    assembly.candidates.length = request.selectors.length ∧
      (∃ s, Grouping.all ⟨[], []⟩ 0 (assembly.candidates.map fun c => carrierKey c.leaf) = some s ∧
        s.carriers = assembly.carriers) ∧
      Partition (assembly.candidates.map fun c => carrierKey c.leaf) assembly.carriers ∧
      (∀ p < request.selectors.length, ∃! g, g ∈ assembly.carriers ∧ p ∈ g.positions) ∧
      (∀ group ∈ assembly.carriers, ∀ response candidates,
        (∃ candidates', (resolveCarrierWrites response group).run.run candidates =
            (.ok (), candidates') ∧ Fills response group.positions candidates candidates') ∨
          ∃ e, (resolveCarrierWrites response group).run.run candidates = (.error e, candidates)) ∧
      ∀ steps : List (CarrierGroup × Value), (steps.map Prod.fst).Perm assembly.carriers →
        (steps.flatMap fun step => step.1.positions).Perm (List.range request.selectors.length) ∧
        (∀ (i : Nat) (result : Except ApiFailure Unit) (step : CarrierGroup × Value),
          (joinAll steps assembly.candidates).1[i]? = some result → steps[i]? = some step →
          Settled result step assembly.candidates (joinAll steps assembly.candidates).2) ∧
        ((∀ result ∈ (joinAll steps assembly.candidates).1, result = .ok ()) →
          ∀ p < request.selectors.length, ∃ step ∈ steps, p ∈ step.1.positions ∧
            ∃ c c', assembly.candidates[p]? = some c ∧
              (joinAll steps assembly.candidates).2[p]? = some c' ∧ FilledFrom step.2 c c') := by
  obtain ⟨hlength, hcarriers⟩ := resolveAssembly_carriers h
  have hloop := grouping_all (assembly.candidates.map Candidate.leaf)
  have hpartition := carrierGroups_partition (assembly.candidates.map Candidate.leaf)
  rw [← hcarriers, List.map_map] at hloop hpartition
  have hkeys : (assembly.candidates.map (carrierKey ∘ Candidate.leaf)).length =
      request.selectors.length := by rw [List.length_map, hlength]
  refine ⟨hlength, hloop, hpartition, fun p hp => ?_, fun group hgroup response candidates => ?_,
    fun steps hperm => ⟨?_, fun i result step hresult hstep => ?_, fun hresults p hp => ?_⟩⟩
  · exact hpartition.exists_unique (by rw [hkeys]; exact hp)
  · have hnodup : group.positions.Nodup :=
      (hpartition.increasing group hgroup).imp fun hlt => Nat.ne_of_lt hlt
    exact resolveCarrier_atomic hnodup response candidates
  · rw [← hkeys]
    refine List.Perm.trans ?_ hpartition.positions_perm
    have hflat := hperm.flatMap_right CarrierGroup.positions
    rwa [List.flatMap_map] at hflat
  · exact joinAll_settles (apart_of_perm hpartition hperm) assembly.candidates hresult hstep
  · exact joined_of_all hpartition hperm hresults (by rw [hkeys]; exact hp)

/-- The carrier of an occurrence, and what its response leaves. -/
theorem carriers_joined_occurrence :
    Partition [carrierKey oneLeaf] [⟨carrierKey oneLeaf, [0]⟩] ∧
      ∃ c c', [{ oneCandidate occurrenceSelector with name := "" }][0]? = some c ∧
        (joinAll [(⟨carrierKey oneLeaf, [0]⟩, .array [partRow])]
          [{ oneCandidate occurrenceSelector with name := "" }]).2[0]? = some c' ∧
        FilledFrom (.array [partRow]) c c' := by
  have hresolved : resolveAssembly occurrenceRequest "m" assemblyResponse =
      .ok ⟨assemblyRoot, [{ oneCandidate occurrenceSelector with name := "" }],
        [⟨carrierKey oneLeaf, [0]⟩]⟩ := by decide +kernel
  obtain ⟨_, _, hpartition, _, _, hsteps⟩ := carriers_joined hresolved
  obtain ⟨_, _, hall⟩ := hsteps [(⟨carrierKey oneLeaf, [0]⟩, .array [partRow])] (.refl _)
  have hresults : (joinAll [(⟨carrierKey oneLeaf, [0]⟩, .array [partRow])]
      [{ oneCandidate occurrenceSelector with name := "" }]).1 = [.ok ()] := by decide +kernel
  obtain ⟨step, hstep, _, hfilled⟩ := hall (by rw [hresults]; simp) 0 (by decide)
  rw [List.mem_singleton.mp hstep] at hfilled
  exact ⟨hpartition, hfilled⟩

end Selection
end OnshapeExport
