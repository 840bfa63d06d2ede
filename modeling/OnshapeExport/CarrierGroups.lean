import OnshapeExport.RowOrder

/-!
# CarrierGroups

The carriers of an assembly. Its leaves are grouped by document, microversion, element and
configuration in one loop, with a map from the carriers met to their places in the list of groups.

* `Grouping.all` — the loop of the source, with its map; `grouping_all` is that it never misses a
  place and makes the groups of `carrierGroups`.
* `Partition` — every position in one group, in order; `carrierGroups_partition`.
* `resolveAssembly_carriers` — the groups of a resolved assembly are those of its candidates.
-/

namespace OnshapeExport
namespace Selection

open Checks Json OnshapeApi

/-! ## The loop -/

/-- `carriers` and `carrier_index`. -/
structure Grouping where
  carriers : List CarrierGroup
  index : List (CarrierKey × Nat)

/-- `carrier_index.entry(key).or_insert(next)`, a new group if the place is the next one, and the
position pushed to the group at the place; `none` when there is no group there. -/
def Grouping.push (s : Grouping) (position : Nat) (key : CarrierKey) : Option Grouping :=
  let next := s.carriers.length
  let (group, index) := match s.index.lookup key with
    | some group => (group, s.index)
    | none => (next, (key, next) :: s.index)
  let carriers := if group = next then s.carriers ++ [⟨key, []⟩] else s.carriers
  (carriers[group]?).map fun g =>
    ⟨carriers.set group { g with positions := g.positions ++ [position] }, index⟩

def Grouping.all : Grouping → Nat → List CarrierKey → Option Grouping
  | s, _, [] => some s
  | s, position, key :: keys => (s.push position key).bind fun s => s.all (position + 1) keys

/-! ## Joining a group -/

theorem joinCarrier_new {groups : List CarrierGroup} {key : CarrierKey}
    (h : ∀ g ∈ groups, g.key ≠ key) (position : Nat) :
    joinCarrier groups position key = groups ++ [⟨key, [position]⟩] := by
  induction groups with
  | nil => rfl
  | cons g groups ih =>
    obtain ⟨hg, hgroups⟩ := List.forall_mem_cons.mp h
    rw [joinCarrier, if_neg hg, ih hgroups, List.cons_append]

theorem joinCarrier_known {before after : List CarrierGroup} {g : CarrierGroup}
    (h : ∀ b ∈ before, b.key ≠ g.key) (position : Nat) :
    joinCarrier (before ++ g :: after) position g.key =
      before ++ { g with positions := g.positions ++ [position] } :: after := by
  induction before with
  | nil => rw [List.nil_append, joinCarrier, if_pos rfl, List.nil_append]
  | cons b before ih =>
    obtain ⟨hb, hbefore⟩ := List.forall_mem_cons.mp h
    rw [List.cons_append, joinCarrier, if_neg hb, ih hbefore, List.cons_append]

/-- Either the key is new, or one group has it and none before. -/
theorem key_cases (groups : List CarrierGroup) (key : CarrierKey) :
    (∀ g ∈ groups, g.key ≠ key) ∨ ∃ before g after, groups = before ++ g :: after ∧
      g.key = key ∧ ∀ b ∈ before, b.key ≠ key := by
  induction groups with
  | nil => exact .inl (by simp)
  | cons g groups ih =>
    by_cases hg : g.key = key
    · exact .inr ⟨[], g, groups, rfl, hg, by simp⟩
    · rcases ih with hnew | ⟨before, h, after, rfl, hh, hbefore⟩
      · exact .inl (List.forall_mem_cons.mpr ⟨hg, hnew⟩)
      · exact .inr ⟨g :: before, h, after, rfl, hh, List.forall_mem_cons.mpr ⟨hg, hbefore⟩⟩

/-! ## The map -/

/-- The map knows the places of the groups, and of nothing else. -/
def Indexed (s : Grouping) : Prop :=
  ∀ key place, s.index.lookup key = some place ↔
    ∃ g, s.carriers[place]? = some g ∧ g.key = key

theorem push_joins {s : Grouping} (hs : Indexed s) (position : Nat) (key : CarrierKey) :
    ∃ s', s.push position key = some s' ∧ s'.carriers = joinCarrier s.carriers position key ∧
      Indexed s' := by
  rcases key_cases s.carriers key with hnew | ⟨before, g, after, hsplit, hg, hbefore⟩
  · -- The carrier is met for the first time.
    have hlookup : s.index.lookup key = none := by
      cases h : s.index.lookup key with
      | none => rfl
      | some place =>
        obtain ⟨g, hplace, hkey⟩ := (hs key place).mp h
        exact absurd hkey (hnew g (List.mem_of_getElem? hplace))
    refine ⟨⟨s.carriers ++ [⟨key, [position]⟩], (key, s.carriers.length) :: s.index⟩, ?_,
      (joinCarrier_new hnew position).symm, ?_⟩
    · simp [Grouping.push, hlookup]
    · intro key' place
      by_cases hkey : key' = key
      · rw [hkey, List.lookup_cons_self, Option.some.injEq]
        constructor
        · intro hplace
          exact ⟨⟨key, [position]⟩, by simp [← hplace], rfl⟩
        · intro h
          obtain ⟨g, hplace, hg⟩ := h
          by_cases hlt : place < s.carriers.length
          · rw [List.getElem?_append_left hlt] at hplace
            exact absurd hg (hnew g (List.mem_of_getElem? hplace))
          · obtain ⟨hbound, _⟩ := List.getElem?_eq_some_iff.mp hplace
            rw [List.length_append, List.length_singleton] at hbound
            omega
      · have hbeq : (key' == key) = false := beq_eq_false_iff_ne.mpr hkey
        have hcons : List.lookup key' ((key, s.carriers.length) :: s.index) =
            s.index.lookup key' := by
          rw [List.lookup_cons, hbeq]
        rw [hcons, hs]
        constructor
        · intro h
          obtain ⟨g, hplace, hg⟩ := h
          refine ⟨g, ?_, hg⟩
          rw [List.getElem?_append_left (List.getElem?_eq_some_iff.mp hplace).1, hplace]
        · intro h
          obtain ⟨g, hplace, hg⟩ := h
          by_cases hlt : place < s.carriers.length
          · rw [List.getElem?_append_left hlt] at hplace
            exact ⟨g, hplace, hg⟩
          · rw [List.getElem?_append_right (by omega)] at hplace
            have hmem := List.mem_of_getElem? hplace
            rw [List.mem_singleton.mp hmem] at hg
            exact absurd hg.symm hkey
  · have hplace : s.carriers[before.length]? = some g := by
      rw [hsplit]
      simp
    have hlookup : s.index.lookup key = some before.length := (hs key _).mpr ⟨g, hplace, hg⟩
    have hne : before.length ≠ s.carriers.length := by
      rw [hsplit, List.length_append, List.length_cons]
      omega
    refine ⟨⟨s.carriers.set before.length { g with positions := g.positions ++ [position] },
      s.index⟩, ?_, ?_, ?_⟩
    · simp [Grouping.push, hlookup, hne, hplace]
    · rw [← hg] at hbefore ⊢
      rw [hsplit, joinCarrier_known hbefore]
      simp
    · intro key' place
      rw [hs]
      simp only [List.getElem?_set]
      by_cases hbp : before.length = place
      · rw [← hbp, hplace]
        simp only [if_true]
        rw [if_pos (List.getElem?_eq_some_iff.mp hplace).1]
        constructor
        · intro h
          obtain ⟨g', hg', hkey'⟩ := h
          cases hg'
          exact ⟨_, rfl, hkey'⟩
        · intro h
          obtain ⟨g', hg', hkey'⟩ := h
          cases hg'
          exact ⟨g, rfl, hkey'⟩
      · rw [if_neg hbp]

theorem grouping_all_from (keys : List CarrierKey) :
    ∀ (s : Grouping) (position : Nat), Indexed s →
      ∃ s', s.all position keys = some s' ∧ s'.carriers =
        (keys.zipIdx position).foldl (fun groups (key, p) => joinCarrier groups p key) s.carriers := by
  induction keys with
  | nil => exact fun s _ _ => ⟨s, rfl, rfl⟩
  | cons key keys ih =>
    intro s position hs
    obtain ⟨s₁, hpush, hcarriers, hs₁⟩ := push_joins hs position key
    obtain ⟨s', hall, hgroups⟩ := ih s₁ (position + 1) hs₁
    refine ⟨s', ?_, ?_⟩
    · rw [Grouping.all, hpush, Option.bind_some, hall]
    · rw [hgroups, hcarriers, List.zipIdx_cons, List.foldl_cons]

theorem carrierGroups_eq (leaves : List ConfiguredLeaf) :
    carrierGroups leaves = ((leaves.map carrierKey).zipIdx).foldl
      (fun groups (key, p) => joinCarrier groups p key) [] := by
  rw [carrierGroups, List.zipIdx_map, List.foldl_map]
  rfl

/-- The loop of the source never misses a group, and makes the groups of the leaves. -/
theorem grouping_all (leaves : List ConfiguredLeaf) :
    ∃ s, (Grouping.all ⟨[], []⟩ 0 (leaves.map carrierKey)) = some s ∧
      s.carriers = carrierGroups leaves := by
  have hstart : Indexed ⟨[], []⟩ := by
    intro key place
    simp
  obtain ⟨s, hall, hcarriers⟩ := grouping_all_from (leaves.map carrierKey) ⟨[], []⟩ 0 hstart
  exact ⟨s, hall, by rw [hcarriers, carrierGroups_eq]⟩

/-! ## The partition -/

def CarrierGroup.first (g : CarrierGroup) : Nat := g.positions.headD 0

/-- The groups are the positions of the keys, key by key in the order they are met. -/
structure Partition (keys : List CarrierKey) (groups : List CarrierGroup) : Prop where
  distinct : groups.Pairwise fun g h => g.key ≠ h.key
  member : ∀ g ∈ groups, ∀ p, p ∈ g.positions ↔ keys[p]? = some g.key
  covered : ∀ key ∈ keys, ∃ g ∈ groups, g.key = key
  increasing : ∀ g ∈ groups, g.positions.Pairwise (· < ·)
  nonempty : ∀ g ∈ groups, g.positions ≠ []
  ordered : groups.Pairwise fun g h => g.first < h.first

theorem getElem?_concat {keys : List CarrierKey} {key k : CarrierKey} {p : Nat} :
    (keys ++ [key])[p]? = some k ↔ keys[p]? = some k ∨ p = keys.length ∧ key = k := by
  by_cases hlt : p < keys.length
  · rw [List.getElem?_append_left hlt]
    exact ⟨.inl, fun h => h.resolve_right fun hp => by omega⟩
  · rw [List.getElem?_append_right (by omega), List.getElem?_eq_none (by omega : keys.length ≤ p)]
    by_cases hp : p = keys.length
    · simp [hp]
    · have hout : [key][p - keys.length]? = none := List.getElem?_eq_none (by simp; omega)
      simp [hout, hp]

section Step

variable {keys : List CarrierKey} {groups : List CarrierGroup}

theorem Partition.lt (h : Partition keys groups) {g : CarrierGroup} (hg : g ∈ groups) {p : Nat}
    (hp : p ∈ g.positions) : p < keys.length :=
  (List.getElem?_eq_some_iff.mp ((h.member g hg p).mp hp)).1

theorem Partition.first_mem (h : Partition keys groups) {g : CarrierGroup} (hg : g ∈ groups) :
    g.first ∈ g.positions := by
  have hne := h.nonempty g hg
  rw [CarrierGroup.first]
  cases hpositions : g.positions with
  | nil => exact absurd hpositions hne
  | cons p rest => exact List.mem_cons_self

theorem Partition.new (h : Partition keys groups) {key : CarrierKey}
    (hnew : ∀ g ∈ groups, g.key ≠ key) :
    Partition (keys ++ [key]) (groups ++ [⟨key, [keys.length]⟩]) := by
  constructor
  · rw [List.pairwise_append]
    exact ⟨h.distinct, List.pairwise_singleton _ _, fun g hg b hb => by
      rw [List.mem_singleton.mp hb]
      exact hnew g hg⟩
  · intro g hg p
    rw [getElem?_concat]
    rcases List.mem_append.mp hg with hg | hg
    · rw [h.member g hg p]
      exact ⟨.inl, fun hp => hp.resolve_right fun hp => hnew g hg hp.2.symm⟩
    · rw [List.mem_singleton.mp hg]
      constructor
      · intro hp
        exact .inr ⟨List.mem_singleton.mp hp, rfl⟩
      · intro hp
        rcases hp with hp | ⟨hp, _⟩
        · obtain ⟨b, hb, hkey⟩ := h.covered key (List.mem_of_getElem? hp)
          exact absurd hkey (hnew b hb)
        · exact List.mem_singleton.mpr hp
  · intro k hk
    rcases List.mem_append.mp hk with hk | hk
    · obtain ⟨g, hg, hkey⟩ := h.covered k hk
      exact ⟨g, List.mem_append_left _ hg, hkey⟩
    · exact ⟨⟨key, [keys.length]⟩, by simp, (List.mem_singleton.mp hk).symm⟩
  · intro g hg
    rcases List.mem_append.mp hg with hg | hg
    · exact h.increasing g hg
    · rw [List.mem_singleton.mp hg]
      exact List.pairwise_singleton _ _
  · intro g hg
    rcases List.mem_append.mp hg with hg | hg
    · exact h.nonempty g hg
    · rw [List.mem_singleton.mp hg]
      exact List.cons_ne_nil _ _
  · rw [List.pairwise_append]
    exact ⟨h.ordered, List.pairwise_singleton _ _, fun g hg b hb => by
      rw [List.mem_singleton.mp hb]
      exact h.lt hg (h.first_mem hg)⟩

/-- A group that takes one more position, with its neighbours. -/
theorem Partition.known {before after : List CarrierGroup} {g : CarrierGroup}
    (h : Partition keys (before ++ g :: after)) :
    Partition (keys ++ [g.key])
      (before ++ { g with positions := g.positions ++ [keys.length] } :: after) := by
  have hg : g ∈ before ++ g :: after := by simp
  have hold : ∀ b ∈ before ++ after, b ∈ before ++ g :: after := by
    intro b hb
    rcases List.mem_append.mp hb with hb | hb
    · exact List.mem_append_left _ hb
    · exact List.mem_append_right _ (List.mem_cons_of_mem _ hb)
  have hother : ∀ b ∈ before ++ after, b.key ≠ g.key := by
    have hdistinct := h.distinct
    rw [List.pairwise_append, List.pairwise_cons] at hdistinct
    obtain ⟨_, ⟨hafter, _⟩, hbefore⟩ := hdistinct
    intro b hb
    rcases List.mem_append.mp hb with hb | hb
    · exact hbefore b hb g List.mem_cons_self
    · exact (hafter b hb).symm
  have hcases : ∀ b ∈ before ++ { g with positions := g.positions ++ [keys.length] } :: after,
      b ∈ before ++ after ∨ b = { g with positions := g.positions ++ [keys.length] } := by
    intro b hb
    simp only [List.mem_append, List.mem_cons] at hb ⊢
    tauto
  -- The first position of the group stays, as there is one already.
  have hfirst : ({ g with positions := g.positions ++ [keys.length] } : CarrierGroup).first =
      g.first := by
    have hne := h.nonempty g hg
    cases hpositions : g.positions with
    | nil => exact absurd hpositions hne
    | cons p rest => simp [CarrierGroup.first, hpositions]
  constructor
  · have hdistinct := h.distinct
    rw [List.pairwise_append, List.pairwise_cons] at hdistinct ⊢
    refine ⟨hdistinct.1, hdistinct.2.1, fun b hb c hc => ?_⟩
    rcases List.mem_cons.mp hc with rfl | hc
    · exact hdistinct.2.2 b hb g List.mem_cons_self
    · exact hdistinct.2.2 b hb c (List.mem_cons_of_mem _ hc)
  · intro b hb p
    rw [getElem?_concat]
    rcases hcases b hb with hb | rfl
    · rw [h.member b (hold b hb) p]
      exact ⟨.inl, fun hp => hp.resolve_right fun hp => hother b hb hp.2.symm⟩
    · rw [List.mem_append, h.member g hg p, List.mem_singleton]
      simp
  · intro k hk
    rcases List.mem_append.mp hk with hk | hk
    · obtain ⟨b, hb, hkey⟩ := h.covered k hk
      by_cases hbg : b = g
      · exact ⟨{ g with positions := g.positions ++ [keys.length] }, by simp, by rw [← hkey, hbg]⟩
      · refine ⟨b, ?_, hkey⟩
        simp only [List.mem_append, List.mem_cons] at hb ⊢
        tauto
    · exact ⟨{ g with positions := g.positions ++ [keys.length] }, by simp,
        (List.mem_singleton.mp hk).symm⟩
  · intro b hb
    rcases hcases b hb with hb | rfl
    · exact h.increasing b (hold b hb)
    · rw [List.pairwise_append]
      exact ⟨h.increasing g hg, List.pairwise_singleton _ _, fun p hp q hq => by
        rw [List.mem_singleton.mp hq]
        exact h.lt hg hp⟩
  · intro b hb
    rcases hcases b hb with hb | rfl
    · exact h.nonempty b (hold b hb)
    · simp
  · have hordered := h.ordered
    rw [List.pairwise_append, List.pairwise_cons] at hordered ⊢
    refine ⟨hordered.1, ⟨fun b hb => ?_, hordered.2.1.2⟩, fun b hb c hc => ?_⟩
    · rw [hfirst]
      exact hordered.2.1.1 b hb
    · rcases List.mem_cons.mp hc with rfl | hc
      · rw [hfirst]
        exact hordered.2.2 b hb g List.mem_cons_self
      · exact hordered.2.2 b hb c (List.mem_cons_of_mem _ hc)

theorem Partition.join (h : Partition keys groups) (key : CarrierKey) :
    Partition (keys ++ [key]) (joinCarrier groups keys.length key) := by
  rcases key_cases groups key with hnew | ⟨before, g, after, rfl, rfl, hbefore⟩
  · rw [joinCarrier_new hnew]
    exact h.new hnew
  · rw [joinCarrier_known hbefore]
    exact h.known

end Step

theorem partition_of_keys (keys : List CarrierKey) :
    Partition keys (keys.zipIdx.foldl (fun groups (key, p) => joinCarrier groups p key) []) := by
  induction keys using List.reverseRecOn with
  | nil => exact ⟨.nil, by simp, by simp, by simp, by simp, .nil⟩
  | append_singleton keys key ih =>
    have hstep := ih.join key
    simpa [List.zipIdx_append] using hstep

theorem carrierGroups_partition (leaves : List ConfiguredLeaf) :
    Partition (leaves.map carrierKey) (carrierGroups leaves) := by
  rw [carrierGroups_eq]
  exact partition_of_keys _

/-- Every position is in exactly one group. -/
theorem Partition.exists_unique {keys : List CarrierKey} {groups : List CarrierGroup}
    (h : Partition keys groups) {p : Nat} (hp : p < keys.length) :
    ∃! g, g ∈ groups ∧ p ∈ g.positions := by
  have hkey : keys[p]? = some keys[p] := List.getElem?_eq_getElem hp
  obtain ⟨g, hg, hgk⟩ := h.covered _ (List.mem_of_getElem? hkey)
  refine ⟨g, ⟨hg, (h.member g hg p).mpr (by rw [hkey, hgk])⟩, fun g' hg' => ?_⟩
  have hsame : g'.key = g.key := by
    have hk := (h.member g' hg'.1 p).mp hg'.2
    rw [hkey, ← hgk] at hk
    exact (Option.some.inj hk).symm
  by_contra hne
  have : Std.Symm fun g h : CarrierGroup => g.key ≠ h.key := ⟨fun _ _ hab => hab.symm⟩
  exact h.distinct.forall hg'.1 hg hne hsame

theorem Partition.disjoint {keys : List CarrierKey} {groups : List CarrierGroup}
    (h : Partition keys groups) :
    groups.Pairwise fun g g' => ∀ p ∈ g.positions, p ∉ g'.positions := by
  refine h.distinct.imp_of_mem fun {g g'} hg hg' hne p hp hp' => hne ?_
  have hkey := (h.member g hg p).mp hp
  rw [(h.member g' hg' p).mp hp'] at hkey
  exact (Option.some.inj hkey).symm

/-- The positions of the groups, one group after the other, are all positions, each once. -/
theorem Partition.positions_perm {keys : List CarrierKey} {groups : List CarrierGroup}
    (h : Partition keys groups) :
    (groups.flatMap CarrierGroup.positions).Perm (List.range keys.length) := by
  have hnodup : (groups.flatMap CarrierGroup.positions).Nodup := by
    rw [List.nodup_flatMap]
    refine ⟨fun g hg => (h.increasing g hg).imp fun hlt => Nat.ne_of_lt hlt, ?_⟩
    exact h.disjoint.imp fun hab p hp hp' => hab p hp hp'
  refine (List.perm_ext_iff_of_nodup hnodup List.nodup_range).mpr fun p => ?_
  rw [List.mem_flatMap, List.mem_range]
  constructor
  · intro hp
    obtain ⟨g, hg, hp⟩ := hp
    exact h.lt hg hp
  · intro hp
    obtain ⟨g, hg, _⟩ := h.exists_unique hp
    exact ⟨g, hg⟩

/-! ## The groups of an assembly -/

theorem resolveAssembly_carriers {request : SelectionRequest} {mid : String} {response : Value}
    {assembly : AssemblyResolution} (h : resolveAssembly request mid response = .ok assembly) :
    assembly.candidates.length = request.selectors.length ∧
      assembly.carriers = carrierGroups (assembly.candidates.map Candidate.leaf) := by
  obtain ⟨envelope, _, h⟩ := bind_ok.mp h
  obtain ⟨row, _, h⟩ := bind_ok.mp h
  obtain ⟨d, _, h⟩ := bind_ok.mp h
  obtain ⟨m, _, h⟩ := bind_ok.mp h
  obtain ⟨e, _, h⟩ := bind_ok.mp h
  obtain ⟨configuration, _, h⟩ := bind_ok.mp h
  obtain ⟨instances, _, h⟩ := bind_ok.mp h
  obtain ⟨occurrences, _, h⟩ := bind_ok.mp h
  obtain ⟨_, _, h⟩ := bind_ok.mp h
  obtain ⟨_, _, h⟩ := bind_ok.mp h
  obtain ⟨parts, _, h⟩ := bind_ok.mp h
  obtain ⟨_, h⟩ := seq_ok.mp h
  obtain ⟨instanceIndex, _, h⟩ := bind_ok.mp h
  obtain ⟨occurrenceIndex, _, h⟩ := bind_ok.mp h
  obtain ⟨exclusions, _, h⟩ := bind_ok.mp h
  obtain ⟨selected, hselected, h⟩ := bind_ok.mp h
  obtain ⟨paths, hpaths, h⟩ := bind_ok.mp h
  obtain ⟨_, h⟩ := seq_ok.mp h
  obtain ⟨⟨leaves, matrices⟩, hprojected, h⟩ := bind_ok.mp h
  obtain ⟨_, h⟩ := seq_ok.mp h
  cases h
  have hlength := joinSelected_length hselected
  have hpathsLength : paths.length = request.selectors.length := traverse_length hpaths
  obtain ⟨hleaves, hmatrices, _, _⟩ := projectSelected_ok hprojected
  have hsecond : (paths.zip (leaves.zip matrices)).map Prod.snd = leaves.zip matrices :=
    List.map_snd_zip (by rw [List.length_zip]; omega)
  have hzip : (paths.zip (leaves.zip matrices)).map (fun x => x.2.1) = leaves :=
    calc (paths.zip (leaves.zip matrices)).map (fun x => x.2.1)
      _ = ((paths.zip (leaves.zip matrices)).map Prod.snd).map Prod.fst := by rw [List.map_map]; rfl
      _ = (leaves.zip matrices).map Prod.fst := by rw [hsecond]
      _ = leaves := List.map_fst_zip (by omega)
  refine ⟨?_, ?_⟩
  · rw [List.length_map, List.length_zip, List.length_zip]
    omega
  · rw [List.map_map]
    exact congrArg carrierGroups hzip.symm

end Selection
end OnshapeExport
