import Mathlib.Data.List.Nodup
import Mathlib.Data.List.Perm.Basic
import Mathlib.Data.List.Infix

/-!
# Lib.FileTree

Finite trees of files below a root that is not named. A tree is kept as the list of its entries:
every path comes once, and what is in a directory comes with the directory.

* `FileTree.get?` — what is at a path; `FileTree.mkdirAll`, `FileTree.putFile` add to it.
* `FileTree.walk` — the entries of a tree, directory by directory from a work list, until one is
  refused.
* `walk_eq` — a walk records every entry once, and fails only at one it refuses.
-/

namespace Files

abbrev Path := List String

inductive Kind (α : Type) where
  | directory
  | file (content : α)
  | other
deriving DecidableEq

structure FileTree (α : Type) where
  entries : List (Path × Kind α)
  nodup : (entries.map Prod.fst).Nodup
  closed : ∀ e ∈ entries, e.1 ≠ [] ∧
    (e.1.dropLast = [] ∨ (e.1.dropLast, Kind.directory) ∈ entries)

namespace FileTree

variable {α : Type}

def empty : FileTree α := ⟨[], List.nodup_nil, fun _ h => absurd h List.not_mem_nil⟩

def get? (t : FileTree α) (p : Path) : Option (Kind α) :=
  (t.entries.find? fun e => e.1 = p).map Prod.snd

theorem get?_eq_some {t : FileTree α} {p : Path} {k : Kind α} :
    t.get? p = some k ↔ (p, k) ∈ t.entries := by
  unfold get?
  constructor
  · intro h
    obtain ⟨e, he, rfl⟩ := Option.map_eq_some_iff.mp h
    have hp : e.1 = p := by simpa using List.find?_some he
    have hm := List.mem_of_find?_eq_some he
    rw [← hp]
    exact hm
  · intro h
    cases hf : t.entries.find? fun e => e.1 = p with
    | none => exact absurd (List.find?_eq_none.mp hf _ h) (by simp)
    | some e =>
      have hp : e.1 = p := by simpa using List.find?_some hf
      have he : e = (p, k) :=
        List.inj_on_of_nodup_map t.nodup (List.mem_of_find?_eq_some hf) h hp
      simp [he]

theorem get?_eq_none {t : FileTree α} {p : Path} : t.get? p = none ↔ ∀ k, (p, k) ∉ t.entries := by
  rw [Option.eq_none_iff_forall_ne_some]
  exact forall_congr' fun k => not_congr get?_eq_some

theorem get?_nil (t : FileTree α) : t.get? [] = none :=
  get?_eq_none.mpr fun _ h => (t.closed _ h).1 rfl

@[simp] theorem get?_empty (p : Path) : (empty : FileTree α).get? p = none := rfl

/-- Whether a path leads to the root or to a directory. -/
def isDirectory (t : FileTree α) (p : Path) : Prop := p = [] ∨ t.get? p = some .directory

instance [DecidableEq α] (t : FileTree α) (p : Path) : Decidable (t.isDirectory p) :=
  inferInstanceAs (Decidable (_ ∨ _))

/-- What is somewhere is in a directory. -/
theorem isDirectory_dropLast {t : FileTree α} {p : Path} {k : Kind α} (h : t.get? p = some k) :
    t.isDirectory p.dropLast :=
  (t.closed _ (get?_eq_some.mp h)).2.imp_right fun h => get?_eq_some.mpr h

/-- Every directory above what is somewhere is there. -/
theorem isDirectory_of_prefix {t : FileTree α} {p q : Path} {k : Kind α} (h : t.get? p = some k)
    (hq : q <+: p) (hne : q ≠ p) : t.isDirectory q := by
  have key : ∀ n (p : Path) (k : Kind α), p.length = n → t.get? p = some k → q <+: p → q ≠ p →
      t.isDirectory q := by
    intro n
    induction n with
    | zero =>
      intro p k hp _ hq hne
      rw [List.length_eq_zero_iff] at hp
      subst hp
      exact absurd (List.prefix_nil.mp hq) hne
    | succ n ih =>
      intro p k hp hget hq hne
      have hparent := isDirectory_dropLast hget
      have hlength : q.length < p.length := by
        have hle := hq.length_le
        have : q.length ≠ p.length := fun he => hne (hq.eq_of_length he)
        omega
      have hdrop : q <+: p.dropLast := by
        rw [List.prefix_iff_eq_take] at hq ⊢
        rw [List.dropLast_eq_take, List.take_take, Nat.min_eq_left (by omega)]
        exact hq
      by_cases he : q = p.dropLast
      · rw [he]
        exact hparent
      · rcases hparent with hnil | hdir
        · rw [hnil] at hdrop
          exact .inl (List.prefix_nil.mp hdrop)
        · exact ih p.dropLast .directory (by rw [List.length_dropLast]; omega) hdir hdrop he
  exact key p.length p k rfl h hq hne

/-! ## Adding to a tree -/

/-- A new entry in a directory. -/
def add (t : FileTree α) (p : Path) (k : Kind α)
    (h : p ≠ [] ∧ t.get? p = none ∧ t.isDirectory p.dropLast) : FileTree α where
  entries := t.entries ++ [(p, k)]
  nodup := by
    rw [List.map_append, List.nodup_append]
    refine ⟨t.nodup, List.nodup_singleton _, fun a ha b hb hab => ?_⟩
    obtain ⟨e, he, rfl⟩ := List.mem_map.mp ha
    rw [List.map_singleton, List.mem_singleton] at hb
    have hp : e.1 = p := hab.trans hb
    exact get?_eq_none.mp h.2.1 e.2 (by rw [← hp]; exact he)
  closed e he := by
    rcases List.mem_append.mp he with he | he
    · obtain ⟨hne, hparent⟩ := t.closed e he
      exact ⟨hne, hparent.imp_right fun h => List.mem_append_left _ h⟩
    · rw [List.mem_singleton] at he
      subst he
      exact ⟨h.1, h.2.2.imp_right fun h => List.mem_append_left _ (get?_eq_some.mp h)⟩

theorem get?_add {t : FileTree α} {p : Path} {k : Kind α}
    {h : p ≠ [] ∧ t.get? p = none ∧ t.isDirectory p.dropLast} (q : Path) :
    (t.add p k h).get? q = if q = p then some k else t.get? q := by
  rw [Option.ext_iff]
  intro k'
  rw [get?_eq_some]
  simp only [add, List.mem_append, List.mem_singleton, Prod.mk.injEq]
  by_cases hq : q = p
  · subst hq
    have hnone := get?_eq_none.mp h.2.1 k'
    simp [hnone, eq_comm]
  · simp only [hq, if_false, false_and, or_false, ← get?_eq_some]

/-- What is not a directory gives way to something else. -/
def set (t : FileTree α) (p : Path) (k : Kind α)
    (h : ∀ k', t.get? p = some k' → k' ≠ .directory) : FileTree α where
  entries := t.entries.map fun e => if e.1 = p then (p, k) else e
  nodup := by
    have hmap : (t.entries.map fun e => if e.1 = p then (p, k) else e).map Prod.fst =
        t.entries.map Prod.fst := by
      rw [List.map_map]
      refine List.map_congr_left fun e _ => ?_
      simp only [Function.comp_apply]
      split
      · rename_i he
        exact he.symm
      · rfl
    rw [hmap]
    exact t.nodup
  closed e' he' := by
    obtain ⟨e, he, rfl⟩ := List.mem_map.mp he'
    have hclosed := t.closed e he
    have hpath : (if e.1 = p then (p, k) else e).1 = e.1 := by
      split
      · rename_i he
        exact he.symm
      · rfl
    rw [hpath]
    refine ⟨hclosed.1, hclosed.2.imp_right fun hparent => List.mem_map.mpr ⟨_, hparent, ?_⟩⟩
    rw [if_neg]
    intro hp
    exact h .directory (get?_eq_some.mpr (hp ▸ hparent)) rfl

theorem get?_set {t : FileTree α} {p : Path} {k : Kind α}
    {h : ∀ k', t.get? p = some k' → k' ≠ .directory} (hthere : t.get? p ≠ none) (q : Path) :
    (t.set p k h).get? q = if q = p then some k else t.get? q := by
  rw [Option.ext_iff]
  intro k'
  rw [get?_eq_some]
  simp only [set, List.mem_map]
  by_cases hq : q = p
  · subst hq
    rw [if_pos rfl]
    constructor
    · rintro ⟨e, -, he⟩
      split at he
      · cases he
        rfl
      · rename_i hne
        exact absurd (congrArg Prod.fst he) hne
    · intro he
      cases he
      obtain ⟨k₀, hk₀⟩ := Option.ne_none_iff_exists'.mp hthere
      exact ⟨_, get?_eq_some.mp hk₀, if_pos rfl⟩
  · rw [if_neg hq, get?_eq_some]
    constructor
    · rintro ⟨e, he, heq⟩
      split at heq
      · cases heq
        exact absurd rfl hq
      · rw [← heq]
        exact he
    · intro he
      exact ⟨_, he, if_neg hq⟩

section Insert

variable [DecidableEq α]

/-- `create_dir`, where a directory that is there is fine. -/
def mkdir (t : FileTree α) (p : Path) : Option (FileTree α) :=
  if p = [] ∨ t.get? p = some .directory then some t
  else if h : p ≠ [] ∧ t.get? p = none ∧ t.isDirectory p.dropLast then some (t.add p .directory h)
  else none

/-- `create_dir_all`. -/
def mkdirAll (t : FileTree α) (p : Path) : Option (FileTree α) := p.inits.foldlM mkdir t

/-- A file that is written elsewhere and then renamed to its place, in a directory. -/
def putFile (t : FileTree α) (p : Path) (content : α) : Option (FileTree α) :=
  if h : p ≠ [] ∧ t.get? p = none ∧ t.isDirectory p.dropLast then some (t.add p (.file content) h)
  else if h : t.get? p ≠ none ∧ t.get? p ≠ some .directory then
    some (t.set p (.file content) fun _ hk hd => h.2 (hd ▸ hk))
  else none

theorem mkdir_some {t : FileTree α} {p : Path}
    (h : p ≠ [] → t.get? p = none ∨ t.get? p = some .directory)
    (hparent : t.isDirectory p.dropLast) :
    ∃ t', t.mkdir p = some t' ∧
      ∀ q, t'.get? q = if q = p ∧ p ≠ [] then some .directory else t.get? q := by
  unfold mkdir
  by_cases hthere : p = [] ∨ t.get? p = some .directory
  · refine ⟨t, if_pos hthere, fun q => ?_⟩
    by_cases hq : q = p ∧ p ≠ []
    · rw [if_pos hq, hq.1]
      exact hthere.resolve_left hq.2
    · rw [if_neg hq]
  · have hthere' := not_or.mp hthere
    have hnone := (h hthere'.1).resolve_right hthere'.2
    refine ⟨t.add p .directory ⟨hthere'.1, hnone, hparent⟩, ?_, fun q => ?_⟩
    · rw [if_neg hthere, dif_pos ⟨hthere'.1, hnone, hparent⟩]
    · rw [get?_add]
      by_cases hq : q = p
      · rw [if_pos hq, if_pos ⟨hq, hthere'.1⟩]
      · rw [if_neg hq, if_neg (fun h => hq h.1)]

theorem putFile_some {t : FileTree α} {p : Path} {content : α} (hne : p ≠ [])
    (h : t.get? p = none) (hparent : t.isDirectory p.dropLast) :
    ∃ t', t.putFile p content = some t' ∧
      ∀ q, t'.get? q = if q = p then some (.file content) else t.get? q :=
  ⟨_, dif_pos ⟨hne, h, hparent⟩, get?_add⟩

/-- Where nothing but directories is on the way, all of them are made. -/
theorem mkdirAll_some {t : FileTree α} {p : Path}
    (h : ∀ q, q <+: p → q ≠ [] → t.get? q = none ∨ t.get? q = some .directory) :
    ∃ t', t.mkdirAll p = some t' ∧
      ∀ q, t'.get? q = if q <+: p ∧ q ≠ [] then some .directory else t.get? q := by
  unfold mkdirAll
  induction p using List.reverseRecOn with
  | nil =>
    refine ⟨t, by simp [mkdir], fun q => ?_⟩
    rw [if_neg]
    rintro ⟨hq, hne⟩
    exact hne (List.prefix_nil.mp hq)
  | append_singleton p c ih =>
    obtain ⟨t₁, ht₁, hget₁⟩ := ih fun q hq hne => h q (hq.trans (List.prefix_append _ _)) hne
    have hne : p ++ [c] ≠ [] := by simp
    have hnot : ¬ (p ++ [c] <+: p ∧ p ++ [c] ≠ []) := by
      rintro ⟨hle, -⟩
      have := hle.length_le
      simp only [List.length_append, List.length_singleton] at this
      omega
    obtain ⟨t₂, ht₂, hget₂⟩ := mkdir_some (t := t₁) (p := p ++ [c])
      (fun _ => by rw [hget₁, if_neg hnot]; exact h _ List.prefix_rfl hne)
      (by
        rw [List.dropLast_concat]
        by_cases hp : p = []
        · exact .inl hp
        · exact .inr (by rw [hget₁, if_pos ⟨List.prefix_rfl, hp⟩]))
    refine ⟨t₂, ?_, fun q => ?_⟩
    · rw [List.inits_append]
      simp [List.foldlM_append, ht₁, ht₂]
    · rw [hget₂, hget₁]
      by_cases hq : q = p ++ [c]
      · rw [if_pos ⟨hq, hne⟩, if_pos ⟨hq ▸ List.prefix_rfl, hq ▸ hne⟩]
      · rw [if_neg fun h => hq h.1]
        have hiff : q <+: p ++ [c] ↔ q <+: p := by
          rw [List.prefix_concat_iff]
          exact ⟨fun h => h.resolve_left hq, .inr⟩
        simp only [hiff]

end Insert

/-! ## Walking -/

section Walk

variable {σ : Type}

/-- `read_dir`. -/
def children (t : FileTree α) (dir : Path) : List (Path × Kind α) :=
  t.entries.filter fun e => e.1.dropLast = dir

/-- The entries of one directory: they are refused or recorded, and directories are left to do. -/
def scan [DecidableEq α] (ok : Path × Kind α → Bool) (record : σ → Path × Kind α → σ) :
    List (Path × Kind α) → List Path → σ → Option (List Path × σ)
  | [], pending, s => some (pending, s)
  | e :: es, pending, s =>
    if ok e then
      scan ok record es (if e.2 = .directory then e.1 :: pending else pending) (record s e)
    else none

/-- The fuel bounds how many directories are read. -/
def walkFrom [DecidableEq α] (t : FileTree α) (ok : Path × Kind α → Bool)
    (record : σ → Path × Kind α → σ) : Nat → List Path → σ → Option σ
  | _, [], s => some s
  | 0, _ :: _, _ => none
  | fuel + 1, dir :: pending, s =>
    match scan ok record (t.children dir) pending s with
    | none => none
    | some (pending, s) => walkFrom t ok record fuel pending s

/-- Every entry below the root, from a work list of directories. -/
def walk [DecidableEq α] (t : FileTree α) (ok : Path × Kind α → Bool)
    (record : σ → Path × Kind α → σ) (s : σ) : Option σ :=
  walkFrom t ok record (t.entries.length + 1) [[]] s

theorem mem_children {t : FileTree α} {dir : Path} {e : Path × Kind α} :
    e ∈ t.children dir ↔ e ∈ t.entries ∧ e.1.dropLast = dir := by
  simp [children]

theorem entries_nodup (t : FileTree α) : t.entries.Nodup := t.nodup.of_map _

/-- The directories of a list of entries, last first. -/
def directoriesOf [DecidableEq α] (es : List (Path × Kind α)) : List Path :=
  ((es.filter fun e => e.2 = .directory).map Prod.fst).reverse

theorem scan_some [DecidableEq α] {ok : Path × Kind α → Bool} {record : σ → Path × Kind α → σ}
    {es : List (Path × Kind α)} {pending : List Path} {s : σ} :
    scan ok record es pending s = if es.all ok then
      some (directoriesOf es ++ pending, es.foldl record s) else none := by
  induction es generalizing pending s with
  | nil => simp [scan, directoriesOf]
  | cons e es ih =>
    rw [scan]
    by_cases he : ok e = true
    · rw [if_pos he, ih, List.all_cons, he, Bool.true_and]
      by_cases hd : e.2 = .directory <;> simp [directoriesOf, hd]
    · rw [if_neg he]
      simp [he]

/-- What a walk has seen, while some directories are left to do. -/
structure Seen (t : FileTree α) (pending : List Path) (seen : List (Path × Kind α)) : Prop where
  nodup : seen.Nodup
  sub : ∀ e ∈ seen, e ∈ t.entries
  pendingNodup : pending.Nodup
  pendingSeen : ∀ p ∈ pending, p = [] ∨ (p, Kind.directory) ∈ seen
  /-- Nothing of a directory that is left to do has been seen. -/
  todo : ∀ e ∈ seen, e.1.dropLast ∉ pending
  parent : ∀ e ∈ seen, e.1.dropLast = [] ∨ (e.1.dropLast, Kind.directory) ∈ seen
  done : ∀ p, p = [] ∨ (p, Kind.directory) ∈ seen → p ∉ pending → ∀ e ∈ t.children p, e ∈ seen

theorem mem_directoriesOf [DecidableEq α] {es : List (Path × Kind α)} {p : Path} :
    p ∈ directoriesOf es ↔ (p, Kind.directory) ∈ es := by
  simp only [directoriesOf, List.mem_reverse, List.mem_map, List.mem_filter, decide_eq_true_eq]
  constructor
  · rintro ⟨e, ⟨he, hd⟩, rfl⟩
    rw [← hd]
    exact he
  · intro h
    exact ⟨_, ⟨h, rfl⟩, rfl⟩

theorem seen_start (t : FileTree α) : Seen t [[]] [] where
  nodup := List.nodup_nil
  sub _ h := absurd h List.not_mem_nil
  pendingNodup := List.nodup_singleton _
  pendingSeen p hp := .inl (List.mem_singleton.mp hp)
  todo _ h := absurd h List.not_mem_nil
  parent _ h := absurd h List.not_mem_nil
  done p hp hnot := by
    rcases hp with rfl | hp
    · exact absurd (List.mem_singleton_self _) hnot
    · exact absurd hp List.not_mem_nil

/-- When nothing is left to do, everything has been seen. -/
theorem Seen.all {t : FileTree α} {seen : List (Path × Kind α)} (h : Seen t [] seen) :
    ∀ e ∈ t.entries, e ∈ seen := by
  have key : ∀ n, ∀ e ∈ t.entries, e.1.length = n → e ∈ seen := by
    intro n
    induction n with
    | zero =>
      intro e he hn
      exact absurd (List.length_eq_zero_iff.mp hn) (t.closed e he).1
    | succ n ih =>
      intro e he hn
      refine h.done e.1.dropLast ?_ List.not_mem_nil e (mem_children.mpr ⟨he, rfl⟩)
      refine (t.closed e he).2.imp_right fun hparent => ih _ hparent ?_
      simp only
      rw [List.length_dropLast]
      omega
  exact fun e he => key _ e he rfl

variable [DecidableEq α]

/-- Reading the next directory. -/
theorem Seen.read {t : FileTree α} {dir : Path} {pending : List Path} {seen : List (Path × Kind α)}
    (h : Seen t (dir :: pending) seen) :
    Seen t (directoriesOf (t.children dir) ++ pending) (seen ++ t.children dir) := by
  have hnew : ∀ e ∈ t.children dir, e ∉ seen := fun e he hs =>
    h.todo e hs ((mem_children.mp he).2 ▸ List.mem_cons_self)
  have hne : ∀ e ∈ t.children dir, e.1 ≠ [] := fun e he =>
    (t.closed e (mem_children.mp he).1).1
  have hdir : dir ∉ pending := (List.nodup_cons.mp h.pendingNodup).1
  -- a directory is not in itself
  have hself : ∀ e ∈ t.children dir, e.1 ≠ dir := by
    intro e he hp
    have hlength := congrArg List.length ((mem_children.mp he).2.trans hp.symm)
    rw [List.length_dropLast] at hlength
    have := List.length_pos_iff.mpr (hne e he)
    omega
  refine ⟨?_, ?_, ?_, ?_, ?_, ?_, ?_⟩
  · rw [List.nodup_append]
    refine ⟨h.nodup, t.entries_nodup.filter _, fun a ha b hb hab => ?_⟩
    exact hnew b hb (hab ▸ ha)
  · intro e he
    rcases List.mem_append.mp he with he | he
    · exact h.sub e he
    · exact (mem_children.mp he).1
  · rw [List.nodup_append]
    refine ⟨?_, (List.nodup_cons.mp h.pendingNodup).2, fun a ha b hb hab => ?_⟩
    · rw [directoriesOf, List.nodup_reverse]
      exact t.nodup.sublist ((List.filter_sublist.trans List.filter_sublist).map _)
    · subst hab
      have hchild := mem_directoriesOf.mp ha
      rcases h.pendingSeen a (List.mem_cons_of_mem _ hb) with hroot | hseen
      · exact hne _ hchild hroot
      · exact hnew _ hchild hseen
  · intro p hp
    rcases List.mem_append.mp hp with hp | hp
    · exact .inr (List.mem_append_right _ (mem_directoriesOf.mp hp))
    · exact (h.pendingSeen p (List.mem_cons_of_mem _ hp)).imp_right
        fun hs => List.mem_append_left _ hs
  · intro e he hp
    rcases List.mem_append.mp he with he | he
    · rcases List.mem_append.mp hp with hp | hp
      · have hchild := mem_directoriesOf.mp hp
        rcases h.parent e he with hroot | hseen
        · exact hne _ hchild hroot
        · exact hnew _ hchild hseen
      · exact h.todo e he (List.mem_cons_of_mem _ hp)
    · rw [(mem_children.mp he).2] at hp
      rcases List.mem_append.mp hp with hp | hp
      · exact hself _ (mem_directoriesOf.mp hp) rfl
      · exact hdir hp
  · intro e he
    rcases List.mem_append.mp he with he | he
    · exact (h.parent e he).imp_right fun hs => List.mem_append_left _ hs
    · rw [(mem_children.mp he).2]
      exact (h.pendingSeen dir List.mem_cons_self).imp_right fun hs => List.mem_append_left _ hs
  · intro p hp hnot e he
    rw [List.mem_append, not_or] at hnot
    by_cases hpd : p = dir
    · exact List.mem_append_right _ (hpd ▸ he)
    · refine List.mem_append_left _ (h.done p ?_ ?_ e he)
      · refine hp.imp_right fun hs => ?_
        rcases List.mem_append.mp hs with hs | hs
        · exact hs
        · exact absurd (mem_directoriesOf.mpr hs) hnot.1
      · rw [List.mem_cons, not_or]
        exact ⟨hpd, hnot.2⟩

theorem walkFrom_eq {t : FileTree α} {ok : Path × Kind α → Bool} {record : σ → Path × Kind α → σ}
    {fuel : Nat} {pending : List Path} {seen : List (Path × Kind α)} {s : σ}
    (h : Seen t pending seen)
    (hfuel : pending.length + (t.entries.length - seen.length) ≤ fuel) :
    (∃ rest, (seen ++ rest).Perm t.entries ∧ rest.all ok = true ∧
        walkFrom t ok record fuel pending s = some (rest.foldl record s)) ∨
      (∃ e ∈ t.entries, ok e = false) ∧ walkFrom t ok record fuel pending s = none := by
  induction fuel generalizing pending seen s with
  | zero =>
    have hnil : pending = [] := List.length_eq_zero_iff.mp (by omega)
    subst hnil
    refine .inl ⟨[], ?_, rfl, by rw [walkFrom]; rfl⟩
    rw [List.append_nil]
    exact (List.perm_ext_iff_of_nodup h.nodup t.entries_nodup).mpr
      fun e => ⟨h.sub e, h.all e⟩
  | succ fuel ih =>
    cases pending with
    | nil =>
      refine .inl ⟨[], ?_, rfl, by rw [walkFrom]; rfl⟩
      rw [List.append_nil]
      exact (List.perm_ext_iff_of_nodup h.nodup t.entries_nodup).mpr
        fun e => ⟨h.sub e, h.all e⟩
    | cons dir pending =>
      rw [walkFrom, scan_some]
      by_cases hok : (t.children dir).all ok = true
      · have hread := h.read
        have hle : (seen ++ t.children dir).length ≤ t.entries.length :=
          (List.subperm_of_subset hread.nodup hread.sub).length_le
        have hdirs : (directoriesOf (t.children dir)).length ≤ (t.children dir).length := by
          rw [directoriesOf, List.length_reverse, List.length_map]
          exact List.length_filter_le _ _
        have hmeasure : (directoriesOf (t.children dir) ++ pending).length +
            (t.entries.length - (seen ++ t.children dir).length) ≤ fuel := by
          simp only [List.length_append, List.length_cons] at hle hfuel ⊢
          omega
        rw [if_pos hok]
        simp only
        rcases ih (s := (t.children dir).foldl record s) hread hmeasure with
          ⟨rest, hperm, hall, hwalk⟩ | hbad
        · refine .inl ⟨t.children dir ++ rest, ?_, ?_, ?_⟩
          · rw [← List.append_assoc]
            exact hperm
          · rw [List.all_append, hok, hall]
            rfl
          · rw [hwalk, List.foldl_append]
        · exact .inr hbad
      · rw [if_neg hok]
        rw [Bool.not_eq_true, List.all_eq_false] at hok
        obtain ⟨e, he, hbad⟩ := hok
        exact .inr ⟨⟨e, (mem_children.mp he).1, Bool.not_eq_true _ ▸ hbad⟩, rfl⟩

/-- A walk records every entry once, or there is one that it refuses. -/
theorem walk_eq (t : FileTree α) (ok : Path × Kind α → Bool) (record : σ → Path × Kind α → σ)
    (s : σ) :
    (∃ order : List (Path × Kind α), order.Perm t.entries ∧ (∀ e ∈ t.entries, ok e = true) ∧
        t.walk ok record s = some (order.foldl record s)) ∨
      (∃ e ∈ t.entries, ok e = false) ∧ t.walk ok record s = none := by
  have hfuel : ([[]] : List Path).length +
      (t.entries.length - ([] : List (Path × Kind α)).length) ≤ t.entries.length + 1 := by
    simp only [List.length_singleton, List.length_nil]
    omega
  rcases walkFrom_eq (s := s) t.seen_start hfuel with
    ⟨order, hperm, hall, hwalk⟩ | hbad
  · rw [List.nil_append] at hperm
    exact .inl ⟨order, hperm, fun e he => List.all_eq_true.mp hall e (hperm.mem_iff.mpr he), hwalk⟩
  · exact .inr hbad

end Walk

end FileTree

end Files
