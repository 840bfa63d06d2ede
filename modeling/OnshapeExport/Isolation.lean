import OnshapeExport.ModelPublications

/-!
# Isolation

When the publications of one catalog model reach those of another. A set competes only with the
sets of its output, and the source hash is part of the output, so models of different sources are
out of each other's reach. Two versions that resolve to one microversion are one source.

* `SameSet`, `SameRecipe` — what a publication reads of the tables has not changed.
* `sameSet_publish`, `sameRecipe_publish` — a publication of another output changes none of it.
* `publish_answer` — what a publication answers depends on nothing else.
* `models_isolated`, `version_aliases_interfere` — the result, and why it asks for two sources.
-/

namespace OnshapeExport
namespace ModelPublications

open Relational Artifacts CacheModel Catalogs Exports GeneratorArtifacts GeneratorPublication
open Publishing Recipes

/-- SHA-256 tells apart what it is given, and writes no slash. A recipe's hash fixes what its
project is named after. -/
structure CollisionFree (hashes : Hashes) : Prop where
  sourceHash : Function.Injective hashes.exports.sourceHash
  artifactSetHash : Function.Injective hashes.generator.artifactSetHash
  noSlash : ∀ i, '/' ∉ (hashes.generator.artifactSetHash i).toList
  processingHash : ∀ r r', hashes.recipes.processingHash r = hashes.recipes.processingHash r' →
    r.inputManifest.sourceIdentity = r'.inputManifest.sourceIdentity ∧
      r.inputManifest.configurationIdentity = r'.inputManifest.configurationIdentity ∧
      r.compatibility = r'.compatibility ∧ r.settingsIdentity = r'.settingsIdentity ∧
      r.settingsSchemaIdentity = r'.settingsSchemaIdentity
  occurrenceIdentity : Function.Injective hashes.recipes.occurrenceIdentity

/-- The rows of one set are the same. -/
structure SameSet (h : String) (t t' : ArtifactTables) : Prop where
  set : t'.sets.find? h = t.sets.find? h
  files : Table.Agree (fun f => f.artifactSetHash = h) t.files t'.files

/-- The rows of one recipe are the same. -/
structure SameRecipe (h : String) (t t' : RecipeTables) : Prop where
  recipe : t'.recipes.find? h = t.recipes.find? h
  occurrences : Table.Agree (fun o => o.processingHash = h) t.occurrences t'.occurrences

theorem SameSet.refl (h : String) (t : ArtifactTables) : SameSet h t t := ⟨rfl, .refl _⟩

theorem SameSet.trans {h : String} {t t' t'' : ArtifactTables} (h₁ : SameSet h t t')
    (h₂ : SameSet h t' t'') : SameSet h t t'' :=
  ⟨h₂.set.trans h₁.set, h₁.files.trans h₂.files⟩

theorem SameRecipe.refl (h : String) (t : RecipeTables) : SameRecipe h t t := ⟨rfl, .refl _⟩

/-! ## A publication of another output -/

section Frame

variable {h : String} {t t' : ArtifactTables}

theorem sameSet_markReady {now : Timestamp} {k objectKey : String} (hk : h ≠ k) :
    SameSet h t (markArtifactSetReady now k objectKey t).2 where
  set := by rw [find?_markArtifactSetReady, if_neg hk]
  files := .refl _

theorem sameSet_supersede {now : Timestamp} {key : OutputKey} {k : String} {reason : Option String}
    (hrow : ∀ r, t.sets.find? h = some r → r.outputKey ≠ key) :
    SameSet h t (supersedeReadyArtifactsForOutput now key k reason t).2 where
  set := by
    rw [find?_supersedeReadyArtifactsForOutput]
    cases hf : t.sets.find? h with
    | none => rfl
    | some r => simp [replacedBy, hrow r hf]
  files := .refl _

theorem sameSet_publishExport {times : PublicationTimes} {p : Publication} {db : Database}
    (hk : h ≠ p.key)
    (hrow : ∀ r, db.artifacts.sets.find? h = some r → r.outputKey ≠ p.artifact.outputKey) :
    SameSet h db.artifacts (publishExport times p db).2.artifacts := by
  unfold publishExport
  split
  · exact .refl _ _
  · rename_i t hs
    obtain ⟨-, hs⟩ := stageArtifact_ok hs
    obtain ⟨hfind, -, hrows⟩ := stageArtifactInner_ok hs
    have hstage : SameSet h db.artifacts t := by
      refine ⟨by rw [hfind, if_neg hk], ?_⟩
      rw [Table.Agree, hrows, List.filter_append, List.filter_filter]
      have hown : p.files.filter (fun f => decide (f.artifactSetHash = h)) = [] := by
        rw [List.filter_eq_nil_iff]
        intro f hf
        simpa [p.ownFiles f hf] using hk.symm
      rw [hown, List.append_nil]
      refine List.filter_congr fun f _ => ?_
      by_cases hf : f.artifactSetHash = h
      · have : f.artifactSetHash ≠ p.key := hf ▸ hk
        simp [hf, hk]
      · simp [hf]
    refine hstage.trans ((sameSet_markReady hk).trans (sameSet_supersede ?_))
    rw [(sameSet_markReady hk).set, hstage.set]
    exact hrow

theorem agree_insertFiles {q : ArtifactFile → Bool} {files : List ArtifactFile}
    {u u' : Table ArtifactFile} (hi : insertFiles files u = .ok u')
    (hq : ∀ f ∈ files, q f = false) : Table.Agree q u u' := by
  have hnone : files.filter q = [] := by
    rw [List.filter_eq_nil_iff]
    intro f hf
    simp [hq f hf]
  rw [Table.Agree, insertFiles_ok hi, List.filter_append, hnone, List.append_nil]

variable {hashes : GeneratorHashes} {prepared : PreparedGeneratorProcessing}

theorem sameSet_stageTransaction {now : Timestamp} {artifact : GeneratorArtifactStage}
    {file : GeneratorArtifactFile} {recipes : RecipeTables} {state : GeneratorArtifactState}
    (hs : stageTransaction hashes now prepared artifact file recipes t = .ok (state, t'))
    (hk : h ≠ generatorArtifactSetHash hashes prepared artifact.outputKind artifact.format) :
    SameSet h t t' := by
  unfold stageTransaction at hs
  simp only at hs
  split at hs
  · cases hs
  · rename_i files hf
    split at hs
    · cases hs
    · cases hs
    · split at hs
      · cases hs
      · cases hs
        constructor
        · have hkeyed := Table.insertOrIgnore_keyed (fun _ _ hc => hc) t.sets
            (generatorSet hashes now prepared artifact)
          rw [hkeyed.2, if_neg fun he => hk he.symm]
        · refine agree_insertFiles hf fun f hmem => ?_
          split at hmem
          · rw [List.mem_singleton.mp hmem]
            exact decide_eq_false fun he => hk he.symm
          · cases hmem

theorem sameSet_stageOrResume {now : Timestamp} {artifact : GeneratorArtifactStage}
    {files : List GeneratorArtifactFile} {db : Database}
    (hk : h ≠ generatorArtifactSetHash hashes prepared artifact.outputKind artifact.format) :
    SameSet h db.artifacts
      (stageOrResumeGeneratorArtifact hashes now prepared artifact files db).2.artifacts := by
  unfold stageOrResumeGeneratorArtifact
  split
  · split
    · exact .refl _ _
    · split
      · exact .refl _ _
      · split
        · exact .refl _ _
        · rename_i hs
          exact sameSet_stageTransaction hs hk
  · exact .refl _ _

theorem sameSet_complete {readyAt supersededAt : Timestamp} {outputKind format objectKey : String}
    {db : Database} (hk : h ≠ generatorArtifactSetHash hashes prepared outputKind format)
    (hrow : ∀ r, db.artifacts.sets.find? h = some r →
      r.outputKey ≠ outputKey (generatorArtifactSetIdentity hashes prepared outputKind format)) :
    SameSet h db.artifacts (completeGeneratorArtifact hashes readyAt supersededAt prepared
      outputKind format objectKey db).2.artifacts := by
  unfold completeGeneratorArtifact
  split
  · exact .refl _ _
  · rename_i done t hc
    unfold completeTransaction at hc
    split at hc
    · cases hc
    · cases hc; exact .refl _ _
    · rename_i record file hload
      simp only at hc
      split at hc
      · cases hc
      · split at hc
        · cases hc
          obtain ⟨-, hok, -⟩ := loadGeneratorArtifact_some hashes hload
          simp only [loadable, Bool.and_eq_true, decide_eq_true_eq] at hok
          have hkey : (⟨record.sourceHash, record.configHash, record.optionsHash, outputKind⟩ :
              OutputKey) = outputKey
                (generatorArtifactSetIdentity hashes prepared outputKind format) := by
            simp only [outputKey, OutputKey.mk.injEq]
            tauto
          have hadv : SameSet h db.artifacts (advanceSets readyAt .ready
              (fun r => isSet (generatorArtifactSetHash hashes prepared outputKind format) r &&
                isPending r) db.artifacts) := by
            refine ⟨?_, .refl _⟩
            simp only [advanceSets, find?_updateSets]
            cases hf : db.artifacts.sets.find? h with
            | none => rfl
            | some r =>
              have hr : r.artifactSetHash = h := Table.find?_key hf
              simp [isSet, hr, hk]
          refine hadv.trans (sameSet_supersede ?_)
          rw [hadv.set, hkey]
          exact hrow
        · cases hc; exact .refl _ _

theorem sameRecipe_insert {u u' : RecipeTables} {inserted : Bool}
    (hi : insertGeneratorProcessingRecipe prepared u = .ok (inserted, u'))
    (hk : h ≠ prepared.processingHash) : SameRecipe h u u' := by
  unfold insertGeneratorProcessingRecipe at hi
  split at hi
  · cases hi
  · split at hi
    · cases hi
    · rename_i inputSetIdentity _
      simp only [insertGeneratorProcessingRecipeFields] at hi
      split at hi
      · cases hi
      · split at hi
        · cases hi
        · cases hi
          constructor
          · have hkeyed := Table.insertOrIgnore_keyed (fun _ _ hc => hc) u.recipes
              (recipeRow prepared inputSetIdentity)
            rw [hkeyed.2, if_neg fun he => hk he.symm]
          · refine agree_insertOccurrences _ fun o ho => ?_
            obtain ⟨_, -, rfl⟩ := List.mem_map.mp ho
            exact decide_eq_false fun he => hk he.symm

theorem sameRecipe_stageOrResume {now : Timestamp} {artifact : GeneratorArtifactStage}
    {files : List GeneratorArtifactFile} {db : Database} (hk : h ≠ prepared.processingHash) :
    SameRecipe h db.recipes
      (stageOrResumeGeneratorArtifact hashes now prepared artifact files db).2.recipes := by
  unfold stageOrResumeGeneratorArtifact
  split
  · split
    · exact .refl _ _
    · split
      · exact .refl _ _
      · rename_i hi
        split
        · exact sameRecipe_insert hi hk
        · exact sameRecipe_insert hi hk
  · exact .refl _ _

theorem recipes_complete {readyAt supersededAt : Timestamp} {outputKind format objectKey : String}
    {db : Database} :
    (completeGeneratorArtifact hashes readyAt supersededAt prepared outputKind format objectKey
      db).2.recipes = db.recipes := by
  unfold completeGeneratorArtifact
  split <;> rfl

theorem sameSet_publishGeneratorOutput {times : PublicationTimes}
    {target : GeneratorPublicationTarget} {candidate : MeasuredCandidate} {db : Database}
    (hk : h ≠ generatorArtifactSetHash hashes prepared target.outputKind target.format)
    (hrow : ∀ r, db.artifacts.sets.find? h = some r → r.outputKey ≠
      outputKey (generatorArtifactSetIdentity hashes prepared target.outputKind target.format)) :
    SameSet h db.artifacts
      (publishGeneratorOutput hashes times prepared target candidate db).2.artifacts := by
  refine publishGeneratorOutput_keeps hashes (Q := fun db' => SameSet h db.artifacts db'.artifacts)
    (.refl _ _) (sameSet_stageOrResume hk) ?_
  intro db' hdb'
  refine hdb'.trans (sameSet_complete hk ?_)
  rw [hdb'.set]
  exact hrow

theorem sameRecipe_publishGeneratorOutput {times : PublicationTimes}
    {target : GeneratorPublicationTarget} {candidate : MeasuredCandidate} {db : Database}
    (hk : h ≠ prepared.processingHash) :
    SameRecipe h db.recipes
      (publishGeneratorOutput hashes times prepared target candidate db).2.recipes := by
  refine publishGeneratorOutput_keeps hashes (Q := fun db' => SameRecipe h db.recipes db'.recipes)
    (.refl _ _) (sameRecipe_stageOrResume hk) ?_
  intro db' hdb'
  rw [recipes_complete]
  exact hdb'

end Frame

/-! ## What a publication answers -/

section Answer

theorem insertFiles_agree {q : ArtifactFile → Bool} {files : List ArtifactFile} :
    ∀ {u u' : Table ArtifactFile}, Table.Agree q u u' → (∀ f ∈ files, q f = true) →
      (∀ a ∈ u.rows, ∀ f ∈ files, Schema.clash a f → q a = true) →
      (∀ a ∈ u'.rows, ∀ f ∈ files, Schema.clash a f → q a = true) →
      (insertFiles files u = .error .constraint ∧ insertFiles files u' = .error .constraint) ∨
        ∃ v v', insertFiles files u = .ok v ∧ insertFiles files u' = .ok v' ∧
          Table.Agree q v v' := by
  induction files with
  | nil => exact fun hagree _ _ _ => .inr ⟨_, _, rfl, rfl, hagree⟩
  | cons f files ih =>
    intro u u' hagree hq hc hc'
    simp only [insertFiles]
    rcases hagree.insert? (fun a ha => hc a ha f List.mem_cons_self)
        (fun a ha => hc' a ha f List.mem_cons_self) with ⟨hi, hi'⟩ | ⟨v, v', hi, hi', hv⟩
    · rw [hi, hi']
      exact .inl ⟨rfl, rfl⟩
    · rw [hi, hi']
      have hrest : ∀ {w w' : Table ArtifactFile}, w.insert? f = some w' →
          (∀ a ∈ w.rows, ∀ g ∈ f :: files, Schema.clash a g → q a = true) →
          ∀ a ∈ w'.rows, ∀ g ∈ files, Schema.clash a g → q a = true := by
        intro w w' hw hold a ha g hg hclash
        rw [(Table.insert?_eq_some hw).1, List.mem_append, List.mem_singleton] at ha
        rcases ha with ha | rfl
        · exact hold a ha g (List.mem_cons_of_mem _ hg) hclash
        · exact hq a List.mem_cons_self
      exact ih hv (fun g hg => hq g (List.mem_cons_of_mem _ hg)) (hrest hi hc) (hrest hi' hc')

theorem insertOccurrences_agree {q : OccurrenceRow → Bool} {rows : List OccurrenceRow} :
    ∀ {u u' : Table OccurrenceRow}, Table.Agree q u u' → (∀ o ∈ rows, q o = true) →
      (∀ a ∈ u.rows, ∀ o ∈ rows, Schema.clash a o → q a = true) →
      (∀ a ∈ u'.rows, ∀ o ∈ rows, Schema.clash a o → q a = true) →
      Table.Agree q (insertOccurrences rows u) (insertOccurrences rows u') := by
  induction rows with
  | nil => exact fun hagree _ _ _ => hagree
  | cons o rows ih =>
    intro u u' hagree hq hc hc'
    have hone := hagree.insertOrIgnore (fun a ha => hc a ha o List.mem_cons_self)
      (fun a ha => hc' a ha o List.mem_cons_self)
    have hrest : ∀ {w : Table OccurrenceRow},
        (∀ a ∈ w.rows, ∀ g ∈ o :: rows, Schema.clash a g → q a = true) →
        ∀ a ∈ (w.insertOrIgnore o).2.rows, ∀ g ∈ rows, Schema.clash a g → q a = true := by
      intro w hold a ha g hg hclash
      rcases Table.mem_insertOrIgnore ha with ha | rfl
      · exact hold a ha g (List.mem_cons_of_mem _ hg) hclash
      · exact hq a List.mem_cons_self
    exact ih hone (fun g hg => hq g (List.mem_cons_of_mem _ hg)) (hrest hc) (hrest hc')

variable {hashes : Hashes} {deployment : Deployment} {catalog : Catalog} {db db' : Database}

theorem takeWhile_slash {l r : List Char} (h : '/' ∉ l) :
    (l ++ '/' :: r).takeWhile (fun c => decide (c ≠ '/')) = l := by
  rw [List.takeWhile_append_of_pos]
  · simp
  · intro c hc
    exact decide_eq_true fun he => h (he ▸ hc)

/-- An object key belongs to one set. -/
theorem InDirectory.unique {h h' objectKey : String} (hk : InDirectory h objectKey)
    (hk' : InDirectory h' objectKey) (hs : '/' ∉ h.toList) (hs' : '/' ∉ h'.toList) : h = h' := by
  obtain ⟨directory, name, hd, rfl⟩ := hk
  obtain ⟨directory', name', hd', he⟩ := hk'
  have hl := congrArg String.toList he
  have hrest : h.toList ++ '/' :: name.toList = h'.toList ++ '/' :: name'.toList := by
    rcases hd with rfl | rfl <;> rcases hd' with rfl | rfl <;> simp at hl
    all_goals exact hl
  have htake := congrArg (List.takeWhile fun c => decide (c ≠ '/')) hrest
  rw [takeWhile_slash hs, takeWhile_slash hs'] at htake
  exact String.toList_injective htake

/-- A file that clashes with one of a named set is a file of that set. -/
theorem own_of_clash (hfree : CollisionFree hashes) {i : ArtifactSetIdentity} {a f : ArtifactFile}
    (ha : NamedFile hashes a) (hf : InDirectory f.artifactSetHash f.objectKey)
    (hi : f.artifactSetHash = hashes.generator.artifactSetHash i) (hc : Schema.clash a f) :
    a.artifactSetHash = hashes.generator.artifactSetHash i := by
  obtain ⟨⟨j, hj⟩, hdir⟩ := ha
  rcases hc with hc | hc
  · exact (congrArg Prod.fst hc).trans hi
  · rw [hc] at hdir
    have hsame := hdir.unique hf (by rw [hj]; exact hfree.noSlash j)
      (by rw [hi]; exact hfree.noSlash i)
    exact hsame.trans hi

theorem publishExport_fst {times : PublicationTimes} {p : Publication}
    (hgen : p.artifact.generatorProcessingHash = none)
    (h : ∀ r ∈ db.artifacts.sets.rows, r.artifactSetHash = p.artifact.artifactKey →
      r.generatorProcessingHash = none) :
    (publishExport times p db).1 = (insertFiles p.files
      (db.artifacts.files.delete fun f => f.artifactSetHash = p.artifact.artifactKey)).map
        fun _ => () := by
  have hup : (upsertSet times.stagedAt p.artifact db.artifacts.sets).1 = true :=
    upsertSet_writes hgen h
  unfold publishExport stageArtifact
  simp only [hgen, Option.isSome_none, Bool.false_eq_true, if_false, stageArtifactInner]
  split
  · rename_i e he
    split at he
    · rename_i hu
      rw [hu] at hup
      cases hup
    · split at he
      · rename_i hf
        cases he
        rw [hf]; rfl
      · cases he
  · rename_i t ht
    split at ht
    · cases ht
    · split at ht
      · cases ht
      · rename_i hf
        rw [hf]; rfl

/-- An export of a named set is published or refused on account of its own files only. -/
theorem export_answer (hfree : CollisionFree hashes) (h : Tidy hashes deployment catalog db)
    (h' : Tidy hashes deployment catalog db') {times : PublicationTimes} {p : Publication}
    {i : ArtifactSetIdentity} (hkey : p.artifact.artifactKey = hashes.generator.artifactSetHash i)
    (hi : i.generatorProcessingHash = none) (hgen : p.artifact.generatorProcessingHash = none)
    (hfiles : ∀ f ∈ p.files, NamedFile hashes f) :
    (publishExport times p db).1 = (publishExport times p db').1 := by
  have hplain : ∀ {d : Database}, Tidy hashes deployment catalog d → ∀ r ∈ d.artifacts.sets.rows,
      r.artifactSetHash = p.artifact.artifactKey → r.generatorProcessingHash = none := by
    intro d hd r hr he
    obtain ⟨j, hj, -, hjg⟩ := (hd.sets r hr).identity
    have hij : j = i := hfree.artifactSetHash (by rw [← hj, he, hkey])
    rw [hjg, hij, hi]
  rw [publishExport_fst hgen (hplain h), publishExport_fst hgen (hplain h')]
  have hclash : ∀ {d : Database}, Tidy hashes deployment catalog d →
      ∀ a ∈ (d.artifacts.files.delete fun f => f.artifactSetHash = p.artifact.artifactKey).rows,
        ∀ f ∈ p.files, Schema.clash a f →
          decide (a.artifactSetHash = p.artifact.artifactKey) = true := by
    intro d hd a ha f hf hc
    have hown := own_of_clash hfree (hd.files a (List.mem_filter.mp ha).1) (hfiles f hf).directory
      ((p.ownFiles f hf).trans hkey) hc
    exact decide_eq_true (hown.trans hkey.symm)
  have hagree : Table.Agree (fun f => decide (f.artifactSetHash = p.artifact.artifactKey))
      (db.artifacts.files.delete fun f => f.artifactSetHash = p.artifact.artifactKey)
      (db'.artifacts.files.delete fun f => f.artifactSetHash = p.artifact.artifactKey) := by
    simp [Table.Agree, Table.delete, List.filter_filter]
  rcases insertFiles_agree hagree (fun f hf => decide_eq_true (p.ownFiles f hf)) (hclash h)
    (hclash h') with ⟨he, he'⟩ | ⟨v, v', hv, hv', -⟩
  · rw [he, he']
  · rw [hv, hv']; rfl

theorem insertRecipeFields_answer {row : RecipeRow} {rows : List OccurrenceRow}
    {u u' : RecipeTables} (hsame : SameRecipe row.processingHash u u')
    (hrows : ∀ o ∈ rows, o.processingHash = row.processingHash)
    (hc : ∀ a ∈ u.occurrences.rows, ∀ o ∈ rows, Schema.clash a o →
      a.processingHash = row.processingHash)
    (hc' : ∀ a ∈ u'.occurrences.rows, ∀ o ∈ rows, Schema.clash a o →
      a.processingHash = row.processingHash) :
    (∃ e, insertGeneratorProcessingRecipeFields row rows u = .error e ∧
        insertGeneratorProcessingRecipeFields row rows u' = .error e) ∨
      ∃ inserted v v', insertGeneratorProcessingRecipeFields row rows u = .ok (inserted, v) ∧
        insertGeneratorProcessingRecipeFields row rows u' = .ok (inserted, v') ∧
        SameRecipe row.processingHash v v' := by
  have hkeyed := Table.insertOrIgnore_keyed (fun _ _ hc => hc) u.recipes row
  have hkeyed' := Table.insertOrIgnore_keyed (fun _ _ hc => hc) u'.recipes row
  let v : RecipeTables :=
    ⟨(u.recipes.insertOrIgnore row).2, insertOccurrences rows u.occurrences⟩
  let v' : RecipeTables :=
    ⟨(u'.recipes.insertOrIgnore row).2, insertOccurrences rows u'.occurrences⟩
  have hflag : (u'.recipes.insertOrIgnore row).1 = (u.recipes.insertOrIgnore row).1 := by
    rw [hkeyed.1, hkeyed'.1]
    exact congrArg Option.isNone hsame.recipe
  have hfind : v'.recipes.find? row.processingHash = v.recipes.find? row.processingHash := by
    rw [hkeyed.2, hkeyed'.2, hsame.recipe]
  have hocc : Table.Agree (fun o => decide (o.processingHash = row.processingHash))
      v.occurrences v'.occurrences :=
    insertOccurrences_agree hsame.occurrences (fun o ho => decide_eq_true (hrows o ho))
      (fun a ha o ho hclash => decide_eq_true (hc a ha o ho hclash))
      (fun a ha o ho hclash => decide_eq_true (hc' a ha o ho hclash))
  have hlist : v'.occurrencesOf row.processingHash = v.occurrencesOf row.processingHash :=
    congrArg _ hocc.symm
  simp only [insertGeneratorProcessingRecipeFields]
  by_cases hrow : v.recipes.find? row.processingHash = some row
  · by_cases hall : v.occurrencesOf row.processingHash = rows
    · refine .inr ⟨(u.recipes.insertOrIgnore row).1, v, v', ?_, ?_, hfind, hocc⟩
      · rw [if_neg (not_not.mpr hrow), if_neg (not_not.mpr hall)]
      · rw [if_neg (not_not.mpr (hfind.trans hrow)), if_neg (not_not.mpr (hlist.trans hall)), hflag]
    · refine .inl ⟨.protocol ("immutable generator occurrence conflict for " ++
        row.processingHash), ?_, ?_⟩
      · rw [if_neg (not_not.mpr hrow), if_pos hall]
      · rw [if_neg (not_not.mpr (hfind.trans hrow)), if_pos fun h => hall (hlist.symm.trans h)]
  · refine .inl ⟨.protocol ("immutable generator recipe conflict for " ++ row.processingHash),
      ?_, ?_⟩
    · rw [if_pos hrow]
    · rw [if_pos fun h => hrow (hfind.symm.trans h)]

/-- A recipe is inserted or refused on account of its own rows only. -/
theorem insertRecipe_answer (prepared : PreparedGeneratorProcessing) {u u' : RecipeTables}
    (hsame : SameRecipe prepared.processingHash u u')
    (hc : ∀ a ∈ u.occurrences.rows, ∀ o ∈ occurrenceRows prepared, Schema.clash a o →
      a.processingHash = prepared.processingHash)
    (hc' : ∀ a ∈ u'.occurrences.rows, ∀ o ∈ occurrenceRows prepared, Schema.clash a o →
      a.processingHash = prepared.processingHash) :
    (∃ e, insertGeneratorProcessingRecipe prepared u = .error e ∧
        insertGeneratorProcessingRecipe prepared u' = .error e) ∨
      ∃ inserted v v', insertGeneratorProcessingRecipe prepared u = .ok (inserted, v) ∧
        insertGeneratorProcessingRecipe prepared u' = .ok (inserted, v') ∧
        SameRecipe prepared.processingHash v v' := by
  unfold insertGeneratorProcessingRecipe
  cases integerOverflow prepared.occurrences with
  | some message => exact .inl ⟨_, rfl, rfl⟩
  | none =>
    cases prepared.recipe.inputManifest.inputSetIdentity with
    | none => exact .inl ⟨_, rfl, rfl⟩
    | some inputSetIdentity =>
      refine insertRecipeFields_answer hsame (fun o ho => ?_) hc hc'
      obtain ⟨_, -, rfl⟩ := List.mem_map.mp ho
      rfl

theorem load_answer {generator : GeneratorHashes} {prepared : PreparedGeneratorProcessing}
    {outputKind format : String} {recipes recipes' : RecipeTables} {t t' : ArtifactTables}
    (hset : SameSet (generatorArtifactSetHash generator prepared outputKind format) t t')
    (hrecipe : SameRecipe prepared.processingHash recipes recipes') :
    loadGeneratorArtifact generator prepared outputKind format recipes' t' =
      loadGeneratorArtifact generator prepared outputKind format recipes t := by
  have hlist : recipes'.occurrencesOf prepared.processingHash =
      recipes.occurrencesOf prepared.processingHash := congrArg _ hrecipe.occurrences.symm
  have hfiles : t'.filesOf (generatorArtifactSetHash generator prepared outputKind format) =
      t.filesOf (generatorArtifactSetHash generator prepared outputKind format) :=
    hset.files.symm
  simp only [loadGeneratorArtifact, verifyPersistedGeneratorRecipe, hset.set, hrecipe.recipe, hlist,
    hfiles]

theorem stageTransaction_answer {generator : GeneratorHashes}
    {prepared : PreparedGeneratorProcessing} (now : Timestamp) {artifact : GeneratorArtifactStage}
    (file : GeneratorArtifactFile) {recipes recipes' : RecipeTables} {t t' : ArtifactTables}
    (hset : SameSet (generatorArtifactSetHash generator prepared artifact.outputKind
      artifact.format) t t')
    (hrecipe : SameRecipe prepared.processingHash recipes recipes')
    (hc : ∀ a ∈ t.files.rows, Schema.clash a (file.row (generatorArtifactSetHash generator prepared
      artifact.outputKind artifact.format)) → a.artifactSetHash =
        generatorArtifactSetHash generator prepared artifact.outputKind artifact.format)
    (hc' : ∀ a ∈ t'.files.rows, Schema.clash a (file.row (generatorArtifactSetHash generator prepared
      artifact.outputKind artifact.format)) → a.artifactSetHash =
        generatorArtifactSetHash generator prepared artifact.outputKind artifact.format) :
    (∃ e, stageTransaction generator now prepared artifact file recipes t = .error e ∧
        stageTransaction generator now prepared artifact file recipes' t' = .error e) ∨
      ∃ state v v', stageTransaction generator now prepared artifact file recipes t =
          .ok (state, v) ∧
        stageTransaction generator now prepared artifact file recipes' t' = .ok (state, v') ∧
        SameSet (generatorArtifactSetHash generator prepared artifact.outputKind artifact.format)
          v v' := by
  have hkeyed := Table.insertOrIgnore_keyed (fun _ _ hc => hc) t.sets
    (generatorSet generator now prepared artifact)
  have hkeyed' := Table.insertOrIgnore_keyed (fun _ _ hc => hc) t'.sets
    (generatorSet generator now prepared artifact)
  have hflag : (t'.sets.insertOrIgnore (generatorSet generator now prepared artifact)).1 =
      (t.sets.insertOrIgnore (generatorSet generator now prepared artifact)).1 := by
    rw [hkeyed.1, hkeyed'.1]
    exact congrArg Option.isNone hset.set
  have hfind : (t'.sets.insertOrIgnore (generatorSet generator now prepared artifact)).2.find?
        (generatorArtifactSetHash generator prepared artifact.outputKind artifact.format) =
      (t.sets.insertOrIgnore (generatorSet generator now prepared artifact)).2.find?
        (generatorArtifactSetHash generator prepared artifact.outputKind artifact.format) := by
    rw [hkeyed.2, hkeyed'.2, hset.set]
  let files := if (t.sets.insertOrIgnore (generatorSet generator now prepared artifact)).1 then
    [file.row (generatorSet generator now prepared artifact).artifactSetHash] else []
  have hfiles : ∀ f ∈ files, f = file.row (generatorArtifactSetHash generator prepared
      artifact.outputKind artifact.format) := by
    intro f hf
    simp only [files] at hf
    split at hf
    · exact List.mem_singleton.mp hf
    · cases hf
  have hagree := insertFiles_agree hset.files
    (fun f (hf : f ∈ files) => by rw [hfiles f hf]; exact decide_eq_true rfl)
    (fun a ha f hf hclash => decide_eq_true (hc a ha (hfiles f hf ▸ hclash)))
    (fun a ha f hf hclash => decide_eq_true (hc' a ha (hfiles f hf ▸ hclash)))
  simp only [stageTransaction, hflag]
  rcases hagree with ⟨he, he'⟩ | ⟨v, v', hv, hv', hvv⟩
  · simp only [files] at he he'
    rw [he, he']
    exact .inl ⟨_, rfl, rfl⟩
  · have hsame : SameSet (generatorArtifactSetHash generator prepared artifact.outputKind
        artifact.format)
        ⟨(t.sets.insertOrIgnore (generatorSet generator now prepared artifact)).2, v⟩
        ⟨(t'.sets.insertOrIgnore (generatorSet generator now prepared artifact)).2, v'⟩ :=
      ⟨hfind, hvv⟩
    simp only [files] at hv hv'
    rw [hv, hv']
    simp only [load_answer hsame hrecipe]
    split
    · exact .inl ⟨_, rfl, rfl⟩
    · exact .inl ⟨_, rfl, rfl⟩
    · split
      · exact .inl ⟨_, rfl, rfl⟩
      · exact .inr ⟨_, _, _, rfl, rfl, hsame⟩

theorem complete_answer {generator : GeneratorHashes} {prepared : PreparedGeneratorProcessing}
    (readyAt supersededAt : Timestamp) {outputKind format : String} (objectKey : String)
    (hset : SameSet (generatorArtifactSetHash generator prepared outputKind format)
      db.artifacts db'.artifacts)
    (hrecipe : SameRecipe prepared.processingHash db.recipes db'.recipes) :
    (completeGeneratorArtifact generator readyAt supersededAt prepared outputKind format objectKey
        db').1 =
      (completeGeneratorArtifact generator readyAt supersededAt prepared outputKind format objectKey
        db).1 := by
  unfold completeGeneratorArtifact completeTransaction
  rw [load_answer hset hrecipe]
  cases loadGeneratorArtifact generator prepared outputKind format db.recipes db.artifacts with
  | error e => rfl
  | ok found =>
    cases found with
    | none => rfl
    | some found =>
      simp only
      by_cases hkey : found.2.objectKey = objectKey
      · by_cases hready : found.1.status = .ready
        · simp [hkey, hready]
        · simp [hkey, hready]
      · simp [hkey]

theorem stageOrResume_answer (hfree : CollisionFree hashes)
    (h : Tidy hashes deployment catalog db) (h' : Tidy hashes deployment catalog db')
    {recipe : GeneratorProcessingRecipe} (now : Timestamp) (artifact : GeneratorArtifactStage)
    (file : GeneratorArtifactFile)
    (hset : SameSet (generatorArtifactSetHash hashes.generator (preparedOf hashes.recipes recipe)
      artifact.outputKind artifact.format) db.artifacts db'.artifacts)
    (hrecipe : SameRecipe (hashes.recipes.processingHash recipe) db.recipes db'.recipes)
    (hfile : InDirectory (generatorArtifactSetHash hashes.generator (preparedOf hashes.recipes recipe)
      artifact.outputKind artifact.format) file.objectKey) :
    (∃ e d d', stageOrResumeGeneratorArtifact hashes.generator now
          (preparedOf hashes.recipes recipe) artifact [file] db = (.error e, d) ∧
        stageOrResumeGeneratorArtifact hashes.generator now (preparedOf hashes.recipes recipe)
          artifact [file] db' = (.error e, d')) ∨
      ∃ state d d', stageOrResumeGeneratorArtifact hashes.generator now
          (preparedOf hashes.recipes recipe) artifact [file] db = (.ok state, d) ∧
        stageOrResumeGeneratorArtifact hashes.generator now (preparedOf hashes.recipes recipe)
          artifact [file] db' = (.ok state, d') ∧
        SameSet (generatorArtifactSetHash hashes.generator (preparedOf hashes.recipes recipe)
          artifact.outputKind artifact.format) d.artifacts d'.artifacts ∧
        SameRecipe (hashes.recipes.processingHash recipe) d.recipes d'.recipes := by
  have hocc : ∀ {d : Database}, Tidy hashes deployment catalog d →
      ∀ a ∈ d.recipes.occurrences.rows, ∀ o ∈ occurrenceRows (preparedOf hashes.recipes recipe),
        Schema.clash a o → a.processingHash = hashes.recipes.processingHash recipe := by
    intro d hd a ha o ho hclash
    obtain ⟨horder, hname⟩ := hd.occurrences a ha
    obtain ⟨hown, order, hname'⟩ := namedOccurrence_of_prepared ho
    rcases hclash with hid | ⟨hproc, -⟩
    · rw [hname, hname'] at hid
      have := hfree.occurrenceIdentity hid
      simp only [OccurrenceIdentityPayload.mk.injEq] at this
      exact this.1.trans hown
    · exact hproc.trans hown
  have hclash : ∀ {d : Database}, Tidy hashes deployment catalog d → ∀ a ∈ d.artifacts.files.rows,
      Schema.clash a (file.row (generatorArtifactSetHash hashes.generator
        (preparedOf hashes.recipes recipe) artifact.outputKind artifact.format)) →
      a.artifactSetHash = generatorArtifactSetHash hashes.generator
        (preparedOf hashes.recipes recipe) artifact.outputKind artifact.format :=
    fun hd a ha hc => own_of_clash hfree (hd.files a ha) hfile rfl hc
  unfold stageOrResumeGeneratorArtifact
  cases hsup : (preparedOf hashes.recipes recipe).recipe.compatibilityDecision with
  | unsupported field => exact .inl ⟨_, _, _, rfl, rfl⟩
  | supported =>
    simp only
    split
    · exact .inl ⟨_, _, _, rfl, rfl⟩
    · rcases insertRecipe_answer (preparedOf hashes.recipes recipe) hrecipe (hocc h)
        (hocc h') with ⟨e, he, he'⟩ | ⟨inserted, v, v', hv, hv', hvv⟩
      · rw [he, he']
        exact .inl ⟨_, _, _, rfl, rfl⟩
      · rw [hv, hv']
        simp only
        rcases stageTransaction_answer now file hset hvv (hclash h) (hclash h')
          with ⟨e, he, he'⟩ | ⟨state, t, t', ht, ht', htt⟩
        · rw [he, he']
          exact .inl ⟨_, _, _, rfl, rfl⟩
        · rw [ht, ht']
          exact .inr ⟨_, _, _, rfl, rfl, htt, hvv⟩

/-- A project is published or refused on account of the rows of its set and its recipe. -/
theorem project_answer (hfree : CollisionFree hashes) (h : Tidy hashes deployment catalog db)
    (h' : Tidy hashes deployment catalog db') {times : PublicationTimes}
    {recipe : GeneratorProcessingRecipe} {target : GeneratorPublicationTarget}
    {candidate : MeasuredCandidate}
    (hset : SameSet (generatorArtifactSetHash hashes.generator (preparedOf hashes.recipes recipe)
      target.outputKind target.format) db.artifacts db'.artifacts)
    (hrecipe : SameRecipe (hashes.recipes.processingHash recipe) db.recipes db'.recipes) :
    (publishGeneratorOutput hashes.generator times (preparedOf hashes.recipes recipe) target
        candidate db').1 =
      (publishGeneratorOutput hashes.generator times (preparedOf hashes.recipes recipe) target
        candidate db).1 := by
  cases hvalid : validateTarget (preparedOf hashes.recipes recipe) target with
  | error e => simp only [publishGeneratorOutput, hvalid]
  | ok _ =>
    have hfile : InDirectory (generatorArtifactSetHash hashes.generator
        (preparedOf hashes.recipes recipe) target.outputKind target.format)
        (generatorPublicationObjectKey hashes.generator (preparedOf hashes.recipes recipe) target) :=
      ⟨"artifacts/v2/", target.logicalPath, .inr rfl, rfl⟩
    rcases stageOrResume_answer hfree h h' times.stagedAt
        (stageFor hashes.generator (preparedOf hashes.recipes recipe) target candidate)
        (fileFor hashes.generator (preparedOf hashes.recipes recipe) target candidate)
        hset hrecipe hfile with ⟨e, d, d', he, he'⟩ | ⟨state, d, d', hd, hd', hset', hrecipe'⟩
    · simp only [publishGeneratorOutput, hvalid, he, he']
    · have hown : SameSet (generatorArtifactSetHash hashes.generator
          (preparedOf hashes.recipes recipe) target.outputKind target.format)
          d.artifacts d'.artifacts := hset'
      rw [publishGeneratorOutput_fst _ hvalid hd, publishGeneratorOutput_fst _ hvalid hd',
        complete_answer _ _ _ hown hrecipe']

end Answer

/-! ## The models of a catalog -/

section Models

variable {hashes : Hashes} {deployment : Deployment} {catalog : Catalog} {db db' : Database}

/-- The versions of the two models resolve to one source. -/
def SameSource (deployment : Deployment) (m m' : Model) : Prop :=
  (sourceIdentity deployment.microversion m.onshape).payload =
    (sourceIdentity deployment.microversion m'.onshape).payload

/-- The set that a recipe's project is published as. -/
def projectIdentity (hashes : Hashes) (recipe : GeneratorProcessingRecipe) : ArtifactSetIdentity :=
  generatorArtifactSetIdentity hashes.generator (preparedOf hashes.recipes recipe)
    (slicerProject recipe.compatibility.dialectIdentity) "project_3mf"

/-- A publication leaves alone every set of another output. -/
theorem sameSet_publish (hfree : CollisionFree hashes) (h : Tidy hashes deployment catalog db)
    {p : ModelPublication} {i : ArtifactSetIdentity}
    (hi : outputKey i ≠ outputKey (p.identity hashes deployment)) :
    SameSet (hashes.generator.artifactSetHash i) db.artifacts
      (p.publish hashes deployment db).2.artifacts := by
  have hk : hashes.generator.artifactSetHash i ≠
      hashes.generator.artifactSetHash (p.identity hashes deployment) :=
    fun he => hi (congrArg outputKey (hfree.artifactSetHash he))
  have hrow : ∀ r, db.artifacts.sets.find? (hashes.generator.artifactSetHash i) = some r →
      r.outputKey ≠ outputKey (p.identity hashes deployment) := by
    intro r hr
    obtain ⟨j, hj, hkey, -⟩ := (h.sets r (Table.find?_mem hr)).identity
    have hji : j = i := hfree.artifactSetHash (hj.symm.trans (Table.find?_key hr))
    rw [hkey, hji]
    exact hi
  unfold ModelPublication.publish
  unfold ModelPublication.identity at hk hrow
  split
  · rename_i hwork
    rw [hwork] at hk hrow
    exact sameSet_publishExport hk hrow
  · rename_i hwork
    rw [hwork] at hk hrow
    unfold publishProject
    split
    · exact .refl _ _
    · exact sameSet_publishGeneratorOutput hk hrow

/-- A publication leaves alone every recipe of another output. -/
theorem sameRecipe_publish (hfree : CollisionFree hashes) {p : ModelPublication}
    {recipe : GeneratorProcessingRecipe}
    (hi : outputKey (projectIdentity hashes recipe) ≠ outputKey (p.identity hashes deployment)) :
    SameRecipe (hashes.recipes.processingHash recipe) db.recipes
      (p.publish hashes deployment db).2.recipes := by
  unfold ModelPublication.publish
  split
  · unfold publishExport
    split <;> exact .refl _ _
  · rename_i recipe' requestIdentity configValuesJson candidate hwork
    unfold publishProject
    split
    · exact .refl _ _
    · refine sameRecipe_publishGeneratorOutput fun he => hi ?_
      obtain ⟨hsource, hconfig, hcompat, hsettings, hschema⟩ := hfree.processingHash _ _ he
      simp only [ModelPublication.identity, hwork, projectIdentity, outputKey,
        generatorArtifactSetIdentity, generatorOptionsHash, preparedOf, hsource, hconfig, hcompat,
        hsettings, hschema]

/-- Exports are out of reach even of their own output. -/
theorem export_publication_answer (hfree : CollisionFree hashes)
    (h : Tidy hashes deployment catalog db) (h' : Tidy hashes deployment catalog db')
    {q : ModelPublication} {typedValues : List (String × CanonicalParameterValue)}
    {configValuesJson : String} {output : Output} {produced : Produced}
    (hwork : q.work = .export typedValues configValuesJson output produced) :
    (q.publish hashes deployment db').1 = (q.publish hashes deployment db).1 := by
  simp only [ModelPublication.publish, hwork]
  refine export_answer hfree h' h (i := q.identity hashes deployment) ?_ ?_ rfl
    namedFiles_exportOf
  · simp only [ModelPublication.identity, hwork]
    rfl
  · simp only [ModelPublication.identity, hwork]

/-- What a publication answers depends on the rows of its output alone. -/
theorem publish_answer (hfree : CollisionFree hashes) (h : Tidy hashes deployment catalog db)
    {p q : ModelPublication} (hp : p.model ∈ catalog.models)
    (hq : outputKey (q.identity hashes deployment) ≠ outputKey (p.identity hashes deployment)) :
    (q.publish hashes deployment (p.publish hashes deployment db).2).1 =
      (q.publish hashes deployment db).1 := by
  have h' := tidy_publish hp h
  have hset := sameSet_publish hfree h hq
  cases hwork : q.work with
  | «export» typedValues configValuesJson output produced =>
    exact export_publication_answer hfree h h' hwork
  | project recipe requestIdentity configValuesJson candidate =>
    simp only [ModelPublication.identity, hwork] at hq hset
    have hrecipe : SameRecipe _ db.recipes _ := sameRecipe_publish hfree hq
    generalize (p.publish hashes deployment db).2 = db' at h' hset hrecipe ⊢
    simp only [ModelPublication.publish, hwork, publishProject]
    split
    · rfl
    · exact project_answer hfree h h' hset hrecipe

/-- A project is refused before anything is written unless its recipe is of the model's source. -/
theorem publish_refused {p : ModelPublication} (db : Database)
    (hs : (p.identity hashes deployment).sourceHash ≠ sourceHashOf hashes deployment p.model) :
    p.publish hashes deployment db =
      (.error (.protocol "project recipe does not match its frozen request policy"), db) := by
  unfold ModelPublication.identity at hs
  unfold ModelPublication.publish
  split
  · rename_i hwork
    rw [hwork] at hs
    exact absurd rfl hs
  · rename_i hwork
    rw [hwork] at hs
    exact if_pos hs

theorem sameSource_of_hash (hfree : CollisionFree hashes) {m m' : Model}
    (h : sourceHashOf hashes deployment m = sourceHashOf hashes deployment m') :
    SameSource deployment m m' :=
  hfree.sourceHash h

/-- What the publication `p` leaves of the ready sets and of the publications of another model: all
of it, unless the two publish one output, and then their versions resolve to one source. -/
structure Isolated (hashes : Hashes) (deployment : Deployment) (p q : ModelPublication)
    (db : Database) : Prop where
  sets : ∀ k r, db.artifacts.sets.find? k = some r → r.metadataJson.modelSlug = q.model.slug →
    (p.publish hashes deployment db).2.artifacts.sets.find? k = some r ∨
      r.outputKey = outputKey (p.identity hashes deployment) ∧
        SameSource deployment p.model q.model
  answer : (q.publish hashes deployment (p.publish hashes deployment db).2).1 =
      (q.publish hashes deployment db).1 ∨
    outputKey (q.identity hashes deployment) = outputKey (p.identity hashes deployment) ∧
      SameSource deployment p.model q.model ∧
      ∃ recipe requestIdentity configValuesJson candidate,
        q.work = .project recipe requestIdentity configValuesJson candidate

/-- The models of an accepted catalog are out of each other's reach, however they were published
before, unless their versions resolve to one source. -/
theorem models_isolated (hfree : CollisionFree hashes) (hvalid : catalog.validate = .ok ())
    {publications : List ModelPublication} (hall : ∀ p ∈ publications, p.model ∈ catalog.models)
    {p q : ModelPublication} (hp : p.model ∈ catalog.models) (hq : q.model ∈ catalog.models) :
    Isolated hashes deployment p q (run hashes deployment publications .empty) := by
  have h : Tidy hashes deployment catalog (run hashes deployment publications .empty) :=
    tidy_run hall tidy_empty
  generalize run hashes deployment publications .empty = db at h
  by_cases hpsource : (p.identity hashes deployment).sourceHash = sourceHashOf hashes deployment p.model
  case neg =>
    have hdb : (p.publish hashes deployment db).2 = db :=
      congrArg Prod.snd (publish_refused db hpsource)
    exact ⟨fun k r hr _ => .inl (by rw [hdb]; exact hr), .inl (by rw [hdb])⟩
  constructor
  · intro k r hr hslug
    by_cases hkey : r.outputKey = outputKey (p.identity hashes deployment)
    · obtain ⟨m, hm, hmslug, hmsource⟩ := (h.sets r (Table.find?_mem hr)).model
      have hmq : m = q.model := eq_of_slug_eq hvalid hm hq (hmslug.symm.trans hslug)
      have hsource : r.sourceHash = (p.identity hashes deployment).sourceHash :=
        congrArg OutputKey.sourceHash hkey
      refine .inr ⟨hkey, sameSource_of_hash hfree ?_⟩
      rw [← hpsource, ← hsource, hmsource, hmq]
    · obtain ⟨i, hi, hikey, -⟩ := (h.sets r (Table.find?_mem hr)).identity
      have hk : k = hashes.generator.artifactSetHash i := (Table.find?_key hr).symm.trans hi
      left
      rw [hk] at hr ⊢
      exact (sameSet_publish hfree h (hikey ▸ hkey)).set.trans hr
  · by_cases hkey : outputKey (q.identity hashes deployment) =
        outputKey (p.identity hashes deployment)
    · cases hwork : q.work with
      | «export» typedValues configValuesJson output produced =>
        exact .inl (export_publication_answer hfree h (tidy_publish hp h) hwork)
      | project recipe requestIdentity configValuesJson candidate =>
        by_cases hqsource :
            (q.identity hashes deployment).sourceHash = sourceHashOf hashes deployment q.model
        · refine .inr ⟨hkey, sameSource_of_hash hfree ?_, _, _, _, _, rfl⟩
          rw [← hpsource, ← hqsource]
          exact (congrArg OutputKey.sourceHash hkey).symm
        · left
          rw [publish_refused _ hqsource, publish_refused db hqsource]
    · exact .inl (publish_answer hfree h hp hkey)

end Models

/-! ## Two versions of one microversion -/

def sampleModel (slug documentId versionId : String) : Model where
  catalogSchemaVersion := 1
  entryVersion := 1
  slug := slug
  name := slug
  description := slug
  published := true
  tags := []
  thumbnail := none
  onshape := ⟨documentId, versionId, "e", .assembly, none⟩
  exports := ⟨[.step], .coarse, ⟨.ap242, .coarse, .binary, .coarse⟩, none⟩
  parameterPolicy := ⟨false, false⟩
  parameterPresets := []
  parameterOverrides := []

/-- A catalog of two models of the given sources. -/
def sampleCatalog (source source' : String × String) : Catalog :=
  ⟨1, [sampleModel "a" source.1 source.2, sampleModel "b" source'.1 source'.2]⟩

/-- The download of a sample model, at a clock reading. -/
def sampleDownload (slug documentId versionId : String) (now : Timestamp) : ModelPublication :=
  ⟨sampleModel slug documentId versionId,
   .export [] "{}" (.download .step) ⟨⟨"c", "c"⟩, "raw",
     ⟨"download", slug ++ ".step", none, "model/step", 10, "sha"⟩, []⟩, ⟨now, now, now⟩⟩

def joinSource (p : SourceHashPayload) : String :=
  joinFields [p.documentId, p.microversionId, p.elementId, p.elementKind,
    optionField p.linkDocumentId]

def joinRecipe (r : GeneratorProcessingRecipe) : String :=
  joinFields [r.inputManifest.manifestIdentity, r.inputManifest.sourceIdentity,
    r.inputManifest.configurationIdentity, r.compatibility.dialectIdentity, joinFields r.compatibility.capabilityIdentities,
    r.settingsIdentity, r.settingsSchemaIdentity]

def sampleHashes : Hashes where
  exports :=
    { sourceHash := joinSource
      configHash := fun _ => "config"
      optionsHash := fun format _ _ => format
      requestHash := fun r => (r.pathParams.lookup "vid").getD ""
      postprocessHash := fun i => i.rawPayloadHash }
  recipes :=
    { processingHash := joinRecipe
      occurrenceIdentity := fun o => joinFields [o.processingHash, natField o.occurrenceOrder,
        o.objectIdentity, o.stagedPath]
      recipeJson := joinRecipe }
  generator :=
    { optionsHash := fun format _ _ => format
      artifactSetHash := joinArtifactSet }

/-- Every version resolves to one microversion. -/
def sampleDeployment : Deployment := ⟨"cloud", fun _ _ => "m"⟩

/-- A recipe of a source, told apart by its geometry. -/
def sampleRecipe (sourceHash acquired : String) : GeneratorProcessingRecipe where
  recipeVersion := 1
  deployedGeneratorIdentity := "g"
  compatibility := ⟨"b", []⟩
  compatibilityDecision := .supported
  compatibilityDecisionIdentity := "d"
  inputManifest := ⟨acquired, some acquired, "r", sourceHash, "c", "k", "s",
    [⟨"o", "model", none, ⟨acquired, "i", "h", 10, "t", "k"⟩, "{}", "{}"⟩]⟩
  placements := ["{}"]
  settingsIdentity := "s"
  settingsSchemaIdentity := "s"
  invocation := ⟨"m", ⟨"s", "j", "h", 2, "t", "k"⟩, ⟨"o", "p", "t", 100⟩⟩

/-- The project of a sample model. -/
def sampleProject (slug documentId versionId acquired : String) (now : Timestamp) :
    ModelPublication :=
  let m := sampleModel slug documentId versionId
  ⟨m, .project (sampleRecipe (sourceHashOf sampleHashes sampleDeployment m) acquired) "r" "{}"
    ⟨20, sampleSha256, "{}"⟩, ⟨now, now, now⟩⟩

theorem sampleHashes_collisionFree : CollisionFree sampleHashes where
  sourceHash p p' h := by
    have hl := joinFields_injective h
    simp only [List.cons.injEq, and_true] at hl
    obtain ⟨hd, hm, he, hk, hlink⟩ := hl
    cases p
    cases p'
    simp only [SourceHashPayload.mk.injEq]
    exact ⟨hd, hm, he, hk, optionField_injective hlink⟩
  artifactSetHash := joinArtifactSet_injective
  noSlash i := slash_notMem_joinFields _
  processingHash r r' h := by
    have hl := joinFields_injective h
    simp only [List.cons.injEq, and_true] at hl
    obtain ⟨-, hsource, hconfig, hdialect, hcaps, hsettings, hschema⟩ := hl
    refine ⟨hsource, hconfig, ?_, hsettings, hschema⟩
    have hcaps := joinFields_injective hcaps
    cases hc : r.compatibility
    cases hc' : r'.compatibility
    rw [hc, hc'] at hdialect hcaps
    simp_all
  occurrenceIdentity o o' h := by
    have hl := joinFields_injective h
    simp only [List.cons.injEq, and_true] at hl
    obtain ⟨hp, ho, hobj, hpath⟩ := hl
    cases o
    cases o'
    simp only [OccurrenceIdentityPayload.mk.injEq]
    exact ⟨hp, natField_injective ho, hobj, hpath⟩

/-- The first model's download, published. -/
def downloadRun : Database :=
  run sampleHashes sampleDeployment [sampleDownload "a" "d" "v" 1] .empty

/-- Another document's download leaves the ready one as it is. -/
theorem models_isolated_documents :
    (∃ r ∈ downloadRun.artifacts.sets.rows, r.metadataJson.modelSlug = "a" ∧ r.status = .ready) ∧
      Isolated sampleHashes sampleDeployment (sampleDownload "b" "e" "v" 2)
        (sampleDownload "a" "d" "v" 3) downloadRun := by
  have hvalid : (sampleCatalog ("d", "v") ("e", "v")).validate = .ok () := by decide +kernel
  refine ⟨by decide +kernel, ?_⟩
  exact models_isolated sampleHashes_collisionFree hvalid (by decide) (by decide) (by decide)

/-- What holds of a publication for one model and one for another, after any sequence of
publications for the models of an accepted catalog. -/
def ForOtherModels (P : Hashes → Deployment → Database → ModelPublication → ModelPublication → Prop) :
    Prop :=
  ∀ hashes deployment, CollisionFree hashes → ∀ catalog : Catalog, catalog.validate = .ok () →
    ∀ publications p q, (∀ x ∈ p :: q :: publications, x.model ∈ catalog.models) →
      p.model ≠ q.model → P hashes deployment (run hashes deployment publications .empty) p q

/-- The ready sets of the second publication's model stay ready. -/
def StaysReady (hashes : Hashes) (deployment : Deployment) (db : Database)
    (p q : ModelPublication) : Prop :=
  ∀ k r, db.artifacts.sets.find? k = some r → r.metadataJson.modelSlug = q.model.slug →
    isReady db.artifacts k = true → isReady (p.publish hashes deployment db).2.artifacts k = true

/-- The second publication succeeds after the first one if it succeeds without it. -/
def StillPublishes (hashes : Hashes) (deployment : Deployment) (db : Database)
    (p q : ModelPublication) : Prop :=
  (q.publish hashes deployment db).1 = .ok () →
    (q.publish hashes deployment (p.publish hashes deployment db).2).1 = .ok ()

/-- The first model's project, published. -/
def projectRun : Database :=
  run sampleHashes sampleDeployment [sampleProject "a" "d" "v" "x" 1] .empty

/-- Where two versions resolve to one microversion, a download of one model supersedes that of the
other, and a project of one keeps the project of the other from being published again. -/
theorem version_aliases_interfere :
    ¬ ForOtherModels StaysReady ∧ ¬ ForOtherModels StillPublishes := by
  have hvalid : (sampleCatalog ("d", "v") ("d", "w")).validate = .ok () := by decide +kernel
  constructor
  · intro h
    have hrow : ∃ r ∈ downloadRun.artifacts.sets.rows, r.metadataJson.modelSlug = "a" ∧
        isReady downloadRun.artifacts r.artifactSetHash = true ∧
        isReady ((sampleDownload "b" "d" "w" 2).publish sampleHashes sampleDeployment
          downloadRun).2.artifacts r.artifactSetHash = false := by decide +kernel
    obtain ⟨r, hr, hslug, hbefore, hafter⟩ := hrow
    have hstays : StaysReady sampleHashes sampleDeployment downloadRun
        (sampleDownload "b" "d" "w" 2) (sampleDownload "a" "d" "v" 1) :=
      h _ _ sampleHashes_collisionFree _ hvalid [sampleDownload "a" "d" "v" 1] _ _ (by decide)
        (by decide)
    have hready := hstays r.artifactSetHash r (Table.find?_of_mem hr) hslug hbefore
    rw [hafter] at hready
    cases hready
  · intro h
    have hpublishes : StillPublishes sampleHashes sampleDeployment projectRun
        (sampleProject "b" "d" "w" "y" 2) (sampleProject "a" "d" "v" "x" 1) :=
      h _ _ sampleHashes_collisionFree _ hvalid [sampleProject "a" "d" "v" "x" 1] _ _ (by decide)
        (by decide)
    have hruns : ((sampleProject "a" "d" "v" "x" 1).publish sampleHashes sampleDeployment
          projectRun).1 = .ok () ∧
        ((sampleProject "a" "d" "v" "x" 1).publish sampleHashes sampleDeployment
          ((sampleProject "b" "d" "w" "y" 2).publish sampleHashes sampleDeployment
            projectRun).2).1 ≠ .ok () := by decide +kernel
    exact hruns.2 (hpublishes hruns.1)

end ModelPublications
end OnshapeExport
