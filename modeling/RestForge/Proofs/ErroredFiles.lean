import RestForge.Proofs.Isolation
import RestForge.Proofs.WrittenFiles

/-!
# What a resource that failed leaves

A run writes the files of one resource after another, in the order of the schema files, and then the
module files and the manifest.

* `ready_apart`: the resources of a run have directories of their own.
* `Partly`: what a failure to write a resource leaves of its files.
* `Ran`: generation as a chain of changes, one for each resource; `generateAll_ran`: so it is.
* `Ended`: a resource of a run and its result in the report.
* `errored_resources_exact`: a resource that failed before it was written leaves nothing, and one that
  failed while it was written leaves the files before the one that failed.
-/

set_option autoImplicit false

namespace RestForge.Run

open Naming Emit Schema
open Crate (ResourceEntry text_injective)
open FileTree (WriteFailure OnWay placeOf replaceFile)
open FileTree.Path (temporaryName join)

/-! ## The resources of a run -/

theorem readDottedPath_of_readResource {limit : Nat} {doc : Json} {r : Resource} {t t' : NameTable}
    (h : readResource limit doc t = (.ok r, t')) : readDottedPath doc = .ok r.dottedPath := by
  unfold readResource at h
  obtain ⟨members, hmembers, h⟩ := lift_bind_ok h
  obtain ⟨header, hheader, h⟩ := lift_bind_ok h
  obtain ⟨modules, t₁, -, h⟩ := bind_ok h
  obtain ⟨help, -, h⟩ := lift_bind_ok h
  obtain ⟨items, -, h⟩ := lift_bind_ok h
  obtain ⟨⟨fields, children⟩, t₂, -, h⟩ := bind_ok h
  obtain ⟨mkey, -, h⟩ := lift_bind_ok h
  obtain ⟨u, -, h⟩ := lift_bind_ok h
  obtain ⟨rfl, -⟩ := pure_ok h
  rw [readDottedPath, hmembers]
  show (readHeader members >>= fun header => Except.ok header.dottedPath) = _
  rw [hheader]
  rfl

/-- In one table of names, resources with one directory have one dotted path. -/
theorem dottedPath_of_resourceDir {t : NameTable} (ht : t.TwoWay) {r r' : Resource}
    (h : Placed t r.category.text r.segments r.modules)
    (h' : Placed t r'.category.text r'.segments r'.modules)
    (he : resourceDir r = resourceDir r') : r.dottedPath = r'.dottedPath := by
  simp only [resourceDir, List.cons.injEq, true_and] at he
  obtain ⟨htext, hmodules⟩ := he
  have hcategory := text_injective htext
  rw [← hmodules, ← hcategory] at h'
  rw [Resource.dottedPath, Resource.dottedPath, hcategory, h.segments_unique ht h']

theorem headed_ok {tree : FileTree} {file : SchemaFile} {dotted : String} {doc : Json}
    (h : headed tree file = .ok (dotted, doc)) : readDottedPath doc = .ok dotted := by
  unfold headed at h
  split at h
  · cases h
  · split at h
    · cases h
    · split at h
      · cases h
      · rename_i hdotted
        cases h
        exact hdotted

section Reading

variable {maxDepth : Nat} {tree : FileTree} {files : List SchemaFile} {claims : Claims}
  {t : NameTable}

/-- A file that was read was the first to claim its dotted path. -/
theorem readFile_ready (ht : t.Sound) {file : SchemaFile} {r : Resource}
    (h : (readFile maxDepth tree file claims t).1 = .ready r) :
    Placed (readFile maxDepth tree file claims t).2.2 r.category.text r.segments r.modules
      ∧ claims.lookup r.dottedPath = none
      ∧ (readFile maxDepth tree file claims t).2.1.lookup r.dottedPath = some file.path := by
  rw [readFile_eq] at h ⊢
  rcases hheaded : headed tree file with outcome | ⟨dotted, doc⟩ <;> rw [hheaded] at h
  · cases h
  · dsimp only at h ⊢
    cases hlookup : claims.lookup dotted with
    | some first =>
      rw [hlookup] at h
      cases h
    | none =>
      rw [hlookup] at h
      dsimp only at h ⊢
      rw [readClaimed_fst] at h
      rw [readClaimed_snd]
      rcases hread : readResource maxDepth doc t with ⟨e | r', t'⟩ <;> rw [hread] at h <;> cases h
      have hdotted := (headed_ok hheaded).symm.trans (readDottedPath_of_readResource hread)
      cases hdotted
      exact ⟨(readResource_ok ht hread).1, hlookup, by simp⟩

theorem readFile_claims_none {file : SchemaFile} {d : String}
    (h : (readFile maxDepth tree file claims t).2.1.lookup d = none) : claims.lookup d = none := by
  rw [readFile_eq] at h
  rcases hheaded : headed tree file with outcome | ⟨dotted, doc⟩ <;> rw [hheaded] at h
  · exact h
  · dsimp only at h
    cases hlookup : claims.lookup dotted with
    | some first =>
      rw [hlookup] at h
      exact h
    | none =>
      rw [hlookup] at h
      dsimp only at h
      rw [List.lookup_cons] at h
      split at h
      · cases h
      · exact h

theorem readAll_ready (ht : t.Sound) {file : SchemaFile} {r : Resource}
    (h : (file, .ready r) ∈ (readAll maxDepth tree files claims t).1) :
    Placed (readAll maxDepth tree files claims t).2 r.category.text r.segments r.modules
      ∧ claims.lookup r.dottedPath = none := by
  induction files generalizing claims t with
  | nil => cases h
  | cons first files ih =>
    have ht' := (readFile_keeps maxDepth tree first claims ht).2
    rw [readAll_cons] at h ⊢
    obtain he | h := List.mem_cons.mp h
    · obtain ⟨hplaced, hfree, -⟩ := readFile_ready ht (congrArg Prod.snd he).symm
      exact ⟨hplaced.extend (readAll_keeps _ _ ht').1, hfree⟩
    · obtain ⟨hplaced, hfree⟩ := ih ht' h
      exact ⟨hplaced, readFile_claims_none hfree⟩

/-- No two of the resources that were read write to one directory. -/
def DirsApart (prepared : List (SchemaFile × Prepared)) : Prop :=
  prepared.Pairwise fun x y => ∀ r r', x.2 = .ready r → y.2 = .ready r' →
    resourceDir r ≠ resourceDir r'

theorem readAll_dirsApart (ht : t.Sound) : DirsApart (readAll maxDepth tree files claims t).1 := by
  induction files generalizing claims t with
  | nil => exact List.Pairwise.nil
  | cons first files ih =>
    obtain ⟨-, ht'⟩ := readFile_keeps maxDepth tree first claims ht
    rw [readAll_cons]
    refine List.pairwise_cons.mpr ⟨fun y hy r r' hr hr' he => ?_, ih ht'⟩
    obtain ⟨hplaced, -, hclaimed⟩ := readFile_ready ht hr
    obtain ⟨file, prepared⟩ := y
    cases hr'
    obtain ⟨hplaced', hfree⟩ := readAll_ready ht' hy
    obtain ⟨hext, hsound⟩ : NameTable.Extends (readFile maxDepth tree first claims t).2.2
        (readAll maxDepth tree files (readFile maxDepth tree first claims t).2.1
          (readFile maxDepth tree first claims t).2.2).2 ∧ _ := readAll_keeps files _ ht'
    rw [← dottedPath_of_resourceDir hsound.twoWay (hplaced.extend hext) hplaced' he, hclaimed]
      at hfree
    cases hfree

/-- The modules of a resource that was read are code names. -/
theorem readAll_spelled (ht : t.Sound) {file : SchemaFile} {r : Resource}
    (h : (file, .ready r) ∈ (readAll maxDepth tree files claims t).1) :
    IsSourceDir (resourceDir r) := by
  have hplaced := (readAll_ready ht h).1
  refine .inr (.inr ⟨r.category, r.modules, rfl, ?_⟩)
  rw [hplaced.spelled (readAll_keeps files claims ht).2]
  intro m hm
  obtain ⟨w, -, rfl⟩ := List.mem_map.mp hm
  exact codeName_identifier _ w

end Reading

/-! ## What is written of a resource -/

theorem fileName_mem_fileNames (k : ArtifactKind) : k.fileName ∈ fileNames := by
  cases k <;> decide

theorem hasFileName_concat (dir : List String) (k : ArtifactKind) :
    HasFileName (dir ++ [k.fileName]) := ⟨dir, _, rfl, fileName_mem_fileNames k⟩

/-- The files of a resource are reached by the run: all of them, or all up to a failure. -/
def Outcome.isWritten : Outcome → Bool
  | .generated _ _ => true
  | .errored _ (.write _) => true
  | _ => false

/-- The files that a resource in a directory has, and their temporary files, are as they were. -/
def UntouchedDir (root : String) (dir : List String) (t t' : FileTree) : Prop :=
  ∀ k : ArtifactKind, Untouched root (dir ++ [k.fileName]) t t'

theorem untouchedDir_of_kept {root : String} {dir : List String} {written : List String → Prop}
    {t t' : FileTree} (h : Kept root written t t')
    (hwritten : ∀ (k : ArtifactKind) q, Pair (dir ++ [k.fileName]) q → ¬written q) :
    UntouchedDir root dir t t' :=
  fun k => h.untouched (hasFileName_concat dir k) (hwritten k)

theorem pair_apart_dirs {dir dir' : List String} (hne : dir ≠ dir') {k k' : ArtifactKind}
    {q : List String} (hq : Pair (dir ++ [k.fileName]) q) : ¬Pair (dir' ++ [k'.fileName]) q :=
  pair_apart (hasFileName_concat dir k) (hasFileName_concat dir' k')
    (fun he => hne (List.append_inj' he rfl).1) hq

/-- What is left of a resource that could not be written: the files before the one that failed are
replaced, that one is not, and those after it are as they were. -/
def Partly (root : String) (r : Resource) (f : WriteFailure) (t t' : FileTree) : Prop :=
  ∃ names before k after, ArtifactKind.all = before ++ k :: after
    ∧ (∀ j ∈ before, ∃ a, artifact r names j = .ok a ∧ Replaced root a.path a.contents t')
    ∧ (∃ a, artifact r names k = .ok a ∧ Unreplaced root a.path a.contents f t t')
    ∧ ∀ j ∈ after, Untouched root (resourceDir r ++ [j.fileName]) t t'

theorem Unreplaced.later {root : String} {p : List String} {text : String} {f : WriteFailure}
    {t t' t'' : FileTree} (h : Unreplaced root p text f t t') (hsame : Untouched root p t' t'') :
    Unreplaced root p text f t t'' := by
  refine ⟨(hsame p (.inl rfl)).trans h.target, ?_⟩
  cases h.temporary with
  | unmoved failed holds => exact .unmoved failed ((hsame _ (.inr rfl)).trans holds)
  | torn failed part holds => exact .torn failed part ((hsame _ (.inr rfl)).trans holds)
  | same failed kept => exact .same failed ((hsame _ (.inr rfl)).trans kept)

theorem Partly.extend {root : String} {r : Resource} {f : WriteFailure} {t t₁ t₂ t' : FileTree}
    (h : Partly root r f t₁ t₂) (hbefore : UntouchedDir root (resourceDir r) t t₁)
    (hafter : UntouchedDir root (resourceDir r) t₂ t') : Partly root r f t t' := by
  obtain ⟨names, before, k, after, hall, hdone, ⟨a, ha, hfailed⟩, hrest⟩ := h
  refine ⟨names, before, k, after, hall, fun j hj => ?_, ⟨a, ha, ?_⟩, fun j hj => ?_⟩
  · obtain ⟨b, hb, hreplaced⟩ := hdone j hj
    refine ⟨b, hb, hreplaced.later ?_⟩
    rw [artifact_path hb]
    exact hafter j
  · have hpath := artifact_path ha
    rw [hpath] at hfailed ⊢
    exact (hfailed.earlier (hbefore k)).later (hafter k)
  · exact ((hbefore j).trans (hrest j hj)).trans (hafter j)

theorem mapM_artifact_kinds {r : Resource} {names : TypeNames} {kinds : List ArtifactKind}
    {artifacts : List Artifact} (h : kinds.mapM (artifact r names) = .ok artifacts) :
    artifacts.map Artifact.kind = kinds ∧ ∀ a ∈ artifacts, artifact r names a.kind = .ok a := by
  induction kinds generalizing artifacts with
  | nil =>
    cases h
    exact ⟨rfl, fun a ha => (List.not_mem_nil ha).elim⟩
  | cons k kinds ih =>
    rw [List.mapM_cons] at h
    obtain ⟨a, ha, hrest⟩ := except_bind_ok h
    obtain ⟨as, has, hpure⟩ := except_bind_ok hrest
    cases hpure
    obtain ⟨hkinds, hall⟩ := ih has
    have hkind : a.kind = k := by
      obtain ⟨file, -, hpure⟩ := except_bind_ok ha
      cases hpure
      rfl
    refine ⟨by rw [List.map_cons, hkinds, hkind], fun b hb => ?_⟩
    obtain rfl | hb := List.mem_cons.mp hb
    · rw [hkind, ha]
    · exact hall b hb

/-- What the generation of one resource does to the files. -/
structure Handled (root : String) (r : Resource) (outcome : Outcome) (entry : Option ResourceEntry)
    (t t' : FileTree) : Prop where
  entry : entry = none ∨ ∃ names, entry = some (.ofResource r names)
  kept : Kept root (fun q => outcome.isWritten = true
    ∧ ∃ k : ArtifactKind, Pair (resourceDir r ++ [k.fileName]) q) t t'
  failed : ∀ d f, outcome = .errored d (.write f) → Partly root r f t t'

theorem writeArtifacts_apply {config : Config} (hdry : ¬config.dryRun = true)
    (artifacts : List Artifact) (t : FileTree) : writeArtifacts config artifacts t
      = match writeFiles config.outputRoot (artifacts.map fun a => (a.path, a.contents)) t with
        | (.ok (), t') => (.ok (artifacts.map fun a => join config.outputRoot a.path), t')
        | (.error f, t') => (.error f, t') := by
  rw [writeArtifacts, if_neg hdry, FileTree.bind_apply]
  generalize writeFiles config.outputRoot (artifacts.map fun a => (a.path, a.contents)) t = result
  rcases result with ⟨_ | _, t'⟩ <;> rfl

section Generate

variable {config : Config} {t : FileTree} {r : Resource} (hplain : PlainOutput t config.outputRoot)
  (hdir : IsSourceDir (resourceDir r))

include hplain hdir

theorem writeFiles_handled {names : TypeNames} {artifacts : List Artifact}
    (hassembled : assemble r names = .ok artifacts) :
    Kept config.outputRoot (fun q => ∃ k : ArtifactKind, Pair (resourceDir r ++ [k.fileName]) q) t
      (writeFiles config.outputRoot (artifacts.map fun a => (a.path, a.contents)) t).2
    ∧ ∀ f t', writeFiles config.outputRoot (artifacts.map fun a => (a.path, a.contents)) t
      = (.error f, t') → Partly config.outputRoot r f t t' := by
  obtain ⟨hkinds, hall⟩ := mapM_artifact_kinds hassembled
  have hpath : ∀ a ∈ artifacts, a.path = resourceDir r ++ [a.kind.fileName] := fun a ha =>
    artifact_path (hall a ha)
  have hfiles : ∀ x ∈ artifacts.map (fun a => (a.path, a.contents)), IsSourceFile x.1 := by
    intro x hx
    obtain ⟨a, ha, rfl⟩ := List.mem_map.mp hx
    exact ⟨_, _, hpath a ha, hdir, fileName_mem_fileNames _⟩
  have hnodup : ((artifacts.map fun a => (a.path, a.contents)).map Prod.fst).Nodup := by
    have hpaths : (artifacts.map fun a => (a.path, a.contents)).map Prod.fst
        = artifactPaths (r, names) := by
      rw [artifactPaths, hassembled, List.map_map]
      rfl
    rw [hpaths]
    exact nodup_artifactPaths (r, names)
  refine ⟨(writeFiles_kept hplain hfiles).mono ?_, fun f t' h => ?_⟩
  · rintro q ⟨x, hx, hq⟩
    obtain ⟨a, ha, rfl⟩ := List.mem_map.mp hx
    exact ⟨a.kind, hpath a ha ▸ hq⟩
  · obtain ⟨before, x, after, he, hbefore, hx, hafter⟩ := writeFiles_stopped hplain hfiles hnodup h
    obtain ⟨as, bs, rfl, rfl, hbs⟩ := List.map_eq_append_iff.mp he
    obtain ⟨a, bs, rfl, rfl, rfl⟩ := List.map_eq_cons_iff.mp hbs
    rw [List.map_append, List.map_cons] at hkinds
    refine ⟨names, as.map Artifact.kind, a.kind, bs.map Artifact.kind, hkinds.symm, fun j hj => ?_,
      ⟨a, hall a (by simp), hx⟩, fun j hj => ?_⟩
    · obtain ⟨b, hb, rfl⟩ := List.mem_map.mp hj
      exact ⟨b, hall b (by simp [hb]), hbefore _ (List.mem_map.mpr ⟨b, hb, rfl⟩)⟩
    · obtain ⟨b, hb, rfl⟩ := List.mem_map.mp hj
      rw [← hpath b (by simp [hb])]
      exact hafter _ (List.mem_map.mpr ⟨b, hb, rfl⟩)

theorem generateOne_handled {u u' : NameTable} {w w' : World} (hw : w.tree = t) {outcome : Outcome}
    {entry : Option ResourceEntry}
    (h : generateOne config r u w = (.ok ((outcome, entry), u'), w')) :
    Handled config.outputRoot r outcome entry t w'.tree := by
  subst hw
  rcases hresolve : resolve r u with ⟨c | names, u₁⟩
  · have hcollided : generateOne config r u w
        = (.ok ((.errored (some r.dottedPath) (.collision c), none), u₁), w) := by
      unfold generateOne
      simp only [hresolve]
      rfl
    cases hcollided.symm.trans h
    exact ⟨.inl rfl, .refl _, fun d f he => by cases he⟩
  · rw [generateOne_eq hresolve] at h
    cases hassembled : assemble r names with
    | error e =>
      rw [hassembled] at h
      cases h
    | ok artifacts =>
      rw [hassembled] at h
      obtain ⟨hkept, hstopped⟩ := writeFiles_handled hplain hdir hassembled
      by_cases hdry : config.dryRun = true
      · unfold writeResource writeArtifacts at h
        simp only [hdry, if_true] at h
        cases h
        exact ⟨.inr ⟨names, rfl⟩, .refl _, fun d f he => by cases he⟩
      · dsimp only [writeResource] at h
        rw [writeArtifacts_apply hdry] at h
        rcases hrun : writeFiles config.outputRoot (artifacts.map fun a => (a.path, a.contents))
          w.tree with ⟨f | u, t'⟩ <;> rw [hrun] at h hkept <;> cases h
        · refine ⟨.inl rfl, hkept.mono fun q hq => ⟨rfl, hq⟩, fun d g he => ?_⟩
          cases he
          exact hstopped f t' hrun
        · exact ⟨.inr ⟨names, rfl⟩, hkept.mono fun q hq => ⟨rfl, hq⟩, fun d g he => by cases he⟩

end Generate

/-! ## All resources -/

abbrev Results := List (FileResult × Option ResourceEntry)

/-- Generation is a chain of changes, one for each resource that was read. -/
inductive Ran (root : String) :
    List (SchemaFile × Prepared) → Results → FileTree → FileTree → Prop where
  | nil (t : FileTree) : Ran root [] [] t t
  | done {file : SchemaFile} {outcome : Outcome} {rest : List (SchemaFile × Prepared)}
      {results : Results} {t t' : FileTree} (later : Ran root rest results t t') :
      Ran root ((file, .done outcome) :: rest) ((⟨file, outcome⟩, none) :: results) t t'
  | ready {file : SchemaFile} {r : Resource} {outcome : Outcome} {entry : Option ResourceEntry}
      {rest : List (SchemaFile × Prepared)} {results : Results} {t t₁ t' : FileTree}
      (handled : Handled root r outcome entry t t₁) (later : Ran root rest results t₁ t') :
      Ran root ((file, .ready r) :: rest) ((⟨file, outcome⟩, entry) :: results) t t'

/-- The directories of the resources that were read are made of code names. -/
def DirsSpelled (prepared : List (SchemaFile × Prepared)) : Prop :=
  ∀ file r, (file, .ready r) ∈ prepared → IsSourceDir (resourceDir r)

theorem DirsSpelled.tail {x : SchemaFile × Prepared} {rest : List (SchemaFile × Prepared)}
    (h : DirsSpelled (x :: rest)) : DirsSpelled rest :=
  fun file r hr => h file r (List.mem_cons_of_mem _ hr)

theorem generateAll_ran {config : Config} {prepared : List (SchemaFile × Prepared)}
    (hdirs : DirsSpelled prepared) {u : NameTable} {w w' : World} {results : Results}
    (hplain : PlainOutput w.tree config.outputRoot)
    (h : generateAll config prepared u w = (.ok results, w')) :
    Ran config.outputRoot prepared results w.tree w'.tree := by
  induction prepared generalizing u w results with
  | nil =>
    cases h
    exact .nil _
  | cons x rest ih =>
    obtain ⟨file, outcome | r⟩ := x
    · rw [generateAll, running_bind] at h
      rcases hrest : generateAll config rest u w with ⟨e | others, w₁⟩ <;> rw [hrest] at h <;> cases h
      exact .done (ih hdirs.tail hplain hrest)
    · rw [generateAll, running_bind] at h
      rcases hone : generateOne config r u w with ⟨e | ⟨⟨outcome, entry⟩, u₁⟩, w₁⟩ <;>
        rw [hone] at h
      · cases h
      · have hhandled := generateOne_handled hplain (hdirs file r List.mem_cons_self) rfl hone
        dsimp only at h
        rw [running_bind] at h
        rcases hrest : generateAll config rest u₁ w₁ with ⟨e | others, w₂⟩ <;> rw [hrest] at h <;>
          cases h
        exact .ready hhandled (ih hdirs.tail (hhandled.kept.plain hplain) hrest)

section Ran

variable {root : String} {prepared : List (SchemaFile × Prepared)} {results : Results}
  {t t' : FileTree}

/-- A resource that was read, with its result. -/
def EndedIn (prepared : List (SchemaFile × Prepared)) (results : List FileResult) (r : Resource)
    (outcome : Outcome) : Prop :=
  ∃ file, ((file, .ready r), ⟨file, outcome⟩) ∈ prepared.zip results

/-- Only the files of resources that were reached change. -/
theorem Ran.kept (h : Ran root prepared results t t') :
    Kept root (fun q => ∃ r outcome, EndedIn prepared (results.map Prod.fst) r outcome
      ∧ outcome.isWritten = true ∧ ∃ k : ArtifactKind, Pair (resourceDir r ++ [k.fileName]) q)
      t t' := by
  induction h with
  | nil t => exact .refl t
  | done later ih =>
    refine ih.mono fun q hq => ?_
    obtain ⟨r, outcome, ⟨file, hmem⟩, hq⟩ := hq
    exact ⟨r, outcome, ⟨file, List.mem_cons_of_mem _ hmem⟩, hq⟩
  | @ready file r outcome entry rest results t t₁ t' handled later ih =>
    refine (handled.kept.mono fun q hq => ?_).trans (ih.mono fun q hq => ?_)
    · exact ⟨r, outcome, ⟨file, List.mem_cons_self⟩, hq⟩
    · obtain ⟨r', outcome', ⟨file', hmem⟩, hq⟩ := hq
      exact ⟨r', outcome', ⟨file', List.mem_cons_of_mem _ hmem⟩, hq⟩

/-- What is written of a resource is not undone by the resources after it. -/
theorem Ran.partly (h : Ran root prepared results t t') (hapart : DirsApart prepared) {r : Resource}
    {d : Option String} {f : WriteFailure}
    (hended : EndedIn prepared (results.map Prod.fst) r (.errored d (.write f))) :
    Partly root r f t t' := by
  induction h with
  | nil t =>
    obtain ⟨file, hmem⟩ := hended
    cases hmem
  | done later ih =>
    obtain ⟨file, hmem⟩ := hended
    obtain he | hmem := List.mem_cons.mp hmem
    · cases he
    · exact ih hapart.of_cons ⟨file, hmem⟩
  | @ready first r' outcome entry rest results t t₁ t' handled later ih =>
    have hothers : ∀ r₂ outcome₂, EndedIn rest (results.map Prod.fst) r₂ outcome₂ →
        resourceDir r' ≠ resourceDir r₂ := by
      rintro r₂ outcome₂ ⟨file, hmem⟩
      exact (List.pairwise_cons.mp hapart).1 _ (List.of_mem_zip hmem).1 r' r₂ rfl rfl
    obtain ⟨file, hmem⟩ := hended
    obtain he | hmem := List.mem_cons.mp hmem
    · cases he
      refine (handled.failed d f rfl).extend (fun k q _ => rfl)
        (untouchedDir_of_kept later.kept fun k q hq => ?_)
      rintro ⟨r₂, outcome₂, hended₂, -, k', hq'⟩
      exact pair_apart_dirs (hothers r₂ outcome₂ hended₂) hq hq'
    · refine (ih hapart.of_cons ⟨file, hmem⟩).extend
        (untouchedDir_of_kept handled.kept fun k q hq => ?_) fun k q _ => rfl
      rintro ⟨-, k', hq'⟩
      exact pair_apart_dirs (Ne.symm (hothers r _ ⟨file, hmem⟩)) hq hq'

theorem isSpelled_of_isSourceDir {r : Resource} (h : IsSourceDir (resourceDir r))
    (names : TypeNames) : IsSpelled (r, names) := by
  obtain he | he | ⟨c, mods, he, hmods⟩ := h
  · cases he
  · cases he
  · obtain ⟨-, rfl⟩ := List.cons.inj (List.cons.inj he).2
    exact hmods

theorem Ran.entries (h : Ran root prepared results t t') (hdirs : DirsSpelled prepared) :
    ∃ laid : List Named, (∀ b ∈ laid, IsSpelled b)
      ∧ results.filterMap Prod.snd = laid.map fun b => .ofResource b.1 b.2 := by
  induction h with
  | nil t => exact ⟨[], by simp, rfl⟩
  | done later ih => exact ih hdirs.tail
  | @ready file r outcome entry rest results t t₁ t' handled later ih =>
    obtain ⟨laid, hlaid, he⟩ := ih hdirs.tail
    obtain rfl | ⟨names, rfl⟩ := handled.entry
    · exact ⟨laid, hlaid, he⟩
    · refine ⟨(r, names) :: laid, fun b hb => ?_, ?_⟩
      · obtain rfl | hb := List.mem_cons.mp hb
        · exact isSpelled_of_isSourceDir (hdirs file r List.mem_cons_self) names
        · exact hlaid b hb
      · exact congrArg (ResourceEntry.ofResource r names :: ·) he

end Ran

/-! ## Module files and manifest -/

/-- A file that is written for no resource. -/
def IsLayoutFile (p : List String) : Prop :=
  IsSourceFile p ∧ ∀ dir (k : ArtifactKind), p ≠ dir ++ [k.fileName]

theorem isLayoutFile_concat {dir : List String} {name : String} (hdir : IsSourceDir dir)
    (hname : name ∈ ["Cargo.toml", "lib.rs", "mod.rs"]) : IsLayoutFile (dir ++ [name]) := by
  have hnames : ∀ n ∈ ["Cargo.toml", "lib.rs", "mod.rs"], n ∈ fileNames
      ∧ ∀ k ∈ ArtifactKind.all, n ≠ k.fileName := by decide
  refine ⟨⟨dir, name, rfl, hdir, (hnames name hname).1⟩, fun dir' k he => ?_⟩
  exact (hnames name hname).2 k (by cases k <;> decide)
    (List.head_eq_of_cons_eq (List.append_inj' he rfl).2)

theorem writing_apply (act : FileTree.Writing Unit) (w : World) : writing act w
    = match act w.tree with
      | (.ok (), tree) => (.ok (), { w with tree })
      | (.error f, tree) => (.error (.write f), { w with tree }) := rfl

theorem writeFiles_untouched {root : String} {files : List (List String × String)}
    (hfiles : ∀ x ∈ files, IsLayoutFile x.1) {t : FileTree} (hplain : PlainOutput t root) :
    PlainOutput (writeFiles root files t).2 root
      ∧ ∀ dir, UntouchedDir root dir t (writeFiles root files t).2 := by
  have hkept := writeFiles_kept hplain fun x hx => (hfiles x hx).1
  refine ⟨hkept.plain hplain, fun dir => untouchedDir_of_kept hkept fun k q hq => ?_⟩
  rintro ⟨x, hx, hq'⟩
  exact pair_apart (hasFileName_concat dir k) (hasFileName_of_isSourceFile (hfiles x hx).1)
    (Ne.symm ((hfiles x hx).2 dir k)) hq hq'

theorem isLayoutFile_of_mem {laid : List Named} (hlaid : ∀ b ∈ laid, IsSpelled b) {p : List String}
    (hp : p ∈ layoutPaths laid) : IsLayoutFile p := by
  have htop : IsLayoutFile (["src"] ++ ["lib.rs"]) :=
    isLayoutFile_concat (.inr (.inl rfl)) (by decide)
  obtain rfl | ⟨c, mods, rfl, hmods⟩ := mem_layoutPaths hlaid hp
  · exact htop
  · exact isLayoutFile_concat (.inr (.inr ⟨c, mods, rfl, hmods⟩)) (by decide)

theorem writeLayout_untouched {config : Config} {laid : List Named}
    (hlaid : ∀ b ∈ laid, IsSpelled b) {w w' : World} (hplain : PlainOutput w.tree config.outputRoot)
    (h : writeLayout config (laid.map fun b => .ofResource b.1 b.2) w = (.ok (), w'))
    (dir : List String) : UntouchedDir config.outputRoot dir w.tree w'.tree := by
  unfold writeLayout at h
  rw [running_bind] at h
  cases hlayout : Crate.layOut (laid.map fun b => ResourceEntry.ofResource b.1 b.2) with
  | error n =>
    rw [hlayout] at h
    cases h
  | ok files =>
    rw [hlayout, lift_ok] at h
    dsimp only at h
    by_cases hdry : config.dryRun = true
    · rw [if_pos hdry] at h
      cases h
      exact fun k q _ => rfl
    · have hfiles : ∀ x ∈ files.map (fun f => (f.path, f.contents)), IsLayoutFile x.1 := by
        intro x hx
        obtain ⟨f, hf, rfl⟩ := List.mem_map.mp hx
        refine isLayoutFile_of_mem hlaid ?_
        rw [layoutPaths, hlayout]
        exact List.mem_map.mpr ⟨f, hf, rfl⟩
      have hmanifest : ∀ x ∈ [(["Cargo.toml"], manifest config)], IsLayoutFile x.1 := by
        intro x hx
        obtain rfl := List.mem_singleton.mp hx
        have hroot : IsLayoutFile ([] ++ ["Cargo.toml"]) :=
          isLayoutFile_concat (.inl rfl) (by decide)
        exact hroot
      obtain ⟨hplain₁, hfirst⟩ := writeFiles_untouched hfiles hplain
      obtain ⟨-, hsecond⟩ := writeFiles_untouched hmanifest hplain₁
      rw [if_neg hdry, running_bind, writing_apply] at h
      rcases hrun : writeFiles config.outputRoot (files.map fun f => (f.path, f.contents)) w.tree
        with ⟨f | u, t₁⟩ <;> rw [hrun] at h hfirst hsecond
      · cases h
      · dsimp only at h hfirst hsecond
        rw [writing_apply] at h
        dsimp only at h
        rcases hrun' : writeFiles config.outputRoot [(["Cargo.toml"], manifest config)] t₁
          with ⟨f | u, t₂⟩ <;> rw [hrun'] at h hsecond <;> cases h
        exact fun k => (hfirst dir k).trans (hsecond dir k)

theorem writeLayout_of_writeFiles {config : Config} (hdry : ¬config.dryRun = true)
    {entries : List ResourceEntry} {files : List Crate.ModuleFile}
    (hlayout : Crate.layOut entries = .ok files) {t t₁ t₂ : FileTree} {shown : String}
    (hfiles : writeFiles config.outputRoot (files.map fun f => (f.path, f.contents)) t = (.ok (), t₁))
    (hmanifest : writeFiles config.outputRoot [(["Cargo.toml"], manifest config)] t₁
      = (.ok (), t₂)) : writeLayout config entries ⟨t, shown⟩ = (.ok (), ⟨t₂, shown⟩) := by
  unfold writeLayout
  rw [running_bind, hlayout, lift_ok]
  dsimp only
  rw [if_neg hdry, running_bind, writing_apply]
  dsimp only
  rw [hfiles]
  dsimp only
  rw [writing_apply]
  dsimp only
  rw [hmanifest]

/-! ## Whole runs -/

theorem generate_ok_iff {config : Config} (hclean : config.clean = false) {w w' : World}
    {report : Report} : generate config w = (.ok report, w')
      ↔ ∃ files results w₁, findFiles config w.tree = .ok files
        ∧ generateAll config (readAll config.maxDepth w.tree files [] .empty).1
            (readAll config.maxDepth w.tree files [] .empty).2 w = (.ok results, w₁)
        ∧ writeLayout config (results.filterMap Prod.snd) w₁ = (.ok (), w')
        ∧ report = .ofResults (results.map Prod.fst) := by
  have hget : (get : Running World) w = (.ok w, w) := rfl
  have hkeep : ¬(config.clean && !config.dryRun) = true := by simp [hclean]
  unfold generate
  rw [running_bind, hget]
  dsimp only
  rw [running_bind]
  cases hfiles : findFiles config w.tree with
  | error flaw =>
    refine ⟨fun h => ?_, fun ⟨files, _, _, hfound, _⟩ => ?_⟩
    · cases h
    · cases hfound
  | ok files =>
    rw [lift_ok]
    dsimp only
    rw [if_neg hkeep, running_bind, hget]
    dsimp only
    rw [running_bind]
    constructor
    · intro h
      rcases hall : generateAll config (readAll config.maxDepth w.tree files [] .empty).1
        (readAll config.maxDepth w.tree files [] .empty).2 w with ⟨e | results, w₁⟩ <;>
        rw [hall] at h
      · cases h
      · dsimp only at h
        rw [running_bind] at h
        rcases hlayout : writeLayout config (results.filterMap Prod.snd) w₁ with ⟨e | u, w₂⟩ <;>
          rw [hlayout] at h <;> cases h
        exact ⟨files, results, w₁, rfl, hall, hlayout, rfl⟩
    · rintro ⟨files', results, w₁, hfound, hall, hlayout, rfl⟩
      cases hfound
      rw [hall]
      dsimp only
      rw [running_bind, hlayout]
      rfl

theorem EndedIn.unique {prepared : List (SchemaFile × Prepared)} (hapart : DirsApart prepared)
    {results : List FileResult} {r r' : Resource} {outcome outcome' : Outcome}
    (h : EndedIn prepared results r outcome) (h' : EndedIn prepared results r' outcome')
    (he : resourceDir r = resourceDir r') : outcome = outcome' := by
  obtain ⟨file, hmem⟩ := h
  obtain ⟨file', hmem'⟩ := h'
  induction prepared generalizing results with
  | nil => cases hmem
  | cons x prepared ih =>
    cases results with
    | nil => cases hmem
    | cons result results =>
      have hhead := (List.pairwise_cons.mp hapart).1
      rw [List.zip_cons_cons] at hmem hmem'
      obtain hx | hlater := List.mem_cons.mp hmem <;>
        obtain hx' | hlater' := List.mem_cons.mp hmem'
      · cases hx.trans hx'.symm
        rfl
      · cases hx
        exact absurd he (hhead (file', .ready r') (List.of_mem_zip hlater').1 r r' rfl rfl)
      · cases hx'
        exact absurd he.symm (hhead (file, .ready r) (List.of_mem_zip hlater).1 r' r rfl rfl)
      · exact ih hapart.of_cons hlater hlater'

/-- A resource that a run could read, and what the report says became of it. -/
def Ended (config : Config) (tree : FileTree) (report : Report) (r : Resource) (outcome : Outcome) :
    Prop :=
  ∃ files, findFiles config tree = .ok files
    ∧ EndedIn (readAll config.maxDepth tree files [] .empty).1 report.results r outcome

/-- **What a resource that failed leaves.** A run that does not clean up first and ends with a report
changes, creates and removes no file of a resource in a directory where nothing was written; so it is
for a resource that was read and then failed before it was written, and for whatever directory a file
has that could not be read. But files are written one by one. A resource that failed to be written
leaves those before the one that failed replaced, and those after it as they were. The one that failed
stays as it was; its temporary file holds the new text if the move to its place failed, or some of the
first bytes of it if writing stopped half-way, and is else as it was. -/
theorem errored_resources_exact {config : Config} (hclean : config.clean = false) {w w' : World}
    (hplain : PlainOutput w.tree config.outputRoot) {report : Report}
    (hrun : generate config w = (.ok report, w')) :
    (∀ dir, (∀ r outcome, Ended config w.tree report r outcome → outcome.isWritten = true →
        resourceDir r ≠ dir) → UntouchedDir config.outputRoot dir w.tree w'.tree)
    ∧ (∀ r outcome, Ended config w.tree report r outcome → outcome.isWritten = false →
        UntouchedDir config.outputRoot (resourceDir r) w.tree w'.tree)
    ∧ ∀ r d f, Ended config w.tree report r (.errored d (.write f)) →
        Partly config.outputRoot r f w.tree w'.tree := by
  obtain ⟨files, results, w₁, hfiles, hall, hlayout, rfl⟩ := (generate_ok_iff hclean).mp hrun
  have hspelled : DirsSpelled (readAll config.maxDepth w.tree files [] .empty).1 :=
    fun file r hr => readAll_spelled NameTable.sound_empty hr
  have hapart : DirsApart (readAll config.maxDepth w.tree files [] .empty).1 :=
    readAll_dirsApart NameTable.sound_empty
  have hran := generateAll_ran hspelled hplain hall
  obtain ⟨laid, hlaid, hentries⟩ := hran.entries hspelled
  rw [hentries] at hlayout
  have hlast := writeLayout_untouched hlaid (hran.kept.plain hplain) hlayout
  have hended : ∀ r outcome, EndedIn (readAll config.maxDepth w.tree files [] .empty).1
      (results.map Prod.fst) r outcome
      ↔ Ended config w.tree (.ofResults (results.map Prod.fst)) r outcome := by
    intro r outcome
    refine ⟨fun h => ⟨files, hfiles, h⟩, fun ⟨files', hfiles', h⟩ => ?_⟩
    cases hfiles.symm.trans hfiles'
    exact h
  have hquiet : ∀ dir, (∀ r outcome, Ended config w.tree (.ofResults (results.map Prod.fst)) r outcome →
      outcome.isWritten = true → resourceDir r ≠ dir) →
      UntouchedDir config.outputRoot dir w.tree w'.tree := by
    intro dir hdir k
    refine (untouchedDir_of_kept hran.kept (fun k q hq => ?_) k).trans (hlast dir k)
    rintro ⟨r, outcome, hr, hwritten, k', hq'⟩
    exact pair_apart_dirs (Ne.symm (hdir r outcome ((hended r outcome).mp hr) hwritten)) hq hq'
  refine ⟨hquiet, fun r outcome hr hunwritten => hquiet _ fun r' outcome' hr' hwritten he => ?_,
    fun r d f hr => ?_⟩
  · have hsame := EndedIn.unique hapart ((hended r' outcome').mpr hr') ((hended r outcome).mpr hr) he
    rw [hsame, hunwritten] at hwritten
    cases hwritten
  · exact (hran.partly hapart ((hended r _).mpr hr)).extend (fun k q _ => rfl) (hlast _)

/-! ## A directory in the place of a temporary file -/

def outConfig : Config := { Config.standard with outputRoot := "out" }

/-- A directory lies where the temporary file of the client is to be written. -/
def blockedTree : FileTree :=
  ⟨[], [(["out"], .directory), (["out", "src"], .directory), (["out", "src", "config"], .directory),
    (["out", "src", "config", "a_b"], .directory),
    (["out", "src", "config", "a_b", "client.tmp"], .directory), (["schemas"], .directory),
    (["schemas", "b.json"], .file underscoreText.toUTF8.data)], []⟩

def blockedFailure : WriteFailure := ⟨"out/src/config/a_b/client.tmp", .isDirectory⟩

def blockedReport : Report :=
  .ofResults [⟨underscoreFile, .errored (some "config.a_b") (.write blockedFailure)⟩]

theorem blocked_schemas : FileTree.LeadsTo "schemas" [] "schemas"
    ∧ FileTree.LeadsTo underscoreFile.path ["schemas"] "b.json" := by decide

/-- The schema files that a run finds where the schemas lie by default. -/
theorem findFiles_schemas {config : Config} (hflaw : config.flaw? = none)
    (hroot : config.schemaRoot = "schemas") {t : FileTree} (hhere : t.workingDirectory = [])
    (hdirectory : t.get? ["schemas"] = some .directory) :
    findFiles config t = .ok (((t.filesBelow ["schemas"]).filter fun names =>
      isSchemaName (names.getLastD "")).map fun names => ⟨join "schemas" names, names⟩) := by
  have hlead : FileTree.LeadsTo "schemas" [] "schemas" := by decide
  have hlocate : t.locate true "schemas" = .ok (.found ["schemas"] .directory) := by
    have hfound : t.locate true "schemas"
        = .ok (.found (t.workingDirectory ++ [] ++ ["schemas"]) .directory) :=
      FileTree.locate_directory hlead (fun n hn => absurd hn (Nat.not_lt_zero n))
        (by rw [hhere]; exact hdirectory)
    rwa [hhere] at hfound
  have hthere : t.directoryAt? "schemas" = some ["schemas"] := by
    rw [FileTree.directoryAt?, FileTree.entryAt?, hlocate]
  refine findFiles_ok_iff.mpr ⟨hflaw, ?_⟩
  rw [discover, hroot, hthere]
  rfl

theorem blockedTree_files : findFiles outConfig blockedTree = .ok [underscoreFile] := by
  rw [findFiles_schemas (by decide) rfl rfl rfl]
  rfl

/-- What is read of the only schema file. -/
theorem readAll_underscoreFile {t : FileTree} {place : FileTree.Place}
    (hlocate : t.locate true underscoreFile.path
      = .ok (.found place (.file underscoreText.toUTF8.data))) (room : Nat) :
    readAll room t [underscoreFile] [] .empty
      = ([(underscoreFile, .ready underscoreResource)], freeTable) := by
  have hload : Schema.load t underscoreFile.path = .ok (.object underscoreMembers) :=
    load_ok hlocate rfl
  have hread : readDottedPath (.object underscoreMembers) = .ok "config.a_b" := rfl
  have hheaded : headed t underscoreFile = .ok ("config.a_b", .object underscoreMembers) := by
    rw [headed, if_neg (by decide), hload]
    dsimp only
    rw [hread]
  have hfile : readFile room t underscoreFile [] .empty
      = (.ready underscoreResource, [("config.a_b", underscoreFile.path)], freeTable) := by
    rw [readFile_eq, hheaded]
    dsimp only [List.lookup]
    rw [readClaimed, underscoreMembers_read]
  rw [readAll_cons, hfile]
  rfl

theorem readAll_blockedTree (room : Nat) : readAll room blockedTree [underscoreFile] [] .empty
    = ([(underscoreFile, .ready underscoreResource)], freeTable) :=
  readAll_underscoreFile (FileTree.locate_file blocked_schemas.2 (by decide) rfl) room

theorem blockedTree_noLink (p : FileTree.Place) (target : String) :
    blockedTree.get? p ≠ some (.link target) :=
  FileTree.noLink_of_entries (by simp [blockedTree]) p target

theorem blockedTree_plain : PlainOutput blockedTree outConfig.outputRoot := by
  have hplace : placeOf [] "out" = ["out"] := by decide
  have hpieces : FileTree.Path.pieces "out" = ["out"] := by decide
  have hstart : FileTree.startOf [] "out" = [] := by decide
  refine ⟨fun p _ => blockedTree_noLink p, fun p _ => blockedTree_noLink _, fun p hp h => ?_⟩
  obtain ⟨before, hbefore, he⟩ : OnWay [] "out" (placeOf [] "out" ++ p) := h
  rw [hplace, hstart] at he
  rw [hpieces] at hbefore
  cases before with
  | nil => cases he
  | cons first rest =>
    obtain ⟨rfl, hrest⟩ := List.cons_prefix_cons.mp hbefore
    rw [List.prefix_nil.mp hrest] at he
    exact hp (List.append_cancel_left (he.trans (by decide : _ = ["out"] ++ [])))

/-- The model is written, and the client fails at its temporary file. -/
theorem writeFiles_blocked (model client : String) (rest : List (List String × String)) :
    writeFiles "out" ((["src", "config", "a_b", "model.rs"], model)
      :: (["src", "config", "a_b", "client.rs"], client) :: rest) blockedTree
    = (.error blockedFailure, putFile blockedTree ["out", "src", "config", "a_b", "model.tmp"]
      ["out", "src", "config", "a_b", "model.rs"] model.toUTF8.data) := by
  have hmodel : FilePath "out/src/config/a_b/model.rs" "out/src/config/a_b" ["out", "src", "config"]
      "a_b" "model.rs" "model.tmp" := ⟨by decide, by decide, by decide, by decide, by decide⟩
  have hclient : FilePath "out/src/config/a_b/client.rs" "out/src/config/a_b"
      ["out", "src", "config"] "a_b" "client.rs" "client.tmp" :=
    ⟨by decide, by decide, by decide, by decide, by decide⟩
  have hdirs : blockedTree.HasDirectories (["out", "src", "config"] ++ ["a_b"]) := by decide
  have hjoin : join "out" ["src", "config", "a_b", "model.rs"] = "out/src/config/a_b/model.rs" := by
    decide
  have hjoin' : join "out" ["src", "config", "a_b", "client.rs"]
      = "out/src/config/a_b/client.rs" := by decide
  have htemporary : FileTree.Path.temporary "out/src/config/a_b/client.rs"
      = blockedFailure.path := by decide
  have hfirst : replaceFile "out/src/config/a_b/model.rs" model blockedTree
      = (.ok (), putFile blockedTree ["out", "src", "config", "a_b", "model.tmp"]
        ["out", "src", "config", "a_b", "model.rs"] model.toUTF8.data) :=
    replaceFile_new hmodel hdirs model rfl rfl (by decide) rfl
  have hdirs' : (putFile blockedTree ["out", "src", "config", "a_b", "model.tmp"]
      ["out", "src", "config", "a_b", "model.rs"] model.toUTF8.data).HasDirectories
        (["out", "src", "config"] ++ ["a_b"]) := hasDirectories_putFile hdirs rfl rfl _
  have hsecond := replaceFile_blocked hclient hdirs' client (putFile_directory rfl rfl _ rfl)
  rw [htemporary] at hsecond
  rw [writeFiles, hjoin, FileTree.bind_apply, hfirst]
  dsimp only
  rw [writeFiles, hjoin', FileTree.bind_apply, hsecond]
  rfl

/-- The tree once the model is written. -/
def blockedModel (model : Array UInt8) : FileTree :=
  putFile blockedTree ["out", "src", "config", "a_b", "model.tmp"]
    ["out", "src", "config", "a_b", "model.rs"] model

/-- The tree once the top module is written, too. -/
def blockedTop (model top : Array UInt8) : FileTree :=
  putFile (blockedModel model) ["out", "src", "lib.tmp"] ["out", "src", "lib.rs"] top

theorem get?_blockedModel {p : FileTree.Place} (model : Array UInt8)
    (hp : p ≠ ["out", "src", "config", "a_b", "model.tmp"])
    (hp' : p ≠ ["out", "src", "config", "a_b", "model.rs"]) :
    (blockedModel model).get? p = blockedTree.get? p := by
  rw [blockedModel, get?_putFile (by decide) (by decide), if_neg hp', if_neg hp]

theorem get?_blockedTop {p : FileTree.Place} (model top : Array UInt8)
    (hp : p ≠ ["out", "src", "lib.tmp"]) (hp' : p ≠ ["out", "src", "lib.rs"]) :
    (blockedTop model top).get? p = (blockedModel model).get? p := by
  rw [blockedTop, get?_putFile (by decide) (by decide), if_neg hp', if_neg hp]

/-- The top module and the manifest are written all the same. -/
theorem writeLayout_blocked (model : Array UInt8) : ∃ top cargo,
    writeLayout outConfig [] ⟨blockedModel model, ""⟩
      = (.ok (), ⟨putFile (blockedTop model top) ["out", "Cargo.tmp"] ["out", "Cargo.toml"] cargo,
        ""⟩) := by
  have htop : FilePath "out/src/lib.rs" "out/src" ["out"] "src" "lib.rs" "lib.tmp" :=
    ⟨by decide, by decide, by decide, by decide, by decide⟩
  have hcargo : FilePath "out/Cargo.toml" "out" [] "out" "Cargo.toml" "Cargo.tmp" :=
    ⟨by decide, by decide, by decide, by decide, by decide⟩
  have hjoin : join "out" ["src", "lib.rs"] = "out/src/lib.rs" := by decide
  have hjoin' : join "out" ["Cargo.toml"] = "out/Cargo.toml" := by decide
  let file : Crate.ModuleFile := ⟨["src", "lib.rs"], Crate.crateFile []⟩
  have hlaid : Crate.layOut [] = .ok [file] := Crate.layOut_nil
  have hdirs : (blockedModel model).HasDirectories ["out", "src"] :=
    hasDirectories_putFile (by decide) rfl rfl model
  have hfree : (blockedModel model).get? ["out", "src", "lib.tmp"] = none :=
    get?_blockedModel model (by decide) (by decide)
  have hfree' : (blockedModel model).get? ["out", "src", "lib.rs"] = none :=
    get?_blockedModel model (by decide) (by decide)
  have hfirst : replaceFile "out/src/lib.rs" file.contents (blockedModel model)
      = (.ok (), blockedTop model file.contents.toUTF8.data) :=
    replaceFile_new htop hdirs file.contents hfree hfree' (by decide) rfl
  have hdirs' : (blockedTop model file.contents.toUTF8.data).HasDirectories ["out"] :=
    hasDirectories_putFile (hasDirectories_putFile (by decide) rfl rfl model) hfree hfree' _
  have hunset : (blockedTop model file.contents.toUTF8.data).get? ["out", "Cargo.tmp"] = none :=
    (get?_blockedTop model _ (by decide) (by decide)).trans
      (get?_blockedModel model (by decide) (by decide))
  have hunset' : (blockedTop model file.contents.toUTF8.data).get? ["out", "Cargo.toml"] = none :=
    (get?_blockedTop model _ (by decide) (by decide)).trans
      (get?_blockedModel model (by decide) (by decide))
  have hsecond := replaceFile_new hcargo hdirs' (manifest outConfig) hunset hunset' (by decide) rfl
  have hfiles : writeFiles "out" [(["src", "lib.rs"], file.contents)] (blockedModel model)
      = (.ok (), blockedTop model file.contents.toUTF8.data) := by
    rw [writeFiles, hjoin, FileTree.bind_apply, hfirst]
    rfl
  have hmanifest : writeFiles "out" [(["Cargo.toml"], manifest outConfig)]
        (blockedTop model file.contents.toUTF8.data)
      = (.ok (), putFile (blockedTop model file.contents.toUTF8.data) ["out", "Cargo.tmp"]
        ["out", "Cargo.toml"] (manifest outConfig).toUTF8.data) := by
    rw [writeFiles, hjoin', FileTree.bind_apply, hsecond]
    rfl
  exact ⟨_, _, writeLayout_of_writeFiles (by decide) hlaid hfiles hmanifest⟩

theorem generateOne_blocked : ∃ t model, generateOne outConfig underscoreResource freeTable
    ⟨blockedTree, ""⟩ = (.ok ((.errored (some "config.a_b") (.write blockedFailure), none), t),
      ⟨blockedModel model, ""⟩) := by
  obtain ⟨t, hresolve⟩ := resolve_underscoreResource
  obtain ⟨artifacts, hassembled⟩ := assemble_underscoreResource
  obtain ⟨hkinds, hall⟩ := mapM_artifact_kinds hassembled
  obtain ⟨a, as, rfl, hmodel, has⟩ := List.map_eq_cons_iff.mp hkinds
  obtain ⟨b, bs, rfl, hclient, -⟩ := List.map_eq_cons_iff.mp has
  have hpath : a.path = ["src", "config", "a_b", "model.rs"] := by
    rw [artifact_path (hall a (by simp)), hmodel]
    rfl
  have hpath' : b.path = ["src", "config", "a_b", "client.rs"] := by
    rw [artifact_path (hall b (by simp)), hclient]
    rfl
  have hwritten : writeArtifacts outConfig (a :: b :: bs) blockedTree
      = (.error blockedFailure, blockedModel a.contents.toUTF8.data) := by
    have hroot : outConfig.outputRoot = "out" := rfl
    rw [writeArtifacts_apply (by decide), List.map_cons, List.map_cons, hpath, hpath', hroot,
      writeFiles_blocked]
    rfl
  refine ⟨t, a.contents.toUTF8.data, ?_⟩
  rw [generateOne_eq hresolve, hassembled]
  dsimp only [writeResource]
  rw [hwritten]
  rfl

/-- The run ends with a report, in which the only resource has errored. -/
theorem run_blockedTree : ∃ model top cargo, generate outConfig ⟨blockedTree, ""⟩
    = (.ok blockedReport,
      ⟨putFile (blockedTop model top) ["out", "Cargo.tmp"] ["out", "Cargo.toml"] cargo, ""⟩) := by
  obtain ⟨t, model, hone⟩ := generateOne_blocked
  obtain ⟨top, cargo, hlayout⟩ := writeLayout_blocked model
  have hall : generateAll outConfig (readAll outConfig.maxDepth blockedTree [underscoreFile] []
      .empty).1 (readAll outConfig.maxDepth blockedTree [underscoreFile] [] .empty).2
        ⟨blockedTree, ""⟩ = (.ok [(⟨underscoreFile, .errored (some "config.a_b")
          (.write blockedFailure)⟩, none)], ⟨blockedModel model, ""⟩) := by
    rw [readAll_blockedTree, generateAll, running_bind, hone]
    rfl
  exact ⟨model, top, cargo,
    (generate_ok_iff rfl).mpr ⟨_, _, _, blockedTree_files, hall, hlayout, rfl⟩⟩

theorem blockedReport_ended : Ended outConfig blockedTree blockedReport underscoreResource
    (.errored (some "config.a_b") (.write blockedFailure)) := by
  refine ⟨_, blockedTree_files, underscoreFile, ?_⟩
  rw [readAll_blockedTree]
  exact List.mem_cons_self

/-- The model was not there before the run, and is there afterwards, although its resource errored
and no resource was generated. -/
theorem errored_resource_leaves_file : outConfig.clean = false
    ∧ ∃ w', generate outConfig ⟨blockedTree, ""⟩ = (.ok blockedReport, w')
      ∧ Ended outConfig blockedTree blockedReport underscoreResource
        (.errored (some "config.a_b") (.write blockedFailure))
      ∧ (∀ x ∈ blockedReport.results, x.outcome.word = "errored")
      ∧ fileAt? blockedTree "out" (resourceDir underscoreResource ++ ["model.rs"]) = none
      ∧ ∃ bytes, fileAt? w'.tree "out" (resourceDir underscoreResource ++ ["model.rs"])
        = some (.file bytes) := by
  obtain ⟨model, top, cargo, hrun⟩ := run_blockedTree
  have hplace : placeOf [] "out" ++ (resourceDir underscoreResource ++ ["model.rs"])
      = ["out", "src", "config", "a_b", "model.rs"] := by decide
  have hmodel : (blockedModel model).get? ["out", "src", "config", "a_b", "model.rs"]
      = some (.file model) :=
    (get?_putFile (by decide) (by decide) _ _).trans (if_pos rfl)
  have hlast : (putFile (blockedTop model top) ["out", "Cargo.tmp"] ["out", "Cargo.toml"] cargo).get?
      ["out", "src", "config", "a_b", "model.rs"] = some (.file model) := by
    rw [get?_putFile (by decide) (by decide), if_neg (by decide), if_neg (by decide),
      get?_blockedTop model top (by decide) (by decide), hmodel]
  refine ⟨rfl, _, hrun, blockedReport_ended, by decide, ?_, model, ?_⟩
  · have hbefore : fileAt? blockedTree "out" (resourceDir underscoreResource ++ ["model.rs"])
        = blockedTree.get? (placeOf [] "out" ++ (resourceDir underscoreResource ++ ["model.rs"])) :=
      rfl
    rw [hbefore, hplace]
    rfl
  · rw [fileAt?]
    have hdirectory : (putFile (blockedTop model top) ["out", "Cargo.tmp"] ["out", "Cargo.toml"]
        cargo).workingDirectory = [] := rfl
    rw [hdirectory, hplace, hlast]

theorem errored_resources_exact_blocked : ∃ w', outConfig.clean = false
    ∧ PlainOutput blockedTree outConfig.outputRoot
    ∧ generate outConfig ⟨blockedTree, ""⟩ = (.ok blockedReport, w')
    ∧ (∀ dir, (∀ r outcome, Ended outConfig blockedTree blockedReport r outcome →
        outcome.isWritten = true → resourceDir r ≠ dir) →
        UntouchedDir outConfig.outputRoot dir blockedTree w'.tree)
    ∧ Partly outConfig.outputRoot underscoreResource blockedFailure blockedTree w'.tree := by
  obtain ⟨model, top, cargo, hrun⟩ := run_blockedTree
  obtain ⟨hquiet, -, hpartly⟩ := errored_resources_exact rfl blockedTree_plain hrun
  exact ⟨_, rfl, blockedTree_plain, hrun, hquiet, hpartly _ _ _ blockedReport_ended⟩

end RestForge.Run
