import RestForge.Proofs.ModuleTree
import RestForge.Proofs.PathText
import RestForge.Proofs.Reading

/-!
# Where a run writes

A run writes the files of its resources, the module files and the manifest, each by way of a
temporary file beside it.

* `outputPaths`: the components of all those files; `writtenPaths`: every path that writing them
  touches, with the temporary ones.
* `resourceDir_injective`: resources that were read in one run have directories of their own.
* `nodup_outputPaths`, `nodup_writtenPaths`: nothing is written to the same place twice.
* `output_paths_apart`: so it is in every run, and nothing is written outside the directories of the
  categories but the file that declares them and the manifest.
-/

set_option autoImplicit false

namespace RestForge.Run

open Naming Emit Crate Schema
open FileTree (Path.join Path.temporary)
open FileTree.Path (IsName temporaryName temporary_join join_injective)

/-! ## What is written -/

abbrev Named := Resource × TypeNames

/-- The files of a resource; none if they cannot all be written. -/
def artifactPaths (b : Named) : List (List String) :=
  match assemble b.1 b.2 with
  | .ok artifacts => artifacts.map Artifact.path
  | .error _ => []

/-- The module files of a crate; none if a type name cannot stand in them. -/
def layoutPaths (laid : List Named) : List (List String) :=
  match layOut (laid.map fun b => ResourceEntry.ofResource b.1 b.2) with
  | .ok files => files.map ModuleFile.path
  | .error _ => []

def manifestPath : List String := ["Cargo.toml"]

/-- The files of a run that generates one batch of resources and lays out some of them. -/
def outputPaths (batch laid : List Named) : List (List String) :=
  manifestPath :: layoutPaths laid ++ batch.flatMap artifactPaths

/-- The paths that writing files below a root touches. -/
def writtenPaths (root : String) (files : List (List String)) : List String :=
  files.flatMap fun p => [Path.join root p, Path.temporary (Path.join root p)]

/-! ## Names of files -/

def fileNames : List String :=
  "Cargo.toml" :: "lib.rs" :: "mod.rs" :: ArtifactKind.all.map ArtifactKind.fileName

theorem isName_of_dot {name : String} (h : '/' ∉ name.toList) (hlen : 2 < name.toList.length) :
    IsName name := by
  refine ⟨?_, h, ?_, ?_⟩ <;> rintro rfl <;> exact absurd hlen (by decide)

theorem isName_of_mem_fileNames {n : String} (h : n ∈ fileNames) :
    IsName n ∧ IsName (temporaryName n) := by
  have hall : ∀ n ∈ fileNames, ('/' ∉ n.toList ∧ 2 < n.toList.length)
      ∧ '/' ∉ (temporaryName n).toList ∧ 2 < (temporaryName n).toList.length := by decide
  obtain ⟨⟨hslash, hlen⟩, hslash', hlen'⟩ := hall n h
  exact ⟨isName_of_dot hslash hlen, isName_of_dot hslash' hlen'⟩

theorem temporaryName_notMem {n : String} (h : n ∈ fileNames) : temporaryName n ∉ fileNames := by
  have hall : ∀ n ∈ fileNames, temporaryName n ∉ fileNames := by decide
  exact hall n h

theorem temporaryName_injective {n m : String} (hn : n ∈ fileNames) (hm : m ∈ fileNames)
    (h : temporaryName n = temporaryName m) : n = m := by
  have hall : ∀ n ∈ fileNames, ∀ m ∈ fileNames, temporaryName n = temporaryName m → n = m := by
    decide
  exact hall n hn m hm h

theorem isName_of_codeName {name : String} (h : CodeName name) : IsName name := by
  refine ⟨h.ne_empty, h.notMem (by decide), ?_, ?_⟩
  · rintro rfl
    exact h.notMem (c := '.') (by decide) (by decide)
  · rintro rfl
    exact h.notMem (c := '.') (by decide) (by decide)

/-! ## Files and their temporary files -/

def InPlace (p : List String) : Prop :=
  ∃ dir name, p = dir ++ [name] ∧ (∀ d ∈ dir, IsName d) ∧ name ∈ fileNames

theorem join_concat_injective {root : String} {dir dir' : List String} {name name' : String}
    (hdir : ∀ d ∈ dir, IsName d) (hdir' : ∀ d ∈ dir', IsName d) (hname : IsName name)
    (hname' : IsName name')
    (h : Path.join root (dir ++ [name]) = Path.join root (dir' ++ [name'])) :
    dir = dir' ∧ name = name' := by
  have hall : ∀ {dir : List String} {name : String}, (∀ d ∈ dir, IsName d) → IsName name →
      ∀ d ∈ dir ++ [name], IsName d := by
    intro dir name hdir hname d hd
    obtain hd | hd := List.mem_append.mp hd
    · exact hdir d hd
    · rw [List.mem_singleton.mp hd]
      exact hname
  have he := join_injective root (by simp) (by simp) (hall hdir hname) (hall hdir' hname') h
  obtain ⟨hd, hn⟩ := List.append_inj' he rfl
  exact ⟨hd, List.head_eq_of_cons_eq hn⟩

/-- Files at different components, and the temporary files beside them, are all at different
paths. -/
theorem nodup_writtenPaths (root : String) {files : List (List String)} (hnodup : files.Nodup)
    (hplace : ∀ p ∈ files, InPlace p) : (writtenPaths root files).Nodup := by
  refine List.nodup_flatMap.mpr ⟨fun p hp => ?_, hnodup.imp_of_mem fun {p q} hp hq hne => ?_⟩
  · obtain ⟨dir, name, rfl, hdir, hname⟩ := hplace p hp
    obtain ⟨hfile, htemp⟩ := isName_of_mem_fileNames hname
    rw [temporary_join root dir hfile, List.nodup_cons]
    refine ⟨fun hmem => ?_, List.nodup_singleton _⟩
    obtain ⟨-, he⟩ := join_concat_injective hdir hdir hfile htemp (List.mem_singleton.mp hmem)
    exact temporaryName_notMem hname (he ▸ hname)
  · obtain ⟨dir, name, rfl, hdir, hname⟩ := hplace p hp
    obtain ⟨dir', name', rfl, hdir', hname'⟩ := hplace q hq
    obtain ⟨hfile, htemp⟩ := isName_of_mem_fileNames hname
    obtain ⟨hfile', htemp'⟩ := isName_of_mem_fileNames hname'
    intro path hpath hpath'
    simp only [temporary_join root dir hfile, List.mem_cons, List.not_mem_nil, or_false] at hpath
    simp only [temporary_join root dir' hfile', List.mem_cons, List.not_mem_nil, or_false] at hpath'
    obtain rfl | rfl := hpath <;> obtain he | he := hpath'
    · obtain ⟨rfl, rfl⟩ := join_concat_injective hdir hdir' hfile hfile' he
      exact hne rfl
    · obtain ⟨-, rfl⟩ := join_concat_injective hdir hdir' hfile htemp' he
      exact temporaryName_notMem hname' hname
    · obtain ⟨-, rfl⟩ := join_concat_injective hdir hdir' htemp hfile' he
      exact temporaryName_notMem hname hname'
    · obtain ⟨rfl, hsame⟩ := join_concat_injective hdir hdir' htemp htemp' he
      exact hne (by rw [temporaryName_injective hname hname' hsame])

/-! ## The files of a resource -/

theorem artifact_path {r : Resource} {names : TypeNames} {k : ArtifactKind} {a : Artifact}
    (h : artifact r names k = .ok a) : a.path = resourceDir r ++ [k.fileName] := by
  obtain ⟨file, -, hpure⟩ := except_bind_ok h
  cases hpure
  rfl

theorem mapM_artifact_paths {r : Resource} {names : TypeNames} {kinds : List ArtifactKind}
    {artifacts : List Artifact} (h : kinds.mapM (artifact r names) = .ok artifacts) :
    artifacts.map Artifact.path = kinds.map fun k => resourceDir r ++ [k.fileName] := by
  induction kinds generalizing artifacts with
  | nil =>
    cases h
    rfl
  | cons k kinds ih =>
    rw [List.mapM_cons] at h
    obtain ⟨a, ha, hrest⟩ := except_bind_ok h
    obtain ⟨as, has, hpure⟩ := except_bind_ok hrest
    cases hpure
    rw [List.map_cons, List.map_cons, ih has, artifact_path ha]

theorem artifactPaths_sublist (b : Named) :
    (artifactPaths b).Sublist (ArtifactKind.all.map fun k => resourceDir b.1 ++ [k.fileName]) := by
  rw [artifactPaths]
  split
  · rename_i artifacts h
    rw [mapM_artifact_paths h]
  · exact List.nil_sublist _

theorem nodup_artifactPaths (b : Named) : (artifactPaths b).Nodup := by
  refine (artifactPaths_sublist b).nodup (List.Nodup.map (fun k k' h => ?_) (by decide))
  have hname := List.head_eq_of_cons_eq (List.append_inj' h rfl).2
  have hall : ∀ k k' : ArtifactKind, k.fileName = k'.fileName → k = k' := by
    intro k k'
    cases k <;> cases k' <;> decide
  exact hall k k' hname

theorem mem_artifactPaths {b : Named} {p : List String} (h : p ∈ artifactPaths b) :
    ∃ k : ArtifactKind, p = resourceDir b.1 ++ [k.fileName] := by
  obtain ⟨k, -, rfl⟩ := List.mem_map.mp ((artifactPaths_sublist b).subset h)
  exact ⟨k, rfl⟩

/-! ## The files of a run -/

/-- Directories that a run writes to: the root, the directory of all sources, and what lies below
the directory of a category along code names. -/
def IsSourceDir (dir : List String) : Prop :=
  dir = [] ∨ dir = ["src"] ∨
    ∃ (c : Category) (mods : List String), dir = "src" :: c.text :: mods ∧ ∀ m ∈ mods, CodeName m

theorem isName_of_isSourceDir {dir : List String} (h : IsSourceDir dir) :
    ∀ d ∈ dir, IsName d := by
  have hsrc : IsName "src" := isName_of_dot (by decide) (by decide)
  have htext : ∀ c : Category, IsName c.text := by
    intro c
    cases c <;> exact isName_of_dot (by decide) (by decide)
  obtain rfl | rfl | ⟨c, mods, rfl, hmods⟩ := h
  · simp
  · simpa using hsrc
  · intro d hd
    obtain rfl | rfl | hd := by simpa using hd
    · exact hsrc
    · exact htext c
    · exact isName_of_codeName (hmods d hd)

def IsSourceFile (p : List String) : Prop :=
  ∃ dir name, p = dir ++ [name] ∧ IsSourceDir dir ∧ name ∈ fileNames

theorem IsSourceFile.inPlace {p : List String} (h : IsSourceFile p) : InPlace p := by
  obtain ⟨dir, name, he, hdir, hname⟩ := h
  exact ⟨dir, name, he, isName_of_isSourceDir hdir, hname⟩

def IsSpelled (b : Named) : Prop := ∀ m ∈ b.1.modules, CodeName m

theorem isSourceDir_resourceDir {b : Named} (h : IsSpelled b) : IsSourceDir (resourceDir b.1) :=
  .inr (.inr ⟨b.1.category, b.1.modules, rfl, h⟩)

theorem isSourceFile_artifact {b : Named} (h : IsSpelled b) {p : List String}
    (hp : p ∈ artifactPaths b) : IsSourceFile p := by
  obtain ⟨k, rfl⟩ := mem_artifactPaths hp
  refine ⟨_, _, rfl, isSourceDir_resourceDir h, ?_⟩
  cases k <;> decide

theorem isSpelled_entry {b : Named} (h : IsSpelled b) :
    (ResourceEntry.ofResource b.1 b.2).IsSpelled := by
  intro s hs
  have hzip : ∀ s ∈ List.zipWith Segment.mk b.1.modules b.1.segments, s.module ∈ b.1.modules := by
    generalize b.1.modules = modules
    generalize b.1.segments = segments
    induction modules generalizing segments with
    | nil => simp
    | cons m modules ih =>
      cases segments with
      | nil => simp
      | cons w segments =>
        intro s hs
        obtain rfl | hs := List.mem_cons.mp hs
        · simp
        · exact List.mem_cons_of_mem _ (ih segments s hs)
  exact h _ (hzip s hs)

theorem layoutPaths_eq (laid : List Named) : layoutPaths laid = [] ∨ layoutPaths laid =
    (moduleFiles (laid.map fun b => ResourceEntry.ofResource b.1 b.2)).map ModuleFile.path := by
  rw [layoutPaths]
  split
  · rename_i files h
    obtain ⟨u, -, hpure⟩ := except_bind_ok h
    cases hpure
    exact .inr rfl
  · exact .inl rfl

section Laid

variable {laid : List Named} (hlaid : ∀ b ∈ laid, IsSpelled b)

include hlaid

theorem entries_spelled :
    ∀ e ∈ laid.map (fun b => ResourceEntry.ofResource b.1 b.2), e.IsSpelled := by
  intro e he
  obtain ⟨b, hb, rfl⟩ := List.mem_map.mp he
  exact isSpelled_entry (hlaid b hb)

theorem nodup_layoutPaths : (layoutPaths laid).Nodup := by
  obtain h | h := layoutPaths_eq laid
  · rw [h]
    exact List.nodup_nil
  · rw [h]
    exact nodup_moduleFiles (entries_spelled hlaid)

theorem mem_layoutPaths {p : List String} (hp : p ∈ layoutPaths laid) :
    p = ["src", "lib.rs"] ∨ ∃ (c : Category) (mods : List String),
      p = "src" :: c.text :: mods ++ ["mod.rs"] ∧ ∀ m ∈ mods, CodeName m := by
  obtain h | h := layoutPaths_eq laid
  · rw [h] at hp
    cases hp
  · rw [h] at hp
    obtain ⟨f, hf, rfl⟩ := List.mem_map.mp hp
    obtain htop | ⟨c, mods, he, hmods⟩ := placed_of_mem_moduleFiles (entries_spelled hlaid) hf
    · exact .inl htop
    · exact .inr ⟨c, mods, by simpa using he, hmods⟩

theorem isSourceFile_layout {p : List String} (hp : p ∈ layoutPaths laid) : IsSourceFile p := by
  obtain rfl | ⟨c, mods, rfl, hmods⟩ := mem_layoutPaths hlaid hp
  · exact ⟨["src"], "lib.rs", rfl, .inr (.inl rfl), by decide⟩
  · exact ⟨"src" :: c.text :: mods, "mod.rs", rfl, .inr (.inr ⟨c, mods, rfl, hmods⟩), by decide⟩

end Laid

/-- Resources in directories of their own share no file, neither with each other nor with the module
files and the manifest. -/
theorem nodup_outputPaths {batch laid : List Named} (hlaid : ∀ b ∈ laid, IsSpelled b)
    (hapart : batch.Pairwise fun a b => resourceDir a.1 ≠ resourceDir b.1) :
    (outputPaths batch laid).Nodup := by
  have hnames : ∀ k : ArtifactKind, k.fileName ≠ "lib.rs" ∧ k.fileName ≠ "mod.rs" := by
    intro k
    cases k <;> decide
  -- resources differ in the directory, all other files in the last component
  have hartifacts : (batch.flatMap artifactPaths).Nodup := by
    refine List.nodup_flatMap.mpr ⟨fun b _ => nodup_artifactPaths b, hapart.imp ?_⟩
    intro a b hne p hpa hpb
    obtain ⟨k, rfl⟩ := mem_artifactPaths hpa
    obtain ⟨k', he⟩ := mem_artifactPaths hpb
    exact hne (List.append_inj' he rfl).1
  have hlayout : ∀ p ∈ layoutPaths laid, p ∉ batch.flatMap artifactPaths := by
    intro p hp hmem
    obtain ⟨b, -, hb⟩ := List.mem_flatMap.mp hmem
    obtain ⟨k, rfl⟩ := mem_artifactPaths hb
    obtain ⟨hlib, hmod⟩ := hnames k
    obtain he | ⟨c, mods, he, -⟩ := mem_layoutPaths hlaid hp
    · have hlast := congrArg List.getLast? he
      rw [List.getLast?_concat] at hlast
      exact hlib (Option.some.inj hlast)
    · exact hmod (List.head_eq_of_cons_eq (List.append_inj' he rfl).2)
  rw [outputPaths, List.cons_append, List.nodup_cons]
  refine ⟨fun hmem => ?_, List.nodup_append.mpr ⟨nodup_layoutPaths hlaid, hartifacts, ?_⟩⟩
  · obtain hmem | hmem := List.mem_append.mp hmem
    · obtain he | ⟨c, mods, he, -⟩ := mem_layoutPaths hlaid hmem
      · exact absurd he (by decide)
      · have hsrc : "Cargo.toml" = "src" := List.head_eq_of_cons_eq he
        exact absurd hsrc (by decide)
    · obtain ⟨b, -, hb⟩ := List.mem_flatMap.mp hmem
      obtain ⟨k, he⟩ := mem_artifactPaths hb
      have hsrc : "Cargo.toml" = "src" := List.head_eq_of_cons_eq he
      exact absurd hsrc (by decide)
  · intro p hp q hq he
    exact hlayout p hp (he ▸ hq)

theorem isSourceFile_of_mem_outputPaths {batch laid : List Named}
    (hbatch : ∀ b ∈ batch, IsSpelled b) (hlaid : ∀ b ∈ laid, IsSpelled b) {p : List String}
    (hp : p ∈ outputPaths batch laid) : IsSourceFile p := by
  rw [outputPaths, List.cons_append, List.mem_cons, List.mem_append] at hp
  obtain rfl | hp | hp := hp
  · exact ⟨[], "Cargo.toml", rfl, .inl rfl, by decide⟩
  · exact isSourceFile_layout hlaid hp
  · obtain ⟨b, hb, hp⟩ := List.mem_flatMap.mp hp
    exact isSourceFile_artifact (hbatch b hb) hp

theorem mem_writtenPaths {root : String} {files : List (List String)}
    (hfiles : ∀ p ∈ files, IsSourceFile p) {path : String} (h : path ∈ writtenPaths root files) :
    ∃ dir name, path = Path.join root (dir ++ [name]) ∧ IsSourceDir dir ∧ IsName name := by
  obtain ⟨p, hp, hpath⟩ := List.mem_flatMap.mp h
  obtain ⟨dir, name, rfl, hdir, hname⟩ := hfiles p hp
  obtain ⟨hfile, htemp⟩ := isName_of_mem_fileNames hname
  rw [temporary_join root dir hfile] at hpath
  obtain rfl | rfl := by simpa using hpath
  · exact ⟨dir, name, rfl, hdir, hfile⟩
  · exact ⟨dir, temporaryName name, rfl, hdir, htemp⟩

/-! ## Resources that were read -/

/-- What tells two resources apart on the wire. -/
def address (r : Resource) : Category × String := (r.category, r.wirePath)

theorem spelled_of_mem_resourcesRead {steps : List NamingStep} {r : Resource}
    (h : r ∈ resourcesRead steps) : ∀ m ∈ r.modules, CodeName m := by
  have hplaced := placed_of_mem_resourcesRead h
  rw [hplaced.spelled (sound_tableFrom_empty steps)]
  intro m hm
  obtain ⟨w, -, rfl⟩ := List.mem_map.mp hm
  exact codeName_identifier _ w

/-- The last table of names places both resources, whenever they were read. -/
theorem segments_of_resourceDir {steps : List NamingStep} {r r' : Resource}
    (h : r ∈ resourcesRead steps) (h' : r' ∈ resourcesRead steps)
    (he : resourceDir r = resourceDir r') : r.category = r'.category ∧ r.segments = r'.segments := by
  simp only [resourceDir, List.cons.injEq, true_and] at he
  obtain ⟨htext, hmodules⟩ := he
  have hcategory := text_injective htext
  have hplaced := placed_of_mem_resourcesRead h
  have hplaced' := placed_of_mem_resourcesRead h'
  rw [← hmodules, ← hcategory] at hplaced'
  exact ⟨hcategory, hplaced.segments_unique (sound_tableFrom_empty steps).twoWay hplaced'⟩

theorem resourceDir_injective {steps : List NamingStep} {r r' : Resource}
    (h : r ∈ resourcesRead steps) (h' : r' ∈ resourcesRead steps)
    (he : resourceDir r = resourceDir r') : address r = address r' := by
  obtain ⟨hcategory, hsegments⟩ := segments_of_resourceDir h h' he
  rw [address, address, hcategory, Resource.wirePath, Resource.wirePath, hsegments]

/-- **The files of a run are apart and in their places.** Documents are read in any order with one
table of names, and type names are resolved in between. Resources of different categories or wire
paths get different directories, made of code names only. When a batch of them is generated below any
root and any of them are laid out, no two files are written to the same path, temporary files
included, and all of them lie in the root, in the directory of all sources, or below the directory of
a category along code names. -/
theorem output_paths_apart (steps : List NamingStep) :
    (∀ r ∈ resourcesRead steps, ∀ r' ∈ resourcesRead steps,
      address r ≠ address r' → resourceDir r ≠ resourceDir r')
    ∧ (∀ r ∈ resourcesRead steps, ∀ names, ∀ p ∈ artifactPaths (r, names), ∃ k : ArtifactKind,
      p = "src" :: r.category.text :: r.modules ++ [k.fileName] ∧ ∀ m ∈ r.modules, CodeName m)
    ∧ ∀ (root : String) (batch laid : List Named),
      (∀ b ∈ batch, b.1 ∈ resourcesRead steps) → (∀ b ∈ laid, b.1 ∈ resourcesRead steps) →
      (batch.Pairwise fun a b => address a.1 ≠ address b.1) →
      (writtenPaths root (outputPaths batch laid)).Nodup
      ∧ ∀ path ∈ writtenPaths root (outputPaths batch laid), ∃ dir name,
        path = Path.join root (dir ++ [name]) ∧ IsSourceDir dir ∧ IsName name := by
  have hspelled : ∀ {batch : List Named}, (∀ b ∈ batch, b.1 ∈ resourcesRead steps) →
      ∀ b ∈ batch, IsSpelled b :=
    fun hbatch b hb => spelled_of_mem_resourcesRead (hbatch b hb)
  refine ⟨fun r h r' h' hne he => ?_, fun r h names p hp => ?_,
    fun root batch laid hbatch hlaid hapart => ?_⟩
  · exact hne (resourceDir_injective h h' he)
  · obtain ⟨k, he⟩ := mem_artifactPaths hp
    exact ⟨k, he, spelled_of_mem_resourcesRead h⟩
  · have hdirs : batch.Pairwise fun a b => resourceDir a.1 ≠ resourceDir b.1 :=
      hapart.imp_of_mem fun {a b} ha hb hne he =>
        hne (resourceDir_injective (hbatch a ha) (hbatch b hb) he)
    have hfiles : ∀ p ∈ outputPaths batch laid, IsSourceFile p :=
      fun p hp => isSourceFile_of_mem_outputPaths (hspelled hbatch) (hspelled hlaid) hp
    have hnodup := nodup_outputPaths (hspelled hlaid) hdirs
    exact ⟨nodup_writtenPaths root hnodup fun p hp => (hfiles p hp).inPlace,
      fun path hpath => mem_writtenPaths hfiles hpath⟩

end RestForge.Run
