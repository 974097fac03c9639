import RestForge.Proofs.Directories
import RestForge.Proofs.FileOrder

/-!
# The module tree is closed

A module that is declared without a body is looked for beside the file that declares it: in a file of
its name, or in the module file of a directory of its name. This file says that for the module files
and the artifacts of a run this search finds everything and nothing twice.

* `ModuleFile.declared`, `reexports`, `targets`: the declarations of a module file and where they lead.
* `Closed`: every declaration leads to one file, and every file is led to by one declaration.
* `Settled`: what a run guarantees of a resource that it read, named and generated.
* `mem_declared_iff`: a directory declares the directories in it, and the artifacts if it is that of a
  resource.
* `module_tree_closed`: the statement for every run.
-/

set_option autoImplicit false

namespace RestForge.Crate

open Source Emit Naming

/-! ## Declarations -/

namespace ModuleFile

/-- The modules that are declared without a body. -/
def declared (f : ModuleFile) : List String :=
  f.source.items.filterMap fun
    | .moduleFile _ _ name => some name
    | _ => none

def reexports (f : ModuleFile) : List Path :=
  f.source.items.filterMap fun
    | .reexport p => some p
    | _ => none

/-- The directory of the file, as path components. -/
def dir (f : ModuleFile) : List String := f.path.dropLast

end ModuleFile

/-- Where a module that is declared in a directory may lie. -/
def targets (dir : List String) (name : String) : List (List String) :=
  [dir ++ [name, "mod.rs"], dir ++ [name ++ ".rs"]]

def topPath : List String := ["src", "lib.rs"]

/-- Files that declarations lead to, from the top. -/
inductive Reachable (files : List ModuleFile) (paths : List (List String)) : List String → Prop where
  | top : Reachable files paths topPath
  | declared (f : ModuleFile) (hf : f ∈ files) (hfrom : Reachable files paths f.path) (name : String)
      (hname : name ∈ f.declared) (p : List String) (hp : p ∈ paths) (htarget : p ∈ targets f.dir name) :
      Reachable files paths p

/-- The module files among the files at these paths declare all of them, each once. -/
structure Closed (files : List ModuleFile) (paths : List (List String)) : Prop where
  apart : paths.Nodup
  once : ∀ f ∈ files, f.declared.Nodup
  found : ∀ f ∈ files, ∀ name ∈ f.declared, ∃! p, p ∈ paths ∧ p ∈ targets f.dir name
  artifacts : ∀ f ∈ files, ∀ name ∈ f.declared,
    f.dir ++ [name ++ ".rs"] ∈ paths ↔ ∃ k : ArtifactKind, name = k.moduleName
  declared : ∀ p ∈ paths, p ≠ topPath →
    ∃! f, f ∈ files ∧ f.path ≠ p ∧ ∃ name ∈ f.declared, p ∈ targets f.dir name
  reachable : ∀ p ∈ paths, Reachable files paths p

/-! ## Module files of directories -/

def artifactNames : List String := [ArtifactKind.client, .model, .validators, .tests].map
  ArtifactKind.moduleName

theorem mem_artifactNames_iff {name : String} :
    name ∈ artifactNames ↔ ∃ k : ArtifactKind, name = k.moduleName := by
  constructor
  · intro h
    obtain ⟨k, -, rfl⟩ := List.mem_map.mp h
    exact ⟨k, rfl⟩
  · rintro ⟨k, rfl⟩
    cases k <;> decide

theorem declared_eq {f : ModuleFile} {resource : Option ResourceEntry} {names : List String}
    (h : f.source.items = resource.toList.flatMap resourceItems ++ names.map publicModule) :
    f.declared = (if resource.isSome then artifactNames else []) ++ names := by
  rw [ModuleFile.declared, h]
  cases resource <;>
    simp [resourceItems, publicModule, artifactNames, List.filterMap_map, Function.comp_def,
      List.filterMap_some]

theorem reexports_eq {f : ModuleFile} {resource : Option ResourceEntry} {names : List String}
    (h : f.source.items = resource.toList.flatMap resourceItems ++ names.map publicModule) :
    f.reexports = resource.toList.flatMap fun e =>
      [.rel ["client", e.client], .rel ["model", e.model]] := by
  rw [ModuleFile.reexports, h]
  cases resource <;>
    simp [resourceItems, publicModule, List.filterMap_map, Function.comp_def]

theorem topFile_declared (entries : List ResourceEntry) :
    (topFile entries).declared = (categoryNodes entries).map fun c => c.1.text := by
  simp [topFile, crateFile, ModuleFile.declared, categoryModule, List.filterMap_map,
    Function.comp_def]

theorem topFile_reexports (entries : List ResourceEntry) : (topFile entries).reexports = [] := by
  simp [topFile, crateFile, ModuleFile.reexports, categoryModule, List.filterMap_map,
    Function.comp_def]

end RestForge.Crate

namespace RestForge.Run

open Naming Emit Crate Schema Source

/-! ## Resources of a run -/

/-- What a run guarantees of a resource that it read, named and generated. -/
structure Settled (b : Named) : Prop where
  spelled : ∀ m ∈ b.1.modules, CodeName m ∧ m ∉ artifactNames
  modules : (ResourceEntry.ofResource b.1 b.2).modules = b.1.modules
  written : artifactPaths b = ArtifactKind.all.map fun k => resourceDir b.1 ++ [k.fileName]
  client : b.2.rootClient = b.2.client (.ofResource b.1)
  model : b.2.rootModel = b.2.model (.ofResource b.1)

def entriesOf (batch : List Named) : List ResourceEntry :=
  batch.map fun b => ResourceEntry.ofResource b.1 b.2

/-- A way below the directory of a category that begins the way of one of the resources. -/
def IsWay (batch : List Named) (c : Category) (mods : List String) : Prop :=
  ∃ b ∈ batch, b.1.category = c ∧ mods <+: b.1.modules

def wayPath (c : Category) (mods : List String) : List String := "src" :: c.text :: mods

theorem wayPath_injective {c c' : Category} {mods mods' : List String}
    (h : wayPath c mods = wayPath c' mods') : c = c' ∧ mods = mods' := by
  simp only [wayPath, List.cons.injEq, true_and] at h
  exact ⟨text_injective h.1, h.2⟩

theorem wayPath_concat (c : Category) (mods : List String) (name : String) :
    wayPath c (mods ++ [name]) ++ ["mod.rs"] = wayPath c mods ++ [name, "mod.rs"] := by
  simp [wayPath]

theorem isWay_of_concat {batch : List Named} {c : Category} {mods : List String} {name : String}
    (h : IsWay batch c (mods ++ [name])) : IsWay batch c mods := by
  obtain ⟨b, hb, hc, hbegins⟩ := h
  exact ⟨b, hb, hc, (List.prefix_append mods [name]).trans hbegins⟩

section Batch

variable {batch : List Named} (hbatch : ∀ b ∈ batch, Settled b)

include hbatch

theorem entriesOf_spelled : ∀ e ∈ entriesOf batch, e.IsSpelled :=
  entries_spelled fun b hb m hm => ((hbatch b hb).spelled m hm).1

theorem dirOf_iff {c : Category} {mods : List String} :
    DirOf (entriesOf batch) c mods ↔ IsWay batch c mods := by
  constructor
  · rintro ⟨e, he, hc, hmods⟩
    obtain ⟨b, hb, rfl⟩ := List.mem_map.mp he
    rw [(hbatch b hb).modules] at hmods
    exact ⟨b, hb, hc, hmods⟩
  · rintro ⟨b, hb, hc, hmods⟩
    refine ⟨_, List.mem_map.mpr ⟨b, hb, rfl⟩, hc, ?_⟩
    rwa [(hbatch b hb).modules]

/-- No directory has the name of an artifact, and none is called `mod`. -/
theorem spelled_of_isWay {c : Category} {mods : List String} (h : IsWay batch c mods) {m : String}
    (hm : m ∈ mods) : m ∉ artifactNames ∧ m ≠ "mod" := by
  obtain ⟨b, hb, -, hbegins⟩ := h
  obtain ⟨hname, hartifact⟩ := (hbatch b hb).spelled m (hbegins.subset hm)
  refine ⟨hartifact, ?_⟩
  rintro rfl
  exact hname.free (by decide)

theorem mem_layout_iff {p : List String} :
    p ∈ (moduleFiles (entriesOf batch)).map ModuleFile.path ↔
      p = topPath ∨ ∃ c mods, IsWay batch c mods ∧ p = wayPath c mods ++ ["mod.rs"] := by
  have hspelled := entriesOf_spelled hbatch
  constructor
  · intro hp
    obtain ⟨f, hf, rfl⟩ := List.mem_map.mp hp
    obtain rfl | ⟨c, mods, hdir, hf⟩ := describes_of_mem_moduleFiles hspelled hf
    · exact .inl rfl
    · exact .inr ⟨c, mods, (dirOf_iff hbatch).mp hdir, hf.path⟩
  · rintro (rfl | ⟨c, mods, hway, rfl⟩)
    · exact List.mem_map.mpr ⟨_, mem_moduleFiles_iff.mpr (.inl rfl), rfl⟩
    · obtain ⟨f, hf, hdescribes⟩ := exists_describes hspelled ((dirOf_iff hbatch).mpr hway)
      exact List.mem_map.mpr ⟨f, hf, hdescribes.path⟩

theorem mem_artifacts_iff {p : List String} :
    p ∈ batch.flatMap artifactPaths ↔
      ∃ b ∈ batch, ∃ k : ArtifactKind, p = resourceDir b.1 ++ [k.fileName] := by
  rw [List.mem_flatMap]
  refine exists_congr fun b => and_congr_right fun hb => ?_
  rw [(hbatch b hb).written, List.mem_map]
  constructor
  · rintro ⟨k, -, rfl⟩
    exact ⟨k, rfl⟩
  · rintro ⟨k, rfl⟩
    exact ⟨k, by cases k <;> decide, rfl⟩

/-- A module file is the one at the top, or it describes a directory on the way to a resource. -/
theorem moduleFile_cases {f : ModuleFile} (hf : f ∈ moduleFiles (entriesOf batch)) :
    (f = topFile (entriesOf batch) ∧ f.dir = ["src"])
      ∨ ∃ c mods, IsWay batch c mods ∧ Describes (entriesOf batch) c mods f ∧ f.dir = wayPath c mods := by
  obtain rfl | ⟨c, mods, hdir, hdescribes⟩ :=
    describes_of_mem_moduleFiles (entriesOf_spelled hbatch) hf
  · exact .inl ⟨rfl, rfl⟩
  · refine .inr ⟨c, mods, (dirOf_iff hbatch).mp hdir, hdescribes, ?_⟩
    rw [ModuleFile.dir, hdescribes.path, List.dropLast_concat]
    rfl

theorem mem_layout_concat {c : Category} {mods : List String} {name : String} :
    wayPath c mods ++ [name, "mod.rs"] ∈ (moduleFiles (entriesOf batch)).map ModuleFile.path
      ↔ IsWay batch c (mods ++ [name]) := by
  rw [mem_layout_iff hbatch, ← wayPath_concat]
  constructor
  · rintro (htop | ⟨c', mods', hway, he⟩)
    · have hlength := congrArg List.length htop
      simp [wayPath, topPath] at hlength
    · obtain ⟨rfl, rfl⟩ := wayPath_injective (List.append_cancel_right he)
      exact hway
  · exact fun hway => .inr ⟨c, _, hway, rfl⟩

theorem mem_layout_category {name : String} :
    ["src", name, "mod.rs"] ∈ (moduleFiles (entriesOf batch)).map ModuleFile.path
      ↔ ∃ c : Category, name = c.text ∧ IsWay batch c [] := by
  rw [mem_layout_iff hbatch]
  constructor
  · rintro (htop | ⟨c, mods, hway, he⟩)
    · have hlength := congrArg List.length htop
      simp [topPath] at hlength
    · obtain rfl : mods = [] := by
        have hlength := congrArg List.length he
        simp only [wayPath, List.length_append, List.length_cons, List.length_nil] at hlength
        exact List.eq_nil_of_length_eq_zero (by omega)
      exact ⟨c, (List.cons.inj (List.cons.inj he).2).1, hway⟩
  · rintro ⟨c, rfl, hway⟩
    exact .inr ⟨c, [], hway, rfl⟩

theorem mem_topFile_declared_iff {name : String} :
    name ∈ (topFile (entriesOf batch)).declared ↔ ∃ c : Category, name = c.text ∧ IsWay batch c [] := by
  have hnode : ∀ c, (∃ n, (c, n) ∈ categoryNodes (entriesOf batch)) ↔ IsWay batch c [] := by
    intro c
    rw [← dirOf_iff hbatch]
    constructor
    · rintro ⟨n, hn⟩
      obtain ⟨e, he, hc⟩ := exists_categoryNode?.mp ⟨n, mem_categoryNodes hn⟩
      exact ⟨e, he, hc, List.nil_prefix⟩
    · rintro ⟨e, he, hc, -⟩
      obtain ⟨n, hn⟩ := exists_categoryNode?.mpr ⟨e, he, hc⟩
      exact ⟨n, List.mem_filterMap.mpr ⟨c, by cases c <;> decide, by rw [hn]; rfl⟩⟩
  rw [topFile_declared, List.mem_map]
  constructor
  · rintro ⟨⟨c, n⟩, hn, rfl⟩
    exact ⟨c, rfl, (hnode c).mp ⟨n, hn⟩⟩
  · rintro ⟨c, rfl, hway⟩
    obtain ⟨n, hn⟩ := (hnode c).mpr hway
    exact ⟨(c, n), hn, rfl⟩

/-- A directory has a resource if it is that of one. -/
theorem isSome_iff {c : Category} {mods : List String} {resource : Option ResourceEntry}
    (hsome : ∀ e, resource = some e →
      e ∈ entriesOf batch ∧ e.category = c ∧ e.modules = mods)
    (hnone : resource = none → ∀ e ∈ entriesOf batch, e.category = c → e.modules ≠ mods) :
    resource.isSome ↔ ∃ b ∈ batch, wayPath c mods = resourceDir b.1 := by
  constructor
  · intro h
    obtain ⟨e, he⟩ := Option.isSome_iff_exists.mp h
    obtain ⟨hmem, hc, hmods⟩ := hsome e he
    obtain ⟨b, hb, rfl⟩ := List.mem_map.mp hmem
    rw [(hbatch b hb).modules] at hmods
    refine ⟨b, hb, ?_⟩
    rw [← hc, ← hmods]
    rfl
  · rintro ⟨b, hb, he⟩
    obtain ⟨hc, hmods⟩ := wayPath_injective (show _ = wayPath b.1.category b.1.modules from he)
    cases resource with
    | some e => rfl
    | none =>
      refine absurd ?_ (hnone rfl _ (List.mem_map.mpr ⟨b, hb, rfl⟩) hc.symm)
      rw [(hbatch b hb).modules, hmods]

/-- The modules that a file declares are the directories beside it, and the artifacts if its directory
is that of a resource. -/
theorem mem_declared_iff {f : ModuleFile} (hf : f ∈ moduleFiles (entriesOf batch)) {name : String} :
    name ∈ f.declared ↔
      f.dir ++ [name, "mod.rs"] ∈ (moduleFiles (entriesOf batch)).map ModuleFile.path
      ∨ name ∈ artifactNames ∧ ∃ b ∈ batch, f.dir = resourceDir b.1 := by
  obtain ⟨rfl, hdir⟩ | ⟨c, mods, hway, hdescribes, hdir⟩ := moduleFile_cases hbatch hf
  · have hnot : ∀ b : Named, ["src"] ≠ resourceDir b.1 := by
      intro b he
      have hlength := congrArg List.length he
      simp [resourceDir] at hlength
    rw [mem_topFile_declared_iff hbatch, hdir, ← mem_layout_category hbatch]
    simp [hnot]
  · obtain ⟨resource, names, hitems, -, hnames, hsome, hnone⟩ := hdescribes.items
    rw [declared_eq hitems, hdir, mem_layout_concat hbatch, ← isSome_iff hbatch hsome hnone,
      List.mem_append, hnames, dirOf_iff hbatch, or_comm]
    refine or_congr Iff.rfl ?_
    cases resource <;> simp

/-- A declared directory is that of a category or lies on the way to a resource. -/
theorem layout_concat_cases {dir : List String} {name : String}
    (h : dir ++ [name, "mod.rs"] ∈ (moduleFiles (entriesOf batch)).map ModuleFile.path) :
    (dir = ["src"] ∧ ∃ c : Category, name = c.text)
      ∨ ∃ c mods, dir = wayPath c mods ∧ IsWay batch c (mods ++ [name]) := by
  obtain htop | ⟨c, mods, hway, he⟩ := (mem_layout_iff hbatch).mp h
  · have hlast := congrArg List.getLast? htop
    simp [topPath] at hlast
  · have hfile : (dir ++ [name]) ++ ["mod.rs"] = wayPath c mods ++ ["mod.rs"] := by
      rw [← he, List.append_assoc]
      rfl
    have hdir : dir ++ [name] = wayPath c mods := List.append_cancel_right hfile
    obtain rfl | ⟨mods, m, rfl⟩ := List.eq_nil_or_concat' mods
    · obtain ⟨hdir, hname⟩ := List.append_inj' (show dir ++ [name] = ["src"] ++ [c.text] from hdir) rfl
      exact .inl ⟨hdir, c, List.head_eq_of_cons_eq hname⟩
    · have hconcat : wayPath c (mods ++ [m]) = wayPath c mods ++ [m] := by simp [wayPath]
      obtain ⟨hdir, hname⟩ := List.append_inj' (hdir.trans hconcat) rfl
      rw [List.head_eq_of_cons_eq hname]
      exact .inr ⟨c, mods, hdir, hway⟩

/-- A declaration leads to a directory, or to an artifact, and not to both. -/
theorem declared_cases {f : ModuleFile} (hf : f ∈ moduleFiles (entriesOf batch)) {name : String}
    (hname : name ∈ f.declared) : name ≠ "mod" ∧
      (name ∉ artifactNames
        ∧ f.dir ++ [name, "mod.rs"] ∈ (moduleFiles (entriesOf batch)).map ModuleFile.path
        ∧ f.dir ++ [name ++ ".rs"] ≠ topPath
      ∨ name ∈ artifactNames
        ∧ f.dir ++ [name, "mod.rs"] ∉ (moduleFiles (entriesOf batch)).map ModuleFile.path
        ∧ ∃ b ∈ batch, f.dir = resourceDir b.1) := by
  have hlayout : ∀ {name}, f.dir ++ [name, "mod.rs"]
      ∈ (moduleFiles (entriesOf batch)).map ModuleFile.path →
      name ∉ artifactNames ∧ name ≠ "mod" ∧ f.dir ++ [name ++ ".rs"] ≠ topPath := by
    intro name h
    obtain ⟨hdir, c, rfl⟩ | ⟨c, mods, hdir, hway⟩ := layout_concat_cases hbatch h
    · rw [hdir]
      cases c <;> decide
    · obtain ⟨hartifact, hmod⟩ := spelled_of_isWay hbatch hway (List.mem_concat_self)
      refine ⟨hartifact, hmod, fun htop => ?_⟩
      have hlength := congrArg List.length htop
      simp [hdir, wayPath, topPath] at hlength
  obtain h | ⟨hartifact, hresource⟩ := (mem_declared_iff hbatch hf).mp hname
  · obtain ⟨hartifact, hmod, htop⟩ := hlayout h
    exact ⟨hmod, .inl ⟨hartifact, h, htop⟩⟩
  · refine ⟨?_, .inr ⟨hartifact, fun h => (hlayout h).1 hartifact, hresource⟩⟩
    rintro rfl
    exact absurd hartifact (by decide)

theorem exists_file_of_isWay {c : Category} {mods : List String} (h : IsWay batch c mods) :
    ∃ f ∈ moduleFiles (entriesOf batch), f.dir = wayPath c mods
      ∧ f.path = wayPath c mods ++ ["mod.rs"] := by
  obtain ⟨f, hf, hdescribes⟩ :=
    exists_describes (entriesOf_spelled hbatch) ((dirOf_iff hbatch).mpr h)
  refine ⟨f, hf, ?_, hdescribes.path⟩
  rw [ModuleFile.dir, hdescribes.path, List.dropLast_concat]
  rfl

/-- Every directory has one module file. -/
theorem file_unique {f g : ModuleFile} (hf : f ∈ moduleFiles (entriesOf batch))
    (hg : g ∈ moduleFiles (entriesOf batch)) (h : f.dir = g.dir) : f = g := by
  have hne : ∀ (c : Category) (mods : List String), ["src"] ≠ wayPath c mods := by
    intro c mods he
    have hlength := congrArg List.length he
    simp [wayPath] at hlength
  refine List.inj_on_of_nodup_map (nodup_moduleFiles (entriesOf_spelled hbatch)) hf hg ?_
  obtain ⟨rfl, hdir⟩ | ⟨c, mods, -, hdescribes, hdir⟩ := moduleFile_cases hbatch hf <;>
    obtain ⟨rfl, hdir'⟩ | ⟨c', mods', -, hdescribes', hdir'⟩ := moduleFile_cases hbatch hg
  · rfl
  · exact absurd (hdir.symm.trans (h.trans hdir')) (hne _ _)
  · exact absurd (hdir'.symm.trans (h.symm.trans hdir)) (hne _ _)
  · obtain ⟨rfl, rfl⟩ := wayPath_injective (hdir.symm.trans (h.trans hdir'))
    rw [hdescribes.path, hdescribes'.path]

theorem nodup_declared {f : ModuleFile} (hf : f ∈ moduleFiles (entriesOf batch)) :
    f.declared.Nodup := by
  obtain ⟨rfl, -⟩ | ⟨c, mods, -, hdescribes, -⟩ := moduleFile_cases hbatch hf
  · rw [topFile_declared]
    refine List.pairwise_map.mpr ((pairwise_categoryNodes _).imp fun hne he => hne ?_)
    exact text_injective he
  · obtain ⟨resource, names, hitems, hnodup, hnames, -, -⟩ := hdescribes.items
    have hartifacts : (if resource.isSome then artifactNames else []).Nodup := by
      cases resource with
      | none => exact List.nodup_nil
      | some e => exact (by decide : artifactNames.Nodup)
    rw [declared_eq hitems]
    refine List.nodup_append.mpr ⟨hartifacts, hnodup, fun a ha b hb hab => ?_⟩
    have hway := (dirOf_iff hbatch).mp ((hnames b).mp hb)
    refine (spelled_of_isWay hbatch hway List.mem_concat_self).1 ?_
    rw [← hab]
    cases resource with
    | none => cases ha
    | some e => exact ha

end Batch

/-! ## The search for declared modules -/

theorem append_rs_injective {a b : String} (h : a ++ ".rs" = b ++ ".rs") : a = b := by
  have hlists := congrArg String.toList h
  rw [String.toList_append, String.toList_append] at hlists
  exact String.toList_injective (List.append_cancel_right hlists)

/-- The module files and the artifacts of a batch. -/
def cratePaths (batch : List Named) : List (List String) :=
  (moduleFiles (entriesOf batch)).map ModuleFile.path ++ batch.flatMap artifactPaths

section Search

variable {batch : List Named} (hbatch : ∀ b ∈ batch, Settled b)

include hbatch

/-- No artifact is called like the file of a directory. -/
theorem directory_mem_cratePaths {dir : List String} {name : String} :
    dir ++ [name, "mod.rs"] ∈ cratePaths batch
      ↔ dir ++ [name, "mod.rs"] ∈ (moduleFiles (entriesOf batch)).map ModuleFile.path := by
  rw [cratePaths, List.mem_append, mem_artifacts_iff hbatch]
  refine or_iff_left ?_
  rintro ⟨b, -, k, he⟩
  have hlast := congrArg List.getLast? he
  rw [List.getLast?_concat] at hlast
  cases k <;> simp [ArtifactKind.fileName, ArtifactKind.moduleName] at hlast

/-- A file that is not that of a directory is an artifact, or the one at the top. -/
theorem file_mem_cratePaths {dir : List String} {name : String} (hmod : name ≠ "mod") :
    dir ++ [name ++ ".rs"] ∈ cratePaths batch ↔ dir ++ [name ++ ".rs"] = topPath
      ∨ name ∈ artifactNames ∧ ∃ b ∈ batch, dir = resourceDir b.1 := by
  rw [cratePaths, List.mem_append, mem_layout_iff hbatch, mem_artifacts_iff hbatch,
    mem_artifactNames_iff, or_assoc]
  refine or_congr Iff.rfl ⟨?_, ?_⟩
  · rintro (⟨c, mods, -, he⟩ | ⟨b, hb, k, he⟩)
    · have hname : name ++ ".rs" = "mod" ++ ".rs" := List.head_eq_of_cons_eq (List.append_inj' he rfl).2
      exact absurd (append_rs_injective hname) hmod
    · obtain ⟨hdir, hname⟩ := List.append_inj' he rfl
      exact ⟨⟨k, append_rs_injective (List.head_eq_of_cons_eq hname)⟩, b, hb, hdir⟩
  · rintro ⟨⟨k, rfl⟩, b, hb, rfl⟩
    exact .inr ⟨b, hb, k, rfl⟩

theorem declared_found {f : ModuleFile} (hf : f ∈ moduleFiles (entriesOf batch)) {name : String}
    (hname : name ∈ f.declared) :
    (∃! p, p ∈ cratePaths batch ∧ p ∈ targets f.dir name)
      ∧ (f.dir ++ [name ++ ".rs"] ∈ cratePaths batch ↔ name ∈ artifactNames) := by
  obtain ⟨hmod, ⟨hartifact, hlayout, htop⟩ | ⟨hartifact, hlayout, hresource⟩⟩ :=
    declared_cases hbatch hf hname
  · have hdirectory := (directory_mem_cratePaths hbatch).mpr hlayout
    have hfile : f.dir ++ [name ++ ".rs"] ∉ cratePaths batch := by
      rw [file_mem_cratePaths hbatch hmod]
      simp [htop, hartifact]
    refine ⟨⟨_, ⟨hdirectory, by simp [targets]⟩, ?_⟩, by simp [hfile, hartifact]⟩
    rintro p ⟨hp, htarget⟩
    obtain rfl | rfl := by simpa [targets] using htarget
    · rfl
    · exact absurd hp hfile
  · have hfile := (file_mem_cratePaths hbatch hmod).mpr (.inr ⟨hartifact, hresource⟩)
    refine ⟨⟨_, ⟨hfile, by simp [targets]⟩, ?_⟩, by simp [hfile, hartifact]⟩
    rintro p ⟨hp, htarget⟩
    obtain rfl | rfl := by simpa [targets] using htarget
    · exact absurd ((directory_mem_cratePaths hbatch).mp hp) hlayout
    · rfl

/-- A directory is declared by the file of the directory that holds it, and that of a category by the
file at the top. -/
theorem directory_declared {c : Category} {mods : List String} (h : IsWay batch c mods) :
    ∃ f ∈ moduleFiles (entriesOf batch), (∃ name ∈ f.declared, wayPath c mods ++ ["mod.rs"]
        ∈ targets f.dir name)
      ∧ (f.path = topPath ∨ ∃ ms m, mods = ms ++ [m] ∧ f.path = wayPath c ms ++ ["mod.rs"]) := by
  obtain rfl | ⟨ms, m, rfl⟩ := List.eq_nil_or_concat' mods
  · refine ⟨topFile _, mem_moduleFiles_iff.mpr (.inl rfl), ⟨c.text, ?_, ?_⟩, .inl rfl⟩
    · exact (mem_topFile_declared_iff hbatch).mpr ⟨c, rfl, h⟩
    · exact List.mem_cons_self
  · obtain ⟨f, hf, hdir, hpath⟩ := exists_file_of_isWay hbatch (isWay_of_concat h)
    refine ⟨f, hf, ⟨m, (mem_declared_iff hbatch hf).mpr (.inl ?_), ?_⟩, .inr ⟨ms, m, rfl, hpath⟩⟩
    · rw [hdir]
      exact (mem_layout_concat hbatch).mpr h
    · rw [hdir, wayPath_concat]
      exact List.mem_cons_self

/-- An artifact is declared by the file of the directory of its resource. -/
theorem artifact_declared {b : Named} (hb : b ∈ batch) (k : ArtifactKind) :
    ∃ f ∈ moduleFiles (entriesOf batch), k.moduleName ∈ f.declared
      ∧ resourceDir b.1 ++ [k.fileName] ∈ targets f.dir k.moduleName
      ∧ f.path = wayPath b.1.category b.1.modules ++ ["mod.rs"] := by
  obtain ⟨f, hf, hdir, hpath⟩ := exists_file_of_isWay hbatch ⟨b, hb, rfl, List.prefix_refl _⟩
  refine ⟨f, hf, (mem_declared_iff hbatch hf).mpr (.inr ⟨?_, b, hb, hdir⟩), ?_, hpath⟩
  · exact mem_artifactNames_iff.mpr ⟨k, rfl⟩
  · rw [hdir]
    exact List.mem_cons_of_mem _ List.mem_cons_self

/-- Only one module file can have declared a file. -/
theorem declaration_unique {p : List String} {f g : ModuleFile}
    (hf : f ∈ moduleFiles (entriesOf batch)) (hg : g ∈ moduleFiles (entriesOf batch))
    {name name' : String} (hname : name ∈ f.declared) (hname' : name' ∈ g.declared)
    (hp : p ∈ targets f.dir name) (hp' : p ∈ targets g.dir name') : f = g := by
  have hmod := (declared_cases hbatch hf hname).1
  have hmod' := (declared_cases hbatch hg hname').1
  have hmixed : ∀ {dir dir' : List String} {a b : String}, b ≠ "mod" →
      dir ++ [a, "mod.rs"] ≠ dir' ++ [b ++ ".rs"] := by
    intro dir dir' a b hb he
    have hlast : "mod" ++ ".rs" = b ++ ".rs" := by simpa using congrArg List.getLast? he
    exact hb (append_rs_injective hlast).symm
  refine file_unique hbatch hf hg ?_
  simp only [targets, List.mem_cons, List.not_mem_nil, or_false] at hp hp'
  obtain rfl | rfl := hp <;> obtain he | he := hp'
  · exact (List.append_inj' he rfl).1
  · exact absurd he (hmixed hmod')
  · exact absurd he.symm (hmixed hmod)
  · exact (List.append_inj' he rfl).1

theorem reachable_directory {c : Category} {mods : List String} (h : IsWay batch c mods) :
    Reachable (moduleFiles (entriesOf batch)) (cratePaths batch) (wayPath c mods ++ ["mod.rs"]) := by
  have hmem : ∀ {mods}, IsWay batch c mods → wayPath c mods ++ ["mod.rs"] ∈ cratePaths batch :=
    fun hway => List.mem_append_left _ ((mem_layout_iff hbatch).mpr (.inr ⟨c, _, hway, rfl⟩))
  -- the file that declares a directory is at the top or that of a shorter way
  induction mods using List.reverseRecOn with
  | nil =>
    obtain ⟨f, hf, ⟨name, hname, htarget⟩, htop | ⟨ms, m, hms, -⟩⟩ := directory_declared hbatch h
    · exact .declared f hf (htop ▸ .top) name hname _ (hmem h) htarget
    · simp at hms
  | append_singleton mods m ih =>
    obtain ⟨f, hf, ⟨name, hname, htarget⟩, htop | ⟨ms, m', hms, hpath⟩⟩ := directory_declared hbatch h
    · exact .declared f hf (htop ▸ .top) name hname _ (hmem h) htarget
    · obtain ⟨rfl, -⟩ := List.append_inj' hms rfl
      have hfrom := ih (isWay_of_concat h)
      exact .declared f hf (hpath ▸ hfrom) name hname _ (hmem h) htarget

theorem reachable_artifact {b : Named} (hb : b ∈ batch) (k : ArtifactKind) :
    Reachable (moduleFiles (entriesOf batch)) (cratePaths batch) (resourceDir b.1 ++ [k.fileName]) := by
  obtain ⟨f, hf, hname, htarget, hpath⟩ := artifact_declared hbatch hb k
  have hfrom := reachable_directory hbatch ⟨b, hb, rfl, List.prefix_refl _⟩
  refine .declared f hf (hpath ▸ hfrom) _ hname _ (List.mem_append_right _ ?_) htarget
  exact (mem_artifacts_iff hbatch).mpr ⟨b, hb, k, rfl⟩

theorem mem_cratePaths_iff {p : List String} : p ∈ cratePaths batch ↔ p = topPath
    ∨ (∃ c mods, IsWay batch c mods ∧ p = wayPath c mods ++ ["mod.rs"])
    ∨ ∃ b ∈ batch, ∃ k : ArtifactKind, p = resourceDir b.1 ++ [k.fileName] := by
  rw [cratePaths, List.mem_append, mem_layout_iff hbatch, mem_artifacts_iff hbatch, or_assoc]

theorem exists_declaration {p : List String} (hp : p ∈ cratePaths batch) (hne : p ≠ topPath) :
    ∃ f ∈ moduleFiles (entriesOf batch), f.path ≠ p ∧ ∃ name ∈ f.declared, p ∈ targets f.dir name := by
  obtain rfl | ⟨c, mods, hway, rfl⟩ | ⟨b, hb, k, rfl⟩ := (mem_cratePaths_iff hbatch).mp hp
  · exact absurd rfl hne
  · obtain ⟨f, hf, hdeclared, htop | ⟨ms, m, rfl, hpath⟩⟩ := directory_declared hbatch hway
    · exact ⟨f, hf, htop ▸ hne.symm, hdeclared⟩
    · refine ⟨f, hf, fun he => ?_, hdeclared⟩
      have hlength := congrArg List.length (hpath.symm.trans he)
      simp [wayPath] at hlength
  · obtain ⟨f, hf, hname, htarget, hpath⟩ := artifact_declared hbatch hb k
    refine ⟨f, hf, fun he => ?_, _, hname, htarget⟩
    have hfile := List.head_eq_of_cons_eq (List.append_inj' (hpath.symm.trans he) rfl).2
    cases k <;> exact absurd hfile (by decide)

theorem closed_of_settled (hapart : batch.Pairwise fun a b => resourceDir a.1 ≠ resourceDir b.1)
    (hlaid : layOut (entriesOf batch) = .ok (moduleFiles (entriesOf batch))) :
    Closed (moduleFiles (entriesOf batch)) (cratePaths batch) where
  apart := by
    have hspelled : ∀ b ∈ batch, IsSpelled b := fun b hb m hm => ((hbatch b hb).spelled m hm).1
    have hnodup := nodup_outputPaths hspelled hapart
    have hlayout : layoutPaths batch = (moduleFiles (entriesOf batch)).map ModuleFile.path := by
      rw [layoutPaths, ← entriesOf, hlaid]
    rw [outputPaths, hlayout] at hnodup
    exact (List.nodup_cons.mp hnodup).2
  once f hf := nodup_declared hbatch hf
  found f hf name hname := (declared_found hbatch hf hname).1
  artifacts f hf name hname := by
    rw [(declared_found hbatch hf hname).2, mem_artifactNames_iff]
  declared p hp hne := by
    obtain ⟨f, hf, hother, name, hname, htarget⟩ := exists_declaration hbatch hp hne
    refine ⟨f, ⟨hf, hother, name, hname, htarget⟩, ?_⟩
    rintro g ⟨hg, -, name', hname', htarget'⟩
    exact declaration_unique hbatch hg hf hname' hname htarget' htarget
  reachable p hp := by
    obtain rfl | ⟨c, mods, hway, rfl⟩ | ⟨b, hb, k, rfl⟩ := (mem_cratePaths_iff hbatch).mp hp
    · exact .top
    · exact reachable_directory hbatch hway
    · exact reachable_artifact hbatch hb k

/-- The artifacts are declared where a resource has its directory, and nowhere else. -/
theorem artifact_declared_iff {f : ModuleFile} (hf : f ∈ moduleFiles (entriesOf batch))
    (k : ArtifactKind) : k.moduleName ∈ f.declared ↔ ∃ b ∈ batch, f.dir = resourceDir b.1 := by
  have hartifact : k.moduleName ∈ artifactNames := mem_artifactNames_iff.mpr ⟨k, rfl⟩
  constructor
  · intro hname
    obtain ⟨-, ⟨hnot, -⟩ | ⟨-, -, hresource⟩⟩ := declared_cases hbatch hf hname
    · exact absurd hartifact hnot
    · exact hresource
  · exact fun hresource => (mem_declared_iff hbatch hf).mpr (.inr ⟨hartifact, hresource⟩)

/-- The root client and the root model of a resource are re-exported from its directory. -/
theorem reexports_of_resource
    (hapart : batch.Pairwise fun a b => resourceDir a.1 ≠ resourceDir b.1) {f : ModuleFile}
    (hf : f ∈ moduleFiles (entriesOf batch)) {b : Named} (hb : b ∈ batch)
    (hdir : f.dir = resourceDir b.1) :
    f.reexports = [.rel ["client", b.2.client (.ofResource b.1)],
      .rel ["model", b.2.model (.ofResource b.1)]] := by
  obtain ⟨-, htop⟩ | ⟨c, mods, -, hdescribes, hway⟩ := moduleFile_cases hbatch hf
  · have hlength := congrArg List.length (htop.symm.trans hdir)
    simp [resourceDir] at hlength
  · obtain ⟨resource, names, hitems, -, -, hsome, hnone⟩ := hdescribes.items
    have hresource := (isSome_iff hbatch hsome hnone).mpr ⟨b, hb, hway.symm.trans hdir⟩
    obtain ⟨e, rfl⟩ := Option.isSome_iff_exists.mp hresource
    obtain ⟨hmem, hc, hmods⟩ := hsome e rfl
    obtain ⟨b', hb', rfl⟩ := List.mem_map.mp hmem
    have hsame : resourceDir b'.1 = resourceDir b.1 := by
      rw [(hbatch b' hb').modules] at hmods
      rw [← hdir, hway, ← hc, ← hmods]
      rfl
    obtain rfl : b' = b := List.inj_on_of_nodup_map (List.pairwise_map.mpr hapart) hb' hb hsame
    rw [reexports_eq hitems, ← (hbatch b' hb).client, ← (hbatch b' hb).model]
    rfl

theorem reexports_elsewhere {f : ModuleFile} (hf : f ∈ moduleFiles (entriesOf batch))
    (hdir : ∀ b ∈ batch, f.dir ≠ resourceDir b.1) : f.reexports = [] := by
  obtain ⟨rfl, -⟩ | ⟨c, mods, -, hdescribes, hway⟩ := moduleFile_cases hbatch hf
  · exact topFile_reexports _
  · obtain ⟨resource, names, hitems, -, -, hsome, hnone⟩ := hdescribes.items
    cases resource with
    | none => rw [reexports_eq hitems]; rfl
    | some e =>
      obtain ⟨b, hb, he⟩ := (isSome_iff hbatch hsome hnone).mp rfl
      exact absurd (hway.trans he) (hdir b hb)

end Search

/-! ## Runs -/

/-- At some time the run resolves the resource, and is given these names. -/
def ResolvedIn (steps : List NamingStep) (b : Named) : Prop :=
  ∃ before after, steps = before ++ .resolve b.1 :: after
    ∧ (Naming.resolve b.1 (tableFrom .empty before)).1 = .ok b.2

theorem settled_of_run {steps : List NamingStep} {b : Named} (hread : b.1 ∈ resourcesRead steps)
    (hresolved : ResolvedIn steps b) (hwritten : ∃ artifacts, assemble b.1 b.2 = .ok artifacts) :
    Settled b := by
  have hmodules := (placed_of_mem_resourcesRead hread).spelled (sound_tableFrom_empty steps)
  have hroot : b.2.rootPair = ⟨b.2.model (.ofResource b.1), b.2.client (.ofResource b.1)⟩ := by
    obtain ⟨before, after, -, hnames⟩ := hresolved
    exact rootPair_of_resolve (sound_tableFrom_empty before) (Prod.ext hnames rfl)
  refine ⟨fun m hm => ⟨spelled_of_mem_resourcesRead hread m hm, fun hartifact => ?_⟩, ?_, ?_, ?_, ?_⟩
  · rw [hmodules] at hm
    obtain ⟨w, -, rfl⟩ := List.mem_map.mp hm
    have hreserved : ∀ name ∈ artifactNames, name ∈ ScopeKind.modules.reserved := by decide
    exact identifier_notMem_reserved .modules w (hreserved _ hartifact)
  · rw [ResourceEntry.modules, ResourceEntry.ofResource, hmodules]
    simp [List.zipWith_map_left]
  · obtain ⟨artifacts, hartifacts⟩ := hwritten
    rw [artifactPaths, hartifacts]
    exact mapM_artifact_paths hartifacts
  · rw [TypeNames.rootClient, hroot]
  · rw [TypeNames.rootModel, hroot]

/-- **The module tree is closed.** Resources of different dotted paths that were read and named in one
run are generated and laid out. Then the module files declare every module file and every artifact,
each once, and nothing else; all of them are reached from the top. The module file of a directory
declares the artifacts and re-exports the root types exactly if the directory is that of a resource,
and then the types are those of this resource. -/
theorem module_tree_closed {steps : List NamingStep} {batch : List Named} {files : List ModuleFile}
    (hread : ∀ b ∈ batch, b.1 ∈ resourcesRead steps) (hresolved : ∀ b ∈ batch, ResolvedIn steps b)
    (hapart : batch.Pairwise fun a b => a.1.dottedPath ≠ b.1.dottedPath)
    (hwritten : ∀ b ∈ batch, ∃ artifacts, assemble b.1 b.2 = .ok artifacts)
    (hlaid : layOut (batch.map fun b => ResourceEntry.ofResource b.1 b.2) = .ok files) :
    Closed files (files.map ModuleFile.path ++ batch.flatMap artifactPaths)
      ∧ ∀ f ∈ files, (∀ b ∈ batch, f.dir = resourceDir b.1 →
          (∀ k : ArtifactKind, k.moduleName ∈ f.declared)
            ∧ f.reexports = [.rel ["client", b.2.client (.ofResource b.1)],
              .rel ["model", b.2.model (.ofResource b.1)]])
        ∧ ((∀ b ∈ batch, f.dir ≠ resourceDir b.1) →
          (∀ k : ArtifactKind, k.moduleName ∉ f.declared) ∧ f.reexports = []) := by
  have hbatch : ∀ b ∈ batch, Settled b :=
    fun b hb => settled_of_run (hread b hb) (hresolved b hb) (hwritten b hb)
  have hdirs : batch.Pairwise fun a b => resourceDir a.1 ≠ resourceDir b.1 := by
    refine hapart.imp_of_mem fun {a b} ha hb hne he => hne ?_
    obtain ⟨hcategory, hsegments⟩ := segments_of_resourceDir (hread a ha) (hread b hb) he
    rw [Resource.dottedPath, Resource.dottedPath, hcategory, hsegments]
  obtain ⟨-, -, hpure⟩ := except_bind_ok hlaid
  cases hpure
  refine ⟨closed_of_settled hbatch hdirs hlaid, fun f hf => ⟨fun b hb hdir => ?_, fun hdir => ?_⟩⟩
  · refine ⟨fun k => (artifact_declared_iff hbatch hf k).mpr ⟨b, hb, hdir⟩, ?_⟩
    exact reexports_of_resource hbatch hdirs hf hb hdir
  · refine ⟨fun k hname => ?_, reexports_elsewhere hbatch hf hdir⟩
    obtain ⟨b, hb, he⟩ := (artifact_declared_iff hbatch hf k).mp hname
    exact hdir b hb he

/-! ## A resource and its parent -/

def netBatch : List Named :=
  [flatProduct netModelResource "NetModel", flatProduct netResource "Net"].map fun p =>
    (p.resource, p.names)

def netSteps : List NamingStep :=
  [.read 4 netModelDocument, .read 4 netDocument, .resolve netModelResource, .resolve netResource]

theorem netModel_performed : (NamingStep.read 4 netModelDocument).perform .empty = netTable := by
  rw [NamingStep.perform, netModelDocument_read]

theorem net_performed : (NamingStep.read 4 netDocument).perform netTable = netTable := by
  rw [NamingStep.perform, netDocument_read]

theorem netBatch_read : ∀ b ∈ netBatch, b.1 ∈ resourcesRead netSteps := by
  have hmodel : (NamingStep.read 4 netModelDocument).resource? .empty = some netModelResource := by
    rw [NamingStep.resource?, netModelDocument_read]
    rfl
  have hnet : (NamingStep.read 4 netDocument).resource? netTable = some netResource := by
    rw [NamingStep.resource?, netDocument_read]
    rfl
  rw [resourcesRead, netSteps, resourcesFrom, hmodel, netModel_performed, resourcesFrom, hnet]
  refine List.forall_mem_cons.mpr ⟨List.mem_cons_self, List.forall_mem_singleton.mpr ?_⟩
  exact List.mem_cons_of_mem _ List.mem_cons_self

theorem netTable_types (path : String) : SameIn (Scope.types path) .empty netTable := by
  have hne : ∀ parent, Scope.types path ≠ Scope.modules parent := by
    simp [Scope.types, Scope.modules]
  exact (SameIn.add_of_ne (hne _) _ _ _).trans (.add_of_ne (hne _) _ _ _)

theorem netBatch_resolved : ∀ b ∈ netBatch, ResolvedIn netSteps b := by
  refine List.forall_mem_cons.mpr ⟨?_, List.forall_mem_singleton.mpr ?_⟩
  · refine ⟨[.read 4 netModelDocument, .read 4 netDocument], [.resolve netResource], rfl, ?_⟩
    rw [tableFrom, List.foldl_cons, netModel_performed, List.foldl_cons, net_performed,
      List.foldl_nil]
    exact (resolve_sameIn (netTable_types _)).symm.trans (flatProduct_named rfl (by decide))
  · refine ⟨[.read 4 netModelDocument, .read 4 netDocument, .resolve netModelResource], [], rfl, ?_⟩
    rw [tableFrom, List.foldl_cons, netModel_performed, List.foldl_cons, net_performed,
      List.foldl_cons, List.foldl_nil]
    -- the names of the first resource are in another scope
    have hne : Scope.types netResource.dottedPath ≠ Scope.types netModelResource.dottedPath :=
      fun he => net_apart (congrArg Scope.path he).symm
    have hsame := (netTable_types _).trans (resolve_elsewhere hne netTable)
    exact (resolve_sameIn hsame).symm.trans (flatProduct_named rfl (by decide))

/-- The resource `net/model` lies in the directory `net/model_`, beside the model of `net`. -/
theorem module_tree_closed_net :
    (∀ b ∈ netBatch, b.1 ∈ resourcesRead netSteps) ∧ (∀ b ∈ netBatch, ResolvedIn netSteps b)
      ∧ (netBatch.Pairwise fun a b => a.1.dottedPath ≠ b.1.dottedPath)
      ∧ (∀ b ∈ netBatch, ∃ artifacts, assemble b.1 b.2 = .ok artifacts)
      ∧ ∃ files, layOut (netBatch.map fun b => ResourceEntry.ofResource b.1 b.2) = .ok files
        ∧ Closed files (files.map ModuleFile.path ++ netBatch.flatMap artifactPaths)
        ∧ (∀ f ∈ files, f.dir = ["src", "config", "net"] →
          f.reexports = [.rel ["client", "NetClient"], .rel ["model", "Net"]]) := by
  have hapart : netBatch.Pairwise fun a b => a.1.dottedPath ≠ b.1.dottedPath :=
    .cons (List.forall_mem_singleton.mpr net_apart) (List.pairwise_singleton _ _)
  have hwritten : ∀ b ∈ netBatch, ∃ artifacts, assemble b.1 b.2 = .ok artifacts :=
    List.forall_mem_cons.mpr ⟨⟨_, rfl⟩, List.forall_mem_singleton.mpr ⟨_, rfl⟩⟩
  have hlaid : layOut (netBatch.map fun b => ResourceEntry.ofResource b.1 b.2)
      = .ok (moduleFiles (netBatch.map fun b => ResourceEntry.ofResource b.1 b.2)) := rfl
  obtain ⟨hclosed, hfiles⟩ :=
    module_tree_closed netBatch_read netBatch_resolved hapart hwritten hlaid
  refine ⟨netBatch_read, netBatch_resolved, hapart, hwritten, _, hlaid, hclosed, fun f hf hdir => ?_⟩
  exact ((hfiles f hf).1 _ (List.mem_cons_of_mem _ List.mem_cons_self) hdir).2

end RestForge.Run
