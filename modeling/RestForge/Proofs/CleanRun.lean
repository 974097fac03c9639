import RestForge.Proofs.DryRun
import RestForge.Proofs.ProducedFiles
import RestForge.Proofs.Regeneration

/-!
# What a clean run leaves

* `CleanOutput`: the sources that a report lists, the module files around them and the manifest, and
  nothing else; `clean_run_exact`: so a clean run leaves its output.
* `stale_sources_stay`: unless the output root goes back out of a directory that is not there, or the
  temporary file of the manifest is a link.
-/

set_option autoImplicit false

namespace RestForge.Run

open Naming Emit Schema
open FileTree (Lands NoReturn Passes linkLimit replaceFile startOf textFault?)
open FileTree.Path (join stem)

/-! ## Clean runs -/

/-- What a clean run leaves where its output goes, given the tree after the clean-up: below the
directory of all sources exactly the files of the resources that were generated, as the report lists
them, and the module files around them, each with its text; and beside it the manifest. -/
structure CleanOutput (config : Config) (files : List SchemaFile) (tree : FileTree) (report : Report)
    (modules : List Crate.ModuleFile) (place : FileTree.Place) (tree' : FileTree) : Prop where
  listed : List.Forall₂ (ListedAs config) (generatedOf report.results) (laidOf config files tree)
  laid : Crate.layOut ((laidOf config files tree).map fun b => .ofResource b.1 b.2) = .ok modules
  sources : ∀ r bytes, tree'.get? (place ++ "src" :: r) = some (.file bytes)
    ↔ ∃ x ∈ sourcesOf (laidOf config files tree) modules, x.1 = "src" :: r ∧ x.2.toUTF8.data = bytes
  unlinked : ∀ r target, tree'.get? (place ++ "src" :: r) ≠ some (.link target)
  manifest : tree'.get? (place ++ ["Cargo.toml"]) = some (.file (manifest config).toUTF8.data)
  /-- The paths of both lead there, unless the manifest has taken the place of a link. -/
  found : (∀ target, tree.get? (place ++ ["Cargo.toml"]) ≠ some (.link target)) →
    tree'.directoryAt? (sourceRoot config) = some (place ++ ["src"])
      ∧ tree'.entryAt? (join config.outputRoot ["Cargo.toml"])
        = some (place ++ ["Cargo.toml"], .file (Run.manifest config).toUTF8.data)

section Output

variable {config : Config} {t t₁ t₂ : FileTree} {here : FileTree.Place} {names : List String}
  {laid : List Named} {modules : List Crate.ModuleFile} {text : String}
  (hproduced : Produced here names (sourcesOf laid modules) t t₁)

include hproduced

/-- The directory of all sources is there, since the file at the top is. -/
theorem sourceRoot_made {root : String} (h : Footing IsCodeFile t root here names)
    (hmodules : Crate.layOut (laid.map fun b => .ofResource b.1 b.2) = .ok modules) :
    t₁.get? (here ++ names ++ ["src"]) = some .directory := by
  obtain ⟨f, hf, hpath⟩ := top_mem_layOut hmodules
  have hparent : f.path.dropLast = ["src"] := by
    rw [hpath]
    rfl
  have htop := (hproduced.written (f.path, f.contents)
    (List.mem_append_right _ (List.mem_map_of_mem hf))).directory
  rw [hparent] at htop
  have hdir : IsSourceDir ["src"] := .inr (.inl rfl)
  have h₁ := hproduced.wrote.footing h
  rw [List.append_assoc]
  exact (FileTree.along_found (h₁.named hdir) (h₁.dirs _ hdir) htop).2.1 (by simp)

/-- Where nothing was, the sources are those that were written, before and after the manifest. -/
theorem sources_exact (hmanifest : ManifestWritten here names text t₁ t₂)
    (hfree : ∀ r, t.get? (here ++ (names ++ "src" :: r)) = none) (r : List String) :
    (∀ bytes, t₂.get? (here ++ names ++ "src" :: r) = some (.file bytes)
      ↔ ∃ x ∈ sourcesOf laid modules, x.1 = "src" :: r ∧ x.2.toUTF8.data = bytes)
    ∧ ∀ target, t₂.get? (here ++ names ++ "src" :: r) ≠ some (.link target) := by
  have hplace : here ++ names ++ ["src"] ++ r = here ++ names ++ "src" :: r := by simp
  have hsame : ∀ p, here ++ (names ++ p) = here ++ names ++ "src" :: r ↔ p = "src" :: r := fun p => by
    rw [← List.append_assoc, List.append_right_inj]
  have hsources : ∀ r, t.get? (here ++ names ++ ["src"] ++ r) = none := fun r => by
    simpa [List.append_assoc] using hfree r
  obtain ⟨hfiles, hlinks⟩ := hproduced.exact hsources r
  rw [hplace] at hlinks
  simp only [hplace, hsame] at hfiles
  have hothers : ∀ entry, entry ≠ .directory → (t₂.get? (here ++ names ++ "src" :: r) = some entry
      ↔ t₁.get? (here ++ names ++ "src" :: r) = some entry) :=
    hmanifest.others _ (by simp [List.append_assoc]) (by simp [List.append_assoc])
  exact ⟨fun bytes => (hothers _ (by simp)).trans (hfiles bytes),
    fun target hget => hlinks target ((hothers _ (by simp)).mp hget)⟩

end Output

/-- **A clean run leaves no stale source.** A run that cleans up first, is no dry run and ends with a
report without failures to write leaves below the directory of all sources exactly the files that the
report lists and the module files around them, each with its text, and beside it the manifest; unless,
once the old sources are removed, the output root goes back by two dots out of a directory that is not
there, or a link lies where the temporary file of the manifest is written. -/
theorem clean_run_exact {config : Config} (hclean : config.clean = true) (hdry : config.dryRun = false)
    {w w' : World} (hwell : w.tree.WellFormed)
    (hreturn : (cleaned config w.tree).2.NoReturn config.outputRoot)
    (hlink : ∀ here names, (cleaned config w.tree).2.Lands config.outputRoot here names →
      ∀ target, (cleaned config w.tree).2.get? (here ++ names ++ ["Cargo.tmp"]) ≠ some (.link target))
    {report : Report} (h : generate config w = (.ok report, w'))
    (hwritten : AllWritten report.results) : ∃ files here names modules,
      findFiles config w.tree = .ok files
      ∧ (cleaned config w.tree).2.Lands config.outputRoot here names
      ∧ CleanOutput config files (cleaned config w.tree).2 report modules (here ++ names) w'.tree := by
  have hdry' : ¬config.dryRun = true := by simp [hdry]
  obtain ⟨files, t, results, w₁, hfiles, hcleaned, hall, hlayout, rfl⟩ := generate_ok h
  rw [hcleaned] at hreturn hlink ⊢
  dsimp only at hreturn hlink ⊢
  obtain ⟨hwell', htext, here, names, hlands, hnone⟩ :=
    lands_of_report hdry' hclean hwell hcleaned hreturn hall hlayout
  obtain ⟨hfooting, hfree⟩ := footing_of_cleared hwell' hlands hnone
  obtain ⟨modules, t₁, hmodules, hproduced, hlast, hlisted⟩ :=
    sources_produced hdry' hfooting hall hwritten hlayout
  have hsame : ∀ {place target}, t₁.get? place = some (.link target) →
      t.get? place = some (.link target) := hproduced.wrote.get_link_iff.mp
  obtain ⟨hmanifest, hfound⟩ := manifest_written (hproduced.wrote.footing hfooting)
    (fun target hget => hlink here names hlands target (List.append_assoc .. ▸ hsame hget)) hlast
  have hsources := sources_exact hproduced hmanifest hfree
  have htarget := hmanifest.target
  rw [← List.append_assoc] at htarget hfound
  refine ⟨files, here, names, modules, hfiles, hlands, hlisted, hmodules,
    fun r => (hsources r).1, fun r => (hsources r).2, htarget, fun hfile => ?_⟩
  obtain ⟨htext', left, hpasses⟩ := hfound fun target hget => hfile target (hsame hget)
  have hcargo : FileTree.IsName "Cargo.toml" ∧ FileTree.Path.IsName "Cargo.toml" :=
    ⟨by decide, isName_of_dot (by decide) (by decide)⟩
  have hsrc := FileTree.entryAt?_below hpasses isName_src htext
    (hmanifest.dirs _ (sourceRoot_made hproduced hfooting hmodules)) (by simp)
  refine ⟨?_, FileTree.entryAt?_below hpasses hcargo htext' htarget (by simp)⟩
  rw [FileTree.directoryAt?, sourceRoot, hsrc]

def cleanConfig : Config := { outConfig with clean := true }

/-- A source that no schema asks for lies below the output root. -/
def staleTree : FileTree :=
  ⟨[], [(["out"], .directory), (["out", "src"], .directory), (["out", "src", "stale.rs"], .file #[]),
    (["schemas"], .directory), (["schemas", "b.json"], .file underscoreText.toUTF8.data)], []⟩

theorem cleaned_staleTree : cleaned cleanConfig staleTree = (.ok (), emptyOutTree) := by
  have hlead : FileTree.LeadsTo "out/src" ["out"] "src" := by decide
  have hroot : sourceRoot cleanConfig = "out/src" := by decide
  have hlocate : ∀ follow,
      staleTree.locate follow "out/src" = .ok (.found ["out", "src"] .directory) := fun follow =>
    FileTree.locate_directory hlead (by decide) rfl
  have hthere : staleTree.exists? "out/src" = true := by
    rw [FileTree.exists?, FileTree.entryAt?, hlocate]
    rfl
  have herased : staleTree.eraseBelow ["out", "src"] = emptyOutTree := rfl
  rw [cleaned, if_pos (by decide), hroot, FileTree.removeTree_apply, if_pos hthere, hlocate]
  exact congrArg (Prod.mk _) herased

/-- The stale source goes, and the files of the only resource are written. -/
theorem clean_run_exact_stale : cleanConfig.clean = true ∧ cleanConfig.dryRun = false
    ∧ staleTree.WellFormed ∧ emptyOutTree.NoReturn cleanConfig.outputRoot
    ∧ (∀ here names, emptyOutTree.Lands cleanConfig.outputRoot here names →
      ∀ target, emptyOutTree.get? (here ++ names ++ ["Cargo.tmp"]) ≠ some (.link target))
    ∧ ∃ report w', generate cleanConfig ⟨staleTree, ""⟩ = (.ok report, w')
      ∧ AllWritten report.results ∧ ∃ files here names modules,
        findFiles cleanConfig staleTree = .ok files
        ∧ emptyOutTree.Lands cleanConfig.outputRoot here names
        ∧ CleanOutput cleanConfig files emptyOutTree report modules (here ++ names) w'.tree := by
  have hwell : staleTree.WellFormed := by decide
  have hreturn : emptyOutTree.NoReturn cleanConfig.outputRoot :=
    FileTree.noReturn_of_notMem (by decide)
  have hlink : ∀ here names, emptyOutTree.Lands cleanConfig.outputRoot here names →
      ∀ target, emptyOutTree.get? (here ++ names ++ ["Cargo.tmp"]) ≠ some (.link target) :=
    fun _ _ _ target => FileTree.noLink_of_entries (by simp [emptyOutTree]) _ target
  have hfiles : findFiles cleanConfig staleTree = .ok [underscoreFile] := by
    rw [findFiles_schemas (by decide) rfl rfl rfl]
    rfl
  have htree : (cleaned cleanConfig staleTree).2 = emptyOutTree := by rw [cleaned_staleTree]
  obtain ⟨report, w', hproduce, hwritten⟩ : ∃ report w',
      produce cleanConfig [underscoreFile] ⟨emptyOutTree, ""⟩ = (.ok report, w')
        ∧ AllWritten report.results := produce_emptyOutTree rfl rfl
  have hrun : generate cleanConfig ⟨staleTree, ""⟩ = (.ok report, w') := by
    rw [generate_eq, hfiles]
    dsimp only
    rw [cleaned_staleTree]
    exact hproduce
  have hexact := clean_run_exact (w := ⟨staleTree, ""⟩) rfl rfl hwell (htree.symm ▸ hreturn)
    (htree.symm ▸ hlink) hrun hwritten
  dsimp only at hexact
  rw [htree] at hexact
  exact ⟨rfl, rfl, hwell, hreturn, hlink, report, w', hrun, hwritten, hexact⟩

/-! ## What a clean run may leave -/

/-- A clean run that finds no files leaves the file at the top and the manifest. -/
theorem generate_bare {config : Config} (hdry : config.dryRun = false) {t t₀ t₁ t₂ : FileTree}
    {shown : String} (hfiles : findFiles config t = .ok [])
    (hcleaned : cleaned config t = (.ok (), t₀))
    (htop : writeFiles config.outputRoot [(Crate.bareTop.path, Crate.bareTop.contents)] t₀
      = (.ok (), t₁))
    (hlast : writeFiles config.outputRoot [(["Cargo.toml"], manifest config)] t₁ = (.ok (), t₂)) :
    generate config ⟨t, shown⟩ = (.ok (.ofResults []), ⟨t₂, shown⟩) := by
  have hfiles' : findFiles config (⟨t, shown⟩ : World).tree = .ok [] := hfiles
  rw [generate_nil hfiles' hcleaned, writeLayout_of_writeFiles (by simp [hdry]) Crate.layOut_nil htop
    hlast]

/-! ### Back out of a directory that is not there -/

def backConfig : Config := { returnConfig with clean := true }

/-- A stale source lies where the output root leads. -/
def backTree : FileTree :=
  ⟨[], [(["f"], .directory), (["f", "src"], .directory), (["f", "src", "stale.rs"], .file #[]),
    (["schemas"], .directory)], []⟩

/-- The tree once the directory on the way is made. -/
def backTreeMade : FileTree :=
  ⟨[], [(["f"], .directory), (["f", "src"], .directory), (["f", "src", "stale.rs"], .file #[]),
    (["schemas"], .directory), (["x"], .directory)], []⟩

/-- The clean-up finds nothing to remove. -/
theorem cleaned_backTree : cleaned backConfig backTree = (.ok (), backTree) := by
  have hroot : sourceRoot backConfig = "x/../f/src" := by decide
  have hmissing := (locate_return (t := backTree) rfl rfl true).1 "x/../f/src" (by simp)
  rw [cleaned, if_pos (by decide), hroot, FileTree.removeTree_apply, if_neg]
  rw [FileTree.exists?, FileTree.entryAt?, hmissing]
  decide

/-- Once the directory is made, the path leads back out of it and to the stale source. -/
theorem backTreeMade_there :
    ∀ path ∈ ["x/../f/src", "x/../f", "x/.."], backTreeMade.isDirectory path = true := by
  have hname : FileTree.IsName "x" ∧ FileTree.IsName "f" ∧ FileTree.IsName "src" := by decide
  have hpieces : FileTree.Path.pieces "x/../f/src" = ["x", "..", "f", "src"]
      ∧ FileTree.Path.pieces "x/../f" = ["x", "..", "f"]
      ∧ FileTree.Path.pieces "x/.." = ["x", ".."] := by decide
  have hback : ∀ {rest goal}, FileTree.Passes backTreeMade linkLimit [] rest linkLimit goal →
      FileTree.Passes backTreeMade linkLimit [] ("x" :: ".." :: rest) linkLimit goal := fun later =>
    .into hname.1 rfl (.up later)
  simp only [List.forall_mem_cons]
  refine ⟨?_, ?_, ?_, fun _ h => (List.not_mem_nil h).elim⟩
  · refine FileTree.isDirectory_passes.mpr ⟨by decide, linkLimit, ["f", "src"], ?_⟩
    rw [hpieces.1]
    exact hback (.into hname.2.1 rfl (.into hname.2.2 rfl (.here _ _)))
  · refine FileTree.isDirectory_passes.mpr ⟨by decide, linkLimit, ["f"], ?_⟩
    rw [hpieces.2.1]
    exact hback (.into hname.2.1 rfl (.here _ _))
  · refine FileTree.isDirectory_passes.mpr ⟨by decide, linkLimit, [], ?_⟩
    rw [hpieces.2.2]
    exact hback (.here _ _)

/-- The first file is written as if the directory on the way had been there. -/
theorem writeTop_backTree (contents : String) :
    writeFiles backConfig.outputRoot [(Crate.bareTop.path, contents)] backTree
      = writeFiles backConfig.outputRoot [(Crate.bareTop.path, contents)] backTreeMade := by
  have hpath : join backConfig.outputRoot Crate.bareTop.path = "x/../f/src/lib.rs" := by decide
  have habove : FileTree.Path.parent? "x/../f/src/lib.rs" = some "x/../f/src" := by decide
  have hinsert : backTree.insert ["x"] .directory = backTreeMade := by decide
  have hmake : FileTree.makeDirectories "x/../f/src" backTree = (.ok (), backTreeMade) := by
    rw [FileTree.makeDirectories, ancestors_return]
    exact FileTree.makeDirectoryIn_made (locate_return rfl rfl false).1
      (hinsert ▸ makeDirectory_return rfl rfl) backTreeMade_there
  have hmake' : FileTree.makeDirectories "x/../f/src" backTreeMade = (.ok (), backTreeMade) :=
    FileTree.makeDirectories_here (backTreeMade_there _ (by simp))
  have hparent : FileTree.makeParent "x/../f/src/lib.rs" backTree
      = FileTree.makeParent "x/../f/src/lib.rs" backTreeMade := by
    have hsome : ¬"x/../f/src".isEmpty = true := by decide
    rw [makeParent_apply, makeParent_apply, habove]
    dsimp only
    rw [if_neg hsome, if_neg hsome, hmake, hmake']
  rw [writeFiles, FileTree.bind_apply, FileTree.bind_apply, hpath, replaceFile, FileTree.bind_apply,
    FileTree.bind_apply, hparent]

/-- The stale source was not removed, and then it was found. -/
theorem stale_source_stays : ∃ w', generate backConfig ⟨backTree, ""⟩ = (.ok (.ofResults []), w')
    ∧ w'.tree.directoryAt? (sourceRoot backConfig) = some ["f", "src"]
    ∧ w'.tree.get? ["f", "src", "stale.rs"] = some (.file #[]) := by
  have hname : FileTree.IsName "x" ∧ FileTree.IsName "f" := by decide
  have hreaches : FileTree.Reaches backTreeMade backConfig.outputRoot ["f"] [] :=
    ⟨["x", "..", "f"], [], linkLimit, by decide, .into hname.1 rfl (.up (.into hname.2 rfl (.here _ _))),
      by simp, rfl⟩
  obtain ⟨hfooting, hclear⟩ := clear_of_dotted (by decide) hreaches rfl (by decide) rfl
  have htop : ∀ x ∈ [(Crate.bareTop.path, Crate.bareTop.contents)],
      IsSourceFile x.1 ∧ Reachable backConfig.outputRoot [] x.1 :=
    List.forall_mem_singleton.mpr ⟨⟨["src"], _, rfl, .inr (.inl rfl), by decide⟩, by decide⟩
  have hlast : ∀ x ∈ [(["Cargo.toml"], manifest backConfig)],
      IsSourceFile x.1 ∧ Reachable backConfig.outputRoot [] x.1 :=
    List.forall_mem_singleton.mpr ⟨⟨[], _, rfl, .inl rfl, by decide⟩, by decide⟩
  obtain ⟨t₁, hrun, hwrote⟩ := writeFiles_succeeds hfooting hclear (fun _ => id) htop
  obtain ⟨t₂, hrun', hwrote'⟩ := writeFiles_succeeds (hwrote.footing hfooting)
    (hclear.wrote (fun _ => id) hwrote) (fun _ => id) hlast
  have hboth := hwrote.trans hwrote'
  have hfiles : findFiles backConfig backTree = .ok [] := by
    rw [findFiles_schemas (by decide) rfl rfl rfl]
    rfl
  refine ⟨⟨t₂, ""⟩, generate_bare rfl hfiles cleaned_backTree (writeTop_backTree _ ▸ hrun) hrun', ?_, ?_⟩
  · obtain ⟨left, hpasses⟩ := (hboth.footing hfooting).reaches.nameless
    have hsrc := FileTree.entryAt?_below hpasses isName_src (by decide) (hboth.get_directory rfl)
      (by simp)
    rw [FileTree.directoryAt?, sourceRoot, hsrc]
    rfl
  · have hstale : t₂.get? (["f"] ++ ([] ++ (["src"] ++ ["stale.rs"])))
        = backTreeMade.get? (["f"] ++ ([] ++ (["src"] ++ ["stale.rs"]))) :=
      hboth.get_foreign (by decide) (by decide)
    exact hstale

/-! ### A link in the place of a temporary file -/

/-- Where a link lies in the place of the temporary file, the text is written to where it leads, and the
link is moved. -/
theorem replaceFile_through {t : FileTree} {path above dir name temp target : String}
    {names : List String} (h : FilePath path above names dir name temp)
    (hdirs : t.HasDirectories (names ++ [dir])) {place : FileTree.Place}
    (hlink : t.get? (t.workingDirectory ++ (names ++ [dir]) ++ [temp]) = some (.link target))
    (hgoal : t.locate true (FileTree.Path.temporary path) = .ok (.free place false))
    (hplace : t.get? place = none)
    (hfree : t.get? (t.workingDirectory ++ (names ++ [dir]) ++ [name]) = none)
    (hne : place ≠ t.workingDirectory ++ (names ++ [dir]) ++ [name]) (hcalm : t.Calm) (text : String) :
    replaceFile path text t = (.ok (), ((t.insert place (.file text.toUTF8.data)).erase
      (t.workingDirectory ++ (names ++ [dir]) ++ [temp])).insert
        (t.workingDirectory ++ (names ++ [dir]) ++ [name]) (.link target)) := by
  let t₁ := t.insert place (.file text.toUTF8.data)
  have hsome := FileTree.ne_nil_of_free hplace
  have hwrite : FileTree.writeFile (FileTree.Path.temporary path) text.toUTF8.data t = (.ok (), t₁) := by
    rw [FileTree.writeFile_apply, hgoal]
    exact FileTree.store_calm _ _ hcalm
  have hkept : ∀ {p entry}, t.get? p = entry → p ≠ place → t₁.get? p = entry := fun hp hne =>
    (FileTree.get?_insert hsome _).trans ((if_neg hne).trans hp)
  have hdirs₁ : t₁.HasDirectories (names ++ [dir]) := hasDirectories_insert hdirs hplace
  have hfound : t₁.locate false (FileTree.Path.temporary path)
      = .ok (.found (t.workingDirectory ++ (names ++ [dir]) ++ [temp]) (.link target)) := by
    have hlink₁ : t₁.get? (t₁.workingDirectory ++ (names ++ [dir]) ++ [temp]) = some (.link target) :=
      hkept hlink fun he => by cases (he ▸ hlink).symm.trans hplace
    rw [FileTree.locate_last h.temporary hdirs₁, FileTree.walk_last h.temporary.last (by simp), hlink₁]
    rfl
  have hfree₁ : t₁.locate false path
      = .ok (.free (t.workingDirectory ++ (names ++ [dir]) ++ [name]) false) :=
    FileTree.locate_free h.target hdirs₁ (hkept hfree hne.symm)
  rw [replaceFile, FileTree.bind_apply, makeParent_there h hdirs]
  dsimp only
  rw [FileTree.bind_apply, at_apply, hwrite]
  dsimp only
  rw [at_apply, FileTree.rename_found hfound (by simp), h.plain, hfree₁]
  dsimp only
  rw [FileTree.moveTo_apply _ _ _ h.plain]

/-- The temporary file of the manifest is a link to a name among the sources. -/
def linkTree : FileTree :=
  ⟨[], [(["out"], .directory), (["out", "Cargo.tmp"], .link "src/extra.rs"), (["schemas"], .directory)],
    []⟩

theorem linkTree_lands : linkTree.Lands cleanConfig.outputRoot ["out"] [] := by
  have hname : FileTree.IsName "out" := by decide
  exact ⟨⟨["out"], [], linkLimit, by decide, .into hname rfl (.here _ _), by simp, rfl⟩, by simp⟩

/-- There are no sources yet. -/
theorem cleaned_linkTree : cleaned cleanConfig linkTree = (.ok (), linkTree) := by
  have hlead : FileTree.LeadsTo "out/src" ["out"] "src" := by decide
  have hroot : sourceRoot cleanConfig = "out/src" := by decide
  have hlocate : linkTree.locate true "out/src" = .ok (.free ["out", "src"] false) :=
    FileTree.locate_free hlead (by decide) rfl
  rw [cleaned, if_pos (by decide), hroot, FileTree.removeTree_apply, if_neg]
  rw [FileTree.exists?, FileTree.entryAt?, hlocate]
  decide

/-- The file at the top is written. -/
theorem writeTop_linkTree : ∃ t₁,
    writeFiles cleanConfig.outputRoot [(Crate.bareTop.path, Crate.bareTop.contents)] linkTree
      = (.ok (), t₁)
    ∧ Wrote ["out"] [] IsCodeFile linkTree t₁ ∧ t₁.get? ["out", "src"] = some .directory := by
  obtain ⟨hfooting, hfree⟩ := footing_of_cleared (by decide) linkTree_lands fun _ => rfl
  have hclear : Clear IsCodeFile linkTree ["out"] [] := by
    refine ⟨fun dir hdir q hq bytes hget => ?_, fun p hp q hq hget => ?_, rfl⟩
    · have hmem := FileTree.mem_of_get? (by simp) hget
      simp [linkTree] at hmem
    · obtain ⟨r, -, rfl⟩ := hp.pair hq
      cases hget.symm.trans (hfree r)
  have htop : IsCodeFile Crate.bareTop.path :=
    ⟨⟨["src"], _, rfl, .inr (.inl rfl), by decide⟩, rfl⟩
  obtain ⟨t₁, hrun, hwrote⟩ := writeFiles_succeeds hfooting hclear (fun _ hp => hp.1)
    (List.forall_mem_singleton.mpr ⟨htop, by decide⟩ :
      ∀ x ∈ [(Crate.bareTop.path, Crate.bareTop.contents)],
        IsCodeFile x.1 ∧ Reachable cleanConfig.outputRoot [] x.1)
  have hbare : Crate.layOut (([] : List Named).map fun b => .ofResource b.1 b.2) = .ok [Crate.bareTop] :=
    Crate.layOut_nil
  have hproduced : Produced ["out"] [] (sourcesOf [] [Crate.bareTop]) linkTree t₁ :=
    layout_produced (by simp) hbare hfooting (fun _ => id) hrun
  exact ⟨t₁, hrun, hwrote, sourceRoot_made hproduced hfooting hbare⟩

/-- The tree once a text is written through the link, and the link moved. -/
def throughLink (t : FileTree) (text : String) : FileTree :=
  ((t.insert ["out", "src", "extra.rs"] (.file text.toUTF8.data)).erase ["out", "Cargo.tmp"]).insert
    ["out", "Cargo.toml"] (.link "src/extra.rs")

theorem get?_throughLink (t : FileTree) (text : String) {p : FileTree.Place}
    (hne : p ≠ ["out", "Cargo.tmp"]) (hne' : p ≠ ["out", "Cargo.toml"]) : (throughLink t text).get? p
      = if p = ["out", "src", "extra.rs"] then some (.file text.toUTF8.data) else t.get? p := by
  rw [throughLink, FileTree.get?_insert (by simp), if_neg hne', FileTree.get?_erase_of_ne hne,
    FileTree.get?_insert (by simp)]

/-- Then the manifest is written where the link leads. -/
theorem writeManifest_through {t : FileTree} (hhere : t.workingDirectory = [])
    (hout : t.get? ["out"] = some .directory) (hsrc : t.get? ["out", "src"] = some .directory)
    (hlink : t.get? ["out", "Cargo.tmp"] = some (.link "src/extra.rs"))
    (hextra : t.get? ["out", "src", "extra.rs"] = none) (hcargo : t.get? ["out", "Cargo.toml"] = none)
    (hcalm : t.Calm) (text : String) :
    writeFiles "out" [(["Cargo.toml"], text)] t = (.ok (), throughLink t text) := by
  have hpath : FilePath "out/Cargo.toml" "out" [] "out" "Cargo.toml" "Cargo.tmp" :=
    ⟨by decide, by decide, by decide, by decide, by decide⟩
  have hplace : ∀ name, t.workingDirectory ++ ([] ++ ["out"]) ++ [name] = ["out", name] := fun _ => by
    rw [hhere]
    rfl
  have hdirs : t.HasDirectories ([] ++ ["out"]) := by
    intro n hn
    obtain rfl : n = 0 := by simpa using hn
    rw [hhere]
    exact hout
  have hgoal : t.locate true (FileTree.Path.temporary "out/Cargo.toml")
      = .ok (.free ["out", "src", "extra.rs"] false) := by
    have hname : FileTree.IsName "src" ∧ FileTree.IsName "extra.rs" := by decide
    have hlimit : linkLimit = 39 + 1 := rfl
    have hpieces : FileTree.Path.pieces "src/extra.rs" = ["src", "extra.rs"] := by decide
    have hsrc' : t.get? (["out"] ++ ["src"]) = some .directory := hsrc
    have hextra' : t.get? (["out"] ++ ["src"] ++ ["extra.rs"]) = none := hextra
    rw [FileTree.locate_last hpath.temporary hdirs, FileTree.walk_name hpath.temporary.last, hplace,
      hlink, hlimit, hhere]
    dsimp only
    rw [if_neg (by decide), if_neg (by decide), hpieces]
    show t.walk true 39 ["out"] ["src", "extra.rs"] = _
    rw [FileTree.walk_name hname.1, hsrc']
    dsimp only
    rw [FileTree.walk_name hname.2, hextra']
    rfl
  have hreplace := replaceFile_through hpath hdirs (hplace _ ▸ hlink) hgoal hextra (hplace _ ▸ hcargo)
    (by rw [hplace]; decide) hcalm text
  have hjoin : join "out" ["Cargo.toml"] = "out/Cargo.toml" := by decide
  rw [hplace, hplace] at hreplace
  rw [writeFiles, FileTree.bind_apply, hjoin, hreplace]
  rfl

/-- A clean run may leave the manifest among the sources. -/
theorem manifest_among_sources : ∃ w', generate cleanConfig ⟨linkTree, ""⟩ = (.ok (.ofResults []), w')
    ∧ w'.tree.directoryAt? (sourceRoot cleanConfig) = some ["out", "src"]
    ∧ w'.tree.get? ["out", "src", "extra.rs"] = some (.file (manifest cleanConfig).toUTF8.data) := by
  obtain ⟨t₁, hrun, hwrote, hsrc⟩ := writeTop_linkTree
  have hhere : t₁.workingDirectory = [] := hwrote.directory
  have hout : t₁.get? ["out"] = some .directory := hwrote.get_directory rfl
  have hextra : t₁.get? (["out"] ++ ([] ++ (["src"] ++ ["extra.rs"])))
      = linkTree.get? (["out"] ++ ([] ++ (["src"] ++ ["extra.rs"]))) :=
    hwrote.get_foreign (by decide) (by decide)
  have hcargo : t₁.get? (["out"] ++ ([] ++ ["Cargo.toml"])) = linkTree.get? ["out", "Cargo.toml"] :=
    hwrote.get_pair ⟨[], _, rfl, .inl rfl, by decide⟩ (.inl rfl) fun hcode => absurd hcode.2 (by decide)
  have hlast := writeManifest_through hhere hout hsrc (hwrote.get_link_iff.mpr rfl) hextra hcargo
    (hwrote.calm rfl) (manifest cleanConfig)
  have hfiles : findFiles cleanConfig linkTree = .ok [] := by
    rw [findFiles_schemas (by decide) rfl rfl rfl]
    rfl
  have hpasses : FileTree.Passes (throughLink t₁ (manifest cleanConfig)) linkLimit [] ["out", "src"]
      linkLimit ["out", "src"] := by
    have hname : FileTree.IsName "out" ∧ FileTree.IsName "src" := by decide
    refine .into hname.1 ((get?_throughLink _ _ (by decide) (by decide)).trans ?_)
      (.into hname.2 ((get?_throughLink _ _ (by decide) (by decide)).trans ?_) (.here _ _))
    · exact (if_neg (by decide)).trans hout
    · exact (if_neg (by decide)).trans hsrc
  have hroot : (throughLink t₁ (manifest cleanConfig)).directoryAt? (sourceRoot cleanConfig)
      = some ["out", "src"] := by
    have hpieces : FileTree.Path.pieces (sourceRoot cleanConfig) = ["out", "src"] := by decide
    have hstart : startOf (throughLink t₁ (manifest cleanConfig)).workingDirectory
        (sourceRoot cleanConfig) = [] := (if_neg (by decide)).trans hhere
    refine FileTree.directoryAt?_passes.mpr ⟨by decide, linkLimit, ?_⟩
    rw [hpieces, hstart]
    exact hpasses
  exact ⟨⟨_, ""⟩, generate_bare rfl hfiles cleaned_linkTree hrun hlast, hroot,
    (get?_throughLink _ _ (by decide) (by decide)).trans (if_pos rfl)⟩

/-! ### Both -/

/-- Without either condition a clean run without failures to write may leave something else below the
directory of all sources than the files it reports and the module files around them. -/
theorem stale_sources_stay : backConfig.clean = true ∧ backConfig.dryRun = false
    ∧ backTree.WellFormed ∧ cleanConfig.clean = true ∧ cleanConfig.dryRun = false
    ∧ linkTree.WellFormed ∧ Crate.layOut [] = .ok [Crate.bareTop]
    ∧ (∃ w', generate backConfig ⟨backTree, ""⟩ = (.ok (.ofResults []), w')
      ∧ w'.tree.directoryAt? (sourceRoot backConfig) = some ["f", "src"]
      ∧ w'.tree.get? (["f"] ++ ["src", "stale.rs"]) = some (.file #[])
      ∧ ∀ x ∈ sourcesOf [] [Crate.bareTop], x.1 ≠ ["src", "stale.rs"])
    ∧ ∃ w', generate cleanConfig ⟨linkTree, ""⟩ = (.ok (.ofResults []), w')
      ∧ w'.tree.directoryAt? (sourceRoot cleanConfig) = some ["out", "src"]
      ∧ w'.tree.get? (["out"] ++ ["src", "extra.rs"])
        = some (.file (manifest cleanConfig).toUTF8.data)
      ∧ ∀ x ∈ sourcesOf [] [Crate.bareTop], x.1 ≠ ["src", "extra.rs"] := by
  have hother : ∀ p, p ≠ Crate.bareTop.path → ∀ x ∈ sourcesOf [] [Crate.bareTop], x.1 ≠ p := by
    intro p hp x hx
    obtain rfl : x = (Crate.bareTop.path, Crate.bareTop.contents) := List.mem_singleton.mp hx
    exact hp.symm
  obtain ⟨w₁, hstale, hroot, hget⟩ := stale_source_stays
  obtain ⟨w₂, hextra, hroot', hget'⟩ := manifest_among_sources
  exact ⟨rfl, rfl, by decide, rfl, rfl, by decide, Crate.layOut_nil,
    ⟨w₁, hstale, hroot, hget, hother _ (by decide)⟩, w₂, hextra, hroot', hget', hother _ (by decide)⟩

end RestForge.Run
