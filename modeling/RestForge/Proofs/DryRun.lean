import RestForge.Proofs.ClearOutput

/-!
# What a dry run predicts

* `generate_dry_tree`: a dry run changes no file.
* `Outcome.unlisted`, `Report.unlisted`: an outcome and a report without the files that were written.
* `generateAll_judged`: generation without failures to write ends as it does on paper.
* `dry_run_predicts`: a dry run reports what the real run does.
* `emptyOutTree`: a tree in which nothing is in the way of the real run.
-/

set_option autoImplicit false

namespace RestForge.Run

open Naming Emit Schema
open Crate (ResourceEntry)

/-! ## Nothing is written -/

section Dry

variable {config : Config} (hdry : config.dryRun = true)

include hdry

theorem writeLayout_dry_tree (entries : List ResourceEntry) (w : World) :
    (writeLayout config entries w).2.tree = w.tree := by
  unfold writeLayout
  rw [running_bind]
  cases Crate.layOut entries with
  | error n => rfl
  | ok files =>
    rw [lift_ok]
    dsimp only
    rw [if_pos hdry]
    rfl

theorem cleaned_dry (tree : FileTree) : cleaned config tree = (.ok (), tree) := by
  rw [cleaned, if_neg (by simp [hdry])]

/-- However it ends. -/
theorem generate_dry_tree (w : World) : (generate config w).2.tree = w.tree := by
  rw [generate_eq]
  cases findFiles config w.tree with
  | error flaw => rfl
  | ok files =>
    dsimp only
    rw [cleaned_dry hdry]
    dsimp only
    rw [produce, generateAll_dry hdry]
    cases judgeAll (prepare config files w.tree).1 (prepare config files w.tree).2 with
    | error e => rfl
    | ok results =>
      have htree := writeLayout_dry_tree hdry (results.filterMap Prod.snd) w
      dsimp only
      rcases hlayout : writeLayout config (results.filterMap Prod.snd) w with ⟨e | u, w'⟩ <;>
        rw [hlayout] at htree <;> exact htree

end Dry

/-! ## What is reported -/

def Outcome.unlisted : Outcome → Outcome
  | .generated dotted _ => .generated dotted []
  | outcome => outcome

def FileResult.unlisted (x : FileResult) : FileResult := { x with outcome := x.outcome.unlisted }

def Report.unlisted (report : Report) : Report :=
  { report with results := report.results.map FileResult.unlisted }

/-- The listed files are not counted. -/
theorem ofResults_unlisted (results : List FileResult) :
    Report.ofResults (results.map FileResult.unlisted) = (Report.ofResults results).unlisted := by
  have hadd : ∀ (s : Summary) (x : FileResult), s.add x.unlisted.outcome = s.add x.outcome := by
    rintro s ⟨file, _ | _ | _⟩ <;> rfl
  rw [Report.unlisted, Report.ofResults, Report.ofResults, List.foldl_map]
  simp only [hadd]

section Real

variable {config : Config}

theorem OneEnd.judged {r : Resource} {t t' : NameTable} {tree tree' : FileTree} {outcome : Outcome}
    {entry : Option ResourceEntry} (h : OneEnd config r t t' tree tree' outcome entry)
    (hwritten : ∀ d f, outcome ≠ .errored d (.write f)) :
    judge r (resolve r t).1 = .ok (outcome.unlisted, entry) ∧ t' = (resolve r t).2 := by
  cases h with
  | collided c hresolve _ =>
    rw [hresolve]
    exact ⟨rfl, rfl⟩
  | unwritten names _ artifacts _ f _ => exact absurd rfl (hwritten _ _)
  | generated names hresolve artifacts hassembled paths _ =>
    rw [hresolve, judge, hassembled]
    exact ⟨rfl, rfl⟩

/-- What became of the files does not tell a run without failures to write from one on paper. -/
theorem generateAll_judged {tree : FileTree} {prepared : List (SchemaFile × Prepared)}
    (hread : ∀ y ∈ prepared, IsReadAs tree y.1 y.2) {t : NameTable} {w w' : World}
    {results : Results} (h : generateAll config prepared t w = (.ok results, w'))
    (hwritten : AllWritten (results.map Prod.fst)) :
    judgeAll prepared t = .ok (results.map fun x => (x.1.unlisted, x.2)) := by
  induction prepared generalizing t w results with
  | nil =>
    cases h
    rfl
  | cons y rest ih =>
    have hread' := fun z hz => hread z (List.mem_cons_of_mem _ hz)
    obtain ⟨file, outcome | r⟩ := y
    · obtain ⟨others, hrest, rfl⟩ := generateAll_done h
      have hunlisted : outcome.unlisted = outcome := by
        cases hread _ List.mem_cons_self <;> rfl
      rw [judgeAll, ih hread' hrest fun x hx => hwritten x (List.mem_cons_of_mem _ hx),
        List.map_cons, FileResult.unlisted, hunlisted]
      rfl
    · obtain ⟨outcome, entry, t₁, w₁, others, hend, -, hrest, rfl⟩ := generateAll_ready h
      obtain ⟨hjudged, rfl⟩ := hend.judged (hwritten _ List.mem_cons_self)
      rw [judgeAll, hjudged]
      refine except_bind_ok_iff.mpr ⟨_, rfl, except_bind_ok_iff.mpr ⟨_, ih hread' hrest
        fun x hx => hwritten x (List.mem_cons_of_mem _ hx), rfl⟩⟩

theorem layOut_of_writeLayout {entries : List ResourceEntry} {w w' : World}
    (h : writeLayout config entries w = (.ok (), w')) : ∃ files, Crate.layOut entries = .ok files := by
  unfold writeLayout at h
  rw [running_bind] at h
  cases hlayout : Crate.layOut entries with
  | error n =>
    rw [hlayout] at h
    cases h
  | ok files => exact ⟨files, rfl⟩

end Real

/-- **A dry run predicts the real run.** A dry run leaves all files as they are, however it ends. Where
a run that does not clean up first ends with a report in which no resource failed to be written, the
dry run with the same configuration ends with the same report, but that no written files are listed. -/
theorem dry_run_predicts (config : Config) (w : World) :
    (generate { config with dryRun := true } w).2.tree = w.tree
    ∧ ∀ report w', config.clean = false →
      generate { config with dryRun := false } w = (.ok report, w') → AllWritten report.results →
      (generate { config with dryRun := true } w).1
        = .ok report.unlisted := by
  refine ⟨generate_dry_tree rfl w, fun report w' hclean hrun hwritten => ?_⟩
  obtain ⟨files, tree, results, w₁, hfiles, hcleaned, hall, hlayout, rfl⟩ := generate_ok hrun
  have hkept : cleaned { config with dryRun := false } w.tree = (.ok (), w.tree) := by
    rw [cleaned, if_neg (by simp [hclean])]
  obtain rfl : tree = w.tree := (congrArg Prod.snd (hcleaned.symm.trans hkept))
  have hjudged := generateAll_judged (fun y hy => readAll_readAs hy) hall hwritten
  obtain ⟨laid, hlaid⟩ := layOut_of_writeLayout hlayout
  have hfound : findFiles { config with dryRun := true } w.tree = .ok files := hfiles
  have hdry : (generate { config with dryRun := true } w).1 = _ := generate_dry rfl hfound
  rw [hdry]
  refine except_bind_ok_iff.mpr ⟨_, hjudged, conclude_ok_iff.mpr ⟨?_, laid, ?_⟩⟩
  · rw [← ofResults_unlisted, List.map_map, List.map_map]
    rfl
  · rw [List.filterMap_map]
    exact hlaid

/-! ## A run on paper and on disk -/

/-- The output goes to a directory in which nothing is. -/
def emptyOutTree : FileTree :=
  ⟨[], [(["out"], .directory), (["schemas"], .directory),
    (["schemas", "b.json"], .file underscoreText.toUTF8.data)], []⟩

theorem prepare_emptyOutTree (config : Config) : prepare config [underscoreFile] emptyOutTree
    = ([(underscoreFile, .ready underscoreResource)], freeTable) :=
  readAll_underscoreFile (FileTree.locate_file blocked_schemas.2 (by decide) rfl) config.maxDepth

theorem emptyOutTree_clear : Footing IsSourceFile emptyOutTree "out" ["out"] []
    ∧ Clear IsSourceFile emptyOutTree ["out"] [] := by
  have hname : FileTree.IsName "out" := by decide
  have hreaches : FileTree.Reaches emptyOutTree "out" ["out"] [] :=
    ⟨["out"], [], FileTree.linkLimit, by decide, .into hname rfl (.here _ _), by simp, rfl⟩
  exact clear_of_dotted (by decide) hreaches rfl (by decide) rfl

/-- The module files around the only resource. -/
theorem layOut_underscoreResource : ∃ modules,
    Crate.layOut [.ofResource underscoreResource underscoreNames] = .ok modules
      ∧ ∀ f ∈ modules, f.path ∈ [["src", "lib.rs"], ["src", "config", "mod.rs"],
        ["src", "config", "a_b", "mod.rs"]] := by
  refine ⟨_, rfl, fun f hf => ?_⟩
  rw [Crate.moduleFiles, List.mem_mergeSort] at hf
  have hpath := List.mem_map_of_mem (f := Crate.ModuleFile.path) hf
  exact hpath

theorem reachable_underscoreFiles : ∀ p ∈ [["Cargo.toml"], ["src", "lib.rs"],
    ["src", "config", "mod.rs"], ["src", "config", "a_b", "mod.rs"]]
      ++ ArtifactKind.all.map (fun k => resourceDir underscoreResource ++ [k.fileName]),
    Reachable "out" [] p := by decide +kernel

/-- With nothing in the way the only resource is generated. -/
theorem produce_emptyOutTree {config : Config} (hroot : config.outputRoot = "out")
    (hdry : config.dryRun = false) : ∃ report w',
      produce config [underscoreFile] ⟨emptyOutTree, ""⟩ = (.ok report, w')
        ∧ AllWritten report.results := by
  obtain ⟨hfooting, hclear⟩ := emptyOutTree_clear
  obtain ⟨modules, hlayout, hmodules⟩ := layOut_underscoreResource
  have hprepare := prepare_emptyOutTree config
  have hjudged : judgeAll (prepare config [underscoreFile] emptyOutTree).1
      (prepare config [underscoreFile] emptyOutTree).2
        = .ok [(⟨underscoreFile, .generated "config.a_b" []⟩,
          some (.ofResource underscoreResource underscoreNames))] := by
    rw [hprepare, judgeAll, judge_underscoreResource]
    rfl
  have hfooting' : Footing IsSourceFile emptyOutTree config.outputRoot ["out"] [] := by
    rw [hroot]
    exact hfooting
  have hreach := reachable_underscoreFiles
  rw [← hroot] at hreach
  refine produce_succeeds (by simp [hdry]) hfooting' hclear hjudged hlayout (fun file r hr p hp => ?_)
    (fun f hf => hreach _ ?_) (hreach _ (by simp))
  · rw [hprepare, List.mem_singleton] at hr
    cases hr
    obtain ⟨k, rfl⟩ := hp
    refine hreach _ (List.mem_append_right _ (List.mem_map.mpr ⟨k, ?_, rfl⟩))
    cases k <;> decide
  · exact List.mem_append_left _ (List.mem_cons_of_mem _ (hmodules f hf))

/-- The real run generates the only resource, and the dry run says so. -/
theorem dry_run_predicts_one : ∃ report w', outConfig.clean = false
    ∧ generate { outConfig with dryRun := false } ⟨emptyOutTree, ""⟩ = (.ok report, w')
    ∧ AllWritten report.results
    ∧ (generate { outConfig with dryRun := true } ⟨emptyOutTree, ""⟩).2.tree = emptyOutTree
    ∧ (generate { outConfig with dryRun := true } ⟨emptyOutTree, ""⟩).1
      = .ok report.unlisted := by
  have hfiles : findFiles { outConfig with dryRun := false } emptyOutTree = .ok [underscoreFile] := by
    rw [findFiles_schemas (by decide) rfl rfl rfl]
    rfl
  obtain ⟨report, w', hproduce, hwritten⟩ :
      ∃ report w', produce { outConfig with dryRun := false } [underscoreFile] ⟨emptyOutTree, ""⟩
        = (.ok report, w') ∧ AllWritten report.results := produce_emptyOutTree rfl rfl
  have hrun : generate { outConfig with dryRun := false } ⟨emptyOutTree, ""⟩ = (.ok report, w') := by
    rw [generate_eq, hfiles]
    exact hproduce
  obtain ⟨hsame, hpredicts⟩ := dry_run_predicts outConfig ⟨emptyOutTree, ""⟩
  exact ⟨report, w', rfl, hrun, hwritten, hsame, hpredicts report w' rfl hrun hwritten⟩

end RestForge.Run
