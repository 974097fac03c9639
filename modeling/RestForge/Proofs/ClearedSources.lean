import RestForge.Proofs.SettledRuns

/-!
# What clean-up leaves

* `get?_eraseBelow`: look-up once a place is removed with all below it.
* `Cleared`: only a place and what lies below it was removed; `removeTree_below`: a clean-up does that
  or leaves the tree as it is.
* `sources_removed`: then no sources are left, or none can be written.
* `footing_of_cleared`: where none are left, a run finds its footing.
-/

set_option autoImplicit false

namespace RestForge

/-! ## Look-up -/

namespace KeyedList

variable {κ α : Type} [DecidableEq κ]

theorem get?_filter_keys (keep : κ → Bool) (l : List (κ × α)) (key : κ) :
    get? (l.filter fun e => keep e.1) key = if keep key then get? l key else none := by
  induction l with
  | nil => simp
  | cons e l ih =>
    obtain ⟨k, v⟩ := e
    rw [get?_cons]
    by_cases hk : keep k = true
    · rw [List.filter_cons_of_pos (by simpa using hk), get?_cons, ih]
      by_cases he : key = k
      · rw [if_pos he, if_pos he, he, if_pos hk]
      · rw [if_neg he, if_neg he]
    · rw [List.filter_cons_of_neg (by simpa using hk), ih]
      by_cases he : key = k
      · rw [he, if_neg hk, if_neg hk]
      · rw [if_neg he]

end KeyedList

namespace FileTree

section Erased

variable {t t' : FileTree} {place q : Place}

theorem get?_eraseBelow (hne : place ≠ []) (q : Place) :
    (t.eraseBelow place).get? q = if place <+: q then none else t.get? q := by
  cases q with
  | nil => rw [if_neg fun h => hne (List.prefix_nil.mp h)]; rfl
  | cons name rest =>
    have hlook : (t.eraseBelow place).get? (name :: rest)
        = if (!place.isPrefixOf (name :: rest)) = true then t.get? (name :: rest) else none :=
      KeyedList.get?_filter_keys (fun key => !place.isPrefixOf key) t.entries (name :: rest)
    rw [hlook]
    by_cases h : place <+: name :: rest
    · rw [if_pos h, if_neg (by simpa using h)]
    · rw [if_neg h, if_pos (by simpa [← Bool.not_eq_true] using h)]

/-- Only a place and what lies below it was removed. -/
structure Cleared (t t' : FileTree) (place : Place) : Prop where
  directory : t'.workingDirectory = t.workingDirectory
  places : ∀ q, t'.get? q = if place <+: q then none else t.get? q
  ordered : t.Ordered → t'.Ordered
  entries : ∀ e ∈ t'.entries, e ∈ t.entries

theorem cleared_eraseBelow (hne : place ≠ []) : Cleared t (t.eraseBelow place) place :=
  ⟨rfl, get?_eraseBelow hne, fun h => h.eraseBelow place, fun _ he => (List.mem_filter.mp he).1⟩

/-- Nothing lies below a link. -/
theorem cleared_erase (hwell : t.WellFormed) {target : String}
    (hget : t.get? place = some (.link target)) : Cleared t (t.erase place) place := by
  have hne : place ≠ [] := by
    rintro rfl
    cases hget
  refine ⟨rfl, fun q => ?_, fun h => h.erase place, fun _ he => (List.mem_filter.mp he).1⟩
  by_cases hq : q = place
  · rw [hq, get?_erase_self hne, if_pos (List.prefix_refl place)]
  · rw [get?_erase_of_ne hq]
    split
    · rename_i hpart
      obtain ⟨rest, rfl⟩ := hpart
      have hrest : rest ≠ [] := by
        rintro rfl
        exact hq (List.append_nil place)
      exact (hwell.closedBelow []).free hne (by rw [List.nil_append, hget]; simp) hrest
    · rfl

theorem Cleared.get? (h : Cleared t t' place) {entry : Entry} (hget : t'.get? q = some entry) :
    t.get? q = some entry := by
  rw [h.places] at hget
  split at hget
  · cases hget
  · exact hget

theorem Cleared.wellFormed (h : Cleared t t' place) (hwell : t.WellFormed) : t'.WellFormed := by
  refine ⟨h.ordered hwell.toOrdered, fun e he => hwell.named e (h.entries e he),
    fun p name hp hsome => ?_⟩
  obtain ⟨entry, hentry⟩ := Option.ne_none_iff_exists'.mp hsome
  have habove := hwell.closed p name hp (by rw [h.get? hentry]; simp)
  rw [h.places] at hsome ⊢
  split at hsome
  · exact absurd rfl hsome
  · rename_i hnot
    rw [if_neg fun hpart => hnot (hpart.trans (List.prefix_append _ _)), habove]

end Erased

/-! ## Removing a directory below a root -/

section Removed

variable {t t' : FileTree} {root name : String}

theorem removeTree_apply (path : String) (t : FileTree) : removeTree path t
    = if t.exists? path = true then
        match t.locate false path with
        | .error e => (.error ⟨path, e⟩, t)
        | .ok (.found place (.link _)) => (.ok (), t.erase place)
        | .ok (.found place .directory) => (.ok (), t.eraseBelow place)
        | .ok (.found _ (.file _)) => (.error ⟨path, .notDirectory⟩, t)
        | .ok (.free _ _) => (.error ⟨path, .notFound⟩, t)
      else (.ok (), t) := by
  have hget : (get : Writing FileTree) t = (.ok t, t) := rfl
  have hlook : look false path t = (t.locate false path, t) := rfl
  rw [removeTree, bind_apply, hget]
  dsimp only
  split
  · rw [Run.at_apply, removeAll, bind_apply, hlook]
    rcases t.locate false path with e | (⟨p, _ | _ | _⟩ | ⟨p, b⟩) <;> rfl
  · rfl

/-- A path to a name is looked up in the directory that its root leads to. -/
theorem passes_of_found (hname : IsName name ∧ Path.IsName name) {place : Place} {entry : Entry}
    (h : t.locate false (Path.join root [name]) = .ok (.found place entry)) :
    textFault? (Path.join root [name]) = none
      ∧ ∃ left here, Passes t linkLimit (startOf t.workingDirectory root) (Path.stem root) left here
        ∧ place = here ++ [name] ∧ t.get? place = some entry := by
  have hnames : ∀ n ∈ [name], Path.IsName n := by simpa using hname.2
  cases htext : textFault? (Path.join root [name]) with
  | some e =>
    rw [locate_eq, htext] at h
    cases h
  | none =>
    refine ⟨rfl, ?_⟩
    rw [locate_eq, htext, Path.startOf_join root (by simp) hnames,
      Path.pieces_below root (by simp) hnames] at h
    dsimp only at h
    by_cases hpasses : ∃ left here,
        Passes t linkLimit (startOf t.workingDirectory root) (Path.stem root) left here
    · obtain ⟨left, here, hpasses⟩ := hpasses
      rw [hpasses.walk (.inl (by simp)), walk_last hname.1 (by simp)] at h
      refine ⟨left, here, hpasses, ?_⟩
      cases hget : t.get? (here ++ [name]) with
      | none =>
        rw [hget] at h
        cases h
      | some entry' =>
        rw [hget] at h
        cases h
        exact ⟨rfl, hget⟩
    · have hsome : [name].all String.isEmpty = false := by simpa using hname.2.nonempty
      obtain ⟨e, he⟩ := walk_stuck (fun left here hpasses' => hpasses ⟨left, here, hpasses'⟩) hsome false
      cases he.symm.trans h

/-- A clean-up that ends well has left the tree as it is, for want of anything to remove, or has removed
what the name stands for in the directory that the root leads to. -/
theorem removeTree_below (hwell : t.WellFormed) (hname : IsName name ∧ Path.IsName name)
    (h : removeTree (Path.join root [name]) t = (.ok (), t')) :
    t' = t ∧ t.exists? (Path.join root [name]) = false
      ∨ ∃ left here, Passes t linkLimit (startOf t.workingDirectory root) (Path.stem root) left here
        ∧ Cleared t t' (here ++ [name]) := by
  rw [removeTree_apply] at h
  split at h
  · refine .inr ?_
    rcases hfound : t.locate false (Path.join root [name]) with e | (⟨place, entry⟩ | ⟨place, b⟩) <;>
      rw [hfound] at h
    · cases h
    · obtain ⟨-, left, here, hpasses, rfl, hget⟩ := passes_of_found hname hfound
      refine ⟨left, here, hpasses, ?_⟩
      cases entry with
      | file bytes => cases h
      | link target =>
        cases h
        exact cleared_erase hwell hget
      | directory =>
        cases h
        exact cleared_eraseBelow (by simp)
    · cases h
  · rename_i hnot
    cases h
    exact .inl ⟨rfl, by simpa using hnot⟩

/-- After a clean-up nothing is left where the name stands, or nothing can be written there. -/
theorem sources_removed (hwell : t.WellFormed) (hname : IsName name ∧ Path.IsName name)
    (h : removeTree (Path.join root [name]) t = (.ok (), t')) : t'.WellFormed
      ∧ ∀ left here, Passes t' linkLimit (startOf t'.workingDirectory root) (Path.stem root) left here →
        textFault? (Path.join root [name]) ≠ none
          ∨ Blocked t' (startOf t'.workingDirectory root) (Path.stem root ++ [name])
          ∨ t'.get? (here ++ [name]) = none := by
  obtain ⟨rfl, hnone⟩ | ⟨left', here', hpasses', hcleared⟩ := removeTree_below hwell hname h
  · refine ⟨hwell, fun left here hpasses => ?_⟩
    by_cases htext : textFault? (Path.join root [name]) = none
    · by_cases hget : t'.get? (here ++ [name]) = none
      · exact .inr (.inr hget)
      · refine .inr (.inl ⟨Path.stem root, name, [], left, here, rfl, hpasses, .inr hget, ?_⟩)
        intro left' goal hthere
        have hnames : ∀ n ∈ [name], Path.IsName n := by simpa using hname.2
        have hfound : t'.locate true (Path.join root [name]) = .ok (.found goal .directory) := by
          rw [locate_eq, htext, Path.startOf_join root (by simp) hnames,
            Path.pieces_below root (by simp) hnames]
          exact passes_iff.mpr ⟨left', hthere⟩
        rw [exists?, entryAt?, hfound] at hnone
        cases hnone
    · exact .inl htext
  · refine ⟨hcleared.wellFormed hwell, fun left here hpasses => .inr (.inr ?_)⟩
    have hback : Passes t linkLimit (startOf t.workingDirectory root) (Path.stem root) left here := by
      rw [← hcleared.directory]
      exact hpasses.mono (fun _ => hcleared.get?) fun _ _ => hcleared.get?
    rw [hpasses'.unique hback, hcleared.places, if_pos (List.prefix_refl _)]

end Removed

end FileTree

namespace Run

open Naming Emit Schema
open FileTree (Blocked Lands linkLimit replaceFile startOf textFault?)
open FileTree.Path (join stem)

/-! ## Where no sources are left -/

/-- A file below the directory of all sources. -/
def IsCodeFile (p : List String) : Prop := IsSourceFile p ∧ p.head? = some "src"

theorem isName_src : FileTree.IsName "src" ∧ FileTree.Path.IsName "src" :=
  ⟨by decide, isName_of_dot (by decide) (by decide)⟩

section Code

variable {t : FileTree} {root : String} {here : FileTree.Place} {names p q : List String}

theorem ArtifactOf.isCodeFile {r : Resource} (h : ArtifactOf r p) (hdir : IsSourceDir (resourceDir r)) :
    IsCodeFile p := by
  refine ⟨h.isSourceFile hdir, ?_⟩
  obtain ⟨k, rfl⟩ := h
  rfl

theorem isCodeFile_layout {laid : List Named} (hlaid : ∀ b ∈ laid, IsSpelled b)
    {modules : List Crate.ModuleFile}
    (h : Crate.layOut (laid.map fun b => .ofResource b.1 b.2) = .ok modules) {f : Crate.ModuleFile}
    (hf : f ∈ modules) : IsCodeFile f.path := by
  have hmem : f.path ∈ layoutPaths laid := by
    rw [layoutPaths, h]
    exact List.mem_map_of_mem hf
  refine ⟨isSourceFile_layout hlaid hmem, ?_⟩
  obtain he | ⟨c, mods, he, -⟩ := mem_layoutPaths hlaid hmem <;> rw [he] <;> rfl

theorem IsCodeFile.below (h : IsCodeFile p) : ∃ dir name, p = "src" :: dir ++ [name]
    ∧ IsSourceDir ("src" :: dir) ∧ name ∈ fileNames := by
  obtain ⟨⟨dir, name, rfl, hdir, hname⟩, hsrc⟩ := h
  cases dir with
  | nil =>
    obtain rfl : name = "src" := by simpa using hsrc
    exact absurd hname (by decide)
  | cons first dir =>
    obtain rfl : first = "src" := by simpa using hsrc
    exact ⟨dir, name, rfl, hdir, hname⟩

theorem IsCodeFile.pair (h : IsCodeFile p) (hq : Pair p q) : ∃ r, r ≠ [] ∧ q = "src" :: r := by
  obtain ⟨dir, name, rfl, -, -⟩ := h.below
  obtain rfl | rfl := hq
  · exact ⟨dir ++ [name], by simp, rfl⟩
  · rw [temporaryOf_concat]
    exact ⟨_, by simp, List.cons_append ..⟩

/-- A path below the directory of all sources cannot be looked up where that one cannot. -/
theorem textFault?_src (h : IsCodeFile p) (hq : Pair p q)
    (hfault : textFault? (join root ["src"]) ≠ none) : textFault? (join root q) ≠ none := by
  obtain ⟨hne, hnames⟩ := isName_of_pair h.1 hq
  obtain ⟨r, hr, rfl⟩ := h.pair hq
  have hsrc : ∀ n ∈ ["src"], FileTree.Path.IsName n := by simpa using isName_src.2
  have hpath : join root ("src" :: r) = join root ["src"] ++ ("/" ++ String.intercalate "/" r) := by
    rw [FileTree.Path.join_eq root hne hnames, FileTree.Path.join_eq root (by simp) hsrc,
      ← List.singleton_append, String.intercalate_append_of_ne_nil (by simp) hr]
    simp only [String.append_assoc]
  have hsome : join root ["src"] ≠ "" := by
    intro he
    rw [FileTree.Path.join_eq root (by simp) hsrc] at he
    have hlist := congrArg String.toList he
    rw [String.toList_append] at hlist
    exact absurd (List.append_eq_nil_iff.mp hlist).2 (by decide)
  rw [hpath]
  exact mt (FileTree.textFault?_append hsome) hfault

/-- Where the directory of all sources is not there, nothing is in the way of a link or below it. -/
theorem footing_of_cleared (hwell : t.WellFormed) (hlands : Lands t root here names)
    (hfree : names = [] → t.get? (here ++ ["src"]) = none) : Footing IsCodeFile t root here names
      ∧ ∀ r, t.get? (here ++ (names ++ "src" :: r)) = none := by
  have hclosed := hwell.closedBelow here
  have hbelow : ∀ r, t.get? (here ++ (names ++ "src" :: r)) = none := by
    intro r
    cases names with
    | nil =>
      have hsrc := hfree rfl
      by_cases hr : r = []
      · rw [hr, List.nil_append, hsrc]
      · have hnone := hclosed.free (List.cons_ne_nil "src" []) (by rw [hsrc]; simp) hr
        rwa [List.append_assoc, List.singleton_append] at hnone
    | cons name names =>
      have hname := hlands.free name rfl
      have hnone := hclosed.free (List.cons_ne_nil name []) (by rw [hname]; simp)
        (by simp : names ++ "src" :: r ≠ [])
      rwa [List.append_assoc, List.singleton_append] at hnone
  refine ⟨⟨hlands.reaches, hwell.toOrdered, hclosed, fun dir hdir => ?_,
    fun p hp q hq target hget => ?_⟩, hbelow⟩
  · refine hlands.noLinks hclosed fun hnil q hq hpart target hget => ?_
    subst hnil
    obtain ⟨first, rest, rfl⟩ := List.exists_cons_of_ne_nil hq
    obtain ⟨more, rfl⟩ := hpart
    have hsrc : first = "src" := by
      obtain he | he | ⟨c, mods, he, -⟩ := hdir
      · cases he
      · exact List.head_eq_of_cons_eq he
      · exact List.head_eq_of_cons_eq he
    rw [hsrc] at hget
    cases hget.symm.trans (hbelow rest)
  · obtain ⟨r, -, rfl⟩ := hp.pair hq
    cases hget.symm.trans (hbelow r)

theorem replaceFile_textFault {path : String} (h : textFault? (FileTree.Path.temporary path) ≠ none)
    (text : String) (t : FileTree) : ∃ f t', replaceFile path text t = (.error f, t') := by
  obtain ⟨e, he⟩ := Option.ne_none_iff_exists'.mp h
  rw [replaceFile, FileTree.bind_apply]
  rcases FileTree.makeParent path t with ⟨f | u, t'⟩
  · exact ⟨f, t', rfl⟩
  · refine ⟨⟨FileTree.Path.temporary path, e⟩, t', ?_⟩
    dsimp only
    rw [FileTree.bind_apply, at_apply, FileTree.writeFile_apply, FileTree.locate_eq, he]

end Code

/-! ## Runs that write sources -/

/-- The parts of a layout that was written. -/
theorem writeLayout_ok {config : Config} (hdry : ¬config.dryRun = true)
    {entries : List Crate.ResourceEntry} {w w' : World}
    (h : writeLayout config entries w = (.ok (), w')) : ∃ modules t,
      Crate.layOut entries = .ok modules
      ∧ writeFiles config.outputRoot (modules.map fun f => (f.path, f.contents)) w.tree = (.ok (), t)
      ∧ writeFiles config.outputRoot [(["Cargo.toml"], manifest config)] t = (.ok (), w'.tree) := by
  cases hlayout : Crate.layOut entries with
  | error n =>
    rw [writeLayout, hlayout, running_bind] at h
    cases h
  | ok modules =>
    rw [writeLayout_eq hdry hlayout, running_bind, writing_apply] at h
    rcases hrun : writeFiles config.outputRoot (modules.map fun f => (f.path, f.contents)) w.tree
      with ⟨f | u, t⟩ <;> rw [hrun] at h
    · cases h
    · dsimp only at h
      rw [writing_apply] at h
      dsimp only at h
      rcases hlast : writeFiles config.outputRoot [(["Cargo.toml"], manifest config)] t
        with ⟨f | u, t'⟩ <;> rw [hlast] at h <;> cases h
      exact ⟨modules, t, rfl, hrun, hlast⟩

/-- The file at the top is always among the module files. -/
theorem top_mem_layOut {entries : List Crate.ResourceEntry} {modules : List Crate.ModuleFile}
    (h : Crate.layOut entries = .ok modules) : ∃ f ∈ modules, f.path = ["src", "lib.rs"] := by
  obtain ⟨u, -, hpure⟩ := except_bind_ok h
  cases hpure
  exact ⟨_, List.mem_mergeSort.mpr List.mem_cons_self, rfl⟩

section Unwritable

variable {config : Config} (hdry : ¬config.dryRun = true)

include hdry

/-- A run that cannot write any file below the directory of all sources ends without a report. -/
theorem no_report {kept : FileTree → Prop} (hfails : ∀ t, kept t → ∀ p text, IsCodeFile p →
      ∃ f t', replaceFile (join config.outputRoot p) text t = (.error f, t') ∧ kept t')
    {files : List SchemaFile} {t : FileTree} {w w₁ w' : World} {results : Results}
    (ht : kept t) (hall : generateAll config (prepare config files t).1 (prepare config files t).2
      { w with tree := t } = (.ok results, w₁))
    (hlayout : writeLayout config (results.filterMap Prod.snd) w₁ = (.ok (), w')) : False := by
  have hkept : ∀ t, kept t → ∀ p text, IsCodeFile p →
      kept (replaceFile (join config.outputRoot p) text t).2 := fun t ht p text hp => by
    obtain ⟨f, t', hrun, ht'⟩ := hfails t ht p text hp
    rwa [hrun]
  have hdirs : DirsSpelled (prepare config files t).1 := fun file r hr =>
    readAll_spelled NameTable.sound_empty hr
  have hkeeps := (generateAll_keeps hkept hdry (fun file r hr p hp =>
    hp.isCodeFile (hdirs file r hr)) (prepare config files t).2 { w with tree := t } ht).1
  rw [hall] at hkeeps
  obtain ⟨laid, hlaid, hentries⟩ := laid_of_generateAll hall
  rw [hentries] at hlayout
  obtain ⟨modules, t₁, hmodules, hrun, -⟩ := writeLayout_ok hdry hlayout
  cases hfiles : modules with
  | nil =>
    obtain ⟨f, hf, -⟩ := top_mem_layOut hmodules
    rw [hfiles] at hf
    cases hf
  | cons first rest =>
    have hcode := isCodeFile_layout hlaid hmodules (hfiles ▸ List.mem_cons_self)
    obtain ⟨f, t', hreplace, -⟩ := hfails w₁.tree hkeeps first.path first.contents hcode
    rw [hfiles, List.map_cons, writeFiles, FileTree.bind_apply, hreplace] at hrun
    cases hrun

/-- A clean run that ends with a report has found a place without sources to write to. -/
theorem lands_of_report (hclean : config.clean = true) {files : List SchemaFile}
    {t : FileTree} {w w₁ w' : World} {results : Results} (hwell : w.tree.WellFormed)
    (hcleaned : cleaned config w.tree = (.ok (), t)) (hreturn : t.NoReturn config.outputRoot)
    (hall : generateAll config (prepare config files t).1 (prepare config files t).2
      { w with tree := t } = (.ok results, w₁))
    (hlayout : writeLayout config (results.filterMap Prod.snd) w₁ = (.ok (), w')) : t.WellFormed
      ∧ textFault? (sourceRoot config) = none ∧ ∃ here names, Lands t config.outputRoot here names
        ∧ (names = [] → t.get? (here ++ ["src"]) = none) := by
  have hremoved : FileTree.removeTree (join config.outputRoot ["src"]) w.tree = (.ok (), t) := by
    rwa [cleaned, if_pos (by simp [hclean, hdry])] at hcleaned
  obtain ⟨hwell', hgone⟩ := FileTree.sources_removed hwell isName_src hremoved
  have htext : textFault? (sourceRoot config) = none := by
    by_contra hfault
    have hfails : ∀ t', True → ∀ p text, IsCodeFile p →
        ∃ f t'', replaceFile (join config.outputRoot p) text t' = (.error f, t'') ∧ True := by
      intro t' _ p text hp
      have htemporary := temporary_join_sourceFile hp.1 config.outputRoot
      obtain ⟨f, t'', hfails⟩ := replaceFile_textFault
        (htemporary ▸ textFault?_src hp (.inr rfl) hfault) text t'
      exact ⟨f, t'', hfails, trivial⟩
    exact no_report hdry hfails trivial hall hlayout
  have hblocked : ¬Blocked t (startOf t.workingDirectory config.outputRoot)
      (stem config.outputRoot ++ ["src"]) := by
    intro hblocked
    have hfails : ∀ t', t' = t → ∀ p text, IsCodeFile p →
        ∃ f t'', replaceFile (join config.outputRoot p) text t' = (.error f, t'') ∧ t'' = t := by
      rintro t' rfl p text hp
      obtain ⟨dir, name, rfl, hdir, hname⟩ := hp.below
      have hway := hblocked.append dir
      rw [List.append_assoc] at hway
      obtain ⟨f, hfails⟩ := replaceFile_blocked_below hway hdir hname text
      exact ⟨f, t', hfails, rfl⟩
    exact no_report hdry hfails rfl hall hlayout
  refine ⟨hwell', htext, ?_⟩
  obtain ⟨here, names, hlands⟩ | hway := FileTree.lands_or_blocked hreturn
  · refine ⟨here, names, hlands, fun hnil => ?_⟩
    subst hnil
    obtain ⟨left, hpasses⟩ := hlands.reaches.nameless
    obtain hfault | hway | hfree := hgone left here hpasses
    · exact absurd htext hfault
    · exact absurd hway hblocked
    · exact hfree
  · exact absurd (hway.append ["src"]) hblocked

end Unwritable

end Run

end RestForge
