import RestForge.Proofs.ClearOutput
import RestForge.Proofs.ClearedSources

/-!
# What a run writes

* `Produced`: some files were written with their texts, and nothing else; `Produced.trans`: and then
  others; `Produced.exact`: where nothing was before, these are the files there are.
* `namedOf`: the resources of a run with their type names; `generateAll_produced`: their files are what
  generation writes.
* `sourcesOf`: with the module files around them; `sources_produced`: they are all that is written
  before the manifest.
* `manifest_written`: the manifest is written last.
-/

set_option autoImplicit false

namespace RestForge.Run

open Naming Emit Schema
open Crate (ResourceEntry)
open FileTree (Grown Passes linkLimit replaceFile startOf textFault?)
open FileTree.Path (join stem)

/-! ## Files with their texts -/

/-- Some files were written and hold their texts, and nothing else was written. -/
structure Produced (here : FileTree.Place) (names : List String) (batch : List (List String × String))
    (t t' : FileTree) : Prop where
  wrote : Wrote here names (· ∈ batch.map Prod.fst) t t'
  written : ∀ x ∈ batch, Written here names x.1 x.2 t'

section Produced

variable {files : List String → Prop} {t t' t'' : FileTree} {root : String} {here : FileTree.Place}
  {names : List String} {batch batch' : List (List String × String)}

theorem Produced.refl (t : FileTree) : Produced here names [] t t := ⟨.refl t, by simp⟩

/-- Other files are written afterwards. -/
theorem Produced.trans (h : Produced here names batch t t') (h' : Produced here names batch' t' t'')
    (hfooting : Footing files t root here names) (hbatch : ∀ x ∈ batch, IsSourceFile x.1)
    (hapart : ∀ x ∈ batch, x.1 ∉ batch'.map Prod.fst) :
    Produced here names (batch ++ batch') t t'' := by
  have hle : ∀ p, p ∈ batch.map Prod.fst ∨ p ∈ batch'.map Prod.fst →
      p ∈ (batch ++ batch').map Prod.fst := fun p hp => by
    rwa [List.map_append, List.mem_append]
  refine ⟨(h.wrote.mono fun p hp => hle p (.inl hp)).trans
    (h'.wrote.mono fun p hp => hle p (.inr hp)), fun x hx => ?_⟩
  obtain hx | hx := List.mem_append.mp hx
  · exact (h.written x hx).later h'.wrote (h.wrote.footing hfooting) (hbatch x hx) (hapart x hx)
  · exact h'.written x hx

theorem writeFiles_produced (h : Footing files t root here names)
    (hbatch : ∀ x ∈ batch, IsSourceFile x.1 ∧ files x.1) (hnodup : (batch.map Prod.fst).Nodup)
    (hrun : writeFiles root batch t = (.ok (), t')) : Produced here names batch t t' := by
  obtain ⟨r, t₁, hrun', hwrote, hwritten, -⟩ := writeFiles_settled h hbatch hnodup
  cases hrun.symm.trans hrun'
  exact ⟨hwrote, hwritten rfl⟩

/-- Below a place where nothing was, the files are exactly those that were written, and no link lies
there. -/
theorem Produced.exact (h : Produced here names batch t t') {place : FileTree.Place}
    (hfree : ∀ r, t.get? (place ++ r) = none) (r : List String) :
    (∀ bytes, t'.get? (place ++ r) = some (.file bytes)
      ↔ ∃ x ∈ batch, here ++ (names ++ x.1) = place ++ r ∧ x.2.toUTF8.data = bytes)
    ∧ ∀ target, t'.get? (place ++ r) ≠ some (.link target) := by
  refine ⟨fun bytes => ⟨fun hget => ?_, ?_⟩, fun target hget => ?_⟩
  · obtain hsame | ⟨-, hnew, -⟩ | ⟨⟨p, q, hp, hsource, hq, he⟩, -⟩ := h.wrote.places (place ++ r)
    · rw [hfree] at hsame
      cases hget.symm.trans hsame
    · cases hget.symm.trans hnew
    · obtain ⟨x, hx, rfl⟩ := List.mem_map.mp hp
      obtain ⟨htarget, htemporary, -⟩ := h.written x hx
      rw [he] at hget
      obtain rfl | rfl := hq
      · cases hget.symm.trans htarget
        exact ⟨x, hx, he.symm, rfl⟩
      · cases hget.symm.trans htemporary
  · rintro ⟨x, hx, he, rfl⟩
    rw [← he]
    exact (h.written x hx).target
  · have hlink := h.wrote.get_link_iff.mp hget
    rw [hfree] at hlink
    cases hlink

end Produced

/-! ## Generation -/

/-- The resources of a run that get their type names, in turn. -/
def namedOf : List (SchemaFile × Prepared) → NameTable → List Named
  | [], _ => []
  | (_, .done _) :: rest, u => namedOf rest u
  | (_, .ready r) :: rest, u =>
    match resolve r u with
    | (.error _, u) => namedOf rest u
    | (.ok typeNames, u) => (r, typeNames) :: namedOf rest u

/-- The files of a resource with their texts; none if they cannot all be written. -/
def artifactsOf (b : Named) : List (List String × String) :=
  match assemble b.1 b.2 with
  | .ok artifacts => artifacts.map fun a => (a.path, a.contents)
  | .error _ => []

/-- The result of a resource that was generated: it lists the files of the resource. -/
def ListedAs (config : Config) (x : FileResult) (b : Named) : Prop :=
  ∃ artifacts, assemble b.1 b.2 = .ok artifacts
    ∧ x.outcome = .generated b.1.dottedPath (artifacts.map fun a => join config.outputRoot a.path)

theorem artifactOf_of_mem_artifactsOf {b : Named} {x : List String × String} (hx : x ∈ artifactsOf b) :
    ArtifactOf b.1 x.1 := by
  rw [artifactsOf] at hx
  split at hx
  · rename_i artifacts hassembled
    exact artifactOf_of_mem hassembled hx
  · cases hx

theorem ready_of_mem_namedOf {prepared : List (SchemaFile × Prepared)} {u : NameTable} {b : Named}
    (hb : b ∈ namedOf prepared u) : ∃ file, (file, Prepared.ready b.1) ∈ prepared := by
  induction prepared generalizing u with
  | nil => cases hb
  | cons x rest ih =>
    have hlater : ∀ {u}, b ∈ namedOf rest u → ∃ file, (file, Prepared.ready b.1) ∈ x :: rest :=
      fun hb => (ih hb).imp fun file hfile => List.mem_cons_of_mem _ hfile
    obtain ⟨file, outcome | r⟩ := x
    · exact hlater hb
    · rw [namedOf] at hb
      split at hb
      · exact hlater hb
      · obtain rfl | hb := List.mem_cons.mp hb
        · exact ⟨file, List.mem_cons_self⟩
        · exact hlater hb

section Generate

variable {config : Config} {files : List String → Prop} {here : FileTree.Place} {names : List String}
  (hdry : ¬config.dryRun = true)

include hdry

/-- Where no resource failed to be written, generation writes the files of the resources that it got
type names for, and lists them. -/
theorem generateAll_produced (hfiles : ∀ p, IsCodeFile p → files p) {tree : FileTree}
    {prepared : List (SchemaFile × Prepared)} (hread : ∀ y ∈ prepared, IsReadAs tree y.1 y.2)
    (hdirs : DirsSpelled prepared) (hapart : DirsApart prepared) {w w' : World}
    (h : Footing files w.tree config.outputRoot here names) {u : NameTable} {results : Results}
    (hrun : generateAll config prepared u w = (.ok results, w'))
    (hwritten : AllWritten (results.map Prod.fst)) :
    Produced here names ((namedOf prepared u).flatMap artifactsOf) w.tree w'.tree
      ∧ results.filterMap Prod.snd
        = (namedOf prepared u).map (fun b => ResourceEntry.ofResource b.1 b.2)
      ∧ List.Forall₂ (ListedAs config) (generatedOf (results.map Prod.fst)) (namedOf prepared u) := by
  induction prepared generalizing u w results with
  | nil =>
    cases hrun
    exact ⟨.refl _, rfl, .nil⟩
  | cons x rest ih =>
    have hread' := fun y hy => hread y (List.mem_cons_of_mem x hy)
    have hwritten' : ∀ {y : FileResult × Option ResourceEntry} {others : Results},
        AllWritten ((y :: others).map Prod.fst) → AllWritten (others.map Prod.fst) :=
      fun hall y hy => hall y (List.mem_cons_of_mem _ hy)
    obtain ⟨file, outcome | r⟩ := x
    · obtain ⟨others, hothers, rfl⟩ := generateAll_done hrun
      obtain ⟨hproduced, hentries, hlisted⟩ :=
        ih hread' hdirs.tail hapart.of_cons h hothers (hwritten' hwritten)
      refine ⟨hproduced, hentries, ?_⟩
      cases hread _ List.mem_cons_self with
      | skipped _ => exact hlisted
      | refused _ d e => exact hlisted
    · obtain ⟨outcome, entry, u₁, w₁, others, hend, -, hothers, rfl⟩ := generateAll_ready hrun
      have hdir := hdirs file r List.mem_cons_self
      cases hend with
      | collided c hresolve htree =>
        have hproduced := ih hread' hdirs.tail hapart.of_cons (htree ▸ h) hothers (hwritten' hwritten)
        rw [htree] at hproduced
        rw [namedOf, hresolve]
        exact hproduced
      | unwritten typeNames _ artifacts _ f _ => exact absurd rfl (hwritten _ List.mem_cons_self _ _)
      | generated typeNames hresolve artifacts hassembled paths hone =>
        obtain ⟨hbatch, hnodup⟩ := artifactBatch hdir hassembled
        rw [writeArtifacts_apply hdry] at hone
        obtain ⟨hwrite, rfl⟩ : writeFiles config.outputRoot
            (artifacts.map fun a => (a.path, a.contents)) w.tree = (.ok (), w₁.tree)
            ∧ paths = artifacts.map fun a => join config.outputRoot a.path := by
          rcases hrun' : writeFiles config.outputRoot (artifacts.map fun a => (a.path, a.contents))
            w.tree with ⟨f | v, t₁⟩ <;> rw [hrun'] at hone <;> cases hone
          exact ⟨hrun', rfl⟩
        have hfirst := writeFiles_produced h
          (fun x hx => ⟨(hbatch x hx).1, hfiles _ ((hbatch x hx).2.isCodeFile hdir)⟩) hnodup hwrite
        obtain ⟨hproduced, hentries, hlisted⟩ := ih hread' hdirs.tail hapart.of_cons
          (hfirst.wrote.footing h) hothers (hwritten' hwritten)
        have hbatch' : artifactsOf (r, typeNames) = artifacts.map fun a => (a.path, a.contents) := by
          rw [artifactsOf, hassembled]
        rw [namedOf, hresolve]
        dsimp only
        rw [List.flatMap_cons, hbatch']
        refine ⟨hfirst.trans hproduced h (fun x hx => (hbatch x hx).1) fun x hx hmem => ?_,
          congrArg (ResourceEntry.ofResource r typeNames :: ·) hentries,
          .cons ⟨artifacts, hassembled, rfl⟩ hlisted⟩
        -- files of different resources lie in different directories
        obtain ⟨y, hy, he⟩ := List.mem_map.mp hmem
        obtain ⟨b, hb, hy⟩ := List.mem_flatMap.mp hy
        obtain ⟨file', hready⟩ := ready_of_mem_namedOf hb
        obtain ⟨k, hk⟩ := (hbatch x hx).2
        obtain ⟨k', hk'⟩ := artifactOf_of_mem_artifactsOf hy
        rw [hk, hk'] at he
        exact (List.pairwise_cons.mp hapart).1 _ hready r b.1 rfl rfl (List.append_inj' he rfl).1.symm

end Generate

/-! ## Layout -/

section Layout

variable {config : Config} {files : List String → Prop} {t t' : FileTree} {root : String}
  {here : FileTree.Place} {names p : List String}

theorem layout_produced {laid : List Named} (hlaid : ∀ b ∈ laid, IsSpelled b)
    {modules : List Crate.ModuleFile}
    (hlayout : Crate.layOut (laid.map fun b => .ofResource b.1 b.2) = .ok modules)
    (h : Footing files t root here names) (hfiles : ∀ p, IsCodeFile p → files p)
    (hrun : writeFiles root (modules.map fun f => (f.path, f.contents)) t = (.ok (), t')) :
    Produced here names (modules.map fun f => (f.path, f.contents)) t t' := by
  refine writeFiles_produced h (fun x hx => ?_) ?_ hrun
  · obtain ⟨f, hf, rfl⟩ := List.mem_map.mp hx
    have hcode := isCodeFile_layout hlaid hlayout hf
    exact ⟨hcode.1, hfiles _ hcode⟩
  · have hpaths : (modules.map fun f => (f.path, f.contents)).map Prod.fst = layoutPaths laid := by
      rw [layoutPaths, hlayout, List.map_map]
      rfl
    rw [hpaths]
    exact nodup_layoutPaths hlaid

/-- The files of some resources and the module files around them, with their texts. -/
def sourcesOf (laid : List Named) (modules : List Crate.ModuleFile) : List (List String × String) :=
  laid.flatMap artifactsOf ++ modules.map fun f => (f.path, f.contents)

/-- The resources that a run reads from some files and gets type names for. -/
def laidOf (config : Config) (files : List SchemaFile) (tree : FileTree) : List Named :=
  namedOf (prepare config files tree).1 (prepare config files tree).2

/-- Before the manifest a run writes the files of its resources and the module files around them. -/
theorem sources_produced (hdry : ¬config.dryRun = true) {files : List SchemaFile} {w w₁ w' : World}
    {results : Results} (h : Footing IsCodeFile t config.outputRoot here names)
    (hall : generateAll config (prepare config files t).1 (prepare config files t).2
      { w with tree := t } = (.ok results, w₁))
    (hwritten : AllWritten (results.map Prod.fst))
    (hlayout : writeLayout config (results.filterMap Prod.snd) w₁ = (.ok (), w')) :
    ∃ modules t', Crate.layOut ((laidOf config files t).map fun b => .ofResource b.1 b.2) = .ok modules
      ∧ Produced here names (sourcesOf (laidOf config files t) modules) t t'
      ∧ writeFiles config.outputRoot [(["Cargo.toml"], manifest config)] t' = (.ok (), w'.tree)
      ∧ List.Forall₂ (ListedAs config) (generatedOf (results.map Prod.fst))
        (laidOf config files t) := by
  have hread : ∀ y ∈ (prepare config files t).1, IsReadAs t y.1 y.2 := fun y hy => readAll_readAs hy
  have hdirs : DirsSpelled (prepare config files t).1 := fun file r hr =>
    readAll_spelled NameTable.sound_empty hr
  have hspelled : ∀ b ∈ laidOf config files t, IsSpelled b := by
    intro b hb
    obtain ⟨file, hready⟩ := ready_of_mem_namedOf hb
    exact isSpelled_of_isSourceDir (hdirs file b.1 hready) b.2
  have h₀ : Footing IsCodeFile ({ w with tree := t } : World).tree config.outputRoot here names := h
  obtain ⟨hproduced, hentries, hlisted⟩ := generateAll_produced hdry (fun _ => id) hread hdirs
    (readAll_dirsApart NameTable.sound_empty) h₀ hall hwritten
  rw [← laidOf] at hproduced hentries hlisted
  rw [hentries] at hlayout
  obtain ⟨modules, t', hmodules, hrun, hlast⟩ := writeLayout_ok hdry hlayout
  have hartifact : ∀ x ∈ (laidOf config files t).flatMap artifactsOf,
      ∃ r, ArtifactOf r x.1 ∧ IsSourceDir (resourceDir r) := by
    intro x hx
    obtain ⟨b, hb, hx⟩ := List.mem_flatMap.mp hx
    exact ⟨b.1, artifactOf_of_mem_artifactsOf hx, isSourceDir_resourceDir (hspelled b hb)⟩
  refine ⟨modules, t', hmodules, hproduced.trans (layout_produced hspelled hmodules
    (hproduced.wrote.footing h) (fun _ => id) hrun) h (fun x hx => ?_) fun x hx hmem => ?_, hlast,
    hlisted⟩
  · obtain ⟨r, hartifact, hdir⟩ := hartifact x hx
    exact hartifact.isSourceFile hdir
  · obtain ⟨r, ⟨k, hk⟩, -⟩ := hartifact x hx
    obtain ⟨y, hy, he⟩ := List.mem_map.mp hmem
    obtain ⟨f, hf, rfl⟩ := List.mem_map.mp hy
    have hpath : f.path ∈ layoutPaths (laidOf config files t) := by
      rw [layoutPaths, hmodules]
      exact List.mem_map_of_mem hf
    exact (isLayoutFile_of_mem hspelled hpath).2 _ k (he.trans hk)

/-- How a file was replaced, also where a link was, if no link lies in the place of its temporary
file. -/
theorem replaceFile_put (h : Footing files t root here names) (hp : IsSourceFile p)
    (hlink : ∀ target, t.get? (here ++ (names ++ temporaryOf p)) ≠ some (.link target)) {text : String}
    (hrun : replaceFile (join root p) text t = (.ok (), t')) : ∃ t₁,
      Grown t t₁ here (names ++ p.dropLast)
      ∧ (replacing root here names p text t₁).1 = .ok ()
      ∧ t' = putFile t₁.afterWrite (here ++ (names ++ temporaryOf p)) (here ++ (names ++ p))
        text.toUTF8.data := by
  obtain ⟨t₁, hmake, -, hgrown, -⟩ := makeParent_grown h hp
  have hlink₁ : ∀ target, t₁.get? (here ++ (names ++ temporaryOf p)) ≠ some (.link target) :=
    fun target hget => hlink target (hgrown.get_link hget)
  rw [replaceFile_of_parent (h.grown hgrown) hp hlink₁ hmake] at hrun
  have hok := congrArg Prod.fst hrun
  have htree := congrArg Prod.snd hrun
  obtain ⟨-, -, -, hput⟩ := replacing_ok hok
  rw [hput] at htree
  exact ⟨t₁, hgrown, hok, htree.symm⟩

/-- What the writing of the manifest changes of a tree: it is there, and of all other places only its
temporary file and directories on the way may have changed. -/
structure ManifestWritten (here : FileTree.Place) (names : List String) (text : String)
    (t t' : FileTree) : Prop where
  directory : t'.workingDirectory = t.workingDirectory
  target : t'.get? (here ++ (names ++ ["Cargo.toml"])) = some (.file text.toUTF8.data)
  dirs : ∀ place, t.get? place = some .directory → t'.get? place = some .directory
  others : ∀ place, place ≠ here ++ (names ++ ["Cargo.toml"]) →
    place ≠ here ++ (names ++ ["Cargo.tmp"]) → ∀ entry, entry ≠ .directory →
      (t'.get? place = some entry ↔ t.get? place = some entry)

/-- Where the manifest took the place of no link, the root leads to its directory. -/
theorem manifest_written (h : Footing files t root here names)
    (hlink : ∀ target, t.get? (here ++ (names ++ ["Cargo.tmp"])) ≠ some (.link target)) {text : String}
    (hrun : writeFiles root [(["Cargo.toml"], text)] t = (.ok (), t')) :
    ManifestWritten here names text t t'
      ∧ ((∀ target, t.get? (here ++ (names ++ ["Cargo.toml"])) ≠ some (.link target)) →
        textFault? (join root ["Cargo.toml"]) = none
        ∧ ∃ left, Passes t' linkLimit (startOf t'.workingDirectory root) (stem root) left
          (here ++ names)) := by
  have hp : IsSourceFile ["Cargo.toml"] := ⟨[], _, rfl, .inl rfl, by decide⟩
  have htemporary : temporaryOf ["Cargo.toml"] = ["Cargo.tmp"] := by decide
  have hreplace : replaceFile (join root ["Cargo.toml"]) text t = (.ok (), t') := by
    rw [writeFiles, FileTree.bind_apply] at hrun
    rcases hone : replaceFile (join root ["Cargo.toml"]) text t with ⟨f | u, t₁⟩ <;>
      rw [hone] at hrun <;> cases hrun
    rfl
  obtain ⟨t₁, hgrown, hok, rfl⟩ := replaceFile_put h hp (htemporary ▸ hlink) hreplace
  obtain ⟨hmade, hslot, hslot', -⟩ := replacing_ok hok
  obtain ⟨htext, hplain⟩ := FileTree.slotFault?_eq_none.mp hslot'
  have hplain' := (FileTree.slotFault?_eq_none.mp hslot).2
  have hput := get?_putFile (t := t₁.afterWrite) (place_ne_nil here names hp (.inr rfl))
    (place_ne_nil here names hp (.inl rfl)) text.toUTF8.data
  rw [htemporary] at hput hplain' ⊢
  have hkept : ∀ place, place ≠ here ++ (names ++ ["Cargo.toml"]) →
      place ≠ here ++ (names ++ ["Cargo.tmp"]) →
      (putFile t₁.afterWrite (here ++ (names ++ ["Cargo.tmp"])) (here ++ (names ++ ["Cargo.toml"]))
        text.toUTF8.data).get? place = t₁.get? place := fun place hne hne' => by
    rw [hput, if_neg hne, if_neg hne', FileTree.get?_afterWrite]
  have hdirs : ∀ place, t₁.get? place = some .directory →
      (putFile t₁.afterWrite (here ++ (names ++ ["Cargo.tmp"])) (here ++ (names ++ ["Cargo.toml"]))
        text.toUTF8.data).get? place = some .directory := fun place hget => by
    rw [hkept place (fun he => hplain (he ▸ hget)) fun he => hplain' (he ▸ hget), hget]
  refine ⟨⟨hgrown.directory, by rw [hput, if_pos rfl], fun place hget => hdirs place (hgrown.get? hget),
    fun place hne hne' entry hentry => ?_⟩, fun hfile => ⟨htext, ?_⟩⟩
  · rw [hkept place hne hne']
    obtain hsame | ⟨hfree, hnew, -⟩ := hgrown.places place
    · rw [hsame]
    · rw [hfree, hnew]
      simp [Ne.symm hentry]
  · have h₁ := h.grown hgrown
    have hlinks := h₁.dirs [] (.inl rfl)
    have hfound := along_of_parentMade h₁.reaches hp hlinks hmade
    obtain ⟨left, hpasses⟩ := h₁.reaches.passes (by simp) hlinks hfound
    rw [List.append_nil, List.append_nil] at hpasses
    refine ⟨left, hpasses.mono hdirs fun place target hget => ?_⟩
    rw [hkept place, hget]
    · rintro rfl
      exact hfile target (hgrown.get_link hget)
    · rintro rfl
      exact hlink target (hgrown.get_link hget)

end Layout

end RestForge.Run
