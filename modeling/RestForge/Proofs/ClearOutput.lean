import RestForge.Proofs.SettledRuns

/-!
# Nothing in the way

* `Clear`: no file lies where a run makes directories, and no directory where it writes files; nothing
  befalls any write.
* `Reachable`: paths that can be looked up, with names that are not too long.
* `replaceFile_succeeds`, `writeFiles_succeeds`: there files are written.
* `AllWritten`: a report without failures to write; `produce_succeeds`: so a run ends there if its
  resources can be generated on paper.
-/

set_option autoImplicit false

namespace RestForge.Run

open Naming Emit Schema
open Crate (ResourceEntry)
open FileTree (Grown replaceFile textFault?)
open FileTree.Path (join)

/-- No file lies where a run makes directories, and no directory where it writes some files, and nothing
befalls any write. -/
structure Clear (files : List String → Prop) (t : FileTree) (here : FileTree.Place)
    (names : List String) : Prop where
  dirs : ∀ dir, IsSourceDir dir → ∀ q, q <+: names ++ dir →
    ∀ bytes, t.get? (here ++ q) ≠ some (.file bytes)
  files : ∀ p, files p → ∀ q, Pair p q → t.get? (here ++ (names ++ q)) ≠ some .directory
  calm : t.Calm

section Clear

variable {files written : List String → Prop} {t t' : FileTree} {root : String}
  {here : FileTree.Place} {names p : List String}

theorem Clear.wrote (h : Clear files t here names) (hfiles : ∀ p, files p → IsSourceFile p)
    (hwrote : Wrote here names written t t') : Clear files t' here names := by
  refine ⟨fun dir hdir q hq bytes hget => ?_, fun p hp q hq hget => ?_, hwrote.calm h.calm⟩
  · obtain hsame | ⟨-, hnew, -⟩ | ⟨⟨p, r, -, hp, hr, he⟩, -⟩ := hwrote.places (here ++ q)
    · exact h.dirs dir hdir q hq bytes (hsame ▸ hget)
    · cases hget.symm.trans hnew
    · rw [List.append_cancel_left he] at hq
      exact not_prefix_of_pair hp hr hdir hq
  · obtain hsame | ⟨-, -, dir, r, hdir, hr, he⟩ | ⟨-, -, -, hnone | ⟨bytes, hfile⟩⟩ :=
      hwrote.places (here ++ (names ++ q))
    · exact h.files p hp q hq (hsame ▸ hget)
    · rw [← List.append_cancel_left he] at hr
      exact not_prefix_of_pair (hfiles p hp) hq hdir hr
    · cases hget.symm.trans hnone
    · cases hget.symm.trans hfile

theorem parentMade_found {path : String} (htext : textFault? path = none) (place : FileTree.Place) :
    FileTree.parentMade path (.ok (.found place .directory)) = .ok () := by
  unfold FileTree.parentMade
  cases hparent : FileTree.Path.parent? path with
  | none => rfl
  | some above =>
    dsimp only
    split
    · rfl
    · rename_i hsome
      have hne : above ≠ "" := by simpa using hsome
      obtain ⟨more, rfl⟩ := FileTree.Path.parent?_append hparent hne
      rw [FileTree.textFault?_append hne htext]
      rfl

/-- A path of a file and of its temporary file that can be looked up, and names that are not too
long. -/
structure Reachable (root : String) (names p : List String) : Prop where
  target : textFault? (join root p) = none
  temporary : textFault? (join root (temporaryOf p)) = none
  names : ∀ n ∈ names ++ p.dropLast, FileTree.IsName n

instance (root : String) (names p : List String) : Decidable (Reachable root names p) :=
  decidable_of_iff (textFault? (join root p) = none ∧ textFault? (join root (temporaryOf p)) = none
      ∧ ∀ n ∈ names ++ p.dropLast, FileTree.IsName n)
    ⟨fun ⟨h, h', hnames⟩ => ⟨h, h', hnames⟩, fun ⟨h, h', hnames⟩ => ⟨h, h', hnames⟩⟩

theorem replaceFile_succeeds (h : Footing files t root here names) (hclear : Clear files t here names)
    (hp : IsSourceFile p) (hfile : files p) (hreach : Reachable root names p) (text : String) :
    ∃ t', replaceFile (join root p) text t = (.ok (), t') := by
  have hdir := isSourceDir_dropLast hp
  have htext := hreach.target
  obtain ⟨t₁, hmake, hsettled, hgrown, -⟩ := makeParent_grown h hp
  have hwrote : Wrote here names (fun _ => False) t t₁ := .of_grown hgrown hdir
  have h₁ := h.grown hgrown
  have hfree : ∀ q, Pair p q → t₁.get? (here ++ (names ++ q)) ≠ some .directory := by
    intro q hq
    rw [hwrote.get_pair hp hq id]
    exact hclear.files p hfile q hq
  have hthere : ¬FileTree.Missing (t₁.along here (names ++ p.dropLast)) := by
    obtain ⟨hnil, -⟩ | ⟨-, above, hparent, -, hne⟩ := parent_cases h₁.reaches hp
    · rw [hnil, FileTree.along_nil]
      exact id
    · obtain ⟨above', hparent', hfault⟩ | hthere := hsettled
      · cases hparent.symm.trans hparent'
        obtain ⟨more, hmore⟩ := FileTree.Path.parent?_append hparent hne
        exact absurd (FileTree.textFault?_append hne (hmore ▸ htext)) hfault
      · exact hthere
  have hfound := FileTree.along_clear hreach.names (h₁.dirs _ hdir) (fun q _ hpart bytes hget => by
    obtain hsame | ⟨-, hnew, -⟩ := hgrown.places (here ++ q)
    · exact hclear.dirs _ hdir q hpart bytes (hsame ▸ hget)
    · cases hget.symm.trans hnew) hthere
  refine ⟨(replacing root here names p text t₁).2, ?_⟩
  rw [replaceFile_of_parent h₁ hp (h₁.files p hfile _ (.inr rfl)) hmake text]
  refine Prod.ext (replacing_succeeds (hgrown.calm hclear.calm) text ?_ ?_ ?_) rfl
  · rw [hfound, parentMade_found htext]
  · exact FileTree.slotFault?_eq_none.mpr ⟨hreach.temporary, hfree _ (.inr rfl)⟩
  · exact FileTree.slotFault?_eq_none.mpr ⟨htext, hfree _ (.inl rfl)⟩

/-- Where nothing is in the way, files are written one after another. -/
theorem writeFiles_succeeds (h : Footing files t root here names) (hclear : Clear files t here names)
    (hfiles : ∀ p, files p → IsSourceFile p) {batch : List (List String × String)}
    (hbatch : ∀ x ∈ batch, files x.1 ∧ Reachable root names x.1) :
    ∃ t', writeFiles root batch t = (.ok (), t') ∧ Wrote here names files t t' := by
  induction batch generalizing t with
  | nil => exact ⟨t, rfl, .refl t⟩
  | cons x batch ih =>
    obtain ⟨hfile, hreach⟩ := hbatch x List.mem_cons_self
    have hsource := hfiles _ hfile
    obtain ⟨t₁, hrun⟩ := replaceFile_succeeds h hclear hsource hfile hreach x.2
    obtain ⟨r, t₁', hrun', hwrote, -⟩ := replaceFile_settled h hsource hfile x.2
    cases hrun.symm.trans hrun'
    obtain ⟨t₂, hrest, hwrote'⟩ := ih (hwrote.footing h) (hclear.wrote hfiles hwrote) fun y hy =>
      hbatch y (List.mem_cons_of_mem _ hy)
    refine ⟨t₂, ?_, (hwrote.mono fun p hp => hp ▸ hfile).trans hwrote'⟩
    rw [writeFiles, FileTree.bind_apply, hrun]
    exact hrest

/-- An entry with a dot in its name if it is a file, and without if it is a directory. -/
def isDottedFile (e : FileTree.Place × FileTree.Entry) : Bool :=
  match e.2 with
  | .file _ => (e.1.getLastD "").toList.contains '.'
  | .link _ => false
  | .directory => !(e.1.getLastD "").toList.contains '.'

/-- Nothing is in the way where files have dots in their names and directories have none. -/
theorem clear_of_dotted (hwell : t.WellFormed) (h : FileTree.Reaches t root here [])
    (hhere : t.get? here = some .directory) (hentries : t.entries.all isDottedFile = true)
    (hcalm : t.Calm) : Footing IsSourceFile t root here [] ∧ Clear IsSourceFile t here [] := by
  have hdotted : ∀ {q entry}, q ≠ [] → t.get? (here ++ q) = some entry →
      isDottedFile (here ++ q, entry) = true := fun hq hget =>
    List.all_eq_true.mp hentries _ (FileTree.mem_of_get? (by simp [hq]) hget)
  have hlast : ∀ front (last : String), (here ++ (front ++ [last])).getLastD "" = last := by
    intro front last
    rw [← List.append_assoc, List.getLastD_concat]
  have hlink : ∀ q target, t.get? (here ++ q) ≠ some (.link target) := by
    intro q target hget
    by_cases hq : q = []
    · rw [hq, List.append_nil, hhere] at hget
      cases hget
    · cases hdotted hq hget
  refine ⟨⟨h, hwell.toOrdered, hwell.closedBelow here, fun dir _ q _ _ target => hlink q target,
    fun p _ q _ target => hlink q target⟩, fun dir hdir q hq bytes hget => ?_,
    (fun p hp q hq hget => ?_), hcalm⟩
  · rcases List.eq_nil_or_concat q with rfl | ⟨front, last, rfl⟩
    · rw [List.append_nil, hhere] at hget
      cases hget
    · rw [List.concat_eq_append] at hq hget
      have hdot := hdotted (by simp) hget
      rw [isDottedFile] at hdot
      dsimp only at hdot
      rw [hlast, List.contains_iff_mem] at hdot
      exact undotted_of_isSourceDir hdir last (hq.subset (by simp)) hdot
  · obtain ⟨front, last, rfl, hdot⟩ := isFilePlace_of_pair (hasFileName_of_isSourceFile hp) hq
    have hplain := hdotted (by simp) hget
    rw [isDottedFile] at hplain
    dsimp only at hplain
    rw [List.nil_append, hlast, Bool.not_eq_true', ← Bool.not_eq_true, List.contains_iff_mem] at hplain
    exact hplain hdot

end Clear

/-! ## Runs -/

/-- No resource failed to be written. -/
def AllWritten (results : List FileResult) : Prop :=
  ∀ x ∈ results, ∀ d f, x.outcome ≠ .errored d (.write f)

section Runs

variable {config : Config} {here : FileTree.Place} {names : List String} {w : World}
  (hdry : ¬config.dryRun = true)

include hdry

theorem generateOne_succeeds (h : Footing IsSourceFile w.tree config.outputRoot here names)
    (hclear : Clear IsSourceFile w.tree here names) {r : Resource}
    (hdir : IsSourceDir (resourceDir r))
    (hreach : ∀ p, ArtifactOf r p → Reachable config.outputRoot names p) {u : NameTable}
    {outcome : Outcome} {entry : Option ResourceEntry}
    (hjudged : judge r (resolve r u).1 = .ok (outcome, entry)) : ∃ outcome' t',
      generateOne config r u w
        = (.ok ((outcome', entry), (resolve r u).2), { w with tree := t' })
      ∧ (∀ d f, outcome' ≠ .errored d (.write f)) ∧ Wrote here names IsSourceFile w.tree t' := by
  rcases hresolve : resolve r u with ⟨c | typeNames, u₁⟩ <;> rw [hresolve] at hjudged
  · cases hjudged
    refine ⟨.errored (some r.dottedPath) (.collision c), w.tree, ?_, by simp, .refl _⟩
    unfold generateOne
    simp only [hresolve]
    rfl
  · dsimp only [judge] at hjudged
    cases hassembled : assemble r typeNames with
    | error e =>
      rw [hassembled] at hjudged
      cases hjudged
    | ok artifacts =>
      rw [hassembled] at hjudged
      cases hjudged
      obtain ⟨t', hrun, hwrote⟩ := writeFiles_succeeds h hclear (fun _ => id)
        fun x hx => ⟨((artifactBatch hdir hassembled).1 x hx).1,
          hreach _ (artifactOf_of_mem hassembled hx)⟩
      refine ⟨.generated r.dottedPath (artifacts.map fun a => join config.outputRoot a.path), t', ?_,
        by simp, hwrote⟩
      rw [generateOne_eq hresolve, hassembled]
      dsimp only [writeResource]
      rw [writeArtifacts_apply hdry, hrun]

theorem generateAll_succeeds (h : Footing IsSourceFile w.tree config.outputRoot here names)
    (hclear : Clear IsSourceFile w.tree here names) {tree : FileTree}
    {prepared : List (SchemaFile × Prepared)} (hread : ∀ y ∈ prepared, IsReadAs tree y.1 y.2)
    (hdirs : DirsSpelled prepared) (hreach : ∀ file r, (file, Prepared.ready r) ∈ prepared →
      ∀ p, ArtifactOf r p → Reachable config.outputRoot names p) {u : NameTable} {judged : Results}
    (hjudged : judgeAll prepared u = .ok judged) : ∃ results t',
      generateAll config prepared u w = (.ok results, { w with tree := t' })
      ∧ results.filterMap Prod.snd = judged.filterMap Prod.snd
      ∧ AllWritten (results.map Prod.fst) ∧ Wrote here names IsSourceFile w.tree t' := by
  induction prepared generalizing u w judged with
  | nil =>
    cases hjudged
    exact ⟨[], w.tree, rfl, rfl, by simp [AllWritten], .refl _⟩
  | cons x rest ih =>
    have hread' := fun y hy => hread y (List.mem_cons_of_mem x hy)
    have hreach' := fun file r hr => hreach file r (List.mem_cons_of_mem x hr)
    obtain ⟨file, outcome | r⟩ := x
    · obtain ⟨others, hothers, hsame⟩ := except_bind_ok_iff.mp hjudged
      cases hsame
      obtain ⟨results, t', hrun, hentries, hwritten, hwrote⟩ :=
        ih h hclear hread' hdirs.tail hreach' hothers
      refine ⟨(⟨file, outcome⟩, none) :: results, t', ?_, hentries, ?_, hwrote⟩
      · rw [generateAll, running_bind, hrun]
        rfl
      · refine List.forall_mem_cons.mpr ⟨?_, hwritten⟩
        have houtcome := hread _ List.mem_cons_self
        cases houtcome <;> simp
    · obtain ⟨⟨outcome, entry⟩, hone, hrest⟩ := except_bind_ok_iff.mp hjudged
      obtain ⟨others, hothers, hsame⟩ := except_bind_ok_iff.mp hrest
      cases hsame
      obtain ⟨outcome', t₁, hrun, hgood, hwrote⟩ := generateOne_succeeds hdry h hclear
        (hdirs file r List.mem_cons_self) (hreach file r List.mem_cons_self) hone
      have h₁ : Footing IsSourceFile ({ w with tree := t₁ } : World).tree config.outputRoot here names :=
        hwrote.footing h
      obtain ⟨results, t₂, hrun', hentries, hwritten, hwrote'⟩ := ih h₁
        (hclear.wrote (fun _ => id) hwrote) hread' hdirs.tail hreach' hothers
      refine ⟨(⟨file, outcome'⟩, entry) :: results, t₂, ?_, ?_, ?_, hwrote.trans hwrote'⟩
      · rw [generateAll, running_bind, hrun]
        dsimp only
        rw [running_bind, hrun']
        rfl
      · simp only [List.filterMap_cons, hentries]
      · exact List.forall_mem_cons.mpr ⟨hgood, hwritten⟩

/-- **Nothing in the way.** Where no file, directory or link is in the way of a run and its paths can be
looked up, it ends with a report without failures to write if it does so on paper. -/
theorem produce_succeeds (h : Footing IsSourceFile w.tree config.outputRoot here names)
    (hclear : Clear IsSourceFile w.tree here names) {files : List SchemaFile} {judged : Results}
    (hjudged : judgeAll (prepare config files w.tree).1 (prepare config files w.tree).2 = .ok judged)
    {modules : List Crate.ModuleFile}
    (hlayout : Crate.layOut (judged.filterMap Prod.snd) = .ok modules)
    (hreach : ∀ file r, (file, Prepared.ready r) ∈ (prepare config files w.tree).1 →
      ∀ p, ArtifactOf r p → Reachable config.outputRoot names p)
    (hmodules : ∀ f ∈ modules, Reachable config.outputRoot names f.path)
    (hmanifest : Reachable config.outputRoot names ["Cargo.toml"]) :
    ∃ report w', produce config files w = (.ok report, w') ∧ AllWritten report.results := by
  have hread : ∀ y ∈ (prepare config files w.tree).1, IsReadAs w.tree y.1 y.2 := fun y hy =>
    readAll_readAs hy
  have hdirs : DirsSpelled (prepare config files w.tree).1 := fun file r hr =>
    readAll_spelled NameTable.sound_empty hr
  obtain ⟨results, t₁, hrun, hentries, hwritten, hwrote₁⟩ := generateAll_succeeds hdry h hclear
    hread hdirs hreach hjudged
  obtain ⟨laid, hlaid, hlaid'⟩ := laid_of_generateAll hrun
  rw [← hentries, hlaid'] at hlayout
  have hfiles : ∀ x ∈ modules.map (fun f => (f.path, f.contents)),
      IsSourceFile x.1 ∧ Reachable config.outputRoot names x.1 := by
    intro x hx
    obtain ⟨f, hf, rfl⟩ := List.mem_map.mp hx
    refine ⟨isSourceFile_layout hlaid ?_, hmodules f hf⟩
    rw [layoutPaths, hlayout]
    exact List.mem_map_of_mem hf
  have hlast : ∀ x ∈ [(["Cargo.toml"], manifest config)],
      IsSourceFile x.1 ∧ Reachable config.outputRoot names x.1 := by
    intro x hx
    obtain rfl := List.mem_singleton.mp hx
    exact ⟨⟨[], _, rfl, .inl rfl, by decide⟩, hmanifest⟩
  have h₁ := hwrote₁.footing h
  have hclear₁ := hclear.wrote (fun _ => id) hwrote₁
  obtain ⟨t₂, hrun₂, hwrote₂⟩ := writeFiles_succeeds h₁ hclear₁ (fun _ => id) hfiles
  obtain ⟨t₃, hrun₃, -⟩ := writeFiles_succeeds (hwrote₂.footing h₁)
    (hclear₁.wrote (fun _ => id) hwrote₂) (fun _ => id) hlast
  refine ⟨.ofResults (results.map Prod.fst), { w with tree := t₃ }, ?_, hwritten⟩
  rw [produce, hrun]
  dsimp only
  rw [hlaid', writeLayout_of_writeFiles hdry hlayout hrun₂ hrun₃]

end Runs

end RestForge.Run
