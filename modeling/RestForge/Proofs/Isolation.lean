import RestForge.Proofs.OtherFiles
import RestForge.Proofs.RemovedFile
import RestForge.Proofs.TypeNames

/-!
# A file that fails and the others

* `Alike`, `alike_resolve`: resolving looks at the names of types only.
* `judge`, `judgeAll`, `generate_dry`: what a dry run reports, without files and printing.
* `judgeAll_without`: generation with and without a file that could not be read.
* `failing_file_isolated_iff`: exactly when the other files end the same.
-/

set_option autoImplicit false

namespace RestForge.Run

open Naming Schema
open Crate (ResourceEntry)

/-! ## Resolving -/

section Alike

variable {ε α β : Type}

/-- On tables with the same names of types the action has the same result and leaves such tables. -/
def Alike (act : Action ε α) : Prop :=
  ∀ t u, SameTypes t u → (act t).1 = (act u).1 ∧ SameTypes (act t).2 (act u).2

theorem alike_pure (x : α) : Alike (pure x : Action ε α) := fun _ _ h => ⟨rfl, h⟩

theorem alike_bind {act : Action ε α} {f : α → Action ε β} (hact : Alike act)
    (hf : ∀ x, Alike (f x)) : Alike (act >>= f) := by
  intro t u h
  rw [bind_apply, bind_apply]
  obtain ⟨hresult, htable⟩ := hact t u h
  rcases hactt : act t with ⟨e | x, t₁⟩ <;> rcases hactu : act u with ⟨e' | x', u₁⟩ <;>
    rw [hactt, hactu] at hresult htable <;> cases hresult
  · exact ⟨rfl, htable⟩
  · exact hf x t₁ u₁ htable

theorem alike_mapM {act : α → Action ε β} (hact : ∀ x, Alike (act x)) (xs : List α) :
    Alike (xs.mapM act) := by
  induction xs with
  | nil => exact alike_pure []
  | cons x xs ih =>
    rw [List.mapM_cons]
    exact alike_bind (hact x) fun y => alike_bind ih fun ys => alike_pure (y :: ys)

theorem sameTypes_add {t u : NameTable} (h : SameTypes t u) (s : Scope) (w c : String) :
    SameTypes (t.add s w c) (u.add s w c) := by
  intro s' hs'
  refine ⟨fun w' => ?_, fun c' => ?_⟩
  · rw [NameTable.codeName?_add, NameTable.codeName?_add, (h s' hs').1]
  · rw [NameTable.wireName?_add, NameTable.wireName?_add, (h s' hs').2]

theorem alike_register (resource : String) (reg : Registration) :
    Alike (register (Scope.types resource) reg) := by
  intro t u h
  obtain ⟨hcode, hwire⟩ := h (Scope.types resource) rfl
  unfold register
  obtain ⟨known, hk, he⟩ | ⟨owner, hw, hc, he⟩ | ⟨hw, hc, he⟩ :=
    t.record_cases (Scope.types resource) reg.key reg.name
  · rw [he, NameTable.record_known reg.name ((hcode _).symm.trans hk)]
    exact ⟨rfl, h⟩
  · rw [he, NameTable.record_owned ((hcode _).symm.trans hw) ((hwire _).symm.trans hc)]
    exact ⟨rfl, h⟩
  · rw [he, NameTable.record_free ((hcode _).symm.trans hw) ((hwire _).symm.trans hc)]
    exact ⟨rfl, sameTypes_add h _ _ _⟩

theorem alike_resolve (r : Resource) : Alike (resolve r) := by
  refine alike_bind (alike_mapM (fun p => ?_) r.tables) fun pairs => alike_pure _
  refine alike_bind (alike_register _ _) fun model => ?_
  exact alike_bind (alike_register _ _) fun client => alike_pure _

end Alike

/-! ## Dry runs -/

/-- What is reported of a resource, given its type names or the collision between them. -/
def judge (r : Resource) : Except Collision TypeNames → Except Failure Generated
  | .error c => .ok (.errored (some r.dottedPath) (.collision c), none)
  | .ok names =>
    match Emit.assemble r names with
    | .error e => .error (.illegalName e)
    | .ok _ => .ok (.generated r.dottedPath [], some (.ofResource r names))

def judgeAll : List (SchemaFile × Prepared) → NameTable →
    Except Failure (List (FileResult × Option ResourceEntry))
  | [], _ => .ok []
  | (file, .done outcome) :: rest, t => do
    let results ← judgeAll rest t
    .ok ((⟨file, outcome⟩, none) :: results)
  | (file, .ready r) :: rest, t => do
    let (outcome, entry) ← judge r (resolve r t).1
    let results ← judgeAll rest (resolve r t).2
    .ok ((⟨file, outcome⟩, entry) :: results)

/-- The report, if the resources that were generated can be laid out. -/
def conclude (results : List (FileResult × Option ResourceEntry)) : Except Failure Report :=
  match Crate.layOut (results.filterMap Prod.snd) with
  | .error n => .error (.illegalName n)
  | .ok _ => .ok (.ofResults (results.map Prod.fst))

theorem running_bind {α β : Type} (act : Running α) (f : α → Running β) (w : World) :
    (act >>= f) w = match act w with
      | (.ok x, w') => f x w'
      | (.error e, w') => (.error e, w') := by
  have h : (act >>= f) w = (ExceptT.bindCont f (act w).1 : StateM World _) (act w).2 := rfl
  rw [h]
  rcases act w with ⟨_ | _, w'⟩ <;> rfl

theorem lift_ok {ε α : Type} (toFailure : ε → Failure) (x : α) (w : World) :
    lift toFailure (.ok x) w = (.ok x, w) := rfl

section Dry

variable {config : Config} (hdry : config.dryRun = true)

include hdry

theorem writeResource_dry (r : Resource) (names : TypeNames) (artifacts : List Emit.Artifact)
    (w : World) : writeResource config r names artifacts w
      = ((.generated r.dottedPath [], some (.ofResource r names)), w) := by
  unfold writeResource writeArtifacts
  rw [if_pos hdry]
  rfl

theorem generateOne_dry (r : Resource) (t : NameTable) (w : World) :
    generateOne config r t w
      = ((judge r (resolve r t).1).map fun generated => (generated, (resolve r t).2), w) := by
  rcases hresolve : resolve r t with ⟨c | names, t'⟩
  · unfold generateOne
    simp only [hresolve]
    rfl
  · rw [generateOne_eq hresolve]
    cases hfiles : Emit.assemble r names with
    | error e => simp only [judge, hfiles]; rfl
    | ok artifacts =>
      simp only [judge, hfiles, writeResource_dry hdry]
      rfl

theorem generateAll_dry (prepared : List (SchemaFile × Prepared)) (t : NameTable) (w : World) :
    generateAll config prepared t w = (judgeAll prepared t, w) := by
  induction prepared generalizing t with
  | nil => rfl
  | cons x prepared ih =>
    obtain ⟨file, outcome | r⟩ := x
    · rw [generateAll, running_bind, ih, judgeAll]
      cases judgeAll prepared t with
      | error e => rfl
      | ok results => rfl
    · rw [generateAll, running_bind, generateOne_dry hdry, judgeAll]
      cases judge r (resolve r t).1 with
      | error e => rfl
      | ok generated =>
        obtain ⟨outcome, entry⟩ := generated
        dsimp only [Except.map]
        rw [running_bind, ih]
        rcases judgeAll prepared (resolve r t).2 with e | results <;> rfl

theorem writeLayout_dry (entries : List ResourceEntry) (w : World) :
    ∃ w', writeLayout config entries w = (match Crate.layOut entries with
      | .error n => .error (.illegalName n)
      | .ok _ => .ok (), w') := by
  unfold writeLayout
  rw [running_bind]
  cases Crate.layOut entries with
  | error n => exact ⟨w, rfl⟩
  | ok files =>
    rw [lift_ok]
    dsimp only
    rw [if_pos hdry]
    exact ⟨_, rfl⟩

theorem generate_dry {tree : FileTree} {shown : String} {files : List SchemaFile}
    (hfiles : findFiles config tree = .ok files) :
    (generate config ⟨tree, shown⟩).1
      = judgeAll (readAll config.maxDepth tree files [] .empty).1
          (readAll config.maxDepth tree files [] .empty).2 >>= conclude := by
  have hget : (get : Running World) ⟨tree, shown⟩ = (.ok ⟨tree, shown⟩, ⟨tree, shown⟩) := rfl
  have hkept : ¬(config.clean && !config.dryRun) = true := by simp [hdry]
  unfold generate
  rw [running_bind, hget]
  dsimp only
  rw [running_bind, hfiles, lift_ok]
  dsimp only
  rw [if_neg hkept, running_bind, hget]
  dsimp only
  rw [running_bind, generateAll_dry hdry]
  cases judgeAll (readAll config.maxDepth tree files [] .empty).1
      (readAll config.maxDepth tree files [] .empty).2 with
  | error e => rfl
  | ok results =>
    dsimp only
    obtain ⟨w', hlayout⟩ := writeLayout_dry hdry (results.filterMap Prod.snd) ⟨tree, shown⟩
    rw [running_bind, hlayout]
    show _ = conclude results
    unfold conclude
    cases Crate.layOut (results.filterMap Prod.snd) with
    | error n => rfl
    | ok files => rfl

end Dry

/-! ## Results and what was read -/

theorem eq_of_once {α β : Type} {f : α → β} {l : List α} {before after : List β} {y : β}
    (hl : l.map f = before ++ y :: after) (honce : y ∉ before ++ after) {a b : α} (ha : a ∈ l)
    (hb : b ∈ l) (hfa : f a = y) (hfb : f b = y) : a = b := by
  obtain ⟨l₁, l₂, rfl, rfl, h₂⟩ := List.map_eq_append_iff.mp hl
  obtain ⟨x, l₃, rfl, hx, rfl⟩ := List.map_eq_cons_iff.mp h₂
  have hone : ∀ c ∈ l₁ ++ x :: l₃, f c = y → c = x := by
    intro c hc hfc
    obtain hc | hc := List.mem_append.mp hc
    · exact absurd (List.mem_append_left _ (List.mem_map.mpr ⟨c, hc, hfc⟩)) honce
    · obtain rfl | hc := List.mem_cons.mp hc
      · rfl
      · exact absurd (List.mem_append_right _ (List.mem_map.mpr ⟨c, hc, hfc⟩)) honce
  rw [hone a ha hfa, hone b hb hfb]

section Judging

variable {prepared : List (SchemaFile × Prepared)} {t u : NameTable}
  {results : List (FileResult × Option ResourceEntry)}

/-- A resource that was read ends with no schema error. -/
theorem judge_ok {r : Resource} {names : Except Collision TypeNames} {generated : Generated}
    (h : judge r names = .ok generated) (d : Option String) (e : SchemaError) :
    generated.1 ≠ .errored d (.schema e) := by
  unfold judge at h
  split at h
  · cases h
    simp
  · split at h
    · cases h
    · cases h
      simp

theorem mem_judgeAll (h : judgeAll prepared t = .ok results) {x : FileResult × Option ResourceEntry}
    (hx : x ∈ results) : (x.1.file, .done x.1.outcome) ∈ prepared ∧ x.2 = none
      ∨ ∃ r, (x.1.file, .ready r) ∈ prepared ∧ ∀ d e, x.1.outcome ≠ .errored d (.schema e) := by
  induction prepared generalizing t results with
  | nil =>
    cases h
    cases hx
  | cons y prepared ih =>
    obtain ⟨file, outcome | r⟩ := y
    · obtain ⟨rest, hrest, he⟩ := except_bind_ok h
      cases he
      obtain rfl | hx := List.mem_cons.mp hx
      · exact .inl ⟨List.mem_cons_self, rfl⟩
      · exact (ih hrest hx).imp (fun h => ⟨List.mem_cons_of_mem _ h.1, h.2⟩)
          fun ⟨r, hr, hne⟩ => ⟨r, List.mem_cons_of_mem _ hr, hne⟩
    · obtain ⟨generated, hgenerated, h⟩ := except_bind_ok h
      obtain ⟨rest, hrest, he⟩ := except_bind_ok h
      cases he
      obtain rfl | hx := List.mem_cons.mp hx
      · exact .inr ⟨r, List.mem_cons_self, judge_ok hgenerated⟩
      · exact (ih hrest hx).imp (fun h => ⟨List.mem_cons_of_mem _ h.1, h.2⟩)
          fun ⟨r, hr, hne⟩ => ⟨r, List.mem_cons_of_mem _ hr, hne⟩

theorem judgeAll_done (h : judgeAll prepared t = .ok results) {file : SchemaFile} {outcome : Outcome}
    (hmem : (file, .done outcome) ∈ prepared) : (⟨file, outcome⟩, none) ∈ results := by
  induction prepared generalizing t results with
  | nil => cases hmem
  | cons y prepared ih =>
    obtain ⟨file', outcome' | r⟩ := y
    · obtain ⟨rest, hrest, he⟩ := except_bind_ok h
      cases he
      obtain hsame | hmem := List.mem_cons.mp hmem
      · cases hsame
        exact List.mem_cons_self
      · exact List.mem_cons_of_mem _ (ih hrest hmem)
    · obtain ⟨generated, -, h⟩ := except_bind_ok h
      obtain ⟨rest, hrest, he⟩ := except_bind_ok h
      cases he
      obtain hsame | hmem := List.mem_cons.mp hmem
      · cases hsame
      · exact List.mem_cons_of_mem _ (ih hrest hmem)

/-- A file that ends with a schema error was not read, since it has one result. -/
theorem done_of_schemaError {file : SchemaFile} {before after : List SchemaFile}
    {d : Option String} {e : SchemaError}
    (hfiles : prepared.map Prod.fst = before ++ file :: after) (honce : file ∉ before ++ after)
    (h : judgeAll prepared t = .ok results)
    (hmem : ⟨file, .errored d (.schema e)⟩ ∈ results.map Prod.fst) :
    ∀ x ∈ prepared, x.1 = file → ∃ outcome, x.2 = .done outcome := by
  intro x hx hfile
  obtain ⟨y, hy, he⟩ := List.mem_map.mp hmem
  obtain ⟨hstopped, -⟩ | ⟨r, -, hne⟩ := mem_judgeAll h hy
  · rw [he] at hstopped
    have hsame := eq_of_once hfiles honce hx hstopped hfile rfl
    exact ⟨_, by rw [hsame]⟩
  · exact absurd (by rw [he]) (hne d e)

/-- A file that was not read has no part in what is generated of the others. -/
theorem judgeAll_without {file : SchemaFile}
    (hdone : ∀ x ∈ prepared, x.1 = file → ∃ outcome, x.2 = .done outcome) (htu : SameTypes t u)
    (h : judgeAll prepared u = .ok results) :
    judgeAll (prepared.filter (·.1 ≠ file)) t = .ok (results.filter (·.1.file ≠ file)) := by
  induction prepared generalizing t u results with
  | nil =>
    cases h
    rfl
  | cons y prepared ih =>
    have hrestdone := fun x hx => hdone x (List.mem_cons_of_mem _ hx)
    obtain ⟨file', outcome | r⟩ := y
    · obtain ⟨rest, hrest, he⟩ := except_bind_ok h
      cases he
      have hothers := ih hrestdone htu hrest
      by_cases hfile : file' = file
      · rw [List.filter_cons_of_neg (by simpa using hfile),
          List.filter_cons_of_neg (by simpa using hfile), hothers]
      · rw [List.filter_cons_of_pos (by simpa using hfile),
          List.filter_cons_of_pos (by simpa using hfile), judgeAll, hothers]
        rfl
    · obtain ⟨⟨outcome, entry⟩, hgenerated, h⟩ := except_bind_ok h
      obtain ⟨rest, hrest, he⟩ := except_bind_ok h
      cases he
      have hfile : file' ≠ file := by
        intro hfile
        obtain ⟨outcome', he⟩ := hdone _ List.mem_cons_self hfile
        cases he
      obtain ⟨hsame, htables⟩ := alike_resolve r t u htu
      rw [List.filter_cons_of_pos (by simpa using hfile),
        List.filter_cons_of_pos (by simpa using hfile), judgeAll, hsame, hgenerated]
      exact except_bind_ok_iff.mpr ⟨(outcome, entry), rfl,
        except_bind_ok_iff.mpr ⟨_, ih hrestdone htables hrest, rfl⟩⟩

/-- A file that was not read adds nothing to the crate. -/
theorem entries_without {file : SchemaFile}
    (hdone : ∀ x ∈ prepared, x.1 = file → ∃ outcome, x.2 = .done outcome)
    (h : judgeAll prepared t = .ok results) :
    (results.filter (·.1.file ≠ file)).filterMap Prod.snd = results.filterMap Prod.snd := by
  rw [List.filterMap_filter]
  refine List.filterMap_congr fun x hx => ?_
  by_cases hfile : x.1.file = file
  · obtain ⟨-, hnone⟩ | ⟨r, hr, -⟩ := mem_judgeAll h hx
    · rw [if_neg (by simpa using hfile), hnone]
    · obtain ⟨outcome, he⟩ := hdone _ hr hfile
      cases he
  · rw [if_pos (by simpa using hfile)]

end Judging

/-! ## The other files -/

theorem conclude_ok_iff {results : List (FileResult × Option ResourceEntry)} {report : Report} :
    conclude results = .ok report ↔ report = .ofResults (results.map Prod.fst)
      ∧ ∃ files, Crate.layOut (results.filterMap Prod.snd) = .ok files := by
  unfold conclude
  cases Crate.layOut (results.filterMap Prod.snd) with
  | error n => simp
  | ok files => simp [eq_comm]

/-- **When a file that fails harms no other.** In a dry run a schema file ends with a schema error, and
no other file claims its dotted path. Without the file the run reports the same of all others exactly
if every collision that stopped one of them names an owner who has the code name without the file as
well: only the names that the failing file has left behind are in the way. -/
theorem failing_file_isolated_iff {config : Config} {tree tree' : FileTree} {file : SchemaFile}
    {before after : List SchemaFile} {shown shown' : String} {report : Report}
    (hremoved : Removed config tree tree' file before after) (hdry : config.dryRun = true)
    (hrun : (generate config ⟨tree, shown⟩).1 = .ok report)
    (hfailed : ∃ d e, ⟨file, .errored d (.schema e)⟩ ∈ report.results)
    (hclaim : ∀ d, claimed? tree file = some d → ∀ g ∈ before ++ after, claimed? tree g ≠ some d) :
    (∃ report', (generate config ⟨tree', shown'⟩).1 = .ok report'
        ∧ report'.results = report.results.filter (·.file ≠ file))
      ↔ ∀ x ∈ report.results, x.file ≠ file → ∀ d path c, x.outcome = collided d path c →
        Holds (readAll config.maxDepth tree' (before ++ after) [] .empty).2 c := by
  rw [generate_dry hdry hremoved.found] at hrun
  rw [generate_dry hdry hremoved.left]
  obtain ⟨results, hresults, hconclude⟩ := except_bind_ok hrun
  obtain ⟨hreport, files, hlayout⟩ := conclude_ok_iff.mp hconclude
  have hsound : ∀ files, (readAll config.maxDepth tree' files [] .empty).2.Sound :=
    fun files => (readAll_keeps _ _ NameTable.sound_empty).2
  have htypes : SameTypes (readAll config.maxDepth tree' (before ++ after) [] .empty).2
      (readAll config.maxDepth tree (before ++ file :: after) [] .empty).2 :=
    readAll_sameTypes.symm.trans readAll_sameTypes
  have hdone : ∀ x ∈ (readAll config.maxDepth tree (before ++ file :: after) [] .empty).1,
      x.1 = file → ∃ outcome, x.2 = .done outcome := by
    obtain ⟨d, e, hmem⟩ := hfailed
    rw [hreport] at hmem
    exact done_of_schemaError readAll_files hremoved.once hresults hmem
  constructor
  · rintro ⟨report', hrun', hsame⟩ x hx hfile d path c hcollided
    obtain ⟨results', hresults', hconclude'⟩ := except_bind_ok hrun'
    obtain ⟨hreport', -⟩ := conclude_ok_iff.mp hconclude'
    have hx' : x ∈ results'.map Prod.fst := by
      rw [← Report.results_ofResults (results'.map Prod.fst), ← hreport', hsame]
      exact List.mem_filter.mpr ⟨hx, by simpa using hfile⟩
    obtain ⟨y, hy, rfl⟩ := List.mem_map.mp hx'
    -- resolving ends with no schema error, so that the collision was met in reading
    obtain ⟨hstopped, -⟩ | ⟨r, -, hne⟩ := mem_judgeAll hresults' hy
    · rw [hcollided] at hstopped
      exact readAll_owned NameTable.sound_empty hstopped
    · exact absurd hcollided (hne _ _)
  · intro hheld
    -- the first file that is read differently is refused a name that it gets without the failing file
    obtain hsame | ⟨g, hg, d, path, c, hmem, husurped⟩ := readAll_without config.maxDepth []
      hremoved.once hremoved.load hclaim NameTable.sound_empty
    · have hothers := judgeAll_without hdone htypes hresults
      rw [← hsame] at hothers
      refine ⟨.ofResults ((results.filter (·.1.file ≠ file)).map Prod.fst), ?_, ?_⟩
      · refine except_bind_ok_iff.mpr ⟨_, hothers, conclude_ok_iff.mpr ⟨rfl, files, ?_⟩⟩
        rw [entries_without hdone hresults, hlayout]
      · rw [hreport, Report.results_ofResults, Report.results_ofResults, List.filter_map]
        rfl
    · have hreported : ⟨g, collided d path c⟩ ∈ report.results := by
        rw [hreport]
        exact List.mem_map.mpr ⟨_, judgeAll_done hresults hmem, rfl⟩
      exact absurd (hheld _ hreported hg d path c rfl) (husurped.not_holds (hsound _).twoWay)

/-! ## A name left behind -/

def hyphenText : String :=
  "\x7b\"category\":\"config\",\"path\":\"a-b\",\"methods\":[],\"fields\":[\x7b\x7d]\x7d"

def hyphenMembers : Record :=
  [("category", .string "config"), ("fields", .array [.object []]), ("methods", .array []),
    ("path", .string "a-b")]

def underscoreText : String := "\x7b\"category\":\"config\",\"path\":\"a_b\",\"methods\":[]\x7d"

def underscoreMembers : Record :=
  [("category", .string "config"), ("methods", .array []), ("path", .string "a_b")]

def underscoreResource : Resource := ⟨.config, ["a_b"], ["a_b"], none, none, [], [], []⟩

def dryConfig : Config := { Config.standard with dryRun := true }

def hyphenFile : SchemaFile := ⟨"schemas/a.json", ["a.json"]⟩

def underscoreFile : SchemaFile := ⟨"schemas/b.json", ["b.json"]⟩

def bothTree : FileTree :=
  ⟨[], [(["schemas"], .directory), (["schemas", "a.json"], .file hyphenText.toUTF8.data),
    (["schemas", "b.json"], .file underscoreText.toUTF8.data)], []⟩

def oneTree : FileTree := bothTree.erase ["schemas", "a.json"]

theorem bothTree_root : bothTree.directoryAt? "schemas" = some ["schemas"] := by
  have hpieces : FileTree.Path.pieces "schemas" = ["schemas"] := by decide
  have hget : bothTree.get? (bothTree.workingDirectory ++ ["schemas"]) = some .directory := rfl
  unfold FileTree.directoryAt? FileTree.entryAt?
  rw [FileTree.locate_relative (by decide), hpieces, FileTree.walk_name (by decide), hget,
    FileTree.walk]
  rfl

theorem bothTree_file {path name : String} {bytes : Array UInt8}
    (hpath : FileTree.IsRelative path) (hname : FileTree.IsName name)
    (hpieces : FileTree.Path.pieces path = ["schemas", name])
    (hfile : bothTree.get? ["schemas", name] = some (.file bytes)) :
    bothTree.locate true path = .ok (.found ["schemas", name] (.file bytes)) := by
  have hget : bothTree.get? (bothTree.workingDirectory ++ ["schemas"]) = some .directory := rfl
  have hplace : bothTree.workingDirectory ++ ["schemas"] ++ [name] = ["schemas", name] := rfl
  rw [FileTree.locate_relative hpath, hpieces, FileTree.walk_name (by decide), hget]
  dsimp only
  rw [FileTree.walk_name hname, hplace, hfile]
  rfl

theorem hyphenFile_at : bothTree.locate true hyphenFile.path
    = .ok (.found ["schemas", "a.json"] (.file hyphenText.toUTF8.data)) :=
  bothTree_file (by decide) (by decide) (by decide) rfl

theorem underscoreFile_at : bothTree.locate true underscoreFile.path
    = .ok (.found ["schemas", "b.json"] (.file underscoreText.toUTF8.data)) :=
  bothTree_file (by decide) (by decide) (by decide) rfl

theorem bothTree_files : findFiles dryConfig bothTree = .ok [hyphenFile, underscoreFile] := by
  have hroot : dryConfig.schemaRoot = "schemas" := rfl
  refine findFiles_ok_iff.mpr ⟨by decide, ?_⟩
  rw [discover, hroot, bothTree_root]
  rfl

theorem removed_hyphenFile :
    Removed dryConfig bothTree oneTree hyphenFile [] [underscoreFile] := by
  have honce : hyphenFile ∉ [] ++ [underscoreFile] := by decide
  have hothers : ∀ g ∈ [] ++ [underscoreFile], ∃ place bytes,
      bothTree.locate true g.path = .ok (.found place (.file bytes))
        ∧ place ≠ ["schemas"] ++ hyphenFile.names := by
    intro g hg
    obtain rfl := List.mem_singleton.mp hg
    exact ⟨_, _, underscoreFile_at, by decide⟩
  have hroot : bothTree.directoryAt? dryConfig.schemaRoot = some ["schemas"] := bothTree_root
  have hfound : findFiles dryConfig bothTree = .ok ([] ++ hyphenFile :: [underscoreFile]) :=
    bothTree_files
  have hfile : bothTree.get? (["schemas"] ++ hyphenFile.names)
      = some (.file hyphenText.toUTF8.data) := rfl
  have herased : oneTree = bothTree.erase (["schemas"] ++ hyphenFile.names) := rfl
  rw [herased]
  exact removed_erase hroot hfound honce hfile hothers

theorem headed_hyphenFile :
    headed bothTree hyphenFile = .ok ("config.a-b", .object hyphenMembers) := by
  have hread : readDottedPath (.object hyphenMembers) = .ok "config.a-b" := rfl
  have hload : Schema.load bothTree hyphenFile.path = .ok (.object hyphenMembers) :=
    load_ok hyphenFile_at rfl
  rw [headed, if_neg (by decide), hload]
  dsimp only
  rw [hread]

theorem headed_underscoreFile :
    headed bothTree underscoreFile = .ok ("config.a_b", .object underscoreMembers) := by
  have hread : readDottedPath (.object underscoreMembers) = .ok "config.a_b" := rfl
  have hload : Schema.load bothTree underscoreFile.path = .ok (.object underscoreMembers) :=
    load_ok underscoreFile_at rfl
  rw [headed, if_neg (by decide), hload]
  dsimp only
  rw [hread]

theorem hyphenFile_claims : ∀ d, claimed? bothTree hyphenFile = some d →
    ∀ g ∈ [] ++ [underscoreFile], claimed? bothTree g ≠ some d := by
  intro d hd g hg hd'
  obtain rfl := List.mem_singleton.mp hg
  rw [claimed?, headed_hyphenFile] at hd
  rw [claimed?, headed_underscoreFile] at hd'
  exact absurd (hd.trans hd'.symm) (by decide)

/-- The table after the first file: the module has its name before any field is read. -/
def takenTable : NameTable := NameTable.empty.add (Scope.modules "config") "a-b" "a_b"

/-- The table after the second file alone. -/
def freeTable : NameTable := NameTable.empty.add (Scope.modules "config") "a_b" "a_b"

def collision : Collision := ⟨Scope.modules "config", "a_b", "a-b", "a_b"⟩

theorem hyphenMembers_refused (room : Nat) : readResource room (.object hyphenMembers) .empty
    = (.error (.flawed (.unnamedField ⟨[0]⟩)), takenTable) := by
  have hmodules : readModules "config" ["a-b"] .empty = (.ok ["a_b"], takenTable) :=
    readModules_single (by decide) (by simp) (by simp)
  refine (lift_ok_bind rfl).trans ?_
  refine (lift_ok_bind (x := (⟨.config, ["a-b"], []⟩ : Header)) rfl).trans ?_
  refine (ok_bind hmodules).trans ?_
  cases room <;> rfl

theorem underscoreMembers_refused (room : Nat) :
    readResource room (.object underscoreMembers) takenTable
      = (.error (.collides collision), takenTable) := by
  have hname : giveName (Scope.modules "config") "a_b" takenTable
      = (.error (.collides collision), takenTable) := by
    refine giveName_owned (by decide) ?_ ?_ <;>
      simp [takenTable, NameTable.codeName?_add, NameTable.wireName?_add]
  have hmodules : readModules "config" ["a_b"] takenTable
      = (.error (.collides collision), takenTable) := by
    rw [readModules, error_bind hname]
  refine (lift_ok_bind rfl).trans ?_
  refine (lift_ok_bind (x := (⟨.config, ["a_b"], []⟩ : Header)) rfl).trans ?_
  exact error_bind hmodules

theorem underscoreMembers_read (room : Nat) :
    readResource room (.object underscoreMembers) .empty = (.ok underscoreResource, freeTable) := by
  have hmodules : readModules "config" ["a_b"] .empty = (.ok ["a_b"], freeTable) :=
    readModules_single (by decide) (by simp) (by simp)
  refine (lift_ok_bind rfl).trans ?_
  refine (lift_ok_bind (x := (⟨.config, ["a_b"], []⟩ : Header)) rfl).trans ?_
  refine (ok_bind hmodules).trans ?_
  cases room <;> rfl

def refusal : SchemaError := .refused hyphenFile.path (.flawed (.unnamedField ⟨[0]⟩))

/-- What is reported of the second file where the first is there. -/
def bystander : Outcome := collided (some "config.a_b") underscoreFile.path collision

theorem readAll_bothTree (room : Nat) :
    readAll room bothTree [hyphenFile, underscoreFile] [] .empty
      = ([(hyphenFile, .done (.errored (some "config.a-b") (.schema refusal))),
        (underscoreFile, .done bystander)], takenTable) := by
  have hfirst : readFile room bothTree hyphenFile [] .empty
      = (.done (.errored (some "config.a-b") (.schema refusal)),
        [("config.a-b", hyphenFile.path)], takenTable) := by
    rw [readFile_eq, headed_hyphenFile]
    dsimp only [List.lookup]
    rw [readClaimed, hyphenMembers_refused]
    rfl
  have hsecond : readFile room bothTree underscoreFile [("config.a-b", hyphenFile.path)] takenTable
      = (.done bystander,
        [("config.a_b", underscoreFile.path), ("config.a-b", hyphenFile.path)], takenTable) := by
    have hunclaimed : [("config.a-b", hyphenFile.path)].lookup "config.a_b" = none := by decide
    rw [readFile_eq, headed_underscoreFile]
    dsimp only
    rw [hunclaimed, readClaimed, underscoreMembers_refused]
    rfl
  rw [readAll_cons, hfirst, readAll_cons, hsecond]
  rfl

theorem readAll_oneTree (room : Nat) : readAll room oneTree [underscoreFile] [] .empty
    = ([(underscoreFile, .ready underscoreResource)], freeTable) := by
  have hheaded : headed oneTree underscoreFile = .ok ("config.a_b", .object underscoreMembers) := by
    rw [headed_congr (removed_hyphenFile.load underscoreFile (by decide)), headed_underscoreFile]
  have hfile : readFile room oneTree underscoreFile [] .empty
      = (.ready underscoreResource, [("config.a_b", underscoreFile.path)], freeTable) := by
    rw [readFile_eq, hheaded]
    dsimp only [List.lookup]
    rw [readClaimed, underscoreMembers_read]
  rw [readAll_cons, hfile]
  rfl

def underscoreNames : TypeNames := ⟨[("", ⟨"AB", "AB" ++ "Client"⟩)]⟩

theorem resolve_underscoreResource :
    ∃ t, resolve underscoreResource freeTable = (.ok underscoreNames, t) := by
  refine ⟨_, resolve_flat rfl (by decide) (NameTable.record_free ?_ ?_)
    (NameTable.record_free ?_ ?_)⟩ <;>
    simp [freeTable, Scope.types, Scope.modules, NameTable.codeName?_add, NameTable.wireName?_add]

theorem assemble_underscoreResource :
    ∃ artifacts, Emit.assemble underscoreResource underscoreNames = .ok artifacts := by
  refine (Emit.assemble_ok_iff rfl).mpr fun p hp => ?_
  rw [tables_flat rfl] at hp
  obtain rfl := List.mem_singleton.mp hp
  decide

theorem judge_underscoreResource : judge underscoreResource (resolve underscoreResource freeTable).1
    = .ok (.generated "config.a_b" [], some (.ofResource underscoreResource underscoreNames)) := by
  obtain ⟨t, hresolve⟩ := resolve_underscoreResource
  obtain ⟨artifacts, hfiles⟩ := assemble_underscoreResource
  rw [hresolve, judge, hfiles]
  rfl

theorem run_bothTree : (generate dryConfig ⟨bothTree, ""⟩).1
    = .ok (.ofResults [⟨hyphenFile, .errored (some "config.a-b") (.schema refusal)⟩,
      ⟨underscoreFile, bystander⟩]) := by
  rw [generate_dry rfl bothTree_files, readAll_bothTree]
  exact except_bind_ok_iff.mpr ⟨_, rfl, conclude_ok_iff.mpr ⟨rfl, _, rfl⟩⟩

theorem run_oneTree : (generate dryConfig ⟨oneTree, ""⟩).1
    = .ok (.ofResults [⟨underscoreFile, .generated "config.a_b" []⟩]) := by
  rw [generate_dry rfl removed_hyphenFile.left, List.nil_append, readAll_oneTree, judgeAll,
    judge_underscoreResource]
  exact except_bind_ok_iff.mpr ⟨_, rfl, conclude_ok_iff.mpr ⟨rfl, _, rfl⟩⟩

/-- The first file ends with a schema error and claims a path of its own; the second is refused where
it is there, and generated where it is not. -/
theorem failing_file_harms_another :
    Removed dryConfig bothTree oneTree hyphenFile [] [underscoreFile]
      ∧ (∀ d, claimed? bothTree hyphenFile = some d →
        ∀ g ∈ [] ++ [underscoreFile], claimed? bothTree g ≠ some d)
      ∧ (generate dryConfig ⟨bothTree, ""⟩).1
        = .ok (.ofResults [⟨hyphenFile, .errored (some "config.a-b") (.schema refusal)⟩,
          ⟨underscoreFile, bystander⟩])
      ∧ (generate dryConfig ⟨oneTree, ""⟩).1
        = .ok (.ofResults [⟨underscoreFile, .generated "config.a_b" []⟩])
      ∧ bystander ≠ .generated "config.a_b" [] :=
  ⟨removed_hyphenFile, hyphenFile_claims, run_bothTree, run_oneTree, by simp [bystander, collided]⟩

theorem failing_file_isolated_iff_hyphen :
    ∃ report, Removed dryConfig bothTree oneTree hyphenFile [] [underscoreFile]
      ∧ dryConfig.dryRun = true ∧ (generate dryConfig ⟨bothTree, ""⟩).1 = .ok report
      ∧ (∃ d e, ⟨hyphenFile, .errored d (.schema e)⟩ ∈ report.results)
      ∧ (∀ d, claimed? bothTree hyphenFile = some d →
        ∀ g ∈ [] ++ [underscoreFile], claimed? bothTree g ≠ some d)
      ∧ ((∃ report', (generate dryConfig ⟨oneTree, ""⟩).1 = .ok report'
          ∧ report'.results = report.results.filter (·.file ≠ hyphenFile))
        ↔ ∀ x ∈ report.results, x.file ≠ hyphenFile → ∀ d path c, x.outcome = collided d path c →
          Holds (readAll dryConfig.maxDepth oneTree ([] ++ [underscoreFile]) [] .empty).2 c) := by
  have hfailed : ∃ d e, (⟨hyphenFile, .errored d (.schema e)⟩ : FileResult)
      ∈ [⟨hyphenFile, .errored (some "config.a-b") (.schema refusal)⟩,
        ⟨underscoreFile, bystander⟩] := ⟨_, _, List.mem_cons_self⟩
  exact ⟨_, removed_hyphenFile, rfl, run_bothTree, hfailed, hyphenFile_claims,
    failing_file_isolated_iff removed_hyphenFile rfl run_bothTree hfailed hyphenFile_claims⟩

end RestForge.Run
