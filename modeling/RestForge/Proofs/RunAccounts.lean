import RestForge.Proofs.ErroredFiles

/-!
# What a report says of its run

* `cleaned`, `produce`, `generate_eq`: a run is a search for files, a clean-up and the production of
  what was found.
* `firstClaim?`, `readAll_at`, `readAll_repeated`: of the files with one dotted path all but the
  first are refused.
* `ResultOf`, `generateAll_resultsOf`: one result for each file, in their order.
* `Account`: what a report says; `run_accounts`: so it is in every run that ends with a report.
-/

set_option autoImplicit false

namespace RestForge.Run

open Naming Emit Schema
open Crate (ResourceEntry)
open FileTree (WriteFailure replaceFile)
open FileTree.Path (join)

/-! ## The parts of a run -/

/-- Clean-up of what an earlier run has generated, where it is asked for. -/
def cleaned (config : Config) (tree : FileTree) : Except WriteFailure Unit × FileTree :=
  if config.clean && !config.dryRun then FileTree.removeTree (sourceRoot config) tree
  else (.ok (), tree)

/-- What a run reads of the files that it has found. -/
def prepare (config : Config) (files : List SchemaFile) (tree : FileTree) :
    List (SchemaFile × Prepared) × NameTable :=
  readAll config.maxDepth tree files [] .empty

/-- A run from the files that it has found. -/
def produce (config : Config) (files : List SchemaFile) (w : World) :
    Except Failure Report × World :=
  match generateAll config (prepare config files w.tree).1 (prepare config files w.tree).2 w with
  | (.error e, w₁) => (.error e, w₁)
  | (.ok results, w₁) =>
    match writeLayout config (results.filterMap Prod.snd) w₁ with
    | (.error e, w₂) => (.error e, w₂)
    | (.ok (), w₂) => (.ok (.ofResults (results.map Prod.fst)), w₂)

theorem generate_eq (config : Config) (w : World) :
    generate config w = match findFiles config w.tree with
      | .error flaw => (.error (.config flaw), w)
      | .ok files =>
        match cleaned config w.tree with
        | (.error f, tree) => (.error (.write f), { w with tree })
        | (.ok (), tree) => produce config files { w with tree } := by
  have hget : ∀ w : World, (get : Running World) w = (.ok w, w) := fun _ => rfl
  have htail : ∀ (files : List SchemaFile) (w : World),
      (do
        let results ← generateAll config (prepare config files w.tree).1
          (prepare config files w.tree).2
        writeLayout config (results.filterMap Prod.snd)
        return .ofResults (results.map Prod.fst) : Running Report) w = produce config files w := by
    intro files w
    rw [running_bind, produce]
    rcases generateAll config (prepare config files w.tree).1 (prepare config files w.tree).2 w
      with ⟨e | results, w₁⟩
    · rfl
    · dsimp only
      rw [running_bind]
      rcases writeLayout config (results.filterMap Prod.snd) w₁ with ⟨e | u, w₂⟩ <;> rfl
  unfold generate
  rw [running_bind, hget]
  dsimp only
  rw [running_bind]
  cases findFiles config w.tree with
  | error flaw => rfl
  | ok files =>
    rw [lift_ok]
    dsimp only
    unfold cleaned
    split
    · rw [running_bind, writing_apply]
      rcases FileTree.removeTree (sourceRoot config) w.tree with ⟨f | u, tree⟩
      · rfl
      · dsimp only
        rw [running_bind, hget]
        exact htail files _
    · rw [running_bind, hget]
      exact htail files w

/-- A run that finds no files writes the layout alone. -/
theorem generate_nil {config : Config} {w : World} {tree : FileTree}
    (hfiles : findFiles config w.tree = .ok []) (hcleaned : cleaned config w.tree = (.ok (), tree)) :
    generate config w = match writeLayout config [] { w with tree } with
      | (.error e, w') => (.error e, w')
      | (.ok (), w') => (.ok (.ofResults []), w') := by
  have hall : generateAll config (prepare config [] tree).1 (prepare config [] tree).2 { w with tree }
      = (.ok [], { w with tree }) := rfl
  rw [generate_eq, hfiles]
  dsimp only
  rw [hcleaned]
  dsimp only
  rw [produce, hall]
  rfl

/-- A run that ends with a report has gone through all its parts. -/
theorem generate_ok {config : Config} {w w' : World} {report : Report}
    (h : generate config w = (.ok report, w')) :
    ∃ files tree results w₁, findFiles config w.tree = .ok files
      ∧ cleaned config w.tree = (.ok (), tree)
      ∧ generateAll config (prepare config files tree).1 (prepare config files tree).2
          { w with tree } = (.ok results, w₁)
      ∧ writeLayout config (results.filterMap Prod.snd) w₁ = (.ok (), w')
      ∧ report = .ofResults (results.map Prod.fst) := by
  rw [generate_eq] at h
  cases hfiles : findFiles config w.tree with
  | error flaw =>
    rw [hfiles] at h
    cases h
  | ok files =>
    rw [hfiles] at h
    dsimp only at h
    rcases hcleaned : cleaned config w.tree with ⟨f | u, tree⟩ <;> rw [hcleaned] at h
    · cases h
    · dsimp only [produce] at h
      rcases hall : generateAll config (prepare config files tree).1 (prepare config files tree).2
        { w with tree } with ⟨e | results, w₁⟩ <;> rw [hall] at h
      · cases h
      · dsimp only at h
        rcases hlayout : writeLayout config (results.filterMap Prod.snd) w₁ with ⟨e | u, w₂⟩ <;>
          rw [hlayout] at h <;> cases h
        exact ⟨files, tree, results, w₁, rfl, rfl, hall, hlayout, rfl⟩

/-! ## What is read of the files -/

/-- Why a file is refused whose dotted path another file has claimed. -/
def repeated (path dotted first : String) : Cause :=
  .schema (.refused path (.flawed (.duplicateResource dotted first)))

theorem repeated_kind (path dotted first : String) :
    (repeated path dotted first).kind = "SchemaSemanticError" := rfl

theorem repeated_message (path dotted first : String) : (repeated path dotted first).message
    = s!"Invalid schema '{path}': duplicate resource '{dotted}', already defined by {first}" := by
  have hflaw : (Flaw.duplicateResource dotted first).message
      = "duplicate resource '" ++ dotted ++ "', already defined by " ++ first := rfl
  have hmessage : (repeated path dotted first).message
      = "Invalid schema '" ++ path ++ "': " ++ (Flaw.duplicateResource dotted first).message := rfl
  have hjoin : "': duplicate resource '" = "': " ++ "duplicate resource '" := by decide
  rw [hmessage, hflaw, hjoin]
  simp only [String.append_assoc, toString]

/-- The path of the first file to claim a dotted path, among the claims and then the files. -/
def firstClaim? (tree : FileTree) (claims : Claims) (files : List SchemaFile) (dotted : String) :
    Option String :=
  claims.lookup dotted
    <|> (files.find? fun file => claimed? tree file == some dotted).map SchemaFile.path

section Reading

variable {maxDepth : Nat} {tree : FileTree} {claims : Claims} {t : NameTable}

theorem firstClaim?_cons (maxDepth : Nat) (t : NameTable) (g : SchemaFile) (files : List SchemaFile)
    (d : String) :
    firstClaim? tree (readFile maxDepth tree g claims t).2.1 files d
      = firstClaim? tree claims (g :: files) d := by
  by_cases hg : claimed? tree g = some d
  · have hheaded : ∃ doc, headed tree g = .ok (d, doc) := by
      unfold claimed? at hg
      rcases hheaded : headed tree g with outcome | ⟨dotted, doc⟩ <;> rw [hheaded] at hg <;> cases hg
      exact ⟨doc, rfl⟩
    obtain ⟨doc, hheaded⟩ := hheaded
    rw [firstClaim?, firstClaim?, readFile_eq, hheaded, List.find?_cons_of_pos (by simp [hg])]
    dsimp only
    cases hlookup : claims.lookup d with
    | some first => simp [hlookup]
    | none => simp
  · rw [firstClaim?, firstClaim?, readFile_claims hg, List.find?_cons_of_neg (by simpa using hg)]

/-- A file is read with some names before it, and with the claims of the files before it. -/
theorem readAll_at {files : List SchemaFile} {before after : List (SchemaFile × Prepared)}
    {file : SchemaFile} {prepared : Prepared}
    (h : (readAll maxDepth tree files claims t).1 = before ++ (file, prepared) :: after) :
    ∃ claims' t', prepared = (readFile maxDepth tree file claims' t').1
      ∧ ∀ d, claims'.lookup d = firstClaim? tree claims (before.map Prod.fst) d := by
  induction files generalizing before claims t with
  | nil => exact absurd h.symm (by simp [readAll])
  | cons g files ih =>
    rw [readAll_cons] at h
    cases before with
    | nil =>
      obtain ⟨hsame, -⟩ := List.cons.inj h
      obtain ⟨rfl, rfl⟩ := Prod.mk.inj hsame
      exact ⟨claims, t, rfl, fun d => by simp [firstClaim?]⟩
    | cons x before =>
      obtain ⟨rfl, hrest⟩ := List.cons.inj h
      obtain ⟨claims', t', hprepared, hclaims⟩ := ih hrest
      refine ⟨claims', t', hprepared, fun d => ?_⟩
      rw [hclaims, firstClaim?_cons maxDepth t, List.map_cons]

/-- A file whose dotted path was claimed before it is refused with the path of the first claimant. -/
theorem readAll_repeated {files : List SchemaFile} {before after : List (SchemaFile × Prepared)}
    {file : SchemaFile} {prepared : Prepared}
    (h : (readAll maxDepth tree files claims t).1 = before ++ (file, prepared) :: after)
    {d first : String} (hclaimed : claimed? tree file = some d)
    (hfirst : firstClaim? tree claims (before.map Prod.fst) d = some first) :
    prepared = .done (.errored (some d) (repeated file.path d first)) := by
  obtain ⟨claims', t', hprepared, hclaims⟩ := readAll_at h
  unfold claimed? at hclaimed
  rcases hheaded : headed tree file with outcome | ⟨dotted, doc⟩ <;> rw [hheaded] at hclaimed <;>
    cases hclaimed
  rw [hprepared, readFile_eq, hheaded]
  dsimp only
  rw [hclaims, hfirst]
  rfl

/-- A file is passed over if its name says so, and otherwise refused with a schema error, or read as
the resource that it claims to be. -/
inductive IsReadAs (tree : FileTree) (file : SchemaFile) : Prepared → Prop where
  | skipped (h : file.isSkipped = true) : IsReadAs tree file (.done .skipped)
  | refused (h : file.isSkipped = false) (d : Option String) (e : SchemaError) :
      IsReadAs tree file (.done (.errored d (.schema e)))
  | ready (h : file.isSkipped = false) (r : Resource)
      (hclaimed : claimed? tree file = some r.dottedPath) : IsReadAs tree file (.ready r)

theorem headed_skipped {file : SchemaFile} (h : file.isSkipped = true) :
    headed tree file = .error .skipped := if_pos h

theorem headed_refused {file : SchemaFile} (h : file.isSkipped = false) {outcome : Outcome}
    (hheaded : headed tree file = .error outcome) : ∃ d e, outcome = .errored d (.schema e) := by
  rw [headed, if_neg (by simp [h])] at hheaded
  cases hload : Schema.load tree file.path with
  | error e =>
    rw [hload] at hheaded
    cases hheaded
    exact ⟨_, _, rfl⟩
  | ok doc =>
    rw [hload] at hheaded
    dsimp only at hheaded
    cases hdotted : readDottedPath doc with
    | error e =>
      rw [hdotted] at hheaded
      cases hheaded
      exact ⟨_, _, rfl⟩
    | ok dotted =>
      rw [hdotted] at hheaded
      cases hheaded

theorem readFile_readAs (file : SchemaFile) :
    IsReadAs tree file (readFile maxDepth tree file claims t).1 := by
  rw [readFile_eq]
  cases hskip : file.isSkipped with
  | true =>
    rw [headed_skipped hskip]
    exact .skipped hskip
  | false =>
    rcases hheaded : headed tree file with outcome | ⟨dotted, doc⟩
    · obtain ⟨d, e, rfl⟩ := headed_refused hskip hheaded
      exact .refused hskip d e
    · dsimp only
      cases claims.lookup dotted with
      | some first => exact .refused hskip _ _
      | none =>
        dsimp only
        rw [readClaimed_fst]
        rcases hread : readResource maxDepth doc t with ⟨e | r, t'⟩
        · exact .refused hskip _ _
        · refine .ready hskip r ?_
          have hdotted := (headed_ok hheaded).symm.trans (readDottedPath_of_readResource hread)
          rw [claimed?, hheaded, Except.ok.inj hdotted]
          rfl

theorem readAll_readAs {files : List SchemaFile} {x : SchemaFile × Prepared}
    (hx : x ∈ (readAll maxDepth tree files claims t).1) : IsReadAs tree x.1 x.2 := by
  induction files generalizing claims t with
  | nil => cases hx
  | cons file files ih =>
    rw [readAll_cons] at hx
    obtain rfl | hx := List.mem_cons.mp hx
    · exact readFile_readAs file
    · exact ih hx

end Reading

/-! ## What becomes of a resource -/

/-- The files that a report lists for a resource. -/
def listedPaths (config : Config) (r : Resource) : List String :=
  if config.dryRun then []
  else ArtifactKind.all.map fun k => join config.outputRoot (resourceDir r ++ [k.fileName])

/-- How a file that was read ends: as it did in reading, or generated, or with a collision between
type names or a failure to write. -/
inductive ResultOf (config : Config) :
    SchemaFile × Prepared → FileResult × Option ResourceEntry → Prop where
  | done (file : SchemaFile) (outcome : Outcome) :
      ResultOf config (file, .done outcome) (⟨file, outcome⟩, none)
  | generated (file : SchemaFile) (r : Resource) (names : TypeNames) :
      ResultOf config (file, .ready r)
        (⟨file, .generated r.dottedPath (listedPaths config r)⟩, some (.ofResource r names))
  | collided (file : SchemaFile) (r : Resource) (c : Collision) :
      ResultOf config (file, .ready r) (⟨file, .errored (some r.dottedPath) (.collision c)⟩, none)
  | unwritten (file : SchemaFile) (r : Resource) (f : WriteFailure) :
      ResultOf config (file, .ready r) (⟨file, .errored (some r.dottedPath) (.write f)⟩, none)

section Generation

variable {config : Config}

theorem writeArtifacts_listed {r : Resource} {names : TypeNames} {artifacts : List Artifact}
    (hassembled : assemble r names = .ok artifacts) {tree tree' : FileTree} {paths : List String}
    (h : writeArtifacts config artifacts tree = (.ok paths, tree')) :
    paths = listedPaths config r := by
  unfold listedPaths
  by_cases hdry : config.dryRun = true
  · rw [if_pos hdry]
    rw [writeArtifacts, if_pos hdry] at h
    cases h
    rfl
  · rw [if_neg hdry]
    rw [writeArtifacts_apply hdry] at h
    obtain ⟨hkinds, hall⟩ := mapM_artifact_kinds hassembled
    have hpaths : paths = artifacts.map fun a => join config.outputRoot a.path := by
      rcases hrun : writeFiles config.outputRoot (artifacts.map fun a => (a.path, a.contents)) tree
        with ⟨f | u, t⟩ <;> rw [hrun] at h <;> cases h
      rfl
    rw [hpaths, ← hkinds, List.map_map]
    refine List.map_congr_left fun a ha => ?_
    rw [artifact_path (hall a ha)]
    rfl

/-- How the generation of a resource can end without ending the run. -/
inductive OneEnd (config : Config) (r : Resource) (t t' : NameTable) (tree tree' : FileTree) :
    Outcome → Option ResourceEntry → Prop where
  | collided (c : Collision) (hresolve : resolve r t = (.error c, t')) (htree : tree' = tree) :
      OneEnd config r t t' tree tree' (.errored (some r.dottedPath) (.collision c)) none
  | unwritten (names : TypeNames) (hresolve : resolve r t = (.ok names, t')) (artifacts : List Artifact)
      (hassembled : assemble r names = .ok artifacts) (f : WriteFailure)
      (hrun : writeArtifacts config artifacts tree = (.error f, tree')) :
      OneEnd config r t t' tree tree' (.errored (some r.dottedPath) (.write f)) none
  | generated (names : TypeNames) (hresolve : resolve r t = (.ok names, t')) (artifacts : List Artifact)
      (hassembled : assemble r names = .ok artifacts) (paths : List String)
      (hrun : writeArtifacts config artifacts tree = (.ok paths, tree')) :
      OneEnd config r t t' tree tree' (.generated r.dottedPath paths) (some (.ofResource r names))

theorem generateOne_end {r : Resource} {t t' : NameTable} {w w' : World} {outcome : Outcome}
    {entry : Option ResourceEntry} (h : generateOne config r t w = (.ok ((outcome, entry), t'), w')) :
    OneEnd config r t t' w.tree w'.tree outcome entry ∧ w'.shown = w.shown := by
  rcases hresolve : resolve r t with ⟨c | names, t₁⟩
  · have hcollided : generateOne config r t w
        = (.ok ((.errored (some r.dottedPath) (.collision c), none), t₁), w) := by
      unfold generateOne
      simp only [hresolve]
      rfl
    cases hcollided.symm.trans h
    exact ⟨.collided c hresolve rfl, rfl⟩
  · rw [generateOne_eq hresolve] at h
    cases hassembled : assemble r names with
    | error e =>
      rw [hassembled] at h
      cases h
    | ok artifacts =>
      rw [hassembled] at h
      dsimp only [writeResource] at h
      rcases hrun : writeArtifacts config artifacts w.tree with ⟨f | paths, tree⟩ <;>
        rw [hrun] at h <;> cases h
      · exact ⟨.unwritten names hresolve artifacts hassembled f hrun, rfl⟩
      · exact ⟨.generated names hresolve artifacts hassembled paths hrun, rfl⟩

section Steps

variable {file : SchemaFile} {rest : List (SchemaFile × Prepared)} {t : NameTable} {w w' : World}
  {results : Results}

theorem generateAll_done {outcome : Outcome}
    (h : generateAll config ((file, .done outcome) :: rest) t w = (.ok results, w')) :
    ∃ others, generateAll config rest t w = (.ok others, w')
      ∧ results = (⟨file, outcome⟩, none) :: others := by
  rw [generateAll, running_bind] at h
  rcases hrest : generateAll config rest t w with ⟨e | others, w₁⟩ <;> rw [hrest] at h <;> cases h
  exact ⟨others, rfl, rfl⟩

theorem generateAll_ready {r : Resource}
    (h : generateAll config ((file, .ready r) :: rest) t w = (.ok results, w')) :
    ∃ outcome entry t₁ w₁ others, OneEnd config r t t₁ w.tree w₁.tree outcome entry
      ∧ w₁.shown = w.shown ∧ generateAll config rest t₁ w₁ = (.ok others, w')
      ∧ results = (⟨file, outcome⟩, entry) :: others := by
  rw [generateAll, running_bind] at h
  rcases hone : generateOne config r t w with ⟨e | ⟨⟨outcome, entry⟩, t₁⟩, w₁⟩ <;> rw [hone] at h
  · cases h
  · dsimp only at h
    rw [running_bind] at h
    rcases hrest : generateAll config rest t₁ w₁ with ⟨e | others, w₂⟩ <;> rw [hrest] at h <;>
      cases h
    obtain ⟨hend, hshown⟩ := generateOne_end hone
    exact ⟨outcome, entry, t₁, w₁, others, hend, hshown, hrest, rfl⟩

end Steps

theorem OneEnd.resultOf {r : Resource} {t t' : NameTable} {tree tree' : FileTree} {outcome : Outcome}
    {entry : Option ResourceEntry} (h : OneEnd config r t t' tree tree' outcome entry)
    (file : SchemaFile) : ResultOf config (file, .ready r) (⟨file, outcome⟩, entry) := by
  cases h with
  | collided c _ _ => exact .collided file r c
  | unwritten names _ artifacts _ f _ => exact .unwritten file r f
  | generated names _ artifacts hassembled paths hrun =>
    rw [writeArtifacts_listed hassembled hrun]
    exact .generated file r names

theorem generateAll_resultsOf {prepared : List (SchemaFile × Prepared)} {t : NameTable} {w w' : World}
    {results : Results} (h : generateAll config prepared t w = (.ok results, w')) :
    List.Forall₂ (ResultOf config) prepared results := by
  induction prepared generalizing t w results with
  | nil =>
    cases h
    exact .nil
  | cons x rest ih =>
    obtain ⟨file, outcome | r⟩ := x
    · obtain ⟨others, hrest, rfl⟩ := generateAll_done h
      exact .cons (.done file outcome) (ih hrest)
    · obtain ⟨outcome, entry, t₁, w₁, others, hend, -, hrest, rfl⟩ := generateAll_ready h
      exact .cons (hend.resultOf file) (ih hrest)

end Generation

/-! ## All results -/

section Results

variable {config : Config} {prepared : List (SchemaFile × Prepared)} {results : Results}

theorem ResultOf.file_eq {y : SchemaFile × Prepared} {x : FileResult × Option ResourceEntry}
    (h : ResultOf config y x) : x.1.file = y.1 := by
  cases h <;> rfl

theorem resultsOf_files (h : List.Forall₂ (ResultOf config) prepared results) :
    (results.map Prod.fst).map FileResult.file = prepared.map Prod.fst := by
  induction h with
  | nil => rfl
  | cons hx _ ih => rw [List.map_cons, List.map_cons, List.map_cons, hx.file_eq, ih]

/-- A result stands where its file does. -/
theorem resultsOf_split (h : List.Forall₂ (ResultOf config) prepared results) {before after : List FileResult}
    {x : FileResult} (he : results.map Prod.fst = before ++ x :: after) :
    ∃ earlier y later entry, prepared = earlier ++ y :: later
      ∧ earlier.map Prod.fst = before.map FileResult.file ∧ ResultOf config y (x, entry) := by
  induction h generalizing before with
  | nil => exact absurd he (by simp)
  | @cons y z rest others hx _ ih =>
    cases before with
    | nil =>
      obtain ⟨rfl, -⟩ := List.cons.inj he
      exact ⟨[], y, rest, z.2, rfl, rfl, hx⟩
    | cons first before =>
      obtain ⟨rfl, hrest⟩ := List.cons.inj he
      obtain ⟨earlier, y', later, entry, rfl, hfiles, hy'⟩ := ih hrest
      exact ⟨y :: earlier, y', later, entry, rfl, by rw [List.map_cons, List.map_cons, hfiles,
        hx.file_eq], hy'⟩

theorem resultsOf_mem (h : List.Forall₂ (ResultOf config) prepared results) {x : FileResult}
    (hx : x ∈ results.map Prod.fst) : ∃ y ∈ prepared, ∃ entry, ResultOf config y (x, entry) := by
  obtain ⟨before, after, he⟩ := List.append_of_mem hx
  obtain ⟨earlier, y, later, entry, rfl, -, hy⟩ := resultsOf_split h he
  exact ⟨y, by simp, entry, hy⟩

/-- The result of a resource that was generated, with the resource and its type names. -/
def GeneratedAs (config : Config) (prepared : List (SchemaFile × Prepared)) (x : FileResult)
    (b : Named) : Prop :=
  (x.file, .ready b.1) ∈ prepared
    ∧ x.outcome = .generated b.1.dottedPath (listedPaths config b.1)

def generatedOf (results : List FileResult) : List FileResult :=
  results.filter fun x => x.outcome.word == "generated"

variable {tree : FileTree}

/-- The crate is laid out around the resources that were generated. -/
theorem resultsOf_laid (hread : ∀ y ∈ prepared, IsReadAs tree y.1 y.2)
    (h : List.Forall₂ (ResultOf config) prepared results) :
    ∃ laid : List Named,
      List.Forall₂ (GeneratedAs config prepared) (generatedOf (results.map Prod.fst)) laid
      ∧ results.filterMap Prod.snd = laid.map fun b => .ofResource b.1 b.2 := by
  induction h with
  | nil => exact ⟨[], .nil, rfl⟩
  | @cons y z rest others hx _ ih =>
    obtain ⟨laid, hlaid, hentries⟩ := ih fun y hy => hread y (List.mem_cons_of_mem _ hy)
    have hmore : List.Forall₂ (GeneratedAs config (y :: rest))
        (generatedOf (others.map Prod.fst)) laid :=
      hlaid.imp fun x b hb => ⟨List.mem_cons_of_mem _ hb.1, hb.2⟩
    cases hx with
    | done file outcome =>
      cases hread _ List.mem_cons_self with
      | skipped _ => exact ⟨laid, hmore, hentries⟩
      | refused _ d e => exact ⟨laid, hmore, hentries⟩
    | generated file r names =>
      exact ⟨(r, names) :: laid, .cons ⟨List.mem_cons_self, rfl⟩ hmore,
        congrArg (ResourceEntry.ofResource r names :: ·) hentries⟩
    | collided file r c => exact ⟨laid, hmore, hentries⟩
    | unwritten file r f => exact ⟨laid, hmore, hentries⟩

theorem resultsOf_skipped (hread : ∀ y ∈ prepared, IsReadAs tree y.1 y.2)
    (h : List.Forall₂ (ResultOf config) prepared results) {x : FileResult}
    (hx : x ∈ results.map Prod.fst) : x.outcome = .skipped ↔ x.file.isSkipped = true := by
  obtain ⟨y, hy, entry, hmade⟩ := resultsOf_mem h hx
  have hreadAs := hread y hy
  cases hmade <;> cases hreadAs <;> simp_all

end Results

/-! ## Counts -/

theorem errored_has_cause {o : Outcome} (h : o.word = "errored") :
    o.cause?.isSome = true ∧ o.artifacts = [] := by
  cases o with
  | generated d artifacts => simp [Outcome.word] at h
  | skipped => simp [Outcome.word] at h
  | errored d cause => exact ⟨rfl, rfl⟩

/-- Counting goes on from any numbers. -/
theorem summary_foldl (results : List FileResult) (s : Summary) :
    results.foldl (fun s x => s.add x.outcome) s
      = ⟨s.generated + results.countP (·.outcome.word == "generated"),
        s.skipped + results.countP (·.outcome.word == "skipped"),
        s.errored + results.countP (·.outcome.word == "errored")⟩ := by
  induction results generalizing s with
  | nil => rfl
  | cons x results ih =>
    rw [List.foldl_cons, ih]
    simp only [List.countP_cons]
    cases x.outcome <;> simp [Summary.add, Outcome.word] <;> omega

/-- The numbers of a report are those of its results. -/
theorem summary_ofResults (results : List FileResult) : (Report.ofResults results).summary
    = ⟨results.countP (·.outcome.word == "generated"), results.countP (·.outcome.word == "skipped"),
      results.countP (·.outcome.word == "errored")⟩ := by
  rw [Report.ofResults, summary_foldl]
  simp only [Nat.zero_add]

section Counts

variable {results : List FileResult}

theorem countP_generated :
    results.countP (·.outcome.word == "generated") = (generatedOf results).length :=
  List.countP_eq_length_filter

theorem countP_skipped (h : ∀ x ∈ results, x.outcome = .skipped ↔ x.file.isSkipped = true) :
    results.countP (·.outcome.word == "skipped")
      = ((results.map FileResult.file).filter SchemaFile.isSkipped).length := by
  have hword : ∀ o : Outcome, (o.word == "skipped") = true ↔ o = .skipped := by
    intro o
    cases o <;> simp [Outcome.word]
  rw [← List.countP_eq_length_filter, List.countP_map]
  refine List.countP_congr fun x hx => ?_
  rw [hword, h x hx]
  rfl

theorem countP_errored : results.countP (·.outcome.word == "errored")
    = (results.filterMap fun x => x.outcome.cause?).length := by
  have hcause : ∀ o : Outcome, (o.word == "errored") = o.cause?.isSome := by
    intro o
    cases o <;> rfl
  rw [List.length_filterMap_eq_countP]
  exact List.countP_congr fun x _ => by rw [hcause]

/-- Every result is counted once. -/
theorem countP_total (results : List FileResult) :
    results.countP (·.outcome.word == "generated") + results.countP (·.outcome.word == "skipped")
      + results.countP (·.outcome.word == "errored") = results.length := by
  have hone : ∀ o : Outcome, (if o.word == "generated" then 1 else 0)
      + (if o.word == "skipped" then 1 else 0) + (if o.word == "errored" then 1 else 0) = 1 := by
    intro o
    cases o <;> rfl
  induction results with
  | nil => rfl
  | cons x results ih =>
    have hx := hone x.outcome
    simp only [List.countP_cons, List.length_cons]
    omega

end Counts

/-! ## The account -/

/-- What a report says of a run over files that were read from a tree, given the resources around
which the crate was laid out. -/
structure Account (config : Config) (tree : FileTree) (files : List SchemaFile) (report : Report)
    (laid : List Named) : Prop where
  listed : report.results.map FileResult.file = files
  skipped : ∀ x ∈ report.results, x.outcome = .skipped ↔ x.file.isSkipped = true
  repeated : ∀ before x after, report.results = before ++ x :: after →
    ∀ d first, claimed? tree x.file = some d →
      (before.map FileResult.file).find? (fun file => claimed? tree file == some d) = some first →
      ∃ cause, x.outcome = .errored (some d) cause ∧ cause.kind = "SchemaSemanticError"
        ∧ cause.message
          = s!"Invalid schema '{x.file.path}': duplicate resource '{d}', already defined by {first.path}"
  once : report.results.Pairwise fun x y => x.outcome.word = "generated" →
    y.outcome.word = "generated" → x.outcome.dotted? ≠ y.outcome.dotted?
  generated : List.Forall₂
    (fun x b => claimed? tree x.file = some b.1.dottedPath
      ∧ GeneratedAs config (prepare config files tree).1 x b)
    (generatedOf report.results) laid
  errored : ∀ x ∈ report.results, x.outcome.word = "errored" →
    x.outcome.cause?.isSome = true ∧ x.outcome.artifacts = []
  summary : report.summary = ⟨laid.length, (files.filter SchemaFile.isSkipped).length,
    (report.results.filterMap fun x => x.outcome.cause?).length⟩
  total : report.summary.generated + report.summary.skipped + report.summary.errored
    = files.length

section Account

variable {config : Config} {tree : FileTree} {files : List SchemaFile} {results : Results}
  (h : List.Forall₂ (ResultOf config) (prepare config files tree).1 results)

include h

theorem account_repeated {before after : List FileResult} {x : FileResult}
    (he : results.map Prod.fst = before ++ x :: after) {d : String} {first : SchemaFile}
    (hclaimed : claimed? tree x.file = some d)
    (hfirst : (before.map FileResult.file).find? (fun file => claimed? tree file == some d)
      = some first) :
    x.outcome = .errored (some d) (Run.repeated x.file.path d first.path) := by
  obtain ⟨earlier, y, later, entry, hprepared, hfiles, hmade⟩ := resultsOf_split h he
  have hdone : y.2 = .done (.errored (some d) (Run.repeated x.file.path d first.path)) := by
    have hy : x.file = y.1 := hmade.file_eq
    rw [hy] at hclaimed ⊢
    have hclaim : firstClaim? tree [] (earlier.map Prod.fst) d = some first.path := by
      rw [hfiles, firstClaim?, hfirst]
      rfl
    exact readAll_repeated hprepared hclaimed hclaim
  generalize x.file.path = path at hdone ⊢
  cases hmade <;> cases hdone
  rfl

theorem account_generated {x : FileResult} (hx : x ∈ results.map Prod.fst)
    (hword : x.outcome.word = "generated") : ∃ r, (x.file, .ready r) ∈ (prepare config files tree).1
      ∧ claimed? tree x.file = some r.dottedPath ∧ x.outcome.dotted? = some r.dottedPath := by
  obtain ⟨y, hy, entry, hmade⟩ := resultsOf_mem h hx
  have hreadAs := readAll_readAs hy
  cases hmade with
  | done file outcome => cases hreadAs <;> simp [Outcome.word] at hword
  | generated file r names =>
    cases hreadAs with
    | ready _ _ hclaimed => exact ⟨r, hy, hclaimed, rfl⟩
  | collided file r c => simp [Outcome.word] at hword
  | unwritten file r f => simp [Outcome.word] at hword

/-- Of the files with one dotted path only the first can be generated. -/
theorem account_once : (results.map Prod.fst).Pairwise fun x y => x.outcome.word = "generated" →
    y.outcome.word = "generated" → x.outcome.dotted? ≠ y.outcome.dotted? := by
  refine List.pairwise_iff_getElem.mpr fun i j hi hj hij hx hy he => ?_
  have hsplit := List.take_append_drop j (results.map Prod.fst)
  rw [List.drop_eq_getElem_cons hj] at hsplit
  obtain ⟨r, -, hclaimed, hdotted⟩ := account_generated h (List.getElem_mem hi) hx
  obtain ⟨r', -, hclaimed', hdotted'⟩ := account_generated h (List.getElem_mem hj) hy
  rw [hdotted, hdotted'] at he
  obtain ⟨first, hfirst⟩ : ∃ first, (((results.map Prod.fst).take j).map FileResult.file).find?
      (fun file => claimed? tree file == some r'.dottedPath) = some first := by
    rw [← Option.isSome_iff_exists, List.find?_isSome]
    refine ⟨_, List.mem_map_of_mem (List.mem_take_iff_getElem.mpr ⟨i, by omega, rfl⟩), ?_⟩
    rw [hclaimed, he]
    exact beq_self_eq_true _
  have houtcome := account_repeated h hsplit.symm hclaimed' hfirst
  rw [houtcome] at hy
  simp [Outcome.word] at hy

theorem account_of_resultsOf : ∃ laid,
    Account config tree files (.ofResults (results.map Prod.fst)) laid
      ∧ results.filterMap Prod.snd = laid.map fun b => .ofResource b.1 b.2 := by
  have hread : ∀ y ∈ (prepare config files tree).1, IsReadAs tree y.1 y.2 := fun y hy =>
    readAll_readAs hy
  have hfiles : (results.map Prod.fst).map FileResult.file = files :=
    (resultsOf_files h).trans readAll_files
  have hskipped := fun x hx => resultsOf_skipped (x := x) hread h hx
  obtain ⟨laid, hlaid, hentries⟩ := resultsOf_laid hread h
  have hclaimed : ∀ x b, GeneratedAs config (prepare config files tree).1 x b →
      claimed? tree x.file = some b.1.dottedPath := by
    intro x b hb
    cases hread _ hb.1
    assumption
  have hgenerated : (results.map Prod.fst).countP (·.outcome.word == "generated") = laid.length :=
    countP_generated.trans hlaid.length_eq
  have hskip := countP_skipped hskipped
  rw [hfiles] at hskip
  have hsummary := summary_ofResults (results.map Prod.fst)
  exact ⟨laid, {
    listed := hfiles
    skipped := hskipped
    repeated := fun before x after he d first hd hfirst => ⟨_, account_repeated h he hd hfirst,
      repeated_kind _ _ _, repeated_message _ _ _⟩
    once := account_once h
    generated := hlaid.imp fun x b hb => ⟨hclaimed x b hb, hb⟩
    errored := fun x _ => errored_has_cause
    summary := by rw [hsummary, hgenerated, hskip, countP_errored, Report.results_ofResults]
    total := by
      rw [hsummary]
      exact (countP_total _).trans ((List.length_map _).symm.trans (congrArg List.length hfiles)) },
    hentries⟩

end Account

/-! ## Whole runs -/

theorem runWith_of_report {serialize : Serializer} {config : Config} {w w' : World} {report : Report}
    (h : generate config w = (.ok report, w')) :
    runWith serialize config w = match writeReport serialize report config.report
        { w' with shown := w'.shown ++ report.progress config.dryRun } with
      | (.error e, w'') => (.error e, w'')
      | (.ok (), w'') =>
        (if report.summary.errored > 0 then .error (.incomplete report.summary.errored)
          else .ok report, w'') := by
  have htell : tell (report.progress config.dryRun) w'
      = (.ok (), { w' with shown := w'.shown ++ report.progress config.dryRun }) := rfl
  unfold runWith
  rw [running_bind, h]
  dsimp only
  rw [running_bind, htell]
  dsimp only
  rw [running_bind]
  rcases writeReport serialize report config.report
    { w' with shown := w'.shown ++ report.progress config.dryRun } with ⟨e | u, w''⟩
  · rfl
  · dsimp only
    split <;> rfl

theorem writeReport_text {serialize : Serializer} {report : Report} {text : String}
    (h : serialize report = .ok text) (path : String) (w : World) :
    writeReport serialize report (some path) w = writing (replaceFile path text) w := by
  rw [writeReport, running_bind, h, lift_ok]

theorem writeReport_unserialized {serialize : Serializer} {report : Report} {reason : String}
    (h : serialize report = .error reason) (path : String) (w : World) :
    writeReport serialize report (some path) w = (.error (.unserialized reason), w) := by
  rw [writeReport, running_bind, h]
  rfl

/-- **What a report says of its run.** Whenever a run gets to its report, the report has one result for
each file that was found, in their order; a file is skipped exactly if its name says so. Of the files
with one dotted path all but the first are refused with a semantic error that names the first, so that
at most one of them is generated; a resource that was generated is listed with its four files below the
output root, or with none in a dry run, and one that errored has a cause and no files. The summary
counts each result once, and the crate is laid out around exactly the resources that were generated.
The run ends with the number of errored resources if there are any, and else with the report, unless it
was asked for a report file: then it ends with a failure if the report has no written form, or if that
cannot be written to the file. -/
theorem report_accounts_for_run (serialize : Serializer) {config : Config} {w w' : World}
    {report : Report} (h : generate config w = (.ok report, w')) :
    ∃ files tree results w₁ laid, findFiles config w.tree = .ok files
      ∧ cleaned config w.tree = (.ok (), tree)
      ∧ Account config tree files report laid
      ∧ generateAll config (prepare config files tree).1 (prepare config files tree).2
          { w with tree } = (.ok results, w₁)
      ∧ results.map Prod.fst = report.results
      ∧ writeLayout config (laid.map fun b => .ofResource b.1 b.2) w₁ = (.ok (), w')
      ∧ (config.report = none
          ∨ (∃ path text t, config.report = some path ∧ serialize report = .ok text
            ∧ replaceFile path text w'.tree = (.ok (), t)) →
          (runWith serialize config w).1 = if 0 < report.summary.errored
            then .error (.incomplete report.summary.errored) else .ok report)
      ∧ (∀ path reason, config.report = some path → serialize report = .error reason →
          (runWith serialize config w).1 = .error (.unserialized reason))
      ∧ ∀ path text f t, config.report = some path → serialize report = .ok text →
          replaceFile path text w'.tree = (.error f, t) →
          (runWith serialize config w).1 = .error (.write f) := by
  obtain ⟨files, tree, results, w₁, hfiles, hcleaned, hall, hlayout, rfl⟩ := generate_ok h
  obtain ⟨laid, haccount, hentries⟩ := account_of_resultsOf (generateAll_resultsOf hall)
  rw [hentries] at hlayout
  refine ⟨files, tree, results, w₁, laid, hfiles, hcleaned, haccount, hall, rfl, hlayout, ?_,
    fun path reason hpath hnone => ?_, fun path text f t hpath htext hwrite => ?_⟩
  · rintro (hnone | ⟨path, text, t, hpath, htext, hwrite⟩)
    · rw [runWith_of_report h, hnone]
      rfl
    · rw [runWith_of_report h, hpath, writeReport_text htext, writing_apply]
      dsimp only
      rw [hwrite]
  · rw [runWith_of_report h, hpath, writeReport_unserialized hnone]
  · rw [runWith_of_report h, hpath, writeReport_text htext, writing_apply]
    dsimp only
    rw [hwrite]

theorem report_accounts_for_run_one : ∃ report w', generate dryConfig ⟨oneTree, ""⟩
      = (.ok report, w')
    ∧ ∃ files tree results w₁ laid, findFiles dryConfig oneTree = .ok files
      ∧ cleaned dryConfig oneTree = (.ok (), tree)
      ∧ Account dryConfig tree files report laid
      ∧ generateAll dryConfig (prepare dryConfig files tree).1 (prepare dryConfig files tree).2
          ⟨tree, ""⟩ = (.ok results, w₁)
      ∧ results.map Prod.fst = report.results
      ∧ writeLayout dryConfig (laid.map fun b => .ofResource b.1 b.2) w₁ = (.ok (), w')
      ∧ (run dryConfig ⟨oneTree, ""⟩).1 = if 0 < report.summary.errored
          then .error (.incomplete report.summary.errored) else .ok report := by
  obtain ⟨w', hrun⟩ : ∃ w', generate dryConfig ⟨oneTree, ""⟩ = (.ok _, w') :=
    ⟨_, Prod.ext run_oneTree rfl⟩
  obtain ⟨files, tree, results, w₁, laid, hfiles, hcleaned, haccount, hall, hresults, hlayout, hend,
    -⟩ := report_accounts_for_run (fun report => .ok report.json.pretty) hrun
  exact ⟨_, w', hrun, files, tree, results, w₁, laid, hfiles, hcleaned, haccount, hall, hresults,
    hlayout, hend (.inl rfl)⟩

/-! ## A directory in the place of the report -/

/-- Resources are generated and laid out the same wherever the report goes. -/
theorem generate_report (config : Config) (path : Option String) (w : World) :
    generate { config with report := path } w = generate config w := by
  have hall : ∀ (prepared : List (SchemaFile × Prepared)) (t : NameTable),
      generateAll { config with report := path } prepared t = generateAll config prepared t := by
    intro prepared
    induction prepared with
    | nil => exact fun _ => rfl
    | cons x rest ih =>
      obtain ⟨file, outcome | r⟩ := x
      · intro t
        rw [generateAll, generateAll, ih]
      · intro t
        rw [generateAll, generateAll]
        refine congrArg (generateOne config r t >>= ·) (funext ?_)
        rintro ⟨⟨outcome, entry⟩, t⟩
        dsimp only
        rw [ih]
  have hproduce : ∀ (files : List SchemaFile) (w : World),
      produce { config with report := path } files w = produce config files w := by
    intro files w
    unfold produce prepare
    rw [hall]
    rfl
  rw [generate_eq, generate_eq]
  simp only [hproduce]
  rfl

/-- The report is asked for where the schemas are. -/
def reportConfig : Config := { outConfig with report := some "schemas" }

/-- No file can take the place of a directory. -/
theorem replaceFile_schemas (text : String) {t : FileTree} (hhere : t.workingDirectory = [])
    (hdirectory : t.get? ["schemas"] = some .directory) (hfree : t.get? ["schemas.tmp"] = none)
    (hcalm : t.Calm) :
    ∃ t', replaceFile "schemas" text t = (.error ⟨"schemas", .isDirectory⟩, t') := by
  have hlead : FileTree.LeadsTo "schemas" [] "schemas"
      ∧ FileTree.LeadsTo "schemas.tmp" [] "schemas.tmp" := by decide
  have hdirs : ∀ t : FileTree, t.HasDirectories [] := fun _ n hn => absurd hn (Nat.not_lt_zero n)
  have htemporary : FileTree.Path.temporary "schemas" = "schemas.tmp" := by decide
  have hparent : FileTree.makeParent "schemas" t = (.ok (), t) := by
    have hnone : FileTree.Path.parent? "schemas" = some "" := by decide
    rw [FileTree.makeParent, hnone]
    rfl
  have hplain : FileTree.dropSlashes "schemas" = "schemas" := by decide
  have hoccupied : FileTree.occupied "schemas" = .isDirectory := by decide
  let t₁ := t.insert ["schemas.tmp"] (.file text.toUTF8.data)
  have hwrite : FileTree.writeFile "schemas.tmp" text.toUTF8.data t = (.ok (), t₁) := by
    have hfree' : t.get? (t.workingDirectory ++ [] ++ ["schemas.tmp"]) = none := by
      rw [hhere]
      exact hfree
    rw [FileTree.writeFile_apply, FileTree.locate_free hlead.2 (hdirs t) hfree', hhere]
    exact FileTree.store_calm _ _ hcalm
  have hmoved : t₁.locate false "schemas.tmp"
      = .ok (.found (t₁.workingDirectory ++ [] ++ ["schemas.tmp"]) (.file text.toUTF8.data)) := by
    refine FileTree.locate_file hlead.2 (hdirs t₁) ?_
    show t₁.get? (t.workingDirectory ++ [] ++ ["schemas.tmp"]) = _
    rw [hhere]
    exact (FileTree.get?_insert (by simp) _).trans (if_pos rfl)
  have hthere : t₁.locate false "schemas"
      = .ok (.found (t₁.workingDirectory ++ [] ++ ["schemas"]) .directory) := by
    refine FileTree.locate_directory hlead.1 (hdirs t₁) ?_
    show t₁.get? (t.workingDirectory ++ [] ++ ["schemas"]) = _
    rw [hhere]
    exact (FileTree.get?_insert (by simp) _).trans ((if_neg (by simp)).trans hdirectory)
  refine ⟨t₁, ?_⟩
  rw [replaceFile, htemporary, FileTree.bind_apply, hparent]
  dsimp only
  rw [FileTree.bind_apply, at_apply, hwrite]
  dsimp only
  rw [at_apply, FileTree.rename_found hmoved (by simp), hplain, hthere, hoccupied]

/-- The only resource has errored, and the run ends with the failure to write the report. -/
theorem unwritable_report_hides_errored : ∃ report w',
    generate reportConfig ⟨blockedTree, ""⟩ = (.ok report, w') ∧ report.summary.errored = 1
      ∧ (run reportConfig ⟨blockedTree, ""⟩).1 = .error (.write ⟨"schemas", .isDirectory⟩)
      ∧ (run reportConfig ⟨blockedTree, ""⟩).1 ≠ .error (.incomplete 1) := by
  obtain ⟨model, top, cargo, hrun⟩ := run_blockedTree
  have hgenerate : generate reportConfig ⟨blockedTree, ""⟩ = _ :=
    (generate_report outConfig (some "schemas") _).trans hrun
  have hget : ∀ p, p ≠ ["out", "Cargo.tmp"] → p ≠ ["out", "Cargo.toml"] →
      p ≠ ["out", "src", "lib.tmp"] → p ≠ ["out", "src", "lib.rs"] →
      p ≠ ["out", "src", "config", "a_b", "model.tmp"] →
      p ≠ ["out", "src", "config", "a_b", "model.rs"] →
      (putFile (blockedTop model top) ["out", "Cargo.tmp"] ["out", "Cargo.toml"] cargo).get? p
        = blockedTree.get? p := by
    intro p h₁ h₂ h₃ h₄ h₅ h₆
    rw [get?_putFile (by decide) (by decide), if_neg h₂, if_neg h₁, get?_blockedTop _ _ h₃ h₄,
      get?_blockedModel _ h₅ h₆]
  obtain ⟨t', hreport⟩ := replaceFile_schemas blockedReport.json.pretty
    (t := putFile (blockedTop model top) ["out", "Cargo.tmp"] ["out", "Cargo.toml"] cargo) rfl
    ((hget _ (by decide) (by decide) (by decide) (by decide) (by decide) (by decide)).trans rfl)
    ((hget _ (by decide) (by decide) (by decide) (by decide) (by decide) (by decide)).trans rfl)
    rfl
  have hend : (run reportConfig ⟨blockedTree, ""⟩).1
      = .error (.write ⟨"schemas", .isDirectory⟩) := by
    have hpath : reportConfig.report = some "schemas" := rfl
    rw [run, runWith_of_report hgenerate, hpath, writeReport_text rfl, writing_apply]
    dsimp only
    rw [hreport]
  exact ⟨blockedReport, _, hgenerate, by decide, hend, by rw [hend]; simp⟩

end RestForge.Run
