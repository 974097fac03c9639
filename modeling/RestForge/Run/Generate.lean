import RestForge.Crate.ModuleTree
import RestForge.Run.Report
import RestForge.Schema.Reader

/-!
# Runs

A run finds the schema files, reads each of them, generates the resources that could be read, lays
out the crate around those that were generated, and reports. A resource that fails stops no other.

* `World`: what a run changes: the files, and what has been shown.
* `readAll`: reading of all files, one after another with one table of names. The first file with a
  dotted path keeps it, whether or not the rest of the file can be read.
* `generateAll`: generation of the resources that were read.
* `generate`: a run without progress and report; `runWith`: a whole run, given the written form of
  reports; `run`: with the form that reports have.
-/

set_option autoImplicit false

namespace RestForge.Run

open Schema (SchemaFile SchemaError Flaw)
open Naming (NameTable)
open FileTree (WriteFailure Writing)

/-! ## Reading -/

/-- A file that was read, or that already has its result. -/
inductive Prepared where
  | done (outcome : Outcome)
  | ready (resource : Resource)

/-- The paths of files by the dotted paths that they were the first to claim. -/
abbrev Claims := List (String × String)

def stop (dotted : Option String) (e : SchemaError) : Prepared :=
  .done (.errored dotted (.schema e))

/-- Reads the document of a file that was the first to claim its path. -/
def readClaimed (maxDepth : Nat) (file : SchemaFile) (dotted : String) (doc : Json) (t : NameTable) :
    Prepared × NameTable :=
  match Schema.readResource maxDepth doc t with
  | (.ok r, t) => (.ready r, t)
  | (.error e, t) => (stop (some dotted) (.refused file.path e), t)

def readFile (maxDepth : Nat) (tree : FileTree) (file : SchemaFile) (claims : Claims)
    (t : NameTable) : Prepared × Claims × NameTable :=
  if file.isSkipped then (.done .skipped, claims, t)
  else
    match Schema.load tree file.path with
    | .error e => (stop none e, claims, t)
    | .ok doc =>
      match Schema.readDottedPath doc with
      | .error e => (stop none (.refused file.path e), claims, t)
      | .ok dotted =>
        match claims.lookup dotted with
        | some first =>
          let flaw := Flaw.duplicateResource dotted first
          (stop (some dotted) (.refused file.path (.flawed flaw)), claims, t)
        | none =>
          let (prepared, t) := readClaimed maxDepth file dotted doc t
          (prepared, (dotted, file.path) :: claims, t)

def readAll (maxDepth : Nat) (tree : FileTree) :
    List SchemaFile → Claims → NameTable → List (SchemaFile × Prepared) × NameTable
  | [], _, t => ([], t)
  | file :: files, claims, t =>
    let (prepared, claims, t) := readFile maxDepth tree file claims t
    let (rest, t) := readAll maxDepth tree files claims t
    ((file, prepared) :: rest, t)

/-! ## Generation -/

/-- What a run changes. -/
structure World where
  tree : FileTree
  shown : String

abbrev Running := ExceptT Failure (StateM World)

/-- A failure to write ends the run. -/
def writing (act : Writing Unit) : Running Unit := fun w =>
  match act w.tree with
  | (.ok (), tree) => (.ok (), { w with tree })
  | (.error f, tree) => (.error (.write f), { w with tree })

def lift {ε α : Type} (toFailure : ε → Failure) : Except ε α → Running α
  | .ok value => pure value
  | .error e => throw (toFailure e)

def tell (text : String) : Running Unit := modify fun w => { w with shown := w.shown ++ text }

/-- Writes files below the output root, in order; the first failure is the answer. -/
def writeFiles (root : String) : List (List String × String) → Writing Unit
  | [] => pure ()
  | (path, contents) :: files => do
    FileTree.replaceFile (FileTree.Path.join root path) contents
    writeFiles root files

/-- The files of a resource are written once all of them are there. -/
def writeArtifacts (config : Config) (artifacts : List Emit.Artifact) : Writing (List String) := do
  if config.dryRun then return []
  else
    writeFiles config.outputRoot (artifacts.map fun a => (a.path, a.contents))
    return artifacts.map fun a => FileTree.Path.join config.outputRoot a.path

/-- An outcome, and what the module files need to know about a resource that was generated. -/
abbrev Generated := Outcome × Option Crate.ResourceEntry

def writeResource (config : Config) (r : Resource) (names : Naming.TypeNames)
    (artifacts : List Emit.Artifact) : StateM World Generated := fun w =>
  match writeArtifacts config artifacts w.tree with
  | (.ok paths, tree) =>
    ((.generated r.dottedPath paths, some (.ofResource r names)), { w with tree })
  | (.error f, tree) => ((.errored (some r.dottedPath) (.write f), none), { w with tree })

def generateOne (config : Config) (r : Resource) (t : NameTable) :
    Running (Generated × NameTable) := do
  match Naming.resolve r t with
  | (.error c, t) => return ((.errored (some r.dottedPath) (.collision c), none), t)
  | (.ok names, t) =>
    let artifacts ← lift .illegalName (Emit.assemble r names)
    let generated ← writeResource config r names artifacts
    return (generated, t)

def generateAll (config : Config) :
    List (SchemaFile × Prepared) → NameTable → Running (List (FileResult × Option Crate.ResourceEntry))
  | [], _ => return []
  | (file, .done outcome) :: rest, t =>
    return (⟨file, outcome⟩, none) :: (← generateAll config rest t)
  | (file, .ready r) :: rest, t => do
    let ((outcome, entry), t) ← generateOne config r t
    return (⟨file, outcome⟩, entry) :: (← generateAll config rest t)

/-! ## Layout -/

def manifest (config : Config) : String := Crate.manifest config.crateName config.runtimePath

/-- Module files and manifest; a dry run shows the manifest instead. -/
def writeLayout (config : Config) (entries : List Crate.ResourceEntry) : Running Unit := do
  let files ← lift .illegalName (Crate.layOut entries)
  if config.dryRun then tell (manifest config ++ "\n")
  else
    writing (writeFiles config.outputRoot (files.map fun f => (f.path, f.contents)))
    writing (writeFiles config.outputRoot [(["Cargo.toml"], manifest config)])

/-! ## Whole runs -/

def findFiles (config : Config) (tree : FileTree) : Except ConfigFlaw (List SchemaFile) :=
  match config.flaw? with
  | some flaw => .error flaw
  | none =>
    match Schema.discover tree config.schemaRoot with
    | some files => .ok files
    | none => .error (.noSchemaRoot config.schemaRoot)

/-- The directory of all generated sources. -/
def sourceRoot (config : Config) : String := FileTree.Path.join config.outputRoot ["src"]

def generate (config : Config) : Running Report := do
  let files ← lift .config (findFiles config (← get).tree)
  if config.clean && !config.dryRun then
    writing (FileTree.removeTree (sourceRoot config))
  let (prepared, t) := readAll config.maxDepth (← get).tree files [] .empty
  let results ← generateAll config prepared t
  writeLayout config (results.filterMap Prod.snd)
  return .ofResults (results.map Prod.fst)

/-- The written form of a report, or why it has none. -/
abbrev Serializer := Report → Except String String

def writeReport (serialize : Serializer) (report : Report) : Option String → Running Unit
  | none => pure ()
  | some path => do
    let text ← lift .unserialized (serialize report)
    writing (FileTree.replaceFile path text)

def runWith (serialize : Serializer) (config : Config) : Running Report := do
  let report ← generate config
  tell (report.progress config.dryRun)
  writeReport serialize report config.report
  if report.summary.errored > 0 then throw (.incomplete report.summary.errored)
  return report

/-- Paths are Unicode text here, so that every report has a written form. -/
def run (config : Config) : Running Report := runWith (fun report => .ok report.json.pretty) config

end RestForge.Run
