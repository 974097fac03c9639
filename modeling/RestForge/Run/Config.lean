import RestForge.Crate.Manifest

/-!
# The configuration of a run

* `Config`: where schemas are read and files are written, and how.
* `ConfigFlaw`: a configuration that no run can have.
* `Config.flaw?`: the first flaw that shows without looking at any file.
-/

set_option autoImplicit false

namespace RestForge.Run

structure Config where
  schemaRoot : String
  outputRoot : String
  /-- How deep tables may nest. -/
  maxDepth : Nat
  /-- The number of workers; without it there are as many as the machine has. -/
  jobs : Option Nat
  crateName : String
  /-- Where the runtime library lies, if not in a registry. -/
  runtimePath : Option String
  /-- Where the report is written. -/
  report : Option String
  /-- Sources of an earlier run are removed first. -/
  clean : Bool
  /-- Nothing but the report is written. -/
  dryRun : Bool
  deriving Repr, DecidableEq

namespace Config

def standard : Config :=
  { schemaRoot := "schemas"
    outputRoot := "stencil/api"
    maxDepth := 4
    jobs := none
    crateName := "stencil-api"
    runtimePath := none
    report := none
    clean := false
    dryRun := false }

end Config

inductive ConfigFlaw where
  | noJobs
  | noDepth
  | badCrateName (name : String)
  | noSchemaRoot (path : String)
  deriving Repr, DecidableEq

def ConfigFlaw.text : ConfigFlaw → String
  | noJobs => "--jobs must be at least 1"
  | noDepth => "--max-depth must be at least 1"
  | badCrateName name => s!"Invalid crate name: '{name}'"
  | noSchemaRoot path => s!"Schema root is not a directory: {path}"

def Config.flaw? (c : Config) : Option ConfigFlaw :=
  if c.jobs = some 0 then some .noJobs
  else if c.maxDepth = 0 then some .noDepth
  else if !Crate.isName c.crateName then some (.badCrateName c.crateName)
  else none

end RestForge.Run
