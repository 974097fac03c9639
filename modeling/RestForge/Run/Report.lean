import RestForge.Json.Printer
import RestForge.Run.Failure
import RestForge.Schema.Document

/-!
# The report of a run

* `Outcome`, `FileResult`: what became of one schema file.
* `Summary`, `Report`: the results of a run in the order of the files, and their numbers.
* `Report.ofResults`: the report of some results, counted one after another.
* `Report.json`: the form in which a report is written to a file.
* `Report.progress`: the form in which it is shown.
-/

set_option autoImplicit false

namespace RestForge.Run

open Schema (SchemaFile)

/-! ## Results -/

/-- The path of a resource that errored is known once its header was read. -/
inductive Outcome where
  | generated (dotted : String) (artifacts : List String)
  | skipped
  | errored (dotted : Option String) (cause : Cause)
  deriving Repr, DecidableEq

namespace Outcome

def word : Outcome → String
  | generated _ _ => "generated"
  | skipped => "skipped"
  | errored _ _ => "errored"

def dotted? : Outcome → Option String
  | generated dotted _ => some dotted
  | skipped => none
  | errored dotted _ => dotted

def artifacts : Outcome → List String
  | generated _ artifacts => artifacts
  | _ => []

def cause? : Outcome → Option Cause
  | errored _ cause => some cause
  | _ => none

end Outcome

structure FileResult where
  file : SchemaFile
  outcome : Outcome
  deriving Repr, DecidableEq

/-! ## Reports -/

/-- How many files ended in each way. -/
structure Summary where
  generated : Nat
  skipped : Nat
  errored : Nat
  deriving Repr, DecidableEq

/-- The summary with one more file. -/
def Summary.add (s : Summary) : Outcome → Summary
  | .generated _ _ => { s with generated := s.generated + 1 }
  | .skipped => { s with skipped := s.skipped + 1 }
  | .errored _ _ => { s with errored := s.errored + 1 }

structure Report where
  summary : Summary
  results : List FileResult
  deriving Repr, DecidableEq

def Report.ofResults (results : List FileResult) : Report :=
  ⟨results.foldl (fun s x => s.add x.outcome) ⟨0, 0, 0⟩, results⟩

@[simp] theorem Report.results_ofResults (results : List FileResult) :
    (Report.ofResults results).results = results := rfl

/-! ## Written form -/

def Cause.json (c : Cause) : Json :=
  .object [("kind", .string c.kind), ("message", .string c.message)]

def Summary.json (s : Summary) : Json :=
  .object [("generated", .nat s.generated), ("skipped", .nat s.skipped), ("errored", .nat s.errored)]

/-- Members whose value is not known are left out. -/
def FileResult.json (x : FileResult) : Json :=
  .object ([("source", .string x.file.path)]
    ++ (x.outcome.dotted?.map fun d => ("dotted_path", Json.string d)).toList
    ++ [("outcome", .string x.outcome.word), ("artifacts", .strings x.outcome.artifacts)]
    ++ (x.outcome.cause?.map fun c => ("error", c.json)).toList)

def Report.json (r : Report) : Json :=
  .object [("summary", r.summary.json), ("results", .array (r.results.map FileResult.json))]

/-! ## Shown form -/

def FileResult.line (x : FileResult) : String :=
  match x.outcome with
  | .generated dotted _ => s!"  ✓ {dotted} ({x.file.relative})"
  | .skipped => s!"  - {x.file.relative} (skipped)"
  | .errored _ cause => s!"  ✗ {x.file.relative} {cause.kind}: {cause.message}"

def Summary.line (s : Summary) : String :=
  s!"Summary: {s.generated} generated, {s.skipped} skipped, {s.errored} errored"

def Report.lines (r : Report) (dryRun : Bool) : List String :=
  r.results.map FileResult.line ++ ["", r.summary.line]
    ++ (if dryRun then ["  --dry-run (no files written)"] else [])

def Report.progress (r : Report) (dryRun : Bool) : String :=
  String.join ((r.lines dryRun).map (· ++ "\n"))

end RestForge.Run
