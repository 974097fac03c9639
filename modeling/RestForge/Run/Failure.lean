import RestForge.Emit.Basic
import RestForge.FileTree.Replacement
import RestForge.Run.Config
import RestForge.Schema.Error

/-!
# What stops a resource, and what stops a run

* `Cause`: why one resource was not generated; the others go on.
* `Failure`: why a run ends without success. An illegal type name ends it at once, without a report.
-/

set_option autoImplicit false

namespace RestForge.Run

open FileTree (WriteFailure)

/-! ## Resources -/

inductive Cause where
  | schema (e : Schema.SchemaError)
  | collision (c : Naming.Collision)
  | write (f : WriteFailure)
  deriving Repr, DecidableEq

namespace Cause

/-- The class of the cause in reports. -/
def kind : Cause → String
  | schema e => e.kind
  | collision _ => "IdentifierCollisionError"
  | write _ => "WriteError"

def message : Cause → String
  | schema e => e.message
  | collision c => c.message
  | write f => f.message

end Cause

/-! ## Runs -/

inductive Failure where
  | config (flaw : ConfigFlaw)
  | write (f : WriteFailure)
  /-- The run went through and some resources were not generated. -/
  | incomplete (errored : Nat)
  | illegalName (n : Emit.IllegalName)
  /-- The report has no written form. -/
  | unserialized (reason : String)
  deriving Repr, DecidableEq

namespace Failure

def kind : Failure → String
  | config _ => "ConfigError"
  | write _ => "WriteError"
  | incomplete _ => "RunFailed"
  | illegalName _ => "IllegalName"
  | unserialized _ => "CodeGenError"

def unserializedText (reason : String) : String := s!"Failed to serialize run report: {reason}"

def message : Failure → String
  | config flaw => s!"Invalid configuration: {flaw.text}"
  | write f => f.message
  | incomplete errored => s!"{errored} resource(s) failed to generate"
  | illegalName n => s!"{Text.quote n.name} is not a valid type name"
  | unserialized reason => s!"Code generation failed: {unserializedText reason}"

/-- The parts of a fault by name. -/
def faultDetail (f : FileTree.Fault) : String :=
  match f.code? with
  | some code =>
    s!"Os \x7b code: {code}, kind: {f.word}, message: {Text.quote f.description} \x7d"
  | none => s!"Error \x7b kind: {f.word}, message: {Text.quote f.description} \x7d"

/-- The parts of a failure by name. -/
def detail : Failure → String
  | config flaw => s!"ConfigError({Text.quote flaw.text})"
  | write f => s!"WriteError \x7b path: {Text.quote f.path}, source: {faultDetail f.fault} \x7d"
  | incomplete errored => s!"RunFailed \x7b errored: {errored} \x7d"
  | illegalName n => s!"IllegalName({Text.quote n.name})"
  | unserialized reason => s!"CodeGenError({Text.quote (unserializedText reason)})"

end Failure

end RestForge.Run
